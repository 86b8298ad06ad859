import Mathlib.Algebra.Order.Ring.Int
import Mathlib.Data.List.Basic

/-! # Calls that return or raise

When a call that may raise returns, and what holds of its value then. -/

namespace LlmHoneypot

/-- The call returns a value of which `post` holds where `pre` holds, and raises elsewhere. -/
structure ReturnsWhen {Error Value : Type} (call : Except Error Value) (pre : Prop)
    (post : Value → Prop) : Prop where
  returns : pre → ∃ value, call = .ok value ∧ post value
  raises : ¬ pre → ∃ error, call = .error error

namespace ReturnsWhen

variable {Error Value Next : Type} {call : Except Error Value} {pre pre' : Prop}
  {post post' : Value → Prop}

theorem ok {value : Value} (holds : post value) :
    ReturnsWhen (.ok value : Except Error Value) True post where
  returns _ := ⟨value, rfl, holds⟩
  raises absent := absurd trivial absent

theorem congr (same : pre ↔ pre') (returned : ReturnsWhen call pre post) :
    ReturnsWhen call pre' post where
  returns holds := returned.returns (same.mpr holds)
  raises absent := returned.raises (mt same.mp absent)

theorem imp (weaken : ∀ value, post value → post' value) (returned : ReturnsWhen call pre post) :
    ReturnsWhen call pre post' where
  returns holds := by
    obtain ⟨value, equal, holdsOf⟩ := returned.returns holds
    exact ⟨value, equal, weaken value holdsOf⟩
  raises := returned.raises

theorem raising (raised : ∃ error, call = .error error) : ReturnsWhen call False post where
  returns absurdity := absurdity.elim
  raises _ := raised

theorem bind {later : Value → Except Error Next} {last : Next → Prop}
    (first : ReturnsWhen call pre post)
    (second : ∀ value, post value → ReturnsWhen (later value) pre' last) :
    ReturnsWhen (call >>= later) (pre ∧ pre') last where
  returns both := by
    obtain ⟨value, equal, holds⟩ := first.returns both.1
    rw [equal]
    exact (second value holds).returns both.2
  raises absent := by
    by_cases holds : pre
    · obtain ⟨value, equal, holdsOf⟩ := first.returns holds
      rw [equal]
      exact (second value holdsOf).raises fun also => absent ⟨holds, also⟩
    · obtain ⟨error, equal⟩ := first.raises holds
      rw [equal]
      exact ⟨error, rfl⟩

theorem bind_ok {later : Value → Except Error Next} {last : Next → Prop}
    (first : ReturnsWhen call pre post)
    (second : ∀ value, post value → ∃ next, later value = .ok next ∧ last next) :
    ReturnsWhen (call >>= later) pre last := by
  have always : ∀ value, post value → ReturnsWhen (later value) True last := by
    intro value holds
    obtain ⟨next, equal, holdsOf⟩ := second value holds
    rw [equal]
    exact .ok holdsOf
  exact (first.bind always).congr (by rw [and_true])

theorem bind_raises {later : Value → Except Error Next} (first : ReturnsWhen call pre post)
    (second : ∀ value, post value → ∃ error, later value = .error error) :
    ∃ error, (call >>= later) = .error error := by
  have never : ∀ value, post value → ReturnsWhen (later value) False fun _ => True :=
    fun value holds => .raising (second value holds)
  exact (first.bind never).raises And.right

theorem of_ok (returned : ReturnsWhen call pre post) {value : Value} (equal : call = .ok value) :
    pre ∧ post value := by
  by_cases holds : pre
  · obtain ⟨other, otherEq, holdsOf⟩ := returned.returns holds
    rw [equal] at otherEq
    cases otherEq
    exact ⟨holds, holdsOf⟩
  · obtain ⟨error, errorEq⟩ := returned.raises holds
    rw [equal] at errorEq
    cases errorEq

theorem exists_iff {wanted : Value → Prop} {condition : Prop}
    (returned : ReturnsWhen call pre post)
    (exact_ : ∀ value, post value → (wanted value ↔ condition)) :
    (∃ value, call = .ok value ∧ wanted value) ↔ pre ∧ condition := by
  constructor
  · rintro ⟨value, equal, asked⟩
    obtain ⟨holds, holdsOf⟩ := returned.of_ok equal
    exact ⟨holds, (exact_ value holdsOf).mp asked⟩
  · rintro ⟨holds, met⟩
    obtain ⟨value, equal, holdsOf⟩ := returned.returns holds
    exact ⟨value, equal, (exact_ value holdsOf).mpr met⟩

end ReturnsWhen

def Leaves {Error State Value : Type} (call : Except (Error × State) Value)
    (returned : Value → Prop) (raised : State → Prop) : Prop :=
  match call with
  | .ok value => returned value
  | .error (_, state) => raised state

namespace Leaves

variable {Error State Value Next : Type} {call : Except (Error × State) Value}
  {returned returned' : Value → Prop} {raised raised' : State → Prop}

theorem imp (value : ∀ value, returned value → returned' value)
    (state : ∀ state, raised state → raised' state) (leaves : Leaves call returned raised) :
    Leaves call returned' raised' := by
  cases call with
  | ok found => exact value found leaves
  | error error => exact state error.2 leaves

theorem bind {later : Value → Except (Error × State) Next} {last : Next → Prop}
    (first : Leaves call returned raised)
    (second : ∀ value, returned value → Leaves (later value) last raised) :
    Leaves (call >>= later) last raised := by
  cases call with
  | ok value => exact second value first
  | error error => exact first

theorem and (left : Leaves call returned raised) (right : Leaves call returned' raised') :
    Leaves call (fun value => returned value ∧ returned' value)
      (fun state => raised state ∧ raised' state) := by
  cases call with
  | ok value => exact ⟨left, right⟩
  | error error => exact ⟨left, right⟩

theorem of_ok {value : Value} (leaves : Leaves call returned raised) (equal : call = .ok value) :
    returned value := by
  rw [equal] at leaves
  exact leaves

theorem of_error {error : Error} {state : State} (leaves : Leaves call returned raised)
    (equal : call = .error (error, state)) : raised state := by
  rw [equal] at leaves
  exact leaves

end Leaves

theorem foldlM_invariant {State Item Error : Type} {step : State → Item → Except Error State}
    (invariant : State → Prop)
    (kept : ∀ {state item next}, invariant state → step state item = .ok next → invariant next)
    {items : List Item} {state final : State} (start : invariant state)
    (ran : items.foldlM step state = .ok final) : invariant final := by
  induction items generalizing state with
  | nil =>
      cases ran
      exact start
  | cons item items induction =>
      rw [List.foldlM_cons] at ran
      cases taken : step state item with
      | error error =>
          rw [taken] at ran
          cases ran
      | ok next =>
          rw [taken] at ran
          exact induction (kept start taken) ran

end LlmHoneypot
