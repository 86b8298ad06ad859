import Mathlib.Algebra.Order.Ring.Int
import Mathlib.Data.List.DropRight

/-! # Runs of an event-driven system

A system takes events one at a time; an event that is not enabled ends the run.
The rules below carry a fact about one step to every run. -/

namespace LlmHoneypot

namespace EventRun

variable {State Event : Type}

/-- The state after a list of events, `none` when one of them is not enabled. -/
def run (step : State → Event → Option State) : State → List Event → Option State
  | state, [] => some state
  | state, event :: events => (step state event).bind (run step · events)

/-- `good` holds of every event of a run in the state it is taken in. -/
def Along (step : State → Event → Option State) (good : State → Event → Prop) :
    State → List Event → Prop
  | _, [] => True
  | state, event :: events =>
      good state event ∧ ∀ next, step state event = some next → Along step good next events

variable {step : State → Event → Option State}

instance Along.decidable (good : State → Event → Prop) [∀ state, DecidablePred (good state)] :
    ∀ state events, Decidable (Along step good state events)
  | _, [] => .isTrue trivial
  | state, event :: events =>
      match isNext : step state event with
      | none => decidable_of_iff (good state event) (by simp [Along, isNext])
      | some next =>
          have : Decidable (Along step good next events) := Along.decidable good next events
          decidable_of_iff (good state event ∧ Along step good next events) (by simp [Along, isNext])

theorem along_cons {good : State → Event → Prop} {state next : State} {event : Event}
    {events : List Event} (taken : step state event = some next) (here : good state event)
    (later : Along step good next events) : Along step good state (event :: events) := by
  apply And.intro here
  intro other isNext
  rw [taken] at isNext
  cases isNext
  exact later

@[simp] theorem run_nil (state : State) : run step state [] = some state := rfl

theorem run_cons {state final : State} {event : Event} {events : List Event} :
    run step state (event :: events) = some final ↔
      ∃ next, step state event = some next ∧ run step next events = some final :=
  Option.bind_eq_some_iff

theorem run_append {state : State} {first second : List Event} :
    run step state (first ++ second) = (run step state first).bind (run step · second) := by
  induction first generalizing state with
  | nil => rfl
  | cons event events induction =>
      simp only [List.cons_append, run, Option.bind_assoc, induction]

def Repeats (step : State → Event → Option State) (event : Event) (first last : State) : Prop :=
  ∃ count, run step first (List.replicate count event) = some last

namespace Repeats

variable {event : Event} {first next last : State}

theorem refl (state : State) : Repeats step event state state := ⟨0, rfl⟩

theorem single (taken : step first event = some next) : Repeats step event first next :=
  ⟨1, run_cons.mpr ⟨next, taken, rfl⟩⟩

theorem trans (left : Repeats step event first next) (right : Repeats step event next last) :
    Repeats step event first last := by
  rcases left with ⟨few, ranFirst⟩
  rcases right with ⟨more, ranLater⟩
  use few + more
  rw [List.replicate_add, run_append, ranFirst]
  exact ranLater

theorem head (taken : step first event = some next) (later : Repeats step event next last) :
    Repeats step event first last := (single taken).trans later

end Repeats

theorem run_invariant (invariant : State → Prop)
    (kept : ∀ {state event next}, invariant state → step state event = some next →
      invariant next)
    {state final : State} {events : List Event} (start : invariant state)
    (ran : run step state events = some final) : invariant final := by
  induction events generalizing state with
  | nil =>
      cases ran
      exact start
  | cons event events induction =>
      rcases run_cons.mp ran with ⟨next, taken, ranOn⟩
      exact induction (kept start taken) ranOn

theorem run_invariant_along {good : State → Event → Prop} (invariant : State → Prop)
    {events : List Event}
    (kept : ∀ {state event next}, event ∈ events → invariant state → good state event →
      step state event = some next → invariant next)
    {state final : State} (start : invariant state)
    (along : Along step good state events) (ran : run step state events = some final) :
    invariant final := by
  induction events generalizing state with
  | nil =>
      cases ran
      exact start
  | cons event events induction =>
      rcases run_cons.mp ran with ⟨next, taken, ranOn⟩
      have first := kept (List.mem_cons_self ..) start along.1 taken
      exact induction (fun member => kept (List.mem_cons_of_mem _ member)) first
        (along.2 next taken) ranOn

theorem run_relation (relation : State → State → Prop) (refl : ∀ state, relation state state)
    (trans : ∀ {first second third}, relation first second → relation second third →
      relation first third)
    (stepped : ∀ {state event next}, step state event = some next → relation state next)
    {state final : State} {events : List Event}
    (ran : run step state events = some final) : relation state final := by
  induction events generalizing state with
  | nil =>
      cases ran
      exact refl _
  | cons event events induction =>
      rcases run_cons.mp ran with ⟨next, taken, ranOn⟩
      exact trans (stepped taken) (induction ranOn)

/-- Where an invariant holds and a step keeps a fact exactly when it is good, a run
ends with the fact exactly when all its steps are good. -/
theorem run_iff_along {good : State → Event → Prop} (invariant fact : State → Prop)
    (kept : ∀ {state event next}, invariant state → step state event = some next →
      invariant next)
    (exact_ : ∀ {state event next}, invariant state → step state event = some next →
      (fact next ↔ fact state ∧ good state event))
    {state final : State} {events : List Event} (start : invariant state)
    (ran : run step state events = some final) :
    fact final ↔ fact state ∧ Along step good state events := by
  induction events generalizing state with
  | nil =>
      cases ran
      simp [Along]
  | cons event events induction =>
      rcases run_cons.mp ran with ⟨next, taken, ranOn⟩
      rw [induction (kept start taken) ranOn, exact_ start taken, and_assoc]
      simp [Along, taken]

/-- Two facts about a step that agree wherever an invariant holds agree along every run,
where the invariant is kept by the steps that are good. -/
theorem along_congr_of_good {good other : State → Event → Prop} (invariant : State → Prop)
    (kept : ∀ {state event next}, invariant state → good state event →
      step state event = some next → invariant next)
    (agree : ∀ {state event}, invariant state → (good state event ↔ other state event))
    {state : State} (start : invariant state) (events : List Event) :
    Along step good state events ↔ Along step other state events := by
  induction events generalizing state with
  | nil => rfl
  | cons event events induction =>
      simp only [Along, agree start]
      apply and_congr_right
      intro isGood
      apply forall_congr'
      intro next
      apply imp_congr_right
      intro taken
      exact induction (kept start ((agree start).mpr isGood) taken)

theorem along_congr {good other : State → Event → Prop} (invariant : State → Prop)
    (kept : ∀ {state event next}, invariant state → step state event = some next →
      invariant next)
    (agree : ∀ {state event}, invariant state → (good state event ↔ other state event))
    {state : State} (start : invariant state) (events : List Event) :
    Along step good state events ↔ Along step other state events :=
  along_congr_of_good invariant (fun holds _ taken => kept holds taken) agree start events

/-- A fact holds in the first state and in every state that a run reaches. -/
def Always (step : State → Event → Option State) (fact : State → Prop) (state : State)
    (events : List Event) : Prop :=
  fact state ∧ Along step (fun state event => ∀ next, step state event = some next → fact next)
    state events

/-- Where a step from a state with the fact keeps it exactly when it is good, the fact
holds all along a run exactly when it holds at first and every step taken is good. -/
theorem always_iff_along {good : State → Event → Prop} {fact : State → Prop}
    (exact_ : ∀ {state event next}, fact state → step state event = some next →
      (fact next ↔ good state event))
    (state : State) (events : List Event) :
    Always step fact state events ↔
      fact state ∧
        Along step (fun state event => (step state event).isSome → good state event)
          state events := by
  refine and_congr_right fun start => ?_
  apply along_congr_of_good fact
  · intro state event next _ stays taken
    exact stays next taken
  · intro state event holds
    rw [Option.isSome_iff_exists]
    constructor
    · rintro stays ⟨next, taken⟩
      exact (exact_ holds taken).mp (stays next taken)
    · intro isGood next taken
      exact (exact_ holds taken).mpr (isGood ⟨next, taken⟩)
  · exact start

theorem along_of_invariant {good : State → Event → Prop} (invariant : State → Prop)
    (kept : ∀ {state event next}, invariant state → step state event = some next →
      invariant next)
    (implies : ∀ {state event}, invariant state → good state event) {state : State}
    (start : invariant state) (events : List Event) : Along step good state events := by
  induction events generalizing state with
  | nil => trivial
  | cons event events induction =>
      exact ⟨implies start, fun next taken => induction (kept start taken)⟩

theorem always_of_invariant (invariant : State → Prop)
    (kept : ∀ {state event next}, invariant state → step state event = some next →
      invariant next)
    {state : State} (start : invariant state) (events : List Event) :
    Always step invariant state events :=
  ⟨start, along_of_invariant invariant kept (fun holds _ taken => kept holds taken) start events⟩

theorem always_of_along {good : State → Event → Prop} (invariant : State → Prop)
    (kept : ∀ {state event next}, invariant state → good state event →
      step state event = some next → invariant next)
    {state : State} {events : List Event} (start : invariant state)
    (along : Along step good state events) : Always step invariant state events := by
  apply And.intro start
  induction events generalizing state with
  | nil => trivial
  | cons event events induction =>
      constructor
      · intro next taken
        exact kept start along.1 taken
      · intro next taken
        exact induction (kept start along.1 taken) (along.2 next taken)

theorem Always.mono {fact weaker : State → Prop} (implies : ∀ {state}, fact state → weaker state)
    {state : State} {events : List Event} (always : Always step fact state events) :
    Always step weaker state events := by
  apply And.intro (implies always.1)
  have along := always.2
  clear always
  induction events generalizing state with
  | nil => trivial
  | cons event events induction =>
      constructor
      · intro next taken
        exact implies (along.1 next taken)
      · intro next taken
        exact induction (along.2 next taken)

theorem Always.final {fact : State → Prop} {state final : State} {events : List Event}
    (always : Always step fact state events) (ran : run step state events = some final) :
    fact final :=
  run_invariant_along fact (fun _ _ stays taken => stays _ taken) always.1 always.2 ran

end EventRun

end LlmHoneypot
