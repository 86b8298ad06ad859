import Mathlib.Order.Defs.Unbundled

/-! # Loops over operands

A command that goes through its operands and may return before the last one, beside the
command run on one operand after another. -/

namespace LlmHoneypot

namespace OperandLoop

variable {Operand State : Type} (step : Operand → State → ForInStep State)

def loop : List Operand → State → State
  | [], state => state
  | operand :: rest, state =>
      match step operand state with
      | .done next => next
      | .yield next => loop rest next

def each (operands : List Operand) (state : State) : State :=
  operands.foldl (fun state operand => loop step [operand] state) state

/-- Nothing is left to do when the loop returns. -/
def Settled : List Operand → State → Prop
  | [], _ => True
  | operand :: rest, state =>
      match step operand state with
      | .done next => ∀ later ∈ rest, (step later next).value = next
      | .yield next => Settled rest next

variable {step} {operand : Operand} {operands : List Operand} {state : State}

theorem loop_singleton : loop step [operand] state = (step operand state).value := by
  rw [loop]
  cases step operand state with
  | done next => rfl
  | yield next => rfl

theorem each_cons (operand : Operand) (rest : List Operand) (state : State) :
    each step (operand :: rest) state = each step rest (step operand state).value := by
  rw [each, List.foldl_cons, loop_singleton]
  rfl

theorem each_of_idle (idle : ∀ operand ∈ operands, (step operand state).value = state) :
    each step operands state = state := by
  induction operands with
  | nil => rfl
  | cons operand rest induction =>
      rw [each_cons, idle operand List.mem_cons_self]
      exact induction fun later member => idle later (List.mem_cons_of_mem _ member)

section

variable {less : State → State → Prop} [IsStrictOrder State less]
  (moves : ∀ operand state, (step operand state).value = state ∨
    less state (step operand state).value)
include moves

theorem each_moves (operands : List Operand) (state : State) :
    (∀ operand ∈ operands, (step operand state).value = state) ∨
      less state (each step operands state) := by
  induction operands generalizing state with
  | nil => exact .inl fun _ none => by cases none
  | cons operand rest induction =>
      rw [each_cons]
      rcases moves operand state with idle | first
      · rw [idle]
        rcases induction state with others | later
        · apply Or.inl
          intro other member
          rcases List.mem_cons.mp member with rfl | member
          · exact idle
          · exact others other member
        · exact .inr later
      · rcases induction (step operand state).value with others | later
        · rw [each_of_idle others]
          exact .inr first
        · exact .inr (IsTrans.trans _ _ _ first later)

theorem each_eq_self_iff : each step operands state = state ↔
    ∀ operand ∈ operands, (step operand state).value = state := by
  constructor
  · intro same
    rcases each_moves moves operands state with idle | more
    · exact idle
    · rw [same] at more
      exact absurd more (irrefl state)
  · exact each_of_idle

theorem loop_eq_each_iff : loop step operands state = each step operands state ↔
    Settled step operands state := by
  induction operands generalizing state with
  | nil => exact iff_of_true rfl trivial
  | cons operand rest induction =>
      rw [each_cons, loop, Settled]
      cases stepped : step operand state with
      | done next =>
          simp only [ForInStep.value]
          rw [eq_comm]
          exact each_eq_self_iff moves
      | yield next => exact induction

end

theorem settled_iff_splits : Settled step operands state ↔
    ∀ before operand after, operands = before ++ operand :: after →
      (∃ next, step operand (each step before state) = .done next) →
        ∀ other ∈ after, (step other (each step (before ++ [operand]) state)).value =
          each step (before ++ [operand]) state := by
  induction operands generalizing state with
  | nil => exact iff_of_true trivial fun before _ _ split => by cases before <;> cases split
  | cons first rest induction =>
      rw [Settled]
      cases stepped : step first state with
      | done next =>
          have value : (step first state).value = next := by rw [stepped, ForInStep.value]
          constructor
          · intro idle before operand after split _ other member
            cases before with
            | nil =>
                cases split
                rw [List.nil_append, each_cons, value]
                exact idle other member
            | cons _ before =>
                cases split
                have stays : each step (before ++ [operand]) next = next := by
                  apply each_of_idle
                  intro earlier isEarlier
                  apply idle
                  rw [List.mem_append, List.mem_singleton] at isEarlier
                  rcases isEarlier with isEarlier | rfl
                  · exact List.mem_append_left _ isEarlier
                  · exact List.mem_append_right _ List.mem_cons_self
                rw [List.cons_append, each_cons, value, stays]
                exact idle other (List.mem_append_right _ (List.mem_cons_of_mem _ member))
          · intro splits later member
            have idle := splits [] first rest rfl ⟨next, stepped⟩ later member
            rw [List.nil_append, each_cons, value] at idle
            exact idle
      | yield next =>
          have value : (step first state).value = next := by rw [stepped, ForInStep.value]
          refine induction.trans ⟨?_, ?_⟩
          · intro splits before operand after split stops
            cases before with
            | nil =>
                cases split
                rcases stops with ⟨_, done⟩
                exact absurd (stepped.symm.trans done) nofun
            | cons _ before =>
                cases split
                rw [each_cons, value] at stops
                rw [List.cons_append, each_cons, value]
                exact splits before operand after rfl stops
          · intro splits before operand after split stops
            have later := splits (first :: before) operand after (by rw [split]; rfl)
            rw [List.cons_append, each_cons, each_cons, value] at later
            exact later stops

end OperandLoop

end LlmHoneypot
