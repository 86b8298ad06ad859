import Mathlib.Algebra.Order.Ring.Int
import Mathlib.Data.List.DropRight

/-! # And-or lists

Commands joined by `;`, `&&` and `||` as a shell groups and executes them: `;`
ends a list, and within one `&&` and `||` associate to the left with the same
precedence. -/

namespace LlmHoneypot

namespace AndOrList

inductive Connective
  | seq
  | and
  | or
  deriving DecidableEq, Repr

/-- Whether a command joined by the connective is executed after the status. -/
def Connective.runs : Connective → (status : Bool) → Bool
  | .seq, _ => true
  | .and, status => status
  | .or, status => !status

inductive AndOr (Command : Type)
  | simple (command : Command)
  | and (left : AndOr Command) (right : Command)
  | or (left : AndOr Command) (right : Command)

section Execution

variable {Command : Type} (succeeds : Command → Bool)

def AndOr.status : AndOr Command → Bool
  | .simple command => succeeds command
  | .and left right => left.status && succeeds right
  | .or left right => left.status || succeeds right

def AndOr.executed : AndOr Command → List Bool
  | .simple _ => [true]
  | .and left _ => left.executed ++ [left.status succeeds]
  | .or left _ => left.executed ++ [!left.status succeeds]

def group (current : AndOr Command) : List (Connective × Command) → List (AndOr Command)
  | [] => [current]
  | (.seq, command) :: rest => current :: group (.simple command) rest
  | (.and, command) :: rest => group (.and current command) rest
  | (.or, command) :: rest => group (.or current command) rest

/-- For every command of a line whether a shell executes it. -/
def executedIn (first : Command) (rest : List (Connective × Command)) : List Bool :=
  (group (.simple first) rest).flatMap (AndOr.executed succeeds)

/-! ## One command after the other -/

def follow : (status : Bool) → List (Connective × Command) → List Bool
  | _, [] => []
  | status, (connective, command) :: rest =>
      if connective.runs status then true :: follow (succeeds command) rest
      else false :: follow status rest

def carriedOut (status : Bool) (rest : List (Connective × Command)) : List Command :=
  ((rest.zip (follow succeeds status rest)).filter (·.2)).map (·.1.2)

theorem flatMap_executed_group (current : AndOr Command)
    (rest : List (Connective × Command)) :
    (group current rest).flatMap (AndOr.executed succeeds) =
      current.executed succeeds ++ follow succeeds (current.status succeeds) rest := by
  induction rest generalizing current with
  | nil => simp [group, follow]
  | cons item rest induction =>
      rcases item with ⟨connective, command⟩
      cases connective with
      | seq =>
          rw [group, List.flatMap_cons, induction]
          rfl
      | and =>
          rw [group, induction]
          cases status : current.status succeeds <;>
            simp [AndOr.executed, AndOr.status, follow, Connective.runs, status]
      | or =>
          rw [group, induction]
          cases status : current.status succeeds <;>
            simp [AndOr.executed, AndOr.status, follow, Connective.runs, status]

theorem executedIn_eq (first : Command) (rest : List (Connective × Command)) :
    executedIn succeeds first rest = true :: follow succeeds (succeeds first) rest :=
  flatMap_executed_group succeeds (.simple first) rest

end Execution

end AndOrList

end LlmHoneypot
