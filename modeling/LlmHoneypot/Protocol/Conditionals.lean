import LlmHoneypot.Foundation.AndOrList
import LlmHoneypot.Protocol.Ladder

/-! # Conditional chains

The segments that the loop of `_dispatch_chain` executes, against those a shell
executes of the same and-or lists. -/

namespace LlmHoneypot

namespace Protocol

open AndOrList CmdChain

def connective : Operator → Connective
  | .start => .seq
  | .semicolon => .seq
  | .and => .and
  | .or => .or

theorem shouldRun_eq (operator : Operator) (succeeded : Bool) :
    shouldRun operator succeeded = (connective operator).runs succeeded := by
  cases operator <;> rfl

structure Trial where
  command : Str
  succeeds : Bool
  deriving DecidableEq, Repr

/-- The segments with their outcomes, as far as there are outcomes. -/
def trials (segments : List Segment) (outcomes : List Bool) : List (Connective × Trial) :=
  List.zipWith
    (fun segment succeeds => (connective segment.operator, ⟨segment.command, succeeds⟩))
    segments outcomes

/-- Whether the loop executed the segment of a decision, or had the model do it. -/
def Decision.executes : Decision → Bool
  | .skipped => false
  | .ran _ => true
  | .handedOver => true
  | .raised => true

/-- An outcome is the one the loop saw, where it saw one. -/
def Agrees : Decision → (succeeds : Bool) → Prop
  | .ran seen, succeeds => seen = succeeds
  | _, _ => True

def followReset : (status : Bool) → List (Connective × Trial) → List Bool
  | _, [] => []
  | status, (connective, trial) :: rest =>
      if connective.runs status then true :: followReset trial.succeeds rest
      else false :: followReset true rest

theorem executes_chainLoop (env : Env) (segments : List Segment) (succeeded : Bool)
    (session : Session) {outcomes : List Bool}
    (agree : List.Forall₂ Agrees (chainLoop env succeeded segments session).decisions outcomes) :
    (chainLoop env succeeded segments session).decisions.map Decision.executes =
      followReset succeeded (trials segments outcomes) := by
  induction segments generalizing succeeded session outcomes with
  | nil => rfl
  | cons segment rest induction =>
      simp only [chainLoop, shouldRun_eq] at agree ⊢
      cases runs : (connective segment.operator).runs succeeded with
      | false =>
          simp only [runs, Bool.false_eq_true, if_false, ChainRun.prepend] at agree ⊢
          cases agree with
          | cons here later =>
              simp [trials, followReset, runs, Decision.executes, induction true session later]
      | true =>
          simp only [runs, if_true] at agree ⊢
          generalize dispatchSegment env segment.command session = outcome at agree ⊢
          rcases outcome with ⟨next, stage⟩
          cases stage with
          | raised =>
              cases agree with
              | cons here later =>
                  cases later
                  simp [trials, followReset, runs, Decision.executes]
          | declined =>
              cases agree with
              | cons here later =>
                  cases later
                  simp [trials, followReset, runs, Decision.executes]
          | handled ok =>
              simp only [ChainRun.prepend] at agree ⊢
              cases agree with
              | cons here later =>
                  have same : ok = _ := here
                  simp [trials, followReset, runs, Decision.executes, ← same,
                    induction ok next later]

/-- As a shell walks the line: a command is skipped after a failure, and the next
one is conditional too. -/
def forgetsFailure : (status : Bool) → List (Connective × Trial) → Bool
  | _, [] => false
  | status, (connective, trial) :: rest =>
      if connective.runs status then forgetsFailure trial.succeeds rest
      else
        !status && rest.head?.any (fun next => next.1 ≠ .seq) || forgetsFailure status rest

theorem followReset_eq_follow_iff (status : Bool) (rest : List (Connective × Trial)) :
    followReset status rest = follow Trial.succeeds status rest ↔
      forgetsFailure status rest = false := by
  induction rest generalizing status with
  | nil => simp [followReset, follow, forgetsFailure]
  | cons item rest induction =>
      rcases item with ⟨connective, trial⟩
      cases runs : connective.runs status with
      | true => simp [followReset, follow, forgetsFailure, runs, induction]
      | false =>
          simp only [followReset, follow, forgetsFailure, runs, Bool.false_eq_true, if_false,
            List.cons.injEq, true_and]
          cases status with
          | true => simp [induction]
          | false =>
              cases rest with
              | nil => simp [followReset, follow, forgetsFailure]
              | cons next later =>
                  rcases next with ⟨joined, second⟩
                  cases joined with
                  | seq =>
                      have same := induction false
                      simp only [followReset, Connective.runs, if_true] at same
                      simpa [followReset, Connective.runs] using same
                  | and => simp [followReset, follow, Connective.runs]
                  | or => simp [followReset, follow, Connective.runs]

/-- For every chain and all outcomes of its segments, the segments that the loop
executes are those a shell executes unless a failure is forgotten. -/
theorem chain_conditionals_iff (env : Env) (session : Session) (first : Str)
    (rest : List Segment) {firstSucceeds : Bool} {outcomes : List Bool}
    (agree : List.Forall₂ Agrees
      (chainLoop env true (⟨.start, first⟩ :: rest) session).decisions
      (firstSucceeds :: outcomes)) :
    (chainLoop env true (⟨.start, first⟩ :: rest) session).decisions.map Decision.executes =
        executedIn Trial.succeeds ⟨first, firstSucceeds⟩ (trials rest outcomes) ↔
      forgetsFailure firstSucceeds (trials rest outcomes) = false := by
  have executed := executes_chainLoop env (⟨.start, first⟩ :: rest) true session agree
  rw [executed, executedIn_eq, ← followReset_eq_follow_iff]
  simp [trials, followReset, connective, Connective.runs]

theorem chain_conditionals_iff_example :
    let run := chainLoop .pending true
      [⟨.start, "cd /tmp".toList⟩, ⟨.or, "pwd".toList⟩, ⟨.and, "clear".toList⟩] .root
    run.decisions.map Decision.executes = [true, false, true] := by
  have decisions : (chainLoop .pending true
      [⟨.start, "cd /tmp".toList⟩, ⟨.or, "pwd".toList⟩, ⟨.and, "clear".toList⟩]
      .root).decisions = [.ran true, .skipped, .ran true] := rfl
  have agree : List.Forall₂ Agrees [.ran true, .skipped, .ran true] [true, false, true] :=
    .cons rfl (.cons trivial (.cons rfl .nil))
  exact (chain_conditionals_iff .pending .root _ _ (decisions ▸ agree)).mpr (by decide)

def missingFile : Env :=
  { Env.pending with
    tables :=
      { Env.pending.tables with
        handler := fun command _ _ user =>
          if command = "stat".toList then
            some
              { output := "stat: cannot statx '/nope': No such file or directory\n".toList
                isError := true }
          else if command = "whoami".toList then some { output := user ++ ['\n'] }
          else none } }

/-- `stat /nope && pwd || whoami` does not run `whoami`. -/
theorem failure_of_skipped_forgotten :
    ¬ ∀ env session first rest firstSucceeds outcomes,
      List.Forall₂ Agrees (chainLoop env true (⟨.start, first⟩ :: rest) session).decisions
        (firstSucceeds :: outcomes) →
      (chainLoop env true (⟨.start, first⟩ :: rest) session).decisions.map Decision.executes =
        executedIn Trial.succeeds ⟨first, firstSucceeds⟩ (trials rest outcomes) := by
  intro all
  have decisions : (chainLoop missingFile true
      [⟨.start, "stat /nope".toList⟩, ⟨.and, "pwd".toList⟩, ⟨.or, "whoami".toList⟩]
      .root).decisions = [.ran false, .skipped, .skipped] := rfl
  have agree : List.Forall₂ Agrees [.ran false, .skipped, .skipped] [false, true, true] :=
    .cons rfl (.cons trivial (.cons trivial .nil))
  have same := all missingFile .root _ _ false [true, true] (decisions ▸ agree)
  rw [decisions] at same
  revert same
  decide

end Protocol

end LlmHoneypot
