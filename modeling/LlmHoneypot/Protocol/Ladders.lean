import LlmHoneypot.Protocol.Conditionals
import LlmHoneypot.Protocol.Dispatch

/-! # The two ladders

`_dispatch_local` and `_dispatch_one` with the rung that each leaves a command on. -/

namespace LlmHoneypot

namespace Protocol

open CmdChain Downloader Interactive Responder

variable (env : Env) (command : Str) (session : Session)

inductive Rung
  | fastpath
  | deterministic
  | interactive
  | download
  | model
  deriving DecidableEq, Repr

def downloadRung (outcome : Session × Stage) : Rung × Session × Stage :=
  match outcome.2 with
  | .declined => (.model, outcome)
  | .raised => (.download, outcome)
  | .handled _ => (.download, outcome)

def climbLocal : Rung × Session × Stage :=
  match tryFastpath env command session with
  | some session => (.fastpath, session, .handled true)
  | none =>
      let session := applyInputMutations command session
      match respondIn env command session with
      | some result =>
          (.deterministic, emitDeterministic env command result session,
            .handled (!result.isError))
      | none =>
          match tryInteractive env command session with
          | some session => (.interactive, session, .handled true)
          | none => downloadRung (tryDownloadIntercept env command session)

def climbOne : Rung × Session × Ending :=
  match tryFastpath env command session with
  | some session => (.fastpath, session, .returned)
  | none =>
      let session := applyInputMutations command session
      match tryDeterministic env command session with
      | some session => (.deterministic, session, .returned)
      | none =>
          match tryInteractive env command session with
          | some session => (.interactive, session, .returned)
          | none =>
              match tryDownloadIntercept env command session with
              | (session, .raised) => (.download, session, .raised)
              | (session, .handled _) => (.download, session, .returned)
              | (session, .declined) =>
                  (.model, processCommandWithLlm env command none session, .returned)

@[simp] theorem downloadRung_snd (outcome : Session × Stage) :
    (downloadRung outcome).2 = outcome := by
  unfold downloadRung
  split <;> rfl

theorem climbLocal_snd :
    (climbLocal env command session).2 = dispatchLocal env command session := by
  simp only [climbLocal, dispatchLocal]
  cases tryFastpath env command session with
  | some next => rfl
  | none =>
      cases respondIn env command (applyInputMutations command session) with
      | some result => rfl
      | none =>
          cases tryInteractive env command (applyInputMutations command session) with
          | some next => rfl
          | none => exact downloadRung_snd _

theorem climbOne_snd : (climbOne env command session).2 = dispatchOne env command session := by
  simp only [climbOne, dispatchOne]
  cases tryFastpath env command session with
  | some next => rfl
  | none =>
      cases tryDeterministic env command (applyInputMutations command session) with
      | some next => rfl
      | none =>
          cases tryInteractive env command (applyInputMutations command session) with
          | some next => rfl
          | none =>
              rcases tryDownloadIntercept env command (applyInputMutations command session)
                with ⟨next, stage⟩
              cases stage <;> rfl

/-! ## The prompt of a segment -/

section Suppressed

variable {env command session}

theorem climbLocal_congr {other : Session}
    (fast : (tryFastpath env command other).isSome = (tryFastpath env command session).isSome)
    (rendered : respondIn env command (applyInputMutations command other) =
      respondIn env command (applyInputMutations command session))
    (started : (tryInteractive env command (applyInputMutations command other)).isSome =
      (tryInteractive env command (applyInputMutations command session)).isSome)
    (fetched : (downloadRung (tryDownloadIntercept env command
        (applyInputMutations command other))).1 =
      (downloadRung (tryDownloadIntercept env command (applyInputMutations command session))).1) :
    (climbLocal env command other).1 = (climbLocal env command session).1 := by
  simp only [climbLocal, rendered]
  cases atFast : tryFastpath env command session with
  | some next =>
      obtain ⟨taken, found⟩ := Option.isSome_iff_exists.mp (fast.trans (by rw [atFast]; rfl))
      rw [found]
  | none =>
      rw [atFast, Option.isSome_none, Option.isSome_eq_false_iff, Option.isNone_iff_eq_none] at fast
      rw [fast]
      cases respondIn env command (applyInputMutations command session) with
      | some result => rfl
      | none =>
          cases atProgram : tryInteractive env command (applyInputMutations command session) with
          | some next =>
              obtain ⟨taken, found⟩ :=
                Option.isSome_iff_exists.mp (started.trans (by rw [atProgram]; rfl))
              rw [found]
          | none =>
              rw [atProgram, Option.isSome_none, Option.isSome_eq_false_iff,
                Option.isNone_iff_eq_none] at started
              rw [started]
              exact fetched

theorem tryFastpath_suppressed (suppress : Bool) :
    (tryFastpath env command (session.setSuppressPrompt suppress)).isSome =
      (tryFastpath env command session).isSome := by
  simp only [tryFastpath]
  split
  · rfl
  · split
    · rfl
    · simp

theorem beginFetch_rung (intent : DownloadIntent) :
    (downloadRung (beginFetch env command intent session)).1 = .download := by
  unfold downloadRung
  rcases beginFetch_stage env command intent session with ⟨raised, _⟩ | handled
  · rw [raised]
  · rw [handled]

theorem downloadRung_congr (other : Session) :
    (downloadRung (tryDownloadIntercept env command other)).1 =
      (downloadRung (tryDownloadIntercept env command session)).1 := by
  simp only [tryDownloadIntercept]
  split
  · split
    · rfl
    · rfl
    · rw [beginFetch_rung, beginFetch_rung]
  · rfl

theorem climbLocal_suppressed (suppress : Bool) :
    (climbLocal env command (session.setSuppressPrompt suppress)).1 =
      (climbLocal env command session).1 := by
  refine climbLocal_congr (tryFastpath_suppressed suppress) rfl ?_ (downloadRung_congr _)
  simp only [tryInteractive]
  split
  · next enabled =>
    have enabled : (applyInputMutations command session).connected ∧
        env.config.interactivePrograms := enabled
    rw [if_pos enabled, Option.isSome_map, Option.isSome_map]
    rfl
  · next disabled =>
    have disabled : ¬ ((applyInputMutations command session).connected ∧
        env.config.interactivePrograms) := disabled
    rw [if_neg disabled]

end Suppressed

/-! ## Agreement -/

/-- Both ladders stop at one rung, as a segment of a chain and alone, and what follows
in `_dispatch_one` is what follows in `_dispatch_local`, with the model for what is
declined. -/
def LaddersAgree : Prop :=
  (∀ suppress, (climbLocal env command (session.setSuppressPrompt suppress)).1 =
      (climbOne env command session).1) ∧
    dispatchOne env command session = finishOne env command (dispatchLocal env command session)

variable {env command session}

theorem tryDeterministic_of_enabled (enabled : env.config.deterministicResponses = true) :
    tryDeterministic env command session =
      (respondIn env command session).map (emitDeterministic env command · session) := by
  rw [tryDeterministic, if_pos enabled]

theorem tryDeterministic_of_deferred (deferred : respondIn env command session = none) :
    tryDeterministic env command session = none := by
  rw [tryDeterministic, deferred]
  split <;> rfl

theorem climb_of_asked
    (asked : tryFastpath env command session = none →
      tryDeterministic env command (applyInputMutations command session) =
        (respondIn env command (applyInputMutations command session)).map
          (emitDeterministic env command · (applyInputMutations command session))) :
    climbOne env command session =
      ((climbLocal env command session).1,
        finishOne env command (climbLocal env command session).2) := by
  simp only [climbOne, climbLocal]
  cases slow : tryFastpath env command session with
  | some next => rfl
  | none =>
      simp only [asked slow]
      cases respondIn env command (applyInputMutations command session) with
      | some result => rfl
      | none =>
          simp only [Option.map_none]
          cases tryInteractive env command (applyInputMutations command session) with
          | some next => rfl
          | none =>
              rcases tryDownloadIntercept env command (applyInputMutations command session)
                with ⟨next, stage⟩
              cases stage <;> rfl

/-- The ladders agree exactly where the responder is enabled, is not reached, or has no
answer: `_dispatch_local` does not test `deterministic_responses`. -/
theorem ladders_agree_iff (env : Env) (command : Str) (session : Session) :
    LaddersAgree env command session ↔
      env.config.deterministicResponses = true ∨
        (tryFastpath env command session).isSome = true ∨
        respondIn env command (applyInputMutations command session) = none := by
  constructor
  · intro agree
    have same : (climbLocal env command session).1 = (climbOne env command session).1 :=
      (climbLocal_suppressed false).symm.trans (agree.1 false)
    by_contra unmet
    simp only [not_or, Bool.not_eq_true, Option.isSome_eq_false_iff, Option.isNone_iff_eq_none]
      at unmet
    obtain ⟨disabled, slow, rendered⟩ := unmet
    obtain ⟨result, rendered⟩ := Option.ne_none_iff_exists'.mp rendered
    have unasked : tryDeterministic env command (applyInputMutations command session) = none := by
      rw [tryDeterministic, disabled]
      rfl
    simp only [climbLocal, climbOne, slow, rendered, unasked] at same
    -- past the responder no stage of the other ladder is the deterministic one
    split at same
    · cases same
    · split at same <;> cases same
  · intro met
    have run : climbOne env command session =
        ((climbLocal env command session).1,
          finishOne env command (climbLocal env command session).2) := by
      refine climb_of_asked fun slow => ?_
      rcases met with enabled | fast | deferred
      · exact tryDeterministic_of_enabled enabled
      · rw [slow] at fast
        cases fast
      · rw [tryDeterministic_of_deferred deferred, deferred]
        rfl
    refine ⟨fun suppress => ?_, ?_⟩
    · rw [climbLocal_suppressed, run]
    · rw [← climbOne_snd, run, ← climbLocal_snd]

/-- `whoami` with the responder switched off. -/
theorem disabled_responder_answers :
    ¬ ∀ env command session, LaddersAgree env command session := by
  intro all
  have agree := all
    { missingFile with config := { missingFile.config with deterministicResponses := false } }
    "whoami".toList .root
  have same := (climbLocal_suppressed false).symm.trans (agree.1 false)
  revert same
  decide +kernel

end Protocol

end LlmHoneypot
