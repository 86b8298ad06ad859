import LlmHoneypot.Protocol.Ladder

/-! # What the ladder can do with a command

One case analysis of `_dispatch_local` and one of `_dispatch_one`, and the effect
of each stage on the shell side of the session. -/

namespace LlmHoneypot

namespace Protocol

open CmdChain Downloader Interactive Responder
open CmdParser (CmdMutation parseInputMutations)

variable {env : Env} {command : Str} {session next : Session}

/-! ## Stages -/

section Shell

variable (env command session)

@[simp] theorem userStack_addFile (world : WorldState) (path : Str) (size : Nat)
    (sha256 : Option Str) (mtime : Nat) (source : FileSource) (url snippet : Option Str) :
    (world.addFile path size sha256 mtime source url snippet).userStack = world.userStack := by
  unfold WorldState.addFile
  split <;> rfl

@[simp] theorem shell_send (outputs : List Output) :
    (session.send outputs).shell = session.shell := by
  unfold Session.send
  split <;> rfl

theorem shell_changeDirectory (arg : Str) :
    (session.changeDirectory arg).shell =
      { session.shell with
        cwd := newCwd (homeFor session.loginUser) session.cwd session.prevCwd arg
        prevCwd := some session.cwd } := rfl

@[simp] theorem shell_emitDeterministic (result : ResponderResult) :
    (emitDeterministic env command result session).shell = session.shell := by
  simp only [emitDeterministic, shell_recordClaim, shell_showPromptJittered]
  split
  · rfl
  · simp

theorem shell_scheduleProgramRefresh :
    (scheduleProgramRefresh session).shell = session.shell := by
  unfold scheduleProgramRefresh
  split
  · split <;> rfl
  · rfl

theorem shell_startProgram (program : Program) :
    (startProgram env program session).shell =
      { session.shell with program := some ⟨program, session.cwd⟩ } := by
  simp only [startProgram, shell_scheduleProgramRefresh, Session.shell_write]
  rfl

@[simp] theorem shell_addCaptured (intent : DownloadIntent) (result : FetchResult) :
    (addCaptured intent result session).shell = session.shell := by
  simp only [addCaptured]
  split
  · exact Session.shell_world (by simp)
  · rfl

@[simp] theorem shell_onResult (intent : DownloadIntent) (result : FetchResult) :
    (onResult env command intent result session).shell = session.shell := by
  simp only [onResult, shell_processCommandWithLlm, shell_addCaptured]

theorem shell_beginFetch (intent : DownloadIntent) :
    (beginFetch env command intent session).1.shell =
      { session.shell with fetched := session.fetched ++ [intent] } := by
  simp only [beginFetch]
  split
  · rfl
  · split
    · rfl
    · simp only [shell_onResult]
      rfl
    · simp only [shell_handleLlmError]
      rfl

end Shell

/-- The command is a download whose URL raises. -/
def urlRejected (env : Env) (command : Str) : Bool :=
  match parseDownloadCommand env.urlparse command with
  | .error _ => true
  | .ok none => false
  | .ok (some intent) =>
      match fetch env.urlparse intent with
      | .error _ => true
      | .ok _ => false

theorem beginFetch_stage (env : Env) (command : Str) (intent : DownloadIntent)
    (session : Session) :
    (beginFetch env command intent session).2 = .raised ∧
        (∃ raised, fetch env.urlparse intent = .error raised) ∨
      (beginFetch env command intent session).2 = .handled true := by
  simp only [beginFetch]
  split
  · exact .inl ⟨rfl, _, ‹_›⟩
  · split <;> exact .inr rfl

/-! ## Fast path -/

def cdArg (command : Str) : Str := Text.strip (Text.afterFirstWord (Text.strip command))

theorem isFastCommand_of_tryFastpath (fast : tryFastpath env command session = some next)
    (visible : Text.strip command ≠ []) : isFastCommand command = true := by
  simp only [tryFastpath, visible, if_false] at fast
  split at fast
  · cases fast
  · rename_i simple
    rcases Option.map_eq_some_iff.mp fast with ⟨verb, found, -⟩
    simp [isFastCommand, found, Decidable.not_not.mp simple]

theorem visible_of_slow (slow : tryFastpath env command session = none) :
    Text.strip command ≠ [] := by
  intro blank
  simp [tryFastpath, blank] at slow

theorem tryFastpath_of_isFastCommand (env : Env) (session : Session)
    (fast : isFastCommand command = true) :
    ∃ next, tryFastpath env command session = some next := by
  rcases Bool.and_eq_true_iff.mp fast with ⟨simple, isVerb⟩
  rcases Option.isSome_iff_exists.mp isVerb with ⟨verb, found⟩
  simp only [tryFastpath, simple, found]
  split
  · exact ⟨_, rfl⟩
  · exact ⟨_, rfl⟩

theorem shell_tryFastpath (fast : tryFastpath env command session = some next) :
    next.shell = session.shell ∨
      next.shell = (session.applyMutations [.popUser]).shell ∨
      isFastCommand command = true ∧
        next.shell =
          { session.shell with
            cwd :=
              newCwd (homeFor session.loginUser) session.cwd session.prevCwd (cdArg command)
            prevCwd := some session.cwd
            chdirs := session.chdirs ++ [command] } := by
  have isFast := isFastCommand_of_tryFastpath fast
  simp only [tryFastpath] at fast
  split at fast
  · cases fast
    exact .inl (by simp)
  · rename_i visible
    split at fast
    · cases fast
    · rcases Option.map_eq_some_iff.mp fast with ⟨verb, -, rfl⟩
      cases verb with
      | leave =>
          simp only [runFastVerb]
          split
          · exact .inl (by simp)
          · exact .inr (.inl (by simp))
      | clear => exact .inl (by simp [runFastVerb])
      | pwd => exact .inl (by simp [runFastVerb])
      | cd =>
          refine .inr (.inr ⟨isFast visible, ?_⟩)
          simp only [runFastVerb, handleCd, shell_showPromptJittered, shell_changeDirectory, cdArg]
          rfl

/-! ## Ladders -/

abbrev Renderer := Session → Option ResponderResult

def localRenderer (env : Env) (command : Str) : Renderer := respondIn env command

def lineRenderer (env : Env) (command : Str) : Renderer := fun session =>
  if env.config.deterministicResponses then respondIn env command session else none

/-- How a ladder disposes of a command before the model is asked: the state it
leaves and the way its last stage ends. `applyInputMutations command session` is the
state that every stage after the fast path starts from. -/
inductive Dispatched (env : Env) (renders : Renderer) (command : Str) (session : Session) :
    Session × Stage → Prop
  | fast (next : Session) (fast : tryFastpath env command session = some next) :
      Dispatched env renders command session (next, .handled true)
  | rendered (result : ResponderResult) (slow : tryFastpath env command session = none)
      (rendered : renders (applyInputMutations command session) = some result) :
      Dispatched env renders command session
        (emitDeterministic env command result (applyInputMutations command session),
          .handled (!result.isError))
  | program (program : Program) (slow : tryFastpath env command session = none)
      (deferred : renders (applyInputMutations command session) = none)
      (connected : session.connected = true)
      (enabled : env.config.interactivePrograms = true)
      (started : programOf env command (applyInputMutations command session) = some program) :
      Dispatched env renders command session
        (startProgram env program (applyInputMutations command session), .handled true)
  | download (intent : DownloadIntent) (slow : tryFastpath env command session = none)
      (deferred : renders (applyInputMutations command session) = none)
      (lined : tryInteractive env command (applyInputMutations command session) = none)
      (capture : env.config.captureDownloads = true)
      (parsed : parseDownloadCommand env.urlparse command = .ok (some intent)) :
      Dispatched env renders command session
        (beginFetch env command intent (applyInputMutations command session))
  | badUrl (raised : ValueError) (slow : tryFastpath env command session = none)
      (deferred : renders (applyInputMutations command session) = none)
      (lined : tryInteractive env command (applyInputMutations command session) = none)
      (capture : env.config.captureDownloads = true)
      (parsed : parseDownloadCommand env.urlparse command = .error raised) :
      Dispatched env renders command session (applyInputMutations command session, .raised)
  | declined (slow : tryFastpath env command session = none)
      (deferred : renders (applyInputMutations command session) = none)
      (lined : tryInteractive env command (applyInputMutations command session) = none)
      (parsed : env.config.captureDownloads = true →
        parseDownloadCommand env.urlparse command = .ok none) :
      Dispatched env renders command session (applyInputMutations command session, .declined)

theorem tryInteractive_eq_some (started : tryInteractive env command session = some next) :
    session.connected = true ∧ env.config.interactivePrograms = true ∧
      ∃ program, programOf env command session = some program ∧
        next = startProgram env program session := by
  unfold tryInteractive at started
  split at started
  · rename_i enabled
    rcases Option.map_eq_some_iff.mp started with ⟨program, found, rfl⟩
    exact ⟨enabled.1, enabled.2, program, found, rfl⟩
  · cases started

theorem tryDownload_dispatched {renders : Renderer}
    (slow : tryFastpath env command session = none)
    (deferred : renders (applyInputMutations command session) = none)
    (lined : tryInteractive env command (applyInputMutations command session) = none) :
    Dispatched env renders command session
      (tryDownloadIntercept env command (applyInputMutations command session)) := by
  unfold tryDownloadIntercept
  split
  · rename_i capture
    split
    · exact .badUrl _ slow deferred lined capture ‹_›
    · exact .declined slow deferred lined fun _ => ‹_›
    · exact .download _ slow deferred lined capture ‹_›
  · rename_i noCapture
    exact .declined slow deferred lined fun capture => absurd capture noCapture

theorem tryInteractive_dispatched {renders : Renderer}
    (slow : tryFastpath env command session = none)
    (deferred : renders (applyInputMutations command session) = none)
    (started : tryInteractive env command (applyInputMutations command session) = some next) :
    Dispatched env renders command session (next, .handled true) := by
  rcases tryInteractive_eq_some started with ⟨connected, enabled, program, found, rfl⟩
  exact .program _ slow deferred connected enabled found

theorem dispatchLocal_dispatched (env : Env) (command : Str) (session : Session) :
    Dispatched env (localRenderer env command) command session
      (dispatchLocal env command session) := by
  simp only [dispatchLocal]
  split
  · exact .fast _ ‹_›
  · rename_i slow
    split
    · exact .rendered _ slow ‹_›
    · rename_i deferred
      split
      · exact tryInteractive_dispatched slow deferred ‹_›
      · exact tryDownload_dispatched slow deferred ‹_›

def finishOne (env : Env) (command : Str) (outcome : Session × Stage) : Session × Ending :=
  match outcome.2 with
  | .raised => (outcome.1, .raised)
  | .handled _ => (outcome.1, .returned)
  | .declined => (processCommandWithLlm env command none outcome.1, .returned)

theorem dispatchOne_dispatched (env : Env) (command : Str) (session : Session) :
    ∃ outcome, Dispatched env (lineRenderer env command) command session outcome ∧
      dispatchOne env command session = finishOne env command outcome := by
  simp only [dispatchOne]
  split
  · exact ⟨_, .fast _ ‹_›, rfl⟩
  · rename_i slow
    have consulted : tryDeterministic env command (applyInputMutations command session) =
        (lineRenderer env command (applyInputMutations command session)).map
          (emitDeterministic env command · (applyInputMutations command session)) := by
      simp only [tryDeterministic, lineRenderer]
      split <;> rfl
    rw [consulted]
    cases deferred : lineRenderer env command (applyInputMutations command session) with
    | some result => exact ⟨_, .rendered result slow deferred, rfl⟩
    | none =>
        simp only [Option.map_none]
        split
        · exact ⟨_, tryInteractive_dispatched slow deferred ‹_›, rfl⟩
        · refine ⟨_, tryDownload_dispatched slow deferred ‹_›, ?_⟩
          unfold finishOne
          split <;> simp_all

theorem urlRejected_of_raised {renders : Renderer} {outcome : Session × Stage}
    (dispatched : Dispatched env renders command session outcome) (raised : outcome.2 = .raised) :
    urlRejected env command = true := by
  cases dispatched with
  | fast | rendered | program | declined => cases raised
  | badUrl error slow deferred lined capture parsed => simp [urlRejected, parsed]
  | download intent slow deferred lined capture parsed =>
      rcases beginFetch_stage env command intent (applyInputMutations command session) with
        ⟨-, error, rejected⟩ | handled
      · simp [urlRejected, parsed, rejected]
      · rw [handled] at raised
        cases raised

/-! ## Chains -/

theorem chainLoop_relation (relation : Session → Session → Prop) {segments : List Segment}
    (refl : ∀ session, relation session session)
    (trans : ∀ {first second third}, relation first second → relation second third →
      relation first third)
    (segment : ∀ segment ∈ segments, ∀ session,
      relation session (dispatchSegment env segment.command session).1)
    (succeeded : Bool) (session : Session) :
    relation session (chainLoop env succeeded segments session).session := by
  induction segments generalizing succeeded session with
  | nil => exact refl session
  | cons head rest induction =>
      have later := induction fun segment_ member =>
        segment segment_ (List.mem_cons_of_mem _ member)
      have here := segment head (List.mem_cons_self ..) session
      simp only [chainLoop]
      split
      · generalize dispatchSegment env head.command session = outcome at here
        rcases outcome with ⟨next, stage⟩
        cases stage with
        | raised => exact here
        | declined => exact here
        | handled ok => exact trans here (later ok next)
      · exact later true session

end Protocol

end LlmHoneypot
