import LlmHoneypot.Protocol.Console

/-! # Effects of the stages

What each stage of the ladder sends to the terminal and leaves with the reactor,
under the conditions that select the branch. -/

namespace LlmHoneypot

namespace Protocol

open CmdChain Downloader Interactive Responder

variable {env : Env} {command : Str} {session next shown : Session} {outputs : List Output}

/-! ## The model turn -/

def refusesTurn (env : Env) (session : Session) : Bool :=
  let session := { session with commandCount := session.commandCount + 1 }
  overCommandBudget env session || overTokenBudget env session

theorem refusesTurn_of_counts (commands : next.commandCount = session.commandCount)
    (tokens : next.sessionTokens = session.sessionTokens) :
    refusesTurn env next = refusesTurn env session := by
  simp only [refusesTurn, overCommandBudget, overTokenBudget, commands, tokens]

/-- The session whose conversation the model is asked to continue. -/
def asking (command : Str) (observation : Option Str) (session : Session) : Session :=
  beginTurn command observation { session with commandCount := session.commandCount + 1 }

@[simp] theorem shell_asking (command : Str) (observation : Option Str) (session : Session) :
    (asking command observation session).shell = session.shell := rfl

def Session.counted (session : Session) : Session :=
  { session with commandCount := session.commandCount + 1 }

inductive Turned (env : Env) (command : Str) (observation : Option Str)
    (session next : Session) : Prop
  | overCommands (refused : refusesTurn env session = true)
      (isNext : next = refuseTurn session.counted.logSessionBudget)
  | overTokens (refused : refusesTurn env session = true)
      (isNext : next = refuseTurn session.counted.logTokenBudget)
  | started (asked : refusesTurn env session = false) (connected : session.connected = true)
      (isNext : next = startTurn env command (asking command observation session))
  | gone (asked : refusesTurn env session = false) (disconnected : session.connected = false)
      (isNext : next = handleLlmError "'NoneType' object has no attribute 'username'".toList
        (asking command observation session))

theorem processCommandWithLlm_turned (env : Env) (command : Str) (observation : Option Str)
    (session : Session) :
    Turned env command observation session
      (processCommandWithLlm env command observation session) := by
  simp only [processCommandWithLlm]
  split
  · rename_i spent
    exact .overCommands (by rw [refusesTurn, spent, Bool.true_or]) rfl
  rename_i within
  split
  · rename_i spent
    exact .overTokens (by rw [refusesTurn, spent, Bool.or_true]) rfl
  rename_i below
  have asked : refusesTurn env session = false :=
    Bool.or_eq_false_iff.mpr ⟨Bool.eq_false_iff.mpr within, Bool.eq_false_iff.mpr below⟩
  split
  · rename_i connected
    exact .started asked connected rfl
  · rename_i disconnected
    exact .gone asked (Bool.eq_false_iff.mpr disconnected) rfl

def awaitsAnswer (env : Env) (command : Str) (observation : Option Str) (session : Session) :
    Bool :=
  let session := asking command observation session
  match env.provider session.commandCount (buildRequest env session) with
  | .pending => true
  | .fired _ => false
  | .failed _ => false

theorem Emits.asked {turn : ModelTurn}
    (console : next.console =
      { session.console with
        agenda := session.agenda.add (.model turn)
        streams := session.streams ++ liveNumbers env session })
    (streamed : turn.streamed = env.config.stream) :
    Emits env session next [] [(session.agenda.next, .model turn)] (liveNumbers env session) := by
  have screen := congrArg ConsoleView.screen console
  have agenda := congrArg ConsoleView.agenda console
  have live := congrArg ConsoleView.streams console
  have refreshCall := congrArg ConsoleView.refreshCall console
  simp only [Session.console] at screen agenda live refreshCall
  refine ⟨by simp [screen], agenda ▸ .add .., live, ?_, ?_,
    fun _ call => .inl (refreshCall ▸ call)⟩
  · intro number other member
    cases List.mem_singleton.mp member
    exact ⟨streamed, fun on => by simp [liveNumbers, on]⟩
  · intro number member
    rw [agenda]
    unfold liveNumbers at member
    split at member
    · rename_i on
      rw [List.mem_singleton.mp member]
      exact ⟨on, Nat.le_refl _, Nat.lt_succ_self _, by simp⟩
    · cases member

theorem Emits.answered
    (console : next.console =
      { session.console with
        screen := session.screen ++ outputs
        agenda := session.agenda.skip
        streams := session.streams ++ liveNumbers env session }) :
    Emits env session next outputs [] (liveNumbers env session) := by
  have screen := congrArg ConsoleView.screen console
  have agenda := congrArg ConsoleView.agenda console
  have live := congrArg ConsoleView.streams console
  have refreshCall := congrArg ConsoleView.refreshCall console
  simp only [Session.console] at screen agenda live refreshCall
  refine ⟨screen, agenda ▸ .skip .., live, by simp, ?_,
    fun _ call => .inl (refreshCall ▸ call)⟩
  intro number member
  rw [agenda]
  unfold liveNumbers at member
  split at member
  · rename_i on
    rw [List.mem_singleton.mp member]
    exact ⟨on, Nat.le_refl _, Nat.lt_succ_self _, by simp⟩
  · cases member

inductive TurnEffect (env : Env) (command : Str) (observation : Option Str)
    (session next : Session) : Prop
  | refused (refused : refusesTurn env session = true)
      (emits : Emits env session next
        (session.visible [.text CANNOT_FORK] ++ session.promptNow) [] [])
  | gone (asked : refusesTurn env session = false) (disconnected : session.connected = false)
      (emits : Emits env session next [] [] [])
  | waiting (turn : ModelTurn) (asked : refusesTurn env session = false)
      (connected : session.connected = true)
      (waits : awaitsAnswer env command observation session = true)
      (emits : Emits env session next [] [(session.agenda.next, .model turn)]
        (liveNumbers env session))
  | answered (outputs : List Output) (plain : Plain outputs)
      (asked : refusesTurn env session = false) (connected : session.connected = true)
      (fired : awaitsAnswer env command observation session = false)
      (emits : Emits env session next (outputs ++ session.promptNow) []
        (liveNumbers env session))

theorem emits_refuseTurn (console : next.console = session.console)
    (shell : next.shell = session.shell) :
    Emits env session (refuseTurn next)
      (session.visible [.text CANNOT_FORK] ++ session.promptNow) [] [] := by
  have written : Emits env next (refuseTurn next) _ _ _ :=
    (Emits.write CANNOT_FORK next).trans (.showPrompt_now _)
  rw [Session.visible_of_shell shell,
    Session.promptNow_of_shell ((Session.shell_write ..).trans shell)] at written
  exact written.after console

theorem plain_answerOutputs (streamed : Bool) (response : Str) :
    Plain (answerOutputs env streamed response) := by
  unfold answerOutputs
  split
  · exact plain_nil
  · exact plain_text _

structure Opened (env : Env) (session opened : Session) : Prop where
  shell : opened.shell = session.shell
  console : opened.console =
    { session.console with
      agenda := session.agenda.skip
      streams := session.streams ++ liveNumbers env session }

theorem Opened.screen {opened : Session} (open_ : Opened env session opened) :
    opened.screen = session.screen := congrArg ConsoleView.screen open_.console

theorem Opened.handleLlmResponse {opened : Session} (open_ : Opened env session opened)
    (turn : ModelTurn) (answer : Answer) :
    Emits env session (handleLlmResponse env turn answer opened)
      (session.visible (answerOutputs env turn.streamed answer.response) ++ session.promptNow)
      [] (liveNumbers env session) := by
  refine .answered ((console_handleLlmResponse ..).trans ?_)
  rw [Session.visible_of_shell open_.shell, Session.promptNow_of_shell open_.shell,
    open_.console, open_.screen, List.append_assoc]

theorem Opened.handleLlmError {opened : Session} (open_ : Opened env session opened)
    (error : Str) :
    Emits env session (handleLlmError error opened) session.promptNow []
      (liveNumbers env session) := by
  refine .answered ((console_handleLlmError ..).trans ?_)
  rw [Session.promptNow_of_shell open_.shell, open_.console, open_.screen]

theorem startTurn_effect {observation : Option Str}
    (asked : refusesTurn env session = false) (connected : session.connected = true) :
    TurnEffect env command observation session
      (startTurn env command (asking command observation session)) := by
  have open_ : Opened env session
      ((((asking command observation session).log
        (.prompt command (asking command observation session).cwd)).openStream env).skipNumber) :=
    ⟨by simp, rfl⟩
  cases provider : env.provider (asking command observation session).commandCount
      (buildRequest env (asking command observation session)) with
  | pending =>
      simp only [startTurn, provider]
      exact .waiting _ asked connected (by simp only [awaitsAnswer, provider])
        (Emits.asked rfl rfl)
  | fired answer =>
      simp only [startTurn, provider]
      exact .answered _ ((plain_answerOutputs _ _).visible session) asked connected
        (by simp only [awaitsAnswer, provider]) (open_.handleLlmResponse _ answer)
  | failed error =>
      simp only [startTurn, provider]
      exact .answered [] plain_nil asked connected
        (by simp only [awaitsAnswer, provider]) (open_.handleLlmError error)

theorem processCommandWithLlm_effect (env : Env) (command : Str) (observation : Option Str)
    (session : Session) :
    TurnEffect env command observation session
      (processCommandWithLlm env command observation session) := by
  rcases processCommandWithLlm_turned env command observation session with
    ⟨refused, isNext⟩ | ⟨refused, isNext⟩ | ⟨asked, connected, isNext⟩ |
      ⟨asked, disconnected, isNext⟩
  · rw [isNext]
    exact .refused refused (emits_refuseTurn (by rw [console_logSessionBudget]; rfl)
      (by rw [Session.shell_logSessionBudget]; rfl))
  · rw [isNext]
    exact .refused refused (emits_refuseTurn (by rw [console_logTokenBudget]; rfl)
      (by rw [Session.shell_logTokenBudget]; rfl))
  · rw [isNext]
    exact startTurn_effect asked connected
  · rw [isNext]
    refine .gone asked disconnected (.of_console ((console_handleLlmError ..).trans ?_))
    have nothing : (asking command observation session).promptNow = [] := by
      have shell : (asking command observation session).shell = session.shell := rfl
      refine (Session.promptNow_of_shell shell).trans ?_
      simp [Session.promptNow, Session.promptOf, Session.visible, disconnected]
    rw [nothing, List.append_nil]
    rfl

/-! ## Local answers -/

inductive Prompted (env : Env) (session next : Session) : Prop
  | now (outputs : List Output) (plain : Plain outputs) (text : Str)
      (emits : Emits env session next (outputs ++ session.promptOf text) [] [])
  | delayed (outputs : List Output) (plain : Plain outputs) (number : Nat)
      (leastMs mostMs : Int) (unsuppressed : session.suppressPrompt = false)
      (emits : Emits env session next outputs [(number, .prompt leastMs mostMs)] [])

def Session.foreground (session : Session) : Bool × Bool × Option ActiveProgram :=
  (session.suppressPrompt, session.connected, session.program)

theorem Session.promptOf_of_foreground (same : next.foreground = session.foreground)
    (text : Str) : next.promptOf text = session.promptOf text := by
  simp only [foreground, Prod.mk.injEq] at same
  rcases same with ⟨suppressPrompt, connected, program⟩
  simp only [promptOf, visible, suppressPrompt, connected, program]

theorem Session.foreground_of_shell (same : next.shell = session.shell) :
    next.foreground = session.foreground :=
  congrArg (fun view : ShellView => (view.suppressPrompt, view.connected, view.program)) same

theorem Prompted.showPromptJittered (plain : Plain outputs)
    (emits : Emits env session shown outputs [] [])
    (same : shown.foreground = session.foreground) :
    Prompted env session (showPromptJittered env shown) := by
  have suppressPrompt : shown.suppressPrompt = session.suppressPrompt := congrArg (·.1) same
  have undelayed : Prompted env session (shown.showPrompt 0 0) := by
    refine .now outputs plain shown.promptText ?_
    rw [← Session.promptOf_of_foreground same]
    simpa [Session.promptNow] using emits.trans (.showPrompt_now shown)
  by_cases suppressed : shown.suppressPrompt = true
  · have ignored (jitterMin jitterMax : Int) : shown.showPrompt jitterMin jitterMax = shown := by
      simp [Session.showPrompt, suppressed]
    rw [ignored] at undelayed
    rw [Protocol.showPromptJittered, ignored]
    exact undelayed
  by_cases jitters : 0 < max 0 env.config.fastpathJitterMsMax
  · have scheduled (leastMs mostMs : Int) :
        Emits env session (shown.schedule (.prompt leastMs mostMs)) outputs
          [(shown.agenda.next, .prompt leastMs mostMs)] [] := by
      simpa using emits.trans (.schedule (by simp) shown)
    simp only [Protocol.showPromptJittered, Session.showPrompt, suppressed, jitters, if_true,
      Bool.false_eq_true, if_false]
    exact .delayed outputs plain _ _ _ (suppressPrompt ▸ Bool.eq_false_iff.mpr suppressed)
      (scheduled _ _)
  · have atOnce : Protocol.showPromptJittered env shown = shown.showPrompt 0 0 := by
      simp [Protocol.showPromptJittered, Session.showPrompt, suppressed, jitters]
    rw [atOnce]
    exact undelayed

theorem Prompted.after (prompted : Prompted env session next) {start : Session}
    (console : session.console = start.console)
    (same : session.foreground = start.foreground) : Prompted env start next := by
  cases prompted with
  | now outputs plain text emits =>
      refine .now outputs plain text ?_
      rw [← Session.promptOf_of_foreground same]
      exact emits.after console
  | delayed outputs plain number leastMs mostMs unsuppressed emits =>
      exact .delayed outputs plain number leastMs mostMs
        ((congrArg (·.1) same).symm.trans unsuppressed) (emits.after console)

theorem Emits.send (outputs : List Output) (session : Session) :
    Emits env session (session.send outputs) (session.visible outputs) [] [] := by
  refine .shown ?_
  unfold Session.send Session.visible
  split
  · rfl
  · rw [List.append_nil]
    rfl

def closes (command : Str) (session : Session) : Prop :=
  fastVerb? (Text.firstWord (Text.strip command)) = some .leave ∧ session.world.userStack = []

theorem console_changeDirectory (arg : Str) (session : Session) :
    (session.changeDirectory arg).console = session.console := rfl

theorem foreground_changeDirectory (arg : Str) (session : Session) :
    (session.changeDirectory arg).foreground = session.foreground := rfl

theorem tryFastpath_effect (fast : tryFastpath env command session = some next) :
    closes command session ∧
        Emits env session next (session.visible [.loseConnection]) [] [] ∨
      ¬ closes command session ∧ Prompted env session next := by
  simp only [tryFastpath] at fast
  split at fast
  · rename_i blank
    cases fast
    refine .inr ⟨fun closing => ?_, .showPromptJittered plain_nil (.refl _) rfl⟩
    rw [closes, blank] at closing
    exact absurd closing.1 (by decide)
  split at fast
  · cases fast
  rcases Option.map_eq_some_iff.mp fast with ⟨verb, found, rfl⟩
  have open_ (other : verb ≠ .leave) : ¬ closes command session := fun closing =>
    other (Option.some.inj (found.symm.trans closing.1))
  cases verb with
  | leave =>
      simp only [runFastVerb]
      split
      · exact .inl ⟨⟨found, ‹_›⟩, .send _ _⟩
      · rename_i nested
        exact .inr ⟨fun closing => nested closing.2,
          .showPromptJittered plain_nil (.of_console rfl) rfl⟩
  | clear =>
      refine .inr ⟨open_ (by simp), .showPromptJittered (Plain.visible ?_ session) (.send _ _)
        (Session.foreground_of_shell (by simp))⟩
      simp [Plain, Output.isPrompt]
  | pwd =>
      exact .inr ⟨open_ (by simp), .showPromptJittered ((plain_text _).visible session)
        (.write _ _) (Session.foreground_of_shell (by simp))⟩
  | cd =>
      simp only [runFastVerb, handleCd]
      exact .inr ⟨open_ (by simp), .showPromptJittered plain_nil
        (.of_console ((console_changeDirectory ..).trans rfl))
        ((foreground_changeDirectory ..).trans rfl)⟩

theorem foreground_tryFastpath (fast : tryFastpath env command session = some next) :
    next.foreground = session.foreground := by
  have view {other : ShellView} (same : next.shell = other) :
      next.foreground = (other.suppressPrompt, other.connected, other.program) :=
    congrArg (fun view : ShellView => (view.suppressPrompt, view.connected, view.program)) same
  rcases shell_tryFastpath fast with same | popped | ⟨-, moved⟩
  · exact (view same).trans rfl
  · exact (view popped).trans rfl
  · rw [view moved]
    rfl

theorem console_applyInputMutations (command : Str) (session : Session) :
    (applyInputMutations command session).console = session.console := rfl

theorem emitDeterministic_effect (result : ResponderResult) :
    Prompted env session (emitDeterministic env command result session) := by
  have bookkept {shown : Session} (prompted : Prompted env session shown) :
      Prompted env session
        (recordClaim env command command result.output .deterministic shown) := by
    cases prompted with
    | now outputs plain text emits =>
        exact .now outputs plain text (emits.before (console_recordClaim ..))
    | delayed outputs plain number leastMs mostMs unsuppressed emits =>
        exact .delayed outputs plain number leastMs mostMs unsuppressed
          (emits.before (console_recordClaim ..))
  simp only [emitDeterministic]
  refine bookkept ?_
  split
  · exact .showPromptJittered plain_nil (.of_console rfl) rfl
  · exact .showPromptJittered ((plain_text _).visible session)
      ((Emits.write result.output _).after (Session.console_log ..))
      (Session.foreground_of_shell (by simp))

/-! ## Programs -/

def OnlyRefresh (added : List (Nat × Task)) : Prop := ∀ entry ∈ added, entry.2 = .refresh

theorem scheduleProgramRefresh_effect (env : Env) (session : Session) :
    ∃ added, OnlyRefresh added ∧ Emits env session (scheduleProgramRefresh session) [] added [] := by
  unfold scheduleProgramRefresh
  split
  · split
    · refine ⟨[(session.agenda.next, .refresh)], by simp [OnlyRefresh], ?_⟩
      exact ⟨by simp [Session.schedule], .add .., by simp [Session.schedule], by simp, by simp,
        fun _ call => .inr (by simp [← Option.some.inj call])⟩
    · exact ⟨[], by simp [OnlyRefresh], .refl _⟩
  · exact ⟨[], by simp [OnlyRefresh], .refl _⟩

theorem startProgram_effect (env : Env) (program : Program) (session : Session) :
    ∃ outputs added, Plain outputs ∧ OnlyRefresh added ∧
      Emits env session (startProgram env program session) outputs added [] := by
  let started : Session := { session with program := some ⟨program, session.cwd⟩ }
  let frame := program.renderInitial (topFrame env session.cwd session)
  rcases scheduleProgramRefresh_effect env (started.write frame) with ⟨added, refresh, emits⟩
  have same : started.console = session.console := rfl
  have drawn := ((Emits.write frame started).trans emits).after same
  simp only [List.nil_append, List.append_nil] at drawn
  exact ⟨_, added, (plain_text frame).visible started, refresh, drawn⟩

/-! ## Downloads -/

def fetchStarted (env : Env) (command : Str) (intent : DownloadIntent) (session : Session) :
    Option (Started FetchResult) :=
  match fetch env.urlparse intent with
  | .error _ => none
  | .ok plan => some (startFetch env plan (fetching command intent session))

/-- The session that asks the model about a fetch that has already fired. -/
def captured (command : Str) (intent : DownloadIntent) (result : FetchResult)
    (session : Session) : Session :=
  addCaptured intent result (fetching command intent session)

inductive FetchEffect (env : Env) (command : Str) (intent : DownloadIntent)
    (session : Session) : Session × Stage → Prop
  | raised (next : Session) (rejected : fetchStarted env command intent session = none)
      (emits : Emits env session next [] [] []) :
      FetchEffect env command intent session (next, .raised)
  | waiting (next : Session)
      (started : fetchStarted env command intent session = some .pending)
      (emits : Emits env session next [] [(session.agenda.next, .fetch command intent)] [])
      (uncounted : refusesTurn env next = refusesTurn env session) :
      FetchEffect env command intent session (next, .handled true)
  | failed (next : Session) (error : Str)
      (started : fetchStarted env command intent session = some (.failed error))
      (emits : Emits env session next session.promptNow [] []) :
      FetchEffect env command intent session (next, .handled true)
  | fired (next : Session) (result : FetchResult)
      (started : fetchStarted env command intent session = some (.fired result))
      (turned : TurnEffect env command (some (renderObservation intent result))
        (captured command intent result session) next) :
      FetchEffect env command intent session (next, .handled true)

theorem console_addCaptured (intent : DownloadIntent) (result : FetchResult) :
    (addCaptured intent result session).console = session.console := by
  simp only [addCaptured]
  split <;> rfl

theorem console_captured (command : Str) (intent : DownloadIntent) (result : FetchResult)
    (session : Session) : (captured command intent result session).console = session.console :=
  (console_addCaptured ..).trans rfl

theorem foreground_captured (command : Str) (intent : DownloadIntent) (result : FetchResult)
    (session : Session) :
    (captured command intent result session).foreground = session.foreground :=
  (Session.foreground_of_shell (shell_addCaptured _ intent result)).trans rfl

theorem beginFetch_effect (env : Env) (command : Str) (intent : DownloadIntent)
    (session : Session) :
    FetchEffect env command intent session (beginFetch env command intent session) := by
  simp only [beginFetch]
  cases fetched : fetch env.urlparse intent with
  | error error => exact .raised _ (by simp only [fetchStarted, fetched]) (.of_console rfl)
  | ok plan =>
      have started : fetchStarted env command intent session =
          some (startFetch env plan (fetching command intent session)) := by
        simp only [fetchStarted, fetched]
      have same : (fetching command intent session).console = session.console := rfl
      simp only
      cases fires : startFetch env plan (fetching command intent session) with
      | pending =>
          exact .waiting _ (fires ▸ started) ((Emits.schedule (by simp) _).after same)
            (refusesTurn_of_counts rfl rfl)
      | failed error =>
          refine .failed _ error (fires ▸ started) (.shown ((console_handleLlmError ..).trans ?_))
          rfl
      | fired result =>
          exact .fired _ result (fires ▸ started) (processCommandWithLlm_effect ..)

end Protocol

end LlmHoneypot
