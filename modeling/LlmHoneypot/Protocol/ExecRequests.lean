import LlmHoneypot.ChainSplitting
import LlmHoneypot.Protocol.Capture
import LlmHoneypot.Protocol.Ladders
import LlmHoneypot.Scp.Sessions

/-! # Exec requests

A command of an SSH exec request goes to the model at once. What it captures, against
what the same line captures when it is typed in a fresh session. -/

namespace LlmHoneypot

namespace Protocol

open CmdChain Downloader Interactive Responder

/-! ## Captured effects -/

structure LocalAnswer where
  command : Str
  shown : List Output
  deriving DecidableEq, Repr

structure CapturedEffects where
  answered : List LocalAnswer := []
  fetched : List DownloadIntent := []
  downloads : List LogEvent := []
  requests : Nat := 0
  deriving DecidableEq, Repr

/-! ## The exec protocol -/

/-- What an exec session takes from outside: the system context that ends in the command,
and the client of the model. -/
structure ExecEnv where
  execContext : Str → Str
  client : (prompt : List Str) → Started Str
  isWordChar : Char → Bool

/-- `HoneyPotExecProtocol`, of a command that is no upload. -/
structure ExecSession where
  execcmd : Str
  terminal : Bool := true
  screen : List Str := []
  /-- The exit codes that `processEnded` was called with. -/
  ended : List Nat := []
  effects : CapturedEffects := {}
  deriving DecidableEq, Repr

namespace ExecSession

def write (text : Str) (exec : ExecSession) : ExecSession :=
  { exec with screen := exec.screen ++ [text] }

def processEnded (exitCode : Nat) (exec : ExecSession) : ExecSession :=
  { exec with ended := exec.ended ++ [exitCode] }

def handleExecResponse (env : ExecEnv) (response : Str) (exec : ExecSession) : ExecSession :=
  if exec.terminal then
    (if response = [] then exec
    else exec.write (stripMarkdown env.isWordChar response ++ "\n".toList)).processEnded 0
  else exec

def handleExecError (exec : ExecSession) : ExecSession :=
  if exec.terminal then exec.processEnded 0 else exec

def processExecWithLlm (env : ExecEnv) (exec : ExecSession) : ExecSession :=
  let asked : ExecSession :=
    { exec with effects := { exec.effects with requests := exec.effects.requests + 1 } }
  match env.client [env.execContext exec.execcmd] with
  | .pending => asked
  | .fired response => asked.handleExecResponse env response
  | .failed _ => asked.handleExecError

def isScpSource (execcmd : Str) : Bool := Scp.hasFlag 'f' execcmd

def refuseScpSource (exec : ExecSession) : ExecSession :=
  (exec.write "\x01scp: Permission denied\n".toList).processEnded 1

/-- `connectionMade`; `none` for an upload, which is `Scp.ExecProtocol`. -/
def connectionMade (env : ExecEnv) (execcmd : Str) : Option ExecSession :=
  if Scp.isScpSink execcmd then none
  else if isScpSource execcmd then some (refuseScpSource { execcmd })
  else some (processExecWithLlm env { execcmd })

/-- What can happen to the request of an exec session. -/
inductive Event
  | responded (response : Str)
  | failed
  | lost

def step (env : ExecEnv) (exec : ExecSession) : Event → ExecSession
  | .responded response => exec.handleExecResponse env response
  | .failed => exec.handleExecError
  | .lost => { exec with terminal := false }

theorem effects_handleExecResponse (env : ExecEnv) (response : Str) (exec : ExecSession) :
    (exec.handleExecResponse env response).effects = exec.effects := by
  unfold handleExecResponse
  split
  · split <;> rfl
  · rfl

theorem effects_handleExecError (exec : ExecSession) :
    exec.handleExecError.effects = exec.effects := by
  unfold handleExecError
  split <;> rfl

theorem effects_run {env : ExecEnv} {execcmd : Str} {exec : ExecSession}
    (noSink : Scp.isScpSink execcmd = false) (noSource : isScpSource execcmd = false)
    (made : connectionMade env execcmd = some exec) (events : List Event) :
    (events.foldl (step env) exec).effects = { requests := 1 } := by
  have started : exec.effects = { requests := 1 } := by
    simp only [connectionMade, noSink, noSource, Bool.false_eq_true, if_false,
      Option.some.injEq] at made
    rw [← made, processExecWithLlm]
    simp only
    split
    · rfl
    · exact effects_handleExecResponse ..
    · exact effects_handleExecError ..
  induction events using List.reverseRecOn with
  | nil => exact started
  | append_singleton events event induction =>
      rw [List.foldl_concat, ← induction]
      cases event with
      | responded response => exact effects_handleExecResponse ..
      | failed => exact effects_handleExecError ..
      | lost => rfl

end ExecSession

/-! ## The typed line -/

def Rung.isLocal : Rung → Bool
  | .fastpath => true
  | .deterministic => true
  | .interactive => true
  | .download => false
  | .model => false

def shownBetween (session next : Session) : List Output :=
  (next.screen.drop session.screen.length).filter (!·.isPrompt)

def localAnswer (command : Str) (session : Session) (rung : Rung) (next : Session) :
    List LocalAnswer :=
  if rung.isLocal then [⟨command, shownBetween session next⟩] else []

def chainAnswers (env : Env) : (succeeded : Bool) → List Segment → Session → List LocalAnswer
  | _, [], _ => []
  | succeeded, segment :: rest, session =>
      if shouldRun segment.operator succeeded then
        let started := session.setSuppressPrompt true
        let (rung, next, stage) := climbLocal env segment.command started
        localAnswer segment.command started rung next ++
          match stage with
          | .handled succeeded =>
              chainAnswers env succeeded rest (next.setSuppressPrompt false)
          | _ => []
      else chainAnswers env true rest session

def lineAnswers (env : Env) (line : Str) (session : Session) : List LocalAnswer :=
  match chainSegments line with
  | some segments => chainAnswers env true segments session
  | none =>
      let (rung, next, _) := climbOne env line session
      localAnswer line session rung next

def LogEvent.isDownload : LogEvent → Bool
  | .downloadIntercept _ _ => true
  | _ => false

def Session.downloads (session : Session) : List LogEvent := session.events.filter LogEvent.isDownload

/-- The effects of a line typed in a session. -/
def typedEffects (env : Env) (line : Str) (session : Session) : CapturedEffects :=
  let next := (dispatchLine env line session).1
  { answered := lineAnswers env line (session.log (.input line))
    fetched := next.fetched
    downloads := next.downloads
    requests := next.modelSide.requests }

/-- The same commands are answered and the same downloads made and logged; the model is
asked only when the typed form asks it. -/
structure SameCapture (exec typed : CapturedEffects) : Prop where
  answered : exec.answered = typed.answered
  fetched : exec.fetched = typed.fetched
  downloads : exec.downloads = typed.downloads
  asked : 0 < exec.requests → 0 < typed.requests

/-! ## What the stages decline -/

section Stages

variable {env : Env} {command : Str} {session : Session}

structure Declines (env : Env) (renders : Renderer) (command : Str) (session : Session) : Prop where
  visible : Text.strip command ≠ []
  slow : isFastCommand command = false
  deferred : renders (applyInputMutations command session) = none
  lined : env.config.interactivePrograms = true →
    programOf env command (applyInputMutations command session) = none
  parsed : env.config.captureDownloads = true →
    parseDownloadCommand env.urlparse command = .ok none

theorem tryFastpath_eq_none_iff :
    tryFastpath env command session = none ↔
      Text.strip command ≠ [] ∧ isFastCommand command = false := by
  constructor
  · intro slow
    constructor
    · exact visible_of_slow slow
    · rw [Bool.eq_false_iff]
      intro fast
      rcases tryFastpath_of_isFastCommand env session fast with ⟨next, handled⟩
      rw [slow] at handled
      cases handled
  · intro declined
    rw [Option.eq_none_iff_forall_ne_some]
    intro next fast
    have isFast := isFastCommand_of_tryFastpath fast declined.1
    rw [declined.2] at isFast
    cases isFast

theorem tryInteractive_eq_none_iff (connected : session.connected = true) :
    tryInteractive env command session = none ↔
      (env.config.interactivePrograms = true → programOf env command session = none) := by
  unfold tryInteractive
  by_cases enabled : env.config.interactivePrograms = true
  · rw [if_pos ⟨connected, enabled⟩, Option.map_eq_none_iff]
    simp [enabled]
  · rw [if_neg fun both => enabled both.2]
    simp [enabled]

theorem tryDownloadIntercept_cases :
    (∃ intent, (tryDownloadIntercept env command session).1.fetched = session.fetched ++ [intent] ∧
        (tryDownloadIntercept env command session).2 ≠ .declined) ∨
      tryDownloadIntercept env command session = (session, .raised) ∨
      (tryDownloadIntercept env command session = (session, .declined) ∧
        (env.config.captureDownloads = true →
          parseDownloadCommand env.urlparse command = .ok none)) := by
  unfold tryDownloadIntercept
  split
  · split
    · exact .inr (.inl rfl)
    · rename_i parsed
      exact .inr (.inr ⟨rfl, fun _ => parsed⟩)
    · rename_i intent parsed
      left
      apply Exists.intro intent
      constructor
      · exact congrArg ShellView.fetched (shell_beginFetch env command session intent)
      · rcases beginFetch_stage env command intent session with ⟨raised, -⟩ | handled
        · simp [raised]
        · simp [handled]
  · rename_i off
    exact .inr (.inr ⟨rfl, fun on => absurd on off⟩)

end Stages

/-! ## What the model turn logs -/

def Quietly (session next : Session) : Prop :=
  ∃ later, next.events = session.events ++ later ∧
    ∀ event ∈ later, event.isDownload = false ∧ event.isPrompt = false

namespace Quietly

variable {env : Env} {session next final : Session}

theorem of_same (same : next.events = session.events) : Quietly session next :=
  ⟨[], by rw [same, List.append_nil], by simp⟩

theorem trans (first : Quietly session next) (second : Quietly next final) :
    Quietly session final := by
  rcases first with ⟨earlier, logged, quiet⟩
  rcases second with ⟨later, loggedLater, quietLater⟩
  apply Exists.intro (earlier ++ later)
  constructor
  · rw [loggedLater, logged, List.append_assoc]
  · intro event member
    exact (List.mem_append.mp member).elim (quiet event) (quietLater event)

theorem log {event : LogEvent} (download : event.isDownload = false) (prompt : event.isPrompt = false)
    (session : Session) : Quietly session (session.log event) :=
  ⟨[event], rfl, by simpa using ⟨download, prompt⟩⟩

theorem write (text : Str) (session : Session) : Quietly session (session.write text) := by
  apply of_same
  unfold Session.write
  split <;> rfl

theorem showPrompt (jitterMin jitterMax : Int) (session : Session) :
    Quietly session (session.showPrompt jitterMin jitterMax) := by
  apply of_same
  simp only [Session.showPrompt]
  split
  · rfl
  · split
    · rfl
    · unfold Session.writePromptSafe
      split <;> rfl

theorem recordClaim (answered command answer : Str) (source : ClaimSource) (session : Session) :
    Quietly session (recordClaim env answered command answer source session) := by
  apply of_same
  unfold Protocol.recordClaim
  split
  · rfl
  · split
    · rfl
    · split <;> rfl

theorem showAnswer (streamed : Bool) (response : Str) (session : Session) :
    Quietly session (showAnswer env streamed response session) := by
  unfold Protocol.showAnswer
  split
  · exact of_same rfl
  · rcases cleanResponse env response with ⟨clean, leaked⟩
    have leak : Quietly session (if leaked then session.log .observationLeak else session) := by
      split
      · exact log rfl rfl session
      · exact of_same rfl
    have history : ∀ other : Session, Quietly other
        { other with
          commandHistory := other.commandHistory ++ ["System: ".toList ++ clean]
          spoken := other.spoken ++ [LLMMessage.mk .assistant clean] } :=
      fun other => of_same rfl
    apply (leak.trans (history _)).trans
    exact (write (if streamed then "\n".toList else clean ++ "\n".toList) _).trans (of_same rfl)

theorem recordPending (answered : Str) (session : Session) :
    Quietly session (recordPending env answered session) := by
  unfold Protocol.recordPending
  split
  · exact of_same rfl
  · exact (of_same rfl).trans (recordClaim ..)

theorem handleLlmResponse (turn : ModelTurn) (answer : Answer) (session : Session) :
    Quietly session (handleLlmResponse env turn answer session) := by
  have used : Quietly session (session.recordUsage answer.usage) := by
    apply of_same
    cases answer.usage <;> rfl
  have logged := used.trans (@log (.response answer.response) rfl rfl _)
  simp only [Protocol.handleLlmResponse]
  split
  · exact ((logged.trans (showAnswer ..)).trans (showPrompt ..)).trans (recordPending ..)
  · exact logged

theorem handleLlmError (error : Str) (session : Session) :
    Quietly session (handleLlmError error session) := by
  have logged : Quietly session (session.log (.error error)) := log rfl rfl session
  simp only [Protocol.handleLlmError]
  split
  · exact logged.trans (showPrompt ..)
  · exact logged

theorem downloads (quiet : Quietly session next) : next.downloads = session.downloads := by
  rcases quiet with ⟨later, logged, isQuiet⟩
  have none : later.filter LogEvent.isDownload = [] := by
    apply List.filter_eq_nil_iff.mpr
    intro event member
    simp [(isQuiet event member).1]
  rw [Session.downloads, Session.downloads, logged, List.filter_append, none, List.append_nil]

theorem requests (quiet : Quietly session next) :
    next.modelSide.requests = session.modelSide.requests := by
  rcases quiet with ⟨later, logged, isQuiet⟩
  have none : later.countP LogEvent.isPrompt = 0 := by
    apply List.countP_eq_zero.mpr
    intro event member
    simp [(isQuiet event member).2]
  change next.events.countP LogEvent.isPrompt = session.events.countP LogEvent.isPrompt
  rw [logged, List.countP_append, none, Nat.add_zero]

end Quietly

section Turn

variable {env : Env} {command : Str} {session : Session}

theorem refuseTurn_quietly (session : Session) : Quietly session (refuseTurn session) :=
  (Quietly.write CANNOT_FORK session).trans (.showPrompt ..)

theorem logSessionBudget_quietly (session : Session) :
    Quietly session session.logSessionBudget := by
  unfold Session.logSessionBudget
  split
  · exact .of_same rfl
  · exact (Quietly.log rfl rfl session).trans (.of_same rfl)

theorem logTokenBudget_quietly (session : Session) :
    Quietly session session.logTokenBudget := by
  unfold Session.logTokenBudget
  split
  · exact .of_same rfl
  · exact (Quietly.log rfl rfl session).trans (.of_same rfl)

theorem processCommandWithLlm_refused (refused : refusesTurn env session = true)
    (observation : Option Str) :
    Quietly session (processCommandWithLlm env command observation session) := by
  have same : Quietly session session.counted := .of_same rfl
  rcases processCommandWithLlm_turned env command observation session with
    ⟨-, isNext⟩ | ⟨-, isNext⟩ | ⟨asked, -, -⟩ | ⟨asked, -, -⟩
  · rw [isNext]
    exact (same.trans (logSessionBudget_quietly _)).trans (refuseTurn_quietly _)
  · rw [isNext]
    exact (same.trans (logTokenBudget_quietly _)).trans (refuseTurn_quietly _)
  · rw [refused] at asked
    exact Bool.noConfusion asked
  · rw [refused] at asked
    exact Bool.noConfusion asked

theorem processCommandWithLlm_asked (asked : refusesTurn env session = false)
    (connected : session.connected = true) (observation : Option Str) :
    Quietly (session.log (.prompt command session.cwd))
      (processCommandWithLlm env command observation session) := by
  rcases processCommandWithLlm_turned env command observation session with
    ⟨refused, -⟩ | ⟨refused, -⟩ | ⟨-, -, isNext⟩ | ⟨-, disconnected, -⟩
  · rw [refused] at asked
    exact Bool.noConfusion asked
  · rw [refused] at asked
    exact Bool.noConfusion asked
  · rw [isNext]
    simp only [startTurn]
    split
    · exact .of_same rfl
    · apply Quietly.trans _ (.handleLlmResponse ..)
      exact .of_same rfl
    · apply Quietly.trans _ (.handleLlmError ..)
      exact .of_same rfl
  · rw [connected] at disconnected
    exact Bool.noConfusion disconnected

end Turn

/-! ## Ways through the ladders -/

section Ladders

variable {env : Env} {command : Str} {session : Session}

theorem connected_applyInputMutations (command : Str) (session : Session) :
    (applyInputMutations command session).connected = session.connected := rfl

theorem tryDownloadIntercept_declines
    (parsed : env.config.captureDownloads = true →
      parseDownloadCommand env.urlparse command = .ok none) :
    tryDownloadIntercept env command session = (session, .declined) := by
  unfold tryDownloadIntercept
  split
  · rename_i on
    rw [parsed on]
  · rfl

theorem tryDeterministic_eq_none_iff :
    tryDeterministic env command session = none ↔ lineRenderer env command session = none := by
  unfold tryDeterministic lineRenderer
  split
  · exact Option.map_eq_none_iff
  · exact iff_of_true rfl rfl

inductive SegmentTaken (env : Env) (command : Str) (session : Session) :
    Rung × Session × Stage → Prop
  | answered (rung : Rung) (next : Session) (ok : Bool) (isLocal : rung.isLocal = true) :
      SegmentTaken env command session (rung, next, .handled ok)
  | fetched (rung : Rung) (next : Session) (stage : Stage) (intent : DownloadIntent)
      (fetched : next.fetched = session.fetched ++ [intent]) (notDeclined : stage ≠ .declined) :
      SegmentTaken env command session (rung, next, stage)
  | broken (rung : Rung) :
      SegmentTaken env command session (rung, applyInputMutations command session, .raised)
  | declined (declines : Declines env (localRenderer env command) command session) :
      SegmentTaken env command session (.model, applyInputMutations command session, .declined)

theorem segmentTaken (connected : session.connected = true) :
    SegmentTaken env command session (climbLocal env command session) := by
  have still := (connected_applyInputMutations command session).trans connected
  unfold climbLocal
  cases fast : tryFastpath env command session with
  | some next => exact .answered _ _ _ rfl
  | none =>
      rcases tryFastpath_eq_none_iff.mp fast with ⟨visible, slow⟩
      simp only
      cases deferred : respondIn env command (applyInputMutations command session) with
      | some result => exact .answered _ _ _ rfl
      | none =>
          simp only
          cases lined : tryInteractive env command (applyInputMutations command session) with
          | some next => exact .answered _ _ _ rfl
          | none =>
              simp only
              rcases @tryDownloadIntercept_cases env command (applyInputMutations command session)
                with ⟨intent, fetched, notDeclined⟩ | raised | ⟨declined, parsed⟩
              · have outcome := downloadRung_snd
                  (tryDownloadIntercept env command (applyInputMutations command session))
                rw [← outcome] at fetched notDeclined
                exact .fetched _ _ _ intent fetched notDeclined
              · rw [raised]
                exact .broken .download
              · rw [declined]
                exact .declined ⟨visible, slow, deferred,
                  (tryInteractive_eq_none_iff still).mp lined, parsed⟩

/-- The same of a line that is no chain; what is declined goes to the model. -/
inductive LineTaken (env : Env) (command : Str) (session : Session) :
    Rung × Session × Ending → Prop
  | answered (rung : Rung) (next : Session) (isLocal : rung.isLocal = true) :
      LineTaken env command session (rung, next, .returned)
  | fetched (rung : Rung) (next : Session) (ending : Ending) (intent : DownloadIntent)
      (fetched : next.fetched = session.fetched ++ [intent]) :
      LineTaken env command session (rung, next, ending)
  | broken (rung : Rung) :
      LineTaken env command session (rung, applyInputMutations command session, .raised)
  | declined (declines : Declines env (lineRenderer env command) command session) :
      LineTaken env command session
        (.model, processCommandWithLlm env command none (applyInputMutations command session),
          .returned)

theorem lineTaken (connected : session.connected = true) :
    LineTaken env command session (climbOne env command session) := by
  have still := (connected_applyInputMutations command session).trans connected
  unfold climbOne
  cases fast : tryFastpath env command session with
  | some next => exact .answered _ _ rfl
  | none =>
      rcases tryFastpath_eq_none_iff.mp fast with ⟨visible, slow⟩
      simp only
      cases answer : tryDeterministic env command (applyInputMutations command session) with
      | some next => exact .answered _ _ rfl
      | none =>
          have deferred := tryDeterministic_eq_none_iff.mp answer
          simp only
          cases lined : tryInteractive env command (applyInputMutations command session) with
          | some next => exact .answered _ _ rfl
          | none =>
              simp only
              rcases @tryDownloadIntercept_cases env command (applyInputMutations command session)
                with ⟨intent, fetched, notDeclined⟩ | raised | ⟨declined, parsed⟩
              · generalize tryDownloadIntercept env command (applyInputMutations command session) =
                  outcome at fetched notDeclined
                rcases outcome with ⟨next, stage⟩
                cases stage with
                | declined => exact absurd rfl notDeclined
                | raised => exact .fetched _ _ _ intent fetched
                | handled ok => exact .fetched _ _ _ intent fetched
              · rw [raised]
                exact .broken .download
              · rw [declined]
                exact .declined ⟨visible, slow, deferred,
                  (tryInteractive_eq_none_iff still).mp lined, parsed⟩

theorem climbLocal_declines (connected : session.connected = true)
    (declines : Declines env (localRenderer env command) command session) :
    climbLocal env command session =
      (.model, applyInputMutations command session, .declined) := by
  have still := (connected_applyInputMutations command session).trans connected
  have fast : tryFastpath env command session = none :=
    tryFastpath_eq_none_iff.mpr ⟨declines.visible, declines.slow⟩
  have deferred : respondIn env command (applyInputMutations command session) = none :=
    declines.deferred
  have lined := (tryInteractive_eq_none_iff still).mpr declines.lined
  simp only [climbLocal, fast, deferred, lined, tryDownloadIntercept_declines declines.parsed]
  rfl

theorem climbOne_declines (connected : session.connected = true)
    (declines : Declines env (lineRenderer env command) command session) :
    climbOne env command session =
      (.model, processCommandWithLlm env command none (applyInputMutations command session),
        .returned) := by
  have still := (connected_applyInputMutations command session).trans connected
  have fast : tryFastpath env command session = none :=
    tryFastpath_eq_none_iff.mpr ⟨declines.visible, declines.slow⟩
  have deferred := tryDeterministic_eq_none_iff.mpr declines.deferred
  have lined := (tryInteractive_eq_none_iff still).mpr declines.lined
  simp only [climbOne, fast, deferred, lined, tryDownloadIntercept_declines declines.parsed]

end Ladders

/-! ## Both forms of a line -/

structure Unasked (session : Session) : Prop where
  connected : session.connected = true
  fetched : session.fetched = []
  downloads : session.downloads = []
  requests : session.modelSide.requests = 0
  commandCount : session.commandCount = 0
  sessionTokens : session.sessionTokens = 0

namespace Unasked

variable {session : Session}

theorem of_initial (fresh : Initial session) : Unasked session := by
  rcases fresh with ⟨loginUser, hostname, clock, rfl⟩
  constructor <;> rfl

theorem log_input (unasked : Unasked session) (line : Str) :
    Unasked (session.log (.input line)) := by
  have quiet : Quietly session (session.log (.input line)) := .log rfl rfl session
  exact
    { connected := unasked.connected, fetched := unasked.fetched
      downloads := quiet.downloads.trans unasked.downloads
      requests := quiet.requests.trans unasked.requests
      commandCount := unasked.commandCount, sessionTokens := unasked.sessionTokens }

theorem setSuppressPrompt (unasked : Unasked session) (suppress : Bool) :
    Unasked (session.setSuppressPrompt suppress) :=
  ⟨unasked.connected, unasked.fetched, unasked.downloads, unasked.requests,
    unasked.commandCount, unasked.sessionTokens⟩

theorem applyInputMutations (unasked : Unasked session) (command : Str) :
    Unasked (applyInputMutations command session) :=
  ⟨unasked.connected, unasked.fetched, unasked.downloads, unasked.requests,
    unasked.commandCount, unasked.sessionTokens⟩

end Unasked

/-- A budget for a first command, and a line whose first command no stage before the model
takes. -/
def ModelOnly (env : Env) (line : Str) (session : Session) : Prop :=
  1 ≤ env.config.maxCommandsPerSession ∧
    let start := session.log (.input line)
    match chainSegments line with
    | none => Declines env (lineRenderer env line) line start
    | some segments => ∃ first, segments.head? = some first ∧
        Declines env (localRenderer env first.command) first.command
          (start.setSuppressPrompt true)

section Forms

variable {env : Env} {line : Str} {session : Session}

theorem sameCapture_iff (typed : CapturedEffects) :
    SameCapture { requests := 1 } typed ↔
      typed.answered = [] ∧ typed.fetched = [] ∧ typed.downloads = [] ∧ 0 < typed.requests := by
  constructor
  · intro same
    exact ⟨same.answered.symm, same.fetched.symm, same.downloads.symm, same.asked Nat.one_pos⟩
  · intro nothing
    rcases nothing with ⟨answered, fetched, downloads, asked⟩
    exact ⟨answered.symm, fetched.symm, downloads.symm, fun _ => asked⟩

theorem refusesTurn_first (unasked : Unasked session) :
    refusesTurn env session = false ↔ 1 ≤ env.config.maxCommandsPerSession := by
  simp only [refusesTurn, overCommandBudget, overTokenBudget, unasked.commandCount,
    unasked.sessionTokens]
  simp only [Bool.or_eq_false_iff, Bool.and_eq_false_iff, decide_eq_false_iff_not]
  omega

theorem turn_captures (unasked : Unasked session) (command : Str) :
    (processCommandWithLlm env command none session).fetched = [] ∧
      (processCommandWithLlm env command none session).downloads = [] ∧
      (0 < (processCommandWithLlm env command none session).modelSide.requests ↔
        1 ≤ env.config.maxCommandsPerSession) := by
  have fetched := congrArg ShellView.fetched
    (shell_processCommandWithLlm env command none session)
  have first := @refusesTurn_first env session unasked
  cases refused : refusesTurn env session with
  | true =>
      have quiet := @processCommandWithLlm_refused env command session refused none
      rw [refused] at first
      apply And.intro (fetched.trans unasked.fetched)
      apply And.intro (quiet.downloads.trans unasked.downloads)
      rw [quiet.requests, unasked.requests, ← first]
      simp
  | false =>
      have quiet := @processCommandWithLlm_asked env command session refused unasked.connected none
      have logged : (session.log (.prompt command session.cwd)).downloads = [] ∧
          (session.log (.prompt command session.cwd)).modelSide.requests = 1 := by
        have downloads := unasked.downloads
        have requests := unasked.requests
        constructor
        · simpa [Session.downloads, Session.log, LogEvent.isDownload] using downloads
        · change (session.events ++ [_]).countP LogEvent.isPrompt = 1
          rw [List.countP_append]
          exact congrArg (· + 1) requests
      apply And.intro (fetched.trans unasked.fetched)
      apply And.intro (quiet.downloads.trans logged.1)
      rw [quiet.requests, logged.2, ← first, refused]
      simp

theorem lineAnswers_unchained (unchained : chainSegments line = none) :
    lineAnswers env line session =
      localAnswer line session (climbOne env line session).1 (climbOne env line session).2.1 := by
  simp only [lineAnswers, unchained]

theorem unchained_iff (unasked : Unasked session) (unchained : chainSegments line = none) :
    SameCapture { requests := 1 } (typedEffects env line session) ↔ ModelOnly env line session := by
  have started := unasked.log_input line
  have dispatched : dispatchLine env line session =
      (climbOne env line (session.log (.input line))).2 := by
    simp only [dispatchLine, unchained, climbOne_snd]
  rw [sameCapture_iff, ModelOnly]
  simp only [typedEffects, dispatched, lineAnswers_unchained unchained, unchained]
  have taken := @lineTaken env line _ started.connected
  constructor
  · intro nothing
    rcases nothing with ⟨answered, fetched, -, asked⟩
    generalize climbOne env line (session.log (.input line)) = outcome at taken answered fetched asked
    cases taken with
    | answered rung next isLocal =>
        rw [localAnswer, if_pos isLocal] at answered
        cases answered
    | fetched rung next ending intent isFetched =>
        simp only at fetched
        rw [isFetched] at fetched
        simp at fetched
    | broken rung =>
        have none := (started.applyInputMutations line).requests
        simp only at asked
        omega
    | declined declines =>
        have turn := @turn_captures env _ (started.applyInputMutations line) line
        exact ⟨turn.2.2.mp asked, declines⟩
  · intro modelOnly
    rcases modelOnly with ⟨budget, declines⟩
    rw [climbOne_declines started.connected declines]
    have turn := @turn_captures env _ (started.applyInputMutations line) line
    exact ⟨rfl, turn.1, turn.2.1, turn.2.2.mpr budget⟩

theorem scanChain_first {mode : ScanMode} {operator : Operator} {current text : Str}
    {segments : List Segment} (scanned : scanChain id mode operator current text = some segments) :
    ∃ first, segments.head? = some first ∧ first.operator = operator := by
  fun_induction scanChain id mode operator current text generalizing segments with
  | case1 => cases scanned
  | case2 operator current | case3 operator current | case4 operator current =>
      cases scanned
      exact ⟨_, rfl, rfl⟩
  | case5 _ _ _ _ _ induction | case6 _ _ _ _ induction | case7 _ _ _ _ induction =>
      exact induction scanned
  | case8 _ _ _ _ _ induction | case9 _ _ _ _ _ _ induction =>
      exact induction scanned
  | case10 operator current _ _ _ _ _ _ induction =>
      rcases Option.map_eq_some_iff.mp scanned with ⟨later, -, rfl⟩
      exact ⟨_, rfl, rfl⟩
  | case11 => cases scanned
  | case12 _ _ _ _ _ _ _ _ induction => exact induction scanned

theorem chainSegments_first {segments : List Segment} (chained : chainSegments line = some segments) :
    ∃ first rest, segments = first :: rest ∧ first.operator = .start := by
  rcases Option.filter_eq_some_iff.mp chained with ⟨split, -⟩
  rcases scanChain_first (splitChain_eq_some split).1 with ⟨first, head, isStart⟩
  rcases List.head?_eq_some_iff.mp head with ⟨rest, equal⟩
  exact ⟨first, rest, equal, isStart⟩

theorem fetched_grow_dispatched {renders : Renderer} {command : Str} {outcome : Session × Stage}
    (dispatched : Dispatched env renders command session outcome) :
    ∃ later, outcome.1.fetched = session.fetched ++ later := by
  have same : ∀ {next : Session}, next.fetched = session.fetched →
      ∃ later, next.fetched = session.fetched ++ later :=
    fun same => ⟨[], by rw [same, List.append_nil]⟩
  cases dispatched with
  | fast next fast => exact same (fetched_tryFastpath fast)
  | rendered result slow rendered =>
      exact same (congrArg ShellView.fetched (shell_emitDeterministic ..))
  | program program slow deferred connected enabled started =>
      exact same (congrArg ShellView.fetched (shell_startProgram ..))
  | download intent slow deferred lined capture parsed =>
      exact ⟨[intent], congrArg ShellView.fetched (shell_beginFetch ..)⟩
  | badUrl raised slow deferred lined capture parsed => exact same rfl
  | declined slow deferred lined parsed => exact same rfl

theorem fetched_grow_chainLoop (succeeded : Bool) (segments : List Segment) (session : Session) :
    ∃ later, (chainLoop env succeeded segments session).session.fetched =
      session.fetched ++ later := by
  apply chainLoop_relation fun first second : Session => ∃ later,
    second.fetched = first.fetched ++ later
  · intro other
    exact ⟨[], (List.append_nil _).symm⟩
  · intro first second third before after
    rcases before with ⟨earlier, isEarlier⟩
    rcases after with ⟨later, isLater⟩
    exact ⟨earlier ++ later, by rw [isLater, isEarlier, List.append_assoc]⟩
  · intro segment _ other
    have dispatched := dispatchLocal_dispatched env segment.command (other.setSuppressPrompt true)
    rcases fetched_grow_dispatched dispatched with ⟨later, fetched⟩
    exact ⟨later, fetched⟩

theorem chained_iff (unasked : Unasked session) {segments : List Segment}
    (chained : chainSegments line = some segments) :
    SameCapture { requests := 1 } (typedEffects env line session) ↔ ModelOnly env line session := by
  have started := (unasked.log_input line).setSuppressPrompt true
  have dispatched : dispatchLine env line session =
      finishChain env (chainLoop env true segments (session.log (.input line))) := by
    simp only [dispatchLine, chained, dispatchChain]
  rw [sameCapture_iff, ModelOnly]
  simp only [typedEffects, dispatched, lineAnswers, chained]
  rcases chainSegments_first chained with ⟨first, rest, rfl, isStart⟩
  have runs : shouldRun first.operator true = true := by rw [isStart]; rfl
  have segment : dispatchSegment env first.command (session.log (.input line)) =
      ((climbLocal env first.command
          ((session.log (.input line)).setSuppressPrompt true)).2.1.setSuppressPrompt false,
        (climbLocal env first.command
          ((session.log (.input line)).setSuppressPrompt true)).2.2) := by
    rw [climbLocal_snd]
    rfl
  have taken := @segmentTaken env first.command _ started.connected
  constructor
  · intro nothing
    rcases nothing with ⟨answered, fetched, -, asked⟩
    rw [fetched_finishChain] at fetched
    simp only [chainLoop, runs, if_true, segment] at fetched asked
    simp only [chainAnswers, runs, if_true] at answered
    generalize climbLocal env first.command
      ((session.log (.input line)).setSuppressPrompt true) = outcome at taken answered fetched asked
    cases taken with
    | answered rung next ok isLocal =>
        rw [localAnswer, if_pos isLocal] at answered
        cases answered
    | fetched rung next stage intent isFetched notDeclined =>
        cases stage with
        | declined => exact absurd rfl notDeclined
        | raised =>
            change next.fetched = [] at fetched
            rw [isFetched] at fetched
            simp at fetched
        | handled ok =>
            rcases @fetched_grow_chainLoop env ok rest (next.setSuppressPrompt false) with ⟨later, more⟩
            change (chainLoop env ok rest (next.setSuppressPrompt false)).session.fetched = []
              at fetched
            have before : (next.setSuppressPrompt false).fetched = next.fetched := rfl
            rw [more, before, isFetched] at fetched
            simp at fetched
    | broken rung =>
        have none := (started.applyInputMutations first.command).requests
        change 0 < (applyInputMutations first.command
          ((session.log (.input line)).setSuppressPrompt true)).modelSide.requests at asked
        omega
    | declined declines =>
        have start := ((started.applyInputMutations first.command).setSuppressPrompt
          false).applyInputMutations (remainder first.command rest)
        have turn := @turn_captures env _ start (remainder first.command rest)
        exact ⟨turn.2.2.mp asked, first, rfl, declines⟩
  · intro modelOnly
    rcases modelOnly with ⟨budget, head, isHead, declines⟩
    cases isHead
    have start := ((started.applyInputMutations first.command).setSuppressPrompt
      false).applyInputMutations (remainder first.command rest)
    have turn := @turn_captures env _ start (remainder first.command rest)
    have climbed := climbLocal_declines started.connected declines
    have run : chainLoop env true (first :: rest) (session.log (.input line)) =
        ⟨(applyInputMutations first.command
            ((session.log (.input line)).setSuppressPrompt true)).setSuppressPrompt false,
          [.handedOver], .handedOver (remainder first.command rest)⟩ := by
      simp only [chainLoop, runs, if_true, segment, climbed]
    rw [run]
    apply And.intro
    · simp only [chainAnswers, runs, if_true, climbed]
      rfl
    · exact ⟨turn.1, turn.2.1, turn.2.2.mpr budget⟩

end Forms

/-- An exec request captures what the same line captures when it is typed in a fresh session
exactly if the typed form asks the model at once as well. -/
theorem exec_agrees_iff (execEnv : ExecEnv) (env : Env) {line : Str} {session : Session}
    (fresh : Initial session) (noSink : Scp.isScpSink line = false)
    (noSource : ExecSession.isScpSource line = false) {exec : ExecSession}
    (made : ExecSession.connectionMade execEnv line = some exec) (events : List ExecSession.Event) :
    SameCapture (events.foldl (ExecSession.step execEnv) exec).effects
        (typedEffects env line session) ↔
      ModelOnly env line session := by
  rw [ExecSession.effects_run noSink noSource made events]
  have unasked := Unasked.of_initial fresh
  cases chained : chainSegments line with
  | none => exact unchained_iff unasked chained
  | some segments => exact chained_iff unasked chained

/-- An exec environment whose requests are pending. -/
def ExecEnv.pending : ExecEnv :=
  { execContext := id, client := fun _ => .pending, isWordChar := fun ch => ch.isAlphanum }

/-- `nproc` goes to the model in both forms. -/
theorem exec_agrees_iff_nproc :
    SameCapture
        ([ExecSession.Event.responded "4".toList].foldl (ExecSession.step .pending)
          { execcmd := "nproc".toList, effects := { requests := 1 } }).effects
        (typedEffects .pending "nproc".toList (Session.showPrompt 0 0 .root)) ↔
      ModelOnly .pending "nproc".toList (Session.showPrompt 0 0 .root) :=
  exec_agrees_iff .pending .pending ⟨_, _, _, rfl⟩ (by decide) (by decide) rfl _

/-- `wget http://e/a` is fetched when it is typed, and not in an exec request. -/
theorem exec_download_not_fetched :
    ¬ ∀ execEnv env line session exec (events : List ExecSession.Event), Initial session → Scp.isScpSink line = false →
      ExecSession.isScpSource line = false →
      ExecSession.connectionMade execEnv line = some exec →
        SameCapture (events.foldl (ExecSession.step execEnv) exec).effects
          (typedEffects env line session) := by
  intro all
  have same := all .pending .pending "wget http://e/a".toList (Session.showPrompt 0 0 .root)
    { execcmd := "wget http://e/a".toList, effects := { requests := 1 } } []
    ⟨_, _, _, rfl⟩ (by decide) (by decide) rfl
  have fetched := same.fetched
  revert fetched
  decide

end Protocol

end LlmHoneypot
