import LlmHoneypot.Protocol.Reachable

/-! # Routes of a command

Which stage of the ladder answers a command, and which commands leave the prompt of
their line to someone else than the end of the line. -/

namespace LlmHoneypot

namespace Protocol

open CmdChain Downloader Interactive Responder

variable {env : Env} {command : Str} {session next : Session}

/-! ## Routes -/

inductive Route
  | fast
  | rendered
  | program
  | download (intent : DownloadIntent)
  | badUrl
  | model
  deriving DecidableEq, Repr

def route (env : Env) (renders : Renderer) (command : Str) (session : Session) : Route :=
  if (tryFastpath env command session).isSome then .fast
  else
    let session := applyInputMutations command session
    if (renders session).isSome then .rendered
    else if (tryInteractive env command session).isSome then .program
    else if env.config.captureDownloads then
      match parseDownloadCommand env.urlparse command with
      | .error _ => .badUrl
      | .ok none => .model
      | .ok (some intent) => .download intent
    else .model

def Late (env : Env) : Prop := env.lateChunks = true ∧ streams env = true

def AsksLate (env : Env) (session : Session) : Prop :=
  Late env ∧ refusesTurn env session = false

/-- A command of a chain that leaves the prompt to the end of the chain: it starts no
program, raises nothing, and no fetch or model request of it stays outstanding or
goes on streaming. -/
def SegmentSettles (env : Env) (command : Str) (session : Session) : Prop :=
  match route env (localRenderer env command) command session with
  | .fast => True
  | .rendered => True
  | .program => False
  | .badUrl => False
  | .model => True
  | .download intent =>
      match fetchStarted env command intent (applyInputMutations command session) with
      | none => False
      | some .pending => False
      | some (.failed _) => True
      | some (.fired result) =>
          let asker := captured command intent result (applyInputMutations command session)
          refusesTurn env asker = true ∨
            ¬ Late env ∧
              awaitsAnswer env command (some (renderObservation intent result)) asker = false

/-- The segments of a chain leave the prompt to its end, each in the session it runs
in, and what is handed to the model does not go on streaming after its answer. -/
def ChainSettles (env : Env) : (succeeded : Bool) → List Segment → Session → Prop
  | _, [], _ => True
  | succeeded, segment :: rest, session =>
      if shouldRun segment.operator succeeded then
        SegmentSettles env segment.command (session.setSuppressPrompt true) ∧
          match dispatchSegment env segment.command session with
          | (_, .raised) => True
          | (next, .declined) => ¬ AsksLate env next
          | (next, .handled succeeded) => ChainSettles env succeeded rest next
      else ChainSettles env true rest session

/-- A single command that ends in one prompt: it does not close the connection or
raise, and no request of it goes on streaming. -/
def LineSettles (env : Env) (command : Str) (session : Session) : Prop :=
  match route env (lineRenderer env command) command session with
  | .fast => ¬ closes command session
  | .rendered => True
  | .program => True
  | .badUrl => False
  | .model => ¬ AsksLate env session
  | .download intent =>
      match fetchStarted env command intent (applyInputMutations command session) with
      | none => False
      | some .pending => ¬ AsksLate env session
      | some (.failed _) => True
      | some (.fired result) =>
          ¬ AsksLate env (captured command intent result (applyInputMutations command session))

def Settles (env : Env) (line : List UInt8) (session : Session) : Prop :=
  match Utf8.decode line with
  | none => False
  | some string =>
      let session := session.log (.input string)
      match chainSegments string with
      | some segments => ChainSettles env true segments session
      | none => LineSettles env string session

/-! ## Routes of the ladder -/

section Dispatched

variable {renders : Renderer}

theorem route_fast (fast : tryFastpath env command session = some next) :
    route env renders command session = .fast := by
  simp [route, fast]

theorem route_rendered {result : ResponderResult}
    (slow : tryFastpath env command session = none)
    (rendered : renders (applyInputMutations command session) = some result) :
    route env renders command session = .rendered := by
  simp [route, slow, rendered]

theorem route_program {program : Program} (slow : tryFastpath env command session = none)
    (deferred : renders (applyInputMutations command session) = none)
    (connected : session.connected = true) (enabled : env.config.interactivePrograms = true)
    (started : programOf env command (applyInputMutations command session) = some program) :
    route env renders command session = .program := by
  have connected : (applyInputMutations command session).connected = true := connected
  simp [route, slow, deferred, tryInteractive, connected, enabled, started]

theorem route_download {intent : DownloadIntent}
    (slow : tryFastpath env command session = none)
    (deferred : renders (applyInputMutations command session) = none)
    (lined : tryInteractive env command (applyInputMutations command session) = none)
    (capture : env.config.captureDownloads = true)
    (parsed : parseDownloadCommand env.urlparse command = .ok (some intent)) :
    route env renders command session = .download intent := by
  simp [route, slow, deferred, lined, capture, parsed]

theorem route_badUrl {raised : ValueError} (slow : tryFastpath env command session = none)
    (deferred : renders (applyInputMutations command session) = none)
    (lined : tryInteractive env command (applyInputMutations command session) = none)
    (capture : env.config.captureDownloads = true)
    (parsed : parseDownloadCommand env.urlparse command = .error raised) :
    route env renders command session = .badUrl := by
  simp [route, slow, deferred, lined, capture, parsed]

theorem route_model (slow : tryFastpath env command session = none)
    (deferred : renders (applyInputMutations command session) = none)
    (lined : tryInteractive env command (applyInputMutations command session) = none)
    (parsed : env.config.captureDownloads = true →
      parseDownloadCommand env.urlparse command = .ok none) :
    route env renders command session = .model := by
  simp only [route, slow, deferred, lined, Option.isSome_none, Bool.false_eq_true, if_false]
  split
  · rename_i capture
    simp [parsed capture]
  · rfl

end Dispatched

/-! ## Segments -/

def Task.owesPrompt : Task → Bool
  | .refresh => false
  | .prompt _ _ => true
  | .fetch _ _ => true
  | .model _ => true

def owing (added : List (Nat × Task)) : List (Nat × Task) := added.filter (·.2.owesPrompt)

theorem owing_onlyRefresh {added : List (Nat × Task)} (refresh : OnlyRefresh added) :
    owing added = [] :=
  List.filter_eq_nil_iff.mpr fun entry member => by simp [refresh entry member, Task.owesPrompt]

/-- What a segment leaves behind: nothing that leads to a prompt, something that
does, or an exception. It draws no prompt of its own. -/
inductive SegmentEffect (env : Env) (command : Str) (session : Session)
    (outcome : Session × Stage) : Prop
  | settled (outputs : List Output) (added : List (Nat × Task)) (live : List Nat)
      (plain : Plain outputs) (emits : Emits env session outcome.1 outputs added live)
      (settles : SegmentSettles env command session) (returned : outcome.2 ≠ .raised)
      (program : outcome.1.program = session.program) (nothing : owing added = [])
      (quiet : Late env → live = [])
  | marked (outputs : List Output) (added : List (Nat × Task)) (live : List Nat)
      (plain : Plain outputs) (emits : Emits env session outcome.1 outputs added live)
      (unsettled : ¬ SegmentSettles env command session)
      (program : session.program.isSome → outcome.1.program.isSome)
      (mark : outcome.1.program.isSome ∨ owing added ≠ [] ∨ Late env ∧ live ≠ [])
  | raised (outputs : List Output) (added : List (Nat × Task)) (live : List Nat)
      (plain : Plain outputs) (emits : Emits env session outcome.1 outputs added live)
      (unsettled : ¬ SegmentSettles env command session) (raised : outcome.2 = .raised)

theorem SegmentEffect.of_prompted {stage : Stage} (prompted : Prompted env session next)
    (suppressed : session.suppressPrompt = true)
    (settles : SegmentSettles env command session) (returned : stage ≠ .raised)
    (program : next.program = session.program) :
    SegmentEffect env command session (next, stage) := by
  cases prompted with
  | now outputs plain text emits =>
      rw [Session.promptOf_suppressed suppressed, List.append_nil] at emits
      exact .settled outputs [] [] plain emits settles returned program rfl fun _ => rfl
  | delayed outputs plain number leastMs mostMs unsuppressed emits =>
      rw [suppressed] at unsuppressed
      cases unsuppressed

theorem liveNumbers_ne_nil (late : Late env) (session : Session) :
    liveNumbers env session ≠ [] := by
  simp [liveNumbers, late.2]

theorem plain_loseConnection : Plain [.loseConnection] := by simp [Plain, Output.isPrompt]

theorem program_beginFetch (intent : DownloadIntent) :
    (beginFetch env command intent session).1.program = session.program :=
  congrArg ShellView.program (shell_beginFetch env command session intent)

theorem segmentEffect_beginFetch {intent : DownloadIntent}
    (routed : route env (localRenderer env command) command session = .download intent)
    (suppressed : session.suppressPrompt = true) (connected : session.connected = true) :
    SegmentEffect env command session
      (beginFetch env command intent (applyInputMutations command session)) := by
  have program : (beginFetch env command intent
      (applyInputMutations command session)).1.program = session.program := program_beginFetch intent
  have console := console_applyInputMutations command session
  have silent (asker : Session) (same : asker.suppressPrompt = session.suppressPrompt) :
      asker.promptNow = [] := Session.promptOf_suppressed (same.trans suppressed) _
  have effect := beginFetch_effect env command intent (applyInputMutations command session)
  generalize beginFetch env command intent (applyInputMutations command session) = outcome
    at effect program
  cases effect with
  | raised next rejected emits =>
      refine .raised [] [] [] plain_nil (emits.after console) ?_ rfl
      simp [SegmentSettles, routed, rejected]
  | waiting next started emits uncounted =>
      refine .marked [] _ [] plain_nil (emits.after console) ?_ (program ▸ id) (.inr (.inl ?_))
      · simp [SegmentSettles, routed, started]
      · simp [owing, Task.owesPrompt]
  | failed next error started emits =>
      rw [silent (applyInputMutations command session) rfl] at emits
      refine .settled [] [] [] plain_nil (emits.after console) ?_ (by simp) program rfl
        fun _ => rfl
      simp [SegmentSettles, routed, started]
  | fired next result started turned =>
      have asker := foreground_captured command intent result
        (applyInputMutations command session)
      have before := (console_captured command intent result _).trans console
      have still := silent _ (congrArg (·.1) asker)
      have settles : SegmentSettles env command session ↔
          refusesTurn env (captured command intent result
            (applyInputMutations command session)) = true ∨
          ¬ Late env ∧ awaitsAnswer env command (some (renderObservation intent result))
            (captured command intent result (applyInputMutations command session)) = false := by
        simp only [SegmentSettles, routed, started]
      cases turned with
      | refused refused emits =>
          rw [still, List.append_nil] at emits
          exact .settled _ [] [] ((plain_text _).visible _) (emits.after before)
            (settles.mpr (.inl refused)) (by simp) program rfl fun _ => rfl
      | gone asked disconnected emits =>
          have still : _ = session.connected := congrArg (·.2.1) asker
          cases disconnected.symm.trans (still.trans connected)
      | waiting turn asked connected waits emits =>
          refine .marked [] _ _ plain_nil (emits.after before) ?_ (program ▸ id) (.inr (.inl ?_))
          · rw [settles, asked, waits]
            simp
          · simp [owing, Task.owesPrompt]
      | answered outputs plain asked connected fired emits =>
          rw [still, List.append_nil] at emits
          by_cases late : Late env
          · refine .marked outputs [] _ plain (emits.after before) ?_ (program ▸ id)
              (.inr (.inr ⟨late, liveNumbers_ne_nil late _⟩))
            rw [settles, asked]
            simp [late]
          · exact .settled outputs [] _ plain (emits.after before)
              (settles.mpr (.inr ⟨late, fired⟩)) (by simp) program rfl fun on => absurd on late

theorem segment_effect {outcome : Session × Stage}
    (dispatched : Dispatched env (localRenderer env command) command session outcome)
    (suppressed : session.suppressPrompt = true) (connected : session.connected = true) :
    SegmentEffect env command session outcome := by
  have console := console_applyInputMutations command session
  cases dispatched with
  | fast next fast =>
      have settles : SegmentSettles env command session := by
        simp only [SegmentSettles, route_fast fast]
      have program : next.program = session.program :=
        congrArg (·.2.2) (foreground_tryFastpath fast)
      rcases tryFastpath_effect fast with ⟨closing, emits⟩ | ⟨stays, prompted⟩
      · exact .settled _ [] [] (plain_loseConnection.visible session) emits settles (by simp)
          program rfl fun _ => rfl
      · exact .of_prompted prompted suppressed settles (by simp) program
  | rendered result slow rendered =>
      have settles : SegmentSettles env command session := by
        simp only [SegmentSettles, route_rendered slow rendered]
      have program : (emitDeterministic env command result
          (applyInputMutations command session)).program = session.program :=
        congrArg ShellView.program (shell_emitDeterministic ..)
      exact .of_prompted ((emitDeterministic_effect result).after console rfl) suppressed settles
        (by simp) program
  | program program slow deferred connected enabled started =>
      have unsettled : ¬ SegmentSettles env command session := by
        simp only [SegmentSettles, route_program slow deferred connected enabled started,
          not_false_eq_true]
      have running : (startProgram env program (applyInputMutations command session)).program.isSome
          = true := by
        have shell := shell_startProgram env (applyInputMutations command session) program
        rw [show (startProgram env program (applyInputMutations command session)).program = _ from
          congrArg ShellView.program shell]
        rfl
      rcases startProgram_effect env program (applyInputMutations command session) with
        ⟨outputs, added, plain, refresh, emits⟩
      exact .marked outputs added [] plain (emits.after console) unsettled (fun _ => running)
        (.inl running)
  | download intent slow deferred lined capture parsed =>
      exact segmentEffect_beginFetch (route_download slow deferred lined capture parsed)
        suppressed connected
  | badUrl raised slow deferred lined capture parsed =>
      refine .raised [] [] [] plain_nil (.of_console console) ?_ rfl
      simp only [SegmentSettles, route_badUrl slow deferred lined capture parsed,
        not_false_eq_true]
  | declined slow deferred lined parsed =>
      refine .settled [] [] [] plain_nil (.of_console console) ?_ (by simp) rfl rfl fun _ => rfl
      simp only [SegmentSettles, route_model slow deferred lined parsed]

end Protocol

end LlmHoneypot
