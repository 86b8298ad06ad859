import LlmHoneypot.Protocol.ExecRequests
import LlmHoneypot.Protocol.OnePrompt

/-! # Typed bytes

What becomes of the bytes of a line, and of the bytes of an exec command: whether they are
handled without an exception, logged as input, and lead back to a prompt or to an exit status. -/

namespace LlmHoneypot

namespace Protocol

open CmdChain Downloader Interactive Responder

variable {env : Env} {command : Str} {session next : Session} {base outputs : List Output}
  {first : Nat}

/-! ## Logged input -/

def LogEvent.input? : LogEvent → Option Str
  | .input text => some text
  | _ => none

def Session.inputs (session : Session) : List Str := session.events.filterMap LogEvent.input?

section Inputs

variable (env session)

theorem inputs_log (event : LogEvent) :
    (session.log event).inputs = session.inputs ++ event.input?.toList := by
  rw [Session.inputs, Session.log, List.filterMap_append]
  congr 1

@[simp] theorem inputs_log_other {event : LogEvent} (other : event.input? = none) :
    (session.log event).inputs = session.inputs := by
  rw [inputs_log, other]
  exact List.append_nil _

@[simp] theorem inputs_write (text : Str) : (session.write text).inputs = session.inputs := by
  unfold Session.write
  split <;> rfl

@[simp] theorem inputs_send (outputs : List Output) :
    (session.send outputs).inputs = session.inputs := by
  unfold Session.send
  split <;> rfl

@[simp] theorem inputs_showPrompt (jitterMin jitterMax : Int) :
    (session.showPrompt jitterMin jitterMax).inputs = session.inputs := by
  simp only [Session.showPrompt]
  split
  · rfl
  · split
    · rfl
    · unfold Session.writePromptSafe
      split <;> rfl

@[simp] theorem inputs_recordClaim (answered command answer : Str) (source : ClaimSource) :
    (recordClaim env answered command answer source session).inputs = session.inputs := by
  unfold recordClaim
  split
  · rfl
  · split
    · rfl
    · split <;> rfl

@[simp] theorem inputs_applyInputMutations (command : Str) :
    (applyInputMutations command session).inputs = session.inputs := rfl

theorem inputs_showAnswer (streamed : Bool) (response : Str) :
    (showAnswer env streamed response session).inputs = session.inputs := by
  unfold showAnswer
  split
  · rfl
  · rcases cleanResponse env response with ⟨clean, leaked⟩
    refine (inputs_write _ _).trans ?_
    cases leaked with
    | false => rfl
    | true => exact inputs_log_other session rfl

theorem inputs_recordPending (answered : Str) :
    (recordPending env answered session).inputs = session.inputs := by
  unfold recordPending
  split
  · rfl
  · exact inputs_recordClaim ..

theorem inputs_handleLlmResponse (turn : ModelTurn) (answer : Answer) :
    (handleLlmResponse env turn answer session).inputs = session.inputs := by
  have used : (session.recordUsage answer.usage).inputs = session.inputs := by
    cases answer.usage <;> rfl
  have logged : ((session.recordUsage answer.usage).log (.response answer.response)).inputs =
      session.inputs := (inputs_log_other _ rfl).trans used
  simp only [handleLlmResponse]
  split
  · exact (inputs_recordPending ..).trans
      ((inputs_showPrompt ..).trans ((inputs_showAnswer ..).trans logged))
  · exact logged

theorem inputs_handleLlmError (error : Str) :
    (handleLlmError error session).inputs = session.inputs := by
  have logged : (session.log (.error error)).inputs = session.inputs := inputs_log_other _ rfl
  simp only [handleLlmError]
  split
  · exact (inputs_showPrompt ..).trans logged
  · exact logged

theorem inputs_refuseTurn : (refuseTurn session).inputs = session.inputs :=
  (inputs_showPrompt ..).trans (inputs_write ..)

theorem inputs_startTurn (command : Str) :
    (startTurn env command session).inputs = session.inputs := by
  have opened : ((session.log (.prompt command session.cwd)).openStream env).inputs =
      session.inputs := inputs_log_other session rfl
  simp only [startTurn]
  split
  · exact opened
  · exact (inputs_handleLlmResponse ..).trans opened
  · exact (inputs_handleLlmError ..).trans opened

theorem inputs_processCommandWithLlm (command : Str) (observation : Option Str) :
    (processCommandWithLlm env command observation session).inputs = session.inputs := by
  rcases processCommandWithLlm_turned env command observation session with
    ⟨-, isNext⟩ | ⟨-, isNext⟩ | ⟨-, -, isNext⟩ | ⟨-, -, isNext⟩
  · rw [isNext, inputs_refuseTurn]
    unfold Session.logSessionBudget
    split
    · rfl
    · exact inputs_log_other session.counted rfl
  · rw [isNext, inputs_refuseTurn]
    unfold Session.logTokenBudget
    split
    · rfl
    · exact inputs_log_other session.counted rfl
  · rw [isNext]
    exact inputs_startTurn ..
  · rw [isNext]
    exact inputs_handleLlmError ..

end Inputs

theorem inputs_tryFastpath (fast : tryFastpath env command session = some next) :
    next.inputs = session.inputs := by
  simp only [tryFastpath] at fast
  split at fast
  · cases fast
    exact inputs_showPrompt ..
  · split at fast
    · cases fast
    · rcases Option.map_eq_some_iff.mp fast with ⟨verb, -, isNext⟩
      rw [← isNext]
      cases verb with
      | leave =>
          simp only [runFastVerb]
          split
          · exact inputs_send ..
          · exact inputs_showPrompt ..
      | clear => exact (inputs_showPrompt ..).trans (inputs_send ..)
      | pwd => exact (inputs_showPrompt ..).trans (inputs_write ..)
      | cd => exact inputs_showPrompt ..

theorem inputs_emitDeterministic (result : ResponderResult) :
    (emitDeterministic env command result session).inputs = session.inputs := by
  have logged : (session.log (.deterministic command session.cwd)).inputs = session.inputs :=
    inputs_log_other _ rfl
  simp only [emitDeterministic]
  refine (inputs_recordClaim ..).trans ((inputs_showPrompt ..).trans ?_)
  split
  · exact logged
  · exact (inputs_write ..).trans logged

theorem inputs_startProgram (program : Program) :
    (startProgram env program session).inputs = session.inputs := by
  unfold startProgram scheduleProgramRefresh
  split
  · split
    · exact inputs_write ..
    · exact inputs_write ..
  · exact inputs_write ..

theorem inputs_beginFetch (intent : DownloadIntent) :
    (beginFetch env command intent session).1.inputs = session.inputs := by
  have logged : (fetching command intent session).inputs = session.inputs :=
    inputs_log_other session rfl
  simp only [beginFetch]
  split
  · exact logged
  · split
    · exact logged
    · refine (inputs_processCommandWithLlm ..).trans ?_
      simp only [addCaptured]
      split
      · exact logged
      · exact logged
    · exact (inputs_handleLlmError ..).trans logged

theorem inputs_dispatched {renders : Renderer} {outcome : Session × Stage}
    (dispatched : Dispatched env renders command session outcome) :
    outcome.1.inputs = session.inputs := by
  cases dispatched with
  | fast next fast => exact inputs_tryFastpath fast
  | rendered result slow rendered => exact inputs_emitDeterministic ..
  | program program slow deferred connected enabled started => exact inputs_startProgram ..
  | download intent slow deferred lined capture parsed => exact inputs_beginFetch ..
  | badUrl raised slow deferred lined capture parsed => rfl
  | declined slow deferred lined parsed => rfl

theorem inputs_dispatchOne (env : Env) (command : Str) (session : Session) :
    (dispatchOne env command session).1.inputs = session.inputs := by
  rcases dispatchOne_dispatched env command session with ⟨outcome, dispatched, isOutcome⟩
  have same := inputs_dispatched dispatched
  rcases outcome with ⟨next, stage⟩
  rw [isOutcome]
  cases stage with
  | raised => exact same
  | handled succeeded => exact same
  | declined => exact (inputs_processCommandWithLlm ..).trans same

theorem inputs_dispatchSegment (env : Env) (command : Str) (session : Session) :
    (dispatchSegment env command session).1.inputs = session.inputs := by
  have same := inputs_dispatched
    (dispatchLocal_dispatched env command (session.setSuppressPrompt true))
  exact same

theorem inputs_dispatchChain (env : Env) (segments : List Segment) (session : Session) :
    (dispatchChain env segments session).1.inputs = session.inputs := by
  have loop : (chainLoop env true segments session).session.inputs = session.inputs :=
    chainLoop_relation (fun session next => next.inputs = session.inputs) (fun _ => rfl)
      (fun before after => after.trans before)
      (fun segment _ session => inputs_dispatchSegment env segment.command session) true session
  unfold dispatchChain finishChain
  split
  · exact (inputs_showPrompt ..).trans loop
  · exact (inputs_processCommandWithLlm ..).trans loop
  · exact loop

theorem inputs_dispatchLine (env : Env) (string : Str) (session : Session) :
    (dispatchLine env string session).1.inputs = session.inputs ++ [string] := by
  have logged : (session.log (.input string)).inputs = session.inputs ++ [string] :=
    inputs_log ..
  simp only [dispatchLine]
  split
  · exact (inputs_dispatchChain ..).trans logged
  · exact (inputs_dispatchOne ..).trans logged

/-! ## Commands that raise -/

def Rejects (env : Env) (renders : Renderer) (command : Str) (session : Session) : Prop :=
  match route env renders command session with
  | .badUrl => True
  | .download intent => ∃ raised, fetch env.urlparse intent = .error raised
  | .fast => False
  | .rendered => False
  | .program => False
  | .model => False

def ChainAccepts (env : Env) : (succeeded : Bool) → List Segment → Session → Prop
  | _, [], _ => True
  | succeeded, segment :: rest, session =>
      if shouldRun segment.operator succeeded then
        ¬ Rejects env (localRenderer env segment.command) segment.command
            (session.setSuppressPrompt true) ∧
          match dispatchSegment env segment.command session with
          | (_, .raised) => True
          | (_, .declined) => True
          | (next, .handled succeeded) => ChainAccepts env succeeded rest next
      else ChainAccepts env true rest session

/-- The line is text, and the URL of no download of it is refused. -/
def Accepts (env : Env) (line : List UInt8) (session : Session) : Prop :=
  match Utf8.decode line with
  | none => False
  | some string =>
      let session := session.log (.input string)
      match chainSegments string with
      | some segments => ChainAccepts env true segments session
      | none => ¬ Rejects env (lineRenderer env string) string session

theorem beginFetch_raised {intent : DownloadIntent} :
    (beginFetch env command intent session).2 = .raised ↔
      ∃ raised, fetch env.urlparse intent = .error raised := by
  rcases beginFetch_stage env command intent session with ⟨raised, rejected⟩ | handled
  · exact iff_of_true raised rejected
  · refine iff_of_false (by rw [handled]; exact Stage.noConfusion) fun rejected => ?_
    rcases rejected with ⟨raised, isError⟩
    simp only [beginFetch, isError] at handled
    cases handled

theorem raised_iff {renders : Renderer} {outcome : Session × Stage}
    (dispatched : Dispatched env renders command session outcome) :
    outcome.2 = .raised ↔ Rejects env renders command session := by
  unfold Rejects
  cases dispatched with
  | fast next fast =>
      rw [route_fast fast]
      exact iff_of_false Stage.noConfusion id
  | rendered result slow rendered =>
      rw [route_rendered slow rendered]
      exact iff_of_false Stage.noConfusion id
  | program program slow deferred connected enabled started =>
      rw [route_program slow deferred connected enabled started]
      exact iff_of_false Stage.noConfusion id
  | download intent slow deferred lined capture parsed =>
      rw [route_download slow deferred lined capture parsed]
      exact beginFetch_raised
  | badUrl raised slow deferred lined capture parsed =>
      rw [route_badUrl slow deferred lined capture parsed]
      exact iff_of_true rfl trivial
  | declined slow deferred lined parsed =>
      rw [route_model slow deferred lined parsed]
      exact iff_of_false Stage.noConfusion id

theorem chainLoop_raised (succeeded : Bool) (segments : List Segment) (session : Session) :
    (chainLoop env succeeded segments session).ending ≠ .raised ↔
      ChainAccepts env succeeded segments session := by
  induction segments generalizing succeeded session with
  | nil => exact iff_of_true ChainEnd.noConfusion trivial
  | cons segment rest induction =>
      have raised := raised_iff
        (dispatchLocal_dispatched env segment.command (session.setSuppressPrompt true))
      rw [chainLoop, ChainAccepts]
      split
      · have same : (dispatchSegment env segment.command session).2 =
            (dispatchLocal env segment.command (session.setSuppressPrompt true)).2 := rfl
        rw [← raised, ← same]
        generalize dispatchSegment env segment.command session = outcome
        rcases outcome with ⟨next, stage⟩
        cases stage with
        | raised => exact iff_of_false (fun ended => ended rfl) fun accepts => accepts.1 rfl
        | declined => exact iff_of_true ChainEnd.noConfusion ⟨Stage.noConfusion, trivial⟩
        | handled ok =>
            refine (induction ok next).trans ⟨fun accepts => ⟨Stage.noConfusion, accepts⟩, ?_⟩
            exact fun both => both.2
      · exact induction true session

theorem lineReceived_returned (line : List UInt8) (session : Session) :
    (lineReceived env line session).2 = .returned ↔ Accepts env line session := by
  unfold lineReceived Accepts
  cases decoded : Utf8.decode line with
  | none => exact iff_of_false Ending.noConfusion id
  | some string =>
      simp only [dispatchLine]
      cases chainSegments string with
      | some segments =>
          simp only
          rw [← chainLoop_raised, dispatchChain, finishChain]
          cases (chainLoop env true segments (session.log (.input string))).ending with
          | finished => exact iff_of_true rfl ChainEnd.noConfusion
          | handedOver remainder => exact iff_of_true rfl ChainEnd.noConfusion
          | raised => exact iff_of_false Ending.noConfusion fun ended => ended rfl
      | none =>
          simp only
          rcases dispatchOne_dispatched env string (session.log (.input string)) with
            ⟨outcome, dispatched, isOutcome⟩
          rw [← raised_iff dispatched, isOutcome, finishOne]
          cases outcome.2 with
          | raised => exact iff_of_false Ending.noConfusion fun returned => returned rfl
          | handled ok => exact iff_of_true rfl Stage.noConfusion
          | declined => exact iff_of_true rfl Stage.noConfusion

/-! ## Back to a prompt -/

/-- Since the screen was `base` a prompt has been drawn, or `exit` has closed the connection. -/
def Drawn (base : List Output) (session : Session) : Prop :=
  ∃ outputs, session.screen = base ++ outputs ∧
    ∃ output ∈ outputs, output.isPrompt = true ∨ output = .loseConnection

structure Attended (env : Env) (base : List Output) (first : Nat) (session : Session) : Prop
    extends Ongoing env first session where
  grown : base <+: session.screen
  awaited : Drawn base session ∨ session.program.isSome ∨ owed first session ≠ []

theorem Drawn.mono (drawn : Drawn base session) (grows : session.screen <+: next.screen) :
    Drawn base next := by
  rcases drawn with ⟨outputs, screen, output, member, isPrompt⟩
  rcases grows with ⟨more, isScreen⟩
  refine ⟨outputs ++ more, ?_, output, List.mem_append_left more member, isPrompt⟩
  rw [← isScreen, screen, List.append_assoc]

theorem Drawn.of_mem {output : Output} (grown : base <+: session.screen)
    (screen : next.screen = session.screen ++ outputs) (member : output ∈ outputs)
    (isPrompt : output.isPrompt = true ∨ output = .loseConnection) : Drawn base next := by
  rcases grown with ⟨earlier, isScreen⟩
  refine ⟨earlier ++ outputs, ?_, output, List.mem_append_right earlier member, isPrompt⟩
  rw [screen, ← isScreen, List.append_assoc]

theorem promptOf_shown (unsuppressed : session.suppressPrompt = false)
    (connected : session.connected = true) (text : Str) :
    session.promptOf text = [.prompt text session.program.isSome] := by
  simp [Session.promptOf, Session.visible, unsuppressed, connected]

theorem Drawn.of_promptOf {added : List (Nat × Task)} {live : List Nat} {text : Str}
    (ongoing : Ongoing env first session) (grown : base <+: session.screen)
    (emits : Emits env session next (outputs ++ session.promptOf text) added live) :
    Drawn base next := by
  rw [promptOf_shown ongoing.tidy.unsuppressed ongoing.connected] at emits
  exact .of_mem grown emits.screen
    (List.mem_append_right outputs (List.mem_singleton_self _)) (.inl rfl)

theorem owed_ne_nil {number : Nat} {task : Task} {live : List Nat}
    (early : first ≤ session.agenda.next)
    (emits : Emits env session next outputs [(number, task)] live)
    (owes : task.owesPrompt = true) : owed first next ≠ [] := by
  have one : owing [(number, task)] = [(number, task)] := by simp [owing, owes]
  rw [owed_emits emits early, one]
  exact List.append_ne_nil_of_right_ne_nil _ (List.cons_ne_nil _ _)

theorem drawn_of_turn {observation : Option Str} (ongoing : Ongoing env first session)
    (grown : base <+: session.screen)
    (turned : TurnEffect env command observation session next) :
    Drawn base next ∨ owed first next ≠ [] := by
  cases turned with
  | refused refused emits => exact .inl (.of_promptOf ongoing grown emits)
  | gone asked disconnected emits => cases disconnected.symm.trans ongoing.connected
  | waiting turn asked connected waits emits => exact .inr (owed_ne_nil ongoing.early emits rfl)
  | answered outputs plain asked connected fired emits =>
      exact .inl (.of_promptOf ongoing grown emits)

theorem drawn_of_prompted (ongoing : Ongoing env first session) (grown : base <+: session.screen)
    (prompted : Prompted env session next) : Drawn base next ∨ owed first next ≠ [] := by
  cases prompted with
  | now outputs plain text emits => exact .inl (.of_promptOf ongoing grown emits)
  | delayed outputs plain number leastMs mostMs unsuppressed emits =>
      exact .inr (owed_ne_nil ongoing.early emits rfl)

theorem Ongoing.of_console (ongoing : Ongoing env first session)
    (console : next.console = session.console) (foreground : next.foreground = session.foreground) :
    Ongoing env first next :=
  ongoing.emits (.of_console console) ((congrArg (·.1) foreground).trans ongoing.tidy.unsuppressed)
    ((congrArg (·.2.1) foreground).trans ongoing.connected)

theorem drawn_of_fetch {intent : DownloadIntent} {outcome : Session × Stage}
    (ongoing : Ongoing env first session) (grown : base <+: session.screen)
    (effect : FetchEffect env command intent session outcome) (returned : outcome.2 ≠ .raised) :
    Drawn base outcome.1 ∨ owed first outcome.1 ≠ [] := by
  cases effect with
  | raised next rejected emits => exact absurd rfl returned
  | waiting next started emits uncounted => exact .inr (owed_ne_nil ongoing.early emits rfl)
  | failed next error started emits =>
      exact .inl (@Drawn.of_promptOf env session next base [] first [] [] _ ongoing grown emits)
  | fired next result started turned =>
      have console := console_captured command intent result session
      have asker := ongoing.of_console console (foreground_captured command intent result session)
      have screen : (captured command intent result session).screen = session.screen :=
        congrArg ConsoleView.screen console
      exact drawn_of_turn asker (screen ▸ grown) turned

theorem awaited_dispatched {renders : Renderer} {outcome : Session × Stage}
    (ongoing : Ongoing env first session) (grown : base <+: session.screen)
    (dispatched : Dispatched env renders command session outcome)
    (returned : outcome.2 ≠ .raised) (taken : outcome.2 ≠ .declined) :
    Drawn base outcome.1 ∨ outcome.1.program.isSome ∨ owed first outcome.1 ≠ [] := by
  have mutated : Ongoing env first (applyInputMutations command session) :=
    ongoing.of_console (console_applyInputMutations ..) rfl
  cases dispatched with
  | fast next fast =>
      rcases tryFastpath_effect fast with ⟨-, emits⟩ | ⟨-, prompted⟩
      · have shown : session.visible [.loseConnection] = [.loseConnection] :=
          if_pos ongoing.connected
        rw [shown] at emits
        exact .inl (.of_mem grown emits.screen (List.mem_singleton_self _) (.inr rfl))
      · exact (drawn_of_prompted ongoing grown prompted).imp_right .inr
  | rendered result slow rendered =>
      exact (drawn_of_prompted mutated grown (emitDeterministic_effect result)).imp_right .inr
  | program program slow deferred connected enabled started =>
      have shell := shell_startProgram env (applyInputMutations command session) program
      have opened := congrArg ShellView.program shell
      exact .inr (.inl (by rw [show (startProgram env program _).program = _ from opened]; rfl))
  | download intent slow deferred lined capture parsed =>
      exact (drawn_of_fetch mutated grown (beginFetch_effect ..) returned).imp_right .inr
  | badUrl raised slow deferred lined capture parsed => exact absurd rfl returned
  | declined slow deferred lined parsed => exact absurd rfl taken

theorem session_of_declined {renders : Renderer} {outcome : Session × Stage}
    (dispatched : Dispatched env renders command session outcome)
    (declined : outcome.2 = .declined) : outcome.1 = applyInputMutations command session := by
  cases dispatched with
  | fast next fast => cases declined
  | rendered result slow rendered => cases declined
  | program program slow deferred connected enabled started => cases declined
  | download intent slow deferred lined capture parsed =>
      rcases beginFetch_stage env command intent (applyInputMutations command session) with
        ⟨raised, -⟩ | handled
      · cases raised.symm.trans declined
      · cases handled.symm.trans declined
  | badUrl raised slow deferred lined capture parsed => cases declined
  | declined slow deferred lined parsed => rfl

theorem awaited_dispatchOne (ongoing : Ongoing env first session) (grown : base <+: session.screen)
    (returned : (dispatchOne env command session).2 = .returned) :
    Drawn base (dispatchOne env command session).1 ∨
      (dispatchOne env command session).1.program.isSome ∨
      owed first (dispatchOne env command session).1 ≠ [] := by
  rcases dispatchOne_dispatched env command session with ⟨outcome, dispatched, isOutcome⟩
  rw [isOutcome] at returned ⊢
  rcases outcome with ⟨next, stage⟩
  cases stage with
  | raised => cases returned
  | handled ok =>
      exact awaited_dispatched ongoing grown dispatched Stage.noConfusion Stage.noConfusion
  | declined =>
      have mutated : Ongoing env first (applyInputMutations command session) :=
        ongoing.of_console (console_applyInputMutations ..) rfl
      have isMutated : next = applyInputMutations command session :=
        session_of_declined dispatched rfl
      subst isMutated
      exact (drawn_of_turn mutated grown (processCommandWithLlm_effect ..)).imp_right .inr

theorem awaited_dispatchChain {segments : List Segment}
    (running : Running env base first session)
    (returned : (dispatchChain env segments session).2 = .returned) :
    Drawn base (dispatchChain env segments session).1 ∨
      (dispatchChain env segments session).1.program.isSome ∨
      owed first (dispatchChain env segments session).1 ≠ [] := by
  have looped := running_chainLoop running true segments
  have grown : base <+: (chainLoop env true segments session).session.screen := by
    rcases looped.plain with ⟨outputs, -, screen⟩
    exact ⟨outputs, screen.symm⟩
  unfold dispatchChain finishChain at returned ⊢
  split at returned
  · exact .inl (@Drawn.of_promptOf _ _ _ _ [] _ [] [] _ looped.toOngoing grown (.showPrompt_now _))
  · rename_i remainder ended
    have mutated : Ongoing env first
        (applyInputMutations remainder (chainLoop env true segments session).session) :=
      looped.toOngoing.of_console (console_applyInputMutations ..) rfl
    exact (drawn_of_turn mutated grown (processCommandWithLlm_effect ..)).imp_right .inr
  · cases returned

theorem receive_returned {line : List UInt8}
    (returned : (lineReceived env line session).2 = .returned) :
    receive env line session = (lineReceived env line session).1 := by
  unfold receive
  generalize lineReceived env line session = outcome at returned
  rcases outcome with ⟨next, ending⟩
  cases returned
  rfl

theorem attended_receive {line : List UInt8} (tidy : Tidy env session)
    (connected : session.connected = true) (stopped : session.program = none)
    (returned : (lineReceived env line session).2 = .returned) :
    Attended env session.screen session.agenda.next (receive env line session) := by
  rcases orderly_lineReceived env line session with ⟨⟨outputs, added, live, emits⟩, still, off⟩
  have same := receive_returned returned
  have start := (running_start tidy connected stopped).1
  have ongoing : Ongoing env session.agenda.next (lineReceived env line session).1 :=
    start.toOngoing.emits emits (off tidy.unsuppressed) (still.trans connected)
  rw [same]
  refine ⟨ongoing, ⟨outputs, emits.screen.symm⟩, ?_⟩
  unfold lineReceived at returned ⊢
  cases decoded : Utf8.decode line with
  | none =>
      rw [decoded] at returned
      cases returned
  | some string =>
      have logged : Emits env session (session.log (.input string)) [] [] [] :=
        .of_console (Session.console_log ..)
      have running := start.emits logged plain_nil tidy.unsuppressed connected
      simp only [decoded, dispatchLine] at returned ⊢
      cases chained : chainSegments string with
      | some segments =>
          rw [chained] at returned
          exact awaited_dispatchChain running returned
      | none =>
          rw [chained] at returned
          exact awaited_dispatchOne running.toOngoing (List.prefix_refl _) returned

theorem Progress.grows (progress : Progress env session next) :
    session.screen <+: next.screen ∧ session.agenda.next ≤ next.agenda.next := by
  induction progress with
  | orderly orderly =>
      rcases orderly.1 with ⟨outputs, added, live, emits⟩
      exact ⟨⟨outputs, emits.screen.symm⟩, emits.agenda.next⟩
  | finish session number => exact ⟨List.prefix_refl _, Nat.le_refl _⟩
  | cancelRefresh session =>
      unfold Session.cancelRefresh
      split
      · exact ⟨List.prefix_refl _, Nat.le_refl _⟩
      · exact ⟨List.prefix_refl _, Nat.le_refl _⟩
  | drop session program connected => exact ⟨List.prefix_refl _, Nat.le_refl _⟩
  | trans first second inductionFirst inductionSecond =>
      exact ⟨inductionFirst.1.trans inductionSecond.1, Nat.le_trans inductionFirst.2
        inductionSecond.2⟩

theorem awaited_emits {added : List (Nat × Task)} {live : List Nat}
    (early : first ≤ session.agenda.next) (emits : Emits env session next outputs added live)
    (program : next.program = session.program)
    (awaited : session.program.isSome ∨ owed first session ≠ []) :
    next.program.isSome ∨ owed first next ≠ [] := by
  rw [program, owed_emits emits early]
  exact awaited.imp_right (List.append_ne_nil_of_left_ne_nil · _)

theorem drawn_of_exit (tidy : Tidy env session) (connected : session.connected = true)
    (grown : base <+: session.screen) : Drawn base (exitProgram session) := by
  let closed : Session := { session.cancelRefresh with program := none }
  have shell := session.shell_cancelRefresh
  have grownClosed : base <+: closed.screen :=
    grown.trans (Progress.grows (@Progress.cancelRefresh env session)).1
  have ongoing : Ongoing env 0 closed :=
    { tidy := tidy.cancelRefresh.drop none session.cancelRefresh.connected
      connected := (congrArg ShellView.connected shell).trans connected
      early := Nat.zero_le _ }
  have emits : Emits env closed (exitProgram session) ([] ++ closed.promptOf closed.promptText)
      [] [] := .showPrompt_now closed
  exact .of_promptOf ongoing grownClosed emits

theorem awaited_step {event : Event} (attended : Attended env base first session)
    (open_ : session.program.isSome ∨ owed first session ≠ [])
    (stepped : step env session event = some next) (still : next.connected = true) :
    Drawn base next ∨ next.program.isSome ∨ owed first next ≠ [] := by
  have taken (number : Nat) : Ongoing env first (session.finish number) :=
    attended.toOngoing.finish number
  have failed (number : Nat) (error : Str) :
      Drawn base (handleLlmError error (session.finish number)) :=
    @Drawn.of_promptOf env _ _ base [] first [] [] _ (taken number) attended.grown
      (.handleLlmError error _)
  cases stepped_of_step stepped with
  | line line connected stopped =>
      have owes : owed first session ≠ [] := by
        refine open_.resolve_left fun isOpen => ?_
        rw [stopped] at isOpen
        cases isOpen
      rcases orderly_lineReceived env line session with ⟨⟨outputs, added, live, emits⟩, -, -⟩
      unfold receive at still ⊢
      generalize lineReceived env line session = outcome at still emits ⊢
      rcases outcome with ⟨after, ending⟩
      cases ending with
      | returned =>
          right
          right
          rw [show afterLine (after, .returned) = after from rfl, owed_emits emits attended.early]
          exact List.append_ne_nil_of_left_ne_nil owes _
      | raised => cases still
  | key data active =>
      rcases keystrokeReceived_effect env active data session with
        ⟨shown, outputs, program, plain, emits, foreground, stays | exits⟩
      · rw [stays]
        have isProgram : shown.program = some program := congrArg (·.2.2) foreground
        exact .inr (.inl (by rw [isProgram]; rfl))
      · rw [exits]
        have after := attended.toOngoing.emits emits
          ((congrArg (·.1) foreground).trans attended.tidy.unsuppressed)
          ((congrArg (·.2.1) foreground).trans attended.connected)
        have grown : base <+: shown.screen :=
          attended.grown.trans ⟨outputs, emits.screen.symm⟩
        exact .inl (drawn_of_exit after.tidy after.connected grown)
  | prompt task =>
      have shown : (session.finish task).visible
          [.prompt (session.finish task).promptText (session.finish task).program.isSome] =
          [.prompt (session.finish task).promptText (session.finish task).program.isSome] :=
        if_pos attended.connected
      have emits := @Emits.writePromptSafe env (session.finish task)
      rw [shown] at emits
      left
      exact @Drawn.of_mem (session.finish task) _ base _ _ attended.grown emits.screen
        (List.mem_singleton_self _) (.inl rfl)
  | refresh task listed =>
      have others (other : Task) (member : (task, other) ∈ session.agenda.entries) :
          other.owesPrompt = false := by
        rw [session.agenda.unique member (Agenda.find?_eq_some.mp listed)]
        rfl
      rcases doProgramRefresh_effect env (session.finish task) with
        ⟨outputs, added, -, -, -, emits⟩
      have program := congrArg ShellView.program
        (shell_doProgramRefresh env (session.finish task))
      refine .inr (awaited_emits (taken task).early emits program ?_)
      rw [owed_finish_other others]
      exact open_
  | fetched task command intent result =>
      have console := @console_addCaptured (session.finish task) intent result
      have asker := (taken task).of_console console
        (Session.foreground_of_shell (shell_addCaptured _ intent result))
      have screen : (addCaptured intent result (session.finish task)).screen = session.screen :=
        congrArg ConsoleView.screen console
      exact (drawn_of_turn asker (screen ▸ attended.grown)
        (processCommandWithLlm_effect ..)).imp_right .inr
  | unfetched => exact .inl (failed ..)
  | chunk task text =>
      exact .inr (awaited_emits attended.early (@Emits.onStreamChunk env text session)
        (congrArg ShellView.program (shell_onStreamChunk text session)) open_)
  | answered task =>
      exact .inl (.of_promptOf (taken task) attended.grown (.handleLlmResponse ..))
  | failed => exact .inl (failed ..)
  | connectionLost => cases still
  | elapsed => exact .inr open_

theorem Attended.step {event : Event} (attended : Attended env base first session)
    (stepped : step env session event = some next) (still : next.connected = true) :
    Attended env base first next := by
  have progress := Progress.step stepped
  have grows := progress.grows
  refine ⟨⟨attended.tidy.progress progress, still, Nat.le_trans attended.early grows.2⟩,
    attended.grown.trans grows.1, ?_⟩
  rcases attended.awaited with drawn | open_
  · exact .inl (drawn.mono grows.1)
  · exact awaited_step attended open_ stepped still

theorem connected_of_step {event : Event} (stepped : step env session event = some next)
    (still : next.connected = true) : session.connected = true := by
  have same (equal : next.shell = session.shell) : session.connected = true :=
    (congrArg ShellView.connected equal).symm.trans still
  cases stepped_of_step stepped with
  | line line connected => exact connected
  | key data active =>
      rcases shell_keystrokeReceived env active data session with ⟨program, shell⟩
      exact (congrArg ShellView.connected shell).symm.trans still
  | prompt => exact same (by simp)
  | refresh => exact same (by simp)
  | fetched => exact same (by simp)
  | unfetched => exact same (by simp)
  | chunk task text => exact same (shell_onStreamChunk text session)
  | answered => exact same (by simp)
  | failed => exact same (by simp)
  | connectionLost connected => exact connected
  | elapsed => exact still

theorem Attended.run {events : List Event} {final : Session}
    (attended : Attended env base first session)
    (ran : runEvents env session events = some final) (still : final.connected = true) :
    Attended env base first final := by
  have connected {events : List Event} {session : Session}
      (ran : runEvents env session events = some final) : session.connected = true := by
    induction events generalizing session with
    | nil =>
        cases ran
        exact still
    | cons event events induction =>
        rcases EventRun.run_cons.mp ran with ⟨next, stepped, ranOn⟩
        exact connected_of_step stepped (induction ranOn)
  induction events generalizing session with
  | nil =>
      cases ran
      exact attended
  | cons event events induction =>
      rcases EventRun.run_cons.mp ran with ⟨next, stepped, ranOn⟩
      exact induction (attended.step stepped (connected ranOn)) ranOn

/-- The bytes of a line are handled: nothing is raised, one input is logged, and in whatever
state the connection still is later, a prompt has been drawn or something is outstanding that
draws it. -/
structure Handled (env : Env) (line : List UInt8) (session : Session) : Prop where
  returned : (lineReceived env line session).2 = .returned
  logged : ∃ input, (receive env line session).inputs = session.inputs ++ [input]
  prompts : ∀ events final, runEvents env (receive env line session) events = some final →
    final.connected = true →
      Drawn session.screen final ∨ final.program.isSome ∨ owed session.agenda.next final ≠ []

theorem handled_iff (tidy : Tidy env session) (connected : session.connected = true)
    (stopped : session.program = none) (line : List UInt8) :
    Handled env line session ↔ Accepts env line session := by
  rw [← lineReceived_returned]
  refine ⟨fun handled => handled.returned, fun returned => ⟨returned, ?_, ?_⟩⟩
  · rw [receive_returned returned]
    unfold lineReceived at returned ⊢
    cases decoded : Utf8.decode line with
    | none =>
        rw [decoded] at returned
        cases returned
    | some string => exact ⟨string, inputs_dispatchLine env string session⟩
  · intro events final ran still
    exact ((attended_receive tidy connected stopped returned).run ran still).awaited

/-! ## Exec commands -/

inductive StartedExec
  | upload (protocol : Scp.ExecProtocol)
  | command (exec : ExecSession)

/-- The attribute `execcmd` after `__init__`, unset where the bytes are no UTF-8. -/
def initExec (execcmd : Bytes) : Option Str := Utf8.decode execcmd

/-- `connectionMade`, `none` where reading the attribute raises. -/
def execConnectionMade (env : ExecEnv) (execcmd : Option Str) : Option StartedExec :=
  execcmd.bind fun execcmd =>
    match Scp.ExecProtocol.connectionMade execcmd with
    | some upload => some (.upload upload)
    | none => (ExecSession.connectionMade env execcmd).map .command

/-- The session ends with an exit status: an upload with its input, another command at once or
with the answer of the model. -/
def Exits (env : ExecEnv) : StartedExec → Prop
  | .upload protocol =>
      ∀ events final, EventRun.run Scp.ExecProtocol.step protocol events = some final →
        Scp.Event.eof ∈ events → final.ended ≠ []
  | .command exec =>
      (exec.ended ≠ [] ∨ env.client [env.execContext exec.execcmd] = .pending) ∧
        ∀ event events, (∀ other ∈ event :: events, other ≠ ExecSession.Event.lost) →
          ((event :: events).foldl (ExecSession.step env) exec).ended ≠ []

theorem upload_step {protocol after : Scp.ExecProtocol} {event : Scp.Event}
    (sound : protocol.finalized = true → protocol.ended ≠ [])
    (stepped : protocol.step event = some after) :
    (after.finalized = true → after.ended ≠ []) ∧
      (protocol.ended ≠ [] ∨ event = .eof → after.ended ≠ []) := by
  simp only [Scp.ExecProtocol.step, Option.ite_none_right_eq_some, Option.some.injEq] at stepped
  rcases stepped with ⟨terminal, isAfter⟩
  rw [← isAfter]
  cases event with
  | keystroke keyID => exact ⟨sound, fun ended => ended.resolve_right Scp.Event.noConfusion⟩
  | eof =>
      have ended : protocol.finalizeScp.ended ≠ [] := by
        unfold Scp.ExecProtocol.finalizeScp
        split
        · exact sound ‹_›
        · simp
      exact ⟨fun _ => ended, fun _ => ended⟩
  | timeout =>
      have ended : protocol.timeoutConnection.ended ≠ [] := by
        simp [Scp.ExecProtocol.timeoutConnection]
      exact ⟨fun _ => ended, fun _ => ended⟩
  | lost => exact ⟨sound, fun ended => ended.resolve_right Scp.Event.noConfusion⟩

theorem upload_run {protocol final : Scp.ExecProtocol} {events : List Scp.Event}
    (sound : protocol.finalized = true → protocol.ended ≠ [])
    (ran : EventRun.run Scp.ExecProtocol.step protocol events = some final)
    (ended : protocol.ended ≠ [] ∨ .eof ∈ events) : final.ended ≠ [] := by
  induction events generalizing protocol with
  | nil =>
      cases ran
      exact ended.resolve_right List.not_mem_nil
  | cons event events induction =>
      rcases EventRun.run_cons.mp ran with ⟨after, stepped, ranOn⟩
      have kept := upload_step sound stepped
      refine induction kept.1 ranOn ?_
      rcases ended with already | member
      · exact .inl (kept.2 (.inl already))
      · exact (List.mem_cons.mp member).imp (fun isEof => kept.2 (.inr isEof.symm)) id

theorem command_step {env : ExecEnv} {exec : ExecSession} {event : ExecSession.Event}
    (terminal : exec.terminal = true) (kept : event ≠ .lost) :
    (exec.step env event).terminal = true ∧ (exec.step env event).ended ≠ [] := by
  cases event with
  | responded response =>
      simp only [ExecSession.step, ExecSession.handleExecResponse, terminal, if_true]
      split
      · simp [ExecSession.processEnded, terminal]
      · simp [ExecSession.processEnded, ExecSession.write, terminal]
  | failed =>
      simp [ExecSession.step, ExecSession.handleExecError, ExecSession.processEnded, terminal]
  | lost => exact absurd rfl kept

theorem command_run {env : ExecEnv} {exec : ExecSession} (terminal : exec.terminal = true)
    (event : ExecSession.Event) (events : List ExecSession.Event)
    (kept : ∀ other ∈ event :: events, other ≠ ExecSession.Event.lost) :
    ((event :: events).foldl (ExecSession.step env) exec).ended ≠ [] := by
  have both := List.forall_mem_cons.mp kept
  have here := @command_step env _ _ terminal both.1
  induction events generalizing exec event with
  | nil => exact here.2
  | cons next events induction =>
      have later := List.forall_mem_cons.mp both.2
      exact induction here.1 next both.2 later (command_step here.1 later.1)

theorem exits_command {env : ExecEnv} {execcmd : Str} {exec : ExecSession}
    (made : ExecSession.connectionMade env execcmd = some exec) : Exits env (.command exec) := by
  have started : exec.terminal = true ∧ exec.execcmd = execcmd ∧
      (exec.ended ≠ [] ∨ env.client [env.execContext execcmd] = .pending) := by
    unfold ExecSession.connectionMade at made
    split at made
    · cases made
    · split at made
      · cases made
        exact ⟨rfl, rfl, .inl (List.cons_ne_nil _ _)⟩
      · cases made
        unfold ExecSession.processExecWithLlm
        simp only
        split
        · exact ⟨rfl, rfl, .inr ‹_›⟩
        · rename_i response fired
          unfold ExecSession.handleExecResponse
          simp only [if_true]
          split
          · exact ⟨rfl, rfl, .inl (List.cons_ne_nil _ _)⟩
          · exact ⟨rfl, rfl, .inl (List.cons_ne_nil _ _)⟩
        · exact ⟨rfl, rfl, .inl (List.cons_ne_nil _ _)⟩
  refine ⟨?_, command_run started.1⟩
  rw [started.2.1]
  exact started.2.2

theorem exits_upload {env : ExecEnv} {execcmd : Str} {protocol : Scp.ExecProtocol}
    (made : Scp.ExecProtocol.connectionMade execcmd = some protocol) :
    Exits env (.upload protocol) := by
  intro events final ran ended
  have fresh : protocol.finalized = false := by
    unfold Scp.ExecProtocol.connectionMade at made
    split at made
    · cases made
      rfl
    · cases made
  refine upload_run (fun finalized => ?_) ran (.inr ended)
  rw [fresh] at finalized
  cases finalized

theorem exits_iff (env : ExecEnv) (execcmd : Bytes) :
    (∃ started, execConnectionMade env (initExec execcmd) = some started ∧ Exits env started) ↔
      (Utf8.decode execcmd).isSome := by
  unfold initExec
  cases decoded : Utf8.decode execcmd with
  | none =>
      refine iff_of_false (fun starts => ?_) Bool.false_ne_true
      rcases starts with ⟨started, made, -⟩
      cases made
  | some text =>
      refine iff_of_true ?_ rfl
      simp only [execConnectionMade, Option.bind_some]
      cases made : Scp.ExecProtocol.connectionMade text with
      | some upload => exact ⟨.upload upload, rfl, exits_upload made⟩
      | none =>
          have noSink : Scp.isScpSink text = false := by
            unfold Scp.ExecProtocol.connectionMade at made
            split at made
            · cases made
            · exact Bool.eq_false_iff.mpr ‹_›
          have isSome : ∃ exec, ExecSession.connectionMade env text = some exec := by
            simp only [ExecSession.connectionMade, noSink, Bool.false_eq_true, if_false]
            split
            · exact ⟨_, rfl⟩
            · exact ⟨_, rfl⟩
          rcases isSome with ⟨exec, isExec⟩
          simp only [isExec]
          exact ⟨.command exec, rfl, exits_command isExec⟩

/-- Bytes that are typed are handled exactly where they are text and refuse no URL; the bytes of
an exec command exactly where they are text. -/
theorem typed_bytes_iff (env : Env) (execEnv : ExecEnv) :
    (∀ (session : Session) (line : List UInt8), Reachable env session →
        session.connected = true → session.program = none →
          (Handled env line session ↔ Accepts env line session)) ∧
      ∀ execcmd : Bytes,
        (∃ started, execConnectionMade execEnv (initExec execcmd) = some started ∧
            Exits execEnv started) ↔
          (Utf8.decode execcmd).isSome :=
  ⟨fun _ line reachable connected stopped => handled_iff reachable.tidy connected stopped line,
    exits_iff execEnv⟩

theorem typed_make :
    (Handled .pending makeLine atPrompt ∧ Accepts .pending makeLine atPrompt) ∧
      ¬ Handled .pending [0xFF] atPrompt := by
  have typed := (typed_bytes_iff .pending ⟨id, fun _ => .pending, fun _ => false⟩).1 atPrompt
  have reachable := reachable_atPrompt .pending
  have accepts : Accepts .pending makeLine atPrompt := by
    rw [← lineReceived_returned]
    decide
  exact ⟨⟨(typed makeLine reachable rfl rfl).mpr accepts, accepts⟩,
    fun handled => (typed [0xFF] reachable rfl rfl).mp handled⟩

/-- The byte FF is no text. -/
theorem typed_byte_raises :
    ¬ ∀ (env : Env) (session : Session) (line : List UInt8), Reachable env session →
      session.connected = true → session.program = none → Handled env line session := by
  intro all
  have handled := all .pending atPrompt [0xFF] (reachable_atPrompt .pending) rfl rfl
  cases handled.returned

end Protocol

end LlmHoneypot
