import LlmHoneypot.Protocol.ModelSide

/-! # Steps on the model side

Every step of a session but the arrival of an answer is made of local answers and of
commands that are sent to the model. -/

namespace LlmHoneypot

namespace Protocol

open CmdChain Downloader Interactive Responder

variable {env : Env} {command : Str} {session next : Session}

/-! ## Text for the model -/

theorem visible_renderObservation (intent : DownloadIntent) (result : FetchResult)
    (command : Str) :
    Text.strip (userMessage command (some (renderObservation intent result))) ≠ [] := by
  apply Text.strip_ne_nil_iff.mpr
  refine ⟨'[', ?_, by decide⟩
  have opens : '[' ∈ OBSERVATION_OPEN := by decide
  have observed : '[' ∈ renderObservation intent result := Text.mem_join_head opens ..
  simp [userMessage, observed]

theorem mem_remainder {ch : Char} (member : ch ∈ command) (rest : List Segment) :
    ch ∈ remainder command rest := by
  unfold remainder
  induction rest generalizing command with
  | nil => exact member
  | cons segment rest induction =>
      apply induction
      simp [member]

theorem visible_remainder (visible : Text.strip command ≠ []) (rest : List Segment) :
    Text.strip (remainder command rest) ≠ [] := by
  rcases Text.strip_ne_nil_iff.mp visible with ⟨ch, member, seen⟩
  exact Text.strip_ne_nil_iff.mpr ⟨ch, mem_remainder member rest, seen⟩

/-! ## Ladders -/

structure Converses (env : Env) (session next : Session) : Prop where
  talks : session.pendingClaim = [] → Talks env session next

namespace Converses

theorem quiet (same : next.modelSide = session.modelSide) : Converses env session next :=
  ⟨fun _ => .quiet same⟩

theorem trans {final : Session} (first : Converses env session next)
    (second : Converses env next final) : Converses env session final := by
  constructor
  intro clear
  have talks := first.talks clear
  exact .trans talks (second.talks (talks.pendingClaim.trans clear))

theorem processCommandWithLlm {observation : Option Str}
    (visible : Text.strip (userMessage command observation) ≠ []) (session : Session) :
    Converses env session (processCommandWithLlm env command observation session) :=
  ⟨talks_processCommandWithLlm visible⟩

theorem onResult (command : Str) (intent : DownloadIntent) (result : FetchResult)
    (session : Session) :
    Converses env session (onResult env command intent result session) := by
  have captured : (addCaptured intent result session).modelSide = session.modelSide := by
    simp only [addCaptured]
    split <;> rfl
  exact (quiet captured).trans
    (processCommandWithLlm (visible_renderObservation intent result command) _)

theorem beginFetch (command : Str) (intent : DownloadIntent) (session : Session) :
    Converses env session (beginFetch env command intent session).1 := by
  have fetching : (fetching command intent session).modelSide = session.modelSide :=
    modelSide_log rfl session
  simp only [Protocol.beginFetch]
  split
  · exact quiet fetching
  · split
    · exact quiet ((modelSide_schedule rfl _).trans fetching)
    · exact (quiet fetching).trans (onResult ..)
    · exact quiet ((modelSide_handleLlmError ..).trans fetching)

end Converses

theorem modelSide_scheduleProgramRefresh (session : Session) :
    (scheduleProgramRefresh session).modelSide = session.modelSide := by
  unfold scheduleProgramRefresh
  split
  · split
    · exact modelSide_schedule rfl session
    · rfl
  · rfl

theorem modelSide_tryFastpath (fast : tryFastpath env command session = some next) :
    next.modelSide = session.modelSide := by
  simp only [tryFastpath] at fast
  split at fast
  · cases fast
    exact modelSide_showPromptJittered ..
  · split at fast
    · cases fast
    · rcases Option.map_eq_some_iff.mp fast with ⟨verb, -, rfl⟩
      cases verb with
      | leave =>
          simp only [runFastVerb]
          split
          · exact modelSide_send ..
          · exact modelSide_showPromptJittered ..
      | clear => exact (modelSide_showPromptJittered ..).trans (modelSide_send ..)
      | pwd => exact (modelSide_showPromptJittered ..).trans (modelSide_write ..)
      | cd => exact modelSide_showPromptJittered ..

theorem modelSide_applyInputMutations (command : Str) (session : Session) :
    (applyInputMutations command session).modelSide = session.modelSide := rfl

theorem converses_emitDeterministic (result : ResponderResult) (session : Session) :
    Converses env session (emitDeterministic env command result session) := by
  constructor
  intro _
  apply Talks.claimed command result.output
  have logged : (session.log (.deterministic command session.cwd)).modelSide =
      session.modelSide := modelSide_log rfl session
  simp only [emitDeterministic, modelSide_recordClaim, modelSide_showPromptJittered]
  split
  · rw [logged]
  · rw [modelSide_write, logged]

theorem converses_dispatched {renders : Renderer} {outcome : Session × Stage}
    (dispatched : Dispatched env renders command session outcome) :
    Converses env session outcome.1 := by
  have mutated : Converses env session (applyInputMutations command session) :=
    .quiet (modelSide_applyInputMutations ..)
  cases dispatched with
  | fast next fast => exact .quiet (modelSide_tryFastpath fast)
  | rendered result slow rendered => exact mutated.trans (converses_emitDeterministic result _)
  | program program slow deferred connected enabled started =>
      exact mutated.trans
        (.quiet ((modelSide_scheduleProgramRefresh _).trans (modelSide_write ..)))
  | download intent slow deferred lined capture parsed =>
      exact mutated.trans (.beginFetch ..)
  | badUrl raised slow deferred lined capture parsed => exact mutated
  | declined slow deferred lined parsed => exact mutated

theorem visible_of_declined {renders : Renderer}
    (dispatched : Dispatched env renders command session (next, .declined)) :
    Text.strip command ≠ [] := by
  generalize equal : (next, Stage.declined) = outcome at dispatched
  cases dispatched with
  | fast next fast => cases equal
  | rendered result slow rendered => cases equal
  | program program slow deferred connected enabled started => cases equal
  | download intent slow deferred lined capture parsed => exact visible_of_slow slow
  | badUrl raised slow deferred lined capture parsed => cases equal
  | declined slow deferred lined parsed => exact visible_of_slow slow

/-! ## Lines -/

theorem converses_dispatchSegment (env : Env) (command : Str) (session : Session) :
    Converses env session (dispatchSegment env command session).1 := by
  have dispatched := dispatchLocal_dispatched env command (session.setSuppressPrompt true)
  have suppressed : Converses env session (session.setSuppressPrompt true) := .quiet rfl
  exact (suppressed.trans (converses_dispatched dispatched)).trans (.quiet rfl)

theorem converses_chainLoop (env : Env) (succeeded : Bool) (segments : List Segment)
    (session : Session) :
    Converses env session (chainLoop env succeeded segments session).session :=
  chainLoop_relation (Converses env) (fun _ => .quiet rfl) Converses.trans
    (fun segment _ session => converses_dispatchSegment env segment.command session)
    succeeded session

theorem visible_handedOver {succeeded : Bool} {segments : List Segment} {text : Str}
    (ends : (chainLoop env succeeded segments session).ending = .handedOver text) :
    Text.strip text ≠ [] := by
  induction segments generalizing succeeded session with
  | nil => cases ends
  | cons segment rest induction =>
      simp only [chainLoop] at ends
      split at ends
      · have dispatched := dispatchLocal_dispatched env segment.command
          (session.setSuppressPrompt true)
        simp only [dispatchSegment] at ends
        generalize dispatchLocal env segment.command (session.setSuppressPrompt true) = outcome
          at dispatched ends
        rcases outcome with ⟨next, stage⟩
        cases stage with
        | raised => cases ends
        | declined =>
            cases ends
            exact visible_remainder (visible_of_declined dispatched) rest
        | handled ok => exact induction ends
      · exact induction ends

theorem converses_dispatchChain (env : Env) (segments : List Segment) (session : Session) :
    Converses env session (dispatchChain env segments session).1 := by
  have looped := converses_chainLoop env true segments session
  unfold dispatchChain finishChain
  split
  · exact looped.trans (.quiet (modelSide_showPrompt ..))
  · rename_i text ends
    have mutated : Converses env (chainLoop env true segments session).session
        (applyInputMutations text (chainLoop env true segments session).session) :=
      .quiet (modelSide_applyInputMutations ..)
    have visible : Text.strip (userMessage text none) ≠ [] := visible_handedOver ends
    exact (looped.trans mutated).trans (.processCommandWithLlm visible _)
  · exact looped

theorem converses_dispatchOne (env : Env) (command : Str) (session : Session) :
    Converses env session (dispatchOne env command session).1 := by
  rcases dispatchOne_dispatched env command session with ⟨⟨next, stage⟩, dispatched, equal⟩
  have converses := converses_dispatched dispatched
  rw [equal]
  cases stage with
  | raised => exact converses
  | handled ok => exact converses
  | declined =>
      have visible : Text.strip (userMessage command none) ≠ [] := visible_of_declined dispatched
      exact converses.trans (.processCommandWithLlm visible _)

theorem converses_finish (number : Nat) (session : Session) :
    Converses env session (session.finish number) :=
  ⟨fun _ => .finished number (modelSide_finish number session)⟩

theorem converses_cancelRefresh (session : Session) :
    Converses env session session.cancelRefresh := by
  unfold Session.cancelRefresh
  split
  · rename_i number called
    exact (converses_finish number session).trans (.quiet rfl)
  · exact .quiet rfl

theorem converses_connectionLost (session : Session) :
    Converses env session (connectionLost session) :=
  (converses_cancelRefresh session).trans (.quiet rfl)

theorem converses_receive (env : Env) (line : List UInt8) (session : Session) :
    Converses env session (receive env line session) := by
  have received : Converses env session (lineReceived env line session).1 := by
    unfold lineReceived
    split
    · rename_i string decoded
      have logged : Converses env session (session.log (.input string)) :=
        .quiet (modelSide_log rfl session)
      apply logged.trans
      simp only [dispatchLine]
      split
      · exact converses_dispatchChain ..
      · exact converses_dispatchOne ..
    · exact .quiet rfl
  unfold receive
  generalize lineReceived env line session = outcome at received
  rcases outcome with ⟨next, ending⟩
  cases ending with
  | returned => exact received
  | raised => exact received.trans (converses_connectionLost next)

/-! ## Other events -/

theorem modelSide_saves (startCwd path : Str) (saves : List Str) (session : Session) :
    (saves.foldl (fun session body => persistEditorSave startCwd path body session)
      session).modelSide = session.modelSide := by
  induction saves generalizing session with
  | nil => rfl
  | cons body saves induction =>
      exact (induction _).trans (modelSide_log rfl _)

theorem converses_keystrokeReceived (active : ActiveProgram) (data : List UInt8)
    (session : Session) :
    Converses env session (keystrokeReceived env active data session) := by
  simp only [keystrokeReceived]
  rcases active.program.handleKey (topFrame env active.startCwd session) data with
    ⟨program, result, saves⟩
  simp only
  let moved : Session := { session with program := some { active with program } }
  let saved : Session := saves.foldl
    (fun session body => persistEditorSave active.startCwd (savePath program) body session) moved
  let shown : Session := if result.output = [] then saved else saved.write result.output
  have saves_ : saved.modelSide = session.modelSide := modelSide_saves ..
  have shown_ : Converses env session shown := by
    apply Converses.quiet
    simp only [shown]
    split
    · exact saves_
    · exact (modelSide_write ..).trans saves_
  split
  · exact (shown_.trans (converses_cancelRefresh shown)).trans
      (.quiet (modelSide_showPrompt ..))
  · exact shown_

theorem converses_doProgramRefresh (env : Env) (session : Session) :
    Converses env session (doProgramRefresh env session) := by
  simp only [doProgramRefresh]
  split
  · split
    · exact .quiet ((modelSide_scheduleProgramRefresh _).trans (modelSide_write ..))
    · exact .quiet rfl
  · exact .quiet rfl

theorem converses_step {event : Event} (stepped : step env session event = some next)
    (other : ∀ number answer, event ≠ .answered number (.ok answer)) :
    Converses env session next := by
  have finished (task : Nat) := @converses_finish env task session
  cases stepped_of_step stepped with
  | line line => exact converses_receive env line session
  | key data active => exact converses_keystrokeReceived active data session
  | prompt task => exact (finished task).trans (.quiet (modelSide_writePromptSafe ..))
  | refresh task => exact (finished task).trans (converses_doProgramRefresh ..)
  | fetched task => exact (finished task).trans (.onResult ..)
  | unfetched task => exact (finished task).trans (.quiet (modelSide_handleLlmError ..))
  | chunk =>
      apply Converses.quiet
      unfold onStreamChunk
      split
      · rfl
      · exact modelSide_write ..
  | answered task turn answer => exact absurd rfl (other task answer)
  | failed task => exact (finished task).trans (.quiet (modelSide_handleLlmError ..))
  | connectionLost => exact converses_connectionLost session
  | elapsed => exact .quiet rfl

/-! ## Steps -/

/-- What an event does on the model side: it talks, or an answer arrives while there
is a terminal, or after the connection is lost. -/
inductive Heard (env : Env) (session next : Session) : Event → Prop
  | talked {event : Event} (other : ∀ number answer, event ≠ .answered number (.ok answer))
      (talks : Talks env session next) : Heard env session next event
  | answered (number : Nat) (turn : ModelTurn) (answer : Answer)
      (waiting : session.agenda.find? number = some (.model turn))
      (connected : session.connected = true)
      (same : next.modelSide =
        (session.modelSide.finish number).answer env turn.command answer) :
      Heard env session next (.answered number (.ok answer))
  | unheard (number : Nat) (turn : ModelTurn) (answer : Answer)
      (waiting : session.agenda.find? number = some (.model turn))
      (gone : session.connected = false)
      (same : next.modelSide = (session.modelSide.finish number).spend answer.usage) :
      Heard env session next (.answered number (.ok answer))

theorem heard_step {event : Event} (clear : session.pendingClaim = [])
    (stepped : step env session event = some next) : Heard env session next event := by
  by_cases answers : ∃ number answer, event = .answered number (.ok answer)
  · rcases answers with ⟨number, answer, rfl⟩
    cases stepped_of_step stepped with
    | answered number turn answer waiting =>
        cases connected : session.connected with
        | true =>
            apply Heard.answered number turn answer waiting connected
            rw [← modelSide_finish]
            exact modelSide_handleLlmResponse turn answer connected clear
        | false =>
            apply Heard.unheard number turn answer waiting connected
            rw [← modelSide_finish]
            exact modelSide_handleLlmResponse_gone turn answer connected
  · have other : ∀ number answer, event ≠ .answered number (.ok answer) := by
      intro number answer equal
      exact answers ⟨number, answer, equal⟩
    exact .talked other ((converses_step stepped other).talks clear)

theorem pendingClaim_step {event : Event} (clear : session.pendingClaim = [])
    (stepped : step env session event = some next) : next.pendingClaim = [] := by
  have side : next.modelSide.pendingClaim = session.modelSide.pendingClaim := by
    cases heard_step clear stepped with
    | talked other talks => exact talks.pendingClaim
    | answered number turn answer waiting connected same => rw [same]; rfl
    | unheard number turn answer waiting gone same => rw [same]; rfl
  exact side.trans clear

theorem pendingClaim_of_initial (initial : Initial session) : session.pendingClaim = [] := by
  rcases initial with ⟨loginUser, hostname, clock, rfl⟩
  rfl

end Protocol

end LlmHoneypot
