import LlmHoneypot.Protocol.Reachable

/-! # The model side of a session

What a session counts, remembers and has outstanding with its model, and the few ways
in which a step of the session can change that. -/

namespace LlmHoneypot

namespace Protocol

open CmdChain Downloader Interactive Responder

/-! ## View -/

def LogEvent.isPrompt : LogEvent → Bool
  | .prompt _ _ => true
  | _ => false

def Task.modelTurn? : Task → Option ModelTurn
  | .model turn => some turn
  | _ => none

def outstandingIn (entries : List (Nat × Task)) : List (Nat × ModelTurn) :=
  entries.filterMap fun entry => entry.2.modelTurn?.map fun turn => (entry.1, turn)

structure ModelSide where
  commandCount : Nat
  sessionTokens : Nat
  requests : Nat
  outstanding : List (Nat × ModelTurn)
  history : List Str
  spoken : List LLMMessage
  lastCommand : Str
  pendingClaim : Str
  records : List ClaimRecord

def Session.modelSide (session : Session) : ModelSide :=
  { commandCount := session.commandCount
    sessionTokens := session.sessionTokens
    requests := session.events.countP LogEvent.isPrompt
    outstanding := outstandingIn session.agenda.entries
    history := session.commandHistory
    spoken := session.spoken
    lastCommand := session.lastLlmCommand
    pendingClaim := session.pendingClaim
    records := session.records }

/-! ## Changes -/

def answerEntries (env : Env) (response : Str) : List Str :=
  if response = [] then [] else ["System: ".toList ++ (cleanResponse env response).1]

def answerMessages (env : Env) (response : Str) : List LLMMessage :=
  if response = [] then [] else [⟨.assistant, (cleanResponse env response).1⟩]

def recordsFor (env : Env) (answered command answer : Str) (source : ClaimSource) :
    List ClaimRecord :=
  if ¬ env.config.factLedger ∨ answer = [] then []
  else
    match env.factFamily command with
    | none => []
    | some key => if key = [] then [] else [⟨answered, Text.strip command, key, source⟩]

def answerRecords (env : Env) (answered command response : Str) : List ClaimRecord :=
  if response = [] then []
  else recordsFor env answered command (cleanResponse env response).1 .llm

def usageSpend (usage : Option Usage) : Nat := (usage.map Usage.spend).getD 0

namespace ModelSide

def record (records : List ClaimRecord) (side : ModelSide) : ModelSide :=
  { side with records := side.records ++ records }

def count (side : ModelSide) : ModelSide := { side with commandCount := side.commandCount + 1 }

def begin (command : Str) (observation : Option Str) (side : ModelSide) : ModelSide :=
  { side.count with
    lastCommand := command
    history := side.history ++ ["User: ".toList ++ userMessage command observation]
    spoken := side.spoken ++ [LLMMessage.mk .user (userMessage command observation)] }

def start (side : ModelSide) : ModelSide := { side with requests := side.requests + 1 }

def await (number : Nat) (turn : ModelTurn) (side : ModelSide) : ModelSide :=
  { side with outstanding := side.outstanding ++ [(number, turn)] }

def finish (number : Nat) (side : ModelSide) : ModelSide :=
  { side with outstanding := side.outstanding.filter (·.1 ≠ number) }

def spend (usage : Option Usage) (side : ModelSide) : ModelSide :=
  { side with sessionTokens := side.sessionTokens + usageSpend usage }

/-- An answer arrives while there is a terminal and no claim is pending. -/
def answer (env : Env) (answered : Str) (answer : Answer) (side : ModelSide) : ModelSide :=
  { side.spend answer.usage with
    history := side.history ++ answerEntries env answer.response
    spoken := side.spoken ++ answerMessages env answer.response
    records :=
      side.records ++ answerRecords env answered side.lastCommand answer.response }

end ModelSide

inductive Talks (env : Env) : Session → Session → Prop
  | quiet {session next : Session} (same : next.modelSide = session.modelSide) :
      Talks env session next
  | finished {session next : Session} (number : Nat)
      (same : next.modelSide = session.modelSide.finish number) : Talks env session next
  | claimed {session next : Session} (command answer : Str)
      (same : next.modelSide = session.modelSide.record
        (recordsFor env command command answer .deterministic)) : Talks env session next
  | refused {session next : Session} (refused : refusesTurn env session = true)
      (same : next.modelSide = session.modelSide.count) : Talks env session next
  | gone {session next : Session} (command : Str) (observation : Option Str)
      (visible : Text.strip (userMessage command observation) ≠ [])
      (asked : refusesTurn env session = false)
      (same : next.modelSide = session.modelSide.begin command observation) :
      Talks env session next
  | waiting {session next : Session} (command : Str) (observation : Option Str)
      (visible : Text.strip (userMessage command observation) ≠ [])
      (asked : refusesTurn env session = false) (turn : ModelTurn)
      (named : turn.command = command)
      (same : next.modelSide =
        (session.modelSide.begin command observation).start.await session.agenda.next turn) :
      Talks env session next
  | fired {session next : Session} (command : Str) (observation : Option Str)
      (visible : Text.strip (userMessage command observation) ≠ [])
      (asked : refusesTurn env session = false) (number : Nat) (request : LLMRequest)
      (answer : Answer) (answered : env.provider number request = .fired answer)
      (same : next.modelSide =
        (session.modelSide.begin command observation).start.answer env command answer) :
      Talks env session next
  | failed {session next : Session} (command : Str) (observation : Option Str)
      (visible : Text.strip (userMessage command observation) ≠ [])
      (asked : refusesTurn env session = false)
      (same : next.modelSide = (session.modelSide.begin command observation).start) :
      Talks env session next
  | trans {session next final : Session} (first : Talks env session next)
      (second : Talks env next final) : Talks env session final

/-! ## Frame -/

section Frame

variable {env : Env} {session next : Session}

theorem outstandingIn_append (first second : List (Nat × Task)) :
    outstandingIn (first ++ second) = outstandingIn first ++ outstandingIn second :=
  List.filterMap_append

theorem outstandingIn_finish (entries : List (Nat × Task)) (number : Nat) :
    outstandingIn (entries.filter (·.1 ≠ number)) =
      (outstandingIn entries).filter (·.1 ≠ number) := by
  induction entries with
  | nil => rfl
  | cons entry rest induction =>
      rcases entry with ⟨own, task⟩
      by_cases same : own = number
      · cases turned : task.modelTurn? <;>
          simp [outstandingIn, turned, same] at induction ⊢ <;> exact induction
      · cases turned : task.modelTurn? <;>
          simp [outstandingIn, turned, same] at induction ⊢ <;> exact induction

@[simp] theorem modelSide_finish (number : Nat) (session : Session) :
    (session.finish number).modelSide = session.modelSide.finish number := by
  simp only [Session.modelSide, Session.finish, Agenda.finish, outstandingIn_finish]
  rfl

theorem modelSide_schedule {task : Task} (other : task.modelTurn? = none) (session : Session) :
    (session.schedule task).modelSide = session.modelSide := by
  simp only [Session.modelSide, Session.schedule, Agenda.add, outstandingIn_append]
  simp [outstandingIn, other]

theorem modelSide_log {event : LogEvent} (other : event.isPrompt = false) (session : Session) :
    (session.log event).modelSide = session.modelSide := by
  simp [Session.modelSide, Session.log, other]

@[simp] theorem modelSide_write (text : Str) (session : Session) :
    (session.write text).modelSide = session.modelSide := by
  unfold Session.write
  split <;> rfl

@[simp] theorem modelSide_send (outputs : List Output) (session : Session) :
    (session.send outputs).modelSide = session.modelSide := by
  unfold Session.send
  split <;> rfl

@[simp] theorem modelSide_writePromptSafe (session : Session) :
    session.writePromptSafe.modelSide = session.modelSide := by
  unfold Session.writePromptSafe
  split <;> rfl

@[simp] theorem modelSide_showPrompt (jitterMin jitterMax : Int) (session : Session) :
    (session.showPrompt jitterMin jitterMax).modelSide = session.modelSide := by
  simp only [Session.showPrompt]
  split
  · rfl
  · split
    · exact modelSide_schedule rfl session
    · exact modelSide_writePromptSafe session

@[simp] theorem modelSide_showPromptJittered (env : Env) (session : Session) :
    (showPromptJittered env session).modelSide = session.modelSide :=
  modelSide_showPrompt _ _ session

@[simp] theorem modelSide_recordUsage (usage : Option Usage) (session : Session) :
    (session.recordUsage usage).modelSide = session.modelSide.spend usage := by
  cases usage <;> rfl

@[simp] theorem modelSide_logSessionBudget (session : Session) :
    session.logSessionBudget.modelSide = session.modelSide := by
  unfold Session.logSessionBudget
  split
  · rfl
  · exact modelSide_log rfl session

@[simp] theorem modelSide_logTokenBudget (session : Session) :
    session.logTokenBudget.modelSide = session.modelSide := by
  unfold Session.logTokenBudget
  split
  · rfl
  · exact modelSide_log rfl session

@[simp] theorem modelSide_refuseTurn (session : Session) :
    (refuseTurn session).modelSide = session.modelSide := by
  simp [refuseTurn]

@[simp] theorem modelSide_recordClaim (answered command answer : Str) (source : ClaimSource)
    (session : Session) :
    (recordClaim env answered command answer source session).modelSide =
      session.modelSide.record (recordsFor env answered command answer source) := by
  by_cases silent : ¬ env.config.factLedger ∨ answer = []
  · simp only [recordClaim, recordsFor, silent, if_true, ModelSide.record, List.append_nil]
  · cases family : env.factFamily command with
    | none => simp [recordClaim, recordsFor, family, ModelSide.record]
    | some key =>
        by_cases keyless : key = []
        · simp [recordClaim, recordsFor, family, keyless, ModelSide.record]
        · simp only [recordClaim, recordsFor, silent, family, keyless, if_false]
          rfl

/-! ## Answers -/

theorem modelSide_showAnswer (streamed : Bool) (response : Str) (session : Session) :
    (showAnswer env streamed response session).modelSide =
      if response = [] then session.modelSide
      else
        { session.modelSide with
          history := session.modelSide.history ++ answerEntries env response
          spoken := session.modelSide.spoken ++ answerMessages env response
          pendingClaim := (cleanResponse env response).1 } := by
  unfold showAnswer answerEntries answerMessages
  split
  · rfl
  · rcases cleanResponse env response with ⟨clean, leaked⟩
    cases leaked with
    | false =>
        cases connected : session.connected <;> simp [Session.write, connected] <;> rfl
    | true =>
        cases connected : session.connected <;>
          simp [Session.write, Session.log, connected, Session.modelSide, LogEvent.isPrompt]

theorem modelSide_recordPending (answered : Str) (session : Session) :
    (recordPending env answered session).modelSide =
      { session.modelSide.record (if session.modelSide.pendingClaim = [] then [] else
          recordsFor env answered session.modelSide.lastCommand session.modelSide.pendingClaim
            .llm) with
        pendingClaim := [] } := by
  by_cases nothing : session.pendingClaim = []
  · have same : session.modelSide.pendingClaim = [] := nothing
    simp only [recordPending, nothing, same, if_true, ModelSide.record, List.append_nil]
    rw [← nothing]
    rfl
  · have same : session.modelSide.pendingClaim ≠ [] := nothing
    simp only [recordPending, nothing, same, if_false, modelSide_recordClaim]
    rfl

theorem recordsFor_nil (answered command : Str) (source : ClaimSource) :
    recordsFor env answered command [] source = [] := by
  simp [recordsFor]

theorem modelSide_handleLlmResponse (turn : ModelTurn) (answer : Answer)
    (connected : session.connected = true) (clear : session.pendingClaim = []) :
    (handleLlmResponse env turn answer session).modelSide =
      session.modelSide.answer env turn.command answer := by
  have logged : ((session.recordUsage answer.usage).log (.response answer.response)).modelSide =
      session.modelSide.spend answer.usage :=
    (modelSide_log rfl _).trans (modelSide_recordUsage answer.usage session)
  have still : ((session.recordUsage answer.usage).log (.response answer.response)).connected =
      true := by
    have shell := Session.shell_recordUsage answer.usage session
    exact (congrArg ShellView.connected shell).trans connected
  simp only [handleLlmResponse, still, if_true]
  generalize (session.recordUsage answer.usage).log (.response answer.response) = opened
    at logged still
  rw [modelSide_recordPending, modelSide_showPrompt, modelSide_showAnswer, logged]
  have nothing : session.modelSide.pendingClaim = [] := clear
  by_cases silent : answer.response = []
  · simp [silent, ModelSide.answer, ModelSide.spend, ModelSide.record, answerEntries,
      answerMessages, answerRecords, nothing]
  · by_cases blank : (cleanResponse env answer.response).1 = []
    · simp [silent, blank, ModelSide.answer, ModelSide.spend, ModelSide.record, answerEntries,
        answerMessages, answerRecords, recordsFor_nil, nothing]
    · simp [silent, blank, ModelSide.answer, ModelSide.spend, ModelSide.record, answerEntries,
        answerMessages, answerRecords, nothing]

theorem modelSide_handleLlmResponse_gone (turn : ModelTurn) (answer : Answer)
    (gone : session.connected = false) :
    (handleLlmResponse env turn answer session).modelSide =
      session.modelSide.spend answer.usage := by
  have logged : ((session.recordUsage answer.usage).log (.response answer.response)).modelSide =
      session.modelSide.spend answer.usage :=
    (modelSide_log rfl _).trans (modelSide_recordUsage answer.usage session)
  have still : ((session.recordUsage answer.usage).log (.response answer.response)).connected =
      false := by
    have shell := Session.shell_recordUsage answer.usage session
    exact (congrArg ShellView.connected shell).trans gone
  simpa [handleLlmResponse, still] using logged

@[simp] theorem modelSide_handleLlmError (error : Str) (session : Session) :
    (handleLlmError error session).modelSide = session.modelSide := by
  simp only [handleLlmError]
  split
  · exact (modelSide_showPrompt ..).trans (modelSide_log rfl session)
  · exact modelSide_log rfl session

/-! ## The model turn -/

theorem modelSide_asking (command : Str) (observation : Option Str) (session : Session) :
    (asking command observation session).modelSide =
      session.modelSide.begin command observation := rfl

theorem modelSide_opened (command : Str) (cwd : Str) (session : Session) :
    ((session.log (.prompt command cwd)).openStream env).modelSide =
      session.modelSide.start := by
  simp [Session.modelSide, Session.log, Session.openStream, ModelSide.start, LogEvent.isPrompt]

theorem talks_startTurn {command : Str} {observation : Option Str}
    (visible : Text.strip (userMessage command observation) ≠ [])
    (asked : refusesTurn env session = false) (connected : session.connected = true)
    (clear : session.pendingClaim = []) :
    Talks env session (startTurn env command (asking command observation session)) := by
  have opened := @modelSide_opened env command
    (asking command observation session).cwd (asking command observation session)
  rw [modelSide_asking] at opened
  cases provider : env.provider (asking command observation session).commandCount
      (buildRequest env (asking command observation session)) with
  | pending =>
      refine .waiting command observation visible asked
        ⟨command, buildRequest env (asking command observation session), env.config.stream⟩ rfl ?_
      rw [← opened]
      simp only [startTurn, provider, Session.modelSide, Session.schedule, Agenda.add,
        outstandingIn_append]
      rfl
  | fired answer =>
      refine .fired command observation visible asked _ _ answer provider ?_
      rw [← opened]
      simp only [startTurn, provider]
      exact modelSide_handleLlmResponse _ answer connected clear
  | failed error =>
      refine .failed command observation visible asked ?_
      rw [← opened]
      simp only [startTurn, provider]
      exact modelSide_handleLlmError ..

theorem talks_processCommandWithLlm {command : Str} {observation : Option Str}
    (visible : Text.strip (userMessage command observation) ≠ [])
    (clear : session.pendingClaim = []) :
    Talks env session (processCommandWithLlm env command observation session) := by
  rcases processCommandWithLlm_turned env command observation session with
    ⟨refused, isNext⟩ | ⟨refused, isNext⟩ | ⟨asked, connected, isNext⟩ |
      ⟨asked, disconnected, isNext⟩
  · rw [isNext]
    exact .refused refused ((modelSide_refuseTurn _).trans (modelSide_logSessionBudget _))
  · rw [isNext]
    exact .refused refused ((modelSide_refuseTurn _).trans (modelSide_logTokenBudget _))
  · rw [isNext]
    exact talks_startTurn visible asked connected clear
  · rw [isNext]
    exact .gone command observation visible asked
      ((modelSide_handleLlmError ..).trans (modelSide_asking ..))

theorem Talks.pendingClaim (talks : Talks env session next) :
    next.pendingClaim = session.pendingClaim := by
  have side : next.modelSide.pendingClaim = session.modelSide.pendingClaim := by
    induction talks with
    | quiet same => rw [same]
    | finished number same => rw [same]; rfl
    | claimed command answer same => rw [same]; rfl
    | refused refused same => rw [same]; rfl
    | gone command observation visible asked same => rw [same]; rfl
    | waiting command observation visible asked turn named same => rw [same]; rfl
    | fired command observation visible asked number request answer answered same => rw [same]; rfl
    | failed command observation visible asked same => rw [same]; rfl
    | trans first second inductionFirst inductionSecond =>
        exact inductionSecond.trans inductionFirst
  exact side

end Frame

end Protocol

end LlmHoneypot
