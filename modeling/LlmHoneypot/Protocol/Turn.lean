import LlmHoneypot.Protocol.Session

/-! # The model turn

From `_process_command_with_llm` to `_handle_llm_response`: the budgets, the
request, and what an answer does to the session. -/

namespace LlmHoneypot

namespace Protocol

open Downloader

/-! ## Cleaning an answer -/

/-- The length of a match of `` ```\w*\n? `` at the head of a text. -/
def fenceLength (isWordChar : Char → Bool) (text : Str) : Nat :=
  if "```".toList.isPrefixOf text then
    let afterFence := text.drop 3
    let language := afterFence.takeWhile isWordChar
    let newline := if (afterFence.drop language.length).head? = some '\n' then 1 else 0
    3 + language.length + newline
  else 0

def stripMarkdown (isWordChar : Char → Bool) (text : Str) : Str :=
  Text.strip ((Text.substitute (fenceLength isWordChar) [] text).filter (· ≠ '`'))

def cleanResponse (env : Env) (response : Str) : Str × Bool :=
  stripLeakedObservation (stripMarkdown env.isWordChar response)

/-! ## Budgets -/

def overCommandBudget (env : Env) (session : Session) : Bool :=
  env.config.maxCommandsPerSession < session.commandCount

def overTokenBudget (env : Env) (session : Session) : Bool :=
  0 < env.config.maxTokensPerSession &&
    env.config.maxTokensPerSession ≤ (session.sessionTokens : Int)

namespace Session

def recordUsage (usage : Option Usage) (session : Session) : Session :=
  match usage with
  | none => { session with turnsWithoutUsage := session.turnsWithoutUsage + 1 }
  | some usage => { session with sessionTokens := session.sessionTokens + usage.spend }

def logSessionBudget (session : Session) : Session :=
  if session.budgetExhaustedLogged then session
  else
    { session.log (.sessionBudgetExhausted session.commandCount) with
      budgetExhaustedLogged := true }

def logTokenBudget (session : Session) : Session :=
  if session.tokenBudgetLogged then session
  else
    { session.log (.tokenBudgetExhausted session.sessionTokens) with
      tokenBudgetLogged := true }

end Session

def CANNOT_FORK : Str := "bash: cannot fork: Resource temporarily unavailable\n".toList

/-! ## Ledger -/

def recordClaim (env : Env) (answered command answer : Str) (source : ClaimSource)
    (session : Session) : Session :=
  if ¬ env.config.factLedger ∨ answer = [] then session
  else
    match env.factFamily command with
    | none => session
    | some key =>
        if key = [] then session
        else
          { session with
            world :=
              { session.world with maxFactsInPrompt := env.config.maxFactsInPrompt }.recordClaim
                key answer session.commandCount source (Text.strip command)
            records := session.records ++ [⟨answered, Text.strip command, key, source⟩] }

/-! ## Answers -/

def onStreamChunk (text : Str) (session : Session) : Session :=
  if text = [] then session else session.write text

def showAnswer (env : Env) (streamed : Bool) (response : Str) (session : Session) : Session :=
  if response = [] then session
  else
    match cleanResponse env response with
    | (clean, leaked) =>
        let session := if leaked then session.log .observationLeak else session
        let session :=
          { session with
            commandHistory := session.commandHistory ++ ["System: ".toList ++ clean]
            spoken := session.spoken ++ [LLMMessage.mk .assistant clean] }
        let session := session.write (if streamed then "\n".toList else clean ++ "\n".toList)
        { session with pendingClaim := clean }

/-- The last lines of `_handle_llm_response`: a pending claim is recorded under
the last command sent to the model. -/
def recordPending (env : Env) (answered : Str) (session : Session) : Session :=
  if session.pendingClaim = [] then session
  else
    recordClaim env answered session.lastLlmCommand session.pendingClaim .llm
      { session with pendingClaim := [] }

def handleLlmResponse (env : Env) (turn : ModelTurn) (answer : Answer) (session : Session) :
    Session :=
  let session := (session.recordUsage answer.usage).log (.response answer.response)
  if session.connected then
    recordPending env turn.command
      ((showAnswer env turn.streamed answer.response session).showPrompt 0 0)
  else session

def handleLlmError (error : Str) (session : Session) : Session :=
  let session := session.log (.error error)
  if session.connected then session.showPrompt 0 0 else session

/-! ## Requests -/

def lastTurns (window : Int) (history : List Str) : List Str :=
  if 0 < window then history.drop (history.length - window.toNat)
  else history.drop (-window).toNat

def toMessage (raw : Str) : Option LLMMessage :=
  let user := "User:".toList
  let system := "System:".toList
  if user.isPrefixOf raw then some ⟨.user, Text.strip (raw.drop user.length)⟩
  else if system.isPrefixOf raw then some ⟨.assistant, Text.strip (raw.drop system.length)⟩
  else none

def requestMessages (window : Int) (history : List Str) : List LLMMessage :=
  ((lastTurns window history).filterMap toMessage).dropWhile (·.role = .assistant)

def buildRequest (env : Env) (session : Session) : LLMRequest :=
  { stableHead := env.systemContext session.effectiveUser session.cwd
    mutableTail := env.promptSection session.world
    messages := requestMessages env.config.historyWindowTurns session.commandHistory }

def streams (env : Env) : Bool := env.config.stream && env.supportsStreaming

def liveNumbers (env : Env) (session : Session) : List Nat :=
  if streams env then [session.agenda.next] else []

namespace Session

def openStream (env : Env) (session : Session) : Session :=
  { session with streams := session.streams ++ liveNumbers env session }

def skipNumber (session : Session) : Session :=
  { session with agenda := session.agenda.skip }

end Session

def startTurn (env : Env) (command : Str) (session : Session) : Session :=
  let turn : ModelTurn := ⟨command, buildRequest env session, env.config.stream⟩
  let opened := (session.log (.prompt command session.cwd)).openStream env
  match env.provider session.commandCount turn.request with
  | .pending => opened.schedule (.model turn)
  | .fired answer => handleLlmResponse env turn answer opened.skipNumber
  | .failed error => handleLlmError error opened.skipNumber

def userMessage (command : Str) : Option Str → Str
  | some observation => observation ++ "\n".toList ++ command
  | none => command

def beginTurn (command : Str) (observation : Option Str) (session : Session) : Session :=
  { session with
    lastLlmCommand := command
    commandHistory :=
      session.commandHistory ++ ["User: ".toList ++ userMessage command observation]
    spoken := session.spoken ++ [LLMMessage.mk .user (userMessage command observation)] }

def refuseTurn (session : Session) : Session := (session.write CANNOT_FORK).showPrompt 0 0

def processCommandWithLlm (env : Env) (command : Str) (observation : Option Str)
    (session : Session) : Session :=
  let session := { session with commandCount := session.commandCount + 1 }
  if overCommandBudget env session then refuseTurn session.logSessionBudget
  else if overTokenBudget env session then refuseTurn session.logTokenBudget
  else
    let session := beginTurn command observation session
    if session.connected then startTurn env command session
    else
      -- After the connection is lost there is no user to build a context for;
      -- only a fetch's callback gets here, and its errback logs the exception.
      handleLlmError "'NoneType' object has no attribute 'username'".toList session

/-! ## Frame -/

namespace Session

@[simp] theorem shell_recordUsage (usage : Option Usage) (session : Session) :
    (session.recordUsage usage).shell = session.shell := by
  cases usage <;> rfl

@[simp] theorem shell_openStream (env : Env) (session : Session) :
    (session.openStream env).shell = session.shell := rfl

@[simp] theorem shell_skipNumber (session : Session) :
    session.skipNumber.shell = session.shell := rfl

@[simp] theorem shell_logSessionBudget (session : Session) :
    session.logSessionBudget.shell = session.shell := by
  unfold logSessionBudget
  split <;> rfl

@[simp] theorem shell_logTokenBudget (session : Session) :
    session.logTokenBudget.shell = session.shell := by
  unfold logTokenBudget
  split <;> rfl

end Session

section Frame

variable (env : Env)

@[simp] theorem userStack_recordClaim (world : WorldState) (key excerpt : Str) (turn : Nat)
    (source : ClaimSource) (command : Str) :
    (world.recordClaim key excerpt turn source command).userStack = world.userStack := by
  unfold WorldState.recordClaim
  split <;> rfl

@[simp] theorem shell_recordClaim (answered command answer : Str) (source : ClaimSource)
    (session : Session) :
    (recordClaim env answered command answer source session).shell = session.shell := by
  unfold recordClaim
  split
  · rfl
  · split
    · rfl
    · split
      · rfl
      · exact Session.shell_world (by simp)

@[simp] theorem shell_onStreamChunk (text : Str) (session : Session) :
    (onStreamChunk text session).shell = session.shell := by
  unfold onStreamChunk
  split
  · rfl
  · exact session.shell_write text

@[simp] theorem shell_showAnswer (streamed : Bool) (response : Str) (session : Session) :
    (showAnswer env streamed response session).shell = session.shell := by
  unfold showAnswer
  split
  · rfl
  · rcases cleanResponse env response with ⟨clean, leaked⟩
    refine (Session.shell_write _ _).trans ?_
    cases leaked <;> rfl

@[simp] theorem shell_recordPending (answered : Str) (session : Session) :
    (recordPending env answered session).shell = session.shell := by
  unfold recordPending
  split
  · rfl
  · exact shell_recordClaim env ..

@[simp] theorem shell_handleLlmResponse (turn : ModelTurn) (answer : Answer)
    (session : Session) :
    (handleLlmResponse env turn answer session).shell = session.shell := by
  simp only [handleLlmResponse]
  split <;> simp

@[simp] theorem shell_handleLlmError (error : Str) (session : Session) :
    (handleLlmError error session).shell = session.shell := by
  simp only [handleLlmError]
  split <;> simp

@[simp] theorem shell_startTurn (command : Str) (session : Session) :
    (startTurn env command session).shell = session.shell := by
  simp only [startTurn]
  split <;> simp only [Session.shell_schedule, shell_handleLlmResponse, shell_handleLlmError] <;>
    rfl

@[simp] theorem shell_refuseTurn (session : Session) :
    (refuseTurn session).shell = session.shell := by
  simp [refuseTurn]

@[simp] theorem shell_processCommandWithLlm (command : Str) (observation : Option Str)
    (session : Session) :
    (processCommandWithLlm env command observation session).shell = session.shell := by
  simp only [processCommandWithLlm]
  split
  · simp only [shell_refuseTurn, Session.shell_logSessionBudget]
    rfl
  · split
    · simp only [shell_refuseTurn, Session.shell_logTokenBudget]
      rfl
    · split
      · simp only [shell_startTurn]
        rfl
      · simp only [shell_handleLlmError]
        rfl

end Frame

end Protocol

end LlmHoneypot
