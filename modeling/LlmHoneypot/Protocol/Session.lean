import LlmHoneypot.CmdParser
import LlmHoneypot.Downloader.Fetch
import LlmHoneypot.Foundation.Agenda
import LlmHoneypot.Interactive
import LlmHoneypot.Responder

/-! # Session state

The attributes of `HoneyPotInteractiveProtocol` that command handling reads and
writes, what the session leaves with the reactor, and what can be observed of it.
-/

namespace LlmHoneypot

namespace Protocol

open Downloader Interactive Responder
open CmdParser (CmdMutation)

/-! ## Configuration -/

/-- The `[llm]` options with their fallbacks. -/
structure Config where
  captureDownloads : Bool := true
  deterministicResponses : Bool := true
  interactivePrograms : Bool := true
  pipeFilters : Bool := true
  factLedger : Bool := true
  stream : Bool := false
  fastpathJitterMsMin : Int := 5
  fastpathJitterMsMax : Int := 15
  maxCommandsPerSession : Int := 200
  maxTokensPerSession : Int := 0
  maxFactsInPrompt : Int := 12
  historyWindowTurns : Int := 16
  deriving DecidableEq, Repr

/-! ## Requests -/

inductive Role
  | user
  | assistant
  deriving DecidableEq, Repr

structure LLMMessage where
  role : Role
  content : Str
  deriving DecidableEq, Repr

structure LLMRequest where
  stableHead : Str
  mutableTail : Str
  messages : List LLMMessage
  deriving DecidableEq, Repr

structure Usage where
  inputTokens : Nat := 0
  outputTokens : Nat := 0
  cachedTokens : Nat := 0
  cacheCreationTokens : Nat := 0
  deriving DecidableEq, Repr

def Usage.spend (usage : Usage) : Nat :=
  usage.inputTokens + usage.outputTokens + usage.cachedTokens + usage.cacheCreationTokens

/-- An answer with its usage, `none` where the provider reported none. -/
structure Answer where
  response : Str
  usage : Option Usage := none
  deriving DecidableEq, Repr

structure ModelTurn where
  command : Str
  request : LLMRequest
  streamed : Bool
  deriving DecidableEq, Repr

/-! ## Asynchrony -/

inductive Started (Value : Type)
  | pending
  | fired (value : Value)
  | failed (error : Str)
  deriving DecidableEq, Repr

inductive Task
  | prompt (leastMs mostMs : Int)
  | refresh
  | fetch (command : Str) (intent : DownloadIntent)
  | model (turn : ModelTurn)
  deriving DecidableEq, Repr

/-! ## Observations -/

/-- What the terminal is sent. A prompt carries whether a full-screen program was
in the foreground when it was drawn. -/
inductive Output
  | text (text : Str)
  | prompt (text : Str) (overProgram : Bool)
  | eraseDisplay
  | cursorHome
  | loseConnection
  deriving DecidableEq, Repr

def Output.isPrompt : Output → Bool
  | .prompt _ _ => true
  | _ => false

inductive LogEvent
  | input (input : Str)
  | deterministic (input cwd : Str)
  | downloadIntercept (input url : Str)
  | prompt (input cwd : Str)
  | response (output : Str)
  | observationLeak
  | sessionBudgetExhausted (count : Nat)
  | tokenBudgetExhausted (tokens : Nat)
  | editorSave (path : Str) (size : Nat)
  | error (error : Str)
  deriving DecidableEq, Repr

structure ClaimRecord where
  answered : Str
  named : Str
  key : Str
  source : ClaimSource
  deriving DecidableEq, Repr

/-! ## Session -/

structure ActiveProgram where
  program : Program
  startCwd : Str
  deriving DecidableEq, Repr

structure Session where
  loginUser : Str
  hostname : Str
  cwd : Str := "/".toList
  prevCwd : Option Str := none
  world : WorldState := {}
  clock : Nat := 0
  /-- `terminal is not None`. -/
  connected : Bool := true
  suppressPrompt : Bool := false
  program : Option ActiveProgram := none
  refreshCall : Option Nat := none
  commandCount : Nat := 0
  budgetExhaustedLogged : Bool := false
  sessionTokens : Nat := 0
  turnsWithoutUsage : Nat := 0
  tokenBudgetLogged : Bool := false
  commandHistory : List Str := []
  lastLlmCommand : Str := []
  pendingClaim : Str := []
  agenda : Agenda Task := .empty
  /-- The requests whose answer is streamed. -/
  streams : List Nat := []
  screen : List Output := []
  events : List LogEvent := []
  /-- The calls of `downloader.fetch`. -/
  fetched : List DownloadIntent := []
  /-- The mutations applied to the world for typed commands. -/
  mutated : List CmdMutation := []
  records : List ClaimRecord := []
  /-- The commands that were handled as `cd`. -/
  chdirs : List Str := []
  /-- What was said to the model and what it answered, each with its speaker. -/
  spoken : List LLMMessage := []

/-- The parts outside the session: the configuration, the tables of local
renderers, URL parsing, the network and the model provider. The numbers passed to
`network` and `provider` tell repeated calls apart. -/
structure Env where
  config : Config
  tables : Tables
  urlparse : UrlParse
  terminalRows : Nat
  network : Nat → Transfer → Started FetchResult
  supportsStreaming : Bool
  /-- A stream whose request timed out goes on: nothing closes its connection. -/
  lateChunks : Bool
  provider : Nat → LLMRequest → Started Answer
  systemContext : (username cwd : Str) → Str
  promptSection : WorldState → Str
  factFamily : Str → Option Str
  /-- The characters of the class `\w`. -/
  isWordChar : Char → Bool

def plainUrlparse : UrlParse := fun url =>
  let rest := (Text.after? "://".toList url).getD url
  let netloc := rest.takeWhile (· ≠ '/')
  .ok
    { hostname := if netloc = [] then none else some netloc
      path := rest.drop netloc.length
      port := .ok none, username := none, password := none }

/-- An environment in which no renderer answers and every Deferred is pending. -/
def Env.pending : Env :=
  { config := {}
    tables := { handler := fun _ _ _ _ => none, filter := fun _ _ _ => none }
    urlparse := plainUrlparse
    terminalRows := 24
    network := fun _ _ => .pending
    supportsStreaming := false
    lateChunks := false
    provider := fun _ _ => .pending
    systemContext := fun _ _ => []
    promptSection := fun _ => []
    factFamily := fun _ => none
    isWordChar := fun ch => ch.isAlphanum || ch == '_' }

namespace Session

def root : Session := { loginUser := "root".toList, hostname := "h".toList }

def log (event : LogEvent) (session : Session) : Session :=
  { session with events := session.events ++ [event] }

def write (text : Str) (session : Session) : Session :=
  if session.connected then { session with screen := session.screen ++ [.text text] }
  else session

def schedule (task : Task) (session : Session) : Session :=
  { session with agenda := session.agenda.add task }

def effectiveUser (session : Session) : Str := session.world.effectiveUser session.loginUser

def shellContext (session : Session) : ShellContext :=
  { world := session.world, cwd := session.cwd, loginUser := session.loginUser,
    hostname := session.hostname, now := session.clock }

def promptText (session : Session) : Str :=
  let user := session.effectiveUser
  let sigil := if user = "root".toList then '#' else '$'
  user ++ '@' :: session.hostname ++ ':' :: session.cwd ++ [sigil, ' ']

def writePromptSafe (session : Session) : Session :=
  if session.connected then
    { session with
      screen := session.screen ++ [.prompt session.promptText session.program.isSome] }
  else session

/-- `_show_prompt`: a positive jitter leaves the prompt to a delayed call. -/
def showPrompt (jitterMinMs jitterMaxMs : Int) (session : Session) : Session :=
  if session.suppressPrompt then session
  else
    let maxJitter := max 0 jitterMaxMs
    let minJitter := max 0 (min jitterMinMs maxJitter)
    if 0 < maxJitter then session.schedule (.prompt minJitter maxJitter)
    else session.writePromptSafe

end Session

def showPromptJittered (env : Env) (session : Session) : Session :=
  session.showPrompt env.config.fastpathJitterMsMin env.config.fastpathJitterMsMax

/-! ## Frame

What only the shell side of the session changes. The model side, the prompt and
the log leave it alone. -/

structure ShellView where
  loginUser : Str
  hostname : Str
  cwd : Str
  prevCwd : Option Str
  clock : Nat
  userStack : List Str
  connected : Bool
  suppressPrompt : Bool
  program : Option ActiveProgram
  fetched : List DownloadIntent
  mutated : List CmdMutation
  chdirs : List Str

namespace Session

def shell (session : Session) : ShellView :=
  { loginUser := session.loginUser, hostname := session.hostname, cwd := session.cwd,
    prevCwd := session.prevCwd, clock := session.clock,
    userStack := session.world.userStack, connected := session.connected,
    suppressPrompt := session.suppressPrompt, program := session.program,
    fetched := session.fetched, mutated := session.mutated, chdirs := session.chdirs }

@[simp] theorem shell_log (event : LogEvent) (session : Session) :
    (session.log event).shell = session.shell := rfl

theorem shell_world {world : WorldState} {session : Session}
    (same : world.userStack = session.world.userStack) :
    ({ session with world } : Session).shell = session.shell := by
  simp only [shell, same]

@[simp] theorem shell_schedule (task : Task) (session : Session) :
    (session.schedule task).shell = session.shell := rfl

@[simp] theorem shell_write (text : Str) (session : Session) :
    (session.write text).shell = session.shell := by
  unfold write
  split <;> rfl

@[simp] theorem shell_writePromptSafe (session : Session) :
    session.writePromptSafe.shell = session.shell := by
  unfold writePromptSafe
  split <;> rfl

@[simp] theorem shell_showPrompt (jitterMin jitterMax : Int) (session : Session) :
    (session.showPrompt jitterMin jitterMax).shell = session.shell := by
  simp only [showPrompt]
  split
  · rfl
  · split
    · rfl
    · exact session.shell_writePromptSafe

end Session

@[simp] theorem shell_showPromptJittered (env : Env) (session : Session) :
    (showPromptJittered env session).shell = session.shell :=
  session.shell_showPrompt _ _

end Protocol

end LlmHoneypot
