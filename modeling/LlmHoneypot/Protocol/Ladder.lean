import LlmHoneypot.CmdChain
import LlmHoneypot.Foundation.Utf8
import LlmHoneypot.Protocol.Turn

/-! # The dispatch ladder

From `lineReceived` down to the stage that answers a command: fast path, local
renderer, full-screen program, download, model. -/

namespace LlmHoneypot

namespace Protocol

open CmdChain Downloader Interactive Responder
open CmdParser (CmdMutation parseInputMutations)

/-! ## Mutations -/

def snippetLength : Nat := 200

def applyMutation (user : Str) (now : Nat) (world : WorldState) : CmdMutation → WorldState
  | .createFile path content =>
      world.addFile path (Text.utf8Length content) none now .created none
        (some (content.take snippetLength))
  | .appendFile path content =>
      let existing := world.files.get? path
      let content := ((existing.bind (·.contentSnippet)).getD []) ++ content
      world.addFile path (Text.utf8Length content) none now
        (if existing.isSome then .edited else .created) none
        (some (content.take snippetLength))
  | .removeFile path => world.popFile path
  | .copyFile path dstPath =>
      match world.files.get? path with
      | some src =>
          world.addFile dstPath src.sizeBytes src.sha256 now .created none src.contentSnippet
      | none => world
  | .moveFile path dstPath =>
      match world.files.get? path with
      | some src =>
          (world.popFile path).addFile dstPath src.sizeBytes src.sha256 now src.source none
            src.contentSnippet
      | none => world
  | .setEnv name value => world.addEnv name value
  | .pushUser user => world.pushUser user
  | .popUser => world.popUser
  | .addProcess command => world.addProcess command user now

namespace Session

def applyMutations (session : Session) (mutations : List CmdMutation) : Session :=
  { session with
    world :=
      mutations.foldl
        (fun world => applyMutation (world.effectiveUser session.loginUser) session.clock world)
        session.world
    mutated := session.mutated ++ mutations }

end Session

def applyInputMutations (command : Str) (session : Session) : Session :=
  session.applyMutations (parseInputMutations command)

/-! ## Fast path -/

/-- The commands of the fast path; `leave` is `exit`, `logout` or `quit`. -/
inductive FastVerb
  | leave
  | clear
  | pwd
  | cd
  deriving DecidableEq, Repr

def fastVerb? (head : Str) : Option FastVerb :=
  if head ∈ ["exit".toList, "logout".toList, "quit".toList] then some .leave
  else if head = "clear".toList then some .clear
  else if head = "pwd".toList then some .pwd
  else if head = "cd".toList then some .cd
  else none

def newCwd (home cwd : Str) (prevCwd : Option Str) (arg : Str) : Str :=
  let base := cwd.rdropWhile (· = '/')
  let target :=
    if arg = [] ∨ arg = "~".toList then home
    else if arg = "-".toList then prevCwd.getD cwd
    else if "/".toList.isPrefixOf arg then arg
    else if arg = "..".toList then
      let parent := Text.join "/".toList (Text.splitChar '/' base).dropLast
      if parent = [] then "/".toList else parent
    else base ++ '/' :: arg
  let target := target.rdropWhile (· = '/')
  if target = [] then "/".toList else target

namespace Session

def changeDirectory (arg : Str) (session : Session) : Session :=
  { session with
    prevCwd := some session.cwd
    cwd := newCwd (homeFor session.loginUser) session.cwd session.prevCwd arg }

def send (outputs : List Output) (session : Session) : Session :=
  if session.connected then { session with screen := session.screen ++ outputs } else session

end Session

def handleCd (env : Env) (arg : Str) (session : Session) : Session :=
  showPromptJittered env (session.changeDirectory arg)

/-- The word of the fast path that a stripped, simple command begins with. -/
def isFastCommand (command : Str) : Bool :=
  isSimple (Text.strip command) && (fastVerb? (Text.firstWord (Text.strip command))).isSome

def runFastVerb (env : Env) (command rest : Str) (session : Session) : FastVerb → Session
  | .leave =>
      if session.world.userStack = [] then session.send [.loseConnection]
      else showPromptJittered env (session.applyMutations [.popUser])
  | .clear => showPromptJittered env (session.send [.eraseDisplay, .cursorHome])
  | .pwd => showPromptJittered env (session.write (session.cwd ++ "\n".toList))
  | .cd =>
      handleCd env (Text.strip rest) { session with chdirs := session.chdirs ++ [command] }

/-- The session after a command of the fast path, `none` for every other. -/
def tryFastpath (env : Env) (command : Str) (session : Session) : Option Session :=
  let stripped := Text.strip command
  if stripped = [] then some (showPromptJittered env session)
  else if ¬ isSimple stripped then none
  else
    (fastVerb? (Text.firstWord stripped)).map
      (runFastVerb env command (Text.afterFirstWord stripped) session)

/-! ## Local renderers -/

def respondIn (env : Env) (command : Str) (session : Session) : Option ResponderResult :=
  respond env.tables env.config.pipeFilters command session.shellContext

def emitDeterministic (env : Env) (command : Str) (result : ResponderResult)
    (session : Session) : Session :=
  let session := session.log (.deterministic command session.cwd)
  let session := if result.output = [] then session else session.write result.output
  recordClaim env command command result.output .deterministic
    (showPromptJittered env session)

def tryDeterministic (env : Env) (command : Str) (session : Session) : Option Session :=
  if env.config.deterministicResponses then
    (respondIn env command session).map (emitDeterministic env command · session)
  else none

/-! ## Full-screen programs -/

def programFileContent (env : Env) (session : Session) (path : Str) : Option Str :=
  let resolved := resolvePath path session.shellContext
  let captured := ((session.world.files.get? resolved).bind (·.contentSnippet)).getD []
  if captured ≠ [] then some captured
  else
    match respondIn env ("cat ".toList ++ resolved) session with
    | some cat =>
        if cat.output ≠ [] ∧ ¬ Text.contains "No such file".toList cat.output then
          some (cat.output.rdropWhile (· = '\n'))
        else none
    | none => none

def topFrame (env : Env) (cwd : Str) (session : Session) : Str :=
  match respond env.tables env.config.pipeFilters "top -bn1".toList
      { session.shellContext with cwd } with
  | some result => result.output
  | none => "top - load average: 0.00\n".toList

def scheduleProgramRefresh (session : Session) : Session :=
  match session.program with
  | some active =>
      if active.program.refreshes then
        { session.schedule .refresh with refreshCall := some session.agenda.next }
      else session
  | none => session

def startProgram (env : Env) (program : Program) (session : Session) : Session :=
  scheduleProgramRefresh
    (({ session with program := some ⟨program, session.cwd⟩ } : Session).write
      (program.renderInitial (topFrame env session.cwd session)))

def programOf (env : Env) (command : Str) (session : Session) : Option Program :=
  makeProgram command (programFileContent env session) env.terminalRows

def tryInteractive (env : Env) (command : Str) (session : Session) : Option Session :=
  if session.connected ∧ env.config.interactivePrograms then
    (programOf env command session).map (startProgram env · session)
  else none

/-! ## Downloads -/

/-- How a stage of the ladder ends: an exception leaves it, it declines, or it
has answered the command. -/
inductive Stage
  | raised
  | declined
  | handled (succeeded : Bool)
  deriving DecidableEq, Repr

/-- A captured file joins the world where the command names one. -/
def addCaptured (intent : DownloadIntent) (result : FetchResult) (session : Session) :
    Session :=
  let captured := result.outcome = .success ∨ result.outcome = .partialBody
  let outfile := intent.outfile.getD []
  if captured ∧ outfile ≠ [] then
    { session with
      world :=
        session.world.addFile outfile result.bytesDownloaded result.sha256 session.clock
          .downloaded (some result.url) none }
  else session

def onResult (env : Env) (command : Str) (intent : DownloadIntent) (result : FetchResult)
    (session : Session) : Session :=
  processCommandWithLlm env command (some (renderObservation intent result))
    (addCaptured intent result session)

def startFetch (env : Env) (plan : FetchPlan) (session : Session) : Started FetchResult :=
  match plan with
  | .finished result => .fired result
  | .gated _ transfer => env.network session.fetched.length transfer

def fetching (command : Str) (intent : DownloadIntent) (session : Session) : Session :=
  { session.log (.downloadIntercept command intent.url) with
    fetched := session.fetched ++ [intent] }

def beginFetch (env : Env) (command : Str) (intent : DownloadIntent) (session : Session) :
    Session × Stage :=
  let session := fetching command intent session
  match fetch env.urlparse intent with
  | .error _ => (session, .raised)
  | .ok plan =>
      match startFetch env plan session with
      | .pending => (session.schedule (.fetch command intent), .handled true)
      | .fired result => (onResult env command intent result session, .handled true)
      | .failed error => (handleLlmError error session, .handled true)

def tryDownloadIntercept (env : Env) (command : Str) (session : Session) : Session × Stage :=
  if env.config.captureDownloads then
    match parseDownloadCommand env.urlparse command with
    | .error _ => (session, .raised)
    | .ok none => (session, .declined)
    | .ok (some intent) => beginFetch env command intent session
  else (session, .declined)

/-! ## Chains -/

def dispatchLocal (env : Env) (command : Str) (session : Session) : Session × Stage :=
  match tryFastpath env command session with
  | some session => (session, .handled true)
  | none =>
      let session := applyInputMutations command session
      match respondIn env command session with
      | some result => (emitDeterministic env command result session, .handled (!result.isError))
      | none =>
          match tryInteractive env command session with
          | some session => (session, .handled true)
          | none => tryDownloadIntercept env command session

inductive Decision
  | skipped
  | ran (succeeded : Bool)
  | handedOver
  | raised
  deriving DecidableEq, Repr

inductive ChainEnd
  | finished
  | handedOver (remainder : Str)
  | raised
  deriving DecidableEq, Repr

structure ChainRun where
  session : Session
  decisions : List Decision
  ending : ChainEnd

def ChainRun.prepend (decision : Decision) (run : ChainRun) : ChainRun :=
  { run with decisions := decision :: run.decisions }

def remainder (command : Str) (rest : List Segment) : Str :=
  rest.foldl
    (fun text segment => text ++ ' ' :: segment.operator.text ++ ' ' :: segment.command)
    command

def Session.setSuppressPrompt (suppress : Bool) (session : Session) : Session :=
  { session with suppressPrompt := suppress }

def dispatchSegment (env : Env) (command : Str) (session : Session) : Session × Stage :=
  match dispatchLocal env command (session.setSuppressPrompt true) with
  | (session, stage) => (session.setSuppressPrompt false, stage)

def chainLoop (env : Env) : (succeeded : Bool) → List Segment → Session → ChainRun
  | _, [], session => ⟨session, [], .finished⟩
  | succeeded, segment :: rest, session =>
      if shouldRun segment.operator succeeded then
        match dispatchSegment env segment.command session with
        | (session, .raised) => ⟨session, [.raised], .raised⟩
        | (session, .declined) =>
            ⟨session, [.handedOver], .handedOver (remainder segment.command rest)⟩
        | (session, .handled succeeded) =>
            (chainLoop env succeeded rest session).prepend (.ran succeeded)
      else (chainLoop env true rest session).prepend .skipped

inductive Ending
  | returned
  | raised
  deriving DecidableEq, Repr

def finishChain (env : Env) (run : ChainRun) : Session × Ending :=
  match run.ending with
  | .finished => (run.session.showPrompt 0 0, .returned)
  | .handedOver remainder =>
      (processCommandWithLlm env remainder none (applyInputMutations remainder run.session),
        .returned)
  | .raised => (run.session, .raised)

def dispatchChain (env : Env) (segments : List Segment) (session : Session) :
    Session × Ending :=
  finishChain env (chainLoop env true segments session)

/-! ## Lines -/

def dispatchOne (env : Env) (command : Str) (session : Session) : Session × Ending :=
  match tryFastpath env command session with
  | some session => (session, .returned)
  | none =>
      let session := applyInputMutations command session
      match tryDeterministic env command session with
      | some session => (session, .returned)
      | none =>
          match tryInteractive env command session with
          | some session => (session, .returned)
          | none =>
              match tryDownloadIntercept env command session with
              | (session, .raised) => (session, .raised)
              | (session, .handled _) => (session, .returned)
              | (session, .declined) =>
                  (processCommandWithLlm env command none session, .returned)

/-- The segments of a line that is dispatched as a chain. -/
def chainSegments (line : Str) : Option (List Segment) :=
  (splitChain line).filter fun segments => 1 < segments.length

def dispatchLine (env : Env) (string : Str) (session : Session) : Session × Ending :=
  let session := session.log (.input string)
  match chainSegments string with
  | some segments => dispatchChain env segments session
  | none => dispatchOne env string session

def lineReceived (env : Env) (line : List UInt8) (session : Session) : Session × Ending :=
  match Utf8.decode line with
  | some string => dispatchLine env string session
  | none => (session, .raised)

end Protocol

end LlmHoneypot
