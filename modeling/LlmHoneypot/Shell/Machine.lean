import LlmHoneypot.Foundation.EventRun
import LlmHoneypot.Foundation.ShellLexer
import LlmHoneypot.Shell.Commands
import LlmHoneypot.Shell.Pipe

/-! # Execution of command lines

`shell/honeypot.py`, `shell/command.py` and `call_command`. The functions call each
other while they work on one command stack; what is still to be done in the calls that
have not returned is the agenda. -/

namespace LlmHoneypot

namespace Shell

variable {World : Type}

/-! ## Reading a pending command -/

structure Stage where
  command : Str
  rargs : List Str
  redirects : List Redirection
  deriving DecidableEq, Repr

inductive Parsed
  | empty
  | redirections (ops : List Redirection)
  | commands (environ : Environ) (stages : List Stage)
  deriving DecidableEq, Repr

def assignments (environ : Environ) : List Str → Environ × List Str
  | [] => (environ, [])
  | piece :: pieces =>
      if '=' ∈ piece then
        let key := piece.takeWhile (· ≠ '=')
        assignments (environ.set key (piece.drop (key.length + 1))) pieces
      else (environ, piece :: pieces)

def stage? (tokens : List Str) : Option Stage :=
  match CommandParser.parseRedirections tokens with
  | (command :: rargs, redirects) => some ⟨command, rargs, redirects⟩
  | ([], _) => none

def parseCommand (environ : Environ) (tokens : List Str) : Parsed :=
  let (environ, tokens) := assignments environ tokens
  match tokens.splitOn "|".toList with
  | first :: others =>
      match CommandParser.parseRedirections first with
      | (command :: rargs, redirects) =>
          .commands environ (⟨command, rargs, redirects⟩ :: others.filterMap stage?)
      | ([], ops) => if ops = [] then .empty else .redirections ops
  | [] => .empty

/-! ## Tasks -/

structure Search where
  cmdExpr : Str
  pos : Nat
  openingCount : Nat := 1
  closingCount : Nat := 0
  deriving DecidableEq, Repr

/-- Where the loop of `lineReceived` stands: its shell, the text that its lexer has
left and the tokens of the command that it collects. -/
structure Reading where
  shell : Nat
  lexer : Str
  tokens : List Str := []
  deriving DecidableEq, Repr

/-- The loop of `_execute_subshell_with_full_output`; `last` says that its lexer is
at the end. -/
structure Subshell where
  lexer : Str
  currentCmdTokens : List Str := []
  accumulatedOutput : Str := []
  last : Bool := false
  deriving DecidableEq, Repr

inductive Purpose
  /-- It is written to the terminal. -/
  | execution
  /-- It is a part of a word: what stands before it and the rest of the loop. -/
  | substitution (result : Str) (search : Search)
  deriving DecidableEq, Repr

inductive Task (World : Type)
  | runOrPrompt (shell : Nat)
  | redirect (shell : Nat) (ops : List Redirection)
  /-- The stages that are still without a pipe, the last one first. -/
  | build (shell : Nat) (environ : Environ) (stages : List Stage) (pp : Option Nat)
  | callCommand (pp : Nat)
  | perform (id pp : Nat) (actions : List (Action World))
  | outConnectionLost
  | popShell
  | restoreDepth (depth : Nat)
  | readTokens (reading : Reading)
  | collectSubshell (reading : Reading) (cmdTokens : List Str) (openingCount closingCount : Nat)
  | searchSubshell (reading : Reading) (search : Search)
  | substitute (reading : Reading) (result : Str) (search : Search)
  | subshell (reading : Reading) (purpose : Purpose) (loop : Subshell)
  | captured

def Task.reading? : Task World → Option Nat
  | .readTokens reading | .collectSubshell reading _ _ _ | .searchSubshell reading _
  | .substitute reading _ _ | .subshell reading _ _ => some reading.shell
  | _ => none

structure Machine (World : Type) where
  session : Session World
  agenda : List (Task World) := []
  /-- An exception left `lineReceived` of the protocol. -/
  raised : Bool := false

/-! ## Exceptions -/

def syntaxError (env : Env World) (shell : Nat) (session : Session World) : Session World :=
  ((session.print "-bash: syntax error: unexpected end of file\n".toList).setPending
    shell []).showPrompt env shell

def unwind (env : Env World) (session : Session World) : List (Task World) → Machine World
  | [] => { session, raised := true }
  | .restoreDepth depth :: agenda => unwind env { session with scriptDepth := depth } agenda
  | task :: agenda =>
      match task.reading? with
      | some shell => { session := syntaxError env shell session, agenda }
      | none => unwind env session agenda

/-! ## Running pending commands -/

def runNext (shell : Nat) (tokens : List Str) (agenda : List (Task World))
    (session : Session World) : Machine World :=
  match parseCommand (session.shell shell).environ tokens with
  | .empty => { session, agenda := .runOrPrompt shell :: agenda }
  | .redirections ops => { session, agenda := .redirect shell ops :: agenda }
  | .commands environ stages =>
      { session, agenda := .build shell environ stages.reverse none :: agenda }

def runOrPrompt (env : Env World) (shell : Nat) (agenda : List (Task World))
    (session : Session World) : Machine World :=
  match (session.shell shell).cmdpending with
  | tokens :: pending => runNext shell tokens agenda (session.setPending shell pending)
  | [] => { session := session.showPrompt env shell, agenda }

def runCommand (env : Env World) (shell : Nat) (agenda : List (Task World))
    (session : Session World) : Machine World :=
  match (session.shell shell).cmdpending with
  | tokens :: pending => runNext shell tokens agenda (session.setPending shell pending)
  | [] =>
      match session.pp with
      | none => unwind env session agenda
      | some pp =>
          if (session.pipe pp).nextCommand.isSome then { session, agenda }
          else if (session.shell shell).interactive then
            { session := session.showPrompt env shell, agenda }
          else if session.cmdstack.length = 1 then
            { session := { session with ended := true }, agenda }
          else { session, agenda }

def resume (env : Env World) (agenda : List (Task World)) (session : Session World) :
    Machine World :=
  match session.cmdstack with
  | .shell shell :: _ => runCommand env shell agenda session
  | .command _ :: _ | [] => { session, agenda }

/-- `exit` of a command; a frame stands on the stack once at most. -/
def exitCommand (env : Env World) (id : Nat) (agenda : List (Task World))
    (session : Session World) : Machine World :=
  if session.cmdstack = [] then { session := { session with ended := true }, agenda }
  else if .command id ∈ session.cmdstack then
    resume env agenda
      { session with
        cmdstack := session.cmdstack.erase (.command id), removed := session.removed ++ [id] }
  else unwind env session agenda

def redirectOnly (env : Env World) (shell : Nat) (ops : List Redirection)
    (session : Session World) : Option Nat × Session World :=
  newPipe env
    { cmd := none, redirect := (session.shell shell).redirect, redirections := ops } session

/-- The message about a stage without a command; `false` where it raises. -/
def reportNotFound (env : Env World) (shell : Nat) (stage : Stage) (session : Session World) :
    Bool × Session World :=
  let message := Utf8.encode ("-bash: ".toList ++ stage.command ++ ": command not found\n".toList)
  if stage.redirects = [] then
    (true, { session with terminal := session.terminal ++ message })
  else
    match redirectOnly env shell stage.redirects session with
    | (some pp, session) => (true, writeStderr env message pp session)
    | (none, session) => (false, session)

def commandNotFound (env : Env World) (shell : Nat) (stage : Stage) (agenda : List (Task World))
    (session : Session World) : Machine World :=
  match reportNotFound env shell stage session with
  | (false, session) => unwind env session agenda
  | (true, session) =>
      let ended := env.exec && (session.shell shell).cmdpending.isEmpty
      { session := { session with ended := session.ended || ended }
        agenda := .runOrPrompt shell :: agenda }

def buildStage (env : Env World) (shell : Nat) (environ : Environ) (stage : Stage)
    (stages : List Stage) (lastpp : Option Nat) (agenda : List (Task World))
    (session : Session World) : Machine World :=
  match getCommand env stage.command (Text.splitChar ':' environ.path) session.world with
  | none => unwind env session agenda
  | some none => commandNotFound env shell stage agenda session
  | some (some cmd) =>
      match newPipe env
          { cmd := some cmd, cmdargs := stage.rargs, nextCommand := lastpp
            redirect := (session.shell shell).redirect, redirections := stage.redirects }
          session with
      | (none, session) => unwind env session agenda
      | (some pp, session) => { session, agenda := .build shell environ stages (some pp) :: agenda }

def callBuilt (shell : Nat) (pp : Option Nat) (agenda : List (Task World))
    (session : Session World) : Machine World :=
  match pp with
  | none => { session, agenda }
  | some pp =>
      if (session.pipe pp).hasRedirectionError then
        { session, agenda := .runOrPrompt shell :: agenda }
      else { session, agenda := .callCommand pp :: agenda }

def callCommand (env : Env World) (pp : Nat) (agenda : List (Task World))
    (session : Session World) : Machine World :=
  let pipe := session.pipe pp
  let session := { session with pp := some pp }
  match session.cmdstack, pipe.cmd with
  | [], _ | _, none => unwind env session agenda
  | _ :: _, some cmd =>
      let id := session.started.length
      let actions := commandStart env cmd pipe.cmdargs pipe.inputData session.scriptDepth session.world
      { session :=
          { session with
            cmdstack := .command id :: session.cmdstack
            started := session.started ++ [⟨cmd, pipe.cmdargs, pipe.inputData⟩] }
        agenda := .perform id pp actions :: .outConnectionLost :: agenda }

def outConnectionLost (agenda : List (Task World)) (session : Session World) : Machine World :=
  match session.pp.bind fun pp => (session.pipe pp).nextCommand with
  | some next => { session, agenda := .callCommand next :: agenda }
  | none => { session, agenda }

/-! ## Actions of commands -/

def executeCommands (env : Env World) (cmds : Str) (agenda : List (Task World))
    (session : Session World) : Machine World :=
  let shell := session.shells.next
  { session := session.pushShell { interactive := false, environ := env.environ }
    agenda := .readTokens { shell, lexer := cmds } :: .popShell :: agenda }

def frameEnviron (env : Env World) (session : Session World) : List Frame → Environ
  | [] => env.environ
  | .shell shell :: _ => (session.shell shell).environ
  | .command _ :: below => frameEnviron env session below

/-- `SHLVL` of a shell in a shell; `none` where the old value is no number. -/
def nextLevel (parent : Environ) : Option Str :=
  match parent.get? "SHLVL".toList with
  | none => some "1".toList
  | some level =>
      if CommandParser.isdigit level then some (Text.decimal (CommandParser.int level + 1))
      else none

def interactiveShell (env : Env World) (id : Nat) (agenda : List (Task World))
    (session : Session World) : Machine World :=
  match session.cmdstack with
  | _ :: parent :: below =>
      match nextLevel (frameEnviron env session (parent :: below)) with
      | none => unwind env session agenda
      | some level =>
          let pushed := session.pushShell
            { interactive := true, environ := env.environ.set "SHLVL".toList level }
          let shown := pushed.showPrompt env session.shells.next
          if .command id ∈ pushed.cmdstack then
            { session :=
                { shown with
                  cmdstack := pushed.cmdstack.erase (.command id)
                  removed := session.removed ++ [id] }
              agenda }
          else unwind env pushed agenda
  | _ => unwind env session agenda

def popBelow (env : Env World) (agenda : List (Task World)) (session : Session World) :
    Machine World :=
  match session.cmdstack with
  | top :: _ :: below =>
      { session :=
          { session with cmdstack := top :: below, ended := session.ended || below.isEmpty }
        agenda }
  | _ => unwind env session agenda

/-- One action of a command; `agenda` begins with the rest of its actions. -/
def performAction (env : Env World) (id pp : Nat) (action : Action World)
    (agenda : List (Task World)) (session : Session World) : Machine World :=
  match action with
  | .output output => { session := performOutput env pp session output, agenda }
  | .exit => exitCommand env id agenda session
  | .raise => unwind env session agenda
  | .executeCommands cmds => executeCommands env cmds agenda session
  | .executeScript cmds =>
      let depth := session.scriptDepth
      executeCommands env cmds (.restoreDepth depth :: agenda)
        { session with scriptDepth := depth + 1 }
  | .interactiveShell => interactiveShell env id agenda session
  | .popShell => popBelow env agenda session
  | .insertCommand cmd args input =>
      match session.pp, newPipe env { cmd := some cmd, cmdargs := args, inputData := input } session with
      | some current, (some inserted, session) =>
          { session := insertCommand inserted current session, agenda }
      | _, (_, session) => unwind env session agenda
  | .outConnectionLost => { session, agenda := .outConnectionLost :: agenda }

end Shell

end LlmHoneypot
