import LlmHoneypot.Foundation.Dict
import LlmHoneypot.Foundation.Heap
import LlmHoneypot.Foundation.Utf8
import LlmHoneypot.Shell.CommandParser

/-! # Sessions of the shell backend

The state of `HoneyPotBaseProtocol` with the shells, pipes and commands that refer to
it. Shells and pipes are shared by reference. Of the filesystem and of the commands'
own work only the operations that the shell calls are known, over a `World`. -/

namespace LlmHoneypot

namespace Shell

/-- Environment variables; there is always a `PATH`. -/
structure Environ where
  path : Str
  others : List (Str × Str)
  deriving DecidableEq, Repr

namespace Environ

def PATH : Str := "PATH".toList

def get? (environ : Environ) (name : Str) : Option Str :=
  if name = PATH then some environ.path else environ.others.lookup name

def set (environ : Environ) (name value : Str) : Environ :=
  if name = PATH then { environ with path := value }
  else { environ with others := (name, value) :: environ.others }

end Environ

inductive CommandClass
  | sh
  | exit
  | rm
  | txtcmd (data : Bytes)
  | scriptcmd (path : Str)
  | other (name : Str)
  deriving DecidableEq, Repr

inductive Frame
  | shell (shell : Nat)
  | command (id : Nat)
  deriving DecidableEq, Repr

structure HoneyPotShell where
  interactive : Bool
  redirect : Bool := false
  cmdpending : List (List Str) := []
  environ : Environ
  deriving DecidableEq, Repr

instance : Inhabited HoneyPotShell := ⟨{ interactive := false, environ := ⟨[], []⟩ }⟩

structure FileInfo where
  virtual : Str
  realFile : Str
  startSize : Nat
  deriving DecidableEq, Repr

inductive Target
  | stdin
  | terminal
  | pipe
  | capture
  | file (info : FileInfo)
  | fileInput (target : Str)
  | devnull
  deriving DecidableEq, Repr

structure PipeProtocol where
  cmd : Option CommandClass
  cmdargs : List Str
  inputData : Option Bytes
  nextCommand : Option Nat
  redirectedData : Bytes := []
  errData : Bytes := []
  targets : List (Nat × Target)
  stdoutWritten : Nat := 0
  stderrWritten : Nat := 0
  redirectionError : Bool := false
  hasRedirectionError : Bool := false
  deriving DecidableEq, Repr

instance : Inhabited PipeProtocol :=
  ⟨{ cmd := none, cmdargs := [], inputData := none, nextCommand := none, targets := [] }⟩

structure Started where
  cmd : CommandClass
  args : List Str
  input : Option Bytes
  deriving DecidableEq, Repr

structure Session (World : Type) where
  world : World
  /-- `cmdstack`, its end first. -/
  cmdstack : List Frame
  shells : Heap HoneyPotShell
  pipes : Heap PipeProtocol
  pp : Option Nat := none
  scriptDepth : Nat := 0
  /-- What was written to the terminal. -/
  terminal : Bytes := []
  /-- `processEnded` was called on the transport. -/
  ended : Bool := false
  /-- What happened: the commands that were started, and those that removed themselves. -/
  started : List Started := []
  removed : List Nat := []

inductive FileError
  | fileNotFound
  | isADirectory
  deriving DecidableEq, Repr

/-- The result of `_prepare_output_file`: `failed` is the one that only logs, `raised`
an exception that is not caught. -/
inductive Prepared
  | opened (info : FileInfo)
  | devnull
  | refused (message : Str)
  | failed
  | raised
  deriving DecidableEq, Repr

/-- What a command does besides starting and ending. -/
inductive Output (World : Type)
  | write (data : Bytes)
  | errorWrite (data : Bytes)
  | update (change : World → World)

inductive Action (World : Type)
  | output (output : Output World)
  /-- `self.exit()`. -/
  | exit
  /-- An exception that the command does not catch. -/
  | raise
  /-- A non-interactive shell is pushed, receives the line and is popped. -/
  | executeCommands (cmds : Str)
  /-- The same, one script deeper. -/
  | executeScript (cmds : Str)
  | interactiveShell
  /-- `cmdstack.pop(-2)`, and the end of the session where it was the last frame. -/
  | popShell
  | insertCommand (cmd : CommandClass) (args : List Str) (input : Option Bytes)
  | outConnectionLost

structure Env (World : Type) where
  /-- The session executes one command line and has no terminal. -/
  exec : Bool
  environ : Environ
  prompt : World → Str
  /-- `none` where it raises, for an empty text. -/
  resolvePath : Str → World → Option Str
  pathExists : Str → World → Bool
  isfile : Str → World → Bool
  fileContents : Str → World → Except FileError Bytes
  prepareOutputFile : Str → Bool → World → Prepared × World
  /-- Appending to a real file; `none` where it raises `OSError`. -/
  appendRealFile : Str → Bytes → World → Option World
  updateSize : Str → Nat → World → World
  /-- `read_data_bytes("txtcmds", path)`. -/
  txtcmds : Str → Except FileError Bytes
  /-- The names of the commands without a class of their own here. -/
  isCommand : Str → Bool
  /-- `start` of these commands, for their name, arguments and input. -/
  start : Str → List Str → Option Bytes → World → List (Action World)
  /-- What `Command_rm.help` writes. -/
  rmHelp : Str
  /-- The end of `Command_rm.call`, for its options and operands. -/
  removeFiles : (recursive force verbose : Bool) → List Str → World → List (Output World)

namespace Session

variable {World : Type} (session : Session World)

def shell (shell : Nat) : HoneyPotShell := session.shells.read shell

def pipe (pipe : Nat) : PipeProtocol := session.pipes.read pipe

def modifyPipe (pipe : Nat) (change : PipeProtocol → PipeProtocol) : Session World :=
  { session with pipes := session.pipes.modify pipe change }

def setPending (shell : Nat) (cmdpending : List (List Str)) : Session World :=
  { session with shells := session.shells.modify shell fun object => { object with cmdpending } }

def print (text : Str) : Session World :=
  { session with terminal := session.terminal ++ Utf8.encode text }

def pushShell (object : HoneyPotShell) : Session World :=
  { session with
    shells := session.shells.alloc object
    cmdstack := .shell session.shells.next :: session.cmdstack }

def showPrompt (env : Env World) (shell : Nat) : Session World :=
  if (session.shell shell).interactive then session.print (env.prompt session.world) else session

theorem shell_setPending_self (shell : Nat) (pending : List (List Str)) :
    (session.setPending shell pending).shell shell =
      { session.shell shell with cmdpending := pending } := by
  unfold Session.shell setPending
  rw [Heap.read_modify_self]

theorem shell_setPending_other (pending : List (List Str)) {shell other : Nat}
    (differs : other ≠ shell) :
    (session.setPending shell pending).shell other = session.shell other := by
  unfold Session.shell setPending
  rw [Heap.read_modify_other _ differs]

theorem pipe_modifyPipe_self (pipe : Nat) (change : PipeProtocol → PipeProtocol) :
    (session.modifyPipe pipe change).pipe pipe = change (session.pipe pipe) := by
  unfold Session.pipe modifyPipe
  rw [Heap.read_modify_self]

theorem pipe_modifyPipe_other (change : PipeProtocol → PipeProtocol) {pipe other : Nat}
    (differs : other ≠ pipe) :
    (session.modifyPipe pipe change).pipe other = session.pipe other := by
  unfold Session.pipe modifyPipe
  rw [Heap.read_modify_other _ differs]

end Session

end Shell

end LlmHoneypot
