import LlmHoneypot.Foundation.Getopt
import LlmHoneypot.Shell.Session

/-! # Commands

`getCommand` and the commands that work on the command stack themselves:
`commands/bash.py`, `Command_rm` and the scripts of `scriptcmd`. -/

namespace LlmHoneypot

namespace Shell

variable {World : Type}

namespace Action

def write (text : Str) : Action World := .output (.write (Utf8.encode text))

def errorWrite (text : Str) : Action World := .output (.errorWrite (Utf8.encode text))

end Action

/-! ## Scripts -/

def MAX_SCRIPT_DEPTH : Nat := 5

/-- `^#!\s*` and one of the programs. -/
def isShebang (programs : List Str) (line : Str) : Bool :=
  match line with
  | '#' :: '!' :: rest => programs.any (·.isPrefixOf (Text.lstrip rest))
  | _ => false

def scriptLines (programs : List Str) (contents : Bytes) : List Str :=
  let lines := Text.splitlines (Utf8.decodeReplace contents)
  let lines :=
    match lines with
    | first :: rest => if isShebang programs first then rest else lines
    | [] => []
  lines.filter fun line => Text.strip line ≠ [] ∧ ¬ "#".toList.isPrefixOf (Text.strip line)

def executeLines (lines : List Str) : List (Action World) :=
  if lines = [] then [] else [.executeScript (Text.join "; ".toList lines)]

def executeScriptFile (env : Env World) (filename : Str) (depth : Nat) (world : World) :
    List (Action World) :=
  if MAX_SCRIPT_DEPTH ≤ depth then
    [.errorWrite ("-bash: ".toList ++ filename ++ ": too many levels of recursion\n".toList)]
  else
    match (env.resolvePath filename world).map (env.fileContents · world) with
    | some (.error .fileNotFound) =>
        [.errorWrite ("bash: ".toList ++ filename ++ ": No such file or directory\n".toList)]
    | some (.error .isADirectory) | none => [.raise]
    | some (.ok contents) =>
        executeLines (scriptLines ["/bin/bash".toList, "/bin/sh".toList] contents)

def scriptcmdCall (env : Env World) (path : Str) (depth : Nat) (world : World) :
    List (Action World) :=
  if MAX_SCRIPT_DEPTH ≤ depth then
    [.errorWrite ("-bash: ".toList ++ path ++ ": too many levels of recursion\n".toList)]
  else
    match env.fileContents path world with
    | .error _ =>
        [.errorWrite ("-bash: ".toList ++ path ++ ": No such file or directory\n".toList)]
    | .ok contents =>
        if 0 ∈ contents then
          [.errorWrite ("-bash: ".toList ++ path ++
            ": cannot execute binary file: Exec format error\n".toList)]
        else
          executeLines
            (scriptLines ["/bin/bash".toList, "/bin/ash".toList, "/bin/sh".toList] contents)

/-! ## Shells -/

/-- The line of `sh -c` without quotes around it; an empty one raises `IndexError`. -/
def commandLine (line : Str) : Option Str :=
  match line.head?, line.getLast? with
  | some first, some last =>
      if first = last ∧ Shlex.isQuote first then some (line.drop 1).dropLast else some line
  | _, _ => none

def shStart (env : Env World) (args : List Str) (input : Option Bytes) (depth : Nat)
    (world : World) : List (Action World) :=
  let data := input.getD []
  if args.head?.map Text.strip = some "-c".toList then
    match commandLine (Text.join " ".toList (args.drop 1)) with
    | some line => [.executeCommands line, .exit]
    | none => [.raise]
  else if data ≠ [] then
    match Utf8.decode data with
    | some cmds => [.executeCommands cmds, .exit]
    | none => [.raise]
  else
    match args with
    | filename :: _ =>
        if "-".toList.isPrefixOf filename then [.interactiveShell]
        else executeScriptFile env filename depth world ++ [.exit]
    | [] => [.interactiveShell]

def exitCall : List (Action World) := [.popShell]

/-! ## Removal of files -/

def rmCall (env : Env World) (args : List Str) (world : World) : List (Action World) :=
  let paramError : Action World := .errorWrite "Try 'rm --help' for more information\n".toList
  if args = [] then [.errorWrite "rm: missing operand\n".toList, paramError]
  else
    match Getopt.gnuGetopt "rTfvh".toList
        ["help".toList, "recursive".toList, "force".toList, "verbose".toList] args with
    | .error opt =>
        [.errorWrite ("rm: invalid option -- '".toList ++ opt ++ "'\n".toList), paramError, .exit]
    | .ok (options, operands) =>
        if "--help".toList ∈ options ∨ "-h".toList ∈ options then [.write env.rmHelp]
        else
          (env.removeFiles ("--recursive".toList ∈ options ∨ "-r".toList ∈ options)
            ("--force".toList ∈ options ∨ "-f".toList ∈ options)
            ("--verbose".toList ∈ options ∨ "-v".toList ∈ options) operands world).map .output

/-! ## All commands -/

def commandStart (env : Env World) (cmd : CommandClass) (args : List Str) (input : Option Bytes)
    (depth : Nat) (world : World) : List (Action World) :=
  match cmd with
  | .sh => shStart env args input depth world
  | .exit => exitCall ++ [.exit]
  | .rm => rmCall env args world ++ [.exit]
  | .txtcmd data => [.output (.write data), .exit]
  | .scriptcmd path => scriptcmdCall env path depth world ++ [.exit]
  | .other name => env.start name args input world

def commandClass (env : Env World) (name : Str) : Option CommandClass :=
  if name ∈ ["/bin/bash".toList, "bash".toList, "/bin/sh".toList, "sh".toList] then some .sh
  else if name ∈ ["exit".toList, "logout".toList] then some .exit
  else if name ∈ ["/bin/rm".toList, "rm".toList] then some .rm
  else if env.isCommand name then some (.other name)
  else none

def candidatePaths (env : Env World) (cmd : Str) (paths : List Str) (world : World) :
    Option (List Str) :=
  if cmd.head? = some '.' ∨ cmd.head? = some '/' then
    (env.resolvePath cmd world).map fun path => [path]
  else
    paths.mapM fun path => (env.resolvePath path world).map (· ++ '/' :: cmd)

/-- `getCommand`; the outer `none` is an exception. -/
def getCommand (env : Env World) (cmd : Str) (paths : List Str) (world : World) :
    Option (Option CommandClass) :=
  if Text.strip cmd = [] then some none
  else
    match commandClass env cmd with
    | some found => some (some found)
    | none =>
        (candidatePaths env cmd paths world).bind fun candidates =>
          match candidates.find? (env.pathExists · world) with
          | none => some none
          | some path =>
              match env.txtcmds path with
              | .ok data => some (some (.txtcmd data))
              | .error .isADirectory => none
              | .error .fileNotFound =>
                  match commandClass env path with
                  | some found => some (some found)
                  | none => some (if env.isfile path world then some (.scriptcmd path) else none)

theorem getCommand_of_commandClass {env : Env World} {name : Str} {found : CommandClass}
    (visible : Text.strip name ≠ []) (known : commandClass env name = some found)
    (paths : List Str) (world : World) : getCommand env name paths world = some (some found) := by
  simp only [getCommand, visible, if_false, known]

def catOutput (data : Bytes) : List (Action World) :=
  let lines := data.splitOn 10
  let lines := if lines.getLast? = some [] then lines.dropLast else lines
  lines.map fun line => .output (.write (line ++ [10]))

/-- A session with a terminal, without files, with the commands `echo` without options
and `cat` without operands. -/
def Env.small : Env Unit where
  exec := false
  environ := ⟨"/usr/bin:/bin".toList, []⟩
  prompt _ := "# ".toList
  resolvePath path _ := if path = [] then none else some path
  pathExists _ _ := false
  isfile _ _ := false
  fileContents _ _ := .error .fileNotFound
  prepareOutputFile _ _ world := (.failed, world)
  appendRealFile _ _ world := some world
  updateSize _ _ world := world
  txtcmds _ := .error .fileNotFound
  isCommand name := name = "echo".toList ∨ name = "cat".toList
  start name args input _ :=
    if name = "echo".toList then
      [.write (Text.join " ".toList args ++ "\n".toList), .exit]
    else
      match input with
      | some data => catOutput data ++ [.exit]
      | none => []
  rmHelp := []
  removeFiles _ _ _ _ _ := []

end Shell

end LlmHoneypot
