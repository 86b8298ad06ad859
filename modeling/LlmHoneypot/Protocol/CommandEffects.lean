import LlmHoneypot.Foundation.SimpleCommand
import LlmHoneypot.Protocol.OperandShapes
import LlmHoneypot.Protocol.UserSwitches

/-! # What a simple command changes

Files, environment and user after a simple command, as a shell reads its words and
redirections. -/

namespace LlmHoneypot

namespace Protocol

open CmdParser Spelling

/-! ## What a command changes -/

/-- Sources and targets of `cp` and `mv`: one source with its target, or several that go into
a directory. -/
def transfers : List Str → List (Str × Str)
  | [source, target] => [(source, target)]
  | words =>
      match words.getLast? with
      | some dir => words.dropLast.map fun source => (source, entryIn dir source)
      | none => []

def operandEffects (verb : OperandVerb) (words : List Str) : List CmdMutation :=
  match verb with
  | .touch => (operands words).map (.createFile · [])
  | .rm => (operands words).map .removeFile
  | .cp => (transfers (operands words)).map fun (path, dst) => .copyFile path dst
  | .mv => (transfers (operands words)).map fun (path, dst) => .moveFile path dst

def switchEffects (user : Option Str) : List CmdMutation :=
  match entered user with
  | .push user => [.pushUser user]
  | _ => []

def setEffects (assigned : List (Str × Str)) : List CmdMutation :=
  assigned.map fun (name, value) => .setEnv name value

def VERBS : List OperandVerb := [.touch, .rm, .cp, .mv]

/-- A change of files, environment or user; the first ones are those that the parser tells. -/
inductive Effect
  | mutation (mutation : CmdMutation)
  | makeDirectory (path : Str)
  | removeDirectory (path : Str)
  | unset (name : Str)
  deriving DecidableEq, Repr

/-- What a program can change that is not the shell. -/
def Effect.isFile : Effect → Bool
  | .mutation (.setEnv _ _) | .mutation (.pushUser _) | .mutation .popUser => false
  | .mutation (.addProcess _) | .unset _ => false
  | _ => true

/-- Commands that change nothing. -/
def QUIET : List Str :=
  ["cat", "echo", "grep", "head", "id", "ls", "ps", "pwd", "tail", "uname", "wc", "whoami"].map
    String.toList

/-- What the commands change that have no branch below. None is left in the background. -/
structure Programs where
  changes : (name : Str) → (args : List Str) → List Effect
  foreground : ∀ name args process, .mutation (.addProcess process) ∉ changes name args

def MKDIR_LONG : List Str :=
  ["mode=", "parents", "verbose", "context", "help", "version"].map String.toList

def directoriesMade (args : List Str) : List Str :=
  match Getopt.getopt true "m:pvZ".toList MKDIR_LONG args with
  | .error _ => []
  | .ok (options, made) =>
      if options.any (·.1 ∈ ["--help".toList, "--version".toList]) then [] else made

def utilityEffects (programs : Programs) (name : Str) (args : List Str) : List Effect :=
  match VERBS.find? (·.text = name) with
  | some verb => (operandEffects verb args).map .mutation
  | none =>
      if name ∈ QUIET then []
      else if name = "mkdir".toList then (directoriesMade args).map .makeDirectory
      else if name = "rmdir".toList then (operands args).map .removeDirectory
      else if name = "unlink".toList then (operands args).map (.mutation <| .removeFile ·)
      else programs.changes name args

/-- An interactive shell is started as another user, or a command is run as one. -/
def otherUserEffects (programs : Programs) (entering : Option Str) (command : List Str) :
    List Effect :=
  match entering, command with
  | some user, _ => (switchEffects (some user)).map .mutation
  | none, [] => []
  | none, name :: args => (utilityEffects programs name args).filter Effect.isFile

/-- What a command changes besides the files that it is redirected to. A shell that is
redirected is not interactive. -/
def nameEffects (programs : Programs) (redirected : Bool) (name : Str) (args : List Str) :
    List Effect :=
  if name = "export".toList then
    (setEffects ((operands args).filterMap assignmentOf)).map .mutation
  else if name = "unset".toList then
    if args.head? = some "-f".toList then [] else (operands args).map .unset
  else if name = "su".toList then
    otherUserEffects programs (if redirected then none else suUser args) (name :: args)
  else if name = "sudo".toList then
    otherUserEffects programs (if redirected then none else sudoUser args) (sudoCommand args)
  else utilityEffects programs name args

def isEchoOption (word : Str) : Bool :=
  match word with
  | '-' :: letters => letters ≠ [] && letters.all (['n', 'e', 'E'].contains ·)
  | _ => false

def assigns (word : Word) : Bool := word.assignment?.isSome

def commandWords (command : SimpleCommand) : List Word := command.words.dropWhile assigns

/-- What commands write into the files that they are redirected to. -/
abbrev Emitted := SimpleCommand → Redirection → Str

/-- What a redirected file is given: the words of `echo`, without the newline that ends them,
or what some other command writes. -/
def contents (emitted : Emitted) (command : SimpleCommand) (redirection : Redirection) : Str :=
  match (commandWords command).map Word.value with
  | [] => []
  | name :: args =>
      if name = "echo".toList ∧ args.head?.all (!isEchoOption ·) = true ∧
          redirection.IsOutput ∧ command.redirections.length = 1 then Text.join " ".toList args
      else emitted command redirection

def redirectionEffect (text : Str) (redirection : Redirection) : Option Effect :=
  match redirection.kind with
  | .create => some (.mutation (.createFile redirection.target.value text))
  | .append => some (.mutation (.appendFile redirection.target.value text))
  | .input | .duplicate => none

/-- What a simple command changes. Assignments last where no command follows them. -/
def effects (programs : Programs) (emitted : Emitted) (command : SimpleCommand) : List Effect :=
  command.redirections.filterMap
      (fun redirection => redirectionEffect (contents emitted command redirection) redirection) ++
    match commandWords command with
    | [] => (setEffects (command.words.filterMap Word.assignment?)).map .mutation
    | name :: args =>
        nameEffects programs (command.redirections ≠ []) name.value (args.map Word.value)

/-- The parser tells what the command changes, and nothing else. -/
def Told (programs : Programs) (emitted : Emitted) (command : SimpleCommand) : Prop :=
  (parseInputMutations command.text).map .mutation = effects programs emitted command

/-! ### Operands -/

/-- The verb has too few operands to change anything. -/
def Harmless (verb : OperandVerb) (words : List Str) : Prop :=
  match verb with
  | .touch | .rm => operands words = []
  | .cp | .mv => (operands words).length < 2

def TakesOperands (verb : OperandVerb) (words : List Str) : Prop :=
  plainWords words = operands words ∧
    (verb = .cp ∨ verb = .mv → (operands words).length ≤ 2)

theorem transfers_nil {words : List Str} : transfers words = [] ↔ words.length < 2 := by
  match words with
  | [] => simp [transfers]
  | [word] => simp [transfers]
  | [first, second] => simp [transfers]
  | first :: second :: third :: rest => simp [transfers, List.getLast?_cons]

theorem transfers_iff (words : List Str) :
    (firstAndLast (plainWords words)).toList = transfers words ↔
      words.length < 2 ∨ plainWords words = words ∧ words.length ≤ 2 := by
  match words with
  | [] => simp [transfers, plainWords, firstAndLast]
  | [word] =>
      by_cases flag : isFlag word = true
      · simp [transfers, plainWords, flag, firstAndLast]
      · simp [transfers, plainWords, flag, firstAndLast]
  | [first, second] =>
      by_cases flag : isFlag first = true
      · by_cases other : isFlag second = true
        · simp [transfers, plainWords, flag, other, firstAndLast]
        · simp [transfers, plainWords, flag, other, firstAndLast]
      · by_cases other : isFlag second = true
        · simp [transfers, plainWords, flag, other, firstAndLast]
        · simp [transfers, plainWords, flag, other, firstAndLast]
  | first :: second :: third :: rest =>
      have many : 1 < (transfers (first :: second :: third :: rest)).length := by
        simp [transfers, List.getLast?_cons]
      apply iff_of_false
      · intro equal
        rw [← equal] at many
        cases ends : firstAndLast (plainWords (first :: second :: third :: rest)) with
        | none => simp [ends] at many
        | some both => simp [ends] at many
      · simp

theorem operandEffects_nil {verb : OperandVerb} {words : List Str} :
    operandEffects verb words = [] ↔ Harmless verb words := by
  cases verb with
  | touch => simp [operandEffects, Harmless]
  | rm => simp [operandEffects, Harmless]
  | cp => simp [operandEffects, Harmless, transfers_nil]
  | mv => simp [operandEffects, Harmless, transfers_nil]

theorem operandMutations_iff (verb : OperandVerb) (words : List Str) :
    operandMutations verb words = operandEffects verb words ↔
      Harmless verb words ∨ TakesOperands verb words := by
  have ends := transfers_iff (operands words)
  rw [plainWords_operands] at ends
  have none : operands words = [] → plainWords words = operands words := by
    intro empty
    rw [← plainWords_operands, empty]
    rfl
  have each : (operands words = [] ∨ plainWords words = operands words) ↔
      plainWords words = operands words :=
    or_iff_right_of_imp none
  cases verb with
  | touch =>
      have injective : ∀ first second : Str,
          CmdMutation.createFile first [] = .createFile second [] → first = second := by
        intro first second same
        cases same
        rfl
      apply (List.map_inj_right injective).trans
      simp only [Harmless, TakesOperands, reduceCtorEq, or_self, false_implies, and_true, each]
  | rm =>
      apply (List.map_inj_right fun _ _ => CmdMutation.removeFile.inj).trans
      simp only [Harmless, TakesOperands, reduceCtorEq, or_self, false_implies, and_true, each]
  | cp =>
      have injective : ∀ first second : Str × Str,
          CmdMutation.copyFile first.1 first.2 = .copyFile second.1 second.2 → first = second := by
        intro first second same
        exact Prod.ext (CmdMutation.copyFile.inj same).1 (CmdMutation.copyFile.inj same).2
      apply (List.map_inj_right injective).trans
      simpa only [Harmless, TakesOperands, true_or, true_implies] using ends
  | mv =>
      have injective : ∀ first second : Str × Str,
          CmdMutation.moveFile first.1 first.2 = .moveFile second.1 second.2 → first = second := by
        intro first second same
        exact Prod.ext (CmdMutation.moveFile.inj same).1 (CmdMutation.moveFile.inj same).2
      apply (List.map_inj_right injective).trans
      simpa only [Harmless, TakesOperands, or_true, true_implies] using ends

end Protocol

end LlmHoneypot
