import LlmHoneypot.Foundation.Getopt
import LlmHoneypot.Foundation.SimpleCommand
import LlmHoneypot.Protocol.Mutations

/-! # User switches

The user stack after a line, against what `su`, `sudo` and `exit` do: an interactive
shell as another user is entered or left, and a command executed as another user
leaves everything as it was. -/

namespace LlmHoneypot

namespace Protocol

open CmdChain CmdParser ShellSyntax

/-! ## What the commands do -/

def SU_SHORT : Str := "c:fg:G:hlmpPs:TVw:".toList

def SU_LONG : List Str :=
  ["command=", "fast", "group=", "help", "login", "no-pty", "preserve-environment", "pty",
    "session-command=", "shell=", "supp-group=", "version", "whitelist-environment="].map
      String.toList

def SU_ONE_SHOT : List Str :=
  ["-c", "--command", "--session-command", "-h", "--help", "-V", "--version"].map String.toList

/-- The user as whom `su` starts an interactive shell; words behind the user are
arguments of the shell. -/
def suUser (args : List Str) : Option Str :=
  match Getopt.getopt true SU_SHORT SU_LONG args with
  | .error _ => none
  | .ok (options, operands) =>
      if options.any (·.1 ∈ SU_ONE_SHOT) then none
      else
        match if operands.head? = some "-".toList then operands.tail else operands with
        | [] => some "root".toList
        | [user] => some user
        | [user, last] => if last = "-".toList then some user else none
        | _ => none

def SUDO_SHORT : Str := "Aa:BbC:c:D:Eeg:HhiKklNnPp:R:r:SsT:t:U:u:Vv".toList

def SUDO_LONG : List Str :=
  ["askpass", "auth-type=", "background", "bell", "chdir=", "chroot=", "close-from=",
    "command-timeout=", "edit", "group=", "help", "host=", "list", "login", "login-class=",
    "no-update", "non-interactive", "other-user=", "preserve-env", "preserve-groups", "prompt=",
    "remove-timestamp", "reset-timestamp", "role=", "set-home", "shell", "stdin", "type=", "user=",
    "validate", "version"].map String.toList

def SUDO_ONE_SHOT : List Str :=
  ["-b", "--background", "-e", "--edit", "-h", "--help", "-K", "--remove-timestamp", "-l",
    "--list", "-V", "--version", "-v", "--validate"].map String.toList

def SHELL_OPTIONS : List Str := ["-i", "--login", "-s", "--shell"].map String.toList

def USER_OPTIONS : List Str := ["-u", "--user"].map String.toList

def withoutList (arg : Str) : Str :=
  if "--preserve-env=".toList.isPrefixOf arg then "--preserve-env".toList else arg

/-- The user as whom `sudo` starts an interactive shell: its own, or that of a `su`. -/
def sudoUser (args : List Str) : Option Str :=
  match Getopt.getopt false SUDO_SHORT SUDO_LONG (args.map withoutList) with
  | .error _ => none
  | .ok (options, operands) =>
      if options.any (·.1 ∈ SUDO_ONE_SHOT) then none
      else
        let named := ((options.filter (·.1 ∈ USER_OPTIONS)).map (·.2)).getLast?.getD "root".toList
        -- Assignments to the environment may stand before the command.
        match operands.dropWhile ('=' ∈ ·) with
        | [] => if options.any (·.1 ∈ SHELL_OPTIONS) then some named else none
        | command :: rest => if command = "su".toList then suUser rest else none

/-- Options of `sudo` with which it runs no command. -/
def SUDO_IDLE : List Str :=
  ["-e", "--edit", "-h", "--help", "-K", "--remove-timestamp", "-l", "--list", "-V", "--version",
    "-v", "--validate"].map String.toList

/-- The command that `sudo` runs. -/
def sudoCommand (args : List Str) : List Str :=
  match Getopt.getopt false SUDO_SHORT SUDO_LONG (args.map withoutList) with
  | .error _ => []
  | .ok (options, operands) =>
      if options.any (·.1 ∈ SUDO_IDLE) then [] else operands.dropWhile ('=' ∈ ·)

inductive StackEffect
  | keep
  | push (user : Str)
  | leave
  deriving DecidableEq, Repr

def StackEffect.apply (stack : List Str) : StackEffect → List Str
  | .keep => stack
  | .push user => stack ++ [user]
  | .leave => stack.dropLast

def entered (user : Option Str) : StackEffect :=
  match user with
  | none => .keep
  | some user => if user = [] then .keep else .push user

def LEAVE_WORDS : List Str := ["exit", "logout", "quit"].map String.toList

/-- Assignments may stand before the command. -/
def wordsEffect (words : List Str) : StackEffect :=
  match words.dropWhile fun word => (Spelling.assignmentOf word).isSome with
  | [] => .keep
  | command :: args =>
      if command ∈ LEAVE_WORDS then .leave
      else if command = "su".toList then entered (suUser args)
      else if command = "sudo".toList then entered (sudoUser args)
      else .keep

def isDetached (command : Str) : Bool :=
  ('|', .plain) ∈ annotate command || (annotate command).getLast? = some ('&', .plain)

/-- What a command of a line does. A shell that is piped, redirected or in the background
is not interactive, and what a substitution yields is not named by the line. -/
def commandEffect (command : Str) : StackEffect :=
  let text := Text.strip command
  if isDetached text then .keep
  else if hasOperator (annotate text) then
    let word := text.takeWhile fun ch => !Text.isSpace ch && ch ∉ REDIRECTIONS
    if word ∈ LEAVE_WORDS then .leave else .keep
  else
    match Shlex.split text with
    | none => .keep
    | some words => wordsEffect words

/-! ## What the parser sees -/

/-- The words after `sudo` as the parser takes them: the values of separate `-u`, the
other flags, and the rest from the first word that is neither. -/
structure SudoWords where
  users : List Str := []
  flags : List Str := []
  command : List Str := []

def sudoWords : List Str → SudoWords
  | [] => {}
  | [arg] => if isFlag arg then { flags := [arg] } else { command := [arg] }
  | arg :: next :: rest =>
      if arg ∈ USER_OPTIONS then
        let later := sudoWords rest
        { later with users := next :: later.users }
      else if isFlag arg then
        let later := sudoWords (next :: rest)
        { later with flags := arg :: later.flags }
      else { command := arg :: next :: rest }

namespace SudoWords

def named (words : SudoWords) (fallback : Str) : Str := words.users.getLast?.getD fallback

def startsShell (words : SudoWords) : Bool := words.flags.any (· ∈ SHELL_OPTIONS)

end SudoWords

def firstPlain (fallback : Str) (words : List Str) : Str := (words.filter (!isFlag ·)).head?.getD fallback

/-- The words begin with `su` and the user is the first that is no flag; or with `sudo`,
with an option for a shell or the word `su` where its options end for the parser. -/
def BeginsSwitch (words : List Str) (user : Str) : Prop :=
  (words.head? = some "su".toList ∧ user = firstPlain "root".toList words.tail) ∨
  (words.head? = some "sudo".toList ∧
    let args := sudoWords words.tail
    if args.command.head? = some "su".toList then
      user = firstPlain (args.named "root".toList) args.command.tail
    else args.startsShell = true ∧ user = args.named "root".toList)

def ParsesSwitch (text user : Str) : Prop :=
  parseBackground text = none ∧
    ∃ words, Shlex.split (Text.strip (splitFirstCommand text)) = some words ∧ BeginsSwitch words user

def SeesSwitch (text user : Str) : Prop := isFastCommand text = false ∧ ParsesSwitch text user

def SeesLeave (text : Str) : Prop :=
  isSimple (Text.strip text) = true ∧ Text.firstWord (Text.strip text) ∈ LEAVE_WORDS

theorem suTarget_eq (fallback : Str) (args : List Str) :
    suTarget fallback args = firstPlain fallback args := by
  rw [suTarget, firstPlain, List.head?_filter]

theorem isFlag_of_shell {arg : Str} (member : arg ∈ SHELL_OPTIONS) : isFlag arg = true := by
  revert arg
  decide

namespace SudoWords

/-- The user and whether a shell is started, from what the words before them gave. -/
def result (words : SudoWords) (target : Str) (shell : Bool) : Str × Bool :=
  if words.command.head? = some "su".toList then
    (firstPlain (words.named target) words.command.tail, true)
  else (words.named target, shell || words.startsShell)

theorem result_user (words : SudoWords) (user target : Str) (shell : Bool) :
    ({ words with users := user :: words.users } : SudoWords).result target shell =
      words.result user shell := by
  have named : ({ words with users := user :: words.users } : SudoWords).named target =
      words.named user := by
    simp only [SudoWords.named, List.getLast?_cons, Option.getD_some]
  rw [result, named]
  rfl

theorem result_flag (words : SudoWords) (flag target : Str) (shell : Bool) :
    ({ words with flags := flag :: words.flags } : SudoWords).result target shell =
      words.result target (shell || decide (flag ∈ SHELL_OPTIONS)) := by
  have starts : ({ words with flags := flag :: words.flags } : SudoWords).startsShell =
      (decide (flag ∈ SHELL_OPTIONS) || words.startsShell) := by
    simp only [SudoWords.startsShell, List.any_cons]
  rw [result, result, starts, Bool.or_assoc]
  rfl

theorem result_empty (target : Str) (shell : Bool) :
    ({} : SudoWords).result target shell = (target, shell) := by
  rw [result, if_neg (by decide)]
  exact congrArg (Prod.mk target) (Bool.or_false shell)

theorem result_command (command target : Str) (rest : List Str) (shell : Bool) :
    ({ command := command :: rest } : SudoWords).result target shell =
      if command = "su".toList then (firstPlain target rest, true) else (target, shell) := by
  rw [result]
  by_cases isSu : command = "su".toList
  · rw [if_pos isSu]
    exact if_pos (congrArg some isSu)
  · rw [if_neg isSu]
    apply (if_neg (mt Option.some.inj isSu)).trans
    exact congrArg (Prod.mk target) (Bool.or_false shell)

end SudoWords

theorem sudoTarget_eq (target : Str) (shell : Bool) (args : List Str) :
    sudoTarget target shell args = (sudoWords args).result target shell := by
  have isShell : ∀ arg : Str, (arg = "-i".toList ∨ arg = "--login".toList ∨ arg = "-s".toList ∨
      arg = "--shell".toList) ↔ arg ∈ SHELL_OPTIONS := by
    intro arg
    simp [SHELL_OPTIONS]
  have isUser : ∀ arg : Str, (arg = "-u".toList ∨ arg = "--user".toList) ↔ arg ∈ USER_OPTIONS := by
    intro arg
    simp [USER_OPTIONS]
  fun_induction sudoWords args generalizing target shell with
  | case1 => exact (SudoWords.result_empty target shell).symm
  | case2 arg flag =>
      rw [SudoWords.result_flag {} arg, SudoWords.result_empty, sudoTarget]
      by_cases option : arg ∈ SHELL_OPTIONS
      · rw [if_pos ((isShell arg).mpr option), decide_eq_true option, Bool.or_true]
      · rw [if_neg (mt (isShell arg).mp option), if_pos flag, decide_eq_false option, Bool.or_false]
  | case3 arg plain =>
      have notShell : arg ∉ SHELL_OPTIONS := fun option => plain (isFlag_of_shell option)
      rw [SudoWords.result_command, sudoTarget, if_neg (mt (isShell arg).mp notShell), if_neg plain]
      by_cases isSu : arg = "su".toList
      · rw [if_pos isSu, decide_eq_true isSu, Bool.or_true]
        rfl
      · rw [if_neg isSu, decide_eq_false isSu, Bool.or_false]
  | case4 arg next rest option later induction =>
      rw [sudoTarget, if_pos ((isUser arg).mpr option), induction]
      exact (SudoWords.result_user ..).symm
  | case5 arg next rest notUser flag later induction =>
      rw [SudoWords.result_flag, sudoTarget, if_neg (mt (isUser arg).mp notUser)]
      by_cases option : arg ∈ SHELL_OPTIONS
      · rw [if_pos ((isShell arg).mpr option), induction, decide_eq_true option, Bool.or_true]
      · rw [if_neg (mt (isShell arg).mp option), if_pos flag, induction, decide_eq_false option,
          Bool.or_false]
  | case6 arg next rest notUser plain =>
      have notShell : arg ∉ SHELL_OPTIONS := fun option => plain (isFlag_of_shell option)
      rw [SudoWords.result_command, sudoTarget, if_neg (mt (isUser arg).mp notUser),
        if_neg (mt (isShell arg).mp notShell), if_neg plain, suTarget_eq]

theorem begins_su (args : List Str) (user : Str) :
    BeginsSwitch ("su".toList :: args) user ↔ user = firstPlain "root".toList args := by
  constructor
  · intro begins
    rcases begins with ⟨-, isUser⟩ | ⟨other, -⟩
    · exact isUser
    · exact absurd (Option.some.inj other) (by decide)
  · intro isUser
    exact .inl ⟨rfl, isUser⟩

theorem begins_sudo (args : List Str) (user : Str) :
    BeginsSwitch ("sudo".toList :: args) user ↔
      if (sudoWords args).command.head? = some "su".toList then
        user = firstPlain ((sudoWords args).named "root".toList) (sudoWords args).command.tail
      else (sudoWords args).startsShell = true ∧ user = (sudoWords args).named "root".toList := by
  constructor
  · intro begins
    rcases begins with ⟨other, -⟩ | ⟨-, shell⟩
    · exact absurd (Option.some.inj other) (by decide)
    · exact shell
  · intro shell
    exact .inr ⟨rfl, shell⟩

theorem not_begins {command : Str} (notSu : command ≠ "su".toList) (notSudo : command ≠ "sudo".toList)
    (args : List Str) (user : Str) : ¬ BeginsSwitch (command :: args) user := by
  intro begins
  rcases begins with ⟨isSu, -⟩ | ⟨isSudo, -⟩
  · exact notSu (Option.some.inj isSu)
  · exact notSudo (Option.some.inj isSudo)

theorem parseUserSwitch_iff (head user : Str) :
    parseUserSwitch head = some (.pushUser user) ↔
      ∃ words, Shlex.split head = some words ∧ BeginsSwitch words user := by
  have pushed : ∀ target : Str, some (CmdMutation.pushUser target) = some (.pushUser user) ↔
      user = target := by
    intro target
    rw [Option.some.injEq, CmdMutation.pushUser.injEq, eq_comm]
  unfold parseUserSwitch
  rcases splits : Shlex.split head with _ | ⟨_ | ⟨command, args⟩⟩
  · simp only [reduceCtorEq, false_and, exists_false]
  · simp only [reduceCtorEq, Option.some.injEq, exists_eq_left', false_iff]
    intro begins
    rcases begins with ⟨other, -⟩ | ⟨other, -⟩ <;> cases other
  · simp only [Option.some.injEq, exists_eq_left']
    by_cases isSu : command = "su".toList
    · rw [if_pos isSu, isSu, begins_su, suTarget_eq]
      exact pushed _
    · rw [if_neg isSu]
      by_cases isSudo : command = "sudo".toList
      · rw [if_pos isSudo, isSudo, begins_sudo, sudoTarget_eq]
        apply Iff.trans (b := ((sudoWords args).result "root".toList false).2 = true ∧
          user = ((sudoWords args).result "root".toList false).1)
        · rcases (sudoWords args).result "root".toList false with ⟨target, _ | _⟩
          · simp
          · simpa using pushed target
        · rw [SudoWords.result]
          split
          · simp only [true_and]
          · simp only [Bool.false_or]
      · rw [if_neg isSudo]
        simp only [reduceCtorEq, false_iff]
        exact not_begins isSu isSudo args user

/-! ## Where the words are read right -/

/-- `su` starts an interactive shell, as the first of its words that is no flag. -/
def SuFits (fallback : Str) (args : List Str) : Prop :=
  firstPlain fallback args ≠ [] ∧ suUser args = some (firstPlain fallback args)

def sudoTakes (word : Str) : Except Str Getopt.Taken :=
  Getopt.takeOption SUDO_LONG SUDO_SHORT (withoutList word)

/-- Flags that are complete in one word; none of them names a user or asks for a shell. -/
def FlagAlone (word : Str) : Prop :=
  isFlag word = true ∧ word ≠ "-".toList ∧ word ≠ "--".toList ∧
    ∃ given, sudoTakes word = .ok { options := given } ∧
      ∀ option ∈ given, option.1 ∉ USER_OPTIONS ∧ option.1 ∉ SHELL_OPTIONS

inductive SudoOption
  | user (option value : Str)
  | shell (option : Str)
  | flag (word : Str)

namespace SudoOption

def words : SudoOption → List Str
  | user option value => [option, value]
  | shell option => [option]
  | flag word => [word]

def Valid : SudoOption → Prop
  | user option value => option ∈ USER_OPTIONS ∧ value ≠ [] ∧ withoutList value = value
  | shell option => option ∈ SHELL_OPTIONS
  | flag word => FlagAlone word

def value? : SudoOption → Option Str
  | user _ value => some value
  | _ => none

def isShell : SudoOption → Bool
  | shell _ => true
  | _ => false

def given : SudoOption → List Getopt.Given
  | user option value => [(option, value)]
  | shell option => [(option, [])]
  | flag word =>
      match sudoTakes word with
      | .ok taken => taken.options
      | .error _ => []

end SudoOption

/-- A call of `sudo` in which users and shells are asked for in words of their own, no other
option has its value in a word of its own, and no `su` stands behind an assignment. -/
structure SudoCall where
  options : List SudoOption
  ended : Bool
  behind : List Str
  valid : ∀ option ∈ options, option.Valid
  plain : ∀ word ∈ behind.head?, isFlag word = false
  unlisted : ∀ word ∈ behind, withoutList word = word
  direct : (behind.dropWhile ('=' ∈ ·)).head? = some "su".toList →
    behind.head? = some "su".toList

namespace SudoCall

def words (call : SudoCall) : List Str :=
  call.options.flatMap SudoOption.words ++
    ((if call.ended then ["--".toList] else []) ++ call.behind)

def named (call : SudoCall) : Str :=
  (call.options.filterMap SudoOption.value?).getLast?.getD "root".toList

def asksShell (call : SudoCall) : Bool := call.options.any SudoOption.isShell

def oneShot (call : SudoCall) : Bool :=
  (call.options.flatMap SudoOption.given).any (·.1 ∈ SUDO_ONE_SHOT)

/-- An option for a shell has no command behind it, nothing keeps `sudo` from starting the
shell, and a `su` fits. -/
def Fits (call : SudoCall) : Prop :=
  match call.behind.dropWhile ('=' ∈ ·) with
  | [] => call.asksShell = true → call.oneShot = false
  | command :: args =>
      if command = "su".toList then call.oneShot = false ∧ SuFits call.named args
      else call.asksShell = false

end SudoCall

def SwitchFits (words : List Str) : Prop :=
  (∃ args, words = "su".toList :: args ∧ SuFits "root".toList args) ∨
    ∃ call : SudoCall, words = "sudo".toList :: call.words ∧ call.Fits

/-! ### How both read the words -/

theorem isFlag_iff {word : Str} : isFlag word = true ↔ word.head? = some '-' := by
  cases word with
  | nil => decide
  | cons ch rest => simpa [isFlag, List.isPrefixOf] using eq_comm

theorem withoutList_head {word : Str} (flag : isFlag word = true) :
    (withoutList word).head? = some '-' ∧ (withoutList word = "-".toList → word = "-".toList) ∧
      (withoutList word = "--".toList → word = "--".toList) := by
  unfold withoutList
  split
  · exact ⟨rfl, fun same => absurd same (by decide), fun same => absurd same (by decide)⟩
  · exact ⟨isFlag_iff.mp flag, id, id⟩

namespace SudoOption

variable {option : SudoOption}

theorem getopt (valid : option.Valid) (rest : List Str) :
    Getopt.getoptFrom false SUDO_SHORT SUDO_LONG none (option.words.map withoutList ++ rest) =
      (Getopt.getoptFrom false SUDO_SHORT SUDO_LONG none rest).map fun later =>
        (option.given ++ later.1, later.2) := by
  cases option with
  | user name value =>
      rcases valid with ⟨member, -, unlisted⟩
      have taken : Getopt.takeOption SUDO_LONG SUDO_SHORT name = .ok { waiting := some name } ∧
          withoutList name = name ∧ name.head? = some '-' ∧ name ≠ "-".toList ∧
            name ≠ "--".toList := by
        revert name
        decide
      rcases taken with ⟨takes, same, dash, notDash, notEnd⟩
      rw [words, List.map_cons, List.map_singleton, same, unlisted, List.cons_append,
        Getopt.getoptFrom_option dash notDash notEnd takes, List.singleton_append,
        Getopt.getoptFrom]
      cases Getopt.getoptFrom false SUDO_SHORT SUDO_LONG none rest <;> rfl
  | shell name =>
      have taken : Getopt.takeOption SUDO_LONG SUDO_SHORT name = .ok { options := [(name, [])] } ∧
          withoutList name = name ∧ name.head? = some '-' ∧ name ≠ "-".toList ∧
            name ≠ "--".toList := by
        have member : name ∈ SHELL_OPTIONS := valid
        clear valid
        revert name
        decide
      rcases taken with ⟨takes, same, dash, notDash, notEnd⟩
      rw [words, List.map_singleton, same, List.singleton_append,
        Getopt.getoptFrom_option dash notDash notEnd takes]
      rfl
  | flag word =>
      rcases valid with ⟨isFlag, notDash, notEnd, given, takes, -⟩
      rcases withoutList_head isFlag with ⟨dash, isDash, isEnd⟩
      rw [words, List.map_singleton, List.singleton_append,
        Getopt.getoptFrom_option dash (mt isDash notDash) (mt isEnd notEnd) takes,
        SudoOption.given, takes]

theorem flag_apart {word : Str} (alone : FlagAlone word) :
    word ∉ USER_OPTIONS ∧ word ∉ SHELL_OPTIONS := by
  rcases alone with ⟨-, -, -, given, takes, apart⟩
  constructor
  · intro member
    have waits : ∀ option ∈ USER_OPTIONS, sudoTakes option = .ok { waiting := some option } := by
      decide
    rw [waits word member] at takes
    cases takes
  · intro member
    have shells : ∀ option ∈ SHELL_OPTIONS, sudoTakes option = .ok { options := [(option, [])] } := by
      decide
    rw [shells word member] at takes
    cases takes
    exact (apart _ (List.mem_singleton_self _)).2 member

theorem sudoWords_flag {word : Str} (flag : isFlag word = true) (other : word ∉ USER_OPTIONS)
    (rest : List Str) :
    sudoWords (word :: rest) = { sudoWords rest with flags := word :: (sudoWords rest).flags } := by
  cases rest with
  | nil =>
      rw [sudoWords, sudoWords]
      exact if_pos flag
  | cons next rest => rw [sudoWords, if_neg other, if_pos flag]

theorem sudoWords_option (valid : option.Valid) (rest : List Str) :
    ∃ flags, sudoWords (option.words ++ rest) =
        { sudoWords rest with
          users := option.value?.toList ++ (sudoWords rest).users
          flags := flags ++ (sudoWords rest).flags } ∧
      flags.any (· ∈ SHELL_OPTIONS) = option.isShell := by
  cases option with
  | user name value =>
      refine ⟨[], ?_, rfl⟩
      rw [words, List.cons_append, List.singleton_append, sudoWords, if_pos valid.1]
      rfl
  | shell name =>
      have apart : name ∉ USER_OPTIONS := by
        have all : ∀ option ∈ SHELL_OPTIONS, option ∉ USER_OPTIONS := by decide
        exact all name valid
      have isShell : name ∈ SHELL_OPTIONS := valid
      refine ⟨[name], ?_, by simp [isShell, SudoOption.isShell]⟩
      rw [words, List.singleton_append, sudoWords_flag (isFlag_of_shell valid) apart]
      rfl
  | flag word =>
      have apart := flag_apart valid
      refine ⟨[word], ?_, by simp [apart.2, SudoOption.isShell]⟩
      rw [words, List.singleton_append, sudoWords_flag valid.1 apart.1]
      rfl

end SudoOption

namespace SudoCall

variable (call : SudoCall)

theorem sudoWords_behind {behind : List Str} (plain : ∀ word ∈ behind.head?, isFlag word = false) :
    sudoWords behind = { command := behind } := by
  match behind with
  | [] => rw [sudoWords]
  | [word] => rw [sudoWords, if_neg (by rw [plain word rfl]; decide)]
  | word :: next :: rest =>
      have noFlag := plain word rfl
      have notUser : word ∉ USER_OPTIONS := by
        intro member
        have flags : ∀ option ∈ USER_OPTIONS, isFlag option = true := by decide
        rw [flags word member] at noFlag
        cases noFlag
      rw [sudoWords, if_neg notUser, if_neg (by rw [noFlag]; decide)]

theorem sudoWords_options {options : List SudoOption}
    (valid : ∀ option ∈ options, option.Valid) (rest : List Str) :
    (sudoWords (options.flatMap SudoOption.words ++ rest)).users =
        options.filterMap SudoOption.value? ++ (sudoWords rest).users ∧
      (sudoWords (options.flatMap SudoOption.words ++ rest)).startsShell =
        (options.any SudoOption.isShell || (sudoWords rest).startsShell) ∧
      (sudoWords (options.flatMap SudoOption.words ++ rest)).command =
        (sudoWords rest).command := by
  induction options with
  | nil => simp
  | cons option options induction =>
      have later := induction fun other member => valid other (List.mem_cons_of_mem _ member)
      rcases SudoOption.sudoWords_option (valid option List.mem_cons_self)
        (options.flatMap SudoOption.words ++ rest) with ⟨flags, read, shell⟩
      rw [List.flatMap_cons, List.append_assoc, read]
      refine ⟨?_, ?_, later.2.2⟩
      · rw [later.1, List.filterMap_cons]
        cases option.value? <;> rfl
      · have starts := later.2.1
        simp only [SudoWords.startsShell, List.any_append, shell, List.any_cons] at starts ⊢
        rw [starts, Bool.or_assoc]

theorem sudoWords_words :
    (sudoWords call.words).named "root".toList = call.named ∧
      (sudoWords call.words).startsShell = call.asksShell ∧
      (sudoWords call.words).command = call.behind := by
  rcases sudoWords_options call.valid
    ((if call.ended then ["--".toList] else []) ++ call.behind) with ⟨users, shell, command⟩
  have marked : sudoWords ((if call.ended then ["--".toList] else []) ++ call.behind) =
      { flags := if call.ended then ["--".toList] else [], command := call.behind } := by
    split
    · rw [List.singleton_append, SudoOption.sudoWords_flag (by decide) (by decide),
        sudoWords_behind call.plain]
    · exact sudoWords_behind call.plain
  rw [words, SudoWords.named, users, shell, command, marked]
  refine ⟨?_, ?_, rfl⟩
  · rw [List.append_nil]
    rfl
  · have none : ∀ ended : Bool,
        (if ended then ["--".toList] else []).any (· ∈ SHELL_OPTIONS) = false := by decide
    rw [SudoWords.startsShell, none, Bool.or_false]
    rfl

theorem getopt_options {options : List SudoOption} (valid : ∀ option ∈ options, option.Valid)
    (rest : List Str) :
    Getopt.getoptFrom false SUDO_SHORT SUDO_LONG none
        ((options.flatMap SudoOption.words).map withoutList ++ rest) =
      (Getopt.getoptFrom false SUDO_SHORT SUDO_LONG none rest).map fun later =>
        (options.flatMap SudoOption.given ++ later.1, later.2) := by
  induction options with
  | nil =>
      rw [List.flatMap_nil, List.map_nil, List.nil_append]
      cases Getopt.getoptFrom false SUDO_SHORT SUDO_LONG none rest <;> rfl
  | cons option options induction =>
      rw [List.flatMap_cons, List.map_append, List.append_assoc,
        SudoOption.getopt (valid option List.mem_cons_self),
        induction fun other member => valid other (List.mem_cons_of_mem _ member)]
      cases Getopt.getoptFrom false SUDO_SHORT SUDO_LONG none rest with
      | error name => rfl
      | ok later => exact congrArg (fun given => Except.ok (given, later.2)) (by simp)

theorem getopt_words :
    Getopt.getopt false SUDO_SHORT SUDO_LONG (call.words.map withoutList) =
      .ok (call.options.flatMap SudoOption.given, call.behind) := by
  have unlisted : call.behind.map withoutList = call.behind :=
    (List.map_congr_left call.unlisted).trans (List.map_id _)
  have behind : Getopt.getoptFrom false SUDO_SHORT SUDO_LONG none
      (((if call.ended then ["--".toList] else []) ++ call.behind).map withoutList) =
        .ok ([], call.behind) := by
    rw [List.map_append, unlisted]
    split
    · rfl
    · apply Getopt.getoptFrom_operands
      intro word head dash
      have noFlag := call.plain word head
      rw [isFlag_iff.mpr dash] at noFlag
      cases noFlag
  rw [Getopt.getopt, words, List.map_append, getopt_options call.valid, behind]
  exact congrArg (fun given => Except.ok (given, call.behind)) (List.append_nil _)

theorem given_named {options : List SudoOption} (valid : ∀ option ∈ options, option.Valid) :
    (((options.flatMap SudoOption.given).filter (·.1 ∈ USER_OPTIONS)).map (·.2)) =
        options.filterMap SudoOption.value? ∧
      (options.flatMap SudoOption.given).any (·.1 ∈ SHELL_OPTIONS) =
        options.any SudoOption.isShell := by
  induction options with
  | nil => exact ⟨rfl, rfl⟩
  | cons option options induction =>
      rcases induction fun other member => valid other (List.mem_cons_of_mem _ member) with
        ⟨users, shells⟩
      have here := valid option List.mem_cons_self
      rw [List.flatMap_cons, List.filter_append, List.map_append, users, List.any_append, shells,
        List.any_cons, List.filterMap_cons]
      cases option with
      | user name value =>
          have apart : name ∉ SHELL_OPTIONS := by
            have all : ∀ option ∈ USER_OPTIONS, option ∉ SHELL_OPTIONS := by decide
            exact all name here.1
          constructor
          · simp [SudoOption.given, SudoOption.value?, here.1]
          · simp [SudoOption.given, SudoOption.isShell, apart]
      | shell name =>
          have isShell : name ∈ SHELL_OPTIONS := here
          have apart : name ∉ USER_OPTIONS := by
            have all : ∀ option ∈ SHELL_OPTIONS, option ∉ USER_OPTIONS := by decide
            exact all name here
          constructor
          · simp [SudoOption.given, SudoOption.value?, apart]
          · simp [SudoOption.given, SudoOption.isShell, isShell]
      | flag word =>
          rcases here with ⟨-, -, -, given, takes, apart⟩
          have isGiven : SudoOption.given (.flag word) = given := by
            rw [SudoOption.given, takes]
          rw [isGiven]
          constructor
          · rw [List.filter_eq_nil_iff.mpr fun option member => by simp [(apart option member).1]]
            rfl
          · rw [List.any_eq_false.mpr fun option member => by simp [(apart option member).2]]
            rfl

theorem sudoUser_words :
    sudoUser call.words =
      if call.oneShot then none
      else
        match call.behind.dropWhile ('=' ∈ ·) with
        | [] => if call.asksShell then some call.named else none
        | command :: rest => if command = "su".toList then suUser rest else none := by
  rcases given_named call.valid with ⟨users, shells⟩
  rw [sudoUser, getopt_words]
  simp only [users, shells]
  rfl

theorem named_ne_nil : call.named ≠ [] := by
  rw [named]
  cases last : (call.options.filterMap SudoOption.value?).getLast? with
  | none => decide
  | some value =>
      rcases List.mem_filterMap.mp (List.mem_of_getLast? last) with ⟨option, member, isValue⟩
      have valid := call.valid option member
      cases option with
      | user name other =>
          cases isValue
          exact valid.2.1
      | shell name => cases isValue
      | flag word => cases isValue

theorem begins_iff (user : Str) :
    BeginsSwitch ("sudo".toList :: call.words) user ↔
      if call.behind.head? = some "su".toList then user = firstPlain call.named call.behind.tail
      else call.asksShell = true ∧ user = call.named := by
  rcases sudoWords_words call with ⟨isNamed, shell, command⟩
  rw [begins_sudo, command, isNamed, shell]

end SudoCall

/-! ## What the session makes of it -/

theorem foldl_stackAfter_keeps {mutations : List CmdMutation} (stack : List Str)
    (keeps : ∀ mutation ∈ mutations, ∀ stack, stackAfter stack mutation = stack) :
    mutations.foldl stackAfter stack = stack := by
  induction mutations with
  | nil => rfl
  | cons mutation rest induction =>
      rw [List.foldl_cons, keeps mutation List.mem_cons_self stack]
      exact induction fun other member => keeps other (List.mem_cons_of_mem _ member)

theorem foldl_stackAfter_map {Item : Type} {mutate : Item → CmdMutation} (items : List Item)
    (stack : List Str) (keeps : ∀ item stack, stackAfter stack (mutate item) = stack) :
    (items.map mutate).foldl stackAfter stack = stack := by
  apply foldl_stackAfter_keeps
  intro mutation member
  rcases List.mem_map.mp member with ⟨item, -, rfl⟩
  exact keeps item

theorem parseUserSwitch_pushes {head : Str} {mutation : CmdMutation}
    (found : parseUserSwitch head = some mutation) : ∃ user, mutation = .pushUser user := by
  unfold parseUserSwitch at found
  split at found
  · cases found
  · cases found
  · split at found
    · cases found
      exact ⟨_, rfl⟩
    · split at found
      · split at found <;> cases found
        exact ⟨_, rfl⟩
      · cases found

theorem stack_parse_push {text user : Str} (parses : ParsesSwitch text user) (stack : List Str) :
    (parseInputMutations text).foldl stackAfter stack =
      if user = [] then stack else stack ++ [user] := by
  rcases parses with ⟨foreground, splits⟩
  have found := (parseUserSwitch_iff _ _).mpr splits
  have started : Text.strip (splitFirstCommand text) ≠ [] := by
    intro blank
    rw [blank] at found
    cases found
  simp only [parseInputMutations, foreground, started, if_false, found, List.foldl_cons,
    List.foldl_nil]
  rfl

theorem stack_parse_keep {text : Str} (parses : ∀ user, ¬ ParsesSwitch text user)
    (stack : List Str) : (parseInputMutations text).foldl stackAfter stack = stack := by
  unfold parseInputMutations
  split
  · rename_i background found
    simp only [parseBackground, Option.ite_none_left_eq_some, Option.some.injEq] at found
    rw [← found.2.2]
    rfl
  · rename_i foreground
    have noSwitch : parseUserSwitch (Text.strip (splitFirstCommand text)) = none := by
      rw [Option.eq_none_iff_forall_ne_some]
      intro mutation found
      rcases parseUserSwitch_pushes found with ⟨user, rfl⟩
      exact parses user ⟨foreground, (parseUserSwitch_iff _ _).mp found⟩
    simp only [noSwitch]
    split
    · rfl
    split
    · split <;> rfl
    split
    · exact foldl_stackAfter_map _ stack fun _ _ => rfl
    split
    · exact foldl_stackAfter_map _ stack fun _ _ => rfl
    split
    · exact foldl_stackAfter_map _ stack fun _ _ => rfl
    split
    · exact foldl_stackAfter_map _ stack fun _ _ => rfl
    split
    · exact foldl_stackAfter_map _ stack fun _ _ => rfl
    split
    · exact foldl_stackAfter_map _ stack fun _ _ => rfl
    · rfl

theorem leave_iff (text : Str) :
    isFastCommand text = true ∧ fastVerb? (Text.firstWord (Text.strip text)) = some .leave ↔
      SeesLeave text := by
  have words : ∀ word : Str, fastVerb? word = some .leave ↔ word ∈ LEAVE_WORDS := by
    intro word
    unfold fastVerb?
    split
    · rename_i member
      exact iff_of_true rfl member
    · rename_i other
      apply iff_of_false
      · split
        · simp
        split
        · simp
        split
        · simp
        · simp
      · exact other
  rw [words, isFastCommand, Bool.and_eq_true, SeesLeave]
  constructor
  · intro both
    exact ⟨both.1.1, both.2⟩
  · intro both
    exact ⟨⟨both.1, by rw [(words _).mpr both.2]; rfl⟩, both.2⟩

def stackTyped (stack : List Str) (text : Str) : List Str :=
  (commandMutations stack text).foldl stackAfter stack

theorem visible_of_leave {text : Str} (sees : SeesLeave text) : Text.strip text ≠ [] := by
  intro blank
  have simple := sees.1
  rw [blank] at simple
  cases simple

theorem stackTyped_leave {text : Str} (sees : SeesLeave text) (stack : List Str) :
    stackTyped stack text = stack.dropLast := by
  rcases (leave_iff text).mpr sees with ⟨fast, leaves⟩
  rw [stackTyped, commandMutations, if_neg (visible_of_leave sees), if_pos fast]
  by_cases top : stack = []
  · rw [if_neg fun both => both.2 top, top]
    rfl
  · rw [if_pos ⟨leaves, top⟩]
    rfl

theorem splitFirstCommand_isPrefix (line : Str) : splitFirstCommand line <+: line := by
  unfold splitFirstCommand Text.beforeFirstOf
  cases found : SEPARATORS.findSome? (Text.before? · line) with
  | none => exact List.prefix_rfl
  | some head =>
      rcases List.exists_of_findSome?_eq_some found with ⟨separator, -, before⟩
      rcases Text.before?_append before with ⟨rest, equal, -⟩
      exact ⟨rest, equal.symm⟩

theorem visible_of_parses {text user : Str} (parses : ParsesSwitch text user) :
    Text.strip text ≠ [] := by
  intro blank
  rcases parses with ⟨-, words, splits, begins⟩
  have headBlank : Text.strip (splitFirstCommand text) = [] := by
    apply Text.strip_eq_nil_iff.mpr
    intro ch member
    exact Text.strip_eq_nil_iff.mp blank ch ((splitFirstCommand_isPrefix text).subset member)
  rw [headBlank] at splits
  cases splits
  rcases begins with ⟨other, -⟩ | ⟨other, -⟩ <;> cases other

theorem stackTyped_push {text user : Str} (sees : SeesSwitch text user) (stack : List Str) :
    stackTyped stack text = if user = [] then stack else stack ++ [user] := by
  rcases sees with ⟨slow, parses⟩
  rw [stackTyped, commandMutations, if_neg (visible_of_parses parses), if_neg (by simp [slow])]
  exact stack_parse_push parses stack

theorem stackTyped_keep {text : Str} (noLeave : ¬ SeesLeave text)
    (noSwitch : ∀ user, ¬ SeesSwitch text user) (stack : List Str) :
    stackTyped stack text = stack := by
  rw [stackTyped, commandMutations]
  split
  · rfl
  split
  · rename_i fast
    rw [if_neg]
    · rfl
    · intro both
      exact noLeave ((leave_iff text).mp ⟨fast, both.1⟩)
  · rename_i slow
    apply stack_parse_keep
    intro user parses
    exact noSwitch user ⟨Bool.eq_false_iff.mpr slow, parses⟩

theorem dropLast_eq_self_iff (stack : List Str) : stack.dropLast = stack ↔ stack = [] := by
  constructor
  · intro equal
    have lengths := congrArg List.length equal
    rw [List.length_dropLast] at lengths
    apply List.eq_nil_of_length_eq_zero
    omega
  · rintro rfl
    rfl

/-! ## Single commands -/

/-- The first separator of the text stands behind the command or there is none, and the command
is words alone. -/
structure Alone (text command : Str) (words : List Str) : Prop where
  foreground : parseBackground text = none
  cut : Text.strip (splitFirstCommand text) = Text.strip command
  attached : isDetached (Text.strip command) = false
  bare : hasOperator (annotate (Text.strip command)) = false
  splits : Shlex.split (Text.strip command) = some words

/-- A `sudo` with neither `su` nor an option for a shell among its words, or not where they
count. -/
def RunsOne (words : List Str) : Prop :=
  (∀ word ∈ words, word ∉ SHELL_OPTIONS ∧ word ≠ "su".toList) ∨
    ∃ call : SudoCall, words = call.words ∧ call.behind.head? ≠ some "su".toList ∧
      call.asksShell = false

/-- The text runs in the background; or up to its first separator it is no `su`, and no `sudo` that
asks for a shell. -/
def NoSwitch (text : Str) : Prop :=
  parseBackground text = none →
    ∀ words, Shlex.split (Text.strip (splitFirstCommand text)) = some words →
      words.head? ≠ some "su".toList ∧ (words.head? = some "sudo".toList → RunsOne words.tail)

/-- The command is so spelled in the text that it is read as what it does. -/
inductive Readable (stack : List Str) (text command : Str) : Prop
  | switch (words : List Str) (alone : Alone text command words) (fits : SwitchFits words)
  | leave (leaves : commandEffect command = .leave) (plain : SeesLeave text)
  | top (leaves : commandEffect command = .leave) (top : stack = []) (noSwitch : NoSwitch text)
  | other (keeps : commandEffect command = .keep) (noSwitch : NoSwitch text)
      (stays : SeesLeave text → stack = [])

theorem sudoWords_mem (args : List Str) :
    (∀ flag ∈ (sudoWords args).flags, flag ∈ args) ∧
      ∀ word ∈ (sudoWords args).command, word ∈ args := by
  fun_induction sudoWords args with
  | case1 => simp
  | case2 arg flag => simp
  | case3 arg plain => simp
  | case4 arg next rest option later induction =>
      exact ⟨fun flag member => by simp [induction.1 flag member],
        fun word member => by simp [induction.2 word member]⟩
  | case5 arg next rest notUser flag later induction =>
      refine ⟨fun other member => ?_, fun word member =>
        List.mem_cons_of_mem _ (induction.2 word member)⟩
      rcases List.mem_cons.mp member with same | member
      · rw [same]
        exact List.mem_cons_self
      · exact List.mem_cons_of_mem _ (induction.1 other member)
  | case6 arg next rest notUser plain => simp

theorem RunsOne.begins {words : List Str} (one : RunsOne words) (user : Str) :
    ¬ BeginsSwitch ("sudo".toList :: words) user := by
  intro begins
  rcases one with apart | ⟨call, rfl, noSu, noShell⟩
  · rw [begins_sudo] at begins
    split at begins
    · rename_i isSu
      have member := (sudoWords_mem words).2 _ (List.mem_of_mem_head? isSu)
      exact (apart _ member).2 rfl
    · rcases List.any_eq_true.mp begins.1 with ⟨flag, member, isShell⟩
      exact (apart flag ((sudoWords_mem words).1 flag member)).1 (of_decide_eq_true isShell)
  · rw [call.begins_iff, if_neg noSu, noShell] at begins
    cases begins.1

theorem NoSwitch.parses {text user : Str} (noSwitch : NoSwitch text) :
    ¬ ParsesSwitch text user := by
  rintro ⟨foreground, words, splits, begins⟩
  rcases noSwitch foreground words splits with ⟨notSu, one⟩
  cases words with
  | nil => rcases begins with ⟨other, -⟩ | ⟨other, -⟩ <;> cases other
  | cons name args =>
      by_cases isSudo : name = "sudo".toList
      · rw [isSudo] at begins one
        exact (one rfl).begins user begins
      · exact not_begins (fun isSu => notSu (congrArg some isSu)) isSudo args user begins

theorem head_of_verb {word : Str} (isVerb : (fastVerb? word).isSome = true) :
    ∃ ch rest, word = ch :: rest ∧ ch ≠ 's' ∧ ¬ Shlex.isBlank ch = true ∧ ch ≠ '\\' ∧
      ¬ Shlex.isQuote ch = true := by
  have known : word ∈ LEAVE_WORDS ∨ word = "clear".toList ∨ word = "pwd".toList ∨
      word = "cd".toList := by
    unfold fastVerb? at isVerb
    split at isVerb
    · rename_i member
      exact .inl member
    split at isVerb
    · rename_i same
      exact .inr (.inl same)
    split at isVerb
    · rename_i same
      exact .inr (.inr (.inl same))
    split at isVerb
    · rename_i same
      exact .inr (.inr (.inr same))
    · cases isVerb
  rcases known with leave | rfl | rfl | rfl
  · simp only [LEAVE_WORDS, List.map_cons, List.map_nil, List.mem_cons, List.not_mem_nil,
      or_false] at leave
    rcases leave with rfl | rfl | rfl <;> exact ⟨_, _, rfl, by decide⟩
  · exact ⟨_, _, rfl, by decide⟩
  · exact ⟨_, _, rfl, by decide⟩
  · exact ⟨_, _, rfl, by decide⟩

theorem slow_of_switch {text front name : Str} {args : List Str} (isPrefix : front <+: text)
    (isSwitch : name = "su".toList ∨ name = "sudo".toList)
    (splits : Shlex.split (Text.strip front) = some (name :: args)) :
    isFastCommand text = false := by
  rw [Bool.eq_false_iff]
  intro fast
  rcases head_of_verb (Bool.and_eq_true_iff.mp fast).2 with
    ⟨ch, rest, isHead, notS, visible, notEscape, notQuote⟩
  have started : Text.strip front ≠ [] := by
    intro blank
    rw [blank] at splits
    cases splits
  rcases isPrefix with ⟨later, rfl⟩
  have begins := Text.firstWord_strip_prefix later started
  rw [isHead] at begins
  rcases List.exists_cons_of_ne_nil started with ⟨first, more, isFront⟩
  have shown : Text.isSpace first = false := by
    rcases List.rdropWhile_prefix Text.isSpace (Text.lstrip front) with ⟨spaces, isTrimmed⟩
    have trimmed : front.dropWhile Text.isSpace = first :: (more ++ spaces) := by
      rw [← List.cons_append, ← isFront]
      exact isTrimmed.symm
    have head := List.head?_dropWhile_not Text.isSpace front
    rw [trimmed] at head
    simpa using head
  rw [isFront, Text.firstWord, List.takeWhile_cons_of_pos (by rw [shown]; rfl)] at begins
  rw [isFront, (List.cons_prefix_cons.mp begins).1] at splits
  rcases Shlex.split_ordinary visible notEscape notQuote splits with ⟨word, _, same, begun⟩
  cases same
  rcases isSwitch with rfl | rfl
  · exact notS (List.cons_prefix_cons.mp begun).1
  · exact notS (List.cons_prefix_cons.mp begun).1

namespace Alone

variable {text command name user : Str} {args words : List Str}

theorem effect (alone : Alone text command words) : commandEffect command = wordsEffect words := by
  simp only [commandEffect, alone.attached, alone.bare, alone.splits]
  rfl

theorem slow (alone : Alone text command (name :: args))
    (isSwitch : name = "su".toList ∨ name = "sudo".toList) : isFastCommand text = false :=
  slow_of_switch (splitFirstCommand_isPrefix text) isSwitch (alone.cut ▸ alone.splits)

theorem sees_iff (alone : Alone text command (name :: args))
    (isSwitch : name = "su".toList ∨ name = "sudo".toList) :
    SeesSwitch text user ↔ BeginsSwitch (name :: args) user := by
  rw [SeesSwitch, ParsesSwitch, alone.cut, alone.splits]
  simp [alone.slow isSwitch, alone.foreground]

theorem right_iff_entered (alone : Alone text command (name :: args))
    (isSwitch : name = "su".toList ∨ name = "sudo".toList) (stack : List Str)
    {entering : Option Str} (enters : wordsEffect (name :: args) = entered entering)
    (begins : BeginsSwitch (name :: args) user) (started : user ≠ []) :
    stackTyped stack text = (commandEffect command).apply stack ↔ entering = some user := by
  rw [stackTyped_push ((alone.sees_iff isSwitch).mpr begins), if_neg started, alone.effect, enters]
  cases entering with
  | none => simp [entered, StackEffect.apply]
  | some other =>
      by_cases blank : other = []
      · simp [entered, StackEffect.apply, blank, Ne.symm started]
      · simp [entered, StackEffect.apply, blank, eq_comm]

theorem right_iff_kept (alone : Alone text command (name :: args))
    (isSwitch : name = "su".toList ∨ name = "sudo".toList) (stack : List Str)
    {entering : Option Str} (enters : wordsEffect (name :: args) = entered entering)
    (none : ∀ user, ¬ BeginsSwitch (name :: args) user) :
    stackTyped stack text = (commandEffect command).apply stack ↔
      ∀ user, entering = some user → user = [] := by
  have stays : ¬ SeesLeave text := by
    intro leaves
    have fast := ((leave_iff text).mpr leaves).1
    rw [alone.slow isSwitch] at fast
    cases fast
  rw [stackTyped_keep stays fun user => mt (alone.sees_iff isSwitch).mp (none user), alone.effect,
    enters]
  cases entering with
  | none => simp [entered, StackEffect.apply]
  | some other =>
      by_cases blank : other = []
      · simp [entered, StackEffect.apply, blank]
      · simp [entered, StackEffect.apply, blank]

theorem su_right_iff (alone : Alone text command ("su".toList :: args)) (stack : List Str)
    (started : firstPlain "root".toList args ≠ []) :
    stackTyped stack text = (commandEffect command).apply stack ↔ SuFits "root".toList args := by
  rw [alone.right_iff_entered (.inl rfl) stack rfl ((begins_su _ _).mpr rfl) started, SuFits,
    and_iff_right started]

theorem sudo_right_iff {call : SudoCall} (alone : Alone text command ("sudo".toList :: call.words))
    (stack : List Str) (started : call.behind.head? = some "su".toList →
      firstPlain call.named call.behind.tail ≠ []) :
    stackTyped stack text = (commandEffect command).apply stack ↔ call.Fits := by
  have enters : wordsEffect ("sudo".toList :: call.words) = entered (sudoUser call.words) := rfl
  have isUser := call.sudoUser_words
  have begins := call.begins_iff
  rw [SudoCall.Fits]
  by_cases isSu : call.behind.head? = some "su".toList
  · rcases List.head?_eq_some_iff.mp isSu with ⟨rest, isBehind⟩
    have dropped : call.behind.dropWhile ('=' ∈ ·) = "su".toList :: rest := by
      rw [isBehind]
      rfl
    have started : firstPlain call.named rest ≠ [] := by
      rw [isBehind] at started
      exact started rfl
    have seen : BeginsSwitch ("sudo".toList :: call.words) (firstPlain call.named rest) := by
      rw [begins, if_pos isSu, isBehind]
      rfl
    rw [alone.right_iff_entered (.inr rfl) stack enters seen started, isUser, dropped]
    simp only [if_true, SuFits, started, ne_eq, not_false_eq_true, true_and]
    cases call.oneShot with
    | true => simp
    | false => simp
  · have noSu : ∀ rest, call.behind.dropWhile ('=' ∈ ·) ≠ "su".toList :: rest := by
      intro rest dropped
      exact isSu (call.direct (by rw [dropped]; rfl))
    simp only [isSu, if_false] at begins
    cases shell : call.asksShell with
    | true =>
        rw [alone.right_iff_entered (.inr rfl) stack enters ((begins _).mpr ⟨shell, rfl⟩)
          call.named_ne_nil, isUser]
        cases dropped : call.behind.dropWhile ('=' ∈ ·) with
        | nil => cases call.oneShot <;> simp [shell]
        | cons command rest =>
            have other : command ≠ "su".toList := fun same => noSu rest (same ▸ dropped)
            dsimp only
            rw [if_neg other, if_neg other]
            cases call.oneShot <;> simp
    | false =>
        have none : ∀ user, ¬ BeginsSwitch ("sudo".toList :: call.words) user := by
          intro user seen
          have asks := ((begins user).mp seen).1
          rw [shell] at asks
          cases asks
        rw [alone.right_iff_kept (.inr rfl) stack enters none, isUser]
        cases dropped : call.behind.dropWhile ('=' ∈ ·) with
        | nil => cases call.oneShot <;> simp [shell]
        | cons command rest =>
            have other : command ≠ "su".toList := fun same => noSu rest (same ▸ dropped)
            dsimp only
            rw [if_neg other, if_neg other]
            cases call.oneShot <;> simp

end Alone

theorem NoSwitch.stackTyped {text : Str} {stack : List Str} (noSwitch : NoSwitch text)
    (stays : SeesLeave text → stack = []) : stackTyped stack text = stack := by
  by_cases leaves : SeesLeave text
  · rw [stackTyped_leave leaves, stays leaves]
    rfl
  · exact stackTyped_keep leaves (fun user sees => noSwitch.parses sees.2) stack

theorem SudoCall.Fits.started {call : SudoCall} (fits : call.Fits)
    (isSu : call.behind.head? = some "su".toList) :
    firstPlain call.named call.behind.tail ≠ [] := by
  rcases List.head?_eq_some_iff.mp isSu with ⟨rest, isBehind⟩
  rw [SudoCall.Fits, isBehind] at fits
  rw [isBehind]
  exact fits.2.1

theorem Readable.right {stack : List Str} {text command : Str}
    (readable : Readable stack text command) :
    stackTyped stack text = (commandEffect command).apply stack := by
  cases readable with
  | switch words alone fits =>
      rcases fits with ⟨args, rfl, fits⟩ | ⟨call, rfl, fits⟩
      · exact (alone.su_right_iff stack fits.1).mpr fits
      · exact (alone.sudo_right_iff stack fits.started).mpr fits
  | leave leaves plain =>
      rw [stackTyped_leave plain, leaves]
      rfl
  | top leaves top noSwitch =>
      rw [noSwitch.stackTyped fun _ => top, leaves, top]
      rfl
  | other keeps noSwitch stays =>
      rw [noSwitch.stackTyped stays, keeps]
      rfl

/-! ## Lines -/

def stackOf (stack : List Str) (commands : List Str) : List Str :=
  commands.foldl (fun stack command => (commandEffect command).apply stack) stack

theorem stackOf_keep {commands : List Str} (stack : List Str)
    (keep : ∀ command ∈ commands, commandEffect command = .keep) :
    stackOf stack commands = stack := by
  unfold stackOf
  induction commands with
  | nil => rfl
  | cons command rest induction =>
      rw [List.foldl_cons, keep command List.mem_cons_self]
      exact induction fun other member => keep other (List.mem_cons_of_mem _ member)

/-- The user stack after a line is what the executed commands make of it. -/
def SwitchesRight (env : Env) (verdict : Nat → Bool) (line : Str) (session : Session) : Prop :=
  (dispatchLine env line session).1.world.userStack =
    stackOf session.world.userStack (executedCommands env verdict line session)

section

variable {env : Env} {succeeded : Bool} {session : Session} {segments : List Segment}

def SegmentsReadable (env : Env) (succeeded : Bool) (session : Session) (segments : List Segment) :
    Prop :=
  ∀ before segment rest seen reached, segments = before ++ segment :: rest →
    Answered env succeeded session before seen reached → shouldRun segment.operator seen = true →
      Readable reached.world.userStack segment.command segment.command

/-- Where a segment is left to the model, nothing that is handed over switches users again. -/
def HandoverSilent (env : Env) (verdict : Nat → Bool) (session : Session) (segments : List Segment) :
    Prop :=
  ∀ before segment rest seen reached, segments = before ++ segment :: rest →
    Answered env true session before seen reached → shouldRun segment.operator seen = true →
      LeftToModel env segment.command reached →
        NoSwitch (remainder segment.command rest) ∧
          ∀ command ∈ executedBehind verdict before.length rest, commandEffect command = .keep

/-- The commands of the line are so spelled that they are read as what they do. Several commands
that are no chain switch nothing. -/
def LineReadable (env : Env) (verdict : Nat → Bool) (line : Str) (session : Session) : Prop :=
  match chainSegments line with
  | none =>
      match executedCommands env verdict line session with
      | [command] => Readable session.world.userStack line command
      | commands =>
          NoSwitch line ∧ (SeesLeave line → session.world.userStack = []) ∧
            ∀ command ∈ commands, commandEffect command = .keep
  | some segments =>
      SegmentsReadable env true (session.log (.input line)) segments ∧
        HandoverSilent env verdict (session.log (.input line)) segments

theorem stack_chainLoop (readable : SegmentsReadable env succeeded session segments) :
    (chainLoop env succeeded segments session).session.world.userStack =
      stackOf session.world.userStack
        (executedSegments segments (chainLoop env succeeded segments session).decisions) := by
  induction segments generalizing succeeded session with
  | nil => rfl
  | cons segment rest induction =>
      rw [chainLoop]
      by_cases runs : shouldRun segment.operator succeeded = true
      · have applies := applies_dispatchSegment env segment.command session
        have here : (dispatchSegment env segment.command session).1.world.userStack =
            (commandEffect segment.command).apply session.world.userStack :=
          applies.userStack.trans
            (readable [] segment rest succeeded session rfl (.none ..) runs).right
        rw [if_pos runs]
        cases outcome : dispatchSegment env segment.command session with
        | mk next stage =>
            rw [outcome] at here
            cases stage with
            | raised => simpa [executedSegments, Decision.executes, stackOf] using here
            | declined => simpa [executedSegments, Decision.executes, stackOf] using here
            | handled ok =>
                have later : SegmentsReadable env ok next rest := by
                  intro before other behind seen reached split answered
                  exact readable (segment :: before) other behind seen reached (by rw [split]; rfl)
                    (.ran runs outcome answered)
                exact (induction later).trans (congrArg (stackOf · _) here)
      · have later : SegmentsReadable env true session rest := by
          intro before other behind seen reached split answered
          exact readable (segment :: before) other behind seen reached (by rw [split]; rfl)
            (.skipped (Bool.eq_false_iff.mpr runs) answered)
        rw [if_neg runs]
        exact induction later

theorem stack_handedOver {verdict : Nat → Bool} {text : Str}
    (silent : HandoverSilent env verdict session segments)
    (ends : (chainLoop env true segments session).ending = .handedOver text) :
    NoSwitch text ∧
      ∀ command ∈ executedLater verdict (chainLoop env true segments session) segments,
        commandEffect command = .keep := by
  rcases exists_handedOver ends with ⟨before, segment, rest, seen, reached, split, answered, runs, left⟩
  have handed := silent before segment rest seen reached split answered runs left
  have loop := chainLoop_handsOver rest answered runs left
  dsimp only at loop
  rw [← split] at loop
  have isText : text = remainder segment.command rest := by
    rw [ends] at loop
    exact ChainEnd.handedOver.inj loop.1
  have behind : segments.drop (before.length + 1) = rest := by
    rw [split, ← List.drop_drop, List.drop_left]
    rfl
  rw [isText, executedLater, loop.2.2, behind]
  exact handed

theorem switches_chained {verdict : Nat → Bool} {line : Str}
    (chained : chainSegments line = some segments)
    (readable : SegmentsReadable env true (session.log (.input line)) segments)
    (silent : HandoverSilent env verdict (session.log (.input line)) segments) :
    SwitchesRight env verdict line session := by
  rcases Option.filter_eq_some_iff.mp chained with ⟨split, several⟩
  have applies := (applies_dispatchChain env segments (session.log (.input line))).before
    (Session.shell_log ..)
  have logged : (session.log (.input line)).world.userStack = session.world.userStack :=
    congrArg ShellView.userStack (Session.shell_log (.input line) session)
  have looped := (applies_chainLoop env true segments (session.log (.input line))).userStack.symm.trans
    (stack_chainLoop readable)
  rw [logged] at looped
  rw [SwitchesRight]
  simp only [dispatchLine, chained, executedCommands, split, of_decide_eq_true several, if_true]
  rw [applies.userStack, List.foldl_append, logged, looped, stackOf, stackOf, List.foldl_append]
  cases ends : (chainLoop env true segments (session.log (.input line))).ending with
  | finished => rfl
  | raised => rfl
  | handedOver text =>
      rcases stack_handedOver silent ends with ⟨noSwitch, keep⟩
      exact (stack_parse_keep (fun user => noSwitch.parses) _).trans (stackOf_keep _ keep).symm

theorem userStack_unchained {line : Str} (unchained : chainSegments line = none)
    (session : Session) :
    (dispatchLine env line session).1.world.userStack =
      stackTyped session.world.userStack line := by
  have applies := (applies_dispatchOne env line (session.log (.input line))).before
    (Session.shell_log ..)
  simp only [dispatchLine, unchained]
  exact applies.userStack

end

/-- The user stack after a line of one command is what the command makes of it. -/
def StackRight (env : Env) (line command : Str) (session : Session) : Prop :=
  (dispatchLine env line session).1.world.userStack =
    (commandEffect command).apply session.world.userStack

def interactiveCall : SudoCall where
  options := [.user "-u".toList "bob".toList, .flag "-n".toList, .shell "-i".toList]
  ended := false
  behind := []
  valid := by
    intro option member
    simp only [List.mem_cons, List.not_mem_nil, or_false] at member
    rcases member with rfl | rfl | rfl
    · exact ⟨by decide, by decide, by decide⟩
    · exact ⟨by decide, by decide, by decide, [("-n".toList, [])], by decide, by decide⟩
    · show "-i".toList ∈ SHELL_OPTIONS
      decide
  plain := by decide
  unlisted := by decide
  direct := by decide

end Protocol

end LlmHoneypot
