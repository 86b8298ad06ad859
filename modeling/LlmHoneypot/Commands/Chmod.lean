import LlmHoneypot.Foundation.FileModes
import LlmHoneypot.Foundation.Getopt
import LlmHoneypot.HoneyFs.Tree
import Mathlib.Data.Int.Bitwise

/-! # chmod

`commands/chmod.py`: the mode that the command writes into an entry, beside the one that
`chmod` of coreutils gives. -/

namespace LlmHoneypot

namespace Chmod

open FileModes (isOctal octalValue)
open HoneyFs (Raised)

structure Inode where
  type : HoneyFs.EntryType
  mode : Int
  deriving DecidableEq, Repr

/-- What the command asks of the filesystem and the current directory. -/
structure Place where
  /-- `getfile` of the path that a name is resolved to; the entry's number. -/
  lookup : Str → Except Raised (Option Nat)
  /-- Whether the current directory has entries. -/
  hasEntries : Except Raised Bool

/-- The entries, and what was written to standard error. -/
structure State where
  inodes : Nat → Inode
  errors : List Str := []

def State.errorWrite (state : State) (text : Str) : State :=
  { state with errors := state.errors ++ [text] }

def State.setMode (state : State) (file : Nat) (mode : Int) : State :=
  { state with
    inodes := Function.update state.inodes file { state.inodes file with mode } }

/-! ## Modes -/

/-- `[ugoa]*([-+=]([rwxXst]*|[ugo]))+`. -/
def isSymbolic (mode : Str) : Bool :=
  let (who, actions) := FileModes.groups mode
  who.all FileModes.isWho && actions ≠ [] && actions.all fun action =>
    action.2.all FileModes.isPermission || ["u".toList, "g".toList, "o".toList].contains action.2

/-- `[-+=]?[0-7]+`. -/
def isNumeric (mode : Str) : Bool :=
  match mode with
  | '-' :: digits | '+' :: digits | '=' :: digits => isOctal digits
  | digits => isOctal digits

def matchesMode (mode : Str) : Bool := isSymbolic mode || isNumeric mode

/-- `int(mode, 8)` of a text that matches; `none` for the `ValueError`. -/
def int8 (mode : Str) : Option Int :=
  match mode with
  | '+' :: digits => if isOctal digits then some (octalValue digits) else none
  | '-' :: digits => if isOctal digits then some (-(octalValue digits : Int)) else none
  | digits => if isOctal digits then some (octalValue digits) else none

def NO_PERM_BITS_MASK : Int := 0

def newMode (mode : Str) (old : Int) : Int :=
  let fileModeNoPerm := Int.land old NO_PERM_BITS_MASK
  match int8 mode with
  | some value => Int.lor fileModeNoPerm value
  | none => old

/-! ## The command -/

def TRY_CHMOD_HELP_MSG : Str := "Try 'chmod --help' for more information.\n".toList

def SHORT_OPTIONS : Str := "cfvR".toList

def LONG_OPTIONS : List Str :=
  ["changes".toList, "silent".toList, "quiet".toList, "verbose".toList,
    "no-preserve-root".toList, "preserve-root".toList, "reference=".toList,
    "recursive".toList, "help".toList, "version".toList]

def takeMode : (mode : Option Str) → List Str → Option Str × List Str
  | mode, [] => (mode, [])
  | none, arg :: args =>
      if arg.head? = some '-' ∧ matchesMode arg then takeMode (some arg) args
      else
        let (mode, rest) := takeMode none args
        (mode, arg :: rest)
  | some mode, arg :: args =>
      let (mode, rest) := takeMode (some mode) args
      (mode, arg :: rest)

def refusesLong : (waiting : Option Str) → List Str → Bool
  | some name, [] => "--".toList.isPrefixOf name
  | none, [] => false
  | some _, _ :: args => refusesLong none args
  | none, arg :: args =>
      if arg = "--".toList then false
      else if arg.head? = some '-' ∧ arg ≠ "-".toList then
        match Getopt.takeOption LONG_OPTIONS SHORT_OPTIONS arg with
        | .error _ => "--".toList.isPrefixOf arg
        | .ok taken => refusesLong taken.waiting args
      else refusesLong none args

structure Arguments where
  opts : List Getopt.Given
  mode : Option Str
  files : List Str
  deriving DecidableEq, Repr

/-- `parse_args`; the error is what it writes. -/
def parseArgs (args : List Str) : Except Str Arguments :=
  let (mode, argsNew) := takeMode none args
  match Getopt.getopt true SHORT_OPTIONS LONG_OPTIONS argsNew with
  | .error opt =>
      if refusesLong none argsNew then
        .error ("chmod: unrecognized option '--".toList ++ opt ++ "'\n".toList ++
          TRY_CHMOD_HELP_MSG)
      else
        .error ("chmod: invalid option -- '".toList ++ opt ++ "'\n".toList ++ TRY_CHMOD_HELP_MSG)
  | .ok (opts, rest) =>
      match mode, rest with
      | none, first :: files => .ok ⟨opts, some first, files⟩
      | mode, files => .ok ⟨opts, mode, files⟩

section

variable (place : Place)

def changeFile (mode : Str) (state : State) (file : Str) : Except Raised State :=
  let cannotAccess :=
    state.errorWrite
      ("chmod: cannot access '".toList ++ file ++ "': No such file or directory\n".toList)
  if file = "*".toList then
    place.hasEntries.map fun hasEntries => if hasEntries then state else cannotAccess
  else
    (place.lookup file).map fun found =>
      match found with
      | none => cannotAccess
      | some entry => state.setMode entry (newMode mode (state.inodes entry).mode)

/-- The loop over the operands, which an exception ends. -/
def changeFiles (mode : Str) : List Str → State → State × Option Raised
  | [], state => (state, none)
  | file :: files, state =>
      match changeFile place mode state file with
      | .error raised => (state, some raised)
      | .ok changed => changeFiles mode files changed

variable (help version : Str)

/-- The text of the first option that asks for one. -/
def information : List Getopt.Given → Option Str
  | [] => none
  | (option, _) :: opts =>
      if option = "--help".toList then some help
      else if option = "--version".toList then some version
      else information opts

def call (args : List Str) (state : State) : State × Option Raised :=
  match parseArgs args with
  | .error message => (state.errorWrite message, none)
  | .ok ⟨opts, mode, files⟩ =>
      match information help version opts with
      | some text => (state.errorWrite text, none)
      | none =>
          match mode, files with
          | none, _ =>
              (state.errorWrite ("chmod: missing operand\n".toList ++ TRY_CHMOD_HELP_MSG), none)
          | some mode, [] =>
              if mode = [] ∨ mode.head? = some '-' then
                (state.errorWrite ("chmod: missing operand\n".toList ++ TRY_CHMOD_HELP_MSG), none)
              else
                (state.errorWrite
                  ("chmod: missing operand after ‘".toList ++ mode ++ "’\n".toList ++
                    TRY_CHMOD_HELP_MSG), none)
          | some mode, files =>
              if matchesMode mode then changeFiles place mode files state
              else
                (state.errorWrite
                  ("chmod: invalid mode: ‘".toList ++ mode ++ "’\n".toList ++
                    TRY_CHMOD_HELP_MSG), none)

end

/-! ## When the mode is right -/

section

variable {place : Place}

theorem newMode_eq (mode : Str) (old : Int) : newMode mode old = (int8 mode).getD old := by
  have cleared : Int.land old NO_PERM_BITS_MASK = 0 := by
    cases old with
    | ofNat bits => exact congrArg Int.ofNat (Nat.and_zero bits)
    | negSucc bits => exact congrArg Int.ofNat (by simp [Nat.ldiff])
  rw [newMode, cleared]
  cases int8 mode with
  | none => rfl
  | some value =>
      cases value with
      | ofNat bits => exact congrArg Int.ofNat (Nat.zero_or bits)
      | negSucc bits => exact congrArg Int.negSucc (by simp [Nat.ldiff])

def raises (place : Place) (file : Str) : Bool :=
  if file = "*".toList then !place.hasEntries.isOk else !(place.lookup file).isOk

theorem changeFile_inodes {mode file : Str} {state changed : State}
    (ran : changeFile place mode state file = .ok changed) (entry : Nat) :
    changed.inodes entry =
      if place.lookup file = .ok (some entry) ∧ file ≠ "*".toList then
        { state.inodes entry with mode := (int8 mode).getD (state.inodes entry).mode }
      else state.inodes entry := by
  rw [changeFile] at ran
  by_cases glob : file = "*".toList
  · have stays : ¬ (place.lookup file = .ok (some entry) ∧ file ≠ "*".toList) :=
      fun leads => leads.2 glob
    rw [if_pos glob] at ran
    rw [if_neg stays]
    cases entries : place.hasEntries with
    | error raised =>
        rw [entries] at ran
        cases ran
    | ok hasEntries =>
        rw [entries] at ran
        cases ran
        cases hasEntries with
        | false => rfl
        | true => rfl
  · rw [if_neg glob] at ran
    cases found : place.lookup file with
    | error raised =>
        rw [found] at ran
        cases ran
    | ok found_ =>
        rw [found] at ran
        cases ran
        cases found_ with
        | none =>
            have stays : ¬ ((.ok none : Except Raised (Option Nat)) = .ok (some entry) ∧
                file ≠ "*".toList) := by simp
            rw [if_neg stays]
            rfl
        | some other =>
            by_cases same : other = entry
            · rw [same, if_pos ⟨rfl, glob⟩, ← newMode_eq]
              exact Function.update_self ..
            · have stays : ¬ ((.ok (some other) : Except Raised (Option Nat)) = .ok (some entry) ∧
                  file ≠ "*".toList) := by simp [same]
              rw [if_neg stays]
              exact Function.update_of_ne (Ne.symm same) ..

theorem changeFile_ok (mode file : Str) (state : State) :
    (∃ changed, changeFile place mode state file = .ok changed) ↔ raises place file = false := by
  unfold changeFile raises
  by_cases glob : file = "*".toList
  · rw [if_pos glob, if_pos glob]
    cases place.hasEntries with
    | error raised =>
        constructor
        · rintro ⟨changed, ran⟩
          cases ran
        · intro goesOn
          cases goesOn
    | ok hasEntries => exact ⟨fun _ => rfl, fun _ => ⟨_, rfl⟩⟩
  · rw [if_neg glob, if_neg glob]
    cases place.lookup file with
    | error raised =>
        constructor
        · rintro ⟨changed, ran⟩
          cases ran
        · intro goesOn
          cases goesOn
    | ok found => exact ⟨fun _ => rfl, fun _ => ⟨_, rfl⟩⟩

theorem changeFiles_other (mode : Str) {files : List Str} {entry : Nat}
    (elsewhere : ∀ file ∈ files, place.lookup file ≠ .ok (some entry)) (state : State) :
    (changeFiles place mode files state).1.inodes entry = state.inodes entry := by
  induction files generalizing state with
  | nil => rfl
  | cons file files induction =>
      rw [changeFiles]
      cases ran : changeFile place mode state file with
      | error raised => rfl
      | ok changed =>
          have later := induction (fun other member => elsewhere other (.tail _ member)) changed
          rw [changeFile_inodes ran, if_neg fun leads => elsewhere file (.head _) leads.1] at later
          exact later

/-- The loop comes to the operand, and it is not `*`. -/
def Reached (place : Place) (files : List Str) (file : Str) : Prop :=
  file ≠ "*".toList ∧ (files.takeWhile (· ≠ file)).any (raises place) = false

instance (files : List Str) (file : Str) : Decidable (Reached place files file) :=
  inferInstanceAs (Decidable (_ ∧ _))

theorem changeFiles_once (mode : Str) {files : List Str} {file : Str} {entry : Nat}
    (once : files.filter (fun file => place.lookup file = .ok (some entry)) = [file])
    (state : State) :
    (changeFiles place mode files state).1.inodes entry =
      if Reached place files file then
        { state.inodes entry with mode := (int8 mode).getD (state.inodes entry).mode }
      else state.inodes entry := by
  induction files generalizing state with
  | nil => cases once
  | cons first files induction =>
      by_cases leads : place.lookup first = .ok (some entry)
      · simp only [List.filter_cons, leads, decide_true, if_true] at once
        rcases List.cons.inj once with ⟨same, others⟩
        have elsewhere : ∀ other ∈ files, place.lookup other ≠ .ok (some entry) := by
          intro other member found
          exact List.filter_eq_nil_iff.mp others other member (decide_eq_true found)
        subst same
        have reached : Reached place (first :: files) first ↔ first ≠ "*".toList := by
          simp [Reached]
        simp only [changeFiles, reached]
        cases ran : changeFile place mode state first with
        | error raised =>
            by_cases glob : first = "*".toList
            · simp only [glob, ne_eq, not_true_eq_false, if_false]
            · rw [changeFile, if_neg glob, leads] at ran
              cases ran
        | ok changed =>
            simp only [changeFiles_other mode elsewhere, changeFile_inodes ran, leads, true_and]
      · simp only [List.filter_cons, leads, decide_false, Bool.false_eq_true, if_false] at once
        have differs : first ≠ file := by
          intro same
          have member : file ∈ files.filter fun file => place.lookup file = .ok (some entry) := by
            rw [once]
            exact List.mem_singleton_self file
          exact leads (same ▸ of_decide_eq_true (List.mem_filter.mp member).2)
        have reached : Reached place (first :: files) file ↔
            raises place first = false ∧ Reached place files file := by
          rw [Reached, Reached, List.takeWhile_cons_of_pos (by simpa using differs), List.any_cons,
            Bool.or_eq_false_iff]
          exact and_left_comm
        simp only [changeFiles, reached]
        cases ran : changeFile place mode state first with
        | error raised =>
            have isRaising : raises place first = true := by
              by_contra goesOn
              rcases (changeFile_ok mode first state).mpr (Bool.eq_false_iff.mpr goesOn) with
                ⟨changed, other⟩
              rw [ran] at other
              cases other
            simp only [isRaising, Bool.true_eq_false, false_and, if_false]
        | ok changed =>
            have goesOn : raises place first = false :=
              (changeFile_ok mode first state).mp ⟨changed, ran⟩
            have same : changed.inodes entry = state.inodes entry := by
              rw [changeFile_inodes ran, if_neg fun both => leads both.1]
            simp only [goesOn, true_and]
            rw [induction once, same]

def rightMode (umask : FileModes.ModeBits) (mode : Str) (type : HoneyFs.EntryType) (old : Nat) :
    Nat :=
  if matchesMode mode then FileModes.chmod (type = .dir) umask mode old else old

/-- What the code needs: a number is all of the right mode, and anything else, `*` and an
exception before the file among it, changes nothing. -/
def Fits (place : Place) (umask : FileModes.ModeBits) (files : List Str) (file mode : Str)
    (type : HoneyFs.EntryType) (old : Nat) : Prop :=
  matchesMode mode = true →
    match if Reached place files file then int8 mode else none with
    | none => FileModes.chmod (type = .dir) umask mode old = old
    | some (.ofNat number) =>
        if number < 4096 then old < 4096 ∧ FileModes.chmod (type = .dir) umask mode old = number
        else number = old
    | some (.negSucc _) => False

theorem isNumeric_of_int8 {mode : Str} {value : Int} (reads : int8 mode = some value) :
    ∃ digits, isOctal digits = true ∧
      (mode = digits ∧ value = octalValue digits ∨
        ∃ ch op, mode = ch :: digits ∧ FileModes.operatorOf ch = some op ∧
          (value = octalValue digits ∨ op = .remove ∧ value = -(octalValue digits : Int))) := by
  unfold int8 at reads
  split at reads
  · rename_i digits
    split at reads
    · rename_i octal
      exact ⟨digits, octal, .inr ⟨'+', .add, rfl, rfl, .inl (Option.some.inj reads).symm⟩⟩
    · cases reads
  · rename_i digits
    split at reads
    · rename_i octal
      exact ⟨digits, octal, .inr ⟨'-', .remove, rfl, rfl, .inr ⟨rfl, (Option.some.inj reads).symm⟩⟩⟩
    · cases reads
  · split at reads
    · rename_i octal
      exact ⟨mode, octal, .inl ⟨rfl, (Option.some.inj reads).symm⟩⟩
    · cases reads

theorem chmod_of_large {mode : Str} {number : Nat} (reads : int8 mode = some (number : Int))
    (large : ¬ number < 4096) (isDir : Bool) (umask : FileModes.ModeBits) (old : Nat) :
    FileModes.chmod isDir umask mode old = old := by
  rcases isNumeric_of_int8 reads with ⟨digits, octal, ⟨isMode, isValue⟩ | ⟨ch, op, isMode, isOp, value⟩⟩
  · rw [Int.ofNat_inj.mp isValue] at large
    rw [FileModes.chmod, isMode, FileModes.compile_number octal, if_neg large]
  · have same : number = octalValue digits := by
      rcases value with isValue | ⟨-, isValue⟩
      · exact Int.ofNat_inj.mp isValue
      · omega
    rw [same] at large
    rw [FileModes.chmod, isMode, FileModes.compile_signed isOp octal, if_neg large]

/-- The mode in an entry after `chmod` is the right one exactly when it has no number that
would have to leave bits in place. -/
theorem chmod_correct_iff (umask : FileModes.ModeBits) (help version : Str) {args : List Str}
    {arguments : Arguments} {mode file : Str} {entry old : Nat} {state : State}
    (parsed : parseArgs args = .ok arguments)
    (silent : information help version arguments.opts = none) (given : arguments.mode = some mode)
    (once : arguments.files.filter (fun file => place.lookup file = .ok (some entry)) = [file])
    (isMode : (state.inodes entry).mode = (old : Int)) :
    (call place help version args state).1.inodes entry =
        ⟨(state.inodes entry).type, rightMode umask mode (state.inodes entry).type old⟩ ↔
      Fits place umask arguments.files file mode (state.inodes entry).type old := by
  rcases arguments with ⟨opts, _, files⟩
  cases given
  have result : (call place help version args state).1.inodes entry =
      if matchesMode mode = true ∧ Reached place files file then
        ⟨(state.inodes entry).type, (int8 mode).getD (old : Int)⟩
      else ⟨(state.inodes entry).type, old⟩ := by
    have before : state.inodes entry = ⟨(state.inodes entry).type, old⟩ := by
      rw [← isMode]
    have some_ : files ≠ [] := by
      intro nothing
      rw [nothing] at once
      cases once
    rw [call, parsed]
    simp only [silent]
    cases files with
    | nil => exact absurd rfl some_
    | cons first files =>
        by_cases accepted : matchesMode mode = true
        · simp only [if_pos accepted]
          rw [changeFiles_once mode once, isMode]
          simp only [accepted, true_and]
          split
          · rfl
          · exact before
        · simp only [if_neg accepted]
          rw [if_neg fun both => accepted both.1]
          exact before
  rw [result, rightMode, Fits]
  by_cases accepted : matchesMode mode = true
  · by_cases reached : Reached place files file
    · simp only [accepted, reached, and_self, if_true, true_implies, Inode.mk.injEq, true_and]
      cases reads : int8 mode with
      | none => simp [eq_comm]
      | some value =>
          cases value with
          | negSucc number =>
              apply iff_of_false _ id
              intro equal
              have negative := Int.negSucc_lt_zero number
              rw [Option.getD_some] at equal
              omega
          | ofNat number =>
              have above := FileModes.chmod_div (decide ((state.inodes entry).type = .dir)) umask
                mode old
              simp only [Option.getD_some]
              rw [Int.ofNat_eq_natCast, Int.ofNat_inj]
              split
              · omega
              · rename_i large
                rw [chmod_of_large reads large]
    · simp only [accepted, reached, and_false, if_true, if_false, true_implies, Inode.mk.injEq,
        true_and, Int.ofNat_inj]
      exact eq_comm
  · simp [accepted]

/-- `chmod u+x` on an executable file, which is left as it is. -/
theorem chmod_correct_iff_executable :
    (call ⟨fun _ => .ok (some 7), .ok true⟩ [] [] ["u+x".toList, "run".toList]
        ⟨fun _ => ⟨.file, 0o100755⟩, []⟩).1.inodes 7 =
      ⟨.file, rightMode 0o022 "u+x".toList .file 0o100755⟩ :=
  (@chmod_correct_iff ⟨fun _ => .ok (some 7), .ok true⟩ 0o022 [] [] _
      ⟨[], some "u+x".toList, ["run".toList]⟩ _ "run".toList 7 0o100755
      ⟨fun _ => ⟨.file, 0o100755⟩, []⟩ (by rfl) rfl rfl (by rfl) rfl).mpr
    fun _ => by
      have noNumber : int8 "u+x".toList = none := by decide
      have same : FileModes.chmod false 0o022 "u+x".toList 0o100755 = 0o100755 := by decide
      rw [if_pos (by decide), noNumber]
      exact same

/-- A number clears the type of a regular file. -/
theorem chmod_755_clears_type :
    (call ⟨fun _ => .ok (some 7), .ok true⟩ [] [] ["755".toList, "run".toList]
        ⟨fun _ => ⟨.file, 0o100644⟩, []⟩).1.inodes 7 = ⟨.file, 0o755⟩ ∧
      rightMode 0o022 "755".toList .file 0o100644 = 0o100755 := by
  constructor
  · decide
  · decide

end

end Chmod

end LlmHoneypot
