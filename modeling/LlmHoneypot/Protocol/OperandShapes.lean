import LlmHoneypot.Foundation.OsPath
import LlmHoneypot.Protocol.Landing

/-! # Operands of `touch`, `rm`, `cp` and `mv`

What the session's files become under a list of operands, against what the commands
make of operands: files copied or moved into a directory, directories removed with
what is below them, files that `touch` leaves as they were. -/

namespace LlmHoneypot

namespace Protocol

open CmdParser Responder

/-! ## What the session makes of them -/

inductive OperandVerb
  | touch
  | rm
  | cp
  | mv
  deriving DecidableEq, Repr

def OperandVerb.text : OperandVerb → Str
  | .touch => "touch".toList
  | .rm => "rm".toList
  | .cp => "cp".toList
  | .mv => "mv".toList

def plainWords (words : List Str) : List Str := words.filter (!isFlag ·)

def firstAndLast : List Str → Option (Str × Str)
  | first :: second :: rest => some (first, (second :: rest).getLast (List.cons_ne_nil _ _))
  | _ => none

/-- The branch of `parse_input_mutations` for the verb, on the words behind it. -/
def operandMutations (verb : OperandVerb) (words : List Str) : List CmdMutation :=
  match verb with
  | .touch => (plainWords words).map (.createFile · [])
  | .rm => (plainWords words).map .removeFile
  | .cp => (firstAndLast (plainWords words)).toList.map fun (path, dst) => .copyFile path dst
  | .mv => (firstAndLast (plainWords words)).toList.map fun (path, dst) => .moveFile path dst

/-- The first command of the line is the verb, with the words behind it. -/
structure Written (verb : OperandVerb) (words : List Str) (line : Str) : Prop where
  foreground : parseBackground line = none
  spelled : ∃ args, verbArgs verb.text (Text.strip (splitFirstCommand line)) = some args ∧
    tokens args = words

theorem firstWord_of_verbArgs {verb : OperandVerb} {text args : Str}
    (matched : verbArgs verb.text text = some args) :
    Text.firstWord (Text.lstrip text) = verb.text := by
  rcases Option.bind_eq_some_iff.mp matched with ⟨behind, found, -⟩
  apply firstWord_of_afterVerb _ found
  cases verb <;> decide

theorem afterVerb_other {verb : OperandVerb} {other text : Str}
    (begins : Text.firstWord (Text.lstrip text) = verb.text)
    (visible : other.all (fun ch => !Text.isSpace ch) = true) (differs : other ≠ verb.text) :
    afterVerb other text = none := by
  rw [Option.eq_none_iff_forall_ne_some]
  intro rest found
  exact differs ((firstWord_of_afterVerb visible found).symm.trans begins)

theorem parseUserSwitch_verb {verb : OperandVerb} {text : Str}
    (begins : Text.firstWord text = verb.text) : parseUserSwitch text = none := by
  have started : ∃ ch rest, text = ch :: rest ∧ verb.text.head? = some ch := by
    cases text with
    | nil => cases verb <;> cases begins
    | cons ch rest =>
        by_cases space : Text.isSpace ch = true
        · simp only [Text.firstWord, List.takeWhile, space] at begins
          cases verb <;> cases begins
        · simp only [Text.firstWord, List.takeWhile, space] at begins
          exact ⟨ch, rest, rfl, by rw [← begins]; rfl⟩
  rcases started with ⟨ch, rest, rfl, first⟩
  have ordinary : ¬ Shlex.isBlank ch = true ∧ ch ≠ '\\' ∧ ¬ Shlex.isQuote ch = true ∧ ch ≠ 's' := by
    cases verb <;> (cases first; decide)
  rcases ordinary with ⟨visible, notEscape, notQuote, notSwitch⟩
  unfold parseUserSwitch
  cases splits : Shlex.split (ch :: rest) with
  | none => rfl
  | some words =>
      rcases Shlex.split_ordinary visible notEscape notQuote splits with ⟨word, later, rfl, more, equal⟩
      have other : ∀ command : Str, command.head? = some 's' → word ≠ command := by
        intro command starts same
        rw [← equal.trans same] at starts
        exact notSwitch (Option.some.inj starts)
      simp only [other "su".toList rfl, other "sudo".toList rfl, if_false]

theorem parseInputMutations_written {verb : OperandVerb} {words : List Str} {line : Str}
    (written : Written verb words line) :
    parseInputMutations line = operandMutations verb words := by
  rcases written with ⟨foreground, args, matched, rfl⟩
  have begins := firstWord_of_verbArgs matched
  have started : Text.strip (splitFirstCommand line) ≠ [] := by
    intro blank
    rw [blank] at matched
    cases verb <;> cases matched
  have noSwitch : parseUserSwitch (Text.strip (splitFirstCommand line)) = none := by
    apply @parseUserSwitch_verb verb
    rw [← begins, ← Text.firstWord_strip, Text.strip_strip]
  have noEcho : echoRedirect (Text.strip (splitFirstCommand line)) = none := by
    rw [echoRedirect, afterVerb_other begins (by decide) (by cases verb <;> decide)]
    rfl
  have noArgs : ∀ other : OperandVerb, other ≠ verb →
      verbArgs other.text (Text.strip (splitFirstCommand line)) = none := by
    intro other differs
    have visible : other.text.all (fun ch => !Text.isSpace ch) = true := by
      cases other <;> decide
    have apart : other.text ≠ verb.text := by
      revert differs
      cases other <;> cases verb <;> decide
    rw [verbArgs, afterVerb_other begins visible apart]
    rfl
  simp only [parseInputMutations, foreground, started, if_false, noSwitch, noEcho]
  cases verb with
  | touch =>
      rw [show "touch".toList = OperandVerb.text .touch from rfl, matched]
      rfl
  | rm =>
      have noTouch := noArgs .touch (by decide)
      rw [show "touch".toList = OperandVerb.text .touch from rfl, noTouch,
        show "rm".toList = OperandVerb.text .rm from rfl, matched]
      rfl
  | cp =>
      have noTouch := noArgs .touch (by decide)
      have noRm := noArgs .rm (by decide)
      rw [show "touch".toList = OperandVerb.text .touch from rfl, noTouch,
        show "rm".toList = OperandVerb.text .rm from rfl, noRm,
        show "cp".toList = OperandVerb.text .cp from rfl, matched]
      rfl
  | mv =>
      have noTouch := noArgs .touch (by decide)
      have noRm := noArgs .rm (by decide)
      have noCp := noArgs .cp (by decide)
      rw [show "touch".toList = OperandVerb.text .touch from rfl, noTouch,
        show "rm".toList = OperandVerb.text .rm from rfl, noRm,
        show "cp".toList = OperandVerb.text .cp from rfl, noCp,
        show "mv".toList = OperandVerb.text .mv from rfl, matched]
      rfl

/-! ## What the commands make of them -/

/-- A word of dashes and letters; a single dash is an operand. -/
def isOption (word : Str) : Bool := isFlag word && word ≠ "-".toList

/-- The words that are no options, and all words behind `--`. -/
def operands : List Str → List Str
  | [] => []
  | word :: rest =>
      if word = "--".toList then rest
      else if isOption word then operands rest
      else word :: operands rest

def options : List Str → List Str
  | [] => []
  | word :: rest =>
      if word = "--".toList then []
      else if isOption word then word :: options rest
      else options rest

def isRecursive (words : List Str) : Bool :=
  (options words).any fun option =>
    option = "--recursive".toList ||
      !"--".toList.isPrefixOf option && (option.contains 'r' || option.contains 'R')

def Below (dir path : Str) : Prop := OsPath.rstrip dir ++ ['/'] <+: path

def entryIn (dir path : Str) : Str :=
  OsPath.rstrip dir ++ '/' :: OsPath.basename (OsPath.rstrip path)

def SameContents (copy fact : FileFact) : Prop :=
  copy.sizeBytes = fact.sizeBytes ∧ copy.sha256 = fact.sha256 ∧
    copy.contentSnippet = fact.contentSnippet

structure IntoDirectory (words : List Str) (session : Session) (sources : List Str) (dir : Str) :
    Prop where
  listed : operands words = sources ++ [dir]
  started : sources ≠ []
  tracked : ∀ path ∈ sources, path ∈ session.world.files.keys
  named : dir ≠ []
  exists_ : session.vfs.isDir (resolvePath dir session.shellContext) = true

/-- Every source has its entry in the directory, with the contents of a source of that
name, and there is none at the directory itself. -/
structure CreatedIn (sources : List Str) (dir : Str) (before after : Dict Str FileFact) : Prop where
  created : ∀ path ∈ sources, ∃ other ∈ sources, ∃ fact copy,
    entryIn dir other = entryIn dir path ∧ before.get? other = some fact ∧
      after.get? (entryIn dir path) = some copy ∧ SameContents copy fact
  never : dir ∉ after.keys

/-- The sources, targets and descendants that a command names. -/
def Named (verb : OperandVerb) (words : List Str) (key : Str) : Prop :=
  key ∈ operands words ∨
    match verb with
    | .touch => False
    | .rm => isRecursive words = true ∧ ∃ dir ∈ operands words, Below dir key
    | .cp | .mv => ∃ sources dir, operands words = sources ++ [dir] ∧
        ∃ path ∈ sources, key = entryIn dir path

structure OperandsRight (verb : OperandVerb) (words : List Str) (session next : Session) : Prop where
  landed : verb = .cp ∨ verb = .mv → ∀ sources dir, IntoDirectory words session sources dir →
    CreatedIn sources dir session.world.files next.world.files
  removed : verb = .rm → isRecursive words = true →
    ∀ dir ∈ operands words, ∀ key ∈ next.world.files.keys, ¬ Below dir key
  touched : verb = .touch → ∀ path ∈ operands words, ∀ fact,
    session.world.files.get? path = some fact →
      ∃ after, next.world.files.get? path = some after ∧ after.sizeBytes = fact.sizeBytes ∧
        after.contentSnippet = fact.contentSnippet
  kept : ∀ key, ¬ Named verb words key →
    next.world.files.get? key = session.world.files.get? key

/-- What `touch` finds under the plain words is empty; what is below a directory that
`rm` removes is named as well; `cp` and `mv` are given no directory and tracked files for
it, or the parser drops the directory or all of these, and the entries are there. -/
def SparesEntries (verb : OperandVerb) (words : List Str) (session : Session) : Prop :=
  match verb with
  | .touch => ∀ path ∈ plainWords words, path ≠ [] → ∀ fact,
      session.world.files.get? path = some fact →
        fact.sizeBytes = 0 ∧ fact.contentSnippet = some []
  | .rm => isRecursive words = true → ∀ dir ∈ operands words,
      ∀ key ∈ session.world.files.keys, Below dir key → key ∈ plainWords words
  | .cp | .mv => ∀ sources dir, IntoDirectory words session sources dir →
      (isFlag dir = true ∨ ∀ path ∈ sources, isFlag path = true) ∧
        CreatedIn sources dir session.world.files session.world.files

theorem plainWords_operands (words : List Str) : plainWords (operands words) = plainWords words := by
  induction words with
  | nil => rfl
  | cons word rest induction =>
      simp only [operands]
      split
      · rename_i ends
        rw [ends]
        rfl
      · split
        · rename_i option
          have flag : isFlag word = true := (Bool.and_eq_true ..).mp option |>.1
          rw [induction, plainWords, plainWords, List.filter_cons_of_neg (by simp [flag])]
        · simp only [plainWords] at induction
          simp only [plainWords, List.filter_cons, induction]

theorem mem_plainWords {words : List Str} {word : Str} :
    word ∈ plainWords words ↔ word ∈ operands words ∧ isFlag word = false := by
  rw [← plainWords_operands, plainWords, List.mem_filter]
  simp

theorem mem_of_firstAndLast {words : List Str} {first last : Str}
    (ends : firstAndLast words = some (first, last)) : first ∈ words ∧ last ∈ words := by
  unfold firstAndLast at ends
  split at ends
  · cases ends
    constructor
    · apply List.mem_cons_self
    · apply List.mem_cons_of_mem
      apply List.getLast_mem
  · cases ends

theorem firstAndLast_concat {sources : List Str} (started : sources ≠ []) (dir : Str) :
    ∃ first ∈ sources, firstAndLast (sources ++ [dir]) = some (first, dir) := by
  rcases List.exists_cons_of_ne_nil started with ⟨first, rest, rfl⟩
  apply Exists.intro first
  constructor
  · apply List.mem_cons_self
  · cases rest with
    | nil => rfl
    | cons second rest =>
        simp [firstAndLast]

theorem isFlag_entryIn {dir : Str} (path : Str) (flag : isFlag dir = true) :
    isFlag (entryIn dir path) = true := by
  rcases List.isPrefixOf_iff_prefix.mp flag with ⟨rest, rfl⟩
  apply List.isPrefixOf_iff_prefix.mpr
  apply List.IsPrefix.trans _ (List.prefix_append _ _)
  show ['-'] <+: List.rdropWhile OsPath.isSlash ('-' :: rest)
  rw [List.rdropWhile, List.reverse_cons, List.dropWhile_append]
  split
  · exact List.prefix_rfl
  · rw [List.reverse_append]
    exact List.prefix_append ['-'] _

/-! ## What becomes of an entry -/

section Entries

variable (session : Session) (words : List Str) (key : Str)

theorem get?_touch :
    (session.applyMutations (operandMutations .touch words)).world.files.get? key =
      if key ∈ plainWords words ∧ key ≠ [] then
        some ⟨key, 0, none, session.clock, .created, none, some []⟩
      else session.world.files.get? key := by
  simp only [operandMutations, Session.applyMutations]
  generalize session.world = world
  generalize plainWords words = paths
  induction paths generalizing world with
  | nil => simp
  | cons path paths induction =>
      rw [List.map_cons, List.foldl_cons, induction]
      by_cases later : key ∈ paths ∧ key ≠ []
      · simp [later]
      · rw [if_neg later]
        simp only [applyMutation, WorldState.addFile]
        split
        · rename_i blank
          rw [if_neg]
          intro both
          rcases List.mem_cons.mp both.1 with same | among
          · exact both.2 (same.trans blank)
          · exact later ⟨among, both.2⟩
        · rename_i started
          rw [Dict.get?_set]
          by_cases same : key = path
          · simp [same, started, Text.utf8Length]
          · rw [if_neg same, if_neg]
            intro both
            exact later ⟨(List.mem_cons.mp both.1).resolve_left same, both.2⟩

theorem get?_rm :
    (session.applyMutations (operandMutations .rm words)).world.files.get? key =
      if key ∈ plainWords words then none else session.world.files.get? key := by
  simp only [operandMutations, Session.applyMutations]
  generalize session.world = world
  generalize plainWords words = paths
  induction paths generalizing world with
  | nil => simp
  | cons path paths induction =>
      rw [List.map_cons, List.foldl_cons, induction]
      simp only [applyMutation, WorldState.popFile, Dict.get?_erase]
      by_cases later : key ∈ paths
      · simp [later]
      · simp [later]

variable {words key}

theorem get?_addFile_other {world : WorldState} {path : Str} {size now : Nat}
    {sha256 url snippet : Option Str} {source : FileSource} (differs : key ≠ path) :
    (world.addFile path size sha256 now source url snippet).files.get? key =
      world.files.get? key := by
  unfold WorldState.addFile
  split
  · rfl
  · rw [Dict.get?_set, if_neg differs]

theorem get?_ends {verb : OperandVerb} (copies : verb = .cp ∨ verb = .mv)
    (apart : ∀ first last, firstAndLast (plainWords words) = some (first, last) →
      key ≠ first ∧ key ≠ last) :
    (session.applyMutations (operandMutations verb words)).world.files.get? key =
      session.world.files.get? key := by
  rcases ends : firstAndLast (plainWords words) with _ | ⟨first, last⟩
  · rcases copies with rfl | rfl <;> simp [operandMutations, ends, Session.applyMutations]
  · rcases apart first last ends with ⟨notFirst, notLast⟩
    rcases copies with rfl | rfl
    · simp only [operandMutations, ends, Session.applyMutations, Option.toList_some, List.map_cons,
        List.map_nil, List.foldl_cons, List.foldl_nil, applyMutation]
      split
      · exact get?_addFile_other notLast
      · rfl
    · simp only [operandMutations, ends, Session.applyMutations, Option.toList_some, List.map_cons,
        List.map_nil, List.foldl_cons, List.foldl_nil, applyMutation]
      split
      · rw [get?_addFile_other notLast, WorldState.popFile, Dict.get?_erase, if_neg notFirst]
      · rfl

theorem mem_keys_ends {verb : OperandVerb} (copies : verb = .cp ∨ verb = .mv) {first last : Str}
    (ends : firstAndLast (plainWords words) = some (first, last))
    (tracked : first ∈ session.world.files.keys) (started : last ≠ []) :
    last ∈ (session.applyMutations (operandMutations verb words)).world.files.keys := by
  rcases Dict.mem_keys_iff.mp tracked with ⟨fact, found⟩
  rcases copies with rfl | rfl <;>
    simp [operandMutations, ends, Session.applyMutations, applyMutation, found,
      WorldState.addFile, started]

end Entries

/-! ## The three commands -/

section Commands

variable {words : List Str} {session : Session}

theorem touch_right_iff :
    OperandsRight .touch words session
        (session.applyMutations (operandMutations .touch words)) ↔
      SparesEntries .touch words session := by
  constructor
  · intro right path plain started fact found
    rcases mem_plainWords.mp plain with ⟨operand, -⟩
    rcases right.touched rfl path operand fact found with ⟨after, isAfter, size, content⟩
    rw [get?_touch, if_pos ⟨plain, started⟩, Option.some.injEq] at isAfter
    subst isAfter
    exact ⟨size.symm, content.symm⟩
  · intro spares
    constructor
    · intro copies
      rcases copies with other | other <;> cases other
    · intro other
      cases other
    · intro _ path operand fact found
      rw [get?_touch]
      by_cases changed : path ∈ plainWords words ∧ path ≠ []
      · rcases spares path changed.1 changed.2 fact found with ⟨size, content⟩
        exact ⟨_, if_pos changed, size.symm, content.symm⟩
      · exact ⟨fact, (if_neg changed).trans found, rfl, rfl⟩
    · intro key unnamed
      rw [get?_touch, if_neg]
      intro changed
      exact unnamed (.inl (mem_plainWords.mp changed.1).1)

theorem rm_right_iff :
    OperandsRight .rm words session (session.applyMutations (operandMutations .rm words)) ↔
      SparesEntries .rm words session := by
  have keys : ∀ key,
      key ∈ (session.applyMutations (operandMutations .rm words)).world.files.keys ↔
        key ∉ plainWords words ∧ key ∈ session.world.files.keys := by
    intro key
    rw [Dict.mem_keys_iff, get?_rm, Dict.mem_keys_iff]
    by_cases plain : key ∈ plainWords words <;> simp [plain]
  constructor
  · intro right recursive dir operand key tracked below
    by_contra spared
    exact right.removed rfl recursive dir operand key ((keys key).mpr ⟨spared, tracked⟩) below
  · intro spares
    constructor
    · intro copies
      rcases copies with other | other <;> cases other
    · intro _ recursive dir operand key left below
      rcases (keys key).mp left with ⟨spared, tracked⟩
      exact spared (spares recursive dir operand key tracked below)
    · intro other
      cases other
    · intro key unnamed
      rw [get?_rm, if_neg]
      intro plain
      exact unnamed (.inl (mem_plainWords.mp plain).1)

theorem created_dropped {verb : OperandVerb} (copies : verb = .cp ∨ verb = .mv)
    {sources : List Str} {dir : Str} (listed : operands words = sources ++ [dir])
    (dropped : isFlag dir = true ∨ ∀ path ∈ sources, isFlag path = true) :
    CreatedIn sources dir session.world.files
        (session.applyMutations (operandMutations verb words)).world.files ↔
      CreatedIn sources dir session.world.files session.world.files := by
  have same : ∀ key, key = dir ∨ (∃ path, key = entryIn dir path) →
      (session.applyMutations (operandMutations verb words)).world.files.get? key =
        session.world.files.get? key := by
    intro key concerned
    apply get?_ends session copies
    intro first last ends
    rcases mem_of_firstAndLast ends with ⟨isFirst, isLast⟩
    rcases dropped with flag | flags
    · have flagged : isFlag key = true := by
        rcases concerned with rfl | ⟨path, rfl⟩
        · exact flag
        · exact isFlag_entryIn path flag
      have apart : ∀ word ∈ plainWords words, key ≠ word := by
        rintro word plain rfl
        rw [(mem_plainWords.mp plain).2] at flagged
        cases flagged
      exact ⟨apart first isFirst, apart last isLast⟩
    · have none : plainWords words = plainWords [dir] := by
        have dropped : plainWords sources = [] := by
          apply List.filter_eq_nil_iff.mpr
          intro path among
          simp [flags path among]
        rw [← plainWords_operands, listed, plainWords, List.filter_append]
        exact congrArg (· ++ plainWords [dir]) dropped
      rw [none] at ends
      by_cases flag : isFlag dir = true <;> simp [plainWords, flag, firstAndLast] at ends
  have keys : dir ∈ (session.applyMutations (operandMutations verb words)).world.files.keys ↔
      dir ∈ session.world.files.keys := by
    rw [Dict.mem_keys_iff, same dir (.inl rfl), Dict.mem_keys_iff]
  constructor
  · intro created
    constructor
    · intro path among
      rw [← same _ (.inr ⟨path, rfl⟩)]
      exact created.created path among
    · rw [← keys]
      exact created.never
  · intro created
    constructor
    · intro path among
      rw [same _ (.inr ⟨path, rfl⟩)]
      exact created.created path among
    · rw [keys]
      exact created.never

theorem copies_right_iff {verb : OperandVerb} (copies : verb = .cp ∨ verb = .mv) :
    OperandsRight verb words session (session.applyMutations (operandMutations verb words)) ↔
      ∀ sources dir, IntoDirectory words session sources dir →
        (isFlag dir = true ∨ ∀ path ∈ sources, isFlag path = true) ∧
          CreatedIn sources dir session.world.files session.world.files := by
  constructor
  · intro right sources dir into
    have created := right.landed copies sources dir into
    by_cases dropped : isFlag dir = true ∨ ∀ path ∈ sources, isFlag path = true
    · exact ⟨dropped, (created_dropped copies into.listed dropped).mp created⟩
    · exfalso
      -- The first plain file lands at the directory itself.
      push Not at dropped
      rcases dropped with ⟨plainDir, path, among, plainPath⟩
      have started : plainWords sources ≠ [] := by
        apply List.ne_nil_of_mem
        apply List.mem_filter.mpr
        exact ⟨among, by simpa using plainPath⟩
      rcases firstAndLast_concat started dir with ⟨first, isFirst, ends⟩
      have plain : plainWords words = plainWords sources ++ [dir] := by
        rw [← plainWords_operands, into.listed, plainWords, List.filter_append]
        have kept : [dir].filter (!isFlag ·) = [dir] := by simpa using plainDir
        rw [kept]
        rfl
      rw [← plain] at ends
      apply created.never
      exact mem_keys_ends session copies ends
        (into.tracked first (List.mem_filter.mp isFirst).1) into.named
  · intro spares
    constructor
    · intro _ sources dir into
      rcases spares sources dir into with ⟨dropped, created⟩
      exact (created_dropped copies into.listed dropped).mpr created
    · rintro rfl
      rcases copies with other | other <;> cases other
    · rintro rfl
      rcases copies with other | other <;> cases other
    · intro key unnamed
      apply get?_ends session copies
      intro first last ends
      rcases mem_of_firstAndLast ends with ⟨isFirst, isLast⟩
      have apart : ∀ word ∈ plainWords words, key ≠ word := by
        rintro word plain rfl
        exact unnamed (.inl (mem_plainWords.mp plain).1)
      exact ⟨apart first isFirst, apart last isLast⟩

end Commands

end Protocol

end LlmHoneypot
