import LlmHoneypot.Foundation.Spelling
import LlmHoneypot.Foundation.WordPatterns

/-! # Fact keys

`fact_family`: the key of what a command asserts, and when the commands that read two files keep
two keys. -/

namespace LlmHoneypot

namespace FactKeys

open Spelling WordPatterns

/-! ## Keys -/

structure FamilyRule where
  family : Str
  pattern : List Alternative
  deriving DecidableEq, Repr

def literals (root : String) (names : List String) : List Alternative :=
  names.map fun name => .literal (root.toList ++ name.toList)

def words (names : List String) : List Alternative := names.map fun name => .word name.toList

def FAMILY_RULES : List FamilyRule :=
  [⟨"os.kernel".toList,
      words ["uname"] ++ literals "/proc/" ["version"] ++ words ["hostnamectl"]⟩,
    ⟨"os.distro".toList,
      literals "/etc/" ["os-release", "issue", "lsb-release", "debian_version", "redhat-release",
        "centos-release", "system-release", "alpine-release"] ++ words ["lsb_release"]⟩,
    ⟨"hw.cpu".toList, literals "/proc/" ["cpuinfo"] ++ words ["lscpu", "nproc"]⟩,
    ⟨"hw.mem".toList, words ["free"] ++ literals "/proc/" ["meminfo"]⟩,
    ⟨"sys.uptime".toList, words ["uptime"] ++ literals "/proc/" ["uptime"]⟩,
    ⟨"id.accounts".toList, literals "/etc/" ["passwd", "shadow", "group"] ++ words ["getent"]⟩,
    ⟨"id.user".toList, words ["whoami", "id", "logname", "groups"]⟩,
    ⟨"net.iface".toList,
      words ["ifconfig"] ++ [.command "ip".toList ["a".toList, "addr".toList, "link".toList],
        .command "hostname".toList ["-I".toList]]⟩,
    ⟨"net.listen".toList, words ["ss", "netstat"]⟩,
    ⟨"proc.list".toList, words ["ps", "top", "htop"]⟩,
    ⟨"pkg.list".toList,
      words ["dpkg"] ++ [.command "rpm".toList ["-qa".toList],
        .command "apk".toList ["info".toList], .command "apt".toList ["list".toList]]⟩,
    ⟨"fs.disk".toList, words ["df", "mount"] ++ literals "/proc/" ["mounts"]⟩,
    ⟨"cron.jobs".toList, words ["crontab"] ++ literals "/etc/" ["crontab", "cron."]⟩]

def FILE_READERS : List Str :=
  ["cat", "head", "tail", "less", "more", "stat", "file", "wc"].map String.toList

def operandOf (word text : Str) : Option Str :=
  let behind := text.drop word.length
  if word.isPrefixOf text && behind.head?.any Text.isSpace then
    some (behind.dropWhile Text.isSpace)
  else none

def headOf (command : Str) : Str := Text.strip ((Text.strip command).takeWhile (· ≠ '|'))

def argvOf (head : Str) : List Str := (Shlex.split head).getD (Text.words head)

def isOption (arg : Str) : Bool := arg.head? = some '-'

def fileKey (path : Str) : Str := "file:".toList ++ path

section

variable (wide : Char → Bool)

def isVolatile (head : Str) : Bool :=
  ["date".toList, "w".toList, "top".toList].any
    (endsWord wide · (head.dropWhile Text.isSpace))

def isArch (head : Str) : Bool :=
  let body := Text.strip head
  body = "arch".toList ||
    (operandOf "uname".toList body).any
      (fun flags => flags.head? = some '-' && flags.tail.all (isWord wide) && 'm' ∈ flags.tail) ||
    operandOf "dpkg".toList body = some "--print-architecture".toList

def factFamily (command : Str) : Option Str :=
  if Text.strip command = [] then none
  else
    let head := headOf command
    if head = [] then none
    else if isVolatile wide head then none
    else if isArch wide head then some "os.arch".toList
    else
      match argvOf head with
      | [] => none
      | reader :: args =>
          match FAMILY_RULES.find? (search wide ·.pattern head) with
          | some rule => some rule.family
          | none =>
              if reader ∈ FILE_READERS then
                match args.filter (!isOption ·) with
                | [path] => some (fileKey path)
                | _ => none
              else none

end

/-! ## Commands that read a file -/

def NAMED_FILES : List Str :=
  ["/proc/version", "/etc/os-release", "/etc/issue", "/etc/lsb-release", "/etc/debian_version",
    "/etc/redhat-release", "/etc/centos-release", "/etc/system-release", "/etc/alpine-release",
    "/proc/cpuinfo", "/proc/meminfo", "/proc/uptime", "/etc/passwd", "/etc/shadow", "/etc/group",
    "/proc/mounts", "/etc/crontab"].map String.toList

/-- A reader and its one file among its options and what belongs to them. -/
structure FileRead where
  line : Line
  before : List (Gap × Word)
  path : Gap × Word
  after : List (Gap × Word)
  isArgs : line.args = before ++ path :: after
  reads : line.command.value ∈ FILE_READERS
  operand : isOption path.2.value = false ∨ "--".toList ∈ before.map fun arg => arg.2.value
  unnamed : path.2.value ∉ NAMED_FILES

def FAMILIES : List Str := "os.arch".toList :: FAMILY_RULES.map FamilyRule.family

section

variable (wide : Char → Bool)

def NoFamily (command : Str) : Prop := ∀ family ∈ FAMILIES, factFamily wide command ≠ some family

/-- Two keys for two files, and no key of a family for either. -/
def Separate (first second : FileRead) : Prop :=
  (∀ key other, factFamily wide first.line.text = some key →
      factFamily wide second.line.text = some other → key ≠ other) ∧
    NoFamily wide first.line.text ∧ NoFamily wide second.line.text

def Unmatched (command : Str) : Prop :=
  ∀ rule ∈ FAMILY_RULES, ¬ Found wide rule.pattern (headOf command)

/-- The command is not tracked, or no rule is found in it. -/
def Harmless (command : Str) : Prop :=
  isVolatile wide (headOf command) = true ∨ Unmatched wide command

def OnlyWord (command word : Str) : Prop :=
  isVolatile wide (headOf command) = false ∧
    ∃ reader args, argvOf (headOf command) = reader :: args ∧ reader ∈ FILE_READERS ∧
      args.filter (!isOption ·) = [word]

def SameWord (first second : FileRead) : Prop :=
  ∃ word, OnlyWord wide first.line.text word ∧ OnlyWord wide second.line.text word

end

/-- The command is read as a shell reads it: `shlex` takes the quotes as a shell does, no bar is
quoted, no blank is quoted at the end, and the file is no option. -/
structure Readable (read : FileRead) : Prop where
  plainCommand : ∀ piece ∈ read.line.command.pieces, piece.Plain
  plainArgs : ∀ arg ∈ read.line.args, ∀ piece ∈ arg.2.pieces, piece.Plain
  noBar : '|' ∉ read.line.text
  ends : ∀ ch ∈ (read.line.command.text ++ argsText read.line.args).getLast?,
    Text.isSpace ch = false
  noOption : isOption read.path.2.value = false

/-! ## Keys of commands -/

def BEGINNINGS : List Char := ['\'', '"', '\\', 'c', 'h', 't', 'l', 'm', 's', 'f', 'w']

theorem beginning_visible {ch : Char} (begins : ch ∈ BEGINNINGS) :
    Text.isSpace ch = false ∧ ch ≠ '|' ∧ Shlex.isBlank ch = false := by
  have all : BEGINNINGS.all fun ch =>
      !Text.isSpace ch && decide (ch ≠ '|') && !Shlex.isBlank ch := by decide
  have here := List.all_eq_true.mp all ch begins
  simp only [Bool.and_eq_true, Bool.not_eq_true', decide_eq_true_eq] at here
  exact ⟨here.1.1, here.1.2, here.2⟩

theorem command_begins {word : Word} (reads : word.value ∈ FILE_READERS) :
    ∃ ch more, word.text = ch :: more ∧ ch ∈ BEGINNINGS := by
  rcases List.exists_cons_of_ne_nil word.started with ⟨piece, pieces, isPieces⟩
  rw [Word.text, isPieces, List.flatMap_cons]
  cases piece with
  | plain ch =>
      refine ⟨ch, _, rfl, ?_⟩
      have isValue : word.value = ch :: pieces.flatMap Piece.value := by
        rw [Word.value, isPieces, List.flatMap_cons]
        rfl
      rw [isValue] at reads
      have all : FILE_READERS.all fun reader => reader.head?.all (· ∈ BEGINNINGS) := by decide
      have here := List.all_eq_true.mp all _ reads
      exact of_decide_eq_true here
  | escaped ch => exact ⟨'\\', _, rfl, by decide⟩
  | single body => exact ⟨'\'', _, rfl, by decide⟩
  | double body => exact ⟨'"', _, rfl, by decide⟩

theorem rstrip_cons {ch : Char} (visible : Text.isSpace ch = false) (rest : Str) :
    ∃ more, Text.rstrip (ch :: rest) = ch :: more := by
  rcases List.rdropWhile_prefix Text.isSpace (ch :: rest) with ⟨dropped, whole⟩
  cases stripped : (ch :: rest).rdropWhile Text.isSpace with
  | nil =>
      have all := List.rdropWhile_eq_nil_iff.mp stripped ch List.mem_cons_self
      rw [visible] at all
      cases all
  | cons first more =>
      rw [stripped] at whole
      injection whole with isFirst _
      exact ⟨more, by rw [Text.rstrip, stripped, isFirst]⟩

theorem strip_cons {ch : Char} (visible : Text.isSpace ch = false) (rest : Str) :
    ∃ more, Text.strip (ch :: rest) = ch :: more := by
  have front : Text.lstrip (ch :: rest) = ch :: rest := by
    rw [Text.lstrip, List.dropWhile_cons_of_neg (by simp [visible])]
  rw [Text.strip, front]
  exact rstrip_cons visible rest

theorem head_begins (read : FileRead) :
    ∃ ch more, headOf read.line.text = ch :: more ∧ ch ∈ BEGINNINGS := by
  rcases command_begins read.reads with ⟨ch, rest, isText, begins⟩
  rcases beginning_visible begins with ⟨visible, noBar, -⟩
  have front : Text.lstrip read.line.text =
      ch :: (rest ++ argsText read.line.args ++ read.line.trail) := by
    rw [Line.text, Text.lstrip, List.dropWhile_append_of_pos fun other member =>
      space_of_blank (read.line.leadBlank other member), isText]
    exact List.dropWhile_cons_of_neg (by simp [visible])
  rcases rstrip_cons visible (rest ++ argsText read.line.args ++ read.line.trail) with ⟨raw, isRaw⟩
  rcases strip_cons visible (raw.takeWhile (· ≠ '|')) with ⟨more, isMore⟩
  have isStripped : Text.strip read.line.text = ch :: raw := by
    rw [Text.strip, front, isRaw]
  refine ⟨ch, more, ?_, begins⟩
  have begun : (ch :: raw).takeWhile (· ≠ '|') = ch :: raw.takeWhile (· ≠ '|') :=
    List.takeWhile_cons_of_pos (decide_eq_true noBar)
  rw [headOf, isStripped, begun, isMore]

theorem isArch_begins (wide : Char → Bool) {ch : Char} {more : Str} (begins : ch ∈ BEGINNINGS) :
    isArch wide (ch :: more) = false := by
  rcases strip_cons (beginning_visible begins).1 more with ⟨rest, stripped⟩
  have other : ∀ word : Str, word.head? ≠ some ch → word ≠ [] →
      operandOf word (ch :: rest) = none := by
    intro word differs started
    rcases List.exists_cons_of_ne_nil started with ⟨first, tail, isWord⟩
    rw [isWord] at differs ⊢
    have notPrefix : (first :: tail).isPrefixOf (ch :: rest) = false := by
      rw [List.isPrefixOf, beq_eq_false_iff_ne.mpr (fun same => differs (congrArg some same))]
      rfl
    simp only [operandOf, notPrefix, Bool.false_and, Bool.false_eq_true, if_false]
  have all : BEGINNINGS.all fun ch => decide (ch ≠ 'a') && decide (ch ≠ 'u') && decide (ch ≠ 'd') :=
    by decide
  have here := List.all_eq_true.mp all ch begins
  simp only [Bool.and_eq_true, decide_eq_true_eq] at here
  have noUname := other "uname".toList (fun same => here.1.2 (Option.some.inj same).symm) (by decide)
  have noDpkg := other "dpkg".toList (fun same => here.2 (Option.some.inj same).symm) (by decide)
  have noArch : ch :: rest ≠ "arch".toList := by
    intro same
    exact here.1.1 (List.cons.inj same).1
  simp only [isArch, stripped, noUname, noDpkg, decide_eq_false noArch]
  rfl

theorem scan_ne_nil {mode : Shlex.Mode} {token : Str} {quoted : Bool} {text : Str}
    (inWord : mode ≠ .between) (visible : mode = .word → token ≠ [] ∨ quoted = true) :
    Shlex.scan mode token quoted text ≠ some [] := by
  induction text generalizing mode token quoted with
  | nil =>
      cases mode with
      | between => exact absurd rfl inWord
      | word =>
          have counts : ¬ (token = [] ∧ quoted = false) := by
            rintro ⟨none, notQuoted⟩
            rcases visible rfl with started | isQuoted
            · exact started none
            · rw [notQuoted] at isQuoted
              cases isQuoted
          rw [Shlex.scan, if_neg counts]
          exact fun same => by cases same
      | quoted quote => exact fun same => by cases same
      | escaped insideQuote =>
          cases insideQuote with
          | false => exact fun same => by cases same
          | true => exact fun same => by cases same
  | cons ch text induction =>
      cases mode with
      | between => exact absurd rfl inWord
      | word =>
          have counts : ¬ (token = [] ∧ quoted = false) := by
            rintro ⟨none, notQuoted⟩
            rcases visible rfl with started | isQuoted
            · exact started none
            · rw [notQuoted] at isQuoted
              cases isQuoted
          rw [Shlex.scan, if_neg counts]
          split
          · intro same
            rcases Option.map_eq_some_iff.mp same with ⟨words, -, isCons⟩
            cases isCons
          · split
            · exact induction (by simp) (fun same => by cases same)
            · split
              · exact induction (by decide) (fun same => by cases same)
              · exact induction (by decide) fun _ => .inl (by simp)
      | quoted quote =>
          rw [Shlex.scan]
          split
          · exact induction (by decide) fun _ => .inr rfl
          · split
            · exact induction (by decide) (fun same => by cases same)
            · exact induction (by simp) (fun same => by cases same)
      | escaped insideQuote =>
          cases insideQuote with
          | false => exact induction (by decide) fun _ => .inl (by simp)
          | true =>
              rw [Shlex.scan]
              split
              · exact induction (by decide) (fun same => by cases same)
              · exact induction (by decide) (fun same => by cases same)

theorem argvOf_ne_nil {ch : Char} {more : Str} (begins : ch ∈ BEGINNINGS) :
    argvOf (ch :: more) ≠ [] := by
  rcases beginning_visible begins with ⟨visible, -, notBlank⟩
  rw [argvOf]
  cases splits : Shlex.split (ch :: more) with
  | none =>
      intro none
      have head := Text.words_head (ch :: more)
      have shown : Text.lstrip (ch :: more) = ch :: more := by
        rw [Text.lstrip, List.dropWhile_cons_of_neg (by simp [visible])]
      rw [Option.getD_none] at none
      rw [none, shown, if_neg (List.cons_ne_nil _ _)] at head
      cases head
  | some words =>
      intro none
      rw [Option.getD_some] at none
      rw [none, Shlex.split, Shlex.scan, if_neg (by simp [notBlank])] at splits
      split at splits
      · exact scan_ne_nil (by decide) (fun same => by cases same) splits
      · split at splits
        · exact scan_ne_nil (by simp) (fun same => by cases same) splits
        · exact scan_ne_nil (by decide) (fun _ => .inl (by simp)) splits

section

variable {wide : Char → Bool} {read : FileRead} {key word : Str}

theorem factFamily_iff : factFamily wide read.line.text = some key ↔
    isVolatile wide (headOf read.line.text) = false ∧
      ((∃ rule, FAMILY_RULES.find? (search wide ·.pattern (headOf read.line.text)) = some rule ∧
          key = rule.family) ∨
        Unmatched wide read.line.text ∧ ∃ word, OnlyWord wide read.line.text word ∧
          key = fileKey word) := by
  rcases head_begins read with ⟨ch, more, isHead, begins⟩
  have started : Text.strip read.line.text ≠ [] := by
    intro none
    rw [headOf, none] at isHead
    cases isHead
  have unmatched : FAMILY_RULES.find? (search wide ·.pattern (headOf read.line.text)) = none ↔
      Unmatched wide read.line.text := by
    rw [List.find?_eq_none, Unmatched]
    simp only [search_iff]
  have notArch : isArch wide (headOf read.line.text) = false := by
    rw [isHead]
    exact isArch_begins wide begins
  have someWords : argvOf (headOf read.line.text) ≠ [] := by
    rw [isHead]
    exact argvOf_ne_nil begins
  have someHead : headOf read.line.text ≠ [] := by
    rw [isHead]
    exact List.cons_ne_nil _ _
  rcases List.exists_cons_of_ne_nil someWords with ⟨reader, args, isArgv⟩
  simp only [factFamily, if_neg started, if_neg someHead, notArch, isArgv, Bool.false_eq_true,
    if_false]
  cases volatile : isVolatile wide (headOf read.line.text) with
  | true => simp
  | false =>
      simp only [Bool.false_eq_true, if_false, true_and]
      cases isRule : FAMILY_RULES.find? (search wide ·.pattern (headOf read.line.text)) with
      | some rule =>
          have matched : ¬ Unmatched wide read.line.text := by
            rw [← unmatched, isRule]
            exact Option.some_ne_none rule
          simp [matched, eq_comm]
      | none =>
          have free := unmatched.mp isRule
          dsimp only
          constructor
          · intro isKey
            split at isKey
            · rename_i reads
              split at isKey
              · rename_i path only
                exact .inr ⟨free, path, ⟨volatile, reader, args, isArgv, reads, only⟩,
                  (Option.some.inj isKey).symm⟩
              · cases isKey
            · cases isKey
          · rintro (⟨rule, none, -⟩ | ⟨-, word, ⟨-, reader', args', same, reads, only⟩, isKey⟩)
            · cases none
            · rw [isArgv] at same
              injection same with sameReader sameArgs
              rw [sameReader, sameArgs, if_pos reads, only, isKey]

theorem file_not_family : fileKey word ∉ FAMILIES := by
  intro member
  have all : FAMILIES.all fun family => !("file:".toList).isPrefixOf family := by decide
  have here := List.all_eq_true.mp all _ member
  have begins : ("file:".toList).isPrefixOf (fileKey word) = true :=
    List.isPrefixOf_iff_prefix.mpr (List.prefix_append _ word)
  rw [begins] at here
  cases here

theorem found_of_find {text : Str} {rule : FamilyRule}
    (isRule : FAMILY_RULES.find? (search wide ·.pattern text) = some rule) :
    rule ∈ FAMILY_RULES ∧ Found wide rule.pattern text := by
  have passes := @List.find?_some FamilyRule (fun rule => search wide rule.pattern text) _ _ isRule
  exact ⟨List.mem_of_find?_eq_some isRule, search_iff.mp passes⟩

theorem noFamily_iff : NoFamily wide read.line.text ↔ Harmless wide read.line.text := by
  constructor
  · intro none
    by_contra harmful
    rw [Harmless, not_or, Bool.not_eq_true] at harmful
    rcases harmful with ⟨tracked, matched⟩
    cases isRule : FAMILY_RULES.find? (search wide ·.pattern (headOf read.line.text)) with
    | none =>
        apply matched
        intro rule member found
        exact List.find?_eq_none.mp isRule rule member (search_iff.mpr found)
    | some rule =>
        have isKey := factFamily_iff.mpr ⟨tracked, .inl ⟨rule, isRule, rfl⟩⟩
        have member := List.mem_of_find?_eq_some isRule
        exact none rule.family (List.mem_cons_of_mem _ (List.mem_map_of_mem member)) isKey
  · intro harmless family isFamily isKey
    rcases factFamily_iff.mp isKey with ⟨tracked, ⟨rule, isRule, -⟩ | ⟨-, word, -, same⟩⟩
    · rcases harmless with volatile | unmatched
      · rw [tracked] at volatile
        cases volatile
      · exact unmatched rule (found_of_find isRule).1 (found_of_find isRule).2
    · rw [same] at isFamily
      exact file_not_family isFamily

theorem key_iff (harmless : Harmless wide read.line.text) :
    factFamily wide read.line.text = some key ↔
      ∃ word, OnlyWord wide read.line.text word ∧ key = fileKey word := by
  rw [factFamily_iff]
  constructor
  · rintro ⟨tracked, ⟨rule, isRule, -⟩ | ⟨-, keyed⟩⟩
    · rcases harmless with volatile | unmatched
      · rw [tracked] at volatile
        cases volatile
      · exact absurd (found_of_find isRule).2 (unmatched rule (found_of_find isRule).1)
    · exact keyed
  · intro keyed
    have tracked := keyed.choose_spec.1.1
    rcases harmless with volatile | unmatched
    · rw [tracked] at volatile
      cases volatile
    · exact ⟨tracked, .inr ⟨unmatched, keyed⟩⟩

end

/-! ## Readable commands -/

theorem Readable.onlyWord {wide : Char → Bool} {read : FileRead} {word : Str}
    (readable : Readable read) (only : OnlyWord wide read.line.text word) :
    word = read.path.2.value := by
  rcases command_begins read.reads with ⟨ch, rest, isText, begins⟩
  have begun : read.line.command.text ++ argsText read.line.args =
      ch :: (rest ++ argsText read.line.args) := by
    rw [isText]
    rfl
  have started : read.line.command.text ++ argsText read.line.args ≠ [] := by
    rw [begun]
    exact List.cons_ne_nil _ _
  have visible : ∀ ch ∈ (read.line.command.text ++ argsText read.line.args).head?,
      Text.isSpace ch = false := by
    intro other member
    rw [begun] at member
    rw [← Option.some.inj member]
    exact (beginning_visible begins).1
  have stripped : Text.strip read.line.text =
      read.line.command.text ++ argsText read.line.args :=
    strip_blank read.line.leadBlank read.line.trailBlank started visible readable.ends
  have again : Text.strip (read.line.command.text ++ argsText read.line.args) =
      read.line.command.text ++ argsText read.line.args := by
    rw [← stripped, Text.strip_strip]
  have noBar : ∀ ch ∈ read.line.command.text ++ argsText read.line.args,
      decide (ch ≠ '|') = true := by
    intro ch member
    apply decide_eq_true
    intro bar
    rw [bar] at member
    apply readable.noBar
    rw [Line.text]
    exact List.mem_append_right _ (List.mem_append_left _ member)
  have isHead : headOf read.line.text = read.line.command.text ++ argsText read.line.args := by
    rw [headOf, stripped, List.takeWhile_eq_self_iff.mpr noBar, again]
  have isArgv : argvOf (headOf read.line.text) =
      read.line.command.value :: read.line.args.map fun arg => arg.2.value := by
    rw [isHead, argvOf, split_words _ readable.plainCommand readable.plainArgs]
    rfl
  rcases only.2 with ⟨reader, args, isWords, -, isOnly⟩
  rw [isArgv] at isWords
  injection isWords with _ isArgs
  have member : read.path.2.value ∈ args.filter (!isOption ·) := by
    refine List.mem_filter.mpr ⟨?_, ?_⟩
    · rw [← isArgs, read.isArgs]
      exact List.mem_map_of_mem (List.mem_append_right _ List.mem_cons_self)
    · rw [readable.noOption]
      rfl
  rw [isOnly] at member
  exact (List.mem_singleton.mp member).symm

/-! ## Commands that read two files -/

/-- Two commands that read two files keep two keys exactly where no rule is found in either and
they do not have the same only word; readable commands have not. -/
theorem separate_iff (wide : Char → Bool) (first second : FileRead)
    (different : first.path.2.value ≠ second.path.2.value) :
    (Separate wide first second ↔ Harmless wide first.line.text ∧ Harmless wide second.line.text ∧
        ¬ SameWord wide first second) ∧
      (Readable first → Readable second → ¬ SameWord wide first second) := by
  constructor
  · constructor
    · rintro ⟨apart, noFamily, noOther⟩
      have harmless := noFamily_iff.mp noFamily
      have other := noFamily_iff.mp noOther
      refine ⟨harmless, other, fun same => ?_⟩
      rcases same with ⟨word, only, alsoOnly⟩
      exact apart _ _ ((key_iff harmless).mpr ⟨word, only, rfl⟩)
        ((key_iff other).mpr ⟨word, alsoOnly, rfl⟩) rfl
    · rintro ⟨harmless, other, notSame⟩
      refine ⟨fun key otherKey isKey isOther same => ?_, noFamily_iff.mpr harmless,
        noFamily_iff.mpr other⟩
      rcases (key_iff harmless).mp isKey with ⟨word, only, isWord⟩
      rcases (key_iff other).mp isOther with ⟨otherWord, alsoOnly, isOtherWord⟩
      rw [same, isOtherWord] at isWord
      rw [List.append_cancel_left isWord] at alsoOnly
      exact notSame ⟨word, only, alsoOnly⟩
  · rintro readable alsoReadable ⟨word, only, alsoOnly⟩
    exact different ((readable.onlyWord only).symm.trans (alsoReadable.onlyWord alsoOnly))

def space : Gap where
  text := [' ']
  started := List.cons_ne_nil _ _
  blank := fun _ member => .inl (List.mem_singleton.mp member)

theorem ordinary_cat : Word.IsOrdinary "cat".toList := by decide

theorem cat_reads : (Word.ofPlain "cat".toList ordinary_cat).value ∈ FILE_READERS := by decide

theorem value_ofPlain {text : Str} (ordinary : Word.IsOrdinary text) :
    (Word.ofPlain text ordinary).value = text := by
  rw [Word.value, Word.ofPlain, List.flatMap_map]
  exact List.flatMap_singleton' text

theorem plain_ofPlain {text : Str} (ordinary : Word.IsOrdinary text) (noReturn : '\r' ∉ text) :
    ∀ piece ∈ (Word.ofPlain text ordinary).pieces, piece.Plain := by
  intro piece member
  rcases List.mem_map.mp member with ⟨ch, inText, isPiece⟩
  rw [← isPiece]
  intro same
  rw [same] at inText
  exact noReturn inText

def catOf (path : Str) (ordinary : Word.IsOrdinary path) (operand : isOption path = false)
    (unnamed : path ∉ NAMED_FILES) : FileRead where
  line :=
    { lead := []
      command := .ofPlain "cat".toList ordinary_cat
      args := [(space, .ofPlain path ordinary)]
      trail := []
      leadBlank := fun _ none => absurd none List.not_mem_nil
      trailBlank := fun _ none => absurd none List.not_mem_nil }
  before := []
  path := (space, .ofPlain path ordinary)
  after := []
  isArgs := rfl
  reads := cat_reads
  operand := .inl ((congrArg isOption (value_ofPlain ordinary)).trans operand)
  unnamed := fun member => unnamed (value_ofPlain ordinary ▸ member)

theorem ordinary_a : Word.IsOrdinary "/tmp/a".toList := by decide

theorem ordinary_b : Word.IsOrdinary "/tmp/b".toList := by decide

theorem unnamed_a : "/tmp/a".toList ∉ NAMED_FILES := by decide

theorem unnamed_b : "/tmp/b".toList ∉ NAMED_FILES := by decide

theorem ordinary_tmpFree : Word.IsOrdinary "/tmp/free".toList := by decide

theorem ordinary_homeFree : Word.IsOrdinary "/home/free".toList := by decide

theorem unnamed_tmpFree : "/tmp/free".toList ∉ NAMED_FILES := by decide

theorem unnamed_homeFree : "/home/free".toList ∉ NAMED_FILES := by decide

def catA : FileRead := catOf "/tmp/a".toList ordinary_a rfl unnamed_a

def catB : FileRead := catOf "/tmp/b".toList ordinary_b rfl unnamed_b

def catTmpFree : FileRead := catOf "/tmp/free".toList ordinary_tmpFree rfl unnamed_tmpFree

def catHomeFree : FileRead := catOf "/home/free".toList ordinary_homeFree rfl unnamed_homeFree

theorem unmatched_of_search {wide : Char → Bool} {command : Str}
    (none : FAMILY_RULES.all fun rule => !search wide rule.pattern (headOf command)) :
    Unmatched wide command := by
  intro rule member found
  have notFound := List.all_eq_true.mp none rule member
  rw [search_iff.mpr found] at notFound
  cases notFound

theorem readable_catOf {path : Str} {ordinary : Word.IsOrdinary path}
    {operand : isOption path = false} {unnamed : path ∉ NAMED_FILES} (noReturn : '\r' ∉ path)
    (noBar : '|' ∉ (catOf path ordinary operand unnamed).line.text)
    (ends : ∀ ch ∈ ((catOf path ordinary operand unnamed).line.command.text ++
      argsText (catOf path ordinary operand unnamed).line.args).getLast?,
        Text.isSpace ch = false) :
    Readable (catOf path ordinary operand unnamed) where
  plainCommand := plain_ofPlain ordinary_cat (by decide)
  plainArgs := by
    intro arg member
    rw [List.mem_singleton.mp member]
    exact plain_ofPlain ordinary noReturn
  noBar := noBar
  ends := ends
  noOption := (congrArg isOption (value_ofPlain ordinary)).trans operand

theorem ends_of_last {text : Str} {last : Char} (isLast : text.getLast? = some last)
    (visible : Text.isSpace last = false) : ∀ ch ∈ text.getLast?, Text.isSpace ch = false := by
  intro ch member
  rw [isLast] at member
  rw [← Option.some.inj member]
  exact visible

theorem separate_tmp : Separate (fun _ => false) catA catB := by
  have keys := separate_iff (fun _ => false) catA catB (by decide)
  apply keys.1.mpr
  refine ⟨.inr (unmatched_of_search (by decide +kernel)),
    .inr (unmatched_of_search (by decide +kernel)), keys.2 ?_ ?_⟩
  · exact readable_catOf (by decide) (by decide) (@ends_of_last _ 'a' rfl rfl)
  · exact readable_catOf (by decide) (by decide) (@ends_of_last _ 'b' rfl rfl)

/-- The word `free` in two paths. -/
theorem free_files_collide : ¬ ∀ (wide : Char → Bool) (first second : FileRead),
    first.path.2.value ≠ second.path.2.value → Separate wide first second := by
  intro all
  have separate := all (fun _ => false) catTmpFree catHomeFree (by decide)
  have first : factFamily (fun _ => false) catTmpFree.line.text = some "hw.mem".toList := by
    decide +kernel
  have second : factFamily (fun _ => false) catHomeFree.line.text = some "hw.mem".toList := by
    decide +kernel
  exact separate.1 _ _ first second rfl

end FactKeys

end LlmHoneypot
