import LlmHoneypot.Commands.HeadTail
import LlmHoneypot.Foundation.Selection
import LlmHoneypot.Foundation.Utf8Symbols

/-! # cut

`Command_cut` of `commands/cut.py`, beside the selection of a set of fields. -/

namespace LlmHoneypot

namespace Cut

open HeadTail (Place Write Ended contents NEWLINE)
open HoneyFs (Raised)
open Utf8

/-! ## The list of fields -/

def int (text : Str) : Except Raised Int :=
  match Numerals.int (text.map Char.toNat) with
  | some number => .ok number
  | none => .error .valueError

def parsePart (part : Str) : Except Raised (Int × Option Int) := do
  if '-' ∈ part then
    let startS := part.takeWhile (· ≠ '-')
    let endS := (part.dropWhile (· ≠ '-')).drop 1
    let start ← (if startS ≠ [] then (int startS).map (· - 1) else .ok 0)
    let end_ ← (if endS ≠ [] then (int endS).map some else .ok none)
    .ok (start, end_)
  else
    let idx ← (int part).map (· - 1)
    .ok (idx, some (idx + 1))

def parseFieldSpec (spec : Str) : Except Raised (List (Int × Option Int)) :=
  (Text.splitChar ',' spec).mapM parsePart

/-- Where a slice begins or ends in a list; a negative index counts from its end. -/
def bound (length : Nat) (index : Int) : Nat :=
  if index < 0 then (index + length).toNat else min index.toNat length

def slice {Field : Type} (fields : List Field) (range : Int × Option Int) : List Field :=
  (fields.take ((range.2.map (bound fields.length)).getD fields.length)).drop
    (bound fields.length range.1)

def selectFields {Field : Type} (fieldIndices : List (Int × Option Int)) (fields : List Field) :
    List Field := fieldIndices.flatMap (slice fields)

/-! ## The command -/

structure Command where
  delimiter : Str := "\t".toList
  fieldSpec : Str := []
  suppress : Bool := false
  fieldIndices : List (Int × Option Int) := []

def splitFrom (separator : Str) : Nat → Str → List Str
  | 0, text => [text]
  | fuel + 1, text =>
      match Text.before? separator text, Text.after? separator text with
      | some first, some rest => first :: splitFrom separator fuel rest
      | _, _ => [text]

def split (separator text : Str) : Except Raised (List Str) :=
  match separator with
  | [] => .error .valueError
  | [ch] => .ok (Text.splitChar ch text)
  | _ => .ok (splitFrom separator text.length text)

/-- `data.split(b"\n")` without an empty last line. -/
def linesOf (data : Bytes) : List Bytes :=
  let lines := data.splitOn NEWLINE
  if lines.getLast? = some [] then lines.dropLast else lines

def processLine (command : Command) (line : Bytes) : Except Raised Str :=
  let lineStr := decodeReplace line
  if Text.contains command.delimiter lineStr then do
    let fields ← split command.delimiter lineStr
    .ok (Text.join command.delimiter (selectFields command.fieldIndices fields) ++ ['\n'])
  else
    .ok (if command.suppress then [] else lineStr ++ ['\n'])

def process (command : Command) (data : Bytes) : Except Raised (List Str) :=
  (linesOf data).mapM (processLine command)

def lineReceived (command : Command) (line : Str) : Except Raised (List Str) :=
  process command (encode line)

def VERSION : Str := "cut (GNU coreutils) 8.30\n".toList

def HELP : Str :=
  "Usage: cut OPTION... [FILE]...
Print selected parts of lines from each FILE to standard output.

With no FILE, or when FILE is -, read standard input.

Mandatory arguments to long options are mandatory for short options too.
  -b, --bytes=LIST        select only these bytes
  -c, --characters=LIST   select only these characters
  -d, --delimiter=DELIM   use DELIM instead of TAB for field delimiter
  -f, --fields=LIST       select only these fields;  also print any line
                            that contains no delimiter character, unless
                            the -s option is specified
  -s, --only-delimited    do not print lines not containing delimiters
      --help     display this help and exit
      --version  output version information and exit

Use one, and only one of -b, -c or -f.  Each LIST is made up of one
range, or many ranges separated by commas.

Each range is one of:
  N     N'th byte, character or field, counted from 1
  N-    from N'th byte, character or field, to end of line
  N-M   from N'th to M'th (included) byte, character or field
  -M    from first to M'th (included) byte, character or field

GNU coreutils online help: <http://www.gnu.org/software/coreutils/>
Full documentation at: <http://www.gnu.org/software/coreutils/cut>
or available locally via: info '(coreutils) cut invocation'
".toList

/-- The loop over the options: the text after which the command exits, or its settings. -/
def options : Command → Option Str → List Getopt.Given → Except Str (Command × Option Str)
  | command, fieldSpec, [] => .ok (command, fieldSpec)
  | command, fieldSpec, (opt, val) :: rest =>
      if opt = "--help".toList then .error HELP
      else if opt = "--version".toList then .error VERSION
      else if opt = "-d".toList ∨ opt = "--delimiter".toList then
        options { command with delimiter := val } fieldSpec rest
      else if opt = "-f".toList ∨ opt = "--fields".toList then options command (some val) rest
      else if opt = "-s".toList then options { command with suppress := true } fieldSpec rest
      else if opt = "-b".toList ∨ opt = "-c".toList then options command (some val) rest
      else options command fieldSpec rest

def TRY : Str := "Try 'cut --help' for more information.\n".toList

/-- What is written for one operand; every exception but that of `resolve_path` is caught. -/
def processFile (place : Place) (command : Command) (arg : Str) : Except Raised (List Write) := do
  let pname ← HoneyFs.resolvePath place.tree.home arg place.cwd
  match (contents place pname).bind (process command) with
  | .ok texts => .ok (texts.map fun text => .stdout (encode text))
  | .error _ => .ok [.stderr ("cut: ".toList ++ arg ++ ": No such file or directory\n".toList)]

/-- `start`: what was written, and the command. It waits where there is neither input nor an
operand. -/
def start (place : Place) (args : List Str) (inputData : Bytes) :
    Except Raised (Ended × Command) :=
  match Getopt.getopt true "d:f:b:c:s".toList
      ["help".toList, "version".toList, "delimiter=".toList, "fields=".toList] args with
  | .error opt =>
      .ok ({ writes := [.stderr ("cut: invalid option -- '".toList ++ opt ++ "'\n".toList),
        .stderr TRY] }, {})
  | .ok (optlist, operands) =>
      match options {} none optlist with
      | .error text => .ok ({ writes := [.stdout (encode text)] }, {})
      | .ok (command, none) =>
          .ok ({ writes := [.stderr
            "cut: you must specify a list of bytes, characters, or fields\n".toList,
            .stderr TRY] }, command)
      | .ok (command, some fieldSpec) => do
          let fieldIndices ← parseFieldSpec fieldSpec
          let command := { command with fieldSpec, fieldIndices }
          if inputData ≠ [] then
            let texts ← process command inputData
            .ok ({ writes := texts.map fun text => .stdout (encode text) }, command)
          else if operands ≠ [] then
            let writes ← operands.mapM (processFile place command)
            .ok ({ writes := writes.flatten }, command)
          else
            .ok ({ exited := false }, command)

/-! ## The set of fields -/

def number? (text : Str) : Option Nat :=
  if text ≠ [] ∧ text.all Char.isDigit then
    some (Numerals.value (text.map fun ch => ch.toNat - 48))
  else
    none

def between? (first : Nat) (last : Option Nat) : Option Range :=
  if valid : 0 < first ∧ ∀ place ∈ last, first ≤ place then
    some ⟨first, last, valid.1, valid.2⟩
  else
    none

def range? (part : Str) : Option Range := do
  if '-' ∈ part then
    let first := part.takeWhile (· ≠ '-')
    let last := (part.dropWhile (· ≠ '-')).drop 1
    if first = [] ∧ last = [] then
      none
    else
      let begins ← (if first ≠ [] then number? first else some 1)
      let ends ← (if last ≠ [] then (number? last).map some else some none)
      between? begins ends
  else
    let number ← number? part
    between? number (some number)

/-- The ranges of a list, `none` where it is malformed. -/
def list? (spec : Str) : Option (List Range) := (Text.splitChar ',' spec).mapM range?

variable (delimiter : Char) (suppress : Bool) (ranges : List Range)

def fieldsOf (line : List Symbol) : List (List Symbol) := line.splitOn (.char delimiter)

def cutLine (line : List Symbol) : List Symbol :=
  if .char delimiter ∈ line then
    [.char delimiter].intercalate
      ((Range.select ranges (fieldsOf delimiter line).length).map fun index =>
        (fieldsOf delimiter line).getD index []) ++ [.char '\n']
  else if suppress then
    []
  else
    line ++ [.char '\n']

def cutData (data : Bytes) : List Symbol :=
  (linesOf data).flatMap fun line => cutLine delimiter suppress ranges (symbols line)

def arguments (spec : Str) : List Str :=
  ["-d".toList, [delimiter], "-f".toList, spec] ++ if suppress then ["-s".toList] else []

def output (writes : List Write) : Bytes :=
  writes.flatMap fun
    | .stdout data => data
    | .stderr _ => []

def Prints (place : Place) (spec : Str) (data : Bytes) : Prop :=
  ∃ ended command,
    start place (arguments delimiter suppress spec) data = .ok (ended, command) ∧
    output ended.writes = (cutData delimiter suppress ranges data).flatMap Symbol.bytes ∧
    ∀ line ∈ linesOf data, .char delimiter ∈ symbols line →
      selectFields command.fieldIndices (List.range (fieldsOf delimiter (symbols line)).length) =
        Range.select ranges (fieldsOf delimiter (symbols line)).length

/-- The list is refused with a message, and the command is over. -/
def Reported (place : Place) (spec : Str) (data : Bytes) : Prop :=
  ∃ ended command, start place (arguments delimiter suppress spec) data = .ok (ended, command) ∧
    ended.exited = true ∧ ∃ text, .stderr text ∈ ended.writes

def Correct (place : Place) (spec : Str) (data : Bytes) : Prop :=
  (∀ ranges, list? spec = some ranges → Prints delimiter suppress ranges place spec data) ∧
    (list? spec = none → Reported delimiter suppress place spec data)

/-! ## When the ranges are the set -/

def Readable (spec : Str) : Prop :=
  ∀ part ∈ Text.splitChar ',' spec,
    (part.takeWhile (· ≠ '-')).length ≤ Decimal.MAX_STR_DIGITS ∧
      ((part.dropWhile (· ≠ '-')).drop 1).length ≤ Decimal.MAX_STR_DIGITS

/-- The ranges of the list are increasing and apart as far as a line has fields, and what is
printed is text. -/
structure Apart (data : Bytes) : Prop where
  inOrder : ∀ line ∈ linesOf data, .char delimiter ∈ symbols line →
    Range.InOrder ranges (fieldsOf delimiter (symbols line)).length
  text : ∀ symbol ∈ cutData delimiter suppress ranges data, symbol.isChar = true

def Told (data : Bytes) : Prop :=
  delimiter = '\uFFFD' → ∀ line ∈ linesOf data, ∀ symbol ∈ symbols line, symbol.isChar = true

/-! ### The list -/

theorem digit_code {ch : Char} (isDigit : ch.isDigit = true) : 48 ≤ ch.toNat ∧ ch.toNat ≤ 57 :=
  Char.isDigit_iff_toNat.mp isDigit

theorem int_number {text : Str} {number : Nat} (isNumber : number? text = some number) :
    int text =
      if Decimal.MAX_STR_DIGITS < text.length then .error .valueError else .ok (number : Int) := by
  rw [number?] at isNumber
  split at isNumber
  · next valid =>
      have decimal : ∀ digit ∈ text.map (fun ch => ch.toNat - 48), digit < 10 := by
        intro digit member
        rcases List.mem_map.mp member with ⟨ch, isChar, rfl⟩
        have isDigit := digit_code (List.all_eq_true.mp valid.2 ch isChar)
        omega
      have codes : text.map Char.toNat =
          Numerals.ofDigits (text.map fun ch => ch.toNat - 48) := by
        rw [Numerals.ofDigits, List.map_map]
        apply List.map_congr_left
        intro ch isChar
        have isDigit := digit_code (List.all_eq_true.mp valid.2 ch isChar)
        simp only [Function.comp_apply]
        omega
      have some_ : text.map (fun ch => ch.toNat - 48) ≠ [] := fun none_ =>
        valid.1 (List.map_eq_nil_iff.mp none_)
      rw [int, codes, Numerals.int_ofDigits some_ decimal, List.length_map,
        Option.some.inj isNumber]
      by_cases long : Decimal.MAX_STR_DIGITS < text.length
      · rw [if_pos long, if_pos long]
      · rw [if_neg long, if_neg long]
  · cases isNumber

def sliceOf (range : Range) : Int × Option Int :=
  ((range.first : Int) - 1, range.last.map Int.ofNat)

theorem between?_eq_some {first : Nat} {last : Option Nat} {range : Range}
    (isRange : between? first last = some range) : range.first = first ∧ range.last = last := by
  rw [between?] at isRange
  split at isRange
  · cases isRange
    exact ⟨rfl, rfl⟩
  · cases isRange

theorem parseStart {first : Str} {begins : Nat}
    (isBegin : (if first ≠ [] then number? first else some 1) = some begins) :
    (if first ≠ [] then (int first).map (· - 1) else .ok 0) =
      if Decimal.MAX_STR_DIGITS < first.length then .error Raised.valueError
      else .ok ((begins : Int) - 1) := by
  by_cases given : first ≠ []
  · rw [if_pos given] at isBegin
    rw [if_pos given, int_number isBegin]
    split
    · rfl
    · rfl
  · rw [if_neg given] at isBegin
    rw [if_neg given, not_not.mp given, ← Option.some.inj isBegin]
    rfl

theorem parseEnd {last : Str} {ends : Option Nat}
    (isEnd : (if last ≠ [] then (number? last).map some else some none) = some ends) :
    (if last ≠ [] then (int last).map some else .ok none) =
      if Decimal.MAX_STR_DIGITS < last.length then .error Raised.valueError
      else .ok (ends.map Int.ofNat) := by
  by_cases given : last ≠ []
  · rw [if_pos given] at isEnd
    rcases Option.map_eq_some_iff.mp isEnd with ⟨place, isPlace, rfl⟩
    rw [if_pos given, int_number isPlace]
    split
    · rfl
    · rfl
  · rw [if_neg given] at isEnd
    rw [if_neg given, not_not.mp given, ← Option.some.inj isEnd]
    rfl

theorem parsePart_range {part : Str} {range : Range} (isRange : range? part = some range) :
    parsePart part =
      if (part.takeWhile (· ≠ '-')).length ≤ Decimal.MAX_STR_DIGITS ∧
          ((part.dropWhile (· ≠ '-')).drop 1).length ≤ Decimal.MAX_STR_DIGITS then
        .ok (sliceOf range)
      else
        .error .valueError := by
  rw [range?] at isRange
  rw [parsePart]
  by_cases dashed : '-' ∈ part
  · rw [if_pos dashed] at isRange
    rw [if_pos dashed]
    generalize part.takeWhile (· ≠ '-') = first at isRange ⊢
    generalize (part.dropWhile (· ≠ '-')).drop 1 = last at isRange ⊢
    dsimp only at isRange ⊢
    by_cases bare : first = [] ∧ last = []
    · rw [if_pos bare] at isRange
      cases isRange
    · rw [if_neg bare] at isRange
      rcases Option.bind_eq_some_iff.mp isRange with ⟨begins, isBegin, isRange⟩
      rcases Option.bind_eq_some_iff.mp isRange with ⟨ends, isEnd, between⟩
      have parts := between?_eq_some between
      rw [parseStart isBegin, parseEnd isEnd, sliceOf, parts.1, parts.2]
      by_cases long : Decimal.MAX_STR_DIGITS < first.length
      · rw [if_pos long]
        exact (if_neg fun short => absurd short.1 (Nat.not_le.mpr long)).symm
      · rw [if_neg long]
        by_cases longEnd : Decimal.MAX_STR_DIGITS < last.length
        · rw [if_pos longEnd]
          exact (if_neg fun short => absurd short.2 (Nat.not_le.mpr longEnd)).symm
        · rw [if_neg longEnd, if_pos ⟨Nat.not_lt.mp long, Nat.not_lt.mp longEnd⟩]
          rfl
  · rw [if_neg dashed] at isRange
    rw [if_neg dashed]
    have whole : part.takeWhile (· ≠ '-') = part := by
      rw [List.takeWhile_eq_self_iff]
      intro ch isChar
      exact decide_eq_true fun same => dashed (same ▸ isChar)
    have nothing : part.dropWhile (· ≠ '-') = [] := by
      rw [List.dropWhile_eq_nil_iff]
      intro ch isChar
      exact decide_eq_true fun same => dashed (same ▸ isChar)
    rcases Option.bind_eq_some_iff.mp isRange with ⟨number, isNumber, between⟩
    have parts := between?_eq_some between
    have shortEnd : (([] : Str).drop 1).length ≤ Decimal.MAX_STR_DIGITS := Nat.zero_le _
    rw [whole, nothing, int_number isNumber, sliceOf, parts.1, parts.2]
    by_cases long : Decimal.MAX_STR_DIGITS < part.length
    · rw [if_pos long]
      exact (if_neg fun short => absurd short.1 (Nat.not_le.mpr long)).symm
    · rw [if_neg long, if_pos ⟨Nat.not_lt.mp long, shortEnd⟩]
      exact congrArg (fun place => Except.ok (_, some place)) (Int.sub_add_cancel _ _)

theorem parseParts_ranges {parts : List Str} {ranges : List Range}
    (areRanges : parts.mapM range? = some ranges) :
    ((∀ part ∈ parts, (part.takeWhile (· ≠ '-')).length ≤ Decimal.MAX_STR_DIGITS ∧
        ((part.dropWhile (· ≠ '-')).drop 1).length ≤ Decimal.MAX_STR_DIGITS) →
      parts.mapM parsePart = .ok (ranges.map sliceOf)) ∧
    (∀ slices, parts.mapM parsePart = .ok slices →
      ∀ part ∈ parts, (part.takeWhile (· ≠ '-')).length ≤ Decimal.MAX_STR_DIGITS ∧
        ((part.dropWhile (· ≠ '-')).drop 1).length ≤ Decimal.MAX_STR_DIGITS) := by
  induction parts generalizing ranges with
  | nil =>
      cases areRanges
      exact ⟨fun _ => rfl, fun _ _ _ absent => nomatch absent⟩
  | cons part rest induction =>
      rw [List.mapM_cons] at areRanges
      rcases Option.bind_eq_some_iff.mp areRanges with ⟨range, isRange, more⟩
      rcases Option.bind_eq_some_iff.mp more with ⟨others, areOthers, same⟩
      cases same
      have later := induction areOthers
      have first := parsePart_range isRange
      rw [List.mapM_cons, first]
      constructor
      · intro short
        have shorts := List.forall_mem_cons.mp short
        rw [if_pos shorts.1, later.1 shorts.2]
        rfl
      · intro slices parsed
        by_cases short : (part.takeWhile (· ≠ '-')).length ≤ Decimal.MAX_STR_DIGITS ∧
            ((part.dropWhile (· ≠ '-')).drop 1).length ≤ Decimal.MAX_STR_DIGITS
        · rw [if_pos short] at parsed
          cases others_ : rest.mapM parsePart with
          | error raised =>
              rw [others_] at parsed
              cases parsed
          | ok others => exact List.forall_mem_cons.mpr ⟨short, later.2 others others_⟩
        · rw [if_neg short] at parsed
          cases parsed

/-! ### The fields -/

theorem slice_range {Field : Type} (fields : List Field) (default : Field) (range : Range) :
    slice fields (sliceOf range) =
      (range.indices fields.length).map fun index => fields.getD index default := by
  have positive := range.positive
  have start : bound fields.length (sliceOf range).1 = min (range.first - 1) fields.length := by
    rw [bound, if_neg (by simp only [sliceOf]; omega)]
    simp only [sliceOf]
    omega
  have stop : (((sliceOf range).2.map (bound fields.length)).getD fields.length) =
      range.stop fields.length := by
    rw [sliceOf, Range.stop]
    cases range.last with
    | none => exact (Nat.min_self _).symm
    | some place =>
        have notNegative : ¬ Int.ofNat place < 0 := Int.not_lt.mpr (Int.natCast_nonneg place)
        rw [Option.map_some, Option.map_some, Option.getD_some, bound, if_neg notNegative]
        rfl
  rw [slice, start, stop, Range.indices]
  apply List.ext_getElem
  · rw [List.length_drop, List.length_take, List.length_map, List.length_range', Range.stop]
    omega
  · intro index inSlice inIndices
    rw [List.length_drop, List.length_take, Range.stop] at inSlice
    rw [List.getElem_drop, List.getElem_take, List.getElem_map, List.getElem_range', Nat.one_mul]
    have at_ : min (range.first - 1) fields.length + index = range.first - 1 + index := by omega
    have within : range.first - 1 + index < fields.length := by omega
    rw [List.getD_eq_getElem?_getD, List.getElem?_eq_getElem within]
    simp only [at_, Option.getD_some]

theorem selectFields_ranges {Field : Type} (ranges : List Range) (fields : List Field)
    (default : Field) :
    selectFields (ranges.map sliceOf) fields =
      (ranges.flatMap (·.indices fields.length)).map fun index => fields.getD index default := by
  rw [selectFields, List.flatMap_map, List.map_flatMap]
  apply List.flatMap_congr
  intro range _
  exact slice_range fields default range

theorem selectFields_range (ranges : List Range) (count : Nat) :
    selectFields (ranges.map sliceOf) (List.range count) = ranges.flatMap (·.indices count) := by
  rw [selectFields_ranges ranges _ 0, List.length_range]
  refine (List.map_congr_left fun index member => ?_).trans (List.map_id _)
  rcases List.mem_flatMap.mp member with ⟨range, -, isIndex⟩
  have within := (Range.mem_indices.mp isIndex).1
  rw [List.getD_eq_getElem?_getD, List.getElem?_range within]
  rfl

/-! ### A line -/

theorem splitChar_shown {line : List Symbol}
    (told : ∀ symbol ∈ line, symbol.shown = delimiter → symbol = .char delimiter) :
    Text.splitChar delimiter (line.map Symbol.shown) =
      (fieldsOf delimiter line).map (List.map Symbol.shown) := by
  induction line with
  | nil => rfl
  | cons symbol rest induction =>
      have tells := List.forall_mem_cons.mp told
      rw [fieldsOf, List.splitOn_cons_eq_if_modifyHead, ← fieldsOf, List.map_cons, Text.splitChar,
        induction tells.2]
      by_cases same : symbol.shown = delimiter
      · have isDelimiter := tells.1 same
        rw [if_pos same, if_pos (beq_iff_eq.mpr isDelimiter)]
        rfl
      · have differs : ¬ (symbol == Symbol.char delimiter) = true := fun isDelimiter =>
          same (congrArg Symbol.shown (beq_iff_eq.mp isDelimiter))
        rw [if_neg same, if_neg differs]
        cases fields : fieldsOf delimiter rest with
        | nil => exact absurd fields (List.splitOn_ne_nil _ _)
        | cons head tail => rfl

theorem contains_shown_iff {line : List Symbol}
    (told : ∀ symbol ∈ line, symbol.shown = delimiter → symbol = .char delimiter) :
    Text.contains [delimiter] (line.map Symbol.shown) = true ↔ .char delimiter ∈ line := by
  rw [Text.contains_iff_infix, List.singleton_infix_iff, List.mem_map]
  constructor
  · intro shown
    rcases shown with ⟨symbol, member, same⟩
    exact told symbol member same ▸ member
  · intro member
    exact ⟨_, member, rfl⟩

def commandOf (spec : Str) : Command :=
  { delimiter := [delimiter], fieldSpec := spec, suppress, fieldIndices := ranges.map sliceOf }

theorem intercalate_shown (separator : Symbol) (fields : List (List Symbol)) :
    Text.join [separator.shown] (fields.map (List.map Symbol.shown)) =
      ([separator].intercalate fields).map Symbol.shown := by
  induction fields with
  | nil => rfl
  | cons field rest induction =>
      cases rest with
      | nil => simp [Text.join]
      | cons next rest =>
          rw [Text.join, List.map_cons] at induction
          rw [Text.join, List.map_cons, List.map_cons, List.intercalate_cons_cons, List.intercalate_cons_cons, induction, List.map_append,
            List.map_append]
          rfl

theorem processLine_inOrder (spec : Str) {line : Bytes}
    (told : ∀ symbol ∈ symbols line, symbol.shown = delimiter → symbol = .char delimiter)
    (inOrder : .char delimiter ∈ symbols line →
      Range.InOrder ranges (fieldsOf delimiter (symbols line)).length) :
    processLine (commandOf delimiter suppress ranges spec) line =
      .ok ((cutLine delimiter suppress ranges (symbols line)).map Symbol.shown) := by
  have contains := contains_shown_iff delimiter told
  rw [processLine, ← map_shown_symbols, cutLine]
  by_cases member : .char delimiter ∈ symbols line
  · have order := (Range.flatMap_indices_eq_iff ranges _).mpr (inOrder member)
    have fields : split [delimiter] ((symbols line).map Symbol.shown) =
        .ok ((fieldsOf delimiter (symbols line)).map (List.map Symbol.shown)) := by
      rw [split, splitChar_shown delimiter told]
    have selected : selectFields (ranges.map sliceOf)
          ((fieldsOf delimiter (symbols line)).map (List.map Symbol.shown)) =
        ((Range.select ranges (fieldsOf delimiter (symbols line)).length).map fun index =>
          (fieldsOf delimiter (symbols line)).getD index []).map (List.map Symbol.shown) := by
      rw [selectFields_ranges ranges _ [], List.length_map, order, List.map_map]
      apply List.map_congr_left
      intro index _
      rw [List.getD_eq_getElem?_getD, List.getElem?_map, Function.comp_apply,
        List.getD_eq_getElem?_getD]
      cases (fieldsOf delimiter (symbols line))[index]? with
      | none => rfl
      | some field => rfl
    refine (if_pos (contains.mpr member)).trans ?_
    rw [if_pos member, List.map_append, ← intercalate_shown, ← selected]
    have command : (commandOf delimiter suppress ranges spec).delimiter = [delimiter] := rfl
    rw [command, fields]
    rfl
  · refine (if_neg fun shown => member (contains.mp shown)).trans ?_
    rw [if_neg member]
    cases suppress with
    | true => rfl
    | false =>
        have appended : (symbols line ++ [Symbol.char '\n']).map Symbol.shown =
            (symbols line).map Symbol.shown ++ ['\n'] := List.map_append
        exact congrArg Except.ok appended.symm

/-! ### The whole input -/

theorem notShown_of_ne {line : List Symbol} (differs : delimiter ≠ '\uFFFD') :
    ∀ symbol ∈ line, symbol.shown = delimiter → symbol = .char delimiter := by
  intro symbol _ same
  cases symbol with
  | char ch => exact congrArg Symbol.char same
  | stray bytes => exact absurd same.symm differs

theorem shown_of_told {data : Bytes} (told : Told delimiter data) :
    ∀ line ∈ linesOf data, ∀ symbol ∈ symbols line,
      symbol.shown = delimiter → symbol = .char delimiter := by
  intro line member
  by_cases replacement : delimiter = '\uFFFD'
  · intro symbol isSymbol same
    have isChar := told replacement line member symbol isSymbol
    cases symbol with
    | char ch => exact congrArg Symbol.char same
    | stray bytes => cases isChar
  · exact notShown_of_ne delimiter replacement

theorem process_inOrder (spec : Str) {data : Bytes} (told : Told delimiter data)
    (inOrder : ∀ line ∈ linesOf data, .char delimiter ∈ symbols line →
      Range.InOrder ranges (fieldsOf delimiter (symbols line)).length) :
    process (commandOf delimiter suppress ranges spec) data =
      .ok ((linesOf data).map fun line =>
        (cutLine delimiter suppress ranges (symbols line)).map Symbol.shown) := by
  have shown := shown_of_told delimiter told
  rw [process]
  generalize linesOf data = lines at shown inOrder
  induction lines with
  | nil => rfl
  | cons line rest induction =>
      have shows := List.forall_mem_cons.mp shown
      have orders := List.forall_mem_cons.mp inOrder
      rw [List.mapM_cons, processLine_inOrder delimiter suppress ranges spec shows.1 orders.1,
        induction shows.2 orders.2]
      rfl

theorem mem_intercalate {Item : Type} {separator item : Item} {fields : List (List Item)} :
    item ∈ [separator].intercalate fields →
      item = separator ∨ ∃ field ∈ fields, item ∈ field := by
  induction fields with
  | nil => exact fun absent => nomatch absent
  | cons field rest induction =>
      intro member
      cases rest with
      | nil =>
          rw [List.intercalate_singleton] at member
          exact .inr ⟨field, List.mem_cons_self, member⟩
      | cons next rest =>
          rw [List.intercalate_cons_cons, List.append_assoc] at member
          rcases List.mem_append.mp member with here | later
          · exact .inr ⟨field, List.mem_cons_self, here⟩
          · rcases List.mem_append.mp later with isSeparator | later
            · exact .inl (List.mem_singleton.mp isSeparator)
            · rcases induction later with isSeparator | ⟨other, isField, isItem⟩
              · exact .inl isSeparator
              · exact .inr ⟨other, List.mem_cons_of_mem _ isField, isItem⟩

theorem mem_of_mem_field {line field : List Symbol} {symbol : Symbol}
    (isField : field ∈ fieldsOf delimiter line) (member : symbol ∈ field) : symbol ∈ line := by
  induction line generalizing field with
  | nil =>
      rw [fieldsOf, List.splitOn_nil, List.mem_singleton] at isField
      rw [isField] at member
      cases member
  | cons first rest induction =>
      rw [fieldsOf, List.splitOn_cons_eq_if_modifyHead, ← fieldsOf] at isField
      split at isField
      · rcases List.mem_cons.mp isField with rfl | later
        · cases member
        · exact List.mem_cons_of_mem _ (induction later member)
      · cases fields : fieldsOf delimiter rest with
        | nil =>
            rw [fields] at isField
            cases isField
        | cons head tail =>
            rw [fields, List.modifyHead_cons] at isField
            rcases List.mem_cons.mp isField with rfl | later
            · rcases List.mem_cons.mp member with rfl | within
              · exact List.mem_cons_self
              · exact List.mem_cons_of_mem _ (induction (fields ▸ List.mem_cons_self) within)
            · exact List.mem_cons_of_mem _
                (induction (fields ▸ List.mem_cons_of_mem _ later) member)

theorem mem_cutLine {line : List Symbol} {symbol : Symbol}
    (member : symbol ∈ cutLine delimiter suppress ranges line) :
    symbol ∈ line ∨ ∃ ch, symbol = .char ch := by
  rw [cutLine] at member
  split at member
  · rcases List.mem_append.mp member with selected | newline
    · rcases mem_intercalate selected with rfl | ⟨field, isField, within⟩
      · exact .inr ⟨delimiter, rfl⟩
      · rcases List.mem_map.mp isField with ⟨index, -, rfl⟩
        rw [List.getD_eq_getElem?_getD] at within
        cases found : (fieldsOf delimiter line)[index]? with
        | none =>
            rw [found] at within
            cases within
        | some field =>
            rw [found] at within
            exact .inl (mem_of_mem_field delimiter (List.mem_of_getElem? found) within)
    · exact .inr ⟨'\n', List.mem_singleton.mp newline⟩
  · split at member
    · cases member
    · rcases List.mem_append.mp member with within | newline
      · exact .inl within
      · exact .inr ⟨'\n', List.mem_singleton.mp newline⟩

theorem strays_cutData (data : Bytes) : ∀ bytes,
    Symbol.stray bytes ∈ cutData delimiter suppress ranges data →
      decode bytes = none ∧ bytes.length ≤ 3 := by
  intro bytes member
  rcases List.mem_flatMap.mp member with ⟨line, -, isSymbol⟩
  rcases mem_cutLine delimiter suppress ranges isSymbol with isStray | ⟨ch, differs⟩
  · exact stray_of_mem isStray
  · cases differs

def continued (command : Command) (data : Bytes) : Except Raised (Ended × Command) :=
  if data = [] then
    .ok ({ exited := false }, command)
  else
    (process command data).map fun texts =>
      ({ writes := texts.map fun text => .stdout (encode text) }, command)

theorem start_arguments (place : Place) (spec : Str) (data : Bytes) :
    start place (arguments delimiter suppress spec) data =
      (parseFieldSpec spec).bind fun fieldIndices =>
        continued { delimiter := [delimiter], fieldSpec := spec, suppress, fieldIndices } data := by
  have parsed : Getopt.getopt true "d:f:b:c:s".toList
      ["help".toList, "version".toList, "delimiter=".toList, "fields=".toList]
        (arguments delimiter suppress spec) =
      .ok ([("-d".toList, [delimiter]), ("-f".toList, spec)] ++
        if suppress then [("-s".toList, [])] else [], []) := by
    cases suppress with
    | true => rfl
    | false => rfl
  have settings : options {} none ([("-d".toList, [delimiter]), ("-f".toList, spec)] ++
        if suppress then [("-s".toList, [])] else []) =
      .ok ({ delimiter := [delimiter], suppress }, some spec) := by
    cases suppress with
    | true => rfl
    | false => rfl
  rw [start, parsed]
  dsimp only
  rw [settings]
  dsimp only
  cases parseFieldSpec spec with
  | error raised => rfl
  | ok fieldIndices =>
      by_cases empty : data = []
      · rw [empty]
        rfl
      · refine Eq.trans (if_pos empty) (Eq.trans ?_ (if_neg empty).symm)
        cases process { delimiter := [delimiter], fieldSpec := spec, suppress, fieldIndices } data with
        | error raised => rfl
        | ok texts => rfl

theorem map_eq_ok {Value Result : Type} {computed : Except Raised Value} {image : Value → Result}
    {result : Result} (returns : computed.map image = .ok result) :
    ∃ value, computed = .ok value ∧ image value = result := by
  cases computed with
  | error raised => cases returns
  | ok value => exact ⟨value, rfl, Except.ok.inj returns⟩

theorem output_stdout (texts : List Str) :
    output (texts.map fun text => .stdout (encode text)) = encode texts.flatten := by
  induction texts with
  | nil => rfl
  | cons text rest induction =>
      rw [List.flatten_cons, encode_append, ← induction]
      rfl

theorem output_inOrder (data : Bytes) :
    encode (((linesOf data).map fun line =>
      (cutLine delimiter suppress ranges (symbols line)).map Symbol.shown).flatten) =
      encode ((cutData delimiter suppress ranges data).map Symbol.shown) := by
  rw [cutData, List.map_flatMap, List.flatMap_def]

theorem start_list (place : Place) {spec : Str} (data : Bytes)
    (isList : list? spec = some ranges) (readable : Readable spec) :
    start place (arguments delimiter suppress spec) data =
      continued (commandOf delimiter suppress ranges spec) data := by
  have parsed : parseFieldSpec spec = .ok (ranges.map sliceOf) :=
    (parseParts_ranges isList).1 readable
  rw [start_arguments, parsed]
  rfl

theorem readable_of_start (place : Place) {spec : Str} {data : Bytes} {result : Ended × Command}
    (isList : list? spec = some ranges)
    (returns : start place (arguments delimiter suppress spec) data = .ok result) :
    Readable spec := by
  rw [start_arguments] at returns
  cases parsed : parseFieldSpec spec with
  | error raised =>
      rw [parsed] at returns
      cases returns
  | ok slices => exact (parseParts_ranges isList).2 slices parsed

theorem prints_of_apart (place : Place) {spec : Str} {data : Bytes}
    (isList : list? spec = some ranges) (readable : Readable spec) (told : Told delimiter data)
    (apart : Apart delimiter suppress ranges data) :
    Prints delimiter suppress ranges place spec data := by
  have places : ∀ line ∈ linesOf data, .char delimiter ∈ symbols line →
      selectFields (ranges.map sliceOf) (List.range (fieldsOf delimiter (symbols line)).length) =
        Range.select ranges (fieldsOf delimiter (symbols line)).length := by
    intro line isLine member
    rw [selectFields_range]
    exact (Range.flatMap_indices_eq_iff ranges _).mpr (apart.inOrder line isLine member)
  have started := start_list delimiter suppress ranges place data isList readable
  rw [continued] at started
  by_cases empty : data = []
  · rw [if_pos empty] at started
    refine ⟨_, _, started, ?_, places⟩
    rw [empty]
    rfl
  · rw [if_neg empty, process_inOrder delimiter suppress ranges spec told apart.inOrder] at started
    refine ⟨_, _, started, ?_, places⟩
    rw [output_stdout, output_inOrder]
    exact (encode_shown_eq_iff (strays_cutData delimiter suppress ranges data)).mpr apart.text

theorem apart_of_prints (place : Place) {spec : Str} {data : Bytes}
    (isList : list? spec = some ranges) (told : Told delimiter data)
    (prints : Prints delimiter suppress ranges place spec data) :
    Readable spec ∧ Apart delimiter suppress ranges data := by
  rcases prints with ⟨ended, command, returns, same, places⟩
  have readable := readable_of_start delimiter suppress ranges place isList returns
  have started := start_list delimiter suppress ranges place data isList readable
  rw [returns, continued] at started
  by_cases empty : data = []
  · rw [empty]
    refine ⟨readable, ?_, ?_⟩
    · intro line isLine
      exact absurd isLine List.not_mem_nil
    · intro symbol isSymbol
      exact absurd isSymbol List.not_mem_nil
  · rw [if_neg empty] at started
    have isCommand : command = commandOf delimiter suppress ranges spec := by
      rcases map_eq_ok started.symm with ⟨texts, -, isResult⟩
      exact (congrArg Prod.snd isResult).symm
    have inOrder : ∀ line ∈ linesOf data, .char delimiter ∈ symbols line →
        Range.InOrder ranges (fieldsOf delimiter (symbols line)).length := by
      intro line isLine member
      have taken := places line isLine member
      rw [isCommand] at taken
      exact (Range.flatMap_indices_eq_iff ranges _).mp ((selectFields_range ranges _).symm.trans taken)
    rw [process_inOrder delimiter suppress ranges spec told inOrder] at started
    injection Except.ok.inj started with isEnded _
    rw [isEnded, output_stdout, output_inOrder] at same
    exact ⟨readable, inOrder,
      (encode_shown_eq_iff (strays_cutData delimiter suppress ranges data)).mp same⟩

theorem notReported (place : Place) {spec : Str} {data : Bytes} :
    ¬ Reported delimiter suppress place spec data := by
  intro reported
  rcases reported with ⟨ended, command, returns, exited, text, member⟩
  rw [start_arguments] at returns
  cases parsed : parseFieldSpec spec with
  | error raised =>
      rw [parsed] at returns
      cases returns
  | ok slices =>
      rw [parsed] at returns
      replace returns : continued _ data = .ok (ended, command) := returns
      rw [continued] at returns
      split at returns
      · injection Except.ok.inj returns with isEnded _
        rw [← isEnded] at exited
        cases exited
      · rcases map_eq_ok returns with ⟨texts, -, isResult⟩
        rw [← congrArg (fun result => result.1.writes) isResult] at member
        rcases List.mem_map.mp member with ⟨_, -, differs⟩
        cases differs

/-- A list is treated as a set where its ranges are increasing and apart as far as the lines have
fields, no number is too long, and what is printed is text; a malformed list never is reported.
Where the delimiter is the replacement character, bytes shown as it must not stand in a line. -/
theorem cut_iff (place : Place) (spec : Str) (data : Bytes) :
    ((∃ ranges, list? spec = some ranges ∧ Readable spec ∧ Apart delimiter suppress ranges data ∧
        Told delimiter data) → Correct delimiter suppress place spec data) ∧
      (Told delimiter data → Correct delimiter suppress place spec data →
        ∃ ranges, list? spec = some ranges ∧ Readable spec ∧
          Apart delimiter suppress ranges data) := by
  constructor
  · intro condition
    rcases condition with ⟨ranges, isList, readable, apart, told⟩
    refine ⟨fun others isOthers => ?_, fun malformed => ?_⟩
    · cases isList.symm.trans isOthers
      exact prints_of_apart delimiter suppress ranges place isList readable told apart
    · cases isList.symm.trans malformed
  · intro told correct
    cases isList : list? spec with
    | none => exact absurd (correct.2 isList) (notReported delimiter suppress place)
    | some ranges =>
        have parts := apart_of_prints delimiter suppress ranges place isList told
          (correct.1 ranges isList)
        exact ⟨ranges, rfl, parts.1, parts.2⟩

/-- `cut -d : -f 1,3-` of a line with four fields and of one without a delimiter. -/
theorem cut_two : Correct ':' false (HeadTail.holding [] []) "1,3-".toList
    (encode "a:b:c:d\ne\n".toList) := by
  apply (cut_iff ':' false (HeadTail.holding [] []) "1,3-".toList _).1
  refine ⟨[⟨1, some 1, by decide, by decide⟩, ⟨3, none, by decide, by decide⟩], rfl, ?_,
    ⟨by decide +kernel, by decide +kernel⟩, fun isReplacement => absurd isReplacement (by decide)⟩
  have short : ∀ part ∈ ["1".toList, "3-".toList],
      (part.takeWhile (· ≠ '-')).length ≤ Decimal.MAX_STR_DIGITS ∧
        ((part.dropWhile (· ≠ '-')).drop 1).length ≤ Decimal.MAX_STR_DIGITS := by
    decide
  exact short

/-- `cut -d : -f 2,1` prints the second field first. -/
theorem cut_swapped : ¬ ∀ (spec : Str) (data : Bytes),
    Correct ':' false (HeadTail.holding [] []) spec data := by
  intro correct
  have isList : list? "2,1".toList =
      some [⟨2, some 2, by decide, by decide⟩, ⟨1, some 1, by decide, by decide⟩] := rfl
  rcases (correct "2,1".toList (encode "a:b\n".toList)).1 _ isList with
    ⟨ended, command, returns, same, -⟩
  have started : start (HeadTail.holding [] []) (arguments ':' false "2,1".toList)
      (encode "a:b\n".toList) =
      .ok ({ writes := [.stdout (encode "b:a\n".toList)] },
        commandOf ':' false [⟨2, some 2, by decide, by decide⟩, ⟨1, some 1, by decide, by decide⟩]
          "2,1".toList) := rfl
  rw [started] at returns
  injection Except.ok.inj returns with isEnded _
  rw [← isEnded] at same
  revert same
  decide

end Cut

end LlmHoneypot
