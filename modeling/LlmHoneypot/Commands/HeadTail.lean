import LlmHoneypot.Foundation.Getopt
import LlmHoneypot.Foundation.Numerals
import LlmHoneypot.Foundation.TextLines
import LlmHoneypot.HoneyFs.Contents

/-! # head and tail

`Command_head` and `Command_tail` of `commands/fs.py`, beside the first and the last lines of a
text. -/

namespace LlmHoneypot

namespace HeadTail

open HoneyFs (HoneyPotFilesystem Host Raised)
open TextLines (firstLines afterLines lastLines lines Terminated)

def NEWLINE : UInt8 := 10

structure Place where
  tree : HoneyPotFilesystem
  /-- How deep calls may stand in each other. -/
  limit : Nat
  host : Host
  cwd : Str

/-- What a command writes; the writes for one file stand together. -/
inductive Write
  | stdout (data : Bytes)
  | stderr (text : Str)
  deriving DecidableEq, Repr

structure Ended where
  writes : List Write := []
  exited : Bool := true
  deriving DecidableEq, Repr

section

variable (place : Place)

def checkArguments (application : Str) : List Str → Except Raised (List Write × List Str)
  | [] => .ok ([], [])
  | arg :: args => do
      let path ← HoneyFs.resolvePath place.tree.home arg place.cwd
      let (writes, files) ← checkArguments application args
      if place.tree.isdir place.limit path then
        .ok (.stderr (application ++ ": error reading `".toList ++ arg ++
          "': Is a directory\n".toList) :: writes, files)
      else .ok (writes, path :: files)

def contents (file : Str) : Except Raised Bytes :=
  place.tree.fileContents place.limit place.host file

/-- `isdigit` and then `int` of an option's argument, `none` where it is not digits. -/
def count? (text : Str) : Except Raised (Option Nat) :=
  if Numerals.isdigit (text.map Char.toNat) then
    match Numerals.int (text.map Char.toNat) with
    | some number => .ok (some number.toNat)
    | none => .error .valueError
  else .ok none

/-! ## head -/

structure HeadCounts where
  linecount : Nat := 10
  bytecount : Nat := 0
  deriving DecidableEq, Repr

def headOption (counts : HeadCounts) (opt : Getopt.Given) :
    Except Raised (HeadCounts × List Write) := do
  let number ← count? opt.2
  if opt.1 = "-n".toList then
    match number with
    | some linecount => .ok ({ linecount, bytecount := 0 }, [])
    | none =>
        .ok (counts,
          [.stderr ("head: invalid number of lines: `".toList ++ opt.2 ++ "`\n".toList)])
  else if opt.1 = "-c".toList then
    match number with
    | some bytecount => .ok ({ linecount := 0, bytecount }, [])
    | none =>
        .ok (counts,
          [.stderr ("head: invalid number of bytes: `".toList ++ opt.2 ++ "`\n".toList)])
  else .ok (counts, [])

def headOptions : HeadCounts → List Getopt.Given → Except Raised (HeadCounts × List Write)
  | counts, [] => .ok (counts, [])
  | counts, opt :: opts => do
      let (next, writes) ← headOption counts opt
      let (last, more) ← headOptions next opts
      .ok (last, writes ++ more)

def headApplication (counts : HeadCounts) (contents : Bytes) : Bytes :=
  if counts.bytecount ≠ 0 then contents.take counts.bytecount
  else if counts.linecount ≠ 0 then
    ((contents.splitOn NEWLINE).take counts.linecount).flatMap (· ++ [NEWLINE])
  else []

def headFile (counts : HeadCounts) (file : Str) : Except Raised Write :=
  match contents place file with
  | .ok data => .ok (.stdout (headApplication counts data))
  | .error .fileNotFound =>
      .ok (.stderr ("head: cannot open `".toList ++ file ++
        "' for reading: No such file or directory\n".toList))
  | .error raised => .error raised

def head (args : List Str) (inputData : Bytes) : Except Raised Ended :=
  if args = [] ∨ args.head? = some ">".toList then .ok { exited := false }
  else
    match Getopt.getopt false "c:n:".toList [] args with
    | .error opt =>
        .ok { writes := [.stderr ("head: invalid option -- '".toList ++ opt ++ "'\n".toList)] }
    | .ok (optlist, operands) => do
        let (counts, writes) ← headOptions {} optlist
        if inputData = [] then do
          let (errors, files) ← checkArguments place "head".toList operands
          let outputs ← files.mapM (headFile place counts)
          .ok { writes := writes ++ errors ++ outputs }
        else .ok { writes := writes ++ [.stdout (headApplication counts inputData)] }

/-! ## tail -/

def tailOption (n : Nat) (opt : Getopt.Given) : Except Raised (Nat × List Write) :=
  if opt.1 = "-n".toList then do
    match ← count? opt.2 with
    | some number => .ok (number, [])
    | none =>
        .ok (n, [.stderr ("tail: illegal offset -- ".toList ++ opt.2 ++ "\n".toList)])
  else .ok (n, [])

def tailOptions : Nat → List Getopt.Given → Except Raised (Nat × List Write)
  | n, [] => .ok (n, [])
  | n, opt :: opts => do
      let (next, writes) ← tailOption n opt
      let (last, more) ← tailOptions next opts
      .ok (last, writes ++ more)

def pieceAt (pieces : List Bytes) (j : Int) : Except Raised Bytes :=
  let index := if j < 0 then j + pieces.length else j
  if index < 0 then .error .indexError
  else
    match pieces[index.toNat]? with
    | some piece => .ok piece
    | none => .error .indexError

def tailLoop (pieces : List Bytes) (n : Nat) (first : Int) :
    (steps i : Nat) → Except Raised Bytes
  | 0, _ => .ok []
  | steps + 1, i => do
      let piece ← pieceAt pieces (first + i)
      let later ← tailLoop pieces n first steps (i + 1)
      .ok (piece ++ (if i < n then [NEWLINE] else []) ++ later)

def tailApplication (n : Nat) (contents : Bytes) : Except Raised (Nat × Bytes) :=
  let pieces := contents.splitOn NEWLINE
  let n := if pieces.length < n then pieces.length - 1 else n
  let first : Int := pieces.length - n - 1
  (tailLoop pieces n first (pieces.length - first).toNat 0).map (n, ·)

/-- `tail_get_contents`; every exception is caught. -/
def tailFile (n : Nat) (file : Str) : Nat × Write :=
  match (contents place file).bind (tailApplication n) with
  | .ok (n, data) => (n, .stdout data)
  | .error _ =>
      (n, .stderr ("tail: cannot open `".toList ++ file ++
        "' for reading: No such file or directory\n".toList))

def tailFiles : Nat → List Str → List Write
  | _, [] => []
  | n, file :: files =>
      let (n, write) := tailFile place n file
      write :: tailFiles n files

def tail (args : List Str) (inputData : Bytes) : Except Raised Ended :=
  if args = [] ∨ args.head? = some ">".toList then .ok { exited := false }
  else
    match Getopt.getopt false "n:".toList [] args with
    | .error opt =>
        .ok { writes := [.stderr ("tail: invalid option -- '".toList ++ opt ++ "'\n".toList)] }
    | .ok (optlist, operands) => do
        let (n, writes) ← tailOptions 10 optlist
        if inputData = [] then do
          let (errors, files) ← checkArguments place "tail".toList operands
          .ok { writes := writes ++ errors ++ tailFiles place n files }
        else do
          let (_, data) ← tailApplication n inputData
          .ok { writes := writes ++ [.stdout data] }

end

/-! ## The operands of a run -/

/-- An operand that names a file with a content. -/
structure Holds (place : Place) (operand : Str) (data : Bytes) : Prop where
  notOption : ¬ "-".toList <+: operand
  read : ∃ file, HoneyFs.resolvePath place.tree.home operand place.cwd = .ok file ∧
    place.tree.isdir place.limit file = false ∧ contents place file = .ok data

def arguments (number : Nat) (operands : List Str) : List Str :=
  "-n".toList :: Text.decimal number :: operands

/-- The texts that a run is to read: its files, or without any its piped input. -/
def sources (operands : List Str) (texts : List Bytes) (inputData : Bytes) : List Bytes :=
  if operands ≠ [] then texts else if inputData = [] then [] else [inputData]

/-- A run that prints a part of each text and does nothing else. -/
def prints (part : Bytes → Bytes) (texts : List Bytes) : Ended :=
  { writes := texts.map fun text => .stdout (part text) }

variable {place : Place} {operands : List Str} {texts : List Bytes}

theorem plain_operands (files : List.Forall₂ (Holds place) operands texts) :
    ∀ operand ∈ operands, ¬ "-".toList <+: operand := by
  induction files with
  | nil => simp
  | cons holds _ induction =>
      intro operand member
      rcases List.mem_cons.mp member with rfl | later
      · exact holds.notOption
      · exact induction operand later

theorem sources_eq (files : List.Forall₂ (Holds place) operands texts) {inputData : Bytes}
    (either : operands = [] ∨ inputData = []) :
    sources operands texts inputData = if inputData = [] then texts else [inputData] := by
  by_cases none_ : operands = []
  · subst none_
    cases files
    rw [sources, if_neg (by simp)]
  · rw [sources, if_pos none_, if_pos (either.resolve_left none_)]

theorem getopt_arguments {shortopts : Str} (takesNumber : Getopt.shortHasArg 'n' shortopts = some true)
    (plain : ∀ operand ∈ operands, ¬ "-".toList <+: operand) (number : Nat) :
    Getopt.getopt false shortopts [] (arguments number operands) =
      .ok ([("-n".toList, Text.decimal number)], operands) := by
  have rest : Getopt.getoptFrom false shortopts [] none operands = .ok ([], operands) := by
    cases operands with
    | nil => rfl
    | cons operand later =>
        have first := plain operand List.mem_cons_self
        have notDashes : operand ≠ "--".toList := by
          rintro rfl
          exact first (by decide)
        have notDash : operand.head? ≠ some '-' := by
          cases operand with
          | nil => simp
          | cons ch text =>
              rintro equal
              rw [List.head?_cons, Option.some.injEq] at equal
              exact first ⟨text, by rw [equal]; rfl⟩
        rw [Getopt.getoptFrom, if_neg notDashes, if_neg (fun both => notDash both.1)]
        rfl
  have taken : Getopt.takeOption [] shortopts "-n".toList = .ok { waiting := some "-n".toList } := by
    simp [Getopt.takeOption, Getopt.takeShorts, takesNumber]
  rw [Getopt.getopt, arguments, Getopt.getoptFrom, if_neg (by decide), if_pos (by decide), taken]
  simp only [Getopt.getoptFrom, rest]
  rfl

theorem count?_decimal (number : Nat) :
    count? (Text.decimal number) =
      if number < 10 ^ Decimal.MAX_STR_DIGITS then .ok (some number) else .error .valueError := by
  rw [count?, if_pos (Numerals.isdigit_decimal number), Numerals.int_decimal]
  by_cases small : number < 10 ^ Decimal.MAX_STR_DIGITS
  · rw [if_pos small, if_pos small]
    rfl
  · rw [if_neg small, if_neg small]

theorem checkArguments_files (application : Str) (files : List.Forall₂ (Holds place) operands texts) :
    ∃ paths, checkArguments place application operands = .ok ([], paths) ∧
      List.Forall₂ (fun path text => contents place path = .ok text) paths texts := by
  induction files with
  | nil => exact ⟨[], rfl, .nil⟩
  | cons holds _ induction =>
      rcases holds.read with ⟨file, resolved, notDir, read⟩
      rcases induction with ⟨paths, checked, reads⟩
      refine ⟨file :: paths, ?_, .cons read reads⟩
      rw [checkArguments, resolved, checked]
      simp only [bind, Except.bind, notDir]
      rfl

/-! ## head on a text -/

theorem headApplication_lines (count : Nat) (text : Bytes) :
    headApplication { linecount := count } text =
      ((text.splitOn NEWLINE).take count).flatMap (· ++ [NEWLINE]) := by
  cases count with
  | zero => simp [headApplication]
  | succ count => simp [headApplication]

theorem headFiles_eq {counts : HeadCounts} {paths : List Str}
    (reads : List.Forall₂ (fun path text => contents place path = .ok text) paths texts) :
    paths.mapM (headFile place counts) =
      .ok (texts.map fun text => .stdout (headApplication counts text)) := by
  induction reads with
  | nil => rfl
  | cons read _ induction =>
      rw [List.mapM_cons, induction, headFile, read]
      rfl

theorem head_eq (files : List.Forall₂ (Holds place) operands texts) {inputData : Bytes}
    (either : operands = [] ∨ inputData = []) (number : Nat) :
    head place (arguments number operands) inputData =
      if number < 10 ^ Decimal.MAX_STR_DIGITS then
        .ok (prints (headApplication { linecount := number }) (sources operands texts inputData))
      else .error .valueError := by
  have opened : ¬ (arguments number operands = [] ∨
      (arguments number operands).head? = some ">".toList) := by
    simp [arguments]
  rw [head, if_neg opened, getopt_arguments rfl (plain_operands files), sources_eq files either]
  simp only [headOptions, headOption, count?_decimal]
  by_cases small : number < 10 ^ Decimal.MAX_STR_DIGITS
  · rw [if_pos small, if_pos small]
    by_cases files_ : inputData = []
    · rcases checkArguments_files "head".toList files with ⟨paths, checked, reads⟩
      simp only [bind, Except.bind, if_pos files_, checked, headFiles_eq reads]
      simp [prints]
    · simp only [bind, Except.bind, if_neg files_]
      simp [prints]
  · rw [if_neg small, if_neg small]
    rfl

/-! ## tail on a text -/

theorem pieceAt_of_lt {pieces : List Bytes} {index : Nat} (inside : index < pieces.length) :
    pieceAt pieces index = .ok pieces[index] := by
  have start : ¬ (index : Int) < 0 := by omega
  simp only [pieceAt, if_neg start, Int.toNat_natCast, List.getElem?_eq_getElem inside]

theorem tailLoop_eq {pieces : List Bytes} {n steps i index : Nat} {first : Int}
    (start : first + i = index) (toEnd : index + steps = pieces.length) (left : i + steps = n + 1)
    (some_ : 0 < steps) :
    tailLoop pieces n first steps i = .ok ([NEWLINE].intercalate (pieces.drop index)) := by
  induction steps generalizing i index with
  | zero => omega
  | succ steps induction =>
      have inside : index < pieces.length := by omega
      rw [tailLoop, start, pieceAt_of_lt inside, List.drop_eq_getElem_cons inside]
      cases steps with
      | zero =>
          have none_ : pieces.drop (index + 1) = [] := List.drop_eq_nil_of_le (by omega)
          rw [none_, if_neg (by omega)]
          simp [tailLoop, bind, Except.bind]
      | succ steps =>
          have more : pieces.drop (index + 1) ≠ [] := by
            rw [Ne, List.drop_eq_nil_iff]
            omega
          have next : first + (i + 1 : Nat) = (index + 1 : Nat) := by omega
          rw [induction next (by omega) (by omega) (by omega),
            if_pos (by omega), List.intercalate_cons_of_ne_nil more]
          simp [bind, Except.bind]

def countAfter (n : Nat) (text : Bytes) : Nat :=
  if text.count NEWLINE + 1 < n then text.count NEWLINE else n

theorem tailLoop_range {n : Nat} {text : Bytes} (few : n ≤ text.count NEWLINE) :
    tailLoop (text.splitOn NEWLINE) n ((text.splitOn NEWLINE).length - n - 1)
        ((text.splitOn NEWLINE).length - ((text.splitOn NEWLINE).length - n - 1) : Int).toNat 0 =
      .ok (afterLines NEWLINE (text.count NEWLINE - n) text) := by
  have length := @TextLines.length_splitOn _ _ NEWLINE text
  have start : ((text.splitOn NEWLINE).length - n - 1 : Int) + (0 : Nat) =
      (text.count NEWLINE - n : Nat) := by omega
  rw [tailLoop_eq start (by omega) (by omega) (by omega),
    TextLines.intercalate_drop (by omega)]

theorem tailLoop_wrapped (text : Bytes) :
    tailLoop (text.splitOn NEWLINE) (text.count NEWLINE + 1) (-1) (text.count NEWLINE + 2) 0 =
      .ok ((text.splitOn NEWLINE).getLastD [] ++ NEWLINE :: text) := by
  have length := @TextLines.length_splitOn _ _ NEWLINE text
  have last : pieceAt (text.splitOn NEWLINE) (-1 + (0 : Nat)) =
      .ok ((text.splitOn NEWLINE).getLastD []) := by
    have fromEnd : (-1 + (0 : Nat) : Int) + (text.splitOn NEWLINE).length =
        ((text.splitOn NEWLINE).length - 1 : Nat) := by omega
    have inside : (text.splitOn NEWLINE).length - 1 < (text.splitOn NEWLINE).length := by omega
    rw [List.getLastD_eq_getLast?, List.getLast?_eq_getElem?,
      List.getElem?_eq_getElem inside, Option.getD_some, ← pieceAt_of_lt inside, pieceAt, fromEnd,
      pieceAt]
    rfl
  have start : (-1 : Int) + (0 + 1 : Nat) = (0 : Nat) := rfl
  rw [tailLoop, last, tailLoop_eq start (by omega) (by omega) (by omega)]
  simp [bind, Except.bind]

def tailText (n : Nat) (text : Bytes) : Bytes :=
  if n = text.count NEWLINE + 1 then (text.splitOn NEWLINE).getLastD [] ++ NEWLINE :: text
  else afterLines NEWLINE (text.count NEWLINE - n) text

theorem tailApplication_eq (n : Nat) (text : Bytes) :
    tailApplication n text =
      .ok (countAfter n text, tailText n text) := by
  have length := @TextLines.length_splitOn _ _ NEWLINE text
  rcases Nat.lt_trichotomy n (text.count NEWLINE + 1) with few | same | many
  · rw [tailText, if_neg (by omega), countAfter, if_neg (by omega), tailApplication, length]
    simp only [if_neg (show ¬ text.count NEWLINE + 1 < n by omega)]
    rw [← length, tailLoop_range (by omega)]
    rfl
  · subst same
    rw [tailText, if_pos rfl, countAfter, if_neg (Nat.lt_irrefl _), tailApplication, length]
    simp only [if_neg (Nat.lt_irrefl (text.count NEWLINE + 1))]
    have first : ((text.count NEWLINE + 1 : Nat) - (text.count NEWLINE + 1 : Nat) - 1 : Int) = -1 := by
      omega
    have steps : ((text.count NEWLINE + 1 : Nat) - (-1) : Int).toNat = text.count NEWLINE + 2 := by
      omega
    rw [first, steps, tailLoop_wrapped]
    rfl
  · rw [tailText, if_neg (by omega), countAfter, if_pos many, tailApplication, length]
    simp only [if_pos many, Nat.add_sub_cancel]
    rw [← length, tailLoop_range (Nat.le_refl _)]
    have all : text.count NEWLINE - n = text.count NEWLINE - text.count NEWLINE := by omega
    rw [all]
    rfl

def tailTexts : Nat → List Bytes → List Bytes
  | _, [] => []
  | n, text :: later => tailText n text :: tailTexts (countAfter n text) later

theorem tailFiles_eq {n : Nat} {paths : List Str}
    (reads : List.Forall₂ (fun path text => contents place path = .ok text) paths texts) :
    tailFiles place n paths = (tailTexts n texts).map .stdout := by
  induction reads generalizing n with
  | nil => rfl
  | cons read _ induction =>
      rw [tailFiles, tailFile, read, Except.bind, tailApplication_eq]
      simp only [induction]
      rfl

theorem tail_eq (files : List.Forall₂ (Holds place) operands texts) {inputData : Bytes}
    (either : operands = [] ∨ inputData = []) (number : Nat) :
    tail place (arguments number operands) inputData =
      if number < 10 ^ Decimal.MAX_STR_DIGITS then
        .ok { writes := (tailTexts number (sources operands texts inputData)).map .stdout }
      else .error .valueError := by
  have opened : ¬ (arguments number operands = [] ∨
      (arguments number operands).head? = some ">".toList) := by
    simp [arguments]
  rw [tail, if_neg opened, getopt_arguments rfl (plain_operands files), sources_eq files either]
  simp only [tailOptions, tailOption, count?_decimal]
  by_cases small : number < 10 ^ Decimal.MAX_STR_DIGITS
  · rw [if_pos small, if_pos small]
    by_cases files_ : inputData = []
    · rcases checkArguments_files "tail".toList files with ⟨paths, checked, reads⟩
      simp only [bind, Except.bind, if_pos files_, checked, tailFiles_eq reads]
      simp
    · simp only [bind, Except.bind, if_neg files_, tailApplication_eq]
      simp [tailTexts]
  · rw [if_neg small, if_neg small]
    rfl

/-! ## When the lines are printed -/

/-- The count differs from the number of pieces and leaves out as many lines as there are
besides the wanted ones, for each text with the count that the texts before it left. -/
def TailFits (wanted : Nat) : Nat → List Bytes → Prop
  | _, [] => True
  | n, text :: later =>
      (n ≠ text.count NEWLINE + 1 ∧
        text.count NEWLINE - n = (lines NEWLINE text).length - wanted) ∧
      TailFits wanted (countAfter n text) later

theorem tailText_eq_iff (wanted n : Nat) (text : Bytes) :
    tailText n text = lastLines NEWLINE wanted text ↔
      n ≠ text.count NEWLINE + 1 ∧
        text.count NEWLINE - n = (lines NEWLINE text).length - wanted := by
  have length := @TextLines.length_lines _ _ NEWLINE text
  rw [tailText, lastLines]
  by_cases wraps : n = text.count NEWLINE + 1
  · rw [if_pos wraps]
    constructor
    · intro equal
      have lengths := congrArg List.length equal
      have short := @TextLines.length_afterLines_le _ _ NEWLINE
        ((lines NEWLINE text).length - wanted) text
      rw [List.length_append, List.length_cons] at lengths
      omega
    · exact fun fits => absurd wraps fits.1
  · rw [if_neg wraps, TextLines.afterLines_eq_iff, Nat.min_eq_left (by omega),
      Nat.min_eq_left (by omega)]
    exact (and_iff_right wraps).symm

theorem tailTexts_eq_iff (wanted n : Nat) (texts : List Bytes) :
    tailTexts n texts = texts.map (lastLines NEWLINE wanted) ↔ TailFits wanted n texts := by
  induction texts generalizing n with
  | nil => exact iff_of_true rfl trivial
  | cons text later induction =>
      rw [tailTexts, List.map_cons, List.cons.injEq, tailText_eq_iff, induction, TailFits]

/-- Files or piped input are cut at the right lines, by `head` where no text has fewer newlines
than the count, by `tail` where the count fits. -/
theorem head_tail_iff (files : List.Forall₂ (Holds place) operands texts) (inputData : Bytes)
    (either : operands = [] ∨ inputData = []) (number : Nat) :
    (head place (arguments number operands) inputData =
          .ok (prints (firstLines NEWLINE number) (sources operands texts inputData)) ↔
        number < 10 ^ Decimal.MAX_STR_DIGITS ∧
          ∀ text ∈ sources operands texts inputData, number ≤ text.count NEWLINE) ∧
      (tail place (arguments number operands) inputData =
          .ok (prints (lastLines NEWLINE number) (sources operands texts inputData)) ↔
        number < 10 ^ Decimal.MAX_STR_DIGITS ∧
          TailFits number number (sources operands texts inputData)) := by
  rw [head_eq files either, tail_eq files either]
  by_cases small : number < 10 ^ Decimal.MAX_STR_DIGITS
  · rw [if_pos small, if_pos small, and_iff_right small, and_iff_right small, ← tailTexts_eq_iff]
    constructor
    · simp [prints, headApplication_lines, TextLines.flatMap_take_iff]
    · have written : prints (lastLines NEWLINE number) (sources operands texts inputData) =
          { writes := ((sources operands texts inputData).map
              (lastLines NEWLINE number)).map .stdout } := by
        rw [prints, List.map_map]
        rfl
      rw [written, Except.ok.injEq, Ended.mk.injEq, and_iff_left rfl]
      exact (List.map_injective_iff.mpr fun _ _ => Write.stdout.inj).eq_iff
  · simp [small]

/-! ## Two files -/

def holding (a b : Bytes) : Place where
  tree :=
    { heap :=
        { read := fun reference =>
            match reference with
            | 0 => { name := "/".toList, type := .dir, contents := .list [1, 2] }
            | 1 => { name := "a".toList, type := .file, contents := .bytes a }
            | _ => { name := "b".toList, type := .file, contents := .bytes b }
          next := 3 }
      fs := 0
      home := "/root".toList }
  limit := 3
  host := { readBytes := fun _ => none, archData := [] }
  cwd := "/".toList

theorem holds_holding (a b : Bytes) :
    List.Forall₂ (Holds (holding a b)) ["a".toList, "b".toList] [a, b] := by
  have first : Holds (holding a b) "a".toList a :=
    ⟨by decide, "/a".toList, rfl, rfl, rfl⟩
  have second : Holds (holding a b) "b".toList b :=
    ⟨by decide, "/b".toList, rfl, rfl, rfl⟩
  exact .cons first (.cons second .nil)

theorem head_tail_one :
    head (holding [49, 10] [50, 10, 51, 10]) (arguments 1 ["a".toList, "b".toList]) [] =
        .ok { writes := [.stdout [49, 10], .stdout [50, 10]] } ∧
      tail (holding [49, 10] [50, 10, 51, 10]) (arguments 1 ["a".toList, "b".toList]) [] =
        .ok { writes := [.stdout [49, 10], .stdout [51, 10]] } := by
  have cut := head_tail_iff (holds_holding [49, 10] [50, 10, 51, 10]) [] (.inr rfl) 1
  have small : 1 < 10 ^ Decimal.MAX_STR_DIGITS := Nat.one_lt_pow (by decide) (by decide)
  have fits : TailFits 1 1 [[49, 10], [50, 10, 51, 10]] :=
    ⟨⟨by decide, by decide⟩, ⟨by decide, by decide⟩, trivial⟩
  exact ⟨cut.1.mpr ⟨small, by decide⟩, cut.2.mpr ⟨small, fits⟩⟩

/-- `head -n 2` ends a line that has no newline, and `tail -n 2` of one line begins with an
empty one. -/
theorem head_tail_differ :
    head (holding [49] []) (arguments 2 ["a".toList]) [] =
        .ok { writes := [.stdout [49, 10]] } ∧
      firstLines NEWLINE 2 [49] = [49] ∧
      tail (holding [49, 10] []) (arguments 2 ["a".toList]) [] =
        .ok { writes := [.stdout [10, 49, 10]] } ∧
      lastLines NEWLINE 2 [49, 10] = [49, 10] := by
  refine ⟨by rfl, by decide, by rfl, by decide⟩

end HeadTail

end LlmHoneypot
