import LlmHoneypot.Foundation.Text

/-! # File modes

The twelve bits of a file's mode and the changes to them that `chmod` of GNU coreutils
takes: a number, or clauses of symbols that are applied from left to right. -/

namespace LlmHoneypot

namespace FileModes

abbrev ModeBits := BitVec 12

def S_ISUID : ModeBits := 0o4000
def S_ISGID : ModeBits := 0o2000
def S_ISVTX : ModeBits := 0o1000
def S_IRWXU : ModeBits := 0o700
def S_IRWXG : ModeBits := 0o070
def S_IRWXO : ModeBits := 0o007
def CHMOD_MODE_BITS : ModeBits := 0o7777

def READ : ModeBits := 0o444
def WRITE : ModeBits := 0o222
def EXECUTE : ModeBits := 0o111

inductive Operator
  | add
  | remove
  | assign
  deriving DecidableEq, Repr

inductive Flag
  | ordinary
  | copyExisting
  | executeIfAny
  deriving DecidableEq, Repr

/-- One change of a mode; `affected` is empty where no class was named. -/
structure Change where
  op : Operator
  flag : Flag
  affected : ModeBits
  value : ModeBits
  /-- The bits that the text names; others of a directory may be left alone. -/
  mentioned : ModeBits
  deriving DecidableEq, Repr

/-! ## Applying changes -/

def spread (bits letter : ModeBits) : ModeBits := if bits &&& letter ≠ 0 then letter else 0

def Change.valueFor (isDir : Bool) (bits : ModeBits) (change : Change) : ModeBits :=
  match change.flag with
  | .ordinary => change.value
  | .copyExisting =>
      let value := change.value &&& bits
      value ||| spread value READ ||| spread value WRITE ||| spread value EXECUTE
  | .executeIfAny =>
      if bits &&& EXECUTE ≠ 0 ∨ isDir then change.value ||| EXECUTE else change.value

def Change.apply (isDir : Bool) (umask bits : ModeBits) (change : Change) : ModeBits :=
  let omitted := if isDir then (S_ISUID ||| S_ISGID) &&& ~~~change.mentioned else 0
  let limit := if change.affected ≠ 0 then change.affected else ~~~umask
  let value := change.valueFor isDir bits &&& limit &&& ~~~omitted
  match change.op with
  | .add => bits ||| value
  | .remove => bits &&& ~~~value
  | .assign =>
      let preserved := (if change.affected ≠ 0 then ~~~change.affected else 0) ||| omitted
      bits &&& preserved ||| value

def adjust (isDir : Bool) (umask bits : ModeBits) (changes : List Change) : ModeBits :=
  changes.foldl (Change.apply isDir umask) bits

/-! ## Reading changes -/

def isOctalDigit (ch : Char) : Bool := "01234567".toList.contains ch

def octalValue (digits : Str) : Nat :=
  digits.foldl (fun value ch => 8 * value + (ch.toNat - '0'.toNat)) 0

def isOctal (text : Str) : Bool := text ≠ [] && text.all isOctalDigit

def operatorOf : Char → Option Operator
  | '+' => some .add
  | '-' => some .remove
  | '=' => some .assign
  | _ => none

def groups (text : Str) : Str × List (Operator × Str) :=
  text.foldr (fun ch read =>
    match operatorOf ch with
    | some op => ([], (op, read.1) :: read.2)
    | none => (ch :: read.1, read.2)) ([], [])

def isWho (ch : Char) : Bool := "ugoa".toList.contains ch

def whoBits : Char → ModeBits
  | 'u' => S_ISUID ||| S_IRWXU
  | 'g' => S_ISGID ||| S_IRWXG
  | 'o' => S_ISVTX ||| S_IRWXO
  | _ => CHMOD_MODE_BITS

def affectedBits (who : Str) : ModeBits := who.foldl (fun bits ch => bits ||| whoBits ch) 0

def isPermission (ch : Char) : Bool := "rwxXst".toList.contains ch

def permissionBits : Char → ModeBits
  | 'r' => READ
  | 'w' => WRITE
  | 'x' => EXECUTE
  | 's' => S_ISUID ||| S_ISGID
  | 't' => S_ISVTX
  | _ => 0

def lettersChange (op : Operator) (affected : ModeBits) (letters : Str) : Change :=
  let value := letters.foldl (fun bits ch => bits ||| permissionBits ch) 0
  { op, affected, value
    flag := if 'X' ∈ letters then .executeIfAny else .ordinary
    mentioned := if affected ≠ 0 then affected &&& value else value }

def copyChange (op : Operator) (affected value : ModeBits) : Change :=
  { op, affected, value
    flag := .copyExisting
    mentioned := if affected ≠ 0 then affected &&& value else value }

def numberChange (op : Operator) (value : Nat) : Change :=
  { op, flag := .ordinary, affected := CHMOD_MODE_BITS, value := BitVec.ofNat 12 value
    mentioned := CHMOD_MODE_BITS }

/-- The change of an operator and the text behind it; a number stands alone and last. -/
def readChange (affected : ModeBits) (last : Bool) (op : Operator) (text : Str) : Option Change :=
  if isOctal text then
    if affected = 0 ∧ last ∧ octalValue text < 4096 then some (numberChange op (octalValue text))
    else none
  else if text = "u".toList then some (copyChange op affected S_IRWXU)
  else if text = "g".toList then some (copyChange op affected S_IRWXG)
  else if text = "o".toList then some (copyChange op affected S_IRWXO)
  else if text.all isPermission then some (lettersChange op affected text)
  else none

def readChanges (affected : ModeBits) : List (Operator × Str) → Option (List Change)
  | [] => some []
  | (op, text) :: later => do
      let change ← readChange affected later.isEmpty op text
      (readChanges affected later).map (change :: ·)

def readClause (text : Str) : Option (List Change) :=
  let (who, actions) := groups text
  if who.all isWho ∧ actions ≠ [] then readChanges (affectedBits who) actions else none

/-- The change that a number makes; the bits of a directory that it may leave alone are
mentioned by five digits. -/
def wholeChange (text : Str) : Change :=
  let value := BitVec.ofNat 12 (octalValue text)
  { numberChange .assign (octalValue text) with
    mentioned :=
      if text.length < 5 then
        value &&& (S_ISUID ||| S_ISGID) ||| S_ISVTX ||| S_IRWXU ||| S_IRWXG ||| S_IRWXO
      else CHMOD_MODE_BITS }

/-- The changes that a text stands for, `none` for an invalid mode. -/
def compile (text : Str) : Option (List Change) :=
  if (text.head?.map isOctalDigit).getD false then
    if isOctal text ∧ octalValue text < 4096 then some [wholeChange text] else none
  else ((Text.splitChar ',' text).mapM readClause).map List.flatten

def chmod (isDir : Bool) (umask : ModeBits) (text : Str) (mode : Nat) : Nat :=
  match compile text with
  | none => mode
  | some changes => 4096 * (mode / 4096) + (adjust isDir umask (BitVec.ofNat 12 mode) changes).toNat

/-! ## Numbers -/

theorem isOctalDigit_cases {ch : Char} (digit : isOctalDigit ch = true) :
    operatorOf ch = none ∧ ch ≠ ',' := by
  have digits : "01234567".toList = ['0', '1', '2', '3', '4', '5', '6', '7'] := rfl
  have member := List.contains_iff_mem.mp digit
  rw [digits] at member
  simp only [List.mem_cons, List.not_mem_nil, or_false] at member
  rcases member with same | same | same | same | same | same | same | same <;> rw [same] <;> decide

theorem groups_digits {digits : Str} (all : digits.all isOctalDigit = true) :
    groups digits = (digits, []) := by
  induction digits with
  | nil => rfl
  | cons ch digits induction =>
      rw [List.all_cons, Bool.and_eq_true] at all
      have plain := (isOctalDigit_cases all.1).1
      have later := induction all.2
      rw [groups] at later ⊢
      rw [List.foldr_cons, later]
      simp only [plain]

theorem isOctal_all {digits : Str} (octal : isOctal digits = true) :
    digits.all isOctalDigit = true := by
  rw [isOctal, Bool.and_eq_true] at octal
  exact octal.2

theorem compile_signed {ch : Char} {op : Operator} (isOperator : operatorOf ch = some op)
    {digits : Str} (octal : isOctal digits = true) :
    compile (ch :: digits) =
      if octalValue digits < 4096 then some [numberChange op (octalValue digits)] else none := by
  have all := isOctal_all octal
  have noDigit : isOctalDigit ch = false := by
    cases digit : isOctalDigit ch with
    | false => rfl
    | true =>
        rw [(isOctalDigit_cases digit).1] at isOperator
        cases isOperator
  have noComma : ',' ∉ ch :: digits := by
    intro member
    rcases List.mem_cons.mp member with same | member
    · rw [← same] at isOperator
      cases isOperator
    · exact (isOctalDigit_cases (List.all_eq_true.mp all ',' member)).2 rfl
  have grouped : groups (ch :: digits) = ([], [(op, digits)]) := by
    have later := groups_digits all
    rw [groups] at later ⊢
    rw [List.foldr_cons, later]
    simp only [isOperator]
  have clause : readClause (ch :: digits) =
      if octalValue digits < 4096 then some [numberChange op (octalValue digits)] else none := by
    rw [readClause, grouped]
    by_cases small : octalValue digits < 4096
    · simp [readChanges, readChange, octal, affectedBits, small]
    · simp [readChanges, readChange, octal, small]
  rw [compile, List.head?_cons, Option.map_some, Option.getD_some, noDigit, if_neg Bool.false_ne_true,
    Text.splitChar_free noComma]
  rw [List.mapM_cons, clause]
  split <;> simp

theorem compile_number {digits : Str} (octal : isOctal digits = true) :
    compile digits = if octalValue digits < 4096 then some [wholeChange digits] else none := by
  have all := isOctal_all octal
  cases digits with
  | nil => cases octal
  | cons ch digits =>
      rw [List.all_cons, Bool.and_eq_true] at all
      simp [compile, all.1, octal]

theorem chmod_div (isDir : Bool) (umask : ModeBits) (text : Str) (mode : Nat) :
    chmod isDir umask text mode / 4096 = mode / 4096 := by
  rw [chmod]
  split
  · rfl
  · rename_i changes _
    have bound := (adjust isDir umask (BitVec.ofNat 12 mode) changes).isLt
    omega

end FileModes

end LlmHoneypot
