import LlmHoneypot.Foundation.Utf8

/-! # The echo builtin

bash's `echo`: the options that lead, the words joined by blanks, and the escapes that `-e`
asks for. -/

namespace LlmHoneypot

namespace EchoBuiltin

open Utf8

/-! ## Escapes -/

def isHexDigit (ch : Char) : Bool :=
  ('0' ≤ ch && ch ≤ '9') || ('a' ≤ ch && ch ≤ 'f') || ('A' ≤ ch && ch ≤ 'F')

def isOctalDigit (ch : Char) : Bool := '0' ≤ ch && ch ≤ '7'

def digitValue (ch : Char) : Nat :=
  if ch ≤ '9' then ch.toNat - 48
  else if ch ≤ 'F' then ch.toNat - 55
  else ch.toNat - 87

def numeral (base : Nat) (digits : Str) : Nat :=
  digits.foldl (fun value digit => base * value + digitValue digit) 0

/-- What an escape does: it stands for bytes and takes some of the characters behind its
backslash, or it ends the output, or it is none. -/
inductive Escape where
  | prints (bytes : Bytes) (taken : Nat)
  | stop
  | other
  deriving DecidableEq, Repr

def control? (code : Char) : Option UInt8 :=
  match code with
  | 'a' => some 7
  | 'b' => some 8
  | 'e' => some 27
  | 'E' => some 27
  | 'f' => some 12
  | 'n' => some 10
  | 'r' => some 13
  | 't' => some 9
  | 'v' => some 11
  | '\\' => some 92
  | _ => none

def character (most : Nat) (rest : Str) : Escape :=
  let digits := (rest.take most).takeWhile isHexDigit
  match digits with
  | [] => .other
  | _ :: _ =>
      if (numeral 16 digits).isValidChar then
        .prints (encode [Char.ofNat (numeral 16 digits)]) (digits.length + 1)
      else .other

def escape : Str → Escape
  | [] => .other
  | code :: rest =>
      match control? code with
      | some byte => .prints [byte] 1
      | none =>
          match code with
          | 'c' => .stop
          | '0' =>
              let digits := (rest.take 3).takeWhile isOctalDigit
              .prints [UInt8.ofNat (numeral 8 digits)] (digits.length + 1)
          | 'x' =>
              let digits := (rest.take 2).takeWhile isHexDigit
              match digits with
              | [] => .other
              | _ :: _ => .prints [UInt8.ofNat (numeral 16 digits)] (digits.length + 1)
          | 'u' => character 4 rest
          | 'U' => character 8 rest
          | _ => .other

theorem escape_control {code : Char} {byte : UInt8} (isControl : control? code = some byte)
    (rest : Str) : escape (code :: rest) = .prints [byte] 1 := by
  rw [escape.eq_def]
  simp only [isControl]

theorem escape_octal (rest : Str) :
    escape ('0' :: rest) =
      .prints [UInt8.ofNat (numeral 8 ((rest.take 3).takeWhile isOctalDigit))]
        (((rest.take 3).takeWhile isOctalDigit).length + 1) := rfl

theorem escape_hex {rest digits : Str} (taken : (rest.take 2).takeWhile isHexDigit = digits)
    (started : digits ≠ []) :
    escape ('x' :: rest) = .prints [UInt8.ofNat (numeral 16 digits)] (digits.length + 1) := by
  rw [escape.eq_def]
  simp only [show control? 'x' = none from rfl, taken]
  cases digits with
  | nil => exact absurd rfl started
  | cons digit digits => rfl

structure Printed where
  bytes : Bytes
  stopped : Bool
  deriving DecidableEq, Repr

def Printed.after (bytes : Bytes) (printed : Printed) : Printed :=
  { printed with bytes := bytes ++ printed.bytes }

def interpretFrom : (skipped : Nat) → Str → Printed
  | _, [] => ⟨[], false⟩
  | skipped + 1, _ :: rest => interpretFrom skipped rest
  | 0, ch :: rest =>
      if ch ≠ '\\' then (interpretFrom 0 rest).after (encode [ch])
      else
        match escape rest with
        | .prints bytes taken => (interpretFrom taken rest).after bytes
        | .stop => ⟨[], true⟩
        | .other => (interpretFrom 0 rest).after [92]

def interpret (text : Str) : Printed := interpretFrom 0 text

theorem interpretFrom_skip (skipped rest : Str) :
    interpretFrom skipped.length (skipped ++ rest) = interpret rest := by
  induction skipped with
  | nil => rfl
  | cons ch skipped induction => exact induction

theorem interpret_plain {ch : Char} (plain : ch ≠ '\\') (rest : Str) :
    interpret (ch :: rest) = (interpret rest).after (encode [ch]) := by
  rw [interpret, interpretFrom, if_pos plain]
  rfl

theorem interpret_escape {taken rest : Str} {bytes : Bytes}
    (isEscape : escape (taken ++ rest) = .prints bytes taken.length) :
    interpret ('\\' :: (taken ++ rest)) = (interpret rest).after bytes := by
  rw [interpret, interpretFrom, if_neg (not_not_intro rfl)]
  simp only [isEscape, interpretFrom_skip]

/-! ## The command -/

def isOption (word : Str) : Bool :=
  word.head? = some '-' && word.tail ≠ [] && word.tail.all "neE".toList.contains

/-- The words that lead and are options, and the others. -/
def options (args : List Str) : List Str := args.takeWhile isOption

def operands (args : List Str) : List Str := args.dropWhile isOption

def letters (args : List Str) : Str := (options args).flatMap List.tail

def newline (args : List Str) : Bool := !(letters args).contains 'n'

def escapes (args : List Str) : Bool := ((letters args).filter (· ≠ 'n')).getLast? = some 'e'

def text (args : List Str) : Str := Text.join " ".toList (operands args)

def echo (args : List Str) : Bytes :=
  let newline := if newline args then [10] else []
  if escapes args then
    let printed := interpret (text args)
    printed.bytes ++ if printed.stopped then [] else newline
  else encode (text args) ++ newline

end EchoBuiltin

end LlmHoneypot
