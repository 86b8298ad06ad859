import LlmHoneypot.Foundation.Json

/-! # Numerals

`int` of a `str`, by its code points, and of a value that JSON gives. -/

namespace LlmHoneypot

namespace Numerals

def DIGIT_ZEROS : List Nat :=
  [0x30, 0x660, 0x6F0, 0x7C0, 0x966, 0x9E6, 0xA66, 0xAE6, 0xB66, 0xBE6, 0xC66, 0xCE6, 0xD66,
    0xDE6, 0xE50, 0xED0, 0xF20, 0x1040, 0x1090, 0x17E0, 0x1810, 0x1946, 0x19D0, 0x1A80, 0x1A90,
    0x1B50, 0x1BB0, 0x1C40, 0x1C50, 0xA620, 0xA8D0, 0xA900, 0xA9D0, 0xA9F0, 0xAA50, 0xABF0,
    0xFF10, 0x104A0, 0x10D30, 0x11066, 0x110F0, 0x11136, 0x111D0, 0x112F0, 0x11450, 0x114D0,
    0x11650, 0x116C0, 0x11730, 0x118E0, 0x11950, 0x11C50, 0x11D50, 0x11DA0, 0x16A60, 0x16AC0,
    0x16B50, 0x1D7CE, 0x1D7D8, 0x1D7E2, 0x1D7EC, 0x1D7F6, 0x1E140, 0x1E2F0, 0x1E950, 0x1FBF0]

def digit? (code : Nat) : Option Nat :=
  (DIGIT_ZEROS.find? fun first => first ≤ code && code < first + 10).map (code - ·)

/-- What `int` skips before and behind a number: the C library's white space, and Unicode's
outside ASCII. -/
def isBlank (code : Nat) : Bool :=
  (9 ≤ code && code ≤ 13) || code == 32 || code == 0x85 || code == 0xA0 || code == 0x1680 ||
    (0x2000 ≤ code && code ≤ 0x200A) || code == 0x2028 || code == 0x2029 || code == 0x202F ||
    code == 0x205F || code == 0x3000

def digits? : CodePoints → Option (List Nat)
  | [] => none
  | [code] => (digit? code).map fun digit => [digit]
  | code :: 95 :: rest => (digit? code).bind fun digit => (digits? rest).map (digit :: ·)
  | code :: next :: rest => (digit? code).bind fun digit => (digits? (next :: rest)).map (digit :: ·)

def value (digits : List Nat) : Nat := digits.foldl (fun number digit => 10 * number + digit) 0

def unsigned (text : CodePoints) : Option Nat :=
  (digits? text).bind fun digits =>
    if Decimal.MAX_STR_DIGITS < digits.length then none else some (value digits)

/-- `int(text)`, `none` for its `ValueError`. -/
def int (text : CodePoints) : Option Int :=
  match (text.dropWhile isBlank).rdropWhile isBlank with
  | 43 :: rest => (unsigned rest).map Int.ofNat
  | 45 :: rest => (unsigned rest).map fun number => -Int.ofNat number
  | rest => (unsigned rest).map Int.ofNat

def isSpecialDigit (code : Nat) : Bool :=
  [(0xB2, 0xB3), (0xB9, 0xB9), (0x1369, 0x1371), (0x19DA, 0x19DA), (0x2070, 0x2070),
    (0x2074, 0x2079), (0x2080, 0x2089), (0x2460, 0x2468), (0x2474, 0x247C), (0x2488, 0x2490),
    (0x24EA, 0x24EA), (0x24F5, 0x24FD), (0x24FF, 0x24FF), (0x2776, 0x277E), (0x2780, 0x2788),
    (0x278A, 0x2792), (0x10A40, 0x10A43), (0x10E60, 0x10E68), (0x11052, 0x1105A),
    (0x1F100, 0x1F10A)].any fun range => range.1 ≤ code && code ≤ range.2

def isdigit (text : CodePoints) : Bool :=
  text ≠ [] && text.all fun code => (digit? code).isSome || isSpecialDigit code

/-- `int(value)` of a float, `none` where it is not finite. -/
def intOfFloat (value : Float) : Option Int :=
  if value.isFinite then
    let (mantissa, exponent) := value.frExp
    let scaled := (mantissa.scaleB 53).toInt64.toInt
    some
      (if 53 ≤ exponent then scaled * 2 ^ (exponent - 53).toNat
      else scaled.tdiv (2 ^ (53 - exponent).toNat))
  else none

/-- `int(value)` of what JSON gives, `none` where it raises. -/
def intOfJson : Json → Option Int
  | .bool value => some (if value then 1 else 0)
  | .int value => some value
  | .float value => intOfFloat value
  | .str text => int text
  | .null | .array _ | .object _ => none

/-! ## Decimal texts -/

theorem digit?_ascii : ∀ digit < 10, digit? (48 + digit) = some digit := by decide

def ofDigits (digits : List Nat) : CodePoints := digits.map (48 + ·)

theorem digits?_ofDigits {digits : List Nat} (some_ : digits ≠ [])
    (decimal : ∀ digit ∈ digits, digit < 10) : digits? (ofDigits digits) = some digits := by
  induction digits with
  | nil => exact absurd rfl some_
  | cons digit rest induction =>
      have first := digit?_ascii digit (decimal digit List.mem_cons_self)
      cases rest with
      | nil => simp [ofDigits, digits?, first]
      | cons next rest =>
          have later := induction (List.cons_ne_nil _ _) fun other member =>
            decimal other (List.mem_cons_of_mem _ member)
          have small := decimal next (by simp)
          have noUnderscore : 48 + next ≠ 95 := by omega
          simp only [ofDigits, List.map_cons] at later ⊢
          rw [digits?]
          · rw [first, later]
            rfl
          · exact noUnderscore

theorem decimal_codes (number : Nat) :
    ∃ digits, digits ≠ [] ∧ (∀ digit ∈ digits, digit < 10) ∧ value digits = number ∧
      (Text.decimal number).map Char.toNat = ofDigits digits := by
  rw [Decimal.decimal_eq_toDigits]
  induction number using Nat.strong_induction_on with
  | _ number induction =>
      by_cases small : number < 10
      · refine ⟨[number], List.cons_ne_nil _ _, by simpa using small, by simp [value], ?_⟩
        rw [Nat.toDigits_of_lt_base small]
        simp [ofDigits, Nat.toNat_digitChar_of_lt_ten small]
      · rcases induction (number / 10) (by omega) with ⟨digits, -, decimal, same, codes⟩
        have last : number % 10 < 10 := by omega
        refine ⟨digits ++ [number % 10], by simp, ?_, ?_, ?_⟩
        · intro digit member
          rcases List.mem_append.mp member with earlier | equal
          · exact decimal digit earlier
          · rw [List.mem_singleton.mp equal]
            exact last
        · rw [value, List.foldl_append, ← value, same]
          simp only [List.foldl_cons, List.foldl_nil]
          omega
        · have apart : 10 * (number / 10) + number % 10 = number := by omega
          rw [← apart, ← Nat.toDigits_append_toDigits (by decide) (by omega) last, apart,
            List.map_append, codes, Nat.toDigits_of_lt_base last]
          simp [ofDigits, Nat.toNat_digitChar_of_lt_ten last]

theorem isdigit_decimal (number : Nat) :
    isdigit ((Text.decimal number).map Char.toNat) = true := by
  rcases decimal_codes number with ⟨digits, some_, decimal, -, codes⟩
  have all : ∀ digit ∈ digits, (digit? (48 + digit)).isSome = true := by
    intro digit member
    rw [digit?_ascii digit (decimal digit member)]
    rfl
  simp only [codes, isdigit, ofDigits, ne_eq, List.map_eq_nil_iff, some_, not_false_eq_true,
    decide_true, Bool.true_and, List.all_map, List.all_eq_true, Function.comp_apply,
    Bool.or_eq_true]
  exact fun digit member => .inl (all digit member)

theorem int_ofDigits {digits : List Nat} (some_ : digits ≠ [])
    (decimal : ∀ digit ∈ digits, digit < 10) :
    int (ofDigits digits) =
      if Decimal.MAX_STR_DIGITS < digits.length then none else some (value digits : Int) := by
  have plain : ∀ code ∈ ofDigits digits, 48 ≤ code ∧ code < 58 := by
    intro code member
    rcases List.mem_map.mp member with ⟨digit, isDigit, equal⟩
    have small := decimal digit isDigit
    omega
  have notBlank : ∀ code ∈ ofDigits digits, ¬ isBlank code = true := by
    intro code member
    have range := plain code member
    simp [isBlank]
    omega
  have kept : ((ofDigits digits).dropWhile isBlank).rdropWhile isBlank = ofDigits digits := by
    have front : (ofDigits digits).dropWhile isBlank = ofDigits digits :=
      List.dropWhile_eq_self_iff.mpr fun some_ => notBlank _ (List.getElem_mem some_)
    rw [front]
    exact List.rdropWhile_eq_self_iff.mpr fun some_ => notBlank _ (List.getLast_mem some_)
  rw [int, kept]
  split
  · next rest equal =>
    have range := plain 43 (equal ▸ List.mem_cons_self)
    omega
  · next rest equal =>
    have range := plain 45 (equal ▸ List.mem_cons_self)
    omega
  · rw [unsigned, digits?_ofDigits some_ decimal, Option.bind_some]
    split
    · rfl
    · rfl

theorem int_decimal (number : Nat) :
    int ((Text.decimal number).map Char.toNat) =
      if number < 10 ^ Decimal.MAX_STR_DIGITS then some (number : Int) else none := by
  have length : (Text.decimal number).length ≤ Decimal.MAX_STR_DIGITS ↔
      number < 10 ^ Decimal.MAX_STR_DIGITS := by
    rw [Decimal.decimal_eq_toDigits]
    exact Nat.length_toDigits_le_iff (by decide) (by decide)
  rcases decimal_codes number with ⟨digits, some_, decimal, same, codes⟩
  have lengths := congrArg List.length codes
  simp only [ofDigits, List.length_map] at lengths
  rw [codes, int_ofDigits some_ decimal, same, ← lengths]
  simp only [← length]
  by_cases long : Decimal.MAX_STR_DIGITS < (Text.decimal number).length
  · rw [if_pos long, if_neg (by omega)]
  · rw [if_neg long, if_pos (by omega)]

end Numerals

end LlmHoneypot
