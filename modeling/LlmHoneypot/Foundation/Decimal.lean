import LlmHoneypot.Foundation.Utf8Codec

/-! # Decimal numbers

`str` and `int` of a natural number, and decimal digits as bytes. -/

namespace LlmHoneypot

namespace Decimal

/-- More digits than these are not converted. -/
def MAX_STR_DIGITS : Nat := 4300

def int (digits : Str) : Except Str Nat :=
  if MAX_STR_DIGITS < digits.length then
    .error ("Exceeds the limit (4300 digits) for integer string conversion: value has ".toList ++
      Text.decimal digits.length ++
      " digits; use sys.set_int_max_str_digits() to increase the limit".toList)
  else .ok (Nat.ofDigitChars 10 digits 0)

def ascii (bytes : Bytes) : Str := bytes.map fun byte => Char.ofNat byte.toNat

def isDigit (byte : UInt8) : Bool := 48 ≤ byte && byte ≤ 57

theorem decimal_eq_toDigits (number : Nat) : Text.decimal number = Nat.toDigits 10 number := by
  rw [Text.decimal, Nat.toString_eq_repr, Nat.toList_repr]

theorem decimal_ne_nil (number : Nat) : Text.decimal number ≠ [] := by
  rw [decimal_eq_toDigits]
  exact Nat.toDigits_ne_nil

theorem int_decimal {number : Nat} (small : number < 10 ^ 19) :
    int (Text.decimal number) = .ok number := by
  have short : (Nat.toDigits 10 number).length ≤ 19 :=
    (Nat.length_toDigits_le_iff (by decide) (by decide)).mpr small
  rw [int, decimal_eq_toDigits, if_neg (by unfold MAX_STR_DIGITS; omega),
    Nat.ofDigitChars_ten_toDigits]

theorem encode_ascii {text : Str} (isAscii : ∀ ch ∈ text, ch.toNat < 0x80) :
    Utf8.encode text = text.map fun ch => UInt8.ofNat ch.toNat := by
  induction text with
  | nil => rfl
  | cons ch rest induction =>
      have small := isAscii ch (List.mem_cons_self ..)
      have bytes : String.utf8EncodeChar ch = [UInt8.ofNat ch.toNat] := by
        rcases Utf8.encodeChar_cases ch with ⟨_, bytes⟩ | ⟨least, _⟩ | ⟨least, _⟩ | ⟨least, _⟩
        · exact bytes
        · omega
        · omega
        · omega
      have later := induction fun other member => isAscii other (List.mem_cons_of_mem _ member)
      rw [Utf8.encode] at later
      rw [Utf8.encode, List.flatMap_cons, bytes, later]
      rfl

theorem ascii_encode {text : Str} (isAscii : ∀ ch ∈ text, ch.toNat < 0x80) :
    ascii (Utf8.encode text) = text := by
  rw [encode_ascii isAscii, ascii, List.map_map]
  have same : ∀ ch ∈ text, ((fun byte : UInt8 => Char.ofNat byte.toNat) ∘
      fun ch : Char => UInt8.ofNat ch.toNat) ch = ch := by
    intro ch member
    have small := isAscii ch member
    rw [Function.comp_apply, Utf8.toNat_byte (by omega), Char.ofNat_toNat]
  rw [List.map_congr_left same, List.map_id']

theorem decimal_isDigit {number : Nat} {ch : Char} (member : ch ∈ Text.decimal number) :
    48 ≤ ch.toNat ∧ ch.toNat ≤ 57 := by
  rw [decimal_eq_toDigits] at member
  have digit := Nat.isDigit_of_mem_toDigits (by decide) (by decide) member
  simpa [Char.isDigit, UInt32.le_iff_toNat_le] using digit

theorem decimal_ascii (number : Nat) : ∀ ch ∈ Text.decimal number, ch.toNat < 0x80 := by
  intro ch member
  have digit := decimal_isDigit member
  omega

theorem isDigit_encode_decimal {number : Nat} {byte : UInt8}
    (member : byte ∈ Utf8.encode (Text.decimal number)) : isDigit byte = true := by
  rw [encode_ascii (decimal_ascii number)] at member
  rcases List.mem_map.mp member with ⟨ch, isDigit_, rfl⟩
  have digit := decimal_isDigit isDigit_
  simp only [isDigit, Bool.and_eq_true, decide_eq_true_eq, UInt8.le_iff_toNat_le,
    Utf8.toNat_byte (show ch.toNat < 256 by omega), UInt8.reduceToNat]
  exact digit

end Decimal

end LlmHoneypot
