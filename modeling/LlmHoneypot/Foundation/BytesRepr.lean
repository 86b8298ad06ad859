import LlmHoneypot.Foundation.Utf8

/-! # Byte strings as text

Python's `str(data)` for a `bytes` object: the literal that denotes it. Different byte
strings have different literals. -/

namespace LlmHoneypot

namespace BytesRepr

def chr (byte : UInt8) : Char := Char.ofNat byte.toNat

def quote (data : Bytes) : UInt8 := if 39 ∈ data ∧ 34 ∉ data then 34 else 39

def escape (quote byte : UInt8) : Str :=
  if byte = quote ∨ byte = 92 then ['\\', chr byte]
  else if byte = 9 then ['\\', 't']
  else if byte = 10 then ['\\', 'n']
  else if byte = 13 then ['\\', 'r']
  else if byte < 32 ∨ 127 ≤ byte then
    ['\\', 'x', Nat.digitChar (byte.toNat / 16), Nat.digitChar (byte.toNat % 16)]
  else [chr byte]

def str (data : Bytes) : Str :=
  'b' :: chr (quote data) :: (data.flatMap (escape (quote data)) ++ [chr (quote data)])

/-! ## What a literal denotes -/

def hexValue (digit : Char) : Nat :=
  if digit.toNat < 58 then digit.toNat - 48 else digit.toNat - 87

def evaluate : Str → UInt8 × Str
  | '\\' :: 'x' :: high :: low :: rest =>
      (UInt8.ofNat (16 * hexValue high + hexValue low), rest)
  | '\\' :: 't' :: rest => (9, rest)
  | '\\' :: 'n' :: rest => (10, rest)
  | '\\' :: 'r' :: rest => (13, rest)
  | '\\' :: ch :: rest => (UInt8.ofNat ch.toNat, rest)
  | ch :: rest => (UInt8.ofNat ch.toNat, rest)
  | [] => (0, [])

theorem toNat_chr (byte : UInt8) : (chr byte).toNat = byte.toNat := by
  have small := byte.toNat_lt
  rw [chr, Char.ofNat, dif_pos (Or.inl (by omega))]
  rfl

theorem chr_injective {first second : UInt8} (same : chr first = chr second) : first = second := by
  apply UInt8.toNat_inj.mp
  rw [← toNat_chr first, same, toNat_chr]

theorem hexValue_digitChar {digit : Nat} (small : digit < 16) :
    hexValue (Nat.digitChar digit) = digit := by
  have all : ∀ number : Fin 16, hexValue (Nat.digitChar number) = number := by decide
  exact all ⟨digit, small⟩

theorem quote_cases (data : Bytes) : quote data = 34 ∨ quote data = 39 := by
  rw [quote]
  split
  · exact .inl rfl
  · exact .inr rfl

theorem evaluate_plain {ch : Char} (plain : ch ≠ '\\') (rest : Str) :
    evaluate (ch :: rest) = (UInt8.ofNat ch.toNat, rest) := by
  rw [evaluate.eq_def]
  split
  all_goals simp_all

theorem evaluate_escape {quote : UInt8} (isQuote : quote = 34 ∨ quote = 39) (byte : UInt8)
    (rest : Str) : evaluate (escape quote byte ++ rest) = (byte, rest) := by
  rw [escape]
  split
  · next escaped =>
    rcases escaped with rfl | rfl
    · rcases isQuote with rfl | rfl
      · rfl
      · rfl
    · rfl
  · next plain =>
    split
    · next same =>
      rw [same]
      rfl
    · split
      · next same =>
        rw [same]
        rfl
      · split
        · next same =>
          rw [same]
          rfl
        · split
          · have small := byte.toNat_lt
            change (UInt8.ofNat (16 * _ + _), rest) = _
            rw [hexValue_digitChar (by omega), hexValue_digitChar (by omega), Nat.div_add_mod,
              UInt8.ofNat_toNat]
          · have notSlash : chr byte ≠ '\\' := by
              intro same
              apply plain
              right
              exact @chr_injective byte 92 same
            rw [List.singleton_append, evaluate_plain notSlash, toNat_chr, UInt8.ofNat_toNat]

theorem escape_ne_nil (quote byte : UInt8) : escape quote byte ≠ [] := by
  rw [escape]
  repeat' split
  all_goals apply List.cons_ne_nil

theorem flatMap_escape_injective {quote : UInt8} (isQuote : quote = 34 ∨ quote = 39)
    {first second : Bytes} (same : first.flatMap (escape quote) = second.flatMap (escape quote)) :
    first = second := by
  induction first generalizing second with
  | nil =>
      cases second with
      | nil => rfl
      | cons byte bytes =>
          exact absurd (List.append_eq_nil_iff.mp same.symm).1 (escape_ne_nil quote byte)
  | cons byte bytes induction =>
      cases second with
      | nil => exact absurd (List.append_eq_nil_iff.mp same).1 (escape_ne_nil quote byte)
      | cons other others =>
          rw [List.flatMap_cons, List.flatMap_cons] at same
          have read := congrArg evaluate same
          rw [evaluate_escape isQuote, evaluate_escape isQuote, Prod.mk.injEq] at read
          rw [read.1, induction read.2]

theorem str_injective {first second : Bytes} (same : str first = str second) :
    first = second := by
  rw [str, str, List.cons_inj_right, List.cons.injEq] at same
  have quotes := chr_injective same.1
  rw [quotes] at same
  exact flatMap_escape_injective (quote_cases second) (List.append_cancel_right same.2)

end BytesRepr

end LlmHoneypot
