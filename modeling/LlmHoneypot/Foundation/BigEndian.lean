import LlmHoneypot.Foundation.Utf8

/-! # Big-endian numbers

Unsigned numbers as bytes, the most significant byte first. -/

namespace LlmHoneypot

namespace BigEndian

/-- `int.from_bytes(bytes, byteorder="big")`. -/
def decode (bytes : Bytes) : Nat := bytes.foldl (fun number byte => number * 256 + byte.toNat) 0

/-- The last `width` digits of a number to the base 256. -/
def encode : (width number : Nat) → Bytes
  | 0, _ => []
  | width + 1, number => encode width (number / 256) ++ [UInt8.ofNat number]

@[simp] theorem length_encode (width number : Nat) : (encode width number).length = width := by
  induction width generalizing number with
  | zero => rfl
  | succ width induction =>
      rw [encode, List.length_append, induction]
      rfl

@[simp] theorem decode_nil : decode [] = 0 := rfl

theorem decode_append_singleton (bytes : Bytes) (byte : UInt8) :
    decode (bytes ++ [byte]) = decode bytes * 256 + byte.toNat := by
  simp [decode]

theorem decode_encode_mod (width number : Nat) :
    decode (encode width number) = number % 256 ^ width := by
  induction width generalizing number with
  | zero => rw [encode, decode_nil, Nat.pow_zero, Nat.mod_one]
  | succ width induction =>
      have split : number % 256 ^ (width + 1) =
          number % 256 + 256 * (number / 256 % 256 ^ width) := by
        rw [Nat.pow_succ', Nat.mod_mul]
      rw [encode, decode_append_singleton, induction, UInt8.toNat_ofNat', split]
      omega

theorem decode_encode {width number : Nat} (fits : number < 256 ^ width) :
    decode (encode width number) = number := by
  rw [decode_encode_mod, Nat.mod_eq_of_lt fits]

theorem take_encode (first rest number : Nat) :
    (encode (first + rest) number).take first = encode first (number / 256 ^ rest) := by
  induction rest generalizing number with
  | zero =>
      rw [Nat.pow_zero, Nat.div_one]
      exact List.take_of_length_le (by simp)
  | succ rest induction =>
      rw [← Nat.add_assoc, encode, List.take_append_of_le_length (by simp), induction,
        Nat.div_div_eq_div_mul, Nat.pow_succ']

end BigEndian

end LlmHoneypot
