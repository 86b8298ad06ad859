import LlmHoneypot.Foundation.BigEndian

/-! # Little-endian numbers

Numbers as bytes, the least significant byte first, as `struct` packs them after `<`. -/

namespace LlmHoneypot

namespace LittleEndian

def decode (bytes : Bytes) : Nat := BigEndian.decode bytes.reverse

def encode (width number : Nat) : Bytes := (BigEndian.encode width number).reverse

@[simp] theorem length_encode (width number : Nat) : (encode width number).length = width := by
  rw [encode, List.length_reverse, BigEndian.length_encode]

theorem decode_encode {width number : Nat} (fits : number < 256 ^ width) :
    decode (encode width number) = number := by
  rw [decode, encode, List.reverse_reverse, BigEndian.decode_encode fits]

def signed (width number : Nat) : Int :=
  if 2 * number < 256 ^ width then number else (number : Int) - 256 ^ width

theorem signed_of_lt {width number : Nat} (small : 2 * number < 256 ^ width) :
    signed width number = number := if_pos small

end LittleEndian

end LlmHoneypot
