import LlmHoneypot.Foundation.Utf8

/-! # UTF-8 is read back

What `encode` writes, both decoders read. -/

namespace LlmHoneypot

namespace Utf8

theorem toNat_byte {number : Nat} (small : number < 256) : (UInt8.ofNat number).toNat = number := by
  rw [UInt8.toNat_ofNat', Nat.mod_eq_of_lt small]

theorem encodeChar_cases (ch : Char) :
    (ch.toNat < 0x80 ∧ String.utf8EncodeChar ch = [UInt8.ofNat ch.toNat]) ∨
    (0x80 ≤ ch.toNat ∧ ch.toNat < 0x800 ∧ String.utf8EncodeChar ch =
      [UInt8.ofNat (ch.toNat / 64 % 0x20 + 0xC0), UInt8.ofNat (ch.toNat % 0x40 + 0x80)]) ∨
    (0x800 ≤ ch.toNat ∧ ch.toNat < 0x10000 ∧ String.utf8EncodeChar ch =
      [UInt8.ofNat (ch.toNat / 4096 % 0x10 + 0xE0), UInt8.ofNat (ch.toNat / 64 % 0x40 + 0x80),
        UInt8.ofNat (ch.toNat % 0x40 + 0x80)]) ∨
    (0x10000 ≤ ch.toNat ∧ ch.toNat < 0x110000 ∧ String.utf8EncodeChar ch =
      [UInt8.ofNat (ch.toNat / 262144 % 0x08 + 0xF0), UInt8.ofNat (ch.toNat / 4096 % 0x40 + 0x80),
        UInt8.ofNat (ch.toNat / 64 % 0x40 + 0x80), UInt8.ofNat (ch.toNat % 0x40 + 0x80)]) := by
  have bound : ch.toNat < 0x110000 := by
    have valid : ch.toNat.isValidChar := ch.valid
    rcases valid with small | large
    · omega
    · omega
  have unfolded : String.utf8EncodeChar ch =
      if ch.toNat ≤ 0x7F then [UInt8.ofNat ch.toNat]
      else if ch.toNat ≤ 0x7FF then
        [UInt8.ofNat (ch.toNat / 64 % 0x20 + 0xC0), UInt8.ofNat (ch.toNat % 0x40 + 0x80)]
      else if ch.toNat ≤ 0xFFFF then
        [UInt8.ofNat (ch.toNat / 4096 % 0x10 + 0xE0), UInt8.ofNat (ch.toNat / 64 % 0x40 + 0x80),
          UInt8.ofNat (ch.toNat % 0x40 + 0x80)]
      else
        [UInt8.ofNat (ch.toNat / 262144 % 0x08 + 0xF0),
          UInt8.ofNat (ch.toNat / 4096 % 0x40 + 0x80),
          UInt8.ofNat (ch.toNat / 64 % 0x40 + 0x80), UInt8.ofNat (ch.toNat % 0x40 + 0x80)] := rfl
  rw [unfolded]
  split
  · exact .inl ⟨by omega, rfl⟩
  · split
    · exact .inr (.inl ⟨by omega, by omega, rfl⟩)
    · split
      · exact .inr (.inr (.inl ⟨by omega, by omega, rfl⟩))
      · exact .inr (.inr (.inr ⟨by omega, bound, rfl⟩))

theorem encode_append (text more : Str) : encode (text ++ more) = encode text ++ encode more :=
  List.flatMap_append

theorem mem_encodeChar {ch : Char} {byte : UInt8} (member : byte ∈ String.utf8EncodeChar ch) :
    ch.toNat = byte.toNat ∨ 0x80 ≤ ch.toNat ∧ 0x80 ≤ byte.toNat := by
  have high : ∀ number, 0x80 ≤ ch.toNat → 0x80 ≤ number → number < 256 →
      byte = UInt8.ofNat number → 0x80 ≤ ch.toNat ∧ 0x80 ≤ byte.toNat := by
    intro number large least small isByte
    rw [isByte, toNat_byte small]
    exact ⟨large, least⟩
  rcases encodeChar_cases ch with ⟨less, bytes⟩ | ⟨least, below, bytes⟩ |
    ⟨least, below, bytes⟩ | ⟨least, below, bytes⟩
  · rw [bytes, List.mem_singleton] at member
    rw [member, toNat_byte (by omega)]
    exact .inl rfl
  · right
    rw [bytes, List.mem_pair] at member
    rcases member with isByte | isByte
    · exact high _ (by omega) (by omega) (by omega) isByte
    · exact high _ (by omega) (by omega) (by omega) isByte
  · right
    rw [bytes, List.mem_cons, List.mem_pair] at member
    rcases member with isByte | isByte | isByte
    · exact high _ (by omega) (by omega) (by omega) isByte
    · exact high _ (by omega) (by omega) (by omega) isByte
    · exact high _ (by omega) (by omega) (by omega) isByte
  · right
    rw [bytes, List.mem_cons, List.mem_cons, List.mem_pair] at member
    rcases member with isByte | isByte | isByte | isByte
    · exact high _ (by omega) (by omega) (by omega) isByte
    · exact high _ (by omega) (by omega) (by omega) isByte
    · exact high _ (by omega) (by omega) (by omega) isByte
    · exact high _ (by omega) (by omega) (by omega) isByte

theorem isContinuation_byte (number : Nat) :
    isContinuation (UInt8.ofNat (number % 0x40 + 0x80)) = true := by
  have value := @toNat_byte (number % 0x40 + 0x80) (by omega)
  simp only [isContinuation, Bool.and_eq_true, decide_eq_true_eq, UInt8.le_iff_toNat_le,
    UInt8.lt_iff_toNat_lt, value, UInt8.reduceToNat]
  omega

theorem payload_byte (number : Nat) :
    payload (UInt8.ofNat (number % 0x40 + 0x80)) = number % 0x40 := by
  rw [payload, toNat_byte (by omega)]
  omega

theorem scalar?_toNat {least : Nat} {ch : Char} (enough : least ≤ ch.toNat) :
    scalar? least ch.toNat = some ch := by
  have valid : ch.toNat.isValidChar := ch.valid
  rw [scalar?, if_pos ⟨enough, valid⟩, Char.ofNat_toNat]

theorem decode_ascii {ch : Char} {rest : Bytes} (small : ch.toNat < 0x80) :
    decode (UInt8.ofNat ch.toNat :: rest) = (decode rest).map (ch :: ·) := by
  have value := @toNat_byte ch.toNat (by omega)
  have isAscii : UInt8.ofNat ch.toNat < 0x80 := by
    rw [UInt8.lt_iff_toNat_lt, value]
    exact small
  rw [decode.eq_def]
  simp only [isAscii, if_true, value, Char.ofNat_toNat]

theorem decode_two {ch : Char} {rest : Bytes} (least : 0x80 ≤ ch.toNat) (below : ch.toNat < 0x800) :
    decode (UInt8.ofNat (ch.toNat / 64 % 0x20 + 0xC0) ::
      UInt8.ofNat (ch.toNat % 0x40 + 0x80) :: rest) = (decode rest).map (ch :: ·) := by
  have value := @toNat_byte (ch.toNat / 64 % 0x20 + 0xC0) (by omega)
  have code : (ch.toNat / 64 % 0x20 + 0xC0) % 32 * 64 + ch.toNat % 0x40 = ch.toNat := by omega
  rw [decode.eq_def]
  simp only [UInt8.lt_iff_toNat_lt, value, UInt8.reduceToNat, isContinuation_byte, payload_byte,
    code, scalar?_toNat least, not_true_eq_false, if_false]
  rw [if_neg (by omega), if_neg (by omega), if_pos (by omega)]
  simp

theorem decode_three {ch : Char} {rest : Bytes} (least : 0x800 ≤ ch.toNat)
    (below : ch.toNat < 0x10000) :
    decode (UInt8.ofNat (ch.toNat / 4096 % 0x10 + 0xE0) ::
      UInt8.ofNat (ch.toNat / 64 % 0x40 + 0x80) ::
        UInt8.ofNat (ch.toNat % 0x40 + 0x80) :: rest) = (decode rest).map (ch :: ·) := by
  have value := @toNat_byte (ch.toNat / 4096 % 0x10 + 0xE0) (by omega)
  have code : ((ch.toNat / 4096 % 0x10 + 0xE0) % 16 * 64 + ch.toNat / 64 % 0x40) * 64 +
      ch.toNat % 0x40 = ch.toNat := by omega
  rw [decode.eq_def]
  simp only [UInt8.lt_iff_toNat_lt, value, UInt8.reduceToNat, isContinuation_byte, payload_byte,
    code, scalar?_toNat least, not_true_eq_false, if_false]
  rw [if_neg (by omega), if_neg (by omega), if_neg (by omega), if_pos (by omega)]
  simp

theorem decode_four {ch : Char} {rest : Bytes} (least : 0x10000 ≤ ch.toNat)
    (below : ch.toNat < 0x110000) :
    decode (UInt8.ofNat (ch.toNat / 262144 % 0x08 + 0xF0) ::
      UInt8.ofNat (ch.toNat / 4096 % 0x40 + 0x80) :: UInt8.ofNat (ch.toNat / 64 % 0x40 + 0x80) ::
        UInt8.ofNat (ch.toNat % 0x40 + 0x80) :: rest) = (decode rest).map (ch :: ·) := by
  have value := @toNat_byte (ch.toNat / 262144 % 0x08 + 0xF0) (by omega)
  have code : (((ch.toNat / 262144 % 0x08 + 0xF0) % 8 * 64 + ch.toNat / 4096 % 0x40) * 64 +
      ch.toNat / 64 % 0x40) * 64 + ch.toNat % 0x40 = ch.toNat := by omega
  rw [decode.eq_def]
  simp only [UInt8.lt_iff_toNat_lt, UInt8.le_iff_toNat_le, value, UInt8.reduceToNat,
    isContinuation_byte, payload_byte, code, scalar?_toNat least, not_true_eq_false, if_false,
    false_or]
  rw [if_neg (by omega), if_neg (by omega), if_neg (by omega), if_neg (by omega)]
  have short : ¬ 0xF8 ≤ ch.toNat / 262144 % 0x08 + 0xF0 := by omega
  simp [short]

theorem decode_encodeChar_append (ch : Char) (rest : Bytes) :
    decode (String.utf8EncodeChar ch ++ rest) = (decode rest).map (ch :: ·) := by
  rcases encodeChar_cases ch with ⟨small, bytes⟩ | ⟨least, below, bytes⟩ | ⟨least, below, bytes⟩ |
    ⟨least, below, bytes⟩
  · rw [bytes]
    exact decode_ascii small
  · rw [bytes]
    exact decode_two least below
  · rw [bytes]
    exact decode_three least below
  · rw [bytes]
    exact decode_four least below

theorem decode_encode (text : Str) : decode (encode text) = some text := by
  induction text with
  | nil => rfl
  | cons ch rest induction =>
      rw [encode, List.flatMap_cons, decode_encodeChar_append]
      rw [encode] at induction
      rw [induction]
      rfl

/-! ## Replacing errors -/

theorem subpart_cons {first second : UInt8} {tail rest : Bytes}
    (asks : continuations first = tail.length + 1)
    (least : (secondRange first).1 ≤ second) (greatest : second ≤ (secondRange first).2)
    (continues : ∀ byte ∈ tail, isContinuation byte = true) :
    subpart (first :: second :: (tail ++ rest)) = tail.length + 2 := by
  have taken : (tail ++ rest).take (continuations first - 1) = tail := by
    rw [asks, Nat.add_sub_cancel, List.take_left]
  rw [subpart, taken, if_pos ⟨by omega, least, greatest⟩, List.takeWhile_eq_self_iff.mpr continues,
    Nat.add_comm]

theorem within_secondRange {first second : UInt8} (continues : isContinuation second = true)
    (overlong : first.toNat = 0xE0 → 0xA0 ≤ second.toNat)
    (surrogate : first.toNat = 0xED → second.toNat ≤ 0x9F)
    (overlongFour : first.toNat = 0xF0 → 0x90 ≤ second.toNat)
    (beyond : first.toNat = 0xF4 → second.toNat ≤ 0x8F) :
    (secondRange first).1 ≤ second ∧ second ≤ (secondRange first).2 := by
  simp only [isContinuation, Bool.and_eq_true, decide_eq_true_eq, UInt8.le_iff_toNat_le,
    UInt8.lt_iff_toNat_lt, UInt8.reduceToNat] at continues
  simp only [secondRange, UInt8.le_iff_toNat_le, ← UInt8.toNat_inj, UInt8.reduceToNat]
  split
  · next isFirst =>
    have least := overlong isFirst
    simp only [UInt8.reduceToNat]
    omega
  · split
    · next isFirst =>
      have greatest := surrogate isFirst
      simp only [UInt8.reduceToNat]
      omega
    · split
      · next isFirst =>
        have least := overlongFour isFirst
        simp only [UInt8.reduceToNat]
        omega
      · split
        · next isFirst =>
          have greatest := beyond isFirst
          simp only [UInt8.reduceToNat]
          omega
        · simp only [UInt8.reduceToNat]
          omega

theorem continuations_byte {number : Nat} (small : number < 256) :
    continuations (UInt8.ofNat number) =
      if 0xC2 ≤ number ∧ number < 0xE0 then 1
      else if 0xE0 ≤ number ∧ number < 0xF0 then 2
      else if 0xF0 ≤ number ∧ number < 0xF5 then 3
      else 0 := by
  simp only [continuations, UInt8.le_iff_toNat_le, UInt8.lt_iff_toNat_lt, toNat_byte small,
    UInt8.reduceToNat]

theorem subpart_encodeChar_append (ch : Char) (rest : Bytes) :
    subpart (String.utf8EncodeChar ch ++ rest) = (String.utf8EncodeChar ch).length := by
  have valid : ch.toNat.isValidChar := ch.valid
  rcases encodeChar_cases ch with ⟨small, bytes⟩ | ⟨least, below, bytes⟩ | ⟨least, below, bytes⟩ |
    ⟨least, below, bytes⟩
  · rw [bytes]
    cases rest with
    | nil => rfl
    | cons second rest =>
        have none_ : continuations (UInt8.ofNat ch.toNat) = 0 := by
          rw [continuations_byte (by omega), if_neg (by omega), if_neg (by omega),
            if_neg (by omega)]
        simp [subpart, none_]
  · rw [bytes]
    have range := @within_secondRange (UInt8.ofNat (ch.toNat / 64 % 0x20 + 0xC0)) _
      (isContinuation_byte ch.toNat)
    rw [toNat_byte (by omega), toNat_byte (by omega)] at range
    have inRange := range (by omega) (by omega) (by omega) (by omega)
    apply @subpart_cons _ _ [] rest _ inRange.1 inRange.2 (by simp)
    rw [continuations_byte (by omega), if_pos (by omega)]
    rfl
  · rw [bytes]
    have range := @within_secondRange (UInt8.ofNat (ch.toNat / 4096 % 0x10 + 0xE0)) _
      (isContinuation_byte (ch.toNat / 64))
    rw [toNat_byte (by omega), toNat_byte (by omega)] at range
    have surrogates : ch.toNat < 0xD800 ∨ 0xDFFF < ch.toNat := by
      rcases valid with low | high
      · exact .inl low
      · exact .inr high.1
    have inRange := range (by omega) (by omega) (by omega) (by omega)
    apply @subpart_cons _ _ [_] rest _ inRange.1 inRange.2
    · intro byte member
      rw [List.mem_singleton.mp member]
      exact isContinuation_byte ch.toNat
    · rw [continuations_byte (by omega), if_neg (by omega), if_pos (by omega)]
      rfl
  · rw [bytes]
    have range := @within_secondRange (UInt8.ofNat (ch.toNat / 262144 % 0x08 + 0xF0)) _
      (isContinuation_byte (ch.toNat / 4096))
    rw [toNat_byte (by omega), toNat_byte (by omega)] at range
    have inRange := range (by omega) (by omega) (by omega) (by omega)
    apply @subpart_cons _ _ [_, _] rest _ inRange.1 inRange.2
    · intro byte member
      rcases List.mem_pair.mp member with rfl | rfl
      · exact isContinuation_byte (ch.toNat / 64)
      · exact isContinuation_byte ch.toNat
    · rw [continuations_byte (by omega), if_neg (by omega), if_neg (by omega),
        if_pos (by omega)]
      rfl

theorem decodeReplaceFrom_encodeChar_append (ch : Char) (rest : Bytes) (fuel : Nat) :
    decodeReplaceFrom (fuel + 1) (String.utf8EncodeChar ch ++ rest) =
      ch :: decodeReplaceFrom fuel rest := by
  have whole := decode_encodeChar_append ch []
  rw [List.append_nil, decode, Option.map_some] at whole
  have some_ : String.utf8EncodeChar ch ++ rest ≠ [] := by simp
  rw [decodeReplaceFrom, subpart_encodeChar_append, List.take_left, List.drop_left, whole]
  · rfl
  · exact some_

theorem decodeReplaceFrom_encode {text : Str} {fuel : Nat} (enough : text.length ≤ fuel) :
    decodeReplaceFrom fuel (encode text) = text := by
  induction text generalizing fuel with
  | nil => cases fuel <;> rfl
  | cons ch rest induction =>
      cases fuel with
      | zero => cases enough
      | succ fuel =>
          rw [encode, List.flatMap_cons, decodeReplaceFrom_encodeChar_append]
          rw [List.length_cons] at enough
          exact congrArg _ (induction (by omega))

theorem length_le_length_encode (text : Str) : text.length ≤ (encode text).length := by
  induction text with
  | nil => exact Nat.zero_le _
  | cons ch rest induction =>
      have some_ : 0 < (String.utf8EncodeChar ch).length := by
        rw [String.length_utf8EncodeChar]
        exact ch.utf8Size_pos
      rw [encode] at induction
      rw [encode, List.flatMap_cons, List.length_append, List.length_cons]
      omega

theorem decodeReplace_encode (text : Str) : decodeReplace (encode text) = text :=
  decodeReplaceFrom_encode (length_le_length_encode text)

/-! ## What is read is written again -/

theorem toNat_of_scalar? {least code : Nat} {ch : Char} (found : scalar? least code = some ch) :
    ch.toNat = code ∧ least ≤ code := by
  rw [scalar?] at found
  split at found
  · next valid =>
      rw [← Option.some.inj found, Char.ofNat, dif_pos valid.2]
      exact ⟨rfl, valid.1⟩
  · cases found

theorem scalar_map {least code : Nat} {text : Option Str} {ch : Char} {rest : Str}
    (read : ((scalar? least code).bind fun ch => text.map (ch :: ·)) = some (ch :: rest)) :
    (ch.toNat = code ∧ least ≤ code) ∧ text = some rest := by
  rcases Option.bind_eq_some_iff.mp read with ⟨found, isFound, inner⟩
  rcases Option.map_eq_some_iff.mp inner with ⟨tail, isTail, same⟩
  cases same
  exact ⟨toNat_of_scalar? isFound, isTail⟩

theorem payload_lt (byte : UInt8) : payload byte < 64 := Nat.mod_lt _ (by decide)

theorem ofNat_eq {number : Nat} {byte : UInt8} (same : number = byte.toNat) :
    UInt8.ofNat number = byte := by
  rw [same, UInt8.ofNat_toNat]

theorem toNat_continuation {byte : UInt8} (continues : isContinuation byte = true) :
    byte.toNat = payload byte + 0x80 := by
  rw [isContinuation, Bool.and_eq_true, decide_eq_true_iff, decide_eq_true_iff] at continues
  have least : 0x80 ≤ byte.toNat := continues.1
  have below : byte.toNat < 0xC0 := continues.2
  rw [payload]
  omega

section

variable {ch : Char} {first second third fourth : UInt8}

theorem encodeChar_one (small : first.toNat < 0x80) (code : ch.toNat = first.toNat) :
    String.utf8EncodeChar ch = [first] := by
  rcases encodeChar_cases ch with ⟨_, bytes⟩ | ⟨large, _⟩ | ⟨large, _⟩ | ⟨large, _⟩
  · rw [bytes, ofNat_eq code]
  · omega
  · omega
  · omega

theorem encodeChar_two (least : 0xC0 ≤ first.toNat) (below : first.toNat < 0xE0)
    (continues : isContinuation second = true)
    (code : ch.toNat = first.toNat % 32 * 64 + payload second ∧
      0x80 ≤ first.toNat % 32 * 64 + payload second) :
    String.utf8EncodeChar ch = [first, second] := by
  have low := payload_lt second
  have isSecond := toNat_continuation continues
  rcases encodeChar_cases ch with ⟨small, _⟩ | ⟨_, _, bytes⟩ | ⟨large, _⟩ | ⟨large, _⟩
  · omega
  · rw [bytes, @ofNat_eq _ first (by omega), @ofNat_eq _ second (by omega)]
  · omega
  · omega

theorem encodeChar_three (least : 0xE0 ≤ first.toNat) (below : first.toNat < 0xF0)
    (continues : isContinuation second = true) (again : isContinuation third = true)
    (code : ch.toNat = (first.toNat % 16 * 64 + payload second) * 64 + payload third ∧
      0x800 ≤ (first.toNat % 16 * 64 + payload second) * 64 + payload third) :
    String.utf8EncodeChar ch = [first, second, third] := by
  have low := payload_lt second
  have lower := payload_lt third
  have isSecond := toNat_continuation continues
  have isThird := toNat_continuation again
  rcases encodeChar_cases ch with ⟨small, _⟩ | ⟨_, small, _⟩ | ⟨_, _, bytes⟩ | ⟨large, _⟩
  · omega
  · omega
  · rw [bytes, @ofNat_eq _ first (by omega), @ofNat_eq _ second (by omega),
      @ofNat_eq _ third (by omega)]
  · omega

theorem encodeChar_four (least : 0xF0 ≤ first.toNat) (below : first.toNat < 0xF8)
    (continues : isContinuation second = true) (again : isContinuation third = true)
    (last : isContinuation fourth = true)
    (code : ch.toNat = ((first.toNat % 8 * 64 + payload second) * 64 + payload third) * 64 +
        payload fourth ∧
      0x10000 ≤ ((first.toNat % 8 * 64 + payload second) * 64 + payload third) * 64 +
        payload fourth) :
    String.utf8EncodeChar ch = [first, second, third, fourth] := by
  have low := payload_lt second
  have lower := payload_lt third
  have lowest := payload_lt fourth
  have isSecond := toNat_continuation continues
  have isThird := toNat_continuation again
  have isFourth := toNat_continuation last
  rcases encodeChar_cases ch with ⟨small, _⟩ | ⟨_, small, _⟩ | ⟨_, small, _⟩ | ⟨_, _, bytes⟩
  · omega
  · omega
  · omega
  · rw [bytes, @ofNat_eq _ first (by omega), @ofNat_eq _ second (by omega),
      @ofNat_eq _ third (by omega), @ofNat_eq _ fourth (by omega)]

end

theorem decode_cons {bytes : Bytes} {ch : Char} {text : Str}
    (decoded : decode bytes = some (ch :: text)) :
    ∃ rest, bytes = String.utf8EncodeChar ch ++ rest ∧ decode rest = some text := by
  rw [decode.eq_def] at decoded
  split at decoded
  · cases decoded
  · next first rest =>
      split at decoded
      · next ascii =>
          rcases Option.map_eq_some_iff.mp decoded with ⟨tail, isTail, same⟩
          cases same
          have small : first.toNat < 0x80 := ascii
          have code : (Char.ofNat first.toNat).toNat = first.toNat := by
            rw [Char.ofNat, dif_pos (Or.inl (by omega))]
            rfl
          exact ⟨rest, by rw [encodeChar_one small code]; rfl, isTail⟩
      · split at decoded
        · cases decoded
        · next notAscii notLow =>
          have least : 0xC0 ≤ first.toNat := not_lt.mp notLow
          split at decoded
          · cases decoded
          · next second rest =>
              split at decoded
              · cases decoded
              · next continues =>
                rw [Bool.not_eq_true, Bool.not_eq_false] at continues
                split at decoded
                · next below =>
                  rcases scalar_map decoded with ⟨code, isRest⟩
                  exact ⟨rest, by rw [encodeChar_two least below continues code]; rfl, isRest⟩
                · next notTwo =>
                  have large : 0xE0 ≤ first.toNat := not_lt.mp notTwo
                  split at decoded
                  · cases decoded
                  · next third rest =>
                      split at decoded
                      · cases decoded
                      · next again =>
                        rw [Bool.not_eq_true, Bool.not_eq_false] at again
                        split at decoded
                        · next below =>
                          rcases scalar_map decoded with ⟨code, isRest⟩
                          exact ⟨rest, by
                            rw [encodeChar_three large below continues again code]; rfl, isRest⟩
                        · next notThree =>
                          have larger : 0xF0 ≤ first.toNat := not_lt.mp notThree
                          split at decoded
                          · cases decoded
                          · next fourth rest =>
                              split at decoded
                              · cases decoded
                              · next both =>
                                rw [not_or, Bool.not_eq_true, Bool.not_eq_false] at both
                                have below : first.toNat < 0xF8 := not_le.mp both.2
                                rcases scalar_map decoded with ⟨code, isRest⟩
                                exact ⟨rest, by
                                  rw [encodeChar_four larger below continues again both.1 code]
                                  rfl, isRest⟩

theorem scalar_ne_nil {least code : Nat} {text : Option Str} :
    ((scalar? least code).bind fun ch => text.map (ch :: ·)) ≠ some [] := by
  intro read
  rcases Option.bind_eq_some_iff.mp read with ⟨found, -, inner⟩
  rcases Option.map_eq_some_iff.mp inner with ⟨tail, -, same⟩
  cases same

theorem decode_ne_nil (first : UInt8) (rest : Bytes) : decode (first :: rest) ≠ some [] := by
  intro decoded
  rw [decode.eq_def] at decoded
  simp only at decoded
  split at decoded
  · rcases Option.map_eq_some_iff.mp decoded with ⟨tail, -, same⟩
    cases same
  · split at decoded
    · cases decoded
    · split at decoded
      · cases decoded
      · split at decoded
        · cases decoded
        · split at decoded
          · exact scalar_ne_nil decoded
          · split at decoded
            · cases decoded
            · split at decoded
              · cases decoded
              · split at decoded
                · exact scalar_ne_nil decoded
                · split at decoded
                  · cases decoded
                  · split at decoded
                    · cases decoded
                    · exact scalar_ne_nil decoded

theorem encode_decode {bytes : Bytes} {text : Str} (decoded : decode bytes = some text) :
    encode text = bytes := by
  induction text generalizing bytes with
  | nil =>
      cases bytes with
      | nil => rfl
      | cons first rest => exact absurd decoded (decode_ne_nil first rest)
  | cons ch text induction =>
      rcases decode_cons decoded with ⟨rest, rfl, isRest⟩
      rw [encode, List.flatMap_cons, ← encode, induction isRest]

theorem length_encode_le {bytes : Bytes} {text : Str} (decoded : decode bytes = some text) :
    (encode text).length ≤ bytes.length := by
  rw [encode_decode decoded]

end Utf8

end LlmHoneypot
