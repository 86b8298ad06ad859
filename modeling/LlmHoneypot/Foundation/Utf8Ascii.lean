import LlmHoneypot.Foundation.Utf8Codec

/-! # ASCII in UTF-8

A byte below 128 is a character of its own, wherever it stands. -/

namespace LlmHoneypot

namespace Utf8

theorem encode_injective {text other : Str} (same : encode text = encode other) :
    text = other := by
  have decoded := congrArg decode same
  rw [decode_encode, decode_encode] at decoded
  exact Option.some.inj decoded

theorem mem_encode {text : Str} {ch : Char} {byte : UInt8} (ascii : byte.toNat < 0x80)
    (code : ch.toNat = byte.toNat) (member : ch ∈ text) : byte ∈ encode text := by
  refine List.mem_flatMap.mpr ⟨ch, member, ?_⟩
  rcases encodeChar_cases ch with ⟨-, bytes⟩ | ⟨least, -⟩ | ⟨least, -⟩ | ⟨least, -⟩
  · rw [bytes, code, UInt8.ofNat_toNat]
    exact List.mem_singleton_self byte
  · omega
  · omega
  · omega

theorem encode_eq_append_cons {text : Str} {before behind : Bytes} {byte : UInt8}
    (ascii : byte.toNat < 0x80) (isText : encode text = before ++ byte :: behind) :
    ∃ first ch rest, text = first ++ ch :: rest ∧ encode first = before ∧
      ch.toNat = byte.toNat ∧ encode rest = behind := by
  induction text generalizing before with
  | nil => exact absurd isText.symm (List.append_ne_nil_of_right_ne_nil _ (List.cons_ne_nil _ _))
  | cons ch rest induction =>
      rw [encode, List.flatMap_cons, ← encode] at isText
      rcases List.append_eq_append_iff.mp isText with ⟨more, isBefore, isRest⟩ | ⟨more, isFirst, isMore⟩
      · rcases induction isRest with ⟨first, other, behind', rfl, isFirst, code, isBehind⟩
        refine ⟨ch :: first, other, behind', rfl, ?_, code, isBehind⟩
        rw [encode, List.flatMap_cons, ← encode, isFirst, isBefore]
      · cases more with
        | nil =>
            -- the cut is between two characters
            rw [List.nil_append] at isMore
            have isRest : encode rest = [] ++ byte :: behind := isMore.symm
            rcases induction isRest with ⟨first, other, behind', rfl, isFirst', code, isBehind⟩
            refine ⟨ch :: first, other, behind', rfl, ?_, code, isBehind⟩
            rw [encode, List.flatMap_cons, ← encode, isFirst', List.append_nil, isFirst,
              List.append_nil]
        | cons here more =>
            -- the byte is part of a character
            injection isMore with isHere isMore
            have member : byte ∈ String.utf8EncodeChar ch := by
              rw [isFirst, ← isHere]
              exact List.mem_append_right _ List.mem_cons_self
            rcases mem_encodeChar member with code | ⟨-, high⟩
            · have single : String.utf8EncodeChar ch = [UInt8.ofNat ch.toNat] := by
                rcases encodeChar_cases ch with ⟨-, bytes⟩ | ⟨least, -⟩ | ⟨least, -⟩ | ⟨least, -⟩
                · exact bytes
                · omega
                · omega
                · omega
              rw [single] at isFirst
              rcases List.append_eq_singleton_iff.mp isFirst.symm with ⟨rfl, isTail⟩ | ⟨-, absurd_⟩
              · injection isTail with _ isNil
                rw [isNil] at isMore
                exact ⟨[], ch, rest, rfl, rfl, code, isMore.symm⟩
              · cases absurd_
            · omega

end Utf8

end LlmHoneypot
