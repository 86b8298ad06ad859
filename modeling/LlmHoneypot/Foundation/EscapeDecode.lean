import LlmHoneypot.Foundation.Utf8Codec

/-! # Escapes of byte literals

`codecs.escape_decode`: backslash escapes as in Python's byte literals. -/

namespace LlmHoneypot

namespace EscapeDecode

def BACKSLASH : UInt8 := 92

def isOctal (byte : UInt8) : Bool := 48 ≤ byte && byte ≤ 55

def hex? (byte : UInt8) : Option Nat :=
  if 48 ≤ byte ∧ byte ≤ 57 then some (byte.toNat - 48)
  else if 97 ≤ byte ∧ byte ≤ 102 then some (byte.toNat - 87)
  else if 65 ≤ byte ∧ byte ≤ 70 then some (byte.toNat - 55)
  else none

def single? (code : UInt8) : Option UInt8 :=
  if code = 92 ∨ code = 39 ∨ code = 34 then some code
  else if code = 97 then some 7
  else if code = 98 then some 8
  else if code = 116 then some 9
  else if code = 110 then some 10
  else if code = 118 then some 11
  else if code = 102 then some 12
  else if code = 114 then some 13
  else none

def octalValue (digits : Bytes) : Nat :=
  digits.foldl (fun value digit => 8 * value + (digit.toNat - 48)) 0

def escapeDecode : Bytes → Option Bytes
  | [] => some []
  | byte :: rest =>
      if byte ≠ BACKSLASH then (escapeDecode rest).map (byte :: ·)
      else
        match rest with
        | [] => none
        | code :: rest =>
            if code = 10 then escapeDecode rest
            else if (single? code).isSome then
              (escapeDecode rest).map ((single? code).getD code :: ·)
            else if isOctal code then
              -- up to three digits
              match rest with
              | [] => some [UInt8.ofNat (octalValue [code])]
              | first :: rest =>
                  if ¬ isOctal first then
                    (escapeDecode (first :: rest)).map (UInt8.ofNat (octalValue [code]) :: ·)
                  else
                    match rest with
                    | [] => some [UInt8.ofNat (octalValue [code, first])]
                    | second :: rest =>
                        if ¬ isOctal second then
                          (escapeDecode (second :: rest)).map
                            (UInt8.ofNat (octalValue [code, first]) :: ·)
                        else
                          (escapeDecode rest).map
                            (UInt8.ofNat (octalValue [code, first, second]) :: ·)
            else if code = 120 then
              match rest with
              | first :: second :: rest =>
                  match hex? first, hex? second with
                  | some high, some low =>
                      (escapeDecode rest).map (UInt8.ofNat (16 * high + low) :: ·)
                  | _, _ => none
              | _ => none
            else
              -- an unknown escape stays as it is
              (escapeDecode rest).map fun later => BACKSLASH :: code :: later

theorem escapeDecode_cons {byte : UInt8} (plain : byte ≠ BACKSLASH) (rest : Bytes) :
    escapeDecode (byte :: rest) = (escapeDecode rest).map (byte :: ·) := by
  rw [escapeDecode.eq_def]
  exact if_pos plain

theorem escapeDecode_plain {bytes : Bytes} (plain : BACKSLASH ∉ bytes) (rest : Bytes) :
    escapeDecode (bytes ++ rest) = (escapeDecode rest).map (bytes ++ ·) := by
  induction bytes with
  | nil => exact Option.map_id'.symm
  | cons byte bytes induction =>
      rw [List.mem_cons, not_or] at plain
      rw [List.cons_append, escapeDecode_cons (Ne.symm plain.1), induction plain.2, Option.map_map]
      rfl

theorem escapeDecode_single {code value : UInt8} (isSingle : single? code = some value)
    (rest : Bytes) :
    escapeDecode (BACKSLASH :: code :: rest) = (escapeDecode rest).map (value :: ·) := by
  have notNewline : code ≠ 10 := by
    intro isNewline
    rw [isNewline] at isSingle
    cases isSingle
  rw [escapeDecode.eq_def]
  simp only [ne_eq, not_true, if_false, notNewline, isSingle, Option.isSome_some, if_true,
    Option.getD_some]

def Ends (digits rest : Bytes) : Prop :=
  digits.length = 3 ∨ ∀ byte ∈ rest.head?, isOctal byte = false

theorem single?_octal {code : UInt8} (octal : isOctal code = true) :
    code ≠ 10 ∧ single? code = none := by
  have range : 48 ≤ code.toNat ∧ code.toNat ≤ 55 := by
    simpa only [isOctal, Bool.and_eq_true, decide_eq_true_eq, UInt8.le_iff_toNat_le,
      UInt8.reduceToNat] using octal
  have differs (other : UInt8) (outside : other.toNat < 48 ∨ 55 < other.toNat) : code ≠ other := by
    intro same
    rw [same] at range
    omega
  refine ⟨differs 10 (by decide), ?_⟩
  simp only [single?, differs 92 (by decide), differs 39 (by decide), differs 34 (by decide),
    differs 97 (by decide), differs 98 (by decide), differs 116 (by decide),
    differs 110 (by decide), differs 118 (by decide), differs 102 (by decide),
    differs 114 (by decide), or_false, if_false]

theorem escapeDecode_octal {code : UInt8} {more rest : Bytes}
    (octal : ∀ digit ∈ code :: more, isOctal digit = true) (few : more.length ≤ 2)
    (ends : Ends (code :: more) rest) :
    escapeDecode (BACKSLASH :: code :: (more ++ rest)) =
      (escapeDecode rest).map (UInt8.ofNat (octalValue (code :: more)) :: ·) := by
  have digits := List.forall_mem_cons.mp octal
  have code_ := single?_octal digits.1
  rw [escapeDecode.eq_def]
  simp only [ne_eq, not_true, if_false, code_.1, code_.2, Option.isSome_none, Bool.false_eq_true,
    digits.1, if_true]
  cases more with
  | nil =>
      cases rest with
      | nil => rfl
      | cons next rest =>
          have notOctal := (ends.resolve_left (by simp)) next rfl
          simp [notOctal]
  | cons first more =>
      have later := List.forall_mem_cons.mp digits.2
      cases more with
      | nil =>
          cases rest with
          | nil => simp [later.1, escapeDecode]
          | cons next rest =>
              have notOctal := (ends.resolve_left (by simp)) next rfl
              simp [later.1, notOctal]
      | cons second more =>
          have last := List.forall_mem_cons.mp later.2
          cases more with
          | nil => simp [later.1, last.1]
          | cons third more =>
              simp only [List.length_cons] at few
              omega

theorem escapeDecode_hex {first second : UInt8} {high low : Nat} (isHigh : hex? first = some high)
    (isLow : hex? second = some low) (rest : Bytes) :
    escapeDecode (BACKSLASH :: 120 :: first :: second :: rest) =
      (escapeDecode rest).map (UInt8.ofNat (16 * high + low) :: ·) := by
  rw [escapeDecode.eq_def]
  simp [isHigh, isLow, single?, isOctal]

end EscapeDecode

end LlmHoneypot
