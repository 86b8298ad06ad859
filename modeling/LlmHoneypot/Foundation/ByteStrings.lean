import LlmHoneypot.Foundation.Json

/-! # Byte strings

Operations of Python's `bytes`, each with the meaning of the method whose name it carries. -/

namespace LlmHoneypot

namespace ByteString

def replaceFrom (old new : Bytes) : Nat → Bytes → Bytes
  | _, [] => []
  | skip + 1, _ :: rest => replaceFrom old new skip rest
  | 0, byte :: rest =>
      if old.isPrefixOf (byte :: rest) then new ++ replaceFrom old new (old.length - 1) rest
      else byte :: replaceFrom old new 0 rest

def replace (old new data : Bytes) : Bytes := replaceFrom old new 0 data

def encodeByte (byte : UInt8) : Bytes := Utf8.encode [Char.ofNat byte.toNat]

@[simp] theorem replace_nil (old new : Bytes) : replace old new [] = [] := rfl

theorem replace_cons_of_ne {first byte : UInt8} (old new rest : Bytes) (differs : byte ≠ first) :
    replace (first :: old) new (byte :: rest) = byte :: replace (first :: old) new rest := by
  have noPrefix : (first :: old).isPrefixOf (byte :: rest) = false := by
    simp [List.isPrefixOf, differs.symm]
  rw [replace, replaceFrom, noPrefix]
  rfl

theorem replace_of_notMem {first : UInt8} {old new data : Bytes} (absent : first ∉ data) :
    replace (first :: old) new data = data := by
  induction data with
  | nil => rfl
  | cons byte rest induction =>
      rw [List.mem_cons, not_or] at absent
      rw [replace_cons_of_ne old new rest (Ne.symm absent.1), induction absent.2]

theorem replace_pair (first second : UInt8) (rest : Bytes) :
    replace [first, second] [] (first :: second :: rest) = replace [first, second] [] rest := by
  have isPrefix : [first, second].isPrefixOf (first :: second :: rest) = true := by
    simp [List.isPrefixOf]
  rw [replace, replaceFrom, isPrefix]
  rfl

theorem replace_pair_cons {first second other : UInt8} (rest : Bytes) (differs : other ≠ second) :
    replace [first, second] [] (first :: other :: rest) =
      first :: replace [first, second] [] (other :: rest) := by
  have noPrefix : [first, second].isPrefixOf (first :: other :: rest) = false := by
    simp [List.isPrefixOf, differs.symm]
  rw [replace, replaceFrom, noPrefix]
  rfl

theorem replace_byte_cons (byte : UInt8) (new rest : Bytes) :
    replace [byte] new (byte :: rest) = new ++ replace [byte] new rest := by
  have isPrefix : [byte].isPrefixOf (byte :: rest) = true := by simp [List.isPrefixOf]
  rw [replace, replaceFrom, isPrefix]
  rfl

theorem replace_byte_append (byte : UInt8) (new first second : Bytes) :
    replace [byte] new (first ++ second) = replace [byte] new first ++ replace [byte] new second := by
  induction first with
  | nil => rfl
  | cons head rest induction =>
      by_cases same : head = byte
      · rw [same, List.cons_append, replace_byte_cons, replace_byte_cons, induction,
          List.append_assoc]
      · rw [List.cons_append, replace_cons_of_ne [] new _ same, replace_cons_of_ne [] new _ same,
          induction, List.cons_append]

theorem replace_single (byte : UInt8) (data : Bytes) :
    replace [byte] [] data = data.filter (· ≠ byte) := by
  induction data with
  | nil => rfl
  | cons head rest induction =>
      by_cases same : head = byte
      · rw [same, replace_byte_cons, induction, List.filter_cons_of_neg (by simp)]
        rfl
      · rw [replace_cons_of_ne [] [] rest same, induction,
          List.filter_cons_of_pos (by simpa using same)]

private theorem encodeByte_cases : ∀ number < 256,
    (number < 0x80 → encodeByte (UInt8.ofNat number) = [UInt8.ofNat number]) ∧
      (¬ number < 0x80 → (encodeByte (UInt8.ofNat number)).length = 2) := by
  decide +kernel

theorem encodeByte_of_lt {byte : UInt8} (small : byte < 0x80) : encodeByte byte = [byte] := by
  have given := (encodeByte_cases byte.toNat byte.toNat_lt).1 (UInt8.lt_iff_toNat_lt.mp small)
  rwa [UInt8.ofNat_toNat] at given

theorem length_encodeByte {byte : UInt8} (large : ¬ byte < 0x80) :
    (encodeByte byte).length = 2 := by
  rw [UInt8.lt_iff_toNat_lt] at large
  have given := (encodeByte_cases byte.toNat byte.toNat_lt).2 large
  rwa [UInt8.ofNat_toNat] at given

/-! `data.decode("unicode-escape")`. A byte string that cannot be decoded gives `none`. -/

namespace UnicodeEscape

def isOctal (byte : UInt8) : Bool := 48 ≤ byte && byte ≤ 55

def octal (digits : Bytes) : Nat :=
  digits.foldl (fun code digit => code * 8 + (digit.toNat - 48)) 0

def hex? (count : Nat) (rest : Bytes) : Option Nat :=
  if rest.length < count then none else Json.hexUnit? ((rest.take count).map UInt8.toNat)

def braced? : Bytes → Option (Bytes × Bytes)
  | 0x7B :: rest =>
      let name := rest.takeWhile (· ≠ 0x7D)
      if name = [] ∨ rest.length = name.length then none
      else some (name, rest.drop (name.length + 1))
  | _ => none

/-- The characters of the escape after a backslash, and what follows. `lookup` finds a
character by its name. -/
def escape? (lookup : Bytes → Option CodePoints) : Bytes → Option (CodePoints × Bytes)
  | [] => none
  | 10 :: rest => some ([], rest)
  | 92 :: rest => some ([92], rest)
  | 39 :: rest => some ([39], rest)
  | 34 :: rest => some ([34], rest)
  | 98 :: rest => some ([8], rest)
  | 102 :: rest => some ([12], rest)
  | 116 :: rest => some ([9], rest)
  | 110 :: rest => some ([10], rest)
  | 114 :: rest => some ([13], rest)
  | 118 :: rest => some ([11], rest)
  | 97 :: rest => some ([7], rest)
  | 120 :: rest => (hex? 2 rest).map fun code => ([code], rest.drop 2)
  | 117 :: rest => (hex? 4 rest).map fun code => ([code], rest.drop 4)
  | 85 :: rest =>
      ((hex? 8 rest).filter (· ≤ 0x10FFFF)).map fun code => ([code], rest.drop 8)
  | 78 :: rest => do
      let (name, rest) ← braced? rest
      (lookup name).map fun chars => (chars, rest)
  | byte :: rest =>
      if isOctal byte then
        let digits := byte :: (rest.take 2).takeWhile isOctal
        some ([octal digits], rest.drop (digits.length - 1))
      else some ([92, byte.toNat], rest)

def decodeFrom (lookup : Bytes → Option CodePoints) : Nat → Bytes → Option CodePoints
  | _, [] => some []
  | 0, _ :: _ => none
  | fuel + 1, byte :: rest =>
      if byte = 92 then do
        let (chars, rest) ← escape? lookup rest
        (decodeFrom lookup fuel rest).map (chars ++ ·)
      else (decodeFrom lookup fuel rest).map (byte.toNat :: ·)

def decode (lookup : Bytes → Option CodePoints) (data : Bytes) : Option CodePoints :=
  decodeFrom lookup data.length data

end UnicodeEscape

end ByteString

end LlmHoneypot
