import LlmHoneypot.Foundation.Utf8Codec

/-! # Bytes as characters and strays

What a decoder that replaces errors takes apart: characters, and bytes that belong to none. -/

namespace LlmHoneypot

namespace Utf8

inductive Symbol where
  | char (ch : Char)
  | stray (bytes : Bytes)
  deriving DecidableEq

namespace Symbol

def bytes : Symbol → Bytes
  | char ch => String.utf8EncodeChar ch
  | stray bytes => bytes

def shown : Symbol → Char
  | char ch => ch
  | stray _ => '\uFFFD'

def isChar : Symbol → Bool
  | char _ => true
  | stray _ => false

end Symbol

def symbolsFrom : Nat → Bytes → List Symbol
  | 0, _ => []
  | _, [] => []
  | fuel + 1, bytes =>
      let taken := subpart bytes
      (match decode (bytes.take taken) with
        | some text => text.map .char
        | none => [.stray (bytes.take taken)]) ++ symbolsFrom fuel (bytes.drop taken)

def symbols (data : Bytes) : List Symbol := symbolsFrom data.length data

theorem map_shown_symbolsFrom (fuel : Nat) (data : Bytes) :
    (symbolsFrom fuel data).map Symbol.shown = decodeReplaceFrom fuel data := by
  induction fuel generalizing data with
  | zero => rfl
  | succ fuel induction =>
      cases data with
      | nil => rfl
      | cons first rest =>
          rw [symbolsFrom, decodeReplaceFrom, List.map_append, induction]
          · cases decode ((first :: rest).take (subpart (first :: rest))) with
            | none => rfl
            | some text => exact congrArg (· ++ _) (List.map_map.trans (List.map_id text))
          · exact List.cons_ne_nil _ _
          · exact List.cons_ne_nil _ _

theorem map_shown_symbols (data : Bytes) : (symbols data).map Symbol.shown = decodeReplace data :=
  map_shown_symbolsFrom data.length data

/-! ## Strays -/

theorem continuations_le (first : UInt8) : continuations first ≤ 3 := by
  rw [continuations]
  split
  · omega
  · split
    · omega
    · split
      · omega
      · omega

theorem decode_four_taken {first second third fourth : UInt8} (asks : continuations first = 3)
    (least : (secondRange first).1 ≤ second) (greatest : second ≤ (secondRange first).2)
    (third_ : isContinuation third = true) (fourth_ : isContinuation fourth = true) :
    decode [first, second, third, fourth] ≠ none := by
  have range : 0xF0 ≤ first.toNat ∧ first.toNat < 0xF5 := by
    rw [continuations] at asks
    simp only [UInt8.le_iff_toNat_le, UInt8.lt_iff_toNat_lt, UInt8.reduceToNat] at asks
    split at asks
    · omega
    · split at asks
      · omega
      · split at asks
        · assumption
        · omega
  have bounds : 0x80 ≤ second.toNat ∧ second.toNat < 0xC0 ∧
      (first.toNat = 0xF0 → 0x90 ≤ second.toNat) ∧ (first.toNat = 0xF4 → second.toNat < 0x90) := by
    simp only [secondRange, UInt8.le_iff_toNat_le, ← UInt8.toNat_inj, UInt8.reduceToNat] at least greatest
    split at least
    · omega
    · split at least
      · omega
      · split at least
        · next isFirst =>
          simp only [isFirst, Nat.reduceEqDiff, if_false, if_true, UInt8.reduceToNat] at least greatest
          omega
        · split at least
          · next isFirst =>
            simp only [isFirst, Nat.reduceEqDiff, if_false, if_true, UInt8.reduceToNat] at least greatest
            omega
          · simp only [*, if_false, UInt8.reduceToNat] at least greatest
            omega
  have second_ : isContinuation second = true := by
    simp only [isContinuation, Bool.and_eq_true, decide_eq_true_eq, UInt8.le_iff_toNat_le,
      UInt8.lt_iff_toNat_lt, UInt8.reduceToNat]
    omega
  have notOne : ¬ first < 0x80 := by
    simp only [UInt8.lt_iff_toNat_lt, UInt8.reduceToNat]
    omega
  have notLow : ¬ first < 0xC0 := by
    simp only [UInt8.lt_iff_toNat_lt, UInt8.reduceToNat]
    omega
  have notTwo : ¬ first < 0xE0 := by
    simp only [UInt8.lt_iff_toNat_lt, UInt8.reduceToNat]
    omega
  have notThree : ¬ first < 0xF0 := by
    simp only [UInt8.lt_iff_toNat_lt, UInt8.reduceToNat]
    omega
  have notHigh : ¬ 0xF8 ≤ first := by
    simp only [UInt8.le_iff_toNat_le, UInt8.reduceToNat]
    omega
  have valid : 0x10000 ≤ ((first.toNat % 8 * 64 + payload second) * 64 + payload third) * 64 +
        payload fourth ∧
      (((first.toNat % 8 * 64 + payload second) * 64 + payload third) * 64 +
        payload fourth).isValidChar := by
    simp only [payload, Nat.isValidChar]
    omega
  simp [decode, notOne, notLow, notTwo, notThree, notHigh, second_, third_, fourth_, scalar?, valid]

theorem length_undecoded {data : Bytes} (undecoded : decode (data.take (subpart data)) = none) :
    (data.take (subpart data)).length ≤ 3 := by
  refine (List.length_take_le _ _).trans ?_
  rw [subpart.eq_def] at undecoded ⊢
  split
  · next first second rest =>
      dsimp only at undecoded ⊢
      split
      · next asks =>
          rw [if_pos asks] at undecoded
          have most := continuations_le first
          have fewer : ((rest.take (continuations first - 1)).takeWhile isContinuation).length ≤
              (rest.take (continuations first - 1)).length :=
            (List.takeWhile_prefix isContinuation).length_le
          have short := List.length_take_le (continuations first - 1) rest
          by_contra long
          have three : continuations first = 3 := by omega
          rw [three] at undecoded long fewer
          cases rest with
          | nil => exact long (by decide)
          | cons third rest =>
              cases rest with
              | nil =>
                  simp only [Nat.add_one_sub_one, List.take_succ_cons, List.take_nil] at long fewer
                  simp at fewer
                  omega
              | cons fourth rest =>
                  simp only [Nat.add_one_sub_one, List.take_succ_cons, List.take_zero] at long undecoded
                  cases third_ : isContinuation third with
                  | false =>
                      rw [List.takeWhile_cons_of_neg (Bool.eq_false_iff.mp third_)] at long
                      exact long (by decide)
                  | true =>
                      cases fourth_ : isContinuation fourth with
                      | false =>
                          rw [List.takeWhile_cons_of_pos third_,
                            List.takeWhile_cons_of_neg (Bool.eq_false_iff.mp fourth_)] at long
                          exact long (by simp)
                      | true =>
                          rw [List.takeWhile_cons_of_pos third_, List.takeWhile_cons_of_pos fourth_]
                            at undecoded
                          exact decode_four_taken three asks.2.1 asks.2.2 third_ fourth_ undecoded
      · omega
  · omega

theorem stray_of_mem {fuel : Nat} {data bytes : Bytes}
    (member : Symbol.stray bytes ∈ symbolsFrom fuel data) : decode bytes = none ∧ bytes.length ≤ 3 := by
  induction fuel generalizing data with
  | zero => cases member
  | succ fuel induction =>
      cases data with
      | nil => cases member
      | cons first rest =>
          rw [symbolsFrom] at member
          · rcases List.mem_append.mp member with here | later
            · cases decoded : decode ((first :: rest).take (subpart (first :: rest))) with
              | none =>
                  rw [decoded] at here
                  cases List.mem_singleton.mp here
                  exact ⟨decoded, length_undecoded decoded⟩
              | some text =>
                  rw [decoded] at here
                  rcases List.mem_map.mp here with ⟨ch, -, differs⟩
                  cases differs
            · exact induction later
          · exact List.cons_ne_nil _ _

theorem length_flatMap_le {Item Byte : Type} {long short : Item → List Byte} {items : List Item}
    (least : ∀ item ∈ items, (short item).length ≤ (long item).length) :
    (items.flatMap short).length ≤ (items.flatMap long).length := by
  induction items with
  | nil => exact Nat.le_refl _
  | cons first rest induction =>
      have bounds := List.forall_mem_cons.mp least
      rw [List.flatMap_cons, List.flatMap_cons, List.length_append, List.length_append]
      exact Nat.add_le_add bounds.1 (induction bounds.2)

theorem eq_of_flatMap_eq {Item Byte : Type} {long short : Item → List Byte} {items : List Item}
    (least : ∀ item ∈ items, (short item).length ≤ (long item).length)
    (same : items.flatMap long = items.flatMap short) : ∀ item ∈ items, long item = short item := by
  induction items with
  | nil => exact fun _ absent => nomatch absent
  | cons first rest induction =>
      have bounds := List.forall_mem_cons.mp least
      have later := length_flatMap_le bounds.2
      rw [List.flatMap_cons, List.flatMap_cons] at same
      have lengths := congrArg List.length same
      rw [List.length_append, List.length_append] at lengths
      have parts := List.append_inj same (by omega)
      exact List.forall_mem_cons.mpr ⟨parts.1, induction bounds.2 parts.2⟩

theorem encode_shown_eq_iff {data : List Symbol}
    (strays : ∀ bytes, Symbol.stray bytes ∈ data → decode bytes = none ∧ bytes.length ≤ 3) :
    encode (data.map Symbol.shown) = data.flatMap Symbol.bytes ↔
      ∀ symbol ∈ data, symbol.isChar = true := by
  have written : encode (data.map Symbol.shown) =
      data.flatMap fun symbol => String.utf8EncodeChar symbol.shown := List.flatMap_map _ _ _
  rw [written]
  constructor
  · intro same symbol member
    have least : ∀ symbol ∈ data,
        symbol.bytes.length ≤ (String.utf8EncodeChar symbol.shown).length := by
      intro symbol member
      cases symbol with
      | char ch => exact Nat.le_refl _
      | stray bytes => exact (strays bytes member).2
    have equal := eq_of_flatMap_eq least same symbol member
    cases symbol with
    | char ch => rfl
    | stray bytes =>
        have read := decode_encode ['\uFFFD']
        have isEncoded : encode ['\uFFFD'] = bytes := (List.append_nil _).trans equal
        rw [isEncoded, (strays bytes member).1] at read
        cases read
  · intro chars
    apply List.flatMap_congr
    intro symbol member
    cases symbol with
    | char ch => rfl
    | stray bytes => cases chars _ member

end Utf8

end LlmHoneypot
