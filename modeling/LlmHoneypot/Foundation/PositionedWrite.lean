import Mathlib.Algebra.Order.Ring.Int
import Mathlib.Data.List.DropRight

/-! # Positioned writes

A file as the list of its bytes, written at any offset. A gap is filled with zeros. -/

namespace LlmHoneypot

namespace PositionedWrite

variable {Byte : Type} [Zero Byte]

def pwrite (file : List Byte) (offset : Nat) (data : List Byte) : List Byte :=
  if data = [] then file
  else
    (file ++ List.replicate (offset - file.length) 0).take offset ++ data ++
      file.drop (offset + data.length)

theorem length_pwrite (file data : List Byte) (offset : Nat) (some_ : data ≠ []) :
    (pwrite file offset data).length = max file.length (offset + data.length) := by
  unfold pwrite
  rw [if_neg some_]
  simp only [List.length_append, List.length_take, List.length_replicate, List.length_drop]
  omega

def Covers (file : List Byte) (offset : Nat) (data : List Byte) : Prop :=
  (data = [] ∨ offset ≤ file.length) ∧ file.length ≤ offset + data.length

instance [DecidableEq Byte] (file : List Byte) (offset : Nat) (data : List Byte) :
    Decidable (Covers file offset data) := inferInstanceAs (Decidable (_ ∧ _))

/-- To cut a file off at the offset and to append is a positioned write exactly where the
write reaches from the file to its end. -/
theorem take_append_eq_pwrite_iff {file data : List Byte} {offset : Nat} :
    file.take offset ++ data = pwrite file offset data ↔ Covers file offset data := by
  by_cases none_ : data = []
  · rw [none_, pwrite, if_pos rfl, List.append_nil]
    constructor
    · intro equal
      have lengths := congrArg List.length equal
      rw [List.length_take] at lengths
      refine ⟨.inl rfl, ?_⟩
      rw [List.length_nil]
      omega
    · intro covers
      exact List.take_of_length_le covers.2
  · constructor
    · intro equal
      have lengths := congrArg List.length equal
      rw [length_pwrite file data offset none_, List.length_append, List.length_take] at lengths
      constructor
      · right
        omega
      · omega
    · rintro ⟨begins, reaches⟩
      have inside : offset ≤ file.length := begins.resolve_left none_
      have noGap : offset - file.length = 0 := by omega
      rw [pwrite, if_neg none_, noGap, List.replicate_zero, List.append_nil,
        List.drop_of_length_le reaches, List.append_nil]

end PositionedWrite

end LlmHoneypot
