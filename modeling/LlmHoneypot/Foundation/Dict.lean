import Mathlib.Algebra.Order.Ring.Int
import Mathlib.Data.List.Nodup

/-! # Insertion-ordered dictionaries

A finite map that keeps its keys in the order of their first insertion, as
Python's `dict` does. Distinctness of the keys is part of the value. -/

namespace LlmHoneypot

structure Dict (Key Value : Type) where
  entries : List (Key × Value)
  nodup : (entries.map Prod.fst).Nodup

namespace Dict

variable {Key Value : Type}

def empty : Dict Key Value := ⟨[], .nil⟩

instance : Inhabited (Dict Key Value) := ⟨empty⟩

instance [DecidableEq Key] [DecidableEq Value] : DecidableEq (Dict Key Value) :=
  fun left right =>
    decidable_of_iff (left.entries = right.entries)
      ⟨fun equal => by cases left; cases right; cases equal; rfl,
        fun equal => congrArg entries equal⟩

def keys (dict : Dict Key Value) : List Key := dict.entries.map Prod.fst

def values (dict : Dict Key Value) : List Value := dict.entries.map Prod.snd

variable [DecidableEq Key]

def get? (dict : Dict Key Value) (key : Key) : Option Value :=
  (dict.entries.find? (·.1 = key)).map Prod.snd

private def overwrite (key : Key) (value : Value) (entry : Key × Value) :
    Key × Value :=
  if entry.1 = key then (key, value) else entry

private theorem overwrite_fst (key : Key) (value : Value) (entry : Key × Value) :
    (overwrite key value entry).1 = entry.1 := by
  unfold overwrite
  split
  · rename_i equal
    exact equal.symm
  · rfl

/-- `dict[key] = value`: a present key keeps its place, a new one goes last. -/
def set (dict : Dict Key Value) (key : Key) (value : Value) : Dict Key Value :=
  if present : key ∈ dict.keys then
    ⟨dict.entries.map (overwrite key value), by
      have sameKeys : Prod.fst ∘ overwrite key value = (Prod.fst : Key × Value → Key) :=
        funext (overwrite_fst key value)
      rw [List.map_map, sameKeys]
      exact dict.nodup⟩
  else
    ⟨dict.entries ++ [(key, value)], by
      rw [List.map_append]
      refine List.Nodup.append dict.nodup (by simp) ?_
      intro other member single
      have equal : other = key := by simpa using single
      subst equal
      exact present member⟩

def erase (dict : Dict Key Value) (key : Key) : Dict Key Value :=
  ⟨dict.entries.filter (·.1 ≠ key), dict.nodup.sublist (List.filter_sublist.map _)⟩

/-! ## Lookup -/

theorem mem_entries_iff {dict : Dict Key Value} {key : Key} {value : Value} :
    (key, value) ∈ dict.entries ↔ dict.get? key = some value := by
  rcases dict with ⟨entries, nodup⟩
  simp only [get?]
  induction entries with
  | nil => simp
  | cons entry rest induction =>
      rcases entry with ⟨first, stored⟩
      have fresh := List.nodup_cons.mp nodup
      by_cases same : first = key
      · subst same
        have absent : (first, value) ∉ rest := fun member =>
          fresh.1 (List.mem_map.mpr ⟨_, member, rfl⟩)
        simp [absent, eq_comm]
      · rw [List.find?_cons_of_neg (by simpa using same), List.mem_cons,
          ← induction fresh.2]
        simp [Ne.symm same]

theorem mem_keys_iff {dict : Dict Key Value} {key : Key} :
    key ∈ dict.keys ↔ ∃ value, dict.get? key = some value := by
  simp only [keys, List.mem_map, Prod.exists, exists_and_right, exists_eq_right, mem_entries_iff]

theorem get?_eq_none_iff {dict : Dict Key Value} {key : Key} :
    dict.get? key = none ↔ key ∉ dict.keys := by
  rw [mem_keys_iff, Option.eq_none_iff_forall_ne_some]
  simp

theorem mem_entries_set {dict : Dict Key Value} {key other : Key} {value stored : Value} :
    (other, stored) ∈ (dict.set key value).entries ↔
      (other = key ∧ stored = value) ∨ (other ≠ key ∧ (other, stored) ∈ dict.entries) := by
  unfold set
  split
  · rename_i present
    rw [List.mem_map]
    constructor
    · rintro ⟨⟨first, held⟩, member, equal⟩
      unfold overwrite at equal
      split at equal
      · cases equal
        exact .inl ⟨rfl, rfl⟩
      · rename_i differs
        cases equal
        exact .inr ⟨differs, member⟩
    · rintro (⟨rfl, rfl⟩ | ⟨differs, member⟩)
      · rcases List.mem_map.mp present with ⟨entry, member, equal⟩
        exact ⟨entry, member, by simp [overwrite, equal]⟩
      · exact ⟨(other, stored), member, by simp [overwrite, differs]⟩
  · rename_i absent
    rw [List.mem_append, List.mem_singleton]
    constructor
    · rintro (member | equal)
      · refine .inr ⟨?_, member⟩
        rintro rfl
        exact absent (List.mem_map_of_mem member)
      · cases equal
        exact .inl ⟨rfl, rfl⟩
    · rintro (⟨rfl, rfl⟩ | ⟨-, member⟩)
      · exact .inr rfl
      · exact .inl member

theorem get?_set (dict : Dict Key Value) (key other : Key) (value : Value) :
    (dict.set key value).get? other = if other = key then some value else dict.get? other := by
  apply Option.ext
  intro stored
  rw [← mem_entries_iff, mem_entries_set, mem_entries_iff]
  by_cases same : other = key
  · simp [same, eq_comm]
  · simp [same]

theorem get?_erase (dict : Dict Key Value) (key other : Key) :
    (dict.erase key).get? other = if other = key then none else dict.get? other := by
  apply Option.ext
  intro stored
  rw [← mem_entries_iff, erase, List.mem_filter, mem_entries_iff]
  by_cases same : other = key
  · simp [same]
  · simp [same]

@[simp] theorem mem_keys_set {dict : Dict Key Value} {key other : Key} {value : Value} :
    other ∈ (dict.set key value).keys ↔ other = key ∨ other ∈ dict.keys := by
  rw [mem_keys_iff, get?_set, mem_keys_iff]
  by_cases same : other = key
  · simp [same]
  · simp [same]

@[simp] theorem mem_keys_erase {dict : Dict Key Value} {key other : Key} :
    other ∈ (dict.erase key).keys ↔ other ≠ key ∧ other ∈ dict.keys := by
  rw [mem_keys_iff, get?_erase, mem_keys_iff]
  by_cases same : other = key
  · simp [same]
  · simp [same]

theorem find?_set (dict : Dict Key Value) (key : Key) (value : Value) (wanted : Key → Bool) :
    (dict.set key value).entries.find? (wanted ·.1) =
      match dict.entries.find? (wanted ·.1) with
      | some entry => some (if entry.1 = key then (key, value) else entry)
      | none => if wanted key then some (key, value) else none := by
  unfold set
  split
  · next present =>
    have sameKeys : (fun entry : Key × Value => wanted entry.1) ∘ overwrite key value =
        (wanted ·.1) := funext fun entry => congrArg wanted (overwrite_fst key value entry)
    rw [List.find?_map, sameKeys]
    cases found : dict.entries.find? (wanted ·.1) with
    | some entry => rfl
    | none =>
        rcases List.mem_map.mp present with ⟨entry, member, same⟩
        have unwanted := List.find?_eq_none.mp found entry member
        rw [same] at unwanted
        simp [unwanted]
  · rw [List.find?_append]
    next absent =>
    cases found : dict.entries.find? (wanted ·.1) with
    | some entry =>
        have differs : entry.1 ≠ key := by
          intro same
          exact absent (same ▸ List.mem_map_of_mem (List.mem_of_find?_eq_some found))
        simp [differs]
    | none =>
        simp only [Option.none_or, List.find?_singleton]

end Dict

end LlmHoneypot
