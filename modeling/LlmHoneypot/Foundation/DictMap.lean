import LlmHoneypot.Foundation.Dict

/-! # Changes to all entries of a dictionary -/

namespace LlmHoneypot

namespace Dict

variable {Key Value Other : Type}

def size (dict : Dict Key Value) : Nat := dict.entries.length

def mapValues (dict : Dict Key Value) (change : Value → Other) : Dict Key Other :=
  ⟨dict.entries.map fun entry => (entry.1, change entry.2), by
    rw [List.map_map]
    exact dict.nodup⟩

def filterValues (dict : Dict Key Value) (kept : Value → Bool) : Dict Key Value :=
  ⟨dict.entries.filter (kept ·.2), dict.nodup.sublist (List.filter_sublist.map _)⟩

variable [DecidableEq Key]

theorem get?_mapValues (dict : Dict Key Value) (change : Value → Other) (key : Key) :
    (dict.mapValues change).get? key = (dict.get? key).map change := by
  simp only [get?, mapValues, List.find?_map, Option.map_map]
  rfl

theorem get?_filterValues (dict : Dict Key Value) (kept : Value → Bool) (key : Key) :
    (dict.filterValues kept).get? key = (dict.get? key).filter kept := by
  apply Option.ext
  intro value
  rw [← mem_entries_iff, filterValues, List.mem_filter, mem_entries_iff, Option.filter_eq_some_iff]

/-- `for key in keys: del dict[key]`. -/
def eraseAll (dict : Dict Key Value) (keys : List Key) : Dict Key Value := keys.foldl erase dict

theorem get?_eraseAll (dict : Dict Key Value) (keys : List Key) (key : Key) :
    (dict.eraseAll keys).get? key = if key ∈ keys then none else dict.get? key := by
  induction keys generalizing dict with
  | nil => rfl
  | cons first rest induction =>
      rw [eraseAll, List.foldl_cons, ← eraseAll, induction, get?_erase]
      by_cases inRest : key ∈ rest
      · rw [if_pos inRest, if_pos (List.mem_cons_of_mem _ inRest)]
      · by_cases isFirst : key = first
        · simp [isFirst]
        · simp [inRest, isFirst]

/-! ## Updates -/

def setAll (dict : Dict Key Value) (entries : List (Key × Value)) : Dict Key Value :=
  entries.foldl (fun dict entry => dict.set entry.1 entry.2) dict

def ofEntries (entries : List (Key × Value)) : Dict Key Value := empty.setAll entries

def update (dict other : Dict Key Value) : Dict Key Value := dict.setAll other.entries

theorem get?_setAll (dict : Dict Key Value) {entries : List (Key × Value)}
    (distinct : (entries.map Prod.fst).Nodup) (key : Key) :
    (dict.setAll entries).get? key =
      ((entries.find? (·.1 = key)).map Prod.snd).or (dict.get? key) := by
  induction entries generalizing dict with
  | nil => rfl
  | cons entry rest induction =>
      rw [List.map_cons, List.nodup_cons] at distinct
      rw [setAll, List.foldl_cons, ← setAll, induction _ distinct.2, get?_set]
      by_cases same : entry.1 = key
      · have absent : rest.find? (·.1 = key) = none := by
          rw [List.find?_eq_none]
          intro other member equal
          have shared : other.1 = entry.1 := (of_decide_eq_true equal).trans same.symm
          exact distinct.1 (List.mem_map.mpr ⟨other, member, shared⟩)
        rw [absent, if_pos same.symm, List.find?_cons_of_pos (by simpa using same)]
        rfl
      · rw [if_neg (Ne.symm same), List.find?_cons_of_neg (by simpa using same)]

theorem mem_keys_setAll (dict : Dict Key Value) (entries : List (Key × Value)) (key : Key) :
    key ∈ (dict.setAll entries).keys ↔ key ∈ entries.map Prod.fst ∨ key ∈ dict.keys := by
  induction entries generalizing dict with
  | nil => simp [setAll]
  | cons entry rest induction =>
      rw [setAll, List.foldl_cons, ← setAll, induction, mem_keys_set, List.map_cons, List.mem_cons]
      tauto

theorem entries_setAll (dict : Dict Key Value) {entries : List (Key × Value)}
    (distinct : (entries.map Prod.fst).Nodup) (fresh : ∀ entry ∈ entries, entry.1 ∉ dict.keys) :
    (dict.setAll entries).entries = dict.entries ++ entries := by
  induction entries generalizing dict with
  | nil => exact (List.append_nil _).symm
  | cons entry rest induction =>
      rw [List.map_cons, List.nodup_cons] at distinct
      have absent := List.forall_mem_cons.mp fresh
      have appended : (dict.set entry.1 entry.2).entries = dict.entries ++ [entry] := by
        rw [set, dif_neg absent.1]
      rw [setAll, List.foldl_cons, ← setAll, induction _ distinct.2, appended, List.append_assoc]
      · rfl
      · intro other member
        rw [mem_keys_set]
        rintro (same | present)
        · exact distinct.1 (List.mem_map.mpr ⟨other, member, same⟩)
        · exact absent.2 other member present

theorem get?_update (dict other : Dict Key Value) (key : Key) :
    (dict.update other).get? key = (other.get? key).or (dict.get? key) :=
  get?_setAll dict other.nodup key

/-! ## Sizes -/

theorem size_set (dict : Dict Key Value) (key : Key) (value : Value) :
    (dict.set key value).size = if key ∈ dict.keys then dict.size else dict.size + 1 := by
  rw [size, set]
  split
  · exact List.length_map _
  · rw [List.length_append]
    rfl

theorem size_erase {dict : Dict Key Value} {key : Key} (present : key ∈ dict.keys) :
    (dict.erase key).size + 1 = dict.size := by
  have once : (dict.entries.filter fun entry => entry.1 = key).length = 1 := by
    have counted := List.count_eq_one_of_mem dict.nodup present
    rw [List.count_eq_length_filter, List.filter_map, List.length_map] at counted
    rw [← counted]
    congr 1
  have split := List.length_eq_length_filter_add (l := dict.entries) fun entry => decide (entry.1 = key)
  have kept : (dict.erase key).entries =
      dict.entries.filter fun entry => !decide (entry.1 = key) := by simp [erase]
  rw [size, size, kept, split, once, Nat.add_comm]

theorem size_eraseAll {dict : Dict Key Value} {keys : List Key} (distinct : keys.Nodup)
    (present : ∀ key ∈ keys, key ∈ dict.keys) :
    (dict.eraseAll keys).size + keys.length = dict.size := by
  induction keys generalizing dict with
  | nil => rfl
  | cons first rest induction =>
      rw [List.nodup_cons] at distinct
      rw [List.forall_mem_cons] at present
      have still : ∀ key ∈ rest, key ∈ (dict.erase first).keys := by
        intro key member
        rw [mem_keys_erase]
        refine ⟨?_, present.2 key member⟩
        rintro rfl
        exact distinct.1 member
      have sizeRest := induction distinct.2 still
      have sizeFirst := size_erase present.1
      rw [eraseAll, List.foldl_cons, ← eraseAll, List.length_cons]
      omega

end Dict

end LlmHoneypot
