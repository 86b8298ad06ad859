import Mathlib.Algebra.Order.Ring.Int
import Mathlib.Data.List.Nodup

/-! # Lists of entries with partial keys

Entries that may have a key, in a list where no two have the same one. -/

namespace LlmHoneypot

namespace KeyedList

variable {Entry Key : Type}

def UniqueKeys (key : Entry → Option Key) (entries : List Entry) : Prop :=
  (entries.filterMap key).Nodup

section Definitions

variable [DecidableEq Key]

/-- The loop that compares the keys, and raises for an entry that has none. -/
def lookup (key : Entry → Option Key) (wanted : Key) : List Entry → Option Entry
  | [] => none
  | entry :: rest =>
      match key entry with
      | none => none
      | some found => if found = wanted then some entry else lookup key wanted rest

def revise (key : Entry → Option Key) (wanted : Key) (change : Entry → Entry)
    (entries : List Entry) : List Entry :=
  entries.map fun entry => if key entry = some wanted then change entry else entry

def discard (key : Entry → Option Key) (wanted : Key) (entries : List Entry) : List Entry :=
  entries.filter fun entry => decide (key entry ≠ some wanted)

end Definitions

variable {key : Entry → Option Key} {wanted : Key} {entries rest : List Entry} {entry : Entry}

/-! ## Uniqueness -/

theorem UniqueKeys.tail (unique : UniqueKeys key (entry :: rest)) : UniqueKeys key rest := by
  unfold UniqueKeys at unique ⊢
  rw [List.filterMap_cons] at unique
  split at unique
  · exact unique
  · exact (List.nodup_cons.mp unique).2

theorem UniqueKeys.head (unique : UniqueKeys key (entry :: rest)) (here : key entry = some wanted) :
    ∀ other ∈ rest, key other ≠ some wanted := by
  intro other member there
  unfold UniqueKeys at unique
  rw [List.filterMap_cons_some here] at unique
  exact (List.nodup_cons.mp unique).1 (List.mem_filterMap.mpr ⟨other, member, there⟩)

theorem UniqueKeys.eq_of_key {other : Entry} (unique : UniqueKeys key entries)
    (member : entry ∈ entries) (here : key entry = some wanted)
    (otherMember : other ∈ entries) (there : key other = some wanted) : entry = other := by
  induction entries with
  | nil => cases member
  | cons first rest induction =>
      rcases List.mem_cons.mp member with rfl | later
      · rcases List.mem_cons.mp otherMember with rfl | otherLater
        · rfl
        · exact absurd there (unique.head here other otherLater)
      · rcases List.mem_cons.mp otherMember with rfl | otherLater
        · exact absurd here (unique.head there entry later)
        · exact induction unique.tail later otherLater

theorem UniqueKeys.filter (unique : UniqueKeys key entries) (kept : Entry → Bool) :
    UniqueKeys key (entries.filter kept) :=
  List.Nodup.sublist (List.filter_sublist.filterMap key) unique

theorem UniqueKeys.append_singleton (unique : UniqueKeys key entries)
    (fresh : ∀ taken, key entry = some taken → ∀ other ∈ entries, key other ≠ some taken) :
    UniqueKeys key (entries ++ [entry]) := by
  unfold UniqueKeys
  rw [List.filterMap_append]
  apply List.Nodup.append unique
  · rw [List.filterMap_cons]
    split
    · exact List.nodup_nil
    · exact List.nodup_singleton _
  · intro taken before now
    rcases List.mem_filterMap.mp before with ⟨other, member, there⟩
    rcases List.mem_filterMap.mp now with ⟨same, isLast, here⟩
    rw [List.mem_singleton.mp isLast] at here
    exact fresh taken here other member there

/-! ## Changes -/

section Changes

variable [DecidableEq Key]

theorem revise_of_absent {change : Entry → Entry}
    (absent : ∀ other ∈ entries, key other ≠ some wanted) :
    revise key wanted change entries = entries := by
  have same : ∀ other ∈ entries, (if key other = some wanted then change other else other) = other :=
    fun other member => if_neg (absent other member)
  rw [revise, List.map_congr_left same, List.map_id']

theorem discard_of_absent (absent : ∀ other ∈ entries, key other ≠ some wanted) :
    discard key wanted entries = entries :=
  List.filter_eq_self.mpr fun other member => decide_eq_true (absent other member)

theorem replace_eq_revise [DecidableEq Entry] {change : Entry → Entry}
    (unique : UniqueKeys key entries) (member : entry ∈ entries) (here : key entry = some wanted) :
    entries.replace entry (change entry) = revise key wanted change entries := by
  induction entries with
  | nil => cases member
  | cons first rest induction =>
      rw [List.replace_cons, revise, List.map_cons]
      by_cases same : entry = first
      · rw [← same, if_pos here]
        rw [← same] at unique
        simp only [beq_self_eq_true]
        exact congrArg _ (revise_of_absent (unique.head here)).symm
      · have later : entry ∈ rest := (List.mem_cons.mp member).resolve_left same
        have differs : key first ≠ some wanted := fun isFirst => unique.head isFirst entry later here
        rw [if_neg differs, beq_false_of_ne same]
        exact congrArg _ (induction unique.tail later)

theorem erase_eq_discard [DecidableEq Entry] (unique : UniqueKeys key entries)
    (member : entry ∈ entries) (here : key entry = some wanted) :
    entries.erase entry = discard key wanted entries := by
  induction entries with
  | nil => cases member
  | cons first rest induction =>
      rw [List.erase_cons, discard, List.filter_cons]
      by_cases same : first = entry
      · rw [same, if_pos (beq_self_eq_true _), if_neg (by simp [here])]
        rw [same] at unique
        exact (discard_of_absent (unique.head here)).symm
      · have later : entry ∈ rest := (List.mem_cons.mp member).resolve_left (Ne.symm same)
        have differs : key first ≠ some wanted := fun isFirst => unique.head isFirst entry later here
        rw [if_neg (by simp [same]), if_pos (decide_eq_true differs)]
        exact congrArg _ (induction unique.tail later)

theorem discard_revise {change : Entry → Entry} (kept : ∀ entry, key (change entry) = key entry) :
    discard key wanted (revise key wanted change entries) = discard key wanted entries := by
  induction entries with
  | nil => rfl
  | cons first rest induction =>
      by_cases here : key first = some wanted
      · simpa [discard, revise, here, kept] using induction
      · simpa [discard, revise, here] using induction

theorem filter_revise {change : Entry → Entry} {kept : Entry → Bool}
    (same : ∀ entry, kept (change entry) = kept entry) :
    (revise key wanted change entries).filter kept =
      revise key wanted change (entries.filter kept) := by
  rw [revise, List.filter_map, revise]
  have agree : (kept ∘ fun entry => if key entry = some wanted then change entry else entry) = kept := by
    funext entry
    dsimp only [Function.comp]
    split
    · exact same entry
    · rfl
  rw [agree]

theorem filter_discard (kept : Entry → Bool) :
    (discard key wanted entries).filter kept = discard key wanted (entries.filter kept) := by
  rw [discard, discard, List.filter_comm]

theorem map_revise {Image : Type} {image : Entry → Image} {imageKey : Image → Option Key}
    {change : Entry → Entry} {imageChange : Image → Image}
    (keys : ∀ entry, imageKey (image entry) = key entry)
    (changes : ∀ entry, image (change entry) = imageChange (image entry)) :
    (revise key wanted change entries).map image =
      revise imageKey wanted imageChange (entries.map image) := by
  rw [revise, revise, List.map_map, List.map_map]
  apply List.map_congr_left
  intro entry _
  simp only [Function.comp, keys]
  split
  · exact changes entry
  · rfl

theorem map_discard {Image : Type} {image : Entry → Image} {imageKey : Image → Option Key}
    (keys : ∀ entry, imageKey (image entry) = key entry) :
    (discard key wanted entries).map image = discard imageKey wanted (entries.map image) := by
  rw [discard, discard, List.filter_map]
  congr 1
  apply List.filter_congr
  intro entry _
  rw [Function.comp_apply, keys]

theorem UniqueKeys.revise {other : Entry → Option Key} {change : Entry → Entry}
    (unique : UniqueKeys key entries) (kept : ∀ entry, key (change entry) = key entry) :
    UniqueKeys key (revise other wanted change entries) := by
  have same : key ∘ (fun entry => if other entry = some wanted then change entry else entry) =
      key := by
    funext entry
    dsimp only [Function.comp]
    split
    · exact kept entry
    · rfl
  rw [UniqueKeys, KeyedList.revise, List.filterMap_map, same]
  exact unique

theorem UniqueKeys.assign {other : Entry → Option Key} {change : Entry → Entry} {fresh : Key}
    (unique : UniqueKeys key entries) (found : UniqueKeys other entries)
    (absent : ∀ entry ∈ entries, key entry ≠ some fresh)
    (given : ∀ entry, key (change entry) = some fresh) :
    UniqueKeys key (KeyedList.revise other wanted change entries) := by
  induction entries with
  | nil => exact unique
  | cons first rest induction =>
      have absentLater : ∀ entry ∈ rest, key entry ≠ some fresh :=
        fun entry member => absent entry (List.mem_cons_of_mem _ member)
      unfold UniqueKeys
      rw [KeyedList.revise, List.map_cons]
      by_cases here : other first = some wanted
      · have later := @revise_of_absent _ _ _ _ _ _ change (found.head here)
        rw [KeyedList.revise] at later
        rw [if_pos here, List.filterMap_cons_some (given first), later, List.nodup_cons]
        refine ⟨?_, unique.tail⟩
        intro member
        rcases List.mem_filterMap.mp member with ⟨entry, inside, same⟩
        exact absentLater entry inside same
      · rw [if_neg here, List.filterMap_cons]
        have later := induction unique.tail found.tail absentLater
        split
        · exact later
        · next taken isTaken =>
          rw [List.nodup_cons]
          refine ⟨?_, later⟩
          intro member
          rcases List.mem_filterMap.mp member with ⟨changed, inside, same⟩
          rcases List.mem_map.mp inside with ⟨entry, isThere, rfl⟩
          split at same
          · have equal : fresh = taken := Option.some.inj ((given entry).symm.trans same)
            exact absent first (List.mem_cons_self ..) (equal ▸ isTaken)
          · exact unique.head isTaken entry isThere same

end Changes

/-! ## Lookup -/

theorem lookup_eq_some [DecidableEq Key] (found : lookup key wanted entries = some entry) :
    entry ∈ entries ∧ key entry = some wanted := by
  induction entries with
  | nil => cases found
  | cons first rest induction =>
      rw [lookup] at found
      split at found
      · cases found
      · next other isOther =>
        split at found
        · next same =>
          cases found
          exact ⟨List.mem_cons_self .., isOther.trans (congrArg some same)⟩
        · have later := induction found
          exact ⟨List.mem_cons_of_mem _ later.1, later.2⟩

theorem map_lookup [DecidableEq Key] {Image : Type} {image : Entry → Image} {imageKey : Image → Option Key}
    (keys : ∀ entry, imageKey (image entry) = key entry) :
    (lookup key wanted entries).map image = lookup imageKey wanted (entries.map image) := by
  induction entries with
  | nil => rfl
  | cons first rest induction =>
      rw [List.map_cons, lookup, lookup, keys]
      split
      · rfl
      · split
        · rfl
        · exact induction

/-- Of the entries that are kept, everything before the wanted one has a key. -/
def Reachable (key : Entry → Option Key) (kept : Entry → Bool) (wanted : Key)
    (entries : List Entry) : Prop :=
  ∀ before entry after, entries = before ++ entry :: after → key entry = some wanted →
    kept entry = true ∧ ∀ earlier ∈ before, kept earlier = true → (key earlier).isSome

theorem reachable_cons_of_ne {kept : Entry → Bool} (differs : key entry ≠ some wanted) :
    Reachable key kept wanted (entry :: rest) ↔
      Reachable key kept wanted rest ∧
        (kept entry = true → key entry = none → ∀ other ∈ rest, key other ≠ some wanted) := by
  constructor
  · intro reachable
    constructor
    · intro before found after split isWanted
      have whole := reachable (entry :: before) found after (congrArg _ split) isWanted
      exact ⟨whole.1, fun earlier member => whole.2 earlier (List.mem_cons_of_mem _ member)⟩
    · intro isKept keyless other member isWanted
      rcases List.append_of_mem member with ⟨before, after, split⟩
      have whole := reachable (entry :: before) other after (congrArg _ split) isWanted
      have keyed := whole.2 entry (List.mem_cons_self ..) isKept
      rw [keyless] at keyed
      cases keyed
  · rintro ⟨later, first⟩ before found after split isWanted
    cases before with
    | nil =>
        cases split
        exact absurd isWanted differs
    | cons head before =>
        cases split
        have below := later before found after rfl isWanted
        refine ⟨below.1, ?_⟩
        intro earlier member isKept
        rcases List.mem_cons.mp member with rfl | inside
        · rw [Option.isSome_iff_ne_none]
          intro keyless
          exact first isKept keyless found (by simp) isWanted
        · exact below.2 earlier inside isKept

/-- Among the entries that are kept the loop finds the entry under a key exactly when it
is kept and no keyless one before it is. -/
theorem lookup_filter_eq_find?_iff [DecidableEq Key] {kept : Entry → Bool} (unique : UniqueKeys key entries) :
    lookup key wanted (entries.filter kept) = entries.find? (fun entry => key entry = some wanted) ↔
      Reachable key kept wanted entries := by
  induction entries with
  | nil => simp [lookup, Reachable]
  | cons first rest induction =>
      by_cases here : key first = some wanted
      · have absent := unique.head here
        rw [List.find?_cons_of_pos (by simp [here])]
        by_cases isKept : kept first = true
        · rw [List.filter_cons_of_pos isKept, lookup, here]
          simp only [if_true, true_iff]
          intro before entry after split isWanted
          cases before with
          | nil =>
              cases split
              exact ⟨isKept, by simp⟩
          | cons head before =>
              cases split
              exact absurd isWanted (absent entry (by simp))
        · rw [List.filter_cons_of_neg isKept]
          constructor
          · intro found
            have inside := (lookup_eq_some found).1
            exact absurd here (absent first (List.mem_of_mem_filter inside))
          · intro reachable
            exact absurd (reachable [] first rest rfl here).1 isKept
      · rw [List.find?_cons_of_neg (by simp [here]), reachable_cons_of_ne here,
          ← induction unique.tail]
        by_cases isKept : kept first = true
        · rw [List.filter_cons_of_pos isKept, lookup]
          cases isKey : key first with
          | none =>
              have unfound : (none = rest.find? fun entry => key entry = some wanted) ↔
                  ∀ other ∈ rest, key other ≠ some wanted := by
                rw [eq_comm, List.find?_eq_none]
                simp
              rw [unfound]
              constructor
              · intro absent
                refine ⟨?_, fun _ _ => absent⟩
                rw [unfound.mpr absent |>.symm]
                cases found : lookup key wanted (rest.filter kept) with
                | none => rfl
                | some entry =>
                    have inside := lookup_eq_some found
                    exact absurd inside.2 (absent entry (List.mem_of_mem_filter inside.1))
              · intro both
                exact both.2 isKept rfl
          | some found =>
              have differs : found ≠ wanted := fun same => here (isKey.trans (congrArg some same))
              simp [differs]
        · rw [List.filter_cons_of_neg isKept]
          simp [isKept]

end KeyedList

end LlmHoneypot
