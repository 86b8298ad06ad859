import LlmHoneypot.Foundation.Text
import Mathlib.Data.List.Sort

/-! # Lists up to order

Sorted texts, lists with noise between their values, and the last value of a list. -/

namespace LlmHoneypot

namespace Reordering

/-! ## Sorted texts -/

def le : Str → Str → Bool
  | [], _ => true
  | _ :: _, [] => false
  | ch :: rest, other :: others =>
      decide (ch.toNat < other.toNat) || (decide (ch = other) && le rest others)

def sorted (texts : List Str) : List Str := texts.insertionSort fun text other => le text other

theorem le_total (text other : Str) : le text other = true ∨ le other text = true := by
  induction text generalizing other with
  | nil => exact .inl rfl
  | cons ch rest induction =>
      cases other with
      | nil => exact .inr rfl
      | cons first others =>
          simp only [le, Bool.or_eq_true, Bool.and_eq_true, decide_eq_true_eq]
          rcases lt_trichotomy ch.toNat first.toNat with less | same | more
          · exact .inl (.inl less)
          · have isFirst : ch = first := Char.toNat_inj.mp same
            rcases induction others with before | behind
            · exact .inl (.inr ⟨isFirst, before⟩)
            · exact .inr (.inr ⟨isFirst.symm, behind⟩)
          · exact .inr (.inl more)

theorem le_trans {text other third : Str} (first : le text other = true)
    (second : le other third = true) : le text third = true := by
  induction text generalizing other third with
  | nil => rfl
  | cons ch rest induction =>
      cases other with
      | nil => cases first
      | cons one others =>
          cases third with
          | nil => cases second
          | cons two thirds =>
              simp only [le, Bool.or_eq_true, Bool.and_eq_true, decide_eq_true_eq] at first second ⊢
              rcases first with less | ⟨same, before⟩
              · rcases second with less' | ⟨same', -⟩
                · exact .inl (less.trans less')
                · exact .inl (same' ▸ less)
              · rcases second with less' | ⟨same', before'⟩
                · exact .inl (same ▸ less')
                · exact .inr ⟨same.trans same', induction before before'⟩

theorem le_antisymm {text other : Str} (first : le text other = true)
    (second : le other text = true) : text = other := by
  induction text generalizing other with
  | nil =>
      cases other with
      | nil => rfl
      | cons one others => cases second
  | cons ch rest induction =>
      cases other with
      | nil => cases first
      | cons one others =>
          simp only [le, Bool.or_eq_true, Bool.and_eq_true, decide_eq_true_eq] at first second
          rcases first with less | ⟨same, before⟩
          · rcases second with less' | ⟨same', -⟩
            · exact absurd (less.trans less') (lt_irrefl _)
            · exact absurd (same' ▸ less) (lt_irrefl _)
          · rcases second with less' | ⟨-, before'⟩
            · exact absurd (same ▸ less') (lt_irrefl _)
            · rw [same, induction before before']

theorem sorted_perm (texts : List Str) : (sorted texts).Perm texts := List.perm_insertionSort _ _

theorem sorted_pairwise (texts : List Str) :
    (sorted texts).Pairwise fun text other => le text other = true := by
  have : Std.Total fun text other : Str => le text other = true := ⟨le_total⟩
  have : IsTrans Str fun text other => le text other = true := ⟨fun _ _ _ => le_trans⟩
  exact List.pairwise_insertionSort _ _

theorem sorted_eq_of_perm {texts others : List Str} (reordered : texts.Perm others) :
    sorted texts = sorted others := by
  apply List.Perm.eq_of_pairwise (fun _ _ _ _ => le_antisymm) (sorted_pairwise texts)
    (sorted_pairwise others)
  exact (sorted_perm texts).trans (reordered.trans (sorted_perm others).symm)

theorem sorted_eq_nil_iff {texts : List Str} : sorted texts = [] ↔ texts = [] := by
  rw [← List.length_eq_zero_iff, (sorted_perm texts).length_eq, List.length_eq_zero_iff]

/-! ## Noise -/

section

variable {Value : Type} {noise : Value → Prop} {values others : List Value}

def Scrambled (noise : Value → Prop) (values others : List Value) : Prop :=
  ∃ added : List Value, (∀ value ∈ added, noise value) ∧ others.Perm (values ++ added)

inductive Inserted (noise : Value → Prop) : List Value → List Value → Prop
  | nil : Inserted noise [] []
  | keep (value : Value) {values others : List Value} (later : Inserted noise values others) :
      Inserted noise (value :: values) (value :: others)
  | insert {value : Value} (isNoise : noise value) {values others : List Value}
      (later : Inserted noise values others) : Inserted noise values (value :: others)

theorem Scrambled.filter (scrambled : Scrambled noise values others) {keep : Value → Bool}
    (drops : ∀ value, noise value → keep value = false) :
    (others.filter keep).Perm (values.filter keep) := by
  rcases scrambled with ⟨added, areNoise, reordered⟩
  have dropped : added.filter keep = [] :=
    List.filter_eq_nil_iff.mpr fun value member kept => by
      rw [drops value (areNoise value member)] at kept
      cases kept
  have kept := reordered.filter keep
  rw [List.filter_append, dropped, List.append_nil] at kept
  exact kept

theorem Inserted.refl (values : List Value) : Inserted noise values values := by
  induction values with
  | nil => exact .nil
  | cons value values induction => exact .keep value induction

theorem Inserted.longer (inserted : Inserted noise values others) :
    others = values ∨ values.length < others.length := by
  induction inserted with
  | nil => exact .inl rfl
  | keep value later induction =>
      rcases induction with same | longer
      · exact .inl (by rw [same])
      · exact .inr (Nat.succ_lt_succ longer)
  | insert isNoise later induction =>
      rcases induction with same | longer
      · rw [same]
        exact .inr (Nat.lt_succ_self _)
      · exact .inr (longer.trans (Nat.lt_succ_self _))

end

/-! ## The last value -/

section

variable {Item Value View : Type}

def last? : List (Option Value) → Option Value
  | [] => none
  | value :: values => (last? values).or value

theorem last?_append (values more : List (Option Value)) :
    last? (values ++ more) = (last? more).or (last? values) := by
  induction values with
  | nil => rw [List.nil_append, last?, Option.or_none]
  | cons value values induction =>
      rw [List.cons_append, last?, induction, last?, Option.or_assoc]

theorem last?_mem {values : List (Option Value)} {value : Value} (isLast : last? values = some value) :
    some value ∈ values := by
  induction values with
  | nil => cases isLast
  | cons first values induction =>
      rw [last?] at isLast
      cases later : last? values with
      | none =>
          rw [later, Option.none_or] at isLast
          exact isLast ▸ List.mem_cons_self
      | some found =>
          rw [later, Option.some_or] at isLast
          exact List.mem_cons_of_mem _ (induction (later.trans isLast))

theorem last?_eq_none_iff {values : List (Option Value)} :
    last? values = none ↔ ∀ value ∈ values, value = none := by
  induction values with
  | nil => simp [last?]
  | cons first values induction =>
      rw [last?, Option.or_eq_none_iff, induction, List.forall_mem_cons, and_comm]

theorem last?_reordered_iff (read : Item → Option Value) (view : Option Value → View)
    (items : List Item) :
    (∀ items' : List Item, items'.Perm items →
        view (last? (items'.map read)) = view (last? (items.map read))) ↔
      ∀ item ∈ items, ∀ other ∈ items, ∀ value value', read item = some value →
        read other = some value' → view (some value) = view (some value') := by
  constructor
  · intro same
    have moved : ∀ item ∈ items, ∀ value, read item = some value →
        view (some value) = view (last? (items.map read)) := by
      intro item member value isValue
      rcases List.mem_iff_append.mp member with ⟨front, behind, isItems⟩
      have atEnd := same (front ++ behind ++ [item]) (by
        rw [isItems, List.append_assoc]
        exact (List.perm_append_singleton item behind).append_left front)
      rw [List.map_append, last?_append, List.map_singleton, isValue] at atEnd
      exact atEnd
    intro item member other member' value value' isValue isValue'
    exact (moved item member value isValue).trans (moved other member' value' isValue').symm
  · intro agree items' reordered
    cases isLast : last? (items'.map read) with
    | none =>
        have nothing : last? (items.map read) = none :=
          last?_eq_none_iff.mpr fun value member =>
            last?_eq_none_iff.mp isLast value ((reordered.map read).mem_iff.mpr member)
        rw [nothing]
    | some value =>
        rcases List.mem_map.mp (last?_mem isLast) with ⟨item, member, isValue⟩
        cases isLast' : last? (items.map read) with
        | none =>
            have nothing := last?_eq_none_iff.mp isLast' _
              (List.mem_map_of_mem (reordered.mem_iff.mp member))
            rw [isValue] at nothing
            cases nothing
        | some value' =>
            rcases List.mem_map.mp (last?_mem isLast') with ⟨other, member', isValue'⟩
            exact agree item (reordered.mem_iff.mp member) other member' value value' isValue isValue'

end

end Reordering

end LlmHoneypot
