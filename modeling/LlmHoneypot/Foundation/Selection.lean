import Mathlib.Data.List.Sort

/-! # Ranges of positions

Ranges of the places of a list, counted from 1, as a set of places and as places taken range by
range. -/

namespace LlmHoneypot

structure Range where
  first : Nat
  last : Option Nat
  positive : 0 < first
  ordered : ∀ place ∈ last, first ≤ place

namespace Range

def holds (range : Range) (place : Nat) : Bool :=
  range.first ≤ place && range.last.all (place ≤ ·)

def stop (range : Range) (count : Nat) : Nat := min (range.last.getD count) count

def indices (range : Range) (count : Nat) : List Nat :=
  List.range' (range.first - 1) (range.stop count - (range.first - 1))

def select (ranges : List Range) (count : Nat) : List Nat :=
  (List.range count).filter fun index => ranges.any (·.holds (index + 1))

/-- Of the ranges that begin among `count` places, each ends before those behind it begin. -/
def InOrder (ranges : List Range) (count : Nat) : Prop :=
  ranges.Pairwise fun range later =>
    range.first ≤ count → later.first ≤ count → ∃ place ∈ range.last, place < later.first

instance (ranges : List Range) (count : Nat) : Decidable (InOrder ranges count) :=
  inferInstanceAs (Decidable (ranges.Pairwise _))

theorem mem_indices {range : Range} {count index : Nat} :
    index ∈ range.indices count ↔ index < count ∧ range.holds (index + 1) = true := by
  have positive := range.positive
  rw [indices, List.mem_range'_1, holds, stop]
  cases last : range.last with
  | none =>
      simp
      omega
  | some place =>
      simp
      omega

theorem mem_select {ranges : List Range} {count index : Nat} :
    index ∈ select ranges count ↔ index ∈ ranges.flatMap (·.indices count) := by
  simp only [select, List.mem_filter, List.mem_range, List.any_eq_true, List.mem_flatMap,
    mem_indices]
  tauto

theorem select_increasing (ranges : List Range) (count : Nat) :
    (select ranges count).Pairwise (· < ·) := List.pairwise_lt_range.filter _

theorem pairwise_indices_iff {range later : Range} {count : Nat} :
    (∀ index ∈ range.indices count, ∀ other ∈ later.indices count, index < other) ↔
      (range.first ≤ count → later.first ≤ count → ∃ place ∈ range.last, place < later.first) := by
  have positive := range.positive
  have positive' := later.positive
  have ordered' := later.ordered
  constructor
  · intro increasing begins begins'
    have second : later.first - 1 ∈ later.indices count := by
      rw [mem_indices, holds, Nat.sub_add_cancel positive']
      refine ⟨by omega, ?_⟩
      rw [Bool.and_eq_true, decide_eq_true_eq, Option.all_eq_true]
      exact ⟨Nat.le_refl _, fun place isLast => decide_eq_true (ordered' place isLast)⟩
    -- the last place that the range holds
    have ends : range.stop count - 1 ∈ range.indices count := by
      have ordered := range.ordered
      rw [indices, List.mem_range'_1, stop]
      cases last : range.last with
      | none =>
          simp only [Option.getD_none]
          omega
      | some place =>
          have least := ordered place (Option.mem_def.mpr last)
          simp only [Option.getD_some]
          omega
    have below := increasing _ ends _ second
    rw [stop] at below
    cases last : range.last with
    | none =>
        rw [last, Option.getD_none] at below
        omega
    | some place =>
        rw [last, Option.getD_some] at below
        exact ⟨place, rfl, by omega⟩
  · intro apart index member other member'
    rw [mem_indices, holds, Bool.and_eq_true, decide_eq_true_eq] at member member'
    rcases apart (by omega) (by omega) with ⟨place, isLast, before⟩
    have within := (Option.all_eq_true _ _).mp member.2.2 place isLast
    have below := of_decide_eq_true within
    omega

theorem flatMap_indices_eq_iff (ranges : List Range) (count : Nat) :
    ranges.flatMap (·.indices count) = select ranges count ↔ InOrder ranges count := by
  have increasing : (ranges.flatMap (·.indices count)).Pairwise (· < ·) ↔ InOrder ranges count := by
    rw [List.pairwise_flatMap, InOrder]
    refine (and_iff_right fun range _ => List.pairwise_lt_range').trans ?_
    simp only [pairwise_indices_iff]
  rw [← increasing]
  constructor
  · intro same
    rw [same]
    exact select_increasing ranges count
  · intro sorted
    exact sorted.eq_of_mem_iff (select_increasing ranges count) fun index => mem_select.symm

end Range

end LlmHoneypot
