import Mathlib.Algebra.Order.Ring.Int
import Mathlib.Data.List.Nodup

/-! # Agendas

Outstanding tasks under numbers that are handed out in ascending order and never
given twice. -/

namespace LlmHoneypot

structure Agenda (Task : Type) where
  entries : List (Nat × Task)
  next : Nat
  ascending : (entries.map Prod.fst ++ [next]).Pairwise (· < ·)

namespace Agenda

variable {Task : Type}

def empty : Agenda Task := ⟨[], 0, by simp⟩

def add (agenda : Agenda Task) (task : Task) : Agenda Task where
  entries := agenda.entries ++ [(agenda.next, task)]
  next := agenda.next + 1
  ascending := by
    rw [List.map_append, List.pairwise_append]
    refine ⟨agenda.ascending, by simp, ?_⟩
    intro number member last isLast
    have below := List.pairwise_append.mp agenda.ascending
    rw [List.mem_singleton.mp isLast]
    rcases List.mem_append.mp member with old | new
    · exact Nat.lt_succ_of_lt (below.2.2 number old agenda.next (by simp))
    · rw [List.mem_singleton.mp new]
      exact Nat.lt_succ_self _

def skip (agenda : Agenda Task) : Agenda Task where
  entries := agenda.entries
  next := agenda.next + 1
  ascending := by
    have below := List.pairwise_append.mp agenda.ascending
    refine List.pairwise_append.mpr ⟨below.1, by simp, ?_⟩
    intro number member last isLast
    rw [List.mem_singleton.mp isLast]
    exact Nat.lt_succ_of_lt (below.2.2 number member agenda.next (by simp))

def finish (agenda : Agenda Task) (number : Nat) : Agenda Task where
  entries := agenda.entries.filter (·.1 ≠ number)
  next := agenda.next
  ascending :=
    agenda.ascending.sublist ((List.filter_sublist.map Prod.fst).append (List.Sublist.refl _))

def find? (agenda : Agenda Task) (number : Nat) : Option Task :=
  (agenda.entries.find? (·.1 = number)).map Prod.snd

def since (agenda : Agenda Task) (first : Nat) : List (Nat × Task) :=
  agenda.entries.filter (first ≤ ·.1)

theorem lt_next (agenda : Agenda Task) {entry : Nat × Task} (member : entry ∈ agenda.entries) :
    entry.1 < agenda.next :=
  (List.pairwise_append.mp agenda.ascending).2.2 _ (List.mem_map_of_mem member) _ (by simp)

theorem nodup (agenda : Agenda Task) : (agenda.entries.map Prod.fst).Nodup :=
  (List.pairwise_append.mp agenda.ascending).1.imp Nat.ne_of_lt

theorem find?_eq_some {agenda : Agenda Task} {number : Nat} {task : Task} :
    agenda.find? number = some task ↔ (number, task) ∈ agenda.entries := by
  constructor
  · intro found
    rcases Option.map_eq_some_iff.mp found with ⟨⟨key, value⟩, first, rfl⟩
    have equal := List.find?_some first
    simp only [decide_eq_true_eq] at equal
    rw [← equal]
    exact List.mem_of_find?_eq_some first
  · intro member
    have found : (agenda.entries.find? (·.1 = number)).isSome :=
      List.find?_isSome.mpr ⟨_, member, by simp⟩
    rcases Option.isSome_iff_exists.mp found with ⟨entry, first⟩
    have equal : entry.1 = number := by simpa using List.find?_some first
    have same : entry = (number, task) :=
      List.inj_on_of_nodup_map agenda.nodup (List.mem_of_find?_eq_some first) member equal
    rw [find?, first, same]
    rfl

theorem unique {agenda : Agenda Task} {number : Nat} {first second : Task}
    (left : (number, first) ∈ agenda.entries) (right : (number, second) ∈ agenda.entries) :
    first = second :=
  Option.some.inj ((find?_eq_some.mpr left).symm.trans (find?_eq_some.mpr right))

/-! ## Growth -/

structure Grown (agenda later : Agenda Task) (added : List (Nat × Task)) : Prop where
  entries : later.entries = agenda.entries ++ added
  next : agenda.next ≤ later.next
  fresh : ∀ entry ∈ added, agenda.next ≤ entry.1

namespace Grown

variable {agenda later latest : Agenda Task} {added more : List (Nat × Task)}

theorem refl (agenda : Agenda Task) : Grown agenda agenda [] :=
  ⟨by simp, Nat.le_refl _, by simp⟩

theorem add (agenda : Agenda Task) (task : Task) :
    Grown agenda (agenda.add task) [(agenda.next, task)] :=
  ⟨rfl, Nat.le_succ _, by simp⟩

theorem skip (agenda : Agenda Task) : Grown agenda agenda.skip [] :=
  ⟨by simp [Agenda.skip], Nat.le_succ _, by simp⟩

theorem trans (first : Grown agenda later added) (second : Grown later latest more) :
    Grown agenda latest (added ++ more) := by
  refine ⟨by rw [second.entries, first.entries, List.append_assoc],
    Nat.le_trans first.next second.next, ?_⟩
  intro entry member
  rcases List.mem_append.mp member with old | new
  · exact first.fresh entry old
  · exact Nat.le_trans first.next (second.fresh entry new)

theorem since (grown : Grown agenda later added) {first : Nat} (early : first ≤ agenda.next) :
    later.since first = agenda.since first ++ added := by
  have all : ∀ entry ∈ added, decide (first ≤ entry.1) = true := fun entry member =>
    decide_eq_true (Nat.le_trans early (grown.fresh entry member))
  rw [Agenda.since, grown.entries, List.filter_append, List.filter_eq_self.mpr all]
  rfl

end Grown

theorem since_next (agenda : Agenda Task) : agenda.since agenda.next = [] :=
  List.filter_eq_nil_iff.mpr fun entry member => by
    simpa using agenda.lt_next member

theorem mem_since {agenda : Agenda Task} {first : Nat} {entry : Nat × Task} :
    entry ∈ agenda.since first ↔ entry ∈ agenda.entries ∧ first ≤ entry.1 := by
  simp [since]

theorem since_finish (agenda : Agenda Task) (first number : Nat) :
    (agenda.finish number).since first = (agenda.since first).filter (·.1 ≠ number) := by
  simp only [since, finish, List.filter_filter]
  exact List.filter_congr fun entry _ => Bool.and_comm ..

end Agenda

end LlmHoneypot
