import Mathlib.Algebra.Order.Ring.Int
import Mathlib.Data.List.Count

/-! # Lines of a text

A text over any symbols as its lines, each with the newline that ends it. The last line may be
without one. -/

namespace LlmHoneypot

namespace TextLines

variable {Symbol : Type} [DecidableEq Symbol] {newline : Symbol}

def lines (newline : Symbol) : List Symbol → List (List Symbol)
  | [] => []
  | first :: rest =>
      if first = newline then [first] :: lines newline rest
      else
        match lines newline rest with
        | [] => [[first]]
        | line :: later => (first :: line) :: later

/-- The first `count` lines, all of them where there are fewer. -/
def firstLines (newline : Symbol) (count : Nat) (text : List Symbol) : List Symbol :=
  ((lines newline text).take count).flatten

def afterLines (newline : Symbol) (count : Nat) (text : List Symbol) : List Symbol :=
  ((lines newline text).drop count).flatten

/-- The last `count` lines, all of them where there are fewer. -/
def lastLines (newline : Symbol) (count : Nat) (text : List Symbol) : List Symbol :=
  afterLines newline ((lines newline text).length - count) text

/-! ## One line after another -/

theorem induction_lines {motive : List Symbol → Prop}
    (last : ∀ line, newline ∉ line → motive line)
    (next : ∀ line rest, newline ∉ line → motive rest → motive (line ++ newline :: rest))
    (text : List Symbol) : motive text := by
  induction size : text.length using Nat.strong_induction_on generalizing text with
  | _ size induction =>
      by_cases member : newline ∈ text
      · rcases List.eq_append_cons_of_mem member with ⟨line, rest, equal, free⟩
        subst equal
        refine next line rest free (induction rest.length ?_ rest rfl)
        rw [← size, List.length_append, List.length_cons]
        omega
      · exact last text member

theorem lines_last {line : List Symbol} (free : newline ∉ line) :
    lines newline line = if line = [] then [] else [line] := by
  induction line with
  | nil => rfl
  | cons first line induction =>
      have parts := List.ne_and_not_mem_of_not_mem_cons free
      rw [lines, if_neg (Ne.symm parts.1), induction parts.2, if_neg (List.cons_ne_nil _ _)]
      by_cases single : line = []
      · rw [if_pos single, single]
      · rw [if_neg single]

theorem lines_next {line : List Symbol} (free : newline ∉ line) (rest : List Symbol) :
    lines newline (line ++ newline :: rest) = (line ++ [newline]) :: lines newline rest := by
  induction line with
  | nil => exact if_pos rfl
  | cons first line induction =>
      have parts := List.ne_and_not_mem_of_not_mem_cons free
      rw [List.cons_append, lines, if_neg (Ne.symm parts.1), induction parts.2]
      rfl

theorem splitOn_next {line : List Symbol} (free : newline ∉ line) (rest : List Symbol) :
    (line ++ newline :: rest).splitOn newline = line :: rest.splitOn newline :=
  List.splitOn_append_cons_self_of_not_mem free rest

theorem flatten_lines (text : List Symbol) : (lines newline text).flatten = text := by
  induction text using @induction_lines _ _ newline with
  | last line free =>
      rw [lines_last free]
      by_cases empty : line = []
      · rw [if_pos empty, empty, List.flatten_nil]
      · rw [if_neg empty, List.flatten_singleton]
  | next line rest free induction =>
      rw [lines_next free, List.flatten_cons, induction, List.append_assoc, List.singleton_append]

theorem line_ne_nil {text line : List Symbol} (member : line ∈ lines newline text) :
    line ≠ [] := by
  induction text using @induction_lines _ _ newline with
  | last last free =>
      rw [lines_last free] at member
      split at member
      · cases member
      · next visible =>
        rw [List.mem_singleton.mp member]
        exact visible
  | next first rest free induction =>
      rw [lines_next free] at member
      rcases List.mem_cons.mp member with equal | later
      · rw [equal]
        exact List.append_ne_nil_of_right_ne_nil _ (List.cons_ne_nil _ _)
      · exact induction later

/-! ## How many lines there are -/

def Terminated (newline : Symbol) (text : List Symbol) : Prop :=
  ∀ last ∈ text.getLast?, last = newline

instance (newline : Symbol) (text : List Symbol) : Decidable (Terminated newline text) :=
  inferInstanceAs (Decidable (∀ last ∈ text.getLast?, last = newline))

omit [DecidableEq Symbol] in
theorem terminated_next (line rest : List Symbol) :
    Terminated newline (line ++ newline :: rest) ↔ Terminated newline rest := by
  unfold Terminated
  rw [List.getLast?_append, List.getLast?_cons]
  cases rest.getLast? with
  | none => simp
  | some last => simp

omit [DecidableEq Symbol] in
theorem terminated_last {line : List Symbol} (free : newline ∉ line) :
    Terminated newline line ↔ line = [] := by
  constructor
  · intro terminated
    by_contra visible
    have last := terminated _ (List.getLast?_eq_some_getLast visible)
    exact free (last ▸ List.getLast_mem visible)
  · rintro rfl
    intro last member
    cases member

theorem length_splitOn (text : List Symbol) :
    (text.splitOn newline).length = text.count newline + 1 := by
  induction text using @induction_lines _ _ newline with
  | last line free =>
      rw [List.splitOn_eq_singleton free, List.count_eq_zero_of_not_mem free]
      rfl
  | next line rest free induction =>
      rw [splitOn_next free, List.length_cons, induction, List.count_append, List.count_cons_self,
        List.count_eq_zero_of_not_mem free]
      omega

theorem length_lines (text : List Symbol) :
    (lines newline text).length =
      text.count newline + if Terminated newline text then 0 else 1 := by
  induction text using @induction_lines _ _ newline with
  | last line free =>
      simp only [lines_last free, terminated_last free, List.count_eq_zero_of_not_mem free]
      split
      · rfl
      · rfl
  | next line rest free induction =>
      simp only [lines_next free, terminated_next, List.length_cons, induction, List.count_append,
        List.count_cons_self, List.count_eq_zero_of_not_mem free]
      omega

/-! ## Parts of a text -/

omit [DecidableEq Symbol] in
theorem flatten_drop_eq_iff {parts : List (List Symbol)} (visible : ∀ part ∈ parts, part ≠ [])
    (left right : Nat) :
    (parts.drop left).flatten = (parts.drop right).flatten ↔
      min left parts.length = min right parts.length := by
  constructor
  · induction parts generalizing left right with
    | nil => simp
    | cons part parts induction =>
        have later := induction fun other member => visible other (List.mem_cons_of_mem _ member)
        have some_ : 0 < part.length :=
          List.length_pos_iff.mpr (visible part List.mem_cons_self)
        -- what is left of the later parts is never as long as all parts
        have shorter : ∀ count, ((parts.drop count).flatten).length <
            (part ++ parts.flatten).length := by
          intro count
          have whole := congrArg (·.flatten.length) (List.take_append_drop count parts)
          simp only [List.flatten_append, List.length_append] at whole
          rw [List.length_append]
          omega
        intro equal
        cases left with
        | zero =>
            cases right with
            | zero => rfl
            | succ right =>
                have lengths := congrArg List.length equal
                have less := shorter right
                simp only [List.drop_zero, List.flatten_cons, List.drop_succ_cons] at lengths less
                omega
        | succ left =>
            cases right with
            | zero =>
                have lengths := congrArg List.length equal
                have less := shorter left
                simp only [List.drop_zero, List.flatten_cons, List.drop_succ_cons] at lengths less
                omega
            | succ right =>
                have same := later left right equal
                rw [List.length_cons]
                omega
  · intro same
    have cut : ∀ count, parts.drop count = parts.drop (min count parts.length) := by
      intro count
      rcases Nat.le_total count parts.length with few | many
      · rw [Nat.min_eq_left few]
      · rw [Nat.min_eq_right many, List.drop_length, List.drop_eq_nil_of_le many]
    rw [cut left, cut right, same]

theorem afterLines_eq_iff {text : List Symbol} (left right : Nat) :
    afterLines newline left text = afterLines newline right text ↔
      min left (lines newline text).length = min right (lines newline text).length :=
  flatten_drop_eq_iff (fun _ => line_ne_nil) left right

theorem length_afterLines_le (count : Nat) (text : List Symbol) :
    (afterLines newline count text).length ≤ text.length := by
  have whole := congrArg List.length (@flatten_lines _ _ newline text)
  rw [← List.take_append_drop count (lines newline text), List.flatten_append,
    List.length_append] at whole
  rw [afterLines]
  omega

theorem intercalate_drop {text : List Symbol} {count : Nat} (few : count ≤ text.count newline) :
    [newline].intercalate ((text.splitOn newline).drop count) = afterLines newline count text := by
  induction text using @induction_lines _ _ newline generalizing count with
  | last line free =>
      rw [List.count_eq_zero_of_not_mem free] at few
      rw [Nat.le_zero.mp few, List.drop_zero, List.intercalate_splitOn, afterLines, List.drop_zero,
        flatten_lines]
  | next line rest free induction =>
      cases count with
      | zero =>
          rw [List.drop_zero, List.intercalate_splitOn, afterLines, List.drop_zero, flatten_lines]
      | succ count =>
          rw [List.count_append, List.count_cons_self, List.count_eq_zero_of_not_mem free] at few
          rw [splitOn_next free, List.drop_succ_cons, induction (by omega), afterLines, afterLines,
            lines_next free, List.drop_succ_cons]

theorem flatMap_take_iff {text : List Symbol} {count : Nat} :
    ((text.splitOn newline).take count).flatMap (· ++ [newline]) = firstLines newline count text ↔
      count ≤ text.count newline := by
  induction text using @induction_lines _ _ newline generalizing count with
  | last line free =>
      rw [List.splitOn_eq_singleton free, List.count_eq_zero_of_not_mem free, firstLines,
        lines_last free]
      cases count with
      | zero => simp
      | succ count =>
          simp only [Nat.le_zero, Nat.succ_ne_zero, iff_false]
          intro equal
          have lengths := congrArg List.length equal
          split at lengths
          · next empty => simp [empty] at lengths
          · simp at lengths
  | next line rest free induction =>
      cases count with
      | zero => simp [firstLines]
      | succ count =>
          rw [splitOn_next free, firstLines, lines_next free, List.take_succ_cons,
            List.take_succ_cons, List.flatMap_cons, List.flatten_cons, List.append_cancel_left_eq,
            List.count_append, List.count_cons_self, List.count_eq_zero_of_not_mem free]
          have same := @induction count
          rw [firstLines] at same
          rw [same]
          omega

end TextLines

end LlmHoneypot
