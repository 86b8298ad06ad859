import LlmHoneypot.Foundation.Text

/-! # Joined texts

`separator.join(parts)`: what splitting takes apart is put together again, and the last part
can be changed by itself. -/

namespace LlmHoneypot

namespace Text

theorem join_splitChar (separator : Char) (text : Str) :
    join [separator] (splitChar separator text) = text := by
  induction text with
  | nil => rfl
  | cons ch text induction =>
      rw [splitChar]
      cases parts : splitChar separator text with
      | nil => exact (splitChar_ne_nil separator text parts).elim
      | cons head tail =>
          rw [parts] at induction
          split
          · next same =>
            rw [same, ← induction]
            exact List.intercalate_cons_cons ..
          · cases tail with
            | nil =>
                rw [← induction]
                rfl
            | cons second tail =>
                rw [← induction]
                rw [join, join, List.intercalate_cons_cons, List.intercalate_cons_cons]
                rfl

theorem splitChar_append_free {separator : Char} {text last more : Str} {front : List Str}
    (isSplit : splitChar separator text = front ++ [last]) (free : separator ∉ more) :
    splitChar separator (text ++ more) = front ++ [last ++ more] := by
  induction text generalizing front last with
  | nil =>
      cases front with
      | nil =>
          have none : last = [] := (List.singleton_inj.mp isSplit).symm
          rw [none]
          exact splitChar_free free
      | cons first front =>
          have tooLong := congrArg List.length isSplit
          simp [splitChar] at tooLong
  | cons ch text induction =>
      rw [List.cons_append, splitChar]
      rw [splitChar] at isSplit
      rcases List.eq_nil_or_concat (splitChar separator text) with none | ⟨init, tail, isText⟩
      · exact absurd none (splitChar_ne_nil separator text)
      · rw [List.concat_eq_append] at isText
        by_cases same : ch = separator
        · rw [if_pos same] at isSplit ⊢
          rw [isText, ← List.cons_append] at isSplit
          rcases List.append_inj' isSplit rfl with ⟨isFront, isLast⟩
          rw [induction (isText.trans (by rw [List.singleton_inj.mp isLast])), ← isFront]
          rfl
        · rw [if_neg same] at isSplit ⊢
          cases init with
          | nil =>
              have later := induction isText
              rw [isText] at isSplit
              rw [later]
              cases front with
              | nil =>
                  rw [← List.singleton_inj.mp isSplit]
                  rfl
              | cons first front =>
                  have tooLong := congrArg List.length isSplit
                  simp at tooLong
          | cons first init =>
              have later := induction isText
              rw [isText, List.cons_append] at isSplit
              rw [later, List.cons_append]
              have whole : ((ch :: first) :: init) ++ [tail] = front ++ [last] := isSplit
              rcases List.append_inj' whole rfl with ⟨isFront, isLast⟩
              rw [← isFront, ← List.singleton_inj.mp isLast]
              rfl

theorem wordsFrom_free {current text word : Str} (visible : ∀ ch ∈ current, isSpace ch = false)
    (member : word ∈ wordsFrom current text) : ∀ ch ∈ word, isSpace ch = false := by
  induction text generalizing current with
  | nil =>
      rw [wordsFrom] at member
      split at member
      · cases member
      · rw [List.mem_singleton.mp member]
        exact visible
  | cons first text induction =>
      have nothing : ∀ ch ∈ ([] : Str), isSpace ch = false :=
        fun _ none => absurd none List.not_mem_nil
      rw [wordsFrom] at member
      split at member
      · split at member
        · exact induction nothing member
        · rcases List.mem_cons.mp member with isFirst | later
          · rw [isFirst]
            exact visible
          · exact induction nothing later
      · rename_i notSpace
        refine induction (fun ch inside => ?_) member
        rcases List.mem_append.mp inside with inside | isFirst
        · exact visible ch inside
        · rw [List.mem_singleton.mp isFirst]
          exact Bool.eq_false_of_not_eq_true notSpace

theorem words_free {text word : Str} (member : word ∈ words text) :
    ∀ ch ∈ word, isSpace ch = false :=
  wordsFrom_free (fun _ none => absurd none List.not_mem_nil) member

theorem mem_join {ch : Char} {separator : Str} {parts : List Str}
    (member : ch ∈ join separator parts) : ch ∈ separator ∨ ∃ part ∈ parts, ch ∈ part := by
  induction parts with
  | nil => cases member
  | cons part parts induction =>
      cases parts with
      | nil =>
          rw [join, List.intercalate_singleton] at member
          exact .inr ⟨part, List.mem_singleton_self part, member⟩
      | cons next parts =>
          rw [join, List.intercalate_cons_cons, ← join] at member
          rcases List.mem_append.mp member with inFront | later
          · rcases List.mem_append.mp inFront with inside | between
            · exact .inr ⟨part, List.mem_cons_self, inside⟩
            · exact .inl between
          · rcases induction later with between | ⟨found, isPart, inside⟩
            · exact .inl between
            · exact .inr ⟨found, List.mem_cons_of_mem part isPart, inside⟩

theorem join_concat {separator : Str} {parts : List Str} (started : parts ≠ []) (last : Str) :
    join separator (parts ++ [last]) = join separator parts ++ separator ++ last := by
  induction parts with
  | nil => exact absurd rfl started
  | cons first parts induction =>
      cases parts with
      | nil => simp [join]
      | cons second parts =>
          have later := induction (List.cons_ne_nil _ _)
          rw [join, join] at later ⊢
          rw [List.cons_append, List.cons_append, List.intercalate_cons_cons,
            List.intercalate_cons_cons, ← List.cons_append, later]
          simp only [List.append_assoc]

theorem join_front (separator : Str) (parts : List Str) :
    ∃ front, ∀ last, join separator (parts ++ [last]) = front ++ last := by
  cases parts with
  | nil => exact ⟨[], fun last => by simp [join]⟩
  | cons first parts =>
      exact ⟨join separator (first :: parts) ++ separator, join_concat (List.cons_ne_nil _ _)⟩

theorem count_join {symbol : Char} {separator : Str} (free : symbol ∉ separator)
    (parts : List Str) :
    (join separator parts).count symbol = (parts.map (List.count symbol)).sum := by
  induction parts with
  | nil => rfl
  | cons part parts induction =>
      cases parts with
      | nil => simp [join]
      | cons next parts =>
          rw [join, List.intercalate_cons_cons, List.count_append, List.count_append, ← join,
            induction, List.count_eq_zero.mpr free, Nat.add_zero]
          rfl

end Text

end LlmHoneypot
