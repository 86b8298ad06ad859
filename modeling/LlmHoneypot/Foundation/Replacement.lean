import LlmHoneypot.Foundation.Text

/-! # Replaced parts of a text

`str.replace` read from the front: where the old part stands it is replaced, and elsewhere one
character is passed over. -/

namespace LlmHoneypot

namespace Text

variable {old new : Str}

theorem substituteFrom_skip (matchLength : Str → Nat) (skipped rest : Str) :
    substituteFrom matchLength new skipped.length (skipped ++ rest) =
      substituteFrom matchLength new 0 rest := by
  induction skipped with
  | nil => rfl
  | cons ch skipped induction => exact induction

theorem replace_append {first : Char} {others : Str} (isOld : old = first :: others) (rest : Str) :
    replace old new (old ++ rest) = new ++ replace old new rest := by
  have whole : old.isPrefixOf (old ++ rest) = true :=
    List.isPrefixOf_iff_prefix.mpr (List.prefix_append old rest)
  have length : (if old.isPrefixOf (old ++ rest) then old.length else 0) = others.length + 1 := by
    rw [if_pos whole, isOld]
    rfl
  rw [replace, substitute]
  rw [isOld] at length ⊢
  rw [List.cons_append] at length ⊢
  rw [substituteFrom, length]
  exact congrArg (new ++ ·) (substituteFrom_skip _ others rest)

theorem replace_cons {ch : Char} {rest : Str} (differs : ¬ old <+: ch :: rest) :
    replace old new (ch :: rest) = ch :: replace old new rest := by
  have notPrefix : ¬ old.isPrefixOf (ch :: rest) = true := fun isPrefix =>
    differs (List.isPrefixOf_iff_prefix.mp isPrefix)
  rw [replace, substitute, substituteFrom, if_neg notPrefix]
  rfl

theorem replace_induction {motive : Str → Prop} (isOld : old ≠ []) (nil : motive [])
    (found : ∀ rest, motive rest → motive (old ++ rest))
    (passed : ∀ ch rest, ¬ old <+: ch :: rest → motive rest → motive (ch :: rest)) (text : Str) :
    motive text := by
  induction size : text.length using Nat.strong_induction_on generalizing text with
  | _ bound induction =>
      cases text with
      | nil => exact nil
      | cons ch rest =>
          by_cases here : old <+: ch :: rest
          · rcases here with ⟨behind, isText⟩
            have shorter : behind.length < bound := by
              have positive := List.length_pos_iff.mpr isOld
              rw [← size, ← isText, List.length_append]
              omega
            rw [← isText]
            exact found behind (induction behind.length shorter behind rfl)
          · have shorter : rest.length < bound := by
              rw [← size]
              exact Nat.lt_succ_self _
            exact passed ch rest here (induction rest.length shorter rest rfl)

theorem replace_of_absent (absent : ¬ old <:+: text) : replace old new text = text := by
  induction text with
  | nil => rfl
  | cons ch rest induction =>
      rw [List.infix_cons_iff, not_or] at absent
      rw [replace_cons absent.1, induction absent.2]

theorem count_replace {ch : Char} (isOld : old ≠ []) (rarer : new.count ch < old.count ch)
    (text : Str) :
    (replace old new text).count ch ≤ text.count ch ∧
      (old <:+: text → (replace old new text).count ch < text.count ch) := by
  rcases List.exists_cons_of_ne_nil isOld with ⟨first, others, isCons⟩
  induction text using replace_induction isOld with
  | nil => exact ⟨Nat.le_refl _, fun absent => absurd (List.eq_nil_of_infix_nil absent) isOld⟩
  | found rest induction =>
      rw [replace_append isCons, List.count_append, List.count_append]
      exact ⟨by omega, fun _ => by omega⟩
  | passed other rest differs induction =>
      rw [replace_cons differs, List.count_cons, List.count_cons]
      refine ⟨by omega, fun stands => ?_⟩
      have later := induction.2 ((List.infix_cons_iff.mp stands).resolve_left differs)
      omega

theorem count_replace_eq {ch : Char} (isOld : old ≠ []) (same : new.count ch = old.count ch)
    (text : Str) : (replace old new text).count ch = text.count ch := by
  rcases List.exists_cons_of_ne_nil isOld with ⟨first, others, isCons⟩
  induction text using replace_induction isOld with
  | nil => rfl
  | found rest induction =>
      rw [replace_append isCons, List.count_append, List.count_append, same, induction]
  | passed other rest differs induction =>
      rw [replace_cons differs, List.count_cons, List.count_cons, induction]

end Text

end LlmHoneypot
