import LlmHoneypot.Foundation.Dict
import Mathlib.Data.List.Induction

/-! # Rules collected in a dictionary

What a search of the dictionary finds: the first rule of the list, with the value that the last
rule under the same key has. -/

namespace LlmHoneypot

namespace RuleTable

variable {Key Value : Type} [DecidableEq Key]

def collect (rules : List (Key × Value)) : Dict Key Value :=
  rules.foldl (fun dict rule => dict.set rule.1 rule.2) .empty

def lastValue (rules : List (Key × Value)) (key : Key) : Option Value :=
  (rules.reverse.find? (·.1 = key)).map Prod.snd

theorem collect_concat (rules : List (Key × Value)) (rule : Key × Value) :
    collect (rules ++ [rule]) = (collect rules).set rule.1 rule.2 := by
  rw [collect, List.foldl_concat]
  rfl

theorem lastValue_concat (rules : List (Key × Value)) (rule : Key × Value) (key : Key) :
    lastValue (rules ++ [rule]) key =
      if rule.1 = key then some rule.2 else lastValue rules key := by
  rw [lastValue, List.reverse_concat, List.find?_cons]
  by_cases same : rule.1 = key
  · simp [same]
  · simp [same, lastValue]

theorem lastValue_isSome {rules : List (Key × Value)} {rule : Key × Value} (member : rule ∈ rules) :
    (lastValue rules rule.1).isSome := by
  rw [lastValue, Option.isSome_map, List.find?_isSome]
  exact ⟨rule, List.mem_reverse.mpr member, by simp⟩

theorem find?_collect (rules : List (Key × Value)) (wanted : Key → Bool) :
    (collect rules).entries.find? (wanted ·.1) =
      (rules.find? (wanted ·.1)).bind fun rule =>
        (lastValue rules rule.1).map fun value => (rule.1, value) := by
  induction rules using List.reverseRecOn with
  | nil => rfl
  | append_singleton rules last induction =>
      rw [collect_concat, Dict.find?_set, induction, List.find?_append]
      cases found : rules.find? (wanted ·.1) with
      | some rule =>
          rw [Option.some_or, Option.bind_some, Option.bind_some, lastValue_concat]
          have listed := lastValue_isSome (List.mem_of_find?_eq_some found)
          rcases Option.isSome_iff_exists.mp listed with ⟨value, isValue⟩
          rw [isValue, Option.map_some]
          by_cases same : last.1 = rule.1
          · rw [if_pos same, same]
            simp
          · rw [if_neg same]
            simp [Ne.symm same]
      | none =>
          rw [Option.none_or, List.find?_singleton]
          by_cases wantsLast : wanted last.1
          · simp [wantsLast, lastValue_concat]
          · simp [wantsLast]

end RuleTable

end LlmHoneypot
