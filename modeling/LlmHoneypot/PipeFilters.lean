import LlmHoneypot.Foundation.Shlex

/-! # Pipelines of local filters

`pipefilters.py`: a command line split at `|`, and the stages after the first
applied to the text of the first. -/

namespace LlmHoneypot

namespace PipeFilters

def UNSUPPORTED : List Str :=
  [";".toList, "&&".toList, "||".toList, ">".toList, "<".toList, "$(".toList,
    "`".toList, "\n".toList]

def MAX_STAGES : Nat := 4

def splitPipeline (raw : Str) : Option (List Str) :=
  if raw = [] ∨ '|' ∉ raw then some [raw]
  else if UNSUPPORTED.any (Text.contains · raw) then none
  else
    let stages := (Text.splitChar '|' raw).map Text.strip
    if MAX_STAGES < stages.length then none
    else if stages.any (· = []) then none
    else some stages

theorem splitPipeline_stages {raw : Str} {stages : List Str}
    (split : splitPipeline raw = some stages) (visible : raw ≠ []) :
    stages = [raw] ∧ '|' ∉ raw ∨
      '|' ∈ raw ∧ ¬ UNSUPPORTED.any (Text.contains · raw) ∧
        ∃ more, more ≠ [] ∧
          stages = Text.strip ((Text.before? "|".toList raw).getD raw) :: more := by
  simp only [splitPipeline, visible, false_or] at split
  split at split
  · rename_i noPipe
    cases split
    exact .inl ⟨rfl, noPipe⟩
  · rename_i piped
    have piped : '|' ∈ raw := Decidable.not_not.mp piped
    split at split
    · cases split
    · rename_i free
      split at split
      · cases split
      · split at split
        · cases split
        · rcases Text.splitChar_head '|' raw with ⟨rest, stages, more⟩
          cases split
          refine .inr ⟨piped, free, rest.map Text.strip, by simpa using more piped, ?_⟩
          rw [stages]
          rfl

def FILTERS : List Str := ["head".toList, "tail".toList, "grep".toList, "wc".toList]

/-- An entry of `_FILTERS`: text and arguments to text, `none` to defer. -/
abbrev Filter := Str → List Str → Option Str

def applyFilter (filters : Str → Filter) (text stage : Str) : Option Str :=
  match Shlex.split stage with
  | none => none
  | some [] => none
  | some (command :: args) =>
      if command ∈ FILTERS then filters command text args else none

def applyFilters (filters : Str → Filter) : Str → List Str → Option Str
  | text, [] => some text
  | text, stage :: rest =>
      (applyFilter filters text stage).bind (applyFilters filters · rest)

end PipeFilters

end LlmHoneypot
