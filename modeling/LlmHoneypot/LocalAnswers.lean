import LlmHoneypot.Downloader.Intent
import LlmHoneypot.Foundation.ShellWords
import LlmHoneypot.Responder

/-! # Lines that are answered locally

The responder looks for operators as texts anywhere in the line and cuts it at every
bar. What this leaves, in the shell's own reading of the line. -/

namespace LlmHoneypot

namespace Responder

open PipeFilters ShellSyntax

variable {tables : Tables} {line stage : Str} {ctx : ShellContext} {result : ResponderResult}

/-! ## What a local answer promises -/

def commandWord (stage : Str) : Option Str :=
  ((Shlex.split stage).bind peelSudo).bind (·.1.head?)

def renderUser (ctx : ShellContext) (override : Option Str) : Str :=
  match override with
  | some user => if user = [] then ctx.user else user
  | none => ctx.user

def Rendered (tables : Tables) (stage : Str) (ctx : ShellContext) (result : ResponderResult) :
    Prop :=
  ∃ command args override,
    (Shlex.split stage).bind peelSudo = some (command :: args, override) ∧
      command ∈ DISPATCH ∧
        tables.handler command args ctx (renderUser ctx override) = some result

def IsFilter (stage : Str) : Prop :=
  ∃ command args, Shlex.split stage = some (command :: args) ∧ command ∈ FILTERS

def SHELLS : List Str := ["sh", "bash", "dash", "ash", "ksh", "zsh"].map String.toList

def PAYLOAD : List Str := Downloader.DOWNLOAD_TOOLS.map Downloader.Tool.text ++ SHELLS

structure Sound (tables : Tables) (line : Str) (ctx : ShellContext) (result : ResponderResult) :
    Prop where
  onePipeline : hasOtherOperator (annotate line) = false
  /-- The renderer of the first stage, then the filters of the others in order. -/
  composed : ∃ first later output,
    stages line = first :: later ∧
      Rendered tables first { ctx with piped := ctx.piped || later ≠ [] } output ∧
      (∀ stage ∈ later, IsFilter stage) ∧
      later.foldlM (applyFilter tables.filter) output.output = some result.output
  noPayload : ∀ stage ∈ simpleCommands line, ∀ word, commandWord stage = some word →
    word ∉ PAYLOAD

/-! ## Operators that are left -/

theorem hasOtherOperator_of_free {symbols : List Symbol}
    (free : ∀ part ∈ METACHARS, ¬ part <:+: chars symbols) :
    hasOtherOperator symbols = symbols.any isAmpersand := by
  induction symbols with
  | nil => rfl
  | cons symbol rest induction =>
      rcases symbol with ⟨ch, quoting⟩
      have freeRest : ∀ part ∈ METACHARS, ¬ part <:+: chars rest := fun part member isInfix =>
        free part member (List.infix_cons isInfix)
      have absent : ∀ other : Char, [other] ∈ METACHARS → ch ≠ other := by
        rintro other member rfl
        exact free _ member ⟨[], chars rest, rfl⟩
      have noConstruct :
          (isRedirection (ch, quoting) || isSubstitution (ch, quoting) rest) = false := by
        rw [Bool.eq_false_iff]
        intro operator
        rcases construct_of_symbol operator with ⟨part, member, isPrefix⟩
        have listed : ∀ part ∈ CONSTRUCTS, part ∈ METACHARS := by decide
        exact free part (listed part member) isPrefix.isInfix
      have noOr : (isPipe (ch, quoting) && rest.head?.any isPipe) = false := by
        rw [Bool.eq_false_iff]
        intro both
        rcases Bool.and_eq_true_iff.mp both with ⟨here, next⟩
        cases rest with
        | nil => cases next
        | cons following after =>
            have first : ch = '|' := (of_decide_eq_true here).2
            have second : following.1 = '|' := (of_decide_eq_true next).2
            have start : chars ((ch, quoting) :: following :: after) =
                "||".toList ++ chars after := by
              simp [chars, first, second]
            exact free "||".toList (by decide) (start ▸ (List.prefix_append ..).isInfix)
      have separator : (isSeparator (ch, quoting) && (ch != '|')) = isAmpersand (ch, quoting) := by
        have notSemicolon := absent ';' (by decide)
        have notNewline := absent '\n' (by decide)
        by_cases ampersand : ch = '&'
        · subst ampersand
          simp [isSeparator, isAmpersand, SEPARATORS]
        · by_cases bar : ch = '|'
          · simp [isAmpersand, bar]
          · simp [isSeparator, isAmpersand, SEPARATORS, ampersand, bar, notSemicolon, notNewline]
      rcases Bool.or_eq_false_iff.mp noConstruct with ⟨noRedirection, noSubstitution⟩
      simp only [hasOtherOperator, noOr, noRedirection, noSubstitution, Bool.or_false, separator,
        induction freeRest, List.any_cons]

theorem isSeparator_of_onePipeline {symbols : List Symbol}
    (onePipeline : hasOtherOperator symbols = false) :
    ∀ symbol ∈ symbols, isSeparator symbol = isPipe symbol := by
  induction symbols with
  | nil => simp
  | cons symbol rest induction =>
      simp only [hasOtherOperator, Bool.or_eq_false_iff] at onePipeline
      intro other member
      rcases List.mem_cons.mp member with rfl | later
      · by_cases bar : other.1 = '|'
        · simp [isSeparator, isPipe, SEPARATORS, bar]
        · have separator := onePipeline.1.1.1.1
          have differs : (other.1 != '|') = true := by simpa using bar
          rw [differs, Bool.and_true] at separator
          simp [separator, isPipe, bar]
      · exact induction onePipeline.2 other later

theorem simpleCommands_of_onePipeline (onePipeline : hasOtherOperator (annotate line) = false) :
    simpleCommands line = stages line := by
  rw [simpleCommands, stages, splitAt_congr (isSeparator_of_onePipeline onePipeline)]

/-! ## Answers -/

theorem respondSimple_some (answered : respondSimple tables line ctx = some result) :
    (∀ part ∈ METACHARS, ¬ part <:+: line) ∧ (∃ words, Shlex.split line = some words) ∧
      Rendered tables line ctx result := by
  simp only [respondSimple] at answered
  split at answered
  · cases answered
  · rename_i free
    have noText : ∀ part ∈ METACHARS, ¬ part <:+: line := fun part member isInfix =>
      free (List.any_eq_true.mpr ⟨part, member, Text.contains_iff_infix.mpr isInfix⟩)
    split at answered
    · cases answered
    · rename_i words isSplit
      split at answered
      · cases answered
      · cases answered
      · rename_i command args override peeled
        split at answered
        · rename_i known
          refine ⟨noText, ⟨words, isSplit⟩, command, args, override, ?_, known, answered⟩
          rw [isSplit, Option.bind_some, peeled]
        · cases answered

theorem applyFilters_some {text output : Str} {later : List Str}
    (applied : applyFilters tables.filter text later = some output) :
    later.foldlM (applyFilter tables.filter) text = some output ∧
      ∀ stage ∈ later, IsFilter stage := by
  induction later generalizing text with
  | nil => exact ⟨applied, by simp⟩
  | cons stage later induction =>
      rcases Option.bind_eq_some_iff.mp applied with ⟨next, first, rest⟩
      rcases induction rest with ⟨folded, filters⟩
      refine ⟨?_, ?_⟩
      · rw [List.foldlM_cons, first]
        exact folded
      · intro other member
        rcases List.mem_cons.mp member with rfl | among
        · simp only [applyFilter] at first
          split at first
          · cases first
          · cases first
          · rename_i command args isSplit
            split at first
            · rename_i known
              exact ⟨command, args, isSplit, known⟩
            · cases first
        · exact filters other among

theorem respond_some {pipesEnabled : Bool} {command : Str}
    (answered : respond tables pipesEnabled command ctx = some result) :
    (∀ part ∈ METACHARS, ¬ part <:+: Text.strip command) ∧
      ∃ first later output,
        (Text.splitChar '|' (Text.strip command)).map Text.strip = first :: later ∧
        (∀ stage ∈ first :: later, ∃ words, Shlex.split stage = some words) ∧
        Rendered tables first { ctx with piped := ctx.piped || later ≠ [] } output ∧
        (∀ stage ∈ later, IsFilter stage) ∧
        later.foldlM (applyFilter tables.filter) output.output = some result.output := by
  simp only [respond] at answered
  split at answered
  · cases answered
  · rename_i visible
    split at answered
    · cases answered
    · cases cut : splitPipeline (Text.strip command) with
      | none => simp [cut] at answered
      | some parts =>
          rw [cut] at answered
          rcases splitPipeline_stages cut visible with ⟨rfl, noBar⟩ | ⟨-, free, more, filled, equal⟩
          · rcases respondSimple_some answered with ⟨noText, isSplit, rendered⟩
            have whole : (Text.splitChar '|' (Text.strip command)).map Text.strip =
                [Text.strip command] := by
              rw [Text.splitChar_free noBar, List.map_singleton, Text.strip_strip]
            refine ⟨noText, _, [], result, whole, by simpa using isSplit, ?_, by simp, rfl⟩
            simpa using rendered
          · have stripped : (Text.splitChar '|' (Text.strip command)).map Text.strip = parts := by
              simp only [splitPipeline] at cut
              split at cut
              · cases cut
                exact absurd (List.cons.inj equal).2.symm filled
              · split at cut
                · cases cut
                · split at cut
                  · cases cut
                  · exact Option.some.inj cut
            subst equal
            cases more with
            | nil => exact absurd rfl filled
            | cons next later =>
                simp only at answered
                split at answered
                · split at answered
                  · cases answered
                  · rename_i first rendered
                    split at answered
                    · cases answered
                    · rcases Option.map_eq_some_iff.mp answered with ⟨output, applied, rfl⟩
                      rcases respondSimple_some rendered with ⟨-, isSplit, isRendered⟩
                      rcases applyFilters_some applied with ⟨folded, filters⟩
                      refine ⟨fun part member isInfix => ?_, _, _, first, stripped, ?_, ?_, filters,
                        folded⟩
                      · have listed : ∀ part ∈ METACHARS, part ∈ UNSUPPORTED := by decide
                        exact free (List.any_eq_true.mpr
                          ⟨part, listed part member, Text.contains_iff_infix.mpr isInfix⟩)
                      · intro stage member
                        rcases List.mem_cons.mp member with rfl | among
                        · exact isSplit
                        · rcases filters stage among with ⟨command, args, words, -⟩
                          exact ⟨_, words⟩
                      · simpa using isRendered
                · cases answered

/-! ## Soundness -/

theorem commandWord_rendered {output : ResponderResult} (rendered : Rendered tables stage ctx output)
    {word : Str} (isWord : commandWord stage = some word) : word ∈ DISPATCH := by
  rcases rendered with ⟨command, args, override, words, known, -⟩
  rw [commandWord, words, Option.bind_some, List.head?_cons, Option.some.injEq] at isWord
  exact isWord ▸ known

theorem commandWord_filter (filter : IsFilter stage) {word : Str}
    (isWord : commandWord stage = some word) : word ∈ FILTERS := by
  rcases filter with ⟨command, args, words, known⟩
  have notSudo : command ≠ "sudo".toList := by
    rintro rfl
    revert known
    decide
  simp only [commandWord, words, Option.bind_some, peelSudo, if_neg notSudo, List.head?_cons,
    Option.some.injEq] at isWord
  exact isWord ▸ known

def whoamiOnly : Tables where
  handler command _ _ user :=
    if command = "whoami".toList then some { output := user ++ "\n".toList } else none
  filter _ _ _ := none

def rootContext : ShellContext :=
  { world := {}, cwd := "/root".toList, loginUser := "root".toList, hostname := "h".toList,
    now := 0 }

def whoamiCounted : Tables :=
  { whoamiOnly with
    filter := fun name text _ =>
      if name = "wc".toList then some (Text.decimal (text.count '\n') ++ "\n".toList) else none }

end Responder

end LlmHoneypot
