import LlmHoneypot.Foundation.Text

/-! # Patterns of words

`re.search` for patterns that are alternatives of texts, of whole words, and of commands with one
of several operands behind them. -/

namespace LlmHoneypot

namespace WordPatterns

/-- One alternative: `text`, `\bword\b`, and `\bword\s+(operand|operand)\b`. -/
inductive Alternative
  | literal (text : Str)
  | word (word : Str)
  | command (word : Str) (operands : List Str)
  deriving DecidableEq, Repr

section

-- The code points above ASCII that `str.isalnum` accepts.
variable (wide : Char → Bool)

def isWord (ch : Char) : Bool :=
  let code := ch.toNat
  (48 ≤ code && code ≤ 57) || (65 ≤ code && code ≤ 90) || (97 ≤ code && code ≤ 122) ||
    code == 95 || (128 ≤ code && wide ch)

/-- `\b` between two characters, `none` at an end of the text. -/
def boundary (before behind : Option Char) : Bool :=
  before.any (isWord wide) != behind.any (isWord wide)

def endsWord (word text : Str) : Bool :=
  word.isPrefixOf text && boundary wide word.getLast? (text.drop word.length).head?

/-- Whether an alternative matches at the head of `text`, behind the character `before`. -/
def matchesAt (before : Option Char) (text : Str) : Alternative → Bool
  | .literal literal => literal.isPrefixOf text
  | .word word => boundary wide before text.head? && endsWord wide word text
  | .command word operands =>
      let behind := text.drop word.length
      boundary wide before text.head? && word.isPrefixOf text && behind.head?.any Text.isSpace &&
        operands.any (endsWord wide · (behind.dropWhile Text.isSpace))

def searchFrom (pattern : List Alternative) : (before : Option Char) → (text : Str) → Bool
  | before, [] => pattern.any (matchesAt wide before [])
  | before, ch :: rest =>
      pattern.any (matchesAt wide before (ch :: rest)) || searchFrom pattern (some ch) rest

def search (pattern : List Alternative) (text : Str) : Bool := searchFrom wide pattern none text

def Found (pattern : List Alternative) (text : Str) : Prop :=
  ∃ front behind, text = front ++ behind ∧
    ∃ alternative ∈ pattern, matchesAt wide front.getLast? behind alternative = true

end

variable {wide : Char → Bool} {pattern : List Alternative}

theorem getLast?_cons_or (ch : Char) (front : Str) (before : Option Char) :
    (ch :: front).getLast?.or before = front.getLast?.or (some ch) := by
  rw [List.getLast?_cons]
  cases front.getLast? with
  | none => rfl
  | some last => rfl

theorem searchFrom_iff {before : Option Char} {text : Str} :
    searchFrom wide pattern before text = true ↔
      ∃ front behind, text = front ++ behind ∧ ∃ alternative ∈ pattern,
        matchesAt wide (front.getLast?.or before) behind alternative = true := by
  induction text generalizing before with
  | nil =>
      rw [searchFrom, List.any_eq_true]
      constructor
      · intro here
        exact ⟨[], [], rfl, here⟩
      · rintro ⟨front, behind, isText, here⟩
        rcases List.append_eq_nil_iff.mp isText.symm with ⟨noFront, noBehind⟩
        rw [noFront, noBehind] at here
        exact here
  | cons ch rest induction =>
      rw [searchFrom, Bool.or_eq_true, List.any_eq_true, induction]
      constructor
      · rintro (here | ⟨front, behind, isRest, later⟩)
        · exact ⟨[], ch :: rest, rfl, here⟩
        · refine ⟨ch :: front, behind, by rw [isRest, List.cons_append], ?_⟩
          rw [getLast?_cons_or]
          exact later
      · rintro ⟨front, behind, isText, later⟩
        cases front with
        | nil =>
            left
            rw [List.nil_append] at isText
            rw [isText]
            exact later
        | cons first front =>
            right
            injection isText with isFirst isRest
            rw [getLast?_cons_or, ← isFirst] at later
            exact ⟨front, behind, isRest, later⟩

theorem search_iff {text : Str} : search wide pattern text = true ↔ Found wide pattern text := by
  rw [search, searchFrom_iff, Found]
  simp only [Option.or_none]

end WordPatterns

end LlmHoneypot
