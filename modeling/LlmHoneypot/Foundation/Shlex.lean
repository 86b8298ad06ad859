import LlmHoneypot.Foundation.Text

/-! # POSIX word splitting

`shlex.split(text)` with its defaults: POSIX quoting, no comment characters,
words split at blanks only. -/

namespace LlmHoneypot

namespace Shlex

def isBlank (ch : Char) : Bool := ch == ' ' || ch == '\t' || ch == '\r' || ch == '\n'

def isQuote (ch : Char) : Bool := ch == '\'' || ch == '"'

/-- The lexer's `state`: between words, inside a word, inside a quotation, or
just after a backslash. An escape remembers whether it stands in a
double-quoted part. -/
inductive Mode
  | between
  | word
  | quoted (quote : Char)
  | escaped (insideQuote : Bool)
  deriving DecidableEq, Repr

/-- One pass of `read_token` after another. `token` is the word being built and
`quoted` says that some part of it was quoted, so that it counts as a word even
when it is empty. -/
def scan : Mode → (token : Str) → (quoted : Bool) → Str → Option (List Str)
  | .between, _, _, [] => some []
  | .between, token, quoted, ch :: rest =>
      if isBlank ch then scan .between token quoted rest
      else if ch = '\\' then scan (.escaped false) [] false rest
      else if isQuote ch then scan (.quoted ch) [] false rest
      else scan .word [ch] false rest
  | .word, token, quoted, [] =>
      some (if token = [] ∧ quoted = false then [] else [token])
  | .word, token, quoted, ch :: rest =>
      if isBlank ch then
        if token = [] ∧ quoted = false then scan .between [] false rest
        else (scan .between [] false rest).map (token :: ·)
      else if isQuote ch then scan (.quoted ch) token quoted rest
      else if ch = '\\' then scan (.escaped false) token quoted rest
      else scan .word (token ++ [ch]) quoted rest
  | .quoted _, _, _, [] => none
  | .quoted quote, token, _, ch :: rest =>
      if ch = quote then scan .word token true rest
      else if ch = '\\' ∧ quote = '"' then scan (.escaped true) token true rest
      else scan (.quoted quote) (token ++ [ch]) true rest
  | .escaped _, _, _, [] => none
  | .escaped true, token, quoted, ch :: rest =>
      -- Inside double quotes only the quote and the backslash can be escaped.
      if ch = '\\' ∨ ch = '"' then scan (.quoted '"') (token ++ [ch]) quoted rest
      else scan (.quoted '"') (token ++ ['\\', ch]) quoted rest
  | .escaped false, token, quoted, ch :: rest =>
      scan .word (token ++ [ch]) quoted rest

def split (text : Str) : Option (List Str) := scan .between [] false text

example : split "echo 'a b' \"c\\\"d\" e\\ f ''".toList =
    some ["echo".toList, "a b".toList, "c\"d".toList, "e f".toList, []] := by decide

theorem scan_begun {mode : Mode} {begun token : Str} {quoted : Bool} {text : Str}
    {words : List Str} (inWord : mode ≠ .between) (started : token ≠ [])
    (begins : begun <+: token) (scanned : scan mode token quoted text = some words) :
    ∃ word later, words = word :: later ∧ begun <+: word := by
  have grown : ∀ more, begun <+: token ++ more :=
    fun more => begins.trans (List.prefix_append token more)
  induction text generalizing mode token quoted words with
  | nil =>
      cases mode with
      | between => exact absurd rfl inWord
      | word =>
          simp only [scan, started, false_and, if_false, Option.some.injEq] at scanned
          exact ⟨token, [], scanned.symm, begins⟩
      | quoted quote => cases scanned
      | escaped insideQuote => simp [scan] at scanned
  | cons ch rest induction =>
      have later : ∀ {mode : Mode} {quoted : Bool} (more : Str), mode ≠ .between →
          scan mode (token ++ more) quoted rest = some words →
            ∃ word later, words = word :: later ∧ begun <+: word := by
        intro mode quoted more inWord scanned
        apply induction inWord (by simp [started]) (grown more) scanned
        intro further
        exact (grown more).trans (List.prefix_append ..)
      have same : ∀ {mode : Mode} {quoted : Bool}, mode ≠ .between →
          scan mode token quoted rest = some words →
            ∃ word later, words = word :: later ∧ begun <+: word := by
        intro mode quoted inWord scanned
        exact induction inWord started begins scanned grown
      cases mode with
      | between => exact absurd rfl inWord
      | word =>
          simp only [scan, started, false_and, if_false] at scanned
          split at scanned
          · rcases Option.map_eq_some_iff.mp scanned with ⟨rest, -, equal⟩
            exact ⟨token, rest, equal.symm, begins⟩
          · split at scanned
            · exact same (by simp) scanned
            · split at scanned
              · exact same (by simp) scanned
              · exact later [ch] (by simp) scanned
      | quoted quote =>
          simp only [scan] at scanned
          split at scanned
          · exact same (by simp) scanned
          · split at scanned
            · exact same (by simp) scanned
            · exact later [ch] (by simp) scanned
      | escaped insideQuote =>
          cases insideQuote with
          | true =>
              simp only [scan] at scanned
              split at scanned
              · exact later [ch] (by simp) scanned
              · exact later ['\\', ch] (by simp) scanned
          | false => exact later [ch] (by simp) scanned

theorem split_ordinary {ch : Char} {text : Str} {words : List Str} (visible : ¬ isBlank ch = true)
    (notEscape : ch ≠ '\\') (notQuote : ¬ isQuote ch = true)
    (splits : split (ch :: text) = some words) :
    ∃ word later, words = word :: later ∧ [ch] <+: word := by
  simp only [split, scan, visible, notEscape, notQuote, if_false] at splits
  exact scan_begun (by simp) (by simp) List.prefix_rfl splits

end Shlex

end LlmHoneypot
