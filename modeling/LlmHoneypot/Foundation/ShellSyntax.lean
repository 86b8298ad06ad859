import LlmHoneypot.Foundation.AndOrList
import LlmHoneypot.Foundation.Text

/-! # Quoting in a shell line

Every character of a line with the quoting it is read in, and the characters that
are operators there. This is the shell's own reading of a line, whatever a program
that handles the line makes of it. -/

namespace LlmHoneypot

namespace ShellSyntax

inductive Quoting
  | plain
  | single
  | double
  | escaped
  | escapedInDouble
  deriving DecidableEq, Repr

def Quoting.next : Quoting → Char → Quoting
  | .plain, ch =>
      if ch = '\'' then .single
      else if ch = '"' then .double
      else if ch = '\\' then .escaped
      else .plain
  | .single, ch => if ch = '\'' then .plain else .single
  | .double, ch =>
      if ch = '"' then .plain
      else if ch = '\\' then .escapedInDouble
      else .double
  | .escaped, _ => .plain
  | .escapedInDouble, _ => .double

abbrev Symbol := Char × Quoting

def annotateFrom : Quoting → Str → List Symbol
  | _, [] => []
  | quoting, ch :: rest => (ch, quoting) :: annotateFrom (quoting.next ch) rest

def annotate (line : Str) : List Symbol := annotateFrom .plain line

def chars (symbols : List Symbol) : Str := symbols.map Prod.fst

@[simp] theorem chars_annotateFrom (quoting : Quoting) (line : Str) :
    chars (annotateFrom quoting line) = line := by
  induction line generalizing quoting with
  | nil => rfl
  | cons ch rest induction => simpa [annotateFrom, chars] using induction _

@[simp] theorem chars_annotate (line : Str) : chars (annotate line) = line :=
  chars_annotateFrom _ line

/-! ## Operators -/

def SEPARATORS : List Char := [';', '&', '|', '\n']

def REDIRECTIONS : List Char := ['<', '>']

def isSeparator (symbol : Symbol) : Bool := symbol.2 = .plain ∧ symbol.1 ∈ SEPARATORS

def isRedirection (symbol : Symbol) : Bool := symbol.2 = .plain ∧ symbol.1 ∈ REDIRECTIONS

def isSubstitution (symbol : Symbol) (rest : List Symbol) : Bool :=
  (symbol.2 = .plain ∨ symbol.2 = .double) ∧
    (symbol.1 = '`' ∨ symbol.1 = '$' ∧ (chars rest).head? = some '(')

def hasOperator : List Symbol → Bool
  | [] => false
  | symbol :: rest =>
      isSeparator symbol || isRedirection symbol || isSubstitution symbol rest ||
        hasOperator rest

def hasSeparator (symbols : List Symbol) : Bool := symbols.any isSeparator

def CONSTRUCTS : List Str := ["<".toList, ">".toList, "`".toList, "$(".toList]

theorem construct_of_symbol {symbol : Symbol} {rest : List Symbol}
    (operator : (isRedirection symbol || isSubstitution symbol rest) = true) :
    ∃ part ∈ CONSTRUCTS, part <+: chars (symbol :: rest) := by
  rcases symbol with ⟨ch, quoting⟩
  have single : [ch] <+: chars ((ch, quoting) :: rest) := ⟨chars rest, rfl⟩
  rcases Bool.or_eq_true_iff.mp operator with redirection | substitution
  · have member : ch = '<' ∨ ch = '>' := by
      simpa [isRedirection, REDIRECTIONS] using (of_decide_eq_true redirection).2
    refine ⟨[ch], ?_, single⟩
    rcases member with rfl | rfl <;> decide
  · rcases (of_decide_eq_true substitution).2 with backtick | ⟨dollar, opens⟩
    · refine ⟨[ch], ?_, single⟩
      simp only at backtick
      rw [backtick]
      decide
    · rcases List.head?_eq_some_iff.mp opens with ⟨later, equal⟩
      refine ⟨"$(".toList, by decide, later, ?_⟩
      simp only [chars] at equal dollar
      simp [chars, equal, dollar]

theorem hasOperator_of_free {symbols : List Symbol}
    (free : ∀ part ∈ CONSTRUCTS, ¬ part <:+: chars symbols) :
    hasOperator symbols = hasSeparator symbols := by
  induction symbols with
  | nil => rfl
  | cons symbol rest induction =>
      have freeRest : ∀ part ∈ CONSTRUCTS, ¬ part <:+: chars rest := fun part member isInfix =>
        free part member (List.infix_cons isInfix)
      have noConstruct : (isRedirection symbol || isSubstitution symbol rest) = false := by
        rw [Bool.eq_false_iff]
        intro operator
        rcases construct_of_symbol operator with ⟨part, member, isPrefix⟩
        exact free part member isPrefix.isInfix
      rcases Bool.or_eq_false_iff.mp noConstruct with ⟨noRedirection, noSubstitution⟩
      simp only [hasOperator, noRedirection, noSubstitution, Bool.or_false, induction freeRest]
      rfl

/-! ## Commands -/

/-- The pipelines of a line with what joins each to the one before it. A pipeline in
the background keeps its `&`. `current` is the text of the one being read. -/
def pipelines (current : Str) (joined : AndOrList.Connective) :
    List Symbol → List (AndOrList.Connective × Str)
  | [] => [(joined, current)]
  | ('&', .plain) :: ('&', .plain) :: rest => (joined, current) :: pipelines [] .and rest
  | ('|', .plain) :: ('|', .plain) :: rest => (joined, current) :: pipelines [] .or rest
  | (';', .plain) :: rest => (joined, current) :: pipelines [] .seq rest
  | ('\n', .plain) :: rest => (joined, current) :: pipelines [] .seq rest
  -- An ampersand beside an angle bracket belongs to a redirection.
  | ('>', .plain) :: ('&', .plain) :: rest => pipelines (current ++ ['>', '&']) joined rest
  | ('<', .plain) :: ('&', .plain) :: rest => pipelines (current ++ ['<', '&']) joined rest
  | ('&', .plain) :: ('>', .plain) :: rest => pipelines (current ++ ['&', '>']) joined rest
  | ('&', .plain) :: rest => (joined, current ++ ['&']) :: pipelines [] .seq rest
  | symbol :: rest => pipelines (current ++ [symbol.1]) joined rest

/-- The pipelines of a line that a shell can execute: nothing may be left out before an
operator, and a last `;` or `&` ends the line. -/
def commands (line : Str) : List (AndOrList.Connective × Str) :=
  let isBlank := fun piece : AndOrList.Connective × Str => Text.strip piece.2 = []
  let pieces := pipelines [] .seq (annotate line)
  let pieces :=
    if pieces.getLast?.any fun last => last.1 = .seq ∧ isBlank last then pieces.dropLast
    else pieces
  if pieces.any isBlank then [] else pieces

end ShellSyntax

end LlmHoneypot
