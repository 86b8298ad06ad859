import LlmHoneypot.Foundation.ShellWords

/-! # Spelled words

The words of a simple command in every spelling that a shell reads them from: plain,
escaped, in single and in double quotes, and mixed within a word. -/

namespace LlmHoneypot

namespace Spelling

inductive Inner
  | char (ch : Char)
  | escaped (ch : Char)
  deriving DecidableEq, Repr

inductive Piece
  | plain (ch : Char)
  | escaped (ch : Char)
  | single (body : Str)
  | double (body : List Inner)
  deriving DecidableEq, Repr

def INNER_ESCAPES : List Char := ['$', '`', '"', '\\']

def METACHARACTERS : List Char :=
  [' ', '\t', '\n', '\'', '"', '\\', ';', '&', '|', '<', '>', '(', ')', '$', '`']

def Inner.text : Inner → Str
  | .char ch => [ch]
  | .escaped ch => ['\\', ch]

def Inner.value : Inner → Str
  | .char ch => [ch]
  | .escaped ch => if ch ∈ INNER_ESCAPES then [ch] else ['\\', ch]

def Inner.Valid : Inner → Prop
  | .char ch => ch ∉ INNER_ESCAPES
  | .escaped ch => ch ≠ '\n'

def Piece.text : Piece → Str
  | .plain ch => [ch]
  | .escaped ch => ['\\', ch]
  | .single body => '\'' :: (body ++ ['\''])
  | .double body => '"' :: (body.flatMap Inner.text ++ ['"'])

/-- The piece after the removal of the quotes. -/
def Piece.value : Piece → Str
  | .plain ch => [ch]
  | .escaped ch => [ch]
  | .single body => body
  | .double body => body.flatMap Inner.value

def Piece.Valid : Piece → Prop
  | .plain ch => ch ∉ METACHARACTERS
  | .escaped ch => ch ≠ '\n'
  | .single body => '\'' ∉ body
  | .double body => ∀ inner ∈ body, inner.Valid

/-- A spelled word; an unquoted hash does not begin it, nor an unquoted tilde. -/
structure Word where
  pieces : List Piece
  started : pieces ≠ []
  valid : ∀ piece ∈ pieces, piece.Valid
  ordinary : pieces.head? ≠ some (.plain '#') ∧ pieces.head? ≠ some (.plain '~')

instance : DecidablePred Inner.Valid
  | .char ch => inferInstanceAs (Decidable (ch ∉ INNER_ESCAPES))
  | .escaped ch => inferInstanceAs (Decidable (ch ≠ '\n'))

instance : DecidablePred Piece.Valid
  | .plain ch => inferInstanceAs (Decidable (ch ∉ METACHARACTERS))
  | .escaped ch => inferInstanceAs (Decidable (ch ≠ '\n'))
  | .single body => inferInstanceAs (Decidable ('\'' ∉ body))
  | .double body => inferInstanceAs (Decidable (∀ inner ∈ body, inner.Valid))

namespace Word

def IsOrdinary (text : Str) : Prop :=
  text ≠ [] ∧ (∀ ch ∈ text, ch ∉ METACHARACTERS) ∧ text.head? ≠ some '#' ∧ text.head? ≠ some '~'

instance (text : Str) : Decidable (IsOrdinary text) :=
  haveI := List.decidableBAll (· ∉ METACHARACTERS) text
  inferInstanceAs (Decidable (_ ∧ _))

def ofPlain (text : Str) (ordinary : IsOrdinary text) : Word where
  pieces := text.map Piece.plain
  started := by simpa using ordinary.1
  valid := by
    intro piece member
    rcases List.mem_map.mp member with ⟨ch, inText, rfl⟩
    exact ordinary.2.1 ch inText
  ordinary := by
    rw [List.head?_map]
    constructor
    · intro equal
      rcases Option.map_eq_some_iff.mp equal with ⟨ch, first, same⟩
      rw [Piece.plain.inj same] at first
      exact ordinary.2.2.1 first
    · intro equal
      rcases Option.map_eq_some_iff.mp equal with ⟨ch, first, same⟩
      rw [Piece.plain.inj same] at first
      exact ordinary.2.2.2 first

def text (word : Word) : Str := word.pieces.flatMap Piece.text

def value (word : Word) : Str := word.pieces.flatMap Piece.value

end Word

def IsBlank (ch : Char) : Prop := ch = ' ' ∨ ch = '\t'

theorem blank_none : ∀ ch ∈ ([] : Str), IsBlank ch := by simp

theorem space_started : [' '] ≠ ([] : Str) := List.cons_ne_nil _ _

theorem blank_space : ∀ ch ∈ [' '], IsBlank ch := by simp [IsBlank]

structure Gap where
  text : Str
  started : text ≠ []
  blank : ∀ ch ∈ text, IsBlank ch

def argsText (args : List (Gap × Word)) : Str :=
  args.flatMap fun arg => arg.1.text ++ arg.2.text

structure Line where
  lead : Str
  command : Word
  args : List (Gap × Word)
  trail : Str
  leadBlank : ∀ ch ∈ lead, IsBlank ch
  trailBlank : ∀ ch ∈ trail, IsBlank ch

namespace Line

def text (line : Line) : Str :=
  line.lead ++ (line.command.text ++ argsText line.args ++ line.trail)

/-- The arguments that the command is called with. -/
def values (line : Line) : List Str := line.args.map fun arg => arg.2.value

end Line

/-! ## Quoting -/

section

open ShellSyntax

def Guarded (quoting : Quoting) (text : Str) : Prop :=
  ∀ symbol ∈ annotateFrom quoting text, symbol.1 ∈ SEPARATORS → symbol.2 ≠ .plain

theorem annotateFrom_append (quoting : Quoting) (first second : Str) :
    annotateFrom quoting (first ++ second) =
      annotateFrom quoting first ++ annotateFrom (quoting.after first) second := by
  induction first generalizing quoting with
  | nil => rfl
  | cons ch first induction =>
      rw [List.cons_append, annotateFrom, annotateFrom, induction, after_cons, List.cons_append]

theorem Guarded.append {quoting : Quoting} {first second : Str} (guarded : Guarded quoting first)
    (later : Guarded (quoting.after first) second) : Guarded quoting (first ++ second) := by
  intro symbol member
  rw [annotateFrom_append] at member
  rcases List.mem_append.mp member with inFirst | inSecond
  · exact guarded symbol inFirst
  · exact later symbol inSecond

theorem guarded_within {quoting : Quoting} {text : Str} (quoted : quoting ≠ .plain)
    (stays : ∀ ch ∈ text, quoting.next ch = quoting) :
    Guarded quoting text ∧ quoting.after text = quoting := by
  induction text with
  | nil =>
      apply And.intro _ rfl
      intro symbol member
      cases member
  | cons ch text induction =>
      have next := stays ch (List.mem_cons_self ..)
      have later := induction fun other member => stays other (List.mem_cons_of_mem _ member)
      rw [after_cons, next]
      apply And.intro _ later.2
      intro symbol member
      rw [annotateFrom, next] at member
      rcases List.mem_cons.mp member with same | inText
      · intro _
        rw [same]
        exact quoted
      · exact later.1 symbol inText

theorem Inner.guarded {inner : Inner} (valid : inner.Valid) :
    Guarded .double inner.text ∧ Quoting.double.after inner.text = .double := by
  cases inner with
  | char ch =>
      apply guarded_within (by decide)
      intro other member
      rw [List.mem_singleton.mp member]
      have notQuote : ch ≠ '"' := by
        intro same
        apply valid
        rw [same]
        decide
      have notEscape : ch ≠ '\\' := by
        intro same
        apply valid
        rw [same]
        decide
      rw [Quoting.next, if_neg notQuote, if_neg notEscape]
  | escaped ch =>
      apply And.intro _ rfl
      intro symbol member
      rcases List.mem_cons.mp member with same | later
      · rw [same]
        simp
      · rw [List.mem_singleton.mp later]
        simp [Quoting.next]

theorem Inner.guarded_all {body : List Inner} (valid : ∀ inner ∈ body, inner.Valid) :
    Guarded .double (body.flatMap Inner.text) ∧
      Quoting.double.after (body.flatMap Inner.text) = .double := by
  induction body with
  | nil => exact guarded_within (by decide) fun _ member => absurd member List.not_mem_nil
  | cons inner body induction =>
      have first := Inner.guarded (valid inner (List.mem_cons_self ..))
      have later := induction fun other member => valid other (List.mem_cons_of_mem _ member)
      rw [List.flatMap_cons]
      constructor
      · apply first.1.append
        rw [first.2]
        exact later.1
      · rw [after_append, first.2]
        exact later.2

theorem Guarded.cons {quoting : Quoting} {ch : Char} {text : Str}
    (harmless : ch ∈ SEPARATORS → quoting ≠ .plain) (later : Guarded (quoting.next ch) text) :
    Guarded quoting (ch :: text) := by
  intro symbol member
  rw [annotateFrom] at member
  rcases List.mem_cons.mp member with same | inText
  · rw [same]
    exact harmless
  · exact later symbol inText

theorem guarded_nil (quoting : Quoting) : Guarded quoting [] := by
  intro symbol member
  cases member

theorem Piece.plain_cases {ch : Char} (valid : (Piece.plain ch).Valid) :
    ¬ Shlex.isQuote ch = true ∧ ch ≠ '\\' ∧ ch ≠ ' ' ∧ ch ≠ '\t' ∧ ch ≠ '\n' ∧
      ch ∉ SEPARATORS := by
  simp only [Piece.Valid, METACHARACTERS, List.mem_cons, List.not_mem_nil, or_false,
    not_or] at valid
  simp [Shlex.isQuote, SEPARATORS, valid]

theorem Piece.guarded {piece : Piece} (valid : piece.Valid) :
    Guarded .plain piece.text ∧ Quoting.plain.after piece.text = .plain := by
  cases piece with
  | plain ch =>
      rcases Piece.plain_cases valid with ⟨notQuote, notEscape, -, -, -, notSeparator⟩
      constructor
      · apply Guarded.cons _ (guarded_nil _)
        intro separator
        exact absurd separator notSeparator
      · exact next_of_ordinary notQuote notEscape
  | escaped ch =>
      apply And.intro _ rfl
      apply Guarded.cons (by decide)
      apply Guarded.cons _ (guarded_nil _)
      intro _
      decide
  | single body =>
      have within : ∀ ch ∈ body, Quoting.single.next ch = .single := by
        intro ch member
        apply if_neg
        intro same
        rw [same] at member
        exact valid member
      have inside := guarded_within (by decide) within
      constructor
      · apply Guarded.cons (by decide)
        apply inside.1.append
        rw [inside.2]
        apply Guarded.cons (by decide) (guarded_nil _)
      · have ends : Quoting.single.after (body ++ ['\'']) = .plain := by
          rw [after_append, inside.2]
          rfl
        exact ends
  | double body =>
      have inside := Inner.guarded_all valid
      constructor
      · apply Guarded.cons (by decide)
        apply inside.1.append
        rw [inside.2]
        apply Guarded.cons (by decide) (guarded_nil _)
      · have ends : Quoting.double.after (body.flatMap Inner.text ++ ['"']) = .plain := by
          rw [after_append, inside.2]
          rfl
        exact ends

theorem guarded_flatMap {Part : Type} {text : Part → Str} {parts : List Part}
    (each : ∀ part ∈ parts,
      Guarded .plain (text part) ∧ Quoting.plain.after (text part) = .plain) :
    Guarded .plain (parts.flatMap text) ∧ Quoting.plain.after (parts.flatMap text) = .plain := by
  induction parts with
  | nil => exact ⟨guarded_nil _, rfl⟩
  | cons part parts induction =>
      have first := each part (List.mem_cons_self ..)
      have later := induction fun other member => each other (List.mem_cons_of_mem _ member)
      rw [List.flatMap_cons]
      constructor
      · apply first.1.append
        rw [first.2]
        exact later.1
      · rw [after_append, first.2]
        exact later.2

theorem guarded_blank {text : Str} (blank : ∀ ch ∈ text, IsBlank ch) :
    Guarded .plain text ∧ Quoting.plain.after text = .plain := by
  have each : ∀ ch ∈ text, Guarded .plain [ch] ∧ Quoting.plain.after [ch] = .plain := by
    intro ch member
    rcases blank ch member with same | same
    · rw [same]
      exact ⟨Guarded.cons (by decide) (guarded_nil _), rfl⟩
    · rw [same]
      exact ⟨Guarded.cons (by decide) (guarded_nil _), rfl⟩
  have all := guarded_flatMap each
  rw [List.flatMap_singleton'] at all
  exact all

theorem Word.guarded (word : Word) :
    Guarded .plain word.text ∧ Quoting.plain.after word.text = .plain :=
  guarded_flatMap fun piece member => Piece.guarded (word.valid piece member)

theorem guarded_args (args : List (Gap × Word)) :
    Guarded .plain (argsText args) ∧ Quoting.plain.after (argsText args) = .plain := by
  apply guarded_flatMap
  intro arg member
  have gap := guarded_blank arg.1.blank
  have word := arg.2.guarded
  constructor
  · apply gap.1.append
    rw [gap.2]
    exact word.1
  · rw [after_append, gap.2]
    exact word.2

theorem Line.guarded (line : Line) : Guarded .plain line.text := by
  have lead := guarded_blank line.leadBlank
  have command := line.command.guarded
  have args := guarded_args line.args
  apply lead.1.append
  rw [lead.2]
  apply Guarded.append
  · apply command.1.append
    rw [command.2]
    exact args.1
  · rw [after_append, command.2, args.2]
    exact (guarded_blank line.trailBlank).1

theorem Guarded.not_split {before rest : Str} {ch : Char}
    (guarded : Guarded .plain (before ++ ch :: rest)) (separator : ch ∈ SEPARATORS) :
    Shlex.split (Text.strip before) = none := by
  cases splits : Shlex.split (Text.strip before) with
  | none => rfl
  | some words =>
      have ends := after_of_strip (after_of_split splits)
      have member : (ch, Quoting.plain) ∈ annotateFrom .plain (before ++ ch :: rest) := by
        rw [annotateFrom_append, ends, annotateFrom]
        exact List.mem_append_right _ (List.mem_cons_self ..)
      exact absurd rfl (guarded _ member separator)

end

/-! ## Word splitting -/

/-- Double quotes in which `shlex` sees the escapes that a shell sees, and no carriage
return that it takes for a blank. -/
def Piece.Plain : Piece → Prop
  | .plain ch => ch ≠ '\r'
  | .double body => Inner.escaped '$' ∉ body ∧ Inner.escaped '`' ∉ body
  | _ => True

instance : DecidablePred Piece.Plain
  | .plain ch => inferInstanceAs (Decidable (ch ≠ '\r'))
  | .escaped _ => .isTrue trivial
  | .single _ => .isTrue trivial
  | .double body =>
      inferInstanceAs (Decidable (Inner.escaped '$' ∉ body ∧ Inner.escaped '`' ∉ body))

theorem scan_single {body : Str} (valid : '\'' ∉ body) (token : Str) (quoted : Bool) (rest : Str) :
    Shlex.scan (.quoted '\'') token quoted (body ++ '\'' :: rest) =
      Shlex.scan .word (token ++ body) true rest := by
  induction body generalizing token quoted with
  | nil =>
      rw [List.nil_append, List.append_nil, Shlex.scan, if_pos rfl]
  | cons ch body induction =>
      rw [List.mem_cons, not_or] at valid
      rw [List.cons_append, Shlex.scan, if_neg (Ne.symm valid.1), if_neg (by simp),
        induction valid.2, List.append_assoc]
      rfl

theorem scan_double {body : List Inner} (valid : ∀ inner ∈ body, inner.Valid)
    (noDollar : Inner.escaped '$' ∉ body) (noBackquote : Inner.escaped '`' ∉ body)
    (token : Str) (quoted : Bool) (rest : Str) :
    Shlex.scan (.quoted '"') token quoted (body.flatMap Inner.text ++ '"' :: rest) =
      Shlex.scan .word (token ++ body.flatMap Inner.value) true rest := by
  induction body generalizing token quoted with
  | nil =>
      rw [List.flatMap_nil, List.nil_append, List.flatMap_nil, List.append_nil, Shlex.scan,
        if_pos rfl]
  | cons inner body induction =>
      have later := induction (fun other member => valid other (List.mem_cons_of_mem _ member))
        (fun member => noDollar (List.mem_cons_of_mem _ member))
        (fun member => noBackquote (List.mem_cons_of_mem _ member))
      have here := valid inner (List.mem_cons_self ..)
      rw [List.flatMap_cons, List.flatMap_cons, List.append_assoc, ← List.append_assoc token]
      cases inner with
      | char ch =>
          simp only [Inner.Valid, INNER_ESCAPES, List.mem_cons, List.not_mem_nil, or_false,
            not_or] at here
          rw [Inner.text, List.singleton_append, Shlex.scan, if_neg here.2.2.1,
            if_neg (fun both => here.2.2.2 both.1), later]
          rfl
      | escaped ch =>
          have dollar : ch ≠ '$' := by
            intro same
            rw [same] at noDollar
            exact noDollar (List.mem_cons_self ..)
          have backquote : ch ≠ '`' := by
            intro same
            rw [same] at noBackquote
            exact noBackquote (List.mem_cons_self ..)
          have quote : '\\' ≠ '"' := by decide
          have escape : ch ∈ INNER_ESCAPES ↔ ch = '\\' ∨ ch = '"' := by
            simp [INNER_ESCAPES, dollar, backquote, or_comm]
          rw [Inner.text, List.cons_append, List.singleton_append, Shlex.scan, if_neg quote,
            if_pos ⟨rfl, rfl⟩, Shlex.scan, Inner.value]
          by_cases special : ch = '\\' ∨ ch = '"'
          · rw [if_pos special, if_pos (escape.mpr special), later]
          · rw [if_neg special, if_neg (mt escape.mp special), later]

theorem scan_piece {piece : Piece} (valid : piece.Valid) (plain : piece.Plain) (token : Str)
    (quoted : Bool) (rest : Str) :
    ∃ more, Shlex.scan .word token quoted (piece.text ++ rest) =
        Shlex.scan .word (token ++ piece.value) more rest ∧
      (token ++ piece.value ≠ [] ∨ more = true) := by
  cases piece with
  | plain ch =>
      rcases Piece.plain_cases valid with ⟨notQuote, notEscape, notSpace, notTab, notLine, -⟩
      have notBlank : ¬ Shlex.isBlank ch = true := by
        simp [Shlex.isBlank, notSpace, notTab, notLine, show ch ≠ '\r' from plain]
      apply Exists.intro quoted
      constructor
      · rw [Piece.text, List.singleton_append, Shlex.scan, if_neg notBlank, if_neg notQuote,
          if_neg notEscape]
        rfl
      · apply Or.inl
        simp [Piece.value]
  | escaped ch =>
      apply Exists.intro quoted
      constructor
      · rfl
      · apply Or.inl
        simp [Piece.value]
  | single body =>
      apply Exists.intro true
      apply And.intro _ (.inr rfl)
      have opens : Shlex.scan .word token quoted (Piece.text (.single body) ++ rest) =
          Shlex.scan (.quoted '\'') token quoted (body ++ '\'' :: rest) := by
        rw [Piece.text, List.cons_append, List.append_assoc]
        rfl
      rw [opens, scan_single valid]
      rfl
  | double body =>
      apply Exists.intro true
      apply And.intro _ (.inr rfl)
      have opens : Shlex.scan .word token quoted (Piece.text (.double body) ++ rest) =
          Shlex.scan (.quoted '"') token quoted (body.flatMap Inner.text ++ '"' :: rest) := by
        rw [Piece.text, List.cons_append, List.append_assoc]
        rfl
      rw [opens, scan_double valid plain.1 plain.2]
      rfl

theorem scan_pieces {pieces : List Piece} (valid : ∀ piece ∈ pieces, piece.Valid)
    (plain : ∀ piece ∈ pieces, piece.Plain) (token : Str) (quoted : Bool) (rest : Str)
    (visible : token ≠ [] ∨ quoted = true ∨ pieces ≠ []) :
    ∃ more, Shlex.scan .word token quoted (pieces.flatMap Piece.text ++ rest) =
        Shlex.scan .word (token ++ pieces.flatMap Piece.value) more rest ∧
      (token ++ pieces.flatMap Piece.value ≠ [] ∨ more = true) := by
  induction pieces generalizing token quoted with
  | nil =>
      apply Exists.intro quoted
      rw [List.flatMap_nil, List.flatMap_nil, List.nil_append, List.append_nil]
      apply And.intro rfl
      rcases visible with started | isQuoted | none
      · exact .inl started
      · exact .inr isQuoted
      · exact absurd rfl none
  | cons piece pieces induction =>
      rcases scan_piece (valid piece (List.mem_cons_self ..)) (plain piece (List.mem_cons_self ..))
        token quoted (pieces.flatMap Piece.text ++ rest) with ⟨more, scanned, some⟩
      have seen : token ++ piece.value ≠ [] ∨ more = true ∨ pieces ≠ [] := by
        rcases some with started | isQuoted
        · exact .inl started
        · exact .inr (.inl isQuoted)
      rcases induction (fun other member => valid other (List.mem_cons_of_mem _ member))
        (fun other member => plain other (List.mem_cons_of_mem _ member)) (token ++ piece.value)
        more seen with ⟨last, later, some⟩
      apply Exists.intro last
      rw [List.flatMap_cons, List.flatMap_cons, List.append_assoc, scanned, later,
        ← List.append_assoc]
      exact ⟨rfl, some⟩

theorem scan_begin {ch : Char} {rest : Str} (visible : ¬ Shlex.isBlank ch = true) (token : Str)
    (quoted : Bool) : Shlex.scan .between token quoted (ch :: rest) =
      Shlex.scan .word [] false (ch :: rest) := by
  rw [Shlex.scan, Shlex.scan, if_neg visible, if_neg visible]
  by_cases escape : ch = '\\'
  · rw [if_pos escape, escape]
    rfl
  · rw [if_neg escape]
    by_cases quote : Shlex.isQuote ch = true
    · rw [if_pos quote, if_pos quote]
    · rw [if_neg quote, if_neg quote, if_neg escape]
      rfl

theorem Piece.head_visible {piece : Piece} (valid : piece.Valid) (plain : piece.Plain) :
    ∃ ch rest, piece.text = ch :: rest ∧ ¬ Shlex.isBlank ch = true := by
  cases piece with
  | plain ch =>
      rcases Piece.plain_cases valid with ⟨-, -, notSpace, notTab, notLine, -⟩
      apply Exists.intro ch
      apply Exists.intro []
      apply And.intro rfl
      simp [Shlex.isBlank, notSpace, notTab, notLine, show ch ≠ '\r' from plain]
  | escaped ch => exact ⟨'\\', [ch], rfl, by decide⟩
  | single body => exact ⟨'\'', _, rfl, by decide⟩
  | double body => exact ⟨'"', _, rfl, by decide⟩

theorem scan_started {pieces : List Piece} (started : pieces ≠ [])
    (valid : ∀ piece ∈ pieces, piece.Valid) (plain : ∀ piece ∈ pieces, piece.Plain) (token : Str)
    (quoted : Bool) (rest : Str) :
    ∃ more, Shlex.scan .between token quoted (pieces.flatMap Piece.text ++ rest) =
        Shlex.scan .word (pieces.flatMap Piece.value) more rest ∧
      (pieces.flatMap Piece.value ≠ [] ∨ more = true) := by
  have begins : Shlex.scan .between token quoted (pieces.flatMap Piece.text ++ rest) =
      Shlex.scan .word [] false (pieces.flatMap Piece.text ++ rest) := by
    rcases List.exists_cons_of_ne_nil started with ⟨piece, later, equal⟩
    have member : piece ∈ pieces := by
      rw [equal]
      exact List.mem_cons_self ..
    rcases Piece.head_visible (valid piece member) (plain piece member) with
      ⟨ch, more, head, visible⟩
    rw [equal, List.flatMap_cons, head, List.cons_append, List.cons_append]
    exact scan_begin visible token quoted
  rw [begins]
  exact scan_pieces valid plain [] false rest (.inr (.inr started))

theorem scan_word (word : Word) (plain : ∀ piece ∈ word.pieces, piece.Plain) (token : Str)
    (quoted : Bool) (rest : Str) :
    ∃ more, Shlex.scan .between token quoted (word.text ++ rest) =
        Shlex.scan .word word.value more rest ∧ (word.value ≠ [] ∨ more = true) :=
  scan_started word.started word.valid plain token quoted rest

theorem scan_blank {blanks : Str} (blank : ∀ ch ∈ blanks, IsBlank ch) (rest : Str) :
    Shlex.scan .between [] false (blanks ++ rest) = Shlex.scan .between [] false rest := by
  induction blanks with
  | nil => rfl
  | cons ch blanks induction =>
      have isBlank : Shlex.isBlank ch = true := by
        rcases blank ch (List.mem_cons_self ..) with same | same
        · rw [same]
          rfl
        · rw [same]
          rfl
      rw [List.cons_append, Shlex.scan, if_pos isBlank]
      exact induction fun other member => blank other (List.mem_cons_of_mem _ member)

theorem scan_args {args : List (Gap × Word)}
    (plain : ∀ arg ∈ args, ∀ piece ∈ arg.2.pieces, piece.Plain) {token : Str} {quoted : Bool}
    (visible : token ≠ [] ∨ quoted = true) :
    Shlex.scan .word token quoted (argsText args) =
      some (token :: args.map fun arg => arg.2.value) := by
  have counts : ¬ (token = [] ∧ quoted = false) := by
    intro both
    rcases visible with started | isQuoted
    · exact started both.1
    · rw [both.2] at isQuoted
      cases isQuoted
  induction args generalizing token quoted with
  | nil =>
      rw [argsText, List.flatMap_nil, Shlex.scan, if_neg counts]
      rfl
  | cons arg args induction =>
      rcases arg with ⟨gap, word⟩
      rcases List.exists_cons_of_ne_nil gap.started with ⟨ch, blanks, equal⟩
      have blank := gap.blank
      rw [equal] at blank
      have isBlank : Shlex.isBlank ch = true := by
        rcases blank ch (List.mem_cons_self ..) with same | same
        · rw [same]
          rfl
        · rw [same]
          rfl
      rcases scan_word word (plain (gap, word) (List.mem_cons_self ..)) [] false (argsText args)
        with ⟨more, scanned, some⟩
      have ends : ¬ (word.value = [] ∧ more = false) := by
        intro both
        rcases some with started | isQuoted
        · exact started both.1
        · rw [both.2] at isQuoted
          cases isQuoted
      have later := induction (fun other member => plain other (List.mem_cons_of_mem _ member))
        some ends
      have text : argsText ((gap, word) :: args) = ch :: (blanks ++ (word.text ++ argsText args)) := by
        rw [argsText, List.flatMap_cons, equal, List.cons_append, List.cons_append,
          List.append_assoc]
        rfl
      rw [text, Shlex.scan, if_pos isBlank, if_neg counts,
        scan_blank fun other member => blank other (List.mem_cons_of_mem _ member), scanned, later]
      rfl

theorem split_started {pieces : List Piece} (started : pieces ≠ [])
    (valid : ∀ piece ∈ pieces, piece.Valid) (plain : ∀ piece ∈ pieces, piece.Plain)
    {args : List (Gap × Word)}
    (plainArgs : ∀ arg ∈ args, ∀ piece ∈ arg.2.pieces, piece.Plain) :
    Shlex.split (pieces.flatMap Piece.text ++ argsText args) =
      some (pieces.flatMap Piece.value :: args.map fun arg => arg.2.value) := by
  rcases scan_started started valid plain [] false (argsText args) with ⟨more, scanned, some⟩
  rw [Shlex.split, scanned]
  exact scan_args plainArgs some

theorem split_words (command : Word) {args : List (Gap × Word)}
    (plainCommand : ∀ piece ∈ command.pieces, piece.Plain)
    (plain : ∀ arg ∈ args, ∀ piece ∈ arg.2.pieces, piece.Plain) :
    Shlex.split (command.text ++ argsText args) =
      some (command.value :: args.map fun arg => arg.2.value) :=
  split_started command.started command.valid plainCommand plain

/-! ## Blanks around a line -/

theorem space_of_blank {ch : Char} (blank : IsBlank ch) : Text.isSpace ch = true := by
  rcases blank with same | same
  · rw [same]
    rfl
  · rw [same]
    rfl

theorem strip_blank {lead body trail : Str} (leadBlank : ∀ ch ∈ lead, IsBlank ch)
    (trailBlank : ∀ ch ∈ trail, IsBlank ch) (started : body ≠ [])
    (begins : ∀ ch ∈ body.head?, Text.isSpace ch = false)
    (ends : ∀ ch ∈ body.getLast?, Text.isSpace ch = false) :
    Text.strip (lead ++ (body ++ trail)) = body := by
  have front : Text.lstrip (lead ++ (body ++ trail)) = body ++ trail := by
    rw [Text.lstrip,
      List.dropWhile_append_of_pos fun ch member => space_of_blank (leadBlank ch member)]
    rcases List.exists_cons_of_ne_nil started with ⟨ch, rest, rfl⟩
    rw [List.cons_append, List.dropWhile_cons_of_neg]
    simp [begins ch rfl]
  have reversed : ∀ ch ∈ trail.reverse, Text.isSpace ch = true := fun ch member =>
    space_of_blank (trailBlank ch (List.mem_reverse.mp member))
  rw [Text.strip, front, Text.rstrip, List.rdropWhile, List.reverse_append,
    List.dropWhile_append_of_pos reversed]
  rcases List.eq_nil_or_concat body with empty | ⟨front, ch, rfl⟩
  · exact absurd empty started
  · rw [List.concat_eq_append] at ends ⊢
    rw [List.reverse_append, List.reverse_singleton, List.singleton_append,
      List.dropWhile_cons_of_neg, ← List.singleton_append, List.reverse_append,
      List.reverse_reverse, List.reverse_singleton]
    simp [ends ch (by simp)]

end Spelling

end LlmHoneypot
