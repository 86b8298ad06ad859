import LlmHoneypot.Foundation.Spelling
import Mathlib.Data.List.Chain

/-! # Simple commands

The words and redirections of a simple command, in every spelling and order, and the words
of it that assign to variables. -/

namespace LlmHoneypot

namespace Spelling

/-! ## Redirections -/

inductive RedirectionKind
  | input
  | create
  | append
  | duplicate
  deriving DecidableEq, Repr

def RedirectionKind.text : RedirectionKind → Str
  | .input => ['<']
  | .create => ['>']
  | .append => ['>', '>']
  | .duplicate => ['>', '&']

def DIGITS : List Char := ['0', '1', '2', '3', '4', '5', '6', '7', '8', '9']

structure Redirection where
  descriptor : Str
  kind : RedirectionKind
  blanks : Str
  target : Word
  digits : ∀ ch ∈ descriptor, ch ∈ DIGITS
  blank : ∀ ch ∈ blanks, IsBlank ch

def Redirection.text (redirection : Redirection) : Str :=
  redirection.descriptor ++ (redirection.kind.text ++ (redirection.blanks ++
    redirection.target.text))

def Redirection.IsOutput (redirection : Redirection) : Prop :=
  redirection.descriptor = [] ∨ redirection.descriptor = ['1']

instance (redirection : Redirection) : Decidable redirection.IsOutput :=
  inferInstanceAs (Decidable (_ ∨ _))

def Word.IsNumber (word : Word) : Prop :=
  ∀ piece ∈ word.pieces, ∃ ch, piece = .plain ch ∧ ch ∈ DIGITS

/-! ## Commands -/

inductive Part
  | word (spelled : Word)
  | redirection (spelled : Redirection)

namespace Part

def text : Part → Str
  | .word spelled => spelled.text
  | .redirection spelled => spelled.text

def word? : Part → Option Word
  | .word spelled => some spelled
  | .redirection _ => none

def redirection? : Part → Option Redirection
  | .word _ => none
  | .redirection spelled => some spelled

def last : Part → Word
  | .word spelled => spelled
  | .redirection spelled => spelled.target

def Adjoins (first : Part) : Part → Prop
  | .word _ => False
  | .redirection later => later.descriptor = [] ∧ ¬ first.last.IsNumber

end Part

def partsText (parts : List (Str × Part)) : Str :=
  parts.flatMap fun part => part.1 ++ part.2.text

structure SimpleCommand where
  parts : List (Str × Part)
  trail : Str
  started : parts ≠ []
  blank : ∀ part ∈ parts, ∀ ch ∈ part.1, IsBlank ch
  trailBlank : ∀ ch ∈ trail, IsBlank ch
  separated : parts.IsChain fun first second => second.1 ≠ [] ∨ first.2.Adjoins second.2

namespace SimpleCommand

def text (command : SimpleCommand) : Str := partsText command.parts ++ command.trail

def words (command : SimpleCommand) : List Word := command.parts.filterMap (·.2.word?)

def redirections (command : SimpleCommand) : List Redirection :=
  command.parts.filterMap (·.2.redirection?)

end SimpleCommand

/-! ## The text behind a word -/

def Ends (text : Str) : Prop := ∀ ch ∈ text.head?, IsBlank ch ∨ ch = '<' ∨ ch = '>'

theorem Redirection.head_text (redirection : Redirection) :
    ∃ ch more, redirection.text = ch :: more ∧ (ch ∈ DIGITS ∨ ch = '<' ∨ ch = '>') ∧
      (redirection.descriptor = [] → ch = '<' ∨ ch = '>') := by
  cases number : redirection.descriptor with
  | cons digit digits =>
      apply Exists.intro digit
      apply Exists.intro _
      constructor
      · rw [text, number]
        rfl
      · constructor
        · apply Or.inl
          apply redirection.digits
          rw [number]
          exact List.mem_cons_self ..
        · intro none
          cases none
  | nil =>
      cases isKind : redirection.kind with
      | input =>
          apply Exists.intro '<'
          apply Exists.intro _
          constructor
          · rw [text, number, isKind]
            rfl
          · exact ⟨.inr (.inl rfl), fun _ => .inl rfl⟩
      | create | append | duplicate =>
          apply Exists.intro '>'
          apply Exists.intro _
          constructor
          · rw [text, number, isKind]
            rfl
          · exact ⟨.inr (.inr rfl), fun _ => .inr rfl⟩

theorem SimpleCommand.ends_rest {command : SimpleCommand} {first : Str × Part}
    {rest : List (Str × Part)} (parts : command.parts = first :: rest) :
    Ends (partsText rest) := by
  cases rest with
  | nil =>
      intro ch none
      cases none
  | cons second rest =>
      have separated := command.separated
      rw [parts] at separated
      have apart := (List.isChain_cons_cons.mp separated).1
      intro ch head
      rw [partsText, List.flatMap_cons] at head
      cases blanks : second.1 with
      | cons blank more =>
          rw [blanks] at head
          apply Or.inl
          apply command.blank second _ ch
          · rw [blanks, ← Option.some.inj head]
            exact List.mem_cons_self ..
          · rw [parts]
            exact List.mem_cons_of_mem _ (List.mem_cons_self ..)
      | nil =>
          rcases second with ⟨blanks_, part⟩
          cases part with
          | word spelled =>
              rcases apart with some | never
              · exact absurd blanks some
              · cases never
          | redirection spelled =>
              rcases apart with some | adjoins
              · exact absurd blanks some
              · rcases spelled.head_text with ⟨sign, more, isText, -, isSign⟩
                rw [show blanks_ = [] from blanks, List.nil_append, Part.text, isText] at head
                rw [← Option.some.inj head]
                exact .inr (isSign adjoins.1)

theorem pieces_begin {pieces : List Piece} {front tail : Str}
    (ordinary : ∀ ch ∈ front, ch ≠ '\'' ∧ ch ≠ '"' ∧ ch ≠ '\\')
    (apart : ∀ ch ∈ tail.head?, ch ∉ front) (isPrefix : front <+: pieces.flatMap Piece.text ++ tail) :
    ∃ more, pieces = front.map Piece.plain ++ more := by
  induction front generalizing pieces with
  | nil => exact ⟨pieces, rfl⟩
  | cons ch front induction =>
      have first := ordinary ch (List.mem_cons_self ..)
      cases pieces with
      | nil =>
          rcases isPrefix with ⟨later, isTail⟩
          have head : ch ∈ tail.head? := by
            rw [List.flatMap_nil, List.nil_append] at isTail
            rw [← isTail]
            rfl
          exact absurd (List.mem_cons_self ..) (apart ch head)
      | cons piece pieces =>
          rw [List.flatMap_cons, List.append_assoc] at isPrefix
          cases piece with
          | plain other =>
              have both := List.cons_prefix_cons.mp isPrefix
              rcases induction (fun ch member => ordinary ch (List.mem_cons_of_mem _ member))
                (fun ch head member => apart ch head (List.mem_cons_of_mem _ member)) both.2 with
                ⟨more, isMore⟩
              apply Exists.intro more
              rw [isMore, ← both.1]
              rfl
          | escaped other => exact absurd (List.cons_prefix_cons.mp isPrefix).1 first.2.2
          | single body => exact absurd (List.cons_prefix_cons.mp isPrefix).1 first.1
          | double body => exact absurd (List.cons_prefix_cons.mp isPrefix).1 first.2.1

/-! ## Lines without redirections, and with one at the end -/

namespace Line

def parts (line : Line) : List (Str × Part) :=
  (line.lead, .word line.command) :: line.args.map fun arg => (arg.1.text, .word arg.2)

def words (line : Line) : List Word := line.command :: line.args.map (·.2)

theorem blank_parts (line : Line) : ∀ part ∈ line.parts, ∀ ch ∈ part.1, IsBlank ch := by
  intro part member
  rcases List.mem_cons.mp member with same | inArgs
  · rw [same]
    exact line.leadBlank
  · rcases List.mem_map.mp inArgs with ⟨arg, -, same⟩
    rw [← same]
    exact arg.1.blank

theorem separated_parts (line : Line) :
    line.parts.IsChain fun first second => second.1 ≠ [] ∨ first.2.Adjoins second.2 := by
  have started : ∀ part ∈ line.args.map fun arg => (arg.1.text, Part.word arg.2),
      part.1 ≠ [] := by
    intro part member
    rcases List.mem_map.mp member with ⟨arg, -, same⟩
    rw [← same]
    exact arg.1.started
  apply List.Pairwise.isChain
  apply List.pairwise_cons.mpr
  constructor
  · intro part member
    exact .inl (started part member)
  · apply List.pairwise_of_forall_mem_list
    intro _ _ part member
    exact .inl (started part member)

def simple (line : Line) : SimpleCommand where
  parts := line.parts
  trail := line.trail
  started := List.cons_ne_nil _ _
  blank := line.blank_parts
  trailBlank := line.trailBlank
  separated := line.separated_parts

def redirected (line : Line) (redirection : Redirection) (blanks : Str)
    (blank : ∀ ch ∈ blanks, IsBlank ch)
    (adjoins : blanks = [] → ∀ part ∈ line.parts.getLast?, part.2.Adjoins (.redirection redirection)) :
    SimpleCommand where
  parts := line.parts ++ [(blanks, .redirection redirection)]
  trail := line.trail
  started := List.cons_ne_nil _ _
  blank := by
    intro part member
    rcases List.mem_append.mp member with inLine | isLast
    · exact line.blank_parts part inLine
    · rw [List.mem_singleton.mp isLast]
      exact blank
  trailBlank := line.trailBlank
  separated := by
    apply line.separated_parts.append (List.isChain_singleton _)
    intro part last next first
    rw [← Option.some.inj first]
    by_cases none : blanks = []
    · exact .inr (adjoins none part last)
    · exact .inl none

theorem partsText_parts (line : Line) :
    partsText line.parts = line.lead ++ (line.command.text ++ argsText line.args) := by
  rw [partsText, parts, List.flatMap_cons, List.flatMap_map, List.append_assoc]
  rfl

theorem text_simple (line : Line) : line.simple.text = line.text := by
  rw [SimpleCommand.text, text, ← List.append_assoc]
  exact congrArg (· ++ line.trail) line.partsText_parts

theorem filterMap_args {Found : Type} (find : Part → Option Found) (line : Line) :
    (line.args.map fun arg => (arg.1.text, Part.word arg.2)).filterMap (fun part => find part.2) =
      (line.args.map (·.2)).filterMap fun word => find (.word word) := by
  rw [List.filterMap_map, List.filterMap_map]
  rfl

theorem words_simple (line : Line) : line.simple.words = line.words := by
  have args := line.filterMap_args Part.word?
  rw [show (fun word => Part.word? (.word word)) = some from rfl, List.filterMap_some] at args
  exact congrArg (line.command :: ·) args

theorem redirections_simple (line : Line) : line.simple.redirections = [] := by
  have args := line.filterMap_args Part.redirection?
  rw [show (fun word => Part.redirection? (.word word)) = fun _ => none from rfl,
    List.filterMap_none] at args
  exact args

section

variable {line : Line} {redirection : Redirection} {blanks : Str}
  {blank : ∀ ch ∈ blanks, IsBlank ch}
  {adjoins : blanks = [] → ∀ part ∈ line.parts.getLast?, part.2.Adjoins (.redirection redirection)}

theorem words_redirected :
    (line.redirected redirection blanks blank adjoins).words = line.words := by
  rw [← words_simple, SimpleCommand.words, SimpleCommand.words, redirected, List.filterMap_append]
  exact List.append_nil _

theorem redirections_redirected :
    (line.redirected redirection blanks blank adjoins).redirections = [redirection] := by
  have none := line.redirections_simple
  rw [SimpleCommand.redirections] at none ⊢
  rw [redirected, List.filterMap_append]
  exact congrArg (· ++ [redirection]) none

end

end Line

/-! ## Assignments -/

def isNameStart (ch : Char) : Bool := ch.isAlpha || ch == '_'

def isNameChar (ch : Char) : Bool := ch.isAlphanum || ch == '_'

theorem name_visible {ch : Char} (isName : isNameChar ch = true) :
    Text.isSpace ch = false := by
  have range : 48 ≤ ch.toNat ∧ ch.toNat ≤ 122 := by
    have spelled : (((ch.isUpper || ch.isLower) || ch.isDigit) || ch == '_') = true := isName
    simp only [Bool.or_eq_true, beq_iff_eq] at spelled
    rcases spelled with ((upper | lower) | digit) | bar
    · have both : 65 ≤ ch.toNat ∧ ch.toNat ≤ 90 := of_decide_eq_true upper
      omega
    · have parts := Bool.and_eq_true_iff.mp lower
      have least : 97 ≤ ch.toNat := of_decide_eq_true parts.1
      have greatest : ch.toNat ≤ 122 := of_decide_eq_true parts.2
      omega
    · have parts := Bool.and_eq_true_iff.mp digit
      have least : 48 ≤ ch.toNat := of_decide_eq_true parts.1
      have greatest : ch.toNat ≤ 57 := of_decide_eq_true parts.2
      omega
    · rw [bar]
      decide
  rw [Text.isSpace, Bool.eq_false_iff]
  simp only [ne_eq, Bool.or_eq_true, Bool.and_eq_true, decide_eq_true_eq, beq_iff_eq]
  omega

def IsName (text : Str) : Prop :=
  text.head?.any isNameStart = true ∧ text.all isNameChar = true

theorem IsName.started {name : Str} (isName : IsName name) :
    ∃ ch rest, name = ch :: rest ∧ isNameStart ch = true := by
  rcases isName with ⟨start, -⟩
  cases name with
  | nil => cases start
  | cons ch rest => exact ⟨ch, rest, rfl, start⟩

def assignmentOf (text : Str) : Option (Str × Str) :=
  match text.takeWhile isNameChar, text.dropWhile isNameChar with
  | ch :: name, '=' :: value => if isNameStart ch then some (ch :: name, value) else none
  | _, _ => none

theorem assignmentOf_eq_some {text name value : Str} :
    assignmentOf text = some (name, value) ↔ IsName name ∧ text = name ++ '=' :: value := by
  constructor
  · intro found
    unfold assignmentOf at found
    split at found
    · rename_i ch front back isName isValue
      split at found
      · rename_i starts
        cases found
        constructor
        · apply And.intro starts
          rw [← isName]
          exact List.all_takeWhile
        · rw [← isName, ← isValue]
          exact (List.takeWhile_append_dropWhile ..).symm
      · cases found
    · cases found
  · intro both
    rcases both with ⟨isName, isText⟩
    rcases isName.started with ⟨ch, rest, isCons, starts⟩
    have all := List.all_eq_true.mp isName.2
    have sign : isNameChar '=' = false := rfl
    have front : text.takeWhile isNameChar = ch :: rest := by
      rw [isText, List.takeWhile_append_of_pos all, List.takeWhile_cons_of_neg (by simp [sign]),
        List.append_nil, isCons]
    have back : text.dropWhile isNameChar = '=' :: value := by
      rw [isText, List.dropWhile_append_of_pos all, List.dropWhile_cons_of_neg (by simp [sign])]
    simp only [assignmentOf, front, back, starts, if_true, isCons]

def Piece.isName : Piece → Bool
  | .plain ch => isNameChar ch
  | _ => false

def Word.assignment? (word : Word) : Option (Str × Str) :=
  match word.pieces.takeWhile Piece.isName, word.pieces.dropWhile Piece.isName with
  | .plain ch :: name, .plain '=' :: value =>
      if isNameStart ch then some (ch :: name.flatMap Piece.value, value.flatMap Piece.value)
      else none
  | _, _ => none

theorem names_plain {pieces : List Piece} (all : ∀ piece ∈ pieces, piece.isName = true) :
    pieces = (pieces.flatMap Piece.value).map Piece.plain ∧
      (pieces.flatMap Piece.value).all isNameChar = true := by
  induction pieces with
  | nil => exact ⟨rfl, rfl⟩
  | cons piece pieces induction =>
      have later := induction fun other member => all other (List.mem_cons_of_mem _ member)
      have first := all piece (List.mem_cons_self ..)
      cases piece with
      | plain ch =>
          constructor
          · rw [List.flatMap_cons, List.map_append, ← later.1]
            rfl
          · rw [List.flatMap_cons, List.all_append, later.2]
            simpa [Piece.value, Piece.isName] using first
      | escaped ch => cases first
      | single body => cases first
      | double body => cases first

theorem Word.assignment_eq_some {word : Word} {name value : Str} :
    word.assignment? = some (name, value) ↔
      IsName name ∧ ∃ pieces, word.pieces = name.map Piece.plain ++ .plain '=' :: pieces ∧
        value = pieces.flatMap Piece.value := by
  constructor
  · intro found
    unfold assignment? at found
    split at found
    · rename_i ch front back isName isValue
      split at found
      · rename_i starts
        cases found
        have names : ∀ piece ∈ Piece.plain ch :: front, piece.isName = true := by
          rw [← isName]
          exact List.all_eq_true.mp List.all_takeWhile
        have parts := names_plain names
        constructor
        · exact ⟨starts, parts.2⟩
        · apply Exists.intro back
          apply And.intro _ rfl
          have whole := word.pieces.takeWhile_append_dropWhile (p := Piece.isName)
          rw [isName, isValue] at whole
          rw [← whole]
          exact congrArg (· ++ Piece.plain '=' :: back) parts.1
      · cases found
    · cases found
  · intro both
    rcases both with ⟨isName, pieces, isPieces, rfl⟩
    rcases isName.started with ⟨ch, rest, isCons, starts⟩
    have all : ∀ piece ∈ name.map Piece.plain, piece.isName = true := by
      intro piece member
      rcases List.mem_map.mp member with ⟨ch, inName, same⟩
      rw [← same]
      exact List.all_eq_true.mp isName.2 ch inName
    have sign : (Piece.plain '=').isName = false := rfl
    have front : word.pieces.takeWhile Piece.isName = .plain ch :: rest.map Piece.plain := by
      rw [isPieces, List.takeWhile_append_of_pos all,
        List.takeWhile_cons_of_neg (by simp [sign]), List.append_nil, isCons]
      rfl
    have back : word.pieces.dropWhile Piece.isName = .plain '=' :: pieces := by
      rw [isPieces, List.dropWhile_append_of_pos all,
        List.dropWhile_cons_of_neg (by simp [sign])]
    have values : (rest.map Piece.plain).flatMap Piece.value = rest := by
      rw [List.flatMap_map]
      exact List.flatMap_singleton' rest
    simp only [assignment?, front, back, starts, if_true, values, isCons]

end Spelling

end LlmHoneypot
