import LlmHoneypot.Responder

/-! # Lines of plain words

A line whose words are written as they are, with a blank between two of them, reaches the
renderer of its command with these words. -/

namespace LlmHoneypot

namespace Responder

def NOT_PLAIN : List Char := ['\'', '"', '\\', '>', '<', ';', '&', '|', '(', '`']

def isPlain (ch : Char) : Bool := !Text.isSpace ch && !NOT_PLAIN.contains ch

structure IsPlainWord (word : Str) : Prop where
  started : word ≠ []
  plain : word.all isPlain = true

instance (word : Str) : Decidable (IsPlainWord word) :=
  decidable_of_iff (word ≠ [] ∧ word.all isPlain = true)
    ⟨fun both => ⟨both.1, both.2⟩, fun plain => ⟨plain.started, plain.plain⟩⟩

def lineOf (words : List Str) : Str := Text.join " ".toList words

theorem isPlain_iff {ch : Char} :
    isPlain ch = true ↔ Text.isSpace ch = false ∧ ch ∉ NOT_PLAIN := by
  simp [isPlain]

variable {word : Str} {words : List Str}

theorem lineOf_cons_cons (word next : Str) (words : List Str) :
    lineOf (word :: next :: words) = word ++ ' ' :: lineOf (next :: words) := by
  simp [lineOf, Text.join]

theorem mem_lineOf {ch : Char} (member : ch ∈ lineOf words) :
    ch = ' ' ∨ ∃ word ∈ words, ch ∈ word := by
  induction words with
  | nil => cases member
  | cons word words induction =>
      cases words with
      | nil => exact .inr ⟨word, List.mem_cons_self, by simpa [lineOf, Text.join] using member⟩
      | cons next words =>
          rw [lineOf_cons_cons, List.mem_append, List.mem_cons] at member
          rcases member with here | blank | later
          · exact .inr ⟨word, List.mem_cons_self, here⟩
          · exact .inl blank
          · rcases induction later with blank | ⟨other, isWord, inside⟩
            · exact .inl blank
            · exact .inr ⟨other, List.mem_cons_of_mem _ isWord, inside⟩

/-! ## Its words -/

theorem notSpecial_of_isPlain {ch : Char} (plain : isPlain ch = true) :
    Shlex.isBlank ch = false ∧ Shlex.isQuote ch = false ∧ ch ≠ '\\' := by
  rcases isPlain_iff.mp plain with ⟨notSpace, notMember⟩
  refine ⟨?_, ?_, ?_⟩
  · rw [Bool.eq_false_iff]
    intro blank
    have space : Text.isSpace ch = true := by
      simp only [Shlex.isBlank, Bool.or_eq_true, beq_iff_eq] at blank
      rcases blank with ((same | same) | same) | same
      all_goals rw [same]; rfl
    rw [space] at notSpace
    cases notSpace
  · rw [Bool.eq_false_iff]
    intro quote
    simp only [Shlex.isQuote, Bool.or_eq_true, beq_iff_eq] at quote
    rcases quote with same | same
    · exact notMember (by rw [same]; decide)
    · exact notMember (by rw [same]; decide)
  · rintro rfl
    exact notMember (by decide)

theorem scan_plain (plain : word.all isPlain = true) (token : Str) (quoted : Bool) (rest : Str) :
    Shlex.scan .word token quoted (word ++ rest) =
      Shlex.scan .word (token ++ word) quoted rest := by
  induction word generalizing token with
  | nil => rw [List.nil_append, List.append_nil]
  | cons ch word induction =>
      rw [List.all_cons, Bool.and_eq_true] at plain
      rcases notSpecial_of_isPlain plain.1 with ⟨notBlank, notQuote, notEscape⟩
      rw [List.cons_append, Shlex.scan, if_neg (by simp [notBlank]), if_neg (by simp [notQuote]),
        if_neg notEscape, induction plain.2, List.append_assoc, List.singleton_append]

theorem scan_first (plain : IsPlainWord word) (token : Str) (rest : Str) :
    Shlex.scan .between token false (word ++ rest) = Shlex.scan .word word false rest := by
  rcases plain with ⟨started, plain⟩
  cases word with
  | nil => exact absurd rfl started
  | cons ch word =>
      rw [List.all_cons, Bool.and_eq_true] at plain
      rcases notSpecial_of_isPlain plain.1 with ⟨notBlank, notQuote, notEscape⟩
      rw [List.cons_append, Shlex.scan, if_neg (by simp [notBlank]), if_neg notEscape,
        if_neg (by simp [notQuote]), scan_plain plain.2, List.singleton_append]

theorem split_lineOf (plain : ∀ word ∈ words, IsPlainWord word) :
    Shlex.split (lineOf words) = some words := by
  rw [Shlex.split]
  induction words with
  | nil => rfl
  | cons word words induction =>
      have first := plain word List.mem_cons_self
      have later := induction fun other member => plain other (List.mem_cons_of_mem _ member)
      cases words with
      | nil =>
          have whole : lineOf [word] = word ++ [] := by simp [lineOf, Text.join]
          rw [whole, scan_first first, Shlex.scan, if_neg (by simp [first.started])]
      | cons next words =>
          rw [lineOf_cons_cons, scan_first first, Shlex.scan, if_pos (by rfl),
            if_neg (by simp [first.started]), later]
          rfl

/-! ## Its answer -/

theorem notMem_lineOf {ch : Char} (plain : ∀ word ∈ words, IsPlainWord word)
    (special : ch ∈ NOT_PLAIN ∨ (Text.isSpace ch = true ∧ ch ≠ ' ')) : ch ∉ lineOf words := by
  intro member
  rcases mem_lineOf member with rfl | ⟨word, isWord, inside⟩
  · rcases special with listed | space
    · exact absurd listed (by decide)
    · exact space.2 rfl
  · have ordinary := isPlain_iff.mp (List.all_eq_true.mp (plain word isWord).plain ch inside)
    rcases special with listed | space
    · exact ordinary.2 listed
    · rw [ordinary.1] at space
      cases space.1

theorem metachars_lineOf (plain : ∀ word ∈ words, IsPlainWord word) :
    ¬ METACHARS.any (Text.contains · (lineOf words)) = true := by
  intro some_
  rcases List.any_eq_true.mp some_ with ⟨part, listed, present⟩
  have special : ∃ ch ∈ part, ch ∈ NOT_PLAIN ∨ (Text.isSpace ch = true ∧ ch ≠ ' ') := by
    have all : (METACHARS.all fun part => part.any fun ch =>
        NOT_PLAIN.contains ch || Text.isSpace ch && ch != ' ') = true := by decide
    rcases List.any_eq_true.mp (List.all_eq_true.mp all part listed) with ⟨ch, inside, special⟩
    refine ⟨ch, inside, ?_⟩
    simpa using special
  rcases special with ⟨ch, inside, special⟩
  exact notMem_lineOf plain special ((Text.contains_iff_infix.mp present).subset inside)

theorem lineOf_ne_nil (plain : ∀ word ∈ words, IsPlainWord word) (some_ : words ≠ []) :
    lineOf words ≠ [] := by
  rcases List.exists_cons_of_ne_nil some_ with ⟨word, words, rfl⟩
  have first := plain word List.mem_cons_self
  cases words with
  | nil => simpa [lineOf, Text.join] using first.started
  | cons next words => simp [lineOf_cons_cons]

theorem head?_lineOf (plain : ∀ word ∈ words, IsPlainWord word) :
    ∀ ch ∈ (lineOf words).head?, Text.isSpace ch = false := by
  cases words with
  | nil => simp [lineOf, Text.join]
  | cons word words =>
      have first := plain word List.mem_cons_self
      rcases List.exists_cons_of_ne_nil first.started with ⟨ch, rest, rfl⟩
      have begins : ∃ more, lineOf ((ch :: rest) :: words) = ch :: more := by
        cases words with
        | nil => exact ⟨rest, by simp [lineOf, Text.join]⟩
        | cons next words => exact ⟨_, lineOf_cons_cons ..⟩
      rcases begins with ⟨more, equal⟩
      have ordinary := List.all_eq_true.mp first.plain ch List.mem_cons_self
      simp [equal, (isPlain_iff.mp ordinary).1]

theorem getLast?_lineOf (plain : ∀ word ∈ words, IsPlainWord word) :
    ∀ ch ∈ (lineOf words).getLast?, Text.isSpace ch = false := by
  induction words with
  | nil => simp [lineOf, Text.join]
  | cons word words induction =>
      cases words with
      | nil =>
          have first := plain word List.mem_cons_self
          intro ch last
          have inside : ch ∈ word := by
            apply List.mem_of_getLast?
            simpa [lineOf, Text.join] using last
          exact (isPlain_iff.mp (List.all_eq_true.mp first.plain ch inside)).1
      | cons next words =>
          have rest : ∀ other ∈ next :: words, IsPlainWord other := fun other member =>
            plain other (List.mem_cons_of_mem _ member)
          have last : (lineOf (word :: next :: words)).getLast? =
              (lineOf (next :: words)).getLast? := by
            rcases List.exists_cons_of_ne_nil (lineOf_ne_nil rest (List.cons_ne_nil _ _)) with
              ⟨ch, more, equal⟩
            rw [lineOf_cons_cons, equal, List.getLast?_append_cons, List.getLast?_cons_cons]
          rw [last]
          exact induction rest

theorem strip_lineOf (plain : ∀ word ∈ words, IsPlainWord word) :
    Text.strip (lineOf words) = lineOf words := by
  have front : Text.lstrip (lineOf words) = lineOf words := by
    apply List.dropWhile_eq_self_iff.mpr
    intro inside space
    have first := head?_lineOf plain ((lineOf words)[0]) (by simp [List.head?_eq_getElem?, inside])
    rw [first] at space
    cases space
  rw [Text.strip, front]
  apply List.rdropWhile_eq_self_iff.mpr
  intro started space
  have last := getLast?_lineOf plain _ (List.getLast?_eq_some_getLast started)
  rw [last] at space
  cases space

theorem respond_lineOf (tables : Tables) (pipesEnabled : Bool) (ctx : ShellContext)
    {command : Str} {args : List Str} (plain : ∀ word ∈ command :: args, IsPlainWord word)
    (notSudo : command ≠ "sudo".toList) :
    respond tables pipesEnabled (lineOf (command :: args)) ctx =
      if command ∈ DISPATCH then tables.handler command args ctx ctx.user else none := by
  have noPipe : '|' ∉ lineOf (command :: args) := notMem_lineOf plain (.inl (by decide))
  have noAmpersand : ¬ ("&".toList.isSuffixOf (lineOf (command :: args)) = true ∧
      ¬ "&&".toList.isSuffixOf (lineOf (command :: args)) = true) := by
    intro both
    have absent : '&' ∉ lineOf (command :: args) := notMem_lineOf plain (.inl (by decide))
    exact absent ((List.isSuffixOf_iff_suffix.mp both.1).subset (by decide))
  simp only [respond, strip_lineOf plain]
  rw [if_neg (lineOf_ne_nil plain (List.cons_ne_nil _ _)), if_neg noAmpersand,
    PipeFilters.splitPipeline, if_pos (.inr noPipe)]
  simp only [respondSimple]
  rw [if_neg (metachars_lineOf plain), split_lineOf plain]
  simp only [peelSudo, if_neg notSudo]

end Responder

end LlmHoneypot
