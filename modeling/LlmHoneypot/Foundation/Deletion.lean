import LlmHoneypot.Foundation.Text

/-! # Deletion

Passes over a text that leave words out, from the left to the right. A symbol is a
character with whatever travels along with it, its position for example; words are
recognised by their characters. -/

namespace LlmHoneypot

namespace Deletion

inductive Words (Word : Str → Prop) : Str → Prop
  | nil : Words Word []
  | cons {word rest : Str} : Word word → Words Word rest → Words Word (word ++ rest)

inductive Spells (Gap : Str → Prop) : Str → Str → Prop
  | last (ch : Char) : Spells Gap [ch] [ch]
  | next (ch : Char) {gap letters text : Str} : Gap gap → Spells Gap letters text →
      Spells Gap (ch :: letters) (ch :: (gap ++ text))

inductive Pass {Symbol : Type} (glyph : Symbol → Char) (Word : Str → Prop) :
    List Symbol → List Symbol → Prop
  | nil : Pass glyph Word [] []
  | keep {symbol : Symbol} {rest kept : List Symbol} :
      (∀ word, word <+: (symbol :: rest).map glyph → ¬ Word word) →
      Pass glyph Word rest kept → Pass glyph Word (symbol :: rest) (symbol :: kept)
  | drop {word rest kept : List Symbol} :
      Word (word.map glyph) → Pass glyph Word rest kept → Pass glyph Word (word ++ rest) kept

section

variable {Symbol : Type}

def cutFrom (glyph : Symbol → Char) (matchLength : Str → Nat) :
    Nat → List Symbol → List Symbol
  | _, [] => []
  | skip + 1, _ :: rest => cutFrom glyph matchLength skip rest
  | 0, symbol :: rest =>
      match matchLength ((symbol :: rest).map glyph) with
      | 0 => symbol :: cutFrom glyph matchLength 0 rest
      | length + 1 => cutFrom glyph matchLength length rest

def cut (glyph : Symbol → Char) (matchLength : Str → Nat) (symbols : List Symbol) :
    List Symbol :=
  cutFrom glyph matchLength 0 symbols

structure Finds (matchLength : Str → Nat) (Word : Str → Prop) : Prop where
  found : ∀ text, 0 < matchLength text →
    matchLength text ≤ text.length ∧ Word (text.take (matchLength text))
  missed : ∀ text, matchLength text = 0 → ∀ word, word <+: text → ¬ Word word

variable {glyph : Symbol → Char} {matchLength : Str → Nat} {Word : Str → Prop}

theorem map_cutFrom (skip : Nat) (symbols : List Symbol) :
    (cutFrom glyph matchLength skip symbols).map glyph =
      Text.substituteFrom matchLength [] skip (symbols.map glyph) := by
  induction symbols generalizing skip with
  | nil => cases skip <;> rfl
  | cons symbol rest induction =>
      cases skip with
      | succ skip => exact induction skip
      | zero =>
          simp only [cutFrom, List.map_cons, Text.substituteFrom]
          cases matchLength (glyph symbol :: rest.map glyph) with
          | zero => simp only [List.map_cons, induction]
          | succ length => exact induction length

theorem map_cut (symbols : List Symbol) :
    (cut glyph matchLength symbols).map glyph =
      Text.substitute matchLength [] (symbols.map glyph) :=
  map_cutFrom 0 symbols

theorem cutFrom_skip (skip : Nat) (symbols : List Symbol) :
    cutFrom glyph matchLength skip symbols = cut glyph matchLength (symbols.drop skip) := by
  induction symbols generalizing skip with
  | nil => cases skip <;> rfl
  | cons symbol rest induction =>
      cases skip with
      | succ skip => exact induction skip
      | zero => rfl

theorem cut_pass (finds : Finds matchLength Word) (symbols : List Symbol) :
    Pass glyph Word symbols (cut glyph matchLength symbols) := by
  cases symbols with
  | nil => exact .nil
  | cons symbol rest =>
      rw [cut, cutFrom]
      split
      · rename_i none
        apply Pass.keep
        · exact finds.missed _ none
        · exact cut_pass finds rest
      · rename_i length some
        have found := (finds.found ((symbol :: rest).map glyph) (by omega)).2
        rw [some, ← List.map_take] at found
        rw [cutFrom_skip]
        have pass := Pass.drop found (cut_pass finds (rest.drop length))
        rw [List.take_succ_cons, List.cons_append, List.take_append_drop] at pass
        exact pass
termination_by symbols.length

/-! ## Passes -/

theorem Pass.sublist {symbols kept : List Symbol} (pass : Pass glyph Word symbols kept) :
    kept.Sublist symbols := by
  induction pass with
  | nil => exact List.Sublist.refl []
  | keep none later induction => exact induction.cons_cons _
  | drop word later induction => exact induction.trans (List.sublist_append_right _ _)

theorem Pass.glyphs {symbols kept : List Symbol} (pass : Pass glyph Word symbols kept) :
    Pass id Word (symbols.map glyph) (kept.map glyph) := by
  induction pass with
  | nil => exact .nil
  | keep none later induction =>
      apply Pass.keep _ induction
      rw [List.map_id]
      exact none
  | drop word later induction =>
      rw [List.map_append]
      apply Pass.drop _ induction
      rw [List.map_id]
      exact word

def Separate (Word : Str → Prop) : Prop :=
  ∀ first second, Word first → Word second → first <+: second → first = second

theorem Separate.eq (separate : Separate Word) {first second : Str} (isWord : Word first)
    (other : Word second) {behind later : Str} (equal : first ++ behind = second ++ later) :
    first = second := by
  rcases List.append_eq_append_iff.mp equal with ⟨more, longer, -⟩ | ⟨more, longer, -⟩
  · exact separate _ _ isWord other ⟨more, longer.symm⟩
  · exact (separate _ _ other isWord ⟨more, longer.symm⟩).symm

theorem Pass.behind_word (separate : Separate Word) {word rest kept : List Symbol}
    (isWord : Word (word.map glyph)) (started : word ≠ [])
    (pass : Pass glyph Word (word ++ rest) kept) : Pass glyph Word rest kept := by
  generalize same : word ++ rest = symbols at pass
  cases pass with
  | nil => exact absurd (List.append_eq_nil_iff.mp same).1 started
  | keep none later =>
      apply absurd isWord
      apply none
      rw [← same, List.map_append]
      apply List.prefix_append
  | drop other later =>
      rename_i first behind
      have equal := congrArg (List.map glyph) same
      rw [List.map_append, List.map_append] at equal
      have lengths := congrArg List.length (separate.eq isWord other equal)
      rw [List.length_map, List.length_map] at lengths
      rw [(List.append_inj same lengths).2]
      exact later

theorem Pass.behind_words (separate : Separate Word) (visible : ¬ Word [])
    {text : Str} (isWords : Words Word text) {words rest kept : List Symbol}
    (glyphs : words.map glyph = text) (pass : Pass glyph Word (words ++ rest) kept) :
    Pass glyph Word rest kept := by
  induction isWords generalizing words with
  | nil =>
      rw [List.map_eq_nil_iff.mp glyphs] at pass
      exact pass
  | cons word later induction =>
      rcases List.map_eq_append_iff.mp glyphs with ⟨first, behind, rfl, rfl, rfl⟩
      apply induction rfl
      apply Pass.behind_word separate word
      · intro nothing
        rw [nothing] at word
        exact visible word
      · rw [← List.append_assoc]
        exact pass

theorem Pass.unique (separate : Separate Word) (visible : ¬ Word [])
    {symbols kept other : List Symbol} (pass : Pass glyph Word symbols kept)
    (again : Pass glyph Word symbols other) : other = kept := by
  induction pass generalizing other with
  | nil =>
      generalize same : [] = symbols at again
      cases again with
      | nil => rfl
      | keep none later => cases same
      | drop word later =>
          rw [(List.append_eq_nil_iff.mp same.symm).1] at word
          exact absurd word visible
  | keep none later induction =>
      rename_i symbol rest kept
      generalize same : symbol :: rest = symbols at again
      cases again with
      | nil => cases same
      | keep _ afterwards =>
          cases same
          rw [induction afterwards]
      | drop word afterwards =>
          apply absurd word
          apply none
          rw [same, List.map_append]
          apply List.prefix_append
  | drop word later induction =>
      apply induction
      apply Pass.behind_word separate word _ again
      intro nothing
      rw [nothing] at word
      exact visible word

theorem Pass.idle {symbols kept : List Symbol}
    (pass : Pass glyph Word symbols kept)
    (free : ∀ word, word <:+: symbols.map glyph → ¬ Word word) : kept = symbols := by
  induction pass with
  | nil => rfl
  | keep none later induction =>
      rw [induction]
      intro word isInfix
      apply free
      exact isInfix.trans (List.suffix_cons _ _).isInfix
  | drop isWord later induction =>
      apply absurd isWord
      apply free
      rw [List.map_append]
      exact (List.prefix_append _ _).isInfix

theorem Pass.lift {symbols letters kept : List Symbol} (started : letters ≠ [])
    (pass : Pass glyph Word symbols (letters ++ kept)) :
    ∃ words spelled rest, symbols = words ++ (spelled ++ rest) ∧
      Words Word (words.map glyph) ∧
      Spells (Words Word) (letters.map glyph) (spelled.map glyph) ∧
      (∀ word, word <+: (spelled ++ rest).map glyph → ¬ Word word) ∧
      Pass glyph Word rest kept := by
  generalize result : letters ++ kept = all at pass
  induction pass generalizing letters with
  | nil => exact absurd (List.append_eq_nil_iff.mp result).1 started
  | keep none later induction =>
      rename_i symbol rest all
      rcases letters with _ | ⟨first, letters⟩
      · exact absurd rfl started
      · rw [List.cons_append, List.cons.injEq] at result
        rcases result with ⟨rfl, result⟩
        by_cases more : letters = []
        · rw [more] at result ⊢
          apply Exists.intro []
          apply Exists.intro [first]
          apply Exists.intro rest
          rw [List.nil_append] at result
          rw [result]
          exact ⟨rfl, .nil, .last _, none, later⟩
        · rcases induction more result with
            ⟨words, spelled, behind, equal, gap, spells, -, pass⟩
          apply Exists.intro []
          apply Exists.intro (first :: (words ++ spelled))
          apply Exists.intro behind
          have whole : first :: rest = first :: (words ++ spelled) ++ behind := by
            rw [equal, List.cons_append, List.append_assoc]
          rw [← whole, List.map_cons, List.map_cons, List.map_append]
          exact ⟨rfl, .nil, .next _ gap spells, none, pass⟩
  | drop word later induction =>
      rename_i dropped rest all
      rcases induction started result with ⟨words, spelled, behind, equal, gap, spells, none, pass⟩
      apply Exists.intro (dropped ++ words)
      apply Exists.intro spelled
      apply Exists.intro behind
      rw [equal, List.append_assoc, List.map_append]
      exact ⟨rfl, .cons word gap, spells, none, pass⟩

theorem Pass.infix_lift {symbols kept : List Symbol} (pass : Pass glyph Word symbols kept)
    {letters : Str} (started : letters ≠ []) (isInfix : letters <:+: kept.map glyph) :
    ∃ spelled, spelled <:+: symbols.map glyph ∧ Spells (Words Word) letters spelled ∧
      ¬ Word spelled := by
  induction pass with
  | nil => exact absurd (List.eq_nil_of_infix_nil isInfix) started
  | keep none later induction =>
      rename_i symbol rest kept
      rcases List.infix_cons_iff.mp isInfix with isPrefix | isInfix
      · rcases isPrefix with ⟨behind, equal⟩
        have ahead : (symbol :: kept).map glyph = letters ++ behind := equal.symm
        rcases List.map_eq_append_iff.mp ahead with ⟨read, left, same, rfl, rfl⟩
        have pass := Pass.keep none later
        rw [same] at pass
        have readSome : read ≠ [] := by
          intro nothing
          rw [nothing] at started
          exact started rfl
        rcases pass.lift readSome with ⟨words, spelled, rest, whole, -, spells, free, -⟩
        apply Exists.intro (spelled.map glyph)
        constructor
        · rw [whole, List.map_append, List.map_append]
          apply List.infix_append'
        · apply And.intro spells
          apply free
          rw [List.map_append]
          apply List.prefix_append
      · rcases induction isInfix with ⟨spelled, isInfix, spells⟩
        exact ⟨spelled, isInfix.trans (List.suffix_cons _ _).isInfix, spells⟩
  | drop word later induction =>
      rcases induction isInfix with ⟨spelled, isInfix, spells⟩
      apply Exists.intro spelled
      rw [List.map_append]
      exact ⟨isInfix.trans (List.suffix_append _ _).isInfix, spells⟩

end

/-! ## Brackets -/

section

variable {left right : Char}

structure Nest (left right : Char) (text : Str) : Prop where
  opens : left ∈ text
  closed : text.count right = text.count left
  proper : ∀ first second, text = first ++ second → first ≠ [] → second ≠ [] →
    first.count right < first.count left

def Bracketed (left right : Char) (text : Str) : Prop :=
  ∃ body, text = left :: (body ++ [right]) ∧ left ∉ body ∧ right ∉ body

theorem Nest.ne_nil {text : Str} (nest : Nest left right text) : text ≠ [] := by
  intro nothing
  have opens := nest.opens
  rw [nothing] at opens
  cases opens

theorem Nest.head {text : Str} (nest : Nest left right text) :
    ∃ rest, text = left :: rest := by
  rcases List.exists_cons_of_ne_nil nest.ne_nil with ⟨ch, rest, equal⟩
  apply Exists.intro rest
  by_cases alone : rest = []
  · have opens := nest.opens
    rw [equal, alone, List.mem_singleton] at opens
    rw [equal, opens]
  · have first := nest.proper [ch] rest equal (List.cons_ne_nil _ _) alone
    by_cases same : ch = left
    · rw [equal, same]
    · rw [List.count_singleton, List.count_singleton] at first
      simp [same] at first

theorem Nest.suffix {text first second : Str} (nest : Nest left right text)
    (equal : text = first ++ second) (before : first ≠ []) (after : second ≠ []) :
    second.count left < second.count right := by
  have proper := nest.proper first second equal before after
  have closed := nest.closed
  rw [equal, List.count_append, List.count_append] at closed
  omega

theorem Nest.separate : Separate (Nest left right) := by
  intro first second nest other isPrefix
  rcases isPrefix with ⟨rest, equal⟩
  by_cases more : rest = []
  · rw [← equal, more, List.append_nil]
  · have proper := other.proper first rest equal.symm nest.ne_nil more
    have closed := nest.closed
    omega

theorem Words.counts {Word : Str → Prop} (nests : ∀ word, Word word → Nest left right word)
    {text : Str} (isWords : Words Word text) :
    text.count right = text.count left ∧
      ∀ first second, text = first ++ second → first.count right ≤ first.count left := by
  induction isWords with
  | nil =>
      apply And.intro rfl
      intro first second equal
      rw [(List.append_eq_nil_iff.mp equal.symm).1]
      exact Nat.le_refl _
  | cons isWord later induction =>
      rename_i word rest
      have nest := nests word isWord
      constructor
      · rw [List.count_append, List.count_append, nest.closed, induction.1]
      · intro first second equal
        rcases List.append_eq_append_iff.mp equal with ⟨more, same, behind⟩ | ⟨more, same, -⟩
        · have within := induction.2 more second behind
          rw [same, List.count_append, List.count_append, nest.closed]
          omega
        · by_cases started : first = []
          · rw [started]
            exact Nat.le_refl _
          · by_cases cut : more = []
            · rw [cut, List.append_nil] at same
              rw [← same, nest.closed]
            · exact Nat.le_of_lt (nest.proper first more same started cut)

private theorem Spells.closing {Word : Str → Prop} (differ : left ≠ right)
    (nests : ∀ word, Word word → Nest left right word) {letters text : Str}
    (spells : Spells (Words Word) letters text) {body : Str} (closes : letters = body ++ [right])
    (noLeft : left ∉ body) (noRight : right ∉ body) :
    text.count right = text.count left + 1 ∧
      ∀ first second, text = first ++ second → second ≠ [] →
        first.count right ≤ first.count left := by
  induction spells generalizing body with
  | last ch =>
      have alone : ch = right := by
        have ends := congrArg List.getLast? closes
        rw [List.getLast?_singleton, List.getLast?_append, List.getLast?_singleton] at ends
        exact Option.some.inj ends
      rw [alone]
      constructor
      · rw [List.count_singleton_self, List.count_singleton]
        simp [differ.symm]
      · intro first second equal more
        have nothing : first = [] := by
          rcases List.append_eq_singleton_iff.mp equal.symm with ⟨nothing, -⟩ | ⟨-, none⟩
          · exact nothing
          · exact absurd none more
        rw [nothing]
        exact Nat.le_refl _
  | next ch gap later induction =>
      rename_i gapText letters text
      rcases body with _ | ⟨first, body⟩
      · have nothing := (List.cons.inj closes).2
        rw [nothing] at later
        cases later
      · rw [List.cons_append, List.cons.injEq] at closes
        rw [List.mem_cons, not_or] at noLeft noRight
        rw [closes.1]
        have behind := induction closes.2 noLeft.2 noRight.2
        have gaps := gap.counts nests
        constructor
        · rw [List.count_cons_of_ne (Ne.symm noRight.1), List.count_cons_of_ne (Ne.symm noLeft.1),
            List.count_append, List.count_append, gaps.1, behind.1, Nat.add_assoc]
        · intro start second equal more
          rcases start with _ | ⟨head, start⟩
          · exact Nat.le_refl _
          · rw [List.cons_append, List.cons.injEq] at equal
            rw [← equal.1, List.count_cons_of_ne (Ne.symm noRight.1),
              List.count_cons_of_ne (Ne.symm noLeft.1)]
            rcases List.append_eq_append_iff.mp equal.2 with ⟨rest, same, tail⟩ | ⟨rest, same, -⟩
            · have within := behind.2 rest second tail more
              rw [same, List.count_append, List.count_append, gaps.1]
              omega
            · exact gaps.2 start rest same

theorem Bracketed.spells_nest {Word : Str → Prop} (differ : left ≠ right)
    (nests : ∀ word, Word word → Nest left right word) {letters text : Str}
    (bracketed : Bracketed left right letters) (spells : Spells (Words Word) letters text) :
    Nest left right text := by
  rcases bracketed with ⟨body, rfl, noLeft, noRight⟩
  generalize same : left :: (body ++ [right]) = letters at spells
  cases spells with
  | last ch =>
      have nothing := (List.cons.inj same).2
      rw [List.append_eq_nil_iff] at nothing
      exact absurd nothing.2 (List.cons_ne_nil _ _)
  | next ch gap later =>
      rename_i gapText letters text
      rw [List.cons.injEq] at same
      rw [← same.1]
      have behind := later.closing differ nests same.2.symm noLeft noRight
      have gaps := gap.counts nests
      constructor
      · apply List.mem_cons_self
      · rw [List.count_cons_of_ne differ, List.count_cons_self, List.count_append,
          List.count_append, gaps.1, behind.1, Nat.add_assoc]
      · intro first second equal started more
        rcases first with _ | ⟨head, first⟩
        · exact absurd rfl started
        · rw [List.cons_append, List.cons.injEq] at equal
          rw [← equal.1, List.count_cons_of_ne differ, List.count_cons_self, Nat.lt_succ_iff]
          rcases List.append_eq_append_iff.mp equal.2 with ⟨rest, same, tail⟩ | ⟨rest, same, -⟩
          · have within := behind.2 rest second tail more
            rw [same, List.count_append, List.count_append, gaps.1]
            omega
          · exact gaps.2 first rest same

theorem spells_self {Gap : Str → Prop} (nothing : Gap []) {letters : Str}
    (started : letters ≠ []) : Spells Gap letters letters := by
  induction letters with
  | nil => exact absurd rfl started
  | cons ch letters induction =>
      cases letters with
      | nil => exact .last ch
      | cons next letters => exact Spells.next ch nothing (induction (List.cons_ne_nil _ _))

private theorem Bracketed.once (differ : left ≠ right) {text : Str}
    (bracketed : Bracketed left right text) : left ∉ text.tail := by
  rcases bracketed with ⟨body, rfl, noLeft, -⟩
  simp [noLeft, differ]

theorem Bracketed.not_inside (differ : left ≠ right) {text : Str}
    (bracketed : Bracketed left right text) {before rest : Str} (equal : text = before ++ rest)
    (started : before ≠ []) : left ∉ rest := by
  have once := bracketed.once differ
  rcases List.exists_cons_of_ne_nil started with ⟨ch, more, rfl⟩
  rw [equal, List.cons_append, List.tail_cons, List.mem_append, not_or] at once
  exact once.2

theorem Bracketed.infix_behind {marker : Str} (bracketed : Bracketed left right marker)
    {text behind : Str} (free : left ∉ text) (isInfix : marker <:+: text ++ behind) :
    marker <:+: behind := by
  induction text with
  | nil => exact isInfix
  | cons ch text induction =>
      rw [List.mem_cons, not_or] at free
      rcases List.infix_cons_iff.mp isInfix with isPrefix | later
      · rcases bracketed with ⟨body, rfl, -⟩
        exact absurd (List.cons_prefix_cons.mp isPrefix).1 free.1
      · exact induction free.2 later

theorem Bracketed.first_before (differ : left ≠ right) {marker : Str}
    (bracketed : Bracketed left right marker) {before behind other later : Str}
    (equal : before ++ (marker ++ behind) = other ++ (marker ++ later))
    (first : ¬ marker <:+: other) : other <+: before := by
  rcases List.append_eq_append_iff.mp equal with ⟨more, same, shifted⟩ | ⟨more, same, -⟩
  · by_cases nothing : more = []
    · rw [same, nothing, List.append_nil]
    · rcases List.append_eq_append_iff.mp shifted with ⟨past, longer, -⟩ | ⟨rest, inside, reached⟩
      · apply absurd _ first
        rw [same, longer]
        exact List.infix_append' _ _ _
      · by_cases ended : rest = []
        · apply absurd _ first
          rw [same, inside, ended, List.append_nil]
          exact (List.suffix_append _ _).isInfix
        · -- The second one begins within the first.
          have notInside := bracketed.not_inside differ inside nothing
          rcases List.exists_cons_of_ne_nil ended with ⟨ch, tail, rfl⟩
          rcases bracketed with ⟨body, rfl, -⟩
          have same := (List.cons.inj reached).1
          rw [← same] at notInside
          exact absurd (List.mem_cons_self ..) notInside
  · rw [same]
    exact List.prefix_append _ _

theorem Bracketed.nest (differ : left ≠ right) {text : Str}
    (bracketed : Bracketed left right text) : Nest left right text := by
  have started : text ≠ [] := by
    rcases bracketed with ⟨body, rfl, -⟩
    exact List.cons_ne_nil _ _
  have noGaps : Spells (Words fun _ => False) text text := spells_self .nil started
  apply bracketed.spells_nest differ _ noGaps
  intro word impossible
  exact impossible.elim

end

/-! ## Nested words -/

structure Nested (left right : Char) (Word : Str → Prop) : Prop where
  nest : ∀ word, Word word → Nest left right word
  inner : ∀ word, Word word → ∀ before inside after, word = before ++ (inside ++ after) →
    before ≠ [] → Nest left right inside → Word inside

section

variable {left right : Char} {Symbol : Type} {glyph : Symbol → Char} {Word : Str → Prop}

theorem Nested.separate (nested : Nested left right Word) : Separate Word := by
  intro first second isWord other isPrefix
  exact Nest.separate _ _ (nested.nest _ isWord) (nested.nest _ other) isPrefix

theorem Nested.visible (nested : Nested left right Word) : ¬ Word [] := by
  intro isWord
  exact (nested.nest [] isWord).ne_nil rfl

theorem Pass.first {symbol : Symbol} {rest kept : List Symbol}
    (pass : Pass glyph Word (symbol :: rest) kept)
    (free : ∀ word, word <+: (symbol :: rest).map glyph → ¬ Word word) :
    ∃ later, kept = symbol :: later ∧ Pass glyph Word rest later := by
  generalize same : symbol :: rest = symbols at pass
  cases pass with
  | nil => cases same
  | keep none later =>
      cases same
      exact ⟨_, rfl, later⟩
  | drop word later =>
      apply absurd word
      apply free
      rw [same, List.map_append]
      apply List.prefix_append

theorem Spells.head {Gap : Str → Prop} {letters text : Str} (spells : Spells Gap letters text) :
    ∃ ch more rest, letters = ch :: more ∧ text = ch :: rest := by
  cases spells with
  | last ch => exact ⟨ch, [], [], rfl, rfl⟩
  | next ch gap later => exact ⟨ch, _, _, rfl, rfl⟩

theorem Pass.spelled (nested : Nested left right Word) {letters text : Str}
    (spells : Spells (Words Word) letters text) (once : left ∉ letters.tail)
    {spelled rest kept : List Symbol} (glyphs : spelled.map glyph = text)
    (pass : Pass glyph Word (spelled ++ rest) kept)
    (free : ∀ word, word <+: (spelled ++ rest).map glyph → ¬ Word word) :
    ∃ read later, kept = read ++ later ∧ read.map glyph = letters ∧
      Pass glyph Word rest later := by
  induction spells generalizing spelled kept with
  | last ch =>
      rcases List.map_eq_singleton_iff.mp glyphs with ⟨symbol, rfl, rfl⟩
      rcases pass.first free with ⟨later, rfl, afterwards⟩
      exact ⟨[symbol], later, rfl, rfl, afterwards⟩
  | next ch gap spells induction =>
      rcases List.map_eq_cons_iff.mp glyphs with ⟨symbol, behind, rfl, rfl, equal⟩
      rcases List.map_eq_append_iff.mp equal with ⟨between, more, rfl, betweenGlyphs, moreGlyphs⟩
      rw [List.cons_append, List.append_assoc] at pass free
      rcases pass.first free with ⟨later, rfl, afterwards⟩
      have onward := afterwards.behind_words nested.separate nested.visible gap betweenGlyphs
      rcases spells.head with ⟨ch, letters, text, sameLetters, sameText⟩
      rw [List.tail_cons] at once
      have inside : left ∉ List.tail _ := fun member => once (List.mem_of_mem_tail member)
      have noWord : ∀ word, word <+: (more ++ rest).map glyph → ¬ Word word := by
        intro word isPrefix isWord
        rcases (nested.nest word isWord).head with ⟨body, rfl⟩
        rw [List.map_append, moreGlyphs, sameText] at isPrefix
        have equal := (List.cons_prefix_cons.mp isPrefix).1
        rw [sameLetters, ← equal] at once
        exact once (List.mem_cons_self ..)
      rcases induction inside moreGlyphs onward noWord with ⟨read, later, rfl, letters, pass⟩
      apply Exists.intro (symbol :: read)
      apply Exists.intro later
      rw [List.map_cons, letters]
      exact ⟨rfl, rfl, pass⟩

theorem Pass.infix_spelled (differ : left ≠ right) (nested : Nested left right Word)
    {letters : Str} (bracketed : Bracketed left right letters) {spelled : List Symbol}
    (spells : Spells (Words Word) letters (spelled.map glyph))
    (noWord : ¬ Word (spelled.map glyph)) {before behind kept : List Symbol}
    (pass : Pass glyph Word (before ++ (spelled ++ behind)) kept) :
    letters <:+: kept.map glyph := by
  have nest := bracketed.spells_nest differ nested.nest spells
  have atHead : ∀ kept, Pass glyph Word (spelled ++ behind) kept → letters <:+: kept.map glyph := by
    intro kept pass
    have free : ∀ word, word <+: (spelled ++ behind).map glyph → ¬ Word word := by
      intro word isPrefix isWord
      rcases isPrefix with ⟨later, equal⟩
      rw [List.map_append] at equal
      rw [Nest.separate.eq (nested.nest word isWord) nest equal] at isWord
      exact noWord isWord
    rcases pass.spelled nested spells (bracketed.once differ) rfl free with
      ⟨read, later, rfl, rfl, -⟩
    rw [List.map_append]
    exact (List.prefix_append _ _).isInfix
  generalize whole : before ++ (spelled ++ behind) = symbols at pass
  induction pass generalizing before with
  | nil =>
      have nothing := (List.append_eq_nil_iff.mp (List.append_eq_nil_iff.mp whole).2).1
      rw [nothing] at nest
      exact absurd rfl nest.ne_nil
  | keep none later induction =>
      rcases before with _ | ⟨head, before⟩
      · rw [List.nil_append] at whole
        apply atHead
        rw [whole]
        exact Pass.keep none later
      · rw [List.cons_append, List.cons.injEq] at whole
        exact (induction whole.2).trans (List.suffix_cons _ _).isInfix
  | drop isWord later induction =>
      rename_i word rest kept
      rcases List.append_eq_append_iff.mp whole.symm with ⟨more, same, left⟩ | ⟨more, same, inside⟩
      · exact induction left.symm
      · by_cases starts : before = []
        · rw [starts, List.nil_append] at whole
          apply atHead
          rw [whole]
          exact Pass.drop isWord later
        · by_cases ends : more = []
          · rw [ends, List.nil_append] at inside
            apply @induction []
            exact inside
          · -- The word reaches into the spelled letters.
            rcases List.append_eq_append_iff.mp inside with ⟨past, longer, -⟩ | ⟨past, shorter, -⟩
            · apply absurd _ noWord
              rw [same, longer, List.map_append, List.map_append] at isWord
              apply nested.inner _ isWord _ _ _ rfl _ nest
              simpa using starts
            · have wordNest := nested.nest _ isWord
              rw [same, List.map_append] at wordNest
              have suffix := wordNest.suffix rfl (by simpa using starts) (by simpa using ends)
              have closed := nest.closed
              by_cases all : past = []
              · rw [shorter, all, List.append_nil] at closed
                omega
              · have proper := nest.proper (more.map glyph) (past.map glyph)
                rw [shorter, List.map_append] at proper
                have less := proper rfl (by simpa using ends) (by simpa using all)
                omega

theorem Pass.front (nested : Nested left right Word) {front rear kept : List Symbol}
    (isWords : Words Word (rear.map glyph)) (pass : Pass glyph Word (front ++ rear) kept) :
    Pass glyph Word front kept := by
  have alone : ∀ kept, Pass glyph Word rear kept → Pass glyph Word [] kept := by
    intro kept pass
    rw [← List.append_nil rear] at pass
    exact pass.behind_words nested.separate nested.visible isWords rfl
  generalize whole : front ++ rear = symbols at pass
  induction pass generalizing front with
  | nil =>
      rw [(List.append_eq_nil_iff.mp whole).1]
      exact .nil
  | keep none later induction =>
      rcases front with _ | ⟨head, front⟩
      · rw [List.nil_append] at whole
        apply alone
        rw [whole]
        exact Pass.keep none later
      · rw [List.cons_append, List.cons.injEq] at whole
        rw [whole.1]
        apply Pass.keep _ (induction whole.2)
        intro word isPrefix
        apply none
        rw [← whole.2, List.map_cons, List.map_append, ← List.cons_append]
        exact isPrefix.trans (List.prefix_append _ _)
  | drop isWord later induction =>
      rename_i word rest kept
      rcases List.append_eq_append_iff.mp whole.symm with ⟨more, same, left⟩ | ⟨more, same, inside⟩
      · rw [same]
        exact Pass.drop isWord (induction left.symm)
      · by_cases starts : front = []
        · rw [starts, List.nil_append] at whole
          rw [starts]
          apply alone
          rw [whole]
          exact Pass.drop isWord later
        · by_cases ends : more = []
          · rw [ends, List.append_nil] at same
            rw [← same, ← List.append_nil word]
            apply Pass.drop isWord
            apply induction
            rw [inside, ends]
            rfl
          · -- The word reaches into the words at the end.
            have wordNest := nested.nest _ isWord
            rw [same, List.map_append] at wordNest
            have suffix := wordNest.suffix rfl (by simpa using starts) (by simpa using ends)
            rw [inside, List.map_append] at isWords
            have within := (isWords.counts nested.nest).2 _ _ rfl
            omega

theorem Pass.rear {symbols kept : List Symbol} (pass : Pass glyph Word symbols kept)
    {front rear : List Symbol} (whole : symbols = front ++ rear)
    (gone : ∀ symbol ∈ rear, symbol ∉ kept) :
    ∃ first second, front = first ++ second ∧ Words Word ((second ++ rear).map glyph) := by
  induction pass generalizing front rear with
  | nil =>
      rw [(List.append_eq_nil_iff.mp whole.symm).2]
      apply Exists.intro front
      apply Exists.intro []
      exact ⟨(List.append_nil front).symm, .nil⟩
  | keep none later induction =>
      rcases front with _ | ⟨head, front⟩
      · rw [List.nil_append] at whole
        apply absurd (List.mem_cons_self ..)
        apply gone
        rw [← whole]
        apply List.mem_cons_self
      · rw [List.cons_append, List.cons.injEq] at whole
        have goneLater : ∀ symbol ∈ rear, symbol ∉ _ :=
          fun symbol member kept => gone symbol member (List.mem_cons_of_mem _ kept)
        rcases induction whole.2 goneLater with ⟨first, second, equal, isWords⟩
        apply Exists.intro (head :: first)
        apply Exists.intro second
        rw [equal]
        exact ⟨rfl, isWords⟩
  | drop isWord later induction =>
      rename_i word rest kept
      rcases List.append_eq_append_iff.mp whole with ⟨more, same, left⟩ | ⟨more, same, inside⟩
      · rcases induction left gone with ⟨first, second, equal, isWords⟩
        apply Exists.intro (word ++ first)
        apply Exists.intro second
        rw [same, equal, List.append_assoc]
        exact ⟨rfl, isWords⟩
      · have goneLater : ∀ symbol ∈ rest, symbol ∉ kept := by
          intro symbol member
          apply gone
          rw [inside]
          exact List.mem_append_right _ member
        rcases @induction [] rest rfl goneLater with ⟨first, second, equal, isWords⟩
        rw [(List.append_eq_nil_iff.mp equal.symm).2] at isWords
        apply Exists.intro []
        apply Exists.intro front
        apply And.intro rfl
        rw [inside, ← List.append_assoc, ← same, List.map_append]
        exact .cons isWord isWords

end

/-! ## Two words, one pass behind the other -/

theorem finds_word {word : Str} (started : word ≠ []) :
    Finds (fun text => if word.isPrefixOf text then word.length else 0) (· = word) := by
  constructor
  · intro text positive
    split
    · rename_i isPrefix
      rcases List.isPrefixOf_iff_prefix.mp isPrefix with ⟨rest, rfl⟩
      simp
    · rename_i notPrefix
      rw [if_neg notPrefix] at positive
      omega
  · intro text missed other isPrefix same
    rw [same] at isPrefix
    rw [if_pos (List.isPrefixOf_iff_prefix.mpr isPrefix)] at missed
    exact started (List.length_eq_zero_iff.mp missed)

def Layer (inner outer text : Str) : Prop :=
  text = inner ∨ Spells (Words (· = inner)) outer text

section

variable {left right : Char} {inner outer : Str} {Symbol : Type} {glyph : Symbol → Char}

theorem single_nested (differ : left ≠ right) (bracketed : Bracketed left right inner) :
    Nested left right (· = inner) := by
  constructor
  · intro word same
    rw [same]
    exact bracketed.nest differ
  · intro word same before inside after equal started nest
    rw [same] at equal
    have notInside := bracketed.not_inside differ equal started
    exact absurd (List.mem_append_left _ nest.opens) notInside

private theorem Words.copy_of_nest (differ : left ≠ right) (bracketed : Bracketed left right inner)
    {text : Str} (copies : Words (· = inner) text) {rest before inside after : Str}
    (equal : text ++ rest = before ++ (inside ++ after)) (nest : Nest left right inside) :
    inside = inner ∨ ∃ more, rest = more ++ (inside ++ after) := by
  induction copies generalizing before with
  | nil =>
      apply Or.inr
      exact ⟨before, equal⟩
  | cons same later induction =>
      rw [same, List.append_assoc] at equal
      rcases List.append_eq_append_iff.mp equal with ⟨more, -, behind⟩ | ⟨more, inside', behind⟩
      · exact induction behind
      · by_cases starts : before = []
        · rw [starts, List.nil_append] at inside'
          apply Or.inl
          rw [← inside'] at behind
          exact Nest.separate.eq nest (bracketed.nest differ) behind
        · by_cases ends : more = []
          · apply @induction []
            rw [behind, ends]
            rfl
          · -- A bracket opens within the copy.
            rcases nest.head with ⟨body, rfl⟩
            rcases List.exists_cons_of_ne_nil ends with ⟨ch, tail, rfl⟩
            have first := (List.cons.inj behind).1
            have notInside := bracketed.not_inside differ inside' starts
            rw [← first] at notInside
            exact absurd (List.mem_cons_self ..) notInside

private theorem Spells.copy_of_nest (differ : left ≠ right) (bracketed : Bracketed left right inner)
    {letters text : Str} (spells : Spells (Words (· = inner)) letters text)
    (noLeft : left ∉ letters) {before inside after : Str}
    (equal : text = before ++ (inside ++ after)) (nest : Nest left right inside) :
    inside = inner := by
  induction spells generalizing before with
  | last ch =>
      apply absurd _ noLeft
      have member : left ∈ before ++ (inside ++ after) :=
        List.mem_append_right _ (List.mem_append_left _ nest.opens)
      rw [← equal] at member
      exact member
  | next ch gap later induction =>
      rw [List.mem_cons, not_or] at noLeft
      rcases before with _ | ⟨head, before⟩
      · rcases nest.head with ⟨body, rfl⟩
        exact absurd (List.cons.inj equal).1.symm noLeft.1
      · rw [List.cons_append, List.cons.injEq] at equal
        rcases gap.copy_of_nest differ bracketed equal.2 nest with same | ⟨more, behind⟩
        · exact same
        · exact induction noLeft.2 behind

theorem layer_nested (differ : left ≠ right) (bracketed : Bracketed left right inner)
    (around : Bracketed left right outer) : Nested left right (Layer inner outer) := by
  have single := single_nested differ bracketed
  constructor
  · intro word layer
    rcases layer with same | spells
    · exact single.nest word same
    · exact around.spells_nest differ single.nest spells
  · intro word layer before inside after equal started nest
    apply Or.inl
    rcases layer with same | spells
    · exact single.inner word same before inside after equal started nest
    · have once := around.once differ
      generalize equal' : outer = letters at spells once
      cases spells with
      | last ch =>
          rcases List.append_eq_singleton_iff.mp equal.symm with ⟨nothing, -⟩ | ⟨-, nothing⟩
          · exact absurd nothing started
          · exact absurd (List.append_eq_nil_iff.mp nothing).1 nest.ne_nil
      | next ch gap later =>
          rcases List.exists_cons_of_ne_nil started with ⟨head, tail, rfl⟩
          rw [List.cons_append, List.cons.injEq] at equal
          rcases gap.copy_of_nest differ bracketed equal.2 nest with same | ⟨more, behind⟩
          · exact same
          · exact later.copy_of_nest differ bracketed once behind nest

theorem Pass.layer (differ : left ≠ right) (bracketed : Bracketed left right inner)
    (around : Bracketed left right outer) {symbols between kept : List Symbol}
    (first : Pass glyph (· = inner) symbols between)
    (second : Pass glyph (· = outer) between kept) :
    Pass glyph (Layer inner outer) symbols kept := by
  cases first with
  | nil =>
      generalize same : [] = symbols at second
      cases second with
      | nil => exact .nil
      | keep none later => cases same
      | drop word later =>
          rw [(List.append_eq_nil_iff.mp same.symm).1] at word
          exact absurd word (single_nested differ around).visible
  | drop word later =>
      rename_i dropped rest
      have shorter : rest.length < (dropped ++ rest).length := by
        have started := ((single_nested differ bracketed).nest _ word).ne_nil
        have positive := List.length_pos_of_ne_nil started
        rw [List.length_map] at positive
        rw [List.length_append]
        omega
      exact Pass.drop (.inl word) (later.layer differ bracketed around second)
  | keep none later =>
      rename_i symbol rest afterwards
      generalize same : symbol :: afterwards = all at second
      cases second with
      | nil => cases same
      | keep noOuter onward =>
          cases same
          apply Pass.keep _ (later.layer differ bracketed around onward)
          intro word isPrefix layer
          rcases layer with isInner | spells
          · exact none word isPrefix isInner
          · rcases isPrefix with ⟨behind, equal⟩
            rcases List.map_eq_append_iff.mp equal.symm with ⟨spelled, more, split, rfl, rfl⟩
            have pass := Pass.keep none later
            have free := none
            rw [split] at pass free
            rcases pass.spelled (single_nested differ bracketed) spells (around.once differ) rfl
              free with ⟨read, left, equal, letters, -⟩
            apply noOuter outer _ rfl
            rw [equal, List.map_append, letters]
            apply List.prefix_append
      | drop word onward =>
          rename_i read left
          have pass := Pass.keep none later
          rw [same] at pass
          have started : read ≠ [] := by
            intro nothing
            rw [nothing] at word
            exact (single_nested differ around).visible word
          rcases pass.lift started with ⟨words, spelled, more, whole, isWords, spells, -, pass⟩
          have noWords : words = [] := by
            generalize glyphs : words.map glyph = text at isWords
            cases isWords with
            | nil => exact List.map_eq_nil_iff.mp glyphs
            | cons isWord _ =>
                apply absurd isWord
                apply none
                rw [whole, List.map_append, glyphs, List.append_assoc]
                apply List.prefix_append
          rw [noWords, List.nil_append] at whole
          have shorter : more.length < (symbol :: rest).length := by
            rcases spells.head with ⟨ch, letters, text, -, equal⟩
            have length := congrArg List.length equal
            rw [List.length_map, List.length_cons] at length
            rw [whole, List.length_append]
            omega
          rw [whole]
          apply Pass.drop _ (pass.layer differ bracketed around onward)
          apply Or.inr
          rw [← word]
          exact spells
termination_by symbols.length

end

end Deletion

end LlmHoneypot
