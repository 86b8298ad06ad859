import Mathlib.Algebra.Order.Ring.Int
import Mathlib.Data.List.DropRight
import Mathlib.Data.List.Infix

/-! # Text as lists of code points

Total versions of the string operations that line-oriented tools use. Each has
the meaning of the method of Python's `str` whose name it carries. -/

namespace LlmHoneypot

abbrev Str := List Char

instance : LawfulBEq Str := inferInstance

namespace Text

def isSpace (ch : Char) : Bool :=
  let code := ch.toNat
  (9 ≤ code && code ≤ 13) || (28 ≤ code && code ≤ 32) || code == 0x85 ||
    code == 0xA0 || code == 0x1680 || (0x2000 ≤ code && code ≤ 0x200A) ||
    code == 0x2028 || code == 0x2029 || code == 0x202F || code == 0x205F ||
    code == 0x3000

def lstrip (text : Str) : Str := text.dropWhile isSpace

def rstrip (text : Str) : Str := text.rdropWhile isSpace

def strip (text : Str) : Str := rstrip (lstrip text)

/-- A list without the elements at its two ends that `drop` accepts, as
`text.strip(chars)` is. -/
def stripWhere {Symbol : Type} (drop : Symbol → Bool) (text : List Symbol) : List Symbol :=
  (text.dropWhile drop).rdropWhile drop

/-- The first blank-delimited word of a text without leading blanks. -/
def firstWord (text : Str) : Str := text.takeWhile (!isSpace ·)

def afterFirstWord (text : Str) : Str :=
  (text.dropWhile (!isSpace ·)).dropWhile isSpace

/-- `text[:text.find(separator)]`, or `none` where `find` returns `-1`. -/
def before? (separator : Str) : Str → Option Str
  | [] => if separator.isPrefixOf [] then some [] else none
  | ch :: rest =>
      if separator.isPrefixOf (ch :: rest) then some []
      else (before? separator rest).map (ch :: ·)

/-- `text[text.find(separator) + len(separator):]`. -/
def after? (separator : Str) : Str → Option Str
  | [] => if separator.isPrefixOf [] then some [] else none
  | ch :: rest =>
      if separator.isPrefixOf (ch :: rest) then
        some ((ch :: rest).drop separator.length)
      else after? separator rest

def contains (part text : Str) : Bool := (before? part text).isSome

def splitChar (separator : Char) : Str → List Str
  | [] => [[]]
  | ch :: rest =>
      if ch = separator then [] :: splitChar separator rest
      else match splitChar separator rest with
        | [] => [[ch]]
        | head :: tail => (ch :: head) :: tail

def join (separator : Str) (parts : List Str) : Str :=
  separator.intercalate parts

def wordsFrom (current : Str) : Str → List Str
  | [] => if current = [] then [] else [current]
  | ch :: rest =>
      if isSpace ch then
        if current = [] then wordsFrom [] rest else current :: wordsFrom [] rest
      else wordsFrom (current ++ [ch]) rest

/-- `text.split()`: the blank-delimited words. -/
def words (text : Str) : List Str := wordsFrom [] text

/-- `re.sub(pattern, new, text)` for a pattern that matches no empty text.
`matchLength` is the length of the match at the head of a text, zero where there
is none; `skip` counts the characters of the current match still to be passed
over. -/
def substituteFrom (matchLength : Str → Nat) (new : Str) : Nat → Str → Str
  | _, [] => []
  | skip + 1, _ :: rest => substituteFrom matchLength new skip rest
  | 0, ch :: rest =>
      match matchLength (ch :: rest) with
      | 0 => ch :: substituteFrom matchLength new 0 rest
      | length + 1 => new ++ substituteFrom matchLength new length rest

def substitute (matchLength : Str → Nat) (new text : Str) : Str :=
  substituteFrom matchLength new 0 text

def replace (old new text : Str) : Str :=
  substitute (fun text => if old.isPrefixOf text then old.length else 0) new text

def beforeFirstOf (separators : List Str) (text : Str) : Str :=
  (separators.findSome? (before? · text)).getD text

def isLineEnd (ch : Char) : Bool :=
  let code := ch.toNat
  (10 ≤ code && code ≤ 13) || (28 ≤ code && code ≤ 30) || code == 0x85 ||
    code == 0x2028 || code == 0x2029

def linesFrom (current : Str) : Str → List Str
  | [] => if current = [] then [] else [current]
  | '\r' :: '\n' :: rest => current :: linesFrom [] rest
  | ch :: rest =>
      if isLineEnd ch then current :: linesFrom [] rest else linesFrom (current ++ [ch]) rest

def splitlines (text : Str) : List Str := linesFrom [] text

def decimal (number : Nat) : Str := (toString number).toList

def utf8Length (text : Str) : Nat := (text.map Char.utf8Size).sum

/-! ## Searching -/

theorem before?_append {separator text found : Str}
    (at_ : before? separator text = some found) :
    ∃ rest, text = found ++ rest ∧ separator <+: rest := by
  induction text generalizing found with
  | nil =>
      simp only [before?] at at_
      split at at_
      · rename_i isPrefix
        cases at_
        exact ⟨[], rfl, List.isPrefixOf_iff_prefix.mp isPrefix⟩
      · cases at_
  | cons ch rest induction =>
      simp only [before?] at at_
      split at at_
      · rename_i isPrefix
        cases at_
        exact ⟨ch :: rest, rfl, List.isPrefixOf_iff_prefix.mp isPrefix⟩
      · rcases Option.map_eq_some_iff.mp at_ with ⟨tail, tailFound, rfl⟩
        rcases induction tailFound with ⟨suffix, rfl, separatorPrefix⟩
        exact ⟨suffix, rfl, separatorPrefix⟩

theorem before?_first {separator text found : Str} (visible : separator ≠ [])
    (at_ : before? separator text = some found) : ¬ separator <:+: found := by
  induction text generalizing found with
  | nil =>
      simp only [before?] at at_
      split at at_
      · cases at_
        exact fun isInfix => visible (List.eq_nil_of_infix_nil isInfix)
      · cases at_
  | cons ch rest induction =>
      simp only [before?] at at_
      split at at_
      · cases at_
        exact fun isInfix => visible (List.eq_nil_of_infix_nil isInfix)
      · rename_i notPrefix
        rcases Option.map_eq_some_iff.mp at_ with ⟨tail, tailFound, rfl⟩
        intro isInfix
        rcases List.infix_cons_iff.mp isInfix with isPrefix | later
        · apply notPrefix
          rcases before?_append tailFound with ⟨more, rfl, -⟩
          exact List.isPrefixOf_iff_prefix.mpr (isPrefix.trans (List.prefix_append (ch :: tail) more))
        · exact induction tailFound later

theorem contains_iff_infix {part text : Str} :
    contains part text = true ↔ part <:+: text := by
  induction text with
  | nil =>
      simp [contains, before?]
  | cons ch rest induction =>
      rw [List.infix_cons_iff, ← induction]
      simp only [contains, before?]
      split
      · rename_i isPrefix
        simp [List.isPrefixOf_iff_prefix.mp isPrefix]
      · rename_i notPrefix
        have notPrefix : ¬ part <+: ch :: rest := fun isPrefix =>
          notPrefix (List.isPrefixOf_iff_prefix.mpr isPrefix)
        simp [notPrefix]

theorem before?_eq_none_iff {separator text : Str} :
    before? separator text = none ↔ ¬ separator <:+: text := by
  rw [← contains_iff_infix, contains]
  cases before? separator text <;> simp

theorem before?_of_not_any {part text : Str} {parts : List Str}
    (free : ¬ parts.any (contains · text)) (member : part ∈ parts) :
    before? part text = none := by
  have absent : contains part text = false := by
    simpa using fun present => free (List.any_eq_true.mpr ⟨part, member, present⟩)
  simpa [contains] using absent

theorem splitChar_head (separator : Char) (text : Str) :
    ∃ rest, splitChar separator text =
      (before? [separator] text).getD text :: rest ∧ (separator ∈ text → rest ≠ []) := by
  induction text with
  | nil => exact ⟨[], rfl, by simp⟩
  | cons ch rest induction =>
      rcases induction with ⟨tail, equal, more⟩
      by_cases same : ch = separator
      · subst same
        refine ⟨_, by simp [splitChar, before?]; rfl, fun _ => ?_⟩
        simp [equal]
      · have differs : ¬ [separator].isPrefixOf (ch :: rest) := by
          simpa [List.isPrefixOf] using Ne.symm same
        refine ⟨tail, ?_, fun member => more ?_⟩
        · simp only [splitChar, same, if_false, equal, before?, differs]
          cases before? [separator] rest <;> rfl
        · simpa [Ne.symm same] using member

theorem not_mem_splitChar {separator : Char} {text part : Str}
    (member : part ∈ splitChar separator text) : separator ∉ part := by
  induction text generalizing part with
  | nil =>
      rw [List.mem_singleton.mp member]
      simp
  | cons ch rest induction =>
      simp only [splitChar] at member
      split at member
      · rcases List.mem_cons.mp member with rfl | later
        · simp
        · exact induction later
      · rename_i differs
        rcases splitChar_head separator rest with ⟨tail, equal, -⟩
        rw [equal] at member induction
        simp only [List.mem_cons] at member
        rcases member with rfl | later
        · have free := induction (List.mem_cons_self ..)
          simp [free, Ne.symm differs]
        · exact induction (List.mem_cons_of_mem _ later)

theorem splitChar_append {separator : Char} {part : Str} (free : separator ∉ part) (rest : Str) :
    splitChar separator (part ++ separator :: rest) = part :: splitChar separator rest := by
  induction part with
  | nil => simp [splitChar]
  | cons ch part induction =>
      have differs : ch ≠ separator := fun same => free (same ▸ List.mem_cons_self ..)
      have inner := induction fun member => free (List.mem_cons_of_mem _ member)
      simp [splitChar, differs, inner]

theorem splitChar_ne_nil (separator : Char) (text : Str) : splitChar separator text ≠ [] := by
  rcases splitChar_head separator text with ⟨rest, equal, -⟩
  rw [equal]
  exact List.cons_ne_nil _ _

theorem splitChar_between (separator : Char) (text rest : Str) :
    splitChar separator (text ++ separator :: rest) =
      splitChar separator text ++ splitChar separator rest := by
  induction text with
  | nil => simp [splitChar]
  | cons ch text induction =>
      rcases splitChar_head separator text with ⟨tail, equal, -⟩
      by_cases same : ch = separator
      · simp [splitChar, same, induction]
      · simp [splitChar, same, induction, equal]

theorem splitChar_free {separator : Char} {part : Str} (free : separator ∉ part) :
    splitChar separator part = [part] := by
  induction part with
  | nil => rfl
  | cons ch part induction =>
      have differs : ch ≠ separator := fun same => free (same ▸ List.mem_cons_self ..)
      have inner := induction fun member => free (List.mem_cons_of_mem _ member)
      simp [splitChar, differs, inner]

/-! ## Words -/

private theorem takeWhile_append_spaces (text : Str) {spaces : Str}
    (blank : ∀ ch ∈ spaces, isSpace ch = true) :
    (text ++ spaces).takeWhile (!isSpace ·) = text.takeWhile (!isSpace ·) := by
  have none : spaces.takeWhile (!isSpace ·) = [] := by
    cases spaces with
    | nil => rfl
    | cons ch rest => simp [blank ch (by simp)]
  rw [List.takeWhile_append, none, List.append_nil]
  split
  · rename_i whole
    exact ((List.takeWhile_prefix _).eq_of_length whole).symm
  · rfl

theorem firstWord_rstrip (text : Str) : firstWord (rstrip text) = firstWord text :=
  calc firstWord (rstrip text)
    _ = firstWord (rstrip text ++ text.rtakeWhile isSpace) :=
        (takeWhile_append_spaces _ fun _ member => List.mem_rtakeWhile_imp member).symm
    _ = firstWord text := by rw [rstrip, List.rdropWhile_append_rtakeWhile]

theorem lstrip_append {text : Str} (rest : Str) (visible : lstrip text ≠ []) :
    lstrip (text ++ rest) = lstrip text ++ rest := by
  unfold lstrip at *
  rw [List.dropWhile_append]
  simp [visible]

theorem lstrip_ne_nil_of_strip {text : Str} (visible : strip text ≠ []) :
    lstrip text ≠ [] := by
  intro empty
  exact visible (by simp [strip, empty, rstrip])

theorem infix_flatMap {Item : Type} {item : Item} {items : List Item} (member : item ∈ items)
    (write : Item → Str) : write item <:+: items.flatMap write := by
  rcases List.append_of_mem member with ⟨before, after, split⟩
  rw [split, List.flatMap_append, List.flatMap_cons]
  exact List.infix_append' ..

theorem infix_join {part : Str} {parts : List Str} (member : part ∈ parts) (separator : Str) :
    part <:+: join separator parts := by
  induction parts with
  | nil => cases member
  | cons first parts induction =>
      cases parts with
      | nil =>
          rw [List.mem_singleton.mp member, join, List.intercalate_singleton]
      | cons second parts =>
          rw [join, List.intercalate_cons_cons]
          rcases List.mem_cons.mp member with isFirst | later
          · rw [isFirst, List.append_assoc]
            exact (List.prefix_append ..).isInfix
          · exact (induction later).trans (List.suffix_append ..).isInfix

theorem mem_join_head {ch : Char} {head : Str} (member : ch ∈ head) (separator : Str)
    (rest : List Str) : ch ∈ join separator (head :: rest) := by
  cases rest with
  | nil => simpa [join, List.intercalate] using member
  | cons second rest => simp [join, List.intercalate, member]

theorem strip_eq_nil_iff {text : Str} : strip text = [] ↔ ∀ ch ∈ text, isSpace ch = true := by
  constructor
  · intro nothing
    have blanks : ∀ ch ∈ lstrip text, isSpace ch = true := List.rdropWhile_eq_nil_iff.mp nothing
    apply List.dropWhile_eq_nil_iff.mp
    by_contra some
    have visible := List.head_dropWhile_not isSpace some
    rw [blanks _ (List.head_mem some)] at visible
    cases visible
  · intro blanks
    have nothing : lstrip text = [] := List.dropWhile_eq_nil_iff.mpr blanks
    rw [strip, nothing]
    rfl

theorem strip_ne_nil_iff {text : Str} :
    strip text ≠ [] ↔ ∃ ch ∈ text, isSpace ch = false := by
  rw [ne_eq, strip_eq_nil_iff]
  simp

theorem firstWord_strip (text : Str) : firstWord (strip text) = firstWord (lstrip text) :=
  firstWord_rstrip _

theorem map_stripWhere {Symbol Other : Type} (f : Symbol → Other) (drop : Other → Bool)
    (text : List Symbol) :
    (stripWhere (fun symbol => drop (f symbol)) text).map f = stripWhere drop (text.map f) := by
  simp only [stripWhere, List.rdropWhile, List.dropWhile_map, ← List.map_reverse]
  rfl

private theorem infix_dropWhile {part text : Str} (started : part ≠ [])
    (visible : ∀ ch ∈ part, isSpace ch = false) (isInfix : part <:+: text) :
    part <:+: text.dropWhile isSpace := by
  induction text with
  | nil => exact isInfix
  | cons ch rest induction =>
      by_cases space : isSpace ch
      · rw [List.dropWhile_cons, if_pos space]
        rcases List.infix_cons_iff.mp isInfix with isPrefix | isInfix
        · rcases part with _ | ⟨first, more⟩
          · exact absurd rfl started
          · have equal := (List.cons_prefix_cons.mp isPrefix).1
            rw [equal] at visible
            simp [visible ch (by simp)] at space
        · exact induction isInfix
      · rw [List.dropWhile_cons, if_neg space]
        exact isInfix

theorem infix_strip {part text : Str} (started : part ≠ [])
    (visible : ∀ ch ∈ part, isSpace ch = false) (isInfix : part <:+: text) :
    part <:+: strip text := by
  have left : part <:+: lstrip text := infix_dropWhile started visible isInfix
  rw [strip, rstrip, List.rdropWhile, ← List.reverse_reverse part, List.reverse_infix]
  exact infix_dropWhile (by simpa using started) (by simpa using visible)
    (List.reverse_infix.mpr left)

theorem strip_strip (text : Str) : strip (strip text) = strip text := by
  have started : lstrip (strip text) = strip text := by
    refine List.dropWhile_eq_self_iff.mpr fun visible => ?_
    have isPrefix : strip text <+: lstrip text := List.rdropWhile_prefix ..
    have longer : 0 < (lstrip text).length := lt_of_lt_of_le visible isPrefix.length_le
    rw [isPrefix.getElem visible]
    exact List.dropWhile_eq_self_iff.mp (List.dropWhile_idempotent ..) longer
  calc strip (strip text)
    _ = rstrip (strip text) := by rw [strip, started]
    _ = strip text := List.rdropWhile_idempotent ..

theorem firstWord_strip_prefix {text : Str} (rest : Str) (visible : strip text ≠ []) :
    firstWord (strip text) <+: firstWord (strip (text ++ rest)) := by
  rw [firstWord_strip, firstWord_strip, lstrip_append rest (lstrip_ne_nil_of_strip visible)]
  unfold firstWord
  rw [List.takeWhile_append]
  split
  · rename_i whole
    have same : (lstrip text).takeWhile (!isSpace ·) = lstrip text :=
      (List.takeWhile_prefix _).eq_of_length whole
    rw [same]
    exact List.prefix_append ..
  · exact List.prefix_refl _

theorem wordsFrom_head {current : Str} (started : current ≠ []) (text : Str) :
    (wordsFrom current text).head? = some (current ++ firstWord text) := by
  induction text generalizing current with
  | nil => simp [wordsFrom, started, firstWord]
  | cons ch rest induction =>
      by_cases space : isSpace ch
      · simp [wordsFrom, space, started, firstWord]
      · rw [wordsFrom, if_neg space, induction (by simp)]
        simp [firstWord, space]

theorem words_head (text : Str) :
    (words text).head? = if lstrip text = [] then none else some (firstWord (lstrip text)) := by
  unfold words
  induction text with
  | nil => rfl
  | cons ch rest induction =>
      by_cases space : isSpace ch
      · simpa [wordsFrom, space, lstrip] using induction
      · rw [wordsFrom, if_neg space, wordsFrom_head (by simp)]
        simp [lstrip, firstWord, space]

end Text

end LlmHoneypot
