import LlmHoneypot.Foundation.ShellSyntax
import LlmHoneypot.Foundation.Shlex

/-! # Word splitting and quoting

A text that splits into words leaves no quotation open, so that what follows it is
read unquoted. With it a line cut at every bar, quoted or not, is a pipeline where
all the parts split. -/

namespace LlmHoneypot

namespace ShellSyntax

def Quoting.after (quoting : Quoting) (text : Str) : Quoting := text.foldl Quoting.next quoting

@[simp] theorem after_nil (quoting : Quoting) : quoting.after [] = quoting := rfl

@[simp] theorem after_cons (quoting : Quoting) (ch : Char) (text : Str) :
    quoting.after (ch :: text) = (quoting.next ch).after text := rfl

theorem after_append (quoting : Quoting) (first second : Str) :
    quoting.after (first ++ second) = (quoting.after first).after second :=
  List.foldl_append ..

/-! ## Words -/

def quotingOf : Shlex.Mode → Quoting
  | .between => .plain
  | .word => .plain
  | .quoted quote => if quote = '\'' then .single else .double
  | .escaped false => .escaped
  | .escaped true => .escapedInDouble

def Opened : Shlex.Mode → Prop
  | .quoted quote => quote = '\'' ∨ quote = '"'
  | _ => True

theorem next_of_blank {ch : Char} (blank : Shlex.isBlank ch = true) :
    Quoting.plain.next ch = .plain := by
  simp only [Shlex.isBlank, Bool.or_eq_true, beq_iff_eq] at blank
  rcases blank with ((rfl | rfl) | rfl) | rfl <;> decide

theorem next_of_quote {ch : Char} (quote : Shlex.isQuote ch = true) :
    Quoting.plain.next ch = quotingOf (.quoted ch) ∧ Opened (.quoted ch) := by
  simp only [Shlex.isQuote, Bool.or_eq_true, beq_iff_eq] at quote
  rcases quote with rfl | rfl
  · exact ⟨rfl, .inl rfl⟩
  · exact ⟨rfl, .inr rfl⟩

theorem next_of_ordinary {ch : Char} (notQuote : ¬ Shlex.isQuote ch = true) (notEscape : ch ≠ '\\') :
    Quoting.plain.next ch = .plain := by
  simp only [Shlex.isQuote, Bool.or_eq_true, beq_iff_eq, not_or] at notQuote
  simp [Quoting.next, notQuote.1, notQuote.2, notEscape]

theorem after_of_scan {mode : Shlex.Mode} {token : Str} {quoted : Bool} {text : Str}
    {words : List Str} (opened : Opened mode)
    (scanned : Shlex.scan mode token quoted text = some words) :
    (quotingOf mode).after text = .plain := by
  induction text generalizing mode token quoted words with
  | nil =>
      cases mode with
      | between => rfl
      | word => rfl
      | quoted quote => simp [Shlex.scan] at scanned
      | escaped insideQuote => simp [Shlex.scan] at scanned
  | cons ch rest induction =>
      rw [after_cons]
      cases mode with
      | between =>
          change (Quoting.plain.next ch).after rest = .plain
          simp only [Shlex.scan] at scanned
          split at scanned
          · rename_i blank
            rw [next_of_blank blank]
            exact @induction .between _ _ _ trivial scanned
          · split at scanned
            · rename_i escape
              rw [escape]
              exact @induction (.escaped false) _ _ _ trivial scanned
            · rename_i notEscape
              split at scanned
              · rename_i quote
                rcases next_of_quote quote with ⟨next, opens⟩
                rw [next]
                exact induction opens scanned
              · rename_i notQuote
                rw [next_of_ordinary notQuote notEscape]
                exact @induction .word _ _ _ trivial scanned
      | word =>
          change (Quoting.plain.next ch).after rest = .plain
          simp only [Shlex.scan] at scanned
          split at scanned
          · rename_i blank
            rw [next_of_blank blank]
            split at scanned
            · exact @induction .between _ _ _ trivial scanned
            · rcases Option.map_eq_some_iff.mp scanned with ⟨later, scannedLater, -⟩
              exact @induction .between _ _ _ trivial scannedLater
          · split at scanned
            · rename_i quote
              rcases next_of_quote quote with ⟨next, opens⟩
              rw [next]
              exact induction opens scanned
            · rename_i notQuote
              split at scanned
              · rename_i escape
                rw [escape]
                exact @induction (.escaped false) _ _ _ trivial scanned
              · rename_i notEscape
                rw [next_of_ordinary notQuote notEscape]
                exact @induction .word _ _ _ trivial scanned
      | quoted quote =>
          simp only [Shlex.scan] at scanned
          split at scanned
          · rename_i closes
            subst closes
            have closed : (quotingOf (.quoted ch)).next ch = .plain := by
              rcases opened with rfl | rfl <;> rfl
            rw [closed]
            exact @induction .word _ _ _ trivial scanned
          · rename_i open_
            split at scanned
            · rename_i escape
              rw [escape.1, escape.2]
              exact @induction (.escaped true) _ _ _ trivial scanned
            · rename_i notEscape
              have stays : (quotingOf (.quoted quote)).next ch = quotingOf (.quoted quote) := by
                rcases opened with rfl | rfl
                · simp [quotingOf, Quoting.next, open_]
                · have ordinary : ch ≠ '\\' := fun same => notEscape ⟨same, rfl⟩
                  simp [quotingOf, Quoting.next, open_, ordinary]
              rw [stays]
              exact induction opened scanned
      | escaped insideQuote =>
          cases insideQuote with
          | false =>
              simp only [Shlex.scan] at scanned
              exact @induction .word _ _ _ trivial scanned
          | true =>
              simp only [Shlex.scan] at scanned
              split at scanned
              · exact @induction (.quoted '"') _ _ _ (.inr rfl) scanned
              · exact @induction (.quoted '"') _ _ _ (.inr rfl) scanned

theorem after_of_split {text : Str} {words : List Str} (split : Shlex.split text = some words) :
    Quoting.plain.after text = .plain :=
  @after_of_scan .between _ _ _ _ trivial split

theorem after_blanks {text : Str} (blank : ∀ ch ∈ text, Text.isSpace ch = true) :
    Quoting.plain.after text = .plain := by
  induction text with
  | nil => rfl
  | cons ch rest induction =>
      have notQuote : ¬ Shlex.isQuote ch = true := by
        intro quote
        have space := blank ch (List.mem_cons_self ..)
        simp only [Shlex.isQuote, Bool.or_eq_true, beq_iff_eq] at quote
        rcases quote with rfl | rfl <;> revert space <;> decide
      have notEscape : ch ≠ '\\' := by
        rintro rfl
        have space := blank '\\' (List.mem_cons_self ..)
        revert space
        decide
      rw [after_cons, next_of_ordinary notQuote notEscape]
      exact induction fun other member => blank other (List.mem_cons_of_mem _ member)

theorem after_of_strip {text : Str} (ends : Quoting.plain.after (Text.strip text) = .plain) :
    Quoting.plain.after text = .plain := by
  have left : text = text.takeWhile Text.isSpace ++ Text.lstrip text :=
    (List.takeWhile_append_dropWhile ..).symm
  have right : Text.lstrip text =
      Text.strip text ++ (Text.lstrip text).rtakeWhile Text.isSpace :=
    (List.rdropWhile_append_rtakeWhile ..).symm
  have blankLeft : ∀ ch ∈ text.takeWhile Text.isSpace, Text.isSpace ch = true :=
    fun ch member => List.mem_takeWhile_imp member
  have blankRight : ∀ ch ∈ (Text.lstrip text).rtakeWhile Text.isSpace, Text.isSpace ch = true :=
    fun ch member => List.mem_rtakeWhile_imp member
  rw [left, after_append, after_blanks blankLeft, right, after_append, ends,
    after_blanks blankRight]

/-! ## Pipelines -/

def splitAt (cuts : Symbol → Bool) : List Symbol → List Str
  | [] => [[]]
  | symbol :: rest =>
      if cuts symbol then [] :: splitAt cuts rest
      else match splitAt cuts rest with
        | [] => [[symbol.1]]
        | head :: tail => (symbol.1 :: head) :: tail

def isPipe (symbol : Symbol) : Bool := symbol.2 = .plain ∧ symbol.1 = '|'

def stages (line : Str) : List Str := (splitAt isPipe (annotate line)).map Text.strip

def simpleCommands (line : Str) : List Str :=
  (splitAt isSeparator (annotate line)).map Text.strip

def hasOtherOperator : List Symbol → Bool
  | [] => false
  | symbol :: rest =>
      isSeparator symbol && symbol.1 != '|' || isPipe symbol && rest.head?.any isPipe ||
        isRedirection symbol || isSubstitution symbol rest || hasOtherOperator rest

def isAmpersand (symbol : Symbol) : Bool := symbol.2 = .plain ∧ symbol.1 = '&'

theorem splitAt_congr {first second : Symbol → Bool} {symbols : List Symbol}
    (same : ∀ symbol ∈ symbols, first symbol = second symbol) :
    splitAt first symbols = splitAt second symbols := by
  induction symbols with
  | nil => rfl
  | cons symbol rest induction =>
      have later := induction fun other member => same other (List.mem_cons_of_mem _ member)
      simp only [splitAt, same symbol (List.mem_cons_self ..), later]

theorem splitAt_char (cut : Char) (quoting : Quoting) (text : Str) :
    splitAt (·.1 = cut) (annotateFrom quoting text) = Text.splitChar cut text := by
  induction text generalizing quoting with
  | nil => rfl
  | cons ch rest induction =>
      have later := induction (quoting.next ch)
      cases parts : Text.splitChar cut rest <;>
        simp_all [annotateFrom, splitAt, Text.splitChar]

theorem bar_plain {quoting : Quoting} {text head : Str} {tail : List Str}
    (parts : Text.splitChar '|' text = head :: tail) (first : quoting.after head = .plain)
    (later : ∀ part ∈ tail, Quoting.plain.after part = .plain) :
    ∀ symbol ∈ annotateFrom quoting text, symbol.1 = '|' → symbol.2 = .plain := by
  induction text generalizing quoting head tail with
  | nil => simp [annotateFrom]
  | cons ch rest induction =>
      intro symbol member isBar
      simp only [Text.splitChar] at parts
      rcases Text.splitChar_head '|' rest with ⟨more, equal, -⟩
      generalize (Text.before? ['|'] rest).getD rest = next at equal
      split at parts
      · rename_i bar
        subst bar
        cases parts
        have plain : quoting = .plain := first
        subst plain
        rw [equal] at later
        rcases List.mem_cons.mp member with rfl | inRest
        · rfl
        · exact @induction .plain _ _ equal (later _ (List.mem_cons_self ..))
            (fun part among => later part (List.mem_cons_of_mem _ among)) symbol inRest isBar
      · rename_i notBar
        rw [equal] at parts
        cases parts
        rcases List.mem_cons.mp member with rfl | inRest
        · exact absurd isBar notBar
        · exact @induction (quoting.next ch) _ _ equal first later symbol inRest isBar

theorem stages_eq {line : Str} {parts : List Str}
    (equal : (Text.splitChar '|' line).map Text.strip = parts)
    (split : ∀ part ∈ parts, ∃ words, Shlex.split part = some words) :
    stages line = parts := by
  have ends : ∀ part ∈ Text.splitChar '|' line, Quoting.plain.after part = .plain := by
    intro part member
    have stripped : Text.strip part ∈ parts := equal ▸ List.mem_map_of_mem member
    rcases split _ stripped with ⟨words, isSplit⟩
    exact after_of_strip (after_of_split isSplit)
  rcases Text.splitChar_head '|' line with ⟨more, head, -⟩
  rw [head] at ends
  have plain := bar_plain head (ends _ (List.mem_cons_self ..))
    fun part member => ends part (List.mem_cons_of_mem _ member)
  have same : ∀ symbol ∈ annotate line, isPipe symbol = decide (symbol.1 = '|') := by
    intro symbol member
    by_cases bar : symbol.1 = '|'
    · simp [isPipe, bar, plain symbol member bar]
    · simp [isPipe, bar]
  rw [stages, splitAt_congr same, annotate, splitAt_char, equal]

end ShellSyntax

end LlmHoneypot
