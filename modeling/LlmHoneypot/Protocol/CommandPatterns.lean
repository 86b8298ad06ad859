import LlmHoneypot.Protocol.CommandEffects

/-! # Patterns and spelled commands

What the patterns of the parser match in the text of a simple command, and the commands that
none of them matches. -/

namespace LlmHoneypot

namespace Protocol

open CmdParser Spelling

/-! ## The patterns -/

def patternMutations (head : Str) : List CmdMutation :=
  match echoRedirect head with
  | some (content, append, path) =>
      let path := Text.stripWhere (fun ch => ch == '\'' || ch == '"') path
      if append then [.appendFile path (stripQuotes content)]
      else [.createFile path (stripQuotes content)]
  | none =>
  match verbArgs "touch".toList head with
  | some args => ((tokens args).filter (!isFlag ·)).map (.createFile · [])
  | none =>
  match verbArgs "rm".toList head with
  | some args => ((tokens args).filter (!isFlag ·)).map .removeFile
  | none =>
  match verbArgs "cp".toList head with
  | some args => (sourceAndTarget args).toList.map fun (path, dst) => .copyFile path dst
  | none =>
  match verbArgs "mv".toList head with
  | some args => (sourceAndTarget args).toList.map fun (path, dst) => .moveFile path dst
  | none =>
  match exportAssign head with
  | some assign => (bareAssign assign).toList.map assignment
  | none =>
      if (Text.words head).length = 1 then (bareAssign head).toList.map assignment
      else []

structure Headed (line head : Str) : Prop where
  foreground : parseBackground line = none
  cut : Text.strip (splitFirstCommand line) = head
  started : head ≠ []

theorem Headed.parse {line head : Str} (headed : Headed line head) :
    parseInputMutations line = match parseUserSwitch head with
      | some switch => [switch]
      | none => patternMutations head := by
  simp only [parseInputMutations, headed.foreground, headed.cut, headed.started, if_false]
  rfl

theorem Headed.parse_patterns {line head : Str} (headed : Headed line head)
    (noSwitch : parseUserSwitch head = none) : parseInputMutations line = patternMutations head := by
  rw [headed.parse, noSwitch]

def PATTERN_WORDS : List Str := ["echo", "touch", "rm", "cp", "mv", "export"].map String.toList

theorem patternMutations_assign {head : Str} (noEcho : echoRedirect head = none)
    (noVerb : ∀ verb ∈ PATTERN_WORDS, verb ≠ "echo".toList → afterVerb verb head = none) :
    patternMutations head =
      if (Text.words head).length = 1 then (bareAssign head).toList.map assignment else [] := by
  have noArgs : ∀ verb ∈ PATTERN_WORDS, verb ≠ "echo".toList → verbArgs verb head = none := by
    intro verb member differs
    rw [verbArgs, noVerb verb member differs]
    rfl
  have noExport : exportAssign head = none := by
    rw [exportAssign, noVerb "export".toList (by decide) (by decide)]
    rfl
  simp only [patternMutations, noEcho, noExport, noArgs "touch".toList (by decide) (by decide),
    noArgs "rm".toList (by decide) (by decide), noArgs "cp".toList (by decide) (by decide),
    noArgs "mv".toList (by decide) (by decide)]

theorem afterVerb_eq_some {verb text rest : Str} :
    afterVerb verb text = some rest ↔
      ∃ ch more, Text.lstrip text = verb ++ ch :: more ∧ Text.isSpace ch = true ∧
        Text.lstrip more = rest := by
  constructor
  · intro found
    simp only [afterVerb] at found
    split at found
    · rename_i isPrefix
      rcases List.isPrefixOf_iff_prefix.mp isPrefix with ⟨later, whole⟩
      rw [← whole, List.drop_left] at found
      split at found
      · rename_i ch more
        split at found
        · rename_i space
          exact ⟨ch, more, whole.symm, space, Option.some.inj found⟩
        · cases found
      · cases found
    · cases found
  · intro found
    rcases found with ⟨ch, more, whole, space, stripped⟩
    simp only [afterVerb, whole]
    rw [if_pos (List.isPrefixOf_iff_prefix.mpr (List.prefix_append ..)), List.drop_left]
    simp only [space, if_true, stripped]

/-! ## Words as they are spelled -/

/-- A piece that `shlex` and the patterns read as a shell does: no white space but the
shell's own stands in a word as it is. -/
def LegiblePiece : Piece → Prop
  | .plain ch => Text.isSpace ch = false
  | piece => piece.Plain

instance : DecidablePred LegiblePiece
  | .plain ch => inferInstanceAs (Decidable (Text.isSpace ch = false))
  | .escaped _ => .isTrue trivial
  | .single _ => .isTrue trivial
  | .double body => inferInstanceAs (Decidable (Piece.double body).Plain)

theorem LegiblePiece.plain {piece : Piece} (legible : LegiblePiece piece) : piece.Plain := by
  cases piece with
  | plain ch =>
      intro same
      rw [same] at legible
      cases legible
  | escaped ch => exact legible
  | single body => exact legible
  | double body => exact legible

theorem LegiblePiece.head {piece : Piece} (legible : LegiblePiece piece) :
    ∃ ch more, piece.text = ch :: more ∧ Text.isSpace ch = false := by
  cases piece with
  | plain ch => exact ⟨ch, [], rfl, legible⟩
  | escaped ch => exact ⟨'\\', [ch], rfl, rfl⟩
  | single body => exact ⟨'\'', _, rfl, rfl⟩
  | double body => exact ⟨'"', _, rfl, rfl⟩

def LegibleWord (word : Word) : Prop := ∀ piece ∈ word.pieces, LegiblePiece piece

def SpelledAs (word : Word) (text : Str) : Prop := word.pieces = text.map Piece.plain

theorem SpelledAs.text {word : Word} {text : Str} (spelled : SpelledAs word text) :
    word.text = text := by
  rw [Word.text, spelled, List.flatMap_map]
  exact List.flatMap_singleton' text

theorem SpelledAs.value {word : Word} {text : Str} (spelled : SpelledAs word text) :
    word.value = text := by
  rw [Word.value, spelled, List.flatMap_map]
  exact List.flatMap_singleton' text

theorem LegibleWord.head {word : Word} (legible : LegibleWord word) (rest : Str) :
    ∃ ch more, word.text ++ rest = ch :: more ∧ Text.isSpace ch = false := by
  rcases List.exists_cons_of_ne_nil word.started with ⟨piece, pieces, isPieces⟩
  have member : piece ∈ word.pieces := by
    rw [isPieces]
    exact List.mem_cons_self ..
  rcases (legible piece member).head with ⟨ch, more, isText, visible⟩
  apply Exists.intro ch
  rw [Word.text, isPieces, List.flatMap_cons, isText]
  exact ⟨_, rfl, visible⟩

theorem LegibleWord.lstrip {word : Word} (legible : LegibleWord word) (rest : Str) :
    Text.lstrip (word.text ++ rest) = word.text ++ rest := by
  rcases legible.head rest with ⟨ch, more, isText, visible⟩
  rw [isText, Text.lstrip, List.dropWhile_cons_of_neg (by simp [visible])]

theorem apart_of_letters {verb tail : Str} (letters : verb.all Char.isAlpha = true)
    (ends : Ends tail) :
    (∀ ch ∈ verb, ch ≠ '\'' ∧ ch ≠ '"' ∧ ch ≠ '\\') ∧ ∀ ch ∈ tail.head?, ch ∉ verb := by
  have isLetter := List.all_eq_true.mp letters
  have differs : ∀ ch ∈ verb, ∀ other : Char, other.isAlpha = false → ch ≠ other := by
    intro ch member other notLetter same
    rw [← same, isLetter ch member] at notLetter
    cases notLetter
  constructor
  · intro ch member
    exact ⟨differs ch member _ rfl, differs ch member _ rfl, differs ch member _ rfl⟩
  · intro ch head member
    rcases ends ch head with (blank | blank) | sign | sign
    · exact differs ch member _ rfl blank
    · exact differs ch member _ rfl blank
    · exact differs ch member _ rfl sign
    · exact differs ch member _ rfl sign

theorem afterVerb_word {word : Word} {verb tail rest : Str} (letters : verb.all Char.isAlpha = true)
    (ends : Ends tail) (legible : LegibleWord word) :
    afterVerb verb (word.text ++ tail) = some rest ↔
      SpelledAs word verb ∧ tail ≠ [] ∧ (∀ ch ∈ tail.head?, IsBlank ch) ∧
        Text.lstrip tail = rest := by
  rw [afterVerb_eq_some, legible.lstrip]
  constructor
  · intro found
    rcases found with ⟨ch, more, whole, space, stripped⟩
    rcases apart_of_letters letters ends with ⟨ordinary, apart⟩
    rcases @pieces_begin word.pieces verb tail ordinary apart
      (by rw [← Word.text, whole]; exact List.prefix_append ..) with ⟨pieces, isPieces⟩
    have front : word.text = verb ++ pieces.flatMap Piece.text := by
      rw [Word.text, isPieces, List.flatMap_append, List.flatMap_map]
      exact congrArg (· ++ _) (List.flatMap_singleton' verb)
    rw [front, List.append_assoc] at whole
    replace whole := List.append_cancel_left whole
    cases pieces with
    | cons piece pieces =>
        rcases (legible piece (by rw [isPieces]; simp)).head with ⟨first, later, isText, visible⟩
        rw [List.flatMap_cons, isText] at whole
        rw [← (List.cons.inj whole).1, visible] at space
        cases space
    | nil =>
        rw [List.flatMap_nil, List.nil_append] at whole
        rw [List.append_nil] at isPieces
        rw [whole] at ends ⊢
        apply And.intro isPieces
        apply And.intro (List.cons_ne_nil _ _)
        constructor
        · intro other head
          rw [← Option.some.inj head]
          rcases ends ch rfl with blank | sign | sign
          · exact blank
          · rw [sign] at space
            cases space
          · rw [sign] at space
            cases space
        · rw [← stripped, Text.lstrip, List.dropWhile_cons_of_pos space]
          rfl
  · intro found
    rcases found with ⟨spelled, started, blank, stripped⟩
    rcases List.exists_cons_of_ne_nil started with ⟨ch, more, isTail⟩
    have space := space_of_blank (blank ch (by rw [isTail]; rfl))
    rw [isTail, Text.lstrip, List.dropWhile_cons_of_pos space] at stripped
    rw [spelled.text, isTail]
    exact ⟨ch, more, rfl, space, stripped⟩

theorem split_word {word : Word} {tail : Str} {words : List Str} (ends : Ends tail)
    (legible : LegibleWord word) (splits : Shlex.split (word.text ++ tail) = some words) :
    ∃ first later, words = first :: later ∧ (first = word.value ∨
      ∃ sign, (sign = '<' ∨ sign = '>') ∧ word.value ++ [sign] <+: first) := by
  rcases scan_word word (fun piece member => (legible piece member).plain) [] false tail with
    ⟨more, scanned, counts⟩
  have visible : ¬ (word.value = [] ∧ more = false) := by
    intro both
    rcases counts with started | isQuoted
    · exact started both.1
    · rw [both.2] at isQuoted
      cases isQuoted
  rw [Shlex.split, scanned] at splits
  cases tail with
  | nil =>
      rw [Shlex.scan, if_neg visible] at splits
      exact ⟨word.value, [], (Option.some.inj splits).symm, .inl rfl⟩
  | cons ch tail =>
      rcases ends ch rfl with blank | sign
      · have isBlank : Shlex.isBlank ch = true := by
          rcases blank with same | same
          · rw [same]
            rfl
          · rw [same]
            rfl
        rw [Shlex.scan, if_pos isBlank, if_neg visible] at splits
        rcases Option.map_eq_some_iff.mp splits with ⟨later, -, isWords⟩
        exact ⟨word.value, later, isWords.symm, .inl rfl⟩
      · have ordinary : ¬ Shlex.isBlank ch = true ∧ ¬ Shlex.isQuote ch = true ∧ ch ≠ '\\' := by
          rcases sign with same | same
          · rw [same]
            decide
          · rw [same]
            decide
        rw [Shlex.scan, if_neg ordinary.1, if_neg ordinary.2.1, if_neg ordinary.2.2] at splits
        rcases Shlex.scan_begun Shlex.Mode.noConfusion (List.concat_ne_nil _ _) List.prefix_rfl
          splits with ⟨first, later, isWords, begins⟩
        exact ⟨first, later, isWords, .inr ⟨ch, sign, begins⟩⟩

theorem parseUserSwitch_word {word : Word} {tail : Str} (ends : Ends tail)
    (legible : LegibleWord word) (notSu : word.value ≠ "su".toList)
    (notSudo : word.value ≠ "sudo".toList) : parseUserSwitch (word.text ++ tail) = none := by
  cases splits : Shlex.split (word.text ++ tail) with
  | none =>
      rw [parseUserSwitch, splits]
  | some words =>
      rcases split_word ends legible splits with ⟨first, later, isWords, isFirst⟩
      have other : ∀ name : Str, word.value ≠ name → '<' ∉ name → '>' ∉ name → first ≠ name := by
        intro name differs noInput noOutput same
        rcases isFirst with whole | ⟨sign, isSign, begins⟩
        · exact differs (whole.symm.trans same)
        · have member : sign ∈ name := by
            rw [← same]
            apply begins.subset
            simp
          rcases isSign with isInput | isOutput
          · rw [isInput] at member
            exact noInput member
          · rw [isOutput] at member
            exact noOutput member
      rw [parseUserSwitch, splits, isWords]
      simp only
      rw [if_neg (other _ notSu (by decide) (by decide)),
        if_neg (other _ notSudo (by decide) (by decide))]

theorem bareAssign_eq (text : Str) :
    bareAssign text =
      (assignmentOf (Text.lstrip text)).bind fun (name, value) =>
        (restOfLine value).map (name, ·) := by
  have behind : ∀ text : Str, text.drop (text.takeWhile CmdParser.isNameChar).length =
      text.dropWhile CmdParser.isNameChar := by
    intro text
    have whole := text.takeWhile_append_dropWhile (p := CmdParser.isNameChar)
    exact (congrArg (List.drop _) whole.symm).trans List.drop_left
  have sameChars : CmdParser.isNameChar = Spelling.isNameChar := rfl
  have sameStart : CmdParser.isNameStart = Spelling.isNameStart := rfl
  rw [bareAssign, behind, assignmentOf, sameChars, sameStart]
  generalize (Text.lstrip text).takeWhile Spelling.isNameChar = name
  generalize (Text.lstrip text).dropWhile Spelling.isNameChar = after
  by_cases signed : ∃ ch rest value, name = ch :: rest ∧ after = '=' :: value
  · rcases signed with ⟨ch, rest, value, isName, isAfter⟩
    rw [isName, isAfter]
    change (if Spelling.isNameStart ch then (restOfLine value).map (ch :: rest, ·) else none) =
      Option.bind (if Spelling.isNameStart ch then some (ch :: rest, value) else none) _
    by_cases start : Spelling.isNameStart ch = true
    · rw [if_pos start, if_pos start]
      rfl
    · rw [if_neg start, if_neg start]
      rfl
  · apply Eq.trans (b := none)
    · split
      · next ch rest value => exact (signed ⟨ch, rest, value, rfl, rfl⟩).elim
      · rfl
    · split
      · next ch rest value => exact (signed ⟨ch, rest, value, rfl, rfl⟩).elim
      · rfl

theorem name_char {name : Str} (isName : IsName name) {ch : Char} (member : ch ∈ name)
    {other : Char} (noName : Spelling.isNameChar other = false) : ch ≠ other := by
  intro same
  have isChar := List.all_eq_true.mp isName.2 ch member
  rw [same, noName] at isChar
  cases isChar

theorem assignment_word {word : Word} {tail name value : Str} (ends : Ends tail)
    (isName : IsName name) (begins : word.text ++ tail = name ++ '=' :: value) :
    ∃ pieces, word.pieces = name.map Piece.plain ++ .plain '=' :: pieces ∧
      value = pieces.flatMap Piece.text ++ tail := by
  have differs : ∀ ch ∈ name ++ ['='], ∀ other : Char, Spelling.isNameChar other = false →
      other ≠ '=' → ch ≠ other := by
    intro ch member other noName notSign
    rcases List.mem_append.mp member with inName | isSign
    · exact name_char isName inName noName
    · rw [List.mem_singleton.mp isSign]
      exact Ne.symm notSign
  have front : name ++ ['='] <+: word.pieces.flatMap Piece.text ++ tail := by
    rw [← Word.text, begins]
    exact ⟨value, by simp⟩
  rcases pieces_begin
    (fun ch member => ⟨differs ch member _ rfl (by decide), differs ch member _ rfl (by decide),
      differs ch member _ rfl (by decide)⟩)
    (fun ch head member => by
      rcases ends ch head with (blank | blank) | sign | sign
      · exact differs ch member _ rfl (by decide) blank
      · exact differs ch member _ rfl (by decide) blank
      · exact differs ch member _ rfl (by decide) sign
      · exact differs ch member _ rfl (by decide) sign) front with ⟨pieces, isPieces⟩
  have whole : word.pieces = name.map Piece.plain ++ .plain '=' :: pieces := by
    rw [isPieces, List.map_append, List.append_assoc]
    rfl
  apply Exists.intro pieces
  apply And.intro whole
  have text : word.text = name ++ '=' :: pieces.flatMap Piece.text := by
    rw [Word.text, whole, List.flatMap_append, List.flatMap_map]
    exact congrArg (· ++ _) (List.flatMap_singleton' name)
  rw [text, List.append_assoc] at begins
  exact (List.cons.inj (List.append_cancel_left begins)).2.symm

theorem bareAssign_none {word : Word} {tail : Str} (ends : Ends tail) (legible : LegibleWord word)
    (other : word.assignment? = none) : bareAssign (word.text ++ tail) = none := by
  rw [bareAssign_eq, legible.lstrip]
  cases found : assignmentOf (word.text ++ tail) with
  | none => rfl
  | some assign =>
      rcases assignmentOf_eq_some.mp found with ⟨isName, begins⟩
      rcases assignment_word ends isName begins with ⟨pieces, isPieces, -⟩
      rw [Word.assignment_eq_some.mpr ⟨isName, pieces, isPieces, rfl⟩] at other
      cases other

/-! ## The text of a command -/

/-- Neither a trailing ampersand nor the text of a separator, quoted or not, stands in the
command, and no white space that belongs to a word ends it. -/
structure Plainly (command : SimpleCommand) : Prop where
  foreground : parseBackground command.text = none
  whole : ∀ separator ∈ SEPARATORS, ¬ separator <:+: command.text
  closed : ∀ ch ∈ (partsText command.parts).getLast?, Text.isSpace ch = false

theorem splitFirstCommand_whole {line : Str}
    (whole : ∀ separator ∈ SEPARATORS, ¬ separator <:+: line) : splitFirstCommand line = line := by
  have none : SEPARATORS.findSome? (Text.before? · line) = none := by
    apply List.findSome?_eq_none_iff.mpr
    intro separator member
    exact Text.before?_eq_none_iff.mpr (whole separator member)
  rw [splitFirstCommand, Text.beforeFirstOf, none]
  rfl

section

variable {command : SimpleCommand} {first : Str × Part} {rest : List (Str × Part)}

theorem text_parts (parts : command.parts = first :: rest) :
    command.text = first.1 ++ (first.2.text ++ partsText rest ++ command.trail) := by
  rw [SimpleCommand.text, parts, partsText, List.flatMap_cons, List.append_assoc, List.append_assoc,
    List.append_assoc]
  rfl

theorem Plainly.headed (plainly : Plainly command) (parts : command.parts = first :: rest)
    (visible : ∃ ch more, first.2.text = ch :: more ∧ Text.isSpace ch = false) :
    Headed command.text (first.2.text ++ partsText rest) := by
  rcases visible with ⟨ch, more, isText, visible⟩
  have started : first.2.text ++ partsText rest ≠ [] := by
    rw [isText]
    exact List.cons_ne_nil _ _
  apply Headed.mk plainly.foreground _ started
  rw [splitFirstCommand_whole plainly.whole, text_parts parts]
  apply strip_blank
  · apply command.blank
    rw [parts]
    exact List.mem_cons_self ..
  · exact command.trailBlank
  · exact started
  · intro other head
    rw [isText] at head
    rw [← Option.some.inj head]
    exact visible
  · intro other last
    apply plainly.closed
    have whole : partsText (first :: rest) = first.1 ++ (first.2.text ++ partsText rest) := by
      rw [partsText, List.flatMap_cons, List.append_assoc]
      rfl
    rw [parts, whole, List.getLast?_append_of_ne_nil _ started]
    exact last

end

/-! ## Commands that no pattern matches -/

def Targets (rest : Str) : Prop :=
  ∃ blanks word trail, rest = blanks ++ (word ++ trail) ∧
    (∀ ch ∈ blanks, Text.isSpace ch = true) ∧ (∀ ch ∈ trail, Text.isSpace ch = true) ∧
      word ≠ [] ∧ ∀ ch ∈ word, Text.isSpace ch = false

def LooksRedirected (text : Str) : Prop := ∃ before rest, text = before ++ '>' :: rest ∧ Targets rest

theorem lastWord_eq_some {text word : Str} :
    lastWord text = some word ↔ ∃ blanks trail, text = blanks ++ (word ++ trail) ∧
      (∀ ch ∈ blanks, Text.isSpace ch = true) ∧ (∀ ch ∈ trail, Text.isSpace ch = true) ∧
        word ≠ [] ∧ ∀ ch ∈ word, Text.isSpace ch = false := by
  constructor
  · intro found
    simp only [lastWord] at found
    split at found
    · rename_i both
      rw [← Option.some.inj found]
      apply Exists.intro (text.takeWhile Text.isSpace)
      apply Exists.intro ((Text.lstrip text).drop (Text.firstWord (Text.lstrip text)).length)
      have whole : Text.firstWord (Text.lstrip text) ++
          (Text.lstrip text).drop (Text.firstWord (Text.lstrip text)).length = Text.lstrip text :=
        List.prefix_iff_eq_append.mp (List.takeWhile_prefix _)
      rw [whole]
      apply And.intro (List.takeWhile_append_dropWhile ..).symm
      apply And.intro (fun ch member => List.mem_takeWhile_imp member)
      apply And.intro (fun ch member => List.all_eq_true.mp both.2 ch member)
      apply And.intro both.1
      intro ch member
      simpa using List.mem_takeWhile_imp member
    · cases found
  · intro found
    rcases found with ⟨blanks, trail, isText, blank, blankTrail, started, visible⟩
    have stripped : Text.lstrip text = word ++ trail := by
      rw [isText, Text.lstrip, List.dropWhile_append_of_pos blank]
      rcases List.exists_cons_of_ne_nil started with ⟨ch, more, isWord⟩
      rw [isWord, List.cons_append, List.dropWhile_cons_of_neg]
      simp [visible ch (by rw [isWord]; exact List.mem_cons_self ..)]
    have first : Text.firstWord (word ++ trail) = word := by
      rw [Text.firstWord, List.takeWhile_append_of_pos (fun ch member => by simp [visible ch member])]
      cases trail with
      | nil => exact List.append_nil _
      | cons ch trail =>
          rw [List.takeWhile_cons_of_neg (by simp [blankTrail ch (List.mem_cons_self ..)]),
            List.append_nil]
    simp only [lastWord, stripped, first, List.drop_left]
    rw [if_pos ⟨started, List.all_eq_true.mpr blankTrail⟩]

theorem targets_iff {rest : Str} : Targets rest ↔ ∃ word, lastWord rest = some word := by
  constructor
  · intro targets
    rcases targets with ⟨blanks, word, trail, found⟩
    exact ⟨word, lastWord_eq_some.mpr ⟨blanks, trail, found⟩⟩
  · intro found
    rcases found with ⟨word, found⟩
    rcases lastWord_eq_some.mp found with ⟨blanks, trail, found⟩
    exact ⟨blanks, word, trail, found⟩

def RedirectsAt (rest : Str) : Prop := Targets rest ∨ ∃ more, rest = '>' :: more ∧ Targets more

theorem redirectAt_some {text : Str} {found : Bool × Str} (redirect : redirectAt text = some found) :
    ∃ blanks rest, text = blanks ++ '>' :: rest ∧ (∀ ch ∈ blanks, Text.isSpace ch = true) ∧
      RedirectsAt rest := by
  have whole : text = text.takeWhile Text.isSpace ++ Text.lstrip text :=
    (List.takeWhile_append_dropWhile ..).symm
  have blank : ∀ ch ∈ text.takeWhile Text.isSpace, Text.isSpace ch = true :=
    fun ch member => List.mem_takeWhile_imp member
  unfold redirectAt at redirect
  split at redirect
  · rename_i rest stripped
    apply Exists.intro (text.takeWhile Text.isSpace)
    apply Exists.intro rest
    rw [← stripped]
    apply And.intro whole
    apply And.intro blank
    have single : (lastWord rest).map (false, ·) = some found → RedirectsAt rest := by
      intro matched
      rcases Option.map_eq_some_iff.mp matched with ⟨word, isLast, -⟩
      exact .inl (targets_iff.mpr ⟨word, isLast⟩)
    simp only at redirect
    split at redirect
    · rename_i more
      rcases Option.or_eq_some_iff.mp redirect with doubled | ⟨-, once⟩
      · rcases Option.map_eq_some_iff.mp doubled with ⟨word, isLast, -⟩
        exact .inr ⟨more, rfl, targets_iff.mpr ⟨word, isLast⟩⟩
      · exact single once
    · exact single redirect
  · cases redirect

theorem RedirectsAt.looks {rest : Str} (redirects : RedirectsAt rest) (before : Str) :
    LooksRedirected (before ++ '>' :: rest) := by
  rcases redirects with targets | ⟨more, isRest, targets⟩
  · exact ⟨before, rest, rfl, targets⟩
  · rw [isRest]
    exact ⟨before ++ ['>'], more, by simp, targets⟩

theorem contentThenRedirect_cons (content : Str) (ch : Char) (rest : Str) :
    contentThenRedirect content (ch :: rest) = match redirectAt (ch :: rest) with
      | some redirect => some (content, redirect)
      | none => if ch = '\n' then none else contentThenRedirect (content ++ [ch]) rest := by
  delta contentThenRedirect
  apply (congrFun (@List.brecOn.eq Char (fun _ => Str → Option (Str × Bool × Str)) (ch :: rest)
    contentThenRedirect._f) content).trans
  delta contentThenRedirect._f
  generalize redirectAt (ch :: rest) = redirect
  cases redirect with
  | none => rfl
  | some redirect => rfl

theorem contentThenRedirect_looks {content text : Str} {found : Str × Bool × Str}
    (matched : contentThenRedirect content text = some found) : LooksRedirected text := by
  induction text generalizing content with
  | nil => cases matched
  | cons ch rest induction =>
      rw [contentThenRedirect_cons] at matched
      split at matched
      · rename_i redirect isRedirect
        rcases redirectAt_some isRedirect with ⟨blanks, later, isText, -, redirects⟩
        rw [isText]
        exact redirects.looks blanks
      · split at matched
        · cases matched
        · rcases induction matched with ⟨before, later, isRest, targets⟩
          rw [isRest]
          exact ⟨ch :: before, later, rfl, targets⟩

theorem LooksRedirected.of_lstrip {text : Str} (looks : LooksRedirected (Text.lstrip text)) :
    LooksRedirected text := by
  rcases looks with ⟨before, rest, isText, targets⟩
  apply Exists.intro (text.takeWhile Text.isSpace ++ before)
  apply Exists.intro rest
  apply And.intro _ targets
  rw [List.append_assoc, ← isText]
  exact (List.takeWhile_append_dropWhile ..).symm

/-- Commands that the parser makes mutations of, `echo` apart. -/
def KNOWN : List Str :=
  ["touch", "rm", "cp", "mv", "export", "su", "sudo"].map String.toList

/-- The command begins with a redirection, or with a word that is neither an assignment nor
known, and behind `echo` nothing looks like a redirection. -/
def Unknown (command : SimpleCommand) : Prop :=
  match command.parts with
  | (_, .word word) :: rest =>
      LegibleWord word ∧ word.value ∉ KNOWN ∧ word.assignment? = none ∧
        (SpelledAs word "echo".toList → ¬ LooksRedirected (partsText rest))
  | _ => True

theorem pattern_letters {verb : Str} (member : verb ∈ PATTERN_WORDS) :
    verb.all Char.isAlpha = true := by
  have all : ∀ verb ∈ PATTERN_WORDS, verb.all Char.isAlpha = true := by decide
  exact all verb member

section

variable {word : Word} {tail : Str}

theorem afterVerb_none {verb : Str} (member : verb ∈ PATTERN_WORDS) (ends : Ends tail)
    (legible : LegibleWord word) (other : ¬ SpelledAs word verb) :
    afterVerb verb (word.text ++ tail) = none := by
  rw [Option.eq_none_iff_forall_ne_some]
  intro rest found
  exact other ((afterVerb_word (pattern_letters member) ends legible).mp found).1

theorem echoRedirect_none (ends : Ends tail) (legible : LegibleWord word)
    (plain : SpelledAs word "echo".toList → ¬ LooksRedirected tail) :
    echoRedirect (word.text ++ tail) = none := by
  rw [echoRedirect, Option.bind_eq_none_iff]
  intro rest found
  rcases (afterVerb_word (by decide) ends legible).mp found with ⟨spelled, -, -, stripped⟩
  rw [Option.eq_none_iff_forall_ne_some]
  intro matched isMatched
  rw [← stripped] at isMatched
  exact plain spelled (contentThenRedirect_looks isMatched).of_lstrip

theorem patternMutations_unknown (ends : Ends tail) (legible : LegibleWord word)
    (noName : ∀ verb ∈ PATTERN_WORDS, verb ≠ "echo".toList → ¬ SpelledAs word verb)
    (noEcho : SpelledAs word "echo".toList → ¬ LooksRedirected tail) :
    patternMutations (word.text ++ tail) =
      if (Text.words (word.text ++ tail)).length = 1 then
        (bareAssign (word.text ++ tail)).toList.map assignment
      else [] := by
  apply patternMutations_assign (echoRedirect_none ends legible noEcho)
  intro verb member differs
  exact afterVerb_none member ends legible (noName verb member differs)

end

structure Sign (ch : Char) : Prop where
  visible : Text.isSpace ch = false
  notLetter : ch.isAlpha = false
  noName : Spelling.isNameStart ch = false
  notBlank : ¬ Shlex.isBlank ch = true
  notEscape : ch ≠ '\\'
  notQuote : ¬ Shlex.isQuote ch = true
  notSwitch : ch ≠ 's'

theorem sign_ordinary {ch : Char} (begins : ch ∈ DIGITS ∨ ch = '<' ∨ ch = '>') : Sign ch := by
  have member : ch ∈ DIGITS ++ ['<', '>'] := by
    rcases begins with digit | sign | sign
    · exact List.mem_append_left _ digit
    · rw [sign]
      decide
    · rw [sign]
      decide
  have all : (DIGITS ++ ['<', '>']).all (fun ch =>
      !Text.isSpace ch && !ch.isAlpha && !Spelling.isNameStart ch && !Shlex.isBlank ch &&
        ch != '\\' && !Shlex.isQuote ch && ch != 's') = true := by decide
  have each := List.all_eq_true.mp all ch member
  simp only [Bool.and_eq_true, Bool.not_eq_true', bne_iff_ne] at each
  rcases each with ⟨⟨⟨⟨⟨⟨visible, notLetter⟩, noName⟩, notBlank⟩, notEscape⟩, notQuote⟩, notSwitch⟩
  exact ⟨visible, notLetter, noName, by simp [notBlank], notEscape, by simp [notQuote], notSwitch⟩

theorem parse_unknown {command : SimpleCommand} (plainly : Plainly command)
    (unknown : Unknown command) : parseInputMutations command.text = [] := by
  rcases List.exists_cons_of_ne_nil command.started with ⟨⟨blanks, part⟩, rest, parts⟩
  have ends := command.ends_rest parts
  cases part with
  | word word =>
      rw [Unknown, parts] at unknown
      rcases unknown with ⟨legible, other, noAssign, noEcho⟩
      have visible : ∃ ch more, (Part.word word).text = ch :: more ∧ Text.isSpace ch = false := by
        rcases legible.head [] with ⟨ch, more, isText, visible⟩
        rw [List.append_nil] at isText
        exact ⟨ch, more, isText, visible⟩
      have headed := plainly.headed parts visible
      have differs : ∀ name ∈ KNOWN, word.value ≠ name := by
        intro name member same
        rw [same] at other
        exact other member
      have noSwitch : parseUserSwitch ((Part.word word).text ++ partsText rest) = none :=
        parseUserSwitch_word ends legible (differs _ (by decide)) (differs _ (by decide))
      have known : ∀ verb ∈ PATTERN_WORDS, verb ≠ "echo".toList → verb ∈ KNOWN := by decide
      rw [headed.parse_patterns noSwitch]
      apply (patternMutations_unknown ends legible
        (fun verb member notEcho spelled =>
          differs verb (known verb member notEcho) spelled.value) noEcho).trans
      rw [bareAssign_none ends legible noAssign]
      exact ite_self _
  | redirection redirection =>
      rcases redirection.head_text with ⟨ch, more, isText, begins, -⟩
      have sign := sign_ordinary begins
      have headed := plainly.headed parts ⟨ch, more, isText, sign.visible⟩
      have whole : (Part.redirection redirection).text ++ partsText rest =
          ch :: (more ++ partsText rest) := by
        rw [Part.text, isText]
        rfl
      rw [whole] at headed
      have stripped : Text.lstrip (ch :: (more ++ partsText rest)) =
          ch :: (more ++ partsText rest) := by
        rw [Text.lstrip, List.dropWhile_cons_of_neg (by simp [sign.visible])]
      have noVerb : ∀ verb ∈ PATTERN_WORDS, afterVerb verb (ch :: (more ++ partsText rest)) = none := by
        intro verb member
        rw [Option.eq_none_iff_forall_ne_some]
        intro later found
        rcases afterVerb_eq_some.mp found with ⟨space, behind, begins, -⟩
        rw [stripped] at begins
        cases verb with
        | nil => exact absurd member (by decide)
        | cons letter verb =>
            have isLetter := List.all_eq_true.mp (pattern_letters member) letter
              (List.mem_cons_self ..)
            rw [← (List.cons.inj begins).1, sign.notLetter] at isLetter
            cases isLetter
      have noEcho : echoRedirect (ch :: (more ++ partsText rest)) = none := by
        rw [echoRedirect, noVerb "echo".toList (by decide)]
        rfl
      have noAssign : bareAssign (ch :: (more ++ partsText rest)) = none := by
        rw [bareAssign_eq, stripped]
        cases found : assignmentOf (ch :: (more ++ partsText rest)) with
        | none => rfl
        | some assign =>
            rcases assignmentOf_eq_some.mp found with ⟨isName, begins⟩
            rcases isName.started with ⟨letter, later, isCons, starts⟩
            rw [isCons] at begins
            rw [← (List.cons.inj begins).1] at starts
            rw [sign.noName] at starts
            cases starts
      have noSwitch : parseUserSwitch (ch :: (more ++ partsText rest)) = none := by
        cases splits : Shlex.split (ch :: (more ++ partsText rest)) with
        | none => rw [parseUserSwitch, splits]
        | some words =>
            rcases Shlex.split_ordinary sign.notBlank sign.notEscape sign.notQuote splits with
              ⟨first, later, isWords, begins⟩
            have other : ∀ name : Str, name.head? = some 's' → first ≠ name := by
              intro name starts same
              rcases begins with ⟨behind, isFirst⟩
              rw [← same, ← isFirst] at starts
              exact sign.notSwitch (Option.some.inj starts)
            rw [parseUserSwitch, splits, isWords]
            simp only
            rw [if_neg (other _ rfl), if_neg (other _ rfl)]
      rw [headed.parse_patterns noSwitch,
        patternMutations_assign noEcho fun verb member _ => noVerb verb member, noAssign]
      exact ite_self _

end Protocol

end LlmHoneypot
