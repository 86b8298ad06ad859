import LlmHoneypot.Protocol.CommandPatterns

/-! # Mutations of a simple command

What is read off the text of a command without redirections, and of `echo` into a file,
against what the command changes. -/

namespace LlmHoneypot

namespace Protocol

open CmdParser Spelling

/-! ## Commands without redirections -/

structure LegibleLine (line : Line) : Prop where
  plainly : Plainly line.simple
  words : ∀ word ∈ line.words, LegibleWord word

theorem restOfLine_whole {text : Str} (free : '\n' ∉ text) : restOfLine text = some text := by
  have none : text.dropWhile (· ≠ '\n') = [] := by
    apply List.dropWhile_eq_nil_iff.mpr
    intro ch member
    apply decide_eq_true
    intro same
    rw [same] at member
    exact free member
  rw [restOfLine, none]

theorem sign_of_assignment {word : Word} {name value : Str}
    (assign : word.assignment? = some (name, value)) : word.value = name ++ '=' :: value := by
  rcases Word.assignment_eq_some.mp assign with ⟨-, pieces, isPieces, isValue⟩
  rw [Word.value, isPieces, List.flatMap_append, List.flatMap_map, isValue]
  exact congrArg (· ++ _) (List.flatMap_singleton' name)

theorem noAssignment {word : Word} (free : '=' ∉ word.value) : word.assignment? = none := by
  rw [Option.eq_none_iff_forall_ne_some]
  intro assign found
  apply free
  rw [sign_of_assignment found]
  simp

namespace LegibleLine

variable {line : Line}

theorem partsText_args (args : List (Gap × Word)) :
    partsText (args.map fun arg => (arg.1.text, Part.word arg.2)) = argsText args := by
  rw [partsText, List.flatMap_map]
  rfl

theorem ends_argsText (args : List (Gap × Word)) : Ends (argsText args) := by
  intro ch head
  cases args with
  | nil => cases head
  | cons arg args =>
      rcases List.exists_cons_of_ne_nil arg.1.started with ⟨blank, blanks, isGap⟩
      rw [argsText, List.flatMap_cons, isGap] at head
      rw [← Option.some.inj head]
      apply Or.inl
      apply arg.1.blank
      rw [isGap]
      exact List.mem_cons_self ..

theorem ends_args (line : Line) : Ends (argsText line.args) := ends_argsText line.args

theorem command (legible : LegibleLine line) : LegibleWord line.command :=
  legible.words _ (List.mem_cons_self ..)

theorem args (legible : LegibleLine line) : ∀ arg ∈ line.args, LegibleWord arg.2 := by
  intro arg member
  exact legible.words _ (List.mem_cons_of_mem _ (List.mem_map_of_mem member))

theorem headed (legible : LegibleLine line) :
    Headed line.simple.text (line.command.text ++ argsText line.args) := by
  rw [← partsText_args]
  apply @Plainly.headed line.simple (line.lead, .word line.command) _ legible.plainly rfl
  rcases legible.command.head [] with ⟨ch, more, isText, visible⟩
  rw [List.append_nil] at isText
  exact ⟨ch, more, isText, visible⟩

theorem split (legible : LegibleLine line) :
    Shlex.split (line.command.text ++ argsText line.args) =
      some (line.command.value :: line.values) := by
  apply split_words
  · intro piece member
    exact (legible.command piece member).plain
  · intro arg member piece inWord
    exact (legible.args arg member piece inWord).plain

theorem free (legible : LegibleLine line) :
    '\n' ∉ line.command.text ++ argsText line.args := by
  intro member
  apply legible.plainly.whole "\n".toList (by decide)
  rw [Line.text_simple]
  apply ((List.singleton_infix_iff _ _).mpr member).trans
  apply Exists.intro line.lead
  apply Exists.intro line.trail
  rw [Line.text, List.append_assoc]

theorem parse_assign (legible : LegibleLine line) (notSu : line.command.value ≠ "su".toList)
    (notSudo : line.command.value ≠ "sudo".toList)
    (noVerb : ∀ verb ∈ PATTERN_WORDS,
      afterVerb verb (line.command.text ++ argsText line.args) = none) :
    parseInputMutations line.simple.text =
      if (Text.words (line.command.text ++ argsText line.args)).length = 1 then
        (bareAssign (line.command.text ++ argsText line.args)).toList.map assignment
      else [] := by
  have noEcho : echoRedirect (line.command.text ++ argsText line.args) = none := by
    rw [echoRedirect, noVerb "echo".toList (by decide)]
    rfl
  rw [legible.headed.parse_patterns
    (parseUserSwitch_word (ends_args line) legible.command notSu notSudo)]
  exact patternMutations_assign noEcho fun verb member _ => noVerb verb member

theorem noLine (legible : LegibleLine line) {text : Str}
    (isInfix : text <:+: line.command.text ++ argsText line.args) : restOfLine text = some text := by
  apply restOfLine_whole
  intro member
  exact legible.free (isInfix.subset member)

theorem parse_nothing (legible : LegibleLine line) (notSu : line.command.value ≠ "su".toList)
    (notSudo : line.command.value ≠ "sudo".toList) (noAssign : line.command.assignment? = none)
    (noVerb : ∀ verb ∈ PATTERN_WORDS,
      afterVerb verb (line.command.text ++ argsText line.args) = none) :
    parseInputMutations line.simple.text = [] := by
  rw [legible.parse_assign notSu notSudo noVerb,
    bareAssign_none (ends_args line) legible.command noAssign]
  exact ite_self _

/-! ### Operands -/

theorem lstrip_args (legible : LegibleLine line) {gap : Gap} {word : Word}
    {more : List (Gap × Word)} (isArgs : line.args = (gap, word) :: more) :
    Text.lstrip (argsText line.args) = word.text ++ argsText more := by
  have visible : LegibleWord word := legible.args (gap, word) (by rw [isArgs]; exact List.mem_cons_self ..)
  rw [isArgs, argsText, List.flatMap_cons, List.append_assoc, Text.lstrip,
    List.dropWhile_append_of_pos fun ch member => space_of_blank (gap.blank ch member)]
  exact visible.lstrip _

theorem afterVerb_args (legible : LegibleLine line) {gap : Gap} {word : Word}
    {more : List (Gap × Word)} (isArgs : line.args = (gap, word) :: more) {verb : Str}
    (letters : verb.all Char.isAlpha = true) (spelled : SpelledAs line.command verb) :
    afterVerb verb (line.command.text ++ argsText line.args) = some (word.text ++ argsText more) := by
  apply (afterVerb_word letters (ends_args line) legible.command).mpr
  rw [← legible.lstrip_args isArgs]
  rcases List.exists_cons_of_ne_nil gap.started with ⟨ch, blanks, isGap⟩
  have text : argsText line.args = ch :: (blanks ++ (word.text ++ argsText more)) := by
    rw [isArgs, argsText, List.flatMap_cons, List.append_assoc, isGap]
    rfl
  apply And.intro spelled
  constructor
  · rw [text]
    exact List.cons_ne_nil _ _
  · apply And.intro _ rfl
    intro other head
    rw [text] at head
    rw [← Option.some.inj head]
    apply gap.blank
    rw [isGap]
    exact List.mem_cons_self ..

theorem split_args (legible : LegibleLine line) {gap : Gap} {word : Word}
    {more : List (Gap × Word)} (isArgs : line.args = (gap, word) :: more) :
    Shlex.split (word.text ++ argsText more) = some line.values := by
  rw [Line.values, isArgs]
  apply split_words
  · intro piece member
    exact (legible.args (gap, word) (by rw [isArgs]; exact List.mem_cons_self ..) piece member).plain
  · intro arg member piece inWord
    exact (legible.args arg (by rw [isArgs]; exact List.mem_cons_of_mem _ member) piece inWord).plain

theorem infix_args {gap : Gap} {word : Word} {more : List (Gap × Word)}
    (isArgs : line.args = (gap, word) :: more) :
    word.text ++ argsText more <:+: line.command.text ++ argsText line.args := by
  apply Exists.intro (line.command.text ++ gap.text)
  apply Exists.intro []
  rw [isArgs, argsText, argsText, List.flatMap_cons]
  simp

theorem parse_spelled (legible : LegibleLine line) {verb : OperandVerb}
    (spelled : SpelledAs line.command verb.text) :
    parseInputMutations line.simple.text = operandMutations verb line.values := by
  have letters : verb.text.all Char.isAlpha = true := by
    cases verb <;> decide
  cases isArgs : line.args with
  | nil =>
      have noValues : line.values = [] := by
        rw [Line.values, isArgs]
        rfl
      have values : line.command.value = verb.text := spelled.value
      have noSign : '=' ∉ line.command.value := by
        rw [values]
        cases verb <;> decide
      have noVerb : ∀ name ∈ PATTERN_WORDS,
          afterVerb name (line.command.text ++ argsText line.args) = none := by
        intro name member
        rw [Option.eq_none_iff_forall_ne_some]
        intro rest found
        apply ((afterVerb_word (pattern_letters member) (ends_args line) legible.command).mp
          found).2.1
        rw [isArgs]
        rfl
      have notSwitch : verb.text ≠ "su".toList ∧ verb.text ≠ "sudo".toList := by
        cases verb <;> decide
      rw [legible.parse_nothing (values ▸ notSwitch.1) (values ▸ notSwitch.2)
        (noAssignment noSign) noVerb, noValues]
      cases verb <;> rfl
  | cons arg more =>
      apply parseInputMutations_written
      apply Written.mk legible.headed.foreground
      rw [legible.headed.cut]
      apply Exists.intro (arg.2.text ++ argsText more)
      constructor
      · rw [verbArgs, legible.afterVerb_args isArgs letters spelled]
        exact legible.noLine (infix_args isArgs)
      · rw [tokens, legible.split_args isArgs]
        rfl

theorem parse_unspelled (legible : LegibleLine line) {name : Str} (member : name ∈ PATTERN_WORDS)
    (value : line.command.value = name) (unspelled : ¬ SpelledAs line.command name) :
    parseInputMutations line.simple.text = [] := by
  have facts : ∀ name ∈ PATTERN_WORDS, name ≠ "su".toList ∧ name ≠ "sudo".toList ∧ '=' ∉ name := by
    decide
  rcases facts name member with ⟨notSu, notSudo, noSign⟩
  apply legible.parse_nothing (value ▸ notSu) (value ▸ notSudo) (noAssignment (value ▸ noSign))
  intro verb among
  apply afterVerb_none among (ends_args line) legible.command
  intro spelled
  have same : verb = name := spelled.value.symm.trans value
  rw [same] at spelled
  exact unspelled spelled

/-! ### Switches of the user -/

theorem parse_switch (legible : LegibleLine line) {user : Str}
    (begins : BeginsSwitch (line.command.value :: line.values) user) :
    parseInputMutations line.simple.text = [.pushUser user] := by
  rw [legible.headed.parse, (parseUserSwitch_iff _ _).mpr ⟨_, legible.split, begins⟩]

theorem parse_noSwitch (legible : LegibleLine line) (isSwitch : line.command.value = "su".toList ∨
    line.command.value = "sudo".toList)
    (none : ∀ user, ¬ BeginsSwitch (line.command.value :: line.values) user) :
    parseInputMutations line.simple.text = [] := by
  have noSwitch : parseUserSwitch (line.command.text ++ argsText line.args) = Option.none := by
    rw [Option.eq_none_iff_forall_ne_some]
    intro mutation found
    rcases parseUserSwitch_pushes found with ⟨user, isPush⟩
    rw [isPush] at found
    rcases (parseUserSwitch_iff _ _).mp found with ⟨words, splits, begins⟩
    rw [legible.split] at splits
    rw [← Option.some.inj splits] at begins
    exact none user begins
  have facts : '=' ∉ line.command.value ∧ ∀ verb ∈ PATTERN_WORDS, line.command.value ≠ verb := by
    rcases isSwitch with same | same
    · rw [same]
      decide
    · rw [same]
      decide
  have noVerb : ∀ verb ∈ PATTERN_WORDS, ¬ SpelledAs line.command verb := by
    intro verb member spelled
    exact facts.2 verb member spelled.value
  rw [legible.headed.parse_patterns noSwitch]
  apply (patternMutations_unknown (ends_args line) legible.command
    (fun verb member _ => noVerb verb member)
    fun spelled => absurd spelled (noVerb _ (by decide))).trans
  rw [bareAssign_none (ends_args line) legible.command (noAssignment facts.1)]
  exact ite_self _

end LegibleLine

/-! ### Assignments -/

theorem stripQuotes_split {text : Str} {parts : List Str} (splits : Shlex.split text = some parts) :
    stripQuotes text = Text.join " ".toList parts := by
  rw [stripQuotes, splits]
  split
  · rename_i part isSome
    rw [Option.some.inj isSome]
    simp [Text.join, List.intercalate]
  · rename_i other _ isSome
    rw [Option.some.inj isSome]
  · rename_i isNone
    cases isNone

def valueWords (pieces : List Piece) (more : List (Gap × Word)) : List Str :=
  (if pieces = [] then [] else [pieces.flatMap Piece.value]) ++ more.map fun arg => arg.2.value

theorem split_value {pieces : List Piece} (valid : ∀ piece ∈ pieces, piece.Valid)
    (legible : ∀ piece ∈ pieces, LegiblePiece piece) {more : List (Gap × Word)}
    (legibleMore : ∀ arg ∈ more, LegibleWord arg.2) :
    Shlex.split (pieces.flatMap Piece.text ++ argsText more) = some (valueWords pieces more) := by
  have plainMore : ∀ arg ∈ more, ∀ piece ∈ arg.2.pieces, piece.Plain := by
    intro arg member piece inWord
    exact (legibleMore arg member piece inWord).plain
  by_cases started : pieces = []
  · rw [valueWords, if_pos started, started]
    cases more with
    | nil => rfl
    | cons arg more =>
        have skip : Shlex.split (argsText (arg :: more)) =
            Shlex.split (arg.2.text ++ argsText more) := by
          rw [argsText, List.flatMap_cons, List.append_assoc, Shlex.split, scan_blank arg.1.blank]
          rfl
        apply skip.trans
        apply split_words
        · exact plainMore arg (List.mem_cons_self ..)
        · intro other member
          exact plainMore other (List.mem_cons_of_mem _ member)
  · rw [valueWords, if_neg started]
    exact split_started started valid (fun piece member => (legible piece member).plain) plainMore

theorem assignment_parsed {word : Word} {more : List (Gap × Word)} {name value : Str}
    (legible : LegibleWord word) (legibleMore : ∀ arg ∈ more, LegibleWord arg.2)
    (free : '\n' ∉ word.text ++ argsText more)
    (assign : word.assignment? = some (name, value)) :
    ∃ pieces, word.pieces = name.map Piece.plain ++ .plain '=' :: pieces ∧
      value = pieces.flatMap Piece.value ∧
      ((bareAssign (word.text ++ argsText more)).toList.map assignment) =
        [.setEnv name (Text.join " ".toList (valueWords pieces more))] := by
  rcases Word.assignment_eq_some.mp assign with ⟨isName, pieces, isPieces, isValue⟩
  have among : ∀ piece ∈ pieces, piece ∈ word.pieces := by
    intro piece member
    rw [isPieces]
    exact List.mem_append_right _ (List.mem_cons_of_mem _ member)
  have text : word.text ++ argsText more =
      name ++ '=' :: (pieces.flatMap Piece.text ++ argsText more) := by
    rw [Word.text, isPieces, List.flatMap_append, List.flatMap_map, List.append_assoc]
    exact congrArg (· ++ _) (List.flatMap_singleton' name)
  have noLine : '\n' ∉ pieces.flatMap Piece.text ++ argsText more := by
    intro member
    apply free
    rw [text]
    exact List.mem_append_right _ (List.mem_cons_of_mem _ member)
  apply Exists.intro pieces
  apply And.intro isPieces
  apply And.intro isValue
  rw [bareAssign_eq, legible.lstrip, assignmentOf_eq_some.mpr ⟨isName, text⟩, Option.bind_some]
  have splits := split_value (fun piece member => word.valid piece (among piece member))
    (fun piece member => legible piece (among piece member)) legibleMore
  simp only [restOfLine_whole noLine, Option.map_some, Option.toList_some, List.map_cons,
    List.map_nil, assignment, stripQuotes_split splits]

theorem words_visible {text : Str} (visible : ∀ ch ∈ text, Text.isSpace ch = false)
    (current : Str) :
    Text.wordsFrom current text = if current ++ text = [] then [] else [current ++ text] := by
  induction text generalizing current with
  | nil => simp [Text.wordsFrom]
  | cons ch rest induction =>
      have space := visible ch (List.mem_cons_self ..)
      rw [Text.wordsFrom, if_neg (by simp [space]),
        induction fun other member => visible other (List.mem_cons_of_mem _ member)]
      simp

theorem words_split {front rest : Str} {space : Char}
    (visible : ∀ ch ∈ front, Text.isSpace ch = false) (blank : Text.isSpace space = true)
    {current : Str} (started : current ++ front ≠ []) :
    Text.wordsFrom current (front ++ space :: rest) =
      (current ++ front) :: Text.wordsFrom [] rest := by
  induction front generalizing current with
  | nil =>
      rw [List.append_nil] at started ⊢
      rw [List.nil_append, Text.wordsFrom, if_pos blank, if_neg started]
  | cons ch front induction =>
      have space := visible ch (List.mem_cons_self ..)
      rw [List.cons_append, Text.wordsFrom, if_neg (by simp [space]),
        induction (fun other member => visible other (List.mem_cons_of_mem _ member)) (by simp)]
      simp

theorem words_one {text : Str} (begins : ∃ ch rest, text = ch :: rest ∧ Text.isSpace ch = false)
    (closed : ∀ ch ∈ text.getLast?, Text.isSpace ch = false) :
    (Text.words text).length = 1 ↔ ∀ ch ∈ text, Text.isSpace ch = false := by
  rcases begins with ⟨first, more, isText, notSpace⟩
  constructor
  · intro one
    by_contra some
    push Not at some
    have whole := (text.takeWhile_append_dropWhile (p := (!Text.isSpace ·))).symm
    have visible : ∀ ch ∈ text.takeWhile (!Text.isSpace ·), Text.isSpace ch = false := by
      intro ch member
      simpa using List.mem_takeWhile_imp member
    have started : ([] : Str) ++ text.takeWhile (!Text.isSpace ·) ≠ [] := by
      rw [isText, List.takeWhile_cons_of_pos (by simp [notSpace])]
      exact List.cons_ne_nil _ _
    cases behind : text.dropWhile (!Text.isSpace ·) with
    | nil =>
        rcases some with ⟨ch, member, space⟩
        rw [behind, List.append_nil] at whole
        rw [whole] at member
        exact space (visible ch member)
    | cons space rest =>
        have blank : Text.isSpace space = true := by
          have head := List.head_dropWhile_not (!Text.isSpace ·) (l := text) (by rw [behind]; simp)
          simp only [behind, List.head_cons] at head
          simpa using head
        rw [behind] at whole
        have later : Text.words rest ≠ [] := by
          intro none
          have head := Text.words_head rest
          rw [none] at head
          have stripped : Text.lstrip rest = [] := by
            by_contra visible
            rw [if_neg visible] at head
            cases head
          have last : ∀ ch ∈ (space :: rest).getLast?, Text.isSpace ch = true := by
            intro ch member
            rcases List.mem_cons.mp (List.mem_of_getLast? member) with same | inRest
            · rw [same]
              exact blank
            · exact List.dropWhile_eq_nil_iff.mp stripped ch inRest
          rw [whole, List.getLast?_append_of_ne_nil _ (List.cons_ne_nil _ _)] at closed
          have isLast := List.getLast?_eq_some_getLast (List.cons_ne_nil space rest)
          have both := closed _ isLast
          rw [last _ isLast] at both
          cases both
        rw [Text.words, whole, words_split visible blank started, List.length_cons,
          Nat.add_eq_right, List.length_eq_zero_iff] at one
        exact later one
  · intro visible
    rw [Text.words, words_visible visible, List.nil_append, isText,
      if_neg (List.cons_ne_nil _ _)]
    rfl

namespace LegibleLine

variable {line : Line}

theorem closed (legible : LegibleLine line) :
    ∀ ch ∈ (line.command.text ++ argsText line.args).getLast?, Text.isSpace ch = false := by
  intro ch last
  apply legible.plainly.closed
  have started : line.command.text ++ argsText line.args ≠ [] := by
    rcases legible.command.head (argsText line.args) with ⟨first, more, isText, -⟩
    rw [isText]
    exact List.cons_ne_nil _ _
  rw [show line.simple.parts = line.parts from rfl, line.partsText_parts,
    List.getLast?_append_of_ne_nil _ started]
  exact last

theorem parse_assigned (legible : LegibleLine line) {name value : Str}
    (assign : line.command.assignment? = some (name, value))
    [Decidable (line.args = [] ∧ ∀ ch ∈ line.command.text, Text.isSpace ch = false)] :
    parseInputMutations line.simple.text =
      if line.args = [] ∧ ∀ ch ∈ line.command.text, Text.isSpace ch = false then
        [.setEnv name value]
      else [] := by
  have sign : '=' ∈ line.command.value := by
    rw [sign_of_assignment assign]
    simp
  have differs : ∀ name : Str, '=' ∉ name → line.command.value ≠ name := by
    intro name free same
    rw [same] at sign
    exact free sign
  have noSigns : ∀ verb ∈ PATTERN_WORDS, '=' ∉ verb := by decide
  have noVerb : ∀ verb ∈ PATTERN_WORDS,
      afterVerb verb (line.command.text ++ argsText line.args) = none := by
    intro verb member
    apply afterVerb_none member (ends_args line) legible.command
    intro spelled
    exact differs verb (noSigns verb member) spelled.value
  rw [legible.parse_assign (differs _ (by decide)) (differs _ (by decide)) noVerb]
  rcases assignment_parsed legible.command legible.args legible.free assign with
    ⟨pieces, isPieces, isValue, parsed⟩
  rw [parsed]
  have one := words_one (legible.command.head (argsText line.args)) legible.closed
  by_cases alone : line.args = [] ∧ ∀ ch ∈ line.command.text, Text.isSpace ch = false
  · rw [if_pos alone, if_pos]
    · rw [alone.1, isValue, valueWords]
      by_cases none : pieces = []
      · rw [if_pos none, none]
        rfl
      · rw [if_neg none]
        simp [Text.join, List.intercalate]
    · apply one.mpr
      rw [alone.1]
      intro ch member
      rw [argsText, List.flatMap_nil, List.append_nil] at member
      exact alone.2 ch member
  · rw [if_neg alone, if_neg]
    intro isOne
    have visible := one.mp isOne
    apply alone
    constructor
    · cases isArgs : line.args with
      | nil => rfl
      | cons arg more =>
          rcases List.exists_cons_of_ne_nil arg.1.started with ⟨blank, blanks, isGap⟩
          have space := space_of_blank (arg.1.blank blank (by rw [isGap]; exact List.mem_cons_self ..))
          have member : blank ∈ line.command.text ++ argsText line.args := by
            rw [isArgs, argsText, List.flatMap_cons, isGap]
            simp
          rw [visible blank member] at space
          cases space
    · intro ch member
      exact visible ch (List.mem_append_left _ member)

/-! ### Exported variables -/

theorem parse_export (legible : LegibleLine line) (spelled : SpelledAs line.command "export".toList)
    {gap : Gap} {word : Word} {more : List (Gap × Word)} (isArgs : line.args = (gap, word) :: more) :
    parseInputMutations line.simple.text =
      if '=' ∈ (Text.firstWord (word.text ++ argsText more)).drop 1 then
        (bareAssign (word.text ++ argsText more)).toList.map assignment
      else [] := by
  have value := spelled.value
  have facts : "export".toList ≠ "su".toList ∧ "export".toList ≠ "sudo".toList ∧
      '=' ∉ "export".toList := by decide
  have noVerb : ∀ verb ∈ PATTERN_WORDS, verb ≠ "export".toList →
      afterVerb verb (line.command.text ++ argsText line.args) = none := by
    intro verb member differs
    apply afterVerb_none member (ends_args line) legible.command
    intro other
    exact differs (other.value.symm.trans value)
  have noEcho : echoRedirect (line.command.text ++ argsText line.args) = none := by
    rw [echoRedirect, noVerb "echo".toList (by decide) (by decide)]
    rfl
  have noArgs : ∀ verb ∈ PATTERN_WORDS, verb ≠ "export".toList →
      verbArgs verb (line.command.text ++ argsText line.args) = none := by
    intro verb member differs
    rw [verbArgs, noVerb verb member differs]
    rfl
  have exported : exportAssign (line.command.text ++ argsText line.args) =
      if '=' ∈ (Text.firstWord (word.text ++ argsText more)).drop 1 then
        some (word.text ++ argsText more)
      else none := by
    rw [exportAssign, legible.afterVerb_args isArgs (by decide) spelled, Option.bind_some,
      legible.noLine (infix_args isArgs)]
  have notAssigned : line.command.assignment? = none := noAssignment (value ▸ facts.2.2)
  have noAssign := bareAssign_none (ends_args line) legible.command notAssigned
  rw [legible.headed.parse_patterns (parseUserSwitch_word (ends_args line) legible.command
    (value ▸ facts.1) (value ▸ facts.2.1))]
  simp only [patternMutations, noEcho, noArgs "touch".toList (by decide) (by decide),
    noArgs "rm".toList (by decide) (by decide), noArgs "cp".toList (by decide) (by decide),
    noArgs "mv".toList (by decide) (by decide), exported, noAssign]
  by_cases sign : '=' ∈ (Text.firstWord (word.text ++ argsText more)).drop 1
  · simp only [if_pos sign]
  · simp only [if_neg sign, Option.toList_none, List.map_nil]
    exact ite_self _

theorem parse_exported (legible : LegibleLine line) (spelled : SpelledAs line.command "export".toList)
    {gap : Gap} {word : Word} {more : List (Gap × Word)} (isArgs : line.args = (gap, word) :: more)
    {name value : Str} (assign : word.assignment? = some (name, value)) :
    ∃ pieces, word.pieces = name.map Piece.plain ++ .plain '=' :: pieces ∧
      value = pieces.flatMap Piece.value ∧
      parseInputMutations line.simple.text =
        [.setEnv name (Text.join " ".toList (valueWords pieces more))] := by
  have legibleWord : LegibleWord word :=
    legible.args (gap, word) (by rw [isArgs]; exact List.mem_cons_self ..)
  have legibleMore : ∀ arg ∈ more, LegibleWord arg.2 := by
    intro arg member
    exact legible.args arg (by rw [isArgs]; exact List.mem_cons_of_mem _ member)
  have free : '\n' ∉ word.text ++ argsText more :=
    fun member => legible.free ((infix_args isArgs).subset member)
  rcases assignment_parsed legibleWord legibleMore free assign with
    ⟨pieces, isPieces, isValue, parsed⟩
  apply Exists.intro pieces
  apply And.intro isPieces
  apply And.intro isValue
  rw [legible.parse_export spelled isArgs, parsed, if_pos]
  rcases Word.assignment_eq_some.mp assign with ⟨isName, -⟩
  rcases isName.started with ⟨ch, rest, isCons, -⟩
  have text : word.text ++ argsText more =
      name ++ '=' :: (pieces.flatMap Piece.text ++ argsText more) := by
    rw [Word.text, isPieces, List.flatMap_append, List.flatMap_map, List.append_assoc]
    exact congrArg (· ++ _) (List.flatMap_singleton' name)
  have visible : ∀ ch ∈ name, (!Text.isSpace ch) = true := by
    intro ch member
    rw [name_visible (List.all_eq_true.mp isName.2 ch member)]
    rfl
  rw [text, Text.firstWord, List.takeWhile_append_of_pos visible,
    List.takeWhile_cons_of_pos (by decide), isCons, List.cons_append, List.drop_succ_cons,
    List.drop_zero]
  exact List.mem_append_right _ (List.mem_cons_self ..)

theorem parse_export_other (legible : LegibleLine line)
    (spelled : SpelledAs line.command "export".toList)
    (other : ∀ arg ∈ line.args.head?, arg.2.assignment? = none) :
    parseInputMutations line.simple.text = [] := by
  cases isArgs : line.args with
  | nil =>
      have value := spelled.value
      have facts : "export".toList ≠ "su".toList ∧ "export".toList ≠ "sudo".toList ∧
          '=' ∉ "export".toList := by decide
      apply legible.parse_nothing (value ▸ facts.1) (value ▸ facts.2.1)
        (noAssignment (value ▸ facts.2.2))
      intro verb member
      rw [Option.eq_none_iff_forall_ne_some]
      intro rest found
      apply ((afterVerb_word (pattern_letters member) (ends_args line) legible.command).mp
        found).2.1
      rw [isArgs]
      rfl
  | cons arg more =>
      have legibleWord : LegibleWord arg.2 :=
        legible.args arg (by rw [isArgs]; exact List.mem_cons_self ..)
      have noAssign := bareAssign_none (ends_argsText more) legibleWord (other arg (by rw [isArgs]; rfl))
      rw [legible.parse_export spelled isArgs, noAssign]
      exact ite_self _

end LegibleLine

/-! ### The condition -/

/-- The words behind `sudo` are of a `SudoCall`, or neither `su` nor an option for a shell is
among them. -/
def SudoSpelled (args : List Str) : Prop :=
  (∃ call : SudoCall, args = call.words) ∨
    ∀ word ∈ args, word ∉ SHELL_OPTIONS ∧ word ≠ "su".toList

/-- Where no shell is started the command changes nothing. -/
def SudoTold (programs : Programs) (args : List Str) : Prop :=
  (∃ call : SudoCall, args = call.words ∧ call.Fits ∧
    (sudoUser args = none → otherUserEffects programs none (sudoCommand args) = [])) ∨
  (∀ word ∈ args, word ∉ SHELL_OPTIONS ∧ word ≠ "su".toList) ∧
    otherUserEffects programs (sudoUser args) (sudoCommand args) = []

/-- `export` is spelled as it is, and has one assignment with nothing said behind it. -/
def ExportsOne (line : Line) : Prop :=
  SpelledAs line.command "export".toList ∧ ∃ gap word more name value,
    line.args = (gap, word) :: more ∧ word.assignment? = some (name, value) ∧
      (more = [] ∨ word.pieces = name.map Piece.plain ++ [.plain '='] ∧
        more.map (·.2.value) = [[]])

/-- The parser finds of the command what it changes. -/
structure Fits (programs : Programs) (line : Line) : Prop where
  bySu : line.command.value = "su".toList → SuFits "root".toList line.values
  bySudo : line.command.value = "sudo".toList → SudoTold programs line.values
  /-- The verb is spelled as it is, and its operands are taken, unless they are too few. -/
  operands : ∀ verb : OperandVerb, line.command.value = verb.text →
    Harmless verb line.values ∨
      SpelledAs line.command verb.text ∧ TakesOperands verb line.values
  /-- One variable is exported, nothing is said behind it, and its name is not quoted; or none
  is given a value. -/
  exported : line.command.value = "export".toList →
    (Protocol.operands line.values).filterMap assignmentOf = [] ∨ ExportsOne line
  /-- An assignment stands alone and without white space, or before a command that changes
  nothing. -/
  assigned : assigns line.command = true →
    line.args = [] ∧ (∀ ch ∈ line.command.text, Text.isSpace ch = false) ∨
      ∃ name args, line.words.dropWhile assigns = name :: args ∧
        nameEffects programs false name.value (args.map Word.value) = []

section

variable {programs : Programs} {emitted : Emitted} {line : Line}

theorem map_mutation_inj {told changed : List CmdMutation} :
    told.map Effect.mutation = changed.map Effect.mutation ↔ told = changed :=
  List.map_inj_right fun _ _ => Effect.mutation.inj

theorem effects_simple (programs : Programs) (emitted : Emitted) (line : Line) :
    effects programs emitted line.simple = match line.words.dropWhile assigns with
      | [] => (setEffects (line.words.filterMap Word.assignment?)).map .mutation
      | name :: args => nameEffects programs false name.value (args.map Word.value) := by
  rw [effects, commandWords, line.redirections_simple, line.words_simple]
  rfl

theorem effects_named (programs : Programs) (emitted : Emitted)
    (named : assigns line.command = false) :
    effects programs emitted line.simple =
      nameEffects programs false line.command.value line.values := by
  rw [effects_simple, Line.words, List.dropWhile_cons_of_neg (by simp [named])]
  simp only [List.map_map]
  rfl

theorem nameEffects_verb (redirected : Bool) (verb : OperandVerb) (args : List Str) :
    nameEffects programs redirected verb.text args = (operandEffects verb args).map .mutation := by
  have found : VERBS.find? (·.text = verb.text) = some verb := by
    cases verb <;> decide
  have other : verb.text ≠ "export".toList ∧ verb.text ≠ "unset".toList ∧
      verb.text ≠ "su".toList ∧ verb.text ≠ "sudo".toList := by
    cases verb <;> decide
  rw [nameEffects, if_neg other.1, if_neg other.2.1, if_neg other.2.2.1, if_neg other.2.2.2,
    utilityEffects, found]

theorem nameEffects_export (redirected : Bool) (args : List Str) :
    nameEffects programs redirected "export".toList args =
      (setEffects ((operands args).filterMap assignmentOf)).map .mutation := by
  rw [nameEffects, if_pos rfl]

theorem nameEffects_su (args : List Str) :
    nameEffects programs false "su".toList args =
      otherUserEffects programs (suUser args) ("su".toList :: args) := rfl

theorem nameEffects_sudo (args : List Str) :
    nameEffects programs false "sudo".toList args =
      otherUserEffects programs (sudoUser args) (sudoCommand args) := rfl

theorem otherUser_push {entering : Option Str} {command : List Str} {user : Str} :
    [Effect.mutation (.pushUser user)] = otherUserEffects programs entering command ↔
      entering = some user ∧ user ≠ [] := by
  cases entering with
  | none =>
      apply iff_of_false
      · intro same
        cases command with
        | nil => cases same
        | cons name args =>
            have kept : Effect.mutation (.pushUser user) ∈
                (utilityEffects programs name args).filter Effect.isFile := by
              rw [show (utilityEffects programs name args).filter Effect.isFile =
                [Effect.mutation (.pushUser user)] from same.symm]
              exact List.mem_singleton_self _
            exact Bool.noConfusion (List.mem_filter.mp kept).2
      · simp
  | some other =>
      by_cases empty : other = []
      · simp only [otherUserEffects, switchEffects, entered, empty, if_true, List.map_nil,
          reduceCtorEq, Option.some.injEq, false_iff]
        intro both
        exact both.2 both.1.symm
      · simp only [otherUserEffects, switchEffects, entered, empty, if_false, List.map_cons,
          List.map_nil, List.cons.injEq, and_true, Effect.mutation.injEq,
          CmdMutation.pushUser.injEq, Option.some.injEq]
        constructor
        · intro same
          exact ⟨same.symm, same ▸ empty⟩
        · intro both
          exact both.1.symm

theorem named_of_value (free : '=' ∉ line.command.value) : assigns line.command = false := by
  rw [assigns, noAssignment free]
  rfl

/-! ### The kinds of commands -/

theorem su_told_iff (legible : LegibleLine line) (value : line.command.value = "su".toList) :
    Told programs emitted line.simple ↔ SuFits "root".toList line.values := by
  have free : '=' ∉ line.command.value := by
    rw [value]
    decide
  have begins : BeginsSwitch (line.command.value :: line.values)
      (firstPlain "root".toList line.values) := by
    rw [value]
    exact (begins_su _ _).mpr rfl
  rw [Told, effects_named programs emitted (named_of_value free), value, nameEffects_su,
    legible.parse_switch begins, List.map_singleton, otherUser_push, SuFits, and_comm]

theorem sudo_effects (value : line.command.value = "sudo".toList) :
    effects programs emitted line.simple =
      otherUserEffects programs (sudoUser line.values) (sudoCommand line.values) := by
  have free : '=' ∉ line.command.value := by
    rw [value]
    decide
  rw [effects_named programs emitted (named_of_value free), value, nameEffects_sudo]

theorem sudo_silent_iff (legible : LegibleLine line) (value : line.command.value = "sudo".toList)
    (none : ∀ user, ¬ BeginsSwitch (line.command.value :: line.values) user) :
    Told programs emitted line.simple ↔
      otherUserEffects programs (sudoUser line.values) (sudoCommand line.values) = [] := by
  rw [Told, sudo_effects value, legible.parse_noSwitch (.inr value) none, List.map_nil]
  exact eq_comm

theorem call_told_iff (legible : LegibleLine line) (value : line.command.value = "sudo".toList)
    {call : SudoCall} (words : line.values = call.words) :
    Told programs emitted line.simple ↔ call.Fits ∧
      (sudoUser line.values = none →
        otherUserEffects programs none (sudoCommand line.values) = []) := by
  have isUser := call.sudoUser_words
  have begins := call.begins_iff
  rw [← words, ← value] at begins
  rw [← words] at isUser
  rw [SudoCall.Fits]
  by_cases isSu : call.behind.head? = some "su".toList
  · rcases List.head?_eq_some_iff.mp isSu with ⟨rest, isBehind⟩
    have dropped : call.behind.dropWhile ('=' ∈ ·) = "su".toList :: rest := by
      rw [isBehind]
      rfl
    have seen : BeginsSwitch (line.command.value :: line.values) (firstPlain call.named rest) := by
      rw [begins, if_pos isSu, isBehind]
      rfl
    rw [Told, sudo_effects value, legible.parse_switch seen, List.map_singleton, otherUser_push,
      dropped]
    rw [dropped] at isUser
    simp only [if_true] at isUser ⊢
    constructor
    · intro both
      rw [both.1] at isUser ⊢
      cases shot : call.oneShot with
      | true =>
          rw [shot] at isUser
          cases isUser
      | false =>
          rw [shot] at isUser
          exact ⟨⟨rfl, both.2, isUser.symm⟩, by simp⟩
    · intro both
      rw [isUser, both.1.1]
      exact ⟨both.1.2.2, both.1.2.1⟩
  · have noSu : ∀ rest, call.behind.dropWhile ('=' ∈ ·) ≠ "su".toList :: rest := by
      intro rest dropped
      exact isSu (call.direct (by rw [dropped]; rfl))
    simp only [isSu, if_false] at begins
    cases shell : call.asksShell with
    | true =>
        rw [Told, sudo_effects value, legible.parse_switch ((begins _).mpr ⟨shell, rfl⟩),
          List.map_singleton, otherUser_push, isUser]
        cases dropped : call.behind.dropWhile ('=' ∈ ·) with
        | nil => cases call.oneShot <;> simp [shell, call.named_ne_nil]
        | cons command rest =>
            have other : command ≠ "su".toList := fun same => noSu rest (same ▸ dropped)
            dsimp only
            rw [if_neg other, if_neg other]
            cases call.oneShot <;> simp
    | false =>
        have none : ∀ user, ¬ BeginsSwitch (line.command.value :: line.values) user := by
          intro user seen
          have asks := ((begins user).mp seen).1
          rw [shell] at asks
          cases asks
        have keeps : sudoUser line.values = Option.none := by
          rw [isUser]
          cases dropped : call.behind.dropWhile ('=' ∈ ·) with
          | nil => simp [shell]
          | cons command rest =>
              have other : command ≠ "su".toList := fun same => noSu rest (same ▸ dropped)
              dsimp only
              rw [if_neg other, ite_self]
        rw [sudo_silent_iff legible value none, keeps]
        cases dropped : call.behind.dropWhile ('=' ∈ ·) with
        | nil => simp
        | cons command rest =>
            have other : command ≠ "su".toList := fun same => noSu rest (same ▸ dropped)
            dsimp only
            rw [if_neg other]
            simp

theorem noSwitch_of_words {args : List Str}
    (words : ∀ word ∈ args, word ∉ SHELL_OPTIONS ∧ word ≠ "su".toList) (user : Str) :
    ¬ BeginsSwitch ("sudo".toList :: args) user := by
  rw [begins_sudo]
  have among := sudoWords_mem args
  rw [if_neg]
  · rintro ⟨shell, -⟩
    rcases List.any_eq_true.mp shell with ⟨flag, member, isShell⟩
    exact (words flag (among.1 flag member)).1 (of_decide_eq_true isShell)
  · intro isSu
    exact (words _ (among.2 _ (List.mem_of_mem_head? isSu))).2 rfl

theorem sudo_told_iff (legible : LegibleLine line) (value : line.command.value = "sudo".toList)
    (spelled : SudoSpelled line.values) :
    Told programs emitted line.simple ↔ SudoTold programs line.values := by
  have silent : (∀ word ∈ line.values, word ∉ SHELL_OPTIONS ∧ word ≠ "su".toList) →
      (Told programs emitted line.simple ↔
        otherUserEffects programs (sudoUser line.values) (sudoCommand line.values) = []) := by
    intro words
    apply sudo_silent_iff legible value
    rw [value]
    exact noSwitch_of_words words
  constructor
  · intro told
    rcases spelled with ⟨call, words⟩ | words
    · exact .inl ⟨call, words, (call_told_iff legible value words).mp told⟩
    · exact .inr ⟨words, (silent words).mp told⟩
  · rintro (⟨call, words, fits⟩ | ⟨words, nothing⟩)
    · exact (call_told_iff legible value words).mpr fits
    · exact (silent words).mpr nothing

theorem operands_right_iff_spelled (legible : LegibleLine line) {verb : OperandVerb}
    (value : line.command.value = verb.text) :
    Told programs emitted line.simple ↔
      Harmless verb line.values ∨
        SpelledAs line.command verb.text ∧ TakesOperands verb line.values := by
  have free : '=' ∉ line.command.value := by
    rw [value]
    cases verb <;> decide
  rw [Told, effects_named programs emitted (named_of_value free), value, nameEffects_verb,
    map_mutation_inj]
  by_cases spelled : SpelledAs line.command verb.text
  · rw [legible.parse_spelled spelled, operandMutations_iff]
    simp only [spelled, true_and]
  · have member : verb.text ∈ PATTERN_WORDS := by
      cases verb <;> decide
    rw [legible.parse_unspelled member value spelled, eq_comm, operandEffects_nil]
    simp only [spelled, false_and, or_false]

theorem join_longer {first : Str} {rest : List Str} (some : rest ≠ []) :
    (first ++ " ".toList).length ≤ (Text.join " ".toList (first :: rest)).length := by
  rcases List.exists_cons_of_ne_nil some with ⟨second, more, isRest⟩
  rw [isRest, Text.join, List.intercalate]
  simp

theorem setEffects_cons (name value : Str) (more : List (Str × Str)) :
    setEffects ((name, value) :: more) = .setEnv name value :: setEffects more := rfl

theorem setEffects_nil {assigned : List (Str × Str)} : setEffects assigned = [] ↔ assigned = [] :=
  List.map_eq_nil_iff

theorem operands_assignment {word : Word} {name value : Str} (rest : List Str)
    (assign : word.assignment? = some (name, value)) :
    (operands (word.value :: rest)).filterMap assignmentOf =
      (name, value) :: (operands rest).filterMap assignmentOf := by
  have isName := (Word.assignment_eq_some.mp assign).1
  have isValue := sign_of_assignment assign
  rcases isName.started with ⟨ch, more, isCons, starts⟩
  have notDash : ch ≠ '-' := by
    intro same
    rw [same] at starts
    cases starts
  have plain : isFlag word.value = false := by
    rw [isValue, isCons, Bool.eq_false_iff]
    intro flag
    exact notDash (List.cons_prefix_cons.mp (List.isPrefixOf_iff_prefix.mp flag)).1.symm
  have notEnd : word.value ≠ "--".toList := by
    intro same
    rw [same] at plain
    cases plain
  have notOption : ¬ isOption word.value = true := by
    rw [isOption, plain]
    exact Bool.false_ne_true
  rw [operands, if_neg notEnd, if_neg notOption, List.filterMap_cons,
    assignmentOf_eq_some.mpr ⟨isName, isValue⟩]

theorem join_value {pieces : List Piece} {more : List (Gap × Word)} :
    Text.join " ".toList (valueWords pieces more) = pieces.flatMap Piece.value ↔
      more = [] ∨ pieces = [] ∧ more.map (·.2.value) = [[]] := by
  by_cases empty : pieces = []
  · rw [valueWords, if_pos empty, empty, List.nil_append, List.flatMap_nil]
    simp only [true_and]
    cases more with
    | nil => exact iff_of_true rfl (.inl rfl)
    | cons arg more =>
        simp only [List.map_cons, List.cons.injEq, reduceCtorEq, false_or, List.map_eq_nil_iff]
        cases more with
        | nil => simp [Text.join, List.intercalate]
        | cons second more =>
            have longer := @join_longer arg.2.value ((second :: more).map (·.2.value)) (by simp)
            apply iff_of_false
            · intro none
              rw [none] at longer
              simp at longer
            · simp
  · rw [valueWords, if_neg empty]
    simp only [empty, false_and, or_false]
    cases more with
    | nil => simp [Text.join, List.intercalate]
    | cons arg more =>
        have longer := @join_longer (pieces.flatMap Piece.value)
          ((arg :: more).map (·.2.value)) (by simp)
        apply iff_of_false
        · intro same
          rw [show [pieces.flatMap Piece.value] ++ List.map (fun arg => arg.2.value) (arg :: more) =
            pieces.flatMap Piece.value :: (arg :: more).map (·.2.value) from rfl] at same
          rw [same, List.length_append] at longer
          exact absurd longer (by simp)
        · simp

theorem exported_right_iff (legible : LegibleLine line) (value : line.command.value = "export".toList) :
    Told programs emitted line.simple ↔
      (operands line.values).filterMap assignmentOf = [] ∨ ExportsOne line := by
  have free : '=' ∉ line.command.value := by
    rw [value]
    decide
  rw [Told, effects_named programs emitted (named_of_value free), value, nameEffects_export,
    map_mutation_inj]
  have noneFound : parseInputMutations line.simple.text = [] →
      ¬ ExportsOne line → (parseInputMutations line.simple.text =
        setEffects ((operands line.values).filterMap assignmentOf) ↔
          (operands line.values).filterMap assignmentOf = [] ∨ ExportsOne line) := by
    intro parsed other
    rw [parsed, eq_comm, setEffects_nil]
    exact (or_iff_left other).symm
  by_cases spelled : SpelledAs line.command "export".toList
  · cases isArgs : line.args with
    | nil =>
        rw [legible.parse_export_other spelled (by rw [isArgs]; intro arg none; cases none),
          Line.values, isArgs]
        exact iff_of_true rfl (.inl rfl)
    | cons arg more =>
        rcases arg with ⟨gap, word⟩
        have isValues : line.values = word.value :: more.map (·.2.value) := by
          rw [Line.values, isArgs]
          rfl
        cases assign : word.assignment? with
        | none =>
            apply noneFound
            · apply legible.parse_export_other spelled
              intro arg first
              rw [isArgs] at first
              rw [← Option.some.inj first]
              exact assign
            · intro both
              rcases both with ⟨-, otherGap, other, later, name, value, isOther, assigned, -⟩
              rw [isArgs] at isOther
              cases isOther
              rw [assign] at assigned
              cases assigned
        | some both =>
            rcases both with ⟨name, content⟩
            rcases legible.parse_exported spelled isArgs assign with
              ⟨pieces, isPieces, isContent, parsed⟩
            have noSign : word.pieces = name.map Piece.plain ++ [.plain '='] ↔ pieces = [] := by
              rw [isPieces, List.append_cancel_left_eq, List.cons.injEq]
              simp
            rw [parsed, isValues, operands_assignment _ assign, setEffects_cons, List.cons.injEq,
              CmdMutation.setEnv.injEq, isContent]
            constructor
            · intro right
              apply Or.inr
              apply And.intro spelled
              have same := join_value.mp right.1.2
              rw [← noSign] at same
              exact ⟨gap, word, more, name, _, isArgs, assign, same⟩
            · intro fits
              rcases fits with none | ⟨-, otherGap, other, later, otherName, value, isOther, assigned, alone⟩
              · cases none
              · rw [isArgs] at isOther
                cases isOther
                rw [assign] at assigned
                cases assigned
                rw [noSign] at alone
                apply And.intro ⟨rfl, join_value.mpr alone⟩
                rcases alone with none | ⟨-, empty⟩
                · rw [none]
                  rfl
                · rw [empty]
                  rfl
  · apply noneFound
    · exact legible.parse_unspelled (by decide) value spelled
    · intro both
      exact spelled both.1

theorem assigned_right_iff (legible : LegibleLine line) (assign : assigns line.command = true) :
    Told programs emitted line.simple ↔
      line.args = [] ∧ (∀ ch ∈ line.command.text, Text.isSpace ch = false) ∨
        ∃ name args, line.words.dropWhile assigns = name :: args ∧
          nameEffects programs false name.value (args.map Word.value) = [] := by
  rcases Option.isSome_iff_exists.mp assign with ⟨⟨name, value⟩, found⟩
  rw [Told, legible.parse_assigned found, effects_simple]
  by_cases alone : line.args = [] ∧ ∀ ch ∈ line.command.text, Text.isSpace ch = false
  · have words : line.words = [line.command] := by
      rw [Line.words, alone.1]
      rfl
    have dropped : [line.command].dropWhile assigns = [] := by
      rw [List.dropWhile_cons_of_pos assign]
      rfl
    rw [if_pos alone, words, dropped]
    apply iff_of_true _ (.inl alone)
    simp only [List.filterMap_cons, found, List.filterMap_nil]
    rfl
  · rw [if_neg alone]
    simp only [alone, false_or]
    cases dropped : line.words.dropWhile assigns with
    | nil =>
        apply iff_of_false
        · intro none
          have empty := setEffects_nil.mp (List.map_eq_nil_iff.mp none.symm)
          rw [Line.words, List.filterMap_cons, found] at empty
          cases empty
        · intro named
          rcases named with ⟨first, args, isCons, -⟩
          cases isCons
    | cons first args =>
        constructor
        · intro none
          exact ⟨first, args, rfl, none.symm⟩
        · intro named
          rcases named with ⟨other, more, isCons, none⟩
          rw [(List.cons.inj isCons).1, (List.cons.inj isCons).2]
          exact none.symm

theorem line_right_iff (legible : LegibleLine line)
    (known : line.command.value ∈ KNOWN ∨ assigns line.command = true)
    (spelled : line.command.value = "sudo".toList → SudoSpelled line.values) :
    Told programs emitted line.simple ↔ Fits programs line := by
  constructor
  · intro right
    constructor
    · intro value
      exact (su_told_iff legible value).mp right
    · intro value
      exact (sudo_told_iff legible value (spelled value)).mp right
    · intro verb value
      exact (operands_right_iff_spelled legible value).mp right
    · intro value
      exact (exported_right_iff legible value).mp right
    · intro assign
      exact (assigned_right_iff legible assign).mp right
  · intro fits
    rcases known with among | assign
    · simp only [KNOWN, List.map_cons, List.map_nil, List.mem_cons, List.not_mem_nil,
        or_false] at among
      have verb : ∀ verb : OperandVerb, line.command.value = verb.text →
          Told programs emitted line.simple := fun verb value =>
        (operands_right_iff_spelled legible value).mpr (fits.operands verb value)
      rcases among with value | value | value | value | value | value | value
      · exact verb .touch value
      · exact verb .rm value
      · exact verb .cp value
      · exact verb .mv value
      · exact (exported_right_iff legible value).mpr (fits.exported value)
      · exact (su_told_iff legible value).mpr (fits.bySu value)
      · exact (sudo_told_iff legible value (spelled value)).mpr (fits.bySudo value)
    · exact (assigned_right_iff legible assign).mpr (fits.assigned assign)

end

/-! ## `echo` into a file -/

/-- `echo` with one redirection of its output at the end, in the parser's sight: a blank
stands behind the name, no sign in the words is taken for the redirection, and no white space
stands in the name of the file. -/
structure LegibleEcho (line : Line) (redirection : Redirection) (blanks : Str)
    (command : SimpleCommand) : Prop where
  plainly : Plainly command
  words : ∀ word ∈ line.words, LegibleWord word
  spelled : SpelledAs line.command "echo".toList
  output : redirection.descriptor = [] ∧ (redirection.kind = .create ∨ redirection.kind = .append)
  behind : line.args ≠ [] ∨ blanks ≠ []
  closed : ∀ ch ∈ (argsText line.args).getLast?, Text.isSpace ch = false
  signs : ∀ before rest, argsText line.args = before ++ '>' :: rest →
    ¬ RedirectsAt (rest ++ (blanks ++ redirection.text))
  target : ∀ ch ∈ redirection.target.text, Text.isSpace ch = false

def recorded (redirection : Redirection) (path content : Str) : CmdMutation :=
  if redirection.kind = .append then .appendFile path content else .createFile path content

theorem contentThenRedirect_skip {text rest : Str} (free : '\n' ∉ text)
    (none : ∀ before behind, text = before ++ behind → behind ≠ [] →
      redirectAt (behind ++ rest) = none) (content : Str) :
    contentThenRedirect content (text ++ rest) = contentThenRedirect (content ++ text) rest := by
  induction text generalizing content with
  | nil => rw [List.append_nil, List.nil_append]
  | cons ch text induction =>
      have here := none [] (ch :: text) rfl (List.cons_ne_nil _ _)
      have notLine : ch ≠ '\n' := by
        intro same
        rw [same] at free
        exact free (List.mem_cons_self ..)
      rw [List.cons_append] at here ⊢
      rw [contentThenRedirect_cons, here]
      simp only [if_neg notLine]
      rw [induction (fun member => free (List.mem_cons_of_mem _ member))
        (fun before behind whole => none (ch :: before) behind (by rw [whole]; rfl)),
        List.append_assoc]
      rfl

theorem redirectAt_skip {blanks : Str} (blank : ∀ ch ∈ blanks, Text.isSpace ch = true) (rest : Str) :
    redirectAt (blanks ++ rest) = redirectAt rest := by
  rw [redirectAt, redirectAt, Text.lstrip, Text.lstrip, List.dropWhile_append_of_pos blank]

theorem head_word (word : Word) : word.text.head? ≠ some '>' := by
  rcases List.exists_cons_of_ne_nil word.started with ⟨piece, pieces, isPieces⟩
  have valid := word.valid piece (by rw [isPieces]; exact List.mem_cons_self ..)
  rw [Word.text, isPieces, List.flatMap_cons]
  cases piece with
  | plain ch =>
      intro same
      rw [Option.some.inj same] at valid
      exact valid (by decide)
  | escaped ch =>
      intro same
      cases same
  | single body =>
      intro same
      cases same
  | double body =>
      intro same
      cases same

namespace LegibleEcho

variable {line : Line} {redirection : Redirection} {blanks : Str} {command : SimpleCommand}

theorem redirectAt_text (legible : LegibleEcho line redirection blanks command) :
    redirectAt redirection.text = some (decide (redirection.kind = .append),
      redirection.target.text) := by
  have spaces : ∀ ch ∈ redirection.blanks, Text.isSpace ch = true :=
    fun ch member => space_of_blank (redirection.blank ch member)
  have started : redirection.target.text ≠ [] := by
    rcases List.exists_cons_of_ne_nil redirection.target.started with ⟨piece, pieces, isPieces⟩
    rw [Word.text, isPieces, List.flatMap_cons]
    cases piece with
    | plain ch | escaped ch | single body | double body => exact List.cons_ne_nil _ _
  have last : lastWord (redirection.blanks ++ redirection.target.text) =
      some redirection.target.text := by
    apply lastWord_eq_some.mpr
    apply Exists.intro redirection.blanks
    apply Exists.intro []
    rw [List.append_nil]
    exact ⟨rfl, spaces, List.forall_mem_nil _, started, legible.target⟩
  have notSign : ∀ more, redirection.blanks ++ redirection.target.text ≠ '>' :: more := by
    intro more same
    cases isBlanks : redirection.blanks with
    | nil =>
        rw [isBlanks, List.nil_append] at same
        apply head_word redirection.target
        rw [same]
        rfl
    | cons blank blanks =>
        rw [isBlanks] at same
        have isBlank := redirection.blank blank (by rw [isBlanks]; exact List.mem_cons_self ..)
        rw [(List.cons.inj same).1] at isBlank
        rcases isBlank with other | other
        · cases other
        · cases other
  rcases legible.output with ⟨noNumber, isKind⟩
  rcases isKind with isKind | isKind
  · have text : redirection.text = '>' :: (redirection.blanks ++ redirection.target.text) := by
      rw [Redirection.text, noNumber, isKind]
      rfl
    have stripped : Text.lstrip ('>' :: (redirection.blanks ++ redirection.target.text)) =
        '>' :: (redirection.blanks ++ redirection.target.text) := rfl
    rw [text, redirectAt, stripped, isKind]
    simp only
    rw [last]
    rfl
  · have text : redirection.text = '>' :: '>' :: (redirection.blanks ++ redirection.target.text) := by
      rw [Redirection.text, noNumber, isKind]
      rfl
    have stripped : Text.lstrip ('>' :: '>' :: (redirection.blanks ++ redirection.target.text)) =
        '>' :: '>' :: (redirection.blanks ++ redirection.target.text) := rfl
    rw [text, redirectAt, stripped, isKind]
    simp only [last]
    rfl

section

variable {blank : ∀ ch ∈ blanks, IsBlank ch} {adjoins : blanks = [] → ∀ part ∈ line.parts.getLast?,
  part.2.Adjoins (.redirection redirection)}

theorem partsText_redirected (line : Line) :
    partsText ((line.args.map fun arg => (arg.1.text, Part.word arg.2)) ++
      [(blanks, .redirection redirection)]) =
        argsText line.args ++ (blanks ++ redirection.text) := by
  rw [partsText, List.flatMap_append, ← partsText, LegibleLine.partsText_args]
  simp [Part.text]

theorem headed (legible : LegibleEcho line redirection blanks
      (line.redirected redirection blanks blank adjoins)) :
    Headed (line.redirected redirection blanks blank adjoins).text
      (line.command.text ++ (argsText line.args ++ (blanks ++ redirection.text))) := by
  rw [← partsText_redirected]
  apply @Plainly.headed (line.redirected redirection blanks blank adjoins)
    (line.lead, .word line.command) _ legible.plainly rfl
  rcases (legible.words _ (List.mem_cons_self ..)).head [] with ⟨ch, more, isText, visible⟩
  rw [List.append_nil] at isText
  exact ⟨ch, more, isText, visible⟩

theorem ends (line : Line) (adjoins : blanks = [] → ∀ part ∈ line.parts.getLast?,
      part.2.Adjoins (.redirection redirection)) (blank : ∀ ch ∈ blanks, IsBlank ch) :
    Ends (argsText line.args ++ (blanks ++ redirection.text)) := by
  rw [← partsText_redirected]
  apply @SimpleCommand.ends_rest (line.redirected redirection blanks blank adjoins)
    (line.lead, .word line.command)
  rfl

theorem lstrip_words (legible : LegibleEcho line redirection blanks command)
    (blank : ∀ ch ∈ blanks, IsBlank ch) :
    ∃ content spaces, Text.lstrip (argsText line.args ++ (blanks ++ redirection.text)) =
        content ++ (spaces ++ redirection.text) ∧
      (∀ ch ∈ spaces, Text.isSpace ch = true) ∧ Shlex.split content = some line.values ∧
        content <:+ argsText line.args ∧ (content ≠ [] → spaces = blanks) := by
  have spaces : ∀ ch ∈ blanks, Text.isSpace ch = true := fun ch member => space_of_blank (blank ch member)
  cases isArgs : line.args with
  | nil =>
      apply Exists.intro []
      apply Exists.intro []
      have begins : Text.lstrip redirection.text = redirection.text := by
        rcases redirection.head_text with ⟨ch, more, isText, sign, -⟩
        rw [isText, Text.lstrip, List.dropWhile_cons_of_neg (by simp [(sign_ordinary sign).visible])]
      constructor
      · rw [argsText, List.flatMap_nil, List.nil_append, Text.lstrip,
          List.dropWhile_append_of_pos spaces]
        exact begins
      · apply And.intro (List.forall_mem_nil _)
        constructor
        · rw [Line.values, isArgs]
          rfl
        · exact ⟨List.nil_suffix, fun some => absurd rfl some⟩
  | cons arg more =>
      rcases arg with ⟨gap, word⟩
      have member : ∀ arg ∈ line.args, LegibleWord arg.2 := by
        intro arg member
        exact legible.words _ (List.mem_cons_of_mem _ (List.mem_map_of_mem member))
      rw [isArgs] at member
      have legibleWord : LegibleWord word := member (gap, word) (List.mem_cons_self ..)
      apply Exists.intro (word.text ++ argsText more)
      apply Exists.intro blanks
      constructor
      · rw [argsText, List.flatMap_cons, List.append_assoc, List.append_assoc, Text.lstrip,
          List.dropWhile_append_of_pos fun ch member => space_of_blank (gap.blank ch member),
          ← argsText, List.append_assoc]
        exact legibleWord.lstrip _
      · apply And.intro spaces
        constructor
        · rw [Line.values, isArgs]
          apply split_words
          · intro piece inWord
            exact (legibleWord piece inWord).plain
          · intro arg among piece inWord
            exact (member arg (List.mem_cons_of_mem _ among) piece inWord).plain
        · apply And.intro _ fun _ => rfl
          apply Exists.intro gap.text
          rw [argsText, argsText, List.flatMap_cons, List.append_assoc]

theorem skipped (legible : LegibleEcho line redirection blanks command) {content spaces : Str}
    (isSpaces : ∀ ch ∈ spaces, Text.isSpace ch = true) (isSuffix : content <:+ argsText line.args)
    (isBlanks : content ≠ [] → spaces = blanks) (free : '\n' ∉ content) :
    contentThenRedirect [] (content ++ (spaces ++ redirection.text)) =
      some (content, decide (redirection.kind = .append), redirection.target.text) := by
  have visible : ∀ before behind, content = before ++ behind → behind ≠ [] →
      ¬ ∀ ch ∈ behind, Text.isSpace ch = true := by
    intro before behind whole some spaces
    rcases isSuffix with ⟨front, isArgs⟩
    have last := List.getLast?_eq_some_getLast some
    have isLast : (argsText line.args).getLast? = behind.getLast? := by
      rw [← isArgs, whole, List.getLast?_append_of_ne_nil _ (by simp [some]),
        List.getLast?_append_of_ne_nil _ some]
    have space := spaces _ (List.mem_of_getLast? last)
    rw [legible.closed _ (isLast.trans last)] at space
    cases space
  have none : ∀ before behind, content = before ++ behind → behind ≠ [] →
      redirectAt (behind ++ (spaces ++ redirection.text)) = none := by
    intro before behind whole some
    rw [Option.eq_none_iff_forall_ne_some]
    intro found isFound
    rcases redirectAt_some isFound with ⟨front, rest, equal, isFront, redirects⟩
    rcases List.append_eq_append_iff.mp equal with ⟨more, isMore, -⟩ | ⟨more, isMore, isRest⟩
    · apply visible before behind whole some
      intro ch member
      apply isFront
      rw [isMore]
      exact List.mem_append_left _ member
    · cases more with
      | nil =>
          rw [List.append_nil] at isMore
          rw [isMore] at some whole
          exact visible before front whole some isFront
      | cons sign more =>
          rcases isSuffix with ⟨lead, isArgs⟩
          have isSign := (List.cons.inj isRest).1
          have isBehind : rest = more ++ (spaces ++ redirection.text) := (List.cons.inj isRest).2
          apply legible.signs (lead ++ (before ++ front)) more
          · rw [← isArgs, whole, isMore, isSign]
            simp
          · rw [← isBlanks (by rw [whole]; simp [some]), ← isBehind]
            exact redirects
  rw [contentThenRedirect_skip free none, List.nil_append]
  rcases redirection.head_text with ⟨ch, more, isText, -, -⟩
  have started : spaces ++ redirection.text ≠ [] := by
    rw [isText]
    simp
  rcases List.exists_cons_of_ne_nil started with ⟨first, rest, isCons⟩
  have here := redirectAt_skip isSpaces redirection.text
  rw [legible.redirectAt_text, isCons] at here
  rw [isCons, contentThenRedirect_cons, here]

theorem parse (legible : LegibleEcho line redirection blanks
      (line.redirected redirection blanks blank adjoins)) :
    parseInputMutations (line.redirected redirection blanks blank adjoins).text =
      [recorded redirection
        (Text.stripWhere (fun ch => ch == '\'' || ch == '"') redirection.target.text)
        (Text.join " ".toList line.values)] := by
  have legibleWord : LegibleWord line.command := legible.words _ (List.mem_cons_self ..)
  have isEcho := legible.spelled.value
  have different : "echo".toList ≠ "su".toList ∧ "echo".toList ≠ "sudo".toList := by decide
  have tailEnds := ends line adjoins blank
  rcases legible.lstrip_words blank with
    ⟨content, spaces, stripped, isSpaces, splits, isSuffix, isBlanks⟩
  have begins : ∀ ch ∈ (argsText line.args ++ (blanks ++ redirection.text)).head?, IsBlank ch := by
    intro ch head
    cases isArgs : line.args with
    | nil =>
        have some := legible.behind.resolve_left (fun differs => differs isArgs)
        rcases List.exists_cons_of_ne_nil some with ⟨first, more, isCons⟩
        rw [isArgs, argsText, List.flatMap_nil, List.nil_append, isCons] at head
        apply blank
        rw [isCons, ← Option.some.inj head]
        exact List.mem_cons_self ..
    | cons arg more =>
        rcases List.exists_cons_of_ne_nil arg.1.started with ⟨first, rest, isGap⟩
        rw [isArgs, argsText, List.flatMap_cons, isGap] at head
        apply arg.1.blank
        rw [isGap, ← Option.some.inj head]
        exact List.mem_cons_self ..
  have found : afterVerb "echo".toList
      (line.command.text ++ (argsText line.args ++ (blanks ++ redirection.text))) =
        some (content ++ (spaces ++ redirection.text)) := by
    apply (afterVerb_word (by decide) tailEnds legibleWord).mpr
    apply And.intro legible.spelled
    apply And.intro _ ⟨begins, stripped⟩
    rcases redirection.head_text with ⟨ch, more, isText, -, -⟩
    rw [isText]
    simp
  have free : '\n' ∉ content := by
    intro member
    apply legible.plainly.whole "\n".toList (by decide)
    apply (List.singleton_infix_iff _ _).mpr
    rw [SimpleCommand.text, Line.redirected]
    apply List.mem_append_left
    rw [partsText, List.flatMap_append]
    apply List.mem_append_left
    rw [← partsText, line.partsText_parts]
    exact List.mem_append_right _ (List.mem_append_right _ (isSuffix.subset member))
  rw [legible.headed.parse_patterns (parseUserSwitch_word tailEnds legibleWord
    (isEcho ▸ different.1) (isEcho ▸ different.2))]
  simp only [patternMutations, echoRedirect, found, Option.bind_some,
    legible.skipped isSpaces isSuffix isBlanks free, stripQuotes_split splits, recorded,
    decide_eq_true_eq]
  exact (apply_ite (fun mutation => [mutation]) _ _ _).symm

theorem effects_echo (legible : LegibleEcho line redirection blanks
      (line.redirected redirection blanks blank adjoins)) (programs : Programs)
    (emitted : Emitted) :
    effects programs emitted (line.redirected redirection blanks blank adjoins) =
      [.mutation (recorded redirection redirection.target.value
        (if line.values.head?.all (!isEchoOption ·) = true then Text.join " ".toList line.values
          else emitted (line.redirected redirection blanks blank adjoins) redirection))] := by
  have isEcho := legible.spelled.value
  have free : '=' ∉ line.command.value := by
    rw [isEcho]
    decide
  have named : commandWords (line.redirected redirection blanks blank adjoins) = line.words := by
    rw [commandWords, Line.words_redirected, Line.words,
      List.dropWhile_cons_of_neg (by simp [named_of_value free])]
  have values : line.words.map Word.value = "echo".toList :: line.values := by
    rw [Line.words, List.map_cons, isEcho, List.map_map]
    rfl
  have nothing : nameEffects programs true "echo".toList line.values = [] := by
    have none : VERBS.find? (·.text = "echo".toList) = Option.none := by decide
    have apart : "echo".toList ≠ "export".toList ∧ "echo".toList ≠ "unset".toList ∧
        "echo".toList ≠ "su".toList ∧ "echo".toList ≠ "sudo".toList := by decide
    rw [nameEffects, if_neg apart.1, if_neg apart.2.1, if_neg apart.2.2.1, if_neg apart.2.2.2,
      utilityEffects, none]
    exact if_pos (by decide)
  have written : contents emitted (line.redirected redirection blanks blank adjoins) redirection =
      if line.values.head?.all (!isEchoOption ·) = true then Text.join " ".toList line.values
      else emitted (line.redirected redirection blanks blank adjoins) redirection := by
    have one : (line.redirected redirection blanks blank adjoins).redirections.length = 1 := by
      rw [Line.redirections_redirected]
      rfl
    rw [contents, named, values]
    simp only [one, Redirection.IsOutput, legible.output.1, true_or, true_and, and_true]
  rw [effects, named, Line.redirections_redirected]
  simp only [List.filterMap_cons, List.filterMap_nil, written, Line.words, ne_eq,
    List.cons_ne_nil, not_false_eq_true, decide_true]
  rw [isEcho, show (line.args.map (·.2)).map Word.value = line.values from List.map_map, nothing]
  rcases legible.output.2 with isKind | isKind
  · simp only [redirectionEffect, isKind, recorded, reduceCtorEq, if_false, List.append_nil]
  · simp only [redirectionEffect, isKind, recorded, if_true, List.append_nil]

theorem recorded_inj {path other content text : Str} :
    recorded redirection path content = recorded redirection other text ↔
      path = other ∧ content = text := by
  unfold recorded
  split
  · rw [CmdMutation.appendFile.injEq]
  · rw [CmdMutation.createFile.injEq]

theorem right_iff (legible : LegibleEcho line redirection blanks
      (line.redirected redirection blanks blank adjoins)) (programs : Programs)
    (emitted : Emitted) :
    Told programs emitted (line.redirected redirection blanks blank adjoins) ↔
      Text.stripWhere (fun ch => ch == '\'' || ch == '"') redirection.target.text =
          redirection.target.value ∧
        (line.values.head?.all (!isEchoOption ·) = true ∨
          emitted (line.redirected redirection blanks blank adjoins) redirection =
            Text.join " ".toList line.values) := by
  rw [Told, legible.parse, legible.effects_echo programs emitted, List.map_singleton,
    List.cons.injEq, Effect.mutation.injEq, recorded_inj]
  by_cases plain : line.values.head?.all (!isEchoOption ·) = true
  · simp only [plain, if_true, true_or, and_true]
  · simp only [plain, Bool.false_eq_true, if_false, false_or, and_true]
    rw [@eq_comm _ (emitted _ _)]

end

end LegibleEcho

end Protocol

end LlmHoneypot
