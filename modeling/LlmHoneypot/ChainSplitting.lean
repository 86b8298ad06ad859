import LlmHoneypot.Foundation.ShellSyntax
import LlmHoneypot.Protocol.Talk

/-! # Chains as the shell reads them

Where a line is cut by `split_chain` and where the shell's quoting cuts it, and what becomes
of the segments when they are joined to one line again. -/

namespace LlmHoneypot

namespace CmdChain

open ShellSyntax (Quoting Symbol annotate annotateFrom)
open Protocol (remainder)

/-! ## The scanner, one character after another -/

/-- The mode after a character that belongs to no operator. -/
def ScanMode.next : ScanMode → Char → ScanMode
  | .plain, ch =>
      if ch = '\'' ∨ ch = '"' then .quoted ch else if ch = '\\' then .escaped else .plain
  | .quoted quote, ch => if ch = quote then .plain else .quoted quote
  | .escaped, _ => .plain
  | .operatorTail, _ => .plain

def ScanMode.after (mode : ScanMode) (text : Str) : ScanMode := text.foldl ScanMode.next mode

theorem ScanMode.next_reading (mode : ScanMode) (ch : Char) : mode.next ch ≠ .operatorTail := by
  cases mode with
  | plain =>
      simp only [ScanMode.next]
      split
      · exact ScanMode.noConfusion
      · split
        · exact ScanMode.noConfusion
        · exact ScanMode.noConfusion
  | quoted quote =>
      simp only [ScanMode.next]
      split
      · exact ScanMode.noConfusion
      · exact ScanMode.noConfusion
  | escaped => exact ScanMode.noConfusion
  | operatorTail => exact ScanMode.noConfusion

theorem joins_text {next : Operator} (joins : next ≠ .start) : 0 < next.text.length := by
  cases next with
  | start => exact absurd rfl joins
  | and => decide
  | or => decide
  | semicolon => decide

def beginsOperator (mode : ScanMode) (ch : Char) (rest : Str) : Bool :=
  mode = .plain ∧ (ch = ';' ∨ ch = '&' ∨ ch = '|' ∧ rest.head? = some '|')

def quiet : ScanMode → Str → Bool
  | _, [] => true
  | mode, ch :: rest => !beginsOperator mode ch rest && quiet (mode.next ch) rest

def Outside (mode : ScanMode) : Prop := mode = .plain ∨ mode = .escaped

theorem scan_step {mode : ScanMode} (reading : mode ≠ .operatorTail) {ch : Char} {rest : Str}
    (plain : beginsOperator mode ch rest = false) (operator : Operator) (current : Str) :
    scanChain id mode operator current (ch :: rest) =
      scanChain id (mode.next ch) operator (current ++ [ch]) rest := by
  cases mode with
  | operatorTail => exact absurd rfl reading
  | quoted quote => simp [scanChain, ScanMode.next]
  | escaped => simp [scanChain, ScanMode.next]
  | plain =>
      have notOne : ¬ (ch = ';' ∨ ch = '&' ∨ ch = '|' ∧ rest.head? = some '|') := by
        simpa [beginsOperator] using plain
      rw [not_or, not_or] at notOne
      rcases notOne with ⟨notSemicolon, notAmpersand, notBars⟩
      have notFound : OPERATORS.find? (·.text.isPrefixOf (ch :: rest)) = none := by
        cases rest with
        | nil => simp [OPERATORS, Operator.text, Ne.symm notSemicolon]
        | cons next rest =>
            have notBars : ¬ (ch = '|' ∧ next = '|') := by simpa using notBars
            simp only [OPERATORS, Operator.text, List.find?_eq_none]
            intro op member
            simp only [List.mem_cons, List.not_mem_nil, or_false] at member
            rcases member with isAnd | isOr | isSemicolon
            · simp [isAnd, Ne.symm notAmpersand]
            · simp only [isOr]
              intro bars
              simp at bars
              exact notBars ⟨bars.1.symm, bars.2.symm⟩
            · simp [isSemicolon, Ne.symm notSemicolon]
      simp only [scanChain, id, List.map_id, notFound, if_neg notAmpersand, ScanMode.next]
      by_cases quote : ch = '\'' ∨ ch = '"'
      · rw [if_pos quote, if_pos quote]
      · rw [if_neg quote, if_neg quote]
        by_cases backslash : ch = '\\'
        · cases rest with
          | nil => simp [backslash, scanChain]
          | cons next rest => simp [backslash]
        · simp [backslash]

theorem scan_operator {next : Operator} (joins : next ≠ .start) (operator : Operator)
    (current rest : Str) :
    scanChain id .plain operator current (next.text ++ rest) =
      (scanChain id .plain next [] rest).map (finishSegment id operator current :: ·) := by
  cases next with
  | start => exact absurd rfl joins
  | and => simp [Operator.text, scanChain, OPERATORS]
  | or => simp [Operator.text, scanChain, OPERATORS]
  | semicolon => simp [Operator.text, scanChain, OPERATORS]

theorem scan_lone {rest : Str} (alone : rest.head? ≠ some '&') (operator : Operator)
    (current : Str) : scanChain id .plain operator current ('&' :: rest) = none := by
  have notFound : OPERATORS.find? (·.text.isPrefixOf ('&' :: rest)) = none := by
    cases rest with
    | nil => decide
    | cons next rest =>
        have differs : next ≠ '&' := by simpa using alone
        simp [OPERATORS, Operator.text, Ne.symm differs]
  simp [scanChain, notFound]

theorem begins_cases {ch : Char} {rest : Str} (begins : beginsOperator .plain ch rest = true) :
    (∃ next later, next ≠ .start ∧ ch :: rest = Operator.text next ++ later) ∨
      ch = '&' ∧ rest.head? ≠ some '&' := by
  have one : ch = ';' ∨ ch = '&' ∨ ch = '|' ∧ rest.head? = some '|' := by
    simpa [beginsOperator] using begins
  rcases one with semicolon | ampersand | ⟨bar, bars⟩
  · exact .inl ⟨.semicolon, rest, Operator.noConfusion, by rw [semicolon]; rfl⟩
  · by_cases doubled : rest.head? = some '&'
    · rcases List.head?_eq_some_iff.mp doubled with ⟨later, isRest⟩
      exact .inl ⟨.and, later, Operator.noConfusion, by rw [ampersand, isRest]; rfl⟩
    · exact .inr ⟨ampersand, doubled⟩
  · rcases List.head?_eq_some_iff.mp bars with ⟨later, isRest⟩
    exact .inl ⟨.or, later, Operator.noConfusion, by rw [bar, isRest]; rfl⟩

/-! ## Segments joined to one line -/

/-- A text that the scanner takes for one segment. -/
structure Whole (text : Str) : Prop where
  quiet : quiet .plain text = true
  outside : Outside (ScanMode.plain.after text)

theorem beginsOperator_isPrefix {mode : ScanMode} {ch : Char} {piece rest : Str}
    (isPrefix : piece <+: rest) (plain : beginsOperator mode ch rest = false) :
    beginsOperator mode ch piece = false := by
  rcases isPrefix with ⟨later, isRest⟩
  cases piece with
  | nil =>
      simp only [beginsOperator, decide_eq_false_iff_not] at plain ⊢
      intro begins
      simp at begins
      exact plain ⟨begins.1, begins.2.imp_right .inl⟩
  | cons next piece =>
      rw [← isRest] at plain
      exact plain

theorem quiet_cons {mode : ScanMode} {ch : Char} {rest : Str} :
    quiet mode (ch :: rest) = true ↔
      beginsOperator mode ch rest = false ∧ quiet (mode.next ch) rest = true := by
  rw [quiet, Bool.and_eq_true, Bool.not_eq_true']

theorem quiet_isPrefix {mode : ScanMode} {piece text : Str} (isPrefix : piece <+: text)
    (isQuiet : quiet mode text = true) : quiet mode piece = true := by
  induction piece generalizing mode text with
  | nil => rfl
  | cons ch piece induction =>
      rcases isPrefix with ⟨later, isText⟩
      rw [← isText, List.cons_append, quiet_cons] at isQuiet
      exact quiet_cons.mpr ⟨beginsOperator_isPrefix ⟨later, rfl⟩ isQuiet.1,
        induction ⟨later, rfl⟩ isQuiet.2⟩

theorem scan_pieces {mode : ScanMode} (reading : mode ≠ .operatorTail) {operator : Operator}
    {current text : Str} {segments : List Segment}
    (scanned : scanChain id mode operator current text = some segments) :
    ∃ piece rest, piece <+: text ∧
      segments = finishSegment id operator (current ++ piece) :: rest ∧
      quiet mode piece = true ∧ Outside (mode.after piece) ∧
      ∀ segment ∈ rest, segment.operator ≠ .start ∧
        ∃ piece, Whole piece ∧ segment.command = Text.strip piece := by
  induction length : text.length using Nat.strong_induction_on
    generalizing mode operator current text segments with
  | _ count induction =>
      cases text with
      | nil =>
          have outside : Outside mode ∧ segments = [finishSegment id operator current] := by
            cases mode with
            | plain => exact ⟨.inl rfl, (Option.some.inj scanned).symm⟩
            | escaped => exact ⟨.inr rfl, (Option.some.inj scanned).symm⟩
            | quoted quote => cases scanned
            | operatorTail => exact absurd rfl reading
          apply Exists.intro []
          apply Exists.intro []
          rw [outside.2, List.append_nil]
          exact ⟨List.prefix_rfl, rfl, rfl, outside.1, fun _ member => by cases member⟩
      | cons ch rest =>
          cases begins : beginsOperator mode ch rest with
          | false =>
              rw [scan_step reading begins] at scanned
              have shorter : rest.length < count := by
                rw [← length]
                exact Nat.lt_succ_self _
              rcases induction rest.length shorter (mode.next_reading ch) scanned rfl with
                ⟨piece, later, isPrefix, isSegments, isQuiet, outside, others⟩
              apply Exists.intro (ch :: piece)
              apply Exists.intro later
              constructor
              · exact List.cons_prefix_cons.mpr ⟨rfl, isPrefix⟩
              · rw [List.append_assoc] at isSegments
                exact ⟨isSegments, quiet_cons.mpr ⟨beginsOperator_isPrefix isPrefix begins, isQuiet⟩,
                  outside, others⟩
          | true =>
              have isPlain : mode = .plain := by
                have both := of_decide_eq_true begins
                exact both.1
              rw [isPlain] at begins scanned ⊢
              rcases begins_cases begins with ⟨next, later, joins, isText⟩ | ⟨ampersand, alone⟩
              · rw [isText, scan_operator joins] at scanned
                rcases Option.map_eq_some_iff.mp scanned with ⟨found, later_, isSegments⟩
                have shorter : later.length < count := by
                  rw [← length, isText, List.length_append]
                  exact Nat.lt_add_of_pos_left (joins_text joins)
                rcases induction later.length shorter ScanMode.noConfusion later_ rfl with
                  ⟨piece, others, -, isFound, isQuiet, outside, wholes⟩
                apply Exists.intro []
                apply Exists.intro found
                rw [← isSegments, List.append_nil]
                apply And.intro List.nil_prefix
                apply And.intro rfl
                apply And.intro rfl
                apply And.intro (.inl rfl)
                rw [isFound]
                intro segment member
                rcases List.mem_cons.mp member with isFirst | isOther
                · rw [isFirst]
                  exact ⟨joins, piece, ⟨isQuiet, outside⟩, rfl⟩
                · exact wholes segment isOther
              · rw [ampersand, scan_lone alone] at scanned
                cases scanned

theorem next_space {ch : Char} (space : Text.isSpace ch = true) {mode : ScanMode}
    (outside : Outside mode) : mode.next ch = .plain := by
  rcases outside with isPlain | isEscaped
  · have notQuote : ¬ (ch = '\'' ∨ ch = '"') := by
      intro quote
      rcases quote with isSingle | isDouble
      · rw [isSingle] at space
        cases space
      · rw [isDouble] at space
        cases space
    have notBackslash : ch ≠ '\\' := by
      intro backslash
      rw [backslash] at space
      cases space
    rw [isPlain, ScanMode.next, if_neg notQuote, if_neg notBackslash]
  · rw [isEscaped]
    rfl

theorem outside_of_next_space {ch : Char} (space : Text.isSpace ch = true) {mode : ScanMode}
    (reading : mode ≠ .operatorTail) (closed : ∀ quote, mode = .quoted quote →
      quote = '\'' ∨ quote = '"') (outside : Outside (mode.next ch)) : Outside mode := by
  cases mode with
  | plain => exact .inl rfl
  | escaped => exact .inr rfl
  | operatorTail => exact absurd rfl reading
  | quoted quote =>
      have differs : ch ≠ quote := by
        intro same
        rw [same] at space
        rcases closed quote rfl with isSingle | isDouble
        · rw [isSingle] at space
          cases space
        · rw [isDouble] at space
          cases space
      rw [ScanMode.next, if_neg differs] at outside
      rcases outside with isPlain | isEscaped
      · cases isPlain
      · cases isEscaped

theorem quote_after {mode : ScanMode} (closed : ∀ quote, mode = .quoted quote →
    quote = '\'' ∨ quote = '"') (text : Str) :
    ∀ quote, mode.after text = .quoted quote → quote = '\'' ∨ quote = '"' := by
  induction text generalizing mode with
  | nil => exact closed
  | cons ch text induction =>
      apply induction
      intro quote opened
      cases mode with
      | plain =>
          rw [ScanMode.next] at opened
          split at opened
          · rename_i isQuote
            cases opened
            exact isQuote
          · split at opened
            · cases opened
            · cases opened
      | quoted other =>
          rw [ScanMode.next] at opened
          split at opened
          · cases opened
          · exact closed quote opened
      | escaped => cases opened
      | operatorTail => cases opened

theorem after_reading {mode : ScanMode} (reading : mode ≠ .operatorTail) (text : Str) :
    mode.after text ≠ .operatorTail := by
  induction text generalizing mode with
  | nil => exact reading
  | cons ch text induction => exact induction (mode.next_reading ch)

theorem Whole.lstrip {text : Str} (whole : Whole text) : Whole (Text.lstrip text) := by
  induction text with
  | nil => exact whole
  | cons ch text induction =>
      rw [Text.lstrip, List.dropWhile_cons]
      split
      · rename_i space
        have toPlain := next_space space (.inl rfl : Outside .plain)
        apply induction
        constructor
        · have later := (quiet_cons.mp whole.quiet).2
          rw [toPlain] at later
          exact later
        · have outside := whole.outside
          rw [ScanMode.after, List.foldl_cons, toPlain] at outside
          exact outside
      · exact whole

theorem Whole.rstrip {text : Str} (whole : Whole text) : Whole (Text.rstrip text) := by
  induction text using List.reverseRecOn with
  | nil => exact whole
  | append_singleton text ch induction =>
      by_cases space : Text.isSpace ch = true
      · rw [Text.rstrip, List.rdropWhile_concat_pos _ _ _ space]
        apply induction
        constructor
        · exact quiet_isPrefix ⟨[ch], rfl⟩ whole.quiet
        · have outside := whole.outside
          rw [ScanMode.after, List.foldl_append] at outside
          exact outside_of_next_space space (after_reading ScanMode.noConfusion text)
            (quote_after (fun _ opened => ScanMode.noConfusion opened) text) outside
      · rw [Text.rstrip, List.rdropWhile_concat_neg _ _ _ space]
        exact whole

theorem Whole.strip {text : Str} (whole : Whole text) : Whole (Text.strip text) :=
  whole.lstrip.rstrip

theorem scan_whole {mode : ScanMode} (reading : mode ≠ .operatorTail) {core : Str}
    (isQuiet : quiet mode core = true) (outside : Outside (mode.after core)) (operator : Operator)
    (current rest : Str) :
    scanChain id mode operator current (core ++ ' ' :: rest) =
      scanChain id .plain operator (current ++ core ++ [' ']) rest := by
  induction core generalizing mode current with
  | nil =>
      have plain : beginsOperator mode ' ' rest = false := by
        simp [beginsOperator]
      have outside : Outside mode := outside
      have toPlain : mode.next ' ' = .plain := next_space (by decide) outside
      rw [List.nil_append, scan_step reading plain, toPlain, List.append_nil]
  | cons ch core induction =>
      rw [quiet_cons] at isQuiet
      have plain : beginsOperator mode ch (core ++ ' ' :: rest) = false := by
        cases core with
        | nil =>
            have begins := isQuiet.1
            simp only [beginsOperator, decide_eq_false_iff_not, List.nil_append] at begins ⊢
            intro both
            simp at both
            exact begins ⟨both.1, both.2.imp_right .inl⟩
        | cons next core => exact isQuiet.1
      rw [List.cons_append, scan_step reading plain, induction (mode.next_reading ch) isQuiet.2 outside]
      simp

theorem scan_end {mode : ScanMode} (reading : mode ≠ .operatorTail) {core : Str}
    (isQuiet : quiet mode core = true) (outside : Outside (mode.after core)) (operator : Operator)
    (current : Str) :
    scanChain id mode operator current core =
      some [finishSegment id operator (current ++ core)] := by
  induction core generalizing mode current with
  | nil =>
      have outside : Outside mode := outside
      rw [List.append_nil]
      rcases outside with isPlain | isEscaped
      · rw [isPlain]
        rfl
      · rw [isEscaped]
        rfl
  | cons ch core induction =>
      rw [quiet_cons] at isQuiet
      rw [scan_step reading isQuiet.1, induction (mode.next_reading ch) isQuiet.2 outside]
      simp

theorem strip_cons_space (text : Str) : Text.strip (' ' :: text) = Text.strip text := rfl

theorem strip_append_space (text : Str) : Text.strip (text ++ [' ']) = Text.strip text := by
  rw [Text.strip, Text.strip, Text.lstrip, List.dropWhile_append]
  split
  · rename_i blank
    have empty : text.dropWhile Text.isSpace = [] := List.isEmpty_iff.mp blank
    rw [Text.lstrip, empty]
    rfl
  · exact List.rdropWhile_concat_pos _ _ _ (by decide)

theorem remainder_append (before command : Str) (rest : List Segment) :
    remainder (before ++ command) rest = before ++ remainder command rest := by
  induction rest generalizing command with
  | nil => rfl
  | cons segment rest induction =>
      have same : before ++ command ++ ' ' :: segment.operator.text ++ ' ' :: segment.command =
          before ++ (command ++ ' ' :: segment.operator.text ++ ' ' :: segment.command) := by simp
      simp only [remainder, List.foldl_cons] at induction ⊢
      rw [same, induction]

theorem remainder_cons (command : Str) (segment : Segment) (rest : List Segment) :
    remainder command (segment :: rest) =
      command ++ ' ' :: (segment.operator.text ++ ' ' :: remainder segment.command rest) := by
  have unfolded : remainder command (segment :: rest) =
      remainder ((command ++ ' ' :: segment.operator.text ++ [' ']) ++ segment.command) rest := by
    simp [remainder]
  rw [unfolded, remainder_append]
  simp

theorem scan_remainder {command : Str} (whole : Whole command) {rest : List Segment}
    (wholes : ∀ segment ∈ rest, segment.operator ≠ .start ∧ Whole segment.command ∧
      Text.strip segment.command = segment.command)
    (operator : Operator) {current : Str} (blank : current = [] ∨ current = [' ']) :
    scanChain id .plain operator current (remainder command rest) =
      some (⟨operator, Text.strip command⟩ :: rest) := by
  have stripped : Text.strip (current ++ command) = Text.strip command := by
    rcases blank with empty | single
    · rw [empty, List.nil_append]
    · rw [single]
      exact strip_cons_space command
  induction rest generalizing command operator current with
  | nil =>
      rw [remainder, List.foldl_nil, scan_end ScanMode.noConfusion whole.quiet whole.outside]
      have finished : finishSegment id operator (current ++ command) =
          ⟨operator, Text.strip (current ++ command)⟩ := rfl
      rw [finished, stripped]
  | cons segment rest induction =>
      rcases wholes segment (List.mem_cons_self ..) with ⟨joins, isWhole, isStripped⟩
      have plain : beginsOperator .plain ' ' (remainder segment.command rest) = false := by
        simp [beginsOperator]
      have toPlain : ScanMode.plain.next ' ' = .plain := next_space (by decide) (.inl rfl)
      have later := induction isWhole
        (fun other member => wholes other (List.mem_cons_of_mem _ member)) segment.operator
        (.inr rfl) (strip_cons_space segment.command)
      have finished : finishSegment id operator (current ++ command ++ [' ']) =
          ⟨operator, Text.strip (current ++ command ++ [' '])⟩ := rfl
      rw [remainder_cons, scan_whole ScanMode.noConfusion whole.quiet whole.outside,
        scan_operator joins, scan_step ScanMode.noConfusion plain, toPlain, List.nil_append, later,
        Option.map_some, isStripped, finished, strip_append_space, stripped]

theorem splitChain_eq_some {line : Str} {segments : List Segment}
    (accepted : splitChain line = some segments) :
    scanChain id .plain .start [] line = some segments ∧
      (∀ segment ∈ segments, segment.command ≠ []) ∧ segments.length ≤ MAX_SEGMENTS := by
  unfold splitChain at accepted
  split at accepted
  · cases accepted
  · split at accepted
    · cases accepted
    · rename_i found scanned
      split at accepted
      · cases accepted
      · rename_i noneEmpty
        split at accepted
        · cases accepted
        · rename_i few
          rw [← Option.some.inj accepted]
          apply And.intro scanned
          apply And.intro _ (Nat.le_of_not_lt few)
          intro segment member empty
          exact noneEmpty (List.any_eq_true.mpr ⟨segment, member, decide_eq_true empty⟩)

theorem splitChain_of_scan {line : Str} {segments : List Segment}
    (scanned : scanChain id .plain .start [] line = some segments)
    (visible : Text.strip line ≠ []) (some_ : ∀ segment ∈ segments, segment.command ≠ [])
    (few : segments.length ≤ MAX_SEGMENTS) : splitChain line = some segments := by
  have noneEmpty : ¬ (segments.any fun segment => segment.command = []) = true := by
    intro empty
    rcases List.any_eq_true.mp empty with ⟨segment, member, empty⟩
    exact some_ segment member (of_decide_eq_true empty)
  unfold splitChain
  rw [if_neg visible, scanned]
  simp only
  rw [if_neg noneEmpty, if_neg (Nat.not_lt.mpr few)]

theorem splitChain_remainder {line : Str} {before rest : List Segment} {segment : Segment}
    (accepted : splitChain line = some (before ++ segment :: rest)) :
    splitChain (remainder segment.command rest) = some (⟨.start, segment.command⟩ :: rest) := by
  rcases splitChain_eq_some accepted with ⟨scanned, some_, few⟩
  rcases scan_pieces ScanMode.noConfusion scanned with
    ⟨piece, later, -, isSegments, isQuiet, outside, pieces⟩
  have whole : ∀ other ∈ before ++ segment :: rest, ∃ piece, Whole piece ∧
      other.command = Text.strip piece := by
    intro other member
    rw [isSegments] at member
    rcases List.mem_cons.mp member with isFirst | isLater
    · rw [isFirst]
      exact ⟨piece, ⟨isQuiet, outside⟩, rfl⟩
    · exact (pieces other isLater).2
  have joins : ∀ other ∈ rest, other.operator ≠ .start := by
    intro other member
    apply (pieces other _).1
    cases before with
    | nil =>
        rw [← (List.cons.inj isSegments).2]
        exact member
    | cons first before =>
        rw [← (List.cons.inj isSegments).2]
        exact List.mem_append_right _ (List.mem_cons_of_mem _ member)
  have isOne : segment ∈ before ++ segment :: rest := by simp
  have isLater : ∀ other ∈ rest, other ∈ before ++ segment :: rest := fun other member =>
    List.mem_append_right _ (List.mem_cons_of_mem _ member)
  have stripped : ∀ other ∈ before ++ segment :: rest, Whole other.command ∧
      Text.strip other.command = other.command := by
    intro other member
    rcases whole other member with ⟨piece, isWhole, isCommand⟩
    rw [isCommand]
    exact ⟨isWhole.strip, Text.strip_strip piece⟩
  have again := scan_remainder (stripped segment isOne).1
    (fun other member => ⟨joins other member, stripped other (isLater other member)⟩) .start
    (.inl rfl)
  rw [(stripped segment isOne).2] at again
  apply splitChain_of_scan again
  · apply Protocol.visible_remainder
    rw [(stripped segment isOne).2]
    exact some_ segment isOne
  · intro other member
    rcases List.mem_cons.mp member with isFirst | isOther
    · rw [isFirst]
      exact some_ segment isOne
    · exact some_ other (isLater other isOther)
  · rw [List.length_append] at few
    exact Nat.le_of_add_left_le few

/-! ## The shell's reading -/

/-- The segments between the unquoted and unescaped `&&`, `||` and `;` of a line; `none` where
an unquoted ampersand stands alone. -/
def segmentsAt (operator : Operator) (current : Str) : List Symbol → Option (List Segment)
  | [] => some [⟨operator, Text.strip current⟩]
  | ('&', .plain) :: ('&', .plain) :: rest =>
      (segmentsAt .and [] rest).map (⟨operator, Text.strip current⟩ :: ·)
  | ('|', .plain) :: ('|', .plain) :: rest =>
      (segmentsAt .or [] rest).map (⟨operator, Text.strip current⟩ :: ·)
  | (';', .plain) :: rest =>
      (segmentsAt .semicolon [] rest).map (⟨operator, Text.strip current⟩ :: ·)
  | ('&', .plain) :: _ => none
  | symbol :: rest => segmentsAt operator (current ++ [symbol.1]) rest

/-- A line that ends here ends inside quotes. -/
def isOpen : Quoting → Bool
  | .single | .double | .escapedInDouble => true
  | .plain | .escaped => false

def quotingAfter (quoting : Quoting) (text : Str) : Quoting := text.foldl Quoting.next quoting

theorem segmentsAt_operator {next : Operator} (joins : next ≠ .start) (operator : Operator)
    (current rest : Str) :
    segmentsAt operator current (annotateFrom .plain (next.text ++ rest)) =
      (segmentsAt next [] (annotateFrom .plain rest)).map
        (⟨operator, Text.strip current⟩ :: ·) := by
  cases next with
  | start => exact absurd rfl joins
  | and => simp [Operator.text, annotateFrom, Quoting.next, segmentsAt]
  | or => simp [Operator.text, annotateFrom, Quoting.next, segmentsAt]
  | semicolon => simp [Operator.text, annotateFrom, Quoting.next, segmentsAt]

theorem segmentsAt_lone {rest : Str} (alone : rest.head? ≠ some '&') (operator : Operator)
    (current : Str) : segmentsAt operator current (annotateFrom .plain ('&' :: rest)) = none := by
  cases rest with
  | nil => simp [annotateFrom, segmentsAt]
  | cons ch rest =>
      have differs : ch ≠ '&' := by simpa using alone
      simp [annotateFrom, segmentsAt, differs, Quoting.next]

theorem segmentsAt_step {quoting : Quoting} {ch : Char} {rest : Str}
    (plain : quoting = .plain → beginsOperator .plain ch rest = false) (operator : Operator)
    (current : Str) :
    segmentsAt operator current (annotateFrom quoting (ch :: rest)) =
      segmentsAt operator (current ++ [ch]) (annotateFrom (quoting.next ch) rest) := by
  by_cases isPlain : quoting = .plain
  · have notOne : ¬ (ch = ';' ∨ ch = '&' ∨ ch = '|' ∧ rest.head? = some '|') := by
      simpa [beginsOperator] using plain isPlain
    rw [not_or, not_or] at notOne
    rcases notOne with ⟨notSemicolon, notAmpersand, notBars⟩
    rw [isPlain]
    cases rest with
    | nil => simp [annotateFrom, segmentsAt, notSemicolon, notAmpersand]
    | cons next rest =>
        have notBars : ch = '|' → next ≠ '|' := by simpa using notBars
        simp only [annotateFrom]
        rw [segmentsAt]
        · intro later same _
          exact notAmpersand (congrArg Prod.fst same)
        · intro later same isNext
          exact notBars (congrArg Prod.fst same) (congrArg Prod.fst (List.cons.inj isNext).1)
        · intro same
          exact notSemicolon (congrArg Prod.fst same)
        · intro same
          exact notAmpersand (congrArg Prod.fst same)
  · simp only [annotateFrom]
    rw [segmentsAt]
    · intro later same _
      exact isPlain (congrArg Prod.snd same)
    · intro later same _
      exact isPlain (congrArg Prod.snd same)
    · intro same
      exact isPlain (congrArg Prod.snd same)
    · intro same
      exact isPlain (congrArg Prod.snd same)

/-- The symbols before the first unquoted ampersand that stands alone. -/
def beforeLone : List Symbol → List Symbol
  | [] => []
  | ('&', .plain) :: ('&', .plain) :: rest => ('&', .plain) :: ('&', .plain) :: beforeLone rest
  | ('&', .plain) :: _ => []
  | symbol :: rest => symbol :: beforeLone rest

theorem beforeLone_operator {next : Operator} (joins : next ≠ .start) (rest : Str) :
    beforeLone (annotateFrom .plain (next.text ++ rest)) =
      annotateFrom .plain next.text ++ beforeLone (annotateFrom .plain rest) := by
  cases next with
  | start => exact absurd rfl joins
  | and => simp [Operator.text, annotateFrom, Quoting.next, beforeLone]
  | or => simp [Operator.text, annotateFrom, Quoting.next, beforeLone]
  | semicolon => simp [Operator.text, annotateFrom, Quoting.next, beforeLone]

theorem beforeLone_step {quoting : Quoting} {ch : Char} {rest : Str}
    (plain : quoting = .plain → beginsOperator .plain ch rest = false) :
    beforeLone (annotateFrom quoting (ch :: rest)) =
      (ch, quoting) :: beforeLone (annotateFrom (quoting.next ch) rest) := by
  have other : (ch, quoting) ≠ ('&', .plain) := by
    intro same
    rcases Prod.mk.inj same with ⟨ampersand, isPlain⟩
    have none_ := plain isPlain
    rw [ampersand] at none_
    simp [beginsOperator] at none_
  rw [annotateFrom, beforeLone]
  · intro later same _
    exact other same
  · exact other

theorem beforeLone_lone {rest : Str} (alone : rest.head? ≠ some '&') :
    beforeLone (annotateFrom .plain ('&' :: rest)) = [] := by
  cases rest with
  | nil => simp [annotateFrom, beforeLone]
  | cons ch rest =>
      have differs : ch ≠ '&' := by simpa using alone
      simp [annotateFrom, beforeLone, differs, Quoting.next]

/-- The scanner and the shell are inside the same quotes. -/
inductive Agree : ScanMode → Quoting → Prop
  | plain : Agree .plain .plain
  | escaped : Agree .escaped .escaped
  | single : Agree (.quoted '\'') .single
  | double : Agree (.quoted '"') .double
  | escapedInDouble : Agree (.quoted '"') .escapedInDouble

theorem Agree.next {mode : ScanMode} {quoting : Quoting} (agree : Agree mode quoting) {ch : Char}
    (free : ¬ (ch = '"' ∧ quoting = .escapedInDouble)) :
    Agree (mode.next ch) (quoting.next ch) := by
  cases agree with
  | plain =>
      simp only [ScanMode.next, Quoting.next]
      by_cases single : ch = '\''
      · rw [if_pos (.inl single), if_pos single, single]
        exact .single
      · rw [if_neg single]
        by_cases double : ch = '"'
        · rw [if_pos (.inr double), if_pos double, double]
          exact .double
        · rw [if_neg (not_or.mpr ⟨single, double⟩), if_neg double]
          split
          · exact .escaped
          · exact .plain
  | escaped => exact .plain
  | single =>
      simp only [ScanMode.next, Quoting.next]
      split
      · exact .plain
      · exact .single
  | double =>
      simp only [ScanMode.next, Quoting.next]
      split
      · exact .plain
      · split
        · exact .escapedInDouble
        · exact .double
  | escapedInDouble =>
      have differs : ch ≠ '"' := fun same => free ⟨same, rfl⟩
      rw [ScanMode.next, if_neg differs]
      exact .double

theorem Agree.reading {mode : ScanMode} {quoting : Quoting} (agree : Agree mode quoting) :
    mode ≠ .operatorTail := by
  cases agree with
  | plain => exact ScanMode.noConfusion
  | escaped => exact ScanMode.noConfusion
  | single => exact ScanMode.noConfusion
  | double => exact ScanMode.noConfusion
  | escapedInDouble => exact ScanMode.noConfusion

theorem Agree.plain_iff {mode : ScanMode} {quoting : Quoting} (agree : Agree mode quoting) :
    mode = .plain ↔ quoting = .plain := by
  cases agree with
  | plain => exact iff_of_true rfl rfl
  | escaped => exact iff_of_false ScanMode.noConfusion Quoting.noConfusion
  | single => exact iff_of_false ScanMode.noConfusion Quoting.noConfusion
  | double => exact iff_of_false ScanMode.noConfusion Quoting.noConfusion
  | escapedInDouble => exact iff_of_false ScanMode.noConfusion Quoting.noConfusion

theorem quotingAfter_operator (next : Operator) (rest : Str) :
    quotingAfter .plain (next.text ++ rest) = quotingAfter .plain rest := by
  cases next with
  | start => rfl
  | and => rfl
  | or => rfl
  | semicolon => rfl

theorem scanChain_eq {mode : ScanMode} {quoting : Quoting} (agree : Agree mode quoting)
    {text : Str} (free : ('"', Quoting.escapedInDouble) ∉ beforeLone (annotateFrom quoting text))
    (operator : Operator) (current : Str) :
    scanChain id mode operator current text =
      if isOpen (quotingAfter quoting text) then none
      else segmentsAt operator current (annotateFrom quoting text) := by
  induction length : text.length using Nat.strong_induction_on
    generalizing mode quoting text operator current with
  | _ count induction =>
      cases text with
      | nil =>
          cases agree with
          | plain => rfl
          | escaped => rfl
          | single => rfl
          | double => rfl
          | escapedInDouble => rfl
      | cons ch rest =>
          have shorter : rest.length < count := by
            rw [← length]
            exact Nat.lt_succ_self _
          cases begins : beginsOperator mode ch rest with
          | false =>
              have plain : quoting = .plain → beginsOperator .plain ch rest = false := by
                intro isPlain
                rw [agree.plain_iff.mpr isPlain] at begins
                exact begins
              rw [beforeLone_step plain, List.mem_cons, not_or] at free
              have unescaped : ¬ (ch = '"' ∧ quoting = .escapedInDouble) := by
                rintro ⟨rfl, rfl⟩
                exact free.1 rfl
              rw [scan_step agree.reading begins, segmentsAt_step plain]
              exact induction rest.length shorter (agree.next unescaped) free.2 operator _ rfl
          | true =>
              have isPlain : mode = .plain := (of_decide_eq_true begins).1
              have alsoPlain : quoting = .plain := agree.plain_iff.mp isPlain
              rw [isPlain] at begins
              rw [isPlain, alsoPlain]
              rw [alsoPlain] at free
              rcases begins_cases begins with ⟨next, later, joins, isText⟩ | ⟨ampersand, alone⟩
              · have shorter : later.length < count := by
                  rw [← length, isText, List.length_append]
                  exact Nat.lt_add_of_pos_left (joins_text joins)
                rw [isText, beforeLone_operator joins, List.mem_append, not_or] at free
                rw [isText, scan_operator joins, segmentsAt_operator joins, quotingAfter_operator,
                  induction later.length shorter .plain free.2 next [] rfl]
                split
                · rfl
                · rfl
              · rw [ampersand, scan_lone alone, segmentsAt_lone alone]
                split
                · rfl
                · rfl

/-- Where a chain is split it is split as the shell reads it, and its segments, from any of
them on, are those of the line that they are joined to; and a line that is not split has an
open quote, an ampersand that stands alone, an empty segment, or too many segments. -/
def SplitRight (line : Str) : Prop :=
  match splitChain line with
  | some segments =>
      segmentsAt .start [] (annotate line) = some segments ∧
        ∀ before segment rest, segments = before ++ segment :: rest →
          splitChain (remainder segment.command rest) = some (⟨.start, segment.command⟩ :: rest)
  | none =>
      isOpen (quotingAfter .plain line) = true ∨ segmentsAt .start [] (annotate line) = none ∨
        ∃ segments, segmentsAt .start [] (annotate line) = some segments ∧
          ((∃ segment ∈ segments, segment.command = []) ∨ MAX_SEGMENTS < segments.length)

/-- Behind the first quote that is escaped in double quotes, if no ampersand stands alone before
it, the scanner reads on outside quotes. -/
theorem scan_escaped {mode : ScanMode} {quoting : Quoting} (agree : Agree mode quoting) {text : Str}
    (escaped : ('"', Quoting.escapedInDouble) ∈ beforeLone (annotateFrom quoting text))
    (operator : Operator) (current : Str) :
    ∃ before rest, text = before ++ '"' :: rest ∧ quotingAfter quoting before = .escapedInDouble ∧
      ∃ segments last unfinished, scanChain id mode operator current text =
        (scanChain id .plain last unfinished rest).map (segments ++ ·) := by
  induction length : text.length using Nat.strong_induction_on
    generalizing mode quoting text operator current with
  | _ count induction =>
      cases text with
      | nil => cases escaped
      | cons ch rest =>
          have shorter : rest.length < count := by
            rw [← length]
            exact Nat.lt_succ_self _
          cases begins : beginsOperator mode ch rest with
          | false =>
              have plain : quoting = .plain → beginsOperator .plain ch rest = false := by
                intro isPlain
                rw [agree.plain_iff.mpr isPlain] at begins
                exact begins
              rw [scan_step agree.reading begins]
              by_cases here : ch = '"' ∧ quoting = .escapedInDouble
              · rcases here with ⟨rfl, rfl⟩
                cases agree with
                | escapedInDouble =>
                    refine ⟨[], rest, rfl, rfl, [], operator, current ++ ['"'], ?_⟩
                    simp [ScanMode.next]
              · have elsewhere : ('"', Quoting.escapedInDouble) ≠ (ch, quoting) := by
                  intro same
                  rcases Prod.mk.inj same with ⟨isQuote, isEscaped⟩
                  exact here ⟨isQuote.symm, isEscaped.symm⟩
                rw [beforeLone_step plain, List.mem_cons, or_iff_right elsewhere] at escaped
                rcases induction rest.length shorter (agree.next here) escaped operator
                  (current ++ [ch]) rfl with ⟨before, later, isRest, isEscaped, found⟩
                exact ⟨ch :: before, later, by rw [isRest]; rfl, isEscaped, found⟩
          | true =>
              have isPlain : mode = .plain := (of_decide_eq_true begins).1
              have alsoPlain : quoting = .plain := agree.plain_iff.mp isPlain
              subst isPlain alsoPlain
              rcases begins_cases begins with ⟨next, later, joins, isText⟩ | ⟨ampersand, alone⟩
              · have shorter : later.length < count := by
                  rw [← length, isText, List.length_append]
                  exact Nat.lt_add_of_pos_left (joins_text joins)
                rw [isText, beforeLone_operator joins, List.mem_append, or_iff_right] at escaped
                · rcases induction later.length shorter .plain escaped next [] rfl with
                    ⟨before, rest_, isLater, isEscaped, segments, last, unfinished, found⟩
                  refine ⟨next.text ++ before, rest_, ?_, ?_, finishSegment id operator current :: segments,
                    last, unfinished, ?_⟩
                  · rw [isText, isLater, List.append_assoc]
                  · rw [quotingAfter_operator]
                    exact isEscaped
                  · rw [isText, scan_operator joins, found, Option.map_map]
                    rfl
                · cases next with
                  | start => exact absurd rfl joins
                  | and => decide
                  | or => decide
                  | semicolon => decide
              · rw [ampersand, beforeLone_lone alone] at escaped
                cases escaped

end CmdChain

end LlmHoneypot
