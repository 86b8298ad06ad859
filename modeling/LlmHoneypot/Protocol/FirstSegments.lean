import LlmHoneypot.ChainSplitting
import LlmHoneypot.Protocol.SimpleCommands

/-! # Mutations of a line

The mutations of a line against those of its first segment, and those of a simple command
against what it changes. -/

namespace LlmHoneypot

namespace Protocol

open CmdChain CmdParser Spelling

/-! ## The first segment of a chain -/

theorem scan_head {mode : ScanMode} (reading : mode ≠ .operatorTail) {operator : Operator}
    {current text : Str} {first : Segment} {others : List Segment}
    (scanned : scanChain id mode operator current text = some (first :: others)) :
    ∃ before rest, text = before ++ rest ∧
      first = finishSegment id operator (current ++ before) ∧
        (rest = [] ∨ ∃ next : Operator, next ≠ .start ∧ next.text <+: rest) := by
  induction text generalizing mode current with
  | nil =>
      have finished : first = finishSegment id operator current := by
        cases mode with
        | plain => exact (List.cons.inj (Option.some.inj scanned)).1.symm
        | escaped => exact (List.cons.inj (Option.some.inj scanned)).1.symm
        | quoted quote => cases scanned
        | operatorTail => exact absurd rfl reading
      apply Exists.intro []
      apply Exists.intro []
      exact ⟨rfl, finished.trans (by rw [List.append_nil]), .inl rfl⟩
  | cons ch rest induction =>
      cases begins : beginsOperator mode ch rest with
      | false =>
          rw [scan_step reading begins] at scanned
          rcases induction (mode.next_reading ch) scanned with ⟨before, later, isRest, isFirst, ends⟩
          apply Exists.intro (ch :: before)
          apply Exists.intro later
          rw [isRest]
          apply And.intro rfl
          rw [List.append_assoc] at isFirst
          exact ⟨isFirst, ends⟩
      | true =>
          have isPlain : mode = .plain := (of_decide_eq_true begins).1
          rw [isPlain] at begins scanned
          rcases begins_cases begins with ⟨next, later, joins, isText⟩ | ⟨ampersand, alone⟩
          · apply Exists.intro []
            apply Exists.intro (ch :: rest)
            apply And.intro rfl
            constructor
            · rw [isText, scan_operator joins] at scanned
              rcases Option.map_eq_some_iff.mp scanned with ⟨found, -, isSegments⟩
              rw [List.append_nil]
              exact (List.cons.inj isSegments).1.symm
            · apply Or.inr
              apply Exists.intro next
              rw [isText]
              exact ⟨joins, List.prefix_append ..⟩
          · rw [ampersand, scan_lone alone] at scanned
            cases scanned

theorem splitChain_head {line : Str} {first : Segment} {others : List Segment}
    (accepted : splitChain line = some (first :: others)) :
    ∃ before rest, line = before ++ rest ∧ first.command = Text.strip before ∧
      (rest = [] ∨ ∃ next : Operator, next ≠ .start ∧ next.text <+: rest) := by
  rcases scan_head ScanMode.noConfusion (splitChain_eq_some accepted).1 with
    ⟨before, rest, isLine, isFirst, ends⟩
  exact ⟨before, rest, isLine, congrArg SegmentOf.command isFirst, ends⟩

def CutsAt (separator text : Str) : Prop :=
  ∃ earlier later, SEPARATORS = earlier ++ separator :: later ∧ separator <:+: text ∧
    ∀ other ∈ earlier, ¬ other <:+: text

/-- The parser's cut leaves the same of the line and of its first segment. -/
inductive CutAlike (line segment : Str) : Prop
  /-- No text of a separator occurs. -/
  | whole (free : ∀ separator ∈ SEPARATORS, ¬ separator <:+: line)
  /-- None occurs in the segment, and the line is cut where the segment ends. -/
  | behind (separator before : Str) (cuts : CutsAt separator line)
      (first : Text.before? separator line = some before) (ends : Text.strip before = segment)
      (free : ∀ separator ∈ SEPARATORS, ¬ separator <:+: segment)
  /-- Both are cut within the segment. -/
  | within (separator : Str) (cuts : CutsAt separator line) (isInfix : separator <:+: segment)
      (apart : ¬ separator <:+: line.takeWhile Text.isSpace)

theorem before?_left {separator text found : Str} (at_ : Text.before? separator text = some found)
    (rest : Str) : Text.before? separator (text ++ rest) = some found := by
  induction text generalizing found with
  | nil =>
      simp only [Text.before?] at at_
      split at at_
      · rename_i isPrefix
        have empty : separator = [] := List.prefix_nil.mp (List.isPrefixOf_iff_prefix.mp isPrefix)
        rw [← Option.some.inj at_, empty]
        cases rest with
        | nil => rfl
        | cons ch rest => rfl
      · cases at_
  | cons ch text induction =>
      rw [List.cons_append]
      simp only [Text.before?] at at_ ⊢
      split at at_
      · rename_i isPrefix
        have longer : separator <+: ch :: (text ++ rest) :=
          (List.isPrefixOf_iff_prefix.mp isPrefix).trans (List.prefix_append (ch :: text) rest)
        rw [if_pos (List.isPrefixOf_iff_prefix.mpr longer)]
        exact at_
      · rename_i notPrefix
        rcases Option.map_eq_some_iff.mp at_ with ⟨tail, tailFound, isFound⟩
        rw [if_neg, induction tailFound, ← isFound]
        · rfl
        · intro isPrefix
          apply notPrefix
          rcases Text.before?_append tailFound with ⟨behind, isText, begins⟩
          have short : separator.length ≤ (ch :: text).length := by
            apply begins.length_le.trans
            rw [isText, List.length_cons, List.length_append]
            omega
          apply List.isPrefixOf_iff_prefix.mpr
          exact List.prefix_of_prefix_length_le (List.isPrefixOf_iff_prefix.mp isPrefix)
            (List.prefix_append (ch :: text) rest) short

theorem before?_right {separator lead : Str} (started : separator ≠ [])
    (apart : ∀ ch ∈ separator.head?, ch ∉ lead) (text : Str) :
    Text.before? separator (lead ++ text) = (Text.before? separator text).map (lead ++ ·) := by
  induction lead with
  | nil => simp
  | cons ch lead induction =>
      have later := induction fun other head member => apart other head (List.mem_cons_of_mem _ member)
      rcases List.exists_cons_of_ne_nil started with ⟨first, more, isCons⟩
      rw [List.cons_append, Text.before?, if_neg, later, Option.map_map]
      · rfl
      · intro isPrefix
        have begins := List.isPrefixOf_iff_prefix.mp isPrefix
        rw [isCons] at begins
        apply apart first (by rw [isCons]; rfl)
        rw [(List.cons_prefix_cons.mp begins).1]
        exact List.mem_cons_self ..

theorem splitFirstCommand_at {separator text found : Str} {earlier later : List Str}
    (order : SEPARATORS = earlier ++ separator :: later)
    (none : ∀ other ∈ earlier, ¬ other <:+: text)
    (first : Text.before? separator text = some found) : splitFirstCommand text = found := by
  have skipped : earlier.findSome? (Text.before? · text) = Option.none := by
    apply List.findSome?_eq_none_iff.mpr
    intro other member
    exact Text.before?_eq_none_iff.mpr (none other member)
  rw [splitFirstCommand, Text.beforeFirstOf, order, List.findSome?_append, skipped,
    Option.none_or, List.findSome?_cons, first]
  rfl

theorem separator_cases {separator : Str} (member : separator ∈ SEPARATORS) :
    separator = "\n".toList ∨ separator ≠ [] ∧
      separator.head?.all (!Text.isSpace ·) = true := by
  revert separator
  decide

theorem strip_isInfix (text : Str) : Text.strip text <:+: text :=
  (List.rdropWhile_prefix _ _).isInfix.trans (List.dropWhile_suffix _).isInfix

theorem operator_separator {next : Operator} (joins : next ≠ .start) : next.text ∈ SEPARATORS := by
  revert joins
  cases next <;> decide

theorem CutAlike.cut {line : Str} {first : Segment} {others : List Segment}
    (alike : CutAlike line first.command) (accepted : splitChain line = some (first :: others)) :
    Text.strip (splitFirstCommand line) = Text.strip (splitFirstCommand first.command) := by
  rcases splitChain_head accepted with ⟨before, rest, isLine, isFirst, ends⟩
  have stripped : Text.strip first.command = first.command := by
    rw [isFirst, Text.strip_strip]
  cases alike with
  | whole free =>
      have isEnd : rest = [] := by
        rcases ends with isEnd | ⟨next, joins, begins⟩
        · exact isEnd
        · apply absurd _ (free next.text (operator_separator joins))
          rw [isLine]
          exact begins.isInfix.trans (List.suffix_append ..).isInfix
      have freeFirst : ∀ separator ∈ SEPARATORS, ¬ separator <:+: first.command := by
        intro separator member isInfix
        apply free separator member
        rw [isLine, isEnd, List.append_nil]
        rw [isFirst] at isInfix
        exact isInfix.trans (strip_isInfix before)
      rw [splitFirstCommand_whole free, splitFirstCommand_whole freeFirst, stripped, isFirst,
        isLine, isEnd, List.append_nil]
  | behind separator found cuts at_ cutEnds free =>
      rcases cuts with ⟨earlier, later, order, -, none⟩
      rw [splitFirstCommand_at order none at_, splitFirstCommand_whole free, stripped, cutEnds]
  | within separator cuts isInfix apart =>
      rcases cuts with ⟨earlier, later, order, -, none⟩
      have member : separator ∈ SEPARATORS := by
        rw [order]
        exact List.mem_append_right _ (List.mem_cons_self ..)
      have lead : before = before.takeWhile Text.isSpace ++ Text.lstrip before :=
        (List.takeWhile_append_dropWhile ..).symm
      have trail : Text.lstrip before =
          first.command ++ (Text.lstrip before).rtakeWhile Text.isSpace := by
        rw [isFirst]
        exact (List.rdropWhile_append_rtakeWhile ..).symm
      have whole : line = before.takeWhile Text.isSpace ++
          (first.command ++ ((Text.lstrip before).rtakeWhile Text.isSpace ++ rest)) := by
        calc line
          _ = before ++ rest := isLine
          _ = (before.takeWhile Text.isSpace ++ Text.lstrip before) ++ rest := by rw [← lead]
          _ = before.takeWhile Text.isSpace ++ (first.command ++
              (Text.lstrip before).rtakeWhile Text.isSpace ++ rest) := by
            rw [List.append_assoc, ← trail]
          _ = _ := by rw [List.append_assoc]
      have spaces : ∀ ch ∈ before.takeWhile Text.isSpace, Text.isSpace ch = true :=
        fun ch member => List.mem_takeWhile_imp member
      have noneFirst : ∀ other ∈ earlier, ¬ other <:+: first.command := by
        intro other among isInfix
        apply none other among
        rw [whole]
        exact isInfix.trans ⟨_, _, List.append_assoc ..⟩
      have started : separator ≠ [] ∧ ∀ ch ∈ separator.head?, ch ∉ before.takeWhile Text.isSpace := by
        rcases separator_cases member with isLineEnd | ⟨some, visible⟩
        · rw [isLineEnd]
          apply And.intro (by decide)
          intro ch head inLead
          apply apart
          rw [isLineEnd]
          apply (List.singleton_infix_iff '\n' _).mpr
          have same : '\n' = ch := Option.some.inj head
          rw [same, isLine, List.takeWhile_append]
          split
          · rename_i all
            rw [(List.takeWhile_prefix _).eq_of_length all] at inLead
            exact List.mem_append_left _ inLead
          · exact inLead
        · apply And.intro some
          intro ch head inLead
          rw [head] at visible
          have notSpace : (!Text.isSpace ch) = true := visible
          rw [spaces ch inLead] at notSpace
          cases notSpace
      cases at_ : Text.before? separator first.command with
      | none => exact absurd isInfix (Text.before?_eq_none_iff.mp at_)
      | some found =>
          have atLine : Text.before? separator line =
              some (before.takeWhile Text.isSpace ++ found) := by
            rw [whole, before?_right started.1 started.2, before?_left at_]
            rfl
          rw [splitFirstCommand_at order none atLine, splitFirstCommand_at order noneFirst at_,
            Text.strip, Text.strip, Text.lstrip, Text.lstrip, List.dropWhile_append_of_pos spaces]

theorem parse_alike {line : Str} {first : Segment} {others : List Segment}
    (accepted : splitChain line = some (first :: others)) (foreground : parseBackground line = none)
    (foregroundFirst : parseBackground first.command = none) (alike : CutAlike line first.command) :
    parseInputMutations line = parseInputMutations first.command := by
  simp only [parseInputMutations, foreground, foregroundFirst, alike.cut accepted]

/-! ## Lines in the background -/

section

variable {programs : Programs} {process : Str}

theorem notMem_mutations {changed : List CmdMutation} (other : .addProcess process ∉ changed) :
    .mutation (.addProcess process) ∉ changed.map Effect.mutation := by
  intro member
  rcases List.mem_map.mp member with ⟨mutation, among, same⟩
  rw [Effect.mutation.inj same] at among
  exact other among

theorem notMem_map {Item Made : Type} {made : Made} {make : Item → Made} (items : List Item)
    (other : ∀ item, make item ≠ made) : made ∉ items.map make := by
  intro member
  rcases List.mem_map.mp member with ⟨item, -, same⟩
  exact other item same

theorem operandEffects_foreground (verb : OperandVerb) (args : List Str) :
    .addProcess process ∉ operandEffects verb args := by
  cases verb with
  | touch => exact notMem_map _ fun _ => CmdMutation.noConfusion
  | rm => exact notMem_map _ fun _ => CmdMutation.noConfusion
  | cp => exact notMem_map _ fun _ => CmdMutation.noConfusion
  | mv => exact notMem_map _ fun _ => CmdMutation.noConfusion

theorem setEffects_foreground (assigned : List (Str × Str)) :
    .mutation (.addProcess process) ∉ (setEffects assigned).map Effect.mutation :=
  notMem_mutations (notMem_map _ fun _ => CmdMutation.noConfusion)

theorem utilityEffects_foreground (name : Str) (args : List Str) :
    .mutation (.addProcess process) ∉ utilityEffects programs name args := by
  unfold utilityEffects
  split
  · exact notMem_mutations (operandEffects_foreground _ args)
  split
  · exact List.not_mem_nil
  split
  · exact notMem_map _ fun _ => Effect.noConfusion
  split
  · exact notMem_map _ fun _ => Effect.noConfusion
  split
  · exact notMem_map _ fun _ same => CmdMutation.noConfusion (Effect.mutation.inj same)
  · exact programs.foreground name args process

theorem otherUserEffects_foreground (entering : Option Str) (command : List Str) :
    .mutation (.addProcess process) ∉ otherUserEffects programs entering command := by
  unfold otherUserEffects
  split
  · apply notMem_mutations
    intro member
    unfold switchEffects at member
    split at member
    · exact CmdMutation.noConfusion (List.mem_singleton.mp member)
    · cases member
  · exact List.not_mem_nil
  · exact fun member => utilityEffects_foreground _ _ (List.mem_of_mem_filter member)

theorem nameEffects_foreground (redirected : Bool) (name : Str) (args : List Str) :
    .mutation (.addProcess process) ∉ nameEffects programs redirected name args := by
  unfold nameEffects
  split
  · exact setEffects_foreground _
  split
  · split
    · exact List.not_mem_nil
    · exact notMem_map _ fun _ => Effect.noConfusion
  split
  · exact otherUserEffects_foreground _ _
  split
  · exact otherUserEffects_foreground _ _
  · exact utilityEffects_foreground name args

theorem effects_foreground (emitted : Emitted) (command : SimpleCommand) :
    .mutation (.addProcess process) ∉ effects programs emitted command := by
  intro member
  rcases List.mem_append.mp member with redirected | named
  · rcases List.mem_filterMap.mp redirected with ⟨redirection, -, effect⟩
    unfold redirectionEffect at effect
    split at effect
    · cases effect
    · cases effect
    · cases effect
    · cases effect
  · split at named
    · exact setEffects_foreground _ named
    · exact nameEffects_foreground _ _ _ named

theorem foreground_of_told {emitted : Emitted} {command : SimpleCommand}
    (told : Told programs emitted command) : parseBackground command.text = none := by
  rw [Option.eq_none_iff_forall_ne_some]
  intro mutation found
  have parsed : parseInputMutations command.text = [mutation] := by
    simp only [parseInputMutations, found]
  rw [Told, parsed, List.map_singleton] at told
  simp only [parseBackground, Option.ite_none_left_eq_some, Option.some.injEq] at found
  rw [← found.2.2] at told
  apply effects_foreground emitted command
  rw [← told]
  exact List.mem_singleton_self _

end

def touchLine : Line where
  lead := []
  command := .ofPlain "touch".toList (by decide)
  args := [(⟨[' '], space_started, blank_space⟩,
    ⟨[.single "a b".toList], by decide, by decide, by decide⟩)]
  trail := []
  leadBlank := blank_none
  trailBlank := blank_none

theorem legible_touchLine : LegibleLine touchLine := by
  constructor
  · constructor
    · decide
    · decide
    · intro ch last
      have isLast : '\'' = ch := Option.some.inj last
      rw [← isLast]
      decide
  · intro word member
    rcases List.mem_cons.mp member with same | later
    · rw [same]
      show ∀ piece ∈ touchLine.command.pieces, LegiblePiece piece
      decide
    · rw [List.mem_singleton.mp later]
      intro piece inWord
      rw [List.mem_singleton.mp inWord]
      exact trivial

/-- `tee` writes its operands. -/
def teePrograms : Programs where
  changes name args :=
    if name = "tee".toList then (operands args).map (.mutation <| .createFile · []) else []
  foreground := by
    intro name args process
    split
    · exact notMem_map _ fun _ same => CmdMutation.noConfusion (Effect.mutation.inj same)
    · exact List.not_mem_nil

def unlinkLine : Line where
  lead := []
  command := .ofPlain "unlink".toList (by decide)
  args := [(⟨[' '], space_started, blank_space⟩, .ofPlain "f".toList (by decide))]
  trail := []
  leadBlank := blank_none
  trailBlank := blank_none

end Protocol

end LlmHoneypot
