import LlmHoneypot.Foundation.EchoBuiltin
import LlmHoneypot.Foundation.EscapeDecode
import LlmHoneypot.Foundation.Getopt
import LlmHoneypot.Foundation.Joined
import LlmHoneypot.Foundation.Replacement
import LlmHoneypot.Foundation.Utf8Ascii

/-! # echo

`Command_echo` of `commands/base.py`, beside bash's `echo`. -/

namespace LlmHoneypot

namespace Echo

open Utf8 EscapeDecode EchoBuiltin

/-! ## The command -/

structure Flags where
  newline : Bool := true
  escapeDecode : Bool := false
  deriving DecidableEq

def Flags.option (flags : Flags) (opt : Getopt.Given) : Flags :=
  if opt.1 = ['-', 'e'] then { flags with escapeDecode := true }
  else if opt.1 = ['-', 'E'] then { flags with escapeDecode := false }
  else if opt.1 = ['-', 'n'] then { flags with newline := false }
  else flags

/-- What the lookahead `(?=\\|\"|\'|\s|$)` accepts. -/
def isBoundary : Str → Bool
  | [] => true
  | ch :: _ => ch = '\\' || ch = '"' || ch = '\'' || Text.isSpace ch

/-- The substitution of `\xH` by `\x0H`; whether a backslash stands before the text. -/
def padHex : (slashed : Bool) → Str → Str
  | _, [] => []
  | true, 'x' :: digit :: behind =>
      if isHexDigit digit ∧ isBoundary behind then
        'x' :: '0' :: digit :: padHex false behind
      else
        'x' :: padHex false (digit :: behind)
  | _, ch :: rest => ch :: padHex (ch = '\\') rest

def finish (newline : Bool) (text : Str) : Str :=
  let string := padHex false (Text.replace ['\\', '\\', 'x'] ['\\', 'x'] text)
  if ['\\', 'c'] <:+ string then
    string.take (string.length - 2)
  else
    string ++ if newline then ['\n'] else []

/-- `call`: what is written, `none` where the `ValueError` of a bad escape is logged instead. -/
def call (args : List Str) : Option Bytes :=
  let (flags, args) :=
    match Getopt.getopt false ['e', 'E', 'n'] [] args with
    | .ok (optlist, operands) => (optlist.foldl Flags.option {}, operands)
    | .error _ => ({}, args)
  let string := finish flags.newline (Text.join [' '] args)
  if flags.escapeDecode then escapeDecode (encode string) else some (encode string)

/-! ## Options -/

def given (letters : Str) : Flags :=
  { newline := !letters.contains 'n'
    escapeDecode := (letters.filter (· ≠ 'n')).getLast? = some 'e' }

theorem foldl_option (letters : Str) (known : ∀ letter ∈ letters, letter ∈ ['n', 'e', 'E']) :
    (letters.map fun letter => (['-', letter], [])).foldl Flags.option {} = given letters := by
  induction letters using List.reverseRecOn with
  | nil => rfl
  | append_singleton letters letter induction =>
      rw [List.map_append, List.foldl_append,
        induction fun other member => known other (List.mem_append_left _ member)]
      have last := known letter (List.mem_append_right _ (List.mem_singleton_self letter))
      simp only [List.mem_cons, List.not_mem_nil, or_false] at last
      rcases last with isLetter | isLetter | isLetter
      · subst letter
        simp [Flags.option, given, List.filter_append]
      · subst letter
        simp [Flags.option, given, List.filter_append]
      · subst letter
        simp [Flags.option, given, List.filter_append]

theorem isOption_cons {word : Str} (isOption : isOption word = true) :
    ∃ first letters, word = '-' :: first :: letters ∧
      ∀ letter ∈ first :: letters, letter ∈ ['n', 'e', 'E'] := by
  cases word with
  | nil => cases isOption
  | cons dash letters =>
      simp only [EchoBuiltin.isOption, List.head?_cons, Option.some.injEq, List.tail_cons,
        Bool.and_eq_true, decide_eq_true_eq, List.all_eq_true] at isOption
      cases letters with
      | nil => cases isOption.1.2
      | cons first letters =>
          refine ⟨first, letters, by rw [isOption.1.1], fun letter member => ?_⟩
          have known := isOption.2 letter member
          rcases List.mem_cons.mp (List.contains_iff_mem.mp known) with isN | others
          · exact List.mem_cons.mpr (.inl isN)
          · exact List.mem_cons_of_mem _ others

theorem shortHasArg_known {letter : Char} (known : letter ∈ ['n', 'e', 'E']) :
    Getopt.shortHasArg letter ['e', 'E', 'n'] = some false := by
  simp only [List.mem_cons, List.not_mem_nil, or_false] at known
  rcases known with isLetter | isLetter | isLetter
  · rw [isLetter]
    rfl
  · rw [isLetter]
    rfl
  · rw [isLetter]
    rfl

theorem takeShorts_known {letters : Str} (known : ∀ letter ∈ letters, letter ∈ ['n', 'e', 'E']) :
    Getopt.takeShorts ['e', 'E', 'n'] letters =
      .ok { options := letters.map fun letter => (['-', letter], []) } := by
  induction letters with
  | nil => rfl
  | cons letter letters induction =>
      have first := known letter List.mem_cons_self
      rw [Getopt.takeShorts, shortHasArg_known first]
      simp only [induction fun other member => known other (List.mem_cons_of_mem _ member)]
      rfl

theorem takeShorts_unknown {letters : Str}
    (unknown : ∃ letter ∈ letters, letter ∉ ['n', 'e', 'E']) :
    ∃ name, Getopt.takeShorts ['e', 'E', 'n'] letters = .error name := by
  induction letters with
  | nil =>
      rcases unknown with ⟨letter, member, _⟩
      cases member
  | cons letter letters induction =>
      by_cases isKnown : letter ∈ ['n', 'e', 'E']
      · rcases unknown with ⟨other, member, isUnknown⟩
        have later : other ∈ letters :=
          (List.mem_cons.mp member).resolve_left fun same => isUnknown (same ▸ isKnown)
        rcases induction ⟨other, later, isUnknown⟩ with ⟨name, isError⟩
        refine ⟨name, ?_⟩
        rw [Getopt.takeShorts, shortHasArg_known isKnown]
        simp only [isError]
        rfl
      · refine ⟨[letter], ?_⟩
        simp only [List.mem_cons, List.not_mem_nil, or_false, not_or] at isKnown
        have hasNone : Getopt.shortHasArg letter ['e', 'E', 'n'] = none := by
          simp [Getopt.shortHasArg, Ne.symm isKnown.1, Ne.symm isKnown.2.1, Ne.symm isKnown.2.2]
        rw [Getopt.takeShorts, hasNone]

theorem getopt_option {word : Str} (isOption : EchoBuiltin.isOption word = true)
    (args : List Str) :
    Getopt.getopt false ['e', 'E', 'n'] [] (word :: args) =
      (Getopt.getopt false ['e', 'E', 'n'] [] args).map fun later =>
        (word.tail.map (fun letter => (['-', letter], [])) ++ later.1, later.2) := by
  rcases isOption_cons isOption with ⟨first, letters, isWord, known⟩
  have notDash : first ≠ '-' := by
    intro isDash
    have isKnown := known first List.mem_cons_self
    rw [isDash] at isKnown
    exact absurd isKnown (by decide)
  have taken : Getopt.takeOption [] ['e', 'E', 'n'] word =
      .ok { options := (first :: letters).map fun letter => (['-', letter], []) } := by
    rw [isWord, ← takeShorts_known known]
    simp [Getopt.takeOption, notDash]
  rw [Getopt.getopt, Getopt.getoptFrom, if_neg, if_pos, taken, isWord]
  · rfl
  · simp [isWord]
  · simp [isWord, notDash]

/-- The command sees the options where the builtin sees them: the first word behind them does
not look like an option, or it is a bad option before which no other one stands. -/
def Understood (args : List Str) : Prop :=
  ∀ word ∈ (operands args).head?,
    word.head? ≠ some '-' ∨ word = ['-'] ∨ (options args = [] ∧ word ≠ ['-', '-'])

theorem getopt_plain {args : List Str}
    (plain : ∀ word ∈ args.head?, word.head? ≠ some '-' ∨ word = ['-']) :
    Getopt.getopt false ['e', 'E', 'n'] [] args = .ok ([], args) := by
  cases args with
  | nil => rfl
  | cons word args =>
      rw [Getopt.getopt, Getopt.getoptFrom]
      rcases plain word rfl with notDash | isDash
      · have notEnd : word ≠ ['-', '-'] := by
          intro isEnd
          exact notDash (by rw [isEnd]; rfl)
        simp [notDash, notEnd]
      · simp [isDash]

theorem getopt_bad {word : Str} (args : List Str) (dash : word.head? = some '-')
    (notDash : word ≠ ['-']) (notEnd : word ≠ ['-', '-'])
    (noOption : EchoBuiltin.isOption word = false) :
    ∃ name, Getopt.getopt false ['e', 'E', 'n'] [] (word :: args) = .error name := by
  have isBad : ∃ name, Getopt.takeOption [] ['e', 'E', 'n'] word = .error name := by
    cases word with
    | nil => cases dash
    | cons first letters =>
        have isDash : first = '-' := Option.some.inj dash
        subst isDash
        cases letters with
        | nil => exact absurd rfl notDash
        | cons second letters =>
            by_cases isLong : second = '-'
            · subst isLong
              exact ⟨_, rfl⟩
            · have unknown : ∃ letter ∈ second :: letters, letter ∉ ['n', 'e', 'E'] := by
                apply by_contra
                intro none
                have known : ∀ letter ∈ second :: letters, letter ∈ ['n', 'e', 'E'] :=
                  fun letter member => by_contra fun unknown => none ⟨letter, member, unknown⟩
                have option : EchoBuiltin.isOption ('-' :: second :: letters) = true := by
                  simp only [EchoBuiltin.isOption, List.head?_cons, List.tail_cons, ne_eq,
                    reduceCtorEq, not_false_eq_true, decide_true, Bool.true_and, Bool.and_true,
                    List.all_eq_true]
                  exact fun letter member =>
                    List.contains_iff_mem.mpr (show letter ∈ ['n', 'e', 'E'] from
                      known letter member)
                rw [option] at noOption
                cases noOption
              rcases takeShorts_unknown unknown with ⟨name, isError⟩
              refine ⟨name, ?_⟩
              rw [← isError]
              simp [Getopt.takeOption, isLong]
  rcases isBad with ⟨name, isError⟩
  refine ⟨name, ?_⟩
  have isTaken : word.head? = some '-' ∧ word ≠ "-".toList := ⟨dash, notDash⟩
  rw [Getopt.getopt, Getopt.getoptFrom, if_neg (show ¬ word = "--".toList from notEnd),
    if_pos isTaken, isError]

theorem getopt_options {options : List Str}
    (isOption : ∀ word ∈ options, EchoBuiltin.isOption word = true) (args : List Str) :
    Getopt.getopt false ['e', 'E', 'n'] [] (options ++ args) =
      (Getopt.getopt false ['e', 'E', 'n'] [] args).map fun later =>
        ((options.flatMap List.tail).map (fun letter => (['-', letter], [])) ++ later.1,
          later.2) := by
  induction options with
  | nil =>
      rw [List.nil_append]
      cases Getopt.getopt false ['e', 'E', 'n'] [] args with
      | ok later => rfl
      | error name => rfl
  | cons word options induction =>
      have both := List.forall_mem_cons.mp isOption
      rw [List.cons_append, getopt_option both.1, induction both.2]
      cases Getopt.getopt false ['e', 'E', 'n'] [] args with
      | ok later => simp [Except.map]
      | error name => rfl

theorem options_append_operands (args : List Str) : options args ++ operands args = args :=
  List.takeWhile_append_dropWhile

theorem isOption_of_mem {args : List Str} {word : Str} (member : word ∈ options args) :
    isOption word = true := List.mem_takeWhile_imp member

theorem known_letters (args : List Str) :
    ∀ letter ∈ letters args, letter ∈ ['n', 'e', 'E'] := by
  intro letter member
  rcases List.mem_flatMap.mp member with ⟨word, isMember, inWord⟩
  rcases isOption_cons (isOption_of_mem isMember) with ⟨first, others, isWord, known⟩
  rw [isWord] at inWord
  exact known letter inWord

theorem noOption_head {args : List Str} {word : Str} (first : word ∈ (operands args).head?) :
    isOption word = false := by
  have stops := List.head?_dropWhile_not isOption args
  rw [show args.dropWhile isOption = operands args from rfl, Option.mem_def.mp first] at stops
  simpa using stops

theorem getopt_understood {args : List Str}
    (plain : ∀ word ∈ (operands args).head?, word.head? ≠ some '-' ∨ word = ['-']) :
    Getopt.getopt false ['e', 'E', 'n'] [] args =
      .ok ((letters args).map fun letter => (['-', letter], []), operands args) := by
  have isOk := @getopt_options (options args) (fun _ => isOption_of_mem) (operands args)
  rw [options_append_operands, getopt_plain plain] at isOk
  rw [isOk]
  simp [Except.map, letters]

theorem getopt_end {args rest : List Str} (isEnd : operands args = ['-', '-'] :: rest) :
    Getopt.getopt false ['e', 'E', 'n'] [] args =
      .ok ((letters args).map fun letter => (['-', letter], []), rest) := by
  have isOk := @getopt_options (options args) (fun _ => isOption_of_mem) (operands args)
  have ends : Getopt.getopt false ['e', 'E', 'n'] [] (operands args) = .ok ([], rest) := by
    rw [isEnd, Getopt.getopt, Getopt.getoptFrom]
    exact if_pos rfl
  rw [options_append_operands, ends] at isOk
  rw [isOk]
  simp [Except.map, letters]

theorem getopt_error {args rest : List Str} {word : Str} (isFirst : operands args = word :: rest)
    (dash : word.head? = some '-') (notDash : word ≠ ['-']) (notEnd : word ≠ ['-', '-']) :
    ∃ name, Getopt.getopt false ['e', 'E', 'n'] [] args = .error name := by
  have noOption := @noOption_head args word (by rw [isFirst]; rfl)
  rcases getopt_bad rest dash notDash notEnd noOption with ⟨name, isError⟩
  have isBad := @getopt_options (options args) (fun _ => isOption_of_mem) (operands args)
  rw [options_append_operands, isFirst, isError] at isBad
  exact ⟨name, isBad⟩

/-! ## Texts as they stand -/

def Padded (text : Str) : Prop :=
  ∃ before digit behind, text = before ++ '\\' :: 'x' :: digit :: behind ∧
    isHexDigit digit = true ∧ isBoundary behind = true

structure Untouched (text : Str) : Prop where
  noDouble : ¬ ['\\', '\\', 'x'] <:+: text
  noDigit : ¬ Padded text
  noEnd : ¬ ['\\', 'c'] <:+ text

theorem Padded.cons {text : Str} (padded : Padded text) (ch : Char) : Padded (ch :: text) := by
  rcases padded with ⟨before, digit, behind, isText, isDigit, ends⟩
  exact ⟨ch :: before, digit, behind, by rw [isText]; rfl, isDigit, ends⟩

theorem Padded.of_cons {ch : Char} {text : Str} (padded : Padded (ch :: text))
    (notBackslash : ch ≠ '\\') : Padded text := by
  rcases padded with ⟨before, digit, behind, isText, isDigit, ends⟩
  cases before with
  | nil => exact absurd (List.cons.inj isText).1 notBackslash
  | cons other before => exact ⟨before, digit, behind, (List.cons.inj isText).2, isDigit, ends⟩

theorem isHexDigit_ne {digit : Char} (isDigit : isHexDigit digit = true) : digit ≠ '\\' := by
  intro isBackslash
  rw [isBackslash] at isDigit
  exact absurd isDigit (by decide)

def behindSlash (slashed : Bool) (text : Str) : Str := if slashed then '\\' :: text else text

def IsPlace (slashed : Bool) (text : Str) : Prop :=
  slashed = true ∧ ∃ digit behind, text = 'x' :: digit :: behind ∧
    isHexDigit digit = true ∧ isBoundary behind = true

theorem padHex_other {slashed : Bool} {ch : Char} {rest : Str}
    (other : ¬ IsPlace slashed (ch :: rest)) :
    padHex slashed (ch :: rest) = ch :: padHex (ch = '\\') rest := by
  rw [padHex.eq_def]
  split
  · contradiction
  · rename_i digit behind same
    rcases List.cons.inj same with ⟨isX, isRest⟩
    rw [if_neg fun isPlace => other ⟨rfl, digit, behind, same, isPlace.1, isPlace.2⟩, isX,
      isRest]
    rfl
  · rename_i same
    rcases List.cons.inj same with ⟨isCh, isRest⟩
    rw [isCh, isRest]

theorem padHex_place {digit : Char} {behind : Str} (isDigit : isHexDigit digit = true)
    (ends : isBoundary behind = true) :
    padHex true ('x' :: digit :: behind) = 'x' :: '0' :: digit :: padHex false behind := by
  rw [padHex.eq_def]
  exact if_pos ⟨isDigit, ends⟩

theorem padHex_induction {motive : Bool → Str → Prop} (nil : ∀ slashed, motive slashed [])
    (place : ∀ digit behind, isHexDigit digit = true → isBoundary behind = true →
      motive false behind → motive true ('x' :: digit :: behind))
    (other : ∀ slashed ch rest, ¬ IsPlace slashed (ch :: rest) → motive (ch = '\\') rest →
      motive slashed (ch :: rest))
    (slashed : Bool) (text : Str) : motive slashed text := by
  induction size : text.length using Nat.strong_induction_on generalizing slashed text with
  | _ bound induction =>
      cases text with
      | nil => exact nil slashed
      | cons ch rest =>
          by_cases isPlace : IsPlace slashed (ch :: rest)
          · rcases isPlace with ⟨isSlashed, digit, behind, isText, isDigit, ends⟩
            rw [isSlashed, isText]
            apply place digit behind isDigit ends
            apply induction behind.length _ false behind rfl
            rw [← size, isText, List.length_cons, List.length_cons]
            omega
          · apply other slashed ch rest isPlace
            apply induction rest.length _ _ rest rfl
            rw [← size, List.length_cons]
            exact Nat.lt_succ_self _

theorem padded_place {digit : Char} {behind : Str} (isDigit : isHexDigit digit = true)
    (ends : isBoundary behind = true) : Padded ('\\' :: 'x' :: digit :: behind) :=
  ⟨[], digit, behind, rfl, isDigit, ends⟩

theorem padded_other {slashed : Bool} {ch : Char} {rest : Str}
    (other : ¬ IsPlace slashed (ch :: rest)) :
    Padded (behindSlash slashed (ch :: rest)) ↔ Padded (behindSlash (ch = '\\') rest) := by
  have ofRest : Padded (ch :: rest) ↔ Padded (behindSlash (ch = '\\') rest) := by
    by_cases isBackslash : ch = '\\'
    · simp [behindSlash, isBackslash]
    · simp only [behindSlash, isBackslash, decide_false, Bool.false_eq_true, if_false]
      exact ⟨fun padded => padded.of_cons isBackslash, fun padded => padded.cons ch⟩
  rw [← ofRest]
  cases slashed with
  | false => rfl
  | true =>
      refine ⟨fun padded => ?_, fun padded => padded.cons '\\'⟩
      rcases padded with ⟨before, digit, behind, isText, isDigit, ends⟩
      cases before with
      | nil => exact absurd ⟨rfl, digit, behind, (List.cons.inj isText).2, isDigit, ends⟩ other
      | cons first before =>
          exact ⟨before, digit, behind, (List.cons.inj isText).2, isDigit, ends⟩

theorem length_padHex (slashed : Bool) (text : Str) :
    text.length ≤ (padHex slashed text).length ∧
      (Padded (behindSlash slashed text) → text.length < (padHex slashed text).length) := by
  induction slashed, text using padHex_induction with
  | nil slashed =>
      refine ⟨Nat.zero_le _, fun padded => ?_⟩
      rcases padded with ⟨before, digit, behind, isText, -⟩
      have length := congrArg List.length isText
      cases slashed with
      | false => simp [behindSlash] at length
      | true =>
          simp [behindSlash] at length
          omega
  | place digit behind isDigit ends induction =>
      rw [padHex_place isDigit ends]
      simp only [List.length_cons]
      exact ⟨by omega, fun _ => by omega⟩
  | other slashed ch rest other induction =>
      rw [padHex_other other, padded_other other]
      simp only [List.length_cons]
      exact ⟨by omega, fun padded => by have later := induction.2 padded; omega⟩

theorem padHex_eq (slashed : Bool) (text : Str) (notPadded : ¬ Padded (behindSlash slashed text)) :
    padHex slashed text = text := by
  induction slashed, text using padHex_induction with
  | nil slashed => cases slashed <;> rfl
  | place digit behind isDigit ends induction =>
      exact absurd (padded_place isDigit ends) notPadded
  | other slashed ch rest other induction =>
      rw [padded_other other] at notPadded
      rw [padHex_other other, induction notPadded]

theorem count_padHex {symbol : Char} (notZero : symbol ≠ '0') (slashed : Bool) (text : Str) :
    (padHex slashed text).count symbol = text.count symbol := by
  induction slashed, text using padHex_induction with
  | nil slashed => cases slashed <;> rfl
  | place digit behind isDigit ends induction =>
      rw [padHex_place isDigit ends]
      simp only [List.count_cons, induction, beq_iff_eq, Ne.symm notZero, if_false, Nat.add_zero]
  | other slashed ch rest other induction =>
      rw [padHex_other other, List.count_cons, List.count_cons, induction]

theorem count_finish {symbol : Char} (newline : Bool) (text : Str)
    (other : symbol ∉ ['\\', 'x', '0', 'c', '\n']) :
    (finish newline text).count symbol = text.count symbol := by
  simp only [List.mem_cons, List.not_mem_nil, or_false, not_or] at other
  have same : (padHex false (Text.replace ['\\', '\\', 'x'] ['\\', 'x'] text)).count symbol =
      text.count symbol := by
    rw [count_padHex other.2.2.1, Text.count_replace_eq (by decide)]
    simp [Ne.symm other.1, Ne.symm other.2.1]
  rw [finish]
  split
  · rename_i ends
    rcases ends with ⟨core, isCore⟩
    rw [← same, ← isCore]
    simp [List.count_append, Ne.symm other.1, Ne.symm other.2.2.2.1]
  · rw [List.count_append, same]
    cases newline with
    | false => rfl
    | true => simp [Ne.symm other.2.2.2.2]

theorem finish_untouched {text : Str} (untouched : Untouched text) (newline : Bool) :
    finish newline text = text ++ if newline then ['\n'] else [] := by
  rw [finish, Text.replace_of_absent untouched.noDouble, padHex_eq false text untouched.noDigit,
    if_neg untouched.noEnd]

theorem untouched_of_finish {newline : Bool} {text : Str}
    (same : finish newline text = text ++ if newline then ['\n'] else []) : Untouched text := by
  have fewer := @Text.count_replace ['\\', '\\', 'x'] ['\\', 'x'] '\\' (by decide) (by decide) text
  have kept := @count_padHex '\\' (by decide) false
    (Text.replace ['\\', '\\', 'x'] ['\\', 'x'] text)
  have noNewline : (if newline then ['\n'] else []).count '\\' = 0 := by
    cases newline with
    | false => rfl
    | true => rfl
  rw [finish] at same
  split at same
  · rename_i ends
    rcases ends with ⟨core, isCore⟩
    have counts := congrArg (List.count '\\') same
    rw [← isCore, List.length_append, show ['\\', 'c'].length = 2 from rfl, Nat.add_sub_cancel,
      List.take_left', List.count_append, noNewline] at counts
    · rw [← isCore, List.count_append, show ['\\', 'c'].count '\\' = 1 from rfl] at kept
      omega
    · rfl
  · rename_i noEnd
    have isText := List.append_cancel_right same
    have noDouble : ¬ ['\\', '\\', 'x'] <:+: text := by
      intro double
      have strict := fewer.2 double
      rw [← kept, isText] at strict
      exact Nat.lt_irrefl _ strict
    rw [Text.replace_of_absent noDouble] at isText noEnd
    refine ⟨noDouble, fun padded => ?_, ?_⟩
    · have longer := (length_padHex false text).2 padded
      rw [isText] at longer
      exact Nat.lt_irrefl _ longer
    · rw [isText] at noEnd
      exact noEnd

/-! ## Without `-e` -/

theorem encode_newline (text : Str) (newline : Bool) :
    encode text ++ (if newline then [10] else []) =
      encode (text ++ if newline then ['\n'] else []) := by
  rw [encode_append]
  cases newline with
  | false => rfl
  | true => rfl

theorem echo_verbatim {args : List Str} (verbatim : escapes args = false) :
    echo args = encode (text args ++ if newline args then ['\n'] else []) := by
  rw [echo, verbatim, ← encode_newline]
  rfl

theorem call_of_getopt {args rest : List Str}
    (isOk : Getopt.getopt false ['e', 'E', 'n'] [] args =
      .ok ((letters args).map fun letter => (['-', letter], []), rest)) :
    call args =
      if escapes args then escapeDecode (encode (finish (newline args) (Text.join [' '] rest)))
      else some (encode (finish (newline args) (Text.join [' '] rest))) := by
  rw [call]
  simp only [isOk, foldl_option (letters args) (known_letters args)]
  rfl

theorem call_of_error {args : List Str} {name : Str}
    (isError : Getopt.getopt false ['e', 'E', 'n'] [] args = .error name) :
    call args = some (encode (finish true (Text.join [' '] args))) := by
  rw [call]
  simp only [isError]
  rfl

theorem operands_of_noOptions {args : List Str} (none : options args = []) :
    operands args = args := by
  have both := options_append_operands args
  rw [none] at both
  exact both

theorem letters_of_noOptions {args : List Str} (none : options args = []) : letters args = [] := by
  rw [letters, none]
  rfl

theorem call_understood {args : List Str} (understood : Understood args) :
    call args =
      if escapes args then escapeDecode (encode (finish (newline args) (text args)))
      else some (encode (finish (newline args) (text args))) := by
  by_cases plain : ∀ word ∈ (operands args).head?, word.head? ≠ some '-' ∨ word = ['-']
  · exact call_of_getopt (getopt_understood plain)
  · push Not at plain
    rcases plain with ⟨word, isHead, dash, notDash⟩
    have alone := ((understood word isHead).resolve_left (not_not_intro dash)).resolve_left notDash
    rcases List.head?_eq_some_iff.mp isHead with ⟨rest, isFirst⟩
    rcases getopt_error isFirst dash notDash alone.2 with ⟨name, isError⟩
    have noLetters := letters_of_noOptions alone.1
    have noEscapes : escapes args = false := by
      rw [escapes, noLetters]
      rfl
    have isNewline : newline args = true := by
      rw [newline, noLetters]
      rfl
    rw [call_of_error isError, noEscapes, isNewline, text, operands_of_noOptions alone.1]
    rfl

theorem finish_ne_of_count {args : List Str} {flag : Bool} {given : Str}
    (differs : given.count '-' ≠ (text args).count '-') :
    finish flag given ≠ text args ++ if newline args then ['\n'] else [] := by
  intro same
  have counts := congrArg (List.count '-') same
  have noNewline : (if newline args then ['\n'] else []).count '-' = 0 := by
    cases newline args with
    | false => rfl
    | true => rfl
  rw [count_finish flag given (by decide), List.count_append, noNewline] at counts
  exact differs counts

theorem understood_of_call {args : List Str} (verbatim : escapes args = false)
    (printed : call args = some (echo args)) : Understood args := by
  intro word isHead
  apply by_contra
  intro bad
  push Not at bad
  rcases List.head?_eq_some_iff.mp isHead with ⟨rest, isFirst⟩
  rw [echo_verbatim verbatim] at printed
  by_cases isEnd : word = ['-', '-']
  · subst isEnd
    rw [call_of_getopt (getopt_end isFirst), verbatim] at printed
    refine finish_ne_of_count ?_ (encode_injective (Option.some.inj printed))
    rw [text, isFirst, show " ".toList = [' '] from rfl, Text.count_join (by decide),
      Text.count_join (by decide), List.map_cons, List.sum_cons,
      show List.count '-' ['-', '-'] = 2 from rfl]
    omega
  · rcases getopt_error isFirst bad.1 bad.2.1 isEnd with ⟨name, isError⟩
    have someOption : options args ≠ [] := fun none => isEnd (bad.2.2 none)
    rw [call_of_error isError] at printed
    refine finish_ne_of_count ?_ (encode_injective (Option.some.inj printed))
    rcases List.exists_cons_of_ne_nil someOption with ⟨first, others, isOptions⟩
    have firstOption : isOption first = true :=
      @isOption_of_mem args first (isOptions ▸ List.mem_cons_self)
    rcases isOption_cons firstOption with ⟨letter, letters, isFirst, -⟩
    have whole := options_append_operands args
    rw [text, show " ".toList = [' '] from rfl, ← whole, Text.count_join (by decide),
      Text.count_join (by decide), List.map_append, List.sum_append, whole, isOptions, List.map_cons,
      List.sum_cons, isFirst, List.count_cons_self]
    omega

theorem verbatim_iff {args : List Str} (verbatim : escapes args = false) :
    call args = some (echo args) ↔ Understood args ∧ Untouched (text args) := by
  constructor
  · intro printed
    have understood := understood_of_call verbatim printed
    rw [call_understood understood, verbatim, echo_verbatim verbatim] at printed
    exact ⟨understood, untouched_of_finish (encode_injective (Option.some.inj printed))⟩
  · intro faithful
    rw [call_understood faithful.1, verbatim, echo_verbatim verbatim,
      finish_untouched faithful.2]
    rfl

/-! ## With `-e` -/

/-- The texts over the documented escapes that the command reads as the builtin does: no escape
of a Unicode character and no `\e`, at most two octal digits, a single hexadecimal digit where
`call` puts another one before it, and `\c` at the end only. -/
inductive Shared : Str → Prop
  | nil : Shared []
  | plain {ch rest} : ch ≠ '\\' → Shared rest → Shared (ch :: rest)
  | single {code rest} : code ∈ ['a', 'b', 'f', 'n', 'r', 't', 'v'] → Shared rest →
      Shared ('\\' :: code :: rest)
  | backslash {rest} : rest ≠ ['c'] → Shared rest → Shared ('\\' :: '\\' :: rest)
  | octal {digits rest} : (∀ digit ∈ digits, isOctalDigit digit = true) → digits.length ≤ 2 →
      (∀ ch ∈ rest.head?, isOctalDigit ch = false) → Shared rest →
      Shared ('\\' :: '0' :: (digits ++ rest))
  | hexDigit {digit rest} : isHexDigit digit = true → isBoundary rest = true → Shared rest →
      Shared ('\\' :: 'x' :: digit :: rest)
  | hexPair {high low rest} : isHexDigit high = true → isHexDigit low = true → Shared rest →
      Shared ('\\' :: 'x' :: high :: low :: rest)
  | stop : Shared ['\\', 'c']

def byteOf (ch : Char) : UInt8 := UInt8.ofNat ch.toNat

theorem isHexDigit_codes : (List.range 128).all (fun code =>
    let digit := Char.ofNat code
    !isHexDigit digit || (encode [digit] = [byteOf digit] &&
      hex? (byteOf digit) = some (digitValue digit) && !Text.isSpace digit)) = true := by
  decide +kernel

theorem hexDigit_byte {digit : Char} (isDigit : isHexDigit digit = true) :
    encode [digit] = [byteOf digit] ∧ hex? (byteOf digit) = some (digitValue digit) ∧
      Text.isSpace digit = false := by
  have ranges := isDigit
  simp only [isHexDigit, Bool.or_eq_true, Bool.and_eq_true, decide_eq_true_eq, Char.le_def,
    UInt32.le_iff_toNat_le] at ranges
  have small : digit.toNat < 128 := by
    rcases ranges with (range | range) | range
    · exact lt_of_le_of_lt range.2 (by decide)
    · exact lt_of_le_of_lt range.2 (by decide)
    · exact lt_of_le_of_lt range.2 (by decide)
  have all := List.all_eq_true.mp isHexDigit_codes digit.toNat (List.mem_range.mpr small)
  simp only [Char.ofNat_toNat, isDigit, Bool.not_true, Bool.false_or, Bool.and_eq_true,
    decide_eq_true_eq, Bool.not_eq_true'] at all
  exact ⟨all.1.1, all.1.2, all.2⟩

theorem octalDigit_hex {digit : Char} (octal : isOctalDigit digit = true) :
    isHexDigit digit = true := by
  have range : '0' ≤ digit ∧ digit ≤ '7' := by
    simpa only [isOctalDigit, Bool.and_eq_true, decide_eq_true_eq] using octal
  have most : digit ≤ '9' := Char.le_trans range.2 (by decide)
  simp only [isHexDigit, range.1, most, decide_true, Bool.and_self, Bool.true_or]

theorem octalDigit_byte {digit : Char} (octal : isOctalDigit digit = true) :
    isOctal (byteOf digit) = true ∧ (byteOf digit).toNat - 48 = digitValue digit := by
  have range : 48 ≤ digit.toNat ∧ digit.toNat ≤ 55 := by
    simp only [isOctalDigit, Bool.and_eq_true, decide_eq_true_eq, Char.le_def,
      UInt32.le_iff_toNat_le] at octal
    exact octal
  have code : (byteOf digit).toNat = digit.toNat := toNat_byte (by omega)
  have most : digit ≤ '9' := by
    rw [Char.le_def, UInt32.le_iff_toNat_le]
    exact le_trans range.2 (by decide)
  rw [digitValue, if_pos most, code, isOctal, Bool.and_eq_true, decide_eq_true_eq,
    decide_eq_true_eq, UInt8.le_iff_toNat_le, UInt8.le_iff_toNat_le, code]
  exact ⟨range, rfl⟩

theorem encode_octal {digits : Str} (octal : ∀ digit ∈ digits, isOctalDigit digit = true) :
    encode digits = digits.map byteOf := by
  induction digits with
  | nil => rfl
  | cons digit digits induction =>
      have both := List.forall_mem_cons.mp octal
      rw [← List.singleton_append, encode_append, (hexDigit_byte (octalDigit_hex both.1)).1,
        induction both.2]
      rfl

theorem foldl_octal {digits : Str} (octal : ∀ digit ∈ digits, isOctalDigit digit = true)
    (start : Nat) :
    (digits.map byteOf).foldl (fun value digit => 8 * value + (digit.toNat - 48)) start =
      digits.foldl (fun value digit => 8 * value + digitValue digit) start := by
  induction digits generalizing start with
  | nil => rfl
  | cons digit digits induction =>
      have both := List.forall_mem_cons.mp octal
      rw [List.map_cons, List.foldl_cons, List.foldl_cons, (octalDigit_byte both.1).2,
        induction both.2]

theorem takeWhile_take {symbol : Char → Bool} {digits rest : Str} {most : Nat}
    (all : ∀ digit ∈ digits, symbol digit = true) (few : digits.length ≤ most)
    (ends : digits.length = most ∨ ∀ ch ∈ rest.head?, symbol ch = false) :
    ((digits ++ rest).take most).takeWhile symbol = digits := by
  rw [List.take_append, List.take_of_length_le few, List.takeWhile_append_of_pos all]
  rcases ends with whole | notSymbol
  · rw [whole, Nat.sub_self, List.take_zero, List.takeWhile_nil, List.append_nil]
  · cases rest with
    | nil => simp
    | cons ch rest =>
        cases most - digits.length with
        | zero => simp
        | succ more => simp [notSymbol ch rfl]

theorem notMem_encode {ch : Char} (plain : ch ≠ '\\') : BACKSLASH ∉ encode [ch] := by
  intro member
  rw [encode, List.flatMap_cons, List.flatMap_nil, List.append_nil] at member
  rcases mem_encodeChar member with same | large
  · exact plain (Char.toNat_inj.mp same)
  · exact absurd large.2 (by decide)

/-- The text begins with an escape or a character that `shown` is written for, which stands for
the bytes; `more` may come next. -/
structure Step (text rest shown : Str) (bytes : Bytes) : Prop where
  padded : padHex false text = shown ++ padHex false rest
  interpreted : interpret text = (interpret rest).after bytes
  decoded : ∀ more : Str,
    (∀ ch ∈ more.head?, isOctalDigit ch = true → ch ∈ rest.head?) →
    escapeDecode (encode (shown ++ more)) = (escapeDecode (encode more)).map (bytes ++ ·)
  noEnd : ¬ ['\\', 'c'] <:+ shown
  apart : rest = ['c'] → shown.getLast? ≠ some '\\'

theorem padHex_plain {slashed : Bool} {ch : Char} (notX : ch ≠ 'x' ∨ slashed = false)
    (rest : Str) : padHex slashed (ch :: rest) = ch :: padHex (ch = '\\') rest := by
  apply padHex_other
  intro place
  rcases place with ⟨isSlashed, digit, behind, isText, -⟩
  rcases notX with notX | notSlashed
  · exact notX (List.cons.inj isText).1
  · rw [notSlashed] at isSlashed
    cases isSlashed

theorem step_plain {ch : Char} (plain : ch ≠ '\\') (rest : Str) :
    Step (ch :: rest) rest [ch] (encode [ch]) where
  padded := by
    rw [padHex_plain (.inr rfl), decide_eq_false plain]
    rfl
  interpreted := interpret_plain plain rest
  decoded more _ := by
    rw [encode_append]
    exact escapeDecode_plain (notMem_encode plain) (encode more)
  noEnd ends := by
    have length := ends.length_le
    simp at length
  apart _ isLast := plain (Option.some.inj isLast)

theorem step_single {code : Char} {value : UInt8} (notX : code ≠ 'x')
    (notBackslash : code ≠ '\\') (notStop : code ≠ 'c') (isControl : control? code = some value)
    (isSingle : single? (byteOf code) = some value) (isByte : encode [code] = [byteOf code])
    (rest : Str) : Step ('\\' :: code :: rest) rest ['\\', code] [value] where
  padded := by
    rw [padHex_plain (.inr rfl), padHex_plain (.inl notX), decide_eq_false notBackslash]
    rfl
  interpreted := by
    have isEscape : escape ([code] ++ rest) = .prints [value] 1 := escape_control isControl rest
    exact interpret_escape isEscape
  decoded more _ := by
    rw [encode_append, show ['\\', code] = ['\\'] ++ [code] from rfl, encode_append, isByte]
    exact escapeDecode_single isSingle (encode more)
  noEnd ends := by
    have same := ends.eq_of_length rfl
    exact notStop (List.cons.inj (List.cons.inj same).2).1.symm
  apart _ isLast := notBackslash (Option.some.inj isLast)

theorem step_letter {code : Char} (letter : code ∈ ['a', 'b', 'f', 'n', 'r', 't', 'v'])
    (rest : Str) : ∃ bytes, Step ('\\' :: code :: rest) rest ['\\', code] bytes := by
  simp only [List.mem_cons, List.not_mem_nil, or_false] at letter
  rcases letter with isCode | isCode | isCode | isCode | isCode | isCode | isCode
  · subst isCode
    exact ⟨[7], step_single (by decide) (by decide) (by decide) rfl rfl rfl rest⟩
  · subst isCode
    exact ⟨[8], step_single (by decide) (by decide) (by decide) rfl rfl rfl rest⟩
  · subst isCode
    exact ⟨[12], step_single (by decide) (by decide) (by decide) rfl rfl rfl rest⟩
  · subst isCode
    exact ⟨[10], step_single (by decide) (by decide) (by decide) rfl rfl rfl rest⟩
  · subst isCode
    exact ⟨[13], step_single (by decide) (by decide) (by decide) rfl rfl rfl rest⟩
  · subst isCode
    exact ⟨[9], step_single (by decide) (by decide) (by decide) rfl rfl rfl rest⟩
  · subst isCode
    exact ⟨[11], step_single (by decide) (by decide) (by decide) rfl rfl rfl rest⟩

theorem step_backslash {rest : Str} (notX : rest.head? ≠ some 'x') (notStop : rest ≠ ['c']) :
    Step ('\\' :: '\\' :: rest) rest ['\\', '\\'] [92] where
  padded := by
    have same : padHex true rest = padHex false rest := by
      cases rest with
      | nil => rfl
      | cons ch rest =>
          have other : ch ≠ 'x' := fun isX => notX (by rw [isX]; rfl)
          rw [padHex_plain (.inl other), padHex_plain (.inr rfl)]
    rw [padHex_plain (.inr rfl), padHex_plain (.inl (by decide)),
      show decide ('\\' = '\\') = true from rfl, same]
    rfl
  interpreted := by
    have isEscape : escape (['\\'] ++ rest) = .prints [92] 1 := rfl
    exact interpret_escape isEscape
  decoded more _ := by
    rw [encode_append]
    exact escapeDecode_single rfl (encode more)
  noEnd ends := absurd (ends.eq_of_length rfl) (by decide)
  apart isStop _ := notStop isStop

theorem padHex_octal {digits : Str} (octal : ∀ digit ∈ digits, isOctalDigit digit = true)
    (rest : Str) : padHex false (digits ++ rest) = digits ++ padHex false rest := by
  induction digits with
  | nil => rfl
  | cons digit digits induction =>
      have both := List.forall_mem_cons.mp octal
      have notBackslash := isHexDigit_ne (octalDigit_hex both.1)
      rw [List.cons_append, padHex_plain (.inr rfl), decide_eq_false notBackslash,
        induction both.2]
      rfl

theorem octal_of_byte {ch : Char} {byte : UInt8} (member : byte ∈ encode [ch])
    (octal : isOctal byte = true) : isOctalDigit ch = true := by
  have range : 48 ≤ byte.toNat ∧ byte.toNat ≤ 55 := by
    simp only [isOctal, Bool.and_eq_true, decide_eq_true_eq, UInt8.le_iff_toNat_le] at octal
    exact octal
  rw [encode, List.flatMap_cons, List.flatMap_nil, List.append_nil] at member
  have same : ch.toNat = byte.toNat := by
    rcases mem_encodeChar member with same | large
    · exact same
    · omega
  simp only [isOctalDigit, Bool.and_eq_true, decide_eq_true_eq, Char.le_def,
    UInt32.le_iff_toNat_le]
  rw [← same] at range
  exact range

theorem head_encode {text : Str} {byte : UInt8} (first : byte ∈ (encode text).head?) :
    ∃ ch ∈ text.head?, byte ∈ encode [ch] := by
  cases text with
  | nil => cases first
  | cons ch text =>
      rw [← List.singleton_append, encode_append] at first
      cases bytes : encode [ch] with
      | nil =>
          have none := length_le_length_encode [ch]
          rw [bytes] at none
          cases none
      | cons head tail =>
          rw [bytes] at first
          exact ⟨ch, rfl, by rw [bytes, ← Option.some.inj first]; exact List.mem_cons_self⟩

theorem step_octal {digits rest : Str} (octal : ∀ digit ∈ digits, isOctalDigit digit = true)
    (few : digits.length ≤ 2) (ends : ∀ ch ∈ rest.head?, isOctalDigit ch = false) :
    Step ('\\' :: '0' :: (digits ++ rest)) rest ('\\' :: '0' :: digits)
      [UInt8.ofNat (numeral 8 digits)] := by
  have last : ∀ ch, ('\\' :: '0' :: digits).getLast? = some ch → isOctalDigit ch = true := by
    intro ch isLast
    rw [List.getLast?_cons_cons] at isLast
    rcases List.mem_cons.mp (List.mem_of_getLast? isLast) with isZero | inDigits
    · rw [isZero]
      rfl
    · exact octal ch inDigits
  constructor
  case padded =>
    rw [padHex_plain (.inr rfl), padHex_plain (.inl (by decide)),
      show decide ('0' = '\\') = false from rfl, padHex_octal octal]
    rfl
  case interpreted =>
    have taken := takeWhile_take octal (le_trans few (show 2 ≤ 3 by decide)) (.inr ends)
    have isEscape : escape (('0' :: digits) ++ rest) =
        .prints [UInt8.ofNat (numeral 8 digits)] ('0' :: digits).length := by
      rw [List.cons_append, escape_octal, taken]
      rfl
    exact interpret_escape isEscape
  case decoded =>
    intro more heads
    have stops : Ends (48 :: digits.map byteOf) (encode more) := by
      right
      intro byte first
      rcases head_encode first with ⟨ch, isFirst, member⟩
      by_contra isDigit
      rw [Bool.not_eq_false] at isDigit
      have octalFirst := octal_of_byte member isDigit
      have inRest := heads ch isFirst octalFirst
      rw [ends ch inRest] at octalFirst
      cases octalFirst
    have value : octalValue (48 :: digits.map byteOf) = numeral 8 digits := foldl_octal octal 0
    rw [← value, show '\\' :: '0' :: digits = ['\\', '0'] ++ digits from rfl, List.append_assoc,
      encode_append, encode_append, encode_octal octal]
    refine escapeDecode_octal (fun digit member => ?_) ?_ stops
    · rcases List.mem_cons.mp member with isZero | inDigits
      · rw [isZero]
        rfl
      · rcases List.mem_map.mp inDigits with ⟨ch, isMember, isByte⟩
        rw [← isByte]
        exact (octalDigit_byte (octal ch isMember)).1
    · rw [List.length_map]
      exact few
  case noEnd =>
    intro ended
    rcases ended with ⟨core, isShown⟩
    have isLast : ('\\' :: '0' :: digits).getLast? = some 'c' := by
      rw [← isShown]
      simp
    exact absurd (last 'c' isLast) (by decide)
  case apart =>
    intro _ isLast
    exact absurd (last '\\' isLast) (by decide)

theorem boundary_head {rest : Str} (ends : isBoundary rest = true) :
    ∀ ch ∈ rest.head?, isHexDigit ch = false := by
  intro ch first
  cases rest with
  | nil => cases first
  | cons other rest =>
      have same : other = ch := Option.some.inj first
      subst same
      by_contra isDigit
      rw [Bool.not_eq_false] at isDigit
      simp only [isBoundary, (hexDigit_byte isDigit).2.2, Bool.or_false, Bool.or_eq_true,
        decide_eq_true_eq] at ends
      rcases ends with (isBackslash | isQuote) | isQuote
      · exact isHexDigit_ne isDigit isBackslash
      · rw [isQuote] at isDigit
        exact absurd isDigit (by decide)
      · rw [isQuote] at isDigit
        exact absurd isDigit (by decide)

theorem decoded_hex {high low : Char} (isHigh : isHexDigit high = true)
    (isLow : isHexDigit low = true) (more : Str) :
    escapeDecode (encode (['\\', 'x', high, low] ++ more)) =
      (escapeDecode (encode more)).map
        ([UInt8.ofNat (16 * digitValue high + digitValue low)] ++ ·) := by
  have high_ := hexDigit_byte isHigh
  have low_ := hexDigit_byte isLow
  rw [encode_append, show ['\\', 'x', high, low] = ['\\', 'x'] ++ ([high] ++ [low]) from rfl,
    encode_append, encode_append, high_.1, low_.1]
  exact escapeDecode_hex high_.2.1 low_.2.1 (encode more)

theorem step_hexDigit {digit : Char} {rest : Str} (isDigit : isHexDigit digit = true)
    (ends : isBoundary rest = true) :
    Step ('\\' :: 'x' :: digit :: rest) rest ['\\', 'x', '0', digit]
      [UInt8.ofNat (digitValue digit)] where
  padded := by
    rw [padHex_plain (.inr rfl), show decide ('\\' = '\\') = true from rfl,
      padHex_place isDigit ends]
    rfl
  interpreted := by
    have all : ∀ ch ∈ [digit], isHexDigit ch = true := by
      intro ch member
      rw [List.mem_singleton.mp member]
      exact isDigit
    have taken := takeWhile_take all (show 1 ≤ 2 by decide) (.inr (boundary_head ends))
    have isEscape := escape_hex taken (List.cons_ne_nil digit [])
    exact (@interpret_escape ['x', digit] rest _ isEscape).trans (by simp [numeral])
  decoded more _ := by
    have decoded := decoded_hex (show isHexDigit '0' = true from rfl) isDigit more
    rw [show digitValue '0' = 0 from rfl, Nat.mul_zero, Nat.zero_add] at decoded
    exact decoded
  noEnd ended := by
    have last := List.suffix_iff_eq_drop.mp ended
    exact absurd (List.cons.inj last).1 (by decide)
  apart _ isLast := isHexDigit_ne isDigit (Option.some.inj isLast)

theorem step_hexPair {high low : Char} (isHigh : isHexDigit high = true)
    (isLow : isHexDigit low = true) (rest : Str) :
    Step ('\\' :: 'x' :: high :: low :: rest) rest ['\\', 'x', high, low]
      [UInt8.ofNat (16 * digitValue high + digitValue low)] where
  padded := by
    have notBoundary : isBoundary (low :: rest) ≠ true := by
      intro ends
      have notDigit := boundary_head ends low rfl
      rw [isLow] at notDigit
      cases notDigit
    have other : ¬ IsPlace true ('x' :: high :: low :: rest) := by
      intro place
      rcases place with ⟨-, digit, behind, isText, -, ends⟩
      have isBehind := (List.cons.inj (List.cons.inj isText).2).2
      exact notBoundary (isBehind ▸ ends)
    rw [padHex_plain (.inr rfl), show decide ('\\' = '\\') = true from rfl, padHex_other other,
      show decide ('x' = '\\') = false from rfl, padHex_plain (.inr rfl),
      decide_eq_false (isHexDigit_ne isHigh), padHex_plain (.inr rfl),
      decide_eq_false (isHexDigit_ne isLow)]
    rfl
  interpreted := by
    have all : ∀ ch ∈ [high, low], isHexDigit ch = true := by
      intro ch member
      rcases List.mem_pair.mp member with same | same
      · rw [same]
        exact isHigh
      · rw [same]
        exact isLow
    have taken := @takeWhile_take isHexDigit [high, low] rest 2 all (Nat.le_refl 2) (.inl rfl)
    have isEscape := escape_hex taken (List.cons_ne_nil high [low])
    exact (@interpret_escape ['x', high, low] rest _ isEscape).trans (by simp [numeral])
  decoded more _ := decoded_hex isHigh isLow more
  noEnd ended := by
    have last := List.suffix_iff_eq_drop.mp ended
    exact isHexDigit_ne isHigh (List.cons.inj last).1.symm
  apart _ isLast := isHexDigit_ne isLow (Option.some.inj isLast)

structure Decoded (text : Str) : Prop where
  stopped : (interpret text).stopped = true →
    ∃ core, padHex false text = core ++ ['\\', 'c'] ∧
      escapeDecode (encode core) = some (interpret text).bytes
  whole : (interpret text).stopped = false →
    ¬ ['\\', 'c'] <:+ padHex false text ∧
      ∀ newline : Bool, escapeDecode (encode (padHex false text ++ if newline then ['\n'] else [])) =
        some ((interpret text).bytes ++ if newline then [10] else [])

theorem head?_padHex (text : Str) : (padHex false text).head? = text.head? := by
  cases text with
  | nil => rfl
  | cons ch rest =>
      rw [padHex_plain (.inr rfl)]
      rfl

theorem padHex_eq_stop {rest : Str} (isStop : padHex false rest = ['c']) : rest = ['c'] := by
  have short := (length_padHex false rest).1
  rw [isStop] at short
  cases rest with
  | nil => cases isStop
  | cons ch rest =>
      have none : rest = [] :=
        List.eq_nil_of_length_eq_zero (Nat.le_zero.mp (Nat.le_of_succ_le_succ short))
      rw [none, padHex_plain (.inr rfl)] at isStop
      rw [none, (List.cons.inj isStop).1]

theorem suffix_append {first second : Char} {before behind : Str}
    (ends : [first, second] <:+ before ++ behind) :
    [first, second] <:+ behind ∨ (behind = [second] ∧ before.getLast? = some first) ∨
      (behind = [] ∧ [first, second] <:+ before) := by
  cases behind using List.reverseRecOn with
  | nil => exact .inr (.inr ⟨rfl, by rwa [List.append_nil] at ends⟩)
  | append_singleton behind last =>
      rcases ends with ⟨core, isText⟩
      have same : core ++ [first] = before ++ behind ∧ second = last := by
        rw [← List.append_assoc, show [first, second] = [first] ++ [second] from rfl,
          ← List.append_assoc] at isText
        have parts := List.append_inj' isText rfl
        exact ⟨parts.1, List.singleton_inj.mp parts.2⟩
      cases behind using List.reverseRecOn with
      | nil =>
          refine .inr (.inl ⟨by rw [same.2]; rfl, ?_⟩)
          rw [List.append_nil] at same
          rw [← same.1]
          simp
      | append_singleton behind other =>
          rw [← List.append_assoc] at same
          have parts := List.append_inj' same.1 rfl
          left
          rw [same.2, List.singleton_inj.mp parts.2]
          exact ⟨behind, by simp⟩

theorem decoded_of_step {text rest shown : Str} {bytes : Bytes}
    (step : Step text rest shown bytes) (later : Decoded rest) : Decoded text where
  stopped stops := by
    rw [step.interpreted] at stops ⊢
    rcases later.stopped stops with ⟨core, isCore, decoded⟩
    have heads : ∀ ch ∈ core.head?, isOctalDigit ch = true → ch ∈ rest.head? := by
      intro ch first _
      rw [← head?_padHex, isCore]
      cases core with
      | nil => cases first
      | cons other core => exact first
    refine ⟨shown ++ core, ?_, ?_⟩
    · rw [step.padded, isCore, List.append_assoc]
    · rw [step.decoded core heads, decoded]
      rfl
  whole goes := by
    rw [step.interpreted] at goes ⊢
    have both := later.whole goes
    rw [step.padded]
    refine ⟨fun ends => ?_, fun newline => ?_⟩
    · rcases suffix_append ends with inRest | across | inShown
      · exact both.1 inRest
      · exact step.apart (padHex_eq_stop across.1) across.2
      · exact step.noEnd inShown.2
    · have heads : ∀ ch ∈ (padHex false rest ++ if newline then ['\n'] else []).head?,
          isOctalDigit ch = true → ch ∈ rest.head? := by
        intro ch first octal
        cases padded : padHex false rest with
        | nil =>
            rw [padded] at first
            cases newline with
            | false => cases first
            | true =>
                rw [← Option.some.inj first] at octal
                exact absurd octal (by decide)
        | cons other others =>
            rw [padded] at first
            rw [← head?_padHex, padded]
            exact first
      rw [List.append_assoc, step.decoded _ heads, both.2 newline, Option.map_some,
        Printed.after, List.append_assoc]

theorem decoded_of_shared {text : Str} (shared : Shared text)
    (noDouble : ¬ ['\\', '\\', 'x'] <:+: text) : Decoded text := by
  have later {before rest : Str} (isText : ¬ ['\\', '\\', 'x'] <:+: before ++ rest) :
      ¬ ['\\', '\\', 'x'] <:+: rest :=
    fun double => isText (double.trans (List.suffix_append before rest).isInfix)
  induction shared with
  | nil =>
      refine ⟨fun stops => ?_, fun _ => ⟨by decide, fun newline => ?_⟩⟩
      · cases stops
      · cases newline with
        | false => rfl
        | true => rfl
  | plain notBackslash _ induction =>
      exact decoded_of_step (step_plain notBackslash _)
        (induction (@later [_] _ noDouble))
  | single letter _ induction =>
      rcases step_letter letter _ with ⟨bytes, step⟩
      exact decoded_of_step step (induction (@later [_, _] _ noDouble))
  | backslash notStop _ induction =>
      refine decoded_of_step (step_backslash (fun isX => ?_) notStop)
        (induction (@later [_, _] _ noDouble))
      rcases List.head?_eq_some_iff.mp isX with ⟨behind, isRest⟩
      rw [isRest] at noDouble
      exact noDouble ⟨[], behind, rfl⟩
  | @octal digits rest octal few ends _ induction =>
      exact decoded_of_step (step_octal octal few ends)
        (induction (@later ('\\' :: '0' :: digits) _ noDouble))
  | hexDigit isDigit ends _ induction =>
      exact decoded_of_step (step_hexDigit isDigit ends)
        (induction (@later [_, _, _] _ noDouble))
  | hexPair isHigh isLow _ induction =>
      exact decoded_of_step (step_hexPair isHigh isLow _)
        (induction (@later [_, _, _, _] _ noDouble))
  | stop => exact ⟨fun _ => ⟨[], rfl, rfl⟩, fun goes => by cases goes⟩

/-- The options are seen, and nothing of the text is taken otherwise than it is meant. -/
def Faithful (args : List Str) : Prop :=
  Understood args ∧
    if escapes args then ¬ ['\\', '\\', 'x'] <:+: text args ∧ Shared (text args)
    else Untouched (text args)

theorem escaped_of_shared {args : List Str} (escaped : escapes args = true)
    (understood : Understood args) (noDouble : ¬ ['\\', '\\', 'x'] <:+: text args)
    (shared : Shared (text args)) : call args = some (echo args) := by
  have decoded := decoded_of_shared shared noDouble
  have isEcho : echo args = (interpret (text args)).bytes ++
      if (interpret (text args)).stopped then [] else if newline args then [10] else [] := by
    rw [echo]
    exact if_pos escaped
  rw [call_understood understood, isEcho, if_pos escaped, finish, Text.replace_of_absent noDouble]
  by_cases stops : (interpret (text args)).stopped = true
  · rcases decoded.stopped stops with ⟨core, isCore, isDecoded⟩
    have ends : ['\\', 'c'] <:+ padHex false (text args) := ⟨core, isCore.symm⟩
    rw [if_pos ends, isCore, List.length_append, show ['\\', 'c'].length = 2 from rfl,
      Nat.add_sub_cancel, List.take_left' rfl, isDecoded, stops]
    simp
  · rw [Bool.not_eq_true] at stops
    have whole := decoded.whole stops
    rw [if_neg whole.1, whole.2, stops]
    rfl

/-- Where nothing is taken otherwise than it is meant, `echo` prints what bash prints; without
`-e` only there. -/
theorem echo_iff (args : List Str) :
    (Faithful args → call args = some (echo args)) ∧
      (escapes args = false → call args = some (echo args) → Faithful args) := by
  refine ⟨fun faithful => ?_, fun verbatim printed => ?_⟩
  · by_cases escaped : escapes args = true
    · have shared := faithful.2
      rw [if_pos escaped] at shared
      exact escaped_of_shared escaped faithful.1 shared.1 shared.2
    · have untouched := faithful.2
      rw [if_neg escaped] at untouched
      rw [Bool.not_eq_true] at escaped
      exact (verbatim_iff escaped).mpr ⟨faithful.1, untouched⟩
  · have both := (verbatim_iff verbatim).mp printed
    refine ⟨both.1, ?_⟩
    rw [if_neg (by rw [verbatim]; exact Bool.false_ne_true)]
    exact both.2

theorem echo_escaped : call ["-e".toList, "a\\x4 b".toList] =
    some (echo ["-e".toList, "a\\x4 b".toList]) := by
  apply (echo_iff _).1
  refine ⟨fun word first => .inl ?_, ?_⟩
  · rw [← Option.some.inj first]
    decide
  · have shared : Shared ("a\\x4 b".toList) := by
      apply Shared.plain (by decide)
      apply Shared.hexDigit rfl rfl
      apply Shared.plain (by decide)
      apply Shared.plain (by decide)
      exact Shared.nil
    exact ⟨by decide, shared⟩

theorem echo_stopped : ¬ ∀ args : List Str, escapes args = false →
    call args = some (echo args) := by
  intro verbatim
  exact absurd (verbatim ["a\\c".toList] (by decide +kernel)) (by decide +kernel)

end Echo

end LlmHoneypot
