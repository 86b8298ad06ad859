import LlmHoneypot.Foundation.Text

/-! # Chain splitting

`cmdchain.py`: a command line split at `;`, `&&` and `||` outside quotes. -/

namespace LlmHoneypot

namespace CmdChain

/-- What joins a segment to the one before it; `start` is the empty operator of
the first segment. -/
inductive Operator
  | start
  | and
  | or
  | semicolon
  deriving DecidableEq, Repr

def Operator.text : Operator → Str
  | .start => []
  | .and => "&&".toList
  | .or => "||".toList
  | .semicolon => ";".toList

structure SegmentOf (Symbol : Type) where
  operator : Operator
  command : List Symbol
  deriving DecidableEq, Repr

abbrev Segment := SegmentOf Char

def SegmentOf.map {Symbol Other : Type} (f : Symbol → Other) (segment : SegmentOf Symbol) :
    SegmentOf Other :=
  ⟨segment.operator, segment.command.map f⟩

def UNSUPPORTED : List Str :=
  ["$(".toList, "`".toList, ">".toList, "<".toList, "\n".toList]

def MAX_SEGMENTS : Nat := 8

def OPERATORS : List Operator := [.and, .or, .semicolon]

/-- Where the scanner stands: outside quotes, inside a quotation, after a
backslash, or on the second character of a two-character operator. -/
inductive ScanMode
  | plain
  | quoted (quote : Char)
  | escaped
  | operatorTail
  deriving DecidableEq, Repr

section Scan

variable {Symbol : Type} (glyph : Symbol → Char)

def finishSegment (operator : Operator) (current : List Symbol) : SegmentOf Symbol :=
  ⟨operator, Text.stripWhere (fun symbol => Text.isSpace (glyph symbol)) current⟩

/-- The scanning loop of `split_chain`. `current` is the text of the segment
being read and `operator` what joined it to the previous one. The loop sees a
symbol only through its character `glyph symbol`; a line is scanned with the
characters themselves as symbols. -/
def scanChain : ScanMode → Operator → (current : List Symbol) → List Symbol →
    Option (List (SegmentOf Symbol))
  | .quoted _, _, _, [] => none
  | .plain, operator, current, [] => some [finishSegment glyph operator current]
  | .escaped, operator, current, [] => some [finishSegment glyph operator current]
  | .operatorTail, operator, current, [] => some [finishSegment glyph operator current]
  | .quoted quote, operator, current, symbol :: rest =>
      scanChain (if glyph symbol = quote then .plain else .quoted quote) operator
        (current ++ [symbol]) rest
  | .escaped, operator, current, symbol :: rest =>
      scanChain .plain operator (current ++ [symbol]) rest
  | .operatorTail, operator, current, _ :: rest =>
      scanChain .plain operator current rest
  | .plain, operator, current, symbol :: rest =>
      if glyph symbol = '\'' ∨ glyph symbol = '"' then
        scanChain (.quoted (glyph symbol)) operator (current ++ [symbol]) rest
      else if glyph symbol = '\\' ∧ rest ≠ [] then
        scanChain .escaped operator (current ++ [symbol]) rest
      else
        match OPERATORS.find? (·.text.isPrefixOf (glyph symbol :: rest.map glyph)) with
        | some matched =>
            (scanChain (if matched.text.length = 2 then .operatorTail else .plain)
              matched [] rest).map (finishSegment glyph operator current :: ·)
        | none =>
            -- A lone `&` backgrounds the command: the line is not split.
            if glyph symbol = '&' then none
            else scanChain .plain operator (current ++ [symbol]) rest

end Scan

def splitChain (line : Str) : Option (List Segment) :=
  if Text.strip line = [] then none
  else
    match scanChain id .plain .start [] line with
    | none => none
    | some segments =>
        if segments.any (·.command = []) then none
        else if MAX_SEGMENTS < segments.length then none
        else some segments

def shouldRun (operator : Operator) (previousSucceeded : Bool) : Bool :=
  match operator with
  | .and => previousSucceeded
  | .or => !previousSucceeded
  | .semicolon => true
  | .start => true

def isSimple (command : Str) : Bool :=
  command ≠ [] && !(UNSUPPORTED.any (Text.contains · command))

theorem scanChain_stripped {mode : ScanMode} {operator : Operator} {current text : Str}
    {segments : List Segment} (scanned : scanChain id mode operator current text = some segments) :
    ∀ segment ∈ segments, Text.strip segment.command = segment.command := by
  have finished (operator : Operator) (current : Str) :
      Text.strip (finishSegment id operator current).command =
        (finishSegment id operator current).command :=
    Text.strip_strip current
  fun_induction scanChain id mode operator current text generalizing segments with
  | case1 => cases scanned
  | case2 operator current | case3 operator current | case4 operator current =>
      cases scanned
      simpa using finished operator current
  | case5 _ _ _ _ _ induction | case6 _ _ _ _ induction | case7 _ _ _ _ induction =>
      exact induction scanned
  | case8 _ _ _ _ _ induction | case9 _ _ _ _ _ _ induction =>
      exact induction scanned
  | case10 operator current _ _ _ _ _ _ induction =>
      rcases Option.map_eq_some_iff.mp scanned with ⟨later, laterScanned, rfl⟩
      intro segment member
      rcases List.mem_cons.mp member with rfl | member
      · exact finished operator current
      · exact induction laterScanned segment member
  | case11 => cases scanned
  | case12 _ _ _ _ _ _ _ _ induction => exact induction scanned

theorem map_finishSegment {Symbol : Type} (glyph : Symbol → Char) (operator : Operator)
    (current : List Symbol) :
    (finishSegment glyph operator current).map glyph =
      finishSegment id operator (current.map glyph) := by
  simp only [finishSegment, SegmentOf.map]
  rw [Text.map_stripWhere glyph Text.isSpace current]
  rfl

theorem scanChain_map {Symbol : Type} (glyph : Symbol → Char) (mode : ScanMode)
    (operator : Operator) (current text : List Symbol) :
    (scanChain glyph mode operator current text).map (List.map (SegmentOf.map glyph)) =
      scanChain id mode operator (current.map glyph) (text.map glyph) := by
  fun_induction scanChain glyph mode operator current text with
  | case1 => simp [scanChain]
  | case2 operator current | case3 operator current | case4 operator current =>
      simp [scanChain, map_finishSegment]
  | case5 _ _ _ _ _ induction | case6 _ _ _ _ induction | case7 _ _ _ _ induction =>
      simpa [scanChain] using induction
  | case8 _ _ _ _ quote induction =>
      simpa [scanChain, quote] using induction
  | case9 _ _ _ _ notQuote escape induction =>
      simpa [scanChain, notQuote, escape] using induction
  | case10 operator current _ _ notQuote notEscape matched found induction =>
      simp only [List.map_nil] at induction
      simp only [List.map_cons, scanChain, notQuote, notEscape, id, List.map_id, List.map_eq_nil_iff,
        ne_eq, if_false, found, ← induction, Option.map_map]
      congr 1
      funext segments
      simp [map_finishSegment]
  | case11 _ _ _ _ notQuote notEscape notFound background =>
      rw [background] at notFound
      simp [scanChain, background, notFound]
  | case12 _ _ _ _ notQuote notEscape notFound notBackground induction =>
      simp [scanChain, notQuote, notEscape, notFound, notBackground, induction]

theorem splitChain_stripped {line : Str} {segments : List Segment}
    (accepted : splitChain line = some segments) :
    ∀ segment ∈ segments, Text.strip segment.command = segment.command := by
  unfold splitChain at accepted
  split at accepted
  · cases accepted
  · split at accepted
    · cases accepted
    · rename_i scanned
      split at accepted
      · cases accepted
      · split at accepted
        · cases accepted
        · cases accepted
          exact scanChain_stripped scanned

end CmdChain

end LlmHoneypot
