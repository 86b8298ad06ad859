import LlmHoneypot.Downloader.Fetch
import LlmHoneypot.Foundation.Deletion

/-! # Redaction

What `strip_leaked_observation` leaves of an answer: which of its characters survive, and
which answers come out without a marker and without what the markers enclose. -/

namespace LlmHoneypot

namespace Downloader

open Deletion

/-- An opening marker and what follows it, up to the first closing one. -/
def Block (text : Str) : Prop :=
  ∃ body, text = OBSERVATION_OPEN ++ (body ++ OBSERVATION_CLOSE) ∧ ¬ OBSERVATION_CLOSE <:+: body

/-- What the two replacements leave out: an opening marker, or the characters of a closing one
with nothing but opening markers between them. -/
def Marker : Str → Prop := Layer OBSERVATION_OPEN OBSERVATION_CLOSE

def markerLength (marker text : Str) : Nat :=
  if marker.isPrefixOf text then marker.length else 0

/-- The characters that `strip_leaked_observation` leaves, each with its position in the
answer. -/
def survivors (text : Str) : List (Char × Nat) :=
  if Text.contains OBSERVATION_OPEN text ∨ Text.contains OBSERVATION_CLOSE text then
    cut Prod.fst (markerLength OBSERVATION_CLOSE)
      (cut Prod.fst (markerLength OBSERVATION_OPEN)
        (cut Prod.fst observationLength text.zipIdx))
  else text.zipIdx

theorem survivors_text (text : Str) :
    (survivors text).map Prod.fst = (stripLeakedObservation text).1 := by
  rw [survivors, stripLeakedObservation]
  split
  · rw [map_cut, map_cut, map_cut, List.zipIdx_map_fst]
    rfl
  · exact List.zipIdx_map_fst 0 text

def Leaks (text : Str) : Prop :=
  ∃ before after, text = before ++ (OBSERVATION_OPEN ++ after) ∧
    ∃ symbol ∈ survivors text, before.length + OBSERVATION_OPEN.length ≤ symbol.2 ∧
      symbol.2 < before.length + OBSERVATION_OPEN.length +
        ((Text.before? OBSERVATION_CLOSE after).getD after).length

structure Redacted (text : Str) : Prop where
  noOpening : ¬ OBSERVATION_OPEN <:+: (stripLeakedObservation text).1
  noClosing : ¬ OBSERVATION_CLOSE <:+: (stripLeakedObservation text).1
  fixed : (stripLeakedObservation (stripLeakedObservation text).1).1 =
    (stripLeakedObservation text).1
  sealed : ¬ Leaks text

/-- The markers of the answer are whole and in order. `outside` is the answer without its
blocks. -/
structure InOrder (text : Str) : Prop where
  /-- No marker is spelled with other markers between its characters, but for a closing one
  that the replacements meet. -/
  whole : ∀ outside, Pass id Block text outside →
    ∀ marker, marker = OBSERVATION_OPEN ∨ marker = OBSERVATION_CLOSE →
      ∀ spelled, spelled <:+: outside → Spells (Words Marker) marker spelled → Marker spelled
  /-- What follows an opening marker that no closing one follows is the end of a run of
  markers. -/
  ended : ∀ outside, Pass id Block text outside →
    ∀ before after, text = before ++ (OBSERVATION_OPEN ++ after) →
      ¬ OBSERVATION_CLOSE <:+: after →
        ∃ markers, markers <:+ outside ∧ after <:+ markers ∧ Words Marker markers

/-! ## Markers -/

theorem open_bracketed : Bracketed '[' ']' OBSERVATION_OPEN :=
  ⟨"SHELL_OBSERVED".toList, by decide⟩

theorem close_bracketed : Bracketed '[' ']' OBSERVATION_CLOSE :=
  ⟨"/SHELL_OBSERVED".toList, by decide⟩

theorem marker_nested : Nested '[' ']' Marker :=
  layer_nested (by decide) open_bracketed close_bracketed

theorem marker_bracketed {marker : Str}
    (isMarker : marker = OBSERVATION_OPEN ∨ marker = OBSERVATION_CLOSE) :
    Bracketed '[' ']' marker := by
  rcases isMarker with same | same
  · rw [same]
    exact open_bracketed
  · rw [same]
    exact close_bracketed

theorem close_not_opens (after : Str) : ¬ OBSERVATION_CLOSE <+: OBSERVATION_OPEN ++ after := by
  intro isPrefix
  have second := (List.cons_prefix_cons.mp (List.cons_prefix_cons.mp isPrefix).2).1
  exact absurd second (by decide)

theorem close_behind_open {body : Str}
    (isInfix : OBSERVATION_CLOSE <:+: OBSERVATION_OPEN ++ body) : OBSERVATION_CLOSE <:+: body := by
  rcases List.infix_cons_iff.mp isInfix with isPrefix | later
  · exact absurd isPrefix (close_not_opens body)
  · apply close_bracketed.infix_behind _ later
    decide

/-! ## Blocks -/

theorem block_nonempty : ¬ Block [] := by
  intro block
  rcases block with ⟨body, equal, -⟩
  cases equal

theorem block_separate : Separate Block := by
  intro first second block other isPrefix
  rcases block with ⟨body, rfl, free⟩
  rcases other with ⟨otherBody, rfl, otherFree⟩
  rcases isPrefix with ⟨rest, equal⟩
  rw [List.append_assoc, List.append_cancel_left_eq, List.append_assoc] at equal
  have whole : body ++ (OBSERVATION_CLOSE ++ rest) = otherBody ++ (OBSERVATION_CLOSE ++ []) := by
    rw [equal, List.append_nil]
  have before := close_bracketed.first_before (by decide) whole otherFree
  have after := close_bracketed.first_before (by decide) whole.symm free
  rw [before.eq_of_length_le after.length_le]

theorem finds_blocks : Finds observationLength Block := by
  constructor
  · intro text positive
    rw [observationLength] at positive ⊢
    split at positive
    · rename_i opens
      rw [if_pos opens]
      rcases List.isPrefixOf_iff_prefix.mp opens with ⟨rest, rfl⟩
      rw [List.drop_left] at positive ⊢
      cases closes : Text.before? OBSERVATION_CLOSE rest with
      | none =>
          rw [closes] at positive
          exact absurd positive (Nat.lt_irrefl 0)
      | some body =>
          rcases Text.before?_append closes with ⟨more, rfl, behind, rfl⟩
          have block : OBSERVATION_OPEN ++ (body ++ (OBSERVATION_CLOSE ++ behind)) =
              OBSERVATION_OPEN ++ (body ++ OBSERVATION_CLOSE) ++ behind := by
            simp only [List.append_assoc]
          have length : OBSERVATION_OPEN.length + body.length + OBSERVATION_CLOSE.length =
              (OBSERVATION_OPEN ++ (body ++ OBSERVATION_CLOSE)).length := by
            rw [List.length_append, List.length_append, Nat.add_assoc]
          rw [block]
          dsimp only
          rw [length, List.take_left]
          constructor
          · exact (List.prefix_append _ _).length_le
          · exact ⟨body, rfl, Text.before?_first (by decide) closes⟩
    · exact absurd positive (Nat.lt_irrefl 0)
  · intro text missed word isPrefix block
    rcases block with ⟨body, rfl, free⟩
    rcases isPrefix with ⟨rest, rfl⟩
    have opens : OBSERVATION_OPEN <+: OBSERVATION_OPEN ++ (body ++ OBSERVATION_CLOSE) ++ rest := by
      rw [List.append_assoc]
      exact List.prefix_append _ _
    rw [observationLength, if_pos (List.isPrefixOf_iff_prefix.mpr opens), List.append_assoc,
      List.drop_left] at missed
    cases closes : Text.before? OBSERVATION_CLOSE (body ++ OBSERVATION_CLOSE ++ rest) with
    | none =>
        apply Text.before?_eq_none_iff.mp closes
        rw [List.append_assoc]
        exact List.infix_append' _ _ _
    | some found =>
        rw [closes] at missed
        have positive : 0 < OBSERVATION_OPEN.length := by decide
        dsimp only at missed
        omega

theorem block_ends {word before rest : Str} (block : Block word)
    (equal : word = before ++ '[' :: rest) :
    ∃ more, '[' :: rest = more ++ OBSERVATION_CLOSE := by
  rcases block with ⟨body, rfl, -⟩
  rw [← List.append_assoc] at equal
  rcases List.append_eq_append_iff.mp equal with ⟨more, -, same⟩ | ⟨more, -, same⟩
  · by_cases nothing : more = []
    · apply Exists.intro []
      rw [same, nothing]
      rfl
    · have notInside := close_bracketed.not_inside (by decide) same nothing
      exact absurd (List.mem_cons_self ..) notInside
  · exact ⟨more, same⟩

section

variable {Symbol : Type} {glyph : Symbol → Char}

theorem block_reaches {word before more rest : List Symbol} (block : Block (word.map glyph))
    (equal : word = before ++ more) (within : more ≠ []) {after : Str}
    (opens : (more ++ rest).map glyph = OBSERVATION_OPEN ++ after) :
    ∃ first, more.map glyph = first ++ OBSERVATION_CLOSE := by
  rcases List.exists_cons_of_ne_nil within with ⟨symbol, tail, rfl⟩
  have bracket : glyph symbol = '[' := (List.cons.inj opens).1
  rw [List.map_cons, bracket]
  apply block_ends block
  rw [equal, List.map_append, List.map_cons, bracket]

theorem block_left_out {symbols kept : List Symbol} (pass : Pass glyph Block symbols kept)
    {before block behind : List Symbol} (whole : symbols = before ++ (block ++ behind))
    (isBlock : Block (block.map glyph)) : kept.Sublist (before ++ behind) := by
  induction pass generalizing before with
  | nil =>
      rw [(List.append_eq_nil_iff.mp (List.append_eq_nil_iff.mp whole.symm).2).1] at isBlock
      exact absurd isBlock block_nonempty
  | keep none later induction =>
      rcases before with _ | ⟨head, before⟩
      · apply absurd isBlock
        apply none
        rw [whole, List.nil_append, List.map_append]
        exact List.prefix_append _ _
      · rw [List.cons_append, List.cons.injEq] at whole
        rw [whole.1]
        exact (induction whole.2).cons_cons head
  | drop isWord later induction =>
      rename_i word rest kept
      rcases List.append_eq_append_iff.mp whole with ⟨more, same, left⟩ | ⟨more, same, inside⟩
      · apply (induction left).trans
        rw [same, List.append_assoc]
        exact List.sublist_append_right _ _
      · by_cases within : more = []
        · rw [within, List.nil_append] at inside
          apply (@induction [] inside.symm).trans
          exact List.sublist_append_right _ _
        · have atEnd : kept.Sublist behind := by
            apply later.sublist.trans
            rcases isBlock with ⟨body, blockText, free⟩
            have opens : (more ++ rest).map glyph =
                OBSERVATION_OPEN ++ (body ++ (OBSERVATION_CLOSE ++ behind.map glyph)) := by
              rw [← inside, List.map_append, blockText, List.append_assoc, List.append_assoc]
            rcases block_reaches isWord same within opens with ⟨first, ends⟩
            rcases List.append_eq_append_iff.mp inside with ⟨past, -, left⟩ | ⟨past, short, left⟩
            · rw [left]
              exact List.sublist_append_right _ _
            · rw [short, List.map_append, ends, List.append_assoc] at blockText
              have closes : first ++ (OBSERVATION_CLOSE ++ past.map glyph) =
                  OBSERVATION_OPEN ++ body ++ (OBSERVATION_CLOSE ++ []) := by
                rw [blockText, List.append_nil, List.append_assoc]
              have reaches := close_bracketed.first_before (by decide) closes
                (fun isInfix => free (close_behind_open isInfix))
              have lengths := congrArg List.length closes
              simp only [List.length_append, List.length_map, List.length_nil] at lengths
              have shorter := reaches.length_le
              rw [List.length_append] at shorter
              have nothing : past = [] := by
                apply List.length_eq_zero_iff.mp
                omega
              rw [left, nothing]
              exact List.Sublist.refl _
          exact atEnd.trans (List.sublist_append_right _ _)

theorem unclosed_kept {symbols kept : List Symbol} (pass : Pass glyph Block symbols kept)
    {before unclosed : List Symbol} (whole : symbols = before ++ unclosed) {after : Str}
    (opens : unclosed.map glyph = OBSERVATION_OPEN ++ after)
    (unended : ¬ OBSERVATION_CLOSE <:+: after) :
    ∃ front, kept = front ++ unclosed ∧ front.Sublist before := by
  have noClose : ¬ OBSERVATION_CLOSE <:+: unclosed.map glyph := by
    rw [opens]
    exact fun isInfix => unended (close_behind_open isInfix)
  have alone : ∀ kept, Pass glyph Block unclosed kept → kept = unclosed := by
    intro kept pass
    apply pass.idle
    intro word isInfix block
    rcases block with ⟨body, rfl, -⟩
    apply noClose
    rw [← List.append_assoc] at isInfix
    exact (List.suffix_append _ _).isInfix.trans isInfix
  induction pass generalizing before with
  | nil =>
      rw [(List.append_eq_nil_iff.mp whole.symm).2]
      exact ⟨[], rfl, List.nil_sublist _⟩
  | keep none later induction =>
      rcases before with _ | ⟨head, before⟩
      · rw [List.nil_append] at whole
        apply Exists.intro []
        apply And.intro _ (List.nil_sublist _)
        apply alone
        rw [← whole]
        exact Pass.keep none later
      · rw [List.cons_append, List.cons.injEq] at whole
        rcases induction whole.2 with ⟨front, equal, within⟩
        apply Exists.intro (head :: front)
        rw [whole.1, equal]
        exact ⟨rfl, within.cons_cons head⟩
  | drop isWord later induction =>
      rename_i word rest kept
      rcases List.append_eq_append_iff.mp whole with ⟨more, same, left⟩ | ⟨more, same, inside⟩
      · rcases induction left with ⟨front, equal, within⟩
        apply Exists.intro front
        apply And.intro equal
        rw [same]
        exact within.trans (List.sublist_append_right _ _)
      · by_cases within : more = []
        · rw [within, List.nil_append] at inside
          rcases @induction [] inside.symm with ⟨front, equal, nothing⟩
          apply Exists.intro front
          exact ⟨equal, nothing.trans (List.nil_sublist _)⟩
        · rw [inside] at opens
          rcases block_reaches isWord same within opens with ⟨first, ends⟩
          apply absurd _ noClose
          rw [inside, List.map_append, ends, List.append_assoc]
          exact List.infix_append' _ _ _

end

/-! ## The three passes -/

theorem finds_marker {marker : Str}
    (isMarker : marker = OBSERVATION_OPEN ∨ marker = OBSERVATION_CLOSE) :
    Finds (markerLength marker) (· = marker) := by
  apply finds_word
  have nest := (marker_bracketed isMarker).nest (by decide)
  exact nest.ne_nil

theorem cuts_idle {text : Str} {symbols : List (Char × Nat)} (glyphs : symbols.map Prod.fst = text)
    (noOpening : ¬ OBSERVATION_OPEN <:+: text) (noClosing : ¬ OBSERVATION_CLOSE <:+: text) :
    cut Prod.fst (markerLength OBSERVATION_CLOSE)
      (cut Prod.fst (markerLength OBSERVATION_OPEN)
        (cut Prod.fst observationLength symbols)) = symbols := by
  have noBlock : cut Prod.fst observationLength symbols = symbols := by
    apply (cut_pass finds_blocks symbols).idle
    intro word isInfix block
    rcases block with ⟨body, rfl, -⟩
    rw [glyphs] at isInfix
    exact noOpening ((List.prefix_append _ _).isInfix.trans isInfix)
  have noOpen : cut Prod.fst (markerLength OBSERVATION_OPEN) symbols = symbols := by
    apply (cut_pass (finds_marker (.inl rfl)) symbols).idle
    intro word isInfix same
    rw [same, glyphs] at isInfix
    exact noOpening isInfix
  rw [noBlock, noOpen]
  apply (cut_pass (finds_marker (.inr rfl)) symbols).idle
  intro word isInfix same
  rw [same, glyphs] at isInfix
  exact noClosing isInfix

theorem survivors_eq (text : Str) :
    survivors text = cut Prod.fst (markerLength OBSERVATION_CLOSE)
      (cut Prod.fst (markerLength OBSERVATION_OPEN)
        (cut Prod.fst observationLength text.zipIdx)) := by
  rw [survivors]
  split
  · rfl
  · rename_i free
    rw [not_or, Text.contains_iff_infix, Text.contains_iff_infix] at free
    exact (cuts_idle (List.zipIdx_map_fst 0 text) free.1 free.2).symm

theorem strip_of_free {text : Str} (noOpening : ¬ OBSERVATION_OPEN <:+: text)
    (noClosing : ¬ OBSERVATION_CLOSE <:+: text) : (stripLeakedObservation text).1 = text := by
  rw [← survivors_text, survivors_eq,
    cuts_idle (List.zipIdx_map_fst 0 text) noOpening noClosing, List.zipIdx_map_fst]

theorem survivors_pass (text : Str) :
    ∃ outside, Pass Prod.fst Block text.zipIdx outside ∧
      Pass Prod.fst Marker outside (survivors text) := by
  apply Exists.intro (cut Prod.fst observationLength text.zipIdx)
  apply And.intro (cut_pass finds_blocks _)
  rw [survivors_eq]
  apply Pass.layer (by decide) open_bracketed close_bracketed
  · exact cut_pass (finds_marker (.inl rfl)) _
  · exact cut_pass (finds_marker (.inr rfl)) _

theorem outside_eq {text : Str} {symbols : List (Char × Nat)}
    (pass : Pass Prod.fst Block text.zipIdx symbols) {outside : Str}
    (blocks : Pass id Block text outside) : outside = symbols.map Prod.fst := by
  have glyphs := pass.glyphs
  rw [List.zipIdx_map_fst] at glyphs
  exact glyphs.unique block_separate block_nonempty blocks

/-! ## Positions -/

theorem zipIdx_split {text before opening after : Str}
    (whole : text = before ++ (opening ++ after)) :
    text.zipIdx = before.zipIdx ++ (opening.zipIdx before.length ++
      after.zipIdx (before.length + opening.length)) := by
  rw [whole, List.zipIdx_append, List.zipIdx_append, Nat.zero_add]

theorem position_lt {text : Str} {symbol : Char × Nat} {first : Nat}
    (member : symbol ∈ text.zipIdx first) : symbol.2 < first + text.length :=
  List.snd_lt_add_of_mem_zipIdx member

theorem closed_sealed {before body behind : Str} {symbol : Char × Nat}
    (free : ¬ OBSERVATION_CLOSE <:+: body)
    (survives : symbol ∈
      survivors (before ++ (OBSERVATION_OPEN ++ (body ++ (OBSERVATION_CLOSE ++ behind))))) :
    symbol.2 < before.length ∨
      before.length + OBSERVATION_OPEN.length + body.length ≤ symbol.2 := by
  rcases survivors_pass
    (before ++ (OBSERVATION_OPEN ++ (body ++ (OBSERVATION_CLOSE ++ behind)))) with
    ⟨outside, blocks, markers⟩
  have split : before ++ (OBSERVATION_OPEN ++ (body ++ (OBSERVATION_CLOSE ++ behind))) =
      before ++ ((OBSERVATION_OPEN ++ (body ++ OBSERVATION_CLOSE)) ++ behind) := by
    simp only [List.append_assoc]
  have positions := zipIdx_split split
  have within := block_left_out blocks positions
    ⟨body, List.zipIdx_map_fst _ _, free⟩
  rcases List.mem_append.mp (within.subset (markers.sublist.subset survives)) with ahead | later
  · apply Or.inl
    have less := position_lt ahead
    omega
  · apply Or.inr
    have least := List.le_snd_of_mem_zipIdx later
    rw [List.length_append, List.length_append] at least
    omega

theorem unclosed_sealed_iff {text before after : Str}
    (whole : text = before ++ (OBSERVATION_OPEN ++ after))
    (unended : ¬ OBSERVATION_CLOSE <:+: after) {outside : Str} (blocks : Pass id Block text outside) :
    (∀ symbol ∈ survivors text, symbol.2 < before.length + OBSERVATION_OPEN.length) ↔
      ∃ markers, markers <:+ outside ∧ after <:+ markers ∧ Words Marker markers := by
  rcases survivors_pass text with ⟨symbols, pass, markersPass⟩
  have equal := outside_eq pass blocks
  have positions := zipIdx_split whole
  have opens : (OBSERVATION_OPEN.zipIdx before.length ++
      after.zipIdx (before.length + OBSERVATION_OPEN.length)).map Prod.fst =
        OBSERVATION_OPEN ++ after := by
    rw [List.map_append, List.zipIdx_map_fst, List.zipIdx_map_fst]
  rcases unclosed_kept pass positions opens unended with ⟨front, kept, within⟩
  rw [← List.append_assoc] at kept
  constructor
  · intro early
    have gone : ∀ symbol ∈ after.zipIdx (before.length + OBSERVATION_OPEN.length),
        symbol ∉ survivors text := by
      intro symbol member survives
      have least := List.le_snd_of_mem_zipIdx member
      have less := early symbol survives
      omega
    rcases markersPass.rear kept gone with ⟨first, second, parts, isWords⟩
    apply Exists.intro _
    apply And.intro _ (And.intro _ isWords)
    · rw [equal, kept, parts, List.append_assoc]
      exact (List.suffix_append first _).map Prod.fst
    · rw [List.map_append, List.zipIdx_map_fst]
      exact List.suffix_append _ _
  · intro run symbol survives
    rcases run with ⟨markers, isEnd, ends, isWords⟩
    rcases isEnd with ⟨ahead, split⟩
    rw [equal] at split
    rcases List.map_eq_append_iff.mp split.symm with ⟨early, late, parts, -, lateGlyphs⟩
    rw [← lateGlyphs] at isWords ends
    rw [parts] at markersPass
    have member := (markersPass.front marker_nested isWords).sublist.subset survives
    have longer := ends.length_le
    rw [List.length_map] at longer
    have early' : early <+: front ++ OBSERVATION_OPEN.zipIdx before.length := by
      have same := parts.symm.trans kept
      apply List.prefix_of_prefix_length_le (List.prefix_append early late)
      · rw [same]
        exact List.prefix_append _ _
      · have lengths := congrArg List.length same
        rw [List.length_append, List.length_append, List.length_zipIdx] at lengths
        omega
    rcases List.mem_append.mp (early'.subset member) with inFront | inOpening
    · have less := position_lt (within.subset inFront)
      omega
    · exact position_lt inOpening

/-! ## Completeness -/

/-- The redaction is complete exactly where the markers are whole and in order. -/
theorem redacted_iff (text : Str) : Redacted text ↔ InOrder text := by
  rcases survivors_pass text with ⟨symbols, pass, markersPass⟩
  have outsideText : Pass id Block text (symbols.map Prod.fst) := by
    have glyphs := pass.glyphs
    rw [List.zipIdx_map_fst] at glyphs
    exact glyphs
  constructor
  · intro redacted
    constructor
    · intro outside blocks marker isMarker spelled isInfix spells
      by_contra noWord
      rw [outside_eq pass blocks] at isInfix
      rcases isInfix with ⟨before, behind, whole⟩
      rw [List.append_assoc] at whole
      rcases List.map_eq_append_iff.mp whole.symm with ⟨first, rest, rfl, -, restGlyphs⟩
      rcases List.map_eq_append_iff.mp restGlyphs with ⟨middle, last, rfl, rfl, -⟩
      have read := markersPass.infix_spelled (by decide) marker_nested
        (marker_bracketed isMarker) spells noWord
      rw [survivors_text] at read
      rcases isMarker with rfl | rfl
      · exact redacted.noOpening read
      · exact redacted.noClosing read
    · intro outside blocks before after whole unended
      apply (unclosed_sealed_iff whole unended blocks).mp
      intro symbol survives
      by_contra late
      apply redacted.sealed
      apply Exists.intro before
      apply Exists.intro after
      apply And.intro whole
      apply Exists.intro symbol
      apply And.intro survives
      rw [Text.before?_eq_none_iff.mpr unended, Option.getD_none]
      have inText : symbol ∈ text.zipIdx :=
        pass.sublist.subset (markersPass.sublist.subset survives)
      have less := position_lt inText
      rw [whole, List.length_append, List.length_append] at less
      omega
  · intro inOrder
    have free : ∀ marker, marker = OBSERVATION_OPEN ∨ marker = OBSERVATION_CLOSE →
        ¬ marker <:+: (stripLeakedObservation text).1 := by
      intro marker isMarker isInfix
      rw [← survivors_text] at isInfix
      have started := ((marker_bracketed isMarker).nest (by decide)).ne_nil
      rcases markersPass.infix_lift started isInfix with ⟨spelled, isInfix, spells, noWord⟩
      exact noWord (inOrder.whole _ outsideText marker isMarker spelled isInfix spells)
    apply Redacted.mk (free _ (.inl rfl)) (free _ (.inr rfl))
    · exact strip_of_free (free _ (.inl rfl)) (free _ (.inr rfl))
    · intro leaks
      rcases leaks with ⟨before, after, whole, symbol, survives, least, less⟩
      cases closes : Text.before? OBSERVATION_CLOSE after with
      | none =>
          have unended := Text.before?_eq_none_iff.mp closes
          have ended := inOrder.ended _ outsideText before after whole unended
          have early := (unclosed_sealed_iff whole unended outsideText).mpr ended symbol survives
          omega
      | some body =>
          rw [closes, Option.getD_some] at less
          have first := Text.before?_first (by decide) closes
          rcases Text.before?_append closes with ⟨more, rfl, behind, rfl⟩
          rw [whole] at survives
          have apart := closed_sealed first survives
          omega

/-- A marker between the pieces of another one. -/
theorem redaction_rebuilds : ¬ Redacted "[SHELL_OB[SHELL_OBSERVED]SERVED]".toList := by
  intro redacted
  apply redacted.noOpening
  have rebuilt : (stripLeakedObservation "[SHELL_OB[SHELL_OBSERVED]SERVED]".toList).1 =
      OBSERVATION_OPEN := by decide
  rw [rebuilt]

end Downloader

end LlmHoneypot
