import LlmHoneypot.Foundation.ByteStrings
import LlmHoneypot.Foundation.Returns

/-! # Lines of a network virtual terminal

A line ends with a carriage return and a line feed, or with a carriage return and a null
byte. It may come in any number of packets. -/

namespace LlmHoneypot

namespace Nvt

open ByteString

def CR : UInt8 := 13
def LF : UInt8 := 10
def NUL : UInt8 := 0

def EndsLine (byte : UInt8) : Prop := byte = LF ∨ byte = NUL

instance : DecidablePred EndsLine := fun _ => inferInstanceAs (Decidable (_ ∨ _))

/-! ## One line in packets -/

inductive Cut (lineEnd : UInt8) : Bytes → List Bytes → Prop where
  | whole (line : Bytes) : Cut lineEnd line [line ++ [CR, lineEnd]]
  | split (line : Bytes) : Cut lineEnd line [line ++ [CR], [lineEnd]]
  | more (packet : Bytes) {line : Bytes} {packets : List Bytes} :
      Cut lineEnd line packets → Cut lineEnd (packet ++ line) (packet :: packets)

private theorem cut_nothing {packets : List Bytes} (nonempty : ∀ packet ∈ packets, packet ≠ [])
    (stream : packets.flatten = []) : packets = [] := by
  cases packets with
  | nil => rfl
  | cons packet packets =>
      rw [List.flatten_cons, List.append_eq_nil_iff] at stream
      exact absurd stream.1 (nonempty packet (List.mem_cons_self ..))

private theorem cut_single {packets : List Bytes} {byte : UInt8}
    (nonempty : ∀ packet ∈ packets, packet ≠ []) (stream : packets.flatten = [byte]) :
    packets = [[byte]] := by
  cases packets with
  | nil => cases stream
  | cons packet packets =>
      have later := fun other member => nonempty other (List.mem_cons_of_mem packet member)
      rw [List.flatten_cons, List.append_eq_singleton_iff] at stream
      rcases stream with ⟨empty, _⟩ | ⟨rfl, none⟩
      · exact absurd empty (nonempty packet (List.mem_cons_self ..))
      · rw [cut_nothing later none]

theorem Cut.of_flatten {lineEnd : UInt8} {line : Bytes} {packets : List Bytes}
    (nonempty : ∀ packet ∈ packets, packet ≠ [])
    (stream : packets.flatten = line ++ [CR, lineEnd]) : Cut lineEnd line packets := by
  induction packets generalizing line with
  | nil => simp at stream
  | cons packet packets induction =>
      have later := fun other member => nonempty other (List.mem_cons_of_mem _ member)
      rw [List.flatten_cons, List.append_eq_append_iff] at stream
      rcases stream with ⟨rest, rfl, restEq⟩ | ⟨ending, rfl, restEq⟩
      · exact .more packet (induction later restEq)
      · match ending, restEq with
        | [], restEq =>
            have ended : packets.flatten = [] ++ [CR, lineEnd] := restEq.symm
            have := Cut.more line (induction later ended)
            rwa [List.append_nil] at this ⊢
        | [first], restEq =>
            obtain ⟨rfl, lastEq⟩ := List.cons.inj restEq
            rw [cut_single later lastEq.symm]
            exact .split line
        | [first, second], restEq =>
            simp only [List.cons_append, List.nil_append, List.cons.injEq] at restEq
            obtain ⟨rfl, rfl, none⟩ := restEq
            rw [cut_nothing later none.symm]
            exact .whole line
        | first :: second :: third :: others, restEq => simp at restEq

/-- A receiver of a line: what it does at each packet of the line, at the one with its end,
and at one that breaks off between the two bytes of its end, where it raises. -/
structure Receiver {State Error : Type} (step : State → Bytes → Except Error State)
    (content : UInt8 → Prop) (lineEnd : UInt8) (reading : Bytes → State → Prop)
    (plain ended : Bytes → Prop) (done : Bytes → State → Prop) : Prop where
  typed : ∀ {line packet state}, (∀ byte ∈ packet, content byte) → reading line state →
    ReturnsWhen (step state packet) (plain packet) (reading (line ++ packet))
  ends : ∀ {line packet state}, (∀ byte ∈ packet, content byte) → reading line state →
    ReturnsWhen (step state (packet ++ [CR, lineEnd]))
      (plain (packet ++ [CR, lineEnd]) ∧ ended (line ++ packet)) (done (line ++ packet))
  breaks : ∀ {line packet state}, (∀ byte ∈ packet, content byte) → reading line state →
    ∃ error, step state (packet ++ [CR]) = .error error

theorem Receiver.receives {State Error : Type} {step : State → Bytes → Except Error State}
    {content : UInt8 → Prop} {lineEnd : UInt8} {reading done : Bytes → State → Prop}
    {plain ended : Bytes → Prop}
    (receiver : Receiver step content lineEnd reading plain ended done) {line rest : Bytes}
    {packets : List Bytes} (cut : Cut lineEnd rest packets)
    (contents : ∀ byte ∈ rest, content byte) (free : ¬ content CR) (ending : lineEnd ≠ CR)
    {state : State} (start : reading line state) :
    ReturnsWhen (packets.foldlM step state)
      ((∀ packet ∈ packets, packet.getLast? ≠ some CR ∧ plain packet) ∧ ended (line ++ rest))
      (done (line ++ rest)) := by
  induction cut generalizing line state with
  | whole packet =>
      rw [List.foldlM_cons]
      have last := (receiver.ends contents start).bind fun value holds => ReturnsWhen.ok holds
      refine last.congr ?_
      simp [ending]
  | split packet =>
      have raised := receiver.breaks contents start
      obtain ⟨error, raised⟩ := raised
      rw [List.foldlM_cons, raised]
      refine (ReturnsWhen.raising ⟨error, rfl⟩).congr ?_
      simp
  | @more packet rest packets cut induction =>
      rw [List.foldlM_cons]
      have first : ∀ byte ∈ packet, content byte := fun byte member =>
        contents byte (List.mem_append_left _ member)
      have others : ∀ byte ∈ rest, content byte := fun byte member =>
        contents byte (List.mem_append_right _ member)
      have notCR : packet.getLast? ≠ some CR := by
        intro isLast
        exact free (first CR (List.mem_of_getLast? isLast))
      have both := (receiver.typed first start).bind fun value holds => induction others holds
      rw [List.append_assoc] at both
      refine both.congr ?_
      simp [notCR, and_assoc]

/-! ## Lines of a stream -/

/-- The lines that end in a stream, and what is left of the last one. The first one starts
with what was read before. -/
def lines : Bytes → Bytes → List Bytes × Bytes
  | line, [] => ([], line)
  | line, [byte] => ([], line ++ [byte])
  | line, first :: second :: rest =>
      if first = CR ∧ EndsLine second then
        (line :: (lines [] rest).1, (lines [] rest).2)
      else lines (line ++ [first]) (second :: rest)

def filled (lines : List Bytes) : List Bytes := lines.filter (· ≠ [])

def paired : Bytes → Bool
  | [] => true
  | [byte] => byte ≠ CR
  | first :: second :: rest =>
      if first = CR then EndsLine second && paired rest else paired (second :: rest)

theorem lines_plain {byte : UInt8} (line rest : Bytes) (plain : byte ≠ CR) :
    lines line (byte :: rest) = lines (line ++ [byte]) rest := by
  cases rest with
  | nil => rfl
  | cons second rest => rw [lines, if_neg fun both => plain both.1]

theorem lines_end {second : UInt8} (line rest : Bytes) (ending : EndsLine second) :
    lines line (CR :: second :: rest) = (line :: (lines [] rest).1, (lines [] rest).2) := by
  rw [lines, if_pos ⟨rfl, ending⟩]

theorem paired_plain {byte : UInt8} {rest : Bytes} (plain : byte ≠ CR) :
    paired (byte :: rest) = paired rest := by
  cases rest with
  | nil => simp [paired, plain]
  | cons second rest => rw [paired, if_neg plain]

theorem paired_end {second : UInt8} {rest : Bytes} (ending : EndsLine second) :
    paired (CR :: second :: rest) = paired rest := by
  rw [paired, if_pos rfl, decide_eq_true ending, Bool.true_and]

@[elab_as_elim]
theorem paired_induction {motive : ∀ data : Bytes, paired data = true → Prop} (nil : motive [] rfl)
    (plain : ∀ byte rest (isPlain : byte ≠ CR) (isPaired : paired rest = true),
      motive rest isPaired → motive (byte :: rest) ((paired_plain isPlain).trans isPaired))
    (ended : ∀ second rest (ending : EndsLine second) (isPaired : paired rest = true),
      motive rest isPaired → motive (CR :: second :: rest) ((paired_end ending).trans isPaired)) :
    ∀ data (isPaired : paired data = true), motive data isPaired
  | [], _ => nil
  | byte :: rest, isPaired => by
      by_cases isCR : byte = CR
      · subst isCR
        cases rest with
        | nil => cases isPaired
        | cons second rest =>
            have both := isPaired
            rw [paired, if_pos rfl, Bool.and_eq_true, decide_eq_true_eq] at both
            exact ended second rest both.1 both.2 (paired_induction nil plain ended rest both.2)
      · have later := (paired_plain isCR).symm.trans isPaired
        exact plain byte rest isCR later (paired_induction nil plain ended rest later)

theorem lines_of_notMem {data : Bytes} (line : Bytes) (absent : CR ∉ data) :
    lines line data = ([], line ++ data) := by
  induction data generalizing line with
  | nil => rw [lines, List.append_nil]
  | cons byte rest induction =>
      rw [List.mem_cons, not_or] at absent
      rw [lines_plain line rest (Ne.symm absent.1), induction _ absent.2, List.append_assoc]
      rfl

theorem lines_append {data : Bytes} (isPaired : paired data = true) (line later : Bytes) :
    lines line (data ++ later) =
      ((lines line data).1 ++ (lines (lines line data).2 later).1,
        (lines (lines line data).2 later).2) := by
  induction data, isPaired using paired_induction generalizing line with
  | nil =>
    rw [lines]
    rfl
  | plain byte rest plain _ induction =>
    rw [List.cons_append, lines_plain line _ plain, lines_plain line rest plain, induction]
  | ended second rest ending _ induction =>
    rw [List.cons_append, List.cons_append, lines_end line _ ending, lines_end line rest ending,
      induction]
    rfl

theorem paired_append {data later : Bytes} (isPaired : paired data = true) :
    paired (data ++ later) = paired later := by
  induction data, isPaired using paired_induction with
  | nil => rfl
  | plain byte rest plain _ induction => rw [List.cons_append, paired_plain plain, induction]
  | ended second rest ending _ induction =>
    rw [List.cons_append, List.cons_append, paired_end ending, induction]

theorem withoutEnds_eq {data : Bytes} (isPaired : paired data = true) (line : Bytes) :
    line ++ replace [CR, LF] [] (replace [CR, NUL] [] data) =
      (lines line data).1.flatten ++ (lines line data).2 := by
  induction data, isPaired using paired_induction generalizing line with
  | nil =>
    rw [lines]
    exact List.append_nil line
  | plain byte rest plain _ induction =>
    rw [lines_plain line rest plain, ← induction, replace_cons_of_ne _ _ _ plain,
      replace_cons_of_ne _ _ _ plain, List.append_assoc]
    rfl
  | ended second rest ending _ induction =>
    rw [lines_end line rest ending, List.flatten_cons, List.append_assoc, ← induction]
    rcases ending with rfl | rfl
    · have inner : replace [CR, NUL] [] (CR :: LF :: rest) =
          CR :: LF :: replace [CR, NUL] [] rest := by
        rw [replace_pair_cons rest (by decide), replace_cons_of_ne [NUL] [] rest (by decide)]
      rw [inner, replace_pair]
      rfl
    · rw [replace_pair]
      rfl

theorem filled_of_length_le {lines : List Bytes} (atMost : (filled lines).length ≤ 1) :
    filled lines = if lines.flatten = [] then [] else [lines.flatten] := by
  induction lines with
  | nil => rfl
  | cons line lines induction =>
      rw [filled, List.filter_cons] at atMost ⊢
      rw [List.flatten_cons]
      by_cases empty : line = []
      · subst empty
        exact induction atMost
      · have isFilled : decide (line ≠ []) = true := decide_eq_true empty
        rw [if_pos isFilled] at atMost ⊢
        have none : filled lines = [] := by
          rw [List.length_cons] at atMost
          exact List.eq_nil_of_length_eq_zero (by rw [filled]; omega)
        have flat : lines.flatten = [] := by
          rw [List.flatten_eq_nil_iff]
          intro other member
          have := List.filter_eq_nil_iff.mp none other member
          simpa using this
        rw [flat, List.append_nil, if_neg empty]
        exact congrArg (line :: ·) none

end Nvt

end LlmHoneypot
