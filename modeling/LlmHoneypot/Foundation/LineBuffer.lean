import LlmHoneypot.Foundation.TextLines
import Mathlib.Data.List.Infix

/-! # Lines of a stream that arrives in chunks

A buffer that takes chunks and hands every line on as soon as its separator has come. A
line may be refused; nothing is taken after that, and what is left of the chunk stays in
the buffer. -/

namespace LlmHoneypot

structure LineBuffer (State Item : Type) where
  state : State
  buf : List Item := []
  refused : Bool := false

namespace LineBuffer

variable {State Item : Type}

structure IsCut (delivered whole : LineBuffer State Item) : Prop where
  state : delivered.state = whole.state
  refused : delivered.refused = whole.refused
  isPrefix : delivered.buf <+: whole.buf
  taken : whole.refused = false → delivered.buf = whole.buf

theorem IsCut.eq {delivered whole : LineBuffer State Item} (isCut : IsCut delivered whole)
    (taken : whole.refused = false) : delivered = whole := by
  have stateEq := isCut.state
  have refusedEq := isCut.refused
  have bufEq := isCut.taken taken
  cases delivered
  cases whole
  simp only at stateEq refusedEq bufEq
  rw [stateEq, refusedEq, bufEq]

def joinLines (separator : Item) (lines : List (List Item)) : List Item :=
  lines.flatMap (· ++ [separator])

theorem joinLines_cons {separator : Item} (line : List Item) (lines : List (List Item)) (rest : List Item) :
    joinLines separator (line :: lines) ++ rest =
      line ++ separator :: (joinLines separator lines ++ rest) := by
  rw [joinLines, List.flatMap_cons, ← joinLines, List.append_assoc, List.append_assoc]
  rfl

theorem taken_or_refused (take : State → List Item → Option State) (state : State)
    (lines : List (List Item)) :
    (∃ final, lines.foldlM take state = some final) ∨
      ∃ before line after reached, lines = before ++ line :: after ∧
        before.foldlM take state = some reached ∧ take reached line = none := by
  induction lines generalizing state with
  | nil => exact .inl ⟨state, rfl⟩
  | cons line lines induction =>
      cases taken : take state line with
      | none => exact .inr ⟨[], line, lines, state, rfl, rfl, taken⟩
      | some next =>
          rcases induction next with ⟨final, finalEq⟩ | ⟨before, other, after, reached, linesEq,
            reachedEq, refused⟩
          · left
            refine ⟨final, ?_⟩
            rw [List.foldlM_cons, taken]
            exact finalEq
          · right
            refine ⟨line :: before, other, after, reached, ?_, ?_, refused⟩
            · rw [linesEq, List.cons_append]
            · rw [List.foldlM_cons, taken]
              exact reachedEq

variable [DecidableEq Item]

def splitLine (separator : Item) : List Item → Option (List Item × List Item)
  | [] => none
  | item :: rest =>
      if item = separator then some ([], rest)
      else (splitLine separator rest).map fun split => (item :: split.1, split.2)

theorem splitLine_eq_some {separator : Item} {buf line rest : List Item}
    (split : splitLine separator buf = some (line, rest)) :
    buf = line ++ separator :: rest ∧ separator ∉ line := by
  induction buf generalizing line with
  | nil => cases split
  | cons item tail induction =>
      rw [splitLine] at split
      split at split
      · next isSeparator =>
        cases split
        simp [isSeparator]
      · next differs =>
        rw [Option.map_eq_some_iff] at split
        obtain ⟨found, splitTail, equal⟩ := split
        cases equal
        obtain ⟨tailEq, absent⟩ := induction splitTail
        constructor
        · rw [tailEq]
          rfl
        · rw [List.mem_cons, not_or]
          exact ⟨fun equal => differs equal.symm, absent⟩

theorem splitLine_eq_none {separator : Item} {buf : List Item} :
    splitLine separator buf = none ↔ separator ∉ buf := by
  induction buf with
  | nil => simp [splitLine]
  | cons item tail induction =>
      rw [splitLine, List.mem_cons, not_or]
      split
      · next isSeparator => simp [isSeparator]
      · next differs =>
        rw [Option.map_eq_none_iff, induction]
        exact ⟨fun absent => ⟨fun equal => differs equal.symm, absent⟩, And.right⟩

theorem length_of_splitLine {separator : Item} {buf line rest : List Item}
    (split : splitLine separator buf = some (line, rest)) : rest.length < buf.length := by
  rw [(splitLine_eq_some split).1, List.length_append, List.length_cons]
  omega

variable (separator : Item) (take : State → List Item → Option State)

def drain (state : State) (buf : List Item) : LineBuffer State Item :=
  match split : splitLine separator buf with
  | none => { state, buf }
  | some (line, rest) =>
      match take state line with
      | none => { state, buf := rest, refused := true }
      | some next =>
          have : rest.length < buf.length := length_of_splitLine split
          drain next rest
  termination_by buf.length

def receive (buffer : LineBuffer State Item) (chunk : List Item) : LineBuffer State Item :=
  if buffer.refused then buffer
  else drain separator take buffer.state (buffer.buf ++ chunk)

def deliver (state : State) (chunks : List (List Item)) : LineBuffer State Item :=
  chunks.foldl (receive separator take) { state }

variable {separator take}

theorem drain_of_none {state : State} {buf : List Item}
    (unsplit : splitLine separator buf = none) : drain separator take state buf = { state, buf } := by
  rw [drain.eq_def]
  split
  · rfl
  · next split => rw [unsplit] at split; cases split

theorem drain_of_refused {state : State} {buf line rest : List Item}
    (split : splitLine separator buf = some (line, rest)) (refused : take state line = none) :
    drain separator take state buf = { state, buf := rest, refused := true } := by
  rw [drain.eq_def]
  split
  · next unsplit => rw [split] at unsplit; cases unsplit
  · next found =>
    rw [split] at found
    cases found
    rw [refused]

theorem drain_of_taken {state next : State} {buf line rest : List Item}
    (split : splitLine separator buf = some (line, rest)) (taken : take state line = some next) :
    drain separator take state buf = drain separator take next rest := by
  rw [drain.eq_def]
  split
  · next unsplit => rw [split] at unsplit; cases unsplit
  · next found =>
    rw [split] at found
    cases found
    rw [taken]

theorem drain_of_notMem {state : State} {buf : List Item} (absent : separator ∉ buf) :
    drain separator take state buf = { state, buf } :=
  drain_of_none (splitLine_eq_none.mpr absent)

theorem drain_line {state : State} {line rest : List Item} (absent : separator ∉ line) :
    drain separator take state (line ++ separator :: rest) =
      match take state line with
      | none => { state, buf := rest, refused := true }
      | some next => drain separator take next rest := by
  have split : splitLine separator (line ++ separator :: rest) = some (line, rest) := by
    induction line with
    | nil => simp [splitLine]
    | cons item tail induction =>
        rw [List.mem_cons, not_or] at absent
        rw [List.cons_append, splitLine, if_neg (Ne.symm absent.1), induction absent.2]
        rfl
  cases taken : take state line with
  | none => exact drain_of_refused split taken
  | some next => exact drain_of_taken split taken

theorem drain_append (state : State) (buf later : List Item) :
    drain separator take state (buf ++ later) =
      let drained := drain separator take state buf
      if drained.refused then { drained with buf := drained.buf ++ later }
      else drain separator take drained.state (drained.buf ++ later) := by
  induction buf using @TextLines.induction_lines _ _ separator generalizing state with
  | last buf absent => rw [drain_of_notMem absent]; simp
  | next line rest absent induction =>
      rw [List.append_assoc, List.cons_append, drain_line absent, drain_line absent]
      cases take state line with
      | none => simp
      | some next => exact induction next

/-! ## Lines -/

theorem exists_lines (separator : Item) (stream : List Item) :
    ∃ lines last, stream = joinLines separator lines ++ last ∧
      (∀ line ∈ lines, separator ∉ line) ∧ separator ∉ last := by
  induction stream using @TextLines.induction_lines _ _ separator with
  | last stream absent => exact ⟨[], stream, rfl, by simp, absent⟩
  | next line rest absent induction =>
      obtain ⟨lines, last, restEq, whole, lastAbsent⟩ := induction
      refine ⟨line :: lines, last, ?_, ?_, lastAbsent⟩
      · rw [joinLines_cons, restEq]
      · exact List.forall_mem_cons.mpr ⟨absent, whole⟩

theorem splitOn_joinLines {lines : List (List Item)} {last : List Item}
    (whole : ∀ line ∈ lines, separator ∉ line) (absent : separator ∉ last) :
    (joinLines separator lines ++ last).splitOn separator = lines ++ [last] := by
  have differs : ∀ line : List Item, separator ∉ line → ∀ item ∈ line, (item == separator) = false := by
    intro line absent item member
    rw [beq_eq_false_iff_ne]
    intro equal
    exact absent (equal ▸ member)
  induction lines with
  | nil => exact List.splitOn_eq_singleton_of_beq_eq_false (differs last absent)
  | cons line lines induction =>
      rw [List.forall_mem_cons] at whole
      rw [joinLines_cons, List.splitOn_eq_splitOnP,
        List.splitOnP_append_cons_of_forall_mem (differs line whole.1) separator (by simp),
        ← List.splitOn_eq_splitOnP, induction whole.2]
      rfl

theorem drain_joinLines {state final : State} {lines : List (List Item)} {rest : List Item}
    (whole : ∀ line ∈ lines, separator ∉ line) (taken : lines.foldlM take state = some final) :
    drain separator take state (joinLines separator lines ++ rest) =
      drain separator take final rest := by
  induction lines generalizing state with
  | nil =>
      cases taken
      rfl
  | cons line lines induction =>
      rw [List.forall_mem_cons] at whole
      rw [List.foldlM_cons, Option.bind_eq_bind, Option.bind_eq_some_iff] at taken
      obtain ⟨next, lineTaken, linesTaken⟩ := taken
      rw [joinLines_cons, drain_line whole.1, lineTaken]
      exact induction whole.2 linesTaken

/-! ## Chunks -/

theorem drain_append_of_taken {state : State} {buf : List Item} (later : List Item)
    (taken : (drain separator take state buf).refused = false) :
    drain separator take state (buf ++ later) =
      drain separator take (drain separator take state buf).state
        ((drain separator take state buf).buf ++ later) := by
  rw [drain_append]
  simp [taken]

theorem drain_append_of_refused {state : State} {buf : List Item} (later : List Item)
    (refused : (drain separator take state buf).refused = true) :
    drain separator take state (buf ++ later) =
      { drain separator take state buf with
        buf := (drain separator take state buf).buf ++ later } := by
  rw [drain_append]
  simp [refused]

theorem deliver_concat (state : State) (chunks : List (List Item)) (chunk : List Item) :
    deliver separator take state (chunks ++ [chunk]) =
      receive separator take (deliver separator take state chunks) chunk := by
  rw [deliver, List.foldl_append, ← deliver, List.foldl_cons, List.foldl_nil]

theorem isCut_deliver (state : State) (chunks : List (List Item)) :
    IsCut (deliver separator take state chunks) (drain separator take state chunks.flatten) := by
  induction chunks using List.reverseRecOn with
  | nil =>
      have absent : separator ∉ ([] : List Item) := by simp
      rw [List.flatten_nil, drain_of_notMem absent]
      exact ⟨rfl, rfl, List.prefix_rfl, fun _ => rfl⟩
  | append_singleton chunks chunk induction =>
      rw [List.flatten_append, List.flatten_singleton, deliver_concat, receive]
      cases refused : (drain separator take state chunks.flatten).refused with
      | false =>
          rw [induction.eq refused, drain_append_of_taken chunk refused, if_neg (by simp [refused])]
          exact ⟨rfl, rfl, List.prefix_rfl, fun _ => rfl⟩
      | true =>
          have before := induction.refused.trans refused
          rw [if_pos before, drain_append_of_refused chunk refused]
          constructor
          · exact induction.state
          · exact induction.refused
          · exact induction.isPrefix.trans (List.prefix_append _ _)
          · intro taken
            rw [refused] at taken
            cases taken

theorem deliver_of_taken {state : State} {chunks : List (List Item)}
    (taken : (drain separator take state chunks.flatten).refused = false) :
    deliver separator take state chunks = drain separator take state chunks.flatten :=
  (isCut_deliver state chunks).eq taken

theorem drain_cut {state : State} {stream kept lost : List Item}
    (refused : (drain separator take state stream).refused = true)
    (cut : (drain separator take state stream).buf = kept ++ lost) :
    ∃ first, stream = first ++ lost ∧
      drain separator take state first =
        { drain separator take state stream with buf := kept } := by
  induction stream using @TextLines.induction_lines _ _ separator generalizing state with
  | last stream absent =>
      rw [drain_of_notMem absent] at refused
      cases refused
  | next line rest absent induction =>
      rw [drain_line absent] at refused cut ⊢
      cases result : take state line with
      | none =>
          rw [result] at cut
          refine ⟨line ++ separator :: kept, ?_, ?_⟩
          · rw [show rest = kept ++ lost from cut, List.append_assoc, List.cons_append]
          · rw [drain_line absent, result]
      | some next =>
          rw [result] at refused cut
          obtain ⟨first, restEq, drained⟩ := induction refused cut
          refine ⟨line ++ separator :: first, ?_, ?_⟩
          · rw [restEq, List.append_assoc, List.cons_append]
          · rw [drain_line absent, result]
            exact drained

theorem deliver_singleton (state : State) (stream : List Item) :
    deliver separator take state [stream] = drain separator take state stream := by
  simp [deliver, receive]

theorem deliver_cut {state : State} {stream kept : List Item}
    (refused : (drain separator take state stream).refused = true)
    (isPrefix : kept <+: (drain separator take state stream).buf) :
    ∃ chunks, chunks.flatten = stream ∧
      deliver separator take state chunks =
        { drain separator take state stream with buf := kept } := by
  obtain ⟨lost, cut⟩ := isPrefix
  obtain ⟨first, streamEq, drained⟩ := drain_cut refused cut.symm
  refine ⟨[first, lost], ?_, ?_⟩
  · rw [streamEq]
    simp
  · rw [deliver, List.foldl_cons, List.foldl_cons, List.foldl_nil]
    have firstReceived : receive separator take { state } first =
        drain separator take state first := by
      rw [receive, if_neg (by simp), List.nil_append]
    rw [firstReceived, drained, receive, if_pos refused]

end LineBuffer

end LlmHoneypot
