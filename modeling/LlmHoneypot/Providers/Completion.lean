import LlmHoneypot.Providers.SseStream

/-! # Completion of a stream

`providers/streaming.py`: what a backend may send without costing the attacker the answer. -/

namespace LlmHoneypot

def Json.Loaded.reading (parseEvent : Providers.Sse.ParseEvent) :
    Json.Loaded → Providers.Sse.Reading
  | .raised => .raised
  | .value (.object event) => .event (parseEvent event)
  | .invalid | .value _ => .skipped

namespace Providers

namespace Sse

open Json (Members codePoints)

section

variable (depth : Nat) (parseEvent : ParseEvent)

/-- `dataReceived` with every chunk, then `connectionLost`: nothing is raised, and the
completion is fired with a diagnosis that is empty if and only if the text is not. -/
structure Completes (chunks : List Bytes) : Prop where
  received :
    (LineBuffer.deliver 10 (StreamingBodyConsumer.processLine depth parseEvent) {} chunks).refused =
      false
  completed : ∃ completion, (consume depth parseEvent chunks).completion = some completion ∧
    (completion.diagnosis = [] ↔ completion.text ≠ [])

/-! ## What a line holds -/

/-- The payload that `_process_line` hands to `json.loads`. -/
def payload? (line : Bytes) : Option Bytes :=
  if DATA <+: line then
    let payload := strip (line.drop DATA.length)
    if payload = [] ∨ payload = DONE then none else some payload
  else none

/-- A payload on which `json.loads` raises nothing but `JSONDecodeError`, with no delta text
but a string or one that counts as empty. -/
structure Harmless (payload : Bytes) : Prop where
  loads : Json.loads depth payload ≠ .raised
  text : ∀ event parsed text, Json.loads depth payload = .value (.object event) →
    parseEvent event = some parsed → parsed.text = some text → text.truthy →
    ∃ str, text = .str str

end

section

variable {depth : Nat} {parseEvent : ParseEvent}

theorem read_of_no_payload {line : Bytes} (isPayload : payload? line = none) :
    read depth parseEvent line = .skipped := by
  rw [payload?] at isPayload
  rw [read]
  by_cases isData : DATA <+: line
  · rw [if_pos isData] at isPayload
    rw [if_neg (not_not.mpr isData)]
    by_cases empty : strip (line.drop DATA.length) = [] ∨ strip (line.drop DATA.length) = DONE
    · exact if_pos empty
    · rw [if_neg empty] at isPayload
      cases isPayload
  · exact if_pos isData

theorem read_of_payload {line payload : Bytes} (isPayload : payload? line = some payload) :
    read depth parseEvent line = (Json.loads depth payload).reading parseEvent := by
  rw [payload?] at isPayload
  rw [read]
  split at isPayload
  · next isData =>
    rw [if_neg (not_not.mpr isData)]
    by_cases empty : strip (line.drop DATA.length) = [] ∨ strip (line.drop DATA.length) = DONE
    · rw [if_pos empty] at isPayload
      cases isPayload
    · rw [if_neg empty] at isPayload ⊢
      rw [Option.some.inj isPayload]
      cases Json.loads depth payload with
      | raised => rfl
      | invalid => rfl
      | value value => cases value <;> rfl
  · cases isPayload

theorem readable_iff (line : Bytes) :
    Readable depth parseEvent line ↔ ∀ payload ∈ payload? line, Harmless depth parseEvent payload := by
  rw [Readable]
  cases isPayload : payload? line with
  | none =>
      rw [read_of_no_payload isPayload]
      simp [Reading.deltas]
  | some payload =>
      rw [read_of_payload isPayload]
      constructor
      · intro readable _ same
        rw [← Option.some.inj same]
        constructor
        · intro raised
          rw [raised] at readable
          exact readable.1 rfl
        · intro event parsed text loaded result isText truthy
          rw [loaded] at readable
          apply readable.2
          rw [Json.Loaded.reading, result, Reading.deltas, Option.mem_toList, isText]
          exact Option.filter_eq_some_iff.mpr ⟨rfl, truthy⟩
      · intro every
        have harmless := every payload rfl
        cases loaded : Json.loads depth payload with
        | raised => exact (harmless.loads loaded).elim
        | invalid => simp [Json.Loaded.reading, Reading.deltas]
        | value value =>
            cases value with
            | object event =>
                rw [Json.Loaded.reading]
                cases result : parseEvent event with
                | none => simp [Reading.deltas]
                | some parsed =>
                    apply And.intro (by simp)
                    intro text member
                    rw [Reading.deltas, Option.mem_toList] at member
                    have held := Option.filter_eq_some_iff.mp member
                    exact harmless.text event parsed text loaded result held.1 held.2
            | _ => simp [Json.Loaded.reading, Reading.deltas]

/-! ## Completion -/

namespace StreamingBodyConsumer

theorem texts_truthy {consumer final : StreamingBodyConsumer} {lines : List Bytes}
    (counted : Counted consumer) (start : ∀ text ∈ consumer.accumulatedText, text.truthy)
    (taken : lines.foldlM (processLine depth parseEvent) consumer = some final) :
    ∀ text ∈ final.accumulatedText, text.truthy := by
  rcases run_lines counted taken with ⟨_, _, texts⟩
  intro text member
  rw [texts, List.mem_append, List.mem_flatMap] at member
  rcases member with old | ⟨line, _, new⟩
  · exact start text old
  · rw [Reading.deltas.eq_def] at new
    split at new
    · rw [Option.mem_toList, orNone] at new
      exact (Option.filter_eq_some_iff.mp new).2
    · cases new

end StreamingBodyConsumer

theorem join_eq_nil {texts : List Json} (truthy : ∀ text ∈ texts, text.truthy)
    (joined : join texts = some []) : texts = [] := by
  cases texts with
  | nil => rfl
  | cons text rest =>
      cases text with
      | str found =>
          rw [join, Option.map_eq_some_iff] at joined
          rcases joined with ⟨later, _, empty⟩
          have nothing : found = [] := (List.append_eq_nil_iff.mp empty).1
          have shown := truthy _ (List.mem_cons_self ..)
          rw [nothing] at shown
          cases shown
      | _ => cases joined

theorem diagnosis_eq_nil (consumer : StreamingBodyConsumer) :
    consumer.diagnosis = [] ↔ consumer.accumulatedText ≠ [] := by
  constructor
  · intro healthy none
    rw [StreamingBodyConsumer.diagnosis, if_neg (not_not.mpr none)] at healthy
    split at healthy
    · cases healthy
    · split at healthy
      · have long := StreamingBodyConsumer.length_wireFormatMismatch
        rw [(List.append_eq_nil_iff.mp healthy).2] at long
        cases long
      · cases healthy
  · intro text
    exact StreamingBodyConsumer.diagnosis_of_text text

/-- No call raises and the completion is fired as promised, however the stream is cut, where
every payload is harmless, and only there. -/
theorem completes_iff (depth : Nat) (parseEvent : ParseEvent) (chunks : List Bytes) :
    Completes depth parseEvent chunks ↔
      ∀ line ∈ chunks.flatten.splitOn 10, ∀ payload ∈ payload? line,
        Harmless depth parseEvent payload := by
  have everyLine : (∀ line ∈ chunks.flatten.splitOn 10, ∀ payload ∈ payload? line,
      Harmless depth parseEvent payload) ↔
      ∀ line ∈ chunks.flatten.splitOn 10, Readable depth parseEvent line := by
    apply forall₂_congr
    intro line _
    exact (readable_iff line).symm
  rw [everyLine]
  constructor
  · intro completes
    rcases LineBuffer.exists_lines (10 : UInt8) chunks.flatten with
      ⟨lines, last, streamEq, whole, absent⟩
    have isCut := @LineBuffer.isCut_deliver _ _ _ 10
      (StreamingBodyConsumer.processLine depth parseEvent) {} chunks
    have notRefused := isCut.refused.symm.trans completes.received
    rcases LineBuffer.taken_or_refused (StreamingBodyConsumer.processLine depth parseEvent) {}
      lines with ⟨reached, taken⟩ | ⟨before, line, after, reached, linesEq, taken, refused⟩
    · have drained := LineBuffer.deliver_of_taken notRefused
      rw [streamEq, LineBuffer.drain_joinLines whole taken, LineBuffer.drain_of_notMem absent]
        at drained
      rcases completes.completed with ⟨completion, completed, _⟩
      rw [consume, drained] at completed
      rcases connectionLost_complete completed with ⟨final, lastTaken, _, text, joined⟩
      rw [streamEq, LineBuffer.splitOn_joinLines whole absent]
      apply readable_of_join _ joined
      rw [List.foldlM_append, taken]
      simp [lastTaken]
    · rw [linesEq, List.forall_mem_append, List.forall_mem_cons] at whole
      rw [streamEq, linesEq, LineBuffer.joinLines, List.flatMap_append, ← LineBuffer.joinLines,
        ← LineBuffer.joinLines, List.append_assoc, LineBuffer.joinLines_cons,
        LineBuffer.drain_joinLines whole.1 taken, LineBuffer.drain_line whole.2.1, refused]
        at notRefused
      cases notRefused
  · intro readable
    rcases consume_of_readable readable with ⟨final, taken, consumed⟩
    rcases consumed chunks rfl with ⟨notRefused, outcome⟩
    rcases join_of_readable readable taken with ⟨text, joined⟩
    have truthy := StreamingBodyConsumer.texts_truthy StreamingBodyConsumer.counted_init (by simp) taken
    apply Completes.mk notRefused
    apply Exists.intro { text, usage := final.usage, diagnosis := final.diagnosis }
    constructor
    · rw [outcome, StreamingBodyConsumer.complete, joined]
      rfl
    · change final.diagnosis = [] ↔ text ≠ []
      rw [diagnosis_eq_nil, not_iff_not]
      constructor
      · intro noTexts
        rw [noTexts] at joined
        exact (Option.some.inj joined).symm
      · intro empty
        rw [empty] at joined
        exact join_eq_nil truthy joined

end

/-! ## Lines that cost the answer -/

theorem not_completes {depth : Nat} {parseEvent : ParseEvent} {chunks : List Bytes}
    (lost : (consume depth parseEvent chunks).completion.isNone) :
    ¬ Completes depth parseEvent chunks := by
  intro completes
  rcases completes.completed with ⟨completion, completed, _⟩
  rw [completed] at lost
  cases lost

/-- A data line that is not valid UTF-8 raises out of `dataReceived`, one whose delta text is
a number out of `connectionLost`, in either format. -/
theorem untrusted_stream_incomplete :
    ¬ Completes 900 parseAnthropicEvent [DATA ++ [0xff, 10]] ∧
      ¬ Completes 900 parseAnthropicEvent [Utf8.encode
        "data:\x7b\"type\":\"content_block_delta\",\"delta\":\x7b\"text\":1\x7d\x7d".toList] ∧
      ¬ Completes 900 parseOpenaiEvent [Utf8.encode
        "data:\x7b\"choices\":[\x7b\"delta\":\x7b\"content\":1\x7d\x7d]\x7d".toList] := by
  refine ⟨?_, not_completes (by decide +kernel), not_completes (by decide +kernel)⟩
  intro completes
  exact absurd completes.received (by decide +kernel)

end Sse

end Providers

end LlmHoneypot
