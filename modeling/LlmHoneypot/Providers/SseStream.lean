import LlmHoneypot.Foundation.Dict
import LlmHoneypot.Foundation.Json
import LlmHoneypot.Foundation.LineBuffer

/-! # Server-sent events of a provider

`providers/streaming.py`, from the bytes that arrive to the answer that is completed. -/

namespace LlmHoneypot

namespace Providers

namespace Sse

open Json (Members codePoints)

/-! ## Events -/

structure ParsedEvent where
  text : Option Json := none
  usage : Option Members := none

/-- `parse_event`, without a result where it raises. -/
abbrev ParseEvent := Members → Option ParsedEvent

def orNone (value : Option Json) : Option Json := value.filter Json.truthy

def getOf (value : Option Json) (key : String) : Option (Option Json) :=
  match orNone value with
  | none => some none
  | some (.object members) => some (Json.get? members (codePoints key))
  | some _ => none

def asDict : Option Json → Option Members
  | some (.object members) => some members
  | _ => none

def isText (value : Option Json) (text : String) : Bool :=
  match value with
  | some (.str found) => found == codePoints text
  | _ => false

def parseAnthropicEvent : ParseEvent := fun event =>
  let etype := Json.get? event (codePoints "type")
  if isText etype "content_block_delta" then
    (getOf (Json.get? event (codePoints "delta")) "text").map fun text => { text := orNone text }
  else if isText etype "message_delta" then
    some { usage := asDict (Json.get? event (codePoints "usage")) }
  else if isText etype "message_start" then
    (getOf (Json.get? event (codePoints "message")) "usage").map fun usage =>
      { usage := asDict usage }
  else some {}

/-- `(choices[0].get("delta") or {}).get("content") or None`, without a result where that
raises. -/
def choiceText : Json → Option (Option Json)
  | .array (.object choice :: _) =>
      (getOf (Json.get? choice (codePoints "delta")) "content").map orNone
  | _ => none

def parseOpenaiEvent : ParseEvent := fun event =>
  let text? :=
    match orNone (Json.get? event (codePoints "choices")) with
    | none => some none
    | some choices => choiceText choices
  text?.map fun text => { text, usage := asDict (Json.get? event (codePoints "usage")) }

/-! ## Consumer -/

/-- The consumer without its buffer. `calls` are those of `on_chunk`. -/
structure StreamingBodyConsumer where
  accumulatedText : List Json := []
  usage : Dict CodePoints Json := .empty
  decodedEvents : Nat := 0
  matchedEvents : Nat := 0
  calls : List Json := []

def isSpace (byte : UInt8) : Bool := byte == 32 || (9 ≤ byte && byte ≤ 13)

def strip (payload : Bytes) : Bytes := (payload.dropWhile isSpace).rdropWhile isSpace

def DATA : Bytes := [100, 97, 116, 97, 58]

def DONE : Bytes := [91, 68, 79, 78, 69, 93]

/-- What a line comes to: an exception that is not caught, nothing, or an event, with what
`parse_event` makes of it. -/
inductive Reading
  | raised
  | skipped
  | event (parsed : Option ParsedEvent)

section

variable (depth : Nat) (parseEvent : ParseEvent)

def read (line : Bytes) : Reading :=
  if ¬ DATA <+: line then .skipped
  else
    let payload := strip (line.drop DATA.length)
    if payload = [] ∨ payload = DONE then .skipped
    else
      match Json.loads depth payload with
      | .raised => .raised
      | .invalid => .skipped
      | .value (.object event) => .event (parseEvent event)
      | .value _ => .skipped

end

namespace StreamingBodyConsumer

def update (usage : Dict CodePoints Json) (other : Members) : Dict CodePoints Json :=
  other.foldl (fun usage entry => usage.set entry.1 entry.2) usage

def takeText (consumer : StreamingBodyConsumer) (text : Option Json) : StreamingBodyConsumer :=
  match orNone text with
  | none => consumer
  | some text =>
      { consumer with
        matchedEvents := consumer.matchedEvents + 1
        accumulatedText := consumer.accumulatedText ++ [text]
        calls := consumer.calls ++ [text] }

def takeUsage (consumer : StreamingBodyConsumer) (usage : Option Members) :
    StreamingBodyConsumer :=
  match usage with
  | none | some [] => consumer
  | some usage =>
      { consumer with
        matchedEvents := consumer.matchedEvents + 1
        usage := update consumer.usage usage }

def take (consumer : StreamingBodyConsumer) : Reading → Option StreamingBodyConsumer
  | .raised => none
  | .skipped => some consumer
  | .event none => some { consumer with decodedEvents := consumer.decodedEvents + 1 }
  | .event (some parsed) =>
      let consumer := { consumer with decodedEvents := consumer.decodedEvents + 1 }
      some ((consumer.takeText parsed.text).takeUsage parsed.usage)

/-- `_process_line`, without a result where an exception leaves it. -/
def processLine (depth : Nat) (parseEvent : ParseEvent) (consumer : StreamingBodyConsumer)
    (line : Bytes) : Option StreamingBodyConsumer :=
  consumer.take (read depth parseEvent line)

def WIRE_FORMAT_MISMATCH : Str :=
  (" SSE events decoded but none matched the provider's parse_event" ++
    " — wire format mismatch").toList

/-- `''` when healthy, else why the stream produced nothing usable. -/
def diagnosis (consumer : StreamingBodyConsumer) : Str :=
  if consumer.accumulatedText ≠ [] then []
  else if consumer.decodedEvents = 0 then "no SSE events decoded".toList
  else if consumer.matchedEvents = 0 then
    Text.decimal consumer.decodedEvents ++ WIRE_FORMAT_MISMATCH
  else "stream produced no text".toList

end StreamingBodyConsumer

/-- `"".join(texts)`, without a result where one is no string. -/
def join : List Json → Option CodePoints
  | [] => some []
  | .str text :: rest => (join rest).map (text ++ ·)
  | _ :: _ => none

structure Completion where
  text : CodePoints
  usage : Dict CodePoints Json
  diagnosis : Str

/-- What a stream leads to: the calls of `on_chunk`, and the completion if it is ever
fired. -/
structure Outcome where
  calls : List Json
  completion : Option Completion

/-- `self.completion.callback(...)`, which a text that is no string prevents. -/
def StreamingBodyConsumer.complete (consumer : StreamingBodyConsumer) : Outcome where
  calls := consumer.calls
  completion := (join consumer.accumulatedText).map fun text =>
    { text, usage := consumer.usage, diagnosis := consumer.diagnosis }

section

variable (depth : Nat) (parseEvent : ParseEvent)

/-- `connectionLost`: what is left in the buffer is one more line. -/
def connectionLost (buffer : LineBuffer StreamingBodyConsumer UInt8) : Outcome :=
  if buffer.buf = [] then buffer.state.complete
  else
    match buffer.state.processLine depth parseEvent buffer.buf with
    | none => { calls := buffer.state.calls, completion := none }
    | some consumer => consumer.complete

/-- Chunks for `dataReceived`, then the end of the connection. After an exception in
`dataReceived` the transport delivers nothing more and closes the connection. -/
def consume (chunks : List Bytes) : Outcome :=
  connectionLost depth parseEvent
    (LineBuffer.deliver 10 (StreamingBodyConsumer.processLine depth parseEvent) {} chunks)

end

/-! ## Steps of the consumer -/

def Reading.deltas : Reading → List Json
  | .event (some parsed) => (orNone parsed.text).toList
  | _ => []

def Reading.decoded : Reading → Nat
  | .event _ => 1
  | _ => 0

theorem Reading.decoded_le (reading : Reading) : reading.decoded ≤ 1 := by
  cases reading <;> simp [Reading.decoded]

def Reading.usage : Reading → Members
  | .event (some parsed) => parsed.usage.getD []
  | _ => []

namespace StreamingBodyConsumer

structure Counted (consumer : StreamingBodyConsumer) : Prop where
  calls : consumer.calls = consumer.accumulatedText
  matched : consumer.accumulatedText ≠ [] → 0 < consumer.matchedEvents
  decoded : 0 < consumer.matchedEvents → 0 < consumer.decodedEvents

theorem counted_init : Counted {} := ⟨rfl, fun text => absurd rfl text, fun matched => matched⟩

theorem take_eq_none {consumer : StreamingBodyConsumer} {reading : Reading} :
    consumer.take reading = none ↔ reading = .raised := by
  cases reading with
  | raised => simp [take]
  | skipped => simp [take]
  | event parsed => cases parsed <;> simp [take]

structure Took (consumer : StreamingBodyConsumer) (reading : Reading)
    (next : StreamingBodyConsumer) : Prop where
  texts : next.accumulatedText = consumer.accumulatedText ++ reading.deltas
  calls : next.calls = consumer.calls ++ reading.deltas
  usage : next.usage = update consumer.usage reading.usage
  decoded : next.decodedEvents = consumer.decodedEvents + reading.decoded
  matched : consumer.matchedEvents + reading.deltas.length ≤ next.matchedEvents
  counted : consumer.matchedEvents < next.matchedEvents → reading.decoded = 1

theorem took_of_take {consumer next : StreamingBodyConsumer} {reading : Reading}
    (taken : consumer.take reading = some next) : Took consumer reading next := by
  cases reading with
  | raised => cases taken
  | skipped =>
      cases taken
      constructor <;> simp [Reading.deltas, Reading.decoded, Reading.usage, update]
  | event parsed =>
      cases parsed with
      | none =>
          cases taken
          constructor <;> simp [Reading.deltas, Reading.decoded, Reading.usage, update]
      | some parsed =>
          simp only [take, Option.some.injEq] at taken
          rw [← taken]
          cases text : orNone parsed.text <;>
            cases usage : parsed.usage with
            | none =>
                constructor <;>
                  simp [Reading.deltas, Reading.decoded, Reading.usage, takeText, takeUsage, text,
                    usage, update]
            | some entries =>
                cases entries <;> constructor <;>
                  simp [Reading.deltas, Reading.decoded, Reading.usage, takeText, takeUsage, text,
                    usage, update]

theorem Counted.take {consumer next : StreamingBodyConsumer} {reading : Reading}
    (counted : Counted consumer) (taken : consumer.take reading = some next) : Counted next := by
  have took := took_of_take taken
  constructor
  · rw [took.calls, took.texts, counted.calls]
  · intro text
    have matched := took.matched
    by_cases before : consumer.accumulatedText = []
    · rw [took.texts, before, List.nil_append] at text
      have delta := List.length_pos_of_ne_nil text
      omega
    · have matchedBefore := counted.matched before
      omega
  · intro matched
    have decoded := took.decoded
    by_cases more : consumer.matchedEvents < next.matchedEvents
    · have decodedMore := took.counted more
      omega
    · have decodedBefore := counted.decoded (by omega)
      omega

/-! ### Diagnoses -/

theorem decimal_injective {left right : Nat} (equal : Text.decimal left = Text.decimal right) :
    left = right := by
  rw [Decimal.decimal_eq_toDigits, Decimal.decimal_eq_toDigits] at equal
  have value := congrArg (fun digits => Nat.ofDigitChars 10 digits 0) equal
  simp only [Nat.ofDigitChars_ten_toDigits] at value
  exact value

theorem diagnosis_of_text {consumer : StreamingBodyConsumer}
    (text : consumer.accumulatedText ≠ []) : consumer.diagnosis = [] := by
  rw [diagnosis, if_pos text]

theorem diagnosis_of_undecoded {consumer : StreamingBodyConsumer}
    (noText : consumer.accumulatedText = []) (undecoded : consumer.decodedEvents = 0) :
    consumer.diagnosis = "no SSE events decoded".toList := by
  rw [diagnosis, if_neg (by simp [noText]), if_pos undecoded]

theorem diagnosis_of_unmatched {consumer : StreamingBodyConsumer}
    (noText : consumer.accumulatedText = []) (decoded : 0 < consumer.decodedEvents)
    (unmatched : consumer.matchedEvents = 0) :
    consumer.diagnosis = Text.decimal consumer.decodedEvents ++ WIRE_FORMAT_MISMATCH := by
  rw [diagnosis, if_neg (by simp [noText]), if_neg (by omega), if_pos unmatched]

theorem diagnosis_of_matched {consumer : StreamingBodyConsumer}
    (noText : consumer.accumulatedText = []) (decoded : 0 < consumer.decodedEvents)
    (matched : 0 < consumer.matchedEvents) :
    consumer.diagnosis = "stream produced no text".toList := by
  rw [diagnosis, if_neg (by simp [noText]), if_neg (by omega), if_neg (by omega)]

theorem length_wireFormatMismatch : 24 ≤ WIRE_FORMAT_MISMATCH.length := by decide +kernel

theorem diagnosis_ne {consumer next : StreamingBodyConsumer}
    (noText : consumer.accumulatedText = []) (unmatched : consumer.matchedEvents = 0)
    (nextNoText : next.accumulatedText = [])
    (decoded : consumer.decodedEvents < next.decodedEvents) :
    next.diagnosis ≠ consumer.diagnosis := by
  intro equal
  have lengths := congrArg List.length equal
  rcases Nat.eq_zero_or_pos consumer.decodedEvents with undecoded | decodedBefore
  · rw [diagnosis_of_undecoded noText undecoded] at lengths
    rcases Nat.eq_zero_or_pos next.matchedEvents with nextUnmatched | nextMatched
    · rw [diagnosis_of_unmatched nextNoText (by omega) nextUnmatched] at lengths
      rw [List.length_append] at lengths
      have long := length_wireFormatMismatch
      have short : "no SSE events decoded".toList.length = 21 := by decide
      omega
    · rw [diagnosis_of_matched nextNoText (by omega) nextMatched] at lengths
      simp at lengths
  · rw [diagnosis_of_unmatched noText decodedBefore unmatched] at lengths equal
    rcases Nat.eq_zero_or_pos next.matchedEvents with nextUnmatched | nextMatched
    · rw [diagnosis_of_unmatched nextNoText (by omega) nextUnmatched,
        List.append_cancel_right_eq] at equal
      have sameCount := decimal_injective equal
      omega
    · rw [diagnosis_of_matched nextNoText (by omega) nextMatched] at lengths
      rw [List.length_append] at lengths
      have long := length_wireFormatMismatch
      have short : "stream produced no text".toList.length = 23 := by decide
      omega

theorem matched_of_diagnosis_eq {consumer next : StreamingBodyConsumer}
    (counted : Counted consumer) (sameText : next.accumulatedText = consumer.accumulatedText)
    (decoded : consumer.decodedEvents < next.decodedEvents)
    (sameDiagnosis : next.diagnosis = consumer.diagnosis) : 0 < consumer.matchedEvents := by
  by_contra unmatched
  have noText : consumer.accumulatedText = [] := by
    by_contra text
    exact unmatched (counted.matched text)
  exact diagnosis_ne noText (by omega) (sameText.trans noText) decoded sameDiagnosis

theorem diagnosis_eq_of_matched {consumer next : StreamingBodyConsumer}
    (counted : Counted consumer) (countedNext : Counted next)
    (sameText : next.accumulatedText = consumer.accumulatedText)
    (matched : 0 < consumer.matchedEvents) (notLess : consumer.matchedEvents ≤ next.matchedEvents) :
    next.diagnosis = consumer.diagnosis := by
  by_cases text : consumer.accumulatedText = []
  · have nextMatched : 0 < next.matchedEvents := by omega
    rw [diagnosis_of_matched text (counted.decoded matched) matched,
      diagnosis_of_matched (sameText.trans text) (countedNext.decoded nextMatched) nextMatched]
  · rw [diagnosis_of_text text, diagnosis_of_text (by rw [sameText]; exact text)]

/-! ### Lines that make no difference -/

/-- A line that adds nothing to what the consumer will complete with: no delta text, no
usage that is new, and no event at all as long as none has matched. -/
def Inert (consumer : StreamingBodyConsumer) (reading : Reading) : Prop :=
  reading ≠ .raised ∧ reading.deltas = [] ∧ update consumer.usage reading.usage = consumer.usage ∧
    (reading.decoded = 1 → 0 < consumer.matchedEvents)

theorem complete_eq_iff {consumer next : StreamingBodyConsumer} (counted : Counted consumer)
    (countedNext : Counted next) {text : CodePoints}
    (joined : join consumer.accumulatedText = some text) :
    next.complete = consumer.complete ↔
      next.accumulatedText = consumer.accumulatedText ∧ next.usage = consumer.usage ∧
        next.diagnosis = consumer.diagnosis := by
  constructor
  · intro equal
    have sameCalls := congrArg Outcome.calls equal
    have sameCompletion := congrArg Outcome.completion equal
    have sameText : next.accumulatedText = consumer.accumulatedText := by
      rw [← counted.calls, ← countedNext.calls]
      exact sameCalls
    simp only [complete, sameText, joined, Option.map_some, Option.some.injEq,
      Completion.mk.injEq, true_and] at sameCompletion
    exact ⟨sameText, sameCompletion⟩
  · intro ⟨sameText, sameUsage, sameDiagnosis⟩
    rw [complete, complete, countedNext.calls, counted.calls, sameText, sameUsage, sameDiagnosis]

theorem inert_iff {consumer : StreamingBodyConsumer} (counted : Counted consumer)
    {text : CodePoints} (joined : join consumer.accumulatedText = some text) (reading : Reading) :
    consumer.Inert reading ↔
      ∃ next, consumer.take reading = some next ∧ next.complete = consumer.complete := by
  cases result : consumer.take reading with
  | none =>
      rw [take_eq_none.mp result]
      simp [Inert]
  | some next =>
      have read : reading ≠ .raised := by
        intro raised
        rw [take_eq_none.mpr raised] at result
        cases result
      have countedNext := counted.take result
      have took := took_of_take result
      have sameText : next.accumulatedText = consumer.accumulatedText ↔ reading.deltas = [] := by
        rw [took.texts]
        simp
      simp only [Option.some.injEq, exists_eq_left', complete_eq_iff counted countedNext joined,
        Inert, sameText, took.usage]
      constructor
      · intro ⟨_, noText, noUsage, matched⟩
        have notLess := took.matched
        refine ⟨noText, noUsage, ?_⟩
        by_cases decoded : reading.decoded = 1
        · exact diagnosis_eq_of_matched counted countedNext (sameText.mpr noText) (matched decoded)
            (by omega)
        · have sameMatched : next.matchedEvents = consumer.matchedEvents := by
            have noMore := mt took.counted decoded
            omega
          have sameDecoded : next.decodedEvents = consumer.decodedEvents := by
            have atMost := reading.decoded_le
            have decodedEq := took.decoded
            omega
          rw [diagnosis, diagnosis, sameText.mpr noText, sameMatched, sameDecoded]
      · intro ⟨noText, noUsage, sameDiagnosis⟩
        refine ⟨read, noText, noUsage, ?_⟩
        intro decoded
        apply matched_of_diagnosis_eq counted (sameText.mpr noText) _ sameDiagnosis
        rw [took.decoded]
        omega

end StreamingBodyConsumer

/-! ## Streams -/

section

open StreamingBodyConsumer

variable {depth : Nat} {parseEvent : ParseEvent}

theorem join_eq_some {texts : List Json} :
    (∃ text, join texts = some text) ↔ ∀ text ∈ texts, ∃ str, text = .str str := by
  induction texts with
  | nil => simp [join]
  | cons text rest induction =>
      rw [List.forall_mem_cons, ← induction]
      cases text <;> simp [join]

theorem run_lines {consumer final : StreamingBodyConsumer} {lines : List Bytes}
    (counted : Counted consumer)
    (taken : lines.foldlM (processLine depth parseEvent) consumer = some final) :
    Counted final ∧ (∀ line ∈ lines, read depth parseEvent line ≠ .raised) ∧
      final.accumulatedText = consumer.accumulatedText ++
        lines.flatMap fun line => (read depth parseEvent line).deltas := by
  induction lines generalizing consumer with
  | nil =>
      cases taken
      simp [counted]
  | cons line lines induction =>
      rw [List.foldlM_cons, Option.bind_eq_bind, Option.bind_eq_some_iff] at taken
      obtain ⟨next, lineTaken, linesTaken⟩ := taken
      obtain ⟨countedFinal, notRaised, texts⟩ := induction (counted.take lineTaken) linesTaken
      refine ⟨countedFinal, ?_, ?_⟩
      · rw [List.forall_mem_cons]
        refine ⟨?_, notRaised⟩
        intro raised
        rw [processLine, take_eq_none.mpr raised] at lineTaken
        cases lineTaken
      · rw [texts, (took_of_take lineTaken).texts, List.flatMap_cons, List.append_assoc]

theorem exists_final {lines : List Bytes}
    (notRaised : ∀ line ∈ lines, read depth parseEvent line ≠ .raised)
    (consumer : StreamingBodyConsumer) :
    ∃ final, lines.foldlM (processLine depth parseEvent) consumer = some final := by
  rcases LineBuffer.taken_or_refused (processLine depth parseEvent) consumer lines with taken |
    ⟨before, line, after, reached, linesEq, _, refused⟩
  · exact taken
  · exact absurd (take_eq_none.mp refused) (notRaised line (by simp [linesEq]))

theorem connectionLost_eq (buffer : LineBuffer StreamingBodyConsumer UInt8) :
    connectionLost depth parseEvent buffer =
      match buffer.state.processLine depth parseEvent buffer.buf with
      | none => { calls := buffer.state.calls, completion := none }
      | some consumer => consumer.complete := by
  rw [connectionLost]
  split
  · next empty =>
    have skipped : read depth parseEvent buffer.buf = .skipped := by
      rw [read, empty, if_pos (by decide)]
    rw [processLine, skipped, take]
  · rfl

/-- What the consumer promises of a stream: however it is cut, the same is called and
completed as for one chunk, and the calls make up the text. -/
def Framed (depth : Nat) (parseEvent : ParseEvent) (stream : Bytes) : Prop :=
  ∀ chunks : List Bytes, chunks.flatten = stream →
    consume depth parseEvent chunks = consume depth parseEvent [stream] ∧
      ∃ completion, (consume depth parseEvent chunks).completion = some completion ∧
        join (consume depth parseEvent chunks).calls = some completion.text

/-- A line is read without an exception that is not caught, and its delta texts are
strings. -/
def Readable (depth : Nat) (parseEvent : ParseEvent) (line : Bytes) : Prop :=
  read depth parseEvent line ≠ .raised ∧
    ∀ text ∈ (read depth parseEvent line).deltas, ∃ str, text = .str str

/-- The first line of a stream that raises, the readable lines before it and the bytes
behind it. -/
structure BreaksOff (depth : Nat) (parseEvent : ParseEvent) (stream : Bytes)
    (before : List Bytes) (line rest : Bytes) : Prop where
  stream : stream = LineBuffer.joinLines 10 before ++ (line ++ 10 :: rest)
  whole : ∀ other ∈ before, 10 ∉ other
  readable : ∀ other ∈ before, Readable depth parseEvent other
  lineWhole : 10 ∉ line
  raised : read depth parseEvent line = .raised

theorem BreaksOff.drain {stream : Bytes} {before : List Bytes} {line rest : Bytes}
    {reached : StreamingBodyConsumer} (breaksOff : BreaksOff depth parseEvent stream before line rest)
    (taken : before.foldlM (processLine depth parseEvent) {} = some reached) :
    LineBuffer.drain 10 (processLine depth parseEvent) {} stream =
      { state := reached, buf := rest, refused := true } := by
  have refused : processLine depth parseEvent reached line = none := take_eq_none.mpr breaksOff.raised
  rw [breaksOff.stream, LineBuffer.drain_joinLines breaksOff.whole taken,
    LineBuffer.drain_line breaksOff.lineWhole, refused]

theorem join_of_readable {lines : List Bytes} {final : StreamingBodyConsumer}
    (readable : ∀ line ∈ lines, Readable depth parseEvent line)
    (taken : lines.foldlM (processLine depth parseEvent) {} = some final) :
    ∃ text, join final.accumulatedText = some text := by
  obtain ⟨_, _, texts⟩ := run_lines counted_init taken
  rw [join_eq_some, texts]
  intro text member
  rw [List.nil_append, List.mem_flatMap] at member
  obtain ⟨line, lineMember, textMember⟩ := member
  exact (readable line lineMember).2 text textMember

theorem readable_of_join {lines : List Bytes} {final : StreamingBodyConsumer} {text : CodePoints}
    (taken : lines.foldlM (processLine depth parseEvent) {} = some final)
    (joined : join final.accumulatedText = some text) :
    ∀ line ∈ lines, Readable depth parseEvent line := by
  obtain ⟨_, notRaised, texts⟩ := run_lines counted_init taken
  have strings := join_eq_some.mp ⟨text, joined⟩
  intro line member
  refine ⟨notRaised line member, ?_⟩
  intro delta deltaMember
  apply strings delta
  rw [texts, List.nil_append, List.mem_flatMap]
  exact ⟨line, member, deltaMember⟩

theorem complete_of_join {consumer : StreamingBodyConsumer} (counted : Counted consumer)
    {text : CodePoints} (joined : join consumer.accumulatedText = some text) :
    ∃ completion, consumer.complete.completion = some completion ∧
      join consumer.complete.calls = some completion.text := by
  refine ⟨{ text, usage := consumer.usage, diagnosis := consumer.diagnosis }, ?_, ?_⟩
  · rw [complete, joined]
    rfl
  · rw [complete, counted.calls, joined]

theorem consume_of_readable {stream : Bytes}
    (readable : ∀ line ∈ stream.splitOn 10, Readable depth parseEvent line) :
    ∃ final, (stream.splitOn 10).foldlM (processLine depth parseEvent) {} = some final ∧
      ∀ chunks : List Bytes, chunks.flatten = stream →
        (LineBuffer.deliver 10 (processLine depth parseEvent) {} chunks).refused = false ∧
          consume depth parseEvent chunks = final.complete := by
  obtain ⟨lines, last, streamEq, whole, absent⟩ := LineBuffer.exists_lines (10 : UInt8) stream
  have split : stream.splitOn 10 = lines ++ [last] := by
    rw [streamEq, LineBuffer.splitOn_joinLines whole absent]
  rw [split] at readable
  obtain ⟨final, allTaken⟩ := exists_final (fun line member => (readable line member).1) {}
  refine ⟨final, by rw [split, allTaken], ?_⟩
  rw [List.foldlM_append, Option.bind_eq_bind, Option.bind_eq_some_iff] at allTaken
  obtain ⟨reached, taken, lastTaken⟩ := allTaken
  have drained : LineBuffer.drain 10 (processLine depth parseEvent) {} stream =
      { state := reached, buf := last } := by
    rw [streamEq, LineBuffer.drain_joinLines whole taken, LineBuffer.drain_of_notMem absent]
  have lastResult : processLine depth parseEvent reached last = some final := by
    rw [← lastTaken, List.foldlM_cons]
    cases processLine depth parseEvent reached last <;> rfl
  intro chunks parts
  have delivered : LineBuffer.deliver 10 (processLine depth parseEvent) {} chunks =
      { state := reached, buf := last } := by
    rw [LineBuffer.deliver_of_taken (by rw [parts, drained]), parts, drained]
  constructor
  · rw [delivered]
  · rw [consume, delivered, connectionLost_eq]
    simp only [lastResult]

theorem framed_of_readable {stream : Bytes}
    (readable : ∀ line ∈ stream.splitOn 10, Readable depth parseEvent line) :
    Framed depth parseEvent stream := by
  obtain ⟨final, allTaken, consumed⟩ := consume_of_readable readable
  have counted := (run_lines counted_init allTaken).1
  obtain ⟨text, joined⟩ := join_of_readable readable allTaken
  intro chunks parts
  rw [(consumed chunks parts).2, (consumed [stream] (by simp)).2]
  exact ⟨rfl, complete_of_join counted joined⟩

theorem framed_of_inert {stream : Bytes} {before : List Bytes} {line rest : Bytes}
    {reached : StreamingBodyConsumer}
    (breaksOff : BreaksOff depth parseEvent stream before line rest)
    (taken : before.foldlM (processLine depth parseEvent) {} = some reached)
    (inert : ∀ kept, kept <+: rest → reached.Inert (read depth parseEvent kept)) :
    Framed depth parseEvent stream := by
  have drained := breaksOff.drain taken
  have counted := (run_lines counted_init taken).1
  obtain ⟨text, joined⟩ := join_of_readable breaksOff.readable taken
  have consumed : ∀ chunks : List Bytes, chunks.flatten = stream →
      consume depth parseEvent chunks = reached.complete := by
    intro chunks parts
    have isCut := @LineBuffer.isCut_deliver _ _ _ 10 (processLine depth parseEvent) {} chunks
    rw [parts, drained] at isCut
    obtain ⟨next, lastTaken, same⟩ := (inert_iff counted joined _).mp (inert _ isCut.isPrefix)
    rw [consume, connectionLost_eq, isCut.state, processLine, lastTaken]
    exact same
  intro chunks parts
  rw [consumed chunks parts, consumed [stream] (by simp)]
  exact ⟨rfl, complete_of_join counted joined⟩

theorem connectionLost_complete {state : StreamingBodyConsumer} {buf : Bytes} {refused : Bool}
    {completion : Completion}
    (completed : (connectionLost depth parseEvent { state, buf, refused }).completion =
      some completion) :
    ∃ final, processLine depth parseEvent state buf = some final ∧
      connectionLost depth parseEvent { state, buf, refused } = final.complete ∧
      ∃ text, join final.accumulatedText = some text := by
  rw [connectionLost_eq] at completed ⊢
  cases result : processLine depth parseEvent state buf with
  | none =>
      simp only [result] at completed
      cases completed
  | some final =>
      simp only [result, complete, Option.map_eq_some_iff] at completed
      obtain ⟨text, joined, _⟩ := completed
      exact ⟨final, rfl, rfl, text, joined⟩

theorem readable_of_framed {lines : List Bytes} {last : Bytes} {reached : StreamingBodyConsumer}
    (whole : ∀ line ∈ lines, 10 ∉ line) (absent : 10 ∉ last)
    (taken : lines.foldlM (processLine depth parseEvent) {} = some reached)
    (framed : Framed depth parseEvent (LineBuffer.joinLines 10 lines ++ last)) :
    ∀ line ∈ lines ++ [last], Readable depth parseEvent line := by
  obtain ⟨_, completion, completed, _⟩ := framed [_] List.flatten_singleton
  rw [consume, LineBuffer.deliver_singleton, LineBuffer.drain_joinLines whole taken,
    LineBuffer.drain_of_notMem absent] at completed
  obtain ⟨final, lastTaken, _, text, joined⟩ := connectionLost_complete completed
  apply readable_of_join _ joined
  rw [List.foldlM_append, taken]
  simp [lastTaken]

theorem inert_of_framed {stream : Bytes} {before : List Bytes} {rest : Bytes}
    {reached : StreamingBodyConsumer}
    (drained : LineBuffer.drain 10 (processLine depth parseEvent) {} stream =
      { state := reached, buf := rest, refused := true })
    (taken : before.foldlM (processLine depth parseEvent) {} = some reached)
    (framed : Framed depth parseEvent stream) :
    (∃ text, join reached.accumulatedText = some text) ∧
      ∀ kept, kept <+: rest → reached.Inert (read depth parseEvent kept) := by
  have counted := (run_lines counted_init taken).1
  have cut : ∀ kept, kept <+: rest → ∃ final,
      processLine depth parseEvent reached kept = some final ∧
        final.complete = consume depth parseEvent [stream] ∧
        ∃ text, join final.accumulatedText = some text := by
    intro kept isPrefix
    obtain ⟨chunks, parts, delivered⟩ :=
      @LineBuffer.deliver_cut _ _ _ 10 (processLine depth parseEvent) {} stream kept
        (by rw [drained]) (by rw [drained]; exact isPrefix)
    obtain ⟨same, completion, completed, _⟩ := framed chunks parts
    rw [consume, delivered, drained] at completed
    obtain ⟨final, keptTaken, lost, joined⟩ := connectionLost_complete completed
    refine ⟨final, keptTaken, ?_, joined⟩
    rw [← same, consume, delivered, drained, ← lost]
  have nothingKept : processLine depth parseEvent reached [] = some reached := by
    rw [processLine, show read depth parseEvent [] = .skipped from rfl]
    rfl
  obtain ⟨final, keptTaken, lost, text, joined⟩ := cut [] List.nil_prefix
  rw [nothingKept] at keptTaken
  cases keptTaken
  refine ⟨⟨text, joined⟩, ?_⟩
  intro kept isPrefix
  obtain ⟨next, keptTaken, completed, _⟩ := cut kept isPrefix
  exact (inert_iff counted joined _).mpr ⟨next, keptTaken, completed.trans lost.symm⟩

/-- The consumer keeps its promise where every line is readable, and where the first line
that raises is followed by nothing that matters, wherever it is cut off. -/
theorem framed_iff (depth : Nat) (parseEvent : ParseEvent) (stream : Bytes) :
    Framed depth parseEvent stream ↔
      (∀ line ∈ stream.splitOn 10, Readable depth parseEvent line) ∨
      ∃ before line rest reached, BreaksOff depth parseEvent stream before line rest ∧
        before.foldlM (processLine depth parseEvent) {} = some reached ∧
        ∀ kept, kept <+: rest → reached.Inert (read depth parseEvent kept) := by
  constructor
  · intro framed
    obtain ⟨lines, last, streamEq, whole, absent⟩ := LineBuffer.exists_lines (10 : UInt8) stream
    rcases LineBuffer.taken_or_refused (processLine depth parseEvent) {} lines with
      ⟨reached, taken⟩ | ⟨before, line, after, reached, linesEq, taken, refused⟩
    · left
      rw [streamEq, LineBuffer.splitOn_joinLines whole absent]
      rw [streamEq] at framed
      exact readable_of_framed whole absent taken framed
    · right
      rw [linesEq, List.forall_mem_append, List.forall_mem_cons] at whole
      obtain ⟨beforeWhole, lineWhole, _⟩ := whole
      have streamCut : stream = LineBuffer.joinLines 10 before ++
          (line ++ 10 :: (LineBuffer.joinLines 10 after ++ last)) := by
        rw [streamEq, linesEq, LineBuffer.joinLines, List.flatMap_append, ← LineBuffer.joinLines,
          ← LineBuffer.joinLines, List.append_assoc, LineBuffer.joinLines_cons]
      have drained : LineBuffer.drain 10 (processLine depth parseEvent) {} stream =
          { state := reached, buf := LineBuffer.joinLines 10 after ++ last, refused := true } := by
        rw [streamCut, LineBuffer.drain_joinLines beforeWhole taken, LineBuffer.drain_line lineWhole,
          refused]
      obtain ⟨⟨text, joined⟩, inert⟩ := inert_of_framed drained taken framed
      exact ⟨before, line, _, reached, ⟨streamCut, beforeWhole, readable_of_join taken joined,
        lineWhole, take_eq_none.mp refused⟩, taken, inert⟩
  · rintro (readable | ⟨before, line, rest, reached, breaksOff, taken, inert⟩)
    · exact framed_of_readable readable
    · exact framed_of_inert breaksOff taken inert

end

/-! ## A line in a guessed encoding -/

def guessedStream : Bytes :=
  Utf8.encode ("data:\x00abcd\n" ++
    "data:\x7b\"type\":\"content_block_delta\",\"delta\":\x7b\"text\":\"hi\"\x7d\x7d").toList

/-- Valid UTF-8 whose only delta text is a string gives a text in one chunk and none in
two. -/
theorem guessed_stream_cut :
    (Utf8.decode guessedStream).isSome ∧
      join (consume 900 parseAnthropicEvent [guessedStream]).calls = some (codePoints "hi") ∧
      join (consume 900 parseAnthropicEvent
        [guessedStream.take 11, guessedStream.drop 11]).calls = some [] := by
  decide +kernel

end Sse

end Providers

end LlmHoneypot
