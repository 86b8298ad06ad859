import LlmHoneypot.Protocol.Session

/-! # Answers of a provider

`llm.py`, `providers/base.py`, `providers/langchain_provider.py` and
`providers/streaming.py`: the callbacks that a request leads to, buffered or
streamed. -/

namespace LlmHoneypot

namespace Providers

open Protocol

/-! ## Streaming consumer -/

/-- A decoded event: `(text_delta, usage)` as `parse_event` returns them, without a
usage when that is empty. -/
structure StreamEvent where
  text : Option Str := none
  usage : List (Str × Nat) := []
  deriving DecidableEq, Repr

structure StreamingBodyConsumer where
  accumulatedText : List Str := []
  usage : Dict Str Nat := .empty
  decodedEvents : Nat := 0
  matchedEvents : Nat := 0
  deriving DecidableEq

def StreamEvent.delta (event : StreamEvent) : Option Str :=
  event.text.filter fun text => text ≠ []

def StreamingBodyConsumer.process (consumer : StreamingBodyConsumer) (event : StreamEvent) :
    StreamingBodyConsumer :=
  let consumer := { consumer with decodedEvents := consumer.decodedEvents + 1 }
  let consumer :=
    match event.delta with
    | some text =>
        { consumer with
          matchedEvents := consumer.matchedEvents + 1
          accumulatedText := consumer.accumulatedText ++ [text] }
    | none => consumer
  if event.usage = [] then consumer
  else
    { consumer with
      matchedEvents := consumer.matchedEvents + 1
      usage := event.usage.foldl (fun usage entry => usage.set entry.1 entry.2) consumer.usage }

def consume (events : List StreamEvent) : StreamingBodyConsumer :=
  events.foldl StreamingBodyConsumer.process {}

inductive Diagnosis
  | noEventsDecoded
  | noneMatched
  | noText
  deriving DecidableEq, Repr

/-- Why a stream produced nothing usable, `none` when it is healthy. -/
def StreamingBodyConsumer.diagnosis (consumer : StreamingBodyConsumer) : Option Diagnosis :=
  if consumer.accumulatedText ≠ [] then none
  else if consumer.decodedEvents = 0 then some .noEventsDecoded
  else if consumer.matchedEvents = 0 then some .noneMatched
  else some .noText

def deltas (events : List StreamEvent) : List Str := events.filterMap (·.delta)

theorem accumulatedText_process (consumer : StreamingBodyConsumer) (event : StreamEvent) :
    (consumer.process event).accumulatedText =
      consumer.accumulatedText ++ event.delta.toList := by
  simp only [StreamingBodyConsumer.process]
  cases event.delta <;> split <;> simp

theorem accumulatedText_consume (events : List StreamEvent) :
    (consume events).accumulatedText = deltas events := by
  have accumulated (consumer : StreamingBodyConsumer) :
      (events.foldl StreamingBodyConsumer.process consumer).accumulatedText =
        consumer.accumulatedText ++ deltas events := by
    induction events generalizing consumer with
    | nil => simp [deltas]
    | cons event events induction =>
        rw [List.foldl_cons, induction, accumulatedText_process]
        simp only [deltas, List.filterMap_cons]
        cases event.delta <;> simp
  exact accumulated {}

theorem diagnosis_of_deltas {events : List StreamEvent} (text : deltas events ≠ []) :
    (consume events).diagnosis = none := by
  simp [StreamingBodyConsumer.diagnosis, accumulatedText_consume, text]

/-! ## Callbacks -/

/-- The HTTP providers share one base class; the LangChain provider streams on a
thread of its own. -/
inductive ProviderKind
  | http
  | langchain
  deriving DecidableEq, Repr

/-- What becomes of a stream: no stream at all, one that ends (also by a lost
connection), or one that is given up, by a timeout or an exception, and may go on
afterwards. -/
inductive StreamOutcome
  | notStarted
  | ended (events : List StreamEvent)
  | brokenOff (events late : List StreamEvent)
  deriving DecidableEq, Repr

inductive Callback
  | chunk (text : Str)
  | answer (answer : Answer)
  deriving DecidableEq, Repr

def chunks (events : List StreamEvent) : List Callback := (deltas events).map .chunk

def emptyAnswer : Answer := { response := [] }

def generate (buffered : Answer) : List Callback := [.answer buffered]

abbrev NormalizeUsage := Dict Str Nat → Option Usage

/-- What a stream that has ended answers. The HTTP providers fall back to a buffered
request when it produced no text. -/
def streamAnswer (normalize : NormalizeUsage) (kind : ProviderKind)
    (events : List StreamEvent) (buffered : Answer) : Answer :=
  let consumer := consume events
  match kind, consumer.diagnosis with
  | .http, some _ => buffered
  | _, _ =>
      { response := consumer.accumulatedText.flatten
        usage := if consumer.usage.keys = [] then none else normalize consumer.usage }

def generateStreaming (normalize : NormalizeUsage) (kind : ProviderKind)
    (outcome : StreamOutcome) (buffered : Answer) : List Callback :=
  match outcome with
  | .notStarted => [.answer emptyAnswer]
  | .ended events => chunks events ++ [.answer (streamAnswer normalize kind events buffered)]
  | .brokenOff events late => chunks events ++ .answer emptyAnswer :: chunks late

theorem streamAnswer_of_deltas {normalize : NormalizeUsage} {kind : ProviderKind}
    {events : List StreamEvent} {buffered : Answer} (text : deltas events ≠ []) :
    (streamAnswer normalize kind events buffered).response = (deltas events).flatten := by
  cases kind <;> simp [streamAnswer, diagnosis_of_deltas text, accumulatedText_consume]

end Providers

end LlmHoneypot
