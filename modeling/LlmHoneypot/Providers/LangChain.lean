import LlmHoneypot.Providers.Usage

/-! # LangChain

`providers/langchain_provider.py`: what a stream of message chunks comes to, beside the message
that the chunks add up to. -/

namespace LlmHoneypot

namespace Providers

namespace LangChain

open Json (Members codePoints)

/-! ## Messages -/

/-- A block of a content: a text, or a dictionary with its `type` and its `text`. -/
inductive Block
  | text (text : Str)
  | dict (type text : Option Str)
  deriving DecidableEq, Repr

inductive Content
  | text (text : Str)
  | blocks (blocks : List Block)
  deriving DecidableEq, Repr

/-- The numbers of a `usage_metadata` as far as they are there. `cacheRead` is the one under
`input_token_details`. -/
structure UsageMetadata where
  inputTokens : Option Int := none
  outputTokens : Option Int := none
  totalTokens : Option Int := none
  cacheRead : Option Int := none
  deriving DecidableEq, Repr

structure Message where
  content : Content := .text []
  usageMetadata : Option UsageMetadata := none
  deriving DecidableEq, Repr

def Block.part : Block → Str
  | .text part => part
  | .dict type part => if type = some "text".toList then part.getD [] else []

def textOf (message : Message) : Str :=
  match message.content with
  | .text text => text
  | .blocks blocks => (blocks.map Block.part).flatten

/-! ## Usage -/

namespace UsageMetadata

def member (key : String) (number : Option Int) : Members :=
  (number.map fun number => (codePoints key, Json.int number)).toList

def raw (usage : UsageMetadata) : RawUsage :=
  rawUsage
    (member "input_tokens" usage.inputTokens ++ member "output_tokens" usage.outputTokens ++
      member "total_tokens" usage.totalTokens ++
      (usage.cacheRead.map fun number =>
        (codePoints "input_token_details", Json.object (member "cache_read" (some number)))).toList)

end UsageMetadata

/-- `int(usage[key] or 0)` where the key is there; without a result where that raises. -/
def intOrZero (usage : RawUsage) (key : String) : Option (Option Int) :=
  match usage.get? (codePoints key) with
  | none => some none
  | some value => if value.truthy then (Numerals.intOfJson value).map some else some (some 0)

/-- `details["cache_read"]` where the details are a dictionary and it is not empty. -/
def cacheRead (usage : RawUsage) : Option (Option Int) :=
  match usage.get? (codePoints "input_token_details") with
  | some (.object details) =>
      match (Json.get? details (codePoints "cache_read")).filter Json.truthy with
      | none => some none
      | some value => (Numerals.intOfJson value).map some
  | _ => some none

def normalizeUsage (usage : RawUsage) : Option CommonUsage := do
  let inputTokens ← intOrZero usage "input_tokens"
  let outputTokens ← intOrZero usage "output_tokens"
  let totalTokens ← intOrZero usage "total_tokens"
  let cachedTokens ← cacheRead usage
  let out : CommonUsage := { inputTokens, outputTokens, cachedTokens, totalTokens }
  if out = {} then Providers.normalizeUsage usage
  else if totalTokens = none then
    some { out with totalTokens := some (inputTokens.getD 0 + outputTokens.getD 0) }
  else some out

/-- `_capture`: the usage of a request after a message, `none` where it raises. -/
def capture (message : Message) (request : CommonUsage) : Option CommonUsage :=
  match message.usageMetadata with
  | none => some request
  | some usage =>
      if usage.raw.keys = [] then some request
      else (normalizeUsage usage.raw).map request.update

/-! ## Answers -/

/-- The text that is returned, `none` where an exception is raised, and the usage of the
request. -/
structure Outcome where
  text : Option Str
  usage : CommonUsage
  deriving DecidableEq, Repr

def invoke (message : Message) (request : CommonUsage) : Outcome :=
  match capture message request with
  | none => ⟨none, request⟩
  | some usage => ⟨some (textOf message), usage⟩

/-- The variables of the loop over the chunks. The parts are also what `on_chunk` is called
with. -/
structure Received where
  parts : List Str := []
  last : Option Message := none

def receive (received : Received) (chunk : Message) : Received where
  parts := if textOf chunk = [] then received.parts else received.parts ++ [textOf chunk]
  last := some chunk

/-- `_stream`, for chunks behind which the stream ends or fails. -/
def stream (chunks : List Message) (fails : Bool) (request : CommonUsage) : Outcome × List Str :=
  let received := chunks.foldl receive {}
  if fails then (⟨none, request⟩, received.parts)
  else
    match received.last with
    | none => (⟨some received.parts.flatten, request⟩, received.parts)
    | some last =>
        match capture last request with
        | none => (⟨none, request⟩, received.parts)
        | some usage => (⟨some received.parts.flatten, usage⟩, received.parts)

def generateStreaming (chunks : List Message) (fails : Bool) (request : CommonUsage) : Str :=
  (stream chunks fails request).1.text.getD []

/-! ## The sum of the chunks -/

def Content.add : Content → Content → Content
  | .text front, .text more => .text (front ++ more)
  | .text front, .blocks more => .blocks (.text front :: more)
  | .blocks front, .text more => .blocks (front ++ [.text more])
  | .blocks front, .blocks more => .blocks (front ++ more)

def addField (number other : Option Int) : Option Int :=
  if number = none ∧ other = none then none else some (number.getD 0 + other.getD 0)

def UsageMetadata.add (usage other : UsageMetadata) : UsageMetadata where
  inputTokens := addField usage.inputTokens other.inputTokens
  outputTokens := addField usage.outputTokens other.outputTokens
  totalTokens := addField usage.totalTokens other.totalTokens
  cacheRead := addField usage.cacheRead other.cacheRead

def addUsage : Option UsageMetadata → Option UsageMetadata → Option UsageMetadata
  | none, other => other
  | some usage, none => some usage
  | some usage, some other => some (usage.add other)

def Message.add (message chunk : Message) : Message where
  content := message.content.add chunk.content
  usageMetadata := addUsage message.usageMetadata chunk.usageMetadata

def sum : List Message → Message
  | [] => {}
  | chunk :: chunks => chunks.foldl Message.add chunk

/-- A stream agrees with invoking: the same text and the same usage, the calls make up the text,
and after a failure the usage of the received chunks is recorded. -/
structure Agrees (chunks : List Message) (fails : Bool) : Prop where
  text : fails = false →
    some (generateStreaming chunks fails {}) = (invoke (sum chunks) {}).text
  usage : (stream chunks fails {}).1.usage = (invoke (sum chunks) {}).usage
  calls : (stream chunks fails {}).2.flatten = textOf (sum chunks)

/-! ## Texts -/

theorem textOf_add (message chunk : Message) :
    textOf (message.add chunk) = textOf message ++ textOf chunk := by
  rcases message with ⟨content, usage⟩
  rcases chunk with ⟨more, others⟩
  cases content <;> cases more <;> simp [Message.add, Content.add, textOf, Block.part]

theorem textOf_foldl (message : Message) (chunks : List Message) :
    textOf (chunks.foldl Message.add message) =
      textOf message ++ (chunks.map textOf).flatten := by
  induction chunks generalizing message with
  | nil => simp
  | cons chunk chunks induction =>
      rw [List.foldl_cons, induction, textOf_add, List.map_cons, List.flatten_cons,
        List.append_assoc]

theorem textOf_sum (chunks : List Message) : textOf (sum chunks) = (chunks.map textOf).flatten := by
  cases chunks with
  | nil => rfl
  | cons chunk chunks =>
      rw [sum, textOf_foldl, List.map_cons, List.flatten_cons]

theorem parts_foldl (chunks : List Message) (received : Received) :
    (chunks.foldl receive received).parts.flatten =
      received.parts.flatten ++ (chunks.map textOf).flatten := by
  induction chunks generalizing received with
  | nil => simp
  | cons chunk chunks induction =>
      rw [List.foldl_cons, induction, List.map_cons, List.flatten_cons, ← List.append_assoc]
      apply congrArg (· ++ (chunks.map textOf).flatten)
      rw [receive]
      split
      · next empty => rw [empty, List.append_nil]
      · rw [List.flatten_append, List.flatten_singleton]

theorem parts_sum (chunks : List Message) :
    (chunks.foldl receive {}).parts.flatten = textOf (sum chunks) := by
  rw [parts_foldl, textOf_sum]
  rfl

theorem last_foldl (chunks : List Message) (received : Received) :
    (chunks.foldl receive received).last = chunks.getLast?.or received.last := by
  induction chunks generalizing received with
  | nil => rfl
  | cons chunk chunks induction =>
      rw [List.foldl_cons, induction, List.getLast?_cons]
      cases chunks.getLast? <;> rfl

/-! ## Counts -/

namespace UsageMetadata

variable {usage other : UsageMetadata}

def counted (usage : UsageMetadata) : Option Int :=
  usage.totalTokens <|>
    if usage.inputTokens = none ∧ usage.outputTokens = none ∧ usage.cacheRead.getD 0 = 0 then none
    else some (usage.inputTokens.getD 0 + usage.outputTokens.getD 0)

def told (usage : UsageMetadata) : CommonUsage where
  inputTokens := usage.inputTokens
  outputTokens := usage.outputTokens
  cachedTokens := usage.cacheRead.filter (· ≠ 0)
  totalTokens := usage.counted

/-- The same counts; no cached tokens are as good as a count of zero. -/
structure SameCounts (usage other : UsageMetadata) : Prop where
  inputTokens : usage.inputTokens = other.inputTokens
  outputTokens : usage.outputTokens = other.outputTokens
  cacheRead : usage.cacheRead.getD 0 = other.cacheRead.getD 0
  totalTokens : usage.counted = other.counted

structure Silent (usage : UsageMetadata) : Prop where
  inputTokens : usage.inputTokens = none
  outputTokens : usage.outputTokens = none
  totalTokens : usage.totalTokens = none
  cacheRead : usage.cacheRead.getD 0 = 0

theorem filter_eq_iff (number other : Option Int) :
    number.filter (· ≠ 0) = other.filter (· ≠ 0) ↔ number.getD 0 = other.getD 0 := by
  rcases number with _ | number <;> rcases other with _ | other <;>
    simp only [Option.filter, Option.getD] <;> grind

theorem told_eq_iff : usage.told = other.told ↔ SameCounts usage other := by
  rw [told, told, CommonUsage.mk.injEq]
  constructor
  · intro same
    exact ⟨same.1, same.2.1, (filter_eq_iff _ _).mp same.2.2.1, same.2.2.2.2⟩
  · intro same
    exact ⟨same.inputTokens, same.outputTokens, (filter_eq_iff _ _).mpr same.cacheRead, rfl,
      same.totalTokens⟩

theorem told_eq_empty_iff : usage.told = {} ↔ usage.Silent := by
  have isSame : usage.told = told {} ↔ SameCounts usage {} := told_eq_iff
  have empty : told {} = {} := rfl
  rw [← empty, isSame]
  constructor
  · intro same
    have total := same.totalTokens
    rw [counted, if_pos ⟨same.inputTokens, same.outputTokens, same.cacheRead⟩] at total
    refine ⟨same.inputTokens, same.outputTokens, ?_, same.cacheRead⟩
    cases isTotal : usage.totalTokens with
    | none => rfl
    | some number =>
        rw [isTotal] at total
        cases total
  · intro silent
    refine ⟨silent.inputTokens, silent.outputTokens, silent.cacheRead, ?_⟩
    rw [counted, if_pos ⟨silent.inputTokens, silent.outputTokens, silent.cacheRead⟩,
      silent.totalTokens]
    rfl

theorem intOrZero_of_get? {raw : RawUsage} {key : String} {number : Option Int}
    (holds : raw.get? (codePoints key) = number.map Json.int) : intOrZero raw key = some number := by
  rw [intOrZero, holds]
  cases number with
  | none => rfl
  | some number =>
      by_cases zero : number = 0
      · rw [zero]
        rfl
      · have truthy : (Json.int number).truthy = true := by simpa [Json.truthy] using zero
        simp only [Option.map_some, truthy, if_true]
        rfl

theorem cacheRead_raw (usage : UsageMetadata) :
    LangChain.cacheRead usage.raw = some (usage.cacheRead.filter (· ≠ 0)) := by
  have held : usage.raw.get? (codePoints "input_token_details") =
      usage.cacheRead.map fun number => Json.object (member "cache_read" (some number)) := by
    rcases usage with ⟨_ | input, _ | output, _ | total, _ | cached⟩ <;> rfl
  rw [LangChain.cacheRead, held]
  cases usage.cacheRead with
  | none => rfl
  | some number =>
      by_cases zero : number = 0
      · rw [zero]
        rfl
      · have truthy : (Json.int number).truthy = true := by simpa [Json.truthy] using zero
        have kept : (some (Json.int number)).filter Json.truthy = some (Json.int number) := by
          rw [Option.filter_some, if_pos truthy]
        have kept' : (some number).filter (· ≠ 0) = some number := by
          rw [Option.filter_some, if_pos (decide_eq_true zero)]
        have isField : Json.get? (member "cache_read" (some number)) (codePoints "cache_read") =
            some (.int number) := rfl
        simp only [Option.map_some, isField, kept, kept']
        rfl

theorem normalizeUsage_silent (silent : usage.Silent) :
    Providers.normalizeUsage usage.raw = some {} := by
  rcases usage with ⟨input, output, total, cached⟩
  rcases silent with ⟨rfl, rfl, rfl, -⟩
  have tells : Tells (raw ⟨none, none, none, cached⟩) {} .messages := by
    cases cached with
    | none => exact ⟨rfl, rfl, rfl, rfl, rfl, rfl, rfl, rfl⟩
    | some number => exact ⟨rfl, rfl, rfl, rfl, rfl, rfl, rfl, rfl⟩
  exact normalizeUsage_of_tells tells

theorem normalizeUsage_raw (usage : UsageMetadata) : normalizeUsage usage.raw = some usage.told := by
  have input : intOrZero usage.raw "input_tokens" = some usage.inputTokens := by
    apply intOrZero_of_get?
    rcases usage with ⟨_ | input, _ | output, _ | total, _ | cached⟩ <;> rfl
  have output : intOrZero usage.raw "output_tokens" = some usage.outputTokens := by
    apply intOrZero_of_get?
    rcases usage with ⟨_ | input, _ | output, _ | total, _ | cached⟩ <;> rfl
  have total : intOrZero usage.raw "total_tokens" = some usage.totalTokens := by
    apply intOrZero_of_get?
    rcases usage with ⟨_ | input, _ | output, _ | total, _ | cached⟩ <;> rfl
  rw [normalizeUsage, input, output, total, cacheRead_raw]
  simp only [Option.bind_eq_bind, Option.bind_some]
  have cached : usage.cacheRead.filter (· ≠ 0) = none ↔ usage.cacheRead.getD 0 = 0 :=
    filter_eq_iff usage.cacheRead none
  split
  · next empty =>
    rw [CommonUsage.mk.injEq] at empty
    have silent : usage.Silent :=
      ⟨empty.1, empty.2.1, empty.2.2.2.2, cached.mp empty.2.2.1⟩
    rw [normalizeUsage_silent silent, told_eq_empty_iff.mpr silent]
  · next some_ =>
    rw [told, counted]
    split
    · next noTotal =>
      have counts : ¬ (usage.inputTokens = none ∧ usage.outputTokens = none ∧
          usage.cacheRead.getD 0 = 0) := by
        intro nothing
        apply some_
        rw [CommonUsage.mk.injEq]
        exact ⟨nothing.1, nothing.2.1, cached.mpr nothing.2.2, rfl, noTotal⟩
      rw [if_neg counts, noTotal]
      rfl
    · next isTotal =>
      rcases Option.ne_none_iff_exists'.mp isTotal with ⟨number, isNumber⟩
      rw [isNumber]
      rfl

end UsageMetadata

def Message.counts (message : Message) : UsageMetadata := message.usageMetadata.getD {}

theorem capture_counts (message : Message) (request : CommonUsage) :
    capture message request = some (request.update message.counts.told) := by
  rw [capture, Message.counts]
  cases message.usageMetadata with
  | none => rfl
  | some usage =>
      simp only [Option.getD_some]
      split
      · next empty =>
        have silent : usage.Silent := by
          rcases usage with ⟨_ | input, _ | output, _ | total, _ | cached⟩ <;>
            first
              | exact ⟨rfl, rfl, rfl, rfl⟩
              | exact absurd empty (List.cons_ne_nil _ _)
        rw [UsageMetadata.told_eq_empty_iff.mpr silent, CommonUsage.update_empty]
      · rw [UsageMetadata.normalizeUsage_raw, Option.map_some]

/-! ## Streams -/

/-- The counts of the last chunk, where there is one. -/
def lastCounts (chunks : List Message) : UsageMetadata :=
  (chunks.getLast?.map Message.counts).getD {}

theorem invoke_counts (message : Message) :
    invoke message {} = ⟨some (textOf message), message.counts.told⟩ := by
  rw [invoke, capture_counts, CommonUsage.empty_update]

theorem stream_ended (chunks : List Message) :
    stream chunks false {} = (⟨some (textOf (sum chunks)), (lastCounts chunks).told⟩,
      (chunks.foldl receive {}).parts) := by
  have last := last_foldl chunks {}
  rw [stream, ← parts_sum, lastCounts]
  cases isLast : chunks.getLast? with
  | none =>
      rw [isLast] at last
      change (chunks.foldl receive {}).last = none at last
      simp only [last]
      rfl
  | some chunk =>
      rw [isLast] at last
      change (chunks.foldl receive {}).last = some chunk at last
      simp only [last, capture_counts, CommonUsage.empty_update]
      rfl

/-- A stream agrees with invoking exactly where, after a failure, nothing was counted before it,
and otherwise the last chunk has the counts of the sum. -/
theorem agrees_iff (chunks : List Message) (fails : Bool) :
    Agrees chunks fails ↔
      (fails = true → (sum chunks).counts.Silent) ∧
        (fails = false → (lastCounts chunks).SameCounts (sum chunks).counts) := by
  have calls := parts_sum chunks
  cases fails with
  | true =>
      constructor
      · intro agrees
        have usage := agrees.usage
        rw [invoke_counts] at usage
        exact ⟨fun _ => UsageMetadata.told_eq_empty_iff.mp usage.symm,
          fun ended => Bool.noConfusion ended⟩
      · intro settled
        refine ⟨fun ended => Bool.noConfusion ended, ?_, calls⟩
        rw [invoke_counts]
        exact (UsageMetadata.told_eq_empty_iff.mpr (settled.1 rfl)).symm
  | false =>
      constructor
      · intro agrees
        have usage := agrees.usage
        rw [invoke_counts, stream_ended] at usage
        exact ⟨fun failed => Bool.noConfusion failed, fun _ => UsageMetadata.told_eq_iff.mp usage⟩
      · intro settled
        refine ⟨fun _ => ?_, ?_, ?_⟩
        · rw [generateStreaming, invoke_counts, stream_ended]
          rfl
        · rw [invoke_counts, stream_ended]
          exact UsageMetadata.told_eq_iff.mpr (settled.2 rfl)
        · rw [stream_ended]
          exact calls

def splitCounts : List Message :=
  [{ content := .text "ro".toList
     usageMetadata := some
      { inputTokens := some 120, outputTokens := some 0, totalTokens := some 120 } },
    { content := .blocks [.dict (some "text".toList) (some "ot\n".toList)]
      usageMetadata := some
        { inputTokens := some 0, outputTokens := some 8, totalTokens := some 8 } }]

/-- The count of the prompt is lost, and after a failure every count is. -/
theorem counts_lost : ¬ Agrees splitCounts false ∧ ¬ Agrees splitCounts true := by
  constructor
  · intro agrees
    exact absurd agrees.usage (by decide)
  · intro agrees
    exact absurd agrees.usage (by decide)

end LangChain

end Providers

end LlmHoneypot
