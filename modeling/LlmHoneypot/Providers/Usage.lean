import LlmHoneypot.Foundation.Numerals
import LlmHoneypot.Protocol.Turn
import LlmHoneypot.Providers.SseStream

/-! # Token usage

`providers/base.py` and `_record_usage` of `protocol.py`: from the usage object of a backend to
the tokens that a session is charged. -/

namespace LlmHoneypot

namespace Providers

open Json (Members codePoints)

/-! ## Normalisation -/

structure CommonUsage where
  inputTokens : Option Int := none
  outputTokens : Option Int := none
  cachedTokens : Option Int := none
  cacheCreationTokens : Option Int := none
  totalTokens : Option Int := none
  deriving DecidableEq, Repr

abbrev RawUsage := Dict CodePoints Json

def rawUsage (members : Members) : RawUsage := Sse.StreamingBodyConsumer.update .empty members

/-- `int(usage[key])` where the key is there; without a result where that raises. -/
def intField (usage : RawUsage) (key : String) : Option (Option Int) :=
  match usage.get? (codePoints key) with
  | none => some none
  | some value => (Numerals.intOfJson value).map some

def normalizeAnthropicUsage (usage : RawUsage) : Option CommonUsage := do
  let inputTokens ← intField usage "input_tokens"
  let outputTokens ← intField usage "output_tokens"
  let cacheRead ← intField usage "cache_read_input_tokens"
  let cacheCreationTokens ← intField usage "cache_creation_input_tokens"
  let out : CommonUsage :=
    { inputTokens, outputTokens, cacheCreationTokens, cachedTokens := cacheRead.filter (· ≠ 0) }
  if out = {} then some {}
  else some { out with totalTokens := some (inputTokens.getD 0 + outputTokens.getD 0) }

/-- `int(usage[key])`, with another key where that one is missing. -/
def intFieldOr (usage : RawUsage) (key other : String) : Option (Option Int) :=
  (intField usage key).bind fun value =>
    if value = none then intField usage other else some value

/-- `details["cached_tokens"]` where the details are a dictionary that has it. -/
def cachedDetail (usage : RawUsage) : Option Json :=
  match usage.get? (codePoints "prompt_tokens_details") with
  | some (.object details) => Json.get? details (codePoints "cached_tokens")
  | _ => none

def cachedTokens (usage : RawUsage) : Option (Option Int) :=
  match cachedDetail usage with
  | none => some none
  | some value => (Numerals.intOfJson value).map some

def normalizeOpenaiUsage (usage : RawUsage) : Option CommonUsage := do
  let inputTokens ← intFieldOr usage "prompt_tokens" "input_tokens"
  let outputTokens ← intFieldOr usage "completion_tokens" "output_tokens"
  let cached ← cachedTokens usage
  let totalTokens ← intField usage "total_tokens"
  let out : CommonUsage := { inputTokens, outputTokens, cachedTokens := cached.filter (· ≠ 0) }
  if totalTokens ≠ none then some { out with totalTokens }
  else if out = {} then some {}
  else some { out with totalTokens := some (inputTokens.getD 0 + outputTokens.getD 0) }

def normalizeUsage (usage : RawUsage) : Option CommonUsage := do
  let norm ← normalizeAnthropicUsage usage
  if norm.totalTokens.getD 0 ≠ 0 then some norm else normalizeOpenaiUsage usage

namespace CommonUsage

def update (usage later : CommonUsage) : CommonUsage where
  inputTokens := later.inputTokens <|> usage.inputTokens
  outputTokens := later.outputTokens <|> usage.outputTokens
  cachedTokens := later.cachedTokens <|> usage.cachedTokens
  cacheCreationTokens := later.cacheCreationTokens <|> usage.cacheCreationTokens
  totalTokens := later.totalTokens <|> usage.totalTokens

theorem update_empty (usage : CommonUsage) : usage.update {} = usage := rfl

/-- What `_record_usage` reads of it, `none` for an empty usage. -/
def billed (usage : CommonUsage) : Option Protocol.Usage :=
  if usage = {} then none
  else
    some
      { inputTokens := (usage.inputTokens.getD 0).toNat
        outputTokens := (usage.outputTokens.getD 0).toNat
        cachedTokens := (usage.cachedTokens.getD 0).toNat
        cacheCreationTokens := (usage.cacheCreationTokens.getD 0).toNat }

end CommonUsage

def captureUsage (payload : Members) (request : CommonUsage) : Option CommonUsage :=
  match Json.get? payload (codePoints "usage") with
  | some (.object usage) => (normalizeUsage (rawUsage usage)).map request.update
  | _ => some request

/-! ## What a backend reports -/

/-- The shapes of a usage object: Anthropic Messages, OpenAI chat completions and OpenAI
Responses. -/
inductive Shape
  | messages
  | completions
  | responses
  deriving DecidableEq, Repr

/-- Counts as far as a backend tells them. Only OpenAI tells a total, only Anthropic the tokens
that were written to the cache. -/
structure Told where
  input : Option Nat := none
  output : Option Nat := none
  cached : Option Nat := none
  cacheCreation : Option Nat := none
  total : Option Nat := none
  deriving DecidableEq, Repr

/-- A usage object holds a number under a key, or nothing. -/
def Holds (usage : RawUsage) (key : String) (number : Option Nat) : Prop :=
  usage.get? (codePoints key) = number.map fun number => .int number

def Tells (usage : RawUsage) (told : Told) : Shape → Prop
  | .messages =>
      Holds usage "input_tokens" told.input ∧ Holds usage "output_tokens" told.output ∧
        Holds usage "cache_read_input_tokens" told.cached ∧
        Holds usage "cache_creation_input_tokens" told.cacheCreation ∧
        Holds usage "prompt_tokens" none ∧ Holds usage "completion_tokens" none ∧
        Holds usage "total_tokens" none ∧ Holds usage "prompt_tokens_details" none
  | .completions =>
      Holds usage "input_tokens" none ∧ Holds usage "output_tokens" none ∧
        Holds usage "cache_read_input_tokens" none ∧
        Holds usage "cache_creation_input_tokens" none ∧
        Holds usage "prompt_tokens" told.input ∧ Holds usage "completion_tokens" told.output ∧
        Holds usage "total_tokens" told.total ∧
        cachedDetail usage = told.cached.map fun number => .int number
  | .responses =>
      Holds usage "input_tokens" told.input ∧ Holds usage "output_tokens" told.output ∧
        Holds usage "cache_read_input_tokens" none ∧
        Holds usage "cache_creation_input_tokens" none ∧
        Holds usage "prompt_tokens" none ∧ Holds usage "completion_tokens" none ∧
        Holds usage "total_tokens" told.total ∧ Holds usage "prompt_tokens_details" none

namespace Told

def spent (told : Told) : Nat := told.input.getD 0 + told.output.getD 0

def plain (told : Told) (total : Option Nat) : CommonUsage where
  inputTokens := told.input.map Int.ofNat
  outputTokens := told.output.map Int.ofNat
  totalTokens := total.map Int.ofNat

def counted (told : Told) : Option Nat :=
  if told.input = none ∧ told.output = none then none else some told.spent

def anthropic (told : Told) : CommonUsage :=
  let out : CommonUsage :=
    { told.plain none with
      cachedTokens := (told.cached.filter (· ≠ 0)).map Int.ofNat
      cacheCreationTokens := told.cacheCreation.map Int.ofNat }
  if out = {} then {} else { out with totalTokens := some told.spent }

def openai (told : Told) : CommonUsage :=
  let cached := told.cached.filter (· ≠ 0)
  { told.plain (told.total <|> if cached = none then told.counted else some told.spent) with
    cachedTokens := cached.map Int.ofNat }

/-- What is recorded of a report. Without input and output it is read as OpenAI's, where the
cache has no place under the names of the other shapes. -/
def recorded (told : Told) : Shape → CommonUsage
  | .messages =>
      if told.spent = 0 then { told with cached := none, total := none }.openai
      else told.anthropic
  | .completions => told.openai
  | .responses =>
      if told.spent = 0 then { told with cached := none }.openai
      else { told with cached := none, cacheCreation := none }.anthropic

theorem total_anthropic (told : Told) : told.anthropic.totalTokens.getD 0 = told.spent := by
  rw [anthropic]
  simp only
  split
  · next empty =>
    rw [CommonUsage.mk.injEq] at empty
    have input : told.input = none := Option.map_eq_none_iff.mp empty.1
    have output : told.output = none := Option.map_eq_none_iff.mp empty.2.1
    rw [spent, input, output]
    rfl
  · rfl

end Told

theorem intField_of_holds {usage : RawUsage} {key : String} {number : Option Nat}
    (holds : Holds usage key number) : intField usage key = some (number.map Int.ofNat) := by
  rw [intField, holds]
  cases number <;> rfl

theorem cachedDetail_of_none {usage : RawUsage}
    (absent : Holds usage "prompt_tokens_details" none) : cachedDetail usage = none := by
  rw [cachedDetail, absent]
  rfl

theorem normalizeAnthropicUsage_of_holds {usage : RawUsage} {told : Told}
    (input : Holds usage "input_tokens" told.input)
    (output : Holds usage "output_tokens" told.output)
    (cached : Holds usage "cache_read_input_tokens" told.cached)
    (cacheCreation : Holds usage "cache_creation_input_tokens" told.cacheCreation) :
    normalizeAnthropicUsage usage = some told.anthropic := by
  have cachedTokens : (told.cached.map Int.ofNat).filter (· ≠ 0) =
      (told.cached.filter (· ≠ 0)).map Int.ofNat := by
    cases told.cached with
    | none => rfl
    | some number => cases number <;> rfl
  have total : (told.input.map Int.ofNat).getD 0 + (told.output.map Int.ofNat).getD 0 =
      (told.spent : Int) := by
    rw [Told.spent]
    cases told.input <;> cases told.output <;> simp
  rw [normalizeAnthropicUsage, intField_of_holds input, intField_of_holds output,
    intField_of_holds cached, intField_of_holds cacheCreation, Told.anthropic]
  simp only [Option.bind_eq_bind, Option.bind_some, cachedTokens, total]
  exact (apply_ite some _ _ _).symm

theorem normalizeOpenaiUsage_of_holds {usage : RawUsage} {told : Told}
    (input : intFieldOr usage "prompt_tokens" "input_tokens" = some (told.input.map Int.ofNat))
    (output :
      intFieldOr usage "completion_tokens" "output_tokens" = some (told.output.map Int.ofNat))
    (total : Holds usage "total_tokens" told.total)
    (cached : cachedDetail usage = told.cached.map fun number => .int number) :
    normalizeOpenaiUsage usage = some told.openai := by
  have cachedField : cachedTokens usage = some (told.cached.map Int.ofNat) := by
    rw [cachedTokens, cached]
    cases told.cached <;> rfl
  rw [normalizeOpenaiUsage, input, output, cachedField, intField_of_holds total]
  rcases told with ⟨promptTokens, completionTokens, read, written, sum⟩
  cases sum with
  | some sum => rcases read with none | number | number <;> rfl
  | none =>
      rcases read with none | number | number <;> cases promptTokens <;>
        cases completionTokens <;> rfl

theorem intFieldOr_of_holds {usage : RawUsage} {key other : String} {number : Option Nat}
    (absent : Holds usage key none) (holds : Holds usage other number) :
    intFieldOr usage key other = some (number.map Int.ofNat) := by
  rw [intFieldOr, intField_of_holds absent, Option.bind_some, intField_of_holds holds]
  rfl

theorem intFieldOr_of_first {usage : RawUsage} {key other : String} {number : Option Nat}
    (holds : Holds usage key number) (absent : Holds usage other none) :
    intFieldOr usage key other = some (number.map Int.ofNat) := by
  rw [intFieldOr, intField_of_holds holds, Option.bind_some, intField_of_holds absent]
  cases number <;> rfl

theorem normalizeUsage_of_total {usage : RawUsage} {norm : CommonUsage}
    (anthropic : normalizeAnthropicUsage usage = some norm) (total : norm.totalTokens.getD 0 ≠ 0) :
    normalizeUsage usage = some norm := by
  rw [normalizeUsage, anthropic]
  exact if_pos total

theorem normalizeUsage_of_no_total {usage : RawUsage} {norm : CommonUsage}
    (anthropic : normalizeAnthropicUsage usage = some norm) (total : norm.totalTokens.getD 0 = 0) :
    normalizeUsage usage = normalizeOpenaiUsage usage := by
  rw [normalizeUsage, anthropic]
  exact if_neg (not_not.mpr total)

theorem normalizeUsage_of_readings {usage : RawUsage} {anthropic openai : Told}
    (anthropicReads : normalizeAnthropicUsage usage = some anthropic.anthropic)
    (openaiReads : normalizeOpenaiUsage usage = some openai.openai) :
    normalizeUsage usage =
      some (if anthropic.spent = 0 then openai.openai else anthropic.anthropic) := by
  by_cases nothing : anthropic.spent = 0
  · rw [if_pos nothing, ← openaiReads]
    apply normalizeUsage_of_no_total anthropicReads
    rw [anthropic.total_anthropic, nothing]
    rfl
  · rw [if_neg nothing]
    apply normalizeUsage_of_total anthropicReads
    rw [anthropic.total_anthropic]
    exact_mod_cast nothing

theorem normalizeUsage_of_tells {usage : RawUsage} {told : Told} {shape : Shape}
    (tells : Tells usage told shape) : normalizeUsage usage = some (told.recorded shape) := by
  cases shape with
  | messages =>
      rcases tells with ⟨input, output, cached, creation, prompt, completion, total, details⟩
      exact normalizeUsage_of_readings
        (normalizeAnthropicUsage_of_holds input output cached creation)
        (@normalizeOpenaiUsage_of_holds _ { told with cached := none, total := none }
          (intFieldOr_of_holds prompt input) (intFieldOr_of_holds completion output) total
          (cachedDetail_of_none details))
  | completions =>
      rcases tells with ⟨input, output, cached, creation, prompt, completion, total, details⟩
      exact normalizeUsage_of_readings
        (@normalizeAnthropicUsage_of_holds _ {} input output cached creation)
        (normalizeOpenaiUsage_of_holds (intFieldOr_of_first prompt input)
          (intFieldOr_of_first completion output) total details)
  | responses =>
      rcases tells with ⟨input, output, cached, creation, prompt, completion, total, details⟩
      exact normalizeUsage_of_readings
        (@normalizeAnthropicUsage_of_holds _ { told with cached := none, cacheCreation := none }
          input output cached creation)
        (@normalizeOpenaiUsage_of_holds _ { told with cached := none }
          (intFieldOr_of_holds prompt input) (intFieldOr_of_holds completion output) total
          (cachedDetail_of_none details))

/-! ## Tokens that are charged -/

namespace CommonUsage

def spend (usage : CommonUsage) : Nat :=
  (usage.inputTokens.getD 0).toNat + (usage.outputTokens.getD 0).toNat +
    (usage.cachedTokens.getD 0).toNat + (usage.cacheCreationTokens.getD 0).toNat

theorem empty_update (usage : CommonUsage) : update {} usage = usage := by
  have kept : ∀ field : Option Int, (field <|> none) = field := by
    intro field
    cases field <;> rfl
  rw [update, kept, kept, kept, kept, kept]

theorem sessionTokens_recordUsage (usage : CommonUsage) (session : Protocol.Session) :
    (session.recordUsage usage.billed).sessionTokens = session.sessionTokens + usage.spend := by
  by_cases empty : usage = {}
  · rw [empty]
    rfl
  · rw [billed, if_neg empty]
    rfl

end CommonUsage

namespace Told

theorem toNat_getD (number : Option Nat) : ((number.map Int.ofNat).getD 0).toNat = number.getD 0 := by
  cases number <;> rfl

theorem getD_filter (number : Option Nat) : (number.filter (· ≠ 0)).getD 0 = number.getD 0 := by
  rcases number with none | number | number <;> rfl

theorem spend_anthropic (told : Told) : told.anthropic.spend =
    told.spent + told.cached.getD 0 + told.cacheCreation.getD 0 := by
  have buckets : (((told.input.map Int.ofNat).getD 0).toNat +
      ((told.output.map Int.ofNat).getD 0).toNat +
      (((told.cached.filter (· ≠ 0)).map Int.ofNat).getD 0).toNat +
      ((told.cacheCreation.map Int.ofNat).getD 0).toNat) =
      told.spent + told.cached.getD 0 + told.cacheCreation.getD 0 := by
    rw [toNat_getD, toNat_getD, toNat_getD, toNat_getD, getD_filter, spent]
  rw [← buckets, anthropic]
  simp only
  split
  · next empty =>
    rw [CommonUsage.mk.injEq] at empty
    rw [show told.input.map Int.ofNat = none from empty.1,
      show told.output.map Int.ofNat = none from empty.2.1, empty.2.2.1, empty.2.2.2.1]
    rfl
  · rfl

theorem spend_openai (told : Told) : told.openai.spend = told.spent + told.cached.getD 0 := by
  rw [openai, CommonUsage.spend, plain, toNat_getD, toNat_getD, toNat_getD, getD_filter, spent]
  rfl

end Told

structure Count where
  value : Nat
  reported : Bool
  deriving DecidableEq, Repr

namespace Count

def told (count : Count) : Option Nat := if count.reported then some count.value else none

def silent (count : Count) : Nat := if count.reported then 0 else count.value

theorem told_add_silent (count : Count) : count.told.getD 0 + count.silent = count.value := by
  rcases count with ⟨value, _ | _⟩ <;> simp [told, silent]

end Count

/-- The tokens of one answer and what its backend reports of them. Anthropic's four counts are
disjoint; OpenAI's cached tokens are among those of the prompt. -/
inductive Turn
  | messages (input output cacheRead cacheCreation : Count)
  | completions (prompt completion cached : Count) (total : Bool)
      (subset : cached.value ≤ prompt.value)
  | responses (input output cached : Count) (total : Bool) (subset : cached.value ≤ input.value)

namespace Turn

def shape : Turn → Shape
  | messages .. => .messages
  | completions .. => .completions
  | responses .. => .responses

def processed : Turn → Nat
  | messages input output cacheRead cacheCreation =>
      input.value + output.value + cacheRead.value + cacheCreation.value
  | completions prompt completion _ _ _ => prompt.value + completion.value
  | responses input output _ _ _ => input.value + output.value

def told : Turn → Told
  | messages input output cacheRead cacheCreation =>
      { input := input.told, output := output.told, cached := cacheRead.told
        cacheCreation := cacheCreation.told }
  | completions prompt completion cached total _ =>
      { input := prompt.told, output := completion.told, cached := cached.told
        total := if total then some (prompt.value + completion.value) else none }
  | responses input output cached total _ =>
      { input := input.told, output := output.told, cached := cached.told
        total := if total then some (input.value + output.value) else none }

/-- The answer to a request that was charged nothing before reports this turn. -/
def Reports (turn : Turn) (payload : Members) : Prop :=
  ∃ usage, Json.get? payload (codePoints "usage") = some (.object usage) ∧
    Tells (rawUsage usage) turn.told turn.shape

/-- The session is charged for a payload what was processed. -/
def Charged (turn : Turn) (payload : Members) (session : Protocol.Session) : Prop :=
  ∃ request, captureUsage payload {} = some request ∧
    (session.recordUsage request.billed).sessionTokens = session.sessionTokens + turn.processed

/-- A turn that is charged exactly: of Anthropic's, every token is reported, and the cache is
not all there is; of OpenAI's chat completions, as many tokens go unreported as are reported
as cached; of OpenAI's Responses, every token is reported. -/
def Exact : Turn → Prop
  | messages input output cacheRead cacheCreation =>
      input.silent + output.silent + cacheRead.silent + cacheCreation.silent = 0 ∧
        (input.value + output.value = 0 → cacheRead.value + cacheCreation.value = 0)
  | completions prompt completion cached _ _ =>
      prompt.silent + completion.silent = cached.told.getD 0
  | responses input output _ _ _ => input.silent + output.silent = 0

theorem spend_recorded_iff (turn : Turn) :
    (turn.told.recorded turn.shape).spend = turn.processed ↔ turn.Exact := by
  cases turn with
  | messages input output cacheRead cacheCreation =>
      have inputSum := input.told_add_silent
      have outputSum := output.told_add_silent
      have readSum := cacheRead.told_add_silent
      have creationSum := cacheCreation.told_add_silent
      change CommonUsage.spend (if _ = 0 then _ else _) = _ ↔ _
      split
      · next nothing =>
        rw [Told.spend_openai]
        change input.told.getD 0 + output.told.getD 0 = 0 at nothing
        change input.told.getD 0 + output.told.getD 0 + 0 =
          input.value + output.value + cacheRead.value + cacheCreation.value ↔
          _ = 0 ∧ (_ → _)
        omega
      · next spent =>
        rw [Told.spend_anthropic]
        change input.told.getD 0 + output.told.getD 0 ≠ 0 at spent
        change input.told.getD 0 + output.told.getD 0 + cacheRead.told.getD 0 +
          cacheCreation.told.getD 0 =
          input.value + output.value + cacheRead.value + cacheCreation.value ↔
          _ = 0 ∧ (_ → _)
        omega
  | completions prompt completion cached total subset =>
      have promptSum := prompt.told_add_silent
      have completionSum := completion.told_add_silent
      change (Told.openai _).spend = _ ↔ _
      rw [Told.spend_openai]
      change prompt.told.getD 0 + completion.told.getD 0 + cached.told.getD 0 =
        prompt.value + completion.value ↔ _ = _
      omega
  | responses input output cached total subset =>
      have inputSum := input.told_add_silent
      have outputSum := output.told_add_silent
      change CommonUsage.spend (if _ = 0 then _ else _) = _ ↔ _
      split
      · next nothing =>
        rw [Told.spend_openai]
        change input.told.getD 0 + output.told.getD 0 + 0 = input.value + output.value ↔ _ = 0
        omega
      · next spent =>
        rw [Told.spend_anthropic]
        change input.told.getD 0 + output.told.getD 0 + 0 + 0 = input.value + output.value ↔ _ = 0
        omega

/-- A session is charged what was processed for exact turns, and only for these. -/
theorem charged_iff_exact (turn : Turn) (payload : Members) (session : Protocol.Session)
    (reports : turn.Reports payload) : turn.Charged payload session ↔ turn.Exact := by
  rcases reports with ⟨usage, isUsage, tells⟩
  have captured : captureUsage payload {} = some (turn.told.recorded turn.shape) := by
    rw [captureUsage, isUsage]
    simp only [normalizeUsage_of_tells tells, Option.map_some, CommonUsage.empty_update]
  rw [Charged, captured, ← turn.spend_recorded_iff]
  constructor
  · intro ⟨request, same, charged⟩
    rw [← Option.some.inj same, CommonUsage.sessionTokens_recordUsage] at charged
    exact Nat.add_left_cancel charged
  · intro spend
    apply Exists.intro _
    apply And.intro rfl
    rw [CommonUsage.sessionTokens_recordUsage, spend]

end Turn

def numbers (counts : List (String × Nat)) : Members :=
  counts.map fun (key, number) => (codePoints key, .int number)

def cachedTurn : Turn :=
  .messages ⟨10, true⟩ ⟨5, true⟩ ⟨900, true⟩ ⟨20, true⟩

def cachedPayload : Members :=
  [(codePoints "usage", .object (numbers
    [("input_tokens", 10), ("output_tokens", 5), ("cache_read_input_tokens", 900),
      ("cache_creation_input_tokens", 20)]))]

theorem cachedTurn_reported : cachedTurn.Reports cachedPayload :=
  ⟨_, rfl, rfl, rfl, rfl, rfl, rfl, rfl, rfl, rfl⟩

theorem cached_turn_charged :
    cachedTurn.Charged cachedPayload { loginUser := "root".toList, hostname := "svr".toList } ↔
      cachedTurn.Exact :=
  Turn.charged_iff_exact cachedTurn cachedPayload _ cachedTurn_reported

/-- OpenAI's cached tokens are charged twice, and Anthropic's not at all where the cache is all
there is. -/
theorem cache_miscounted :
    (∃ (turn : Turn) (payload : Members) (session : Protocol.Session), turn.shape = .completions ∧
      turn.Reports payload ∧ ¬ turn.Charged payload session) ∧
      ∃ (turn : Turn) (payload : Members) (session : Protocol.Session), turn.shape = .messages ∧
        turn.Reports payload ∧ ¬ turn.Charged payload session := by
  constructor
  · apply Exists.intro (.completions ⟨100, true⟩ ⟨10, true⟩ ⟨40, true⟩ true (by decide))
    apply Exists.intro
      [(codePoints "usage", .object (numbers
          [("prompt_tokens", 100), ("completion_tokens", 10), ("total_tokens", 110)] ++
        [(codePoints "prompt_tokens_details", .object (numbers [("cached_tokens", 40)]))]))]
    apply Exists.intro { loginUser := "root".toList, hostname := "svr".toList }
    apply And.intro rfl
    apply And.intro ⟨_, rfl, rfl, rfl, rfl, rfl, rfl, rfl, rfl, rfl⟩
    intro ⟨request, captured, charged⟩
    rw [← Option.some.inj captured] at charged
    exact absurd charged (by decide)
  · apply Exists.intro (.messages ⟨0, true⟩ ⟨0, true⟩ ⟨900, true⟩ ⟨0, false⟩)
    apply Exists.intro
      [(codePoints "usage", .object (numbers
        [("input_tokens", 0), ("output_tokens", 0), ("cache_read_input_tokens", 900)]))]
    apply Exists.intro { loginUser := "root".toList, hostname := "svr".toList }
    apply And.intro rfl
    apply And.intro ⟨_, rfl, rfl, rfl, rfl, rfl, rfl, rfl, rfl, rfl⟩
    intro ⟨request, captured, charged⟩
    rw [← Option.some.inj captured] at charged
    exact absurd charged (by decide)

end Providers

end LlmHoneypot
