import LlmHoneypot.Providers.Usage

/-! # Usage of a stream and of its fallback

`providers/base.py`: what is left on a request once its stream has ended, and once the buffered
request that may follow it is answered. -/

namespace LlmHoneypot

namespace Providers

open Json (Members codePoints)
open Sse (Reading)

/-! ## The request -/

def streamUsage (usage : RawUsage) (request : CommonUsage) : Option CommonUsage :=
  if usage.keys = [] then some request else (normalizeUsage usage).map request.update

/-- What a buffered request adds, with its answer, `none` where it fails. -/
def bufferedUsage (buffered : Option Members) (request : CommonUsage) : Option CommonUsage :=
  match buffered with
  | none => some request
  | some payload => captureUsage payload request

def onStreamDone (consumer : Sse.StreamingBodyConsumer) (buffered : Option Members)
    (request : CommonUsage) : Option CommonUsage := do
  let request ← streamUsage consumer.usage request
  if consumer.diagnosis = [] then some request else bufferedUsage buffered request

/-! ## Reports one after the other -/

def DetailsTold (usage : RawUsage) (told : Told) : Prop :=
  told.cached = none → Holds usage "prompt_tokens_details" none

namespace Told

def replacedBy (told later : Told) : Told where
  input := later.input <|> told.input
  output := later.output <|> told.output
  cached := later.cached <|> told.cached
  cacheCreation := later.cacheCreation <|> told.cacheCreation
  total := later.total <|> told.total

end Told

/-- The usages that the lines of a stream report. -/
def Reported (shape : Shape) (readings : List Reading) (reports : List Told) : Prop :=
  List.Forall₂
    (fun usage told => Tells (rawUsage usage) told shape ∧
      (shape = .completions → DetailsTold (rawUsage usage) told))
    ((readings.map Reading.usage).filter (· ≠ [])) reports

def finalReport (reports : List Told) : Told := reports.foldl Told.replacedBy {}

theorem get?_update (usage : RawUsage) (other : Members) (key : CodePoints) :
    (Sse.StreamingBodyConsumer.update usage other).get? key =
      ((rawUsage other).get? key <|> usage.get? key) := by
  have fold : ∀ start : RawUsage, (Sse.StreamingBodyConsumer.update start other).get? key =
      ((other.reverse.find? (·.1 = key)).map Prod.snd <|> start.get? key) := by
    induction other with
    | nil =>
        intro start
        rfl
    | cons entry other induction =>
        intro start
        change (Sse.StreamingBodyConsumer.update (start.set entry.1 entry.2) other).get? key = _
        rw [induction, Dict.get?_set, List.reverse_cons, List.find?_append]
        cases other.reverse.find? (·.1 = key) with
        | some found => rfl
        | none =>
            by_cases same : key = entry.1
            · rw [if_pos same, Option.none_or, List.find?_cons_of_pos (by simp [same])]
              rfl
            · rw [if_neg same, Option.none_or, List.find?_cons_of_neg (by simp [Ne.symm same])]
              rfl
  rw [fold usage, rawUsage, fold .empty]
  cases (other.reverse.find? (·.1 = key)).map Prod.snd <;> rfl

theorem holds_update {usage : RawUsage} {other : Members} {key : String} {number later : Option Nat}
    (holds : Holds usage key number) (holdsLater : Holds (rawUsage other) key later) :
    Holds (Sse.StreamingBodyConsumer.update usage other) key (later <|> number) := by
  rw [Holds, get?_update, holdsLater, holds]
  cases later <;> rfl

theorem cachedDetail_update {usage : RawUsage} {other : Members} {told later : Told}
    (cached : cachedDetail usage = told.cached.map fun number => .int number)
    (cachedLater : cachedDetail (rawUsage other) = later.cached.map fun number => .int number)
    (details : DetailsTold (rawUsage other) later) :
    cachedDetail (Sse.StreamingBodyConsumer.update usage other) =
      (told.replacedBy later).cached.map fun number => .int number := by
  rw [cachedDetail] at cachedLater ⊢
  rw [get?_update]
  cases isLater : later.cached with
  | none =>
      rw [details isLater, Told.replacedBy, isLater]
      exact cached
  | some number =>
      rw [isLater] at cachedLater
      cases found : (rawUsage other).get? (codePoints "prompt_tokens_details") with
      | none =>
          rw [found] at cachedLater
          cases cachedLater
      | some value =>
          rw [found] at cachedLater
          rw [Told.replacedBy, isLater]
          exact cachedLater

theorem tells_update {usage : RawUsage} {other : Members} {told later : Told} {shape : Shape}
    (tells : Tells usage told shape) (tellsLater : Tells (rawUsage other) later shape)
    (details : shape = .completions → DetailsTold (rawUsage other) later) :
    Tells (Sse.StreamingBodyConsumer.update usage other) (told.replacedBy later) shape := by
  cases shape <;>
    rcases tells with ⟨input, output, read, creation, prompt, completion, total, nested⟩ <;>
    rcases tellsLater with ⟨input', output', read', creation', prompt', completion', total',
      nested'⟩ <;>
    refine ⟨holds_update input input', holds_update output output', holds_update read read',
      holds_update creation creation', holds_update prompt prompt',
      holds_update completion completion', holds_update total total', ?_⟩
  · exact holds_update nested nested'
  · exact cachedDetail_update nested nested' (details rfl)
  · exact holds_update nested nested'

theorem tells_empty (shape : Shape) : Tells .empty {} shape := by
  cases shape <;> exact ⟨rfl, rfl, rfl, rfl, rfl, rfl, rfl, rfl⟩

theorem tells_final {shape : Shape} {readings : List Reading} {reports : List Told}
    {consumer : Sse.StreamingBodyConsumer} (reported : Reported shape readings reports)
    (taken : readings.foldlM Sse.StreamingBodyConsumer.take {} = some consumer) :
    Tells consumer.usage (finalReport reports) shape := by
  suffices every : ∀ (start : Sse.StreamingBodyConsumer) (told : Told),
      Tells start.usage told shape →
      readings.foldlM Sse.StreamingBodyConsumer.take start = some consumer →
      Tells consumer.usage (reports.foldl Told.replacedBy told) shape from
    every {} {} (tells_empty shape) taken
  clear taken
  induction readings generalizing reports with
  | nil =>
      intro start told tells taken
      cases reported
      cases taken
      exact tells
  | cons reading readings induction =>
      intro start told tells taken
      rw [List.foldlM_cons, Option.bind_eq_bind, Option.bind_eq_some_iff] at taken
      rcases taken with ⟨next, readingTaken, restTaken⟩
      have usage := (Sse.StreamingBodyConsumer.took_of_take readingTaken).usage
      rw [Reported, List.map_cons] at reported
      by_cases silent : reading.usage = []
      · rw [List.filter_cons_of_neg (by simp [silent])] at reported
        rw [silent] at usage
        exact induction reported next told (usage ▸ tells) restTaken
      · rw [List.filter_cons_of_pos (by simp [silent])] at reported
        cases reported with
        | cons report rest =>
            apply induction rest next _ _ restTaken
            rw [usage]
            exact tells_update tells report.1 report.2

/-! ## What is left on the request -/

namespace Told

/-- The counts that are recorded of a report. -/
def kept (told : Told) : Shape → Told
  | .messages =>
      if told.spent = 0 then { input := told.input, output := told.output, total := told.counted }
      else { told with cached := told.cached.filter (· ≠ 0), total := told.counted }
  | .completions =>
      { told with
        cached := told.cached.filter (· ≠ 0)
        cacheCreation := none
        total := told.total <|> if told.cached.getD 0 = 0 then told.counted else some told.spent }
  | .responses =>
      { input := told.input, output := told.output
        total := if told.spent = 0 then told.total <|> told.counted else told.counted }

def common (told : Told) : CommonUsage where
  inputTokens := told.input.map Int.ofNat
  outputTokens := told.output.map Int.ofNat
  cachedTokens := told.cached.map Int.ofNat
  cacheCreationTokens := told.cacheCreation.map Int.ofNat
  totalTokens := told.total.map Int.ofNat

theorem counted_of_spent {told : Told} (spent : told.spent ≠ 0) : told.counted = some told.spent := by
  apply if_neg
  intro nothing
  apply spent
  rw [Told.spent, nothing.1, nothing.2]
  rfl

theorem anthropic_of_spent {told : Told} (spent : told.spent ≠ 0) :
    told.anthropic =
      common { told with cached := told.cached.filter (· ≠ 0), total := told.counted } := by
  rw [counted_of_spent spent]
  apply if_neg
  intro empty
  rw [CommonUsage.mk.injEq] at empty
  apply spent
  rw [Told.spent, Option.map_eq_none_iff.mp empty.1, Option.map_eq_none_iff.mp empty.2.1]
  rfl

theorem filter_eq_none {number : Option Nat} :
    number.filter (· ≠ 0) = none ↔ number.getD 0 = 0 := by
  rcases number with none | number | number <;> simp

theorem recorded_eq (told : Told) (shape : Shape) : told.recorded shape = (told.kept shape).common := by
  cases shape with
  | messages =>
      rw [recorded, kept]
      split
      · rfl
      · next spent => exact anthropic_of_spent spent
  | completions =>
      have total : (if told.cached.filter (· ≠ 0) = none then told.counted else some told.spent) =
          if told.cached.getD 0 = 0 then told.counted else some told.spent :=
        if_congr filter_eq_none rfl rfl
      rw [recorded, openai, kept]
      simp only [total]
      rfl
  | responses =>
      rw [recorded, kept]
      split
      · rfl
      · next spent => exact anthropic_of_spent spent

theorem common_update (told later : Told) :
    told.common.update later.common = (told.replacedBy later).common := by
  have field : ∀ number laterNumber : Option Nat,
      (laterNumber.map Int.ofNat <|> number.map Int.ofNat) =
        (laterNumber <|> number).map Int.ofNat := by
    intro number laterNumber
    cases laterNumber <;> rfl
  rw [CommonUsage.update, replacedBy, common, common, common, field, field, field, field, field]

/-! ### Amounts -/

/-- The tokens of a report that were written to the cache, which OpenAI does not tell. -/
def written (told : Told) : Shape → Nat
  | .messages => told.cacheCreation.getD 0
  | .completions | .responses => 0

/-- A report of which every count is recorded. -/
def Whole (told : Told) : Shape → Prop
  | .messages => told.spent = 0 → told.cached.getD 0 = 0 ∧ told.cacheCreation.getD 0 = 0
  | .completions => True
  | .responses => told.cached.getD 0 = 0

def totalOf (told : Told) (shape : Shape) : Option Nat := (told.kept shape).total

/-- What a later report replaces is nothing. -/
structure Fresh (told later : Told) (shape : Shape) : Prop where
  input : later.input ≠ none → told.input.getD 0 = 0
  output : later.output ≠ none → told.output.getD 0 = 0
  cached : later.cached.getD 0 ≠ 0 → told.cached.getD 0 = 0
  cacheCreation : shape = .messages → later.spent ≠ 0 → later.cacheCreation ≠ none →
    told.cacheCreation.getD 0 = 0

theorem kept_input (told : Told) (shape : Shape) : (told.kept shape).input = told.input := by
  cases shape with
  | messages => exact apply_ite Told.input _ _ _ |>.trans (ite_self _)
  | completions => rfl
  | responses => rfl

theorem kept_output (told : Told) (shape : Shape) : (told.kept shape).output = told.output := by
  cases shape with
  | messages => exact apply_ite Told.output _ _ _ |>.trans (ite_self _)
  | completions => rfl
  | responses => rfl

theorem kept_cached (told : Told) (shape : Shape) :
    (told.kept shape).cached = none ∨ (told.kept shape).cached = told.cached.filter (· ≠ 0) := by
  cases shape with
  | messages =>
      rw [kept]
      split
      · exact .inl rfl
      · exact .inr rfl
  | completions => exact .inr rfl
  | responses => exact .inl rfl

theorem kept_written (told : Told) (shape : Shape) :
    ((told.kept shape).cacheCreation).getD 0 ≤ told.written shape := by
  cases shape with
  | messages =>
      rw [kept]
      split
      · exact Nat.zero_le _
      · exact Nat.le_refl _
  | completions => exact Nat.le_refl _
  | responses => exact Nat.le_refl _

theorem kept_cached_le (told : Told) (shape : Shape) :
    ((told.kept shape).cached).getD 0 ≤ told.cached.getD 0 := by
  rcases told.kept_cached shape with none | filtered
  · rw [none]
    exact Nat.zero_le _
  · rw [filtered, getD_filter]

theorem whole_iff (told : Told) (shape : Shape) :
    told.Whole shape ↔ ((told.kept shape).cached).getD 0 = told.cached.getD 0 ∧
      ((told.kept shape).cacheCreation).getD 0 = told.written shape := by
  cases shape with
  | messages =>
      rw [Whole, kept]
      split
      · next nothing =>
        constructor
        · intro whole
          exact ⟨(whole nothing).1.symm, (whole nothing).2.symm⟩
        · intro recorded _
          exact ⟨recorded.1.symm, recorded.2.symm⟩
      · next spent =>
        constructor
        · intro _
          exact ⟨getD_filter _, rfl⟩
        · intro _ nothing
          exact (spent nothing).elim
  | completions =>
      constructor
      · intro _
        exact ⟨getD_filter _, rfl⟩
      · intro _
        trivial
  | responses =>
      constructor
      · intro whole
        exact ⟨whole.symm, rfl⟩
      · intro recorded
        exact recorded.1.symm

theorem written_kept_iff (told : Told) (shape : Shape) :
    (told.kept shape).cacheCreation ≠ none ↔
      shape = .messages ∧ told.spent ≠ 0 ∧ told.cacheCreation ≠ none := by
  cases shape with
  | messages =>
      rw [kept]
      split
      · next nothing => simp [nothing]
      · next spent => simp [spent]
  | completions => simp [kept]
  | responses => simp [kept]

theorem cached_kept_iff {told : Told} {shape : Shape} (whole : told.Whole shape) :
    (told.kept shape).cached ≠ none ↔ told.cached.getD 0 ≠ 0 := by
  have recorded := ((told.whole_iff shape).mp whole).1
  rcases told.kept_cached shape with none | filtered
  · rw [none] at recorded
    rw [none, ← recorded]
    simp
  · rw [filtered, Ne, filter_eq_none]

theorem getD_replaced_iff {first second : Option Nat} {firstAmount secondAmount : Nat}
    (firstLe : first.getD 0 ≤ firstAmount) (secondLe : second.getD 0 ≤ secondAmount) :
    (second <|> first).getD 0 = firstAmount + secondAmount ↔
      first.getD 0 = firstAmount ∧ second.getD 0 = secondAmount ∧
        (second ≠ none → firstAmount = 0) := by
  cases second with
  | none =>
      change first.getD 0 = firstAmount + secondAmount ↔ first.getD 0 = firstAmount ∧
        0 = secondAmount ∧ (none ≠ none → _)
      simp only [ne_eq, not_true_eq_false, false_implies, and_true]
      omega
  | some number =>
      change number ≤ secondAmount at secondLe
      change number = firstAmount + secondAmount ↔ first.getD 0 = firstAmount ∧
        number = secondAmount ∧ (some number ≠ none → _)
      simp only [ne_eq, reduceCtorEq, not_false_eq_true, true_implies]
      omega

end Told

/-- A request is left with these counts, and its total is the sum of its input and output. -/
structure Accounted (usage : CommonUsage) (input output cached written : Nat) : Prop where
  input : usage.inputTokens.getD 0 = input
  output : usage.outputTokens.getD 0 = output
  cached : usage.cachedTokens.getD 0 = cached
  written : usage.cacheCreationTokens.getD 0 = written
  total : usage.totalTokens.getD 0 = usage.inputTokens.getD 0 + usage.outputTokens.getD 0

namespace Told

theorem accounted_common (told : Told) (input output cached written : Nat) :
    Accounted told.common input output cached written ↔
      told.input.getD 0 = input ∧ told.output.getD 0 = output ∧ told.cached.getD 0 = cached ∧
        told.cacheCreation.getD 0 = written ∧ told.total.getD 0 = told.spent := by
  have cast : ∀ number : Option Nat, (number.map Int.ofNat).getD 0 = (number.getD 0 : Nat) := by
    intro number
    cases number <;> rfl
  rw [spent]
  constructor
  · intro accounted
    have isInput := accounted.input
    have isOutput := accounted.output
    have isCached := accounted.cached
    have isWritten := accounted.written
    have isTotal := accounted.total
    simp only [common, cast] at isInput isOutput isCached isWritten isTotal
    omega
  · intro parts
    rcases parts with ⟨isInput, isOutput, isCached, isWritten, isTotal⟩
    constructor <;> simp only [common, cast] <;> omega

theorem accounted_kept (told : Told) (shape : Shape) :
    Accounted (told.kept shape).common (told.input.getD 0) (told.output.getD 0)
        (told.cached.getD 0) (told.written shape) ↔
      told.Whole shape ∧ (told.totalOf shape).getD 0 = told.spent := by
  rw [accounted_common, whole_iff, totalOf, spent, spent, kept_input, kept_output]
  constructor
  · intro parts
    rcases parts with ⟨_, _, cached, written, total⟩
    exact ⟨⟨cached, written⟩, total⟩
  · intro parts
    rcases parts with ⟨⟨cached, written⟩, total⟩
    exact ⟨rfl, rfl, cached, written, total⟩

theorem accounted_replaced (told later : Told) (shape : Shape) :
    Accounted ((told.kept shape).replacedBy (later.kept shape)).common
        (told.input.getD 0 + later.input.getD 0) (told.output.getD 0 + later.output.getD 0)
        (told.cached.getD 0 + later.cached.getD 0) (told.written shape + later.written shape) ↔
      told.Whole shape ∧ later.Whole shape ∧ told.Fresh later shape ∧
        (later.totalOf shape <|> told.totalOf shape).getD 0 = told.spent + later.spent := by
  rw [accounted_common, spent]
  simp only [replacedBy, kept_input, kept_output]
  have sums : (later.input <|> told.input).getD 0 = told.input.getD 0 + later.input.getD 0 →
      (later.output <|> told.output).getD 0 = told.output.getD 0 + later.output.getD 0 →
      (later.input <|> told.input).getD 0 + (later.output <|> told.output).getD 0 =
        told.spent + later.spent := by
    intro input output
    rw [input, output, spent, spent]
    omega
  have inputIff := @getD_replaced_iff told.input later.input _ _ (Nat.le_refl _) (Nat.le_refl _)
  have outputIff := @getD_replaced_iff told.output later.output _ _ (Nat.le_refl _) (Nat.le_refl _)
  have cachedIff := getD_replaced_iff (told.kept_cached_le shape) (later.kept_cached_le shape)
  have writtenIff := getD_replaced_iff (told.kept_written shape) (later.kept_written shape)
  constructor
  · intro parts
    rcases parts with ⟨input, output, cached, written, total⟩
    rcases cachedIff.mp cached with ⟨cachedFirst, cachedLater, cachedFresh⟩
    rcases writtenIff.mp written with ⟨writtenFirst, writtenLater, writtenFresh⟩
    have whole := (later.whole_iff shape).mpr ⟨cachedLater, writtenLater⟩
    apply And.intro ((told.whole_iff shape).mpr ⟨cachedFirst, writtenFirst⟩)
    apply And.intro whole
    apply And.intro
    · constructor
      · exact (inputIff.mp input).2.2
      · exact (outputIff.mp output).2.2
      · intro some
        exact cachedFresh ((cached_kept_iff whole).mpr some)
      · intro isMessages spent creation
        have nothing := writtenFresh ((written_kept_iff later shape).mpr ⟨isMessages, spent, creation⟩)
        rw [isMessages] at nothing
        exact nothing
    · exact total.trans (sums input output)
  · intro parts
    rcases parts with ⟨wholeFirst, whole, fresh, total⟩
    rcases (told.whole_iff shape).mp wholeFirst with ⟨cachedFirst, writtenFirst⟩
    rcases (later.whole_iff shape).mp whole with ⟨cachedLater, writtenLater⟩
    have input := inputIff.mpr ⟨rfl, rfl, fresh.input⟩
    have output := outputIff.mpr ⟨rfl, rfl, fresh.output⟩
    apply And.intro input
    apply And.intro output
    apply And.intro
    · apply cachedIff.mpr ⟨cachedFirst, cachedLater, _⟩
      intro some
      exact fresh.cached ((cached_kept_iff whole).mp some)
    · apply And.intro
      · apply writtenIff.mpr ⟨writtenFirst, writtenLater, _⟩
        intro some
        rcases (written_kept_iff later shape).mp some with ⟨isMessages, spent, creation⟩
        rw [isMessages]
        exact fresh.cacheCreation isMessages spent creation
      · exact total.trans (sums input output).symm

end Told

/-! ## Every stream and fallback -/

/-- What a buffered answer reports; nothing without a usage object. -/
def Answered (shape : Shape) (buffered : Option Members) (second : Told) : Prop :=
  match buffered.bind (Json.get? · (codePoints "usage")) with
  | some (.object usage) => Tells (rawUsage usage) second shape
  | _ => second = {}

theorem kept_empty (shape : Shape) : (Told.kept {} shape).common = {} := by
  cases shape <;> rfl

theorem streamUsage_of_tells {usage : RawUsage} {told : Told} {shape : Shape}
    (tells : Tells usage told shape) :
    streamUsage usage {} = some (told.kept shape).common := by
  have normalized := normalizeUsage_of_tells tells
  rw [streamUsage]
  split
  · next empty =>
    have isEmpty : usage = .empty := by
      rcases usage with ⟨entries, nodup⟩
      have none : entries = [] := List.map_eq_nil_iff.mp empty
      cases none
      rfl
    rw [isEmpty] at normalized
    rw [← Told.recorded_eq]
    exact normalized
  · rw [normalized, Option.map_some, CommonUsage.empty_update, Told.recorded_eq]

theorem captureUsage_of_usage {payload usage : Members} {request : CommonUsage}
    (isUsage : Json.get? payload (codePoints "usage") = some (.object usage)) :
    captureUsage payload request = (normalizeUsage (rawUsage usage)).map request.update := by
  rw [captureUsage, isUsage]

theorem captureUsage_of_other {payload : Members} {request : CommonUsage}
    (other : ∀ usage, Json.get? payload (codePoints "usage") = some (.object usage) → False) :
    captureUsage payload request = some request := by
  rw [captureUsage.eq_def]
  split
  · next usage isUsage => exact (other usage isUsage).elim
  · rfl

theorem captured_of_answered {shape : Shape} {buffered : Option Members} {second : Told}
    (answered : Answered shape buffered second) (told : Told) :
    bufferedUsage buffered told.common = some (told.replacedBy (second.kept shape)).common := by
  rw [← Told.common_update]
  cases buffered with
  | none =>
      rw [show second = {} from answered, kept_empty, CommonUsage.update_empty]
      rfl
  | some payload =>
      change (match Json.get? payload (codePoints "usage") with
        | some (.object usage) => Tells (rawUsage usage) second shape
        | _ => second = {}) at answered
      rw [bufferedUsage]
      split at answered
      · next usage isUsage =>
        rw [captureUsage_of_usage isUsage, normalizeUsage_of_tells answered, Option.map_some,
          Told.recorded_eq]
      · next other => rw [answered, kept_empty, CommonUsage.update_empty, captureUsage_of_other other]

/-- The usage left on the request after a stream that reported `first` and, where it fell back,
a buffered answer that reported `second`. -/
def UsageKept (shape : Shape) (consumer : Sse.StreamingBodyConsumer) (buffered : Option Members)
    (first second : Told) : Prop :=
  ∃ usage, onStreamDone consumer buffered {} = some usage ∧
    if consumer.diagnosis = [] then
      Accounted usage (first.input.getD 0) (first.output.getD 0) (first.cached.getD 0)
        (first.written shape)
    else
      Accounted usage (first.input.getD 0 + second.input.getD 0)
        (first.output.getD 0 + second.output.getD 0) (first.cached.getD 0 + second.cached.getD 0)
        (first.written shape + second.written shape)

/-- The request is left with what was reported where every count of the stream is recorded and
its total is right, and where, after a fallback, what replaces a count of the stream replaces
nothing and the last total is that of both. -/
theorem usage_kept_iff {shape : Shape} {readings : List Reading} {reports : List Told}
    {consumer : Sse.StreamingBodyConsumer} {buffered : Option Members} {second : Told}
    (reported : Reported shape readings reports)
    (taken : readings.foldlM Sse.StreamingBodyConsumer.take {} = some consumer)
    (answered : Answered shape buffered second) :
    UsageKept shape consumer buffered (finalReport reports) second ↔
      (finalReport reports).Whole shape ∧
        if consumer.diagnosis = [] then
          ((finalReport reports).totalOf shape).getD 0 = (finalReport reports).spent
        else
          second.Whole shape ∧ (finalReport reports).Fresh second shape ∧
            (second.totalOf shape <|> (finalReport reports).totalOf shape).getD 0 =
              (finalReport reports).spent + second.spent := by
  have streamed := streamUsage_of_tells (tells_final reported taken)
  generalize finalReport reports = first at streamed ⊢
  rw [UsageKept, onStreamDone, streamed]
  by_cases healthy : consumer.diagnosis = []
  · simp only [Option.bind_eq_bind, Option.bind_some, if_pos healthy]
    rw [← Told.accounted_kept]
    constructor
    · intro ⟨usage, same, accounted⟩
      rw [← Option.some.inj same] at accounted
      exact accounted
    · intro accounted
      exact ⟨_, rfl, accounted⟩
  · simp only [Option.bind_eq_bind, Option.bind_some, if_neg healthy]
    rw [captured_of_answered answered, ← Told.accounted_replaced]
    constructor
    · intro ⟨usage, same, accounted⟩
      rw [← Option.some.inj same] at accounted
      exact accounted
    · intro accounted
      exact ⟨_, rfl, accounted⟩

def usageReading (counts : List (String × Nat)) : Reading :=
  .event (some { usage := some (numbers counts) })

def healthyReadings : List Reading :=
  [usageReading [("input_tokens", 42), ("output_tokens", 1)],
    .event (some { text := some (.str (codePoints "hi")) }),
    usageReading [("output_tokens", 7)]]

def healthyReports : List Told := [{ input := some 42, output := some 1 }, { output := some 7 }]

theorem healthy_usage_kept : ∃ consumer,
    healthyReadings.foldlM Sse.StreamingBodyConsumer.take {} = some consumer ∧
      (UsageKept .messages consumer none (finalReport healthyReports) {} ↔
        (finalReport healthyReports).Whole .messages ∧
          if consumer.diagnosis = [] then
            ((finalReport healthyReports).totalOf .messages).getD 0 = (finalReport healthyReports).spent
          else
            Told.Whole {} .messages ∧ (finalReport healthyReports).Fresh {} .messages ∧
              (Told.totalOf {} .messages <|> (finalReport healthyReports).totalOf .messages).getD 0 =
                (finalReport healthyReports).spent + Told.spent {}) := by
  apply Exists.intro _
  apply And.intro rfl
  have differs : Shape.messages ≠ .completions := nofun
  have reported : Reported .messages healthyReadings healthyReports :=
    .cons ⟨⟨rfl, rfl, rfl, rfl, rfl, rfl, rfl, rfl⟩, fun same => absurd same differs⟩
      (.cons ⟨⟨rfl, rfl, rfl, rfl, rfl, rfl, rfl, rfl⟩, fun same => absurd same differs⟩ .nil)
  exact usage_kept_iff reported rfl rfl

/-- A stream that breaks off behind the start of the message, and the answer of its
fallback. -/
theorem fallback_replaces :
    ∃ consumer payload,
      [usageReading [("input_tokens", 42), ("output_tokens", 1)]].foldlM
        Sse.StreamingBodyConsumer.take {} = some consumer ∧
      Answered .messages (some payload) { input := some 42, output := some 7 } ∧
      onStreamDone consumer (some payload) {} =
        some { inputTokens := some 42, outputTokens := some 7, totalTokens := some 49 } ∧
      ¬ UsageKept .messages consumer (some payload) { input := some 42, output := some 1 }
        { input := some 42, output := some 7 } := by
  apply Exists.intro _
  apply Exists.intro
    [(codePoints "usage", .object (numbers [("input_tokens", 42), ("output_tokens", 7)]))]
  apply And.intro rfl
  apply And.intro ⟨rfl, rfl, rfl, rfl, rfl, rfl, rfl, rfl⟩
  apply And.intro rfl
  intro ⟨usage, left, accounted⟩
  rw [← Option.some.inj left] at accounted
  exact absurd accounted.input (by decide)

end Providers

end LlmHoneypot
