import LlmHoneypot.Protocol.Talk

/-! # Budgets

The command budget is charged when a command is sent to the model and the token budget
when an answer arrives. What each of them bounds over whole runs. -/

namespace LlmHoneypot

namespace Protocol

variable {env : Env} {session next : Session} {most : Nat}

def requestsStarted (session : Session) : Nat := session.modelSide.requests

def inFlight (session : Session) : List (Nat × ModelTurn) := session.modelSide.outstanding

theorem within_of_asked (asked : refusesTurn env session = false) :
    ((session.commandCount + 1 : Nat) : Int) ≤ env.config.maxCommandsPerSession := by
  simp only [refusesTurn, Bool.or_eq_false_iff, overCommandBudget, decide_eq_false_iff_not] at asked
  omega

theorem below_of_asked (asked : refusesTurn env session = false)
    (capped : 0 < env.config.maxTokensPerSession) :
    (session.sessionTokens : Int) < env.config.maxTokensPerSession := by
  simp only [refusesTurn, Bool.or_eq_false_iff, overTokenBudget, Bool.and_eq_false_iff,
    decide_eq_false_iff_not] at asked
  omega

/-! ## Commands -/

/-- As many commands were counted as requests were started, and these stay within the
budget. A negative budget admits none. -/
structure WithinCommands (env : Env) (side : ModelSide) : Prop where
  counted : side.requests ≤ side.commandCount
  bounded : (side.requests : Int) ≤ max 0 env.config.maxCommandsPerSession

theorem WithinCommands.talks (within_ : WithinCommands env session.modelSide)
    (talks : Talks env session next) : WithinCommands env next.modelSide := by
  have started {side : ModelSide} (session : Session)
      (within_ : WithinCommands env session.modelSide)
      (asked : refusesTurn env session = false)
      (requests : side.requests = session.modelSide.requests + 1)
      (count : side.commandCount = session.modelSide.commandCount + 1) :
      WithinCommands env side := by
    have low := within_.counted
    have room := within_of_asked asked
    have same : session.modelSide.commandCount = session.commandCount := rfl
    constructor
    · omega
    · omega
  induction talks with
  | quiet same => exact same ▸ within_
  | finished number same => exact same ▸ ⟨within_.counted, within_.bounded⟩
  | claimed command answer same => exact same ▸ ⟨within_.counted, within_.bounded⟩
  | refused refused same =>
      exact same ▸ ⟨Nat.le_succ_of_le within_.counted, within_.bounded⟩
  | gone command observation visible asked same =>
      exact same ▸ ⟨Nat.le_succ_of_le within_.counted, within_.bounded⟩
  | waiting command observation visible asked turn named same =>
      exact same ▸ started _ within_ asked rfl rfl
  | fired command observation visible asked number request answer answered same =>
      exact same ▸ started _ within_ asked rfl rfl
  | failed command observation visible asked same =>
      exact same ▸ started _ within_ asked rfl rfl
  | trans first second inductionFirst inductionSecond =>
      exact inductionSecond (inductionFirst within_)

theorem WithinCommands.step {event : Event} (within_ : WithinCommands env session.modelSide)
    (clear : session.pendingClaim = []) (stepped : step env session event = some next) :
    WithinCommands env next.modelSide := by
  cases heard_step clear stepped with
  | talked other talks => exact within_.talks talks
  | answered number turn answer waiting connected same =>
      exact same ▸ ⟨within_.counted, within_.bounded⟩
  | unheard number turn answer waiting gone same =>
      exact same ▸ ⟨within_.counted, within_.bounded⟩

/-! ## Tokens -/

def exposure (most : Nat) (side : ModelSide) : Nat :=
  side.sessionTokens + most * side.outstanding.length

def ceiling (env : Env) (most : Nat) : Nat := env.config.maxTokensPerSession.toNat + most

/-- No answer that arrives, now or at once, costs more than `most`. -/
structure AnswersWithin (env : Env) (most : Nat) (events : List Event) : Prop where
  late : ∀ number answer, Event.answered number (.ok answer) ∈ events →
    usageSpend answer.usage ≤ most
  atOnce : ∀ number request answer, env.provider number request = .fired answer →
    usageSpend answer.usage ≤ most

/-- Without a request nothing more is exposed; one request, started while none is in
flight, keeps the exposure under the ceiling. -/
structure Charges (env : Env) (most : Nat) (side next : ModelSide) : Prop where
  requests : side.requests ≤ next.requests
  idle : next.requests = side.requests →
    next.outstanding.length ≤ side.outstanding.length ∧ exposure most next ≤ exposure most side
  alone : next.requests = side.requests + 1 → side.outstanding = [] →
    exposure most next ≤ max (exposure most side) (ceiling env most)

namespace Charges

theorem of_less {side next : ModelSide} (requests : next.requests = side.requests)
    (outstanding : next.outstanding.length ≤ side.outstanding.length)
    (less : exposure most next ≤ exposure most side) : Charges env most side next :=
  ⟨Nat.le_of_eq requests.symm, fun _ => ⟨outstanding, less⟩, fun started => by omega⟩

theorem of_started {side next : ModelSide} (requests : next.requests = side.requests + 1)
    (charged : side.outstanding = [] →
      exposure most next ≤ max (exposure most side) (ceiling env most)) :
    Charges env most side next :=
  ⟨by omega, fun idle => by omega, fun _ => charged⟩

theorem trans {side next final : ModelSide} (first : Charges env most side next)
    (second : Charges env most next final) : Charges env most side final := by
  have before := first.requests
  have after := second.requests
  refine ⟨by omega, fun same => ?_, fun started nothing => ?_⟩
  · have one := first.idle (by omega)
    have two := second.idle (by omega)
    omega
  · by_cases early : next.requests = side.requests + 1
    · have one := first.alone early nothing
      have two := second.idle (by omega)
      omega
    · have one := first.idle (by omega)
      have still : next.outstanding = [] := by
        rw [nothing] at one
        exact List.eq_nil_of_length_eq_zero (Nat.le_zero.mp one.1)
      have two := second.alone (by omega) still
      omega

end Charges

theorem charges_talks (capped : 0 < env.config.maxTokensPerSession)
    (atOnce : ∀ number request answer, env.provider number request = .fired answer →
      usageSpend answer.usage ≤ most)
    (talks : Talks env session next) :
    Charges env most session.modelSide next.modelSide := by
  have below {session : Session} (asked : refusesTurn env session = false) :
      session.modelSide.sessionTokens + most ≤ ceiling env most := by
    have below := below_of_asked asked capped
    have same : session.modelSide.sessionTokens = session.sessionTokens := rfl
    simp only [ceiling]
    omega
  induction talks with
  | quiet same => exact .of_less (by rw [same]) (by rw [same]) (by rw [same])
  | @finished session next number same =>
      rw [same]
      have fewer : (session.modelSide.outstanding.filter (·.1 ≠ number)).length ≤
          session.modelSide.outstanding.length := List.length_filter_le ..
      exact .of_less rfl fewer (Nat.add_le_add_left (Nat.mul_le_mul_left most fewer) _)
  | claimed command answer same => exact same ▸ .of_less rfl (Nat.le_refl _) (Nat.le_refl _)
  | refused refused same => exact same ▸ .of_less rfl (Nat.le_refl _) (Nat.le_refl _)
  | gone command observation visible asked same =>
      exact same ▸ .of_less rfl (Nat.le_refl _) (Nat.le_refl _)
  | waiting command observation visible asked turn named same =>
      rw [same]
      apply Charges.of_started rfl
      intro nothing
      have room := below asked
      simp only [exposure, ModelSide.await, ModelSide.start, ModelSide.begin, ModelSide.count,
        nothing, List.nil_append, List.length_singleton]
      omega
  | fired command observation visible asked number request answer answered same =>
      rw [same]
      apply Charges.of_started rfl
      intro nothing
      have room := below asked
      have cost := atOnce number request answer answered
      simp only [exposure, ModelSide.answer, ModelSide.spend, ModelSide.start, ModelSide.begin,
        ModelSide.count, nothing, List.length_nil]
      omega
  | failed command observation visible asked same =>
      rw [same]
      exact .of_started rfl fun _ => Nat.le_max_left ..
  | trans first second inductionFirst inductionSecond =>
      exact inductionFirst.trans inductionSecond

/-! ## Late answers -/

theorem mem_outstanding {number : Nat} {turn : ModelTurn}
    (waiting : session.agenda.find? number = some (.model turn)) :
    (number, turn) ∈ session.modelSide.outstanding := by
  have member := Agenda.find?_eq_some.mp waiting
  exact List.mem_filterMap.mpr ⟨(number, .model turn), member, rfl⟩

theorem charges_answered {number : Nat} {turn : ModelTurn} {usage : Option Usage}
    {side : ModelSide} (member : (number, turn) ∈ side.outstanding)
    (cost : usageSpend usage ≤ most) :
    Charges env most side ((side.finish number).spend usage) := by
  have fewer : (side.outstanding.filter (·.1 ≠ number)).length < side.outstanding.length := by
    apply List.length_filter_lt_length_iff_exists.mpr
    exact ⟨(number, turn), member, by simp⟩
  have less : exposure most ((side.finish number).spend usage) ≤ exposure most side := by
    have freed := Nat.mul_le_mul_left most (Nat.succ_le_of_lt fewer)
    rw [Nat.mul_succ] at freed
    simp only [exposure, ModelSide.spend, ModelSide.finish]
    omega
  exact .of_less rfl (Nat.le_of_lt fewer) less

theorem charges_step {event : Event} (capped : 0 < env.config.maxTokensPerSession)
    {events : List Event} (within_ : AnswersWithin env most events) (member : event ∈ events)
    (clear : session.pendingClaim = []) (stepped : step env session event = some next) :
    Charges env most session.modelSide next.modelSide := by
  cases heard_step clear stepped with
  | talked other talks => exact charges_talks capped within_.atOnce talks
  | answered number turn answer waiting connected same =>
      rw [same]
      have charges : Charges env most _ _ :=
        charges_answered (mem_outstanding waiting) (within_.late number answer member)
      exact ⟨charges.requests, charges.idle, charges.alone⟩
  | unheard number turn answer waiting gone same =>
      rw [same]
      exact charges_answered (mem_outstanding waiting) (within_.late number answer member)

/-! ## Runs -/

/-- How many requests the event sends. -/
def requestsSent (env : Env) (session : Session) (event : Event) : Nat :=
  ((step env session event).map fun next => requestsStarted next - requestsStarted session).getD 0

/-- The event sends at most one request, and none while another one waits on the agenda. -/
structure StartsAlone (env : Env) (session : Session) (event : Event) : Prop where
  single : requestsSent env session event ≤ 1
  alone : inFlight session ≠ [] → requestsSent env session event = 0

theorem exposure_step {event : Event} (capped : 0 < env.config.maxTokensPerSession)
    {events : List Event} (within_ : AnswersWithin env most events) (member : event ∈ events)
    (clear : session.pendingClaim = []) (stepped : step env session event = some next)
    (alone : StartsAlone env session event)
    (below : exposure most session.modelSide ≤ ceiling env most) :
    exposure most next.modelSide ≤ ceiling env most := by
  have charges := charges_step capped within_ member clear stepped
  have sent : requestsSent env session event = next.modelSide.requests - session.modelSide.requests := by
    simp only [requestsSent, stepped, Option.map_some, Option.getD_some, requestsStarted]
  have single := alone.single
  have more := charges.requests
  by_cases idle : next.modelSide.requests = session.modelSide.requests
  · exact (charges.idle idle).2.trans below
  · have nothing : session.modelSide.outstanding = [] := by
      by_contra waiting
      have none_ := alone.alone waiting
      omega
    have charged := charges.alone (by omega) nothing
    omega

theorem exposure_run {events taken : List Event} {start final : Session}
    (capped : 0 < env.config.maxTokensPerSession) (within_ : AnswersWithin env most events)
    (subset : taken ⊆ events) (clear : start.pendingClaim = [])
    (ran : runEvents env start taken = some final)
    (alone : EventRun.Along (step env) (StartsAlone env) start taken)
    (below : exposure most start.modelSide ≤ ceiling env most) :
    exposure most final.modelSide ≤ ceiling env most := by
  induction taken generalizing start with
  | nil =>
      cases ran
      exact below
  | cons event later induction =>
      rcases EventRun.run_cons.mp ran with ⟨next, stepped, ranOn⟩
      have member : event ∈ events := subset (List.mem_cons_self ..)
      apply induction (List.subset_of_cons_subset subset) (pendingClaim_step clear stepped) ranOn
        (alone.2 next stepped)
      exact exposure_step capped within_ member clear stepped alone.1 below

theorem commands_run {events : List Event} {start final : Session}
    (within_ : WithinCommands env start.modelSide) (clear : start.pendingClaim = [])
    (ran : runEvents env start events = some final) :
    WithinCommands env final.modelSide := by
  have kept := EventRun.run_invariant
    (fun session => session.pendingClaim = [] ∧ WithinCommands env session.modelSide)
    (fun held stepped => ⟨pendingClaim_step held.1 stepped, held.2.step held.1 stepped⟩)
    ⟨clear, within_⟩ ran
  exact kept.2

/-- No run starts more requests than the command budget allows, and no run that starts
its requests one after the other goes over the token budget by more than an answer. -/
theorem budgets_kept (env : Env) (start final : Session) (events : List Event)
    (initial : Initial start) (ran : runEvents env start events = some final) :
    (requestsStarted final : Int) ≤ max 0 env.config.maxCommandsPerSession ∧
      ∀ most, AnswersWithin env most events →
        EventRun.Along (step env) (StartsAlone env) start events →
        0 < env.config.maxTokensPerSession →
        (final.sessionTokens : Int) ≤ env.config.maxTokensPerSession + most := by
  have clear := pendingClaim_of_initial initial
  constructor
  · have fresh : WithinCommands env start.modelSide := by
      rcases initial with ⟨loginUser, hostname, clock, rfl⟩
      exact ⟨Nat.le_refl _, Int.le_max_left ..⟩
    exact (commands_run fresh clear ran).bounded
  · intro most within_ alone capped
    have fresh : exposure most start.modelSide = 0 := by
      rcases initial with ⟨loginUser, hostname, clock, rfl⟩
      rfl
    have below := exposure_run capped within_ (List.Subset.refl events) clear ran alone
      (by omega)
    have tokens : final.modelSide.sessionTokens = final.sessionTokens := rfl
    simp only [exposure, ceiling] at below
    omega

def tenTokens : Env := { Env.pending with config := { maxTokensPerSession := 10 } }

def costly : Answer := ⟨"ok".toList, some { outputTokens := 100 }⟩

theorem budgets_kept_example :
    ∃ final, runEvents tenTokens atPrompt [.line makeLine, .answered 0 (.ok costly)] =
        some final ∧
      requestsStarted final ≤ 200 ∧ final.sessionTokens ≤ 110 := by
  refine ⟨_, rfl, ?_⟩
  have kept := budgets_kept tenTokens atPrompt _ [.line makeLine, .answered 0 (.ok costly)]
    ⟨_, _, _, rfl⟩ rfl
  have answers : AnswersWithin tenTokens 100 [.line makeLine, .answered 0 (.ok costly)] := by
    constructor
    · intro number answer member
      simp only [List.mem_cons, reduceCtorEq, false_or, List.not_mem_nil, or_false] at member
      cases member
      exact Nat.le_refl _
    · intro number request answer answered
      cases answered
  have alone : EventRun.Along (step tenTokens) (StartsAlone tenTokens) atPrompt
      [.line makeLine, .answered 0 (.ok costly)] := by
    refine ⟨⟨by decide, fun waiting => absurd rfl waiting⟩, fun next stepped => ?_⟩
    cases stepped
    exact ⟨⟨by decide, fun _ => rfl⟩, fun next stepped => trivial⟩
  have commands := kept.1
  have tokens := kept.2 100 answers alone (by decide)
  constructor
  · have budget : max 0 tenTokens.config.maxCommandsPerSession = 200 := rfl
    omega
  · have budget : tenTokens.config.maxTokensPerSession = 10 := rfl
    omega

/-- Two requests in flight go over the budget by two answers. -/
theorem requests_in_flight_overspend :
    ¬ ∀ env start final events, Initial start → runEvents env start events = some final →
      (requestsStarted final : Int) ≤ max 0 env.config.maxCommandsPerSession ∧
        ∀ most, AnswersWithin env most events → 0 < env.config.maxTokensPerSession →
          (final.sessionTokens : Int) ≤ env.config.maxTokensPerSession + most := by
  intro all
  let events : List Event :=
    [.line makeLine, .line makeLine, .answered 0 (.ok costly), .answered 1 (.ok costly)]
  have answers : AnswersWithin tenTokens 100 events := by
    constructor
    · intro number answer member
      simp only [events, List.mem_cons, reduceCtorEq, false_or, List.not_mem_nil,
        or_false] at member
      rcases member with member | member
      · cases member
        exact Nat.le_refl _
      · cases member
        exact Nat.le_refl _
    · intro number request answer answered
      cases answered
  have kept := (all tenTokens atPrompt _ events ⟨_, _, _, rfl⟩ rfl).2 100 answers (by decide)
  exact absurd kept (by decide)

end Protocol

end LlmHoneypot
