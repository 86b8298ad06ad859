import LlmHoneypot.Foundation.EventRun
import LlmHoneypot.Foundation.Text
import Mathlib.Data.List.Nodup

/-! # Credential reload of the OAuth providers

`providers/base.py`, `providers/codex_oauth.py` and `providers/anthropic_oauth.py`:
requests of any number of sessions share the token of one provider, which is read
again when a request fails with status 401. -/

namespace LlmHoneypot

namespace Providers

namespace OAuth

/-- What `_load_token` returns; the token is empty where there is none. -/
structure Credential where
  token : Str
  expiresAt : Nat
  deriving DecidableEq, Repr

inductive Kind
  | codexOauth
  | anthropicOauth
  deriving DecidableEq, Repr

structure Provider where
  kind : Kind
  token : Str
  expiresAt : Nat
  deriving DecidableEq, Repr

def reloadWith (adopt : Credential → Provider → Provider) (loaded : Credential)
    (provider : Provider) : Provider × Bool :=
  if loaded.token ≠ [] ∧ loaded.token ≠ provider.token then (adopt loaded provider, true)
  else (provider, false)

def codexOnAuthFailure : Credential → Provider → Provider × Bool :=
  reloadWith fun loaded provider => { provider with token := loaded.token }

def anthropicOnAuthFailure : Credential → Provider → Provider × Bool :=
  reloadWith fun loaded provider =>
    { provider with token := loaded.token, expiresAt := loaded.expiresAt }

def onAuthFailure (loaded : Credential) (provider : Provider) : Provider × Bool :=
  match provider.kind with
  | .codexOauth => codexOnAuthFailure loaded provider
  | .anthropicOauth => anthropicOnAuthFailure loaded provider

def supportsStreaming : Kind → Bool
  | .codexOauth => false
  | .anthropicOauth => true

/-- What a pending request waits for: the response to a streaming request or its
body, the response to a buffered request with `retried` false or true. -/
inductive Attempt
  | streaming
  | reading
  | first
  | retry
  deriving DecidableEq, Repr

structure Flight where
  id : Nat
  attempt : Attempt
  sent : Str
  deriving DecidableEq, Repr

/-- How the Deferred of a request fires; `text` has the body still to be parsed. -/
inductive Outcome
  | text (body : Str)
  | empty
  | failed
  deriving DecidableEq, Repr

structure State where
  provider : Provider
  /-- What `_load_token` would return now, `none` where it would raise. -/
  disk : Option Credential
  flights : List Flight := []
  nextId : Nat := 0
  /-- The requests that were sent again after a 401. -/
  retries : List Nat := []
  outcomes : List (Nat × Outcome) := []
  deriving DecidableEq, Repr

inductive Event
  | credentialWritten (disk : Option Credential)
  | request (streaming : Bool)
  | answered (id : Nat) (status : Nat) (body : Str)
  | streamEnded (id : Nat) (text : Option Str)
  | expired (id : Nat)
  deriving DecidableEq, Repr

namespace State

def flight? (state : State) (id : Nat) : Option Flight := state.flights.find? (·.id = id)

def drop (id : Nat) (state : State) : State :=
  { state with flights := state.flights.filter (·.id ≠ id) }

def finish (id : Nat) (outcome : Outcome) (state : State) : State :=
  { state.drop id with outcomes := state.outcomes ++ [(id, outcome)] }

def send (id : Nat) (attempt : Attempt) (state : State) : State :=
  { state.drop id with
    flights := (state.drop id).flights ++ [⟨id, attempt, state.provider.token⟩] }

end State

def finishStatus (id status : Nat) (body : Str) (state : State) : State :=
  state.finish id (if status = 200 then .text body else .empty)

def handleStatus (id status : Nat) (body : Str) (state : State) : State :=
  if status = 401 then
    match state.disk with
    | none => state.finish id .failed
    | some loaded =>
        match onAuthFailure loaded state.provider with
        | (provider, true) =>
            { ({ state with provider } : State).send id .retry with
              retries := state.retries ++ [id] }
        | (provider, false) => finishStatus id status body { state with provider }
  else finishStatus id status body state

def step (state : State) : Event → Option State
  | .credentialWritten disk => some { state with disk }
  | .request streaming =>
      if streaming then
        if supportsStreaming state.provider.kind then
          some { state.send state.nextId .streaming with nextId := state.nextId + 1 }
        else none
      else some { state.send state.nextId .first with nextId := state.nextId + 1 }
  | .answered id status body =>
      (state.flight? id).bind fun flight =>
        match flight.attempt with
        | .streaming =>
            if status = 200 then
              some { state.drop id with
                flights := (state.drop id).flights ++ [⟨id, .reading, flight.sent⟩] }
            else some (state.finish id .empty)
        | .reading => none
        | .first => some (handleStatus id status body state)
        | .retry => some (finishStatus id status body state)
  | .streamEnded id text =>
      (state.flight? id).bind fun flight =>
        if flight.attempt = .reading then
          match text with
          | some text => some (state.finish id (.text text))
          | none => some (state.send id .first)
        else none
  | .expired id => (state.flight? id).map fun _ => state.finish id .empty

/-- A new provider, with the credential that it loads. -/
def construct (kind : Kind) (loaded : Credential) : State :=
  { provider := ⟨kind, loaded.token, loaded.expiresAt⟩, disk := some loaded }

/-! ## Pending requests -/

structure Valid (state : State) : Prop where
  unique : (state.flights.map (·.id)).Nodup
  known : ∀ flight ∈ state.flights, flight.id < state.nextId
  retried : state.retries.Nodup
  retriedKnown : ∀ id ∈ state.retries, id < state.nextId
  retriedOnly : ∀ flight ∈ state.flights, flight.id ∈ state.retries → flight.attempt = .retry

theorem valid_construct (kind : Kind) (loaded : Credential) : Valid (construct kind loaded) :=
  ⟨.nil, by simp [construct], .nil, by simp [construct], by simp [construct]⟩

section Valid

variable {state next : State} {id : Nat} {flight : Flight}

theorem flight?_eq_some_iff (valid : Valid state) :
    state.flight? id = some flight ↔ flight ∈ state.flights ∧ flight.id = id := by
  constructor
  · intro found
    exact ⟨List.mem_of_find?_eq_some found, by simpa using List.find?_some found⟩
  · rintro ⟨member, rfl⟩
    cases found : state.flight? flight.id with
    | none =>
        have absent := List.find?_eq_none.mp found flight member
        simp at absent
    | some other =>
        have among := List.mem_of_find?_eq_some found
        have same : other.id = flight.id := by simpa using List.find?_some found
        rw [List.inj_on_of_nodup_map valid.unique among member same]

theorem valid_drop (valid : Valid state) (id : Nat) : Valid (state.drop id) where
  unique := valid.unique.sublist (List.filter_sublist.map _)
  known flight member := valid.known flight (List.mem_filter.mp member).1
  retried := valid.retried
  retriedKnown := valid.retriedKnown
  retriedOnly flight member := valid.retriedOnly flight (List.mem_filter.mp member).1

theorem valid_finish (valid : Valid state) (id : Nat) (outcome : Outcome) :
    Valid (state.finish id outcome) := by
  rcases valid_drop valid id with ⟨unique, known, retried, retriedKnown, retriedOnly⟩
  exact ⟨unique, known, retried, retriedKnown, retriedOnly⟩

theorem valid_add (valid : Valid state) (flight : Flight) {retries : List Nat}
    (old : flight.id < state.nextId)
    (retried : retries.Nodup ∧ (∀ id ∈ retries, id < state.nextId) ∧
      (flight.id ∈ retries → flight.attempt = .retry) ∧
      ∀ id ∈ retries, id ≠ flight.id → id ∈ state.retries) :
    Valid { state.drop flight.id with
      flights := (state.drop flight.id).flights ++ [flight], retries } := by
  have dropped := valid_drop valid flight.id
  rcases retried with ⟨nodup, bounded, own, others⟩
  constructor
  · rw [List.map_append]
    apply List.Nodup.append dropped.unique (List.nodup_singleton _)
    intro id member single
    have isOwn : id = flight.id := List.mem_singleton.mp single
    rcases List.mem_map.mp member with ⟨other, among, isId⟩
    have differs := (List.mem_filter.mp among).2
    simp only [decide_eq_true_eq] at differs
    exact differs (isId.trans isOwn)
  · intro other member
    rcases List.mem_append.mp member with among | single
    · exact dropped.known other among
    · rw [List.mem_singleton.mp single]
      exact old
  · exact nodup
  · exact bounded
  · intro other member isRetried
    rcases List.mem_append.mp member with among | single
    · have differs := (List.mem_filter.mp among).2
      simp only [decide_eq_true_eq] at differs
      exact dropped.retriedOnly other among (others _ isRetried differs)
    · rw [List.mem_singleton.mp single] at isRetried ⊢
      exact own isRetried

theorem valid_send (valid : Valid state) (id : Nat) (attempt : Attempt) (old : id < state.nextId)
    (own : id ∈ state.retries → attempt = .retry) : Valid (state.send id attempt) :=
  valid_add valid ⟨id, attempt, state.provider.token⟩ old
    ⟨valid.retried, valid.retriedKnown, own, fun _ isRetried _ => isRetried⟩

theorem valid_finishStatus (valid : Valid state) (id status : Nat) (body : Str) :
    Valid (finishStatus id status body state) := valid_finish valid id _

theorem Valid.widen {wider : State} (valid : Valid state) (flights : wider.flights = state.flights)
    (retries : wider.retries = state.retries) (more : state.nextId ≤ wider.nextId) :
    Valid wider := by
  constructor
  · rw [flights]
    exact valid.unique
  · intro flight member
    rw [flights] at member
    exact Nat.lt_of_lt_of_le (valid.known flight member) more
  · rw [retries]
    exact valid.retried
  · intro id isRetried
    rw [retries] at isRetried
    exact Nat.lt_of_lt_of_le (valid.retriedKnown id isRetried) more
  · intro flight member isRetried
    rw [flights] at member
    rw [retries] at isRetried
    exact valid.retriedOnly flight member isRetried

theorem valid_handleStatus (valid : Valid state) (status : Nat) (body : Str)
    (member : flight ∈ state.flights) (isFirst : flight.attempt = .first) :
    Valid (handleStatus flight.id status body state) := by
  unfold handleStatus
  split
  · split
    · exact valid_finish valid _ _
    · split
      · next provider _ =>
        -- The request has not been sent again before, or it would wait as a retry.
        have fresh : flight.id ∉ state.retries := by
          intro isRetried
          have isRetry := valid.retriedOnly flight member isRetried
          rw [isFirst] at isRetry
          cases isRetry
        have old := valid.known flight member
        have adopted : Valid { state with provider } := valid.widen rfl rfl (Nat.le_refl _)
        apply valid_add adopted ⟨flight.id, .retry, provider.token⟩ old
        constructor
        · apply List.Nodup.append valid.retried (List.nodup_singleton _)
          intro id isRetried single
          rw [List.mem_singleton.mp single] at isRetried
          exact fresh isRetried
        · constructor
          · intro id isRetried
            rcases List.mem_append.mp isRetried with before | single
            · exact valid.retriedKnown id before
            · rw [List.mem_singleton.mp single]
              exact old
          · constructor
            · intro _
              rfl
            · intro id isRetried differs
              rcases List.mem_append.mp isRetried with before | single
              · exact before
              · exact absurd (List.mem_singleton.mp single) differs
      · next provider _ =>
        have kept : Valid { state with provider } := valid.widen rfl rfl (Nat.le_refl _)
        exact valid_finishStatus kept _ _ _
  · exact valid_finishStatus valid _ _ _

theorem valid_request (valid : Valid state) (attempt : Attempt) :
    Valid { state.send state.nextId attempt with nextId := state.nextId + 1 } := by
  have more : Valid { state with nextId := state.nextId + 1 } :=
    valid.widen rfl rfl (Nat.le_succ _)
  apply valid_send more state.nextId attempt (Nat.lt_succ_self _)
  intro isRetried
  have old := valid.retriedKnown _ isRetried
  omega

theorem valid_step {event : Event} (valid : Valid state) (taken : step state event = some next) :
    Valid next := by
  cases event with
  | credentialWritten disk =>
      cases taken
      exact valid.widen rfl rfl (Nat.le_refl _)
  | request streaming =>
      simp only [step] at taken
      split at taken
      · split at taken
        · cases taken
          exact valid_request valid _
        · cases taken
      · cases taken
        exact valid_request valid _
  | answered id status body =>
      rcases Option.bind_eq_some_iff.mp taken with ⟨flight, pending, taken⟩
      rcases (flight?_eq_some_iff valid).mp pending with ⟨member, rfl⟩
      have old := valid.known flight member
      cases isAttempt : flight.attempt with
      | streaming =>
          simp only [isAttempt] at taken
          split at taken
          · cases taken
            apply valid_add valid ⟨flight.id, .reading, flight.sent⟩ old
            constructor
            · exact valid.retried
            · constructor
              · exact valid.retriedKnown
              · constructor
                · intro isRetried
                  have isRetry := valid.retriedOnly flight member isRetried
                  rw [isAttempt] at isRetry
                  cases isRetry
                · intro _ isRetried _
                  exact isRetried
          · cases taken
            exact valid_finish valid _ _
      | reading =>
          simp only [isAttempt] at taken
          cases taken
      | first =>
          simp only [isAttempt] at taken
          cases taken
          exact valid_handleStatus valid status body member isAttempt
      | retry =>
          simp only [isAttempt] at taken
          cases taken
          exact valid_finishStatus valid _ _ _
  | streamEnded id text =>
      rcases Option.bind_eq_some_iff.mp taken with ⟨flight, pending, taken⟩
      rcases (flight?_eq_some_iff valid).mp pending with ⟨member, rfl⟩
      split at taken
      · next isReading =>
        cases text with
        | some text =>
            cases taken
            exact valid_finish valid _ _
        | none =>
            cases taken
            apply valid_send valid _ _ (valid.known flight member)
            intro isRetried
            have isRetry := valid.retriedOnly flight member isRetried
            rw [isReading] at isRetry
            cases isRetry
      · cases taken
  | expired id =>
      rcases Option.map_eq_some_iff.mp taken with ⟨flight, pending, rfl⟩
      exact valid_finish valid _ _

end Valid

/-! ## Failures under a stale token -/

structure StaleFailure (state : State) (event : Event) (flight : Flight)
    (loaded : Credential) : Prop where
  failed : ∃ body, event = .answered flight.id 401 body
  pending : flight ∈ state.flights
  original : flight.attempt = .streaming ∨ flight.attempt = .first
  onDisk : state.disk = some loaded
  token : loaded.token ≠ []
  stale : flight.sent ≠ loaded.token

/-- The request is sent again with the token on disk. -/
def Honoured (state : State) (event : Event) : Prop :=
  ∀ flight loaded next, StaleFailure state event flight loaded →
    step state event = some next →
    ⟨flight.id, .retry, loaded.token⟩ ∈ next.flights ∧ flight.id ∈ next.retries

/-- The request is a buffered one and the provider has not taken over the token on
disk since, for another request. -/
def NotTakenOver (state : State) (event : Event) : Prop :=
  ∀ flight loaded, StaleFailure state event flight loaded →
    flight.attempt = .first ∧ state.provider.token ≠ loaded.token

theorem onAuthFailure_eq (loaded : Credential) (provider : Provider) :
    (∃ adopted, onAuthFailure loaded provider = (adopted, true) ∧
      adopted.token = loaded.token ∧ loaded.token ≠ [] ∧ provider.token ≠ loaded.token) ∨
    onAuthFailure loaded provider = (provider, false) ∧
      (loaded.token = [] ∨ provider.token = loaded.token) := by
  have reloaded (adopt : Credential → Provider → Provider)
      (taken : (adopt loaded provider).token = loaded.token) :
      (∃ adopted, reloadWith adopt loaded provider = (adopted, true) ∧
        adopted.token = loaded.token ∧ loaded.token ≠ [] ∧ provider.token ≠ loaded.token) ∨
      reloadWith adopt loaded provider = (provider, false) ∧
        (loaded.token = [] ∨ provider.token = loaded.token) := by
    unfold reloadWith
    split
    · next changed => exact .inl ⟨_, rfl, taken, changed.1, changed.2.symm⟩
    · next same =>
      apply Or.inr
      constructor
      · rfl
      · by_cases empty : loaded.token = []
        · exact .inl empty
        · apply Or.inr
          by_contra differs
          exact same ⟨empty, fun equal => differs equal.symm⟩
  unfold onAuthFailure
  cases provider.kind with
  | codexOauth => exact reloaded _ rfl
  | anthropicOauth => exact reloaded _ rfl

section StaleFailure

variable {state : State} {event : Event} {flight : Flight} {loaded : Credential}

theorem StaleFailure.step_streaming (valid : Valid state)
    (failure : StaleFailure state event flight loaded) (isStreaming : flight.attempt = .streaming) :
    step state event = some (state.finish flight.id .empty) := by
  rcases failure.failed with ⟨body, rfl⟩
  have pending := (flight?_eq_some_iff valid).mpr ⟨failure.pending, rfl⟩
  simp [step, pending, isStreaming]

theorem StaleFailure.step_first (valid : Valid state)
    (failure : StaleFailure state event flight loaded) (isFirst : flight.attempt = .first) :
    ∃ body, step state event = some (handleStatus flight.id 401 body state) := by
  rcases failure.failed with ⟨body, rfl⟩
  have pending := (flight?_eq_some_iff valid).mpr ⟨failure.pending, rfl⟩
  use body
  simp [step, pending, isFirst]

theorem not_mem_drop (id : Nat) {attempt : Attempt} {sent : Str} :
    ⟨id, attempt, sent⟩ ∉ (state.drop id).flights := by
  intro member
  have differs := (List.mem_filter.mp member).2
  simp only [decide_eq_true_eq] at differs
  exact differs rfl

theorem handleStatus_retries (body : Str) (id : Nat) (onDisk : state.disk = some loaded)
    (token : loaded.token ≠ []) (differs : state.provider.token ≠ loaded.token) :
    ⟨id, .retry, loaded.token⟩ ∈ (handleStatus id 401 body state).flights ∧
      id ∈ (handleStatus id 401 body state).retries := by
  rcases onAuthFailure_eq loaded state.provider with
    ⟨adopted, reloaded, taken, _, _⟩ | ⟨_, empty | same⟩
  · simp [handleStatus, onDisk, reloaded, State.send, taken]
  · exact absurd empty token
  · exact absurd same differs

theorem handleStatus_drops (body : Str) (id : Nat) (onDisk : state.disk = some loaded)
    (same : state.provider.token = loaded.token) :
    handleStatus id 401 body state = state.finish id .empty := by
  rcases onAuthFailure_eq loaded state.provider with ⟨_, _, _, _, differs⟩ | ⟨kept, _⟩
  · exact absurd same differs
  · simp only [handleStatus, onDisk, kept, finishStatus, if_true]
    rw [← onDisk]
    rfl

theorem honoured_iff (valid : Valid state) : Honoured state event ↔ NotTakenOver state event := by
  constructor
  · intro honoured flight loaded failure
    rcases failure.original with isStreaming | isFirst
    · have again := honoured flight loaded _ failure (failure.step_streaming valid isStreaming)
      exact (not_mem_drop flight.id again.1).elim
    · constructor
      · exact isFirst
      · intro same
        rcases failure.step_first valid isFirst with ⟨body, taken⟩
        rw [handleStatus_drops body flight.id failure.onDisk same] at taken
        have again := honoured flight loaded _ failure taken
        exact not_mem_drop flight.id again.1
  · intro notTaken flight loaded next failure taken
    rcases notTaken flight loaded failure with ⟨isFirst, differs⟩
    rcases failure.step_first valid isFirst with ⟨body, answered⟩
    rw [answered] at taken
    cases taken
    exact handleStatus_retries body flight.id failure.onDisk failure.token differs

end StaleFailure

/-- In every run no request is sent again twice, and the requests that fail under a
stale token are all sent again exactly when each of them is buffered and handled before
the provider takes over the new token. -/
theorem stale_failures_retried_iff (kind : Kind) (loaded : Credential) (events : List Event) :
    (∀ final, EventRun.run step (construct kind loaded) events = some final →
      final.retries.Nodup) ∧
    (EventRun.Along step Honoured (construct kind loaded) events ↔
      EventRun.Along step NotTakenOver (construct kind loaded) events) := by
  have start := valid_construct kind loaded
  constructor
  · intro final ran
    exact (EventRun.run_invariant Valid valid_step start ran).retried
  · exact EventRun.along_congr Valid valid_step honoured_iff start events

/-- Two requests are sent under the token T0, T1 is written and both fail. The first
failure takes over T1, which the second then finds unchanged. -/
theorem second_stale_failure_dropped :
    ¬ EventRun.Along step Honoured (construct .anthropicOauth ⟨"T0".toList, 0⟩)
      [.request false, .request false, .credentialWritten (some ⟨"T1".toList, 0⟩),
        .answered 0 401 [], .answered 1 401 []] := by
  intro honoured
  have last := ((((honoured.2 _ rfl).2 _ rfl).2 _ rfl).2 _ rfl).1
  have again := last ⟨1, .first, "T0".toList⟩ ⟨"T1".toList, 0⟩ _
    ⟨⟨[], rfl⟩, by decide, .inr rfl, rfl, by decide, by decide⟩ rfl
  exact absurd again.1 (by decide)

end OAuth

end Providers

end LlmHoneypot
