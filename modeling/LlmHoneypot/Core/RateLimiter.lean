import LlmHoneypot.Foundation.DictMap
import LlmHoneypot.Foundation.EventRun
import Mathlib.Data.List.Sort

/-! # Outbound rate limit

`RateLimiter`. Times are ticks of the clock, which may be as fine as any clock is. -/

namespace LlmHoneypot

namespace Core

structure RateLimiter (Key : Type) where
  enabled : Bool := true
  maxRequests : Nat
  windowSeconds : Int
  maxKeys : Nat
  requestTracker : Dict Key (List Int) := .empty
  lastCleanup : Int

namespace RateLimiter

variable {Key : Type}

def within (window now : Int) (timestamps : List Int) : List Int :=
  timestamps.filter fun ts => now - ts < window

def cleanupAll (window now : Int) (tracker : Dict Key (List Int)) : Dict Key (List Int) :=
  (tracker.mapValues (within window now)).filterValues (· ≠ [])

def latest (timestamps : List Int) : Int := timestamps.max?.getD 0

def oldestKeys (tracker : Dict Key (List Int)) : List Key :=
  let activity := tracker.entries.map fun entry => (entry.1, latest entry.2)
  let sorted := activity.insertionSort fun left right => left.2 ≤ right.2
  (sorted.take (max 1 (tracker.size / 10))).map Prod.fst

theorem within_within {window earlier now : Int} (later : earlier ≤ now) (stamps : List Int) :
    within window now (within window earlier stamps) = within window now stamps := by
  rw [within, within, List.filter_filter]
  apply List.filter_congr
  intro ts _
  simp only [← Bool.decide_and, decide_eq_decide]
  omega

theorem within_append (window now : Int) (stamps more : List Int) :
    within window now (stamps ++ more) = within window now stamps ++ within window now more :=
  List.filter_append ..

theorem size_cleanupAll_le (window now : Int) (tracker : Dict Key (List Int)) :
    (cleanupAll window now tracker).size ≤ tracker.size := by
  apply Nat.le_trans (List.length_filter_le ..)
  exact Nat.le_of_eq (List.length_map _)

theorem oldestKeys_subperm (tracker : Dict Key (List Int)) :
    ∃ rest, (oldestKeys tracker ++ rest).Perm tracker.keys := by
  refine ⟨?_, ?_⟩
  · exact ((((tracker.entries.map fun entry => (entry.1, latest entry.2)).insertionSort
      fun left right => left.2 ≤ right.2).drop (max 1 (tracker.size / 10))).map Prod.fst)
  · rw [oldestKeys, ← List.map_append, List.take_append_drop]
    apply ((List.perm_insertionSort ..).map Prod.fst).trans
    rw [List.map_map]
    exact .refl _

theorem length_oldestKeys (tracker : Dict Key (List Int)) :
    (oldestKeys tracker).length = min (max 1 (tracker.size / 10)) tracker.size := by
  simp only [oldestKeys, List.length_map, List.length_take, List.length_insertionSort, Dict.size]

variable [DecidableEq Key]

/-- `tracker[key]`, which is empty for a key that is new. -/
def timestamps (tracker : Dict Key (List Int)) (key : Key) : List Int :=
  (tracker.get? key).getD []

def removeOldestKeys (tracker : Dict Key (List Int)) : Dict Key (List Int) :=
  tracker.eraseAll (oldestKeys tracker)

def cleaned (limiter : RateLimiter Key) (now : Int) (key : Key) : Dict Key (List Int) :=
  let tracker :=
    if limiter.windowSeconds < now - limiter.lastCleanup then
      cleanupAll limiter.windowSeconds now limiter.requestTracker
    else limiter.requestTracker
  tracker.set key (within limiter.windowSeconds now (timestamps tracker key))

/-- The tracker that the limit is checked against. The key is looked up in it, so it is
there again if it was removed. -/
def evicted (limiter : RateLimiter Key) (now : Int) (key : Key) : Dict Key (List Int) :=
  let tracker := limiter.cleaned now key
  let tracker := if limiter.maxKeys < tracker.size then removeOldestKeys tracker else tracker
  tracker.set key (timestamps tracker key)

def check (limiter : RateLimiter Key) (now : Int) (key : Key) : RateLimiter Key × Bool :=
  if ¬ limiter.enabled then (limiter, true)
  else
    let tracker := limiter.evicted now key
    let limiter := { limiter with
      requestTracker := tracker
      lastCleanup :=
        if limiter.windowSeconds < now - limiter.lastCleanup then now else limiter.lastCleanup }
    if limiter.maxRequests ≤ (timestamps tracker key).length then (limiter, false)
    else
      ({ limiter with requestTracker := tracker.set key (timestamps tracker key ++ [now]) }, true)

/-! ## Timestamps -/

theorem timestamps_set (tracker : Dict Key (List Int)) (key other : Key) (stamps : List Int) :
    timestamps (tracker.set key stamps) other =
      if other = key then stamps else timestamps tracker other := by
  rw [timestamps, Dict.get?_set]
  split
  · rfl
  · rfl

theorem within_timestamps_cleanupAll {window earlier now : Int} (later : earlier ≤ now)
    (tracker : Dict Key (List Int)) (key : Key) :
    within window now (timestamps (cleanupAll window earlier tracker) key) =
      within window now (timestamps tracker key) := by
  rw [timestamps, cleanupAll, Dict.get?_filterValues, Dict.get?_mapValues, timestamps]
  cases tracker.get? key with
  | none => rfl
  | some stamps =>
      rw [Option.map_some, Option.getD_some, ← within_within later stamps]
      by_cases empty : within window earlier stamps = []
      · simp [Option.filter, empty]
      · simp [Option.filter, empty]

theorem within_timestamps_cleaned (limiter : RateLimiter Key) {earlier now : Int}
    (later : earlier ≤ now) (key other : Key) :
    within limiter.windowSeconds now (timestamps (limiter.cleaned earlier key) other) =
      within limiter.windowSeconds now (timestamps limiter.requestTracker other) := by
  rw [cleaned]
  split
  · rw [timestamps_set]
    split
    · next same => rw [same, within_within later, within_timestamps_cleanupAll later]
    · exact within_timestamps_cleanupAll later ..
  · rw [timestamps_set]
    split
    · next same => rw [same, within_within later]
    · rfl

theorem timestamps_cleaned (limiter : RateLimiter Key) (now : Int) (key : Key) :
    timestamps (limiter.cleaned now key) key =
      within limiter.windowSeconds now (timestamps limiter.requestTracker key) := by
  rw [← within_timestamps_cleaned limiter (Int.le_refl now) key key, cleaned]
  split
  · rw [timestamps_set, if_pos rfl, within_within (Int.le_refl now)]
  · rw [timestamps_set, if_pos rfl, within_within (Int.le_refl now)]

theorem timestamps_removeOldestKeys (tracker : Dict Key (List Int)) (key : Key) :
    timestamps (removeOldestKeys tracker) key =
      if key ∈ oldestKeys tracker then [] else timestamps tracker key := by
  rw [timestamps, removeOldestKeys, Dict.get?_eraseAll]
  split
  · rfl
  · rfl

/-! ## Sizes -/

theorem size_set_le (tracker : Dict Key (List Int)) (key : Key) (stamps : List Int) :
    (tracker.set key stamps).size ≤ tracker.size + 1 := by
  rw [Dict.size_set]
  split
  · exact Nat.le_succ _
  · exact Nat.le_refl _

theorem size_cleaned_le (limiter : RateLimiter Key) (now : Int) (key : Key) :
    (limiter.cleaned now key).size ≤ limiter.requestTracker.size + 1 := by
  rw [cleaned]
  split
  · apply Nat.le_trans (size_set_le ..)
    apply Nat.succ_le_succ
    exact size_cleanupAll_le ..
  · exact size_set_le ..

theorem mem_keys_cleaned (limiter : RateLimiter Key) (now : Int) (key : Key) :
    key ∈ (limiter.cleaned now key).keys := by
  rw [cleaned]
  split
  · exact Dict.mem_keys_set.mpr (.inl rfl)
  · exact Dict.mem_keys_set.mpr (.inl rfl)

theorem size_removeOldestKeys (tracker : Dict Key (List Int)) :
    (removeOldestKeys tracker).size + min (max 1 (tracker.size / 10)) tracker.size =
      tracker.size := by
  rcases oldestKeys_subperm tracker with ⟨rest, same⟩
  have distinct : (oldestKeys tracker ++ rest).Nodup := same.nodup_iff.mpr tracker.nodup
  rw [← length_oldestKeys]
  apply Dict.size_eraseAll (List.nodup_append.mp distinct).1
  intro key member
  exact same.subset (List.mem_append_left _ member)

/-! ## One call -/

def Spares (limiter : RateLimiter Key) (now : Int) (key : Key) : Prop :=
  limiter.maxKeys < (limiter.cleaned now key).size →
    19 ≤ limiter.maxKeys ∧
      ∀ removed ∈ oldestKeys (limiter.cleaned now key),
        within limiter.windowSeconds now (timestamps limiter.requestTracker removed) = []

instance (limiter : RateLimiter Key) (now : Int) (key : Key) : Decidable (limiter.Spares now key) :=
  inferInstanceAs (Decidable (_ → _))

variable {limiter : RateLimiter Key} {now : Int} {key : Key}

theorem timestamps_evicted (limiter : RateLimiter Key) (now : Int) (key other : Key) :
    timestamps (limiter.evicted now key) other =
      if limiter.maxKeys < (limiter.cleaned now key).size ∧
          other ∈ oldestKeys (limiter.cleaned now key) then []
      else timestamps (limiter.cleaned now key) other := by
  have same : ∀ tracker : Dict Key (List Int),
      timestamps (tracker.set key (timestamps tracker key)) other = timestamps tracker other := by
    intro tracker
    rw [timestamps_set]
    split
    · next isKey => rw [isKey]
    · rfl
  rw [evicted, same]
  split
  · next exceeding => simp only [timestamps_removeOldestKeys, exceeding, true_and]
  · next fits => rw [if_neg fun removed => fits removed.1]

theorem within_timestamps_evicted (spares : limiter.Spares now key) {later : Int}
    (after : now ≤ later) (other : Key) :
    within limiter.windowSeconds later (timestamps (limiter.evicted now key) other) =
      within limiter.windowSeconds later (timestamps limiter.requestTracker other) := by
  rw [timestamps_evicted]
  split
  · next removed =>
      rw [← within_within after (timestamps limiter.requestTracker other),
        (spares removed.1).2 other removed.2]
  · exact within_timestamps_cleaned limiter after key other

theorem timestamps_evicted_self (spares : limiter.Spares now key) :
    timestamps (limiter.evicted now key) key =
      within limiter.windowSeconds now (timestamps limiter.requestTracker key) := by
  rw [timestamps_evicted]
  split
  · next removed => rw [(spares removed.1).2 key removed.2]
  · exact timestamps_cleaned limiter now key

theorem size_evicted (spares : limiter.Spares now key)
    (bounded : limiter.requestTracker.size ≤ limiter.maxKeys) :
    (limiter.evicted now key).size ≤ limiter.maxKeys := by
  rw [evicted]
  split
  · next exceeding =>
      have large := (spares exceeding).1
      have cleanedSize := size_cleaned_le limiter now key
      have removedSize := size_removeOldestKeys (limiter.cleaned now key)
      have setSize := size_set_le (removeOldestKeys (limiter.cleaned now key)) key
        (timestamps (removeOldestKeys (limiter.cleaned now key)) key)
      omega
  · next fits =>
      rw [Dict.size_set, if_pos (mem_keys_cleaned ..)]
      omega

theorem mem_keys_evicted (limiter : RateLimiter Key) (now : Int) (key : Key) :
    key ∈ (limiter.evicted now key).keys := Dict.mem_keys_set.mpr (.inl rfl)

theorem check_granted (on : limiter.enabled) (spares : limiter.Spares now key)
    (room : (within limiter.windowSeconds now
      (timestamps limiter.requestTracker key)).length < limiter.maxRequests) :
    (limiter.check now key).2 = true ∧
      (limiter.check now key).1.requestTracker = (limiter.evicted now key).set key
        (timestamps (limiter.evicted now key) key ++ [now]) := by
  rw [← timestamps_evicted_self spares] at room
  rw [check, if_neg (not_not.mpr on)]
  simp only [if_neg (Nat.not_le.mpr room), and_self]

theorem check_refused (on : limiter.enabled) (spares : limiter.Spares now key)
    (full : limiter.maxRequests ≤ (within limiter.windowSeconds now
      (timestamps limiter.requestTracker key)).length) :
    (limiter.check now key).2 = false ∧
      (limiter.check now key).1.requestTracker = limiter.evicted now key := by
  rw [← timestamps_evicted_self spares] at full
  rw [check, if_neg (not_not.mpr on)]
  simp only [if_pos full, and_self]

structure SameSettings (left right : RateLimiter Key) : Prop where
  enabled : left.enabled = right.enabled
  maxRequests : left.maxRequests = right.maxRequests
  windowSeconds : left.windowSeconds = right.windowSeconds
  maxKeys : left.maxKeys = right.maxKeys

theorem check_sameSettings (limiter : RateLimiter Key) (now : Int) (key : Key) :
    SameSettings (limiter.check now key).1 limiter := by
  rw [check]
  split
  · exact ⟨rfl, rfl, rfl, rfl⟩
  · dsimp only
    split
    · exact ⟨rfl, rfl, rfl, rfl⟩
    · exact ⟨rfl, rfl, rfl, rfl⟩

end RateLimiter

/-! ## Runs -/

/-- A limiter with the requests it has granted. -/
structure Limited (Key : Type) where
  limiter : RateLimiter Key
  granted : List (Int × Key) := []
  clock : Int

namespace Limited

open RateLimiter

variable {Key : Type} [DecidableEq Key]

/-- One call of `check`. The clock does not run back. -/
def step (state : Limited Key) (call : Int × Key) : Option (Limited Key) :=
  if call.1 < state.clock then none
  else
    let checked := state.limiter.check call.1 call.2
    some {
      limiter := checked.1
      granted := if checked.2 then state.granted ++ [call] else state.granted
      clock := call.1 }

def times (granted : List (Int × Key)) (key : Key) : List Int :=
  (granted.filter fun call => call.2 = key).map Prod.fst

def between (granted : List (Int × Key)) (key : Key) (first last : Int) : List Int :=
  (times granted key).filter fun time => first ≤ time ∧ time ≤ last

/-- At most the limit in any interval that is shorter than the window. -/
def Bounded (limiter : RateLimiter Key) (granted : List (Int × Key)) : Prop :=
  ∀ key first last, last - first < limiter.windowSeconds →
    (between granted key first last).length ≤ limiter.maxRequests

theorem times_append_single (granted : List (Int × Key)) (call : Int × Key) (key : Key) :
    times (granted ++ [call]) key =
      if call.2 = key then times granted key ++ [call.1] else times granted key := by
  rw [times, List.filter_append, List.map_append]
  split
  · next same => simp [times, same]
  · next other => simp [times, other]

structure Holds (limiter : RateLimiter Key) (state : Limited Key) : Prop where
  settings : SameSettings state.limiter limiter
  /-- The tracker has all granted requests within the window. -/
  tracked : ∀ key later, state.clock ≤ later →
    within limiter.windowSeconds later (times state.granted key) =
      within limiter.windowSeconds later (timestamps state.limiter.requestTracker key)
  bounded : Bounded limiter state.granted
  size : state.limiter.requestTracker.size ≤ limiter.maxKeys

theorem length_between_le {granted : List (Int × Key)} {key : Key} {first last now window : Int}
    (reaches : now ≤ last)
    (short : last - first < window) :
    (between granted key first last).length ≤ (within window now (times granted key)).length := by
  apply List.Sublist.length_le
  apply List.monotone_filter_right
  intro time inside
  simp only [decide_eq_true_eq] at inside ⊢
  omega

theorem Bounded.append {limiter : RateLimiter Key} {granted : List (Int × Key)} {now : Int}
    {key : Key} (bounded : Bounded limiter granted)
    (room : (within limiter.windowSeconds now (times granted key)).length < limiter.maxRequests) :
    Bounded limiter (granted ++ [(now, key)]) := by
  intro other first last short
  have before := bounded other first last short
  rw [between, times_append_single]
  split
  · next same =>
      dsimp only at same
      rw [← same] at before ⊢
      rw [List.filter_append]
      by_cases inside : first ≤ now ∧ now ≤ last
      · have fewer : (between granted key first last).length ≤
            (within limiter.windowSeconds now (times granted key)).length :=
          length_between_le inside.2 short
        have one : ([now].filter fun time => decide (first ≤ time ∧ time ≤ last)).length ≤ 1 :=
          List.length_filter_le ..
        rw [List.length_append, ← between]
        exact Nat.le_trans (Nat.add_le_add fewer one) room
      · rw [List.filter_singleton, decide_eq_false inside]
        simpa [between] using before
  · exact before

theorem Holds.step {limiter : RateLimiter Key} (on : limiter.enabled) {state next : Limited Key}
    {call : Int × Key} (holds : Holds limiter state)
    (spares : state.limiter.Spares call.1 call.2) (taken : state.step call = some next) :
    Holds limiter next := by
  rcases call with ⟨now, key⟩
  dsimp only at spares
  rw [Limited.step] at taken
  split at taken
  · cases taken
  · next later =>
      dsimp only at later taken
      cases taken
      have settings := holds.settings
      have stillOn : state.limiter.enabled := by rw [settings.enabled, on]
      have kept : ∀ other later, now ≤ later →
          within limiter.windowSeconds later (timestamps (state.limiter.evicted now key) other) =
            within limiter.windowSeconds later (times state.granted other) := by
        intro other later after
        rw [holds.tracked other later (by omega), ← settings.windowSeconds]
        exact within_timestamps_evicted spares after other
      have size : (state.limiter.evicted now key).size ≤ limiter.maxKeys := by
        rw [← settings.maxKeys]
        apply size_evicted spares
        rw [settings.maxKeys]
        exact holds.size
      have sameSettings := check_sameSettings state.limiter now key
      have stillSettings : SameSettings (state.limiter.check now key).1 limiter :=
        ⟨sameSettings.enabled.trans settings.enabled,
          sameSettings.maxRequests.trans settings.maxRequests,
          sameSettings.windowSeconds.trans settings.windowSeconds,
          sameSettings.maxKeys.trans settings.maxKeys⟩
      by_cases room : (within state.limiter.windowSeconds now
          (timestamps state.limiter.requestTracker key)).length < state.limiter.maxRequests
      · rcases check_granted stillOn spares room with ⟨granted, tracker⟩
        refine ⟨stillSettings, ?_, ?_, ?_⟩
        · intro other later after
          rw [if_pos granted, times_append_single, tracker, timestamps_set]
          by_cases same : other = key
          · rw [if_pos same, if_pos same.symm, within_append, within_append, same,
              kept key later after]
          · rw [if_neg same, if_neg (Ne.symm same), kept other later after]
        · rw [if_pos granted]
          apply holds.bounded.append
          rw [holds.tracked key now (by omega), ← settings.windowSeconds, ← settings.maxRequests]
          exact room
        · dsimp only
          rw [tracker, Dict.size_set, if_pos (mem_keys_evicted ..)]
          exact size
      · rcases check_refused stillOn spares (Nat.not_lt.mp room) with ⟨refused, tracker⟩
        have same : (if (state.limiter.check now key).2 = true then state.granted ++ [(now, key)]
            else state.granted) = state.granted := by rw [if_neg (by simp [refused])]
        refine ⟨stillSettings, ?_, ?_, ?_⟩
        · intro other later after
          rw [same, tracker, kept other later after]
        · rw [same]
          exact holds.bounded
        · dsimp only
          rw [tracker]
          exact size

theorem Holds.start {limiter : RateLimiter Key} (fresh : limiter.requestTracker = .empty) :
    Holds limiter { limiter, clock := limiter.lastCleanup } := by
  refine ⟨⟨rfl, rfl, rfl, rfl⟩, ?_, ?_, ?_⟩
  · intro key later _
    rw [fresh]
    rfl
  · intro key first last _
    exact Nat.zero_le _
  · rw [fresh]
    exact Nat.zero_le _

/-- While no key is removed that was requested within the window, the limit holds. -/
theorem bounded_of_spares {limiter : RateLimiter Key} (on : limiter.enabled)
    (fresh : limiter.requestTracker = .empty) {calls : List (Int × Key)} {state : Limited Key}
    (ran : EventRun.run step { limiter, clock := limiter.lastCleanup } calls = some state)
    (spares : EventRun.Along step (fun state call => state.limiter.Spares call.1 call.2)
      { limiter, clock := limiter.lastCleanup } calls) :
    Bounded limiter state.granted ∧ state.limiter.requestTracker.size ≤ limiter.maxKeys := by
  have holds := EventRun.run_invariant_along (Holds limiter)
    (fun _ holds spares taken => holds.step on spares taken) (Holds.start fresh) spares ran
  exact ⟨holds.bounded, holds.size⟩

/-! ## Memory -/

/-- One key more than configured may be kept, and 19 of them in any case: of fewer than 20 only
one is removed at a time, which may be the key that is checked. -/
structure Confined (maxKeys : Nat) (limiter : RateLimiter Key) : Prop where
  keys : limiter.maxKeys = maxKeys
  size : limiter.requestTracker.size ≤ max (maxKeys + 1) 19

namespace Confined

variable {maxKeys : Nat} {limiter : RateLimiter Key}

theorem size_evicted (confined : Confined maxKeys limiter) (now : Int) (key : Key) :
    (limiter.evicted now key).size ≤ max (maxKeys + 1) 19 := by
  have tracked := confined.size
  have cleanedSize := size_cleaned_le limiter now key
  have isMax := confined.keys
  rw [evicted]
  split
  · have removedSize := size_removeOldestKeys (limiter.cleaned now key)
    have setSize := size_set_le (removeOldestKeys (limiter.cleaned now key)) key
      (timestamps (removeOldestKeys (limiter.cleaned now key)) key)
    omega
  · rw [Dict.size_set, if_pos (mem_keys_cleaned ..)]
    omega

theorem check (confined : Confined maxKeys limiter) (now : Int) (key : Key) :
    Confined maxKeys (limiter.check now key).1 := by
  have size := confined.size_evicted now key
  rw [RateLimiter.check]
  split
  · exact confined
  · dsimp only
    split
    · exact ⟨confined.keys, size⟩
    · refine ⟨confined.keys, ?_⟩
      dsimp only
      rw [Dict.size_set, if_pos (mem_keys_evicted ..)]
      exact size

end Confined

/-- One call of `check`, whatever the clock shows. -/
def checked (limiter : RateLimiter Key) (call : Int × Key) : Option (RateLimiter Key) :=
  some (limiter.check call.1 call.2).1

/-- Whatever keys are checked, the tracker holds at most one more than configured, or 19. -/
theorem always_confined (enabled : Bool) (maxRequests maxKeys : Nat)
    (windowSeconds lastCleanup : Int) (calls : List (Int × Key)) :
    EventRun.Always checked (Confined maxKeys)
      { enabled, maxRequests, windowSeconds, maxKeys, lastCleanup } calls := by
  apply EventRun.always_of_invariant
  · intro limiter call next confined taken
    cases taken
    exact confined.check ..
  · exact ⟨rfl, Nat.zero_le _⟩

section Examples

def tracking (maxKeys : Nat) : RateLimiter String :=
  { maxRequests := 1, windowSeconds := 60, maxKeys, lastCleanup := 1 }

def requests : List (Int × String) := [(1, "a"), (2, "b"), (3, "a")]

theorem bounded_of_spares_example :
    ∃ state, EventRun.run step { limiter := tracking 2, clock := 1 } requests = some state ∧
      Bounded (tracking 2) state.granted ∧ state.limiter.requestTracker.size ≤ 2 := by
  have returns : (EventRun.run step { limiter := tracking 2, clock := 1 } requests).isSome = true := by
    decide
  rcases Option.isSome_iff_exists.mp returns with ⟨state, ran⟩
  have spares : EventRun.Along step (fun state call => state.limiter.Spares call.1 call.2)
      { limiter := tracking 2, clock := (tracking 2).lastCleanup } requests := by decide
  exact ⟨state, ran, bounded_of_spares rfl rfl ran spares⟩

/-- A second key is tracked beside the first one, which the third call then removes. -/
theorem limit_exceeded :
    ∃ state, EventRun.run step { limiter := tracking 1, clock := 1 } requests = some state ∧
      (between state.granted "a" 1 3).length = 2 ∧ ¬ Bounded (tracking 1) state.granted ∧
      state.limiter.requestTracker.size = 2 := by
  have returns : (EventRun.run step { limiter := tracking 1, clock := 1 } requests).map
      (fun state => ((between state.granted "a" 1 3).length,
        state.limiter.requestTracker.size)) = some (2, 2) := by decide
  rcases Option.map_eq_some_iff.mp returns with ⟨state, ran, sizes⟩
  rw [Prod.mk.injEq] at sizes
  refine ⟨state, ran, sizes.1, ?_, sizes.2⟩
  intro bounded
  have atMost := bounded "a" 1 3 (by decide)
  rw [sizes.1] at atMost
  exact absurd atMost (by decide)

end Examples

end Limited

end Core

end LlmHoneypot
