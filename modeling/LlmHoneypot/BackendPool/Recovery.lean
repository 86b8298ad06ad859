import LlmHoneypot.BackendPool.PoolService

/-! # Recovery of the pool

What iterations of the producer do about a guest that is unavailable. -/

namespace LlmHoneypot

namespace BackendPool

namespace PoolService

def iterate (service : PoolService) (env : Env) : PoolService :=
  if service.stopped then service else service.producerLoop env

def loops (service : PoolService) (envs : List Env) : PoolService := envs.foldl iterate service

theorem loops_cons (service : PoolService) (env : Env) (envs : List Env) :
    service.loops (env :: envs) = (service.iterate env).loops envs := rfl

theorem loops_stopped {service : PoolService} (stopped : service.stopped = true) (envs : List Env) :
    service.loops envs = service := by
  induction envs with
  | nil => rfl
  | cons env envs induction =>
      rw [loops_cons, iterate, if_pos stopped]
      exact induction

theorem iterate_running {service : PoolService} (running : service.stopped = false) (env : Env) :
    service.iterate env = service.producerLoop env := if_neg (Bool.eq_false_iff.mp running)

def Env.Succeeds (env : Env) : Prop :=
  (∀ guest, env.destroyGuest guest = true) ∧ ∀ count, env.createGuest count ≠ none

/-- After two iterations, and ever after, the guests that are unavailable now are gone, and
where there were any the pool has its size again. -/
def Recovers (service : PoolService) : Prop :=
  ∀ envs : List Env, (∀ env ∈ envs, env.Succeeds) → 2 ≤ envs.length →
    ∀ guest ∈ service.guests, guest.state = some .unavailable →
      (∀ other ∈ (service.loops envs).guests, other.serial ≠ guest.serial) ∧
        service.maxVm ≤ (service.loops envs).existingPoolSize

/-- An unavailable guest stays in the pool forever. -/
def Stuck (service : PoolService) : Prop :=
  ∃ guest ∈ service.guests, guest.state = some .unavailable ∧
    ∀ envs, guest ∈ (service.loops envs).guests

/-! ## One iteration -/

def cleared (service : PoolService) (env : Env) : PoolService :=
  ((if 1 < service.existingPoolSize then
      (service.markTimedOut env.now).destroyTimedOut env.destroyGuest
    else service).checkHealth env.healthy).removeDestroyed

theorem producerLoop_eq (service : PoolService) (env : Env) :
    service.producerLoop env =
      ((service.cleared env).createGuests env.createGuest).markAvailable env.booted := rfl

variable {service : PoolService} {env : Env}

theorem maxVm_createEach (service : PoolService) (results : List (Option (Str × Str))) :
    (service.createEach results).maxVm = service.maxVm := by
  induction results generalizing service with
  | nil => rfl
  | cons result results induction =>
      cases result with
      | none => exact induction service
      | some guest => exact induction (service.createGuest guest.1 guest.2)

theorem maxVm_cleared (service : PoolService) (env : Env) :
    (service.cleared env).maxVm = service.maxVm := by
  rw [cleared]
  split
  · rfl
  · rfl

theorem maxVm_producerLoop (service : PoolService) (env : Env) :
    (service.producerLoop env).maxVm = service.maxVm :=
  (maxVm_createEach ..).trans (maxVm_cleared ..)

theorem stopped_createEach (service : PoolService) (results : List (Option (Str × Str))) :
    (service.createEach results).stopped = service.stopped := by
  induction results generalizing service with
  | nil => rfl
  | cons result results induction =>
      cases result with
      | none => exact induction service
      | some guest => exact induction (service.createGuest guest.1 guest.2)

theorem stopped_producerLoop (service : PoolService) (env : Env) :
    (service.producerLoop env).stopped = service.stopped := by
  have cleared : (service.cleared env).stopped = service.stopped := by
    rw [PoolService.cleared]
    split
    · rfl
    · rfl
  exact (stopped_createEach ..).trans cleared

theorem createEach_guests (service : PoolService) (results : List (Option (Str × Str))) :
    ∃ new, (service.createEach results).guests = service.guests ++ new ∧
      (∀ guest ∈ new, service.made ≤ guest.serial ∧ guest.state = some .created) ∧
      new.length = (results.filter Option.isSome).length ∧
      service.made ≤ (service.createEach results).made := by
  induction results generalizing service with
  | nil => exact ⟨[], (List.append_nil _).symm, nofun, rfl, Nat.le_refl _⟩
  | cons result results induction =>
      cases result with
      | none => exact induction service
      | some guest =>
          rcases induction (service.createGuest guest.1 guest.2) with
            ⟨new, guests, created, length, made⟩
          refine ⟨service.newGuest guest.1 guest.2 :: new, ?_, ?_, ?_, ?_⟩
          · rw [createEach, guests, createGuest, List.append_assoc]
            rfl
          · rw [List.forall_mem_cons]
            refine ⟨⟨Nat.le_refl _, rfl⟩, ?_⟩
            intro other member
            exact ⟨Nat.le_of_succ_le (created other member).1, (created other member).2⟩
          · rw [List.length_cons, length]
            rfl
          · exact Nat.le_of_succ_le made

theorem evolves_cleared (service : PoolService) (env : Env) :
    Evolves service (service.cleared env) := by
  rw [cleared]
  apply Evolves.trans _ (evolves_removeDestroyed _)
  apply Evolves.trans _ (evolves_checkHealth ..)
  split
  · exact (evolves_markTimedOut ..).trans (evolves_destroyTimedOut ..)
  · exact .refl service

theorem made_le_producerLoop (service : PoolService) (env : Env) :
    service.made ≤ (service.producerLoop env).made := by
  rcases createEach_guests (service.cleared env) _ with ⟨_, _, _, _, made⟩
  rw [(evolves_cleared service env).1] at made
  exact made

/-! ## One guest -/

def InState (service : PoolService) (serial : Nat) (state : PoolState) : Prop :=
  ∀ guest ∈ service.guests, guest.serial = serial → guest.state = some state

def Absent (service : PoolService) (serial : Nat) : Prop :=
  ∀ guest ∈ service.guests, guest.serial ≠ serial

variable {serial : Nat} {state next : PoolState}

theorem InState.changeWhere (inState : InState service serial state) {changes : Guest → Prop}
    [DecidablePred changes] {change : Guest → Guest}
    (keeps : ∀ guest, (change guest).serial = guest.serial)
    (becomes : ∀ guest, guest.state = some state →
      (if changes guest then change guest else guest).state = some next) :
    InState (service.changeWhere changes change) serial next := by
  intro guest member same
  rcases List.mem_map.mp member with ⟨old, isOld, rfl⟩
  apply becomes
  apply inState old isOld
  rw [← same]
  split
  · exact (keeps old).symm
  · rfl

theorem InState.createGuests (inState : InState service serial state)
    (old : serial < service.made) (createGuest : Nat → Option (Str × Str)) :
    InState (service.createGuests createGuest) serial state := by
  intro guest member same
  rcases createEach_guests service ((List.range (service.maxVm - service.existingPoolSize)).map
    createGuest) with ⟨new, guests, created, _, _⟩
  rw [PoolService.createGuests, guests] at member
  rcases List.mem_append.mp member with before | isNew
  · exact inState guest before same
  · have := (created guest isNew).1
    omega

theorem InState.kept (inState : InState service serial .unavailable) (old : serial < service.made)
    (alone : ¬ 1 < service.existingPoolSize) :
    InState (service.producerLoop env) serial .unavailable := by
  rw [producerLoop_eq, cleared, if_neg alone]
  have healthy : InState ((service.checkHealth env.healthy).removeDestroyed) serial
      .unavailable := by
    intro guest member same
    have checked : InState (service.checkHealth env.healthy) serial .unavailable := by
      refine inState.changeWhere (fun _ => rfl) ?_
      intro guest isState
      rw [if_neg (by simp [Guest.Usable, isState])]
      exact isState
    exact checked guest (List.mem_of_mem_filter member) same
  refine (healthy.createGuests old env.createGuest).changeWhere (fun _ => rfl) ?_
  intro guest isState
  rw [if_neg (by simp [isState])]
  exact isState

theorem InState.destroyed (inState : InState service serial .unavailable)
    (many : 1 < service.existingPoolSize) (succeeds : ∀ guest, env.destroyGuest guest = true) :
    Absent (service.cleared env) serial := by
  rw [cleared, if_pos many]
  have marked : InState (service.markTimedOut env.now) serial .unavailable := by
    refine inState.changeWhere (fun _ => rfl) ?_
    intro guest isState
    rw [if_neg (by simp [isState])]
    exact isState
  have destroyed : InState ((service.markTimedOut env.now).destroyTimedOut env.destroyGuest)
      serial .destroyed := by
    refine marked.changeWhere (fun _ => rfl) ?_
    intro guest isState
    rw [if_pos ⟨isState, succeeds guest⟩]
  have checked : InState (((service.markTimedOut env.now).destroyTimedOut
      env.destroyGuest).checkHealth env.healthy) serial .destroyed := by
    refine destroyed.changeWhere (fun _ => rfl) ?_
    intro guest isState
    rw [if_neg (by simp [Guest.Usable, isState])]
    exact isState
  intro guest member same
  rcases List.mem_filter.mp member with ⟨isGuest, kept⟩
  rw [decide_eq_true_eq] at kept
  exact kept (checked guest isGuest same)

theorem absent_of_cleared (absent : Absent (service.cleared env) serial)
    (old : serial < service.made) : Absent (service.producerLoop env) serial := by
  intro guest member same
  rcases (evolves_markAvailable ((service.cleared env).createGuests env.createGuest)
    env.booted).mem member with ⟨before, isBefore, sameSerial, _⟩
  rcases createEach_guests (service.cleared env) ((List.range ((service.cleared env).maxVm -
    (service.cleared env).existingPoolSize)).map env.createGuest) with ⟨new, guests, created, _, _⟩
  rw [createGuests, guests] at isBefore
  rcases List.mem_append.mp isBefore with isOld | isNew
  · exact absent before isOld (sameSerial.symm.trans same)
  · have := (created before isNew).1
    rw [(evolves_cleared service env).1] at this
    omega

theorem Absent.producerLoop (absent : Absent service serial) (old : serial < service.made)
    (env : Env) : Absent (service.producerLoop env) serial := by
  apply absent_of_cleared _ old
  intro guest member same
  rcases (evolves_cleared service env).mem member with ⟨before, isBefore, sameSerial, _⟩
  exact absent before isBefore (sameSerial.symm.trans same)

theorem Absent.loops (absent : Absent service serial) (old : serial < service.made)
    (running : service.stopped = false) (envs : List Env) :
    Absent (service.loops envs) serial := by
  induction envs generalizing service with
  | nil => exact absent
  | cons env envs induction =>
      rw [loops_cons, iterate_running running]
      exact induction (absent.producerLoop old env)
        (Nat.lt_of_lt_of_le old (made_le_producerLoop service env))
        ((stopped_producerLoop service env).trans running)

/-! ## Sizes -/

theorem size_createEach (service : PoolService) (results : List (Option (Str × Str))) :
    (service.createEach results).existingPoolSize =
      service.existingPoolSize + (results.filter Option.isSome).length := by
  rcases createEach_guests service results with ⟨new, guests, created, length, _⟩
  have all : new.filter (fun guest => guest.state ≠ some .destroyed) = new := by
    apply List.filter_eq_self.mpr
    intro guest member
    simp [(created guest member).2]
  rw [existingPoolSize, guests, List.filter_append, List.length_append, all, length]
  rfl

theorem size_markAvailable (service : PoolService) (hasConnectivity : Str → Bool) :
    (service.markAvailable hasConnectivity).existingPoolSize = service.existingPoolSize := by
  rw [existingPoolSize, markAvailable, changeWhere, List.filter_map, List.length_map,
    existingPoolSize]
  apply congrArg List.length
  apply List.filter_congr
  intro guest _
  simp only [Function.comp_apply, decide_eq_decide]
  split
  · next boots => simp [boots.1]
  · rfl

theorem maxVm_le_size (service : PoolService) (succeeds : ∀ count, env.createGuest count ≠ none) :
    service.maxVm ≤ (service.producerLoop env).existingPoolSize := by
  rw [producerLoop_eq, size_markAvailable, createGuests, size_createEach,
    ← maxVm_cleared service env]
  have all : (((List.range ((service.cleared env).maxVm -
      (service.cleared env).existingPoolSize)).map env.createGuest).filter Option.isSome).length =
        (service.cleared env).maxVm - (service.cleared env).existingPoolSize := by
    rw [List.filter_eq_self.mpr, List.length_map, List.length_range]
    intro result member
    rcases List.mem_map.mp member with ⟨count, _, rfl⟩
    exact Option.isSome_iff_ne_none.mpr (succeeds count)
  omega

theorem maxVm_le_size_loops (running : service.stopped = false) {envs : List Env}
    (some : envs ≠ []) (succeeds : ∀ env ∈ envs, env.Succeeds) :
    service.maxVm ≤ (service.loops envs).existingPoolSize := by
  induction envs generalizing service with
  | nil => exact absurd rfl some
  | cons env envs induction =>
      rw [List.forall_mem_cons] at succeeds
      rw [loops_cons, iterate_running running]
      by_cases last : envs = []
      · rw [last]
        exact maxVm_le_size service succeeds.1.2
      · have later := induction ((stopped_producerLoop service env).trans running) last succeeds.2
        rw [maxVm_producerLoop] at later
        exact later

/-! ## Alone -/

structure Alone (service : PoolService) (guest : Guest) : Prop where
  guests : service.guests.filter (fun guest => guest.state ≠ some .destroyed) = [guest]
  unavailable : guest.state = some .unavailable
  maxVm : service.maxVm < 2

namespace Alone

variable {guest : Guest}

theorem mem (alone : Alone service guest) : guest ∈ service.guests := by
  have member : guest ∈ service.guests.filter fun guest => guest.state ≠ some .destroyed := by
    rw [alone.guests]
    exact List.mem_singleton_self guest
  exact List.mem_of_mem_filter member

theorem size (alone : Alone service guest) : service.existingPoolSize = 1 := by
  rw [existingPoolSize, alone.guests]
  rfl

theorem cleared (alone : Alone service guest) (env : Env) :
    (service.cleared env).guests = [guest] := by
  have few : ¬ 1 < service.existingPoolSize := by rw [alone.size]; exact Nat.lt_irrefl 1
  rw [PoolService.cleared, if_neg few]
  have unchecked : (service.checkHealth env.healthy).guests = service.guests := by
    rw [checkHealth, PoolService.changeWhere]
    have same : ∀ other ∈ service.guests, (if other.Usable ∧ ¬ env.healthy other.guestIp then
        { other with state := some .unavailable } else other) = id other := by
      intro other member
      apply if_neg
      rintro ⟨usable, _⟩
      by_cases destroyed : other.state = some .destroyed
      · simp [Guest.Usable, destroyed] at usable
      · have isOnly : other ∈ service.guests.filter fun guest =>
            guest.state ≠ some .destroyed := List.mem_filter.mpr ⟨member, decide_eq_true destroyed⟩
        rw [alone.guests, List.mem_singleton] at isOnly
        rw [isOnly] at usable
        simp [Guest.Usable, alone.unavailable] at usable
    exact (List.map_congr_left same).trans (List.map_id _)
  rw [removeDestroyed, unchecked]
  exact alone.guests

theorem producerLoop (alone : Alone service guest) (env : Env) :
    Alone (service.producerLoop env) guest := by
  have guests := alone.cleared env
  have size : (service.cleared env).existingPoolSize = 1 := by
    rw [existingPoolSize, guests]
    simp [alone.unavailable]
  have nothing : (service.cleared env).maxVm - (service.cleared env).existingPoolSize = 0 := by
    have := alone.maxVm
    rw [size, maxVm_cleared]
    omega
  have same : (service.producerLoop env).guests = [guest] := by
    rw [producerLoop_eq, createGuests, nothing, List.range_zero, List.map_nil, createEach,
      markAvailable, changeWhere, guests, List.map_singleton, if_neg]
    simp [alone.unavailable]
  constructor
  · rw [same]
    simp [alone.unavailable]
  · exact alone.unavailable
  · rw [maxVm_producerLoop]
    exact alone.maxVm

theorem iterate (alone : Alone service guest) (env : Env) :
    Alone (service.iterate env) guest := by
  rw [PoolService.iterate]
  split
  · exact alone
  · exact alone.producerLoop env

theorem loops (alone : Alone service guest) (envs : List Env) :
    Alone (service.loops envs) guest := by
  induction envs generalizing service with
  | nil => exact alone
  | cons env envs induction =>
      rw [loops_cons]
      exact induction (alone.iterate env)

end Alone

/-! ## Recovery -/

theorem gone_of_two {first second : Env} (inState : InState service serial .unavailable)
    (old : serial < service.made) (can : 2 ≤ service.maxVm ∨ 1 < service.existingPoolSize)
    (firstSucceeds : first.Succeeds) (secondSucceeds : second.Succeeds) :
    Absent ((service.producerLoop first).producerLoop second) serial := by
  have still := Nat.lt_of_lt_of_le old (made_le_producerLoop service first)
  by_cases many : 1 < service.existingPoolSize
  · have absent := absent_of_cleared (inState.destroyed many firstSucceeds.1) old
    exact absent.producerLoop still second
  · have replenished := maxVm_le_size service firstSucceeds.2
    have manyThen := Nat.lt_of_lt_of_le (can.resolve_right many) replenished
    exact absent_of_cleared ((inState.kept old many).destroyed manyThen secondSucceeds.1) still

theorem recovers_of_can (numbered : ∃ outstanding, Pool.Numbered service outstanding)
    (running : service.stopped = false)
    (can : 2 ≤ service.maxVm ∨ 1 < service.existingPoolSize) : service.Recovers := by
  rcases numbered with ⟨outstanding, numbered⟩
  intro envs succeeds two guest member unavailable
  match envs, two with
  | first :: second :: envs, _ =>
      refine ⟨?_, maxVm_le_size_loops running (List.cons_ne_nil _ _) succeeds⟩
      have inState : InState service guest.serial .unavailable := by
        intro other isOther same
        rw [numbered.unique isOther member same]
        exact unavailable
      have old := numbered.made guest member
      rw [List.forall_mem_cons, List.forall_mem_cons] at succeeds
      have absent := gone_of_two inState old can succeeds.1 succeeds.2.1
      have still := Nat.lt_of_lt_of_le (Nat.lt_of_lt_of_le old (made_le_producerLoop _ first))
        (made_le_producerLoop _ second)
      have runs := (stopped_producerLoop service first).trans running
      rw [loops_cons, loops_cons, iterate_running running, iterate_running runs]
      exact absent.loops still ((stopped_producerLoop _ second).trans runs) envs

def Env.fine : Env where
  now := 0
  destroyGuest _ := true
  healthy _ := true
  createGuest _ := some ([], [])
  booted _ := true

theorem not_stuck_of_recovers (recovers : service.Recovers) : ¬ service.Stuck := by
  rintro ⟨guest, member, unavailable, stays⟩
  have succeeds : ∀ env ∈ [Env.fine, Env.fine], env.Succeeds := by
    intro env isEnv
    simp only [List.mem_cons, List.not_mem_nil, or_false, or_self] at isEnv
    rw [isEnv]
    exact ⟨fun _ => rfl, fun _ => Option.some_ne_none _⟩
  have gone := (recovers [.fine, .fine] succeeds (Nat.le_refl 2) guest member unavailable).1
  exact gone guest (stays [.fine, .fine]) rfl

theorem stuck_of_alone {guest : Guest} (member : guest ∈ service.guests)
    (unavailable : guest.state = some .unavailable) (maxVm : service.maxVm < 2)
    (size : service.existingPoolSize ≤ 1) : service.Stuck := by
  have present : guest ∈ service.guests.filter fun guest => guest.state ≠ some .destroyed := by
    rw [List.mem_filter, decide_eq_true_eq, unavailable]
    exact ⟨member, nofun⟩
  have alone : Alone service guest := by
    refine ⟨?_, unavailable, maxVm⟩
    rw [existingPoolSize] at size
    rcases List.length_eq_one_iff.mp (Nat.le_antisymm size
      (List.length_pos_of_mem present)) with ⟨only, isOnly⟩
    rw [isOnly, List.mem_singleton] at present
    rw [isOnly, present]
  exact ⟨guest, member, unavailable, fun envs => (alone.loops envs).mem⟩

theorem stuck_of_stopped {guest : Guest} (member : guest ∈ service.guests)
    (unavailable : guest.state = some .unavailable) (stopped : service.stopped = true) :
    service.Stuck := by
  refine ⟨guest, member, unavailable, ?_⟩
  intro envs
  rw [loops_stopped stopped]
  exact member

section Examples

def onlyGuestFails (maxVm : Nat) : List PoolEvent := [
  .setConfigs maxVm 600 true,
  .createGuests fun count => if count = 0 then some ("snapshot".toList, ['2']) else none,
  .markAvailable fun _ => true,
  .checkHealth fun _ => false]

end Examples

end PoolService

end BackendPool

end LlmHoneypot
