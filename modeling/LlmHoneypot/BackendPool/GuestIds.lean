import LlmHoneypot.BackendPool.PoolService

/-! # Ids of guests

Whether the id that a client has is that of its guest only. -/

namespace LlmHoneypot

namespace BackendPool

open PoolService

structure Identified (service : PoolService) (outstanding : List Grant) : Prop where
  distinct : (service.guests.map Guest.id).Nodup
  granted : ∀ grant ∈ outstanding, ∀ guest ∈ service.guests,
    guest.id = grant.id → guest.serial = grant.serial

def NextIdFree (outstanding : List Grant) (service : PoolService) : Prop :=
  (∀ guest ∈ service.guests, guest.id ≠ service.guestId) ∧
    ∀ grant ∈ outstanding, grant.id ≠ service.guestId

def IdsFree (outstanding : List Grant) : PoolService → List (Option (Str × Str)) → Prop
  | _, [] => True
  | service, none :: results => IdsFree outstanding service results
  | service, some (snapshot, guestIp) :: results =>
      NextIdFree outstanding service ∧
        IdsFree outstanding (service.createGuest snapshot guestIp) results

namespace Identified

open Pool

variable {service after : PoolService} {outstanding fewer : List Grant}

theorem evolve (identified : Identified service outstanding) (evolves : Evolves service after)
    (subset : fewer.Sublist outstanding) : Identified after fewer := by
  constructor
  · exact identified.distinct.sublist evolves.ids
  · intro grant member guest isGuest same
    rcases evolves.mem isGuest with ⟨old, isOld, sameSerial, sameId⟩
    rw [sameSerial]
    exact identified.granted grant (subset.subset member) old isOld (sameId.symm.trans same)

theorem grant (identified : Identified service outstanding) {chosen : Guest}
    (member : chosen ∈ service.guests) :
    Identified service (⟨chosen.serial, chosen.id⟩ :: outstanding) := by
  constructor
  · exact identified.distinct
  · rw [List.forall_mem_cons]
    refine ⟨?_, identified.granted⟩
    intro guest isGuest same
    rw [List.inj_on_of_nodup_map identified.distinct isGuest member same]

theorem createGuest_iff (numbered : Numbered service outstanding) (snapshot guestIp : Str) :
    Identified (service.createGuest snapshot guestIp) outstanding ↔
      Identified service outstanding ∧ NextIdFree outstanding service := by
  have ids : (service.createGuest snapshot guestIp).guests.map Guest.id =
      service.guests.map Guest.id ++ [service.guestId] := by
    rw [createGuest, List.map_append]
    rfl
  constructor
  · intro identified
    have distinct := identified.distinct
    rw [ids, List.nodup_append] at distinct
    refine ⟨⟨distinct.1, ?_⟩, ?_, ?_⟩
    · intro grant member guest isGuest
      exact identified.granted grant member guest (List.mem_append_left _ isGuest)
    · intro guest isGuest
      exact distinct.2.2 guest.id (List.mem_map_of_mem isGuest) _ (List.mem_singleton_self _)
    · intro grant member same
      have sameSerial := identified.granted grant member _
        (List.mem_append_right _ (List.mem_singleton_self _)) same.symm
      exact absurd sameSerial.symm (Nat.ne_of_lt (numbered.granted grant member))
  · rintro ⟨identified, unused, ungranted⟩
    constructor
    · rw [ids]
      apply List.Nodup.append identified.distinct (List.nodup_singleton _)
      intro id old new
      rcases List.mem_map.mp old with ⟨guest, isGuest, rfl⟩
      exact unused guest isGuest (List.mem_singleton.mp new)
    · intro grant member guest isGuest same
      rcases List.mem_append.mp isGuest with old | new
      · exact identified.granted grant member guest old same
      · rw [List.mem_singleton.mp new] at same
        exact absurd same.symm (ungranted grant member)

theorem createEach_iff (numbered : Numbered service outstanding)
    (results : List (Option (Str × Str))) :
    Identified (service.createEach results) outstanding ↔
      Identified service outstanding ∧ IdsFree outstanding service results := by
  induction results generalizing service with
  | nil => exact (and_iff_left trivial).symm
  | cons result results induction =>
      cases result with
      | none => exact induction numbered
      | some guest =>
          rw [createEach, induction (numbered.createGuest guest.1 guest.2),
            createGuest_iff numbered, and_assoc]
          rfl

end Identified

namespace Pool

def Identifies (pool : Pool) (event : PoolEvent) : Prop :=
  ∀ next, pool.step event = some next → Identified next.service next.outstanding

/-- A step that makes guests gives them ids that are not in use. -/
def FreshIds (pool : Pool) : PoolEvent → Prop
  | .createGuests createGuest =>
      IdsFree pool.outstanding pool.service
        ((List.range (pool.service.maxVm - pool.service.existingPoolSize)).map createGuest)
  | _ => True

theorem identifies_iff {pool : Pool} (numbered : Numbered pool.service pool.outstanding)
    (identified : Identified pool.service pool.outstanding) (event : PoolEvent) :
    pool.FreshIds event ↔ pool.Identifies event := by
  constructor
  · intro fresh next taken
    rcases step_cases taken with ⟨srcIp, chosen, rfl, isChosen, rfl⟩ | ⟨createGuest, rfl, rfl⟩ |
      ⟨_, evolves, subset⟩
    · apply (identified.grant (chooseGuest_usable isChosen).1).evolve _ (.refl _)
      exact evolves_changeWhere _ fun _ => ⟨rfl, rfl⟩
    · exact (Identified.createEach_iff numbered _).mpr ⟨identified, fresh⟩
    · exact identified.evolve evolves subset
  · intro identifies
    cases event with
    | createGuests createGuest =>
        exact ((Identified.createEach_iff numbered _).mp (identifies _ rfl)).2
    | _ => trivial

/-- Ids identify guests all along a run exactly when no guest is made with an id that
another guest or a client still has. -/
theorem identifies_along_iff (events : List PoolEvent) :
    EventRun.Along step Identifies {} events ↔ EventRun.Along step FreshIds {} events := by
  symm
  apply EventRun.along_congr_of_good fun pool =>
    Numbered pool.service pool.outstanding ∧ Identified pool.service pool.outstanding
  · rintro pool event next ⟨numbered, identified⟩ fresh taken
    exact ⟨numbered.step taken, (identifies_iff numbered identified event).mp fresh next taken⟩
  · rintro pool event ⟨numbered, identified⟩
    exact identifies_iff numbered identified event
  · refine ⟨Numbered.initial, List.nodup_nil, ?_⟩
    intro grant member
    cases member

section Examples

def oneSurvivor : List PoolEvent := [
  .setConfigs 250 600 true,
  .createGuests fun count => some ("snapshot".toList, [if count = 0 then '2' else '3']),
  .markAvailable fun _ => true,
  .checkHealth (· = ['2']),
  .destroyTimedOut fun _ => true,
  .removeDestroyed,
  .setConfigs 4 600 true,
  .createGuests fun _ => some ("snapshot".toList, ['4'])]

/-- The counter starts again at 0 while guest 0 is there. -/
theorem ids_collide :
    ∃ pool, EventRun.run step {} oneSurvivor = some pool ∧
      pool.service.guests.map Guest.id = [0, 250, 251, 0] ∧
      ¬ Identified pool.service pool.outstanding := by
  have returns : (EventRun.run step {} oneSurvivor).map
      (fun pool => pool.service.guests.map Guest.id) = some [0, 250, 251, 0] := by
    decide +kernel
  rcases Option.map_eq_some_iff.mp returns with ⟨pool, ran, ids⟩
  refine ⟨pool, ran, ids, ?_⟩
  intro identified
  have distinct := identified.distinct
  rw [ids] at distinct
  exact absurd distinct (by decide)

end Examples

end Pool

end BackendPool

end LlmHoneypot
