import LlmHoneypot.BackendPool.PoolService

/-! # Clients of guests

Whether the counters and states of guests agree with the requests that are outstanding. -/

namespace LlmHoneypot

namespace BackendPool

open PoolService

def clients (outstanding : List Grant) (serial : Nat) : Nat :=
  outstanding.countP (·.serial = serial)

structure Accounted (pool : Pool) : Prop where
  connected : ∀ guest ∈ pool.service.guests,
    guest.connected = clients pool.outstanding guest.serial
  inUse : ∀ guest ∈ pool.service.guests, guest.Usable →
    (guest.state = some .inUse ↔ 0 < guest.connected)
  gone : ∀ guest ∈ pool.service.guests, guest.serial ∈ pool.condemned → ¬ guest.Usable

/-! ## One guest -/

structure Fine (guest : Guest) (count : Nat) (condemned : Prop) : Prop where
  connected : guest.connected = count
  inUse : guest.Usable → (guest.state = some .inUse ↔ 0 < count)
  gone : condemned → ¬ guest.Usable
  previous : 0 < count → { guest with state := guest.prevState }.Usable
  created : guest.state = some .created → count = 0 ∧ ¬ condemned
  known : guest.state ≠ none
  marked : guest.Condemned → condemned

namespace Fine

variable {guest : Guest} {count : Nat} {condemned : Prop}

theorem congr {other : Prop} (fine : Fine guest count condemned) (same : condemned ↔ other) :
    Fine guest count other := propext same ▸ fine

theorem stay (fine : Fine guest count condemned) :
    Fine guest count (condemned ∨ guest.Condemned) := by
  apply fine.congr
  constructor
  · exact .inl
  · rintro (before | now)
    · exact before
    · exact fine.marked now

theorem condemn (fine : Fine guest count condemned) {state : PoolState}
    (condemns : state = .unavailable ∨ state = .destroyed) :
    Fine { guest with state := some state } count
      (condemned ∨ { guest with state := some state }.Condemned) := by
  have now : { guest with state := some state }.Condemned := by
    rcases condemns with rfl | rfl
    · exact .inl rfl
    · exact .inr rfl
  have unusable : ¬ { guest with state := some state }.Usable := by
    rcases condemns with rfl | rfl
    · simp [Guest.Usable]
    · simp [Guest.Usable]
  have notCreated : state ≠ .created := by
    rcases condemns with rfl | rfl
    · exact PoolState.noConfusion
    · exact PoolState.noConfusion
  refine ⟨fine.connected, fun usable => absurd usable unusable, fun _ => unusable, fine.previous, ?_,
    Option.some_ne_none _, fun _ => .inr now⟩
  intro created
  exact absurd (Option.some.inj created) notCreated

theorem boot (fine : Fine guest count condemned) (created : guest.state = some .created) :
    Fine { guest with state := some .available } count
      (condemned ∨ { guest with state := some .available }.Condemned) := by
  rcases fine.created created with ⟨nobody, uncondemned⟩
  have still : ¬ (condemned ∨ { guest with state := some .available }.Condemned) := by
    rintro (before | now)
    · exact uncondemned before
    · simp [Guest.Condemned] at now
  refine ⟨fine.connected, ?_, fun now => absurd now still, fine.previous, nofun,
    Option.some_ne_none _, fun now => .inr now⟩
  intro _
  simp [nobody]

theorem serve (fine : Fine guest count condemned) (usable : guest.Usable) (srcIp : Str) :
    Fine (serve srcIp guest) (count + 1) (condemned ∨ (PoolService.serve srcIp guest).Condemned) := by
  have still : ¬ (condemned ∨ (PoolService.serve srcIp guest).Condemned) := by
    rintro (before | now)
    · exact fine.gone before usable
    · simp [Guest.Condemned, PoolService.serve] at now
  refine ⟨?_, ?_, fun now => absurd now still, fun _ => usable, nofun, Option.some_ne_none _,
    fun now => .inr now⟩
  · rw [PoolService.serve, fine.connected]
    rfl
  · intro _
    simp [PoolService.serve]

theorem leave {next : Guest} (fine : Fine guest (count + 1) condemned) (others : count ≠ 0)
    (connected : next.connected = guest.connected - 1) (state : next.state = guest.state)
    (previous : next.prevState = guest.prevState) :
    Fine next count (condemned ∨ next.Condemned) := by
  have usable : next.Usable ↔ guest.Usable := by rw [Guest.Usable, state]; rfl
  have isCondemned : next.Condemned ↔ guest.Condemned := by rw [Guest.Condemned, state]; rfl
  have count : guest.connected = count + 1 := fine.connected
  refine ⟨?_, ?_, ?_, ?_, ?_, ?_, fun now => .inr now⟩
  · omega
  · intro isUsable
    rw [state, fine.inUse (usable.mp isUsable)]
    omega
  · rw [usable, isCondemned]
    rintro (before | now)
    · exact fine.gone before
    · exact fine.gone (fine.marked now)
  · intro _
    have before := fine.previous (Nat.succ_pos _)
    rw [Guest.Usable] at before ⊢
    rw [previous]
    exact before
  · intro created
    rw [state] at created
    exact absurd (fine.created created).1 (Nat.succ_ne_zero _)
  · rw [state]
    exact fine.known

theorem leaveLast {next : Guest} (fine : Fine guest 1 condemned) (usable : guest.Usable)
    (connected : next.connected = guest.connected - 1)
    (state : next.state = some .available ∨ next.state = some .used) :
    Fine next 0 (condemned ∨ next.Condemned) := by
  have still : ¬ (condemned ∨ next.Condemned) := by
    rintro (before | now)
    · exact fine.gone before usable
    · rcases state with isState | isState
      · simp [Guest.Condemned, isState] at now
      · simp [Guest.Condemned, isState] at now
  have count : guest.connected = 1 := fine.connected
  refine ⟨?_, ?_, fun now => absurd now still, nofun, ?_, ?_, fun now => .inr now⟩
  · omega
  · intro _
    rcases state with isState | isState
    · simp [isState]
    · simp [isState]
  · intro _
    exact ⟨rfl, still⟩
  · rcases state with isState | isState
    · simp [isState]
    · simp [isState]

end Fine

/-! ## All guests -/

theorem clients_cons (outstanding : List Grant) (grant : Grant) (serial : Nat) :
    clients (grant :: outstanding) serial =
      clients outstanding serial + if grant.serial = serial then 1 else 0 := by
  simp [clients, List.countP_cons]

theorem clients_erase {outstanding : List Grant} {grant : Grant} (member : grant ∈ outstanding)
    (serial : Nat) :
    clients outstanding serial =
      clients (outstanding.erase grant) serial + if grant.serial = serial then 1 else 0 := by
  have same := (List.perm_cons_erase member).countP_eq fun other => decide (other.serial = serial)
  rw [clients, same, ← clients, clients_cons]

theorem clients_eq_zero {outstanding : List Grant} {serial : Nat}
    (other : ∀ grant ∈ outstanding, grant.serial ≠ serial) : clients outstanding serial = 0 := by
  rw [clients, List.countP_eq_zero]
  simpa using other

structure Consistent (service : PoolService) (outstanding : List Grant) (condemned : List Nat) :
    Prop where
  numbered : Pool.Numbered service outstanding
  bounded : ∀ serial ∈ condemned, serial < service.made
  fine : ∀ guest ∈ service.guests,
    Fine guest (clients outstanding guest.serial) (guest.serial ∈ condemned)

namespace Consistent

variable {service after : PoolService} {outstanding next : List Grant} {condemned : List Nat}

theorem initial : Consistent {} [] [] := by
  refine ⟨Pool.Numbered.initial, ?_, ?_⟩
  · intro serial member
    cases member
  · intro guest member
    cases member

theorem accounted (pool : Pool)
    (consistent : Consistent pool.service pool.outstanding pool.condemned) : Accounted pool := by
  constructor
  · intro guest member
    exact (consistent.fine guest member).connected
  · intro guest member usable
    rw [(consistent.fine guest member).connected, (consistent.fine guest member).inUse usable]
    omega
  · intro guest member
    exact (consistent.fine guest member).gone

theorem mem_condemnedNow (numbered : Pool.Numbered service outstanding) {guest : Guest}
    (member : guest ∈ service.guests) :
    guest.serial ∈ Pool.condemnedNow service ++ condemned ↔
      guest.serial ∈ condemned ∨ guest.Condemned := by
  rw [List.mem_append, or_comm]
  apply or_congr_right
  rw [Pool.condemnedNow, List.mem_map]
  constructor
  · rintro ⟨other, isOther, same⟩
    rw [List.mem_filter, decide_eq_true_eq] at isOther
    rw [← numbered.unique isOther.1 member same]
    exact isOther.2
  · intro now
    exact ⟨guest, List.mem_filter.mpr ⟨member, decide_eq_true now⟩, rfl⟩

theorem of_guests (consistent : Consistent service outstanding condemned)
    (numbered : Pool.Numbered after next) (made : after.made = service.made)
    (fine : ∀ guest ∈ after.guests, Fine guest (clients next guest.serial)
      (guest.serial ∈ condemned ∨ guest.Condemned)) :
    Consistent after next (Pool.condemnedNow after ++ condemned) := by
  refine ⟨numbered, ?_, ?_⟩
  · intro serial member
    rcases List.mem_append.mp member with now | before
    · rcases List.mem_map.mp now with ⟨guest, isGuest, rfl⟩
      exact numbered.made guest (List.mem_of_mem_filter isGuest)
    · rw [made]
      exact consistent.bounded serial before
  · intro guest member
    exact (fine guest member).congr (mem_condemnedNow numbered member).symm

theorem changeWhere (consistent : Consistent service outstanding condemned)
    {changes : Guest → Prop} [DecidablePred changes] {change : Guest → Guest}
    (keeps : ∀ guest, (change guest).serial = guest.serial ∧ (change guest).id = guest.id)
    (fine : ∀ guest count, changes guest → ∀ condemned, Fine guest count condemned →
      Fine (change guest) count (condemned ∨ (change guest).Condemned)) :
    Consistent (service.changeWhere changes change) outstanding
      (Pool.condemnedNow (service.changeWhere changes change) ++ condemned) := by
  have numbered : Pool.Numbered (service.changeWhere changes change) outstanding :=
    consistent.numbered.evolve (evolves_changeWhere service keeps) (.refl _)
  refine consistent.of_guests numbered rfl ?_
  intro guest member
  rcases List.mem_map.mp member with ⟨old, isOld, rfl⟩
  have before := consistent.fine old isOld
  split
  · next isChanged =>
      rw [(keeps old).1]
      exact fine old _ isChanged _ before
  · exact before.stay

theorem grant (consistent : Consistent service outstanding condemned) {srcIp : Str}
    {chosen : Guest} (isChosen : service.chooseGuest srcIp = some chosen) :
    Consistent (service.changeWhere (·.serial = chosen.serial) (serve srcIp))
      (⟨chosen.serial, chosen.id⟩ :: outstanding)
      (Pool.condemnedNow (service.changeWhere (·.serial = chosen.serial) (serve srcIp)) ++
        condemned) := by
  rcases chooseGuest_usable isChosen with ⟨isGuest, usable⟩
  have numbered : Pool.Numbered (service.changeWhere (·.serial = chosen.serial) (serve srcIp))
      (⟨chosen.serial, chosen.id⟩ :: outstanding) :=
    (consistent.numbered.grant isGuest).evolve (evolves_changeWhere _ fun _ => ⟨rfl, rfl⟩)
      (.refl _)
  refine consistent.of_guests numbered rfl ?_
  intro guest member
  rcases List.mem_map.mp member with ⟨old, isOld, rfl⟩
  have before := consistent.fine old isOld
  split
  · next same =>
      have isOne : (⟨chosen.serial, chosen.id⟩ : Grant).serial = (serve srcIp old).serial :=
        same.symm
      rw [clients_cons, if_pos isOne]
      apply before.serve
      rw [consistent.numbered.unique isOld isGuest same]
      exact usable
  · next other =>
      rw [clients_cons, if_neg (Ne.symm other)]
      exact before.stay

theorem createGuest (consistent : Consistent service outstanding condemned)
    (snapshot guestIp : Str) :
    Consistent (service.createGuest snapshot guestIp) outstanding condemned := by
  refine ⟨consistent.numbered.createGuest snapshot guestIp, ?_, ?_⟩
  · intro serial member
    exact Nat.lt_succ_of_lt (consistent.bounded serial member)
  · intro guest member
    rcases List.mem_append.mp member with old | new
    · exact consistent.fine guest old
    · have nobody : clients outstanding service.made = 0 := by
        apply clients_eq_zero
        intro grant isGrant
        exact Nat.ne_of_lt (consistent.numbered.granted grant isGrant)
      have uncondemned : service.made ∉ condemned := fun member =>
        Nat.lt_irrefl _ (consistent.bounded _ member)
      rw [List.mem_singleton.mp new, newGuest]
      dsimp only
      rw [nobody]
      refine ⟨rfl, ?_, fun now => absurd now uncondemned, nofun, fun _ => ⟨rfl, uncondemned⟩,
        Option.some_ne_none _, ?_⟩
      · intro usable
        simp [Guest.Usable] at usable
      · intro now
        simp [Guest.Condemned] at now

theorem createEach (consistent : Consistent service outstanding condemned)
    (results : List (Option (Str × Str))) :
    Consistent (service.createEach results) outstanding condemned := by
  induction results generalizing service with
  | nil => exact consistent
  | cons result results induction =>
      cases result with
      | none => exact induction consistent
      | some guest => exact induction (consistent.createGuest guest.1 guest.2)

theorem stay (consistent : Consistent service outstanding condemned) :
    Consistent service outstanding (Pool.condemnedNow service ++ condemned) :=
  consistent.of_guests consistent.numbered rfl fun guest member =>
    (consistent.fine guest member).stay

theorem stopped (consistent : Consistent service outstanding condemned) :
    let after := if service.anyVmUp then service.stop else service
    Consistent after outstanding (Pool.condemnedNow after ++ condemned) := by
  intro after
  have numbered : Pool.Numbered after outstanding :=
    consistent.numbered.evolve (evolves_of_map id (made_stop _) (fun _ => ⟨rfl, rfl⟩)
      ((guests_stop _).trans (List.map_id _).symm)) (.refl _)
  refine consistent.of_guests numbered (made_stop service) fun guest member => ?_
  rw [guests_stop] at member
  exact (consistent.fine guest member).stay

theorem changeById (consistent : Consistent service outstanding condemned) {grant : Grant}
    (isGrant : grant ∈ outstanding) (change : Guest → Guest)
    (keeps : ∀ guest, (change guest).serial = guest.serial ∧ (change guest).id = guest.id)
    (fine : ∀ found, service.guests.find? (·.id = grant.id) = some found →
      found.serial = grant.serial ∧ ∀ count condemned, Fine found (count + 1) condemned →
        Fine (change found) count (condemned ∨ (change found).Condemned)) :
    Consistent (service.changeById grant.id change) (outstanding.erase grant)
      (Pool.condemnedNow (service.changeById grant.id change) ++ condemned) := by
  have numbered : Pool.Numbered (service.changeById grant.id change) (outstanding.erase grant) :=
    consistent.numbered.evolve (evolves_changeById service grant.id keeps) List.erase_sublist
  refine consistent.of_guests numbered (evolves_changeById service grant.id keeps).1 ?_
  intro guest member
  rw [PoolService.changeById] at member
  split at member
  · next notFound =>
      have other : grant.serial ≠ guest.serial := by
        intro same
        have sameId := consistent.numbered.named grant isGrant guest member same.symm
        have differs := List.find?_eq_none.mp notFound guest member
        rw [decide_eq_true_eq] at differs
        exact differs sameId
      have before := consistent.fine guest member
      rw [clients_erase isGrant, if_neg other] at before
      exact before.stay
  · next found isFound =>
      rcases fine found isFound with ⟨isGuest, fineFound⟩
      rcases List.mem_map.mp member with ⟨old, isOld, rfl⟩
      have before := consistent.fine old isOld
      rw [clients_erase isGrant] at before
      split
      · next same =>
          have isFoundGuest : old = found :=
            consistent.numbered.unique isOld (List.mem_of_find?_eq_some isFound) same
          rw [isFoundGuest] at before ⊢
          rw [if_pos isGuest.symm] at before
          rw [(keeps found).1]
          exact fineFound _ _ before
      · next other =>
          rw [if_neg fun same => other (same.symm.trans isGuest.symm)] at before
          exact before.stay

end Consistent

/-! ## Steps -/

namespace Pool

/-- After the step counters and states are right. -/
def Accounts (pool : Pool) (event : PoolEvent) : Prop :=
  ∀ next, pool.step event = some next → Accounted next

/-- A client gives back its own guest; the last one gives back a guest that is still
usable, and to no state with clients. -/
def Careful (pool : Pool) : PoolEvent → Prop
  | .freeVm grant _ => grant ∈ pool.outstanding →
      ∀ found, pool.service.guests.find? (·.id = grant.id) = some found →
        found.serial = grant.serial ∧ (found.connected = 1 → found.Usable)
  | .reuseVm grant => grant ∈ pool.outstanding →
      ∀ found, pool.service.guests.find? (·.id = grant.id) = some found →
        found.serial = grant.serial ∧
          (found.connected = 1 → found.Usable ∧ found.prevState ≠ some .inUse)
  | _ => True

end Pool

section Steps

variable {pool : Pool}

theorem fine_release {found : Guest} (usable : found.connected = 1 → found.Usable) (now : Int)
    (count : Nat) (condemned : Prop) (fine : Fine found (count + 1) condemned) :
    Fine (release now found) count (condemned ∨ (release now found).Condemned) := by
  have isCount : found.connected = count + 1 := fine.connected
  cases count with
  | zero =>
      have last : found.connected - 1 = 0 := by omega
      refine fine.leaveLast (usable (by omega)) rfl (.inr ?_)
      rw [release, if_pos last]
  | succ more =>
      have others : found.connected - 1 ≠ 0 := by omega
      refine fine.leave (Nat.succ_ne_zero _) rfl ?_ rfl
      rw [release, if_neg others]

theorem fine_giveBack {found : Guest}
    (usable : found.connected = 1 → found.Usable ∧ found.prevState ≠ some .inUse)
    (count : Nat) (condemned : Prop) (fine : Fine found (count + 1) condemned) :
    Fine (giveBack found) count (condemned ∨ (giveBack found).Condemned) := by
  have isCount : found.connected = count + 1 := fine.connected
  cases count with
  | zero =>
      have last : found.connected - 1 = 0 := by omega
      rcases usable (by omega) with ⟨isUsable, notInUse⟩
      refine fine.leaveLast isUsable rfl ?_
      rw [giveBack, if_pos last]
      rcases fine.previous Nat.one_pos with isAvailable | isInUse | isUsed
      · exact .inl isAvailable
      · exact absurd isInUse notInUse
      · exact .inr isUsed
  | succ more =>
      have others : found.connected - 1 ≠ 0 := by omega
      refine fine.leave (Nat.succ_ne_zero _) rfl ?_ ?_
      · exact if_neg others
      · exact if_neg others

theorem Consistent.step {next : Pool} {event : PoolEvent}
    (consistent : Consistent pool.service pool.outstanding pool.condemned)
    (careful : pool.Careful event) (taken : pool.step event = some next) :
    Consistent next.service next.outstanding next.condemned := by
  cases event with
  | requestVm srcIp =>
      rw [Pool.step, requestVm] at taken
      cases chosen : pool.service.chooseGuest srcIp with
      | none =>
          rw [chosen] at taken
          cases taken
          exact consistent.stopped
      | some guest =>
          rw [chosen] at taken
          cases taken
          exact consistent.grant chosen
  | freeVm grant now =>
      rw [Pool.step] at taken
      split at taken
      · next isGrant =>
          cases taken
          apply consistent.changeById isGrant (release now) fun _ => ⟨rfl, rfl⟩
          intro found isFound
          have own := careful isGrant found isFound
          exact ⟨own.1, fine_release own.2 now⟩
      · cases taken
  | reuseVm grant =>
      rw [Pool.step] at taken
      split at taken
      · next isGrant =>
          cases taken
          apply consistent.changeById isGrant giveBack fun _ => ⟨rfl, rfl⟩
          intro found isFound
          have own := careful isGrant found isFound
          exact ⟨own.1, fine_giveBack own.2⟩
      · cases taken
  | setConfigs maxVm vmUnusedTimeout shareGuests =>
      cases taken
      have stay := consistent.stay
      exact ⟨⟨stay.numbered.distinct, stay.numbered.made, stay.numbered.granted,
        stay.numbered.named⟩, stay.bounded, stay.fine⟩
  | markTimedOut now =>
      cases taken
      exact consistent.changeWhere (fun _ => ⟨rfl, rfl⟩) fun guest count _ condemned fine =>
        fine.condemn (.inl rfl)
  | checkHealth hasConnectivity =>
      cases taken
      exact consistent.changeWhere (fun _ => ⟨rfl, rfl⟩) fun guest count _ condemned fine =>
        fine.condemn (.inl rfl)
  | destroyTimedOut destroyGuest =>
      cases taken
      exact consistent.changeWhere (fun _ => ⟨rfl, rfl⟩) fun guest count _ condemned fine =>
        fine.condemn (.inr rfl)
  | removeDestroyed =>
      cases taken
      have numbered : Pool.Numbered pool.service.removeDestroyed pool.outstanding :=
        consistent.numbered.evolve (evolves_removeDestroyed _) (.refl _)
      exact consistent.of_guests numbered rfl fun guest member =>
        (consistent.fine guest (List.mem_of_mem_filter member)).stay
  | createGuests createGuest =>
      cases taken
      exact (consistent.createEach _).stay
  | markAvailable hasConnectivity =>
      cases taken
      let booted := pool.service.changeWhere
        (fun guest => guest.state = some .created ∧ hasConnectivity guest.guestIp)
        fun guest => { guest with state := some .available }
      have marked : Consistent booted pool.outstanding
          (Pool.condemnedNow booted ++ pool.condemned) :=
        consistent.changeWhere (fun _ => ⟨rfl, rfl⟩)
          fun guest count created condemned fine => fine.boot created.1
      exact ⟨⟨marked.numbered.distinct, marked.numbered.made, marked.numbered.granted,
        marked.numbered.named⟩, marked.bounded, marked.fine⟩
  | start =>
      cases taken
      have numbered : Pool.Numbered pool.service.start pool.outstanding :=
        consistent.numbered.evolve (evolves_start _) (.refl _)
      refine consistent.of_guests numbered rfl fun guest member => ?_
      cases member

theorem mem_changeById {service : PoolService} {guestId : Nat} {found : Guest}
    (isFound : service.guests.find? (·.id = guestId) = some found) (change : Guest → Guest) :
    change found ∈ (service.changeById guestId change).guests := by
  rw [changeById, isFound]
  apply List.mem_map.mpr
  exact ⟨found, List.mem_of_find?_eq_some isFound, if_pos rfl⟩

theorem own_of_accounted (consistent : Consistent pool.service pool.outstanding pool.condemned)
    {grant : Grant} (isGrant : grant ∈ pool.outstanding) {found : Guest}
    (isFound : pool.service.guests.find? (·.id = grant.id) = some found) {change : Guest → Guest}
    (serial : (change found).serial = found.serial)
    (connected : (change found).connected = found.connected - 1)
    (accounted : Accounted (pool.moved (pool.service.changeById grant.id change)
      (pool.outstanding.erase grant))) : found.serial = grant.serial := by
  have after := accounted.connected _ (mem_changeById isFound change)
  have before := (consistent.fine found (List.mem_of_find?_eq_some isFound)).connected
  by_contra other
  rw [clients_erase isGrant, if_neg (Ne.symm other)] at before
  rw [connected, serial] at after
  dsimp only [Pool.moved] at after
  omega

theorem condemned_of_not_usable {guest : Guest} {condemned : Prop}
    (fine : Fine guest 1 condemned) (unusable : ¬ guest.Usable) : condemned := by
  apply fine.marked
  cases state : guest.state with
  | none => exact absurd state fine.known
  | some isState =>
      rw [Guest.Condemned, state]
      rw [Guest.Usable, state] at unusable
      cases isState with
      | created => exact absurd (fine.created state).1 Nat.one_ne_zero
      | available => exact absurd (.inl rfl) unusable
      | inUse => exact absurd (.inr (.inl rfl)) unusable
      | used => exact absurd (.inr (.inr rfl)) unusable
      | unavailable => exact .inl rfl
      | destroyed => exact .inr rfl

theorem usable_of_accounted (consistent : Consistent pool.service pool.outstanding pool.condemned)
    {grant : Grant} {found : Guest}
    (isFound : pool.service.guests.find? (·.id = grant.id) = some found) {change : Guest → Guest}
    (serial : (change found).serial = found.serial) (usable : (change found).Usable)
    (last : found.connected = 1)
    (accounted : Accounted (pool.moved (pool.service.changeById grant.id change)
      (pool.outstanding.erase grant))) : found.Usable := by
  have fine := consistent.fine found (List.mem_of_find?_eq_some isFound)
  have one : clients pool.outstanding found.serial = 1 := by
    have := fine.connected
    omega
  rw [one] at fine
  by_contra unusable
  have condemned := condemned_of_not_usable fine unusable
  have still : (change found).serial ∈ Pool.condemnedNow
      (pool.service.changeById grant.id change) ++ pool.condemned := by
    rw [serial]
    exact List.mem_append_right _ condemned
  exact accounted.gone _ (mem_changeById isFound change) still usable

theorem accounts_iff (consistent : Consistent pool.service pool.outstanding pool.condemned)
    (event : PoolEvent) : pool.Careful event ↔ pool.Accounts event := by
  constructor
  · intro careful next taken
    exact (consistent.step careful taken).accounted next
  · intro accounts
    cases event with
    | freeVm grant now =>
        intro isGrant found isFound
        have accounted := accounts _ (if_pos isGrant)
        refine ⟨own_of_accounted consistent isGrant isFound rfl rfl accounted, ?_⟩
        intro last
        apply usable_of_accounted consistent isFound rfl _ last accounted
        have now : found.connected - 1 = 0 := by omega
        rw [Guest.Usable, release, if_pos now]
        exact .inr (.inr rfl)
    | reuseVm grant =>
        intro isGrant found isFound
        have accounted := accounts _ (if_pos isGrant)
        have own := own_of_accounted consistent isGrant isFound rfl rfl accounted
        refine ⟨own, ?_⟩
        intro last
        have now : found.connected - 1 = 0 := by omega
        have state : (giveBack found).state = found.prevState := if_pos now
        have fine := consistent.fine found (List.mem_of_find?_eq_some isFound)
        have previous := fine.previous (by have := fine.connected; omega)
        have usable : (giveBack found).Usable := by
          rw [Guest.Usable, state]
          exact previous
        refine ⟨usable_of_accounted consistent isFound rfl usable last accounted, ?_⟩
        intro inUse
        have counted := (accounted.inUse _ (mem_changeById isFound giveBack) usable).mp
          (state.trans inUse)
        rw [giveBack, now] at counted
        exact absurd counted (Int.lt_irrefl 0)
    | _ => trivial

end Steps

/-- Counters and states are right all along a run exactly when each client gives back its
own guest, and the last client of a guest one that is usable, to a state without clients. -/
theorem Pool.accounts_along_iff (events : List PoolEvent) :
    EventRun.Along Pool.step Pool.Accounts {} events ↔
      EventRun.Along Pool.step Pool.Careful {} events := by
  symm
  apply EventRun.along_congr_of_good fun pool : Pool =>
    Consistent pool.service pool.outstanding pool.condemned
  · intro pool event next consistent careful taken
    exact consistent.step careful taken
  · intro pool event consistent
    exact accounts_iff consistent event
  · exact Consistent.initial

section Examples

def failsInUse : List PoolEvent := [
  .createGuests fun _ => some ("snapshot".toList, "192.168.150.2".toList),
  .markAvailable fun _ => true,
  .requestVm "198.51.100.7".toList,
  .checkHealth fun _ => false,
  .freeVm ⟨0, 0⟩ 10]

/-- The guest that was marked for destruction is used again. -/
theorem unavailable_guest_used_again :
    ∃ pool, EventRun.run Pool.step {} failsInUse = some pool ∧
      pool.service.guests.map (fun guest => (guest.serial, guest.state)) =
        [(0, some .used), (1, some .unavailable)] ∧
      0 ∈ pool.condemned ∧ ¬ Accounted pool := by
  have returns : (EventRun.run Pool.step {} failsInUse).map (fun pool =>
      (pool.service.guests.map (fun guest => (guest.serial, guest.state)),
        pool.service.guests.find? fun guest => guest.serial ∈ pool.condemned ∧ guest.Usable)) =
    some ([(0, some .used), (1, some .unavailable)], some {
      serial := 0, id := 0, state := some .used, prevState := some .available
      guestIp := "192.168.150.2".toList, snapshot := "snapshot".toList, connected := 0
      clientIps := ["198.51.100.7".toList], freedTimestamp := 10 }) := by decide
  rcases Option.map_eq_some_iff.mp returns with ⟨pool, ran, outcome⟩
  rw [Prod.mk.injEq] at outcome
  have both := List.find?_some outcome.2
  rw [decide_eq_true_eq] at both
  refine ⟨pool, ran, outcome.1, both.1, ?_⟩
  intro accounted
  exact accounted.gone _ (List.mem_of_find?_eq_some outcome.2) both.1 both.2

end Examples

end BackendPool

end LlmHoneypot
