import LlmHoneypot.Foundation.EventRun
import LlmHoneypot.Foundation.Text
import Mathlib.Data.List.Nodup

/-! # The pool of guests

`PoolService`: the producer, which makes and destroys guests, and the consumers, which
request and free them. The answers of QEMU, of nmap and of the clock are arguments. -/

namespace LlmHoneypot

namespace BackendPool

inductive PoolState where
  | created
  | available
  /-- `using`. -/
  | inUse
  | used
  | unavailable
  | destroyed
  deriving DecidableEq

structure Guest where
  /-- Which object it is: how many guests were made before it. -/
  serial : Nat
  id : Nat
  state : Option PoolState
  prevState : Option PoolState
  guestIp : Str
  snapshot : Str
  connected : Int
  clientIps : List Str
  freedTimestamp : Int
  deriving DecidableEq

namespace Guest

def Usable (guest : Guest) : Prop :=
  guest.state = some .available ∨ guest.state = some .inUse ∨ guest.state = some .used

instance (guest : Guest) : Decidable guest.Usable := inferInstanceAs (Decidable (_ ∨ _))

def Condemned (guest : Guest) : Prop :=
  guest.state = some .unavailable ∨ guest.state = some .destroyed

instance (guest : Guest) : Decidable guest.Condemned := inferInstanceAs (Decidable (_ ∨ _))

end Guest

structure PoolService where
  guests : List Guest := []
  guestId : Nat := 0
  maxVm : Nat := 2
  vmUnusedTimeout : Nat := 600
  shareGuests : Bool := true
  anyVmUp : Bool := false
  /-- The next iteration of the producer was cancelled. -/
  stopped : Bool := false
  /-- How many guests were made, over all restarts. -/
  made : Nat := 0

namespace PoolService

variable (service : PoolService)

def getGuestStates (states : List PoolState) : List Guest :=
  service.guests.filter fun guest => guest.state.any (· ∈ states)

def existingPoolSize : Nat :=
  (service.guests.filter fun guest => guest.state ≠ some .destroyed).length

def changeWhere (changes : Guest → Prop) [DecidablePred changes] (change : Guest → Guest) :
    PoolService :=
  { service with
    guests := service.guests.map fun guest => if changes guest then change guest else guest }

def start : PoolService :=
  { service with guests := [], guestId := 0, anyVmUp := false, stopped := false }

/-- `stop_pool`: QEMU's guests are destroyed, and the records of the guests stay. Cancelling
an iteration a second time raises. -/
def stop : PoolService := { service with stopped := true }

def setConfigs (maxVm vmUnusedTimeout : Nat) (shareGuests : Bool) : PoolService :=
  { service with maxVm, vmUnusedTimeout, shareGuests }

/-! ## Producer -/

def markTimedOut (now : Int) : PoolService :=
  service.changeWhere
    (fun guest => guest.state = some .used ∧ guest.freedTimestamp + service.vmUnusedTimeout < now)
    fun guest => { guest with state := some .unavailable }

def checkHealth (hasConnectivity : Str → Bool) : PoolService :=
  service.changeWhere (fun guest => guest.Usable ∧ ¬ hasConnectivity guest.guestIp)
    fun guest => { guest with state := some .unavailable }

def destroyTimedOut (destroyGuest : Guest → Bool) : PoolService :=
  service.changeWhere (fun guest => guest.state = some .unavailable ∧ destroyGuest guest)
    fun guest => { guest with state := some .destroyed }

def removeDestroyed : PoolService :=
  { service with guests := service.guests.filter fun guest => guest.state ≠ some .destroyed }

def newGuest (snapshot guestIp : Str) : Guest where
  serial := service.made
  id := service.guestId
  state := some .created
  prevState := none
  guestIp
  snapshot
  connected := 0
  clientIps := []
  freedTimestamp := -1

def createGuest (snapshot guestIp : Str) : PoolService :=
  { service with
    guests := service.guests ++ [service.newGuest snapshot guestIp]
    guestId := if service.guestId + 1 = 252 then 0 else service.guestId + 1
    made := service.made + 1 }

def createEach : PoolService → List (Option (Str × Str)) → PoolService
  | service, [] => service
  | service, none :: results => createEach service results
  | service, some (snapshot, guestIp) :: results =>
      createEach (service.createGuest snapshot guestIp) results

def createGuests (createGuest : Nat → Option (Str × Str)) : PoolService :=
  service.createEach
    ((List.range (service.maxVm - service.existingPoolSize)).map createGuest)

def markAvailable (hasConnectivity : Str → Bool) : PoolService :=
  { service.changeWhere
      (fun guest => guest.state = some .created ∧ hasConnectivity guest.guestIp)
      fun guest => { guest with state := some .available } with
    anyVmUp := service.anyVmUp ||
      service.guests.any fun guest =>
        guest.state = some .created ∧ hasConnectivity guest.guestIp }

def hasConnectivity (nmapPort : Str → Int → Bool) (sshPort telnetPort : Int) (ip : Str) : Bool :=
  let hasSsh := if 0 < sshPort then nmapPort ip sshPort else false
  let hasTelnet := if 0 < telnetPort ∧ ¬ hasSsh then nmapPort ip telnetPort else true
  hasSsh || hasTelnet

theorem checkHealth_of_no_telnet (nmapPort : Str → Int → Bool) (sshPort : Int) {telnetPort : Int}
    (none : telnetPort ≤ 0) :
    service.checkHealth (hasConnectivity nmapPort sshPort telnetPort) = service := by
  have healthy : ∀ ip, hasConnectivity nmapPort sshPort telnetPort ip = true := by
    intro ip
    simp [hasConnectivity, Int.not_lt.mpr none]
  have same : service.guests.map (fun guest =>
      if guest.Usable ∧ ¬ hasConnectivity nmapPort sshPort telnetPort guest.guestIp then
        { guest with state := some .unavailable } else guest) = service.guests := by
    simp [healthy]
  rw [checkHealth, changeWhere, same]

/-- What an iteration of the producer is told. -/
structure Env where
  now : Int
  destroyGuest : Guest → Bool
  healthy : Str → Bool
  createGuest : Nat → Option (Str × Str)
  booted : Str → Bool

def producerLoop (env : Env) : PoolService :=
  let service :=
    if 1 < service.existingPoolSize then
      (service.markTimedOut env.now).destroyTimedOut env.destroyGuest
    else service
  (((service.checkHealth env.healthy).removeDestroyed).createGuests env.createGuest).markAvailable
    env.booted

/-! ## Consumers -/

def leastConnected : List Guest → Option Guest
  | [] => none
  | guest :: guests =>
      match leastConnected guests with
      | none => some guest
      | some best => if guest.connected ≤ best.connected then some guest else some best

def chooseGuest (srcIp : Str) : Option Guest :=
  ((service.getGuestStates [.used, .inUse]).find? (srcIp ∈ ·.clientIps)).or
    ((service.getGuestStates [.available]).head?.or
      (if service.shareGuests then leastConnected (service.getGuestStates [.inUse, .used])
      else none))

def serve (srcIp : Str) (guest : Guest) : Guest :=
  { guest with
    prevState := guest.state
    state := some .inUse
    connected := guest.connected + 1
    clientIps := guest.clientIps ++ [srcIp] }

/-- `request_vm`; without a guest it raises. -/
def requestVm (srcIp : Str) : PoolService × Option Guest :=
  match service.chooseGuest srcIp with
  | some chosen => (service.changeWhere (·.serial = chosen.serial) (serve srcIp), some chosen)
  | none => (if service.anyVmUp then service.stop else service, none)

def release (now : Int) (guest : Guest) : Guest :=
  { guest with
    freedTimestamp := now
    connected := guest.connected - 1
    state := if guest.connected - 1 = 0 then some .used else guest.state }

def giveBack (guest : Guest) : Guest :=
  { guest with
    connected := guest.connected - 1
    state := if guest.connected - 1 = 0 then guest.prevState else guest.state
    prevState := if guest.connected - 1 = 0 then none else guest.prevState }

def changeById (guestId : Nat) (change : Guest → Guest) : PoolService :=
  match service.guests.find? (·.id = guestId) with
  | none => service
  | some found => service.changeWhere (·.serial = found.serial) change

def freeVm (guestId : Nat) (now : Int) : PoolService := service.changeById guestId (release now)

def reuseVm (guestId : Nat) : PoolService := service.changeById guestId giveBack

end PoolService

/-! ## Runs -/

structure Grant where
  serial : Nat
  id : Nat
  deriving DecidableEq

inductive PoolEvent where
  | requestVm (srcIp : Str)
  | freeVm (grant : Grant) (now : Int)
  | reuseVm (grant : Grant)
  | setConfigs (maxVm vmUnusedTimeout : Nat) (shareGuests : Bool)
  | markTimedOut (now : Int)
  | checkHealth (hasConnectivity : Str → Bool)
  | destroyTimedOut (destroyGuest : Guest → Bool)
  | removeDestroyed
  | createGuests (createGuest : Nat → Option (Str × Str))
  | markAvailable (hasConnectivity : Str → Bool)
  | start

/-- The pool, the requests that are not freed yet, and the guests that were ever
condemned. -/
structure Pool where
  service : PoolService := {}
  outstanding : List Grant := []
  condemned : List Nat := []

namespace Pool

def condemnedNow (service : PoolService) : List Nat :=
  (service.guests.filter fun guest => guest.Condemned).map Guest.serial

def moved (pool : Pool) (service : PoolService) (outstanding : List Grant) : Pool :=
  { service, outstanding, condemned := condemnedNow service ++ pool.condemned }

/-- One operation. A granted request is freed at most once. -/
def step (pool : Pool) : PoolEvent → Option Pool
  | .requestVm srcIp =>
      match pool.service.requestVm srcIp with
      | (service, none) => some (pool.moved service pool.outstanding)
      | (service, some guest) =>
          some (pool.moved service (⟨guest.serial, guest.id⟩ :: pool.outstanding))
  | .freeVm grant now =>
      if grant ∈ pool.outstanding then
        some (pool.moved (pool.service.freeVm grant.id now) (pool.outstanding.erase grant))
      else none
  | .reuseVm grant =>
      if grant ∈ pool.outstanding then
        some (pool.moved (pool.service.reuseVm grant.id) (pool.outstanding.erase grant))
      else none
  | .setConfigs maxVm vmUnusedTimeout shareGuests =>
      some (pool.moved (pool.service.setConfigs maxVm vmUnusedTimeout shareGuests) pool.outstanding)
  | .markTimedOut now => some (pool.moved (pool.service.markTimedOut now) pool.outstanding)
  | .checkHealth hasConnectivity =>
      some (pool.moved (pool.service.checkHealth hasConnectivity) pool.outstanding)
  | .destroyTimedOut destroyGuest =>
      some (pool.moved (pool.service.destroyTimedOut destroyGuest) pool.outstanding)
  | .removeDestroyed => some (pool.moved pool.service.removeDestroyed pool.outstanding)
  | .createGuests createGuest =>
      some (pool.moved (pool.service.createGuests createGuest) pool.outstanding)
  | .markAvailable hasConnectivity =>
      some (pool.moved (pool.service.markAvailable hasConnectivity) pool.outstanding)
  | .start => some (pool.moved pool.service.start pool.outstanding)

end Pool

/-! ## What the steps have in common -/

namespace PoolService

def Evolves (before after : PoolService) : Prop :=
  after.made = before.made ∧
    ∃ (kept : Guest → Bool) (change : Guest → Guest),
      (∀ guest, (change guest).serial = guest.serial ∧ (change guest).id = guest.id) ∧
        after.guests = (before.guests.filter kept).map change

theorem Evolves.refl (service : PoolService) : Evolves service service :=
  ⟨rfl, fun _ => true, id, fun _ => ⟨rfl, rfl⟩, by simp⟩

theorem Evolves.trans {first second third : PoolService} (left : Evolves first second)
    (right : Evolves second third) : Evolves first third := by
  rcases left with ⟨sameMade, kept, change, keeps, guests⟩
  rcases right with ⟨stillMade, keptNext, changeNext, keepsNext, guestsNext⟩
  refine ⟨stillMade.trans sameMade, fun guest => keptNext (change guest) && kept guest,
    changeNext ∘ change, ?_, ?_⟩
  · intro guest
    exact ⟨(keepsNext _).1.trans (keeps guest).1, (keepsNext _).2.trans (keeps guest).2⟩
  · rw [guestsNext, guests, List.filter_map, List.map_map, List.filter_filter]
    rfl

theorem evolves_of_map {before after : PoolService} (change : Guest → Guest)
    (made : after.made = before.made)
    (keeps : ∀ guest, (change guest).serial = guest.serial ∧ (change guest).id = guest.id)
    (guests : after.guests = before.guests.map change) : Evolves before after :=
  ⟨made, fun _ => true, change, keeps, by simpa using guests⟩

theorem evolves_changeWhere (service : PoolService) {changes : Guest → Prop}
    [DecidablePred changes] {change : Guest → Guest}
    (keeps : ∀ guest, (change guest).serial = guest.serial ∧ (change guest).id = guest.id) :
    Evolves service (service.changeWhere changes change) := by
  have made : (service.changeWhere changes change).made = service.made := rfl
  refine evolves_of_map _ made ?_ rfl
  intro guest
  split
  · exact keeps guest
  · exact ⟨rfl, rfl⟩

theorem evolves_markTimedOut (service : PoolService) (now : Int) :
    Evolves service (service.markTimedOut now) :=
  evolves_changeWhere service fun _ => ⟨rfl, rfl⟩

theorem evolves_checkHealth (service : PoolService) (hasConnectivity : Str → Bool) :
    Evolves service (service.checkHealth hasConnectivity) :=
  evolves_changeWhere service fun _ => ⟨rfl, rfl⟩

theorem evolves_destroyTimedOut (service : PoolService) (destroyGuest : Guest → Bool) :
    Evolves service (service.destroyTimedOut destroyGuest) :=
  evolves_changeWhere service fun _ => ⟨rfl, rfl⟩

theorem evolves_markAvailable (service : PoolService) (hasConnectivity : Str → Bool) :
    Evolves service (service.markAvailable hasConnectivity) :=
  @evolves_changeWhere service
    (fun guest => guest.state = some .created ∧ hasConnectivity guest.guestIp) _
    (fun guest => { guest with state := some .available }) fun _ => ⟨rfl, rfl⟩

theorem guests_stop (service : PoolService) :
    (if service.anyVmUp then service.stop else service).guests = service.guests := by
  split
  · rfl
  · rfl

theorem made_stop (service : PoolService) :
    (if service.anyVmUp then service.stop else service).made = service.made := by
  split
  · rfl
  · rfl

theorem evolves_changeById (service : PoolService) (guestId : Nat) {change : Guest → Guest}
    (keeps : ∀ guest, (change guest).serial = guest.serial ∧ (change guest).id = guest.id) :
    Evolves service (service.changeById guestId change) := by
  rw [changeById]
  split
  · exact .refl service
  · exact evolves_changeWhere service keeps

theorem evolves_removeDestroyed (service : PoolService) :
    Evolves service service.removeDestroyed :=
  ⟨rfl, fun guest => decide (guest.state ≠ some .destroyed), id, fun _ => ⟨rfl, rfl⟩,
    by rw [List.map_id]; rfl⟩

theorem evolves_start (service : PoolService) : Evolves service service.start :=
  ⟨rfl, fun _ => false, id, fun _ => ⟨rfl, rfl⟩, by simp [start]⟩

namespace Evolves

variable {before after : PoolService}

theorem serials (evolves : Evolves before after) :
    (after.guests.map Guest.serial).Sublist (before.guests.map Guest.serial) := by
  rcases evolves with ⟨_, kept, change, keeps, guests⟩
  have same : Guest.serial ∘ change = Guest.serial := funext fun guest => (keeps guest).1
  rw [guests, List.map_map, same]
  exact List.filter_sublist.map _

theorem ids (evolves : Evolves before after) :
    (after.guests.map Guest.id).Sublist (before.guests.map Guest.id) := by
  rcases evolves with ⟨_, kept, change, keeps, guests⟩
  have same : Guest.id ∘ change = Guest.id := funext fun guest => (keeps guest).2
  rw [guests, List.map_map, same]
  exact List.filter_sublist.map _

theorem mem (evolves : Evolves before after) {guest : Guest} (member : guest ∈ after.guests) :
    ∃ old ∈ before.guests, guest.serial = old.serial ∧ guest.id = old.id := by
  rcases evolves with ⟨_, kept, change, keeps, guests⟩
  rw [guests] at member
  rcases List.mem_map.mp member with ⟨old, isOld, rfl⟩
  exact ⟨old, List.mem_of_mem_filter isOld, keeps old⟩

end Evolves

theorem leastConnected_mem {guests : List Guest} {guest : Guest}
    (least : leastConnected guests = some guest) : guest ∈ guests := by
  induction guests with
  | nil => cases least
  | cons first rest induction =>
      rw [leastConnected] at least
      cases found : leastConnected rest with
      | none =>
          rw [found] at least
          cases least
          exact List.mem_cons_self ..
      | some best =>
          rw [found] at least
          dsimp only at least
          split at least
          · cases least
            exact List.mem_cons_self ..
          · cases least
            exact List.mem_cons_of_mem _ (induction found)

theorem mem_getGuestStates {service : PoolService} {states : List PoolState} {guest : Guest} :
    guest ∈ service.getGuestStates states ↔
      guest ∈ service.guests ∧ ∃ state ∈ states, guest.state = some state := by
  rw [getGuestStates, List.mem_filter]
  apply and_congr_right
  intro _
  cases guest.state with
  | none => simp
  | some state => simp

theorem chooseGuest_usable {service : PoolService} {srcIp : Str} {guest : Guest}
    (chosen : service.chooseGuest srcIp = some guest) : guest ∈ service.guests ∧ guest.Usable := by
  rw [chooseGuest, Option.or_eq_some_iff, Option.or_eq_some_iff] at chosen
  rcases chosen with known | ⟨_, free | ⟨_, shared⟩⟩
  · rcases mem_getGuestStates.mp (List.mem_of_find?_eq_some known) with ⟨member, state, isState, same⟩
    refine ⟨member, ?_⟩
    rw [Guest.Usable, same]
    simp only [List.mem_cons, List.not_mem_nil, or_false] at isState
    rcases isState with rfl | rfl
    · exact .inr (.inr rfl)
    · exact .inr (.inl rfl)
  · rcases mem_getGuestStates.mp (List.mem_of_head? free) with ⟨member, state, isState, same⟩
    rw [List.mem_singleton] at isState
    rw [isState] at same
    exact ⟨member, .inl same⟩
  · split at shared
    · rcases mem_getGuestStates.mp (leastConnected_mem shared) with ⟨member, state, isState, same⟩
      refine ⟨member, ?_⟩
      rw [Guest.Usable, same]
      simp only [List.mem_cons, List.not_mem_nil, or_false] at isState
      rcases isState with rfl | rfl
      · exact .inr (.inl rfl)
      · exact .inr (.inr rfl)
    · cases shared

end PoolService

namespace Pool

open PoolService

variable {pool next : Pool} {event : PoolEvent}

theorem step_cases (taken : pool.step event = some next) :
    (∃ srcIp chosen, event = .requestVm srcIp ∧ pool.service.chooseGuest srcIp = some chosen ∧
      next = pool.moved (pool.service.changeWhere (·.serial = chosen.serial) (serve srcIp))
        (⟨chosen.serial, chosen.id⟩ :: pool.outstanding)) ∨
    (∃ createGuest, event = .createGuests createGuest ∧
      next = pool.moved (pool.service.createGuests createGuest) pool.outstanding) ∨
    ((∀ createGuest, event ≠ .createGuests createGuest) ∧ Evolves pool.service next.service ∧
      next.outstanding.Sublist pool.outstanding) := by
  cases event with
  | requestVm srcIp =>
      rw [step, requestVm] at taken
      cases chosen : pool.service.chooseGuest srcIp with
      | none =>
          rw [chosen] at taken
          cases taken
          exact .inr (.inr ⟨nofun, evolves_of_map id (made_stop _) (fun _ => ⟨rfl, rfl⟩)
            ((guests_stop _).trans (List.map_id _).symm), .refl _⟩)
      | some guest =>
          rw [chosen] at taken
          cases taken
          exact .inl ⟨srcIp, guest, rfl, chosen, rfl⟩
  | freeVm grant now =>
      rw [step] at taken
      split at taken
      · cases taken
        exact .inr (.inr ⟨nofun, evolves_changeById _ _ fun _ => ⟨rfl, rfl⟩, List.erase_sublist⟩)
      · cases taken
  | reuseVm grant =>
      rw [step] at taken
      split at taken
      · cases taken
        exact .inr (.inr ⟨nofun, evolves_changeById _ _ fun _ => ⟨rfl, rfl⟩, List.erase_sublist⟩)
      · cases taken
  | setConfigs maxVm vmUnusedTimeout shareGuests =>
      cases taken
      exact .inr (.inr ⟨nofun, evolves_of_map id rfl (fun _ => ⟨rfl, rfl⟩) (List.map_id _).symm,
        .refl _⟩)
  | markTimedOut now =>
      cases taken
      exact .inr (.inr ⟨nofun, evolves_markTimedOut .., .refl _⟩)
  | checkHealth hasConnectivity =>
      cases taken
      exact .inr (.inr ⟨nofun, evolves_checkHealth .., .refl _⟩)
  | destroyTimedOut destroyGuest =>
      cases taken
      exact .inr (.inr ⟨nofun, evolves_destroyTimedOut .., .refl _⟩)
  | removeDestroyed =>
      cases taken
      exact .inr (.inr ⟨nofun, evolves_removeDestroyed _, .refl _⟩)
  | createGuests createGuest =>
      cases taken
      exact .inr (.inl ⟨createGuest, rfl, rfl⟩)
  | markAvailable hasConnectivity =>
      cases taken
      exact .inr (.inr ⟨nofun, evolves_markAvailable .., .refl _⟩)
  | start =>
      cases taken
      exact .inr (.inr ⟨nofun, evolves_start _, .refl _⟩)

structure Numbered (service : PoolService) (outstanding : List Grant) : Prop where
  distinct : (service.guests.map Guest.serial).Nodup
  made : ∀ guest ∈ service.guests, guest.serial < service.made
  granted : ∀ grant ∈ outstanding, grant.serial < service.made
  named : ∀ grant ∈ outstanding, ∀ guest ∈ service.guests,
    guest.serial = grant.serial → guest.id = grant.id

namespace Numbered

variable {service after : PoolService} {outstanding fewer : List Grant}

theorem initial : Numbered {} [] := by
  constructor
  · exact List.nodup_nil
  · intro guest member
    cases member
  · intro grant member
    cases member
  · intro grant member
    cases member

theorem unique (numbered : Numbered service outstanding) {left right : Guest}
    (isLeft : left ∈ service.guests) (isRight : right ∈ service.guests)
    (same : left.serial = right.serial) : left = right :=
  List.inj_on_of_nodup_map numbered.distinct isLeft isRight same

theorem evolve (numbered : Numbered service outstanding) (evolves : Evolves service after)
    (subset : fewer.Sublist outstanding) : Numbered after fewer := by
  constructor
  · exact numbered.distinct.sublist evolves.serials
  · intro guest member
    rcases evolves.mem member with ⟨old, isOld, same, _⟩
    rw [same, evolves.1]
    exact numbered.made old isOld
  · intro grant member
    rw [evolves.1]
    exact numbered.granted grant (subset.subset member)
  · intro grant member guest isGuest same
    rcases evolves.mem isGuest with ⟨old, isOld, sameSerial, sameId⟩
    rw [sameId]
    exact numbered.named grant (subset.subset member) old isOld (sameSerial.symm.trans same)

theorem grant (numbered : Numbered service outstanding) {chosen : Guest}
    (member : chosen ∈ service.guests) :
    Numbered service (⟨chosen.serial, chosen.id⟩ :: outstanding) := by
  constructor
  · exact numbered.distinct
  · exact numbered.made
  · rw [List.forall_mem_cons]
    exact ⟨numbered.made chosen member, numbered.granted⟩
  · rw [List.forall_mem_cons]
    refine ⟨?_, numbered.named⟩
    intro guest isGuest same
    rw [numbered.unique isGuest member same]

theorem createGuest (numbered : Numbered service outstanding) (snapshot guestIp : Str) :
    Numbered (service.createGuest snapshot guestIp) outstanding := by
  constructor
  · rw [PoolService.createGuest, List.map_append]
    apply List.Nodup.append numbered.distinct (List.nodup_singleton _)
    intro serial old new
    rcases List.mem_map.mp old with ⟨guest, member, rfl⟩
    have before := numbered.made guest member
    exact absurd (List.mem_singleton.mp new) (Nat.ne_of_lt before)
  · intro guest member
    rcases List.mem_append.mp member with old | new
    · exact Nat.lt_succ_of_lt (numbered.made guest old)
    · rw [List.mem_singleton.mp new]
      exact Nat.lt_succ_self _
  · intro grant member
    exact Nat.lt_succ_of_lt (numbered.granted grant member)
  · intro grant member guest isGuest same
    rcases List.mem_append.mp isGuest with old | new
    · exact numbered.named grant member guest old same
    · rw [List.mem_singleton.mp new] at same
      exact absurd same.symm (Nat.ne_of_lt (numbered.granted grant member))

theorem createEach (numbered : Numbered service outstanding) (results : List (Option (Str × Str))) :
    Numbered (service.createEach results) outstanding := by
  induction results generalizing service with
  | nil => exact numbered
  | cons result results induction =>
      cases result with
      | none => exact induction numbered
      | some guest => exact induction (numbered.createGuest guest.1 guest.2)

theorem step {pool next : Pool} {event : PoolEvent}
    (numbered : Numbered pool.service pool.outstanding) (taken : pool.step event = some next) :
    Numbered next.service next.outstanding := by
  rcases step_cases taken with ⟨srcIp, chosen, rfl, isChosen, rfl⟩ | ⟨createGuest, rfl, rfl⟩ |
    ⟨_, evolves, subset⟩
  · apply (numbered.grant (chooseGuest_usable isChosen).1).evolve _ (.refl _)
    exact evolves_changeWhere _ fun _ => ⟨rfl, rfl⟩
  · exact numbered.createEach _
  · exact numbered.evolve evolves subset

end Numbered

end Pool

end BackendPool

end LlmHoneypot
