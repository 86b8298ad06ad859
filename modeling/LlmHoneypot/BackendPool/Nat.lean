import LlmHoneypot.Foundation.Dict
import LlmHoneypot.Foundation.EventRun
import LlmHoneypot.Foundation.Text

/-! # Bindings of the backend pool

`NATService`: the listeners through which clients reach a guest. -/

namespace LlmHoneypot

namespace BackendPool

structure Listener where
  /-- The guest it was made for. -/
  guestId : Nat
  destination : Str × Nat
  /-- `_realPortNumber`. -/
  port : Option Nat
  stopped : Bool := false

structure Binding where
  connected : Int
  ssh : Nat
  telnet : Nat

structure NATService where
  bindings : Dict Nat Binding := .empty
  listeners : List Listener := []

namespace NATService

def stopListening (service : NATService) (index : Nat) : NATService :=
  { service with
    listeners := service.listeners.modify index fun listener =>
      { listener with port := none, stopped := true } }

def lose (service : NATService) (index : Nat) : NATService :=
  { service with
    listeners := service.listeners.modify index fun listener => { listener with port := none } }

def realPortNumber (service : NATService) (index : Nat) : Option Nat :=
  service.listeners[index]?.bind Listener.port

/-- The part of `request_binding` that listens; the ports are given by the system. -/
def create (service : NATService) (guestId : Nat) (dstIp : Str) (sshPort telnetPort : Nat)
    (given : Nat × Nat) : NATService × Nat × Nat :=
  let ssh := service.listeners.length
  ({ bindings := service.bindings.set guestId { connected := 1, ssh, telnet := ssh + 1 }
     listeners := service.listeners ++ [
       { guestId, destination := (dstIp, sshPort), port := some given.1 },
       { guestId, destination := (dstIp, telnetPort), port := some given.2 }] }, given)

def requestBinding (service : NATService) (guestId : Nat) (dstIp : Str) (sshPort telnetPort : Nat)
    (given : Nat × Nat) : NATService × Nat × Nat :=
  match service.bindings.get? guestId with
  | none => service.create guestId dstIp sshPort telnetPort given
  | some binding =>
      let counted := { service with
        bindings := service.bindings.set guestId
          { binding with connected := binding.connected + 1 } }
      match service.realPortNumber binding.ssh, service.realPortNumber binding.telnet with
      | some port1, some port2 => (counted, port1, port2)
      | port1, port2 =>
          let counted := if port1 ≠ none then counted.stopListening binding.ssh else counted
          let counted := if port2 ≠ none then counted.stopListening binding.telnet else counted
          -- the new binding counts from 1 again
          create { counted with bindings := counted.bindings.erase guestId } guestId dstIp sshPort
            telnetPort given

def freeBinding (service : NATService) (guestId : Nat) : Option NATService :=
  match service.bindings.get? guestId with
  | none => none
  | some binding =>
      let connected := binding.connected - 1
      if connected ≤ 0 then
        let stopped := (service.stopListening binding.ssh).stopListening binding.telnet
        some { stopped with bindings := stopped.bindings.erase guestId }
      else
        some { service with bindings := service.bindings.set guestId { binding with connected } }

def freeAll (service : NATService) : NATService :=
  let stopped := service.bindings.values.foldl
    (fun service binding => (service.stopListening binding.ssh).stopListening binding.telnet)
    service
  { stopped with bindings := .empty }

variable (service : NATService)

theorem listener_stopListening (index other : Nat) :
    (service.stopListening index).listeners[other]? =
      (service.listeners[other]?).map fun listener =>
        if index = other then { listener with port := none, stopped := true } else listener := by
  rw [stopListening, List.getElem?_modify]
  rfl

theorem listener_lose (index other : Nat) :
    (service.lose index).listeners[other]? =
      (service.listeners[other]?).map fun listener =>
        if index = other then { listener with port := none } else listener := by
  rw [lose, List.getElem?_modify]
  rfl

theorem requestBinding_new {guestId sshPort telnetPort : Nat} {dstIp : Str} {given : Nat × Nat}
    (unbound : service.bindings.get? guestId = none) :
    service.requestBinding guestId dstIp sshPort telnetPort given =
      service.create guestId dstIp sshPort telnetPort given := by
  rw [requestBinding, unbound]

theorem requestBinding_again {guestId sshPort telnetPort : Nat} {dstIp : Str} {given : Nat × Nat}
    {binding : Binding} (bound : service.bindings.get? guestId = some binding)
    (ssh : service.realPortNumber binding.ssh ≠ none)
    (telnet : service.realPortNumber binding.telnet ≠ none) :
    (service.requestBinding guestId dstIp sshPort telnetPort given).1 = { service with
      bindings := service.bindings.set guestId
        { binding with connected := binding.connected + 1 } } := by
  rcases Option.ne_none_iff_exists'.mp ssh with ⟨port1, isPort1⟩
  rcases Option.ne_none_iff_exists'.mp telnet with ⟨port2, isPort2⟩
  simp only [requestBinding, bound, isPort1, isPort2]

theorem requestBinding_lost (sshPort telnetPort : Nat) (dstIp : Str) (given : Nat × Nat)
    {guestId : Nat} {binding : Binding} (bound : service.bindings.get? guestId = some binding)
    (lost : ¬ (service.realPortNumber binding.ssh ≠ none ∧
      service.realPortNumber binding.telnet ≠ none)) :
    ∃ again, (service.requestBinding guestId dstIp sshPort telnetPort given).1.bindings.get?
      guestId = some again ∧ again.connected = 1 := by
  rw [requestBinding, bound]
  dsimp only
  split
  · next port1 port2 isPort1 isPort2 =>
      rw [isPort1, isPort2] at lost
      exact absurd ⟨Option.some_ne_none _, Option.some_ne_none _⟩ lost
  · rw [create]
    dsimp only
    rw [Dict.get?_set, if_pos rfl]
    exact ⟨_, rfl, rfl⟩

theorem listeners_freeAll (unbound : ∀ guestId, service.bindings.get? guestId = none) :
    service.freeAll.listeners = service.listeners := by
  have nothing : service.bindings.entries = [] := by
    apply List.eq_nil_iff_forall_not_mem.mpr
    rintro ⟨guestId, binding⟩ member
    have bound := Dict.mem_entries_iff.mp member
    rw [unbound] at bound
    cases bound
  rw [freeAll, Dict.values, nothing]
  rfl

end NATService

/-! ## Requests -/

inductive NatCall where
  | requestBinding (guestId : Nat) (dstIp : Str) (sshPort telnetPort : Nat) (given : Nat × Nat)
  | freeBinding (guestId : Nat)
  | freeAll
  | lose (index : Nat)

structure Served where
  service : NATService := {}
  outstanding : List Nat := []

namespace Served

/-- One call. A guest is freed once for each request. -/
def step (served : Served) : NatCall → Option Served
  | .requestBinding guestId dstIp sshPort telnetPort given => some {
      service := (served.service.requestBinding guestId dstIp sshPort telnetPort given).1
      outstanding := guestId :: served.outstanding }
  | .freeBinding guestId =>
      if guestId ∈ served.outstanding then some {
        service := (served.service.freeBinding guestId).getD served.service
        outstanding := served.outstanding.erase guestId }
      else none
  | .freeAll => some { served with service := served.service.freeAll }
  | .lose index => some { served with service := served.service.lose index }

def Raises (served : Served) : NatCall → Prop
  | .freeBinding guestId => served.service.freeBinding guestId = none
  | _ => False

structure Correct (served : Served) : Prop where
  counted : ∀ guestId binding, served.service.bindings.get? guestId = some binding →
    binding.connected = served.outstanding.count guestId ∧ guestId ∈ served.outstanding
  bound : ∀ guestId ∈ served.outstanding, served.service.bindings.get? guestId ≠ none
  opened : ∀ guestId binding, served.service.bindings.get? guestId = some binding →
    ∀ index, index = binding.ssh ∨ index = binding.telnet →
      ∃ listener, served.service.listeners[index]? = some listener ∧
        listener.guestId = guestId ∧ listener.stopped = false
  closed : ∀ index listener, served.service.listeners[index]? = some listener →
    listener.port ≠ none →
      ∃ binding, served.service.bindings.get? listener.guestId = some binding ∧
        (index = binding.ssh ∨ index = binding.telnet)

/-- The call does not raise, and the bindings are right after it. -/
def Serves (served : Served) (call : NatCall) : Prop :=
  ∀ next, served.step call = some next → ¬ served.Raises call ∧ next.Correct

/-- No binding is made again or dropped while a client has it. -/
def Spared (served : Served) : NatCall → Prop
  | .requestBinding guestId .. =>
      ∀ binding, served.service.bindings.get? guestId = some binding →
        served.service.realPortNumber binding.ssh ≠ none ∧
          served.service.realPortNumber binding.telnet ≠ none
  | .freeAll => served.outstanding = []
  | _ => True

namespace Correct

variable {served : Served} {guestId sshPort telnetPort : Nat} {dstIp : Str} {given : Nat × Nat}

theorem start : ({} : Served).Correct := by
  constructor
  · intro guestId binding bound
    cases bound
  · intro guestId member
    cases member
  · intro guestId binding bound
    cases bound
  · intro index listener present
    cases present

theorem create (correct : served.Correct)
    (unbound : served.service.bindings.get? guestId = none) :
    Correct {
      service := (served.service.create guestId dstIp sshPort telnetPort given).1
      outstanding := guestId :: served.outstanding } := by
  have unused : guestId ∉ served.outstanding := fun member => correct.bound guestId member unbound
  rw [NATService.create]
  constructor
  · intro other binding bound
    dsimp only at bound ⊢
    rw [Dict.get?_set] at bound
    split at bound
    · next same =>
        cases bound
        rw [same, List.count_cons_self, List.count_eq_zero_of_not_mem unused]
        exact ⟨rfl, List.mem_cons_self ..⟩
    · next different =>
        rw [List.count_cons_of_ne (Ne.symm different)]
        have before := correct.counted other binding bound
        exact ⟨before.1, List.mem_cons_of_mem _ before.2⟩
  · intro other member
    dsimp only at member ⊢
    rw [Dict.get?_set]
    split
    · exact Option.some_ne_none _
    · next different =>
        apply correct.bound
        exact (List.mem_cons.mp member).resolve_left different
  · intro other binding bound index isIndex
    dsimp only at bound ⊢
    rw [Dict.get?_set] at bound
    split at bound
    · next same =>
        cases bound
        rcases isIndex with rfl | rfl
        · refine ⟨{ guestId, destination := (dstIp, sshPort), port := some given.1 }, ?_,
            same.symm, rfl⟩
          simp
        · refine ⟨{ guestId, destination := (dstIp, telnetPort), port := some given.2 }, ?_,
            same.symm, rfl⟩
          simp
    · rcases correct.opened other binding bound index isIndex with ⟨listener, present, isOpen⟩
      exact ⟨listener, List.getElem?_append_left (List.getElem?_eq_some_iff.mp present).1 ▸ present,
        isOpen⟩
  · intro index listener present hasPort
    dsimp only at present ⊢
    rw [Dict.get?_set]
    by_cases old : index < served.service.listeners.length
    · rw [List.getElem?_append_left old] at present
      rcases correct.closed index listener present hasPort with ⟨binding, bound, isIndex⟩
      have different : listener.guestId ≠ guestId := by
        intro same
        rw [same, unbound] at bound
        cases bound
      rw [if_neg different]
      exact ⟨binding, bound, isIndex⟩
    · rw [List.getElem?_append_right (Nat.not_lt.mp old)] at present
      have place : index = served.service.listeners.length ∨
          index = served.service.listeners.length + 1 := by
        have inside := (List.getElem?_eq_some_iff.mp present).1
        simp only [List.length_cons, List.length_nil] at inside
        omega
      have isGuest : listener.guestId = guestId := by
        rcases place with rfl | rfl
        · simp at present
          rw [← present]
        · simp at present
          rw [← present]
      rw [if_pos isGuest]
      exact ⟨_, rfl, place⟩

theorem again (correct : served.Correct) {binding : Binding}
    (bound : served.service.bindings.get? guestId = some binding) :
    Correct {
      service := { served.service with
        bindings := served.service.bindings.set guestId
          { binding with connected := binding.connected + 1 } }
      outstanding := guestId :: served.outstanding } := by
  constructor
  · intro other found isBound
    dsimp only at isBound ⊢
    rw [Dict.get?_set] at isBound
    split at isBound
    · next same =>
        cases isBound
        rw [same, List.count_cons_self]
        have before := correct.counted guestId binding bound
        refine ⟨?_, List.mem_cons_self ..⟩
        dsimp only
        omega
    · next different =>
        rw [List.count_cons_of_ne (Ne.symm different)]
        have before := correct.counted other found isBound
        exact ⟨before.1, List.mem_cons_of_mem _ before.2⟩
  · intro other member
    dsimp only at member ⊢
    rw [Dict.get?_set]
    split
    · exact Option.some_ne_none _
    · next different =>
        apply correct.bound
        exact (List.mem_cons.mp member).resolve_left different
  · intro other found isBound index isIndex
    dsimp only at isBound ⊢
    rw [Dict.get?_set] at isBound
    split at isBound
    · next same =>
        cases isBound
        rw [same]
        exact correct.opened guestId binding bound index isIndex
    · exact correct.opened other found isBound index isIndex
  · intro index listener present hasPort
    rcases correct.closed index listener present hasPort with ⟨found, isBound, isIndex⟩
    dsimp only
    rw [Dict.get?_set]
    split
    · next same =>
        rw [same, bound] at isBound
        cases isBound
        exact ⟨_, rfl, isIndex⟩
    · exact ⟨found, isBound, isIndex⟩

theorem lose (correct : served.Correct) (index : Nat) :
    Correct { served with service := served.service.lose index } := by
  constructor
  · exact correct.counted
  · exact correct.bound
  · intro other binding bound place isPlace
    rcases correct.opened other binding bound place isPlace with ⟨listener, present, isGuest, isOpen⟩
    dsimp only
    rw [NATService.listener_lose, present]
    refine ⟨_, rfl, ?_⟩
    split
    · exact ⟨isGuest, isOpen⟩
    · exact ⟨isGuest, isOpen⟩
  · intro place listener present hasPort
    dsimp only at present
    rw [NATService.listener_lose] at present
    rcases Option.map_eq_some_iff.mp present with ⟨before, isBefore, rfl⟩
    split at hasPort
    · exact absurd rfl hasPort
    · next other =>
        rw [if_neg other]
        exact correct.closed place before isBefore hasPort

theorem freeAll (correct : served.Correct) (nobody : served.outstanding = []) :
    Correct { served with service := served.service.freeAll } := by
  have unbound : ∀ other, served.service.bindings.get? other = none := by
    intro other
    rw [Option.eq_none_iff_forall_ne_some]
    intro binding bound
    have member := (correct.counted other binding bound).2
    rw [nobody] at member
    cases member
  constructor
  · intro other binding bound
    cases bound
  · intro other member
    rw [nobody] at member
    cases member
  · intro other binding bound
    cases bound
  · intro index listener present hasPort
    dsimp only at present
    rw [NATService.listeners_freeAll _ unbound] at present
    rcases correct.closed index listener present hasPort with ⟨binding, bound, _⟩
    rw [unbound] at bound
    cases bound

theorem free_some (correct : served.Correct) {binding : Binding}
    (bound : served.service.bindings.get? guestId = some binding)
    (others : 0 < binding.connected - 1) :
    Correct {
      service := { served.service with
        bindings := served.service.bindings.set guestId
          { binding with connected := binding.connected - 1 } }
      outstanding := served.outstanding.erase guestId } := by
  have counted := (correct.counted guestId binding bound).1
  have still : guestId ∈ served.outstanding.erase guestId := by
    apply List.count_pos_iff.mp
    rw [List.count_erase_self]
    omega
  constructor
  · intro other found isBound
    dsimp only at isBound ⊢
    rw [Dict.get?_set] at isBound
    split at isBound
    · next same =>
        cases isBound
        rw [same, List.count_erase_self]
        refine ⟨?_, still⟩
        dsimp only
        omega
    · next different =>
        rw [List.count_erase_of_ne different]
        have before := correct.counted other found isBound
        exact ⟨before.1, (List.mem_erase_of_ne different).mpr before.2⟩
  · intro other member
    dsimp only at member ⊢
    rw [Dict.get?_set]
    split
    · exact Option.some_ne_none _
    · exact correct.bound other (List.mem_of_mem_erase member)
  · intro other found isBound index isIndex
    dsimp only at isBound ⊢
    rw [Dict.get?_set] at isBound
    split at isBound
    · next same =>
        cases isBound
        rw [same]
        exact correct.opened guestId binding bound index isIndex
    · exact correct.opened other found isBound index isIndex
  · intro index listener present hasPort
    rcases correct.closed index listener present hasPort with ⟨found, isBound, isIndex⟩
    dsimp only
    rw [Dict.get?_set]
    split
    · next same =>
        rw [same, bound] at isBound
        cases isBound
        exact ⟨_, rfl, isIndex⟩
    · exact ⟨found, isBound, isIndex⟩

theorem free_last (correct : served.Correct) {binding : Binding}
    (bound : served.service.bindings.get? guestId = some binding)
    (last : binding.connected - 1 ≤ 0) :
    Correct {
      service := { (served.service.stopListening binding.ssh).stopListening binding.telnet with
        bindings := served.service.bindings.erase guestId }
      outstanding := served.outstanding.erase guestId } := by
  have counted := (correct.counted guestId binding bound).1
  have gone : guestId ∉ served.outstanding.erase guestId := by
    rw [← List.count_eq_zero, List.count_erase_self]
    omega
  constructor
  · intro other found isBound
    dsimp only at isBound ⊢
    rw [Dict.get?_erase] at isBound
    split at isBound
    · cases isBound
    · next different =>
        rw [List.count_erase_of_ne different]
        have before := correct.counted other found isBound
        exact ⟨before.1, (List.mem_erase_of_ne different).mpr before.2⟩
  · intro other member
    dsimp only at member ⊢
    rw [Dict.get?_erase]
    split
    · next same =>
        rw [same] at member
        exact absurd member gone
    · exact correct.bound other (List.mem_of_mem_erase member)
  · intro other found isBound index isIndex
    dsimp only at isBound ⊢
    rw [Dict.get?_erase] at isBound
    split at isBound
    · cases isBound
    · next different =>
        rcases correct.opened other found isBound index isIndex with
          ⟨listener, present, isGuest, isOpen⟩
        -- a listener of the freed guest is another one
        have apart : ∀ place, place = binding.ssh ∨ place = binding.telnet → place ≠ index := by
          intro place isPlace same
          rcases correct.opened guestId binding bound place isPlace with ⟨freed, isFreed, ofGuest, _⟩
          rw [same, present] at isFreed
          cases isFreed
          exact different (isGuest.symm.trans ofGuest)
        refine ⟨listener, ?_, isGuest, isOpen⟩
        rw [NATService.listener_stopListening, NATService.listener_stopListening, present,
          Option.map_some, Option.map_some, if_neg (apart _ (.inl rfl)), if_neg (apart _ (.inr rfl))]
  · intro index listener present hasPort
    dsimp only at present ⊢
    rw [NATService.listener_stopListening, NATService.listener_stopListening] at present
    rcases Option.map_eq_some_iff.mp present with ⟨half, isHalf, rfl⟩
    rcases Option.map_eq_some_iff.mp isHalf with ⟨before, isBefore, rfl⟩
    by_cases telnet : binding.telnet = index
    · rw [if_pos telnet] at hasPort
      exact absurd rfl hasPort
    · rw [if_neg telnet] at hasPort ⊢
      by_cases ssh : binding.ssh = index
      · rw [if_pos ssh] at hasPort
        exact absurd rfl hasPort
      · rw [if_neg ssh] at hasPort ⊢
        rcases correct.closed index before isBefore hasPort with ⟨found, isBound, isIndex⟩
        have different : before.guestId ≠ guestId := by
          intro same
          rw [same, bound] at isBound
          cases isBound
          rcases isIndex with rfl | rfl
          · exact ssh rfl
          · exact telnet rfl
        rw [Dict.get?_erase, if_neg different]
        exact ⟨found, isBound, isIndex⟩

theorem free (correct : served.Correct) (member : guestId ∈ served.outstanding) :
    ∃ service, served.service.freeBinding guestId = some service ∧
      Correct { service, outstanding := served.outstanding.erase guestId } := by
  rcases Option.ne_none_iff_exists'.mp (correct.bound guestId member) with ⟨binding, bound⟩
  rw [NATService.freeBinding, bound]
  dsimp only
  split
  · next last => exact ⟨_, rfl, correct.free_last bound last⟩
  · next others => exact ⟨_, rfl, correct.free_some bound (Int.not_le.mp others)⟩

theorem step (correct : served.Correct) {call : NatCall} (spared : served.Spared call) :
    served.Serves call := by
  intro next taken
  cases call with
  | requestBinding guestId dstIp sshPort telnetPort given =>
      cases taken
      refine ⟨not_false, ?_⟩
      cases bound : served.service.bindings.get? guestId with
      | none =>
          rw [NATService.requestBinding_new _ bound]
          exact correct.create bound
      | some binding =>
          have ports := spared binding bound
          rw [NATService.requestBinding_again _ bound ports.1 ports.2]
          exact correct.again bound
  | freeBinding guestId =>
      rw [Served.step] at taken
      split at taken
      · next member =>
          cases taken
          rcases correct.free member with ⟨service, freed, after⟩
          rw [Raises, freed]
          exact ⟨Option.some_ne_none _, after⟩
      · cases taken
  | freeAll =>
      cases taken
      exact ⟨not_false, correct.freeAll spared⟩
  | lose index =>
      cases taken
      exact ⟨not_false, correct.lose index⟩

theorem serves_iff (correct : served.Correct) (call : NatCall) :
    served.Spared call ↔ served.Serves call := by
  refine ⟨correct.step, ?_⟩
  intro serves
  cases call with
  | requestBinding guestId dstIp sshPort telnetPort given =>
      intro binding bound
      by_contra lost
      have after := (serves _ rfl).2
      rcases served.service.requestBinding_lost sshPort telnetPort dstIp given bound lost with
        ⟨again, isAgain, one⟩
      have counted := (after.counted guestId again isAgain).1
      have before := List.count_pos_iff.mpr (correct.counted guestId binding bound).2
      dsimp only at counted
      rw [List.count_cons_self] at counted
      omega
  | freeBinding guestId => trivial
  | freeAll =>
      have after := (serves _ rfl).2
      apply List.eq_nil_iff_forall_not_mem.mpr
      intro guestId member
      exact after.bound guestId member rfl
  | lose index => trivial

end Correct

/-- The bindings are right along a run, and no free raises, exactly when no call of it
makes a binding again or drops it while a client has it. -/
theorem serves_iff_spared (calls : List NatCall) :
    EventRun.Along step Serves {} calls ↔ EventRun.Along step Spared {} calls := by
  symm
  apply EventRun.along_congr_of_good Correct
  · intro served call next correct spared taken
    exact (correct.step spared next taken).2
  · intro served call correct
    exact correct.serves_iff call
  · exact Correct.start

section Examples

def recycled : List NatCall :=
  [.requestBinding 7 "192.168.150.7".toList 22 23 (40001, 40002), .freeAll, .freeBinding 7]

/-- The client's binding is gone when it frees it. -/
theorem free_after_free_all_raises :
    (∃ served, EventRun.run step {} (recycled.take 2) = some served ∧
        served.outstanding = [7] ∧ served.Raises (.freeBinding 7)) ∧
      ¬ EventRun.Along step Serves {} recycled := by
  refine ⟨⟨_, rfl, rfl, rfl⟩, ?_⟩
  intro along
  have freed : Serves _ (.freeBinding 7) := ((along.2 _ rfl).2 _ rfl).1
  exact (freed _ rfl).1 rfl

end Examples

end Served

end BackendPool

end LlmHoneypot
