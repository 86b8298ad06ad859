import LlmHoneypot.Foundation.Utf8
import LlmHoneypot.SshProxy.Reassembly

/-! # Delivery of packets through the proxy

What each side of the SSH proxy does with packets while the other side is not ready:
`FrontendSSHTransport` and `BackendSSHTransport`, up to `parse_num_packet`. -/

namespace LlmHoneypot

namespace SshProxy

structure NumPacket where
  messageNum : Nat
  payload : Bytes
  deriving DecidableEq

/-- `parse_num_packet`: the state it leaves, and whether it raises (`get_channel` does for a
channel that is not known). -/
abbrev ParseNumPacket (Ssh : Type) := Ssh → Parent → NumPacket → Ssh × Bool

section Flushing

variable {Ssh : Type} (parse : ParseNumPacket Ssh) (parent : Parent)

def parseEach : Ssh → List NumPacket → List NumPacket × Ssh × Bool
  | ssh, [] => ([], ssh, false)
  | ssh, packet :: rest =>
      match parse ssh parent packet with
      | (after, true) => ([packet], after, true)
      | (after, false) =>
          let (parsed, last, raised) := parseEach after rest
          (packet :: parsed, last, raised)

def Raises (ssh : Ssh) (packets : List NumPacket) : Prop :=
  (parseEach parse parent ssh packets).2.2 = true

theorem parseEach_of_not_raises {ssh : Ssh} {packets : List NumPacket}
    (quiet : ¬ Raises parse parent ssh packets) :
    (parseEach parse parent ssh packets).1 = packets := by
  induction packets generalizing ssh with
  | nil => rfl
  | cons packet rest induction =>
      rw [Raises, parseEach] at quiet
      rw [parseEach]
      rcases answer : parse ssh parent packet with ⟨after, raised⟩
      rw [answer] at quiet
      cases raised with
      | true => exact absurd rfl quiet
      | false => exact congrArg (packet :: ·) (induction quiet)

theorem parseEach_of_raises {ssh : Ssh} {packets : List NumPacket}
    (raises : Raises parse parent ssh packets) :
    (parseEach parse parent ssh packets).1 ≠ [] := by
  cases packets with
  | nil => cases raises
  | cons packet rest =>
      rw [parseEach]
      rcases parse ssh parent packet with ⟨after, raised⟩
      cases raised with
      | true => exact List.cons_ne_nil _ _
      | false => exact List.cons_ne_nil _ _

theorem mem_of_mem_parseEach {ssh : Ssh} {packets : List NumPacket} {packet : NumPacket}
    (member : packet ∈ (parseEach parse parent ssh packets).1) : packet ∈ packets := by
  induction packets generalizing ssh with
  | nil => exact member
  | cons first rest induction =>
      rw [parseEach] at member
      rcases answer : parse ssh parent first with ⟨after, raised⟩
      rw [answer] at member
      cases raised with
      | true => exact List.mem_singleton.mp member ▸ List.mem_cons_self
      | false =>
          rcases List.mem_cons.mp member with rfl | later
          · exact List.mem_cons_self
          · exact List.mem_cons_of_mem _ (induction later)

end Flushing

/-- The packets of one direction: all that came, those in `delayedPackets`, and those that
`parse_num_packet` was given. -/
structure Queue where
  arrived : List NumPacket := []
  delayedPackets : List NumPacket := []
  parsed : List NumPacket := []
  /-- An exception has ended a loop over the delayed packets before they were dropped. -/
  broken : Bool := false

namespace Queue

variable (queue : Queue) (packet : NumPacket)

def delay : Queue :=
  { queue with
    arrived := queue.arrived ++ [packet]
    delayedPackets := queue.delayedPackets ++ [packet] }

def parse : Queue :=
  { queue with arrived := queue.arrived ++ [packet], parsed := queue.parsed ++ [packet] }

def flush {Ssh : Type} (parse : ParseNumPacket Ssh) (parent : Parent) (ssh : Ssh) :
    Queue × Ssh × Bool :=
  let loop := parseEach parse parent ssh queue.delayedPackets
  ({ queue with
    delayedPackets := if loop.2.2 then queue.delayedPackets else []
    parsed := queue.parsed ++ loop.1
    broken := queue.broken || loop.2.2 }, loop.2)

def Ordered : Prop := queue.parsed ++ queue.delayedPackets = queue.arrived

/-- What holds of one direction in any case: until an exception ends a loop the packets are
parsed once and in order, those that are delayed came last, and none is lost or made up. -/
structure Kept : Prop where
  ordered : queue.broken = false → queue.Ordered
  repeated : queue.broken = true →
    queue.arrived.length < queue.parsed.length + queue.delayedPackets.length
  latest : queue.delayedPackets <:+ queue.arrived
  lossless : ∀ packet, packet ∈ queue.arrived ↔
    packet ∈ queue.parsed ∨ packet ∈ queue.delayedPackets

variable {queue packet}

theorem Ordered.delay (ordered : queue.Ordered) : (queue.delay packet).Ordered := by
  rw [Ordered, Queue.delay, ← List.append_assoc, ordered]

theorem Ordered.parse (ordered : queue.Ordered) (nothing : queue.delayedPackets = []) :
    (queue.parse packet).Ordered := by
  rw [Ordered, nothing, List.append_nil] at ordered
  rw [Ordered, Queue.parse, nothing, List.append_nil, ordered]

section Flush

variable {Ssh : Type} {parsePacket : ParseNumPacket Ssh} {parent : Parent} {ssh : Ssh}

theorem flush_of_quiet (quiet : ¬ Raises parsePacket parent ssh queue.delayedPackets) :
    (queue.flush parsePacket parent ssh).1 =
      { queue with delayedPackets := [], parsed := queue.parsed ++ queue.delayedPackets } := by
  have parsed := parseEach_of_not_raises parsePacket parent quiet
  rw [Raises, Bool.not_eq_true] at quiet
  simp [flush, parsed, quiet]

theorem flush_of_raises (raises : Raises parsePacket parent ssh queue.delayedPackets) :
    (queue.flush parsePacket parent ssh).1 = { queue with
      parsed := queue.parsed ++ (parseEach parsePacket parent ssh queue.delayedPackets).1
      broken := true } := by
  rw [Raises] at raises
  simp [flush, raises]

namespace Kept

theorem ordered_iff (kept : queue.Kept) : queue.Ordered ↔ queue.broken = false := by
  refine ⟨fun ordered => ?_, kept.ordered⟩
  rw [Bool.eq_false_iff]
  intro broken
  have more := kept.repeated broken
  have length := congrArg List.length ordered
  rw [List.length_append] at length
  omega

theorem start : ({} : Queue).Kept where
  ordered _ := rfl
  repeated := nofun
  latest := List.suffix_rfl
  lossless packet := by simp

theorem delay (kept : queue.Kept) : (queue.delay packet).Kept where
  ordered whole := (kept.ordered whole).delay
  repeated broken := by
    have more := kept.repeated broken
    simp only [Queue.delay, List.length_append, List.length_singleton]
    omega
  latest := by
    rcases kept.latest with ⟨earlier, arrived⟩
    exact ⟨earlier, by simp [Queue.delay, ← arrived]⟩
  lossless other := by simp [Queue.delay, kept.lossless other, or_assoc]

theorem parse (kept : queue.Kept) (nothing : queue.delayedPackets = []) :
    (queue.parse packet).Kept where
  ordered whole := (kept.ordered whole).parse nothing
  repeated broken := by
    have more := kept.repeated broken
    simp only [Queue.parse, List.length_append, List.length_singleton]
    omega
  latest := by simp [Queue.parse, nothing]
  lossless other := by simp [Queue.parse, kept.lossless other, nothing]

theorem flush (kept : queue.Kept) : (queue.flush parsePacket parent ssh).1.Kept := by
  by_cases raises : Raises parsePacket parent ssh queue.delayedPackets
  · rw [flush_of_raises raises]
    refine ⟨nofun, fun _ => ?_, kept.latest, fun packet => ?_⟩
    · have some := List.length_pos_iff.mpr (parseEach_of_raises parsePacket parent raises)
      have enough : queue.arrived.length ≤ queue.parsed.length + queue.delayedPackets.length := by
        cases broken : queue.broken with
        | true => exact Nat.le_of_lt (kept.repeated broken)
        | false =>
            have length := congrArg List.length (kept.ordered broken)
            rw [List.length_append] at length
            exact Nat.le_of_eq length.symm
      dsimp only
      rw [List.length_append]
      omega
    · have parsed := @mem_of_mem_parseEach _ parsePacket parent ssh queue.delayedPackets packet
      simp only [List.mem_append, kept.lossless packet]
      tauto
  · rw [flush_of_quiet raises]
    refine ⟨fun whole => ?_, fun broken => ?_, List.nil_suffix, fun packet => ?_⟩
    · rw [Ordered, List.append_nil]
      exact kept.ordered whole
    · have more := kept.repeated broken
      simpa using more
    · simp [kept.lossless packet]

end Kept

end Flush

end Queue

structure Proxy (Ssh : Type) where
  /-- The state of `sshParse`. -/
  ssh : Ssh
  /-- The backend's transport is there: `sshParse.client`. -/
  client : Bool := false
  frontendAuthenticated : Bool := false
  backendConnected : Bool := false
  canAuth : Bool := false
  authDone : Bool := false
  /-- From the client, to the backend. -/
  frontend : Queue := {}
  /-- From the backend, to the client. -/
  backend : Queue := {}

inductive ProxyEvent where
  | frontend (encrypted : Bool) (packet : NumPacket)
  | finishedAuth
  | connectBackend
  | connectionSecure
  | backend (encrypted : Bool) (packet : NumPacket)

namespace Proxy

variable {Ssh : Type} (parse : ParseNumPacket Ssh) (proxy : Proxy Ssh)

def authenticateBackend : Proxy Ssh :=
  if ¬ proxy.frontendAuthenticated ∨ ¬ proxy.canAuth then proxy
  else
    let flushed := proxy.frontend.flush parse .server proxy.ssh
    { proxy with
      ssh := flushed.2.1
      backendConnected := true
      frontend := flushed.1
      authDone := proxy.authDone || !flushed.2.2 }

def parseFrontend (packet : NumPacket) : Proxy Ssh :=
  { proxy with
    ssh := (parse proxy.ssh .server packet).1
    frontend := proxy.frontend.parse packet }

def parseBackend (packet : NumPacket) : Proxy Ssh :=
  { proxy with
    ssh := (parse proxy.ssh .client packet).1
    backend := proxy.backend.parse packet }

def flushBackend : Proxy Ssh :=
  let flushed := proxy.backend.flush parse .client proxy.ssh
  { proxy with ssh := flushed.2.1, backend := flushed.1 }

def frontendBuffer (packet : NumPacket) : Proxy Ssh :=
  if ¬ proxy.backendConnected then { proxy with frontend := proxy.frontend.delay packet }
  else if 0 < proxy.frontend.delayedPackets.length then
    { proxy with frontend := proxy.frontend.delay packet }
  else proxy.parseFrontend parse packet

def backendBuffer (packet : NumPacket) : Proxy Ssh :=
  if ¬ proxy.frontendAuthenticated then { proxy with backend := proxy.backend.delay packet }
  else if 0 < proxy.backend.delayedPackets.length then
    { proxy with backend := proxy.backend.delay packet }.flushBackend parse
  else proxy.parseBackend parse packet

/-- `FrontendSSHTransport.dispatchMessage`. Service requests, authentication and key exchange
are dealt with by the transport itself. -/
def dispatchFrontend (encrypted : Bool) (packet : NumPacket) : Proxy Ssh :=
  if packet.messageNum = 5 then proxy
  else if 50 ≤ packet.messageNum ∧ packet.messageNum ≤ 79 then
    { proxy with frontendAuthenticated := false }
  else if encrypted then proxy.frontendBuffer parse packet
  else proxy

def dispatchBackend (encrypted : Bool) (packet : NumPacket) : Proxy Ssh :=
  if packet.messageNum = 6 ∨ packet.messageNum = 52 then proxy
  else if encrypted then proxy.backendBuffer parse packet
  else proxy

def finishedAuth : Proxy Ssh :=
  let proxy := { proxy with frontendAuthenticated := true }
  if proxy.client then proxy.authenticateBackend parse else proxy

def connectionSecure : Proxy Ssh := { proxy with canAuth := true }.authenticateBackend parse

/-- An exception goes to the reactor or to the errbacks of the authentication; what was done
before it stays. -/
def step (proxy : Proxy Ssh) : ProxyEvent → Option (Proxy Ssh)
  | .frontend encrypted packet => some (proxy.dispatchFrontend parse encrypted packet)
  | .finishedAuth => some (proxy.finishedAuth parse)
  | .connectBackend => some { proxy with client := true }
  | .connectionSecure => if proxy.client then some (proxy.connectionSecure parse) else none
  | .backend encrypted packet =>
      if proxy.client then some (proxy.dispatchBackend parse encrypted packet) else none

/-- Packets are parsed once and in order, and none is delayed once both sides are
authenticated. -/
structure Delivered (proxy : Proxy Ssh) : Prop where
  frontend : proxy.frontend.Ordered
  backend : proxy.backend.Ordered
  flushed : proxy.frontendAuthenticated → proxy.authDone →
    proxy.frontend.delayedPackets = [] ∧ proxy.backend.delayedPackets = []

def Delivers (proxy : Proxy Ssh) (event : ProxyEvent) : Prop :=
  ∀ next, proxy.step parse event = some next → next.Delivered

/-- Both sides are authenticated now: the backend has sent nothing that is delayed, and no
packet that the client has sent raises when it is parsed. -/
def Ready (proxy : Proxy Ssh) : Prop :=
  proxy.backend.delayedPackets = [] ∧
    ¬ Raises parse .server proxy.ssh proxy.frontend.delayedPackets

/-- Authentication is finished on both sides only where both are ready, and a packet of the
backend that comes behind delayed ones raises as little as these when they are parsed. -/
def Timely (proxy : Proxy Ssh) : ProxyEvent → Prop
  | .finishedAuth => proxy.client → proxy.canAuth → proxy.Ready parse
  | .connectionSecure => proxy.client → proxy.frontendAuthenticated → proxy.Ready parse
  | .backend encrypted packet =>
      proxy.client → packet.messageNum ≠ 6 → packet.messageNum ≠ 52 → encrypted →
        proxy.frontendAuthenticated → proxy.backend.delayedPackets ≠ [] →
          ¬ Raises parse .client proxy.ssh (proxy.backend.delayedPackets ++ [packet])
  | _ => True

/-! ## Steps -/

structure Arranged (proxy : Proxy Ssh) : Prop where
  frontend : proxy.frontend.Kept
  backend : proxy.backend.Kept
  authDone : proxy.authDone → proxy.backendConnected
  canAuth : proxy.backendConnected → proxy.canAuth
  client : proxy.canAuth → proxy.client
  flushed : proxy.backendConnected → proxy.frontend.broken = false →
    proxy.authDone ∧ proxy.frontend.delayedPackets = []

/-- No loop was ended by an exception, and once both sides are authenticated nothing from the
backend is delayed. -/
structure Clear (proxy : Proxy Ssh) : Prop where
  frontend : proxy.frontend.broken = false
  backend : proxy.backend.broken = false
  flushed : proxy.frontendAuthenticated → proxy.authDone → proxy.backend.delayedPackets = []

variable {parse proxy} {next : Proxy Ssh}

theorem Arranged.delivered_iff (arranged : proxy.Arranged) : proxy.Delivered ↔ proxy.Clear := by
  constructor
  · rintro ⟨frontend, backend, flushed⟩
    exact ⟨arranged.frontend.ordered_iff.mp frontend, arranged.backend.ordered_iff.mp backend,
      fun authenticated done => (flushed authenticated done).2⟩
  · intro clear
    refine ⟨arranged.frontend.ordered clear.frontend, arranged.backend.ordered clear.backend, ?_⟩
    intro authenticated done
    exact ⟨(arranged.flushed (arranged.authDone done) clear.frontend).2,
      clear.flushed authenticated done⟩

namespace Arranged

theorem start (ssh : Ssh) : ({ ssh } : Proxy Ssh).Arranged :=
  ⟨.start, .start, nofun, nofun, nofun, nofun⟩

theorem delayFrontend (arranged : proxy.Arranged) (packet : NumPacket)
    (delays : proxy.backendConnected → proxy.frontend.broken = true) :
    ({ proxy with frontend := proxy.frontend.delay packet } : Proxy Ssh).Arranged where
  frontend := arranged.frontend.delay
  backend := arranged.backend
  authDone := arranged.authDone
  canAuth := arranged.canAuth
  client := arranged.client
  flushed connected whole := by
    rw [Queue.delay, delays connected] at whole
    cases whole

theorem frontendBuffer (arranged : proxy.Arranged) (packet : NumPacket) :
    (proxy.frontendBuffer parse packet).Arranged := by
  rw [Proxy.frontendBuffer]
  split
  · next unconnected =>
      exact arranged.delayFrontend packet fun connected => absurd connected unconnected
  · next connected =>
      split
      · next some =>
          refine arranged.delayFrontend packet fun connected => ?_
          by_contra whole
          rw [Bool.not_eq_true] at whole
          rw [(arranged.flushed connected whole).2] at some
          exact absurd some (Nat.lt_irrefl 0)
      · next few =>
          have nothing := List.length_eq_zero_iff.mp (Nat.eq_zero_of_not_pos few)
          exact ⟨arranged.frontend.parse nothing, arranged.backend, arranged.authDone,
            arranged.canAuth, arranged.client, arranged.flushed⟩

theorem dispatchFrontend (arranged : proxy.Arranged) (encrypted : Bool) (packet : NumPacket) :
    (proxy.dispatchFrontend parse encrypted packet).Arranged := by
  rw [Proxy.dispatchFrontend]
  split
  · exact arranged
  · split
    · exact ⟨arranged.frontend, arranged.backend, arranged.authDone, arranged.canAuth,
        arranged.client, arranged.flushed⟩
    · split
      · exact arranged.frontendBuffer packet
      · exact arranged

theorem withBackend (arranged : proxy.Arranged) {backend : Queue} (kept : backend.Kept)
    (ssh : Ssh) : ({ proxy with ssh, backend } : Proxy Ssh).Arranged :=
  ⟨arranged.frontend, kept, arranged.authDone, arranged.canAuth, arranged.client,
    arranged.flushed⟩

theorem dispatchBackend (arranged : proxy.Arranged) (encrypted : Bool) (packet : NumPacket) :
    (proxy.dispatchBackend parse encrypted packet).Arranged := by
  rw [Proxy.dispatchBackend]
  split
  · exact arranged
  · split
    · rw [backendBuffer]
      split
      · exact arranged.withBackend arranged.backend.delay _
      · split
        · exact arranged.withBackend arranged.backend.delay.flush _
        · next few =>
            have nothing := List.length_eq_zero_iff.mp (Nat.eq_zero_of_not_pos few)
            exact arranged.withBackend (arranged.backend.parse nothing) _
    · exact arranged

theorem authenticateBackend (arranged : proxy.Arranged) :
    (proxy.authenticateBackend parse).Arranged := by
  rw [Proxy.authenticateBackend]
  split
  · exact arranged
  · next ready =>
      rw [not_or, not_not, not_not] at ready
      refine ⟨arranged.frontend.flush, arranged.backend, fun _ => rfl, fun _ => ready.2,
        arranged.client, fun _ whole => ?_⟩
      have quiet : (proxy.frontend.flush parse .server proxy.ssh).2.2 = false :=
        (Bool.or_eq_false_iff.mp whole).2
      refine ⟨?_, if_neg (Bool.eq_false_iff.mp quiet)⟩
      dsimp only
      rw [quiet]
      exact Bool.or_true _

theorem authenticated (arranged : proxy.Arranged) :
    ({ proxy with frontendAuthenticated := true } : Proxy Ssh).Arranged :=
  ⟨arranged.frontend, arranged.backend, arranged.authDone, arranged.canAuth, arranged.client,
    arranged.flushed⟩

theorem secured (arranged : proxy.Arranged) (client : proxy.client) :
    ({ proxy with canAuth := true } : Proxy Ssh).Arranged :=
  ⟨arranged.frontend, arranged.backend, arranged.authDone, fun _ => rfl, fun _ => client,
    arranged.flushed⟩

theorem step (arranged : proxy.Arranged) {event : ProxyEvent}
    (taken : proxy.step parse event = some next) : next.Arranged := by
  cases event with
  | frontend encrypted packet =>
      cases taken
      exact arranged.dispatchFrontend encrypted packet
  | finishedAuth =>
      cases taken
      rw [finishedAuth]
      dsimp only
      split
      · exact arranged.authenticated.authenticateBackend
      · exact arranged.authenticated
  | connectBackend =>
      cases taken
      exact ⟨arranged.frontend, arranged.backend, arranged.authDone, arranged.canAuth,
        fun _ => rfl, arranged.flushed⟩
  | connectionSecure =>
      rw [Proxy.step] at taken
      split at taken
      · next client =>
          cases taken
          exact (arranged.secured client).authenticateBackend
      · cases taken
  | backend encrypted packet =>
      rw [Proxy.step] at taken
      split at taken
      · cases taken
        exact arranged.dispatchBackend encrypted packet
      · cases taken

theorem clear_authenticateBackend (arranged : proxy.Arranged)
    (frontend : proxy.frontend.broken = false) (backend : proxy.backend.broken = false) :
    (proxy.authenticateBackend parse).Clear ↔
      (proxy.frontendAuthenticated → proxy.canAuth → proxy.Ready parse) := by
  rw [Proxy.authenticateBackend]
  split
  · next waits =>
      constructor
      · intro _ isAuthenticated can
        rcases waits with unauthenticated | cannot
        · exact absurd isAuthenticated unauthenticated
        · exact absurd can cannot
      · intro timely
        refine ⟨frontend, backend, fun isAuthenticated done => ?_⟩
        exact (timely isAuthenticated (arranged.canAuth (arranged.authDone done))).1
  · next ready =>
      rw [not_or, not_not, not_not] at ready
      constructor
      · intro clear _ _
        have whole := clear.frontend
        have quiet : (proxy.frontend.flush parse .server proxy.ssh).2.2 = false :=
          (Bool.or_eq_false_iff.mp whole).2
        have done : (proxy.authDone || !(proxy.frontend.flush parse .server proxy.ssh).2.2) = true := by
          rw [quiet]
          exact Bool.or_true _
        exact ⟨clear.flushed ready.1 done, Bool.eq_false_iff.mp quiet⟩
      · intro timely
        rcases timely ready.1 ready.2 with ⟨nothing, quiet⟩
        rw [Raises, Bool.not_eq_true] at quiet
        exact ⟨Bool.or_eq_false_iff.mpr ⟨frontend, quiet⟩, backend, fun _ _ => nothing⟩

theorem clear_dispatchFrontend (clear : proxy.Clear) (encrypted : Bool) (packet : NumPacket) :
    (proxy.dispatchFrontend parse encrypted packet).Clear := by
  have delayed : ({ proxy with frontend := proxy.frontend.delay packet } : Proxy Ssh).Clear :=
    ⟨clear.frontend, clear.backend, clear.flushed⟩
  rw [Proxy.dispatchFrontend]
  split
  · exact clear
  · split
    · exact ⟨clear.frontend, clear.backend, nofun⟩
    · split
      · rw [Proxy.frontendBuffer]
        split
        · exact delayed
        · split
          · exact delayed
          · exact ⟨clear.frontend, clear.backend, clear.flushed⟩
      · exact clear

theorem clear_flushBackend (clear : proxy.Clear) (packet : NumPacket) :
    (({ proxy with backend := proxy.backend.delay packet } : Proxy Ssh).flushBackend parse).Clear ↔
      ¬ Raises parse .client proxy.ssh (proxy.backend.delayedPackets ++ [packet]) := by
  constructor
  · intro after
    exact Bool.eq_false_iff.mp (Bool.or_eq_false_iff.mp after.backend).2
  · intro quiet
    rw [Raises, Bool.not_eq_true] at quiet
    refine ⟨clear.frontend, Bool.or_eq_false_iff.mpr ⟨clear.backend, quiet⟩, fun _ _ => ?_⟩
    exact if_neg (Bool.eq_false_iff.mp quiet)

theorem clear_dispatchBackend (clear : proxy.Clear) (encrypted : Bool) (packet : NumPacket) :
    (proxy.dispatchBackend parse encrypted packet).Clear ↔
      (packet.messageNum ≠ 6 → packet.messageNum ≠ 52 → encrypted → proxy.frontendAuthenticated →
        proxy.backend.delayedPackets ≠ [] →
          ¬ Raises parse .client proxy.ssh (proxy.backend.delayedPackets ++ [packet])) := by
  rw [Proxy.dispatchBackend]
  split
  · next consumed =>
      refine ⟨fun _ not6 not52 => ?_, fun _ => clear⟩
      rcases consumed with is6 | is52
      · exact absurd is6 not6
      · exact absurd is52 not52
  · next passed =>
      rw [not_or] at passed
      split
      · next isEncrypted =>
          rw [backendBuffer]
          split
          · next unauthenticated =>
              constructor
              · intro _ _ _ _ isAuthenticated
                exact absurd isAuthenticated unauthenticated
              · intro _
                exact ⟨clear.frontend, clear.backend,
                  fun isAuthenticated => absurd isAuthenticated unauthenticated⟩
          · next isAuthenticated =>
              split
              · next some =>
                  rw [clear_flushBackend clear]
                  exact ⟨fun quiet _ _ _ _ _ => quiet, fun quiet => quiet passed.1 passed.2
                    isEncrypted (not_not.mp isAuthenticated) (List.length_pos_iff.mp some)⟩
              · next few =>
                  have nothing := List.length_eq_zero_iff.mp (Nat.eq_zero_of_not_pos few)
                  exact ⟨fun _ _ _ _ _ more => absurd nothing more,
                    fun _ => ⟨clear.frontend, clear.backend, clear.flushed⟩⟩
      · next plain =>
          exact ⟨fun _ _ _ isEncrypted => absurd isEncrypted plain, fun _ => clear⟩

theorem delivers_iff (arranged : proxy.Arranged) (clear : proxy.Clear) (event : ProxyEvent) :
    proxy.Timely parse event ↔ proxy.Delivers parse event := by
  have delivered : proxy.Delivers parse event ↔
      ∀ next, proxy.step parse event = some next → next.Clear := by
    apply forall_congr'
    intro next
    apply imp_congr_right
    intro taken
    exact (arranged.step taken).delivered_iff
  rw [delivered]
  cases event with
  | frontend encrypted packet =>
      refine ⟨?_, fun _ => trivial⟩
      intro _ next taken
      cases taken
      exact clear_dispatchFrontend clear encrypted packet
  | finishedAuth =>
      have next : (proxy.finishedAuth parse).Clear ↔ proxy.Timely parse .finishedAuth := by
        rw [finishedAuth]
        dsimp only
        split
        · next client =>
            rw [arranged.authenticated.clear_authenticateBackend clear.frontend clear.backend]
            exact ⟨fun timely _ can => timely rfl can, fun timely _ can => timely client can⟩
        · next absent =>
            constructor
            · intro _ client
              exact absurd client absent
            · intro _
              refine ⟨clear.frontend, clear.backend, fun _ done => ?_⟩
              exact absurd (arranged.client (arranged.canAuth (arranged.authDone done))) absent
      rw [← next]
      exact ⟨fun clear _ taken => Option.some.inj taken ▸ clear, fun all => all _ rfl⟩
  | connectBackend =>
      refine ⟨?_, fun _ => trivial⟩
      intro _ next taken
      cases taken
      exact ⟨clear.frontend, clear.backend, clear.flushed⟩
  | connectionSecure =>
      rw [Proxy.step]
      constructor
      · intro timely next taken
        split at taken
        · next client =>
            cases taken
            rw [connectionSecure, (arranged.secured client).clear_authenticateBackend
              clear.frontend clear.backend]
            intro isAuthenticated _
            exact timely client isAuthenticated
        · cases taken
      · intro all client isAuthenticated
        have secured := all _ (if_pos client)
        rw [connectionSecure, (arranged.secured client).clear_authenticateBackend
          clear.frontend clear.backend] at secured
        exact secured isAuthenticated rfl
  | backend encrypted packet =>
      rw [Proxy.step]
      constructor
      · intro timely next taken
        split at taken
        · next client =>
            cases taken
            exact (clear_dispatchBackend clear encrypted packet).mpr (timely client)
        · cases taken
      · intro all client
        exact (clear_dispatchBackend clear encrypted packet).mp (all _ (if_pos client))

end Arranged

/-- In any order of events, also where packets raise when they are parsed: no packet of either
side is lost or made up, those that are delayed came last and wait in order, the packets are
parsed once and in order until an exception ends a loop over them, and the backend is connected
only by a secured transport that is there, after which nothing of the client is delayed but
behind such an exception. -/
theorem always_arranged (parse : ParseNumPacket Ssh) (ssh : Ssh) (events : List ProxyEvent) :
    EventRun.Always (step parse) Arranged { ssh } events :=
  EventRun.always_of_invariant Arranged (fun arranged taken => arranged.step taken)
    (.start ssh) events

/-- Packets are delivered all along a run exactly when authentication is only finished with
nothing of the backend delayed, and no delayed packet raises when it is parsed. -/
theorem delivers_along_iff (parse : ParseNumPacket Ssh) (ssh : Ssh) (events : List ProxyEvent) :
    EventRun.Along (step parse) (Delivers parse) { ssh } events ↔
      EventRun.Along (step parse) (Timely parse) { ssh } events := by
  symm
  apply EventRun.along_congr_of_good fun proxy => Arranged proxy ∧ Clear proxy
  · rintro proxy event next ⟨arranged, clear⟩ timely taken
    have after := arranged.step taken
    exact ⟨after, after.delivered_iff.mp ((arranged.delivers_iff clear event).mp timely next taken)⟩
  · rintro proxy event ⟨arranged, clear⟩
    exact arranged.delivers_iff clear event
  · exact ⟨.start ssh, rfl, rfl, nofun⟩

section Examples

def earlyMessage : List ProxyEvent := [.connectBackend, .connectionSecure,
  .backend true { messageNum := 7, payload := [0, 0, 0, 0] }, .finishedAuth]

def silentParser : ParseNumPacket Unit := fun _ _ _ => ((), false)

/-- The message stays behind when both sides are authenticated. -/
theorem early_message_stays :
    ∃ proxy, EventRun.run (step silentParser) { ssh := () } earlyMessage = some proxy ∧
      proxy.frontendAuthenticated = true ∧ proxy.authDone = true ∧
      proxy.backend.delayedPackets = [{ messageNum := 7, payload := [0, 0, 0, 0] }] ∧
      ¬ proxy.Delivered := by
  refine ⟨_, rfl, rfl, rfl, rfl, ?_⟩
  intro delivered
  have nothing := (delivered.flushed rfl rfl).2
  cases nothing

end Examples

end Proxy

end SshProxy

end LlmHoneypot
