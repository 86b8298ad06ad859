import LlmHoneypot.Foundation.IpAddress

/-! # The SSRF gate

`network.py`: which hosts the sensor may contact. -/

namespace LlmHoneypot

namespace Network

open IPAddress

def BLOCKED_IPS : List Str :=
  ["0.0.0.0/8", "10.0.0.0/8", "172.16.0.0/12", "192.168.0.0/16", "169.254.0.0/16",
    "100.100.100.200", "127.0.0.0/8", "0.0.0.0/8", "224.0.0.0/4", "240.0.0.0/4",
    "255.255.255.255", "::1"].map String.toList

/-- The address a host stands for: its own when it is an address, else what the
name resolution `resolve` yields. -/
def vetted (resolve : Str → Option Str) (address : Str) : Option IPAddress :=
  match IPAddress.ofText? address with
  | some ip => some ip
  | none => (resolve address).bind IPAddress.ofText?

def isBlocked (ip : IPAddress) : Bool :=
  BLOCKED_IPS.any fun blocked => (Network.ofText? blocked).any (·.contains ip)

/-- `communication_allowed`; `resolve` is `resolve_cname` under the responses of the
name servers. -/
def communicationAllowed (resolve : Str → Option Str) (address : Str) : Bool :=
  match vetted resolve address with
  | some ip => !isBlocked ip
  | none => false

/-! ## What the blocklist covers -/

private theorem blockedNetworks :
    BLOCKED_IPS.map Network.ofText? =
      [some ⟨.v4 0x00000000, 8⟩, some ⟨.v4 0x0A000000, 8⟩, some ⟨.v4 0xAC100000, 12⟩,
        some ⟨.v4 0xC0A80000, 16⟩, some ⟨.v4 0xA9FE0000, 16⟩, some ⟨.v4 0x646464C8, 32⟩,
        some ⟨.v4 0x7F000000, 8⟩, some ⟨.v4 0x00000000, 8⟩, some ⟨.v4 0xE0000000, 4⟩,
        some ⟨.v4 0xF0000000, 4⟩, some ⟨.v4 0xFFFFFFFF, 32⟩, some ⟨.v6 1, 128⟩] := by
  decide

private theorem isBlocked_eq (ip : IPAddress) :
    isBlocked ip =
      (BLOCKED_IPS.map Network.ofText?).any fun network => network.any (·.contains ip) := by
  rw [isBlocked, List.any_map]
  rfl

theorem isBlocked_v6 (address : BitVec 128) : isBlocked (.v6 address) = decide (address = 1) := by
  rw [isBlocked_eq, blockedNetworks]
  simp [Network.contains, samePrefix, BitVec.toNat_eq, eq_comm]

theorem isBlocked_v4 (address : BitVec 32) (special : (IPAddress.v4 address).isSpecial = true) :
    isBlocked (.v4 address) = true := by
  rw [isBlocked_eq, blockedNetworks]
  simp [isSpecial, SPECIAL_V4, inRange, quad] at special
  simp [Network.contains, samePrefix]
  have bound := address.isLt
  omega

/-! ## The gate -/

/-- A host whose connection would go to a special range is refused. -/
def RefusesSpecial (resolve : Str → Option Str) (address : Str) : Prop :=
  ∀ ip, vetted resolve address = some ip → ip.reachesSpecial = true →
    communicationAllowed resolve address = false

/-- Two hosts that a connection reaches at one address get one verdict. -/
def SameVerdict (resolve : Str → Option Str) (first second : Str) : Prop :=
  ∀ ip other, vetted resolve first = some ip → vetted resolve second = some other →
    ip.destination = other.destination →
      communicationAllowed resolve first = communicationAllowed resolve second

/-- `first` is a blocklisted IPv4 address and `second` embeds it in IPv6. -/
def BlockedAndEmbedded (resolve : Str → Option Str) (first second : Str) : Prop :=
  ∃ address form, vetted resolve first = some (.v4 address) ∧
    vetted resolve second = some (.v6 form) ∧ embedded? form = some address ∧
    isBlocked (.v4 address) = true

theorem communicationAllowed_vetted {resolve : Str → Option Str} {address : Str}
    {ip : IPAddress} (found : vetted resolve address = some ip) :
    communicationAllowed resolve address = !isBlocked ip := by
  simp [communicationAllowed, found]

theorem refusesSpecial_iff (resolve : Str → Option Str) (address : Str) :
    RefusesSpecial resolve address ↔
      ∀ form, vetted resolve address = some (.v6 form) → form ≠ 1 →
        (IPAddress.v6 form).reachesSpecial = false := by
  constructor
  · intro refuses form found notLoopback
    rw [Bool.eq_false_iff]
    intro special
    have refused := refuses _ found special
    rw [communicationAllowed_vetted found, isBlocked_v6, decide_eq_false notLoopback] at refused
    cases refused
  · intro outside ip found special
    rw [communicationAllowed_vetted found]
    cases ip with
    | v4 address => simp [isBlocked_v4 address special]
    | v6 form =>
        by_cases loopback : form = 1
        · simp [isBlocked_v6, loopback]
        · simp [outside form found loopback] at special

theorem destination_v6 {form : BitVec 128} {address : BitVec 32}
    (same : (IPAddress.v6 form).destination = .v4 address) : embedded? form = some address := by
  simp only [destination] at same
  split at same
  · cases same
    assumption
  · cases same

theorem isBlocked_of_embedded {form : BitVec 128} {address : BitVec 32}
    (embeds : embedded? form = some address) : isBlocked (.v6 form) = false := by
  rw [isBlocked_v6, decide_eq_false]
  rintro rfl
  have nothing : embedded? 1 = none := by decide
  rw [nothing] at embeds
  cases embeds

theorem sameVerdict_iff (resolve : Str → Option Str) (first second : Str) :
    SameVerdict resolve first second ↔
      ¬ BlockedAndEmbedded resolve first second ∧
        ¬ BlockedAndEmbedded resolve second first := by
  have differ {first second : Str} (both : BlockedAndEmbedded resolve first second) :
      ∃ ip other, vetted resolve first = some ip ∧ vetted resolve second = some other ∧
        ip.destination = other.destination ∧
        communicationAllowed resolve first = false ∧
        communicationAllowed resolve second = true := by
    rcases both with ⟨address, form, found, foundForm, embeds, blocked⟩
    refine ⟨_, _, found, foundForm, by simp [destination, embeds], ?_, ?_⟩
    · simp [communicationAllowed_vetted found, blocked]
    · simp [communicationAllowed_vetted foundForm, isBlocked_of_embedded embeds]
  constructor
  · intro same
    constructor
    · intro both
      rcases differ both with ⟨ip, other, found, foundOther, destination, refused, allowed⟩
      have equal := same ip other found foundOther destination
      simp [refused, allowed] at equal
    · intro both
      rcases differ both with ⟨ip, other, found, foundOther, destination, refused, allowed⟩
      have equal := same other ip foundOther found destination.symm
      simp [refused, allowed] at equal
  · rintro ⟨forward, backward⟩ ip other found foundOther same
    rw [communicationAllowed_vetted found, communicationAllowed_vetted foundOther]
    congr 1
    cases ip with
    | v4 address =>
        cases other with
        | v4 address' =>
            cases same
            rfl
        | v6 form =>
            have embeds := destination_v6 same.symm
            rw [isBlocked_of_embedded embeds, Bool.eq_false_iff]
            exact fun blocked => forward ⟨address, form, found, foundOther, embeds, blocked⟩
    | v6 form =>
        cases other with
        | v4 address =>
            have embeds := destination_v6 same
            rw [isBlocked_of_embedded embeds, eq_comm, Bool.eq_false_iff]
            exact fun blocked => backward ⟨address, form, foundOther, found, embeds, blocked⟩
        | v6 form' =>
            cases embeds : embedded? form with
            | some address =>
                have embeds' : embedded? form' = some address :=
                  destination_v6 (by rw [← same]; simp [destination, embeds])
                rw [isBlocked_of_embedded embeds, isBlocked_of_embedded embeds']
            | none =>
                cases embeds' : embedded? form' with
                | some address => simp [destination, embeds, embeds'] at same
                | none =>
                    have equal : form = form' := by
                      simpa [destination, embeds, embeds'] using same
                    rw [equal]

/-- The gate is sound for every host but an IPv6 address other than `::1` that leads
to a special range, and two spellings of one destination get different verdicts only
as a blocklisted IPv4 address and an IPv6 form that embeds it. -/
theorem gate_sound_iff (resolve : Str → Option Str) :
    (∀ address, RefusesSpecial resolve address ↔
      ∀ form, vetted resolve address = some (.v6 form) → form ≠ 1 →
        (IPAddress.v6 form).reachesSpecial = false) ∧
    ∀ first second, SameVerdict resolve first second ↔
      ¬ BlockedAndEmbedded resolve first second ∧
        ¬ BlockedAndEmbedded resolve second first :=
  ⟨refusesSpecial_iff resolve, sameVerdict_iff resolve⟩

/-- `::ffff:127.0.0.1` is the loopback address and passes the gate. -/
theorem mapped_loopback_allowed : ¬ ∀ resolve address, RefusesSpecial resolve address := by
  intro all
  have refused := all (fun _ => none) "::ffff:127.0.0.1".toList (.v6 0xFFFF7F000001#128)
    (by decide) (by decide)
  revert refused
  decide

end Network

end LlmHoneypot
