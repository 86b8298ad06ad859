import LlmHoneypot.Network

/-! # Vetting a name

`resolve_cname` of `network.py`, under name servers that answer as they like. -/

namespace LlmHoneypot

namespace Network

inductive Query
  | text (address : Str)
  | name (target : Str)
  deriving DecidableEq

inductive Payload
  | a (dottedQuad : Str)
  | aaaa (address : BitVec 128)
  | cname (target : Str)
  | other
  deriving DecidableEq

/-- The answer to a query after the given ones; none for a failed lookup. -/
abbrev Responder := List Query → Query → Option (List Payload)

structure Lookups where
  visited : List Query
  log : List Query

def Lookups.start : Lookups := ⟨[], []⟩

def Lookups.enter (lookups : Lookups) (address : Query) : Lookups :=
  { lookups with visited := address :: lookups.visited }

def Lookups.ask (lookups : Lookups) (address : Query) : Lookups :=
  { lookups with log := lookups.log ++ [address] }

/-- What a resolution returns; none while it has not returned. -/
abbrev Resolution := Option (Option Str × Lookups)

def scan (resolve : Query → Lookups → Resolution) : List Payload → Lookups → Resolution
  | [], lookups => some (none, lookups)
  | .cname target :: rest, lookups =>
    (resolve (.name target) lookups).bind fun resolved =>
      if (resolved.1.getD []).isEmpty then scan resolve rest resolved.2 else some resolved
  | .a dottedQuad :: _, lookups => some (some dottedQuad, lookups)
  -- `Record_AAAA` has no `dottedQuad`; the error ends the resolution.
  | .aaaa _ :: _, lookups => some (none, lookups)
  | .other :: rest, lookups => scan resolve rest lookups

/-- Whether `lookupAddress` raises before it asks: as documented it takes text only,
and `takesNames` is a library that takes `Name` objects as well. -/
def refuses (takesNames : Bool) : Query → Bool
  | .text _ => false
  | .name _ => !takesNames

/-- `resolve_cname`; the first argument bounds the depth of the recursion. -/
def resolveCname (takesNames : Bool) (responder : Responder) :
    Nat → Query → Lookups → Resolution
  | 0, _, _ => none
  | fuel + 1, address, lookups =>
    if address ∈ lookups.visited then
      some (none, lookups)
    else if refuses takesNames address then
      some (none, lookups.enter address)
    else
      ((responder lookups.log address).map fun headers =>
        scan (resolveCname takesNames responder fuel) headers
          ((lookups.enter address).ask address)).getD
        (some (none, (lookups.enter address).ask address))

def vet (takesNames : Bool) (responder : Responder) (fuel : Nat) (address : Str) :
    Option (Bool × Lookups) :=
  if (IPAddress.ofText? address).isSome then
    some (communicationAllowed (fun _ => none) address, .start)
  else
    (resolveCname takesNames responder fuel (.text address) .start).map fun resolved =>
      (communicationAllowed (fun _ => resolved.1) address, resolved.2)

theorem resolveCname_asked {takesNames : Bool} {responder : Responder} (fuel : Nat)
    (address : Query) (lookups : Lookups) (unseen : address ∉ lookups.visited)
    (accepted : refuses takesNames address = false) {reply : Option (List Payload)}
    (answer : responder lookups.log address = reply) :
    resolveCname takesNames responder (fuel + 1) address lookups =
      (reply.map fun headers => scan (resolveCname takesNames responder fuel) headers
        ((lookups.enter address).ask address)).getD
      (some (none, (lookups.enter address).ask address)) := by
  rw [resolveCname, if_neg unseen, if_neg (Bool.not_eq_true _ ▸ accepted), answer]

/-! ## The lookups made -/

/-- Some number of lookups suffices, whatever the answers. -/
def Bounded (takesNames : Bool) : Prop :=
  ∃ depth bound, ∀ responder address fuel, depth ≤ fuel → ∃ verdict lookups,
    vet takesNames responder fuel address = some (verdict, lookups) ∧
      lookups.log.length ≤ bound

theorem name_refused (responder : Responder) (fuel : Nat) (target : Str) (lookups : Lookups) :
    ∃ after, resolveCname false responder (fuel + 1) (.name target) lookups =
      some (none, after) ∧ after.log = lookups.log := by
  by_cases seen : Query.name target ∈ lookups.visited
  · exact ⟨lookups, by simp [resolveCname, seen], rfl⟩
  · exact ⟨lookups.enter (.name target), by simp [resolveCname, seen, refuses], rfl⟩

theorem scan_refused {resolve : Query → Lookups → Resolution}
    (refused : ∀ target lookups, ∃ after,
      resolve (.name target) lookups = some (none, after) ∧ after.log = lookups.log)
    (headers : List Payload) (lookups : Lookups) :
    ∃ resolved after, scan resolve headers lookups = some (resolved, after) ∧
      after.log = lookups.log ∧ ∀ text, resolved = some text → Payload.a text ∈ headers := by
  induction headers generalizing lookups with
  | nil => exact ⟨none, lookups, rfl, rfl, by simp⟩
  | cons payload rest induction =>
    cases payload with
    | a dottedQuad => exact ⟨some dottedQuad, lookups, rfl, rfl, by simp⟩
    | aaaa address => exact ⟨none, lookups, rfl, rfl, by simp⟩
    | cname target =>
      obtain ⟨passed, nested, same⟩ := refused target lookups
      obtain ⟨resolved, after, scanned, kept, found⟩ := induction passed
      refine ⟨resolved, after, ?_, kept.trans same, fun text equal => ?_⟩
      · rw [scan, nested]
        exact scanned
      · exact List.mem_cons_of_mem _ (found text equal)
    | other =>
      obtain ⟨resolved, after, scanned, kept, found⟩ := induction lookups
      exact ⟨resolved, after, scanned, kept, fun text equal =>
        List.mem_cons_of_mem _ (found text equal)⟩

def FoundAddress (responder : Responder) (address : Str) : Prop :=
  ∃ headers text, responder [] (.text address) = some headers ∧ Payload.a text ∈ headers

theorem resolve_refused (responder : Responder) (fuel : Nat) (address : Str) :
    ∃ resolved after,
      resolveCname false responder (fuel + 2) (.text address) .start = some (resolved, after) ∧
        after.log = [.text address] ∧ (resolved ≠ none → FoundAddress responder address) := by
  let asked := (Lookups.start.enter (.text address)).ask (.text address)
  cases answer : responder [] (.text address) with
  | none =>
    exact ⟨none, asked, resolveCname_asked _ _ .start List.not_mem_nil rfl answer, rfl,
      fun found => absurd rfl found⟩
  | some headers =>
    obtain ⟨resolved, after, scanned, kept, found⟩ :=
      scan_refused (name_refused responder fuel) headers asked
    have returned := (resolveCname_asked _ _ .start List.not_mem_nil rfl answer).trans scanned
    refine ⟨resolved, after, returned, kept, fun isSome => ?_⟩
    obtain ⟨text, equal⟩ := Option.ne_none_iff_exists'.mp isSome
    exact ⟨headers, text, answer, found text equal⟩

theorem vet_refused (responder : Responder) (fuel : Nat) (address : Str) :
    ∃ verdict lookups, vet false responder (fuel + 2) address = some (verdict, lookups) ∧
      lookups.log.length ≤ 1 ∧
      (verdict = true →
        (IPAddress.ofText? address).isSome ∨ FoundAddress responder address) := by
  by_cases literal : (IPAddress.ofText? address).isSome
  · exact ⟨_, Lookups.start, by rw [vet, if_pos literal], Nat.zero_le 1, fun _ => .inl literal⟩
  obtain ⟨resolved, after, returned, logged, found⟩ := resolve_refused responder fuel address
  refine ⟨communicationAllowed (fun _ => resolved) address, after, ?_, ?_, fun allowed => ?_⟩
  · rw [vet, if_neg literal, returned]
    rfl
  · rw [logged]
    exact Nat.le_refl 1
  · refine .inr (found fun missing => ?_)
    rw [Option.not_isSome_iff_eq_none] at literal
    rw [communicationAllowed, vetted, literal, missing] at allowed
    exact Bool.noConfusion allowed

def endless : Responder := fun log _ => some [.cname (List.replicate log.length 'a')]

theorem endless_runs (fuel : Nat) (target : Str) (lookups : Lookups)
    (fresh : target.length + 1 = lookups.log.length)
    (older : ∀ seen, Query.name seen ∈ lookups.visited →
      seen.length + 1 < lookups.log.length) :
    resolveCname true endless fuel (.name target) lookups = none := by
  induction fuel generalizing target lookups with
  | zero => rfl
  | succ fuel induction =>
    have unseen : Query.name target ∉ lookups.visited := fun seen => by
      have := older target seen
      omega
    have nested := induction (List.replicate lookups.log.length 'a')
      ((lookups.enter (.name target)).ask (.name target))
      (by simp [Lookups.ask, Lookups.enter])
      (fun seen member => by
        simp only [Lookups.ask, Lookups.enter, List.length_append, List.length_singleton,
          List.mem_cons, Query.name.injEq] at member ⊢
        rcases member with rfl | member
        · omega
        · have := older seen member
          omega)
    rw [resolveCname_asked fuel _ _ unseen rfl rfl]
    exact congrArg (Option.bind · _) nested

theorem endless_vetting (fuel : Nat) : vet true endless fuel ['a'] = none := by
  rw [vet, if_neg (by decide), Option.map_eq_none_iff]
  cases fuel with
  | zero => rfl
  | succ fuel =>
    have nested := endless_runs fuel [] ((Lookups.start.enter (.text ['a'])).ask (.text ['a']))
      rfl (by simp [Lookups.start, Lookups.enter, Lookups.ask])
    rw [resolveCname_asked fuel _ _ List.not_mem_nil rfl rfl]
    exact congrArg (Option.bind · _) nested

theorem bounded_iff (takesNames : Bool) : Bounded takesNames ↔ takesNames = false := by
  cases takesNames with
  | false =>
    refine ⟨fun _ => rfl, fun _ => ⟨2, 1, fun responder address fuel enough => ?_⟩⟩
    obtain ⟨fuel, rfl⟩ := Nat.exists_eq_add_of_le' enough
    obtain ⟨verdict, lookups, returned, few, -⟩ := vet_refused responder fuel address
    exact ⟨verdict, lookups, returned, few⟩
  | true =>
    refine ⟨fun bounded => ?_, fun equal => Bool.noConfusion equal⟩
    obtain ⟨depth, bound, returns⟩ := bounded
    obtain ⟨verdict, lookups, returned, -⟩ := returns endless ['a'] depth (Nat.le_refl depth)
    rw [endless_vetting] at returned
    cases returned

/-! ## A name and its address -/

/-- A record in the answer for a name, or behind the CNAME records in it; the first
argument is what was looked up on the way. -/
inductive Reaches (responder : Responder) (payload : Payload) : List Query → Query → Prop
  | record {log query headers} : responder log query = some headers → payload ∈ headers →
      Reaches responder payload log query
  | behind {log query headers target} : responder log query = some headers →
      Payload.cname target ∈ headers → Reaches responder payload (log ++ [query]) (.name target) →
      Reaches responder payload log query

/-- A name whose only address is the one of an AAAA record. -/
structure OnlyAddress (responder : Responder) (address : Str) (form : BitVec 128) : Prop where
  named : IPAddress.ofText? address = none
  leads : Reaches responder (.aaaa form) [] (.text address)
  noOther : ∀ other, Reaches responder (.aaaa other) [] (.text address) → other = form
  noIpv4 : ∀ text, ¬ Reaches responder (.a text) [] (.text address)

/-- One lookup at most, approval of an address or of a name with an address record, and
the verdict on a name with one IPv6 address that on the address itself. -/
def Sound (responder : Responder) (address : Str) : Prop :=
  ∀ fuel, ∃ verdict lookups, vet false responder (fuel + 2) address = some (verdict, lookups) ∧
    lookups.log.length ≤ 1 ∧
    (verdict = true → (IPAddress.ofText? address).isSome ∨ FoundAddress responder address) ∧
    ∀ form literal, IPAddress.ofText? literal = some (.v6 form) →
      OnlyAddress responder address form →
      verdict = communicationAllowed (fun _ => none) literal

theorem literal_allowed {literal : Str} {form : BitVec 128}
    (parsed : IPAddress.ofText? literal = some (.v6 form)) :
    communicationAllowed (fun _ => none) literal = decide (form ≠ 1) := by
  simp [communicationAllowed, vetted, parsed, isBlocked_v6]

theorem OnlyAddress.refused {responder : Responder} {address : Str} {form : BitVec 128}
    (only : OnlyAddress responder address form) {verdict : Bool}
    (approved : verdict = true →
      (IPAddress.ofText? address).isSome ∨ FoundAddress responder address) :
    verdict = false := by
  refine Bool.eq_false_iff.mpr fun allowed => ?_
  rcases approved allowed with literal | ⟨headers, text, answer, found⟩
  · rw [only.named] at literal
    exact Bool.noConfusion literal
  · exact only.noIpv4 text (.record answer found)

/-- The lookups are bounded as `lookupAddress` takes no `Name` object, and of the names
with one IPv6 address those of the loopback address alone get its verdict. -/
theorem vetting_iff (takesNames : Bool) :
    (Bounded takesNames ↔ takesNames = false) ∧
      ∀ responder address, Sound responder address ↔
        ∀ form literal, IPAddress.ofText? literal = some (.v6 form) →
          OnlyAddress responder address form → form = 1 := by
  refine ⟨bounded_iff takesNames, fun responder address => ⟨fun sound => ?_, fun loopback => ?_⟩⟩
  · intro form literal parsed only
    obtain ⟨verdict, lookups, -, -, approved, same⟩ := sound 0
    have verdictSame := same form literal parsed only
    rw [only.refused approved, literal_allowed parsed] at verdictSame
    simpa using verdictSame
  · intro fuel
    obtain ⟨verdict, lookups, returned, few, approved⟩ := vet_refused responder fuel address
    refine ⟨verdict, lookups, returned, few, approved, fun form literal parsed only => ?_⟩
    rw [only.refused approved, literal_allowed parsed]
    simpa using loopback form literal parsed only

/-- A name with the address `2001:4860:4860::8888` is refused, the address itself is not. -/
theorem public_refused : ¬ ∀ responder address, Sound responder address := by
  intro sound
  let answers : Responder := fun _ _ => some [.aaaa 0x20014860486000000000000000008888]
  obtain ⟨verdict, lookups, returned, -, -, same⟩ := sound answers "dns.example".toList 0
  have alone : ∀ payload log query, Reaches answers payload log query →
      payload = .aaaa 0x20014860486000000000000000008888 := by
    intro payload log query reached
    induction reached with
    | record answer member =>
      cases answer
      exact List.mem_singleton.mp member
    | behind _ _ _ induction => exact induction
  have only : OnlyAddress answers "dns.example".toList 0x20014860486000000000000000008888 :=
    ⟨by decide, .record rfl (List.mem_singleton.mpr rfl),
      fun other reached => Payload.aaaa.inj (alone _ _ _ reached),
      fun text reached => Payload.noConfusion (alone _ _ _ reached)⟩
  have refused : (vet false answers 2 "dns.example".toList).map Prod.fst = some false := by decide
  have allowed : communicationAllowed (fun _ => none) "2001:4860:4860::8888".toList = true := by
    decide
  have verdictSame := same _ "2001:4860:4860::8888".toList (by decide) only
  rw [returned, verdictSame, allowed] at refused
  exact Bool.noConfusion (Option.some.inj refused)

end Network

end LlmHoneypot
