import LlmHoneypot.Downloader.Fetch
import LlmHoneypot.Network

/-! # Hosts contacted by an HTTP fetch

`_fetch_http` and `_do_treq_fetch`: the check of the host and the connections that
the HTTP client makes after it. -/

namespace LlmHoneypot

namespace Downloader

open Network

structure Contact where
  host : Str
  address : IPAddress
  deriving DecidableEq, Repr

/-- How the network treats one connection: where the name leads when it is dialled,
and whether the answer redirects. -/
structure Answer where
  address : IPAddress
  location : Option Str := none
  deriving DecidableEq, Repr

inductive FetchEvent
  | checked (host : Str) (allowed : Bool)
  | connected (contact : Contact)
  deriving DecidableEq, Repr

def hostOf (urlparse : UrlParse) (url : Str) : Str :=
  match urlparse url with
  | .ok parsed => parsed.hostname.getD []
  | .error _ => []

/-- The connections of `treq.get(url, allow_redirects=True)` under the answers of
the network. -/
abbrev Treq := Str → List Answer → List Contact

/-- What the documentation of `treq` says of redirects: a request contacts the host
of its URL, and goes on only by a request for the location of a redirect, which is joined
to the URL of the request. -/
def Follows (urlparse : UrlParse) (urljoin : Str → Str → Str) (treq : Treq) : Prop :=
  ∀ url answers contact rest, treq url answers = contact :: rest →
    contact.host = hostOf urlparse url ∧
      (rest ≠ [] → ∃ answer location later, answers = answer :: later ∧
        answer.location = some location ∧ rest = treq (urljoin url location) later)

def following (urlparse : UrlParse) (urljoin : Str → Str → Str) : Treq
  | _, [] => []
  | url, answer :: later =>
      ⟨hostOf urlparse url, answer.address⟩ ::
        match answer.location with
        | some location => following urlparse urljoin (urljoin url location) later
        | none => []

theorem following_follows (urlparse : UrlParse) (urljoin : Str → Str → Str) :
    Follows urlparse urljoin (following urlparse urljoin) := by
  intro url answers contact rest contacted
  cases answers with
  | nil => cases contacted
  | cons answer later =>
      rcases answer with ⟨address, location⟩
      cases location with
      | none =>
          cases contacted
          exact ⟨rfl, fun more => absurd rfl more⟩
      | some location =>
          cases contacted
          exact ⟨rfl, fun _ => ⟨_, location, later, rfl, rfl, rfl⟩⟩

/-- The events of `_fetch_http`: the host of the URL is checked, and the client runs
only when it was cleared. -/
def httpEvents (urlparse : UrlParse) (resolve : Str → Option Str) (treq : Treq)
    (answers : List Answer) (intent : DownloadIntent) : List FetchEvent :=
  match fetchHttp urlparse intent with
  | .ok (.gated host (.http url)) =>
      let allowed := communicationAllowed resolve host
      .checked host allowed ::
        if allowed then (treq url answers).map .connected else []
  | _ => []

def EveryContactCleared (resolve : Str → Option Str) (events : List FetchEvent) : Prop :=
  ∀ before contact after, events = before ++ .connected contact :: after →
    .checked contact.host true ∈ before ∧
      vetted resolve contact.host = some contact.address

def checks (events : List FetchEvent) : List (Str × Bool) :=
  events.filterMap fun
    | .checked host allowed => some (host, allowed)
    | .connected _ => none

def contacts (events : List FetchEvent) : List Contact :=
  events.filterMap fun
    | .checked _ _ => none
    | .connected contact => some contact

section Contacts

variable {urlparse : UrlParse} {urljoin : Str → Str → Str} {treq : Treq}

theorem host_of_follows (follows : Follows urlparse urljoin treq) {url : Str}
    {answers : List Answer} (final : ∀ answer ∈ answers, answer.location = none) :
    ∀ contact ∈ treq url answers, contact.host = hostOf urlparse url := by
  intro contact member
  cases contacts : treq url answers with
  | nil =>
      rw [contacts] at member
      cases member
  | cons first rest =>
      rcases follows url answers first rest contacts with ⟨host, goesOn⟩
      have alone : rest = [] := by
        by_contra more
        rcases goesOn more with ⟨answer, location, later, rfl, redirects, -⟩
        rw [final answer (by simp)] at redirects
        cases redirects
      rw [contacts, alone, List.mem_singleton] at member
      rw [member, host]

theorem checks_connected (list : List Contact) : checks (list.map .connected) = [] := by
  simp [checks, List.filterMap_map]

theorem contacts_connected (list : List Contact) : contacts (list.map .connected) = list := by
  simp [contacts, List.filterMap_map]

/-- A fetch whose URL parses checks the host of the URL before it connects anywhere. It
does not connect when the host is refused, the first connection goes to the host that was
cleared, and where no answer redirects that is the only check and so do all. -/
theorem fetch_checks_url_host (follows : Follows urlparse urljoin treq)
    (resolve : Str → Option Str) (answers : List Answer) (intent : DownloadIntent)
    {parsed : ParsedUrl} (parses : urlparse intent.url = .ok parsed) :
    let host := hostOf urlparse intent.url
    let allowed := communicationAllowed resolve host
    let events := httpEvents urlparse resolve treq answers intent
    events.head? = some (.checked host allowed) ∧
      (allowed = false → contacts events = []) ∧
      (∀ contact ∈ (contacts events).head?, contact.host = host) ∧
      ((∀ answer ∈ answers, answer.location = none) →
        checks events = [(host, allowed)] ∧ ∀ contact ∈ contacts events, contact.host = host) := by
  intro host allowed events
  have hostName : host = parsed.hostname.getD [] := by simp [host, hostOf, parses]
  let connections := if allowed then treq intent.url answers else []
  have isEvents : events = .checked host allowed :: connections.map .connected := by
    simp only [events, httpEvents, fetchHttp, parses, Except.map, ← hostName]
    change _ = FetchEvent.checked host allowed :: List.map _ (if allowed then _ else [])
    split <;> rfl
  have isContacts : contacts events = connections := by
    rw [isEvents]
    exact contacts_connected connections
  have isChecks : checks events = [(host, allowed)] := by
    rw [isEvents]
    exact congrArg ((host, allowed) :: ·) (checks_connected connections)
  rw [isContacts]
  refine ⟨by rw [isEvents]; rfl, fun refused => if_neg (by simp [refused]), ?_, ?_⟩
  · intro contact first
    by_cases cleared : allowed = true
    · rw [show connections = treq intent.url answers from if_pos cleared] at first
      rcases List.head?_eq_some_iff.mp first with ⟨rest, requested⟩
      exact (follows intent.url answers contact rest requested).1
    · rw [show connections = [] from if_neg cleared] at first
      cases first
  · intro final
    refine ⟨isChecks, fun contact member => ?_⟩
    by_cases cleared : allowed = true
    · rw [show connections = treq intent.url answers from if_pos cleared] at member
      exact host_of_follows follows final contact member
    · rw [show connections = [] from if_neg cleared] at member
      cases member

end Contacts

def rebinding (first : String) : Str → Option Str := fun _ => some first.toList

def rebindingIntent : DownloadIntent :=
  ⟨.wget, "http://e/a".toList, none, "wget http://e/a".toList⟩

def plainUrl : ParsedUrl := ⟨some "e".toList, "/a".toList, .ok none, none, none⟩

/-- Joining of a location that is a URL, or a path on the same host. -/
def joined (url location : Str) : Str :=
  if Text.contains "://".toList location then location
  else "http://".toList ++ (url.drop 7).takeWhile (· ≠ '/') ++ location

def hostE : UrlParse := fun url => .ok { plainUrl with path := url.drop 8 }

theorem fetch_checks_url_host_example :
    let events := httpEvents hostE (rebinding "93.184.216.34")
      (following hostE joined)
      [⟨.v4 0x5DB8D822, some "/b".toList⟩, ⟨.v4 0x5DB8D822, none⟩] rebindingIntent
    (contacts events).length = 2 ∧ events.head? = some (.checked "e".toList true) ∧
      ∀ contact ∈ (contacts events).head?, contact.host = "e".toList := by
  have checked := fetch_checks_url_host (following_follows hostE joined)
    (rebinding "93.184.216.34")
    [⟨.v4 0x5DB8D822, some "/b".toList⟩, ⟨.v4 0x5DB8D822, none⟩] rebindingIntent
    rfl
  exact ⟨by decide, by decide, checked.2.2.1⟩

/-- A name that is rebound between the check and the connection. -/
theorem rebound_address_not_cleared :
    ¬ ∀ urlparse urljoin treq resolve answers intent, Follows urlparse urljoin treq →
      EveryContactCleared resolve (httpEvents urlparse resolve treq answers intent) := by
  intro all
  have cleared := all hostE joined _ (rebinding "93.184.216.34")
    [⟨.v4 0xA9FEA9FE, none⟩] rebindingIntent (following_follows _ _)
    [.checked "e".toList true] ⟨"e".toList, .v4 0xA9FEA9FE⟩ [] (by decide)
  exact absurd cleared.2 (by decide)

end Downloader

end LlmHoneypot
