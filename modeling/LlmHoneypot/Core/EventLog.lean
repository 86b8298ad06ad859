import LlmHoneypot.Core.Output
import LlmHoneypot.Foundation.EventRun

/-! # The events of sessions

Which session an event is written under, over every interleaving of sessions. -/

namespace LlmHoneypot

namespace Core

structure Session where
  number : Str
  id : Str
  address : Str
  named : number ≠ []
  deriving DecidableEq

namespace Session

def Carries (session : Session) (event : Event) : Prop :=
  match event.sessionno with
  | some number => number = session.number
  | none =>
      match event.session with
      | some id => id = session.id
      | none => event.system.bind systemNumber = some session.number

instance (session : Session) (event : Event) : Decidable (session.Carries event) := by
  unfold Carries
  split
  · infer_instance
  · split
    · infer_instance
    · infer_instance

def Connects (session : Session) (event : Event) : Prop :=
  event.sessionno = some session.number ∧ event.session = some session.id ∧
    event.srcIp = some session.address

instance (session : Session) (event : Event) : Decidable (session.Connects event) :=
  inferInstanceAs (Decidable (_ ∧ _))

end Session

/-- A plugin with the sessions whose events it was given. -/
structure Log where
  output : Output := {}
  opened : List Session := []
  closed : List Session := []
  events : List (Session × Event) := []
  written : List Event := []
  errors : List Error := []

namespace Log

def record (host : Host) (log : Log) (session : Session) (event : Event) : Log :=
  let emitted := log.output.emit host event
  { log with
    output := emitted.output
    events := log.events ++ [(session, event)]
    written := log.written ++ emitted.written.toList
    errors := log.errors ++ emitted.error.toList }

/-- No session so far has the number or the id. -/
def Fresh (log : Log) (session : Session) : Prop :=
  ∀ other ∈ log.opened ++ log.closed, other.number ≠ session.number ∧ other.id ≠ session.id

instance (log : Log) (session : Session) : Decidable (log.Fresh session) :=
  inferInstanceAs (Decidable (∀ other ∈ log.opened ++ log.closed, _))

/-- One event of a session: the one that opens it, the one that closes it, or another,
which may come late. -/
def step (host : Host) (log : Log) (entry : Session × Event) : Option Log :=
  let session := entry.1
  let event := entry.2
  let next := log.record host session event
  if ¬ event.Loggable then none
  else if event.eventid = some "cowrie.session.connect".toList then
    if log.Fresh session ∧ session.Connects event then
      some { next with opened := log.opened ++ [session] }
    else none
  else if ¬ session.Carries event then none
  else if event.eventid = some "cowrie.session.closed".toList then
    if session ∈ log.opened then
      some { next with
        opened := log.opened.filter (· ≠ session)
        closed := log.closed ++ [session] }
    else none
  else if session ∈ log.opened ∨ session ∈ log.closed then some next
  else none

def attribution (event : Event) : Option Str × Option Str × Option Str :=
  (event.eventid, event.session, event.srcIp)

def due (entry : Session × Event) : Option Str × Option Str × Option Str :=
  (entry.2.eventid, some entry.1.id, some entry.1.address)

/-- No call has raised, each event was written once with its session's id and address,
and nothing is kept of a session that is over. -/
structure Attributed (log : Log) : Prop where
  noError : log.errors = []
  written : log.written.map attribution = log.events.map due
  removed : ∀ session ∈ log.closed, log.output.sessions.get? session.number = none ∧
    log.output.ips.get? session.number = none

def Tabulates (table : Dict Str Str) (field : Session → Str) (sessions : List Session) : Prop :=
  ∀ number value, table.get? number = some value ↔
    ∃ session ∈ sessions, session.number = number ∧ field session = value

/-- No two of the sessions have the same value in a field. -/
def Apart (field : Session → Str) (sessions : List Session) : Prop :=
  ∀ left ∈ sessions, ∀ right ∈ sessions, field left = field right → left = right

namespace Tabulates

variable {table : Dict Str Str} {field : Session → Str} {sessions : List Session}
  {session : Session}

theorem get? (tabulates : Tabulates table field sessions) (member : session ∈ sessions) :
    table.get? session.number = some (field session) :=
  (tabulates _ _).mpr ⟨session, member, rfl, rfl⟩

theorem get?_eq_none (tabulates : Tabulates table field sessions) {number : Str}
    (unused : ∀ session ∈ sessions, session.number ≠ number) : table.get? number = none := by
  rw [Option.eq_none_iff_forall_ne_some]
  intro value present
  rcases (tabulates _ _).mp present with ⟨other, member, same, _⟩
  exact unused other member same

theorem set (tabulates : Tabulates table field sessions)
    (unused : ∀ other ∈ sessions, other.number ≠ session.number) :
    Tabulates (table.set session.number (field session)) field (sessions ++ [session]) := by
  intro number value
  rw [Dict.get?_set]
  split
  · next same =>
      constructor
      · intro isValue
        exact ⟨session, by simp, same.symm, Option.some.inj isValue⟩
      · rintro ⟨other, member, isNumber, rfl⟩
        rcases List.mem_append.mp member with old | single
        · exact absurd (isNumber.trans same) (unused other old)
        · rw [List.mem_singleton.mp single]
  · next different =>
      rw [tabulates]
      constructor
      · rintro ⟨other, old, both⟩
        exact ⟨other, List.mem_append_left _ old, both⟩
      · rintro ⟨other, member, isNumber, isValue⟩
        rcases List.mem_append.mp member with old | single
        · exact ⟨other, old, isNumber, isValue⟩
        · rw [List.mem_singleton.mp single] at isNumber
          exact absurd isNumber.symm different

theorem erase (tabulates : Tabulates table field sessions)
    (only : ∀ other ∈ sessions, other.number = session.number → other = session) :
    Tabulates (table.erase session.number) field (sessions.filter (· ≠ session)) := by
  intro number value
  rw [Dict.get?_erase]
  split
  · next same =>
      constructor
      · intro nothing
        cases nothing
      · rintro ⟨other, member, isNumber, _⟩
        rw [List.mem_filter, decide_eq_true_eq] at member
        exact absurd (only other member.1 (isNumber.trans same)) member.2
  · next different =>
      rw [tabulates]
      constructor
      · rintro ⟨other, old, isNumber, isValue⟩
        refine ⟨other, List.mem_filter.mpr ⟨old, decide_eq_true ?_⟩, isNumber, isValue⟩
        rintro rfl
        exact different isNumber.symm
      · rintro ⟨other, member, both⟩
        exact ⟨other, List.mem_of_mem_filter member, both⟩

end Tabulates

theorem Apart.of_subset {field : Session → Str} {sessions fewer : List Session}
    (apart : Apart field sessions) (subset : ∀ session ∈ fewer, session ∈ sessions) :
    Apart field fewer :=
  fun left isLeft right isRight => apart left (subset left isLeft) right (subset right isRight)

theorem Apart.cons {field : Session → Str} {sessions : List Session} {session : Session}
    (apart : Apart field sessions) (new : ∀ other ∈ sessions, field other ≠ field session) :
    Apart field (session :: sessions) := by
  intro left isLeft right isRight same
  rcases List.mem_cons.mp isLeft with rfl | leftOld
  · rcases List.mem_cons.mp isRight with rfl | rightOld
    · rfl
    · exact absurd same.symm (new right rightOld)
  · rcases List.mem_cons.mp isRight with rfl | rightOld
    · exact absurd same (new left leftOld)
    · exact apart left leftOld right rightOld same

structure Holds (log : Log) : Prop where
  sessions : Tabulates log.output.sessions Session.id log.opened
  ips : Tabulates log.output.ips Session.address log.opened
  numbers : Apart Session.number (log.opened ++ log.closed)
  ids : Apart Session.id (log.opened ++ log.closed)
  disjoint : ∀ session ∈ log.opened, session ∉ log.closed
  fewer : log.written.length ≤ log.events.length

namespace Holds

variable {host : Host} {log : Log} {session : Session} {event : Event}

theorem number_unused (holds : Holds log) (isClosed : session ∈ log.closed) :
    ∀ other ∈ log.opened, other.number ≠ session.number := by
  intro other isOpen same
  have equal := holds.numbers other (List.mem_append_left _ isOpen) session
    (List.mem_append_right _ isClosed) same
  rw [equal] at isOpen
  exact holds.disjoint session isOpen isClosed

theorem find_id (holds : Holds log) (known : session ∈ log.opened ++ log.closed) :
    (log.output.sessions.entries.find? fun entry => entry.2 = session.id).map Prod.fst =
      if session ∈ log.opened then some session.number else none := by
  have only : ∀ entry ∈ log.output.sessions.entries, entry.2 = session.id →
      session ∈ log.opened ∧ entry.1 = session.number := by
    intro entry member same
    have present := Dict.mem_entries_iff.mp member
    rcases (holds.sessions _ _).mp present with ⟨other, isOpen, number, id⟩
    have isSession := holds.ids other (List.mem_append_left _ isOpen) session known (id.trans same)
    rw [← isSession]
    exact ⟨isOpen, number.symm⟩
  cases found : log.output.sessions.entries.find? fun entry => entry.2 = session.id with
  | none =>
      rw [if_neg]
      · rfl
      · intro isOpen
        have member := Dict.mem_entries_iff.mpr (holds.sessions.get? isOpen)
        have differs := List.find?_eq_none.mp found _ member
        simp at differs
  | some entry =>
      have same := List.find?_some found
      rw [decide_eq_true_eq] at same
      have known := only entry (List.mem_of_find?_eq_some found) same
      rw [if_pos known.1, Option.map_some, known.2]

theorem sessionnoOf (host : Host) (holds : Holds log) (known : session ∈ log.opened ++ log.closed)
    (carries : session.Carries event) :
    log.output.sessionnoOf (event.prepared host) = some session.number ∨
      log.output.sessionnoOf (event.prepared host) = none ∧ session ∉ log.opened := by
  rw [Session.Carries] at carries
  rw [Output.sessionnoOf, Event.prepared_sessionno, Event.prepared_session, Event.prepared_system]
  cases number : event.sessionno with
  | some number =>
      simp only [number] at carries ⊢
      exact .inl (congrArg some carries)
  | none =>
      cases id : event.session with
      | some id =>
          simp only [number, id] at carries ⊢
          rw [carries, holds.find_id known]
          by_cases isOpen : session ∈ log.opened
          · exact .inl (if_pos isOpen)
          · exact .inr ⟨if_neg isOpen, isOpen⟩
      | none =>
          simp only [number, id] at carries ⊢
          exact .inl carries

theorem start : Holds {} := by
  constructor
  · intro number id
    simp [Dict.empty, Dict.get?]
  · intro number address
    simp [Dict.empty, Dict.get?]
  · intro left member
    cases member
  · intro left member
    cases member
  · intro session member
    cases member
  · exact Nat.le_refl _

theorem writes {ev : Event} (id : ev.session = some session.id)
    (address : ev.srcIp = some session.address) (eventid : ev.eventid = event.eventid) :
    attribution ev = due (session, event) := by
  rw [attribution, due, id, address, eventid]

theorem sessionnoOf_open (host : Host) (holds : Holds log) (isOpen : session ∈ log.opened)
    (carries : session.Carries event) :
    log.output.sessionnoOf (event.prepared host) = some session.number := by
  rcases holds.sessionnoOf host (List.mem_append_left log.closed isOpen) carries with
    found | ⟨_, notOpen⟩
  · exact found
  · exact absurd isOpen notOpen

theorem emit_open (host : Host) (holds : Holds log) (loggable : event.Loggable)
    (other : event.eventid ≠ some "cowrie.session.connect".toList)
    (notClosed : event.eventid ≠ some "cowrie.session.closed".toList)
    (isOpen : session ∈ log.opened) (carries : session.Carries event) :
    ∃ ev, log.output.emit host event = { output := log.output, written := some ev } ∧
      attribution ev = due (session, event) := by
  have number := holds.sessionnoOf_open host isOpen carries
  rw [Output.emit_known loggable other number (holds.sessions.get? isOpen)
    (holds.ips.get? isOpen)]
  rcases Output.deliver_open log.output
    { event.prepared host with
      sessionno := none, srcIp := some session.address, session := some session.id }
    session.named (by simpa using notClosed) with ⟨protocol, delivered⟩
  exact ⟨_, delivered, writes rfl rfl (Event.prepared_eventid ..)⟩

theorem emit_close (host : Host) (holds : Holds log) (loggable : event.Loggable)
    (closes : event.eventid = some "cowrie.session.closed".toList)
    (isOpen : session ∈ log.opened) (carries : session.Carries event) :
    ∃ ev, log.output.emit host event = {
        output := {
          sessions := log.output.sessions.erase session.number
          ips := log.output.ips.erase session.number }
        written := some ev } ∧
      attribution ev = due (session, event) := by
  have number := holds.sessionnoOf_open host isOpen carries
  have other : event.eventid ≠ some "cowrie.session.connect".toList := by
    rw [closes]
    decide
  have sessions := holds.sessions.get? isOpen
  have ips := holds.ips.get? isOpen
  rw [Output.emit_known loggable other number sessions ips]
  rcases Output.deliver_closed log.output
    { event.prepared host with
      sessionno := none, srcIp := some session.address, session := some session.id }
    session.named (by simpa using closes) (Dict.mem_keys_iff.mpr ⟨_, sessions⟩)
    (Dict.mem_keys_iff.mpr ⟨_, ips⟩) with ⟨protocol, delivered⟩
  exact ⟨_, delivered, writes rfl rfl (Event.prepared_eventid ..)⟩

theorem emit_new (host : Host) (holds : Holds log) (loggable : event.Loggable)
    (connects : event.eventid = some "cowrie.session.connect".toList)
    (fresh : log.Fresh session) (first : session.Connects event) :
    ∃ ev, log.output.emit host event = {
        output := {
          sessions := log.output.sessions.set session.number session.id
          ips := log.output.ips.set session.number session.address }
        written := some ev } ∧
      attribution ev = due (session, event) := by
  have new : log.output.ips.get? session.number = none := holds.ips.get?_eq_none
    fun other isOpen => (fresh other (List.mem_append_left _ isOpen)).1
  rw [Output.emit_connect loggable connects first.1 new first.2.1 first.2.2]
  rcases Output.deliver_open {
      sessions := log.output.sessions.set session.number session.id
      ips := log.output.ips.set session.number session.address }
    { event.prepared host with sessionno := none, srcIp := some session.address } session.named
    (by
      dsimp only
      rw [Event.prepared_eventid, connects]
      decide) with ⟨protocol, delivered⟩
  exact ⟨_, delivered, writes ((Event.prepared_session ..).trans first.2.1) rfl
    (Event.prepared_eventid ..)⟩

theorem emit_late (host : Host) (holds : Holds log) (loggable : event.Loggable)
    (other : event.eventid ≠ some "cowrie.session.connect".toList)
    (isClosed : session ∈ log.closed) (carries : session.Carries event) :
    (log.output.emit host event).output = log.output ∧
      (log.output.emit host event).written = none := by
  have known := List.mem_append_right log.opened isClosed
  rcases holds.sessionnoOf host known carries with number | ⟨number, _⟩
  · rw [Output.emit_unknown loggable other number (holds.sessions.get?_eq_none (holds.number_unused isClosed))]
    exact ⟨rfl, rfl⟩
  · rw [Output.emit_unnumbered number]
    exact ⟨rfl, rfl⟩

theorem attributed_iff (holds : Holds log) : Attributed log ↔
    log.errors = [] ∧ log.written.map attribution = log.events.map due := by
  constructor
  · intro attributed
    exact ⟨attributed.noError, attributed.written⟩
  · intro both
    refine ⟨both.1, both.2, ?_⟩
    intro session isClosed
    exact ⟨holds.sessions.get?_eq_none (holds.number_unused isClosed), holds.ips.get?_eq_none (holds.number_unused isClosed)⟩

end Holds

/-! ## Runs -/

variable {host : Host} {log next : Log} {session : Session} {event : Event}

theorem step_cases (taken : log.step host (session, event) = some next) :
    event.Loggable ∧
      ((event.eventid = some "cowrie.session.connect".toList ∧ log.Fresh session ∧
          session.Connects event ∧
          next = { log.record host session event with opened := log.opened ++ [session] }) ∨
        (event.eventid ≠ some "cowrie.session.connect".toList ∧ session.Carries event ∧
          ((event.eventid = some "cowrie.session.closed".toList ∧ session ∈ log.opened ∧
              next = { log.record host session event with
                opened := log.opened.filter (· ≠ session)
                closed := log.closed ++ [session] }) ∨
            (event.eventid ≠ some "cowrie.session.closed".toList ∧
              (session ∈ log.opened ∨ session ∈ log.closed) ∧
              next = log.record host session event)))) := by
  rw [step] at taken
  dsimp only at taken
  split at taken
  · cases taken
  · next loggable =>
      refine ⟨not_not.mp loggable, ?_⟩
      split at taken
      · next connects =>
          split at taken
          · next first =>
              cases taken
              exact .inl ⟨connects, first.1, first.2, rfl⟩
          · cases taken
      · next other =>
          split at taken
          · cases taken
          · next carries =>
              refine .inr ⟨other, not_not.mp carries, ?_⟩
              split at taken
              · next closes =>
                  split at taken
                  · next isOpen =>
                      cases taken
                      exact .inl ⟨closes, isOpen, rfl⟩
                  · cases taken
              · next notClosed =>
                  split at taken
                  · next known =>
                      cases taken
                      exact .inr ⟨notClosed, known, rfl⟩
                  · cases taken

theorem record_written {output : Output} {ev : Event}
    (emitted : log.output.emit host event = { output, written := some ev }) :
    log.record host session event = { log with
      output
      events := log.events ++ [(session, event)]
      written := log.written ++ [ev] } := by
  rw [record, emitted]
  simp

theorem attributed_written_iff {ev : Event} (holds : Holds log) (after : Holds next)
    (right : attribution ev = due (session, event)) (errors : next.errors = log.errors)
    (written : next.written = log.written ++ [ev])
    (events : next.events = log.events ++ [(session, event)]) :
    Attributed next ↔ Attributed log := by
  rw [after.attributed_iff, holds.attributed_iff, errors, written, events, List.map_append,
    List.map_append, List.map_singleton, List.map_singleton, right, List.append_left_inj]

namespace Holds

theorem connect (holds : Holds log) (fresh : log.Fresh session) (event ev : Event) :
    Holds { log with
      output := {
        sessions := log.output.sessions.set session.number session.id
        ips := log.output.ips.set session.number session.address }
      events := log.events ++ [(session, event)]
      written := log.written ++ [ev]
      opened := log.opened ++ [session] } := by
  have unused : ∀ other ∈ log.opened, other.number ≠ session.number := fun other isOpen =>
    (fresh other (List.mem_append_left _ isOpen)).1
  have place : ∀ other ∈ (log.opened ++ [session]) ++ log.closed,
      other ∈ session :: (log.opened ++ log.closed) := by
    intro other member
    rw [List.append_assoc] at member
    exact List.perm_middle.subset member
  constructor
  · exact holds.sessions.set unused
  · exact holds.ips.set unused
  · exact (holds.numbers.cons fun other known => (fresh other known).1).of_subset place
  · exact (holds.ids.cons fun other known => (fresh other known).2).of_subset place
  · intro other member isClosed
    rcases List.mem_append.mp member with isOpen | single
    · exact holds.disjoint other isOpen isClosed
    · rw [List.mem_singleton.mp single] at isClosed
      exact (fresh session (List.mem_append_right _ isClosed)).1 rfl
  · have := holds.fewer
    simp only [List.length_append, List.length_singleton]
    omega

theorem close (holds : Holds log) (isOpen : session ∈ log.opened) (event ev : Event) :
    Holds { log with
      output := {
        sessions := log.output.sessions.erase session.number
        ips := log.output.ips.erase session.number }
      events := log.events ++ [(session, event)]
      written := log.written ++ [ev]
      opened := log.opened.filter (· ≠ session)
      closed := log.closed ++ [session] } := by
  have only : ∀ other ∈ log.opened, other.number = session.number → other = session :=
    fun other otherOpen => holds.numbers other (List.mem_append_left _ otherOpen) session
      (List.mem_append_left _ isOpen)
  have place : ∀ other ∈ log.opened.filter (· ≠ session) ++ (log.closed ++ [session]),
      other ∈ log.opened ++ log.closed := by
    intro other member
    rcases List.mem_append.mp member with kept | member
    · exact List.mem_append_left _ (List.mem_of_mem_filter kept)
    · rcases List.mem_append.mp member with isClosed | single
      · exact List.mem_append_right _ isClosed
      · rw [List.mem_singleton.mp single]
        exact List.mem_append_left _ isOpen
  constructor
  · exact holds.sessions.erase only
  · exact holds.ips.erase only
  · exact holds.numbers.of_subset place
  · exact holds.ids.of_subset place
  · intro other kept member
    rw [List.mem_filter, decide_eq_true_eq] at kept
    rcases List.mem_append.mp member with isClosed | single
    · exact holds.disjoint other kept.1 isClosed
    · exact kept.2 (List.mem_singleton.mp single)
  · have := holds.fewer
    simp only [List.length_append, List.length_singleton]
    omega

theorem step (holds : Holds log) {entry : Session × Event}
    (taken : log.step host entry = some next) :
    Holds next ∧ (Attributed next ↔ Attributed log ∧ entry.1 ∉ log.closed) := by
  rcases entry with ⟨session, event⟩
  rcases step_cases taken with ⟨loggable, ⟨connects, fresh, first, rfl⟩ |
    ⟨other, carries, ⟨closes, isOpen, rfl⟩ | ⟨notClosed, isOpen | isClosed, rfl⟩⟩⟩
  · rcases holds.emit_new host loggable connects fresh first with ⟨ev, emitted, right⟩
    rw [record_written emitted]
    have notClosed : session ∉ log.closed := fun isClosed =>
      (fresh session (List.mem_append_right _ isClosed)).1 rfl
    have after := holds.connect fresh event ev
    rw [and_iff_left notClosed]
    exact ⟨after, attributed_written_iff holds after right rfl rfl rfl⟩
  · rcases holds.emit_close host loggable closes isOpen carries with ⟨ev, emitted, right⟩
    rw [record_written emitted, and_iff_left (holds.disjoint session isOpen)]
    have after := holds.close isOpen event ev
    exact ⟨after, attributed_written_iff holds after right rfl rfl rfl⟩
  · rcases holds.emit_open host loggable other notClosed isOpen carries with
      ⟨ev, emitted, right⟩
    rw [record_written emitted, and_iff_left (holds.disjoint session isOpen)]
    have after : Holds { log with
        events := log.events ++ [(session, event)]
        written := log.written ++ [ev] } := by
      refine ⟨holds.sessions, holds.ips, holds.numbers, holds.ids, holds.disjoint, ?_⟩
      have := holds.fewer
      simp only [List.length_append, List.length_singleton]
      omega
    exact ⟨after, attributed_written_iff holds after right rfl rfl rfl⟩
  · rcases holds.emit_late host loggable other isClosed carries with ⟨same, nothing⟩
    have written : (log.record host session event).written = log.written := by
      rw [record]
      simp [nothing]
    have output : (log.record host session event).output = log.output := same
    have fewer := holds.fewer
    have after : Holds (log.record host session event) := by
      refine ⟨?_, ?_, holds.numbers, holds.ids, holds.disjoint, ?_⟩
      · rw [output]
        exact holds.sessions
      · rw [output]
        exact holds.ips
      · rw [written, record, List.length_append]
        omega
    refine ⟨after, ?_⟩
    constructor
    · intro attributed
      have lengths := congrArg List.length attributed.written
      rw [written, record, List.length_map, List.length_map, List.length_append,
        List.length_singleton] at lengths
      omega
    · intro both
      exact absurd isClosed both.2

end Holds

/-- Each event is written once as its session's, without an error, and nothing is kept of a
closed session, exactly when no event comes after the one that closes its session. -/
theorem attributed_iff_along {events : List (Session × Event)} {log : Log}
    (ran : EventRun.run (step host) {} events = some log) :
    Attributed log ↔
      EventRun.Along (step host) (fun log entry => entry.1 ∉ log.closed) {} events := by
  have start : Attributed {} := by
    refine ⟨rfl, rfl, ?_⟩
    intro session member
    cases member
  have both := @EventRun.run_iff_along _ _ (step host) _ Holds Attributed
    (fun holds taken => (holds.step taken).1) (fun holds taken => (holds.step taken).2) _ _ _
    Holds.start ran
  rw [both, and_iff_right start]

/-! ## Events as they come

The numbers and ids are the transports' own, so it is the events that tell the sessions
apart, and not the log. -/

/-- One event of a session, whatever sessions there were before it. -/
def receive (host : Host) (log : Log) (entry : Session × Event) : Option Log :=
  let session := entry.1
  let event := entry.2
  let next := log.record host session event
  if ¬ event.Loggable then none
  else if event.eventid = some "cowrie.session.connect".toList then
    if session.Connects event then some { next with opened := log.opened ++ [session] }
    else none
  else if ¬ session.Carries event then none
  else if event.eventid = some "cowrie.session.closed".toList then
    if session ∈ log.opened then
      some { next with
        opened := log.opened.filter (· ≠ session)
        closed := log.closed ++ [session] }
    else none
  else if session ∈ log.opened ∨ session ∈ log.closed then some next
  else none

def arrivals (events : List (Session × Event)) : List Session :=
  (events.filter fun entry => entry.2.eventid = some "cowrie.session.connect".toList).map Prod.fst

/-- No two sessions that connect have the same number or the same id. -/
def Distinct (events : List (Session × Event)) : Prop :=
  (arrivals events).Pairwise fun first later =>
    first.number ≠ later.number ∧ first.id ≠ later.id

instance (events : List (Session × Event)) : Decidable (Distinct events) :=
  inferInstanceAs (Decidable (List.Pairwise _ _))

structure Tabulated (log : Log) : Prop where
  sessions : Tabulates log.output.sessions Session.id log.opened
  ips : Tabulates log.output.ips Session.address log.opened
  fewer : log.written.length ≤ log.events.length

theorem step_of_receive {entry : Session × Event} (taken : log.receive host entry = some next)
    (fresh : entry.2.eventid = some "cowrie.session.connect".toList → log.Fresh entry.1) :
    log.step host entry = some next := by
  rw [receive] at taken
  rw [step]
  by_cases connects : entry.2.eventid = some "cowrie.session.connect".toList
  · rw [if_pos connects] at taken ⊢
    simpa only [and_iff_right (fresh connects)] using taken
  · rw [if_neg connects] at taken ⊢
    exact taken

theorem seen_of_step {entry : Session × Event} (taken : log.step host entry = some next)
    {other : Session} (seen : other ∈ next.opened ++ next.closed) :
    other ∈ log.opened ++ log.closed ∨
      entry.2.eventid = some "cowrie.session.connect".toList ∧ other = entry.1 := by
  rcases entry with ⟨session, event⟩
  rcases step_cases taken with ⟨_, ⟨connects, _, _, rfl⟩ |
    ⟨_, _, ⟨_, isOpen, rfl⟩ | ⟨_, _, rfl⟩⟩⟩
  · dsimp only [record] at seen
    rw [List.append_assoc, List.mem_append, List.singleton_append, List.mem_cons] at seen
    rcases seen with isOpen | rfl | isClosed
    · exact .inl (List.mem_append_left _ isOpen)
    · exact .inr ⟨connects, rfl⟩
    · exact .inl (List.mem_append_right _ isClosed)
  · dsimp only [record] at seen
    rw [← List.append_assoc, List.mem_append, List.mem_singleton] at seen
    rcases seen with old | rfl
    · rcases List.mem_append.mp old with kept | isClosed
      · exact .inl (List.mem_append_left _ (List.mem_of_mem_filter kept))
      · exact .inl (List.mem_append_right _ isClosed)
    · exact .inl (List.mem_append_left _ isOpen)
  · exact .inl seen

theorem Holds.always {events : List (Session × Event)} (holds : Holds log)
    (distinct : Distinct events) (fresh : ∀ session ∈ arrivals events, log.Fresh session) :
    EventRun.Always (receive host) Holds log events := by
  apply And.intro holds
  induction events generalizing log with
  | nil => trivial
  | cons entry events induction =>
      have stepped : ∀ next, log.receive host entry = some next →
          log.step host entry = some next := by
        intro next taken
        refine step_of_receive taken fun connects => fresh _ ?_
        exact List.mem_map_of_mem (List.mem_filter.mpr
          ⟨List.mem_cons_self .., decide_eq_true connects⟩)
      refine ⟨fun next taken => (holds.step (stepped next taken)).1, fun next taken => ?_⟩
      have taken := stepped next taken
      have later : Distinct events ∧ ∀ session ∈ arrivals events,
          session ∈ arrivals (entry :: events) ∧
            (entry.2.eventid = some "cowrie.session.connect".toList →
              entry.1.number ≠ session.number ∧ entry.1.id ≠ session.id) := by
        rw [Distinct, arrivals, List.filter_cons] at distinct
        rw [arrivals, arrivals, List.filter_cons]
        split at distinct
        · next connects =>
            rw [List.map_cons, List.pairwise_cons] at distinct
            rw [if_pos connects]
            refine ⟨distinct.2, fun session member => ⟨?_, fun _ => distinct.1 session member⟩⟩
            exact List.mem_cons_of_mem _ member
        · next other =>
            rw [if_neg other]
            refine ⟨distinct, fun session member => ⟨member, fun connects => ?_⟩⟩
            exact absurd (decide_eq_true connects) other
      apply induction (holds.step taken).1 later.1
      intro session member other seen
      rcases seen_of_step taken seen with old | ⟨connects, rfl⟩
      · exact fresh session (later.2 session member).1 other old
      · exact (later.2 session member).2 connects

/-- Also with events of closed sessions, the tables hold the numbers of the open sessions with
their ids and addresses, and nothing else, and no line is written of nothing. -/
theorem always_tabulated (host : Host) {events : List (Session × Event)}
    (distinct : Distinct events) : EventRun.Always (receive host) Tabulated {} events := by
  have always : EventRun.Always (receive host) Holds {} events :=
    Holds.start.always distinct (by
      intro session _ other seen
      cases seen)
  exact always.mono fun holds => ⟨holds.sessions, holds.ips, holds.fewer⟩

section Examples

def plugin : Host where
  sensor := "sensor".toList
  uuid := "unknown".toList
  now := .number 0
  formatTime _ := "1970-01-01T00:00:00.000000Z".toList
  interpolate format _ := some format

def visitor : Session where
  number := "S1".toList
  id := "0a1b2c3d4e5f".toList
  address := "198.51.100.7".toList
  named := by decide

def said (eventid : String) : Event :=
  { eventid := some eventid.toList, message := some (.chars (.str eventid.toList)) }

def visit : List (Session × Event) := [
  (visitor, { said "cowrie.session.connect" with
    sessionno := some visitor.number, session := some visitor.id, srcIp := some visitor.address }),
  (visitor, { said "cowrie.command.input" with
    system := some "HoneyPotSSHTransport,1,198.51.100.7".toList }),
  (visitor, { said "cowrie.session.closed" with session := some visitor.id })]

def lateResponse : Session × Event :=
  (visitor, { said "cowrie.llm.response" with sessionno := some visitor.number })

def guest : Session where
  number := "T1".toList
  id := "5f4e3d2c1b0a".toList
  address := "203.0.113.9".toList
  named := by decide

def greeted (session : Session) : Session × Event :=
  (session, { said "cowrie.session.connect" with
    sessionno := some session.number, session := some session.id, srcIp := some session.address })

theorem attributed_iff_along_example :
    ∃ log, EventRun.run (step plugin) {} visit = some log ∧
      (Attributed log ↔
        EventRun.Along (step plugin) (fun log entry => entry.1 ∉ log.closed) {} visit) := by
  have returns : (EventRun.run (step plugin) {} visit).isSome = true := by decide
  rcases Option.isSome_iff_exists.mp returns with ⟨log, ran⟩
  exact ⟨log, ran, attributed_iff_along ran⟩

/-- Two sessions at once, and an event of the first after it was closed. -/
theorem always_tabulated_example :
    (EventRun.run (receive plugin) {} (greeted guest :: visit ++ [lateResponse])).isSome ∧
      EventRun.Always (receive plugin) Tabulated {} (greeted guest :: visit ++ [lateResponse]) :=
  ⟨by decide, always_tabulated plugin (by decide)⟩

/-- The late event is not written, and `emit` raises. -/
theorem late_response_raises :
    ∃ log, EventRun.run (step plugin) {} (visit ++ [lateResponse]) = some log ∧
      log.errors = [.keyError] ∧ log.written.length = 3 ∧ log.events.length = 4 ∧
      ¬ Attributed log := by
  have returns : (EventRun.run (step plugin) {} (visit ++ [lateResponse])).map
      (fun log => (log.errors, log.written.length, log.events.length)) =
    some ([.keyError], 3, 4) := by decide
  rcases Option.map_eq_some_iff.mp returns with ⟨log, ran, outcome⟩
  rw [Prod.mk.injEq, Prod.mk.injEq] at outcome
  refine ⟨log, ran, outcome.1, outcome.2.1, outcome.2.2, ?_⟩
  intro attributed
  rw [attributed.noError] at outcome
  cases outcome.1

end Examples

end Log

end Core

end LlmHoneypot
