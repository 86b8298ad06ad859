import LlmHoneypot.Foundation.DictMap
import LlmHoneypot.Foundation.Utf8

/-! # Output plugins

`Output.emit`, which ties each logged event to a session. -/

namespace LlmHoneypot

namespace Core

/-! ## Events -/

inductive Chars where
  | str (text : Str)
  | bytes (data : Bytes)
  deriving DecidableEq

inductive Value where
  | chars (chars : Chars)
  | dict (items : List (Chars × Value))
  | list (elements : List Value)
  | tuple (elements : List Value)
  | number (number : Int)

def hexDigits (byte : UInt8) : Str :=
  [Nat.digitChar (byte.toNat / 16), Nat.digitChar (byte.toNat % 16)]

def reprByte (quote byte : UInt8) : Str :=
  let backslash := Char.ofNat 92
  if byte = 92 ∨ byte = quote then [backslash, Char.ofNat byte.toNat]
  else if byte = 9 then [backslash, 't']
  else if byte = 10 then [backslash, 'n']
  else if byte = 13 then [backslash, 'r']
  else if byte < 32 ∨ 127 ≤ byte then backslash :: 'x' :: hexDigits byte
  else [Char.ofNat byte.toNat]

def reprBytes (data : Bytes) : Str :=
  let quote : UInt8 := if 39 ∈ data ∧ 34 ∉ data then 34 else 39
  'b' :: Char.ofNat quote.toNat :: data.flatMap (reprByte quote) ++ [Char.ofNat quote.toNat]

def Chars.convert : Chars → Str
  | .str text => text
  | .bytes data => (Utf8.decode data).getD (reprBytes data)

def setItem (items : List (Chars × Value)) (item : Chars × Value) : List (Chars × Value) :=
  if items.any (·.1 = item.1) then
    items.map fun old => if old.1 = item.1 then (old.1, item.2) else old
  else items ++ [item]

mutual

def Value.convert : Value → Value
  | .chars chars => .chars (.str chars.convert)
  | .dict items => .dict ((convertItems items).foldl setItem [])
  | .list elements => .list (convertElements elements)
  | data => data

def convertItems : List (Chars × Value) → List (Chars × Value)
  | [] => []
  | (key, value) :: items => (.str key.convert, value.convert) :: convertItems items

def convertElements : List Value → List Value
  | [] => []
  | element :: elements => element.convert :: convertElements elements

end

/-- An event is a dictionary; the keys that `emit` itself uses are fields. -/
structure Event where
  eventid : Option Str := none
  sessionno : Option Str := none
  session : Option Str := none
  system : Option Str := none
  srcIp : Option Str := none
  message : Option Value := none
  format : Option Value := none
  time : Option Value := none
  sensor : Option Str := none
  uuid : Option Str := none
  timestamp : Option Str := none
  protocol : Option Str := none
  others : Dict Str Value := .empty

/-- What a plugin has from its configuration and from the library. -/
structure Host where
  sensor : Str
  uuid : Str
  /-- `time.time()`. -/
  now : Value
  formatTime : Value → Str
  /-- `format % ev`, which may raise. -/
  interpolate : Value → Event → Option Value

namespace Event

def Loggable (event : Event) : Prop :=
  "printed".toList ∉ event.others.keys ∧ event.eventid ≠ none ∧
    (event.sessionno ≠ none ∨ event.session ≠ none ∨ event.system ≠ none) ∧
    (event.message.isSome ∨ event.format.isSome)

instance (event : Event) : Decidable event.Loggable := inferInstanceAs (Decidable (_ ∧ _))

def lacksMessage : Option Value → Bool
  | none => true
  | some (.tuple []) => true
  | some _ => false

def prepared (host : Host) (event : Event) : Event :=
  let time := (event.time.map Value.convert).getD host.now
  let ev := { event with
    message := event.message.map Value.convert
    format := event.format.map Value.convert
    time := some time
    sensor := some host.sensor
    uuid := some host.uuid
    timestamp := some (host.formatTime time)
    others := (event.others.mapValues Value.convert).erase "isError".toList }
  match ev.format with
  | none => ev
  | some format =>
      if lacksMessage ev.message then
        match host.interpolate format ev with
        | some message => { ev with message := some message, format := none }
        | none => ev
      else ev

variable (host : Host) (event : Event)

theorem prepared_eq : ∃ message format time timestamp others, event.prepared host =
    { event with
      message, format, time, timestamp, others, sensor := some host.sensor,
      uuid := some host.uuid } := by
  rw [prepared]
  dsimp only
  split
  · exact ⟨_, _, _, _, _, rfl⟩
  · split
    · split
      · exact ⟨_, _, _, _, _, rfl⟩
      · exact ⟨_, _, _, _, _, rfl⟩
    · exact ⟨_, _, _, _, _, rfl⟩

@[simp] theorem prepared_eventid : (event.prepared host).eventid = event.eventid := by
  rcases prepared_eq host event with ⟨_, _, _, _, _, same⟩
  rw [same]

@[simp] theorem prepared_sessionno : (event.prepared host).sessionno = event.sessionno := by
  rcases prepared_eq host event with ⟨_, _, _, _, _, same⟩
  rw [same]

@[simp] theorem prepared_session : (event.prepared host).session = event.session := by
  rcases prepared_eq host event with ⟨_, _, _, _, _, same⟩
  rw [same]

@[simp] theorem prepared_system : (event.prepared host).system = event.system := by
  rcases prepared_eq host event with ⟨_, _, _, _, _, same⟩
  rw [same]

@[simp] theorem prepared_srcIp : (event.prepared host).srcIp = event.srcIp := by
  rcases prepared_eq host event with ⟨_, _, _, _, _, same⟩
  rw [same]

end Event

/-! ## Session numbers -/

def isAddressChar (ch : Char) : Bool :=
  ('0' ≤ ch && ch ≤ '9') || ('a' ≤ ch && ch ≤ 'f') || ch = ':' || ch = '.'

/-- `([0-9]+),[0-9a-f:.]+$`. -/
def prefixNumber (text : Str) : Option Str :=
  let digits := text.takeWhile fun ch => '0' ≤ ch && ch ≤ '9'
  match text.drop digits.length with
  | ',' :: rest =>
      let address := if rest.getLast? = some '\n' then rest.dropLast else rest
      if digits ≠ [] ∧ address ≠ [] ∧ address.all isAddressChar then some digits else none
  | _ => none

/-- `.*name([0-9]+),[0-9a-f:.]+$`. -/
def matchPrefix (name : Str) : Str → Option Str
  | [] => none
  | ch :: rest =>
      match (if ch = '\n' then none else matchPrefix name rest) with
      | some number => some number
      | none =>
          if name.isPrefixOf (ch :: rest) then prefixNumber ((ch :: rest).drop name.length)
          else none

def systemNumber (system : Str) : Option Str :=
  match matchPrefix "TelnetTransport,".toList system with
  | some number => some ('T' :: number)
  | none => (matchPrefix "SSHTransport,".toList system).map ('S' :: ·)

/-! ## Emitting -/

structure Output where
  sessions : Dict Str Str := .empty
  ips : Dict Str Str := .empty

inductive Error where
  | keyError
  | indexError
  deriving DecidableEq

structure Emitted where
  output : Output
  written : Option Event := none
  error : Option Error := none

namespace Output

def sessionnoOf (output : Output) (ev : Event) : Option Str :=
  match ev.sessionno with
  | some sessionno => some sessionno
  | none =>
      match ev.session with
      | some session => (output.sessions.entries.find? fun entry => entry.2 = session).map Prod.fst
      | none => ev.system.bind systemNumber

def protocolOf (sessionno : Char) : Str :=
  if sessionno = 'S' then "ssh".toList
  else if sessionno = 'T' then "telnet".toList
  else "unknown".toList

def deliver (output : Output) (sessionno : Str) (ev : Event) : Emitted :=
  match sessionno.head? with
  | none => { output, error := some .indexError }
  | some first =>
      let written := some { ev with protocol := some (protocolOf first) }
      if ev.eventid ≠ some "cowrie.session.closed".toList then { output, written }
      else if sessionno ∉ output.sessions.keys then { output, written, error := some .keyError }
      else
        let output := { output with sessions := output.sessions.erase sessionno }
        if sessionno ∉ output.ips.keys then { output, written, error := some .keyError }
        else { output := { output with ips := output.ips.erase sessionno }, written }

def emit (host : Host) (output : Output) (event : Event) : Emitted :=
  if ¬ event.Loggable then { output }
  else
    let ev := event.prepared host
    match output.sessionnoOf ev with
    | none => { output }
    | some sessionno =>
        let ev := { ev with sessionno := none, srcIp := (output.ips.get? sessionno).or ev.srcIp }
        if ev.eventid = some "cowrie.session.connect".toList then
          match ev.session, ev.srcIp with
          | none, _ => { output, error := some .keyError }
          | some session, none =>
              { output := { output with sessions := output.sessions.set sessionno session }
                error := some .keyError }
          | some session, some srcIp =>
              deliver {
                sessions := output.sessions.set sessionno session
                ips := output.ips.set sessionno srcIp } sessionno ev
        else
          match output.sessions.get? sessionno with
          | none => { output, error := some .keyError }
          | some session => deliver output sessionno { ev with session := some session }

variable {host : Host} {output : Output} {event : Event} {sessionno : Str}

theorem deliver_open (output : Output) (ev : Event) (named : sessionno ≠ [])
    (notClosed : ev.eventid ≠ some "cowrie.session.closed".toList) :
    ∃ protocol, deliver output sessionno ev = { output, written := some { ev with protocol } } := by
  rcases List.exists_cons_of_ne_nil named with ⟨first, rest, rfl⟩
  use some (protocolOf first)
  rw [deliver, List.head?_cons]
  exact if_pos notClosed

theorem deliver_closed (output : Output) (ev : Event) (named : sessionno ≠ [])
    (closes : ev.eventid = some "cowrie.session.closed".toList)
    (inSessions : sessionno ∈ output.sessions.keys) (inIps : sessionno ∈ output.ips.keys) :
    ∃ protocol, deliver output sessionno ev = {
      output := {
        sessions := output.sessions.erase sessionno
        ips := output.ips.erase sessionno }
      written := some { ev with protocol } } := by
  rcases List.exists_cons_of_ne_nil named with ⟨first, rest, rfl⟩
  use some (protocolOf first)
  rw [deliver, List.head?_cons]
  dsimp only
  rw [if_neg (not_not.mpr closes), if_neg (not_not.mpr inSessions), if_neg (not_not.mpr inIps)]

theorem emit_connect (loggable : event.Loggable)
    (connects : event.eventid = some "cowrie.session.connect".toList)
    (number : event.sessionno = some sessionno) (new : output.ips.get? sessionno = none)
    {id address : Str} (hasId : event.session = some id) (hasAddress : event.srcIp = some address) :
    emit host output event = deliver {
        sessions := output.sessions.set sessionno id
        ips := output.ips.set sessionno address } sessionno
      { event.prepared host with sessionno := none, srcIp := some address } := by
  rw [emit, if_neg (not_not.mpr loggable)]
  simp only [sessionnoOf, Event.prepared_sessionno, number, Event.prepared_eventid, connects,
    Event.prepared_session, hasId, Event.prepared_srcIp, hasAddress, new, Option.none_or,
    if_true]

theorem emit_known (loggable : event.Loggable)
    (other : event.eventid ≠ some "cowrie.session.connect".toList)
    (number : output.sessionnoOf (event.prepared host) = some sessionno) {id address : Str}
    (session : output.sessions.get? sessionno = some id)
    (ip : output.ips.get? sessionno = some address) :
    emit host output event = deliver output sessionno
      { event.prepared host with
        sessionno := none, srcIp := some address, session := some id } := by
  rw [emit, if_neg (not_not.mpr loggable)]
  simp only [number, Event.prepared_eventid, other, session, ip, Option.some_or, if_false]

theorem emit_unknown (loggable : event.Loggable)
    (other : event.eventid ≠ some "cowrie.session.connect".toList)
    (number : output.sessionnoOf (event.prepared host) = some sessionno)
    (session : output.sessions.get? sessionno = none) :
    emit host output event = { output, error := some .keyError } := by
  rw [emit, if_neg (not_not.mpr loggable)]
  simp only [number, Event.prepared_eventid, other, session, if_false]

theorem emit_unnumbered (number : output.sessionnoOf (event.prepared host) = none) :
    emit host output event = { output } := by
  rw [emit]
  split
  · rfl
  · simp only [number]

end Output

end Core

end LlmHoneypot
