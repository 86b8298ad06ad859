import LlmHoneypot.Foundation.KeyedList
import LlmHoneypot.SshProxy.Sftp

/-! # The channels of the SSH proxy

`SSH.parse_num_packet` as far as it concerns channels, beside the channels that the
connection protocol has open. -/

namespace LlmHoneypot

namespace SshProxy

open KeyedList

namespace Parent

def other : Parent → Parent
  | .server => .client
  | .client => .server

end Parent

/-! ## Messages -/

inductive Request
  | shell
  | exec (command : Bytes)
  | subsystem (name : Bytes)
  | env (var value : Bytes)
  | other (type : Bytes)
  deriving DecidableEq, Repr

/-- A message of either side about a channel; `recipient` is the number that the receiver
gave the channel, `sender` the one that the sender gives it. -/
inductive ChannelMessage
  | channelOpen (type : Bytes) (sender : Nat)
  | openConfirmation (recipient sender : Nat)
  | openFailure (recipient : Nat)
  | request (recipient : Nat) (request : Request)
  /-- Extended data as well. -/
  | data (recipient : Nat) (data : Bytes)
  | close (recipient : Nat)
  /-- Window adjustments, the end of the data, answers to requests. -/
  | other (recipient : Nat)
  deriving DecidableEq, Repr

structure Config where
  forwarding : Bool
  sftpEnabled : Bool
  deriving DecidableEq, Repr

/-! ## Channels -/

structure Channel where
  serverID : Option Nat := none
  clientID : Option Nat := none
  type : Bytes
  serverClosed : Bool := false
  clientClosed : Bool := false
  deriving DecidableEq, Repr

namespace Channel

/-- The number that the side gave the channel. -/
def number (side : Parent) (channel : Channel) : Option Nat :=
  match side with
  | .server => channel.serverID
  | .client => channel.clientID

def setNumber (side : Parent) (number : Nat) (channel : Channel) : Channel :=
  match side with
  | .server => { channel with serverID := some number }
  | .client => { channel with clientID := some number }

def closed (side : Parent) (channel : Channel) : Bool :=
  match side with
  | .server => channel.serverClosed
  | .client => channel.clientClosed

def close (side : Parent) (channel : Channel) : Channel :=
  match side with
  | .server => { channel with serverClosed := true }
  | .client => { channel with clientClosed := true }

variable (side other : Parent) (channel : Channel)

@[simp] theorem number_setNumber (number : Nat) :
    (channel.setNumber side number).number side = some number := by
  cases side <;> rfl

@[simp] theorem number_other_setNumber (number : Nat) :
    (channel.setNumber side number).number side.other = channel.number side.other := by
  cases side <;> rfl

@[simp] theorem type_setNumber (number : Nat) :
    (channel.setNumber side number).type = channel.type := by
  cases side <;> rfl

@[simp] theorem number_close : (channel.close other).number side = channel.number side := by
  cases side <;> cases other <;> rfl

@[simp] theorem type_close : (channel.close side).type = channel.type := by
  cases side <;> rfl

end Channel

def Config.refuses (config : Config) (type : Bytes) : Bool :=
  (type = text "direct-tcpip" || type = text "forwarded-tcpip") && !config.forwarding

def Config.records (config : Config) (type : Bytes) : Bool :=
  type = text "session" ||
    ((type = text "direct-tcpip" || type = text "forwarded-tcpip") && config.forwarding)

/-- The channels that are open or being opened, after a message that the protocol allows.
A channel is open for a side when that side has given it a number. -/
def Config.protocolStep (config : Config) (channels : List Channel) (parent : Parent) :
    ChannelMessage → Option (List Channel)
  | .channelOpen type sender =>
      if (channels.find? fun channel => channel.number parent = some sender).isSome then none
      else if config.refuses type then some channels
      else some (channels ++ [Channel.setNumber parent sender { type }])
  | .openConfirmation recipient sender =>
      if (channels.find? fun channel => channel.number parent = some sender).isSome then none
      else
        (channels.find? fun channel => channel.number parent.other = some recipient &&
          (channel.number parent).isNone).map fun _ =>
            revise (Channel.number parent.other) recipient (Channel.setNumber parent sender)
              channels
  | .openFailure recipient =>
      (channels.find? fun channel => channel.number parent.other = some recipient &&
        (channel.number parent).isNone).map fun _ =>
          discard (Channel.number parent.other) recipient channels
  | .request recipient _ | .data recipient _ | .other recipient =>
      (channels.find? (isOpen recipient)).map fun _ => channels
  | .close recipient =>
      (channels.find? (isOpen recipient)).map fun channel =>
        if channel.closed parent.other then
          discard (Channel.number parent.other) recipient channels
        else revise (Channel.number parent.other) recipient (Channel.close parent) channels
where
  /-- The side may send on the channel. -/
  isOpen (recipient : Nat) (channel : Channel) : Bool :=
    channel.number parent.other = some recipient && (channel.number parent).isSome &&
      !channel.closed parent

/-! ## The table -/

inductive SessionKind
  | portForward (name : Str)
  | term (name : Str) (clientID : Nat)
  | exec (name : Str) (serverID : Nat) (command : Bytes)
  | sftp (name : Str)
  deriving DecidableEq, Repr

/-- What the table needs of the sessions, which are objects: it makes them, hands them
data and tells them of the end. Each may raise. -/
structure Sessions (World : Type) where
  make : SessionKind → World → Option (Nat × World)
  parsePacket : Nat → Parent → Bytes → World → Option World
  channelClosed : Nat → World → Option World

structure Record extends Channel where
  name : Option Str := none
  session : Option Nat := none
  deriving DecidableEq, Repr

structure SSH (World : Type) where
  channels : List Record := []
  world : World

def getChannel (channelNum : Nat) (parent : Parent) (channels : List Record) : Option Record :=
  lookup (fun record => record.number parent.other) channelNum channels

namespace SSH

variable {World : Type}

def createChannel (parent : Parent) (channelID : Nat) (type : Bytes) (ssh : SSH World) :
    SSH World :=
  { ssh with
    channels := ssh.channels ++ [{ toChannel := Channel.setNumber parent channelID { type } }] }

/-- The record that `get_channel` found is changed where it is: it is the first one of its
value. -/
def update (record changed : Record) (ssh : SSH World) : SSH World :=
  { ssh with channels := ssh.channels.replace record changed }

def remove (record : Record) (ssh : SSH World) : SSH World :=
  { ssh with channels := ssh.channels.erase record }

/-- A name such as `[TERM0]`. -/
def channelName (kind : String) (number : Nat) : Str :=
  '[' :: kind.toList ++ Text.decimal number ++ [']']

def setSession (sessions : Sessions World) (record : Record) (name : Str) (kind : SessionKind)
    (ssh : SSH World) : Option (SSH World) :=
  (sessions.make kind ssh.world).map fun (session, world) =>
    { ssh.update record { record with name := some name, session := some session } with world }

def openChannel (config : Config) (sessions : Sessions World) (parent : Parent) (type : Bytes)
    (channelID : Nat) (ssh : SSH World) : Option (SSH World) :=
  if type = text "session" then some (ssh.createChannel parent channelID type)
  else if type = text "direct-tcpip" ∨ type = text "forwarded-tcpip" then
    if config.forwarding then
      let ssh := ssh.createChannel parent channelID type
      let name := match parent with
        | .server => channelName "LPRTF" channelID
        | .client => channelName "RPRTF" channelID
      (getChannel channelID parent.other ssh.channels).bind fun record =>
        ssh.setSession sessions record name (.portForward name)
    else some ssh
  else some ssh

def requestOn (config : Config) (sessions : Sessions World) (record : Record) (ssh : SSH World) :
    Request → Option (SSH World)
  | .shell => do
      let serverID ← record.serverID
      let clientID ← record.clientID
      let name := channelName "TERM" serverID
      ssh.setSession sessions record name (.term name clientID)
  | .exec command => do
      let serverID ← record.serverID
      let name := channelName "EXEC" serverID
      ssh.setSession sessions record name (.exec name serverID command)
  | .subsystem subsystem =>
      if subsystem = text "sftp" then
        record.serverID.bind fun serverID =>
          if config.sftpEnabled then
            let name := channelName "SFTP" serverID
            ssh.setSession sessions record name (.sftp name)
          else some ssh
      else (Utf8.decode subsystem).map fun _ => ssh
  | .env var value => (Utf8.decode var).bind fun _ => (Utf8.decode value).map fun _ => ssh
  | .other type =>
      if type ∈ [text "window-change", text "pty-req", text "exit-status", text "exit-signal"] then
        some ssh
      else (Utf8.decode type).map fun _ => ssh

/-- The side has closed the channel; the record goes when both have. -/
def closeChannel (sessions : Sessions World) (parent : Parent) (record : Record)
    (ssh : SSH World) : Option (SSH World) :=
  let closed := { record with toChannel := record.close parent }
  let ssh := ssh.update record closed
  if closed.serverClosed && closed.clientClosed then
    (closed.session.elim (some ssh.world) (sessions.channelClosed · ssh.world)).map fun world =>
      { ssh.remove closed with world }
  else some ssh

/-- The part of `parse_num_packet` for these messages; a `KeyError` and the like end the
connection. What is sent on, and what is only logged, is left out. -/
def parseNumPacket (config : Config) (sessions : Sessions World) (parent : Parent)
    (ssh : SSH World) : ChannelMessage → Option (SSH World)
  | .channelOpen type sender => ssh.openChannel config sessions parent type sender
  | .openConfirmation recipient sender =>
      (getChannel recipient parent ssh.channels).map fun record =>
        ssh.update record { record with toChannel := record.setNumber parent sender }
  | .openFailure recipient => (getChannel recipient parent ssh.channels).map ssh.remove
  | .request recipient request =>
      (getChannel recipient parent ssh.channels).bind fun record =>
        ssh.requestOn config sessions record request
  | .data recipient data => do
      let record ← getChannel recipient parent ssh.channels
      let session ← record.session
      let world ← sessions.parsePacket session parent data ssh.world
      some { ssh with world }
  | .close recipient =>
      (getChannel recipient parent ssh.channels).bind fun record =>
        ssh.closeChannel sessions parent record
  | .other _ => some ssh

end SSH

/-! ## Numbers stay unique -/

def Distinct (channels : List Channel) : Prop := ∀ side, UniqueKeys (Channel.number side) channels

theorem Parent.eq_or_eq_other (parent side : Parent) : side = parent ∨ side = parent.other := by
  cases parent <;> cases side <;> simp [Parent.other]

theorem find?_isSome_false {channels : List Channel} {side : Parent} {number : Nat}
    (unused : ¬ (channels.find? fun channel => channel.number side = some number).isSome) :
    ∀ channel ∈ channels, channel.number side ≠ some number := by
  rw [Option.not_isSome_iff_eq_none, List.find?_eq_none] at unused
  intro channel member same
  exact unused channel member (decide_eq_true same)

theorem Distinct.discard {channels : List Channel} (distinct : Distinct channels) (side : Parent)
    (number : Nat) : Distinct (discard (Channel.number side) number channels) :=
  fun other => (distinct other).filter _

theorem Distinct.protocolStep {config : Config} {channels next : List Channel} {parent : Parent}
    {message : ChannelMessage} (distinct : Distinct channels)
    (allowed : config.protocolStep channels parent message = some next) : Distinct next := by
  unfold Config.protocolStep at allowed
  split at allowed
  · split at allowed
    · cases allowed
    · next unused =>
      split at allowed
      · cases allowed
        exact distinct
      · cases allowed
        intro side
        apply (distinct side).append_singleton
        intro taken isTaken other member
        rcases Parent.eq_or_eq_other parent side with rfl | rfl
        · rw [Channel.number_setNumber] at isTaken
          cases isTaken
          exact find?_isSome_false unused other member
        · rw [Channel.number_other_setNumber] at isTaken
          cases parent <;> cases isTaken
  · split at allowed
    · cases allowed
    · next recipient sender unused =>
      rcases Option.map_eq_some_iff.mp allowed with ⟨_, _, rfl⟩
      intro side
      rcases Parent.eq_or_eq_other parent side with rfl | rfl
      · apply (distinct side).assign (distinct side.other) (find?_isSome_false unused)
        exact fun channel => channel.number_setNumber side sender
      · apply (distinct parent.other).revise
        exact fun channel => channel.number_other_setNumber parent sender
  · rcases Option.map_eq_some_iff.mp allowed with ⟨_, _, rfl⟩
    exact distinct.discard _ _
  · rcases Option.map_eq_some_iff.mp allowed with ⟨_, _, rfl⟩
    exact distinct
  · rcases Option.map_eq_some_iff.mp allowed with ⟨_, _, rfl⟩
    exact distinct
  · rcases Option.map_eq_some_iff.mp allowed with ⟨_, _, rfl⟩
    exact distinct
  · rcases Option.map_eq_some_iff.mp allowed with ⟨_, _, rfl⟩
    split
    · exact distinct.discard _ _
    · intro side
      apply (distinct side).revise
      exact fun channel => channel.number_close side parent

/-! ## The table holds the recorded channels -/

theorem records_type_setNumber (config : Config) (side : Parent) (number : Nat) (channel : Channel) :
    config.records (channel.setNumber side number).type = config.records channel.type := by
  rw [Channel.type_setNumber]

structure Agrees {World : Type} (config : Config) (ssh : SSH World) (channels : List Channel) :
    Prop where
  records : ssh.channels.map Record.toChannel =
    channels.filter fun channel => config.records channel.type
  distinct : Distinct channels

section Simulation

variable {World : Type} {config : Config} {sessions : Sessions World} {ssh next : SSH World}
  {channels : List Channel} {parent : Parent} {number : Nat} {record : Record}

theorem Agrees.unique (agrees : Agrees config ssh channels) (side : Parent) :
    UniqueKeys (fun record : Record => record.number side) ssh.channels := by
  have inTable := (agrees.distinct side).filter fun channel => config.records channel.type
  rw [← agrees.records, UniqueKeys, List.filterMap_map] at inTable
  exact inTable

theorem Agrees.map_update (agrees : Agrees config ssh channels)
    (found : getChannel number parent ssh.channels = some record) {change : Record → Record}
    {channelChange : Channel → Channel}
    (changes : ∀ record, (change record).toChannel = channelChange record.toChannel) :
    (ssh.update record (change record)).channels.map Record.toChannel =
      revise (Channel.number parent.other) number channelChange
        (channels.filter fun channel => config.records channel.type) := by
  have here := lookup_eq_some found
  rw [SSH.update, replace_eq_revise (agrees.unique _) here.1 here.2, ← agrees.records]
  exact map_revise (fun _ => rfl) changes

theorem Agrees.map_remove (agrees : Agrees config ssh channels)
    (found : getChannel number parent ssh.channels = some record) :
    (ssh.remove record).channels.map Record.toChannel =
      discard (Channel.number parent.other) number
        (channels.filter fun channel => config.records channel.type) := by
  have here := lookup_eq_some found
  rw [SSH.remove, erase_eq_discard (agrees.unique _) here.1 here.2, ← agrees.records]
  exact map_discard fun _ => rfl

theorem revise_self (side : Parent) (number : Nat) (channels : List Channel) :
    revise (Channel.number side) number (fun channel => channel) channels = channels := by
  simp [revise]

theorem Agrees.setSession {name : Str} {kind : SessionKind} (agrees : Agrees config ssh channels)
    (found : getChannel number parent ssh.channels = some record)
    (returned : ssh.setSession sessions record name kind = some next) :
    Agrees config next channels := by
  rcases Option.map_eq_some_iff.mp returned with ⟨⟨session, world⟩, _, rfl⟩
  refine ⟨?_, agrees.distinct⟩
  have mapped := @Agrees.map_update _ _ _ _ _ _ _ agrees found
    (fun record => { record with name := some name, session := some session })
    (fun channel => channel) fun _ => rfl
  rw [revise_self] at mapped
  exact mapped

theorem Agrees.createChannel {type : Bytes} (agrees : Agrees config ssh channels)
    (isRecorded : config.records type = true)
    (distinct : Distinct (channels ++ [Channel.setNumber parent number { type }])) :
    Agrees config (ssh.createChannel parent number type)
      (channels ++ [Channel.setNumber parent number { type }]) := by
  refine ⟨?_, distinct⟩
  rw [SSH.createChannel, List.map_append, List.filter_append, agrees.records]
  simp [isRecorded]

theorem Agrees.openChannel {type : Bytes} {later : List Channel}
    (agrees : Agrees config ssh channels)
    (allowed : config.protocolStep channels parent (.channelOpen type number) = some later)
    (returned : ssh.openChannel config sessions parent type number = some next) :
    Agrees config next later := by
  have distinct := agrees.distinct.protocolStep allowed
  dsimp only [Config.protocolStep] at allowed
  unfold SSH.openChannel at returned
  split at allowed
  · cases allowed
  · split at returned
    · next isSession =>
      have refused : config.refuses type = false := by
        rw [isSession, Config.refuses]
        have differs : text "session" ≠ text "direct-tcpip" ∧
            text "session" ≠ text "forwarded-tcpip" := by decide
        simp [differs.1, differs.2]
      rw [refused, if_neg Bool.false_ne_true] at allowed
      cases allowed
      cases returned
      apply agrees.createChannel _ distinct
      simp [Config.records, isSession]
    · next noSession =>
      split at returned
      · next isForwarding =>
        split at returned
        · next forwarding =>
          have refused : config.refuses type = false := by simp [Config.refuses, forwarding]
          rw [refused, if_neg Bool.false_ne_true] at allowed
          cases allowed
          have isRecorded : config.records type = true := by
            simpa [Config.records, forwarding] using Or.inr isForwarding
          rcases Option.bind_eq_some_iff.mp returned with ⟨record, found, set⟩
          exact (agrees.createChannel isRecorded distinct).setSession found set
        · next refusing =>
          have refused : config.refuses type = true := by
            simpa [Config.refuses, refusing] using isForwarding
          rw [refused, if_pos rfl] at allowed
          cases allowed
          cases returned
          exact agrees
      · next noForwarding =>
        have unknown : config.refuses type = false ∧ config.records type = false := by
          simp only [not_or] at noForwarding
          simp [Config.refuses, Config.records, noSession, noForwarding]
        rw [unknown.1, if_neg Bool.false_ne_true] at allowed
        cases allowed
        cases returned
        refine ⟨?_, distinct⟩
        rw [List.filter_append, agrees.records]
        simp [unknown.2]

theorem Agrees.requestOn {request : Request} (agrees : Agrees config ssh channels)
    (found : getChannel number parent ssh.channels = some record)
    (returned : ssh.requestOn config sessions record request = some next) :
    Agrees config next channels := by
  cases request with
  | shell =>
      rcases Option.bind_eq_some_iff.mp returned with ⟨serverID, _, inner⟩
      rcases Option.bind_eq_some_iff.mp inner with ⟨clientID, _, set⟩
      exact agrees.setSession found set
  | exec command =>
      rcases Option.bind_eq_some_iff.mp returned with ⟨serverID, _, set⟩
      exact agrees.setSession found set
  | subsystem name =>
      unfold SSH.requestOn at returned
      dsimp only at returned
      split at returned
      · rcases Option.bind_eq_some_iff.mp returned with ⟨serverID, _, inner⟩
        split at inner
        · exact agrees.setSession found inner
        · cases inner
          exact agrees
      · rcases Option.map_eq_some_iff.mp returned with ⟨_, _, rfl⟩
        exact agrees
  | env var value =>
      rcases Option.bind_eq_some_iff.mp returned with ⟨_, _, inner⟩
      rcases Option.map_eq_some_iff.mp inner with ⟨_, _, rfl⟩
      exact agrees
  | other type =>
      unfold SSH.requestOn at returned
      dsimp only at returned
      split at returned
      · cases returned
        exact agrees
      · rcases Option.map_eq_some_iff.mp returned with ⟨_, _, rfl⟩
        exact agrees

theorem Agrees.channel_eq {channel : Channel} (agrees : Agrees config ssh channels)
    (found : getChannel number parent ssh.channels = some record)
    (member : channel ∈ channels) (numbered : channel.number parent.other = some number) :
    channel = record.toChannel := by
  have here := lookup_eq_some found
  have inTable : record.toChannel ∈ ssh.channels.map Record.toChannel :=
    List.mem_map_of_mem here.1
  rw [agrees.records] at inTable
  exact (agrees.distinct _).eq_of_key member numbered (List.mem_of_mem_filter inTable) here.2

theorem closed_close (parent : Parent) (channel : Channel) :
    ((channel.close parent).serverClosed && (channel.close parent).clientClosed) =
      channel.closed parent.other := by
  cases parent <;> simp [Channel.close, Channel.closed, Parent.other]

theorem Agrees.closeChannel {later : List Channel} (agrees : Agrees config ssh channels)
    (found : getChannel number parent ssh.channels = some record)
    (allowed : config.protocolStep channels parent (.close number) = some later)
    (returned : ssh.closeChannel sessions parent record = some next) :
    Agrees config next later := by
  refine ⟨?_, agrees.distinct.protocolStep allowed⟩
  rcases Option.map_eq_some_iff.mp allowed with ⟨channel, isChannel, rfl⟩
  have sends := List.find?_some isChannel
  simp only [Config.protocolStep.isOpen, Bool.and_eq_true, decide_eq_true_eq] at sends
  have same := agrees.channel_eq found (List.mem_of_find?_eq_some isChannel) sends.1.1
  let change : Record → Record := fun record => { record with toChannel := record.close parent }
  have updated := @Agrees.map_update _ _ _ _ _ _ _ agrees found change (Channel.close parent)
    fun _ => rfl
  subst same
  unfold SSH.closeChannel at returned
  dsimp only at returned
  rw [closed_close] at returned
  split at returned
  · next bothClosed =>
    rw [if_pos bothClosed, filter_discard]
    rcases Option.map_eq_some_iff.mp returned with ⟨world, _, rfl⟩
    have here := lookup_eq_some found
    have replaced : ssh.channels.replace record (change record) =
        revise (fun record : Record => record.number parent.other) number change ssh.channels :=
      replace_eq_revise (agrees.unique _) here.1 here.2
    have keys : ∀ record : Record,
        (change record).number parent.other = record.number parent.other :=
      fun record => record.number_close parent.other parent
    have member : change record ∈
        revise (fun record : Record => record.number parent.other) number change ssh.channels :=
      List.mem_map.mpr ⟨record, here.1, if_pos here.2⟩
    have erased := erase_eq_discard ((agrees.unique parent.other).revise keys) member
      ((keys record).trans here.2)
    rw [discard_revise keys, ← replaced] at erased
    rw [← agrees.records]
    exact (congrArg _ erased).trans (map_discard fun _ => rfl)
  · next stillOpen =>
    rw [if_neg stillOpen]
    cases returned
    rw [filter_revise fun channel => by rw [Channel.type_close]]
    exact updated

theorem Agrees.step {message : ChannelMessage} {later : List Channel}
    (agrees : Agrees config ssh channels)
    (allowed : config.protocolStep channels parent message = some later)
    (returned : ssh.parseNumPacket config sessions parent message = some next) :
    Agrees config next later := by
  cases message with
  | channelOpen type sender => exact agrees.openChannel allowed returned
  | openConfirmation recipient sender =>
      refine ⟨?_, agrees.distinct.protocolStep allowed⟩
      rcases Option.map_eq_some_iff.mp returned with ⟨record, found, rfl⟩
      dsimp only [Config.protocolStep] at allowed
      split at allowed
      · cases allowed
      · rcases Option.map_eq_some_iff.mp allowed with ⟨_, _, rfl⟩
        rw [filter_revise fun channel => records_type_setNumber config parent sender channel]
        exact @Agrees.map_update _ _ _ _ _ _ _ agrees found
          (fun record => { record with toChannel := record.setNumber parent sender })
          (Channel.setNumber parent sender) fun _ => rfl
  | openFailure recipient =>
      refine ⟨?_, agrees.distinct.protocolStep allowed⟩
      rcases Option.map_eq_some_iff.mp returned with ⟨record, found, rfl⟩
      rcases Option.map_eq_some_iff.mp allowed with ⟨_, _, rfl⟩
      rw [filter_discard]
      exact agrees.map_remove found
  | request recipient request =>
      rcases Option.bind_eq_some_iff.mp returned with ⟨record, found, requested⟩
      rcases Option.map_eq_some_iff.mp allowed with ⟨_, _, rfl⟩
      exact agrees.requestOn found requested
  | data recipient data =>
      rcases Option.map_eq_some_iff.mp allowed with ⟨_, _, rfl⟩
      rcases Option.bind_eq_some_iff.mp returned with ⟨record, _, inSession⟩
      rcases Option.bind_eq_some_iff.mp inSession with ⟨session, _, parsed⟩
      rcases Option.bind_eq_some_iff.mp parsed with ⟨world, _, nothing⟩
      cases nothing
      exact ⟨agrees.records, agrees.distinct⟩
  | close recipient =>
      rcases Option.bind_eq_some_iff.mp returned with ⟨record, found, closed⟩
      exact agrees.closeChannel found allowed closed
  | other recipient =>
      rcases Option.map_eq_some_iff.mp allowed with ⟨_, _, rfl⟩
      cases returned
      exact agrees

end Simulation

/-! ## Runs -/

/-- The proxy, and beside it the channels of the protocol. -/
structure Proxied (World : Type) where
  ssh : SSH World
  channels : List Channel := []

namespace Proxied

variable {World : Type}

/-- One message of either side, where the protocol allows it. -/
def step (config : Config) (sessions : Sessions World) (proxied : Proxied World)
    (message : Parent × ChannelMessage) : Option (Proxied World) := do
  let channels ← config.protocolStep proxied.channels message.1 message.2
  let ssh ← proxied.ssh.parseNumPacket config sessions message.1 message.2
  some { ssh, channels }

end Proxied

/-- The channel with the number is one that records are made of, and every such channel
opened before it has a number on the same side. -/
def Found (config : Config) (channels : List Channel) (side : Parent) (number : Nat) : Prop :=
  Reachable (Channel.number side) (fun channel => config.records channel.type) number channels

/-- After every run that the protocol allows no two records have one number on a side, and
`get_channel` returns the channel with a number, or raises where there is none, exactly
when it is found in this sense. -/
theorem get_channel_iff {World : Type} {config : Config} {sessions : Sessions World}
    {world : World} {messages : List (Parent × ChannelMessage)} {proxied : Proxied World}
    (ran : EventRun.run (Proxied.step config sessions) { ssh := { world } } messages =
      some proxied) :
    (∀ side, UniqueKeys (fun record : Record => record.number side) proxied.ssh.channels ∧
      UniqueKeys (Channel.number side) proxied.channels) ∧
    ∀ number parent,
      (getChannel number parent proxied.ssh.channels).map Record.toChannel =
          proxied.channels.find? (fun channel => channel.number parent.other = some number) ↔
        Found config proxied.channels parent.other number := by
  have start : Agrees config ({ world } : SSH World) [] := ⟨rfl, fun _ => List.nodup_nil⟩
  have agrees := EventRun.run_invariant
    (fun proxied : Proxied World => Agrees config proxied.ssh proxied.channels)
    (fun {proxied message next} agrees taken => by
      rcases Option.bind_eq_some_iff.mp taken with ⟨channels, allowed, inner⟩
      rcases Option.bind_eq_some_iff.mp inner with ⟨ssh, returned, nothing⟩
      cases nothing
      exact agrees.step allowed returned)
    start ran
  constructor
  · exact fun side => ⟨agrees.unique side, agrees.distinct side⟩
  · intro number parent
    have mapped : (getChannel number parent proxied.ssh.channels).map Record.toChannel =
        lookup (Channel.number parent.other) number
          (proxied.ssh.channels.map Record.toChannel) := map_lookup fun _ => rfl
    rw [mapped, agrees.records]
    exact lookup_filter_eq_find?_iff (agrees.distinct parent.other)

section Examples

def silent : Sessions Unit where
  make _ _ := some (0, ())
  parsePacket _ _ _ _ := some ()
  channelClosed _ _ := some ()

def enabled : Config := { forwarding := true, sftpEnabled := true }

def twoOpened : List (Parent × ChannelMessage) :=
  [(.server, .channelOpen (text "session") 0), (.server, .channelOpen (text "session") 1)]

theorem get_channel_example :
    ∃ proxied : Proxied Unit,
      EventRun.run (Proxied.step enabled silent) { ssh := { world := () } }
          (twoOpened ++ [(.client, .openConfirmation 0 4)]) = some proxied ∧
        (∀ side, UniqueKeys (fun record : Record => record.number side) proxied.ssh.channels ∧
          UniqueKeys (Channel.number side) proxied.channels) ∧
        ∀ number parent,
          (getChannel number parent proxied.ssh.channels).map Record.toChannel =
              proxied.channels.find? (fun channel => channel.number parent.other = some number) ↔
            Found enabled proxied.channels parent.other number := by
  have returns : (EventRun.run (Proxied.step enabled silent) { ssh := { world := () } }
      (twoOpened ++ [(.client, .openConfirmation 0 4)])).isSome = true := by decide
  rcases Option.isSome_iff_exists.mp returns with ⟨proxied, ran⟩
  exact ⟨proxied, ran, get_channel_iff ran⟩

/-- The second channel is confirmed first, and is not found behind the first one. -/
theorem confirmed_channel_not_found :
    (EventRun.run (Proxied.step enabled silent) { ssh := { world := () } }
        (twoOpened ++ [(.client, .openConfirmation 1 5)])).map
      (fun proxied => (getChannel 5 .server proxied.ssh.channels,
        proxied.channels.find? fun channel => channel.number Parent.server.other = some 5)) =
    some (none, some { serverID := some 1, clientID := some 5, type := text "session" }) := by
  decide

end Examples

end SshProxy

end LlmHoneypot
