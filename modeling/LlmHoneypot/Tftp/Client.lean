import LlmHoneypot.Foundation.BigEndian
import LlmHoneypot.Foundation.EventRun
import LlmHoneypot.Foundation.Returns

/-! # The TFTP client

`TFTPClient` of `commands/tftp.py` with the timer, the transport, the artifact and the
Deferred it works on. -/

namespace LlmHoneypot

namespace Tftp

structure Address where
  host : Str
  port : Nat
  deriving DecidableEq, Repr

def OPCODE_RRQ : Nat := 1
def OPCODE_DATA : Nat := 3
def OPCODE_ACK : Nat := 4
def OPCODE_ERROR : Nat := 5

def MODE_OCTET : Bytes := [0x6F, 0x63, 0x74, 0x65, 0x74]

def TFTP_BLOCK_SIZE : Nat := 512
def TFTP_MAX_RETRIES : Nat := 3

inductive Outcome
  | complete
  | failed (text : Str)
  deriving DecidableEq, Repr

/-- The arguments of the client; `sends` says whether `transport.write` of a packet
returns. -/
structure Settings where
  server : Address
  filename : Str
  sends : Bytes → Address → Bool

structure Client where
  currentBlock : Nat := 0
  lastPacket : Bytes := []
  retryCount : Nat := 0
  /-- `timeout_call` is there and active. -/
  timeoutCall : Bool := false
  bytesReceived : Nat := 0
  serverTid : Option Address := none
  artifact : Bytes := []
  /-- What was written to the transport. -/
  written : List (Bytes × Address) := []
  /-- The calls of `deferred.callback` and `deferred.errback`. -/
  fired : List Outcome := []
  /-- `stopProtocol` was called. -/
  stopped : Bool := false
  deriving DecidableEq, Repr

inductive Raised
  | transport
  | valueError
  | alreadyCalledError
  deriving DecidableEq, Repr

/-- A call returns the client, or raises and leaves it as it is then. -/
abbrev Call := Except (Raised × Client) Client

def word (offset : Nat) (packet : Bytes) : Nat := BigEndian.decode ((packet.drop offset).take 2)

def rrqPacket (filename : Str) : Bytes :=
  BigEndian.encode 2 OPCODE_RRQ ++ Utf8.encode filename ++ [0] ++ MODE_OCTET ++ [0]

def ackPacket (blockNum : Nat) : Bytes :=
  BigEndian.encode 2 OPCODE_ACK ++ BigEndian.encode 2 blockNum

def errorText (packet : Bytes) : Str :=
  let errorMsg := Utf8.decodeReplace ((packet.drop 4).rdropWhile (· = 0))
  "TFTP Error ".toList ++ Text.decimal (word 2 packet) ++ ": ".toList ++ errorMsg

namespace Client

variable (settings : Settings) (client : Client)

def scheduleTimeout : Client := { client with timeoutCall := true }

def cancelTimeout : Client := { client with timeoutCall := false }

def transmit (packet : Bytes) (address : Address) : Call :=
  if settings.sends packet address then
    .ok { client with written := client.written ++ [(packet, address)] }
  else .error (.transport, client)

def fire (outcome : Outcome) : Call :=
  let next := { client with fired := client.fired ++ [outcome] }
  if client.fired = [] then .ok next else .error (.alreadyCalledError, next)

def writeArtifact (data : Bytes) : Call :=
  if client.fired = [] then .ok { client with artifact := client.artifact ++ data }
  else .error (.valueError, client)

def sendRRQ : Call := do
  let client ← client.transmit settings (rrqPacket settings.filename) settings.server
  return client.scheduleTimeout

def sendACK (blockNum : Nat) : Call := do
  let packet := ackPacket blockNum
  let client ← client.transmit settings packet (client.serverTid.getD settings.server)
  return { client with lastPacket := packet }.scheduleTimeout

def finishBlock (data : Bytes) : Call :=
  if data.length < TFTP_BLOCK_SIZE then client.cancelTimeout.fire .complete else .ok client

def takeBlock (blockNum : Nat) (data : Bytes) : Call := do
  let client := { client with
    currentBlock := blockNum
    bytesReceived := client.bytesReceived + data.length }
  let client ← client.writeArtifact data
  let client ← client.sendACK settings blockNum
  client.finishBlock data

def handleDATA (packet : Bytes) : Call :=
  if packet.length < 4 then .ok client
  else
    let blockNum := word 2 packet
    if blockNum = client.currentBlock + 1 then client.takeBlock settings blockNum (packet.drop 4)
    else if blockNum = client.currentBlock then client.sendACK settings blockNum
    else .ok client

def handleERROR (packet : Bytes) : Call :=
  if packet.length < 5 then .ok client
  else client.cancelTimeout.fire (.failed (errorText packet))

/-- The first response names the server; every response stops the timer. -/
def heard (address : Address) : Client :=
  { client with
    serverTid := some (client.serverTid.getD address)
    timeoutCall := false
    retryCount := 0 }

def datagramReceived (datagram : Bytes) (address : Address) : Call :=
  if datagram.length < 4 then .ok client
  else
    let client := client.heard address
    if word 0 datagram = OPCODE_DATA then client.handleDATA settings datagram
    else if word 0 datagram = OPCODE_ERROR then client.handleERROR datagram
    else .ok client

def retrying : Client := { client with retryCount := client.retryCount + 1 }

def handleTimeout : Call :=
  let client := client.retrying
  if TFTP_MAX_RETRIES ≤ client.retryCount then
    client.fire (.failed "TFTP: Transfer timed out".toList)
  else if client.currentBlock = 0 then client.sendRRQ settings
  else client.sendACK settings client.currentBlock

def startProtocol : Call := client.sendRRQ settings

def stopProtocol : Client := { client with timeoutCall := false, stopped := true }

/-! ## Calls that return -/

variable {settings client}

def acknowledged (client : Client) (settings : Settings) (blockNum : Nat) : Client :=
  { client with
    written :=
      client.written ++ [(ackPacket blockNum, client.serverTid.getD settings.server)]
    lastPacket := ackPacket blockNum
    timeoutCall := true }

def taking (client : Client) (blockNum : Nat) (data : Bytes) : Client :=
  { client with
    currentBlock := blockNum
    bytesReceived := client.bytesReceived + data.length
    artifact := client.artifact ++ data }

theorem sendACK_of_sends {blockNum : Nat}
    (sent : settings.sends (ackPacket blockNum) (client.serverTid.getD settings.server) = true) :
    client.sendACK settings blockNum = .ok (client.acknowledged settings blockNum) := by
  simp only [sendACK, transmit, if_pos sent]
  rfl

theorem sendACK_of_not {blockNum : Nat}
    (unsent :
      ¬ settings.sends (ackPacket blockNum) (client.serverTid.getD settings.server) = true) :
    client.sendACK settings blockNum = .error (.transport, client) := by
  simp only [sendACK, transmit, if_neg unsent]
  rfl

theorem takeBlock_of_waiting (waiting : client.fired = []) (blockNum : Nat) (data : Bytes) :
    client.takeBlock settings blockNum data =
      (client.taking blockNum data).sendACK settings blockNum >>= (finishBlock · data) := by
  simp only [takeBlock, writeArtifact, if_pos waiting]
  rfl

theorem takeBlock_of_fired (fired : client.fired ≠ []) (blockNum : Nat) (data : Bytes) :
    client.takeBlock settings blockNum data =
      .error (.valueError,
        { client with
          currentBlock := blockNum
          bytesReceived := client.bytesReceived + data.length }) := by
  simp only [takeBlock, writeArtifact, if_neg fired]
  rfl

end Client

/-- What the reactor calls. An exception of a call is logged, and the client goes on. -/
inductive Event
  | datagram (datagram : Bytes) (address : Address)
  | timeout
  | stop
  deriving DecidableEq, Repr

def left : Call → Client
  | .ok client => client
  | .error (_, client) => client

def start (settings : Settings) : Client := left (Client.startProtocol settings {})

/-- A callback of the Deferred stops the port: the datagrams that were read with the last
one still come, then `stopProtocol` is called, before any timer is due. -/
def step (settings : Settings) (client : Client) : Event → Option Client
  | .datagram datagram address =>
      if client.stopped then none else some (left (client.datagramReceived settings datagram address))
  | .timeout =>
      if client.timeoutCall ∧ client.fired = [] then
        some (left (client.cancelTimeout.handleTimeout settings))
      else none
  | .stop => if client.fired ≠ [] ∧ ¬ client.stopped then some client.stopProtocol else none

def Settings.plain : Settings :=
  { server := ⟨"192.0.2.1".toList, 69⟩, filename := "a".toList, sends := fun _ _ => true }

end Tftp

end LlmHoneypot
