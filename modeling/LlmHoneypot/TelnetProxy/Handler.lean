import LlmHoneypot.Foundation.NvtLine

/-! # The handler of the telnet proxy

`TelnetHandler`: what passes between the client and the backend, the login it takes over,
and what it logs. -/

namespace LlmHoneypot

namespace TelnetProxy

open Nvt ByteString

/-- A user name found in the negotiation: group 2 of the pattern, and the packet with the
backend's user name in its place, `none` where `re.sub` raises. -/
structure NegotiationLogin where
  username : Bytes
  spoofed : Option Bytes

structure Config where
  spoofAuthenticationData : Bool := true
  backendLogin : Bytes
  backendPassword : Bytes
  /-- `usernameInNegotiationRegex`, `usernamePromptRegex` and `passwordPromptRegex` in a packet. -/
  negotiationLogin : Bytes → Option NegotiationLogin := fun _ => none
  hasLogin : Bytes → Bool
  hasPassword : Bytes → Bool
  /-- `checkUserPass`, after the checks that were made before. -/
  checkUserPass : List (Bytes × Bytes) → Bytes → Bytes → Bool
  logRaw : Bool := false
  /-- The characters that `\N` names. -/
  lookup : Bytes → Option CodePoints := fun _ => none

inductive Parent where
  | frontend
  | backend
  deriving DecidableEq

inductive Event where
  | clientVar (value : CodePoints)
  | exploitAttempt (value : CodePoints)
  | commandInput (input : Bytes)
  deriving DecidableEq

inductive TtyDirection where
  | input
  | output
  deriving DecidableEq

inductive Raised where
  | indexError
  | unicodeDecodeError
  | reError
  deriving DecidableEq

structure Handler where
  currentData : Bytes := []
  sendData : Bool := true
  /-- Whether `setClient` was called. -/
  client : Bool := false
  currentCommand : Bytes := []
  authStarted : Bool := false
  authDone : Bool := false
  usernameState : Bytes := []
  inputingLogin : Bool := false
  passwordState : Bytes := []
  inputingPassword : Bool := false
  waitingLoginEcho : Bool := false
  prePasswordData : Bool := false
  backendBuffer : List Bytes := []
  ttylogEnabled : Bool := true
  ttylog : List (TtyDirection × Bytes) := []
  ttylogSize : Nat := 0
  /-- What `sendBackend` was called with, what was written to the two transports, the logins
  that were checked, and the events that were logged. -/
  decided : List Bytes := []
  toBackend : List Bytes := []
  toFrontend : List Bytes := []
  checks : List (Bytes × Bytes) := []
  log : List Event := []

/-- A call returns the handler, or raises and leaves it as it is then. -/
abbrev Call := Except (Raised × Handler) Handler

def processBackspaces (s : Bytes) : Bytes :=
  s.foldl (fun n byte => if encodeByte byte = [0x7F] then n.dropLast else n ++ encodeByte byte) []

def removeAll (original : Bytes) (removeList : List Bytes) : Bytes :=
  removeList.foldl (fun n substring => replace substring [] n) original

def Config.decode (config : Config) (data : Bytes) : Option CodePoints :=
  UnicodeEscape.decode config.lookup data

def Config.passwordToSend (config : Config) (accepted : Bool) : Bytes :=
  if accepted then config.backendPassword else config.backendPassword ++ [102, 97, 107, 101]

namespace Handler

variable (config : Config) (handler : Handler)

def decode (data : Bytes) : Except (Raised × Handler) CodePoints :=
  match config.decode data with
  | none => .error (.unicodeDecodeError, handler)
  | some text => .ok text

def logRaw (data : Bytes) : Call := do
  if config.logRaw then
    let _ ← handler.decode config data
    return handler
  else return handler

def ttylogWrite (direction : TtyDirection) (data : Bytes) : Handler :=
  if handler.ttylogEnabled && handler.authStarted then
    { handler with ttylog := handler.ttylog ++ [(direction, data)] }
  else handler

def ttylogInput (data : Bytes) : Handler :=
  let cleanData := replace [NUL] [LF] data
  if handler.ttylogEnabled && handler.authStarted then
    { handler.ttylogWrite .input cleanData with
      ttylogSize := handler.ttylogSize + cleanData.length }
  else handler

def writeBackend (data : Bytes) : List Bytes → Handler → Call
  | [], handler => .ok handler
  | packet :: packets, handler => do
      let handler ← { handler with toBackend := handler.toBackend ++ [packet] }.logRaw config data
      let handler := handler.ttylogInput data
      writeBackend data packets { handler with backendBuffer := handler.backendBuffer.drop 1 }

def sendBackend (data : Bytes) : Call :=
  let handler := { handler with
    decided := handler.decided ++ [data]
    backendBuffer := handler.backendBuffer ++ [data] }
  if ¬ handler.client then .ok handler
  else writeBackend config data handler.backendBuffer handler

def sendFrontend (data : Bytes) : Call := do
  let handler ← { handler with toFrontend := handler.toFrontend ++ [data] }.logRaw config data
  return handler.ttylogWrite .output data

/-- `chr(self.currentData[self.currentData.index(b"\r") + 1]).encode()`. -/
def terminatingChar : Except (Raised × Handler) Bytes :=
  match handler.currentData[handler.currentData.idxOf CR + 1]? with
  | none => .error (.indexError, handler)
  | some byte => .ok (encodeByte byte)

def echo (data : Bytes) : Bytes := replace [NUL] [LF] (replace [0x7F] [8, 32, 8] data)

def readUsername : Handler :=
  { handler with
    sendData := false
    usernameState := handler.usernameState ++ removeAll handler.currentData [[CR], [NUL], [LF]] }

/-- The user name is complete; the backend is sent its own. -/
def finishUsername : Call := do
  let terminating ← handler.terminatingChar
  let handler := { handler with usernameState := processBackspaces handler.usernameState }
  let _ ← handler.decode config handler.usernameState
  return { handler with
    inputingLogin := false
    currentData := config.backendLogin ++ [CR] ++ terminating
    sendData := true
    waitingLoginEcho := true }

def processUsernameInput : Call := do
  let handler := handler.readUsername
  let handler ← handler.sendFrontend config (echo handler.currentData)
  if CR ∈ handler.currentData then handler.finishUsername config else return handler

def sendPrePasswordData : Call :=
  if handler.prePasswordData then do
    let handler ← handler.sendBackend config (handler.currentData.take 3)
    return { handler with prePasswordData := false }
  else return handler

def readPassword : Handler :=
  { handler with
    passwordState := handler.passwordState ++
      removeAll handler.currentData [[0xFF], [0xFD], [1], [CR], [NUL], [LF]] }

/-- The password is complete and checked; the backend is sent its own, or a fake one. -/
def finishPassword : Call := do
  let terminating ← handler.terminatingChar
  let handler := { handler with passwordState := processBackspaces handler.passwordState }
  let _ ← handler.decode config handler.passwordState
  let accepted := config.checkUserPass handler.checks handler.usernameState handler.passwordState
  return { handler with
    inputingPassword := false
    checks := handler.checks ++ [(handler.usernameState, handler.passwordState)]
    authDone := handler.authDone || accepted
    currentData := config.passwordToSend accepted ++ [CR] ++ terminating
    sendData := true }

def takePassword : Call :=
  if CR ∈ handler.readPassword.currentData then handler.readPassword.finishPassword config
  else .ok handler.readPassword

def processPasswordInput : Call := do
  let handler ← { handler with sendData := false }.sendPrePasswordData config
  handler.takePassword config

def setProcessingStateBackend : Handler :=
  let handler :=
    if config.hasPassword handler.currentData then
      { handler with authStarted := true, inputingPassword := true, passwordState := [] }
    else handler
  let handler :=
    if config.hasLogin handler.currentData then
      { handler with authStarted := true, inputingLogin := true, usernameState := [] }
    else handler
  { handler with prePasswordData := [0xFF, 0xFB, 1] <:+: handler.currentData }

/-- The events for a user name in the negotiation; `-f` at its start is an exploit. -/
def logUsername (username : CodePoints) : Handler :=
  let handler := { handler with log := handler.log ++ [.clientVar username] }
  if [45, 102].isPrefixOf username then
    { handler with log := handler.log ++ [.exploitAttempt username] }
  else handler

def setProcessingStateFrontend : Call :=
  match config.negotiationLogin handler.currentData with
  | none => .ok handler
  | some found => do
      let handler := { handler with usernameState := found.username }
      let username ← handler.decode config handler.usernameState
      let handler := handler.logUsername username
      match found.spoofed with
      | none => .error (.reError, handler)
      | some spoofed => return { handler with currentData := spoofed }

def dropLoginEcho : Handler :=
  if handler.waitingLoginEcho then
    { handler with
      currentData := replace (config.backendLogin ++ [CR, LF]) [] handler.currentData
      waitingLoginEcho := false }
  else handler

def savePassword : Call :=
  if handler.inputingPassword then handler.processPasswordInput config else .ok handler

def saveUsername : Call :=
  if handler.inputingLogin then handler.processUsernameInput config else .ok handler

def spoofAuthentication : Parent → Call
  | .backend => .ok ((handler.setProcessingStateBackend config).dropLoginEcho config)
  | .frontend => do
      let handler ← handler.setProcessingStateFrontend config
      let handler ← handler.savePassword config
      handler.saveUsername config

def logCommands (data : Bytes) : Handler :=
  let handler := { handler with
    currentCommand :=
      handler.currentCommand ++ replace [CR, LF] [] (replace [CR, NUL] [] data) }
  if CR ∈ data then
    { handler with
      log :=
        if 0 < handler.currentCommand.length then
          handler.log ++ [.commandInput handler.currentCommand]
        else handler.log
      currentCommand := [] }
  else handler

def sendOn (parent : Parent) : Call :=
  if handler.sendData && !handler.currentData.isEmpty then
    match parent with
    | .frontend => handler.sendBackend config handler.currentData
    | .backend => handler.sendFrontend config handler.currentData
  else .ok handler

def receive (data : Bytes) : Handler := { handler with currentData := data, sendData := true }

def addPacket (parent : Parent) (data : Bytes) : Call := do
  let handler := handler.receive data
  let handler ←
    if config.spoofAuthenticationData && !handler.authDone then
      handler.spoofAuthentication config parent
    else pure handler
  let handler :=
    if parent = .frontend ∧ handler.authDone then handler.logCommands data else handler
  handler.sendOn config parent

end Handler

def ascii (text : String) : Bytes := text.toList.map fun ch => UInt8.ofNat ch.toNat

def Config.ubuntu : Config where
  backendLogin := ascii "root"
  backendPassword := ascii "root"
  hasLogin data := (ascii "ubuntu login: ").isPrefixOf data || 10 :: ascii "ubuntu login: " <:+: data
  hasPassword data := ascii "Password: " <:+: data
  checkUserPass _ username password := username = ascii "root" && password = ascii "123456"

end TelnetProxy

end LlmHoneypot
