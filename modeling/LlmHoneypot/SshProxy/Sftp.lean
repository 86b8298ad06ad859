import LlmHoneypot.SshProxy.Reassembly

/-! # SFTP packets in the proxy

`SFTP.handle_packet`: what the proxy makes of the packets of both sides. Of the log
messages only the `decode` in them is modelled, which may raise. -/

namespace LlmHoneypot

namespace SshProxy

/-! ## Extraction -/

def extractInt (length : Nat) (data : Bytes) : Nat × Bytes :=
  (BigEndian.decode (data.take length), data.drop length)

def extractString (data : Bytes) : Bytes × Bytes :=
  let (length, data) := extractInt 4 data
  (data.take length, data.drop length)

def extractData (data : Bytes) : Bytes := (extractInt 4 data).2

def text (chars : String) : Bytes := Utf8.encode chars.toList

def bits (width number : Nat) : List Bool :=
  (List.range (max width (number.log2 + 1))).reverse.map number.testBit

def ofBits (bits : List Bool) : Nat := bits.foldl (fun number bit => 2 * number + bit.toNat) 0

def extractAttrs (data : Bytes) : Bytes × Bytes :=
  let (number, data) := extractInt 4 data
  let flags := bits 8 number
  if flags[5]? = some true then
    let (number, data) := extractInt 4 data
    let perms := bits 9 number
    let chmod := Text.decimal (ofBits (perms.take 3)) ++
      Text.decimal (ofBits ((perms.take 6).drop 3)) ++ Text.decimal (ofBits (perms.drop 6))
    (text "chmod " ++ Utf8.encode chmod, data)
  else if flags[6]? = some true then
    let (user, data) := extractInt 4 data
    let (group, data) := extractInt 4 data
    (text "chown " ++ Utf8.encode (Text.decimal user ++ ':' :: Text.decimal group), data)
  else ([], data)

/-! ## Packets -/

def FXP_OPEN : Nat := 3
def FXP_CLOSE : Nat := 4
def FXP_READ : Nat := 5
def FXP_WRITE : Nat := 6
def FXP_SETSTAT : Nat := 9
def FXP_OPENDIR : Nat := 11
def FXP_READDIR : Nat := 12
def FXP_REMOVE : Nat := 13
def FXP_MKDIR : Nat := 14
def FXP_RMDIR : Nat := 15
def FXP_REALPATH : Nat := 16
def FXP_SYMLINK : Nat := 20
def FXP_STATUS : Nat := 101
def FXP_HANDLE : Nat := 102
def FXP_EXTENDED : Nat := 200
def FXP_EXTENDED_REPLY : Nat := 201

structure Transfer where
  prevID : Nat := 0
  ID : Nat := 0
  handle : Bytes := []
  path : Bytes := []
  command : Bytes := []
  theFile : Bytes := []
  offset : Nat := 0
  /-- The files that were stored, each under its SHA-256. -/
  uploads : List Bytes := []
  deriving DecidableEq, Repr

namespace Transfer

def flag (pflags index : Nat) : Bool := (bits 8 pflags)[index]? = some true

def uploading (command : Bytes) : Bool := !(text "get" <:+: command) && text "put" <:+: command

/-- The text of a log message; `decode` raises for what is not UTF-8. -/
def logged (transfer : Transfer) (decoded : Bytes) : Option Transfer :=
  (Utf8.decode decoded).map fun _ => transfer

def handleOpen (data : Bytes) (transfer : Transfer) : Option Transfer :=
  let (path, data) := extractString data
  let (pflags, _) := extractInt 4 data
  let transfer := { transfer with path }
  let transfer :=
    if flag pflags 6 then { transfer with command := text "put " ++ path, theFile := [] }
    else if flag pflags 7 then { transfer with command := text "get " ++ path }
    else transfer
  transfer.logged transfer.command

def handleWrite (data : Bytes) (transfer : Transfer) : Transfer :=
  let (handle, data) := extractString data
  if transfer.handle = handle then
    let (offset, data) := extractInt 8 data
    { transfer with offset, theFile := transfer.theFile.take offset ++ extractData data }
  else transfer

def handleHandle (data : Bytes) (transfer : Transfer) : Transfer :=
  if transfer.ID = transfer.prevID then { transfer with handle := (extractString data).1 }
  else transfer

def handleExtended (data : Bytes) (transfer : Transfer) : Transfer :=
  let (cmd, data) := extractString data
  let (path, data) := extractString data
  let transfer := { transfer with path }
  if cmd = text "statvfs@openssh.com" then { transfer with command := text "df " ++ path }
  else if cmd = text "hardlink@openssh.com" then
    { transfer with command := text "ln " ++ path ++ text " " ++ (extractString data).1 }
  else if cmd = text "posix-rename@openssh.com" then
    { transfer with command := text "mv " ++ path ++ text " " ++ (extractString data).1 }
  else transfer

def handleClose (data : Bytes) (transfer : Transfer) : Option Transfer :=
  if transfer.handle = (extractString data).1 then
    if text "get" <:+: transfer.command then some transfer
    else if text "put" <:+: transfer.command then
      { transfer with uploads := transfer.uploads ++ [transfer.theFile] }.logged transfer.command
    else some transfer
  else some transfer

def handleSymlink (data : Bytes) (transfer : Transfer) : Transfer :=
  let (first, data) := extractString data
  { transfer with command := text "ln -s " ++ first ++ text " " ++ (extractString data).1 }

def handleStatus (data : Bytes) (transfer : Transfer) : Option Transfer :=
  if transfer.ID = transfer.prevID then
    let (code, data) := extractInt 4 data
    if code = 0 ∨ code = 1 then
      if text "get" <:+: transfer.command ∨ text "put" <:+: transfer.command then some transfer
      else transfer.logged transfer.command
    else (transfer.logged transfer.command).bind (·.logged (extractString data).1)
  else some transfer

end Transfer

def handlePacket (data : Bytes) (transfer : Transfer) : Option Transfer :=
  let (sftpNum, data) := extractInt 1 data
  let (ID, data) := extractInt 4 data
  let transfer := { transfer with prevID := transfer.ID, ID, path := [] }
  let argument := (extractString data).1
  if sftpNum = FXP_OPENDIR then some { transfer with path := argument }
  else if sftpNum = FXP_REALPATH then
    transfer.logged (text "cd " ++ argument)
      |>.map fun transfer => { transfer with path := argument, command := text "cd " ++ argument }
  else if sftpNum = FXP_OPEN then transfer.handleOpen data
  else if sftpNum = FXP_READ then some transfer
  else if sftpNum = FXP_WRITE then some (transfer.handleWrite data)
  else if sftpNum = FXP_HANDLE then some (transfer.handleHandle data)
  else if sftpNum = FXP_READDIR then
    some (if transfer.handle = argument then
      { transfer with command := text "ls " ++ transfer.path } else transfer)
  else if sftpNum = FXP_SETSTAT then
    some { transfer with
      path := argument
      command := (extractAttrs (extractString data).2).1 ++ text " " ++ argument }
  else if sftpNum = FXP_EXTENDED then some (transfer.handleExtended data)
  else if sftpNum = FXP_EXTENDED_REPLY then transfer.logged transfer.command
  else if sftpNum = FXP_CLOSE then transfer.handleClose data
  else if sftpNum = FXP_SYMLINK then some (transfer.handleSymlink data)
  else if sftpNum = FXP_MKDIR then some { transfer with command := text "mkdir " ++ argument }
  else if sftpNum = FXP_REMOVE then some { transfer with command := text "rm " ++ argument }
  else if sftpNum = FXP_RMDIR then some { transfer with command := text "rmdir " ++ argument }
  else if sftpNum = FXP_STATUS then transfer.handleStatus data
  else some transfer

end SshProxy

end LlmHoneypot
