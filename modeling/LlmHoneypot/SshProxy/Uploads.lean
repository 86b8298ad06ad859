import Mathlib.Data.UInt
import LlmHoneypot.Foundation.Dict
import LlmHoneypot.Foundation.PositionedWrite
import LlmHoneypot.SshProxy.Sftp

/-! # Uploads through the SFTP proxy

The packets of both sides as messages, what files the writes among them produce, and
when `SFTP` stores such a file at its close. -/

namespace LlmHoneypot

namespace SshProxy

open PositionedWrite

/-! ## Messages -/

/-- Bytes that fit a `string` of the protocol. -/
abbrev WireString := { bytes : Bytes // bytes.length < 256 ^ 4 }

namespace WireString

def encode (string : WireString) : Bytes :=
  BigEndian.encode 4 string.val.length ++ string.val

end WireString

inductive Message
  | fxpOpen (id : UInt32) (path : WireString) (pflags : UInt32) (attrs : Bytes)
  | fxpClose (id : UInt32) (handle : WireString)
  | fxpWrite (id : UInt32) (handle : WireString) (offset : UInt64) (data : WireString)
  | fxpStatus (id : UInt32) (rest : Bytes)
  | fxpHandle (id : UInt32) (given : WireString)
  /-- Any other packet, well formed or not. -/
  | other (kind : UInt8) (rest : Bytes)
      (is_other : kind.toNat ∉ [FXP_OPEN, FXP_CLOSE, FXP_WRITE, FXP_STATUS, FXP_HANDLE])

namespace Message

def header (kind : Nat) (id : UInt32) : Bytes :=
  UInt8.ofNat kind :: BigEndian.encode 4 id.toNat

def encode : Message → Bytes
  | fxpOpen id path pflags attrs =>
      header FXP_OPEN id ++ (path.encode ++ (BigEndian.encode 4 pflags.toNat ++ attrs))
  | fxpClose id handle => header FXP_CLOSE id ++ handle.encode
  | fxpWrite id handle offset data =>
      header FXP_WRITE id ++ (handle.encode ++ (BigEndian.encode 8 offset.toNat ++ data.encode))
  | fxpStatus id rest => header FXP_STATUS id ++ rest
  | fxpHandle id given => header FXP_HANDLE id ++ given.encode
  | other kind rest _ => kind :: rest

end Message

/-! ## What the writes produce -/

structure Uploads where
  /-- The requests to open one that are not answered yet. -/
  requested : List UInt32 := []
  files : Dict Bytes Bytes := Dict.empty

namespace Uploads

def step (uploads : Uploads) : Message → Uploads
  | .fxpOpen id _ pflags _ =>
      if pflags.toNat.testBit 1 then { uploads with requested := id :: uploads.requested }
      else uploads
  | .fxpHandle id given =>
      if id ∈ uploads.requested then
        { requested := uploads.requested.filter (· ≠ id), files := uploads.files.set given.val [] }
      else uploads
  | .fxpWrite _ handle offset data =>
      match uploads.files.get? handle.val with
      | some file =>
          { uploads with
            files := uploads.files.set handle.val (pwrite file offset.toNat data.val) }
      | none => uploads
  | .fxpClose _ handle => { uploads with files := uploads.files.erase handle.val }
  | .fxpStatus id _ => { uploads with requested := uploads.requested.filter (· ≠ id) }
  | .other .. => uploads

end Uploads

/-- The proxy, and beside it the files that it should have. -/
structure Connection where
  transfer : Transfer := {}
  uploads : Uploads := {}

namespace Connection

def step (connection : Connection) (message : Message) : Option Connection :=
  (handlePacket message.encode connection.transfer).map fun transfer =>
    { transfer, uploads := connection.uploads.step message }

end Connection

/-! ## Reading messages back -/

theorem extractInt_encode {width number : Nat} (rest : Bytes) (fits : number < 256 ^ width) :
    extractInt width (BigEndian.encode width number ++ rest) = (number, rest) := by
  have taken : (BigEndian.encode width number ++ rest).take width = BigEndian.encode width number :=
    List.take_left' (BigEndian.length_encode ..)
  have dropped : (BigEndian.encode width number ++ rest).drop width = rest :=
    List.drop_left' (BigEndian.length_encode ..)
  rw [extractInt, taken, dropped, BigEndian.decode_encode fits]

@[simp] theorem extractString_encode (string : WireString) (rest : Bytes) :
    extractString (string.encode ++ rest) = (string.val, rest) := by
  have length := extractInt_encode (string.val ++ rest) string.property
  rw [WireString.encode, List.append_assoc, extractString, length]
  dsimp only
  rw [List.take_left, List.drop_left]

@[simp] theorem extractString_encode_self (string : WireString) :
    extractString string.encode = (string.val, []) := by
  have read := extractString_encode string []
  rwa [List.append_nil] at read

@[simp] theorem extractData_encode (data : WireString) : extractData data.encode = data.val := by
  rw [extractData, WireString.encode, extractInt_encode _ data.property]

@[simp] theorem extractInt_kind (kind : UInt8) (rest : Bytes) :
    extractInt 1 (kind :: rest) = (kind.toNat, rest) := by
  simp [extractInt, BigEndian.decode]

@[simp] theorem extractInt_id (id : UInt32) (rest : Bytes) :
    extractInt 4 (BigEndian.encode 4 id.toNat ++ rest) = (id.toNat, rest) :=
  extractInt_encode rest id.toNat_lt

@[simp] theorem extractInt_offset (offset : UInt64) (rest : Bytes) :
    extractInt 8 (BigEndian.encode 8 offset.toNat ++ rest) = (offset.toNat, rest) :=
  extractInt_encode rest offset.toNat_lt

namespace Transfer

/-- What `handle_packet` does before it looks at the kind. -/
def receive (transfer : Transfer) (id : Nat) : Transfer :=
  { transfer with prevID := transfer.ID, ID := id, path := [] }

end Transfer

section Dispatch

variable (transfer : Transfer) (id : UInt32)

theorem handlePacket_open (path : WireString) (pflags : UInt32) (attrs : Bytes) :
    handlePacket (Message.fxpOpen id path pflags attrs).encode transfer =
      (transfer.receive id.toNat).handleOpen
        (path.encode ++ (BigEndian.encode 4 pflags.toNat ++ attrs)) := by
  simp [handlePacket, Message.encode, Message.header, Transfer.receive, FXP_OPEN, FXP_OPENDIR,
    FXP_REALPATH]

theorem handlePacket_close (handle : WireString) :
    handlePacket (Message.fxpClose id handle).encode transfer =
      (transfer.receive id.toNat).handleClose handle.encode := by
  simp [handlePacket, Message.encode, Message.header, Transfer.receive, FXP_CLOSE, FXP_OPEN,
    FXP_OPENDIR, FXP_REALPATH, FXP_READ, FXP_WRITE, FXP_HANDLE, FXP_READDIR, FXP_SETSTAT,
    FXP_EXTENDED, FXP_EXTENDED_REPLY]

theorem handlePacket_write (handle : WireString) (offset : UInt64) (data : WireString) :
    handlePacket (Message.fxpWrite id handle offset data).encode transfer =
      some (if transfer.handle = handle.val then
        { transfer.receive id.toNat with
          offset := offset.toNat
          theFile := transfer.theFile.take offset.toNat ++ data.val }
      else transfer.receive id.toNat) := by
  simp [handlePacket, Message.encode, Message.header, Transfer.receive, Transfer.handleWrite,
    FXP_OPEN, FXP_OPENDIR, FXP_REALPATH, FXP_READ, FXP_WRITE]

theorem handlePacket_status (rest : Bytes) :
    handlePacket (Message.fxpStatus id rest).encode transfer =
      (transfer.receive id.toNat).handleStatus rest := by
  simp [handlePacket, Message.encode, Message.header, Transfer.receive, FXP_CLOSE, FXP_OPEN,
    FXP_OPENDIR, FXP_REALPATH, FXP_READ, FXP_WRITE, FXP_HANDLE, FXP_READDIR, FXP_SETSTAT,
    FXP_EXTENDED, FXP_EXTENDED_REPLY, FXP_SYMLINK, FXP_MKDIR, FXP_REMOVE, FXP_RMDIR, FXP_STATUS]

theorem handlePacket_handle (given : WireString) :
    handlePacket (Message.fxpHandle id given).encode transfer =
      some (if id.toNat = transfer.ID then
        { transfer.receive id.toNat with handle := given.val }
      else transfer.receive id.toNat) := by
  simp [handlePacket, Message.encode, Message.header, Transfer.receive, Transfer.handleHandle,
    FXP_OPEN, FXP_OPENDIR, FXP_REALPATH, FXP_READ, FXP_WRITE, FXP_HANDLE]

end Dispatch

namespace Transfer

structure Kept (transfer next : Transfer) : Prop where
  handle : next.handle = transfer.handle
  theFile : next.theFile = transfer.theFile
  command : next.command = transfer.command

namespace Kept

variable {transfer next : Transfer}

theorem refl (transfer : Transfer) : Kept transfer transfer := ⟨rfl, rfl, rfl⟩

theorem receive (transfer : Transfer) (id : Nat) : Kept transfer (transfer.receive id) :=
  ⟨rfl, rfl, rfl⟩

theorem logged {decoded : Bytes} (returned : transfer.logged decoded = some next) :
    Kept transfer next := by
  rcases Option.map_eq_some_iff.mp returned with ⟨_, _, rfl⟩
  exact refl _

theorem trans {last : Transfer} (first : Kept transfer next) (second : Kept next last) :
    Kept transfer last :=
  ⟨second.handle.trans first.handle, second.theFile.trans first.theFile,
    second.command.trans first.command⟩

theorem handleStatus {data : Bytes} (returned : transfer.handleStatus data = some next) :
    Kept transfer next := by
  unfold Transfer.handleStatus at returned
  split at returned
  · dsimp only at returned
    split at returned
    · split at returned
      · cases returned
        exact refl _
      · exact logged returned
    · rcases Option.bind_eq_some_iff.mp returned with ⟨_, first, second⟩
      exact (logged first).trans (logged second)
  · cases returned
    exact refl _

theorem handleClose {data : Bytes} (returned : transfer.handleClose data = some next) :
    Kept transfer next := by
  unfold Transfer.handleClose at returned
  split at returned
  · split at returned
    · cases returned
      exact refl _
    · split at returned
      · have stored := logged returned
        exact ⟨stored.handle, stored.theFile, stored.command⟩
      · cases returned
        exact refl _
  · cases returned
    exact refl _

theorem handleOpen {data : Bytes} (returned : transfer.handleOpen data = some next)
    (silent : ∀ index, index = 6 ∨ index = 7 →
      flag (extractInt 4 (extractString data).2).1 index = false) :
    Kept transfer next := by
  unfold Transfer.handleOpen at returned
  dsimp only at returned
  rw [silent 6 (.inl rfl), silent 7 (.inr rfl)] at returned
  have opened := logged returned
  exact ⟨opened.handle, opened.theFile, opened.command⟩

end Kept

end Transfer

def renames (kind : UInt8) (rest handle : Bytes) : Prop :=
  let argument := (extractString (extractInt 4 rest).2).1
  kind.toNat ∈ [FXP_REALPATH, FXP_SETSTAT, FXP_SYMLINK, FXP_MKDIR, FXP_REMOVE, FXP_RMDIR] ∨
    kind.toNat = FXP_READDIR ∧ argument = handle ∨
    kind.toNat = FXP_EXTENDED ∧ argument ∈ [text "statvfs@openssh.com",
      text "hardlink@openssh.com", text "posix-rename@openssh.com"]

instance (kind : UInt8) (rest handle : Bytes) : Decidable (renames kind rest handle) :=
  inferInstanceAs (Decidable (_ ∨ _ ∨ _))

theorem Transfer.Kept.handleExtended {transfer : Transfer} {data : Bytes}
    (unknown : (extractString data).1 ∉ [text "statvfs@openssh.com",
      text "hardlink@openssh.com", text "posix-rename@openssh.com"]) :
    Kept transfer (transfer.handleExtended data) := by
  simp only [List.mem_cons, List.not_mem_nil, or_false, not_or] at unknown
  rcases unknown with ⟨statvfs, hardlink, rename_⟩
  unfold Transfer.handleExtended
  dsimp only
  rw [if_neg statvfs, if_neg hardlink, if_neg rename_]
  exact ⟨rfl, rfl, rfl⟩

theorem Transfer.Kept.other {transfer next : Transfer} {kind : UInt8} {rest : Bytes}
    (is_other : kind.toNat ∉ [FXP_OPEN, FXP_CLOSE, FXP_WRITE, FXP_STATUS, FXP_HANDLE])
    (returned : handlePacket (kind :: rest) transfer = some next)
    (silent : ¬ renames kind rest transfer.handle) : Kept transfer next := by
  simp only [List.mem_cons, List.not_mem_nil, or_false, not_or] at is_other
  simp only [renames, List.mem_cons, List.not_mem_nil, or_false, not_or, not_and] at silent
  rcases is_other with ⟨isOpen, close, write, status, handle⟩
  rcases silent with ⟨⟨realpath, setstat, symlink, mkdir, remove, rmdir⟩, readdir, extended⟩
  simp only [handlePacket, extractInt_kind, isOpen, close, write, status, handle, realpath,
    setstat, symlink, mkdir, remove, rmdir, if_false] at returned
  split at returned
  · cases returned
    exact ⟨rfl, rfl, rfl⟩
  · split at returned
    · cases returned
      exact receive _ _
    · split at returned
      · next isReaddir =>
        rw [if_neg (Ne.symm (readdir isReaddir))] at returned
        cases returned
        exact receive _ _
      · split at returned
        · next isExtended =>
          cases returned
          have unknown := extended isExtended
          apply (receive _ _).trans
          apply handleExtended
          simp only [List.mem_cons, List.not_mem_nil, or_false, not_or]
          exact unknown
        · split at returned
          · exact (receive _ _).trans (logged returned)
          · cases returned
            exact receive _ _

/-! ## Captures -/

namespace Transfer

def Ready (transfer : Transfer) : Prop :=
  transfer.theFile = [] ∧ uploading transfer.command = true ∧
    (Utf8.decode transfer.command).isSome

instance (transfer : Transfer) : Decidable transfer.Ready :=
  inferInstanceAs (Decidable (_ ∧ _ ∧ _))

structure Tracks (handle file : Bytes) (transfer : Transfer) : Prop where
  handle : transfer.handle = handle
  theFile : transfer.theFile = file
  uploading : uploading transfer.command = true
  decodes : (Utf8.decode transfer.command).isSome

theorem Tracks.of_kept {handle file : Bytes} {transfer next : Transfer}
    (tracks : transfer.Tracks handle file) (kept : Kept transfer next) :
    next.Tracks handle file where
  handle := kept.handle.trans tracks.handle
  theFile := kept.theFile.trans tracks.theFile
  uploading := by rw [kept.command]; exact tracks.uploading
  decodes := by rw [kept.command]; exact tracks.decodes

theorem Tracks.close {file : Bytes} {transfer : Transfer} {handle : WireString}
    (tracks : transfer.Tracks handle.val file) (id : UInt32) :
    ∃ next, handlePacket (Message.fxpClose id handle).encode transfer = some next ∧
      next.uploads = transfer.uploads ++ [file] := by
  have named := tracks.uploading
  simp only [Transfer.uploading, Bool.and_eq_true, Bool.not_eq_true', decide_eq_false_iff_not,
    decide_eq_true_eq] at named
  rcases named with ⟨noGet, put⟩
  rcases Option.isSome_iff_exists.mp tracks.decodes with ⟨command, decoded⟩
  use { transfer.receive id.toNat with uploads := transfer.uploads ++ [file] }
  constructor
  · rw [handlePacket_close, handleClose, extractString_encode_self]
    simp [receive, tracks.handle, tracks.theFile, noGet, put, logged, decoded]
  · rfl

end Transfer

def Message.Spares (handle file : Bytes) (transfer : Transfer) : Message → Prop
  | fxpOpen _ _ pflags _ =>
      Transfer.flag pflags.toNat 6 = false ∧ Transfer.flag pflags.toNat 7 = false
  | fxpHandle id given => given.val = handle ∨ id.toNat ≠ transfer.ID
  | fxpWrite _ written offset data => written.val = handle → Covers file offset.toNat data.val
  | fxpClose .. | fxpStatus .. => True
  | other kind rest _ => ¬ renames kind rest handle

instance (handle file : Bytes) (transfer : Transfer) :
    ∀ message : Message, Decidable (message.Spares handle file transfer)
  | .fxpOpen .. => inferInstanceAs (Decidable (_ ∧ _))
  | .fxpHandle .. => inferInstanceAs (Decidable (_ ∨ _))
  | .fxpWrite .. => inferInstanceAs (Decidable (_ → Covers ..))
  | .fxpClose .. | .fxpStatus .. => .isTrue trivial
  | .other .. => inferInstanceAs (Decidable (¬ renames ..))

/-- The message begins an upload under this handle. -/
def Message.begins (handle : Bytes) (uploads : Uploads) : Message → Bool
  | fxpHandle id given => given.val = handle && uploads.requested.contains id
  | _ => false

def Message.answers (transfer : Transfer) : Message → Bool
  | fxpHandle id _ => id.toNat = transfer.ID
  | _ => false

namespace Connection

/-- An upload under the handle begins right behind its request, with nothing else being
captured, and while it is open the messages spare it. -/
def Captures (handle : Bytes) (connection : Connection) (message : Message) : Prop :=
  (message.begins handle connection.uploads = true →
    message.answers connection.transfer = true ∧ connection.transfer.Ready) ∧
  ∀ file ∈ connection.uploads.files.get? handle,
    message.Spares handle file connection.transfer

instance (handle : Bytes) (connection : Connection) :
    DecidablePred (Captures handle connection) := fun _ =>
  inferInstanceAs (Decidable ((_ → _) ∧ _))

def Capturing (handle : Bytes) (connection : Connection) : Prop :=
  ∀ file, connection.uploads.files.get? handle = some file →
    connection.transfer.Tracks handle file

variable {connection next : Connection} {handle : Bytes}

theorem Capturing.of_kept (capturing : connection.Capturing handle)
    (kept : ∀ file, connection.uploads.files.get? handle = some file →
      connection.transfer.Kept next.transfer)
    (same : next.uploads.files.get? handle = connection.uploads.files.get? handle) :
    next.Capturing handle := by
  intro file isOpen
  rw [same] at isOpen
  exact (capturing file isOpen).of_kept (kept file isOpen)

theorem Capturing.write {id : UInt32} {written : WireString} {offset : UInt64} {data : WireString}
    (capturing : connection.Capturing handle)
    (captures : connection.Captures handle (.fxpWrite id written offset data))
    (taken : connection.step (.fxpWrite id written offset data) = some next) :
    next.Capturing handle := by
  rw [step, handlePacket_write] at taken
  cases taken
  intro file isOpen
  dsimp only [Uploads.step] at isOpen ⊢
  cases before : connection.uploads.files.get? written.val with
  | none =>
      rw [before] at isOpen
      have tracks := capturing file isOpen
      have differs : connection.transfer.handle ≠ written.val := by
        intro same
        rw [← same, tracks.handle, isOpen] at before
        cases before
      rw [if_neg differs]
      exact tracks.of_kept (.receive _ _)
  | some old =>
      rw [before, Dict.get?_set] at isOpen
      by_cases same : handle = written.val
      · rw [if_pos same] at isOpen
        rw [← same] at before
        have tracks := capturing old before
        have covers : Covers old offset.toNat data.val := captures.2 old before same.symm
        cases isOpen
        rw [if_pos (tracks.handle.trans same)]
        refine ⟨tracks.handle, ?_, tracks.uploading, tracks.decodes⟩
        dsimp only
        rw [tracks.theFile]
        exact take_append_eq_pwrite_iff.mpr covers
      · rw [if_neg same] at isOpen
        have tracks := capturing file isOpen
        have differs : connection.transfer.handle ≠ written.val := by
          rw [tracks.handle]
          exact same
        rw [if_neg differs]
        exact tracks.of_kept (.receive _ _)

theorem Capturing.spared {id : UInt32} {given : WireString} {file : Bytes}
    (capturing : connection.Capturing handle)
    (captures : connection.Captures handle (.fxpHandle id given))
    (isOpen : connection.uploads.files.get? handle = some file) :
    (if id.toNat = connection.transfer.ID then
      { connection.transfer.receive id.toNat with handle := given.val }
    else connection.transfer.receive id.toNat).Tracks handle file := by
  have tracks := capturing file isOpen
  split
  · next answered =>
    rcases captures.2 file isOpen with same | unanswered
    · exact ⟨same, tracks.theFile, tracks.uploading, tracks.decodes⟩
    · exact absurd answered unanswered
  · exact tracks.of_kept (.receive _ _)

theorem Capturing.given {id : UInt32} {given : WireString}
    (capturing : connection.Capturing handle)
    (captures : connection.Captures handle (.fxpHandle id given))
    (taken : connection.step (.fxpHandle id given) = some next) : next.Capturing handle := by
  rw [step, handlePacket_handle] at taken
  cases taken
  intro file isOpen
  dsimp only [Uploads.step] at isOpen
  split at isOpen
  · next requested =>
    rw [Dict.get?_set] at isOpen
    split at isOpen
    · next same =>
      cases isOpen
      have begins : (Message.fxpHandle id given).begins handle connection.uploads = true := by
        simp [Message.begins, same, requested]
      rcases captures.1 begins with ⟨answers, empty, uploading, decodes⟩
      have answered : id.toNat = connection.transfer.ID := of_decide_eq_true answers
      dsimp only
      rw [if_pos answered]
      exact ⟨same.symm, empty, uploading, decodes⟩
    · exact capturing.spared captures isOpen
  · exact capturing.spared captures isOpen

theorem Capturing.step {message : Message} (capturing : connection.Capturing handle)
    (captures : connection.Captures handle message)
    (taken : connection.step message = some next) : next.Capturing handle := by
  rcases Option.map_eq_some_iff.mp taken with ⟨transfer, returned, rfl⟩
  rcases captures with ⟨begins, spares⟩
  cases message with
  | fxpOpen id path pflags attrs =>
      apply capturing.of_kept
      · intro file isOpen
        have silent := spares file isOpen
        rw [handlePacket_open] at returned
        apply (Transfer.Kept.receive _ _).trans
        apply Transfer.Kept.handleOpen returned
        rw [extractString_encode, extractInt_encode attrs pflags.toNat_lt]
        rintro index (rfl | rfl)
        · exact silent.1
        · exact silent.2
      · dsimp only [Uploads.step]
        split
        · rfl
        · rfl
  | fxpClose id closed =>
      by_cases same : handle = closed.val
      · intro file isOpen
        simp [Uploads.step, Dict.get?_erase, same] at isOpen
      · apply capturing.of_kept
        · intro _ _
          rw [handlePacket_close] at returned
          exact (Transfer.Kept.receive _ _).trans (.handleClose returned)
        · rw [Uploads.step, Dict.get?_erase, if_neg same]
  | fxpWrite id written offset data =>
      exact capturing.write ⟨begins, spares⟩ taken
  | fxpStatus id rest =>
      apply capturing.of_kept
      · intro _ _
        rw [handlePacket_status] at returned
        exact (Transfer.Kept.receive _ _).trans (.handleStatus returned)
      · rfl
  | fxpHandle id given =>
      exact capturing.given ⟨begins, spares⟩ taken
  | other kind rest is_other =>
      apply capturing.of_kept
      · intro file isOpen
        have silent := spares file isOpen
        apply Transfer.Kept.other is_other returned
        rw [(capturing file isOpen).handle]
        exact silent
      · rfl

end Connection

/-- In a run whose messages spare the uploads under a handle, the close of such an upload
stores what its writes produce. -/
theorem upload_captured {handle : WireString} {messages : List Message}
    {connection : Connection} {file : Bytes}
    (along : EventRun.Along Connection.step (Connection.Captures handle.val) {} messages)
    (ran : EventRun.run Connection.step {} messages = some connection)
    (isOpen : connection.uploads.files.get? handle.val = some file) (id : UInt32) :
    ∃ next, handlePacket (Message.fxpClose id handle).encode connection.transfer = some next ∧
      next.uploads = connection.transfer.uploads ++ [file] := by
  have start : Connection.Capturing handle.val {} := by
    intro file none_
    cases none_
  have capturing := EventRun.run_invariant_along (Connection.Capturing handle.val)
    (fun _ capturing captures taken => capturing.step captures taken) start along ran
  exact (capturing file isOpen).close id

section Examples

def wire (bytes : Bytes) (short : bytes.length < 256 ^ 4) : WireString := ⟨bytes, short⟩

def handle : WireString := wire [48] (by decide)

def request : List Message :=
  [.fxpOpen 1 (wire [47, 97] (by decide)) 26 [0, 0, 0, 0], .fxpHandle 1 handle]

def forward : List Message :=
  request ++ [.fxpWrite 2 handle 0 (wire [104, 101] (by decide)),
    .fxpWrite 3 handle 1 (wire [111, 33] (by decide))]

def backward : List Message :=
  request ++ [.fxpWrite 2 handle 1 (wire [111, 33] (by decide)),
    .fxpWrite 3 handle 0 (wire [104] (by decide))]

theorem upload_captured_example :
    ∃ connection, EventRun.run Connection.step {} forward = some connection ∧
      ∃ next, handlePacket (Message.fxpClose 4 handle).encode connection.transfer = some next ∧
        next.uploads = connection.transfer.uploads ++ [[104, 111, 33]] := by
  have opened : ((EventRun.run Connection.step {} forward).bind
      (·.uploads.files.get? handle.val)) = some [104, 111, 33] := by decide
  rcases Option.bind_eq_some_iff.mp opened with ⟨connection, ran, isOpen⟩
  exact ⟨connection, ran, upload_captured (by decide) ran isOpen 4⟩

/-- Of two writes out of order only the second one is left. -/
theorem backward_upload_truncated :
    (EventRun.run Connection.step {} backward).map
        (·.uploads.files.get? handle.val) = some (some [104, 111, 33]) ∧
      ((EventRun.run Connection.step {} backward).bind fun connection =>
        handlePacket (Message.fxpClose 4 handle).encode connection.transfer).map (·.uploads) =
        some [[104]] := by
  decide

end Examples

end SshProxy

end LlmHoneypot
