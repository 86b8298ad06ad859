import Mathlib.Data.UInt
import LlmHoneypot.Foundation.EventRun
import LlmHoneypot.Foundation.OpenFiles
import LlmHoneypot.HoneyFs.Contents

/-! # File transfer

`shell/filetransfer.py` with the operations of the filesystem below it: the handles of uploads,
and the sizes that are recorded when they are closed. -/

namespace LlmHoneypot

namespace FileTransfer

open HoneyFs OpenFiles

structure Config where
  /-- How many calls of `getfile` may stand in each other. -/
  limit : Nat
  downloadPath : Str
  bytesReceivedLimit : Nat := 0
  archData : Bytes := []
  /-- `hashlib.sha256(data).hexdigest()`. -/
  sha256 : Bytes → Str
  hexadecimal : ∀ data, '_' ∉ sha256 data

structure Flags where
  read : Bool := false
  write : Bool := false
  append : Bool := false
  creat : Bool := false
  trunc : Bool := false
  excl : Bool := false
  deriving DecidableEq, Repr

structure Attrs where
  owner : Option (Nat × Nat) := none
  permissions : Option Nat := none
  times : Option (Nat × Nat) := none
  deriving DecidableEq, Repr

/-- `CowrieSFTPFile`; without `FXF_READ` it has no `contents`. -/
structure Handle where
  filename : Str
  bytesReceived : Nat := 0
  fd : Option Nat
  contents : Option Bytes := none
  deriving DecidableEq, Repr

structure State where
  tree : HoneyPotFilesystem
  files : Files Str UInt8
  handles : Nat → Option Handle
  nextHandle : Nat

variable (config : Config)

def State.host (state : State) : Host := ⟨state.files.read, config.archData⟩

/-! ## The filesystem's part -/

def hostfile (stamp filename : Str) : Str :=
  config.downloadPath ++ '/' :: stamp ++ "_sftp_".toList ++
    filename.map fun ch => if ch.isAlphanum then ch else '_'

def shasumfile (data : Bytes) : Str := config.downloadPath ++ '/' :: config.sha256 data

def Flags.mode (flags : Flags) : Mode :=
  { append := flags.append, creat := flags.creat, trunc := flags.trunc, excl := flags.excl }

/-- `fs.open`; the outer `none` where it raises, the inner one for a file that is only read. -/
def fsOpen (filename : Str) (flags : Flags) (mode : Nat) (stamp : Str) (now fd : Nat)
    (state : State) : Option (Option Nat) × State :=
  if ¬ flags.write then (some none, state)
  else
    let hostfile := hostfile config stamp filename
    match state.tree.mkfile config.limit filename 0 0 0 (0o100000 ||| mode) now with
    | .error _ => (none, state)
    | .ok (tree, _) =>
        match state.files.openWrite hostfile flags.mode fd with
        | none => (none, { state with tree })
        | some files =>
            match (tree.getfile true config.limit filename).bind (tree.updateRealfile · hostfile true) with
            | .error _ => (none, { state with tree, files })
            | .ok tree =>
                (some (some fd), { state with
                  files
                  tree := { tree with
                    tempfiles := tree.tempfiles.set fd hostfile
                    filenames := tree.filenames.set fd filename } })

def fsLseek (fd : Option Nat) (offset : Nat) (state : State) : Option State :=
  match fd with
  | none | some 0 => some state
  | some (fd + 1) => (state.files.lseek (fd + 1) offset).map fun files => { state with files }

def fsWrite (fd : Option Nat) (data : Bytes) (state : State) : Option State :=
  fd.bind fun fd => (state.files.write fd data).map fun files => { state with files }

def fsClose (fd : Option Nat) (state : State) : Bool × State :=
  match fd with
  | none | some 0 => (true, state)
  | some (fd + 1) =>
      match state.tree.tempfiles.get? (fd + 1), state.tree.filenames.get? (fd + 1) with
      | some tempfile, some filename =>
          match state.files.read tempfile with
          | none => (false, state)
          | some data =>
              let shasumfile := shasumfile config data
              let files := state.files.keepOnce tempfile shasumfile
              match (state.tree.getfile true config.limit filename).bind
                  (state.tree.updateRealfile · shasumfile true) with
              | .error _ => (false, { state with files })
              | .ok tree =>
                  (true, { state with
                    files := files.close (fd + 1)
                    tree := { tree with
                      tempfiles := tree.tempfiles.erase (fd + 1)
                      filenames := tree.filenames.erase (fd + 1) } })
      | _, _ => (false, state)

/-! ## Handles -/

/-- A change of the entry of a file; it raises where there is none. -/
def changeEntry (filename : Str) (change : Entry → Entry) (tree : HoneyPotFilesystem) :
    Option HoneyPotFilesystem :=
  match tree.getfile true config.limit filename with
  | .ok (some file) => some (tree.modify file change)
  | .ok none | .error _ => none

def setAttrs (filename : Str) (attrs : Attrs) (tree : HoneyPotFilesystem) : Bool × HoneyPotFilesystem :=
  let chowned := match attrs.owner with
    | none => some tree
    | some (uid, gid) => changeEntry config filename (fun entry => { entry with uid, gid }) tree
  match chowned with
  | none => (false, tree)
  | some tree =>
      match attrs.times with
      | none => (true, tree)
      | some (_, mtime) =>
          match changeEntry config filename (fun entry => { entry with ctime := mtime }) tree with
          | none => (false, tree)
          | some tree => (true, tree)

/-- The rest of `CowrieSFTPFile(...)`, after the file is open; no handle where it raises. -/
def makeHandle (filename : Str) (flags : Flags) (attrs : Attrs) (fd : Option Nat)
    (state : State) : State :=
  match setAttrs config filename attrs state.tree with
  | (false, tree) => { state with tree }
  | (true, tree) =>
      let state := { state with tree }
      let contents :=
        if ¬ flags.read then some none
        else (state.tree.fileContents config.limit (state.host config) filename).toOption.map some
      match contents with
      | none => state
      | some contents =>
          { state with
            handles := Function.update state.handles state.nextHandle
              (some { filename, fd, contents })
            nextHandle := state.nextHandle + 1 }

def openFile (filename : Str) (flags : Flags) (attrs : Attrs) (stamp : Str) (now fd : Nat)
    (state : State) : State :=
  match fsOpen config filename flags (attrs.permissions.getD 0o777) stamp now fd state with
  | (none, state) => state
  | (some fd, state) => makeHandle config filename flags attrs fd state

def writeChunk (id offset : Nat) (data : Bytes) (state : State) : State :=
  match state.handles id with
  | none => state
  | some handle =>
      let bytesReceived := handle.bytesReceived + data.length
      let counted := { state with
        handles := Function.update state.handles id (some { handle with bytesReceived }) }
      if config.bytesReceivedLimit ≠ 0 ∧ config.bytesReceivedLimit < bytesReceived then counted
      else
        match fsLseek handle.fd offset counted with
        | none => counted
        | some sought => (fsWrite handle.fd data sought).getD sought

def readChunk (id offset length : Nat) (state : State) : Option Bytes :=
  (state.handles id).bind fun handle =>
    handle.contents.map fun contents => (contents.drop offset).take length

def closeFile (id : Nat) (state : State) : State :=
  match state.handles id with
  | none => state
  | some handle =>
      let sized :=
        if 0 < handle.bytesReceived then
          state.tree.updateSize config.limit handle.filename handle.bytesReceived
        else .ok state.tree
      match sized with
      | .error _ => state
      | .ok tree =>
          match fsClose config handle.fd { state with tree } with
          | (false, state) => state
          | (true, state) => { state with handles := Function.update state.handles id none }

/-- A request of the client. The time of an open and its descriptor come from the host. -/
inductive Op
  | open (filename : Str) (flags : Flags) (attrs : Attrs) (stamp : Str) (now fd : Nat)
  | writeChunk (id offset : Nat) (data : Bytes)
  | readChunk (id offset length : Nat)
  | close (id : Nat)

def next (state : State) : Op → State
  | .open filename flags attrs stamp now fd =>
      openFile config filename flags attrs stamp now fd state
  | .writeChunk id offset data => writeChunk config id offset data state
  | .readChunk _ _ _ => state
  | .close id => closeFile config id state

def step (state : State) (op : Op) : Option State := some (next config state op)

/-! ## Sizes -/

/-- What a handle's file holds when it is closed: what was written to its host file, or what a
reader is shown. -/
def content (state : State) (handle : Handle) : Option Bytes :=
  match handle.fd with
  | some fd => (state.tree.tempfiles.get? fd).bind state.files.read
  | none => (state.tree.fileContents config.limit (state.host config) handle.filename).toOption

def SizeRight (tree : HoneyPotFilesystem) (handle : Handle) (content : Option Bytes) : Prop :=
  ∃ data file, content = some data ∧
    tree.getfile true config.limit handle.filename = .ok (some file) ∧
      (tree.entry file).size = data.length

/-- After a handle is closed, the size of its file is right. -/
def ClosesRight (state : State) : Op → Prop
  | .close id => ∀ handle, state.handles id = some handle →
      SizeRight config (closeFile config id state).tree handle (content config state handle)
  | .open .. | .writeChunk .. | .readChunk .. => True

def State.inodeOf (state : State) (id : Nat) : Option Nat :=
  (state.handles id).bind fun handle => handle.fd.bind fun fd =>
    (state.files.descriptors fd).map Descriptor.inode

def OpensFresh (state : State) (filename stamp : Str) (flags : Flags) : Prop :=
  flags.write = true → ∀ inode, state.files.names (hostfile config stamp filename) = some inode →
    (flags.trunc = true ∨ state.files.inodes.read inode = []) ∧
      ∀ id, state.inodeOf id ≠ some inode

def WritesAtEnd (state : State) (id offset : Nat) (data : Bytes) : Prop :=
  ∀ handle, state.handles id = some handle → data ≠ [] →
    (config.bytesReceivedLimit = 0 ∨
      handle.bytesReceived + data.length ≤ config.bytesReceivedLimit) ∧
    ∃ fd descriptor, handle.fd = some fd ∧ state.files.descriptors fd = some descriptor ∧
      (descriptor.append = true ∨
        offset = (state.files.inodes.read descriptor.inode).length)

/-- The name of an upload leads to a file with its host file behind it, of size 0 where nothing
was received. A file that is only read has the right size, and nothing was received. -/
def ClosesOwn (state : State) (id : Nat) : Prop :=
  ∀ handle, state.handles id = some handle →
    match handle.fd with
    | some fd => ∃ file, state.tree.getfile true config.limit handle.filename = .ok (some file) ∧
        (state.tree.entry file).type = .file ∧
          (state.tree.entry file).realfile = state.tree.tempfiles.get? fd ∧
            (handle.bytesReceived = 0 → (state.tree.entry file).size = 0)
    | none => handle.bytesReceived = 0 ∧
        SizeRight config state.tree handle (content config state handle)

/-- The requests of a client that uploads each file in one pass. -/
def OnePass (state : State) : Op → Prop
  | .open filename flags _ stamp _ _ => OpensFresh config state filename stamp flags
  | .writeChunk id offset data => WritesAtEnd config state id offset data
  | .readChunk .. => True
  | .close id => ClosesOwn config state id

/-! ## Handles that are open for writing -/

structure Upload (state : State) (handle : Handle) (fd : Nat) (tempfile : Str)
    (descriptor : Descriptor) : Prop where
  positive : fd ≠ 0
  hasTemp : state.tree.tempfiles.get? fd = some tempfile
  hasName : state.tree.filenames.get? fd = some handle.filename
  opened : state.files.descriptors fd = some descriptor
  named : state.files.names tempfile = some descriptor.inode

structure Sound (state : State) : Prop where
  uploads : ∀ id handle fd, state.handles id = some handle → handle.fd = some fd →
    ∃ tempfile descriptor, Upload state handle fd tempfile descriptor ∧
      handle.bytesReceived = (state.files.inodes.read descriptor.inode).length ∧
        ∀ data, tempfile ≠ shasumfile config data
  apart : ∀ id id' inode, state.inodeOf id = some inode → state.inodeOf id' = some inode → id = id'
  formed : state.files.Formed
  fresh : ∀ id, state.nextHandle ≤ id → state.handles id = none

section

variable {config : Config} {state after : State}

theorem inodeOf_eq {id : Nat} {handle : Handle} {fd : Nat} {descriptor : Descriptor}
    (held : state.handles id = some handle) (isFd : handle.fd = some fd)
    (opened : state.files.descriptors fd = some descriptor) :
    state.inodeOf id = some descriptor.inode := by
  rw [State.inodeOf, held, Option.bind_some, isFd, Option.bind_some, opened, Option.map_some]

theorem Sound.inode_lt (sound : Sound config state) {id inode : Nat}
    (writes : state.inodeOf id = some inode) : inode < state.files.inodes.next := by
  rcases Option.bind_eq_some_iff.mp writes with ⟨handle, held, rest⟩
  rcases Option.bind_eq_some_iff.mp rest with ⟨fd, isFd, found⟩
  rcases sound.uploads id handle fd held isFd with ⟨tempfile, descriptor, upload, -⟩
  rw [upload.opened] at found
  rw [← Option.some.inj found]
  exact sound.formed tempfile descriptor.inode upload.named

theorem Sound.inodeOf (sound : Sound config state) (handles : after.handles = state.handles)
    (kept : ∀ id handle fd tempfile descriptor, state.handles id = some handle →
      handle.fd = some fd → Upload state handle fd tempfile descriptor →
        after.files.descriptors fd = some descriptor) (id : Nat) :
    after.inodeOf id = state.inodeOf id := by
  rw [State.inodeOf, State.inodeOf, handles]
  cases held : state.handles id with
  | none => rfl
  | some handle =>
      rw [Option.bind_some, Option.bind_some]
      cases isFd : handle.fd with
      | none => rfl
      | some fd =>
          rcases sound.uploads id handle fd held isFd with ⟨tempfile, descriptor, upload, -⟩
          have later := kept id handle fd tempfile descriptor held isFd upload
          rw [Option.bind_some, Option.bind_some, upload.opened, later]

theorem Sound.frame (sound : Sound config state)
    (handles : ∀ id handle, after.handles id = some handle → state.handles id = some handle)
    (nextHandle : after.nextHandle = state.nextHandle) (formed : after.files.Formed)
    (kept : ∀ id handle fd tempfile descriptor, after.handles id = some handle →
      handle.fd = some fd → Upload state handle fd tempfile descriptor →
        Upload after handle fd tempfile descriptor ∧
          after.files.inodes.read descriptor.inode = state.files.inodes.read descriptor.inode) :
    Sound config after := by
  have inodes : ∀ id inode, after.inodeOf id = some inode → state.inodeOf id = some inode := by
    intro id inode writes
    rcases Option.bind_eq_some_iff.mp writes with ⟨handle, held, rest⟩
    rcases Option.bind_eq_some_iff.mp rest with ⟨fd, isFd, found⟩
    have before := handles id handle held
    rcases sound.uploads id handle fd before isFd with ⟨tempfile, descriptor, upload, -⟩
    have later := (kept id handle fd tempfile descriptor held isFd upload).1.opened
    rw [later] at found
    rw [← Option.some.inj found]
    exact inodeOf_eq before isFd upload.opened
  refine ⟨?_, ?_, formed, ?_⟩
  · intro id handle fd held isFd
    have before := handles id handle held
    rcases sound.uploads id handle fd before isFd with ⟨tempfile, descriptor, upload, received, temp⟩
    have later := kept id handle fd tempfile descriptor held isFd upload
    exact ⟨tempfile, descriptor, later.1, later.2 ▸ received, temp⟩
  · intro id id' inode writes writes'
    exact sound.apart id id' inode (inodes id inode writes) (inodes id' inode writes')
  · intro id least
    rw [nextHandle] at least
    have missing := sound.fresh id least
    cases held : after.handles id with
    | none => rfl
    | some handle =>
        rw [handles id handle held] at missing
        cases missing

/-! ## Opening -/

structure Grown (state after : State) (hostfile : Str) (mode : Mode) (fd inode : Nat) : Prop where
  handles : after.handles = state.handles
  nextHandle : after.nextHandle = state.nextHandle
  opened : Files.Opened state.files after.files hostfile mode fd inode
  unshared : ∀ id, state.inodeOf id ≠ some inode
  tempfiles : ∀ other, other ≠ fd →
    after.tree.tempfiles.get? other = state.tree.tempfiles.get? other
  filenames : ∀ other, other ≠ fd →
    after.tree.filenames.get? other = state.tree.filenames.get? other

variable {stamp filename hostfile : Str} {mode : Mode} {fd inode : Nat}

theorem Grown.keeps (grown : Grown state after hostfile mode fd inode)
    (sound : Sound config state) {id : Nat} {handle : Handle} {other : Nat} {tempfile : Str}
    {descriptor : Descriptor} (held : state.handles id = some handle)
    (isFd : handle.fd = some other) (upload : Upload state handle other tempfile descriptor) :
    Upload after handle other tempfile descriptor ∧
      after.files.inodes.read descriptor.inode = state.files.inodes.read descriptor.inode := by
  have writes := inodeOf_eq held isFd upload.opened
  have differs : descriptor.inode ≠ inode := fun same => grown.unshared id (same ▸ writes)
  have otherFd : other ≠ fd := by
    intro same
    have opened := upload.opened
    rw [same, grown.opened.free] at opened
    cases opened
  have otherName : tempfile ≠ hostfile := by
    intro same
    have named := upload.named
    rw [same] at named
    rcases grown.opened.origin with taken | ⟨missing, -⟩
    · rw [taken] at named
      exact differs (Option.some.inj named).symm
    · rw [missing] at named
      cases named
  refine ⟨⟨upload.positive, ?_, ?_, ?_, ?_⟩, ?_⟩
  · rw [grown.tempfiles other otherFd]
    exact upload.hasTemp
  · rw [grown.filenames other otherFd]
    exact upload.hasName
  · rw [grown.opened.descriptors, Function.update_of_ne otherFd]
    exact upload.opened
  · rw [grown.opened.names, Function.update_of_ne otherName]
    exact upload.named
  · exact grown.opened.others _ (sound.inode_lt writes) differs

theorem Grown.sound (grown : Grown state after hostfile mode fd inode)
    (sound : Sound config state) : Sound config after := by
  have handles := grown.handles
  apply sound.frame (fun id handle held => handles ▸ held) grown.nextHandle
    (grown.opened.formed sound.formed)
  intro id handle other tempfile descriptor held isFd upload
  rw [handles] at held
  exact grown.keeps sound held isFd upload

theorem Sound.unshared (sound : Sound config state) {files : Files Str UInt8} {flags : Flags}
    (fresh : OpensFresh config state filename stamp flags) (writes : flags.write = true)
    (opened : Files.Opened state.files files (FileTransfer.hostfile config stamp filename)
      flags.mode fd inode) :
    (∀ id, state.inodeOf id ≠ some inode) ∧ files.inodes.read inode = [] := by
  constructor
  · intro id same
    rcases opened.origin with taken | ⟨-, next⟩
    · exact (fresh writes inode taken).2 id same
    · have below := sound.inode_lt same
      omega
  · exact opened.data fun taken => (fresh writes inode taken).1

theorem Sound.added (sound : Sound config state) {handle : Handle}
    (ready : ∀ fd, handle.fd = some fd → ∃ tempfile descriptor,
      Upload state handle fd tempfile descriptor ∧
        handle.bytesReceived = (state.files.inodes.read descriptor.inode).length ∧
          (∀ data, tempfile ≠ shasumfile config data) ∧
            ∀ id, state.inodeOf id ≠ some descriptor.inode) :
    Sound config { state with
      handles := Function.update state.handles state.nextHandle (some handle)
      nextHandle := state.nextHandle + 1 } := by
  have older : ∀ id, id ≠ state.nextHandle → ({ state with
      handles := Function.update state.handles state.nextHandle (some handle)
      nextHandle := state.nextHandle + 1 } : State).inodeOf id = state.inodeOf id := by
    intro id differs
    simp only [State.inodeOf, Function.update_of_ne differs]
  have newer : ∀ inode, ({ state with
      handles := Function.update state.handles state.nextHandle (some handle)
      nextHandle := state.nextHandle + 1 } : State).inodeOf state.nextHandle = some inode →
        ∀ id, state.inodeOf id ≠ some inode := by
    intro inode writes
    simp only [State.inodeOf, Function.update_self, Option.bind_some] at writes
    rcases Option.bind_eq_some_iff.mp writes with ⟨fd, isFd, found⟩
    rcases ready fd isFd with ⟨tempfile, descriptor, upload, -, -, unshared⟩
    rw [upload.opened] at found
    rw [← Option.some.inj found]
    exact unshared
  refine ⟨?_, ?_, sound.formed, ?_⟩
  · intro id other fd held isFd
    dsimp only at held
    by_cases isNew : id = state.nextHandle
    · rw [isNew, Function.update_self] at held
      cases held
      rcases ready fd isFd with ⟨tempfile, descriptor, upload, received, temp, -⟩
      exact ⟨tempfile, descriptor, ⟨upload.positive, upload.hasTemp, upload.hasName, upload.opened,
        upload.named⟩, received, temp⟩
    · rw [Function.update_of_ne isNew] at held
      rcases sound.uploads id other fd held isFd with ⟨tempfile, descriptor, upload, received, temp⟩
      exact ⟨tempfile, descriptor, ⟨upload.positive, upload.hasTemp, upload.hasName, upload.opened,
        upload.named⟩, received, temp⟩
  · intro id id' inode writes writes'
    by_cases isNew : id = state.nextHandle
    · by_cases isNew' : id' = state.nextHandle
      · exact isNew.trans isNew'.symm
      · rw [older id' isNew'] at writes'
        rw [isNew] at writes
        exact absurd writes' (newer inode writes id')
    · by_cases isNew' : id' = state.nextHandle
      · rw [older id isNew] at writes
        rw [isNew'] at writes'
        exact absurd writes (newer inode writes' id)
      · rw [older id isNew] at writes
        rw [older id' isNew'] at writes'
        exact sound.apart id id' inode writes writes'
  · intro id least
    dsimp only at least ⊢
    rw [Function.update_of_ne (by omega)]
    exact sound.fresh id (by omega)

/-! ## Books -/

def SameBooks (tree other : HoneyPotFilesystem) : Prop :=
  other.tempfiles = tree.tempfiles ∧ other.filenames = tree.filenames

theorem SameBooks.trans {first second third : HoneyPotFilesystem} (left : SameBooks first second)
    (right : SameBooks second third) : SameBooks first third :=
  ⟨right.1.trans left.1, right.2.trans left.2⟩

theorem books_append {tree made : HoneyPotFilesystem} {directory reference : Nat}
    (appends : tree.append directory reference = .ok made) : SameBooks tree made := by
  rw [append_ok appends]
  exact ⟨rfl, rfl⟩

theorem books_mkfile {tree made : HoneyPotFilesystem} {limit uid gid size mode ctime : Nat}
    {path : Str} {isMade : Bool}
    (makes : tree.mkfile limit path uid gid size mode ctime = .ok (made, isMade)) :
    SameBooks tree made := by
  unfold HoneyPotFilesystem.mkfile at makes
  split at makes
  · rw [← (Prod.mk.inj (Except.ok.inj makes)).1]
    exact ⟨rfl, rfl⟩
  · split at makes
    · cases makes
    · rcases ok_of_bind makes with ⟨dir, -, rest⟩
      rcases ok_of_bind rest with ⟨cleared, clears, rest⟩
      rcases ok_of_bind rest with ⟨last, appends, rest⟩
      rw [← (Prod.mk.inj (Except.ok.inj rest)).1]
      have kept : SameBooks tree cleared := by
        rcases ok_of_bind clears with ⟨names, -, clears⟩
        split at clears
        · rw [← Except.ok.inj clears]
          exact ⟨rfl, rfl⟩
        · split at clears
          · rw [← Except.ok.inj clears]
            exact ⟨rfl, rfl⟩
          · rcases remove_ok clears with ⟨entries, rfl⟩
            exact ⟨rfl, rfl⟩
      have added := books_append appends
      exact kept.trans added

theorem books_updateRealfile {tree changed : HoneyPotFilesystem} {file : Option Nat}
    {real : Str} {isFile : Bool} (updates : tree.updateRealfile file real isFile = .ok changed) :
    SameBooks tree changed := by
  unfold HoneyPotFilesystem.updateRealfile at updates
  split at updates
  · cases updates
  · split at updates
    · rw [← Except.ok.inj updates]
      exact ⟨rfl, rfl⟩
    · rw [← Except.ok.inj updates]
      exact ⟨rfl, rfl⟩

theorem books_setAttrs (filename : Str) (attrs : Attrs) (tree : HoneyPotFilesystem) :
    SameBooks tree (setAttrs config filename attrs tree).2 := by
  have entry {change : Entry → Entry} {tree changed : HoneyPotFilesystem}
      (changes : changeEntry config filename change tree = some changed) :
      SameBooks tree changed := by
    unfold changeEntry at changes
    split at changes
    · rw [← Option.some.inj changes]
      exact ⟨rfl, rfl⟩
    · cases changes
    · cases changes
  unfold setAttrs
  dsimp only
  split
  · exact ⟨rfl, rfl⟩
  · next chowned chowns =>
    have first : SameBooks tree chowned := by
      split at chowns
      · rw [← Option.some.inj chowns]
        exact ⟨rfl, rfl⟩
      · exact entry chowns
    split
    · exact first
    · split
      · exact first
      · next changes => exact first.trans (entry changes)

theorem Sound.books (sound : Sound config state) {tree : HoneyPotFilesystem}
    (books : SameBooks state.tree tree) : Sound config { state with tree } := by
  apply @Sound.frame config state { state with tree } sound (fun _ _ => id) rfl sound.formed
  intro id handle other tempfile descriptor held isFd upload
  refine ⟨⟨upload.positive, ?_, ?_, upload.opened, upload.named⟩, rfl⟩
  · exact (congrArg (Dict.get? · other) books.1).trans upload.hasTemp
  · exact (congrArg (Dict.get? · other) books.2).trans upload.hasName

/-! ## Opening keeps the handles sound -/

theorem fsOpen_cases (filename : Str) (flags : Flags) (fileMode : Nat) (stamp : Str) (now fd : Nat)
    (sound : Sound config state) (fresh : OpensFresh config state filename stamp flags) :
    let result := fsOpen config filename flags fileMode stamp now fd state
    result = (some none, state) ∨
      (result.1 = none ∧ Sound config result.2) ∨
        result.1 = some (some fd) ∧ ∃ inode,
          Grown state result.2 (FileTransfer.hostfile config stamp filename) flags.mode fd inode ∧
            result.2.tree.tempfiles.get? fd = some (FileTransfer.hostfile config stamp filename) ∧
              result.2.tree.filenames.get? fd = some filename ∧
                result.2.files.inodes.read inode = [] := by
  dsimp only
  unfold fsOpen
  by_cases writes : flags.write = true
  · rw [if_neg (not_not.mpr writes)]
    right
    dsimp only
    split
    · exact .inl ⟨rfl, sound⟩
    · next tree isMade makes =>
      have books := books_mkfile makes
      split
      · exact .inl ⟨rfl, sound.books books⟩
      · next files opens =>
        rcases Files.openWrite_ok opens with ⟨inode, opened⟩
        have unshared := sound.unshared fresh writes opened
        split
        · refine .inl ⟨rfl, ?_⟩
          have grown : Grown state { state with tree, files }
              (FileTransfer.hostfile config stamp filename) flags.mode fd inode :=
            ⟨rfl, rfl, opened, unshared.1, fun other _ => congrArg (Dict.get? · other) books.1,
              fun other _ => congrArg (Dict.get? · other) books.2⟩
          exact grown.sound sound
        · next changed updates =>
          have later : SameBooks tree changed := by
            rcases ok_of_bind updates with ⟨file, -, updates⟩
            exact books_updateRealfile updates
          have both := books.trans later
          refine .inr ⟨rfl, inode, ⟨rfl, rfl, opened, unshared.1, ?_, ?_⟩, ?_, ?_, unshared.2⟩
          · intro other differs
            rw [Dict.get?_set, if_neg differs, both.1]
          · intro other differs
            rw [Dict.get?_set, if_neg differs, both.2]
          · rw [Dict.get?_set, if_pos rfl]
          · rw [Dict.get?_set, if_pos rfl]
  · rw [if_pos writes]
    exact .inl rfl

theorem hostfile_ne_shasumfile (stamp filename : Str) (data : Bytes) :
    FileTransfer.hostfile config stamp filename ≠ shasumfile config data := by
  intro same
  rw [FileTransfer.hostfile, shasumfile, List.append_assoc, List.append_assoc,
    List.append_cancel_left_eq] at same
  have underscore : '_' ∈ '/' :: config.sha256 data := by
    rw [← same]
    exact List.mem_append_right _ (List.mem_append_left _ List.mem_cons_self)
  rcases List.mem_cons.mp underscore with isSlash | inside
  · cases isSlash
  · exact config.hexadecimal data inside

theorem Sound.makeHandle (sound : Sound config state) (flags : Flags)
    (attrs : Attrs) {fd : Option Nat}
    (ready : ∀ opened, fd = some opened → ∃ tempfile descriptor,
      Upload state { filename, fd } opened tempfile descriptor ∧
        state.files.inodes.read descriptor.inode = [] ∧
          (∀ data, tempfile ≠ shasumfile config data) ∧
            ∀ id, state.inodeOf id ≠ some descriptor.inode) :
    Sound config (makeHandle config filename flags attrs fd state) := by
  have books := @books_setAttrs config filename attrs state.tree
  unfold FileTransfer.makeHandle
  split
  · next tree sets =>
    rw [sets] at books
    exact sound.books books
  · next tree sets =>
    rw [sets] at books
    have moved := sound.books books
    dsimp only
    split
    · exact moved
    · apply moved.added
      intro opened isFd
      rcases ready opened isFd with ⟨tempfile, descriptor, upload, empty, temp, unshared⟩
      refine ⟨tempfile, descriptor, ⟨upload.positive, ?_, ?_, upload.opened, upload.named⟩, ?_,
        temp, unshared⟩
      · exact (congrArg (Dict.get? · opened) books.1).trans upload.hasTemp
      · exact (congrArg (Dict.get? · opened) books.2).trans upload.hasName
      · dsimp only
        rw [empty]
        rfl

theorem sound_openFile (sound : Sound config state) (filename : Str) (flags : Flags) (attrs : Attrs)
    (stamp : Str) (now fd : Nat) (fresh : OpensFresh config state filename stamp flags) :
    Sound config (openFile config filename flags attrs stamp now fd state) := by
  have cases_ := fsOpen_cases filename flags (attrs.permissions.getD 0o777) stamp now fd sound fresh
  unfold openFile
  cases opens : fsOpen config filename flags (attrs.permissions.getD 0o777) stamp now fd state with
  | mk result after =>
      rw [opens] at cases_
      dsimp only at cases_
      rcases cases_ with same | ⟨none_, kept⟩ | ⟨isFd, inode, grown, temp, named, empty⟩
      · cases same
        exact sound.makeHandle flags attrs nofun
      · rw [none_]
        exact kept
      · rw [isFd]
        apply (grown.sound sound).makeHandle flags attrs
        intro opened same
        rw [← Option.some.inj same]
        have inodes := sound.inodeOf grown.handles fun id handle other tempfile descriptor held isFd upload =>
          (grown.keeps sound held isFd upload).1.opened
        refine ⟨_, ⟨inode, 0, flags.mode.append⟩, ⟨grown.opened.positive, temp, named, ?_, ?_⟩, empty,
          hostfile_ne_shasumfile stamp filename, ?_⟩
        · rw [grown.opened.descriptors, Function.update_self]
        · rw [grown.opened.names, Function.update_self]
        · intro id
          rw [inodes]
          exact grown.unshared id

/-! ## Writing -/

structure Wrote (state after : State) (id : Nat) (handle : Handle) (received : Nat) : Prop where
  held : state.handles id = some handle
  handles : after.handles =
    Function.update state.handles id (some { handle with bytesReceived := received })
  nextHandle : after.nextHandle = state.nextHandle
  tree : after.tree = state.tree
  names : after.files.names = state.files.names
  next : after.files.inodes.next = state.files.inodes.next
  inodes : ∀ fd, (after.files.descriptors fd).map Descriptor.inode =
    (state.files.descriptors fd).map Descriptor.inode
  reads : ∀ inode, state.inodeOf id ≠ some inode →
    after.files.inodes.read inode = state.files.inodes.read inode
  counts : ∀ inode, state.inodeOf id = some inode →
    received = (after.files.inodes.read inode).length

theorem Wrote.inodeOf {id : Nat} {handle : Handle} {received : Nat}
    (wrote : Wrote state after id handle received) (other : Nat) :
    after.inodeOf other = state.inodeOf other := by
  rw [State.inodeOf, State.inodeOf, wrote.handles]
  simp only [wrote.inodes]
  by_cases same : other = id
  · rw [same, Function.update_self, wrote.held]
    rfl
  · rw [Function.update_of_ne same]

theorem Wrote.upload {id : Nat} {handle other : Handle} {received fd : Nat} {tempfile : Str}
    {descriptor : Descriptor} (wrote : Wrote state after id handle received)
    (upload : Upload state other fd tempfile descriptor) {later : Handle}
    (same : later.filename = other.filename) :
    ∃ moved, Upload after later fd tempfile moved ∧ moved.inode = descriptor.inode := by
  have inode := wrote.inodes fd
  rw [upload.opened, Option.map_some] at inode
  rcases Option.map_eq_some_iff.mp inode with ⟨moved, opened, isInode⟩
  refine ⟨moved, ⟨upload.positive, ?_, ?_, opened, ?_⟩, isInode⟩
  · rw [wrote.tree]
    exact upload.hasTemp
  · rw [wrote.tree, same]
    exact upload.hasName
  · rw [wrote.names, isInode]
    exact upload.named

theorem Wrote.sound {id : Nat} {handle : Handle} {received : Nat}
    (wrote : Wrote state after id handle received) (sound : Sound config state) :
    Sound config after := by
  refine ⟨?_, ?_, ?_, ?_⟩
  · intro other holder fd held isFd
    rw [wrote.handles] at held
    by_cases same : other = id
    · rw [same, Function.update_self] at held
      cases held
      rcases sound.uploads id handle fd wrote.held isFd with ⟨tempfile, descriptor, upload, -, temp⟩
      have name : ({ handle with bytesReceived := received } : Handle).filename = handle.filename := rfl
      rcases wrote.upload upload name with ⟨moved, later, isInode⟩
      refine ⟨tempfile, moved, later, ?_, temp⟩
      rw [isInode]
      exact wrote.counts _ (inodeOf_eq wrote.held isFd upload.opened)
    · rw [Function.update_of_ne same] at held
      rcases sound.uploads other holder fd held isFd with ⟨tempfile, descriptor, upload, count, temp⟩
      rcases wrote.upload upload rfl with ⟨moved, later, isInode⟩
      refine ⟨tempfile, moved, later, ?_, temp⟩
      have writes := inodeOf_eq held isFd upload.opened
      rw [isInode, wrote.reads]
      · exact count
      · exact fun shared => same (sound.apart other id _ writes shared)
  · intro first second inode writes writes'
    rw [wrote.inodeOf] at writes writes'
    exact sound.apart first second inode writes writes'
  · intro name inode named
    rw [wrote.names] at named
    rw [wrote.next]
    exact sound.formed name inode named
  · intro other least
    rw [wrote.nextHandle] at least
    have missing := sound.fresh other least
    rw [wrote.handles, Function.update_of_ne]
    · exact missing
    · intro same
      rw [same, wrote.held] at missing
      cases missing

theorem map_inode_update (descriptors : Nat → Option Descriptor) {fd : Nat}
    {descriptor moved : Descriptor} (opened : descriptors fd = some descriptor)
    (same : moved.inode = descriptor.inode) (other : Nat) :
    (Function.update descriptors fd (some moved) other).map Descriptor.inode =
      (descriptors other).map Descriptor.inode := by
  by_cases isFd : other = fd
  · rw [isFd, Function.update_self, opened, Option.map_some, Option.map_some, same]
  · rw [Function.update_of_ne isFd]

theorem wrote_chunk {id offset received fd : Nat} {handle : Handle} {data : Bytes}
    {descriptor : Descriptor} (held : state.handles id = some handle)
    (isFd : handle.fd = some (fd + 1))
    (opened : state.files.descriptors (fd + 1) = some descriptor) {counted sought : State}
    (isCounted : counted = { state with
      handles := Function.update state.handles id (some { handle with bytesReceived := received }) })
    (seeks : fsLseek handle.fd offset counted = some sought)
    (counts : received = (PositionedWrite.pwrite (state.files.inodes.read descriptor.inode)
      (if descriptor.append then (state.files.inodes.read descriptor.inode).length else offset)
      data).length) :
    ∃ after, fsWrite handle.fd data sought = some after ∧ Wrote state after id handle received := by
  have inode := inodeOf_eq held isFd opened
  rw [isFd, isCounted, fsLseek, Files.lseek, opened] at seeks
  rw [← Option.some.inj seeks, isFd, fsWrite, Option.bind_some, Files.write]
  simp only [Function.update_self, Option.map_some]
  refine ⟨_, rfl, ⟨held, ?_, rfl, rfl, rfl, rfl, ?_, ?_, ?_⟩⟩
  · rw [isFd]
  · intro other
    dsimp only
    rw [Function.update_idem]
    exact map_inode_update _ opened (by rfl) other
  · intro other differs
    rw [inode] at differs
    dsimp only
    exact Heap.read_modify_other _ fun same => differs (congrArg some same.symm)
  · intro other same
    rw [inode] at same
    rw [← Option.some.inj same]
    refine counts.trans (congrArg List.length ?_)
    dsimp only
    rw [Heap.read_modify_self]
    rfl

theorem Sound.descriptor (sound : Sound config state) {id fd : Nat} {handle : Handle}
    (held : state.handles id = some handle) (isFd : handle.fd = some fd) :
    ∃ opened descriptor, fd = opened + 1 ∧ state.files.descriptors (opened + 1) = some descriptor ∧
      handle.bytesReceived = (state.files.inodes.read descriptor.inode).length := by
  rcases sound.uploads id handle fd held isFd with ⟨tempfile, descriptor, upload, received, -⟩
  rcases Nat.exists_eq_succ_of_ne_zero upload.positive with ⟨opened, rfl⟩
  exact ⟨opened, descriptor, rfl, upload.opened, received⟩

theorem sound_writeNothing (sound : Sound config state) {id offset : Nat} {handle : Handle}
    (held : state.handles id = some handle) {counted : State}
    (isCounted : counted = { state with
      handles := Function.update state.handles id
        (some { handle with bytesReceived := handle.bytesReceived }) }) :
    Sound config counted ∧ ∀ sought, fsLseek handle.fd offset counted = some sought →
      Sound config ((fsWrite handle.fd [] sought).getD sought) := by
  have same : counted = state := by
    rw [isCounted]
    exact congrArg (fun handles => { state with handles }) (Function.update_eq_self_iff.mpr held.symm)
  refine ⟨same ▸ sound, ?_⟩
  intro sought seeks
  cases isFd : handle.fd with
  | none =>
      rw [isFd] at seeks
      rw [← Option.some.inj seeks]
      exact same ▸ sound
  | some fd =>
      rcases sound.descriptor held isFd with ⟨opened, descriptor, rfl, isOpen, received⟩
      have counts : handle.bytesReceived =
          (PositionedWrite.pwrite (state.files.inodes.read descriptor.inode)
            (if descriptor.append then (state.files.inodes.read descriptor.inode).length else offset)
            []).length := by
        rw [PositionedWrite.pwrite, if_pos rfl]
        exact received
      rcases wrote_chunk held isFd isOpen isCounted seeks counts with ⟨after, writes, wrote⟩
      rw [isFd] at writes
      rw [writes]
      exact wrote.sound sound

theorem sound_writeChunk (sound : Sound config state) {id offset : Nat} {data : Bytes}
    (atEnd : WritesAtEnd config state id offset data) :
    Sound config (writeChunk config id offset data state) := by
  unfold writeChunk
  split
  · exact sound
  · next handle held =>
    dsimp only
    by_cases empty : data = []
    · have nothing := @sound_writeNothing config state sound id offset handle held _ rfl
      rw [empty]
      split
      · exact nothing.1
      · split
        · exact nothing.1
        · next sought seeks => exact nothing.2 sought seeks
    · rcases atEnd handle held empty with ⟨allowed, fd, descriptor, isFd, isOpen, ends⟩
      rcases sound.descriptor held isFd with ⟨opened, found, rfl, isFound, received⟩
      rw [isOpen] at isFound
      cases isFound
      have start : (if descriptor.append then (state.files.inodes.read descriptor.inode).length
          else offset) = (state.files.inodes.read descriptor.inode).length := by
        split
        · rfl
        · next closed => exact ends.resolve_left closed
      have counts : handle.bytesReceived + data.length =
          (PositionedWrite.pwrite (state.files.inodes.read descriptor.inode)
            (if descriptor.append then (state.files.inodes.read descriptor.inode).length else offset)
            data).length := by
        rw [start, PositionedWrite.length_pwrite _ _ _ empty, received]
        omega
      have within : ¬ (config.bytesReceivedLimit ≠ 0 ∧
          config.bytesReceivedLimit < handle.bytesReceived + data.length) := by
        rcases allowed with none_ | few
        · exact fun exceeds => exceeds.1 none_
        · exact fun exceeds => absurd exceeds.2 (Nat.not_lt.mpr few)
      rw [if_neg within]
      split
      · next fails =>
        rw [isFd, fsLseek, Files.lseek, isOpen] at fails
        cases fails
      · next sought seeks =>
        rcases wrote_chunk held isFd isOpen rfl seeks counts with ⟨after, writes, wrote⟩
        rw [writes]
        exact wrote.sound sound

/-! ## Closing -/

theorem held_of_forgotten {handles : Nat → Option Handle} {id other : Nat} {holder : Handle}
    (held : Function.update handles id none other = some holder) :
    other ≠ id ∧ handles other = some holder := by
  by_cases same : other = id
  · rw [same, Function.update_self] at held
    cases held
  · rw [Function.update_of_ne same] at held
    exact ⟨same, held⟩

theorem Sound.closed (sound : Sound config state) {id fd : Nat} {handle : Handle} {tempfile : Str}
    {descriptor : Descriptor} {data : Bytes} {tree : HoneyPotFilesystem}
    (held : state.handles id = some handle) (isFd : handle.fd = some fd)
    (upload : Upload state handle fd tempfile descriptor)
    (tempfiles : tree.tempfiles = state.tree.tempfiles.erase fd)
    (filenames : tree.filenames = state.tree.filenames.erase fd) :
    Sound config { state with
      tree
      files := (state.files.keepOnce tempfile (shasumfile config data)).close fd
      handles := Function.update state.handles id none } := by
  have writes := inodeOf_eq held isFd upload.opened
  have rest := @Files.keepOnce_rest _ _ _ state.files tempfile (shasumfile config data)
  refine sound.frame (fun other holder isHeld => (held_of_forgotten isHeld).2) rfl
    (sound.formed.keepOnce tempfile (shasumfile config data)) ?_
  intro other holder otherFd otherFile otherDescriptor isHeld isOther uploads
  rcases held_of_forgotten isHeld with ⟨differs, before⟩
  have otherWrites := inodeOf_eq before isOther uploads.opened
  have fds : otherFd ≠ fd := by
    intro same
    have opened := uploads.opened
    rw [same, upload.opened] at opened
    rw [Option.some.inj opened] at writes
    exact differs (sound.apart other id _ otherWrites writes)
  have files : otherFile ≠ tempfile := by
    intro same
    have named := uploads.named
    rw [same, upload.named] at named
    rw [Option.some.inj named] at writes
    exact differs (sound.apart other id _ otherWrites writes)
  have notSha : otherFile ≠ shasumfile config data := by
    rcases sound.uploads other holder otherFd before isOther with ⟨known, found, isKnown, -, temp⟩
    have same := uploads.hasTemp
    rw [isKnown.hasTemp] at same
    rw [← Option.some.inj same]
    exact temp data
  refine ⟨⟨uploads.positive, ?_, ?_, ?_, ?_⟩, ?_⟩
  · dsimp only
    rw [tempfiles, Dict.get?_erase, if_neg fds]
    exact uploads.hasTemp
  · dsimp only
    rw [filenames, Dict.get?_erase, if_neg fds]
    exact uploads.hasName
  · dsimp only [Files.close]
    rw [Function.update_of_ne fds, rest.2]
    exact uploads.opened
  · exact (Files.keepOnce_names files notSha).trans uploads.named
  · dsimp only [Files.close]
    rw [rest.1]

theorem Sound.forgotten (sound : Sound config state) (id : Nat) :
    Sound config { state with handles := Function.update state.handles id none } := by
  refine sound.frame (fun other holder isHeld => (held_of_forgotten isHeld).2) rfl sound.formed ?_
  intro other holder fd tempfile descriptor _ _ upload
  exact ⟨⟨upload.positive, upload.hasTemp, upload.hasName, upload.opened, upload.named⟩, rfl⟩

structure SameSizes (tree other : HoneyPotFilesystem) : Prop where
  found : ∀ path, other.getfile true config.limit path = tree.getfile true config.limit path
  sizes : ∀ file, (other.entry file).size = (tree.entry file).size
  books : SameBooks tree other

theorem updateRealfile_some (tree : HoneyPotFilesystem) (file : Nat) (real : Str) :
    ∃ changed, tree.updateRealfile (some file) real true = .ok changed ∧
      @SameSizes config tree changed := by
  unfold HoneyPotFilesystem.updateRealfile
  dsimp only
  split
  · have alike : Alike (tree.modify file fun entry => { entry with realfile := some real }) tree :=
      alike_modify fun _ => ⟨rfl, rfl, rfl, rfl⟩
    refine ⟨_, rfl, fun path => alike.getfile .., ?_, rfl, rfl⟩
    intro other
    rw [entry_modify]
    split
    · next same => rw [same]
    · rfl
  · exact ⟨tree, rfl, fun _ => rfl, fun _ => rfl, rfl, rfl⟩

theorem updateSize_found {tree : HoneyPotFilesystem} {filename : Str} {file : Nat} (size : Nat)
    (found : tree.getfile true config.limit filename = .ok (some file))
    (isFile : (tree.entry file).type = .file) :
    ∃ sized, tree.updateSize config.limit filename size = .ok sized ∧
      (∀ path, sized.getfile true config.limit path = tree.getfile true config.limit path) ∧
        (sized.entry file).size = size ∧ SameBooks tree sized := by
  have resized := resized_modify tree file size
  refine ⟨tree.modify file fun entry => { entry with size }, ?_, fun path => resized.alike.getfile ..,
    ?_, rfl, rfl⟩
  · rw [HoneyPotFilesystem.updateSize, found]
    exact if_neg (not_not.mpr isFile)
  · rw [entry_modify, if_pos rfl]

theorem closeFile_right (sound : Sound config state) {id : Nat}
    (own : ClosesOwn config state id) :
    Sound config (closeFile config id state) ∧
      ∀ handle, state.handles id = some handle →
        SizeRight config (closeFile config id state).tree handle (content config state handle) := by
  cases held : state.handles id with
  | none =>
      have same : closeFile config id state = state := by
        rw [closeFile, held]
      rw [same]
      exact ⟨sound, nofun⟩
  | some handle =>
      have isOwn := own handle held
      cases isFd : handle.fd with
      | none =>
          rw [isFd] at isOwn
          have closes : closeFile config id state =
              { state with handles := Function.update state.handles id none } := by
            simp only [closeFile, held, isOwn.1, isFd, fsClose, Nat.lt_irrefl, if_false]
          rw [closes]
          refine ⟨sound.forgotten id, ?_⟩
          intro other same
          cases same
          exact isOwn.2
      | some fd =>
          rw [isFd] at isOwn
          rcases isOwn with ⟨file, found, isFile, -, empty⟩
          rcases sound.uploads id handle fd held isFd with ⟨tempfile, descriptor, upload, received, temp⟩
          have data : state.files.read tempfile = some (state.files.inodes.read descriptor.inode) := by
            rw [Files.read, upload.named, Option.map_some]
          have sized : ∃ sized, (if 0 < handle.bytesReceived then
              state.tree.updateSize config.limit handle.filename handle.bytesReceived
              else .ok state.tree) = .ok sized ∧
                (∀ path, sized.getfile true config.limit path =
                  state.tree.getfile true config.limit path) ∧
                (sized.entry file).size = handle.bytesReceived ∧ SameBooks state.tree sized := by
            split
            · exact updateSize_found _ found isFile
            · next few =>
              have zero : handle.bytesReceived = 0 := by omega
              exact ⟨state.tree, rfl, fun _ => rfl, (empty zero).trans zero.symm, rfl, rfl⟩
          rcases sized with ⟨sized, updates, lookups, size, books⟩
          rcases @updateRealfile_some config sized file
            (shasumfile config (state.files.inodes.read descriptor.inode)) with ⟨changed, real, same⟩
          have positive := upload.positive
          rcases Nat.exists_eq_succ_of_ne_zero positive with ⟨opened, rfl⟩
          have closes : closeFile config id state =
              { state with
                tree := { changed with
                  tempfiles := changed.tempfiles.erase (opened + 1)
                  filenames := changed.filenames.erase (opened + 1) }
                files := (state.files.keepOnce tempfile
                  (shasumfile config (state.files.inodes.read descriptor.inode))).close (opened + 1)
                handles := Function.update state.handles id none } := by
            have hasTemp : sized.tempfiles.get? (opened + 1) = some tempfile :=
              books.1 ▸ upload.hasTemp
            have hasName : sized.filenames.get? (opened + 1) = some handle.filename :=
              books.2 ▸ upload.hasName
            simp only [closeFile, held, updates, isFd, fsClose, hasTemp, hasName, data, lookups,
              found, Except.bind, real]
          rw [closes]
          have both := books.trans same.books
          constructor
          · apply sound.closed held isFd upload
            · exact congrArg (Dict.erase · (opened + 1)) both.1
            · exact congrArg (Dict.erase · (opened + 1)) both.2
          · intro other isHandle
            cases isHandle
            have erased : Alike { changed with
                tempfiles := changed.tempfiles.erase (opened + 1)
                filenames := changed.filenames.erase (opened + 1) } changed :=
              ⟨rfl, fun _ => rfl, fun _ => rfl, fun _ => rfl, fun _ _ _ => rfl⟩
            refine ⟨state.files.inodes.read descriptor.inode, file, ?_, ?_, ?_⟩
            · rw [content, isFd]
              dsimp only
              rw [upload.hasTemp, Option.bind_some, data]
            · rw [erased.getfile, same.found, lookups, found]
            · exact (same.sizes file).trans (size.trans received)

theorem sound_next (sound : Sound config state) {op : Op} (onePass : OnePass config state op) :
    Sound config (next config state op) ∧ ClosesRight config state op := by
  cases op with
  | «open» filename flags attrs stamp now fd =>
      exact ⟨sound_openFile sound filename flags attrs stamp now fd onePass, trivial⟩
  | writeChunk id offset data => exact ⟨sound_writeChunk sound onePass, trivial⟩
  | readChunk id offset length => exact ⟨sound, trivial⟩
  | close id => exact closeFile_right sound onePass

end

/-- Where every upload is written in one pass, each file has the size of its content when its
handle is closed. -/
theorem sizes_right (config : Config) {state : State} (none_ : ∀ id, state.handles id = none)
    (formed : state.files.Formed) {ops : List Op}
    (onePass : EventRun.Along (step config) (OnePass config) state ops) :
    EventRun.Along (step config) (ClosesRight config) state ops := by
  have idle : ∀ id, state.inodeOf id = none := by
    intro id
    rw [State.inodeOf, none_ id]
    rfl
  have sound : Sound config state := by
    refine ⟨?_, ?_, formed, fun id _ => none_ id⟩
    · intro id handle fd held
      rw [none_ id] at held
      cases held
    · intro id id' inode writes
      rw [idle id] at writes
      cases writes
  clear none_ formed idle
  induction ops generalizing state with
  | nil => trivial
  | cons op ops induction =>
      have taken := sound_next sound onePass.1
      refine ⟨taken.2, ?_⟩
      intro later isNext
      rw [← Option.some.inj isNext]
      exact induction (onePass.2 _ rfl) taken.1

/-! ## Uploads of two bytes -/

def DIGEST : Str := "fb8e20fc2e4c3f248c60c39bd652f3c1347298bb977b8b4d5903b85055620603".toList

theorem digest_hexadecimal : '_' ∉ DIGEST := by decide

def sampleConfig : Config where
  limit := 17
  downloadPath := "downloads".toList
  sha256 _ := DIGEST
  hexadecimal _ := digest_hexadecimal

def sampleState : State where
  tree := smallTree
  files := ⟨fun _ => none, .empty, fun _ => none⟩
  handles _ := none
  nextHandle := 0

def twoChunks (offset : Nat) : List Op :=
  [.open "/f".toList { write := true, creat := true } {} "0".toList 0 5,
    .writeChunk 0 0 [97], .writeChunk 0 offset [98], .close 0]

theorem sizes_right_upload :
    EventRun.Along (step sampleConfig) (ClosesRight sampleConfig) sampleState (twoChunks 1) := by
  apply sizes_right sampleConfig
  · exact fun _ => rfl
  · intro name inode named
    cases named
  · apply EventRun.along_cons rfl
    · intro _ inode taken
      cases taken
    · apply EventRun.along_cons rfl
      · intro handle held _
        cases held
        exact ⟨.inl rfl, 5, _, rfl, rfl, .inr rfl⟩
      · apply EventRun.along_cons rfl
        · intro handle held _
          cases held
          exact ⟨.inl rfl, 5, _, rfl, rfl, .inr rfl⟩
        · apply EventRun.along_cons rfl
          · intro handle held
            cases held
            exact ⟨3, rfl, rfl, rfl, nofun⟩
          · trivial

/-- The second chunk takes the place of the first one. -/
theorem size_wrong_rewritten :
    ¬ EventRun.Along (step sampleConfig) (ClosesRight sampleConfig) sampleState (twoChunks 0) := by
  intro right
  have closes := (((right.2 _ rfl).2 _ rfl).2 _ rfl).1
  rcases closes _ rfl with ⟨data, file, content, found, size⟩
  cases content
  cases found
  cases size

end FileTransfer

end LlmHoneypot
