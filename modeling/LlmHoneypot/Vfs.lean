import Mathlib.Data.Char
import Mathlib.Data.List.Lex
import LlmHoneypot.Foundation.PosixPath
import LlmHoneypot.Responder

/-! # Virtual filesystem

`vfs.py`: `ls` and `stat` over a fixed skeleton of directories and the files of
the session. -/

namespace LlmHoneypot

inductive NodeKind
  | file
  | dir
  | link
  deriving DecidableEq, Repr

structure Node where
  name : Str
  kind : NodeKind
  size : Nat := 4096
  mode : Nat := 0o644
  uid : Nat := 0
  gid : Nat := 0
  linkTarget : Str := []
  mtime : Nat := 0
  deriving DecidableEq, Repr

namespace Vfs

def DIR : Nat := 0o755

def dirNode (name : String) (size : Nat := 4096) (mode : Nat := DIR) : Node :=
  { name := name.toList, kind := .dir, size, mode }

def fileNode (name : String) (size : Nat) (mode : Nat := 0o644) (gid : Nat := 0) : Node :=
  { name := name.toList, kind := .file, size, mode, gid }

def linkNode (name target : String) (size : Nat) : Node :=
  { name := name.toList, kind := .link, size, mode := 0o777, linkTarget := target.toList }

def ownedBy (uid : Nat) (node : Node) : Node := { node with uid, gid := uid }

def rootEntries : List Node :=
  [linkNode "bin" "usr/bin" 7, dirNode "boot", dirNode "dev", dirNode "etc", dirNode "home",
    linkNode "lib" "usr/lib" 7, dirNode "media", dirNode "mnt", dirNode "opt",
    dirNode "proc" 0 0o555, dirNode "root" 4096 0o700, dirNode "run",
    linkNode "sbin" "usr/sbin" 8, dirNode "srv", dirNode "sys" 0 0o555,
    dirNode "tmp" 4096 0o1777, dirNode "usr", dirNode "var"]

def homesEntries (username : Str) : List Node :=
  if username = "root".toList then []
  else [{ name := username, kind := .dir, mode := 0o755, uid := 1000, gid := 1000 }]

def homeEntries (uid : Nat) : List Node :=
  [fileNode ".bashrc" (if uid = 0 then 3526 else 3771),
    fileNode ".profile" (if uid = 0 then 161 else 807), fileNode ".bash_logout" 220,
    dirNode ".cache" 4096 0o700, dirNode ".ssh" 4096 0o700].map (ownedBy uid)

def etcEntries : List Node :=
  [fileNode "hostname" 12, fileNode "hosts" 221,
    linkNode "os-release" "../usr/lib/os-release" 21, fileNode "passwd" 1684,
    fileNode "group" 803, fileNode "shadow" 1043 0o640 42,
    linkNode "resolv.conf" "../run/systemd/resolve/stub-resolv.conf" 39,
    fileNode "crontab" 1042, fileNode "fstab" 657, dirNode "ssh", dirNode "cron.d",
    dirNode "systemd"]

def uidOf (username : Str) : Nat := if username = "root".toList then 0 else 1000

def baseSkeleton (home username : Str) : List (Str × List Node) :=
  [("/".toList, rootEntries), ("/home".toList, homesEntries username),
    (home, homeEntries (uidOf username)), ("/tmp".toList, []), ("/var/tmp".toList, []),
    ("/dev/shm".toList, []), ("/etc".toList, etcEntries)]

/-! ## Paths -/

def normpath (path : Str) : Str :=
  if path = [] then "/".toList
  else
    let parts := (Text.splitChar '/' path).filter fun part => part ≠ [] ∧ part ≠ ".".toList
    let out := parts.foldl
      (fun out part => if part = "..".toList then out.dropLast else out ++ [part]) []
    '/' :: Text.join "/".toList out

def split (path : Str) : Str × Str :=
  let path := normpath path
  if path = "/".toList then ("/".toList, [])
  else
    let parent := (path.rdropWhile (· ≠ '/')).dropLast
    (if parent = [] then "/".toList else parent, path.rtakeWhile (· ≠ '/'))

end Vfs

structure Vfs where
  world : WorldState
  username : Str

namespace Vfs

def home (vfs : Vfs) : Str := Responder.homeFor vfs.username

def skeleton (vfs : Vfs) : List (Str × List Node) := baseSkeleton vfs.home vfs.username

def worldNode (vfs : Vfs) (name : Str) (fact : FileFact) : Node :=
  { name, kind := .file, size := fact.sizeBytes, mode := 0o644, uid := uidOf vfs.username,
    gid := uidOf vfs.username, mtime := fact.mtime }

def overlay (vfs : Vfs) (path : Str) : (seen : List Str) → List (Str × FileFact) → List Node
  | _, [] => []
  | seen, (fpath, fact) :: rest =>
      let (parent, name) := split fpath
      if parent = path ∧ name ∉ seen then
        vfs.worldNode name fact :: vfs.overlay path (name :: seen) rest
      else vfs.overlay path seen rest

def dirEntries (vfs : Vfs) (path : Str) : Option (List Node) :=
  let path := normpath path
  let base := vfs.skeleton.lookup path
  let overlay := vfs.overlay path ((base.getD []).map (·.name)) vfs.world.files.entries
  if base = none ∧ overlay = [] then none else some (base.getD [] ++ overlay)

def isFile (vfs : Vfs) (path : Str) : Option Node :=
  let path := normpath path
  let (parent, name) := split path
  match vfs.world.files.get? path with
  | some fact => some (vfs.worldNode name fact)
  | none =>
      ((vfs.skeleton.lookup parent).getD []).find? fun node =>
        node.name = name ∧ (node.kind = .file ∨ node.kind = .link)

def isDir (vfs : Vfs) (path : Str) : Bool :=
  let path := normpath path
  let (parent, name) := split path
  (vfs.skeleton.lookup path).isSome ||
    ((vfs.skeleton.lookup parent).getD []).any fun node => node.name = name ∧ node.kind = .dir

/-! ## Rendering -/

/-- What the renderers take from the libraries: times in UTC, `%b %e %H:%M` and
`%Y-%m-%d %H:%M:%S.000000000 +0000`, and the first six bytes of a SHA-256. -/
structure Formats where
  shortTime : Nat → Str
  fullTime : Nat → Str
  digest : Str → Nat

def padLeft (fill : Char) (width : Nat) (text : Str) : Str :=
  List.replicate (width - text.length) fill ++ text

def padRight (width : Nat) (text : Str) : Str :=
  text ++ List.replicate (width - text.length) ' '

def permissions (mode : Nat) : Str :=
  [6, 3, 0].flatMap fun who =>
    let bits := (mode >>> who) &&& 0o7
    [if bits &&& 0o4 ≠ 0 then 'r' else '-', if bits &&& 0o2 ≠ 0 then 'w' else '-',
      if bits &&& 0o1 ≠ 0 then 'x' else '-']

def modeString (node : Node) : Str :=
  let first :=
    match node.kind with
    | .dir => 'd'
    | .link => 'l'
    | .file => '-'
  let perms := permissions node.mode
  let perms :=
    if node.mode &&& 0o1000 ≠ 0 ∧ node.kind = .dir then
      perms.dropLast ++ [if perms.getLast? = some 'x' then 't' else 'T']
    else perms
  first :: perms

def owner (uid : Nat) (username : Str) : Str :=
  if uid = 0 then "root".toList
  else if uid = 1000 then
    if username ≠ [] ∧ username ≠ "root".toList then username else "ubuntu".toList
  else if uid = 42 then "shadow".toList
  else Text.decimal uid

def fmtTime (formats : Formats) (mtime : Nat) : Str :=
  if mtime = 0 then "Mar 14  2024".toList else formats.shortTime mtime

def fmtFullTime (formats : Formats) (mtime : Nat) : Str :=
  if mtime = 0 then "2024-03-14 09:12:33.000000000 +0000".toList else formats.fullTime mtime

def fakeInode (formats : Formats) (path : Str) : Nat := 130000 + formats.digest path % 700000

def links (node : Node) : Str := if node.kind = .dir then "2".toList else "1".toList

def arrow (node : Node) : Str :=
  if node.kind = .link then " -> ".toList ++ node.linkTarget else []

def lsLongLine (formats : Formats) (node : Node) (username name : Str) : Str :=
  modeString node ++ " ".toList ++ padLeft ' ' 2 (links node) ++ " ".toList ++
    padRight 8 (owner node.uid username) ++ " ".toList ++
    padRight 8 (owner node.gid username) ++ " ".toList ++
    padLeft ' ' 6 (Text.decimal node.size) ++ " ".toList ++ fmtTime formats node.mtime ++
    " ".toList ++ name ++ arrow node

inductive LsTarget
  | file (node : Node)
  | dir (entries : List Node)

/-- `none` leaves an unknown directory to the model. -/
def lsTarget (vfs : Vfs) (path : Str) : Option LsTarget :=
  match vfs.isFile path, vfs.isDir path with
  | some node, false => some (.file node)
  | _, _ => (vfs.dirEntries path).map .dir

structure LsOptions where
  long : Bool
  all : Bool
  onePerLine : Bool

def dotEntries (vfs : Vfs) (path username : Str) : List Node :=
  let uid := if path = vfs.home ∧ username ≠ "root".toList then 1000 else 0
  let mode := if path = "/tmp".toList then 0o1777 else if path = vfs.home then 0o700 else 0o755
  [{ name := ".".toList, kind := .dir, mode, uid, gid := uid },
    { name := "..".toList, kind := .dir, mode := 0o755 }]

def shownEntries (vfs : Vfs) (path username : Str) (all : Bool) (entries : List Node) :
    List Node :=
  let items :=
    if all then vfs.dotEntries path username ++ entries
    else entries.filter (!".".toList.isPrefixOf ·.name)
  items.mergeSort fun first second =>
    first.name.dropWhile (· = '.') ≤ second.name.dropWhile (· = '.')

def renderLs (formats : Formats) (vfs : Vfs) (path username : Str) (options : LsOptions) :
    Option Str :=
  let path := normpath path
  match vfs.lsTarget path with
  | none => none
  | some (.file node) =>
      some ((if options.long then lsLongLine formats node username path else path) ++
        "\n".toList)
  | some (.dir entries) =>
      let items := vfs.shownEntries path username options.all entries
      if options.long then
        let total := (items.map fun node => max 1 (node.size / 1024)).sum
        let head := if items = [] then [] else ["total ".toList ++ Text.decimal total]
        let lines := items.map fun node => lsLongLine formats node username node.name
        some (Text.join "\n".toList (head ++ lines) ++ "\n".toList)
      else if items = [] then some []
      else
        let separator := if options.onePerLine then "\n".toList else "  ".toList
        some (Text.join separator (items.map (·.name)) ++ "\n".toList)

def statNode (vfs : Vfs) (path : Str) : Option Node :=
  match vfs.isFile path with
  | some node => some node
  | none =>
      if vfs.isDir path then
        let name := (split path).2
        some { name := if name = [] then "/".toList else name, kind := .dir, mode := 0o755 }
      else none

def kindText (node : Node) : Str :=
  match node.kind with
  | .dir => "directory".toList
  | .link => "symbolic link".toList
  | .file => if node.size = 0 then "regular empty file".toList else "regular file".toList

def statText (formats : Formats) (node : Node) (path username : Str) : Str :=
  let octal := padLeft '0' 4 (Nat.toDigits 8 (node.mode &&& 0o7777))
  let time := fmtFullTime formats node.mtime
  "  File: ".toList ++ path ++ arrow node ++ "\n".toList ++
    "  Size: ".toList ++ padRight 15 (Text.decimal node.size) ++ " Blocks: ".toList ++
    padRight 10 (Text.decimal ((node.size + 511) / 512)) ++ " IO Block: 4096   ".toList ++
    kindText node ++ "\n".toList ++
    "Device: fd01h/64769d\tInode: ".toList ++
    padRight 11 (Text.decimal (fakeInode formats path)) ++ " Links: ".toList ++ links node ++
    "\n".toList ++
    "Access: (".toList ++ octal ++ "/".toList ++ modeString node ++ ")  Uid: (".toList ++
    padLeft ' ' 5 (Text.decimal node.uid) ++ "/".toList ++
    padLeft ' ' 8 (owner node.uid username) ++ ")   Gid: (".toList ++
    padLeft ' ' 5 (Text.decimal node.gid) ++ "/".toList ++
    padLeft ' ' 8 (owner node.gid username) ++ ")\n".toList ++
    "Access: ".toList ++ time ++ "\nModify: ".toList ++ time ++ "\nChange: ".toList ++ time ++
    "\n Birth: -\n".toList

def renderStat (formats : Formats) (vfs : Vfs) (path username : Str) : Str :=
  let path := normpath path
  match vfs.statNode path with
  | none => "stat: cannot statx '".toList ++ path ++ "': No such file or directory\n".toList
  | some node => statText formats node path username

/-! ## The entries in the texts -/

section

variable (formats : Formats) {vfs : Vfs} {node : Node} (path username : Str)

/-- What `ls` writes of an entry. -/
def entryText (long : Bool) (node : Node) : Str :=
  if long then lsLongLine formats node username node.name else node.name

theorem lsLongLine_shows (name : Str) :
    Text.decimal node.size <:+: lsLongLine formats node username name ∧
      name <:+: lsLongLine formats node username name := by
  constructor
  · iterate 5 apply List.infix_append_of_infix_left
    apply List.infix_append_of_infix_right
    exact List.infix_append_right
  · apply List.infix_append_of_infix_left
    exact List.infix_append_right

theorem mem_shownEntries {all : Bool} {entries : List Node} (member : node ∈ entries)
    (shown : all = true ∨ ".".toList.isPrefixOf node.name = false) :
    node ∈ vfs.shownEntries path username all entries := by
  apply List.mem_mergeSort.mpr
  cases all with
  | true => exact List.mem_append_right _ member
  | false =>
      have visible := shown.resolve_left nofun
      exact List.mem_filter.mpr ⟨member, by rw [visible]; rfl⟩

theorem renderLs_file (options : LsOptions)
    (isFile : vfs.lsTarget (normpath path) = some (.file node)) :
    ∃ out, renderLs formats vfs path username options = some out ∧
      (if options.long then lsLongLine formats node username (normpath path)
        else normpath path) <:+: out := by
  simp only [renderLs, isFile]
  exact ⟨_, rfl, List.infix_append_left⟩

theorem renderLs_dir (options : LsOptions) {entries : List Node}
    (isDir : vfs.lsTarget (normpath path) = some (.dir entries))
    (member : node ∈ vfs.shownEntries (normpath path) username options.all entries) :
    ∃ out, renderLs formats vfs path username options = some out ∧
      entryText formats username options.long node <:+: out := by
  simp only [renderLs, isDir]
  have some_ : vfs.shownEntries (normpath path) username options.all entries ≠ [] :=
    List.ne_nil_of_mem member
  cases options.long with
  | true =>
      refine ⟨_, rfl, ?_⟩
      apply List.infix_append_of_infix_left
      apply Text.infix_join
      exact List.mem_append_right _ (List.mem_map_of_mem member)
  | false =>
      rw [if_neg nofun, if_neg some_]
      refine ⟨_, rfl, ?_⟩
      apply List.infix_append_of_infix_left
      exact Text.infix_join (List.mem_map_of_mem member) _

theorem infix_padRight (front label text : Str) (width : Nat) :
    label ++ text <:+: front ++ label ++ padRight width text :=
  ⟨front, List.replicate (width - text.length) ' ', by simp [padRight]⟩

theorem statText_shows :
    "  Size: ".toList ++ Text.decimal node.size <:+: statText formats node path username := by
  unfold statText
  repeat first
    | with_reducible exact infix_padRight ..
    | apply List.infix_append_of_infix_left

end

end Vfs

end LlmHoneypot
