import LlmHoneypot.Foundation.Dict
import LlmHoneypot.Foundation.Heap
import LlmHoneypot.Foundation.OsPath
import LlmHoneypot.Foundation.Utf8

/-! # The filesystem of the shell backend

`HoneyPotFilesystem`: entries are Python lists that refer to each other, so an entry is an
object on a heap and a directory holds references. -/

namespace LlmHoneypot

namespace HoneyFs

inductive EntryType
  | link
  | dir
  | file
  | blk
  | chr
  | sock
  | fifo
  deriving DecidableEq, Repr

inductive Contents
  | list (entries : List Nat)
  | bytes (data : Bytes)
  deriving DecidableEq, Repr

structure Entry where
  name : Str
  type : EntryType
  uid : Nat := 0
  gid : Nat := 0
  size : Nat := 0
  mode : Nat := 0
  ctime : Nat := 0
  contents : Contents := .list []
  target : Option Str := none
  realfile : Option Str := none
  deriving DecidableEq, Repr

instance : Inhabited Entry := ⟨{ name := [], type := .file }⟩

inductive Errno
  | EDQUOT
  | ENOENT
  | EEXIST
  | ENOTDIR
  | ENOTEMPTY
  | EACCES
  deriving DecidableEq, Repr

inductive Raised
  | fileNotFound
  | permissionDenied
  | isADirectory
  | osError (errno : Errno)
  | indexError
  | typeError
  | attributeError
  | valueError
  | recursionError
  deriving DecidableEq, Repr

def SPECIAL_PATHS : List Str := ["/sys".toList, "/proc".toList, "/dev/pts".toList]

structure HoneyPotFilesystem where
  heap : Heap Entry
  fs : Nat
  home : Str
  tempfiles : Dict Nat Str := .empty
  filenames : Dict Nat Str := .empty
  newcount : Nat := 0

/-! ## Paths -/

def resolvePath (home pathspec cwd : Str) : Except Raised Str :=
  let path := if "~/".toList <+: pathspec then home ++ pathspec.drop 1 else pathspec
  match path with
  | [] => .error .indexError
  | first :: _ =>
      let cwdpieces := if first = '/' then [] else (Text.splitChar '/' cwd).filter (· ≠ [])
      let pieces := Text.splitChar '/' (OsPath.rstrip path)
      .ok ('/' :: OsPath.joinParts (pieces.foldl AbsPath.descend cwdpieces))

namespace HoneyPotFilesystem

def entry (tree : HoneyPotFilesystem) (reference : Nat) : Entry := tree.heap.read reference

def children (tree : HoneyPotFilesystem) (reference : Nat) : List Nat :=
  match (tree.entry reference).contents with
  | .list entries => entries
  | .bytes _ => []

/-- `[x[A_NAME] for x in contents]`. -/
def names (tree : HoneyPotFilesystem) : Contents → Except Raised (List Str)
  | .list entries => .ok (entries.map fun reference => (tree.entry reference).name)
  | .bytes [] => .ok []
  | .bytes _ => .error .typeError

/-! ## Lookups -/

section

-- `resolve` stands for `getfile` of another path
variable (tree : HoneyPotFilesystem) (resolve : Str → Except Raised (Option Nat))

def linkPath : Option Str → Except Raised Str
  | none => .error .typeError
  | some [] => .error .indexError
  | some (first :: rest) => .ok (if first = '/' then first :: rest else '/' :: first :: rest)

def visit (final follow : Bool) (piece : Str) : List Nat → Nat → Except Raised (Option Nat)
  | [], reached => .ok (some reached)
  | x :: rest, reached =>
      if (tree.entry x).name ≠ piece then visit final follow piece rest reached
      else if final ∧ ¬ follow then visit final follow piece rest x
      else if (tree.entry x).type = .link then do
        let path ← linkPath (tree.entry x).target
        match ← resolve path with
        | none => .ok none
        | some file => visit final follow piece rest file
      else visit final follow piece rest x

def walk (last : Str) (follow : Bool) : List Str → Nat → Except Raised (Option Nat)
  | [], reached => .ok (some reached)
  | piece :: pieces, reached => do
      let names ← tree.names (tree.entry reached).contents
      if piece ∉ names then .ok none
      else
        match ← visit tree resolve (piece = last) follow piece (tree.children reached) reached with
        | none => .ok none
        | some next => walk last follow pieces next

end

/-- `getfile`; `limit` calls may stand in each other. -/
def getfile (tree : HoneyPotFilesystem) (follow : Bool) :
    Nat → Str → Except Raised (Option Nat)
  | 0, _ => .error .recursionError
  | limit + 1, path =>
      if path = "/".toList then .ok (some tree.fs)
      else
        let pieces := Text.splitChar '/' (OsPath.strip path)
        walk tree (getfile tree follow limit) (pieces.getLastD []) follow pieces tree.fs

section

variable (tree : HoneyPotFilesystem) (limit : Nat)

def enter (follow : Bool) (cwd : Nat) (part : Str) : Except Raised Nat :=
  if part = [] then .ok cwd
  else
    match (tree.entry cwd).contents with
    | .bytes _ => .error .fileNotFound
    | .list entries =>
        match entries.find? fun c => (tree.entry c).name = part with
        | none => .error .fileNotFound
        | some c =>
            if (tree.entry c).type = .link then
              match (tree.entry c).target with
              | none => .error .attributeError
              | some target => do
                  match ← tree.getfile follow limit target with
                  | none => .error .fileNotFound
                  | some file => .ok file
            else .ok c

/-- `get_path`, by the entry whose contents it returns. -/
def getPath (path : Str) (follow : Bool := true) : Except Raised Nat :=
  (Text.splitChar '/' path).foldlM (tree.enter limit follow) tree.fs

def exists_ (path : Str) : Except Raised Bool :=
  (tree.getfile true limit path).map Option.isSome

def isdir (path : Str) : Bool :=
  path = "/".toList ||
    match tree.getfile true limit path with
    | .ok (some file) => (tree.entry file).type = .dir
    | _ => false

end

/-! ## Equality -/

def sameAll (same : Nat → Nat → Except Raised Bool) : List Nat → List Nat → Except Raised Bool
  | left :: lefts, right :: rights => do
      if ← same left right then sameAll same lefts rights else .ok false
  | _, _ => .ok true

def same (tree : HoneyPotFilesystem) : Nat → Nat → Nat → Except Raised Bool
  | 0, _, _ => .error .recursionError
  | limit + 1, left, right =>
      let a := tree.entry left
      let b := tree.entry right
      if left = right then .ok true
      else if (a.name, a.type, a.uid, a.gid, a.size, a.mode, a.ctime) ≠
          (b.name, b.type, b.uid, b.gid, b.size, b.mode, b.ctime) then .ok false
      else
        let rest := a.target = b.target ∧ a.realfile = b.realfile
        match a.contents, b.contents with
        | .list lefts, .list rights =>
            if lefts.length ≠ rights.length then .ok false
            else (sameAll (same tree limit) lefts rights).map (· && rest)
        | .bytes data, .bytes other => .ok (data = other ∧ rest)
        | _, _ => .ok false

def removeFrom (tree : HoneyPotFilesystem) (limit reference : Nat) :
    List Nat → Except Raised (List Nat)
  | [] => .error .valueError
  | first :: rest => do
      if ← tree.same limit first reference then .ok rest
      else (tree.removeFrom limit reference rest).map (first :: ·)

/-! ## Changes -/

def modify (tree : HoneyPotFilesystem) (reference : Nat) (change : Entry → Entry) :
    HoneyPotFilesystem :=
  { tree with heap := tree.heap.modify reference change }

def setChildren (tree : HoneyPotFilesystem) (directory : Nat) (entries : List Nat) :
    HoneyPotFilesystem :=
  tree.modify directory fun entry => { entry with contents := .list entries }

def remove (tree : HoneyPotFilesystem) (limit directory reference : Nat) :
    Except Raised HoneyPotFilesystem :=
  match (tree.entry directory).contents with
  | .bytes _ => .error .attributeError
  | .list entries => (tree.removeFrom limit reference entries).map (tree.setChildren directory)

def append (tree : HoneyPotFilesystem) (directory reference : Nat) :
    Except Raised HoneyPotFilesystem :=
  match (tree.entry directory).contents with
  | .bytes _ => .error .attributeError
  | .list entries => .ok (tree.setChildren directory (entries ++ [reference]))

def appendNew (tree : HoneyPotFilesystem) (directory : Nat) (entry : Entry) :
    Except Raised HoneyPotFilesystem :=
  let made := { tree with heap := tree.heap.alloc entry, newcount := tree.newcount + 1 }
  made.append directory tree.heap.next

def removeNamed (tree : HoneyPotFilesystem) (limit directory : Nat) (name : Str) :
    Except Raised HoneyPotFilesystem := do
  let names ← tree.names (tree.entry directory).contents
  if name ∉ names then .ok tree
  else
    match (tree.children directory).find? fun x => (tree.entry x).name = name with
    | none => .ok tree
    | some found => tree.remove limit directory found

def mkfile (tree : HoneyPotFilesystem) (limit : Nat) (path : Str) (uid gid size mode ctime : Nat) :
    Except Raised (HoneyPotFilesystem × Bool) :=
  if 10000 < tree.newcount then .ok (tree, false)
  else if SPECIAL_PATHS.any (·.isPrefixOf (OsPath.dirname path)) then .error .permissionDenied
  else do
    let dir ← tree.getPath limit (OsPath.dirname path)
    let outfile := OsPath.basename path
    let cleared ← tree.removeNamed limit dir outfile
    let made ← cleared.appendNew dir { name := outfile, type := .file, uid, gid, size, mode, ctime }
    .ok (made, true)

def mkdir (tree : HoneyPotFilesystem) (limit : Nat) (path : Str) (uid gid size mode ctime : Nat) :
    Except Raised HoneyPotFilesystem :=
  if 10000 < tree.newcount then .error (.osError .EDQUOT)
  else if OsPath.strip path = [] then .error (.osError .ENOENT)
  else
    match tree.getPath limit (OsPath.dirname (OsPath.strip path)) with
    | .error .indexError | .error .fileNotFound => .error (.osError .ENOENT)
    | .error raised => .error raised
    | .ok directory =>
        tree.appendNew directory
          { name := OsPath.basename path, type := .dir, uid, gid, size, mode, ctime }

/-- `update_realfile` of what `getfile` gave; `exists_` says whether the file is there on
the host. -/
def updateRealfile (tree : HoneyPotFilesystem) (file : Option Nat) (realfile : Str)
    (isFile : Bool) : Except Raised HoneyPotFilesystem :=
  match file with
  | none => .error .typeError
  | some file =>
      if (tree.entry file).realfile.getD [] = [] ∧ isFile ∧ (tree.entry file).size < 25000000 then
        .ok (tree.modify file fun entry => { entry with realfile := some realfile })
      else .ok tree

def updateSize (tree : HoneyPotFilesystem) (limit : Nat) (filename : Str) (size : Nat) :
    Except Raised HoneyPotFilesystem := do
  match ← tree.getfile true limit filename with
  | none => .ok tree
  | some file =>
      if (tree.entry file).type ≠ .file then .ok tree
      else .ok (tree.modify file fun entry => { entry with size })

end HoneyPotFilesystem

end HoneyFs

end LlmHoneypot
