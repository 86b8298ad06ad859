import LlmHoneypot.HoneyFs.Renaming

/-! # What a file holds

`file_contents` of the filesystem, beside the files of the host that entries refer to. -/

namespace LlmHoneypot

namespace HoneyFs

/-- What is outside the tree: the host's files, and the binary that stands for every
executable. -/
structure Host where
  readBytes : Str → Option Bytes
  archData : Bytes

def S_IXUSR : Nat := 0o100

namespace HoneyPotFilesystem

variable (tree : HoneyPotFilesystem) (limit : Nat) (host : Host)

def entryContents (entry : Entry) : Except Raised Bytes :=
  if entry.type = .dir then .error .isADirectory
  else if entry.type ≠ .file then .ok []
  else if entry.realfile.getD [] ≠ [] then
    match host.readBytes (entry.realfile.getD []) with
    | some data => .ok data
    | none => .error (.osError .ENOENT)
  else
    match entry.contents with
    | .bytes data => .ok data
    | .list _ =>
        if entry.size = 0 then .ok []
        else if entry.mode &&& S_IXUSR ≠ 0 then .ok host.archData
        else .ok []

def fileContents (target : Str) : Except Raised Bytes := do
  let path ← resolvePath tree.home target (OsPath.dirname target)
  if ← tree.exists_ limit path then
    match ← tree.getfile true limit path with
    | none => .error .typeError
    | some file => entryContents host (tree.entry file)
  else .error .fileNotFound

end HoneyPotFilesystem

/-! ## Resolved paths -/

theorem rstrip_text (path : AbsPath) : OsPath.rstrip path.text = path.stem := by
  rcases path.eq_root_or_child with rfl | ⟨dir, name, rfl⟩
  · rfl
  · rw [AbsPath.text_child, AbsPath.stem_child]
    exact OsPath.rstrip_components dir.stem ⟨name.2.1, name.2.2.2.2⟩

theorem pieces_text (path : AbsPath) :
    (Text.splitChar '/' path.text).filter (· ≠ []) = path.components := by
  rw [AbsPath.text]
  split
  · next empty =>
    rw [empty]
    rfl
  · have pieces := AbsPath.splitChar_flatMap List.not_mem_nil fun name member =>
      (path.named name member).2.2.2
    rw [List.nil_append] at pieces
    rw [AbsPath.stem, pieces, List.filter_cons_of_neg (by simp), List.filter_eq_self]
    intro name member
    exact decide_eq_true (path.named name member).1

theorem resolvePath_text (home cwd : Str) (path : AbsPath) :
    resolvePath home path.text cwd = .ok path.text := by
  have pieces : Text.splitChar '/' (OsPath.rstrip path.text) = [] :: path.components := by
    have whole := AbsPath.splitChar_flatMap List.not_mem_nil fun name member =>
      (path.named name member).2.2.2
    rw [List.nil_append] at whole
    rw [rstrip_text, AbsPath.stem, whole]
  have skipped : AbsPath.descend [] [] = [] := rfl
  rw [path.text_eq] at pieces ⊢
  unfold resolvePath
  rw [if_neg (by simp)]
  simp only [if_true, pieces, List.foldl_cons, skipped, AbsPath.foldl_descend path.named,
    List.nil_append]
  rfl

theorem resolvePath_ok {home pathspec path : Str} {dir : AbsPath}
    (resolves : resolvePath home pathspec dir.text = .ok path) :
    ∃ target : AbsPath, path = target.text := by
  unfold resolvePath at resolves
  simp only [pieces_text] at resolves
  split at resolves
  · cases resolves
  · next first rest start =>
    rw [← Except.ok.inj resolves]
    have base : ∀ name ∈ (if first = '/' then [] else dir.components), IsFileName name := by
      intro name member
      split at member
      · cases member
      · exact dir.named name member
    generalize (if "~/".toList <+: pathspec then _ else _) = path
    have named := AbsPath.foldl_descend_named base fun part member =>
      @Text.not_mem_splitChar '/' (OsPath.rstrip path) part member
    exact ⟨⟨_, named⟩, (AbsPath.text_eq ⟨_, named⟩).symm⟩

/-! ## Sizes -/

theorem alike_modify {tree : HoneyPotFilesystem} {file : Nat} {change : Entry → Entry}
    (same : ∀ entry, (change entry).type = entry.type ∧ (change entry).target = entry.target ∧
      (change entry).contents = entry.contents ∧ (change entry).name = entry.name) :
    Alike (tree.modify file change) tree := by
  have fields (reference : Nat) :
      (tree.modify file change).entry reference = change (tree.entry reference) ∨
        (tree.modify file change).entry reference = tree.entry reference := by
    rw [entry_modify]
    split
    · next isFile => exact .inl (isFile ▸ rfl)
    · exact .inr rfl
  refine ⟨rfl, ?_, ?_, ?_, ?_⟩
  · intro reference
    rcases fields reference with changed | kept
    · exact changed ▸ (same _).1
    · exact kept ▸ rfl
  · intro reference
    rcases fields reference with changed | kept
    · exact changed ▸ (same _).2.1
    · exact kept ▸ rfl
  · intro reference
    rcases fields reference with changed | kept
    · exact changed ▸ (same _).2.2.1
    · exact kept ▸ rfl
  · intro _ child _
    rcases fields child with changed | kept
    · exact changed ▸ (same _).2.2.2
    · exact kept ▸ rfl

def unsized (entry : Entry) : Entry := { entry with size := 0 }

structure Resized (left right : HoneyPotFilesystem) : Prop where
  root : left.fs = right.fs
  home : left.home = right.home
  entries : ∀ reference, unsized (left.entry reference) = unsized (right.entry reference)

theorem Resized.alike {left right : HoneyPotFilesystem} (resized : Resized left right) :
    Alike left right where
  root := resized.root
  types reference := by
    have same := congrArg Entry.type (resized.entries reference)
    exact same
  targets reference := by
    have same := congrArg Entry.target (resized.entries reference)
    exact same
  contents reference := by
    have same := congrArg Entry.contents (resized.entries reference)
    exact same
  names _ child _ := by
    have same := congrArg Entry.name (resized.entries child)
    exact same

theorem Resized.trans {first second third : HoneyPotFilesystem} (left : Resized first second)
    (right : Resized second third) : Resized first third where
  root := left.root.trans right.root
  home := left.home.trans right.home
  entries reference := (left.entries reference).trans (right.entries reference)

theorem resized_modify (tree : HoneyPotFilesystem) (file size : Nat) :
    Resized (tree.modify file fun entry => { entry with size }) tree where
  root := rfl
  home := rfl
  entries reference := by
    rw [entry_modify]
    split
    · next same =>
      rw [same]
      rfl
    · rfl

end HoneyFs

end LlmHoneypot
