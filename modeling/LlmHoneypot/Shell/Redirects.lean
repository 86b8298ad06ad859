import LlmHoneypot.Commands.Operands
import LlmHoneypot.Foundation.Utf8Codec
import LlmHoneypot.HoneyFs.Contents
import LlmHoneypot.Shell.Pipe

/-! # Redirections into files

`_prepare_output_file` of `shell/pipe.py` over the filesystem and the files of the host that back
it, and which lines with a redirection that fails change nothing. -/

namespace LlmHoneypot

namespace Shell

open HoneyFs

/-- The filesystem and the files of the host. -/
structure Disk where
  tree : HoneyPotFilesystem
  files : Str → Option Bytes

/-- What `_prepare_output_file` reads of the session, the configuration and the host. -/
structure Backing where
  cwd : Str
  uid : Nat
  gid : Nat
  now : Nat
  limit : Nat
  contentsPath : Str
  downloadPath : Str
  /-- The time, the transport and the session in the name of a new file. -/
  stamp : Str
  archData : Bytes
  /-- `open(path, "ab")` and `open(path, "wb")` do not raise. -/
  canAppend : Str → Bool
  canTruncate : Str → Bool

def Disk.host (backing : Backing) (disk : Disk) : Host :=
  { readBytes := disk.files, archData := backing.archData }

def Disk.setFile (disk : Disk) (path : Str) (data : Bytes) : Disk :=
  { disk with files := fun other => if other = path then some data else disk.files other }

variable (backing : Backing)

/-! ## The output file -/

def hasReal (entry : Entry) : Bool := entry.realfile.getD [] ≠ []

def needsNewBacking (entry : Entry) : Bool :=
  !hasReal entry || backing.contentsPath.isPrefixOf (entry.realfile.getD [])

def tmpFname (outfile : Str) : Str :=
  backing.stamp ++ "-redir_".toList ++ outfile.map fun ch => if ch.isAlphanum then ch else '_'

def safeoutfile (outfile : Str) : Str := OsPath.join backing.downloadPath (tmpFname backing outfile)

def noSuchFile (outfile : Str) : Str :=
  "-bash: ".toList ++ outfile ++ ": No such file or directory\n".toList

def permissionDenied (outfile : Str) : Str :=
  "-bash: ".toList ++ outfile ++ ": Permission denied\n".toList

def attachBacking (outfile : Str) (startSize : Nat) (disk : Disk) : Prepared × Disk :=
  let safeoutfile := safeoutfile backing outfile
  if ¬ backing.canAppend safeoutfile then (.raised, disk)
  else
    let opened := disk.setFile safeoutfile ((disk.files safeoutfile).getD [])
    match disk.tree.getfile true backing.limit outfile with
    | .error _ => (.raised, opened)
    | .ok file =>
        match disk.tree.updateRealfile file safeoutfile true with
        | .error _ => (.raised, opened)
        | .ok tree => (.opened ⟨outfile, safeoutfile, startSize⟩, { opened with tree })

def createRedirectTarget (outfile : Str) (startSize : Nat) (disk : Disk) : Prepared × Disk :=
  match disk.tree.mkfile backing.limit outfile backing.uid backing.gid 0 0o100644 backing.now with
  | .error .fileNotFound => (.refused (noSuchFile outfile), disk)
  | .error .permissionDenied => (.refused (permissionDenied outfile), disk)
  | .error _ => (.raised, disk)
  | .ok (tree, _) => attachBacking backing outfile startSize { disk with tree }

def reuseExistingBacking (outfile : Str) (entry : Entry) (append : Bool) (disk : Disk) :
    Prepared × Disk :=
  let safeoutfile := entry.realfile.getD []
  if append then (.opened ⟨outfile, safeoutfile, entry.size⟩, disk)
  else if ¬ backing.canTruncate safeoutfile then (.failed, disk)
  else
    let truncated := disk.setFile safeoutfile []
    match disk.tree.updateSize backing.limit outfile 0 with
    | .error _ => (.raised, truncated)
    | .ok tree => (.opened ⟨outfile, safeoutfile, 0⟩, { truncated with tree })

def prepareOutputFile (target : Str) (append : Bool) (disk : Disk) : Prepared × Disk :=
  match resolvePath disk.tree.home target backing.cwd with
  | .error _ => (.raised, disk)
  | .ok outfile =>
      match disk.tree.getfile true backing.limit outfile with
      | .error _ => (.raised, disk)
      | .ok p =>
          if outfile = "/dev/null".toList then (.devnull, disk)
          else
            match p.map disk.tree.entry with
            | none => createRedirectTarget backing outfile 0 disk
            | some entry =>
                if needsNewBacking backing entry then
                  createRedirectTarget backing outfile (if append then entry.size else 0) disk
                else reuseExistingBacking backing outfile entry append disk

/-- The shell's environment with these files; what `_prepare_stdin` does not catch stands for a
directory. -/
def fileEnv (env : Env Disk) : Env Disk :=
  { env with
    resolvePath := fun target disk => (resolvePath disk.tree.home target backing.cwd).toOption
    fileContents := fun path disk =>
      match disk.tree.fileContents backing.limit (disk.host backing) path with
      | .ok data => .ok data
      | .error .fileNotFound => .error .fileNotFound
      | .error _ => .error .isADirectory
    prepareOutputFile := prepareOutputFile backing }

def newPipes {World : Type} (env : Env World) :
    List PipeSpec → Option Nat → Session World → Option (Option Nat) × Session World
  | [], lastpp, session => (some lastpp, session)
  | spec :: specs, lastpp, session =>
      match newPipe env { spec with nextCommand := lastpp } session with
      | (none, session) => (none, session)
      | (some pp, session) => newPipes env specs (some pp) session

/-! ## Changes that stay -/

structure EntryLater (before after : Entry) : Prop where
  others : { after with size := before.size, realfile := before.realfile } = before
  size : after.size ≤ before.size
  realfile : after.realfile = before.realfile ∨ hasReal before = false ∧ hasReal after = true

namespace EntryLater

variable {first second third : Entry}

theorem refl (entry : Entry) : EntryLater entry entry := ⟨rfl, Nat.le_refl _, .inl rfl⟩

theorem trans (left : EntryLater first second) (right : EntryLater second third) :
    EntryLater first third where
  others := by
    rw [← left.others, ← right.others]
  size := right.size.trans left.size
  realfile := by
    rcases left.realfile with same | ⟨without, gets⟩
    · rcases right.realfile with kept | ⟨without, gets⟩
      · exact .inl (kept.trans same)
      · rw [hasReal, same] at without
        exact .inr ⟨without, gets⟩
    · rcases right.realfile with kept | ⟨missing, -⟩
      · refine .inr ⟨without, ?_⟩
        rw [hasReal, kept]
        exact gets
      · rw [gets] at missing
        cases missing

theorem antisymm (left : EntryLater first second) (right : EntryLater second first) :
    second = first := by
  have size : second.size = first.size := Nat.le_antisymm left.size right.size
  have realfile : second.realfile = first.realfile := by
    rcases left.realfile with same | ⟨without, gets⟩
    · exact same
    · rcases right.realfile with same | ⟨missing, -⟩
      · exact same.symm
      · rw [gets] at missing
        cases missing
  rw [← left.others, ← size, ← realfile]

end EntryLater

def TreeLater (before after : HoneyPotFilesystem) : Prop :=
  before.newcount < after.newcount ∨
    before.newcount = after.newcount ∧ { after with heap := before.heap } = before ∧
      after.heap.next = before.heap.next ∧
        ∀ reference, EntryLater (before.entry reference) (after.entry reference)

namespace TreeLater

variable {first second third : HoneyPotFilesystem}

theorem refl (tree : HoneyPotFilesystem) : TreeLater tree tree :=
  .inr ⟨rfl, rfl, rfl, fun _ => .refl _⟩

theorem trans (left : TreeLater first second) (right : TreeLater second third) :
    TreeLater first third := by
  rcases left with more | ⟨count, others, next, entries⟩
  · rcases right with again | ⟨same, -⟩
    · exact .inl (more.trans again)
    · exact .inl (same ▸ more)
  · rcases right with more | ⟨same, others', next', entries'⟩
    · exact .inl (count ▸ more)
    · refine .inr ⟨count.trans same, ?_, next'.trans next, ?_⟩
      · rw [← others, ← others']
      · exact fun reference => (entries reference).trans (entries' reference)

theorem antisymm (left : TreeLater first second) (right : TreeLater second first) :
    second = first := by
  rcases left with more | ⟨count, others, next, entries⟩
  · rcases right with again | ⟨same, -⟩
    · omega
    · omega
  · rcases right with more | ⟨-, -, -, entries'⟩
    · omega
    · have read : second.heap.read = first.heap.read := by
        funext reference
        exact (entries reference).antisymm (entries' reference)
      have heap : second.heap = first.heap := by
        cases secondHeap : second.heap with
        | mk read' next' =>
            cases firstHeap : first.heap with
            | mk read'' next'' =>
                rw [secondHeap, firstHeap] at read next
                rw [Heap.mk.injEq]
                exact ⟨read, next⟩
      rw [← others, ← heap]

theorem modify (tree : HoneyPotFilesystem) (file : Nat) {change : Entry → Entry}
    (later : EntryLater (tree.entry file) (change (tree.entry file))) :
    TreeLater tree (tree.modify file change) := by
  refine .inr ⟨rfl, rfl, rfl, ?_⟩
  intro reference
  rw [entry_modify]
  split
  · next same => exact same ▸ later
  · exact .refl _

end TreeLater

def FilesLater (before after : Str → Option Bytes) : Prop :=
  ∀ path, after path = before path ∨ after path = some []

def Later (before after : Disk) : Prop :=
  TreeLater before.tree after.tree ∧ FilesLater before.files after.files

/-- The tree is as before, and no file of the host lost data. -/
structure Kept (before after : Disk) : Prop where
  tree : after.tree = before.tree
  files : ∀ path data, before.files path = some data → after.files path = some data

section

variable {first second third : Disk}

theorem Later.refl (disk : Disk) : Later disk disk := ⟨.refl _, fun _ => .inl rfl⟩

theorem Later.trans (left : Later first second) (right : Later second third) :
    Later first third := by
  refine ⟨left.1.trans right.1, ?_⟩
  intro path
  rcases right.2 path with same | emptied
  · rcases left.2 path with kept | emptied
    · exact .inl (same.trans kept)
    · exact .inr (same.trans emptied)
  · exact .inr emptied

theorem Kept.refl (disk : Disk) : Kept disk disk := ⟨rfl, fun _ _ => id⟩

theorem Kept.trans (left : Kept first second) (right : Kept second third) :
    Kept first third where
  tree := right.tree.trans left.tree
  files path data holds := right.files path data (left.files path data holds)

theorem Kept.between (kept : Kept first third) (left : Later first second)
    (right : Later second third) : Kept first second ∧ Kept second third := by
  have tree : second.tree = first.tree := by
    have back : TreeLater second.tree first.tree := kept.tree ▸ right.1
    exact left.1.antisymm back
  refine ⟨⟨tree, ?_⟩, ⟨kept.tree.trans tree.symm, ?_⟩⟩
  · intro path data holds
    have last := kept.files path data holds
    rcases left.2 path with same | emptied
    · exact same.trans holds
    · rcases right.2 path with same | emptied'
      · exact same ▸ last
      · rw [emptied'] at last
        exact emptied.trans last
  · intro path data holds
    rcases left.2 path with same | emptied
    · exact kept.files path data (same ▸ holds)
    · rcases right.2 path with same | emptied'
      · exact same.trans holds
      · rw [← holds, emptied]
        exact emptied'

end

/-! ## Exceptions that are reported -/

def Caught (raised : Raised) : Prop := raised = .fileNotFound ∨ raised = .permissionDenied

def Uncaught {Result : Type} (result : Except Raised Result) : Prop :=
  ∀ raised, result = .error raised → ¬ Caught raised

namespace Uncaught

theorem ok {Result : Type} (result : Result) : Uncaught (.ok result) := by
  intro raised equal
  cases equal

theorem error {Result : Type} {raised : Raised} (uncaught : ¬ Caught raised) :
    Uncaught (.error raised : Except Raised Result) := by
  intro other equal
  cases equal
  exact uncaught

theorem bind {First Result : Type} {first : Except Raised First}
    {next : First → Except Raised Result} (uncaught : Uncaught first)
    (onward : ∀ given, Uncaught (next given)) : Uncaught (first >>= next) := by
  cases first with
  | error raised => exact error (uncaught raised rfl)
  | ok given => exact onward given

theorem map {First Result : Type} {first : Except Raised First} (uncaught : Uncaught first)
    (change : First → Result) : Uncaught (first.map change) := by
  cases first with
  | error raised => exact error (uncaught raised rfl)
  | ok given => exact ok _

variable (tree : HoneyPotFilesystem)

theorem names (contents : Contents) : Uncaught (tree.names contents) := by
  unfold HoneyPotFilesystem.names
  split
  · exact ok _
  · exact ok _
  · exact error (by simp [Caught])

theorem same (limit left right : Nat) : Uncaught (tree.same limit left right) := by
  induction limit generalizing left right with
  | zero => exact error (by simp [Caught])
  | succ limit induction =>
      have all (lefts rights : List Nat) :
          Uncaught (HoneyPotFilesystem.sameAll (tree.same limit) lefts rights) := by
        induction lefts generalizing rights with
        | nil => exact ok _
        | cons left lefts later =>
            cases rights with
            | nil => exact ok _
            | cons right rights =>
                apply (induction left right).bind
                intro agrees
                split
                · exact later rights
                · exact ok _
      rw [HoneyPotFilesystem.same]
      split
      · exact ok _
      · split
        · exact ok _
        · dsimp only
          split
          · split
            · exact ok _
            · exact (all _ _).map _
          · exact ok _
          · exact ok _

theorem removeFrom (limit reference : Nat) (entries : List Nat) :
    Uncaught (tree.removeFrom limit reference entries) := by
  induction entries with
  | nil => exact error (by simp [Caught])
  | cons first rest induction =>
      apply (same tree limit first reference).bind
      intro agrees
      split
      · exact ok _
      · exact induction.map _

theorem removeNamed (limit directory : Nat) (name : Str) :
    Uncaught (tree.removeNamed limit directory name) := by
  apply (names tree _).bind
  intro listed
  split
  · exact ok _
  · split
    · exact ok _
    · rw [HoneyPotFilesystem.remove]
      split
      · exact error (by simp [Caught])
      · exact (removeFrom tree limit _ _).map _

theorem appendNew (directory : Nat) (entry : Entry) :
    Uncaught (tree.appendNew directory entry) := by
  rw [HoneyPotFilesystem.appendNew, HoneyPotFilesystem.append]
  split
  · exact error (by simp [Caught])
  · exact ok _

end Uncaught

def Refused (disk : Disk) (outfile : Str) : Prop :=
  disk.tree.newcount ≤ 10000 ∧
    (SPECIAL_PATHS.any (·.isPrefixOf (OsPath.dirname outfile)) = true ∨
      ∃ raised, Caught raised ∧
        disk.tree.getPath backing.limit (OsPath.dirname outfile) = .error raised)

theorem mkfile_iff (tree : HoneyPotFilesystem) (files : Str → Option Bytes) (outfile : Str)
    (uid gid size mode ctime : Nat) :
    10000 < tree.newcount ∧
        tree.mkfile backing.limit outfile uid gid size mode ctime = .ok (tree, false) ∨
      Refused backing ⟨tree, files⟩ outfile ∧ (∃ raised, Caught raised ∧
        tree.mkfile backing.limit outfile uid gid size mode ctime = .error raised) ∨
      ¬ Refused backing ⟨tree, files⟩ outfile ∧ tree.newcount ≤ 10000 ∧
        ((∃ raised, ¬ Caught raised ∧
          tree.mkfile backing.limit outfile uid gid size mode ctime = .error raised) ∨
        ∃ made, tree.newcount < made.newcount ∧
          tree.mkfile backing.limit outfile uid gid size mode ctime = .ok (made, true)) := by
  by_cases full : 10000 < tree.newcount
  · refine .inl ⟨full, ?_⟩
    rw [HoneyPotFilesystem.mkfile, if_pos full]
  · right
    by_cases special : SPECIAL_PATHS.any (·.isPrefixOf (OsPath.dirname outfile)) = true
    · refine .inl ⟨⟨Nat.not_lt.mp full, .inl special⟩, .permissionDenied, .inr rfl, ?_⟩
      rw [HoneyPotFilesystem.mkfile, if_neg full, if_pos special]
    · cases reached : tree.getPath backing.limit (OsPath.dirname outfile) with
      | error raised =>
          have raises : tree.mkfile backing.limit outfile uid gid size mode ctime =
              .error raised := by
            rw [HoneyPotFilesystem.mkfile, if_neg full, if_neg special, reached]
            rfl
          by_cases caught : Caught raised
          · exact .inl ⟨⟨Nat.not_lt.mp full, .inr ⟨raised, caught, reached⟩⟩, raised, caught, raises⟩
          · refine .inr ⟨?_, Nat.not_lt.mp full, .inl ⟨raised, caught, raises⟩⟩
            intro refused
            rcases refused.2 with isSpecial | ⟨other, isCaught, same⟩
            · exact special isSpecial
            · rw [reached] at same
              cases same
              exact caught isCaught
      | ok dir =>
          refine .inr ⟨?_, Nat.not_lt.mp full, ?_⟩
          · intro refused
            rcases refused.2 with isSpecial | ⟨other, -, same⟩
            · exact special isSpecial
            · rw [reached] at same
              cases same
          · cases makes : tree.mkfile backing.limit outfile uid gid size mode ctime with
            | error raised =>
                refine .inl ⟨raised, ?_, rfl⟩
                rw [HoneyPotFilesystem.mkfile, if_neg full, if_neg special, reached] at makes
                have uncaught : Uncaught (tree.removeNamed backing.limit dir
                    (OsPath.basename outfile) >>= fun cleared =>
                      cleared.appendNew dir { name := OsPath.basename outfile, type := .file, uid, gid, size, mode, ctime } >>=
                        fun made => Except.ok (made, true)) := by
                  apply (Uncaught.removeNamed tree _ _ _).bind
                  intro cleared
                  apply (Uncaught.appendNew cleared _ _).bind
                  exact fun made => .ok _
                exact uncaught raised makes
            | ok result =>
                refine .inr ?_
                rw [HoneyPotFilesystem.mkfile, if_neg full, if_neg special, reached] at makes
                rcases ok_of_bind makes with ⟨other, isDir, makes⟩
                cases isDir
                rcases ok_of_bind makes with ⟨cleared, clears, rest⟩
                rcases ok_of_bind rest with ⟨made, appends, rest⟩
                rw [← Except.ok.inj rest]
                refine ⟨made, ?_, rfl⟩
                rw [Operands.newcount_appendNew appends, Operands.newcount_removeNamed clears]
                exact Nat.lt_succ_self _

/-! ## What an output file changes -/

def Fine (disk : Disk) (result : Prepared × Disk) : Prop :=
  result.1 ≠ .raised ∧ Kept disk result.2

def Full (disk : Disk) (outfile : Str) : Prop :=
  backing.canAppend (safeoutfile backing outfile) = true ∧
    ∃ file, disk.tree.getfile true backing.limit outfile = .ok (some file) ∧
      (hasReal (disk.tree.entry file) = true ∨ 25000000 ≤ (disk.tree.entry file).size)

theorem TreeLater.newcount_le {before after : HoneyPotFilesystem} (later : TreeLater before after) :
    before.newcount ≤ after.newcount := by
  rcases later with more | ⟨count, -⟩
  · exact more.le
  · exact count.le

theorem safeoutfile_ne_nil (outfile : Str) : safeoutfile backing outfile ≠ [] := by
  have named : tmpFname backing outfile ≠ [] := by
    rw [tmpFname]
    exact List.append_ne_nil_of_left_ne_nil
      (List.append_ne_nil_of_right_ne_nil _ (by decide)) _
  rw [safeoutfile, OsPath.join]
  split
  · exact named
  · split
    · exact List.append_ne_nil_of_right_ne_nil _ named
    · exact List.append_ne_nil_of_right_ne_nil _ (List.cons_ne_nil _ _)

theorem setFile_later (disk : Disk) (path : Str) {data : Bytes}
    (least : data = [] ∨ disk.files path = some data) :
    FilesLater disk.files (disk.setFile path data).files := by
  intro other
  simp only [Disk.setFile]
  split
  · next same =>
    rcases least with empty | held
    · exact .inr (congrArg some empty)
    · exact .inl (same ▸ held.symm)
  · exact .inl rfl

theorem setFile_opened (disk : Disk) (path : Str) :
    let opened := (disk.files path).getD []
    (opened = [] ∨ disk.files path = some opened) ∧
      ∀ other data, disk.files other = some data →
        (disk.setFile path opened).files other = some data := by
  dsimp only
  constructor
  · cases disk.files path with
    | none => exact .inl rfl
    | some data => exact .inr rfl
  · intro other data holds
    simp only [Disk.setFile]
    split
    · next same => rw [← same, holds]; rfl
    · exact holds

theorem setFile_truncated_iff (disk : Disk) (path : Str) :
    (∀ other data, disk.files other = some data →
      (disk.setFile path []).files other = some data) ↔ (disk.files path).getD [] = [] := by
  simp only [Disk.setFile]
  constructor
  · intro kept
    cases held : disk.files path with
    | none => rfl
    | some data =>
        have same := kept path data held
        rw [if_pos rfl] at same
        exact (Option.some.inj same).symm
  · intro empty other data holds
    split
    · next same =>
      rw [← same, holds] at empty
      exact congrArg some empty.symm
    · exact holds

theorem updateRealfile_later {tree after : HoneyPotFilesystem} {file : Option Nat} {real : Str}
    (named : real ≠ []) (updates : tree.updateRealfile file real true = .ok after) :
    TreeLater tree after := by
  unfold HoneyPotFilesystem.updateRealfile at updates
  split at updates
  · cases updates
  · next file =>
    split at updates
    · next condition =>
      rw [← Except.ok.inj updates]
      apply TreeLater.modify
      refine ⟨rfl, Nat.le_refl _, .inr ⟨?_, ?_⟩⟩
      · exact decide_eq_false (not_not.mpr condition.1)
      · exact decide_eq_true named
    · rw [← Except.ok.inj updates]
      exact .refl tree

theorem attachBacking_later (outfile : Str) (startSize : Nat) (disk : Disk) :
    Later disk (attachBacking backing outfile startSize disk).2 := by
  have opened := setFile_later disk (safeoutfile backing outfile)
    (setFile_opened disk (safeoutfile backing outfile)).1
  unfold attachBacking
  dsimp only
  split
  · exact .refl disk
  · split
    · exact ⟨.refl _, opened⟩
    · split
      · exact ⟨.refl _, opened⟩
      · next updates =>
        exact ⟨updateRealfile_later (safeoutfile_ne_nil backing outfile) updates, opened⟩

theorem attachBacking_fine_iff (outfile : Str) (startSize : Nat) (disk : Disk) :
    Fine disk (attachBacking backing outfile startSize disk) ↔ Full backing disk outfile := by
  unfold attachBacking Full
  dsimp only
  by_cases opens : backing.canAppend (safeoutfile backing outfile) = true
  · rw [if_neg (not_not.mpr opens)]
    cases found : disk.tree.getfile true backing.limit outfile with
    | error raised =>
        constructor
        · exact fun fine => absurd rfl fine.1
        · rintro ⟨-, file, equal, -⟩
          cases equal
    | ok p =>
        cases p with
        | none =>
            constructor
            · exact fun fine => absurd rfl fine.1
            · rintro ⟨-, file, equal, -⟩
              cases equal
        | some file =>
            dsimp only [HoneyPotFilesystem.updateRealfile]
            by_cases takes : (disk.tree.entry file).realfile.getD [] = [] ∧ true = true ∧
                (disk.tree.entry file).size < 25000000
            · rw [if_pos takes]
              constructor
              · intro fine
                have same := congrArg (fun tree => (tree.entry file).realfile) fine.2.tree
                simp only [entry_modify, if_true] at same
                have blank := takes.1
                rw [← same] at blank
                exact absurd blank (safeoutfile_ne_nil backing outfile)
              · rintro ⟨-, other, equal, full⟩
                cases equal
                rcases full with real | large
                · exact absurd takes.1 (of_decide_eq_true real)
                · omega
            · rw [if_neg takes]
              constructor
              · intro _
                refine ⟨opens, file, rfl, ?_⟩
                by_cases real : (disk.tree.entry file).realfile.getD [] = []
                · exact .inr (Nat.not_lt.mp fun small => takes ⟨real, rfl, small⟩)
                · exact .inl (decide_eq_true real)
              · intro _
                refine ⟨nofun, rfl, ?_⟩
                exact (setFile_opened disk (safeoutfile backing outfile)).2
  · rw [if_pos opens]
    constructor
    · exact fun fine => absurd rfl fine.1
    · exact fun full => absurd full.1 opens

theorem attachBacking_accepts (outfile : Str) (startSize : Nat) (disk : Disk) (message : Str) :
    (attachBacking backing outfile startSize disk).1 ≠ .refused message := by
  unfold attachBacking
  dsimp only
  split
  · exact nofun
  · split
    · exact nofun
    · split
      · exact nofun
      · exact nofun

theorem createRedirectTarget_iff (outfile : Str) (startSize : Nat) (disk : Disk) :
    Later disk (createRedirectTarget backing outfile startSize disk).2 ∧
      (Fine disk (createRedirectTarget backing outfile startSize disk) ↔
        Refused backing disk outfile ∨
          10000 < disk.tree.newcount ∧ Full backing disk outfile) ∧
      ((∃ message, (createRedirectTarget backing outfile startSize disk).1 = .refused message) ↔
        Refused backing disk outfile) := by
  rcases mkfile_iff backing disk.tree disk.files outfile backing.uid backing.gid 0 0o100644
    backing.now with ⟨full, makes⟩ | ⟨refused, raised, caught, makes⟩ |
      ⟨accepted, few, ⟨raised, caught, makes⟩ | ⟨made, more, makes⟩⟩
  · have accepted : ¬ Refused backing disk outfile := fun refused => by
      have few := refused.1
      omega
    rw [createRedirectTarget, makes]
    refine ⟨attachBacking_later backing outfile startSize disk, ?_, ?_⟩
    · rw [attachBacking_fine_iff]
      constructor
      · exact fun takes => .inr ⟨full, takes⟩
      · rintro (refused | ⟨-, takes⟩)
        · exact absurd refused accepted
        · exact takes
    · constructor
      · rintro ⟨message, equal⟩
        exact absurd equal (attachBacking_accepts backing outfile startSize disk message)
      · exact fun refused => absurd refused accepted
  · rw [createRedirectTarget, makes]
    rcases caught with rfl | rfl
    · exact ⟨.refl disk, ⟨fun _ => .inl refused, fun _ => ⟨nofun, rfl, fun _ _ => id⟩⟩,
        ⟨fun _ => refused, fun _ => ⟨_, rfl⟩⟩⟩
    · exact ⟨.refl disk, ⟨fun _ => .inl refused, fun _ => ⟨nofun, rfl, fun _ _ => id⟩⟩,
        ⟨fun _ => refused, fun _ => ⟨_, rfl⟩⟩⟩
  · have raises : createRedirectTarget backing outfile startSize disk = (.raised, disk) := by
      rw [createRedirectTarget, makes]
      cases raised with
      | fileNotFound => exact absurd (.inl rfl) caught
      | permissionDenied => exact absurd (.inr rfl) caught
      | isADirectory | osError | indexError | typeError | attributeError | valueError
        | recursionError => rfl
    rw [raises]
    refine ⟨.refl disk, ?_, ?_⟩
    · constructor
      · exact fun fine => absurd rfl fine.1
      · rintro (refused | ⟨full, -⟩)
        · exact absurd refused accepted
        · omega
    · constructor
      · rintro ⟨message, equal⟩
        cases equal
      · exact fun refused => absurd refused accepted
  · have later := attachBacking_later backing outfile startSize { disk with tree := made }
    have grown := later.1.newcount_le
    rw [createRedirectTarget, makes]
    refine ⟨⟨.inl (more.trans_le grown), later.2⟩, ?_, ?_⟩
    · constructor
      · intro fine
        rw [fine.2.tree] at grown
        have less : made.newcount ≤ disk.tree.newcount := grown
        omega
      · rintro (refused | ⟨full, -⟩)
        · exact absurd refused accepted
        · omega
    · constructor
      · rintro ⟨message, equal⟩
        exact absurd equal (attachBacking_accepts backing outfile startSize _ message)
      · exact fun refused => absurd refused accepted

theorem modify_same {tree : HoneyPotFilesystem} {file : Nat} {change : Entry → Entry}
    (same : change (tree.entry file) = tree.entry file) : tree.modify file change = tree := by
  have read : Function.update tree.heap.read file (change (tree.heap.read file)) =
      tree.heap.read := by
    rw [Function.update_eq_self_iff]
    exact same
  simp only [HoneyPotFilesystem.modify, Heap.modify, Heap.write, read]

def Unwritten (disk : Disk) (file : Nat) (append : Bool) : Prop :=
  let real := (disk.tree.entry file).realfile.getD []
  append = true ∨ backing.canTruncate real = false ∨
    ((disk.tree.entry file).type = .file → (disk.tree.entry file).size = 0) ∧
      (disk.files real).getD [] = []

theorem reuseExistingBacking_iff {outfile : Str} {file : Nat} (append : Bool) (disk : Disk)
    (found : disk.tree.getfile true backing.limit outfile = .ok (some file)) :
    let result := reuseExistingBacking backing outfile (disk.tree.entry file) append disk
    Later disk result.2 ∧ (Fine disk result ↔ Unwritten backing disk file append) ∧
      ∀ message, result.1 ≠ .refused message := by
  dsimp only
  unfold reuseExistingBacking Unwritten
  dsimp only
  by_cases appends : append = true
  · rw [if_pos appends]
    exact ⟨.refl disk, ⟨fun _ => .inl appends, fun _ => ⟨nofun, rfl, fun _ _ => id⟩⟩, nofun⟩
  · rw [if_neg appends]
    by_cases opens : backing.canTruncate ((disk.tree.entry file).realfile.getD []) = true
    · rw [if_neg (not_not.mpr opens)]
      have truncated := setFile_later disk ((disk.tree.entry file).realfile.getD []) (.inl rfl)
      have emptied := setFile_truncated_iff disk ((disk.tree.entry file).realfile.getD [])
      simp only [HoneyPotFilesystem.updateSize, found, bind, Except.bind]
      by_cases isFile : (disk.tree.entry file).type = .file
      · rw [if_neg (not_not.mpr isFile)]
        refine ⟨⟨?_, truncated⟩, ?_, nofun⟩
        · exact TreeLater.modify _ _ ⟨rfl, Nat.zero_le _, .inl rfl⟩
        · constructor
          · intro fine
            refine .inr (.inr ⟨fun _ => ?_, emptied.mp fine.2.files⟩)
            have same := congrArg (fun tree => (tree.entry file).size) fine.2.tree
            simp only [entry_modify, if_true] at same
            exact same.symm
          · rintro (absent | absent | ⟨size, empty⟩)
            · exact absurd absent appends
            · rw [opens] at absent
              cases absent
            · refine ⟨nofun, ?_, emptied.mpr empty⟩
              have same : { disk.tree.entry file with size := 0 } = disk.tree.entry file := by
                rw [← size isFile]
              exact modify_same same
      · rw [if_pos isFile]
        refine ⟨⟨.refl _, truncated⟩, ?_, nofun⟩
        constructor
        · exact fun fine => .inr (.inr ⟨fun type => absurd type isFile, emptied.mp fine.2.files⟩)
        · rintro (absent | absent | ⟨-, empty⟩)
          · exact absurd absent appends
          · rw [opens] at absent
            cases absent
          · exact ⟨nofun, rfl, emptied.mpr empty⟩
    · rw [if_pos opens]
      have closed := Bool.eq_false_iff.mpr opens
      exact ⟨.refl disk, ⟨fun _ => .inr (.inl closed), fun _ => ⟨nofun, rfl, fun _ _ => id⟩⟩, nofun⟩

/-! ## A line of redirections -/

inductive FileAction
  | output (target : Str) (append : Bool)
  | input (target : Str)
  deriving DecidableEq, Repr

/-- Whether an error is reported; `none` where an exception is not caught. -/
def told : Prepared → Option Bool
  | .raised => none
  | .refused _ => some true
  | .opened _ | .devnull | .failed => some false

def inputTold (target : Str) (disk : Disk) : Option Bool :=
  match resolvePath disk.tree.home target backing.cwd with
  | .error _ => none
  | .ok path =>
      match disk.tree.fileContents backing.limit (disk.host backing) path with
      | .ok _ => some false
      | .error .fileNotFound => some true
      | .error _ => none

def FileAction.act (disk : Disk) : FileAction → Option Bool × Disk
  | .output target append =>
      ((prepareOutputFile backing target append disk).map told id)
  | .input target => (inputTold backing target disk, disk)

def OutputRefused (target : Str) (disk : Disk) : Prop :=
  ∃ outfile p, resolvePath disk.tree.home target backing.cwd = .ok outfile ∧
    disk.tree.getfile true backing.limit outfile = .ok p ∧ outfile ≠ "/dev/null".toList ∧
      (∀ file, p = some file → needsNewBacking backing (disk.tree.entry file) = true) ∧
        Refused backing disk outfile

def OutputIdle (target : Str) (append : Bool) (disk : Disk) : Prop :=
  ∃ outfile p, resolvePath disk.tree.home target backing.cwd = .ok outfile ∧
    disk.tree.getfile true backing.limit outfile = .ok p ∧
      (outfile = "/dev/null".toList ∨ ∃ file, p = some file ∧
        if needsNewBacking backing (disk.tree.entry file) then
          10000 < disk.tree.newcount ∧ Full backing disk outfile
        else Unwritten backing disk file append)

section

variable {target outfile : Str} {append : Bool} {disk : Disk} {p : Option Nat}

theorem outputRefused_iff (resolves : resolvePath disk.tree.home target backing.cwd = .ok outfile)
    (found : disk.tree.getfile true backing.limit outfile = .ok p) :
    OutputRefused backing target disk ↔ outfile ≠ "/dev/null".toList ∧
      (∀ file, p = some file → needsNewBacking backing (disk.tree.entry file) = true) ∧
        Refused backing disk outfile := by
  constructor
  · rintro ⟨other, q, same, equal, rest⟩
    rw [resolves] at same
    cases same
    rw [found] at equal
    cases equal
    exact rest
  · exact fun rest => ⟨outfile, p, resolves, found, rest⟩

theorem outputIdle_iff (resolves : resolvePath disk.tree.home target backing.cwd = .ok outfile)
    (found : disk.tree.getfile true backing.limit outfile = .ok p) :
    OutputIdle backing target append disk ↔
      (outfile = "/dev/null".toList ∨ ∃ file, p = some file ∧
        if needsNewBacking backing (disk.tree.entry file) then
          10000 < disk.tree.newcount ∧ Full backing disk outfile
        else Unwritten backing disk file append) := by
  constructor
  · rintro ⟨other, q, same, equal, rest⟩
    rw [resolves] at same
    cases same
    rw [found] at equal
    cases equal
    exact rest
  · exact fun rest => ⟨outfile, p, resolves, found, rest⟩

end

structure Prepares (disk : Disk) (target : Str) (append : Bool) (result : Prepared × Disk) :
    Prop where
  later : Later disk result.2
  fine : Fine disk result ↔
    OutputRefused backing target disk ∨ OutputIdle backing target append disk
  refused : (∃ message, result.1 = .refused message) ↔ OutputRefused backing target disk

theorem Prepares.raised {disk : Disk} {target : Str} {append : Bool}
    (nowhere : ∀ outfile p, resolvePath disk.tree.home target backing.cwd = .ok outfile →
      disk.tree.getfile true backing.limit outfile ≠ .ok p) :
    Prepares backing disk target append (.raised, disk) where
  later := .refl disk
  fine := by
    constructor
    · exact fun fine => absurd rfl fine.1
    · rintro (⟨outfile, p, resolves, found, -⟩ | ⟨outfile, p, resolves, found, -⟩)
      · exact absurd found (nowhere outfile p resolves)
      · exact absurd found (nowhere outfile p resolves)
  refused := by
    constructor
    · rintro ⟨message, equal⟩
      cases equal
    · rintro ⟨outfile, p, resolves, found, -⟩
      exact absurd found (nowhere outfile p resolves)

theorem prepareOutputFile_prepares (target : Str) (append : Bool) (disk : Disk) :
    Prepares backing disk target append (prepareOutputFile backing target append disk) := by
  unfold prepareOutputFile
  cases resolves : resolvePath disk.tree.home target backing.cwd with
  | error raised =>
      apply Prepares.raised
      intro outfile p other
      rw [resolves] at other
      cases other
  | ok outfile =>
      dsimp only
      cases found : disk.tree.getfile true backing.limit outfile with
      | error raised =>
          apply Prepares.raised
          intro other p same
          rw [resolves] at same
          cases same
          rw [found]
          exact nofun
      | ok p =>
          have refused := outputRefused_iff backing resolves found
          have idle := @outputIdle_iff backing target outfile append disk p resolves found
          dsimp only
          by_cases null : outfile = "/dev/null".toList
          · rw [if_pos null]
            refine ⟨.refl disk, ?_, ?_⟩
            · exact ⟨fun _ => .inr (idle.mpr (.inl null)), fun _ => ⟨nofun, rfl, fun _ _ => id⟩⟩
            · rw [refused]
              exact ⟨nofun, fun condition => absurd null condition.1⟩
          · rw [if_neg null]
            cases p with
            | none =>
                have create := createRedirectTarget_iff backing outfile 0 disk
                dsimp only [Option.map_none]
                refine ⟨create.1, ?_, ?_⟩
                · rw [create.2.1, refused, idle]
                  constructor
                  · rintro (refused | ⟨-, -, file, some_, -⟩)
                    · exact .inl ⟨null, nofun, refused⟩
                    · rw [found] at some_
                      cases some_
                  · rintro (condition | isNull | ⟨file, none_, -⟩)
                    · exact .inl condition.2.2
                    · exact absurd isNull null
                    · cases none_
                · rw [create.2.2, refused]
                  exact ⟨fun refused => ⟨null, nofun, refused⟩, fun condition => condition.2.2⟩
            | some file =>
                dsimp only [Option.map_some]
                by_cases needs : needsNewBacking backing (disk.tree.entry file) = true
                · rw [if_pos needs]
                  have create := createRedirectTarget_iff backing outfile
                    (if append then (disk.tree.entry file).size else 0) disk
                  have all : ∀ other, some file = some other →
                      needsNewBacking backing (disk.tree.entry other) = true := by
                    intro other same
                    cases same
                    exact needs
                  refine ⟨create.1, ?_, ?_⟩
                  · rw [create.2.1, refused, idle]
                    constructor
                    · rintro (refused | full)
                      · exact .inl ⟨null, all, refused⟩
                      · exact .inr (.inr ⟨file, rfl, by rw [if_pos needs]; exact full⟩)
                    · rintro (condition | isNull | ⟨other, same, full⟩)
                      · exact .inl condition.2.2
                      · exact absurd isNull null
                      · cases same
                        rw [if_pos needs] at full
                        exact .inr full
                  · rw [create.2.2, refused]
                    exact ⟨fun refused => ⟨null, all, refused⟩, fun condition => condition.2.2⟩
                · rw [if_neg needs]
                  rcases reuseExistingBacking_iff backing append disk found with ⟨later, fine, accepts⟩
                  refine ⟨later, ?_, ?_⟩
                  · rw [fine, refused, idle]
                    constructor
                    · exact fun unwritten => .inr (.inr ⟨file, rfl, by rw [if_neg needs]; exact unwritten⟩)
                    · rintro (condition | isNull | ⟨other, same, unwritten⟩)
                      · exact absurd (condition.2.1 file rfl) needs
                      · exact absurd isNull null
                      · cases same
                        rw [if_neg needs] at unwritten
                        exact unwritten
                  · rw [refused]
                    constructor
                    · rintro ⟨message, equal⟩
                      exact absurd equal (accepts message)
                    · exact fun condition => absurd (condition.2.1 file rfl) needs

def FileAction.Refused (disk : Disk) : FileAction → Prop
  | .output target _ => OutputRefused backing target disk
  | .input target => ∃ path, resolvePath disk.tree.home target backing.cwd = .ok path ∧
      disk.tree.fileContents backing.limit (disk.host backing) path = .error .fileNotFound

/-- The redirection reports no error, and nothing is made for it or lost. -/
def FileAction.Idle (disk : Disk) : FileAction → Prop
  | .output target append => OutputIdle backing target append disk
  | .input target => ∃ path data, resolvePath disk.tree.home target backing.cwd = .ok path ∧
      disk.tree.fileContents backing.limit (disk.host backing) path = .ok data

structure Acts (disk : Disk) (action : FileAction) (result : Option Bool × Disk) : Prop where
  later : Later disk result.2
  kept : (∃ told, result.1 = some told) ∧ Kept disk result.2 ↔
    action.Refused backing disk ∨ action.Idle backing disk
  refused : result.1 = some true ↔ action.Refused backing disk

theorem told_isSome_iff (prepared : Prepared) :
    (∃ error, told prepared = some error) ↔ prepared ≠ .raised := by
  cases prepared with
  | raised => exact ⟨nofun, fun differs => absurd rfl differs⟩
  | refused message => exact ⟨fun _ => nofun, fun _ => ⟨true, rfl⟩⟩
  | opened | devnull | failed => exact ⟨fun _ => nofun, fun _ => ⟨false, rfl⟩⟩

theorem told_true_iff (prepared : Prepared) :
    told prepared = some true ↔ ∃ message, prepared = .refused message := by
  cases prepared with
  | refused message => exact ⟨fun _ => ⟨message, rfl⟩, fun _ => rfl⟩
  | raised | opened | devnull | failed => exact ⟨nofun, nofun⟩

theorem inputTold_iff (target : Str) (disk : Disk) :
    ((∃ error, inputTold backing target disk = some error) ↔
      (FileAction.input target).Refused backing disk ∨ (FileAction.input target).Idle backing disk) ∧
      (inputTold backing target disk = some true ↔
        (FileAction.input target).Refused backing disk) := by
  unfold inputTold FileAction.Refused FileAction.Idle
  cases resolves : resolvePath disk.tree.home target backing.cwd with
  | error raised => simp [resolves]
  | ok path =>
      cases contents : disk.tree.fileContents backing.limit (disk.host backing) path with
      | ok data => simp [resolves, contents]
      | error raised => cases raised <;> simp [resolves, contents]

theorem act_acts (disk : Disk) (action : FileAction) :
    Acts backing disk action (action.act backing disk) := by
  cases action with
  | output target append =>
      have prepares := prepareOutputFile_prepares backing target append disk
      refine ⟨prepares.later, ?_, ?_⟩
      · rw [FileAction.act, Prod.map_fst, told_isSome_iff]
        exact prepares.fine
      · rw [FileAction.act, Prod.map_fst, told_true_iff]
        exact prepares.refused
  | input target =>
      have tells := inputTold_iff backing target disk
      refine ⟨.refl disk, ?_, tells.2⟩
      rw [← tells.1]
      exact ⟨And.left, fun told => ⟨told, .refl disk⟩⟩

/-! ## All redirections -/

def acts : List FileAction → Disk → Option Bool × Disk
  | [], disk => (some false, disk)
  | action :: rest, disk =>
      match action.act backing disk with
      | (none, disk) => (none, disk)
      | (some error, disk) => ((acts rest disk).map (Option.map (error || ·)) id)

/-- Every redirection, with the files as it finds them, is refused or changes nothing. -/
def AllKeep : List FileAction → Disk → Prop
  | [], _ => True
  | action :: rest, disk =>
      (action.Refused backing disk ∨ action.Idle backing disk) ∧
        AllKeep rest (action.act backing disk).2

/-- Some redirection, with the files as it finds them, is refused. -/
def SomeRefused : List FileAction → Disk → Prop
  | [], _ => False
  | action :: rest, disk =>
      action.Refused backing disk ∨ SomeRefused rest (action.act backing disk).2

theorem acts_later (actions : List FileAction) (disk : Disk) :
    Later disk (acts backing actions disk).2 := by
  induction actions generalizing disk with
  | nil => exact .refl disk
  | cons action rest induction =>
      have first := (act_acts backing disk action).later
      rw [acts]
      cases acted : action.act backing disk with
      | mk error after =>
          rw [acted] at first
          cases error with
          | none => exact first
          | some error => exact first.trans (induction after)

theorem acts_kept_iff (actions : List FileAction) (disk : Disk) :
    (∃ error, (acts backing actions disk).1 = some error) ∧ Kept disk (acts backing actions disk).2 ↔
      AllKeep backing actions disk := by
  induction actions generalizing disk with
  | nil => exact ⟨fun _ => trivial, fun _ => ⟨⟨false, rfl⟩, .refl disk⟩⟩
  | cons action rest induction =>
      have each := act_acts backing disk action
      rw [AllKeep, ← each.kept, acts]
      cases acted : action.act backing disk with
      | mk error after =>
          rw [acted] at each
          cases error with
          | none => simp
          | some error =>
              rw [← induction after]
              have later := acts_later backing rest after
              simp only [Prod.map_fst, Prod.map_snd, id, Option.map_eq_some_iff]
              constructor
              · intro whole
                rcases whole with ⟨⟨_, given, isGiven, -⟩, kept⟩
                have both := kept.between each.later later
                exact ⟨⟨⟨error, rfl⟩, both.1⟩, ⟨given, isGiven⟩, both.2⟩
              · intro parts
                rcases parts with ⟨⟨-, first⟩, ⟨given, isGiven⟩, second⟩
                exact ⟨⟨_, given, isGiven, rfl⟩, first.trans second⟩

theorem acts_refused_iff {actions : List FileAction} {disk : Disk} {error : Bool}
    (done : (acts backing actions disk).1 = some error) :
    error = true ↔ SomeRefused backing actions disk := by
  induction actions generalizing disk error with
  | nil =>
      rw [← Option.some.inj done]
      exact ⟨nofun, nofun⟩
  | cons action rest induction =>
      have each := (act_acts backing disk action).refused
      rw [SomeRefused, ← each]
      rw [acts] at done
      cases acted : action.act backing disk with
      | mk first after =>
          rw [acted] at done
          cases first with
          | none => cases done
          | some first =>
              simp only [Prod.map_fst, Option.map_eq_some_iff] at done
              rcases done with ⟨given, isGiven, rfl⟩
              rw [← induction isGiven, Option.some_inj, Bool.or_eq_true]

theorem acts_append (front back : List FileAction) (disk : Disk) :
    acts backing (front ++ back) disk =
      match acts backing front disk with
      | (none, disk) => (none, disk)
      | (some error, disk) => (acts backing back disk).map (Option.map (error || ·)) id := by
  induction front generalizing disk with
  | nil =>
      rw [List.nil_append, acts]
      cases later : acts backing back disk with
      | mk error after => simp [Prod.map, later]
  | cons action front induction =>
      rw [List.cons_append, acts, acts]
      cases action.act backing disk with
      | mk error after =>
          cases error with
          | none => rfl
          | some error =>
              dsimp only
              rw [induction after]
              cases acts backing front after with
              | mk later last =>
                  cases later with
                  | none => rfl
                  | some later =>
                      simp only [Prod.map, Option.map_map, Option.map_some, id]
                      congr 2
                      funext more
                      exact (Bool.or_assoc error later more).symm

/-! ## The pipes of a line -/

def outputs (ops : List Redirection) : List FileAction :=
  ops.filterMap fun op =>
    match op with
    | .file _ target append => some (.output target append)
    | .stdin _ _ | .dup _ _ => none

def fileActions (ops : List Redirection) : List FileAction :=
  outputs ops ++ (pendingStdinTarget ops).toList.map .input

def lineActions (specs : List PipeSpec) : List FileAction :=
  specs.flatMap fun spec => fileActions spec.redirections

/-- The session has the files, and more on its terminal where there is an error. -/
structure Follows (error : Bool) (disk : Disk) (session after : Session Disk) : Prop where
  world : after.world = disk
  pipes : after.pipes = session.pipes
  grows : session.terminal.length ≤ after.terminal.length
  tells : error = true → session.terminal.length < after.terminal.length

def SetUp (effect : Option Bool × Disk) (pipe : PipeProtocol) (session : Session Disk)
    (result : Option PipeProtocol × Session Disk) : Prop :=
  match effect.1 with
  | none => result.1 = none
  | some error =>
      ∃ made, result.1 = some made ∧
        made.redirectionError = (pipe.redirectionError || error) ∧
          Follows error effect.2 session result.2

section

variable {pipe made : PipeProtocol} {session after : Session Disk}

theorem Follows.refl (session : Session Disk) : Follows false session.world session session :=
  ⟨rfl, rfl, Nat.le_refl _, nofun⟩

theorem Follows.trans {first second : Bool} {disk last : Disk} {next later : Session Disk}
    (left : Follows first disk session next) (right : Follows second last next later) :
    Follows (first || second) last session later where
  world := right.world
  pipes := right.pipes.trans left.pipes
  grows := left.grows.trans right.grows
  tells error := by
    rcases Bool.or_eq_true_iff.mp error with isFirst | isSecond
    · exact (left.tells isFirst).trans_le right.grows
    · exact left.grows.trans_lt (right.tells isSecond)

theorem length_print {text : Str} (visible : text ≠ []) (session : Session Disk) :
    session.terminal.length < (session.print text).terminal.length := by
  have longer := Utf8.length_le_length_encode text
  have some_ := List.length_pos_iff.mpr visible
  simp only [Session.print, List.length_append]
  omega

variable (env : Env Disk)

theorem visible_of_refused {target message : Str} {append : Bool} {disk : Disk}
    (refused : (prepareOutputFile backing target append disk).1 = .refused message) :
    message ≠ [] := by
  have created {outfile : Str} {startSize : Nat}
      (refused : (createRedirectTarget backing outfile startSize disk).1 = .refused message) :
      message ≠ [] := by
    unfold createRedirectTarget at refused
    split at refused
    · rw [← Prepared.refused.inj refused]
      exact List.append_ne_nil_of_right_ne_nil _ (List.cons_ne_nil _ _)
    · rw [← Prepared.refused.inj refused]
      exact List.append_ne_nil_of_right_ne_nil _ (List.cons_ne_nil _ _)
    · cases refused
    · exact absurd refused (attachBacking_accepts backing outfile startSize _ message)
  unfold prepareOutputFile at refused
  split at refused
  · cases refused
  · split at refused
    · cases refused
    · next p found =>
      split at refused
      · cases refused
      · cases p with
        | none => exact created refused
        | some file =>
            dsimp only [Option.map_some] at refused
            split at refused
            · exact created refused
            · exact absurd refused ((reuseExistingBacking_iff backing append disk found).2.2 message)

theorem setUp_redirection (pipe : PipeProtocol) (session : Session Disk) (op : Redirection) :
    SetUp (acts backing (outputs [op]) session.world) pipe session
      (setupRedirection (fileEnv backing env) pipe session op) := by
  cases op with
  | file fd target append =>
      have visible := @visible_of_refused backing target
      have single : acts backing (outputs [.file fd target append]) session.world =
          ((prepareOutputFile backing target append session.world).map told id) := by
        have action : outputs [.file fd target append] = [.output target append] := rfl
        rw [action, acts, FileAction.act]
        cases prepareOutputFile backing target append session.world with
        | mk result disk => cases result <;> rfl
      have prepare : (fileEnv backing env).prepareOutputFile = prepareOutputFile backing := rfl
      rw [single, setupRedirection, prepare]
      cases prepared : prepareOutputFile backing target append session.world with
      | mk result disk =>
          cases result with
          | raised => rfl
          | refused message =>
              have some_ : message ≠ [] := visible (congrArg Prod.fst prepared)
              refine ⟨_, rfl, (Bool.or_true _).symm, rfl, rfl, ?_, fun _ => ?_⟩
              · exact (length_print some_ { session with world := disk }).le
              · exact length_print some_ { session with world := disk }
          | opened info =>
              refine ⟨_, rfl, ?_, rfl, rfl, Nat.le_refl _, fun told => absurd told Bool.false_ne_true⟩
              rw [Bool.or_false]
              split
              · rfl
              · split
                · rfl
                · rfl
          | devnull | failed =>
              exact ⟨_, rfl, (Bool.or_false _).symm, rfl, rfl, Nat.le_refl _, fun told => absurd told Bool.false_ne_true⟩
  | stdin fd target => exact ⟨_, rfl, (Bool.or_false _).symm, .refl session⟩
  | dup fd target =>
      rw [setupRedirection]
      split
      · exact ⟨_, rfl, (Bool.or_false _).symm, .refl session⟩
      · exact ⟨_, rfl, (Bool.or_false _).symm, .refl session⟩

/-- One setup after another; what comes after an exception is left out. -/
def andThen (result : Option PipeProtocol × Session Disk)
    (next : PipeProtocol → Session Disk → Option PipeProtocol × Session Disk) :
    Option PipeProtocol × Session Disk :=
  match result with
  | (none, after) => (none, after)
  | (some made, after) => next made after

theorem SetUp.bind {front back : List FileAction} {pipe : PipeProtocol} {session : Session Disk}
    {result : Option PipeProtocol × Session Disk}
    {next : PipeProtocol → Session Disk → Option PipeProtocol × Session Disk}
    (first : SetUp (acts backing front session.world) pipe session result)
    (onward : ∀ made after, SetUp (acts backing back after.world) made after (next made after)) :
    SetUp (acts backing (front ++ back) session.world) pipe session (andThen result next) := by
  rw [acts_append]
  cases acted : acts backing front session.world with
  | mk error disk =>
      rw [acted] at first
      rcases result with ⟨_ | made, after⟩
      · cases error with
        | none => rfl
        | some error =>
            rcases first with ⟨other, none_, -⟩
            cases none_
      · cases error with
        | none => cases first
        | some error =>
            rcases first with ⟨other, isMade, errors, follows⟩
            cases isMade
            have later := onward made after
            rw [follows.world] at later
            dsimp only [andThen]
            cases acted' : acts backing back disk with
            | mk more last =>
                rw [acted'] at later
                cases more with
                | none => exact later
                | some more =>
                    rcases later with ⟨whole, isWhole, errors', follows'⟩
                    refine ⟨whole, isWhole, ?_, follows.trans follows'⟩
                    rw [errors', errors, Bool.or_assoc]

theorem setUp_operations (pipe : PipeProtocol) (session : Session Disk) (ops : List Redirection) :
    SetUp (acts backing (outputs ops) session.world) pipe session
      (setupOperations (fileEnv backing env) pipe session ops) := by
  induction ops generalizing pipe session with
  | nil => exact ⟨pipe, rfl, (Bool.or_false _).symm, .refl session⟩
  | cons op ops induction =>
      have whole : outputs (op :: ops) = outputs [op] ++ outputs ops := by
        rw [outputs, ← List.singleton_append, List.filterMap_append]
        rfl
      have both := (setUp_redirection backing env pipe session op).bind backing induction
      rw [← whole] at both
      rw [setupOperations]
      cases result : setupRedirection (fileEnv backing env) pipe session op with
      | mk made after =>
          rw [result] at both
          cases made with
          | none => exact both
          | some made => exact both

theorem setUp_stdin (pipe : PipeProtocol) (session : Session Disk) (target : Str) :
    SetUp (acts backing [.input target] session.world) pipe session
      (prepareStdin (fileEnv backing env) target pipe session) := by
  have single : acts backing [.input target] session.world =
      (inputTold backing target session.world, session.world) := by
    rw [acts, FileAction.act]
    cases inputTold backing target session.world with
    | none => rfl
    | some error => cases error <;> rfl
  rw [single, prepareStdin]
  simp only [fileEnv, inputTold]
  cases resolvePath session.world.tree.home target backing.cwd with
  | error raised => rfl
  | ok path =>
      simp only [Except.toOption, Option.map_some]
      cases session.world.tree.fileContents backing.limit (session.world.host backing) path with
      | ok data => exact ⟨_, rfl, (Bool.or_false _).symm, .refl session⟩
      | error raised =>
          cases raised with
          | fileNotFound =>
              have visible : "-bash: ".toList ++ target ++ ": No such file or directory\n".toList ≠ [] :=
                List.append_ne_nil_of_right_ne_nil _ (List.cons_ne_nil _ _)
              refine ⟨_, rfl, (Bool.or_true _).symm, rfl, rfl, ?_, fun _ => ?_⟩
              · exact (length_print visible session).le
              · exact length_print visible session
          | permissionDenied | isADirectory | osError | indexError | typeError | attributeError
            | valueError | recursionError => rfl

theorem setUp_redirections (pipe : PipeProtocol) (session : Session Disk) (ops : List Redirection) :
    SetUp (acts backing (fileActions ops) session.world) pipe session
      (setupRedirections (fileEnv backing env) pipe ops session) := by
  have both := @SetUp.bind backing _ ((pendingStdinTarget ops).toList.map .input) _ _ _
    (fun made after => (pendingStdinTarget ops).elim (some made, after) fun target =>
      prepareStdin (fileEnv backing env) target made after)
    (setUp_operations backing env pipe session ops) (by
        intro made after
        cases pendingStdinTarget ops with
        | none => exact ⟨made, rfl, (Bool.or_false _).symm, .refl after⟩
        | some target => exact setUp_stdin backing env made after target)
  rw [fileActions, setupRedirections]
  cases result : setupOperations (fileEnv backing env) pipe session ops with
  | mk made after =>
      rw [result] at both
      cases made with
      | none => exact both
      | some made =>
          cases target : pendingStdinTarget ops with
          | none =>
              rw [target] at both
              exact both
          | some target' =>
              rw [target] at both
              exact both

def hasError {World : Type} (session : Session World) (pp : Option Nat) : Bool :=
  (pp.map fun pp => (session.pipe pp).hasRedirectionError).getD false

def LineBuilt (effect : Option Bool × Disk) (lastpp : Option Nat) (session : Session Disk)
    (result : Option (Option Nat) × Session Disk) : Prop :=
  match effect.1 with
  | none => result.1 = none
  | some error =>
      ∃ pp, result.1 = some pp ∧ hasError result.2 pp = (hasError session lastpp || error) ∧
        result.2.world = effect.2 ∧ session.terminal.length ≤ result.2.terminal.length ∧
          (error = true → session.terminal.length < result.2.terminal.length)

theorem hasError_alloc (session : Session Disk) (pipe : PipeProtocol) :
    hasError { session with pipes := session.pipes.alloc pipe } (some session.pipes.next) =
      pipe.hasRedirectionError := by
  rw [hasError, Option.map_some, Option.getD_some, Session.pipe, Heap.read_alloc_self]

theorem built_newPipe (spec : PipeSpec) (session : Session Disk) :
    LineBuilt (acts backing (fileActions spec.redirections) session.world) spec.nextCommand session
      ((newPipe (fileEnv backing env) spec session).map (Option.map some) id) := by
  have first := setUp_redirections backing env spec.initial session spec.redirections
  rw [newPipe]
  cases acted : acts backing (fileActions spec.redirections) session.world with
  | mk error disk =>
      rw [acted] at first
      cases result : setupRedirections (fileEnv backing env) spec.initial spec.redirections session with
      | mk made after =>
          rw [result] at first
          cases error with
          | none =>
              cases made with
              | none => rfl
              | some made => cases first
          | some error =>
              rcases first with ⟨pipe, isMade, errors, follows⟩
              cases isMade
              refine ⟨_, rfl, ?_, follows.world, follows.grows, follows.tells⟩
              have noError : spec.initial.redirectionError = false := rfl
              have pipes : after.pipes = session.pipes := follows.pipes
              have inherited : hasError after spec.nextCommand = hasError session spec.nextCommand := by
                simp only [hasError, Session.pipe, pipes]
              refine (hasError_alloc after { pipe with
                hasRedirectionError := pipe.redirectionError || hasError after spec.nextCommand }).trans ?_
              dsimp only
              rw [errors, noError, Bool.false_or, inherited, Bool.or_comm]

theorem built_newPipes (specs : List PipeSpec) (lastpp : Option Nat) (session : Session Disk) :
    LineBuilt (acts backing (lineActions specs) session.world) lastpp session
      (newPipes (fileEnv backing env) specs lastpp session) := by
  induction specs generalizing lastpp session with
  | nil => exact ⟨lastpp, rfl, (Bool.or_false _).symm, rfl, Nat.le_refl _, nofun⟩
  | cons spec specs induction =>
      have whole : lineActions (spec :: specs) =
          fileActions spec.redirections ++ lineActions specs := List.flatMap_cons
      have first := built_newPipe backing env { spec with nextCommand := lastpp } session
      dsimp only at first
      rw [whole, acts_append, newPipes]
      cases acted : acts backing (fileActions spec.redirections) session.world with
      | mk error disk =>
          rw [acted] at first
          cases result : newPipe (fileEnv backing env) { spec with nextCommand := lastpp } session with
          | mk made after =>
              rw [result] at first
              cases error with
              | none =>
                  cases made with
                  | none => rfl
                  | some made => cases first
              | some error =>
                  rcases first with ⟨pp, isMade, hasErrors, world, grows, tells⟩
                  rcases Option.map_eq_some_iff.mp isMade with ⟨made, rfl, rfl⟩
                  have rest := induction (some made) after
                  rw [show after.world = disk from world] at rest
                  dsimp only
                  cases acted' : acts backing (lineActions specs) disk with
                  | mk more last =>
                      rw [acted'] at rest
                      cases more with
                      | none => exact rest
                      | some more =>
                          rcases rest with ⟨pp, isPp, hasErrors', world, grows', tells'⟩
                          refine ⟨pp, isPp, ?_, world, grows.trans grows', ?_⟩
                          · rw [hasErrors']
                            exact (congrArg (· || more) hasErrors).trans (Bool.or_assoc ..)
                          · intro some_
                            rcases Bool.or_eq_true_iff.mp some_ with here | there
                            · exact (tells here).trans_le grows'
                            · exact grows.trans_lt (tells' there)

end

/-- The setup of the line raises nothing, reports an error that keeps the command from running,
and leaves the tree and all data as they were. -/
def FailsCleanly (env : Env Disk) (specs : List PipeSpec) (session : Session Disk) : Prop :=
  ∃ pp after, newPipes (fileEnv backing env) specs none session = (some pp, after) ∧
    hasError after pp = true ∧ session.terminal.length < after.terminal.length ∧
      Kept session.world after.world

/-- A line fails cleanly where some redirection is refused and every other one is refused too or
changes nothing. -/
theorem failsCleanly_iff (env : Env Disk) (specs : List PipeSpec) (session : Session Disk) :
    FailsCleanly backing env specs session ↔
      AllKeep backing (lineActions specs) session.world ∧
        SomeRefused backing (lineActions specs) session.world := by
  have built := built_newPipes backing env specs none session
  rw [FailsCleanly, ← acts_kept_iff]
  cases acted : acts backing (lineActions specs) session.world with
  | mk error disk =>
      rw [acted] at built
      cases made : newPipes (fileEnv backing env) specs none session with
      | mk pp after =>
          rw [made] at built
          cases error with
          | none =>
              constructor
              · intro fails
                rcases fails with ⟨pp, last, same, -⟩
                cases same
                cases built
              · exact fun keeps => absurd keeps.1.1 (by simp)
          | some error =>
              rcases built with ⟨pp, isPp, hasErrors, world, -, tells⟩
              have refused := acts_refused_iff backing (congrArg Prod.fst acted)
              cases isPp
              have start : hasError session none = false := rfl
              rw [start, Bool.false_or] at hasErrors
              rw [← refused]
              constructor
              · intro fails
                rcases fails with ⟨pp, last, same, isError, -, kept⟩
                cases same
                rw [hasErrors] at isError
                exact ⟨⟨⟨error, rfl⟩, world ▸ kept⟩, isError⟩
              · intro condition
                exact ⟨pp, after, rfl, hasErrors.trans condition.2, tells condition.2,
                  world ▸ condition.1.2⟩

/-! ## A directory as the target -/

def Env.bare : Env Disk where
  exec := false
  environ := ⟨[], []⟩
  prompt _ := "# ".toList
  resolvePath _ _ := none
  pathExists _ _ := false
  isfile _ _ := false
  fileContents _ _ := .error .fileNotFound
  prepareOutputFile _ _ disk := (.failed, disk)
  appendRealFile _ _ disk := some disk
  updateSize _ _ disk := disk
  txtcmds _ := .error .fileNotFound
  isCommand _ := false
  start _ _ _ _ := []
  rmHelp := []
  removeFiles _ _ _ _ _ := []

def Backing.root : Backing where
  cwd := "/".toList
  uid := 0
  gid := 0
  now := 0
  limit := 17
  contentsPath := "honeyfs".toList
  downloadPath := "downloads".toList
  stamp := "0".toList
  archData := []
  canAppend _ := true
  canTruncate _ := true

def Session.ofTree (tree : HoneyPotFilesystem) : Session Disk :=
  { world := ⟨tree, fun _ => none⟩, cmdstack := [], shells := .empty, pipes := .empty }

/-- `> d` for a directory: no error is reported. -/
theorem directory_replaced :
    smallTree.isdir 17 "/d".toList = true ∧
      ¬ FailsCleanly .root .bare [{ cmd := none, redirections := [.file 1 "d".toList false] }]
        (.ofTree smallTree) := by
  constructor
  · rfl
  · intro fails
    rcases fails with ⟨pp, after, made, isError, -⟩
    cases made
    cases isError

end Shell

end LlmHoneypot
