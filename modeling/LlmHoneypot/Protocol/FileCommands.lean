import LlmHoneypot.Protocol.EchoFiles

/-! # Removing, copying and moving

What `ls`, `stat` and `cat` make of a file after `rm`, `cp` and `mv`. The session
records no removal over the skeleton, and copies only what it has recorded. -/

namespace LlmHoneypot

namespace Protocol

open CmdParser Responder Vfs

variable {catOne : CatOne} {session next : Session} {dir dstDir : AbsPath}
  {name dstName : FileName} {path dstPath line : Str}

/-! ## Reading one file -/

def CatOf (catOne : CatOne) (session : Session) (path : Str) : Option ResponderResult :=
  hCat catOne [path] session.shellContext session.effectiveUser

def factOutput (fact : FileFact) : Option ResponderResult :=
  fact.contentSnippet.map fun body => { output := printed body }

theorem catOf_text (target : AbsPath) :
    CatOf catOne session target.text =
      match session.world.files.get? target.text with
      | some fact => factOutput fact
      | none => catOne target.text session.shellContext.withoutFiles session.effectiveUser :=
  hCat_text target.isPrefixOf_text

/-- `stat` shows the size and `cat` gives the content. -/
structure Reads (catOne : CatOne) (session : Session) (target : AbsPath) (size : Nat)
    (content : Option ResponderResult) : Prop where
  stated : ∃ node, session.vfs.statNode target.text = some node ∧ node.size = size
  printed : CatOf catOne session target.text = content

theorem reads_of_get? {target : AbsPath} {fact : FileFact} {size : Nat}
    {content : Option ResponderResult}
    (found : session.world.files.get? target.text = some fact) :
    Reads catOne session target size content ↔
      fact.sizeBytes = size ∧ factOutput fact = content := by
  have atNormal : session.vfs.world.files.get? (normpath target.text) = some fact := by
    rw [normpath_text]
    exact found
  rcases statNode_of_get? atNormal with ⟨base, node⟩
  rw [normpath_text] at node
  have cat : CatOf catOne session target.text = factOutput fact := by
    rw [catOf_text, found]
  constructor
  · rintro ⟨⟨other, isNode, size⟩, content⟩
    rw [node, Option.some.injEq] at isNode
    rw [← isNode] at size
    exact ⟨size, cat.symm.trans content⟩
  · rintro ⟨size, content⟩
    exact ⟨⟨_, node, size⟩, cat.trans content⟩

theorem reads_congr {target : AbsPath} {size : Nat} {content : Option ResponderResult}
    (same : SameShell session next)
    (kept : next.world.files.get? target.text = session.world.files.get? target.text) :
    Reads catOne next target size content ↔ Reads catOne session target size content := by
  have stated : next.vfs.statNode target.text = session.vfs.statNode target.text := by
    have atNormal := @statNode_congr next.vfs session.vfs target.text same.loginUser
      (by rw [normpath_text]; exact kept)
    rwa [normpath_text] at atNormal
  have cat : CatOf catOne next target.text = CatOf catOne session target.text := by
    rw [catOf_text, catOf_text, kept, same.context, same.effectiveUser]
  constructor
  · rintro ⟨⟨node, isNode, isSize⟩, isContent⟩
    exact ⟨⟨node, stated ▸ isNode, isSize⟩, cat ▸ isContent⟩
  · rintro ⟨⟨node, isNode, isSize⟩, isContent⟩
    exact ⟨⟨node, stated.trans isNode, isSize⟩, cat.trans isContent⟩

def TableKnows (catOne : CatOne) (session : Session) (target : AbsPath) : Prop :=
  ∃ result,
    catOne target.text session.shellContext.withoutFiles session.effectiveUser = some result ∧
      result.isError = false

/-- `ls`, `stat` and `cat` do not find the file. -/
structure Gone (catOne : CatOne) (session : Session) (dir : AbsPath) (name : FileName) : Prop where
  listed : ¬ session.vfs.Listed dir name
  stated : session.vfs.statNode (dir.child name).text = none
  printed : ¬ CatFinds catOne session (dir.child name).text

def InSkeleton (session : Session) (target : AbsPath) : Prop :=
  ((untouched session.loginUser).statNode target.text).isSome

theorem skeletonNode_of_absent (absent : ¬ InSkeleton session (dir.child name)) :
    session.vfs.skeletonNode dir name = none := by
  by_contra present
  rcases Option.ne_none_iff_exists'.mp present with ⟨node, found⟩
  have inUntouched : (untouched session.loginUser).skeletonNode dir name = some node := found
  have noFile : (untouched session.loginUser).world.files.get? (dir.child name).text = none := rfl
  apply absent
  rw [InSkeleton, statNode_child, noFile, inUntouched]
  rfl

theorem statFinds_iff (target : AbsPath) :
    (session.vfs.statNode target.text).isSome ↔
      target.text ∈ session.world.files.keys ∨ InSkeleton session target :=
  statNode_isSome_iff_keys session.vfs target

section Views

variable (same : SameShell session next)

include same

theorem inSkeleton_next (target : AbsPath) : InSkeleton next target ↔ InSkeleton session target := by
  rw [InSkeleton, same.loginUser, InSkeleton]

theorem blocked_next (target : AbsPath) :
    next.vfs.Blocked target ↔
      session.vfs.isDir target.text = false ∧
        (target.text ∈ next.world.files.keys ∨
          ((untouched session.loginUser).isFile target.text).isSome) := by
  have isDir : next.vfs.isDir target.text = session.vfs.isDir target.text := by
    simp only [Session.vfs, Vfs.isDir, skeleton, home, same.loginUser]
  have user : next.vfs.username = session.loginUser := same.loginUser
  rw [Blocked, isDir, isFile_isSome_iff, user]
  rfl

theorem listed_next (dir : AbsPath) (name : FileName) :
    next.vfs.Listed dir name ↔
      ¬ next.vfs.Blocked dir ∧
        ((session.vfs.skeletonNode dir name).isSome ∨
          ∃ other ∈ next.world.files.keys, split other = (dir.text, name.1)) := by
  have node : next.vfs.skeletonNode dir name = session.vfs.skeletonNode dir name := by
    simp only [Session.vfs, skeletonNode, baseEntries, skeleton, home, same.loginUser]
  rw [listed_iff, node]
  rfl

theorem gone_iff :
    Gone catOne next dir name ↔
      (dir.child name).text ∉ next.world.files.keys ∧ ¬ InSkeleton session (dir.child name) ∧
        ¬ TableKnows catOne session (dir.child name) ∧
          (next.vfs.Blocked dir ∨
            ∀ other ∈ next.world.files.keys, split other ≠ (dir.text, name.1)) := by
  have stated : next.vfs.statNode (dir.child name).text = none ↔
      (dir.child name).text ∉ next.world.files.keys ∧ ¬ InSkeleton session (dir.child name) := by
    rw [← Option.not_isSome_iff_eq_none, statFinds_iff, inSkeleton_next same, not_or]
  have printed : CatFinds catOne next (dir.child name).text ↔
      (dir.child name).text ∈ next.world.files.keys ∨
        TableKnows catOne session (dir.child name) := same.catFinds _
  constructor
  · rintro ⟨unlisted, unstated, unprinted⟩
    rcases stated.mp unstated with ⟨unrecorded, absent⟩
    rw [printed, not_or] at unprinted
    refine ⟨unrecorded, absent, unprinted.2, ?_⟩
    rw [listed_next same, skeletonNode_of_absent absent] at unlisted
    by_cases blocked : next.vfs.Blocked dir
    · exact .inl blocked
    · right
      intro other member filed
      exact unlisted ⟨blocked, .inr ⟨other, member, filed⟩⟩
  · rintro ⟨unrecorded, absent, unknown, unlisted⟩
    refine ⟨?_, stated.mpr ⟨unrecorded, absent⟩, ?_⟩
    · rw [listed_next same, skeletonNode_of_absent absent]
      rintro ⟨visible, inBase | ⟨other, member, filed⟩⟩
      · cases inBase
      · exact unlisted.elim visible fun free => free other member filed
    · rw [printed, not_or]
      exact ⟨unrecorded, unknown⟩

end Views

theorem dir_ne_child : dir.text ≠ (dir.child name).text :=
  fun equal => child_ne dir name (AbsPath.text_injective equal).symm

/-! ## Removing -/

/-- The file is recorded under the typed path and nowhere else, neither the skeleton
nor the table of fixed files has it, and no other spelling is listed in its place. -/
structure RemovesWhen (catOne : CatOne) (session : Session) (path : Str) (dir : AbsPath)
    (name : FileName) : Prop where
  typed : path = (dir.child name).text
  absent : ¬ InSkeleton session (dir.child name)
  unknown : ¬ TableKnows catOne session (dir.child name)
  alone : session.vfs.Blocked dir ∨
    ∀ other ∈ session.world.files.keys, split other = (dir.text, name.1) → other = path

theorem sameShell_removed (parsed : parseInputMutations line = [.removeFile path]) :
    SameShell session (applyInputMutations line session) :=
  sameShell_typed parsed fun _ _ _ => rfl

theorem rm_gone_iff (parsed : parseInputMutations line = [.removeFile path])
    (found : (session.vfs.statNode (dir.child name).text).isSome) :
    Gone catOne (applyInputMutations line session) dir name ↔
      RemovesWhen catOne session path dir name := by
  have same := @sameShell_removed session _ _ parsed
  have keys : ∀ key, key ∈ (applyInputMutations line session).world.files.keys ↔
      key ≠ path ∧ key ∈ session.world.files.keys := by
    intro key
    rw [applyInputMutations_world parsed]
    exact Dict.mem_keys_erase
  have blocked : path = (dir.child name).text →
      ((applyInputMutations line session).vfs.Blocked dir ↔ session.vfs.Blocked dir) := by
    rintro rfl
    rw [blocked_next same, blocked_next (.refl session), keys]
    simp [dir_ne_child]
  rw [gone_iff same]
  simp only [keys]
  constructor
  · rintro ⟨unrecorded, absent, unknown, unlisted⟩
    have recorded := (statFinds_iff _).mp found |>.resolve_right absent
    have typed : path = (dir.child name).text := by
      by_contra differs
      exact unrecorded ⟨Ne.symm differs, recorded⟩
    refine ⟨typed, absent, unknown, unlisted.imp (blocked typed).mp fun free other member filed => ?_⟩
    by_contra differs
    exact free other ⟨differs, member⟩ filed
  · rintro ⟨typed, absent, unknown, alone⟩
    refine ⟨fun ⟨differs, _⟩ => differs typed.symm, absent, unknown, ?_⟩
    refine alone.imp (blocked typed).mpr fun single other member filed => ?_
    exact member.1 (single other member.2 filed)

/-! ## Copying -/

/-- The copy is listed and reads as the original did; the original reads as before. -/
structure CopyMade (catOne : CatOne) (next : Session) (original : AbsPath) (dstDir : AbsPath)
    (dstName : FileName) (size : Nat) (content : Option ResponderResult) : Prop where
  listed : next.vfs.Listed dstDir dstName
  copy : Reads catOne next (dstDir.child dstName) size content
  kept : Reads catOne next original size content

/-- What is recorded under the typed source is what the source reads as, and the target
is typed as its own path, in a directory that is no file. Or the target read like the
source before. -/
def CopiesWhen (catOne : CatOne) (session : Session) (path dstPath : Str) (dstDir : AbsPath)
    (dstName : FileName) (size : Nat) (content : Option ResponderResult) : Prop :=
  match session.world.files.get? path with
  | none =>
      session.vfs.Listed dstDir dstName ∧
        Reads catOne session (dstDir.child dstName) size content
  | some src =>
      (dstPath = (dstDir.child dstName).text ∧ ¬ session.vfs.Blocked dstDir ∧
        src.sizeBytes = size ∧ factOutput src = content) ∨
      (dstPath ≠ (dstDir.child dstName).text ∧
        (session.vfs.Listed dstDir dstName ∨
          ¬ session.vfs.Blocked dstDir ∧ split dstPath = (dstDir.text, dstName.1)) ∧
        Reads catOne session (dstDir.child dstName) size content)

theorem applyMutation_copy_withoutFiles (user : Str) (now : Nat) (world : WorldState) :
    (applyMutation user now world (.copyFile path dstPath)).withoutFiles =
      world.withoutFiles := by
  simp only [applyMutation]
  split
  · exact addFile_withoutFiles
  · rfl

theorem copied_files {src : FileFact} (parsed : parseInputMutations line = [.copyFile path dstPath])
    (found : session.world.files.get? path = some src) :
    Records dstPath session.vfs (applyInputMutations line session).vfs ∧
      (∀ key, key ≠ dstPath →
        (applyInputMutations line session).world.files.get? key =
          session.world.files.get? key) ∧
      (dstPath ≠ [] → ∃ fact : FileFact,
        (applyInputMutations line session).world.files.get? dstPath = some fact ∧
          fact.sizeBytes = src.sizeBytes ∧ factOutput fact = factOutput src) := by
  have world := @applyInputMutations_world _ _ session parsed
  simp only [FileChange.apply, applyMutation, found] at world
  refine ⟨⟨rfl, fun key => ?_⟩, fun key differs => ?_, fun started => ?_⟩
  · rw [Session.vfs, world]
    exact keys_addFile_iff
  · rw [world]
    unfold WorldState.addFile
    split
    · rfl
    · rw [Dict.get?_set, if_neg differs]
  · rw [world, WorldState.addFile, if_neg started, Dict.get?_set, if_pos rfl]
    exact ⟨_, rfl, rfl, rfl⟩

theorem cp_copied_iff {original : AbsPath} {size : Nat} {content : Option ResponderResult}
    (parsed : parseInputMutations line = [.copyFile path dstPath])
    (resolved : AbsPath.resolve session.cwd dstPath = dstDir.child dstName)
    (read : Reads catOne session original size content) :
    CopyMade catOne (applyInputMutations line session) original dstDir dstName size content ↔
      CopiesWhen catOne session path dstPath dstDir dstName size content := by
  have same : SameShell session (applyInputMutations line session) :=
    sameShell_typed parsed applyMutation_copy_withoutFiles
  have copied : ∀ next, CopyMade catOne next original dstDir dstName size content ↔
      next.vfs.Listed dstDir dstName ∧ Reads catOne next (dstDir.child dstName) size content ∧
        Reads catOne next original size content :=
    fun next => ⟨fun ⟨listed, copy, kept⟩ => ⟨listed, copy, kept⟩,
      fun ⟨listed, copy, kept⟩ => ⟨listed, copy, kept⟩⟩
  rw [copied, CopiesWhen]
  cases found : session.world.files.get? path with
  | none =>
      have files : (applyInputMutations line session).world.files = session.world.files := by
        rw [applyInputMutations_world parsed]
        simp only [FileChange.apply, applyMutation, found]
      have listed : (applyInputMutations line session).vfs.Listed dstDir dstName ↔
          session.vfs.Listed dstDir dstName := by
        rw [listed_next same, listed_next (.refl session), blocked_next same,
          blocked_next (.refl session), files]
      rw [listed, reads_congr same (by rw [files]), reads_congr same (by rw [files])]
      simp [read]
  | some src =>
      rcases copied_files parsed found with ⟨records, others, stored⟩
      by_cases regular : dstPath = (dstDir.child dstName).text
      · rcases stored (regular ▸ text_ne_nil _) with ⟨fact, atTarget, sizeEq, outputEq⟩
        rw [regular] at atTarget records others
        have copy : Reads catOne (applyInputMutations line session) (dstDir.child dstName) size
            content ↔ src.sizeBytes = size ∧ factOutput src = content := by
          rw [reads_of_get? atTarget, sizeEq, outputEq]
        have kept : Reads catOne (applyInputMutations line session) (dstDir.child dstName) size
            content → Reads catOne (applyInputMutations line session) original size content := by
          intro reads
          by_cases itself : original = dstDir.child dstName
          · exact itself ▸ reads
          · have differs : original.text ≠ (dstDir.child dstName).text :=
              fun equal => itself (AbsPath.text_injective equal)
            exact (reads_congr same (others _ differs)).mpr read
        rw [records.listed_self, and_iff_left_of_imp kept, copy]
        simp [regular]
      · have irregular := irregular_of_resolved resolved regular
        rw [records.listed_other irregular, reads_congr same (others _ (irregular _)),
          reads_congr same (others _ (irregular _))]
        simp [regular, read]

/-! ## Moving -/

/-- The target is listed and reads as the source did, and the source is gone. -/
structure MoveMade (catOne : CatOne) (next : Session) (dir : AbsPath) (name : FileName)
    (dstDir : AbsPath) (dstName : FileName) (size : Nat) (content : Option ResponderResult) :
    Prop where
  listed : next.vfs.Listed dstDir dstName
  moved : Reads catOne next (dstDir.child dstName) size content
  gone : Gone catOne next dir name

/-- The source is recorded under the typed path and would be gone after `rm`; the
target is another path, in a directory that is no other file, and typed as its own
path, or else read like the source before. -/
structure MovesWhen (catOne : CatOne) (session : Session) (path dstPath : Str) (dir : AbsPath)
    (name : FileName) (dstDir : AbsPath) (dstName : FileName) (size : Nat)
    (content : Option ResponderResult) : Prop where
  typed : path = (dir.child name).text
  absent : ¬ InSkeleton session (dir.child name)
  unknown : ¬ TableKnows catOne session (dir.child name)
  /-- Nothing else is listed in place of the source. -/
  alone : (session.vfs.isDir dir.text = false ∧
      (dir.text = dstPath ∨ (session.vfs.isFile dir.text).isSome)) ∨
    (split dstPath ≠ (dir.text, name.1) ∧
      ∀ other ∈ session.world.files.keys, split other = (dir.text, name.1) → other = path)
  apart : dir.child name ≠ dstDir.child dstName
  /-- The directory of the target is no file, or the one that is moved. -/
  open_ : ¬ (session.vfs.isDir dstDir.text = false ∧
    dstDir.text ≠ path ∧ (session.vfs.isFile dstDir.text).isSome)
  lands : dstPath = (dstDir.child dstName).text ∨
    (((session.vfs.skeletonNode dstDir dstName).isSome ∨
        split dstPath = (dstDir.text, dstName.1) ∨
        ∃ other ∈ session.world.files.keys,
          other ≠ path ∧ split other = (dstDir.text, dstName.1)) ∧
      Reads catOne session (dstDir.child dstName) size content)

theorem applyMutation_move_withoutFiles (user : Str) (now : Nat) (world : WorldState) :
    (applyMutation user now world (.moveFile path dstPath)).withoutFiles =
      world.withoutFiles := by
  simp only [applyMutation]
  split
  · exact addFile_withoutFiles
  · rfl

theorem moved_files {src : FileFact} (parsed : parseInputMutations line = [.moveFile path dstPath])
    (found : session.world.files.get? path = some src) :
    (∀ key, key ∈ (applyInputMutations line session).world.files.keys ↔
      (key = dstPath ∧ dstPath ≠ []) ∨ (key ≠ path ∧ key ∈ session.world.files.keys)) ∧
    (∀ key, key ≠ dstPath → key ≠ path →
      (applyInputMutations line session).world.files.get? key =
        session.world.files.get? key) ∧
    (dstPath ≠ [] → ∃ fact : FileFact,
      (applyInputMutations line session).world.files.get? dstPath = some fact ∧
        fact.sizeBytes = src.sizeBytes ∧ factOutput fact = factOutput src) := by
  have world := @applyInputMutations_world _ _ session parsed
  simp only [FileChange.apply, applyMutation, found] at world
  refine ⟨fun key => ?_, fun key notTarget notSource => ?_, fun started => ?_⟩
  · rw [world, keys_addFile_iff]
    exact or_congr_right Dict.mem_keys_erase
  · rw [world]
    unfold WorldState.addFile
    split
    · exact (Dict.get?_erase ..).trans (if_neg notSource)
    · rw [Dict.get?_set, if_neg notTarget]
      exact (Dict.get?_erase ..).trans (if_neg notSource)
  · rw [world, WorldState.addFile, if_neg started, Dict.get?_set, if_pos rfl]
    exact ⟨_, rfl, rfl, rfl⟩

theorem started_of_split (filed : split path = (dir.text, name.1)) : path ≠ [] := by
  rintro rfl
  have empty := congrArg Prod.snd filed
  exact name.2.1 empty.symm

section MovedViews

variable (keys : ∀ key, key ∈ next.world.files.keys ↔
  (key = dstPath ∧ dstPath ≠ []) ∨ (key ≠ path ∧ key ∈ session.world.files.keys))

include keys

theorem unfiled_moved :
    (∀ other ∈ next.world.files.keys, split other ≠ (dir.text, name.1)) ↔
      split dstPath ≠ (dir.text, name.1) ∧
        ∀ other ∈ session.world.files.keys, split other = (dir.text, name.1) → other = path := by
  constructor
  · intro free
    refine ⟨fun filed => ?_, fun other member filed => ?_⟩
    · exact free dstPath ((keys _).mpr (.inl ⟨rfl, started_of_split filed⟩)) filed
    · by_contra differs
      exact free other ((keys _).mpr (.inr ⟨differs, member⟩)) filed
  · rintro ⟨elsewhere, single⟩ other member filed
    rcases (keys other).mp member with ⟨rfl, -⟩ | ⟨differs, before⟩
    · exact elsewhere filed
    · exact differs (single other before filed)

variable (same : SameShell session next)

include same

theorem blocked_moved (typed : path = (dir.child name).text)
    (absent : ¬ InSkeleton session (dir.child name)) (target : AbsPath) :
    next.vfs.Blocked target ↔
      session.vfs.isDir target.text = false ∧
        (target.text = dstPath ∨
          target.text ≠ path ∧ (session.vfs.isFile target.text).isSome) := by
  have started : target.text = dstPath ∧ dstPath ≠ [] ↔ target.text = dstPath :=
    and_iff_left_of_imp fun equal => equal ▸ text_ne_nil target
  have isFile : (session.vfs.isFile target.text).isSome ↔
      target.text ∈ session.world.files.keys ∨
        ((untouched session.loginUser).isFile target.text).isSome :=
    isFile_isSome_iff session.vfs target
  rw [blocked_next same, keys, started, isFile, or_assoc]
  apply and_congr_right
  intro _
  apply or_congr_right
  by_cases source : target.text = path
  · have notFile : ¬ ((untouched session.loginUser).isFile target.text).isSome := by
      intro isFile
      rw [source, typed] at isFile
      exact absent ((statNode_isSome_iff ..).mpr (.inl isFile))
    simp [source, source ▸ notFile]
  · simp [source]

theorem listed_moved :
    next.vfs.Listed dstDir dstName ↔
      ¬ next.vfs.Blocked dstDir ∧
        ((session.vfs.skeletonNode dstDir dstName).isSome ∨
          split dstPath = (dstDir.text, dstName.1) ∨
          ∃ other ∈ session.world.files.keys,
            other ≠ path ∧ split other = (dstDir.text, dstName.1)) := by
  rw [listed_next same]
  apply and_congr_right
  intro _
  apply or_congr_right
  constructor
  · rintro ⟨other, member, filed⟩
    rcases (keys other).mp member with ⟨rfl, -⟩ | ⟨differs, before⟩
    · exact .inl filed
    · exact .inr ⟨other, before, differs, filed⟩
  · rintro (filed | ⟨other, before, differs, filed⟩)
    · exact ⟨dstPath, (keys _).mpr (.inl ⟨rfl, started_of_split filed⟩), filed⟩
    · exact ⟨other, (keys _).mpr (.inr ⟨differs, before⟩), filed⟩

end MovedViews

theorem mv_moved_iff {size : Nat} {content : Option ResponderResult}
    (parsed : parseInputMutations line = [.moveFile path dstPath])
    (resolved : AbsPath.resolve session.cwd dstPath = dstDir.child dstName)
    (read : Reads catOne session (dir.child name) size content) :
    MoveMade catOne (applyInputMutations line session) dir name dstDir dstName size content ↔
      MovesWhen catOne session path dstPath dir name dstDir dstName size content := by
  have same : SameShell session (applyInputMutations line session) :=
    sameShell_typed parsed applyMutation_move_withoutFiles
  have recorded : ¬ InSkeleton session (dir.child name) →
      (dir.child name).text ∈ session.world.files.keys := by
    rcases read.stated with ⟨node, isNode, -⟩
    exact ((statFinds_iff _).mp (by rw [isNode]; rfl)).resolve_right
  cases found : session.world.files.get? path with
  | none =>
      have unrecorded : path ∉ session.world.files.keys := Dict.get?_eq_none_iff.mp found
      have files : (applyInputMutations line session).world.files = session.world.files := by
        rw [applyInputMutations_world parsed]
        simp only [FileChange.apply, applyMutation, found]
      refine iff_of_false (fun moved => ?_) fun moves => ?_
      · rcases (gone_iff same).mp moved.gone with ⟨missing, absent, -, -⟩
        rw [files] at missing
        exact missing (recorded absent)
      · exact unrecorded (moves.typed ▸ recorded moves.absent)
  | some src =>
      rcases moved_files parsed found with ⟨keys, others, stored⟩
      constructor
      · rintro ⟨listed, moved, gone⟩
        rcases (gone_iff same).mp gone with ⟨missing, absent, unknown, unlisted⟩
        rw [keys, not_or] at missing
        have typed : path = (dir.child name).text := by
          by_contra differs
          exact missing.2 ⟨Ne.symm differs, recorded absent⟩
        have apart : dir.child name ≠ dstDir.child dstName := by
          intro equal
          rcases moved.stated with ⟨node, isNode, -⟩
          rw [← equal, gone.stated] at isNode
          cases isNode
        have blocked := @blocked_moved session _ _ _ _ _ keys same typed absent
        rw [listed_moved keys same, blocked] at listed
        refine ⟨typed, absent, unknown, ?_, apart, ?_, ?_⟩
        · rw [unfiled_moved keys, blocked, typed] at unlisted
          rw [typed]
          simpa [dir_ne_child] using unlisted
        · rintro ⟨notDir, notSource, isFile⟩
          exact listed.1 ⟨notDir, .inr ⟨notSource, isFile⟩⟩
        · by_cases regular : dstPath = (dstDir.child dstName).text
          · exact .inl regular
          · have notSource : (dstDir.child dstName).text ≠ path := fun equal =>
              apart (AbsPath.text_injective (equal.trans typed)).symm
            exact .inr ⟨listed.2,
              (reads_congr same (others _ (Ne.symm regular) notSource)).mp moved⟩
      · rintro ⟨typed, absent, unknown, alone, apart, open_, lands⟩
        have blocked := @blocked_moved session _ _ _ _ _ keys same typed absent
        have apartText : (dstDir.child dstName).text ≠ (dir.child name).text := fun equal =>
          apart (AbsPath.text_injective equal).symm
        have source : src.sizeBytes = size ∧ factOutput src = content :=
          (reads_of_get? (typed ▸ found)).mp read
        have notDst : (dir.child name).text ≠ dstPath ∧ dstDir.text ≠ dstPath := by
          by_cases regular : dstPath = (dstDir.child dstName).text
          · rw [regular]
            exact ⟨Ne.symm apartText, dir_ne_child⟩
          · have irregular := irregular_of_resolved resolved regular
            exact ⟨irregular _, irregular _⟩
        have gone : Gone catOne (applyInputMutations line session) dir name := by
          rw [gone_iff same, keys, unfiled_moved keys, blocked]
          refine ⟨?_, absent, unknown, ?_⟩
          · rintro (⟨equal, -⟩ | ⟨differs, -⟩)
            · exact notDst.1 equal
            · exact differs typed.symm
          · rw [typed] at alone ⊢
            simpa [dir_ne_child] using alone
        have visible : ¬ (applyInputMutations line session).vfs.Blocked dstDir := by
          rw [blocked]
          rintro ⟨notDir, isDst | isFile⟩
          · exact notDst.2 isDst
          · exact open_ ⟨notDir, isFile⟩
        by_cases regular : dstPath = (dstDir.child dstName).text
        · have filed : split dstPath = (dstDir.text, dstName.1) := by
            rw [regular, split_child]
          rcases stored (started_of_split filed) with ⟨fact, atTarget, sizeEq, outputEq⟩
          refine ⟨?_, ?_, gone⟩
          · rw [listed_moved keys same]
            exact ⟨visible, .inr (.inl filed)⟩
          · rw [regular] at atTarget
            rw [reads_of_get? atTarget, sizeEq, outputEq]
            exact source
        · rcases lands.resolve_left regular with ⟨shown, reads⟩
          refine ⟨?_, ?_, gone⟩
          · rw [listed_moved keys same]
            exact ⟨visible, shown⟩
          · have notSource : (dstDir.child dstName).text ≠ path := typed ▸ apartText
            exact (reads_congr same (others _ (Ne.symm regular) notSource)).mpr reads

/-- On every file that `stat` finds: `rm` takes effect exactly under `RemovesWhen`, `cp`
exactly under `CopiesWhen`, `mv` exactly under `MovesWhen`. -/
theorem file_commands_take_effect_iff (catOne : CatOne) (session : Session) (dir : AbsPath)
    (name : FileName) (size : Nat) (content : Option ResponderResult)
    (read : Reads catOne session (dir.child name) size content) :
    (∀ line path, parseInputMutations line = [.removeFile path] →
      (Gone catOne (applyInputMutations line session) dir name ↔
        RemovesWhen catOne session path dir name)) ∧
    (∀ line path dstPath dstDir dstName, parseInputMutations line = [.copyFile path dstPath] →
      AbsPath.resolve session.cwd dstPath = AbsPath.child dstDir dstName →
      (CopyMade catOne (applyInputMutations line session) (dir.child name) dstDir dstName size
          content ↔
        CopiesWhen catOne session path dstPath dstDir dstName size content)) ∧
    (∀ line path dstPath dstDir dstName, parseInputMutations line = [.moveFile path dstPath] →
      AbsPath.resolve session.cwd dstPath = AbsPath.child dstDir dstName →
      (MoveMade catOne (applyInputMutations line session) dir name dstDir dstName size content ↔
        MovesWhen catOne session path dstPath dir name dstDir dstName size content)) := by
  refine ⟨fun line path parsed => ?_, fun line path dstPath dstDir dstName parsed resolved => ?_,
    fun line path dstPath dstDir dstName parsed resolved => ?_⟩
  · rcases read.stated with ⟨node, isNode, -⟩
    exact rm_gone_iff parsed (by rw [isNode]; rfl)
  · exact cp_copied_iff parsed resolved read
  · exact mv_moved_iff parsed resolved read

section Created

def created : Session := applyInputMutations "echo x > /tmp/a".toList .root

def tmp : AbsPath := .ofText "/tmp".toList

def fileA : FileName := ⟨"a".toList, by decide⟩

def fileB : FileName := ⟨"b".toList, by decide⟩

theorem only_created {other : Str} (member : other ∈ created.world.files.keys) :
    other = "/tmp/a".toList := by
  have keys : created.world.files.keys = ["/tmp/a".toList] := by decide
  rw [keys] at member
  exact List.mem_singleton.mp member

/-- A file that the session created goes away, is copied and is moved. -/
theorem rm_created_file :
    Gone (fun _ _ _ => none) (applyInputMutations "rm -f /tmp/a".toList created) tmp fileA ∧
      CopyMade (fun _ _ _ => none) (applyInputMutations "cp /tmp/a /tmp/b".toList created)
        (tmp.child fileA) tmp fileB 1 (some { output := "x\n".toList }) ∧
      MoveMade (fun _ _ _ => none) (applyInputMutations "mv /tmp/a /tmp/b".toList created)
        tmp fileA tmp fileB 1 (some { output := "x\n".toList }) := by
  have effects := file_commands_take_effect_iff (fun _ _ _ => none) created tmp fileA 1
    (some { output := "x\n".toList })
    ⟨⟨{ name := "a".toList, kind := .file, size := 1 }, by decide, rfl⟩, by decide⟩
  have absent : ¬ InSkeleton created (tmp.child fileA) := by
    rw [InSkeleton]
    decide
  have unknown : ¬ TableKnows (fun _ _ _ => none) created (tmp.child fileA) := by
    rintro ⟨result, printed, -⟩
    cases printed
  refine ⟨?_, ?_, ?_⟩
  · apply (effects.1 _ "/tmp/a".toList (by decide)).mpr
    exact ⟨by decide, absent, unknown, .inr fun other member _ => only_created member⟩
  · apply (effects.2.1 _ "/tmp/a".toList "/tmp/b".toList tmp fileB (by decide) (by decide)).mpr
    exact .inl ⟨by decide, by rw [Blocked]; decide, by decide, by decide⟩
  · apply (effects.2.2 _ "/tmp/a".toList "/tmp/b".toList tmp fileB (by decide) (by decide)).mpr
    refine ⟨by decide, absent, unknown, .inr ⟨by decide, ?_⟩, ?_, by decide, .inl (by decide)⟩
    · exact fun other member _ => only_created member
    · intro same
      have names := congrArg AbsPath.text same
      revert names
      decide

end Created

/-- `rm /etc/hosts` leaves the file of the skeleton in place. -/
theorem rm_skeleton_file_stays :
    ¬ ∀ catOne session dir name line path,
      (session.vfs.statNode (AbsPath.child dir name).text).isSome →
      parseInputMutations line = [.removeFile path] →
      AbsPath.resolve session.cwd path = dir.child name →
      Gone catOne (applyInputMutations line session) dir name := by
  intro all
  have gone := all (fun _ _ _ => none) .root (.ofText "/etc".toList) ⟨"hosts".toList, by decide⟩
    "rm /etc/hosts".toList "/etc/hosts".toList (by decide) (by decide) (by decide)
  have stated := gone.stated
  revert stated
  decide

end Protocol

end LlmHoneypot
