import LlmHoneypot.Vfs.Agreement

/-! # Recording a path

What exists for `ls`, `stat` and `cat` depends on the skeleton and on the recorded
paths alone. What one more recorded path changes. -/

namespace LlmHoneypot

namespace Vfs

variable {vfs next : Vfs} {dir other : AbsPath} {name entry : FileName} {key : Str}

/-! ## Existence -/

def Listed (vfs : Vfs) (dir : AbsPath) (name : FileName) : Prop :=
  ∃ entries, vfs.listing dir = some entries ∧ ∃ node ∈ entries, node.name = name.1

/-- The path is a file and no directory; `ls` shows it by its path. -/
def Blocked (vfs : Vfs) (path : AbsPath) : Prop :=
  vfs.isDir path.text = false ∧ (vfs.isFile path.text).isSome

def Filed (vfs : Vfs) (dir : AbsPath) (name : FileName) : Prop :=
  ∃ path ∈ vfs.world.files.keys, split path = (dir.text, name.1)

theorem filedAs_isSome_iff : (vfs.filedAs dir name).isSome ↔ vfs.Filed dir name := by
  simp [filedAs, Filed, Dict.keys]

theorem holds_of_filed (filed : vfs.Filed dir name) : vfs.Holds dir := by
  rcases filed with ⟨path, member, equal⟩
  exact ⟨path, member, by rw [equal]⟩

theorem filed_of_holds (holds : vfs.Holds (dir.child name)) :
    ∃ entry, vfs.Filed (dir.child name) entry := by
  rcases holds with ⟨path, member, filed⟩
  rcases (AbsPath.ofText path).eq_root_or_child with isRoot | ⟨parent, base, isChild⟩
  · rw [split_eq, isRoot, split_root] at filed
    have equal : AbsPath.root = dir.child name := AbsPath.text_injective filed
    have components := congrArg AbsPath.components equal
    simp [AbsPath.child, AbsPath.root] at components
  · have parts : split path = (parent.text, base.1) := by rw [split_eq, isChild, split_child]
    rw [parts] at filed
    exact ⟨base, path, member, by rw [parts, ← filed]⟩

theorem skeletonNode_of_unknown (unknown : vfs.skeleton.lookup dir.text = none) :
    vfs.skeletonNode dir name = none := by
  rw [skeletonNode, baseEntries, unknown]
  rfl

theorem listed_iff :
    vfs.Listed dir name ↔
      ¬ vfs.Blocked dir ∧ ((vfs.skeletonNode dir name).isSome ∨ vfs.Filed dir name) := by
  have named : (vfs.listedNode dir name).isSome ↔
      (vfs.skeletonNode dir name).isSome ∨ vfs.Filed dir name := by
    rw [← filedAs_isSome_iff, listedNode]
    cases vfs.skeletonNode dir name <;> simp
  have open_ : ¬ vfs.Blocked dir ↔ vfs.isDir dir.text = true ∨ vfs.isFile dir.text = none := by
    simp [Blocked, imp_iff_not_or]
  rw [← named, open_]
  constructor
  · rintro ⟨entries, listed, present⟩
    rcases listing_eq_some_iff.mp listed with ⟨entriesOf, target⟩
    rcases present with ⟨node, member, isNamed⟩
    refine ⟨target, ?_⟩
    rw [(mem_dirEntries_iff entriesOf).mp ⟨member, isNamed⟩]
    rfl
  · rintro ⟨target, some⟩
    have shown : (vfs.skeleton.lookup dir.text).isSome ∨ vfs.Holds dir := by
      rcases named.mp some with inSkeleton | filed
      · left
        rw [Option.isSome_iff_ne_none]
        intro unknown
        rw [skeletonNode_of_unknown unknown] at inSkeleton
        cases inSkeleton
      · exact .inr (holds_of_filed filed)
    rcases Option.isSome_iff_exists.mp (dirEntries_isSome_iff.mpr shown) with ⟨entries, entriesOf⟩
    rcases Option.isSome_iff_exists.mp some with ⟨node, equal⟩
    rcases (mem_dirEntries_iff entriesOf).mpr equal with ⟨member, isNamed⟩
    exact ⟨entries, listing_eq_some_iff.mpr ⟨entriesOf, target⟩, node, member, isNamed⟩

theorem isFile_isSome_iff (vfs : Vfs) (path : AbsPath) :
    (vfs.isFile path.text).isSome ↔
      path.text ∈ vfs.world.files.keys ∨ ((untouched vfs.username).isFile path.text).isSome := by
  have fixed : (untouched vfs.username).world.files.get? path.text = none := rfl
  simp only [isFile, normpath_text, fixed, Dict.mem_keys_iff]
  cases vfs.world.files.get? path.text with
  | some fact => simp
  | none => simp [untouched, skeleton, home]

theorem statNode_isSome_iff_keys (vfs : Vfs) (path : AbsPath) :
    (vfs.statNode path.text).isSome ↔
      path.text ∈ vfs.world.files.keys ∨
        ((untouched vfs.username).statNode path.text).isSome := by
  have sameDir : (untouched vfs.username).isDir path.text = vfs.isDir path.text := rfl
  rw [statNode_isSome_iff, statNode_isSome_iff, isFile_isSome_iff, sameDir, or_assoc]

/-! ## One more path -/

/-- From `vfs` to `next` one path is recorded; an empty one is ignored. -/
structure Records (key : Str) (vfs next : Vfs) : Prop where
  username : next.username = vfs.username
  keys : ∀ path, path ∈ next.world.files.keys ↔
    (path = key ∧ key ≠ []) ∨ path ∈ vfs.world.files.keys

theorem text_ne_nil (path : AbsPath) : path.text ≠ [] := by
  rw [AbsPath.text_eq]
  simp

theorem child_ne (dir : AbsPath) (name : FileName) : dir.child name ≠ dir := by
  intro same
  have components := congrArg (fun path => path.components.length) same
  simp [AbsPath.child] at components

namespace Records

section Views

variable (records : Records key vfs next)

include records

theorem isDir (path : Str) : next.isDir path = vfs.isDir path := by
  simp only [Vfs.isDir, skeleton, home, records.username]

theorem skeletonNode (dir : AbsPath) (name : FileName) :
    next.skeletonNode dir name = vfs.skeletonNode dir name := by
  simp only [Vfs.skeletonNode, baseEntries, skeleton, home, records.username]

theorem mem_keys (path : AbsPath) :
    path.text ∈ next.world.files.keys ↔ path.text = key ∨ path.text ∈ vfs.world.files.keys := by
  rw [records.keys]
  constructor
  · exact Or.imp_left And.left
  · exact Or.imp_left fun same => ⟨same, same ▸ text_ne_nil path⟩

theorem filed (dir : AbsPath) (name : FileName) :
    next.Filed dir name ↔ split key = (dir.text, name.1) ∨ vfs.Filed dir name := by
  have started : split key = (dir.text, name.1) → key ≠ [] := by
    rintro filed rfl
    have empty := congrArg Prod.snd filed
    exact name.2.1 empty.symm
  constructor
  · rintro ⟨path, member, equal⟩
    rcases (records.keys path).mp member with ⟨rfl, -⟩ | before
    · exact .inl equal
    · exact .inr ⟨path, before, equal⟩
  · rintro (equal | ⟨path, member, equal⟩)
    · exact ⟨key, (records.keys key).mpr (.inl ⟨rfl, started equal⟩), equal⟩
    · exact ⟨path, (records.keys path).mpr (.inr member), equal⟩

theorem blocked (path : AbsPath) :
    next.Blocked path ↔
      vfs.isDir path.text = false ∧ (path.text = key ∨ (vfs.isFile path.text).isSome) := by
  rw [Blocked, records.isDir, isFile_isSome_iff, records.mem_keys, records.username, or_assoc,
    ← isFile_isSome_iff]

theorem listed (dir : AbsPath) (name : FileName) :
    next.Listed dir name ↔
      ¬ (vfs.isDir dir.text = false ∧ (dir.text = key ∨ (vfs.isFile dir.text).isSome)) ∧
        ((vfs.skeletonNode dir name).isSome ∨ split key = (dir.text, name.1) ∨
          vfs.Filed dir name) := by
  rw [listed_iff, records.blocked, records.skeletonNode, records.filed]

theorem statFinds (path : AbsPath) :
    (next.statNode path.text).isSome ↔ path.text = key ∨ (vfs.statNode path.text).isSome := by
  rw [statNode_isSome_iff_keys, records.mem_keys, records.username, or_assoc,
    ← statNode_isSome_iff_keys]

theorem listed_other (irregular : ∀ path : AbsPath, path.text ≠ key) (dir : AbsPath)
    (name : FileName) :
    next.Listed dir name ↔
      vfs.Listed dir name ∨ ¬ vfs.Blocked dir ∧ split key = (dir.text, name.1) := by
  rw [records.listed, listed_iff, Blocked]
  simp only [irregular dir, false_or]
  tauto

end Views

theorem listed_self (records : Records (dir.child name).text vfs next) :
    next.Listed dir name ↔ ¬ vfs.Blocked dir := by
  have apart : dir.text ≠ (dir.child name).text :=
    fun same => child_ne dir name (AbsPath.text_injective same).symm
  rw [records.listed, Blocked]
  simp [apart, split_child]

/-- It leaves the other directories alone unless the path itself was listed as one,
for the files under it, without being known to `stat`. -/
theorem others_self (records : Records (dir.child name).text vfs next) :
    (∀ other entry, other ≠ dir → (next.Listed other entry ↔ vfs.Listed other entry)) ↔
      (vfs.Holds (dir.child name) → (vfs.statNode (dir.child name).text).isSome) := by
  constructor
  · intro unchanged holds
    rcases filed_of_holds holds with ⟨entry, filed⟩
    rw [statNode_isSome_iff]
    by_contra unknown
    rw [not_or, Option.not_isSome_iff_eq_none, Bool.not_eq_true] at unknown
    have before : vfs.Listed (dir.child name) entry :=
      listed_iff.mpr ⟨by simp [Blocked, unknown.1], .inr filed⟩
    have after := (unchanged _ entry (child_ne dir name)).mpr before
    exact ((records.listed ..).mp after).1 ⟨unknown.2, .inl rfl⟩
  · intro known other entry differs
    have elsewhere : split (dir.child name).text ≠ (other.text, entry.1) := by
      rw [split_child]
      intro same
      exact differs (AbsPath.text_injective (congrArg Prod.fst same)).symm
    rw [records.listed, listed_iff, Blocked]
    by_cases same : other = dir.child name
    · subst same
      rw [statNode_isSome_iff] at known
      cases isDir : vfs.isDir (dir.child name).text with
      | true => simp [elsewhere]
      | false =>
          cases isFile : vfs.isFile (dir.child name).text with
          | some node => simp
          | none =>
              have empty : ¬ vfs.Filed (dir.child name) entry := by
                intro filed
                simpa [isDir, isFile] using known (holds_of_filed filed)
              have unknown : vfs.skeleton.lookup (dir.child name).text = none := by
                rw [← Option.not_isSome_iff_eq_none]
                intro inSkeleton
                simp [Vfs.isDir, inSkeleton] at isDir
              simp [empty, skeletonNode_of_unknown unknown]
    · have apart : other.text ≠ (dir.child name).text :=
        fun equal => same (AbsPath.text_injective equal)
      simp [apart, elsewhere]

end Records

end Vfs

end LlmHoneypot
