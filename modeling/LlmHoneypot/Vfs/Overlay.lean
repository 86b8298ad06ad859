import LlmHoneypot.Vfs

/-! # Skeleton and overlay

What `ls` lists and what `stat` finds, in terms of the skeleton's entry and of the
session files. Later modules use these lemmas and never unfold the views. -/

namespace LlmHoneypot

namespace Vfs

variable {vfs : Vfs} {dir : AbsPath} {name : FileName}

/-! ## Paths -/

private theorem foldl_visible (taken : List Str) (parts : List Str) :
    (parts.filter fun part => part ≠ [] ∧ part ≠ ".".toList).foldl
        (fun out part => if part = "..".toList then out.dropLast else out ++ [part]) taken =
      parts.foldl AbsPath.descend taken := by
  induction parts generalizing taken with
  | nil => rfl
  | cons part parts induction =>
      rw [List.filter_cons, List.foldl_cons]
      by_cases skipped : part = [] ∨ part = ".".toList
      · have hidden : decide (part ≠ [] ∧ part ≠ ".".toList) = false := by
          rw [decide_eq_false_iff_not, not_and_or, not_not, not_not]
          exact skipped
        rw [hidden, if_neg Bool.false_ne_true, induction, AbsPath.descend, if_pos skipped]
      · have shown : decide (part ≠ [] ∧ part ≠ ".".toList) = true := by
          simpa [not_or] using skipped
        rw [shown, if_pos rfl, List.foldl_cons, induction, AbsPath.descend, if_neg skipped]

theorem normpath_eq (path : Str) : normpath path = (AbsPath.ofText path).text := by
  unfold normpath
  split
  · rename_i empty
    rw [empty]
    rfl
  · rw [AbsPath.text_eq]
    simp only [foldl_visible]
    rfl

@[simp] theorem normpath_text (path : AbsPath) : normpath path.text = path.text := by
  rw [normpath_eq, AbsPath.ofText_text]

theorem normpath_normpath (path : Str) : normpath (normpath path) = normpath path := by
  rw [normpath_eq path, normpath_text]

theorem split_root : split AbsPath.root.text = ("/".toList, []) := by decide

theorem split_child (dir : AbsPath) (name : FileName) :
    split (dir.child name).text = (dir.text, name.1) := by
  have plain : ∀ ch ∈ name.1, (decide (ch ≠ '/')) = true := by
    intro ch member
    have differs : ch ≠ '/' := fun same => name.2.2.2.2 (same ▸ member)
    simpa using differs
  have notRoot : (dir.child name).text ≠ "/".toList := by
    intro same
    have equal : dir.child name = AbsPath.root := AbsPath.text_injective same
    have components := congrArg AbsPath.components equal
    simp [AbsPath.child, AbsPath.root] at components
  have front : (dir.stem ++ '/' :: name.1).rdropWhile (· ≠ '/') = dir.stem ++ ['/'] := by
    rw [List.append_cons, List.rdropWhile, List.reverse_append,
      List.dropWhile_append_of_pos (by simpa using plain)]
    simp
  have last : (dir.stem ++ '/' :: name.1).rtakeWhile (· ≠ '/') = name.1 := by
    rw [List.append_cons, List.rtakeWhile, List.reverse_append,
      List.takeWhile_append_of_pos (by simpa using plain)]
    simp
  simp only [split, normpath_text, if_neg notRoot]
  rw [AbsPath.text_child, front, last, List.dropLast_concat]
  rcases dir with ⟨components, named⟩
  cases components with
  | nil => rfl
  | cons head rest => simp [AbsPath.stem, AbsPath.text]

theorem split_eq (path : Str) :
    split path = split (AbsPath.ofText path).text := by
  unfold split
  rw [normpath_eq path, normpath_text]

/-! ## The skeleton -/

def baseEntries (vfs : Vfs) (dir : AbsPath) : List Node :=
  (vfs.skeleton.lookup dir.text).getD []

def skeletonNode (vfs : Vfs) (dir : AbsPath) (name : FileName) : Option Node :=
  (vfs.baseEntries dir).find? (·.name = name.1)

theorem names_nodup_of_mem {home username path : Str} {nodes : List Node}
    (member : (path, nodes) ∈ baseSkeleton home username) : (nodes.map (·.name)).Nodup := by
  have homes : ((homesEntries username).map (·.name)).Nodup := by
    unfold homesEntries
    split <;> simp
  have owned : ((homeEntries (uidOf username)).map (·.name)).Nodup := by
    have names : (homeEntries (uidOf username)).map (·.name) =
        [".bashrc", ".profile", ".bash_logout", ".cache", ".ssh"].map String.toList := rfl
    rw [names]
    decide
  simp only [baseSkeleton, List.mem_cons, Prod.mk.injEq, List.not_mem_nil, or_false] at member
  rcases member with ⟨-, rfl⟩ | ⟨-, rfl⟩ | ⟨-, rfl⟩ | ⟨-, rfl⟩ | ⟨-, rfl⟩ | ⟨-, rfl⟩ | ⟨-, rfl⟩
  · decide
  · exact homes
  · exact owned
  all_goals decide

theorem baseEntries_nodup (vfs : Vfs) (dir : AbsPath) :
    ((vfs.baseEntries dir).map (·.name)).Nodup := by
  unfold baseEntries
  cases found : vfs.skeleton.lookup dir.text with
  | none => exact .nil
  | some nodes =>
      rcases List.lookup_eq_some_iff.mp found with ⟨front, rest, equal, -⟩
      have member : (dir.text, nodes) ∈ vfs.skeleton := by
        rw [equal]
        exact List.mem_append_right _ (List.mem_cons_self ..)
      exact names_nodup_of_mem member

theorem mem_iff_find? {nodes : List Node} (nodup : (nodes.map (·.name)).Nodup) {wanted : Str}
    {node : Node} :
    node ∈ nodes ∧ node.name = wanted ↔ nodes.find? (·.name = wanted) = some node := by
  induction nodes with
  | nil => simp
  | cons first rest induction =>
      have fresh := List.nodup_cons.mp nodup
      by_cases same : first.name = wanted
      · rw [List.find?_cons_of_pos (by simpa using same), Option.some.injEq]
        constructor
        · rintro ⟨member, named⟩
          rcases List.mem_cons.mp member with equal | later
          · exact equal.symm
          · have again : node.name ∈ rest.map (·.name) := List.mem_map.mpr ⟨node, later, rfl⟩
            rw [named, ← same] at again
            exact absurd again fresh.1
        · rintro rfl
          exact ⟨List.mem_cons_self .., same⟩
      · rw [List.find?_cons_of_neg (by simpa using same), ← induction fresh.2, List.mem_cons]
        constructor
        · rintro ⟨rfl | later, named⟩
          · exact absurd named same
          · exact ⟨later, named⟩
        · rintro ⟨later, named⟩
          exact ⟨.inr later, named⟩

theorem mem_baseEntries_iff {node : Node} :
    node ∈ vfs.baseEntries dir ∧ node.name = name.1 ↔ vfs.skeletonNode dir name = some node :=
  mem_iff_find? (vfs.baseEntries_nodup dir)

theorem name_mem_baseEntries :
    name.1 ∈ (vfs.baseEntries dir).map (·.name) ↔ (vfs.skeletonNode dir name).isSome := by
  rw [Option.isSome_iff_exists, List.mem_map]
  exact exists_congr fun node => mem_baseEntries_iff

theorem lookup_isSome_iff {home username path : Str} :
    ((baseSkeleton home username).lookup path).isSome ↔
      path ∈ ["/".toList, "/home".toList, home, "/tmp".toList, "/var/tmp".toList,
        "/dev/shm".toList, "/etc".toList] := by
  simp only [baseSkeleton, List.lookup_cons, List.lookup_nil, List.mem_cons, List.not_mem_nil, or_false]
  repeat' split
  all_goals simp_all

/-! ## Session files -/

def filedAs (vfs : Vfs) (dir : AbsPath) (name : FileName) : Option FileFact :=
  (vfs.world.files.entries.find? fun entry => split entry.1 = (dir.text, name.1)).map Prod.snd

/-- Some session file is filed under the directory. -/
def Holds (vfs : Vfs) (dir : AbsPath) : Prop :=
  ∃ path ∈ vfs.world.files.keys, (split path).1 = dir.text

theorem mem_overlay_iff {seen : List Str} {files : List (Str × FileFact)} {node : Node} :
    node ∈ vfs.overlay dir.text seen files ∧ node.name = name.1 ↔
      name.1 ∉ seen ∧ ∃ fact,
        (files.find? fun entry => split entry.1 = (dir.text, name.1)).map Prod.snd = some fact ∧
          node = vfs.worldNode name.1 fact := by
  induction files generalizing seen with
  | nil => simp [overlay]
  | cons entry rest induction =>
      rcases entry with ⟨fpath, fact⟩
      by_cases filed : split fpath = (dir.text, name.1)
      · rw [List.find?_cons_of_pos (by simpa using filed)]
        simp only [overlay, filed, true_and]
        by_cases fresh : name.1 ∈ seen
        · simp [fresh, induction]
        · rw [if_pos fresh, List.mem_cons]
          constructor
          · rintro ⟨rfl | later, named⟩
            · exact ⟨fresh, _, rfl, rfl⟩
            · exact absurd (List.mem_cons_self ..) (induction.mp ⟨later, named⟩).1
          · rintro ⟨-, fact, found, rfl⟩
            cases found
            exact ⟨.inl rfl, rfl⟩
      · rw [List.find?_cons_of_neg (by simpa using filed)]
        simp only [overlay]
        split
        · rename_i taken
          have other : (split fpath).2 ≠ name.1 := fun same =>
            filed (Prod.ext taken.1 same)
          have otherwise : ¬ (node = vfs.worldNode (split fpath).2 fact ∧ node.name = name.1) := by
            rintro ⟨rfl, named⟩
            exact other named
          rw [List.mem_cons, or_and_right, or_iff_right otherwise, induction, List.mem_cons,
            not_or]
          simp [Ne.symm other]
        · exact induction

theorem overlay_eq_nil_iff {files : List (Str × FileFact)} :
    vfs.overlay dir.text [] files = [] ↔ ∀ entry ∈ files, (split entry.1).1 ≠ dir.text := by
  induction files with
  | nil => simp [overlay]
  | cons entry rest induction =>
      rcases entry with ⟨fpath, fact⟩
      by_cases filed : (split fpath).1 = dir.text
      · simp [overlay, filed]
      · simp [overlay, filed, induction]

/-! ## Listing -/

theorem holds_iff :
    vfs.Holds dir ↔ ∃ entry ∈ vfs.world.files.entries, (split entry.1).1 = dir.text := by
  simp [Holds, Dict.keys]

theorem dirEntries_isSome_iff :
    (vfs.dirEntries dir.text).isSome ↔
      (vfs.skeleton.lookup dir.text).isSome ∨ vfs.Holds dir := by
  simp only [dirEntries, normpath_text]
  cases found : vfs.skeleton.lookup dir.text with
  | some nodes => simp
  | none =>
      simp only [Option.getD_none, List.map_nil, List.nil_append, true_and, Option.isSome_none,
        Bool.false_eq_true, false_or, holds_iff]
      split
      · rename_i empty
        have free := overlay_eq_nil_iff.mp empty
        simpa using fun path fact member => free (path, fact) member
      · rename_i filled
        rw [overlay_eq_nil_iff] at filled
        simpa using filled

def listedNode (vfs : Vfs) (dir : AbsPath) (name : FileName) : Option Node :=
  (vfs.skeletonNode dir name).or ((vfs.filedAs dir name).map (vfs.worldNode name.1))

theorem mem_dirEntries_iff {entries : List Node} (listed : vfs.dirEntries dir.text = some entries)
    {node : Node} : node ∈ entries ∧ node.name = name.1 ↔ vfs.listedNode dir name = some node := by
  simp only [dirEntries, normpath_text] at listed
  split at listed
  · cases listed
  · cases listed
    have base : (vfs.skeleton.lookup dir.text).getD [] = vfs.baseEntries dir := rfl
    rw [base, List.mem_append, or_and_right, mem_baseEntries_iff, mem_overlay_iff,
      name_mem_baseEntries, listedNode, filedAs]
    generalize Option.map Prod.snd _ = filed
    cases vfs.skeletonNode dir name with
    | some _ => simp
    | none => cases filed <;> simp [eq_comm]

def listing (vfs : Vfs) (dir : AbsPath) : Option (List Node) :=
  match vfs.lsTarget dir.text with
  | some (.dir entries) => some entries
  | _ => none

theorem listing_eq_some_iff {entries : List Node} :
    vfs.listing dir = some entries ↔
      vfs.dirEntries dir.text = some entries ∧
        (vfs.isDir dir.text = true ∨ vfs.isFile dir.text = none) := by
  simp only [listing, lsTarget]
  cases vfs.isFile dir.text <;> cases vfs.isDir dir.text <;>
    cases vfs.dirEntries dir.text <;> simp

/-! ## Stat -/

theorem isDir_child_iff :
    vfs.isDir (dir.child name).text = true ↔
      (vfs.skeleton.lookup (dir.child name).text).isSome ∨
        ∃ node, vfs.skeletonNode dir name = some node ∧ node.kind = .dir := by
  simp only [isDir, normpath_text, split_child, Bool.or_eq_true, List.any_eq_true,
    decide_eq_true_eq, ← and_assoc]
  have base : (vfs.skeleton.lookup dir.text).getD [] = vfs.baseEntries dir := rfl
  simp only [base, mem_baseEntries_iff]

theorem find?_notDir {nodes : List Node} (nodup : (nodes.map (·.name)).Nodup) (wanted : Str) :
    nodes.find? (fun node => node.name = wanted ∧ (node.kind = .file ∨ node.kind = .link)) =
      (nodes.find? (·.name = wanted)).filter (·.kind ≠ .dir) := by
  have notDir : ∀ node : Node, (node.kind = .file ∨ node.kind = .link) ↔ node.kind ≠ .dir := by
    intro node
    cases node.kind <;> simp
  induction nodes with
  | nil => rfl
  | cons first rest induction =>
      have fresh := List.nodup_cons.mp nodup
      simp only [notDir] at induction ⊢
      by_cases same : first.name = wanted
      · by_cases isDir : first.kind = .dir
        · have absent : rest.find? (fun node => node.name = wanted ∧ node.kind ≠ .dir) = none := by
            rw [List.find?_eq_none]
            intro node member
            have other : node.name ≠ wanted := fun equal =>
              fresh.1 (List.mem_map.mpr ⟨node, member, equal.trans same.symm⟩)
            simp [other]
          rw [List.find?_cons_of_neg (by simp [isDir]), absent]
          simp [same, Option.filter, isDir]
        · rw [List.find?_cons_of_pos (by simp [same, isDir])]
          simp [same, Option.filter, isDir]
      · simpa [List.find?_cons, same] using induction fresh.2

theorem isFile_child (vfs : Vfs) (dir : AbsPath) (name : FileName) :
    vfs.isFile (dir.child name).text =
      ((vfs.world.files.get? (dir.child name).text).map (vfs.worldNode name.1)).or
        ((vfs.skeletonNode dir name).filter (·.kind ≠ .dir)) := by
  simp only [isFile, normpath_text, split_child]
  have base : (vfs.skeleton.lookup dir.text).getD [] = vfs.baseEntries dir := rfl
  rw [base, find?_notDir (vfs.baseEntries_nodup dir)]
  cases vfs.world.files.get? (dir.child name).text <;> rfl

theorem statNode_isSome_iff (vfs : Vfs) (path : Str) :
    (vfs.statNode path).isSome ↔ (vfs.isFile path).isSome ∨ vfs.isDir path = true := by
  simp only [statNode]
  cases vfs.isFile path <;> cases vfs.isDir path <;> simp

theorem statNode_of_get? {path : Str} {fact : FileFact}
    (found : vfs.world.files.get? (normpath path) = some fact) :
    ∃ name, vfs.statNode (normpath path) = some (vfs.worldNode name fact) := by
  refine ⟨(split (normpath path)).2, ?_⟩
  simp only [statNode, isFile, normpath_normpath, found]

theorem statNode_congr {first second : Vfs} {path : Str} (user : first.username = second.username)
    (same : first.world.files.get? (normpath path) = second.world.files.get? (normpath path)) :
    first.statNode (normpath path) = second.statNode (normpath path) := by
  simp only [statNode, isFile, isDir, normpath_normpath, same, worldNode, skeleton, home, user]

def anyDir (name : Str) : Node := { name, kind := .dir, mode := 0o755 }

theorem statNode_child (vfs : Vfs) (dir : AbsPath) (name : FileName) :
    vfs.statNode (dir.child name).text =
      match vfs.world.files.get? (dir.child name).text, vfs.skeletonNode dir name with
      | some fact, _ => some (vfs.worldNode name.1 fact)
      | none, some node => some (if node.kind = .dir then anyDir name.1 else node)
      | none, none =>
          if (vfs.skeleton.lookup (dir.child name).text).isSome then some (anyDir name.1)
          else none := by
  have isDir := @isDir_child_iff vfs dir name
  simp only [statNode, isFile_child, split_child, if_neg name.2.1]
  cases vfs.world.files.get? (dir.child name).text with
  | some fact => rfl
  | none =>
      cases inBase : vfs.skeletonNode dir name with
      | none =>
          simp only [inBase, reduceCtorEq, false_and, exists_false, or_false] at isDir
          simp only [Option.map_none, Option.filter_none, Option.or_none, isDir]
          rfl
      | some node =>
          by_cases kind : node.kind = .dir
          · have known := isDir.mpr (.inr ⟨node, inBase, kind⟩)
            simp [Option.filter, kind, known, anyDir]
          · simp [Option.filter, kind]

end Vfs

end LlmHoneypot
