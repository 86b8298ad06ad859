import LlmHoneypot.Vfs.Overlay

/-! # Agreement of the views

`ls` goes through the session files by their directory, `stat` looks one up by its
path. When the two say the same of an entry. -/

namespace LlmHoneypot

namespace Vfs

variable {vfs : Vfs} {dir : AbsPath} {name : FileName}

structure SameReport (listed stated : Node) : Prop where
  kind : listed.kind = stated.kind
  size : listed.size = stated.size
  mode : listed.mode = stated.mode

/-- Where `ls` lists the directory, `stat` finds it, finds the entry exactly if it is
listed, and reports the same of it. -/
def LsStatAgree (vfs : Vfs) (dir : AbsPath) (name : FileName) : Prop :=
  ∀ entries, vfs.listing dir = some entries →
    ((∃ node ∈ entries, node.name = name.1) ↔ (vfs.statNode (dir.child name).text).isSome) ∧
    (∀ listed ∈ entries, ∀ stated, listed.name = name.1 →
      vfs.statNode (dir.child name).text = some stated → SameReport listed stated) ∧
    (vfs.statNode dir.text).isSome

/-- The entry of the skeleton and the session files under it say the same:
* an edited skeleton file keeps its size and has the mode of session files;
* a directory has the size and the mode that `stat` gives to every directory;
* of several spellings of a path, the first recorded has the size of the normal one;
* what is filed there is recorded under the normal path, and the skeleton has no
  directory there that it does not list. -/
def EntryCoherent (vfs : Vfs) (dir : AbsPath) (name : FileName) : Prop :=
  match vfs.skeletonNode dir name, vfs.world.files.get? (dir.child name).text with
  | some node, some fact => node.kind = .file ∧ node.size = fact.sizeBytes ∧ node.mode = 0o644
  | some node, none => node.kind = .dir → node.size = 4096 ∧ node.mode = 0o755
  | none, some fact =>
      ∃ first, vfs.filedAs dir name = some first ∧ first.sizeBytes = fact.sizeBytes
  | none, none =>
      vfs.filedAs dir name = none ∧ vfs.skeleton.lookup (dir.child name).text = none

structure Coherent (vfs : Vfs) (dir : AbsPath) (name : FileName) : Prop where
  /-- A path with session files under it is a directory of the skeleton, or a file. -/
  known : vfs.Holds dir → vfs.isDir dir.text = true ∨ (vfs.isFile dir.text).isSome
  entry : vfs.isDir dir.text = true →
    (vfs.skeleton.lookup dir.text).isSome ∨ vfs.Holds dir → EntryCoherent vfs dir name

theorem entryCoherent_iff :
    EntryCoherent vfs dir name ↔
      Option.Rel SameReport (vfs.listedNode dir name) (vfs.statNode (dir.child name).text) := by
  rw [statNode_child, EntryCoherent, listedNode]
  cases vfs.skeletonNode dir name with
  | some node =>
      cases vfs.world.files.get? (dir.child name).text with
      | some fact =>
          rw [Option.some_or, Option.rel_some_some]
          constructor
          · rintro ⟨kind, size, mode⟩
            exact ⟨kind, size, mode⟩
          · rintro ⟨kind, size, mode⟩
            exact ⟨kind, size, mode⟩
      | none =>
          simp only [Option.some_or, Option.rel_some_some]
          split
          · rename_i kind
            constructor
            · intro same
              exact ⟨kind, (same kind).1, (same kind).2⟩
            · rintro ⟨_, size, mode⟩ _
              exact ⟨size, mode⟩
          · rename_i kind
            constructor
            · intro _
              exact ⟨rfl, rfl, rfl⟩
            · intro _ isDir
              exact absurd isDir kind
  | none =>
      cases vfs.world.files.get? (dir.child name).text with
      | some fact =>
          cases vfs.filedAs dir name with
          | some first =>
              simp only [Option.none_or, Option.map_some, Option.rel_some_some,
                Option.some.injEq, exists_eq_left']
              constructor
              · intro size
                exact ⟨rfl, size, rfl⟩
              · rintro ⟨_, size, _⟩
                exact size
          | none => simp
      | none =>
          cases vfs.skeleton.lookup (dir.child name).text with
          | some nodes =>
              cases vfs.filedAs dir name with
              | some first =>
                  suffices ¬ SameReport (vfs.worldNode name.1 first) (anyDir name.1) by simpa
                  rintro ⟨kind, -, -⟩
                  cases kind
              | none => simp
          | none => cases vfs.filedAs dir name <;> simp

theorem lsStatAgree_of_listing {entries : List Node} (listed : vfs.listing dir = some entries) :
    LsStatAgree vfs dir name ↔
      Option.Rel SameReport (vfs.listedNode dir name) (vfs.statNode (dir.child name).text) ∧
        vfs.isDir dir.text = true := by
  rcases listing_eq_some_iff.mp listed with ⟨entriesOf, target⟩
  have found : (vfs.statNode dir.text).isSome ↔ vfs.isDir dir.text = true := by
    rw [statNode_isSome_iff]
    rcases target with known | notFile
    · simp [known]
    · simp [notFile]
  have present : (∃ node ∈ entries, node.name = name.1) ↔ (vfs.listedNode dir name).isSome := by
    rw [Option.isSome_iff_exists]
    exact exists_congr fun node => mem_dirEntries_iff entriesOf
  have reported : (∀ listed ∈ entries, ∀ stated, listed.name = name.1 →
      vfs.statNode (dir.child name).text = some stated → SameReport listed stated) ↔
      ∀ listed stated, vfs.listedNode dir name = some listed →
        vfs.statNode (dir.child name).text = some stated → SameReport listed stated := by
    constructor
    · intro same listed stated named stat
      have member := (mem_dirEntries_iff entriesOf).mpr named
      exact same listed member.1 stated member.2 stat
    · intro same listed member stated named stat
      exact same listed stated ((mem_dirEntries_iff entriesOf).mp ⟨member, named⟩) stat
  have agree : LsStatAgree vfs dir name ↔
      ((∃ node ∈ entries, node.name = name.1) ↔
        (vfs.statNode (dir.child name).text).isSome) ∧
      (∀ listed ∈ entries, ∀ stated, listed.name = name.1 →
        vfs.statNode (dir.child name).text = some stated → SameReport listed stated) ∧
      (vfs.statNode dir.text).isSome := by
    simp only [LsStatAgree, listed, Option.some.injEq, forall_eq']
  rw [agree, present, reported, found, ← and_assoc]
  apply and_congr_left'
  cases vfs.listedNode dir name <;> cases vfs.statNode (dir.child name).text <;> simp

theorem lsStatAgree_iff (vfs : Vfs) (dir : AbsPath) (name : FileName) :
    LsStatAgree vfs dir name ↔ Coherent vfs dir name := by
  cases listed : vfs.listing dir with
  | some entries =>
      rcases listing_eq_some_iff.mp listed with ⟨entriesOf, target⟩
      have shown : (vfs.skeleton.lookup dir.text).isSome ∨ vfs.Holds dir :=
        dirEntries_isSome_iff.mp (by rw [entriesOf]; rfl)
      rw [lsStatAgree_of_listing listed, ← entryCoherent_iff]
      constructor
      · rintro ⟨entry, known⟩
        exact ⟨fun _ => .inl known, fun _ _ => entry⟩
      · rintro ⟨known, entry⟩
        have isDir : vfs.isDir dir.text = true := by
          rcases target with isDir | notFile
          · exact isDir
          · rcases shown with inSkeleton | holds
            · simp [isDir, inSkeleton]
            · simpa [notFile] using known holds
        exact ⟨entry isDir shown, isDir⟩
  | none =>
      have hidden : ∀ entries, vfs.dirEntries dir.text = some entries →
          vfs.isDir dir.text ≠ true ∧ vfs.isFile dir.text ≠ none := by
        intro entries entriesOf
        rw [← not_or]
        intro target
        have shown := listing_eq_some_iff.mpr ⟨entriesOf, target⟩
        rw [listed] at shown
        cases shown
      constructor
      · intro _
        constructor
        · intro holds
          rcases Option.isSome_iff_exists.mp (dirEntries_isSome_iff.mpr (.inr holds)) with
            ⟨entries, entriesOf⟩
          exact .inr (Option.isSome_iff_ne_none.mpr (hidden entries entriesOf).2)
        · intro known shown
          rcases Option.isSome_iff_exists.mp (dirEntries_isSome_iff.mpr shown) with
            ⟨entries, entriesOf⟩
          exact absurd known (hidden entries entriesOf).1
      · intro _ entries again
        rw [listed] at again
        cases again

/-! ## Well placed files -/

def untouched (username : Str) : Vfs := ⟨{}, username⟩

/-- A normal absolute path to a new entry of a directory of the skeleton. -/
def WellPlaced (username path : Str) : Prop :=
  ∃ dir name, path = (AbsPath.child dir name).text ∧
    ((untouched username).skeleton.lookup dir.text).isSome ∧
    (untouched username).skeletonNode dir name = none

/-- The skeleton's entry is no directory with a size or a mode of its own. -/
def Ordinary (username : Str) (dir : AbsPath) (name : FileName) : Prop :=
  ∀ node, (untouched username).skeletonNode dir name = some node → node.kind = .dir →
    node.size = 4096 ∧ node.mode = 0o755

private theorem child_of_text {text : Str} (path : AbsPath) (isText : path.text = text)
    (same : (dir.child name).text = text) : dir = path.parent ∧ name.1 = path.base := by
  have equal := AbsPath.text_injective (same.trans isText.symm)
  rw [← equal]
  simp

private theorem stem_eq_text (started : dir.text ≠ "/".toList) : dir.stem = dir.text := by
  rw [AbsPath.text, if_neg]
  intro empty
  rw [AbsPath.text, if_pos empty] at started
  exact started rfl

theorem home_child (homed : (dir.child name).text = vfs.home)
    (known : (vfs.skeleton.lookup dir.text).isSome) : (vfs.skeletonNode dir name).isSome := by
  rcases vfs with ⟨world, username⟩
  rw [skeleton, lookup_isSome_iff] at known
  simp only [home, Responder.homeFor] at homed known
  by_cases isRoot : username = "root".toList
  · rw [if_pos isRoot] at homed
    rcases child_of_text (AbsPath.ofText "/root".toList) (by decide) homed with ⟨rfl, named⟩
    have nameEq : name = ⟨"root".toList, by decide⟩ := Subtype.ext named
    subst nameEq
    rfl
  · rw [if_neg isRoot] at homed known
    have plain := name.2.2.2.2
    have home : dir.text = "/home".toList := by
      rw [AbsPath.text_child] at homed
      by_cases top : dir.text = "/".toList
      · have stem : dir.stem = [] := by
          rw [AbsPath.text_injective (top.trans (rfl : _ = AbsPath.root.text))]
          rfl
        rw [stem] at homed
        have nameEq : name.1 = "home/".toList ++ username := by simpa using homed
        rw [nameEq] at plain
        simp at plain
      · rw [stem_eq_text top] at homed
        simp only [List.mem_cons, List.not_mem_nil, or_false] at known
        rcases known with equal | equal | equal | equal | equal | equal | equal
        · exact absurd equal top
        · exact equal
        · have lengths := congrArg List.length homed
          rw [equal] at lengths
          simp at lengths
        all_goals
          rw [equal] at homed
          simp at homed
    have base : (⟨world, username⟩ : Vfs).baseEntries dir = homesEntries username := by
      rw [baseEntries, home]
      rfl
    have named : name.1 = username := by
      rw [AbsPath.text_child, stem_eq_text (by rw [home]; decide), home] at homed
      simpa using homed
    rw [skeletonNode, base, homesEntries, if_neg isRoot]
    simp [named]

theorem skeletonNode_isSome (known : (vfs.skeleton.lookup dir.text).isSome)
    (inside : (vfs.skeleton.lookup (dir.child name).text).isSome) :
    (vfs.skeletonNode dir name).isSome := by
  have unlisted : ∀ parent ∈ ["/var".toList, "/dev".toList],
      (vfs.skeleton.lookup parent).isSome = false := by
    intro parent member
    rw [← Bool.not_eq_true, skeleton, lookup_isSome_iff, home, Responder.homeFor]
    split <;> simp at member <;> rcases member with rfl | rfl <;> simp
  have topNode : ∀ node : FileName, name.1 = node.1 → dir = AbsPath.root →
      (vfs.skeletonNode AbsPath.root node).isSome → (vfs.skeletonNode dir name).isSome := by
    intro node named top some
    rw [top, Subtype.ext named]
    exact some
  have listed := inside
  rw [skeleton, lookup_isSome_iff] at listed
  simp only [List.mem_cons, List.not_mem_nil, or_false] at listed
  rcases listed with equal | equal | equal | equal | equal | equal | equal
  · rcases child_of_text AbsPath.root rfl equal with ⟨-, empty⟩
    exact absurd empty name.2.1
  · rcases child_of_text (AbsPath.ofText "/home".toList) (by decide) equal with ⟨top, named⟩
    exact topNode ⟨"home".toList, by decide⟩ named top rfl
  · exact home_child equal known
  · rcases child_of_text (AbsPath.ofText "/tmp".toList) (by decide) equal with ⟨top, named⟩
    exact topNode ⟨"tmp".toList, by decide⟩ named top rfl
  · rcases child_of_text (AbsPath.ofText "/var/tmp".toList) (by decide) equal with ⟨rfl, -⟩
    rw [unlisted _ (by decide)] at known
    cases known
  · rcases child_of_text (AbsPath.ofText "/dev/shm".toList) (by decide) equal with ⟨rfl, -⟩
    rw [unlisted _ (by decide)] at known
    cases known
  · rcases child_of_text (AbsPath.ofText "/etc".toList) (by decide) equal with ⟨top, named⟩
    exact topNode ⟨"etc".toList, by decide⟩ named top rfl

theorem wellPlaced_filed {path : Str} (placed : WellPlaced vfs.username path)
    (filed : (split path).1 = dir.text) :
    (vfs.skeleton.lookup dir.text).isSome ∧
      ∀ name : FileName, split path = (dir.text, name.1) →
        path = (dir.child name).text ∧ vfs.skeletonNode dir name = none := by
  rcases placed with ⟨parent, base, rfl, known, fresh⟩
  rw [split_child] at filed
  cases AbsPath.text_injective filed
  refine ⟨known, fun name same => ?_⟩
  rw [split_child, Prod.mk.injEq] at same
  cases (Subtype.ext same.2 : base = name)
  exact ⟨rfl, fresh⟩

theorem coherent_of_wellPlaced (placed : ∀ path ∈ vfs.world.files.keys, WellPlaced vfs.username path)
    (ordinary : Ordinary vfs.username dir name) : Coherent vfs dir name := by
  have inSkeleton : vfs.Holds dir → (vfs.skeleton.lookup dir.text).isSome := by
    rintro ⟨path, member, filed⟩
    exact (wellPlaced_filed (placed path member) filed).1
  have filedAt : ∀ entry, vfs.world.files.entries.find?
      (fun entry => split entry.1 = (dir.text, name.1)) = some entry →
      vfs.skeletonNode dir name = none ∧
        vfs.world.files.get? (dir.child name).text = some entry.2 := by
    intro entry found
    have member := List.mem_of_find?_eq_some found
    have same : split entry.1 = (dir.text, name.1) := by simpa using List.find?_some found
    have key : entry.1 ∈ vfs.world.files.keys := List.mem_map_of_mem member
    rcases (wellPlaced_filed (placed _ key) (by rw [same])).2 name same with ⟨equal, fresh⟩
    rw [← equal]
    exact ⟨fresh, Dict.mem_entries_iff.mp member⟩
  constructor
  · intro holds
    have known := inSkeleton holds
    exact .inl (by simp [isDir, known])
  · intro isDir shown
    have known : (vfs.skeleton.lookup dir.text).isSome := shown.elim id inSkeleton
    unfold EntryCoherent
    cases inBase : vfs.skeletonNode dir name with
    | some node =>
        cases stored : vfs.world.files.get? (dir.child name).text with
        | some fact =>
            have key := Dict.mem_keys_iff.mpr ⟨fact, stored⟩
            have fresh := (@wellPlaced_filed _ dir _ (placed _ key) (by rw [split_child])).2
              name (split_child dir name)
            rw [inBase] at fresh
            cases fresh.2
        | none => exact ordinary node inBase
    | none =>
        cases stored : vfs.world.files.get? (dir.child name).text with
        | some fact =>
            have member : ((dir.child name).text, fact) ∈ vfs.world.files.entries :=
              Dict.mem_entries_iff.mpr stored
            cases found : vfs.world.files.entries.find?
                (fun entry => split entry.1 = (dir.text, name.1)) with
            | none =>
                have other := List.find?_eq_none.mp found _ member
                simp [split_child] at other
            | some entry =>
                have same := (filedAt entry found).2
                rw [stored, Option.some.injEq] at same
                exact ⟨entry.2, by simp [filedAs, found], by rw [same]⟩
        | none =>
            constructor
            · cases found : vfs.world.files.entries.find?
                  (fun entry => split entry.1 = (dir.text, name.1)) with
              | none => simp [filedAs, found]
              | some entry =>
                  have same := (filedAt entry found).2
                  rw [stored] at same
                  cases same
            · rw [← Option.not_isSome_iff_eq_none]
              intro inside
              have some := skeletonNode_isSome known inside
              rw [inBase] at some
              cases some

end Vfs

end LlmHoneypot
