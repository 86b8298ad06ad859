import LlmHoneypot.HoneyFs.Resolution

/-! # Renaming

`HoneyPotFilesystem.rename`, and when it moves one entry and nothing else or leaves the tree
as it was. -/

namespace LlmHoneypot

namespace HoneyFs

def HoneyPotFilesystem.setName (tree : HoneyPotFilesystem) (reference : Nat) (name : Str) :
    HoneyPotFilesystem :=
  tree.modify reference fun entry => { entry with name }

def HoneyPotFilesystem.rename (tree : HoneyPotFilesystem) (limit : Nat) (oldpath newpath : Str) :
    HoneyPotFilesystem × Except Raised Unit :=
  match tree.getfile true limit oldpath with
  | .error raised => (tree, .error raised)
  | .ok none => (tree, .error (.osError .ENOENT))
  | .ok (some old) =>
      match tree.getfile true limit newpath with
      | .error raised => (tree, .error raised)
      | .ok (some _) => (tree, .error (.osError .EEXIST))
      | .ok none =>
          match tree.getPath limit (OsPath.dirname oldpath) >>= (tree.remove limit · old) with
          | .error raised => (tree, .error raised)
          | .ok unlinked =>
              let renamed := unlinked.setName old (OsPath.basename newpath)
              match renamed.getPath limit (OsPath.dirname newpath) >>= (renamed.append · old) with
              | .error raised => (renamed, .error raised)
              | .ok moved => (moved, .ok ())

/-- A well-formed tree in which an entry stands in one directory at most, and the root in
none. -/
structure TreeShaped (tree : HoneyPotFilesystem) : Prop extends WellFormed tree where
  parent : ∀ child left right, child ∈ tree.children left → child ∈ tree.children right →
    left = right
  top : ∀ reference, tree.fs ∉ tree.children reference

section

variable (tree : HoneyPotFilesystem) (limit : Nat)

structure Names (path : Str) (directory found : Nat) : Prop where
  reached : tree.getPath limit (OsPath.dirname path) = .ok directory
  named : Posix.child tree directory (OsPath.basename path) = some found

def without (directory found : Nat) : HoneyPotFilesystem :=
  tree.setChildren directory ((tree.children directory).erase found)

structure Destination (path : Str) (directory found target : Nat) : Prop where
  reached : (without tree directory found).getPath limit (OsPath.dirname path) = .ok target
  isDir : (tree.entry target).type = .dir
  apart : target ≠ found
  isName : IsFileName (OsPath.basename path)
  free : ∀ child ∈ tree.children target, child ≠ found →
    (tree.entry child).name ≠ OsPath.basename path

structure MovedTo (after : HoneyPotFilesystem) (directory found target : Nat) (name : Str) :
    Prop where
  left : directory ≠ target →
    (after.children directory).Perm ((tree.children directory).erase found)
  arrived : (after.children target).Perm ((tree.children target).erase found ++ [found])
  contents : ∀ other, other ≠ directory → other ≠ target →
    (after.entry other).contents = (tree.entry other).contents
  names : ∀ other, (after.entry other).name =
    if other = found then name else (tree.entry other).name
  attributes : ∀ other, { after.entry other with
    name := (tree.entry other).name, contents := (tree.entry other).contents } = tree.entry other
  rest : after = { tree with heap := after.heap } ∧ after.heap.next = tree.heap.next

def Moved (after : HoneyPotFilesystem) (oldpath newpath : Str) : Prop :=
  ∃ directory found target, Names tree limit oldpath directory found ∧
    Destination tree limit newpath directory found target ∧
    MovedTo tree after directory found target (OsPath.basename newpath)

/-- One entry is moved, or the call raises an `OSError` and nothing has changed. -/
def Atomic (oldpath newpath : Str) : Prop :=
  match tree.rename limit oldpath newpath with
  | (after, .ok ()) => Moved tree limit after oldpath newpath
  | (after, .error (.osError _)) => after = tree
  | (_, .error _) => False

/-- The old path names an entry that is no link, the new one nothing yet, and there is a
directory for it. -/
def Movable (oldpath newpath : Str) : Prop :=
  tree.getfile true limit newpath = .ok none ∧
    ∃ directory found target, tree.getfile true limit oldpath = .ok (some found) ∧
      Names tree limit oldpath directory found ∧
      Destination tree limit newpath directory found target

end

/-! ## What a lookup raises -/

section

variable {tree : HoneyPotFilesystem} {limit : Nat}

def Quiet {Result : Type} (result : Except Raised Result) : Prop :=
  ∀ errno, result ≠ .error (.osError errno)

theorem Quiet.ok {Result : Type} (result : Result) : Quiet (.ok result : Except Raised Result) := by
  intro errno equal
  cases equal

theorem Quiet.bind {First Result : Type} {first : Except Raised First}
    {next : First → Except Raised Result} (quiet : Quiet first)
    (onward : ∀ given, Quiet (next given)) : Quiet (first >>= next) := by
  intro errno equal
  cases first with
  | error raised =>
      cases equal
      exact quiet errno rfl
  | ok given => exact onward given errno equal

theorem ok_of_bind {First Result : Type} {first : Except Raised First}
    {next : First → Except Raised Result} {result : Result} (equal : first >>= next = .ok result) :
    ∃ given, first = .ok given ∧ next given = .ok result := by
  cases first with
  | error raised => cases equal
  | ok given => exact ⟨given, rfl, equal⟩

theorem Quiet.map {First Result : Type} {first : Except Raised First} (quiet : Quiet first)
    (change : First → Result) : Quiet (first.map change) := by
  intro errno equal
  cases first with
  | error raised =>
      cases equal
      exact quiet errno rfl
  | ok given => cases equal

theorem linkPath_quiet (target : Option Str) : Quiet (HoneyPotFilesystem.linkPath target) := by
  intro errno equal
  rcases target with _ | _ | _ <;> cases equal

theorem visit_quiet {resolve : Str → Except Raised (Option Nat)}
    (quiet : ∀ path, Quiet (resolve path))
    {final follow : Bool} {piece : Str} (entries : List Nat) (reached : Nat) :
    Quiet (tree.visit resolve final follow piece entries reached) := by
  induction entries generalizing reached with
  | nil => exact Quiet.ok _
  | cons x rest induction =>
      rw [HoneyPotFilesystem.visit]
      split
      · exact induction reached
      · split
        · exact induction x
        · split
          · apply (linkPath_quiet _).bind
            intro path
            apply (quiet path).bind
            intro led
            cases led with
            | none => exact Quiet.ok _
            | some file => exact induction file
          · exact induction x

theorem walk_quiet {resolve : Str → Except Raised (Option Nat)}
    (quiet : ∀ path, Quiet (resolve path))
    {last : Str} {follow : Bool} (pieces : List Str) (reached : Nat) :
    Quiet (tree.walk resolve last follow pieces reached) := by
  induction pieces generalizing reached with
  | nil => exact Quiet.ok _
  | cons piece pieces induction =>
      have names : Quiet (tree.names (tree.entry reached).contents) := by
        intro errno equal
        rcases contents : (tree.entry reached).contents with _ | _ | _ <;>
          rw [contents] at equal <;> cases equal
      rw [HoneyPotFilesystem.walk]
      apply names.bind
      intro listed
      split
      · exact Quiet.ok _
      · apply (visit_quiet quiet _ _).bind
        intro next
        cases next with
        | none => exact Quiet.ok _
        | some next => exact induction next

theorem getfile_quiet (follow : Bool) (limit : Nat) (path : Str) :
    Quiet (tree.getfile follow limit path) := by
  induction limit generalizing path with
  | zero =>
      intro errno equal
      cases equal
  | succ limit induction =>
      rw [HoneyPotFilesystem.getfile]
      split
      · exact Quiet.ok _
      · exact walk_quiet induction _ _

theorem getPath_quiet (path : Str) : Quiet (tree.getPath limit path) := by
  have enters (cwd : Nat) (part : Str) : Quiet (tree.enter limit true cwd part) := by
    rw [HoneyPotFilesystem.enter]
    split
    · exact Quiet.ok _
    · split
      · intro errno equal
        cases equal
      · split
        · intro errno equal
          cases equal
        · split
          · split
            · intro errno equal
              cases equal
            · apply (getfile_quiet true limit _).bind
              intro led
              cases led with
              | none =>
                  intro errno equal
                  cases equal
              | some file => exact Quiet.ok _
          · exact Quiet.ok _
  rw [HoneyPotFilesystem.getPath]
  generalize tree.fs = cwd
  induction Text.splitChar '/' path generalizing cwd with
  | nil => exact Quiet.ok _
  | cons part parts induction =>
      rw [List.foldlM_cons]
      apply (enters cwd part).bind
      intro next
      exact induction next

theorem append_quiet (directory reference : Nat) : Quiet (tree.append directory reference) := by
  rw [HoneyPotFilesystem.append]
  intro errno equal
  split at equal <;> cases equal

theorem same_quiet (limit left right : Nat) : Quiet (tree.same limit left right) := by
  induction limit generalizing left right with
  | zero =>
      intro errno equal
      cases equal
  | succ limit induction =>
      have all (lefts rights : List Nat) :
          Quiet (HoneyPotFilesystem.sameAll (tree.same limit) lefts rights) := by
        induction lefts generalizing rights with
        | nil => exact Quiet.ok _
        | cons left lefts later =>
            cases rights with
            | nil => exact Quiet.ok _
            | cons right rights =>
                apply (induction left right).bind
                intro agrees
                split
                · exact later rights
                · exact Quiet.ok _
      rw [HoneyPotFilesystem.same]
      dsimp only
      split
      · exact Quiet.ok _
      · split
        · exact Quiet.ok _
        · split
          · split
            · exact Quiet.ok _
            · exact (all _ _).map _
          · exact Quiet.ok _
          · exact Quiet.ok _

theorem removeFrom_quiet (limit reference : Nat) (entries : List Nat) :
    Quiet (tree.removeFrom limit reference entries) := by
  induction entries with
  | nil =>
      intro errno equal
      cases equal
  | cons first rest induction =>
      apply (same_quiet limit first reference).bind
      intro agrees
      split
      · exact Quiet.ok _
      · exact induction.map _

theorem remove_quiet (directory reference : Nat) :
    Quiet (tree.remove limit directory reference) := by
  rw [HoneyPotFilesystem.remove]
  split
  · intro errno equal
    cases equal
  · exact (removeFrom_quiet limit reference _).map _

end

/-! ## A name that no lookup meets -/

section

structure Alike (left right : HoneyPotFilesystem) : Prop where
  root : left.fs = right.fs
  types : ∀ reference, (left.entry reference).type = (right.entry reference).type
  targets : ∀ reference, (left.entry reference).target = (right.entry reference).target
  contents : ∀ reference, (left.entry reference).contents = (right.entry reference).contents
  names : ∀ reference, ∀ child ∈ left.children reference,
    (left.entry child).name = (right.entry child).name

variable {left right : HoneyPotFilesystem}

theorem find_names (part : Str) {entries : List Nat}
    (names : ∀ child ∈ entries, (left.entry child).name = (right.entry child).name) :
    (entries.find? fun c => (left.entry c).name = part) =
      entries.find? fun c => (right.entry c).name = part := by
  induction entries with
  | nil => rfl
  | cons first rest induction =>
      rw [List.find?_cons, List.find?_cons, names first (List.mem_cons_self ..),
        induction fun child member => names child (List.mem_cons_of_mem _ member)]

variable (alike : Alike left right)

include alike

theorem Alike.children (reference : Nat) : left.children reference = right.children reference := by
  rw [HoneyPotFilesystem.children, alike.contents]
  rfl

theorem Alike.visit {resolve : Str → Except Raised (Option Nat)} {final follow : Bool}
    {piece : Str} {entries : List Nat}
    (names : ∀ child ∈ entries, (left.entry child).name = (right.entry child).name)
    (reached : Nat) : left.visit resolve final follow piece entries reached =
      right.visit resolve final follow piece entries reached := by
  induction entries generalizing reached with
  | nil => rfl
  | cons x rest induction =>
      have later := induction fun child member => names child (List.mem_cons_of_mem _ member)
      simp only [HoneyPotFilesystem.visit, names x (List.mem_cons_self ..), alike.types,
        alike.targets, later]

theorem Alike.walk {resolve : Str → Except Raised (Option Nat)} {last : Str} {follow : Bool}
    (pieces : List Str) (reached : Nat) :
    left.walk resolve last follow pieces reached =
      right.walk resolve last follow pieces reached := by
  induction pieces generalizing reached with
  | nil => rfl
  | cons piece pieces induction =>
      have names : left.names (left.entry reached).contents =
          right.names (right.entry reached).contents := by
        have equal := alike.names reached
        rw [HoneyPotFilesystem.children, alike.contents] at equal
        rw [alike.contents]
        rcases contents : (right.entry reached).contents with entries | _ | _
        · rw [contents] at equal
          exact congrArg Except.ok (List.map_congr_left equal)
        · rfl
        · rfl
      have visits := @Alike.visit left right alike resolve (piece = last) follow piece _
        (alike.names reached) reached
      rw [alike.children reached] at visits
      simp only [HoneyPotFilesystem.walk, names, visits, induction, alike.children]

theorem Alike.getfile (follow : Bool) (limit : Nat) (path : Str) :
    left.getfile follow limit path = right.getfile follow limit path := by
  induction limit generalizing path with
  | zero => rfl
  | succ limit induction =>
      have resolves : left.getfile follow limit = right.getfile follow limit := funext induction
      rw [HoneyPotFilesystem.getfile, HoneyPotFilesystem.getfile, resolves, alike.root]
      split
      · rfl
      · exact alike.walk _ _

theorem Alike.getPath (limit : Nat) (path : Str) :
    left.getPath limit path = right.getPath limit path := by
  have enters : left.enter limit true = right.enter limit true := by
    funext cwd part
    rw [HoneyPotFilesystem.enter, HoneyPotFilesystem.enter]
    split
    · rfl
    · have equal := alike.names cwd
      rw [HoneyPotFilesystem.children] at equal
      rw [← alike.contents]
      rcases contents : (left.entry cwd).contents with entries | data
      · rw [contents] at equal
        simp only [find_names part equal, alike.types, alike.targets, alike.getfile]
      · rfl
  rw [HoneyPotFilesystem.getPath, HoneyPotFilesystem.getPath, enters, alike.root]

end

/-! ## One entry less -/

section

variable {tree : HoneyPotFilesystem}

theorem entry_modify (reference : Nat) (change : Entry → Entry) (other : Nat) :
    (tree.modify reference change).entry other =
      if other = reference then change (tree.entry reference) else tree.entry other := by
  split
  · rename_i same
    rw [same]
    exact Heap.read_modify_self ..
  · rename_i differs
    exact Heap.read_modify_other _ differs

theorem entry_setName (reference : Nat) (name : Str) (other : Nat) :
    (tree.setName reference name).entry other =
      if other = reference then { tree.entry other with name } else tree.entry other := by
  rw [HoneyPotFilesystem.setName, entry_modify]
  split
  · rename_i same
    rw [same]
  · rfl

theorem entry_setChildren (directory : Nat) (entries : List Nat) (other : Nat) :
    (tree.setChildren directory entries).entry other =
      if other = directory then { tree.entry other with contents := .list entries }
      else tree.entry other := by
  rw [HoneyPotFilesystem.setChildren, entry_modify]
  split
  · rename_i same
    rw [same]
  · rfl

theorem children_setName (reference : Nat) (name : Str) (other : Nat) :
    (tree.setName reference name).children other = tree.children other := by
  rw [HoneyPotFilesystem.children, HoneyPotFilesystem.children, entry_setName]
  by_cases same : other = reference
  · rw [if_pos same]
  · rw [if_neg same]

theorem children_setChildren (directory : Nat) (entries : List Nat) (other : Nat) :
    (tree.setChildren directory entries).children other =
      if other = directory then entries else tree.children other := by
  rw [HoneyPotFilesystem.children, entry_setChildren]
  by_cases same : other = directory
  · rw [if_pos same, if_pos same]
  · rw [if_neg same, if_neg same]
    rfl

theorem TreeShaped.nodup (shaped : TreeShaped tree) (reference : Nat) :
    (tree.children reference).Nodup :=
  (shaped.names reference).of_map _

theorem TreeShaped.gone (shaped : TreeShaped tree) {directory found : Nat}
    (member : found ∈ tree.children directory) (reference : Nat) :
    found ∉ (without tree directory found).children reference := by
  rw [without, children_setChildren]
  split
  · exact (shaped.nodup directory).not_mem_erase
  · rename_i differs
    intro again
    exact differs (shaped.parent found reference directory again member)

theorem removeFrom_found {limit found : Nat} {entries : List Nat} (member : found ∈ entries)
    (unique : (entries.map fun child => (tree.entry child).name).Nodup) :
    tree.removeFrom (limit + 1) found entries = .ok (entries.erase found) := by
  induction entries with
  | nil => cases member
  | cons first rest induction =>
      rw [List.map_cons, List.nodup_cons] at unique
      by_cases same : first = found
      · have equal : tree.same (limit + 1) first found = .ok true := by
          rw [HoneyPotFilesystem.same]
          exact if_pos same
        rw [HoneyPotFilesystem.removeFrom, equal, same, List.erase_cons_head]
        rfl
      · have inRest : found ∈ rest := by
          rcases List.mem_cons.mp member with isFirst | inRest
          · exact absurd isFirst.symm same
          · exact inRest
        have named : (tree.entry first).name ≠ (tree.entry found).name := by
          intro equal
          exact unique.1 (List.mem_map.mpr ⟨found, inRest, equal.symm⟩)
        have differs : tree.same (limit + 1) first found = .ok false := by
          rw [HoneyPotFilesystem.same]
          dsimp only
          rw [if_neg same, if_pos]
          intro equal
          exact named (Prod.mk.inj equal).1
        rw [HoneyPotFilesystem.removeFrom, differs, List.erase_cons_tail (by simpa using same)]
        simp only [bind, Except.bind, induction inRest unique.2]
        rfl

theorem setName_alike {reference : Nat} (name : Str)
    (gone : ∀ directory, reference ∉ tree.children directory) :
    Alike (tree.setName reference name) tree := by
  have types (other : Nat) : ((tree.setName reference name).entry other).type =
      (tree.entry other).type := by
    rw [entry_setName]
    split <;> rfl
  have targets (other : Nat) : ((tree.setName reference name).entry other).target =
      (tree.entry other).target := by
    rw [entry_setName]
    split <;> rfl
  have contents (other : Nat) : ((tree.setName reference name).entry other).contents =
      (tree.entry other).contents := by
    rw [entry_setName]
    split <;> rfl
  have root : (tree.setName reference name).fs = tree.fs := rfl
  apply Alike.mk root types targets contents
  intro directory child isChild
  rw [children_setName] at isChild
  rw [entry_setName, if_neg]
  intro same
  rw [same] at isChild
  exact gone directory isChild

theorem remove_ok {limit directory reference : Nat} {left : HoneyPotFilesystem}
    (removes : tree.remove limit directory reference = .ok left) :
    ∃ entries, left = tree.setChildren directory entries := by
  rw [HoneyPotFilesystem.remove] at removes
  split at removes
  · cases removes
  · rename_i entries contents
    cases removed : tree.removeFrom limit reference entries with
    | error raised =>
        rw [removed] at removes
        cases removes
    | ok kept =>
        rw [removed] at removes
        exact ⟨kept, (Except.ok.inj removes).symm⟩

theorem append_ok {directory reference : Nat} {after : HoneyPotFilesystem}
    (appends : tree.append directory reference = .ok after) :
    after = tree.setChildren directory (tree.children directory ++ [reference]) := by
  rw [HoneyPotFilesystem.append] at appends
  rw [HoneyPotFilesystem.children]
  split at appends
  · cases appends
  · rename_i entries contents
    rw [contents]
    exact (Except.ok.inj appends).symm

/-! ## How the call ends -/

variable {limit : Nat} {oldpath newpath : Str} {after : HoneyPotFilesystem}

theorem rename_ok (succeeds : tree.rename limit oldpath newpath = (after, .ok ())) :
    ∃ old directory entries target others,
      tree.getfile true limit oldpath = .ok (some old) ∧
      tree.getfile true limit newpath = .ok none ∧
      tree.getPath limit (OsPath.dirname oldpath) = .ok directory ∧
      others = (tree.setChildren directory entries).setName old (OsPath.basename newpath) ∧
      after = others.setChildren target (others.children target ++ [old]) := by
  rw [HoneyPotFilesystem.rename] at succeeds
  split at succeeds
  · cases succeeds
  · cases succeeds
  · rename_i old oldFile
    split at succeeds
    · cases succeeds
    · cases succeeds
    · rename_i newFile
      split at succeeds
      · cases succeeds
      · rename_i unlinked unlinks
        dsimp only at succeeds
        split at succeeds
        · cases succeeds
        · rename_i moved appends
          rcases ok_of_bind unlinks with ⟨directory, reached, removes⟩
          rcases ok_of_bind appends with ⟨target, -, appended⟩
          rcases remove_ok removes with ⟨entries, rfl⟩
          have equal := append_ok appended
          rw [Prod.mk.injEq] at succeeds
          rw [succeeds.1] at equal
          exact ⟨old, directory, entries, target, _, oldFile, newFile, reached, rfl, equal⟩

theorem rename_osError {errno : Errno}
    (fails : tree.rename limit oldpath newpath = (after, .error (.osError errno))) :
    after = tree ∧ (tree.getfile true limit oldpath = .ok none ∨
      ∃ old new, tree.getfile true limit oldpath = .ok (some old) ∧
        tree.getfile true limit newpath = .ok (some new)) := by
  rw [HoneyPotFilesystem.rename] at fails
  split at fails
  · rename_i raised finds
    rw [Prod.mk.injEq, Except.error.injEq] at fails
    rw [fails.2] at finds
    exact absurd finds (getfile_quiet true limit oldpath errno)
  · rename_i missing
    rw [Prod.mk.injEq] at fails
    exact ⟨fails.1.symm, .inl missing⟩
  · rename_i old oldFile
    split at fails
    · rename_i raised finds
      rw [Prod.mk.injEq, Except.error.injEq] at fails
      rw [fails.2] at finds
      exact absurd finds (getfile_quiet true limit newpath errno)
    · rename_i new newFile
      rw [Prod.mk.injEq] at fails
      exact ⟨fails.1.symm, .inr ⟨old, new, oldFile, newFile⟩⟩
    · split at fails
      · rename_i raised unlinks
        rw [Prod.mk.injEq, Except.error.injEq] at fails
        rw [fails.2] at unlinks
        have quiet : Quiet (tree.getPath limit (OsPath.dirname oldpath) >>=
            (tree.remove limit · old)) :=
          (getPath_quiet _).bind fun directory => remove_quiet directory old
        exact absurd unlinks (quiet errno)
      · rename_i unlinked unlinks
        dsimp only at fails
        split at fails
        · rename_i raised appends
          rw [Prod.mk.injEq, Except.error.injEq] at fails
          rw [fails.2] at appends
          have quiet : Quiet ((unlinked.setName old (OsPath.basename newpath)).getPath limit
              (OsPath.dirname newpath) >>=
                ((unlinked.setName old (OsPath.basename newpath)).append · old)) :=
            (getPath_quiet _).bind fun directory => append_quiet directory old
          exact absurd appends (quiet errno)
        · cases fails

theorem rename_movable (shaped : TreeShaped tree) {directory found target : Nat}
    (oldFile : tree.getfile true limit oldpath = .ok (some found))
    (newFile : tree.getfile true limit newpath = .ok none)
    (place : Names tree limit oldpath directory found)
    (destination : Destination tree limit newpath directory found target) :
    tree.rename limit oldpath newpath =
      (((without tree directory found).setName found (OsPath.basename newpath)).setChildren target
        ((without tree directory found).children target ++ [found]), .ok ()) := by
  have member : found ∈ tree.children directory := List.mem_of_find?_eq_some place.named
  have room : ∃ more, limit = more + 1 := by
    cases limit with
    | zero => cases oldFile
    | succ more => exact ⟨more, rfl⟩
  rcases room with ⟨more, rfl⟩
  have listed (reference : Nat) (started : tree.children reference ≠ []) :
      (tree.entry reference).contents = .list (tree.children reference) :=
    shaped.listed reference (shaped.entries reference started)
  have removes : tree.remove (more + 1) directory found = .ok (without tree directory found) := by
    rw [HoneyPotFilesystem.remove, listed directory (List.ne_nil_of_mem member)]
    dsimp only
    rw [removeFrom_found member (shaped.names directory)]
    rfl
  have leads : ((without tree directory found).setName found (OsPath.basename newpath)).getPath
      (more + 1) (OsPath.dirname newpath) = .ok target := by
    rw [(setName_alike _ (shaped.gone member)).getPath]
    exact destination.reached
  have contents : (((without tree directory found).setName found
      (OsPath.basename newpath)).entry target).contents =
        .list ((without tree directory found).children target) := by
    rw [entry_setName, if_neg destination.apart, HoneyPotFilesystem.children, without,
      entry_setChildren]
    split
    · rfl
    · rw [shaped.listed target destination.isDir]
  have appends : ((without tree directory found).setName found (OsPath.basename newpath)).append
      target found = .ok (((without tree directory found).setName found
        (OsPath.basename newpath)).setChildren target
          ((without tree directory found).children target ++ [found])) := by
    rw [HoneyPotFilesystem.append, contents]
  have unlinks : (tree.getPath (more + 1) (OsPath.dirname oldpath) >>=
      (tree.remove (more + 1) · found)) = .ok (without tree directory found) := by
    rw [place.reached]
    exact removes
  rw [HoneyPotFilesystem.rename, oldFile]
  dsimp only
  rw [newFile]
  dsimp only
  rw [unlinks]
  dsimp only
  rw [leads]
  simp only [bind, Except.bind, appends]

theorem children_without (shaped : TreeShaped tree) {directory found : Nat}
    (member : found ∈ tree.children directory) (reference : Nat) :
    (without tree directory found).children reference = (tree.children reference).erase found := by
  rw [without, children_setChildren]
  split
  · rename_i same
    rw [same]
  · rename_i differs
    rw [List.erase_of_not_mem]
    intro again
    exact differs (shaped.parent found reference directory again member)

theorem movedTo_rename (shaped : TreeShaped tree) {directory found target : Nat}
    (member : found ∈ tree.children directory) (name : Str) :
    MovedTo tree (((without tree directory found).setName found name).setChildren target
      ((without tree directory found).children target ++ [found])) directory found target name := by
  constructor
  · intro differ
    rw [children_setChildren, if_neg differ, children_setName, children_without shaped member]
  · rw [children_setChildren, if_pos rfl, children_without shaped member]
  · intro other notDirectory notTarget
    rw [entry_setChildren, if_neg notTarget, entry_setName, without]
    split <;> rw [entry_setChildren, if_neg notDirectory]
  · intro other
    rw [entry_setChildren, entry_setName, without, entry_setChildren]
    by_cases isFound : other = found
    · rw [if_pos isFound, if_pos isFound]
      split <;> rfl
    · rw [if_neg isFound, if_neg isFound]
      split <;> split <;> rfl
  · intro other
    rw [entry_setChildren, entry_setName, without, entry_setChildren]
    split <;> split <;> split <;> rfl
  · exact ⟨rfl, rfl⟩

theorem moved_itself (shaped : TreeShaped tree) {old directory found target reached : Nat}
    {entries : List Nat} {others : HoneyPotFilesystem} {name : Str}
    (member : found ∈ tree.children directory)
    (given : others = (tree.setChildren directory entries).setName old name)
    (appended : after = others.setChildren reached (others.children reached ++ [old]))
    (free : ∀ child ∈ tree.children target, child ≠ found → (tree.entry child).name ≠ name)
    (moved : MovedTo tree after directory found target name) : old = found := by
  by_contra differ
  have childrenAfter (other : Nat) : after.children other =
      if other = reached then others.children reached ++ [old] else others.children other := by
    rw [appended, children_setChildren]
  have childrenOthers (other : Nat) : others.children other =
      if other = directory then entries else tree.children other := by
    rw [given, children_setName, children_setChildren]
  by_cases there : reached = target
  · have arrives : old ∈ after.children target := by
      rw [childrenAfter, if_pos there.symm]
      exact List.mem_append_right _ (List.mem_singleton_self old)
    have before : old ∈ tree.children target := by
      rcases List.mem_append.mp (moved.arrived.mem_iff.mp arrives) with inTarget | isFound
      · exact List.mem_of_mem_erase inTarget
      · exact absurd (List.mem_singleton.mp isFound) differ
    apply free old before differ
    have unchanged := moved.names old
    rw [if_neg differ] at unchanged
    rw [← unchanged, appended, entry_setChildren, given, entry_setName, if_pos rfl]
    split <;> rfl
  · have foundArrives : found ∈ after.children target := by
      apply moved.arrived.mem_iff.mpr
      exact List.mem_append_right _ (List.mem_singleton_self found)
    rw [childrenAfter, if_neg (Ne.symm there), childrenOthers] at foundArrives
    have isDirectory : target = directory := by
      by_contra other
      rw [if_neg other] at foundArrives
      exact other (shaped.parent found target directory foundArrives member)
    have elsewhere : reached ≠ directory := by
      rw [← isDirectory]
      exact there
    -- The directory that the entry was added to keeps its contents.
    have contents := moved.contents reached elsewhere there
    have same : after.children reached = tree.children reached := by
      rw [HoneyPotFilesystem.children, contents]
      rfl
    rw [childrenAfter, if_pos rfl, childrenOthers, if_neg elsewhere] at same
    have lengths := congrArg List.length same
    rw [List.length_append, List.length_singleton] at lengths
    omega

/-- A call is atomic exactly where there is nothing to move, something stands at the new path,
or the entry can be moved. -/
theorem rename_atomic_iff (shaped : TreeShaped tree) :
    Atomic tree limit oldpath newpath ↔
      tree.getfile true limit oldpath = .ok none ∨
        (∃ old new, tree.getfile true limit oldpath = .ok (some old) ∧
          tree.getfile true limit newpath = .ok (some new)) ∨
        Movable tree limit oldpath newpath := by
  constructor
  · intro atomic
    rw [Atomic] at atomic
    rcases call : tree.rename limit oldpath newpath with ⟨after, result⟩
    rw [call] at atomic
    rcases result with raised | _
    · cases raised with
      | osError errno =>
          rcases (rename_osError call).2 with missing | present
          · exact .inl missing
          · exact .inr (.inl present)
      | _ => exact atomic.elim
    · rcases rename_ok call with
        ⟨old, entered, entries, reached, others, oldFile, newFile, enters, given, appended⟩
      rcases atomic with ⟨directory, found, target, place, destination, moved⟩
      have same : entered = directory := by
        rw [place.reached] at enters
        exact (Except.ok.inj enters).symm
      rw [same] at given
      have itself := moved_itself shaped (List.mem_of_find?_eq_some place.named) given
        appended destination.free moved
      rw [itself] at oldFile
      exact .inr (.inr ⟨newFile, directory, found, target, oldFile, place, destination⟩)
  · intro holds
    rw [Atomic]
    rcases holds with missing | present | movable
    · rw [HoneyPotFilesystem.rename, missing]
    · rcases present with ⟨old, new, oldFile, newFile⟩
      rw [HoneyPotFilesystem.rename, oldFile]
      dsimp only
      rw [newFile]
    · rcases movable with ⟨newFile, directory, found, target, oldFile, place, destination⟩
      rw [rename_movable shaped oldFile newFile place destination]
      exact ⟨directory, found, target, place, destination,
        movedTo_rename shaped (List.mem_of_find?_eq_some place.named) _⟩

end

def smallTree : HoneyPotFilesystem :=
  treeOf [{ name := "/".toList, type := .dir, contents := .list [1, 2] },
    { name := "a".toList, type := .file },
    { name := "d".toList, type := .dir }]

theorem treeShaped_smallTree : TreeShaped smallTree := by
  have formed : WellFormed smallTree := by
    apply wellFormed_treeOf
    · rfl
    · decide +kernel
  have children (reference : Nat) :
      smallTree.children reference = if reference = 0 then [1, 2] else [] := by
    match reference with
    | 0 => rfl
    | 1 => rfl
    | 2 => rfl
    | _ + 3 => rfl
  apply TreeShaped.mk formed
  · intro child left right inLeft inRight
    rw [children] at inLeft inRight
    split at inLeft <;> split at inRight <;> simp_all
  · intro reference member
    rw [children] at member
    split at member <;> simp [smallTree, treeOf] at member

theorem rename_atomic_into_d : Atomic smallTree 17 "/a".toList "/d/b".toList := by
  apply (rename_atomic_iff treeShaped_smallTree).mpr
  apply Or.inr
  apply Or.inr
  apply And.intro rfl
  exact ⟨0, 1, 2, rfl, ⟨rfl, rfl⟩, ⟨rfl, rfl, by decide, by decide, by decide +kernel⟩⟩

/-- The directory of the new path is missing: the entry is lost. -/
theorem rename_loses : TreeShaped smallTree ∧
    smallTree.children 0 = [1, 2] ∧
    (smallTree.rename 17 "/a".toList "/missing/b".toList).1.children 0 = [2] ∧
    ¬ Atomic smallTree 17 "/a".toList "/missing/b".toList := by
  have fails : (smallTree.rename 17 "/a".toList "/missing/b".toList).2 = .error .fileNotFound := rfl
  apply And.intro treeShaped_smallTree
  apply And.intro rfl
  apply And.intro rfl
  intro atomic
  rw [Atomic] at atomic
  rcases call : smallTree.rename 17 "/a".toList "/missing/b".toList with ⟨after, result⟩
  rw [call] at atomic fails
  dsimp only at fails
  rw [fails] at atomic
  exact atomic

end HoneyFs

end LlmHoneypot
