import LlmHoneypot.HoneyFs.Tree

/-! # Which entry a path denotes

The three walkers of the tree, `getfile`, `get_path` and `honeyfs._find`, beside the
resolution of POSIX. -/

namespace LlmHoneypot

namespace HoneyFs

/-! ## `honeyfs._find` -/

section

-- `resolve` stands for `_find` one link deeper
variable (tree : HoneyPotFilesystem) (resolve : Str → Except Raised (Option Nat))

def leadsTo (node : Nat) : Except Raised (Option Nat) :=
  if (tree.entry node).type = .link then
    match (tree.entry node).target with
    | none => .error .attributeError
    | some target => resolve target
  else .ok (some node)

def findFrom : List Str → Nat → Except Raised (Option Nat)
  | [], node => leadsTo tree resolve node
  | part :: parts, node => do
      match ← leadsTo tree resolve node with
      | none => .ok none
      | some node =>
          match (tree.entry node).contents with
          | .bytes _ => .ok none
          | .list children =>
              match children.find? fun child => (tree.entry child).name = part with
              | none => .ok none
              | some child => findFrom parts child

end

def MAX_SYMLINK_DEPTH : Nat := 16

def findBelow (tree : HoneyPotFilesystem) : Nat → Str → Except Raised (Option Nat)
  | 0, _ => .ok none
  | depth + 1, path =>
      findFrom tree (findBelow tree depth) ((Text.splitChar '/' path).filter (· ≠ [])) tree.fs

def find (tree : HoneyPotFilesystem) (path : Str) : Except Raised (Option Nat) :=
  findBelow tree (MAX_SYMLINK_DEPTH + 1) path

/-! ## POSIX -/

namespace Posix

section

-- a directory is given with those above it, up to the root; `link` stands for what a link's
-- target leads to from the directory that the link is in
variable (tree : HoneyPotFilesystem) (link : List Nat → Str → Option (List Nat))

def current (chain : List Nat) : Nat := chain.headD tree.fs

def child (directory : Nat) (name : Str) : Option Nat :=
  (tree.children directory).find? fun child => (tree.entry child).name = name

def up : List Nat → List Nat
  | [] => []
  | [root] => [root]
  | _ :: above => above

/-- Where one component leads to; `read` says whether a link is followed. -/
def enter (read : Bool) (chain : List Nat) (piece : Str) : Option (List Nat) :=
  let directory := current tree chain
  if (tree.entry directory).type ≠ .dir then none
  else if piece = [] ∨ piece = ".".toList then some chain
  else if piece = "..".toList then some (up chain)
  else
    match child tree directory piece with
    | none => none
    | some found =>
        if (tree.entry found).type = .link ∧ read then
          (tree.entry found).target.bind (link chain)
        else some (found :: chain)

def walk (follow : Bool) : List Nat → List Str → Option (List Nat)
  | chain, [] => some chain
  | chain, piece :: pieces =>
      (enter tree link (follow || !pieces.isEmpty) chain piece).bind fun chain =>
        walk follow chain pieces

end

/-- Resolution from a directory; so many links may still lead into each other. -/
def resolve (tree : HoneyPotFilesystem) (follow : Bool) : Nat → List Nat → Str → Option (List Nat)
  | 0, _, _ => none
  | hops + 1, chain, path =>
      if path = [] then none
      else
        walk tree (resolve tree true hops) follow
          (if path.head? = some '/' then [tree.fs] else chain) (Text.splitChar '/' path)

end Posix

/-- The entry that a path denotes; links that lead into each other more often than this are
taken for a loop, which is an error. -/
def denotes (tree : HoneyPotFilesystem) (follow : Bool) (path : Str) : Option Nat :=
  (Posix.resolve tree follow (MAX_SYMLINK_DEPTH + 1) [tree.fs] path).map (Posix.current tree)

/-! ## Paths that the walkers agree on -/

section

variable (tree : HoneyPotFilesystem) (clear : Str → Prop)

def Searchable : Contents → Prop
  | .list _ => True
  | .bytes data => data = []

instance : (contents : Contents) → Decidable (Searchable contents)
  | .list _ => .isTrue trivial
  | .bytes data => inferInstanceAs (Decidable (data = []))

/-- No link on the way is misread, no component is anything but a name, and no bytes are
searched for one. A link leads from the root to where it leads from its directory. -/
def ClearFrom (follow : Bool) (last : Str) (link : List Nat → Str → Option (List Nat)) :
    List Nat → List Str → Prop
  | _, [] => True
  | chain, name :: names =>
      let directory := Posix.current tree chain
      IsFileName name ∧ Searchable (tree.entry directory).contents ∧
        ∀ found ∈ Posix.child tree directory name,
          if (tree.entry found).type = .link ∧ (follow || !names.isEmpty) then
            ∃ target ∈ (tree.entry found).target,
              clear target ∧ (follow = false → name ≠ last) ∧
                (link chain target).map (Posix.current tree) =
                  (link [tree.fs] target).map (Posix.current tree) ∧
                ∀ after ∈ link chain target, ClearFrom follow last link after names
          else ClearFrom follow last link (found :: chain) names

instance ClearFrom.decidable [DecidablePred clear] (follow : Bool) (last : Str)
    (link : List Nat → Str → Option (List Nat)) : (chain : List Nat) → (names : List Str) →
      Decidable (ClearFrom tree clear follow last link chain names)
  | _, [] => .isTrue trivial
  | _, name :: names =>
      have _ (chain : List Nat) := ClearFrom.decidable follow last link chain names
      inferInstanceAs (Decidable (IsFileName name ∧ _ ∧ ∀ found ∈ _,
        if (tree.entry found).type = .link ∧ (follow || !names.isEmpty) then
          ∃ target ∈ (tree.entry found).target, clear target ∧ (_ → _) ∧ _ ∧
            ∀ after ∈ link _ target, ClearFrom tree clear follow last link after names
        else ClearFrom tree clear follow last link (found :: _) names))

end

/-- Resolving a path from the root meets only what the walkers take as POSIX does; slashes
at the end follow a directory. -/
def Clear (tree : HoneyPotFilesystem) (follow : Bool) : Nat → Str → Prop
  | 0, _ => False
  | hops + 1, path =>
      let names := Text.splitChar '/' (OsPath.strip path)
      let link := Posix.resolve tree true hops
      path = "/".toList ∨
        (path.getLast? = some '/' → ∀ chain ∈ Posix.walk tree link follow [tree.fs] names,
          (tree.entry (Posix.current tree chain)).type = .dir) ∧
        ClearFrom tree
          (fun target => Clear tree follow hops target ∧ (follow = false →
            ∀ chain ∈ Posix.resolve tree false hops [tree.fs] target,
              (tree.entry (Posix.current tree chain)).type ≠ .link))
          follow (names.getLastD []) link [tree.fs] names

instance Clear.decidable (tree : HoneyPotFilesystem) (follow : Bool) :
    (hops : Nat) → (path : Str) → Decidable (Clear tree follow hops path)
  | 0, _ => .isFalse id
  | hops + 1, path =>
      have _ (target : Str) := Clear.decidable tree follow hops target
      inferInstanceAs (Decidable (path = "/".toList ∨ (_ → ∀ chain ∈ _, _) ∧ ClearFrom ..))

/-- Names are unique in a directory, and only a directory has entries. -/
structure WellFormed (tree : HoneyPotFilesystem) : Prop where
  root : (tree.entry tree.fs).type = .dir
  listed : ∀ reference, (tree.entry reference).type = .dir →
    (tree.entry reference).contents = .list (tree.children reference)
  entries : ∀ reference, tree.children reference ≠ [] → (tree.entry reference).type = .dir
  names : ∀ reference, ((tree.children reference).map fun child => (tree.entry child).name).Nodup

/-! ## POSIX, on the paths without surprises -/

section

variable {tree : HoneyPotFilesystem} {link : List Nat → Str → Option (List Nat)}

def Resolved (tree : HoneyPotFilesystem) (chain : List Nat) : Prop :=
  (tree.entry (Posix.current tree chain)).type ≠ .link ∧
    ∀ node ∈ chain, (tree.entry node).type ≠ .link

theorem WellFormed.resolved_root (formed : WellFormed tree) : Resolved tree [tree.fs] := by
  have root : (tree.entry tree.fs).type ≠ .link := by
    rw [formed.root]
    exact EntryType.noConfusion
  exact ⟨root, by simpa using root⟩

theorem Resolved.cons {chain : List Nat} {node : Nat} (resolved : Resolved tree chain)
    (plain : (tree.entry node).type ≠ .link) : Resolved tree (node :: chain) := by
  apply And.intro plain
  intro other member
  rcases List.mem_cons.mp member with same | above
  · rw [same]
    exact plain
  · exact resolved.2 other above

theorem Resolved.up {chain : List Nat} (resolved : Resolved tree chain) :
    Resolved tree (Posix.up chain) := by
  match chain, resolved with
  | [], resolved => exact resolved
  | [_], resolved => exact resolved
  | _ :: above :: rest, resolved =>
      apply And.intro (resolved.2 above (by simp))
      intro other member
      exact resolved.2 other (List.mem_cons_of_mem _ member)

theorem Posix.enter_resolved
    (links : ∀ chain target, Resolved tree chain →
      ∀ after ∈ link chain target, Resolved tree after)
    {chain : List Nat} (resolved : Resolved tree chain) (piece : Str) :
    ∀ after ∈ Posix.enter tree link true chain piece, Resolved tree after := by
  intro after equal
  simp only [Posix.enter, Option.mem_def] at equal
  split at equal
  · cases equal
  · split at equal
    · rw [← Option.some.inj equal]
      exact resolved
    · split at equal
      · rw [← Option.some.inj equal]
        exact resolved.up
      · split at equal
        · cases equal
        · split at equal
          · rcases Option.bind_eq_some_iff.mp equal with ⟨target, -, led⟩
            exact links chain target resolved after led
          · rename_i plain
            rw [← Option.some.inj equal]
            exact resolved.cons fun isLink => plain ⟨isLink, trivial⟩

theorem Posix.walk_resolved
    (links : ∀ chain target, Resolved tree chain →
      ∀ after ∈ link chain target, Resolved tree after)
    {chain : List Nat} (resolved : Resolved tree chain) (pieces : List Str) :
    ∀ after ∈ Posix.walk tree link true chain pieces, Resolved tree after := by
  induction pieces generalizing chain with
  | nil =>
      intro after equal
      rw [← Option.some.inj equal]
      exact resolved
  | cons piece pieces induction =>
      intro after equal
      rcases Option.bind_eq_some_iff.mp equal with ⟨next, entered, later⟩
      exact induction (Posix.enter_resolved links resolved piece next entered) after later

theorem Posix.resolve_resolved (formed : WellFormed tree) (hops : Nat) {chain : List Nat}
    (resolved : Resolved tree chain) (path : Str) :
    ∀ after ∈ Posix.resolve tree true hops chain path, Resolved tree after := by
  induction hops generalizing chain path with
  | zero =>
      intro after equal
      cases equal
  | succ hops induction =>
      intro after equal
      simp only [Posix.resolve, Option.mem_def] at equal
      split at equal
      · cases equal
      · apply Posix.walk_resolved (fun chain target resolved => induction resolved target) _ _ after
          equal
        split
        · exact formed.resolved_root
        · exact resolved

theorem Posix.enter_read {chain : List Nat} {piece : Str} (read : Bool)
    (plain : ∀ after ∈ Posix.enter tree link false chain piece,
      (tree.entry (Posix.current tree after)).type ≠ .link) :
    Posix.enter tree link read chain piece = Posix.enter tree link false chain piece := by
  simp only [Posix.enter] at plain ⊢
  split
  · rfl
  · rename_i directory
    simp only [directory, if_false] at plain
    split
    · rfl
    · rename_i named
      simp only [named, if_false] at plain
      split
      · rfl
      · rename_i below
        simp only [below, if_false] at plain
        split
        · rfl
        · rename_i found equal
          have other : (tree.entry found).type ≠ .link :=
            plain (found :: chain) (by simp [equal])
          simp only [other, false_and, if_false]

theorem Posix.walk_follow {chain : List Nat} (pieces : List Str)
    (plain : ∀ after ∈ Posix.walk tree link false chain pieces,
      (tree.entry (Posix.current tree after)).type ≠ .link) :
    Posix.walk tree link true chain pieces = Posix.walk tree link false chain pieces := by
  induction pieces generalizing chain with
  | nil => rfl
  | cons piece pieces induction =>
      cases pieces with
      | nil =>
          have last : ∀ read, Posix.walk tree link read chain [piece] =
              Posix.enter tree link read chain piece := by
            intro read
            simp [Posix.walk]
          rw [last] at plain
          rw [last, last]
          exact Posix.enter_read true plain
      | cons next pieces =>
          simp only [Posix.walk, List.isEmpty_cons, Bool.not_false, Bool.or_true] at plain induction ⊢
          cases entered : Posix.enter tree link true chain piece with
          | none => rfl
          | some chain =>
              simp only [entered, Option.bind_some] at plain ⊢
              exact induction plain

theorem Posix.walk_before {follow : Bool} {chain : List Nat}
    (directory : (tree.entry (Posix.current tree chain)).type = .dir) (before : Nat)
    (pieces : List Str) :
    Posix.walk tree link follow chain (List.replicate before [] ++ pieces) =
      Posix.walk tree link follow chain pieces := by
  induction before with
  | zero => rfl
  | succ before induction =>
      rw [List.replicate_succ, List.cons_append, Posix.walk]
      simp [Posix.enter, directory, induction]

theorem Posix.walk_after {follow : Bool} {chain : List Nat} {after : Nat} (trailing : after ≠ 0)
    (pieces : List Str)
    (directory : ∀ reached ∈ Posix.walk tree link follow chain pieces,
      (tree.entry (Posix.current tree reached)).type = .dir) :
    Posix.walk tree link follow chain (pieces ++ List.replicate after []) =
      Posix.walk tree link follow chain pieces := by
  induction pieces generalizing chain with
  | nil =>
      have isDirectory := directory chain rfl
      have same := @Posix.walk_before tree link follow chain isDirectory after []
      simpa using same
  | cons piece pieces induction =>
      cases pieces with
      | nil =>
          have last : Posix.walk tree link follow chain [piece] =
              Posix.enter tree link follow chain piece := by
            simp [Posix.walk]
          rw [last] at directory
          have same : Posix.enter tree link true chain piece =
              Posix.enter tree link follow chain piece := by
            cases follow with
            | true => rfl
            | false =>
                apply Posix.enter_read
                intro reached entered
                rw [directory reached entered]
                exact EntryType.noConfusion
          have more : (List.replicate after ([] : Str)).isEmpty = false := by simpa using trailing
          rw [last, List.singleton_append, Posix.walk, more, Bool.not_false, Bool.or_true, same]
          cases entered : Posix.enter tree link follow chain piece with
          | none => rfl
          | some reached =>
              have isDirectory := directory reached entered
              have ends := @Posix.walk_before tree link follow reached isDirectory after []
              rw [List.append_nil] at ends
              exact ends
      | cons next pieces =>
          simp only [List.cons_append, Posix.walk, List.isEmpty_cons, Bool.not_false,
            Bool.or_true] at directory induction ⊢
          cases entered : Posix.enter tree link true chain piece with
          | none => rfl
          | some chain =>
              simp only [entered, Option.bind_some] at directory ⊢
              exact induction directory

end

/-! ## The walkers on clear paths -/

section

variable {tree : HoneyPotFilesystem} (formed : WellFormed tree)

theorem visit_found {resolve : Str → Except Raised (Option Nat)} {final follow : Bool} {piece : Str}
    {entries : List Nat} {reached found : Nat}
    (unique : (entries.map fun child => (tree.entry child).name).Nodup)
    (equal : (entries.find? fun child => (tree.entry child).name = piece) = some found) :
    tree.visit resolve final follow piece entries reached =
      tree.visit resolve final follow piece [found] reached := by
  have absent (others : List Nat) (reached : Nat)
      (free : ∀ other ∈ others, (tree.entry other).name ≠ piece) :
      tree.visit resolve final follow piece others reached = .ok (some reached) := by
    induction others with
    | nil => rfl
    | cons other others induction =>
        have differs := free other (List.mem_cons_self ..)
        rw [HoneyPotFilesystem.visit, if_pos differs]
        exact induction fun other member => free other (List.mem_cons_of_mem _ member)
  induction entries generalizing reached with
  | nil => cases equal
  | cons first rest induction =>
      rw [List.map_cons, List.nodup_cons] at unique
      by_cases named : (tree.entry first).name = piece
      · have same : first = found := by simpa [named] using equal
        have none (reached : Nat) : tree.visit resolve final follow piece rest reached =
            .ok (some reached) := by
          apply absent
          intro other member differs
          exact unique.1 (List.mem_map.mpr ⟨other, member, by rw [differs, named]⟩)
        rw [← same]
        simp only [HoneyPotFilesystem.visit, none]
      · rw [HoneyPotFilesystem.visit, if_pos named]
        apply induction unique.2
        simpa [named] using equal

theorem visit_link {resolve : Str → Except Raised (Option Nat)} {final follow : Bool}
    {reached found : Nat} {target path : Str} {led : Option Nat}
    (isLink : (tree.entry found).type = .link) (given : (tree.entry found).target = some target)
    (followed : final = true → follow = true)
    (seen : HoneyPotFilesystem.linkPath (some target) = .ok path) (leads : resolve path = .ok led) :
    tree.visit resolve final follow (tree.entry found).name [found] reached = .ok led := by
  have goesOn : ¬ (final = true ∧ ¬ follow = true) := fun stops => stops.2 (followed stops.1)
  rw [HoneyPotFilesystem.visit, if_neg (not_not_intro rfl), if_neg goesOn, if_pos isLink, given, seen]
  simp only [bind, Except.bind, leads]
  cases led <;> rfl

theorem visit_plain {resolve : Str → Except Raised (Option Nat)} {final follow : Bool}
    {reached found : Nat}
    (plain : (tree.entry found).type = .link → final = true ∧ follow = false) :
    tree.visit resolve final follow (tree.entry found).name [found] reached = .ok (some found) := by
  rw [HoneyPotFilesystem.visit, if_neg (not_not_intro rfl)]
  by_cases isLink : (tree.entry found).type = .link
  · rcases plain isLink with ⟨stops, unread⟩
    simp [stops, unread, HoneyPotFilesystem.visit]
  · simp [isLink, HoneyPotFilesystem.visit]

include formed in
theorem WellFormed.directory_cases (reference : Nat) :
    (tree.entry reference).type = .dir ∧
        (tree.entry reference).contents = .list (tree.children reference) ∨
      (tree.entry reference).type ≠ .dir ∧ tree.children reference = [] := by
  by_cases directory : (tree.entry reference).type = .dir
  · exact .inl ⟨directory, formed.listed reference directory⟩
  · apply Or.inr
    apply And.intro directory
    apply Classical.byContradiction
    exact fun started => directory (formed.entries reference started)

variable {clear : Str → Prop} {follow : Bool} {last : Str}
  {link : List Nat → Str → Option (List Nat)}

include formed in
theorem ClearFrom.step {chain : List Nat} {name : Str} {names : List Str}
    (path : ClearFrom tree clear follow last link chain (name :: names)) :
    let enters := Posix.enter tree link (follow || !names.isEmpty) chain name
    Posix.child tree (Posix.current tree chain) name = none ∧ enters = none ∨
      ∃ found, Posix.child tree (Posix.current tree chain) name = some found ∧
        (tree.entry (Posix.current tree chain)).contents =
          .list (tree.children (Posix.current tree chain)) ∧
        ((∃ target, ((tree.entry found).type = .link ∧ (follow || !names.isEmpty)) ∧
            (tree.entry found).target = some target ∧ clear target ∧
            (follow = false → name ≠ last) ∧ enters = link chain target ∧
            enters.map (Posix.current tree) = (link [tree.fs] target).map (Posix.current tree) ∧
            ∀ after ∈ enters, ClearFrom tree clear follow last link after names) ∨
          ¬ ((tree.entry found).type = .link ∧ (follow || !names.isEmpty)) ∧
            enters = some (found :: chain) ∧
            ClearFrom tree clear follow last link (found :: chain) names) := by
  intro enters
  rcases path with ⟨⟨named, notDot, notParent, -⟩, -, below⟩
  rcases formed.directory_cases (Posix.current tree chain) with
    ⟨directory, contents⟩ | ⟨directory, empty⟩
  · have entered : enters =
        match Posix.child tree (Posix.current tree chain) name with
        | none => none
        | some found =>
            if (tree.entry found).type = .link ∧ (follow || !names.isEmpty) then
              (tree.entry found).target.bind (link chain)
            else some (found :: chain) := by
      simp only [enters, Posix.enter, directory, named, notDot, notParent, ne_eq,
        not_true_eq_false, or_self, if_false]
    cases equal : Posix.child tree (Posix.current tree chain) name with
    | none =>
        apply Or.inl
        simp [entered, equal]
    | some found =>
        apply Or.inr
        apply Exists.intro found
        apply And.intro rfl
        apply And.intro contents
        have met := below found equal
        by_cases isLink : (tree.entry found).type = .link ∧ (follow || !names.isEmpty)
        · rw [if_pos isLink] at met
          rcases met with ⟨target, given, isClear, notLast, alike, later⟩
          have led : enters = link chain target := by
            simp only [entered, equal, if_pos isLink, Option.mem_def.mp given, Option.bind_some]
          apply Or.inl
          apply Exists.intro target
          rw [led]
          exact ⟨isLink, given, isClear, notLast, rfl, alike, later⟩
        · rw [if_neg isLink] at met
          apply Or.inr
          apply And.intro isLink
          apply And.intro _ met
          simp only [entered, equal, if_neg isLink]
  · apply Or.inl
    apply And.intro
    · simp [Posix.child, empty]
    · simp [enters, Posix.enter, directory]

theorem names_eq {reference : Nat}
    (searchable : Searchable (tree.entry reference).contents) :
    tree.names (tree.entry reference).contents =
      .ok ((tree.children reference).map fun child => (tree.entry child).name) := by
  cases contents : (tree.entry reference).contents with
  | list entries => simp [HoneyPotFilesystem.names, HoneyPotFilesystem.children, contents]
  | bytes data =>
      have empty : data = [] := by simpa only [contents, Searchable] using searchable
      simp [HoneyPotFilesystem.names, HoneyPotFilesystem.children, contents, empty]

theorem child_eq_none {reference : Nat} {name : Str} :
    Posix.child tree reference name = none ↔
      name ∉ (tree.children reference).map fun child => (tree.entry child).name := by
  simp [Posix.child]

include formed in
theorem walk_clear {resolve : Str → Except Raised (Option Nat)}
    (leads : ∀ target, clear target → ∃ path,
      HoneyPotFilesystem.linkPath (some target) = .ok path ∧
        resolve path = .ok ((link [tree.fs] target).map (Posix.current tree)))
    {chain : List Nat} {names : List Str}
    (path : ClearFrom tree clear follow last link chain names)
    (ends : names ≠ [] → last = names.getLastD []) :
    tree.walk resolve last follow names (Posix.current tree chain) =
      .ok ((Posix.walk tree link follow chain names).map (Posix.current tree)) := by
  induction names generalizing chain with
  | nil => rfl
  | cons name names induction =>
      have laterEnds : names ≠ [] → last = names.getLastD [] := by
        intro more
        rw [ends (List.cons_ne_nil _ _)]
        cases names with
        | nil => exact absurd rfl more
        | cons next names => rfl
      rw [HoneyPotFilesystem.walk, names_eq path.2.1]
      rcases path.step formed with ⟨missing, stops⟩ | ⟨found, equal, contents, entered⟩
      · have absent := child_eq_none.mp missing
        simp only [Posix.walk, stops, Option.bind_none, Option.map_none]
        exact if_pos absent
      · have present : ¬ name ∉ (tree.children (Posix.current tree chain)).map
            fun child => (tree.entry child).name := by
          rw [← child_eq_none, equal]
          exact Option.some_ne_none found
        have isNamed : (tree.entry found).name = name := by
          simpa using List.find?_some equal
        simp only [bind, Except.bind, if_neg present, Posix.walk]
        rw [visit_found (formed.names _) equal]
        rcases entered with ⟨target, isLink, given, isClear, notLast, led, alike, later⟩ |
          ⟨plain, entered, later⟩
        · rcases leads target isClear with ⟨path, seen, leads⟩
          have followed : decide (name = last) = true → follow = true := by
            intro final
            cases follow with
            | true => rfl
            | false => exact absurd (of_decide_eq_true final) (notLast rfl)
          rw [← isNamed] at followed ⊢
          rw [visit_link isLink.1 given followed seen leads, isNamed, ← alike]
          cases after : Posix.enter tree link (follow || !names.isEmpty) chain name with
          | none => rfl
          | some next => exact induction (later next after) laterEnds
        · have stops : (tree.entry found).type = .link →
              decide (name = last) = true ∧ follow = false := by
            intro isLink
            have unread : ¬ (follow || !names.isEmpty) = true := fun read => plain ⟨isLink, read⟩
            cases names with
            | nil => simpa [ends (List.cons_ne_nil _ _)] using unread
            | cons next names => simp at unread
          rw [← isNamed] at stops ⊢
          rw [visit_plain stops, isNamed, entered]
          exact induction later laterEnds

include formed in
theorem enter_clear {limit : Nat}
    (leads : ∀ target, clear target →
      tree.getfile follow limit target = .ok ((link [tree.fs] target).map (Posix.current tree)))
    {chain : List Nat} {names : List Str}
    (path : ClearFrom tree clear follow last link chain names)
    (read : follow = false → ∀ after ∈ Posix.walk tree link follow chain names,
      (tree.entry (Posix.current tree after)).type ≠ .link) :
    names.foldlM (tree.enter limit follow) (Posix.current tree chain) =
      ((Posix.walk tree link follow chain names).map (Posix.current tree)).elim
        (.error .fileNotFound) .ok := by
  induction names generalizing chain with
  | nil => rfl
  | cons name names induction =>
      have named : name ≠ [] := path.1.1
      rw [List.foldlM_cons, HoneyPotFilesystem.enter, if_neg named]
      rcases path.step formed with ⟨missing, stops⟩ | ⟨found, equal, contents, entered⟩
      · simp only [Posix.walk, stops, Option.bind_none, Option.map_none, Option.elim_none]
        cases contents : (tree.entry (Posix.current tree chain)).contents with
        | bytes data => rfl
        | list entries =>
            have absent : (entries.find? fun child => (tree.entry child).name = name) = none := by
              simpa only [Posix.child, HoneyPotFilesystem.children, contents] using missing
            simp only [absent]
            rfl
      · have given : ((tree.children (Posix.current tree chain)).find? fun child =>
            (tree.entry child).name = name) = some found := equal
        simp only [contents, given, Posix.walk] at read ⊢
        rcases entered with ⟨target, isLink, given, isClear, notLast, led, alike, later⟩ |
          ⟨plain, entered, later⟩
        · simp only [if_pos isLink.1, given, leads target isClear, ← alike]
          cases after : Posix.enter tree link (follow || !names.isEmpty) chain name with
          | none => rfl
          | some next =>
              simp only [after, Option.bind_some] at read
              exact induction (later next after) read
        · simp only [entered, Option.bind_some] at read ⊢
          by_cases isLink : (tree.entry found).type = .link
          · have unread : ¬ (follow || !names.isEmpty) = true := fun read => plain ⟨isLink, read⟩
            simp only [Bool.or_eq_true, Bool.not_eq_true', not_or, Bool.not_eq_true,
              Bool.not_eq_false, List.isEmpty_iff] at unread
            rw [unread.2] at read
            exact absurd isLink (read unread.1 (found :: chain) rfl)
          · rw [if_neg isLink]
            exact induction later read

theorem findFrom_link {resolve : Str → Except Raised (Option Nat)} {found : Nat} {target : Str}
    {led : Option Nat} (isLink : (tree.entry found).type = .link)
    (given : (tree.entry found).target = some target) (leads : resolve target = .ok led)
    (resolved : ∀ next ∈ led, (tree.entry next).type ≠ .link) (names : List Str) :
    findFrom tree resolve names found =
      led.elim (.ok none) (findFrom tree resolve names) := by
  have there : leadsTo tree resolve found = .ok led := by
    simp only [leadsTo, if_pos isLink, given, leads]
  cases led with
  | none =>
      cases names with
      | nil => exact there
      | cons name names => simp only [findFrom, there, bind, Except.bind, Option.elim_none]
  | some next =>
      have stays : leadsTo tree resolve next = .ok (some next) := if_neg (resolved next rfl)
      cases names with
      | nil => simp only [findFrom, there, stays, Option.elim_some]
      | cons name names => simp only [findFrom, there, stays, Option.elim_some]

include formed in
theorem findFrom_clear {resolve : Str → Except Raised (Option Nat)}
    (leads : ∀ target, clear target →
      resolve target = .ok ((link [tree.fs] target).map (Posix.current tree)))
    (links : ∀ chain target, Resolved tree chain → ∀ after ∈ link chain target, Resolved tree after)
    {chain : List Nat} (resolved : Resolved tree chain) {names : List Str}
    (path : ClearFrom tree clear true last link chain names) :
    findFrom tree resolve (names.filter (· ≠ [])) (Posix.current tree chain) =
      .ok ((Posix.walk tree link true chain names).map (Posix.current tree)) := by
  have stays : leadsTo tree resolve (Posix.current tree chain) =
      .ok (some (Posix.current tree chain)) := if_neg resolved.1
  induction names generalizing chain with
  | nil => exact stays
  | cons name names induction =>
      have named : name ≠ [] := path.1.1
      have kept : (name :: names).filter (· ≠ []) = name :: names.filter (· ≠ []) := by
        simp [named]
      rw [kept]
      simp only [findFrom, stays, bind, Except.bind, Posix.walk]
      rcases path.step formed with ⟨missing, stops⟩ | ⟨found, equal, contents, entered⟩
      · simp only [stops, Option.bind_none, Option.map_none]
        cases contents : (tree.entry (Posix.current tree chain)).contents with
        | bytes data => rfl
        | list entries =>
            have absent : (entries.find? fun child => (tree.entry child).name = name) = none := by
              simpa only [Posix.child, HoneyPotFilesystem.children, contents] using missing
            simp only [absent]
      · have given : ((tree.children (Posix.current tree chain)).find? fun child =>
            (tree.entry child).name = name) = some found := equal
        simp only [contents, given]
        rcases entered with ⟨target, isLink, given, isClear, notLast, led, alike, later⟩ |
          ⟨plain, entered, later⟩
        · have ends : ∀ next ∈ (link [tree.fs] target).map (Posix.current tree),
              (tree.entry next).type ≠ .link := by
            intro next member
            rw [← alike, led] at member
            rcases Option.map_eq_some_iff.mp member with ⟨after, there, same⟩
            rw [← same]
            exact (links chain target resolved after there).1
          rw [findFrom_link isLink.1 given (leads target isClear) ends, ← alike]
          cases after : Posix.enter tree link (true || !names.isEmpty) chain name with
          | none => rfl
          | some next =>
              have resolvedNext := links chain target resolved next (led ▸ after)
              exact induction resolvedNext (later next after) (if_neg resolvedNext.1)
        · have other : (tree.entry found).type ≠ .link := fun isLink => plain ⟨isLink, rfl⟩
          rw [entered]
          exact induction (resolved.cons other) later (if_neg other)

/-! ## Whole paths -/

theorem Clear.started {hops : Nat} {path : Str} (clear : Clear tree follow hops path) :
    path ≠ [] := by
  intro empty
  rw [empty] at clear
  cases hops with
  | zero => exact clear
  | succ hops =>
      rcases clear with root | ⟨-, ⟨named, -⟩, -⟩
      · cases root
      · exact named rfl

theorem Posix.resolve_root {hops : Nat} {path : Str} (started : path ≠ []) :
    Posix.resolve tree follow (hops + 1) [tree.fs] path =
      Posix.walk tree (Posix.resolve tree true hops) follow [tree.fs]
        (Text.splitChar '/' path) := by
  rw [Posix.resolve, if_neg started, ite_self]

include formed in
theorem Posix.resolve_strip {hops : Nat} {path : Str} (started : path ≠ [])
    (directory : path.getLast? = some '/' →
      ∀ chain ∈ Posix.walk tree (Posix.resolve tree true hops) follow [tree.fs]
          (Text.splitChar '/' (OsPath.strip path)),
        (tree.entry (Posix.current tree chain)).type = .dir) :
    Posix.resolve tree follow (hops + 1) [tree.fs] path =
      Posix.walk tree (Posix.resolve tree true hops) follow [tree.fs]
        (Text.splitChar '/' (OsPath.strip path)) := by
  rcases OsPath.splitChar_strip path with ⟨before, after, parts, trailing⟩
  rw [Posix.resolve_root started, parts, List.append_assoc, Posix.walk_before formed.root]
  by_cases ends : after = 0
  · rw [ends, List.replicate_zero, List.append_nil]
  · exact Posix.walk_after ends _ (directory (trailing ends))

include formed in
theorem Posix.resolve_slash (hops : Nat) :
    Posix.resolve tree follow (hops + 1) [tree.fs] "/".toList = some [tree.fs] := by
  rw [Posix.resolve_root (by decide)]
  exact Posix.walk_before formed.root 2 []

theorem Posix.resolve_follow {hops : Nat} {path : Str}
    (plain : ∀ chain ∈ Posix.resolve tree false hops [tree.fs] path,
      (tree.entry (Posix.current tree chain)).type ≠ .link) :
    Posix.resolve tree true hops [tree.fs] path = Posix.resolve tree false hops [tree.fs] path := by
  cases hops with
  | zero => rfl
  | succ hops =>
      by_cases started : path = []
      · simp only [Posix.resolve, if_pos started]
      · rw [Posix.resolve_root started] at plain
        rw [Posix.resolve_root started, Posix.resolve_root started]
        exact Posix.walk_follow _ plain

theorem linkPath_eq {target : Str} (started : target ≠ []) :
    ∃ path, HoneyPotFilesystem.linkPath (some target) = .ok path ∧
      ∀ limit, tree.getfile follow limit path = tree.getfile follow limit target := by
  cases target with
  | nil => exact absurd rfl started
  | cons first rest =>
      by_cases rooted : first = '/'
      · exact ⟨first :: rest, by rw [HoneyPotFilesystem.linkPath, if_pos rooted], fun _ => rfl⟩
      · apply Exists.intro ('/' :: first :: rest)
        apply And.intro
        · rw [HoneyPotFilesystem.linkPath, if_neg rooted]
        · intro limit
          have stripped : OsPath.strip ('/' :: first :: rest) = OsPath.strip (first :: rest) := by
            simp [OsPath.strip, OsPath.isSlash]
          have notRoot : '/' :: first :: rest ≠ "/".toList := by simp
          have notRootSelf : first :: rest ≠ "/".toList := by
            intro same
            exact rooted (List.cons.inj same).1
          cases limit with
          | zero => rfl
          | succ limit =>
              rw [HoneyPotFilesystem.getfile, HoneyPotFilesystem.getfile, if_neg notRoot,
                if_neg notRootSelf, stripped]

include formed in
theorem getfile_clear {hops limit : Nat} (deep : hops ≤ limit) {path : Str}
    (clear : Clear tree follow hops path) :
    tree.getfile follow limit path =
      .ok ((Posix.resolve tree follow hops [tree.fs] path).map (Posix.current tree)) := by
  induction hops generalizing limit path with
  | zero => exact clear.elim
  | succ hops induction =>
      obtain ⟨limit, rfl⟩ : ∃ before, limit = before + 1 := ⟨limit - 1, by omega⟩
      have started := clear.started
      rcases clear with root | ⟨directory, names⟩
      · rw [root, Posix.resolve_slash formed, HoneyPotFilesystem.getfile, if_pos rfl]
        rfl
      · by_cases root : path = "/".toList
        · rw [root, Posix.resolve_slash formed, HoneyPotFilesystem.getfile, if_pos rfl]
          rfl
        · rw [HoneyPotFilesystem.getfile, if_neg root, Posix.resolve_strip formed started directory]
          refine walk_clear formed ?_ names fun _ => rfl
          intro target met
          rcases linkPath_eq met.1.started with ⟨path, seen, same⟩
          apply Exists.intro path
          apply And.intro seen
          rw [same, induction (by omega) met.1]
          cases follow with
          | true => rfl
          | false => rw [Posix.resolve_follow (met.2 rfl)]

theorem foldlM_enter_blank {limit cwd : Nat} (count : Nat) (parts : List Str) :
    (List.replicate count [] ++ parts).foldlM (tree.enter limit follow) cwd =
      parts.foldlM (tree.enter limit follow) cwd := by
  induction count with
  | zero => rfl
  | succ count induction =>
      rw [List.replicate_succ, List.cons_append, List.foldlM_cons, HoneyPotFilesystem.enter, if_pos rfl]
      exact induction

theorem foldlM_enter_strip (limit : Nat) (path : Str) :
    tree.getPath limit path follow =
      (Text.splitChar '/' (OsPath.strip path)).foldlM (tree.enter limit follow) tree.fs := by
  rcases OsPath.splitChar_strip path with ⟨before, after, parts, -⟩
  have last (cwd : Nat) :
      (List.replicate after ([] : Str)).foldlM (tree.enter limit follow) cwd = .ok cwd := by
    have same := @foldlM_enter_blank tree follow limit cwd after []
    rw [List.append_nil] at same
    exact same
  rw [HoneyPotFilesystem.getPath, parts, List.append_assoc, foldlM_enter_blank, List.foldlM_append]
  simp only [last]
  exact bind_pure _

include formed in
theorem getPath_clear {hops limit : Nat} (deep : hops ≤ limit + 1) {path : Str}
    (clear : Clear tree follow hops path)
    (read : follow = false → ∀ chain ∈ Posix.resolve tree follow hops [tree.fs] path,
      (tree.entry (Posix.current tree chain)).type ≠ .link) :
    tree.getPath limit path follow =
      ((Posix.resolve tree follow hops [tree.fs] path).map (Posix.current tree)).elim
        (.error .fileNotFound) .ok := by
  cases hops with
  | zero => exact clear.elim
  | succ hops =>
      have started := clear.started
      have deep : hops ≤ limit := by omega
      rcases clear with root | ⟨directory, names⟩
      · rw [root, Posix.resolve_slash formed]
        exact foldlM_enter_blank 2 []
      · rw [Posix.resolve_strip formed started directory] at read ⊢
        rw [foldlM_enter_strip]
        refine enter_clear formed ?_ names read
        intro target met
        rw [getfile_clear formed deep met.1]
        cases follow with
        | true => rfl
        | false => rw [Posix.resolve_follow (met.2 rfl)]

theorem filter_strip (path : Str) :
    (Text.splitChar '/' path).filter (· ≠ []) =
      (Text.splitChar '/' (OsPath.strip path)).filter (· ≠ []) := by
  rcases OsPath.splitChar_strip path with ⟨before, after, parts, -⟩
  rw [parts]
  simp

include formed in
theorem findBelow_clear {hops : Nat} {path : Str} (clear : Clear tree true hops path) :
    findBelow tree hops path =
      .ok ((Posix.resolve tree true hops [tree.fs] path).map (Posix.current tree)) := by
  induction hops generalizing path with
  | zero => exact clear.elim
  | succ hops induction =>
      have started := clear.started
      have resolvedRoot := formed.resolved_root
      rcases clear with root | ⟨directory, names⟩
      · rw [root, Posix.resolve_slash formed]
        exact if_neg resolvedRoot.1
      · rw [Posix.resolve_strip formed started directory, findBelow, filter_strip]
        refine findFrom_clear formed ?_ ?_ resolvedRoot names
        · intro target met
          exact induction met.1
        · intro chain target resolved
          exact Posix.resolve_resolved formed hops resolved target

include formed in
/-- The three walkers give the entry that POSIX gives, on a path that is clear within the
links that `_find` follows: no link on it is relative to another directory than the root, or
leads on so often, none but the last component has the name of the last component where that
is not followed, and what stands before a slash is a directory or an empty file. -/
theorem walkers_agree {limit : Nat} (deep : MAX_SYMLINK_DEPTH + 1 ≤ limit) (path : Str) :
    (Clear tree true (MAX_SYMLINK_DEPTH + 1) path →
      tree.getfile true limit path = .ok (denotes tree true path) ∧
      tree.getPath limit path = (denotes tree true path).elim (.error .fileNotFound) .ok ∧
      find tree path = .ok (denotes tree true path)) ∧
    (Clear tree false (MAX_SYMLINK_DEPTH + 1) path →
      tree.getfile false limit path = .ok (denotes tree false path) ∧
      ((∀ found ∈ denotes tree false path, (tree.entry found).type ≠ .link) →
        tree.getPath limit path false =
          (denotes tree false path).elim (.error .fileNotFound) .ok)) := by
  constructor
  · intro clear
    apply And.intro (getfile_clear formed deep clear)
    apply And.intro _ (findBelow_clear formed clear)
    apply getPath_clear formed (Nat.le_succ_of_le deep) clear
    intro follow
    cases follow
  · intro clear
    apply And.intro (getfile_clear formed deep clear)
    intro plain
    apply getPath_clear formed (Nat.le_succ_of_le deep) clear
    intro _ chain member
    exact plain (Posix.current tree chain) (Option.mem_map_of_mem _ member)

end

/-! ## A link is not read from its own directory -/

section

def treeOf (entries : List Entry) : HoneyPotFilesystem where
  heap := ⟨fun reference => entries.getD reference default, entries.length⟩
  fs := 0
  home := "/root".toList

theorem wellFormed_treeOf {entries : List Entry}
    (root : ((treeOf entries).entry 0).type = .dir)
    (formed : ∀ reference < entries.length,
      ((treeOf entries).entry reference).type = .dir ∧
          ((treeOf entries).entry reference).contents =
            .list ((treeOf entries).children reference) ∧
          (((treeOf entries).children reference).map fun child =>
            ((treeOf entries).entry child).name).Nodup ∨
        ((treeOf entries).entry reference).type ≠ .dir ∧
          (treeOf entries).children reference = []) : WellFormed (treeOf entries) := by
  have cases (reference : Nat) :
      ((treeOf entries).entry reference).type = .dir ∧
          ((treeOf entries).entry reference).contents =
            .list ((treeOf entries).children reference) ∧
          (((treeOf entries).children reference).map fun child =>
            ((treeOf entries).entry child).name).Nodup ∨
        ((treeOf entries).entry reference).type ≠ .dir ∧
          (treeOf entries).children reference = [] := by
    by_cases known : reference < entries.length
    · exact formed reference known
    · have unknown : (treeOf entries).entry reference = default := by
        change entries.getD reference default = default
        rw [List.getD_eq_getElem?_getD, List.getElem?_eq_none (Nat.le_of_not_lt known)]
        rfl
      apply Or.inr
      rw [HoneyPotFilesystem.children, unknown]
      exact ⟨EntryType.noConfusion, rfl⟩
  constructor
  · exact root
  · intro reference directory
    rcases cases reference with ⟨-, contents, -⟩ | ⟨other, -⟩
    · exact contents
    · exact absurd directory other
  · intro reference started
    rcases cases reference with ⟨directory, -⟩ | ⟨-, empty⟩
    · exact directory
    · exact absurd empty started
  · intro reference
    rcases cases reference with ⟨-, -, unique⟩ | ⟨-, empty⟩
    · exact unique
    · rw [empty]
      exact List.nodup_nil

def linkedTree : HoneyPotFilesystem :=
  treeOf [{ name := "/".toList, type := .dir, contents := .list [1, 4] },
    { name := "etc".toList, type := .dir, contents := .list [2, 3] },
    { name := "passwd".toList, type := .file, contents := .bytes [114, 111, 111, 116] },
    { name := "hosts".toList, type := .link, target := some "/etc/passwd".toList },
    { name := "lib".toList, type := .link, target := some "etc".toList }]

theorem wellFormed_linkedTree : WellFormed linkedTree := by
  apply wellFormed_treeOf
  · rfl
  · decide +kernel

theorem walkers_agree_linked :
    linkedTree.getfile true 17 "/lib/hosts".toList = .ok (some 2) ∧
      linkedTree.getPath 17 "/lib/hosts".toList = .ok 2 ∧
      find linkedTree "/lib/hosts".toList = .ok (some 2) ∧
      linkedTree.getfile false 17 "/lib/hosts".toList = .ok (some 3) := by
  have agree := walkers_agree wellFormed_linkedTree (Nat.le_refl _) "/lib/hosts".toList
  rcases agree.1 (by decide +kernel) with ⟨file, path, found⟩
  rcases agree.2 (by decide +kernel) with ⟨unfollowed, -⟩
  have followed : denotes linkedTree true "/lib/hosts".toList = some 2 := by decide +kernel
  have itself : denotes linkedTree false "/lib/hosts".toList = some 3 := by decide +kernel
  rw [followed] at file path found
  rw [itself] at unfollowed
  exact ⟨file, path, found, unfollowed⟩

def besideTree : HoneyPotFilesystem :=
  treeOf [{ name := "/".toList, type := .dir, contents := .list [1] },
    { name := "etc".toList, type := .dir, contents := .list [2, 3] },
    { name := "a".toList, type := .link, target := some "b".toList },
    { name := "b".toList, type := .file }]

theorem wellFormed_besideTree : WellFormed besideTree := by
  apply wellFormed_treeOf
  · rfl
  · decide +kernel

/-- The link stands in `/etc`, its target is looked for in `/`. -/
theorem beside_not_found :
    WellFormed besideTree ∧ denotes besideTree true "/etc/a".toList = some 3 ∧
      ∀ limit, besideTree.getfile true (limit + 2) "/etc/a".toList = .ok none ∧
        find besideTree "/etc/a".toList = .ok none := by
  apply And.intro wellFormed_besideTree
  apply And.intro (by decide +kernel)
  intro limit
  exact ⟨rfl, rfl⟩

end

end HoneyFs

end LlmHoneypot
