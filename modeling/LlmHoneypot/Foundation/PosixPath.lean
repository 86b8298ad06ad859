import LlmHoneypot.Foundation.Text

/-! # Absolute paths

A path as the list of names from the root to it. The text of such a path is
normal: reading it back gives the same names. -/

namespace LlmHoneypot

def IsFileName (name : Str) : Prop :=
  name ≠ [] ∧ name ≠ ".".toList ∧ name ≠ "..".toList ∧ '/' ∉ name

instance (name : Str) : Decidable (IsFileName name) :=
  inferInstanceAs (Decidable (_ ∧ _))

abbrev FileName := { name : Str // IsFileName name }

@[ext] structure AbsPath where
  components : List Str
  named : ∀ name ∈ components, IsFileName name
  deriving DecidableEq

namespace AbsPath

def root : AbsPath := ⟨[], by simp⟩

def child (dir : AbsPath) (name : FileName) : AbsPath :=
  ⟨dir.components ++ [name.1], by
    intro other member
    rcases List.mem_append.mp member with inside | last
    · exact dir.named other inside
    · rw [List.mem_singleton.mp last]
      exact name.2⟩

def descend (taken : List Str) (part : Str) : List Str :=
  if part = [] ∨ part = ".".toList then taken
  else if part = "..".toList then taken.dropLast
  else taken ++ [part]

theorem descend_named {taken : List Str} {part : Str}
    (named : ∀ name ∈ taken, IsFileName name) (plain : '/' ∉ part) :
    ∀ name ∈ descend taken part, IsFileName name := by
  unfold descend
  split
  · exact named
  · rename_i visible
    split
    · exact fun name member => named name (List.mem_of_mem_dropLast member)
    · rename_i notParent
      intro name member
      rcases List.mem_append.mp member with inside | last
      · exact named name inside
      · rw [List.mem_singleton.mp last]
        exact ⟨fun empty => visible (.inl empty), fun dot => visible (.inr dot), notParent, plain⟩

theorem foldl_descend_named {parts taken : List Str}
    (named : ∀ name ∈ taken, IsFileName name) (plain : ∀ part ∈ parts, '/' ∉ part) :
    ∀ name ∈ parts.foldl descend taken, IsFileName name := by
  induction parts generalizing taken with
  | nil => exact named
  | cons part parts induction =>
      apply induction
      · exact descend_named named (plain part (List.mem_cons_self ..))
      · exact fun other member => plain other (List.mem_cons_of_mem _ member)

def follow (dir : AbsPath) (text : Str) : AbsPath :=
  ⟨(Text.splitChar '/' text).foldl descend dir.components,
    foldl_descend_named dir.named fun _ member => Text.not_mem_splitChar member⟩

def ofText (text : Str) : AbsPath := root.follow text

/-- A path as a process in the directory `cwd` resolves it. -/
def resolve (cwd text : Str) : AbsPath :=
  if "/".toList.isPrefixOf text then ofText text else (ofText cwd).follow text

def stem (path : AbsPath) : Str := path.components.flatMap ('/' :: ·)

def text (path : AbsPath) : Str := if path.components = [] then "/".toList else path.stem

def parent (path : AbsPath) : AbsPath :=
  ⟨path.components.dropLast, fun name member => path.named name (List.mem_of_mem_dropLast member)⟩

def base (path : AbsPath) : Str := path.components.getLast?.getD []

@[simp] theorem parent_child (dir : AbsPath) (name : FileName) : (dir.child name).parent = dir := by
  ext1
  simp [parent, child]

@[simp] theorem base_child (dir : AbsPath) (name : FileName) : (dir.child name).base = name.1 := by
  simp [base, child]

theorem eq_root_or_child (path : AbsPath) :
    path = root ∨ ∃ dir name, path = child dir name := by
  rcases List.eq_nil_or_concat path.components with empty | ⟨front, last, equal⟩
  · exact .inl (AbsPath.ext empty)
  · have member : last ∈ path.components := by simp [equal]
    refine .inr ⟨path.parent, ⟨last, path.named last member⟩, ?_⟩
    ext1
    simp [parent, child, equal]

theorem stem_child (dir : AbsPath) (name : FileName) :
    (dir.child name).stem = dir.stem ++ '/' :: name.1 := by
  simp [stem, child]

theorem text_child (dir : AbsPath) (name : FileName) :
    (dir.child name).text = dir.stem ++ '/' :: name.1 := by
  rw [text, if_neg (by simp [child]), stem_child]

theorem flatMap_eq_join {parts : List Str} (started : parts ≠ []) :
    parts.flatMap ('/' :: ·) = '/' :: Text.join "/".toList parts := by
  induction parts with
  | nil => exact absurd rfl started
  | cons name rest induction =>
      cases rest with
      | nil => simp [Text.join, List.intercalate]
      | cons next rest =>
          rw [List.flatMap_cons, induction (by simp)]
          simp [Text.join, List.intercalate]

theorem text_eq (path : AbsPath) :
    path.text = '/' :: Text.join "/".toList path.components := by
  unfold text
  split
  · rename_i empty
    rw [empty]
    rfl
  · rename_i started
    exact flatMap_eq_join started

theorem splitChar_flatMap {parts : List Str} {head : Str} (free : '/' ∉ head)
    (plain : ∀ name ∈ parts, '/' ∉ name) :
    Text.splitChar '/' (head ++ parts.flatMap ('/' :: ·)) = head :: parts := by
  induction parts generalizing head with
  | nil => simpa using Text.splitChar_free free
  | cons name parts induction =>
      rw [List.flatMap_cons, List.cons_append, Text.splitChar_append free,
        induction (plain name (List.mem_cons_self ..)) fun other member =>
          plain other (List.mem_cons_of_mem _ member)]

theorem descend_of_name {taken : List Str} {name : Str} (isName : IsFileName name) :
    descend taken name = taken ++ [name] := by
  rcases isName with ⟨started, notDot, notParent, -⟩
  simp only [descend, started, notDot, notParent, or_self, if_false]

theorem foldl_descend {parts : List Str} (named : ∀ name ∈ parts, IsFileName name)
    (taken : List Str) : parts.foldl descend taken = taken ++ parts := by
  induction parts generalizing taken with
  | nil => simp
  | cons name parts induction =>
      rw [List.foldl_cons, descend_of_name (named name (List.mem_cons_self ..)),
        induction fun other member => named other (List.mem_cons_of_mem _ member)]
      simp

@[simp] theorem ofText_text (path : AbsPath) : ofText path.text = path := by
  ext1
  unfold text
  split
  · rename_i empty
    rw [empty]
    rfl
  · have parts : Text.splitChar '/' path.stem = [] :: path.components := by
      simpa [stem] using splitChar_flatMap List.not_mem_nil fun name member =>
        (path.named name member).2.2.2
    have skipped : descend [] [] = [] := rfl
    simp only [ofText, follow, root, parts, List.foldl_cons, skipped,
      foldl_descend path.named, List.nil_append]

theorem text_injective {path other : AbsPath} (same : path.text = other.text) : path = other := by
  rw [← ofText_text path, same, ofText_text]

theorem isPrefixOf_text (path : AbsPath) : "/".toList.isPrefixOf path.text = true := by
  rw [text_eq]
  rfl

theorem resolve_text (cwd : Str) (path : AbsPath) : resolve cwd path.text = path := by
  rw [resolve, if_pos path.isPrefixOf_text, ofText_text]

end AbsPath

end LlmHoneypot
