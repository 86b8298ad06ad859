import LlmHoneypot.Foundation.PosixPath

/-! # Path texts

`os.path` on texts, without looking at a file system. -/

namespace LlmHoneypot

namespace OsPath

def isSlash (ch : Char) : Bool := ch = '/'

def rstrip (path : Str) : Str := path.rdropWhile isSlash

def strip (path : Str) : Str := rstrip (path.dropWhile isSlash)

def basename (path : Str) : Str := path.rtakeWhile (· ≠ '/')

def dirname (path : Str) : Str :=
  let head := path.rdropWhile (· ≠ '/')
  if head.all isSlash then head else rstrip head

def join (path later : Str) : Str :=
  if later.head? = some '/' then later
  else if path = [] ∨ path.getLast? = some '/' then path ++ later
  else path ++ '/' :: later

def joinParts (parts : List Str) : Str := Text.join "/".toList parts

theorem splitChar_strip (path : Str) :
    ∃ before after, Text.splitChar '/' path =
        List.replicate before [] ++ Text.splitChar '/' (strip path) ++ List.replicate after [] ∧
      (after ≠ 0 → path.getLast? = some '/') := by
  have front : ∃ before, Text.splitChar '/' path =
      List.replicate before [] ++ Text.splitChar '/' (path.dropWhile isSlash) := by
    induction path with
    | nil => exact ⟨0, rfl⟩
    | cons ch path induction =>
        by_cases slash : ch = '/'
        · rcases induction with ⟨before, equal⟩
          exact ⟨before + 1, by simp [Text.splitChar, slash, isSlash, equal, List.replicate_succ]⟩
        · exact ⟨0, by simp [slash, isSlash]⟩
  have back (text : Str) : ∃ after,
      Text.splitChar '/' text = Text.splitChar '/' (rstrip text) ++ List.replicate after [] ∧
        (after ≠ 0 → text.getLast? = some '/') := by
    induction text using List.reverseRecOn with
    | nil => exact ⟨0, by simp [rstrip], by simp⟩
    | append_singleton text ch induction =>
        by_cases slash : ch = '/'
        · rcases induction with ⟨after, equal, -⟩
          apply Exists.intro (after + 1)
          constructor
          · have dropped : rstrip (text ++ ['/']) = rstrip text :=
              List.rdropWhile_concat_pos isSlash text '/' rfl
            rw [slash, Text.splitChar_between, equal, dropped, List.append_assoc,
              List.replicate_succ']
            rfl
          · simp [slash]
        · apply Exists.intro 0
          simp [rstrip, isSlash, slash]
  rcases front with ⟨before, front⟩
  rcases back (path.dropWhile isSlash) with ⟨after, equal, last⟩
  apply Exists.intro before
  apply Exists.intro after
  constructor
  · rw [front, equal, strip, List.append_assoc]
  · intro trailing
    have split := @List.takeWhile_append_dropWhile _ isSlash path
    rw [← split, List.getLast?_append, last trailing]
    rfl

/-! ## Absolute paths by their components -/

section

variable {front : List Str} {name : Str}

def IsComponent (name : Str) : Prop := name ≠ [] ∧ '/' ∉ name

theorem IsComponent.getLast (isComponent : IsComponent name) (started : name ≠ []) :
    ¬ isSlash (name.getLast started) = true := by
  intro slash
  have same : name.getLast started = '/' := by simpa [isSlash] using slash
  exact isComponent.2 (same ▸ List.getLast_mem started)

theorem rstrip_components (before : Str) (isComponent : IsComponent name) :
    rstrip (before ++ '/' :: name) = before ++ '/' :: name := by
  apply List.rdropWhile_eq_self_iff.mpr
  intro started
  have last : (before ++ '/' :: name).getLast started = name.getLast isComponent.1 := by
    rw [List.getLast_append_of_ne_nil _ (List.cons_ne_nil _ _), List.getLast_cons isComponent.1]
  rw [last]
  exact isComponent.getLast isComponent.1

end

end OsPath

end LlmHoneypot
