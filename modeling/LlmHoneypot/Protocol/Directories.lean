import LlmHoneypot.FileHandlers
import LlmHoneypot.Foundation.OsPath
import LlmHoneypot.Foundation.Spelling
import LlmHoneypot.Protocol.Fastpath

/-! # Changing the directory

Where a shell's `cd` leads from a directory, and where the session's does. -/

namespace LlmHoneypot

namespace Protocol

open Responder Spelling

/-! ## What `cd` is given -/

/-- The operand of `cd`: none, an unquoted tilde, one with a path behind it, or a word. -/
inductive CdOperand
  | absent
  | home
  | belowHome (pieces : List Piece) (valid : ∀ piece ∈ pieces, piece.Valid)
  | word (spelled : Word)

namespace CdOperand

def text : CdOperand → Str
  | absent => []
  | home => "~".toList
  | belowHome pieces _ => "~/".toList ++ pieces.flatMap Piece.text
  | word spelled => spelled.text

/-- A shell's directory and the one before it after `cd`, by the names of the path alone. -/
def chdir (homeDir : Str) (place : AbsPath × Option AbsPath) :
    CdOperand → AbsPath × Option AbsPath
  | absent | home => (.ofText homeDir, some place.1)
  | belowHome pieces _ => ((AbsPath.ofText homeDir).follow (pieces.flatMap Piece.value), some place.1)
  | word spelled =>
      if spelled.value = "-".toList then
        match place.2 with
        | some old => (old, some place.1)
        | none => place
      else (.resolve place.1.text spelled.value, some place.1)

end CdOperand

structure CdLine where
  lead : Str
  gap : Gap
  operand : CdOperand
  trail : Str
  leadBlank : ∀ ch ∈ lead, IsBlank ch
  trailBlank : ∀ ch ∈ trail, IsBlank ch
  notOption : ∀ spelled, operand = .word spelled →
    spelled.value.head? = some '-' → spelled.value = "-".toList

def CdLine.text (line : CdLine) : Str :=
  line.lead ++ ("cd".toList ++ (line.gap.text ++ line.operand.text)) ++ line.trail

/-! ## Direct operands -/

def Unquoted (spelled : Word) : Prop := ∀ piece ∈ spelled.pieces, ∃ ch, piece = .plain ch

theorem Unquoted.value {spelled : Word} (unquoted : Unquoted spelled) :
    spelled.value = spelled.text := by
  unfold Word.value Word.text
  apply List.flatMap_congr
  intro piece member
  rcases unquoted piece member with ⟨ch, rfl⟩
  rfl

def IsDirect (text : Str) : Prop :=
  ∃ names : List Str, (∀ name ∈ names, IsFileName name) ∧ ∃ more,
    text = Text.join "/".toList names ++ List.replicate more '/' ∧ names ≠ [] ∨
      text = names.flatMap ('/' :: ·) ++ List.replicate more '/' ∧ text ≠ []

/-- The operand is spelled as the session understands it. -/
def CdOperand.Understood (homeDir : Str) : CdOperand → Prop
  | .absent | .home => ∃ path : AbsPath, homeDir = path.text
  | .belowHome _ _ => False
  | .word spelled =>
      Unquoted spelled ∧ Text.strip spelled.text = spelled.text ∧
        (spelled.text = "-".toList ∨ spelled.text = "..".toList ∨ IsDirect spelled.text)

/-! ## Paths without their last slashes -/

theorem stem_slashes (path : AbsPath) (more : Nat) :
    (path.stem ++ List.replicate more '/').rdropWhile (· = '/') = path.stem := by
  induction more with
  | zero =>
      rw [List.replicate_zero, List.append_nil]
      rcases path.eq_root_or_child with rfl | ⟨dir, name, rfl⟩
      · rfl
      · rw [AbsPath.stem_child]
        exact OsPath.rstrip_components dir.stem ⟨name.2.1, name.2.2.2.2⟩
  | succ more induction =>
      rw [List.replicate_succ', ← List.append_assoc, List.rdropWhile_concat_pos _ _ _ (by decide)]
      exact induction

theorem text_of_stem (path : AbsPath) :
    (if path.stem = [] then "/".toList else path.stem) = path.text := by
  cases components : path.components with
  | nil => simp [AbsPath.text, AbsPath.stem, components]
  | cons name rest => simp [AbsPath.text, AbsPath.stem, components]

theorem text_rdropWhile (path : AbsPath) : path.text.rdropWhile (· = '/') = path.stem := by
  rcases path.eq_root_or_child with rfl | ⟨dir, name, rfl⟩
  · rfl
  · have last := stem_slashes (dir.child name) 0
    rw [List.replicate_zero, List.append_nil] at last
    rw [AbsPath.text_child, ← AbsPath.stem_child, last]

theorem foldl_descend_slashes {names : List Str} (named : ∀ name ∈ names, IsFileName name)
    (taken : List Str) (more : Nat) :
    (names ++ List.replicate more []).foldl AbsPath.descend taken = taken ++ names := by
  rw [List.foldl_append, AbsPath.foldl_descend named]
  induction more with
  | zero => rfl
  | succ more induction => exact induction

theorem components_follow (path : AbsPath) (text : Str) : (path.follow text).components =
    (Text.splitChar '/' text).foldl AbsPath.descend path.components := rfl

theorem flatMap_slashes (names : List Str) (more : Nat) :
    names.flatMap ('/' :: ·) ++ List.replicate more '/' =
      (names ++ List.replicate more []).flatMap ('/' :: ·) := by
  rw [List.flatMap_append, List.append_cancel_left_eq]
  induction more with
  | zero => rfl
  | succ more induction =>
      rw [List.replicate_succ, List.replicate_succ, List.flatMap_cons, induction]
      rfl

section

variable {names : List Str} (named : ∀ name ∈ names, IsFileName name)
include named

theorem plain_slashes (more : Nat) : ∀ part ∈ names ++ List.replicate more [], '/' ∉ part := by
  intro part member
  rcases List.mem_append.mp member with isName | isEmpty
  · exact (named part isName).2.2.2
  · rw [List.eq_of_mem_replicate isEmpty]
    exact List.not_mem_nil

def below (path : AbsPath) : AbsPath :=
  ⟨path.components ++ names, by
    intro name member
    rcases List.mem_append.mp member with inside | behind
    · exact path.named name inside
    · exact named name behind⟩

theorem follow_relative (path : AbsPath) (more : Nat) (started : names ≠ []) :
    path.follow (Text.join "/".toList names ++ List.replicate more '/') = below named path := by
  cases names with
  | nil => exact absurd rfl started
  | cons name rest =>
      have whole := flatMap_slashes (name :: rest) more
      rw [AbsPath.flatMap_eq_join started, List.cons_append, List.cons_append, List.flatMap_cons,
        List.cons_append] at whole
      have plain := plain_slashes named more
      have parts : Text.splitChar '/' (name ++ (rest ++ List.replicate more []).flatMap ('/' :: ·)) =
          name :: (rest ++ List.replicate more []) :=
        AbsPath.splitChar_flatMap (plain name List.mem_cons_self)
          fun part member => plain part (List.mem_cons_of_mem _ member)
      ext1
      rw [(List.cons.inj whole).2, components_follow, parts]
      exact foldl_descend_slashes named path.components more

theorem ofText_absolute (more : Nat) :
    AbsPath.ofText (names.flatMap ('/' :: ·) ++ List.replicate more '/') =
      below named .root := by
  have parts := AbsPath.splitChar_flatMap (List.not_mem_nil (a := '/')) (plain_slashes named more)
  rw [List.nil_append] at parts
  ext1
  rw [flatMap_slashes, AbsPath.ofText, components_follow, parts]
  exact foldl_descend_slashes named [] more

end

theorem join_nil_cons (names : List Str) :
    Text.join "/".toList ([] :: names) = names.flatMap ('/' :: ·) := by
  have whole := AbsPath.flatMap_eq_join (List.cons_ne_nil [] names)
  rw [List.flatMap_cons] at whole
  exact (List.cons.inj whole).2.symm

/-! ## Steps -/

def cdPath (homeDir cwd : Str) (prevCwd : Option Str) (arg : Str) : Str :=
  if arg = [] ∨ arg = "~".toList then homeDir
  else if arg = "-".toList then prevCwd.getD cwd
  else if "/".toList.isPrefixOf arg then arg
  else if arg = "..".toList then
    let parent := Text.join "/".toList (Text.splitChar '/' (cwd.rdropWhile (· = '/'))).dropLast
    if parent = [] then "/".toList else parent
  else cwd.rdropWhile (· = '/') ++ '/' :: arg

def collapse (path : Str) : Str :=
  if path.rdropWhile (· = '/') = [] then "/".toList else path.rdropWhile (· = '/')

theorem newCwd_eq (homeDir cwd : Str) (prevCwd : Option Str) (arg : Str) :
    newCwd homeDir cwd prevCwd arg = collapse (cdPath homeDir cwd prevCwd arg) := rfl

theorem collapse_stem (path : AbsPath) (more : Nat) :
    collapse (path.stem ++ List.replicate more '/') = path.text := by
  rw [collapse, stem_slashes]
  exact text_of_stem path

theorem collapse_text (path : AbsPath) : collapse path.text = path.text := by
  rw [collapse, text_rdropWhile]
  exact text_of_stem path

section

variable {homeDir : Str} {cwd : AbsPath} {prev : Option Str}

theorem newCwd_home (path : AbsPath) {arg : Str} (isHome : arg = [] ∨ arg = "~".toList) :
    newCwd path.text cwd.text prev arg = path.text := by
  rw [newCwd_eq, cdPath, if_pos isHome]
  exact collapse_text path

theorem newCwd_back {old : AbsPath} (before : prev.getD cwd.text = old.text) :
    newCwd homeDir cwd.text prev "-".toList = old.text := by
  rw [newCwd_eq, cdPath, if_neg (by decide), if_pos rfl, before]
  exact collapse_text old

theorem newCwd_parent : newCwd homeDir cwd.text prev "..".toList = cwd.parent.text := by
  have parts : Text.splitChar '/' cwd.stem = [] :: cwd.components :=
    AbsPath.splitChar_flatMap List.not_mem_nil fun name member => (cwd.named name member).2.2.2
  rw [newCwd_eq, cdPath, if_neg (by decide), if_neg (by decide), if_neg (by decide), if_pos rfl,
    text_rdropWhile, parts]
  have path : (if Text.join "/".toList ([] :: cwd.components).dropLast = [] then "/".toList
      else Text.join "/".toList ([] :: cwd.components).dropLast) = cwd.parent.text := by
    cases components : cwd.components with
    | nil => simp [AbsPath.text, AbsPath.parent, components, Text.join]
    | cons name rest =>
        have behind : Text.join "/".toList ([] :: (name :: rest).dropLast) = cwd.parent.stem := by
          rw [join_nil_cons, ← components]
          rfl
        rw [List.dropLast_cons_of_ne_nil (List.cons_ne_nil _ _), behind]
        exact text_of_stem cwd.parent
  simp only [path]
  exact collapse_text cwd.parent

theorem relative_head {names : List Str} (named : ∀ name ∈ names, IsFileName name) (more : Nat)
    (started : names ≠ []) {arg : Str}
    (spelled : arg = Text.join "/".toList names ++ List.replicate more '/') :
    ∃ ch rest, arg = ch :: rest ∧ ch ≠ '/' := by
  cases names with
  | nil => exact absurd rfl started
  | cons name rest =>
      rcases named name List.mem_cons_self with ⟨notEmpty, -, -, plain⟩
      cases name with
      | nil => exact absurd rfl notEmpty
      | cons ch name =>
          have notSlash : ch ≠ '/' := by
            intro slash
            exact plain (slash ▸ List.mem_cons_self)
          cases rest with
          | nil => exact ⟨ch, _, spelled, notSlash⟩
          | cons next rest => exact ⟨ch, _, spelled, notSlash⟩

theorem relative_notAbsolute {names : List Str} (named : ∀ name ∈ names, IsFileName name)
    (more : Nat) (started : names ≠ []) {arg : Str}
    (spelled : arg = Text.join "/".toList names ++ List.replicate more '/') :
    ¬ "/".toList.isPrefixOf arg = true := by
  rcases relative_head named more started spelled with ⟨ch, rest, isArg, notSlash⟩
  rw [isArg]
  intro isPrefix
  exact notSlash (List.cons_prefix_cons.mp (List.isPrefixOf_iff_prefix.mp isPrefix)).1.symm

theorem absolute_head {names : List Str} (more : Nat) {arg : Str}
    (spelled : arg = names.flatMap ('/' :: ·) ++ List.replicate more '/') (started : arg ≠ []) :
    ∃ rest, arg = '/' :: rest := by
  rw [flatMap_slashes] at spelled
  cases parts : names ++ List.replicate more [] with
  | nil =>
      rw [parts] at spelled
      exact absurd spelled started
  | cons part rest =>
      rw [parts] at spelled
      exact ⟨_, spelled⟩

theorem newCwd_relative {names : List Str} (named : ∀ name ∈ names, IsFileName name) (more : Nat)
    (started : names ≠ []) {arg : Str}
    (spelled : arg = Text.join "/".toList names ++ List.replicate more '/')
    (special : arg ≠ "-".toList ∧ arg ≠ "~".toList) :
    newCwd homeDir cwd.text prev arg = (below named cwd).text := by
  have whole : cwd.stem ++ '/' :: arg = (below named cwd).stem ++ List.replicate more '/' := by
    rw [spelled, ← List.cons_append, ← AbsPath.flatMap_eq_join started, AbsPath.stem, AbsPath.stem,
      below, List.flatMap_append, List.append_assoc]
  rcases relative_head named more started spelled with ⟨ch, rest, isArg, -⟩
  have notEmpty : arg ≠ [] := by
    rw [isArg]
    exact List.cons_ne_nil _ _
  have notAbsolute := relative_notAbsolute named more started spelled
  have notParent : arg ≠ "..".toList := by
    intro isParent
    have path := follow_relative named .root more started
    rw [← spelled, isParent] at path
    exact started (congrArg AbsPath.components path).symm
  rw [newCwd_eq, cdPath, if_neg (not_or.mpr ⟨notEmpty, special.2⟩), if_neg special.1,
    if_neg notAbsolute, if_neg notParent, text_rdropWhile, whole]
  exact collapse_stem _ more

theorem newCwd_absolute {names : List Str} (named : ∀ name ∈ names, IsFileName name) (more : Nat)
    {arg : Str} (spelled : arg = names.flatMap ('/' :: ·) ++ List.replicate more '/')
    (started : arg ≠ []) :
    newCwd homeDir cwd.text prev arg = (below named .root).text := by
  have first := absolute_head more spelled started
  have isStem : arg = (below named .root).stem ++ List.replicate more '/' := spelled
  rcases first with ⟨rest, equal⟩
  rw [newCwd_eq, cdPath, if_neg, if_neg, if_pos, isStem]
  · exact collapse_stem _ more
  · rw [equal]
    rfl
  · rw [equal]
    exact fun same => absurd (List.cons.inj same).1 (by decide)
  · rw [equal]
    rintro (same | same)
    · cases same
    · exact absurd (List.cons.inj same).1 (by decide)

end

/-! ## The shell's paths -/

section

variable {cwd : AbsPath}

theorem resolve_parent : AbsPath.resolve cwd.text "..".toList = cwd.parent := by
  rw [AbsPath.resolve, if_neg (by decide), AbsPath.ofText_text]
  rfl

theorem resolve_relative {names : List Str} (named : ∀ name ∈ names, IsFileName name) (more : Nat)
    (started : names ≠ []) {arg : Str}
    (spelled : arg = Text.join "/".toList names ++ List.replicate more '/') :
    AbsPath.resolve cwd.text arg = below named cwd := by
  have notAbsolute := relative_notAbsolute named more started spelled
  rw [AbsPath.resolve, if_neg notAbsolute, AbsPath.ofText_text, spelled]
  exact follow_relative named cwd more started

theorem resolve_absolute {names : List Str} (named : ∀ name ∈ names, IsFileName name) (more : Nat)
    {arg : Str} (spelled : arg = names.flatMap ('/' :: ·) ++ List.replicate more '/')
    (started : arg ≠ []) : AbsPath.resolve cwd.text arg = below named .root := by
  rcases absolute_head more spelled started with ⟨rest, isArg⟩
  have isAbsolute : "/".toList.isPrefixOf arg = true := by
    rw [isArg]
    rfl
  rw [AbsPath.resolve, if_pos isAbsolute, spelled]
  exact ofText_absolute named more

theorem Unquoted.ne_tilde {spelled : Word} (unquoted : Unquoted spelled) :
    spelled.text ≠ "~".toList := by
  intro isTilde
  cases pieces : spelled.pieces with
  | nil => exact spelled.started pieces
  | cons piece rest =>
      rcases unquoted piece (pieces ▸ List.mem_cons_self) with ⟨ch, rfl⟩
      rw [Word.text, pieces] at isTilde
      have first : ch = '~' := (List.cons.inj isTilde).1
      apply spelled.ordinary.2
      rw [pieces, first]
      rfl

end

/-! ## Lines -/

section

open Text (isSpace strip lstrip rstrip)

theorem strip_last {text : Str} (stripped : strip text = text) (started : text ≠ []) (front : Str) :
    rstrip (front ++ text) = front ++ text := by
  have same : rstrip text = text := by
    calc rstrip text
      _ = rstrip (strip text) := by rw [stripped]
      _ = strip text := List.rdropWhile_idempotent ..
      _ = text := stripped
  apply List.rdropWhile_eq_self_iff.mpr
  intro notEmpty
  rw [List.getLast_append_of_ne_nil _ started]
  exact List.rdropWhile_eq_self_iff.mp same started

theorem strip_blanks {front text back : Str} (stripped : strip text = text)
    (frontBlank : ∀ ch ∈ front, IsBlank ch) (backBlank : ∀ ch ∈ back, IsBlank ch) :
    strip (front ++ text ++ back) = text := by
  have dropped : lstrip (front ++ text ++ back) = lstrip (text ++ back) := by
    rw [List.append_assoc]
    exact List.dropWhile_append_of_pos fun ch member => space_of_blank (frontBlank ch member)
  rw [strip, dropped]
  by_cases empty : text = []
  · rw [empty, List.nil_append]
    exact Text.strip_eq_nil_iff.mpr fun ch member => space_of_blank (backBlank ch member)
  · have visible : lstrip text ≠ [] := by
      apply Text.lstrip_ne_nil_of_strip
      rw [stripped]
      exact empty
    have cut : rstrip (lstrip text ++ back) = rstrip (lstrip text) := by
      have blank : ∀ ch ∈ back.reverse, isSpace ch = true := fun ch member =>
        space_of_blank (backBlank ch (List.mem_reverse.mp member))
      rw [rstrip, List.rdropWhile, List.reverse_append, List.dropWhile_append_of_pos blank]
      rfl
    rw [Text.lstrip_append _ visible, cut]
    exact stripped

theorem afterFirstWord_cd (gap : Gap) (text : Str) :
    Text.afterFirstWord ("cd".toList ++ (gap.text ++ text)) = lstrip text := by
  have word : ("cd".toList ++ (gap.text ++ text)).dropWhile (!isSpace ·) = gap.text ++ text := by
    cases spelled : gap.text with
    | nil => exact absurd spelled gap.started
    | cons ch rest =>
        have blank : isSpace ch = true := by
          apply space_of_blank
          apply gap.blank
          rw [spelled]
          exact List.mem_cons_self
        have letters : ("cd".toList.all fun ch => !isSpace ch) = true := by decide
        rw [List.dropWhile_append_of_pos (List.all_eq_true.mp letters)]
        simp [blank]
  rw [Text.afterFirstWord, word,
    List.dropWhile_append_of_pos fun ch member => space_of_blank (gap.blank ch member)]
  rfl

theorem cdArg_text (line : CdLine) (stripped : strip line.operand.text = line.operand.text) :
    cdArg line.text = line.operand.text := by
  have started : strip ("cd".toList ++ (line.gap.text ++ line.operand.text)) =
      rstrip ("cd".toList ++ (line.gap.text ++ line.operand.text)) := rfl
  by_cases absent : line.operand.text = []
  · have back : ∀ ch ∈ line.gap.text ++ line.trail, IsBlank ch := by
      intro ch member
      rcases List.mem_append.mp member with inGap | inTrail
      · exact line.gap.blank ch inGap
      · exact line.trailBlank ch inTrail
    have whole : line.text = line.lead ++ "cd".toList ++ (line.gap.text ++ line.trail) := by
      rw [CdLine.text, absent, List.append_nil]
      simp
    rw [cdArg, whole, strip_blanks (by decide) line.leadBlank back, absent]
    rfl
  · have core : strip ("cd".toList ++ (line.gap.text ++ line.operand.text)) =
        "cd".toList ++ (line.gap.text ++ line.operand.text) := by
      rw [started, ← List.append_assoc]
      exact strip_last stripped absent _
    rw [cdArg, CdLine.text, strip_blanks core line.leadBlank line.trailBlank, afterFirstWord_cd]
    calc strip (lstrip line.operand.text)
      _ = strip line.operand.text := congrArg rstrip (List.dropWhile_idempotent ..)
      _ = line.operand.text := stripped

end

/-! ## Runs -/

section

variable {homeDir : Str}

def Remembers (place : AbsPath × Option AbsPath) (prevCwd : Option Str) : Prop :=
  prevCwd.getD place.1.text = (place.2.getD place.1).text

theorem newCwd_operand {operand : CdOperand} (understood : operand.Understood homeDir)
    {place : AbsPath × Option AbsPath} {prevCwd : Option Str} (before : Remembers place prevCwd) :
    newCwd homeDir place.1.text prevCwd operand.text = (operand.chdir homeDir place).1.text ∧
      Remembers (operand.chdir homeDir place) (some place.1.text) := by
  cases operand with
  | absent =>
      rcases understood with ⟨path, rfl⟩
      constructor
      · rw [CdOperand.text, newCwd_home path (.inl rfl), CdOperand.chdir, AbsPath.ofText_text]
      · rfl
  | home =>
      rcases understood with ⟨path, rfl⟩
      constructor
      · rw [CdOperand.text, newCwd_home path (.inr rfl), CdOperand.chdir, AbsPath.ofText_text]
      · rfl
  | belowHome pieces valid => exact understood.elim
  | word spelled =>
      rcases understood with ⟨unquoted, -, shape⟩
      rw [CdOperand.text, CdOperand.chdir, unquoted.value]
      by_cases back : spelled.text = "-".toList
      · rw [if_pos back, back, newCwd_back before]
        cases isOld : place.2 with
        | some old => exact ⟨rfl, rfl⟩
        | none =>
            refine ⟨rfl, ?_⟩
            rw [Remembers, isOld]
            rfl
      · rw [if_neg back]
        refine ⟨?_, rfl⟩
        rcases shape with isBack | isParent | direct
        · exact absurd isBack back
        · rw [isParent, newCwd_parent, resolve_parent]
        · rcases direct with ⟨names, named, more, relative | absolute⟩
          · have notTilde := unquoted.ne_tilde
            rw [newCwd_relative named more relative.2 relative.1 ⟨back, notTilde⟩,
              resolve_relative named more relative.2 relative.1]
          · rw [newCwd_absolute named more absolute.1 absolute.2,
              resolve_absolute named more absolute.1 absolute.2]

theorem CdOperand.Understood.stripped {operand : CdOperand}
    (understood : operand.Understood homeDir) : Text.strip operand.text = operand.text := by
  cases operand with
  | absent => rfl
  | home => decide
  | belowHome pieces valid => exact understood.elim
  | word spelled => exact understood.2.1

theorem replay_chdir {lines : List CdLine}
    (understood : ∀ line ∈ lines, line.operand.Understood homeDir)
    {place : AbsPath × Option AbsPath} {prevCwd : Option Str} (before : Remembers place prevCwd) :
    (replay homeDir (place.1.text, prevCwd) (lines.map CdLine.text)).1 =
      (lines.foldl (fun place line => line.operand.chdir homeDir place) place).1.text := by
  induction lines generalizing place prevCwd with
  | nil => rfl
  | cons line lines induction =>
      have first := understood line List.mem_cons_self
      have step := newCwd_operand first before
      rw [List.map_cons, replay, List.foldl_cons, ← replay, List.foldl_cons,
        cdArg_text line first.stripped, step.1]
      exact induction (fun other member => understood other (List.mem_cons_of_mem _ member)) step.2

theorem replay_run {start : AbsPath × Option AbsPath} {lines : List CdLine}
    (understood : ∀ line ∈ lines, line.operand.Understood homeDir) {front : List CdLine}
    (reached : front <+: lines) :
    (replay homeDir (start.1.text, start.2.map AbsPath.text) (front.map CdLine.text)).1 =
      (front.foldl (fun place line => line.operand.chdir homeDir place) start).1.text := by
  apply replay_chdir
  · exact fun line member => understood line (reached.subset member)
  · rw [Remembers]
    cases start.2 with
    | none => rfl
    | some old => rfl

theorem hLs_absolute (formats : Vfs.Formats) (path : AbsPath) (ctx : ShellContext) (user : Str) :
    hLs formats [path.text] ctx user = hLs formats [] { ctx with cwd := path.text } user := by
  have absolute := path.isPrefixOf_text
  have started : ∃ rest, path.text = '/' :: rest := by
    cases isText : path.text with
    | nil => rw [isText] at absolute; cases absolute
    | cons ch rest =>
        rw [isText] at absolute
        have slash : '/' = ch := by simpa using absolute
        exact ⟨rest, by rw [slash]⟩
  rcases started with ⟨rest, isText⟩
  have operand : lsArg {} path.text = some { paths := [path.text] } := by
    rw [isText]
    rfl
  have resolved : resolvePath path.text ctx = path.text := by
    rw [isText]
    rfl
  simp only [hLs, List.foldlM_cons, List.foldlM_nil, operand, Option.bind_eq_bind,
    Option.bind_some, Option.pure_def, List.length_singleton, Nat.lt_irrefl, if_false, resolved]
  rfl

/-- The directory after such a run is the one that the prompt shows, that `pwd` prints, that `ls`
lists and that a relative path starts from. -/
theorem directory_readers {start : AbsPath × Option AbsPath} {lines : List CdLine}
    (understood : ∀ line ∈ lines, line.operand.Understood homeDir) {front : List CdLine}
    (reached : front <+: lines) {session : Session}
    (isThere : session.cwd = (replay homeDir (start.1.text, start.2.map AbsPath.text)
      (front.map CdLine.text)).1) :
    let here := (front.foldl (fun place line => line.operand.chdir homeDir place) start).1
    (∃ sigil, session.promptText =
      session.effectiveUser ++ '@' :: session.hostname ++ ':' :: here.text ++ sigil) ∧
    (∀ env command rest, runFastVerb env command rest session .pwd =
      showPromptJittered env (session.write (here.text ++ "\n".toList))) ∧
    (∀ formats user, hLs formats [] session.shellContext user =
      hLs formats [here.text] session.shellContext user) ∧
    ∀ path, AbsPath.resolve session.cwd path = AbsPath.resolve here.text path := by
  intro here
  have isHere : session.cwd = here.text := isThere.trans (replay_run understood reached)
  refine ⟨⟨[if session.effectiveUser = "root".toList then '#' else '$', ' '], ?_⟩, ?_, ?_, ?_⟩
  · rw [← isHere]
    rfl
  · intro env command rest
    rw [← isHere]
    rfl
  · intro formats user
    rw [hLs_absolute, ← isHere]
    rfl
  · intro path
    rw [isHere]

/-- In a run of `cd` whose operands are spelled as the session understands them, every directory
is the one that the shell changes to. -/
theorem cd_resolves {start : AbsPath × Option AbsPath} {lines : List CdLine}
    (understood : ∀ line ∈ lines, line.operand.Understood homeDir) {front : List CdLine}
    (reached : front <+: lines) :
    (replay homeDir (start.1.text, start.2.map AbsPath.text) (front.map CdLine.text)).1 =
      (front.foldl (fun place line => line.operand.chdir homeDir place) start).1.text :=
  replay_run understood reached

end

/-! ## Two runs -/

theorem unquoted_ofPlain {text : Str} (ordinary : Word.IsOrdinary text) :
    Unquoted (.ofPlain text ordinary) := by
  intro piece member
  rcases List.mem_map.mp member with ⟨ch, -, equal⟩
  exact ⟨ch, equal.symm⟩

theorem text_ofPlain {text : Str} (ordinary : Word.IsOrdinary text) :
    (Word.ofPlain text ordinary).text = text := by
  simp [Word.text, Word.ofPlain, List.flatMap_map, Piece.text]

theorem plain_notOption {text : Str} (ordinary : Word.IsOrdinary text)
    (notOption : text.head? ≠ some '-') (spelled : Word)
    (same : CdOperand.word (.ofPlain text ordinary) = .word spelled)
    (dash : spelled.value.head? = some '-') : spelled.value = "-".toList := by
  rw [← CdOperand.word.inj same, (unquoted_ofPlain ordinary).value, text_ofPlain] at dash
  exact absurd dash notOption

def cdPlain (text : Str) (ordinary : Word.IsOrdinary text) (notOption : text.head? ≠ some '-') :
    CdLine where
  lead := []
  gap := ⟨[' '], space_started, blank_space⟩
  operand := .word (.ofPlain text ordinary)
  trail := []
  leadBlank := blank_none
  trailBlank := blank_none
  notOption := plain_notOption ordinary notOption

theorem ordinary_var : Word.IsOrdinary "/var//".toList := by decide

theorem ordinary_up : Word.IsOrdinary "../..".toList := by decide

theorem var_notOption : "/var//".toList.head? ≠ some '-' := by decide

theorem up_notOption : "../..".toList.head? ≠ some '-' := by decide

theorem named_log : ∀ name ∈ ["var".toList, "log".toList], IsFileName name := by decide

def logDir : AbsPath := ⟨["var".toList, "log".toList], named_log⟩

theorem cd_resolves_var :
    (replay "/root".toList (logDir.text, none)
      ([cdPlain "/var//".toList ordinary_var var_notOption].map CdLine.text)).1 = "/var".toList := by
  have understood : ∀ line ∈ [cdPlain "/var//".toList ordinary_var var_notOption],
      line.operand.Understood "/root".toList := by
    intro line member
    rw [List.mem_singleton.mp member]
    refine ⟨unquoted_ofPlain ordinary_var, by decide, .inr (.inr ⟨["var".toList], by decide, 2, ?_⟩)⟩
    exact .inr ⟨by decide, by decide⟩
  have run := @cd_resolves _ (logDir, none) _ understood _ List.prefix_rfl
  exact run.trans (by decide)

/-- `cd ../..` leaves its dots in the directory. -/
theorem cd_keeps_dots :
    (replay "/root".toList (logDir.text, none)
        ([cdPlain "../..".toList ordinary_up up_notOption].map CdLine.text)).1 ≠
      ([cdPlain "../..".toList ordinary_up up_notOption].foldl
        (fun place line => line.operand.chdir "/root".toList place) (logDir, none)).1.text := by
  decide

end Protocol

end LlmHoneypot
