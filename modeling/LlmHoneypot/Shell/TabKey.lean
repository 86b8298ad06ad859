import LlmHoneypot.Foundation.CommonPrefix
import LlmHoneypot.Foundation.Joined
import LlmHoneypot.Foundation.Utf8Ascii
import LlmHoneypot.HoneyFs.Tree

/-! # The TAB key

`handle_TAB` of the shell: the word before the end of the line buffer is completed from the
names in its directory. -/

namespace LlmHoneypot

namespace TabKey

open HoneyFs Utf8
open CommonPrefix ( commonprefix)

/-! ## The key -/

inductive Raised
  | lookup (raised : HoneyFs.Raised)
  | indexError
  | typeError
  | unicodeError
  deriving DecidableEq, Repr

/-- What the key looks at besides the line. `columns` is the width of the window. -/
structure Shell where
  tree : HoneyPotFilesystem
  limit : Nat
  cwd : Str
  interactive : Bool := true
  configuredPrompt : Option Str := none
  username : Str
  hostname : Str
  home : Str
  uid : Nat
  columns : Nat

inductive Output
  | cursorBackward
  | deleteCharacter
  | bytes (data : Bytes)
  deriving DecidableEq, Repr

structure LineBuffer where
  lineBuffer : Bytes
  lineBufferIndex : Nat
  written : List Output := []
  deriving DecidableEq, Repr

def isBlank (byte : UInt8) : Bool := byte = 32 || (9 ≤ byte && byte ≤ 13)

/-- `line.split()[-1]`, `none` where there is no word. -/
def lastWord (line : Bytes) : Option Bytes :=
  let stripped := line.rdropWhile isBlank
  if stripped = [] then none else some (stripped.rtakeWhile (!isBlank ·))

def clueOf (line : Bytes) : Except Raised Str :=
  if line.getLast? = some 32 then .ok []
  else
    match lastWord line with
    | none => .error .indexError
    | some word =>
        match decode word with
        | none => .error .unicodeError
        | some clue => .ok clue

def basedirOf (clue : Str) : Str :=
  let basedir := OsPath.dirname clue
  if basedir ≠ [] ∧ basedir.getLast? ≠ some '/' then basedir ++ ['/'] else basedir

/-- The entries in the directory of a word; none where it is not there. -/
def entriesAt (shell : Shell) (basedir : Str) : Except Raised (List Entry) :=
  let tmppath := if basedir = [] then shell.cwd else basedir
  match resolvePath shell.tree.home tmppath shell.cwd with
  | .error _ => .ok []
  | .ok r =>
      match shell.tree.exists_ shell.limit r with
      | .error raised => .error (.lookup raised)
      | .ok false => .ok []
      | .ok true =>
          match shell.tree.getPath shell.limit r with
          | .error raised => .error (.lookup raised)
          | .ok reference =>
              match (shell.tree.entry reference).contents with
              | .list entries => .ok (entries.map shell.tree.entry)
              | .bytes [] => .ok []
              | .bytes _ => .error .typeError

def matching (clue : Str) (entries : List Entry) : List Entry :=
  entries.filter fun entry => clue = [] || (OsPath.basename clue).isPrefixOf entry.name

/-- What is written behind a name that is the only one. -/
def ending (entry : Entry) : Str := if entry.type = .dir then ['/'] else [' ']

def shared (clue : Str) (files : List Entry) : Str :=
  if OsPath.basename clue ≠ [] then commonprefix (files.map Entry.name) else []

def newbuf (line clue : Str) : (files : List Entry) → Str
  | [file] =>
      Text.join [' '] ((Text.words line).dropLast ++ [basedirOf clue ++ file.name]) ++ ending file
  | files =>
      Text.join [' '] ((Text.splitChar ' ' line).dropLast ++ [basedirOf clue ++ shared clue files])

def ljust (width : Nat) (name : Str) : Str := name ++ List.replicate (width - name.length) ' '

def rows (perline maxlen : Nat) : (count : Nat) → List Str → List Output
  | _, [] => []
  | count, name :: names =>
      (if count = perline then [.bytes [10]] else []) ++
        .bytes (encode (ljust maxlen name)) ::
          rows perline maxlen ((if count = perline then 0 else count) + 1) names

def listing (shell : Shell) (files : List Entry) : List Output :=
  let names := files.map Entry.name
  let maxlen := (names.map List.length).foldl max 0 + 1
  .bytes [10] :: rows (shell.columns / (maxlen + 1)) maxlen 0 names ++ [.bytes [10]]

def promptText (shell : Shell) : Str :=
  match shell.configuredPrompt with
  | some prompt => prompt ++ [' ']
  | none =>
      let homelen := shell.home.length
      let cwd :=
        if shell.cwd = shell.home then ['~']
        else if homelen + 1 < shell.cwd.length ∧ shell.cwd.take (homelen + 1) = shell.home ++ ['/']
        then '~' :: shell.cwd.drop homelen
        else shell.cwd
      shell.username ++ '@' :: shell.hostname ++ ':' :: cwd ++
        if shell.uid = 0 then ['#', ' '] else ['$', ' ']

def showPrompt (shell : Shell) : Except Raised (List Output) :=
  if ¬ shell.interactive then .ok []
  else if (promptText shell).all (·.toNat < 128) then .ok [.bytes (encode (promptText shell))]
  else .error .unicodeError

def listed (shell : Shell) (line newbyt : Bytes) : (files : List Entry) → Except Raised (List Output)
  | [_] => .ok []
  | files =>
      if newbyt = line then (showPrompt shell).map (listing shell files ++ ·) else .ok []

def handleTAB (shell : Shell) (state : LineBuffer) : Except Raised LineBuffer :=
  let line := state.lineBuffer
  if line = [] then .ok state
  else do
    let clue ← clueOf line
    let entries ← entriesAt shell (basedirOf clue)
    let files := matching clue entries
    if files = [] then .ok state
    else
      match decode line with
      | none => .error .unicodeError
      | some text => do
          let newbyt := encode (newbuf text clue files)
          let shown ← listed shell line newbyt files
          let cleared := (List.replicate state.lineBufferIndex
            [Output.cursorBackward, Output.deleteCharacter]).flatten
          .ok
            { lineBuffer := newbyt
              lineBufferIndex := newbyt.length
              written := state.written ++ cleared ++ shown ++ [.bytes newbyt] }

/-! ## Completion -/

def candidates (shell : Shell) (before : Bytes) : List Entry :=
  match decode (before.rtakeWhile (!isBlank ·)) with
  | none => []
  | some word =>
      match entriesAt shell (basedirOf word) with
      | .error _ => []
      | .ok entries => matching word entries

def typed (before : Bytes) : Str :=
  ((decode (before.rtakeWhile (!isBlank ·))).map OsPath.basename).getD []

/-- A text that completes the word before the cursor: nothing where no name matches, the rest of
the only name and what stands behind it, or something that all names go on with. -/
def Completes (shell : Shell) (before inserted : Bytes) : Prop :=
  match candidates shell before with
  | [] => inserted = []
  | [entry] => ∃ rest, entry.name = typed before ++ rest ∧ inserted = encode (rest ++ ending entry)
  | entries =>
      ∃ rest, inserted = encode rest ∧ ∀ entry ∈ entries, typed before ++ rest <+: entry.name

/-- The line is extended at the cursor and kept otherwise; on an empty line nothing happens. -/
def Extends (shell : Shell) (state : LineBuffer) : Prop :=
  ∃ next, handleTAB shell state = .ok next ∧
    (state.lineBuffer = [] ∧ next.lineBuffer = [] ∨
      ∃ inserted, Completes shell (state.lineBuffer.take state.lineBufferIndex) inserted ∧
        next.lineBuffer = state.lineBuffer.take state.lineBufferIndex ++ inserted ++
          state.lineBuffer.drop state.lineBufferIndex)

/-! ## Lines that the key extends -/

def EndsPlain (line : Bytes) : Prop := ∀ byte ∈ line.getLast?, byte = 32 ∨ isBlank byte = false

def pieces (line : Str) : (files : List Entry) → List Str
  | [_] => Text.words line
  | _ => Text.splitChar ' ' line

/-- All pieces of the line but the last one, and the clue behind its directory, are the line:
no blank of it is dropped or changed, and no slash. -/
def Rebuilds (line clue : Str) (files : List Entry) : Prop :=
  Text.join [' '] ((pieces line files).dropLast ++ [basedirOf clue ++ OsPath.basename clue]) = line

def AddsNothing (clue : Str) (files : List Entry) : Prop :=
  files.length ≠ 1 ∧ shared clue files = OsPath.basename clue

/-- The names are found, and the line is rebuilt where there are some; the prompt can be written
where they are listed. -/
structure Found (shell : Shell) (line : Bytes) (clue : Str) (entries : List Entry) : Prop where
  isClue : clueOf line = .ok clue
  isEntries : entriesAt shell (basedirOf clue) = .ok entries
  rebuilds : matching clue entries ≠ [] → ∃ text, decode line = some text ∧
    Rebuilds text clue (matching clue entries) ∧
    (AddsNothing clue (matching clue entries) → ∃ prompt, showPrompt shell = .ok prompt)

/-- When the key only extends the line: the cursor is at the end and the line is rebuilt, or
nothing is found and the word at the cursor does not stand for one name. -/
def Fits (shell : Shell) (state : LineBuffer) : Prop :=
  state.lineBuffer = [] ∨
    (state.lineBuffer.length ≤ state.lineBufferIndex ∧ EndsPlain state.lineBuffer ∧
      ∃ clue entries, Found shell state.lineBuffer clue entries) ∨
    ∃ clue entries, Found shell state.lineBuffer clue entries ∧ matching clue entries = [] ∧
      (candidates shell (state.lineBuffer.take state.lineBufferIndex)).length ≠ 1

def BlankCode (ch : Char) : Prop := ∃ byte, isBlank byte = true ∧ ch.toNat = byte.toNat

/-- No name in the directory of the last word has a slash or a blank. -/
def PlainNames (shell : Shell) (line : Bytes) : Prop :=
  ∀ clue entries, clueOf line = .ok clue → entriesAt shell (basedirOf clue) = .ok entries →
    ∀ entry ∈ entries, ∀ ch ∈ entry.name, ch ≠ '/' ∧ ¬ BlankCode ch

/-- The line is completed at its end, and the cursor is before it. -/
def Misplaced (shell : Shell) (state : LineBuffer) : Prop :=
  state.lineBufferIndex < state.lineBuffer.length ∧
    ∃ clue entries, clueOf state.lineBuffer = .ok clue ∧
      entriesAt shell (basedirOf clue) = .ok entries ∧ matching clue entries ≠ []

section Word

variable {line : Bytes} {clue : Str}

theorem word_of_clue (plain : EndsPlain line) (isClue : clueOf line = .ok clue) :
    decode (line.rtakeWhile (!isBlank ·)) = some clue := by
  unfold clueOf at isClue
  cases line using List.reverseRecOn with
  | nil => cases isClue
  | append_singleton line last =>
      have isLast : (line ++ [last]).getLast? = some last := List.getLast?_concat
      rw [isLast] at isClue
      by_cases space : last = 32
      · rw [space, if_pos rfl] at isClue
        cases isClue
        rw [space, List.rtakeWhile_concat_neg _ _ _ (by decide)]
        rfl
      · have notBlank := (plain last isLast).resolve_left space
        have stripped : (line ++ [last]).rdropWhile isBlank = line ++ [last] :=
          List.rdropWhile_concat_neg _ _ _ (by rw [notBlank]; exact Bool.false_ne_true)
        have notSpace : ¬ some last = some 32 := fun same => space (Option.some.inj same)
        rw [if_neg notSpace] at isClue
        simp only [lastWord, stripped, List.append_eq_nil_iff, List.cons_ne_nil, and_false,
          if_false] at isClue
        cases decoded : decode ((line ++ [last]).rtakeWhile (!isBlank ·)) with
        | none =>
            rw [decoded] at isClue
            cases isClue
        | some word =>
            rw [decoded] at isClue
            cases isClue
            rfl

theorem candidates_of_clue {shell : Shell} {entries : List Entry} (plain : EndsPlain line)
    (isClue : clueOf line = .ok clue) (isEntries : entriesAt shell (basedirOf clue) = .ok entries) :
    candidates shell line = matching clue entries ∧ typed line = OsPath.basename clue := by
  have word := word_of_clue plain isClue
  rw [candidates, typed, word]
  simp only [isEntries, true_and]
  rfl

end Word

theorem mem_matching {clue : Str} {entries : List Entry} {entry : Entry}
    (member : entry ∈ matching clue entries) : OsPath.basename clue <+: entry.name := by
  have passes := (List.mem_filter.mp member).2
  rcases Bool.or_eq_true_iff.mp passes with none | begins
  · rw [of_decide_eq_true none]
    exact List.nil_prefix
  · exact List.isPrefixOf_iff_prefix.mp begins

theorem shared_eq {clue : Str} {entries : List Entry} (some_ : matching clue entries ≠ []) :
    ∃ rest, shared clue (matching clue entries) = OsPath.basename clue ++ rest ∧
      ∀ entry ∈ matching clue entries, OsPath.basename clue ++ rest <+: entry.name := by
  unfold shared
  by_cases typed : OsPath.basename clue ≠ []
  · have started : (matching clue entries).map Entry.name ≠ [] :=
      fun none => some_ (List.map_eq_nil_iff.mp none)
    have begins : OsPath.basename clue <+: commonprefix ((matching clue entries).map Entry.name) := by
      refine (CommonPrefix.prefix_commonprefix_iff started).mpr fun name member => ?_
      rcases List.mem_map.mp member with ⟨entry, isEntry, isName⟩
      rw [← isName]
      exact mem_matching isEntry
    rcases begins with ⟨rest, isShared⟩
    refine ⟨rest, by rw [if_pos typed, isShared], fun entry member => ?_⟩
    rw [isShared]
    exact CommonPrefix.commonprefix_begins (List.mem_map_of_mem member)
  · have none := Decidable.not_not.mp typed
    refine ⟨[], by rw [if_neg typed, none]; rfl, fun entry _ => ?_⟩
    rw [none]
    exact List.nil_prefix

theorem newbuf_of_rebuilds {line clue : Str} {entries : List Entry}
    (some_ : matching clue entries ≠ []) (rebuilds : Rebuilds line clue (matching clue entries)) :
    (∃ entry rest, matching clue entries = [entry] ∧ entry.name = OsPath.basename clue ++ rest ∧
        newbuf line clue (matching clue entries) = line ++ rest ++ ending entry) ∨
      ∃ rest, (matching clue entries).length ≠ 1 ∧
        (∀ entry ∈ matching clue entries, OsPath.basename clue ++ rest <+: entry.name) ∧
        shared clue (matching clue entries) = OsPath.basename clue ++ rest ∧
        newbuf line clue (matching clue entries) = line ++ rest := by
  have common := shared_eq some_
  have begins := @mem_matching clue entries
  unfold Rebuilds at rebuilds
  rcases Text.join_front [' '] (pieces line (matching clue entries)).dropLast with ⟨front, isFront⟩
  rw [isFront] at rebuilds
  generalize matching clue entries = files at some_ common begins rebuilds isFront
  cases files with
  | nil => exact absurd rfl some_
  | cons entry files =>
      cases files with
      | nil =>
          rcases begins (List.mem_singleton_self entry) with ⟨rest, isName⟩
          refine .inl ⟨entry, rest, rfl, isName.symm, ?_⟩
          rw [newbuf, show Text.words line = pieces line [entry] from rfl, isFront, ← rebuilds,
            ← isName]
          simp only [List.append_assoc]
      | cons second files =>
          rcases common with ⟨rest, isShared, all⟩
          refine .inr ⟨rest, by simp, all, isShared, ?_⟩
          rw [newbuf, show Text.splitChar ' ' line = pieces line (entry :: second :: files) from rfl,
            isFront, ← rebuilds, isShared]
          · simp only [List.append_assoc]
          · intro single isSingle
            cases isSingle

/-! ## What the key does -/

section Key

variable {shell : Shell} {state next : LineBuffer} {clue : Str} {entries : List Entry}

theorem handleTAB_nothing (isClue : clueOf state.lineBuffer = .ok clue)
    (isEntries : entriesAt shell (basedirOf clue) = .ok entries)
    (nothing : matching clue entries = []) : handleTAB shell state = .ok state := by
  rw [handleTAB]
  split
  · rfl
  · simp only [isClue, isEntries, nothing, bind, Except.bind, if_true]

theorem handleTAB_files {text : Str} {shown : List Output} (started : state.lineBuffer ≠ [])
    (isClue : clueOf state.lineBuffer = .ok clue)
    (isEntries : entriesAt shell (basedirOf clue) = .ok entries)
    (some_ : matching clue entries ≠ []) (decoded : decode state.lineBuffer = some text)
    (isShown : listed shell state.lineBuffer (encode (newbuf text clue (matching clue entries)))
      (matching clue entries) = .ok shown) :
    ∃ after, handleTAB shell state = .ok after ∧
      after.lineBuffer = encode (newbuf text clue (matching clue entries)) := by
  rw [handleTAB, if_neg started]
  simp only [isClue, isEntries, bind, Except.bind, if_neg some_, decoded, isShown]
  exact ⟨_, rfl, rfl⟩

theorem found_of_handleTAB (started : state.lineBuffer ≠ [])
    (taken : handleTAB shell state = .ok next) :
    ∃ clue entries, clueOf state.lineBuffer = .ok clue ∧
      entriesAt shell (basedirOf clue) = .ok entries ∧
      (matching clue entries ≠ [] → ∃ text shown, decode state.lineBuffer = some text ∧
        listed shell state.lineBuffer (encode (newbuf text clue (matching clue entries)))
          (matching clue entries) = .ok shown ∧
        next.lineBuffer = encode (newbuf text clue (matching clue entries))) := by
  rw [handleTAB, if_neg started] at taken
  cases isClue : clueOf state.lineBuffer with
  | error raised =>
      rw [isClue] at taken
      cases taken
  | ok clue =>
      simp only [isClue, bind, Except.bind] at taken
      cases isEntries : entriesAt shell (basedirOf clue) with
      | error raised =>
          rw [isEntries] at taken
          cases taken
      | ok entries =>
          refine ⟨clue, entries, rfl, isEntries, fun some_ => ?_⟩
          simp only [isEntries, if_neg some_] at taken
          cases decoded : decode state.lineBuffer with
          | none =>
              rw [decoded] at taken
              cases taken
          | some text =>
              simp only [decoded] at taken
              cases isShown : listed shell state.lineBuffer
                  (encode (newbuf text clue (matching clue entries))) (matching clue entries) with
              | error raised =>
                  rw [isShown] at taken
                  cases taken
              | ok shown =>
                  rw [isShown] at taken
                  cases taken
                  exact ⟨text, shown, rfl, isShown, rfl⟩

end Key

theorem listed_ok {shell : Shell} {line newbyt : Bytes} {files : List Entry}
    (writes : files.length ≠ 1 → newbyt = line → ∃ prompt, showPrompt shell = .ok prompt) :
    ∃ shown, listed shell line newbyt files = .ok shown := by
  unfold listed
  split
  · exact ⟨[], rfl⟩
  · rename_i several
    have many : files.length ≠ 1 := by
      intro one
      rcases List.length_eq_one_iff.mp one with ⟨entry, isSingle⟩
      exact several entry isSingle
    split
    · rename_i same
      rcases writes many same with ⟨prompt, isPrompt⟩
      rw [isPrompt]
      exact ⟨_, rfl⟩
    · exact ⟨[], rfl⟩

theorem extends_of_rebuilds {shell : Shell} {state : LineBuffer} {clue : Str}
    {entries : List Entry} (started : state.lineBuffer ≠ [])
    (atEnd : state.lineBuffer.length ≤ state.lineBufferIndex)
    (plain : EndsPlain state.lineBuffer) (found : Found shell state.lineBuffer clue entries) :
    Extends shell state := by
  have before : state.lineBuffer.take state.lineBufferIndex = state.lineBuffer :=
    List.take_of_length_le atEnd
  have behind : state.lineBuffer.drop state.lineBufferIndex = [] := List.drop_of_length_le atEnd
  have word := candidates_of_clue plain found.isClue found.isEntries
  by_cases nothing : matching clue entries = []
  · refine ⟨state, handleTAB_nothing found.isClue found.isEntries nothing, .inr ⟨[], ?_, ?_⟩⟩
    · rw [before, Completes, word.1, nothing]
    · rw [List.append_nil, List.take_append_drop]
  · rcases found.rebuilds nothing with ⟨text, decoded, rebuilds, writes⟩
    have isLine : encode text = state.lineBuffer := encode_decode decoded
    have extended := newbuf_of_rebuilds nothing rebuilds
    have shows : ∃ shown, listed shell state.lineBuffer
        (encode (newbuf text clue (matching clue entries))) (matching clue entries) =
          .ok shown := by
      apply listed_ok
      intro many same
      refine writes ⟨many, ?_⟩
      rw [← isLine] at same
      have unchanged := encode_injective same
      rcases extended with ⟨entry, rest, single, -⟩ | ⟨rest, -, -, isShared, isNew⟩
      · rw [single] at many
        exact absurd rfl many
      · rw [isNew] at unchanged
        rw [isShared, List.append_right_eq_self.mp unchanged, List.append_nil]
    rcases shows with ⟨shown, isShown⟩
    rcases handleTAB_files started found.isClue found.isEntries nothing decoded isShown with
      ⟨after, taken, isNew⟩
    refine ⟨after, taken, .inr ?_⟩
    rw [before, behind, isNew]
    rcases extended with ⟨entry, rest, single, isName, isNewbuf⟩ | ⟨rest, many, all, -, isNewbuf⟩
    · refine ⟨encode (rest ++ ending entry), ?_, ?_⟩
      · rw [Completes, word.1, single, word.2]
        exact ⟨rest, isName, rfl⟩
      · rw [isNewbuf, List.append_assoc, encode_append, isLine, List.append_nil]
    · refine ⟨encode rest, ?_, ?_⟩
      · rw [Completes, word.1, word.2]
        cases isFiles : matching clue entries with
        | nil => exact absurd isFiles nothing
        | cons first others =>
            cases others with
            | nil =>
                rw [isFiles] at many
                exact absurd rfl many
            | cons second others =>
                rw [isFiles] at all
                exact ⟨rest, rfl, all⟩
      · rw [isNewbuf, encode_append, isLine, List.append_nil]

/-! ## Lines that are extended -/

theorem rdropWhile_free {text more : Str} (free : '/' ∉ more) :
    (text ++ more).rdropWhile (· ≠ '/') = text.rdropWhile (· ≠ '/') := by
  have all : ∀ ch ∈ more.reverse, decide (ch ≠ '/') = true := by
    intro ch member
    exact decide_eq_true fun slash => free (slash ▸ List.mem_reverse.mp member)
  rw [List.rdropWhile, List.rdropWhile, List.reverse_append, List.dropWhile_append_of_pos all]

theorem rdropWhile_slash {text : Str} (ends : text = [] ∨ text.getLast? = some '/') :
    text.rdropWhile (· ≠ '/') = text := by
  refine List.rdropWhile_eq_self_iff.mpr fun started => ?_
  rcases ends with none | isLast
  · exact absurd none started
  · rw [List.getLast?_eq_some_getLast started] at isLast
    rw [Option.some.inj isLast]
    decide

theorem basedir_ends (clue : Str) :
    basedirOf clue = [] ∨ (basedirOf clue).getLast? = some '/' := by
  simp only [basedirOf]
  split
  · exact .inr List.getLast?_concat
  · rename_i ends
    rw [not_and_or, not_not, not_not] at ends
    exact ends

theorem basedir_none {clue : Str} (none : clue.rdropWhile (· ≠ '/') = []) :
    basedirOf clue = [] := by
  have noDir : OsPath.dirname clue = [] := by
    rw [OsPath.dirname, none]
    rfl
  simp only [basedirOf, noDir]
  rfl

theorem directory_ends {clue : Str} (some_ : clue.rdropWhile (· ≠ '/') ≠ []) :
    (clue.rdropWhile (· ≠ '/')).getLast? = some '/' := by
  have last := List.rdropWhile_last_not _ _ some_
  rw [decide_eq_true_eq, not_not] at last
  rw [List.getLast?_eq_some_getLast some_, last]

theorem blank_ascii {byte : UInt8} (blank : isBlank byte = true) : byte.toNat < 0x80 := by
  simp only [isBlank, Bool.or_eq_true, decide_eq_true_eq, Bool.and_eq_true,
    UInt8.le_iff_toNat_le] at blank
  rcases blank with space | control
  · rw [space]
    decide
  · exact lt_of_le_of_lt control.2 (by decide)

theorem text_of_word {text clue : Str}
    (word : decode ((encode text).rtakeWhile (!isBlank ·)) = some clue) :
    ∃ before, text = before ++ clue ∧ ' ' ∉ clue ∧
      (before = [] ∨ ∃ ch, before.getLast? = some ch ∧ BlankCode ch) := by
  have isWord := encode_decode word
  have noSpace : ' ' ∉ clue := by
    intro member
    have inWord : (32 : UInt8) ∈ encode clue := List.mem_flatMap.mpr ⟨' ', member, by decide⟩
    rw [isWord] at inWord
    exact absurd (List.mem_rtakeWhile_imp inWord) (by decide)
  have whole := List.rdropWhile_append_rtakeWhile (p := (!isBlank ·)) (l := encode text)
  rw [← isWord] at whole
  by_cases none : (encode text).rdropWhile (!isBlank ·) = []
  · rw [none] at whole
    exact ⟨[], (encode_injective whole).symm, noSpace, .inl rfl⟩
  · have last := List.rdropWhile_last_not _ _ none
    rw [Bool.not_eq_true', Bool.not_eq_false] at last
    generalize isByte : ((encode text).rdropWhile (!isBlank ·)).getLast none = byte at last
    have cut : encode text =
        ((encode text).rdropWhile (!isBlank ·)).dropLast ++ byte :: encode clue := by
      conv_lhs => rw [← whole, ← List.dropLast_append_getLast none, isByte]
      rw [List.append_assoc, List.singleton_append]
    rcases encode_eq_append_cons (blank_ascii last) cut with ⟨front, ch, rest, isText, -, code, isRest⟩
    rw [encode_injective isRest] at isText
    refine ⟨front ++ [ch], ?_, noSpace, .inr ⟨ch, List.getLast?_concat, byte, last, code⟩⟩
    rw [isText, List.append_assoc, List.singleton_append]

theorem directory_subset {clue : Str} {ch : Char} (member : ch ∈ basedirOf clue) :
    ch = '/' ∨ ch ∈ clue := by
  have inDirname : ch ∈ OsPath.dirname clue → ch ∈ clue := by
    intro inside
    rw [OsPath.dirname] at inside
    have head : ch ∈ clue.rdropWhile (· ≠ '/') := by
      split at inside
      · exact inside
      · exact (List.rdropWhile_prefix _ _).subset inside
    exact (List.rdropWhile_prefix _ _).subset head
  simp only [basedirOf] at member
  split at member
  · rcases List.mem_append.mp member with inside | slash
    · exact .inr (inDirname inside)
    · exact .inl (List.mem_singleton.mp slash)
  · exact .inr (inDirname member)

section Extended

variable {text clue rest inserted : Str} {files : List Entry}

theorem rebuilds_of_several (word : decode ((encode text).rtakeWhile (!isBlank ·)) = some clue)
    (several : ∀ entry, files ≠ [entry])
    (isShared : shared clue files = OsPath.basename clue ++ rest)
    (plainRest : ∀ ch ∈ OsPath.basename clue ++ rest, ch ≠ '/' ∧ ¬ BlankCode ch)
    (plainInserted : '/' ∉ inserted)
    (isNew : newbuf text clue files = text ++ inserted) : Rebuilds text clue files := by
  rcases text_of_word word with ⟨before, isText, noSpace, endsBlank⟩
  rcases List.eq_nil_or_concat (Text.splitChar ' ' before) with none | ⟨init, piece, isBefore⟩
  · exact absurd none (Text.splitChar_ne_nil ' ' before)
  · rw [List.concat_eq_append] at isBefore
    have isSplit := Text.splitChar_append_free isBefore noSpace
    rw [← isText] at isSplit
    have front := Text.join_front [' '] init
    rcases front with ⟨front, isFront⟩
    have whole : front ++ (piece ++ clue) = text := by
      rw [← isFront, ← isSplit, Text.join_splitChar]
    have piecesAre : pieces text files = Text.splitChar ' ' text := by
      unfold pieces
      split
      · rename_i entry
        exact absurd rfl (several entry)
      · rfl
    have madeOf : newbuf text clue files =
        Text.join [' '] ((Text.splitChar ' ' text).dropLast ++
          [basedirOf clue ++ shared clue files]) := by
      unfold newbuf
      split
      · rename_i entry
        exact absurd rfl (several entry)
      · rfl
    rw [madeOf, isSplit, List.dropLast_concat, isFront, ← whole, isShared, List.append_assoc,
      List.append_assoc] at isNew
    rw [Rebuilds, piecesAre, isSplit, List.dropLast_concat, isFront, ← whole]
    have same := List.append_cancel_left isNew
    have split_ : clue = clue.rdropWhile (· ≠ '/') ++ OsPath.basename clue :=
      (List.rdropWhile_append_rtakeWhile ..).symm
    have left : (basedirOf clue ++ (OsPath.basename clue ++ rest)).rdropWhile (· ≠ '/') =
        basedirOf clue := by
      rw [rdropWhile_free fun slash => (plainRest _ slash).1 rfl,
        rdropWhile_slash (basedir_ends clue)]
    have freeBase : '/' ∉ OsPath.basename clue := fun slash =>
      (plainRest _ (List.mem_append_left _ slash)).1 rfl
    by_cases noDirectory : clue.rdropWhile (· ≠ '/') = []
    · have isBase : clue = OsPath.basename clue := by
        conv_lhs => rw [split_, noDirectory]
        rfl
      rw [basedir_none noDirectory, List.nil_append, ← isBase] at same ⊢
      have noPiece : piece = [] := by
        by_contra started
        have inside : piece.getLast started ∈ OsPath.basename clue ++ rest := by
          rw [← isBase, same]
          exact List.mem_append_left _ (List.getLast_mem started)
        have isLast : before.getLast? = some (piece.getLast started) := by
          rcases Text.join_front [' '] init with ⟨other, isOther⟩
          rw [← Text.join_splitChar ' ' before, isBefore, isOther, List.getLast?_append,
            List.getLast?_eq_some_getLast started]
          rfl
        rcases endsBlank with none | ⟨ch, isCh, blank⟩
        · rw [none] at isLast
          cases isLast
        · rw [isCh] at isLast
          exact (plainRest _ inside).2 (Option.some.inj isLast ▸ blank)
      rw [noPiece, List.nil_append]
    · have right : (piece ++ (clue ++ inserted)).rdropWhile (· ≠ '/') =
          piece ++ clue.rdropWhile (· ≠ '/') := by
        conv_lhs => rw [split_]
        rw [← List.append_assoc, rdropWhile_free plainInserted, ← List.append_assoc,
          rdropWhile_free freeBase, rdropWhile_slash]
        exact .inr (by
          rw [List.getLast?_append, directory_ends noDirectory]
          rfl)
      have isDirectory : basedirOf clue = piece ++ clue.rdropWhile (· ≠ '/') := by
        rw [← left, same, right]
      rw [isDirectory, List.append_assoc, ← split_]

theorem rebuilds_of_single {entry : Entry} (isName : entry.name = OsPath.basename clue ++ rest)
    (isNew : newbuf text clue [entry] = text ++ (rest ++ ending entry)) :
    Rebuilds text clue [entry] := by
  rcases Text.join_front [' '] (Text.words text).dropLast with ⟨front, isFront⟩
  rw [newbuf, isFront, isName] at isNew
  rw [Rebuilds, pieces, isFront]
  simp only [List.append_assoc] at isNew
  simp only [← List.append_assoc] at isNew ⊢
  exact List.append_cancel_right (List.append_cancel_right isNew)

end Extended

theorem space_of_blankCode {ch : Char} (blank : BlankCode ch) : Text.isSpace ch = true := by
  rcases blank with ⟨byte, isBlank_, code⟩
  simp only [isBlank, Bool.or_eq_true, decide_eq_true_eq, Bool.and_eq_true,
    UInt8.le_iff_toNat_le] at isBlank_
  simp only [Text.isSpace, Bool.or_eq_true, Bool.and_eq_true, decide_eq_true_eq]
  rcases isBlank_ with space | control
  · rw [space] at code
    have value : ch.toNat = 32 := code
    omega
  · have low : 9 ≤ byte.toNat := control.1
    have high : byte.toNat ≤ 13 := control.2
    omega

theorem clue_free {line : Bytes} {clue : Str} {ch : Char} (isClue : clueOf line = .ok clue)
    (member : ch ∈ clue) : ¬ BlankCode ch := by
  rintro ⟨byte, blank, code⟩
  unfold clueOf at isClue
  split at isClue
  · cases isClue
    cases member
  · split at isClue
    · cases isClue
    · rename_i word isWord
      split at isClue
      · cases isClue
      · rename_i found decoded
        cases isClue
        have inside := mem_encode (blank_ascii blank) code member
        rw [encode_decode decoded] at inside
        simp only [lastWord] at isWord
        split at isWord
        · cases isWord
        · rw [← Option.some.inj isWord] at inside
          have notBlank := List.mem_rtakeWhile_imp inside
          rw [blank] at notBlank
          cases notBlank

theorem plain_of_newbuf {text clue more : Str} {files : List Entry}
    (isClue : clueOf (encode text) = .ok clue)
    (plainNames : ∀ entry ∈ files, ∀ ch ∈ entry.name, ¬ BlankCode ch)
    (common : ∀ ch ∈ shared clue files, ¬ BlankCode ch)
    (isNew : newbuf text clue files = text ++ more) : EndsPlain (encode text) := by
  intro byte isLast
  by_contra other
  rw [not_or, Bool.not_eq_false] at other
  rcases other with ⟨notSpace, blank⟩
  have cut : encode text = (encode text).dropLast ++ byte :: [] :=
    (List.dropLast_append_getLast? byte isLast).symm
  rcases encode_eq_append_cons (blank_ascii blank) cut with ⟨front, ch, rest, isText, -, code, none⟩
  have noRest : rest = [] := encode_injective none
  rw [noRest] at isText
  have isBlank_ : BlankCode ch := ⟨byte, blank, code⟩
  have visible : ch ≠ ' ' := by
    intro same
    rw [same] at code
    exact notSpace (UInt8.toNat_inj.mp code.symm)
  have noSlash : ch ≠ '/' := by
    intro same
    rw [same] at isBlank_
    exact absurd (space_of_blankCode isBlank_) (by decide)
  have notInDirectory : ch ∉ basedirOf clue := by
    intro member
    rcases directory_subset member with slash | inClue
    · exact noSlash slash
    · exact clue_free isClue inClue isBlank_
  have inText : ch ∈ text ++ more := by
    rw [isText]
    exact List.mem_append_left _ (List.mem_append_right _ (List.mem_singleton_self ch))
  unfold newbuf at isNew
  split at isNew
  · -- the words are joined again
    rename_i entry
    rw [← isNew] at inText
    rcases List.mem_append.mp inText with joined | atEnd
    · rcases Text.mem_join joined with between | ⟨part, isPart, inside⟩
      · exact visible (List.mem_singleton.mp between)
      · rcases List.mem_append.mp isPart with isWord | isPath
        · have free := Text.words_free (List.mem_of_mem_dropLast isWord) ch inside
          rw [space_of_blankCode isBlank_] at free
          cases free
        · rw [List.mem_singleton.mp isPath] at inside
          rcases List.mem_append.mp inside with inDirectory | inName
          · exact notInDirectory inDirectory
          · exact plainNames entry (List.mem_singleton_self entry) ch inName isBlank_
    · unfold ending at atEnd
      split at atEnd
      · exact noSlash (List.mem_singleton.mp atEnd)
      · exact visible (List.mem_singleton.mp atEnd)
  · -- the blank stands in the piece that is replaced
    rcases List.eq_nil_or_concat (Text.splitChar ' ' front) with none | ⟨init, piece, isFront⟩
    · exact absurd none (Text.splitChar_ne_nil ' ' front)
    · rw [List.concat_eq_append] at isFront
      have isSplit := Text.splitChar_append_free isFront
        (fun space => visible (List.mem_singleton.mp space).symm : ' ' ∉ [ch])
      rw [← isText] at isSplit
      rcases Text.join_front [' '] init with ⟨before, isBefore⟩
      have whole : before ++ (piece ++ [ch]) = text := by
        rw [← isBefore, ← isSplit, Text.join_splitChar]
      rw [isSplit, List.dropLast_concat, isBefore, ← whole, List.append_assoc] at isNew
      have same := List.append_cancel_left isNew
      have inside : ch ∈ basedirOf clue ++ shared clue files := by
        rw [same]
        exact List.mem_append_left _ (List.mem_append_right _ (List.mem_singleton_self ch))
      rcases List.mem_append.mp inside with inDirectory | inShared
      · exact notInDirectory inDirectory
      · exact common ch inShared isBlank_

theorem Completes.encoded {shell : Shell} {before inserted : Bytes}
    (completes : Completes shell before inserted) : ∃ more, inserted = encode more := by
  unfold Completes at completes
  split at completes
  · exact ⟨[], completes⟩
  · rcases completes with ⟨rest, -, isInserted⟩
    exact ⟨_, isInserted⟩
  · rcases completes with ⟨rest, isInserted, -⟩
    exact ⟨rest, isInserted⟩

theorem prompt_of_listed {shell : Shell} {line : Bytes} {files : List Entry} {shown : List Output}
    (several : files.length ≠ 1) (isShown : listed shell line line files = .ok shown) :
    ∃ prompt, showPrompt shell = .ok prompt := by
  unfold listed at isShown
  split at isShown
  · exact absurd rfl several
  · rw [if_pos rfl] at isShown
    cases isPrompt : showPrompt shell with
    | error raised =>
        rw [isPrompt] at isShown
        cases isShown
    | ok prompt => exact ⟨prompt, rfl⟩

theorem newbuf_of_addsNothing {text clue : Str} {files : List Entry}
    (rebuilds : Rebuilds text clue files) (adds : AddsNothing clue files) :
    newbuf text clue files = text := by
  have madeOf : newbuf text clue files =
      Text.join [' '] ((pieces text files).dropLast ++ [basedirOf clue ++ shared clue files]) := by
    unfold newbuf pieces
    split
    · exact absurd rfl adds.1
    · rfl
  rw [madeOf, adds.2]
  exact rebuilds

theorem rebuilds_of_completes {shell : Shell} {text clue : Str} {entries : List Entry}
    {inserted : Bytes} (isClue : clueOf (encode text) = .ok clue)
    (isEntries : entriesAt shell (basedirOf clue) = .ok entries)
    (plainNames : PlainNames shell (encode text)) (some_ : matching clue entries ≠ [])
    (completes : Completes shell (encode text) inserted)
    (isNew : encode (newbuf text clue (matching clue entries)) = encode text ++ inserted) :
    EndsPlain (encode text) ∧ Rebuilds text clue (matching clue entries) := by
  have plain : ∀ entry ∈ matching clue entries, ∀ ch ∈ entry.name, ch ≠ '/' ∧ ¬ BlankCode ch :=
    fun entry member => plainNames clue entries isClue isEntries entry (List.mem_filter.mp member).1
  rcases shared_eq some_ with ⟨rest, isShared, begins⟩
  have plainRest : ∀ ch ∈ OsPath.basename clue ++ rest, ch ≠ '/' ∧ ¬ BlankCode ch := by
    intro ch member
    rcases List.exists_mem_of_ne_nil _ some_ with ⟨entry, isEntry⟩
    exact plain entry isEntry ch ((begins entry isEntry).subset member)
  have endsPlain : EndsPlain (encode text) := by
    rcases completes.encoded with ⟨more, isMore⟩
    rw [isMore, ← encode_append] at isNew
    refine plain_of_newbuf isClue (fun entry member ch inside => (plain entry member ch inside).2)
      (fun ch inside => ?_) (encode_injective isNew)
    rw [isShared] at inside
    exact (plainRest ch inside).2
  refine ⟨endsPlain, ?_⟩
  have word := word_of_clue endsPlain isClue
  have found := candidates_of_clue endsPlain isClue isEntries
  rw [Completes, found.1, found.2] at completes
  generalize matching clue entries = files at *
  cases files with
  | nil => exact absurd rfl some_
  | cons entry others =>
      cases others with
      | nil =>
          rcases completes with ⟨more, isName, isInserted⟩
          rw [isInserted, ← encode_append] at isNew
          exact rebuilds_of_single isName (encode_injective isNew)
      | cons second others =>
          rcases completes with ⟨more, isInserted, all⟩
          rw [isInserted, ← encode_append] at isNew
          refine rebuilds_of_several word ?_ isShared plainRest ?_ (encode_injective isNew)
          · intro single same
            cases same
          · intro slash
            have inName := (all entry List.mem_cons_self).subset (List.mem_append_right _ slash)
            exact (plain entry List.mem_cons_self _ inName).1 rfl

theorem fits_of_extends {shell : Shell} {state : LineBuffer}
    (plainNames : PlainNames shell state.lineBuffer) (placed : ¬ Misplaced shell state)
    (extended : Extends shell state) : Fits shell state := by
  by_cases started : state.lineBuffer = []
  · exact .inl started
  · rcases extended with ⟨next, taken, ⟨none, -⟩ | ⟨inserted, completes, isNext⟩⟩
    · exact absurd none started
    · rcases found_of_handleTAB started taken with ⟨clue, entries, isClue, isEntries, given⟩
      by_cases nothing : matching clue entries = []
      · have found : Found shell state.lineBuffer clue entries :=
          ⟨isClue, isEntries, fun some_ => absurd nothing some_⟩
        refine .inr (.inr ⟨clue, entries, found, nothing, fun single => ?_⟩)
        have same := (handleTAB_nothing isClue isEntries nothing).symm.trans taken
        have kept : inserted = [] := by
          have lengths := congrArg List.length isNext
          rw [← Except.ok.inj same, List.length_append, List.length_append] at lengths
          have whole := congrArg List.length
            (List.take_append_drop state.lineBufferIndex state.lineBuffer)
          rw [List.length_append] at whole
          exact List.eq_nil_of_length_eq_zero (by omega)
        rcases List.length_eq_one_iff.mp single with ⟨entry, isSingle⟩
        rw [Completes, isSingle, kept] at completes
        rcases completes with ⟨rest, -, isInserted⟩
        have isNone : encode [] = encode (rest ++ ending entry) := isInserted
        have none := (encode_injective isNone).symm
        have noEnding := (List.append_eq_nil_iff.mp none).2
        unfold ending at noEnding
        split at noEnding
        · cases noEnding
        · cases noEnding
      · have atEnd : state.lineBuffer.length ≤ state.lineBufferIndex := by
          by_contra inside
          exact placed ⟨Nat.lt_of_not_le inside, clue, entries, isClue, isEntries, nothing⟩
        rcases given nothing with ⟨text, shown, decoded, isShown, isLine⟩
        rw [List.take_of_length_le atEnd] at completes isNext
        rw [List.drop_of_length_le atEnd, List.append_nil, isLine] at isNext
        have isText := encode_decode decoded
        have rebuilt := @rebuilds_of_completes shell text clue entries inserted
        rw [isText] at rebuilt
        have both := rebuilt isClue isEntries plainNames nothing completes isNext
        refine .inr (.inl ⟨atEnd, both.1, clue, entries, isClue, isEntries, fun _ => ?_⟩)
        refine ⟨text, decoded, both.2, fun adds => ?_⟩
        rw [newbuf_of_addsNothing both.2 adds, isText] at isShown
        exact prompt_of_listed adds.1 isShown

theorem extends_of_nothing {shell : Shell} {state : LineBuffer} {clue : Str} {entries : List Entry}
    (found : Found shell state.lineBuffer clue entries) (nothing : matching clue entries = [])
    (several : (candidates shell (state.lineBuffer.take state.lineBufferIndex)).length ≠ 1) :
    Extends shell state := by
  refine ⟨state, handleTAB_nothing found.isClue found.isEntries nothing, .inr ⟨[], ?_, ?_⟩⟩
  · generalize state.lineBuffer.take state.lineBufferIndex = before at several
    have begins : ∀ entry ∈ candidates shell before, typed before ++ [] <+: entry.name := by
      intro entry member
      rw [List.append_nil]
      unfold candidates at member
      unfold typed
      split at member
      · cases member
      · split at member
        · cases member
        · rename_i word isWord _ _ _
          rw [isWord]
          exact mem_matching member
    unfold Completes
    split
    · rfl
    · rename_i entry single
      rw [single] at several
      exact absurd rfl several
    · exact ⟨[], rfl, begins⟩
  · rw [List.append_nil, List.take_append_drop]

theorem extends_of_fits {shell : Shell} {state : LineBuffer} (fits : Fits shell state) :
    Extends shell state := by
  by_cases started : state.lineBuffer = []
  · refine ⟨state, ?_, .inl ⟨started, started⟩⟩
    rw [handleTAB, if_pos started]
  · rcases fits with none | ⟨atEnd, plain, clue, entries, found⟩ |
      ⟨clue, entries, found, nothing, several⟩
    · exact absurd none started
    · exact extends_of_rebuilds started atEnd plain found
    · exact extends_of_nothing found nothing several

/-- The key extends the line where the line fits. With plain names, and with the cursor where the
key completes the line, it does so nowhere else. -/
theorem extends_iff (shell : Shell) (state : LineBuffer) :
    (Fits shell state → Extends shell state) ∧
      (PlainNames shell state.lineBuffer → ¬ Misplaced shell state →
        Extends shell state → Fits shell state) :=
  ⟨extends_of_fits, fits_of_extends⟩

def logTree : HoneyPotFilesystem where
  heap := ⟨fun reference =>
    if reference = 0 then { name := "/".toList, type := .dir, contents := .list [1, 2] }
    else if reference = 1 then { name := "log".toList, type := .file }
    else { name := "tmp".toList, type := .dir, contents := .list [] }, 3⟩
  fs := 0
  home := "/root".toList

def logShell : Shell where
  tree := logTree
  limit := 8
  cwd := "/".toList
  username := "root".toList
  hostname := "svr04".toList
  home := "/root".toList
  uid := 0
  columns := 80

def catLog : LineBuffer := { lineBuffer := encode "cat lo".toList, lineBufferIndex := 6 }

def catSpaced : LineBuffer := { lineBuffer := encode "cat  lo".toList, lineBufferIndex := 7 }

def newLine (result : Except Raised LineBuffer) : Bytes :=
  result.toOption.elim [] LineBuffer.lineBuffer

theorem extends_catLog : Extends logShell catLog := by
  have plain : EndsPlain catLog.lineBuffer := by
    intro byte isLast
    rw [← Option.some.inj isLast]
    decide
  refine (extends_iff logShell catLog).1 (.inr (.inl ⟨by decide, plain, ?_⟩))
  refine ⟨"lo".toList, [logTree.entry 1, logTree.entry 2], by decide +kernel, by decide +kernel, ?_⟩
  refine fun _ => ⟨"cat lo".toList, by decide +kernel, ?_, fun adds => absurd ?_ adds.1⟩
  · unfold Rebuilds
    decide +kernel
  · decide +kernel

/-- A blank that is typed twice is dropped. -/
theorem spaced_line_shrinks : ¬ ∀ shell state, Extends shell state := by
  intro all
  rcases all logShell catSpaced with ⟨next, taken, ⟨none, -⟩ | ⟨inserted, -, isNext⟩⟩
  · cases none
  · have isNew : next.lineBuffer = newLine (handleTAB logShell catSpaced) := by
      rw [taken]
      rfl
    have isLine : newLine (handleTAB logShell catSpaced) = encode "cat log ".toList := by
      decide +kernel
    have before : catSpaced.lineBuffer.take catSpaced.lineBufferIndex =
        encode "cat  lo".toList := by decide +kernel
    rw [isNew, isLine, before, List.append_assoc] at isNext
    have fifth := congrArg (List.take 5) isNext
    rw [List.take_append_of_le_length (by decide +kernel)] at fifth
    exact absurd fifth (by decide +kernel)

end TabKey

end LlmHoneypot
