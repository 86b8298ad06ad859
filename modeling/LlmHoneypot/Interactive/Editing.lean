import LlmHoneypot.Foundation.Joined
import LlmHoneypot.Interactive
import Mathlib.Data.List.GetD
import Mathlib.Data.List.InsertIdx

/-! # Editing with vi

The buffer and the cursor of `ViProgram` through every key, and what a program owes to the
file it was started with. -/

namespace LlmHoneypot

namespace Interactive

/-! ## Lines with a cursor -/

structure ValidAt (lines : List Str) (row column : Nat) : Prop where
  rowIn : row < lines.length
  columnIn : column ≤ (lines.getD row []).length
  unbroken : ∀ line ∈ lines, '\n' ∉ line

namespace ValidAt

variable {lines : List Str} {row column : Nat}

theorem line_unbroken (valid : ValidAt lines row column) : '\n' ∉ lines.getD row [] := by
  rw [List.getD_eq_getElem _ _ valid.rowIn]
  exact valid.unbroken _ (List.getElem_mem _)

theorem toColumn (valid : ValidAt lines row column) {other : Nat}
    (within : other ≤ (lines.getD row []).length) : ValidAt lines row other :=
  ⟨valid.rowIn, within, valid.unbroken⟩

theorem toRow (valid : ValidAt lines row column) {other : Nat} (within : other < lines.length) :
    ValidAt lines other (min column (lines.getD other []).length) :=
  ⟨within, Nat.min_le_right _ _, valid.unbroken⟩

theorem set (valid : ValidAt lines row column) {line : Str} (unbroken : '\n' ∉ line) {other : Nat}
    (within : other ≤ line.length) : ValidAt (lines.set row line) row other := by
  constructor
  · rw [List.length_set]
    exact valid.rowIn
  · rw [List.getD_eq_getElem _ _ (by rw [List.length_set]; exact valid.rowIn), List.getElem_set_self]
    exact within
  · intro old member
    rcases List.mem_or_eq_of_mem_set member with kept | new
    · exact valid.unbroken old kept
    · rw [new]
      exact unbroken

theorem insert (valid : ValidAt lines row column) {other : Nat} (within : other ≤ lines.length)
    {line : Str} (unbroken : '\n' ∉ line) : ValidAt (lines.insertIdx other line) other 0 := by
  constructor
  · rw [List.length_insertIdx_of_le_length within]
    omega
  · exact Nat.zero_le _
  · intro old member
    rcases List.eq_or_mem_of_mem_insertIdx member with new | kept
    · rw [new]
      exact unbroken
    · exact valid.unbroken old kept

theorem erase (valid : ValidAt lines row column) {other : Nat} (behind : row < other) :
    ValidAt (lines.eraseIdx other) row column := by
  have kept : row < (lines.eraseIdx other).length := by
    rw [List.length_eraseIdx]
    have within := valid.rowIn
    split <;> omega
  constructor
  · exact kept
  · rw [List.getD_eq_getElem _ _ kept, List.getElem_eraseIdx_of_lt _ behind]
    rw [← List.getD_eq_getElem _ ([] : Str)]
    exact valid.columnIn
  · intro line member
    exact valid.unbroken line (List.mem_of_mem_eraseIdx member)

end ValidAt

namespace ViProgram

def Valid (vi : ViProgram) : Prop := ValidAt vi.lines vi.cy vi.cx

theorem valid_initial (filename content : Str) (rows : Nat) (newFile : Bool) :
    (initial filename content rows newFile).Valid := by
  constructor
  · exact List.length_pos_of_ne_nil (Text.splitChar_ne_nil '\n' content)
  · exact Nat.zero_le _
  · intro line member
    exact Text.not_mem_splitChar member

/-! ### One key -/

theorem valid_insertLine {vi : ViProgram} (valid : vi.Valid) {row : Nat}
    (within : row ≤ vi.lines.length) : (vi.insertLine row).Valid :=
  ValidAt.insert valid within List.not_mem_nil

theorem valid_ite {condition : Prop} [Decidable condition] {yes no : Effect}
    (yesValid : condition → yes.1.Valid) (noValid : ¬ condition → no.1.Valid) :
    (if condition then yes else no).1.Valid := by
  split
  · next holds => exact yesValid holds
  · next fails => exact noValid fails

theorem valid_keyNormal {vi : ViProgram} (valid : vi.Valid) (key : UInt8) :
    (vi.keyNormal key).1.Valid := by
  rw [keyNormal]
  split
  · exact valid
  split
  · split
    · exact valid
    · exact valid
  extract_lets settled
  have valid : settled.Valid := valid
  have row : settled.cy < settled.lines.length := valid.rowIn
  have column : settled.cx ≤ settled.line.length := valid.columnIn
  have down : min (settled.lines.length - 1) (settled.cy + 1) < settled.lines.length := by omega
  have up : settled.cy - 1 < settled.lines.length := by omega
  apply valid_ite <;> intro _
  · exact valid
  apply valid_ite <;> intro _
  · exact valid.toColumn (Nat.min_le_right _ _)
  apply valid_ite <;> intro _
  · exact valid.toColumn (Nat.le_refl _)
  apply valid_ite <;> intro _
  · exact valid.toColumn (Nat.zero_le _)
  apply valid_ite <;> intro _
  · exact valid_insertLine valid row
  apply valid_ite <;> intro _
  · exact valid_insertLine valid (Nat.le_of_lt row)
  apply valid_ite <;> intro _
  · exact valid.toColumn (Nat.le_trans (Nat.sub_le _ _) column)
  apply valid_ite <;> intro _
  · exact valid.toColumn (Nat.min_le_left _ _)
  apply valid_ite <;> intro _
  · exact valid.toRow down
  apply valid_ite <;> intro _
  · exact valid.toRow up
  apply valid_ite <;> intro _
  · exact valid.toColumn (Nat.zero_le _)
  apply valid_ite <;> intro _
  · exact valid.toColumn (Nat.sub_le _ _)
  apply valid_ite <;> intro _
  · apply ValidAt.set valid
    · intro broken
      exact valid.line_unbroken (List.mem_of_mem_eraseIdx broken)
    · exact Nat.le_trans (Nat.min_le_right _ _) (Nat.sub_le _ _)
  apply valid_ite <;> intro _
  · exact valid
  · exact valid

theorem printable_not_newline {key : UInt8} {ch : Char} (isChar : printable? key = some ch) :
    ch ≠ '\n' := by
  rw [printable?] at isChar
  split at isChar
  · next printable =>
    intro newline
    rw [newline] at isChar
    have code := congrArg Char.toNat (Option.some.inj isChar)
    have valid : key.toNat.isValidChar := .inl (by omega)
    rw [Char.ofNat, dif_pos valid] at code
    change key.toNat = 10 at code
    omega
  · cases isChar

theorem valid_keyInsert {vi : ViProgram} (valid : vi.Valid) (key : UInt8) :
    (vi.keyInsert key).1.Valid := by
  have row : vi.cy < vi.lines.length := valid.rowIn
  have column : vi.cx ≤ vi.line.length := valid.columnIn
  have unbroken : '\n' ∉ vi.line := valid.line_unbroken
  rw [keyInsert]
  split
  · exact valid.toColumn (Nat.le_trans (Nat.sub_le _ _) column)
  split
  · have before : '\n' ∉ vi.line.take vi.cx := fun broken => unbroken (List.mem_of_mem_take broken)
    have after : '\n' ∉ vi.line.drop vi.cx := fun broken => unbroken (List.mem_of_mem_drop broken)
    have halved := ValidAt.set valid before (Nat.zero_le _)
    exact halved.insert (by rw [List.length_set]; exact row) after
  split
  · split
    · next right =>
      apply ValidAt.set valid
      · intro broken
        rcases List.mem_append.mp broken with front | back
        · exact unbroken (List.mem_of_mem_take front)
        · exact unbroken (List.mem_of_mem_drop back)
      · change vi.cx - 1 ≤ _
        rw [List.length_append, List.length_take, List.length_drop]
        omega
    · split
      · next below =>
        have previous : ValidAt vi.lines (vi.cy - 1) 0 := ⟨by omega, Nat.zero_le _, valid.unbroken⟩
        have joined : '\n' ∉ vi.lineAt (vi.cy - 1) ++ vi.line := by
          intro broken
          rcases List.mem_append.mp broken with front | back
          · exact previous.line_unbroken front
          · exact unbroken back
        have within : (vi.lineAt (vi.cy - 1)).length ≤
            (vi.lineAt (vi.cy - 1) ++ vi.line).length := by
          rw [List.length_append]
          exact Nat.le_add_right _ _
        exact (previous.set joined within).erase (by omega)
      · exact valid
  split
  · next ch isChar =>
    apply ValidAt.set valid
    · intro broken
      rcases List.mem_append.mp broken with front | back
      · exact unbroken (List.mem_of_mem_take front)
      · rcases List.mem_cons.mp back with new | rest
        · exact printable_not_newline isChar new.symm
        · exact unbroken (List.mem_of_mem_drop rest)
    · change vi.cx + 1 ≤ _
      rw [List.length_append, List.length_cons, List.length_take, List.length_drop]
      omega
  · exact valid

theorem valid_runEx {vi : ViProgram} (valid : vi.Valid) (cmd : Str) : (vi.runEx cmd).1.Valid := by
  rw [runEx]
  apply valid_ite <;> intro _
  · exact valid
  apply valid_ite <;> intro _
  · exact valid
  apply valid_ite <;> intro _
  · exact valid
  apply valid_ite <;> intro _
  · apply valid_ite <;> intro _
    · exact valid
    · exact valid
  · exact valid

theorem valid_keyCommand {vi : ViProgram} (valid : vi.Valid) (key : UInt8) :
    (vi.keyCommand key).1.Valid := by
  rw [keyCommand]
  apply valid_ite <;> intro _
  · apply valid_runEx
    exact valid
  apply valid_ite <;> intro _
  · apply valid_ite <;> intro _
    · exact valid
    · exact valid
  apply valid_ite <;> intro _
  · exact valid
  · exact valid

theorem valid_key {vi : ViProgram} (valid : vi.Valid) (key : UInt8) : (vi.key key).1.Valid := by
  rw [ViProgram.key.eq_def]
  cases vi.mode with
  | normal => exact valid_keyNormal valid key
  | insert => exact valid_keyInsert valid key
  | command => exact valid_keyCommand valid key

/-! ### Saving -/

def exBase (cmd : Str) : Str := (Text.before? " ".toList cmd).getD cmd

def isWrite (base : Str) : Bool :=
  base = "w".toList || base = "write".toList ||
    base ∈ ["wq".toList, "x".toList, "wq!".toList, "x!".toList] || "wq".toList.isPrefixOf base

def isAbandon (base : Str) : Bool := base = "q!".toList || base = "quit!".toList

theorem isWrite_iff (base : Str) :
    isWrite base = true ↔ (base = "w".toList ∨ base = "write".toList) ∨
      base ∈ ["wq".toList, "x".toList, "wq!".toList, "x!".toList] ∨
        "wq".toList.isPrefixOf base = true := by
  rw [isWrite]
  simp only [Bool.or_eq_true, decide_eq_true_eq, or_assoc]

theorem isAbandon_iff (base : Str) :
    isAbandon base = true ↔ base = "q!".toList ∨ base = "quit!".toList := by
  rw [isAbandon]
  simp only [Bool.or_eq_true, decide_eq_true_eq]

/-- The key runs an ex command of this kind. -/
def runs (kind : Str → Bool) (vi : ViProgram) (key : UInt8) : Bool :=
  vi.mode = .command && (key = byte '\r' || key = byte '\n') && kind (exBase (Text.strip vi.cmdline))

def writes (vi : ViProgram) (key : UInt8) : Bool :=
  vi.mode = .normal && key = byte 'Z' && vi.zPending || runs isWrite vi key

inductive KeyCase (vi : ViProgram) (key : UInt8) (effect : Effect) : Prop
  | kept (filename : effect.1.filename = vi.filename) (notWritten : vi.writes key = false)
      (lines : effect.1.lines = vi.lines) (dirty : effect.1.dirty = vi.dirty)
      (saves : effect.2.2 = [])
      (left : effect.2.1.done = true → vi.dirty = false ∨ vi.runs isAbandon key = true)
  | changed (filename : effect.1.filename = vi.filename) (notWritten : vi.writes key = false)
      (dirty : effect.1.dirty = true) (saves : effect.2.2 = [])
      (stays : effect.2.1.done = false)
  | written (filename : effect.1.filename = vi.filename) (written : vi.writes key = true)
      (lines : effect.1.lines = vi.lines) (dirty : effect.1.dirty = false)
      (saves : effect.2.2 = vi.saved)

theorem KeyCase.settled {vi : ViProgram} {key : UInt8} {effect : Effect}
    (filename : effect.1.filename = vi.filename) (notWritten : vi.writes key = false)
    (lines : effect.1.lines = vi.lines) (dirty : effect.1.dirty = vi.dirty)
    (saves : effect.2.2 = []) (stays : effect.2.1.done = false) : KeyCase vi key effect := by
  apply KeyCase.kept filename notWritten lines dirty saves
  intro left
  rw [stays] at left
  cases left

theorem keyCase_ite {vi : ViProgram} {key : UInt8} {condition : Prop} [Decidable condition]
    {yes no : Effect} (yesCase : condition → KeyCase vi key yes)
    (noCase : ¬ condition → KeyCase vi key no) :
    KeyCase vi key (if condition then yes else no) := by
  split
  · next holds => exact yesCase holds
  · next fails => exact noCase fails

theorem keyCase_keyNormal {vi : ViProgram} (mode : vi.mode = .normal) (key : UInt8) :
    KeyCase vi key (vi.keyNormal key) := by
  have writesIff : vi.writes key = (decide (key = byte 'Z') && vi.zPending) := by
    rw [writes, runs, mode]
    simp
  rw [keyNormal]
  apply keyCase_ite <;> intro colon
  · have notWritten : vi.writes key = false := by
      rw [writesIff, colon]
      rfl
    exact .settled rfl notWritten rfl rfl rfl rfl
  apply keyCase_ite <;> intro isZ
  · apply keyCase_ite <;> intro pending
    · have written : vi.writes key = true := by
        rw [writesIff, pending, isZ]
        rfl
      exact .written rfl written rfl rfl rfl
    · have notWritten : vi.writes key = false := by
        rw [writesIff, Bool.not_eq_true _ |>.mp pending, Bool.and_false]
      exact .settled rfl notWritten rfl rfl rfl rfl
  have notWritten : vi.writes key = false := by
    rw [writesIff, decide_eq_false isZ, Bool.false_and]
  extract_lets settled
  apply keyCase_ite <;> intro _
  · exact .settled rfl notWritten rfl rfl rfl rfl
  apply keyCase_ite <;> intro _
  · exact .settled rfl notWritten rfl rfl rfl rfl
  apply keyCase_ite <;> intro _
  · exact .settled rfl notWritten rfl rfl rfl rfl
  apply keyCase_ite <;> intro _
  · exact .settled rfl notWritten rfl rfl rfl rfl
  apply keyCase_ite <;> intro _
  · exact .changed rfl notWritten rfl rfl rfl
  apply keyCase_ite <;> intro _
  · exact .changed rfl notWritten rfl rfl rfl
  apply keyCase_ite <;> intro _
  · exact .settled rfl notWritten rfl rfl rfl rfl
  apply keyCase_ite <;> intro _
  · exact .settled rfl notWritten rfl rfl rfl rfl
  apply keyCase_ite <;> intro _
  · exact .settled rfl notWritten rfl rfl rfl rfl
  apply keyCase_ite <;> intro _
  · exact .settled rfl notWritten rfl rfl rfl rfl
  apply keyCase_ite <;> intro _
  · exact .settled rfl notWritten rfl rfl rfl rfl
  apply keyCase_ite <;> intro _
  · exact .settled rfl notWritten rfl rfl rfl rfl
  apply keyCase_ite <;> intro _
  · exact .changed rfl notWritten rfl rfl rfl
  apply keyCase_ite <;> intro _
  · exact .settled rfl notWritten rfl rfl rfl rfl
  · exact .settled rfl notWritten rfl rfl rfl rfl

theorem keyCase_keyInsert {vi : ViProgram} (mode : vi.mode = .insert) (key : UInt8) :
    KeyCase vi key (vi.keyInsert key) := by
  have notWritten : vi.writes key = false := by
    rw [writes, runs, mode]
    rfl
  rw [keyInsert]
  apply keyCase_ite <;> intro _
  · exact .settled rfl notWritten rfl rfl rfl rfl
  apply keyCase_ite <;> intro _
  · exact .changed rfl notWritten rfl rfl rfl
  apply keyCase_ite <;> intro _
  · apply keyCase_ite <;> intro _
    · exact .changed rfl notWritten rfl rfl rfl
    · apply keyCase_ite <;> intro _
      · exact .changed rfl notWritten rfl rfl rfl
      · exact .changed rfl notWritten rfl rfl rfl
  split
  · exact .changed rfl notWritten rfl rfl rfl
  · exact .settled rfl notWritten rfl rfl rfl rfl

theorem keyCase_keyCommand {vi : ViProgram} (mode : vi.mode = .command) (key : UInt8) :
    KeyCase vi key (vi.keyCommand key) := by
  have writesEq : vi.writes key = runs isWrite vi key := by
    rw [writes, mode]
    rfl
  rw [keyCommand]
  apply keyCase_ite <;> intro isReturn
  · have runsEq : ∀ kind : Str → Bool, vi.runs kind key = kind (exBase (Text.strip vi.cmdline)) := by
      intro kind
      rw [runs, mode]
      simp [isReturn]
    rw [runsEq] at writesEq
    rw [runEx]
    apply keyCase_ite <;> intro isW
    · have written : vi.writes key = true := writesEq.trans ((isWrite_iff _).mpr (.inl isW))
      exact .written rfl written rfl rfl rfl
    apply keyCase_ite <;> intro isWq
    · have written : vi.writes key = true := writesEq.trans ((isWrite_iff _).mpr (.inr isWq))
      exact .written rfl written rfl rfl rfl
    have notWritten : vi.writes key = false := by
      rw [writesEq, ← Bool.not_eq_true, isWrite_iff]
      exact not_or.mpr ⟨isW, isWq⟩
    apply keyCase_ite <;> intro isQuit
    · have abandoned : vi.runs isAbandon key = true :=
        (runsEq isAbandon).trans ((isAbandon_iff _).mpr isQuit)
      exact .kept rfl notWritten rfl rfl rfl fun _ => .inr abandoned
    apply keyCase_ite <;> intro _
    · apply keyCase_ite <;> intro dirty
      · exact .settled rfl notWritten rfl rfl rfl rfl
      · have clean : vi.dirty = false := Bool.not_eq_true _ |>.mp dirty
        exact .kept rfl notWritten rfl rfl rfl fun _ => .inl clean
    · exact .settled rfl notWritten rfl rfl rfl rfl
  have notWritten : vi.writes key = false := by
    rw [writesEq, runs]
    simp [isReturn]
  apply keyCase_ite <;> intro _
  · apply keyCase_ite <;> intro _
    · exact .settled rfl notWritten rfl rfl rfl rfl
    · exact .settled rfl notWritten rfl rfl rfl rfl
  apply keyCase_ite <;> intro _
  · exact .settled rfl notWritten rfl rfl rfl rfl
  · exact .settled rfl notWritten rfl rfl rfl rfl

theorem keyCase_key (vi : ViProgram) (key : UInt8) : KeyCase vi key (vi.key key) := by
  rw [ViProgram.key.eq_def]
  cases mode : vi.mode with
  | normal => exact keyCase_keyNormal mode key
  | insert => exact keyCase_keyInsert mode key
  | command => exact keyCase_keyCommand mode key

/-! ### Calls of `handle_key` -/

def rowsIndexed (vi : ViProgram) (key : UInt8) : List Nat :=
  match vi.mode with
  | .normal =>
      if key = byte 'j' then [vi.cy, min (vi.lines.length - 1) (vi.cy + 1)]
      else if key = byte 'k' then [vi.cy, vi.cy - 1]
      else [vi.cy]
  | .insert =>
      if key = 0x1b then []
      else if (key = 0x7f ∨ key = 8) ∧ vi.cx = 0 ∧ 0 < vi.cy then [vi.cy, vi.cy - 1]
      else [vi.cy]
  | .command => []

def key? (vi : ViProgram) (key : UInt8) : Option Effect :=
  if (vi.rowsIndexed key).all (· < vi.lines.length) then some (vi.key key) else none

def keys? (vi : ViProgram) : List UInt8 → Option Effect
  | [] => some (vi, { output := vi.screen }, [])
  | next :: rest =>
      (vi.key? next).bind fun (vi, result, saves) =>
        if result.done then some (vi, result, saves)
        else (vi.keys? rest).map fun (vi, result, later) => (vi, result, saves ++ later)

def handleKey? (vi : ViProgram) (data : List UInt8) : Option Effect :=
  keys? { vi with statusMsg := [] } data

def storedBy (vi : ViProgram) (stored : Str) (key : UInt8) : Str :=
  if vi.writes key then vi.currentContent else stored

def storedByKeys (vi : ViProgram) (stored : Str) : List UInt8 → Str
  | [] => stored
  | key :: rest =>
      if (vi.key key).2.1.done then vi.storedBy stored key
      else (vi.key key).1.storedByKeys (vi.storedBy stored key) rest

def storedAfter (vi : ViProgram) (stored : Str) (data : List UInt8) : Str :=
  storedByKeys { vi with statusMsg := [] } stored data

def AbandonedIn (vi : ViProgram) : List UInt8 → Prop
  | [] => False
  | key :: rest => vi.runs isAbandon key = true ∨ (vi.key key).1.AbandonedIn rest

theorem rowsIndexed_lt {vi : ViProgram} (valid : vi.Valid) {key : UInt8} {row : Nat}
    (member : row ∈ vi.rowsIndexed key) : row < vi.lines.length := by
  have within : vi.cy < vi.lines.length := valid.rowIn
  rw [rowsIndexed] at member
  split at member
  · split at member
    · rcases List.mem_pair.mp member with here | below <;> omega
    · split at member
      · rcases List.mem_pair.mp member with here | above <;> omega
      · rw [List.mem_singleton.mp member]
        exact within
  · split at member
    · cases member
    · split at member
      · rcases List.mem_pair.mp member with here | above <;> omega
      · rw [List.mem_singleton.mp member]
        exact within
  · cases member

theorem key?_eq {vi : ViProgram} (valid : vi.Valid) (key : UInt8) :
    vi.key? key = some (vi.key key) := by
  apply if_pos
  rw [List.all_eq_true]
  intro row member
  exact decide_eq_true (rowsIndexed_lt valid member)

theorem keys?_eq {vi : ViProgram} (valid : vi.Valid) (data : List UInt8) :
    vi.keys? data = some (vi.keys data) := by
  induction data generalizing vi with
  | nil => rfl
  | cons next rest induction =>
      have later := induction (valid_key valid next)
      rw [keys?, key?_eq valid next, keys]
      simp only [Option.bind_some]
      split
      · rfl
      · rw [later]
        rfl

theorem keys_cons {vi : ViProgram} {next : UInt8} (stays : (vi.key next).2.1.done = false)
    (rest : List UInt8) :
    vi.keys (next :: rest) =
      (((vi.key next).1.keys rest).1, ((vi.key next).1.keys rest).2.1,
        (vi.key next).2.2 ++ ((vi.key next).1.keys rest).2.2) := by
  rw [keys]
  simp only [stays, Bool.false_eq_true, if_false]

theorem keys_cons_done {vi : ViProgram} {next : UInt8} (done : (vi.key next).2.1.done = true)
    (rest : List UInt8) : vi.keys (next :: rest) = vi.key next := by
  rw [keys]
  simp only [done, if_true]

theorem valid_keys {vi : ViProgram} (valid : vi.Valid) (data : List UInt8) :
    (vi.keys data).1.Valid := by
  induction data generalizing vi with
  | nil => exact valid
  | cons next rest induction =>
      cases done : (vi.key next).2.1.done with
      | true =>
          rw [keys_cons_done done]
          exact valid_key valid next
      | false =>
          rw [keys_cons done]
          exact induction (valid_key valid next)

/-- A buffer that is not dirty holds what was last loaded or written. -/
def Clean (vi : ViProgram) (stored : Str) : Prop := vi.dirty = false → vi.currentContent = stored

theorem content_eq {vi next : ViProgram} (lines : next.lines = vi.lines) :
    next.currentContent = vi.currentContent := by
  rw [currentContent, lines, currentContent]

theorem clean_key {vi : ViProgram} {stored : Str} (clean : vi.Clean stored) (key : UInt8) :
    (vi.key key).1.Clean (vi.storedBy stored key) := by
  intro notDirty
  cases keyCase_key vi key with
  | kept filename notWritten lines dirty saves left =>
      rw [storedBy, notWritten, content_eq lines]
      exact clean (dirty.symm.trans notDirty)
  | changed filename notWritten dirty saves stays =>
      rw [dirty] at notDirty
      cases notDirty
  | written filename written lines dirty saves =>
      rw [storedBy, written, content_eq lines]
      rfl

theorem clean_keys {vi : ViProgram} {stored : Str} (clean : vi.Clean stored) (data : List UInt8) :
    (vi.keys data).1.Clean (vi.storedByKeys stored data) := by
  induction data generalizing vi stored with
  | nil => exact clean
  | cons next rest induction =>
      have cleanNext := clean_key clean next
      rw [storedByKeys]
      cases done : (vi.key next).2.1.done with
      | true =>
          rw [keys_cons_done done]
          exact cleanNext
      | false =>
          rw [keys_cons done]
          exact induction cleanNext

theorem left_key {vi : ViProgram} {stored : Str} (clean : vi.Clean stored) {key : UInt8}
    (done : (vi.key key).2.1.done = true) :
    (vi.key key).1.currentContent = vi.storedBy stored key ∨ vi.runs isAbandon key = true := by
  cases keyCase_key vi key with
  | kept filename notWritten lines dirty saves left =>
      rcases left done with notDirty | abandoned
      · left
        exact clean_key clean key (dirty.trans notDirty)
      · exact .inr abandoned
  | changed filename notWritten dirty saves stays =>
      rw [stays] at done
      cases done
  | written filename written lines dirty saves => exact .inl (clean_key clean key dirty)

theorem left_keys {vi : ViProgram} {stored : Str} (clean : vi.Clean stored) {data : List UInt8}
    (done : (vi.keys data).2.1.done = true) :
    (vi.keys data).1.currentContent = vi.storedByKeys stored data ∨ vi.AbandonedIn data := by
  induction data generalizing vi stored with
  | nil => cases done
  | cons next rest induction =>
      rw [storedByKeys]
      cases nextDone : (vi.key next).2.1.done with
      | true =>
          rw [keys_cons_done nextDone]
          rcases left_key clean nextDone with stored | abandoned
          · exact .inl stored
          · exact .inr (.inl abandoned)
      | false =>
          rw [keys_cons nextDone] at done ⊢
          rcases induction (clean_key clean next) done with stored | abandoned
          · exact .inl stored
          · exact .inr (.inr abandoned)

/-! ### What is handed to `on_save` -/

theorem filename_key (vi : ViProgram) (key : UInt8) : (vi.key key).1.filename = vi.filename := by
  cases keyCase_key vi key with
  | kept filename _ _ _ _ _ => exact filename
  | changed filename _ _ _ _ => exact filename
  | written filename _ _ _ _ => exact filename

theorem saves_key {vi : ViProgram} (named : vi.filename ≠ []) (key : UInt8) :
    (vi.key key).2.2 = if vi.writes key then [vi.currentContent] else [] := by
  cases keyCase_key vi key with
  | kept filename notWritten lines dirty saves left => rw [saves, notWritten]; rfl
  | changed filename notWritten dirty saves stays => rw [saves, notWritten]; rfl
  | written filename written lines dirty saves =>
      rw [saves, written, saved, if_neg named]
      rfl

theorem storedBy_eq {vi : ViProgram} (named : vi.filename ≠ []) (stored : Str) (key : UInt8) :
    vi.storedBy stored key = ((vi.key key).2.2.getLast?).getD stored := by
  rw [storedBy, saves_key named]
  cases vi.writes key <;> rfl

theorem storedByKeys_eq {vi : ViProgram} (named : vi.filename ≠ []) (stored : Str)
    (data : List UInt8) :
    vi.storedByKeys stored data = ((vi.keys data).2.2.getLast?).getD stored := by
  induction data generalizing vi stored with
  | nil => rfl
  | cons next rest induction =>
      rw [storedByKeys]
      cases done : (vi.key next).2.1.done with
      | true =>
          rw [keys_cons_done done]
          exact storedBy_eq named stored next
      | false =>
          have namedNext : (vi.key next).1.filename ≠ [] := by
            rw [filename_key]
            exact named
          rw [keys_cons done]
          change ((vi.key next).1.storedByKeys (vi.storedBy stored next) rest) = _
          rw [induction namedNext, storedBy_eq named, List.getLast?_append]
          cases ((vi.key next).1.keys rest).2.2.getLast? <;> rfl

/-! ## Runs of the editor -/

theorem currentContent_initial (filename content : Str) (rows : Nat) (newFile : Bool) :
    (initial filename content rows newFile).currentContent = content :=
  Text.join_splitChar '\n' content

/-- The states of a program between the calls of `handle_key`, with what was last loaded or
written. -/
inductive Edited (filename content : Str) (rows : Nat) (newFile : Bool) : ViProgram → Str → Prop
  | opened : Edited filename content rows newFile (initial filename content rows newFile) content
  | called {vi : ViProgram} {stored : Str} (edited : Edited filename content rows newFile vi stored)
      (data : List UInt8) (stays : (vi.handleKey data).2.1.done = false) :
      Edited filename content rows newFile (vi.handleKey data).1 (vi.storedAfter stored data)

structure Sound (vi : ViProgram) (stored : Str) : Prop where
  valid : vi.Valid
  clean : vi.Clean stored

theorem sound_handleKey {vi : ViProgram} {stored : Str} (sound : vi.Sound stored)
    (data : List UInt8) : (vi.handleKey data).1.Sound (vi.storedAfter stored data) := by
  have valid : Valid { vi with statusMsg := [] } := sound.valid
  have clean : Clean { vi with statusMsg := [] } stored := sound.clean
  exact ⟨valid_keys valid data, clean_keys clean data⟩

theorem sound_edited {filename content : Str} {rows : Nat} {newFile : Bool} {vi : ViProgram}
    {stored : Str} (edited : Edited filename content rows newFile vi stored) :
    vi.Sound stored := by
  induction edited with
  | opened =>
      exact ⟨valid_initial filename content rows newFile,
        fun _ => currentContent_initial filename content rows newFile⟩
  | called _ data _ induction => exact sound_handleKey induction data

/-- What holds of a program between two calls, and of its next call: the cursor stands in the
buffer, no line is broken, the call does not raise, a clean buffer holds what was last loaded or
written, and the program leaves with unwritten changes by `:q!` or `:quit!` alone. With a file
name every write is handed to `on_save`. -/
structure Kept (vi : ViProgram) (stored : Str) : Prop where
  lines : vi.lines ≠ []
  row : vi.cy < vi.lines.length
  column : vi.cx ≤ (vi.lines.getD vi.cy []).length
  unbroken : ∀ line ∈ vi.lines, '\n' ∉ line
  clean : vi.dirty = false → vi.currentContent = stored
  returns : ∀ data, vi.handleKey? data = some (vi.handleKey data)
  leaves : ∀ data, (vi.handleKey data).2.1.done = true →
    (vi.handleKey data).1.currentContent = vi.storedAfter stored data ∨
      AbandonedIn { vi with statusMsg := [] } data
  saves : vi.filename ≠ [] → ∀ data,
    vi.storedAfter stored data = ((vi.handleKey data).2.2.getLast?).getD stored

/-- The invariant of a program in every run. -/
theorem edited_kept {filename content : Str} {rows : Nat} {newFile : Bool} {vi : ViProgram}
    {stored : Str} (edited : Edited filename content rows newFile vi stored) :
    vi.Kept stored := by
  have sound := sound_edited edited
  have valid : Valid { vi with statusMsg := [] } := sound.valid
  have clean : Clean { vi with statusMsg := [] } stored := sound.clean
  constructor
  · exact List.ne_nil_of_length_pos (Nat.zero_lt_of_lt valid.rowIn)
  · exact valid.rowIn
  · exact valid.columnIn
  · exact valid.unbroken
  · exact clean
  · intro data
    exact keys?_eq valid data
  · intro data done
    exact left_keys clean done
  · intro named data
    exact @storedByKeys_eq { vi with statusMsg := [] } named stored data

/-- A text typed into a new file, before it is saved. -/
theorem typed_kept :
    Kept ((initial "f".toList [] 24 true).handleKey ("ihi\nyou".toList.map byte)).1 [] :=
  edited_kept (.called (@Edited.opened "f".toList [] 24 true)
    ("ihi\nyou".toList.map byte) (by decide))

/-- A buffer without a file name is taken for written, and left, without a call of
`on_save`. -/
theorem unnamed_not_saved :
    ((initial [] [] 24 true).handleKey ("ia\x1b:w\r".toList.map byte)).1.dirty = false ∧
      ((initial [] [] 24 true).handleKey ("ia\x1b:w\r".toList.map byte)).1.currentContent =
        "a".toList ∧
      ((initial [] [] 24 true).handleKey ("ia\x1b:w\r".toList.map byte)).2.2 = [] ∧
      ((initial [] [] 24 true).handleKey ("ia\x1b:wq\r".toList.map byte)).2 = (LEAVE, []) := by
  decide

end ViProgram

end Interactive

end LlmHoneypot
