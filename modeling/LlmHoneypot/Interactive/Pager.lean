import LlmHoneypot.Interactive

/-! # Paging

The windows that `less` shows: they tile the lines when space is pressed, and no key leads to an
empty one. -/

namespace LlmHoneypot

namespace Interactive

namespace LessProgram

def window (less : LessProgram) : List Str := (less.lines.drop less.offset).take less.pageRows

def shown : (presses : Nat) → LessProgram → List (List Str) × Bool
  | 0, less => ([less.window], false)
  | presses + 1, less =>
      if (less.handleKey [byte ' ']).2.done then ([less.window], true)
      else
        let later := shown presses (less.handleKey [byte ' ']).1
        (less.window :: later.1, later.2)

/-- The program after some keys, `none` where one of them leaves it. -/
def afterKeys : LessProgram → (keys : List (List UInt8)) → Option LessProgram
  | less, [] => some less
  | less, key :: keys =>
      if (less.handleKey key).2.done then none else afterKeys (less.handleKey key).1 keys

def Tiles (less : LessProgram) : Prop :=
  ∃ presses ≤ less.lines.length + 1, (shown presses less).2 = true ∧
    (shown presses less).1.flatten = less.lines

def Within (less : LessProgram) : Prop := less.window ≠ [] ∧ less.offset < less.lines.length

/-- The pager shows every line once, and no key leads out of the file. -/
def Paged (less : LessProgram) : Prop :=
  Tiles less ∧ ∀ keys next, afterKeys less keys = some next → Within next

section

variable {less next : LessProgram} {key : List UInt8}

theorem handleKey_cases (stays : (less.handleKey key).2.done = false)
    (isNext : (less.handleKey key).1 = next) :
    next = less ∨
      (less.atEnd = false ∧ next = { less with offset := less.offset + less.pageRows }) ∨
      next = { less with offset := less.offset - less.pageRows } ∨
      (less.atEnd = false ∧ next = { less with offset := less.offset + 1 }) := by
  unfold handleKey at stays isNext
  split at isNext
  · rename_i quits
    rw [if_pos quits] at stays
    cases stays
  · rename_i notQuit
    rw [if_neg notQuit] at stays
    split at isNext
    · rename_i forward
      rw [if_pos forward] at stays
      cases ends : less.atEnd with
      | true =>
          rw [ends] at stays
          cases stays
      | false =>
          rw [ends] at isNext
          exact .inr (.inl ⟨rfl, isNext.symm⟩)
    · split at isNext
      · exact .inr (.inr (.inl isNext.symm))
      · split at isNext
        · cases ends : less.atEnd with
          | true =>
              rw [ends] at isNext
              exact .inl isNext.symm
          | false =>
              rw [ends] at isNext
              exact .inr (.inr (.inr ⟨rfl, isNext.symm⟩))
        · exact .inl isNext.symm

theorem atEnd_iff : less.atEnd = true ↔ less.lines.length ≤ less.offset + less.pageRows :=
  decide_eq_true_iff

theorem inside_of_not_atEnd (ends : less.atEnd = false) :
    less.offset + less.pageRows < less.lines.length := by
  rw [← Bool.not_eq_true, atEnd_iff] at ends
  omega

theorem handleKey_inside (enough : 2 ≤ less.rows) (inside : less.offset < less.lines.length)
    (stays : (less.handleKey key).2.done = false) (isNext : (less.handleKey key).1 = next) :
    next.rows = less.rows ∧ next.offset < next.lines.length := by
  rcases handleKey_cases stays isNext with same | ⟨ends, forward⟩ | back | ⟨ends, down⟩
  · rw [same]
    exact ⟨rfl, inside⟩
  · rw [forward]
    exact ⟨rfl, inside_of_not_atEnd ends⟩
  · rw [back]
    exact ⟨rfl, (Nat.sub_le _ _).trans_lt inside⟩
  · have room := inside_of_not_atEnd ends
    have visible : 1 ≤ less.pageRows := Nat.le_sub_of_add_le enough
    rw [down]
    exact ⟨rfl, show less.offset + 1 < less.lines.length by omega⟩

theorem afterKeys_inside {keys : List (List UInt8)} (enough : 2 ≤ less.rows)
    (inside : less.offset < less.lines.length) (isNext : afterKeys less keys = some next) :
    next.rows = less.rows ∧ next.offset < next.lines.length := by
  induction keys generalizing less with
  | nil =>
      rw [← Option.some.inj isNext]
      exact ⟨rfl, inside⟩
  | cons key keys induction =>
      rw [afterKeys] at isNext
      split at isNext
      · cases isNext
      · rename_i stays
        have step := handleKey_inside enough inside (Bool.eq_false_of_not_eq_true stays) rfl
        have later := induction (by rw [step.1]; exact enough) step.2 isNext
        exact ⟨later.1.trans step.1, later.2⟩

theorem window_nonempty (enough : 2 ≤ less.rows) (inside : less.offset < less.lines.length) :
    less.window ≠ [] := by
  have visible : 1 ≤ less.pageRows := Nat.le_sub_of_add_le enough
  apply List.ne_nil_of_length_pos
  rw [window, List.length_take, List.length_drop]
  omega

theorem space_atEnd (ends : less.atEnd = true) (presses : Nat) :
    shown (presses + 1) less = ([less.window], true) := by
  have leaves : less.handleKey [byte ' '] = less.leave := by
    rw [handleKey, if_neg (by decide), if_pos (by decide), if_pos ends]
  rw [shown, leaves]
  rfl

theorem space_before (ends : less.atEnd = false) (presses : Nat) :
    shown (presses + 1) less =
      (less.window :: (shown presses { less with offset := less.offset + less.pageRows }).1,
        (shown presses { less with offset := less.offset + less.pageRows }).2) := by
  have moves : less.handleKey [byte ' '] = less.moveTo (less.offset + less.pageRows) := by
    rw [handleKey, if_neg (by decide), if_pos (by decide), ends]
    rfl
  rw [shown, moves]
  rfl

theorem shown_lines {presses : Nat} (enough : 2 ≤ less.rows)
    (inside : less.offset < less.lines.length)
    (bound : less.lines.length ≤ less.offset + presses) :
    (shown presses less).2 = true ∧
      (shown presses less).1.flatten = less.lines.drop less.offset := by
  induction presses generalizing less with
  | zero => omega
  | succ presses induction =>
      cases ends : less.atEnd with
      | true =>
          have whole : less.window = less.lines.drop less.offset := by
            apply List.take_of_length_le
            rw [List.length_drop]
            have reached := atEnd_iff.mp ends
            omega
          rw [space_atEnd ends, List.flatten_singleton]
          exact ⟨rfl, whole⟩
      | false =>
          have room := inside_of_not_atEnd ends
          have visible : 1 ≤ less.pageRows := Nat.le_sub_of_add_le enough
          have later := @induction { less with offset := less.offset + less.pageRows } enough room
            (show less.lines.length ≤ less.offset + less.pageRows + presses by omega)
          rw [space_before ends, List.flatten_cons, later.2]
          refine ⟨later.1, ?_⟩
          calc less.window ++ less.lines.drop (less.offset + less.pageRows)
            _ = less.window ++ (less.lines.drop less.offset).drop less.pageRows := by
                rw [List.drop_drop]
            _ = less.lines.drop less.offset := List.take_append_drop _ _

end

/-- The pager shows every line once exactly where it has two rows at least. -/
theorem paged_iff (content : Str) (rows : Nat) : Paged { content, rows } ↔ 2 ≤ rows := by
  have started : 0 < (LessProgram.lines { content, rows }).length :=
    List.length_pos_of_ne_nil (Text.splitChar_ne_nil '\n' content)
  constructor
  · rintro ⟨-, within⟩
    by_contra few
    have noRows : pageRows { content, rows } = 0 := show rows - 1 = 0 by omega
    have here := (within [] { content, rows } rfl).1
    rw [window, noRows] at here
    exact here rfl
  · intro enough
    constructor
    · have all := @shown_lines { content, rows }
        (LessProgram.lines { content, rows }).length enough started
        (Nat.le_add_left _ _)
      exact ⟨_, Nat.le_succ _, all⟩
    · intro keys next isNext
      have after := @afterKeys_inside { content, rows } next keys enough started isNext
      exact ⟨window_nonempty (by rw [after.1]; exact enough) after.2, after.2⟩

theorem paged_small : Paged { content := "a\nb\nc".toList, rows := 2 } :=
  (paged_iff "a\nb\nc".toList 2).mpr (by decide)

/-- One row has no room for a line, and space does not move. -/
theorem one_row_traps : ¬ ∀ content rows, 1 ≤ rows → Paged { content, rows } := by
  intro all
  have paged := all "a".toList 1 (by decide)
  exact (paged.2 [] _ rfl).1 rfl

end LessProgram

end Interactive

end LlmHoneypot
