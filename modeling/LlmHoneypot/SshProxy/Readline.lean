import LlmHoneypot.Foundation.Decimal
import LlmHoneypot.SshProxy.Term

/-! # The line of a shell beside the line of the terminal

A shell that edits its line as readline does, and the terminal of the proxy that sees the same
keystrokes and what the shell shows, packet by packet in any order. -/

namespace LlmHoneypot

namespace SshProxy

namespace Readline

/-! ## The shell -/

abbrev Printable := { ch : Char // 0x20 ≤ ch.toNat ∧ ch.toNat ≠ 0x7f }

/-- A keystroke; a completion or another line of the history comes with what the shell makes
of it. -/
inductive Stroke
  | printable (ch : Printable)
  | backspace
  | ctrlH
  | left
  | right
  | home
  | end_
  | tab (completion : Str)
  | up (recalled : Str)
  | down (recalled : Str)
  | ctrlC
  | ctrlU
  | enter
  | newline

def Stroke.bytes : Stroke → Bytes
  | .printable ch => String.utf8EncodeChar ch
  | .backspace => [0x7f]
  | .ctrlH => [0x08]
  | .left => [0x1b, 0x5b, 0x44]
  | .right => [0x1b, 0x5b, 0x43]
  | .home => [0x1b, 0x4f, 0x48]
  | .end_ => [0x1b, 0x4f, 0x46]
  | .tab _ => [0x09]
  | .up _ => [0x1b, 0x5b, 0x41]
  | .down _ => [0x1b, 0x5b, 0x42]
  | .ctrlC => [0x03]
  | .ctrlU => [0x15]
  | .enter => [0x0d]
  | .newline => [0x0a]

/-- The line before and behind the cursor, and the lines at which Enter was pressed; an
interrupt drops the line. -/
structure Shell where
  before : Str := []
  after : Str := []
  ended : List Str := []

namespace Shell

def line (shell : Shell) : Str := shell.before ++ shell.after

def submit (shell : Shell) : Shell := { ended := shell.ended ++ [shell.line] }

def press (shell : Shell) : Stroke → Shell
  | .printable ch => { shell with before := shell.before ++ [ch.val] }
  | .backspace | .ctrlH => { shell with before := shell.before.dropLast }
  | .left =>
      { shell with
        before := shell.before.dropLast, after := shell.before.getLast?.toList ++ shell.after }
  | .right =>
      { shell with before := shell.before ++ shell.after.head?.toList, after := shell.after.tail }
  | .home => { shell with before := [], after := shell.line }
  | .end_ => { shell with before := shell.line, after := [] }
  | .tab completion => { shell with before := shell.before ++ completion }
  | .up recalled | .down recalled => { shell with before := recalled, after := [] }
  | .ctrlC => { shell with before := [], after := [] }
  | .ctrlU => { shell with before := [] }
  | .enter | .newline => shell.submit

/-- The shell has more in its line than was typed. -/
def answers (shell : Shell) : Stroke → Bool
  | .tab completion => completion ≠ []
  | .up recalled | .down recalled => recalled ≠ shell.line
  | _ => false

end Shell

/-! ## Both together -/

structure System where
  term : Term := {}
  shell : Shell := {}
  owed : Bool := false

/-- A packet of the client or of the server. -/
inductive Traffic
  | keys (strokes : List Stroke)
  | output (data : Bytes)

namespace System

def press (system : System) (stroke : Stroke) : System where
  term := system.term.parsePacket .server stroke.bytes
  shell := system.shell.press stroke
  owed := system.owed || system.shell.answers stroke

def step (system : System) : Traffic → Option System
  | .keys strokes =>
      some { strokes.foldl press system with
        term := system.term.parsePacket .server (strokes.flatMap Stroke.bytes) }
  | .output data =>
      some { system with
        term := system.term.parsePacket .client data
        owed := system.owed && !(system.term.tabPress || system.term.upArrow) }

/-- The pointer stays in the line, and what is logged are the lines at which Enter was
pressed. -/
structure Kept (system : System) : Prop where
  nonneg : 0 ≤ system.term.pointer
  within : system.term.pointer ≤ system.term.command.length
  logged : system.term.logged = system.shell.ended.filter (· ≠ [])

def Aligned (system : System) : Prop :=
  system.term.pointer = (Utf8.encode system.shell.before).length

def KeyMet (system : System) : Stroke → Prop
  | .printable _ => system.owed = false ∧ system.Aligned
  | .backspace | .ctrlH =>
      system.owed = false ∧ system.Aligned ∧ ∀ ch ∈ system.shell.before.getLast?, ch.toNat < 0x80
  | .enter | .newline => system.owed = false
  -- An interrupted line is logged with `^C` behind it, and the other byte becomes text.
  | .ctrlC | .ctrlU => False
  | _ => True

instance (system : System) : Decidable system.Aligned := inferInstanceAs (Decidable (_ = _))

instance (system : System) : DecidablePred system.KeyMet := fun stroke =>
  haveI : Decidable (∀ ch ∈ system.shell.before.getLast?, ch.toNat < 0x80) :=
    decidable_of_iff (system.shell.before.getLast?.all fun ch => decide (ch.toNat < 0x80)) (by
      cases system.shell.before.getLast? <;> simp)
  match stroke with
  | .printable _ => inferInstanceAs (Decidable (_ ∧ _))
  | .backspace | .ctrlH => inferInstanceAs (Decidable (_ ∧ _ ∧ _))
  | .enter | .newline => inferInstanceAs (Decidable (_ = _))
  | .ctrlC | .ctrlU => .isFalse id
  | .left | .right | .home | .end_ | .tab _ | .up _ | .down _ => .isTrue trivial

inductive Piece
  | back
  | text (byte : UInt8) (plain : byte ∉ [0x07, 0x08, 0x0d, 0x1b])
  | clear

def Piece.bytes : Piece → Bytes
  | .back => [0x08]
  | .text byte _ => [byte]
  | .clear => [0x1b, 0x5b, 0x4b]

/-- The line that the pieces leave, each step back taking a byte that is there. -/
def Piece.replay (line : Bytes) : List Piece → Option Bytes
  | [] => some line
  | .back :: pieces => if line = [] then none else replay line.dropLast pieces
  | .text byte _ :: pieces => replay (line ++ [byte]) pieces
  | .clear :: pieces => replay line pieces

/-- The packet that is taken for a completion or for another line is the answer: the text at the
end of the line, and what turns one line into the other from its end on. -/
def OutputMet (system : System) (data : Bytes) : Prop :=
  let line := Utf8.encode system.shell.line
  match system.term.tabPress, system.term.upArrow with
  | false, false => True
  | true, false =>
      line = if data.head? = some 0x0d ∨ data = [0x07] then system.term.command
        else system.term.command ++ data
  | false, true =>
      system.term.pointer = system.term.command.length ∧
        ∃ pieces : List Piece, data = pieces.flatMap Piece.bytes ∧
          Piece.replay system.term.command pieces = some line
  | true, true => False

def Met (system : System) : Traffic → Prop
  | .keys strokes =>
      EventRun.Along (fun system stroke => some (press system stroke)) KeyMet system strokes
  | .output data => system.OutputMet data

end System

/-! ## Keystrokes -/

theorem typed_encodeChar (ch : Printable) : ∀ byte ∈ String.utf8EncodeChar ch.val, Term.Typed byte := by
  intro byte member
  have visible := ch.2
  rw [Term.Typed]
  simp only [List.mem_cons, List.not_mem_nil, or_false, not_or, ← UInt8.toNat_inj,
    UInt8.reduceToNat]
  rcases Utf8.mem_encodeChar member with same | ⟨_, large⟩
  · omega
  · omega

def stroked (term : Term) : Stroke → Term
  | .printable ch => (String.utf8EncodeChar ch.val).foldl (fun term byte => term.insert byte) term
  | .backspace | .ctrlH => term.backspace
  | .left => if term.pointer ≠ 0 then { term with pointer := term.pointer - 1 } else term
  | .right =>
      if term.pointer ≠ term.command.length then { term with pointer := term.pointer + 1 } else term
  | .home => { term with pointer := 0 }
  | .end_ => { term with pointer := term.command.length }
  | .tab _ => { term with tabPress := true }
  | .up _ | .down _ => { term with upArrow := true }
  | .ctrlC => term.interrupt.submit
  | .ctrlU => term.insert 0x15
  | .enter | .newline => term.submit

theorem keys_stroke (stroke : Stroke) (term : Term) (rest : Bytes) :
    term.keys (stroke.bytes ++ rest) = (stroked term stroke).keys rest := by
  cases stroke with
  | printable ch => exact Term.keys_typed (typed_encodeChar ch) term rest
  | backspace => simp [Stroke.bytes, stroked, Term.keys_cons, Term.key]
  | ctrlH => simp [Stroke.bytes, stroked, Term.keys_cons, Term.key]
  | left => simp [Stroke.bytes, stroked, Term.keys_cons, Term.key]
  | right => simp [Stroke.bytes, stroked, Term.keys_cons, Term.key]
  | home => simp [Stroke.bytes, stroked, Term.keys_cons, Term.key]
  | end_ => simp [Stroke.bytes, stroked, Term.keys_cons, Term.key]
  | tab completion => simp [Stroke.bytes, stroked, Term.keys_cons, Term.key]
  | up recalled => simp [Stroke.bytes, stroked, Term.keys_cons, Term.key]
  | down recalled => simp [Stroke.bytes, stroked, Term.keys_cons, Term.key]
  | ctrlC => simp [Stroke.bytes, stroked, Term.keys_cons, Term.key]
  | ctrlU => simp [Stroke.bytes, stroked, Term.keys_cons, Term.key]
  | enter => simp [Stroke.bytes, stroked, Term.keys_cons, Term.key]
  | newline => simp [Stroke.bytes, stroked, Term.keys_cons, Term.key]

namespace System

theorem term_press (system : System) (stroke : Stroke) :
    (system.press stroke).term = stroked system.term stroke := by
  change system.term.keys stroke.bytes = _
  rw [← List.append_nil stroke.bytes, keys_stroke, Term.keys_nil]

theorem step_keys (system : System) (strokes : List Stroke) :
    system.step (.keys strokes) = some (strokes.foldl press system) := by
  have together : system.term.parsePacket .server (strokes.flatMap Stroke.bytes) =
      (strokes.foldl press system).term := by
    change system.term.keys _ = _
    induction strokes generalizing system with
    | nil => exact Term.keys_nil _
    | cons stroke strokes induction =>
        rw [List.flatMap_cons, keys_stroke, ← term_press, induction, List.foldl_cons]
  rw [step, together]

structure Reconstructed (system : System) : Prop extends Kept system where
  line : system.owed = false → system.term.command = Utf8.encode system.shell.line
  answer : system.owed = true → system.term.tabPress = true ∨ system.term.upArrow = true

variable {system : System}

theorem Reconstructed.at_ (reconstructed : Reconstructed system) (shown : system.owed = false)
    (aligned : system.Aligned) :
    Term.At (Utf8.encode system.shell.before) (Utf8.encode system.shell.after) system.term := by
  constructor
  · rw [reconstructed.line shown, Shell.line, Utf8.encode_append]
  · exact aligned

theorem Reconstructed.edited {next : System} (reconstructed : Reconstructed system)
    (shown : next.owed = false)
    (at_ : Term.At (Utf8.encode next.shell.before) (Utf8.encode next.shell.after) next.term)
    (logged : next.term.logged = system.term.logged) (ended : next.shell.ended = system.shell.ended) :
    Reconstructed next where
  nonneg := at_.nonneg
  within := at_.within
  logged := by rw [logged, ended, reconstructed.logged]
  line := by
    intro _
    rw [at_.command, Shell.line, Utf8.encode_append]
  answer := by
    intro owed
    rw [shown] at owed
    cases owed

theorem Reconstructed.stayed {next : System} (reconstructed : Reconstructed system)
    (command : next.term.command = system.term.command)
    (logged : next.term.logged = system.term.logged) (ended : next.shell.ended = system.shell.ended)
    (nonneg : 0 ≤ next.term.pointer) (within : next.term.pointer ≤ system.term.command.length)
    (line : next.owed = false → system.owed = false ∧ next.shell.line = system.shell.line)
    (answer : next.owed = true → next.term.tabPress = true ∨ next.term.upArrow = true) :
    Reconstructed next where
  nonneg := nonneg
  within := by
    rw [command]
    exact within
  logged := by rw [logged, ended, reconstructed.logged]
  line := by
    intro shown
    rcases line shown with ⟨before, same⟩
    rw [command, same]
    exact reconstructed.line before
  answer := answer

theorem Reconstructed.moved (reconstructed : Reconstructed system) {stroke : Stroke}
    (command : (stroked system.term stroke).command = system.term.command)
    (same : Term.Same system.term (stroked system.term stroke))
    (nonneg : 0 ≤ (stroked system.term stroke).pointer)
    (within : (stroked system.term stroke).pointer ≤ system.term.command.length)
    (ended : (system.shell.press stroke).ended = system.shell.ended)
    (line : (system.shell.press stroke).line = system.shell.line)
    (silent : system.shell.answers stroke = false) : Reconstructed (system.press stroke) := by
  have owed : (system.press stroke).owed = system.owed := by
    change (system.owed || system.shell.answers stroke) = _
    rw [silent, Bool.or_false]
  refine reconstructed.stayed ?_ ?_ ended ?_ ?_ ?_ ?_
  · rw [term_press]
    exact command
  · rw [term_press]
    exact same.logged
  · rw [term_press]
    exact nonneg
  · rw [term_press]
    exact within
  · intro shown
    exact ⟨owed ▸ shown, line⟩
  · intro isOwed
    rw [term_press, same.tabPress, same.upArrow]
    exact reconstructed.answer (owed ▸ isOwed)

theorem Reconstructed.submitted (reconstructed : Reconstructed system) (shown : system.owed = false)
    {stroke : Stroke} (term : stroked system.term stroke = system.term.submit)
    (shell : system.shell.press stroke = system.shell.submit)
    (silent : system.shell.answers stroke = false) : Reconstructed (system.press stroke) := by
  have isShown : (system.press stroke).owed = false := by
    change (system.owed || system.shell.answers stroke) = _
    rw [silent, shown]
    rfl
  have isShell : (system.press stroke).shell = system.shell.submit := shell
  have isTerm := (term_press system stroke).trans term
  refine ⟨⟨?_, ?_, ?_⟩, ?_, ?_⟩
  · rw [isTerm]
    exact Int.le_refl 0
  · rw [isTerm]
    exact Int.le_refl 0
  · rw [isTerm, isShell]
    change system.term.logged ++ _ = (system.shell.ended ++ [_]).filter _
    rw [List.filter_append, reconstructed.logged, reconstructed.line shown]
    congr 1
    by_cases empty : system.shell.line = []
    · rw [empty]
      rfl
    · have some_ := Utf8.length_le_length_encode system.shell.line
      have positive := List.length_pos_of_ne_nil empty
      have bytes : Utf8.encode system.shell.line ≠ [] := by
        intro none
        rw [none] at some_
        exact absurd some_ (Nat.not_le_of_lt positive)
      simp [bytes, empty, Utf8.decode_encode]
  · intro _
    rw [isTerm, isShell]
    rfl
  · intro owed
    rw [isShown] at owed
    cases owed

theorem press_backspace (reconstructed : Reconstructed system) {stroke : Stroke}
    (shown : system.owed = false) (aligned : system.Aligned)
    (narrow : ∀ ch ∈ system.shell.before.getLast?, ch.toNat < 0x80)
    (term : stroked system.term stroke = system.term.backspace)
    (shell : system.shell.press stroke =
      { system.shell with before := system.shell.before.dropLast })
    (silent : system.shell.answers stroke = false) : Reconstructed (system.press stroke) := by
  have isShown : (system.press stroke).owed = false := by
    change (system.owed || system.shell.answers stroke) = _
    rw [silent, shown]
    rfl
  have isShell : (system.press stroke).shell =
      { system.shell with before := system.shell.before.dropLast } := shell
  have isTerm := (term_press system stroke).trans term
  have at_ := reconstructed.at_ shown aligned
  rcases List.eq_nil_or_concat system.shell.before with none | ⟨front, last, isBefore⟩
  · rw [none] at at_
    refine reconstructed.edited isShown ?_ ?_ ?_
    · rw [isTerm, isShell, at_.backspace_start, none]
      exact at_
    · rw [isTerm, at_.backspace_start]
    · rw [isShell]
  · rw [List.concat_eq_append] at isBefore
    have small : last.toNat < 0x80 := narrow last (by rw [isBefore, List.getLast?_concat]; rfl)
    have one := @Decimal.encode_ascii [last] (by simpa using small)
    rw [isBefore, Utf8.encode_append, one] at at_
    rcases at_.backspace with ⟨erased, same⟩
    refine reconstructed.edited isShown ?_ ?_ ?_
    · rw [isTerm, isShell, isBefore, List.dropLast_concat]
      exact erased
    · rw [isTerm]
      exact same.logged
    · rw [isShell]

theorem press_recalled (reconstructed : Reconstructed system) {stroke : Stroke} {recalled : Str}
    (isArrow : stroke = .up recalled ∨ stroke = .down recalled) :
    Reconstructed (system.press stroke) := by
  have isTerm : (system.press stroke).term = { system.term with upArrow := true } := by
    rw [term_press]
    rcases isArrow with rfl | rfl
    · rfl
    · rfl
  have isShell : (system.press stroke).shell = { system.shell with before := recalled, after := [] } := by
    rcases isArrow with rfl | rfl
    · rfl
    · rfl
  have owed : (system.press stroke).owed = (system.owed || decide (recalled ≠ system.shell.line)) := by
    rcases isArrow with rfl | rfl
    · rfl
    · rfl
  refine reconstructed.stayed ?_ ?_ ?_ ?_ ?_ ?_ ?_
  · rw [isTerm]
  · rw [isTerm]
  · rw [isShell]
  · rw [isTerm]
    exact reconstructed.nonneg
  · rw [isTerm]
    exact reconstructed.within
  · intro shown
    rw [owed, Bool.or_eq_false_iff, decide_eq_false_iff_not, not_not] at shown
    refine ⟨shown.1, ?_⟩
    rw [isShell, Shell.line, List.append_nil]
    exact shown.2
  · intro _
    right
    rw [isTerm]

theorem press_reconstructed (reconstructed : Reconstructed system) {stroke : Stroke}
    (met : system.KeyMet stroke) : Reconstructed (system.press stroke) := by
  have nonneg := reconstructed.nonneg
  have within := reconstructed.within
  cases stroke with
  | printable ch =>
      rcases met with ⟨shown, aligned⟩
      have at_ := reconstructed.at_ shown aligned
      rcases at_.insertAll (String.utf8EncodeChar ch.val) with ⟨inserted, same⟩
      refine reconstructed.edited (by simp [press, shown, Shell.answers]) ?_ ?_ rfl
      · rw [term_press]
        change Term.At (Utf8.encode (system.shell.before ++ [ch.val])) _ _
        rw [Utf8.encode_append, Utf8.encode, Utf8.encode, List.flatMap_singleton]
        exact inserted
      · rw [term_press]
        exact same.logged
  | backspace => exact press_backspace reconstructed met.1 met.2.1 met.2.2 rfl rfl rfl
  | ctrlH => exact press_backspace reconstructed met.1 met.2.1 met.2.2 rfl rfl rfl
  | left =>
      have kept : (system.shell.press .left).line = system.shell.line := by
        change (system.shell.before.dropLast ++ (system.shell.before.getLast?.toList ++ _)) = _
        rw [← List.append_assoc, Shell.line]
        congr 1
        rcases List.eq_nil_or_concat system.shell.before with none | ⟨front, last, isBefore⟩
        · rw [none]
          rfl
        · rw [isBefore, List.concat_eq_append, List.dropLast_concat, List.getLast?_concat]
          rfl
      rcases eq_or_ne system.term.pointer 0 with start | inside
      · have isTerm : stroked system.term .left = system.term := if_neg (not_not.mpr start)
        exact reconstructed.moved (by rw [isTerm]) (by rw [isTerm]; exact .refl _)
          (by rw [isTerm]; exact nonneg) (by rw [isTerm]; exact within) rfl kept rfl
      · have isTerm : stroked system.term .left =
            { system.term with pointer := system.term.pointer - 1 } := if_pos inside
        exact reconstructed.moved (by rw [isTerm]) (by rw [isTerm]; exact ⟨rfl, rfl, rfl⟩)
          (by rw [isTerm]; dsimp only; omega) (by rw [isTerm]; dsimp only; omega) rfl kept rfl
  | right =>
      have kept : (system.shell.press .right).line = system.shell.line := by
        change (system.shell.before ++ system.shell.after.head?.toList) ++ system.shell.after.tail = _
        rw [List.append_assoc, Shell.line]
        cases system.shell.after with
        | nil => rfl
        | cons ch rest => rfl
      rcases eq_or_ne system.term.pointer system.term.command.length with atEnd | inside
      · have isTerm : stroked system.term .right = system.term := if_neg (not_not.mpr atEnd)
        exact reconstructed.moved (by rw [isTerm]) (by rw [isTerm]; exact .refl _)
          (by rw [isTerm]; exact nonneg) (by rw [isTerm]; exact within) rfl kept rfl
      · have isTerm : stroked system.term .right =
            { system.term with pointer := system.term.pointer + 1 } := if_pos inside
        exact reconstructed.moved (by rw [isTerm]) (by rw [isTerm]; exact ⟨rfl, rfl, rfl⟩)
          (by rw [isTerm]; dsimp only; omega) (by rw [isTerm]; dsimp only; omega) rfl kept rfl
  | home => exact reconstructed.moved rfl ⟨rfl, rfl, rfl⟩ (Int.le_refl 0) (Int.natCast_nonneg _) rfl rfl rfl
  | end_ =>
      have kept : (system.shell.press .end_).line = system.shell.line := List.append_nil _
      exact reconstructed.moved rfl ⟨rfl, rfl, rfl⟩ (Int.natCast_nonneg _) (Int.le_refl _) rfl kept rfl
  | tab completion =>
      have isTerm := term_press system (.tab completion)
      refine reconstructed.stayed ?_ ?_ rfl ?_ ?_ ?_ ?_
      · rw [isTerm]
        rfl
      · rw [isTerm]
        rfl
      · rw [isTerm]
        exact nonneg
      · rw [isTerm]
        exact within
      · intro shown
        simp only [press, Shell.answers, Bool.or_eq_false_iff, decide_eq_false_iff_not,
          not_not] at shown
        refine ⟨shown.1, ?_⟩
        rw [shown.2]
        change (system.shell.before ++ []) ++ system.shell.after = _
        rw [List.append_nil]
        rfl
      · intro _
        left
        rw [isTerm]
        rfl
  | up recalled => exact press_recalled reconstructed (.inl rfl)
  | down recalled => exact press_recalled reconstructed (.inr rfl)
  | ctrlC => exact met.elim
  | ctrlU => exact met.elim
  | enter => exact reconstructed.submitted met rfl rfl rfl
  | newline => exact reconstructed.submitted met rfl rfl rfl

/-! ## Output -/

theorem redrawn_pieces {term : Term} {line out : Bytes} {pieces : List Piece}
    (at_ : Term.At line [] term) (replayed : Piece.replay line pieces = some out) :
    Term.At out [] (term.redrawn (pieces.flatMap Piece.bytes)) ∧
      Term.Same term (term.redrawn (pieces.flatMap Piece.bytes)) := by
  induction pieces generalizing term line with
  | nil =>
      cases replayed
      rw [List.flatMap_nil, Term.redrawn_nil]
      exact ⟨at_, .refl term⟩
  | cons piece pieces induction =>
      rw [List.flatMap_cons]
      cases piece with
      | back =>
          rw [Piece.replay] at replayed
          split at replayed
          · cases replayed
          · next some_ =>
            rcases Term.redrawn_back at_ some_ (pieces.flatMap Piece.bytes) with
              ⟨next, goesOn, atNext, same⟩
            rcases induction atNext replayed with ⟨atOut, sameOut⟩
            rw [Piece.bytes, List.singleton_append, goesOn]
            exact ⟨atOut, same.trans sameOut⟩
      | text byte plain =>
          rcases Term.redrawn_text at_ plain (pieces.flatMap Piece.bytes) with
            ⟨next, goesOn, atNext, same⟩
          rcases induction atNext replayed with ⟨atOut, sameOut⟩
          rw [Piece.bytes, List.singleton_append, goesOn]
          exact ⟨atOut, same.trans sameOut⟩
      | clear =>
          rw [Piece.bytes, List.cons_append, List.cons_append, List.singleton_append,
            Term.redrawn_clear at_]
          exact induction at_ replayed

theorem output_reconstructed (reconstructed : Reconstructed system) {data : Bytes}
    (met : system.OutputMet data) :
    Reconstructed
      { system with
        term := system.term.parsePacket .client data
        owed := system.owed && !(system.term.tabPress || system.term.upArrow) } := by
  rw [OutputMet] at met
  cases isTab : system.term.tabPress with
  | false =>
      cases isUp : system.term.upArrow with
      | false =>
          have isTerm : system.term.parsePacket .client data = system.term := by
            simp [Term.parsePacket, isTab, isUp]
          simpa [isTerm] using reconstructed
      | true =>
          rw [isTab, isUp] at met
          rcases met with ⟨atEnd, pieces, isData, replayed⟩
          have at_ : Term.At system.term.command [] system.term :=
            ⟨(List.append_nil _).symm, atEnd⟩
          rcases redrawn_pieces at_ replayed with ⟨atOut, same⟩
          have isTerm : system.term.parsePacket .client data =
              { system.term.redrawn (pieces.flatMap Piece.bytes) with upArrow := false } := by
            simp [Term.parsePacket, isTab, isUp, isData]
          rw [isTerm]
          refine ⟨⟨atOut.nonneg, atOut.within, ?_⟩, ?_, ?_⟩
          · exact same.logged.trans reconstructed.logged
          · intro _
            have command := atOut.command
            rw [List.append_nil] at command
            exact command
          · intro owed
            simp at owed
  | true =>
      cases isUp : system.term.upArrow with
      | false =>
          rw [isTab, isUp] at met
          have isTerm : system.term.parsePacket .client data = system.term.complete data := by
            simp [Term.parsePacket, isTab, isUp, Term.complete]
          have command : (system.term.complete data).command = Utf8.encode system.shell.line := met.symm
          have longer : system.term.command.length ≤ (system.term.complete data).command.length := by
            change _ ≤ (if _ then _ else _ : Bytes).length
            split
            · exact Nat.le_refl _
            · rw [List.length_append]
              exact Nat.le_add_right ..
          have within := reconstructed.within
          rw [isTerm]
          refine ⟨⟨reconstructed.nonneg, ?_, reconstructed.logged⟩, fun _ => command, ?_⟩
          · change system.term.pointer ≤ ((system.term.complete data).command.length : Int)
            omega
          · intro owed
            simp at owed
      | true =>
          rw [isTab, isUp] at met
          exact met.elim

theorem keys_reconstructed {strokes : List Stroke} (reconstructed : Reconstructed system)
    (met : EventRun.Along (fun system stroke => some (press system stroke)) KeyMet system strokes) :
    Reconstructed (strokes.foldl press system) := by
  induction strokes generalizing system with
  | nil => exact reconstructed
  | cons stroke strokes induction =>
      exact induction (press_reconstructed reconstructed met.1) (met.2 _ rfl)

theorem step_reconstructed {traffic : Traffic} {next : System}
    (reconstructed : Reconstructed system) (met : system.Met traffic)
    (taken : system.step traffic = some next) : Reconstructed next := by
  cases traffic with
  | keys strokes =>
      rw [step_keys] at taken
      cases taken
      exact keys_reconstructed reconstructed met
  | output data =>
      cases taken
      exact output_reconstructed reconstructed met

/-- In every run whose packets meet their conditions, the pointer stays in the line and the lines
at which Enter was pressed are what is logged. -/
theorem kept_of_met {traffic : List Traffic} (met : EventRun.Along step Met {} traffic) :
    EventRun.Always step Kept {} traffic := by
  have start : Reconstructed {} := ⟨⟨Int.le_refl 0, Int.le_refl 0, rfl⟩, fun _ => rfl, by simp⟩
  have always := EventRun.always_of_along Reconstructed step_reconstructed start met
  exact always.mono Reconstructed.toKept

section Examples

def letter (ch : Char) (visible : 0x20 ≤ ch.toNat ∧ ch.toNat ≠ 0x7f) : Stroke :=
  .printable ⟨ch, visible⟩

/-- `lt`, the cursor back, an `s`, the end of the line, a completion and the enter key. -/
def completed : List Traffic :=
  [.keys [letter 'l' (by decide), letter 't' (by decide), .left], .output [108, 116, 8],
    .keys [letter 's' (by decide)], .output [115, 116, 8], .keys [.end_, .tab ['m', 'p']],
    .output [109, 112], .keys [.enter]]

theorem outputMet_idle {system : System} {data : Bytes} (noTab : system.term.tabPress = false)
    (noArrow : system.term.upArrow = false) : Met system (.output data) := by
  rw [Met, OutputMet, noTab, noArrow]
  trivial

theorem outputMet_completion {system : System} {data : Bytes} (tab : system.term.tabPress = true)
    (noArrow : system.term.upArrow = false)
    (line : Utf8.encode system.shell.line =
      if data.head? = some 0x0d ∨ data = [0x07] then system.term.command
      else system.term.command ++ data) : Met system (.output data) := by
  rw [Met, OutputMet, tab, noArrow]
  exact line

theorem completed_kept : EventRun.Always step Kept {} completed := by
  have keys : ∀ {system : System} {strokes : List Stroke},
      EventRun.Along (fun system stroke => some (press system stroke)) KeyMet system strokes →
        Met system (.keys strokes) := id
  apply kept_of_met
  apply EventRun.along_cons rfl (keys (by decide +kernel))
  apply EventRun.along_cons rfl (outputMet_idle (by decide +kernel) (by decide +kernel))
  apply EventRun.along_cons rfl (keys (by decide +kernel))
  apply EventRun.along_cons rfl (outputMet_idle (by decide +kernel) (by decide +kernel))
  apply EventRun.along_cons rfl (keys (by decide +kernel))
  apply EventRun.along_cons rfl
    (outputMet_completion (by decide +kernel) (by decide +kernel) (by decide +kernel))
  exact EventRun.along_cons rfl (keys (by decide +kernel)) trivial

/-- The bell at the top of the history moves the pointer out of the line, what is typed behind a
completion comes in front of it, and a line that is interrupted is logged. -/
theorem bell_moves_pointer :
    ¬ EventRun.Always step Kept {} [.keys [.up []], .output [7]] ∧
      ¬ EventRun.Always step Kept {}
        [.keys [letter 'a' (by decide)], .output [97], .keys [.tab ['b']], .output [98],
          .keys [letter 'c' (by decide)], .output [99], .keys [.enter]] ∧
      ¬ EventRun.Always step Kept {} [.keys [letter 'a' (by decide), .ctrlC]] := by
  refine ⟨?_, ?_, ?_⟩
  · intro always
    have within := (always.final rfl).within
    revert within
    decide +kernel
  · intro always
    have logged := (always.final rfl).logged
    revert logged
    decide +kernel
  · intro always
    have logged := (always.final rfl).logged
    revert logged
    decide +kernel

end Examples

end System

end Readline

end SshProxy

end LlmHoneypot
