import LlmHoneypot.Foundation.Utf8Codec
import LlmHoneypot.Interactive.Editing
import LlmHoneypot.Protocol.EchoFiles

/-! # Keys of a terminal

The bytes of a terminal on their way to the program in the foreground: Twisted's framing, then
`keystrokeReceived` of `protocol.py`. -/

namespace LlmHoneypot

namespace Protocol

open Interactive Responder

/-! ## Framing -/

inductive KeyID
  | byte (byte : UInt8)
  | named (name : Str)
  deriving DecidableEq, Repr

structure Keystroke where
  keyID : KeyID
  alt : Bool := false
  deriving DecidableEq, Repr

/-- What belongs to Twisted: the keys of a control sequence, by the bytes behind `ESC [` or
`ESC O`, and the line editor, without a result where it raises. -/
structure Terminal where
  controlKeys : List UInt8 → List Keystroke
  lowControlKeys : UInt8 → List Keystroke
  recvLine : Keystroke → Session → Option Session

inductive Framing
  | data
  | escaped
  | bracketEscaped (escBuf : List UInt8)
  | lowBracketEscaped
  deriving DecidableEq, Repr

namespace Terminal

def isAlpha (byte : UInt8) : Bool := (65 ≤ byte && byte ≤ 90) || (97 ≤ byte && byte ≤ 122)

/-- One byte of `ServerProtocol.dataReceived`: an escape is held, and the byte behind it comes
with the modifier. -/
def frame (terminal : Terminal) (framing : Framing) (ch : UInt8) : Framing × List Keystroke :=
  match framing with
  | .data => if ch = 0x1b then (.escaped, []) else (.data, [{ keyID := .byte ch }])
  | .escaped =>
      if ch = byte '[' then (.bracketEscaped [], [])
      else if ch = byte 'O' then (.lowBracketEscaped, [])
      else (.data, [{ keyID := .byte ch, alt := true }])
  | .bracketEscaped escBuf =>
      if ch = byte 'O' then (.lowBracketEscaped, [])
      else if isAlpha ch ∨ ch = byte '~' then (.data, terminal.controlKeys (escBuf ++ [ch]))
      else (.bracketEscaped (escBuf ++ [ch]), [])
  | .lowBracketEscaped => (.data, terminal.lowControlKeys ch)

theorem frame_plain (terminal : Terminal) {ch : UInt8} (plain : ch ≠ 0x1b) :
    terminal.frame .data ch = (.data, [{ keyID := .byte ch }]) :=
  if_neg plain

end Terminal

/-! ## Keystrokes -/

/-- `keystrokeReceived`, without a result where it raises. A program that is handed no bytes
raises, and is left; the modifier is not looked at. -/
def keystroke (terminal : Terminal) (env : Env) (session : Session) (stroke : Keystroke) :
    Option Session :=
  match session.program with
  | none => terminal.recvLine stroke session
  | some active =>
      match stroke.keyID with
      | .byte ch => some (keystrokeReceived env active [ch] session)
      | .named _ => some (exitProgram session)

/-- `dataReceived`: the framing and the session after the bytes. -/
def dataReceived (terminal : Terminal) (env : Env) (state : Framing × Session) (data : Bytes) :
    Option (Framing × Session) :=
  data.foldlM
    (fun (framing, session) ch =>
      let (framing, strokes) := terminal.frame framing ch
      (strokes.foldlM (keystroke terminal env) session).map fun session => (framing, session))
    state

theorem dataReceived_cons (terminal : Terminal) (env : Env) (framing : Framing) (session : Session)
    (ch : UInt8) (data : Bytes) :
    dataReceived terminal env (framing, session) (ch :: data) =
      ((terminal.frame framing ch).2.foldlM (keystroke terminal env) session).bind fun session =>
        dataReceived terminal env ((terminal.frame framing ch).1, session) data := by
  rw [dataReceived, List.foldlM_cons]
  simp only
  cases (terminal.frame framing ch).2.foldlM (keystroke terminal env) session <;> rfl

theorem dataReceived_plain {terminal : Terminal} {env : Env} {session : Session} {ch : UInt8}
    (plain : ch ≠ 0x1b) (data : Bytes) :
    dataReceived terminal env (.data, session) (ch :: data) =
      (keystroke terminal env session { keyID := .byte ch }).bind fun session =>
        dataReceived terminal env (.data, session) data := by
  rw [dataReceived_cons, terminal.frame_plain plain, List.foldlM_cons]
  cases keystroke terminal env session { keyID := .byte ch } <;> rfl

theorem dataReceived_escape {terminal : Terminal} {env : Env} {session : Session} {ch : UInt8}
    (noBracket : ch ≠ byte '[') (noLow : ch ≠ byte 'O') (data : Bytes) :
    dataReceived terminal env (.data, session) (0x1b :: ch :: data) =
      (keystroke terminal env session { keyID := .byte ch, alt := true }).bind fun session =>
        dataReceived terminal env (.data, session) data := by
  have held : terminal.frame .data 0x1b = (.escaped, []) := rfl
  have modified : terminal.frame .escaped ch = (.data, [{ keyID := .byte ch, alt := true }]) := by
    rw [Terminal.frame.eq_def]
    simp only [if_neg noBracket, if_neg noLow]
  rw [dataReceived_cons, held]
  change dataReceived terminal env (.escaped, session) (ch :: data) = _
  rw [dataReceived_cons, modified, List.foldlM_cons]
  cases keystroke terminal env session { keyID := .byte ch, alt := true } <;> rfl

def typedKeys (text : Str) : Bytes :=
  [byte 'i'] ++ Utf8.encode text ++ [0x1b] ++ ":wq\r".toList.map byte

/-- The program is left, and `cat` prints the text, ended by a newline as `cat` ends every
content. -/
def RoundTrip (terminal : Terminal) (env : Env) (catOne : CatOne) (session : Session)
    (filename text : Str) : Prop :=
  ∃ framing final, dataReceived terminal env (.data, session) (typedKeys text) =
      some (framing, final) ∧
    final.program = none ∧
      (CatPrints catOne final filename text ∨ CatPrints catOne final filename (text ++ "\n".toList))

/-! ## Keys that an editor takes for text -/

def Inserting (session : Session) : Prop :=
  ∃ vi startCwd, session.program = some ⟨.vi vi, startCwd⟩ ∧ vi.mode = .insert

theorem key_inserting {vi : ViProgram} (mode : vi.mode = .insert) {key : UInt8}
    (plain : key ≠ 0x1b) :
    (vi.key key).1.mode = .insert ∧ (vi.key key).2.1.done = false ∧ (vi.key key).2.2 = [] := by
  rw [ViProgram.key, mode]
  simp only
  rw [ViProgram.keyInsert, if_neg plain]
  split
  · exact ⟨mode, rfl, rfl⟩
  split
  · split
    · exact ⟨mode, rfl, rfl⟩
    · split
      · exact ⟨mode, rfl, rfl⟩
      · exact ⟨mode, rfl, rfl⟩
  split
  · exact ⟨mode, rfl, rfl⟩
  · exact ⟨mode, rfl, rfl⟩

theorem program_write (text : Str) (session : Session) :
    (session.write text).program = session.program := by
  rw [Session.write]
  split <;> rfl

theorem program_keystroke {terminal : Terminal} {env : Env} {session : Session} {vi : ViProgram}
    {startCwd : Str} (program : session.program = some ⟨.vi vi, startCwd⟩) {ch : UInt8} (alt : Bool)
    (stays : ((ViProgram.key { vi with statusMsg := [] } ch).2.1).done = false)
    (saves : (ViProgram.key { vi with statusMsg := [] } ch).2.2 = []) :
    ∃ next, keystroke terminal env session { keyID := .byte ch, alt } = some next ∧
      next.program =
        some ⟨.vi (ViProgram.key { vi with statusMsg := [] } ch).1, startCwd⟩ := by
  have handled : vi.handleKey [ch] =
      ((ViProgram.key { vi with statusMsg := [] } ch).1,
        { output := (ViProgram.key { vi with statusMsg := [] } ch).1.screen }, []) := by
    rw [ViProgram.handleKey, ViProgram.keys_cons stays, saves]
    rfl
  apply Exists.intro _
  apply And.intro
  · rw [keystroke, program]
  · rw [keystrokeReceived]
    simp only [Program.handleKey, handled, List.foldl_nil, Bool.false_eq_true, if_false]
    split
    · rfl
    · exact program_write _ _

theorem keystroke_inserting {terminal : Terminal} {env : Env} {session : Session}
    (inserting : Inserting session) {ch : UInt8} (alt : Bool) (plain : ch ≠ 0x1b) :
    ∃ next, keystroke terminal env session { keyID := .byte ch, alt } = some next ∧
      Inserting next := by
  rcases inserting with ⟨vi, startCwd, program, mode⟩
  rcases @key_inserting { vi with statusMsg := [] } mode ch plain with ⟨insert, stays, saves⟩
  rcases @program_keystroke terminal env session vi startCwd program ch alt stays saves with
    ⟨next, handled, after⟩
  exact ⟨next, handled, _, _, after, insert⟩

theorem dataReceived_inserting {terminal : Terminal} {env : Env} {session : Session}
    (inserting : Inserting session) {data : Bytes} (plain : ∀ ch ∈ data, ch ≠ 0x1b) :
    ∃ next, dataReceived terminal env (.data, session) data = some (.data, next) ∧
      Inserting next := by
  induction data generalizing session with
  | nil => exact ⟨session, rfl, inserting⟩
  | cons ch data induction =>
      rw [List.forall_mem_cons] at plain
      rcases keystroke_inserting inserting false plain.1 with ⟨middle, handled, insertingMiddle⟩
      rcases induction insertingMiddle plain.2 with ⟨next, rest, insertingNext⟩
      apply Exists.intro next
      apply And.intro _ insertingNext
      rw [dataReceived_plain plain.1, handled]
      exact rest

theorem dataReceived_append {terminal : Terminal} {env : Env} {state middle : Framing × Session}
    {data : Bytes} (first : dataReceived terminal env state data = some middle) (later : Bytes) :
    dataReceived terminal env state (data ++ later) = dataReceived terminal env middle later := by
  rw [dataReceived, List.foldlM_append]
  change (dataReceived terminal env state data).bind _ = _
  rw [first]
  rfl

theorem dataReceived_typedKeys {terminal : Terminal} {env : Env} {session : Session}
    {filename startCwd : Str} {rows : Nat} (text : Str)
    (opened : session.program = some ⟨.vi (.initial filename [] rows true), startCwd⟩)
    (escapeFree : '\x1b' ∉ text) :
    ∃ final, dataReceived terminal env (.data, session) (typedKeys text) = some (.data, final) ∧
      Inserting final := by
  have textPlain : ∀ ch ∈ Utf8.encode text, ch ≠ 0x1b := by
    intro ch member isEscape
    rcases List.mem_flatMap.mp member with ⟨letter, inText, isByte⟩
    rw [isEscape] at isByte
    rcases Utf8.mem_encodeChar isByte with same | ⟨_, large⟩
    · have isLetter : letter = '\x1b' := Char.toNat_inj.mp same
      exact escapeFree (isLetter ▸ inText)
    · exact absurd large (by decide)
  -- `i` begins the insertion.
  rcases @program_keystroke terminal env session _ startCwd opened (byte 'i') false rfl rfl with
    ⟨started, startHandled, startProgram⟩
  have inserting : Inserting started := ⟨_, _, startProgram, rfl⟩
  rcases @dataReceived_inserting terminal env started inserting _ textPlain with
    ⟨typed, typedHandled, insertingTyped⟩
  -- The escape and the colon are one keystroke.
  rcases @keystroke_inserting terminal env typed insertingTyped (byte ':') true (by decide) with
    ⟨colon, colonHandled, insertingColon⟩
  have endPlain : ∀ ch ∈ "wq\r".toList.map byte, ch ≠ 0x1b := by
    have checked : ("wq\r".toList.map byte).all (· != 0x1b) = true := by decide
    intro ch member
    exact bne_iff_ne.mp (List.all_eq_true.mp checked ch member)
  rcases @dataReceived_inserting terminal env colon insertingColon _ endPlain with
    ⟨final, finalHandled, insertingFinal⟩
  apply Exists.intro final
  apply And.intro _ insertingFinal
  have keys : typedKeys text =
      byte 'i' :: (Utf8.encode text ++ 0x1b :: byte ':' :: "wq\r".toList.map byte) := by
    rw [typedKeys, List.append_assoc, List.append_assoc]
    rfl
  rw [keys, dataReceived_plain (by decide), startHandled, Option.bind_some,
    dataReceived_append typedHandled, dataReceived_escape (by decide) (by decide), colonHandled,
    Option.bind_some, finalHandled]

/-- No text comes back, and the program is not even left. No keystroke raises while a program is
in the foreground. -/
theorem never_round_trips (terminal : Terminal) (env : Env) (catOne : CatOne) (session : Session)
    (filename startCwd : Str) (rows : Nat) (text : Str)
    (opened : session.program = some ⟨.vi (.initial filename [] rows true), startCwd⟩)
    (escapeFree : '\x1b' ∉ text) :
    ¬ RoundTrip terminal env catOne session filename text ∧
      ∀ (other : Session) (stroke : Keystroke), other.program.isSome →
        (keystroke terminal env other stroke).isSome := by
  constructor
  · intro ⟨framing, final, received, left, _⟩
    rcases @dataReceived_typedKeys terminal env session filename startCwd rows text opened
      escapeFree with ⟨reached, reachedEq, vi, cwd, program, _⟩
    rw [reachedEq] at received
    cases received
    rw [program] at left
    cases left
  · intro other stroke isProgram
    rcases Option.isSome_iff_exists.mp isProgram with ⟨active, program⟩
    rw [keystroke, program]
    cases stroke.keyID <;> rfl

def quietTerminal : Terminal where
  controlKeys := fun _ => []
  lowControlKeys := fun _ => []
  recvLine := fun _ session => some session

def editing : Session :=
  { Session.root with
    program := some ⟨.vi (.initial "/tmp/x".toList [] 24 true), "/root".toList⟩ }

theorem never_round_trips_hi :
    ¬ RoundTrip quietTerminal Env.pending (fun _ _ _ => none) editing "/tmp/x".toList "hi".toList ∧
      ∀ (other : Session) (stroke : Keystroke), other.program.isSome →
        (keystroke quietTerminal Env.pending other stroke).isSome :=
  never_round_trips quietTerminal Env.pending (fun _ _ _ => none) editing "/tmp/x".toList
    "/root".toList 24 "hi".toList rfl (by decide)

/-- `hi`, `ESC` and `:wq` leave the editor inserting, with nothing saved. -/
theorem escape_lost :
    (dataReceived quietTerminal Env.pending (.data, editing) (typedKeys "hi".toList)).map
        (fun state => state.2.program.map ActiveProgram.program) =
      some (some (.vi
        { filename := "/tmp/x".toList, rows := 24, newFile := true, mode := .insert
          lines := ["hi:wq".toList, []], cy := 1, dirty := true })) ∧
      ¬ RoundTrip quietTerminal Env.pending (fun _ _ _ => none) editing "/tmp/x".toList
        "hi".toList := by
  constructor
  · decide +kernel
  · intro ⟨framing, final, received, left, _⟩
    rcases @dataReceived_typedKeys quietTerminal Env.pending editing "/tmp/x".toList "/root".toList
      24 "hi".toList rfl (by decide) with ⟨reached, reachedEq, vi, cwd, program, _⟩
    rw [reachedEq] at received
    cases received
    rw [program] at left
    cases left

end Protocol

end LlmHoneypot
