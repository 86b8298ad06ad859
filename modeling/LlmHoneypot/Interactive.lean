import LlmHoneypot.Foundation.Text

/-! # Full-screen programs

`interactive.py`: `top`, `vi` and `less` as state machines over the bytes the
terminal sends. Output is the text before it is encoded. -/

namespace LlmHoneypot

namespace Interactive

def HOME : Str := "\x1b[H".toList

def CLEAR : Str := "\x1b[2J\x1b[H".toList

def REVERSE : Str := "\x1b[7m".toList

def RESET : Str := "\x1b[0m".toList

def CLEAR_LINE : Str := "\x1b[K".toList

structure KeyResult where
  output : Str := []
  done : Bool := false
  deriving DecidableEq, Repr

def LEAVE : KeyResult := { output := RESET ++ CLEAR ++ HOME, done := true }

def byte (ch : Char) : UInt8 := UInt8.ofNat ch.toNat

/-! ## top -/

namespace Top

def paint (body : Str) : Str :=
  (Text.splitChar '\n' (body.rdropWhile (· = '\n'))).flatMap
    (· ++ "\x1b[K\r\n".toList)

def renderInitial (body : Str) : Str := CLEAR ++ paint body

def onRefresh (body : Str) : Str := HOME ++ paint body

def handleKey (body : Str) (data : List UInt8) : KeyResult :=
  if byte 'q' ∈ data ∨ byte 'Q' ∈ data ∨ 3 ∈ data then
    { output := RESET, done := true }
  else { output := onRefresh body }

end Top

/-! ## vi -/

inductive ViMode
  | normal
  | insert
  | command
  deriving DecidableEq, Repr

structure ViProgram where
  filename : Str
  rows : Nat
  newFile : Bool
  mode : ViMode := .normal
  cmdline : Str := []
  zPending : Bool := false
  lines : List Str
  cy : Nat := 0
  cx : Nat := 0
  dirty : Bool := false
  statusMsg : Str := []
  deriving DecidableEq, Repr

namespace ViProgram

def initial (filename content : Str) (rows : Nat) (newFile : Bool) : ViProgram :=
  { filename, rows, newFile, lines := Text.splitChar '\n' content }

def currentContent (vi : ViProgram) : Str := Text.join "\n".toList vi.lines

def lineAt (vi : ViProgram) (row : Nat) : Str := vi.lines.getD row []

def line (vi : ViProgram) : Str := vi.lineAt vi.cy

def defaultStatus (vi : ViProgram) : Str :=
  let quoted := '"' :: vi.filename ++ "\"".toList
  if vi.newFile then
    if vi.filename = [] then "[No Name]".toList else quoted ++ " [New]".toList
  else quoted ++ ' ' :: Text.decimal vi.lines.length ++ "L".toList

def statusBytes (vi : ViProgram) (text : Str) : Str :=
  "\x1b[".toList ++ Text.decimal vi.rows ++ ";1H".toList ++ CLEAR_LINE ++ text

def statusOnly (vi : ViProgram) : Str := vi.statusBytes vi.defaultStatus

def modeStatus (vi : ViProgram) : Str :=
  if vi.mode = .command then ':' :: vi.cmdline
  else if vi.statusMsg ≠ [] then vi.statusMsg
  else if vi.mode = .insert then "-- INSERT --".toList
  else vi.defaultStatus

def bodyRow (vi : ViProgram) (row : Nat) : Str :=
  let text :=
    if row < vi.lines.length then vi.lineAt row
    else if row = 0 ∧ vi.lines.all (· = []) then []
    else "~".toList
  CLEAR_LINE ++ text ++ "\r\n".toList

def screen (vi : ViProgram) : Str :=
  HOME ++ (List.range (vi.rows - 1)).flatMap vi.bodyRow ++
    vi.statusBytes vi.modeStatus ++ "\x1b[".toList ++ Text.decimal (vi.cy + 1) ++
    ';' :: Text.decimal (vi.cx + 1) ++ "H".toList

def renderInitial (vi : ViProgram) : Str := CLEAR ++ vi.screen

abbrev Effect := ViProgram × KeyResult × List Str

def quiet (vi : ViProgram) : Effect := (vi, {}, [])

def saved (vi : ViProgram) : List Str := if vi.filename = [] then [] else [vi.currentContent]

def save (vi : ViProgram) : ViProgram := { vi with dirty := false, newFile := false }

def insertLine (vi : ViProgram) (row : Nat) : ViProgram :=
  { vi with
    lines := vi.lines.insertIdx row [], cy := row, cx := 0, mode := .insert, dirty := true }

def keyNormal (vi : ViProgram) (key : UInt8) : Effect :=
  if key = byte ':' then
    let vi := { vi with mode := .command, cmdline := [], zPending := false }
    (vi, { output := vi.statusBytes ":".toList }, [])
  else if key = byte 'Z' then
    if vi.zPending then (vi.save, LEAVE, vi.saved)
    else quiet { vi with zPending := true }
  else
    let vi := { vi with zPending := false }
    if key = byte 'i' then quiet { vi with mode := .insert }
    else if key = byte 'a' then
      quiet { vi with cx := min (vi.cx + 1) vi.line.length, mode := .insert }
    else if key = byte 'A' then quiet { vi with cx := vi.line.length, mode := .insert }
    else if key = byte 'I' then quiet { vi with cx := 0, mode := .insert }
    else if key = byte 'o' then quiet (vi.insertLine (vi.cy + 1))
    else if key = byte 'O' then quiet (vi.insertLine vi.cy)
    else if key = byte 'h' ∨ key = 0x7f then quiet { vi with cx := vi.cx - 1 }
    else if key = byte 'l' then quiet { vi with cx := min vi.line.length (vi.cx + 1) }
    else if key = byte 'j' then
      let cy := min (vi.lines.length - 1) (vi.cy + 1)
      quiet { vi with cy, cx := min vi.cx (vi.lineAt cy).length }
    else if key = byte 'k' then
      let cy := vi.cy - 1
      quiet { vi with cy, cx := min vi.cx (vi.lineAt cy).length }
    else if key = byte '0' then quiet { vi with cx := 0 }
    else if key = byte '$' then quiet { vi with cx := vi.line.length - 1 }
    else if key = byte 'x' ∧ vi.line ≠ [] then
      let line := vi.line.eraseIdx vi.cx
      quiet
        { vi with
          lines := vi.lines.set vi.cy line, cx := min vi.cx (line.length - 1),
          dirty := true }
    else if key = 3 then (vi, { output := "\x07".toList }, [])
    else quiet vi

def printable? (key : UInt8) : Option Char :=
  let code := key.toNat
  if (32 ≤ code ∧ code < 127) ∨ code = 9 then some (Char.ofNat code) else none

def keyInsert (vi : ViProgram) (key : UInt8) : Effect :=
  if key = 0x1b then quiet { vi with mode := .normal, cx := vi.cx - 1 }
  else if key = byte '\r' ∨ key = byte '\n' then
    let line := vi.line
    quiet
      { vi with
        lines := (vi.lines.set vi.cy (line.take vi.cx)).insertIdx (vi.cy + 1)
          (line.drop vi.cx),
        cy := vi.cy + 1, cx := 0, dirty := true }
  else if key = 0x7f ∨ key = 8 then
    if 0 < vi.cx then
      quiet
        { vi with
          lines := vi.lines.set vi.cy (vi.line.take (vi.cx - 1) ++ vi.line.drop vi.cx),
          cx := vi.cx - 1, dirty := true }
    else if 0 < vi.cy then
      let previous := vi.lineAt (vi.cy - 1)
      quiet
        { vi with
          lines := (vi.lines.set (vi.cy - 1) (previous ++ vi.line)).eraseIdx vi.cy,
          cx := previous.length, cy := vi.cy - 1, dirty := true }
    else quiet { vi with dirty := true }
  else
    match printable? key with
    | some ch =>
        quiet
          { vi with
            lines := vi.lines.set vi.cy (vi.line.take vi.cx ++ ch :: vi.line.drop vi.cx),
            cx := vi.cx + 1, dirty := true }
    | none => quiet vi

def runEx (vi : ViProgram) (cmd : Str) : Effect :=
  let base := (Text.before? " ".toList cmd).getD cmd
  if base = "w".toList ∨ base = "write".toList then
    let name := if vi.filename = [] then "noname".toList else vi.filename
    quiet' { vi.save with
      statusMsg := '"' :: name ++ "\" ".toList ++ Text.decimal vi.lines.length ++
        "L written".toList } vi.saved
  else if base ∈ ["wq".toList, "x".toList, "wq!".toList, "x!".toList] ∨
      "wq".toList.isPrefixOf base then (vi.save, LEAVE, vi.saved)
  else if base = "q!".toList ∨ base = "quit!".toList then (vi, LEAVE, [])
  else if base = "q".toList ∨ base = "quit".toList then
    if vi.dirty then
      quiet { vi with
        statusMsg := "E37: No write since last change (add ! to override)".toList }
    else (vi, LEAVE, [])
  else quiet { vi with statusMsg := "E492: Not an editor command: ".toList ++ cmd }
where
  quiet' (vi : ViProgram) (saves : List Str) : Effect := (vi, {}, saves)

def keyCommand (vi : ViProgram) (key : UInt8) : Effect :=
  if key = byte '\r' ∨ key = byte '\n' then
    runEx { vi with cmdline := [], mode := .normal } (Text.strip vi.cmdline)
  else if key = 0x7f ∨ key = 8 then
    let vi := { vi with cmdline := vi.cmdline.dropLast }
    if vi.cmdline = [] then
      let vi := { vi with mode := .normal }
      (vi, { output := vi.statusOnly }, [])
    else (vi, { output := vi.statusBytes (':' :: vi.cmdline) }, [])
  else if key = 0x1b then
    let vi := { vi with cmdline := [], mode := .normal }
    (vi, { output := vi.statusOnly }, [])
  else
    let vi := { vi with cmdline := vi.cmdline ++ [Char.ofNat key.toNat] }
    (vi, { output := vi.statusBytes (':' :: vi.cmdline) }, [])

def key (vi : ViProgram) (key : UInt8) : Effect :=
  match vi.mode with
  | .command => vi.keyCommand key
  | .insert => vi.keyInsert key
  | .normal => vi.keyNormal key

/-- The loop of `handle_key`: the first byte that leaves ends it. -/
def keys (vi : ViProgram) : List UInt8 → Effect
  | [] => (vi, { output := vi.screen }, [])
  | next :: rest =>
      match vi.key next with
      | (vi, result, saves) =>
          if result.done then (vi, result, saves)
          else
            match vi.keys rest with
            | (vi, result, later) => (vi, result, saves ++ later)

def handleKey (vi : ViProgram) (data : List UInt8) : Effect :=
  keys { vi with statusMsg := [] } data

end ViProgram

/-! ## less -/

structure LessProgram where
  content : Str
  rows : Nat
  offset : Nat := 0
  deriving DecidableEq, Repr

namespace LessProgram

def lines (less : LessProgram) : List Str := Text.splitChar '\n' less.content

def pageRows (less : LessProgram) : Nat := less.rows - 1

def atEnd (less : LessProgram) : Bool := less.lines.length ≤ less.offset + less.pageRows

def page (less : LessProgram) : Str :=
  let window := (less.lines.drop less.offset).take less.pageRows
  HOME ++ window.flatMap (fun line => CLEAR_LINE ++ line ++ "\r\n".toList) ++
    (List.replicate (less.pageRows - window.length) (CLEAR_LINE ++ "\r\n".toList)).flatten ++
    REVERSE ++ (if less.atEnd then "(END)".toList else ":".toList) ++ RESET

def renderInitial (less : LessProgram) : Str := CLEAR ++ less.page

def leave (less : LessProgram) : LessProgram × KeyResult :=
  (less, { output := RESET ++ "\r\n".toList, done := true })

def moveTo (less : LessProgram) (offset : Nat) : LessProgram × KeyResult :=
  let less := { less with offset }
  (less, { output := less.page })

def handleKey (less : LessProgram) (data : List UInt8) : LessProgram × KeyResult :=
  if byte 'q' ∈ data ∨ byte 'Q' ∈ data then less.leave
  else if byte ' ' ∈ data ∨ byte 'f' ∈ data ∨ 6 ∈ data then
    if less.atEnd then less.leave else less.moveTo (less.offset + less.pageRows)
  else if byte 'b' ∈ data ∨ 2 ∈ data then less.moveTo (less.offset - less.pageRows)
  else if byte '\r' ∈ data ∨ byte '\n' ∈ data then
    less.moveTo (if less.atEnd then less.offset else less.offset + 1)
  else (less, {})

end LessProgram

/-! ## Factory -/

inductive Program
  | top
  | vi (state : ViProgram)
  | less (state : LessProgram)
  deriving DecidableEq, Repr

def Program.refreshes : Program → Bool
  | .top => true
  | .vi _ => false
  | .less _ => false

def Program.renderInitial (frame : Str) : Program → Str
  | .top => Top.renderInitial frame
  | .vi state => state.renderInitial
  | .less state => state.renderInitial

def Program.onRefresh (frame : Str) : Program → Str
  | .top => Top.onRefresh frame
  | .vi _ => []
  | .less _ => []

def Program.handleKey (frame : Str) (data : List UInt8) :
    Program → Program × KeyResult × List Str
  | .top => (.top, Top.handleKey frame data, [])
  | .vi state =>
      match state.handleKey data with
      | (state, result, saves) => (.vi state, result, saves)
  | .less state =>
      match state.handleKey data with
      | (state, result) => (.less state, result, [])

def isFlag (arg : Str) : Bool := "-".toList.isPrefixOf arg

def isBatch (args : List Str) : Bool :=
  'b' ∈ (args.filter fun arg => isFlag arg && !"--".toList.isPrefixOf arg).flatMap (·.drop 1) ||
    "--batch".toList ∈ args

/-- The program a command line starts, `none` for every other command.
`fileContent` is the text of a file that can be shown. -/
def makeProgram (command : Str) (fileContent : Str → Option Str) (rows : Nat) :
    Option Program :=
  match Text.words command with
  | [] => none
  | prog :: args =>
      let targets := args.filter (!isFlag ·)
      if prog = "top".toList ∨ prog = "htop".toList then
        if isBatch args then none else some .top
      else if prog ∈ ["vi", "vim", "view", "nvim"].map String.toList then
        let path := targets.headD []
        match if path = [] then none else fileContent path with
        | some content => some (.vi (.initial path content rows false))
        | none => some (.vi (.initial path [] rows true))
      else if prog ∈ ["less", "more", "most", "pg"].map String.toList then
        match targets with
        | [] => none
        | path :: _ => (fileContent path).map fun content => .less { content, rows }
      else none

def PROGRAM_NAMES : List Str :=
  ["top", "htop", "vi", "vim", "view", "nvim", "less", "more", "most", "pg"].map
    String.toList

theorem makeProgram_head {command : Str} {fileContent : Str → Option Str} {rows : Nat}
    {program : Program} (made : makeProgram command fileContent rows = some program) :
    ∃ name ∈ PROGRAM_NAMES, (Text.words command).head? = some name := by
  simp only [makeProgram] at made
  split at made
  · cases made
  · rename_i name args words
    refine ⟨name, ?_, by simp [words]⟩
    split at made
    · rename_i isTop
      rcases isTop with rfl | rfl <;> decide
    · split at made
      · rename_i isVi
        exact List.mem_append_right (["top", "htop"].map String.toList)
          (List.mem_append_left (["less", "more", "most", "pg"].map String.toList) isVi)
      · split at made
        · rename_i isLess
          exact List.mem_append_right
            (["top", "htop", "vi", "vim", "view", "nvim"].map String.toList) isLess
        · cases made

example : ((ViProgram.initial "f".toList [] 24 true).handleKey
      (("ihi\x1b:wq\r".toList).map byte)).2.2 = ["hi".toList] := by decide

end Interactive

end LlmHoneypot
