import LlmHoneypot.Core.Ttylog
import LlmHoneypot.Foundation.Utf8Ascii

/-! # The replay tools

`scripts/asciinema.py` and `scripts/playlog.py`: which records of a terminal log each of them takes
for the terminal's output, and what it makes of their data. -/

namespace LlmHoneypot

namespace Replay

open Ttylog Utf8

structure Clock (Time : Type) where
  zero : Time
  /-- `float(sec) + float(usec) / 1000000`. -/
  instant : (sec usec : Nat) → Time
  sub : Time → Time → Time
  add : Time → Time → Time
  isZero : Time → Bool
  exceeds : Time → Time → Bool
  isNegative : Time → Bool

/-- Both tools follow the first terminal of the log; the records are counted here so that a shown
one is told apart from others with the same data. -/
structure Following (State : Type) where
  currtty : Nat := 0
  number : Nat := 0
  state : State

def round {State : Type} (write : State → Nat → Entry → Option State) (following : Following State)
    (entry : Entry) : Option (Round (Following State)) :=
  let currtty := if following.currtty = 0 then entry.tty else following.currtty
  if entry.tty = currtty ∧ entry.op = OP_WRITE then
    (write following.state following.number entry).map fun state =>
      .next { currtty, number := following.number + 1, state }
  else if entry.tty = currtty ∧ entry.op = OP_CLOSE then
    some (.stop { following with currtty })
  else
    some (.next { following with currtty, number := following.number + 1 })

variable {Time : Type} (clock : Clock Time)

/-! ## asciinema -/

namespace Asciinema

def COLOR_INTERACT : Str := Char.ofNat 27 :: "[36m".toList
def COLOR_INPUT : Str := Char.ofNat 27 :: "[33m".toList
def COLOR_RESET : Str := Char.ofNat 27 :: "[0m".toList

/-- An entry of `thelog["stdout"]`, with the number of its record. -/
structure Event (Time : Type) where
  number : Nat
  sleeptime : Time
  data : Str

structure Playing (Time : Type) where
  prefdir : Int := 0
  prevtime : Time
  sleeptime : Time
  color : Option Str := none
  duration : Time
  stdout : List (Event Time) := []
  /-- What is written to `sys.stdout` on the way. -/
  terminal : List Str := []

/-- `data.replace(b"\n", b"\r\n")`. -/
def withReturns (data : Bytes) : Bytes :=
  data.flatMap fun byte => if byte = 10 then [13, 10] else [byte]

def write (colorify : Bool) (playing : Playing Time) (number : Nat) (entry : Entry) :
    Option (Playing Time) :=
  let prefdir := if playing.prefdir = 0 then entry.direction else playing.prefdir
  let color := if entry.direction = TYPE_INTERACT then some COLOR_INTERACT
    else if entry.direction = TYPE_INPUT then some COLOR_INPUT else playing.color
  if entry.direction = prefdir then
    let curtime := clock.instant entry.sec entry.usec
    let sleeptime := if clock.isZero playing.prevtime then playing.sleeptime
      else clock.sub curtime playing.prevtime
    let isColored := colorify && color.isSome
    (decode (withReturns entry.data)).map fun data =>
      { prefdir, prevtime := curtime, sleeptime
        color := if isColored then none else color
        duration := clock.add playing.duration sleeptime
        stdout := playing.stdout ++ [{ number, sleeptime, data }]
        terminal := if isColored then playing.terminal ++ [color.getD [], COLOR_RESET]
          else playing.terminal }
  else
    some { playing with prefdir, color }

def playlog (colorify : Bool) (file : Bytes) : Option (Playing Time) :=
  (readLog (round (write clock colorify))
    { state := { prevtime := clock.zero, sleeptime := clock.zero, duration := clock.zero } } file).map
    Following.state

end Asciinema

/-! ## playlog -/

namespace Playlog

/-- The settings, without `tail`: with it the tool never ends. -/
structure Settings (Time : Type) where
  maxdelay : Time
  inputOnly : Bool := false
  bothDirs : Bool := false
  colorify : Bool := false

inductive Chunk where
  | color (code : Bytes)
  | data (number : Nat) (data : Bytes)
  deriving DecidableEq

structure Playing (Time : Type) where
  prefdir : Int := 0
  prevtime : Time
  color : Option Bytes := none
  stdout : List Chunk := []

def oversleeps (settings : Settings Time) (prevtime curtime : Time) : Bool :=
  let sleeptime := clock.sub curtime prevtime
  let capped := if clock.exceeds sleeptime settings.maxdelay then settings.maxdelay else sleeptime
  !clock.isZero prevtime && (clock.exceeds settings.maxdelay clock.zero && clock.isNegative capped)

def write (settings : Settings Time) (playing : Playing Time) (number : Nat) (entry : Entry) :
    Option (Playing Time) :=
  -- an exec command does not set the direction
  let prefdir :=
    if playing.prefdir = 0 ∧ entry.direction ≠ TYPE_INTERACT then
      if settings.inputOnly then
        if entry.direction = TYPE_INPUT then TYPE_OUTPUT else TYPE_INPUT
      else
        entry.direction
    else
      playing.prefdir
  let color := if entry.direction = TYPE_INTERACT then some (27 :: encode "[36m".toList)
    else if entry.direction = TYPE_INPUT then some (27 :: encode "[33m".toList) else playing.color
  if entry.direction = prefdir ∨ entry.direction = TYPE_INTERACT ∨ settings.bothDirs = true then
    let curtime := clock.instant entry.sec entry.usec
    if oversleeps clock settings playing.prevtime curtime then
      none
    else
      let isColored := settings.colorify && color.isSome
      some
        { prefdir, prevtime := curtime
          color := if isColored then none else color
          stdout := playing.stdout ++
            if isColored then
              [.color (color.getD []), .data number entry.data, .color (27 :: encode "[0m".toList)]
            else
              [.data number entry.data] }
  else
    some { playing with prefdir, color }

def playlog (settings : Settings Time) (file : Bytes) : Option (Playing Time) :=
  (readLog (round (write clock settings)) { state := { prevtime := clock.zero } } file).map
    Following.state

def shown (stdout : List Chunk) : List (Nat × Bytes) :=
  stdout.filterMap fun
    | .color _ => none
    | .data number data => some (number, data)

end Playlog

/-! ## The records both tools come to -/

def followed : (currtty number : Nat) → List Entry → List (Nat × Entry)
  | _, _, [] => []
  | currtty, number, entry :: rest =>
      let currtty := if currtty = 0 then entry.tty else currtty
      if entry.tty = currtty ∧ entry.op = OP_WRITE then
        (number, entry) :: followed currtty (number + 1) rest
      else if entry.tty = currtty ∧ entry.op = OP_CLOSE then
        []
      else
        followed currtty (number + 1) rest

def writeAll {State : Type} (write : State → Nat → Entry → Option State) (state : State)
    (records : List (Nat × Entry)) : Option State :=
  records.foldlM (fun state record => write state record.1 record.2) state

theorem foldEntries_round {State : Type} (write : State → Nat → Entry → Option State)
    (entries : List Entry) (following : Following State) :
    (foldEntries (round write) following entries).map Following.state =
      writeAll write following.state (followed following.currtty following.number entries) := by
  induction entries generalizing following with
  | nil => rfl
  | cons entry rest induction =>
      rw [foldEntries, round, followed]
      generalize (if following.currtty = 0 then entry.tty else following.currtty) = currtty
      by_cases written : entry.tty = currtty ∧ entry.op = OP_WRITE
      · rw [if_pos written, if_pos written, writeAll, List.foldlM_cons]
        cases write following.state following.number entry with
        | none => rfl
        | some state => exact induction _
      · rw [if_neg written, if_neg written]
        by_cases closes : entry.tty = currtty ∧ entry.op = OP_CLOSE
        · rw [if_pos closes, if_pos closes]
          rfl
        · rw [if_neg closes, if_neg closes]
          exact induction _

/-! ## What asciinema shows -/

section Asciinema

variable (colorify : Bool)

def directed (prefdir : Int) (records : List (Nat × Entry)) : List (Nat × Entry) :=
  records.filter fun record => record.2.direction = prefdir

def told (record : Nat × Entry) : Option (Nat × Str) :=
  (decode (Asciinema.withReturns record.2.data)).map (record.1, ·)

def Asciinema.Event.brief (event : Asciinema.Event Time) : Nat × Str := (event.number, event.data)

theorem asciinema_write (playing : Asciinema.Playing Time) (record : Nat × Entry) :
    (Asciinema.write clock colorify playing record.1 record.2).map
      (fun playing => (playing.prefdir, playing.stdout.map Asciinema.Event.brief)) =
      let prefdir := if playing.prefdir = 0 then record.2.direction else playing.prefdir
      if record.2.direction = prefdir then
        (told record).map fun told =>
          (prefdir, playing.stdout.map Asciinema.Event.brief ++ [told])
      else
        some (prefdir, playing.stdout.map Asciinema.Event.brief) := by
  rw [Asciinema.write, told]
  dsimp only
  by_cases towards : record.2.direction =
      (if playing.prefdir = 0 then record.2.direction else playing.prefdir)
  · rw [if_pos towards, if_pos towards]
    cases decode (Asciinema.withReturns record.2.data) with
    | none => rfl
    | some data => simp [Asciinema.Event.brief]
  · rw [if_neg towards, if_neg towards]
    rfl

def firstDirection (prefdir : Int) (records : List (Nat × Entry)) : Int :=
  if prefdir = 0 then (records.head?.map fun record => record.2.direction).getD 0 else prefdir

theorem firstDirection_cons {prefdir : Int} {record : Nat × Entry} {rest : List (Nat × Entry)} :
    firstDirection prefdir (record :: rest) =
      if prefdir = 0 then record.2.direction else prefdir := rfl

theorem firstDirection_of_ne {prefdir : Int} (known : prefdir ≠ 0) (records : List (Nat × Entry)) :
    firstDirection prefdir records = prefdir := if_neg known

theorem asciinema_writeAll (records : List (Nat × Entry)) (playing : Asciinema.Playing Time)
    (typed : ∀ record ∈ records, record.2.direction ≠ 0) :
    (writeAll (Asciinema.write clock colorify) playing records).map
      (fun playing => playing.stdout.map Asciinema.Event.brief) =
      ((directed (firstDirection playing.prefdir records) records).mapM told).map
        (playing.stdout.map Asciinema.Event.brief ++ ·) := by
  induction records generalizing playing with
  | nil => exact congrArg some (List.append_nil _).symm
  | cons record rest induction =>
      have types := List.forall_mem_cons.mp typed
      have known : firstDirection playing.prefdir (record :: rest) ≠ 0 := by
        rw [firstDirection_cons]
        split
        · exact types.1
        · next known => exact known
      have step := asciinema_write clock colorify playing record
      dsimp only at step
      rw [← @firstDirection_cons playing.prefdir record rest] at step
      generalize firstDirection playing.prefdir (record :: rest) = prefdir at step known ⊢
      rw [writeAll, List.foldlM_cons]
      have later (after : Asciinema.Playing Time) (isKnown : after.prefdir = prefdir) :
          (writeAll (Asciinema.write clock colorify) after rest).map
            (fun playing => playing.stdout.map Asciinema.Event.brief) =
            ((directed prefdir rest).mapM told).map
              (after.stdout.map Asciinema.Event.brief ++ ·) := by
        have run := induction after types.2
        rwa [isKnown, firstDirection_of_ne known] at run
      by_cases towards : record.2.direction = prefdir
      · have shown : directed prefdir (record :: rest) = record :: directed prefdir rest :=
          List.filter_cons_of_pos (decide_eq_true towards)
        rw [if_pos towards] at step
        rw [shown, List.mapM_cons]
        cases written : Asciinema.write clock colorify playing record.1 record.2 with
        | none =>
            rw [written] at step
            rw [Option.map_eq_none_iff.mp step.symm]
            rfl
        | some after =>
            rw [written] at step
            cases isTold : told record with
            | none =>
                rw [isTold] at step
                cases step
            | some first =>
                rw [isTold] at step
                injection Option.some.inj step with isKnown isStdout
                refine (later after isKnown).trans ?_
                rw [isStdout]
                cases (directed prefdir rest).mapM told with
                | none => rfl
                | some more => exact congrArg some (List.append_assoc _ [first] more)
      · have hidden : directed prefdir (record :: rest) = directed prefdir rest :=
          List.filter_cons_of_neg fun shown => towards (of_decide_eq_true shown)
        rw [if_neg towards] at step
        rw [hidden]
        cases written : Asciinema.write clock colorify playing record.1 record.2 with
        | none =>
            rw [written] at step
            cases step
        | some after =>
            rw [written] at step
            injection Option.some.inj step with isKnown isStdout
            refine (later after isKnown).trans ?_
            rw [isStdout]

end Asciinema

/-! ## What playlog shows -/

section Playlog

variable (settings : Playlog.Settings Time)

def outputDirection (prefdir : Int) (records : List (Nat × Entry)) : Int :=
  if prefdir = 0 then
    ((records.find? fun record => record.2.direction ≠ TYPE_INTERACT).map fun record =>
      record.2.direction).getD 0
  else
    prefdir

def isShown (prefdir : Int) (record : Nat × Entry) : Bool :=
  record.2.direction = prefdir || record.2.direction = TYPE_INTERACT

def steady : Time → List (Nat × Entry) → Bool
  | _, [] => true
  | prevtime, record :: rest =>
      let curtime := clock.instant record.2.sec record.2.usec
      !Playlog.oversleeps clock settings prevtime curtime && steady curtime rest

def raw (record : Nat × Entry) : Nat × Bytes := (record.1, record.2.data)

theorem data_colored (record : Nat × Entry) (isColored : Bool) (code : Bytes) :
    Playlog.shown (if isColored then
      [.color code, .data record.1 record.2.data, .color (27 :: encode "[0m".toList)]
    else
      [.data record.1 record.2.data]) = [raw record] := by
  cases isColored with
  | false => rfl
  | true => rfl

theorem playlog_write (onlyOutput : settings.inputOnly = false ∧ settings.bothDirs = false)
    (playing : Playlog.Playing Time) (record : Nat × Entry) :
    (Playlog.write clock settings playing record.1 record.2).map
      (fun playing => (playing.prefdir, playing.prevtime, Playlog.shown playing.stdout)) =
      let prefdir := if playing.prefdir = 0 ∧ record.2.direction ≠ TYPE_INTERACT then
        record.2.direction else playing.prefdir
      if isShown prefdir record then
        if Playlog.oversleeps clock settings playing.prevtime
            (clock.instant record.2.sec record.2.usec) then
          none
        else
          some (prefdir, clock.instant record.2.sec record.2.usec,
            Playlog.shown playing.stdout ++ [raw record])
      else
        some (prefdir, playing.prevtime, Playlog.shown playing.stdout) := by
  rw [Playlog.write, onlyOutput.1, onlyOutput.2]
  simp only [Bool.false_eq_true, if_false, or_false, isShown, Bool.or_eq_true, decide_eq_true_eq]
  generalize (if playing.prefdir = 0 ∧ record.2.direction ≠ TYPE_INTERACT then
    record.2.direction else playing.prefdir) = prefdir
  by_cases shown : record.2.direction = prefdir ∨ record.2.direction = TYPE_INTERACT
  · rw [if_pos shown, if_pos shown]
    split
    · rfl
    · refine congrArg (fun shown => some (prefdir, _, shown)) ?_
      rw [Playlog.shown, List.filterMap_append]
      exact congrArg (Playlog.shown playing.stdout ++ ·) (data_colored record _ _)
  · rw [if_neg shown, if_neg shown]
    rfl

theorem outputDirection_cons (prefdir : Int) (record : Nat × Entry) (rest : List (Nat × Entry))
    (typed : record.2.direction ≠ 0) :
    outputDirection (if prefdir = 0 ∧ record.2.direction ≠ TYPE_INTERACT then
      record.2.direction else prefdir) rest = outputDirection prefdir (record :: rest) := by
  by_cases unknown : prefdir = 0
  · by_cases interact : record.2.direction = TYPE_INTERACT
    · rw [if_neg fun both => both.2 interact, outputDirection, outputDirection, if_pos unknown,
        if_pos unknown, List.find?_cons_of_neg (by simpa using interact)]
    · rw [if_pos ⟨unknown, interact⟩, outputDirection, outputDirection, if_neg typed, if_pos unknown,
        List.find?_cons_of_pos (by simpa using interact)]
      rfl
  · rw [if_neg fun both => unknown both.1, outputDirection, outputDirection, if_neg unknown,
      if_neg unknown]

theorem isShown_outputDirection (prefdir : Int) (record : Nat × Entry) (rest : List (Nat × Entry)) :
    isShown (if prefdir = 0 ∧ record.2.direction ≠ TYPE_INTERACT then
      record.2.direction else prefdir) record =
      isShown (outputDirection prefdir (record :: rest)) record := by
  by_cases interact : record.2.direction = TYPE_INTERACT
  · rw [isShown, isShown, decide_eq_true interact, Bool.or_true, Bool.or_true]
  · rw [outputDirection, List.find?_cons_of_pos (by simpa using interact)]
    by_cases unknown : prefdir = 0
    · rw [if_pos ⟨unknown, interact⟩, if_pos unknown]
      rfl
    · rw [if_neg fun both => unknown both.1, if_neg unknown]

theorem playlog_writeAll (onlyOutput : settings.inputOnly = false ∧ settings.bothDirs = false)
    (records : List (Nat × Entry)) (playing : Playlog.Playing Time)
    (typed : ∀ record ∈ records, record.2.direction ≠ 0) :
    (writeAll (Playlog.write clock settings) playing records).map
      (fun playing => Playlog.shown playing.stdout) =
      let shown := records.filter (isShown (outputDirection playing.prefdir records))
      if steady clock settings playing.prevtime shown then
        some (Playlog.shown playing.stdout ++ shown.map raw)
      else
        none := by
  induction records generalizing playing with
  | nil => exact congrArg some (List.append_nil _).symm
  | cons record rest induction =>
      have types := List.forall_mem_cons.mp typed
      have step := playlog_write clock settings onlyOutput playing record
      have direction := outputDirection_cons playing.prefdir record rest types.1
      have visible := isShown_outputDirection playing.prefdir record rest
      dsimp only at step
      rw [visible] at step
      generalize (if playing.prefdir = 0 ∧ record.2.direction ≠ TYPE_INTERACT then
        record.2.direction else playing.prefdir) = prefdir at step direction visible
      rw [writeAll, List.foldlM_cons]
      dsimp only
      rw [← direction] at step ⊢
      have later (after : Playlog.Playing Time) (isDirected : after.prefdir = prefdir) := by
        have run := induction after types.2
        rwa [isDirected] at run
      generalize outputDirection prefdir rest = output at step later ⊢
      cases shown : isShown output record with
      | false =>
          rw [shown] at step
          rw [List.filter_cons_of_neg (Bool.eq_false_iff.mp shown)]
          cases written : Playlog.write clock settings playing record.1 record.2 with
          | none =>
              rw [written] at step
              cases step
          | some after =>
              rw [written] at step
              injection Option.some.inj step with isDirected others
              injection others with isTime isStdout
              refine (later after isDirected).trans ?_
              rw [isStdout, isTime]
      | true =>
          rw [shown] at step
          rw [List.filter_cons_of_pos shown, steady]
          cases oversleeps : Playlog.oversleeps clock settings playing.prevtime
              (clock.instant record.2.sec record.2.usec) with
          | true =>
              rw [oversleeps] at step
              rw [Option.map_eq_none_iff.mp step]
              rfl
          | false =>
              rw [oversleeps] at step
              cases written : Playlog.write clock settings playing record.1 record.2 with
              | none =>
                  rw [written] at step
                  cases step
              | some after =>
                  rw [written] at step
                  injection Option.some.inj step with isDirected others
                  injection others with isTime isStdout
                  refine (later after isDirected).trans ?_
                  dsimp only
                  rw [isStdout, isTime, List.map_cons, List.append_assoc]
                  rfl

end Playlog

/-! ## Agreement -/

def Uniform (records : List (Nat × Entry)) : Prop :=
  (∀ record ∈ records, record.2.direction = TYPE_INTERACT) ∨
    ∀ record ∈ records, record.2.direction ≠ TYPE_INTERACT

/-- Of the records of the followed terminal, none or all are exec commands; those with the
direction of the first are texts, and no time steps back between them. -/
structure Replayable (settings : Playlog.Settings Time) (records : List (Nat × Entry)) : Prop where
  uniform : Uniform records
  text : ∀ record ∈ directed (firstDirection 0 records) records, decode record.2.data ≠ none
  steady : steady clock settings clock.zero (directed (firstDirection 0 records) records) = true

/-- Both tools get through the log, and show the same records with all their bytes; asciinema puts
carriage returns before the newlines. -/
def Agree (colorify : Bool) (settings : Playlog.Settings Time) (file : Bytes) : Prop :=
  ∃ thelog playing, Asciinema.playlog clock colorify file = some thelog ∧
    Playlog.playlog clock settings file = some playing ∧
    thelog.stdout.map (fun event => (event.number, encode event.data)) =
      (Playlog.shown playing.stdout).map fun shown => (shown.1, Asciinema.withReturns shown.2)

theorem withReturns_append (data more : Bytes) :
    Asciinema.withReturns (data ++ more) = Asciinema.withReturns data ++ Asciinema.withReturns more :=
  List.flatMap_append

theorem withReturns_of_notMem {data : Bytes} (absent : (10 : UInt8) ∉ data) :
    Asciinema.withReturns data = data := by
  induction data with
  | nil => rfl
  | cons byte rest induction =>
      rw [List.mem_cons, not_or] at absent
      rw [Asciinema.withReturns, List.flatMap_cons, ← Asciinema.withReturns, if_neg (Ne.symm absent.1),
        induction absent.2]
      rfl

theorem withReturns_encode (text : Str) :
    Asciinema.withReturns (encode text) =
      encode (text.flatMap fun ch => if ch = '\n' then ['\r', '\n'] else [ch]) := by
  induction text with
  | nil => rfl
  | cons ch rest induction =>
      rw [encode, List.flatMap_cons, ← encode, withReturns_append, induction, List.flatMap_cons,
        encode_append]
      refine congrArg (· ++ _) ?_
      by_cases newline : ch = '\n'
      · rw [newline]
        decide
      · have absent : (10 : UInt8) ∉ String.utf8EncodeChar ch := by
          intro member
          rcases mem_encodeChar member with code | ⟨-, high⟩
          · exact newline (Char.toNat_inj.mp code)
          · exact absurd high (by decide)
        rw [if_neg newline, withReturns_of_notMem absent]
        exact (List.flatMap_singleton _ _).symm

theorem text_of_withReturns (length : Nat) : ∀ {data : Bytes} {text : Str},
    data.length ≤ length → encode text = Asciinema.withReturns data → ∃ other, encode other = data := by
  induction length with
  | zero =>
      intro data text short _
      exact ⟨[], (List.length_eq_zero_iff.mp (Nat.le_zero.mp short)).symm⟩
  | succ length induction =>
      intro data text short isText
      by_cases member : (10 : UInt8) ∈ data
      · rcases List.eq_append_cons_of_mem member with ⟨before, behind, rfl, absent⟩
        have split : Asciinema.withReturns (before ++ 10 :: behind) =
            before ++ 13 :: (10 :: Asciinema.withReturns behind) := by
          rw [withReturns_append, withReturns_of_notMem absent]
          rfl
        rw [split] at isText
        rcases encode_eq_append_cons (by decide) isText with ⟨first, _, rest, -, isFirst, -, isRest⟩
        rcases @encode_eq_append_cons _ [] _ _ (by decide) isRest with
          ⟨_, _, later, -, -, -, isLater⟩
        have shorter : behind.length ≤ length := by
          rw [List.length_append, List.length_cons] at short
          omega
        rcases induction shorter isLater with ⟨other, isOther⟩
        refine ⟨first ++ '\n' :: other, ?_⟩
        rw [encode_append, isFirst, encode, List.flatMap_cons, ← encode, isOther]
        rfl
      · rw [withReturns_of_notMem member] at isText
        exact ⟨text, isText⟩

theorem decode_withReturns (data : Bytes) :
    decode (Asciinema.withReturns data) = none ↔ decode data = none := by
  refine not_iff_not.mp ?_
  rw [← ne_eq, ← ne_eq, Option.ne_none_iff_exists', Option.ne_none_iff_exists']
  constructor
  · intro isText
    rcases isText with ⟨text, decoded⟩
    rcases text_of_withReturns data.length (Nat.le_refl _) (encode_decode decoded) with ⟨other, isData⟩
    exact ⟨other, isData ▸ decode_encode other⟩
  · intro isText
    rcases isText with ⟨text, decoded⟩
    rw [← encode_decode decoded, withReturns_encode]
    exact ⟨_, decode_encode _⟩

theorem mapM_told (records : List (Nat × Entry)) :
    (∃ texts, records.mapM told = some texts) ↔
      ∀ record ∈ records, decode record.2.data ≠ none := by
  induction records with
  | nil => simp
  | cons record rest induction =>
      rw [List.forall_mem_cons, ← induction, List.mapM_cons, told]
      cases decoded : decode (Asciinema.withReturns record.2.data) with
      | none => simp [(decode_withReturns record.2.data).mp decoded]
      | some text =>
          have isText : decode record.2.data ≠ none := fun none_ => by
            rw [(decode_withReturns record.2.data).mpr none_] at decoded
            cases decoded
          cases rest.mapM told with
          | none => simp
          | some texts => simp [isText]

theorem encode_told {records : List (Nat × Entry)} {texts : List (Nat × Str)}
    (isTold : records.mapM told = some texts) :
    texts.map (fun text => (text.1, encode text.2)) =
      records.map fun record => (record.1, Asciinema.withReturns record.2.data) := by
  induction records generalizing texts with
  | nil =>
      cases isTold
      rfl
  | cons record rest induction =>
      rw [List.mapM_cons, told] at isTold
      cases decoded : decode (Asciinema.withReturns record.2.data) with
      | none =>
          rw [decoded] at isTold
          cases isTold
      | some text =>
          rw [decoded] at isTold
          cases more : rest.mapM told with
          | none =>
              rw [more] at isTold
              cases isTold
          | some others =>
              rw [more] at isTold
              cases isTold
              rw [List.map_cons, List.map_cons, induction more, encode_decode decoded]

theorem write_direction {record : Record} (isWrite : record.op.code = OP_WRITE) :
    record.op.direction ≠ 0 := by
  cases op : record.op with
  | opened | closed =>
      rw [op] at isWrite
      exact absurd isWrite (by decide)
  | write direction =>
      cases direction with
      | input | output | interact => decide

theorem followed_typed (log : List Record) (size currtty number : Nat) :
    ∀ record ∈ followed currtty number (entries size log), record.2.direction ≠ 0 := by
  induction log generalizing size currtty number with
  | nil => exact fun _ absent => absurd absent List.not_mem_nil
  | cons record rest induction =>
      rw [entries]
      split
      · exact fun _ absent => absurd absent List.not_mem_nil
      · rw [followed]
        dsimp only
        generalize (if currtty = 0 then record.entry.tty else currtty) = currtty
        split
        · next written =>
            refine List.forall_mem_cons.mpr ⟨write_direction written.2, ?_⟩
            exact induction _ _ _
        · split
          · exact fun _ absent => absurd absent List.not_mem_nil
          · exact induction _ _ _

theorem outputDirection_first {records : List (Nat × Entry)}
    (differs : firstDirection 0 records ≠ TYPE_INTERACT) :
    outputDirection 0 records = firstDirection 0 records := by
  cases records with
  | nil => rfl
  | cons record rest =>
      have found : record.2.direction ≠ TYPE_INTERACT := differs
      rw [outputDirection, if_pos rfl, List.find?_cons_of_pos (by simpa using found)]
      rfl

theorem outputDirection_mem {records : List (Nat × Entry)} {record : Nat × Entry}
    (member : record ∈ records) (differs : record.2.direction ≠ TYPE_INTERACT) :
    ∃ other ∈ records, other.2.direction = outputDirection 0 records ∧
      other.2.direction ≠ TYPE_INTERACT := by
  rw [outputDirection, if_pos rfl]
  cases found : records.find? fun record => record.2.direction ≠ TYPE_INTERACT with
  | none => exact absurd differs (by simpa using List.find?_eq_none.mp found record member)
  | some other =>
      have satisfies := List.find?_some found
      exact ⟨other, List.mem_of_find?_eq_some found, rfl, of_decide_eq_true satisfies⟩

theorem isShown_of_directed (records : List (Nat × Entry)) (record : Nat × Entry)
    (towards : record.2.direction = firstDirection 0 records) :
    isShown (outputDirection 0 records) record = true := by
  rw [isShown, Bool.or_eq_true, decide_eq_true_eq, decide_eq_true_eq]
  by_cases interact : firstDirection 0 records = TYPE_INTERACT
  · exact .inr (towards.trans interact)
  · exact .inl (towards.trans (outputDirection_first interact).symm)

theorem chosen_iff (records : List (Nat × Entry)) :
    directed (firstDirection 0 records) records =
      records.filter (isShown (outputDirection 0 records)) ↔ Uniform records := by
  constructor
  · intro same
    have towards (record : Nat × Entry) (member : record ∈ records)
        (shown : isShown (outputDirection 0 records) record = true) :
        record.2.direction = firstDirection 0 records := by
      have chosen := List.mem_filter.mpr ⟨member, shown⟩
      rw [← same, directed, List.mem_filter] at chosen
      exact of_decide_eq_true chosen.2
    have shown (record : Nat × Entry) (direction : record.2.direction = outputDirection 0 records ∨
        record.2.direction = TYPE_INTERACT) : isShown (outputDirection 0 records) record = true := by
      rwa [isShown, Bool.or_eq_true, decide_eq_true_eq, decide_eq_true_eq]
    by_cases interact : firstDirection 0 records = TYPE_INTERACT
    · refine .inl fun record member => ?_
      by_contra differs
      rcases outputDirection_mem member differs with ⟨other, isOther, output, notInteract⟩
      exact notInteract ((towards other isOther (shown other (.inl output))).trans interact)
    · refine .inr fun record member isInteract => interact ?_
      rw [← towards record member (shown record (.inr isInteract)), isInteract]
  · intro uniform
    apply List.filter_congr
    intro record member
    rw [isShown]
    rcases uniform with all | none_
    · have first : firstDirection 0 records = TYPE_INTERACT := by
        cases records with
        | nil => cases member
        | cons head rest => exact all head List.mem_cons_self
      rw [first, decide_eq_true (all record member), Bool.or_true]
    · have first : firstDirection 0 records ≠ TYPE_INTERACT := by
        cases records with
        | nil => cases member
        | cons head rest => exact none_ head List.mem_cons_self
      rw [outputDirection_first first, decide_eq_false (none_ record member), Bool.or_false]

theorem chosen_of_map {Key : Type} (key : Nat × Entry → Key) (records : List (Nat × Entry))
    (same : (directed (firstDirection 0 records) records).map key =
      (records.filter (isShown (outputDirection 0 records))).map key) :
    directed (firstDirection 0 records) records =
      records.filter (isShown (outputDirection 0 records)) := by
  apply List.Sublist.eq_of_length
  · have within : directed (firstDirection 0 records) records =
        directed (firstDirection 0 records)
          (records.filter (isShown (outputDirection 0 records))) := by
      rw [directed, directed, List.filter_filter]
      apply List.filter_congr
      intro record _
      cases towards : decide (record.2.direction = firstDirection 0 records) with
      | false => rfl
      | true => exact (isShown_of_directed records record (of_decide_eq_true towards)).symm
    rw [within]
    exact List.filter_sublist
  · rw [← List.length_map key, same, List.length_map]

/-- On a log that may break off anywhere, the tools agree where exec commands do not mix with other
records of the terminal, and what is shown is text whose times do not step back. -/
theorem agree_iff (log : List Record) (size : Nat) (colorify : Bool) (maxdelay : Time)
    (playlogColorify : Bool) :
    Agree clock colorify { maxdelay, colorify := playlogColorify }
        ((log.flatMap Record.encoded).take size) ↔
      Replayable clock { maxdelay, colorify := playlogColorify }
        (followed 0 0 (entries size log)) := by
  have typed := followed_typed log size 0 0
  have first := asciinema_writeAll clock colorify (followed 0 0 (entries size log))
    { prevtime := clock.zero, sleeptime := clock.zero, duration := clock.zero } typed
  have second := playlog_writeAll clock { maxdelay, colorify := playlogColorify } ⟨rfl, rfl⟩
    (followed 0 0 (entries size log)) { prevtime := clock.zero } typed
  rw [Agree, Asciinema.playlog, Playlog.playlog, readLog_encoded, readLog_encoded,
    foldEntries_round, foldEntries_round]
  dsimp only at first second ⊢
  generalize followed 0 0 (entries size log) = records at first second ⊢
  have asKeys (events : List (Asciinema.Event Time)) :
      events.map (fun event => (event.number, encode event.data)) =
        (events.map Asciinema.Event.brief).map fun text => (text.1, encode text.2) := by
    rw [List.map_map]
    rfl
  have chosen := chosen_iff records
  constructor
  · intro agree
    rcases agree with ⟨thelog, playing, isLog, isPlaying, same⟩
    rw [isLog] at first
    rw [isPlaying] at second
    cases isTold : (directed (firstDirection 0 records) records).mapM told with
    | none =>
        rw [isTold] at first
        cases first
    | some texts =>
        rw [isTold] at first
        have stdout : thelog.stdout.map Asciinema.Event.brief = texts := Option.some.inj first
        by_cases isSteady : steady clock { maxdelay, colorify := playlogColorify } clock.zero
            (records.filter (isShown (outputDirection 0 records))) = true
        · rw [if_pos isSteady] at second
          have shown : Playlog.shown playing.stdout =
              (records.filter (isShown (outputDirection 0 records))).map raw := Option.some.inj second
          rw [asKeys, stdout, encode_told isTold, shown, List.map_map] at same
          have equal := chosen_of_map _ records same
          refine ⟨chosen.mp equal, (mapM_told _).mp ⟨texts, isTold⟩, ?_⟩
          rw [equal]
          exact isSteady
        · rw [if_neg isSteady] at second
          cases second
  · intro replayable
    have equal := chosen.mpr replayable.uniform
    rcases (mapM_told _).mpr replayable.text with ⟨texts, isTold⟩
    have isSteady := replayable.steady
    rw [isTold] at first
    rw [equal] at isSteady
    rw [if_pos isSteady] at second
    rcases Option.map_eq_some_iff.mp first with ⟨thelog, isLog, stdout⟩
    rcases Option.map_eq_some_iff.mp second with ⟨playing, isPlaying, shown⟩
    have isStdout : thelog.stdout.map Asciinema.Event.brief = texts := stdout
    have isShown : Playlog.shown playing.stdout =
        (records.filter (isShown (outputDirection 0 records))).map raw := shown
    refine ⟨thelog, playing, isLog, isPlaying, ?_⟩
    rw [asKeys, isStdout, encode_told isTold, isShown, equal, List.map_map]
    rfl

def microseconds : Clock Int where
  zero := 0
  instant := fun sec usec => 1000000 * sec + usec
  sub := (· - ·)
  add := (· + ·)
  isZero := (· = 0)
  exceeds := (· > ·)
  isNegative := (· < 0)

theorem zero_fits : 0 < 256 ^ 4 := by decide

theorem one_fits : 1 < 256 ^ 4 := by decide

theorem pair_fits (first second : UInt8) : 2 * [first, second].length < 256 ^ 4 :=
  show 2 * 2 < 256 ^ 4 by decide

def execLog : List Record :=
  [⟨.write .interact, 0, 1, 0, [0x69, 0x64], zero_fits, one_fits, zero_fits, pair_fits 0x69 0x64⟩,
    ⟨.write .output, 0, 1, 1, [0x30, 0x0a], zero_fits, one_fits, one_fits, pair_fits 0x30 0x0a⟩]

/-- asciinema takes the command for the output and leaves out the output. -/
theorem output_left_out : ¬ ∀ (log : List Record) (size : Nat),
    Agree microseconds false { maxdelay := 3000000 } ((log.flatMap Record.encoded).take size) := by
  intro agree
  rcases agree execLog 52 with ⟨thelog, playing, isLog, isPlaying, same⟩
  have one : (Asciinema.playlog microseconds false
      ((execLog.flatMap Record.encoded).take 52)).map (·.stdout.length) = some 1 := by
    decide +kernel
  have two : (Playlog.playlog microseconds { maxdelay := 3000000 }
      ((execLog.flatMap Record.encoded).take 52)).map
        (fun playing => (Playlog.shown playing.stdout).length) = some 2 := by
    decide +kernel
  rw [isLog] at one
  rw [isPlaying] at two
  have events : thelog.stdout.length = 1 := Option.some.inj one
  have shown : (Playlog.shown playing.stdout).length = 2 := Option.some.inj two
  have lengths := congrArg List.length same
  rw [List.length_map, List.length_map, events, shown] at lengths
  cases lengths

end Replay

end LlmHoneypot
