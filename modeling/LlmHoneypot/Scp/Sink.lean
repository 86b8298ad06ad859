import LlmHoneypot.Foundation.Decimal

/-! # The sink of an scp upload

`ScpSink`: the bytes of the sender come in chunks, control lines and counted data in turn;
the replies go back. -/

namespace LlmHoneypot

namespace Scp

structure CapturedFile where
  name : Str
  mode : Str
  size : Nat
  data : Bytes := []
  deriving DecidableEq, Repr

inductive Phase
  | control
  | data
  | done
  deriving DecidableEq, Repr

structure ScpSink where
  basePath : Str := ['.']
  phase : Phase := .control
  buf : Bytes := []
  remaining : Nat := 0
  cur : Option CapturedFile := none
  dirStack : List Str := []
  files : List CapturedFile := []
  maxBytes : Nat := 10 * 1024 * 1024
  total : Nat := 0
  error : Str := []
  deriving DecidableEq, Repr

def ACK : Bytes := [0]

def PROTOCOL_ERROR : Bytes := 1 :: Utf8.encode "scp: protocol error\n".toList

/-! ## Control lines -/

/-- `\s` in a pattern of bytes. -/
def isSpace (byte : UInt8) : Bool := byte == 32 || (9 ≤ byte && byte ≤ 13)

def isOctal (byte : UInt8) : Bool := 48 ≤ byte && byte ≤ 55

/-- The name in `\s+(.+)$` at the head of the rest of a line: blanks are skipped, but the
last one is the name where nothing follows them. -/
def name? (rest : Bytes) : Option Bytes :=
  let blanks := rest.takeWhile isSpace
  let name := rest.dropWhile isSpace
  if blanks = [] then none
  else if name ≠ [] then some name
  else if 2 ≤ blanks.length then blanks.getLast?.map ([·])
  else none

/-- The groups of `^L([0-7]{4})\s+(\d+)\s+(.+)$` for the letter `L`, in a line without a
line end. -/
def matchEntry (letter : UInt8) (line : Bytes) : Option (Bytes × Bytes × Bytes) :=
  let mode := (line.drop 1).take 4
  let rest := line.drop 5
  let afterBlanks := rest.dropWhile isSpace
  let digits := afterBlanks.takeWhile Decimal.isDigit
  if line.head? = some letter ∧ mode.length = 4 ∧ mode.all isOctal ∧
      rest.takeWhile isSpace ≠ [] ∧ digits ≠ [] then
    (name? (afterBlanks.dropWhile Decimal.isDigit)).map fun name => (mode, digits, name)
  else none

namespace ScpSink

/-- `_handle_control`; what it replies is an acknowledgement, of timestamps and of unknown
lines as well. `int` may raise. -/
def handleControl (line : Bytes) (sink : ScpSink) : Except Str ScpSink :=
  if line = [] then .ok sink
  else
    match matchEntry 67 line with
    | some (mode, digits, name) =>
        (Decimal.int (Decimal.ascii digits)).map fun size =>
          let file := { name := Utf8.decodeReplace name, mode := Decimal.ascii mode, size }
          if size = 0 then
            { sink with remaining := 0, phase := .control, cur := none, files := sink.files ++ [file] }
          else { sink with remaining := size, phase := .data, cur := some file }
    | none =>
        match matchEntry 68 line with
        | some (_, _, name) =>
            .ok { sink with dirStack := sink.dirStack ++ [Utf8.decodeReplace name] }
        | none =>
            if line.head? = some 69 then .ok { sink with dirStack := sink.dirStack.dropLast }
            else .ok sink

def takeData (data : Bytes) (sink : ScpSink) : ScpSink :=
  let take := min sink.remaining data.length
  let keep := min take (sink.maxBytes - sink.total)
  let kept :=
    match sink.cur with
    | some file =>
        { sink with
          cur := some { file with data := file.data ++ data.take keep }
          total := sink.total + keep }
    | none => sink
  { kept with remaining := sink.remaining - take }

def finish (sink : ScpSink) : ScpSink :=
  { sink with files := sink.files ++ sink.cur.toList, cur := none, phase := .control }

@[simp] theorem takeData_phase (data : Bytes) (sink : ScpSink) :
    (sink.takeData data).phase = sink.phase := by
  unfold takeData
  split
  · rfl
  · rfl

@[simp] theorem takeData_maxBytes (data : Bytes) (sink : ScpSink) :
    (sink.takeData data).maxBytes = sink.maxBytes := by
  unfold takeData
  split
  · rfl
  · rfl

@[simp] theorem takeData_remaining (data : Bytes) (sink : ScpSink) :
    (sink.takeData data).remaining = sink.remaining - min sink.remaining data.length := rfl

def feedLoop (sink : ScpSink) : Bytes → ScpSink × Bytes × Option Str
  | [] => (sink, [], none)
  | byte :: rest =>
      if sink.phase = .done then (sink, [], none)
      else if sink.phase = .data then
        let taken := sink.takeData (byte :: rest)
        let left := (byte :: rest).drop (min sink.remaining (rest.length + 1))
        if taken.remaining = 0 then
          let (last, out, raised) := feedLoop taken.finish left
          (last, ACK ++ out, raised)
        else feedLoop taken left
      else if byte = 0 then feedLoop sink rest
      else if byte ≠ 10 then feedLoop { sink with buf := sink.buf ++ [byte] } rest
      else
        match { sink with buf := [] }.handleControl sink.buf with
        | .error raised => ({ sink with buf := [] }, [], some raised)
        | .ok next =>
            let (last, out, raised) := feedLoop next rest
            (last, ACK ++ out, raised)
termination_by data => 2 * data.length + (if sink.phase = .data then 1 else 0)
decreasing_by
  · rename_i reading _
    have notReading : taken.finish.phase ≠ .data := by simp [finish]
    rw [if_neg notReading, if_pos reading, List.length_drop, List.length_cons]
    omega
  · rename_i reading spent
    have none_ : left.length = 0 := by
      rw [takeData_remaining, List.length_cons] at spent
      rw [List.length_drop, List.length_cons]
      omega
    rw [none_, if_pos reading, List.length_cons]
    split
    · omega
    · omega
  · rw [List.length_cons]
    omega
  · rw [List.length_cons]
    omega
  · rename_i reading _ _
    rw [if_neg reading, List.length_cons]
    split
    · omega
    · omega

def feed (sink : ScpSink) (data : Bytes) : ScpSink × Bytes :=
  match sink.feedLoop data with
  | (last, out, none) => (last, out)
  | (last, out, some raised) =>
      ({ last with error := raised, phase := .done }, out ++ PROTOCOL_ERROR)

/-! ## Cutting the stream -/

@[simp] theorem feedLoop_nil (sink : ScpSink) : sink.feedLoop [] = (sink, [], none) := by
  rw [feedLoop]

theorem feedLoop_done {sink : ScpSink} (isDone : sink.phase = .done) (data : Bytes) :
    sink.feedLoop data = (sink, [], none) := by
  cases data with
  | nil => rw [feedLoop]
  | cons byte rest => rw [feedLoop, if_pos isDone]

theorem feedLoop_data {sink : ScpSink} {data : Bytes} (reading : sink.phase = .data)
    (some_ : data ≠ []) :
    sink.feedLoop data =
      if sink.remaining ≤ data.length then
        let (last, out, raised) :=
          (sink.takeData data).finish.feedLoop (data.drop sink.remaining)
        (last, ACK ++ out, raised)
      else (sink.takeData data, [], none) := by
  cases data with
  | nil => contradiction
  | cons byte rest =>
      have notDone : sink.phase ≠ .done := by simp [reading]
      rw [feedLoop, if_neg notDone, if_pos reading, List.length_cons]
      dsimp only
      rw [takeData_remaining, List.length_cons]
      by_cases full : sink.remaining ≤ rest.length + 1
      · rw [if_pos (by omega), if_pos full, Nat.min_eq_left full]
      · have none_ : (byte :: rest).drop (min sink.remaining (rest.length + 1)) = [] := by
          apply List.drop_eq_nil_of_le
          rw [List.length_cons]
          omega
        rw [if_neg (by omega), if_neg full, none_, feedLoop]

theorem takeData_append {sink : ScpSink} {data : Bytes} (more : Bytes)
    (room : data.length < sink.remaining) :
    sink.takeData (data ++ more) = (sink.takeData data).takeData more := by
  have first : min sink.remaining data.length = data.length := by omega
  cases isCur : sink.cur with
  | none =>
      simp only [takeData, isCur, List.length_append, first, ScpSink.mk.injEq]
      simp
      omega
  | some file =>
      have kept : (data ++ more).take
            (min (min sink.remaining (data.length + more.length)) (sink.maxBytes - sink.total)) =
          data.take (min data.length (sink.maxBytes - sink.total)) ++
            more.take (min (min (sink.remaining - data.length) more.length)
              (sink.maxBytes - (sink.total + min data.length (sink.maxBytes - sink.total)))) := by
        rw [List.take_append]
        congr 1
        · rw [List.take_eq_take_iff]
          omega
        · congr 1
          omega
      simp only [takeData, isCur, List.length_append, first, kept, ScpSink.mk.injEq]
      simp
      omega

theorem takeData_append_of_le {sink : ScpSink} {data : Bytes} (more : Bytes)
    (full : sink.remaining ≤ data.length) :
    sink.takeData (data ++ more) = sink.takeData data := by
  have whole : min sink.remaining (data ++ more).length = min sink.remaining data.length := by
    rw [List.length_append]
    omega
  have kept : (data ++ more).take
        (min (min sink.remaining data.length) (sink.maxBytes - sink.total)) =
      data.take (min (min sink.remaining data.length) (sink.maxBytes - sink.total)) :=
    List.take_append_of_le_length (by omega)
  unfold takeData
  dsimp only
  rw [whole, kept]

theorem feedLoop_append (sink : ScpSink) (data more : Bytes) :
    sink.feedLoop (data ++ more) =
      match sink.feedLoop data with
      | (middle, out, none) =>
          let (last, later, raised) := middle.feedLoop more
          (last, out ++ later, raised)
      | (middle, out, some raised) => (middle, out, some raised) := by
  fun_induction feedLoop sink data with
  | case1 => simp
  | case2 sink byte rest isDone => simp [feedLoop_done isDone]
  | case3 sink byte rest _ reading taken left full last out raised later induction =>
      have enough : sink.remaining ≤ (byte :: rest).length := by
        rw [takeData_remaining, List.length_cons] at full
        rw [List.length_cons]
        omega
      have isLeft : left = (byte :: rest).drop sink.remaining := by
        rw [List.length_cons] at enough
        simp only [left, Nat.min_eq_left enough]
      rw [feedLoop_data reading (by simp), if_pos (by rw [List.length_append]; omega),
        takeData_append_of_le more enough, List.drop_append_of_le_length enough, ← isLeft, induction,
        later]
      cases raised with
      | none => simp
      | some raised => rfl
  | case4 sink byte rest _ reading taken left more_ _ =>
      have room : (byte :: rest).length < sink.remaining := by
        rw [takeData_remaining, List.length_cons] at more_
        rw [List.length_cons]
        omega
      have none_ : left = [] := by
        apply List.drop_eq_nil_of_le
        rw [List.length_cons] at room ⊢
        omega
      have isTaken : taken.phase = .data := by simp [taken, reading]
      rw [none_, feedLoop_nil]
      dsimp only
      cases more with
      | nil =>
          rw [List.append_nil, feedLoop_data reading (by simp), if_neg (by omega), feedLoop_nil]
          rfl
      | cons next more =>
          have behind : ((byte :: rest) ++ (next :: more)).drop sink.remaining =
              (next :: more).drop taken.remaining := by
            rw [takeData_remaining, List.drop_append, List.drop_eq_nil_of_le (by omega),
              List.nil_append, Nat.min_eq_right (by omega)]
          have fits : sink.remaining ≤ ((byte :: rest) ++ (next :: more)).length ↔
              taken.remaining ≤ (next :: more).length := by
            rw [takeData_remaining, List.length_append]
            omega
          rw [feedLoop_data reading (by simp), feedLoop_data isTaken (by simp), behind,
            takeData_append _ room]
          by_cases full : taken.remaining ≤ (next :: more).length
          · rw [if_pos full, if_pos (fits.mpr full)]
            rfl
          · rw [if_neg full, if_neg fun other => full (fits.mp other)]
            rfl
  | case5 sink rest notDone notReading induction =>
      rw [List.cons_append, feedLoop, if_neg notDone, if_neg notReading, if_pos rfl]
      exact induction
  | case6 sink byte rest notDone notReading some_ inLine induction =>
      rw [List.cons_append, feedLoop, if_neg notDone, if_neg notReading, if_neg some_, if_pos inLine]
      exact induction
  | case7 sink byte rest notDone notReading some_ ends raised isRaised =>
      rw [List.cons_append, feedLoop, if_neg notDone, if_neg notReading, if_neg some_, if_neg ends,
        isRaised]
  | case8 sink byte rest notDone notReading some_ ends next returned last out raised later
      induction =>
      rw [List.cons_append, feedLoop, if_neg notDone, if_neg notReading, if_neg some_, if_neg ends,
        returned]
      dsimp only
      rw [induction, later]
      cases raised with
      | none => simp
      | some raised => rfl

theorem feed_done {sink : ScpSink} (isDone : sink.phase = .done) (data : Bytes) :
    sink.feed data = (sink, []) := by
  rw [feed, feedLoop_done isDone]

theorem feed_append (sink : ScpSink) (data more : Bytes) :
    sink.feed (data ++ more) =
      (((sink.feed data).1.feed more).1, (sink.feed data).2 ++ ((sink.feed data).1.feed more).2) := by
  rw [feed, feedLoop_append]
  rcases first : sink.feedLoop data with ⟨middle, out, _ | raised⟩
  · rcases second : middle.feedLoop more with ⟨last, later, _ | raised⟩
    · simp [feed, first, second]
    · simp [feed, first, second]
  · have stopped := @feed_done { middle with error := raised, phase := .done } rfl more
    have fed : sink.feed data =
        ({ middle with error := raised, phase := .done }, out ++ PROTOCOL_ERROR) := by
      rw [feed, first]
    rw [fed, stopped, List.append_nil]

/-- The chunks in order, with the replies to all of them. -/
def feedAll (sink : ScpSink) : List Bytes → ScpSink × Bytes
  | [] => (sink, [])
  | chunk :: chunks =>
      let (next, out) := sink.feed chunk
      let (last, later) := next.feedAll chunks
      (last, out ++ later)

theorem feedAll_eq (sink : ScpSink) (chunks : List Bytes) :
    sink.feedAll chunks = sink.feed chunks.flatten := by
  induction chunks generalizing sink with
  | nil => simp [feedAll, feed]
  | cons chunk chunks induction =>
      rw [feedAll, List.flatten_cons, feed_append]
      dsimp only
      rw [induction]

/-! ## What is captured stays within the limits -/

/-- The completed files, and what there is of the current one. -/
def captured (sink : ScpSink) : List CapturedFile := sink.files ++ sink.cur.toList

structure Within (sink : ScpSink) : Prop where
  sum : (sink.captured.map fun file => file.data.length).sum = sink.total
  capped : sink.total ≤ sink.maxBytes
  idle : sink.phase ≠ .data → sink.cur = none
  files : ∀ file ∈ sink.files, file.data.length ≤ file.size
  cur : ∀ file, sink.cur = some file → file.data.length + sink.remaining ≤ file.size

variable {sink next : ScpSink}

theorem Within.takeData (within_ : sink.Within) (data : Bytes) : (sink.takeData data).Within := by
  cases isCur : sink.cur with
  | none =>
      have sum := within_.sum
      simp only [captured, isCur] at sum
      refine ⟨?_, ?_, ?_, ?_, ?_⟩
      · simpa [ScpSink.takeData, captured, isCur] using sum
      · simpa [ScpSink.takeData, isCur] using within_.capped
      · simp [ScpSink.takeData, isCur]
      · simpa [ScpSink.takeData, isCur] using within_.files
      · simp [ScpSink.takeData, isCur]
  | some file =>
      have sum := within_.sum
      have capped := within_.capped
      have room := within_.cur file isCur
      simp only [captured, isCur, Option.toList_some, List.map_append, List.sum_append,
        List.map_cons, List.map_nil, List.sum_cons, List.sum_nil] at sum
      refine ⟨?_, ?_, ?_, ?_, ?_⟩
      · simp [ScpSink.takeData, captured, isCur]
        omega
      · simp [ScpSink.takeData, isCur]
        omega
      · intro notReading
        rw [takeData_phase] at notReading
        rw [within_.idle notReading] at isCur
        cases isCur
      · simpa [ScpSink.takeData, isCur] using within_.files
      · intro later isLater
        simp only [ScpSink.takeData, isCur, Option.some.injEq] at isLater
        subst isLater
        simp [ScpSink.takeData, isCur]
        omega

theorem Within.finish (within_ : sink.Within) : sink.finish.Within := by
  refine ⟨?_, within_.capped, fun _ => rfl, ?_, ?_⟩
  · have sum := within_.sum
    simpa [ScpSink.finish, captured] using sum
  · intro file member
    rcases List.mem_append.mp member with before | now
    · exact within_.files file before
    · have room := within_.cur file (by simpa using now)
      omega
  · intro file none_
    cases none_

theorem Within.begin {file : CapturedFile} (within_ : sink.Within) (idle : sink.cur = none)
    (none_ : file.data = []) :
    ({ sink with
        remaining := 0, phase := .control, cur := none,
        files := sink.files ++ [file] } : ScpSink).Within ∧
      ({ sink with remaining := file.size, phase := .data, cur := some file } : ScpSink).Within := by
  have sum := within_.sum
  simp only [captured, idle, Option.toList_none, List.append_nil] at sum
  constructor
  · refine ⟨?_, within_.capped, fun _ => rfl, ?_, ?_⟩
    · simpa [captured, none_] using sum
    · intro other member
      rcases List.mem_append.mp member with before | now
      · exact within_.files other before
      · rw [List.mem_singleton.mp now, none_]
        exact Nat.zero_le _
    · intro other isCur
      cases isCur
  · refine ⟨?_, within_.capped, ?_, within_.files, ?_⟩
    · simpa [captured, none_] using sum
    · intro notReading
      exact absurd rfl notReading
    · intro other isCur
      cases isCur
      simp [none_]

theorem Within.handleControl {line : Bytes} (within_ : sink.Within) (idle : sink.cur = none)
    (returned : sink.handleControl line = .ok next) :
    next.Within ∧ next.maxBytes = sink.maxBytes := by
  have stacked : ∀ dirStack, ({ sink with dirStack } : ScpSink).Within := fun _ =>
    ⟨within_.sum, within_.capped, within_.idle, within_.files, within_.cur⟩
  unfold ScpSink.handleControl at returned
  split at returned
  · cases returned
    exact ⟨within_, rfl⟩
  · split at returned
    · next mode digits name _ =>
      cases converted : Decimal.int (Decimal.ascii digits) with
      | error raised =>
          rw [converted] at returned
          cases returned
      | ok size =>
          rw [converted] at returned
          have begins := @Within.begin _
            { name := Utf8.decodeReplace name, mode := Decimal.ascii mode, size } within_ idle rfl
          cases returned
          dsimp only
          split
          · exact ⟨begins.1, rfl⟩
          · exact ⟨begins.2, rfl⟩
    · split at returned
      · cases returned
        exact ⟨stacked _, rfl⟩
      · split at returned
        · cases returned
          exact ⟨stacked _, rfl⟩
        · cases returned
          exact ⟨within_, rfl⟩

theorem Within.feedLoop (within_ : sink.Within) (data : Bytes) :
    (sink.feedLoop data).1.Within ∧ (sink.feedLoop data).1.maxBytes = sink.maxBytes ∧
      ((sink.feedLoop data).2.2.isSome → (sink.feedLoop data).1.cur = none) := by
  fun_induction ScpSink.feedLoop sink data with
  | case1 sink => exact ⟨within_, rfl, fun raised => by cases raised⟩
  | case2 sink byte rest isDone => exact ⟨within_, rfl, fun raised => by cases raised⟩
  | case3 sink byte rest _ reading taken left full last out raised later induction =>
      rw [later] at induction
      have ended := induction (within_.takeData _).finish
      exact ⟨ended.1, ended.2.1.trans (takeData_maxBytes _ sink), ended.2.2⟩
  | case4 sink byte rest _ reading taken left more_ induction =>
      have ended := induction (within_.takeData _)
      exact ⟨ended.1, ended.2.1.trans (takeData_maxBytes _ sink), ended.2.2⟩
  | case5 sink rest notDone notReading induction => exact induction within_
  | case6 sink byte rest notDone notReading some_ inLine induction =>
      exact induction ⟨within_.sum, within_.capped, within_.idle, within_.files, within_.cur⟩
  | case7 sink byte rest notDone notReading some_ ends raised isRaised =>
      exact ⟨⟨within_.sum, within_.capped, within_.idle, within_.files, within_.cur⟩, rfl,
        fun _ => within_.idle notReading⟩
  | case8 sink byte rest notDone notReading some_ ends next returned last out raised later
      induction =>
      have cleared : ({ sink with buf := [] } : ScpSink).Within :=
        ⟨within_.sum, within_.capped, within_.idle, within_.files, within_.cur⟩
      have handled := cleared.handleControl (within_.idle notReading) returned
      rw [later] at induction
      have ended := induction handled.1
      exact ⟨ended.1, ended.2.1.trans handled.2, ended.2.2⟩

theorem Within.feed (within_ : sink.Within) (data : Bytes) :
    (sink.feed data).1.Within ∧ (sink.feed data).1.maxBytes = sink.maxBytes := by
  have ended := within_.feedLoop data
  rcases fed : sink.feedLoop data with ⟨last, out, _ | raised⟩
  · rw [fed] at ended
    rw [ScpSink.feed, fed]
    exact ⟨ended.1, ended.2.1⟩
  · rw [fed] at ended
    rw [ScpSink.feed, fed]
    have none_ := ended.2.2 rfl
    exact ⟨⟨ended.1.sum, ended.1.capped, fun _ => none_, ended.1.files, ended.1.cur⟩, ended.2.1⟩

end ScpSink

end Scp

end LlmHoneypot
