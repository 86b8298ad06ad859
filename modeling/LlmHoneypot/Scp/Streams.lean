import LlmHoneypot.Scp.Sink

/-! # The stream of an scp sender

What a sender writes for a list of files, and that the sink reads them back. -/

namespace LlmHoneypot

namespace Scp

/-- What `\s` matches in bytes is one of these characters. -/
def blank (ch : Char) : Prop := ch.toNat = 32 ∨ 9 ≤ ch.toNat ∧ ch.toNat ≤ 13

instance : DecidablePred blank := fun _ => inferInstanceAs (Decidable (_ ∨ _))

/-! ## A control line is read back -/

def IsMode (mode : Str) : Prop := mode.length = 4 ∧ ∀ ch ∈ mode, 48 ≤ ch.toNat ∧ ch.toNat ≤ 55

def entryLine (letter : UInt8) (mode : Str) (number : Nat) (name : Str) : Bytes :=
  letter :: Utf8.encode mode ++
    (32 :: Utf8.encode (Text.decimal number) ++ (32 :: Utf8.encode name))

def readName (name : Str) : Str :=
  if name.dropWhile (blank ·) = [] then name.getLast?.toList else name.dropWhile (blank ·)

variable {mode name : Str}

theorem IsMode.ascii (isMode : IsMode mode) : ∀ ch ∈ mode, ch.toNat < 0x80 := by
  intro ch member
  have octal := isMode.2 ch member
  omega

theorem IsMode.encode (isMode : IsMode mode) :
    Utf8.encode mode = mode.map fun ch => UInt8.ofNat ch.toNat :=
  Decimal.encode_ascii isMode.ascii

theorem IsMode.length_encode (isMode : IsMode mode) : (Utf8.encode mode).length = 4 := by
  rw [isMode.encode, List.length_map]
  exact isMode.1

theorem IsMode.all_isOctal (isMode : IsMode mode) : (Utf8.encode mode).all isOctal = true := by
  rw [List.all_eq_true]
  intro byte member
  rw [isMode.encode] at member
  rcases List.mem_map.mp member with ⟨ch, inMode, rfl⟩
  have octal := isMode.2 ch inMode
  have value := @Utf8.toNat_byte ch.toNat (by omega)
  simpa [isOctal, UInt8.le_iff_toNat_le, value] using octal

theorem isSpace_iff (byte : UInt8) :
    isSpace byte = true ↔ byte.toNat = 32 ∨ 9 ≤ byte.toNat ∧ byte.toNat ≤ 13 := by
  simp only [isSpace, Bool.or_eq_true, Bool.and_eq_true, decide_eq_true_eq, beq_iff_eq,
    ← UInt8.toNat_inj, UInt8.le_iff_toNat_le, UInt8.reduceToNat]

theorem isSpace_eq_false {byte : UInt8} (visible : byte.toNat ≠ 32)
    (outside : ¬ (9 ≤ byte.toNat ∧ byte.toNat ≤ 13)) : isSpace byte = false := by
  rw [← Bool.not_eq_true, isSpace_iff]
  omega

theorem isSpace_encodeChar {ch : Char} {byte : UInt8}
    (member : byte ∈ String.utf8EncodeChar ch) : isSpace byte = decide (blank ch) := by
  rw [Bool.eq_iff_iff, isSpace_iff, decide_eq_true_iff, blank]
  rcases Utf8.mem_encodeChar member with same | ⟨large, most⟩
  · omega
  · omega

theorem all_isSpace_encode (allBlank : ∀ ch ∈ name, blank ch) :
    ∀ byte ∈ Utf8.encode name, isSpace byte = true := by
  intro byte member
  rcases List.mem_flatMap.mp member with ⟨ch, inName, inChar⟩
  rw [isSpace_encodeChar inChar, decide_eq_true_iff]
  exact allBlank ch inName

theorem encode_ne_nil (named : name ≠ []) : Utf8.encode name ≠ [] := by
  intro nothing
  have short := Utf8.length_le_length_encode name
  rw [nothing] at short
  exact named (List.eq_nil_of_length_eq_zero (Nat.le_zero.mp short))

theorem dropWhile_encode (name : Str) :
    (Utf8.encode name).dropWhile isSpace = Utf8.encode (name.dropWhile (blank ·)) := by
  induction name with
  | nil => rfl
  | cons ch rest induction =>
      rw [Utf8.encode, List.flatMap_cons]
      by_cases isBlank : blank ch
      · have spaces : ∀ byte ∈ String.utf8EncodeChar ch, isSpace byte = true := by
          intro byte member
          rw [isSpace_encodeChar member, decide_eq_true_iff]
          exact isBlank
        rw [List.dropWhile_append_of_pos spaces, List.dropWhile_cons_of_pos (by simpa using isBlank)]
        exact induction
      · rw [List.dropWhile_cons_of_neg (by simpa using isBlank), Utf8.encode, List.flatMap_cons]
        cases isChar : String.utf8EncodeChar ch with
        | nil => exact absurd isChar String.utf8EncodeChar_ne_nil
        | cons byte bytes =>
            have visible : isSpace byte = false := by
              rw [isSpace_encodeChar (by rw [isChar]; exact List.mem_cons_self ..)]
              exact decide_eq_false isBlank
            rw [List.cons_append, List.dropWhile_cons_of_neg (by simp [visible])]

theorem name?_encode (named : name ≠ []) :
    name? (32 :: Utf8.encode name) = some (Utf8.encode (readName name)) := by
  have space : isSpace 32 = true := by decide
  rw [name?, readName, List.takeWhile_cons_of_pos space, List.dropWhile_cons_of_pos space,
    dropWhile_encode]
  by_cases allBlank : name.dropWhile (blank ·) = []
  · have blanks : ∀ ch ∈ name, blank ch := by simpa using List.dropWhile_eq_nil_iff.mp allBlank
    rcases List.eq_nil_or_concat name with none | ⟨front, last, isName⟩
    · exact absurd none named
    · have lastBlank : blank last := blanks last (by simp [isName])
      have small : last.toNat < 0x80 := by
        rw [blank] at lastBlank
        omega
      have lastByte : String.utf8EncodeChar last = [UInt8.ofNat last.toNat] := by
        have whole := @Decimal.encode_ascii [last] (by simpa using small)
        rw [Utf8.encode, List.flatMap_singleton] at whole
        exact whole
      have whole : (Utf8.encode name).takeWhile isSpace = Utf8.encode name := by
        apply List.takeWhile_eq_self_iff.mpr
        exact all_isSpace_encode blanks
      have some_ := encode_ne_nil named
      have two : 2 ≤ (32 :: Utf8.encode name).length := by
        rw [List.length_cons]
        have positive := List.length_pos_of_ne_nil some_
        omega
      rw [allBlank, if_pos rfl, whole, if_neg (by simp), if_neg (by simp [Utf8.encode]), if_pos two]
      have atEnd : (32 :: Utf8.encode name).getLast? = some (UInt8.ofNat last.toNat) := by
        rw [isName, Utf8.encode, List.concat_eq_append, List.flatMap_append, List.flatMap_singleton,
          lastByte, ← List.cons_append, List.getLast?_concat]
      rw [atEnd, isName, List.concat_eq_append, List.getLast?_concat]
      simp [Utf8.encode, lastByte]
  · rw [if_neg allBlank, if_neg (by simp), if_pos (encode_ne_nil allBlank)]

theorem readName_of_begins (begins : ∀ ch ∈ name.head?, ¬ blank ch) : readName name = name := by
  cases name with
  | nil => rfl
  | cons ch rest =>
      have visible := begins ch rfl
      rw [readName, List.dropWhile_cons_of_neg (by simpa using visible), if_neg (by simp)]

theorem digit_head (number : Nat) :
    ∃ first rest, Utf8.encode (Text.decimal number) = first :: rest ∧ isSpace first = false := by
  cases isDigits : Utf8.encode (Text.decimal number) with
  | nil =>
      rw [Decimal.encode_ascii (Decimal.decimal_ascii number), List.map_eq_nil_iff] at isDigits
      exact absurd isDigits (Decimal.decimal_ne_nil number)
  | cons first rest =>
      have digit := @Decimal.isDigit_encode_decimal number first (by rw [isDigits]; simp)
      simp only [Decimal.isDigit, Bool.and_eq_true, decide_eq_true_eq, UInt8.le_iff_toNat_le,
        UInt8.reduceToNat] at digit
      refine ⟨first, rest, rfl, ?_⟩
      apply isSpace_eq_false
      · omega
      · omega

theorem matchEntry_entryLine (letter : UInt8) (isMode : IsMode mode) (number : Nat)
    (named : name ≠ []) :
    matchEntry letter (entryLine letter mode number name) =
      some (Utf8.encode mode, Utf8.encode (Text.decimal number), Utf8.encode (readName name)) := by
  have space : isSpace 32 = true := by decide
  have noDigit : Decimal.isDigit 32 = false := by decide
  have isMode_ : (((entryLine letter mode number name).drop 1).take 4) = Utf8.encode mode := by
    rw [entryLine, List.cons_append, List.drop_one, List.tail_cons,
      List.take_left' isMode.length_encode]
  have rest : (entryLine letter mode number name).drop 5 =
      32 :: Utf8.encode (Text.decimal number) ++ 32 :: Utf8.encode name := by
    rw [entryLine]
    exact List.drop_left' (by rw [List.length_cons, isMode.length_encode])
  rcases digit_head number with ⟨first, digits, isDigits, visible⟩
  have skipped : (32 :: Utf8.encode (Text.decimal number) ++ 32 :: Utf8.encode name).dropWhile
      isSpace = Utf8.encode (Text.decimal number) ++ 32 :: Utf8.encode name := by
    rw [isDigits]
    simp [space, visible]
  have allDigits : ∀ byte ∈ Utf8.encode (Text.decimal number), Decimal.isDigit byte = true :=
    fun byte => Decimal.isDigit_encode_decimal
  have digits_ : (Utf8.encode (Text.decimal number) ++ 32 :: Utf8.encode name).takeWhile
      Decimal.isDigit = Utf8.encode (Text.decimal number) := by
    rw [List.takeWhile_append_of_pos allDigits]
    simp [noDigit]
  have behind : (Utf8.encode (Text.decimal number) ++ 32 :: Utf8.encode name).dropWhile
      Decimal.isDigit = 32 :: Utf8.encode name := by
    rw [List.dropWhile_append_of_pos allDigits]
    simp [noDigit]
  have some_ : Utf8.encode (Text.decimal number) ≠ [] := by
    rw [isDigits]
    simp
  rw [matchEntry, isMode_, rest, skipped, digits_, behind, if_pos, name?_encode named]
  · rfl
  · refine ⟨rfl, isMode.length_encode, isMode.all_isOctal, ?_, some_⟩
    simp [space]

theorem encode_bytes {text : Str} (free : ∀ ch ∈ text, ch.toNat ≠ 0 ∧ ch.toNat ≠ 10) :
    ∀ byte ∈ Utf8.encode text, byte ≠ 0 ∧ byte ≠ 10 := by
  intro byte member
  rcases List.mem_flatMap.mp member with ⟨ch, inText, inChar⟩
  have freeChar := free ch inText
  simp only [Ne, ← UInt8.toNat_inj, UInt8.reduceToNat]
  rcases Utf8.mem_encodeChar inChar with same | ⟨_, large⟩
  · omega
  · omega

theorem entryLine_bytes {letter : UInt8} (isLetter : letter ≠ 0 ∧ letter ≠ 10)
    (isMode : IsMode mode) (number : Nat) (inLine : ∀ ch ∈ name, ch.toNat ≠ 0 ∧ ch.toNat ≠ 10) :
    ∀ byte ∈ entryLine letter mode number name, byte ≠ 0 ∧ byte ≠ 10 := by
  intro byte member
  simp only [entryLine, List.cons_append, List.mem_cons, List.mem_append] at member
  rcases member with rfl | inMode | rfl | inNumber | rfl | inName
  · exact isLetter
  · apply encode_bytes _ byte inMode
    intro ch inside
    have octal := isMode.2 ch inside
    omega
  · decide
  · apply encode_bytes _ byte inNumber
    intro ch inside
    have digit := Decimal.decimal_isDigit inside
    omega
  · decide
  · exact encode_bytes inLine byte inName

/-! ## The sink reads an entry -/

namespace ScpSink

theorem feedLoop_line {sink : ScpSink} {line : Bytes} (rest : Bytes)
    (control : sink.phase = .control) (inLine : ∀ byte ∈ line, byte ≠ 0 ∧ byte ≠ 10) :
    sink.feedLoop (line ++ 10 :: rest) =
      { sink with buf := sink.buf ++ line }.feedLoop (10 :: rest) := by
  induction line generalizing sink with
  | nil => simp
  | cons byte line induction =>
      have here := inLine byte (List.mem_cons_self ..)
      have later := @induction { sink with buf := sink.buf ++ [byte] } control
        fun other member => inLine other (List.mem_cons_of_mem _ member)
      rw [List.cons_append, feedLoop, if_neg (by simp [control]), if_neg (by simp [control]),
        if_neg here.1, if_pos here.2, later, List.append_assoc]
      rfl

theorem feedLoop_lineEnd {sink next : ScpSink} (rest : Bytes) (control : sink.phase = .control)
    (handled : { sink with buf := [] }.handleControl sink.buf = .ok next) :
    sink.feedLoop (10 :: rest) =
      ((next.feedLoop rest).1, ACK ++ (next.feedLoop rest).2.1, (next.feedLoop rest).2.2) := by
  rw [feedLoop, if_neg (by simp [control]), if_neg (by simp [control]), if_neg (by decide),
    if_neg (by decide), handled]

theorem feedLoop_control {sink next : ScpSink} {line : Bytes} (rest : Bytes)
    (control : sink.phase = .control) (between : sink.buf = [])
    (inLine : ∀ byte ∈ line, byte ≠ 0 ∧ byte ≠ 10) (handled : sink.handleControl line = .ok next) :
    sink.feedLoop (line ++ 10 :: rest) =
      ((next.feedLoop rest).1, ACK ++ (next.feedLoop rest).2.1, (next.feedLoop rest).2.2) := by
  have cleared : ({ sink with buf := [] } : ScpSink) = sink := by
    rw [← between]
  rw [feedLoop_line _ control inLine, between, List.nil_append]
  have gathered : ({ sink with buf := line } : ScpSink).phase = .control := control
  rw [← cleared] at handled
  exact feedLoop_lineEnd rest gathered handled

theorem feedLoop_zero {sink : ScpSink} (rest : Bytes) (control : sink.phase = .control) :
    sink.feedLoop (0 :: rest) = sink.feedLoop rest := by
  rw [feedLoop, if_neg (by simp [control]), if_neg (by simp [control]), if_pos rfl]

/-- The sink after a file, of which it keeps what its limit allows. -/
def received (sink : ScpSink) (name mode : Str) (data : Bytes) : ScpSink :=
  { sink with
    remaining := 0
    cur := none
    files := sink.files ++
      [{ name, mode, size := data.length, data := data.take (sink.maxBytes - sink.total) }]
    total := sink.total + min data.length (sink.maxBytes - sink.total) }

theorem handleControl_file {sink : ScpSink} {data : Bytes} (isMode : IsMode mode)
    (named : name ≠ []) (fits : data.length < 2 ^ 63) :
    sink.handleControl (entryLine 67 mode data.length name) = .ok
      (if data.length = 0 then
        { sink with
          remaining := 0, phase := .control, cur := none
          files := sink.files ++ [{ name := readName name, mode, size := data.length }] }
      else
        { sink with
          remaining := data.length, phase := .data
          cur := some { name := readName name, mode, size := data.length } }) := by
  have size : Decimal.int (Decimal.ascii (Utf8.encode (Text.decimal data.length))) =
      .ok data.length := by
    rw [Decimal.ascii_encode (Decimal.decimal_ascii _)]
    exact Decimal.int_decimal (by omega)
  rw [handleControl, if_neg (by simp [entryLine]), matchEntry_entryLine 67 isMode _ named]
  dsimp only
  rw [size, Utf8.decodeReplace_encode, Decimal.ascii_encode isMode.ascii]
  rfl

theorem takeData_received (sink : ScpSink) (name mode : Str) (data : Bytes) :
    (({ sink with
        remaining := data.length, phase := .data
        cur := some { name, mode, size := data.length } } : ScpSink).takeData data).finish =
      { sink.received name mode data with phase := .control } := by
  have kept : data.take (min data.length (sink.maxBytes - sink.total)) =
      data.take (sink.maxBytes - sink.total) := by
    rw [List.take_eq_take_iff]
    omega
  simp [takeData, finish, received, kept]

theorem feedLoop_received {sink : ScpSink} {data : Bytes} (rest : Bytes)
    (control : sink.phase = .control) (between : sink.buf = []) (isMode : IsMode mode)
    (named : name ≠ []) (inLine : ∀ ch ∈ name, ch.toNat ≠ 0 ∧ ch.toNat ≠ 10)
    (fits : data.length < 2 ^ 63) :
    ∃ replies, sink.feedLoop (entryLine 67 mode data.length name ++ 10 :: (data ++ 0 :: rest)) =
      (((sink.received (readName name) mode data).feedLoop rest).1,
        replies ++ ((sink.received (readName name) mode data).feedLoop rest).2.1,
        ((sink.received (readName name) mode data).feedLoop rest).2.2) := by
  have stays : (sink.received (readName name) mode data).phase = .control := control
  have ended : ({ sink.received (readName name) mode data with phase := .control } : ScpSink) =
      sink.received (readName name) mode data := by
    rw [← control]
    rfl
  rw [feedLoop_control _ control between (entryLine_bytes (by decide) isMode _ inLine)
    (handleControl_file isMode named fits)]
  split
  · next none_ =>
    have empty : data = [] := List.eq_nil_of_length_eq_zero none_
    have next : ({ sink with
        remaining := 0, phase := .control, cur := none
        files := sink.files ++ [{ name := readName name, mode, size := data.length }] } : ScpSink) =
        sink.received (readName name) mode data := by
      simp [received, empty, ← control]
    use ACK
    rw [next, empty, List.nil_append, ← empty, feedLoop_zero rest stays]
  · next some_ =>
    have full : data.length ≤ (data ++ 0 :: rest).length := by simp
    use ACK ++ ACK
    rw [feedLoop_data rfl (by simp), if_pos full, takeData_append_of_le _ (Nat.le_refl _),
      takeData_received, ended]
    dsimp only
    rw [List.drop_left, feedLoop_zero rest stays, List.append_assoc]

end ScpSink

/-! ## The files of a sender -/

/-- A file as a sender has it. A `bytes` object has fewer than 2⁶³ bytes. -/
structure SentFile where
  mode : Str
  mode_octal : mode.length = 4 ∧ ∀ ch ∈ mode, 48 ≤ ch.toNat ∧ ch.toNat ≤ 55
  name : Str
  name_line : ∀ ch ∈ name, ch.toNat ≠ 0 ∧ ch.toNat ≠ 10
  name_begins : ∀ ch ∈ name.head?, ¬ blank ch
  data : Bytes
  data_fits : data.length < 2 ^ 63

namespace SentFile

variable (file : SentFile)

def size : Str := Text.decimal file.data.length

def line : Bytes :=
  67 :: Utf8.encode file.mode ++ (32 :: Utf8.encode file.size ++ (32 :: Utf8.encode file.name))

def encode : Bytes := file.line ++ 10 :: (file.data ++ [0])

def captured : CapturedFile :=
  { name := file.name, mode := file.mode, size := file.data.length, data := file.data }

end SentFile

namespace ScpSink

/-- The sink after a file that its limit has room for. -/
def after (sink : ScpSink) (file : SentFile) : ScpSink :=
  { sink with
    remaining := 0
    cur := none
    files := sink.files ++ [file.captured]
    total := sink.total + file.data.length }

theorem received_file {sink : ScpSink} {file : SentFile}
    (room : sink.total + file.data.length ≤ sink.maxBytes) :
    sink.received (readName file.name) file.mode file.data = sink.after file := by
  have whole : file.data.take (sink.maxBytes - sink.total) = file.data :=
    List.take_of_length_le (by omega)
  have keep : min file.data.length (sink.maxBytes - sink.total) = file.data.length := by omega
  rw [received, readName_of_begins file.name_begins, whole, keep]
  rfl

theorem feedLoop_file {sink : ScpSink} {file : SentFile} (rest : Bytes)
    (control : sink.phase = .control) (between : sink.buf = []) (named : file.name ≠ [])
    (room : sink.total + file.data.length ≤ sink.maxBytes) :
    ∃ replies, sink.feedLoop (file.encode ++ rest) =
      (((sink.after file).feedLoop rest).1, replies ++ ((sink.after file).feedLoop rest).2.1,
        ((sink.after file).feedLoop rest).2.2) := by
  have stream : file.encode ++ rest =
      entryLine 67 file.mode file.data.length file.name ++ 10 :: (file.data ++ 0 :: rest) := by
    simp [SentFile.encode, SentFile.line, SentFile.size, entryLine]
  rw [stream, ← received_file room]
  exact feedLoop_received rest control between file.mode_octal named file.name_line file.data_fits

theorem feedLoop_files {sink : ScpSink} {files : List SentFile} (control : sink.phase = .control)
    (between : sink.buf = []) (named : ∀ file ∈ files, file.name ≠ [])
    (room : sink.total + (files.map fun file => file.data.length).sum ≤ sink.maxBytes) :
    ∃ replies, sink.feedLoop (files.flatMap SentFile.encode) =
      (files.foldl after sink, replies, none) := by
  induction files generalizing sink with
  | nil =>
      use []
      exact feedLoop_nil sink
  | cons file files induction =>
      rw [List.map_cons, List.sum_cons] at room
      rcases @feedLoop_file sink file (files.flatMap SentFile.encode) control between
        (named file (List.mem_cons_self ..)) (by omega) with ⟨replies, fed⟩
      rcases @induction (sink.after file) control between
        (fun other member => named other (List.mem_cons_of_mem _ member))
        (by simp [after]; omega) with ⟨later, fedLater⟩
      use replies ++ later
      rw [List.flatMap_cons, fed, fedLater, List.foldl_cons]

theorem files_foldl_after (sink : ScpSink) (files : List SentFile) :
    (files.foldl after sink).files = sink.files ++ files.map SentFile.captured := by
  induction files generalizing sink with
  | nil => simp
  | cons file files induction =>
      rw [List.foldl_cons, induction, after, List.map_cons, List.append_assoc]
      rfl

end ScpSink

/-- However a stream is cut, the sink ends in one state and its replies are the same; it has
every file of a sender, with a name, that its limit has room for; and what it captures is
never more than its limit, or of one file than its size. -/
theorem upload_machine :
    (∀ (basePath : Str) (maxBytes : Nat) (chunks : List Bytes),
      ScpSink.feedAll { basePath, maxBytes } chunks =
        ScpSink.feed { basePath, maxBytes } chunks.flatten) ∧
    (∀ (basePath : Str) (maxBytes : Nat) (files : List SentFile),
      (∀ file ∈ files, file.name ≠ []) →
      (files.map fun file => file.data.length).sum ≤ maxBytes →
      (ScpSink.feed { basePath, maxBytes } (files.flatMap SentFile.encode)).1.files =
        files.map SentFile.captured) ∧
    ∀ (basePath : Str) (maxBytes : Nat) (stream : Bytes),
      let sink := (ScpSink.feed { basePath, maxBytes } stream).1
      (sink.captured.map fun file => file.data.length).sum ≤ maxBytes ∧
        ∀ file ∈ sink.captured, file.data.length ≤ file.size := by
  refine ⟨?_, ?_, ?_⟩
  · intro basePath maxBytes chunks
    exact ScpSink.feedAll_eq _ chunks
  · intro basePath maxBytes files named room
    rcases @ScpSink.feedLoop_files { basePath, maxBytes } files rfl rfl named
      (by simpa using room) with ⟨replies, fed⟩
    rw [ScpSink.feed, fed]
    dsimp only
    rw [ScpSink.files_foldl_after, List.nil_append]
  · intro basePath maxBytes stream sink
    have start : ({ basePath, maxBytes } : ScpSink).Within :=
      ⟨rfl, Nat.zero_le _, fun _ => rfl, by simp, by simp⟩
    have ended := start.feed stream
    have limits := ended.1
    constructor
    · calc
        (sink.captured.map fun file => file.data.length).sum = sink.total := limits.sum
        _ ≤ sink.maxBytes := limits.capped
        _ = maxBytes := ended.2
    · intro file member
      rcases List.mem_append.mp member with before | now
      · exact limits.files file before
      · have room := limits.cur file (by simpa using now)
        omega

section Examples

def letter : SentFile where
  mode := ['0', '6', '4', '4']
  mode_octal := by simp
  name := ['x']
  name_line := by simp
  name_begins := by simp [blank]
  data := [7]
  data_fits := by simp

def nameless : SentFile where
  mode := ['0', '6', '4', '4']
  mode_octal := by simp
  name := []
  name_line := by simp
  name_begins := by simp
  data := [7]
  data_fits := by simp

theorem upload_machine_example :
    (ScpSink.feed { basePath := ['.'], maxBytes := 8 } ([letter].flatMap SentFile.encode)).1.files =
      [letter].map SentFile.captured :=
  upload_machine.2.1 ['.'] 8 [letter] (by decide) (by decide)

/-- The control line of a file without a name is passed over, and its data with it. -/
theorem nameless_file_lost :
    (ScpSink.feed {} ([nameless].flatMap SentFile.encode)).1.files = [] := by
  decide +kernel

end Examples

end Scp

end LlmHoneypot
