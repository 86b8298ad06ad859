import LlmHoneypot.Foundation.LittleEndian

/-! # Terminal logs

`core/ttylog.py`: the records of a session's log, how they are written, and the loop by which the
tools read them. -/

namespace LlmHoneypot

namespace Ttylog

def OP_OPEN : Int := 1
def OP_CLOSE : Int := 2
def OP_WRITE : Int := 3

def TYPE_INPUT : Int := 1
def TYPE_OUTPUT : Int := 2
def TYPE_INTERACT : Int := 3

structure Entry where
  op : Int
  tty : Nat
  direction : Int
  sec : Nat
  usec : Nat
  data : Bytes
  deriving DecidableEq

/-! ## Reading -/

def ssize : Nat := 24

def unsigned (bytes : Bytes) (offset : Nat) : Nat :=
  LittleEndian.decode ((bytes.drop offset).take 4)

def integer (bytes : Bytes) (offset : Nat) : Int :=
  LittleEndian.signed 4 (unsigned bytes offset)

/-- What `fd.read` of a header and of its data comes to. -/
inductive Reading where
  /-- `struct.error`. -/
  | ended
  /-- `ValueError`, from a length below -1. -/
  | raised
  | entry (entry : Entry) (rest : Bytes)

def readData (length : Int) (bytes : Bytes) : Bytes × Bytes :=
  if length = -1 then (bytes, []) else (bytes.take length.toNat, bytes.drop length.toNat)

def readRecord (file : Bytes) : Reading :=
  if file.length < ssize then
    .ended
  else
    let length := integer file 8
    let rest := file.drop ssize
    if length < -1 then
      .raised
    else
      .entry
        { op := integer file 0, tty := unsigned file 4, direction := integer file 12
          sec := unsigned file 16, usec := unsigned file 20, data := (readData length rest).1 }
        (readData length rest).2

/-- How a round of a reading loop ends; `none` is an exception. -/
inductive Round (State : Type) where
  | next (state : State)
  | stop (state : State)

/-- The loop over the records. Every record takes at least its header's bytes, so that as many
rounds as there are bytes are enough. -/
def loop {State : Type} (round : State → Entry → Option (Round State)) :
    Nat → State → Bytes → Option State
  | 0, state, _ => some state
  | rounds + 1, state, file =>
      match readRecord file with
      | .ended => some state
      | .raised => none
      | .entry entry rest =>
          match round state entry with
          | none => none
          | some (.stop state) => some state
          | some (.next state) => loop round rounds state rest

def readLog {State : Type} (round : State → Entry → Option (Round State)) (state : State)
    (file : Bytes) : Option State :=
  loop round (file.length + 1) state file

def inputRound (inputbytes : Bytes) (entry : Entry) : Option (Round Bytes) :=
  if entry.op = OP_WRITE ∧ entry.direction = TYPE_OUTPUT then
    some (.next inputbytes)
  else
    some (.next (inputbytes ++ entry.data))

def inputBytes (file : Bytes) : Option Bytes := readLog inputRound [] file

/-! ## Writing -/

inductive Direction where
  | input
  | output
  | interact
  deriving DecidableEq

def Direction.code : Direction → Int
  | input => TYPE_INPUT
  | output => TYPE_OUTPUT
  | interact => TYPE_INTERACT

inductive Op where
  | opened
  | closed
  | write (direction : Direction)
  deriving DecidableEq

def Op.code : Op → Int
  | opened => OP_OPEN
  | closed => OP_CLOSE
  | write _ => OP_WRITE

def Op.direction : Op → Int
  | opened => 0
  | closed => 0
  | write direction => direction.code

/-- A record whose numbers fit their fields. -/
structure Record where
  op : Op
  tty : Nat
  sec : Nat
  usec : Nat
  data : Bytes
  tty_lt : tty < 256 ^ 4
  sec_lt : sec < 256 ^ 4
  usec_lt : usec < 256 ^ 4
  length_lt : 2 * data.length < 256 ^ 4

/-- The fields of the header in their order. -/
def Record.fields (record : Record) : List Nat :=
  [record.op.code.toNat, record.tty, record.data.length, record.op.direction.toNat, record.sec,
    record.usec]

def Record.header (record : Record) : Bytes := record.fields.flatMap (LittleEndian.encode 4)

def Record.encoded (record : Record) : Bytes := record.header ++ record.data

def Record.entry (record : Record) : Entry :=
  { op := record.op.code, tty := record.tty, direction := record.op.direction
    sec := record.sec, usec := record.usec, data := record.data }

/-- The entries in the first `size` bytes of a log; the data of the last one may be cut. -/
def entries : Nat → List Record → List Entry
  | _, [] => []
  | size, record :: rest =>
      if size < ssize then
        []
      else
        { record.entry with data := record.data.take (size - ssize) } ::
          entries (size - ssize - record.data.length) rest

/-! ## Reading back -/

theorem Op.code_toNat (op : Op) : (op.code.toNat : Int) = op.code ∧ op.code.toNat < 4 := by
  cases op with
  | opened | closed => decide
  | write direction =>
      rw [Op.code]
      decide

theorem Op.direction_toNat (op : Op) :
    (op.direction.toNat : Int) = op.direction ∧ op.direction.toNat < 4 := by
  cases op with
  | opened | closed => decide
  | write direction =>
      cases direction with
      | input | output | interact => decide

theorem fields_lt (record : Record) : ∀ field ∈ record.fields, field < 256 ^ 4 := by
  have length := record.length_lt
  have code := record.op.code_toNat.2
  have direction := record.op.direction_toNat.2
  intro field member
  simp only [Record.fields, List.mem_cons, List.not_mem_nil, or_false] at member
  rcases member with rfl | rfl | rfl | rfl | rfl | rfl
  · omega
  · exact record.tty_lt
  · omega
  · omega
  · exact record.sec_lt
  · exact record.usec_lt

theorem length_header (record : Record) : record.header.length = ssize := by
  simp [Record.header, Record.fields, ssize]

theorem unsigned_fields {fields : List Nat} (fit : ∀ field ∈ fields, field < 256 ^ 4)
    (behind : Bytes) {index field : Nat} (there : fields[index]? = some field) :
    unsigned (fields.flatMap (LittleEndian.encode 4) ++ behind) (4 * index) = field := by
  induction fields generalizing index with
  | nil => cases there
  | cons first rest induction =>
      have fits := List.forall_mem_cons.mp fit
      have length := LittleEndian.length_encode 4 first
      rw [List.flatMap_cons, List.append_assoc]
      cases index with
      | zero =>
          rw [unsigned, Nat.mul_zero, List.drop_zero, List.take_left' length,
            LittleEndian.decode_encode fits.1]
          exact Option.some.inj there
      | succ index =>
          rw [← induction fits.2 there, unsigned, unsigned, Nat.mul_succ, Nat.add_comm,
            ← List.drop_drop, List.drop_left' length]

theorem unsigned_header (record : Record) (behind : Bytes) {index field : Nat}
    (there : record.fields[index]? = some field) :
    unsigned (record.header ++ behind) (4 * index) = field :=
  unsigned_fields (fields_lt record) behind there

theorem integer_header (record : Record) (behind : Bytes) {index field : Nat}
    (there : record.fields[index]? = some field) (small : 2 * field < 256 ^ 4) :
    integer (record.header ++ behind) (4 * index) = field := by
  rw [integer, unsigned_header record behind there, LittleEndian.signed_of_lt small]

theorem readData_length (data behind : Bytes) (size : Nat) :
    readData data.length ((data ++ behind).take size) =
      (data.take size, behind.take (size - data.length)) := by
  have notAll : (data.length : Int) ≠ -1 := by omega
  rw [readData, if_neg notAll, Int.toNat_natCast]
  rcases Nat.le_total size data.length with cut | whole
  · have short : (data.take size).length ≤ data.length := List.length_take_le' size data
    rw [List.take_append_of_le_length cut, List.take_of_length_le short,
      List.drop_of_length_le short, Nat.sub_eq_zero_of_le cut, List.take_zero]
  · rw [List.take_append, List.take_of_length_le whole, List.take_left, List.drop_left]

theorem readRecord_encoded (record : Record) {size : Nat} (behind : Bytes) (whole : ssize ≤ size) :
    readRecord ((record.encoded ++ behind).take size) =
      .entry { record.entry with data := record.data.take (size - ssize) }
        (behind.take (size - ssize - record.data.length)) := by
  have file : (record.encoded ++ behind).take size =
      record.header ++ (record.data ++ behind).take (size - ssize) := by
    rw [Record.encoded, List.append_assoc, List.take_append, length_header,
      List.take_of_length_le (by rw [length_header]; exact whole)]
  have long : ¬ (record.header ++ (record.data ++ behind).take (size - ssize)).length < ssize := by
    rw [List.length_append, length_header]
    omega
  have split : (record.header ++ (record.data ++ behind).take (size - ssize)).drop ssize =
      (record.data ++ behind).take (size - ssize) := List.drop_left' (length_header record)
  have code := record.op.code_toNat
  have direction := record.op.direction_toNat
  have length := record.length_lt
  have field {index number : Nat} (there : record.fields[index]? = some number) :=
    unsigned_header record ((record.data ++ behind).take (size - ssize)) there
  have signedField {index number : Nat} (there : record.fields[index]? = some number) :=
    integer_header record ((record.data ++ behind).take (size - ssize)) there
  have op := (@signedField 0 _ rfl (by omega)).trans code.1
  have tty := @field 1 _ rfl
  have size_ := @signedField 2 _ rfl length
  have towards := (@signedField 3 _ rfl (by omega)).trans direction.1
  have sec := @field 4 _ rfl
  have usec := @field 5 _ rfl
  have allowed : ¬ (record.data.length : Int) < -1 := by omega
  rw [file, readRecord, if_neg long]
  dsimp only at op tty size_ towards sec usec ⊢
  rw [size_, if_neg allowed, op, tty, towards, sec, usec, split, readData_length]
  rfl

def foldEntries {State : Type} (round : State → Entry → Option (Round State)) :
    State → List Entry → Option State
  | state, [] => some state
  | state, entry :: rest =>
      match round state entry with
      | none => none
      | some (.stop state) => some state
      | some (.next state) => foldEntries round state rest

theorem readRecord_short {file : Bytes} (short : file.length < ssize) :
    readRecord file = .ended := if_pos short

theorem loop_encoded {State : Type} (round : State → Entry → Option (Round State))
    (log : List Record) {rounds size : Nat} (state : State)
    (enough : ((log.flatMap Record.encoded).take size).length ≤ rounds) :
    loop round (rounds + 1) state ((log.flatMap Record.encoded).take size) =
      foldEntries round state (entries size log) := by
  induction log generalizing rounds size state with
  | nil =>
      rw [List.flatMap_nil, List.take_nil, loop, readRecord_short (by decide)]
      rfl
  | cons record rest induction =>
      rw [List.flatMap_cons, entries]
      split
      · next short =>
          have few : ((record.encoded ++ rest.flatMap Record.encoded).take size).length < ssize :=
            Nat.lt_of_le_of_lt (List.length_take_le size _) short
          rw [loop, readRecord_short few]
          rfl
      · next whole =>
          have fits : ssize ≤ size := Nat.le_of_not_lt whole
          rw [List.flatMap_cons, List.length_take, List.length_append, Record.encoded,
            List.length_append, length_header] at enough
          have long : ssize = 24 := rfl
          obtain ⟨fewer, rfl⟩ : ∃ fewer, rounds = fewer + 1 :=
            Nat.exists_eq_succ_of_ne_zero (by omega)
          rw [loop, readRecord_encoded record _ fits, foldEntries]
          dsimp only
          cases round state _ with
          | none => rfl
          | some ends =>
              cases ends with
              | stop after => rfl
              | next after =>
                  apply induction
                  rw [List.length_take]
                  omega

theorem readLog_encoded {State : Type} (round : State → Entry → Option (Round State))
    (state : State) (log : List Record) (size : Nat) :
    readLog round state ((log.flatMap Record.encoded).take size) =
      foldEntries round state (entries size log) :=
  loop_encoded round log state (Nat.le_refl _)

/-- Everything but what was written as output. -/
def isHashed (entry : Entry) : Bool := ¬ (entry.op = OP_WRITE ∧ entry.direction = TYPE_OUTPUT)

theorem foldEntries_inputRound (hashed : Bytes) (entries : List Entry) :
    foldEntries inputRound hashed entries =
      some (hashed ++ (entries.filter isHashed).flatMap Entry.data) := by
  induction entries generalizing hashed with
  | nil => simp [foldEntries]
  | cons entry rest induction =>
      by_cases output : entry.op = OP_WRITE ∧ entry.direction = TYPE_OUTPUT
      · simp [foldEntries, inputRound, isHashed, induction, output]
      · simp [foldEntries, inputRound, isHashed, induction, output]

/-- All data of a log but what was written as output is hashed, also where it breaks off. -/
theorem inputBytes_encoded (log : List Record) (size : Nat) :
    inputBytes ((log.flatMap Record.encoded).take size) =
      some (((entries size log).filter isHashed).flatMap Entry.data) := by
  rw [inputBytes, readLog_encoded, foldEntries_inputRound, List.nil_append]

end Ttylog

end LlmHoneypot
