import LlmHoneypot.Foundation.BigEndian
import LlmHoneypot.Foundation.EventRun

/-! # Reassembly of SFTP packets

`SFTP.parse_packet` of the SSH proxy: the data of a channel comes in chunks, and the
packets in it are handed to `handle_packet`. -/

namespace LlmHoneypot

namespace SshProxy

inductive Parent
  | server
  | client
  deriving DecidableEq, Repr

/-! ## Slices -/

def position (bytes : Bytes) (index : Int) : Nat :=
  if index < 0 then (bytes.length + index).toNat else index.toNat

def sliceTo (bytes : Bytes) (index : Int) : Bytes := bytes.take (position bytes index)

def sliceFrom (bytes : Bytes) (index : Int) : Bytes := bytes.drop (position bytes index)

theorem position_natCast (bytes : Bytes) (index : Nat) : position bytes index = index :=
  if_neg (Int.not_lt.mpr (Int.natCast_nonneg index))

theorem sliceTo_natCast (bytes : Bytes) (index : Nat) : sliceTo bytes index = bytes.take index := by
  rw [sliceTo, position_natCast]

theorem sliceFrom_natCast (bytes : Bytes) (index : Nat) :
    sliceFrom bytes index = bytes.drop index := by
  rw [sliceFrom, position_natCast]

/-! ## Parsing -/

structure BaseProtocol where
  packetSize : Int := 0
  data : Bytes := []
  deriving DecidableEq, Repr

/-- `parse_packet` needs of `handle_packet` only that it changes a state, or raises. -/
abbrev HandlePacket (State : Type) := Parent → Bytes → State → Option State

structure SFTP (State : Type) where
  serverPacket : BaseProtocol := {}
  clientPacket : BaseProtocol := {}
  state : State
  /-- The calls of `handle_packet` that returned. -/
  calls : List (Parent × Bytes) := []

namespace SFTP

variable {State : Type}

def packet (sftp : SFTP State) : Parent → BaseProtocol
  | .server => sftp.serverPacket
  | .client => sftp.clientPacket

def setPacket (sftp : SFTP State) (packet : BaseProtocol) : Parent → SFTP State
  | .server => { sftp with serverPacket := packet }
  | .client => { sftp with clientPacket := packet }

@[simp] theorem packet_setPacket (sftp : SFTP State) (packet : BaseProtocol) (parent : Parent) :
    (sftp.setPacket packet parent).packet parent = packet := by
  cases parent <;> rfl

@[simp] theorem state_setPacket (sftp : SFTP State) (packet : BaseProtocol) (parent : Parent) :
    (sftp.setPacket packet parent).state = sftp.state := by
  cases parent <;> rfl

@[simp] theorem calls_setPacket (sftp : SFTP State) (packet : BaseProtocol) (parent : Parent) :
    (sftp.setPacket packet parent).calls = sftp.calls := by
  cases parent <;> rfl

/-- `handle_packet` is called with the packet of this side. -/
def handle (handlePacket : HandlePacket State) (parent : Parent) (sftp : SFTP State) :
    Option (SFTP State) :=
  let data := (sftp.packet parent).data
  (handlePacket parent data sftp.state).map fun state =>
    { sftp with state, calls := sftp.calls ++ [(parent, data)] }

end SFTP

/-- The branches of `parse_packet` over the packet so far, with what is left of the data.
`int` raises for an empty text. -/
def takeData (data : Bytes) (packet : BaseProtocol) : Option (BaseProtocol × Bytes) :=
  if packet.packetSize = 0 then
    if data = [] then none
    else
      let rest := data.drop 4
      some ({ packetSize := BigEndian.decode (data.take 4) - rest.length, data := rest }, [])
  else if packet.packetSize < data.length then
    some ({ packetSize := 0, data := packet.data ++ sliceTo data packet.packetSize },
      sliceFrom data packet.packetSize)
  else
    some ({ packetSize := packet.packetSize - data.length, data := packet.data ++ data }, [])

theorem takeData_left {data rest : Bytes} {packet next : BaseProtocol}
    (taken : takeData data packet = some (next, rest)) (left : rest ≠ []) :
    packet.packetSize ≠ 0 ∧ next.packetSize = 0 := by
  unfold takeData at taken
  split at taken
  · split at taken
    · cases taken
    · cases taken
      exact absurd rfl left
  · next begun =>
    split at taken
    · cases taken
      exact ⟨begun, rfl⟩
    · cases taken
      exact absurd rfl left

theorem packet_handle {State : Type} {handlePacket : HandlePacket State} {parent : Parent}
    {sftp next : SFTP State} (handled : sftp.handle handlePacket parent = some next) :
    next.packet parent = sftp.packet parent := by
  rcases Option.map_eq_some_iff.mp handled with ⟨state, _, rfl⟩
  cases parent <;> rfl

def parsePacket {State : Type} (handlePacket : HandlePacket State) (parent : Parent)
    (data : Bytes) (sftp : SFTP State) : Option (SFTP State) :=
  match _taken : takeData data (sftp.packet parent) with
  | none => none
  | some (packet, rest) =>
      let sftp := sftp.setPacket packet parent
      match _handled : if packet.packetSize = 0 then sftp.handle handlePacket parent
          else some sftp with
      | none => none
      | some next => if _left : rest = [] then some next else parsePacket handlePacket parent rest next
termination_by if (sftp.packet parent).packetSize = 0 then 0 else 1
decreasing_by
  rcases takeData_left _taken _left with ⟨begun, complete⟩
  rw [dif_pos complete] at _handled
  have same := packet_handle _handled
  rw [SFTP.packet_setPacket] at same
  rw [same, if_pos complete, if_neg begun]
  exact Nat.zero_lt_one

def step {State : Type} (handlePacket : HandlePacket State) (sftp : SFTP State)
    (chunk : Parent × Bytes) : Option (SFTP State) :=
  parsePacket handlePacket chunk.1 chunk.2 sftp

/-! ## Packets -/

/-- An SFTP packet: its type and what depends on it. -/
structure Packet where
  type : UInt8
  payload : Bytes
  fits : payload.length + 1 < 256 ^ 4

namespace Packet

def bytes (packet : Packet) : Bytes := packet.type :: packet.payload

/-- The packet on the wire, behind its length. -/
def frame (packet : Packet) : Bytes := BigEndian.encode 4 packet.bytes.length ++ packet.bytes

end Packet

/-! ## Alignment -/

/-- A packet begins with this much of a chunk: its length stands whole in it, and nothing
of the packet after it. What is missing of it, and the sizes of the packets after it. -/
def beginsIn (segment : Nat) : List Nat → Option (Nat × List Nat)
  | [] => none
  | size :: sizes =>
      if 4 ≤ segment ∧ segment ≤ 4 + size then some (4 + size - segment, sizes) else none

/-- Every packet begins a chunk, or follows in its chunk the end of a packet that an
earlier chunk began; its length stands whole in that chunk, and nothing of the packet
after it. `missing` is what is missing of the packet that was begun. -/
def aligned : (missing : Nat) → (sizes chunks : List Nat) → Bool
  | _, _, [] => true
  | missing, sizes, chunk :: chunks =>
      if missing ≠ 0 ∧ chunk ≤ missing then aligned (missing - chunk) sizes chunks
      else
        match beginsIn (chunk - missing) sizes with
        | none => false
        | some (missing, sizes) => aligned missing sizes chunks

/-! ## Assembly -/

def BaseProtocol.completed (packet : BaseProtocol) : List Bytes :=
  if packet.packetSize = 0 then [packet.data] else []

def assemble (packet : BaseProtocol) (chunk : Bytes) : Option (BaseProtocol × List Bytes) :=
  (takeData chunk packet).bind fun (next, rest) =>
    if rest = [] then some (next, next.completed)
    else
      (takeData rest next).map fun (last, _) => (last, next.completed ++ last.completed)

def assembleAll : BaseProtocol → List Bytes → Option (BaseProtocol × List Bytes)
  | packet, [] => some (packet, [])
  | packet, chunk :: chunks =>
      (assemble packet chunk).bind fun (next, first) =>
        (assembleAll next chunks).map fun (last, later) => (last, first ++ later)

section Handled

variable {State : Type} (handlePacket : HandlePacket State) (parent : Parent)

/-- `handle_packet` is called with some packets, one after another. -/
def handleAll (packets : List Bytes) (state : State) : Option State :=
  packets.foldlM (fun state bytes => handlePacket parent bytes state) state

def handOver (packet : BaseProtocol) (packets : List Bytes) (sftp : SFTP State) :
    Option (SFTP State) :=
  (handleAll handlePacket parent packets sftp.state).map fun state =>
    { sftp.setPacket packet parent with
      state, calls := sftp.calls ++ packets.map (Prod.mk parent) }

theorem handOver_completed (packet : BaseProtocol) (sftp : SFTP State) :
    (if packet.packetSize = 0 then (sftp.setPacket packet parent).handle handlePacket parent
      else some (sftp.setPacket packet parent)) =
      handOver handlePacket parent packet packet.completed sftp := by
  unfold BaseProtocol.completed handOver handleAll
  split
  · simp [SFTP.handle]
  · cases parent <;> simp [SFTP.setPacket]

theorem handOver_append (first second : BaseProtocol) (packets others : List Bytes)
    (sftp : SFTP State) :
    (handOver handlePacket parent first packets sftp).bind
        (handOver handlePacket parent second others) =
      handOver handlePacket parent second (packets ++ others) sftp := by
  unfold handOver handleAll
  rw [List.foldlM_append]
  cases packets.foldlM (fun state bytes => handlePacket parent bytes state) sftp.state with
  | none => rfl
  | some state =>
      simp only [Option.map_some, Option.bind_some, Option.bind_eq_bind, List.map_append,
        List.append_assoc]
      cases parent <;> rfl

theorem parsePacket_cases (data : Bytes) (sftp : SFTP State) :
    parsePacket handlePacket parent data sftp =
      (takeData data (sftp.packet parent)).bind fun (packet, rest) =>
        (handOver handlePacket parent packet packet.completed sftp).bind fun next =>
          if rest = [] then some next else parsePacket handlePacket parent rest next := by
  rw [parsePacket]
  split
  · next isNone => rw [isNone, Option.bind_none]
  · next packet rest isSome =>
    rw [isSome, Option.bind_some]
    dsimp only
    rw [← handOver_completed]
    split
    · next isNone => rw [isNone, Option.bind_none]
    · next next isSome =>
      rw [isSome, Option.bind_some]
      split
      all_goals rfl

theorem packet_handOver {packet : BaseProtocol} {packets : List Bytes} {sftp next : SFTP State}
    (handed : handOver handlePacket parent packet packets sftp = some next) :
    next.packet parent = packet := by
  rcases Option.map_eq_some_iff.mp handed with ⟨state, _, rfl⟩
  cases parent <;> rfl

theorem takeData_complete {data rest : Bytes} {packet next : BaseProtocol}
    (complete : packet.packetSize = 0) (taken : takeData data packet = some (next, rest)) :
    rest = [] := by
  by_contra left
  exact (takeData_left taken left).1 complete

theorem parsePacket_eq (data : Bytes) (sftp : SFTP State) :
    parsePacket handlePacket parent data sftp =
      (assemble (sftp.packet parent) data).bind fun (packet, packets) =>
        handOver handlePacket parent packet packets sftp := by
  rw [parsePacket_cases, assemble]
  cases taken : takeData data (sftp.packet parent) with
  | none => rfl
  | some answer =>
      rcases answer with ⟨packet, rest⟩
      simp only [Option.bind_some]
      by_cases left : rest = []
      · simp [left]
      · have complete : packet.packetSize = 0 := (takeData_left taken left).2
        have again {next : SFTP State} (isPacket : next.packet parent = packet) :
            parsePacket handlePacket parent rest next =
              (takeData rest packet).bind fun (last, _) =>
                handOver handlePacket parent last last.completed next := by
          rw [parsePacket_cases, isPacket]
          cases takenLast : takeData rest packet with
          | none => rfl
          | some answer =>
              rcases answer with ⟨last, more⟩
              have none_ : more = [] := takeData_complete complete takenLast
              simp [none_]
        simp only [left, if_false]
        cases handed : handOver handlePacket parent packet packet.completed sftp with
        | none =>
            cases takeData rest packet with
            | none => rfl
            | some answer =>
                simp only [Option.map_some, Option.bind_some, Option.bind_none]
                rw [← handOver_append handlePacket parent packet, handed]
                rfl
        | some next =>
            rw [Option.bind_some, again (packet_handOver handlePacket parent handed)]
            cases takeData rest packet with
            | none => rfl
            | some answer =>
                simp only [Option.map_some, Option.bind_some]
                rw [← handOver_append handlePacket parent packet, handed]
                rfl

theorem run_eq (chunks : List Bytes) (sftp : SFTP State) :
    EventRun.run (step handlePacket) sftp (chunks.map (Prod.mk parent)) =
      (assembleAll (sftp.packet parent) chunks).bind fun (packet, packets) =>
        handOver handlePacket parent packet packets sftp := by
  induction chunks generalizing sftp with
  | nil =>
      simp only [List.map_nil, EventRun.run_nil, assembleAll, Option.bind_some, handOver, handleAll]
      cases parent <;> simp [SFTP.setPacket, SFTP.packet]
  | cons chunk chunks induction =>
      simp only [List.map_cons, EventRun.run, step, assembleAll, parsePacket_eq]
      cases assemble (sftp.packet parent) chunk with
      | none => rfl
      | some answer =>
          rcases answer with ⟨packet, packets⟩
          simp only [Option.bind_some]
          cases handed : handOver handlePacket parent packet packets sftp with
          | none =>
              cases assembleAll packet chunks with
              | none => rfl
              | some answer =>
                  simp only [Option.map_some, Option.bind_some, Option.bind_none]
                  rw [← handOver_append handlePacket parent packet, handed]
                  rfl
          | some next =>
              rw [Option.bind_some, induction, packet_handOver handlePacket parent handed]
              cases assembleAll packet chunks with
              | none => rfl
              | some answer =>
                  simp only [Option.map_some, Option.bind_some]
                  rw [← handOver_append handlePacket parent packet, handed]
                  rfl

end Handled

/-! ## Misframed packets -/

def Doomed (size : Nat) (packet : BaseProtocol) : Prop :=
  if 0 ≤ packet.packetSize then packet.data.length + packet.packetSize ≠ size
  else size < packet.data.length

theorem Doomed.completed {size : Nat} {packet : BaseProtocol} (doomed : Doomed size packet)
    (complete : packet.packetSize = 0) : packet.data.length ≠ size := by
  unfold Doomed at doomed
  rw [complete, if_pos (Int.le_refl 0)] at doomed
  omega

theorem Doomed.next {size : Nat} {packet next : BaseProtocol} {data rest : Bytes}
    (doomed : Doomed size packet) (begun : packet.packetSize ≠ 0)
    (taken : takeData data packet = some (next, rest)) : Doomed size next := by
  unfold Doomed at *
  unfold takeData at taken
  rw [if_neg begun] at taken
  split at taken
  · next less =>
    cases taken
    have lengths : ((packet.data ++ sliceTo data packet.packetSize).length : Int) =
        packet.data.length + (sliceTo data packet.packetSize).length := by simp
    split at doomed
    · next positive =>
      have isSize : ((sliceTo data packet.packetSize).length : Int) = packet.packetSize := by
        unfold sliceTo position
        rw [if_neg (Int.not_lt.mpr positive), List.length_take]
        omega
      simp only [Int.le_refl, if_true]
      omega
    · simp only [Int.le_refl, if_true]
      omega
  · cases taken
    have lengths : ((packet.data ++ data).length : Int) = packet.data.length + data.length := by
      simp
    have covered : (0 : Int) ≤ packet.packetSize - data.length := by omega
    have positive : (0 : Int) ≤ packet.packetSize := by omega
    rw [if_pos positive] at doomed
    rw [if_pos covered]
    dsimp only
    omega

def FirstDiffers (size : Nat) (packets : List Bytes) : Prop :=
  ∀ first ∈ packets.head?, first.length ≠ size

theorem firstDiffers_completed {size : Nat} {packet : BaseProtocol} (doomed : Doomed size packet)
    (complete : packet.packetSize = 0) (later : List Bytes) :
    FirstDiffers size (packet.completed ++ later) := by
  unfold BaseProtocol.completed
  rw [if_pos complete]
  intro first isFirst
  cases isFirst
  exact doomed.completed complete

theorem Doomed.later {size : Nat} {packet final : BaseProtocol} {chunks packets : List Bytes}
    (doomed : Doomed size packet) (begun : packet.packetSize ≠ 0)
    (assembled : assembleAll packet chunks = some (final, packets)) :
    FirstDiffers size packets := by
  induction chunks generalizing packet packets with
  | nil =>
      cases assembled
      intro first isFirst
      cases isFirst
  | cons chunk chunks induction =>
      simp only [assembleAll, assemble, Option.bind_eq_some_iff,
        Option.map_eq_some_iff] at assembled
      rcases assembled with
        ⟨⟨_, now⟩, ⟨⟨next, rest⟩, isTaken, isNow⟩, ⟨last, later⟩, isLater, equal⟩
      cases equal
      have doomedNext := doomed.next begun isTaken
      split at isNow
      · cases isNow
        by_cases complete : next.packetSize = 0
        · exact firstDiffers_completed doomedNext complete _
        · unfold BaseProtocol.completed
          rw [if_neg complete]
          exact induction doomedNext complete isLater
      · next left =>
        rcases Option.map_eq_some_iff.mp isNow with ⟨_, _, equal⟩
        cases equal
        rw [List.append_assoc]
        exact firstDiffers_completed doomedNext (takeData_left isTaken left).2 _

/-! ## Aligned chunks -/

theorem takeData_begin {packet : BaseProtocol} (complete : packet.packetSize = 0)
    {segment : Bytes} (some_ : segment ≠ []) :
    takeData segment packet =
      some ({ packetSize := BigEndian.decode (segment.take 4) - (segment.drop 4).length
              data := segment.drop 4 }, []) := by
  rw [takeData, if_pos complete, if_neg some_]

namespace Packet

variable (packet : Packet)

theorem length_frame : packet.frame.length = 4 + packet.bytes.length := by
  simp [frame]

theorem bytes_ne_nil : packet.bytes ≠ [] := List.cons_ne_nil _ _

theorem length_lt : packet.bytes.length < 256 ^ 4 := by
  simpa [bytes] using packet.fits

theorem take_frame : packet.frame.take 4 = BigEndian.encode 4 packet.bytes.length := by
  unfold frame
  rw [List.take_append_of_le_length (by simp)]
  exact List.take_of_length_le (by simp)

theorem drop_frame : packet.frame.drop 4 = packet.bytes := by
  unfold frame
  rw [List.drop_append_of_le_length (by simp)]
  rw [List.drop_of_length_le (by simp), List.nil_append]

end Packet

theorem begin_of_fits {packet : BaseProtocol} (complete : packet.packetSize = 0)
    (first : Packet) {segment : Bytes} (header : 4 ≤ segment.length)
    (within_ : segment.length ≤ 4 + first.bytes.length)
    (isPrefix : segment = first.frame.take segment.length) :
    ∃ next, takeData segment packet = some (next, []) ∧
      next.packetSize = (first.frame.drop segment.length).length ∧
      next.data ++ first.frame.drop segment.length = first.bytes := by
  have some_ : segment ≠ [] := List.ne_nil_of_length_pos (by omega)
  have length : BigEndian.decode (segment.take 4) = first.bytes.length := by
    rw [isPrefix, List.take_take, Nat.min_eq_left header, first.take_frame]
    exact BigEndian.decode_encode first.length_lt
  refine ⟨_, takeData_begin complete some_, ?_, ?_⟩
  · rw [length, List.length_drop, List.length_drop, first.length_frame]
    dsimp only
    omega
  · have joined : segment ++ first.frame.drop segment.length = first.frame := by
      conv => enter [1, 1]; rw [isPrefix]
      exact List.take_append_drop _ _
    rw [← List.drop_append_of_le_length header, joined, first.drop_frame]

theorem doomed_of_begin {packet : BaseProtocol} (complete : packet.packetSize = 0)
    (first : Packet) {segment rest : Bytes} (some_ : segment ≠ [])
    (misfit : ¬ (4 ≤ segment.length ∧ segment.length ≤ 4 + first.bytes.length))
    (stream : ∃ more, segment ++ more = first.frame ++ rest) :
    ∃ next, takeData segment packet = some (next, []) ∧ Doomed first.bytes.length next := by
  refine ⟨_, takeData_begin complete some_, ?_⟩
  rcases stream with ⟨more, stream⟩
  have positive := List.length_pos_iff.mpr first.bytes_ne_nil
  by_cases short : segment.length < 4
  · have isPrefix : segment = BigEndian.encode segment.length
        (first.bytes.length / 256 ^ (4 - segment.length)) := by
      have taken : segment = (BigEndian.encode 4 first.bytes.length).take segment.length := by
        have := congrArg (List.take segment.length) stream
        rw [List.take_left, Packet.frame, List.append_assoc,
          List.take_append_of_le_length (by simp; omega)] at this
        exact this
      have split := BigEndian.take_encode segment.length (4 - segment.length) first.bytes.length
      rw [Nat.add_sub_cancel' (Nat.le_of_lt short)] at split
      exact taken.trans split
    have below : first.bytes.length / 256 ^ (4 - segment.length) < 256 ^ segment.length := by
      apply Nat.div_lt_of_lt_mul
      rw [← Nat.pow_add, Nat.sub_add_cancel (Nat.le_of_lt short)]
      exact first.length_lt
    have number : BigEndian.decode segment =
        first.bytes.length / 256 ^ (4 - segment.length) := by
      conv => enter [1]; rw [isPrefix]
      exact BigEndian.decode_encode below
    have less : first.bytes.length / 256 ^ (4 - segment.length) < first.bytes.length := by
      apply Nat.div_lt_self positive
      exact Nat.one_lt_pow (by omega) (by decide)
    unfold Doomed
    rw [List.take_of_length_le (Nat.le_of_lt short), List.drop_of_length_le (Nat.le_of_lt short),
      number]
    simp only [List.length_nil]
    rw [if_pos (by omega)]
    omega
  · have header : 4 ≤ segment.length := by omega
    have length : BigEndian.decode (segment.take 4) = first.bytes.length := by
      have := congrArg (List.take 4) stream
      rw [List.take_append_of_le_length header,
        List.take_append_of_le_length (by rw [first.length_frame]; omega), first.take_frame] at this
      rw [this]
      exact BigEndian.decode_encode first.length_lt
    unfold Doomed
    rw [length, List.length_drop]
    dsimp only
    rw [if_neg (by omega)]
    omega

def expected (packet : BaseProtocol) (missing : Bytes) (packets : List Packet) : List Bytes :=
  if missing = [] then packets.map Packet.bytes
  else (packet.data ++ missing) :: packets.map Packet.bytes

theorem expected_completed {packet : BaseProtocol} {missing : Bytes} {first : Bytes}
    (size : packet.packetSize = missing.length) (whole : packet.data ++ missing = first)
    (packets : List Packet) :
    first :: packets.map Packet.bytes = packet.completed ++ expected packet missing packets := by
  unfold expected BaseProtocol.completed
  by_cases none_ : missing = []
  · rw [none_, List.append_nil] at whole
    simp [none_, size, whole]
  · have some_ : packet.packetSize ≠ 0 := by
      rw [size]
      simpa using none_
    simp [none_, some_, whole]

def Assembles (packet : BaseProtocol) (chunks packets : List Bytes) : Prop :=
  ∃ final, assembleAll packet chunks = some (final, packets)

theorem Doomed.firstDiffers {size : Nat} {packet final : BaseProtocol}
    {chunks later : List Bytes} (doomed : Doomed size packet)
    (assembled : assembleAll packet chunks = some (final, later)) :
    FirstDiffers size (packet.completed ++ later) := by
  by_cases complete : packet.packetSize = 0
  · exact firstDiffers_completed doomed complete later
  · unfold BaseProtocol.completed
    rw [if_neg complete]
    exact doomed.later complete assembled

theorem assembles_cons_iff {packet next : BaseProtocol} {chunk : Bytes}
    {chunks packets : List Bytes} (taken : takeData chunk packet = some (next, [])) :
    Assembles packet (chunk :: chunks) packets ↔
      ∃ later final, assembleAll next chunks = some (final, later) ∧
        next.completed ++ later = packets := by
  have cons : assembleAll packet (chunk :: chunks) =
      (assembleAll next chunks).map fun (last, later) => (last, next.completed ++ later) := by
    simp [assembleAll, assemble, taken]
  unfold Assembles
  rw [cons]
  constructor
  · rintro ⟨final, assembled⟩
    rcases Option.map_eq_some_iff.mp assembled with ⟨⟨last, later⟩, isLater, equal⟩
    cases equal
    exact ⟨later, _, isLater, rfl⟩
  · rintro ⟨later, final, isLater, rfl⟩
    exact ⟨final, Option.map_eq_some_iff.mpr ⟨_, isLater, rfl⟩⟩

theorem assembles_left_iff {packet next : BaseProtocol} {chunk rest : Bytes}
    {chunks packets : List Bytes} (taken : takeData chunk packet = some (next, rest))
    (left : rest ≠ []) :
    Assembles packet (chunk :: chunks) (next.data :: packets) ↔
      ∃ last later final, takeData rest next = some (last, []) ∧
        assembleAll last chunks = some (final, later) ∧ last.completed ++ later = packets := by
  have complete := (takeData_left taken left).2
  have isNext : next.completed = [next.data] := if_pos complete
  have cons : assembleAll packet (chunk :: chunks) =
      (takeData rest next).bind fun (last, _) =>
        (assembleAll last chunks).map fun (final, later) =>
          (final, next.data :: (last.completed ++ later)) := by
    simp only [assembleAll, assemble, taken, Option.bind_some, if_neg left, isNext]
    cases takeData rest next with
    | none => rfl
    | some answer => rfl
  unfold Assembles
  rw [cons]
  constructor
  · rintro ⟨final, assembled⟩
    rcases Option.bind_eq_some_iff.mp assembled with ⟨⟨last, more⟩, isTaken, assembled⟩
    rcases Option.map_eq_some_iff.mp assembled with ⟨⟨_, later⟩, isLater, equal⟩
    cases equal
    have all : more = [] := takeData_complete complete isTaken
    exact ⟨last, later, _, all ▸ isTaken, isLater, rfl⟩
  · rintro ⟨last, later, final, isTaken, isLater, rfl⟩
    use final
    simp [isTaken, isLater]

theorem assembles_later_iff {next : BaseProtocol} {chunks packets : List Bytes} :
    (∃ later final, assembleAll next chunks = some (final, later) ∧
      next.completed ++ later = next.completed ++ packets) ↔ Assembles next chunks packets := by
  constructor
  · rintro ⟨later, final, assembled, equal⟩
    rw [List.append_cancel_left_eq] at equal
    exact ⟨final, equal ▸ assembled⟩
  · rintro ⟨final, assembled⟩
    exact ⟨packets, final, assembled, rfl⟩

theorem assembles_begin_iff {packet : BaseProtocol} {segment : Bytes} {packets : List Packet}
    {chunks : List Bytes} (complete : packet.packetSize = 0)
    (stream : segment ++ chunks.flatten = (packets.map Packet.frame).flatten)
    (later : ∀ {packet : BaseProtocol} {missing : Bytes} {packets : List Packet},
      packet.packetSize = missing.length →
      chunks.flatten = missing ++ (packets.map Packet.frame).flatten →
      (Assembles packet chunks (expected packet missing packets) ↔
        aligned missing.length (packets.map fun packet => packet.bytes.length)
          (chunks.map List.length) = true)) :
    (∃ next packetsLater final, takeData segment packet = some (next, []) ∧
      assembleAll next chunks = some (final, packetsLater) ∧
      next.completed ++ packetsLater = packets.map Packet.bytes) ↔
    (match beginsIn segment.length (packets.map fun packet => packet.bytes.length) with
      | none => false
      | some (missing, sizes) => aligned missing sizes (chunks.map List.length)) = true := by
  by_cases none_ : segment = []
  · have raises : takeData segment packet = none := by
      rw [takeData, if_pos complete, if_pos none_]
    have nothing : beginsIn segment.length (packets.map fun packet => packet.bytes.length) =
        none := by
      rw [none_]
      cases packets with
      | nil => rfl
      | cons first packets => rfl
    simp [raises, nothing]
  · cases packets with
    | nil =>
        rw [List.map_nil, List.flatten_nil] at stream
        exact absurd (List.append_eq_nil_iff.mp stream).1 none_
    | cons first packets =>
        rw [List.map_cons, List.flatten_cons] at stream
        simp only [List.map_cons, beginsIn]
        by_cases fits : 4 ≤ segment.length ∧ segment.length ≤ 4 + first.bytes.length
        · rw [if_pos fits]
          have length := first.length_frame
          have short : segment.length ≤ first.frame.length := by omega
          have isPrefix : segment = first.frame.take segment.length := by
            have taken := congrArg (List.take segment.length) stream
            rw [List.take_left, List.take_append_of_le_length short] at taken
            exact taken
          have streamLater : chunks.flatten = first.frame.drop segment.length ++
              (packets.map Packet.frame).flatten := by
            have dropped := congrArg (List.drop segment.length) stream
            rw [List.drop_left, List.drop_append_of_le_length short] at dropped
            exact dropped
          rcases begin_of_fits complete first fits.1 fits.2 isPrefix with ⟨next, taken, size, whole⟩
          have missing : (first.frame.drop segment.length).length =
              4 + first.bytes.length - segment.length := by
            rw [List.length_drop, length]
          rw [taken, expected_completed size whole packets]
          dsimp only
          rw [← missing, ← later size streamLater]
          rw [← assembles_later_iff]
          constructor
          · rintro ⟨_, packetsLater, final, equal, assembled, all⟩
            cases equal
            exact ⟨packetsLater, final, assembled, all⟩
          · rintro ⟨packetsLater, final, assembled, all⟩
            exact ⟨next, packetsLater, final, rfl, assembled, all⟩
        · rw [if_neg fits]
          rcases doomed_of_begin complete first none_ fits ⟨_, stream⟩ with ⟨next, taken, doomed⟩
          rw [taken]
          simp only [Bool.false_eq_true, iff_false]
          rintro ⟨_, packetsLater, final, equal, assembled, all⟩
          cases equal
          have differs := doomed.firstDiffers assembled
          rw [all] at differs
          exact differs first.bytes rfl rfl

theorem assembles_iff {packet : BaseProtocol} {missing : Bytes} {packets : List Packet}
    {chunks : List Bytes} (size : packet.packetSize = missing.length)
    (stream : chunks.flatten = missing ++ (packets.map Packet.frame).flatten) :
    Assembles packet chunks (expected packet missing packets) ↔
      aligned missing.length (packets.map fun packet => packet.bytes.length)
        (chunks.map List.length) = true := by
  induction chunks generalizing packet missing packets with
  | nil =>
      have nothing := List.append_eq_nil_iff.mp stream.symm
      cases packets with
      | nil => simp [Assembles, assembleAll, expected, aligned, nothing.1]
      | cons first packets =>
          have empty := List.append_eq_nil_iff.mp nothing.2
          exact absurd (congrArg List.length empty.1) (by rw [first.length_frame]; simp)
  | cons chunk chunks induction =>
      rw [List.flatten_cons] at stream
      simp only [List.map_cons, aligned]
      by_cases none_ : missing = []
      · subst none_
        have begins := assembles_begin_iff size stream induction
        simp only [List.length_nil, ne_eq, not_true, false_and, if_false, Nat.sub_zero]
        rw [← begins, expected, if_pos rfl]
        cases taken : takeData chunk packet with
        | none => simp [Assembles, assembleAll, assemble, taken]
        | some answer =>
            rcases answer with ⟨next, rest⟩
            have all : rest = [] := takeData_complete size taken
            subst all
            rw [assembles_cons_iff taken]
            constructor
            · rintro ⟨later, final, isLater, equal⟩
              exact ⟨next, later, final, rfl, isLater, equal⟩
            · rintro ⟨_, later, final, isNext, isLater, equal⟩
              cases isNext
              exact ⟨later, final, isLater, equal⟩
      · have begun : packet.packetSize ≠ 0 := by
          rw [size]
          simpa using none_
        by_cases within_ : chunk.length ≤ missing.length
        · have isPrefix : missing = chunk ++ missing.drop chunk.length := by
            have taken := congrArg (List.take chunk.length) stream
            rw [List.take_left, List.take_append_of_le_length within_] at taken
            conv => enter [2, 1]; rw [taken]
            exact (List.take_append_drop _ _).symm
          have streamLater : chunks.flatten = missing.drop chunk.length ++
              (packets.map Packet.frame).flatten := by
            have dropped := congrArg (List.drop chunk.length) stream
            rw [List.drop_left, List.drop_append_of_le_length within_] at dropped
            exact dropped
          obtain ⟨next, taken, sizeNext, whole⟩ : ∃ next, takeData chunk packet = some (next, []) ∧
              next.packetSize = (missing.drop chunk.length).length ∧
              next.data ++ missing.drop chunk.length = packet.data ++ missing := by
            refine ⟨{ packetSize := packet.packetSize - chunk.length, data := packet.data ++ chunk },
              ?_, ?_, ?_⟩
            · rw [takeData, if_neg begun, size, if_neg (by omega)]
            · rw [size, List.length_drop]
              dsimp only
              omega
            · rw [List.append_assoc, ← isPrefix]
          rw [if_pos ⟨by simpa using none_, within_⟩, ← List.length_drop,
            ← induction sizeNext streamLater, expected, if_neg none_,
            expected_completed sizeNext whole packets, assembles_cons_iff taken,
            assembles_later_iff]
        · have longer : missing.length ≤ chunk.length := by omega
          have isPrefix : chunk.take missing.length = missing := by
            have taken := congrArg (List.take missing.length) stream
            rw [List.take_left, List.take_append_of_le_length longer] at taken
            exact taken
          have streamLater : chunk.drop missing.length ++ chunks.flatten =
              (packets.map Packet.frame).flatten := by
            have dropped := congrArg (List.drop missing.length) stream
            rw [List.drop_left, List.drop_append_of_le_length longer] at dropped
            exact dropped
          have left : chunk.drop missing.length ≠ [] := by
            apply List.ne_nil_of_length_pos
            rw [List.length_drop]
            omega
          have taken : takeData chunk packet =
              some ({ packetSize := 0, data := packet.data ++ missing },
                chunk.drop missing.length) := by
            rw [takeData, if_neg begun, size, if_pos (by omega), sliceTo_natCast,
              sliceFrom_natCast, isPrefix]
          have begins := @assembles_begin_iff { packetSize := 0, data := packet.data ++ missing }
            _ packets chunks rfl streamLater induction
          rw [if_neg (by simp [within_]), ← List.length_drop, ← begins, expected, if_neg none_]
          exact assembles_left_iff taken left

/-- Every packet is handed over once, in order and with its bytes, exactly when the chunks
are aligned with the packets and `handle_packet` never raises. -/
theorem packets_handled_once_iff {State : Type} (handlePacket : HandlePacket State)
    (parent : Parent) (sftp : SFTP State) (packets : List Packet) (chunks : List Bytes)
    (idle : (sftp.packet parent).packetSize = 0)
    (cut : chunks.flatten = (packets.map Packet.frame).flatten) :
    (∃ final, EventRun.run (step handlePacket) sftp (chunks.map (Prod.mk parent)) = some final ∧
      final.calls = sftp.calls ++ packets.map fun packet => (parent, packet.bytes)) ↔
    aligned 0 (packets.map fun packet => packet.bytes.length) (chunks.map List.length) = true ∧
      (handleAll handlePacket parent (packets.map Packet.bytes) sftp.state).isSome := by
  have assembles : Assembles (sftp.packet parent) chunks (packets.map Packet.bytes) ↔
      aligned 0 (packets.map fun packet => packet.bytes.length) (chunks.map List.length) = true :=
    @assembles_iff _ [] packets chunks idle cut
  rw [← assembles, run_eq]
  constructor
  · rintro ⟨final, ran, calls⟩
    rcases Option.bind_eq_some_iff.mp ran with ⟨⟨packet, handed⟩, assembled, onward⟩
    rcases Option.map_eq_some_iff.mp onward with ⟨state, returned, rfl⟩
    have same : handed = packets.map Packet.bytes := by
      apply List.map_injective_iff.mpr (Prod.mk_right_injective parent)
      rw [List.map_map]
      exact List.append_cancel_left calls
    subst same
    exact ⟨⟨packet, assembled⟩, by rw [returned]; rfl⟩
  · rintro ⟨⟨packet, assembled⟩, returns⟩
    rcases Option.isSome_iff_exists.mp returns with ⟨state, returned⟩
    rw [assembled, Option.bind_some]
    dsimp only
    rw [handOver, returned]
    exact ⟨_, rfl, by simp⟩

section Examples

def realpath : Packet := ⟨16, [0, 0, 0, 1, 0, 0, 0, 1, 47], by decide⟩

def stat : Packet := ⟨17, [0, 0, 0, 2, 0, 0, 0, 1, 47], by decide⟩

/-- The second packet begins in the chunk that ends the first one. -/
theorem packets_handled_once_example :
    (∃ final,
      EventRun.run (step fun _ _ state => some state) ({ state := () } : SFTP Unit)
        ([realpath.frame.take 6, realpath.frame.drop 6 ++ stat.frame].map
          (Prod.mk Parent.server)) = some final ∧
      final.calls = [] ++ [realpath, stat].map fun packet => (Parent.server, packet.bytes)) ↔
    aligned 0 ([realpath, stat].map fun packet => packet.bytes.length)
        ([realpath.frame.take 6, realpath.frame.drop 6 ++ stat.frame].map List.length) = true ∧
      (handleAll (fun _ _ state => some state) Parent.server
        ([realpath, stat].map Packet.bytes) ()).isSome := by
  apply packets_handled_once_iff
  · rfl
  · decide

/-- Of two packets in one chunk none is handed over. -/
theorem two_packets_lost :
    [realpath.frame ++ stat.frame].flatten = ([realpath, stat].map Packet.frame).flatten ∧
    ∃ final,
      EventRun.run (step fun _ _ state => some state) ({ state := () } : SFTP Unit)
        ([realpath.frame ++ stat.frame].map (Prod.mk Parent.server)) = some final ∧
      final.calls = [] := by
  constructor
  · decide
  · have assembled : assembleAll {} [realpath.frame ++ stat.frame] =
        some ({ packetSize := -14, data := realpath.bytes ++ stat.frame }, []) := by decide
    rw [run_eq]
    refine ⟨_, Option.bind_eq_some_iff.mpr ⟨_, assembled, rfl⟩, ?_⟩
    rfl

end Examples

end SshProxy

end LlmHoneypot
