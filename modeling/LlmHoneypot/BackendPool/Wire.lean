import LlmHoneypot.Foundation.BigEndian
import LlmHoneypot.Foundation.Unbuffered
import LlmHoneypot.Foundation.Utf8Codec

/-! # Wire protocol of the pool

What `PoolClient` and `PoolServer` send each other, and what each makes of the chunks that
arrive. -/

namespace LlmHoneypot

namespace BackendPool

/-! ## Packing -/

def packUnsigned (width number : Nat) : Option Bytes :=
  if number < 256 ^ width then some (BigEndian.encode width number) else none

def packString (count : Nat) (bytes : Bytes) : Bytes :=
  bytes.take count ++ List.replicate (count - bytes.length) 0

/-- The number at the start of the data. `struct.unpack` raises where bytes are missing. -/
def readUnsigned (width : Nat) (data : Bytes) : Option (Nat × Bytes) :=
  if (data.take width).length = width then
    some (BigEndian.decode (data.take width), data.drop width)
  else none

def readString (count : Nat) (data : Bytes) : Option (Bytes × Bytes) :=
  if (data.take count).length = count then some (data.take count, data.drop count) else none

theorem length_packString (count : Nat) (bytes : Bytes) :
    (packString count bytes).length = count := by
  rw [packString, List.length_append, List.length_take, List.length_replicate]
  omega

theorem packString_eq_iff {count : Nat} {bytes : Bytes} :
    packString count bytes = bytes ↔ bytes.length = count := by
  constructor
  · intro same
    rw [← same, length_packString]
  · intro fits
    rw [packString, List.take_of_length_le (by omega), fits, Nat.sub_self, List.replicate_zero,
      List.append_nil]

theorem packUnsigned_eq_some {width number : Nat} {bytes : Bytes}
    (packed : packUnsigned width number = some bytes) :
    number < 256 ^ width ∧ bytes = BigEndian.encode width number := by
  rw [packUnsigned] at packed
  split at packed
  · next fits => exact ⟨fits, (Option.some.inj packed).symm⟩
  · cases packed

theorem packUnsigned_of_lt {width number : Nat} (fits : number < 256 ^ width) :
    packUnsigned width number = some (BigEndian.encode width number) := if_pos fits

theorem readUnsigned_encode {width number : Nat} (fits : number < 256 ^ width) (rest : Bytes) :
    readUnsigned width (BigEndian.encode width number ++ rest) = some (number, rest) := by
  have taken : (BigEndian.encode width number ++ rest).take width =
      BigEndian.encode width number := List.take_left' (BigEndian.length_encode ..)
  have dropped : (BigEndian.encode width number ++ rest).drop width = rest :=
    List.drop_left' (BigEndian.length_encode ..)
  rw [readUnsigned, taken, dropped, if_pos (BigEndian.length_encode ..),
    BigEndian.decode_encode fits]

theorem readString_append {count : Nat} {bytes : Bytes} (length : bytes.length = count)
    (rest : Bytes) : readString count (bytes ++ rest) = some (bytes, rest) := by
  rw [readString, List.take_left' length, List.drop_left' length, if_pos length]

theorem length_of_readUnsigned {width number : Nat} {data rest : Bytes}
    (read : readUnsigned width data = some (number, rest)) : data.length = width + rest.length := by
  rw [readUnsigned] at read
  split at read
  · next enough =>
      cases read
      rw [List.length_take] at enough
      rw [List.length_drop]
      omega
  · cases read

theorem length_of_readString {count : Nat} {data bytes rest : Bytes}
    (read : readString count data = some (bytes, rest)) :
    data.length = bytes.length + rest.length := by
  rw [readString] at read
  split at read
  · next enough =>
      cases read
      rw [List.length_take, List.length_drop]
      omega
  · cases read

/-! ## Requests -/

inductive Request where
  | initialise (maxVms vmUnusedTimeout : Nat) (shareGuests : Bool)
  | request (srcIp : Str)
  | free (vmId : Nat)
  | reuse (vmId : Nat)
  deriving DecidableEq

def Request.pack : Request → Option Bytes
  | .initialise maxVms vmUnusedTimeout shareGuests => do
      let maxVms ← packUnsigned 4 maxVms
      let vmUnusedTimeout ← packUnsigned 4 vmUnusedTimeout
      return 'i'.toUInt8 :: (maxVms ++ vmUnusedTimeout ++ [if shareGuests then 1 else 0])
  | .request srcIp => do
      let length ← packUnsigned 2 srcIp.length
      return 'r'.toUInt8 :: (length ++ packString srcIp.length (Utf8.encode srcIp))
  | .free vmId => do return 'f'.toUInt8 :: (← packUnsigned 4 vmId)
  | .reuse vmId => do return 'u'.toUInt8 :: (← packUnsigned 4 vmId)

/-- `PoolServer.dataReceived`, as far as it reads; `none` where it raises. -/
def PoolServer.dataReceived : Bytes → Option (Option Request)
  | [] => none
  | op :: data =>
      if op = 'i'.toUInt8 then do
        let (maxVm, rest) ← readUnsigned 4 data
        let (vmUnusedTimeout, rest) ← readUnsigned 4 rest
        match rest with
        | [shareGuests] => some (some (.initialise maxVm vmUnusedTimeout (shareGuests ≠ 0)))
        | _ => none
      else if op = 'r'.toUInt8 then do
        let (ipLen, rest) ← readUnsigned 2 data
        if rest.length = ipLen then (Utf8.decode rest).map fun attackerIp => some (.request attackerIp)
        else none
      else if op = 'f'.toUInt8 then do
        let (guestId, rest) ← readUnsigned 4 data
        if rest = [] then some (some (.free guestId)) else none
      else if op = 'u'.toUInt8 then do
        let (guestId, rest) ← readUnsigned 4 data
        if rest = [] then some (some (.reuse guestId)) else none
      else some none

/-! ## Responses -/

inductive Response where
  | initialised (code : Nat)
  | failed (code : Nat)
  | guest (guestId : Nat) (guestIp : Str) (sshPort telnetPort : Nat) (guestSnapshot : Str)

def Response.pack : Response → Option Bytes
  | .initialised code => do return 'i'.toUInt8 :: (← packUnsigned 4 code)
  | .failed code => do return 'r'.toUInt8 :: (← packUnsigned 4 code)
  | .guest guestId guestIp sshPort telnetPort guestSnapshot => do
      let guestId ← packUnsigned 4 guestId
      let ipLength ← packUnsigned 2 guestIp.length
      let sshPort ← packUnsigned 2 sshPort
      let telnetPort ← packUnsigned 2 telnetPort
      let snapshotLength ← packUnsigned 2 guestSnapshot.length
      return 'r'.toUInt8 :: (BigEndian.encode 4 0 ++ (guestId ++ (ipLength ++
        (packString guestIp.length (Utf8.encode guestIp) ++ (sshPort ++ (telnetPort ++
          (snapshotLength ++ packString guestSnapshot.length (Utf8.encode guestSnapshot))))))))

/-- What the client has of a response; it does not decode the strings. -/
inductive Reply where
  | initialised (code : Nat)
  | failed (code : Nat)
  | guest (vmId : Nat) (honeyIp : Bytes) (sshPort telnetPort : Nat) (snapshot : Bytes)
  deriving DecidableEq

def Response.reply : Response → Reply
  | .initialised code => .initialised code
  | .failed code => .failed code
  | .guest guestId guestIp sshPort telnetPort guestSnapshot =>
      .guest guestId (Utf8.encode guestIp) sshPort telnetPort (Utf8.encode guestSnapshot)

def PoolClient.readGuest (data : Bytes) : Option Reply := do
  let (vmId, data) ← readUnsigned 4 data
  let (ipLen, data) ← readUnsigned 2 data
  let (honeyIp, data) ← readString ipLen data
  let (sshPort, data) ← readUnsigned 2 data
  let (telnetPort, data) ← readUnsigned 2 data
  let (snapshotLen, data) ← readUnsigned 2 data
  let (snapshot, _) ← readString snapshotLen data
  return .guest vmId honeyIp sshPort telnetPort snapshot

/-- `PoolClient.dataReceived`: without a parent the data is discarded, and so is what
follows the response in a chunk. -/
def PoolClient.dataReceived (parent : Bool) (data : Bytes) : Option (Option Reply) :=
  if ¬ parent then some none
  else
    match data with
    | [] => none
    | op :: data =>
        match readUnsigned 4 data with
        | none => none
        | some (code, data) =>
            if op = 'i'.toUInt8 then some (some (.initialised code))
            else if op = 'r'.toUInt8 then
              if code ≠ 0 then some (some (.failed code)) else (readGuest data).map some
            else some none

/-! ## Requests are read -/

def OneByte (text : Str) : Prop := (Utf8.encode text).length = text.length

instance (text : Str) : Decidable (OneByte text) := inferInstanceAs (Decidable (_ = _))

namespace Request

def Plain : Request → Prop
  | .initialise maxVms vmUnusedTimeout _ => maxVms < 256 ^ 4 ∧ vmUnusedTimeout < 256 ^ 4
  | .request srcIp => srcIp.length < 256 ^ 2 ∧ OneByte srcIp
  | .free vmId => vmId < 256 ^ 4
  | .reuse vmId => vmId < 256 ^ 4

/-- What is written; nothing where packing raises. -/
def encode (request : Request) : Bytes := request.pack.getD []

/-- How many bytes a server reads for the message. -/
def size : Request → Nat
  | .initialise .. => 10
  | .request srcIp => 3 + (Utf8.encode srcIp).length
  | .free _ => 5
  | .reuse _ => 5

def packedSize : Request → Nat
  | .initialise .. => 10
  | .request srcIp => 3 + srcIp.length
  | .free _ => 5
  | .reuse _ => 5

theorem length_pack {request : Request} {bytes : Bytes} (packed : request.pack = some bytes) :
    bytes.length = request.packedSize := by
  cases request with
  | initialise maxVms vmUnusedTimeout shareGuests =>
      rcases Option.bind_eq_some_iff.mp packed with ⟨first, isFirst, packed⟩
      rcases Option.bind_eq_some_iff.mp packed with ⟨second, isSecond, packed⟩
      cases packed
      rw [(packUnsigned_eq_some isFirst).2, (packUnsigned_eq_some isSecond).2]
      simp [packedSize]
  | request srcIp =>
      rcases Option.bind_eq_some_iff.mp packed with ⟨length, isLength, packed⟩
      cases packed
      rw [(packUnsigned_eq_some isLength).2, List.length_cons, List.length_append,
        length_packString, BigEndian.length_encode, packedSize]
      omega
  | free vmId =>
      rcases Option.bind_eq_some_iff.mp packed with ⟨id, isId, packed⟩
      cases packed
      rw [(packUnsigned_eq_some isId).2]
      simp [packedSize]
  | reuse vmId =>
      rcases Option.bind_eq_some_iff.mp packed with ⟨id, isId, packed⟩
      cases packed
      rw [(packUnsigned_eq_some isId).2]
      simp [packedSize]

theorem length_encode_le (request : Request) : request.encode.length ≤ request.size := by
  rw [encode]
  cases packed : request.pack with
  | none => exact Nat.zero_le _
  | some bytes =>
      rw [Option.getD_some, length_pack packed]
      cases request with
      | request srcIp => exact Nat.add_le_add_left (Utf8.length_le_length_encode srcIp) 3
      | _ => exact Nat.le_refl _

end Request

namespace PoolServer

theorem size_le {data : Bytes} {request : Request}
    (taken : dataReceived data = some (some request)) : request.size ≤ data.length := by
  cases data with
  | nil => cases taken
  | cons op data =>
      rw [dataReceived] at taken
      rw [List.length_cons]
      split at taken
      · rcases Option.bind_eq_some_iff.mp taken with ⟨⟨maxVm, rest⟩, first, taken⟩
        rcases Option.bind_eq_some_iff.mp taken with ⟨⟨timeout, rest⟩, second, taken⟩
        dsimp only at taken
        split at taken
        · cases taken
          have := length_of_readUnsigned first
          have := length_of_readUnsigned second
          rw [Request.size]
          simp only [List.length_cons, List.length_nil] at *
          omega
        · cases taken
      · split at taken
        · rcases Option.bind_eq_some_iff.mp taken with ⟨⟨ipLen, rest⟩, first, taken⟩
          dsimp only at taken
          split at taken
          · rcases Option.map_eq_some_iff.mp taken with ⟨attackerIp, decoded, same⟩
            cases same
            have := length_of_readUnsigned first
            have := Utf8.length_encode_le decoded
            rw [Request.size]
            omega
          · cases taken
        · split at taken
          · rcases Option.bind_eq_some_iff.mp taken with ⟨⟨guestId, rest⟩, first, taken⟩
            dsimp only at taken
            split at taken
            · cases taken
              have := length_of_readUnsigned first
              rw [Request.size]
              omega
            · cases taken
          · split at taken
            · rcases Option.bind_eq_some_iff.mp taken with ⟨⟨guestId, rest⟩, first, taken⟩
              dsimp only at taken
              split at taken
              · cases taken
                have := length_of_readUnsigned first
                rw [Request.size]
                omega
              · cases taken
            · cases taken

theorem dataReceived_encode {request : Request} (plain : request.Plain) :
    dataReceived request.encode = some (some request) := by
  cases request with
  | initialise maxVms vmUnusedTimeout shareGuests =>
      have bytes : (Request.initialise maxVms vmUnusedTimeout shareGuests).encode =
          'i'.toUInt8 :: (BigEndian.encode 4 maxVms ++ (BigEndian.encode 4 vmUnusedTimeout ++
            [if shareGuests then 1 else 0])) := by
        rw [Request.encode, Request.pack, packUnsigned_of_lt plain.1, packUnsigned_of_lt plain.2,
          ← List.append_assoc]
        rfl
      rw [bytes, dataReceived, if_pos rfl, readUnsigned_encode plain.1]
      dsimp only [Option.bind_eq_bind, Option.bind_some]
      rw [readUnsigned_encode plain.2]
      dsimp only [Option.bind_some]
      cases shareGuests with
      | false => rfl
      | true => rfl
  | request srcIp =>
      have same : packString srcIp.length (Utf8.encode srcIp) = Utf8.encode srcIp :=
        packString_eq_iff.mpr plain.2
      have bytes : (Request.request srcIp).encode =
          'r'.toUInt8 :: (BigEndian.encode 2 srcIp.length ++ Utf8.encode srcIp) := by
        rw [Request.encode, Request.pack, packUnsigned_of_lt plain.1, same]
        rfl
      have length : (Utf8.encode srcIp).length = srcIp.length := plain.2
      rw [bytes, dataReceived, if_neg (by decide), if_pos rfl, readUnsigned_encode plain.1]
      dsimp only [Option.bind_eq_bind, Option.bind_some]
      rw [if_pos length, Utf8.decode_encode]
      rfl
  | free vmId =>
      have fits : vmId < 256 ^ 4 := plain
      have bytes : (Request.free vmId).encode =
          'f'.toUInt8 :: (BigEndian.encode 4 vmId ++ []) := by
        rw [Request.encode, Request.pack, packUnsigned_of_lt fits, List.append_nil]
        rfl
      rw [bytes, dataReceived, if_neg (by decide), if_neg (by decide), if_pos rfl,
        readUnsigned_encode fits]
      rfl
  | reuse vmId =>
      have fits : vmId < 256 ^ 4 := plain
      have bytes : (Request.reuse vmId).encode =
          'u'.toUInt8 :: (BigEndian.encode 4 vmId ++ []) := by
        rw [Request.encode, Request.pack, packUnsigned_of_lt fits, List.append_nil]
        rfl
      rw [bytes, dataReceived, if_neg (by decide), if_neg (by decide), if_neg (by decide),
        if_pos rfl, readUnsigned_encode fits]
      rfl

theorem reads_iff (request : Request) :
    dataReceived request.encode = some (some request) ↔ request.Plain := by
  refine ⟨?_, dataReceived_encode⟩
  intro read
  have size := size_le read
  cases packed : request.pack with
  | none =>
      rw [Request.encode, packed] at read
      cases read
  | some bytes =>
      have length := Request.length_pack packed
      rw [Request.encode, packed, Option.getD_some] at size
      cases request with
      | initialise maxVms vmUnusedTimeout shareGuests =>
          rcases Option.bind_eq_some_iff.mp packed with ⟨first, isFirst, packed⟩
          rcases Option.bind_eq_some_iff.mp packed with ⟨second, isSecond, _⟩
          exact ⟨(packUnsigned_eq_some isFirst).1, (packUnsigned_eq_some isSecond).1⟩
      | request srcIp =>
          rcases Option.bind_eq_some_iff.mp packed with ⟨count, isCount, _⟩
          have longer := Utf8.length_le_length_encode srcIp
          refine ⟨(packUnsigned_eq_some isCount).1, ?_⟩
          rw [Request.size] at size
          rw [Request.packedSize] at length
          rw [OneByte]
          omega
      | free vmId =>
          rcases Option.bind_eq_some_iff.mp packed with ⟨id, isId, _⟩
          exact (packUnsigned_eq_some isId).1
      | reuse vmId =>
          rcases Option.bind_eq_some_iff.mp packed with ⟨id, isId, _⟩
          exact (packUnsigned_eq_some isId).1

end PoolServer

/-! ## Responses are read -/

namespace Response

def Plain : Response → Prop
  | .initialised code => code < 256 ^ 4
  | .failed code => 0 < code ∧ code < 256 ^ 4
  | .guest guestId guestIp sshPort telnetPort guestSnapshot =>
      guestId < 256 ^ 4 ∧ guestIp.length < 256 ^ 2 ∧ sshPort < 256 ^ 2 ∧ telnetPort < 256 ^ 2 ∧
        guestSnapshot.length < 256 ^ 2 ∧ OneByte guestIp ∧ OneByte guestSnapshot

def encode (response : Response) : Bytes := response.pack.getD []

/-- How many bytes a client reads for the message. -/
def size : Response → Nat
  | .initialised _ => 5
  | .failed _ => 5
  | .guest _ guestIp _ _ guestSnapshot =>
      17 + (Utf8.encode guestIp).length + (Utf8.encode guestSnapshot).length

def packedSize : Response → Nat
  | .initialised _ => 5
  | .failed _ => 5
  | .guest _ guestIp _ _ guestSnapshot => 17 + guestIp.length + guestSnapshot.length

theorem pack_guest {guestId sshPort telnetPort : Nat} {guestIp guestSnapshot : Str} {bytes : Bytes}
    (packed : (guest guestId guestIp sshPort telnetPort guestSnapshot).pack = some bytes) :
    (guestId < 256 ^ 4 ∧ guestIp.length < 256 ^ 2 ∧ sshPort < 256 ^ 2 ∧ telnetPort < 256 ^ 2 ∧
        guestSnapshot.length < 256 ^ 2) ∧
      bytes = 'r'.toUInt8 :: (BigEndian.encode 4 0 ++ (BigEndian.encode 4 guestId ++
        (BigEndian.encode 2 guestIp.length ++ (packString guestIp.length (Utf8.encode guestIp) ++
          (BigEndian.encode 2 sshPort ++ (BigEndian.encode 2 telnetPort ++
            (BigEndian.encode 2 guestSnapshot.length ++
              packString guestSnapshot.length (Utf8.encode guestSnapshot)))))))) := by
  rcases Option.bind_eq_some_iff.mp packed with ⟨id, isId, packed⟩
  rcases Option.bind_eq_some_iff.mp packed with ⟨ipLength, isIpLength, packed⟩
  rcases Option.bind_eq_some_iff.mp packed with ⟨ssh, isSsh, packed⟩
  rcases Option.bind_eq_some_iff.mp packed with ⟨telnet, isTelnet, packed⟩
  rcases Option.bind_eq_some_iff.mp packed with ⟨snapshotLength, isSnapshotLength, packed⟩
  cases packed
  rcases packUnsigned_eq_some isId with ⟨idFits, rfl⟩
  rcases packUnsigned_eq_some isIpLength with ⟨ipFits, rfl⟩
  rcases packUnsigned_eq_some isSsh with ⟨sshFits, rfl⟩
  rcases packUnsigned_eq_some isTelnet with ⟨telnetFits, rfl⟩
  rcases packUnsigned_eq_some isSnapshotLength with ⟨snapshotFits, rfl⟩
  exact ⟨⟨idFits, ipFits, sshFits, telnetFits, snapshotFits⟩, rfl⟩

theorem length_pack {response : Response} {bytes : Bytes} (packed : response.pack = some bytes) :
    bytes.length = response.packedSize := by
  cases response with
  | initialised code =>
      rcases Option.bind_eq_some_iff.mp packed with ⟨first, isFirst, packed⟩
      cases packed
      rw [(packUnsigned_eq_some isFirst).2]
      simp [packedSize]
  | failed code =>
      rcases Option.bind_eq_some_iff.mp packed with ⟨first, isFirst, packed⟩
      cases packed
      rw [(packUnsigned_eq_some isFirst).2]
      simp [packedSize]
  | guest guestId guestIp sshPort telnetPort guestSnapshot =>
      rw [(pack_guest packed).2, packedSize]
      simp only [List.length_cons, List.length_append, length_packString, BigEndian.length_encode]
      omega

theorem length_encode_le (response : Response) : response.encode.length ≤ response.size := by
  rw [encode]
  cases packed : response.pack with
  | none => exact Nat.zero_le _
  | some bytes =>
      rw [Option.getD_some, length_pack packed]
      cases response with
      | guest guestId guestIp sshPort telnetPort guestSnapshot =>
          have := Utf8.length_le_length_encode guestIp
          have := Utf8.length_le_length_encode guestSnapshot
          rw [packedSize, size]
          omega
      | _ => exact Nat.le_refl _

end Response

namespace PoolClient

theorem length_of_readGuest {data honeyIp snapshot : Bytes} {vmId sshPort telnetPort : Nat}
    (read : readGuest data = some (.guest vmId honeyIp sshPort telnetPort snapshot)) :
    12 + honeyIp.length + snapshot.length ≤ data.length := by
  rcases Option.bind_eq_some_iff.mp read with ⟨⟨id, data1⟩, isId, read⟩
  rcases Option.bind_eq_some_iff.mp read with ⟨⟨ipLen, data2⟩, isIpLen, read⟩
  rcases Option.bind_eq_some_iff.mp read with ⟨⟨ip, data3⟩, isIp, read⟩
  rcases Option.bind_eq_some_iff.mp read with ⟨⟨ssh, data4⟩, isSsh, read⟩
  rcases Option.bind_eq_some_iff.mp read with ⟨⟨telnet, data5⟩, isTelnet, read⟩
  rcases Option.bind_eq_some_iff.mp read with ⟨⟨snapshotLen, data6⟩, isSnapshotLen, read⟩
  rcases Option.bind_eq_some_iff.mp read with ⟨⟨path, data7⟩, isPath, read⟩
  cases read
  have := length_of_readUnsigned isId
  have := length_of_readUnsigned isIpLen
  have := length_of_readString isIp
  have := length_of_readUnsigned isSsh
  have := length_of_readUnsigned isTelnet
  have := length_of_readUnsigned isSnapshotLen
  have := length_of_readString isPath
  omega

theorem size_le {parent : Bool} {data : Bytes} {response : Response}
    (taken : dataReceived parent data = some (some response.reply)) :
    response.size ≤ data.length := by
  rw [dataReceived.eq_def] at taken
  split at taken
  · cases taken
  · split at taken
    · cases taken
    · next op data =>
        rw [List.length_cons]
        split at taken
        · cases taken
        · next code rest isCode =>
            have header := length_of_readUnsigned isCode
            cases response with
            | initialised code =>
                rw [Response.size]
                omega
            | failed code =>
                rw [Response.size]
                omega
            | guest guestId guestIp sshPort telnetPort guestSnapshot =>
                split at taken
                · cases taken
                · split at taken
                  · split at taken
                    · cases taken
                    · rcases Option.map_eq_some_iff.mp taken with ⟨reply, read, same⟩
                      cases same
                      have := length_of_readGuest read
                      rw [Response.size]
                      omega
                  · cases taken

theorem readGuest_append {guestId sshPort telnetPort : Nat} {honeyIp snapshot : Bytes}
    (fits : guestId < 256 ^ 4 ∧ honeyIp.length < 256 ^ 2 ∧ sshPort < 256 ^ 2 ∧
      telnetPort < 256 ^ 2 ∧ snapshot.length < 256 ^ 2) :
    readGuest (BigEndian.encode 4 guestId ++ (BigEndian.encode 2 honeyIp.length ++ (honeyIp ++
        (BigEndian.encode 2 sshPort ++ (BigEndian.encode 2 telnetPort ++
          (BigEndian.encode 2 snapshot.length ++ snapshot)))))) =
      some (.guest guestId honeyIp sshPort telnetPort snapshot) := by
  have whole := readString_append (rfl : snapshot.length = snapshot.length) []
  rw [List.append_nil] at whole
  rw [readGuest, readUnsigned_encode fits.1]
  dsimp only [Option.bind_eq_bind, Option.bind_some]
  rw [readUnsigned_encode fits.2.1]
  dsimp only [Option.bind_some]
  rw [readString_append rfl]
  dsimp only [Option.bind_some]
  rw [readUnsigned_encode fits.2.2.1]
  dsimp only [Option.bind_some]
  rw [readUnsigned_encode fits.2.2.2.1]
  dsimp only [Option.bind_some]
  rw [readUnsigned_encode fits.2.2.2.2]
  dsimp only [Option.bind_some]
  rw [whole]
  rfl

theorem dataReceived_encode {response : Response} (plain : response.Plain) :
    dataReceived true response.encode = some (some response.reply) := by
  cases response with
  | initialised code =>
      have fits : code < 256 ^ 4 := plain
      have bytes : (Response.initialised code).encode =
          'i'.toUInt8 :: (BigEndian.encode 4 code ++ []) := by
        rw [Response.encode, Response.pack, packUnsigned_of_lt fits, List.append_nil]
        rfl
      rw [bytes, dataReceived, if_neg (by decide), readUnsigned_encode fits]
      rfl
  | failed code =>
      have bytes : (Response.failed code).encode =
          'r'.toUInt8 :: (BigEndian.encode 4 code ++ []) := by
        rw [Response.encode, Response.pack, packUnsigned_of_lt plain.2, List.append_nil]
        rfl
      rw [bytes, dataReceived, if_neg (by decide), readUnsigned_encode plain.2]
      dsimp only
      rw [if_neg (by decide), if_pos rfl, if_pos (Nat.ne_of_gt plain.1)]
      rfl
  | guest guestId guestIp sshPort telnetPort guestSnapshot =>
      rcases plain with ⟨idFits, ipFits, sshFits, telnetFits, snapshotFits, oneIp, oneSnapshot⟩
      have packed : (Response.guest guestId guestIp sshPort telnetPort guestSnapshot).pack ≠ none := by
        rw [Response.pack, packUnsigned_of_lt idFits, packUnsigned_of_lt ipFits,
          packUnsigned_of_lt sshFits, packUnsigned_of_lt telnetFits,
          packUnsigned_of_lt snapshotFits]
        exact Option.some_ne_none _
      rcases Option.ne_none_iff_exists'.mp packed with ⟨bytes, isBytes⟩
      have sameIp := packString_eq_iff.mpr oneIp
      have sameSnapshot := packString_eq_iff.mpr oneSnapshot
      rw [Response.encode, isBytes, Option.getD_some, (Response.pack_guest isBytes).2, sameIp,
        sameSnapshot, ← oneIp, ← oneSnapshot, dataReceived, if_neg (by decide),
        readUnsigned_encode (by decide)]
      dsimp only
      rw [if_neg (by decide), if_pos rfl, if_neg (by decide), readGuest_append]
      · rfl
      · rw [oneIp, oneSnapshot]
        exact ⟨idFits, ipFits, sshFits, telnetFits, snapshotFits⟩

theorem reads_iff (response : Response) :
    dataReceived true response.encode = some (some response.reply) ↔ response.Plain := by
  refine ⟨?_, dataReceived_encode⟩
  intro read
  have size := size_le read
  cases packed : response.pack with
  | none =>
      rw [Response.encode, packed] at read
      cases read
  | some bytes =>
      have length := Response.length_pack packed
      rw [Response.encode, packed, Option.getD_some] at size read
      cases response with
      | initialised code =>
          rcases Option.bind_eq_some_iff.mp packed with ⟨first, isFirst, _⟩
          exact (packUnsigned_eq_some isFirst).1
      | failed code =>
          rcases Option.bind_eq_some_iff.mp packed with ⟨first, isFirst, isBytes⟩
          rcases packUnsigned_eq_some isFirst with ⟨fits, rfl⟩
          refine ⟨Nat.pos_of_ne_zero ?_, fits⟩
          -- a failure with code 0 is read as a guest
          rintro rfl
          cases isBytes
          exact absurd read (by decide)
      | guest guestId guestIp sshPort telnetPort guestSnapshot =>
          rcases (Response.pack_guest packed).1 with
            ⟨idFits, ipFits, sshFits, telnetFits, snapshotFits⟩
          have longerIp := Utf8.length_le_length_encode guestIp
          have longerSnapshot := Utf8.length_le_length_encode guestSnapshot
          rw [Response.size] at size
          rw [Response.packedSize] at length
          refine ⟨idFits, ipFits, sshFits, telnetFits, snapshotFits, ?_, ?_⟩
          · rw [OneByte]
            omega
          · rw [OneByte]
            omega

end PoolClient

/-! ## Streams -/

/-- Of the messages of either side all are received, in order and with equal fields, exactly
when each chunk is one message, each field can carry its value, and the client has a
parent. -/
theorem received_iff (parent : Bool) (requests : List Request) (responses : List Response)
    (toServer toClient : List Bytes) (serverChunks : ∀ chunk ∈ toServer, chunk ≠ [])
    (clientChunks : ∀ chunk ∈ toClient, chunk ≠ [])
    (serverStream : toServer.flatten = requests.flatMap Request.encode)
    (clientStream : toClient.flatten = responses.flatMap Response.encode) :
    (Unbuffered.received PoolServer.dataReceived toServer = requests ↔
      toServer = requests.map Request.encode ∧ ∀ request ∈ requests, request.Plain) ∧
    (Unbuffered.received (PoolClient.dataReceived parent) toClient =
        responses.map Response.reply ↔
      toClient = responses.map Response.encode ∧
        ∀ response ∈ responses, parent = true ∧ response.Plain) := by
  constructor
  · have cost : ∀ chunk request, PoolServer.dataReceived chunk = some (some (id request)) →
        request.encode.length ≤ chunk.length := fun chunk request taken =>
      Nat.le_trans (Request.length_encode_le request) (PoolServer.size_le taken)
    have all := Unbuffered.receives_iff cost serverChunks serverStream
    rw [List.map_id] at all
    rw [all]
    apply and_congr_right
    intro _
    apply forall₂_congr
    intro request _
    exact PoolServer.reads_iff request
  · have cost : ∀ chunk (response : Response),
        PoolClient.dataReceived parent chunk = some (some response.reply) →
          response.encode.length ≤ chunk.length := fun chunk response taken =>
      Nat.le_trans (Response.length_encode_le response) (PoolClient.size_le taken)
    rw [Unbuffered.receives_iff cost clientChunks clientStream]
    apply and_congr_right
    intro _
    apply forall₂_congr
    intro response _
    cases parent with
    | false =>
        constructor
        · intro taken
          cases taken
        · rintro ⟨isParent, _⟩
          cases isParent
    | true => rw [PoolClient.reads_iff, and_iff_right rfl]

section Examples

def requests : List Request := [.request "198.51.100.7".toList, .free 7]

def responses : List Response :=
  [.initialised 0, .guest 7 "192.168.150.7".toList 22 23 "/tmp/snapshot".toList]

theorem received_iff_example :
    (Unbuffered.received PoolServer.dataReceived (requests.map Request.encode) = requests ↔
        requests.map Request.encode = requests.map Request.encode ∧
          ∀ request ∈ requests, request.Plain) ∧
      (Unbuffered.received (PoolClient.dataReceived true) [responses.flatMap Response.encode] =
          responses.map Response.reply ↔
        [responses.flatMap Response.encode] = responses.map Response.encode ∧
          ∀ response ∈ responses, true = true ∧ response.Plain) :=
  received_iff true requests responses (requests.map Request.encode)
    [responses.flatMap Response.encode] (by decide) (by decide) (by decide) (by decide)

/-- Two messages that arrive in one chunk: the server raises, and the client does not see
the second one. -/
theorem coalesced_messages_lost :
    Unbuffered.received PoolServer.dataReceived [requests.flatMap Request.encode] = [] ∧
      Unbuffered.received (PoolClient.dataReceived true) [responses.flatMap Response.encode] =
        [.initialised 0] ∧
      requests.length = 2 ∧ responses.length = 2 := by
  decide

end Examples

end BackendPool

end LlmHoneypot
