import LlmHoneypot.Foundation.Offsets

/-! # Client hellos

`parse_tls_client_hello` of `fingerprint.py`, and the messages that it reads back. -/

namespace LlmHoneypot

namespace Fingerprint

open Offsets

/-! ## Parsing -/

structure ClientHelloFields where
  tlsVersion : Nat
  ciphers : List Nat
  extensions : List Nat := []
  hasSni : Bool := false
  alpn : Option Str := none
  signatureAlgorithms : Option (List Nat) := none
  deriving DecidableEq, Repr

def asciiIgnore (bytes : Bytes) : Str :=
  (bytes.filter (· < 0x80)).map fun byte => Char.ofNat byte.toNat

def readAlpn (data : Bytes) (offset : Nat) (fields : ClientHelloFields) :
    Option ClientHelloFields := do
  let alpnLength ← unpackH data offset
  if 0 < alpnLength ∧ offset + 2 + alpnLength ≤ data.length then
    match slice data (offset + 2) alpnLength with
    | protoLength :: names =>
        if names ≠ [] ∧ 0 < protoLength.toNat ∧ protoLength.toNat ≤ names.length then
          some { fields with alpn := some (asciiIgnore (names.take protoLength.toNat)) }
        else some fields
    | [] => some fields
  else some fields

def readAlgorithms (data : Bytes) (offset : Nat) : (count : Nat) → Option (List Nat)
  | 0 => some []
  | count + 1 =>
      if offset + 2 ≤ data.length then do
        let algorithm ← unpackH data offset
        let algorithms ← readAlgorithms data (offset + 2) count
        some (algorithm :: algorithms)
      else readAlgorithms data (offset + 2) count

def readSignatureAlgorithms (data : Bytes) (offset : Nat) (fields : ClientHelloFields) :
    Option ClientHelloFields := do
  let length ← unpackH data offset
  if 0 < length ∧ offset + 2 + length ≤ data.length then do
    let algorithms ← readAlgorithms data (offset + 2) ((length + 1) / 2)
    some { fields with signatureAlgorithms := some algorithms }
  else some fields

def readExtension (data : Bytes) (offset extType extLength : Nat) (fields : ClientHelloFields) :
    Option ClientHelloFields :=
  let fields := { fields with extensions := fields.extensions ++ [extType] }
  if extType = 0x0000 then some { fields with hasSni := true }
  else if extType = 0x0010 ∧ 2 < extLength then readAlpn data offset fields
  else if extType = 0x000D ∧ 2 < extLength then readSignatureAlgorithms data offset fields
  else some fields

def readExtensions (data : Bytes) (extEnd offset : Nat) (fields : ClientHelloFields) :
    Option ClientHelloFields :=
  if offset < extEnd ∧ offset + 4 ≤ data.length then
    (unpackH data offset).bind fun extType =>
      (unpackH data (offset + 2)).bind fun extLength =>
        if data.length < offset + 4 + extLength then some fields
        else (readExtension data (offset + 4) extType extLength fields).bind
          (readExtensions data extEnd (offset + 4 + extLength))
  else some fields
termination_by extEnd - offset

/-- `none` where the parser returns `None`, which it also does after an exception. -/
def parseTlsClientHello (data : Bytes) : Option ClientHelloFields := do
  guard (43 ≤ data.length)
  guard (data[0]? = some 0x16)
  guard (data[5]? = some 0x01)
  -- the handshake length is skipped
  guard (9 + 35 ≤ data.length)
  let tlsVersion ← unpackH data 9
  let sessionIdLength ← data[43]?
  let offset := 44 + sessionIdLength.toNat
  guard (offset + 2 ≤ data.length)
  let cipherSuitesLength ← unpackH data offset
  guard (offset + 2 + cipherSuitesLength ≤ data.length)
  let ciphers ← unpackList data (offset + 2) ((cipherSuitesLength + 1) / 2)
  let offset := offset + 2 + cipherSuitesLength
  guard (offset + 1 ≤ data.length)
  let compressionLength ← data[offset]?
  let offset := offset + 1 + compressionLength.toNat
  guard (offset + 2 ≤ data.length)
  let extensionsLength ← unpackH data offset
  readExtensions data (offset + 2 + extensionsLength) (offset + 2) { tlsVersion, ciphers }

/-! ## Messages -/

inductive Extension
  | serverName (content : Bytes)
  | alpn (names : List Bytes)
  | signatureAlgorithms (algorithms : List Nat)
  | other (extType : Nat) (content : Bytes)
  deriving DecidableEq, Repr

namespace Extension

def extType : Extension → Nat
  | .serverName _ => 0x0000
  | .alpn _ => 0x0010
  | .signatureAlgorithms _ => 0x000D
  | .other extType _ => extType

def nameList (names : List Bytes) : Bytes :=
  names.flatMap fun name => UInt8.ofNat name.length :: name

def content : Extension → Bytes
  | .serverName content => content
  | .alpn names => BigEndian.encode 2 (nameList names).length ++ nameList names
  | .signatureAlgorithms algorithms =>
      BigEndian.encode 2 (2 * algorithms.length) ++ pack algorithms
  | .other _ content => content

def IsName (name : Bytes) : Prop := name ≠ [] ∧ name.length < 256 ∧ ∀ byte ∈ name, byte < 0x80

/-- The content of the extensions that are read is well formed; all others may be anything. -/
def WellFormed : Extension → Prop
  | .serverName _ => True
  | .alpn names => names ≠ [] ∧ ∀ name ∈ names, IsName name
  | .signatureAlgorithms algorithms =>
      algorithms ≠ [] ∧ ∀ algorithm ∈ algorithms, algorithm < 65536
  | .other extType _ => extType < 65536 ∧ extType ∉ [0x0000, 0x0010, 0x000D]

def bytes (extension : Extension) : Bytes :=
  BigEndian.encode 2 extension.extType ++
    (BigEndian.encode 2 extension.content.length ++ extension.content)

def firstName : Extension → Option Str
  | .alpn (name :: _) => some (name.map fun byte => Char.ofNat byte.toNat)
  | _ => none

def algorithms : Extension → Option (List Nat)
  | .signatureAlgorithms algorithms => some algorithms
  | _ => none

end Extension

structure ClientHello where
  recordVersion : Nat
  version : Nat
  random : Bytes
  sessionId : Bytes
  ciphers : List Nat
  compression : Bytes
  extensions : Option (List Extension)

namespace ClientHello

def extensionBytes (extensions : List Extension) : Bytes := extensions.flatMap Extension.bytes

def extensionBlock : Option (List Extension) → Bytes
  | none => []
  | some extensions =>
      BigEndian.encode 2 (extensionBytes extensions).length ++ extensionBytes extensions

def body (hello : ClientHello) : Bytes :=
  BigEndian.encode 2 hello.version ++ (hello.random ++
    (UInt8.ofNat hello.sessionId.length :: (hello.sessionId ++
      (BigEndian.encode 2 (2 * hello.ciphers.length) ++ (pack hello.ciphers ++
        (UInt8.ofNat hello.compression.length :: (hello.compression ++
          extensionBlock hello.extensions)))))))

/-- The record around the handshake message. -/
def record (hello : ClientHello) : Bytes :=
  0x16 :: (BigEndian.encode 2 hello.recordVersion ++
    (BigEndian.encode 2 (4 + hello.body.length) ++
      (0x01 :: (BigEndian.encode 3 hello.body.length ++ hello.body))))

structure WellFormed (hello : ClientHello) : Prop where
  version : hello.version < 65536
  random : hello.random.length = 32
  sessionId : hello.sessionId.length < 256
  ciphers : hello.ciphers ≠ []
  areCiphers : ∀ cipher ∈ hello.ciphers, cipher < 65536
  cipherRoom : 2 * hello.ciphers.length < 65536
  compression : hello.compression.length < 256
  extensions : ∀ extensions ∈ hello.extensions, (∀ extension ∈ extensions,
      extension.WellFormed ∧ extension.content.length < 65536) ∧
    (extensionBytes extensions).length < 65536 ∧ (extensions.map Extension.extType).Nodup

def fields (hello : ClientHello) : ClientHelloFields where
  tlsVersion := hello.version
  ciphers := hello.ciphers
  extensions := (hello.extensions.getD []).map Extension.extType
  hasSni := 0x0000 ∈ (hello.extensions.getD []).map Extension.extType
  alpn := (hello.extensions.getD []).findSome? Extension.firstName
  signatureAlgorithms := (hello.extensions.getD []).findSome? Extension.algorithms

end ClientHello

/-! ## Reading extensions -/

section

variable {data rest : Bytes} {offset : Nat} {fields : ClientHelloFields}

def note (fields : ClientHelloFields) (extension : Extension) : ClientHelloFields :=
  { fields with
    extensions := fields.extensions ++ [extension.extType]
    hasSni := fields.hasSni || extension.extType = 0x0000
    alpn := extension.firstName.or fields.alpn
    signatureAlgorithms := extension.algorithms.or fields.signatureAlgorithms }

theorem asciiIgnore_name {name : Bytes} (ascii : ∀ byte ∈ name, byte < 0x80) :
    asciiIgnore name = name.map fun byte => Char.ofNat byte.toNat := by
  have kept : name.filter (· < 0x80) = name :=
    List.filter_eq_self.mpr fun byte member => decide_eq_true (ascii byte member)
  rw [asciiIgnore, kept]

theorem readAlpn_names {name : Bytes} {names : List Bytes} (isName : Extension.IsName name)
    (small : (Extension.nameList (name :: names)).length < 65536)
    (here : At data offset ((Extension.alpn (name :: names)).content ++ rest)) :
    readAlpn data offset fields =
      some { fields with alpn := some (name.map fun byte => Char.ofNat byte.toNat) } := by
  rcases isName with ⟨started, short, ascii⟩
  rw [Extension.content, List.append_assoc] at here
  have length := here.unpackH small
  have list := here.skipTo (show offset + 2 = offset + (BigEndian.encode 2
    (Extension.nameList (name :: names)).length).length by rw [BigEndian.length_encode])
  have names' : Extension.nameList (name :: names) =
      UInt8.ofNat name.length :: (name ++ Extension.nameList names) := by
    rw [Extension.nameList, List.flatMap_cons, List.cons_append]
    rfl
  have positive : 0 < (Extension.nameList (name :: names)).length := by
    rw [names']
    exact Nat.succ_pos _
  have isLength : (UInt8.ofNat name.length).toNat = name.length := UInt8.toNat_ofNat_of_lt' short
  have more : name ++ Extension.nameList names ≠ [] :=
    List.append_ne_nil_of_left_ne_nil started _
  have taken : (name ++ Extension.nameList names).take name.length = name := List.take_left
  have room : name.length ≤ (name ++ Extension.nameList names).length := by
    rw [List.length_append]
    exact Nat.le_add_right _ _
  have listed := list.slice
  rw [names'] at listed
  simp only [readAlpn, length, Option.bind_eq_bind, Option.bind_some]
  rw [if_pos ⟨positive, list.room⟩, names', listed]
  simp only [isLength]
  rw [if_pos ⟨more, List.length_pos_of_ne_nil started, room⟩, taken, asciiIgnore_name ascii]

theorem readAlgorithms_pack {algorithms : List Nat}
    (fit : ∀ algorithm ∈ algorithms, algorithm < 65536)
    (here : At data offset (pack algorithms ++ rest)) :
    readAlgorithms data offset algorithms.length = some algorithms := by
  induction algorithms generalizing offset with
  | nil => rfl
  | cons algorithm algorithms induction =>
      rw [pack, List.flatMap_cons, List.append_assoc, ← pack] at here
      have first := here.unpackH (fit algorithm List.mem_cons_self)
      have room := here.room
      rw [BigEndian.length_encode] at room
      have later := induction (fun other member => fit other (List.mem_cons_of_mem _ member))
        (here.skipTo (by rw [BigEndian.length_encode]))
      rw [List.length_cons, readAlgorithms, if_pos room, first, Option.bind_eq_bind,
        Option.bind_some, later]
      rfl

theorem readExtension_content {extension : Extension} (formed : extension.WellFormed)
    (small : extension.content.length < 65536)
    (here : At data offset (extension.content ++ rest)) :
    readExtension data offset extension.extType extension.content.length fields =
      some (note fields extension) := by
  cases extension with
  | serverName content =>
      have known : fields.hasSni || decide ((0 : Nat) = 0) = true := Bool.or_true _
      simp [readExtension, note, Extension.extType, Extension.firstName, Extension.algorithms]
  | alpn names =>
      rcases formed with ⟨started, areNames⟩
      rcases List.exists_cons_of_ne_nil started with ⟨name, more, isNames⟩
      rw [isNames] at small here areNames ⊢
      have listRoom : (Extension.nameList (name :: more)).length < 65536 := by
        rw [Extension.content, List.length_append] at small
        omega
      have long : 2 < (Extension.alpn (name :: more)).content.length := by
        rw [Extension.content, List.length_append, BigEndian.length_encode, Extension.nameList,
          List.flatMap_cons, List.length_append, List.length_cons]
        omega
      have read := @readAlpn_names data rest offset
        { fields with extensions := fields.extensions ++ [0x0010] } name more
        (areNames name List.mem_cons_self) listRoom here
      simp only [readExtension, Extension.extType]
      rw [if_neg (by decide), if_pos ⟨trivial, long⟩, read]
      simp [note, Extension.extType, Extension.firstName, Extension.algorithms]
  | signatureAlgorithms algorithms =>
      rcases formed with ⟨started, fit⟩
      have positive := List.length_pos_of_ne_nil started
      have isLength : (Extension.signatureAlgorithms algorithms).content.length =
          2 + 2 * algorithms.length := by
        rw [Extension.content, List.length_append, BigEndian.length_encode, length_pack]
      have long : 2 < (Extension.signatureAlgorithms algorithms).content.length := by omega
      rw [isLength] at small
      rw [Extension.content, List.append_assoc] at here
      have length := here.unpackH (show 2 * algorithms.length < 65536 by omega)
      have list := here.skipTo (show offset + 2 = offset + (BigEndian.encode 2
        (2 * algorithms.length)).length by rw [BigEndian.length_encode])
      have room := list.room
      rw [length_pack] at room
      have half : (2 * algorithms.length + 1) / 2 = algorithms.length := by omega
      simp only [readExtension, Extension.extType]
      rw [if_neg (by decide), if_neg (by simp), if_pos ⟨trivial, long⟩, readSignatureAlgorithms,
        length, Option.bind_eq_bind, Option.bind_some,
        if_pos ⟨by omega, room⟩, half, readAlgorithms_pack fit list]
      simp [note, Extension.extType, Extension.firstName, Extension.algorithms]
  | other extType content =>
      rcases formed with ⟨-, unknown⟩
      simp only [List.mem_cons, List.not_mem_nil, or_false, not_or] at unknown
      simp [readExtension, note, Extension.extType, Extension.firstName, Extension.algorithms,
        unknown]

theorem readExtensions_bytes {extensions : List Extension}
    (formed : ∀ extension ∈ extensions,
      extension.WellFormed ∧ extension.content.length < 65536 ∧ extension.extType < 65536)
    (here : At data offset (ClientHello.extensionBytes extensions)) :
    readExtensions data (offset + (ClientHello.extensionBytes extensions).length) offset fields =
      some (extensions.foldl note fields) := by
  induction extensions generalizing offset fields with
  | nil =>
      rw [readExtensions, if_neg]
      · rfl
      · intro more
        exact absurd more.1 (lt_irrefl _)
  | cons extension extensions induction =>
      rcases formed extension List.mem_cons_self with ⟨isFormed, small, isType⟩
      have whole : ClientHello.extensionBytes (extension :: extensions) =
          BigEndian.encode 2 extension.extType ++ (BigEndian.encode 2 extension.content.length ++
            (extension.content ++ ClientHello.extensionBytes extensions)) := by
        rw [ClientHello.extensionBytes, List.flatMap_cons, Extension.bytes, List.append_assoc,
          List.append_assoc]
        rfl
      rw [whole] at here
      have extType := here.unpackH isType
      have second := here.skipTo (show offset + 2 = offset +
        (BigEndian.encode 2 extension.extType).length by rw [BigEndian.length_encode])
      have extLength := second.unpackH small
      have third := second.skipTo (show offset + 4 = offset + 2 +
        (BigEndian.encode 2 extension.content.length).length by rw [BigEndian.length_encode])
      have headRoom := second.room
      rw [BigEndian.length_encode] at headRoom
      have last := third.skipTo rfl
      have read := @readExtension_content data _ (offset + 4) fields extension isFormed small third
      have total : (ClientHello.extensionBytes (extension :: extensions)).length =
          4 + extension.content.length + (ClientHello.extensionBytes extensions).length := by
        rw [whole]
        simp only [List.length_append, BigEndian.length_encode]
        omega
      have later := @induction (offset + 4 + extension.content.length) (note fields extension)
        (fun other member => formed other (List.mem_cons_of_mem _ member)) last
      have isEnd : offset + (4 + extension.content.length +
          (ClientHello.extensionBytes extensions).length) =
            offset + 4 + extension.content.length +
              (ClientHello.extensionBytes extensions).length := by omega
      rw [readExtensions, total, if_pos ⟨by omega, headRoom⟩, extType, Option.bind_some, extLength,
        Option.bind_some, if_neg (Nat.not_lt.mpr third.room), read, Option.bind_some, isEnd, later]
      rfl

end

/-! ## Reading messages -/

theorem extType_lt {extension : Extension} (formed : extension.WellFormed) :
    extension.extType < 65536 := by
  cases extension with
  | serverName content => exact Nat.zero_lt_succ _
  | alpn names => exact show 16 < 65536 by decide
  | signatureAlgorithms algorithms => exact show 13 < 65536 by decide
  | other extType content => exact formed.1

theorem findSome?_note {Value : Type} {read : Extension → Option Value} {extType : Nat}
    (only : ∀ extension, read extension ≠ none → extension.extType = extType)
    {extension : Extension} {extensions : List Extension}
    (distinct : ((extension :: extensions).map Extension.extType).Nodup) (before : Option Value) :
    (extensions.findSome? read).or ((read extension).or before) =
      ((extension :: extensions).findSome? read).or before := by
  rw [List.findSome?_cons]
  cases first : read extension with
  | none => rfl
  | some value =>
      have isType := only extension (by rw [first]; exact Option.some_ne_none value)
      have later : extensions.findSome? read = none := by
        refine List.findSome?_eq_none_iff.mpr fun other member => ?_
        by_contra some_
        have same : other.extType = extension.extType := (only other some_).trans isType.symm
        exact (List.nodup_cons.mp distinct).1 (same ▸ List.mem_map_of_mem member)
      rw [later]
      rfl

theorem firstName_extType (extension : Extension) (some_ : extension.firstName ≠ none) :
    extension.extType = 0x0010 := by
  cases extension with
  | alpn names => rfl
  | serverName content => exact absurd rfl some_
  | signatureAlgorithms algorithms => exact absurd rfl some_
  | other extType content => exact absurd rfl some_

theorem algorithms_extType (extension : Extension) (some_ : extension.algorithms ≠ none) :
    extension.extType = 0x000D := by
  cases extension with
  | signatureAlgorithms algorithms => rfl
  | serverName content => exact absurd rfl some_
  | alpn names => exact absurd rfl some_
  | other extType content => exact absurd rfl some_

theorem foldl_note {extensions : List Extension}
    (distinct : (extensions.map Extension.extType).Nodup) (fields : ClientHelloFields) :
    extensions.foldl note fields =
      { fields with
        extensions := fields.extensions ++ extensions.map Extension.extType
        hasSni := fields.hasSni || decide (0x0000 ∈ extensions.map Extension.extType)
        alpn := (extensions.findSome? Extension.firstName).or fields.alpn
        signatureAlgorithms :=
          (extensions.findSome? Extension.algorithms).or fields.signatureAlgorithms } := by
  induction extensions generalizing fields with
  | nil => simp
  | cons extension extensions induction =>
      have names := findSome?_note firstName_extType distinct fields.alpn
      have algorithms := findSome?_note algorithms_extType distinct fields.signatureAlgorithms
      have isSni : (fields.hasSni || decide (extension.extType = 0x0000) ||
          decide (0x0000 ∈ extensions.map Extension.extType)) = (fields.hasSni ||
            decide (0x0000 ∈ (extension :: extensions).map Extension.extType)) := by
        rw [List.map_cons, Bool.or_assoc, ← Bool.decide_or]
        simp only [List.mem_cons, eq_comm]
      rw [List.foldl_cons, induction (List.nodup_cons.mp distinct).2]
      simp only [note, names, algorithms, isSni, List.map_cons, List.append_assoc,
        List.singleton_append]

variable {hello : ClientHello}

theorem parse_record (formed : hello.WellFormed) :
    parseTlsClientHello hello.record = hello.extensions.map fun _ => hello.fields := by
  have whole := At.start hello.record
  have five : At hello.record 5 (0x01 :: (BigEndian.encode 3 hello.body.length ++ hello.body)) := by
    have one : At hello.record 1 (BigEndian.encode 2 hello.recordVersion ++
        (BigEndian.encode 2 (4 + hello.body.length) ++
          (0x01 :: (BigEndian.encode 3 hello.body.length ++ hello.body)))) := whole.next
    have three : At hello.record 3 (BigEndian.encode 2 (4 + hello.body.length) ++
        (0x01 :: (BigEndian.encode 3 hello.body.length ++ hello.body))) :=
      one.skipTo (by rw [BigEndian.length_encode])
    exact three.skipTo (by rw [BigEndian.length_encode])
  have nine : At hello.record 9 hello.body := by
    have six : At hello.record 6 (BigEndian.encode 3 hello.body.length ++ hello.body) := five.next
    exact six.skipTo (by rw [BigEndian.length_encode])
  rw [ClientHello.body] at nine
  have isVersion := nine.unpackH formed.version
  have eleven := nine.skip
  rw [BigEndian.length_encode] at eleven
  have atId := eleven.skip
  rw [formed.random] at atId
  change At hello.record 43 _ at atId
  have idLength : (UInt8.ofNat hello.sessionId.length).toNat = hello.sessionId.length :=
    UInt8.toNat_ofNat_of_lt' formed.sessionId
  have isIdLength := atId.byte
  have atCiphers := atId.next.skip
  change At hello.record (44 + hello.sessionId.length) _ at atCiphers
  have ciphersLength := atCiphers.unpackH formed.cipherRoom
  have inCiphers := atCiphers.skip
  rw [BigEndian.length_encode] at inCiphers
  have ciphersRoom := inCiphers.room
  rw [length_pack] at ciphersRoom
  have ciphers := inCiphers.unpackList formed.areCiphers
  have half : (2 * hello.ciphers.length + 1) / 2 = hello.ciphers.length := by omega
  have atCompression := inCiphers.skip
  rw [length_pack] at atCompression
  have compressionLength : (UInt8.ofNat hello.compression.length).toNat =
      hello.compression.length := UInt8.toNat_ofNat_of_lt' formed.compression
  have isCompressionLength := atCompression.byte
  have inCompression := atCompression.next
  have compressionRoom := inCompression.room
  have atExtensions := inCompression.skip
  have first : hello.record[0]? = some 0x16 := rfl
  have started := List.length_pos_of_ne_nil formed.ciphers
  have room : 9 + 35 ≤ hello.record.length := by omega
  have parsed : parseTlsClientHello hello.record = (do
      let offset := 44 + hello.sessionId.length + 2 + 2 * hello.ciphers.length + 1 +
        hello.compression.length
      guard (offset + 2 ≤ hello.record.length)
      let extensionsLength ← unpackH hello.record offset
      readExtensions hello.record (offset + 2 + extensionsLength) (offset + 2)
        { tlsVersion := hello.version, ciphers := hello.ciphers }) := by
    rw [parseTlsClientHello]
    simp only [guard, first, five.byte, isVersion, isIdLength, idLength, ciphersLength, ciphers,
      half, isCompressionLength, compressionLength, Option.bind_eq_bind, Option.bind_some,
      if_pos (show 43 ≤ hello.record.length by omega), if_pos room, if_true, Option.pure_def,
      if_pos (show 44 + hello.sessionId.length + 2 ≤ hello.record.length by omega),
      if_pos ciphersRoom,
      if_pos ((Nat.le_add_right _ _).trans compressionRoom)]
  rw [parsed]
  cases isBlock : hello.extensions with
  | none =>
      rw [isBlock] at atExtensions
      have ended := atExtensions.inside
      rw [ClientHello.extensionBlock, List.length_nil] at ended
      have short : ¬ 44 + hello.sessionId.length + 2 + 2 * hello.ciphers.length + 1 +
          hello.compression.length + 2 ≤ hello.record.length := by omega
      simp only [guard, if_neg short]
      rfl
  | some extensions =>
      rcases formed.extensions extensions isBlock with ⟨areFormed, blockRoom, distinct⟩
      rw [isBlock, ClientHello.extensionBlock] at atExtensions
      have length := atExtensions.unpackH blockRoom
      have blockStart := atExtensions.room
      have inBlock := atExtensions.skip
      rw [BigEndian.length_encode] at blockStart inBlock
      have read := @readExtensions_bytes hello.record _
        { tlsVersion := hello.version, ciphers := hello.ciphers } extensions
        (fun extension member => ⟨(areFormed extension member).1, (areFormed extension member).2,
          extType_lt (areFormed extension member).1⟩) inBlock
      simp only [guard, if_pos blockStart, Option.pure_def, Option.bind_eq_bind, Option.bind_some,
        length, read]
      rw [foldl_note distinct, Option.map_some, ClientHello.fields, isBlock]
      simp only [List.nil_append, Bool.false_or, Option.or_none, Option.getD_some]

/-- A client hello is read back exactly where it has a block of extensions. -/
theorem parse_record_iff (formed : hello.WellFormed) :
    parseTlsClientHello hello.record = some hello.fields ↔ hello.extensions ≠ none := by
  rw [parse_record formed]
  cases hello.extensions with
  | none => exact ⟨fun same => (Option.some_ne_none _ same.symm).elim, fun some_ => absurd rfl some_⟩
  | some extensions => exact ⟨fun _ => Option.some_ne_none _, fun _ => rfl⟩

def sampleHello : ClientHello where
  recordVersion := 0x0301
  version := 0x0303
  random := List.replicate 32 0
  sessionId := []
  ciphers := [0x1301]
  compression := [0]
  extensions := some [.serverName [0, 1], .alpn [[104, 50]], .signatureAlgorithms [0x0403]]

def bareHello : ClientHello := { sampleHello with extensions := none }

theorem protocols_formed : (Extension.alpn [[104, 50]]).WellFormed := by
  refine ⟨by decide, ?_⟩
  intro name member
  rw [List.mem_singleton.mp member]
  have ascii : [104, 50].all fun byte : UInt8 => decide (byte < 0x80) := by decide
  exact ⟨by decide, by decide, fun byte inside =>
    of_decide_eq_true (List.all_eq_true.mp ascii byte inside)⟩

theorem sampleHello_formed : sampleHello.WellFormed where
  version := by decide
  random := by decide
  sessionId := by decide
  ciphers := by decide
  areCiphers := by decide
  cipherRoom := by decide
  compression := by decide
  extensions := by
    intro extensions isSome
    cases isSome
    refine ⟨?_, by decide, by decide⟩
    intro extension member
    simp only [List.mem_cons, List.not_mem_nil, or_false] at member
    rcases member with same | same | same
    · rw [same]
      exact ⟨trivial, by decide⟩
    · rw [same]
      exact ⟨protocols_formed, by decide⟩
    · rw [same]
      exact ⟨⟨by decide, by decide⟩, by decide⟩

theorem sampleHello_read : parseTlsClientHello sampleHello.record = some sampleHello.fields :=
  (parse_record_iff sampleHello_formed).mpr (by decide)

/-- Without a block of extensions nothing is read. -/
theorem bareHello_unread : ¬ ∀ hello : ClientHello, hello.WellFormed →
    parseTlsClientHello hello.record = some hello.fields := by
  intro all
  have formed : bareHello.WellFormed :=
    { sampleHello_formed with
      extensions := fun extensions isSome => (Option.some_ne_none extensions isSome.symm).elim }
  have read := all bareHello formed
  have unread : parseTlsClientHello bareHello.record = none := by decide +kernel
  rw [unread] at read
  cases read

end Fingerprint

end LlmHoneypot
