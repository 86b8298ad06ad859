import LlmHoneypot.Foundation.Text

/-! # Internet addresses

Addresses and networks of both families, their texts as Python's `ipaddress` reads
them, and the addresses that a connection really goes to. -/

namespace LlmHoneypot

inductive IPAddress
  | v4 (address : BitVec 32)
  | v6 (address : BitVec 128)
  deriving DecidableEq, Repr

namespace IPAddress

/-! ## Texts -/

def digitValue (ch : Char) : Nat :=
  if ch.isDigit then ch.toNat - '0'.toNat
  else if 'a' ≤ ch ∧ ch ≤ 'f' then ch.toNat - 'a'.toNat + 10
  else ch.toNat - 'A'.toNat + 10

def numberOf (base : Nat) (digits : Str) : Nat :=
  digits.foldl (fun value ch => value * base + digitValue ch) 0

def isHexDigit (ch : Char) : Bool :=
  ch.isDigit || ('a' ≤ ch && ch ≤ 'f') || ('A' ≤ ch && ch ≤ 'F')

def octet? (text : Str) : Option Nat :=
  if text = [] ∨ ¬ text.all Char.isDigit ∨ 3 < text.length then none
  else if text ≠ ['0'] ∧ text.head? = some '0' then none
  else
    let value := numberOf 10 text
    if 255 < value then none else some value

def quad (a b c d : Nat) : Nat := ((a * 256 + b) * 256 + c) * 256 + d

def ipv4? (text : Str) : Option (BitVec 32) :=
  match (Text.splitChar '.' text).map octet? with
  | [some a, some b, some c, some d] => some (BitVec.ofNat 32 (quad a b c d))
  | _ => none

def hextet? (text : Str) : Option Nat :=
  if text = [] ∨ ¬ text.all isHexDigit ∨ 4 < text.length then none
  else some (numberOf 16 text)

def hextets (parts : List Str) : Option (List Nat) := parts.mapM hextet?

def valueOf (groups : List Nat) : BitVec 128 :=
  BitVec.ofNat 128 (groups.foldl (fun value group => value * 65536 + group) 0)

/-- The position of the `::`, which is a part that is empty and neither first nor
last; `none` when there are two. -/
def skipIndex (parts : List Str) : Option (Option Nat) :=
  match (List.range parts.length).filter
      fun index => 0 < index && index + 1 < parts.length && parts[index]? == some [] with
  | [] => some none
  | [index] => some (some index)
  | _ => none

def sideGroups (parts : List Str) : Option (List Nat) :=
  if parts = [[]] then some [] else hextets parts

def groups (parts : List Str) : Option (List Nat) :=
  match skipIndex parts with
  | none => none
  | some none => if parts.length = 8 then hextets parts else none
  | some (some index) => do
      let high ← sideGroups (parts.take index)
      let low ← sideGroups (parts.drop (index + 1))
      if high.length + low.length < 8 then
        some (high ++ List.replicate (8 - (high.length + low.length)) 0 ++ low)
      else none

def colonParts (text : Str) : Option (List Str) :=
  let parts := Text.splitChar ':' text
  let last := parts.getLast?.getD []
  if parts.length < 3 then none
  else if '.' ∈ last then
    (ipv4? last).map fun address =>
      parts.dropLast ++
        [Nat.toDigits 16 (address.toNat / 65536), Nat.toDigits 16 (address.toNat % 65536)]
  else some parts

def withoutScope (text : Str) : Option Str :=
  match Text.before? "%".toList text, Text.after? "%".toList text with
  | some address, some scope => if scope = [] ∨ '%' ∈ scope then none else some address
  | _, _ => some text

def ipv6? (text : Str) : Option (BitVec 128) := do
  let address ← withoutScope text
  let parts ← colonParts address
  if '/' ∈ text ∨ 9 < parts.length then none
  else (groups parts).map valueOf

/-- `ipaddress.ip_address(text)`; `none` where it raises `ValueError`. -/
def ofText? (text : Str) : Option IPAddress :=
  ((ipv4? text).map .v4).or ((ipv6? text).map .v6)

/-! ## Networks -/

structure Network where
  address : IPAddress
  length : Nat
  deriving DecidableEq, Repr

/-- `ipaddress.ip_network(text, strict=False)` for a prefix length in decimal. -/
def Network.ofText? (text : Str) : Option Network :=
  let address := (Text.before? "/".toList text).getD text
  match IPAddress.ofText? address, Text.after? "/".toList text with
  | some (.v4 address), none => some ⟨.v4 address, 32⟩
  | some (.v6 address), none => some ⟨.v6 address, 128⟩
  | some address, some length => some ⟨address, numberOf 10 length⟩
  | none, _ => none

def samePrefix {width : Nat} (length : Nat) (first second : BitVec width) : Bool :=
  first.toNat / 2 ^ (width - length) = second.toNat / 2 ^ (width - length)

/-- `address in network`; the families are never mixed. -/
def Network.contains (network : Network) (address : IPAddress) : Bool :=
  match network.address, address with
  | .v4 base, .v4 address => samePrefix network.length base address
  | .v6 base, .v6 address => samePrefix network.length base address
  | _, _ => false

/-! ## Destinations -/

def embedded? (address : BitVec 128) : Option (BitVec 32) :=
  let high := address.toNat / 2 ^ 32
  let low := BitVec.ofNat 32 address.toNat
  if high = 0xFFFF then some low
  else if high = 0 ∧ 1 < address.toNat then some low
  else if high = 0x64FF9B * 2 ^ 64 then some low
  else if address.toNat / 2 ^ 112 = 0x2002 then
    some (BitVec.ofNat 32 (address.toNat / 2 ^ 80))
  else none

def destination : IPAddress → IPAddress
  | .v4 address => .v4 address
  | .v6 address =>
      match embedded? address with
      | some address => .v4 address
      | none => .v6 address

inductive RangeKind
  | loopback
  | unspecified
  | privateUse
  | linkLocal
  | multicast
  | reserved
  | uniqueLocal
  | cloudMetadata
  deriving DecidableEq, Repr

def SPECIAL_V4 : List (RangeKind × Nat × Nat) :=
  [(.loopback, quad 127 0 0 0, quad 127 255 255 255),
    (.privateUse, quad 10 0 0 0, quad 10 255 255 255),
    (.privateUse, quad 172 16 0 0, quad 172 31 255 255),
    (.privateUse, quad 192 168 0 0, quad 192 168 255 255),
    (.linkLocal, quad 169 254 0 0, quad 169 254 255 255),
    (.multicast, quad 224 0 0 0, quad 239 255 255 255),
    (.cloudMetadata, quad 100 100 100 200, quad 100 100 100 200),
    (.reserved, quad 240 0 0 0, quad 255 255 255 255),
    (.reserved, quad 0 0 0 0, quad 0 255 255 255)]

def SPECIAL_V6 : List (RangeKind × Nat × Nat) :=
  [(.loopback, 1, 1),
    (.unspecified, 0, 0),
    (.linkLocal, 0xFE80 * 2 ^ 112, 0xFEC0 * 2 ^ 112 - 1),
    (.uniqueLocal, 0xFC00 * 2 ^ 112, 0xFE00 * 2 ^ 112 - 1),
    (.multicast, 0xFF00 * 2 ^ 112, 2 ^ 128 - 1)]

def inRange (number : Nat) (range : RangeKind × Nat × Nat) : Bool :=
  range.2.1 ≤ number ∧ number ≤ range.2.2

def isSpecial : IPAddress → Bool
  | .v4 address => SPECIAL_V4.any (inRange address.toNat)
  | .v6 address => SPECIAL_V6.any (inRange address.toNat)

/-- A connection to the address goes to a special range. -/
def reachesSpecial (address : IPAddress) : Bool := address.destination.isSpecial

end IPAddress

end LlmHoneypot
