import LlmHoneypot.Foundation.Text

/-! # UTF-8

`bytes.decode("utf8")` with strict errors, the shortest form of every scalar
value and nothing else, and with errors replaced; `str.encode`. -/

namespace LlmHoneypot

abbrev Bytes := List UInt8

namespace Utf8

def encode (text : Str) : Bytes := text.flatMap String.utf8EncodeChar

def isContinuation (byte : UInt8) : Bool := 0x80 ≤ byte && byte < 0xC0

/-- The low six bits of a continuation byte. -/
def payload (byte : UInt8) : Nat := byte.toNat % 64

def scalar? (least code : Nat) : Option Char :=
  if least ≤ code ∧ code.isValidChar then some (Char.ofNat code) else none

def decode : List UInt8 → Option Str
  | [] => some []
  | first :: rest =>
      if first < 0x80 then (decode rest).map (Char.ofNat first.toNat :: ·)
      else if first < 0xC0 then none
      else
        match rest with
        | [] => none
        | second :: rest =>
            if ¬ isContinuation second then none
            else if first < 0xE0 then do
              let ch ← scalar? 0x80 (first.toNat % 32 * 64 + payload second)
              (decode rest).map (ch :: ·)
            else
              match rest with
              | [] => none
              | third :: rest =>
                  if ¬ isContinuation third then none
                  else if first < 0xF0 then do
                    let ch ← scalar? 0x800
                      ((first.toNat % 16 * 64 + payload second) * 64 + payload third)
                    (decode rest).map (ch :: ·)
                  else
                    match rest with
                    | [] => none
                    | fourth :: rest =>
                        if ¬ isContinuation fourth ∨ 0xF8 ≤ first then none
                        else do
                          let ch ← scalar? 0x10000
                            (((first.toNat % 8 * 64 + payload second) * 64 + payload third) *
                              64 + payload fourth)
                          (decode rest).map (ch :: ·)

def continuations (first : UInt8) : Nat :=
  if 0xC2 ≤ first ∧ first < 0xE0 then 1
  else if 0xE0 ≤ first ∧ first < 0xF0 then 2
  else if 0xF0 ≤ first ∧ first < 0xF5 then 3
  else 0

def secondRange (first : UInt8) : UInt8 × UInt8 :=
  if first = 0xE0 then (0xA0, 0xBF)
  else if first = 0xED then (0x80, 0x9F)
  else if first = 0xF0 then (0x90, 0xBF)
  else if first = 0xF4 then (0x80, 0x8F)
  else (0x80, 0xBF)

def subpart : Bytes → Nat
  | first :: second :: rest =>
      let range := secondRange first
      if 0 < continuations first ∧ range.1 ≤ second ∧ second ≤ range.2 then
        2 + ((rest.take (continuations first - 1)).takeWhile isContinuation).length
      else 1
  | _ => 1

def decodeReplaceFrom : Nat → Bytes → Str
  | 0, _ => []
  | _, [] => []
  | fuel + 1, bytes =>
      let taken := subpart bytes
      ((decode (bytes.take taken)).getD ['\uFFFD']) ++
        decodeReplaceFrom fuel (bytes.drop taken)

def decodeReplace (bytes : Bytes) : Str := decodeReplaceFrom bytes.length bytes

end Utf8

end LlmHoneypot
