import LlmHoneypot.Foundation.BigEndian

/-! # Reading at an offset

A reader that keeps all of the data and an offset into it, and what stands at the offset. -/

namespace LlmHoneypot

namespace Offsets

/-- `struct.unpack("!H", data[offset : offset + 2])`, which raises where there are no two bytes. -/
def unpackH (data : Bytes) (offset : Nat) : Option Nat :=
  let slice := (data.drop offset).take 2
  if slice.length = 2 then some (BigEndian.decode slice) else none

/-- `data[offset : offset + length]`. -/
def slice (data : Bytes) (offset length : Nat) : Bytes := (data.drop offset).take length

def unpackList (data : Bytes) (offset : Nat) : (count : Nat) → Option (List Nat)
  | 0 => some []
  | count + 1 => do
      let number ← unpackH data offset
      let numbers ← unpackList data (offset + 2) count
      some (number :: numbers)

def pack (numbers : List Nat) : Bytes := numbers.flatMap (BigEndian.encode 2)

@[simp] theorem length_pack (numbers : List Nat) : (pack numbers).length = 2 * numbers.length := by
  induction numbers with
  | nil => rfl
  | cons number numbers induction =>
      rw [pack, List.flatMap_cons, List.length_append, ← pack, induction, BigEndian.length_encode,
        List.length_cons]
      omega

structure At (data : Bytes) (offset : Nat) (rest : Bytes) : Prop where
  isRest : data.drop offset = rest
  inside : offset + rest.length = data.length

section

variable {data front rest : Bytes} {offset number : Nat}

theorem At.start (data : Bytes) : At data 0 data := ⟨rfl, Nat.zero_add _⟩

theorem At.skip (here : At data offset (front ++ rest)) : At data (offset + front.length) rest := by
  have inside := here.inside
  rw [List.length_append] at inside
  refine ⟨?_, by omega⟩
  rw [← List.drop_drop, here.isRest, List.drop_left]

theorem At.skipTo {next : Nat} (here : At data offset (front ++ rest))
    (isNext : next = offset + front.length) : At data next rest := by
  rw [isNext]
  exact here.skip

theorem At.next {byte : UInt8} (here : At data offset (byte :: rest)) :
    At data (offset + 1) rest :=
  @At.skip data [byte] rest offset here

theorem At.room (here : At data offset (front ++ rest)) :
    offset + front.length ≤ data.length := by
  have inside := here.inside
  rw [List.length_append] at inside
  omega

theorem At.unpackH (here : At data offset (BigEndian.encode 2 number ++ rest))
    (fits : number < 65536) : Offsets.unpackH data offset = some number := by
  have isTwo : (BigEndian.encode 2 number ++ rest).take 2 = BigEndian.encode 2 number :=
    List.take_left' (BigEndian.length_encode 2 number)
  simp only [Offsets.unpackH, here.isRest, isTwo, BigEndian.length_encode, if_true]
  rw [BigEndian.decode_encode fits]

theorem At.byte {byte : UInt8} (here : At data offset (byte :: rest)) :
    data[offset]? = some byte := by
  rw [← Nat.add_zero offset, ← List.getElem?_drop, here.isRest]
  rfl

theorem At.slice (here : At data offset (front ++ rest)) :
    Offsets.slice data offset front.length = front := by
  rw [Offsets.slice, here.isRest, List.take_left]

theorem At.unpackList {numbers : List Nat} (here : At data offset (pack numbers ++ rest))
    (fit : ∀ number ∈ numbers, number < 65536) :
    Offsets.unpackList data offset numbers.length = some numbers := by
  induction numbers generalizing offset with
  | nil => rfl
  | cons number numbers induction =>
      rw [pack, List.flatMap_cons, List.append_assoc, ← pack] at here
      have first := here.unpackH (fit number List.mem_cons_self)
      have later := induction (here.skipTo (by rw [BigEndian.length_encode]))
        fun other member => fit other (List.mem_cons_of_mem number member)
      rw [List.length_cons, Offsets.unpackList, first, Option.bind_eq_bind, Option.bind_some,
        later]
      rfl

end

end Offsets

end LlmHoneypot
