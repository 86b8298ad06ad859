import Mathlib.Algebra.Order.Ring.Int

/-! # Heaps

Mutable objects under references that are handed out in ascending order. What stands at
a reference that was not handed out is of no meaning. -/

namespace LlmHoneypot

structure Heap (Object : Type) where
  read : Nat → Object
  next : Nat

namespace Heap

variable {Object : Type}

def empty [Inhabited Object] : Heap Object := ⟨fun _ => default, 0⟩

def write (heap : Heap Object) (reference : Nat) (object : Object) : Heap Object :=
  { heap with read := Function.update heap.read reference object }

def modify (heap : Heap Object) (reference : Nat) (change : Object → Object) : Heap Object :=
  heap.write reference (change (heap.read reference))

def alloc (heap : Heap Object) (object : Object) : Heap Object :=
  { heap.write heap.next object with next := heap.next + 1 }

variable {heap : Heap Object} {reference other : Nat}

@[simp] theorem read_write_self (heap : Heap Object) (reference : Nat) (object : Object) :
    (heap.write reference object).read reference = object := Function.update_self ..

theorem read_write_other (object : Object) (differs : other ≠ reference) :
    (heap.write reference object).read other = heap.read other := Function.update_of_ne differs ..

@[simp] theorem read_modify_self (heap : Heap Object) (reference : Nat)
    (change : Object → Object) :
    (heap.modify reference change).read reference = change (heap.read reference) :=
  read_write_self ..

theorem read_modify_other (change : Object → Object) (differs : other ≠ reference) :
    (heap.modify reference change).read other = heap.read other := read_write_other _ differs

@[simp] theorem next_modify (heap : Heap Object) (reference : Nat) (change : Object → Object) :
    (heap.modify reference change).next = heap.next := rfl

@[simp] theorem read_alloc_self (heap : Heap Object) (object : Object) :
    (heap.alloc object).read heap.next = object := read_write_self ..

theorem read_alloc_other (object : Object) (old : other < heap.next) :
    (heap.alloc object).read other = heap.read other :=
  read_write_other _ (Nat.ne_of_lt old)

@[simp] theorem next_alloc (heap : Heap Object) (object : Object) :
    (heap.alloc object).next = heap.next + 1 := rfl

end Heap

end LlmHoneypot
