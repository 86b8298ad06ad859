import LlmHoneypot.Foundation.Heap
import LlmHoneypot.Foundation.PositionedWrite

/-! # Open files

Named files and the descriptors that are open on them. A file that loses its name stays behind
its descriptors. -/

namespace LlmHoneypot

namespace OpenFiles

structure Descriptor where
  inode : Nat
  position : Nat := 0
  append : Bool := false
  deriving DecidableEq, Repr

structure Mode where
  append : Bool := false
  creat : Bool := false
  trunc : Bool := false
  excl : Bool := false
  deriving DecidableEq, Repr

structure Files (Name Byte : Type) where
  names : Name → Option Nat
  inodes : Heap (List Byte)
  descriptors : Nat → Option Descriptor

namespace Files

variable {Name Byte : Type} [DecidableEq Name] [Zero Byte] (files : Files Name Byte)

def read (name : Name) : Option (List Byte) := (files.names name).map files.inodes.read

/-- A file for writing under a descriptor that is not open; the standard input stays open. -/
def openWrite (name : Name) (mode : Mode) (fd : Nat) : Option (Files Name Byte) :=
  if fd = 0 ∨ (files.descriptors fd).isSome then none
  else
    match files.names name with
    | some inode =>
        if mode.creat ∧ mode.excl then none
        else some { files with
          inodes := if mode.trunc then files.inodes.write inode [] else files.inodes
          descriptors := Function.update files.descriptors fd (some ⟨inode, 0, mode.append⟩) }
    | none =>
        if ¬ mode.creat then none
        else some {
          names := Function.update files.names name (some files.inodes.next)
          inodes := files.inodes.alloc []
          descriptors := Function.update files.descriptors fd
            (some ⟨files.inodes.next, 0, mode.append⟩) }

def lseek (fd offset : Nat) : Option (Files Name Byte) :=
  (files.descriptors fd).map fun descriptor =>
    { files with descriptors :=
        Function.update files.descriptors fd (some { descriptor with position := offset }) }

def start (descriptor : Descriptor) : Nat :=
  if descriptor.append then (files.inodes.read descriptor.inode).length else descriptor.position

def write (fd : Nat) (data : List Byte) : Option (Files Name Byte) :=
  (files.descriptors fd).map fun descriptor =>
    let start := files.start descriptor
    { files with
      inodes := files.inodes.modify descriptor.inode fun bytes =>
        PositionedWrite.pwrite bytes start data
      descriptors := Function.update files.descriptors fd
        (some { descriptor with position := start + data.length }) }

/-- Another name for the file; a file with that name loses it. -/
def rename (name other : Name) : Files Name Byte :=
  { files with
    names := Function.update (Function.update files.names name none) other (files.names name) }

def remove (name : Name) : Files Name Byte :=
  { files with names := Function.update files.names name none }

def keepOnce (name other : Name) : Files Name Byte :=
  if (files.names other).isSome then files.remove name else files.rename name other

def close (fd : Nat) : Files Name Byte :=
  { files with descriptors := Function.update files.descriptors fd none }

/-- Every name is one of an inode that was handed out. -/
def Formed : Prop := ∀ name inode, files.names name = some inode → inode < files.inodes.next

variable {files}

omit [Zero Byte] in
theorem keepOnce_names {name other third : Name} (notName : third ≠ name) (notOther : third ≠ other) :
    (files.keepOnce name other).names third = files.names third := by
  unfold keepOnce
  split
  · exact Function.update_of_ne notName ..
  · exact (Function.update_of_ne notOther ..).trans (Function.update_of_ne notName ..)

omit [Zero Byte] in
theorem keepOnce_rest (name other : Name) :
    (files.keepOnce name other).inodes = files.inodes ∧
      (files.keepOnce name other).descriptors = files.descriptors := by
  unfold keepOnce
  split
  · exact ⟨rfl, rfl⟩
  · exact ⟨rfl, rfl⟩

omit [Zero Byte] in
theorem Formed.keepOnce (formed : files.Formed) (name other : Name) :
    (files.keepOnce name other).Formed := by
  intro third inode named
  rw [(keepOnce_rest name other).1]
  unfold Files.keepOnce at named
  split at named
  · simp only [remove, Function.update_apply] at named
    split at named
    · cases named
    · exact formed third inode named
  · simp only [rename, Function.update_apply] at named
    split at named
    · exact formed name inode named
    · split at named
      · cases named
      · exact formed third inode named

/-- The file is open under the descriptor; the other files and descriptors are as they were. -/
structure Opened (files after : Files Name Byte) (name : Name) (mode : Mode) (fd inode : Nat) :
    Prop where
  positive : fd ≠ 0
  free : files.descriptors fd = none
  descriptors : after.descriptors =
    Function.update files.descriptors fd (some ⟨inode, 0, mode.append⟩)
  names : after.names = Function.update files.names name (some inode)
  origin : files.names name = some inode ∨ files.names name = none ∧ inode = files.inodes.next
  data : (files.names name = some inode → mode.trunc = true ∨ files.inodes.read inode = []) →
    after.inodes.read inode = []
  others : ∀ other, other < files.inodes.next → other ≠ inode →
    after.inodes.read other = files.inodes.read other
  formed : files.Formed → after.Formed

omit [Zero Byte] in
theorem openWrite_ok {after : Files Name Byte} {name : Name} {mode : Mode} {fd : Nat}
    (opens : files.openWrite name mode fd = some after) :
    ∃ inode, Opened files after name mode fd inode := by
  unfold openWrite at opens
  split at opens
  · cases opens
  · next free =>
    have positive : fd ≠ 0 := fun zero => free (.inl zero)
    have closed : files.descriptors fd = none := by
      rw [← Option.not_isSome_iff_eq_none]
      exact fun isOpen => free (.inr isOpen)
    split at opens
    · next inode found =>
      split at opens
      · cases opens
      · rw [← Option.some.inj opens]
        refine ⟨inode, positive, closed, rfl, ?_, .inl found, ?_, ?_, ?_⟩
        · exact (Function.update_eq_self_iff.mpr found.symm).symm
        · intro empty
          dsimp only
          split
          · exact Heap.read_write_self ..
          · next kept => exact (empty found).resolve_left kept
        · intro other _ differs
          dsimp only
          split
          · exact Heap.read_write_other _ differs
          · rfl
        · intro formed named other holds
          dsimp only
          split
          · exact formed named other holds
          · exact formed named other holds
    · next missing =>
      split at opens
      · cases opens
      · rw [← Option.some.inj opens]
        refine ⟨files.inodes.next, positive, closed, rfl, rfl, .inr ⟨missing, rfl⟩, ?_, ?_, ?_⟩
        · exact fun _ => Heap.read_alloc_self ..
        · exact fun other below _ => Heap.read_alloc_other _ below
        · intro formed named other holds
          dsimp only at holds
          rw [Function.update_apply] at holds
          split at holds
          · rw [← Option.some.inj holds]
            exact Nat.lt_succ_self _
          · exact Nat.lt_succ_of_lt (formed named other holds)

end Files

end OpenFiles

end LlmHoneypot
