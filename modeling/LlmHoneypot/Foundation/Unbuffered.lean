import LlmHoneypot.Foundation.Utf8

/-! # Receivers without a buffer

A receiver that looks at each chunk of a stream by itself, and takes at most one message
from it. -/

namespace LlmHoneypot

namespace Unbuffered

variable {Message Shown : Type}

/-- The messages that are taken from the chunks. After a chunk at which `decode` raises
there are no more. -/
def received (decode : Bytes → Option (Option Shown)) : List Bytes → List Shown
  | [] => []
  | chunk :: chunks =>
      match decode chunk with
      | none => []
      | some none => received decode chunks
      | some (some message) => message :: received decode chunks

variable {decode : Bytes → Option (Option Shown)} {encode : Message → Bytes}
  {shown : Message → Shown}

theorem length_le
    (cost : ∀ chunk message, decode chunk = some (some (shown message)) →
      (encode message).length ≤ chunk.length)
    {chunks : List Bytes} {messages : List Message}
    (all : received decode chunks = messages.map shown) :
    (messages.flatMap encode).length ≤ chunks.flatten.length := by
  induction chunks generalizing messages with
  | nil =>
      rw [List.map_eq_nil_iff.mp all.symm]
      exact Nat.le_refl _
  | cons chunk chunks induction =>
      rw [received] at all
      rw [List.flatten_cons, List.length_append]
      split at all
      · rw [List.map_eq_nil_iff.mp all.symm]
        exact Nat.zero_le _
      · have := induction all
        omega
      · next message taken =>
          rcases List.map_eq_cons_iff.mp all.symm with ⟨first, rest, rfl, rfl, others⟩
          have := cost chunk first taken
          have := induction others.symm
          rw [List.flatMap_cons, List.length_append]
          omega

theorem receives_iff
    (cost : ∀ chunk message, decode chunk = some (some (shown message)) →
      (encode message).length ≤ chunk.length)
    {chunks : List Bytes} {messages : List Message} (nonempty : ∀ chunk ∈ chunks, chunk ≠ [])
    (stream : chunks.flatten = messages.flatMap encode) :
    received decode chunks = messages.map shown ↔
      chunks = messages.map encode ∧
        ∀ message ∈ messages, decode (encode message) = some (some (shown message)) := by
  constructor
  · intro all
    induction chunks generalizing messages with
    | nil =>
        rw [List.map_eq_nil_iff.mp all.symm]
        exact ⟨rfl, nofun⟩
    | cons chunk chunks induction =>
        rw [List.forall_mem_cons] at nonempty
        have some_ := List.length_pos_of_ne_nil nonempty.1
        have lengths := congrArg List.length stream
        rw [List.flatten_cons, List.length_append] at lengths
        rw [received] at all
        split at all
        · rw [List.map_eq_nil_iff.mp all.symm, List.flatMap_nil, List.length_nil] at lengths
          omega
        · have := length_le cost all
          omega
        · next message taken =>
            rcases List.map_eq_cons_iff.mp all.symm with ⟨first, rest, rfl, rfl, others⟩
            have shorter := cost chunk first taken
            have fewer := length_le cost others.symm
            rw [List.flatMap_cons, List.length_append] at lengths
            rw [List.flatten_cons, List.flatMap_cons] at stream
            rcases List.append_inj stream (by omega) with ⟨rfl, streamRest⟩
            rcases induction nonempty.2 streamRest others.symm with ⟨rfl, read⟩
            rw [List.forall_mem_cons]
            exact ⟨rfl, taken, read⟩
  · rintro ⟨rfl, read⟩
    clear nonempty stream
    induction messages with
    | nil => rfl
    | cons message messages induction =>
        rw [List.forall_mem_cons] at read
        rw [List.map_cons, received, read.1]
        exact congrArg _ (induction read.2)

end Unbuffered

end LlmHoneypot
