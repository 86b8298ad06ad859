import Mathlib.Data.List.Basic

/-! # Stuffed symbols

Symbols that carry a meaning of their own may stand in the data behind an escape symbol. -/

namespace LlmHoneypot

structure Stuffing (Symbol : Type) where
  escape : Symbol
  reserved : Symbol → Bool

namespace Stuffing

variable {Symbol State : Type}

def stuff (stuffing : Stuffing Symbol) : List Symbol → List Symbol
  | [] => []
  | symbol :: rest =>
      if stuffing.reserved symbol then
        stuffing.escape :: symbol :: stuffing.stuff rest
      else
        symbol :: stuffing.stuff rest

structure Takes (stuffing : Stuffing Symbol) (step take : State → Symbol → State)
    (Ready : State → Prop) : Prop where
  plain : ∀ {state symbol}, Ready state → stuffing.reserved symbol = false →
    step state symbol = take state symbol
  escaped : ∀ {state} symbol, Ready state →
    step (step state stuffing.escape) symbol = take state symbol
  ready : ∀ {state} symbol, Ready state → Ready (take state symbol)

theorem Takes.foldl_stuff {stuffing : Stuffing Symbol} {step take : State → Symbol → State}
    {Ready : State → Prop} (takes : stuffing.Takes step take Ready) (data : List Symbol)
    {state : State} (ready : Ready state) :
    (stuffing.stuff data).foldl step state = data.foldl take state := by
  induction data generalizing state with
  | nil => rfl
  | cons symbol rest induction =>
      have later := induction (takes.ready symbol ready)
      rw [List.foldl_cons, ← later, stuff]
      split
      · rw [List.foldl_cons, List.foldl_cons, takes.escaped symbol ready]
      · next plain =>
          rw [List.foldl_cons, takes.plain ready (Bool.eq_false_iff.mpr plain)]

end Stuffing

end LlmHoneypot
