import LlmHoneypot.Shell.Reading

/-! # Order of pipelines

In which order the commands of a line are started and what input they get, for lines of
commands that write, change the world and exit. -/

namespace LlmHoneypot

namespace Shell

variable {World : Type}

/-! ## The order of a shell -/

def outputsOf (actions : List (Action World)) : List (Output World) :=
  actions.filterMap fun
    | .output output => some output
    | _ => none

def written (outputs : List (Output World)) : List Bytes :=
  outputs.filterMap fun
    | .write data => some data
    | _ => none

/-- What the next command reads: everything that was written, and no input where
nothing was. -/
def piped (outputs : List (Output World)) : Option Bytes :=
  if written outputs = [] then none else some (written outputs).flatten

def effect (world : World) (outputs : List (Output World)) : World :=
  outputs.foldl (fun world output =>
    match output with
    | .update change => change world
    | _ => world) world

section Order

variable (env : Env World) (depth : Nat)

def stageOutputs (stage : Stage) (input : Option Bytes) (world : World) : List (Output World) :=
  match commandClass env stage.command with
  | some cmd => outputsOf (commandStart env cmd stage.rargs input depth world)
  | none => []

def startedAs (stage : Stage) (input : Option Bytes) : Started :=
  ⟨(commandClass env stage.command).getD .exit, stage.rargs, input⟩

def pipelineInOrder : List Stage → Option Bytes → World → List Started × World
  | [], _, world => ([], world)
  | stage :: stages, input, world =>
      let outputs := stageOutputs env depth stage input world
      let later := pipelineInOrder stages (piped outputs) (effect world outputs)
      (startedAs env stage input :: later.1, later.2)

def lineInOrder : List (List Stage) → World → List Started × World
  | [], world => ([], world)
  | stages :: pipelines, world =>
      let first := pipelineInOrder env depth stages none world
      let later := lineInOrder pipelines first.2
      (first.1 ++ later.1, later.2)

def lineAsExecuted : List (List Stage) → World → List Started × World
  | [], world => ([], world)
  | [stages], world => pipelineInOrder env depth stages none world
  | stages :: pipelines, world =>
      let first := pipelineInOrder env depth (stages.take 1) none world
      let later := lineAsExecuted pipelines first.2
      (first.1 ++ later.1, later.2)

theorem length_pipelineInOrder (stages : List Stage) (input : Option Bytes) (world : World) :
    (pipelineInOrder env depth stages input world).1.length = stages.length := by
  induction stages generalizing input world with
  | nil => rfl
  | cons stage stages induction => simp [pipelineInOrder, induction]

theorem length_lineInOrder (pipelines : List (List Stage)) (world : World) :
    (lineInOrder env depth pipelines world).1.length = (pipelines.map List.length).sum := by
  induction pipelines generalizing world with
  | nil => rfl
  | cons stages pipelines induction =>
      simp [lineInOrder, length_pipelineInOrder, induction]

def executedCount : List (List Stage) → Nat
  | [] => 0
  | [stages] => stages.length
  | stages :: pipelines => (stages.take 1).length + executedCount pipelines

theorem length_lineAsExecuted (pipelines : List (List Stage)) (world : World) :
    (lineAsExecuted env depth pipelines world).1.length = executedCount pipelines := by
  induction pipelines generalizing world with
  | nil => rfl
  | cons stages pipelines induction =>
      cases pipelines with
      | nil => simp [lineAsExecuted, executedCount, length_pipelineInOrder]
      | cons other pipelines =>
          simp [lineAsExecuted, executedCount, length_pipelineInOrder, induction]

end Order

theorem executedCount_le (pipelines : List (List Stage)) :
    executedCount pipelines ≤ (pipelines.map List.length).sum := by
  induction pipelines with
  | nil => exact Nat.le_refl 0
  | cons stages pipelines induction =>
      cases pipelines with
      | nil => simp [executedCount]
      | cons other pipelines =>
          simp only [executedCount, List.map_cons, List.sum_cons, List.length_take] at induction ⊢
          omega

/-- Only the last pipeline has more stages than one. -/
def SingleBeforeLast (pipelines : List (List Stage)) : Prop :=
  ∀ stages ∈ pipelines.dropLast, stages.length = 1

theorem single_of_executedCount {pipelines : List (List Stage)}
    (nonempty : ∀ stages ∈ pipelines, stages ≠ [])
    (all : executedCount pipelines = (pipelines.map List.length).sum) :
    SingleBeforeLast pipelines := by
  induction pipelines with
  | nil => simp [SingleBeforeLast]
  | cons stages pipelines induction =>
      cases pipelines with
      | nil => simp [SingleBeforeLast]
      | cons other pipelines =>
          have most := executedCount_le (other :: pipelines)
          have some_ : 0 < stages.length :=
            List.length_pos_iff.mpr (nonempty stages (by simp))
          simp only [executedCount, List.map_cons, List.sum_cons, List.length_take] at all most
          have single : stages.length = 1 := by omega
          have later := induction (fun stages member => nonempty stages (by simp [member])) (by
            simp only [List.map_cons, List.sum_cons]
            omega)
          intro some_ member
          rcases List.mem_cons.mp member with rfl | member
          · exact single
          · exact later some_ member

theorem lineAsExecuted_eq_iff (env : Env World) (depth : Nat) {pipelines : List (List Stage)}
    (nonempty : ∀ stages ∈ pipelines, stages ≠ []) (world : World) :
    (lineAsExecuted env depth pipelines world).1 = (lineInOrder env depth pipelines world).1 ↔
      SingleBeforeLast pipelines := by
  constructor
  · intro equal
    have lengths := congrArg List.length equal
    rw [length_lineAsExecuted, length_lineInOrder] at lengths
    exact single_of_executedCount nonempty lengths
  · intro single
    induction pipelines generalizing world with
    | nil => rfl
    | cons stages pipelines induction =>
        cases pipelines with
        | nil => simp [lineAsExecuted, lineInOrder]
        | cons other pipelines =>
            have alone : stages.take 1 = stages := by
              apply List.take_of_length_le
              exact Nat.le_of_eq (single stages (by simp))
            have later := induction (fun stages member => nonempty stages (by simp [member]))
              (pipelineInOrder env depth stages none world).2
              (fun stages member => single stages (by simp [member]))
            simp only [lineAsExecuted, alone, later]
            rfl

end Shell

end LlmHoneypot
