import LlmHoneypot.Shell.Filters
import LlmHoneypot.Shell.Scheduling

/-! # End of input

When the filters of a pipeline come to their end: most of them take an empty input for a
terminal. -/

namespace LlmHoneypot

namespace Shell

variable {World : Type}

section

variable (lib : Library World)

/-! ## What a filter needs to exit -/

def fileOperands (filter : Filter) (args : List Str) : List Str :=
  match filter.getopt args with
  | .error _ => []
  | .ok (_, operands) =>
      match filter with
      | .wc | .grep => operands.drop 1
      | .cat => operands.filter (· ≠ "-".toList)
      | _ => operands

def NumbersRead (given : List Getopt.Given) : Prop :=
  ∀ option ∈ given, lib.isdigit option.2 = true → (lib.int option.2).isSome

def ReadsToEnd (filter : Filter) (args : List Str) (input : Option Bytes) : Prop :=
  let data := input.getD []
  match filter, filter.getopt args with
  | .uniq, _ => args.contains "--help".toList ∨ data ≠ []
  | .wc, _ => ¬ isRedirect args
  | .cut, .error _ | .base64, .error _ | .tee, .error _ | .cat, .error _ => True
  | .grep, .error _ => ¬ isRedirect args
  | .tail, .error _ | .head, .error _ => args ≠ [] ∧ ¬ isRedirect args
  | .cut, .ok (given, _) =>
      match cutOptions lib {} given with
      | .error _ => True
      | .ok options =>
          ∀ spec ∈ options.fieldSpec,
            (parseFieldSpec lib spec).isSome ∧ options.delimiter ≠ [] ∧ data ≠ []
  | .base64, .ok (given, _) =>
      match base64Options lib {} given with
      | .error _ => True
      | .ok _ => data ≠ []
  | .tee, .ok (given, _) => asksHelp given ∨ data ≠ [] ∧ (Utf8.decode data).isSome
  | .grep, .ok (_, operands) =>
      ¬ isRedirect args ∧
        (args = [] ∨ data = [] ∨ ∃ pattern ∈ operands.head?, (lib.compile (grepPattern pattern)).isSome)
  | .tail, .ok (given, _) | .head, .ok (given, _) =>
      (args ≠ [] ∧ ¬ isRedirect args) ∧ NumbersRead lib given
  | .cat, .ok (given, operands) => asksHelp given ∨ operands ≠ [] ∨ input.isSome

theorem numberOptions_reads (illegal : Str → Str → Str) (numbers : Int × Int)
    (given : List Getopt.Given) :
    (numberOptions lib illegal numbers given : List (Output World) × Option (Int × Int)).2.isSome ↔
      NumbersRead lib given := by
  induction given generalizing numbers with
  | nil => simp [numberOptions, NumbersRead]
  | cons option given induction =>
      rcases option with ⟨opt, val⟩
      rw [numberOptions]
      by_cases digits : lib.isdigit val = true
      · cases read : lib.int val with
        | none => simp [NumbersRead, digits, read]
        | some number => simp [digits, induction, NumbersRead, read]
      · simp [digits, induction, NumbersRead]

variable (env : Env World)

theorem cutProcess_isSome (options : CutOptions) (ranges : List (Int × Option Int)) {data : Bytes}
    (some_ : data ≠ []) :
    (cutProcess options ranges data : Option (List (Output World))).isSome ↔
      options.delimiter ≠ [] := by
  have each (lines : List Bytes) :
      (lines.mapM (cutLine options ranges) : Option (List (List (Output World)))).isSome ↔
        lines = [] ∨ options.delimiter ≠ [] := by
    induction lines with
    | nil => simp
    | cons line lines induction =>
        by_cases empty : options.delimiter = []
        · simp [cutLine, empty]
        · have some_ : ∃ outputs : List (Output World), cutLine options ranges line = some outputs := by
            unfold cutLine
            rw [if_neg empty]
            split
            · exact ⟨_, rfl⟩
            · exact ⟨_, rfl⟩
          rcases some_ with ⟨outputs, isSome⟩
          have later := induction.mpr (.inr empty)
          rcases Option.isSome_iff_exists.mp later with ⟨others, mapped⟩
          simp [isSome, mapped, empty]
  have started : linesOf data ≠ [] := by
    intro nothing
    simp only [linesOf] at nothing
    split at nothing
    · rename_i ends
      have single : data.splitOn 10 = [[]] := by
        rw [← List.dropLast_concat_getLast (List.splitOn_ne_nil 10 data), nothing]
        have last := List.getLast?_eq_some_getLast (List.splitOn_ne_nil 10 data)
        rw [ends] at last
        rw [← Option.some.inj last]
        rfl
      have joined := @List.intercalate_splitOn _ data _ _ 10
      rw [single] at joined
      exact some_ joined.symm
    · exact List.splitOn_ne_nil 10 data nothing
  rw [cutProcess, Option.isSome_map, each]
  simp [started]

theorem cutStart_ending {args : List Str} (plain : fileOperands .cut args = [])
    (input : Option Bytes) (world : World) :
    (cutStart env lib args input world).ending = .exits ↔ ReadsToEnd lib .cut args input := by
  unfold cutStart ReadsToEnd
  cases parsed : Filter.getopt .cut args with
  | error opt => simp
  | ok read =>
      rcases read with ⟨given, operands⟩
      have none_ : operands = [] := by simpa [fileOperands, parsed] using plain
      simp only [none_]
      cases cutOptions lib {} given with
      | error outputs => simp
      | ok options =>
          cases fields : options.fieldSpec with
          | none => simp [fields]
          | some spec =>
              cases ranges : parseFieldSpec lib spec with
              | none => simp [fields, ranges]
              | some ranges =>
                  by_cases empty : input.getD [] = []
                  · simp [fields, ranges, empty]
                  · simp [fields, ranges, empty, cutProcess_isSome]

theorem uniqStart_ending (args : List Str) (input : Option Bytes) :
    (uniqStart lib args input : Work World).ending = .exits ↔ ReadsToEnd lib .uniq args input := by
  unfold uniqStart ReadsToEnd
  cases args.contains "--help".toList with
  | true => simp
  | false =>
      by_cases empty : input.getD [] = []
      · simp [empty]
      · simp [empty]

theorem base64Start_ending {args : List Str} (plain : fileOperands .base64 args = [])
    (input : Option Bytes) (world : World) :
    (base64Start env lib args input world).ending = .exits ↔
      ReadsToEnd lib .base64 args input := by
  unfold base64Start ReadsToEnd
  cases parsed : Filter.getopt .base64 args with
  | error opt => simp
  | ok read =>
      rcases read with ⟨given, operands⟩
      have none_ : operands = [] := by simpa [fileOperands, parsed] using plain
      simp only [none_]
      cases base64Options lib {} given with
      | error outputs => simp
      | ok options =>
          by_cases empty : input.getD [] = []
          · simp [empty]
          · simp [empty]

theorem teeStart_ending {args : List Str} (plain : fileOperands .tee args = [])
    (input : Option Bytes) (world : World) :
    (teeStart env lib args input world).ending = .exits ↔ ReadsToEnd lib .tee args input := by
  unfold teeStart ReadsToEnd
  cases parsed : Filter.getopt .tee args with
  | error opt => simp
  | ok read =>
      rcases read with ⟨given, operands⟩
      have none_ : operands = [] := by simpa [fileOperands, parsed] using plain
      simp only [none_, teeOperands]
      by_cases help : asksHelp given = true
      · simp [help]
      · by_cases empty : input.getD [] = []
        · simp [help, empty]
        · simp [help, empty, teeOutput]

theorem wcStart_ending {args : List Str} (plain : fileOperands .wc args = [])
    (input : Option Bytes) (world : World) :
    (wcStart env lib args input world).ending = .exits ↔ ReadsToEnd lib .wc args input := by
  unfold wcStart ReadsToEnd
  by_cases nothing : args = []
  · simp [nothing, isRedirect]
  · by_cases redirect : isRedirect args = true
    · simp [nothing, redirect]
    · simp only [nothing, redirect, if_false]
      cases parsed : Filter.getopt .wc args with
      | error opt => simp
      | ok read =>
          rcases read with ⟨given, operands⟩
          have none_ : operands.drop 1 = [] := by simpa [fileOperands, parsed] using plain
          simp only [none_, readArguments, checkArguments, Work.each]
          cases given.find? fun option => option.1 = "-v".toList ∨ option.1 = "-h".toList with
          | some option => simp
          | none =>
              by_cases empty : input.getD [] = []
              · simp [empty]
              · simp [empty]

theorem grepStart_ending {args : List Str} (plain : fileOperands .grep args = [])
    (input : Option Bytes) (world : World) :
    (grepStart env lib args input world).ending = .exits ↔ ReadsToEnd lib .grep args input := by
  unfold grepStart ReadsToEnd
  by_cases nothing : args = []
  · simp [nothing, isRedirect, Filter.getopt, Getopt.getopt, Getopt.getoptFrom]
  · by_cases redirect : isRedirect args = true
    · cases Filter.getopt .grep args with
      | error opt => simp [nothing, redirect]
      | ok read => simp [nothing, redirect]
    · simp only [nothing, redirect, if_false]
      cases parsed : Filter.getopt .grep args with
      | error opt => simp
      | ok read =>
          rcases read with ⟨given, operands⟩
          have none_ : operands.drop 1 = [] := by simpa [fileOperands, parsed] using plain
          simp only [none_, readArguments, checkArguments, Work.each]
          by_cases empty : input.getD [] = []
          · simp [empty]
          · cases operands with
            | nil => simp [empty]
            | cons pattern operands => simp [empty, grepApplication]

theorem numberedStart_ending {filter : Filter} {application : Str} {illegal : Str → Str → Str}
    {shown : Int × Int → Bytes → List (Output World)} {files : Int × Int → List Str → Work World}
    {args : List Str} (plain : fileOperands filter args = []) (input : Option Bytes)
    (isNumbered : filter = .tail ∨ filter = .head)
    (noFiles : ∀ numbers, (files numbers []).ending = .exits) :
    (numberedStart lib filter application illegal shown files args input).ending = .exits ↔
      ReadsToEnd lib filter args input := by
  have condition : ReadsToEnd lib filter args input ↔
      (args ≠ [] ∧ ¬ isRedirect args = true) ∧
        ∀ read, filter.getopt args = .ok read → NumbersRead lib read.1 := by
    unfold ReadsToEnd
    cases filter.getopt args with
    | error opt => rcases isNumbered with rfl | rfl <;> simp
    | ok read => rcases isNumbered with rfl | rfl <;> simp
  have operands_nil : ∀ read, filter.getopt args = .ok read → read.2 = [] := by
    intro read parsed
    rcases isNumbered with rfl | rfl <;> simpa [fileOperands, parsed] using plain
  rw [condition]
  unfold numberedStart
  by_cases refused : args = [] ∨ isRedirect args = true
  · have stays : ¬ (args ≠ [] ∧ ¬ isRedirect args = true) := by
      rcases refused with nothing | redirect
      · simp [nothing]
      · simp [redirect]
    rw [if_pos refused]
    simp only [stays, false_and, Work.ending_waits, reduceCtorEq]
  · have goes : args ≠ [] ∧ ¬ isRedirect args = true := not_or.mp refused
    rw [if_neg refused]
    simp only [goes, true_and, ne_eq, not_false_eq_true]
    cases parsed : filter.getopt args with
    | error opt => simp
    | ok read =>
        rcases read with ⟨given, operands⟩
        have none_ : operands = [] := operands_nil _ parsed
        have reads := @numberOptions_reads World lib illegal (10, 0) given
        rcases equal : (numberOptions lib illegal (10, 0) given :
          List (Output World) × Option (Int × Int)) with ⟨outputs, numbers⟩
        rw [equal] at reads
        simp only [none_, equal]
        cases numbers with
        | none => simpa using reads
        | some numbers =>
            by_cases empty : input.getD [] = []
            · simpa [empty, noFiles] using reads
            · simpa [empty] using reads

theorem catStart_ending {args : List Str} (plain : fileOperands .cat args = [])
    (input : Option Bytes) (world : World) :
    (catStart env lib args input world).ending = .exits ↔ ReadsToEnd lib .cat args input := by
  unfold catStart ReadsToEnd
  cases parsed : Filter.getopt .cat args with
  | error opt => simp
  | ok read =>
      rcases read with ⟨given, operands⟩
      have dashes : ∀ operand ∈ operands, operand = "-".toList := by
        have none_ : operands.filter (· ≠ "-".toList) = [] := by
          simpa only [fileOperands, parsed] using plain
        intro operand member
        simpa using List.filter_eq_nil_iff.mp none_ operand member
      have exits (number : Bool) (linenumber : Nat) :
          (Work.each (catFile env lib number input world) linenumber operands).ending = .exits := by
        clear plain parsed
        induction operands generalizing linenumber with
        | nil => rfl
        | cons operand operands induction =>
            have later := induction fun operand member => dashes operand (List.mem_cons_of_mem _ member)
            rw [dashes operand (List.mem_cons_self ..), Work.each]
            cases input with
            | none => exact later linenumber
            | some data => exact later (catLines number linenumber (linesOf data)).2
      simp only
      by_cases help : asksHelp given = true
      · rw [if_pos help]
        exact ⟨fun _ => .inl help, fun _ => rfl⟩
      · rw [if_neg help]
        by_cases nothing : operands = []
        · rw [if_neg (not_not_intro nothing)]
          cases input with
          | none =>
              constructor
              · intro waits
                cases waits
              · rintro (asked | named | given)
                · exact absurd asked help
                · exact absurd nothing named
                · cases given
          | some data => exact ⟨fun _ => .inr (.inr rfl), fun _ => rfl⟩
        · rw [if_pos nothing, exits]
          exact ⟨fun _ => .inr (.inl nothing), fun _ => rfl⟩

theorem filterStart_ending {filter : Filter} {args : List Str}
    (plain : fileOperands filter args = []) (input : Option Bytes) (world : World) :
    (filterStart env lib filter args input world).ending = .exits ↔
      ReadsToEnd lib filter args input := by
  cases filter with
  | cut => exact cutStart_ending lib env plain input world
  | uniq => exact uniqStart_ending lib args input
  | base64 => exact base64Start_ending lib env plain input world
  | tee => exact teeStart_ending lib env plain input world
  | wc => exact wcStart_ending lib env plain input world
  | grep => exact grepStart_ending lib env plain input world
  | tail => exact numberedStart_ending lib plain input (.inl rfl) fun _ => rfl
  | head => exact numberedStart_ending lib plain input (.inr rfl) fun _ => rfl
  | cat => exact catStart_ending lib env plain input world

theorem filterStart_world {filter : Filter} {args : List Str}
    (plain : fileOperands filter args = []) (input : Option Bytes) (world other : World) :
    filterStart env lib filter args input world = filterStart env lib filter args input other := by
  rcases parsed : filter.getopt args with opt | ⟨given, operands⟩
  · cases filter with
    | cut => simp only [filterStart, cutStart, parsed]
    | uniq => rfl
    | base64 => simp only [filterStart, base64Start, parsed]
    | tee => simp only [filterStart, teeStart, parsed]
    | wc => simp only [filterStart, wcStart, parsed]
    | grep => simp only [filterStart, grepStart, parsed]
    | tail => simp only [filterStart, tailStart, numberedStart, parsed]
    | head => simp only [filterStart, headStart, numberedStart, parsed]
    | cat => simp only [filterStart, catStart, parsed]
  · simp only [fileOperands, parsed] at plain
    cases filter with
    | cut => simp only [filterStart, cutStart, parsed, plain, ne_eq, not_true_eq_false, if_false]
    | uniq => rfl
    | base64 => simp only [filterStart, base64Start, parsed, plain]
    | tee => simp only [filterStart, teeStart, parsed, plain, teeOperands]
    | wc =>
        simp only [filterStart, wcStart, parsed, plain, readArguments, checkArguments, Work.each]
    | grep =>
        simp only [filterStart, grepStart, parsed, plain, readArguments, checkArguments, Work.each]
    | tail =>
        simp only [filterStart, tailStart, numberedStart, parsed, plain, readArguments,
          checkArguments, Work.each]
    | head =>
        simp only [filterStart, headStart, numberedStart, parsed, plain, readArguments,
          checkArguments, Work.each]
    | cat =>
        have same (number : Bool) (linenumber : Nat) :
            Work.each (catFile env lib number input world) linenumber operands =
              Work.each (catFile env lib number input other) linenumber operands := by
          clear parsed
          induction operands generalizing linenumber with
          | nil => rfl
          | cons operand operands induction =>
              have dashes := List.filter_eq_nil_iff.mp plain
              have dash : operand = "-".toList := by simpa using dashes operand (by simp)
              have rest : operands.filter (· ≠ "-".toList) = [] :=
                List.filter_eq_nil_iff.mpr fun operand member =>
                  dashes operand (List.mem_cons_of_mem _ member)
              have later := induction rest
              simp only [Work.each, catFile, dash, if_true]
              cases input with
              | none => simp only [later]
              | some data => simp only [later]
        simp only [filterStart, catStart, parsed, same]

/-! ## Stages -/

def NoScript (args : List Str) : Prop :=
  args.head?.map Text.strip = some "-c".toList ∨
    ∀ filename ∈ args.head?, "-".toList.isPrefixOf filename = true

/-- The text that `sh` executes. -/
def shText (args : List Str) (input : Option Bytes) : Option Str :=
  if args.head?.map Text.strip = some "-c".toList then
    commandLine (Text.join " ".toList (args.drop 1))
  else if input.getD [] ≠ [] then Utf8.decode (input.getD [])
  else none

structure FilterStage (stage : Stage) : Prop where
  plain : stage.redirects = []
  filter : (∃ filter, filterOf stage.command = some filter ∧ fileOperands filter stage.rargs = []) ∨
    commandClass (env.withFilters lib) stage.command = some .sh ∧ NoScript stage.rargs

def StageReads (stage : Stage) (input : Option Bytes) : Prop :=
  match filterOf stage.command with
  | some filter => ReadsToEnd lib filter stage.rargs input
  | none => (shText stage.rargs input).isSome

def stageText (stage : Stage) (input : Option Bytes) : Option Str :=
  match filterOf stage.command with
  | some _ => none
  | none => shText stage.rargs input

theorem filterOf_names {name : Str} {filter : Filter} (known : filterOf name = some filter) :
    name ∈ filter.names := by
  simpa using List.find?_some known

theorem commandClass_filter {name : Str} {filter : Filter} (known : filterOf name = some filter) :
    Text.strip name ≠ [] ∧ commandClass (env.withFilters lib) name = some (.other name) := by
  have isCommand : (env.withFilters lib).isCommand name = true := by
    simp [Env.withFilters, known]
  have plain : ∀ filter : Filter, ∀ name ∈ filter.names, Text.strip name ≠ [] ∧
      name ∉ ["/bin/bash".toList, "bash".toList, "/bin/sh".toList, "sh".toList] ∧
      name ∉ ["exit".toList, "logout".toList] ∧ name ∉ ["/bin/rm".toList, "rm".toList] := by
    intro filter
    cases filter <;> decide
  rcases plain filter name (filterOf_names known) with ⟨visible, notSh, notExit, notRm⟩
  apply And.intro visible
  rw [commandClass, if_neg notSh, if_neg notExit, if_neg notRm, if_pos isCommand]

theorem start_filter {name : Str} {filter : Filter} (known : filterOf name = some filter)
    (args : List Str) (input : Option Bytes) (world : World) :
    (env.withFilters lib).start name args input world =
      (filterStart env lib filter args input world).actions := by
  simp only [Env.withFilters, known]

theorem commandClass_sh {name : Str} (isSh : commandClass env name = some .sh) :
    name ∈ ["/bin/bash".toList, "bash".toList, "/bin/sh".toList, "sh".toList] := by
  unfold commandClass at isSh
  split at isSh
  · assumption
  · split at isSh
    · cases isSh
    · split at isSh
      · cases isSh
      · split at isSh
        · cases isSh
        · cases isSh

theorem filterOf_sh {name : Str}
    (isSh : commandClass (env.withFilters lib) name = some .sh) : filterOf name = none := by
  cases known : filterOf name with
  | none => rfl
  | some filter =>
      rw [(commandClass_filter lib env known).2] at isSh
      cases isSh

theorem FilterStage.known {stage : Stage} (isFilter : FilterStage lib env stage) :
    Known (env.withFilters lib) stage := by
  constructor
  · exact isFilter.plain
  · rcases isFilter.filter with ⟨filter, known, -⟩ | ⟨isSh, -⟩
    · exact (commandClass_filter lib env known).1
    · have visible : ∀ name ∈ ["/bin/bash".toList, "bash".toList, "/bin/sh".toList, "sh".toList],
          Text.strip name ≠ [] := by decide
      exact visible _ (commandClass_sh _ isSh)
  · rcases isFilter.filter with ⟨filter, known, -⟩ | ⟨isSh, -⟩
    · rw [(commandClass_filter lib env known).2]
      rfl
    · rw [isSh]
      rfl

inductive Leaves (reads : Prop) : Option Str → List (Action World) → Prop
  | exits (ends : reads) : Leaves reads none [.exit]
  | executes (ends : reads) (cmds : Str) : Leaves reads (some cmds) [.executeCommands cmds, .exit]
  | waits {text : Option Str} (stays : ¬ reads) : Leaves reads text []
  | raises {text : Option Str} (fails : ¬ reads) : Leaves reads text [.raise]
  | opens {text : Option Str} (stays : ¬ reads) : Leaves reads text [.interactiveShell]

theorem Leaves.outputs {reads : Prop} {text : Option Str} {rest : List (Action World)}
    (leaves : Leaves reads text rest) : outputsOf rest = [] := by
  cases leaves <;> rfl

theorem outputsOf_append (outputs : List (Output World)) (rest : List (Action World)) :
    outputsOf (outputs.map .output ++ rest) = outputs ++ outputsOf rest := by
  simp [outputsOf, List.filterMap_append, List.filterMap_map]

theorem shStart_leaves {args : List Str} (noScript : NoScript args) (input : Option Bytes)
    (depth : Nat) (world : World) :
    Leaves (shText args input).isSome (shText args input) (shStart env args input depth world) := by
  unfold shStart shText
  by_cases isLine : args.head?.map Text.strip = some "-c".toList
  · simp only [isLine, if_true]
    cases commandLine (Text.join " ".toList (args.drop 1)) with
    | none => exact .raises (by simp)
    | some line => exact .executes rfl line
  · simp only [isLine, if_false]
    by_cases empty : input.getD [] = []
    · simp only [empty, ne_eq, not_true_eq_false, if_false]
      cases args with
      | nil => exact .opens (by simp)
      | cons filename args =>
          have isOption : "-".toList.isPrefixOf filename = true := by
            rcases noScript with line | option
            · exact absurd line isLine
            · exact option filename rfl
          simp only [isOption, if_true]
          exact .opens (by simp)
    · simp only [empty, ne_eq, not_false_eq_true, if_true]
      cases Utf8.decode (input.getD []) with
      | none => exact .raises (by simp)
      | some cmds => exact .executes rfl cmds

theorem FilterStage.start {stage : Stage} (isFilter : FilterStage lib env stage)
    (input : Option Bytes) (depth : Nat) (world : World) : ∃ outputs rest,
      Leaves (StageReads lib stage input) (stageText stage input) rest ∧
      stageOutputs (env.withFilters lib) depth stage input world = outputs ∧
      ∀ cmd, commandClass (env.withFilters lib) stage.command = some cmd →
        commandStart (env.withFilters lib) cmd stage.rargs input depth world =
          outputs.map .output ++ rest := by
  rcases isFilter.filter with ⟨filter, known, plain⟩ | ⟨isSh, noScript⟩
  · have isOther := (commandClass_filter lib env known).2
    let work := filterStart env lib filter stage.rargs input world
    have starts : commandStart (env.withFilters lib) (.other stage.command) stage.rargs input depth
        world = work.outputs.map .output ++ work.ending.actions := by
      simp only [commandStart, start_filter lib env known]
      rfl
    have leaves : @Leaves World (StageReads lib stage input) (stageText stage input)
        work.ending.actions := by
      have ending := filterStart_ending lib env plain input world
      simp only [StageReads, stageText, known]
      rw [← ending]
      change Leaves (work.ending = .exits) none work.ending.actions
      cases work.ending with
      | exits => exact .exits rfl
      | waits => exact .waits Ending.noConfusion
      | raises => exact .raises Ending.noConfusion
    apply Exists.intro work.outputs
    apply Exists.intro work.ending.actions
    apply And.intro leaves
    constructor
    · simp only [stageOutputs, isOther, starts]
      rw [outputsOf_append, leaves.outputs, List.append_nil]
    · intro cmd isCmd
      rw [isOther] at isCmd
      rw [← Option.some.inj isCmd]
      exact starts
  · have leaves := shStart_leaves (env.withFilters lib) noScript input depth world
    apply Exists.intro []
    apply Exists.intro (shStart (env.withFilters lib) stage.rargs input depth world)
    constructor
    · simp only [StageReads, stageText, filterOf_sh lib env isSh]
      exact leaves
    · constructor
      · simp only [stageOutputs, isSh]
        exact leaves.outputs
      · intro cmd isCmd
        rw [isSh] at isCmd
        rw [← Option.some.inj isCmd]
        rfl

theorem FilterStage.outputs_eq {stage : Stage} (isFilter : FilterStage lib env stage)
    (input : Option Bytes) (depth other : Nat) (world world' : World) :
    stageOutputs (env.withFilters lib) depth stage input world =
      stageOutputs (env.withFilters lib) other stage input world' := by
  rcases isFilter.filter with ⟨filter, known, plain⟩ | ⟨isSh, noScript⟩
  · simp only [stageOutputs, (commandClass_filter lib env known).2, commandStart,
      start_filter lib env known, filterStart_world lib env plain input world world']
  · have here := (shStart_leaves (env.withFilters lib) noScript input depth world).outputs
    have there := (shStart_leaves (env.withFilters lib) noScript input other world').outputs
    simp only [stageOutputs, isSh]
    exact here.trans there.symm

end

end Shell

end LlmHoneypot
