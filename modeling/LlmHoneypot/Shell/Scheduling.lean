import LlmHoneypot.Shell.Pipelines

/-! # Scheduling of pipelines

The machine on a line of pipelines: a command that exits resumes the shell, which takes
the next pipeline before the later stages of this one are started. -/

namespace LlmHoneypot

namespace Shell

variable {World : Type} {env : Env World}

def Ticks (env : Env World) : Machine World → Machine World → Prop :=
  EventRun.Repeats (step env) .tick

theorem ticks_proceed (task : Task World) (agenda : List (Task World)) (session : Session World)
    {last : Machine World} (later : Ticks env (proceed env task agenda session) last) :
    Ticks env { session, agenda := task :: agenda } last :=
  EventRun.Repeats.head rfl later

/-! ## The lines -/

structure Known (env : Env World) (stage : Stage) : Prop where
  plain : stage.redirects = []
  visible : Text.strip stage.command ≠ []
  known : (commandClass env stage.command).isSome

structure Synchronous (env : Env World) (possible : Option Bytes → Prop) (stage : Stage) :
    Prop extends Known env stage where
  exits : ∀ cmd input depth world, commandClass env stage.command = some cmd → possible input →
    ∃ outputs : List (Output World),
      commandStart env cmd stage.rargs input depth world = outputs.map .output ++ [.exit]

/-- The inputs that the stage after this one can get. -/
def Passes (env : Env World) (possible : Option Bytes → Prop) (stage : Stage)
    (next : Option Bytes) : Prop :=
  ∃ input depth world, possible input ∧ next = piped (stageOutputs env depth stage input world)

def SynchronousPipeline (env : Env World) (possible : Option Bytes → Prop) : List Stage → Prop
  | [] => True
  | stage :: stages =>
      Synchronous env possible stage ∧ SynchronousPipeline env (Passes env possible stage) stages

theorem SynchronousPipeline.known {possible : Option Bytes → Prop} {stages : List Stage}
    (synchronous : SynchronousPipeline env possible stages) :
    ∀ stage ∈ stages, Known env stage := by
  induction stages generalizing possible with
  | nil => simp
  | cons first stages induction =>
      intro stage member
      rcases List.mem_cons.mp member with rfl | member
      · exact synchronous.1.toKnown
      · exact induction synchronous.2 stage member

inductive Collects (environ : Environ) : Str → List Str → List (List Str) → Prop
  | last {text rest : Str} {tokens : List Str} (ends : getToken text = some (none, rest)) :
      Collects environ text tokens (if tokens = [] then [] else [tokens])
  | word {text rest tok word : Str} {tokens : List Str} {commands : List (List Str)}
      (first : getToken text = some (some tok, rest))
      (collected : react environ tokens tok = .collect word)
      (later : Collects environ rest (tokens ++ [word]) commands) :
      Collects environ text tokens commands
  | dropped {text rest tok : Str} {tokens : List Str} {commands : List (List Str)}
      (first : getToken text = some (some tok, rest))
      (drop : react environ tokens tok = .drop)
      (later : Collects environ rest tokens commands) : Collects environ text tokens commands
  | separator {text rest tok : Str} {tokens : List Str} {commands : List (List Str)}
      (first : getToken text = some (some tok, rest))
      (finish : react environ tokens tok = .finishCommand)
      (later : Collects environ rest [] commands) :
      Collects environ text tokens ((if tokens = [] then [] else [tokens]) ++ commands)

def ReadsAs (environ : Environ) (tokens : List Str) (stages : List Stage) : Prop :=
  ∃ local_, parseCommand environ tokens = .commands local_ stages

/-- A line of pipelines of synchronous commands. -/
structure CommandLine (env : Env World) (environ : Environ) (text : Str)
    (pipelines : List (List Stage)) : Prop where
  reads : ∃ commands, Collects environ text [] commands ∧
    List.Forall₂ (ReadsAs environ) (commands.map CommandParser.mergeRedirectionTokens) pipelines
  synchronous : ∀ stages ∈ pipelines, SynchronousPipeline env (· = none) stages

theorem ReadsAs.ne_nil {environ : Environ} {tokens : List Str} {stages : List Stage}
    (reads : ReadsAs environ tokens stages) : stages ≠ [] := by
  rcases reads with ⟨local_, parsed⟩
  simp only [parseCommand] at parsed
  split at parsed
  · split at parsed
    · cases parsed
      exact List.cons_ne_nil _ _
    · split at parsed
      · cases parsed
      · cases parsed
  · cases parsed

theorem pipelines_ne_nil {environ : Environ} {commands : List (List Str)}
    {pipelines : List (List Stage)} (reads : List.Forall₂ (ReadsAs environ) commands pipelines) :
    ∀ stages ∈ pipelines, stages ≠ [] := by
  induction reads with
  | nil => simp
  | cons first later induction =>
      intro stages member
      rcases List.mem_cons.mp member with rfl | member
      · exact first.ne_nil
      · exact induction stages member

/-! ## Sessions at a line -/

/-- A shell of the session that executes a line; the rest of its stack and its
variables. -/
structure Place where
  shell : Nat
  below : List Frame
  environ : Environ
  depth : Nat

structure Ready (place : Place) (pending : List (List Str)) (session : Session World) : Prop where
  cmdstack : session.cmdstack = .shell place.shell :: place.below
  pending : (session.shell place.shell).cmdpending = pending
  redirect : (session.shell place.shell).redirect = false
  environ : (session.shell place.shell).environ = place.environ
  depth : session.scriptDepth = place.depth

namespace Ready

variable {place : Place} {pending more : List (List Str)} {session next : Session World}

theorem untouched (ready : Ready place pending session) (same : Untouched session next) :
    Ready place pending next := by
  rcases ready with ⟨cmdstack, isPending, redirect, environ, depth⟩
  have sameShell : next.shell place.shell = session.shell place.shell := by
    unfold Session.shell
    rw [same.shells]
  constructor
  · rw [same.cmdstack, cmdstack]
  · rw [sameShell, isPending]
  · rw [sameShell, redirect]
  · rw [sameShell, environ]
  · rw [same.scriptDepth, depth]

theorem setPending (ready : Ready place pending session) (more : List (List Str)) :
    Ready place more (session.setPending place.shell more) := by
  have changed := session.shell_setPending_self place.shell more
  constructor
  · exact ready.cmdstack
  · rw [changed]
  · rw [changed]
    exact ready.redirect
  · rw [changed]
    exact ready.environ
  · exact ready.depth

end Ready

/-! ## Pipes of a pipeline -/

structure StagePipe (env : Env World) (stage : Stage) (input : Option Bytes) (next : Option Nat)
    (pipe : PipeProtocol) : Prop where
  cmd : pipe.cmd = commandClass env stage.command
  cmdargs : pipe.cmdargs = stage.rargs
  inputData : pipe.inputData = input
  nextCommand : pipe.nextCommand = next
  stdout : pipe.targets.lookup 1 = some (if next.isSome then .pipe else .terminal)
  stderr : pipe.targets.lookup 2 = some .terminal
  noError : pipe.hasRedirectionError = false

def Chain (env : Env World) (pipes : Heap PipeProtocol) :
    List Stage → (input : Option Bytes) → (pp : Nat) → Prop
  | [], _, _ => False
  | [stage], input, pp => StagePipe env stage input none (pipes.read pp)
  | stage :: stages, input, pp =>
      ∃ next, next < pp ∧ StagePipe env stage input (some next) (pipes.read pp) ∧
        Chain env pipes stages none next

theorem Chain.congr {pipes others : Heap PipeProtocol} {stages : List Stage}
    {input : Option Bytes} {pp : Nat} (chain : Chain env pipes stages input pp)
    (same : ∀ pipe ≤ pp, others.read pipe = pipes.read pipe) :
    Chain env others stages input pp := by
  induction stages generalizing input pp with
  | nil => exact chain
  | cons stage stages induction =>
      cases stages with
      | nil =>
          unfold Chain at chain ⊢
          rw [same pp (Nat.le_refl _)]
          exact chain
      | cons other stages =>
          rcases chain with ⟨next, before, pipe, chain⟩
          use next, before
          constructor
          · rw [same pp (Nat.le_refl _)]
            exact pipe
          · exact induction chain fun pipe below => same pipe (by omega)

theorem Chain.cases {pipes : Heap PipeProtocol} {stage : Stage} {stages : List Stage}
    {input : Option Bytes} {pp : Nat} (chain : Chain env pipes (stage :: stages) input pp) :
    (stages = [] ∧ StagePipe env stage input none (pipes.read pp)) ∨
    ∃ next, next < pp ∧ StagePipe env stage input (some next) (pipes.read pp) ∧
      Chain env pipes stages none next := by
  cases stages with
  | nil => exact .inl ⟨rfl, chain⟩
  | cons other stages => exact .inr chain

theorem Chain.withInput {pipes : Heap PipeProtocol} {stages : List Stage}
    {input : Option Bytes} {pp : Nat} (chain : Chain env pipes stages input pp)
    (other : Option Bytes) :
    Chain env (pipes.modify pp fun pipe => { pipe with inputData := other }) stages other pp := by
  cases stages with
  | nil => exact chain
  | cons stage stages =>
      rcases chain.cases with ⟨rfl, pipe⟩ | ⟨next, before, pipe, later⟩
      · unfold Chain
        rw [Heap.read_modify_self]
        exact { pipe with inputData := rfl }
      · have kept : Chain env (pipes.modify pp fun pipe => { pipe with inputData := other })
            stages none next :=
          later.congr fun pipe below => Heap.read_modify_other _ (by omega)
        have changed : StagePipe env stage other (some next)
            ((pipes.modify pp fun pipe => { pipe with inputData := other }).read pp) := by
          rw [Heap.read_modify_self]
          exact { pipe with inputData := rfl }
        cases stages with
        | nil => exact kept.elim
        | cons _ _ => exact ⟨next, before, changed, kept⟩

/-! ## Output of a stage -/

def absorb (input : Option Bytes) (outputs : List (Output World)) : Option Bytes :=
  outputs.foldl (fun input output =>
    match output with
    | .write data => some (input.getD [] ++ data)
    | _ => input) input

theorem absorb_some (input : Bytes) (outputs : List (Output World)) :
    absorb (some input) outputs = some (input ++ (written outputs).flatten) := by
  induction outputs generalizing input with
  | nil => simp [absorb, written]
  | cons output outputs induction =>
      cases output with
      | write data =>
          have later := induction (input ++ data)
          simp only [absorb, List.foldl_cons, Option.getD_some] at later ⊢
          rw [later]
          simp [written]
      | errorWrite data => exact induction input
      | update change => exact induction input

theorem absorb_none (outputs : List (Output World)) : absorb none outputs = piped outputs := by
  induction outputs with
  | nil => rfl
  | cons output outputs induction =>
      cases output with
      | write data =>
          have later := absorb_some data outputs
          simp only [absorb, List.foldl_cons, Option.getD_none, List.nil_append] at later ⊢
          rw [later]
          simp [piped, written]
      | errorWrite data => exact induction
      | update change => exact induction

structure Wrote (pp : Nat) (next : Option Nat) (outputs : List (Output World))
    (before after : Session World) : Prop where
  untouched : Untouched before after
  world : after.world = effect before.world outputs
  own : ∃ errData, after.pipe pp = { before.pipe pp with errData }
  nextPipe : ∀ pipe, next = some pipe →
    after.pipe pipe =
      { before.pipe pipe with inputData := absorb (before.pipe pipe).inputData outputs }
  others : ∀ pipe, pipe ≠ pp → next ≠ some pipe → after.pipe pipe = before.pipe pipe
  allocated : after.pipes.next = before.pipes.next

section Output

variable {pp : Nat} {next : Option Nat} {stage : Stage} {input : Option Bytes}
  {session middle last : Session World}

theorem Wrote.trans {outputs more : List (Output World)} (first : Wrote pp next outputs session middle)
    (later : Wrote pp next more middle last) : Wrote pp next (outputs ++ more) session last := by
  constructor
  · exact first.untouched.trans later.untouched
  · rw [later.world, first.world]
    simp [effect, List.foldl_append]
  · rcases first.own with ⟨few, own⟩
    rcases later.own with ⟨all, ownLater⟩
    use all
    rw [ownLater, own]
  · intro pipe isNext
    rw [later.nextPipe pipe isNext, first.nextPipe pipe isNext]
    simp [absorb, List.foldl_append]
  · intro pipe notOwn notNext
    rw [later.others pipe notOwn notNext, first.others pipe notOwn notNext]
  · rw [later.allocated, first.allocated]

theorem StagePipe.withErrData {pipe : PipeProtocol} (own : StagePipe env stage input next pipe)
    (errData : Bytes) : StagePipe env stage input next { pipe with errData } :=
  ⟨own.cmd, own.cmdargs, own.inputData, own.nextCommand, own.stdout, own.stderr, own.noError⟩

theorem wrote_output (own : StagePipe env stage input next (session.pipe pp)) (forward : next ≠ some pp)
    (output : Output World) : Wrote pp next [output] session (performOutput env pp session output) := by
  have untouched := Untouched.performOutput env pp session output
  cases output with
  | write data =>
      cases next with
      | none =>
          have shown : writeStdout env data pp session =
              { session with terminal := session.terminal ++ data } := by
            simp [writeStdout, writeToFd, own.stdout]
          rw [performOutput, shown] at untouched ⊢
          exact ⟨untouched, rfl, ⟨_, rfl⟩, by simp, fun _ _ _ => rfl, rfl⟩
      | some next =>
          have passed : writeStdout env data pp session =
              session.modifyPipe next fun object =>
                { object with inputData := some (object.inputData.getD [] ++ data) } := by
            simp [writeStdout, writeToFd, own.stdout, pipeToNext, own.nextCommand]
          have differs : pp ≠ next := fun equal => forward (congrArg some equal.symm)
          rw [performOutput, passed] at untouched ⊢
          constructor
          · exact untouched
          · rfl
          · use (session.pipe pp).errData
            rw [session.pipe_modifyPipe_other _ differs]
          · intro pipe isNext
            cases isNext
            rw [session.pipe_modifyPipe_self]
            rfl
          · intro pipe notOwn notNext
            have other : pipe ≠ next := fun equal => notNext (congrArg some equal.symm)
            rw [session.pipe_modifyPipe_other _ other]
          · rfl
  | errorWrite data =>
      have targets : ((session.modifyPipe pp fun object =>
          { object with errData := object.errData ++ data }).pipe pp).targets.lookup 2 =
            some .terminal := by
        rw [session.pipe_modifyPipe_self]
        exact own.stderr
      have shown : ∃ terminal, writeStderr env data pp session =
          { (session.modifyPipe pp fun object =>
              { object with errData := object.errData ++ data }) with terminal } := by
        use session.terminal ++ data
        simp only [writeStderr, writeToFd, targets]
        rfl
      rcases shown with ⟨terminal, shown⟩
      rw [performOutput, shown] at untouched ⊢
      have others (pipe : Nat) (notOwn : pipe ≠ pp) :
          (session.modifyPipe pp fun object =>
            { object with errData := object.errData ++ data }).pipe pipe = session.pipe pipe :=
        session.pipe_modifyPipe_other _ notOwn
      constructor
      · exact untouched
      · rfl
      · use (session.pipe pp).errData ++ data
        exact session.pipe_modifyPipe_self pp fun object =>
          { object with errData := object.errData ++ data }
      · intro pipe isNext
        have differs : pipe ≠ pp := fun equal => forward (isNext.trans (congrArg some equal))
        exact others pipe differs
      · intro pipe notOwn _
        exact others pipe notOwn
      · rfl
  | update change =>
      exact ⟨untouched, rfl, ⟨_, rfl⟩, fun _ _ => rfl, fun _ _ _ => rfl, rfl⟩

theorem ticks_outputs (own : StagePipe env stage input next (session.pipe pp))
    (forward : next ≠ some pp) (outputs : List (Output World)) (id : Nat)
    (actions : List (Action World)) (agenda : List (Task World)) :
    ∃ last, Wrote pp next outputs session last ∧
      Ticks env
        { session, agenda := .perform id pp (outputs.map .output ++ actions) :: agenda }
        { session := last, agenda := .perform id pp actions :: agenda } := by
  induction outputs generalizing session with
  | nil =>
      use session
      exact ⟨⟨.refl _, rfl, ⟨_, rfl⟩, fun _ _ => rfl, fun _ _ _ => rfl, rfl⟩, .refl _⟩
  | cons output outputs induction =>
      have wrote := wrote_output own forward output
      have ownLater : StagePipe env stage input next
          ((performOutput env pp session output).pipe pp) := by
        rcases wrote.own with ⟨errData, equal⟩
        rw [equal]
        exact own.withErrData errData
      rcases induction ownLater with ⟨last, later, ticks⟩
      use last, wrote.trans later
      exact ticks_proceed _ _ _ ticks

end Output

/-! ## One command -/

/-- The session once the first stage of a chain has exited: its pipe is the current one,
and the later stages have their pipes, the first of them with what it wrote. -/
structure Exited (env : Env World) (place : Place) (pending : List (List Str))
    (stages : List Stage) (input : Option Bytes) (session : Session World) : Prop where
  ready : Ready place pending session
  current : ∃ pp, session.pp = some pp ∧
    ((stages = [] ∧ (session.pipe pp).nextCommand = none) ∨
      ∃ next, (session.pipe pp).nextCommand = some next ∧
        Chain env session.pipes stages input next)

theorem Exited.untouched {place : Place} {pending : List (List Str)} {stages : List Stage}
    {input : Option Bytes} {session last : Session World}
    (exited : Exited env place pending stages input session) (same : Untouched session last)
    (pipes : last.pipes = session.pipes) : Exited env place pending stages input last := by
  rcases exited with ⟨ready, pp, current, rest⟩
  constructor
  · exact ready.untouched same
  · use pp
    constructor
    · rw [same.pp, current]
    · unfold Session.pipe
      rw [pipes]
      exact rest

section Call

variable {place : Place} {pending : List (List Str)} {stage : Stage} {stages : List Stage}
  {input : Option Bytes} {session : Session World} {pp : Nat}

theorem resume_shell (ready : Ready place pending session) (agenda : List (Task World)) :
    resume env agenda session = runCommand env place.shell agenda session := by
  simp only [resume, ready.cmdstack]

def Session.called (pp : Nat) (command : Started) (session : Session World) : Session World :=
  { session with
    pp := some pp
    cmdstack := .command session.started.length :: session.cmdstack
    started := session.started ++ [command] }

theorem ticks_called {next : Option Nat} {outputs : List (Output World)} {rest : List (Action World)}
    {cmd : CommandClass} (own : StagePipe env stage input next (session.pipe pp))
    (forward : next ≠ some pp) (nonempty : session.cmdstack ≠ [])
    (known : commandClass env stage.command = some cmd)
    (starts : commandStart env cmd stage.rargs input session.scriptDepth session.world =
      outputs.map .output ++ rest) (agenda : List (Task World)) :
    ∃ done, Wrote pp next outputs (session.called pp ⟨cmd, stage.rargs, input⟩) done ∧
      Ticks env { session, agenda := .callCommand pp :: agenda }
        { session := done
          agenda := .perform session.started.length pp rest :: .outConnectionLost :: agenda } := by
  let called := session.called pp ⟨cmd, stage.rargs, input⟩
  have calls : proceed env (.callCommand pp) agenda session =
      { session := called
        agenda := .perform session.started.length pp (outputs.map .output ++ rest) ::
          .outConnectionLost :: agenda } := by
    rcases List.exists_cons_of_ne_nil nonempty with ⟨top, below, isStack⟩
    simp only [proceed, callCommand, isStack, own.cmd, known, own.cmdargs, own.inputData, starts]
    simp [called, Session.called, isStack]
  have ownCalled : StagePipe env stage input next (called.pipe pp) := own
  rcases ticks_outputs ownCalled forward outputs session.started.length rest
    (.outConnectionLost :: agenda) with ⟨done, wrote, outputTicks⟩
  use done, wrote
  apply ticks_proceed
  rw [calls]
  exact outputTicks

theorem Wrote.feeds {next : Nat} {outputs : List (Output World)} {before after : Session World}
    (wrote : Wrote pp (some next) outputs before after) (isBefore : next < pp)
    (later : Chain env before.pipes stages none next) :
    Chain env after.pipes stages (piped outputs) next := by
  have fed := later.withInput (piped outputs)
  apply fed.congr
  intro pipe below
  by_cases isNext : pipe = next
  · rw [isNext, Heap.read_modify_self]
    have written := wrote.nextPipe next rfl
    have fresh : (before.pipe next).inputData = none := by
      cases stages with
      | nil => exact later.elim
      | cons second stages =>
          rcases later.cases with ⟨_, pipe⟩ | ⟨_, _, pipe, _⟩
          · exact pipe.inputData
          · exact pipe.inputData
    rw [fresh, absorb_none] at written
    exact written
  · rw [Heap.read_modify_other _ isNext]
    apply wrote.others pipe (by omega)
    intro equal
    cases equal
    exact isNext rfl

abbrev Behind (env : Env World) (pipes : Heap PipeProtocol) (stages : List Stage)
    (input : Option Bytes) (next : Option Nat) (bound : Nat) : Prop :=
  (stages = [] ∧ next = none) ∨
    ∃ follower, next = some follower ∧ follower < bound ∧ Chain env pipes stages input follower

theorem Chain.own {pipes : Heap PipeProtocol} (chain : Chain env pipes (stage :: stages) input pp) :
    ∃ next, StagePipe env stage input next (pipes.read pp) ∧ next ≠ some pp ∧
      Behind env pipes stages none next pp := by
  rcases chain.cases with ⟨isLast, own⟩ | ⟨follower, before, own, later⟩
  · exact ⟨none, own, by simp, .inl ⟨isLast, rfl⟩⟩
  · have forward : some follower ≠ some pp := fun equal => by
      cases equal
      exact Nat.lt_irrefl _ before
    exact ⟨some follower, own, forward, .inr ⟨follower, rfl, before, later⟩⟩

theorem ticks_call {possible : Option Bytes → Prop} (ready : Ready place pending session)
    (synchronous : Synchronous env possible stage) (isPossible : possible input)
    (chain : Chain env session.pipes (stage :: stages) input pp) (agenda : List (Task World)) :
    ∃ last id,
      Exited env place pending stages
        (piped (stageOutputs env place.depth stage input session.world)) last ∧
      last.world = effect session.world (stageOutputs env place.depth stage input session.world) ∧
      last.started = session.started ++ [startedAs env stage input] ∧
      Ticks env { session, agenda := .callCommand pp :: agenda }
        (runCommand env place.shell (.perform id pp [] :: .outConnectionLost :: agenda) last) := by
  rcases Option.isSome_iff_exists.mp synchronous.known with ⟨cmd, known⟩
  rcases synchronous.exits cmd input place.depth session.world known isPossible with
    ⟨outputs, starts⟩
  have isOutputs : stageOutputs env place.depth stage input session.world = outputs := by
    simp only [stageOutputs, known, starts]
    simp [outputsOf, List.filterMap_append, List.filterMap_map]
  have isStarted : startedAs env stage input = ⟨cmd, stage.rargs, input⟩ := by
    simp only [startedAs, known, Option.getD_some]
  rw [isOutputs, isStarted]
  rcases chain.own with ⟨next, own, forward, later⟩
  let id := session.started.length
  have nonempty : session.cmdstack ≠ [] := by
    rw [ready.cmdstack]
    exact List.cons_ne_nil _ _
  rw [← ready.depth] at starts
  rcases ticks_called own forward nonempty known starts agenda with ⟨done, wrote, outputTicks⟩
  let last : Session World :=
    { done with cmdstack := session.cmdstack, removed := done.removed ++ [id] }
  have onTop : done.cmdstack = .command id :: session.cmdstack := wrote.untouched.cmdstack
  have readyLast : Ready place pending last := by
    rcases ready with ⟨cmdstack, isPending, redirect, environ, depth⟩
    have sameShell : last.shell place.shell = session.shell place.shell := by
      unfold Session.shell
      exact congrArg (fun shells : Heap HoneyPotShell => shells.read place.shell)
        wrote.untouched.shells
    constructor
    · exact cmdstack
    · rw [sameShell, isPending]
    · rw [sameShell, redirect]
    · rw [sameShell, environ]
    · exact wrote.untouched.scriptDepth.trans depth
  have exits : proceed env (.perform id pp [.exit]) (.outConnectionLost :: agenda) done =
      runCommand env place.shell (.perform id pp [] :: .outConnectionLost :: agenda) last := by
    simp only [proceed, performAction, exitCommand, onTop, List.cons_ne_nil, if_false,
      List.mem_cons, true_or, if_true, List.erase_cons_head]
    exact resume_shell readyLast _
  refine ⟨last, id, ⟨readyLast, pp, wrote.untouched.pp, ?_⟩, ?_, ?_, ?_⟩
  · rcases wrote.own with ⟨errData, isOwn⟩
    have nextCommand : (last.pipe pp).nextCommand = next :=
      (congrArg PipeProtocol.nextCommand isOwn).trans own.nextCommand
    rcases later with ⟨isLast, rfl⟩ | ⟨follower, rfl, before, chain⟩
    · exact .inl ⟨isLast, nextCommand⟩
    · exact .inr ⟨follower, nextCommand, wrote.feeds before chain⟩
  · exact wrote.world
  · exact wrote.untouched.started
  · apply outputTicks.trans
    apply ticks_proceed
    rw [exits]
    exact .refl _

/-! ## The last pipeline -/

theorem runCommand_done (exited : Exited env place [] stages input session)
    (agenda : List (Task World)) :
    ∃ last, runCommand env place.shell agenda session = { session := last, agenda } ∧
      Exited env place [] stages input last ∧ last.world = session.world ∧
      last.started = session.started := by
  rcases exited.current with ⟨pp, current, rest⟩
  simp only [runCommand, exited.ready.pending, current]
  split
  · exact ⟨session, rfl, exited, rfl, rfl⟩
  · split
    · refine ⟨_, rfl, exited.untouched (.showPrompt ..) ?_, ?_, ?_⟩
      · unfold Session.showPrompt
        split <;> rfl
      · unfold Session.showPrompt
        split <;> rfl
      · exact (Untouched.showPrompt ..).started
    · split
      · rcases exited.ready with ⟨cmdstack, isPending, redirect, environ, depth⟩
        exact ⟨_, rfl, ⟨⟨cmdstack, isPending, redirect, environ, depth⟩, pp, rfl, rest⟩, rfl, rfl⟩
      · exact ⟨session, rfl, exited, rfl, rfl⟩

theorem ticks_leftover {next : Nat} (current : session.pp = some next)
    (isLast : (session.pipe next).nextCommand = none) (id pp : Nat) (agenda : List (Task World)) :
    Ticks env { session, agenda := .perform id pp [] :: .outConnectionLost :: agenda }
      { session, agenda } := by
  apply ticks_proceed
  apply ticks_proceed
  have done : proceed env .outConnectionLost agenda session = { session, agenda } := by
    simp [proceed, outConnectionLost, current, isLast]
  rw [done]
  exact .refl _

structure Done (place : Place) (session : Session World) : Prop where
  ready : Ready place [] session
  current : ∃ pp, session.pp = some pp ∧ (session.pipe pp).nextCommand = none

theorem ticks_lastPipeline {possible : Option Bytes → Prop}
    (synchronous : SynchronousPipeline env possible stages) (isPossible : possible input)
    (ready : Ready place [] session) (chain : Chain env session.pipes stages input pp)
    (agenda : List (Task World)) :
    ∃ last, Done place last ∧
      last.started = session.started ++
        (pipelineInOrder env place.depth stages input session.world).1 ∧
      last.world = (pipelineInOrder env place.depth stages input session.world).2 ∧
      Ticks env { session, agenda := .callCommand pp :: agenda } { session := last, agenda } := by
  induction stages generalizing input session pp possible with
  | nil => exact chain.elim
  | cons stage stages induction =>
      rcases ticks_call ready synchronous.1 isPossible chain agenda with
        ⟨called, id, exited, world, started, callTicks⟩
      rcases runCommand_done exited (.perform id pp [] :: .outConnectionLost :: agenda) with
        ⟨resumed, resumes, exited, sameWorld, sameStarted⟩
      rw [resumes] at callTicks
      rw [← sameWorld] at world
      rw [← sameStarted] at started
      rcases exited.current with ⟨current, isCurrent, ⟨rfl, isLast⟩ | ⟨next, hasNext, chain⟩⟩
      · use resumed, ⟨exited.ready, current, isCurrent, isLast⟩
        constructor
        · rw [started]
          rfl
        · constructor
          · rw [world]
            rfl
          · exact callTicks.trans (ticks_leftover isCurrent isLast _ _ _)
      · have passed : Passes env possible stage
            (piped (stageOutputs env place.depth stage input session.world)) :=
          ⟨input, place.depth, session.world, isPossible, rfl⟩
        rcases induction synchronous.2 passed exited.ready chain with
          ⟨last, done, laterStarted, laterWorld, laterTicks⟩
        rw [world] at laterStarted laterWorld
        use last, done
        constructor
        · rw [laterStarted, started, List.append_assoc]
          rfl
        · constructor
          · exact laterWorld
          · apply callTicks.trans
            apply ticks_proceed
            apply ticks_proceed
            have goesOn : proceed env .outConnectionLost agenda resumed =
                { session := resumed, agenda := .callCommand next :: agenda } := by
              simp [proceed, outConnectionLost, isCurrent, hasNext]
            rw [goesOn]
            exact laterTicks

end Call

/-! ## Building a pipeline -/

section Build

variable {place : Place} {pending : List (List Str)} {session : Session World}

theorem newPipe_plain (spec : PipeSpec) (plain : spec.redirections = [])
    (session : Session World) :
    newPipe env spec session =
      (some session.pipes.next,
        { session with
          pipes := session.pipes.alloc
            { spec.initial with
              hasRedirectionError := (spec.nextCommand.map fun next =>
                (session.pipe next).hasRedirectionError).getD false } }) := by
  simp [newPipe, plain, setupRedirections, setupOperations, pendingStdinTarget, PipeSpec.initial]

def Built (env : Env World) (pipes : Heap PipeProtocol) (stages : List Stage) (pp : Option Nat) :
    Prop :=
  match pp with
  | none => stages = []
  | some pp => pp < pipes.next ∧ Chain env pipes stages none pp

theorem ticks_buildStage {stage : Stage} {done : List Stage} {lastpp : Option Nat}
    (ready : Ready place pending session) (known : Known env stage)
    (built : Built env session.pipes done lastpp) (environ : Environ) (todo : List Stage)
    (agenda : List (Task World)) :
    ∃ last pp, Ready place pending last ∧ Built env last.pipes (stage :: done) (some pp) ∧
      Untouched session last ∧ last.world = session.world ∧
      proceed env (.build place.shell environ (stage :: todo) lastpp) agenda session =
        { session := last, agenda := .build place.shell environ todo (some pp) :: agenda } := by
  rcases Option.isSome_iff_exists.mp known.known with ⟨cmd, isCommand⟩
  have found := getCommand_of_commandClass known.visible isCommand
    (Text.splitChar ':' environ.path) session.world
  let spec : PipeSpec :=
    { cmd := some cmd, cmdargs := stage.rargs, nextCommand := lastpp
      redirect := (session.shell place.shell).redirect, redirections := stage.redirects }
  have untouched : Untouched session (newPipe env spec session).2 := Untouched.newPipe ..
  have made := @newPipe_plain _ env spec known.plain session
  have noError : (spec.nextCommand.map fun next =>
      (session.pipe next).hasRedirectionError).getD false = false := by
    cases lastpp with
    | none => rfl
    | some next =>
        cases done with
        | nil => exact built.2.elim
        | cons second done =>
            rcases built.2.cases with ⟨_, pipe⟩ | ⟨_, _, pipe, _⟩
            · exact pipe.noError
            · exact pipe.noError
  rw [noError] at made
  rw [made] at untouched
  have own : StagePipe env stage none lastpp
      { spec.initial with hasRedirectionError := false } := by
    constructor
    · exact isCommand.symm
    · rfl
    · rfl
    · rfl
    · simp only [PipeSpec.initial, spec, ready.redirect]
      rfl
    · rfl
    · rfl
  refine ⟨_, session.pipes.next, ready.untouched untouched, ?_, untouched, rfl, ?_⟩
  · constructor
    · exact Nat.lt_succ_self _
    · cases lastpp with
      | none =>
          cases built
          unfold Chain
          rw [Heap.read_alloc_self]
          exact own
      | some next =>
          have kept : Chain env (session.pipes.alloc _) done none next :=
            built.2.congr fun pipe below =>
              Heap.read_alloc_other { spec.initial with hasRedirectionError := false }
                (Nat.lt_of_le_of_lt below built.1)
          cases done with
          | nil => exact built.2.elim
          | cons second done =>
              refine ⟨next, built.1, ?_, kept⟩
              rw [Heap.read_alloc_self]
              exact own
  · simp only [proceed, buildStage, found]
    rw [made]

theorem ticks_build {stages : List Stage} (ready : Ready place pending session)
    (known : ∀ stage ∈ stages, Known env stage) (nonempty : stages ≠ [])
    (environ : Environ) (agenda : List (Task World)) :
    ∃ last pp, Ready place pending last ∧ Chain env last.pipes stages none pp ∧
      pp < last.pipes.next ∧ Untouched session last ∧ last.world = session.world ∧
      Ticks env
        { session, agenda := .build place.shell environ stages.reverse none :: agenda }
        { session := last, agenda := .callCommand pp :: agenda } := by
  have rounds (todo done : List Stage) (lastpp : Option Nat) (session : Session World)
      (ready : Ready place pending session) (built : Built env session.pipes done lastpp)
      (known : ∀ stage ∈ todo, Known env stage) (nonempty : todo.reverse ++ done ≠ []) :
      ∃ last pp, Ready place pending last ∧
        Chain env last.pipes (todo.reverse ++ done) none pp ∧ pp < last.pipes.next ∧
        Untouched session last ∧ last.world = session.world ∧
        Ticks env { session, agenda := .build place.shell environ todo lastpp :: agenda }
          { session := last, agenda := .callCommand pp :: agenda } := by
    induction todo generalizing done lastpp session with
    | nil =>
        cases lastpp with
        | none => exact absurd built nonempty
        | some pp =>
            use session, pp, ready, built.2, built.1, .refl _, rfl
            apply ticks_proceed
            have noError : (session.pipe pp).hasRedirectionError = false := by
              cases done with
              | nil => exact built.2.elim
              | cons second done =>
                  rcases built.2.cases with ⟨_, pipe⟩ | ⟨_, _, pipe, _⟩
                  · exact pipe.noError
                  · exact pipe.noError
            have calls : proceed env (.build place.shell environ [] (some pp)) agenda session =
                { session, agenda := .callCommand pp :: agenda } := by
              simp [proceed, callBuilt, noError]
            rw [calls]
            exact .refl _
    | cons stage todo induction =>
        rcases ticks_buildStage ready (known stage (by simp)) built environ todo agenda with
          ⟨middle, next, readyMiddle, builtMiddle, untouched, world, builds⟩
        rcases induction (stage :: done) (some next) middle readyMiddle builtMiddle
          (fun stage member => known stage (by simp [member])) (by simp) with
          ⟨last, pp, readyLast, chain, allocated, later, worldLater, ticks⟩
        use last, pp, readyLast
        constructor
        · simpa using chain
        · use allocated, untouched.trans later, worldLater.trans world
          apply ticks_proceed
          rw [builds]
          exact ticks
  rcases rounds stages.reverse [] none session ready rfl
    (fun stage member => known stage (List.mem_reverse.mp member)) (by simpa using nonempty)
    with ⟨last, pp, readyLast, chain, allocated, untouched, world, ticks⟩
  use last, pp, readyLast
  constructor
  · simpa using chain
  · exact ⟨allocated, untouched, world, ticks⟩

end Build

/-! ## A line -/

section Line

variable {place : Place} {pending : List (List Str)} {session : Session World}

theorem runCommand_next {tokens : List Str} {stages : List Stage}
    (ready : Ready place (tokens :: pending) session) (reads : ReadsAs place.environ tokens stages)
    (agenda : List (Task World)) :
    ∃ environ, runCommand env place.shell agenda session =
      { session := session.setPending place.shell pending
        agenda := .build place.shell environ stages.reverse none :: agenda } := by
  rcases reads with ⟨environ, parsed⟩
  use environ
  have sameEnviron : ((session.setPending place.shell pending).shell place.shell).environ =
      place.environ := (ready.setPending pending).environ
  simp only [runCommand, ready.pending, runNext, sameEnviron, parsed]

theorem runOrPrompt_next {tokens : List Str} {stages : List Stage}
    (ready : Ready place (tokens :: pending) session) (reads : ReadsAs place.environ tokens stages)
    (agenda : List (Task World)) :
    ∃ environ, proceed env (.runOrPrompt place.shell) agenda session =
      { session := session.setPending place.shell pending
        agenda := .build place.shell environ stages.reverse none :: agenda } := by
  rcases reads with ⟨environ, parsed⟩
  use environ
  have sameEnviron : ((session.setPending place.shell pending).shell place.shell).environ =
      place.environ := (ready.setPending pending).environ
  simp only [proceed, runOrPrompt, ready.pending, runNext, sameEnviron, parsed]

theorem ticks_line {stages : List Stage} {pipelines : List (List Stage)}
    (ready : Ready place pending session)
    (reads : List.Forall₂ (ReadsAs place.environ) pending pipelines)
    (nonempty : ∀ some_ ∈ stages :: pipelines, some_ ≠ [])
    (synchronous : ∀ some_ ∈ stages :: pipelines, SynchronousPipeline env (· = none) some_)
    (environ : Environ) (agenda : List (Task World)) :
    ∃ last, Done place last ∧
      last.started = session.started ++
        (lineAsExecuted env place.depth (stages :: pipelines) session.world).1 ∧
      Ticks env { session, agenda := .build place.shell environ stages.reverse none :: agenda }
        { session := last, agenda } := by
  induction pipelines generalizing stages pending session environ agenda with
  | nil =>
      cases reads
      have ours := synchronous stages (by simp)
      rcases ticks_build ready ours.known (nonempty stages (by simp)) environ agenda with
        ⟨built, pp, readyBuilt, chain, _, untouched, world, buildTicks⟩
      rcases ticks_lastPipeline ours rfl readyBuilt chain agenda with
        ⟨last, done, started, _, ticks⟩
      use last, done
      rw [started, untouched.started, world]
      exact ⟨rfl, buildTicks.trans ticks⟩
  | cons following pipelines induction =>
      rcases List.forall₂_cons_right_iff.mp reads with ⟨tokens, more, readsNext, readsMore, rfl⟩
      have ours := synchronous stages (by simp)
      rcases ticks_build ready ours.known (nonempty stages (by simp)) environ agenda with
        ⟨built, pp, readyBuilt, chain, _, untouched, world, buildTicks⟩
      cases stages with
      | nil => exact absurd rfl (nonempty [] (by simp))
      | cons stage stages =>
          rcases ticks_call readyBuilt ours.1 rfl chain agenda with
            ⟨called, id, exited, calledWorld, calledStarted, callTicks⟩
          rcases @runCommand_next _ env _ _ _ _ _ exited.ready readsNext
            (.perform id pp [] :: .outConnectionLost :: agenda) with ⟨nextEnviron, resumes⟩
          rw [resumes] at callTicks
          rcases induction (exited.ready.setPending more) readsMore
            (fun some_ member => nonempty some_ (List.mem_cons_of_mem _ member))
            (fun some_ member => synchronous some_ (List.mem_cons_of_mem _ member))
            nextEnviron (.perform id pp [] :: .outConnectionLost :: agenda) with
            ⟨last, done, started, ticks⟩
          rcases done.current with ⟨current, isCurrent, isLast⟩
          use last, done
          constructor
          · have startedCalled : (called.setPending place.shell more).started = called.started := rfl
            have worldCalled : (called.setPending place.shell more).world = called.world := rfl
            rw [started, startedCalled, worldCalled, calledStarted, calledWorld,
              untouched.started, world, List.append_assoc]
            rfl
          · apply buildTicks.trans
            apply callTicks.trans
            exact ticks.trans (ticks_leftover isCurrent isLast _ _ _)

structure OnlyPending (shell : Nat) (before after : Session World) : Prop where
  world : after.world = before.world
  started : after.started = before.started
  removed : after.removed = before.removed
  pp : after.pp = before.pp
  pipes : after.pipes = before.pipes
  allocated : after.shells.next = before.shells.next
  interactive : ∀ other, (after.shell other).interactive = (before.shell other).interactive
  others : ∀ other ≠ shell, after.shell other = before.shell other

theorem OnlyPending.refl (shell : Nat) (session : Session World) :
    OnlyPending shell session session :=
  ⟨rfl, rfl, rfl, rfl, rfl, rfl, fun _ => rfl, fun _ _ => rfl⟩

theorem OnlyPending.trans {shell : Nat} {middle last : Session World}
    (first : OnlyPending shell session middle) (later : OnlyPending shell middle last) :
    OnlyPending shell session last where
  world := later.world.trans first.world
  started := later.started.trans first.started
  removed := later.removed.trans first.removed
  pp := later.pp.trans first.pp
  pipes := later.pipes.trans first.pipes
  allocated := later.allocated.trans first.allocated
  interactive other := (later.interactive other).trans (first.interactive other)
  others other differs := (later.others other differs).trans (first.others other differs)

theorem OnlyPending.setPending (session : Session World) (shell : Nat)
    (pending : List (List Str)) : OnlyPending shell session (session.setPending shell pending) := by
  constructor
  · rfl
  · rfl
  · rfl
  · rfl
  · rfl
  · rfl
  rotate_left
  · intro other differs
    exact session.shell_setPending_other _ differs
  · intro other
    by_cases same : other = shell
    · rw [same, session.shell_setPending_self]
    · rw [session.shell_setPending_other _ same]

theorem ticks_read {text : Str} {tokens : List Str} {commands : List (List Str)}
    (collects : Collects place.environ text tokens commands) (ready : Ready place pending session)
    (agenda : List (Task World)) :
    ∃ last,
      Ready place ((pending ++ commands).map CommandParser.mergeRedirectionTokens) last ∧
      OnlyPending place.shell session last ∧
      Ticks env { session, agenda := .readTokens ⟨place.shell, text, tokens⟩ :: agenda }
        { session := last, agenda := .runOrPrompt place.shell :: agenda } := by
  have added (tokens : List Str) {session : Session World} {pending : List (List Str)}
      (ready : Ready place pending session) :
      Ready place (pending ++ if tokens = [] then [] else [tokens])
          (session.addPending place.shell tokens) ∧
        OnlyPending place.shell session (session.addPending place.shell tokens) := by
    unfold Session.addPending
    split
    · rw [List.append_nil]
      exact ⟨ready, .refl _ session⟩
    · rw [ready.pending]
      exact ⟨ready.setPending _, .setPending ..⟩
  induction collects generalizing session pending with
  | @last text rest tokens ends =>
      rcases added tokens ready with ⟨readyAdded, only⟩
      refine ⟨_, readyAdded.setPending _, only.trans (.setPending ..), ?_⟩
      apply ticks_proceed
      have finishes : proceed env (.readTokens ⟨place.shell, text, tokens⟩) agenda session =
          finishReading place.shell agenda (session.addPending place.shell tokens) := by
        simp only [proceed, readTokens, ends]
      rw [finishes, finishReading, readyAdded.pending]
      exact .refl _
  | @word text rest tok word tokens commands first collected later induction =>
      rcases induction ready with ⟨last, readyLast, only, ticks⟩
      use last, readyLast, only
      apply ticks_proceed
      have collects : proceed env (.readTokens ⟨place.shell, text, tokens⟩) agenda session =
          { session
            agenda := .readTokens ⟨place.shell, rest, tokens ++ [word]⟩ :: agenda } := by
        simp only [proceed, readTokens, first, ready.environ, collected]
      rw [collects]
      exact ticks
  | @dropped text rest tok tokens commands first drop later induction =>
      rcases induction ready with ⟨last, readyLast, only, ticks⟩
      use last, readyLast, only
      apply ticks_proceed
      have drops : proceed env (.readTokens ⟨place.shell, text, tokens⟩) agenda session =
          { session, agenda := .readTokens ⟨place.shell, rest, tokens⟩ :: agenda } := by
        simp only [proceed, readTokens, first, ready.environ, drop]
      rw [drops]
      exact ticks
  | @separator text rest tok tokens commands first finish later induction =>
      rcases added tokens ready with ⟨readyAdded, onlyAdded⟩
      rcases induction readyAdded with ⟨last, readyLast, only, ticks⟩
      rw [List.append_assoc] at readyLast
      use last, readyLast, onlyAdded.trans only
      apply ticks_proceed
      have separates : proceed env (.readTokens ⟨place.shell, text, tokens⟩) agenda session =
          { session := session.addPending place.shell tokens
            agenda := .readTokens ⟨place.shell, rest, []⟩ :: agenda } := by
        simp only [proceed, readTokens, first, ready.environ, finish]
      rw [separates]
      exact ticks

end Line

/-- All calls have returned, and the shell waits for a line. -/
structure Idle (place : Place) (machine : Machine World) : Prop where
  agenda : machine.agenda = []
  returned : machine.raised = false
  ready : Ready place [] machine.session

theorem idle_connectionMade (env : Env World) (world : World) :
    Idle ⟨0, [], env.environ, 0⟩ (connectionMade env world) := by
  constructor
  · rfl
  · rfl
  · have started : Ready ⟨0, [], env.environ, 0⟩ []
        (({ world, cmdstack := [], shells := .empty, pipes := .empty } : Session World).pushShell
          { interactive := !env.exec, environ := env.environ }) := by
      constructor <;> rfl
    exact started.untouched (.showPrompt ..)

/-- The commands of a line of pipelines are started once each, from left to right and one
pipeline after another, each with what the stage before it wrote, exactly when only the
last pipeline has more stages than one. -/
theorem pipelines_in_order_iff {machine : Machine World} {place : Place} {text : Str}
    {pipelines : List (List Stage)} (idle : Idle place machine)
    (line : CommandLine env place.environ text pipelines) :
    ∃ ticks final,
      EventRun.run (step env) machine (.line text :: List.replicate ticks .tick) = some final ∧
      Idle place final ∧
      (final.session.started = machine.session.started ++
          (lineInOrder env place.depth pipelines machine.session.world).1 ↔
        SingleBeforeLast pipelines) := by
  rcases machine with ⟨session, agenda, raised⟩
  have ready : Ready place [] session := idle.ready
  rcases idle with ⟨rfl, rfl, _⟩
  rcases line.reads with ⟨commands, collects, reads⟩
  rcases ticks_read collects ready [] with ⟨read, readyRead, only, readTicks⟩
  have world := only.world
  have started := only.started
  have nonempty := pipelines_ne_nil reads
  have received : step env { session } (.line text) =
      some { session, agenda := [.readTokens ⟨place.shell, text, []⟩] } := by
    simp [step, lineReceived, ready.cmdstack]
  obtain ⟨last, readyLast, startedLast, ticks⟩ : ∃ last, Ready place [] last ∧
      last.started = session.started ++
        (lineAsExecuted env place.depth pipelines session.world).1 ∧
      Ticks env { session := read, agenda := [.runOrPrompt place.shell] } { session := last } := by
    rw [List.nil_append] at readyRead
    cases pipelines with
    | nil =>
        rw [List.forall₂_nil_right_iff.mp reads] at readyRead
        use read.showPrompt env place.shell, readyRead.untouched (.showPrompt ..)
        constructor
        · rw [(Untouched.showPrompt ..).started, started]
          simp [lineAsExecuted]
        · apply ticks_proceed
          have prompts : proceed env (.runOrPrompt place.shell) [] read =
              { session := read.showPrompt env place.shell } := by
            simp only [proceed, runOrPrompt, readyRead.pending]
          rw [prompts]
          exact .refl _
    | cons stages pipelines =>
        rcases List.forall₂_cons_right_iff.mp reads with ⟨tokens, more, readsFirst, readsMore, isReads⟩
        rw [isReads] at readyRead
        rcases @runOrPrompt_next _ env _ _ _ _ _ readyRead readsFirst [] with ⟨environ, first⟩
        rcases ticks_line (readyRead.setPending more) readsMore nonempty line.synchronous environ []
          with ⟨last, done, startedLast, ticks⟩
        use last, done.ready
        constructor
        · have sameStarted : (read.setPending place.shell more).started = read.started := rfl
          have sameWorld : (read.setPending place.shell more).world = read.world := rfl
          rw [startedLast, sameStarted, sameWorld, started, world]
        · apply ticks_proceed
          rw [first]
          exact ticks
  rcases readTicks.trans ticks with ⟨count, ran⟩
  use count, { session := last }
  constructor
  · exact EventRun.run_cons.mpr ⟨_, received, ran⟩
  · constructor
    · exact ⟨rfl, rfl, readyLast⟩
    · rw [startedLast, List.append_cancel_left_eq]
      exact lineAsExecuted_eq_iff env place.depth nonempty session.world

section Echo

def echoStage (word : String) : Stage := ⟨"echo".toList, [word.toList], []⟩

def catStage : Stage := ⟨"cat".toList, [], []⟩

theorem synchronous_echo (word : String) (possible : Option Bytes → Prop) :
    Synchronous Env.small possible (echoStage word) := by
  have visible : Text.strip "echo".toList ≠ [] := by decide
  refine ⟨⟨rfl, visible, rfl⟩, ?_⟩
  intro cmd input depth world isCommand _
  cases isCommand
  exact ⟨[.write (Utf8.encode (Text.join " ".toList [word.toList] ++ "\n".toList))], rfl⟩

theorem synchronous_cat {possible : Option Bytes → Prop}
    (some_ : ∀ input, possible input → ∃ data, input = some data) :
    Synchronous Env.small possible catStage := by
  have visible : Text.strip "cat".toList ≠ [] := by decide
  refine ⟨⟨rfl, visible, rfl⟩, ?_⟩
  intro cmd input depth world isCommand isPossible
  cases isCommand
  rcases some_ input isPossible with ⟨data, rfl⟩
  have written : ∃ outputs : List (Output Unit), catOutput data = outputs.map .output := by
    use (let lines := data.splitOn 10
      let lines := if lines.getLast? = some [] then lines.dropLast else lines
      lines.map fun line => .write (line ++ [10]))
    simp [catOutput]
  rcases written with ⟨outputs, written⟩
  use outputs
  rw [← written]
  rfl

theorem synchronous_echo_cat (word : String) :
    SynchronousPipeline Env.small (· = none) [echoStage word, catStage] := by
  refine ⟨synchronous_echo .., synchronous_cat ?_, trivial⟩
  rintro _ ⟨input, depth, world, _, rfl⟩
  exact ⟨_, rfl⟩

/-- A line whose last pipeline alone has more than one stage. -/
theorem pipelines_in_order_echo :
    ∃ ticks final,
      EventRun.run (step Env.small) (connectionMade Env.small ())
        (.line "echo a; echo b | cat".toList :: List.replicate ticks .tick) = some final ∧
      Idle ⟨0, [], Env.small.environ, 0⟩ final ∧
      (final.session.started = (connectionMade Env.small ()).session.started ++
          (lineInOrder Env.small 0 [[echoStage "a"], [echoStage "b", catStage]] ()).1 ↔
        SingleBeforeLast [[echoStage "a"], [echoStage "b", catStage]]) := by
  apply pipelines_in_order_iff (idle_connectionMade Env.small ())
  constructor
  · refine ⟨[["echo".toList, "a".toList],
      ["echo".toList, "b".toList, "|".toList, "cat".toList]], ?_, ?_⟩
    · exact .word rfl rfl (.word rfl rfl (.separator rfl rfl
        (.word rfl rfl (.word rfl rfl (.word rfl rfl (.word rfl rfl (.last rfl)))))))
    · exact .cons ⟨_, rfl⟩ (.cons ⟨_, rfl⟩ .nil)
  · intro stages member
    rcases List.mem_cons.mp member with rfl | member
    · exact ⟨synchronous_echo .., trivial⟩
    · rw [List.mem_singleton.mp member]
      exact synchronous_echo_cat "b"

/-- Of `echo a | cat` before another command, `cat` is never started. -/
theorem later_stages_lost :
    CommandLine Env.small Env.small.environ "echo a | cat; echo b".toList
      [[echoStage "a", catStage], [echoStage "b"]] ∧
    ∃ final,
      EventRun.run (step Env.small) (connectionMade Env.small ())
        (.line "echo a | cat; echo b".toList :: List.replicate 24 .tick) = some final ∧
      final.agenda.length = 0 ∧ final.raised = false ∧
      final.session.terminal = Utf8.encode "# b\n# ".toList ∧
      final.session.started ≠
        (lineInOrder Env.small 0 [[echoStage "a", catStage], [echoStage "b"]] ()).1 := by
  constructor
  · constructor
    · refine ⟨[["echo".toList, "a".toList, "|".toList, "cat".toList],
        ["echo".toList, "b".toList]], ?_, ?_⟩
      · exact .word rfl rfl (.word rfl rfl (.word rfl rfl (.word rfl rfl (.separator rfl rfl
          (.word rfl rfl (.word rfl rfl (.last rfl)))))))
      · exact .cons ⟨_, rfl⟩ (.cons ⟨_, rfl⟩ .nil)
    · intro stages member
      rcases List.mem_cons.mp member with rfl | member
      · exact synchronous_echo_cat "a"
      · rw [List.mem_singleton.mp member]
        exact ⟨synchronous_echo .., trivial⟩
  · refine ⟨_, rfl, ?_, ?_, ?_, ?_⟩
    · rfl
    · rfl
    · rfl
    · decide

end Echo

end Shell

end LlmHoneypot
