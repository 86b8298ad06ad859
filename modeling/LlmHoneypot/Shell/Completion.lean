import LlmHoneypot.Shell.EndOfInput

/-! # Completion of pipelines

A pipeline of filters comes to its end, with the stack as it was and a new prompt, exactly
when every stage reads its input to the end. -/

namespace LlmHoneypot

namespace Shell

variable {World : Type} {env : Env World} {session : Session World} {stack : List Frame}

/-! ## The frame below a command -/

def topShell : List Frame → Option Nat
  | .shell shell :: _ => some shell
  | _ => none

theorem topShell_eq_some {shell : Nat} (isTop : topShell stack = some shell) :
    ∃ below, stack = .shell shell :: below := by
  cases stack with
  | nil => cases isTop
  | cons frame below =>
      cases frame with
      | command id => cases isTop
      | shell top =>
          rw [← Option.some.inj isTop]
          exact ⟨below, rfl⟩

structure Standing (stack : List Frame) (session : Session World) : Prop where
  cmdstack : session.cmdstack = stack
  nonempty : stack ≠ []
  pending : ∀ shell ∈ topShell stack, (session.shell shell).cmdpending = []
  allocated : ∀ shell ∈ topShell stack, shell < session.shells.next

def Prompted (env : Env World) (stack : List Frame) (session : Session World) : Prop :=
  ∀ shell ∈ topShell stack, (session.shell shell).interactive = true →
    ∃ shown, session.terminal = shown ++ Utf8.encode (env.prompt session.world)

structure Resumed (before after : Session World) : Prop where
  cmdstack : after.cmdstack = before.cmdstack
  shells : after.shells = before.shells
  pipes : after.pipes = before.pipes
  pp : after.pp = before.pp
  world : after.world = before.world
  started : after.started = before.started
  removed : after.removed = before.removed

theorem Standing.resumed {last : Session World} (standing : Standing stack session)
    (resumed : Resumed session last) : Standing stack last := by
  have sameShell (shell : Nat) : last.shell shell = session.shell shell := by
    rw [Session.shell, resumed.shells]
    rfl
  constructor
  · rw [resumed.cmdstack, standing.cmdstack]
  · exact standing.nonempty
  · intro shell isTop
    rw [sameShell]
    exact standing.pending shell isTop
  · rw [resumed.shells]
    exact standing.allocated

theorem resume_standing {current : Nat} (standing : Standing stack session)
    (isCurrent : session.pp = some current) (agenda : List (Task World)) :
    ∃ last, resume env agenda session = { session := last, agenda } ∧ Resumed session last ∧
      ((session.pipe current).nextCommand = none → Prompted env stack last) := by
  have refl : Resumed session session := ⟨rfl, rfl, rfl, rfl, rfl, rfl, rfl⟩
  rcases List.exists_cons_of_ne_nil standing.nonempty with ⟨top, below, isStack⟩
  have onTop : session.cmdstack = top :: below := standing.cmdstack.trans isStack
  cases top with
  | command id =>
      apply Exists.intro session
      constructor
      · simp only [resume, onTop]
      · apply And.intro refl
        intro _ shell isTop
        rw [isStack] at isTop
        cases isTop
  | shell shell =>
      have pending := standing.pending shell (by rw [isStack]; rfl)
      have resumes : resume env agenda session = runCommand env shell agenda session := by
        simp only [resume, onTop]
      rw [resumes]
      simp only [runCommand, pending, isCurrent]
      cases next : (session.pipe current).nextCommand with
      | some next => exact ⟨session, by simp, refl, by simp⟩
      | none =>
          simp only [Option.isSome_none, Bool.false_eq_true, if_false]
          by_cases interactive : (session.shell shell).interactive = true
          · rw [if_pos interactive]
            apply Exists.intro (session.showPrompt env shell)
            apply And.intro rfl
            rw [Session.showPrompt, if_pos interactive]
            constructor
            · exact ⟨rfl, rfl, rfl, rfl, rfl, rfl, rfl⟩
            · intro _ _ _ _
              exact ⟨session.terminal, rfl⟩
          · have quiet {last : Session World} (same : last.shells = session.shells) :
                Prompted env stack last := by
              intro other isTop shows
              rw [isStack] at isTop
              rw [← Option.some.inj isTop] at shows
              rw [Session.shell, same] at shows
              exact absurd shows interactive
            rw [if_neg interactive]
            split
            · exact ⟨_, rfl, ⟨rfl, rfl, rfl, isCurrent.symm, rfl, rfl, rfl⟩, fun _ => quiet rfl⟩
            · exact ⟨session, rfl, refl, fun _ => quiet rfl⟩

theorem exit_standing {done : Session World} {id pp current : Nat}
    (onTop : done.cmdstack = .command id :: stack)
    (standing : Standing stack { done with cmdstack := stack, removed := done.removed ++ [id] })
    (isCurrent : done.pp = some current) (agenda : List (Task World)) :
    ∃ last,
      proceed env (.perform id pp [.exit]) agenda done =
        { session := last, agenda := .perform id pp [] :: agenda } ∧
      Resumed { done with cmdstack := stack, removed := done.removed ++ [id] } last ∧
      ((done.pipe current).nextCommand = none → Prompted env stack last) := by
  rcases @resume_standing _ env _ _ _ standing isCurrent (.perform id pp [] :: agenda) with
    ⟨last, resumes, resumed, prompted⟩
  apply Exists.intro last
  constructor
  · simp only [proceed, performAction, exitCommand, onTop, List.cons_ne_nil, if_false,
      List.mem_cons, true_or, if_true, List.erase_cons_head]
    exact resumes
  · exact ⟨resumed, prompted⟩

theorem ticks_lost {current : Nat} (isCurrent : session.pp = some current) (id pp : Nat) :
    Ticks env { session, agenda := [.perform id pp [], .outConnectionLost] }
      { session
        agenda := ((session.pipe current).nextCommand.map .callCommand).toList } := by
  apply ticks_proceed
  apply ticks_proceed
  have goesOn : proceed env .outConnectionLost [] session =
      { session
        agenda := ((session.pipe current).nextCommand.map .callCommand).toList } := by
    simp only [proceed, outConnectionLost, isCurrent, Option.bind_some]
    cases (session.pipe current).nextCommand <;> rfl
  rw [goesOn]
  exact .refl _

/-! ## Texts that a command executes -/

/-- From where a shell is pushed for a text to where it is about to be popped: the stack and
the shells below are the same. A text that is not silent started a command, and the process of
the session is one of its own, which has no follower. -/
structure Returned (silent : Prop) (before after : Session World) : Prop where
  cmdstack : after.cmdstack = before.cmdstack
  shells : ∀ shell, .shell shell ∈ before.cmdstack.tail → shell + 1 < before.shells.next →
    after.shell shell = before.shell shell
  allocated : before.shells.next ≤ after.shells.next
  quiet : silent →
    after.pp = before.pp ∧ after.started = before.started ∧ after.removed = before.removed ∧
      before.pipes.next ≤ after.pipes.next ∧
      ∀ pipe < before.pipes.next, after.pipe pipe = before.pipe pipe
  loud : ¬ silent →
    (∃ commands, commands ≠ [] ∧ after.started = before.started ++ commands) ∧
      (∃ removed, after.removed = before.removed ++ removed ∧
        ∀ id ∈ removed, before.started.length ≤ id) ∧
      ∃ pp ∈ after.pp, (after.pipe pp).nextCommand = none

/-- Where a stage of the line itself executes a text. -/
def textTasks (id pp : Nat) (actions : List (Action World)) : List (Task World) :=
  [.perform id pp actions, .outConnectionLost]

/-- Where a stage executes the text, from here on, the text comes to its end. -/
def TextReturns (env : Env World) (silent : Prop) (cmds : Str) (machine : Machine World) : Prop :=
  ∀ session id pp,
    Ticks env machine { session, agenda := textTasks id pp [.executeCommands cmds, .exit] } →
      ∃ after,
        Ticks env (executeCommands env cmds (textTasks id pp [.exit]) session)
          { session := after, agenda := .popShell :: textTasks id pp [.exit] } ∧
        Returned silent (session.pushShell { interactive := false, environ := env.environ }) after

theorem TextReturns.later {silent : Prop} {cmds : Str} {machine later : Machine World}
    (returns : TextReturns env silent cmds machine) (ticks : Ticks env machine later) :
    TextReturns env silent cmds later := by
  intro session id pp reached
  exact returns session id pp (ticks.trans reached)

section Empty

variable {place : Place} {pending : List (List Str)}

theorem ticks_empty (ready : Ready place pending session)
    (empty : ∀ tokens ∈ pending, parseCommand place.environ tokens = .empty)
    (isScript : (session.shell place.shell).interactive = false) (agenda : List (Task World)) :
    ∃ last, Ready place [] last ∧ OnlyPending place.shell session last ∧
      Ticks env { session, agenda := .runOrPrompt place.shell :: agenda }
        { session := last, agenda } := by
  induction pending generalizing session with
  | nil =>
      refine ⟨session, ready, .refl _ session, ?_⟩
      apply ticks_proceed
      have quiet : proceed env (.runOrPrompt place.shell) agenda session = { session, agenda } := by
        simp [proceed, runOrPrompt, ready.pending, Session.showPrompt, isScript]
      rw [quiet]
      exact .refl _
  | cons tokens pending induction =>
      let left := session.setPending place.shell pending
      have only : OnlyPending place.shell session left := .setPending ..
      have readyLeft : Ready place pending left := ready.setPending pending
      rcases induction readyLeft (fun other member => empty other (.tail _ member))
        ((only.interactive _).trans isScript) with ⟨last, readyLast, onlyLast, ticks⟩
      refine ⟨last, readyLast, only.trans onlyLast, ?_⟩
      apply ticks_proceed
      have next : proceed env (.runOrPrompt place.shell) agenda session =
          { session := left, agenda := .runOrPrompt place.shell :: agenda } := by
        have parsed := empty tokens (.head _)
        rw [← readyLeft.environ] at parsed
        simp only [proceed, runOrPrompt, ready.pending, runNext]
        rw [parsed]
      rw [next]
      exact ticks

/-- A text of blanks and assignments starts no command. -/
theorem textReturns_of_empty {cmds : Str} {commands : List (List Str)} {silent : Prop}
    (isSilent : silent) (collects : Collects env.environ cmds [] commands)
    (empty : ∀ tokens ∈ commands,
      parseCommand env.environ (CommandParser.mergeRedirectionTokens tokens) = .empty)
    (machine : Machine World) : TextReturns env silent cmds machine := by
  intro session id pp _
  let pushed := session.pushShell { interactive := false, environ := env.environ }
  let place : Place := ⟨session.shells.next, session.cmdstack, env.environ, session.scriptDepth⟩
  have isPushed : pushed.shell place.shell = { interactive := false, environ := env.environ } :=
    Heap.read_alloc_self ..
  have ready : Ready place [] pushed := by
    constructor
    · rfl
    · rw [isPushed]
    · rw [isPushed]
    · rw [isPushed]
    · rfl
  rcases @ticks_read _ env _ _ _ _ _ _ collects ready
    (.popShell :: textTasks id pp [.exit]) with ⟨read, readyRead, onlyRead, reads⟩
  have merged : ∀ tokens ∈ ([] ++ commands).map CommandParser.mergeRedirectionTokens,
      parseCommand env.environ tokens = .empty := by
    intro tokens member
    rcases List.mem_map.mp member with ⟨command, isCommand, rfl⟩
    exact empty command isCommand
  have isScript : (read.shell place.shell).interactive = false := by
    rw [onlyRead.interactive, isPushed]
  rcases @ticks_empty _ env _ _ _ readyRead merged isScript
    (.popShell :: textTasks id pp [.exit]) with ⟨last, readyLast, onlyLast, runs⟩
  have only : OnlyPending place.shell pushed last := onlyRead.trans onlyLast
  apply Exists.intro last
  apply And.intro (reads.trans runs)
  constructor
  · rw [readyLast.cmdstack]
    rfl
  · intro shell _ isOld
    apply only.others
    exact Nat.ne_of_lt (Nat.lt_of_succ_lt_succ isOld)
  · rw [only.allocated]
  · intro _
    refine ⟨only.pp, only.started, only.removed, ?_, ?_⟩
    · rw [only.pipes]
    · intro pipe _
      rw [Session.pipe, only.pipes]
      rfl
  · intro isLoud
    exact absurd isSilent isLoud

end Empty

/-! ## One stage -/

structure StageExited (env : Env World) (stack : List Frame) (stages : List Stage)
    (command : Started) (before after : Session World) : Prop where
  standing : Standing stack after
  shell : ∀ shell ∈ topShell stack, after.shell shell = before.shell shell
  started : before.started ++ [command] <+: after.started
  removed : ∃ inner, after.removed = before.removed ++ inner ++ [before.started.length] ∧
    ∀ id ∈ inner, before.started.length < id
  exactly : stages ≠ [] → after.started = before.started ++ [command] ∧
    after.removed = before.removed ++ [before.started.length]
  prompted : stages = [] → Prompted env stack after

structure StageLeft (env : Env World) (stages : List Stage) (input : Option Bytes)
    (stack : List Frame) (machine : Machine World) : Prop where
  returned : machine.raised = false
  standing : Standing stack machine.session
  follows : (stages = [] ∧ machine.agenda = []) ∨
    ∃ next, machine.agenda = [.callCommand next] ∧ next < machine.session.pipes.next ∧
      Chain env machine.session.pipes stages input next

section Stage

variable {stage : Stage} {stages : List Stage} {input : Option Bytes} {pp : Nat}
  {outputs : List (Output World)} {command : Started} {next : Option Nat}

theorem follows_of_wrote {done last : Session World}
    (wrote : Wrote pp next outputs (session.called pp command) done)
    (own : StagePipe env stage input next (session.pipe pp))
    (later : Behind env session.pipes stages none next pp)
    (allocated : pp < session.pipes.next)
    (more : done.pipes.next ≤ last.pipes.next)
    (same : ∀ pipe < done.pipes.next, last.pipe pipe = done.pipe pipe) :
    (last.pipe pp).nextCommand = next ∧
      Behind env last.pipes stages (piped outputs) next last.pipes.next := by
  have size : done.pipes.next = session.pipes.next := wrote.allocated
  constructor
  · rcases wrote.own with ⟨errData, isOwn⟩
    rw [same pp (by omega), isOwn]
    exact own.nextCommand
  · rcases later with ⟨isLast, isNone⟩ | ⟨follower, isNext, before, chain⟩
    · exact .inl ⟨isLast, isNone⟩
    · apply Or.inr
      apply Exists.intro follower
      apply And.intro isNext
      constructor
      · omega
      · rw [isNext] at wrote
        have fed := wrote.feeds before chain
        apply fed.congr
        intro pipe below
        exact same pipe (by omega)

theorem stageLeft {last : Session World} {stackLeft : List Frame}
    (standing : Standing stackLeft last) (current : last.pp = some pp)
    (follows : (last.pipe pp).nextCommand = next ∧
      Behind env last.pipes stages input next last.pipes.next) (id other : Nat) :
    ∃ final, Ticks env { session := last, agenda := [.perform id other [], .outConnectionLost] } final ∧
      final.session = last ∧ StageLeft env stages input stackLeft final := by
  have ticks := @ticks_lost _ env _ _ current id other
  rcases follows with ⟨isNext, rest⟩
  rw [isNext] at ticks
  apply Exists.intro _
  apply And.intro ticks
  apply And.intro rfl
  apply StageLeft.mk rfl standing
  rcases rest with ⟨isLast, isNone⟩ | ⟨follower, isSome, below, chain⟩
  · rw [isNone]
    exact .inl ⟨isLast, rfl⟩
  · rw [isSome]
    exact .inr ⟨follower, rfl, below, chain⟩

/-- The stage exited after the commands of its text, and the stages after it are not called. -/
structure Lost (stack : List Frame) (stages : List Stage) (before : Session World)
    (final : Machine World) : Prop where
  more : stages ≠ []
  returned : final.raised = false
  agenda : final.agenda = []
  cmdstack : final.session.cmdstack = stack
  removed : ∃ inner, final.session.removed = before.removed ++ inner ++ [before.started.length] ∧
    ∀ id ∈ inner, before.started.length < id

/-- What a stage gives: an exception, a pipeline that is lost, or the machine at the next stage;
a stage that does not exit leaves a frame behind. -/
def StageRun (env : Env World) (stack : List Frame) (stages : List Stage) (input : Option Bytes)
    (command : Started) (reads : Prop) (before : Session World) (final : Machine World) : Prop :=
  (¬ reads ∧ final.raised = true ∧ final.agenda = []) ∨
    (¬ reads ∧ Lost stack stages before final) ∨
    ∃ pushed, StageLeft env stages input (pushed ++ stack) final ∧
      ((¬ reads ∧ pushed ≠ []) ∨
        (reads ∧ pushed = [] ∧ StageExited env stack stages command before final.session))

section Called

variable {done : Session World}

theorem called_below (standing : Standing stack session)
    (wrote : Wrote pp next outputs (session.called pp command) done) :
    done.cmdstack = .command session.started.length :: stack ∧
      ∀ shell, done.shell shell = session.shell shell := by
  constructor
  · rw [wrote.untouched.cmdstack, Session.called, standing.cmdstack]
  · intro shell
    rw [Session.shell, wrote.untouched.shells]
    rfl

theorem stageRun_exits (standing : Standing stack session)
    (wrote : Wrote pp next outputs (session.called pp command) done)
    (own : StagePipe env stage input next (session.pipe pp))
    (later : Behind env session.pipes stages none next pp)
    (allocated : pp < session.pipes.next) {reads : Prop} (ends : reads) :
    ∃ final,
      Ticks env
        { session := done
          agenda := [.perform session.started.length pp [.exit], .outConnectionLost] } final ∧
      StageRun env stack stages (piped outputs) command reads session final := by
  rcases called_below standing wrote with ⟨onTop, sameShell⟩
  let popped : Session World :=
    { done with cmdstack := stack, removed := done.removed ++ [session.started.length] }
  have standingPopped : Standing stack popped := by
    constructor
    · rfl
    · exact standing.nonempty
    · intro shell isTop
      exact (congrArg HoneyPotShell.cmdpending (sameShell shell)).trans (standing.pending shell isTop)
    · intro shell isTop
      have shells : popped.shells = session.shells := wrote.untouched.shells
      rw [shells]
      exact standing.allocated shell isTop
  have current : done.pp = some pp := wrote.untouched.pp
  rcases @exit_standing _ env _ _ _ pp _ onTop standingPopped current [.outConnectionLost] with
    ⟨last, exits, resumed, prompted⟩
  have follows := @follows_of_wrote _ env _ _ _ _ _ _ _ _ _ last wrote own later allocated
    (by rw [resumed.pipes]) fun pipe _ => by
      rw [Session.pipe, resumed.pipes]
      rfl
  rcases stageLeft (standingPopped.resumed resumed) (resumed.pp.trans current) follows
    session.started.length pp with ⟨final, ticks, isLast, left⟩
  apply Exists.intro final
  constructor
  · apply ticks_proceed
    rw [exits]
    exact ticks
  · apply Or.inr
    apply Or.inr
    apply Exists.intro []
    apply And.intro left
    apply Or.inr
    apply And.intro ends
    apply And.intro rfl
    have started : last.started = session.started ++ [command] :=
      resumed.started.trans wrote.untouched.started
    have removed : last.removed = session.removed ++ [session.started.length] := by
      have before : done.removed = session.removed := wrote.untouched.removed
      rw [← before]
      exact resumed.removed
    rw [isLast]
    constructor
    · exact standingPopped.resumed resumed
    · intro shell _
      rw [Session.shell, resumed.shells]
      exact sameShell shell
    · rw [started]
    · exact ⟨[], by rw [removed, List.append_nil], by simp⟩
    · intro _
      exact ⟨started, removed⟩
    · intro isLastStage
      apply prompted
      rcases later with ⟨-, isNone⟩ | ⟨follower, -, -, chain⟩
      · rcases wrote.own with ⟨errData, isOwn⟩
        rw [isOwn]
        exact own.nextCommand.trans isNone
      · rw [isLastStage] at chain
        exact chain.elim

theorem stageRun_waits (standing : Standing stack session)
    (wrote : Wrote pp next outputs (session.called pp command) done)
    (own : StagePipe env stage input next (session.pipe pp))
    (later : Behind env session.pipes stages none next pp)
    (allocated : pp < session.pipes.next) {reads : Prop} (stays : ¬ reads) :
    ∃ final,
      Ticks env
        { session := done
          agenda := [.perform session.started.length pp [], .outConnectionLost] } final ∧
      StageRun env stack stages (piped outputs) command reads session final := by
  have onTop := (called_below standing wrote).1
  have standingDone : Standing (.command session.started.length :: stack) done := by
    constructor
    · exact onTop
    · exact List.cons_ne_nil _ _
    · intro shell isTop
      cases isTop
    · intro shell isTop
      cases isTop
  have follows := @follows_of_wrote _ env _ _ _ _ _ _ _ _ _ done wrote own later allocated
    (Nat.le_refl _) fun _ _ => rfl
  rcases stageLeft standingDone wrote.untouched.pp follows session.started.length pp with
    ⟨final, ticks, isLast, left⟩
  apply Exists.intro final
  apply And.intro ticks
  apply Or.inr
  apply Or.inr
  exact ⟨[.command session.started.length], left, .inl ⟨stays, List.cons_ne_nil _ _⟩⟩

theorem stageRun_opens (standing : Standing stack session)
    (wrote : Wrote pp next outputs (session.called pp command) done)
    (own : StagePipe env stage input next (session.pipe pp))
    (later : Behind env session.pipes stages none next pp)
    (allocated : pp < session.pipes.next) {reads : Prop} (stays : ¬ reads) :
    ∃ final,
      Ticks env
        { session := done
          agenda := [.perform session.started.length pp [.interactiveShell], .outConnectionLost] }
        final ∧
      StageRun env stack stages (piped outputs) command reads session final := by
  have onTop := (called_below standing wrote).1
  rcases List.exists_cons_of_ne_nil standing.nonempty with ⟨parent, below, isStack⟩
  rw [isStack] at onTop
  let id := session.started.length
  cases level : nextLevel (frameEnviron env done (parent :: below)) with
  | none =>
      apply Exists.intro { session := done, raised := true }
      constructor
      · apply ticks_proceed
        have raises : proceed env (.perform id pp [.interactiveShell]) [.outConnectionLost] done =
            { session := done, raised := true } := by
          simp only [proceed, performAction, interactiveShell, onTop, level]
          rfl
        rw [raises]
        exact .refl _
      · exact .inl ⟨stays, rfl, rfl⟩
  | some level_ =>
      let pushed := done.pushShell
        { interactive := true, environ := env.environ.set "SHLVL".toList level_ }
      let shown := pushed.showPrompt env done.shells.next
      let last : Session World :=
        { shown with
          cmdstack := .shell done.shells.next :: stack, removed := done.removed ++ [id] }
      have opens : proceed env (.perform id pp [.interactiveShell]) [.outConnectionLost] done =
          { session := last, agenda := [.perform id pp [], .outConnectionLost] } := by
        have stackPushed : pushed.cmdstack = .shell done.shells.next :: .command id :: stack := by
          change Frame.shell done.shells.next :: done.cmdstack = _
          rw [onTop, isStack]
        have erased : pushed.cmdstack.erase (.command id) = .shell done.shells.next :: stack := by
          rw [stackPushed]
          simp
        have member : Frame.command id ∈ pushed.cmdstack := by
          rw [stackPushed]
          simp
        simp only [proceed, performAction, interactiveShell, onTop, level]
        rw [if_pos member, erased]
      have untouched : Untouched pushed shown := .showPrompt ..
      have shells : last.shells = pushed.shells := untouched.shells
      have standingLast : Standing (.shell done.shells.next :: stack) last := by
        constructor
        · rfl
        · exact List.cons_ne_nil _ _
        · intro shell isTop
          rw [← Option.some.inj isTop, Session.shell, shells]
          exact congrArg HoneyPotShell.cmdpending (Heap.read_alloc_self ..)
        · intro shell isTop
          rw [← Option.some.inj isTop, shells]
          exact Nat.lt_succ_self _
      have pipes : last.pipes = done.pipes := by
        change (pushed.showPrompt env done.shells.next).pipes = done.pipes
        unfold Session.showPrompt
        split <;> rfl
      have current : last.pp = some pp := untouched.pp.trans wrote.untouched.pp
      have follows := @follows_of_wrote _ env _ _ _ _ _ _ _ _ _ last wrote own later allocated
        (by rw [pipes]) fun pipe _ => by rw [Session.pipe, pipes]; rfl
      rcases stageLeft standingLast current follows id pp with ⟨final, ticks, isLast, left⟩
      apply Exists.intro final
      constructor
      · apply ticks_proceed
        rw [opens]
        exact ticks
      · apply Or.inr
        apply Or.inr
        exact ⟨[.shell done.shells.next], left, .inl ⟨stays, List.cons_ne_nil _ _⟩⟩

theorem Returned.follows {after : Session World} {object : HoneyPotShell} {silent : Prop}
    (returned : Returned silent (done.pushShell object) after)
    (wrote : Wrote pp next outputs (session.called pp command) done)
    (own : StagePipe env stage input next (session.pipe pp))
    (later : Behind env session.pipes stages none next pp)
    (allocated : pp < session.pipes.next) (fits : stages ≠ [] → silent) :
    (∃ current, after.pp = some current ∧ (after.pipe current).nextCommand = next ∧
      Behind env after.pipes stages (piped outputs) next after.pipes.next) ∧
    (stages ≠ [] → after.started = done.started ∧ after.removed = done.removed) := by
  have current : done.pp = some pp := wrote.untouched.pp
  by_cases quiet : silent
  · rcases returned.quiet quiet with ⟨samePipe, started, removed, more, same⟩
    have follows := @follows_of_wrote _ env _ _ _ _ _ _ _ _ _ after wrote own later allocated more same
    constructor
    · exact ⟨pp, samePipe.trans current, follows⟩
    · intro _
      exact ⟨started, removed⟩
  · have noStages : stages = [] := by
      by_contra more
      exact quiet (fits more)
    have isNone : next = none := by
      rcases later with ⟨-, isNone⟩ | ⟨follower, -, -, chain⟩
      · exact isNone
      · rw [noStages] at chain
        exact chain.elim
    rcases returned.loud quiet with ⟨-, -, other, isOther, ends⟩
    constructor
    · exact ⟨other, isOther, ends.trans isNone.symm, .inl ⟨noStages, isNone⟩⟩
    · intro more
      exact absurd noStages more

section Executed

variable {after : Session World} {object : HoneyPotShell} {silent : Prop}
  (returned : Returned silent (done.pushShell object) after) (standing : Standing stack session)
  (wrote : Wrote pp next outputs (session.called pp command) done)

include returned

theorem Returned.ids : done.started <+: after.started ∧
    ∃ inner, after.removed = done.removed ++ inner ∧ ∀ id ∈ inner, done.started.length ≤ id := by
  by_cases quiet : silent
  · rcases returned.quiet quiet with ⟨-, started, removed, -, -⟩
    constructor
    · rw [started]
      exact List.prefix_refl _
    · exact ⟨[], by rw [removed, List.append_nil]; rfl, by simp⟩
  · rcases returned.loud quiet with ⟨⟨commands, -, started⟩, removed, -⟩
    apply And.intro _ removed
    rw [started]
    exact List.prefix_append ..

include wrote

theorem Returned.started_called : session.started ++ [command] <+: after.started := by
  have startedDone : done.started = session.started ++ [command] := wrote.untouched.started
  rw [← startedDone]
  exact returned.ids.1

theorem Returned.removed_called : ∃ inner, after.removed = session.removed ++ inner ∧
    ∀ id ∈ inner, session.started.length < id := by
  have startedDone : done.started = session.started ++ [command] := wrote.untouched.started
  have removedDone : done.removed = session.removed := wrote.untouched.removed
  rcases returned.ids with ⟨-, inner, removed, fresh⟩
  apply Exists.intro inner
  constructor
  · rw [removed, removedDone]
  · intro id member
    have least := fresh id member
    rw [startedDone, List.length_append] at least
    exact least

include standing

theorem Returned.pops (agenda : List (Task World)) :
    proceed env .popShell agenda after =
      { session := { after with cmdstack := .command session.started.length :: stack }, agenda } := by
  have onTop : after.cmdstack =
      .shell done.shells.next :: .command session.started.length :: stack := by
    rw [returned.cmdstack, Session.pushShell, (called_below standing wrote).1]
  simp only [proceed, onTop]

theorem Returned.shell_below : ∀ shell ∈ topShell stack,
    after.shell shell = session.shell shell := by
  rcases called_below standing wrote with ⟨onTop, sameShell⟩
  intro shell isTop
  have isOld : shell < done.shells.next := by
    have shells : done.shells = session.shells := wrote.untouched.shells
    rw [shells]
    exact standing.allocated shell isTop
  have member : Frame.shell shell ∈ stack := by
    rcases topShell_eq_some isTop with ⟨below, isStack⟩
    rw [isStack]
    exact List.mem_cons_self ..
  have kept := returned.shells shell (by
    rw [Session.pushShell, onTop]
    exact List.mem_cons_of_mem _ member) (Nat.succ_lt_succ isOld)
  rw [kept, ← sameShell shell]
  exact Heap.read_alloc_other _ isOld

theorem Returned.standing_below (removed : List Nat) :
    Standing stack { after with cmdstack := stack, removed } := by
  constructor
  · rfl
  · exact standing.nonempty
  · intro shell isTop
    have same := returned.shell_below standing wrote shell isTop
    exact (congrArg HoneyPotShell.cmdpending same).trans (standing.pending shell isTop)
  · intro shell isTop
    have isOld := standing.allocated shell isTop
    have shells : done.shells = session.shells := wrote.untouched.shells
    have more : done.shells.next + 1 ≤ after.shells.next := returned.allocated
    rw [shells] at more
    exact Nat.lt_of_lt_of_le isOld (Nat.le_of_succ_le more)

theorem Returned.exited {last : Session World} {removed : List Nat}
    (isRemoved : removed = after.removed ++ [session.started.length])
    (resumed : Resumed { after with cmdstack := stack, removed } last)
    (exactly : stages ≠ [] → after.started = done.started ∧ after.removed = done.removed)
    (prompted : stages = [] → Prompted env stack last) :
    StageExited env stack stages command session last := by
  have startedLast : last.started = after.started := resumed.started
  have removedLast : last.removed = after.removed ++ [session.started.length] :=
    resumed.removed.trans isRemoved
  constructor
  · exact (returned.standing_below standing wrote removed).resumed resumed
  · intro shell isTop
    rw [Session.shell, resumed.shells]
    exact returned.shell_below standing wrote shell isTop
  · rw [startedLast]
    exact returned.started_called wrote
  · rcases returned.removed_called wrote with ⟨inner, isInner, fresh⟩
    exact ⟨inner, by rw [removedLast, isInner], fresh⟩
  · intro more
    have startedDone : done.started = session.started ++ [command] := wrote.untouched.started
    have removedDone : done.removed = session.removed := wrote.untouched.removed
    rcases exactly more with ⟨sameStarted, sameRemoved⟩
    rw [startedLast, removedLast, sameStarted, sameRemoved, startedDone, removedDone]
    exact ⟨rfl, rfl⟩
  · exact prompted

end Executed

theorem stageRun_executes (standing : Standing stack session)
    (wrote : Wrote pp next outputs (session.called pp command) done)
    (own : StagePipe env stage input next (session.pipe pp))
    (later : Behind env session.pipes stages none next pp)
    (allocated : pp < session.pipes.next) {reads : Prop} (ends : reads) (cmds : Str)
    {silent : Prop}
    (returns : TextReturns env silent cmds
      { session := done
        agenda := textTasks session.started.length pp [.executeCommands cmds, .exit] }) :
    ∃ final,
      Ticks env
        { session := done
          agenda := [.perform session.started.length pp [.executeCommands cmds, .exit],
            .outConnectionLost] } final ∧
      StageRun env stack stages (piped outputs) command
        (reads ∧ (stages ≠ [] → silent)) session final := by
  let id := session.started.length
  rcases returns done id pp (.refl _) with ⟨after, ran, returned⟩
  let left : Session World := { after with cmdstack := .command id :: stack }
  have standingLeft := returned.standing_below standing wrote (left.removed ++ [id])
  -- The shell of the text is popped and the stage exits, with the process that is current then.
  have exits (current : Nat) (isCurrent : after.pp = some current) : ∃ last,
      Ticks env
        { session := done
          agenda := [.perform id pp [.executeCommands cmds, .exit], .outConnectionLost] }
        { session := last, agenda := [.perform id pp [], .outConnectionLost] } ∧
      Resumed { left with cmdstack := stack, removed := left.removed ++ [id] } last ∧
      ((after.pipe current).nextCommand = none → Prompted env stack last) := by
    rcases @exit_standing _ env _ left _ pp _ rfl standingLeft isCurrent [.outConnectionLost] with
      ⟨last, exits, resumed, prompted⟩
    refine ⟨last, ?_, resumed, prompted⟩
    apply ticks_proceed
    apply ran.trans
    apply ticks_proceed
    rw [returned.pops standing wrote]
    apply ticks_proceed
    rw [← exits]
    exact .refl _
  by_cases fits : stages ≠ [] → silent
  · rcases returned.follows wrote own later allocated fits with
      ⟨⟨current, isCurrent, isNext, follows⟩, exactly⟩
    rcases exits current isCurrent with ⟨last, ticks, resumed, prompted⟩
    have followsLast : (last.pipe current).nextCommand = next ∧
        Behind env last.pipes stages (piped outputs) next last.pipes.next := by
      rw [Session.pipe, resumed.pipes]
      exact ⟨isNext, follows⟩
    rcases stageLeft (standingLeft.resumed resumed) (resumed.pp.trans isCurrent) followsLast id
      pp with ⟨final, finalTicks, isLast, stageDone⟩
    refine ⟨final, ticks.trans finalTicks, .inr (.inr ⟨[], stageDone, .inr ⟨⟨ends, fits⟩, rfl, ?_⟩⟩)⟩
    rw [isLast]
    apply returned.exited standing wrote rfl resumed exactly
    intro isLastStage
    apply prompted
    rcases follows with ⟨-, isNone⟩ | ⟨follower, -, -, chain⟩
    · exact isNext.trans isNone
    · rw [isLastStage] at chain
      exact chain.elim
  -- The process of the session is one of the text, so nothing follows when the stage exits.
  · rcases Classical.not_imp.mp fits with ⟨more, isLoud⟩
    rcases returned.loud isLoud with ⟨-, -, current, isCurrent, isNone⟩
    rcases exits current isCurrent with ⟨last, ticks, resumed, -⟩
    have lost := @ticks_lost _ env _ _ (resumed.pp.trans isCurrent) id pp
    have noNext : (last.pipe current).nextCommand = none := by
      rw [Session.pipe, resumed.pipes]
      exact isNone
    rw [noNext] at lost
    refine ⟨{ session := last }, ticks.trans lost, .inr (.inl ⟨fun both => fits both.2, ?_⟩)⟩
    constructor
    · exact more
    · rfl
    · rfl
    · exact resumed.cmdstack
    · rcases returned.removed_called wrote with ⟨inner, isInner, fresh⟩
      have removedLast : last.removed = after.removed ++ [id] := resumed.removed
      exact ⟨inner, by rw [removedLast, isInner], fresh⟩

end Called

theorem ticks_stage {cmd : CommandClass} {rest : List (Action World)} {reads : Prop}
    {text : Option Str} {silent : Str → Prop} (standing : Standing stack session)
    (chain : Chain env session.pipes (stage :: stages) input pp)
    (allocated : pp < session.pipes.next)
    (known : commandClass env stage.command = some cmd)
    (starts : commandStart env cmd stage.rargs input session.scriptDepth session.world =
      outputs.map .output ++ rest)
    (leaves : Leaves reads text rest)
    (returns : ∀ cmds ∈ text,
      TextReturns env (silent cmds) cmds { session, agenda := [.callCommand pp] }) :
    ∃ final, Ticks env { session, agenda := [.callCommand pp] } final ∧
      StageRun env stack stages (piped outputs) ⟨cmd, stage.rargs, input⟩
        (reads ∧ (stages ≠ [] → ∀ cmds ∈ text, silent cmds)) session final := by
  rcases chain.own with ⟨next, own, forward, later⟩
  have nonempty : session.cmdstack ≠ [] := by
    rw [standing.cmdstack]
    exact standing.nonempty
  rcases ticks_called own forward nonempty known starts [] with ⟨done, wrote, ticks⟩
  have run : ∃ final,
      Ticks env
        { session := done
          agenda := [.perform session.started.length pp rest, .outConnectionLost] } final ∧
      StageRun env stack stages (piped outputs) ⟨cmd, stage.rargs, input⟩
        (reads ∧ (stages ≠ [] → ∀ cmds ∈ text, silent cmds)) session final := by
    cases leaves with
    | exits ends =>
        apply stageRun_exits standing wrote own later allocated
        exact ⟨ends, fun _ cmds isText => by cases isText⟩
    | executes ends cmds =>
        have returns := (returns cmds rfl).later ticks
        rcases stageRun_executes standing wrote own later allocated ends cmds returns with
          ⟨final, ran, run⟩
        simp only [Option.mem_def, Option.some.injEq, forall_eq']
        exact ⟨final, ran, run⟩
    | waits stays =>
        exact stageRun_waits standing wrote own later allocated fun both => stays both.1
    | raises fails =>
        apply Exists.intro { session := done, raised := true }
        exact ⟨ticks_proceed _ _ _ (.refl _), .inl ⟨fun both => fails both.1, rfl, rfl⟩⟩
    | opens stays =>
        exact stageRun_opens standing wrote own later allocated fun both => stays both.1
  rcases run with ⟨final, later, ran⟩
  exact ⟨final, ticks.trans later, ran⟩

end Stage

/-! ## A pipeline -/

/-- The stages started from here on removed themselves once each and in their order. -/
structure InOrder (first count : Nat) (removed : List Nat) : Prop where
  once : ∀ index < count, removed.count (first + index) = 1
  sublist : (List.range' first count).Sublist removed

structure Finished (env : Env World) (stack : List Frame) (expected : List Started)
    (before after : Session World) : Prop where
  shell : ∀ shell ∈ topShell stack, after.shell shell = before.shell shell
  started : before.started ++ expected <+: after.started
  removed : ∃ removed, after.removed = before.removed ++ removed ∧
    (∀ id ∈ removed, before.started.length ≤ id) ∧
      InOrder before.started.length expected.length removed
  prompted : Prompted env stack after

/-- Some stage did not exit, or not after the stage before it. -/
def OutOfOrder (count : Nat) (before after : Session World) : Prop :=
  ∃ removed, after.removed = before.removed ++ removed ∧
    ¬ (List.range' before.started.length count).Sublist removed

structure PipelineRun (env : Env World) (stack : List Frame) (expected : List Started)
    (reads : Prop) (before : Session World) (final : Machine World) : Prop where
  agenda : final.agenda = []
  result : (¬ reads ∧ final.raised = true) ∨
    final.raised = false ∧ ∃ pushed, final.session.cmdstack = pushed ++ stack ∧
      ((¬ reads ∧ (pushed ≠ [] ∨ OutOfOrder expected.length before final.session)) ∨
        reads ∧ pushed = [] ∧ Finished env stack expected before final.session)

theorem not_sublist_of_last {ids inner : List Nat} {id : Nat} (absent : id ∉ inner)
    (more : ids ≠ []) : ¬ (id :: ids).Sublist (inner ++ [id]) := by
  induction inner with
  | nil =>
      intro sublist
      have length := sublist.length_le
      have positive := List.length_pos_of_ne_nil more
      simp only [List.nil_append, List.length_cons, List.length_nil] at length
      omega
  | cons first inner induction =>
      intro sublist
      cases sublist with
      | cons _ sublist => exact induction (fun member => absent (.tail _ member)) sublist
      | cons_cons _ _ => exact absent (.head _)

section Pipeline

variable {stages : List Stage} {input : Option Bytes} {command : Started} {pp : Nat}
  {expected : List Started} {reads readsLater : Prop} {before : Session World}
  {middle final : Machine World}

theorem StageExited.finished (exited : StageExited env stack [] command before session) :
    Finished env stack [command] before session := by
  constructor
  · exact exited.shell
  · exact exited.started
  · rcases exited.removed with ⟨inner, removed, fresh⟩
    apply Exists.intro (inner ++ [before.started.length])
    constructor
    · rw [removed, List.append_assoc]
    · constructor
      · intro id member
        rcases List.mem_append.mp member with isInner | isOwn
        · exact Nat.le_of_lt (fresh id isInner)
        · rw [List.mem_singleton.mp isOwn]
      · constructor
        · intro index below
          have first : index = 0 := Nat.lt_one_iff.mp below
          have absent : inner.count before.started.length = 0 :=
            List.count_eq_zero.mpr fun member => Nat.lt_irrefl _ (fresh _ member)
          rw [first, Nat.add_zero, List.count_append, absent, List.count_singleton_self]
        · exact List.sublist_append_right ..
  · exact exited.prompted rfl

theorem StageExited.andLater {after : Session World}
    (exited : StageExited env stack stages command before session) (more : stages ≠ [])
    (later : Finished env stack expected session after) :
    Finished env stack (command :: expected) before after := by
  rcases exited.exactly more with ⟨started, removedFirst⟩
  have length : session.started.length = before.started.length + 1 := by
    rw [started, List.length_append]
    rfl
  constructor
  · intro shell isTop
    exact (later.shell shell isTop).trans (exited.shell shell isTop)
  · have isPrefix := later.started
    rw [started, List.append_assoc] at isPrefix
    exact isPrefix
  · rcases later.removed with ⟨removed, isRemoved, fresh, ⟨once, sublist⟩⟩
    rw [length] at fresh once sublist
    apply Exists.intro (before.started.length :: removed)
    constructor
    · rw [isRemoved, removedFirst, List.append_assoc]
      rfl
    · constructor
      · intro id member
        rcases List.mem_cons.mp member with isOwn | isLater
        · rw [isOwn]
        · exact Nat.le_of_succ_le (fresh id isLater)
      · constructor
        · intro index below
          cases index with
          | zero =>
              have absent : removed.count before.started.length = 0 :=
                List.count_eq_zero.mpr fun member => Nat.not_succ_le_self _ (fresh _ member)
              rw [Nat.add_zero, List.count_cons_self, absent]
          | succ index =>
              have differs : before.started.length ≠ before.started.length + (index + 1) := by
                omega
              have once := once index (Nat.lt_of_succ_lt_succ below)
              rw [List.count_cons_of_ne differs]
              rw [Nat.add_assoc, Nat.add_comm 1 index] at once
              exact once
        · exact sublist.cons_cons _
  · exact later.prompted

theorem StageExited.outOfOrder {after : Session World} {count : Nat}
    (exited : StageExited env stack stages command before session) (more : stages ≠ [])
    (later : OutOfOrder count session after) : OutOfOrder (count + 1) before after := by
  rcases exited.exactly more with ⟨started, removedFirst⟩
  rcases later with ⟨removed, isRemoved, disordered⟩
  have length : session.started.length = before.started.length + 1 := by
    rw [started, List.length_append]
    rfl
  apply Exists.intro (before.started.length :: removed)
  constructor
  · rw [isRemoved, removedFirst, List.append_assoc]
    rfl
  · intro sublist
    rw [List.range'_succ] at sublist
    apply disordered
    rw [length]
    exact List.cons_sublist_cons.mp sublist

theorem Lost.outOfOrder {final : Machine World} {count : Nat}
    (lost : Lost stack stages before final) (counted : 0 < count) :
    OutOfOrder (count + 1) before final.session := by
  rcases lost.removed with ⟨inner, isRemoved, fresh⟩
  apply Exists.intro (inner ++ [before.started.length])
  apply And.intro (by rw [isRemoved, List.append_assoc])
  rw [List.range'_succ]
  apply not_sublist_of_last
  · intro member
    exact Nat.lt_irrefl _ (fresh _ member)
  · intro nothing
    have length := congrArg List.length nothing
    rw [List.length_range'] at length
    exact Nat.lt_irrefl 0 (Nat.lt_of_lt_of_eq counted length)

theorem StageRun.followed (run : StageRun env stack stages input command reads before middle)
    (counted : stages ≠ [] → 0 < expected.length)
    (last : stages = [] → expected = [] ∧ readsLater)
    (goesOn : ∀ frames next, stages ≠ [] → Standing frames middle.session →
      next < middle.session.pipes.next → Chain env middle.session.pipes stages input next →
      middle = { session := middle.session, agenda := [.callCommand next] } →
      ∃ final, Ticks env middle final ∧
        PipelineRun env frames expected readsLater middle.session final) :
    ∃ final, Ticks env middle final ∧
      PipelineRun env stack (command :: expected) (reads ∧ readsLater) before final := by
  rcases run with ⟨fails, raised, done⟩ | ⟨fails, lost⟩ | ⟨pushed, left, outcome⟩
  · exact ⟨middle, .refl _, done, .inl ⟨fun both => fails both.1, raised⟩⟩
  · apply Exists.intro middle
    apply And.intro (.refl _)
    apply PipelineRun.mk lost.agenda
    apply Or.inr
    apply And.intro lost.returned
    apply Exists.intro []
    apply And.intro lost.cmdstack
    apply Or.inl
    apply And.intro fun both => fails both.1
    exact .inr (lost.outOfOrder (counted lost.more))
  · rcases left.follows with ⟨isLast, done⟩ | ⟨next, agenda, below, chain⟩
    · rcases last isLast with ⟨noMore, readsNone⟩
      rw [noMore]
      apply Exists.intro middle
      apply And.intro (.refl _)
      apply PipelineRun.mk done
      apply Or.inr
      apply And.intro left.returned
      apply Exists.intro pushed
      apply And.intro left.standing.cmdstack
      rcases outcome with ⟨fails, remains⟩ | ⟨ends, nothing, exited⟩
      · exact .inl ⟨fun both => fails both.1, .inl remains⟩
      · rw [isLast] at exited
        exact .inr ⟨⟨ends, readsNone⟩, nothing, exited.finished⟩
    · have more : stages ≠ [] := by
        intro nothing
        rw [nothing] at chain
        exact chain.elim
      have isMiddle : middle = { session := middle.session, agenda := [.callCommand next] } := by
        rcases middle with ⟨session, agenda_, raised⟩
        have returned : raised = false := left.returned
        have isAgenda : agenda_ = [.callCommand next] := agenda
        rw [returned, isAgenda]
      rcases goesOn (pushed ++ stack) next more left.standing below chain isMiddle with
        ⟨final, ticks, later⟩
      apply Exists.intro final
      apply And.intro ticks
      apply PipelineRun.mk later.agenda
      rcases later.result with ⟨fails, raised⟩ | ⟨returned, deeper, isStack, rest⟩
      · exact .inl ⟨fun both => fails both.2, raised⟩
      · apply Or.inr
        apply And.intro returned
        apply Exists.intro (deeper ++ pushed)
        apply And.intro (by rw [isStack, List.append_assoc])
        rcases outcome with ⟨fails, remains⟩ | ⟨ends, nothing, exited⟩
        · apply Or.inl
          apply And.intro fun both => fails both.1
          apply Or.inl
          simp [remains]
        · rcases rest with ⟨fails, remains | disordered⟩ | ⟨endsLater, nothingLater, finished⟩
          · apply Or.inl
            apply And.intro fun both => fails both.2
            apply Or.inl
            simp [remains]
          · apply Or.inl
            apply And.intro fun both => fails both.2
            exact .inr (exited.outOfOrder more disordered)
          · apply Or.inr
            rw [nothing, List.nil_append] at finished
            rw [nothing, nothingLater]
            exact ⟨⟨ends, endsLater⟩, rfl, exited.andLater more finished⟩

end Pipeline

section Filters

variable (lib : Library World)

/-- The stages from left to right, each with what the one before it wrote. -/
def stagesInOrder (env : Env World) (depth : Nat) (world : World) :
    List Stage → Option Bytes → List (Stage × Option Bytes)
  | [], _ => []
  | stage :: stages, input =>
      (stage, input) ::
        stagesInOrder env depth world stages (piped (stageOutputs env depth stage input world))

/-- Every stage reads to its end what the one before it wrote, and a text that is executed by a
stage before the last is silent. -/
def AllFit (silent : Str → Prop) : List (Stage × Option Bytes) → Prop
  | [] => True
  | stage :: stages =>
      (StageReads lib stage.1 stage.2 ∧
        (stages ≠ [] → ∀ cmds ∈ stageText stage.1 stage.2, silent cmds)) ∧ AllFit silent stages

/-- Every text that a stage executes from here on comes to its end. -/
def TextsReturn (env : Env World) (silent : Str → Prop) (stages : List (Stage × Option Bytes))
    (machine : Machine World) : Prop :=
  ∀ stage ∈ stages, ∀ cmds ∈ stageText stage.1 stage.2,
    TextReturns env (silent cmds) cmds machine

theorem stagesInOrder_eq_nil {depth : Nat} {world : World} {stages : List Stage}
    {input : Option Bytes} : stagesInOrder env depth world stages input = [] ↔ stages = [] := by
  cases stages with
  | nil => simp [stagesInOrder]
  | cons stage stages => simp [stagesInOrder]

theorem ticks_stages {stages : List Stage} {input : Option Bytes} {pp : Nat} {silent : Str → Prop}
    (depth : Nat) (world : World) (filters : ∀ stage ∈ stages, FilterStage lib env stage)
    (standing : Standing stack session)
    (chain : Chain (env.withFilters lib) session.pipes stages input pp)
    (allocated : pp < session.pipes.next)
    (texts : TextsReturn (env.withFilters lib) silent
      (stagesInOrder (env.withFilters lib) depth world stages input)
      { session, agenda := [.callCommand pp] }) :
    ∃ final, Ticks (env.withFilters lib) { session, agenda := [.callCommand pp] } final ∧
      PipelineRun (env.withFilters lib) stack
        ((stagesInOrder (env.withFilters lib) depth world stages input).map fun stage =>
          startedAs (env.withFilters lib) stage.1 stage.2)
        (AllFit lib silent (stagesInOrder (env.withFilters lib) depth world stages input))
        session final := by
  induction stages generalizing input session stack pp with
  | nil => exact chain.elim
  | cons stage stages induction =>
      have isFilter := filters stage (List.mem_cons_self ..)
      rcases isFilter.start lib env input session.scriptDepth session.world with
        ⟨outputs, rest, leaves, isOutputs, starts⟩
      rcases Option.isSome_iff_exists.mp isFilter.known.known with ⟨cmd, known⟩
      have isStarted : startedAs (env.withFilters lib) stage input = ⟨cmd, stage.rargs, input⟩ := by
        simp only [startedAs, known, Option.getD_some]
      have written : stageOutputs (env.withFilters lib) depth stage input world = outputs := by
        rw [isFilter.outputs_eq lib env input depth session.scriptDepth world session.world,
          isOutputs]
      let later := stagesInOrder (env.withFilters lib) depth world stages (piped outputs)
      have inOrder : stagesInOrder (env.withFilters lib) depth world (stage :: stages) input =
          (stage, input) :: later := by
        rw [stagesInOrder, written]
      rw [inOrder] at texts ⊢
      rcases ticks_stage standing chain allocated known (starts cmd known) leaves
        (texts _ (List.mem_cons_self ..)) with ⟨middle, ticks, run⟩
      have noMore : later ≠ [] ↔ stages ≠ [] := not_congr stagesInOrder_eq_nil
      have followed : ∃ final, Ticks (env.withFilters lib) middle final ∧
          PipelineRun (env.withFilters lib) stack
            (⟨cmd, stage.rargs, input⟩ ::
              later.map fun stage => startedAs (env.withFilters lib) stage.1 stage.2)
            ((StageReads lib stage input ∧
              (stages ≠ [] → ∀ cmds ∈ stageText stage input, silent cmds)) ∧
              AllFit lib silent later) session final := by
        apply run.followed
        · intro more
          rw [List.length_map]
          exact List.length_pos_of_ne_nil (noMore.mpr more)
        · intro nothing
          have isEmpty : later = [] := stagesInOrder_eq_nil.mpr nothing
          rw [isEmpty]
          exact ⟨rfl, trivial⟩
        · intro frames next more standing below chain isMiddle
          rw [isMiddle] at ticks ⊢
          apply induction (fun stage member => filters stage (List.mem_cons_of_mem _ member))
            standing chain below
          intro other member cmds isText
          exact (texts other (List.mem_cons_of_mem _ member) cmds isText).later ticks
      rcases followed with ⟨final, laterTicks, ran⟩
      apply Exists.intro final
      apply And.intro (ticks.trans laterTicks)
      simp only [List.map_cons, isStarted, AllFit, noMore]
      exact ran

/-- The machine after a line: every stage was started and removed itself once, after the stage
before it, the stack is as it was, and a shell with a terminal has shown its prompt. -/
structure Completed (env : Env World) (place : Place) (expected : List Started)
    (before : Session World) (final : Machine World) : Prop where
  returned : final.raised = false
  cmdstack : final.session.cmdstack = before.cmdstack
  started : before.started ++ expected <+: final.session.started
  removed : ∃ removed, final.session.removed = before.removed ++ removed ∧
    InOrder before.started.length expected.length removed
  prompted : (before.shell place.shell).interactive = true →
    ∃ shown, final.session.terminal =
      shown ++ Utf8.encode (env.prompt final.session.world)

/-- A line that is one pipeline: a command that only writes and exits, and filters. -/
structure FilterLine (env : Env World) (place : Place) (text : Str) (first : Stage)
    (filters : List Stage) : Prop where
  reads : ∃ tokens, Collects place.environ text [] [tokens] ∧
    ReadsAs place.environ (CommandParser.mergeRedirectionTokens tokens) (first :: filters)
  synchronous : Synchronous (env.withFilters lib) (· = none) first
  filters : ∀ stage ∈ filters, FilterStage lib env stage

/-- The filters of a line, each with what the stage before it writes. -/
def filtersOf (env : Env World) (place : Place) (first : Stage) (filters : List Stage)
    (world : World) : List (Stage × Option Bytes) :=
  stagesInOrder (env.withFilters lib) place.depth world filters
    (piped (stageOutputs (env.withFilters lib) place.depth first none world))

section Line

variable (env) (place : Place) (text : Str) (first : Stage) (filters : List Stage)
  (machine : Machine World)

/-- The texts of the line come to their end. -/
def LineReturns (silent : Str → Prop) : Prop :=
  ∀ next, step (env.withFilters lib) machine (.line text) = some next →
    TextsReturn (env.withFilters lib) silent
      (filtersOf lib env place first filters machine.session.world) next

def LineCompletes : Prop :=
  ∃ ticks final,
    EventRun.run (step (env.withFilters lib)) machine
      (.line text :: List.replicate ticks .tick) = some final ∧
    final.agenda = [] ∧
    Completed (env.withFilters lib) place
      ((stagesInOrder (env.withFilters lib) place.depth machine.session.world
        (first :: filters) none).map fun stage => startedAs (env.withFilters lib) stage.1 stage.2)
      machine.session final

end Line

/-- The line is read and its pipes are built; none of its commands is called yet. -/
structure PipesBuilt (place : Place) (before built : Session World) : Prop where
  standing : Standing (.shell place.shell :: place.below) built
  world : built.world = before.world
  depth : built.scriptDepth = place.depth
  started : built.started = before.started
  removed : built.removed = before.removed
  interactive : (built.shell place.shell).interactive = (before.shell place.shell).interactive

theorem FilterLine.known {place : Place} {text : Str} {first : Stage} {filters : List Stage}
    (line : FilterLine lib env place text first filters) :
    ∀ stage ∈ first :: filters, Known (env.withFilters lib) stage := by
  intro stage member
  rcases List.mem_cons.mp member with isFirst | isFilter
  · rw [isFirst]
    exact line.synchronous.toKnown
  · exact (line.filters stage isFilter).known

theorem ticks_filterLine {session : Session World} {place : Place} {text : Str} {first : Stage}
    {filters : List Stage} (ready : Ready place [] session)
    (allocated : place.shell < session.shells.next)
    (line : FilterLine lib env place text first filters) :
    ∃ built pp, PipesBuilt place session built ∧
      Chain (env.withFilters lib) built.pipes (first :: filters) none pp ∧ pp < built.pipes.next ∧
      Ticks (env.withFilters lib)
        { session, agenda := [.readTokens ⟨place.shell, text, []⟩] }
        { session := built, agenda := [.callCommand pp] } := by
  rcases line.reads with ⟨tokens, collects, reads⟩
  rcases @ticks_read _ (env.withFilters lib) _ _ _ _ _ _ collects ready [] with
    ⟨read, readyRead, only, readTicks⟩
  rcases @runOrPrompt_next _ (env.withFilters lib) _ _ _ _ _ readyRead reads [] with
    ⟨environ, runs⟩
  rcases ticks_build (readyRead.setPending []) (line.known lib) (List.cons_ne_nil _ _) environ []
    with ⟨built, pp, readyBuilt, chain, below, untouched, world, buildTicks⟩
  have quiet : OnlyPending place.shell session (read.setPending place.shell []) :=
    only.trans (.setPending ..)
  refine ⟨built, pp, ?_, chain, below, ?_⟩
  · constructor
    · constructor
      · exact readyBuilt.cmdstack
      · exact List.cons_ne_nil _ _
      · intro shell isTop
        rw [← Option.some.inj isTop]
        exact readyBuilt.pending
      · intro shell isTop
        rw [← Option.some.inj isTop, untouched.shells]
        exact Nat.lt_of_lt_of_eq allocated quiet.allocated.symm
    · exact world.trans quiet.world
    · exact readyBuilt.depth
    · exact untouched.started.trans quiet.started
    · exact untouched.removed.trans quiet.removed
    · rw [Session.shell, untouched.shells]
      exact quiet.interactive place.shell
  · apply readTicks.trans
    apply ticks_proceed
    rw [runs]
    exact buildTicks

theorem PipelineRun.completed_iff {place : Place} {expected : List Started} {reads : Prop}
    {before built : Session World} {final : Machine World} (same : PipesBuilt place before built)
    (onTop : before.cmdstack = .shell place.shell :: place.below)
    (ran : PipelineRun env (.shell place.shell :: place.below) expected reads built final) :
    Completed env place expected before final ↔ reads := by
  constructor
  · intro completed
    rcases ran.result with ⟨-, raised⟩ | ⟨-, pushed, isStack, outcome⟩
    · rw [completed.returned] at raised
      cases raised
    · rcases outcome with ⟨-, remains | ⟨removed, isRemoved, disordered⟩⟩ | ⟨reads, -⟩
      · have nothing := completed.cmdstack
        rw [isStack, onTop] at nothing
        exact absurd (List.append_left_eq_self.mp nothing) remains
      · rcases completed.removed with ⟨other, isOther, inOrder⟩
        rw [isOther, same.removed] at isRemoved
        rw [← List.append_cancel_left isRemoved, same.started] at disordered
        exact absurd inOrder.sublist disordered
      · exact reads
  · intro reads
    rcases ran.result with ⟨fails, -⟩ | ⟨returned, pushed, isStack, outcome⟩
    · exact absurd reads fails
    · rcases outcome with ⟨fails, -⟩ | ⟨-, nothing, finished⟩
      · exact absurd reads fails
      · constructor
        · exact returned
        · rw [isStack, nothing, onTop]
          rfl
        · rw [← same.started]
          exact finished.started
        · rcases finished.removed with ⟨removed, isRemoved, -, inOrder⟩
          rw [same.removed] at isRemoved
          rw [same.started] at inOrder
          exact ⟨removed, isRemoved, inOrder⟩
        · intro interactive
          apply finished.prompted place.shell rfl
          rw [finished.shell place.shell rfl, same.interactive]
          exact interactive

theorem pipeline_run {machine : Machine World} {place : Place} {text : Str}
    {first : Stage} {filters : List Stage} {silent : Str → Prop} (idle : Idle place machine)
    (allocated : place.shell < machine.session.shells.next)
    (line : FilterLine lib env place text first filters)
    (texts : LineReturns env lib place text first filters machine silent) :
    ∃ ticks final,
      EventRun.run (step (env.withFilters lib)) machine
        (.line text :: List.replicate ticks .tick) = some final ∧
      final.agenda = [] ∧
      (Completed (env.withFilters lib) place
          ((stagesInOrder (env.withFilters lib) place.depth machine.session.world
            (first :: filters) none).map fun stage =>
              startedAs (env.withFilters lib) stage.1 stage.2)
          machine.session final ↔
        AllFit lib silent (filtersOf lib env place first filters machine.session.world)) := by
  rcases machine with ⟨session, agenda, raised⟩
  have ready : Ready place [] session := idle.ready
  have isAgenda : agenda = [] := idle.agenda
  have isRaised : raised = false := idle.returned
  rw [isAgenda, isRaised] at texts ⊢
  have received : step (env.withFilters lib) { session } (.line text) =
      some { session, agenda := [.readTokens ⟨place.shell, text, []⟩] } := by
    simp [step, lineReceived, ready.cmdstack]
  rcases ticks_filterLine lib ready allocated line with ⟨built, pp, same, chain, below, ticksBuilt⟩
  rcases Option.isSome_iff_exists.mp line.synchronous.known with ⟨cmd, isCmd⟩
  rcases line.synchronous.exits cmd none built.scriptDepth built.world isCmd rfl with
    ⟨outputs, starts⟩
  have isOutputs : stageOutputs (env.withFilters lib) place.depth first none session.world =
      outputs := by
    rw [← same.world, ← same.depth]
    simp only [stageOutputs, isCmd, starts]
    rw [outputsOf_append]
    exact List.append_nil outputs
  have isStarted : startedAs (env.withFilters lib) first none = ⟨cmd, first.rargs, none⟩ := by
    simp only [startedAs, isCmd, Option.getD_some]
  rcases @ticks_stage _ (env.withFilters lib) _ _ _ _ _ _ _ _ _ True none silent same.standing chain
    below isCmd starts (.exits trivial) (fun _ none_ => by cases none_) with
    ⟨middle, firstTicks, run⟩
  let later := stagesInOrder (env.withFilters lib) place.depth session.world filters (piped outputs)
  have isLater : filtersOf lib env place first filters session.world = later := by
    rw [filtersOf, isOutputs]
  have followed : ∃ final, Ticks (env.withFilters lib) middle final ∧
      PipelineRun (env.withFilters lib) (.shell place.shell :: place.below)
        (⟨cmd, first.rargs, none⟩ ::
          later.map fun stage => startedAs (env.withFilters lib) stage.1 stage.2)
        ((True ∧ (filters ≠ [] → ∀ cmds ∈ (none : Option Str), silent cmds)) ∧
          AllFit lib silent later) built final := by
    apply run.followed
    · intro more
      rw [List.length_map]
      exact List.length_pos_of_ne_nil (stagesInOrder_eq_nil.not.mpr more)
    · intro nothing
      have isEmpty : later = [] := stagesInOrder_eq_nil.mpr nothing
      rw [isEmpty]
      exact ⟨rfl, trivial⟩
    · intro frames next _ standing below chain isMiddle
      rw [isMiddle] at firstTicks ⊢
      apply ticks_stages lib place.depth session.world line.filters standing chain below
      intro stage member cmds isText
      rw [← isOutputs] at member
      exact ((texts _ received stage member cmds isText).later ticksBuilt).later firstTicks
  rcases followed with ⟨final, laterTicks, ran⟩
  rcases ticksBuilt.trans (firstTicks.trans laterTicks) with ⟨count, counted⟩
  refine ⟨count, final, EventRun.run_cons.mpr ⟨_, received, counted⟩, ran.agenda, ?_⟩
  simp only [stagesInOrder, List.map_cons, isStarted, isOutputs]
  rw [ran.completed_iff same ready.cmdstack, isLater]
  constructor
  · intro reads
    exact reads.2
  · intro fits
    exact ⟨⟨trivial, fun _ _ none_ => by cases none_⟩, fits⟩

theorem ended_unique {machine final other : Machine World} {ticks count : Nat}
    (ran : EventRun.run (step env) machine (List.replicate ticks .tick) = some final)
    (done : final.agenda = [])
    (ranOther : EventRun.run (step env) machine (List.replicate count .tick) = some other)
    (doneOther : other.agenda = []) : final = other := by
  have stops {machine : Machine World} (done : machine.agenda = []) :
      step env machine .tick = none := by simp [step, done]
  induction ticks generalizing machine count with
  | zero =>
      cases ran
      cases count with
      | zero => exact Option.some.inj ranOther
      | succ count =>
          rcases EventRun.run_cons.mp ranOther with ⟨next, stepped, -⟩
          rw [stops done] at stepped
          cases stepped
  | succ ticks induction =>
      rcases EventRun.run_cons.mp ran with ⟨next, stepped, ranLater⟩
      cases count with
      | zero =>
          cases ranOther
          rw [stops doneOther] at stepped
          cases stepped
      | succ count =>
          rcases EventRun.run_cons.mp ranOther with ⟨same, steppedOther, laterOther⟩
          rw [stepped] at steppedOther
          cases steppedOther
          exact induction ranLater laterOther

end Filters

/-! ## Pipelines of `echo` -/

section Echo

def Library.small : Library Unit where
  isdigit := CommandParser.isdigit
  int text := if CommandParser.isdigit text then some (CommandParser.int text) else none
  compile pattern := some fun line => line.tails.any pattern.isPrefixOf
  b64encode data := data
  b64decode data := some data
  help _ := []
  version _ := []
  isdir path _ := path = "/".toList
  mkfile _ _ := .error .permissionDenied

def echoOf (word : String) : Stage := ⟨"echo".toList, [word.toList], []⟩

theorem synchronous_echoOf (word : String) (possible : Option Bytes → Prop) :
    Synchronous (Env.small.withFilters .small) possible (echoOf word) := by
  have visible : Text.strip "echo".toList ≠ [] := by decide
  refine ⟨⟨rfl, visible, rfl⟩, ?_⟩
  intro cmd input depth world isCommand _
  cases isCommand
  exact ⟨[.write (Utf8.encode (Text.join " ".toList [word.toList] ++ "\n".toList))], rfl⟩

def uniqStage : Stage := ⟨"uniq".toList, [], []⟩

def wcStage : Stage := ⟨"wc".toList, ["-l".toList], []⟩

def grepStage : Stage := ⟨"grep".toList, ["b".toList], []⟩

theorem filterStage_uniq : FilterStage Library.small Env.small uniqStage :=
  ⟨rfl, .inl ⟨.uniq, rfl, rfl⟩⟩

theorem filterStage_wc : FilterStage Library.small Env.small wcStage :=
  ⟨rfl, .inl ⟨.wc, rfl, rfl⟩⟩

theorem filterStage_grep : FilterStage Library.small Env.small grepStage :=
  ⟨rfl, .inl ⟨.grep, rfl, rfl⟩⟩

def shStage : Stage := ⟨"sh".toList, [], []⟩

theorem filterStage_sh : FilterStage Library.small Env.small shStage :=
  ⟨rfl, .inr ⟨rfl, .inr (by simp [shStage])⟩⟩

def smallPlace : Place := ⟨0, [], Env.small.environ, 0⟩

theorem filterLine_assigned :
    FilterLine Library.small Env.small smallPlace "echo a=1 | sh | wc -l".toList (echoOf "a=1")
      [shStage, wcStage] := by
  constructor
  · refine ⟨["echo".toList, "a=1".toList, "|".toList, "sh".toList, "|".toList, "wc".toList,
      "-l".toList], ?_, ⟨_, rfl⟩⟩
    exact .word rfl rfl (.word rfl rfl (.word rfl rfl (.word rfl rfl (.word rfl rfl (.word rfl rfl
      (.word rfl rfl (.last rfl)))))))
  · exact synchronous_echoOf ..
  · intro stage member
    rcases List.mem_cons.mp member with isSh | member
    · rw [isSh]
      exact filterStage_sh
    · rw [List.mem_singleton.mp member]
      exact filterStage_wc

theorem filtersOf_assigned :
    filtersOf Library.small Env.small smallPlace (echoOf "a=1") [shStage, wcStage] () =
      [(shStage, some (Utf8.encode "a=1\n".toList)), (wcStage, none)] := rfl

theorem lineReturns_assigned :
    LineReturns Env.small Library.small smallPlace "echo a=1 | sh | wc -l".toList (echoOf "a=1")
      [shStage, wcStage] (connectionMade Env.small ()) fun _ => True := by
  intro next _ stage member cmds isText
  rcases List.mem_cons.mp (filtersOf_assigned ▸ member) with isSh | isWc
  · rw [isSh] at isText
    have isCmds : cmds = "a=1\n".toList := by
      have decoded : stageText shStage (some (Utf8.encode "a=1\n".toList)) =
          some "a=1\n".toList := by decide
      rw [decoded] at isText
      exact (Option.some.inj isText).symm
    rw [isCmds]
    apply textReturns_of_empty trivial
      (@Collects.word _ _ _ _ "a=1".toList _ _ rfl rfl (.last rfl))
    intro tokens member
    rw [List.mem_singleton.mp member]
    rfl
  · rw [List.mem_singleton.mp isWc] at isText
    cases isText

theorem filterLine_unmatched :
    FilterLine Library.small Env.small smallPlace "echo a | grep b | uniq".toList (echoOf "a")
      [grepStage, uniqStage] := by
  constructor
  · refine ⟨["echo".toList, "a".toList, "|".toList, "grep".toList, "b".toList, "|".toList,
      "uniq".toList], ?_, ⟨_, rfl⟩⟩
    exact .word rfl rfl (.word rfl rfl (.word rfl rfl (.word rfl rfl (.word rfl rfl (.word rfl rfl
      (.word rfl rfl (.last rfl)))))))
  · exact synchronous_echoOf ..
  · intro stage member
    rcases List.mem_cons.mp member with isGrep | member
    · rw [isGrep]
      exact filterStage_grep
    · rw [List.mem_singleton.mp member]
      exact filterStage_uniq

def afterLine (text : String) (ticks : Nat) : Option (Machine Unit) :=
  EventRun.run (step (Env.small.withFilters .small)) (connectionMade Env.small ())
    (.line text.toList :: List.replicate ticks .tick)

end Echo

end Shell

end LlmHoneypot
