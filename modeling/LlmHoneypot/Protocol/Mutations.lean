import LlmHoneypot.Foundation.ShellSyntax
import LlmHoneypot.Protocol.Conditionals
import LlmHoneypot.Protocol.Reactor
import LlmHoneypot.Protocol.Routes

/-! # Mutations of a line

Which changes of the session's world a typed line makes, against those its commands
make when each of them is typed by itself. -/

namespace LlmHoneypot

namespace Protocol

open AndOrList CmdChain Downloader Interactive Responder
open CmdParser (CmdMutation parseInputMutations)

variable {env : Env} {command : Str} {session next : Session}

/-! ## Commands by themselves -/

def stackAfter (stack : List Str) : CmdMutation → List Str
  | .pushUser user => if user = [] then stack else stack ++ [user]
  | .popUser => stack.dropLast
  | _ => stack

def commandMutations (stack : List Str) (command : Str) : List CmdMutation :=
  if Text.strip command = [] then []
  else if isFastCommand command then
    if fastVerb? (Text.firstWord (Text.strip command)) = some .leave ∧ stack ≠ [] then [.popUser]
    else []
  else parseInputMutations command

def commandsMutations : (stack : List Str) → List Str → List CmdMutation
  | _, [] => []
  | stack, command :: rest =>
      let here := commandMutations stack command
      here ++ commandsMutations (here.foldl stackAfter stack) rest

theorem commandsMutations_append (stack : List Str) (first second : List Str) :
    commandsMutations stack (first ++ second) =
      commandsMutations stack first ++
        commandsMutations ((commandsMutations stack first).foldl stackAfter stack) second := by
  induction first generalizing stack with
  | nil => rfl
  | cons command rest induction =>
      simp only [List.cons_append, commandsMutations, induction, List.append_assoc,
        List.foldl_append]

/-! ## Stages -/

theorem userStack_applyMutation (user : Str) (now : Nat) (world : WorldState)
    (mutation : CmdMutation) :
    (applyMutation user now world mutation).userStack =
      stackAfter world.userStack mutation := by
  cases mutation with
  | createFile path content => exact userStack_addFile ..
  | appendFile path content => exact userStack_addFile ..
  | removeFile path => rfl
  | copyFile path dstPath =>
      simp only [applyMutation]
      split
      · exact userStack_addFile ..
      · rfl
  | moveFile path dstPath =>
      simp only [applyMutation]
      split
      · exact userStack_addFile ..
      · rfl
  | setEnv name value =>
      simp only [applyMutation, WorldState.addEnv]
      split <;> rfl
  | pushUser user =>
      simp only [applyMutation, WorldState.pushUser, stackAfter]
      split <;> rfl
  | popUser => rfl
  | addProcess command =>
      simp only [applyMutation, WorldState.addProcess]
      split <;> rfl

structure Applies (mutations : List CmdMutation) (session next : Session) : Prop where
  mutated : next.mutated = session.mutated ++ mutations
  userStack : next.world.userStack = mutations.foldl stackAfter session.world.userStack

namespace Applies

theorem of_shell (same : next.shell = session.shell) : Applies [] session next :=
  ⟨(congrArg ShellView.mutated same).trans (List.append_nil _).symm,
    congrArg ShellView.userStack same⟩

theorem trans {final : Session} {first second : List CmdMutation}
    (before : Applies first session next) (after : Applies second next final) :
    Applies (first ++ second) session final := by
  constructor
  · rw [after.mutated, before.mutated, List.append_assoc]
  · rw [after.userStack, before.userStack, List.foldl_append]

theorem before {start : Session} {mutations : List CmdMutation}
    (applies : Applies mutations session next) (same : session.shell = start.shell) :
    Applies mutations start next := by
  simpa using (of_shell same).trans applies

theorem after {final : Session} {mutations : List CmdMutation}
    (applies : Applies mutations session next) (same : final.shell = next.shell) :
    Applies mutations session final := by
  simpa using applies.trans (of_shell same)

theorem applyMutations (mutations : List CmdMutation) (session : Session) :
    Applies mutations session (session.applyMutations mutations) := by
  constructor
  · rfl
  · simp only [Session.applyMutations]
    generalize session.world = world
    induction mutations generalizing world with
    | nil => rfl
    | cons mutation rest induction =>
        simp only [List.foldl_cons, induction, userStack_applyMutation]

end Applies

theorem isFastCommand_of_slow (slow : tryFastpath env command session = none) :
    isFastCommand command = false := by
  rw [Bool.eq_false_iff]
  intro fast
  rcases tryFastpath_of_isFastCommand env session fast with ⟨next, handled⟩
  rw [slow] at handled
  cases handled

theorem applies_tryFastpath (fast : tryFastpath env command session = some next) :
    Applies (commandMutations session.world.userStack command) session next := by
  by_cases blank : Text.strip command = []
  · simp only [tryFastpath, blank, if_true, Option.some.injEq] at fast
    subst fast
    simpa [commandMutations, blank] using
      Applies.of_shell (shell_showPromptJittered env session)
  have isFast := isFastCommand_of_tryFastpath fast blank
  simp only [tryFastpath, blank, if_false] at fast
  split at fast
  · cases fast
  rcases Option.map_eq_some_iff.mp fast with ⟨verb, found, rfl⟩
  have mutations : commandMutations session.world.userStack command =
      if verb = .leave ∧ session.world.userStack ≠ [] then [.popUser] else [] := by
    simp [commandMutations, blank, isFast, found]
  rw [mutations]
  cases verb with
  | leave =>
      by_cases top : session.world.userStack = []
      · simpa [runFastVerb, top] using Applies.of_shell (shell_send session [.loseConnection])
      · simpa [runFastVerb, top] using
          (Applies.applyMutations [.popUser] session).after (shell_showPromptJittered env _)
  | clear =>
      have cleared : (runFastVerb env command
          (Text.afterFirstWord (Text.strip command)) session .clear).shell = session.shell :=
        (shell_showPromptJittered ..).trans (shell_send ..)
      simpa using Applies.of_shell cleared
  | pwd =>
      have written : (runFastVerb env command
          (Text.afterFirstWord (Text.strip command)) session .pwd).shell = session.shell :=
        (shell_showPromptJittered ..).trans (Session.shell_write ..)
      simpa using Applies.of_shell written
  | cd =>
      have prompted := shell_showPromptJittered env
        (({ session with chdirs := session.chdirs ++ [command] } : Session).changeDirectory
          (Text.strip (Text.afterFirstWord (Text.strip command))))
      simp only [reduceCtorEq, false_and, if_false]
      constructor
      · exact (congrArg ShellView.mutated prompted).trans (List.append_nil _).symm
      · exact congrArg ShellView.userStack prompted

theorem applies_applyInputMutations (slow : tryFastpath env command session = none) :
    Applies (commandMutations session.world.userStack command) session
      (applyInputMutations command session) := by
  have mutations : commandMutations session.world.userStack command =
      parseInputMutations command := by
    simp [commandMutations, visible_of_slow slow, isFastCommand_of_slow slow]
  rw [mutations]
  exact Applies.applyMutations ..

theorem applies_dispatched {renders : Renderer} {outcome : Session × Stage}
    (dispatched : Dispatched env renders command session outcome) :
    Applies (commandMutations session.world.userStack command) session outcome.1 := by
  cases dispatched with
  | fast next fast => exact applies_tryFastpath fast
  | rendered result slow rendered =>
      exact (applies_applyInputMutations slow).after (shell_emitDeterministic ..)
  | program program slow deferred connected enabled started =>
      have shell := shell_startProgram env (applyInputMutations command session) program
      have applies := applies_applyInputMutations slow
      exact ⟨(congrArg ShellView.mutated shell).trans applies.mutated,
        (congrArg ShellView.userStack shell).trans applies.userStack⟩
  | download intent slow deferred lined capture parsed =>
      have shell := shell_beginFetch env command (applyInputMutations command session) intent
      have applies := applies_applyInputMutations slow
      exact ⟨(congrArg ShellView.mutated shell).trans applies.mutated,
        (congrArg ShellView.userStack shell).trans applies.userStack⟩
  | badUrl raised slow deferred lined capture parsed => exact applies_applyInputMutations slow
  | declined slow deferred lined parsed => exact applies_applyInputMutations slow

theorem applies_dispatchOne (env : Env) (command : Str) (session : Session) :
    Applies (commandMutations session.world.userStack command) session
      (dispatchOne env command session).1 := by
  rcases dispatchOne_dispatched env command session with ⟨⟨next, stage⟩, dispatched, equal⟩
  have applies := applies_dispatched dispatched
  rw [equal]
  cases stage with
  | raised => exact applies
  | handled ok => exact applies
  | declined => exact applies.after (shell_processCommandWithLlm ..)

theorem applies_dispatchSegment (env : Env) (command : Str) (session : Session) :
    Applies (commandMutations session.world.userStack command) session
      (dispatchSegment env command session).1 := by
  have applies := applies_dispatched
    (dispatchLocal_dispatched env command (session.setSuppressPrompt true))
  exact ⟨applies.mutated, applies.userStack⟩

/-! ## Chains -/

def executedSegments : List Segment → List Decision → List Str
  | segment :: rest, decision :: later =>
      if decision.executes then segment.command :: executedSegments rest later
      else executedSegments rest later
  | _, _ => []

theorem applies_chainLoop (env : Env) (succeeded : Bool) (segments : List Segment)
    (session : Session) :
    Applies
      (commandsMutations session.world.userStack
        (executedSegments segments (chainLoop env succeeded segments session).decisions))
      session (chainLoop env succeeded segments session).session := by
  induction segments generalizing succeeded session with
  | nil => exact .of_shell rfl
  | cons segment rest induction =>
      simp only [chainLoop]
      split
      · have here := applies_dispatchSegment env segment.command session
        generalize dispatchSegment env segment.command session = outcome at here
        rcases outcome with ⟨next, stage⟩
        cases stage with
        | raised =>
            simpa [executedSegments, Decision.executes, commandsMutations] using here
        | declined =>
            simpa [executedSegments, Decision.executes, commandsMutations] using here
        | handled ok =>
            have later := induction ok next
            rw [here.userStack] at later
            exact here.trans later
      · exact induction true session

/-! ## Lines -/

def judged (verdict : Nat → Bool) (position : Nat) (pieces : List (Connective × Str)) :
    List (Connective × Trial) :=
  (pieces.zipIdx position).map fun (piece, index) => (piece.1, ⟨piece.2, verdict index⟩)

/-- The segments behind the one at `position` which are executed, where `verdict` says which
commands of the chain succeed. -/
def executedBehind (verdict : Nat → Bool) (position : Nat) (rest : List Segment) : List Str :=
  let pieces := rest.map fun segment => (connective segment.operator, segment.command)
  (carriedOut Trial.succeeds (verdict position) (judged verdict (position + 1) pieces)).map
    (·.command)

def executedLater (verdict : Nat → Bool) (run : ChainRun) (segments : List Segment) :
    List Str :=
  executedBehind verdict (run.decisions.length - 1) (segments.drop run.decisions.length)

def executedOf (verdict : Nat → Bool) (line : Str) : List Str :=
  (carriedOut Trial.succeeds true (judged verdict 0 (ShellSyntax.commands line))).map (·.command)

/-- The commands of a line that are executed: of a chain the segments that its loop
executed or handed over and what the shell executes behind these, of any other line what
the shell executes of it. -/
def executedCommands (env : Env) (verdict : Nat → Bool) (line : Str) (session : Session) :
    List Str :=
  match splitChain line with
  | none => executedOf verdict line
  | some segments =>
      if 1 < segments.length then
        let run := chainLoop env true segments (session.log (.input line))
        executedSegments segments run.decisions ++
          match run.ending with
          | .handedOver _ => executedLater verdict run segments
          | _ => []
      else [line]

/-! ## The segment that is handed over -/

/-- The ladder answers the segments one after the other, as far as they run. -/
inductive Answered (env : Env) : (succeeded : Bool) → Session → List Segment → (seen : Bool) →
    Session → Prop
  | none (succeeded : Bool) (session : Session) : Answered env succeeded session [] succeeded session
  | skipped {succeeded seen : Bool} {session final : Session} {segment : Segment}
      {rest : List Segment} (skips : shouldRun segment.operator succeeded = false)
      (later : Answered env true session rest seen final) :
      Answered env succeeded session (segment :: rest) seen final
  | ran {succeeded ok seen : Bool} {session next final : Session} {segment : Segment}
      {rest : List Segment} (runs : shouldRun segment.operator succeeded = true)
      (answers : dispatchSegment env segment.command session = (next, .handled ok))
      (later : Answered env ok next rest seen final) :
      Answered env succeeded session (segment :: rest) seen final

def LeftToModel (env : Env) (command : Str) (session : Session) : Prop :=
  route env (localRenderer env command) command (session.setSuppressPrompt true) = .model

theorem dispatchSegment_declined_iff :
    (dispatchSegment env command session).2 = .declined ↔ LeftToModel env command session := by
  rw [LeftToModel]
  change (dispatchLocal env command (session.setSuppressPrompt true)).2 = .declined ↔ _
  have dispatched := dispatchLocal_dispatched env command (session.setSuppressPrompt true)
  generalize dispatchLocal env command (session.setSuppressPrompt true) = outcome at dispatched ⊢
  cases dispatched with
  | fast next fast =>
      rw [route_fast fast]
      exact iff_of_false nofun nofun
  | rendered result slow rendered =>
      rw [route_rendered slow rendered]
      exact iff_of_false nofun nofun
  | program program slow deferred connected enabled started =>
      rw [route_program slow deferred connected enabled started]
      exact iff_of_false nofun nofun
  | download intent slow deferred lined capture parsed =>
      rw [route_download slow deferred lined capture parsed]
      refine iff_of_false ?_ nofun
      rcases beginFetch_stage env command intent
        (applyInputMutations command (session.setSuppressPrompt true)) with ⟨raised, _⟩ | handled
      · rw [raised]
        exact nofun
      · rw [handled]
        exact nofun
  | badUrl raised slow deferred lined capture parsed =>
      rw [route_badUrl slow deferred lined capture parsed]
      exact iff_of_false nofun nofun
  | declined slow deferred lined parsed =>
      rw [route_model slow deferred lined parsed]
      exact iff_of_true rfl rfl

theorem chainLoop_answered {succeeded seen : Bool} {before : List Segment} {final : Session}
    (answered : Answered env succeeded session before seen final) (later : List Segment) :
    (chainLoop env succeeded (before ++ later) session).ending =
        (chainLoop env seen later final).ending ∧
      (chainLoop env succeeded (before ++ later) session).session =
        (chainLoop env seen later final).session ∧
      (chainLoop env succeeded (before ++ later) session).decisions.length =
        before.length + (chainLoop env seen later final).decisions.length := by
  induction answered with
  | none => exact ⟨rfl, rfl, (Nat.zero_add _).symm⟩
  | skipped skips answered induction =>
      rw [List.cons_append, chainLoop, if_neg (Bool.eq_false_iff.mp skips)]
      refine ⟨induction.1, induction.2.1, ?_⟩
      have length := induction.2.2
      simp only [ChainRun.prepend, List.length_cons]
      omega
  | ran runs answers answered induction =>
      rw [List.cons_append, chainLoop, if_pos runs, answers]
      refine ⟨induction.1, induction.2.1, ?_⟩
      have length := induction.2.2
      simp only [ChainRun.prepend, List.length_cons]
      omega

theorem chainLoop_handsOver {succeeded seen : Bool} {before : List Segment}
    (rest : List Segment) {segment : Segment} {reached : Session}
    (answered : Answered env succeeded session before seen reached)
    (runs : shouldRun segment.operator seen = true)
    (left : LeftToModel env segment.command reached) :
    let run := chainLoop env succeeded (before ++ segment :: rest) session
    run.ending = .handedOver (remainder segment.command rest) ∧
      run.session = (dispatchSegment env segment.command reached).1 ∧
      run.decisions.length = before.length + 1 := by
  have stage := dispatchSegment_declined_iff.mpr left
  have reads := chainLoop_answered answered (segment :: rest)
  have last : chainLoop env seen (segment :: rest) reached =
      ⟨(dispatchSegment env segment.command reached).1, [.handedOver],
        .handedOver (remainder segment.command rest)⟩ := by
    rw [chainLoop, if_pos runs]
    generalize dispatchSegment env segment.command reached = outcome at stage
    rcases outcome with ⟨next, _⟩
    cases stage
    rfl
  rw [last] at reads
  exact reads

theorem exists_handedOver {succeeded : Bool} {segments : List Segment} {text : Str}
    (ends : (chainLoop env succeeded segments session).ending = .handedOver text) :
    ∃ before segment rest seen reached, segments = before ++ segment :: rest ∧
      Answered env succeeded session before seen reached ∧
      shouldRun segment.operator seen = true ∧ LeftToModel env segment.command reached := by
  induction segments generalizing succeeded session with
  | nil => cases ends
  | cons segment rest induction =>
      rw [chainLoop] at ends
      by_cases runs : shouldRun segment.operator succeeded = true
      · rw [if_pos runs] at ends
        cases outcome : dispatchSegment env segment.command session with
        | mk next stage =>
            rw [outcome] at ends
            cases stage with
            | raised => cases ends
            | declined =>
                exact ⟨[], segment, rest, succeeded, session, rfl, .none .., runs,
                  dispatchSegment_declined_iff.mp (by rw [outcome])⟩
            | handled ok =>
                rcases induction ends with ⟨before, handed, later, seen, reached, split, answered, rest_⟩
                exact ⟨segment :: before, handed, later, seen, reached, by rw [split]; rfl,
                  .ran runs outcome answered, rest_⟩
      · rw [if_neg runs] at ends
        rcases induction ends with ⟨before, handed, later, seen, reached, split, answered, rest_⟩
        exact ⟨segment :: before, handed, later, seen, reached, by rw [split]; rfl,
          .skipped (Bool.eq_false_iff.mpr runs) answered, rest_⟩

/-- Where the ladder answers the segments before one and leaves that one to the model, what the
parser reads off it and the rest of the line is what the segments behind it make that are
executed. -/
def HandoverRight (env : Env) (verdict : Nat → Bool) (segments : List Segment) (session : Session) :
    Prop :=
  ∀ before segment rest seen reached, segments = before ++ segment :: rest →
    Answered env true session before seen reached → shouldRun segment.operator seen = true →
      LeftToModel env segment.command reached →
        let stack := reached.world.userStack
        parseInputMutations (remainder segment.command rest) =
          commandsMutations ((commandMutations stack segment.command).foldl stackAfter stack)
            (executedBehind verdict before.length rest)

theorem handoverRight_iff (env : Env) (verdict : Nat → Bool) (segments : List Segment)
    (session : Session) : HandoverRight env verdict segments session ↔
      let run := chainLoop env true segments session
      ∀ text, run.ending = .handedOver text → parseInputMutations text =
        commandsMutations run.session.world.userStack (executedLater verdict run segments) := by
  have same : ∀ {before segment} rest {seen reached}, Answered env true session before seen reached →
      shouldRun segment.operator seen = true → LeftToModel env segment.command reached →
        let run := chainLoop env true (before ++ segment :: rest) session
        run.ending = .handedOver (remainder segment.command rest) ∧
          executedLater verdict run (before ++ segment :: rest) =
            executedBehind verdict before.length rest ∧
          run.session.world.userStack = (commandMutations reached.world.userStack
            segment.command).foldl stackAfter reached.world.userStack := by
    intro before segment rest seen reached answered runs left
    rcases chainLoop_handsOver rest answered runs left with ⟨ends, final, length⟩
    refine ⟨ends, ?_, ?_⟩
    · rw [executedLater, length, Nat.add_sub_cancel, List.drop_append, Nat.add_sub_cancel_left,
        List.drop_eq_nil_of_le (Nat.le_succ _), List.nil_append]
      rfl
    · rw [final]
      exact (applies_dispatchSegment env segment.command reached).userStack
  constructor
  · intro right run text ends
    rcases exists_handedOver ends with ⟨before, segment, rest, seen, reached, rfl, answered, runs, left⟩
    rcases same rest answered runs left with ⟨handed, later, stack⟩
    have isText := ChainEnd.handedOver.inj (handed.symm.trans ends)
    rw [later, stack, ← isText]
    exact right before segment rest seen reached rfl answered runs left
  · intro right before segment rest seen reached split answered runs left
    subst split
    rcases same rest answered runs left with ⟨handed, later, stack⟩
    have reads := right _ handed
    rw [later, stack] at reads
    exact reads

/-! ## A line that is not split -/

/-- The line makes what the first command that is executed of it makes, and the others make
nothing; where none is executed, it makes nothing. -/
def RefusalRight (verdict : Nat → Bool) (stack : List Str) (line : Str) : Prop :=
  match executedOf verdict line with
  | [] => commandMutations stack line = []
  | first :: others =>
      commandMutations stack line = commandMutations stack first ∧
        commandsMutations ((commandMutations stack first).foldl stackAfter stack) others = []

/-- The line is read as the first command that is executed of it. -/
def ReadsFirst (verdict : Nat → Bool) (stack : List Str) (line : Str) : Prop :=
  ∀ first ∈ (executedOf verdict line).head?,
    commandMutations stack line = commandMutations stack first

section Refusal

variable {verdict : Nat → Bool} {stack : List Str} {line : Str}

theorem RefusalRight.equal (right : RefusalRight verdict stack line) :
    commandMutations stack line = commandsMutations stack (executedOf verdict line) := by
  rw [RefusalRight] at right
  cases executed : executedOf verdict line with
  | nil =>
      rw [executed] at right
      exact right
  | cons first others =>
      rw [executed] at right
      simp only [commandsMutations, right.2, List.append_nil]
      exact right.1

theorem refusalRight_of_equal (reads : ReadsFirst verdict stack line)
    (equal : commandMutations stack line = commandsMutations stack (executedOf verdict line)) :
    RefusalRight verdict stack line := by
  rw [RefusalRight]
  cases executed : executedOf verdict line with
  | nil =>
      rw [executed] at equal
      exact equal
  | cons first others =>
      have same := reads first (by rw [executed]; rfl)
      rw [executed, same] at equal
      exact ⟨same, List.self_eq_append_right.mp equal⟩

end Refusal

def MutatesOnce (env : Env) (verdict : Nat → Bool) (line : Str) (session : Session) : Prop :=
  match splitChain line with
  | none => RefusalRight verdict session.world.userStack line
  | some segments =>
      1 < segments.length → HandoverRight env verdict segments (session.log (.input line))

theorem applies_dispatchChain (env : Env) (segments : List Segment) (session : Session) :
    Applies
      (commandsMutations session.world.userStack
          (executedSegments segments (chainLoop env true segments session).decisions) ++
        match (chainLoop env true segments session).ending with
        | .handedOver text => parseInputMutations text
        | _ => [])
      session (dispatchChain env segments session).1 := by
  have looped := applies_chainLoop env true segments session
  unfold dispatchChain finishChain
  cases ends : (chainLoop env true segments session).ending with
  | finished =>
      rw [List.append_nil]
      exact looped.after (Session.shell_showPrompt ..)
  | handedOver text =>
      have handed := looped.trans (Applies.applyMutations (parseInputMutations text)
        (chainLoop env true segments session).session)
      exact handed.after (shell_processCommandWithLlm ..)
  | raised =>
      rw [List.append_nil]
      exact looped

theorem mutated_refused_iff {verdict : Nat → Bool} {line : Str} (refused : splitChain line = none) :
    (dispatchLine env line session).1.mutated = session.mutated ++
        commandsMutations session.world.userStack (executedCommands env verdict line session) ↔
      commandMutations session.world.userStack line =
        commandsMutations session.world.userStack (executedOf verdict line) := by
  have logged : (session.log (.input line)).shell = session.shell := Session.shell_log ..
  have unchained : chainSegments line = none := by simp [chainSegments, refused]
  have applies := (applies_dispatchOne env line (session.log (.input line))).before logged
  simp only [dispatchLine, unchained, executedCommands, refused]
  rw [applies.mutated]
  exact List.append_right_inj _

theorem mutated_split_iff {verdict : Nat → Bool} {line : Str} {segments : List Segment}
    (split : splitChain line = some segments) :
    (dispatchLine env line session).1.mutated = session.mutated ++
        commandsMutations session.world.userStack (executedCommands env verdict line session) ↔
      (1 < segments.length → HandoverRight env verdict segments (session.log (.input line))) := by
  have logged : (session.log (.input line)).shell = session.shell := Session.shell_log ..
  by_cases chained : 1 < segments.length
  · have chain : chainSegments line = some segments := by simp [chainSegments, split, chained]
    have looped := (applies_chainLoop env true segments (session.log (.input line))).before logged
    have applies := (applies_dispatchChain env segments (session.log (.input line))).before logged
    simp only [dispatchLine, chain, executedCommands, split, chained, if_true, forall_const]
    rw [applies.mutated, handoverRight_iff]
    dsimp only
    cases ends : (chainLoop env true segments (session.log (.input line))).ending with
    | finished =>
        simp only [List.append_nil, reduceCtorEq, false_implies, implies_true, iff_true]
        rfl
    | handedOver text =>
        rw [commandsMutations_append, looped.userStack, ← List.append_assoc, ← List.append_assoc]
        simp only [ChainEnd.handedOver.injEq, forall_eq']
        exact List.append_right_inj _
    | raised =>
        simp only [List.append_nil, reduceCtorEq, false_implies, implies_true, iff_true]
        rfl
  · have unchained : chainSegments line = none := by
      simp only [chainSegments, split, Option.filter_some, decide_eq_true_eq, chained]
      rfl
    have applies := (applies_dispatchOne env line (session.log (.input line))).before logged
    simp only [dispatchLine, unchained, executedCommands, split, chained, if_false, false_implies,
      iff_true]
    rw [applies.mutated]
    simp only [commandsMutations, List.append_nil]
    rfl

theorem mutated_receive (env : Env) (line : List UInt8) (session : Session) :
    (receive env line session).mutated = (lineReceived env line session).1.mutated := by
  unfold receive
  rcases lineReceived env line session with ⟨next, ending⟩
  cases ending with
  | returned => rfl
  | raised => exact congrArg ShellView.mutated (shell_connectionLost next)

def touchOneLine : List UInt8 := [0x74, 0x6F, 0x75, 0x63, 0x68, 0x20, 0x61]

def buildLine : List UInt8 :=
  [0x63, 0x64, 0x20, 0x2F, 0x74, 0x6D, 0x70, 0x3B, 0x20, 0x6D, 0x61, 0x6B, 0x65, 0x20, 0x26, 0x26,
    0x20, 0x6C, 0x73]

def switchLine : List UInt8 :=
  [0x63, 0x64, 0x20, 0x2F, 0x74, 0x6D, 0x70, 0x3B, 0x20, 0x73, 0x75, 0x20, 0x70, 0x6F, 0x73, 0x74,
    0x67, 0x72, 0x65, 0x73]

end Protocol

end LlmHoneypot
