import LlmHoneypot.Foundation.ShellSyntax
import LlmHoneypot.Protocol.Reactor

/-! # What the fast path swallows

The fast path looks at the first word of a command. The operators that may follow
it, in the shell's own reading of the line, and the directories they end up in. -/

namespace LlmHoneypot

namespace Protocol

open CmdChain Downloader Responder ShellSyntax

variable {env : Env} {command : Str} {session next : Session}

/-! ## Operators of a fast command -/

/-- A command handled under a word of the fast path holds no unquoted operator. -/
def SwallowsNothing (env : Env) (session : Session) (line : Str) : Prop :=
  ∀ next, Text.strip line ≠ [] → tryFastpath env line session = some next →
    hasOperator (annotate line) = false

theorem hasOperator_of_isSimple {symbols : List Symbol}
    (simple : isSimple (Text.strip (chars symbols)) = true) :
    hasOperator symbols = hasSeparator symbols := by
  refine hasOperator_of_free fun part member isInfix => ?_
  have free := (Bool.and_eq_true_iff.mp simple).2
  have unsupported : ∀ part ∈ CONSTRUCTS, part ∈ UNSUPPORTED ∧ part ≠ [] ∧
      part.all (fun ch => !Text.isSpace ch) = true := by decide
  rcases unsupported part member with ⟨listed, started, allVisible⟩
  have visible : ∀ ch ∈ part, Text.isSpace ch = false := by simpa using allVisible
  have present : Text.contains part (Text.strip (chars symbols)) = true :=
    Text.contains_iff_infix.mpr (Text.infix_strip started visible isInfix)
  rw [Bool.not_eq_true', ← Bool.not_eq_true] at free
  exact free (List.any_eq_true.mpr ⟨part, listed, present⟩)

theorem hasOperator_of_isFastCommand {symbols : List Symbol}
    (fast : isFastCommand (chars symbols) = true) :
    hasOperator symbols = hasSeparator symbols :=
  hasOperator_of_isSimple (Bool.and_eq_true_iff.mp fast).1

theorem visible_of_isFastCommand (fast : isFastCommand command = true) :
    Text.strip command ≠ [] := by
  intro blank
  rw [isFastCommand, blank] at fast
  cases fast

theorem swallowsNothing_iff (env : Env) (session : Session) (line : Str) :
    SwallowsNothing env session line ↔
      (isFastCommand line = true → hasSeparator (annotate line) = false) := by
  constructor
  · intro nothing fast
    rcases tryFastpath_of_isFastCommand env session fast with ⟨next, handled⟩
    rw [← hasOperator_of_isFastCommand (by simpa using fast)]
    exact nothing next (visible_of_isFastCommand fast) handled
  · intro clean next visible handled
    have fast := isFastCommand_of_tryFastpath handled visible
    rw [hasOperator_of_isFastCommand (by simpa using fast)]
    exact clean fast

/-! ## Directories -/

/-- The directory and the one before it after a list of `cd` commands. -/
def replay (home : Str) (start : Str × Option Str) (chdirs : List Str) : Str × Option Str :=
  chdirs.foldl
    (fun place command => (newCwd home place.1 place.2 (cdArg command), some place.1)) start

/-- The part of the shell side that the directory depends on. -/
def place (session : Session) : Str × Str × Option Str × List Str :=
  (session.loginUser, session.cwd, session.prevCwd, session.chdirs)

theorem place_of_shell (shell : next.shell = session.shell) : place next = place session := by
  have loginUser := congrArg ShellView.loginUser shell
  have cwd := congrArg ShellView.cwd shell
  have prevCwd := congrArg ShellView.prevCwd shell
  have chdirs := congrArg ShellView.chdirs shell
  simp only [Session.shell] at loginUser cwd prevCwd chdirs
  simp [place, loginUser, cwd, prevCwd, chdirs]

/-- From `session` to `next` the directory changed only by `cd` commands of the
fast path among `commands`, in the order in which they were handled. -/
structure Moved (commands : List Str) (session next : Session) : Prop where
  loginUser : next.loginUser = session.loginUser
  chdirs : ∃ added, next.chdirs = session.chdirs ++ added ∧
    (∀ command ∈ added, command ∈ commands ∧ isFastCommand command = true) ∧
    (next.cwd, next.prevCwd) =
      replay (homeFor session.loginUser) (session.cwd, session.prevCwd) added

namespace Moved

variable {commands : List Str} {final : Session}

theorem of_place (same : place next = place session) : Moved commands session next := by
  simp only [place, Prod.mk.injEq] at same
  rcases same with ⟨loginUser, cwd, prevCwd, chdirs⟩
  exact ⟨loginUser, [], by simp [chdirs], by simp, by simp [cwd, prevCwd, replay]⟩

theorem of_shell (shell : next.shell = session.shell) : Moved commands session next :=
  of_place (place_of_shell shell)

theorem trans (first : Moved commands session next) (second : Moved commands next final) :
    Moved commands session final := by
  rcases first.chdirs with ⟨before, chdirs, beforeFast, place⟩
  rcases second.chdirs with ⟨after, chdirsAfter, afterFast, placeAfter⟩
  refine ⟨second.loginUser.trans first.loginUser, before ++ after, ?_, ?_, ?_⟩
  · rw [chdirsAfter, chdirs, List.append_assoc]
  · intro command member
    rcases List.mem_append.mp member with member | member
    · exact beforeFast command member
    · exact afterFast command member
  · rw [placeAfter, place, first.loginUser]
    exact (List.foldl_append ..).symm

theorem mono {more : List Str} (moved : Moved commands session next)
    (included : commands ⊆ more) : Moved more session next := by
  rcases moved.chdirs with ⟨added, chdirs, fast, place⟩
  exact ⟨moved.loginUser, added, chdirs,
    fun command member => ⟨included (fast command member).1, (fast command member).2⟩, place⟩

end Moved

theorem moved_tryFastpath (fast : tryFastpath env command session = some next) :
    Moved [command] session next := by
  rcases shell_tryFastpath fast with same | popped | ⟨isFast, moved⟩
  · exact .of_shell same
  · exact .of_place ((place_of_shell popped).trans rfl)
  · refine ⟨congrArg ShellView.loginUser moved, [command], congrArg ShellView.chdirs moved, ?_, ?_⟩
    · simpa using isFast
    · have cwd := congrArg ShellView.cwd moved
      have prevCwd := congrArg ShellView.prevCwd moved
      exact Prod.ext cwd prevCwd

theorem place_applyInputMutations (command : Str) (session : Session) :
    place (applyInputMutations command session) = place session := rfl

theorem place_startProgram (program : Interactive.Program) (session : Session) :
    place (startProgram env program session) = place session :=
  let started : Session := { session with program := some ⟨program, session.cwd⟩ }
  (place_of_shell (shell_startProgram env session program) : _ = place started)

theorem place_beginFetch (intent : DownloadIntent) (session : Session) :
    place (beginFetch env command intent session).1 = place session :=
  let fetched : Session := { session with fetched := session.fetched ++ [intent] }
  (place_of_shell (shell_beginFetch env command session intent) : _ = place fetched)

theorem moved_dispatched {renders : Renderer} {outcome : Session × Stage}
    (dispatched : Dispatched env renders command session outcome) :
    Moved [command] session outcome.1 := by
  cases dispatched with
  | fast next fast => exact moved_tryFastpath fast
  | rendered result slow rendered =>
      exact .of_place ((place_of_shell (shell_emitDeterministic ..)).trans
        (place_applyInputMutations ..))
  | program program slow deferred connected enabled started =>
      exact .of_place ((place_startProgram ..).trans (place_applyInputMutations ..))
  | download intent slow deferred lined capture parsed =>
      exact .of_place ((place_beginFetch ..).trans (place_applyInputMutations ..))
  | badUrl raised slow deferred lined capture parsed =>
      exact .of_place (place_applyInputMutations ..)
  | declined slow deferred lined parsed => exact .of_place (place_applyInputMutations ..)

theorem moved_dispatchSegment (env : Env) (command : Str) (session : Session) :
    Moved [command] session (dispatchSegment env command session).1 := by
  have suppressed : Moved [command] session (session.setSuppressPrompt true) := .of_place rfl
  have moved := suppressed.trans (moved_dispatched (dispatchLocal_dispatched env command _))
  exact moved.trans (.of_place rfl)

theorem moved_chainLoop (env : Env) (succeeded : Bool) (segments : List Segment)
    (session : Session) :
    Moved (segments.map (·.command)) session
      (chainLoop env succeeded segments session).session := by
  refine chainLoop_relation (Moved (segments.map (·.command))) (fun _ => .of_place rfl) Moved.trans ?_ succeeded session
  intro segment member session
  exact (moved_dispatchSegment env segment.command session).mono
    (by simpa using ⟨segment, member, rfl⟩)

theorem moved_finishChain (commands : List Str) (run : ChainRun) :
    Moved commands run.session (finishChain env run).1 := by
  unfold finishChain
  split
  · exact .of_shell (Session.shell_showPrompt ..)
  · exact .of_place ((place_of_shell (shell_processCommandWithLlm ..)).trans
      (place_applyInputMutations ..))
  · exact .of_place rfl

theorem moved_dispatchOne (env : Env) (command : Str) (session : Session) :
    Moved [command] session (dispatchOne env command session).1 := by
  rcases dispatchOne_dispatched env command session with ⟨⟨next, stage⟩, dispatched, equal⟩
  have moved := moved_dispatched dispatched
  rw [equal]
  cases stage with
  | raised => exact moved
  | handled ok => exact moved
  | declined => exact moved.trans (.of_shell (shell_processCommandWithLlm ..))

/-! ## Lines -/

/-- The commands of a line as the session dispatches them, in the quoting of the
line: the segments of a chain, or the line itself. -/
def lineCommands (line : Str) : List (List Symbol) :=
  match chainSegments line with
  | some _ => ((scanChain Prod.fst .plain .start [] (annotate line)).getD []).map (·.command)
  | none => [annotate line]

theorem chainSegments_eq_some {line : Str} {segments : List Segment}
    (chained : chainSegments line = some segments) :
    scanChain id .plain .start [] line = some segments := by
  have accepted : splitChain line = some segments := (Option.filter_eq_some_iff.mp chained).1
  unfold splitChain at accepted
  split at accepted
  · cases accepted
  · split at accepted
    · cases accepted
    · rename_i scanned
      split at accepted
      · cases accepted
      · split at accepted
        · cases accepted
        · exact scanned.trans accepted

theorem chars_lineCommands (line : Str) :
    (lineCommands line).map chars =
      match chainSegments line with
      | some segments => segments.map (·.command)
      | none => [line] := by
  cases chained : chainSegments line with
  | none => simp [lineCommands, chained]
  | some segments =>
      have mapped := scanChain_map Prod.fst .plain .start [] (annotate line)
      have text : (annotate line).map Prod.fst = line := chars_annotate line
      rw [text, List.map_nil, chainSegments_eq_some chained] at mapped
      rcases Option.map_eq_some_iff.mp mapped with ⟨pieces, scanned, rfl⟩
      simp only [lineCommands, chained, scanned, Option.getD_some, List.map_map]
      rfl

theorem moved_dispatchLine (env : Env) (line : Str) (session : Session) :
    Moved ((lineCommands line).map chars) session (dispatchLine env line session).1 := by
  have logged : Moved ((lineCommands line).map chars) session (session.log (.input line)) :=
    .of_shell (Session.shell_log ..)
  refine logged.trans ?_
  rw [chars_lineCommands]
  simp only [dispatchLine]
  cases chainSegments line with
  | some segments => exact (moved_chainLoop ..).trans (moved_finishChain ..)
  | none => exact moved_dispatchOne ..

/-- The lines among a list of events, decoded. -/
def linesOf (events : List Event) : List Str :=
  events.filterMap fun
    | .line line => Utf8.decode line
    | _ => none

def eventCommands (event : Event) : List Str :=
  (linesOf [event]).flatMap fun line => (lineCommands line).map chars

theorem moved_receive (env : Env) (line : List UInt8) (session : Session) :
    Moved (eventCommands (.line line)) session (receive env line session) := by
  have received : Moved (eventCommands (.line line)) session
      (lineReceived env line session).1 := by
    unfold lineReceived
    cases decoded : Utf8.decode line with
    | none => exact .of_place rfl
    | some string =>
        refine (moved_dispatchLine env string session).mono ?_
        simp [eventCommands, linesOf, decoded]
  unfold receive
  generalize lineReceived env line session = outcome at received
  rcases outcome with ⟨next, ending⟩
  cases ending with
  | returned => exact received
  | raised =>
      refine received.trans (.of_place ?_)
      let gone : Session := { next with program := none, connected := false }
      exact (place_of_shell (shell_connectionLost next) : _ = place gone)

theorem moved_step {event : Event} (stepped : step env session event = some next) :
    Moved (eventCommands event) session next := by
  rcases shell_step stepped with ⟨line, rfl, -, -, rfl⟩ | ⟨connected, program, clock, shell⟩
  · exact moved_receive env line session
  · let moved : Session := { session with connected, program, clock }
    exact .of_place (place_of_shell shell : _ = place moved)

theorem moved_run {events : List Event} {final : Session}
    (ran : runEvents env session events = some final) :
    Moved (events.flatMap eventCommands) session final := by
  induction events generalizing session with
  | nil =>
      cases ran
      exact .of_place rfl
  | cons event events induction =>
      rcases EventRun.run_cons.mp ran with ⟨next, stepped, ranOn⟩
      have first := (moved_step stepped).mono
        (List.subset_append_left (eventCommands event) (events.flatMap eventCommands))
      have second := (induction ranOn).mono
        (List.subset_append_right (eventCommands event) (events.flatMap eventCommands))
      exact first.trans second

/-! ## Swallowed operators -/

/-- Every command of the line that begins with a word of the fast path and passes
`is_simple` stands in the line without an unquoted `;`, `&`, `|` or newline. -/
def LineClean (line : Str) : Prop :=
  ∀ command ∈ lineCommands line,
    isFastCommand (chars command) = true → hasSeparator command = false

/-- The directory is made by `cd` commands of the lines, none of which held an
unquoted operator where it stood. -/
def CwdClean (start : Session) (lines : List Str) (session : Session) : Prop :=
  (session.cwd, session.prevCwd) =
      replay (homeFor start.loginUser) (start.cwd, start.prevCwd) session.chdirs ∧
    ∀ chdir ∈ session.chdirs, ∃ line ∈ lines, ∃ command ∈ lineCommands line,
      chars command = chdir ∧ hasOperator command = false

theorem cwdClean_of_moved {start final : Session} {lines : List Str}
    (fresh : start.chdirs = [])
    (moved : Moved (lines.flatMap fun line => (lineCommands line).map chars) start final)
    (clean : ∀ line ∈ lines, LineClean line) : CwdClean start lines final := by
  rcases moved.chdirs with ⟨added, chdirs, fast, placed⟩
  rw [fresh, List.nil_append] at chdirs
  subst chdirs
  refine ⟨placed, fun chdir member => ?_⟩
  rcases fast chdir member with ⟨submitted, isFast⟩
  rcases List.mem_flatMap.mp submitted with ⟨line, lineMember, submitted⟩
  rcases List.mem_map.mp submitted with ⟨command, commandMember, rfl⟩
  refine ⟨line, lineMember, command, commandMember, rfl, ?_⟩
  rw [hasOperator_of_isFastCommand isFast]
  exact clean line lineMember command commandMember isFast

theorem flatMap_eventCommands (events : List Event) :
    events.flatMap eventCommands =
      (linesOf events).flatMap fun line => (lineCommands line).map chars := by
  induction events with
  | nil => rfl
  | cons event events induction =>
      have split : linesOf ([event] ++ events) = linesOf [event] ++ linesOf events :=
        List.filterMap_append
      rw [List.flatMap_cons, induction, ← List.singleton_append, split, List.flatMap_append]
      rfl

/-- A command of the fast path swallows nothing exactly when it holds no unquoted
separator, and over a run of lines whose fast commands hold none the directory is
free of operators. -/
theorem fastpath_swallows_nothing_iff (env : Env) :
    (∀ session line, SwallowsNothing env session line ↔
      (isFastCommand line = true → hasSeparator (annotate line) = false)) ∧
    ∀ start events final, Initial start → (∀ line ∈ linesOf events, LineClean line) →
      runEvents env start events = some final → CwdClean start (linesOf events) final := by
  refine ⟨swallowsNothing_iff env, ?_⟩
  rintro start events final ⟨loginUser, hostname, clock, rfl⟩ clean ran
  refine cwdClean_of_moved ?_ ?_ clean
  · rfl
  · rw [← flatMap_eventCommands]
    exact moved_run ran

theorem fastpath_swallows_nothing_iff_example :
    ∃ final, runEvents .pending (Session.root.showPrompt 0 0)
        [.line [0x63, 0x64, 0x20, 0x2F, 0x61]] = some final ∧
      CwdClean (Session.root.showPrompt 0 0) ["cd /a".toList] final :=
  ⟨_, rfl, (fastpath_swallows_nothing_iff .pending).2 _ [.line [0x63, 0x64, 0x20, 0x2F, 0x61]] _
    ⟨_, _, _, rfl⟩ (by unfold LineClean; decide) rfl⟩

/-- `cd /tmp & wget http://e/a` is a `cd` of the whole line. -/
theorem fastpath_swallows_background :
    ¬ ∀ env session line, SwallowsNothing env session line := by
  intro all
  have nothing := (swallowsNothing_iff .pending .root "cd /tmp & wget http://e/a".toList).mp
    (all .pending .root _)
  revert nothing
  decide

end Protocol

end LlmHoneypot
