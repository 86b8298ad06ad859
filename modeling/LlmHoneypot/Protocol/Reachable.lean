import LlmHoneypot.Protocol.Effects

/-! # Reachable sessions

What holds of the reactor's tasks, the open streams and the prompt in every session
that events can lead to. -/

namespace LlmHoneypot

namespace Protocol

open CmdChain Downloader Interactive Responder

variable {env : Env} {command : Str} {session next : Session}

/-! ## Effects of a line -/

def Advances (env : Env) (session next : Session) : Prop :=
  ∃ outputs added live, Emits env session next outputs added live

namespace Advances

theorem of_console (console : next.console = session.console) : Advances env session next :=
  ⟨_, _, _, .of_console console⟩

theorem trans {final : Session} (first : Advances env session next)
    (second : Advances env next final) : Advances env session final := by
  rcases first with ⟨outputs, added, live, emits⟩
  rcases second with ⟨more, addedMore, liveMore, emitsMore⟩
  exact ⟨_, _, _, emits.trans emitsMore⟩

theorem of_prompted (prompted : Prompted env session next) : Advances env session next := by
  cases prompted with
  | now outputs plain text emits => exact ⟨_, _, _, emits⟩
  | delayed outputs plain number leastMs mostMs unsuppressed emits => exact ⟨_, _, _, emits⟩

theorem of_turn {observation : Option Str}
    (turned : TurnEffect env command observation session next) : Advances env session next := by
  cases turned with
  | refused refused emits => exact ⟨_, _, _, emits⟩
  | gone asked disconnected emits => exact ⟨_, _, _, emits⟩
  | waiting turn asked connected waits emits => exact ⟨_, _, _, emits⟩
  | answered outputs plain asked connected fired emits => exact ⟨_, _, _, emits⟩

theorem processCommandWithLlm (env : Env) (command : Str) (observation : Option Str)
    (session : Session) :
    Advances env session (processCommandWithLlm env command observation session) :=
  .of_turn (processCommandWithLlm_effect ..)

theorem onResult (env : Env) (command : Str) (intent : DownloadIntent) (result : FetchResult)
    (session : Session) : Advances env session (onResult env command intent result session) :=
  (of_console (console_addCaptured intent result)).trans (processCommandWithLlm ..)

theorem beginFetch (env : Env) (command : Str) (intent : DownloadIntent) (session : Session) :
    Advances env session (beginFetch env command intent session).1 := by
  have effect := beginFetch_effect env command intent session
  generalize Protocol.beginFetch env command intent session = outcome at effect
  cases effect with
  | raised next rejected emits => exact ⟨_, _, _, emits⟩
  | waiting next started emits uncounted => exact ⟨_, _, _, emits⟩
  | failed next error started emits => exact ⟨_, _, _, emits⟩
  | fired next result started turned =>
      exact (of_console (console_captured ..)).trans (.of_turn turned)

end Advances

theorem advances_dispatched {renders : Renderer} {outcome : Session × Stage}
    (dispatched : Dispatched env renders command session outcome) :
    Advances env session outcome.1 := by
  have mutated : Advances env session (applyInputMutations command session) :=
    .of_console (console_applyInputMutations ..)
  cases dispatched with
  | fast next fast =>
      rcases tryFastpath_effect fast with ⟨closing, emits⟩ | ⟨stays, prompted⟩
      · exact ⟨_, _, _, emits⟩
      · exact .of_prompted prompted
  | rendered result slow rendered =>
      exact mutated.trans (.of_prompted (emitDeterministic_effect result))
  | program program slow deferred connected enabled started =>
      rcases startProgram_effect env program (applyInputMutations command session) with
        ⟨outputs, added, plain, refresh, emits⟩
      exact mutated.trans ⟨_, _, _, emits⟩
  | download intent slow deferred lined capture parsed =>
      exact mutated.trans (.beginFetch ..)
  | badUrl raised slow deferred lined capture parsed => exact mutated
  | declined slow deferred lined parsed => exact mutated

theorem kept_dispatched {renders : Renderer} {outcome : Session × Stage}
    (dispatched : Dispatched env renders command session outcome) :
    outcome.1.suppressPrompt = session.suppressPrompt ∧
      outcome.1.connected = session.connected := by
  have of_shell {next : Session} (same : next.shell = (applyInputMutations command session).shell) :
      next.suppressPrompt = session.suppressPrompt ∧ next.connected = session.connected :=
    ⟨congrArg ShellView.suppressPrompt same, congrArg ShellView.connected same⟩
  cases dispatched with
  | fast next fast =>
      rcases shell_tryFastpath fast with same | popped | ⟨-, moved⟩
      · exact ⟨congrArg ShellView.suppressPrompt same, congrArg ShellView.connected same⟩
      · exact ⟨congrArg ShellView.suppressPrompt popped, congrArg ShellView.connected popped⟩
      · exact ⟨congrArg ShellView.suppressPrompt moved, congrArg ShellView.connected moved⟩
  | rendered result slow rendered => exact of_shell (by simp)
  | program program slow deferred connected enabled started =>
      have shell := shell_startProgram env (applyInputMutations command session) program
      exact ⟨congrArg ShellView.suppressPrompt shell, congrArg ShellView.connected shell⟩
  | download intent slow deferred lined capture parsed =>
      have shell := shell_beginFetch env command (applyInputMutations command session) intent
      exact ⟨congrArg ShellView.suppressPrompt shell, congrArg ShellView.connected shell⟩
  | badUrl raised slow deferred lined capture parsed => exact ⟨rfl, rfl⟩
  | declined slow deferred lined parsed => exact ⟨rfl, rfl⟩

/-- A session that draws prompts leads to one that does. -/
def Orderly (env : Env) (session next : Session) : Prop :=
  Advances env session next ∧ next.connected = session.connected ∧
    (session.suppressPrompt = false → next.suppressPrompt = false)

theorem Orderly.trans {final : Session} (first : Orderly env session next)
    (second : Orderly env next final) : Orderly env session final :=
  ⟨first.1.trans second.1, second.2.1.trans first.2.1, fun off => second.2.2 (first.2.2 off)⟩

theorem Orderly.of_shell (advances : Advances env session next)
    (same : next.shell = session.shell) : Orderly env session next :=
  ⟨advances, congrArg ShellView.connected same,
    fun off => (congrArg ShellView.suppressPrompt same).trans off⟩

theorem orderly_dispatchSegment (env : Env) (command : Str) (session : Session) :
    Orderly env session (dispatchSegment env command session).1 := by
  have dispatched := dispatchLocal_dispatched env command (session.setSuppressPrompt true)
  have advances := advances_dispatched dispatched
  have kept := kept_dispatched dispatched
  have suppressed : Advances env session (session.setSuppressPrompt true) := .of_console rfl
  exact ⟨(suppressed.trans advances).trans (.of_console rfl), kept.2, fun _ => rfl⟩

theorem orderly_chainLoop (env : Env) (succeeded : Bool) (segments : List Segment)
    (session : Session) :
    Orderly env session (chainLoop env succeeded segments session).session :=
  chainLoop_relation (Orderly env) (fun _ => .of_shell (.of_console rfl) rfl)
    Orderly.trans (fun segment _ session => orderly_dispatchSegment env segment.command session)
    succeeded session

theorem orderly_finishChain (run : ChainRun) :
    Orderly env run.session (finishChain env run).1 := by
  unfold finishChain
  split
  · exact .of_shell ⟨_, _, _, .showPrompt_now _⟩ (Session.shell_showPrompt ..)
  · rename_i remainder handed
    have mutated : Orderly env run.session (applyInputMutations remainder run.session) :=
      ⟨.of_console rfl, rfl, id⟩
    exact mutated.trans (.of_shell (.processCommandWithLlm ..) (shell_processCommandWithLlm ..))
  · exact .of_shell (.of_console rfl) rfl

theorem orderly_dispatchOne (env : Env) (command : Str) (session : Session) :
    Orderly env session (dispatchOne env command session).1 := by
  rcases dispatchOne_dispatched env command session with ⟨⟨next, stage⟩, dispatched, equal⟩
  have kept := kept_dispatched dispatched
  have orderly : Orderly env session next :=
    ⟨advances_dispatched dispatched, kept.2, fun off => kept.1.trans off⟩
  rw [equal]
  cases stage with
  | raised => exact orderly
  | handled ok => exact orderly
  | declined =>
      exact orderly.trans (.of_shell (.processCommandWithLlm ..) (shell_processCommandWithLlm ..))

theorem orderly_lineReceived (env : Env) (line : List UInt8) (session : Session) :
    Orderly env session (lineReceived env line session).1 := by
  unfold lineReceived
  split
  · rename_i string decoded
    have logged : Orderly env session (session.log (.input string)) :=
      .of_shell (.of_console (Session.console_log ..)) (Session.shell_log ..)
    refine logged.trans ?_
    simp only [dispatchLine]
    split
    · exact (orderly_chainLoop ..).trans (orderly_finishChain _)
    · exact orderly_dispatchOne ..
  · exact .of_shell (.of_console rfl) rfl

/-! ## Effects of the other events -/

theorem keystrokeReceived_effect (env : Env) (active : ActiveProgram) (data : List UInt8)
    (session : Session) :
    ∃ shown outputs program, Plain outputs ∧ Emits env session shown outputs [] [] ∧
      shown.foreground = (session.suppressPrompt, session.connected, some program) ∧
      (keystrokeReceived env active data session = shown ∨
        keystrokeReceived env active data session = exitProgram shown) := by
  simp only [keystrokeReceived]
  rcases active.program.handleKey (topFrame env active.startCwd session) data with
    ⟨program, result, saves⟩
  simp only
  let moved : Session := { session with program := some { active with program } }
  let saved : Session := saves.foldl
    (fun session body => persistEditorSave active.startCwd (savePath program) body session) moved
  have console : saved.console = session.console := by
    have savesOnly (start : Session) : (saves.foldl (fun session body =>
        persistEditorSave active.startCwd (savePath program) body session) start).console =
        start.console := by
      induction saves generalizing start with
      | nil => rfl
      | cons body saves induction => exact (induction _).trans rfl
    exact (savesOnly moved).trans rfl
  have foreground : saved.foreground = moved.foreground :=
    Session.foreground_of_shell (shell_saves ..)
  let shown : Session := if result.output = [] then saved else saved.write result.output
  have written : ∃ outputs, Plain outputs ∧ Emits env session shown outputs [] [] := by
    by_cases silent : result.output = []
    · exact ⟨[], plain_nil, by simpa [shown, silent] using Emits.of_console console⟩
    · refine ⟨_, (plain_text result.output).visible saved, ?_⟩
      simpa [shown, silent] using (Emits.write result.output saved).after console
  have same : shown.foreground = moved.foreground := by
    refine Eq.trans ?_ foreground
    simp only [shown]
    split
    · rfl
    · exact Session.foreground_of_shell (Session.shell_write ..)
  rcases written with ⟨outputs, plain, emits⟩
  refine ⟨shown, outputs, { active with program }, plain, emits, same, ?_⟩
  split
  · exact .inr rfl
  · exact .inl rfl

theorem doProgramRefresh_effect (env : Env) (session : Session) :
    ∃ outputs added, Plain outputs ∧ OnlyRefresh added ∧
      (session.program = none → outputs = []) ∧
      Emits env session (doProgramRefresh env session) outputs added [] := by
  have cleared : Emits env session { session with refreshCall := none } [] [] [] :=
    ⟨by simp, .refl _, by simp, by simp, by simp, by simp⟩
  have idle : ∃ outputs added, Plain outputs ∧ OnlyRefresh added ∧
      (session.program = none → outputs = []) ∧
      Emits env session { session with refreshCall := none } outputs added [] :=
    ⟨[], [], plain_nil, by simp [OnlyRefresh], fun _ => rfl, cleared⟩
  simp only [doProgramRefresh]
  split
  · rename_i active running
    split
    · rename_i connected
      let drawn : Session := ({ session with refreshCall := none } : Session).write
        (active.program.onRefresh
          (topFrame env active.startCwd { session with refreshCall := none }))
      rcases scheduleProgramRefresh_effect env drawn with ⟨added, refresh, emits⟩
      have drew := (cleared.trans (.write _ _)).trans emits
      simp only [List.nil_append, List.append_nil] at drew
      exact ⟨_, added, (plain_text _).visible _, refresh,
        fun stopped => absurd (running.symm.trans stopped) (by simp), drew⟩
    · exact idle
  · exact idle

/-! ## Steps -/

/-- What the steps are made of: effects, tasks that are taken up, a refresh that is
cancelled, and changes of the program and the connection. -/
inductive Progress (env : Env) : Session → Session → Prop
  | orderly {session next : Session} (orderly : Orderly env session next) :
      Progress env session next
  | finish (session : Session) (number : Nat) : Progress env session (session.finish number)
  | cancelRefresh (session : Session) : Progress env session session.cancelRefresh
  | drop (session : Session) (program : Option ActiveProgram) (connected : Bool) :
      Progress env session { session with program, connected }
  | trans {session next final : Session} (first : Progress env session next)
      (second : Progress env next final) : Progress env session final

namespace Progress

theorem of_shell (advances : Advances env session next) (same : next.shell = session.shell) :
    Progress env session next := .orderly (.of_shell advances same)

theorem exitProgram (session : Session) : Progress env session (exitProgram session) :=
  .trans (.cancelRefresh session) (.trans (.drop _ none session.cancelRefresh.connected)
    (.of_shell ⟨_, _, _, .showPrompt_now _⟩ (Session.shell_showPrompt ..)))

theorem connectionLost (session : Session) : Progress env session (connectionLost session) :=
  .trans (.cancelRefresh session) (.drop _ none false)

theorem receive (line : List UInt8) (session : Session) :
    Progress env session (receive env line session) := by
  have orderly := orderly_lineReceived env line session
  unfold Protocol.receive
  generalize lineReceived env line session = outcome at orderly
  rcases outcome with ⟨next, ending⟩
  cases ending with
  | returned => exact .orderly orderly
  | raised => exact .trans (.orderly orderly) (.connectionLost next)

theorem keystrokeReceived (active : ActiveProgram) (data : List UInt8) (session : Session) :
    Progress env session (keystrokeReceived env active data session) := by
  rcases keystrokeReceived_effect env active data session with
    ⟨shown, outputs, program, -, emits, foreground, stays | exits⟩
  all_goals
    have orderly : Orderly env session shown :=
      ⟨⟨_, _, _, emits⟩, congrArg (·.2.1) foreground, (congrArg (·.1) foreground).trans⟩
  · rw [stays]
    exact .orderly orderly
  · rw [exits]
    exact .trans (.orderly orderly) (.exitProgram shown)

theorem step {event : Event} (stepped : step env session event = some next) :
    Progress env session next := by
  cases stepped_of_step stepped with
  | line line => exact .receive line session
  | key data active => exact .keystrokeReceived active data session
  | prompt task =>
      exact .trans (.finish session task)
        (.of_shell ⟨_, _, _, .writePromptSafe _⟩ (Session.shell_writePromptSafe _))
  | refresh task =>
      rcases doProgramRefresh_effect env (session.finish task) with
        ⟨outputs, added, -, -, -, emits⟩
      exact .trans (.finish session task) (.of_shell ⟨_, _, _, emits⟩ (shell_doProgramRefresh ..))
  | fetched task =>
      exact .trans (.finish session task) (.of_shell (.onResult ..) (shell_onResult ..))
  | unfetched task =>
      exact .trans (.finish session task)
        (.of_shell ⟨_, _, _, .handleLlmError ..⟩ (shell_handleLlmError ..))
  | chunk task text =>
      exact .of_shell ⟨_, _, _, .onStreamChunk ..⟩ (shell_onStreamChunk text session)
  | answered task =>
      exact .trans (.finish session task)
        (.of_shell ⟨_, _, _, .handleLlmResponse ..⟩ (shell_handleLlmResponse ..))
  | failed task =>
      exact .trans (.finish session task)
        (.of_shell ⟨_, _, _, .handleLlmError ..⟩ (shell_handleLlmError ..))
  | connectionLost => exact .connectionLost session
  | elapsed => exact .orderly ⟨.of_console rfl, rfl, id⟩

end Progress

/-! ## Invariant -/

/-- What the session knows of its tasks: the pending refresh is one, an open stream
belongs to a request, and a request is streamed as the configuration says. -/
structure Tidy (env : Env) (session : Session) : Prop where
  unsuppressed : session.suppressPrompt = false
  refreshCall : ∀ number, session.refreshCall = some number → number < session.agenda.next ∧
    ∀ task, (number, task) ∈ session.agenda.entries → task = .refresh
  live : ∀ number ∈ session.streams, streams env = true ∧ number < session.agenda.next ∧
    ∀ task, (number, task) ∈ session.agenda.entries → ∃ turn, task = .model turn
  models : ∀ number turn, (number, Task.model turn) ∈ session.agenda.entries →
    turn.streamed = env.config.stream ∧ (streams env = true → number ∈ session.streams)

namespace Tidy

theorem emits {outputs : List Output} {added : List (Nat × Task)} {live : List Nat}
    (tidy : Tidy env session) (emits : Emits env session next outputs added live)
    (unsuppressed : next.suppressPrompt = false) : Tidy env next where
  unsuppressed := unsuppressed
  refreshCall := by
    intro number call
    have later := emits.agenda.next
    rcases emits.refreshCall number call with call | listed
    · rcases tidy.refreshCall number call with ⟨low, refresh⟩
      refine ⟨by omega, fun task member => ?_⟩
      rcases List.mem_append.mp (emits.agenda.entries ▸ member) with old | new
      · exact refresh task old
      · have fresh := emits.agenda.fresh _ new
        simp only at fresh
        omega
    · have member := emits.agenda.entries ▸ List.mem_append_right session.agenda.entries listed
      exact ⟨next.agenda.lt_next member, fun task other => next.agenda.unique other member⟩
  live := by
    intro number member
    have later := emits.agenda.next
    rcases List.mem_append.mp (emits.streams ▸ member) with old | new
    · rcases tidy.live number old with ⟨on, low, model⟩
      refine ⟨on, by omega, fun task member => ?_⟩
      rcases List.mem_append.mp (emits.agenda.entries ▸ member) with old | new
      · exact model task old
      · have fresh := emits.agenda.fresh _ new
        simp only at fresh
        omega
    · rcases emits.live number new with ⟨on, high, low, model⟩
      refine ⟨on, low, fun task member => ?_⟩
      rcases List.mem_append.mp (emits.agenda.entries ▸ member) with old | new
      · have below := session.agenda.lt_next old
        simp only at below
        omega
      · exact model task new
  models := by
    intro number turn member
    rw [emits.streams]
    rcases List.mem_append.mp (emits.agenda.entries ▸ member) with old | new
    · exact (tidy.models number turn old).imp_right fun listed on =>
        List.mem_append_left _ (listed on)
    · exact (emits.models number turn new).imp_right fun listed on =>
        List.mem_append_right _ (listed on)

theorem orderly (tidy : Tidy env session) (orderly : Orderly env session next) :
    Tidy env next := by
  rcases orderly with ⟨⟨outputs, added, live, emits⟩, -, off⟩
  exact tidy.emits emits (off tidy.unsuppressed)

theorem finish (tidy : Tidy env session) (number : Nat) : Tidy env (session.finish number) where
  unsuppressed := tidy.unsuppressed
  refreshCall := fun call called => (tidy.refreshCall call called).imp_right
    fun refresh task member => refresh task (List.mem_of_mem_filter member)
  live := fun live listed => (tidy.live live listed).imp_right
    (.imp_right fun model task member => model task (List.mem_of_mem_filter member))
  models := fun number turn member => tidy.models number turn (List.mem_of_mem_filter member)

theorem cancelRefresh (tidy : Tidy env session) : Tidy env session.cancelRefresh := by
  unfold Session.cancelRefresh
  split
  · rename_i number called
    have finished := tidy.finish number
    exact ⟨finished.unsuppressed, by simp, finished.live, finished.models⟩
  · exact tidy

theorem drop (tidy : Tidy env session) (program : Option ActiveProgram) (connected : Bool) :
    Tidy env { session with program, connected } :=
  ⟨tidy.unsuppressed, tidy.refreshCall, tidy.live, tidy.models⟩

theorem showPrompt (tidy : Tidy env session) : Tidy env (session.showPrompt 0 0) :=
  tidy.emits (.showPrompt_now session)
    ((congrArg ShellView.suppressPrompt (Session.shell_showPrompt 0 0 session)).trans
      tidy.unsuppressed)

theorem progress (tidy : Tidy env session) (progress : Progress env session next) :
    Tidy env next := by
  induction progress with
  | orderly orderly => exact tidy.orderly orderly
  | finish session number => exact tidy.finish number
  | cancelRefresh session => exact tidy.cancelRefresh
  | drop session program connected => exact tidy.drop program connected
  | trans first second inductionFirst inductionSecond =>
      exact inductionSecond (inductionFirst tidy)

end Tidy

def Reachable (env : Env) (session : Session) : Prop :=
  ∃ start events, Initial start ∧ runEvents env start events = some session

theorem tidy_of_initial (initial : Initial session) : Tidy env session := by
  rcases initial with ⟨loginUser, hostname, clock, rfl⟩
  refine Tidy.showPrompt ⟨rfl, ?_, ?_, ?_⟩
  · intro number call
    cases call
  · intro number member
    cases member
  · intro number turn member
    cases member

theorem tidy_run {events : List Event} (tidy : Tidy env session)
    (ran : runEvents env session events = some next) : Tidy env next :=
  EventRun.run_relation (fun session next => Tidy env session → Tidy env next)
    (fun _ => id) (fun first second tidy => second (first tidy))
    (fun stepped tidy => tidy.progress (.step stepped)) ran tidy

theorem Reachable.tidy (reachable : Reachable env session) : Tidy env session := by
  rcases reachable with ⟨start, events, initial, ran⟩
  exact tidy_run (tidy_of_initial initial) ran

/-- In every run from a new session its bookkeeping is right. -/
theorem always_tidy (env : Env) (loginUser hostname : Str) (clock : Nat) (events : List Event) :
    EventRun.Always (step env) (Tidy env)
      (Session.showPrompt 0 0 { loginUser, hostname, clock }) events :=
  EventRun.always_of_invariant (Tidy env) (fun tidy stepped => tidy.progress (.step stepped))
    (tidy_of_initial ⟨_, _, _, rfl⟩) events

/-! ## After the connection is lost -/

/-- A session without its connection: it has shown no more, and is left with some of the tasks
that were outstanding. -/
structure HungUp (session next : Session) : Prop where
  connected : next.connected = false
  program : next.program = none
  screen : next.screen = session.screen
  entries : next.agenda.entries.Sublist session.agenda.entries

namespace HungUp

theorem connectionLost (session : Session) : HungUp session (connectionLost session) := by
  unfold Protocol.connectionLost Session.cancelRefresh
  split
  · exact ⟨rfl, rfl, rfl, List.filter_sublist⟩
  · exact ⟨rfl, rfl, rfl, .refl _⟩

variable {final : Session}

theorem finish (hungUp : HungUp session next) (number : Nat) :
    HungUp session (next.finish number) :=
  ⟨hungUp.connected, hungUp.program, hungUp.screen, List.filter_sublist.trans hungUp.entries⟩

theorem visible (hungUp : HungUp session next) (outputs : List Output) :
    next.visible outputs = [] := by simp [Session.visible, hungUp.connected]

theorem promptNow (hungUp : HungUp session next) : next.promptNow = [] := by
  simp only [Session.promptNow, Session.promptOf, hungUp.visible, ite_self]

theorem silent (hungUp : HungUp session next) {outputs : List Output} {live : List Nat}
    (emits : Emits env next final outputs [] live) (nothing : outputs = [])
    (same : final.shell = next.shell) : HungUp session final where
  connected := (congrArg ShellView.connected same).trans hungUp.connected
  program := (congrArg ShellView.program same).trans hungUp.program
  screen := by rw [emits.screen, nothing, List.append_nil, hungUp.screen]
  entries := by
    rw [emits.agenda.entries, List.append_nil]
    exact hungUp.entries

theorem handleLlmError (env : Env) (hungUp : HungUp session next) (error : Str) :
    HungUp session (handleLlmError error next) :=
  hungUp.silent (@Emits.handleLlmError env error next) hungUp.promptNow (shell_handleLlmError ..)

theorem onResult (hungUp : HungUp session next) (command : Str) (intent : DownloadIntent)
    (result : FetchResult) : HungUp session (onResult env command intent result next) := by
  let captured := addCaptured intent result next
  have noted : HungUp session captured :=
    hungUp.silent (@Emits.of_console env _ _ (console_addCaptured intent result)) rfl
      (shell_addCaptured ..)
  let observation := some (renderObservation intent result)
  have same := shell_processCommandWithLlm env command observation captured
  cases processCommandWithLlm_effect env command observation captured with
  | refused refused emits =>
      exact noted.silent emits (by rw [noted.visible, noted.promptNow, List.append_nil]) same
  | gone asked disconnected emits => exact noted.silent emits rfl same
  | waiting turn asked connected => cases connected.symm.trans noted.connected
  | answered outputs plain asked connected => cases connected.symm.trans noted.connected

theorem step {event : Event} (hungUp : HungUp session next)
    (stepped : step env next event = some final) : HungUp session final := by
  cases stepped_of_step stepped with
  | line line connected => cases connected.symm.trans hungUp.connected
  | key data active running => cases running.symm.trans hungUp.program
  | prompt task =>
      have idle := hungUp.finish task
      exact idle.silent (@Emits.writePromptSafe env _) (idle.visible _)
        (Session.shell_writePromptSafe _)
  | refresh task =>
      have idle := hungUp.finish task
      have stopped : (next.finish task).program = none := idle.program
      simp only [doProgramRefresh, stopped]
      exact ⟨idle.connected, rfl, idle.screen, idle.entries⟩
  | fetched task command intent result =>
      exact (hungUp.finish task).onResult command intent result
  | unfetched task => exact (hungUp.finish task).handleLlmError env _
  | chunk task text =>
      exact hungUp.silent (@Emits.onStreamChunk env text next)
        (by rw [hungUp.visible, ite_self]) (shell_onStreamChunk ..)
  | answered task turn answer =>
      have idle := hungUp.finish task
      exact idle.silent (.handleLlmResponse turn answer _)
        (by rw [idle.visible, idle.promptNow, List.append_nil]) (shell_handleLlmResponse ..)
  | failed task => exact (hungUp.finish task).handleLlmError env _
  | connectionLost connected => cases connected.symm.trans hungUp.connected
  | elapsed => exact ⟨hungUp.connected, hungUp.program, hungUp.screen, hungUp.entries⟩

end HungUp

/-- Once the connection is lost nothing is shown any more, whatever comes of what is still
outstanding, and no task is begun. -/
theorem nothing_after_loss (env : Env) (session : Session) (events : List Event) :
    EventRun.Always (step env) (HungUp session) (connectionLost session) events :=
  EventRun.always_of_invariant (HungUp session) (fun hungUp stepped => hungUp.step stepped)
    (.connectionLost session) events

/-! ## A fresh session -/

def atPrompt : Session := Session.root.showPrompt 0 0

theorem reachable_atPrompt (env : Env) : Reachable env atPrompt :=
  ⟨atPrompt, [], ⟨_, _, _, rfl⟩, rfl⟩

def makeLine : List UInt8 := [0x6D, 0x61, 0x6B, 0x65]

end Protocol

end LlmHoneypot
