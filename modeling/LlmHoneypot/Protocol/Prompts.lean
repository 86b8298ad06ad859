import LlmHoneypot.Protocol.Routes

/-! # One prompt for a line

Exactly one prompt follows the output of a line that settles, whatever the order in
which what it started completes; and only of such a line. -/

namespace LlmHoneypot

namespace Protocol

open CmdChain Downloader Interactive Responder

variable {env : Env} {command : Str} {session next : Session} {base outputs : List Output}
  {first : Nat}

/-! ## What a line has drawn -/

def owed (first : Nat) (session : Session) : List (Nat × Task) :=
  owing (session.agenda.since first)

def Over (first : Nat) (session : Session) : Prop :=
  session.connected = false ∨ session.program = none ∧ owed first session = []

/-- A line that began on the screen `base` has drawn no prompt and is not over, or
one prompt, last and not over a full-screen program. -/
inductive DrawnOnce (base : List Output) (first : Nat) (session : Session) : Prop
  | before (outputs : List Output) (plain : Plain outputs)
      (screen : session.screen = base ++ outputs) (open_ : ¬ Over first session)
  | once (outputs : List Output) (plain : Plain outputs) (text : Str)
      (screen : session.screen = base ++ outputs ++ [.prompt text false])

/-- The events of a line whose numbers begin at `first`: the completion of what it
started, keys for its program, and the passing of time. -/
def Event.ofLine (first : Nat) : Event → Prop
  | .prompt task => first ≤ task
  | .refresh task => first ≤ task
  | .fetched task _ => first ≤ task
  | .chunk task _ => first ≤ task
  | .answered task _ => first ≤ task
  | .key _ => True
  | .elapsed _ => True
  | .line _ => False
  | .connectionLost => False

/-- In whatever order its completions arrive, the line draws one prompt. -/
def OnePrompt (env : Env) (line : List UInt8) (session : Session) : Prop :=
  ∀ events final, (∀ event ∈ events, event.ofLine session.agenda.next) →
    runEvents env (receive env line session) events = some final →
    DrawnOnce session.screen session.agenda.next final

/-! ## What a line owes -/

theorem owing_append (added more : List (Nat × Task)) :
    owing (added ++ more) = owing added ++ owing more := List.filter_append ..

theorem owed_emits {added : List (Nat × Task)} {live : List Nat}
    (emits : Emits env session next outputs added live)
    (early : first ≤ session.agenda.next) :
    owed first next = owed first session ++ owing added := by
  rw [owed, emits.agenda.since early, owing_append]
  rfl

theorem owed_finish (first number : Nat) (session : Session) :
    owed first (session.finish number) = (owed first session).filter (·.1 ≠ number) := by
  simp only [owed, owing, Session.finish, Agenda.since_finish, List.filter_filter]
  exact List.filter_congr fun entry _ => Bool.and_comm ..

theorem mem_owed {entry : Nat × Task} :
    entry ∈ owed first session ↔
      entry ∈ session.agenda.entries ∧ first ≤ entry.1 ∧ entry.2.owesPrompt = true := by
  simp [owed, owing, Agenda.mem_since, and_assoc]

theorem owed_finish_other {number : Nat}
    (other : ∀ task, (number, task) ∈ session.agenda.entries → task.owesPrompt = false) :
    owed first (session.finish number) = owed first session := by
  rw [owed_finish]
  refine List.filter_eq_self.mpr fun entry member => ?_
  rcases mem_owed.mp member with ⟨listed, -, owes⟩
  refine decide_eq_true fun same => ?_
  subst same
  exact absurd owes (by simp [other entry.2 listed])

/-! ## Sessions of a line -/

structure Ongoing (env : Env) (first : Nat) (session : Session) : Prop where
  tidy : Tidy env session
  connected : session.connected = true
  early : first ≤ session.agenda.next

structure Running (env : Env) (base : List Output) (first : Nat) (session : Session) : Prop
    extends Ongoing env first session where
  plain : ∃ outputs, Plain outputs ∧ session.screen = base ++ outputs

/-- Something the line started can still write: a program, a task that leads to a
prompt, or a stream that goes on after its answer. -/
def Busy (env : Env) (first : Nat) (session : Session) : Prop :=
  session.program.isSome ∨ owed first session ≠ [] ∨
    Late env ∧ ∃ number ∈ session.streams, first ≤ number

section Emits

variable {added : List (Nat × Task)} {live : List Nat}

theorem Ongoing.emits (ongoing : Ongoing env first session)
    (emits : Emits env session next outputs added live)
    (unsuppressed : next.suppressPrompt = false) (connected : next.connected = true) :
    Ongoing env first next where
  tidy := ongoing.tidy.emits emits unsuppressed
  connected := connected
  early := Nat.le_trans ongoing.early emits.agenda.next

theorem Running.emits (running : Running env base first session)
    (emits : Emits env session next outputs added live) (plain : Plain outputs)
    (unsuppressed : next.suppressPrompt = false) (connected : next.connected = true) :
    Running env base first next where
  toOngoing := running.toOngoing.emits emits unsuppressed connected
  plain := by
    rcases running.plain with ⟨earlier, plainEarlier, screen⟩
    exact ⟨earlier ++ outputs, plainEarlier.append plain, by
      rw [emits.screen, screen, List.append_assoc]⟩

theorem not_busy :
    ¬ Busy env first session ↔ session.program = none ∧ owed first session = [] ∧
      (Late env → ∀ number ∈ session.streams, number < first) := by
  simp [Busy]

theorem idle_emits (idle : ¬ Busy env first session) (early : first ≤ session.agenda.next)
    (emits : Emits env session next outputs added live)
    (program : next.program = session.program) (nothing : owing added = [])
    (quiet : Late env → live = []) : ¬ Busy env first next := by
  rcases not_busy.mp idle with ⟨stopped, settled, streams⟩
  refine not_busy.mpr ⟨program.trans stopped, ?_, fun late => ?_⟩
  · rw [owed_emits emits early, settled, nothing]
    rfl
  · rw [emits.streams, quiet late, List.append_nil]
    exact streams late

theorem busy_emits (busy : Busy env first session) (early : first ≤ session.agenda.next)
    (emits : Emits env session next outputs added live)
    (program : session.program.isSome → next.program.isSome) : Busy env first next := by
  rcases busy with running | owes | ⟨late, number, member, later⟩
  · exact .inl (program running)
  · refine .inr (.inl ?_)
    rw [owed_emits emits early]
    simp [owes]
  · exact .inr (.inr ⟨late, number, emits.streams ▸ List.mem_append_left _ member, later⟩)

theorem busy_of_mark (early : first ≤ session.agenda.next)
    (emits : Emits env session next outputs added live)
    (mark : next.program.isSome ∨ owing added ≠ [] ∨ Late env ∧ live ≠ []) :
    Busy env first next := by
  rcases mark with running | owes | ⟨late, opened⟩
  · exact .inl running
  · refine .inr (.inl ?_)
    rw [owed_emits emits early]
    simp [owes]
  · rcases List.exists_mem_of_ne_nil live opened with ⟨number, member⟩
    exact .inr (.inr ⟨late, number, emits.streams ▸ List.mem_append_right _ member,
      Nat.le_trans early (emits.live number member).2.1⟩)

end Emits

/-! ## Lines that settle -/

/-- A line that has settled: it owes one prompt, to a task or to its program, or it
has drawn it. -/
inductive Settled (env : Env) (base : List Output) (first : Nat) (session : Session) : Prop
  | owes (running : Running env base first session) (number : Nat) (task : Task)
      (stopped : session.program = none) (owed : owed first session = [(number, task)])
      (streams : Late env → ∀ number ∈ session.streams, number < first)
      (quiet : Late env → (∀ turn, task ≠ .model turn) ∧
        ∀ command intent, task = .fetch command intent → refusesTurn env session = true)
  | program (running : Running env base first session)
      (started : session.program.isSome) (owed : owed first session = [])
      (streams : Late env → ∀ number ∈ session.streams, number < first)
  | drawn (ongoing : Ongoing env first session) (idle : ¬ Busy env first session)
      (outputs : List Output) (plain : Plain outputs) (text : Str)
      (screen : session.screen = base ++ outputs ++ [.prompt text false])

theorem Settled.drawnOnce (settled : Settled env base first session) :
    DrawnOnce base first session := by
  cases settled with
  | owes running number task stopped owes streams quiet =>
      rcases running.plain with ⟨outputs, plain, screen⟩
      refine .before outputs plain screen fun ended => ?_
      rcases ended with gone | ⟨-, nothing⟩
      · cases running.connected.symm.trans gone
      · cases owes.symm.trans nothing
  | program running started owes streams =>
      rcases running.plain with ⟨outputs, plain, screen⟩
      refine .before outputs plain screen fun ended => ?_
      rcases ended with gone | ⟨stopped, -⟩
      · cases running.connected.symm.trans gone
      · simp [stopped] at started
  | drawn ongoing idle outputs plain text screen => exact .once outputs plain text screen

theorem promptOf_idle (ongoing : Ongoing env first session) (idle : ¬ Busy env first session)
    (text : Str) : session.promptOf text = [.prompt text false] := by
  simp [Session.promptOf, Session.visible, ongoing.tidy.unsuppressed, ongoing.connected,
    (not_busy.mp idle).1]

section Effects

variable {live : List Nat}

theorem Settled.of_drawn {text : Str} (running : Running env base first session)
    (idle : ¬ Busy env first session)
    (emits : Emits env session next (outputs ++ session.promptOf text) [] live)
    (plain : Plain outputs) (quiet : Late env → live = [])
    (same : next.foreground = session.foreground) : Settled env base first next := by
  have unsuppressed := (congrArg (·.1) same).trans running.tidy.unsuppressed
  have connected := (congrArg (·.2.1) same).trans running.connected
  rcases running.plain with ⟨earlier, plainEarlier, screen⟩
  refine .drawn (running.toOngoing.emits emits unsuppressed connected)
    (idle_emits idle running.early emits (congrArg (·.2.2) same) rfl quiet)
    (earlier ++ outputs) (plainEarlier.append plain) text ?_
  rw [emits.screen, screen, promptOf_idle running.toOngoing idle]
  simp

theorem Settled.of_owed {number : Nat} {task : Task} (running : Running env base first session)
    (idle : ¬ Busy env first session)
    (emits : Emits env session next outputs [(number, task)] live) (plain : Plain outputs)
    (owes : task.owesPrompt = true) (noStream : Late env → live = [])
    (quiet : Late env → (∀ turn, task ≠ .model turn) ∧
      ∀ command intent, task = .fetch command intent → refusesTurn env next = true)
    (same : next.foreground = session.foreground) : Settled env base first next := by
  rcases not_busy.mp idle with ⟨stopped, settled, streams⟩
  have unsuppressed := (congrArg (·.1) same).trans running.tidy.unsuppressed
  have connected := (congrArg (·.2.1) same).trans running.connected
  refine .owes (running.emits emits plain unsuppressed connected) number task
    ((congrArg (·.2.2) same).trans stopped) ?_ (fun late => ?_) quiet
  · rw [owed_emits emits running.early, settled]
    simp [owing, owes]
  · rw [emits.streams, noStream late, List.append_nil]
    exact streams late

theorem Settled.of_prompted (running : Running env base first session)
    (idle : ¬ Busy env first session) (prompted : Prompted env session next)
    (same : next.foreground = session.foreground) : Settled env base first next := by
  cases prompted with
  | now outputs plain text emits =>
      exact .of_drawn running idle emits plain (fun _ => rfl) same
  | delayed outputs plain number leastMs mostMs unsuppressed emits =>
      exact .of_owed running idle emits plain rfl (fun _ => rfl) (fun _ => by simp) same

theorem Settled.of_turn {observation : Option Str} (running : Running env base first session)
    (idle : ¬ Busy env first session) (inTime : ¬ AsksLate env session)
    (turned : TurnEffect env command observation session next)
    (same : next.foreground = session.foreground) : Settled env base first next := by
  have onTime (asked : refusesTurn env session = false) : ¬ Late env :=
    fun late => inTime ⟨late, asked⟩
  cases turned with
  | refused refused emits =>
      exact .of_drawn running idle emits ((plain_text _).visible session) (fun _ => rfl) same
  | gone asked disconnected emits => cases disconnected.symm.trans running.connected
  | waiting turn asked connected waits emits =>
      exact .of_owed running idle emits plain_nil rfl (fun late => absurd late (onTime asked))
        (fun late => absurd late (onTime asked)) same
  | answered outputs plain asked connected fired emits =>
      exact .of_drawn running idle emits plain (fun late => absurd late (onTime asked)) same

end Effects

/-! ## Completions of a settled line -/

theorem Ongoing.finish (ongoing : Ongoing env first session) (number : Nat) :
    Ongoing env first (session.finish number) :=
  ⟨ongoing.tidy.finish number, ongoing.connected, ongoing.early⟩

theorem Running.finish (running : Running env base first session) (number : Nat) :
    Running env base first (session.finish number) :=
  ⟨running.toOngoing.finish number, running.plain⟩

theorem idle_finish {number : Nat} {task : Task} (stopped : session.program = none)
    (owes : owed first session = [(number, task)])
    (streams : Late env → ∀ number ∈ session.streams, number < first) :
    ¬ Busy env first (session.finish number) :=
  not_busy.mpr ⟨stopped, by rw [owed_finish, owes]; simp, streams⟩

theorem refusesTurn_addCaptured (intent : DownloadIntent) (result : FetchResult)
    (session : Session) :
    refusesTurn env (addCaptured intent result session) = refusesTurn env session := by
  simp only [addCaptured]
  split <;> exact refusesTurn_of_counts rfl rfl

theorem owed_cancelRefresh (tidy : Tidy env session) (first : Nat) :
    owed first session.cancelRefresh = owed first session := by
  unfold Session.cancelRefresh
  split
  · rename_i number call
    have others (task : Task) (listed : (number, task) ∈ session.agenda.entries) :
        task.owesPrompt = false := by
      rw [(tidy.refreshCall number call).2 task listed]
      rfl
    exact owed_finish_other others
  · rfl

theorem Running.exit (running : Running env base first session)
    (nothing : owed first session = [])
    (streams : Late env → ∀ number ∈ session.streams, number < first) :
    Settled env base first (exitProgram session) := by
  let closed : Session := { session.cancelRefresh with program := none }
  have shell := session.shell_cancelRefresh
  have view : session.cancelRefresh.screen = session.screen ∧
      session.cancelRefresh.streams = session.streams ∧
      session.cancelRefresh.agenda.next = session.agenda.next := by
    unfold Session.cancelRefresh
    split <;> exact ⟨rfl, rfl, rfl⟩
  have closedRunning : Running env base first closed :=
    { tidy := running.tidy.cancelRefresh.drop none session.cancelRefresh.connected
      connected := (congrArg ShellView.connected shell).trans running.connected
      early := view.2.2.symm ▸ running.early
      plain := view.1.symm ▸ running.plain }
  have idle : ¬ Busy env first closed :=
    not_busy.mpr ⟨rfl, (owed_cancelRefresh running.tidy first).trans nothing,
      view.2.1.symm ▸ streams⟩
  have emits : Emits env closed (exitProgram session) ([] ++ closed.promptOf closed.promptText)
      [] [] := .showPrompt_now closed
  exact .of_drawn closedRunning idle emits plain_nil (fun _ => rfl)
    (Session.foreground_of_shell (Session.shell_showPrompt 0 0 closed))

namespace Settled

theorem tidy (settled : Settled env base first session) : Tidy env session := by
  cases settled with
  | owes running => exact running.tidy
  | program running => exact running.tidy
  | drawn ongoing => exact ongoing.tidy

theorem streams (settled : Settled env base first session) (late : Late env) :
    ∀ number ∈ session.streams, number < first := by
  cases settled with
  | owes running number task stopped owes streams => exact streams late
  | program running started owes streams => exact streams late
  | drawn ongoing idle => exact (not_busy.mp idle).2.2 late

theorem kept (settled : Settled env base first session) (ongoing : Ongoing env first next)
    (screen : next.screen = session.screen) (same : owed first next = owed first session)
    (streams : next.streams = session.streams) (program : next.program = session.program)
    (turns : refusesTurn env next = refusesTurn env session) : Settled env base first next := by
  cases settled with
  | owes running number task stopped owes live quiet =>
      exact .owes ⟨ongoing, screen ▸ running.plain⟩ number task (program.trans stopped)
        (same.trans owes) (streams ▸ live) (turns ▸ quiet)
  | program running started owes live =>
      exact .program ⟨ongoing, screen ▸ running.plain⟩ (program ▸ started) (same.trans owes)
        (streams ▸ live)
  | drawn ongoingBefore idle outputs plain text drawn =>
      rcases not_busy.mp idle with ⟨stopped, nothing, live⟩
      exact .drawn ongoing (not_busy.mpr ⟨program.trans stopped, same.trans nothing,
        streams ▸ live⟩) outputs plain text (screen.trans drawn)

theorem firing {number : Nat} {task : Task} (settled : Settled env base first session)
    (listed : session.agenda.find? number = some task) (later : first ≤ number)
    (owes : task.owesPrompt = true) :
    Running env base first (session.finish number) ∧
      ¬ Busy env first (session.finish number) ∧
      (Late env → (∀ turn, task ≠ .model turn) ∧
        ∀ command intent, task = .fetch command intent → refusesTurn env session = true) := by
  have member : (number, task) ∈ owed first session :=
    mem_owed.mpr ⟨Agenda.find?_eq_some.mp listed, later, owes⟩
  cases settled with
  | owes running only single stopped nothing streams quiet =>
      rw [nothing] at member
      cases List.mem_singleton.mp member
      exact ⟨running.finish number, idle_finish stopped nothing streams, quiet⟩
  | program running started nothing =>
      rw [nothing] at member
      cases member
  | drawn ongoing idle =>
      rw [(not_busy.mp idle).2.1] at member
      cases member

theorem key {active : ActiveProgram} (settled : Settled env base first session)
    (open_ : session.program = some active) (data : List UInt8) :
    Settled env base first (keystrokeReceived env active data session) := by
  cases settled with
  | owes running number task stopped => cases open_.symm.trans stopped
  | drawn ongoing idle => cases open_.symm.trans (not_busy.mp idle).1
  | program running started nothing streams =>
      rcases keystrokeReceived_effect env active data session with
        ⟨shown, outputs, program, plain, emits, foreground, stays | exits⟩
      all_goals
        have shownRunning := running.emits emits plain
          ((congrArg (·.1) foreground).trans running.tidy.unsuppressed)
          ((congrArg (·.2.1) foreground).trans running.connected)
        have shownOwed : owed first shown = [] := by
          rw [owed_emits emits running.early, nothing]
          rfl
        have shownStreams : shown.streams = session.streams := by simp [emits.streams]
      · rw [stays]
        have still : shown.program = some program := congrArg (·.2.2) foreground
        exact .program shownRunning (by simp [still]) shownOwed (shownStreams ▸ streams)
      · rw [exits]
        exact shownRunning.exit shownOwed (shownStreams ▸ streams)

theorem ongoing (settled : Settled env base first session) : Ongoing env first session := by
  cases settled with
  | owes running => exact running.toOngoing
  | program running => exact running.toOngoing
  | drawn ongoing => exact ongoing

theorem refresh {number : Nat} (settled : Settled env base first session)
    (listed : session.agenda.find? number = some .refresh) :
    Settled env base first (doProgramRefresh env (session.finish number)) := by
  have others (task : Task) (member : (number, task) ∈ session.agenda.entries) :
      task.owesPrompt = false := by
    rw [session.agenda.unique member (Agenda.find?_eq_some.mp listed)]
    rfl
  have shell := shell_doProgramRefresh env (session.finish number)
  rcases doProgramRefresh_effect env (session.finish number) with
    ⟨outputs, added, plain, refresh, silent, emits⟩
  have ongoing := settled.ongoing
  have after : Ongoing env first (doProgramRefresh env (session.finish number)) :=
    (ongoing.finish number).emits emits
      ((congrArg ShellView.suppressPrompt shell).trans ongoing.tidy.unsuppressed)
      ((congrArg ShellView.connected shell).trans ongoing.connected)
  have program : (doProgramRefresh env (session.finish number)).program = session.program :=
    congrArg ShellView.program shell
  have same : owed first (doProgramRefresh env (session.finish number)) = owed first session := by
    rw [owed_emits emits ongoing.early, owed_finish_other others, owing_onlyRefresh refresh,
      List.append_nil]
  have streams : (doProgramRefresh env (session.finish number)).streams = session.streams :=
    emits.streams.trans (List.append_nil _)
  by_cases stopped : session.program = none
  · have screen : (doProgramRefresh env (session.finish number)).screen = session.screen := by
      rw [emits.screen, silent stopped, List.append_nil]
      rfl
    refine settled.kept after screen same streams program ?_
    have stoppedToo : (session.finish number).program = none := stopped
    simp only [doProgramRefresh, stoppedToo]
    exact refusesTurn_of_counts rfl rfl
  · cases settled with
    | owes running number task idle => exact absurd idle stopped
    | drawn ongoing idle => exact absurd (not_busy.mp idle).1 stopped
    | program running started nothing live =>
        exact .program ((running.finish number).emits emits plain after.tidy.unsuppressed
          after.connected) (program ▸ started) (same.trans nothing) (streams ▸ live)

theorem answered {number : Nat} {turn : ModelTurn} (settled : Settled env base first session)
    (listed : session.agenda.find? number = some (.model turn)) (later : first ≤ number)
    (answer : Answer) :
    Settled env base first (handleLlmResponse env turn answer (session.finish number)) := by
  rcases settled.firing listed later rfl with ⟨running, idle, -⟩
  exact .of_drawn running idle (.handleLlmResponse turn answer _)
    ((plain_answerOutputs _ _).visible _) (fun _ => rfl)
    (Session.foreground_of_shell (shell_handleLlmResponse ..))

theorem failed {number : Nat} {task : Task} (settled : Settled env base first session)
    (listed : session.agenda.find? number = some task) (later : first ≤ number)
    (owes : task.owesPrompt = true) (error : Str) :
    Settled env base first (handleLlmError error (session.finish number)) := by
  rcases settled.firing listed later owes with ⟨running, idle, -⟩
  exact .of_drawn running idle (.handleLlmError error _) plain_nil (fun _ => rfl)
    (Session.foreground_of_shell (shell_handleLlmError ..))

theorem fetched {number : Nat} {intent : DownloadIntent}
    (settled : Settled env base first session)
    (listed : session.agenda.find? number = some (.fetch command intent))
    (later : first ≤ number) (result : FetchResult) :
    Settled env base first (onResult env command intent result (session.finish number)) := by
  rcases settled.firing listed later rfl with ⟨running, idle, quiet⟩
  let asker := addCaptured intent result (session.finish number)
  have console : asker.console = (session.finish number).console := console_addCaptured ..
  have same : asker.foreground = (session.finish number).foreground :=
    Session.foreground_of_shell (shell_addCaptured ..)
  have noted : Emits env (session.finish number) asker [] [] [] := .of_console console
  have askerRunning := running.emits noted plain_nil
    ((congrArg (·.1) same).trans running.tidy.unsuppressed)
    ((congrArg (·.2.1) same).trans running.connected)
  refine .of_turn askerRunning
    (idle_emits idle running.early noted (congrArg (·.2.2) same) rfl fun _ => rfl) ?_
    (processCommandWithLlm_effect ..)
    (Session.foreground_of_shell (shell_processCommandWithLlm ..))
  rintro ⟨late, asked⟩
  rw [refusesTurn_addCaptured] at asked
  cases asked.symm.trans ((quiet late).2 command intent rfl)

theorem prompted {number : Nat} {leastMs mostMs : Int}
    (settled : Settled env base first session)
    (listed : session.agenda.find? number = some (.prompt leastMs mostMs))
    (later : first ≤ number) :
    Settled env base first (session.finish number).writePromptSafe := by
  rcases settled.firing listed later rfl with ⟨running, idle, -⟩
  have atOnce : (session.finish number).promptOf (session.finish number).promptText =
      (session.finish number).visible
        [.prompt (session.finish number).promptText (session.finish number).program.isSome] := by
    simp [Session.promptOf, running.tidy.unsuppressed]
  have emits : Emits env (session.finish number) (session.finish number).writePromptSafe
      ([] ++ (session.finish number).promptOf (session.finish number).promptText) [] [] := by
    rw [atOnce]
    exact .writePromptSafe _
  exact .of_drawn running idle emits plain_nil (fun _ => rfl)
    (Session.foreground_of_shell (Session.shell_writePromptSafe _))

theorem chunk {number : Nat} (settled : Settled env base first session)
    (open_ : number ∈ session.streams) (later : first ≤ number)
    (arrives : env.lateChunks = true ∨ (session.agenda.find? number).isSome) (text : Str) :
    Settled env base first (onStreamChunk text session) := by
  rcases settled.tidy.live number open_ with ⟨on, -, model⟩
  rcases arrives with late | outstanding
  · exact absurd (settled.streams ⟨late, on⟩ number open_) (Nat.not_lt.mpr later)
  rcases Option.isSome_iff_exists.mp outstanding with ⟨task, listed⟩
  have entry := Agenda.find?_eq_some.mp listed
  rcases model task entry with ⟨turn, rfl⟩
  have member : (number, Task.model turn) ∈ owed first session := mem_owed.mpr ⟨entry, later, rfl⟩
  have shell := shell_onStreamChunk text session
  have emits : Emits env session (onStreamChunk text session) _ [] [] := .onStreamChunk text session
  have program : (onStreamChunk text session).program = session.program :=
    congrArg ShellView.program shell
  have same : owed first (onStreamChunk text session) = owed first session := by
    rw [owed_emits emits settled.ongoing.early]
    exact List.append_nil _
  have streams : (onStreamChunk text session).streams = session.streams :=
    emits.streams.trans (List.append_nil _)
  have turns : refusesTurn env (onStreamChunk text session) = refusesTurn env session := by
    unfold onStreamChunk Session.write
    split
    · rfl
    · split <;> exact refusesTurn_of_counts rfl rfl
  cases settled with
  | program running started nothing =>
      rw [nothing] at member
      cases member
  | drawn ongoing idle =>
      rw [(not_busy.mp idle).2.1] at member
      cases member
  | owes running only task stopped nothing live quiet =>
      have plain : Plain (if text = [] then [] else session.visible [.text text]) := by
        split
        · exact plain_nil
        · exact (plain_text text).visible session
      exact .owes (running.emits emits plain
        ((congrArg ShellView.suppressPrompt shell).trans running.tidy.unsuppressed)
        ((congrArg ShellView.connected shell).trans running.connected))
        only task (program.trans stopped) (same.trans nothing) (streams ▸ live) (turns ▸ quiet)

theorem step {event : Event} (settled : Settled env base first session)
    (own : event.ofLine first) (stepped : step env session event = some next) :
    Settled env base first next := by
  cases stepped_of_step stepped with
  | line => exact own.elim
  | connectionLost => exact own.elim
  | key data active open_ => exact settled.key open_ data
  | prompt task leastMs mostMs listed => exact settled.prompted listed own
  | refresh task listed => exact settled.refresh listed
  | fetched task command intent result listed => exact settled.fetched listed own _
  | unfetched task command intent error listed => exact settled.failed listed own rfl _
  | chunk task text isOpen outstanding => exact settled.chunk isOpen own outstanding text
  | answered task turn answer listed => exact settled.answered listed own _
  | failed task turn error listed => exact settled.failed listed own rfl _
  | elapsed =>
      have ongoing := settled.ongoing
      have tidy := settled.tidy
      exact settled.kept ⟨⟨tidy.unsuppressed, tidy.refreshCall, tidy.live, tidy.models⟩,
        ongoing.connected, ongoing.early⟩ rfl rfl rfl rfl rfl

theorem run {events : List Event} {final : Session} (settled : Settled env base first session)
    (own : ∀ event ∈ events, event.ofLine first)
    (ran : runEvents env session events = some final) : Settled env base first final := by
  induction events generalizing session with
  | nil =>
      cases ran
      exact settled
  | cons event events induction =>
      rcases EventRun.run_cons.mp ran with ⟨next, stepped, ranOn⟩
      exact induction (settled.step (own event (by simp)) stepped)
        (fun other member => own other (by simp [member])) ranOn

end Settled

end Protocol

end LlmHoneypot
