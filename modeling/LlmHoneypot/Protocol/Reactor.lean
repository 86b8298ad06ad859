import LlmHoneypot.Foundation.EventRun
import LlmHoneypot.Protocol.Dispatch

/-! # The session under the reactor

One event at a time: a line, keys for a full-screen program, the firing of what
the session left behind, the loss of the connection. -/

namespace LlmHoneypot

namespace Protocol

open Downloader Interactive Responder

inductive Event
  | line (line : List UInt8)
  | key (data : List UInt8)
  | prompt (task : Nat)
  | refresh (task : Nat)
  | fetched (task : Nat) (outcome : Except Str FetchResult)
  | chunk (task : Nat) (text : Str)
  | answered (task : Nat) (outcome : Except Str Answer)
  | connectionLost
  | elapsed (seconds : Nat)

namespace Session

def finish (task : Nat) (session : Session) : Session :=
  { session with agenda := session.agenda.finish task }

def cancelRefresh (session : Session) : Session :=
  match session.refreshCall with
  | some task => { session.finish task with refreshCall := none }
  | none => session

end Session

/-! ## Programs -/

def persistEditorSave (startCwd path body : Str) (session : Session) : Session :=
  let resolved := resolvePath path { session.shellContext with cwd := startCwd }
  ({ session with
      world :=
        session.world.addFile resolved (Text.utf8Length body) none session.clock .edited none
          (some body) } :
    Session).log (.editorSave resolved body.length)

def exitProgram (session : Session) : Session :=
  ({ session.cancelRefresh with program := none } : Session).showPrompt 0 0

def savePath : Program → Str
  | .vi state => state.filename
  | .top => []
  | .less _ => []

def keystrokeReceived (env : Env) (active : ActiveProgram) (data : List UInt8)
    (session : Session) : Session :=
  match active.program.handleKey (topFrame env active.startCwd session) data with
  | (program, result, saves) =>
      let session := { session with program := some { active with program } }
      let session :=
        saves.foldl
          (fun session body => persistEditorSave active.startCwd (savePath program) body session)
          session
      let session := if result.output = [] then session else session.write result.output
      if result.done then exitProgram session else session

def doProgramRefresh (env : Env) (session : Session) : Session :=
  let session := { session with refreshCall := none }
  match session.program with
  | some active =>
      if session.connected then
        scheduleProgramRefresh
          (session.write (active.program.onRefresh (topFrame env active.startCwd session)))
      else session
  | none => session

/-! ## Steps -/

def connectionLost (session : Session) : Session :=
  { session.cancelRefresh with program := none, connected := false }

def afterLine : Session × Ending → Session
  | (session, .returned) => session
  | (session, .raised) => connectionLost session

def receive (env : Env) (line : List UInt8) (session : Session) : Session :=
  afterLine (lineReceived env line session)

/-- The session after an event, `none` for an event that cannot occur. Lines are
read only while no program is in the foreground. -/
def step (env : Env) (session : Session) : Event → Option Session
  | .line line =>
      if session.connected ∧ session.program = none then some (receive env line session)
      else none
  | .key data =>
      session.program.map fun active => keystrokeReceived env active data session
  | .prompt task =>
      match session.agenda.find? task with
      | some (.prompt _ _) => some (session.finish task).writePromptSafe
      | _ => none
  | .refresh task =>
      match session.agenda.find? task with
      | some .refresh => some (doProgramRefresh env (session.finish task))
      | _ => none
  | .fetched task outcome =>
      match session.agenda.find? task, outcome with
      | some (.fetch command intent), .ok result =>
          some (onResult env command intent result (session.finish task))
      | some (.fetch _ _), .error error => some (handleLlmError error (session.finish task))
      | _, _ => none
  | .chunk task text =>
      if task ∈ session.streams ∧ (env.lateChunks ∨ (session.agenda.find? task).isSome) then
        some (onStreamChunk text session)
      else none
  | .answered task outcome =>
      match session.agenda.find? task, outcome with
      | some (.model turn), .ok answer =>
          some (handleLlmResponse env turn answer (session.finish task))
      | some (.model _), .error error => some (handleLlmError error (session.finish task))
      | _, _ => none
  | .connectionLost => if session.connected then some (connectionLost session) else none
  | .elapsed seconds => some { session with clock := session.clock + seconds }

/-- The sessions of a user, right after the connection is made. -/
def Initial (session : Session) : Prop :=
  ∃ loginUser hostname clock,
    session = Session.showPrompt 0 0 { loginUser, hostname, clock }

/-! ## Frame -/

@[simp] theorem Session.shell_finish (task : Nat) (session : Session) :
    (session.finish task).shell = session.shell := rfl

@[simp] theorem Session.shell_cancelRefresh (session : Session) :
    session.cancelRefresh.shell = session.shell := by
  unfold cancelRefresh
  split <;> rfl

theorem shell_exitProgram (session : Session) :
    (exitProgram session).shell = { session.shell with program := none } := by
  simp only [exitProgram, Session.shell_showPrompt]
  rw [← session.shell_cancelRefresh]
  rfl

@[simp] theorem shell_persistEditorSave (startCwd path body : Str) (session : Session) :
    (persistEditorSave startCwd path body session).shell = session.shell :=
  (Session.shell_log ..).trans (Session.shell_world (userStack_addFile ..))

@[simp] theorem shell_saves (startCwd path : Str) (saves : List Str) (session : Session) :
    (saves.foldl (fun session body => persistEditorSave startCwd path body session)
      session).shell = session.shell := by
  induction saves generalizing session with
  | nil => rfl
  | cons body saves induction => exact (induction _).trans (shell_persistEditorSave ..)

theorem shell_keystrokeReceived (env : Env) (active : ActiveProgram) (data : List UInt8)
    (session : Session) :
    ∃ program, (keystrokeReceived env active data session).shell =
      { session.shell with program } := by
  simp only [keystrokeReceived]
  rcases active.program.handleKey (topFrame env active.startCwd session) data with
    ⟨program, result, saves⟩
  simp only
  split
  · refine ⟨none, (shell_exitProgram _).trans ?_⟩
    split <;> simp only [Session.shell_write, shell_saves] <;> rfl
  · refine ⟨some { active with program }, ?_⟩
    split <;> simp only [Session.shell_write, shell_saves] <;> rfl

@[simp] theorem shell_doProgramRefresh (env : Env) (session : Session) :
    (doProgramRefresh env session).shell = session.shell := by
  simp only [doProgramRefresh]
  split
  · split
    · simp only [shell_scheduleProgramRefresh, Session.shell_write]
      rfl
    · rfl
  · rfl

theorem shell_connectionLost (session : Session) :
    (connectionLost session).shell =
      { session.shell with program := none, connected := false } := by
  rw [← session.shell_cancelRefresh]
  rfl

inductive Stepped (env : Env) (session : Session) : Event → Session → Prop
  | line (line : List UInt8) (connected : session.connected = true)
      (stopped : session.program = none) :
      Stepped env session (.line line) (receive env line session)
  | key (data : List UInt8) (active : ActiveProgram) (running : session.program = some active) :
      Stepped env session (.key data) (keystrokeReceived env active data session)
  | prompt (task : Nat) (leastMs mostMs : Int)
      (listed : session.agenda.find? task = some (.prompt leastMs mostMs)) :
      Stepped env session (.prompt task) (session.finish task).writePromptSafe
  | refresh (task : Nat) (listed : session.agenda.find? task = some .refresh) :
      Stepped env session (.refresh task) (doProgramRefresh env (session.finish task))
  | fetched (task : Nat) (command : Str) (intent : DownloadIntent) (result : FetchResult)
      (listed : session.agenda.find? task = some (.fetch command intent)) :
      Stepped env session (.fetched task (.ok result))
        (onResult env command intent result (session.finish task))
  | unfetched (task : Nat) (command : Str) (intent : DownloadIntent) (error : Str)
      (listed : session.agenda.find? task = some (.fetch command intent)) :
      Stepped env session (.fetched task (.error error))
        (handleLlmError error (session.finish task))
  | chunk (task : Nat) (text : Str) (isOpen : task ∈ session.streams)
      (outstanding : env.lateChunks ∨ (session.agenda.find? task).isSome) :
      Stepped env session (.chunk task text) (onStreamChunk text session)
  | answered (task : Nat) (turn : ModelTurn) (answer : Answer)
      (listed : session.agenda.find? task = some (.model turn)) :
      Stepped env session (.answered task (.ok answer))
        (handleLlmResponse env turn answer (session.finish task))
  | failed (task : Nat) (turn : ModelTurn) (error : Str)
      (listed : session.agenda.find? task = some (.model turn)) :
      Stepped env session (.answered task (.error error))
        (handleLlmError error (session.finish task))
  | connectionLost (connected : session.connected = true) :
      Stepped env session .connectionLost (connectionLost session)
  | elapsed (seconds : Nat) :
      Stepped env session (.elapsed seconds) { session with clock := session.clock + seconds }

theorem stepped_of_step {env : Env} {session next : Session} {event : Event}
    (stepped : step env session event = some next) : Stepped env session event next := by
  cases event with
  | line line =>
      simp only [step, Option.ite_none_right_eq_some, Option.some.injEq] at stepped
      exact stepped.2 ▸ .line line stepped.1.1 stepped.1.2
  | key data =>
      rcases Option.map_eq_some_iff.mp stepped with ⟨active, running, rfl⟩
      exact .key data active running
  | prompt task =>
      simp only [step] at stepped
      split at stepped
      · cases stepped
        exact .prompt task _ _ ‹_›
      · cases stepped
  | refresh task =>
      simp only [step] at stepped
      split at stepped
      · cases stepped
        exact .refresh task ‹_›
      · cases stepped
  | fetched task outcome =>
      simp only [step] at stepped
      split at stepped
      · cases stepped
        exact .fetched task _ _ _ ‹_›
      · cases stepped
        exact .unfetched task _ _ _ ‹_›
      · cases stepped
  | chunk task text =>
      simp only [step, Option.ite_none_right_eq_some, Option.some.injEq] at stepped
      exact stepped.2 ▸ .chunk task text stepped.1.1 stepped.1.2
  | answered task outcome =>
      simp only [step] at stepped
      split at stepped
      · cases stepped
        exact .answered task _ _ ‹_›
      · cases stepped
        exact .failed task _ _ ‹_›
      · cases stepped
  | connectionLost =>
      simp only [step, Option.ite_none_right_eq_some, Option.some.injEq] at stepped
      exact stepped.2 ▸ .connectionLost stepped.1
  | elapsed seconds =>
      cases stepped
      exact .elapsed seconds

/-- What an event can do to the shell side: a line is dispatched, a key changes the
program, the connection goes, time passes; nothing else touches it. -/
theorem shell_step {env : Env} {session next : Session} {event : Event}
    (stepped : step env session event = some next) :
    (∃ line, event = .line line ∧ session.connected = true ∧ session.program = none ∧
        next = receive env line session) ∨
      (∃ connected program clock,
        next.shell = { session.shell with connected, program, clock }) := by
  have same {next : Session} (equal : next.shell = session.shell) :
      ∃ connected program clock,
        next.shell = { session.shell with connected, program, clock } :=
    ⟨session.connected, session.program, session.clock, equal⟩
  cases stepped_of_step stepped with
  | line line connected stopped => exact .inl ⟨line, rfl, connected, stopped, rfl⟩
  | key data active running =>
      rcases shell_keystrokeReceived env active data session with ⟨program, shell⟩
      exact .inr ⟨session.connected, program, session.clock, shell⟩
  | prompt => exact .inr (same (by simp))
  | refresh => exact .inr (same (by simp))
  | fetched => exact .inr (same (by simp))
  | unfetched => exact .inr (same (by simp))
  | chunk => exact .inr (same (by simp))
  | answered => exact .inr (same (by simp))
  | failed => exact .inr (same (by simp))
  | connectionLost => exact .inr ⟨false, none, session.clock, shell_connectionLost session⟩
  | elapsed seconds =>
      exact .inr ⟨session.connected, session.program, session.clock + seconds, rfl⟩

abbrev runEvents (env : Env) : Session → List Event → Option Session := EventRun.run (step env)

end Protocol

end LlmHoneypot
