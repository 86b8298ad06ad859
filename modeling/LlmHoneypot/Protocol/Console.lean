import LlmHoneypot.Protocol.Reactor

/-! # The console

What the terminal has been sent and what is still outstanding, and how each stage
of the ladder and each event changes it. -/

namespace LlmHoneypot

namespace Protocol

open CmdChain Downloader Interactive Responder
open CmdParser (CmdMutation)

/-! ## View

Bookkeeping leaves it alone. -/

structure ConsoleView where
  screen : List Output
  agenda : Agenda Task
  streams : List Nat
  refreshCall : Option Nat

namespace Session

def console (session : Session) : ConsoleView :=
  { screen := session.screen, agenda := session.agenda, streams := session.streams,
    refreshCall := session.refreshCall }

def visible (outputs : List Output) (session : Session) : List Output :=
  if session.connected then outputs else []

/-- What `_show_prompt` draws when nothing delays it, for a prompt of the given text. -/
def promptOf (text : Str) (session : Session) : List Output :=
  if session.suppressPrompt then []
  else session.visible [.prompt text session.program.isSome]

def promptNow (session : Session) : List Output := session.promptOf session.promptText

theorem effectiveUser_of_shell {session next : Session} (same : next.shell = session.shell) :
    next.effectiveUser = session.effectiveUser := by
  have loginUser := congrArg ShellView.loginUser same
  have userStack := congrArg ShellView.userStack same
  simp only [shell] at loginUser userStack
  simp only [effectiveUser, WorldState.effectiveUser, loginUser, userStack]

theorem promptText_of_shell {session next : Session} (same : next.shell = session.shell) :
    next.promptText = session.promptText := by
  have hostname := congrArg ShellView.hostname same
  have cwd := congrArg ShellView.cwd same
  simp only [shell] at hostname cwd
  simp only [promptText, effectiveUser_of_shell same, hostname, cwd]

theorem promptNow_of_shell {session next : Session} (same : next.shell = session.shell) :
    next.promptNow = session.promptNow := by
  have connected := congrArg ShellView.connected same
  have suppressPrompt := congrArg ShellView.suppressPrompt same
  have program := congrArg ShellView.program same
  simp only [shell] at connected suppressPrompt program
  simp only [promptNow, promptOf, visible, promptText_of_shell same, connected, suppressPrompt,
    program]

theorem visible_of_shell {session next : Session} (same : next.shell = session.shell)
    (outputs : List Output) : next.visible outputs = session.visible outputs := by
  have connected := congrArg ShellView.connected same
  simp only [shell] at connected
  simp only [visible, connected]

@[simp] theorem console_log (event : LogEvent) (session : Session) :
    (session.log event).console = session.console := rfl

theorem console_write (text : Str) (session : Session) :
    (session.write text).console =
      { session.console with screen := session.screen ++ session.visible [.text text] } := by
  unfold write visible
  split
  · rfl
  · rw [List.append_nil]
    rfl

theorem console_showPrompt_now (session : Session) :
    (session.showPrompt 0 0).console =
      { session.console with screen := session.screen ++ session.promptNow } := by
  simp only [showPrompt, promptNow, promptOf, visible, writePromptSafe]
  split
  · rw [List.append_nil]
    rfl
  · split
    · rename_i positive
      exact absurd positive (by decide)
    · split
      · rfl
      · rw [List.append_nil]
        rfl

end Session

/-! ## The model turn -/

section Turn

variable (env : Env)

@[simp] theorem console_recordUsage (usage : Option Usage) (session : Session) :
    (session.recordUsage usage).console = session.console := by
  cases usage <;> rfl

@[simp] theorem console_logSessionBudget (session : Session) :
    session.logSessionBudget.console = session.console := by
  unfold Session.logSessionBudget
  split <;> rfl

@[simp] theorem console_logTokenBudget (session : Session) :
    session.logTokenBudget.console = session.console := by
  unfold Session.logTokenBudget
  split <;> rfl

@[simp] theorem console_recordClaim (answered command answer : Str) (source : ClaimSource)
    (session : Session) :
    (recordClaim env answered command answer source session).console = session.console := by
  unfold recordClaim
  split
  · rfl
  · split
    · rfl
    · split <;> rfl

@[simp] theorem console_recordPending (answered : Str) (session : Session) :
    (recordPending env answered session).console = session.console := by
  unfold recordPending
  split
  · rfl
  · exact console_recordClaim env ..

def answerOutputs (streamed : Bool) (response : Str) : List Output :=
  if response = [] then []
  else
    [.text (if streamed then "\n".toList else (cleanResponse env response).1 ++ "\n".toList)]

theorem console_showAnswer (streamed : Bool) (response : Str) (session : Session) :
    (showAnswer env streamed response session).console =
      { session.console with
        screen := session.screen ++ session.visible (answerOutputs env streamed response) } := by
  unfold showAnswer answerOutputs
  split
  · simp [Session.visible, Session.console]
  · rcases cleanResponse env response with ⟨clean, leaked⟩
    refine (Session.console_write _ _).trans ?_
    cases leaked <;> rfl

theorem console_handleLlmResponse (turn : ModelTurn) (answer : Answer) (session : Session) :
    (handleLlmResponse env turn answer session).console =
      { session.console with
        screen := session.screen ++
          session.visible (answerOutputs env turn.streamed answer.response) ++
          session.promptNow } := by
  have shell : ((session.recordUsage answer.usage).log (.response answer.response)).shell =
      session.shell := by simp
  have console : ((session.recordUsage answer.usage).log (.response answer.response)).console =
      session.console := by simp
  simp only [handleLlmResponse]
  generalize (session.recordUsage answer.usage).log (.response answer.response) = logged
    at shell console
  have screen := congrArg ConsoleView.screen console
  have shown : (showAnswer env turn.streamed answer.response logged).shell = session.shell := by
    simp [shell]
  have connected := congrArg ShellView.connected shell
  simp only [Session.shell] at connected
  simp only [Session.console] at screen
  split
  · rw [console_recordPending, Session.console_showPrompt_now, console_showAnswer,
      Session.promptNow_of_shell shown]
    have screenShown := congrArg ConsoleView.screen
      (console_showAnswer env turn.streamed answer.response logged)
    simp only [Session.console] at screenShown
    rw [screenShown, console, Session.visible_of_shell shell, screen]
  · rename_i gone
    rw [connected] at gone
    have nothing (outputs : List Output) : session.visible outputs = [] := by
      simp [Session.visible, gone]
    simp only [console, Session.promptNow, Session.promptOf, nothing, ite_self, List.append_nil]
    rfl

theorem console_handleLlmError (error : Str) (session : Session) :
    (handleLlmError error session).console =
      { session.console with screen := session.screen ++ session.promptNow } := by
  simp only [handleLlmError]
  split
  · exact (Session.console_showPrompt_now _).trans rfl
  · rename_i gone
    have gone : session.connected = false := by simpa [Session.log] using gone
    have nothing (outputs : List Output) : session.visible outputs = [] := by
      simp [Session.visible, gone]
    simp only [Session.console_log, Session.promptNow, Session.promptOf, nothing, ite_self, List.append_nil]
    rfl

end Turn

/-! ## Effects -/

/-- From `session` to `next` the terminal was sent `outputs`, the tasks `added` were
left with the reactor, and the requests `live` began to stream. -/
structure Emits (env : Env) (session next : Session) (outputs : List Output)
    (added : List (Nat × Task)) (live : List Nat) : Prop where
  screen : next.screen = session.screen ++ outputs
  agenda : session.agenda.Grown next.agenda added
  streams : next.streams = session.streams ++ live
  models : ∀ number turn, (number, Task.model turn) ∈ added →
    turn.streamed = env.config.stream ∧ (Protocol.streams env = true → number ∈ live)
  live : ∀ number ∈ live, Protocol.streams env = true ∧ session.agenda.next ≤ number ∧
    number < next.agenda.next ∧ ∀ task, (number, task) ∈ added → ∃ turn, task = .model turn
  refreshCall : ∀ number, next.refreshCall = some number →
    session.refreshCall = some number ∨ (number, Task.refresh) ∈ added

namespace Emits

variable {env : Env} {session next final : Session} {outputs more : List Output}
  {added addedMore : List (Nat × Task)} {live liveMore : List Nat}

theorem shown
    (console : next.console = { session.console with screen := session.screen ++ outputs }) :
    Emits env session next outputs [] [] := by
  have screen := congrArg ConsoleView.screen console
  have agenda := congrArg ConsoleView.agenda console
  have streams := congrArg ConsoleView.streams console
  have refreshCall := congrArg ConsoleView.refreshCall console
  simp only [Session.console] at screen agenda streams refreshCall
  exact ⟨screen, agenda ▸ .refl _, by simp [streams], by simp, by simp,
    fun _ call => .inl (refreshCall ▸ call)⟩

theorem of_console (console : next.console = session.console) :
    Emits env session next [] [] [] := by
  refine shown (console.trans ?_)
  rw [List.append_nil]
  rfl

theorem refl (session : Session) : Emits env session session [] [] [] := of_console rfl

theorem write (text : Str) (session : Session) :
    Emits env session (session.write text) (session.visible [.text text]) [] [] :=
  shown (session.console_write text)

theorem showPrompt_now (session : Session) :
    Emits env session (session.showPrompt 0 0) session.promptNow [] [] :=
  shown session.console_showPrompt_now

theorem schedule {task : Task} (other : ∀ turn, task ≠ .model turn) (session : Session) :
    Emits env session (session.schedule task) [] [(session.agenda.next, task)] [] := by
  refine ⟨by simp [Session.schedule], .add .., by simp [Session.schedule], ?_, by simp,
    fun _ call => .inl call⟩
  intro number turn member
  cases List.mem_singleton.mp member
  exact absurd rfl (other turn)

theorem trans (first : Emits env session next outputs added live)
    (second : Emits env next final more addedMore liveMore) :
    Emits env session final (outputs ++ more) (added ++ addedMore) (live ++ liveMore) where
  screen := by rw [second.screen, first.screen, List.append_assoc]
  agenda := first.agenda.trans second.agenda
  streams := by rw [second.streams, first.streams, List.append_assoc]
  models := by
    intro number turn member
    rcases List.mem_append.mp member with old | new
    · exact (first.models number turn old).imp_right fun listed on =>
        List.mem_append_left _ (listed on)
    · exact (second.models number turn new).imp_right fun listed on =>
        List.mem_append_right _ (listed on)
  live := by
    -- The two growths give out disjoint ranges of numbers.
    intro number member
    have later := second.agenda.next
    rcases List.mem_append.mp member with old | new
    · rcases first.live number old with ⟨on, low, high, model⟩
      refine ⟨on, low, by omega, fun task listed => ?_⟩
      rcases List.mem_append.mp listed with listed | listed
      · exact model task listed
      · have fresh := second.agenda.fresh _ listed
        simp only at fresh
        omega
    · rcases second.live number new with ⟨on, low, high, model⟩
      have earlier := first.agenda.next
      refine ⟨on, by omega, high, fun task listed => ?_⟩
      rcases List.mem_append.mp listed with listed | listed
      · have below := next.agenda.lt_next
          (first.agenda.entries ▸ List.mem_append_right _ listed)
        simp only at below
        omega
      · exact model task listed
  refreshCall := by
    intro number call
    rcases second.refreshCall number call with call | listed
    · exact (first.refreshCall number call).imp_right fun listed => List.mem_append_left _ listed
    · exact .inr (List.mem_append_right _ listed)

theorem after (console : next.console = session.console)
    (effect : Emits env next final outputs added live) :
    Emits env session final outputs added live := by
  simpa using (of_console console).trans effect

theorem before (effect : Emits env session next outputs added live)
    (console : final.console = next.console) :
    Emits env session final outputs added live := by
  simpa using effect.trans (of_console console)

end Emits

/-! ## Answers and prompts -/

section Events

variable {env : Env}

theorem Emits.handleLlmResponse (turn : ModelTurn) (answer : Answer) (session : Session) :
    Emits env session (handleLlmResponse env turn answer session)
      (session.visible (answerOutputs env turn.streamed answer.response) ++ session.promptNow)
      [] [] := by
  refine .shown ?_
  rw [console_handleLlmResponse, List.append_assoc]

theorem Emits.handleLlmError (error : Str) (session : Session) :
    Emits env session (handleLlmError error session) session.promptNow [] [] :=
  .shown (console_handleLlmError ..)

theorem Emits.onStreamChunk (text : Str) (session : Session) :
    Emits env session (onStreamChunk text session)
      (if text = [] then [] else session.visible [.text text]) [] [] := by
  unfold Protocol.onStreamChunk
  split
  · exact .refl session
  · exact .write text session

theorem Emits.writePromptSafe (session : Session) :
    Emits env session session.writePromptSafe
      (session.visible [.prompt session.promptText session.program.isSome]) [] [] := by
  refine .shown ?_
  unfold Session.writePromptSafe Session.visible
  split
  · rfl
  · rw [List.append_nil]
    rfl

end Events

def Plain (outputs : List Output) : Prop := ∀ output ∈ outputs, output.isPrompt = false

@[simp] theorem plain_nil : Plain [] := by simp [Plain]

theorem Plain.append {first second : List Output} (left : Plain first) (right : Plain second) :
    Plain (first ++ second) := fun output member =>
  (List.mem_append.mp member).elim (left output) (right output)

theorem Plain.visible {outputs : List Output} (plain : Plain outputs) (session : Session) :
    Plain (session.visible outputs) := by
  unfold Session.visible
  split
  · exact plain
  · exact plain_nil

theorem plain_text (text : Str) : Plain [.text text] := by
  simp [Plain, Output.isPrompt]

theorem Session.promptOf_suppressed {session : Session}
    (suppressed : session.suppressPrompt = true) (text : Str) : session.promptOf text = [] := by
  simp [promptOf, suppressed]

end Protocol

end LlmHoneypot
