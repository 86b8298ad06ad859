import LlmHoneypot.Protocol.Reachable
import LlmHoneypot.Providers.Streaming

/-! # How an answer reaches the terminal

What is written from the moment a model request is outstanding to the prompt that
follows its answer. -/

namespace LlmHoneypot

namespace Protocol

open Providers

variable {env : Env} {session : Session} {task : Nat} {turn : ModelTurn}

/-- The callbacks of a turn: the protocol streams where the option is on and the
provider supports it. -/
def turnCallbacks (env : Env) (normalize : NormalizeUsage) (kind : ProviderKind)
    (outcome : StreamOutcome) (buffered : Answer) : List Callback :=
  if streams env then generateStreaming normalize kind outcome buffered else generate buffered

def callbackEvent (task : Nat) : Callback → Event
  | .chunk text => .chunk task text
  | .answer answer => .answered task (.ok answer)

/-- How an answer is shown: cleaned in one piece, or in the pieces of its stream. -/
inductive Shown (env : Env) (response : Str) : List Output → Prop
  | buffered (off : env.config.stream = false) :
      Shown env response [.text ((cleanResponse env response).1 ++ "\n".toList)]
  | streamed (on : env.config.stream = true) (texts : List Str)
      (whole : texts.flatten = response) :
      Shown env response (texts.map .text ++ [.text "\n".toList])

theorem runEvents_chunks (env : Env) (session : Session) {texts : List Str}
    (visible : ∀ text ∈ texts, text ≠ []) (connected : session.connected = true)
    (open_ : task ∈ session.streams)
    (pending : session.agenda.find? task = some (.model turn)) :
    ∃ next, runEvents env session (texts.map (.chunk task)) = some next ∧
      next.shell = session.shell ∧ next.agenda = session.agenda ∧
      next.screen = session.screen ++ texts.map .text := by
  induction texts generalizing session with
  | nil => exact ⟨session, rfl, rfl, rfl, by simp⟩
  | cons text texts induction =>
      let written : Session := { session with screen := session.screen ++ [.text text] }
      have taken : step env session (.chunk task text) = some written := by
        simp [step, open_, pending, onStreamChunk, visible text, Session.write, connected, written]
      rcases induction written (fun other member => visible other (by simp [member]))
        connected open_ pending with ⟨next, ran, shell, agenda, screen⟩
      refine ⟨next, EventRun.run_cons.mpr ⟨written, taken, ran⟩, shell, agenda, ?_⟩
      rw [screen, List.append_assoc]
      rfl

theorem step_answered (env : Env) (session : Session) (answer : Answer) (response : answer.response ≠ [])
    (unsuppressed : session.suppressPrompt = false) (connected : session.connected = true)
    (pending : session.agenda.find? task = some (.model turn)) :
    ∃ final, step env session (.answered task (.ok answer)) = some final ∧
      final.screen = session.screen ++
        [.text (if turn.streamed then "\n".toList
          else (cleanResponse env answer.response).1 ++ "\n".toList)] ++
        [.prompt session.promptText session.program.isSome] := by
  refine ⟨handleLlmResponse env turn answer (session.finish task), by simp [step, pending], ?_⟩
  have emits : Emits env (session.finish task) _ _ _ _ := .handleLlmResponse turn answer _
  have prompt : (session.finish task).promptNow =
      [.prompt session.promptText session.program.isSome] := by
    refine (Session.promptNow_of_shell (Session.shell_finish task session)).trans ?_
    simp [Session.promptNow, Session.promptOf, Session.visible, unsuppressed, connected]
  have visible (outputs : List Output) : (session.finish task).visible outputs = outputs := by
    rw [Session.visible_of_shell (Session.shell_finish task session)]
    simp [Session.visible, connected]
  rw [emits.screen, prompt, visible, answerOutputs, if_neg response, List.append_assoc]
  rfl

theorem deltas_visible (events : List StreamEvent) : ∀ text ∈ deltas events, text ≠ [] := by
  intro text member
  rcases List.mem_filterMap.mp member with ⟨event, -, delta⟩
  exact of_decide_eq_true (Option.filter_eq_some_iff.mp delta).2

theorem mem_chunks {events : List StreamEvent} {answer : Answer} :
    ¬ Callback.answer answer ∈ chunks events := by
  simp [chunks]

theorem map_callbackEvent_chunks (events : List StreamEvent) :
    (chunks events).map (callbackEvent task) = (deltas events).map (.chunk task) := by
  simp only [chunks, List.map_map]
  rfl

theorem ended_of_answer {normalize : NormalizeUsage} {kind : ProviderKind}
    {outcome : StreamOutcome} {buffered answer : Answer}
    (answered : .answer answer ∈ generateStreaming normalize kind outcome buffered)
    (response : answer.response ≠ []) :
    ∃ events, outcome = .ended events ∧ answer = streamAnswer normalize kind events buffered := by
  have failed : answer ≠ emptyAnswer := fun equal => response (equal ▸ rfl)
  cases outcome with
  | notStarted => simp [generateStreaming, failed] at answered
  | ended events =>
      simp only [generateStreaming, List.mem_append, mem_chunks, false_or] at answered
      exact ⟨events, rfl, by simpa using answered⟩
  | brokenOff events late => simp [generateStreaming, mem_chunks, failed] at answered

/-- A non-empty answer is shown once and before its prompt, whatever the provider
does: cleaned in one piece with streaming off, as the pieces of the stream with
streaming on. The stream is one of a provider that supports it and brought text. -/
theorem answer_shown_once {normalize : NormalizeUsage} {kind : ProviderKind}
    {outcome : StreamOutcome} {buffered answer : Answer} (reachable : Reachable env session)
    (connected : session.connected = true)
    (pending : session.agenda.find? task = some (.model turn))
    (answered : .answer answer ∈ turnCallbacks env normalize kind outcome buffered)
    (response : answer.response ≠ [])
    (capable : env.config.stream = true → env.supportsStreaming = true)
    (brought : env.config.stream = true →
      ∀ events, outcome = .ended events → deltas events ≠ []) :
    ∃ final outputs, Shown env answer.response outputs ∧
      runEvents env session
        ((turnCallbacks env normalize kind outcome buffered).map (callbackEvent task)) =
          some final ∧
      final.screen = session.screen ++ outputs ++
        [.prompt session.promptText session.program.isSome] := by
  have tidy := reachable.tidy
  have known := tidy.models task turn (Agenda.find?_eq_some.mp pending)
  cases on : env.config.stream with
  | false =>
      have buffer : turnCallbacks env normalize kind outcome buffered = [.answer buffered] := by
        simp [turnCallbacks, streams, on, generate]
      rw [buffer] at answered ⊢
      cases List.mem_singleton.mp answered
      rcases step_answered env session buffered response tidy.unsuppressed connected
        pending with ⟨final, taken, screen⟩
      refine ⟨final, _, .buffered on, EventRun.run_cons.mpr ⟨final, taken, rfl⟩, ?_⟩
      simpa [known.1, on] using screen
  | true =>
      have streaming : streams env = true := by simp [streams, on, capable on]
      simp only [turnCallbacks, streaming, if_true] at answered ⊢
      rcases ended_of_answer answered response with ⟨events, rfl, rfl⟩
      have text := brought on events rfl
      have whole : (streamAnswer normalize kind events buffered).response = _ :=
        streamAnswer_of_deltas text
      rcases runEvents_chunks env session (deltas_visible events) connected
        (known.2 streaming) pending with ⟨next, ran, shell, agenda, screen⟩
      have foreground := Session.foreground_of_shell shell
      have program : next.program = session.program := congrArg (·.2.2) foreground
      rcases step_answered env next (streamAnswer normalize kind events buffered) response
        ((congrArg (·.1) foreground).trans tidy.unsuppressed)
        ((congrArg (·.2.1) foreground).trans connected) (agenda ▸ pending) with
        ⟨final, taken, finalScreen⟩
      refine ⟨final, _, .streamed on (deltas events) whole.symm, ?_, ?_⟩
      · rw [generateStreaming, List.map_append, map_callbackEvent_chunks, runEvents,
          EventRun.run_append]
        refine Option.bind_eq_some_iff.mpr ⟨next, ran, EventRun.run_cons.mpr ⟨final, taken, rfl⟩⟩
      · rw [finalScreen, screen, known.1, on, Session.promptText_of_shell shell, program]
        simp

/-! ## A session that waits for the model -/

def streamingEnv : Env :=
  { Env.pending with config := { stream := true }, supportsStreaming := true }

def twoPieces : StreamOutcome := .ended [{ text := some "o".toList }, { text := some "k".toList }]

/-- An answer in two pieces of its stream. -/
theorem answer_shown_once_example :
    ∃ final outputs, Shown streamingEnv "ok".toList outputs ∧
      runEvents streamingEnv (receive streamingEnv makeLine atPrompt)
        [.chunk 0 "o".toList, .chunk 0 "k".toList,
          .answered 0 (.ok { response := "ok".toList })] = some final ∧
      final.screen = (receive streamingEnv makeLine atPrompt).screen ++ outputs ++
        [.prompt (receive streamingEnv makeLine atPrompt).promptText
          (receive streamingEnv makeLine atPrompt).program.isSome] := by
  have reachable : Reachable streamingEnv (receive streamingEnv makeLine atPrompt) :=
    ⟨atPrompt, [.line makeLine], ⟨_, _, _, rfl⟩, rfl⟩
  have answered : Callback.answer { response := "ok".toList } ∈
      turnCallbacks streamingEnv (fun _ => none) .http twoPieces { response := [] } := by
    decide
  apply answer_shown_once reachable rfl rfl answered (by decide) (fun _ => rfl)
  intro _ events ended
  cases ended
  decide

/-- The markup of a streamed answer is on the terminal before it could be cleaned. -/
theorem streamed_markup_not_cleaned :
    ∃ outputs,
      (runEvents streamingEnv atPrompt (.line makeLine ::
        (turnCallbacks streamingEnv (fun _ => none) .http
          (.ended [{ text := some "`ok`".toList }]) { response := [] }).map
          (callbackEvent 0))).map (·.screen) =
        some (atPrompt.screen ++ outputs ++ [.prompt "root@h:/# ".toList false]) ∧
      .text "`ok`".toList ∈ outputs ∧
      ∀ output ∈ outputs, output ≠ .text
        ((cleanResponse streamingEnv "`ok`".toList).1 ++ "\n".toList) :=
  ⟨[.text "`ok`".toList, .text "\n".toList], by rfl, by decide, by decide⟩

end Protocol

end LlmHoneypot
