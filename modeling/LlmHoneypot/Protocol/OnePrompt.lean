import LlmHoneypot.Protocol.Prompts

/-! # Which lines draw one prompt

A line that settles stays settled whatever completes first; of every other line some
order of completions shows two prompts, a prompt over a program, output behind the
prompt, or no prompt at all. -/

namespace LlmHoneypot

namespace Protocol

open CmdChain Downloader Interactive Responder

variable {env : Env} {command : Str} {session next : Session} {base outputs : List Output}
  {first : Nat}

/-! ## Spoiled lines -/

def Spoiled (env : Env) (base : List Output) (first : Nat) (session : Session) : Prop :=
  ∃ events final, (∀ event ∈ events, event.ofLine first) ∧
    runEvents env session events = some final ∧ ¬ DrawnOnce base first final

theorem Spoiled.now (spoiled : ¬ DrawnOnce base first session) :
    Spoiled env base first session :=
  ⟨[], session, by simp, rfl, spoiled⟩

theorem Spoiled.of_step {event : Event} (own : event.ofLine first)
    (stepped : step env session event = some next) (spoiled : Spoiled env base first next) :
    Spoiled env base first session := by
  rcases spoiled with ⟨events, final, owns, ran, drawn⟩
  refine ⟨event :: events, final, ?_, EventRun.run_cons.mpr ⟨next, stepped, ran⟩, drawn⟩
  intro other member
  rcases List.mem_cons.mp member with rfl | member
  · exact own
  · exact owns other member

theorem not_drawnOnce_of_prompt {text : Str} {covers : Bool} {after : List Output}
    (screen : session.screen = base ++ (outputs ++ .prompt text covers :: after))
    (bad : covers = true ∨ after ≠ []) : ¬ DrawnOnce base first session := by
  have isPrompt : (Output.prompt text covers).isPrompt = true := rfl
  intro drawn
  cases drawn with
  | before others plain same =>
      have equal := List.append_cancel_left (same.symm.trans screen)
      have plainPrompt := plain (.prompt text covers) (by simp [equal])
      cases isPrompt.symm.trans plainPrompt
  | once others plain last same =>
      rw [List.append_assoc] at same
      have equal := List.append_cancel_left (same.symm.trans screen)
      rcases List.eq_nil_or_concat after with rfl | ⟨before, final, rfl⟩
      · have ends := congrArg List.getLast? equal
        simp only [List.getLast?_append, List.getLast?_singleton, Option.some_or,
          Option.some.injEq, Output.prompt.injEq] at ends
        simp [← ends.2] at bad
      · rw [List.concat_eq_append, ← List.cons_append, ← List.append_assoc] at equal
        have init := (List.append_inj' equal rfl).1
        have plainPrompt := plain (.prompt text covers) (by simp [init])
        cases isPrompt.symm.trans plainPrompt

theorem not_drawnOnce_of_over (plain : Plain outputs) (screen : session.screen = base ++ outputs)
    (ended : Over first session) : ¬ DrawnOnce base first session := by
  intro drawn
  cases drawn with
  | before others plainToo same open_ => exact open_ ended
  | once others plainToo text same =>
      rw [List.append_assoc] at same
      have equal := List.append_cancel_left (screen.symm.trans same)
      cases plain (.prompt text false) (by simp [equal])

/-! ## Taking up a task -/

theorem fire {number : Nat} {task : Task} (ongoing : Ongoing env first session)
    (member : (number, task) ∈ owed first session) :
    ∃ event next text, event.ofLine first ∧ step env session event = some next ∧
      Emits env (session.finish number) next [.prompt text session.program.isSome] [] [] ∧
      next.shell = session.shell := by
  rcases mem_owed.mp member with ⟨entry, later, owes⟩
  have listed := Agenda.find?_eq_some.mpr entry
  have unsuppressed := ongoing.tidy.unsuppressed
  have connected := ongoing.connected
  have prompt : (session.finish number).promptNow =
      [.prompt session.promptText session.program.isSome] := by
    refine (Session.promptNow_of_shell (Session.shell_finish number session)).trans ?_
    simp [Session.promptNow, Session.promptOf, Session.visible, unsuppressed, connected]
  have failed : Emits env (session.finish number) (handleLlmError [] (session.finish number))
      [.prompt session.promptText session.program.isSome] [] [] :=
    prompt ▸ .handleLlmError [] _
  have shell : (handleLlmError [] (session.finish number)).shell = session.shell :=
    (shell_handleLlmError ..).trans (Session.shell_finish ..)
  cases task with
  | refresh => cases owes
  | fetch command intent =>
      exact ⟨.fetched number (.error []), _, _, later, by simp [step, listed], failed, shell⟩
  | model turn =>
      exact ⟨.answered number (.error []), _, _, later, by simp [step, listed], failed, shell⟩
  | prompt leastMs mostMs =>
      refine ⟨.prompt number, (session.finish number).writePromptSafe, session.promptText, later,
        by simp [step, listed], ?_, (Session.shell_writePromptSafe _).trans rfl⟩
      have atOnce : (session.finish number).visible
          [.prompt (session.finish number).promptText (session.finish number).program.isSome] =
          [.prompt session.promptText session.program.isSome] := by
        rw [Session.visible_of_shell (Session.shell_finish number session),
          Session.promptText_of_shell (Session.shell_finish number session)]
        simp [Session.visible, connected]
        rfl
      exact atOnce ▸ .writePromptSafe _

theorem spoiled_of_drawn {text : Str} (ongoing : Ongoing env first session)
    (screen : session.screen = base ++ outputs ++ [.prompt text session.program.isSome])
    (busy : Busy env first session) : Spoiled env base first session := by
  rcases busy with running | owes | ⟨late, number, open_, later⟩
  · have drawn : session.screen = base ++ (outputs ++ [.prompt text session.program.isSome]) := by
      rw [screen, List.append_assoc]
    exact .now (not_drawnOnce_of_prompt drawn (.inl running))
  · rcases List.exists_mem_of_ne_nil _ owes with ⟨⟨number, task⟩, member⟩
    rcases fire ongoing member with ⟨event, next, other, own, stepped, emits, -⟩
    have twice : next.screen = base ++ (outputs ++ .prompt text session.program.isSome ::
        [.prompt other session.program.isSome]) := by
      rw [emits.screen]
      exact (congrArg (· ++ _) screen).trans (by simp)
    exact .of_step own stepped (.now (not_drawnOnce_of_prompt twice (.inr (by simp))))
  · have stepped : step env session (.chunk number ['x']) = some (session.write ['x']) := by
      simp [step, open_, late.1, onStreamChunk]
    have behind : (session.write ['x']).screen =
        base ++ (outputs ++ .prompt text session.program.isSome :: [.text ['x']]) := by
      simp [Session.write, ongoing.connected, screen]
    have own : Event.ofLine first (.chunk number ['x']) := later
    exact .of_step own stepped (.now (not_drawnOnce_of_prompt behind (.inr (by simp))))

theorem spoiled_of_turn {observation : Option Str} (running : Running env base first session)
    (turned : TurnEffect env command observation session next)
    (same : next.foreground = session.foreground)
    (bad : Busy env first session ∨ AsksLate env session) : Spoiled env base first next := by
  have unsuppressed := (congrArg (·.1) same).trans running.tidy.unsuppressed
  have connected := (congrArg (·.2.1) same).trans running.connected
  have program : next.program = session.program := congrArg (·.2.2) same
  have prompt : session.promptNow = [.prompt session.promptText next.program.isSome] := by
    rw [program]
    simp [Session.promptNow, Session.promptOf, Session.visible, running.tidy.unsuppressed,
      running.connected]
  rcases running.plain with ⟨earlier, plain, screen⟩
  -- A prompt is drawn at once, with something left that can write.
  have drawn {shown : List Output} {live : List Nat}
      (emits : Emits env session next (shown ++ session.promptNow) [] live)
      (busy : Busy env first next) : Spoiled env base first next := by
    have shownThen : next.screen =
        base ++ (earlier ++ shown) ++ [.prompt session.promptText next.program.isSome] := by
      rw [emits.screen, screen, prompt]
      simp
    exact spoiled_of_drawn (running.toOngoing.emits emits unsuppressed connected) shownThen busy
  cases turned with
  | gone asked disconnected emits => cases disconnected.symm.trans running.connected
  | refused refused emits =>
      rcases bad with busy | ⟨-, asked⟩
      · exact drawn emits (busy_emits busy running.early emits (program ▸ id))
      · cases asked.symm.trans refused
  | answered shown plainShown asked stillConnected fired emits =>
      rcases bad with busy | ⟨late, -⟩
      · exact drawn emits (busy_emits busy running.early emits (program ▸ id))
      · exact drawn emits (busy_of_mark running.early emits
          (.inr (.inr ⟨late, liveNumbers_ne_nil late session⟩)))
  | waiting turn asked stillConnected waits emits =>
      have ongoing := running.toOngoing.emits emits unsuppressed connected
      have owes : owed first next = owed first session ++ [(session.agenda.next, .model turn)] :=
        owed_emits emits running.early
      have busy : Busy env first (next.finish session.agenda.next) := by
        rcases bad with (open_ | owedBefore | ⟨late, number, open_, later⟩) | ⟨late, -⟩
        · exact .inl (program ▸ open_)
        · rcases List.exists_mem_of_ne_nil _ owedBefore with ⟨entry, member⟩
          have below := session.agenda.lt_next (mem_owed.mp member).1
          have kept : entry ∈ owed first (next.finish session.agenda.next) := by
            rw [owed_finish, owes]
            exact List.mem_filter.mpr ⟨List.mem_append_left _ member,
              decide_eq_true (Nat.ne_of_lt below)⟩
          exact .inr (.inl (List.ne_nil_of_mem kept))
        · exact .inr (.inr ⟨late, number, emits.streams ▸ List.mem_append_left _ open_, later⟩)
        · refine .inr (.inr ⟨late, session.agenda.next, ?_, running.early⟩)
          have streams : (next.finish session.agenda.next).streams = _ := emits.streams
          simp [streams, liveNumbers, late.2]
      have member : (session.agenda.next, Task.model turn) ∈ owed first next := by simp [owes]
      rcases fire ongoing member with ⟨event, answered, text, own, stepped, answers, same⟩
      have stillRunning : answered.program = next.program := congrArg ShellView.program same
      have shownThen : answered.screen =
          base ++ earlier ++ [.prompt text answered.program.isSome] := by
        rw [answers.screen, stillRunning]
        exact congrArg (· ++ _) ((emits.screen.trans (List.append_nil _)).trans screen)
      exact .of_step own stepped (spoiled_of_drawn
        ((ongoing.finish _).emits answers
          ((congrArg ShellView.suppressPrompt same).trans unsuppressed)
          ((congrArg ShellView.connected same).trans connected)) shownThen
        (busy_emits busy ongoing.early answers (stillRunning ▸ id)))

/-! ## Chains -/

theorem dispatchSegment_effect (running : Running env base first session) (command : Str) :
    Running env base first (dispatchSegment env command session).1 ∧
      ((dispatchSegment env command session).2 = .raised →
        ¬ SegmentSettles env command (session.setSuppressPrompt true)) ∧
      ((dispatchSegment env command session).2 ≠ .raised →
        (¬ Busy env first (dispatchSegment env command session).1 ↔
          ¬ Busy env first session ∧
            SegmentSettles env command (session.setSuppressPrompt true))) := by
  have dispatched := dispatchLocal_dispatched env command (session.setSuppressPrompt true)
  have kept := kept_dispatched dispatched
  have effect := segment_effect dispatched rfl running.connected
  have same : (session.setSuppressPrompt true).console = session.console := rfl
  unfold dispatchSegment
  generalize dispatchLocal env command (session.setSuppressPrompt true) = outcome at effect kept
  rcases outcome with ⟨next, stage⟩
  have connected : (next.setSuppressPrompt false).connected = true :=
    kept.2.trans running.connected
  -- What holds of the session with the prompt suppressed holds of it without.
  have around {shown : List Output} {added : List (Nat × Task)} {live : List Nat}
      (emits : Emits env (session.setSuppressPrompt true) next shown added live) :
      Emits env session (next.setSuppressPrompt false) shown added live :=
    (emits.after same).before rfl
  cases effect with
  | settled shown added live plain emits settles returned program nothing quiet =>
      refine ⟨running.emits (around emits) plain rfl connected, fun raised => absurd raised returned,
        fun _ => ⟨fun idle => ⟨fun busy => idle ?_, settles⟩, fun idle => ?_⟩⟩
      · exact busy_emits busy running.early (around emits) fun open_ => program.symm ▸ open_
      · exact idle_emits idle.1 running.early (around emits) program nothing quiet
  | marked shown added live plain emits unsettled program mark =>
      refine ⟨running.emits (around emits) plain rfl connected, fun _ => unsettled, fun _ =>
        ⟨fun idle => ?_, fun idle => absurd idle.2 unsettled⟩⟩
      exact absurd (busy_of_mark running.early (around emits) mark) idle
  | raised shown added live plain emits unsettled raised =>
      exact ⟨running.emits (around emits) plain rfl connected, fun _ => unsettled,
        fun returned => absurd raised returned⟩

theorem running_chainLoop (running : Running env base first session) (succeeded : Bool)
    (segments : List Segment) :
    Running env base first (chainLoop env succeeded segments session).session :=
  chainLoop_relation (fun session next => Running env base first session →
      Running env base first next)
    (fun _ => id) (fun before after running => after (before running))
    (fun segment _ _ running => (dispatchSegment_effect running segment.command).1)
    succeeded session running

def LeavesPrompt (env : Env) (first : Nat) (run : ChainRun) : Prop :=
  ¬ Busy env first run.session ∧ run.ending ≠ .raised ∧
    ∀ remainder, run.ending = .handedOver remainder → ¬ AsksLate env run.session

theorem leavesPrompt_chainLoop (running : Running env base first session) (succeeded : Bool)
    (segments : List Segment) :
    LeavesPrompt env first (chainLoop env succeeded segments session) ↔
      ¬ Busy env first session ∧ ChainSettles env succeeded segments session := by
  induction segments generalizing succeeded session with
  | nil => simp [LeavesPrompt, chainLoop, ChainSettles]
  | cons segment rest induction =>
      have effect := dispatchSegment_effect running segment.command
      simp only [chainLoop, ChainSettles]
      split
      · generalize dispatchSegment env segment.command session = outcome at effect
        rcases outcome with ⟨next, stage⟩
        rcases effect with ⟨runningNext, raised, settles⟩
        cases stage with
        | raised => simp [LeavesPrompt, raised rfl]
        | declined =>
            have settles := settles (by simp)
            simp only [LeavesPrompt] at settles ⊢
            simp [settles, and_assoc]
        | handled ok =>
            have settles := settles (by simp)
            refine (induction runningNext ok).trans ?_
            rw [settles, and_assoc]
      · exact induction running true

theorem Running.applyInputMutations (running : Running env base first session)
    (command : Str) : Running env base first (applyInputMutations command session) :=
  running.emits (.of_console (console_applyInputMutations command session)) plain_nil
    running.tidy.unsuppressed running.connected

theorem emits_chainPrompt (running : Running env base first session) :
    Emits env session (session.showPrompt 0 0) ([] ++ session.promptOf session.promptText) [] [] ∧
      session.promptOf session.promptText =
        [.prompt session.promptText session.program.isSome] := by
  refine ⟨.showPrompt_now session, ?_⟩
  simp [Session.promptOf, Session.visible, running.tidy.unsuppressed, running.connected]

theorem settled_finishChain {run : ChainRun} (running : Running env base first run.session)
    (leaves : LeavesPrompt env first run) :
    (finishChain env run).2 = .returned ∧ Settled env base first (finishChain env run).1 := by
  rcases leaves with ⟨idle, returned, inTime⟩
  unfold finishChain
  split
  · exact ⟨rfl, .of_drawn running idle (emits_chainPrompt running).1 plain_nil (fun _ => rfl)
      (Session.foreground_of_shell (Session.shell_showPrompt ..))⟩
  · rename_i remainder handed
    exact ⟨rfl, .of_turn (running.applyInputMutations remainder) idle (inTime remainder handed)
      (processCommandWithLlm_effect ..)
      (Session.foreground_of_shell (shell_processCommandWithLlm ..))⟩
  · exact absurd ‹_› returned

theorem spoiled_connectionLost (running : Running env base first session) :
    Spoiled env base first (connectionLost session) := by
  rcases running.plain with ⟨outputs, plain, screen⟩
  have same : (connectionLost session).screen = session.screen := by
    unfold connectionLost Session.cancelRefresh
    split <;> rfl
  exact .now (not_drawnOnce_of_over plain (same.trans screen) (.inl rfl))

theorem spoiled_finishChain {run : ChainRun} (running : Running env base first run.session)
    (keeps : ¬ LeavesPrompt env first run) :
    Spoiled env base first (afterLine (finishChain env run)) := by
  cases ended : run.ending with
  | finished =>
      simp only [finishChain, ended, afterLine]
      have busy : Busy env first run.session := by
        by_contra idle
        exact keeps ⟨idle, by simp [ended], by simp [ended]⟩
      rcases emits_chainPrompt running with ⟨emits, prompt⟩
      rcases running.plain with ⟨outputs, plain, screen⟩
      have shell := Session.shell_showPrompt 0 0 run.session
      have program : (run.session.showPrompt 0 0).program = run.session.program :=
        congrArg ShellView.program shell
      have shown : (run.session.showPrompt 0 0).screen = base ++ outputs ++
          [.prompt run.session.promptText (run.session.showPrompt 0 0).program.isSome] := by
        rw [emits.screen, prompt, screen, program]
        simp
      exact spoiled_of_drawn (running.toOngoing.emits emits
        ((congrArg ShellView.suppressPrompt shell).trans running.tidy.unsuppressed)
        ((congrArg ShellView.connected shell).trans running.connected)) shown
        (busy_emits busy running.early emits (program ▸ id))
  | handedOver remainder =>
      simp only [finishChain, ended, afterLine]
      refine spoiled_of_turn (running.applyInputMutations remainder)
        (processCommandWithLlm_effect env remainder none _)
        (Session.foreground_of_shell (shell_processCommandWithLlm ..)) ?_
      by_contra good
      rw [not_or] at good
      exact keeps ⟨good.1, by simp [ended], fun _ _ => good.2⟩
  | raised =>
      simp only [finishChain, ended, afterLine]
      exact spoiled_connectionLost running

/-! ## Single commands -/

theorem Running.ask (running : Running env base first session)
    (idle : ¬ Busy env first session) (command : Str) (intent : DownloadIntent)
    (result : FetchResult) :
    Running env base first (captured command intent result session) ∧
      ¬ Busy env first (captured command intent result session) := by
  have same := foreground_captured command intent result session
  have emits : Emits env session (captured command intent result session) [] [] [] :=
    .of_console (console_captured ..)
  exact ⟨running.emits emits plain_nil ((congrArg (·.1) same).trans running.tidy.unsuppressed)
      ((congrArg (·.2.1) same).trans running.connected),
    idle_emits idle running.early emits (congrArg (·.2.2) same) rfl fun _ => rfl⟩

def DownloadSettles (env : Env) (command : Str) (intent : DownloadIntent)
    (session : Session) : Prop :=
  match fetchStarted env command intent session with
  | none => False
  | some .pending => ¬ AsksLate env session
  | some (.failed _) => True
  | some (.fired result) => ¬ AsksLate env (captured command intent result session)

theorem lineSettles_download {intent : DownloadIntent}
    (routed : route env (lineRenderer env command) command session = .download intent) :
    LineSettles env command session ↔
      DownloadSettles env command intent (applyInputMutations command session) := by
  simp only [LineSettles, routed, DownloadSettles]
  exact Iff.rfl

theorem settled_beginFetch {intent : DownloadIntent} (running : Running env base first session)
    (idle : ¬ Busy env first session) (settles : DownloadSettles env command intent session) :
    (beginFetch env command intent session).2 = .handled true ∧
      Settled env base first (beginFetch env command intent session).1 := by
  have foreground : (beginFetch env command intent session).1.foreground = session.foreground :=
    congrArg (fun view : ShellView => (view.suppressPrompt, view.connected, view.program))
      (shell_beginFetch env command session intent)
  have effect := beginFetch_effect env command intent session
  generalize beginFetch env command intent session = outcome at effect foreground
  cases effect with
  | raised next rejected emits => simp only [DownloadSettles, rejected] at settles
  | waiting next started emits uncounted =>
      simp only [DownloadSettles, started] at settles
      refine ⟨rfl, .of_owed running idle emits plain_nil rfl (fun _ => rfl) (fun late => ?_)
        foreground⟩
      refine ⟨by simp, fun _ _ _ => uncounted.trans ?_⟩
      exact (Bool.not_eq_false _).mp fun asked => settles ⟨late, asked⟩
  | failed next error started emits =>
      exact ⟨rfl, .of_drawn running idle emits plain_nil (fun _ => rfl) foreground⟩
  | fired next result started turned =>
      simp only [DownloadSettles, started] at settles
      rcases running.ask idle command intent result with ⟨asker, idleAsker⟩
      exact ⟨rfl, .of_turn asker idleAsker settles turned
        (foreground.trans (foreground_captured command intent result session).symm)⟩

theorem settled_dispatchOne (running : Running env base first session)
    (idle : ¬ Busy env first session) (settles : LineSettles env command session) :
    Settled env base first (afterLine (dispatchOne env command session)) := by
  rcases dispatchOne_dispatched env command session with ⟨outcome, dispatched, equal⟩
  rw [equal]
  have mutated := running.applyInputMutations command
  cases dispatched with
  | fast next fast =>
      simp only [LineSettles, route_fast fast] at settles
      rcases tryFastpath_effect fast with ⟨closing, -⟩ | ⟨-, prompted⟩
      · exact absurd closing settles
      · exact .of_prompted running idle prompted (foreground_tryFastpath fast)
  | rendered result slow rendered =>
      exact .of_prompted mutated idle (emitDeterministic_effect result)
        (Session.foreground_of_shell (shell_emitDeterministic ..))
  | program program slow deferred connected enabled started =>
      rcases not_busy.mp idle with ⟨-, nothing, streams⟩
      rcases startProgram_effect env program (applyInputMutations command session) with
        ⟨outputs, added, plain, refresh, emits⟩
      have shell := shell_startProgram env (applyInputMutations command session) program
      have same : (startProgram env program (applyInputMutations command session)).program = _ :=
        congrArg ShellView.program shell
      have started : owed first (startProgram env program (applyInputMutations command session))
          = [] := by
        rw [owed_emits emits mutated.early, owing_onlyRefresh refresh, List.append_nil]
        exact nothing
      have quiet : (startProgram env program (applyInputMutations command session)).streams =
          session.streams := emits.streams.trans (List.append_nil _)
      exact .program (mutated.emits emits plain
        ((congrArg ShellView.suppressPrompt shell).trans running.tidy.unsuppressed)
        ((congrArg ShellView.connected shell).trans running.connected)) (same ▸ rfl) started
        (quiet ▸ streams)
  | download intent slow deferred lined capture parsed =>
      rcases settled_beginFetch mutated idle ((lineSettles_download
        (route_download slow deferred lined capture parsed)).mp settles) with ⟨handled, settled⟩
      simp only [finishOne, handled, afterLine]
      exact settled
  | badUrl raised slow deferred lined capture parsed =>
      simp only [LineSettles, route_badUrl slow deferred lined capture parsed] at settles
  | declined slow deferred lined parsed =>
      simp only [LineSettles, route_model slow deferred lined parsed] at settles
      exact .of_turn mutated idle settles (processCommandWithLlm_effect ..)
        (Session.foreground_of_shell (shell_processCommandWithLlm ..))

theorem spoiled_beginFetch {intent : DownloadIntent} (running : Running env base first session)
    (unsettled : ¬ DownloadSettles env command intent session) :
    Spoiled env base first
      (afterLine (finishOne env command (beginFetch env command intent session))) := by
  have foreground : (beginFetch env command intent session).1.foreground = session.foreground :=
    congrArg (fun view : ShellView => (view.suppressPrompt, view.connected, view.program))
      (shell_beginFetch env command session intent)
  have effect := beginFetch_effect env command intent session
  generalize beginFetch env command intent session = outcome at effect foreground
  have unsuppressed := (congrArg (·.1) foreground).trans running.tidy.unsuppressed
  have connected := (congrArg (·.2.1) foreground).trans running.connected
  cases effect with
  | raised next rejected emits =>
      exact spoiled_connectionLost (running.emits emits plain_nil unsuppressed connected)
  | failed next error started emits => simp [DownloadSettles, started] at unsettled
  | fired next result started turned =>
      simp only [DownloadSettles, started, not_not] at unsettled
      have same := foreground_captured command intent result session
      have noted : Emits env session (captured command intent result session) [] [] [] :=
        .of_console (console_captured ..)
      exact spoiled_of_turn (running.emits noted plain_nil
        ((congrArg (·.1) same).trans running.tidy.unsuppressed)
        ((congrArg (·.2.1) same).trans running.connected)) turned (foreground.trans same.symm)
        (.inr unsettled)
  | waiting next started emits uncounted =>
      simp only [DownloadSettles, started, not_not] at unsettled
      -- The fetch fires, and the model is asked while nothing else is left.
      let result : FetchResult := { outcome := .success, url := [] }
      let number := session.agenda.next
      have waiting := running.emits emits plain_nil unsuppressed connected
      have listed : next.agenda.find? number = some (.fetch command intent) :=
        Agenda.find?_eq_some.mpr (emits.agenda.entries ▸ by simp [number])
      have stepped : step env next (.fetched number (.ok result)) =
          some (onResult env command intent result (next.finish number)) := by
        simp [step, listed]
      have same : (addCaptured intent result (next.finish number)).foreground =
          (next.finish number).foreground :=
        Session.foreground_of_shell (shell_addCaptured ..)
      have noted : Emits env (next.finish number)
          (addCaptured intent result (next.finish number)) [] [] [] :=
        .of_console (console_addCaptured ..)
      have asker := (waiting.finish number).emits noted plain_nil
        ((congrArg (·.1) same).trans unsuppressed) ((congrArg (·.2.1) same).trans connected)
      have own : Event.ofLine first (.fetched number (.ok result)) := running.early
      refine .of_step own stepped (spoiled_of_turn asker
        (processCommandWithLlm_effect env command (some (renderObservation intent result)) _)
        (Session.foreground_of_shell (shell_processCommandWithLlm ..)) (.inr ⟨unsettled.1, ?_⟩))
      rw [refusesTurn_addCaptured]
      exact uncounted.trans unsettled.2

theorem spoiled_dispatchOne (running : Running env base first session)
    (idle : ¬ Busy env first session) (unsettled : ¬ LineSettles env command session) :
    Spoiled env base first (afterLine (dispatchOne env command session)) := by
  rcases dispatchOne_dispatched env command session with ⟨outcome, dispatched, equal⟩
  rw [equal]
  have mutated := running.applyInputMutations command
  cases dispatched with
  | fast next fast =>
      simp only [LineSettles, route_fast fast, not_not] at unsettled
      rcases tryFastpath_effect fast with ⟨-, emits⟩ | ⟨stays, -⟩
      · have same := foreground_tryFastpath fast
        have closing := running.emits emits (plain_loseConnection.visible session)
          ((congrArg (·.1) same).trans running.tidy.unsuppressed)
          ((congrArg (·.2.1) same).trans running.connected)
        rcases closing.plain with ⟨outputs, plain, screen⟩
        rcases not_busy.mp idle with ⟨stopped, nothing, -⟩
        have nothingNext : owed first next = [] := by
          rw [owed_emits emits running.early, nothing]
          rfl
        exact .now (not_drawnOnce_of_over plain screen
          (.inr ⟨(congrArg (·.2.2) same).trans stopped, nothingNext⟩))
      · exact absurd unsettled stays
  | rendered result slow rendered =>
      simp [LineSettles, route_rendered slow rendered] at unsettled
  | program program slow deferred connected enabled started =>
      simp [LineSettles, route_program slow deferred connected enabled started] at unsettled
  | download intent slow deferred lined capture parsed =>
      exact spoiled_beginFetch mutated fun settles => unsettled ((lineSettles_download
        (route_download slow deferred lined capture parsed)).mpr settles)
  | badUrl raised slow deferred lined capture parsed => exact spoiled_connectionLost mutated
  | declined slow deferred lined parsed =>
      simp only [LineSettles, route_model slow deferred lined parsed, not_not] at unsettled
      exact spoiled_of_turn mutated (processCommandWithLlm_effect env command none _)
        (Session.foreground_of_shell (shell_processCommandWithLlm ..)) (.inr unsettled)

/-! ## Lines -/

theorem running_start (tidy : Tidy env session) (connected : session.connected = true)
    (stopped : session.program = none) :
    Running env session.screen session.agenda.next session ∧
      ¬ Busy env session.agenda.next session := by
  refine ⟨{ tidy, connected, early := Nat.le_refl _, plain := ⟨[], plain_nil, by simp⟩ },
    not_busy.mpr ⟨stopped, ?_, fun _ number member => (tidy.live number member).2.1⟩⟩
  rw [owed, Agenda.since_next]
  rfl

theorem receive_settled {line : List UInt8} (tidy : Tidy env session)
    (connected : session.connected = true) (stopped : session.program = none)
    (settles : Settles env line session) :
    Settled env session.screen session.agenda.next (receive env line session) := by
  rcases running_start tidy connected stopped with ⟨start, idleStart⟩
  unfold Settles at settles
  unfold receive lineReceived
  cases decoded : Utf8.decode line with
  | none => simp only [decoded] at settles
  | some string =>
      simp only [decoded, dispatchLine] at settles ⊢
      have emits : Emits env session (session.log (.input string)) [] [] [] :=
        .of_console (Session.console_log ..)
      have running := start.emits emits plain_nil tidy.unsuppressed connected
      have idle := idle_emits idleStart start.early emits rfl rfl fun _ => rfl
      cases chained : chainSegments string with
      | none =>
          simp only [chained] at settles ⊢
          exact settled_dispatchOne running idle settles
      | some segments =>
          simp only [chained] at settles ⊢
          rcases settled_finishChain (running_chainLoop running true segments)
            ((leavesPrompt_chainLoop running true segments).mpr ⟨idle, settles⟩) with
            ⟨returned, settled⟩
          unfold dispatchChain
          generalize finishChain env _ = outcome at returned settled
          rcases outcome with ⟨next, ending⟩
          cases returned
          exact settled

theorem receive_spoiled {line : List UInt8} (tidy : Tidy env session)
    (connected : session.connected = true) (stopped : session.program = none)
    (unsettled : ¬ Settles env line session) :
    Spoiled env session.screen session.agenda.next (receive env line session) := by
  rcases running_start tidy connected stopped with ⟨start, idleStart⟩
  unfold Settles at unsettled
  unfold receive lineReceived
  cases decoded : Utf8.decode line with
  | none => exact spoiled_connectionLost start
  | some string =>
      simp only [decoded, dispatchLine] at unsettled ⊢
      have emits : Emits env session (session.log (.input string)) [] [] [] :=
        .of_console (Session.console_log ..)
      have running := start.emits emits plain_nil tidy.unsuppressed connected
      have idle := idle_emits idleStart start.early emits rfl rfl fun _ => rfl
      cases chained : chainSegments string with
      | none =>
          simp only [chained] at unsettled ⊢
          exact spoiled_dispatchOne running idle unsettled
      | some segments =>
          simp only [chained] at unsettled ⊢
          refine spoiled_finishChain (running_chainLoop running true segments) fun leaves => ?_
          exact unsettled ((leavesPrompt_chainLoop running true segments).mp leaves).2

/-- A line draws one prompt, behind its output and never over a program, in whatever
order its completions arrive, exactly when it settles. -/
theorem one_prompt_iff (env : Env) (line : List UInt8) (session : Session)
    (reachable : Reachable env session) (connected : session.connected = true)
    (stopped : session.program = none) :
    OnePrompt env line session ↔ Settles env line session := by
  constructor
  · intro once
    by_contra unsettled
    rcases receive_spoiled reachable.tidy connected stopped unsettled with
      ⟨events, final, own, ran, spoiled⟩
    exact spoiled (once events final own ran)
  · intro settles events final own ran
    exact ((receive_settled reachable.tidy connected stopped settles).run own ran).drawnOnce

theorem one_prompt_iff_example :
    OnePrompt .pending makeLine atPrompt ↔ Settles .pending makeLine atPrompt :=
  one_prompt_iff .pending makeLine atPrompt (reachable_atPrompt .pending) rfl rfl

def editThenPwd : List UInt8 := [0x76, 0x69, 0x20, 0x66, 0x3B, 0x20, 0x70, 0x77, 0x64]

/-- The end of a chain draws its prompt over the editor that a segment opened. -/
theorem prompt_over_editor :
    ¬ ∀ (env : Env) (line : List UInt8) (session : Session), Reachable env session →
      session.connected = true → session.program = none → OnePrompt env line session := by
  intro all
  have once := all .pending editThenPwd atPrompt (reachable_atPrompt .pending) rfl rfl [] _
    (by simp) rfl
  let drawn := (receive .pending editThenPwd atPrompt).screen
  have screen : drawn = atPrompt.screen ++
      ((drawn.drop 1).dropLast ++ .prompt "root@h:/# ".toList true :: []) := by rfl
  exact not_drawnOnce_of_prompt screen (.inl rfl) once

end Protocol

end LlmHoneypot
