import LlmHoneypot.Protocol.OnePrompt

/-! # The transcript

Lines that are submitted one after the other, each when nothing of the one before it
is outstanding, and what the terminal shows of them. -/

namespace LlmHoneypot

namespace Protocol

open CmdChain Downloader Interactive Responder

variable {env : Env} {session next : Session} {base : List Output} {first : Nat}

/-! ## Pacing -/

/-- Nothing is outstanding: no task, no program, no stream that can go on. -/
def Idle (env : Env) (session : Session) : Prop :=
  session.agenda.entries = [] ∧ session.program = none ∧ (Late env → session.streams = [])

def Event.isCompletion : Event → Bool
  | .line _ => false
  | .connectionLost => false
  | _ => true

/-- A line and the events up to the next one. -/
structure Exchange where
  line : List UInt8
  events : List Event

def Exchange.all (exchange : Exchange) : List Event := .line exchange.line :: exchange.events

def eventsOf (exchanges : List Exchange) : List Event := exchanges.flatMap Exchange.all

/-- Every line settles, and it is over before the next one is submitted. -/
def Paced (env : Env) : Session → List Exchange → Prop
  | _, [] => True
  | session, exchange :: rest =>
      Settles env exchange.line session ∧
        (∀ event ∈ exchange.events, event.isCompletion = true) ∧
        ∀ next, runEvents env session exchange.all = some next →
          Idle env next ∧ Paced env next rest

/-- Output followed by one prompt of the shell. -/
def Block (block : List Output) : Prop :=
  ∃ outputs text, Plain outputs ∧ block = outputs ++ [.prompt text false]

/-! ## The tasks of the current line -/

/-- Every task and every stream that can go on began after the line did. -/
structure Fresh (env : Env) (first : Nat) (session : Session) : Prop where
  early : first ≤ session.agenda.next
  tasks : ∀ entry ∈ session.agenda.entries, first ≤ entry.1
  live : Late env → ∀ number ∈ session.streams, first ≤ number

namespace Fresh

theorem of_idle (idle : Idle env session) : Fresh env session.agenda.next session :=
  ⟨Nat.le_refl _, by simp [idle.1], fun late => by simp [idle.2.2 late]⟩

theorem emits {outputs : List Output} {added : List (Nat × Task)} {live : List Nat}
    (fresh : Fresh env first session) (emits : Emits env session next outputs added live) :
    Fresh env first next where
  early := Nat.le_trans fresh.early emits.agenda.next
  tasks := by
    intro entry member
    rcases List.mem_append.mp (emits.agenda.entries ▸ member) with old | new
    · exact fresh.tasks entry old
    · exact Nat.le_trans fresh.early (emits.agenda.fresh entry new)
  live := by
    intro late number member
    rcases List.mem_append.mp (emits.streams ▸ member) with old | new
    · exact fresh.live late number old
    · exact Nat.le_trans fresh.early (emits.live number new).2.1

theorem finish (fresh : Fresh env first session) (number : Nat) :
    Fresh env first (session.finish number) :=
  ⟨fresh.early, fun entry member => fresh.tasks entry (List.mem_of_mem_filter member),
    fresh.live⟩

theorem progress (fresh : Fresh env first session) (progress : Progress env session next) :
    Fresh env first next := by
  induction progress with
  | orderly orderly =>
      rcases orderly with ⟨⟨outputs, added, live, emits⟩, -⟩
      exact fresh.emits emits
  | finish session number => exact fresh.finish number
  | cancelRefresh session =>
      unfold Session.cancelRefresh
      split
      · have finished := fresh.finish ‹Nat›
        exact ⟨finished.early, finished.tasks, finished.live⟩
      · exact fresh
  | drop session program connected => exact ⟨fresh.early, fresh.tasks, fresh.live⟩
  | trans first second inductionFirst inductionSecond =>
      exact inductionSecond (inductionFirst fresh)

theorem ofLine {event : Event} (fresh : Fresh env first session) (tidy : Tidy env session)
    (completion : event.isCompletion = true) (stepped : step env session event = some next) :
    event.ofLine first := by
  have known {number : Nat} {task : Task}
      (listed : session.agenda.find? number = some task) : first ≤ number :=
    fresh.tasks _ (Agenda.find?_eq_some.mp listed)
  cases stepped_of_step stepped with
  | line => cases completion
  | connectionLost => cases completion
  | key => trivial
  | elapsed => trivial
  | prompt task leastMs mostMs listed => exact known listed
  | refresh task listed => exact known listed
  | fetched task command intent result listed => exact known listed
  | unfetched task command intent error listed => exact known listed
  | answered task turn answer listed => exact known listed
  | failed task turn error listed => exact known listed
  | chunk task text open_ outstanding =>
      rcases outstanding with late | outstanding
      · exact fresh.live ⟨late, (tidy.live task open_).1⟩ task open_
      · exact known (Option.isSome_iff_exists.mp outstanding).choose_spec

end Fresh

/-! ## Exchanges -/

theorem settled_completions {events : List Event} {final : Session}
    (settled : Settled env base first session) (fresh : Fresh env first session)
    (completions : ∀ event ∈ events, event.isCompletion = true)
    (ran : runEvents env session events = some final) : Settled env base first final := by
  induction events generalizing session with
  | nil =>
      cases ran
      exact settled
  | cons event events induction =>
      rcases EventRun.run_cons.mp ran with ⟨next, stepped, ranOn⟩
      have own := fresh.ofLine settled.tidy (completions event (by simp)) stepped
      exact induction (settled.step own stepped) (fresh.progress (.step stepped))
        (fun other member => completions other (by simp [member])) ranOn

theorem Settled.block (settled : Settled env base first session) (idle : Idle env session) :
    ∃ block, Block block ∧ session.screen = base ++ block := by
  cases settled with
  | owes running number task stopped owes =>
      have member : (number, task) ∈ owed first session := by simp [owes]
      have entry := (mem_owed.mp member).1
      rw [idle.1] at entry
      cases entry
  | program running started => simp [idle.2.1] at started
  | drawn ongoing _ outputs plain text screen =>
      exact ⟨_, ⟨outputs, text, plain, rfl⟩, screen.trans (List.append_assoc ..)⟩

theorem exchange_block {exchange : Exchange} (tidy : Tidy env session)
    (connected : session.connected = true) (idle : Idle env session)
    (settles : Settles env exchange.line session)
    (completions : ∀ event ∈ exchange.events, event.isCompletion = true)
    (ran : runEvents env session exchange.all = some next) (idleNext : Idle env next) :
    Tidy env next ∧ next.connected = true ∧
      ∃ block, Block block ∧ next.screen = session.screen ++ block := by
  rcases EventRun.run_cons.mp ran with ⟨received, stepped, ranOn⟩
  have fresh := (Fresh.of_idle idle).progress (.step stepped)
  have settled := receive_settled tidy connected idle.2.1 settles
  have isReceived : receive env exchange.line session = received := by
    simp only [step, Option.ite_none_right_eq_some, Option.some.injEq] at stepped
    exact stepped.2
  rw [isReceived] at settled
  have final := settled_completions settled fresh completions ranOn
  exact ⟨final.tidy, final.ongoing.connected, final.block idleNext⟩

theorem paced_blocks {exchanges : List Exchange} {final : Session} (tidy : Tidy env session)
    (connected : session.connected = true) (idle : Idle env session)
    (paced : Paced env session exchanges)
    (ran : runEvents env session (eventsOf exchanges) = some final) :
    ∃ blocks : List (List Output), blocks.length = exchanges.length ∧
      (∀ block ∈ blocks, Block block) ∧
      ∀ count middle, runEvents env session (eventsOf (exchanges.take count)) = some middle →
        middle.screen = session.screen ++ (blocks.take count).flatten := by
  induction exchanges generalizing session with
  | nil =>
      refine ⟨[], rfl, by simp, fun count middle ranHere => ?_⟩
      rw [List.take_nil] at ranHere
      cases ranHere
      simp
  | cons exchange rest induction =>
      have split (later : List Exchange) (end_ : Session) :
          runEvents env session (eventsOf (exchange :: later)) = some end_ ↔
            ∃ next, runEvents env session exchange.all = some next ∧
              runEvents env next (eventsOf later) = some end_ := by
        rw [eventsOf, List.flatMap_cons, runEvents, EventRun.run_append,
          Option.bind_eq_some_iff]
        rfl
      rcases (split rest final).mp ran with ⟨next, ranHere, ranOn⟩
      rcases paced with ⟨settles, completions, paces⟩
      rcases paces next ranHere with ⟨idleNext, pacedNext⟩
      rcases exchange_block tidy connected idle settles completions ranHere idleNext with
        ⟨tidyNext, connectedNext, block, isBlock, screen⟩
      rcases induction tidyNext connectedNext idleNext pacedNext ranOn with
        ⟨blocks, lengths, areBlocks, screens⟩
      refine ⟨block :: blocks, by simp [lengths], ?_, fun count middle ranTo => ?_⟩
      · intro other member
        rcases List.mem_cons.mp member with rfl | member
        · exact isBlock
        · exact areBlocks other member
      · cases count with
        | zero =>
            cases ranTo
            simp
        | succ count =>
            rcases (split (rest.take count) middle).mp ranTo with ⟨between, ranBetween, ranLater⟩
            cases ranHere.symm.trans ranBetween
            rw [screens count middle ranLater, screen]
            simp

/-- Lines that are each over before the next one is submitted appear in order: the
output of a line, its prompt, the output of the next. -/
theorem transcript_in_order (env : Env) (session final : Session) (exchanges : List Exchange)
    (reachable : Reachable env session) (connected : session.connected = true)
    (idle : Idle env session) (paced : Paced env session exchanges)
    (ran : runEvents env session (eventsOf exchanges) = some final) :
    ∃ blocks : List (List Output), blocks.length = exchanges.length ∧
      (∀ block ∈ blocks, Block block) ∧
      ∀ count middle, runEvents env session (eventsOf (exchanges.take count)) = some middle →
        middle.screen = session.screen ++ (blocks.take count).flatten :=
  paced_blocks reachable.tidy connected idle paced ran

def pwdLine : List UInt8 := [0x70, 0x77, 0x64]

def clearLine : List UInt8 := [0x63, 0x6C, 0x65, 0x61, 0x72]

def unhurried : List Exchange := [⟨pwdLine, [.prompt 0]⟩, ⟨clearLine, [.prompt 1]⟩]

theorem paced_unhurried : Paced .pending atPrompt unhurried := by
  have stays (command : Str) {session : Session}
      (other : fastVerb? (Text.firstWord (Text.strip command)) ≠ some .leave) :
      ¬ closes command session := fun closing => other closing.1
  refine ⟨stays "pwd".toList (by decide), by decide, fun next ran => ?_⟩
  cases ran
  refine ⟨⟨rfl, rfl, fun _ => rfl⟩, stays "clear".toList (by decide), by decide,
    fun next ran => ?_⟩
  cases ran
  exact ⟨⟨rfl, rfl, fun _ => rfl⟩, trivial⟩

theorem transcript_in_order_example :
    ∃ final, runEvents .pending atPrompt (eventsOf unhurried) = some final ∧
      ∃ blocks : List (List Output), blocks.length = unhurried.length ∧
        (∀ block ∈ blocks, Block block) ∧
        ∀ count middle,
          runEvents .pending atPrompt (eventsOf (unhurried.take count)) = some middle →
          middle.screen = atPrompt.screen ++ (blocks.take count).flatten :=
  ⟨_, rfl, transcript_in_order .pending atPrompt _ unhurried (reachable_atPrompt _) rfl
    ⟨rfl, rfl, fun _ => rfl⟩ paced_unhurried rfl⟩

/-- Two lines that are pasted: the output of the second stands before the prompt of
the first, which is still delayed. -/
theorem pasted_lines_interleave :
    let pasted := (runEvents .pending atPrompt
      [.line pwdLine, .line clearLine, .prompt 0, .prompt 1]).map (·.screen)
    let prompt : Output := .prompt "root@h:/# ".toList false
    let output := .text "/\n".toList
    pasted = some (atPrompt.screen ++ [output, .eraseDisplay, .cursorHome, prompt, prompt]) ∧
      pasted ≠ some (atPrompt.screen ++ [output, prompt, .eraseDisplay, .cursorHome, prompt]) :=
  ⟨rfl, by decide⟩

end Protocol

end LlmHoneypot
