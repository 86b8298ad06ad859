import LlmHoneypot.Protocol.Talk

/-! # The conversation with the model

The history is a list of marked lines, of which a request holds the last ones. When
such a request is a conversation that a provider accepts. -/

namespace LlmHoneypot

namespace Protocol

variable {env : Env} {session next : Session} {command : Str} {observation : Option Str}

/-! ## History -/

inductive Entry : Str → Prop
  | user (text : Str) (visible : Text.strip text ≠ []) : Entry ("User: ".toList ++ text)
  | system (text : Str) : Entry ("System: ".toList ++ text)

theorem entries_begin {history : List Str} (entries : ∀ entry ∈ history, Entry entry)
    (visible : Text.strip (userMessage command observation) ≠ []) :
    ∀ entry ∈ history ++ ["User: ".toList ++ userMessage command observation],
      Entry entry := by
  intro entry member
  rcases List.mem_append.mp member with old | new
  · exact entries entry old
  · rw [List.mem_singleton.mp new]
    exact .user _ visible

theorem entries_answer {history : List Str} (entries : ∀ entry ∈ history, Entry entry)
    (response : Str) : ∀ entry ∈ history ++ answerEntries env response, Entry entry := by
  intro entry member
  rcases List.mem_append.mp member with old | new
  · exact entries entry old
  · unfold answerEntries at new
    split at new
    · cases new
    · rw [List.mem_singleton.mp new]
      exact .system _

theorem entries_talks (entries : ∀ entry ∈ session.modelSide.history, Entry entry)
    (talks : Talks env session next) : ∀ entry ∈ next.modelSide.history, Entry entry := by
  induction talks with
  | quiet same => exact same ▸ entries
  | finished number same => exact same ▸ entries
  | claimed command answer same => exact same ▸ entries
  | refused refused same => exact same ▸ entries
  | gone command observation visible asked same => exact same ▸ entries_begin entries visible
  | waiting command observation visible asked turn named same =>
      exact same ▸ entries_begin entries visible
  | fired command observation visible asked number request answer answered same =>
      exact same ▸ entries_answer (entries_begin entries visible) answer.response
  | failed command observation visible asked same => exact same ▸ entries_begin entries visible
  | trans first second inductionFirst inductionSecond =>
      exact inductionSecond (inductionFirst entries)

theorem entries_step {event : Event} (clear : session.pendingClaim = [])
    (entries : ∀ entry ∈ session.modelSide.history, Entry entry)
    (stepped : step env session event = some next) :
    ∀ entry ∈ next.modelSide.history, Entry entry := by
  cases heard_step clear stepped with
  | talked other talks => exact entries_talks entries talks
  | answered number turn answer waiting connected same =>
      exact same ▸ entries_answer entries answer.response
  | unheard number turn answer waiting gone same => exact same ▸ entries

theorem entries_of_reachable (reachable : Reachable env session) :
    ∀ entry ∈ session.commandHistory, Entry entry := by
  rcases reachable with ⟨start, events, initial, ran⟩
  have fresh : ∀ entry ∈ start.modelSide.history, Entry entry := by
    rcases initial with ⟨loginUser, hostname, clock, rfl⟩
    intro entry member
    cases member
  have kept := EventRun.run_invariant
    (fun session =>
      session.pendingClaim = [] ∧ ∀ entry ∈ session.modelSide.history, Entry entry)
    (fun held stepped => ⟨pendingClaim_step held.1 stepped,
      entries_step held.1 held.2 stepped⟩)
    ⟨pendingClaim_of_initial initial, fresh⟩ ran
  exact kept.2

/-! ## Messages -/

theorem toMessage_user (text : Str) :
    toMessage ("User: ".toList ++ text) = some ⟨.user, Text.strip text⟩ := by
  have stripped : Text.strip (' ' :: text) = Text.strip text := rfl
  rw [← stripped]
  rfl

theorem toMessage_system (text : Str) :
    toMessage ("System: ".toList ++ text) = some ⟨.assistant, Text.strip text⟩ := by
  have stripped : Text.strip (' ' :: text) = Text.strip text := rfl
  rw [← stripped]
  rfl

def isAnswer (entry : Str) : Bool := "System:".toList.isPrefixOf entry

/-- An answer of which nothing is left but blanks. -/
def isBlankAnswer (entry : Str) : Bool :=
  isAnswer entry && (Text.strip (entry.drop "System:".toList.length)).isEmpty

theorem Entry.message {entry : Str} (entry_ : Entry entry) :
    ∃ message, toMessage entry = some message ∧
      (message.role = .assistant ↔ isAnswer entry = true) ∧
      (message.content = [] ↔ isBlankAnswer entry = true) := by
  cases entry_ with
  | user text visible =>
      refine ⟨_, toMessage_user text, ?_, ?_⟩
      · simp [isAnswer]
      · simp [isBlankAnswer, isAnswer, visible]
  | system text =>
      refine ⟨_, toMessage_system text, ?_, ?_⟩
      · simp [isAnswer]
      · have blank : isBlankAnswer ("System: ".toList ++ text) = (Text.strip text).isEmpty := rfl
        rw [blank, List.isEmpty_iff]

theorem dropWhile_messages {history : List Str} (entries : ∀ entry ∈ history, Entry entry) :
    (history.filterMap toMessage).dropWhile (·.role = .assistant) =
      (history.dropWhile isAnswer).filterMap toMessage := by
  induction history with
  | nil => rfl
  | cons entry rest induction =>
      have later := induction fun other member => entries other (List.mem_cons_of_mem _ member)
      rcases (entries entry (List.mem_cons_self ..)).message with ⟨message, read, role, -⟩
      rw [List.filterMap_cons_some read]
      by_cases answer : isAnswer entry = true
      · rw [List.dropWhile_cons_of_pos (by simpa using role.mpr answer),
          List.dropWhile_cons_of_pos answer]
        exact later
      · rw [List.dropWhile_cons_of_neg (by simpa using fun is => answer (role.mp is)),
          List.dropWhile_cons_of_neg answer, List.filterMap_cons_some read]

/-! ## Requests -/

/-- The entries before a new command that its request holds. -/
def keptEntries (window : Int) (history : List Str) : List Str :=
  (history.rtake (window.toNat - 1)).dropWhile isAnswer

theorem requestMessages_eq {window : Int} (positive : 0 < window) {history : List Str}
    (entries : ∀ entry ∈ history, Entry entry) (text : Str) :
    requestMessages window (history ++ ["User: ".toList ++ text]) =
      (keptEntries window history).filterMap toMessage ++ [⟨.user, Text.strip text⟩] := by
  have turns : lastTurns window (history ++ ["User: ".toList ++ text]) =
      history.rtake (window.toNat - 1) ++ ["User: ".toList ++ text] := by
    have size : window.toNat = window.toNat - 1 + 1 := by omega
    rw [lastTurns, if_pos positive, ← List.rtake_concat_succ, ← size]
    rfl
  have recent : ∀ entry ∈ history.rtake (window.toNat - 1), Entry entry :=
    fun entry member => entries entry (List.mem_of_mem_drop member)
  rw [requestMessages, turns, List.filterMap_append, List.dropWhile_append,
    dropWhile_messages recent]
  rw [show ["User: ".toList ++ text].filterMap toMessage = [⟨.user, Text.strip text⟩] from by
    rw [List.filterMap_cons_some (toMessage_user text)]
    rfl]
  split
  · rename_i nothing
    rw [keptEntries, List.isEmpty_iff.mp nothing]
    rfl
  · rfl

/-- A conversation that a provider accepts and that ends in the given message. -/
structure ValidRequest (window : Int) (message : Str) (request : LLMRequest) : Prop where
  nonempty : request.messages ≠ []
  first : ∀ first, request.messages.head? = some first → first.role = .user
  last : request.messages.getLast? = some ⟨.user, message⟩
  fits : (request.messages.length : Int) ≤ window
  contents : ∀ message ∈ request.messages, message.content ≠ []

theorem head_keptEntries {window : Int} {history : List Str}
    (entries : ∀ entry ∈ history, Entry entry) {first : LLMMessage} {rest : List LLMMessage}
    (kept : (keptEntries window history).filterMap toMessage = first :: rest) :
    first.role = .user := by
  have recent : ∀ entry ∈ history.rtake (window.toNat - 1), Entry entry :=
    fun entry member => entries entry (List.mem_of_mem_drop member)
  rw [keptEntries, ← dropWhile_messages recent] at kept
  have nonempty : ((history.rtake (window.toNat - 1)).filterMap toMessage).dropWhile
      (·.role = .assistant) ≠ [] := by
    rw [kept]
    simp
  have head := List.head_dropWhile_not (fun message : LLMMessage => message.role = .assistant)
    nonempty
  simp only [kept, List.head_cons, decide_eq_false_iff_not] at head
  cases role : first.role with
  | user => rfl
  | assistant => exact absurd role head

theorem length_keptEntries {window : Int} (positive : 0 < window) (history : List Str) :
    (((keptEntries window history).filterMap toMessage).length : Int) + 1 ≤ window := by
  have messages := List.length_filterMap_le toMessage (keptEntries window history)
  have dropped : (keptEntries window history).length ≤
      (history.rtake (window.toNat - 1)).length :=
    (List.dropWhile_sublist _).length_le
  have taken : (history.rtake (window.toNat - 1)).length ≤ window.toNat - 1 := by
    simp only [List.rtake, List.length_drop]
    omega
  omega

/-- The request for a command is valid exactly when the window is positive and no
answer among the entries it keeps is blank. -/
theorem request_valid_iff (env : Env) (session : Session) (reachable : Reachable env session)
    (command : Str) (observation : Option Str)
    (visible : Text.strip (userMessage command observation) ≠ []) :
    ValidRequest env.config.historyWindowTurns (Text.strip (userMessage command observation))
        (buildRequest env (asking command observation session)) ↔
      0 < env.config.historyWindowTurns ∧
        ∀ entry ∈ keptEntries env.config.historyWindowTurns session.commandHistory,
          isBlankAnswer entry = false := by
  have entries := entries_of_reachable reachable
  by_cases positive : 0 < env.config.historyWindowTurns
  · have messages : (buildRequest env (asking command observation session)).messages = _ :=
      requestMessages_eq positive entries (userMessage command observation)
    have kept : ∀ entry ∈ keptEntries env.config.historyWindowTurns session.commandHistory,
        Entry entry := by
      intro entry member
      exact entries entry (List.mem_of_mem_drop ((List.dropWhile_sublist _).mem member))
    constructor
    · intro valid
      refine ⟨positive, fun entry member => ?_⟩
      rcases (kept entry member).message with ⟨message, read, -, blank⟩
      have listed : message ∈ (buildRequest env (asking command observation session)).messages := by
        rw [messages]
        exact List.mem_append_left _ (List.mem_filterMap.mpr ⟨entry, member, read⟩)
      rw [Bool.eq_false_iff]
      exact fun is => valid.contents message listed (blank.mpr is)
    · rintro ⟨-, answers⟩
      refine ⟨by simp [messages], ?_, by simp [messages], ?_, ?_⟩
      · intro first head
        rw [messages] at head
        cases list : (keptEntries env.config.historyWindowTurns
            session.commandHistory).filterMap toMessage with
        | nil =>
            rw [list] at head
            cases head
            rfl
        | cons message rest =>
            rw [list] at head
            cases head
            exact head_keptEntries entries list
      · have size := length_keptEntries positive session.commandHistory
        rw [messages, List.length_append]
        simpa using size
      · intro message member
        rw [messages] at member
        rcases List.mem_append.mp member with old | new
        · rcases List.mem_filterMap.mp old with ⟨entry, entryMember, read⟩
          rcases (kept entry entryMember).message with ⟨other, readToo, -, blank⟩
          cases read.symm.trans readToo
          intro nothing
          have is := blank.mp nothing
          rw [answers entry entryMember] at is
          cases is
        · rw [List.mem_singleton.mp new]
          exact visible
  · constructor
    · intro valid
      have size := valid.fits
      have nonempty := List.length_pos_iff.mpr valid.nonempty
      omega
    · intro accepted
      exact absurd accepted.1 positive

def afterAnswer : Session := (EventRun.run (step .pending) atPrompt
  [.line makeLine, .answered 0 (.ok ⟨"ok".toList, none⟩)]).getD atPrompt

/-- The request of a second command, after an answer. -/
theorem request_valid_iff_example :
    ValidRequest 16 "make".toList
        (buildRequest .pending (asking "make".toList none afterAnswer)) ∧
      afterAnswer.commandHistory.length = 2 := by
  have reachable : Reachable .pending afterAnswer :=
    ⟨atPrompt, [.line makeLine, .answered 0 (.ok ⟨"ok".toList, none⟩)], ⟨_, _, _, rfl⟩, rfl⟩
  apply And.intro _ (by decide)
  apply (request_valid_iff .pending afterAnswer reachable "make".toList none (by decide)).mpr
  exact ⟨by decide, by decide⟩

/-- An answer of a bare code fence is kept as an empty message. -/
theorem fence_answer_invalidates :
    ¬ ∀ env session command, Reachable env session → Text.strip command ≠ [] →
      ValidRequest env.config.historyWindowTurns (Text.strip command)
        (buildRequest env (asking command none session)) := by
  intro all
  have reachable : Reachable .pending _ :=
    ⟨atPrompt, [.line makeLine, .answered 0 (.ok ⟨"```".toList, none⟩)], ⟨_, _, _, rfl⟩, rfl⟩
  have valid := all .pending _ "make".toList reachable (by decide)
  exact valid.contents ⟨.assistant, []⟩ (by decide) rfl

/-! ## Speakers -/

/-- The lines of the history are read as the messages that were said, each as its speaker's. -/
def ReadBack (side : ModelSide) : Prop :=
  side.history.map toMessage =
    side.spoken.map fun message => some { message with content := Text.strip message.content }

theorem readBack_begin {side : ModelSide} (readBack : ReadBack side) (command : Str)
    (observation : Option Str) : ReadBack (side.begin command observation) := by
  simp only [ReadBack, ModelSide.begin, ModelSide.count, List.map_append, List.map_singleton,
    toMessage_user]
  exact congrArg (· ++ _) readBack

theorem readBack_answer {side : ModelSide} (readBack : ReadBack side) (answered : Str)
    (answer : Answer) : ReadBack (side.answer env answered answer) := by
  simp only [ReadBack, ModelSide.answer, ModelSide.spend, answerEntries, answerMessages,
    List.map_append]
  split
  · simp only [List.map_nil, List.append_nil]
    exact readBack
  · rw [List.map_singleton, List.map_singleton, toMessage_system]
    exact congrArg (· ++ _) readBack

theorem readBack_talks (readBack : ReadBack session.modelSide) (talks : Talks env session next) :
    ReadBack next.modelSide := by
  induction talks with
  | quiet same => exact same ▸ readBack
  | finished number same => exact same ▸ readBack
  | claimed command answer same => exact same ▸ readBack
  | refused refused same => exact same ▸ readBack
  | gone command observation visible asked same => exact same ▸ readBack_begin readBack ..
  | waiting command observation visible asked turn named same =>
      exact same ▸ readBack_begin readBack ..
  | @fired session _ command observation visible asked number request answer answered same =>
      have begun : ReadBack (session.modelSide.begin command observation).start :=
        readBack_begin readBack command observation
      exact same ▸ readBack_answer begun command answer
  | failed command observation visible asked same => exact same ▸ readBack_begin readBack ..
  | trans first second inductionFirst inductionSecond =>
      exact inductionSecond (inductionFirst readBack)

theorem readBack_step {event : Event} (clear : session.pendingClaim = [])
    (readBack : ReadBack session.modelSide) (stepped : step env session event = some next) :
    ReadBack next.modelSide := by
  cases heard_step clear stepped with
  | talked other talks => exact readBack_talks readBack talks
  | answered number turn answer waiting connected same =>
      have finished : ReadBack (session.modelSide.finish number) := readBack
      exact same ▸ readBack_answer finished turn.command answer
  | unheard number turn answer waiting gone same => exact same ▸ readBack

/-- In every run from a new session the lines of the history are read, one message a line,
as what was said to the model and what it answered, with the speakers kept. -/
theorem always_messages (env : Env) (loginUser hostname : Str) (clock : Nat)
    (events : List Event) :
    EventRun.Always (step env)
      (fun session => session.commandHistory.map toMessage = session.spoken.map fun message =>
        some { message with content := Text.strip message.content })
      (Session.showPrompt 0 0 { loginUser, hostname, clock }) events := by
  have start : ReadBack
      (Session.showPrompt 0 0 { loginUser, hostname, clock }).modelSide := rfl
  apply EventRun.Always.mono ?_ (EventRun.always_of_invariant
    (fun session => session.pendingClaim = [] ∧ ReadBack session.modelSide)
    (fun held stepped => ⟨pendingClaim_step held.1 stepped,
      readBack_step held.1 held.2 stepped⟩)
    ⟨pendingClaim_of_initial ⟨_, _, _, rfl⟩, start⟩ events)
  exact fun held => held.2

end Protocol

end LlmHoneypot
