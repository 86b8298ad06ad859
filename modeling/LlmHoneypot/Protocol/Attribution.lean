import LlmHoneypot.Protocol.Talk

/-! # Claims and their commands

An answer is recorded under the last command sent to the model, whichever command it
answers. -/

namespace LlmHoneypot

namespace Protocol

open Downloader

variable {env : Env} {session next : Session}

def ClaimRecord.Correct (record : ClaimRecord) : Prop :=
  record.named = Text.strip record.answered

/-- Every record of the session names the command whose answer it keeps. -/
def Attributed (session : Session) : Prop := ∀ record ∈ session.records, record.Correct

def keepsFact (env : Env) (command response : Str) : Bool :=
  env.config.factLedger && response ≠ [] && (cleanResponse env response).1 ≠ [] &&
    (env.factFamily command).any (· ≠ [])

/-- An answer arrives while its command is the last one sent to the model, or no fact
of it is kept. -/
def AnswersLast (env : Env) (session : Session) : Event → Prop
  | .answered number (.ok answer) => ∀ turn,
      session.agenda.find? number = some (.model turn) → session.connected = true →
      keepsFact env session.lastLlmCommand answer.response = true →
      Text.strip session.lastLlmCommand = Text.strip turn.command
  | _ => True

/-! ## Records of one answer -/

theorem correct_recordsFor (env : Env) (command answer : Str) (source : ClaimSource) :
    ∀ record ∈ recordsFor env command command answer source, record.Correct := by
  intro record member
  unfold recordsFor at member
  split at member
  · cases member
  · split at member
    · cases member
    · split at member
      · cases member
      · rw [List.mem_singleton.mp member]
        rfl

theorem correct_answerRecords_iff (answered command response : Str) :
    (∀ record ∈ answerRecords env answered command response, record.Correct) ↔
      (keepsFact env command response = true → Text.strip command = Text.strip answered) := by
  by_cases silent : response = []
  · simp [answerRecords, keepsFact, silent]
  by_cases blank : (cleanResponse env response).1 = []
  · simp [answerRecords, recordsFor_nil, keepsFact, silent, blank]
  cases ledger : env.config.factLedger with
  | false => simp [answerRecords, recordsFor, keepsFact, ledger]
  | true =>
      cases family : env.factFamily command with
      | none => simp [answerRecords, recordsFor, keepsFact, family]
      | some key =>
          by_cases keyless : key = []
          · simp [answerRecords, recordsFor, keepsFact, family, keyless]
          · simp [answerRecords, recordsFor, keepsFact, silent, blank, ledger, family, keyless,
              ClaimRecord.Correct]

/-! ## Steps -/

theorem Talks.attributed_iff (talks : Talks env session next) :
    Attributed next ↔ Attributed session := by
  have records : (∀ record ∈ next.modelSide.records, record.Correct) ↔
      ∀ record ∈ session.modelSide.records, record.Correct := by
    induction talks with
    | quiet same => rw [same]
    | finished number same => rw [same]; rfl
    | claimed command answer same =>
        rw [same]
        have correct := correct_recordsFor env command answer .deterministic
        simp only [ModelSide.record, List.forall_mem_append]
        exact and_iff_left correct
    | refused refused same => rw [same]; rfl
    | gone command observation visible asked same => rw [same]; rfl
    | waiting command observation visible asked turn named same => rw [same]; rfl
    | fired command observation visible asked number request answer answered same =>
        rw [same]
        have correct := (@correct_answerRecords_iff env command command
          answer.response).mpr fun _ => rfl
        simp only [ModelSide.answer, List.forall_mem_append]
        exact and_iff_left correct
    | failed command observation visible asked same => rw [same]; rfl
    | trans first second inductionFirst inductionSecond =>
        exact inductionSecond.trans inductionFirst
  exact records

theorem attributed_step_iff {event : Event} (clear : session.pendingClaim = [])
    (stepped : step env session event = some next) :
    Attributed next ↔ Attributed session ∧ AnswersLast env session event := by
  cases heard_step clear stepped with
  | talked other talks =>
      have trivially : AnswersLast env session event := by
        unfold AnswersLast
        split
        · rename_i number answer
          exact absurd rfl (other number answer)
        · trivial
      rw [talks.attributed_iff]
      exact (and_iff_left trivially).symm
  | answered number turn answer waiting connected same =>
      have correct := @correct_answerRecords_iff env turn.command
        session.lastLlmCommand answer.response
      have records : Attributed next ↔ ∀ record ∈ session.records ++
          answerRecords env turn.command session.lastLlmCommand answer.response,
          record.Correct := by
        rw [show session.records ++ _ = next.modelSide.records from by rw [same]; rfl]
        rfl
      have last : AnswersLast env session (.answered number (.ok answer)) ↔
          (keepsFact env session.lastLlmCommand answer.response = true →
            Text.strip session.lastLlmCommand = Text.strip turn.command) := by
        simp [AnswersLast, waiting, connected]
      rw [records, List.forall_mem_append, correct, last]
      rfl
  | unheard number turn answer waiting gone same =>
      have records : next.records = session.records := congrArg ModelSide.records same
      simp [Attributed, AnswersLast, records, gone]

/-! ## Runs -/

/-- In every interleaving of lines and answers, all claims are recorded under the
commands they answer exactly when every answer of which a fact is kept arrives while
its command is the last one sent to the model. -/
theorem claims_attributed_iff (env : Env) (start final : Session) (events : List Event)
    (initial : Initial start) (ran : runEvents env start events = some final) :
    Attributed final ↔ EventRun.Along (step env) (AnswersLast env) start events := by
  have fresh : Attributed start := by
    rcases initial with ⟨loginUser, hostname, clock, rfl⟩
    intro record member
    cases member
  rw [EventRun.run_iff_along (fun session => session.pendingClaim = []) Attributed
    pendingClaim_step attributed_step_iff (pendingClaim_of_initial initial) ran]
  exact and_iff_right fresh

def ledgerEnv : Env :=
  { Env.pending with
    factFamily := fun command =>
      if command = "dpkg -l".toList then some "pkg.list".toList
      else if command = "head /a".toList then some "file:/a".toList
      else none }

def packagesLine : List UInt8 := [0x64, 0x70, 0x6B, 0x67, 0x20, 0x2D, 0x6C]

def headLine : List UInt8 := [0x68, 0x65, 0x61, 0x64, 0x20, 0x2F, 0x61]

/-- The second line is answered first, and the answer to the first one has no fact. -/
def overlapping : List Event :=
  [.line packagesLine, .line headLine, .answered 1 (.ok ⟨"root".toList, none⟩),
    .answered 0 (.ok ⟨[], none⟩)]

theorem claims_attributed_iff_example :
    ∃ final, runEvents ledgerEnv atPrompt overlapping = some final ∧
      Attributed final ∧ final.records.length = 1 := by
  refine ⟨_, rfl, ?_, rfl⟩
  apply (claims_attributed_iff ledgerEnv atPrompt _ overlapping ⟨_, _, _, rfl⟩ rfl).mpr
  refine ⟨trivial, fun next received => ?_⟩
  cases received
  refine ⟨trivial, fun next received => ?_⟩
  cases received
  refine ⟨?_, fun next answered => ?_⟩
  · intro turn waiting connected kept
    cases waiting
    rfl
  · cases answered
    refine ⟨?_, fun final answered => trivial⟩
    intro turn waiting connected kept
    cases waiting
    exact absurd kept (by decide)

/-- The answer to `dpkg -l` arrives after `head /a` was submitted. -/
theorem overtaken_answer_misattributed :
    ¬ ∀ env start final events, Initial start → runEvents env start events = some final →
      Attributed final := by
  intro all
  have attributed := all ledgerEnv atPrompt _
    [.line packagesLine, .line headLine, .answered 0 (.ok ⟨"ii adduser".toList, none⟩)]
    ⟨_, _, _, rfl⟩ rfl
  have wrong : ClaimRecord.Correct
      ⟨"dpkg -l".toList, "head /a".toList, "file:/a".toList, .llm⟩ :=
    attributed _ (List.mem_singleton_self _)
  revert wrong
  unfold ClaimRecord.Correct
  decide

end Protocol

end LlmHoneypot
