import LlmHoneypot.Foundation.EventRun
import LlmHoneypot.Scp.Streams

/-! # Exec sessions that receive an upload

`HoneyPotExecProtocol` of an `scp -t` command: input, its end, the idle timeout and the loss
of the connection in any order, and what is persisted of the upload. -/

namespace LlmHoneypot

namespace Scp

/-! ## The command -/

def hasFlag (letter : Char) (execcmd : Str) : Bool :=
  match Text.words execcmd with
  | [] => false
  | command :: args =>
      command = "scp".toList && args.any fun arg =>
        arg = ['-', letter] ||
          (List.isPrefixOf ['-'] arg && arg.contains letter && ! List.isPrefixOf ['-', '-'] arg)

def isScpSink (execcmd : Str) : Bool := hasFlag 't' execcmd

def scpDestPath (execcmd : Str) : Str :=
  ((Text.words execcmd).tail.reverse.find? (! List.isPrefixOf ['-'] ·)).getD ['.']

namespace ScpSink

def looksLikeDir (path : Str) : Bool :=
  path ∈ [".".toList, "/".toList, "/tmp".toList, "/var/tmp".toList, "/dev/shm".toList] ||
    ['/'].isSuffixOf path

def destPath (file : CapturedFile) (sink : ScpSink) : Str :=
  let stripped := sink.basePath.rdropWhile (· = '/')
  let base := if stripped = [] then ['/'] else stripped
  let rel := if sink.dirStack = [] then file.name else Text.join ['/'] (sink.dirStack ++ [file.name])
  if ['/'].isSuffixOf base || looksLikeDir base then base ++ '/' :: rel else base

end ScpSink

/-! ## The session -/

/-- The event that is logged for a file. Its data are in an `Artifact`, under their SHA-256;
of no data there is none. -/
structure Logged where
  destfile : Str
  data : Bytes
  deriving DecidableEq, Repr

structure ExecProtocol where
  sink : ScpSink
  finalized : Bool := false
  terminal : Bool := true
  inputData : Bytes := []
  written : Bytes := []
  /-- The exit codes that `processEnded` was called with. -/
  ended : List Nat := []
  logged : List Logged := []
  deriving DecidableEq, Repr

inductive Event
  | keystroke (keyID : Bytes)
  | eof
  | timeout
  | lost
  deriving DecidableEq, Repr

namespace ExecProtocol

def connectionMade (execcmd : Str) : Option ExecProtocol :=
  if isScpSink execcmd then
    some { sink := { basePath := scpDestPath execcmd }, written := ACK }
  else none

def keystrokeReceived (keyID : Bytes) (session : ExecProtocol) : ExecProtocol :=
  let (sink, out) := session.sink.feed keyID
  { session with
    sink
    inputData := session.inputData ++ keyID
    written := if session.terminal then session.written ++ out else session.written }

def persistScpFile (sink : ScpSink) (file : CapturedFile) : Logged :=
  { destfile := sink.destPath file, data := file.data }

def finalizeScp (session : ExecProtocol) : ExecProtocol :=
  if session.finalized then session
  else
    { session with
      finalized := true
      logged := session.logged ++ session.sink.files.map (persistScpFile session.sink)
      ended := if session.terminal then session.ended ++ [0] else session.ended }

def timeoutConnection (session : ExecProtocol) : ExecProtocol :=
  { session with ended := session.ended ++ [1] }

def connectionLost (session : ExecProtocol) : ExecProtocol := { session with terminal := false }

/-- After the loss of the connection nothing reaches the protocol. -/
def step (session : ExecProtocol) (event : Event) : Option ExecProtocol :=
  if session.terminal then
    some (match event with
      | .keystroke keyID => session.keystrokeReceived keyID
      | .eof => session.finalizeScp
      | .timeout => session.timeoutConnection
      | .lost => session.connectionLost)
  else none

end ExecProtocol

/-! ## What is captured only grows -/

namespace ScpSink

/-- The completed files, and what there is of the current one where it has bytes. -/
def uploads (sink : ScpSink) : List CapturedFile :=
  sink.files ++ sink.cur.toList.filter fun file => file.data ≠ []

structure Grows (sink next : ScpSink) : Prop where
  files : sink.files <+: next.files
  uploads : sink.uploads.length ≤ next.uploads.length

theorem Grows.refl (sink : ScpSink) : Grows sink sink := ⟨List.prefix_refl _, Nat.le_refl _⟩

theorem Grows.trans {sink next last : ScpSink} (first : Grows sink next) (second : Grows next last) :
    Grows sink last :=
  ⟨first.files.trans second.files, Nat.le_trans first.uploads second.uploads⟩

theorem Grows.of_eq {sink next : ScpSink} (files : next.files = sink.files)
    (cur : next.cur = sink.cur) : Grows sink next := by
  constructor
  · rw [files]
  · rw [ScpSink.uploads, ScpSink.uploads, files, cur]

theorem Grows.takeData (sink : ScpSink) (data : Bytes) : Grows sink (sink.takeData data) := by
  cases isCur : sink.cur with
  | none =>
      apply Grows.of_eq
      · simp [ScpSink.takeData, isCur]
      · simp [ScpSink.takeData, isCur]
  | some file =>
      constructor
      · simp [ScpSink.takeData, isCur]
      · by_cases empty : file.data = []
        · simp [ScpSink.takeData, ScpSink.uploads, isCur, empty]
        · simp [ScpSink.takeData, ScpSink.uploads, isCur, empty]

theorem Grows.finish (sink : ScpSink) : Grows sink sink.finish := by
  constructor
  · exact List.prefix_append _ _
  · have fewer := List.length_filter_le (fun file : CapturedFile => decide (file.data ≠ []))
      sink.cur.toList
    simp only [ScpSink.uploads, ScpSink.finish, List.length_append, Option.toList_none,
      List.filter_nil, List.length_nil]
    omega

theorem Grows.handleControl {sink next : ScpSink} {line : Bytes} (idle : sink.cur = none)
    (returned : sink.handleControl line = .ok next) : Grows sink next := by
  unfold ScpSink.handleControl at returned
  split at returned
  · cases returned
    exact refl _
  · split at returned
    · next mode digits name _ =>
      cases converted : Decimal.int (Decimal.ascii digits) with
      | error raised =>
          rw [converted] at returned
          cases returned
      | ok size =>
          rw [converted] at returned
          cases returned
          dsimp only
          split
          · constructor
            · exact List.prefix_append _ _
            · simp [ScpSink.uploads, idle]
          · constructor
            · exact List.prefix_refl _
            · simp [ScpSink.uploads, idle]
    · split at returned
      · cases returned
        exact of_eq rfl rfl
      · split at returned
        · cases returned
          exact of_eq rfl rfl
        · cases returned
          exact refl _

theorem Grows.feedLoop {sink : ScpSink} (within_ : sink.Within) (data : Bytes) :
    Grows sink (sink.feedLoop data).1 := by
  fun_induction ScpSink.feedLoop sink data with
  | case1 sink => exact refl _
  | case2 sink byte rest isDone => exact refl _
  | case3 sink byte rest _ reading taken left full last out raised later induction =>
      have ended := induction (within_.takeData _).finish
      rw [later] at ended
      exact (takeData sink _).trans ((finish _).trans ended)
  | case4 sink byte rest _ reading taken left more_ induction =>
      exact (takeData sink _).trans (induction (within_.takeData _))
  | case5 sink rest notDone notReading induction => exact induction within_
  | case6 sink byte rest notDone notReading some_ inLine induction =>
      have ended := induction
        ⟨within_.sum, within_.capped, within_.idle, within_.files, within_.cur⟩
      exact ⟨ended.files, ended.uploads⟩
  | case7 sink byte rest notDone notReading some_ ends raised isRaised => exact of_eq rfl rfl
  | case8 sink byte rest notDone notReading some_ ends next returned last out raised later
      induction =>
      have idle := within_.idle notReading
      have cleared : ({ sink with buf := [] } : ScpSink).Within :=
        ⟨within_.sum, within_.capped, within_.idle, within_.files, within_.cur⟩
      have handled : Grows { sink with buf := [] } next := handleControl idle returned
      have ended := induction (cleared.handleControl idle returned).1
      rw [later] at ended
      have grows := handled.trans ended
      exact ⟨grows.files, grows.uploads⟩

theorem Grows.feed {sink : ScpSink} (within_ : sink.Within) (data : Bytes) :
    Grows sink (sink.feed data).1 := by
  have grows := feedLoop within_ data
  rcases fed : sink.feedLoop data with ⟨last, out, _ | raised⟩
  · rw [fed] at grows
    rw [ScpSink.feed, fed]
    exact grows
  · rw [fed] at grows
    rw [ScpSink.feed, fed]
    exact ⟨grows.files, grows.uploads⟩

theorem length_files_le (sink : ScpSink) :
    sink.files.length ≤ sink.uploads.length := by
  rw [uploads, List.length_append]
  omega

theorem uploads_eq_files {sink : ScpSink} (none_ : sink.uploads.length = sink.files.length) :
    sink.uploads = sink.files := by
  rw [uploads, List.length_append] at none_
  rw [uploads, List.eq_nil_of_length_eq_zero (Nat.add_eq_left.mp none_), List.append_nil]

/-- The files completed before are all that there is afterwards exactly when no file was partly
received then and nothing has been captured since. -/
theorem Grows.files_eq_uploads_iff {sink next : ScpSink} (grows : Grows sink next) :
    sink.files.map CapturedFile.data = next.uploads.map CapturedFile.data ↔
      sink.uploads = sink.files ∧ next.uploads = sink.uploads := by
  constructor
  · intro same
    have lengths := congrArg List.length same
    rw [List.length_map, List.length_map] at lengths
    have fewer := grows.uploads
    have kept := grows.files.length_le
    have sinkParts := ScpSink.length_files_le sink
    have nextParts := ScpSink.length_files_le next
    have whole : sink.uploads = sink.files := uploads_eq_files (by omega)
    have nextWhole : next.uploads = next.files := uploads_eq_files (by omega)
    have sameFiles : sink.files = next.files := grows.files.eq_of_length (by omega)
    exact ⟨whole, by rw [nextWhole, whole, sameFiles]⟩
  · rintro ⟨whole, same⟩
    rw [same, whole]

end ScpSink

/-! ## Runs -/

namespace Event

def bytes : Event → Bytes
  | .keystroke keyID => keyID
  | _ => []

end Event

def inputOf (events : List Event) : Bytes := events.flatMap Event.bytes

theorem inputOf_cons (event : Event) (events : List Event) :
    inputOf (event :: events) = event.bytes ++ inputOf events := List.flatMap_cons

def beforeEof (events : List Event) : List Event := events.takeWhile (· ≠ .eof)

namespace ExecProtocol

variable {session final : ExecProtocol} {events : List Event}

theorem step_sink {event : Event} {next : ExecProtocol} (taken : session.step event = some next) :
    next.sink = (session.sink.feed event.bytes).1 := by
  unfold step at taken
  split at taken
  · cases taken
    cases event with
    | keystroke keyID => rfl
    | eof =>
        dsimp only [finalizeScp]
        split
        · simp [Event.bytes, ScpSink.feed]
        · simp [Event.bytes, ScpSink.feed]
    | timeout => simp [Event.bytes, ScpSink.feed, timeoutConnection]
    | lost => simp [Event.bytes, ScpSink.feed, connectionLost]
  · cases taken

theorem run_sink (ran : EventRun.run step session events = some final) :
    final.sink = (session.sink.feed (inputOf events)).1 := by
  induction events generalizing session with
  | nil =>
      cases ran
      simp [inputOf, ScpSink.feed]
  | cons event events induction =>
      rcases EventRun.run_cons.mp ran with ⟨next, taken, ranOn⟩
      rw [induction ranOn, step_sink taken, inputOf_cons, ScpSink.feed_append]

theorem step_logged {event : Event} {next : ExecProtocol} (taken : session.step event = some next) :
    (event = .eof ∧ session.finalized = false ∧ next.finalized = true ∧
      next.logged = session.logged ++ session.sink.files.map (persistScpFile session.sink)) ∨
    ((event = .eof → session.finalized = true) ∧ next.finalized = session.finalized ∧
      next.logged = session.logged) := by
  unfold step at taken
  split at taken
  · cases taken
    cases event with
    | keystroke keyID => exact .inr ⟨by simp, rfl, rfl⟩
    | eof =>
        dsimp only [finalizeScp]
        split
        · next done_ => exact .inr ⟨fun _ => done_, rfl, rfl⟩
        · next open_ => exact .inl ⟨rfl, Bool.eq_false_of_not_eq_true open_, rfl, rfl⟩
    | timeout => exact .inr ⟨by simp, rfl, rfl⟩
    | lost => exact .inr ⟨by simp, rfl, rfl⟩
  · cases taken

theorem run_logged_finalized (done_ : session.finalized = true)
    (ran : EventRun.run step session events = some final) : final.logged = session.logged := by
  induction events generalizing session with
  | nil =>
      cases ran
      rfl
  | cons event events induction =>
      rcases EventRun.run_cons.mp ran with ⟨next, taken, ranOn⟩
      rcases step_logged taken with ⟨_, open_, _, _⟩ | ⟨_, kept, same⟩
      · rw [done_] at open_
        cases open_
      · rw [induction (kept.trans done_) ranOn, same]

theorem run_logged (open_ : session.finalized = false)
    (ran : EventRun.run step session events = some final) :
    final.logged.map Logged.data = session.logged.map Logged.data ++
      (if .eof ∈ events then
        (session.sink.feed (inputOf (beforeEof events))).1.files.map CapturedFile.data
      else []) := by
  induction events generalizing session with
  | nil =>
      cases ran
      simp
  | cons event events induction =>
      rcases EventRun.run_cons.mp ran with ⟨next, taken, ranOn⟩
      rcases step_logged taken with ⟨rfl, _, done_, logged⟩ | ⟨noEof, kept, same⟩
      · rw [run_logged_finalized done_ ranOn, logged, if_pos (List.mem_cons_self ..)]
        simp [beforeEof, inputOf, ScpSink.feed, persistScpFile]
      · have differs : event ≠ .eof := by
          intro isEof
          rw [noEof isEof] at open_
          cases open_
        have member : .eof ∈ event :: events ↔ .eof ∈ events := by simp [Ne.symm differs]
        rw [induction (kept.trans open_) ranOn, same, step_sink taken]
        by_cases later : .eof ∈ events
        · rw [if_pos later, if_pos (member.mpr later), beforeEof, beforeEof,
            List.takeWhile_cons_of_pos (by simp [differs]), inputOf_cons, ScpSink.feed_append]
        · rw [if_neg later, if_neg fun other => later (member.mp other)]

end ExecProtocol

/-- Nothing is captured at all; or the input ends, no file is partly received when it first
does, and nothing is captured later. -/
def Persists (execcmd : Str) (events : List Event) : Prop :=
  let sink : ScpSink := { basePath := scpDestPath execcmd }
  let atEof := (sink.feed (inputOf (beforeEof events))).1
  let last := (sink.feed (inputOf events)).1
  last.uploads = [] ∨ .eof ∈ events ∧ atEof.uploads = atEof.files ∧ last.uploads = atEof.uploads

theorem inputOf_beforeEof (events : List Event) :
    inputOf events = inputOf (beforeEof events) ++ inputOf (events.dropWhile (· ≠ .eof)) := by
  rw [inputOf, inputOf, inputOf, ← List.flatMap_append, beforeEof, List.takeWhile_append_dropWhile]

/-- Over every run of a session each upload is persisted and logged once exactly on this
condition. -/
theorem uploads_persisted_iff {execcmd : Str} {events : List Event} {session final : ExecProtocol}
    (made : ExecProtocol.connectionMade execcmd = some session)
    (ran : EventRun.run ExecProtocol.step session events = some final) :
    final.logged.map Logged.data = final.sink.uploads.map CapturedFile.data ↔
      Persists execcmd events := by
  unfold ExecProtocol.connectionMade at made
  split at made
  · cases made
    rw [ExecProtocol.run_logged rfl ran, ExecProtocol.run_sink ran, Persists]
    dsimp only
    have fresh : ({ basePath := scpDestPath execcmd } : ScpSink).Within :=
      ⟨rfl, Nat.zero_le _, fun _ => rfl, by simp, by simp⟩
    have grows := ScpSink.Grows.feed (fresh.feed (inputOf (beforeEof events))).1
      (inputOf (events.dropWhile (· ≠ .eof)))
    have whole := congrArg Prod.fst (ScpSink.feed_append { basePath := scpDestPath execcmd }
      (inputOf (beforeEof events)) (inputOf (events.dropWhile (· ≠ .eof))))
    rw [← inputOf_beforeEof] at whole
    dsimp only at whole
    rw [← whole] at grows
    by_cases eof : .eof ∈ events
    · rw [if_pos eof, List.map_nil, List.nil_append, grows.files_eq_uploads_iff]
      constructor
      · exact fun both => .inr ⟨eof, both⟩
      · rintro (none_ | ⟨_, both⟩)
        · have fewer := grows.uploads
          rw [none_, List.length_nil] at fewer
          have noUploads := List.eq_nil_of_length_eq_zero (Nat.le_zero.mp fewer)
          have noFiles := (List.append_eq_nil_iff.mp noUploads).1
          rw [noUploads, noFiles, none_]
          exact ⟨rfl, rfl⟩
        · exact both
    · rw [if_neg eof, List.map_nil, List.append_nil, eq_comm, List.map_eq_nil_iff]
      simp [eof]
  · cases made

section Examples

def execcmd : Str := "scp -t /tmp/x".toList

theorem uploads_persisted_example :
    ∃ session final, ExecProtocol.connectionMade execcmd = some session ∧
      EventRun.run ExecProtocol.step session [.keystroke letter.encode, .eof, .lost] =
        some final ∧
      (final.logged.map Logged.data = final.sink.uploads.map CapturedFile.data ↔
        Persists execcmd [.keystroke letter.encode, .eof, .lost]) := by
  have made : ExecProtocol.connectionMade execcmd =
      some { sink := { basePath := "/tmp/x".toList }, written := ACK } := by decide
  exact ⟨_, _, made, rfl, uploads_persisted_iff made rfl⟩

/-- The connection is lost behind a complete upload, of which nothing is persisted. -/
theorem upload_lost_with_connection :
    ((ExecProtocol.connectionMade execcmd).bind fun session =>
      EventRun.run ExecProtocol.step session [.keystroke letter.encode, .lost]).map
        (fun final => (final.sink.uploads, final.logged)) = some ([letter.captured], []) := by
  decide +kernel

end Examples

end Scp

end LlmHoneypot
