import LlmHoneypot.TelnetProxy.CommandLog

/-! # What the telnet proxy sends to the backend

The packets that the handler decides to send, those that were sent, and the input records of
the tty log. -/

namespace LlmHoneypot

namespace TelnetProxy

open Nvt ByteString

def inputs (ttylog : List (TtyDirection × Bytes)) : List Bytes :=
  (ttylog.filter fun record => record.1 = .input).map Prod.snd

def cleaned (data : Bytes) : Bytes := replace [NUL] [LF] data

/-- What a packet that ends a line is answered with: what the backend is sent instead. -/
def answers (secrets : List Bytes) (packet : Bytes) : List Bytes :=
  if CR ∈ packet then
    match packet[packet.idxOf CR + 1]? with
    | none => []
    | some byte => secrets.map (· ++ [CR] ++ encodeByte byte)
  else []

namespace Handler

variable (config : Config) (handler : Handler)

def afterPassword (packet : Bytes) : List Bytes :=
  if handler.inputingPassword then
    answers [config.passwordToSend true, config.passwordToSend false] packet
  else [packet]

def afterUsername (packet : Bytes) : List Bytes :=
  if handler.inputingLogin then answers [config.backendLogin] packet else [packet]

/-- What a packet may be sent on as while the login is read: the negotiation before a
password, and the packet, or the login in its place. -/
def underLogin (data : Bytes) : List Bytes :=
  let packet := (config.afterNegotiation handler.usernameState data).2
  (if handler.inputingPassword && handler.prePasswordData then [packet.take 3] else []) ++
    ((handler.afterPassword config packet).flatMap (handler.afterUsername config)).filter (· ≠ [])

def outgoing (data : Bytes) : List Bytes :=
  if config.spoofAuthenticationData && !handler.authDone then handler.underLogin config data
  else [data].filter (· ≠ [])

variable {config : Config} {handler next : Handler}

structure Alike (handler next : Handler) : Prop where
  client : next.client = handler.client
  authStarted : next.authStarted = handler.authStarted
  ttylogEnabled : next.ttylogEnabled = handler.ttylogEnabled
  decided : next.decided = handler.decided
  backendBuffer : next.backendBuffer = handler.backendBuffer
  toBackend : next.toBackend = handler.toBackend
  recorded : inputs next.ttylog = inputs handler.ttylog

theorem Alike.refl (handler : Handler) : Alike handler handler := ⟨rfl, rfl, rfl, rfl, rfl, rfl, rfl⟩

theorem Alike.trans {last : Handler} (first : Alike handler next) (second : Alike next last) :
    Alike handler last where
  client := second.client.trans first.client
  authStarted := second.authStarted.trans first.authStarted
  ttylogEnabled := second.ttylogEnabled.trans first.ttylogEnabled
  decided := second.decided.trans first.decided
  backendBuffer := second.backendBuffer.trans first.backendBuffer
  toBackend := second.toBackend.trans first.toBackend
  recorded := second.recorded.trans first.recorded

/-! ## Calls that send nothing to the backend -/

theorem inputs_output (handler : Handler) (data : Bytes) :
    inputs (handler.ttylogWrite .output data).ttylog = inputs handler.ttylog := by
  rw [ttylogWrite]
  split
  · simp [inputs]
  · rfl

theorem sendFrontend_alike (handler : Handler) (data : Bytes) :
    Leaves (handler.sendFrontend config data)
      (fun next => Alike handler next ∧ ShownTo handler next) (Alike handler) := by
  rw [sendFrontend]
  refine Leaves.bind ((logRaw_leaves _ data).imp (fun _ equal => equal) ?_) ?_
  · rintro state rfl
    exact ⟨rfl, rfl, rfl, rfl, rfl, rfl, rfl⟩
  · rintro next rfl
    have recorded :=
      inputs_output { handler with toFrontend := handler.toFrontend ++ [data] } data
    obtain ⟨ttylog, equal⟩ :=
      ttylogWrite_eq { handler with toFrontend := handler.toFrontend ++ [data] } .output data
    rw [equal] at recorded ⊢
    exact ⟨⟨rfl, rfl, rfl, rfl, rfl, rfl, recorded⟩, _, ttylog, rfl⟩

theorem terminatingChar_reads (handler : Handler) :
    Leaves handler.terminatingChar
      (fun terminating => ∃ byte, handler.currentData[handler.currentData.idxOf CR + 1]? = some byte ∧
        terminating = encodeByte byte)
      (· = handler) := by
  rw [terminatingChar]
  split
  · exact rfl
  · next byte found => exact ⟨byte, found, rfl⟩

theorem mem_answers {secrets : List Bytes} {secret packet : Bytes} {byte : UInt8}
    (member : secret ∈ secrets) (ended : CR ∈ packet)
    (found : packet[packet.idxOf CR + 1]? = some byte) :
    secret ++ [CR] ++ encodeByte byte ∈ answers secrets packet := by
  rw [answers, if_pos ended, found]
  exact List.mem_map_of_mem member

def Within (packets : List Bytes) (handler : Handler) : Prop :=
  handler.sendData = true ∨ CR ∈ handler.currentData → handler.currentData ∈ packets

theorem finishUsername_alike (ended : CR ∈ handler.currentData) :
    Leaves (handler.finishUsername config)
      (fun next => Alike handler next ∧
        next.Within (answers [config.backendLogin] handler.currentData))
      (Alike handler) := by
  rw [finishUsername]
  refine Leaves.bind ((terminatingChar_reads handler).imp (fun _ reads => reads) ?_) ?_
  · rintro state rfl
    exact Alike.refl state
  · rintro terminating ⟨byte, found, rfl⟩
    refine Leaves.bind ((decode_leaves _ _).imp (fun _ _ => trivial) ?_) ?_
    · rintro state rfl
      exact ⟨rfl, rfl, rfl, rfl, rfl, rfl, rfl⟩
    · intro text _
      exact ⟨⟨rfl, rfl, rfl, rfl, rfl, rfl, rfl⟩,
        fun _ => mem_answers (List.mem_singleton_self _) ended found⟩

theorem processUsernameInput_alike (handler : Handler) :
    Leaves (handler.processUsernameInput config)
      (fun next => Alike handler next ∧
        next.Within (answers [config.backendLogin] handler.currentData))
      (Alike handler) := by
  have read : Alike handler handler.readUsername := ⟨rfl, rfl, rfl, rfl, rfl, rfl, rfl⟩
  rw [processUsernameInput]
  refine Leaves.bind ((sendFrontend_alike _ _).imp (fun _ shown => shown) fun _ => read.trans) ?_
  rintro next ⟨alike, shown⟩
  have currentData : next.currentData = handler.currentData := shown.currentData
  have withheld : next.sendData = false := shown.sendData
  have all := read.trans alike
  split
  · next ended =>
    refine (finishUsername_alike ended).imp ?_ fun _ => all.trans
    rintro last ⟨later, within⟩
    rw [currentData] at within
    exact ⟨all.trans later, within⟩
  · next unended =>
    refine ⟨all, ?_⟩
    rintro (sends | ended)
    · rw [withheld] at sends
      cases sends
    · exact absurd ended unended

theorem finishPassword_alike (ended : CR ∈ handler.currentData) :
    Leaves (handler.finishPassword config)
      (fun next => Alike handler next ∧ next.inputingLogin = handler.inputingLogin ∧
        next.Within (answers [config.passwordToSend true, config.passwordToSend false]
          handler.currentData))
      (Alike handler) := by
  rw [finishPassword]
  refine Leaves.bind ((terminatingChar_reads handler).imp (fun _ reads => reads) ?_) ?_
  · rintro state rfl
    exact Alike.refl state
  · rintro terminating ⟨byte, found, rfl⟩
    refine Leaves.bind ((decode_leaves _ _).imp (fun _ _ => trivial) ?_) ?_
    · rintro state rfl
      exact ⟨rfl, rfl, rfl, rfl, rfl, rfl, rfl⟩
    · intro text _
      refine ⟨⟨rfl, rfl, rfl, rfl, rfl, rfl, rfl⟩, rfl, fun _ => mem_answers ?_ ended found⟩
      generalize config.checkUserPass _ _ _ = accepted
      cases accepted
      · exact List.mem_cons_of_mem _ (List.mem_singleton_self _)
      · exact List.mem_cons_self ..

theorem takePassword_alike (withheld : handler.sendData = false) :
    Leaves (handler.takePassword config)
      (fun next => Alike handler next ∧ next.inputingLogin = handler.inputingLogin ∧
        next.Within (answers [config.passwordToSend true, config.passwordToSend false]
          handler.currentData))
      (Alike handler) := by
  have read : Alike handler handler.readPassword := ⟨rfl, rfl, rfl, rfl, rfl, rfl, rfl⟩
  rw [takePassword]
  split
  · next ended =>
    refine (finishPassword_alike ended).imp ?_ fun _ => read.trans
    rintro next ⟨alike, inputingLogin, within⟩
    exact ⟨read.trans alike, inputingLogin, within⟩
  · next unended =>
    refine ⟨read, rfl, ?_⟩
    rintro (sends | ended)
    · cases sends.symm.trans withheld
    · exact absurd ended unended

theorem logCommands_alike (handler : Handler) (data : Bytes) :
    Alike handler (handler.logCommands data) := by
  obtain ⟨currentCommand, log, equal⟩ := logCommands_eq handler data
  rw [equal]
  exact ⟨rfl, rfl, rfl, rfl, rfl, rfl, rfl⟩

/-! ## Packets of the client -/

/-- A fact about what is sent and recorded that a call of `sendBackend` keeps, for each of the
packets that may be sent, and what is left of it where a call raises. -/
structure Carries (config : Config) (packets : List Bytes) (holds broken : Handler → Prop) :
    Prop where
  alike : ∀ {handler next}, Alike handler next → holds handler → holds next
  stopped : ∀ {handler}, holds handler → broken handler
  broken_alike : ∀ {handler next}, Alike handler next → broken handler → broken next
  sent : ∀ {handler packet}, packet ∈ packets → holds handler →
    Leaves (handler.sendBackend config packet) holds broken

namespace Carries

variable {packets : List Bytes} {holds broken : Handler → Prop}

theorem stops (carries : Carries config packets holds broken) (start : holds handler)
    (alike : Alike handler next) : broken next :=
  carries.broken_alike alike (carries.stopped start)

theorem sendPrePasswordData (carries : Carries config packets holds broken) (start : holds handler)
    (member : handler.prePasswordData = true → handler.currentData.take 3 ∈ packets) :
    Leaves (handler.sendPrePasswordData config)
      (fun next => holds next ∧ next.sendData = handler.sendData ∧
        next.currentData = handler.currentData ∧ next.inputingLogin = handler.inputingLogin)
      broken := by
  rw [Handler.sendPrePasswordData]
  split
  · next sends =>
    have both := (carries.sent (member sends) start).and (sendBackend_wrote handler _)
    refine Leaves.bind (both.imp (fun _ both => both) fun _ => And.left) ?_
    rintro next ⟨kept, _, _, _, _, rfl⟩
    refine ⟨carries.alike ?_ kept, rfl, rfl, rfl⟩
    exact ⟨rfl, rfl, rfl, rfl, rfl, rfl, rfl⟩
  · exact ⟨start, rfl, rfl, rfl⟩

theorem savePassword (carries : Carries config packets holds broken) (start : holds handler)
    (member : handler.inputingPassword = true → handler.prePasswordData = true →
      handler.currentData.take 3 ∈ packets) :
    Leaves (handler.savePassword config)
      (fun next => holds next ∧ next.inputingLogin = handler.inputingLogin ∧
        next.Within (handler.afterPassword config handler.currentData))
      broken := by
  rw [Handler.savePassword, afterPassword]
  split
  · next inputing =>
    have withheld : Alike handler { handler with sendData := false } :=
      ⟨rfl, rfl, rfl, rfl, rfl, rfl, rfl⟩
    rw [processPasswordInput]
    refine Leaves.bind (carries.sendPrePasswordData (carries.alike withheld start)
      (member inputing)) ?_
    rintro next ⟨kept, sendData, currentData, inputingLogin⟩
    refine (takePassword_alike sendData).imp ?_ fun _ => carries.stops kept
    rintro last ⟨alike, login, within⟩
    rw [currentData] at within
    exact ⟨carries.alike alike kept, login.trans inputingLogin, within⟩
  · exact ⟨start, rfl, fun _ => List.mem_singleton_self _⟩

theorem saveUsername (carries : Carries config packets holds broken) (start : holds handler)
    {passed : List Bytes} (within : handler.Within passed) :
    Leaves (handler.saveUsername config)
      (fun next => holds next ∧
        (next.sendData = true → next.currentData ∈ passed.flatMap (handler.afterUsername config)))
      broken := by
  rw [Handler.saveUsername]
  split
  · next inputing =>
    refine (processUsernameInput_alike handler).imp ?_ fun _ => carries.stops start
    rintro next ⟨alike, answered⟩
    refine ⟨carries.alike alike start, fun sends => ?_⟩
    have isAnswer := answered (.inl sends)
    have ended : CR ∈ handler.currentData := by
      by_contra unended
      rw [answers, if_neg unended] at isAnswer
      cases isAnswer
    rw [List.mem_flatMap]
    refine ⟨handler.currentData, within (.inr ended), ?_⟩
    rwa [afterUsername, if_pos inputing]
  · next notInputing =>
    refine ⟨start, fun sends => ?_⟩
    rw [List.mem_flatMap]
    refine ⟨handler.currentData, within (.inl sends), ?_⟩
    rw [afterUsername, if_neg notInputing]
    exact List.mem_singleton_self _

theorem sendOn (carries : Carries config packets holds broken) (start : holds handler)
    (member : handler.sendData = true → handler.currentData ≠ [] → handler.currentData ∈ packets) :
    Leaves (handler.sendOn config .frontend) holds broken := by
  rw [Handler.sendOn]
  split
  · next sends =>
    rw [Bool.and_eq_true, Bool.not_eq_true', List.isEmpty_eq_false_iff] at sends
    exact carries.sent (member sends.1 sends.2) start
  · exact start

theorem spoofAuthentication
    (carries : Carries config (handler.underLogin config handler.currentData) holds broken)
    (start : holds handler) :
    Leaves (handler.spoofAuthentication config .frontend)
      (fun next => holds next ∧ (next.sendData = true → next.currentData ≠ [] →
        next.currentData ∈ handler.underLogin config handler.currentData))
      broken := by
  rw [Handler.spoofAuthentication]
  refine Leaves.bind ((setProcessingStateFrontend_eq handler).imp (fun _ found => found) ?_) ?_
  · rintro state ⟨usernameState, log, _, rfl⟩
    exact carries.stops start ⟨rfl, rfl, rfl, rfl, rfl, rfl, rfl⟩
  · rintro negotiated ⟨log, _, rfl⟩
    have alike : Alike handler { handler.negotiate config with log := log } :=
      ⟨rfl, rfl, rfl, rfl, rfl, rfl, rfl⟩
    refine Leaves.bind (carries.savePassword (carries.alike alike start) ?_) ?_
    · intro inputing negotiates
      have both : (handler.inputingPassword && handler.prePasswordData) = true :=
        Bool.and_eq_true_iff.mpr ⟨inputing, negotiates⟩
      rw [underLogin, if_pos both]
      exact List.mem_append_left _ (List.mem_singleton_self _)
    · rintro next ⟨kept, inputingLogin, within⟩
      refine (carries.saveUsername kept within).imp ?_ fun _ stopped => stopped
      rintro last ⟨keptLast, member⟩
      refine ⟨keptLast, fun sends nonempty => List.mem_append_right _ ?_⟩
      have login : next.afterUsername config = handler.afterUsername config := by
        funext packet
        rw [afterUsername, afterUsername, inputingLogin]
        rfl
      rw [List.mem_filter, ← login]
      exact ⟨member sends, by simpa using nonempty⟩

theorem frontend {data : Bytes} (carries : Carries config (handler.outgoing config data) holds broken)
    (start : holds handler) : Leaves (handler.addPacket config .frontend data) holds broken := by
  have received : Alike handler (handler.receive data) := ⟨rfl, rfl, rfl, rfl, rfl, rfl, rfl⟩
  have ready := carries.alike received start
  have finish {next : Handler} (kept : holds next)
      (member : next.sendData = true → next.currentData ≠ [] →
        next.currentData ∈ handler.outgoing config data) :
      Leaves ((if Parent.frontend = .frontend ∧ next.authDone = true then next.logCommands data
        else next).sendOn config .frontend) holds broken := by
    split
    · refine carries.sendOn (carries.alike (logCommands_alike next data) kept) ?_
      obtain ⟨currentCommand, log, equal⟩ := logCommands_eq next data
      rw [equal]
      exact member
    · exact carries.sendOn kept member
  rw [addPacket]
  by_cases spoofs : (config.spoofAuthenticationData && !handler.authDone) = true
  · have receiving : (config.spoofAuthenticationData && !(handler.receive data).authDone) = true :=
      spoofs
    rw [if_pos receiving]
    rw [outgoing, if_pos spoofs] at carries finish
    refine (@spoofAuthentication _ (handler.receive data) _ _ carries ready).bind ?_
    rintro next ⟨kept, member⟩
    exact finish kept member
  · have receiving : ¬ (config.spoofAuthenticationData && !(handler.receive data).authDone) = true :=
      spoofs
    rw [if_neg receiving]
    refine finish ready ?_
    intro _ nonempty
    rw [outgoing, if_neg spoofs, List.mem_filter]
    exact ⟨List.mem_singleton_self _, by simpa using nonempty⟩

end Carries

/-! ## What is sent -/

/-- Nothing is lost, sent twice or out of order: what was decided was sent or is buffered, and
what is buffered waits for the first packet after the backend is connected. -/
structure Accounts (handler : Handler) : Prop where
  decided : handler.decided = handler.toBackend ++ handler.backendBuffer
  unconnected : handler.client = false → handler.toBackend = []
  waits : handler.toBackend = [] ∨ handler.backendBuffer = []

theorem carries_accounts (packets : List Bytes) :
    Carries config packets Accounts (fun handler => handler.toBackend <+: handler.decided) where
  alike alike accounts :=
    { decided := by
        rw [alike.decided, alike.toBackend, alike.backendBuffer]
        exact accounts.decided
      unconnected := by
        rw [alike.client, alike.toBackend]
        exact accounts.unconnected
      waits := by
        rw [alike.toBackend, alike.backendBuffer]
        exact accounts.waits }
  stopped accounts := ⟨_, accounts.decided.symm⟩
  broken_alike alike sent := by
    rw [alike.decided, alike.toBackend]
    exact sent
  sent := by
    intro handler packet _ accounts
    have decided : (handler.deciding packet).decided =
        handler.toBackend ++ (handler.deciding packet).backendBuffer :=
      (congrArg (· ++ [packet]) accounts.decided).trans (List.append_assoc ..)
    rw [sendBackend]
    split
    · next unconnected =>
      have nothing := accounts.unconnected (Bool.eq_false_of_not_eq_true unconnected)
      exact ⟨decided, fun _ => nothing, .inl nothing⟩
    · next connected =>
      refine (writeBackend_leaves packet _ (handler.deciding packet)).imp ?_ ?_
      · rintro next ⟨⟨_, _, _, _, rfl⟩, sent, buffered⟩
        have drained := buffered.trans List.drop_length
        refine ⟨decided.trans ?_, fun unconnected => ?_, .inr drained⟩
        · rw [drained, List.append_nil]
          exact sent.symm
        · exact absurd (Bool.not_eq_false _ ▸ connected) (by simp [show handler.client = false from unconnected])
      · rintro next ⟨⟨_, _, _, _, rfl⟩, sent⟩
        exact sent.trans ⟨[], (List.append_nil _).trans decided.symm⟩

def AllSent (handler : Handler) : Prop := handler.client = true → handler.toBackend = handler.decided

theorem sendBackend_alone {packet : Bytes} (client : handler.client = true)
    (nothing : handler.backendBuffer = []) :
    handler.sendBackend config packet =
      { handler.deciding packet with toBackend := handler.toBackend ++ [packet] }.logRaw config
        packet >>= fun next => .ok { next.ttylogInput packet with
          backendBuffer := (next.ttylogInput packet).backendBuffer.drop 1 } := by
  rw [sendBackend, nothing, if_neg (by simp [client])]
  simp only [deciding, nothing]
  rfl

theorem carries_allSent (packets : List Bytes) :
    Carries config packets
      (fun handler => handler.AllSent ∧ (handler.client = true → handler.backendBuffer = []))
      AllSent where
  alike alike both := by
    rw [AllSent, alike.client, alike.decided, alike.toBackend, alike.backendBuffer]
    exact both
  stopped both := both.1
  broken_alike alike sent := by
    rw [AllSent, alike.client, alike.decided, alike.toBackend]
    exact sent
  sent := by
    rintro handler packet _ ⟨sent, nothing⟩
    by_cases client : handler.client = true
    · have all : handler.toBackend ++ [packet] = handler.decided ++ [packet] := by rw [sent client]
      rw [sendBackend_alone client (nothing client)]
      refine Leaves.bind ((logRaw_leaves _ packet).imp (fun _ equal => equal) ?_) ?_
      · rintro state rfl _
        exact all
      · rintro next rfl
        obtain ⟨ttylog, ttylogSize, recorded⟩ := ttylogInput_eq
          { handler.deciding packet with toBackend := handler.toBackend ++ [packet] } packet
        rw [recorded]
        refine ⟨fun _ => all, fun _ => ?_⟩
        simp [deciding, nothing client]
    · rw [sendBackend, if_pos client]
      exact ⟨fun isClient => absurd isClient client, fun isClient => absurd isClient client⟩

/-! ## What is recorded -/

def Records (handler : Handler) : Prop := handler.ttylogEnabled = true ∧ handler.authStarted = true

def RecordedFrom (before : Nat) (handler : Handler) : Prop :=
  before ≤ handler.toBackend.length ∧
    (inputs handler.ttylog).flatten = cleaned (handler.toBackend.drop before).flatten

theorem Alike.recordedFrom {before : Nat} (alike : Alike handler next)
    (recorded : handler.RecordedFrom before) : next.RecordedFrom before := by
  rw [RecordedFrom, alike.toBackend, alike.recorded]
  exact recorded

theorem Alike.records (alike : Alike handler next) (records : handler.Records) : next.Records := by
  rw [Records, alike.ttylogEnabled, alike.authStarted]
  exact records

theorem inputs_input (records : handler.Records) (packet : Bytes) :
    (inputs (handler.ttylogInput packet).ttylog).flatten =
      (inputs handler.ttylog).flatten ++ cleaned packet := by
  have both : (handler.ttylogEnabled && handler.authStarted) = true :=
    Bool.and_eq_true_iff.mpr records
  simp [ttylogInput, ttylogWrite, both, inputs, cleaned]

theorem carries_recorded {packets : List Bytes} {before : Nat} {client : Bool}
    (shows : client = true → ∀ packet ∈ packets, config.Shows packet) :
    Carries config packets
      (fun handler => handler.client = client ∧ handler.Records ∧ handler.RecordedFrom before ∧
        (client = true → packets ≠ [] → handler.backendBuffer = []))
      (fun handler => handler.Records ∧ handler.RecordedFrom before) where
  alike alike kept := by
    obtain ⟨isClient, records, recorded, nothing⟩ := kept
    rw [alike.client, alike.backendBuffer]
    exact ⟨isClient, alike.records records, alike.recordedFrom recorded, nothing⟩
  stopped kept := ⟨kept.2.1, kept.2.2.1⟩
  broken_alike alike kept := ⟨alike.records kept.1, alike.recordedFrom kept.2⟩
  sent := by
    rintro handler packet member ⟨isClient, records, recorded, nothing⟩
    cases client with
    | false =>
        rw [sendBackend, if_pos (by simp [isClient])]
        exact ⟨isClient, records, recorded, fun connected => absurd connected Bool.false_ne_true⟩
    | true =>
        have empty := nothing rfl (List.ne_nil_of_mem member)
        obtain ⟨next, logged, rfl⟩ := (@logRaw_returns config
          { handler.deciding packet with toBackend := handler.toBackend ++ [packet] } packet).returns
          (shows rfl packet member)
        rw [sendBackend_alone isClient empty, logged]
        have written := @inputs_input
          { handler.deciding packet with toBackend := handler.toBackend ++ [packet] } records packet
        obtain ⟨ttylog, ttylogSize, equal⟩ := ttylogInput_eq
          { handler.deciding packet with toBackend := handler.toBackend ++ [packet] } packet
        rw [equal] at written
        simp only [Leaves, bind, Except.bind, equal]
        refine ⟨isClient, records, ⟨?_, ?_⟩, fun _ _ => ?_⟩
        · rw [List.length_append]
          exact Nat.le_add_right_of_le recorded.1
        · refine written.trans ?_
          simp only [List.drop_append_of_le_length recorded.1, List.flatten_concat]
          rw [cleaned, cleaned, replace_byte_append]
          exact congrArg (· ++ _) recorded.2
        · simp [deciding, empty]

theorem writeBackend_unstarted (data : Bytes) (packets : List Bytes)
    (unstarted : handler.authStarted = false) :
    Leaves (writeBackend config data packets handler) (fun next => next.ttylog = handler.ttylog)
      (fun next => next.ttylog = handler.ttylog) := by
  induction packets generalizing handler with
  | nil => exact rfl
  | cons packet packets induction =>
      rw [writeBackend]
      refine Leaves.bind ((logRaw_leaves _ data).imp (fun _ equal => equal) ?_) ?_
      · rintro state rfl
        rfl
      · rintro next rfl
        have unrecorded : ¬ (handler.ttylogEnabled && handler.authStarted) = true := by
          simp [unstarted]
        have silent : { handler with toBackend := handler.toBackend ++ [packet] }.ttylogInput data =
            { handler with toBackend := handler.toBackend ++ [packet] } := if_neg unrecorded
        rw [silent]
        exact induction unstarted

def Unrecorded (handler : Handler) : Prop :=
  handler.ttylogEnabled = true ∧ handler.authStarted = false ∧ (inputs handler.ttylog).flatten = []

theorem carries_unrecorded (packets : List Bytes) :
    Carries config packets Unrecorded Unrecorded where
  alike alike unrecorded := by
    rw [Unrecorded, alike.ttylogEnabled, alike.authStarted, alike.recorded]
    exact unrecorded
  stopped := id
  broken_alike alike unrecorded := by
    rw [Unrecorded, alike.ttylogEnabled, alike.authStarted, alike.recorded]
    exact unrecorded
  sent := by
    rintro handler packet - ⟨enabled, unstarted, nothing⟩
    rw [sendBackend]
    split
    · exact ⟨enabled, unstarted, nothing⟩
    · have wrote := @writeBackend_leaves config packet
        (handler.deciding packet).backendBuffer (handler.deciding packet)
      have silent := @writeBackend_unstarted config (handler.deciding packet) packet
        (handler.deciding packet).backendBuffer unstarted
      refine (wrote.and silent).imp ?_ ?_
      · rintro next ⟨⟨⟨_, _, _, _, rfl⟩, -, -⟩, same⟩
        refine ⟨enabled, unstarted, ?_⟩
        rw [same]
        exact nothing
      · rintro next ⟨⟨⟨_, _, _, _, rfl⟩, -⟩, same⟩
        refine ⟨enabled, unstarted, ?_⟩
        rw [same]
        exact nothing

/-! ## Packets of the backend -/

structure Prompted (handler next : Handler) : Prop where
  client : next.client = handler.client
  ttylogEnabled : next.ttylogEnabled = handler.ttylogEnabled
  decided : next.decided = handler.decided
  backendBuffer : next.backendBuffer = handler.backendBuffer
  toBackend : next.toBackend = handler.toBackend
  recorded : inputs next.ttylog = inputs handler.ttylog
  started : handler.authStarted = true → next.authStarted = true

theorem Prompted.then {last : Handler} (prompted : Prompted handler next) (alike : Alike next last) :
    Prompted handler last where
  client := alike.client.trans prompted.client
  ttylogEnabled := alike.ttylogEnabled.trans prompted.ttylogEnabled
  decided := alike.decided.trans prompted.decided
  backendBuffer := alike.backendBuffer.trans prompted.backendBuffer
  toBackend := alike.toBackend.trans prompted.toBackend
  recorded := alike.recorded.trans prompted.recorded
  started started := alike.authStarted.trans (prompted.started started)

theorem sendOn_prompted (prompted : Prompted handler next) :
    Leaves (next.sendOn config .backend) (Prompted handler) (Prompted handler) := by
  rw [sendOn]
  split
  · exact (sendFrontend_alike next _).imp (fun _ sent => prompted.then sent.1)
      fun _ => prompted.then
  · exact prompted

theorem backend_prompted (data : Bytes) :
    Leaves (handler.addPacket config .backend data) (Prompted handler) (Prompted handler) := by
  rw [addPacket]
  split
  · rw [spoofAuthentication, dropLoginEcho_eq, setProcessingStateBackend_eq]
    refine sendOn_prompted ⟨rfl, rfl, rfl, rfl, rfl, rfl, fun started => ?_⟩
    simp [receive, started]
  · exact sendOn_prompted ⟨rfl, rfl, rfl, rfl, rfl, rfl, id⟩

end Handler

/-! ## Sessions -/

/-- A session, and how many packets were sent before the authentication started. -/
structure RecordedSession where
  session : Session := {}
  before : Nat := 0

namespace RecordedSession

variable (config : Config) (recorded : RecordedSession)

def handler : Handler := recorded.session.handler

def step (event : SessionEvent) : Option RecordedSession :=
  (recorded.session.step config event).map fun next =>
    { session := next
      before := if next.handler.authStarted then recorded.before else next.handler.toBackend.length }

/-- A new session, with or without a tty log. -/
def start (ttylogEnabled : Bool) : RecordedSession :=
  { session := { handler := { ttylogEnabled := ttylogEnabled } } }

/-- What was sent is what was decided, each packet once and in order, but for what waits for
the first packet after the backend is connected. -/
def Accounted : Prop :=
  recorded.handler.toBackend <+: recorded.handler.decided ∧
    (recorded.session.closed = false → recorded.handler.Accounts)

/-- All that was decided was sent, each packet once and in order, once the backend is connected. -/
def Delivered : Prop :=
  recorded.handler.toBackend <+: recorded.handler.decided ∧ recorded.handler.AllSent

/-- The input records are what was sent since the authentication started, but for NUL. -/
def Recorded : Prop :=
  recorded.handler.ttylogEnabled = true →
    (inputs recorded.handler.ttylog).flatten =
      cleaned (recorded.handler.toBackend.drop recorded.before).flatten

/-- The backend is connected before anything is decided. -/
def ConnectsFirst (recorded : RecordedSession) : SessionEvent → Prop
  | .setClient => recorded.handler.backendBuffer = []
  | .packet _ _ => True

/-- What a packet makes the handler send, and record, is sent alone and can be printed. -/
def SendsAlone (recorded : RecordedSession) : SessionEvent → Prop
  | .packet .frontend data =>
      recorded.handler.client = true ∧ recorded.handler.Records →
        ∀ packet ∈ recorded.handler.outgoing config data,
          recorded.handler.backendBuffer = [] ∧ config.Shows packet
  | _ => True

instance (recorded : RecordedSession) : DecidablePred recorded.ConnectsFirst
  | .setClient => inferInstanceAs (Decidable (_ = _))
  | .packet _ _ => inferInstanceAs (Decidable True)

instance (recorded : RecordedSession) : DecidablePred (recorded.SendsAlone config)
  | .packet .frontend _ =>
      inferInstanceAs (Decidable (_ ∧ (_ = _ ∧ _ = _) → ∀ packet ∈ (_ : List Bytes), _ ∧ _))
  | .packet .backend _ => inferInstanceAs (Decidable True)
  | .setClient => inferInstanceAs (Decidable True)

variable {config : Config} {recorded next : RecordedSession} {event : SessionEvent}

theorem step_cases (taken : recorded.step config event = some next) :
    recorded.session.closed = false ∧ recorded.session.step config event = some next.session ∧
      next.before =
        if next.handler.authStarted then recorded.before else next.handler.toBackend.length := by
  obtain ⟨session, stepped, rfl⟩ := Option.map_eq_some_iff.mp taken
  exact ⟨Session.open_of_step stepped, stepped, rfl⟩

def Keeps (holds broken : Handler → Prop) (recorded : RecordedSession) : Prop :=
  broken recorded.handler ∧ (recorded.session.closed = false → holds recorded.handler)

theorem keeps_packet {holds broken : Handler → Prop} {parent : Parent} {data : Bytes}
    (stopped : ∀ {handler : Handler}, holds handler → broken handler)
    (leaves : Leaves (recorded.handler.addPacket config parent data) holds broken)
    (taken : recorded.step config (.packet parent data) = some next) : next.Keeps holds broken := by
  obtain ⟨-, stepped, -⟩ := step_cases taken
  rw [Keeps, handler]
  rcases Session.packet_cases stepped with ⟨handler, returned, equal⟩ | ⟨_, handler, raised, equal⟩
  · rw [equal]
    have kept := leaves.of_ok returned
    exact ⟨stopped kept, fun _ => kept⟩
  · rw [equal]
    exact ⟨leaves.of_error raised, fun isOpen => absurd isOpen (by simp)⟩

theorem setClient_eq (taken : recorded.step config .setClient = some next) :
    next.handler = { recorded.handler with client := true } ∧ next.session.closed = false := by
  obtain ⟨isOpen, stepped, -⟩ := step_cases taken
  rw [Session.step, if_neg (by simp [isOpen])] at stepped
  rw [handler, ← Option.some.inj stepped]
  exact ⟨rfl, isOpen⟩

theorem keeps_step {holds broken : Handler → Prop}
    (carries : ∀ packets, Handler.Carries config packets holds broken)
    (prompts : ∀ {handler next : Handler}, handler.Prompted next → holds handler → holds next)
    (connects : event = .setClient → holds recorded.handler →
      holds { recorded.handler with client := true })
    (keeps : recorded.Keeps holds broken) (taken : recorded.step config event = some next) :
    next.Keeps holds broken := by
  obtain ⟨isOpen, -, -⟩ := step_cases taken
  have kept := keeps.2 isOpen
  have stops {handler : Handler} (holdsOf : holds handler) : broken handler :=
    (carries []).stopped holdsOf
  cases event with
  | setClient =>
      have connected := connects rfl kept
      rw [← (setClient_eq taken).1] at connected
      exact ⟨stops connected, fun _ => connected⟩
  | packet parent data =>
      cases parent with
      | frontend => exact keeps_packet stops ((carries _).frontend kept) taken
      | backend =>
          have leaves := (@Handler.backend_prompted config recorded.handler data).imp
            (fun _ prompted => prompts prompted kept) fun _ prompted => stops (prompts prompted kept)
          exact keeps_packet stops leaves taken

theorem accounted_step (accounted : recorded.Keeps Handler.Accounts fun handler =>
      handler.toBackend <+: handler.decided)
    (taken : recorded.step config event = some next) :
    next.Keeps Handler.Accounts fun handler => handler.toBackend <+: handler.decided := by
  refine keeps_step Handler.carries_accounts ?_ ?_ accounted taken
  · intro handler next prompted accounts
    constructor
    · rw [prompted.decided, prompted.toBackend, prompted.backendBuffer]
      exact accounts.decided
    · rw [prompted.client, prompted.toBackend]
      exact accounts.unconnected
    · rw [prompted.toBackend, prompted.backendBuffer]
      exact accounts.waits
  · intro _ accounts
    exact ⟨accounts.decided, fun unconnected => absurd unconnected (by simp), accounts.waits⟩

def Drained (handler : Handler) : Prop :=
  handler.AllSent ∧ (handler.client = true → handler.backendBuffer = [])

theorem drained_step (first : recorded.ConnectsFirst event)
    (kept : recorded.Keeps Handler.Accounts fun handler => handler.toBackend <+: handler.decided)
    (drained : recorded.Keeps Drained Handler.AllSent)
    (taken : recorded.step config event = some next) : next.Keeps Drained Handler.AllSent := by
  have accounts := kept.2 (step_cases taken).1
  refine keeps_step Handler.carries_allSent ?_ ?_ drained taken
  · intro handler next prompted both
    rw [Drained, Handler.AllSent, prompted.client, prompted.decided, prompted.toBackend,
      prompted.backendBuffer]
    exact both
  · rintro rfl -
    have nothing : recorded.handler.backendBuffer = [] := first
    have sent := accounts.decided
    rw [nothing, List.append_nil] at sent
    exact ⟨fun _ => sent.symm, fun _ => nothing⟩

/-- What is recorded of a session with a tty log. -/
structure Follows (recorded : RecordedSession) : Prop where
  recordedFrom : recorded.handler.RecordedFrom recorded.before
  ttylogEnabled : recorded.handler.ttylogEnabled = true
  unstarted : recorded.handler.authStarted = false →
    recorded.before = recorded.handler.toBackend.length

def Unlogged (handler : Handler) : Prop := handler.ttylogEnabled = false

theorem carries_unlogged (packets : List Bytes) :
    Handler.Carries config packets Unlogged Unlogged where
  alike alike unlogged := alike.ttylogEnabled.trans unlogged
  stopped := id
  broken_alike alike unlogged := alike.ttylogEnabled.trans unlogged
  sent := by
    intro handler packet _ unlogged
    refine (Handler.sendBackend_wrote handler packet).imp ?_ ?_
    · rintro next ⟨_, _, _, _, rfl⟩
      exact unlogged
    · rintro next ⟨_, _, _, _, rfl⟩
      exact unlogged

theorem Follows.still (follows : recorded.Follows)
    (enabled : next.handler.ttylogEnabled = recorded.handler.ttylogEnabled)
    (toBackend : next.handler.toBackend = recorded.handler.toBackend)
    (records : inputs next.handler.ttylog = inputs recorded.handler.ttylog)
    (started : recorded.handler.authStarted = true → next.handler.authStarted = true)
    (before : next.before =
      if next.handler.authStarted then recorded.before else next.handler.toBackend.length) :
    next.Follows := by
  have same : next.before = recorded.before := by
    rw [before, toBackend]
    split
    · rfl
    · next unstarted =>
      exact (follows.unstarted (Bool.eq_false_of_not_eq_true (mt started unstarted))).symm
  constructor
  · rw [Handler.RecordedFrom, same, toBackend, records]
    exact follows.recordedFrom
  · exact enabled.trans follows.ttylogEnabled
  · intro unstarted
    rw [before, if_neg (by simp [unstarted])]

theorem Follows.frontend {data : Bytes} (follows : recorded.Follows)
    (alone : recorded.SendsAlone config (.packet .frontend data))
    (taken : recorded.step config (.packet .frontend data) = some next) : next.Follows := by
  obtain ⟨-, -, before⟩ := step_cases taken
  by_cases started : recorded.handler.authStarted = true
  · have records : recorded.handler.Records := ⟨follows.ttylogEnabled, started⟩
    have carries : Handler.Carries config (recorded.handler.outgoing config data) _ _ :=
      @Handler.carries_recorded config _ recorded.before recorded.handler.client
        fun client packet member => (alone ⟨client, records⟩ packet member).2
    have kept := keeps_packet carries.stopped (carries.frontend ⟨rfl, records, follows.recordedFrom,
      fun client some_ => by
        obtain ⟨packet, member⟩ := List.exists_mem_of_ne_nil _ some_
        exact (alone ⟨client, records⟩ packet member).1⟩) taken
    obtain ⟨⟨enabled, stillStarted⟩, recordedFrom⟩ := kept.1
    rw [if_pos stillStarted] at before
    rw [← before] at recordedFrom
    exact ⟨recordedFrom, enabled, fun unstarted => by cases stillStarted.symm.trans unstarted⟩
  · have unstarted := Bool.eq_false_of_not_eq_true started
    have nothing : (inputs recorded.handler.ttylog).flatten = [] := by
      rw [follows.recordedFrom.2, follows.unstarted unstarted, List.drop_length]
      rfl
    have kept := keeps_packet id ((Handler.carries_unrecorded _).frontend
      ⟨follows.ttylogEnabled, unstarted, nothing⟩) taken
    obtain ⟨enabled, stillUnstarted, stillNothing⟩ := kept.1
    rw [if_neg (by simp [stillUnstarted])] at before
    refine ⟨⟨Nat.le_of_eq before, ?_⟩, enabled, fun _ => before⟩
    rw [stillNothing, before, List.drop_length]
    rfl

theorem Follows.step (follows : recorded.Follows) (alone : recorded.SendsAlone config event)
    (taken : recorded.step config event = some next) : next.Follows := by
  obtain ⟨-, -, before⟩ := step_cases taken
  cases event with
  | setClient =>
      obtain ⟨equal, -⟩ := setClient_eq taken
      refine follows.still ?_ ?_ ?_ ?_ before
      · rw [equal]
      · rw [equal]
      · rw [equal]
      · rw [equal]
        exact id
  | packet parent data =>
      cases parent with
      | frontend => exact follows.frontend alone taken
      | backend =>
          have prompted := (keeps_packet id
            (@Handler.backend_prompted config recorded.handler data) taken).1
          exact follows.still prompted.ttylogEnabled prompted.toBackend prompted.recorded
            prompted.started before

theorem unlogged_step (unlogged : recorded.Keeps Unlogged Unlogged)
    (taken : recorded.step config event = some next) : next.Keeps Unlogged Unlogged := by
  refine keeps_step carries_unlogged ?_ (fun _ unlogged => unlogged) unlogged taken
  intro handler next prompted unlogged
  exact prompted.ttylogEnabled.trans unlogged

theorem accounted_start (ttylogEnabled : Bool) :
    (start ttylogEnabled).Keeps Handler.Accounts fun handler =>
      handler.toBackend <+: handler.decided :=
  ⟨List.prefix_refl _, fun _ => ⟨rfl, fun _ => rfl, .inl rfl⟩⟩

theorem follows_start : (start true).Follows := ⟨⟨Nat.le_refl _, rfl⟩, rfl, fun _ => rfl⟩

/-- In every session what was sent is what was decided, in order; all of it was sent where the
backend is connected before anything is decided, and it is what was recorded where packets
are recorded that are sent alone. Negotiation counts as any other byte; without
`spoofAuthenticationData` no prompt is looked for, and nothing is recorded. -/
theorem sent_and_recorded (ttylogEnabled : Bool) (events : List SessionEvent)
    {final : RecordedSession}
    (ran : EventRun.run (step config) (start ttylogEnabled) events = some final) :
    final.Accounted ∧
      (EventRun.Along (step config) ConnectsFirst (start ttylogEnabled) events → final.Delivered) ∧
      (EventRun.Along (step config) (SendsAlone config) (start ttylogEnabled) events →
        final.Recorded) := by
  have accounted := EventRun.run_invariant _ (fun kept taken => accounted_step kept taken)
    (accounted_start ttylogEnabled) ran
  refine ⟨accounted, ?_, ?_⟩
  · intro first
    have drained := EventRun.run_invariant_along
      (fun recorded : RecordedSession => recorded.Keeps Handler.Accounts (fun handler =>
        handler.toBackend <+: handler.decided) ∧ recorded.Keeps Drained Handler.AllSent)
      (fun _ both first taken => ⟨accounted_step both.1 taken, drained_step first both.1 both.2 taken⟩)
      ⟨accounted_start ttylogEnabled, fun _ => rfl, fun _ => ⟨fun _ => rfl, fun _ => rfl⟩⟩ first ran
    exact ⟨accounted.1, drained.2.1⟩
  · intro alone enabled
    cases ttylogEnabled with
    | false =>
        have unlogged := EventRun.run_invariant (fun recorded => recorded.Keeps Unlogged Unlogged)
          (fun kept taken => unlogged_step kept taken) ⟨rfl, fun _ => rfl⟩ ran
        exact absurd (unlogged.1.symm.trans enabled) Bool.false_ne_true
    | true =>
        have follows := EventRun.run_invariant_along Follows
          (fun _ follows alone taken => follows.step alone taken) follows_start alone ran
        exact follows.recordedFrom.2

def usualSession : List SessionEvent :=
  [.setClient, .packet .backend (ascii "ubuntu login: "), .packet .frontend (ascii "root\r\n"),
    .packet .backend (ascii "root\r\nPassword: "), .packet .frontend (ascii "123456\r\n"),
    .packet .frontend (ascii "ls" ++ [CR, NUL])]

theorem sent_and_recorded_usualSession :
    ∃ final, EventRun.run (step .ubuntu) (start true) usualSession = some final ∧
      final.Accounted ∧ final.Delivered ∧ final.Recorded := by
  have runs : (EventRun.run (step .ubuntu) (start true) usualSession).isSome = true := by
    decide +kernel
  obtain ⟨final, ran⟩ := Option.isSome_iff_exists.mp runs
  obtain ⟨accounted, delivered, recorded⟩ := sent_and_recorded true usualSession ran
  exact ⟨final, ran, accounted, delivered (by decide +kernel), recorded (by decide +kernel)⟩

def earlySession : List SessionEvent :=
  [.packet .frontend [0xFF, 0xFB, 0x1F], .setClient, .packet .backend (ascii "ubuntu login: "),
    .packet .frontend (ascii "root\r\n")]

def report (recorded : RecordedSession) : List Bytes × List Bytes :=
  (recorded.handler.toBackend, inputs recorded.handler.ttylog)

/-- The user name is recorded twice, and the negotiation, which is sent with it, is not. -/
theorem earlySession_misrecorded :
    (EventRun.run (step .ubuntu) (start true) earlySession).map report =
        some ([[0xFF, 0xFB, 0x1F], ascii "root\r\n"], [ascii "root\r\n", ascii "root\r\n"]) ∧
      ¬ ∀ final, EventRun.run (step .ubuntu) (start true) earlySession = some final →
        final.Delivered ∧ final.Recorded := by
  have reported : (EventRun.run (step .ubuntu) (start true) earlySession).map report =
      some ([[0xFF, 0xFB, 0x1F], ascii "root\r\n"], [ascii "root\r\n", ascii "root\r\n"]) := by
    decide +kernel
  refine ⟨reported, ?_⟩
  intro all
  obtain ⟨final, ran, reports⟩ := Option.map_eq_some_iff.mp reported
  obtain ⟨sent, records⟩ := Prod.mk.inj reports
  have enabled : (EventRun.run (step .ubuntu) (start true) earlySession).map
      (fun final => (final.handler.ttylogEnabled, final.before)) = some (true, 0) := by decide +kernel
  rw [ran, Option.map_some, Option.some.injEq, Prod.mk.injEq] at enabled
  have recorded := (all final ran).2 enabled.1
  rw [sent, records, enabled.2] at recorded
  exact absurd recorded (by decide +kernel)

end RecordedSession

end TelnetProxy

end LlmHoneypot
