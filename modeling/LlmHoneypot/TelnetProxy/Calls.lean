import LlmHoneypot.TelnetProxy.Handler

/-! # Calls of the telnet proxy's handler

When each of the calls that read a login returns, and the handler it leaves then. -/

namespace LlmHoneypot

namespace TelnetProxy

open Nvt ByteString

def Typeable (byte : UInt8) : Prop := byte ∉ [CR, LF, NUL, 0x7F, 0xFF, 0xFD, 1]

instance : DecidablePred Typeable := fun _ => inferInstanceAs (Decidable (¬ _))

theorem not_typeable_CR : ¬ Typeable CR := by decide

theorem removeAll_singles (data bytes : Bytes) :
    removeAll data (bytes.map ([·])) = data.filter (· ∉ bytes) := by
  induction bytes generalizing data with
  | nil => simp [removeAll]
  | cons byte bytes induction =>
      have step : removeAll data ((byte :: bytes).map ([·])) =
          removeAll (replace [byte] [] data) (bytes.map ([·])) := rfl
      rw [step, induction, replace_single, List.filter_filter]
      apply List.filter_congr
      intro other _
      simp [not_or, Bool.and_comm]

theorem removeAll_typed {packet controls ending : Bytes} (contents : ∀ byte ∈ packet, Typeable byte)
    (known : ∀ byte ∈ controls, ¬ Typeable byte) (within : ∀ byte ∈ ending, byte ∈ controls) :
    removeAll (packet ++ ending) (controls.map ([·])) = packet := by
  rw [removeAll_singles, List.filter_append, List.filter_eq_self.mpr, List.filter_eq_nil_iff.mpr,
    List.append_nil]
  · intro byte member
    simpa using within byte member
  · intro byte member
    have : byte ∉ controls := fun isControl => known byte isControl (contents byte member)
    simpa using this

theorem encodeByte_ne_backspace {byte : UInt8} (typeable : Typeable byte) :
    encodeByte byte ≠ [0x7F] := by
  intro same
  by_cases small : byte < 0x80
  · rw [encodeByte_of_lt small] at same
    cases same
    exact absurd typeable (by decide)
  · have := length_encodeByte small
    rw [same] at this
    cases this

theorem processBackspaces_eq {typed : Bytes} (contents : ∀ byte ∈ typed, Typeable byte) :
    processBackspaces typed = typed.flatMap encodeByte := by
  have from_ : ∀ start, typed.foldl
      (fun n byte => if encodeByte byte = [0x7F] then n.dropLast else n ++ encodeByte byte) start =
        start ++ typed.flatMap encodeByte := by
    induction typed with
    | nil => simp
    | cons byte typed induction =>
        intro start
        have first := contents byte (List.mem_cons_self ..)
        have others := fun other member => contents other (List.mem_cons_of_mem byte member)
        rw [List.foldl_cons, if_neg (encodeByte_ne_backspace first), induction others,
          List.flatMap_cons, List.append_assoc]
  exact from_ []

theorem length_le_encoded (typed : Bytes) : typed.length ≤ (typed.flatMap encodeByte).length := by
  induction typed with
  | nil => exact Nat.le_refl _
  | cons byte typed induction =>
      rw [List.flatMap_cons, List.length_append, List.length_cons]
      have : 1 ≤ (encodeByte byte).length := by
        by_cases small : byte < 0x80
        · rw [encodeByte_of_lt small]
          exact Nat.le_refl _
        · rw [length_encodeByte small]
          decide
      omega

theorem processBackspaces_eq_self_iff {typed : Bytes} (contents : ∀ byte ∈ typed, Typeable byte) :
    processBackspaces typed = typed ↔ ∀ byte ∈ typed, byte < 0x80 := by
  rw [processBackspaces_eq contents]
  clear contents
  induction typed with
  | nil => simp
  | cons byte typed induction =>
      rw [List.flatMap_cons, List.forall_mem_cons]
      by_cases small : byte < 0x80
      · rw [encodeByte_of_lt small]
        simpa [small] using induction
      · constructor
        · intro same
          have lengths := congrArg List.length same
          rw [List.length_append, length_encodeByte small, List.length_cons] at lengths
          have := length_le_encoded typed
          omega
        · intro both
          exact absurd both.1 small

/-! ## What one call does -/

def Config.Shows (config : Config) (data : Bytes) : Prop :=
  config.logRaw = true → (config.decode data).isSome = true

instance (config : Config) : DecidablePred config.Shows := fun _ =>
  inferInstanceAs (Decidable (_ → _))

def Config.withoutEcho (config : Config) (waiting : Bool) (packet : Bytes) : Bytes :=
  if waiting then replace (config.backendLogin ++ [CR, LF]) [] packet else packet

namespace Handler

variable {config : Config}

theorem decode_returns (handler : Handler) (data : Bytes) :
    ReturnsWhen (handler.decode config data) ((config.decode data).isSome = true)
      (fun _ => True) := by
  rw [decode]
  cases config.decode data with
  | none => exact (ReturnsWhen.raising ⟨_, rfl⟩).congr (by simp)
  | some text => exact (ReturnsWhen.ok trivial).congr (by simp)

theorem logRaw_returns (handler : Handler) (data : Bytes) :
    ReturnsWhen (handler.logRaw config data) (config.Shows data) (· = handler) := by
  rw [logRaw, Config.Shows]
  split
  · next printed =>
    have decoded := @decode_returns config handler data
    refine ReturnsWhen.congr ?_ (decoded.bind_ok fun _ _ => ⟨handler, rfl, rfl⟩)
    simp [printed]
  · next silent =>
    refine ReturnsWhen.congr ?_ (.ok rfl)
    simp [silent]

theorem ttylogWrite_eq (handler : Handler) (direction : TtyDirection) (data : Bytes) :
    ∃ ttylog, handler.ttylogWrite direction data = { handler with ttylog := ttylog } := by
  rw [ttylogWrite]
  split
  · exact ⟨_, rfl⟩
  · exact ⟨handler.ttylog, rfl⟩

theorem ttylogInput_eq (handler : Handler) (data : Bytes) :
    ∃ ttylog ttylogSize, handler.ttylogInput data =
      { handler with ttylog := ttylog, ttylogSize := ttylogSize } := by
  rw [ttylogInput]
  split
  · obtain ⟨ttylog, equal⟩ := ttylogWrite_eq handler .input (replace [NUL] [LF] data)
    rw [equal]
    exact ⟨ttylog, _, rfl⟩
  · exact ⟨handler.ttylog, handler.ttylogSize, rfl⟩

def ShownTo (handler next : Handler) : Prop :=
  ∃ toFrontend ttylog, next = { handler with toFrontend := toFrontend, ttylog := ttylog }

theorem ShownTo.authDone {handler next : Handler} (shown : handler.ShownTo next) :
    next.authDone = handler.authDone := by
  obtain ⟨_, _, rfl⟩ := shown
  rfl

theorem ShownTo.sendData {handler next : Handler} (shown : handler.ShownTo next) :
    next.sendData = handler.sendData := by
  obtain ⟨_, _, rfl⟩ := shown
  rfl

theorem ShownTo.currentData {handler next : Handler} (shown : handler.ShownTo next) :
    next.currentData = handler.currentData := by
  obtain ⟨_, _, rfl⟩ := shown
  rfl

theorem sendFrontend_returns (handler : Handler) (data : Bytes) :
    ReturnsWhen (handler.sendFrontend config data) (config.Shows data) handler.ShownTo := by
  rw [sendFrontend]
  refine (logRaw_returns _ data).bind_ok fun next same => ?_
  obtain ⟨ttylog, equal⟩ := ttylogWrite_eq next .output data
  rw [equal, same]
  exact ⟨_, rfl, _, ttylog, rfl⟩

def SentTo (data : Bytes) (handler next : Handler) : Prop :=
  ∃ ttylog ttylogSize, next = { handler with
    decided := handler.decided ++ [data]
    toBackend := handler.toBackend ++ [data]
    backendBuffer := []
    ttylog := ttylog
    ttylogSize := ttylogSize }

theorem sendBackend_returns {handler : Handler} (data : Bytes) (client : handler.client = true)
    (nothing : handler.backendBuffer = []) :
    ReturnsWhen (handler.sendBackend config data) (config.Shows data) (handler.SentTo data) := by
  rw [sendBackend, nothing, if_neg (by simp [client])]
  refine (logRaw_returns _ data).bind_ok fun next same => ?_
  obtain ⟨ttylog, ttylogSize, equal⟩ := ttylogInput_eq next data
  rw [equal, same]
  exact ⟨_, rfl, ttylog, ttylogSize, rfl⟩

theorem terminatingChar_of_whole {handler : Handler} {packet : Bytes} {lineEnd : UInt8}
    (contents : ∀ byte ∈ packet, Typeable byte) (ending : EndsLine lineEnd)
    (data : handler.currentData = packet ++ [CR, lineEnd]) :
    handler.terminatingChar = .ok [lineEnd] := by
  have notCR : CR ∉ packet := fun member => not_typeable_CR (contents CR member)
  have small : lineEnd < 0x80 := by
    rcases ending with rfl | rfl <;> decide
  rw [terminatingChar, data, List.idxOf_append_of_notMem notCR]
  simp [encodeByte_of_lt small]

theorem terminatingChar_of_broken {handler : Handler} {packet : Bytes}
    (contents : ∀ byte ∈ packet, Typeable byte) (data : handler.currentData = packet ++ [CR]) :
    handler.terminatingChar = .error (.indexError, handler) := by
  have notCR : CR ∉ packet := fun member => not_typeable_CR (contents CR member)
  rw [terminatingChar, data, List.idxOf_append_of_notMem notCR]
  simp

/-! ### The user name -/

theorem readUsername_eq {handler : Handler} {packet ending : Bytes}
    (contents : ∀ byte ∈ packet, Typeable byte) (data : handler.currentData = packet ++ ending)
    (within : ∀ byte ∈ ending, byte ∈ [CR, NUL, LF]) :
    handler.readUsername =
      { handler with sendData := false, usernameState := handler.usernameState ++ packet } := by
  have removed : removeAll handler.currentData [[CR], [NUL], [LF]] = packet := by
    rw [data]
    exact removeAll_typed contents (by decide +kernel) within
  rw [readUsername, removed]

theorem finishUsername_returns {handler : Handler} {packet : Bytes} {lineEnd : UInt8}
    (contents : ∀ byte ∈ packet, Typeable byte) (ending : EndsLine lineEnd)
    (data : handler.currentData = packet ++ [CR, lineEnd]) :
    ReturnsWhen (handler.finishUsername config)
      ((config.decode (processBackspaces handler.usernameState)).isSome = true)
      (· = { handler with
        usernameState := processBackspaces handler.usernameState
        inputingLogin := false
        currentData := config.backendLogin ++ [CR] ++ [lineEnd]
        sendData := true
        waitingLoginEcho := true }) := by
  rw [finishUsername, terminatingChar_of_whole contents ending data]
  exact (decode_returns _ _).bind_ok fun _ _ => ⟨_, rfl, rfl⟩

theorem finishUsername_breaks {handler : Handler} {packet : Bytes}
    (contents : ∀ byte ∈ packet, Typeable byte) (data : handler.currentData = packet ++ [CR]) :
    handler.finishUsername config = .error (.indexError, handler) := by
  rw [finishUsername, terminatingChar_of_broken contents data]
  rfl

theorem processUsernameInput_typed {handler : Handler}
    (contents : ∀ byte ∈ handler.currentData, Typeable byte) :
    ReturnsWhen (handler.processUsernameInput config) (config.Shows (echo handler.currentData))
      { handler with
        sendData := false
        usernameState := handler.usernameState ++ handler.currentData }.ShownTo := by
  have notCR : CR ∉ handler.currentData := fun member => not_typeable_CR (contents CR member)
  have read := readUsername_eq contents (List.append_nil _).symm (by simp)
  rw [processUsernameInput, read]
  refine (sendFrontend_returns _ _).bind_ok ?_
  rintro next ⟨toFrontend, ttylog, rfl⟩
  exact ⟨_, if_neg notCR, toFrontend, ttylog, rfl⟩

theorem processUsernameInput_ends {handler : Handler} {packet : Bytes} {lineEnd : UInt8}
    (contents : ∀ byte ∈ packet, Typeable byte) (ending : EndsLine lineEnd)
    (data : handler.currentData = packet ++ [CR, lineEnd]) :
    ReturnsWhen (handler.processUsernameInput config)
      (config.Shows (echo handler.currentData) ∧
        (config.decode (processBackspaces (handler.usernameState ++ packet))).isSome = true)
      { handler with
        usernameState := processBackspaces (handler.usernameState ++ packet)
        inputingLogin := false
        currentData := config.backendLogin ++ [CR] ++ [lineEnd]
        sendData := true
        waitingLoginEcho := true }.ShownTo := by
  have hasCR : CR ∈ handler.currentData := by simp [data]
  have read := readUsername_eq contents data (by rcases ending with rfl | rfl <;> decide +kernel)
  rw [processUsernameInput, read]
  refine (sendFrontend_returns _ _).bind ?_
  rintro next ⟨toFrontend, ttylog, rfl⟩
  rw [if_pos hasCR]
  refine ReturnsWhen.imp ?_ (finishUsername_returns contents ending data)
  rintro next rfl
  exact ⟨toFrontend, ttylog, rfl⟩

theorem processUsernameInput_breaks {handler : Handler} {packet : Bytes}
    (contents : ∀ byte ∈ packet, Typeable byte) (data : handler.currentData = packet ++ [CR]) :
    ∃ error, handler.processUsernameInput config = .error error := by
  have hasCR : CR ∈ handler.currentData := by simp [data]
  have read := readUsername_eq contents data (by decide +kernel)
  rw [processUsernameInput, read]
  refine (sendFrontend_returns _ _).bind_raises ?_
  rintro next ⟨toFrontend, ttylog, rfl⟩
  rw [if_pos hasCR]
  exact ⟨_, finishUsername_breaks contents data⟩

/-! ### The password -/

theorem readPassword_eq {handler : Handler} {packet ending : Bytes}
    (contents : ∀ byte ∈ packet, Typeable byte) (data : handler.currentData = packet ++ ending)
    (within : ∀ byte ∈ ending, byte ∈ [0xFF, 0xFD, 1, CR, NUL, LF]) :
    handler.readPassword =
      { handler with passwordState := handler.passwordState ++ packet } := by
  have removed : removeAll handler.currentData [[0xFF], [0xFD], [1], [CR], [NUL], [LF]] = packet := by
    rw [data]
    exact removeAll_typed contents (by decide +kernel) within
  rw [readPassword, removed]

theorem takePassword_typed {handler : Handler}
    (contents : ∀ byte ∈ handler.currentData, Typeable byte) :
    handler.takePassword config = .ok { handler with
      passwordState := handler.passwordState ++ handler.currentData } := by
  have notCR : CR ∉ handler.currentData := fun member => not_typeable_CR (contents CR member)
  rw [takePassword, readPassword_eq contents (List.append_nil _).symm (by simp)]
  exact if_neg notCR

def Checked (config : Config) (password : Bytes) (lineEnd : UInt8) (handler next : Handler) : Prop :=
  let accepted := config.checkUserPass handler.checks handler.usernameState password
  next = { handler with
    passwordState := password
    inputingPassword := false
    checks := handler.checks ++ [(handler.usernameState, password)]
    authDone := handler.authDone || accepted
    currentData := config.passwordToSend accepted ++ [CR] ++ [lineEnd]
    sendData := true }

theorem finishPassword_returns {handler : Handler} {packet : Bytes} {lineEnd : UInt8}
    (contents : ∀ byte ∈ packet, Typeable byte) (ending : EndsLine lineEnd)
    (data : handler.currentData = packet ++ [CR, lineEnd]) :
    ReturnsWhen (handler.finishPassword config)
      ((config.decode (processBackspaces handler.passwordState)).isSome = true)
      (handler.Checked config (processBackspaces handler.passwordState) lineEnd) := by
  rw [finishPassword, terminatingChar_of_whole contents ending data]
  exact (decode_returns _ _).bind_ok fun _ _ => ⟨_, rfl, rfl⟩

theorem finishPassword_breaks {handler : Handler} {packet : Bytes}
    (contents : ∀ byte ∈ packet, Typeable byte) (data : handler.currentData = packet ++ [CR]) :
    handler.finishPassword config = .error (.indexError, handler) := by
  rw [finishPassword, terminatingChar_of_broken contents data]
  rfl

theorem Checked.inputingLogin {handler next : Handler} {password : Bytes} {lineEnd : UInt8}
    (checked : handler.Checked config password lineEnd next) :
    next.inputingLogin = handler.inputingLogin := by
  rw [Checked] at checked
  rw [checked]

theorem takePassword_ends {handler : Handler} {packet : Bytes} {lineEnd : UInt8}
    (contents : ∀ byte ∈ packet, Typeable byte) (ending : EndsLine lineEnd)
    (data : handler.currentData = packet ++ [CR, lineEnd]) :
    ReturnsWhen (handler.takePassword config)
      ((config.decode (processBackspaces (handler.passwordState ++ packet))).isSome = true)
      (handler.Checked config (processBackspaces (handler.passwordState ++ packet)) lineEnd) := by
  have hasCR : CR ∈ handler.currentData := by simp [data]
  rw [takePassword, readPassword_eq contents data (by rcases ending with rfl | rfl <;> decide +kernel),
    if_pos hasCR]
  exact finishPassword_returns contents ending data

theorem takePassword_breaks {handler : Handler} {packet : Bytes}
    (contents : ∀ byte ∈ packet, Typeable byte) (data : handler.currentData = packet ++ [CR]) :
    ∃ error, handler.takePassword config = .error error := by
  have hasCR : CR ∈ handler.currentData := by simp [data]
  rw [takePassword, readPassword_eq contents data (by decide +kernel), if_pos hasCR]
  exact ⟨_, finishPassword_breaks contents data⟩

def prePassword (handler : Handler) : Bytes :=
  if handler.prePasswordData then handler.currentData.take 3 else []

def PrePasswordSent (handler next : Handler) : Prop :=
  ∃ decided toBackend ttylog ttylogSize,
    toBackend.flatten = handler.toBackend.flatten ++ handler.prePassword ∧ next = { handler with
      prePasswordData := false
      decided := decided
      toBackend := toBackend
      backendBuffer := []
      ttylog := ttylog
      ttylogSize := ttylogSize }

theorem PrePasswordSent.authDone {handler next : Handler} (sent : handler.PrePasswordSent next) :
    next.authDone = handler.authDone := by
  obtain ⟨_, _, _, _, _, rfl⟩ := sent
  rfl

theorem PrePasswordSent.sendData {handler next : Handler} (sent : handler.PrePasswordSent next) :
    next.sendData = handler.sendData := by
  obtain ⟨_, _, _, _, _, rfl⟩ := sent
  rfl

theorem PrePasswordSent.inputingLogin {handler next : Handler}
    (sent : handler.PrePasswordSent next) : next.inputingLogin = handler.inputingLogin := by
  obtain ⟨_, _, _, _, _, rfl⟩ := sent
  rfl

theorem sendPrePasswordData_returns {handler : Handler} (client : handler.client = true)
    (nothing : handler.backendBuffer = []) :
    ReturnsWhen (handler.sendPrePasswordData config)
      (handler.prePasswordData = true → config.Shows (handler.currentData.take 3))
      handler.PrePasswordSent := by
  rw [sendPrePasswordData]
  split
  · next sends =>
    refine ReturnsWhen.congr ?_ ((sendBackend_returns _ client nothing).bind_ok ?_)
    · simp [sends]
    · rintro next ⟨ttylog, ttylogSize, rfl⟩
      refine ⟨_, rfl, _, handler.toBackend ++ [handler.currentData.take 3], ttylog, ttylogSize, ?_,
        rfl⟩
      rw [prePassword, if_pos sends, List.flatten_concat]
  · next silent =>
    refine ReturnsWhen.congr ?_
      (.ok ⟨handler.decided, handler.toBackend, handler.ttylog, handler.ttylogSize, ?_, ?_⟩)
    · simp [silent]
    · rw [prePassword, if_neg silent, List.append_nil]
    · rw [← nothing, ← Bool.eq_false_of_not_eq_true silent]

theorem processPasswordInput_typed {handler : Handler}
    (contents : ∀ byte ∈ handler.currentData, Typeable byte) (client : handler.client = true)
    (nothing : handler.backendBuffer = []) :
    ReturnsWhen (handler.processPasswordInput config)
      (handler.prePasswordData = true → config.Shows (handler.currentData.take 3))
      { handler with
        sendData := false
        passwordState := handler.passwordState ++ handler.currentData }.PrePasswordSent := by
  rw [processPasswordInput]
  refine ReturnsWhen.bind_ok (sendPrePasswordData_returns client nothing) ?_
  rintro next ⟨decided, toBackend, ttylog, ttylogSize, sent, rfl⟩
  exact ⟨_, takePassword_typed contents, decided, toBackend, ttylog, ttylogSize, sent, rfl⟩

theorem processPasswordInput_ends {handler : Handler} {packet : Bytes} {lineEnd : UInt8}
    (contents : ∀ byte ∈ packet, Typeable byte) (ending : EndsLine lineEnd)
    (data : handler.currentData = packet ++ [CR, lineEnd]) (client : handler.client = true)
    (nothing : handler.backendBuffer = []) :
    ReturnsWhen (handler.processPasswordInput config)
      ((handler.prePasswordData = true → config.Shows (handler.currentData.take 3)) ∧
        (config.decode (processBackspaces (handler.passwordState ++ packet))).isSome = true)
      (fun next => ∃ before, { handler with sendData := false }.PrePasswordSent before ∧
        before.Checked config (processBackspaces (handler.passwordState ++ packet)) lineEnd
          next) := by
  rw [processPasswordInput]
  refine ReturnsWhen.bind (sendPrePasswordData_returns client nothing) ?_
  rintro next ⟨decided, toBackend, ttylog, ttylogSize, sent, rfl⟩
  refine ReturnsWhen.imp ?_ (takePassword_ends contents ending data)
  intro last checked
  exact ⟨_, ⟨decided, toBackend, ttylog, ttylogSize, sent, rfl⟩, checked⟩

theorem processPasswordInput_breaks {handler : Handler} {packet : Bytes}
    (contents : ∀ byte ∈ packet, Typeable byte) (data : handler.currentData = packet ++ [CR])
    (client : handler.client = true) (nothing : handler.backendBuffer = []) :
    ∃ error, handler.processPasswordInput config = .error error := by
  rw [processPasswordInput]
  refine ReturnsWhen.bind_raises (sendPrePasswordData_returns client nothing) ?_
  rintro next ⟨decided, toBackend, ttylog, ttylogSize, sent, rfl⟩
  exact takePassword_breaks contents data

/-! ### The prompts -/

theorem dropLoginEcho_eq (handler : Handler) :
    handler.dropLoginEcho config = { handler with
      currentData := config.withoutEcho handler.waitingLoginEcho handler.currentData
      waitingLoginEcho := false } := by
  rw [dropLoginEcho, Config.withoutEcho]
  split
  · rfl
  · next silent => rw [← Bool.eq_false_of_not_eq_true silent]

theorem setProcessingStateBackend_eq (handler : Handler) :
    handler.setProcessingStateBackend config =
      let asksPassword := config.hasPassword handler.currentData
      let asksLogin := config.hasLogin handler.currentData
      { handler with
        authStarted := handler.authStarted || asksPassword || asksLogin
        inputingPassword := handler.inputingPassword || asksPassword
        passwordState := if asksPassword then [] else handler.passwordState
        inputingLogin := handler.inputingLogin || asksLogin
        usernameState := if asksLogin then [] else handler.usernameState
        prePasswordData := [0xFF, 0xFB, 1] <:+: handler.currentData } := by
  rw [setProcessingStateBackend]
  cases asksPassword : config.hasPassword handler.currentData <;>
    cases asksLogin : config.hasLogin handler.currentData <;>
    simp [asksLogin]

/-! ### A packet -/

theorem logCommands_eq (next : Handler) (packet : Bytes) :
    ∃ currentCommand log, next.logCommands packet =
      { next with currentCommand := currentCommand, log := log } := by
  rw [logCommands]
  split
  · exact ⟨_, _, rfl⟩
  · exact ⟨_, _, rfl⟩

theorem sendOn_open {parent : Parent} {packet : Bytes} {next : Handler}
    (open_ : next.authDone = false) :
    (if parent = .frontend ∧ next.authDone = true then next.logCommands packet else next).sendOn
      config parent = next.sendOn config parent := by
  rw [if_neg (by simp [open_])]

theorem addPacket_spoofed {handler : Handler} {packet : Bytes} (parent : Parent)
    (spoofs : config.spoofAuthenticationData = true) (open_ : handler.authDone = false) :
    handler.addPacket config parent packet =
      (handler.receive packet).spoofAuthentication config parent >>= fun next =>
        (if parent = .frontend ∧ next.authDone = true then next.logCommands packet
          else next).sendOn config parent := by
  have receiving : (handler.receive packet).authDone = false := open_
  rw [addPacket, spoofs, receiving]
  rfl

end Handler

end TelnetProxy

end LlmHoneypot
