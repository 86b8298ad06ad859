import LlmHoneypot.TelnetProxy.Calls

/-! # Credentials in the telnet proxy

A user name and a password typed at the prompts of the backend, cut into any packets, and
what the handler makes of them. -/

namespace LlmHoneypot

namespace TelnetProxy

open Nvt ByteString

/-- A user name is found in the negotiation only after the byte that starts a command. -/
def Config.MarksNegotiation (config : Config) : Prop :=
  ∀ data, 0xFF ∉ data → config.negotiationLogin data = none

/-- What is passed on of the packets of the backend. -/
def Config.outputs (config : Config) : Bool → List Bytes → List Bytes
  | _, [] => []
  | waiting, packet :: packets => config.withoutEcho waiting packet :: config.outputs false packets

theorem Config.shows_nil (config : Config) : config.Shows [] := fun _ => rfl

/-- The password that the backend is sent for a login. -/
def Config.answer (config : Config) (checks : List (Bytes × Bytes)) (username password : Bytes) :
    Bytes :=
  config.passwordToSend (config.checkUserPass checks username password)

namespace Handler

variable {config : Config} {handler : Handler}

structure Awaits (checks : List (Bytes × Bytes)) (sent : Bytes) (handler : Handler) : Prop where
  authDone : handler.authDone = false
  client : handler.client = true
  nothing : handler.backendBuffer = []
  checksEq : handler.checks = checks
  sentEq : handler.toBackend.flatten = sent

structure AtLogin (checks : List (Bytes × Bytes)) (sent typed : Bytes) (handler : Handler) : Prop
    extends Awaits checks sent handler where
  inputingLogin : handler.inputingLogin = true
  inputingPassword : handler.inputingPassword = false
  usernameState : handler.usernameState = typed

/-- The user name is read, the password is not asked for. -/
structure Named (checks : List (Bytes × Bytes)) (sent username : Bytes) (waiting : Bool)
    (handler : Handler) : Prop extends Awaits checks sent handler where
  inputingLogin : handler.inputingLogin = false
  inputingPassword : handler.inputingPassword = false
  usernameState : handler.usernameState = username
  waitingLoginEcho : handler.waitingLoginEcho = waiting

structure AtPassword (checks : List (Bytes × Bytes)) (sent username : Bytes) (negotiates : Bool)
    (typed : Bytes) (handler : Handler) : Prop extends Awaits checks sent handler where
  inputingLogin : handler.inputingLogin = false
  inputingPassword : handler.inputingPassword = true
  usernameState : handler.usernameState = username
  prePasswordData : handler.prePasswordData = negotiates
  passwordState : handler.passwordState = typed

theorem sendOn_withheld (parent : Parent) (withheld : handler.sendData = false) :
    handler.sendOn config parent = .ok handler := by
  rw [sendOn.eq_def, withheld]
  rfl

theorem sendOn_frontend (sends : handler.sendData = true) (some_ : CR ∈ handler.currentData) :
    handler.sendOn config .frontend = handler.sendBackend config handler.currentData := by
  have nonempty : handler.currentData ≠ [] := List.ne_nil_of_mem some_
  rw [sendOn.eq_def, sends]
  simp [nonempty]

theorem receive_unmatched {packet : Bytes} (noLogin : config.negotiationLogin packet = none) :
    (handler.receive packet).setProcessingStateFrontend config = .ok (handler.receive packet) := by
  have unmatched : config.negotiationLogin (handler.receive packet).currentData = none := noLogin
  rw [setProcessingStateFrontend, unmatched]

theorem AtLogin.spoof {checks : List (Bytes × Bytes)} {sent typed packet : Bytes}
    (atLogin : AtLogin checks sent typed handler)
    (noLogin : config.negotiationLogin packet = none) :
    (handler.receive packet).spoofAuthentication config .frontend =
      (handler.receive packet).processUsernameInput config := by
  have noPassword : (handler.receive packet).savePassword config = .ok (handler.receive packet) :=
    if_neg (by simp [receive, atLogin.inputingPassword])
  rw [spoofAuthentication.eq_def, receive_unmatched noLogin]
  refine (congrArg (· >>= _) noPassword).trans ?_
  exact if_pos atLogin.inputingLogin

theorem AtPassword.spoof {checks : List (Bytes × Bytes)} {sent username typed packet : Bytes}
    {negotiates : Bool} (atPassword : AtPassword checks sent username negotiates typed handler)
    (noLogin : config.negotiationLogin packet = none) :
    (handler.receive packet).spoofAuthentication config .frontend =
      (handler.receive packet).processPasswordInput config >>= fun next =>
        next.saveUsername config := by
  have password : (handler.receive packet).savePassword config =
      (handler.receive packet).processPasswordInput config := if_pos atPassword.inputingPassword
  rw [spoofAuthentication.eq_def, receive_unmatched noLogin]
  exact congrArg (· >>= _) password

theorem named_before {next : Handler} {later : Handler → Call}
    (nameless : next.inputingLogin = false) :
    (next.saveUsername config >>= later) = later next := by
  rw [saveUsername, if_neg (by simp [nameless])]
  rfl

/-! ## The user name -/

theorem AtLogin.typed {checks : List (Bytes × Bytes)} {sent typed packet : Bytes}
    (spoofs : config.spoofAuthenticationData = true)
    (noLogin : config.negotiationLogin packet = none)
    (contents : ∀ byte ∈ packet, Typeable byte) (atLogin : AtLogin checks sent typed handler) :
    ReturnsWhen (handler.addPacket config .frontend packet) (config.Shows (echo packet))
      (AtLogin checks sent (typed ++ packet)) := by
  rw [addPacket_spoofed .frontend spoofs atLogin.authDone, atLogin.spoof noLogin]
  refine ReturnsWhen.bind_ok (processUsernameInput_typed contents) ?_
  intro next shown
  have open_ : next.authDone = false := shown.authDone.trans atLogin.authDone
  have withheld : next.sendData = false := shown.sendData
  refine ⟨next, (sendOn_open open_).trans (sendOn_withheld .frontend withheld), ?_⟩
  obtain ⟨toFrontend, ttylog, rfl⟩ := shown
  exact
    { authDone := atLogin.authDone
      client := atLogin.client
      nothing := atLogin.nothing
      checksEq := atLogin.checksEq
      sentEq := atLogin.sentEq
      inputingLogin := atLogin.inputingLogin
      inputingPassword := atLogin.inputingPassword
      usernameState := congrArg (· ++ packet) atLogin.usernameState }

theorem AtLogin.ends {checks : List (Bytes × Bytes)} {sent typed packet : Bytes} {lineEnd : UInt8}
    (spoofs : config.spoofAuthenticationData = true)
    (noLogin : config.negotiationLogin (packet ++ [CR, lineEnd]) = none)
    (contents : ∀ byte ∈ packet, Typeable byte) (ending : EndsLine lineEnd)
    (atLogin : AtLogin checks sent typed handler) :
    ReturnsWhen (handler.addPacket config .frontend (packet ++ [CR, lineEnd]))
      (config.Shows (echo (packet ++ [CR, lineEnd])) ∧
        (config.decode (processBackspaces (typed ++ packet))).isSome = true ∧
          config.Shows (config.backendLogin ++ [CR] ++ [lineEnd]))
      (Named checks (sent ++ (config.backendLogin ++ [CR] ++ [lineEnd]))
        (processBackspaces (typed ++ packet)) true) := by
  rw [addPacket_spoofed .frontend spoofs atLogin.authDone, atLogin.spoof noLogin, ← and_assoc,
    ← atLogin.usernameState]
  refine ReturnsWhen.bind (processUsernameInput_ends contents ending rfl) ?_
  intro next shown
  have open_ : next.authDone = false := shown.authDone.trans atLogin.authDone
  have data : next.currentData = config.backendLogin ++ [CR] ++ [lineEnd] := shown.currentData
  rw [sendOn_open open_, sendOn_frontend shown.sendData (by simp [data]), data]
  obtain ⟨toFrontend, ttylog, rfl⟩ := shown
  refine ReturnsWhen.imp ?_ (sendBackend_returns _ atLogin.client atLogin.nothing)
  rintro last ⟨ttylog, ttylogSize, rfl⟩
  exact
    { authDone := atLogin.authDone
      client := atLogin.client
      nothing := rfl
      checksEq := atLogin.checksEq
      sentEq := List.flatten_concat.trans (congrArg (· ++ _) atLogin.sentEq)
      inputingLogin := rfl
      inputingPassword := atLogin.inputingPassword
      usernameState := rfl
      waitingLoginEcho := rfl }

theorem AtLogin.breaks {checks : List (Bytes × Bytes)} {sent typed packet : Bytes}
    (spoofs : config.spoofAuthenticationData = true)
    (noLogin : config.negotiationLogin (packet ++ [CR]) = none)
    (contents : ∀ byte ∈ packet, Typeable byte) (atLogin : AtLogin checks sent typed handler) :
    ∃ error, handler.addPacket config .frontend (packet ++ [CR]) = .error error := by
  obtain ⟨error, raised⟩ :=
    @processUsernameInput_breaks config (handler.receive (packet ++ [CR])) packet contents rfl
  rw [addPacket_spoofed .frontend spoofs atLogin.authDone, atLogin.spoof noLogin, raised]
  exact ⟨error, rfl⟩

/-! ## The password -/

theorem loggedIf_eq (next : Handler) (packet : Bytes) :
    ∃ currentCommand log,
      (if Parent.frontend = .frontend ∧ next.authDone = true then next.logCommands packet
        else next) = { next with currentCommand := currentCommand, log := log } := by
  split
  · exact logCommands_eq next packet
  · exact ⟨next.currentCommand, next.log, rfl⟩

def negotiated (negotiates : Bool) (packet : Bytes) : Bytes :=
  if negotiates then packet.take 3 else []

/-- The login is checked and the backend has its answer. -/
structure Answered (checks : List (Bytes × Bytes)) (sent : Bytes) (handler : Handler) : Prop where
  checksEq : handler.checks = checks
  sentEq : handler.toBackend.flatten = sent

theorem AtPassword.typed {checks : List (Bytes × Bytes)} {sent username typed packet : Bytes}
    {negotiates : Bool} (spoofs : config.spoofAuthenticationData = true)
    (noLogin : config.negotiationLogin packet = none)
    (contents : ∀ byte ∈ packet, Typeable byte)
    (atPassword : AtPassword checks sent username negotiates typed handler) :
    ReturnsWhen (handler.addPacket config .frontend packet)
      (negotiates = true → config.Shows (packet.take 3))
      (AtPassword checks (sent ++ negotiated negotiates packet) username false
        (typed ++ packet)) := by
  rw [addPacket_spoofed .frontend spoofs atPassword.authDone, atPassword.spoof noLogin, bind_assoc,
    ← atPassword.prePasswordData]
  refine ReturnsWhen.bind_ok
    (processPasswordInput_typed contents atPassword.client atPassword.nothing) ?_
  intro next before
  have open_ : next.authDone = false := before.authDone.trans atPassword.authDone
  have withheld : next.sendData = false := before.sendData
  have nameless : next.inputingLogin = false := before.inputingLogin.trans atPassword.inputingLogin
  rw [named_before nameless]
  refine ⟨next, (sendOn_open open_).trans (sendOn_withheld .frontend withheld), ?_⟩
  obtain ⟨decided, toBackend, ttylog, ttylogSize, sentEq, rfl⟩ := before
  exact
    { authDone := atPassword.authDone
      client := atPassword.client
      nothing := rfl
      checksEq := atPassword.checksEq
      sentEq := sentEq.trans (congrArg (· ++ _) atPassword.sentEq)
      inputingLogin := atPassword.inputingLogin
      inputingPassword := atPassword.inputingPassword
      usernameState := atPassword.usernameState
      prePasswordData := rfl
      passwordState := congrArg (· ++ packet) atPassword.passwordState }

theorem AtPassword.ends {checks : List (Bytes × Bytes)} {sent username typed packet : Bytes}
    {negotiates : Bool} {lineEnd : UInt8} (spoofs : config.spoofAuthenticationData = true)
    (noLogin : config.negotiationLogin (packet ++ [CR, lineEnd]) = none)
    (contents : ∀ byte ∈ packet, Typeable byte) (ending : EndsLine lineEnd)
    (atPassword : AtPassword checks sent username negotiates typed handler) :
    ReturnsWhen (handler.addPacket config .frontend (packet ++ [CR, lineEnd]))
      ((negotiates = true → config.Shows ((packet ++ [CR, lineEnd]).take 3)) ∧
        (config.decode (processBackspaces (typed ++ packet))).isSome = true ∧
          config.Shows (config.answer checks username (processBackspaces (typed ++ packet)) ++ [CR] ++ [lineEnd]))
      (Answered (checks ++ [(username, processBackspaces (typed ++ packet))])
        (sent ++ negotiated negotiates (packet ++ [CR, lineEnd]) ++
          (config.answer checks username (processBackspaces (typed ++ packet)) ++ [CR] ++ [lineEnd]))) := by
  rw [addPacket_spoofed .frontend spoofs atPassword.authDone, atPassword.spoof noLogin, bind_assoc,
    ← atPassword.prePasswordData, ← atPassword.passwordState, ← and_assoc]
  refine ReturnsWhen.bind
    (processPasswordInput_ends contents ending rfl atPassword.client atPassword.nothing) ?_
  rintro next ⟨before, sentBefore, checked⟩
  have nameless : next.inputingLogin = false :=
    checked.inputingLogin.trans (sentBefore.inputingLogin.trans atPassword.inputingLogin)
  obtain ⟨currentCommand, log, logged⟩ := loggedIf_eq next (packet ++ [CR, lineEnd])
  rw [named_before nameless, logged]
  obtain ⟨decided, toBackend, ttylog, ttylogSize, sentEq, rfl⟩ := sentBefore
  rw [← atPassword.checksEq, ← atPassword.usernameState, ← atPassword.sentEq]
  rw [Checked] at checked
  subst checked
  rw [sendOn_frontend rfl (by simp)]
  refine ReturnsWhen.imp ?_ (sendBackend_returns _ atPassword.client rfl)
  rintro last ⟨ttylog, ttylogSize, rfl⟩
  exact
    { checksEq := rfl
      sentEq := List.flatten_concat.trans (congrArg (· ++ _) sentEq) }

theorem AtPassword.breaks {checks : List (Bytes × Bytes)} {sent username typed packet : Bytes}
    {negotiates : Bool} (spoofs : config.spoofAuthenticationData = true)
    (noLogin : config.negotiationLogin (packet ++ [CR]) = none)
    (contents : ∀ byte ∈ packet, Typeable byte)
    (atPassword : AtPassword checks sent username negotiates typed handler) :
    ∃ error, handler.addPacket config .frontend (packet ++ [CR]) = .error error := by
  obtain ⟨error, raised⟩ :=
    @processPasswordInput_breaks config (handler.receive (packet ++ [CR])) packet contents rfl
      atPassword.client atPassword.nothing
  rw [addPacket_spoofed .frontend spoofs atPassword.authDone, atPassword.spoof noLogin, raised]
  exact ⟨error, rfl⟩

/-! ## Lines in packets -/

theorem noNegotiation {packet ending : Bytes} (marked : config.MarksNegotiation)
    (contents : ∀ byte ∈ packet, Typeable byte) (plain : 0xFF ∉ ending) :
    config.negotiationLogin (packet ++ ending) = none := by
  apply marked
  rw [List.mem_append, not_or]
  exact ⟨fun member => absurd (contents 0xFF member) (by decide), plain⟩

theorem noNegotiation_typed {packet : Bytes} (marked : config.MarksNegotiation)
    (contents : ∀ byte ∈ packet, Typeable byte) : config.negotiationLogin packet = none :=
  marked packet fun member => absurd (contents 0xFF member) (by decide)

theorem notMarked {lineEnd : UInt8} (ending : EndsLine lineEnd) : 0xFF ∉ [CR, lineEnd] := by
  rcases ending with rfl | rfl <;> decide

theorem notCR {lineEnd : UInt8} (ending : EndsLine lineEnd) : lineEnd ≠ CR := by
  rcases ending with rfl | rfl <;> decide

def take (config : Config) (handler : Handler) (packet : Bytes) : Call :=
  handler.addPacket config .frontend packet

section

variable {checks : List (Bytes × Bytes)} {sent : Bytes} {lineEnd : UInt8}
  (spoofs : config.spoofAuthenticationData = true) (marked : config.MarksNegotiation)
  (ending : EndsLine lineEnd)

include spoofs marked ending

theorem loginReceiver :
    Receiver (take config) Typeable lineEnd (AtLogin checks sent)
      (fun packet => config.Shows (echo packet))
      (fun username => (config.decode (processBackspaces username)).isSome = true ∧
        config.Shows (config.backendLogin ++ [CR] ++ [lineEnd]))
      (fun username => Named checks (sent ++ (config.backendLogin ++ [CR] ++ [lineEnd]))
        (processBackspaces username) true) where
  typed contents atLogin :=
    atLogin.typed spoofs (noNegotiation_typed marked contents) contents
  ends contents atLogin :=
    atLogin.ends spoofs (noNegotiation marked contents (notMarked ending)) contents ending
  breaks contents atLogin :=
    atLogin.breaks spoofs (noNegotiation marked contents (by decide)) contents

theorem passwordReceiver {username : Bytes} :
    Receiver (take config) Typeable lineEnd (AtPassword checks sent username false)
      (fun _ => True)
      (fun password => (config.decode (processBackspaces password)).isSome = true ∧
        config.Shows
          (config.answer checks username (processBackspaces password) ++ [CR] ++ [lineEnd]))
      (fun password => Answered (checks ++ [(username, processBackspaces password)])
        (sent ++ (config.answer checks username (processBackspaces password) ++ [CR] ++
          [lineEnd]))) where
  typed contents atPassword := by
    have typed := atPassword.typed spoofs (noNegotiation_typed marked contents) contents
    simp only [negotiated, Bool.false_eq_true, if_false, List.append_nil, false_imp_iff] at typed
    exact typed
  ends contents atPassword := by
    have ends := atPassword.ends spoofs (noNegotiation marked contents (notMarked ending))
      contents ending
    simp only [negotiated, Bool.false_eq_true, if_false, List.append_nil, false_imp_iff] at ends
    exact ends
  breaks contents atPassword :=
    atPassword.breaks spoofs (noNegotiation marked contents (by decide)) contents

theorem AtLogin.run {username : Bytes} {packets : List Bytes} (cut : Cut lineEnd username packets)
    (contents : ∀ byte ∈ username, Typeable byte) (atLogin : AtLogin checks sent [] handler) :
    ReturnsWhen (packets.foldlM (take config) handler)
      ((∀ packet ∈ packets, packet.getLast? ≠ some CR ∧ config.Shows (echo packet)) ∧
        (config.decode (processBackspaces username)).isSome = true ∧
          config.Shows (config.backendLogin ++ [CR] ++ [lineEnd]))
      (Named checks (sent ++ (config.backendLogin ++ [CR] ++ [lineEnd]))
        (processBackspaces username) true) :=
  (loginReceiver spoofs marked ending).receives cut contents not_typeable_CR (notCR ending) atLogin

theorem AtPassword.run {username password : Bytes} {negotiates : Bool} {packets : List Bytes}
    (cut : Cut lineEnd password packets) (contents : ∀ byte ∈ password, Typeable byte)
    (atPassword : AtPassword checks sent username negotiates [] handler) :
    ReturnsWhen (packets.foldlM (take config) handler)
      ((negotiates = true → config.Shows ((packets.headD []).take 3)) ∧
        (∀ packet ∈ packets, packet.getLast? ≠ some CR) ∧
          (config.decode (processBackspaces password)).isSome = true ∧
            config.Shows
              (config.answer checks username (processBackspaces password) ++ [CR] ++ [lineEnd]))
      (Answered (checks ++ [(username, processBackspaces password)])
        (sent ++ negotiated negotiates (packets.headD []) ++
          (config.answer checks username (processBackspaces password) ++ [CR] ++ [lineEnd]))) := by
  cases cut with
  | whole =>
      have ends := atPassword.ends spoofs (noNegotiation marked contents (notMarked ending))
        contents ending
      rw [List.foldlM_cons]
      refine ReturnsWhen.congr ?_ (ends.bind_ok fun value holds => ⟨value, rfl, holds⟩)
      simp [notCR ending]
  | split =>
      have raised := atPassword.breaks spoofs (noNegotiation marked contents (by decide)) contents
      obtain ⟨error, raised⟩ := raised
      rw [List.foldlM_cons, take, raised]
      refine ReturnsWhen.congr ?_ (.raising ⟨error, rfl⟩)
      simp
  | @more packet rest packets cut =>
      have first : ∀ byte ∈ packet, Typeable byte := fun byte member =>
        contents byte (List.mem_append_left _ member)
      have others : ∀ byte ∈ rest, Typeable byte := fun byte member =>
        contents byte (List.mem_append_right _ member)
      have whole : packet.getLast? ≠ some CR := fun isLast =>
        not_typeable_CR (first CR (List.mem_of_getLast? isLast))
      have typed := atPassword.typed spoofs (noNegotiation_typed marked first) first
      rw [List.foldlM_cons]
      refine ReturnsWhen.congr ?_ (typed.bind fun next reads =>
        (passwordReceiver spoofs marked ending).receives cut others not_typeable_CR
          (notCR ending) reads)
      simp [whole]

end

/-! ## Packets of the backend -/

theorem sendOn_backend (sends : handler.sendData = true) :
    ReturnsWhen (handler.sendOn config .backend) (config.Shows handler.currentData)
      handler.ShownTo := by
  rw [sendOn.eq_def, sends]
  cases data : handler.currentData with
  | nil => exact ReturnsWhen.congr (by simp [Config.shows_nil]) (.ok ⟨_, _, rfl⟩)
  | cons byte rest => exact sendFrontend_returns handler (byte :: rest)

theorem backend_returns {packet : Bytes} (spoofs : config.spoofAuthenticationData = true)
    (open_ : handler.authDone = false) :
    ReturnsWhen (handler.addPacket config .backend packet)
      (config.Shows (config.withoutEcho handler.waitingLoginEcho packet))
      { (handler.receive packet).setProcessingStateBackend config with
        currentData := config.withoutEcho handler.waitingLoginEcho packet
        waitingLoginEcho := false }.ShownTo := by
  have processed : (handler.receive packet).spoofAuthentication config .backend =
      .ok { (handler.receive packet).setProcessingStateBackend config with
        currentData := config.withoutEcho handler.waitingLoginEcho packet
        waitingLoginEcho := false } := by
    rw [spoofAuthentication.eq_def, dropLoginEcho_eq, setProcessingStateBackend_eq]
    rfl
  rw [addPacket_spoofed .backend spoofs open_, processed, setProcessingStateBackend_eq]
  exact sendOn_backend rfl

structure Idle (checks : List (Bytes × Bytes)) (sent : Bytes) (handler : Handler) : Prop
    extends Awaits checks sent handler where
  inputingPassword : handler.inputingPassword = false

section

variable {checks : List (Bytes × Bytes)} {sent username packet : Bytes} {waiting : Bool}
  (spoofs : config.spoofAuthenticationData = true)

include spoofs

theorem Idle.prompted (idle : Idle checks sent handler) (asksLogin : config.hasLogin packet = true)
    (noPassword : config.hasPassword packet = false) :
    ReturnsWhen (handler.addPacket config .backend packet)
      (config.Shows (config.withoutEcho handler.waitingLoginEcho packet))
      (AtLogin checks sent []) := by
  refine ReturnsWhen.imp ?_ (backend_returns spoofs idle.authDone)
  rw [setProcessingStateBackend_eq]
  rintro next ⟨toFrontend, ttylog, rfl⟩
  exact
    { authDone := idle.authDone
      client := idle.client
      nothing := idle.nothing
      checksEq := idle.checksEq
      sentEq := idle.sentEq
      inputingLogin := by simp [receive, asksLogin]
      inputingPassword := by simp [receive, noPassword, idle.inputingPassword]
      usernameState := by simp [receive, asksLogin] }

theorem Named.quiet (named : Named checks sent username waiting handler)
    (noLogin : config.hasLogin packet = false) (noPassword : config.hasPassword packet = false) :
    ReturnsWhen (handler.addPacket config .backend packet)
      (config.Shows (config.withoutEcho waiting packet))
      (Named checks sent username false) := by
  rw [← named.waitingLoginEcho]
  refine ReturnsWhen.imp ?_ (backend_returns spoofs named.authDone)
  rw [setProcessingStateBackend_eq]
  rintro next ⟨toFrontend, ttylog, rfl⟩
  exact
    { authDone := named.authDone
      client := named.client
      nothing := named.nothing
      checksEq := named.checksEq
      sentEq := named.sentEq
      inputingLogin := by simp [receive, noLogin, named.inputingLogin]
      inputingPassword := by simp [receive, noPassword, named.inputingPassword]
      usernameState := by simp [receive, noLogin, named.usernameState]
      waitingLoginEcho := rfl }

theorem Named.prompted (named : Named checks sent username waiting handler)
    (noLogin : config.hasLogin packet = false) (asksPassword : config.hasPassword packet = true) :
    ReturnsWhen (handler.addPacket config .backend packet)
      (config.Shows (config.withoutEcho waiting packet))
      (AtPassword checks sent username (decide ([0xFF, 0xFB, 1] <:+: packet)) []) := by
  rw [← named.waitingLoginEcho]
  refine ReturnsWhen.imp ?_ (backend_returns spoofs named.authDone)
  rw [setProcessingStateBackend_eq]
  rintro next ⟨toFrontend, ttylog, rfl⟩
  exact
    { authDone := named.authDone
      client := named.client
      nothing := named.nothing
      checksEq := named.checksEq
      sentEq := named.sentEq
      inputingLogin := by simp [receive, noLogin, named.inputingLogin]
      inputingPassword := by simp [receive, asksPassword]
      usernameState := by simp [receive, noLogin, named.usernameState]
      prePasswordData := rfl
      passwordState := by simp [receive, asksPassword] }

theorem Named.run {replies : List Bytes} (named : Named checks sent username waiting handler)
    (quiet : ∀ reply ∈ replies, config.hasLogin reply = false ∧ config.hasPassword reply = false)
    (noLogin : config.hasLogin packet = false) (asksPassword : config.hasPassword packet = true) :
    ReturnsWhen
      ((replies ++ [packet]).foldlM (fun handler => handler.addPacket config .backend) handler)
      (∀ shown ∈ config.outputs waiting (replies ++ [packet]), config.Shows shown)
      (AtPassword checks sent username (decide ([0xFF, 0xFB, 1] <:+: packet)) []) := by
  induction replies generalizing handler waiting with
  | nil =>
      have prompted := named.prompted spoofs noLogin asksPassword
      refine ReturnsWhen.congr ?_ (prompted.bind_ok fun value holds => ⟨value, rfl, holds⟩)
      simp [Config.outputs]
  | cons reply replies induction =>
      have first := quiet reply (List.mem_cons_self ..)
      have others := fun other member => quiet other (List.mem_cons_of_mem reply member)
      rw [List.cons_append, List.foldlM_cons]
      refine ReturnsWhen.congr ?_ ((named.quiet spoofs first.1 first.2).bind fun next holds =>
        induction holds others)
      simp [Config.outputs]

end

theorem Awaits.unspoofed {checks : List (Bytes × Bytes)} {parent : Parent} {packet : Bytes}
    {next : Handler} (plain : config.spoofAuthenticationData = false)
    (awaits : ∃ sent, Awaits checks sent handler)
    (taken : handler.addPacket config parent packet = .ok next) :
    ∃ sent, Awaits checks sent next := by
  obtain ⟨sent, awaits⟩ := awaits
  have received : handler.addPacket config parent packet =
      (handler.receive packet).sendOn config parent := by
    rw [addPacket, plain]
    exact sendOn_open awaits.authDone
  rw [received] at taken
  cases parent with
  | backend =>
      obtain ⟨toFrontend, ttylog, rfl⟩ := ((sendOn_backend rfl).of_ok taken).2
      exact ⟨sent, awaits.authDone, awaits.client, awaits.nothing, awaits.checksEq, awaits.sentEq⟩
  | frontend =>
      cases packet with
      | nil =>
          cases taken
          exact ⟨sent, awaits.authDone, awaits.client, awaits.nothing, awaits.checksEq, awaits.sentEq⟩
      | cons byte rest =>
          have sends := @sendBackend_returns config (handler.receive (byte :: rest)) (byte :: rest)
            awaits.client awaits.nothing
          obtain ⟨ttylog, ttylogSize, rfl⟩ := (sends.of_ok taken).2
          exact ⟨_, awaits.authDone, awaits.client, rfl, awaits.checksEq, rfl⟩

end Handler

/-! ## A login -/

/-- A login at the prompts of the backend: what the backend says, and a user name and a
password, each with its end, in the packets they come in. -/
structure Login (config : Config) where
  loginPrompt : Bytes
  username : Bytes
  usernameEnd : UInt8
  usernamePackets : List Bytes
  /-- What the backend says between the user name and its password prompt. -/
  replies : List Bytes
  passwordPrompt : Bytes
  password : Bytes
  passwordEnd : UInt8
  passwordPackets : List Bytes
  asksLogin : config.hasLogin loginPrompt = true ∧ config.hasPassword loginPrompt = false
  quiet : ∀ reply ∈ replies, config.hasLogin reply = false ∧ config.hasPassword reply = false
  asksPassword : config.hasLogin passwordPrompt = false ∧ config.hasPassword passwordPrompt = true
  someUsername : username ≠ []
  somePassword : password ≠ []
  typeable : ∀ byte ∈ username ++ password, Typeable byte
  ends : EndsLine usernameEnd ∧ EndsLine passwordEnd
  nonempty : ∀ packet ∈ usernamePackets ++ passwordPackets, packet ≠ []
  usernameStream : usernamePackets.flatten = username ++ [CR, usernameEnd]
  passwordStream : passwordPackets.flatten = password ++ [CR, passwordEnd]

namespace Login

variable {config : Config} (login : Login config) (handler : Handler)

def packets : List (Parent × Bytes) :=
  [(.backend, login.loginPrompt)] ++ login.usernamePackets.map (Parent.frontend, ·) ++
    (login.replies ++ [login.passwordPrompt]).map (Parent.backend, ·) ++
    login.passwordPackets.map (Parent.frontend, ·)

def run : Call :=
  login.packets.foldlM (fun handler packet => handler.addPacket config packet.1 packet.2) handler

/-- No call raises, the login is checked once as it was typed, and the backend receives its
own user name and its own password or the fake one, each with the end that was typed. -/
def Captured : Prop :=
  ∃ final, login.run handler = .ok final ∧
    final.checks = handler.checks ++ [(login.username, login.password)] ∧
    final.toBackend.flatten = handler.toBackend.flatten ++
      (config.backendLogin ++ [CR] ++ [login.usernameEnd]) ++
      (config.answer handler.checks login.username login.password ++ [CR] ++ [login.passwordEnd])

def shown : List Bytes :=
  [config.withoutEcho handler.waitingLoginEcho login.loginPrompt] ++
    login.usernamePackets.map Handler.echo ++
    [config.backendLogin ++ [CR] ++ [login.usernameEnd]] ++
    config.outputs true (login.replies ++ [login.passwordPrompt]) ++
    [config.answer handler.checks login.username login.password ++ [CR] ++ [login.passwordEnd]]

/-- What a login must be like to be captured. -/
structure Clean : Prop where
  spoofs : config.spoofAuthenticationData = true
  whole : ∀ packet ∈ login.usernamePackets ++ login.passwordPackets, packet.getLast? ≠ some CR
  ascii : ∀ byte ∈ login.username ++ login.password, byte < 0x80
  decodes : (config.decode login.username).isSome = true ∧
    (config.decode login.password).isSome = true
  unnegotiated : ¬ [0xFF, 0xFB, 1] <:+: login.passwordPrompt
  shows : ∀ data ∈ login.shown handler, config.Shows data

def negotiates : Bool := [0xFF, 0xFB, 1] <:+: login.passwordPrompt

def readUsername : Bytes := processBackspaces login.username

def readPassword : Bytes := processBackspaces login.password

/-- What the backend is sent after the login was checked as it was read. -/
def answered : Bytes :=
  config.answer handler.checks login.readUsername login.readPassword ++ [CR] ++ [login.passwordEnd]

def Passes : Prop :=
  config.Shows (config.withoutEcho handler.waitingLoginEcho login.loginPrompt) ∧
    ((∀ packet ∈ login.usernamePackets,
        packet.getLast? ≠ some CR ∧ config.Shows (Handler.echo packet)) ∧
      (config.decode login.readUsername).isSome = true ∧
        config.Shows (config.backendLogin ++ [CR] ++ [login.usernameEnd])) ∧
    (∀ shown ∈ config.outputs true (login.replies ++ [login.passwordPrompt]),
      config.Shows shown) ∧
    (login.negotiates = true → config.Shows ((login.passwordPackets.headD []).take 3)) ∧
      (∀ packet ∈ login.passwordPackets, packet.getLast? ≠ some CR) ∧
        (config.decode login.readPassword).isSome = true ∧ config.Shows (login.answered handler)

theorem run_eq :
    login.run handler = (do
      let handler ← handler.addPacket config .backend login.loginPrompt
      let handler ← login.usernamePackets.foldlM (Handler.take config) handler
      let handler ← (login.replies ++ [login.passwordPrompt]).foldlM
        (fun handler => handler.addPacket config .backend) handler
      login.passwordPackets.foldlM (Handler.take config) handler) := by
  rw [run, packets]
  simp only [List.foldlM_append, List.foldlM_map, List.foldlM_cons, List.foldlM_nil, bind_assoc,
    bind_pure]
  rfl

theorem run_returns (marked : config.MarksNegotiation)
    (spoofs : config.spoofAuthenticationData = true)
    (idle : Handler.Idle handler.checks handler.toBackend.flatten handler) :
    ReturnsWhen (login.run handler) (login.Passes handler)
      (Handler.Answered (handler.checks ++ [(login.readUsername, login.readPassword)])
        (handler.toBackend.flatten ++ (config.backendLogin ++ [CR] ++ [login.usernameEnd]) ++
          Handler.negotiated login.negotiates (login.passwordPackets.headD []) ++
            login.answered handler)) := by
  have cutUsername := Cut.of_flatten (fun packet member =>
    login.nonempty packet (List.mem_append_left _ member)) login.usernameStream
  have cutPassword := Cut.of_flatten (fun packet member =>
    login.nonempty packet (List.mem_append_right _ member)) login.passwordStream
  have typeable := List.forall_mem_append.mp login.typeable
  rw [run_eq, Passes]
  refine (idle.prompted spoofs login.asksLogin.1 login.asksLogin.2).bind fun asked atLogin => ?_
  refine (atLogin.run spoofs marked login.ends.1 cutUsername typeable.1).bind fun read named => ?_
  refine (named.run spoofs login.quiet login.asksPassword.1 login.asksPassword.2).bind
    fun prompted atPassword => ?_
  exact atPassword.run spoofs marked login.ends.2 cutPassword typeable.2

theorem firstPacket_ne : login.passwordPackets.headD [] ≠ [] := by
  cases packets : login.passwordPackets with
  | nil =>
      have stream := login.passwordStream
      rw [packets] at stream
      simp at stream
  | cons packet others =>
      apply login.nonempty packet
      rw [packets]
      exact List.mem_append_right _ (List.mem_cons_self ..)

theorem negotiated_eq_nil_iff :
    Handler.negotiated login.negotiates (login.passwordPackets.headD []) = [] ↔
      login.negotiates = false := by
  have first := login.firstPacket_ne
  rw [Handler.negotiated]
  cases login.negotiates with
  | false => simp
  | true =>
      rw [if_pos rfl, List.take_eq_nil_iff]
      simp only [OfNat.ofNat_ne_zero, false_or, Bool.true_eq_false, iff_false]
      exact first

theorem read_iff :
    (login.readUsername, login.readPassword) = (login.username, login.password) ↔
      ∀ byte ∈ login.username ++ login.password, byte < 0x80 := by
  have typeable := List.forall_mem_append.mp login.typeable
  rw [Prod.mk.injEq, readUsername, readPassword, processBackspaces_eq_self_iff typeable.1,
    processBackspaces_eq_self_iff typeable.2, List.forall_mem_append]

/-- What is checked and sent is as it was typed exactly when it is ASCII and nothing of it
was taken for an answer to a negotiation. -/
theorem answered_iff {final : Handler} (answered : Handler.Answered
      (handler.checks ++ [(login.readUsername, login.readPassword)])
      (handler.toBackend.flatten ++ (config.backendLogin ++ [CR] ++ [login.usernameEnd]) ++
        Handler.negotiated login.negotiates (login.passwordPackets.headD []) ++
          login.answered handler) final) :
    (final.checks = handler.checks ++ [(login.username, login.password)] ∧
      final.toBackend.flatten = handler.toBackend.flatten ++
        (config.backendLogin ++ [CR] ++ [login.usernameEnd]) ++
        (config.answer handler.checks login.username login.password ++ [CR] ++
          [login.passwordEnd])) ↔
      (∀ byte ∈ login.username ++ login.password, byte < 0x80) ∧ login.negotiates = false := by
  rw [answered.checksEq, answered.sentEq, List.append_cancel_left_eq, List.singleton_inj,
    login.read_iff]
  apply and_congr_right
  intro ascii
  obtain ⟨username, password⟩ := Prod.mk.inj (login.read_iff.mpr ascii)
  rw [Login.answered, username, password, List.append_cancel_right_eq, List.append_right_eq_self,
    login.negotiated_eq_nil_iff]

theorem shows_iff :
    (∀ data ∈ login.shown handler, config.Shows data) ↔
      (((config.Shows (config.withoutEcho handler.waitingLoginEcho login.loginPrompt) ∧
        ∀ packet ∈ login.usernamePackets, config.Shows (Handler.echo packet)) ∧
        config.Shows (config.backendLogin ++ [CR] ++ [login.usernameEnd])) ∧
        ∀ shown ∈ config.outputs true (login.replies ++ [login.passwordPrompt]),
          config.Shows shown) ∧
        config.Shows (config.answer handler.checks login.username login.password ++ [CR] ++
          [login.passwordEnd]) := by
  rw [shown]
  simp only [List.forall_mem_append, List.forall_mem_singleton, List.forall_mem_map]

theorem negotiates_eq_false_iff :
    login.negotiates = false ↔ ¬ [0xFF, 0xFB, 1] <:+: login.passwordPrompt :=
  decide_eq_false_iff_not

theorem passes_iff (spoofs : config.spoofAuthenticationData = true) :
    (login.Passes handler ∧ (∀ byte ∈ login.username ++ login.password, byte < 0x80) ∧
      login.negotiates = false) ↔ login.Clean handler := by
  constructor
  · rintro ⟨passes, ascii, silent⟩
    obtain ⟨username, password⟩ := Prod.mk.inj (login.read_iff.mpr ascii)
    rw [Passes, answered, username, password] at passes
    obtain ⟨asked, ⟨typed, decodesUsername, named⟩, replied, _, whole, decodesPassword, answer⟩ :=
      passes
    exact
      { spoofs := spoofs
        whole := List.forall_mem_append.mpr ⟨fun packet member => (typed packet member).1, whole⟩
        ascii := ascii
        decodes := ⟨decodesUsername, decodesPassword⟩
        unnegotiated := login.negotiates_eq_false_iff.mp silent
        shows := (login.shows_iff handler).mpr
          ⟨⟨⟨⟨asked, fun packet member => (typed packet member).2⟩, named⟩, replied⟩, answer⟩ }
  · intro clean
    obtain ⟨username, password⟩ := Prod.mk.inj (login.read_iff.mpr clean.ascii)
    obtain ⟨⟨⟨⟨asked, typed⟩, named⟩, replied⟩, answer⟩ := (login.shows_iff handler).mp clean.shows
    obtain ⟨wholeUsername, wholePassword⟩ := List.forall_mem_append.mp clean.whole
    have silent := login.negotiates_eq_false_iff.mpr clean.unnegotiated
    refine ⟨?_, clean.ascii, silent⟩
    rw [Passes, answered, username, password]
    refine ⟨asked, ⟨fun packet member => ⟨wholeUsername packet member, typed packet member⟩,
      clean.decodes.1, named⟩, replied, ?_, wholePassword, clean.decodes.2, answer⟩
    intro negotiates
    rw [silent] at negotiates
    cases negotiates

theorem not_captured (plain : config.spoofAuthenticationData = false)
    (idle : Handler.Idle handler.checks handler.toBackend.flatten handler) :
    ¬ login.Captured handler := by
  rintro ⟨final, ran, checks, _⟩
  obtain ⟨_, awaits⟩ := foldlM_invariant
    (fun state => ∃ sent, Handler.Awaits handler.checks sent state)
    (fun awaits taken => Handler.Awaits.unspoofed plain awaits taken)
    ⟨_, idle.toAwaits⟩ ran
  rw [awaits.checksEq] at checks
  simp at checks

/-- A login is captured exactly when it is clean. -/
theorem captured_iff (marked : config.MarksNegotiation)
    (idle : Handler.Idle handler.checks handler.toBackend.flatten handler) :
    login.Captured handler ↔ login.Clean handler := by
  cases spoofs : config.spoofAuthenticationData with
  | true =>
      have returned := login.run_returns handler marked spoofs idle
      rw [← login.passes_iff handler spoofs]
      exact returned.exists_iff fun _ => login.answered_iff handler
  | false =>
      apply iff_of_false (login.not_captured handler spoofs idle)
      intro clean
      rw [clean.spoofs] at spoofs
      cases spoofs

def admin : Login .ubuntu where
  loginPrompt := ascii "ubuntu login: "
  username := ascii "admin"
  usernameEnd := LF
  usernamePackets := [ascii "ad", ascii "min\r\n"]
  replies := [ascii "root\r\n"]
  passwordPrompt := ascii "Password: "
  password := ascii "hunter2"
  passwordEnd := NUL
  passwordPackets := [ascii "hunter", ascii "2" ++ [CR, NUL]]
  asksLogin := by decide +kernel
  quiet := by decide +kernel
  asksPassword := by decide +kernel
  someUsername := by decide +kernel
  somePassword := by decide +kernel
  typeable := by decide +kernel
  ends := by decide +kernel
  nonempty := by decide +kernel
  usernameStream := by decide +kernel
  passwordStream := by decide +kernel

theorem captured_iff_admin : admin.Captured { client := true } := by
  refine (admin.captured_iff { client := true } (fun _ _ => rfl) ?_).mpr ?_
  · exact
      { authDone := rfl
        client := rfl
        nothing := rfl
        checksEq := rfl
        sentEq := rfl
        inputingPassword := rfl }
  · exact
      { spoofs := rfl
        whole := by decide +kernel
        ascii := by decide +kernel
        decodes := by decide +kernel
        unnegotiated := by decide +kernel
        shows := by decide +kernel }

def split : Login .ubuntu where
  loginPrompt := ascii "ubuntu login: "
  username := ascii "root"
  usernameEnd := LF
  usernamePackets := [ascii "root\r", ascii "\n"]
  replies := []
  passwordPrompt := ascii "Password: "
  password := ascii "123456"
  passwordEnd := LF
  passwordPackets := [ascii "123456\r\n"]
  asksLogin := by decide +kernel
  quiet := by decide +kernel
  asksPassword := by decide +kernel
  someUsername := by decide +kernel
  somePassword := by decide +kernel
  typeable := by decide +kernel
  ends := by decide +kernel
  nonempty := by decide +kernel
  usernameStream := by decide +kernel
  passwordStream := by decide +kernel

def raised? : Except (Raised × Handler) Handler → Option Raised
  | .ok _ => none
  | .error raised => some raised.1

/-- The byte after the carriage return is not in the packet. -/
theorem split_raises :
    raised? (split.run { client := true }) = some .indexError ∧
      ¬ split.Captured { client := true } := by
  have raises : raised? (split.run { client := true }) = some .indexError := by decide +kernel
  refine ⟨raises, ?_⟩
  rintro ⟨final, ran, _⟩
  rw [ran] at raises
  cases raises

end Login

end TelnetProxy

end LlmHoneypot
