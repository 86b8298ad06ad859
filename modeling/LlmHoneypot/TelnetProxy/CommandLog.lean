import LlmHoneypot.Foundation.EventRun
import LlmHoneypot.TelnetProxy.Calls

/-! # The command log of the telnet proxy

The commands that the handler logs over a whole session, and the lines that were typed. -/

namespace LlmHoneypot

namespace TelnetProxy

open Nvt ByteString

def commandInputs (log : List Event) : List Bytes :=
  log.filterMap fun
    | .commandInput input => some input
    | _ => none

@[simp] theorem commandInputs_append (first second : List Event) :
    commandInputs (first ++ second) = commandInputs first ++ commandInputs second :=
  List.filterMap_append

namespace Handler

variable {config : Config} {handler next : Handler}

structure Same (handler next : Handler) : Prop where
  currentData : next.currentData = handler.currentData
  currentCommand : next.currentCommand = handler.currentCommand
  authDone : next.authDone = handler.authDone
  usernameState : next.usernameState = handler.usernameState
  inputingLogin : next.inputingLogin = handler.inputingLogin
  passwordState : next.passwordState = handler.passwordState
  inputingPassword : next.inputingPassword = handler.inputingPassword
  checks : next.checks = handler.checks
  log : next.log = handler.log

theorem Same.refl (handler : Handler) : Same handler handler :=
  ⟨rfl, rfl, rfl, rfl, rfl, rfl, rfl, rfl, rfl⟩

theorem Same.trans {last : Handler} (first : Same handler next) (second : Same next last) :
    Same handler last where
  currentData := second.currentData.trans first.currentData
  currentCommand := second.currentCommand.trans first.currentCommand
  authDone := second.authDone.trans first.authDone
  usernameState := second.usernameState.trans first.usernameState
  inputingLogin := second.inputingLogin.trans first.inputingLogin
  passwordState := second.passwordState.trans first.passwordState
  inputingPassword := second.inputingPassword.trans first.inputingPassword
  checks := second.checks.trans first.checks
  log := second.log.trans first.log

/-! ## Calls that send -/

theorem decode_leaves (handler : Handler) (data : Bytes) :
    Leaves (handler.decode config data) (fun _ => (config.decode data).isSome = true)
      (· = handler) := by
  rw [decode.eq_def]
  cases decoded : config.decode data with
  | none => exact rfl
  | some text => exact rfl

theorem logRaw_leaves (handler : Handler) (data : Bytes) :
    Leaves (handler.logRaw config data) (· = handler) (· = handler) := by
  rw [logRaw]
  split
  · exact (decode_leaves handler data).bind fun _ _ => rfl
  · exact rfl

theorem ttylogWrite_same (handler : Handler) (direction : TtyDirection) (data : Bytes) :
    Same handler (handler.ttylogWrite direction data) := by
  obtain ⟨ttylog, equal⟩ := ttylogWrite_eq handler direction data
  rw [equal]
  exact ⟨rfl, rfl, rfl, rfl, rfl, rfl, rfl, rfl, rfl⟩

def Wrote (handler next : Handler) : Prop :=
  ∃ backendBuffer ttylog ttylogSize toBackend, next = { handler with
    backendBuffer := backendBuffer
    ttylog := ttylog
    ttylogSize := ttylogSize
    toBackend := toBackend }

theorem Wrote.refl (handler : Handler) : Wrote handler handler := ⟨_, _, _, _, rfl⟩

theorem Wrote.same (wrote : Wrote handler next) : Same handler next := by
  obtain ⟨_, _, _, _, rfl⟩ := wrote
  exact ⟨rfl, rfl, rfl, rfl, rfl, rfl, rfl, rfl, rfl⟩

theorem writeBackend_leaves (data : Bytes) (packets : List Bytes) (handler : Handler) :
    Leaves (writeBackend config data packets handler)
      (fun next => Wrote handler next ∧ next.toBackend = handler.toBackend ++ packets ∧
        next.backendBuffer = handler.backendBuffer.drop packets.length)
      (fun next => Wrote handler next ∧ next.toBackend <+: handler.toBackend ++ packets) := by
  induction packets generalizing handler with
  | nil => exact ⟨Wrote.refl handler, (List.append_nil _).symm, rfl⟩
  | cons packet packets induction =>
      rw [writeBackend]
      refine Leaves.bind ((logRaw_leaves _ data).imp (fun _ equal => equal) ?_) ?_
      · rintro state rfl
        exact ⟨⟨_, _, _, _, rfl⟩, packets, by simp⟩
      · rintro next rfl
        obtain ⟨ttylog, ttylogSize, recorded⟩ :=
          ttylogInput_eq { handler with toBackend := handler.toBackend ++ [packet] } data
        rw [recorded]
        refine (induction _).imp ?_ ?_
        · rintro last ⟨⟨_, _, _, _, rfl⟩, sent, buffered⟩
          refine ⟨⟨_, _, _, _, rfl⟩, sent.trans (List.append_assoc ..), buffered.trans ?_⟩
          rw [List.drop_drop, List.length_cons, Nat.add_comm]
        · rintro last ⟨⟨_, _, _, _, rfl⟩, sent⟩
          refine ⟨⟨_, _, _, _, rfl⟩, sent.trans ?_⟩
          rw [List.append_assoc]
          exact List.prefix_refl _

def deciding (handler : Handler) (data : Bytes) : Handler := { handler with
  decided := handler.decided ++ [data]
  backendBuffer := handler.backendBuffer ++ [data] }

theorem sendBackend_wrote (handler : Handler) (data : Bytes) :
    Leaves (handler.sendBackend config data) (Wrote (handler.deciding data))
      (Wrote (handler.deciding data)) := by
  rw [sendBackend]
  split
  · exact Wrote.refl (handler.deciding data)
  · exact (writeBackend_leaves data _ (handler.deciding data)).imp (fun _ => And.left)
      fun _ => And.left

theorem sendBackend_leaves (handler : Handler) (data : Bytes) :
    Leaves (handler.sendBackend config data) (Same handler) (Same handler) := by
  have decided : Same handler (handler.deciding data) :=
    ⟨rfl, rfl, rfl, rfl, rfl, rfl, rfl, rfl, rfl⟩
  exact (sendBackend_wrote handler data).imp (fun _ wrote => decided.trans wrote.same)
    fun _ wrote => decided.trans wrote.same

theorem sendFrontend_leaves (handler : Handler) (data : Bytes) :
    Leaves (handler.sendFrontend config data) (Same handler) (Same handler) := by
  have written : Same handler { handler with toFrontend := handler.toFrontend ++ [data] } :=
    ⟨rfl, rfl, rfl, rfl, rfl, rfl, rfl, rfl, rfl⟩
  rw [sendFrontend]
  refine Leaves.bind ((logRaw_leaves _ data).imp (fun _ equal => equal) ?_) ?_
  · rintro state rfl
    exact written
  · rintro next rfl
    exact written.trans (ttylogWrite_same _ .output data)

theorem sendOn_leaves (handler : Handler) (parent : Parent) :
    Leaves (handler.sendOn config parent) (Same handler) (Same handler) := by
  rw [sendOn.eq_def]
  split
  · cases parent with
    | frontend => exact sendBackend_leaves handler _
    | backend => exact sendFrontend_leaves handler _
  · exact Same.refl handler

/-! ## Calls that read a login -/

structure Quiet (handler next : Handler) : Prop where
  currentCommand : next.currentCommand = handler.currentCommand
  inputs : commandInputs next.log = commandInputs handler.log

theorem Quiet.refl (handler : Handler) : Quiet handler handler := ⟨rfl, rfl⟩

theorem Quiet.trans {last : Handler} (first : Quiet handler next) (second : Quiet next last) :
    Quiet handler last :=
  ⟨second.currentCommand.trans first.currentCommand, second.inputs.trans first.inputs⟩

theorem Same.quiet (same : Same handler next) : Quiet handler next :=
  ⟨same.currentCommand, congrArg commandInputs same.log⟩

structure Unmoved (handler next : Handler) : Prop extends Quiet handler next where
  authDone : next.authDone = handler.authDone

theorem Same.unmoved (same : Same handler next) : Unmoved handler next :=
  ⟨same.quiet, same.authDone⟩

theorem Unmoved.trans {last : Handler} (first : Unmoved handler next) (second : Unmoved next last) :
    Unmoved handler last :=
  ⟨first.toQuiet.trans second.toQuiet, second.authDone.trans first.authDone⟩

theorem terminatingChar_leaves (handler : Handler) :
    Leaves handler.terminatingChar
      (fun _ => handler.currentData.idxOf CR + 1 < handler.currentData.length)
      (· = handler) := by
  rw [terminatingChar]
  split
  · exact rfl
  · next byte found => exact (List.getElem?_eq_some_iff.mp found).1

theorem finishUsername_leaves (handler : Handler) :
    Leaves (handler.finishUsername config) (Unmoved handler) (Unmoved handler) := by
  rw [finishUsername]
  refine Leaves.bind ((terminatingChar_leaves handler).imp (fun _ _ => trivial) ?_) ?_
  · rintro state rfl
    exact (Same.refl state).unmoved
  · intro terminating _
    refine Leaves.bind ((decode_leaves _ _).imp (fun _ known => known) ?_) ?_
    · rintro state rfl
      exact ⟨⟨rfl, rfl⟩, rfl⟩
    · intro text _
      exact ⟨⟨rfl, rfl⟩, rfl⟩

theorem processUsernameInput_leaves (handler : Handler) :
    Leaves (handler.processUsernameInput config) (Unmoved handler) (Unmoved handler) := by
  have read : Unmoved handler handler.readUsername := ⟨⟨rfl, rfl⟩, rfl⟩
  rw [processUsernameInput]
  refine Leaves.bind ((sendFrontend_leaves _ _).imp (fun _ => read.trans ∘ Same.unmoved)
    fun _ => read.trans ∘ Same.unmoved) ?_
  intro next unmoved
  split
  · exact (finishUsername_leaves next).imp (fun _ => unmoved.trans) fun _ => unmoved.trans
  · exact unmoved

/-- The packet ends a password that is accepted. -/
structure Accepts (config : Config) (handler : Handler) : Prop where
  ended : CR ∈ handler.currentData
  whole : handler.currentData.idxOf CR + 1 < handler.currentData.length
  decodes : (config.decode (processBackspaces handler.readPassword.passwordState)).isSome = true
  accepted : config.checkUserPass handler.checks handler.usernameState
    (processBackspaces handler.readPassword.passwordState) = true

theorem finishPassword_leaves (handler : Handler) :
    Leaves (handler.finishPassword config)
      (fun next => Quiet handler next ∧ next.inputingLogin = handler.inputingLogin ∧
        (next.authDone = true → handler.authDone = true ∨
          handler.currentData.idxOf CR + 1 < handler.currentData.length ∧
          (config.decode (processBackspaces handler.passwordState)).isSome = true ∧
          config.checkUserPass handler.checks handler.usernameState
            (processBackspaces handler.passwordState) = true))
      (Unmoved handler) := by
  rw [finishPassword]
  refine Leaves.bind ((terminatingChar_leaves handler).imp (fun _ whole => whole) ?_) ?_
  · rintro state rfl
    exact (Same.refl state).unmoved
  · intro terminating whole
    refine Leaves.bind ((decode_leaves _ _).imp (fun _ decodes => decodes) ?_) ?_
    · rintro state rfl
      exact ⟨⟨rfl, rfl⟩, rfl⟩
    · intro text decodes
      refine ⟨⟨rfl, rfl⟩, rfl, ?_⟩
      intro authDone
      exact (Bool.or_eq_true_iff.mp authDone).imp id fun accepted => ⟨whole, decodes, accepted⟩

structure Read (config : Config) (handler next : Handler) : Prop extends Quiet handler next where
  inputingLogin : next.inputingLogin = handler.inputingLogin
  authDone : next.authDone = true → handler.authDone = true ∨ handler.Accepts config

theorem takePassword_leaves (handler : Handler) :
    Leaves (handler.takePassword config) (handler.Read config) (Unmoved handler) := by
  have unmoved : Unmoved handler handler.readPassword := ⟨⟨rfl, rfl⟩, rfl⟩
  rw [takePassword]
  split
  · next ended =>
    refine (finishPassword_leaves handler.readPassword).imp ?_ fun _ => unmoved.trans
    rintro next ⟨quiet, inputingLogin, authDone⟩
    refine ⟨unmoved.toQuiet.trans quiet, inputingLogin,
      fun loginOver => (authDone loginOver).imp id ?_⟩
    rintro ⟨whole, decodes, accepted⟩
    exact ⟨ended, whole, decodes, accepted⟩
  · exact ⟨⟨rfl, rfl⟩, rfl, .inl⟩

theorem Same.accepts (same : Same handler next) (accepts : next.Accepts config) :
    handler.Accepts config := by
  have password : next.readPassword.passwordState = handler.readPassword.passwordState := by
    simp only [readPassword, same.passwordState, same.currentData]
  exact
    { ended := same.currentData ▸ accepts.ended
      whole := same.currentData ▸ accepts.whole
      decodes := password ▸ accepts.decodes
      accepted := by
        have accepted := accepts.accepted
        rwa [password, same.checks, same.usernameState] at accepted }

theorem sendPrePasswordData_leaves (handler : Handler) :
    Leaves (handler.sendPrePasswordData config) (Same handler) (Same handler) := by
  rw [sendPrePasswordData]
  split
  · refine Leaves.bind (sendBackend_leaves handler _) ?_
    intro next same
    exact same.trans ⟨rfl, rfl, rfl, rfl, rfl, rfl, rfl, rfl, rfl⟩
  · exact Same.refl handler

theorem processPasswordInput_leaves (handler : Handler) :
    Leaves (handler.processPasswordInput config) (handler.Read config) (Unmoved handler) := by
  have withheld : Same handler { handler with sendData := false } :=
    ⟨rfl, rfl, rfl, rfl, rfl, rfl, rfl, rfl, rfl⟩
  rw [processPasswordInput]
  refine Leaves.bind ((sendPrePasswordData_leaves _).imp (fun _ => withheld.trans)
    fun _ => Same.unmoved ∘ withheld.trans) ?_
  intro next same
  refine (takePassword_leaves next).imp ?_ fun _ => same.unmoved.trans
  intro last read
  refine ⟨same.quiet.trans read.toQuiet, read.inputingLogin.trans same.inputingLogin, ?_⟩
  intro loginOver
  exact (read.authDone loginOver).imp (same.authDone ▸ ·) same.accepts

end Handler

def Config.afterNegotiation (config : Config) (username packet : Bytes) : Bytes × Bytes :=
  match config.negotiationLogin packet with
  | none => (username, packet)
  | some found => (found.username, found.spoofed.getD packet)

namespace Handler

variable {config : Config} {handler next : Handler}

def negotiate (config : Config) (handler : Handler) : Handler :=
  let after := config.afterNegotiation handler.usernameState handler.currentData
  { handler with usernameState := after.1, currentData := after.2 }

theorem logUsername_eq (handler : Handler) (username : CodePoints) :
    ∃ log, commandInputs log = commandInputs handler.log ∧
      handler.logUsername username = { handler with log := log } := by
  rw [logUsername]
  split
  · exact ⟨_, by simp [commandInputs], rfl⟩
  · exact ⟨_, by simp [commandInputs], rfl⟩

theorem setProcessingStateFrontend_eq (handler : Handler) :
    Leaves (handler.setProcessingStateFrontend config)
      (fun next => ∃ log, commandInputs log = commandInputs handler.log ∧
        next = { handler.negotiate config with log := log })
      (fun state => ∃ usernameState log, commandInputs log = commandInputs handler.log ∧
        state = { handler with usernameState := usernameState, log := log }) := by
  rw [setProcessingStateFrontend.eq_def]
  split
  · next unmatched =>
    refine ⟨handler.log, rfl, ?_⟩
    rw [negotiate, Config.afterNegotiation, unmatched]
  · next found matched =>
    refine Leaves.bind ((decode_leaves _ _).imp (fun _ _ => trivial) ?_) ?_
    · rintro state rfl
      exact ⟨found.username, handler.log, rfl, rfl⟩
    · intro username _
      obtain ⟨log, inputs, logged⟩ :=
        logUsername_eq { handler with usernameState := found.username } username
      rw [logged]
      cases spoofed : found.spoofed with
      | none => exact ⟨found.username, log, inputs, rfl⟩
      | some packet =>
          refine ⟨log, inputs, ?_⟩
          rw [negotiate, Config.afterNegotiation, matched]
          simp only [spoofed, Option.getD_some]

theorem setProcessingStateFrontend_leaves (handler : Handler) :
    Leaves (handler.setProcessingStateFrontend config)
      (fun next => Unmoved handler next ∧ ∃ log, next = { handler.negotiate config with log := log })
      (Unmoved handler) := by
  refine (setProcessingStateFrontend_eq handler).imp ?_ ?_
  · rintro next ⟨log, inputs, rfl⟩
    exact ⟨⟨⟨rfl, inputs⟩, rfl⟩, log, rfl⟩
  · rintro state ⟨usernameState, log, inputs, rfl⟩
    exact ⟨⟨rfl, inputs⟩, rfl⟩

def Admits (config : Config) (handler : Handler) : Prop :=
  handler.inputingPassword = true ∧ (handler.negotiate config).Accepts config

theorem Accepts.of_log {log : List Event}
    (accepts : Accepts config { handler with log := log }) : handler.Accepts config :=
  ⟨accepts.ended, accepts.whole, accepts.decodes, accepts.accepted⟩

theorem savePassword_leaves (handler : Handler) :
    Leaves (handler.savePassword config)
      (fun next => Quiet handler next ∧ next.inputingLogin = handler.inputingLogin ∧
        (next.authDone = true → handler.authDone = true ∨
          handler.inputingPassword = true ∧ handler.Accepts config))
      (Unmoved handler) := by
  rw [savePassword]
  split
  · next inputing =>
    refine (processPasswordInput_leaves handler).imp ?_ fun _ unmoved => unmoved
    intro next read
    exact ⟨read.toQuiet, read.inputingLogin,
      fun loginOver => (read.authDone loginOver).imp id (⟨inputing, ·⟩)⟩
  · exact ⟨Quiet.refl handler, rfl, .inl⟩

theorem saveUsername_leaves (handler : Handler) :
    Leaves (handler.saveUsername config) (Unmoved handler)
      (fun next => Unmoved handler next ∧ handler.inputingLogin = true) := by
  rw [saveUsername]
  split
  · next inputing =>
    exact (processUsernameInput_leaves handler).imp (fun _ unmoved => unmoved) fun _ unmoved =>
      ⟨unmoved, inputing⟩
  · exact (Same.refl handler).unmoved

theorem spoofAuthentication_leaves (open_ : handler.authDone = false) :
    Leaves (handler.spoofAuthentication config .frontend)
      (fun next => Quiet handler next ∧ (next.authDone = true → handler.Admits config))
      (fun next => Quiet handler next ∧ (next.authDone = true →
        handler.Admits config ∧ handler.inputingLogin = true)) := by
  have never {state : Handler} (unmoved : Unmoved handler state) : state.authDone ≠ true := by
    rw [unmoved.authDone, open_]
    exact Bool.false_ne_true
  rw [spoofAuthentication.eq_def]
  refine Leaves.bind ((setProcessingStateFrontend_leaves handler).imp (fun _ known => known)
    fun _ unmoved => ⟨unmoved.toQuiet, fun loginOver => absurd loginOver (never unmoved)⟩) ?_
  rintro negotiated ⟨unmoved, log, rfl⟩
  refine Leaves.bind ((savePassword_leaves _).imp (fun _ known => known)
    fun _ later => ⟨(unmoved.trans later).toQuiet,
      fun loginOver => absurd loginOver (never (unmoved.trans later))⟩) ?_
  rintro next ⟨quiet, inputingLogin, authDone⟩
  have admits : next.authDone = true → handler.Admits config := by
    intro loginOver
    rcases authDone loginOver with already | ⟨inputing, accepts⟩
    · exact absurd already (never unmoved)
    · exact ⟨inputing, accepts.of_log⟩
  refine (saveUsername_leaves next).imp ?_ ?_
  · intro last later
    exact ⟨(unmoved.toQuiet.trans quiet).trans later.toQuiet, fun loginOver =>
      admits (later.authDone.symm.trans loginOver)⟩
  · rintro last ⟨later, inputing⟩
    exact ⟨(unmoved.toQuiet.trans quiet).trans later.toQuiet, fun loginOver =>
      ⟨admits (later.authDone.symm.trans loginOver), inputingLogin.symm.trans inputing⟩⟩

end Handler

/-! ## Packets and lines -/

/-- A packet after the login: every line end is in it as a whole, and where it ends a line it
ends with one, and only one of its lines is filled. -/
def Fits (pending data : Bytes) : Prop :=
  paired data = true ∧ (CR ∈ data →
    (lines pending data).2 = [] ∧ (filled (lines pending data).1).length ≤ 1)

instance (pending data : Bytes) : Decidable (Fits pending data) :=
  inferInstanceAs (Decidable (_ ∧ (_ → _)))

def Opens (data : Bytes) : Prop := data.head? = some CR ∧ Fits [] data

instance (data : Bytes) : Decidable (Opens data) := inferInstanceAs (Decidable (_ ∧ _))

def afterLine (data : Bytes) : Bytes := data.drop (data.idxOf CR + 2)

theorem Opens.lines_eq {data : Bytes} (opens : Opens data) :
    lines [] data = ([] :: (lines [] (afterLine data)).1, (lines [] (afterLine data)).2) ∧
      paired (afterLine data) = true := by
  obtain ⟨first, isPaired, _⟩ := opens
  match data with
  | [byte] =>
      cases first
      cases isPaired
  | byte :: second :: rest =>
      cases first
      rw [paired, if_pos rfl, Bool.and_eq_true, decide_eq_true_eq] at isPaired
      have after : afterLine (CR :: second :: rest) = rest := by simp [afterLine]
      rw [after]
      exact ⟨lines_end [] rest isPaired.1, isPaired.2⟩

namespace Handler

variable {config : Config} {handler next : Handler} {data : Bytes}

structure Logged (data : Bytes) (handler next : Handler) : Prop where
  currentCommand : next.currentCommand = (lines handler.currentCommand data).2
  inputs : commandInputs next.log =
    commandInputs handler.log ++ filled (lines handler.currentCommand data).1

theorem logCommands_fits (fits : Fits handler.currentCommand data) :
    handler.Logged data (handler.logCommands data) := by
  obtain ⟨isPaired, ended⟩ := fits
  rw [logCommands]
  by_cases hasCR : CR ∈ data
  · obtain ⟨nothing, atMost⟩ := ended hasCR
    have command := withoutEnds_eq isPaired handler.currentCommand
    rw [nothing, List.append_nil] at command
    rw [if_pos hasCR, command]
    refine ⟨nothing.symm, ?_⟩
    rw [filled_of_length_le atMost]
    generalize (lines handler.currentCommand data).1.flatten = line
    cases line with
    | nil => simp
    | cons byte line => simp [commandInputs]
  · have unchanged : replace [CR, LF] [] (replace [CR, NUL] [] data) = data := by
      rw [replace_of_notMem hasCR, replace_of_notMem hasCR]
    rw [if_neg hasCR, unchanged]
    refine ⟨?_, ?_⟩
    · rw [lines_of_notMem _ hasCR]
    · rw [lines_of_notMem _ hasCR]
      exact (List.append_nil _).symm

theorem Logged.congr {first last : Handler} (quiet : Quiet handler first)
    (logged : first.Logged data next) (same : Same next last) : handler.Logged data last where
  currentCommand := by
    rw [same.currentCommand, logged.currentCommand, quiet.currentCommand]
  inputs := by
    rw [same.log, logged.inputs, quiet.currentCommand, quiet.inputs]

theorem frontend_logs (loginOver : handler.authDone = true) (fits : Fits handler.currentCommand data) :
    Leaves (handler.addPacket config .frontend data)
      (fun next => handler.Logged data next ∧ next.authDone = true)
      (fun next => handler.Logged data next ∧ next.authDone = true) := by
  have logged : (handler.receive data).Logged data ((handler.receive data).logCommands data) :=
    logCommands_fits fits
  have received : handler.addPacket config .frontend data =
      ((handler.receive data).logCommands data).sendOn config .frontend := by
    have isOver : (handler.receive data).authDone = true := loginOver
    rw [addPacket, isOver, Bool.not_true, Bool.and_false]
    exact congrArg (fun next : Handler => next.sendOn config .frontend) (if_pos ⟨rfl, isOver⟩)
  have authDone : ((handler.receive data).logCommands data).authDone = true := by
    obtain ⟨currentCommand, log, equal⟩ := logCommands_eq (handler.receive data) data
    rw [equal]
    exact loginOver
  have quiet : Quiet handler (handler.receive data) := ⟨rfl, rfl⟩
  rw [received]
  refine (sendOn_leaves _ _).imp ?_ ?_
  · intro next same
    exact ⟨logged.congr quiet same, same.authDone.trans authDone⟩
  · intro next same
    exact ⟨logged.congr quiet same, same.authDone.trans authDone⟩

structure Entered (data : Bytes) (handler next : Handler) : Prop where
  quiet : next.authDone = false → Quiet handler next
  opens : next.authDone = true → Opens data
  inputs : next.authDone = true →
    commandInputs next.log = commandInputs handler.log ++ filled (lines [] data).1

instance : Decidable (handler.Accepts config) :=
  decidable_of_iff
    (CR ∈ handler.currentData ∧
      handler.currentData.idxOf CR + 1 < handler.currentData.length ∧
      (config.decode (processBackspaces handler.readPassword.passwordState)).isSome = true ∧
      config.checkUserPass handler.checks handler.usernameState
        (processBackspaces handler.readPassword.passwordState) = true)
    ⟨fun all => ⟨all.1, all.2.1, all.2.2.1, all.2.2.2⟩, fun accepts =>
      ⟨accepts.ended, accepts.whole, accepts.decodes, accepts.accepted⟩⟩

instance : Decidable (handler.Admits config) := inferInstanceAs (Decidable (_ ∧ _))

def Starts (config : Config) (handler : Handler) (data : Bytes) : Prop :=
  (handler.receive data).Admits config →
    Opens data ∧ (handler.inputingLogin = true → filled (lines [] data).1 = [])

theorem Quiet.entered (quiet : Quiet handler next) (open_ : next.authDone = false) :
    handler.Entered data next where
  quiet _ := quiet
  opens loginOver := absurd (open_.symm.trans loginOver) Bool.false_ne_true
  inputs loginOver := absurd (open_.symm.trans loginOver) Bool.false_ne_true

theorem sendOn_enters (quiet : Quiet handler next) (open_ : next.authDone = false) :
    Leaves (next.sendOn config .frontend)
      (fun last => handler.Entered data last ∧
        (last.authDone = true → last.currentCommand = (lines [] data).2))
      (handler.Entered data) := by
  have entered {last : Handler} (same : Same next last) : handler.Entered data last :=
    (quiet.trans same.quiet).entered (same.authDone.trans open_)
  refine (sendOn_leaves next .frontend).imp ?_ fun _ => entered
  intro last same
  refine ⟨entered same, fun loginOver => ?_⟩
  exact absurd ((same.authDone.trans open_).symm.trans loginOver) Bool.false_ne_true

theorem logCommands_enters (quiet : Quiet handler next) (loginOver : next.authDone = true)
    (nothing : handler.currentCommand = []) (opens : Opens data) :
    Leaves ((next.logCommands data).sendOn config .frontend)
      (fun last => handler.Entered data last ∧
        (last.authDone = true → last.currentCommand = (lines [] data).2))
      (handler.Entered data) := by
  have pending : next.currentCommand = [] := quiet.currentCommand.trans nothing
  have fits : Fits next.currentCommand data := pending ▸ opens.2
  have stillOver : (next.logCommands data).authDone = true := by
    obtain ⟨currentCommand, log, equal⟩ := logCommands_eq next data
    rw [equal]
    exact loginOver
  have logs {last : Handler} (same : Same (next.logCommands data) last) :
      handler.Logged data last := (logCommands_fits fits).congr quiet same
  have entered {last : Handler} (same : Same (next.logCommands data) last) :
      handler.Entered data last :=
    { quiet := fun open_ =>
        absurd (open_.symm.trans (same.authDone.trans stillOver)) Bool.false_ne_true
      opens := fun _ => opens
      inputs := fun _ => nothing ▸ (logs same).inputs }
  refine (sendOn_leaves _ .frontend).imp ?_ fun _ => entered
  intro last same
  exact ⟨entered same, fun _ => nothing ▸ (logs same).currentCommand⟩

theorem frontend_enters (open_ : handler.authDone = false) (nothing : handler.currentCommand = [])
    (starts : config.spoofAuthenticationData = true → handler.Starts config data) :
    Leaves (handler.addPacket config .frontend data)
      (fun next => handler.Entered data next ∧
        (next.authDone = true → next.currentCommand = (lines [] data).2))
      (handler.Entered data) := by
  have received : Quiet handler (handler.receive data) := ⟨rfl, rfl⟩
  have openAt : (handler.receive data).authDone = false := open_
  cases spoofs : config.spoofAuthenticationData with
  | false =>
      have plain : handler.addPacket config .frontend data =
          (handler.receive data).sendOn config .frontend := by
        rw [addPacket, spoofs]
        exact sendOn_open open_
      rw [plain]
      exact sendOn_enters received openAt
  | true =>
      have starts := starts spoofs
      have spoofed := @spoofAuthentication_leaves config _ openAt
      rw [addPacket_spoofed .frontend spoofs open_]
      refine Leaves.bind (spoofed.imp (fun _ known => known) ?_) ?_
      · rintro state ⟨quiet, loginOver⟩
        exact
          { quiet := fun _ => received.trans quiet
            opens := fun isOver => (starts (loginOver isOver).1).1
            inputs := fun isOver => by
              rw [(starts (loginOver isOver).1).2 (loginOver isOver).2, List.append_nil]
              exact (received.trans quiet).inputs }
      · rintro next ⟨quiet, loginOver⟩
        by_cases isOver : next.authDone = true
        · rw [if_pos ⟨rfl, isOver⟩]
          exact logCommands_enters (received.trans quiet) isOver nothing (starts (loginOver isOver)).1
        · have stillOpen := Bool.eq_false_of_not_eq_true isOver
          rw [sendOn_open stillOpen]
          exact sendOn_enters (received.trans quiet) stillOpen

theorem spoofBackend_unmoved (handler : Handler) :
    Unmoved handler ((handler.setProcessingStateBackend config).dropLoginEcho config) := by
  rw [dropLoginEcho_eq, setProcessingStateBackend_eq]
  exact ⟨⟨rfl, rfl⟩, rfl⟩

theorem backend_leaves :
    Leaves (handler.addPacket config .backend data) (Unmoved handler) (Unmoved handler) := by
  have received : Unmoved handler (handler.receive data) := ⟨⟨rfl, rfl⟩, rfl⟩
  have sent {next : Handler} (unmoved : Unmoved handler next) :
      Leaves (next.sendOn config .backend) (Unmoved handler) (Unmoved handler) :=
    (sendOn_leaves next .backend).imp (fun _ => unmoved.trans ∘ Same.unmoved)
      fun _ => unmoved.trans ∘ Same.unmoved
  rw [addPacket]
  split
  · exact sent (received.trans (spoofBackend_unmoved (handler.receive data)))
  · exact sent received

end Handler

/-! ## Sessions -/

/-- A session: the handler, whether a call raised, so that the connection is closed, and
what the client has typed after its login was accepted. -/
structure Session where
  handler : Handler := {}
  closed : Bool := false
  typed : Bytes := []

inductive SessionEvent where
  | setClient
  | packet (parent : Parent) (data : Bytes)

namespace Session

variable (config : Config) (session : Session)

def typing (next : Handler) (data : Bytes) : Parent → Bytes
  | .backend => session.typed
  | .frontend =>
      if session.handler.authDone then session.typed ++ data
      else if next.authDone then afterLine data
      else []

def step : SessionEvent → Option Session
  | .setClient =>
      if session.closed then none
      else some { session with handler := { session.handler with client := true } }
  | .packet parent data =>
      if session.closed then none
      else
        match session.handler.addPacket config parent data with
        | .ok next => some { handler := next, typed := session.typing next data parent }
        | .error (_, next) =>
            some { handler := next, closed := true, typed := session.typing next data parent }

/-- The commands that were logged are the lines that were typed after the login, but for
empty ones. -/
def Recorded : Prop := commandInputs session.handler.log = filled (lines [] session.typed).1

/-- Lines and packets are aligned: once the login is over each packet fits, and nothing of an
accepted password is in the packet that ends it. -/
def Aligned (session : Session) : SessionEvent → Prop
  | .setClient => True
  | .packet .backend _ => True
  | .packet .frontend data =>
      (session.handler.authDone = true → Fits session.handler.currentCommand data) ∧
        (session.handler.authDone = false → config.spoofAuthenticationData = true →
          session.handler.Starts config data)

instance (session : Session) : DecidablePred (session.Aligned config)
  | .setClient => inferInstanceAs (Decidable True)
  | .packet .backend _ => inferInstanceAs (Decidable True)
  | .packet .frontend _ => inferInstanceAs (Decidable ((_ → _) ∧ (_ → _ → (_ → _))))

/-- The command that is collected is the line that is typed. -/
structure Follows (session : Session) : Prop where
  recorded : session.Recorded
  pending : session.handler.currentCommand = (lines [] session.typed).2
  paired : paired session.typed = true
  unopened : session.handler.authDone = false → session.typed = []

variable {config : Config} {session next : Session}

theorem Follows.commands (follows : session.Follows) (more : Bytes) :
    filled (lines [] (session.typed ++ more)).1 =
      filled (lines [] session.typed).1 ++ filled (lines session.handler.currentCommand more).1 := by
  rw [lines_append follows.paired, ← follows.pending]
  exact List.filter_append ..

theorem Follows.logs {data : Bytes} {next : Handler} (follows : session.Follows)
    (fits : Fits session.handler.currentCommand data) (logged : session.handler.Logged data next)
    (loginOver : session.handler.authDone = true) (stays : next.authDone = true) (closed : Bool) :
    Follows ⟨next, closed, session.typing next data .frontend⟩ := by
  have typed : session.typing next data .frontend = session.typed ++ data := if_pos loginOver
  rw [typed]
  exact
    { recorded := by
        rw [Recorded, logged.inputs, follows.commands, ← follows.recorded]
      pending := by
        rw [logged.currentCommand, lines_append follows.paired, ← follows.pending]
      paired := (paired_append follows.paired).trans fits.1
      unopened := fun open_ => absurd (open_.symm.trans stays) Bool.false_ne_true }

theorem packet_cases {parent : Parent} {data : Bytes}
    (taken : step config session (.packet parent data) = some next) :
    (∃ handler, session.handler.addPacket config parent data = .ok handler ∧
        next = ⟨handler, false, session.typing handler data parent⟩) ∨
      ∃ error handler, session.handler.addPacket config parent data = .error (error, handler) ∧
        next = ⟨handler, true, session.typing handler data parent⟩ := by
  rw [step] at taken
  split at taken
  · cases taken
  · split at taken
    · next handler returned =>
      cases taken
      exact .inl ⟨handler, returned, rfl⟩
    · next error handler raised =>
      cases taken
      exact .inr ⟨error, handler, raised, rfl⟩

theorem Follows.enters {data : Bytes} {next : Handler} (follows : session.Follows)
    (open_ : session.handler.authDone = false) (entered : session.handler.Entered data next)
    (closed : Bool) : Recorded ⟨next, closed, session.typing next data .frontend⟩ := by
  have recorded := follows.recorded
  rw [Recorded, follows.unopened open_] at recorded
  rw [Recorded, typing, if_neg (by simp [open_])]
  by_cases loginOver : next.authDone = true
  · rw [if_pos loginOver, entered.inputs loginOver, recorded, (entered.opens loginOver).lines_eq.1]
    rfl
  · rw [if_neg loginOver, (entered.quiet (Bool.eq_false_of_not_eq_true loginOver)).inputs, recorded]

theorem Follows.entered {data : Bytes} {next : Handler} (follows : session.Follows)
    (open_ : session.handler.authDone = false) (entered : session.handler.Entered data next)
    (pending : next.authDone = true → next.currentCommand = (lines [] data).2) :
    Follows ⟨next, false, session.typing next data .frontend⟩ := by
  have recorded := follows.enters open_ entered false
  have before := follows.pending
  rw [follows.unopened open_] at before
  have unopened : ¬ session.handler.authDone = true := by simp [open_]
  by_cases loginOver : next.authDone = true
  · have typed : session.typing next data .frontend = afterLine data := by
      rw [typing, if_neg unopened, if_pos loginOver]
    rw [typed] at recorded ⊢
    exact
      { recorded := recorded
        pending := by rw [pending loginOver, (entered.opens loginOver).lines_eq.1]
        paired := (entered.opens loginOver).lines_eq.2
        unopened := fun stillOpen => absurd (stillOpen.symm.trans loginOver) Bool.false_ne_true }
  · have typed : session.typing next data .frontend = [] := by
      rw [typing, if_neg unopened, if_neg loginOver]
    rw [typed] at recorded ⊢
    exact
      { recorded := recorded
        pending := (entered.quiet (Bool.eq_false_of_not_eq_true loginOver)).currentCommand.trans before
        paired := rfl
        unopened := fun _ => rfl }

theorem Follows.unmoved {next : Handler} (follows : session.Follows)
    (unmoved : session.handler.Unmoved next) (closed : Bool) :
    Follows ⟨next, closed, session.typed⟩ where
  recorded := unmoved.inputs.trans follows.recorded
  pending := unmoved.currentCommand.trans follows.pending
  paired := follows.paired
  unopened open_ := follows.unopened (unmoved.authDone.symm.trans open_)

/-- What a session keeps: its commands are the lines that were typed, and until a call raises
the command that is collected is the unfinished line. -/
def Keeps (session : Session) : Prop := session.Recorded ∧ (session.closed = false → session.Follows)

theorem Follows.keeps (follows : session.Follows) : session.Keeps :=
  ⟨follows.recorded, fun _ => follows⟩

theorem Keeps.packet {parent : Parent} {data : Bytes} (follows : session.Follows)
    (aligned : Aligned config session (.packet parent data))
    (taken : step config session (.packet parent data) = some next) : next.Keeps := by
  cases parent with
  | backend =>
      have leaves := @Handler.backend_leaves config session.handler data
      rcases packet_cases taken with ⟨handler, returned, rfl⟩ | ⟨error, handler, raised, rfl⟩
      · exact (follows.unmoved (leaves.of_ok returned) false).keeps
      · exact (follows.unmoved (leaves.of_error raised) true).keeps
  | frontend =>
      by_cases loginOver : session.handler.authDone = true
      · have fits := aligned.1 loginOver
        have leaves := @Handler.frontend_logs config _ _ loginOver fits
        rcases packet_cases taken with ⟨handler, returned, rfl⟩ | ⟨error, handler, raised, rfl⟩
        · obtain ⟨logged, stays⟩ := leaves.of_ok returned
          exact (follows.logs fits logged loginOver stays false).keeps
        · obtain ⟨logged, stays⟩ := leaves.of_error raised
          exact (follows.logs fits logged loginOver stays true).keeps
      · have open_ := Bool.eq_false_of_not_eq_true loginOver
        have nothing : session.handler.currentCommand = [] := by
          rw [follows.pending, follows.unopened open_]
          rfl
        have leaves := Handler.frontend_enters open_ nothing (aligned.2 open_)
        rcases packet_cases taken with ⟨handler, returned, rfl⟩ | ⟨error, handler, raised, rfl⟩
        · obtain ⟨entered, pending⟩ := leaves.of_ok returned
          exact (follows.entered open_ entered pending).keeps
        · exact ⟨follows.enters open_ (leaves.of_error raised) true, fun isOpen => by cases isOpen⟩

theorem open_of_step {event : SessionEvent} (taken : step config session event = some next) :
    session.closed = false := by
  cases closed : session.closed with
  | false => rfl
  | true =>
      cases event with
      | setClient =>
          rw [step, if_pos closed] at taken
          cases taken
      | packet parent data =>
          rw [step, if_pos closed] at taken
          cases taken

theorem Keeps.step {event : SessionEvent} (keeps : session.Keeps)
    (aligned : Aligned config session event) (taken : step config session event = some next) :
    next.Keeps := by
  have isOpen := open_of_step taken
  have follows := keeps.2 isOpen
  cases event with
  | packet parent data => exact Keeps.packet follows aligned taken
  | setClient =>
      rw [Session.step, if_neg (by simp [isOpen])] at taken
      cases taken
      exact Follows.keeps ⟨follows.recorded, follows.pending, follows.paired, follows.unopened⟩

theorem follows_start : Follows {} := ⟨rfl, rfl, rfl, fun _ => rfl⟩

/-- In every session whose packets are aligned, the commands that are logged are the lines
that were typed after the login. Negotiation that the client sends among them is part of the
lines; without `spoofAuthenticationData` no login is checked, so none is after it and none is
logged. -/
theorem recorded_of_aligned {events : List SessionEvent} {final : Session}
    (aligned : EventRun.Along (step config) (Aligned config) {} events)
    (ran : EventRun.run (step config) {} events = some final) : final.Recorded :=
  (EventRun.run_invariant_along Keeps
    (fun _ keeps aligned taken => Keeps.step keeps aligned taken) follows_start.keeps aligned
    ran).1

def plainSession : List SessionEvent :=
  [.setClient, .packet .backend (ascii "ubuntu login: "), .packet .frontend (ascii "root\r\n"),
    .packet .backend (ascii "root\r\nPassword: "), .packet .frontend (ascii "123456"),
    .packet .frontend (ascii "\r\n"), .packet .backend (ascii "$ "),
    .packet .frontend (ascii "ls -"), .packet .frontend (ascii "la\r\n"),
    .packet .frontend (ascii "\r\n"), .packet .frontend (ascii "id" ++ [CR, NUL])]

theorem recorded_of_aligned_plainSession :
    ∃ final, EventRun.run (step .ubuntu) {} plainSession = some final ∧ final.Recorded := by
  have runs : (EventRun.run (step .ubuntu) {} plainSession).isSome = true := by decide +kernel
  obtain ⟨final, ran⟩ := Option.isSome_iff_exists.mp runs
  exact ⟨final, ran, recorded_of_aligned (by decide +kernel) ran⟩

def report (session : Session) : List Bytes × List Bytes :=
  (commandInputs session.handler.log, filled (lines [] session.typed).1)

def fastSession : List SessionEvent :=
  [.setClient, .packet .backend (ascii "ubuntu login: "), .packet .frontend (ascii "root\r\n"),
    .packet .backend (ascii "root\r\nPassword: "), .packet .frontend (ascii "123456\r\n"),
    .packet .frontend (ascii "ls\r\npwd\r\n")]

/-- The password is logged as a command, and the two lines as one. -/
theorem fastSession_misrecorded :
    (EventRun.run (step .ubuntu) {} fastSession).map report =
        some ([ascii "123456", ascii "lspwd"], [ascii "ls", ascii "pwd"]) ∧
      ¬ ∀ final, EventRun.run (step .ubuntu) {} fastSession = some final → final.Recorded := by
  have reported : (EventRun.run (step .ubuntu) {} fastSession).map report =
      some ([ascii "123456", ascii "lspwd"], [ascii "ls", ascii "pwd"]) := by decide +kernel
  refine ⟨reported, ?_⟩
  intro all
  obtain ⟨final, ran, reports⟩ := Option.map_eq_some_iff.mp reported
  have recorded := all final ran
  obtain ⟨logged, typed⟩ := Prod.mk.inj reports
  rw [Recorded, logged, typed] at recorded
  exact absurd recorded (by decide +kernel)

end Session

end TelnetProxy

end LlmHoneypot
