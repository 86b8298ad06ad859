import LlmHoneypot.Tftp.Client

/-! # Progress of a transfer

A client that waits has its timer running, and its Deferred is fired once. -/

namespace LlmHoneypot

namespace Tftp

open EventRun

def Client.Waits (client : Client) : Prop := client.fired = [] → client.timeoutCall = true

structure Client.Unstuck (client : Client) : Prop where
  waits : client.Waits
  once : client.fired.length ≤ 1

/-- A datagram that is answered while the transfer is on: a block that is expected or was
the last one, whose ACK is sent, or an ERROR with a text. -/
def AnswersWaiting (settings : Settings) (client : Client) (datagram : Bytes) (address : Address) :
    Prop :=
  word 0 datagram = OPCODE_DATA ∧
      (word 2 datagram = client.currentBlock + 1 ∨ word 2 datagram = client.currentBlock) ∧
      settings.sends (ackPacket (word 2 datagram)) (client.serverTid.getD address) = true ∨
    word 0 datagram = OPCODE_ERROR ∧ 5 ≤ datagram.length

def Retransmits (settings : Settings) (client : Client) : Prop :=
  if client.currentBlock = 0 then
    settings.sends (rrqPacket settings.filename) settings.server = true
  else
    settings.sends (ackPacket client.currentBlock) (client.serverTid.getD settings.server) = true

/-- The events that leave no client stuck and fire no Deferred again. -/
def Answers (settings : Settings) (client : Client) : Event → Prop
  | .datagram datagram address =>
      datagram.length < 4 ∨
        if client.fired = [] then AnswersWaiting settings client datagram address
        else word 0 datagram ≠ OPCODE_ERROR ∨ datagram.length < 5
  | .timeout => TFTP_MAX_RETRIES ≤ client.retryCount + 1 ∨ Retransmits settings client
  | .stop => True

variable {settings : Settings} {client next : Client}

/-! ## Calls -/

theorem fired_sendACK (blockNum : Nat) :
    (left (client.sendACK settings blockNum)).fired = client.fired := by
  by_cases sent :
      settings.sends (ackPacket blockNum) (client.serverTid.getD settings.server) = true
  · rw [Client.sendACK_of_sends sent]
    rfl
  · rw [Client.sendACK_of_not sent]
    rfl

theorem fired_sendRRQ : (left (client.sendRRQ settings)).fired = client.fired := by
  simp only [Client.sendRRQ, Client.transmit]
  split <;> rfl

theorem timeoutCall_sendACK (blockNum : Nat) :
    (left (client.sendACK settings blockNum)).timeoutCall = true ↔
      client.timeoutCall = true ∨
        settings.sends (ackPacket blockNum) (client.serverTid.getD settings.server) = true := by
  by_cases sent :
      settings.sends (ackPacket blockNum) (client.serverTid.getD settings.server) = true
  · rw [Client.sendACK_of_sends sent]
    exact iff_of_true rfl (.inr sent)
  · rw [Client.sendACK_of_not sent]
    exact ⟨.inl, fun either => either.resolve_right sent⟩

theorem timeoutCall_sendRRQ :
    (left (client.sendRRQ settings)).timeoutCall = true ↔
      client.timeoutCall = true ∨
        settings.sends (rrqPacket settings.filename) settings.server = true := by
  simp only [Client.sendRRQ, Client.transmit]
  split
  · next sent => exact iff_of_true rfl (.inr sent)
  · next unsent => exact ⟨.inl, fun either => either.resolve_right unsent⟩

theorem unstuck_of_waiting (waiting : client.fired = []) :
    client.Unstuck ↔ client.timeoutCall = true := by
  constructor
  · intro unstuck
    exact unstuck.waits waiting
  · intro pending
    exact ⟨fun _ => pending, by rw [waiting]; exact Nat.zero_le 1⟩

theorem unstuck_of_fired (fired : client.fired ≠ []) :
    client.Unstuck ↔ client.fired.length ≤ 1 :=
  ⟨Client.Unstuck.once, fun once => ⟨fun waiting => absurd waiting fired, once⟩⟩

theorem unstuck_fire (waiting : client.fired = []) (outcome : Outcome) :
    (left (client.fire outcome)).Unstuck := by
  simp only [Client.fire, waiting, if_true, left]
  exact (unstuck_of_fired (by simp)).mpr (Nat.le_refl 1)

theorem not_unstuck_fire (fired : client.fired ≠ []) (outcome : Outcome) :
    ¬ (left (client.fire outcome)).Unstuck := by
  simp only [Client.fire, fired, if_false, left]
  intro unstuck
  have once := unstuck.once
  have some_ := List.length_pos_iff.mpr fired
  rw [List.length_append, List.length_singleton] at once
  omega

theorem unstuck_of_same (same : next.fired = client.fired) (fired : client.fired ≠ [])
    (unstuck : client.Unstuck) : next.Unstuck := by
  rw [unstuck_of_fired (same ▸ fired), same]
  exact unstuck.once

/-! ## Datagrams -/

theorem fired_takeBlock (fired : client.fired ≠ []) (blockNum : Nat) (data : Bytes) :
    (left (client.takeBlock settings blockNum data)).fired = client.fired := by
  rw [Client.takeBlock_of_fired fired]
  rfl

theorem unstuck_takeBlock (waiting : client.fired = []) (idle : client.timeoutCall = false)
    (blockNum : Nat) (data : Bytes) :
    (left (client.takeBlock settings blockNum data)).Unstuck ↔
      settings.sends (ackPacket blockNum) (client.serverTid.getD settings.server) = true := by
  have still : (client.taking blockNum data).fired = [] := waiting
  have sameTid : (client.taking blockNum data).serverTid = client.serverTid := rfl
  rw [Client.takeBlock_of_waiting waiting, ← sameTid]
  by_cases sent : settings.sends (ackPacket blockNum)
      ((client.taking blockNum data).serverTid.getD settings.server) = true
  · rw [Client.sendACK_of_sends sent]
    refine iff_of_true ?_ sent
    have acknowledged : ((client.taking blockNum data).acknowledged settings blockNum).fired = [] :=
      waiting
    have cancelled :
        ((client.taking blockNum data).acknowledged settings blockNum).cancelTimeout.fired = [] :=
      waiting
    simp only [Client.finishBlock, bind, Except.bind]
    split
    · exact unstuck_fire cancelled _
    · exact (unstuck_of_waiting acknowledged).mpr rfl
  · rw [Client.sendACK_of_not sent]
    refine iff_of_false ?_ sent
    intro unstuck
    have pending := (unstuck_of_waiting still).mp unstuck
    exact Bool.false_ne_true (idle.symm.trans pending)

theorem unstuck_handleDATA (waiting : client.fired = []) (idle : client.timeoutCall = false)
    {packet : Bytes} (long : ¬ packet.length < 4) :
    (left (client.handleDATA settings packet)).Unstuck ↔
      (word 2 packet = client.currentBlock + 1 ∨ word 2 packet = client.currentBlock) ∧
        settings.sends (ackPacket (word 2 packet)) (client.serverTid.getD settings.server) = true := by
  simp only [Client.handleDATA, if_neg long]
  split
  · next expected =>
    rw [unstuck_takeBlock waiting idle]
    simp only [expected, true_or, true_and]
  · next unexpected =>
    split
    · next again =>
      rw [unstuck_of_waiting ((fired_sendACK _).trans waiting), timeoutCall_sendACK, idle]
      simp only [Bool.false_eq_true, false_or, again, or_true, true_and]
    · next other =>
      rw [left, unstuck_of_waiting waiting, idle]
      simp only [Bool.false_eq_true, unexpected, other, or_self, false_and]

theorem unstuck_handleERROR (waiting : client.fired = []) (idle : client.timeoutCall = false)
    (packet : Bytes) :
    (left (client.handleERROR packet)).Unstuck ↔ 5 ≤ packet.length := by
  rw [Client.handleERROR]
  split
  · next short =>
    rw [left, unstuck_of_waiting waiting, idle]
    exact iff_of_false Bool.false_ne_true (Nat.not_le.mpr short)
  · next long =>
    have stopped : client.cancelTimeout.fired = [] := waiting
    exact iff_of_true (unstuck_fire stopped _) (Nat.not_lt.mp long)

theorem fired_handleDATA (fired : client.fired ≠ []) (packet : Bytes) :
    (left (client.handleDATA settings packet)).fired = client.fired := by
  simp only [Client.handleDATA]
  split
  · rfl
  · split
    · exact fired_takeBlock fired ..
    · split
      · exact fired_sendACK _
      · rfl

theorem datagram_waiting (waiting : client.fired = []) {datagram : Bytes} {address : Address}
    (long : ¬ datagram.length < 4) :
    (left (client.datagramReceived settings datagram address)).Unstuck ↔
      AnswersWaiting settings client datagram address := by
  rw [Client.datagramReceived, if_neg long, AnswersWaiting]
  have heardWaiting : (client.heard address).fired = [] := waiting
  split
  · next isData =>
    rw [unstuck_handleDATA heardWaiting rfl long]
    simp only [isData, true_and, OPCODE_DATA, OPCODE_ERROR, Nat.reduceEqDiff, false_and, or_false]
    rfl
  · next notData =>
    split
    · next isError =>
      rw [unstuck_handleERROR heardWaiting rfl]
      exact ⟨fun enough => .inr ⟨isError, enough⟩,
        fun either => (either.resolve_left fun data => notData data.1).2⟩
    · next notError =>
      rw [left, unstuck_of_waiting heardWaiting]
      simp only [notData, notError, false_and, or_self, iff_false]
      exact Bool.false_ne_true

theorem datagram_fired (fired : client.fired ≠ []) (unstuck : client.Unstuck) {datagram : Bytes}
    {address : Address} (long : ¬ datagram.length < 4) :
    (left (client.datagramReceived settings datagram address)).Unstuck ↔
      word 0 datagram ≠ OPCODE_ERROR ∨ datagram.length < 5 := by
  rw [Client.datagramReceived, if_neg long]
  have heardFired : (client.heard address).fired ≠ [] := fired
  have heardUnstuck : (client.heard address).Unstuck := @unstuck_of_same client _ rfl fired unstuck
  split
  · next isData =>
    refine iff_of_true (unstuck_of_same (fired_handleDATA heardFired _) heardFired heardUnstuck)
      (.inl ?_)
    rw [isData]
    decide
  · split
    · next isError =>
      rw [Client.handleERROR]
      split
      · next short => exact iff_of_true heardUnstuck (.inr short)
      · next enough =>
        have again : (client.heard address).cancelTimeout.fired ≠ [] := fired
        refine iff_of_false (not_unstuck_fire again _) ?_
        simp only [isError, ne_eq, not_true_eq_false, false_or, enough, not_false_eq_true]
    · next notError => exact iff_of_true heardUnstuck (.inl notError)

/-! ## Timeouts -/

theorem timeout_waiting (waiting : client.fired = []) :
    (left (client.cancelTimeout.handleTimeout settings)).Unstuck ↔
      TFTP_MAX_RETRIES ≤ client.retryCount + 1 ∨ Retransmits settings client := by
  have still : client.cancelTimeout.retrying.fired = [] := waiting
  simp only [Client.handleTimeout, Retransmits]
  split
  · next enough => exact iff_of_true (unstuck_fire still _) (.inl enough)
  · next fewer =>
    refine Iff.trans ?_ (or_iff_right fewer).symm
    by_cases fresh : client.currentBlock = 0
    · have atStart : client.cancelTimeout.retrying.currentBlock = 0 := fresh
      rw [if_pos atStart, if_pos fresh, unstuck_of_waiting (fired_sendRRQ.trans still),
        timeoutCall_sendRRQ]
      exact ⟨fun either => either.resolve_left Bool.false_ne_true, .inr⟩
    · have onward : ¬ client.cancelTimeout.retrying.currentBlock = 0 := fresh
      rw [if_neg onward, if_neg fresh, unstuck_of_waiting ((fired_sendACK _).trans still),
        timeoutCall_sendACK]
      exact ⟨fun either => either.resolve_left Bool.false_ne_true, .inr⟩

/-! ## Runs -/

theorem unstuck_step {event : Event} (unstuck : client.Unstuck)
    (taken : step settings client event = some next) :
    next.Unstuck ↔ Answers settings client event := by
  cases event with
  | datagram datagram address =>
      simp only [step] at taken
      split at taken
      · cases taken
      · obtain rfl := Option.some.inj taken
        rw [Answers]
        by_cases short : datagram.length < 4
        · rw [Client.datagramReceived, if_pos short]
          exact iff_of_true unstuck (.inl short)
        · simp only [short, false_or]
          split
          · next waiting => exact datagram_waiting waiting short
          · next fired => exact datagram_fired fired unstuck short
  | timeout =>
      simp only [step] at taken
      split at taken
      · next due =>
        obtain rfl := Option.some.inj taken
        exact timeout_waiting due.2
      · cases taken
  | stop =>
      simp only [step] at taken
      split at taken
      · next due =>
        obtain rfl := Option.some.inj taken
        exact iff_of_true (@unstuck_of_same client _ rfl due.1 unstuck) trivial
      · cases taken

theorem unstuck_start :
    (start settings).Unstuck ↔
      settings.sends (rrqPacket settings.filename) settings.server = true := by
  rw [start, Client.startProtocol, unstuck_of_waiting fired_sendRRQ, timeoutCall_sendRRQ]
  simp only [Bool.false_eq_true, false_or]

/-- No state of a run is stuck, and none has a Deferred that fired twice, exactly when the
request is sent and every event is answered. -/
theorem never_stuck_iff (settings : Settings) (events : List Event) :
    Always (step settings) Client.Unstuck (start settings) events ↔
      settings.sends (rrqPacket settings.filename) settings.server = true ∧
        Along (step settings)
          (fun client event => (step settings client event).isSome → Answers settings client event)
          (start settings) events := by
  rw [always_iff_along unstuck_step, unstuck_start]

/-- The second block of a file comes first: the timer is stopped and nothing starts it
again. -/
theorem out_of_order_block_stuck :
    ¬ ∀ settings events, Always (step settings) Client.Unstuck (start settings) events := by
  intro all
  have reached := (all .plain [.datagram [0, 3, 0, 2] ⟨"192.0.2.1".toList, 2000⟩]).2.1 _ rfl
  have pending := reached.waits rfl
  revert pending
  decide

end Tftp

end LlmHoneypot
