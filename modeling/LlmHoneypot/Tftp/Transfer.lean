import LlmHoneypot.Tftp.Client

/-! # A transfer

The client with a server that sends the blocks of a file one after the other. The network
loses, repeats and reorders what either of them has sent, and lets others send. -/

namespace LlmHoneypot

namespace Tftp

open EventRun

/-! ## The server -/

/-- The block with a number, the first one is 1. -/
def block (file : Bytes) (number : Nat) : Bytes :=
  (file.drop (TFTP_BLOCK_SIZE * (number - 1))).take TFTP_BLOCK_SIZE

/-- The number of blocks: the last one is short. -/
def blocks (file : Bytes) : Nat := file.length / TFTP_BLOCK_SIZE + 1

/-- The DATA packet of a block; of its number the last 16 bits are sent. -/
def dataPacket (file : Bytes) (number : Nat) : Bytes :=
  BigEndian.encode 2 OPCODE_DATA ++ BigEndian.encode 2 number ++ block file number

structure Transfer where
  client : Client
  sending : Nat := 0
  deriving DecidableEq, Repr

inductive NetworkEvent
  | request
  | ack (packet : Bytes)
  | block (number : Nat)
  /-- A datagram of somebody else. -/
  | other (datagram : Bytes) (address : Address)
  | timeout
  | stop
  deriving DecidableEq, Repr

def acknowledge (file : Bytes) (number sending : Nat) : Nat :=
  if 0 < sending ∧ sending < blocks file ∧ sending % 65536 = number then sending + 1 else sending

/-- The address `tid` is the one that the server sends the file from. -/
def transferStep (settings : Settings) (tid : Address) (file : Bytes) (state : Transfer) :
    NetworkEvent → Option Transfer
  | .request =>
      if (rrqPacket settings.filename, settings.server) ∈ state.client.written ∧ state.sending = 0
      then some { state with sending := 1 }
      else none
  | .ack packet =>
      if (packet, tid) ∈ state.client.written ∧ word 0 packet = OPCODE_ACK then
        some { state with sending := acknowledge file (word 2 packet) state.sending }
      else none
  | .block number =>
      if 1 ≤ number ∧ number ≤ state.sending then
        (step settings state.client (.datagram (dataPacket file number) tid)).map
          ({ state with client := · })
      else none
  | .other datagram address =>
      if address ≠ tid then
        (step settings state.client (.datagram datagram address)).map ({ state with client := · })
      else none
  | .timeout => (step settings state.client .timeout).map ({ state with client := · })
  | .stop => (step settings state.client .stop).map ({ state with client := · })

def opening (settings : Settings) : Transfer := { client := start settings }

/-! ## Packets -/

theorem word_head (number : Nat) (rest : Bytes) :
    word 0 (BigEndian.encode 2 number ++ rest) = number % 65536 := by
  rw [word, List.drop_zero, List.take_left' (BigEndian.length_encode 2 number),
    BigEndian.decode_encode_mod]
  rfl

theorem word_second (opcode number : Nat) (rest : Bytes) :
    word 2 (BigEndian.encode 2 opcode ++ BigEndian.encode 2 number ++ rest) = number % 65536 := by
  rw [List.append_assoc, word, List.drop_left' (BigEndian.length_encode 2 opcode),
    List.take_left' (BigEndian.length_encode 2 number), BigEndian.decode_encode_mod]
  rfl

theorem word_dataPacket (file : Bytes) (number : Nat) :
    word 0 (dataPacket file number) = OPCODE_DATA ∧
      word 2 (dataPacket file number) = number % 65536 ∧
      (dataPacket file number).drop 4 = block file number ∧
      ¬ (dataPacket file number).length < 4 := by
  refine ⟨?_, word_second .., ?_, ?_⟩
  · rw [dataPacket, List.append_assoc, word_head]
    rfl
  · rw [dataPacket, List.drop_left' (by simp)]
  · simp only [dataPacket, List.length_append, BigEndian.length_encode]
    omega

theorem word_ackPacket (number : Nat) : word 2 (ackPacket number) = number % 65536 := by
  have split := word_second OPCODE_ACK number []
  rw [List.append_nil] at split
  exact split

theorem word_rrqPacket (filename : Str) : word 0 (rrqPacket filename) ≠ OPCODE_ACK := by
  simp only [rrqPacket, List.append_assoc, word_head]
  decide

theorem take_block (file : Bytes) (count : Nat) :
    file.take (TFTP_BLOCK_SIZE * count) ++ block file (count + 1) =
      file.take (TFTP_BLOCK_SIZE * (count + 1)) := by
  rw [block, Nat.add_sub_cancel, Nat.mul_succ, ← List.take_add]

theorem take_of_short {file : Bytes} {count : Nat}
    (short : (block file (count + 1)).length < TFTP_BLOCK_SIZE) :
    file.take (TFTP_BLOCK_SIZE * (count + 1)) = file := by
  apply List.take_of_length_le
  rw [block, Nat.add_sub_cancel, List.length_take, List.length_drop] at short
  rw [Nat.mul_succ]
  omega

/-! ## Calls -/

variable {settings : Settings} {tid : Address} {file : Bytes} {client next : Client}
  {state later : Transfer}

/-- Nothing is received; what is new on the transport is of one kind. -/
structure Client.Resends (client next : Client) (sent : Bytes → Prop) : Prop where
  currentBlock : next.currentBlock = client.currentBlock
  artifact : next.artifact = client.artifact
  fired : next.fired = client.fired ∨ client.fired = [] ∧ .complete ∉ next.fired
  written : ∀ entry ∈ next.written, entry ∈ client.written ∨ sent entry.1

theorem resends_sendACK (blockNum : Nat) :
    client.Resends (left (client.sendACK settings blockNum)) (· = ackPacket blockNum) := by
  by_cases sent :
      settings.sends (ackPacket blockNum) (client.serverTid.getD settings.server) = true
  · rw [Client.sendACK_of_sends sent]
    refine ⟨rfl, rfl, .inl rfl, ?_⟩
    intro entry member
    rcases List.mem_append.mp member with before | now
    · exact .inl before
    · rw [List.mem_singleton.mp now]
      exact .inr rfl
  · rw [Client.sendACK_of_not sent]
    exact ⟨rfl, rfl, .inl rfl, fun _ => .inl⟩

theorem resends_sendRRQ :
    client.Resends (left (client.sendRRQ settings)) (· = rrqPacket settings.filename) := by
  simp only [Client.sendRRQ, Client.transmit]
  split
  · refine ⟨rfl, rfl, .inl rfl, ?_⟩
    intro entry member
    rcases List.mem_append.mp member with before | now
    · exact .inl before
    · rw [List.mem_singleton.mp now]
      exact .inr rfl
  · exact ⟨rfl, rfl, .inl rfl, fun _ => .inl⟩

theorem resends_handleTimeout (waiting : client.fired = []) :
    client.Resends (left (client.cancelTimeout.handleTimeout settings)) fun packet =>
      packet = rrqPacket settings.filename ∨
        client.currentBlock ≠ 0 ∧ packet = ackPacket client.currentBlock := by
  have still : client.cancelTimeout.retrying.fired = [] := waiting
  simp only [Client.handleTimeout]
  split
  · rw [Client.fire, if_pos still]
    refine ⟨rfl, rfl, .inr ⟨waiting, ?_⟩, fun _ => .inl⟩
    simp [left, still]
  · split
    · have sent := @resends_sendRRQ settings client.cancelTimeout.retrying
      exact ⟨sent.currentBlock, sent.artifact, sent.fired,
        fun entry member => (sent.written entry member).imp_right .inl⟩
    · next onward =>
      have sent := @resends_sendACK settings client.cancelTimeout.retrying client.currentBlock
      exact ⟨sent.currentBlock, sent.artifact, sent.fired,
        fun entry member => (sent.written entry member).imp_right fun isAck => .inr ⟨onward, isAck⟩⟩

structure Client.Takes (client next : Client) (number : Nat) (data : Bytes) : Prop where
  currentBlock : next.currentBlock = number
  artifact : client.fired = [] → next.artifact = client.artifact ++ data
  closed : client.fired ≠ [] → next.artifact = client.artifact ∧ next.fired = client.fired
  fired : client.fired = [] →
    next.fired = [] ∨ data.length < TFTP_BLOCK_SIZE ∧ next.fired = [.complete]
  written : ∀ entry ∈ next.written, entry ∈ client.written ∨ entry.1 = ackPacket number

theorem takes_finishBlock (waiting : client.fired = []) (number : Nat) (data : Bytes) :
    client.Takes
      (left (((client.taking number data).acknowledged settings number).finishBlock data))
      number data := by
  have still : ((client.taking number data).acknowledged settings number).cancelTimeout.fired =
      [] := waiting
  have written : ∀ entry ∈ ((client.taking number data).acknowledged settings number).written,
      entry ∈ client.written ∨ entry.1 = ackPacket number := by
    intro entry member
    rcases List.mem_append.mp member with before | now
    · exact .inl before
    · rw [List.mem_singleton.mp now]
      exact .inr rfl
  rw [Client.finishBlock]
  split
  · next short =>
    rw [Client.fire, if_pos still]
    refine ⟨rfl, fun _ => rfl, fun fired => absurd waiting fired, fun _ => .inr ⟨short, ?_⟩,
      written⟩
    rw [left, still]
    rfl
  · exact ⟨rfl, fun _ => rfl, fun fired => absurd waiting fired, fun _ => .inl waiting, written⟩

theorem takes_takeBlock (number : Nat) (data : Bytes) :
    client.Takes (left (client.takeBlock settings number data)) number data := by
  by_cases waiting : client.fired = []
  · rw [Client.takeBlock_of_waiting waiting]
    by_cases sent : settings.sends (ackPacket number)
        ((client.taking number data).serverTid.getD settings.server) = true
    · rw [Client.sendACK_of_sends sent]
      exact takes_finishBlock waiting number data
    · rw [Client.sendACK_of_not sent]
      exact ⟨rfl, fun _ => rfl, fun fired => absurd waiting fired, fun _ => .inl waiting,
        fun _ => .inl⟩
  · rw [Client.takeBlock_of_fired waiting]
    exact ⟨rfl, fun fired => absurd fired waiting, fun _ => ⟨rfl, rfl⟩,
      fun fired => absurd fired waiting, fun _ => .inl⟩

theorem data_cases {datagram : Bytes} {address : Address} (isData : word 0 datagram = OPCODE_DATA)
    (long : ¬ datagram.length < 4) :
    word 2 datagram = client.currentBlock + 1 ∧
        client.Takes (left (client.datagramReceived settings datagram address))
          (client.currentBlock + 1) (datagram.drop 4) ∨
      client.Resends (left (client.datagramReceived settings datagram address)) fun packet =>
        word 2 datagram = client.currentBlock ∧ packet = ackPacket client.currentBlock := by
  simp only [Client.datagramReceived, if_neg long, isData, if_true, Client.handleDATA]
  split
  · next expected =>
    have taken := @takes_takeBlock settings (client.heard address) (word 2 datagram) (datagram.drop 4)
    refine .inl ⟨expected, ?_⟩
    rw [expected] at taken ⊢
    exact ⟨taken.currentBlock, taken.artifact, taken.closed, taken.fired, taken.written⟩
  · refine .inr ?_
    split
    · next again =>
      have sent := @resends_sendACK settings (client.heard address) (word 2 datagram)
      refine ⟨sent.currentBlock, sent.artifact, sent.fired, fun entry member => ?_⟩
      refine (sent.written entry member).imp_right fun isAck => ⟨again, ?_⟩
      rw [isAck, again]
      rfl
    · exact ⟨rfl, rfl, .inl rfl, fun _ => .inl⟩

/-! ## Other senders -/

/-- A datagram that changes nothing: it is too short, or the server is known, no timer runs
and nothing was retried, and it is none that the client takes, acknowledges or fails for. -/
def Unheeded (settings : Settings) (client : Client) (datagram : Bytes) : Prop :=
  datagram.length < 4 ∨
    (client.serverTid.isSome = true ∧ client.timeoutCall = false ∧ client.retryCount = 0) ∧
      (word 0 datagram = OPCODE_DATA → word 2 datagram ≠ client.currentBlock + 1 ∧
        (word 2 datagram = client.currentBlock →
          settings.sends (ackPacket client.currentBlock)
            (client.serverTid.getD settings.server) = false)) ∧
      (word 0 datagram = OPCODE_ERROR → datagram.length < 5)

theorem heard_eq_iff (address : Address) :
    client.heard address = client ↔
      client.serverTid.isSome = true ∧ client.timeoutCall = false ∧ client.retryCount = 0 := by
  obtain ⟨currentBlock, lastPacket, retryCount, timeoutCall, bytesReceived, serverTid, artifact,
    written, fired, stopped⟩ := client
  cases serverTid with
  | none => simp [Client.heard]
  | some known => simp [Client.heard, eq_comm, and_comm]

theorem sendACK_ne (blockNum : Nat)
    (sent : settings.sends (ackPacket blockNum) (client.serverTid.getD settings.server) = true) :
    (left (client.sendACK settings blockNum)).written ≠ client.written := by
  rw [Client.sendACK_of_sends sent]
  intro same
  have lengths := congrArg List.length same
  simp [left, Client.acknowledged] at lengths

theorem fire_ne (outcome : Outcome) : (left (client.fire outcome)).fired ≠ client.fired := by
  have appended : (left (client.fire outcome)).fired = client.fired ++ [outcome] := by
    rw [Client.fire]
    split <;> rfl
  rw [appended]
  intro same
  have lengths := congrArg List.length same
  simp at lengths

theorem data_eq_iff {datagram : Bytes} {address : Address} (isData : word 0 datagram = OPCODE_DATA)
    (long : ¬ datagram.length < 4) :
    left (client.datagramReceived settings datagram address) = client ↔
      client.heard address = client ∧ word 2 datagram ≠ client.currentBlock + 1 ∧
        (word 2 datagram = client.currentBlock →
          settings.sends (ackPacket client.currentBlock)
            (client.serverTid.getD settings.server) = false) := by
  simp only [Client.datagramReceived, if_neg long, isData, if_true, Client.handleDATA]
  split
  · next expected =>
    have taken := @takes_takeBlock settings (client.heard address) (word 2 datagram) (datagram.drop 4)
    refine iff_of_false ?_ fun unheeded => unheeded.2.1 expected
    intro same
    have block := taken.currentBlock
    rw [same, expected] at block
    exact absurd block (Nat.ne_of_lt (Nat.lt_succ_self _))
  · next unexpected =>
    split
    · next again =>
      have current : word 2 datagram = client.currentBlock := again
      by_cases sent : settings.sends (ackPacket (word 2 datagram))
          ((client.heard address).serverTid.getD settings.server) = true
      · refine iff_of_false ?_ ?_
        · intro same
          have longer := sendACK_ne _ sent
          rw [same] at longer
          exact longer rfl
        · rintro ⟨same, -, unsent⟩
          rw [same, current, unsent current] at sent
          cases sent
      · rw [Client.sendACK_of_not sent]
        refine (and_iff_left_of_imp fun same => ⟨unexpected, fun _ => ?_⟩).symm
        have heardSame : client.heard address = client := same
        rw [heardSame, current] at sent
        exact Bool.eq_false_of_not_eq_true sent
    · next other =>
      exact (and_iff_left ⟨unexpected, fun again => absurd again other⟩).symm

theorem error_eq_iff {datagram : Bytes} {address : Address}
    (isError : word 0 datagram = OPCODE_ERROR) (long : ¬ datagram.length < 4) :
    left (client.datagramReceived settings datagram address) = client ↔
      client.heard address = client ∧ datagram.length < 5 := by
  have notData : word 0 datagram ≠ OPCODE_DATA := by
    rw [isError]
    decide
  simp only [Client.datagramReceived, if_neg long, if_neg notData, if_pos isError,
    Client.handleERROR]
  split
  · next noText => exact (and_iff_left noText).symm
  · next text =>
    refine iff_of_false (fun same => ?_) fun both => text both.2
    have longer := @fire_ne (client.heard address).cancelTimeout (.failed (errorText datagram))
    rw [same] at longer
    exact longer rfl

theorem unheeded_iff (datagram : Bytes) (address : Address) :
    left (client.datagramReceived settings datagram address) = client ↔
      Unheeded settings client datagram := by
  rw [Unheeded]
  by_cases short : datagram.length < 4
  · rw [Client.datagramReceived, if_pos short]
    exact iff_of_true rfl (.inl short)
  · rw [or_iff_right short, ← heard_eq_iff address]
    by_cases isData : word 0 datagram = OPCODE_DATA
    · rw [data_eq_iff isData short]
      constructor
      · rintro ⟨same, passed⟩
        exact ⟨same, fun _ => passed, fun isError => absurd (isData.symm.trans isError) (by decide)⟩
      · rintro ⟨same, passed, -⟩
        exact ⟨same, passed isData⟩
    · by_cases isError : word 0 datagram = OPCODE_ERROR
      · rw [error_eq_iff isError short]
        constructor
        · rintro ⟨same, noText⟩
          exact ⟨same, fun data => absurd data isData, fun _ => noText⟩
        · rintro ⟨same, -, noText⟩
          exact ⟨same, noText isError⟩
      · simp only [Client.datagramReceived, if_neg short, if_neg isData, if_neg isError, left]
        exact (and_iff_left ⟨fun data => absurd data isData,
          fun error => absurd error isError⟩).symm

/-! ## The invariant -/

/-- The server is at most one block ahead of the client, and the artifact holds the blocks
that the client has taken. -/
structure Transfer.Follows (file : Bytes) (state : Transfer) : Prop where
  small : state.client.currentBlock ≤ 65535
  sending : state.sending ≤ state.client.currentBlock + 1
  acks : ∀ entry ∈ state.client.written, word 0 entry.1 = OPCODE_ACK →
    1 ≤ word 2 entry.1 ∧ word 2 entry.1 ≤ state.client.currentBlock
  waiting : state.client.fired = [] →
    state.client.artifact = file.take (TFTP_BLOCK_SIZE * state.client.currentBlock)
  complete : .complete ∈ state.client.fired → state.client.artifact = file
  size : state.client.artifact.length ≤ TFTP_BLOCK_SIZE * state.client.currentBlock

theorem ack_word {number current : Nat} (positive : 1 ≤ number) (atMost : number ≤ current)
    (small : current ≤ 65535) :
    1 ≤ word 2 (ackPacket number) ∧ word 2 (ackPacket number) ≤ current := by
  rw [word_ackPacket, Nat.mod_eq_of_lt (by omega)]
  exact ⟨positive, atMost⟩

theorem Transfer.Follows.resends {sent : Bytes → Prop} (follows : state.Follows file)
    (resends : state.client.Resends next sent)
    (known : ∀ packet, sent packet → word 0 packet = OPCODE_ACK →
      1 ≤ word 2 packet ∧ word 2 packet ≤ state.client.currentBlock) :
    ({ state with client := next } : Transfer).Follows file where
  small := resends.currentBlock ▸ follows.small
  sending := by
    rw [resends.currentBlock]
    exact follows.sending
  acks := by
    intro entry member isAck
    rw [resends.currentBlock]
    rcases resends.written entry member with before | now
    · exact follows.acks entry before isAck
    · exact known entry.1 now isAck
  waiting := by
    intro waiting
    rw [resends.artifact, resends.currentBlock]
    rcases resends.fired with same | ⟨before, -⟩
    · exact follows.waiting (same.symm.trans waiting)
    · exact follows.waiting before
  complete := by
    intro complete
    rw [resends.artifact]
    rcases resends.fired with same | ⟨-, incomplete⟩
    · exact follows.complete (same ▸ complete)
    · exact absurd complete incomplete
  size := by
    rw [resends.artifact, resends.currentBlock]
    exact follows.size

theorem Transfer.Follows.takes (follows : state.Follows file)
    (room : state.client.currentBlock + 1 ≤ 65535)
    (taken : state.client.Takes next (state.client.currentBlock + 1)
      (block file (state.client.currentBlock + 1))) :
    ({ state with client := next } : Transfer).Follows file where
  small := taken.currentBlock ▸ room
  sending := by
    rw [taken.currentBlock]
    exact Nat.le_succ_of_le follows.sending
  acks := by
    intro entry member isAck
    rw [taken.currentBlock]
    rcases taken.written entry member with before | now
    · have known := follows.acks entry before isAck
      exact ⟨known.1, Nat.le_succ_of_le known.2⟩
    · rw [now]
      exact ack_word (Nat.succ_pos _) (Nat.le_refl _) room
  waiting := by
    intro waiting
    by_cases before : state.client.fired = []
    · rw [taken.artifact before, taken.currentBlock, follows.waiting before, take_block]
    · exact absurd ((taken.closed before).2.symm.trans waiting) before
  complete := by
    intro complete
    by_cases before : state.client.fired = []
    · rcases taken.fired before with none_ | ⟨short, -⟩
      · rw [none_] at complete
        cases complete
      · rw [taken.artifact before, follows.waiting before, take_block, take_of_short short]
    · rw [(taken.closed before).1]
      exact follows.complete ((taken.closed before).2 ▸ complete)
  size := by
    have before := follows.size
    rw [taken.currentBlock, Nat.mul_succ]
    by_cases waiting : state.client.fired = []
    · rw [taken.artifact waiting, List.length_append]
      exact Nat.add_le_add before (List.length_take_le ..)
    · rw [(taken.closed waiting).1]
      exact Nat.le_add_right_of_le before

theorem Transfer.Follows.expected {number : Nat} (follows : state.Follows file)
    (sent : number ≤ state.sending)
    (expected : number % 65536 = state.client.currentBlock + 1) :
    number = state.client.currentBlock + 1 ∧ state.client.currentBlock + 1 ≤ 65535 := by
  have small := follows.small
  have sending := follows.sending
  omega

theorem Transfer.Follows.block {number : Nat} (follows : state.Follows file)
    (positive : 1 ≤ number) (sent : number ≤ state.sending)
    (taken : step settings state.client (.datagram (dataPacket file number) tid) = some next) :
    ({ state with client := next } : Transfer).Follows file := by
  obtain ⟨isData, isNumber, contents, long⟩ := word_dataPacket file number
  simp only [step] at taken
  split at taken
  · cases taken
  · obtain rfl := Option.some.inj taken
    rcases @data_cases settings state.client _ tid isData long with ⟨expected, takes⟩ | resends
    · rw [isNumber] at expected
      obtain ⟨numberEq, room⟩ := follows.expected sent expected
      rw [contents, numberEq] at takes
      rw [numberEq]
      exact follows.takes room takes
    · refine follows.resends resends ?_
      rintro packet ⟨again, rfl⟩ -
      rw [isNumber] at again
      have small := follows.small
      have sending := follows.sending
      exact ack_word (by omega) (Nat.le_refl _) small

theorem Transfer.Follows.timeout (follows : state.Follows file)
    (taken : step settings state.client .timeout = some next) :
    ({ state with client := next } : Transfer).Follows file := by
  simp only [step] at taken
  split at taken
  · next due =>
    obtain rfl := Option.some.inj taken
    refine follows.resends (resends_handleTimeout due.2) ?_
    rintro packet (rfl | ⟨onward, rfl⟩) isAck
    · exact absurd isAck (word_rrqPacket _)
    · exact ack_word (Nat.pos_of_ne_zero onward) (Nat.le_refl _) follows.small
  · cases taken

theorem Transfer.Follows.acknowledged {packet : Bytes} {address : Address}
    (follows : state.Follows file) (sent : (packet, address) ∈ state.client.written)
    (isAck : word 0 packet = OPCODE_ACK) :
    ({ state with sending := acknowledge file (word 2 packet) state.sending } : Transfer).Follows
      file := by
  refine { follows with sending := ?_ }
  have known : 1 ≤ word 2 packet ∧ word 2 packet ≤ state.client.currentBlock :=
    follows.acks _ sent isAck
  have small := follows.small
  have sending := follows.sending
  simp only [acknowledge]
  split
  · omega
  · exact sending

/-- A datagram of somebody else is one that changes nothing. -/
def StrayUnheeded (settings : Settings) (state : Transfer) : NetworkEvent → Prop
  | .other datagram _ => Unheeded settings state.client datagram
  | _ => True

theorem Transfer.Follows.step {event : NetworkEvent} (follows : state.Follows file)
    (unheeded : StrayUnheeded settings state event)
    (taken : transferStep settings tid file state event = some later) : later.Follows file := by
  cases event with
  | request =>
      simp only [transferStep] at taken
      split at taken
      · obtain rfl := Option.some.inj taken
        exact { follows with sending := Nat.succ_le_succ (Nat.zero_le _) }
      · cases taken
  | ack packet =>
      simp only [transferStep] at taken
      split at taken
      · next sent =>
        obtain rfl := Option.some.inj taken
        exact follows.acknowledged sent.1 sent.2
      · cases taken
  | block number =>
      simp only [transferStep] at taken
      split at taken
      · next sent =>
        obtain ⟨next, stepped, rfl⟩ := Option.map_eq_some_iff.mp taken
        exact follows.block sent.1 sent.2 stepped
      · cases taken
  | other datagram address =>
      simp only [transferStep] at taken
      split at taken
      · obtain ⟨next, stepped, rfl⟩ := Option.map_eq_some_iff.mp taken
        simp only [Tftp.step] at stepped
        split at stepped
        · cases stepped
        · obtain rfl := Option.some.inj stepped
          rw [(unheeded_iff datagram address).mpr unheeded]
          exact follows
      · cases taken
  | timeout =>
      obtain ⟨next, stepped, rfl⟩ := Option.map_eq_some_iff.mp taken
      exact follows.timeout stepped
  | stop =>
      obtain ⟨next, stepped, rfl⟩ := Option.map_eq_some_iff.mp taken
      simp only [Tftp.step] at stepped
      split at stepped
      · obtain rfl := Option.some.inj stepped
        exact { follows with }
      · cases stepped

theorem follows_opening (settings : Settings) (file : Bytes) : (opening settings).Follows file := by
  have fresh : ({ client := {} } : Transfer).Follows file :=
    { small := Nat.zero_le _
      sending := Nat.zero_le _
      acks := fun _ member => nomatch member
      waiting := fun _ => rfl
      complete := fun complete => nomatch complete
      size := Nat.zero_le _ }
  refine fresh.resends resends_sendRRQ ?_
  rintro packet rfl isAck
  exact absurd isAck (word_rrqPacket _)

/-! ## Whole transfers -/

theorem follows_run {events : List NetworkEvent} {final : Transfer}
    (along : Along (transferStep settings tid file)
      (fun state event => (transferStep settings tid file state event).isSome →
        StrayUnheeded settings state event) (opening settings) events)
    (ran : run (transferStep settings tid file) (opening settings) events = some final) :
    final.Follows file := by
  refine run_invariant_along (Transfer.Follows file) ?_ (follows_opening settings file) along ran
  intro state event next _ follows unheeded taken
  exact follows.step (unheeded (by rw [taken]; rfl)) taken

def StraysIneffective (settings : Settings) (tid : Address) (file : Bytes)
    (events : List NetworkEvent) : Prop :=
  Along (transferStep settings tid file)
    (fun state event => ∀ datagram address, event = .other datagram address →
      ∀ later, transferStep settings tid file state event = some later → later = state)
    (opening settings) events

/-- The strays have no effect, and a transfer that completes gives the file. -/
def Correct (settings : Settings) (tid : Address) (file : Bytes) (events : List NetworkEvent) :
    Prop :=
  StraysIneffective settings tid file events ∧
    ∀ final, run (transferStep settings tid file) (opening settings) events = some final →
      .complete ∈ final.client.fired → final.client.artifact = file

theorem ineffective_iff {datagram : Bytes} {address : Address} :
    (∀ later, transferStep settings tid file state (.other datagram address) = some later →
        later = state) ↔
      ((transferStep settings tid file state (.other datagram address)).isSome →
        Unheeded settings state.client datagram) := by
  simp only [transferStep, step, ← unheeded_iff datagram address]
  split
  · split
    · simp
    · obtain ⟨client, sending⟩ := state
      simp
  · simp

theorem transfer_correct_iff (settings : Settings) (tid : Address) (file : Bytes)
    (events : List NetworkEvent) :
    Correct settings tid file events ↔
      Along (transferStep settings tid file)
        (fun state event => (transferStep settings tid file state event).isSome →
          StrayUnheeded settings state event)
        (opening settings) events := by
  have strays : StraysIneffective settings tid file events ↔
      Along (transferStep settings tid file)
        (fun state event => (transferStep settings tid file state event).isSome →
          StrayUnheeded settings state event)
        (opening settings) events := by
    apply along_congr (fun _ => True) (fun _ _ => trivial) ?_ trivial
    intro state event _
    cases event with
    | other datagram address =>
        refine Iff.trans ?_ (@ineffective_iff settings tid file state datagram address)
        constructor
        · intro same
          exact same datagram address rfl
        · rintro same _ _ ⟨⟩
          exact same
    | request | ack | block | timeout | stop =>
        exact iff_of_true (fun _ _ isOther => nomatch isOther) fun _ => trivial
  rw [Correct, strays]
  exact and_iff_left_of_imp fun along _ ran => (follows_run along ran).complete

/-- A block of somebody else is written to the artifact and ends the transfer. -/
theorem stray_block_taken :
    ¬ ∀ settings tid file events, Correct settings tid file events := by
  intro all
  have correct := all .plain ⟨"192.0.2.1".toList, 2000⟩ [7]
    [.other [0, 3, 0, 1, 9] ⟨"192.0.2.9".toList, 2000⟩]
  have written := correct.2 _ rfl (by decide)
  revert written
  decide

end Tftp

end LlmHoneypot
