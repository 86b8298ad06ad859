import LlmHoneypot.Foundation.Decimal

/-! # The TCP tunnel of a forwarded connection

`TCPTunnelForwardingChannel`: what the proxy sends back goes to the SSH client, without the
response to the CONNECT request in front of it. -/

namespace LlmHoneypot

namespace Ssh

open Decimal (isDigit)

def SP : UInt8 := 32
def CR : UInt8 := 13
def LF : UInt8 := 10

def isSpace (byte : UInt8) : Bool := byte = SP || (9 ≤ byte && byte ≤ 13)

def digitsFrom (value : Nat) : Bytes → Option Nat
  | [] => some value
  | byte :: rest =>
      if isDigit byte then digitsFrom (value * 10 + (byte.toNat - 48)) rest
      else if byte = 95 then
        if rest.head?.any isDigit then digitsFrom value rest else none
      else if (byte :: rest).all isSpace then some value
      else none

def unsigned (text : Bytes) : Option Int :=
  if text.head?.any isDigit then (digitsFrom 0 text).map Int.ofNat else none

/-- `int(text, 10)` of a byte string, `none` for its `ValueError`. -/
def int (text : Bytes) : Option Int :=
  let body := text.dropWhile isSpace
  if 4300 < (text.filter isDigit).length then none
  else if body.head? = some 43 then unsigned (body.drop 1)
  else if body.head? = some 45 then (unsigned (body.drop 1)).map (-·)
  else unsigned body

/-- What follows the first empty line, `data[data.find(b"\r\n\r\n") + 4:]` where there is
one. -/
def afterHeader : Bytes → Option Bytes
  | [] => none
  | byte :: rest =>
      if [CR, LF, CR, LF].isPrefixOf (byte :: rest) then some (rest.drop 3) else afterHeader rest

def lower (byte : UInt8) : UInt8 := if 65 ≤ byte && byte ≤ 90 then byte + 32 else byte

def HTTP : Bytes := [104, 116, 116, 112]

/-- `data.split(b" ")[1]`, `none` for its `IndexError`. -/
def secondWord (data : Bytes) : Option Bytes :=
  if SP ∈ data then some (((data.dropWhile (· ≠ SP)).drop 1).takeWhile (· ≠ SP)) else none

structure TunnelChannel where
  tunnelEstablished : Bool := false
  /-- `loseConnection` was called: the channel sends nothing any more. -/
  closed : Bool := false
  /-- An exception has ended the connection to the proxy. -/
  lost : Bool := false
  /-- The number of bytes that came from the proxy. -/
  received : Nat := 0
  /-- What was sent to the SSH client, each byte with its place in what came. -/
  forwarded : List (UInt8 × Nat) := []
  deriving DecidableEq, Repr

namespace TunnelChannel

variable (channel : TunnelChannel)

def close : TunnelChannel := { channel with closed := true }

def send (place : Nat) (data : Bytes) : TunnelChannel :=
  if channel.closed then channel
  else { channel with forwarded := channel.forwarded ++ data.zipIdx place }

def establish (data : Bytes) : TunnelChannel :=
  let kept := (afterHeader data).getD data
  { channel with tunnelEstablished := true }.send
    (channel.received + (data.length - kept.length)) kept

def write (data : Bytes) : TunnelChannel :=
  if !channel.tunnelEstablished && (data.take 4).map lower = HTTP then
    match secondWord data with
    | none => { channel with lost := true }
    | some word =>
        match int word with
        | none => channel.close
        | some resCode =>
            let channel := if resCode ≠ 200 then channel.close else channel
            channel.establish data
  else channel.send channel.received data

def dataReceived (data : Bytes) : TunnelChannel :=
  if channel.lost then channel
  else { channel.write data with received := channel.received + data.length }

end TunnelChannel

def tunnel (chunks : List Bytes) : TunnelChannel := chunks.foldl TunnelChannel.dataReceived {}

/-! ## Headers -/

/-- `HTTP/` and a version, then the three digits of the status code and the rest up to the
first empty line. -/
structure ResponseHeader where
  version : Bytes
  code : Bytes
  rest : Bytes
  version_word : SP ∉ version
  code_digits : code.length = 3 ∧ code.all isDigit = true
  code_apart : rest.head? = some SP ∨ rest.head? = some CR
  ends : afterHeader (([72, 84, 84, 80, 47] ++ version ++ [SP] ++ code) ++ rest) = some []

namespace ResponseHeader

variable (header : ResponseHeader)

def protocol : Bytes := [72, 84, 84, 80, 47] ++ header.version

def line : Bytes := header.protocol ++ [SP] ++ header.code

def text : Bytes := header.line ++ header.rest

def status : Nat := header.code.foldl (fun value byte => value * 10 + (byte.toNat - 48)) 0

def ReadIn (chunk : Bytes) : Prop :=
  header.line.length ≤ chunk.length ∧
    ((chunk.drop header.line.length).takeWhile (· ≠ SP)).all isSpace = true

instance (chunk : Bytes) : Decidable (header.ReadIn chunk) :=
  inferInstanceAs (Decidable (_ ∧ _))

end ResponseHeader

def firstChunk (chunks : List Bytes) : Bytes := (chunks.filter (· ≠ [])).headD []

/-- When the response is stripped: the first chunk has four bytes, and of a tunnel that is
granted it holds the whole header with a status code that is read, or the code is not read
and there is no stream. -/
def Strips (header : ResponseHeader) (stream : Bytes) (chunks : List Bytes) : Prop :=
  4 ≤ (firstChunk chunks).length ∧
    (header.status = 200 →
      header.ReadIn (firstChunk chunks) ∧ header.text.length ≤ (firstChunk chunks).length ∨
        ¬ header.ReadIn (firstChunk chunks) ∧ stream = [])

/-- The SSH client gets the stream, each byte once and in order, and nothing where the
tunnel is not granted. -/
def Forwards (header : ResponseHeader) (stream : Bytes) (chunks : List Bytes) : Prop :=
  (tunnel chunks).forwarded =
    if header.status = 200 then stream.zipIdx header.text.length else []

/-! ## The end of the header -/

theorem length_of_afterHeader {data after : Bytes} (found : afterHeader data = some after) :
    4 ≤ data.length := by
  induction data with
  | nil => cases found
  | cons byte rest induction =>
      rw [afterHeader] at found
      split at found
      · next isPrefix => exact (List.isPrefixOf_iff_prefix.mp isPrefix).length_le
      · exact Nat.le_succ_of_le (induction found)

theorem afterHeader_append {data after : Bytes} (more : Bytes)
    (found : afterHeader data = some after) : afterHeader (data ++ more) = some (after ++ more) := by
  induction data with
  | nil => cases found
  | cons byte rest induction =>
      rw [List.cons_append, afterHeader]
      rw [afterHeader] at found
      split at found
      · next isPrefix =>
        obtain rfl := Option.some.inj found
        have longer : [CR, LF, CR, LF] <+: byte :: (rest ++ more) :=
          (List.isPrefixOf_iff_prefix.mp isPrefix).trans (List.prefix_append (byte :: rest) more)
        have enough : 4 ≤ (byte :: rest).length :=
          (List.isPrefixOf_iff_prefix.mp isPrefix).length_le
        rw [if_pos (List.isPrefixOf_iff_prefix.mpr longer),
          List.drop_append_of_le_length (Nat.le_of_succ_le_succ enough)]
      · next noPrefix =>
        rw [if_neg, induction found]
        intro isPrefix
        have enough : 4 ≤ (byte :: rest).length := Nat.le_succ_of_le (length_of_afterHeader found)
        have already : [CR, LF, CR, LF] <+: byte :: rest :=
          List.prefix_of_prefix_length_le (List.isPrefixOf_iff_prefix.mp isPrefix)
            (List.prefix_append (byte :: rest) more) enough
        exact noPrefix (List.isPrefixOf_iff_prefix.mpr already)

theorem ResponseHeader.afterHeader_chunk (header : ResponseHeader) {stream chunk : Bytes}
    (isChunk : chunk <+: header.text ++ stream) :
    afterHeader chunk =
      if header.text.length ≤ chunk.length then some (chunk.drop header.text.length) else none := by
  have ends : afterHeader header.text = some [] := header.ends
  split
  · next holds =>
    obtain ⟨more, rfl⟩ : header.text <+: chunk :=
      List.prefix_of_prefix_length_le (List.prefix_append ..) isChunk holds
    rw [afterHeader_append more ends, List.nil_append, List.drop_left]
  · next short =>
    obtain ⟨missing, split⟩ : chunk <+: header.text :=
      List.prefix_of_prefix_length_le isChunk (List.prefix_append ..) (Nat.le_of_not_le short)
    cases found : afterHeader chunk with
    | none => rfl
    | some after =>
        have whole := afterHeader_append missing found
        rw [split, ends, Option.some.injEq, eq_comm, List.append_eq_nil_iff] at whole
        rw [← split, whole.2, List.append_nil] at short
        exact absurd (Nat.le_refl _) short

/-! ## Reading the status code -/

theorem secondWord_append {before : Bytes} (free : SP ∉ before) (tail : Bytes) :
    secondWord (before ++ [SP] ++ tail) = some (tail.takeWhile (· ≠ SP)) := by
  have dropped : (before ++ [SP] ++ tail).dropWhile (· ≠ SP) = SP :: tail := by
    rw [List.append_assoc, List.dropWhile_append_of_pos]
    · rfl
    · intro byte member
      exact decide_eq_true fun equal => free (equal ▸ member)
  rw [secondWord, dropped, if_pos (by simp)]
  rfl

theorem secondWord_free {data : Bytes} (free : SP ∉ data) : secondWord data = none := if_neg free

theorem digit_cases {byte : UInt8} (digit : isDigit byte = true) :
    isSpace byte = false ∧ byte ≠ SP ∧ byte ≠ 43 ∧ byte ≠ 45 ∧ byte.toNat - 48 < 10 := by
  have bounds : 48 ≤ byte.toNat ∧ byte.toNat ≤ 57 := by
    simpa [isDigit, UInt8.le_iff_toNat_le] using digit
  have apart (other : UInt8) (differs : other.toNat < 48) : byte ≠ other := by
    rintro rfl
    omega
  refine ⟨?_, apart SP (by decide), apart 43 (by decide), apart 45 (by decide), by omega⟩
  have high : ¬ byte ≤ 13 := by
    rw [UInt8.le_iff_toNat_le]
    exact Nat.not_le.mpr (Nat.lt_of_lt_of_le (by decide) bounds.1)
  simp [isSpace, apart SP (by decide), high]

theorem unsigned_digits {first : UInt8} {rest : Bytes} (digit : isDigit first = true) :
    unsigned (first :: rest) = (digitsFrom (first.toNat - 48) rest).map Int.ofNat := by
  rw [unsigned, List.head?_cons, Option.any_some, if_pos digit, digitsFrom, if_pos digit]
  simp

theorem int_digit {first : UInt8} {rest : Bytes} (digit : isDigit first = true) :
    int (first :: rest) =
      if 4300 < ((first :: rest).filter isDigit).length then none
      else (digitsFrom (first.toNat - 48) rest).map Int.ofNat := by
  obtain ⟨noSpace, -, noPlus, noMinus, -⟩ := digit_cases digit
  have body : (first :: rest).dropWhile isSpace = first :: rest := by
    rw [List.dropWhile_cons, noSpace]
    rfl
  simp only [int, body, List.head?_cons, Option.some.injEq, noPlus, noMinus, if_false,
    unsigned_digits digit]

theorem digitsFrom_digit {value : Nat} {byte : UInt8} {rest : Bytes} (digit : isDigit byte = true) :
    digitsFrom value (byte :: rest) = digitsFrom (value * 10 + (byte.toNat - 48)) rest := by
  rw [digitsFrom, if_pos digit]

theorem digitsFrom_end {value : Nat} {rest : Bytes} (apart : ∀ byte ∈ rest.head?, byte = CR) :
    digitsFrom value rest = if rest.all isSpace then some value else none := by
  cases rest with
  | nil => rfl
  | cons byte rest =>
      obtain rfl := apart byte rfl
      rw [digitsFrom, if_neg (by decide), if_neg (by decide)]

theorem int_code {first second third : UInt8} {rest : Bytes}
    (digits : [first, second, third].all isDigit = true) (apart : ∀ byte ∈ rest.head?, byte = CR)
    (number : Int) :
    int (first :: second :: third :: rest) = some number ↔
      number = Int.ofNat (((first.toNat - 48) * 10 + (second.toNat - 48)) * 10 + (third.toNat - 48)) ∧
        rest.all isSpace = true := by
  simp only [List.all_cons, List.all_nil, Bool.and_true, Bool.and_eq_true] at digits
  obtain ⟨isFirst, isSecond, isThird⟩ := digits
  rw [int_digit isFirst, digitsFrom_digit isSecond, digitsFrom_digit isThird, digitsFrom_end apart]
  by_cases spaces : rest.all isSpace = true
  · have noDigits : rest.filter isDigit = [] := by
      rw [List.filter_eq_nil_iff]
      intro byte member isDigit_
      have isSpace_ := List.all_eq_true.mp spaces byte member
      rw [(digit_cases isDigit_).1] at isSpace_
      cases isSpace_
    have few : ¬ 4300 < ((first :: second :: third :: rest).filter isDigit).length := by
      simp [isFirst, isSecond, isThird, noDigits]
    rw [if_neg few, if_pos spaces, Option.map_some, Option.some.injEq, and_iff_left spaces, eq_comm]
  · rw [if_neg spaces, Option.map_none, ite_self]
    exact iff_of_false (fun none_ => nomatch none_) fun both => spaces both.2

theorem int_short {code : Bytes} (digits : code.all isDigit = true) (short : code.length < 3) :
    int code ≠ some 200 := by
  match code, digits, short with
  | [], _, _ => decide
  | [first], digits, _ =>
      have isFirst : isDigit first = true := by simpa using digits
      rw [int_digit isFirst, digitsFrom_end (by simp)]
      have small := (digit_cases isFirst).2.2.2.2
      simp [isFirst]
      omega
  | [first, second], digits, _ =>
      have both : isDigit first = true ∧ isDigit second = true := by simpa using digits
      rw [int_digit both.1, digitsFrom_digit both.2, digitsFrom_end (by simp)]
      have small := (digit_cases both.1).2.2.2.2
      have smaller := (digit_cases both.2).2.2.2.2
      simp [both.1, both.2]
      omega

theorem head_takeWhile_of_prefix {rest stream after : Bytes}
    (apart : rest.head? = some SP ∨ rest.head? = some CR) (isPrefix : after <+: rest ++ stream) :
    ∀ byte ∈ (after.takeWhile (· ≠ SP)).head?, byte = CR := by
  cases after with
  | nil => simp
  | cons head tail =>
      cases rest with
      | nil => simp at apart
      | cons first rest =>
          obtain ⟨rfl, -⟩ := List.cons_prefix_cons.mp isPrefix
          simp only [List.head?_cons, Option.some.injEq] at apart
          rcases apart with rfl | rfl
          · simp
          · simp [CR, SP]

namespace ResponseHeader

variable {header : ResponseHeader} {stream chunk : Bytes}

theorem sp_notMem_protocol (header : ResponseHeader) : SP ∉ header.protocol := by
  rw [protocol, List.mem_append, not_or]
  exact ⟨by decide, header.version_word⟩

theorem code_eq (header : ResponseHeader) :
    ∃ first second third, header.code = [first, second, third] :=
  List.length_eq_three.mp header.code_digits.1

theorem status_eq {first second third : UInt8} (isCode : header.code = [first, second, third]) :
    header.status =
      ((first.toNat - 48) * 10 + (second.toNat - 48)) * 10 + (third.toNat - 48) := by
  rw [status, isCode]
  simp

theorem chunk_cases (isChunk : chunk <+: header.text ++ stream) :
    SP ∉ chunk ∧ chunk.length < header.line.length ∨
      ∃ tail, chunk = header.protocol ++ [SP] ++ tail ∧
        tail <+: header.code ++ (header.rest ++ stream) := by
  have whole : header.text ++ stream =
      header.protocol ++ ([SP] ++ (header.code ++ (header.rest ++ stream))) := by
    simp [text, line]
  rw [whole] at isChunk
  rcases Nat.lt_or_ge header.protocol.length chunk.length with longer | atMost
  · obtain ⟨behind, rfl⟩ : header.protocol <+: chunk :=
      List.prefix_of_prefix_length_le (List.prefix_append ..) isChunk (Nat.le_of_lt longer)
    rw [List.prefix_append_right_inj] at isChunk
    cases behind with
    | nil => simp at longer
    | cons byte tail =>
        obtain ⟨rfl, isTail⟩ := List.cons_prefix_cons.mp isChunk
        exact .inr ⟨tail, by simp, isTail⟩
  · refine .inl ⟨fun member => ?_, ?_⟩
    · have inside : chunk <+: header.protocol :=
        List.prefix_of_prefix_length_le isChunk (List.prefix_append ..) atMost
      exact header.sp_notMem_protocol (inside.subset member)
    · simp only [line, List.length_append, List.length_singleton]
      omega

theorem reads_iff (isChunk : chunk <+: header.text ++ stream) :
    (∃ word, secondWord chunk = some word ∧ int word = some 200) ↔
      header.status = 200 ∧ header.ReadIn chunk := by
  rcases chunk_cases isChunk with ⟨free, short⟩ | ⟨tail, rfl, isTail⟩
  · rw [secondWord_free free]
    refine iff_of_false ?_ fun both => absurd both.2.1 (Nat.not_le.mpr short)
    rintro ⟨word, none_, -⟩
    cases none_
  · rw [secondWord_append header.sp_notMem_protocol]
    simp only [Option.some.injEq, exists_eq_left']
    rcases Nat.lt_or_ge tail.length header.code.length with short | enough
    · have inside : tail <+: header.code :=
        List.prefix_of_prefix_length_le isTail (List.prefix_append ..) (Nat.le_of_lt short)
      have digits : tail.all isDigit = true := by
        rw [List.all_eq_true]
        intro byte member
        exact List.all_eq_true.mp header.code_digits.2 byte (inside.subset member)
      have noSpace : tail.takeWhile (· ≠ SP) = tail := by
        rw [List.takeWhile_eq_self_iff]
        intro byte member
        exact decide_eq_true (digit_cases (List.all_eq_true.mp digits byte member)).2.1
      rw [noSpace]
      refine iff_of_false (int_short digits (header.code_digits.1 ▸ short)) fun both => ?_
      have holds := both.2.1
      simp only [line, List.length_append] at holds
      omega
    · obtain ⟨after, rfl⟩ : header.code <+: tail :=
        List.prefix_of_prefix_length_le (List.prefix_append ..) isTail enough
      rw [List.prefix_append_right_inj] at isTail
      obtain ⟨first, second, third, isCode⟩ := header.code_eq
      have digits := header.code_digits.2
      have apart : ∀ byte ∈ (after.takeWhile (· ≠ SP)).head?, byte = CR :=
        head_takeWhile_of_prefix header.code_apart isTail
      have line : header.line.length ≤ (header.protocol ++ [SP] ++ (header.code ++ after)).length := by
        simp [ResponseHeader.line]
      have behind : (header.protocol ++ [SP] ++ (header.code ++ after)).drop header.line.length =
          after := by
        rw [← List.append_assoc]
        exact List.drop_left' rfl
      rw [ReadIn, behind, and_iff_right line, header.status_eq isCode]
      rw [isCode] at digits ⊢
      have noSpace : ([first, second, third] ++ after).takeWhile (· ≠ SP) =
          first :: second :: third :: after.takeWhile (· ≠ SP) := by
        simp only [List.all_cons, List.all_nil, Bool.and_true, Bool.and_eq_true] at digits
        simp [digit_cases digits.1, digit_cases digits.2.1, digit_cases digits.2.2]
      rw [noSpace, int_code digits apart]
      refine and_congr_left fun _ => ?_
      constructor
      · intro equal
        exact (Int.ofNat.inj equal).symm
      · intro equal
        rw [equal]
        rfl

theorem take_http (isChunk : chunk <+: header.text ++ stream) (enough : 4 ≤ chunk.length) :
    (chunk.take 4).map lower = HTTP := by
  obtain ⟨more, whole⟩ := isChunk
  have taken : chunk.take 4 = (header.text ++ stream).take 4 := by
    rw [← whole, List.take_append_of_le_length enough]
  rw [taken]
  simp [text, line, protocol, lower, HTTP]

end ResponseHeader

/-! ## Chunks -/

namespace TunnelChannel

variable {channel : TunnelChannel} {data : Bytes}

theorem dataReceived_nil (channel : TunnelChannel) : channel.dataReceived [] = channel := by
  have noHttp : ¬ (!channel.tunnelEstablished && decide ((([] : Bytes).take 4).map lower = HTTP)) = true := by
    simp [HTTP]
  rw [dataReceived]
  split
  · rfl
  · rw [write, if_neg noHttp, send]
    split
    · rfl
    · simp

theorem grows_send (place : Nat) (data : Bytes) :
    ∃ more, (channel.send place data).forwarded = channel.forwarded ++ more := by
  rw [send]
  split
  · exact ⟨[], (List.append_nil _).symm⟩
  · exact ⟨_, rfl⟩

theorem grows_write (data : Bytes) :
    ∃ more, (channel.write data).forwarded = channel.forwarded ++ more := by
  have same : ∃ more, channel.forwarded = channel.forwarded ++ more := ⟨[], (List.append_nil _).symm⟩
  rw [write]
  split
  · split
    · exact same
    · split
      · exact same
      · split
        · exact @grows_send { channel.close with tunnelEstablished := true } _ _
        · exact @grows_send { channel with tunnelEstablished := true } _ _
  · exact grows_send ..

theorem grows_dataReceived (data : Bytes) :
    ∃ more, (channel.dataReceived data).forwarded = channel.forwarded ++ more := by
  rw [dataReceived]
  split
  · exact ⟨[], (List.append_nil _).symm⟩
  · exact grows_write data

theorem grows_chunks (chunks : List Bytes) (channel : TunnelChannel) :
    ∃ more, (chunks.foldl dataReceived channel).forwarded = channel.forwarded ++ more := by
  induction chunks generalizing channel with
  | nil => exact ⟨[], (List.append_nil _).symm⟩
  | cons data chunks induction =>
      obtain ⟨first, firstEq⟩ := @grows_dataReceived channel data
      obtain ⟨more, moreEq⟩ := induction (channel.dataReceived data)
      exact ⟨first ++ more, by rw [List.foldl_cons, moreEq, firstEq, List.append_assoc]⟩

def Ended (channel : TunnelChannel) : Prop := channel.closed = true ∨ channel.lost = true

theorem send_of_closed (closed : channel.closed = true) (place : Nat) (data : Bytes) :
    channel.send place data = channel := if_pos closed

theorem ended_dataReceived (ended : channel.Ended) (data : Bytes) :
    (channel.dataReceived data).Ended ∧
      (channel.dataReceived data).forwarded = channel.forwarded := by
  rw [dataReceived]
  split
  · exact ⟨ended, rfl⟩
  · next present =>
    have closed : channel.closed = true := ended.resolve_right present
    rw [write]
    split
    · split
      · exact ⟨.inr rfl, rfl⟩
      · split
        · exact ⟨.inl rfl, rfl⟩
        · split
          · exact ⟨.inl rfl, rfl⟩
          · simp only [establish]
            rw [@send_of_closed { channel with tunnelEstablished := true } closed]
            exact ⟨.inl closed, rfl⟩
    · rw [send_of_closed closed]
      exact ⟨.inl closed, rfl⟩

theorem ended_chunks (chunks : List Bytes) {channel : TunnelChannel} (ended : channel.Ended) :
    (chunks.foldl dataReceived channel).forwarded = channel.forwarded := by
  induction chunks generalizing channel with
  | nil => rfl
  | cons data chunks induction =>
      have once := ended_dataReceived ended data
      exact (induction once.1).trans once.2

structure Open (channel : TunnelChannel) : Prop where
  established : channel.tunnelEstablished = true
  unclosed : channel.closed = false
  present : channel.lost = false

theorem Open.dataReceived_eq (isOpen : channel.Open) (data : Bytes) :
    channel.dataReceived data =
      { channel with
        received := channel.received + data.length
        forwarded := channel.forwarded ++ data.zipIdx channel.received } := by
  simp [dataReceived, write, send, isOpen.established, isOpen.unclosed, isOpen.present]

theorem Open.chunks (chunks : List Bytes) {channel : TunnelChannel} (isOpen : channel.Open) :
    (chunks.foldl TunnelChannel.dataReceived channel).forwarded =
      channel.forwarded ++ chunks.flatten.zipIdx channel.received := by
  induction chunks generalizing channel with
  | nil => simp
  | cons data chunks induction =>
      have still : (channel.dataReceived data).Open := by
        rw [isOpen.dataReceived_eq]
        exact ⟨isOpen.established, isOpen.unclosed, isOpen.present⟩
      rw [List.foldl_cons, induction still, isOpen.dataReceived_eq, List.flatten_cons,
        List.zipIdx_append, List.append_assoc, Nat.add_comm]

end TunnelChannel

/-! ## The first chunk -/

open TunnelChannel

theorem tunnel_filter (chunks : List Bytes) : tunnel chunks = tunnel (chunks.filter (· ≠ [])) := by
  rw [tunnel, tunnel]
  generalize ({} : TunnelChannel) = channel
  induction chunks generalizing channel with
  | nil => rfl
  | cons data chunks induction =>
      by_cases isEmpty : data = []
      · rw [isEmpty, List.foldl_cons, dataReceived_nil, induction]
        rfl
      · have kept : (data :: chunks).filter (· ≠ []) = data :: chunks.filter (· ≠ []) :=
          List.filter_cons_of_pos (by simpa using isEmpty)
        rw [kept, List.foldl_cons, List.foldl_cons, induction]

variable {header : ResponseHeader} {stream chunk : Bytes}

inductive First (header : ResponseHeader) (chunk : Bytes) (next : TunnelChannel) : Prop
  | sent (short : chunk.length < 4) (forwarded : next.forwarded = chunk.zipIdx)
  | established (enough : 4 ≤ chunk.length) (granted : header.status = 200)
      (read : header.ReadIn chunk) (isOpen : next.Open) (received : next.received = chunk.length)
      (forwarded : next.forwarded =
        if header.text.length ≤ chunk.length then
          (chunk.drop header.text.length).zipIdx header.text.length
        else chunk.zipIdx)
  | ended (enough : 4 ≤ chunk.length) (unread : ¬ (header.status = 200 ∧ header.ReadIn chunk))
      (ended : next.Ended) (nothing : next.forwarded = [])

def answered (chunk : Bytes) : TunnelChannel :=
  match secondWord chunk with
  | none => ({ lost := true } : TunnelChannel)
  | some word =>
      match int word with
      | none => ({} : TunnelChannel).close
      | some resCode =>
          (if resCode ≠ 200 then ({} : TunnelChannel).close else {}).establish chunk

theorem first_http (http : (chunk.take 4).map lower = HTTP) :
    ({} : TunnelChannel).dataReceived chunk =
      { answered chunk with received := 0 + chunk.length } := by
  have isHttp : (!({} : TunnelChannel).tunnelEstablished &&
      decide ((chunk.take 4).map lower = HTTP)) = true := by simp [http]
  have present : ¬ ({} : TunnelChannel).lost = true := Bool.false_ne_true
  rw [dataReceived, if_neg present, write, if_pos isHttp]
  rfl

theorem establish_forwarded (isChunk : chunk <+: header.text ++ stream) :
    (({} : TunnelChannel).establish chunk).forwarded =
      if header.text.length ≤ chunk.length then
        (chunk.drop header.text.length).zipIdx header.text.length
      else chunk.zipIdx := by
  have opened : ¬ ({ tunnelEstablished := true } : TunnelChannel).closed = true :=
    Bool.false_ne_true
  rw [establish, send, if_neg opened, header.afterHeader_chunk isChunk]
  by_cases whole : header.text.length ≤ chunk.length
  · rw [if_pos whole, if_pos whole]
    simp [Nat.sub_sub_self whole]
  · rw [if_neg whole, if_neg whole]
    simp

theorem first_established (isChunk : chunk <+: header.text ++ stream) (enough : 4 ≤ chunk.length)
    {word : Bytes} (isWord : secondWord chunk = some word) (read : int word = some 200)
    (holds : header.status = 200 ∧ header.ReadIn chunk) :
    First header chunk (({} : TunnelChannel).dataReceived chunk) := by
  have granted : answered chunk = ({} : TunnelChannel).establish chunk := by
    simp [answered, isWord, read]
  rw [first_http (ResponseHeader.take_http isChunk enough), granted]
  have isOpen : (({} : TunnelChannel).establish chunk).Open := ⟨rfl, rfl, rfl⟩
  exact .established enough holds.1 holds.2 ⟨isOpen.established, isOpen.unclosed, isOpen.present⟩
    (Nat.zero_add _) (establish_forwarded isChunk)

theorem ended_answered (unread : ∀ word, secondWord chunk = some word → int word ≠ some 200) :
    (answered chunk).Ended ∧ (answered chunk).forwarded = [] := by
  cases isWord : secondWord chunk with
  | none =>
      have noWord : answered chunk = { lost := true } := by rw [answered, isWord]
      rw [noWord]
      exact ⟨.inr rfl, rfl⟩
  | some word =>
      cases code : int word with
      | none =>
          have unparsed : answered chunk = ({} : TunnelChannel).close := by
            simp only [answered, isWord, code]
          rw [unparsed]
          exact ⟨.inl rfl, rfl⟩
      | some resCode =>
          have other : resCode ≠ 200 := fun equal => unread word isWord (equal ▸ code)
          have refused : answered chunk = ({} : TunnelChannel).close.establish chunk := by
            simp only [answered, isWord, code, if_pos other]
          rw [refused]
          exact ⟨.inl rfl, rfl⟩

theorem first_chunk (isChunk : chunk <+: header.text ++ stream) :
    First header chunk (({} : TunnelChannel).dataReceived chunk) := by
  rcases Nat.lt_or_ge chunk.length 4 with short | enough
  · have noHttp : ¬ (!({} : TunnelChannel).tunnelEstablished &&
        decide ((chunk.take 4).map lower = HTTP)) = true := by
      simp only [Bool.not_false, Bool.true_and, decide_eq_true_eq]
      intro equal
      have lengths := congrArg List.length equal
      rw [List.length_map, List.length_take, HTTP] at lengths
      simp only [List.length_cons, List.length_nil] at lengths
      omega
    have present : ¬ ({} : TunnelChannel).lost = true := Bool.false_ne_true
    refine .sent short ?_
    rw [dataReceived, if_neg present, write, if_neg noHttp]
    rfl
  · have reads := ResponseHeader.reads_iff isChunk
    by_cases read : ∃ word, secondWord chunk = some word ∧ int word = some 200
    · obtain ⟨word, isWord, code⟩ := read
      exact first_established isChunk enough isWord code (reads.mp ⟨word, isWord, code⟩)
    · have answer := @ended_answered chunk fun word isWord code => read ⟨word, isWord, code⟩
      rw [first_http (ResponseHeader.take_http isChunk enough)]
      exact .ended enough (mt reads.mpr read) answer.1 answer.2

/-! ## Whole tunnels -/

theorem zipIdx_ne {data more : List (UInt8 × Nat)} {byte : UInt8} {place : Nat}
    (positive : 0 < place) : (byte, 0) :: data ++ more ≠ stream.zipIdx place := by
  intro equal
  have member : (byte, 0) ∈ stream.zipIdx place := by
    rw [← equal]
    simp
  have later := List.le_snd_of_mem_zipIdx member
  exact absurd later (Nat.not_le.mpr positive)

/-- The response is stripped, and the stream passed on, exactly where the first chunk has
it. -/
theorem tunnel_strips_iff (header : ResponseHeader) (stream : Bytes) (chunks : List Bytes)
    (cut : chunks.flatten = header.text ++ stream) :
    Forwards header stream chunks ↔ Strips header stream chunks := by
  have textPos : 0 < header.text.length := by
    rw [ResponseHeader.text, ResponseHeader.line, List.length_append, List.length_append,
      List.length_append, List.length_singleton]
    omega
  rw [Forwards, Strips, tunnel_filter, firstChunk]
  rw [← List.flatten_filter_ne_nil] at cut
  have nonempty : ∀ chunk ∈ chunks.filter (· ≠ []), chunk ≠ [] := by simp
  generalize chunks.filter (· ≠ []) = filled at cut nonempty ⊢
  cases filled with
  | nil =>
      have lengths := congrArg List.length cut
      rw [List.flatten_nil, List.length_append] at lengths
      simp only [List.length_nil] at lengths
      omega
  | cons chunk rest =>
      have isChunk : chunk <+: header.text ++ stream := by
        rw [← cut]
        exact List.prefix_append ..
      rw [List.headD_cons, tunnel, List.foldl_cons]
      cases first_chunk isChunk with
      | sent short forwarded =>
          refine iff_of_false ?_ fun strips => absurd strips.1 (Nat.not_le.mpr short)
          obtain ⟨more, moreEq⟩ := grows_chunks rest (({} : TunnelChannel).dataReceived chunk)
          rw [moreEq, forwarded]
          cases chunk with
          | nil => exact absurd rfl (nonempty [] (List.mem_cons_self ..))
          | cons byte bytes =>
              split
              · exact zipIdx_ne textPos
              · simp
      | established enough granted read isOpen received forwarded =>
          rw [isOpen.chunks, forwarded, received, if_pos granted]
          split
          · next whole =>
            refine iff_of_true ?_ ⟨enough, fun _ => .inl ⟨read, whole⟩⟩
            have split : chunk.drop header.text.length ++ rest.flatten = stream := by
              have dropped := congrArg (List.drop header.text.length) cut
              rwa [List.flatten_cons, List.drop_append_of_le_length whole, List.drop_left]
                at dropped
            rw [← split, List.zipIdx_append, List.length_drop, Nat.add_sub_cancel' whole]
          · next partly =>
            refine iff_of_false ?_ fun strips => ?_
            · cases chunk with
              | nil => exact absurd rfl (nonempty [] (List.mem_cons_self ..))
              | cons byte bytes => exact zipIdx_ne textPos
            · rcases strips.2 granted with both | unread
              · exact partly both.2
              · exact unread.1 read
      | ended enough unread ended nothing =>
          rw [ended_chunks rest ended, nothing]
          by_cases granted : header.status = 200
          · have notRead : ¬ header.ReadIn chunk := fun read => unread ⟨granted, read⟩
            rw [if_pos granted, eq_comm, List.zipIdx_eq_nil_iff]
            constructor
            · intro none_
              exact ⟨enough, fun _ => .inr ⟨notRead, none_⟩⟩
            · intro strips
              rcases strips.2 granted with both | none_
              · exact absurd both.1 notRead
              · exact none_.2
          · rw [if_neg granted]
            exact iff_of_true rfl ⟨enough, fun isGranted => absurd isGranted granted⟩

/-! ## Examples -/

def granted : ResponseHeader where
  version := [49, 46, 49]
  code := [50, 48, 48]
  rest := [SP, 79, 75, CR, LF, CR, LF]
  version_word := by decide
  code_digits := by decide
  code_apart := by decide
  ends := by decide

theorem tunnel_strips_iff_granted :
    Forwards granted [120] [granted.text ++ [120]] ↔ Strips granted [120] [granted.text ++ [120]] :=
  tunnel_strips_iff granted [120] [granted.text ++ [120]] (by decide)

/-- A header that comes in two chunks goes to the SSH client. -/
theorem cut_header_forwarded :
    ¬ ∀ header stream chunks, chunks.flatten = ResponseHeader.text header ++ stream →
      Forwards header stream chunks := by
  intro all
  have forwards := all granted [120] [granted.text.take 15, granted.text.drop 15 ++ [120]] (by decide)
  revert forwards
  unfold Forwards
  decide

end Ssh

end LlmHoneypot
