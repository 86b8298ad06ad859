import LlmHoneypot.Foundation.Utf8Codec
import LlmHoneypot.SshProxy.Reassembly

/-! # Terminals in the proxy

`Term`: the command line of a shell session, rebuilt from the keystrokes of the client and the
output of the server. The recording of the session is left out. -/

namespace LlmHoneypot

namespace SshProxy

/-! ## The terminal -/

structure Term where
  command : Bytes := []
  pointer : Int := 0
  tabPress : Bool := false
  upArrow : Bool := false
  logged : List Str := []
  deriving DecidableEq, Repr

namespace Term

/-- `command[:pointer] + data + command[pointer:]`, the pointer behind it. -/
def insert (byte : UInt8) (term : Term) : Term :=
  { term with
    command := sliceTo term.command term.pointer ++ [byte] ++ sliceFrom term.command term.pointer
    pointer := term.pointer + 1 }

def backspace (term : Term) : Term :=
  if 0 < term.pointer then
    { term with
      command := sliceTo term.command (term.pointer - 1) ++ sliceFrom term.command term.pointer
      pointer := term.pointer - 1 }
  else term

def submit (term : Term) : Term :=
  { term with
    command := []
    pointer := 0
    logged := term.logged ++
      if term.command = [] then [] else (Utf8.decode term.command).toList }

def interrupt (term : Term) : Term := { term with command := term.command ++ [94, 67] }

def key (term : Term) (byte : UInt8) (rest : Bytes) : Term × Nat :=
  if byte = 0x09 then ({ term with tabPress := true }, 0)
  else if byte = 0x7f ∨ byte = 0x08 then (term.backspace, 0)
  else if byte = 0x0d ∨ byte = 0x03 ∨ byte = 0x0a then
    ((if byte = 0x03 then term.interrupt else term).submit, 0)
  else if byte = 0x1b ∧ rest.take 2 = [0x4f, 0x48] then ({ term with pointer := 0 }, 2)
  else if byte = 0x1b ∧ rest.take 2 = [0x4f, 0x46] then
    ({ term with pointer := term.command.length }, 2)
  else if byte = 0x1b ∧ rest.take 2 = [0x5b, 0x43] then
    (if term.pointer ≠ term.command.length then { term with pointer := term.pointer + 1 } else term,
      2)
  else if byte = 0x1b ∧ rest.take 2 = [0x5b, 0x44] then
    (if term.pointer ≠ 0 then { term with pointer := term.pointer - 1 } else term, 2)
  else if byte = 0x1b ∧ (rest.take 2 = [0x5b, 0x41] ∨ rest.take 2 = [0x5b, 0x42]) then
    ({ term with upArrow := true }, 2)
  else (term.insert byte, 0)

def keys (term : Term) : Bytes → Term
  | [] => term
  | byte :: rest =>
      let (next, taken) := term.key byte rest
      next.keys (rest.drop taken)
termination_by data => data.length
decreasing_by
  rw [List.length_drop, List.length_cons]
  omega

/-- One turn of the loop over the output behind an arrow key. The test for the deletion of
characters compares an empty slice, which is never `P`. -/
def redraw (term : Term) (byte : UInt8) (rest : Bytes) : Term × Nat :=
  if byte = 0x08 then
    ({ term with command := sliceTo term.command (-1), pointer := term.pointer - 1 }, 0)
  else if byte = 0x1b ∧ rest.take 2 = [0x5b, 0x4b] then
    ({ term with command := sliceTo term.command term.pointer }, 2)
  else if byte = 0x0d then ({ term with pointer := 0 }, 0)
  else if byte = 0x1b ∧ rest.take 2 = [0x5b, 0x43] then
    ({ term with pointer := term.pointer + 1 }, 2)
  else if byte = 0x1b ∧ rest.take 1 = [0x5b] ∧ (rest.drop 2).take 0 = [0x50] then (term, 3)
  else if byte ≠ 0x07 ∧ byte ≠ 0x0d then (term.insert byte, 0)
  else ({ term with pointer := term.pointer + 1 }, 0)

def redrawn (term : Term) : Bytes → Term
  | [] => term
  | byte :: rest =>
      let (next, taken) := term.redraw byte rest
      next.redrawn (rest.drop taken)
termination_by data => data.length
decreasing_by
  rw [List.length_drop, List.length_cons]
  omega

def complete (data : Bytes) (term : Term) : Term :=
  { term with
    command :=
      if data.head? = some 0x0d ∨ data = [0x07] then term.command else term.command ++ data
    tabPress := false }

def parsePacket (parent : Parent) (data : Bytes) (term : Term) : Term :=
  match parent with
  | .server => term.keys data
  | .client =>
      let term := if term.tabPress then term.complete data else term
      if term.upArrow then { term.redrawn data with upArrow := false } else term

/-! ## Bytes of keystrokes and of output -/

theorem keys_nil (term : Term) : term.keys [] = term := by rw [keys]

theorem keys_cons (term : Term) (byte : UInt8) (rest : Bytes) :
    term.keys (byte :: rest) = (term.key byte rest).1.keys (rest.drop (term.key byte rest).2) := by
  rw [keys]

theorem redrawn_nil (term : Term) : term.redrawn [] = term := by rw [redrawn]

theorem redrawn_cons (term : Term) (byte : UInt8) (rest : Bytes) :
    term.redrawn (byte :: rest) =
      (term.redraw byte rest).1.redrawn (rest.drop (term.redraw byte rest).2) := by
  rw [redrawn]

def Typed (byte : UInt8) : Prop := byte ∉ [0x03, 0x08, 0x09, 0x0a, 0x0d, 0x1b, 0x7f]

instance : DecidablePred Typed := fun _ => inferInstanceAs (Decidable (¬ _))

theorem key_typed {byte : UInt8} (typed : Typed byte) (term : Term) (rest : Bytes) :
    term.key byte rest = (term.insert byte, 0) := by
  simp only [Typed, List.mem_cons, List.not_mem_nil, or_false, not_or] at typed
  rcases typed with ⟨interrupts, erases, tabs, feeds, returns, escapes, deletes⟩
  simp [key, interrupts, erases, tabs, feeds, returns, escapes, deletes]

theorem keys_typed {text : Bytes} (typed : ∀ byte ∈ text, Typed byte) (term : Term) (rest : Bytes) :
    term.keys (text ++ rest) = (text.foldl (fun term byte => term.insert byte) term).keys rest := by
  induction text generalizing term with
  | nil => rfl
  | cons byte text induction =>
      rw [List.forall_mem_cons] at typed
      rw [List.cons_append, keys_cons, key_typed typed.1, List.drop_zero, induction typed.2]
      rfl

/-! ## A pointer in the line -/

structure At (before after : Bytes) (term : Term) : Prop where
  command : term.command = before ++ after
  pointer : term.pointer = before.length

theorem At.sliceTo {before after : Bytes} {term : Term} (at_ : At before after term) :
    SshProxy.sliceTo term.command term.pointer = before := by
  rw [at_.pointer, at_.command, sliceTo_natCast, List.take_left]

theorem At.sliceFrom {before after : Bytes} {term : Term} (at_ : At before after term) :
    SshProxy.sliceFrom term.command term.pointer = after := by
  rw [at_.pointer, at_.command, sliceFrom_natCast, List.drop_left]

structure Same (term next : Term) : Prop where
  tabPress : next.tabPress = term.tabPress
  upArrow : next.upArrow = term.upArrow
  logged : next.logged = term.logged

theorem Same.refl (term : Term) : Same term term := ⟨rfl, rfl, rfl⟩

theorem Same.trans {term middle next : Term} (first : Same term middle) (second : Same middle next) :
    Same term next :=
  ⟨second.tabPress.trans first.tabPress, second.upArrow.trans first.upArrow,
    second.logged.trans first.logged⟩

theorem insert_same (byte : UInt8) (term : Term) : Same term (term.insert byte) := ⟨rfl, rfl, rfl⟩

theorem At.insert {before after : Bytes} {term : Term} (at_ : At before after term) (byte : UInt8) :
    At (before ++ [byte]) after (term.insert byte) := by
  constructor
  · rw [Term.insert, at_.sliceTo, at_.sliceFrom]
  · rw [Term.insert, at_.pointer, List.length_append]
    rfl

theorem At.insertAll {before after : Bytes} {term : Term} (at_ : At before after term) (text : Bytes) :
    At (before ++ text) after (text.foldl (fun term byte => term.insert byte) term) ∧
      Same term (text.foldl (fun term byte => term.insert byte) term) := by
  induction text generalizing before term with
  | nil =>
      rw [List.append_nil]
      exact ⟨at_, .refl term⟩
  | cons byte text induction =>
      rcases induction (at_.insert byte) with ⟨inserted, same⟩
      rw [List.append_assoc] at inserted
      exact ⟨inserted, (insert_same byte term).trans same⟩

theorem At.backspace {before after : Bytes} {byte : UInt8} {term : Term}
    (at_ : At (before ++ [byte]) after term) :
    At before after term.backspace ∧ Same term term.backspace := by
  have pointer : term.pointer = ((before.length + 1 : Nat) : Int) := by
    rw [at_.pointer, List.length_append]
    rfl
  have shorter : term.pointer - 1 = (before.length : Int) := by omega
  rw [Term.backspace, if_pos (by omega)]
  refine ⟨⟨?_, shorter⟩, rfl, rfl, rfl⟩
  dsimp only
  rw [at_.sliceFrom, shorter, at_.command, sliceTo_natCast, List.append_assoc, List.take_left]

theorem At.backspace_start {after : Bytes} {term : Term} (at_ : At [] after term) :
    term.backspace = term := by
  rw [Term.backspace, if_neg]
  rw [at_.pointer]
  simp

theorem At.nonneg {before after : Bytes} {term : Term} (at_ : At before after term) :
    0 ≤ term.pointer := by
  rw [at_.pointer]
  exact Int.natCast_nonneg _

theorem At.within {before after : Bytes} {term : Term} (at_ : At before after term) :
    term.pointer ≤ term.command.length := by
  rw [at_.pointer, at_.command, List.length_append]
  omega

/-! ## Output at the end of the line -/

theorem sliceTo_neg_one (data : Bytes) : SshProxy.sliceTo data (-1) = data.dropLast := by
  rw [SshProxy.sliceTo, position, if_pos (by decide), List.dropLast_eq_take]
  congr 1
  omega

theorem redrawn_back {line : Bytes} {term : Term} (at_ : At line [] term) (some_ : line ≠ [])
    (rest : Bytes) :
    ∃ next, term.redrawn (0x08 :: rest) = next.redrawn rest ∧ At line.dropLast [] next ∧
      Same term next := by
  refine ⟨{ term with
    command := SshProxy.sliceTo term.command (-1), pointer := term.pointer - 1 }, ?_, ?_, rfl, rfl, rfl⟩
  · simp [redrawn_cons, redraw]
  · constructor
    · change SshProxy.sliceTo term.command (-1) = _
      rw [sliceTo_neg_one, at_.command, List.append_nil, List.append_nil]
    · change term.pointer - 1 = _
      have positive := List.length_pos_of_ne_nil some_
      rw [at_.pointer, List.length_dropLast]
      omega

theorem redrawn_text {line : Bytes} {term : Term} (at_ : At line [] term) {byte : UInt8}
    (plain : byte ∉ [0x07, 0x08, 0x0d, 0x1b]) (rest : Bytes) :
    ∃ next, term.redrawn (byte :: rest) = next.redrawn rest ∧ At (line ++ [byte]) [] next ∧
      Same term next := by
  simp only [List.mem_cons, List.not_mem_nil, or_false, not_or] at plain
  rcases plain with ⟨rings, goesBack, returns, escapes⟩
  refine ⟨term.insert byte, ?_, at_.insert byte, insert_same byte term⟩
  simp [redrawn_cons, redraw, rings, goesBack, returns, escapes]

theorem redrawn_clear {line : Bytes} {term : Term} (at_ : At line [] term) (rest : Bytes) :
    term.redrawn (0x1b :: 0x5b :: 0x4b :: rest) = term.redrawn rest := by
  have whole : SshProxy.sliceTo term.command term.pointer = term.command := by
    rw [at_.sliceTo, at_.command, List.append_nil]
  simp [redrawn_cons, redraw, whole]

end Term

end SshProxy

end LlmHoneypot
