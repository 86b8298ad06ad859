import LlmHoneypot.Foundation.DictMap
import LlmHoneypot.Foundation.Stuffing
import LlmHoneypot.Foundation.Utf8Codec

/-! # NEW-ENVIRON

`_parse_new_environ_data` of the telnet login: the variables that a client names in a
subnegotiation, and how a client writes them. -/

namespace LlmHoneypot

namespace NewEnviron

open Utf8

def VAR : UInt8 := 0
def VALUE : UInt8 := 1
def ESC : UInt8 := 2
def USERVAR : UInt8 := 3

/-- The local variables of `_parse_new_environ_data`. -/
structure Reading where
  envVars : Dict Str Str := .empty
  currentName : Bytes := []
  currentValue : Bytes := []
  inValue : Bool := false
  escapeNext : Bool := false

def Reading.saved (reading : Reading) : Dict Str Str :=
  if reading.currentName ≠ [] then
    reading.envVars.set (decodeReplace reading.currentName) (decodeReplace reading.currentValue)
  else
    reading.envVars

def Reading.append (reading : Reading) (byte : UInt8) : Reading :=
  if reading.inValue then
    { reading with currentValue := reading.currentValue ++ [byte] }
  else
    { reading with currentName := reading.currentName ++ [byte] }

def Reading.step (reading : Reading) (byte : UInt8) : Reading :=
  if reading.escapeNext then
    { reading.append byte with escapeNext := false }
  else if byte = ESC then
    { reading with escapeNext := true }
  else if byte = VAR ∨ byte = USERVAR then
    { envVars := reading.saved, escapeNext := reading.escapeNext }
  else if byte = VALUE then
    { reading with inValue := true }
  else
    reading.append byte

def parseNewEnvironData (data : Bytes) : Dict Str Str := (data.foldl Reading.step {}).saved

/-! ## What a client sends -/

structure Variable where
  isUser : Bool
  name : Bytes
  value : Bytes

def stuffing : Stuffing UInt8 where
  escape := ESC
  reserved := fun byte => byte = VAR || byte = VALUE || byte = ESC || byte = USERVAR

def Variable.encoded (var : Variable) : Bytes :=
  (if var.isUser then USERVAR else VAR) ::
    (stuffing.stuff var.name ++ VALUE :: stuffing.stuff var.value)

/-- The bytes read as UTF-8 are these texts. -/
def Variable.Reads (var : Variable) (text : Str × Str) : Prop :=
  decode var.name = some text.1 ∧ decode var.value = some text.2

/-! ## Reading back -/

theorem append_notEscaped {reading : Reading} (ready : reading.escapeNext = false) (byte : UInt8) :
    (reading.append byte).escapeNext = false := by
  rw [Reading.append]
  split
  · exact ready
  · exact ready

theorem takes : stuffing.Takes Reading.step Reading.append fun reading =>
    reading.escapeNext = false where
  plain := by
    intro reading byte ready plain
    simp only [stuffing, Bool.or_eq_false_iff, decide_eq_false_iff_not] at plain
    rcases plain with ⟨⟨⟨notVar, notValue⟩, notEsc⟩, notUser⟩
    simp [Reading.step, ready, notVar, notValue, notEsc, notUser]
  escaped := by
    intro reading byte ready
    have raised : reading.step ESC = { reading with escapeNext := true } := by
      simp [Reading.step, ready]
    have lowered : ∀ other : Reading, other = reading.append byte →
        { other with escapeNext := false } = reading.append byte := by
      intro other same
      rw [same, ← append_notEscaped ready byte]
    rw [stuffing, raised, Reading.step, if_pos rfl]
    refine Eq.trans ?_ (lowered _ rfl)
    rw [Reading.append, Reading.append]
    split
    · rfl
    · rfl
  ready := fun byte ready => append_notEscaped ready byte

theorem foldl_name (name : Bytes) {reading : Reading} (inName : reading.inValue = false) :
    name.foldl Reading.append reading =
      { reading with currentName := reading.currentName ++ name } := by
  induction name generalizing reading with
  | nil => simp
  | cons byte rest induction =>
      have appended : reading.append byte =
          { reading with currentName := reading.currentName ++ [byte] } := by
        rw [Reading.append, if_neg (Bool.eq_false_iff.mp inName)]
      have later := @induction { reading with currentName := reading.currentName ++ [byte] } inName
      rw [List.foldl_cons, appended, later]
      simp only [List.append_assoc, List.singleton_append]

theorem foldl_value (value : Bytes) {reading : Reading} (inValue : reading.inValue = true) :
    value.foldl Reading.append reading =
      { reading with currentValue := reading.currentValue ++ value } := by
  induction value generalizing reading with
  | nil => simp
  | cons byte rest induction =>
      have appended : reading.append byte =
          { reading with currentValue := reading.currentValue ++ [byte] } := by
        rw [Reading.append, if_pos inValue]
      have later := @induction { reading with currentValue := reading.currentValue ++ [byte] } inValue
      rw [List.foldl_cons, appended, later]
      simp only [List.append_assoc, List.singleton_append]

theorem foldl_encoded (var : Variable) {reading : Reading} (ready : reading.escapeNext = false) :
    var.encoded.foldl Reading.step reading =
      { envVars := reading.saved, currentName := var.name, currentValue := var.value
        inValue := true, escapeNext := false } := by
  have starts : reading.step (if var.isUser then USERVAR else VAR) =
      { envVars := reading.saved, escapeNext := false } := by
    cases var.isUser with
    | false => simp [Reading.step, ready, VAR, ESC]
    | true => simp [Reading.step, ready, USERVAR, ESC]
  have turns : ∀ other : Reading, other.escapeNext = false →
      other.step VALUE = { other with inValue := true } := by
    intro other notEscaped
    simp [Reading.step, notEscaped, VALUE, ESC, VAR, USERVAR]
  rw [Variable.encoded, List.foldl_cons, starts, List.foldl_append, takes.foldl_stuff var.name rfl,
    foldl_name var.name rfl, List.foldl_cons, turns _ rfl, takes.foldl_stuff var.value rfl,
    foldl_value var.value rfl]
  rfl

theorem saved_foldl (vars : List Variable) {texts : List (Str × Str)}
    (reads : List.Forall₂ Variable.Reads vars texts) (named : ∀ var ∈ vars, var.name ≠ [])
    {reading : Reading} (ready : reading.escapeNext = false) :
    ((vars.flatMap Variable.encoded).foldl Reading.step reading).saved =
      reading.saved.setAll texts := by
  induction reads generalizing reading with
  | nil => rfl
  | @cons var text vars texts reads _ induction =>
      have names := List.forall_mem_cons.mp named
      rw [List.flatMap_cons, List.foldl_append, foldl_encoded var ready, induction names.2 rfl]
      have name : decodeReplace var.name = text.1 := by
        rw [← encode_decode reads.1, decodeReplace_encode]
      have value : decodeReplace var.value = text.2 := by
        rw [← encode_decode reads.2, decodeReplace_encode]
      rw [Reading.saved, if_pos names.1, name, value]
      rfl

theorem reads_injective {vars : List Variable} {texts : List (Str × Str)}
    (reads : List.Forall₂ Variable.Reads vars texts) :
    vars.map Variable.name = (texts.map Prod.fst).map encode := by
  induction reads with
  | nil => rfl
  | cons reads _ induction =>
      rw [List.map_cons, List.map_cons, List.map_cons, induction, encode_decode reads.1]

/-- Names and values come back as they were sent, whatever bytes stand in them. -/
theorem parse_encoded (vars : List Variable) (texts : List (Str × Str))
    (reads : List.Forall₂ Variable.Reads vars texts) (named : ∀ var ∈ vars, var.name ≠ [])
    (distinct : (vars.map Variable.name).Nodup) :
    (parseNewEnvironData (vars.flatMap Variable.encoded)).entries = texts := by
  have keys : (texts.map Prod.fst).Nodup := by
    rw [reads_injective reads] at distinct
    exact distinct.of_map encode
  have saved : (({} : Reading).saved) = .empty := rfl
  rw [parseNewEnvironData, saved_foldl vars reads named rfl, saved,
    Dict.entries_setAll .empty keys fun _ _ absent => nomatch absent]
  rfl

/-- A user variable whose value holds the four bytes with a meaning, behind one whose name does. -/
theorem parse_encoded_reserved :
    (parseNewEnvironData (([⟨false, [0x55, 1], []⟩, ⟨true, [0x56], [0, 1, 2, 3]⟩] :
      List Variable).flatMap Variable.encoded)).entries =
      [(['U', Char.ofNat 1], []), (['V'], [Char.ofNat 0, Char.ofNat 1, Char.ofNat 2, Char.ofNat 3])] :=
  parse_encoded _ _ (.cons ⟨by decide, by decide⟩ (.cons ⟨by decide, by decide⟩ .nil))
    (by decide) (by decide)

end NewEnviron

end LlmHoneypot
