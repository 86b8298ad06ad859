import LlmHoneypot.Foundation.Decimal

/-! # JSON texts

`json.loads` of bytes: the encoding is guessed, the text is decoded and scanned. A text that
is no JSON and one that cannot be read at all are told apart. -/

namespace LlmHoneypot

abbrev CodePoints := List Nat

inductive Json
  | null
  | bool (value : Bool)
  | int (value : Int)
  | float (value : Float)
  | str (text : CodePoints)
  | array (items : List Json)
  | object (members : List (CodePoints × Json))

namespace Json

abbrev Members := List (CodePoints × Json)

def truthy : Json → Bool
  | .null => false
  | .bool value => value
  | .int value => value != 0
  | .float value => value != 0
  | .str text => !text.isEmpty
  | .array items => !items.isEmpty
  | .object members => !members.isEmpty

def get? (members : Members) (key : CodePoints) : Option Json :=
  (members.find? (·.1 = key)).map Prod.snd

/-- `members[key] = value`: a present key keeps its place. -/
def insert (members : Members) (key : CodePoints) (value : Json) : Members :=
  if members.any (·.1 = key) then
    members.map fun member => if member.1 = key then (key, value) else member
  else members ++ [(key, value)]

def codePoints (text : String) : CodePoints := text.toList.map Char.toNat

/-! ## Encodings

Surrogates are let through by every one of them. -/

def isHighSurrogate (unit : Nat) : Bool := 0xD800 ≤ unit && unit ≤ 0xDBFF

def isLowSurrogate (unit : Nat) : Bool := 0xDC00 ≤ unit && unit ≤ 0xDFFF

def joinSurrogates (high low : Nat) : Nat :=
  0x10000 + (high - 0xD800) * 0x400 + (low - 0xDC00)

def decodeUtf8 : Bytes → Option CodePoints
  | [] => some []
  | first :: rest =>
      if first < 0x80 then (decodeUtf8 rest).map (first.toNat :: ·)
      else if first < 0xC2 then none
      else
        match rest with
        | [] => none
        | second :: rest =>
            if ¬ Utf8.isContinuation second then none
            else if first < 0xE0 then
              (decodeUtf8 rest).map ((first.toNat % 32 * 64 + Utf8.payload second) :: ·)
            else if first = 0xE0 ∧ second < 0xA0 then none
            else
              match rest with
              | [] => none
              | third :: rest =>
                  let code := (first.toNat % 16 * 64 + Utf8.payload second) * 64 +
                    Utf8.payload third
                  if ¬ Utf8.isContinuation third then none
                  else if first < 0xF0 then (decodeUtf8 rest).map (code :: ·)
                  else if first = 0xF0 ∧ second < 0x90 then none
                  else if first = 0xF4 ∧ 0x90 ≤ second ∨ 0xF4 < first then none
                  else
                    match rest with
                    | [] => none
                    | fourth :: rest =>
                        let code := ((first.toNat % 8 * 64 + Utf8.payload second) * 64 +
                          Utf8.payload third) * 64 + Utf8.payload fourth
                        if ¬ Utf8.isContinuation fourth then none
                        else (decodeUtf8 rest).map (code :: ·)

def units16 (bigEndian : Bool) : Bytes → Option (List Nat)
  | [] => some []
  | [_] => none
  | first :: second :: rest =>
      let unit :=
        if bigEndian then first.toNat * 256 + second.toNat
        else second.toNat * 256 + first.toNat
      (units16 bigEndian rest).map (unit :: ·)

def joinUnits : List Nat → CodePoints
  | high :: low :: rest =>
      if isHighSurrogate high && isLowSurrogate low then joinSurrogates high low :: joinUnits rest
      else high :: joinUnits (low :: rest)
  | units => units

def decodeUtf16 (bigEndian : Bool) (bytes : Bytes) : Option CodePoints :=
  (units16 bigEndian bytes).map joinUnits

def decodeUtf32 (bigEndian : Bool) : Bytes → Option CodePoints
  | [] => some []
  | first :: second :: third :: fourth :: rest =>
      let places := if bigEndian then [first, second, third, fourth]
        else [fourth, third, second, first]
      let code := places.foldl (fun code byte => code * 256 + byte.toNat) 0
      if 0x10FFFF < code then none else (decodeUtf32 bigEndian rest).map (code :: ·)
  | _ => none

def decodeBytes (bytes : Bytes) : Option CodePoints :=
  match bytes with
  | 0 :: 0 :: 0xFE :: 0xFF :: rest => decodeUtf32 true rest
  | 0xFF :: 0xFE :: 0 :: 0 :: rest => decodeUtf32 false rest
  | 0xFE :: 0xFF :: rest => decodeUtf16 true rest
  | 0xFF :: 0xFE :: rest => decodeUtf16 false rest
  | 0xEF :: 0xBB :: 0xBF :: rest => decodeUtf8 rest
  | first :: second :: third :: fourth :: _ =>
      if first = 0 then
        if second = 0 then decodeUtf32 true bytes else decodeUtf16 true bytes
      else if second = 0 then
        if third = 0 ∧ fourth = 0 then decodeUtf32 false bytes else decodeUtf16 false bytes
      else decodeUtf8 bytes
  | [first, second] =>
      if first = 0 then decodeUtf16 true bytes
      else if second = 0 then decodeUtf16 false bytes
      else decodeUtf8 bytes
  | _ => decodeUtf8 bytes

/-! ## Scanner -/

/-- What a scanner makes of a text: an exception that is no `JSONDecodeError`, one that
is, or a value and the rest behind it. -/
inductive Scan (Value : Type) (text : CodePoints)
  | raised
  | invalid
  | found (value : Value) (rest : CodePoints) (shorter : rest.length < text.length)

def isSpace (ch : Nat) : Bool := ch == 32 || ch == 9 || ch == 10 || ch == 13

def skipSpace (text : CodePoints) : CodePoints := text.dropWhile isSpace

theorem length_dropWhile_le (test : Nat → Bool) (text : CodePoints) :
    (text.dropWhile test).length ≤ text.length :=
  (List.dropWhile_sublist test).length_le

theorem length_skipSpace_le (text : CodePoints) : (skipSpace text).length ≤ text.length :=
  length_dropWhile_le isSpace text

def Scan.map {Value Other : Type} {text : CodePoints} (convert : Value → Other) :
    Scan Value text → Scan Other text
  | .raised => .raised
  | .invalid => .invalid
  | .found value rest shorter => .found (convert value) rest shorter

def Scan.within {Value : Type} {text later : CodePoints} (notLonger : later.length ≤ text.length) :
    Scan Value later → Scan Value text
  | .raised => .raised
  | .invalid => .invalid
  | .found value rest shorter => .found value rest (Nat.lt_of_lt_of_le shorter notLonger)

/-! ### Strings -/

def hexDigit? (ch : Nat) : Option Nat :=
  if 48 ≤ ch ∧ ch ≤ 57 then some (ch - 48)
  else if 65 ≤ ch ∧ ch ≤ 70 then some (ch - 55)
  else if 97 ≤ ch ∧ ch ≤ 102 then some (ch - 87)
  else none

def hexUnit? (digits : List Nat) : Option Nat :=
  (digits.mapM hexDigit?).map fun values => values.foldl (fun code value => code * 16 + value) 0

def escape? (ch : Nat) : Option Nat :=
  match Char.ofNat ch with
  | '"' => some 34
  | '\\' => some 92
  | '/' => some 47
  | 'b' => some 8
  | 'f' => some 12
  | 'n' => some 10
  | 'r' => some 13
  | 't' => some 9
  | _ => none

/-- The characters up to the closing quote, each with whether it came as `\u`. -/
def scanUnits : (text : CodePoints) → Scan (List (Nat × Bool)) text
  | [] => .invalid
  | 34 :: rest => .found [] rest (Nat.lt_succ_self _)
  | 92 :: 117 :: first :: second :: third :: fourth :: rest =>
      match hexUnit? [first, second, third, fourth] with
      | none => .invalid
      | some unit =>
          ((scanUnits rest).map ((unit, true) :: ·)).within (by simp only [List.length_cons]; omega)
  | 92 :: escaped :: rest =>
      match escape? escaped with
      | none => .invalid
      | some ch =>
          ((scanUnits rest).map ((ch, false) :: ·)).within (by simp only [List.length_cons]; omega)
  | ch :: rest =>
      if ch ≤ 0x1F ∨ ch = 92 then .invalid
      else ((scanUnits rest).map ((ch, false) :: ·)).within (Nat.le_succ _)

/-- Two surrogates that both came as `\u` are one character. -/
def joinEscapes : List (Nat × Bool) → CodePoints
  | (high, true) :: (low, true) :: rest =>
      if isHighSurrogate high && isLowSurrogate low then
        joinSurrogates high low :: joinEscapes rest
      else high :: joinEscapes ((low, true) :: rest)
  | (ch, _) :: rest => ch :: joinEscapes rest
  | [] => []

def scanString (text : CodePoints) : Scan CodePoints text := (scanUnits text).map joinEscapes

/-! ### Numbers -/

def isDigit (ch : Nat) : Bool := 48 ≤ ch && ch ≤ 57

def span (text : CodePoints) : CodePoints × CodePoints :=
  (text.takeWhile isDigit, text.dropWhile isDigit)

theorem length_span_le (text : CodePoints) : (span text).2.length ≤ text.length :=
  length_dropWhile_le isDigit text

def number (digits : CodePoints) : Nat := digits.foldl (fun value ch => value * 10 + (ch - 48)) 0

def fraction (text : CodePoints) : CodePoints × CodePoints :=
  match text with
  | 46 :: later => if (span later).1 = [] then ([], text) else span later
  | _ => ([], text)

def dropSign (text : CodePoints) : CodePoints :=
  if text.head? = some 43 ∨ text.head? = some 45 then text.tail else text

def exponent (text : CodePoints) : Option Int × CodePoints :=
  match text with
  | letter :: later =>
      let digits := span (dropSign later)
      if (letter ≠ 101 ∧ letter ≠ 69) ∨ digits.1 = [] then (none, text)
      else (some (if later.head? = some 45 then -(number digits.1 : Int) else number digits.1),
        digits.2)
  | [] => (none, text)

theorem length_fraction_le (text : CodePoints) : (fraction text).2.length ≤ text.length := by
  rw [fraction.eq_def]
  split
  · next later =>
    have shorter := length_span_le later
    split
    · exact Nat.le_refl _
    · rw [List.length_cons]
      omega
  · exact Nat.le_refl _

theorem length_dropSign_le (text : CodePoints) : (dropSign text).length ≤ text.length := by
  rw [dropSign]
  split
  · simp
  · exact Nat.le_refl _

theorem length_exponent_le (text : CodePoints) : (exponent text).2.length ≤ text.length := by
  rw [exponent.eq_def]
  split
  · next letter later =>
    have digits := length_span_le (dropSign later)
    have unsigned := length_dropSign_le later
    simp only
    split
    · exact Nat.le_refl _
    · simp only [List.length_cons]
      omega
  · exact Nat.le_refl _

/-- `int(...)` or `float(...)` of what was matched. -/
def numberValue (negative : Bool) (digits fractionDigits : CodePoints) (power : Option Int) :
    Option Json :=
  if fractionDigits = [] ∧ power = none then
    if Decimal.MAX_STR_DIGITS < digits.length then none
    else some (.int (if negative then -(number digits : Int) else number digits))
  else
    let scale : Int := power.getD 0 - fractionDigits.length
    let value : Float :=
      OfScientific.ofScientific (number (digits ++ fractionDigits)) (decide (scale < 0)) scale.natAbs
    some (.float (if negative then -value else value))

def finishNumber {text : CodePoints} (negative : Bool) (digits later : CodePoints)
    (shorter : later.length < text.length) : Scan Json text :=
  match numberValue negative digits (fraction later).1 (exponent (fraction later).2).1 with
  | none => .raised
  | some value =>
      .found value (exponent (fraction later).2).2
        (Nat.lt_of_le_of_lt (length_exponent_le _)
          (Nat.lt_of_le_of_lt (length_fraction_le _) shorter))

def scanUnsigned (negative : Bool) : (text : CodePoints) → Scan Json text
  | [] => .invalid
  | first :: rest =>
      if first = 48 then finishNumber negative [first] rest (Nat.lt_succ_self _)
      else if isDigit first then
        finishNumber negative (first :: (span rest).1) (span rest).2
          (Nat.lt_succ_of_le (length_span_le rest))
      else .invalid

def scanNumber : (text : CodePoints) → Scan Json text
  | 45 :: rest => (scanUnsigned true rest).within (Nat.le_succ _)
  | text => scanUnsigned false text

/-! ### Values -/

def token (text : CodePoints) : Scan Nat text :=
  match after : skipSpace text with
  | [] => .invalid
  | ch :: rest => .found ch rest (by
      have notLonger := length_skipSpace_le text
      rw [after, List.length_cons] at notLonger
      omega)

def behind (word : String) (text : CodePoints) : Option CodePoints :=
  List.isPrefixOf? (codePoints word) text

def scanAtom (text : CodePoints) : Scan Json text :=
  let constants : List (String × Json) :=
    [("null", .null), ("true", .bool true), ("false", .bool false), ("NaN", .float (0 / 0)),
      ("Infinity", .float (1 / 0)), ("-Infinity", .float (-1 / 0))]
  let found? := constants.findSome? fun constant =>
    (behind constant.1 text).map fun rest => (constant.2, rest)
  match found? with
  | none => scanNumber text
  | some (value, rest) =>
      if shorter : rest.length < text.length then .found value rest shorter else .invalid

mutual

def scanValue (depth : Nat) (text : CodePoints) : Scan Json text :=
  match text with
  | [] => .invalid
  | first :: rest =>
      have notLonger := Nat.le_succ rest.length
      if first = 34 then ((scanString rest).map .str).within notLonger
      else if first = 123 then
        match depth with
        | 0 => .raised
        | depth + 1 =>
            match token rest with
            | .found 125 rest₁ shorter₁ => .found (.object []) rest₁ (Nat.lt_succ_of_lt shorter₁)
            | _ => ((scanMembers depth [] rest).map .object).within notLonger
      else if first = 91 then
        match depth with
        | 0 => .raised
        | depth + 1 =>
            match token rest with
            | .found 93 rest₁ shorter₁ => .found (.array []) rest₁ (Nat.lt_succ_of_lt shorter₁)
            | _ => ((scanItems depth [] rest).map .array).within notLonger
      else scanAtom (first :: rest)
  termination_by 2 * text.length

def scanMembers (depth : Nat) (members : Members) (text : CodePoints) : Scan Members text :=
  match token text with
  | .found 34 rest₁ _ =>
      match scanString rest₁ with
      | .found key rest₂ _ =>
          match token rest₂ with
          | .found 58 rest₃ _ =>
              have blanks := length_skipSpace_le rest₃
              match scanValue depth (skipSpace rest₃) with
              | .raised => .raised
              | .invalid => .invalid
              | .found value rest₄ _ =>
                  match token rest₄ with
                  | .found 125 rest₅ _ => .found (insert members key value) rest₅ (by omega)
                  | .found 44 rest₅ _ =>
                      (scanMembers depth (insert members key value) rest₅).within (by omega)
                  | _ => .invalid
          | _ => .invalid
      | _ => .invalid
  | _ => .invalid
  termination_by 2 * text.length + 1

def scanItems (depth : Nat) (items : List Json) (text : CodePoints) : Scan (List Json) text :=
  have blanks := length_skipSpace_le text
  match scanValue depth (skipSpace text) with
  | .raised => .raised
  | .invalid => .invalid
  | .found value rest₁ _ =>
      match token rest₁ with
      | .found 93 rest₂ _ => .found (items ++ [value]) rest₂ (by omega)
      | .found 44 rest₂ _ => (scanItems depth (items ++ [value]) rest₂).within (by omega)
      | _ => .invalid
  termination_by 2 * text.length + 1

end

inductive Loaded
  | raised
  | invalid
  | value (value : Json)

def loads (depth : Nat) (payload : Bytes) : Loaded :=
  match decodeBytes payload with
  | none => .raised
  | some text =>
      match scanValue depth (skipSpace text) with
      | .raised => .raised
      | .invalid => .invalid
      | .found value rest _ => if skipSpace rest = [] then .value value else .invalid

end Json

end LlmHoneypot
