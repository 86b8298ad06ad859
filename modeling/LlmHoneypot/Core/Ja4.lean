import LlmHoneypot.Core.ClientHello
import LlmHoneypot.Foundation.Reordering

/-! # Fingerprints of clients

`generate_ja4` of `fingerprint.py`, over client hellos that differ in their order and in GREASE
values. -/

namespace LlmHoneypot

namespace Fingerprint

open Reordering

/-! ## The fingerprint -/

def GREASE_VALUES : List Nat :=
  [0x0a0a, 0x1a1a, 0x2a2a, 0x3a3a, 0x4a4a, 0x5a5a, 0x6a6a, 0x7a7a, 0x8a8a, 0x9a9a, 0xaaaa, 0xbaba,
    0xcaca, 0xdada, 0xeaea, 0xfafa]

def TLS_VERSION_MAP : List (Nat × Str) :=
  [(0x0002, "s2".toList), (0x0300, "s3".toList), (0x0301, "10".toList), (0x0302, "11".toList),
    (0x0303, "12".toList), (0x0304, "13".toList)]

def digits (base width number : Nat) : Str :=
  List.replicate (width - (Nat.toDigits base number).length) '0' ++ Nat.toDigits base number

def NO_HASH : Str := "000000000000".toList

/-- `sha_encode` of a list, where `sha` gives the first digits of the hash of a text. -/
def shaEncode (sha : Str → Str) (values : List Str) : Str := sha (Text.join [','] values)

def filtered (values : List Nat) : List Nat := values.filter fun value => value ∉ GREASE_VALUES

def sortedHex (values : List Nat) : List Str := sorted (values.map (digits 16 4))

def alpnValue (alpn : Option Str) : Str :=
  match alpn.getD [] with
  | [] => "00".toList
  | first :: rest =>
      if 2 < (first :: rest).length then [first, (first :: rest).getLast (List.cons_ne_nil _ _)]
      else first :: rest

def algorithmText (algorithms : Option (List Nat)) : Str :=
  if algorithms.getD [] = [] then []
  else '_' :: Text.join [','] ((algorithms.getD []).map (digits 16 4))

def generateJa4 (sha : Str → Str) (fields : ClientHelloFields) (useQuic : Bool) : Str :=
  let ptype := if useQuic then "q".toList else "t".toList
  let version := (TLS_VERSION_MAP.lookup fields.tlsVersion).getD "00".toList
  let sni := if fields.hasSni then "d".toList else "i".toList
  let filteredCiphers := filtered fields.ciphers
  let filteredExtensions := filtered fields.extensions
  let cipherCount := min filteredCiphers.length 99
  let extCount := min filteredExtensions.length 99
  let sortedCiphers := sortedHex filteredCiphers
  let cipherHash := if sortedCiphers = [] then NO_HASH else shaEncode sha sortedCiphers
  let sortedExtensions := sortedHex filteredExtensions
  let extString := Text.join [','] sortedExtensions ++ algorithmText fields.signatureAlgorithms
  let extHash := if sortedExtensions = [] then NO_HASH else sha extString
  ptype ++ version ++ sni ++ digits 10 2 cipherCount ++ digits 10 2 extCount ++
    alpnValue fields.alpn ++ ['_'] ++ cipherHash ++ ['_'] ++ extHash

/-- The fingerprint of the bytes of a connection, where they are read. -/
def ja4 (sha : Str → Str) (useQuic : Bool) (data : Bytes) : Option Str :=
  (parseTlsClientHello data).map fun fields => generateJa4 sha fields useQuic

/-! ## Disguises -/

def IsGrease (value : Nat) : Prop := value ∈ GREASE_VALUES

instance : DecidablePred IsGrease := fun value => inferInstanceAs (Decidable (value ∈ GREASE_VALUES))

/-- Fields with ciphers and extensions in another order, and with GREASE anywhere. -/
structure ClientHelloFields.Disguised (fields disguised : ClientHelloFields) : Prop where
  tlsVersion : disguised.tlsVersion = fields.tlsVersion
  ciphers : Scrambled IsGrease fields.ciphers disguised.ciphers
  extensions : Scrambled IsGrease fields.extensions disguised.extensions
  hasSni : disguised.hasSni = fields.hasSni
  alpn : disguised.alpn = fields.alpn
  signatureAlgorithms : Inserted IsGrease (fields.signatureAlgorithms.getD [])
    (disguised.signatureAlgorithms.getD [])

theorem filtered_scrambled {values others : List Nat}
    (scrambled : Scrambled IsGrease values others) : (filtered others).Perm (filtered values) :=
  scrambled.filter fun value isGrease => by
    rw [decide_eq_false_iff_not, not_not]
    exact isGrease

theorem sortedHex_scrambled {values others : List Nat}
    (scrambled : Scrambled IsGrease values others) :
    sortedHex (filtered others) = sortedHex (filtered values) :=
  sorted_eq_of_perm ((filtered_scrambled scrambled).map _)

theorem sortedHex_eq_nil_iff {values : List Nat} : sortedHex values = [] ↔ values = [] := by
  rw [sortedHex, sorted_eq_nil_iff, List.map_eq_nil_iff]

theorem length_join (numbers : List Nat) (more : numbers ≠ []) :
    (Text.join [','] (numbers.map (digits 16 4))).length + 1 =
      (numbers.map fun number => (digits 16 4 number).length + 1).sum := by
  induction numbers with
  | nil => exact absurd rfl more
  | cons number rest induction =>
      cases rest with
      | nil => simp [Text.join, List.intercalate]
      | cons next rest =>
          have later := induction (List.cons_ne_nil _ _)
          have step : Text.join [','] ((number :: next :: rest).map (digits 16 4)) =
              digits 16 4 number ++ ([','] ++ Text.join [','] ((next :: rest).map (digits 16 4))) := by
            simp [Text.join, List.intercalate]
          have sums : ((number :: next :: rest).map fun number =>
              (digits 16 4 number).length + 1).sum = (digits 16 4 number).length + 1 +
                ((next :: rest).map fun number => (digits 16 4 number).length + 1).sum := rfl
          rw [step, sums, ← later, List.length_append, List.length_append, List.length_singleton]
          omega

theorem length_algorithmText (algorithms : Option (List Nat)) :
    (algorithmText algorithms).length =
      ((algorithms.getD []).map fun number => (digits 16 4 number).length + 1).sum := by
  rw [algorithmText]
  split
  · next nothing => rw [nothing]; rfl
  · next some_ => rw [List.length_cons, length_join _ some_]

theorem algorithmText_eq_iff {algorithms others : Option (List Nat)}
    (inserted : Inserted IsGrease (algorithms.getD []) (others.getD [])) :
    algorithmText others = algorithmText algorithms ↔ others.getD [] = algorithms.getD [] := by
  constructor
  · intro same
    have lengths := congrArg List.length same
    rw [length_algorithmText, length_algorithmText] at lengths
    generalize algorithms.getD [] = values at inserted lengths
    generalize others.getD [] = values' at inserted lengths
    have room : ∀ {values values' : List Nat}, Inserted IsGrease values values' →
        (values.map fun number => (digits 16 4 number).length + 1).sum +
            (values'.length - values.length) ≤
          (values'.map fun number => (digits 16 4 number).length + 1).sum := by
      intro values values' inserted
      induction inserted with
      | nil => exact le_rfl
      | keep value later induction =>
          simp only [List.map_cons, List.sum_cons, List.length_cons]
          omega
      | insert isNoise later induction =>
          simp only [List.map_cons, List.sum_cons, List.length_cons]
          omega
    rcases inserted.longer with same | longer
    · exact same
    · have more := room inserted
      omega
  · intro same
    rw [algorithmText, algorithmText, same]

theorem ClientHelloFields.Disguised.ja4_iff {fields disguised : ClientHelloFields}
    (disguise : fields.Disguised disguised) (useQuic : Bool) :
    (∀ sha, generateJa4 sha disguised useQuic = generateJa4 sha fields useQuic) ↔
      disguised.signatureAlgorithms.getD [] = fields.signatureAlgorithms.getD [] ∨
        filtered fields.extensions = [] := by
  have ciphers := sortedHex_scrambled disguise.ciphers
  have extensions := sortedHex_scrambled disguise.extensions
  have cipherCount := (filtered_scrambled disguise.ciphers).length_eq
  have extCount := (filtered_scrambled disguise.extensions).length_eq
  simp only [generateJa4, ciphers, extensions, cipherCount, extCount, disguise.tlsVersion,
    disguise.hasSni, disguise.alpn, List.append_right_inj]
  rw [← algorithmText_eq_iff disguise.signatureAlgorithms]
  by_cases nothing : filtered fields.extensions = []
  · have none : sortedHex (filtered fields.extensions) = [] := sortedHex_eq_nil_iff.mpr nothing
    simp only [if_pos none, implies_true, true_iff]
    exact .inr nothing
  · have some_ : sortedHex (filtered fields.extensions) ≠ [] :=
      fun none => nothing (sortedHex_eq_nil_iff.mp none)
    simp only [if_neg some_, nothing, or_false]
    constructor
    · intro same
      exact List.append_cancel_left (same id)
    · intro same sha
      rw [same]

/-! ## Disguised messages -/

inductive Extension.Reworded : Extension → Extension → Prop
  | same (extension : Extension) : Reworded extension extension
  | algorithms {algorithms others : List Nat} (inserted : Inserted IsGrease algorithms others) :
      Reworded (.signatureAlgorithms algorithms) (.signatureAlgorithms others)

def Extension.Shuffled (extensions others : List Extension) : Prop :=
  ∃ reworded grease : List Extension, List.Forall₂ Reworded extensions reworded ∧
    (∀ extension ∈ grease, IsGrease extension.extType) ∧ others.Perm (reworded ++ grease)

structure ClientHello.Disguised (hello disguised : ClientHello) : Prop where
  version : disguised.version = hello.version
  ciphers : Scrambled IsGrease hello.ciphers disguised.ciphers
  hasExtensions : disguised.extensions = none ↔ hello.extensions = none
  extensions : Extension.Shuffled (hello.extensions.getD []) (disguised.extensions.getD [])

section

variable {Value : Type} {extensions others : List Extension} {read : Extension → Option Value}

theorem extType_reworded (reworded : List.Forall₂ Extension.Reworded extensions others) :
    others.map Extension.extType = extensions.map Extension.extType := by
  induction reworded with
  | nil => rfl
  | cons first later induction =>
      rw [List.map_cons, List.map_cons, induction]
      cases first with
      | same extension => rfl
      | algorithms inserted => rfl

theorem findSome?_perm {extType : Nat}
    (only : ∀ extension, read extension ≠ none → extension.extType = extType)
    (distinct : (extensions.map Extension.extType).Nodup) (reordered : others.Perm extensions) :
    others.findSome? read = extensions.findSome? read := by
  have unique : ∀ {one other : Extension} {value value' : Value}, one ∈ extensions →
      other ∈ extensions → read one = some value → read other = some value' → value = value' := by
    intro one other value value' member member' isValue isValue'
    have oneType := only one (by rw [isValue]; exact Option.some_ne_none _)
    have otherType := only other (by rw [isValue']; exact Option.some_ne_none _)
    have same : one = other := List.inj_on_of_nodup_map distinct member member'
      (oneType.trans otherType.symm)
    rw [same, isValue'] at isValue
    exact (Option.some.inj isValue).symm
  cases found : extensions.findSome? read with
  | none =>
      refine List.findSome?_eq_none_iff.mpr fun extension member => ?_
      exact List.findSome?_eq_none_iff.mp found extension (reordered.mem_iff.mp member)
  | some value =>
      rcases List.exists_of_findSome?_eq_some found with ⟨one, member, isValue⟩
      cases found' : others.findSome? read with
      | none =>
          have nothing := List.findSome?_eq_none_iff.mp found' one (reordered.mem_iff.mpr member)
          rw [isValue] at nothing
          cases nothing
      | some value' =>
          rcases List.exists_of_findSome?_eq_some found' with ⟨other, member', isValue'⟩
          rw [unique member (reordered.mem_iff.mp member') isValue isValue']

theorem findSome?_or (one : Extension) (extensions : List Extension) :
    (one :: extensions).findSome? read = (read one).or (extensions.findSome? read) := by
  rw [List.findSome?_cons]
  cases read one with
  | none => rfl
  | some value => rfl

theorem firstName_reworded (reworded : List.Forall₂ Extension.Reworded extensions others) :
    others.findSome? Extension.firstName = extensions.findSome? Extension.firstName := by
  induction reworded with
  | nil => rfl
  | cons first later induction =>
      rw [findSome?_or, findSome?_or, induction]
      cases first with
      | same extension => rfl
      | algorithms inserted => rfl

theorem algorithms_reworded (reworded : List.Forall₂ Extension.Reworded extensions others) :
    Inserted IsGrease ((extensions.findSome? Extension.algorithms).getD [])
      ((others.findSome? Extension.algorithms).getD []) := by
  induction reworded with
  | nil => exact .nil
  | @cons one _ _ _ first later induction =>
      rw [findSome?_or, findSome?_or]
      cases first with
      | same =>
          cases one.algorithms with
          | none => exact induction
          | some algorithms => exact .refl algorithms
      | algorithms inserted => exact inserted

theorem findSome?_grease {grease : List Extension}
    (areGrease : ∀ extension ∈ grease, IsGrease extension.extType) {extType : Nat}
    (only : ∀ extension, read extension ≠ none → extension.extType = extType)
    (known : ¬ IsGrease extType) : grease.findSome? read = none := by
  refine List.findSome?_eq_none_iff.mpr fun extension member => ?_
  by_contra some_
  exact known (only extension some_ ▸ areGrease extension member)

end

variable {hello other : ClientHello}

theorem ClientHello.Disguised.fields (disguise : hello.Disguised other)
    (distinct : ((other.extensions.getD []).map Extension.extType).Nodup) :
    hello.fields.Disguised other.fields := by
  rcases disguise.extensions with ⟨reworded, grease, areReworded, areGrease, reordered⟩
  have types := reordered.map Extension.extType
  rw [List.map_append, extType_reworded areReworded] at types
  have distinct' := ((reordered.map Extension.extType).nodup_iff).mp distinct
  refine ⟨disguise.version, disguise.ciphers, ⟨grease.map Extension.extType, ?_, types⟩, ?_, ?_, ?_⟩
  · exact List.forall_mem_map.mpr areGrease
  · rw [ClientHello.fields, ClientHello.fields, decide_eq_decide, types.mem_iff, List.mem_append]
    apply or_iff_left
    intro member
    rcases List.mem_map.mp member with ⟨extension, isGrease, isType⟩
    have known : ¬ IsGrease 0x0000 := by decide
    exact known (isType ▸ areGrease extension isGrease)
  · change (other.extensions.getD []).findSome? _ = (hello.extensions.getD []).findSome? _
    rw [findSome?_perm firstName_extType distinct' reordered, List.findSome?_append,
      findSome?_grease areGrease firstName_extType (by decide), Option.or_none,
      firstName_reworded areReworded]
  · change Inserted IsGrease (((hello.extensions.getD []).findSome? _).getD [])
      (((other.extensions.getD []).findSome? _).getD [])
    rw [findSome?_perm algorithms_extType distinct' reordered, List.findSome?_append,
      findSome?_grease areGrease algorithms_extType (by decide), Option.or_none]
    exact algorithms_reworded areReworded

theorem filtered_ne_nil {extensions : List Extension} {algorithms : List Nat}
    (found : extensions.findSome? Extension.algorithms = some algorithms) :
    filtered (extensions.map Extension.extType) ≠ [] := by
  rcases List.exists_of_findSome?_eq_some found with ⟨extension, member, isSome⟩
  have isType := algorithms_extType extension (by rw [isSome]; exact Option.some_ne_none _)
  have kept : 0x000D ∈ filtered (extensions.map Extension.extType) :=
    List.mem_filter.mpr ⟨isType ▸ List.mem_map_of_mem member, by decide⟩
  exact List.ne_nil_of_mem kept

def ClientHello.algorithms (hello : ClientHello) : List Nat :=
  hello.fields.signatureAlgorithms.getD []

theorem algorithms_eq_nil (nothing : filtered hello.fields.extensions = []) :
    hello.algorithms = [] := by
  cases found : hello.fields.signatureAlgorithms with
  | none => rw [ClientHello.algorithms, found, Option.getD_none]
  | some algorithms => exact absurd nothing (filtered_ne_nil found)

theorem ClientHello.Disguised.record_iff (formed : hello.WellFormed) (formed' : other.WellFormed)
    (disguise : hello.Disguised other) (useQuic : Bool) :
    (∀ sha, ja4 sha useQuic other.record = ja4 sha useQuic hello.record) ↔
      other.algorithms = hello.algorithms := by
  have distinct : ((other.extensions.getD []).map Extension.extType).Nodup := by
    cases isSome : other.extensions with
    | none => exact List.nodup_nil
    | some extensions => exact (formed'.extensions extensions isSome).2.2
  have disguised := disguise.fields distinct
  simp only [ja4, parse_record formed, parse_record formed']
  cases isSome : hello.extensions with
  | none =>
      have nothing := disguise.hasExtensions.mpr isSome
      simp [ClientHello.algorithms, ClientHello.fields, isSome, nothing]
  | some extensions =>
      cases isSome' : other.extensions with
      | none =>
          have nothing := disguise.hasExtensions.mp isSome'
          rw [isSome] at nothing
          cases nothing
      | some extensions' =>
          simp only [Option.map_some, Option.some.injEq]
          rw [disguised.ja4_iff useQuic]
          apply or_iff_left_of_imp
          intro nothing
          have nothing' : filtered other.fields.extensions = [] :=
            List.Perm.eq_nil (nothing ▸ filtered_scrambled disguised.extensions)
          exact (algorithms_eq_nil nothing').trans (algorithms_eq_nil nothing).symm

end Fingerprint

end LlmHoneypot
