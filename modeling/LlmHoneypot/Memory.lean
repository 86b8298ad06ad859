import LlmHoneypot.Foundation.Text
import Mathlib.Data.Rat.Floor
import Mathlib.Tactic.Positivity

/-! # Memory

`_mem_breakdown` of `responder.py`, and the memory that `free`, `/proc/meminfo`, `vmstat` and
`top` show of it. -/

namespace LlmHoneypot

namespace Memory

/-! ## The breakdown -/

structure Fraction where
  value : ℚ
  nonneg : 0 ≤ value
  below : value < 1

structure Fractions where
  used : Fraction
  buffers : Fraction
  cached : Fraction

def scaled (value : Int) (part : ℚ) : Int := ⌊(value : ℚ) * part⌋

structure MemBreakdown where
  total : Int
  used : Int
  free : Int
  shared : Int
  buffers : Int
  cached : Int
  available : Int
  deriving DecidableEq, Repr

def memBreakdown (memtotalKb : Nat) (r : Fractions) : MemBreakdown :=
  let total : Int := memtotalKb
  let used := scaled total (14 / 100 + 30 / 100 * r.used.value)
  let buffers := scaled total (2 / 100 + 3 / 100 * r.buffers.value)
  let cached := scaled total (18 / 100 + 22 / 100 * r.cached.value)
  let cached := min cached (max 0 (total - used - buffers))
  let free := max 0 (total - used - buffers - cached)
  let available := min total (free + cached + buffers)
  let shared := scaled total (1 / 100)
  { total, used, free, shared, buffers, cached, available }

/-! ## Numbers as text -/

def intText (number : Int) : Str :=
  if number < 0 then '-' :: Text.decimal (-number).toNat else Text.decimal number.toNat

def padLeft (width : Nat) (text : Str) : Str := List.replicate (width - text.length) ' ' ++ text

def roundEven (number : ℚ) : Int :=
  let floor := ⌊number⌋
  if number - floor < 1 / 2 then floor
  else if 1 / 2 < number - floor then floor + 1
  else if floor % 2 = 0 then floor
  else floor + 1

def noDecimals (number : ℚ) : Str := intText (roundEven number)

def oneDecimal (number : ℚ) : Str :=
  intText (roundEven (number * 10) / 10) ++ ('.' :: intText (roundEven (number * 10) % 10))

/-! ## The commands -/

inductive Scale
  | human
  | divided (div : Int)
  deriving DecidableEq, Repr

def UNITS : List (Str × Int) :=
  [("Ti".toList, 1024 ^ 3), ("Gi".toList, 1024 ^ 2), ("Mi".toList, 1024), ("Ki".toList, 1)]

def humanKb (kb : Int) : Str :=
  match UNITS.find? fun unit => unit.2 ≤ kb with
  | some unit =>
      let val : ℚ := kb / unit.2
      (if val < 10 then oneDecimal val else noDecimals val) ++ unit.1
  | none => intText kb ++ "Ki".toList

def Scale.text : Scale → Int → Str
  | .human, v => humanKb v
  | .divided div, v => intText (v / div)

def freeScale (args : List Str) : Scale :=
  if "-h".toList ∈ args ∨ "--human".toList ∈ args then .human
  else if "-g".toList ∈ args then .divided (1024 * 1024)
  else if "-m".toList ∈ args then .divided 1024
  else .divided 1

inductive Quantity
  | total
  | used
  | free
  | shared
  | buffers
  | cached
  | buffCache
  | available
  | swapTotal
  | swapUsed
  | swapFree
  deriving DecidableEq, Repr

abbrev Columns := List (Quantity × Str)

def freeMem (args : List Str) (m : MemBreakdown) : Columns :=
  let fmt := (freeScale args).text
  [(.total, fmt m.total), (.used, fmt m.used), (.free, fmt m.free), (.shared, fmt m.shared),
    (.buffCache, fmt (m.buffers + m.cached)), (.available, fmt m.available)]

def freeSwap (args : List Str) (memtotalKb : Nat) : Columns :=
  let fmt := (freeScale args).text
  let swapTotal : Int := memtotalKb
  let swapUsed := scaled swapTotal 0
  [(.swapTotal, fmt swapTotal), (.swapUsed, fmt swapUsed), (.swapFree, fmt (swapTotal - swapUsed))]

def lineOf (columns : Columns) : Str := columns.flatMap fun column => padLeft 12 column.2

def hFree (args : List Str) (memtotalKb : Nat) (r : Fractions) : Str :=
  "               total        used        free      shared  buff/cache   available\n".toList ++
    "Mem:    ".toList ++ lineOf (freeMem args (memBreakdown memtotalKb r)) ++
    "\nSwap:   ".toList ++ lineOf (freeSwap args memtotalKb) ++ "\n".toList

def meminfoRows (memtotalKb : Nat) (m : MemBreakdown) : List (Str × Int) :=
  let swap : Int := memtotalKb
  let anon := scaled m.used (55 / 100)
  let active := scaled m.used (62 / 100)
  let inactive := scaled m.cached (70 / 100)
  let slab := scaled m.total (3 / 100)
  let sreclaim := scaled slab (7 / 10)
  let modulus := if m.total = 0 then 1 else m.total
  [("MemTotal".toList, m.total), ("MemFree".toList, m.free),
    ("MemAvailable".toList, m.available), ("Buffers".toList, m.buffers),
    ("Cached".toList, m.cached), ("SwapCached".toList, 0),
    ("Active".toList, active), ("Inactive".toList, inactive),
    ("Active(anon)".toList, scaled anon (6 / 10)), ("Inactive(anon)".toList, scaled anon (1 / 10)),
    ("Active(file)".toList, scaled active (5 / 10)), ("Inactive(file)".toList, inactive),
    ("Unevictable".toList, 19000 % modulus), ("Mlocked".toList, 18000 % modulus),
    ("SwapTotal".toList, swap), ("SwapFree".toList, swap), ("Zswap".toList, 0),
    ("Zswapped".toList, 0), ("Dirty".toList, 144), ("Writeback".toList, 0),
    ("AnonPages".toList, anon), ("Mapped".toList, scaled m.cached (2 / 10)),
    ("Shmem".toList, m.shared), ("KReclaimable".toList, sreclaim), ("Slab".toList, slab),
    ("SReclaimable".toList, sreclaim), ("SUnreclaim".toList, slab - sreclaim),
    ("KernelStack".toList, 4096), ("PageTables".toList, scaled m.used (1 / 100)),
    ("SecPageTables".toList, 0), ("NFS_Unstable".toList, 0), ("Bounce".toList, 0),
    ("WritebackTmp".toList, 0), ("CommitLimit".toList, scaled m.total (15 / 10)),
    ("Committed_AS".toList, scaled m.used (13 / 10)), ("VmallocTotal".toList, 34359738367),
    ("VmallocUsed".toList, 28000), ("VmallocChunk".toList, 0), ("Percpu".toList, 1024),
    ("HardwareCorrupted".toList, 0), ("AnonHugePages".toList, 0), ("ShmemHugePages".toList, 0),
    ("ShmemPmdMapped".toList, 0), ("FileHugePages".toList, 0), ("FilePmdMapped".toList, 0),
    ("HugePages_Total".toList, 0), ("HugePages_Free".toList, 0), ("HugePages_Rsvd".toList, 0),
    ("HugePages_Surp".toList, 0), ("Hugepagesize".toList, 2048), ("Hugetlb".toList, 0),
    ("DirectMap4k".toList, scaled m.total (5 / 100)),
    ("DirectMap2M".toList, scaled m.total (95 / 100)), ("DirectMap1G".toList, 0)]

def procMeminfo (memtotalKb : Nat) (r : Fractions) : Str :=
  let lines := (meminfoRows memtotalKb (memBreakdown memtotalKb r)).map fun row =>
    let unit := if "HugePages_".toList.isPrefixOf row.1 then [] else " kB".toList
    let label := row.1 ++ [':']
    label ++ List.replicate (16 - label.length) ' ' ++ padLeft 8 (intText row.2) ++ unit
  Text.join ['\n'] lines ++ ['\n']

def vmstatColumns (m : MemBreakdown) : Columns :=
  [(.swapUsed, intText 0), (.free, intText m.free), (.buffers, intText m.buffers),
    (.cached, intText m.cached)]

def hVmstat (busy : Bool) (memtotalKb : Nat) (r : Fractions) : Str :=
  "procs -----------memory---------- ---swap-- -----io---- -system-- ------cpu-----\n".toList ++
    " r  b   swpd   free   buff  cache   si   so    bi    bo   in   cs us sy id wa st\n".toList ++
    " ".toList ++ intText (if busy then 1 else 0) ++ "  0".toList ++
    ((vmstatColumns (memBreakdown memtotalKb r)).flatMap fun column => ' ' :: padLeft 6 column.2) ++
    "    0    0     5    12   40   80  1  0 99  0  0\n".toList

def mib (kb : Int) : ℚ := kb / 1024

def topMem (m : MemBreakdown) : Columns :=
  [(.total, oneDecimal (mib m.total)), (.free, oneDecimal (mib m.free)),
    (.used, oneDecimal (mib m.used)), (.buffCache, oneDecimal (mib m.buffers + mib m.cached))]

def topSwap (m : MemBreakdown) : Columns :=
  [(.swapTotal, oneDecimal (mib m.total)), (.swapFree, oneDecimal (mib m.total)),
    (.swapUsed, oneDecimal 0), (.available, oneDecimal (mib m.available))]

def annotated (columns : Columns) (labels : List Str) : Str :=
  (columns.zip labels).flatMap fun column => padLeft 9 column.1.2 ++ column.2

def topLines (m : MemBreakdown) : Str :=
  "MiB Mem :".toList ++ annotated (topMem m)
      [" total,".toList, " free,".toList, " used,".toList, " buff/cache".toList] ++
    "\nMiB Swap:".toList ++ annotated (topSwap m)
      [" total,".toList, " free,".toList, " used.".toList, " avail Mem".toList]

/-! ## The columns in the texts -/

theorem infix_padLeft (width : Nat) (text : Str) : text <:+: padLeft width text :=
  (List.suffix_append ..).isInfix

theorem infix_lineOf {columns : Columns} {column : Quantity × Str} (member : column ∈ columns) :
    column.2 <:+: lineOf columns :=
  (infix_padLeft 12 column.2).trans
    (Text.infix_flatMap member fun column => padLeft 12 column.2)

theorem infix_annotated {columns : Columns} {column : Quantity × Str} (member : column ∈ columns)
    (labels : List Str) (enough : columns.length ≤ labels.length) :
    column.2 <:+: annotated columns labels := by
  rw [← List.map_fst_zip enough] at member
  rcases List.mem_map.mp member with ⟨pair, isPair, rfl⟩
  have shown : pair.1.2 <:+: padLeft 9 pair.1.2 ++ pair.2 :=
    (infix_padLeft 9 _).trans (List.prefix_append ..).isInfix
  exact shown.trans
    (Text.infix_flatMap isPair fun column => padLeft 9 column.1.2 ++ column.2)

section

variable (memtotalKb : Nat) (r : Fractions)

theorem hFree_shows (args : List Str) {column : Quantity × Str}
    (member : column ∈ freeMem args (memBreakdown memtotalKb r) ++ freeSwap args memtotalKb) :
    column.2 <:+: hFree args memtotalKb r := by
  rcases List.mem_append.mp member with isMem | isSwap
  · apply (infix_lineOf isMem).trans
    apply (List.suffix_append ..).isInfix.trans
    exact (List.prefix_append ..).isInfix.trans
      ((List.prefix_append ..).isInfix.trans (List.prefix_append ..).isInfix)
  · apply (infix_lineOf isSwap).trans
    exact (List.suffix_append ..).isInfix.trans (List.prefix_append ..).isInfix

theorem procMeminfo_shows {row : Str × Int}
    (member : row ∈ meminfoRows memtotalKb (memBreakdown memtotalKb r)) :
    row.1 <:+: procMeminfo memtotalKb r ∧ intText row.2 <:+: procMeminfo memtotalKb r := by
  have line := Text.infix_join (List.mem_map_of_mem (f := fun row : Str × Int =>
    let unit := if "HugePages_".toList.isPrefixOf row.1 then [] else " kB".toList
    let label := row.1 ++ [':']
    label ++ List.replicate (16 - label.length) ' ' ++ padLeft 8 (intText row.2) ++ unit) member)
    ['\n']
  have text := line.trans (List.prefix_append _ ['\n']).isInfix
  constructor
  · refine List.IsInfix.trans ?_ text
    apply (List.prefix_append ..).isInfix.trans
    exact (List.prefix_append ..).isInfix.trans
      ((List.prefix_append ..).isInfix.trans (List.prefix_append ..).isInfix)
  · refine List.IsInfix.trans ?_ text
    apply (infix_padLeft 8 _).trans
    exact (List.suffix_append ..).isInfix.trans (List.prefix_append ..).isInfix

theorem hVmstat_shows (busy : Bool) {column : Quantity × Str}
    (member : column ∈ vmstatColumns (memBreakdown memtotalKb r)) :
    column.2 <:+: hVmstat busy memtotalKb r := by
  apply ((infix_padLeft 6 column.2).trans (List.suffix_cons ' ' _).isInfix).trans
  apply (Text.infix_flatMap member fun column => ' ' :: padLeft 6 column.2).trans
  exact (List.suffix_append ..).isInfix.trans (List.prefix_append ..).isInfix

theorem topLines_shows {m : MemBreakdown} {column : Quantity × Str}
    (member : column ∈ topMem m ++ topSwap m) : column.2 <:+: topLines m := by
  rcases List.mem_append.mp member with isMem | isSwap
  · have inMem := infix_annotated isMem
      [" total,".toList, " free,".toList, " used,".toList, " buff/cache".toList] (Nat.le_refl 4)
    apply inMem.trans
    apply (List.suffix_append ..).isInfix.trans
    exact (List.prefix_append ..).isInfix.trans (List.prefix_append ..).isInfix
  · have inSwap := infix_annotated isSwap
      [" total,".toList, " free,".toList, " used.".toList, " avail Mem".toList] (Nat.le_refl 4)
    apply inSwap.trans
    exact (List.suffix_append ..).isInfix

end

/-! ## What they say -/

def kb (m : MemBreakdown) : Quantity → Int
  | .total => m.total
  | .used => m.used
  | .free => m.free
  | .shared => m.shared
  | .buffers => m.buffers
  | .cached => m.cached
  | .buffCache => m.buffers + m.cached
  | .available => m.available
  | .swapTotal => m.total
  | .swapUsed => 0
  | .swapFree => m.total

def Quantity.field? : Quantity → Option Str
  | .total => some "MemTotal".toList
  | .free => some "MemFree".toList
  | .shared => some "Shmem".toList
  | .buffers => some "Buffers".toList
  | .cached => some "Cached".toList
  | .available => some "MemAvailable".toList
  | .swapTotal => some "SwapTotal".toList
  | .swapFree => some "SwapFree".toList
  | .used | .buffCache | .swapUsed => none

/-- The four commands show the same quantities, each in its unit. -/
structure Shown (memtotalKb : Nat) (m : MemBreakdown) : Prop where
  free : ∀ args, ∀ column ∈ freeMem args m ++ freeSwap args memtotalKb,
    column.2 = (freeScale args).text (kb m column.1)
  meminfo : ∀ quantity name, Quantity.field? quantity = some name →
    (meminfoRows memtotalKb m).lookup name = some (kb m quantity)
  vmstat : ∀ column ∈ vmstatColumns m, column.2 = intText (kb m column.1)
  top : ∀ column ∈ topMem m ++ topSwap m, column.2 = oneDecimal (mib (kb m column.1))

def figure (memtotalKb : Nat) (m : MemBreakdown) (name : String) : Int :=
  ((meminfoRows memtotalKb m).lookup name.toList).getD 0

def Within (memtotalKb : Nat) (m : MemBreakdown) (one other whole : String) : Prop :=
  figure memtotalKb m one + figure memtotalKb m other ≤ figure memtotalKb m whole

structure AddsUp (memtotalKb : Nat) (m : MemBreakdown) : Prop where
  total : m.total = m.used + m.free + m.buffers + m.cached
  available : m.available ≤ m.total
  nonneg : ∀ row ∈ meminfoRows memtotalKb m, 0 ≤ row.2
  active : Within memtotalKb m "Active(anon)" "Active(file)" "Active"
  inactive : Within memtotalKb m "Inactive(anon)" "Inactive(file)" "Inactive"
  slab : figure memtotalKb m "SReclaimable" + figure memtotalKb m "SUnreclaim" =
    figure memtotalKb m "Slab"
  shown : Shown memtotalKb m

/-! ## Sums -/

theorem scaled_nonneg {value : Int} {part : ℚ} (value_nonneg : 0 ≤ value) (nonneg : 0 ≤ part) :
    0 ≤ scaled value part :=
  Int.floor_nonneg.mpr (mul_nonneg (Int.cast_nonneg value_nonneg) nonneg)

theorem scaled_le {value : Int} {part : ℚ} : (scaled value part : ℚ) ≤ value * part :=
  Int.floor_le _

theorem scaled_le_self {value : Int} {part : ℚ} (nonneg : 0 ≤ value) (small : part ≤ 1) :
    scaled value part ≤ value := by
  have whole := mul_le_mul_of_nonneg_left small (Int.cast_nonneg (R := ℚ) nonneg)
  rw [mul_one] at whole
  exact Int.cast_le.mp (scaled_le.trans whole)

theorem scaled_div (value : Int) (number divisor : Nat) :
    scaled value (number / divisor) = value * number / divisor := by
  rw [scaled, ← Rat.floor_intCast_div_natCast]
  apply congrArg
  push_cast
  ring

section

variable {memtotalKb : Nat} {r : Fractions}

theorem used_add_buffers_le :
    (memBreakdown memtotalKb r).used + (memBreakdown memtotalKb r).buffers ≤ memtotalKb := by
  have used := @scaled_le memtotalKb (14 / 100 + 30 / 100 * r.used.value)
  have buffers := @scaled_le memtotalKb (2 / 100 + 3 / 100 * r.buffers.value)
  have total : (0 : ℚ) ≤ ((memtotalKb : Int) : ℚ) := Int.cast_nonneg (Int.natCast_nonneg _)
  have usedPart := mul_le_mul_of_nonneg_left r.used.below.le total
  have buffersPart := mul_le_mul_of_nonneg_left r.buffers.below.le total
  have sum : ((scaled memtotalKb (14 / 100 + 30 / 100 * r.used.value) +
      scaled memtotalKb (2 / 100 + 3 / 100 * r.buffers.value) : Int) : ℚ) ≤
        ((memtotalKb : Int) : ℚ) := by
    push_cast at used buffers total usedPart buffersPart ⊢
    nlinarith
  exact Int.cast_le.mp sum

theorem used_nonneg : 0 ≤ (memBreakdown memtotalKb r).used :=
  scaled_nonneg (Int.natCast_nonneg _)
    (add_nonneg (by norm_num) (mul_nonneg (by norm_num) r.used.nonneg))

theorem buffers_nonneg : 0 ≤ (memBreakdown memtotalKb r).buffers :=
  scaled_nonneg (Int.natCast_nonneg _)
    (add_nonneg (by norm_num) (mul_nonneg (by norm_num) r.buffers.nonneg))

theorem cached_nonneg : 0 ≤ (memBreakdown memtotalKb r).cached :=
  le_min
    (scaled_nonneg (Int.natCast_nonneg _)
      (add_nonneg (by norm_num) (mul_nonneg (by norm_num) r.cached.nonneg)))
    (le_max_left _ _)

theorem shared_nonneg : 0 ≤ (memBreakdown memtotalKb r).shared :=
  scaled_nonneg (Int.natCast_nonneg _) (by norm_num)

theorem free_nonneg : 0 ≤ (memBreakdown memtotalKb r).free := le_max_left _ _

theorem total_eq : (memBreakdown memtotalKb r).total = memtotalKb := rfl

theorem total_sum :
    (memBreakdown memtotalKb r).total = (memBreakdown memtotalKb r).used +
      (memBreakdown memtotalKb r).free + (memBreakdown memtotalKb r).buffers +
        (memBreakdown memtotalKb r).cached := by
  have room := @used_add_buffers_le memtotalKb r
  have clamped : (memBreakdown memtotalKb r).cached ≤
      max 0 ((memtotalKb : Int) - (memBreakdown memtotalKb r).used -
        (memBreakdown memtotalKb r).buffers) := min_le_right _ _
  have isFree : (memBreakdown memtotalKb r).free =
      max 0 ((memtotalKb : Int) - (memBreakdown memtotalKb r).used -
        (memBreakdown memtotalKb r).buffers - (memBreakdown memtotalKb r).cached) := rfl
  have total := @total_eq memtotalKb r
  omega

theorem available_le : (memBreakdown memtotalKb r).available ≤ (memBreakdown memtotalKb r).total :=
  min_le_left _ _

theorem available_nonneg : 0 ≤ (memBreakdown memtotalKb r).available := by
  exact le_min (Int.natCast_nonneg _) (add_nonneg (add_nonneg free_nonneg cached_nonneg)
    buffers_nonneg)

end

/-! ## Figures -/

theorem meminfoRows_nonneg (memtotalKb : Nat) (r : Fractions) :
    ∀ row ∈ meminfoRows memtotalKb (memBreakdown memtotalKb r), 0 ≤ row.2 := by
  have total : 0 ≤ (memBreakdown memtotalKb r).total := Int.natCast_nonneg _
  have used := @used_nonneg memtotalKb r
  have cached := @cached_nonneg memtotalKb r
  have anon := scaled_nonneg used (show (0 : ℚ) ≤ 55 / 100 by norm_num)
  have active := scaled_nonneg used (show (0 : ℚ) ≤ 62 / 100 by norm_num)
  have inactive := scaled_nonneg cached (show (0 : ℚ) ≤ 70 / 100 by norm_num)
  have slab := scaled_nonneg total (show (0 : ℚ) ≤ 3 / 100 by norm_num)
  have sreclaim := scaled_nonneg slab (show (0 : ℚ) ≤ 7 / 10 by norm_num)
  have sunreclaim : 0 ≤ scaled (memBreakdown memtotalKb r).total (3 / 100) -
      scaled (scaled (memBreakdown memtotalKb r).total (3 / 100)) (7 / 10) :=
    Int.sub_nonneg.mpr (scaled_le_self slab (by norm_num))
  have modulus : (if (memBreakdown memtotalKb r).total = 0 then 1
      else (memBreakdown memtotalKb r).total) ≠ 0 := by
    split
    · exact one_ne_zero
    · assumption
  simp only [meminfoRows, List.forall_mem_cons, List.not_mem_nil, false_implies, implies_true,
    and_true]
  refine ⟨total, free_nonneg, available_nonneg, buffers_nonneg, cached, le_rfl, active, inactive,
    scaled_nonneg anon (by norm_num), scaled_nonneg anon (by norm_num),
    scaled_nonneg active (by norm_num), inactive, Int.emod_nonneg _ modulus,
    Int.emod_nonneg _ modulus, total, total, le_rfl, le_rfl, by norm_num, le_rfl, anon,
    scaled_nonneg cached (by norm_num), shared_nonneg, sreclaim, slab, sreclaim, sunreclaim,
    by norm_num, scaled_nonneg used (by norm_num), ?_⟩
  refine ⟨le_rfl, le_rfl, le_rfl, le_rfl, scaled_nonneg total (by norm_num),
    scaled_nonneg used (by norm_num), by norm_num, by norm_num, le_rfl, by norm_num, ?_⟩
  refine ⟨le_rfl, le_rfl, le_rfl, le_rfl, le_rfl, le_rfl, le_rfl, le_rfl, le_rfl, le_rfl,
    by norm_num, le_rfl, scaled_nonneg total (by norm_num), scaled_nonneg total (by norm_num),
    le_rfl⟩

theorem parts_iff {used : Int} (nonneg : 0 ≤ used) (inactive : Int) :
    (scaled (scaled used (55 / 100)) (6 / 10) + scaled (scaled used (62 / 100)) (5 / 10) ≤
        scaled used (62 / 100) ∧
      scaled (scaled used (55 / 100)) (1 / 10) + inactive ≤ inactive) ↔ used < 19 := by
  have anon := scaled_div used 55 100
  have active := scaled_div used 62 100
  have activeAnon := scaled_div (scaled used (55 / 100)) 6 10
  have activeFile := scaled_div (scaled used (62 / 100)) 5 10
  have inactiveAnon := scaled_div (scaled used (55 / 100)) 1 10
  push_cast at anon active activeAnon activeFile inactiveAnon
  rw [activeAnon, activeFile, inactiveAnon, anon, active]
  omega

theorem swapUsed_eq (memtotalKb : Nat) : scaled memtotalKb 0 = 0 := by
  rw [scaled, mul_zero, Int.floor_zero]

theorem mib_add (kb more : Int) : mib kb + mib more = mib (kb + more) := by
  rw [mib, mib, mib, Int.cast_add, add_div]

theorem shown (memtotalKb : Nat) (r : Fractions) :
    Shown memtotalKb (memBreakdown memtotalKb r) where
  free := by
    intro args
    simp only [freeMem, freeSwap, swapUsed_eq, sub_zero, List.cons_append, List.nil_append,
      List.forall_mem_cons, List.not_mem_nil, false_implies, implies_true, and_true]
    exact ⟨rfl, rfl, rfl, rfl, rfl, rfl, rfl, rfl, rfl⟩
  meminfo := by
    intro quantity name isField
    cases quantity with
    | used => cases isField
    | buffCache => cases isField
    | swapUsed => cases isField
    | total => cases isField; rfl
    | free => cases isField; rfl
    | shared => cases isField; rfl
    | buffers => cases isField; rfl
    | cached => cases isField; rfl
    | available => cases isField; rfl
    | swapTotal => cases isField; rfl
    | swapFree => cases isField; rfl
  vmstat := by
    simp only [vmstatColumns, List.forall_mem_cons, List.not_mem_nil, false_implies, implies_true,
      and_true]
    exact ⟨rfl, rfl, rfl, rfl⟩
  top := by
    have nothing : mib 0 = 0 := by rw [mib, Int.cast_zero, zero_div]
    simp only [topMem, topSwap, mib_add, List.cons_append, List.nil_append, List.forall_mem_cons,
      List.not_mem_nil, false_implies, implies_true, and_true]
    refine ⟨rfl, rfl, rfl, rfl, rfl, rfl, ?_, rfl⟩
    rw [kb, nothing]

/-- The figures add up exactly while less than 19 kB are in use. -/
theorem adds_up_iff (memtotalKb : Nat) (r : Fractions) :
    AddsUp memtotalKb (memBreakdown memtotalKb r) ↔
      (memtotalKb : ℚ) * (14 / 100 + 30 / 100 * r.used.value) < 19 := by
  have used : (memBreakdown memtotalKb r).used < 19 ↔
      (memtotalKb : ℚ) * (14 / 100 + 30 / 100 * r.used.value) < 19 := by
    apply Int.floor_lt.trans
    rw [Int.cast_natCast]
    exact Iff.rfl
  rw [← used, ← parts_iff used_nonneg (scaled (memBreakdown memtotalKb r).cached (70 / 100))]
  constructor
  · intro addsUp
    exact ⟨addsUp.active, addsUp.inactive⟩
  · intro parts
    refine ⟨total_sum, available_le, meminfoRows_nonneg _ _, parts.1, parts.2, ?_, shown _ _⟩
    exact add_sub_cancel _ _

def noFraction : Fraction := ⟨0, le_rfl, zero_lt_one⟩

/-- In four gigabytes the parts of what is inactive are more than it is. -/
theorem parts_exceed :
    ¬ ∀ (memtotalKb : Nat) (r : Fractions), AddsUp memtotalKb (memBreakdown memtotalKb r) := by
  intro all
  have addsUp := all 4015488 ⟨noFraction, noFraction, noFraction⟩
  have small := (parts_iff used_nonneg _).mp ⟨addsUp.active, addsUp.inactive⟩
  have large : 19 ≤ (memBreakdown 4015488 ⟨noFraction, noFraction, noFraction⟩).used := by
    apply Int.le_floor.mpr
    simp only [noFraction]
    norm_num
  exact absurd small (not_lt.mpr large)

end Memory

end LlmHoneypot
