import LlmHoneypot.Scp.Sessions
import Mathlib.Data.List.Forall2

/-! # Directory trees sent by scp

`scp -r`: what a sender writes for a tree, and where the sink says that its files land. -/

namespace LlmHoneypot

namespace Scp

/-! ## Trees -/

abbrev EntryName :=
  { name : Str // name ≠ [] ∧ ∀ ch ∈ name, ch.toNat ≠ 0 ∧ ch ≠ '\n' ∧ ch ≠ '/' }

structure Entry where
  name : EntryName
  mode : { mode : Str // IsMode mode }
  times : Option (Nat × Nat) := none

/-- The entries of a directory one after the other. -/
inductive Forest
  | nil
  | file (entry : Entry) (data : { data : Bytes // data.length < 2 ^ 63 }) (rest : Forest)
  | directory (entry : Entry) (inside rest : Forest)

def timesLine (times : Nat × Nat) : Bytes :=
  84 :: (Utf8.encode (Text.decimal times.1) ++ 32 :: 48 :: 32 ::
    (Utf8.encode (Text.decimal times.2) ++ [32, 48]))

def Entry.withTimes (entry : Entry) (stream : Bytes) : Bytes :=
  match entry.times with
  | none => stream
  | some times => timesLine times ++ 10 :: stream

namespace Forest

/-- The stream of a sender: `C` and the data of a file, `D` and `E` around a directory. -/
def encode : Forest → Bytes
  | .nil => []
  | .file entry data rest =>
      entry.withTimes (entryLine 67 entry.mode data.1.length entry.name ++
        10 :: (data.1 ++ 0 :: rest.encode))
  | .directory entry inside rest =>
      entry.withTimes (entryLine 68 entry.mode 0 entry.name ++
        10 :: (inside.encode ++ 69 :: 10 :: rest.encode))

def leaves (dirs : List EntryName) : Forest → List (List EntryName × EntryName)
  | .nil => []
  | .file entry _ rest => (dirs, entry.name) :: rest.leaves dirs
  | .directory entry inside rest => inside.leaves (dirs ++ [entry.name]) ++ rest.leaves dirs

end Forest

def destination (target : Str) (leaf : List EntryName × EntryName) : Str :=
  target.rdropWhile (· = '/') ++
    '/' :: Text.join ['/'] ((leaf.1.map Subtype.val) ++ [leaf.2.val])

/-- The file is in no directory of the tree, the target is one that is known to be a directory,
and the name is not cut where it is read. -/
def Placed (target : Str) (leaf : List EntryName × EntryName) : Prop :=
  leaf.1 = [] ∧
    target.rdropWhile (· = '/') ∈
      [".".toList, "/tmp".toList, "/var/tmp".toList, "/dev/shm".toList] ∧
    ((∀ ch ∈ leaf.2.val.head?, ¬ blank ch) ∨ leaf.2.val.length = 1)

/-! ## The stream is read -/

theorem EntryName.inLine (name : EntryName) : ∀ ch ∈ name.val, ch.toNat ≠ 0 ∧ ch.toNat ≠ 10 := by
  intro ch member
  have free := name.2.2 ch member
  refine ⟨free.1, ?_⟩
  intro same
  exact free.2.1 (Char.toNat_inj.mp same)

theorem matchEntry_other {letter : UInt8} {line : Bytes} (other : line.head? ≠ some letter) :
    matchEntry letter line = none := by
  rw [matchEntry, if_neg]
  exact fun matched => other matched.1

theorem timesLine_bytes (times : Nat × Nat) : ∀ byte ∈ timesLine times, byte ≠ 0 ∧ byte ≠ 10 := by
  have numbers : ∀ number, ∀ byte ∈ Utf8.encode (Text.decimal number), byte ≠ 0 ∧ byte ≠ 10 := by
    intro number
    apply encode_bytes
    intro ch inside
    have digit := Decimal.decimal_isDigit inside
    omega
  intro byte member
  simp only [timesLine, List.mem_cons, List.mem_append, List.not_mem_nil, or_false] at member
  rcases member with rfl | first | rfl | rfl | rfl | second | rfl | rfl
  · decide
  · exact numbers _ byte first
  · decide
  · decide
  · decide
  · exact numbers _ byte second
  · decide
  · decide

namespace ScpSink

theorem handleControl_times (sink : ScpSink) (times : Nat × Nat) :
    sink.handleControl (timesLine times) = .ok sink := by
  rw [handleControl, if_neg (by simp [timesLine]), matchEntry_other (by simp [timesLine]),
    matchEntry_other (by simp [timesLine])]
  exact if_neg (by simp [timesLine])

theorem handleControl_directory (sink : ScpSink) (entry : Entry) :
    sink.handleControl (entryLine 68 entry.mode 0 entry.name) =
      .ok { sink with dirStack := sink.dirStack ++ [readName entry.name] } := by
  rw [handleControl, if_neg (by simp [entryLine]), matchEntry_other (by simp [entryLine]),
    matchEntry_entryLine 68 entry.mode.2 0 entry.name.2.1]
  dsimp only
  rw [Utf8.decodeReplace_encode]

theorem handleControl_end (sink : ScpSink) :
    sink.handleControl [69] = .ok { sink with dirStack := sink.dirStack.dropLast } := by
  rw [handleControl, if_neg (by simp), matchEntry_other (by simp), matchEntry_other (by simp)]
  exact if_pos rfl

structure Read (sink next : ScpSink) (names : List Str) : Prop where
  control : next.phase = .control
  between : next.buf = []
  basePath : next.basePath = sink.basePath
  dirStack : next.dirStack = sink.dirStack
  files : ∃ added, next.files = sink.files ++ added ∧ added.map CapturedFile.name = names

theorem Read.trans {sink middle next : ScpSink} {names more : List Str}
    (first : Read sink middle names) (second : Read middle next more) :
    Read sink next (names ++ more) := by
  rcases first.files with ⟨added, files, isNames⟩
  rcases second.files with ⟨later, filesLater, isMore⟩
  refine ⟨second.control, second.between, ?_, ?_, added ++ later, ?_, ?_⟩
  · rw [second.basePath, first.basePath]
  · rw [second.dirStack, first.dirStack]
  · rw [filesLater, files, List.append_assoc]
  · rw [List.map_append, isNames, isMore]

def Goes (sink : ScpSink) (stream : Bytes) (next : ScpSink) (rest : Bytes) : Prop :=
  (sink.feedLoop stream).1 = (next.feedLoop rest).1 ∧
    (sink.feedLoop stream).2.2 = (next.feedLoop rest).2.2

theorem Goes.refl (sink : ScpSink) (stream : Bytes) : Goes sink stream sink stream := ⟨rfl, rfl⟩

theorem Goes.trans {sink middle next : ScpSink} {stream later rest : Bytes}
    (first : Goes sink stream middle later) (second : Goes middle later next rest) :
    Goes sink stream next rest :=
  ⟨first.1.trans second.1, first.2.trans second.2⟩

theorem goes_control {sink next : ScpSink} {line : Bytes} (rest : Bytes)
    (control : sink.phase = .control) (between : sink.buf = [])
    (inLine : ∀ byte ∈ line, byte ≠ 0 ∧ byte ≠ 10) (handled : sink.handleControl line = .ok next) :
    Goes sink (line ++ 10 :: rest) next rest := by
  rw [Goes, feedLoop_control rest control between inLine handled]
  exact ⟨rfl, rfl⟩

theorem goes_withTimes {sink : ScpSink} (entry : Entry) (stream : Bytes)
    (control : sink.phase = .control) (between : sink.buf = []) :
    Goes sink (entry.withTimes stream) sink stream := by
  rw [Entry.withTimes]
  split
  · exact .refl sink stream
  · next times _ =>
    exact goes_control stream control between (timesLine_bytes times) (handleControl_times sink times)

theorem goes_forest (forest : Forest) (dirs : List EntryName) {sink : ScpSink} (rest : Bytes)
    (control : sink.phase = .control) (between : sink.buf = []) :
    ∃ next, Goes sink (forest.encode ++ rest) next rest ∧
      Read sink next ((forest.leaves dirs).map fun leaf => readName leaf.2) := by
  induction forest generalizing dirs sink rest with
  | nil => exact ⟨sink, .refl sink rest, control, between, rfl, rfl, [], by simp, rfl⟩
  | file entry data others induction =>
      let captured := sink.received (readName entry.name) entry.mode data.1
      have goesFile : Goes sink ((Forest.file entry data others).encode ++ rest) captured
          (others.encode ++ rest) := by
        have stream : (Forest.file entry data others).encode ++ rest =
            entry.withTimes (entryLine 67 entry.mode data.1.length entry.name ++
              10 :: (data.1 ++ 0 :: (others.encode ++ rest))) := by
          rw [Forest.encode, Entry.withTimes, Entry.withTimes]
          cases entry.times with
          | none => simp
          | some times => simp
        rw [stream]
        apply (goes_withTimes entry _ control between).trans
        rcases @feedLoop_received _ _ sink data.1 (others.encode ++ rest) control between entry.mode.2
          entry.name.2.1 entry.name.inLine data.2 with ⟨replies, fed⟩
        rw [Goes, fed]
        exact ⟨rfl, rfl⟩
      have readFile : Read sink captured [readName entry.name] :=
        ⟨control, between, rfl, rfl, _, rfl, rfl⟩
      rcases @induction dirs captured rest control between with ⟨next, goesOn, read⟩
      exact ⟨next, goesFile.trans goesOn, readFile.trans read⟩
  | directory entry inside others inductionInside inductionRest =>
      let entered : ScpSink := { sink with dirStack := sink.dirStack ++ [readName entry.name] }
      have stream : (Forest.directory entry inside others).encode ++ rest =
          entry.withTimes (entryLine 68 entry.mode 0 entry.name ++
            10 :: (inside.encode ++ ([69] ++ 10 :: (others.encode ++ rest)))) := by
        rw [Forest.encode, Entry.withTimes, Entry.withTimes]
        cases entry.times with
        | none => simp
        | some times => simp
      have goesIn : Goes sink ((Forest.directory entry inside others).encode ++ rest) entered
          (inside.encode ++ ([69] ++ 10 :: (others.encode ++ rest))) := by
        rw [stream]
        apply (goes_withTimes entry _ control between).trans
        exact goes_control _ control between
          (entryLine_bytes (by decide) entry.mode.2 0 entry.name.inLine)
          (handleControl_directory sink entry)
      rcases @inductionInside (dirs ++ [entry.name]) entered ([69] ++ 10 :: (others.encode ++ rest))
        control between with ⟨inner, goesInside, readInside⟩
      -- The end of the directory takes its name off the stack again.
      let left : ScpSink := { inner with dirStack := inner.dirStack.dropLast }
      have goesOut : Goes inner ([69] ++ 10 :: (others.encode ++ rest)) left (others.encode ++ rest) :=
        goes_control _ readInside.control readInside.between (by simp) (handleControl_end inner)
      have readLeft : Read sink left
          ((inside.leaves (dirs ++ [entry.name])).map fun leaf => readName leaf.2) := by
        refine ⟨readInside.control, readInside.between, readInside.basePath, ?_, readInside.files⟩
        change inner.dirStack.dropLast = sink.dirStack
        rw [readInside.dirStack]
        exact List.dropLast_concat
      rcases @inductionRest dirs left rest readLeft.control readLeft.between with ⟨next, goesOn, read⟩
      refine ⟨next, ((goesIn.trans goesInside).trans goesOut).trans goesOn, ?_⟩
      rw [Forest.leaves, List.map_append]
      exact readLeft.trans read

theorem feed_forest (target : Str) (maxBytes : Nat) (forest : Forest) :
    let sink := (ScpSink.feed { basePath := target, maxBytes } forest.encode).1
    sink.basePath = target ∧ sink.dirStack = [] ∧
      sink.files.map CapturedFile.name = (forest.leaves []).map fun leaf => readName leaf.2 := by
  rcases @goes_forest forest [] { basePath := target, maxBytes } [] rfl rfl with ⟨next, goes, read⟩
  rw [List.append_nil, Goes, feedLoop_nil] at goes
  have fed : (ScpSink.feed { basePath := target, maxBytes } forest.encode).1 = next := by
    rcases isFed : ScpSink.feedLoop { basePath := target, maxBytes } forest.encode with
      ⟨last, out, raised⟩
    rw [isFed] at goes
    rcases goes with ⟨isLast, isRaised⟩
    cases isRaised
    rw [feed, isFed]
    exact isLast
  rcases read.files with ⟨added, files, names⟩
  rw [fed]
  refine ⟨read.basePath, read.dirStack, ?_⟩
  rw [files]
  exact names

end ScpSink

/-! ## Where the files land -/

theorem readName_eq_iff {name : Str} (named : name ≠ []) :
    readName name = name ↔ (∀ ch ∈ name.head?, ¬ blank ch) ∨ name.length = 1 := by
  cases name with
  | nil => exact absurd rfl named
  | cons ch rest =>
      by_cases isBlank : blank ch
      · have dropped : (ch :: rest).dropWhile (blank ·) = rest.dropWhile (blank ·) :=
          List.dropWhile_cons_of_pos (by simpa using isBlank)
        have shorter := (List.dropWhile_suffix (l := rest) (blank ·)).length_le
        rw [readName, dropped]
        split
        · rw [List.getLast?_cons, Option.toList_some]
          constructor
          · intro same
            right
            rw [← same]
            rfl
          · intro either
            rcases either with begins | one
            · exact absurd isBlank (begins ch rfl)
            · rw [List.eq_nil_of_length_eq_zero (Nat.succ.inj one)]
              rfl
        · apply iff_of_false
          · intro same
            have length := congrArg List.length same
            rw [List.length_cons] at length
            omega
          · intro either
            rcases either with begins | one
            · exact begins ch rfl isBlank
            · next some_ =>
              rw [List.eq_nil_of_length_eq_zero (Nat.succ.inj one)] at some_
              exact some_ rfl
      · have begins : ∀ other ∈ (ch :: rest).head?, ¬ blank other := by
          intro other isHead
          rw [← Option.some.inj isHead]
          exact isBlank
        exact iff_of_true (readName_of_begins begins) (.inl begins)

theorem length_readName_le (name : Str) : (readName name).length ≤ name.length := by
  rw [readName]
  split
  · cases name with
    | nil => simp
    | cons ch rest => simp [List.getLast?_cons]
  · exact (List.dropWhile_suffix _).length_le

theorem join_dir (dir : EntryName) (dirs : List EntryName) (name : EntryName) :
    Text.join ['/'] (((dir :: dirs).map Subtype.val) ++ [name.val]) =
      dir.val ++ '/' :: Text.join ['/'] ((dirs.map Subtype.val) ++ [name.val]) := by
  cases dirs with
  | nil => simp [Text.join, List.intercalate]
  | cons second rest => simp [Text.join, List.intercalate]

theorem join_names (dirs : List EntryName) (name : EntryName) :
    ∃ ch rest, Text.join ['/'] ((dirs.map Subtype.val) ++ [name.val]) = ch :: rest ∧ ch ≠ '/' := by
  have begins : ∀ (first : EntryName) (rest : Str), ∃ ch others, first.val ++ rest = ch :: others ∧
      ch ≠ '/' := by
    intro first rest
    rcases first with ⟨_ | ⟨ch, others⟩, named, free⟩
    · exact absurd rfl named
    · exact ⟨ch, others ++ rest, rfl, (free ch (List.mem_cons_self ..)).2.2⟩
  cases dirs with
  | nil =>
      rw [List.map_nil, List.nil_append, Text.join, List.intercalate_singleton]
      simpa using begins name []
  | cons dir dirs =>
      rw [join_dir]
      exact begins dir _

theorem length_join_names (dirs : List EntryName) (name : EntryName) :
    name.val.length + dirs.length ≤
      (Text.join ['/'] ((dirs.map Subtype.val) ++ [name.val])).length := by
  induction dirs with
  | nil => simp [Text.join]
  | cons dir dirs induction =>
      rw [join_dir, List.length_append, List.length_cons, List.length_cons]
      omega

theorem mem_second {first second : Str} {rest : List Str} (text : Str) :
    text ∈ first :: second :: rest ↔ text = second ∨ text ∈ first :: rest := by
  simp only [List.mem_cons]
  exact or_left_comm

theorem destPath_eq_iff {target : Str} {sink : ScpSink} (basePath : sink.basePath = target)
    (outside : sink.dirStack = []) {file : CapturedFile} {leaf : List EntryName × EntryName}
    (isName : file.name = readName leaf.2) :
    sink.destPath file = destination target leaf ↔ Placed target leaf := by
  have path : ∀ base : Str, base ++ '/' :: file.name =
        base ++ '/' :: Text.join ['/'] ((leaf.1.map Subtype.val) ++ [leaf.2.val]) ↔
      leaf.1 = [] ∧ readName leaf.2 = leaf.2.val := by
    intro base
    rw [List.append_cancel_left_eq, List.cons_inj_right, isName]
    constructor
    · intro same
      have length := congrArg List.length same
      have short := length_readName_le leaf.2.val
      have long := length_join_names leaf.1 leaf.2
      have outermost : leaf.1 = [] := List.eq_nil_of_length_eq_zero (by omega)
      rw [outermost] at same
      refine ⟨outermost, same.trans ?_⟩
      simp [Text.join]
    · intro parts
      rw [parts.1, parts.2]
      simp [Text.join]
  rw [ScpSink.destPath, destination, Placed, basePath, if_pos outside, ← readName_eq_iff leaf.2.2.1]
  by_cases root : target.rdropWhile (· = '/') = []
  · -- The name is appended to the root with a slash too many.
    rw [root]
    rcases join_names leaf.1 leaf.2 with ⟨ch, rest, isJoin, visible⟩
    rw [isJoin]
    apply iff_of_false
    · intro same
      have second := (List.cons.inj (List.cons.inj same).2).1
      exact visible second.symm
    · intro placed
      exact absurd placed.2.1 (by decide)
  · rw [if_neg root]
    have noSlash : ['/'].isSuffixOf (target.rdropWhile (· = '/')) = false := by
      rw [← Bool.not_eq_true]
      intro ends
      rcases List.isSuffixOf_iff_suffix.mp ends with ⟨front, isFront⟩
      have last := List.rdropWhile_last_not (fun ch => decide (ch = '/')) target root
      simp [← isFront] at last
    rw [noSlash, Bool.false_or, ScpSink.looksLikeDir, noSlash, Bool.or_false]
    by_cases known : target.rdropWhile (· = '/') ∈
        [".".toList, "/tmp".toList, "/var/tmp".toList, "/dev/shm".toList]
    · have listed : target.rdropWhile (· = '/') ∈
          [".".toList, "/".toList, "/tmp".toList, "/var/tmp".toList, "/dev/shm".toList] :=
        (mem_second _).mpr (.inr known)
      rw [if_pos (decide_eq_true listed), path, and_iff_right known]
    · have unlisted : target.rdropWhile (· = '/') ∉
          [".".toList, "/".toList, "/tmp".toList, "/var/tmp".toList, "/dev/shm".toList] := by
        intro listed
        rcases (mem_second _).mp listed with same | inRest
        · rw [same] at noSlash
          cases noSlash
        · exact known inRest
      rw [if_neg (by simpa using unlisted)]
      apply iff_of_false
      · intro same
        have length := congrArg List.length same
        rw [List.length_append, List.length_cons] at length
        omega
      · exact fun placed => known placed.2.1

/-- The files of a tree, when the whole stream of it has been read. -/
theorem destPath_forest_iff (target : Str) (maxBytes : Nat) (forest : Forest) (chunks : List Bytes)
    (sent : chunks.flatten = forest.encode) :
    let sink := (ScpSink.feedAll { basePath := target, maxBytes } chunks).1
    List.Forall₂
      (fun leaf file => sink.destPath file = destination target leaf ↔ Placed target leaf)
      (forest.leaves []) sink.files := by
  intro sink
  have fed := ScpSink.feed_forest target maxBytes forest
  rw [← sent, ← ScpSink.feedAll_eq] at fed
  rcases fed with ⟨basePath, outside, names⟩
  have pairs : List.Forall₂ (fun leaf file => file.name = readName leaf.2) (forest.leaves [])
      sink.files := by
    have same : List.Forall₂ Eq (sink.files.map CapturedFile.name)
        ((forest.leaves []).map fun leaf => readName leaf.2) := by
      rw [List.forall₂_eq_eq_eq]
      exact names
    rw [List.forall₂_map_left_iff, List.forall₂_map_right_iff] at same
    exact same.flip
  exact pairs.imp fun leaf file isName => destPath_eq_iff basePath outside isName

section Examples

theorem isMode_directory : IsMode ['0', '7', '5', '5'] := ⟨rfl, by simp⟩

theorem isMode_file : IsMode ['0', '6', '4', '4'] := ⟨rfl, by simp⟩

def mydir : Forest :=
  .directory { name := ⟨['m', 'y', 'd', 'i', 'r'], by simp⟩, mode := ⟨_, isMode_directory⟩ }
    (.file { name := ⟨['i', 'n', 'n', 'e', 'r'], by simp⟩, mode := ⟨_, isMode_file⟩ }
      ⟨Utf8.encode "INNER".toList, by decide⟩ .nil)
    .nil

theorem destPath_mydir_iff :
    let sink := (ScpSink.feedAll { basePath := "/tmp".toList, maxBytes := 100 } [mydir.encode]).1
    List.Forall₂
      (fun leaf file => sink.destPath file = destination "/tmp".toList leaf ↔
        Placed "/tmp".toList leaf)
      (mydir.leaves []) sink.files :=
  destPath_forest_iff "/tmp".toList 100 mydir [mydir.encode] (by simp)

/-- The file in the directory is said to land beside it. -/
theorem mydir_lost :
    let sink := (ScpSink.feedAll { basePath := "/tmp".toList } [mydir.encode]).1
    sink.files.map sink.destPath = ["/tmp/inner".toList] ∧
      (mydir.leaves []).map (destination "/tmp".toList) = ["/tmp/mydir/inner".toList] := by
  decide +kernel

end Examples

end Scp

end LlmHoneypot
