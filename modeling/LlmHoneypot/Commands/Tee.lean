import LlmHoneypot.Commands.Operands
import LlmHoneypot.Foundation.TextLines
import LlmHoneypot.Foundation.Utf8Codec
import LlmHoneypot.HoneyFs.Contents

/-! # tee

`commands/tee.py`: what the command passes on, and what its files hold and show afterwards. -/

namespace LlmHoneypot

namespace Tee

open HoneyFs
open Operands (Place)

structure State where
  tree : HoneyPotFilesystem
  append : Bool := false
  teeFiles : List Str := []
  writtenBytes : Nat := 0
  stdout : Bytes := []
  errors : List Str := []

def State.errorWrite (state : State) (parts : List Str) : State :=
  { state with errors := state.errors ++ [parts.flatten] }

/-- What the command reads: all of a pipe, or lines that are typed until the end of input. -/
inductive Input
  | pipe (data : Bytes)
  | typed (lines : List Str) (plain : ∀ line ∈ lines, '\n' ∉ line)

def Input.bytes : Input → Bytes
  | pipe data => data
  | typed lines _ => lines.flatMap fun line => Utf8.encode (line ++ ['\n'])

variable (place : Place)

/-! ## The command -/

def teeGetopt (args : List Str) : Except Str (List Str × List Str) :=
  Getopt.gnuGetopt "aip".toList ["help".toList, "append".toList, "version".toList] args

def isAppend (given : List Str) : Bool := given.any ["-a".toList, "--append".toList].contains

def openOne (state : State) (arg : Str) : Except Raised State := do
  let pname ← resolvePath place.home arg place.cwd
  if state.tree.isdir place.limit pname then
    .ok (state.errorWrite ["tee: ".toList, arg, ": Is a directory\n".toList])
  else
    let fname ← resolvePath place.home (OsPath.dirname pname) place.cwd
    if ¬ state.tree.isdir place.limit fname then
      .ok (state.errorWrite ["tee: ".toList, arg, ": No such file or directory\n".toList])
    else
      match state.tree.mkfile place.limit pname place.uid place.gid 0 0o644 place.now with
      | .error .fileNotFound =>
          .ok (state.errorWrite ["tee: ".toList, arg, ": No such file or directory\n".toList])
      | .error raised => .error raised
      | .ok (tree, _) => .ok { state with tree, teeFiles := state.teeFiles ++ [pname] }

def openAll (append : Bool) (operands : List Str) (tree : HoneyPotFilesystem) :
    Except Raised State :=
  operands.foldlM (openOne place) { tree, append }

def updateSizes (tree : HoneyPotFilesystem) (files : List Str) (size : Nat) :
    Except Raised HoneyPotFilesystem :=
  files.foldlM (fun tree outf => tree.updateSize place.limit outf size) tree

def writeLine (state : State) (line : Str) : Except Raised State := do
  let data := Utf8.encode (line ++ ['\n'])
  let writtenBytes := state.writtenBytes + data.length
  let tree ← updateSizes place state.tree state.teeFiles writtenBytes
  .ok { state with tree, writtenBytes, stdout := state.stdout ++ data }

def outputLines (inp : Str) : List Str :=
  let lines := Text.splitChar '\n' inp
  if lines.getLast? = some [] then lines.dropLast else lines

def output (state : State) (inb : Bytes) : Except Raised State :=
  if inb = [] then .ok state
  else
    match Utf8.decode inb with
    | none => .error .valueError
    | some inp => (outputLines inp).foldlM (writeLine place) state

def lineReceived (state : State) (line : Str) : Except Raised State :=
  output place state (Utf8.encode line)

def TEE_HELP : Str := ("Usage: tee [OPTION]... [FILE]...\n" ++
  "Copy standard input to each FILE, and also to standard output.\n\n" ++
  "  -a, --append              append to the given FILEs, do not overwrite\n" ++
  "  -i, --ignore-interrupts   ignore interrupt signals\n" ++
  "  -p                        diagnose errors writing to non pipes\n" ++
  "      --output-error[=MODE]   set behavior on write error.  See MODE below\n" ++
  "      --help     display this help and exit\n" ++
  "      --version  output version information and exit\n\n" ++
  "MODE determines behavior with write errors on the outputs:\n" ++
  "  'warn'         diagnose errors writing to any output\n" ++
  "  'warn-nopipe'  diagnose errors writing to any output not a pipe\n" ++
  "  'exit'         exit on error writing to any output\n" ++
  "  'exit-nopipe'  exit on error writing to any output not a pipe\n" ++
  "The default MODE for the -p option is 'warn-nopipe'.\n" ++
  "The default operation when --output-error is not specified, is to\n" ++
  "exit immediately on error writing to a pipe, and diagnose errors\n" ++
  "writing to non pipe outputs.\n\n" ++
  "GNU coreutils online help: <https://www.gnu.org/software/coreutils/>\n" ++
  "Full documentation <https://www.gnu.org/software/coreutils/tee>\n" ++
  "or available locally via: info '(coreutils) tee invocation'\n").toList

/-- What `start` and the lines after it pass on; an empty pipe leaves the command to lines that
are typed. -/
def readInput (state : State) : Input → Except Raised State
  | .pipe data => output place state data
  | .typed lines _ => lines.foldlM (lineReceived place) state

/-- The command from its start to its exit at the end of the input. -/
def tee (args : List Str) (input : Input) (tree : HoneyPotFilesystem) : Except Raised State :=
  match teeGetopt args with
  | .error opt =>
      .ok (({ tree } : State).errorWrite ["tee: invalid option -- '".toList, opt,
        "'\nTry 'tee --help' for more information.\n".toList])
  | .ok (given, operands) =>
      if "--help".toList ∈ given then .ok { tree, stdout := Utf8.encode TEE_HELP }
      else
        openAll place (isAppend given) operands tree >>= (readInput place · input)

/-! ## Lines that are passed on -/

theorem outputLines_next {line : Str} (free : '\n' ∉ line) (rest : Str) :
    outputLines (line ++ '\n' :: rest) = line :: outputLines rest := by
  have some_ := Text.splitChar_ne_nil '\n' rest
  simp only [outputLines, Text.splitChar_append free]
  rw [List.getLast?_cons_of_ne_nil some_]
  split
  · rw [List.dropLast_cons_of_ne_nil some_]
  · rfl

def ended (inp : Str) : Str := if TextLines.Terminated '\n' inp then inp else inp ++ ['\n']

theorem flatMap_outputLines (inp : Str) : (outputLines inp).flatMap (· ++ ['\n']) =
    if TextLines.Terminated '\n' inp then inp else inp ++ ['\n'] := by
  induction inp using @TextLines.induction_lines _ _ '\n' with
  | last line free =>
      rw [outputLines, Text.splitChar_free free]
      by_cases empty : line = []
      · rw [empty]
        rfl
      · simp [TextLines.terminated_last free, empty]
  | next line rest free induction =>
      rw [outputLines_next free, List.flatMap_cons, induction]
      by_cases terminated : TextLines.Terminated '\n' rest
      · rw [if_pos terminated, if_pos ((TextLines.terminated_next line rest).mpr terminated)]
        simp
      · rw [if_neg terminated,
          if_neg (fun whole => terminated ((TextLines.terminated_next line rest).mp whole))]
        simp

/-! ## Files that the command made -/

structure IsNew (entry : Entry) : Prop where
  isFile : entry.type = .file
  noReal : entry.realfile = none
  isList : ∃ entries, entry.contents = .list entries
  notExecutable : entry.mode &&& S_IXUSR = 0

theorem IsNew.contents {entry : Entry} (isNew : IsNew entry) (host : Host) :
    HoneyPotFilesystem.entryContents host entry = .ok [] := by
  rcases isNew.isList with ⟨entries, isList⟩
  rw [HoneyPotFilesystem.entryContents, isNew.isFile, isNew.noReal, isList]
  simp [isNew.notExecutable]

/-- The entries from `start` on are new files without a size. -/
def Fresh (start : Nat) (tree : HoneyPotFilesystem) : Prop :=
  start ≤ tree.heap.next ∧ ∀ reference, start ≤ reference → reference < tree.heap.next →
    IsNew (tree.entry reference) ∧ (tree.entry reference).size = 0

section

variable {start : Nat} {tree made : HoneyPotFilesystem} {place : Place}

theorem Fresh.setChildren (fresh : Fresh start tree) (directory : Nat) (entries : List Nat) :
    Fresh start (tree.setChildren directory entries) := by
  refine ⟨fresh.1, ?_⟩
  intro reference least below
  have old := fresh.2 reference least below
  rw [entry_setChildren]
  split
  · exact ⟨⟨old.1.isFile, old.1.noReal, ⟨entries, rfl⟩, old.1.notExecutable⟩, old.2⟩
  · exact old

theorem Fresh.mkfile (fresh : Fresh start tree) {limit uid gid ctime : Nat} {path : Str}
    {isMade : Bool} (makes : tree.mkfile limit path uid gid 0 0o644 ctime = .ok (made, isMade)) :
    Fresh start made := by
  unfold HoneyPotFilesystem.mkfile at makes
  split at makes
  · rw [← (Prod.mk.inj (Except.ok.inj makes)).1]
    exact fresh
  · split at makes
    · cases makes
    · rcases ok_of_bind makes with ⟨dir, -, rest⟩
      rcases ok_of_bind rest with ⟨cleared, clears, rest⟩
      rcases ok_of_bind rest with ⟨last, appends, rest⟩
      rw [← (Prod.mk.inj (Except.ok.inj rest)).1]
      have kept : Fresh start cleared := by
        rcases ok_of_bind clears with ⟨names, -, clears⟩
        split at clears
        · rw [← Except.ok.inj clears]
          exact fresh
        · split at clears
          · rw [← Except.ok.inj clears]
            exact fresh
          · rcases remove_ok clears with ⟨entries, rfl⟩
            exact fresh.setChildren dir entries
      rw [append_ok appends]
      apply Fresh.setChildren
      refine ⟨Nat.le_succ_of_le kept.1, ?_⟩
      intro reference least below
      by_cases isNext : reference = cleared.heap.next
      · rw [isNext, HoneyPotFilesystem.entry, Heap.read_alloc_self]
        have mode : 0o644 &&& S_IXUSR = 0 := by decide
        exact ⟨⟨rfl, rfl, ⟨[], rfl⟩, mode⟩, rfl⟩
      · have old : reference < cleared.heap.next := by
          have next : reference < cleared.heap.next + 1 := below
          omega
        rw [HoneyPotFilesystem.entry, Heap.read_alloc_other _ old]
        exact kept.2 reference least old

theorem openOne_ok {state next : State} {arg : Str} (fresh : Fresh start state.tree)
    (opens : openOne place state arg = .ok next) :
    Fresh start next.tree ∧ next.writtenBytes = state.writtenBytes ∧
      next.stdout = state.stdout ∧
      ((∃ message, next.errors = state.errors ++ [message]) ∨
        next.errors = state.errors ∧ ∃ pname, resolvePath place.home arg place.cwd = .ok pname ∧
          next.teeFiles = state.teeFiles ++ [pname]) := by
  rcases ok_of_bind opens with ⟨pname, resolves, opens⟩
  split at opens
  · rw [← Except.ok.inj opens]
    exact ⟨fresh, rfl, rfl, .inl ⟨_, rfl⟩⟩
  · rcases ok_of_bind opens with ⟨fname, -, opens⟩
    split at opens
    · rw [← Except.ok.inj opens]
      exact ⟨fresh, rfl, rfl, .inl ⟨_, rfl⟩⟩
    · split at opens
      · rw [← Except.ok.inj opens]
        exact ⟨fresh, rfl, rfl, .inl ⟨_, rfl⟩⟩
      · cases opens
      · next makes =>
        rw [← Except.ok.inj opens]
        exact ⟨fresh.mkfile makes, rfl, rfl, .inr ⟨rfl, pname, resolves, rfl⟩⟩

theorem openOnes_ok {operands : List Str} {state last : State} (fresh : Fresh start state.tree)
    (opens : operands.foldlM (openOne place) state = .ok last) :
    Fresh start last.tree ∧ last.writtenBytes = state.writtenBytes ∧
      last.stdout = state.stdout ∧ state.errors <+: last.errors ∧
      (last.errors = [] → state.teeFiles ⊆ last.teeFiles ∧
        ∀ arg ∈ operands, ∃ pname ∈ last.teeFiles,
          resolvePath place.home arg place.cwd = .ok pname) := by
  induction operands generalizing state with
  | nil =>
      rw [← Except.ok.inj opens]
      refine ⟨fresh, rfl, rfl, List.prefix_rfl, fun _ => ⟨List.Subset.refl _, ?_⟩⟩
      intro arg member
      cases member
  | cons arg operands induction =>
      rw [List.foldlM_cons] at opens
      rcases ok_of_bind opens with ⟨next, first, rest⟩
      rcases openOne_ok fresh first with ⟨nextFresh, written, stdout, outcome⟩
      rcases induction nextFresh rest with ⟨lastFresh, writtenLast, stdoutLast, grows, files⟩
      refine ⟨lastFresh, writtenLast.trans written, stdoutLast.trans stdout, ?_, ?_⟩
      · rcases outcome with ⟨message, refused⟩ | ⟨same, -⟩
        · exact (refused ▸ List.prefix_append ..).trans grows
        · exact same ▸ grows
      · intro silent
        rcases outcome with ⟨message, refused⟩ | ⟨-, pname, resolves, added⟩
        · rw [silent, refused, List.prefix_nil] at grows
          exact absurd grows (List.append_ne_nil_of_right_ne_nil _ (List.cons_ne_nil _ _))
        · rcases files silent with ⟨kept, resolved⟩
          rw [added] at kept
          refine ⟨fun _ member => kept (List.mem_append_left _ member), ?_⟩
          intro other member
          rcases List.mem_cons.mp member with rfl | member
          · exact ⟨pname, kept (List.mem_append_right _ (List.mem_singleton_self _)), resolves⟩
          · exact resolved other member

end

/-! ## Writing -/

structure Held (place : Place) (state : State) : Prop where
  counted : state.writtenBytes = state.stdout.length
  led : ∀ pname ∈ state.teeFiles, ∃ file,
    state.tree.getfile true place.limit pname = .ok (some file) ∧
      IsNew (state.tree.entry file) ∧ (state.tree.entry file).size = state.writtenBytes

section

variable {place : Place}

theorem updateSizes_ok {files : List Str} {tree : HoneyPotFilesystem} (size : Nat)
    (led : ∀ pname ∈ files, ∃ file, tree.getfile true place.limit pname = .ok (some file) ∧
      (tree.entry file).type = .file) :
    ∃ after, updateSizes place tree files size = .ok after ∧ Resized after tree ∧
      (∀ file, (tree.entry file).size = size → (after.entry file).size = size) ∧
      ∀ pname ∈ files, ∀ file, tree.getfile true place.limit pname = .ok (some file) →
        (after.entry file).size = size := by
  induction files generalizing tree with
  | nil => exact ⟨tree, rfl, ⟨rfl, rfl, fun _ => rfl⟩, fun _ => id, fun _ none => by cases none⟩
  | cons pname files induction =>
      rcases led pname List.mem_cons_self with ⟨file, leads, isFile⟩
      have resized := resized_modify tree file size
      have updates : tree.updateSize place.limit pname size =
          .ok (tree.modify file fun entry => { entry with size }) := by
        rw [HoneyPotFilesystem.updateSize, leads]
        exact if_neg (not_not.mpr isFile)
      have sized : ∀ other, ((tree.modify file fun entry => { entry with size }).entry other).size =
          if other = file then size else (tree.entry other).size := by
        intro other
        rw [entry_modify]
        split
        · rfl
        · rfl
      generalize tree.modify file (fun entry => { entry with size }) = changed at resized updates sized
      have others : ∀ pname ∈ files, ∃ file,
          changed.getfile true place.limit pname = .ok (some file) ∧
            (changed.entry file).type = .file := by
        intro other member
        rcases led other (List.mem_cons_of_mem _ member) with ⟨found, leads, isFile⟩
        exact ⟨found, (resized.alike.getfile ..).trans leads, (resized.alike.types found).trans isFile⟩
      rcases induction others with ⟨after, updated, resizedAfter, keeps, all⟩
      refine ⟨after, ?_, resizedAfter.trans resized, ?_, ?_⟩
      · rw [updateSizes, List.foldlM_cons, updates]
        exact updated
      · intro other same
        apply keeps
        rw [sized]
        split
        · rfl
        · exact same
      · intro other member found otherLeads
        rcases List.mem_cons.mp member with rfl | member
        · rw [leads] at otherLeads
          cases otherLeads
          apply keeps
          rw [sized, if_pos rfl]
        · exact all other member found ((resized.alike.getfile ..).trans otherLeads)

theorem IsNew.resized {left right : HoneyPotFilesystem} (resized : Resized left right) {file : Nat}
    (isNew : IsNew (right.entry file)) : IsNew (left.entry file) := by
  have same := resized.entries file
  constructor
  · exact (congrArg Entry.type same).trans isNew.isFile
  · exact (congrArg Entry.realfile same).trans isNew.noReal
  · rcases isNew.isList with ⟨entries, isList⟩
    exact ⟨entries, (congrArg Entry.contents same).trans isList⟩
  · have mode := congrArg Entry.mode same
    exact (congrArg (· &&& S_IXUSR) mode).trans isNew.notExecutable

structure Passed (state next : State) (data : Bytes) : Prop where
  files : next.teeFiles = state.teeFiles
  stdout : next.stdout = state.stdout ++ data
  home : next.tree.home = state.tree.home

theorem writeLine_ok {state : State} (held : Held place state) (line : Str) :
    ∃ next, writeLine place state line = .ok next ∧ Held place next ∧
      Passed state next (Utf8.encode (line ++ ['\n'])) := by
  have led : ∀ pname ∈ state.teeFiles, ∃ file,
      state.tree.getfile true place.limit pname = .ok (some file) ∧
        (state.tree.entry file).type = .file := by
    intro pname member
    rcases held.led pname member with ⟨file, leads, isNew, -⟩
    exact ⟨file, leads, isNew.isFile⟩
  rcases updateSizes_ok (state.writtenBytes + (Utf8.encode (line ++ ['\n'])).length) led with
    ⟨after, updates, resized, -, all⟩
  refine ⟨{ state with
    tree := after
    writtenBytes := state.writtenBytes + (Utf8.encode (line ++ ['\n'])).length
    stdout := state.stdout ++ Utf8.encode (line ++ ['\n']) }, ?_, ⟨?_, ?_⟩,
    ⟨rfl, rfl, resized.home⟩⟩
  · simp only [writeLine, updates]
    rfl
  · rw [List.length_append, held.counted]
  · intro pname member
    rcases held.led pname member with ⟨file, leads, isNew, -⟩
    exact ⟨file, (resized.alike.getfile ..).trans leads, isNew.resized resized,
      all pname member file leads⟩

theorem Passed.trans {first second third : State} {data more : Bytes}
    (left : Passed first second data) (right : Passed second third more) :
    Passed first third (data ++ more) where
  files := right.files.trans left.files
  stdout := by rw [right.stdout, left.stdout, List.append_assoc]
  home := right.home.trans left.home

theorem writeLines_ok {state : State} (held : Held place state) (lines : List Str) :
    ∃ next, lines.foldlM (writeLine place) state = .ok next ∧ Held place next ∧
      Passed state next (Utf8.encode (lines.flatMap (· ++ ['\n']))) := by
  induction lines generalizing state with
  | nil => exact ⟨state, rfl, held, rfl, (List.append_nil _).symm, rfl⟩
  | cons line lines induction =>
      rcases writeLine_ok held line with ⟨next, writes, heldNext, passed⟩
      rcases induction heldNext with ⟨last, rest, heldLast, passedLast⟩
      refine ⟨last, ?_, heldLast, ?_⟩
      · rw [List.foldlM_cons, writes]
        exact rest
      · have whole := passed.trans passedLast
        rw [← Utf8.encode_append] at whole
        exact whole

theorem output_ok {state : State} (held : Held place state) (inp : Str) :
    ∃ next, output place state (Utf8.encode inp) = .ok next ∧ Held place next ∧
      Passed state next (Utf8.encode (ended inp)) := by
  rw [output]
  split
  · next empty =>
    have nothing : inp = [] := by
      have decoded := Utf8.decode_encode inp
      rw [empty] at decoded
      exact (Option.some.inj decoded).symm
    rw [nothing]
    exact ⟨state, rfl, held, rfl, (List.append_nil _).symm, rfl⟩
  · rw [Utf8.decode_encode, ended, ← flatMap_outputLines]
    exact writeLines_ok held (outputLines inp)

theorem lineReceiveds_ok {state : State} (held : Held place state) (lines : List Str) :
    ∃ next, lines.foldlM (lineReceived place) state = .ok next ∧ Held place next ∧
      Passed state next (Utf8.encode (lines.flatMap ended)) := by
  induction lines generalizing state with
  | nil => exact ⟨state, rfl, held, rfl, (List.append_nil _).symm, rfl⟩
  | cons line lines induction =>
      rcases output_ok held line with ⟨next, receives, heldNext, passed⟩
      rcases induction heldNext with ⟨last, rest, heldLast, passedLast⟩
      refine ⟨last, ?_, heldLast, ?_⟩
      · rw [List.foldlM_cons, lineReceived, receives]
        exact rest
      · have whole := passed.trans passedLast
        rw [← Utf8.encode_append] at whole
        exact whole

/-- What the command passes on; `none` where it raises. -/
def passedOn : Input → Option Bytes
  | .pipe data => (Utf8.decode data).map fun inp => Utf8.encode (ended inp)
  | .typed lines _ => some (Utf8.encode (lines.flatMap ended))

theorem readInput_ok {state : State} (held : Held place state) {input : Input} {data : Bytes}
    (passes : passedOn input = some data) :
    ∃ next, readInput place state input = .ok next ∧ Held place next ∧ Passed state next data := by
  cases input with
  | pipe read =>
      rcases Option.map_eq_some_iff.mp passes with ⟨inp, decoded, rfl⟩
      rw [readInput, ← Utf8.encode_decode decoded]
      exact output_ok held inp
  | typed lines plain =>
      rw [← Option.some.inj passes]
      exact lineReceiveds_ok held lines

theorem readInput_none {input : Input} (nothing : passedOn input = none) (state : State) :
    readInput place state input = .error .valueError := by
  cases input with
  | typed lines plain => cases nothing
  | pipe data =>
      have undecoded := Option.map_eq_none_iff.mp nothing
      rw [readInput, output, undecoded, if_neg]
      intro empty
      rw [empty] at undecoded
      cases undecoded

end

/-! ## What is passed on -/

/-- The input is text whose last line ends, or no typed line is empty. -/
def Input.Passes : Input → Prop
  | .pipe data => ∃ inp, Utf8.decode data = some inp ∧ TextLines.Terminated '\n' inp
  | .typed lines _ => [] ∉ lines

theorem length_encode_newline (line : Str) :
    (Utf8.encode (line ++ ['\n'])).length = (Utf8.encode line).length + 1 := by
  rw [Utf8.encode_append, List.length_append]
  rfl

theorem ended_of_line {line : Str} (plain : '\n' ∉ line) :
    ended line = if line = [] then [] else line ++ ['\n'] := by
  rw [ended]
  by_cases empty : line = []
  · rw [if_pos ((TextLines.terminated_last plain).mpr empty), if_pos empty, empty]
  · rw [if_neg (fun ends => empty ((TextLines.terminated_last plain).mp ends)), if_neg empty]

theorem length_typed {lines : List Str} (plain : ∀ line ∈ lines, '\n' ∉ line) :
    (Input.typed lines plain).bytes.length =
      (Utf8.encode (lines.flatMap ended)).length + lines.count [] := by
  induction lines with
  | nil => rfl
  | cons line lines induction =>
      have rest := induction fun other member => plain other (List.mem_cons_of_mem _ member)
      rw [Input.bytes] at rest ⊢
      rw [List.flatMap_cons, List.flatMap_cons, Utf8.encode_append (ended line), List.length_append,
        List.length_append, rest, ended_of_line (plain line List.mem_cons_self)]
      by_cases empty : line = []
      · rw [empty, if_pos rfl, List.count_cons_self, List.nil_append]
        have newline : (Utf8.encode ['\n']).length = 1 := rfl
        have nothing : (Utf8.encode []).length = 0 := rfl
        omega
      · rw [if_neg empty, List.count_cons_of_ne empty]
        omega

theorem bytes_typed {lines : List Str} (plain : ∀ line ∈ lines, '\n' ∉ line)
    (visible : [] ∉ lines) : Utf8.encode (lines.flatMap ended) = (Input.typed lines plain).bytes := by
  rw [Input.bytes, Utf8.encode, List.flatMap_assoc]
  apply List.flatMap_congr
  intro line member
  rw [ended_of_line (plain line member), if_neg (fun (empty : line = []) => visible (empty ▸ member))]
  rfl

theorem passedOn_iff (input : Input) : passedOn input = some input.bytes ↔ input.Passes := by
  cases input with
  | pipe data =>
      constructor
      · intro passes
        rcases Option.map_eq_some_iff.mp passes with ⟨inp, decoded, same⟩
        refine ⟨inp, decoded, ?_⟩
        by_contra open_
        have length := congrArg List.length same
        rw [ended, if_neg open_, length_encode_newline, Input.bytes,
          ← Utf8.encode_decode decoded] at length
        omega
      · intro passes
        rcases passes with ⟨inp, decoded, terminated⟩
        rw [passedOn, decoded, Option.map_some, ended, if_pos terminated,
          Utf8.encode_decode decoded]
        rfl
  | typed lines plain =>
      constructor
      · intro passes
        have length := length_typed plain
        rw [← Option.some.inj passes] at length
        exact List.count_eq_zero.mp (by omega)
      · intro visible
        exact congrArg some (bytes_typed plain visible)

theorem passes_of_empty {input : Input} (empty : input.bytes = []) : input.Passes := by
  cases input with
  | pipe data =>
      have nothing : data = [] := empty
      rw [nothing]
      refine ⟨[], rfl, ?_⟩
      intro last member
      cases member
  | typed lines plain =>
      intro member
      have line := List.flatMap_eq_nil_iff.mp empty _ member
      cases line

/-! ## What the files hold -/

/-- What reading a file gives; nothing where there is none. -/
def reads (place : Place) (host : Host) (tree : HoneyPotFilesystem) (path : Str) : Bytes :=
  match tree.fileContents place.limit host path with
  | .ok data => data
  | .error _ => []

/-- Every operand gets a file, and the name of the operand leads to it. -/
def Creatable (place : Place) (append : Bool) (operands : List Str) (tree : HoneyPotFilesystem) :
    Prop :=
  ∃ state, openAll place append operands tree = .ok state ∧ state.errors = [] ∧
    ∀ pname ∈ state.teeFiles, ∃ file, tree.heap.next ≤ file ∧ file < state.tree.heap.next ∧
      state.tree.getfile true place.limit pname = .ok (some file)

/-- The output is the input, and every file reads as the input, with `-a` behind what it held,
and is listed with that length. -/
def Stores (place : Place) (host : Host) (append : Bool) (operands : List Str) (input : Input)
    (before : HoneyPotFilesystem) (run : Except Raised State) : Prop :=
  ∃ after, run = .ok after ∧ after.stdout = input.bytes ∧
    ∀ operand ∈ operands, ∃ path, resolvePath place.home operand place.cwd = .ok path ∧
      let stored := (if append then reads place host before path else []) ++ input.bytes
      after.tree.fileContents place.limit host path = .ok stored ∧
        ∃ file, after.tree.getfile true place.limit path = .ok (some file) ∧
          (after.tree.entry file).size = stored.length

section

variable {place : Place} {host : Host} {append : Bool} {operands : List Str}
  {tree : HoneyPotFilesystem}

theorem held_opened (creatable : Creatable place append operands tree) :
    ∃ state, openAll place append operands tree = .ok state ∧ Held place state ∧
      state.stdout = [] ∧ ∀ arg ∈ operands, ∃ pname ∈ state.teeFiles,
        resolvePath place.home arg place.cwd = .ok pname := by
  rcases creatable with ⟨state, opens, silent, led⟩
  have fresh : Fresh tree.heap.next tree := by
    refine ⟨Nat.le_refl _, ?_⟩
    intro reference least below
    omega
  rcases openOnes_ok fresh opens with ⟨isFresh, written, stdout, -, files⟩
  refine ⟨state, opens, ⟨?_, ?_⟩, stdout, (files silent).2⟩
  · rw [written, stdout]
    rfl
  · intro pname member
    rcases led pname member with ⟨file, least, below, leads⟩
    rcases isFresh.2 file least below with ⟨isNew, size⟩
    exact ⟨file, leads, isNew, size.trans written.symm⟩

theorem Held.fileContents {state : State} (held : Held place state) {path : AbsPath}
    (member : path.text ∈ state.teeFiles) :
    state.tree.fileContents place.limit host path.text = .ok [] := by
  rcases held.led _ member with ⟨file, leads, isNew, -⟩
  simp only [HoneyPotFilesystem.fileContents, resolvePath_text, bind, Except.bind,
    HoneyPotFilesystem.exists_, leads, Except.map, Option.isSome_some, if_true]
  exact isNew.contents host

theorem Held.operand {state : State} (held : Held place state) (host : Host) {dir : AbsPath}
    (normal : place.cwd = dir.text) {arg pname : Str} (member : pname ∈ state.teeFiles)
    (resolves : resolvePath place.home arg place.cwd = .ok pname) :
    state.tree.fileContents place.limit host pname = .ok [] ∧
      ∃ file, state.tree.getfile true place.limit pname = .ok (some file) ∧
        (state.tree.entry file).size = state.stdout.length := by
  rw [normal] at resolves
  rcases resolvePath_ok resolves with ⟨path, rfl⟩
  rcases held.led _ member with ⟨file, leads, -, size⟩
  exact ⟨held.fileContents member, file, leads, size.trans held.counted⟩

theorem stores_read {state : State} (held : Held place state) (stdout : state.stdout = [])
    {dir : AbsPath} (normal : place.cwd = dir.text)
    (files : ∀ arg ∈ operands, ∃ pname ∈ state.teeFiles,
      resolvePath place.home arg place.cwd = .ok pname) (input : Input) :
    Stores place host append operands input tree (readInput place state input) ↔
      operands = [] ∧ input.Passes ∨
        input.bytes = [] ∧ (append = true → ∀ operand ∈ operands, ∀ path,
          resolvePath place.home operand place.cwd = .ok path → reads place host tree path = []) := by
  rw [← passedOn_iff]
  constructor
  · intro stores
    rcases stores with ⟨after, run, shown, all⟩
    cases passes : passedOn input with
    | none =>
        rw [readInput_none passes] at run
        cases run
    | some data =>
        rcases readInput_ok held passes with ⟨next, reads_, heldNext, passed⟩
        rw [run] at reads_
        cases reads_
        have isInput : data = input.bytes := by
          rw [← shown, passed.stdout, stdout]
          rfl
        have empty : ∀ operand ∈ operands, ∀ path,
            resolvePath place.home operand place.cwd = .ok path →
            (if append then reads place host tree path else []) ++ input.bytes = [] := by
          intro operand member path resolves
          rcases files operand member with ⟨pname, written, leads⟩
          rcases all operand member with ⟨other, same, stored, -⟩
          rw [resolves] at same leads
          cases same
          cases leads
          rw [← passed.files] at written
          rw [(heldNext.operand host normal written resolves).1] at stored
          exact (Except.ok.inj stored).symm
        cases operands with
        | nil => exact .inl ⟨rfl, congrArg some isInput⟩
        | cons first rest =>
            rcases files first List.mem_cons_self with ⟨pname, -, resolves⟩
            refine .inr ⟨(List.append_eq_nil_iff.mp (empty _ List.mem_cons_self _ resolves)).2, ?_⟩
            intro appends operand member path leads
            have nothing := (List.append_eq_nil_iff.mp (empty operand member path leads)).1
            rw [appends] at nothing
            exact nothing
  · intro condition
    have passes : passedOn input = some input.bytes := by
      rcases condition with ⟨-, passes⟩ | ⟨empty, -⟩
      · exact passes
      · exact (passedOn_iff input).mpr (passes_of_empty empty)
    rcases readInput_ok held passes with ⟨next, run, heldNext, passed⟩
    have shown : next.stdout = input.bytes := by
      rw [passed.stdout, stdout]
      rfl
    refine ⟨next, run, shown, ?_⟩
    intro operand member
    rcases condition with ⟨none_, -⟩ | ⟨empty, nothing⟩
    · rw [none_] at member
      cases member
    · rcases files operand member with ⟨pname, written, resolves⟩
      rw [← passed.files] at written
      rcases heldNext.operand host normal written resolves with ⟨contents, file, leads, size⟩
      have stored : (if append then reads place host tree pname else []) ++ input.bytes = [] := by
        rw [empty, List.append_nil]
        cases append with
        | false => rfl
        | true => exact nothing rfl operand member pname resolves
      refine ⟨pname, resolves, ?_⟩
      simp only [stored]
      rw [shown, empty] at size
      exact ⟨contents, file, leads, size⟩

end

/-- The output is the input where the input passes, and the files hold it where there is none, or
no input and with `-a` nothing before. -/
theorem stores_iff (place : Place) (host : Host) {args given operands : List Str} {dir : AbsPath}
    (parsed : teeGetopt args = .ok (given, operands)) (runs : "--help".toList ∉ given)
    (normal : place.cwd = dir.text) (input : Input) {tree : HoneyPotFilesystem}
    (creatable : Creatable place (isAppend given) operands tree) :
    Stores place host (isAppend given) operands input tree (tee place args input tree) ↔
      operands = [] ∧ input.Passes ∨
        input.bytes = [] ∧ (isAppend given = true → ∀ operand ∈ operands, ∀ path,
          resolvePath place.home operand place.cwd = .ok path → reads place host tree path = []) := by
  rcases held_opened creatable with ⟨state, opens, held, stdout, files⟩
  have run : tee place args input tree = readInput place state input := by
    simp only [tee, parsed, if_neg runs, opens]
    rfl
  rw [run]
  exact stores_read held stdout normal files input

/-! ## A file of the root -/

def emptyHost : Host := { readBytes := fun _ => none, archData := [] }

theorem creatable_small (append : Bool) :
    Creatable Operands.rootPlace append ["a".toList] smallTree := by
  refine ⟨_, rfl, rfl, ?_⟩
  intro pname member
  have only : pname = "/a".toList := List.mem_singleton.mp member
  rw [only]
  exact ⟨3, Nat.le_refl 3, Nat.lt_succ_self 3, rfl⟩

def lineInput : Input := .pipe (Utf8.encode "x\n".toList)

/-- `tee -a a` without input, and a line without a file. -/
theorem stores_nothing :
    Stores Operands.rootPlace emptyHost true ["a".toList] (.pipe []) smallTree
        (tee Operands.rootPlace ["-a".toList, "a".toList] (.pipe []) smallTree) ∧
      Stores Operands.rootPlace emptyHost false [] lineInput smallTree
        (tee Operands.rootPlace [] lineInput smallTree) := by
  have root : Operands.rootPlace.cwd = AbsPath.root.text := rfl
  constructor
  · have parsed : teeGetopt ["-a".toList, "a".toList] = .ok (["-a".toList], ["a".toList]) := by
      decide
    apply (stores_iff Operands.rootPlace emptyHost parsed (by decide) root (.pipe [])
      (creatable_small true)).mpr
    right
    refine ⟨rfl, ?_⟩
    intro _ operand member path resolves
    rw [List.mem_singleton.mp member] at resolves
    cases resolves
    rfl
  · have parsed : teeGetopt [] = .ok ([], []) := by decide
    have none_ : Creatable Operands.rootPlace false [] smallTree :=
      ⟨_, rfl, rfl, fun _ member => by cases member⟩
    apply (stores_iff Operands.rootPlace emptyHost parsed (by decide) root lineInput none_).mpr
    exact .inl ⟨rfl, "x\n".toList, by decide, by decide⟩

/-- A line that is piped to `tee a` is not in the file. -/
theorem stores_not_line :
    ¬ Stores Operands.rootPlace emptyHost false ["a".toList] lineInput smallTree
      (tee Operands.rootPlace ["a".toList] lineInput smallTree) := by
  intro stores
  rcases stores with ⟨after, run, -, all⟩
  rcases all _ List.mem_cons_self with ⟨path, resolves, stored, -⟩
  have named : path = "/a".toList := (Except.ok.inj resolves).symm
  cases run
  rw [named] at stored
  cases stored

end Tee

end LlmHoneypot
