import LlmHoneypot.Foundation.Getopt
import LlmHoneypot.Foundation.OperandLoop
import LlmHoneypot.HoneyFs.Renaming

/-! # mkdir, rmdir, rm and touch

The commands of `commands/fs.py` that go through their operands, beside the same commands run
on one operand after another. -/

namespace LlmHoneypot

namespace Operands

open HoneyFs
open OperandLoop (loop each Settled)

inductive Message
  | out (text : Str)
  | err (text : Str)
  /-- An exception ends the command. -/
  | raised (raised : Raised)
  deriving DecidableEq, Repr

structure State where
  tree : HoneyPotFilesystem
  messages : List Message := []

def State.say (state : State) (message : Message) : State :=
  { state with messages := state.messages ++ [message] }

def State.errorWrite (state : State) (parts : List Str) : State := state.say (.err parts.flatten)

def State.raise (state : State) (raised : Raised) : ForInStep State :=
  .done (state.say (.raised raised))

/-- The shell that a command runs in; `limit` calls may stand in each other. -/
structure Place where
  home : Str
  cwd : Str
  uid : Nat
  gid : Nat
  now : Nat
  limit : Nat

variable (place : Place)

/-- `"/".join(pname.split("/")[:-1])`. -/
def parentPath (pname : Str) : Str := Text.join "/".toList (Text.splitChar '/' pname).dropLast

/-! ## The commands -/

def mkdirOne (f : Str) (state : State) : ForInStep State :=
  match resolvePath place.home f place.cwd with
  | .error raised => state.raise raised
  | .ok pname =>
      match state.tree.exists_ place.limit pname with
      | .error raised => state.raise raised
      | .ok true =>
          .done (state.errorWrite
            ["mkdir: cannot create directory `".toList, f, "': File exists\n".toList])
      | .ok false =>
          match state.tree.mkdir place.limit pname place.uid place.gid 4096 16877 place.now with
          | .error .fileNotFound =>
              .done (state.errorWrite
                ["mkdir: cannot create directory `".toList, f, "': No such file or directory\n".toList])
          | .error raised => state.raise raised
          | .ok tree => .done { state with tree }

def mkdir (args : List Str) (state : State) : State := loop (mkdirOne place) args state

def rmdirMissing (f : Str) (state : State) : ForInStep State :=
  .yield (state.errorWrite
    ["rmdir: failed to remove `".toList, f, "': No such file or directory\n".toList])

def rmdirIn (f : Str) (directory : Nat) (state : State) : ForInStep State :=
  let contents := (state.tree.entry directory).contents
  if contents = .list [] ∨ contents = .bytes [] then rmdirMissing f state
  else
    match state.tree.names contents with
    | .error raised => state.raise raised
    | .ok names =>
        if OsPath.basename f ∉ names then rmdirMissing f state
        else
          match (state.tree.children directory).find? fun i =>
              (state.tree.entry i).name = OsPath.basename f with
          | none => .yield state
          | some i =>
              if (state.tree.entry i).type ≠ .dir then
                .done (state.errorWrite
                  ["rmdir: failed to remove '".toList, f, "': Not a directory\n".toList])
              else
                match state.tree.remove place.limit directory i with
                | .error raised => state.raise raised
                | .ok tree => .yield { state with tree }

def rmdirOne (f : Str) (state : State) : ForInStep State :=
  match resolvePath place.home f place.cwd with
  | .error raised => state.raise raised
  | .ok pname =>
      match state.tree.getPath place.limit pname with
      | .error .indexError | .error .fileNotFound => rmdirMissing f state
      | .error raised => state.raise raised
      | .ok found =>
          if (state.tree.entry found).contents ≠ .list [] ∧
              (state.tree.entry found).contents ≠ .bytes [] then
            .yield (state.errorWrite
              ["rmdir: failed to remove `".toList, f, "': Directory not empty\n".toList])
          else
            match state.tree.getPath place.limit (parentPath pname) with
            | .error .indexError | .error .fileNotFound => rmdirMissing f state
            | .error raised => state.raise raised
            | .ok directory => rmdirIn place f directory state

def rmdir (args : List Str) (state : State) : State := loop (rmdirOne place) args state

def touchOne (f : Str) (state : State) : ForInStep State :=
  match resolvePath place.home f place.cwd with
  | .error raised => state.raise raised
  | .ok pname =>
      match state.tree.exists_ place.limit (OsPath.dirname pname) with
      | .error raised => state.raise raised
      | .ok false =>
          .done (state.errorWrite
            ["touch: cannot touch `".toList, pname, "`: No such file or directory\n".toList])
      | .ok true =>
          match state.tree.exists_ place.limit pname with
          | .error raised => state.raise raised
          | .ok true => .yield state
          | .ok false =>
              if SPECIAL_PATHS.any (·.isPrefixOf pname) then
                .done (state.errorWrite
                  ["touch: cannot touch `".toList, pname, "`: Permission denied\n".toList])
              else
                match state.tree.mkfile place.limit pname place.uid place.gid 0 33188 place.now with
                | .error raised => state.raise raised
                | .ok (tree, _) => .yield { state with tree }

def touch (args : List Str) (state : State) : State :=
  if args = [] then
    (state.errorWrite ["touch: missing file operand\n".toList]).errorWrite
      ["Try `touch --help' for more information.\n".toList]
  else loop (touchOne place) args state

structure RmOptions where
  recursive : Bool
  force : Bool
  verbose : Bool
  deriving DecidableEq, Repr

def rmEntries (options : RmOptions) (directory : Nat) (basename : Str) :
    List Nat → State → ForInStep State
  | [], state => .yield state
  | i :: rest, state =>
      let entry := state.tree.entry i
      if entry.name ≠ basename then rmEntries options directory basename rest state
      else if entry.type = .dir ∧ ¬ options.recursive then
        rmEntries options directory basename rest (state.errorWrite
          ["rm: cannot remove `".toList, entry.name, "': Is a directory\n".toList])
      else
        match state.tree.remove place.limit directory i with
        | .error raised => state.raise raised
        | .ok tree =>
            let removed := { state with tree }
            rmEntries options directory basename rest
              (if ¬ options.verbose then removed
              else if entry.type = .dir then
                removed.say (.out ("removed directory '".toList ++ entry.name ++ "'\n".toList))
              else removed.say (.out ("removed '".toList ++ entry.name ++ "'\n".toList)))

def rmMissing (options : RmOptions) (f : Str) (state : State) : ForInStep State :=
  .yield (if options.force then state
    else state.errorWrite
      ["rm: cannot remove `".toList, f, "': No such file or directory\n".toList])

def rmOne (options : RmOptions) (f : Str) (state : State) : ForInStep State :=
  match resolvePath place.home f place.cwd with
  | .error raised => state.raise raised
  | .ok pname =>
      match state.tree.getPath place.limit (parentPath pname) with
      | .error .indexError | .error .fileNotFound => rmMissing options f state
      | .error raised => state.raise raised
      | .ok directory =>
          match state.tree.getPath place.limit pname with
          | .error .indexError | .error .fileNotFound => rmMissing options f state
          | .error raised => state.raise raised
          | .ok _ =>
              match (state.tree.entry directory).contents with
              | .list entries =>
                  rmEntries place options directory ((Text.splitChar '/' pname).getLastD []) entries
                    state
              | .bytes [] => .yield state
              | .bytes _ => state.raise .typeError

def RM_HELP : Str := ("Usage: rm [OPTION]... [FILE]...\n" ++
  "Remove (unlink) the FILE(s).\n\n" ++
  " -f, --force           ignore nonexistent files and arguments, never prompt\n" ++
  " -i                    prompt before every removal\n" ++
  " -I                    prompt once before removing more than three files, or\n" ++
  "                         when removing recursively; less intrusive than -i,\n" ++
  "                         while still giving protection against most mistakes\n" ++
  "      --interactive[=WHEN]  prompt according to WHEN: never, once (-I), or\n" ++
  "                         always (-i); without WHEN, prompt always\n" ++
  "      --one-file-system  when removing a hierarchy recursively, skip any\n" ++
  "                         directory that is on a file system different from\n" ++
  "                         that of the corresponding command line argument\n" ++
  "      --no-preserve-root  do not treat '/' specially\n" ++
  "      --preserve-root   do not remove '/' (default)\n" ++
  " -r, -R, --recursive   remove directories and their contents recursively\n" ++
  " -d, --dir             remove empty directories\n" ++
  " -v, --verbose         explain what is being done\n" ++
  "     --help     display this help and exit\n" ++
  "     --version  output version information and exit\n\n" ++
  "By default, rm does not remove directories.  Use the --recursive (-r or -R)\n" ++
  "option to remove each listed directory, too, along with all of its contents.\n\n" ++
  "To remove a file whose name starts with a '-', for example '-foo',\n" ++
  "use one of these commands:\n rm -- -foo\n\n rm ./-foo\n\n" ++
  "Note that if you use rm to remove a file, it might be possible to recover\n" ++
  "some of its contents, given sufficient expertise and/or time.  For greater\n" ++
  "assurance that the contents are truly unrecoverable, consider using shred.\n\n" ++
  "GNU coreutils online help: <http://www.gnu.org/software/coreutils/>\n" ++
  "Full documentation at: <http://www.gnu.org/software/coreutils/rm>\n" ++
  "or available locally via: info '(coreutils) rm invocation'\n").toList

def RmOptions.of (given : List Str) : RmOptions where
  recursive := given.any ["--recursive".toList, "-r".toList, "-R".toList].contains
  force := given.any ["--force".toList, "-f".toList].contains
  verbose := given.any ["--verbose".toList, "-v".toList].contains

def asksHelp (given : List Str) : Bool := given.any ["--help".toList, "-h".toList].contains

def rmParamError (state : State) : State :=
  state.errorWrite ["Try 'rm --help' for more information\n".toList]

def rmGetopt (args : List Str) : Except Str (List Str × List Str) :=
  Getopt.gnuGetopt "rTfvh".toList
    ["help".toList, "recursive".toList, "force".toList, "verbose".toList] args

def rm (args : List Str) (state : State) : State :=
  if args = [] then rmParamError (state.errorWrite ["rm: missing operand\n".toList])
  else
    match rmGetopt args with
    | .error opt =>
        rmParamError (state.errorWrite ["rm: invalid option -- '".toList, opt, "'\n".toList])
    | .ok (given, operands) =>
        if asksHelp given then state.say (.out RM_HELP)
        else loop (rmOne place (.of given)) operands state

/-! ## What a step leaves behind -/

def Less (state later : State) : Prop :=
  state.messages.length + state.tree.newcount < later.messages.length + later.tree.newcount ∨
    state.messages.length + state.tree.newcount = later.messages.length + later.tree.newcount ∧
      (∀ directory, (later.tree.children directory).length ≤ (state.tree.children directory).length) ∧
      ∃ directory, (later.tree.children directory).length < (state.tree.children directory).length

instance : IsStrictOrder State Less where
  irrefl state less := by
    rcases less with more | ⟨-, -, directory, fewer⟩
    · exact Nat.lt_irrefl _ more
    · exact Nat.lt_irrefl _ fewer
  trans first second third := by
    intro less later
    rcases less with more | ⟨same, kept, directory, fewer⟩
    · rcases later with again | ⟨same, -⟩
      · exact .inl (Nat.lt_trans more again)
      · exact .inl (same ▸ more)
    · rcases later with more | ⟨again, keptLater, -⟩
      · exact .inl (same ▸ more)
      · refine .inr ⟨same.trans again, ?_, directory, ?_⟩
        · exact fun other => (keptLater other).trans (kept other)
        · exact (keptLater directory).trans_lt fewer

variable {place} {state : State}

theorem less_say (message : Message) : Less state (state.say message) := by
  apply Or.inl
  simp [State.say]

theorem removeFrom_length {tree : HoneyPotFilesystem} {limit reference : Nat}
    {entries kept : List Nat} (removes : tree.removeFrom limit reference entries = .ok kept) :
    kept.length + 1 = entries.length := by
  induction entries generalizing kept with
  | nil => cases removes
  | cons first rest induction =>
      rw [HoneyPotFilesystem.removeFrom] at removes
      cases equal : tree.same limit first reference with
      | error raised =>
          rw [equal] at removes
          cases removes
      | ok isSame =>
          rw [equal] at removes
          cases isSame with
          | true =>
              rw [← Except.ok.inj removes]
              rfl
          | false =>
              cases removed : tree.removeFrom limit reference rest with
              | error raised =>
                  rw [removed] at removes
                  cases removes
              | ok others =>
                  rw [removed] at removes
                  rw [← Except.ok.inj removes]
                  exact congrArg (· + 1) (induction removed)

theorem less_remove {tree : HoneyPotFilesystem} {directory i : Nat}
    (removes : state.tree.remove place.limit directory i = .ok tree) :
    Less state { state with tree } := by
  rw [HoneyPotFilesystem.remove] at removes
  split at removes
  · cases removes
  · next entries contents =>
    cases removed : state.tree.removeFrom place.limit i entries with
    | error raised =>
        rw [removed] at removes
        cases removes
    | ok kept =>
        rw [removed] at removes
        have after : state.tree.setChildren directory kept = tree := Except.ok.inj removes
        have fewer := removeFrom_length removed
        have before : state.tree.children directory = entries := by
          rw [HoneyPotFilesystem.children, contents]
        subst after
        refine .inr ⟨rfl, ?_, directory, ?_⟩
        · intro other
          rw [children_setChildren]
          split
          · next same =>
            rw [same, before]
            omega
          · exact le_rfl
        · rw [children_setChildren, if_pos rfl, before]
          omega

theorem newcount_appendNew {tree made : HoneyPotFilesystem} {directory : Nat} {entry : Entry}
    (appends : tree.appendNew directory entry = .ok made) : made.newcount = tree.newcount + 1 := by
  rw [append_ok appends]
  rfl

theorem newcount_mkdir {tree made : HoneyPotFilesystem} {limit uid gid size mode ctime : Nat}
    {path : Str} (makes : tree.mkdir limit path uid gid size mode ctime = .ok made) :
    made.newcount = tree.newcount + 1 := by
  unfold HoneyPotFilesystem.mkdir at makes
  split at makes
  · cases makes
  · split at makes
    · cases makes
    · split at makes
      · cases makes
      · cases makes
      · cases makes
      · exact newcount_appendNew makes

theorem newcount_remove {tree left : HoneyPotFilesystem} {limit directory reference : Nat}
    (removes : tree.remove limit directory reference = .ok left) :
    left.newcount = tree.newcount := by
  rcases remove_ok removes with ⟨entries, rfl⟩
  rfl

theorem newcount_removeNamed {tree left : HoneyPotFilesystem} {limit directory : Nat} {name : Str}
    (removes : tree.removeNamed limit directory name = .ok left) :
    left.newcount = tree.newcount := by
  rcases ok_of_bind removes with ⟨names, -, rest⟩
  split at rest
  · rw [Except.ok.inj rest]
  · split at rest
    · rw [Except.ok.inj rest]
    · exact newcount_remove rest

theorem newcount_mkfile {tree made : HoneyPotFilesystem} {limit uid gid size mode ctime : Nat}
    {path : Str} {isMade : Bool} (room : ¬ 10000 < tree.newcount)
    (makes : tree.mkfile limit path uid gid size mode ctime = .ok (made, isMade)) :
    made.newcount = tree.newcount + 1 := by
  rw [HoneyPotFilesystem.mkfile, if_neg room] at makes
  split at makes
  · cases makes
  · rcases ok_of_bind makes with ⟨dir, -, rest⟩
    rcases ok_of_bind rest with ⟨cleared, clears, rest⟩
    rcases ok_of_bind rest with ⟨last, appends, rest⟩
    rw [← (Prod.mk.inj (Except.ok.inj rest)).1, newcount_appendNew appends,
      newcount_removeNamed clears]

theorem mkfile_ok {tree made : HoneyPotFilesystem} {limit uid gid size mode ctime : Nat}
    {path : Str} {isMade : Bool}
    (makes : tree.mkfile limit path uid gid size mode ctime = .ok (made, isMade)) :
    made = tree ∨ made.newcount = tree.newcount + 1 := by
  by_cases full : 10000 < tree.newcount
  · rw [HoneyPotFilesystem.mkfile, if_pos full] at makes
    exact .inl (Prod.mk.inj (Except.ok.inj makes)).1.symm
  · exact .inr (newcount_mkfile full makes)

theorem find?_of_names {tree : HoneyPotFilesystem} {directory : Nat} {names : List Str}
    {name : Str} (named : tree.names (tree.entry directory).contents = .ok names)
    (member : name ∈ names) :
    (tree.children directory).find? (fun i => (tree.entry i).name = name) ≠ none := by
  rw [HoneyPotFilesystem.children]
  cases contents : (tree.entry directory).contents with
  | list entries =>
      rw [contents] at named
      rw [← Except.ok.inj named] at member
      rcases List.mem_map.mp member with ⟨i, isEntry, isName⟩
      intro missing
      exact List.find?_eq_none.mp missing i isEntry (decide_eq_true isName)
  | bytes data =>
      rw [contents] at named
      cases data with
      | nil =>
          rw [← Except.ok.inj named] at member
          cases member
      | cons byte data => cases named

theorem less_made {tree : HoneyPotFilesystem} (counts : tree.newcount = state.tree.newcount + 1) :
    Less state { state with tree } := by
  apply Or.inl
  simp only
  omega

/-! ## Steps -/

section

variable (place) (f : Str) (state : State)

theorem mkdirOne_done : ∃ next, mkdirOne place f state = .done next ∧ Less state next := by
  unfold mkdirOne
  split
  · exact ⟨_, rfl, less_say _⟩
  · split
    · exact ⟨_, rfl, less_say _⟩
    · exact ⟨_, rfl, less_say _⟩
    · split
      · exact ⟨_, rfl, less_say _⟩
      · exact ⟨_, rfl, less_say _⟩
      · next tree made =>
        exact ⟨_, rfl, less_made (newcount_mkdir made)⟩

theorem rmdirIn_moves (directory : Nat) : Less state (rmdirIn place f directory state).value := by
  unfold rmdirIn
  simp only
  split
  · exact less_say _
  · split
    · exact less_say _
    · next names named =>
      split
      · exact less_say _
      · next isNamed =>
        split
        · next missing => exact absurd missing (find?_of_names named (not_not.mp isNamed))
        · split
          · exact less_say _
          · split
            · exact less_say _
            · next removes => exact less_remove removes

theorem rmdirOne_moves : Less state (rmdirOne place f state).value := by
  unfold rmdirOne
  split
  · exact less_say _
  · split
    · exact less_say _
    · exact less_say _
    · exact less_say _
    · split
      · exact less_say _
      · split
        · exact less_say _
        · exact less_say _
        · exact less_say _
        · exact rmdirIn_moves place f state _

theorem touchOne_moves : (touchOne place f state).value = state ∨
    Less state (touchOne place f state).value := by
  unfold touchOne
  split
  · exact .inr (less_say _)
  · split
    · exact .inr (less_say _)
    · exact .inr (less_say _)
    · split
      · exact .inr (less_say _)
      · exact .inl rfl
      · split
        · exact .inr (less_say _)
        · split
          · exact .inr (less_say _)
          · next tree made makes =>
            rcases mkfile_ok makes with same | counts
            · exact .inl (by rw [same]; rfl)
            · exact .inr (less_made counts)

theorem rmMissing_moves (options : RmOptions) : (rmMissing options f state).value = state ∨
    Less state (rmMissing options f state).value := by
  rw [rmMissing]
  by_cases force : options.force = true
  · rw [if_pos force]
    exact .inl rfl
  · rw [if_neg force]
    exact .inr (less_say _)

theorem rmEntries_less (options : RmOptions) (directory : Nat) {basename : Str} {i : Nat}
    {rest : List Nat} (isName : (state.tree.entry i).name = basename)
    (moves : ∀ next, (rmEntries place options directory basename rest next).value = next ∨
      Less next (rmEntries place options directory basename rest next).value) :
    Less state (rmEntries place options directory basename (i :: rest) state).value := by
  -- what the later entries do comes after what this one does
  have after : ∀ next, Less state next →
      Less state (rmEntries place options directory basename rest next).value := by
    intro next first
    rcases moves next with same | later
    · rw [same]
      exact first
    · exact IsTrans.trans _ _ _ first later
  rw [rmEntries]
  dsimp only
  rw [if_neg (not_not.mpr isName)]
  split
  · exact after _ (less_say _)
  · split
    · exact less_say _
    · next tree removes =>
      have removed := less_remove removes
      apply after
      split
      · exact removed
      · split
        · exact IsTrans.trans _ _ _ removed (less_say _)
        · exact IsTrans.trans _ _ _ removed (less_say _)

theorem rmEntries_moves (options : RmOptions) (directory : Nat) (basename : Str)
    (entries : List Nat) : (rmEntries place options directory basename entries state).value = state ∨
      Less state (rmEntries place options directory basename entries state).value := by
  induction entries generalizing state with
  | nil => exact .inl rfl
  | cons i rest induction =>
      by_cases isName : (state.tree.entry i).name = basename
      · exact .inr (rmEntries_less place state options directory isName induction)
      · rw [rmEntries]
        dsimp only
        rw [if_pos isName]
        exact induction state

theorem rmOne_moves (options : RmOptions) : (rmOne place options f state).value = state ∨
    Less state (rmOne place options f state).value := by
  unfold rmOne
  split
  · exact .inr (less_say _)
  · split
    · exact rmMissing_moves f state options
    · exact rmMissing_moves f state options
    · exact .inr (less_say _)
    · split
      · exact rmMissing_moves f state options
      · exact rmMissing_moves f state options
      · exact .inr (less_say _)
      · split
        · exact rmEntries_moves place state options _ _ _
        · exact .inl rfl
        · exact .inr (less_say _)

end

/-! ## Lookups that end a command -/

section

variable (place : Place) (f : Str) (tree : HoneyPotFilesystem)

def Raises {Found : Type} (found : Except Raised Found) : Prop := ∃ raised, found = .error raised

def Missing (found : Except Raised Nat) : Prop :=
  found = .error .indexError ∨ found = .error .fileNotFound

def Escapes (found : Except Raised Nat) : Prop := Raises found ∧ ¬ Missing found

/-- The operand names an empty entry that is no directory, or a lookup raises. -/
def RmdirEnds : Prop :=
  Raises (resolvePath place.home f place.cwd) ∨
    ∃ pname, resolvePath place.home f place.cwd = .ok pname ∧
      (Escapes (tree.getPath place.limit pname) ∨
        ∃ found, tree.getPath place.limit pname = .ok found ∧
          ((tree.entry found).contents = .list [] ∨ (tree.entry found).contents = .bytes []) ∧
          (Escapes (tree.getPath place.limit (parentPath pname)) ∨
            ∃ directory, tree.getPath place.limit (parentPath pname) = .ok directory ∧
              ((∃ byte data, (tree.entry directory).contents = .bytes (byte :: data)) ∨
                ∃ i, (tree.children directory).find?
                    (fun i => (tree.entry i).name = OsPath.basename f) = some i ∧
                  ((tree.entry i).type ≠ .dir ∨ Raises (tree.remove place.limit directory i)))))

/-- The directory is not listed as one, or what stands in the way cannot be removed. -/
def MkfileRaises (path : Str) : Prop :=
  tree.newcount ≤ 10000 ∧
    (SPECIAL_PATHS.any (·.isPrefixOf (OsPath.dirname path)) ∨
      Raises (tree.getPath place.limit (OsPath.dirname path)) ∨
      ∃ dir, tree.getPath place.limit (OsPath.dirname path) = .ok dir ∧
        ((∃ byte data, (tree.entry dir).contents = .bytes (byte :: data)) ∨
          -- the reference that is free is the new file's own
          (tree.entry dir).contents = .bytes [] ∧ dir ≠ tree.heap.next ∨
          ∃ found, (tree.children dir).find?
              (fun x => (tree.entry x).name = OsPath.basename path) = some found ∧
            Raises (tree.remove place.limit dir found)))

/-- The directory is missing, or the path is special, or a lookup raises. -/
def TouchEnds : Prop :=
  Raises (resolvePath place.home f place.cwd) ∨
    ∃ pname, resolvePath place.home f place.cwd = .ok pname ∧
      (Raises (tree.exists_ place.limit (OsPath.dirname pname)) ∨
        tree.exists_ place.limit (OsPath.dirname pname) = .ok false ∨
        tree.exists_ place.limit (OsPath.dirname pname) = .ok true ∧
          (Raises (tree.exists_ place.limit pname) ∨
            tree.exists_ place.limit pname = .ok false ∧
              (SPECIAL_PATHS.any (·.isPrefixOf pname) ∨ MkfileRaises place tree pname)))

/-- The file is there, or no more files are made. -/
def TouchIdle : Prop :=
  ∃ pname, resolvePath place.home f place.cwd = .ok pname ∧
    tree.exists_ place.limit (OsPath.dirname pname) = .ok true ∧
    (tree.exists_ place.limit pname = .ok true ∨
      tree.exists_ place.limit pname = .ok false ∧
        ¬ SPECIAL_PATHS.any (·.isPrefixOf pname) ∧ 10000 < tree.newcount)

def RemovalRaises (options : RmOptions) (directory : Nat) (basename : Str) :
    List Nat → HoneyPotFilesystem → Prop
  | [], _ => False
  | i :: rest, tree =>
      if (tree.entry i).name = basename ∧ ((tree.entry i).type = .dir → options.recursive) then
        Raises (tree.remove place.limit directory i) ∨
          ∃ left, tree.remove place.limit directory i = .ok left ∧
            RemovalRaises options directory basename rest left
      else RemovalRaises options directory basename rest tree

def RmEnds (options : RmOptions) : Prop :=
  Raises (resolvePath place.home f place.cwd) ∨
    ∃ pname, resolvePath place.home f place.cwd = .ok pname ∧
      (Escapes (tree.getPath place.limit (parentPath pname)) ∨
        ∃ directory, tree.getPath place.limit (parentPath pname) = .ok directory ∧
          (Escapes (tree.getPath place.limit pname) ∨
            (∃ found, tree.getPath place.limit pname = .ok found) ∧
              ((∃ byte data, (tree.entry directory).contents = .bytes (byte :: data)) ∨
                RemovalRaises place options directory ((Text.splitChar '/' pname).getLastD [])
                  (tree.children directory) tree)))

/-- The file is missing and nobody is told, or its directory has no entry of its name. -/
def RmIdle (options : RmOptions) : Prop :=
  ∃ pname, resolvePath place.home f place.cwd = .ok pname ∧
    (options.force ∧ Missing (tree.getPath place.limit (parentPath pname)) ∨
      ∃ directory, tree.getPath place.limit (parentPath pname) = .ok directory ∧
        (options.force ∧ Missing (tree.getPath place.limit pname) ∨
          (∃ found, tree.getPath place.limit pname = .ok found) ∧
            (∀ byte data, (tree.entry directory).contents ≠ .bytes (byte :: data)) ∧
            ∀ i ∈ tree.children directory,
              (tree.entry i).name ≠ (Text.splitChar '/' pname).getLastD []))

end

section

variable {place : Place} {f : Str} {state : State}

theorem not_raises_ok {Found : Type} (found : Found) : ¬ Raises (.ok found : Except Raised Found) :=
  fun ⟨_, raises⟩ => nomatch raises

theorem raises_error {Found : Type} (raised : Raised) :
    Raises (.error raised : Except Raised Found) := ⟨raised, rfl⟩

theorem not_escapes_ok (found : Nat) : ¬ Escapes (.ok found) := fun escapes =>
  not_raises_ok found escapes.1

theorem not_missing_ok (found : Nat) : ¬ Missing (.ok found) := by
  rintro (missing | missing)
  · cases missing
  · cases missing

theorem names_error {tree : HoneyPotFilesystem} {contents : Contents} :
    Raises (tree.names contents) ↔ ∃ byte data, contents = .bytes (byte :: data) := by
  rcases contents with entries | data
  · exact iff_of_false (not_raises_ok _) (by simp)
  · cases data with
    | nil => exact iff_of_false (not_raises_ok _) (by simp)
    | cons byte data => exact iff_of_true (raises_error _) ⟨byte, data, rfl⟩

theorem find?_eq_none_of_names {tree : HoneyPotFilesystem} {directory : Nat} {names : List Str}
    {name : Str} (named : tree.names (tree.entry directory).contents = .ok names)
    (missing : name ∉ names) :
    (tree.children directory).find? (fun i => (tree.entry i).name = name) = none := by
  rw [HoneyPotFilesystem.children]
  cases contents : (tree.entry directory).contents with
  | list entries =>
      rw [contents] at named
      rw [← Except.ok.inj named] at missing
      apply List.find?_eq_none.mpr
      intro i isEntry isName
      exact missing (List.mem_map.mpr ⟨i, isEntry, of_decide_eq_true isName⟩)
  | bytes data => rfl

theorem rmdirMissing_yields : ¬ ∃ next, rmdirMissing f state = .done next := nofun

theorem rmdirIn_done_iff (directory : Nat) :
    (∃ next, rmdirIn place f directory state = .done next) ↔
      (∃ byte data, (state.tree.entry directory).contents = .bytes (byte :: data)) ∨
        ∃ i, (state.tree.children directory).find?
            (fun i => (state.tree.entry i).name = OsPath.basename f) = some i ∧
          ((state.tree.entry i).type ≠ .dir ∨ Raises (state.tree.remove place.limit directory i)) := by
  rw [rmdirIn]
  split
  · next empty =>
    refine iff_of_false rmdirMissing_yields ?_
    rw [HoneyPotFilesystem.children]
    rcases empty with empty | empty
    · simp [empty]
    · simp [empty]
  · cases named : state.tree.names (state.tree.entry directory).contents with
    | error raised => exact iff_of_true ⟨_, rfl⟩ (.inl (names_error.mp ⟨raised, named⟩))
    | ok names =>
        have plain : ¬ ∃ byte data, (state.tree.entry directory).contents = .bytes (byte :: data) :=
          fun bytes => not_raises_ok names (named ▸ names_error.mpr bytes)
        rw [or_iff_right plain]
        dsimp only
        split
        · next missing =>
          refine iff_of_false rmdirMissing_yields ?_
          rw [find?_eq_none_of_names named missing]
          simp
        · next member =>
          cases found : (state.tree.children directory).find?
              fun i => (state.tree.entry i).name = OsPath.basename f with
          | none => exact absurd found (find?_of_names named (not_not.mp member))
          | some i =>
              simp only [Option.some.injEq, exists_eq_left']
              split
              · next other => exact iff_of_true ⟨_, rfl⟩ (.inl other)
              · next isDir =>
                rw [or_iff_right isDir]
                cases removed : state.tree.remove place.limit directory i with
                | error raised => exact iff_of_true ⟨_, rfl⟩ (raises_error raised)
                | ok tree => exact iff_of_false (by simp) (not_raises_ok tree)

theorem exists_ok_iff {Found : Type} {found : Found} {P : Found → Prop} :
    (∃ other, (.ok found : Except Raised Found) = .ok other ∧ P other) ↔ P found := by
  simp

theorem not_exists_ok {Found : Type} {raised : Raised} {P : Found → Prop} :
    ¬ ∃ other, (.error raised : Except Raised Found) = .ok other ∧ P other := nofun

theorem not_found_and {Found : Type} {raised : Raised} {P : Prop} :
    ¬ ((∃ found, (.error raised : Except Raised Found) = .ok found) ∧ P) := by
  rintro ⟨⟨found, isFound⟩, _⟩
  cases isFound

theorem escapes_error (raised : Raised) :
    Escapes (.error raised) ↔ raised ≠ .indexError ∧ raised ≠ .fileNotFound := by
  simp [Escapes, Raises, Missing]

theorem rmdirOne_done_iff :
    (∃ next, rmdirOne place f state = .done next) ↔ RmdirEnds place f state.tree := by
  rw [rmdirOne, RmdirEnds]
  cases resolved : resolvePath place.home f place.cwd with
  | error raised => exact iff_of_true ⟨_, rfl⟩ (.inl (raises_error raised))
  | ok pname =>
      rw [or_iff_right (not_raises_ok pname), exists_ok_iff]
      dsimp only
      cases got : state.tree.getPath place.limit pname with
      | error raised =>
          rw [or_iff_left not_exists_ok, escapes_error]
          cases raised with
          | indexError | fileNotFound => exact iff_of_false rmdirMissing_yields (by simp)
          | _ => exact iff_of_true ⟨_, rfl⟩ (by simp)
      | ok found =>
          rw [or_iff_right (not_escapes_ok found), exists_ok_iff]
          dsimp only
          split
          · next filled =>
            refine iff_of_false nofun ?_
            rintro ⟨empty | empty, _⟩
            · exact filled.1 empty
            · exact filled.2 empty
          · next empty =>
            rw [not_and_or, not_not, not_not] at empty
            rw [and_iff_right empty]
            cases reached : state.tree.getPath place.limit (parentPath pname) with
            | error raised =>
                rw [or_iff_left not_exists_ok, escapes_error]
                cases raised with
                | indexError | fileNotFound => exact iff_of_false rmdirMissing_yields (by simp)
                | _ => exact iff_of_true ⟨_, rfl⟩ (by simp)
            | ok directory =>
                rw [or_iff_right (not_escapes_ok directory), exists_ok_iff]
                exact rmdirIn_done_iff directory

theorem raises_bind {First Found : Type} {first : Except Raised First}
    {next : First → Except Raised Found} :
    Raises (first >>= next) ↔ Raises first ∨ ∃ given, first = .ok given ∧ Raises (next given) := by
  cases first with
  | error raised => exact iff_of_true (raises_error raised) (.inl (raises_error raised))
  | ok given =>
      rw [or_iff_right (not_raises_ok given), exists_ok_iff]
      exact Iff.rfl

theorem removeNamed_raises_iff {tree : HoneyPotFilesystem} {limit dir : Nat} {name : Str} :
    Raises (tree.removeNamed limit dir name) ↔
      (∃ byte data, (tree.entry dir).contents = .bytes (byte :: data)) ∨
        ∃ found, (tree.children dir).find? (fun x => (tree.entry x).name = name) = some found ∧
          Raises (tree.remove limit dir found) := by
  rw [HoneyPotFilesystem.removeNamed, raises_bind, names_error]
  apply or_congr_right'
  intro plain
  cases named : tree.names (tree.entry dir).contents with
  | error raised => exact absurd (names_error.mp ⟨raised, named⟩) plain
  | ok names =>
      rw [exists_ok_iff]
      split
      · next missing =>
        refine iff_of_false (not_raises_ok tree) ?_
        rw [find?_eq_none_of_names named missing]
        simp
      · next member =>
        cases found : (tree.children dir).find? fun x => (tree.entry x).name = name with
        | none => exact absurd found (find?_of_names named (not_not.mp member))
        | some found => simp

theorem remove_raises_bytes {tree : HoneyPotFilesystem} {limit dir found : Nat} {data : Bytes}
    (bytes : (tree.entry dir).contents = .bytes data) : Raises (tree.remove limit dir found) := by
  rw [HoneyPotFilesystem.remove, bytes]
  exact raises_error _

theorem cleared_bytes_iff {tree cleared : HoneyPotFilesystem} {limit dir : Nat} {name : Str}
    (clears : tree.removeNamed limit dir name = .ok cleared) :
    cleared.heap.next = tree.heap.next ∧
      ((∃ data, (cleared.entry dir).contents = .bytes data) ↔ (tree.entry dir).contents = .bytes [])
    := by
  rcases ok_of_bind clears with ⟨names, named, rest⟩
  have quiet : (∃ data, (tree.entry dir).contents = .bytes data) ↔
      (tree.entry dir).contents = .bytes [] := by
    constructor
    · rintro ⟨data, bytes⟩
      cases data with
      | nil => exact bytes
      | cons byte data =>
          exact absurd (named ▸ names_error.mpr ⟨byte, data, bytes⟩) (not_raises_ok names)
    · exact fun bytes => ⟨[], bytes⟩
  split at rest
  · rw [← Except.ok.inj rest]
    exact ⟨rfl, quiet⟩
  · split at rest
    · rw [← Except.ok.inj rest]
      exact ⟨rfl, quiet⟩
    · next found _ =>
      rcases remove_ok rest with ⟨entries, rfl⟩
      refine ⟨rfl, iff_of_false ?_ ?_⟩
      · rw [entry_setChildren, if_pos rfl]
        exact nofun
      · intro bytes
        exact not_raises_ok _ (rest ▸ remove_raises_bytes bytes)

theorem appendNew_raises_iff {tree : HoneyPotFilesystem} {dir : Nat} {entry : Entry} {fresh : List Nat}
    (isList : entry.contents = .list fresh) :
    Raises (tree.appendNew dir entry) ↔
      (∃ data, (tree.entry dir).contents = .bytes data) ∧ dir ≠ tree.heap.next := by
  rw [HoneyPotFilesystem.appendNew, HoneyPotFilesystem.append]
  by_cases free : dir = tree.heap.next
  · have same : HoneyPotFilesystem.entry
        { tree with heap := tree.heap.alloc entry, newcount := tree.newcount + 1 } dir = entry := by
      rw [free]
      exact Heap.read_alloc_self ..
    rw [same, isList]
    exact iff_of_false (not_raises_ok _) fun raises => raises.2 free
  · have same : HoneyPotFilesystem.entry
        { tree with heap := tree.heap.alloc entry, newcount := tree.newcount + 1 } dir =
          tree.entry dir := Heap.read_write_other _ free
    rw [same]
    cases contents : (tree.entry dir).contents with
    | list entries => exact iff_of_false (not_raises_ok _) (by simp)
    | bytes data => exact iff_of_true (raises_error _) ⟨⟨data, rfl⟩, free⟩

theorem mkfile_raises_iff {tree : HoneyPotFilesystem} {path : Str} {uid gid size mode ctime : Nat} :
    Raises (tree.mkfile place.limit path uid gid size mode ctime) ↔ MkfileRaises place tree path := by
  rw [HoneyPotFilesystem.mkfile, MkfileRaises]
  split
  · next full => exact iff_of_false (not_raises_ok _) fun raises => Nat.not_lt.mpr raises.1 full
  · next room =>
    rw [and_iff_right (Nat.not_lt.mp room)]
    split
    · next special => exact iff_of_true (raises_error _) (.inl special)
    · next plain =>
      rw [or_iff_right plain, raises_bind]
      apply or_congr_right
      apply exists_congr
      intro dir
      apply and_congr_right
      intro _
      rw [raises_bind, removeNamed_raises_iff]
      cases clears : tree.removeNamed place.limit dir (OsPath.basename path) with
      | error raised =>
          have stands := removeNamed_raises_iff.mp ⟨raised, clears⟩
          refine iff_of_true (.inl stands) ?_
          rcases stands with bytes | stands
          · exact .inl bytes
          · exact .inr (.inr stands)
      | ok cleared =>
          have gone : ¬ _ := fun stands => not_raises_ok cleared
            (clears ▸ removeNamed_raises_iff.mpr stands)
          rcases cleared_bytes_iff clears with ⟨next, bytes⟩
          rw [or_iff_right gone, exists_ok_iff, raises_bind, appendNew_raises_iff rfl, bytes, next,
            or_iff_left fun ⟨_, _, raises⟩ => not_raises_ok _ raises]
          rw [not_or] at gone
          rw [or_iff_right gone.1, or_iff_left gone.2]

theorem touchOne_done_iff :
    (∃ next, touchOne place f state = .done next) ↔ TouchEnds place f state.tree := by
  rw [touchOne, TouchEnds]
  cases resolved : resolvePath place.home f place.cwd with
  | error raised => exact iff_of_true ⟨_, rfl⟩ (.inl (raises_error raised))
  | ok pname =>
      rw [or_iff_right (not_raises_ok pname), exists_ok_iff]
      dsimp only
      cases isDirectory : state.tree.exists_ place.limit (OsPath.dirname pname) with
      | error raised => exact iff_of_true ⟨_, rfl⟩ (.inl (raises_error raised))
      | ok isThere =>
          rw [or_iff_right (not_raises_ok isThere)]
          cases isThere with
          | false => exact iff_of_true ⟨_, rfl⟩ (.inl rfl)
          | true =>
              simp only [Except.ok.injEq, Bool.true_eq_false, true_and, false_or]
              cases exists_ : state.tree.exists_ place.limit pname with
              | error raised => exact iff_of_true ⟨_, rfl⟩ (.inl (raises_error raised))
              | ok isFile =>
                  rw [or_iff_right (not_raises_ok isFile)]
                  cases isFile with
                  | true => exact iff_of_false nofun (by simp)
                  | false =>
                      simp only [true_and]
                      split
                      · next special => exact iff_of_true ⟨_, rfl⟩ (.inl special)
                      · next plain =>
                        rw [or_iff_right plain, ← @mkfile_raises_iff place state.tree pname place.uid
                          place.gid 0 33188 place.now]
                        cases makes : state.tree.mkfile place.limit pname place.uid place.gid 0 33188
                            place.now with
                        | error raised => exact iff_of_true ⟨_, rfl⟩ (raises_error raised)
                        | ok made => exact iff_of_false nofun (not_raises_ok made)

theorem ne_of_less {next : State} (less : Less state next) : next ≠ state := by
  intro same
  rw [same] at less
  exact irrefl state less

theorem say_ne (message : Message) : state.say message ≠ state := ne_of_less (less_say message)

theorem touchOne_idle_iff :
    (touchOne place f state).value = state ↔ TouchIdle place f state.tree := by
  rw [touchOne, TouchIdle]
  cases resolved : resolvePath place.home f place.cwd with
  | error raised => exact iff_of_false (say_ne _) not_exists_ok
  | ok pname =>
      rw [exists_ok_iff]
      dsimp only
      cases isDirectory : state.tree.exists_ place.limit (OsPath.dirname pname) with
      | error raised => exact iff_of_false (say_ne _) nofun
      | ok isThere =>
          cases isThere with
          | false => exact iff_of_false (say_ne _) (by simp)
          | true =>
              rw [and_iff_right rfl]
              cases exists_ : state.tree.exists_ place.limit pname with
              | error raised => exact iff_of_false (say_ne _) (by simp)
              | ok isFile =>
                  cases isFile with
                  | true => exact iff_of_true rfl (.inl rfl)
                  | false =>
                      simp only [Except.ok.injEq, Bool.false_eq_true, true_and, false_or]
                      split
                      · next special => exact iff_of_false (say_ne _) fun idle => idle.1 special
                      · next plain =>
                        rw [and_iff_right plain]
                        by_cases full : 10000 < state.tree.newcount
                        · rw [HoneyPotFilesystem.mkfile, if_pos full]
                          exact iff_of_true rfl full
                        · refine iff_of_false ?_ full
                          split
                          · exact say_ne _
                          · next tree made makes =>
                            exact ne_of_less (less_made (newcount_mkfile full makes))

theorem rmEntries_done_iff (options : RmOptions) (directory : Nat) (basename : Str)
    (entries : List Nat) :
    (∃ next, rmEntries place options directory basename entries state = .done next) ↔
      RemovalRaises place options directory basename entries state.tree := by
  induction entries generalizing state with
  | nil => exact iff_of_false nofun id
  | cons i rest induction =>
      rw [rmEntries, RemovalRaises]
      dsimp only
      by_cases isName : (state.tree.entry i).name = basename
      · rw [if_neg (not_not.mpr isName)]
        by_cases kept : (state.tree.entry i).type = .dir ∧ ¬ options.recursive
        · rw [if_pos kept, if_neg fun removed => kept.2 (removed.2 kept.1)]
          exact induction
        · rw [if_neg kept, if_pos ⟨isName, fun isDir => not_not.mp fun flat => kept ⟨isDir, flat⟩⟩]
          cases removed : state.tree.remove place.limit directory i with
          | error raised => exact iff_of_true ⟨_, rfl⟩ (.inl (raises_error raised))
          | ok left =>
              rw [or_iff_right (not_raises_ok left), exists_ok_iff]
              refine induction.trans ?_
              split
              · exact Iff.rfl
              · split
                · exact Iff.rfl
                · exact Iff.rfl
      · rw [if_pos isName, if_neg fun found => isName found.1]
        exact induction

theorem rmMissing_yields {options : RmOptions} : ¬ ∃ next, rmMissing options f state = .done next :=
  nofun

theorem rmMissing_idle_iff (options : RmOptions) :
    (rmMissing options f state).value = state ↔ options.force := by
  rw [rmMissing]
  split
  · next force => exact iff_of_true rfl force
  · next asks =>
    exact iff_of_false (say_ne _) asks

theorem rmEntries_idle_iff (options : RmOptions) (directory : Nat) (basename : Str)
    (entries : List Nat) :
    (rmEntries place options directory basename entries state).value = state ↔
      ∀ i ∈ entries, (state.tree.entry i).name ≠ basename := by
  induction entries with
  | nil => exact iff_of_true rfl nofun
  | cons i rest induction =>
      rw [rmEntries, List.forall_mem_cons]
      dsimp only
      split
      · next other =>
        rw [induction, and_iff_right other]
      · next isName =>
        have moves := fun next => rmEntries_moves place next options directory basename rest
        have less := rmEntries_less place state options directory (not_not.mp isName) moves
        rw [rmEntries, if_neg isName] at less
        exact iff_of_false (ne_of_less less) fun others => isName others.1

theorem rmOne_done_iff (options : RmOptions) :
    (∃ next, rmOne place options f state = .done next) ↔ RmEnds place f state.tree options := by
  rw [rmOne, RmEnds]
  cases resolved : resolvePath place.home f place.cwd with
  | error raised => exact iff_of_true ⟨_, rfl⟩ (.inl (raises_error raised))
  | ok pname =>
      rw [or_iff_right (not_raises_ok pname), exists_ok_iff]
      dsimp only
      cases reached : state.tree.getPath place.limit (parentPath pname) with
      | error raised =>
          rw [or_iff_left not_exists_ok, escapes_error]
          cases raised with
          | indexError | fileNotFound => exact iff_of_false rmMissing_yields (by simp)
          | _ => exact iff_of_true ⟨_, rfl⟩ (by simp)
      | ok directory =>
          rw [or_iff_right (not_escapes_ok directory), exists_ok_iff]
          dsimp only
          cases got : state.tree.getPath place.limit pname with
          | error raised =>
              rw [or_iff_left not_found_and, escapes_error]
              cases raised with
              | indexError | fileNotFound => exact iff_of_false rmMissing_yields (by simp)
              | _ => exact iff_of_true ⟨_, rfl⟩ (by simp)
          | ok found =>
              have isThere : ∃ other, (.ok found : Except Raised Nat) = .ok other := ⟨found, rfl⟩
              rw [or_iff_right (not_escapes_ok found), and_iff_right isThere,
                HoneyPotFilesystem.children]
              cases contents : (state.tree.entry directory).contents with
              | list entries =>
                  rw [or_iff_right (by simp)]
                  exact rmEntries_done_iff options directory _ entries
              | bytes data =>
                  cases data with
                  | nil => exact iff_of_false (by simp) (by simp [RemovalRaises])
                  | cons byte data => exact iff_of_true ⟨_, rfl⟩ (.inl ⟨byte, data, rfl⟩)

theorem rmOne_idle_iff (options : RmOptions) :
    (rmOne place options f state).value = state ↔ RmIdle place f state.tree options := by
  rw [rmOne, RmIdle]
  cases resolved : resolvePath place.home f place.cwd with
  | error raised => exact iff_of_false (say_ne _) not_exists_ok
  | ok pname =>
      rw [exists_ok_iff]
      dsimp only
      cases reached : state.tree.getPath place.limit (parentPath pname) with
      | error raised =>
          rw [or_iff_left not_exists_ok]
          cases raised with
          | indexError | fileNotFound =>
              exact (rmMissing_idle_iff options).trans (by simp [Missing])
          | _ => exact iff_of_false (say_ne _) (by simp [Missing])
      | ok directory =>
          rw [or_iff_right fun missing => not_missing_ok directory missing.2, exists_ok_iff]
          dsimp only
          cases got : state.tree.getPath place.limit pname with
          | error raised =>
              rw [or_iff_left not_found_and]
              cases raised with
              | indexError | fileNotFound =>
                  exact (rmMissing_idle_iff options).trans (by simp [Missing])
              | _ => exact iff_of_false (say_ne _) (by simp [Missing])
          | ok found =>
              have isThere : ∃ other, (.ok found : Except Raised Nat) = .ok other := ⟨found, rfl⟩
              rw [or_iff_right fun missing => not_missing_ok found missing.2, and_iff_right isThere,
                HoneyPotFilesystem.children]
              cases contents : (state.tree.entry directory).contents with
              | list entries =>
                  rw [and_iff_right (by simp)]
                  exact rmEntries_idle_iff options directory _ entries
              | bytes data =>
                  cases data with
                  | nil => exact iff_of_true rfl ⟨by simp, by simp⟩
                  | cons byte data =>
                      exact iff_of_false (say_ne _) fun idle => idle.1 byte data rfl

end

/-! ## Folds -/

def oneByOne (command : List Str → State → State) (operands : List Str) (state : State) : State :=
  operands.foldl (fun state f => command [f] state) state

/-- The command on all operands does what the command on each of them does. -/
def Folds (command : List Str → State → State) (operands : List Str) (state : State) : Prop :=
  command operands state = oneByOne command operands state

/-- In the tree that the operands before leave, an operand that ends the command has only idle
ones behind it. -/
def OnlyIdleBehind (command : List Str → State → State) (ends idle : Str → HoneyPotFilesystem → Prop)
    (operands : List Str) (state : State) : Prop :=
  ∀ before f after, operands = before ++ f :: after → ends f (oneByOne command before state).tree →
    ∀ g ∈ after, idle g (oneByOne command (before ++ [f]) state).tree

section

variable {command : List Str → State → State} {step : Str → State → ForInStep State}
variable {ends idle : Str → HoneyPotFilesystem → Prop} {operands : List Str} {state : State}

theorem oneByOne_eq (single : ∀ f ∈ operands, ∀ state, command [f] state = loop step [f] state)
    (state : State) : oneByOne command operands state = each step operands state := by
  rw [oneByOne, each]
  exact List.foldl_ext _ _ _ fun state f member => single f member state

theorem folds_iff_onlyIdleBehind
    (moves : ∀ f state, (step f state).value = state ∨ Less state (step f state).value)
    (whole : command operands state = loop step operands state)
    (single : ∀ f ∈ operands, ∀ state, command [f] state = loop step [f] state)
    (ends_iff : ∀ f state, (∃ next, step f state = .done next) ↔ ends f state.tree)
    (idle_iff : ∀ f state, (step f state).value = state ↔ idle f state.tree) :
    Folds command operands state ↔ OnlyIdleBehind command ends idle operands state := by
  rw [Folds, whole, oneByOne_eq single, OperandLoop.loop_eq_each_iff moves,
    OperandLoop.settled_iff_splits, OnlyIdleBehind]
  apply forall_congr'
  intro before
  apply forall_congr'
  intro f
  apply forall_congr'
  intro after
  apply imp_congr_right
  intro split
  have first : ∀ g ∈ before, g ∈ operands := fun g member => split ▸ List.mem_append_left _ member
  have upTo : ∀ g ∈ before ++ [f], g ∈ operands := by
    intro g member
    rw [split]
    rcases List.mem_append.mp member with member | member
    · exact List.mem_append_left _ member
    · rw [List.mem_singleton.mp member]
      exact List.mem_append_right _ List.mem_cons_self
  rw [oneByOne_eq fun g member => single g (first g member),
    oneByOne_eq fun g member => single g (upTo g member), ends_iff]
  simp only [idle_iff]

end

section

variable (place : Place) (f : Str) (rest : List Str) (state : State)

theorem folds_mkdir_iff : Folds (mkdir place) (f :: rest) state ↔ rest = [] := by
  have moves : ∀ f state, Less state (mkdirOne place f state).value := by
    intro f state
    rcases mkdirOne_done place f state with ⟨next, done, less⟩
    rw [done]
    exact less
  have single : ∀ g ∈ f :: rest, ∀ state, mkdir place [g] state = loop (mkdirOne place) [g] state :=
    fun _ _ _ => rfl
  rcases mkdirOne_done place f state with ⟨next, done, -⟩
  rw [Folds, oneByOne_eq single, mkdir,
    OperandLoop.loop_eq_each_iff fun f state => .inr (moves f state), Settled, done]
  constructor
  · intro idle
    cases rest with
    | nil => rfl
    | cons later rest => exact absurd (idle later List.mem_cons_self) (ne_of_less (moves later next))
  · rintro rfl later member
    cases member

/-- In the tree that the operands before leave, only the last operand ends the command. -/
def EndsLast (command : List Str → State → State) (ends : Str → HoneyPotFilesystem → Prop)
    (operands : List Str) (state : State) : Prop :=
  ∀ before f after, operands = before ++ f :: after →
    ends f (oneByOne command before state).tree → after = []

theorem folds_rmdir_iff (operands : List Str) : Folds (rmdir place) operands state ↔
    EndsLast (rmdir place) (RmdirEnds place) operands state := by
  have never : ∀ f state, (rmdirOne place f state).value = state ↔ False := fun f state =>
    iff_of_false (ne_of_less (rmdirOne_moves place f state)) id
  have folds : Folds (rmdir place) operands state ↔
      OnlyIdleBehind (rmdir place) (RmdirEnds place) (fun _ _ => False) operands state :=
    folds_iff_onlyIdleBehind (fun f state => .inr (rmdirOne_moves place f state)) rfl
      (fun _ _ _ => rfl) (fun _ _ => rmdirOne_done_iff) never
  rw [folds, OnlyIdleBehind, EndsLast]
  simp only [List.eq_nil_iff_forall_not_mem]

theorem folds_touch_iff : Folds (touch place) (f :: rest) state ↔
    OnlyIdleBehind (touch place) (TouchEnds place) (TouchIdle place) (f :: rest) state :=
  folds_iff_onlyIdleBehind (touchOne_moves place) rfl (fun _ _ _ => rfl)
    (fun _ _ => touchOne_done_iff) fun _ _ => touchOne_idle_iff

variable {spell : List Str → List Str} {given : List Str} {operands : List Str}

theorem rm_spelled (spelled : rmGetopt (spell operands) = .ok (given, operands))
    (some_ : operands ≠ []) (state : State) : rm place (spell operands) state =
      if asksHelp given then state.say (.out RM_HELP)
      else loop (rmOne place (.of given)) operands state := by
  have spells : spell operands ≠ [] := by
    intro none_
    rw [none_] at spelled
    exact some_ (Prod.mk.inj (Except.ok.inj spelled)).2.symm
  rw [rm, if_neg spells, spelled]

theorem messages_help (operands : List Str) (state : State) :
    (operands.foldl (fun state _ => state.say (.out RM_HELP)) state).messages.length =
      state.messages.length + operands.length := by
  induction operands generalizing state with
  | nil => rfl
  | cons operand operands induction =>
      rw [List.foldl_cons, induction, List.length_cons, State.say, List.length_append]
      simp only [List.length_singleton]
      omega

/-- The options are the same for all operands and for each. -/
structure Spells (spell : List Str → List Str) (given operands : List Str) : Prop where
  whole : rmGetopt (spell operands) = .ok (given, operands)
  single : ∀ f ∈ operands, rmGetopt (spell [f]) = .ok (given, [f])

theorem folds_rm_iff (spells : Spells spell given (f :: rest)) :
    Folds (fun operands => rm place (spell operands)) (f :: rest) state ↔
      rest = [] ∨ asksHelp given = false ∧
        OnlyIdleBehind (fun operands => rm place (spell operands))
          (fun f tree => RmEnds place f tree (.of given))
          (fun f tree => RmIdle place f tree (.of given)) (f :: rest) state := by
  have single := fun g member => rm_spelled place (spells.single g member) (List.cons_ne_nil g [])
  have whole := rm_spelled place spells.whole (List.cons_ne_nil f rest) state
  by_cases help : asksHelp given = true
  · simp only [help, if_true] at single whole
    rw [help, or_iff_left (by simp), Folds, whole, oneByOne,
      List.foldl_ext _ (fun state _ => state.say (.out RM_HELP)) _
        fun state g member => single g member state]
    constructor
    · intro same
      have lengths := congrArg (fun state => state.messages.length) same
      rw [messages_help, State.say, List.length_append, List.length_singleton, List.length_cons]
        at lengths
      exact List.length_eq_zero_iff.mp (by omega)
    · rintro rfl
      rfl
  · rw [Bool.not_eq_true] at help
    simp only [help, Bool.false_eq_true, if_false] at single whole
    rw [and_iff_right help, ← folds_iff_onlyIdleBehind (rmOne_moves place · · (.of given)) whole
      single (fun _ _ => rmOne_done_iff _) fun _ _ => rmOne_idle_iff _]
    refine (or_iff_right_of_imp ?_).symm
    rintro rfl
    rfl

end

/-- Each command is the fold of its runs on one operand exactly as far as no operand that ends
it has one behind it for which there is something to do. -/
theorem folds_iff (place : Place) {spell : List Str → List Str} {given : List Str} {f : Str}
    {rest : List Str} (spells : Spells spell given (f :: rest)) (state : State) :
    (Folds (mkdir place) (f :: rest) state ↔ rest = []) ∧
      (Folds (rmdir place) (f :: rest) state ↔
        EndsLast (rmdir place) (RmdirEnds place) (f :: rest) state) ∧
      (Folds (fun operands => rm place (spell operands)) (f :: rest) state ↔
        rest = [] ∨ asksHelp given = false ∧
          OnlyIdleBehind (fun operands => rm place (spell operands))
            (fun f tree => RmEnds place f tree (.of given))
            (fun f tree => RmIdle place f tree (.of given)) (f :: rest) state) ∧
      (Folds (touch place) (f :: rest) state ↔
        OnlyIdleBehind (touch place) (TouchEnds place) (TouchIdle place) (f :: rest) state) :=
  ⟨folds_mkdir_iff place f rest state, folds_rmdir_iff place state _,
    folds_rm_iff place f rest state spells, folds_touch_iff place f rest state⟩

/-! ## Two operands -/

def rootPlace : Place :=
  { home := "/root".toList, cwd := "/".toList, uid := 0, gid := 0, now := 0, limit := 17 }

def smallState : State := { tree := smallTree }

/-- `touch x/y a` returns at the missing directory, and `a` is there. -/
theorem folds_touch : Folds (touch rootPlace) ["x/y".toList, "a".toList] smallState := by
  have spells : Spells id [] ["x/y".toList, "a".toList] := by
    constructor
    · rfl
    · intro f member
      simp only [List.mem_cons, List.not_mem_nil, or_false] at member
      rcases member with rfl | rfl
      · rfl
      · rfl
  have folds := folds_iff rootPlace spells smallState
  apply folds.2.2.2.mpr
  intro before f after split ends g member
  cases before with
  | nil =>
      cases split
      rw [List.mem_singleton.mp member]
      exact touchOne_idle_iff.mp rfl
  | cons _ before =>
      have none_ : after = [] := by
        cases before with
        | nil =>
            cases split
            rfl
        | cons _ before => cases before <;> cases split
      rw [none_] at member
      cases member

/-- `mkdir x y` makes one directory. -/
theorem folds_not_mkdir : ¬ Folds (mkdir rootPlace) ["x".toList, "y".toList] smallState := by
  intro folds
  cases (folds_mkdir_iff rootPlace _ _ smallState).mp folds

end Operands

end LlmHoneypot
