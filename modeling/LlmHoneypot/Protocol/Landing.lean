import LlmHoneypot.FileHandlers
import LlmHoneypot.Protocol.FileChanges
import LlmHoneypot.Vfs.Recording

/-! # Where session files land

A command records the path as it is typed; `ls`, `stat` and `cat` resolve theirs
against the directory of the session. -/

namespace LlmHoneypot

namespace Protocol

open CmdParser Downloader Responder Vfs

variable {catOne : CatOne} {session next : Session} {dir : AbsPath} {name : FileName}
  {path : Str}

namespace Session

def vfs (session : Session) : Vfs := ⟨session.world, session.loginUser⟩

end Session

/-! ## Finding a file -/

def CatFinds (catOne : CatOne) (session : Session) (path : Str) : Prop :=
  path ∈ session.world.files.keys ∨
    ∃ result, hCat catOne [path] session.shellContext session.effectiveUser = some result ∧
      result.isError = false

theorem catFinds_text (target : AbsPath) :
    CatFinds catOne session target.text ↔
      target.text ∈ session.world.files.keys ∨
        ∃ result,
          catOne target.text session.shellContext.withoutFiles session.effectiveUser =
            some result ∧ result.isError = false := by
  rw [CatFinds, hCat_text target.isPrefixOf_text]
  cases stored : session.shellContext.world.files.get? target.text with
  | some fact =>
      have recorded : target.text ∈ session.world.files.keys :=
        Dict.mem_keys_iff.mpr ⟨fact, stored⟩
      simp [recorded]
  | none => rfl

/-- `ls` of the directory and `stat` find the entry. -/
structure FoundEntry (session : Session) (dir : AbsPath) (name : FileName) : Prop where
  listed : session.vfs.Listed dir name
  stated : (session.vfs.statNode (dir.child name).text).isSome

/-- `ls` of the directory, `stat` and `cat` find the file. -/
structure FoundFile (catOne : CatOne) (session : Session) (dir : AbsPath) (name : FileName) :
    Prop where
  listed : session.vfs.Listed dir name
  stated : (session.vfs.statNode (dir.child name).text).isSome
  printed : CatFinds catOne session (dir.child name).text

def OthersKept (session next : Session) (dir : AbsPath) : Prop :=
  ∀ other entry, other ≠ dir → (next.vfs.Listed other entry ↔ session.vfs.Listed other entry)

/-! ## Commands -/

/-- A command that records `path`: `touch`, `echo` with a redirection, a completed
download with an output name. -/
inductive RecordsPath (path : Str) (session : Session) : Session → Prop
  | created (line content : Str) (parsed : parseInputMutations line = [.createFile path content]) :
      RecordsPath path session (applyInputMutations line session)
  | appended (line content : Str) (parsed : parseInputMutations line = [.appendFile path content]) :
      RecordsPath path session (applyInputMutations line session)
  | captured (intent : DownloadIntent) (result : FetchResult) (named : intent.outfile = some path)
      (complete : result.outcome = .success ∨ result.outcome = .partialBody) :
      RecordsPath path session (addCaptured intent result session)

theorem keys_addFile_iff {world : WorldState} {key : Str} {size now : Nat}
    {sha256 url snippet : Option Str} {source : FileSource} :
    key ∈ (world.addFile path size sha256 now source url snippet).files.keys ↔
      (key = path ∧ path ≠ []) ∨ key ∈ world.files.keys := by
  unfold WorldState.addFile
  split
  · rename_i empty
    simp [empty]
  · rename_i started
    simp [started]

theorem addFile_withoutFiles {world : WorldState} {size now : Nat}
    {sha256 url snippet : Option Str} {source : FileSource} :
    (world.addFile path size sha256 now source url snippet).withoutFiles =
      world.withoutFiles := by
  unfold WorldState.addFile
  split <;> rfl

structure SameShell (session next : Session) : Prop where
  loginUser : next.loginUser = session.loginUser
  cwd : next.cwd = session.cwd
  hostname : next.hostname = session.hostname
  clock : next.clock = session.clock
  world : next.world.withoutFiles = session.world.withoutFiles

namespace SameShell

theorem refl (session : Session) : SameShell session session := ⟨rfl, rfl, rfl, rfl, rfl⟩

theorem trans {final : Session} (first : SameShell session next)
    (second : SameShell next final) : SameShell session final :=
  ⟨second.loginUser.trans first.loginUser, second.cwd.trans first.cwd,
    second.hostname.trans first.hostname, second.clock.trans first.clock,
    second.world.trans first.world⟩

theorem context (same : SameShell session next) :
    next.shellContext.withoutFiles = session.shellContext.withoutFiles := by
  simp only [ShellContext.withoutFiles, Session.shellContext, same.world, same.cwd,
    same.loginUser, same.hostname, same.clock]

theorem effectiveUser (same : SameShell session next) :
    next.effectiveUser = session.effectiveUser := by
  have stack := congrArg WorldState.userStack same.world
  simp only [WorldState.withoutFiles] at stack
  simp only [Session.effectiveUser, WorldState.effectiveUser, stack, same.loginUser]

theorem catFinds (same : SameShell session next) (target : AbsPath) :
    CatFinds catOne next target.text ↔
      target.text ∈ next.world.files.keys ∨
        ∃ result,
          catOne target.text session.shellContext.withoutFiles session.effectiveUser =
            some result ∧ result.isError = false := by
  rw [catFinds_text, same.context, same.effectiveUser]

end SameShell

theorem sameShell_typed {line : Str} {mutation : CmdMutation}
    (parsed : parseInputMutations line = [mutation])
    (onFiles : ∀ user now world,
      (applyMutation user now world mutation).withoutFiles = world.withoutFiles) :
    SameShell session (applyInputMutations line session) :=
  ⟨rfl, rfl, rfl, rfl, by
    rw [applyInputMutations_world parsed]
    exact onFiles ..⟩

theorem sameShell_addCaptured (intent : DownloadIntent) (result : FetchResult) :
    SameShell session (addCaptured intent result session) := by
  simp only [addCaptured]
  split
  · exact ⟨rfl, rfl, rfl, rfl, addFile_withoutFiles⟩
  · exact ⟨rfl, rfl, rfl, rfl, rfl⟩

namespace RecordsPath

theorem sameShell (records : RecordsPath path session next) : SameShell session next := by
  cases records with
  | created line content parsed =>
      exact sameShell_typed parsed fun _ _ _ => addFile_withoutFiles
  | appended line content parsed =>
      exact sameShell_typed parsed fun _ _ _ => addFile_withoutFiles
  | captured intent result named complete => exact sameShell_addCaptured intent result

theorem vfs (records : RecordsPath path session next) : Records path session.vfs next.vfs := by
  refine ⟨records.sameShell.loginUser, fun key => ?_⟩
  cases records with
  | created line content parsed =>
      rw [Session.vfs, applyInputMutations_world parsed]
      exact keys_addFile_iff
  | appended line content parsed =>
      rw [Session.vfs, applyInputMutations_world parsed]
      exact keys_addFile_iff
  | captured intent result named complete =>
      rw [Session.vfs, addCaptured_world]
      simp only [FileChange.apply, named, Option.getD_some, complete, true_and]
      split
      · exact keys_addFile_iff
      · rename_i empty
        simp [not_not.mp empty, Session.vfs]

end RecordsPath

/-! ## Landing -/

/-- The path is recorded as the readers resolve it: it is the absolute normal one, its
directory is no file, and it was no directory merely for the files under it. Or it is
another spelling, the entry was found before, and so was the entry that it is filed
as. -/
def LandsWhen (catOne : CatOne) (session : Session) (path : Str) (dir : AbsPath)
    (name : FileName) : Prop :=
  (path = (dir.child name).text ∧ ¬ session.vfs.Blocked dir ∧
    (session.vfs.Holds (dir.child name) →
      (session.vfs.statNode (dir.child name).text).isSome)) ∨
  (path ≠ (dir.child name).text ∧ (session.vfs.statNode (dir.child name).text).isSome ∧
    CatFinds catOne session (dir.child name).text ∧
    (session.vfs.Listed dir name ∨
      ¬ session.vfs.Blocked dir ∧ split path = (dir.text, name.1)) ∧
    ∀ other entry, other ≠ dir → split path = (other.text, entry.1) →
      session.vfs.Blocked other ∨ session.vfs.Listed other entry)

theorem irregular_of_resolved {cwd : Str} {target : AbsPath}
    (resolved : AbsPath.resolve cwd path = target) (differs : path ≠ target.text)
    (other : AbsPath) : other.text ≠ path := by
  rintro rfl
  rw [AbsPath.resolve_text] at resolved
  exact differs (congrArg AbsPath.text resolved)

theorem lands_iff (resolved : AbsPath.resolve session.cwd path = dir.child name)
    (records : RecordsPath path session next) :
    FoundFile catOne next dir name ∧ OthersKept session next dir ↔
      LandsWhen catOne session path dir name := by
  have found : FoundFile catOne next dir name ↔
      next.vfs.Listed dir name ∧ (next.vfs.statNode (dir.child name).text).isSome ∧
        CatFinds catOne next (dir.child name).text :=
    ⟨fun ⟨listed, stated, printed⟩ => ⟨listed, stated, printed⟩,
      fun ⟨listed, stated, printed⟩ => ⟨listed, stated, printed⟩⟩
  have keys := records.vfs.mem_keys (dir.child name)
  have printed : CatFinds catOne next (dir.child name).text ↔
      (dir.child name).text = path ∨ CatFinds catOne session (dir.child name).text := by
    rw [records.sameShell.catFinds, catFinds_text, ← or_assoc]
    exact or_congr_left keys
  rw [found, records.vfs.statFinds, printed]
  by_cases regular : path = (dir.child name).text
  · subst regular
    simp only [LandsWhen, true_or, and_true, true_and, ne_eq, not_true_eq_false, false_and,
      or_false]
    exact and_congr records.vfs.listed_self records.vfs.others_self
  · have irregular := irregular_of_resolved resolved regular
    have others : OthersKept session next dir ↔
        ∀ other entry, other ≠ dir → split path = (other.text, entry.1) →
          session.vfs.Blocked other ∨ session.vfs.Listed other entry := by
      apply forall_congr'
      intro other
      apply forall_congr'
      intro entry
      apply imp_congr_right
      intro _
      rw [records.vfs.listed_other irregular, or_iff_left_iff_imp, and_comm, and_imp]
      apply imp_congr_right
      intro _
      rw [or_iff_not_imp_left]
    rw [others, records.vfs.listed_other irregular]
    simp only [LandsWhen, regular, Ne.symm regular, false_and, false_or, ne_eq,
      not_false_eq_true, true_and]
    constructor
    · rintro ⟨⟨listed, stated, printed⟩, quiet⟩
      exact ⟨stated, printed, listed, quiet⟩
    · rintro ⟨stated, printed, listed, quiet⟩
      exact ⟨⟨listed, stated, printed⟩, quiet⟩

/-! ## Commands that record nothing -/

theorem firstWord_of_afterVerb {verb text rest : Str}
    (visible : verb.all (fun ch => !Text.isSpace ch) = true)
    (found : afterVerb verb text = some rest) :
    Text.firstWord (Text.lstrip text) = verb := by
  simp only [afterVerb] at found
  split at found
  · rename_i isPrefix
    rcases List.isPrefixOf_iff_prefix.mp isPrefix with ⟨more, equal⟩
    rw [← equal, List.drop_left] at found
    rw [← equal]
    split at found
    · rename_i ch after
      split at found
      · rename_i space
        rw [Text.firstWord, List.takeWhile_append_of_pos (by simpa using visible)]
        simp [space]
      · cases found
    · cases found
  · cases found

def KeepsFiles (mutation : CmdMutation) : Prop :=
  ∀ user now world, (applyMutation user now world mutation).files = world.files

theorem keepsFiles_pushUser (target : Str) : KeepsFiles (.pushUser target) := by
  intro user now world
  simp only [applyMutation, WorldState.pushUser]
  split <;> rfl

theorem keepsFiles_assignment (assign : Str × Str) : KeepsFiles (assignment assign) := by
  intro user now world
  simp only [assignment, applyMutation, WorldState.addEnv]
  split <;> rfl

theorem keepsFiles_addProcess (command : Str) : KeepsFiles (.addProcess command) := by
  intro user now world
  simp only [applyMutation, WorldState.addProcess]
  split <;> rfl

theorem parseInputMutations_mkdir {line : Str}
    (isMkdir : Text.firstWord (Text.strip (splitFirstCommand line)) = "mkdir".toList) :
    ∀ mutation ∈ parseInputMutations line, KeepsFiles mutation := by
  intro mutation member
  have verbs : ∀ verb ∈ ["echo", "touch", "rm", "cp", "mv"].map String.toList,
      verb.all (fun ch => !Text.isSpace ch) = true ∧ verb ≠ "mkdir".toList := by decide
  have noVerb : ∀ verb ∈ ["echo", "touch", "rm", "cp", "mv"].map String.toList,
      afterVerb verb (Text.strip (splitFirstCommand line)) = none := by
    intro verb among
    rw [Option.eq_none_iff_forall_ne_some]
    intro rest found
    have word := firstWord_of_afterVerb (verbs verb among).1 found
    rw [← Text.firstWord_strip, Text.strip_strip, isMkdir] at word
    exact (verbs verb among).2 word.symm
  have noEcho : echoRedirect (Text.strip (splitFirstCommand line)) = none := by
    rw [echoRedirect, noVerb _ (by decide)]
    rfl
  have noArgs : ∀ verb ∈ ["touch", "rm", "cp", "mv"].map String.toList,
      verbArgs verb (Text.strip (splitFirstCommand line)) = none := by
    intro verb among
    rw [verbArgs, noVerb verb (List.mem_cons_of_mem _ among)]
    rfl
  simp only [parseInputMutations, noEcho, noArgs "touch".toList (by decide),
    noArgs "rm".toList (by decide), noArgs "cp".toList (by decide),
    noArgs "mv".toList (by decide)] at member
  split at member
  · rename_i background found
    rw [List.mem_singleton.mp member]
    simp only [parseBackground, Option.ite_none_left_eq_some, Option.some.injEq] at found
    rw [← found.2.2]
    exact keepsFiles_addProcess _
  · split at member
    · cases member
    · split at member
      · rename_i switch found
        rw [List.mem_singleton.mp member]
        simp only [parseUserSwitch] at found
        split at found
        · cases found
        · cases found
        · split at found
          · cases found
            exact keepsFiles_pushUser _
          · split at found
            · split at found <;> cases found
              exact keepsFiles_pushUser _
            · cases found
      · have assigned : ∀ {found : Option (Str × Str)},
            mutation ∈ found.toList.map assignment → KeepsFiles mutation := by
          intro found among
          rcases List.mem_map.mp among with ⟨assign, -, rfl⟩
          exact keepsFiles_assignment assign
        split at member
        · exact assigned member
        · split at member
          · exact assigned member
          · cases member

theorem files_applyInputMutations {line : Str}
    (keeps : ∀ mutation ∈ parseInputMutations line, KeepsFiles mutation) :
    (applyInputMutations line session).world.files = session.world.files := by
  simp only [applyInputMutations, Session.applyMutations]
  generalize session.world = world
  generalize parseInputMutations line = mutations at keeps
  induction mutations generalizing world with
  | nil => rfl
  | cons mutation mutations induction =>
      have later := induction
        (applyMutation (world.effectiveUser session.loginUser) session.clock world mutation)
        fun other member => keeps other (List.mem_cons_of_mem _ member)
      exact later.trans (keeps mutation (List.mem_cons_self ..) ..)

theorem foundEntry_of_files (files : next.world.files = session.world.files)
    (loginUser : next.loginUser = session.loginUser) :
    (FoundEntry next dir name ↔ FoundEntry session dir name) ∧ OthersKept session next dir := by
  have sameIsDir : ∀ path, next.vfs.isDir path = session.vfs.isDir path := by
    intro path
    simp only [Session.vfs, isDir, skeleton, home, loginUser]
  have sameIsFile : ∀ path, next.vfs.isFile path = session.vfs.isFile path := by
    intro path
    simp only [Session.vfs, isFile, skeleton, home, worldNode, files, loginUser]
  have sameFiled : ∀ dir name, next.vfs.Filed dir name ↔ session.vfs.Filed dir name := by
    intro dir name
    simp only [Session.vfs, Filed, files]
  have sameNode : ∀ dir name, next.vfs.skeletonNode dir name = session.vfs.skeletonNode dir name := by
    intro dir name
    simp only [Session.vfs, skeletonNode, baseEntries, skeleton, home, loginUser]
  have sameListed : ∀ dir name, next.vfs.Listed dir name ↔ session.vfs.Listed dir name := by
    intro dir name
    simp only [listed_iff, Blocked, sameIsDir, sameIsFile, sameNode, sameFiled]
  have sameStated : (next.vfs.statNode (dir.child name).text).isSome ↔
      (session.vfs.statNode (dir.child name).text).isSome := by
    rw [statNode_isSome_iff, statNode_isSome_iff, sameIsDir, sameIsFile]
  constructor
  · constructor
    · rintro ⟨listed, stated⟩
      exact ⟨(sameListed ..).mp listed, sameStated.mp stated⟩
    · rintro ⟨listed, stated⟩
      exact ⟨(sameListed ..).mpr listed, sameStated.mpr stated⟩
  · intro other entry _
    exact sameListed other entry

/-- Whatever the directory of the session: a recorded path is found where the readers
resolve it exactly under `LandsWhen`; the path of `mkdir` and the file of a download
without an output name are found exactly if they were before. -/
theorem session_file_lands_iff (catOne : CatOne) (session : Session) (path : Str)
    (dir : AbsPath) (name : FileName)
    (resolved : AbsPath.resolve session.cwd path = dir.child name) :
    (∀ next, RecordsPath path session next →
      (FoundFile catOne next dir name ∧ OthersKept session next dir ↔
        LandsWhen catOne session path dir name)) ∧
    (∀ line, Text.firstWord (Text.strip (splitFirstCommand line)) = "mkdir".toList →
      (FoundEntry (applyInputMutations line session) dir name ∧
          OthersKept session (applyInputMutations line session) dir ↔
        FoundEntry session dir name)) ∧
    (∀ intent result, intent.outfile = none →
      (FoundFile catOne (addCaptured intent result session) dir name ∧
          OthersKept session (addCaptured intent result session) dir ↔
        FoundFile catOne session dir name)) := by
  refine ⟨fun next records => lands_iff resolved records, fun line isMkdir => ?_, ?_⟩
  · have files := @files_applyInputMutations session _ (parseInputMutations_mkdir isMkdir)
    rcases @foundEntry_of_files _ _ dir name files rfl with ⟨found, others⟩
    rw [found]
    exact and_iff_left others
  · intro intent result unnamed
    have unchanged : addCaptured intent result session = session := by
      simp [addCaptured, unnamed]
    rw [unchanged]
    exact and_iff_left fun _ _ _ => Iff.rfl

/-- An absolute normal path in `/tmp` lands. -/
theorem touch_absolute_lands :
    FoundFile (fun _ _ _ => none)
        (applyInputMutations "touch /tmp/x".toList { Session.root with cwd := "/etc".toList })
        (.ofText "/tmp".toList) ⟨"x".toList, by decide⟩ ∧
      OthersKept { Session.root with cwd := "/etc".toList }
        (applyInputMutations "touch /tmp/x".toList { Session.root with cwd := "/etc".toList })
        (.ofText "/tmp".toList) := by
  apply ((session_file_lands_iff (fun _ _ _ => none) { Session.root with cwd := "/etc".toList }
    "/tmp/x".toList (.ofText "/tmp".toList) ⟨"x".toList, by decide⟩ (by decide)).1 _
    (.created "touch /tmp/x".toList [] (by decide))).mpr
  refine .inl ⟨by decide, ?_, ?_⟩
  · rintro ⟨known, -⟩
    revert known
    decide
  · rintro ⟨path, member, -⟩
    cases member

/-- A relative path does not: `touch x` in `/tmp` leaves `stat x` without a file. -/
theorem touch_relative_lost :
    ¬ ∀ catOne session path dir name next,
      AbsPath.resolve session.cwd path = AbsPath.child dir name →
      RecordsPath path session next →
      FoundFile catOne next dir name ∧ OthersKept session next dir := by
  intro all
  have landed := all (fun _ _ _ => none) { Session.root with cwd := "/tmp".toList } "x".toList
    (.ofText "/tmp".toList) ⟨"x".toList, by decide⟩ _ (by decide)
    (.created "touch x".toList [] (by decide))
  have stated := landed.1.stated
  revert stated
  decide

end Protocol

end LlmHoneypot
