import LlmHoneypot.Protocol.Reactor
import LlmHoneypot.Vfs.Agreement

/-! # The session files over time

The three ways in which a session's files change, and the views of them after any
number of changes. -/

namespace LlmHoneypot

namespace Protocol

open CmdParser (CmdMutation)
open Downloader Vfs

/-- A change of the world: a mutation that a command contains, a captured download,
a save of the editor. -/
inductive FileChange
  | typed (user : Str) (mutation : CmdMutation)
  | captured (intent : DownloadIntent) (result : FetchResult)
  | saved (resolved body : Str)

namespace FileChange

def apply (now : Nat) (world : WorldState) : FileChange → WorldState
  | typed user mutation => applyMutation user now world mutation
  | captured intent result =>
      if (result.outcome = .success ∨ result.outcome = .partialBody) ∧
          intent.outfile.getD [] ≠ [] then
        world.addFile (intent.outfile.getD []) result.bytesDownloaded result.sha256 now
          .downloaded (some result.url) none
      else world
  | saved resolved body =>
      world.addFile resolved (Text.utf8Length body) none now .edited none (some body)

/-- The paths that a change records, as the change spells them. -/
def written : FileChange → List Str
  | typed _ (.createFile path _) => [path]
  | typed _ (.appendFile path _) => [path]
  | typed _ (.copyFile _ dstPath) => [dstPath]
  | typed _ (.moveFile _ dstPath) => [dstPath]
  | typed _ _ => []
  | captured intent _ => [intent.outfile.getD []]
  | saved resolved _ => [resolved]

end FileChange

theorem addCaptured_world (intent : DownloadIntent) (result : FetchResult) (session : Session) :
    (addCaptured intent result session).world =
      (FileChange.captured intent result).apply session.clock session.world := by
  simp only [addCaptured, FileChange.apply]
  split <;> rfl

theorem applyInputMutations_world {command : Str} {mutation : CmdMutation} {session : Session}
    (parsed : CmdParser.parseInputMutations command = [mutation]) :
    (applyInputMutations command session).world =
      (FileChange.typed (session.world.effectiveUser session.loginUser) mutation).apply
        session.clock session.world := by
  simp only [applyInputMutations, Session.applyMutations, parsed]
  rfl

theorem keys_addFile {world : WorldState} {path key : Str} {size now : Nat}
    {sha256 url snippet : Option Str} {source : FileSource}
    (member : key ∈ (world.addFile path size sha256 now source url snippet).files.keys) :
    key = path ∨ key ∈ world.files.keys := by
  unfold WorldState.addFile at member
  split at member
  · exact .inr member
  · exact Dict.mem_keys_set.mp member

namespace FileChange

theorem keys_apply {now : Nat} {world : WorldState} {change : FileChange} {key : Str}
    (member : key ∈ (change.apply now world).files.keys) :
    key ∈ change.written ∨ key ∈ world.files.keys := by
  have wrote : ∀ {path : Str}, key = path ∨ key ∈ world.files.keys →
      key ∈ [path] ∨ key ∈ world.files.keys := fun either => by simpa using either
  cases change with
  | captured intent result =>
      simp only [apply] at member
      split at member
      · exact wrote (keys_addFile member)
      · exact .inr member
  | saved resolved body => exact wrote (keys_addFile member)
  | typed user mutation =>
      cases mutation with
      | createFile path content => exact wrote (keys_addFile member)
      | appendFile path content => exact wrote (keys_addFile member)
      | removeFile path => exact .inr (Dict.mem_keys_erase.mp member).2
      | copyFile path dstPath =>
          simp only [apply, applyMutation] at member
          split at member
          · exact wrote (keys_addFile member)
          · exact .inr member
      | moveFile path dstPath =>
          simp only [apply, applyMutation] at member
          split at member
          · apply wrote
            exact (keys_addFile member).imp_right fun kept => (Dict.mem_keys_erase.mp kept).2
          · exact .inr member
      | setEnv name value =>
          simp only [apply, applyMutation, WorldState.addEnv] at member
          split at member <;> exact .inr member
      | pushUser target =>
          simp only [apply, applyMutation, WorldState.pushUser] at member
          split at member <;> exact .inr member
      | popUser => exact .inr member
      | addProcess command =>
          simp only [apply, applyMutation, WorldState.addProcess] at member
          split at member <;> exact .inr member

end FileChange

/-- The world after a list of changes, each at its time. -/
def worldAfter (changes : List (Nat × FileChange)) : WorldState :=
  changes.foldl (fun world change => change.2.apply change.1 world) {}

theorem keys_worldAfter {changes : List (Nat × FileChange)} {key : Str}
    (member : key ∈ (worldAfter changes).files.keys) :
    ∃ change ∈ changes, key ∈ change.2.written := by
  induction changes using List.reverseRecOn with
  | nil => cases member
  | append_singleton changes change induction =>
      rw [worldAfter, List.foldl_concat] at member
      rcases FileChange.keys_apply member with wrote | kept
      · exact ⟨change, by simp, wrote⟩
      · rcases induction kept with ⟨earlier, among, wrote⟩
        exact ⟨earlier, by simp [among], wrote⟩

/-- After any changes, `ls` and `stat` agree on an entry exactly if the skeleton and
the recorded paths are coherent there; while every recorded path is well placed, they
are wherever the skeleton's own entry is an ordinary one. -/
theorem ls_stat_agree_iff (username : Str) (changes : List (Nat × FileChange)) :
    (∀ dir name, LsStatAgree ⟨worldAfter changes, username⟩ dir name ↔
      Coherent ⟨worldAfter changes, username⟩ dir name) ∧
    ((∀ change ∈ changes, ∀ path ∈ change.2.written, WellPlaced username path) →
      ∀ dir name, Ordinary username dir name →
        LsStatAgree ⟨worldAfter changes, username⟩ dir name) := by
  refine ⟨fun dir name => lsStatAgree_iff _ dir name, fun placed dir name ordinary => ?_⟩
  apply (lsStatAgree_iff _ dir name).mpr
  refine coherent_of_wellPlaced (fun path member => ?_) ordinary
  rcases keys_worldAfter member with ⟨change, among, wrote⟩
  exact placed change among path wrote

/-- An upload into `/tmp` and its removal keep the views in agreement. -/
theorem ls_stat_agree_upload :
    LsStatAgree
      ⟨worldAfter
        [(5, .typed "root".toList (.createFile "/tmp/a".toList "x".toList)),
          (6, .typed "root".toList (.moveFile "/tmp/a".toList "/tmp/b".toList))], "root".toList⟩
      (.ofText "/tmp".toList) ⟨"b".toList, by decide⟩ := by
  apply (ls_stat_agree_iff ..).2
  · intro change member path wrote
    simp only [List.mem_cons, List.not_mem_nil, or_false] at member
    rcases member with rfl | rfl
    · rw [List.mem_singleton.mp wrote]
      exact ⟨.ofText "/tmp".toList, ⟨"a".toList, by decide⟩, by decide, by decide, by decide⟩
    · rw [List.mem_singleton.mp wrote]
      exact ⟨.ofText "/tmp".toList, ⟨"b".toList, by decide⟩, by decide, by decide, by decide⟩
  · intro node found
    cases found

/-- After `echo hi > /etc/passwd`, `ls` keeps reporting the size of the skeleton. -/
theorem edited_skeleton_file_disagrees :
    ¬ LsStatAgree
      ⟨worldAfter
        [(5, .typed "root".toList (.createFile "/etc/passwd".toList "hi".toList))], "root".toList⟩
      (.ofText "/etc".toList) ⟨"passwd".toList, by decide⟩ := by
  intro agree
  rcases agree _ rfl with ⟨-, same, -⟩
  have report := same (fileNode "passwd" 1684) (by decide) _ rfl rfl
  exact absurd report.size (by decide)

end Protocol

end LlmHoneypot
