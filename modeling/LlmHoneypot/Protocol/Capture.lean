import LlmHoneypot.Protocol.Dispatch

/-! # Payload capture

Which downloads of a chain are fetched. -/

namespace LlmHoneypot

namespace Protocol

open CmdChain Downloader Interactive Responder
open CmdParser (CmdMutation parseInputMutations)

variable {env : Env} {command : Str} {session next : Session}

/-! ## A download reaches its stage -/

def EARLIER_WORDS : List Str :=
  ["exit", "logout", "quit", "clear", "pwd", "cd"].map String.toList ++ PROGRAM_NAMES

theorem tool_differs (tool : Tool) :
    ∀ word ∈ EARLIER_WORDS, ¬ tool.text <+: word := by
  have bounded : ∀ word ∈ EARLIER_WORDS, tool.text.isPrefixOf word = false := by
    cases tool <;> decide
  intro word member isPrefix
  simpa [bounded word member] using List.isPrefixOf_iff_prefix.mpr isPrefix

theorem fastVerb?_word {word : Str} (isVerb : (fastVerb? word).isSome) :
    word ∈ EARLIER_WORDS := by
  refine List.mem_append_left PROGRAM_NAMES ?_
  unfold fastVerb? at isVerb
  split at isVerb
  · rename_i isLeave
    exact List.mem_append_left (["clear", "pwd", "cd"].map String.toList) isLeave
  · split at isVerb
    · rename_i isClear
      exact isClear ▸ by decide
    · split at isVerb
      · rename_i isPwd
        exact isPwd ▸ by decide
      · split at isVerb
        · rename_i isCd
          exact isCd ▸ by decide
        · cases isVerb

theorem download_firstWord (isDownload : parseDownloadCommand env.urlparse command ≠ .ok none) :
    ∃ tool : Tool, tool.text <+: Text.firstWord (Text.strip command) ∧
      Text.strip command ≠ [] := by
  rcases parseDownloadCommand_tool isDownload with ⟨tool, -, -, visible, first, -⟩
  obtain ⟨rest, parts⟩ : ∃ rest, command = splitPipeline command ++ rest := by
    unfold splitPipeline Text.beforeFirstOf
    cases found : SEPARATORS.findSome? (Text.before? · command) with
    | none => exact ⟨[], by simp⟩
    | some before =>
        rcases List.exists_of_findSome?_eq_some found with ⟨separator, -, at_⟩
        rcases Text.before?_append at_ with ⟨rest, equal, -⟩
        exact ⟨rest, equal⟩
  have isPrefix := Text.firstWord_strip_prefix rest visible
  rw [← parts, first] at isPrefix
  refine ⟨tool, isPrefix, ?_⟩
  intro blank
  rw [blank] at isPrefix
  have empty : tool.text = [] := List.prefix_nil.mp isPrefix
  cases tool <;> cases empty

theorem tryFastpath_download (isDownload : parseDownloadCommand env.urlparse command ≠ .ok none) :
    tryFastpath env command session = none := by
  rcases download_firstWord isDownload with ⟨tool, isPrefix, visible⟩
  cases fast : tryFastpath env command session with
  | none => rfl
  | some next =>
      have isVerb := (Bool.and_eq_true_iff.mp (isFastCommand_of_tryFastpath fast visible)).2
      exact absurd isPrefix (tool_differs tool _ (fastVerb?_word isVerb))

theorem programOf_download (isDownload : parseDownloadCommand env.urlparse command ≠ .ok none) :
    programOf env command session = none := by
  rcases download_firstWord isDownload with ⟨tool, isPrefix, -⟩
  cases made : programOf env command session with
  | none => rfl
  | some program =>
      rcases makeProgram_head made with ⟨name, member, head⟩
      rw [Text.words_head] at head
      split at head
      · cases head
      · cases head
        rw [Text.firstWord_strip] at isPrefix
        exact absurd isPrefix
          (tool_differs tool _ (List.mem_append_right
            (["exit", "logout", "quit", "clear", "pwd", "cd"].map String.toList) member))

theorem splitPipeline_of_free {raw : Str}
    (free : ¬ PipeFilters.UNSUPPORTED.any (Text.contains · raw)) :
    splitPipeline raw = (Text.before? "|".toList raw).getD raw := by
  have none_of {part : Str} (member : part ∈ PipeFilters.UNSUPPORTED) :
      Text.before? part raw = none := Text.before?_of_not_any free member
  simp only [splitPipeline, Text.beforeFirstOf, SEPARATORS, List.findSome?]
  rw [none_of (by decide), none_of (by decide), none_of (by decide)]
  simp only
  cases Text.before? "|".toList raw with
  | some before => rfl
  | none =>
      rw [none_of (by decide)]

theorem respondSimple_tool {tables : Tables} {raw : Str} {tool : Tool} {args : List Str}
    {ctx : ShellContext} (words : Shlex.split raw = some (tool.text :: args)) :
    respondSimple tables raw ctx = none :=
  respondSimple_unknown words (by cases tool <;> decide) (by cases tool <;> decide)

theorem splitPipeline_of_simple {raw : Str} (free : ¬ METACHARS.any (Text.contains · raw))
    (noPipe : '|' ∉ raw) : splitPipeline raw = raw := by
  have unsupportedFree : ¬ PipeFilters.UNSUPPORTED.any (Text.contains · raw) := by
    intro some_
    rcases List.any_eq_true.mp some_ with ⟨part, member, present⟩
    have meta_ : ∀ part ∈ PipeFilters.UNSUPPORTED, part ∈ METACHARS := by decide
    exact free (List.any_eq_true.mpr ⟨part, meta_ part member, present⟩)
  have absent : Text.before? "|".toList raw = none := by
    rw [Text.before?_eq_none_iff]
    intro isInfix
    exact noPipe (isInfix.subset (by decide))
  rw [splitPipeline_of_free unsupportedFree, absent]
  rfl

theorem respondIn_download (stripped : Text.strip command = command)
    (isDownload : parseDownloadCommand env.urlparse command ≠ .ok none) :
    respondIn env command session = none := by
  rcases parseDownloadCommand_tool isDownload with ⟨-, tool, args, -, -, words⟩
  simp only [respondIn, respond, stripped]
  split
  · rfl
  · rename_i visible
    split
    · rfl
    · split
      · rfl
      · rfl
      · rename_i stage stages
        rcases PipeFilters.splitPipeline_stages stages visible with
          ⟨-, noPipe⟩ | ⟨-, -, more, notSingle, equal⟩
        · by_cases free : METACHARS.any (Text.contains · command)
          · simp [respondSimple, free]
          · rw [splitPipeline_of_simple free noPipe, stripped] at words
            exact respondSimple_tool words
        · exact absurd (List.cons.inj equal).2.symm notSingle
      · rename_i first more notSingle stages
        rcases PipeFilters.splitPipeline_stages stages visible with
          ⟨single, -⟩ | ⟨-, free, rest, -, equal⟩
        · exact absurd (List.cons.inj single).2 notSingle
        · rw [splitPipeline_of_free free, ← (List.cons.inj equal).1] at words
          simp [respondSimple_tool words]

/-! ## Fetches of a chain -/

def downloadOf (env : Env) (command : Str) : Option DownloadIntent :=
  match parseDownloadCommand env.urlparse command with
  | .ok intent => intent
  | .error _ => none

theorem downloadOf_eq_none (isOther : parseDownloadCommand env.urlparse command = .ok none) :
    downloadOf env command = none := by
  simp [downloadOf, isOther]

theorem fetched_tryFastpath (fast : tryFastpath env command session = some next) :
    next.fetched = session.fetched := by
  rcases shell_tryFastpath fast with same | popped | ⟨-, moved⟩
  · exact congrArg ShellView.fetched same
  · exact congrArg ShellView.fetched popped
  · exact congrArg ShellView.fetched moved

/-- A dispatched command is fetched once when it is a download and never when it
is not; a command that is left to the model is no download. -/
theorem fetched_dispatchLocal (session : Session) (capture : env.config.captureDownloads = true)
    (stripped : Text.strip command = command) :
    (dispatchLocal env command session).1.fetched =
        session.fetched ++ (downloadOf env command).toList ∧
      ((dispatchLocal env command session).2 = .declined → downloadOf env command = none) := by
  have noDownload {outcome : Session × Stage}
      (earlier : ¬ parseDownloadCommand env.urlparse command ≠ .ok none)
      (same : outcome.1.fetched = session.fetched) :
      outcome.1.fetched = session.fetched ++ (downloadOf env command).toList ∧
        (outcome.2 = .declined → downloadOf env command = none) := by
    have other := downloadOf_eq_none (Decidable.not_not.mp earlier)
    exact ⟨by simp [same, other], fun _ => other⟩
  have dispatched := dispatchLocal_dispatched env command session
  generalize dispatchLocal env command session = outcome at dispatched
  cases dispatched with
  | fast next fast =>
      refine noDownload (fun isDownload => ?_) (fetched_tryFastpath fast)
      rw [tryFastpath_download isDownload] at fast
      cases fast
  | rendered result slow rendered =>
      refine noDownload (fun isDownload => ?_)
        (congrArg ShellView.fetched (shell_emitDeterministic ..))
      rw [localRenderer, respondIn_download stripped isDownload] at rendered
      cases rendered
  | program program slow deferred connected enabled started =>
      refine noDownload (fun isDownload => ?_)
        (congrArg ShellView.fetched (shell_startProgram ..))
      rw [programOf_download isDownload] at started
      cases started
  | download intent slow deferred lined capture parsed =>
      have fetched := congrArg ShellView.fetched
        (shell_beginFetch env command (applyInputMutations command session) intent)
      refine ⟨fetched.trans (by simp [downloadOf, parsed]; rfl), fun declined => ?_⟩
      rcases beginFetch_stage env command intent (applyInputMutations command session) with
        raised | handled <;> simp_all
  | badUrl raised slow deferred lined capture parsed =>
      simp [downloadOf, parsed, applyInputMutations, Session.applyMutations]
  | declined slow deferred lined parsed =>
      exact noDownload (not_not.mpr (parsed capture)) rfl

theorem fetched_dispatchSegment (session : Session) (capture : env.config.captureDownloads = true)
    (stripped : Text.strip command = command) :
    (dispatchSegment env command session).1.fetched =
        session.fetched ++ (downloadOf env command).toList ∧
      ((dispatchSegment env command session).2 = .declined → downloadOf env command = none) :=
  fetched_dispatchLocal (session.setSuppressPrompt true) capture stripped

/-- Where a chain ends that did not reach the segments `rest`: after the last segment, or at one
that is handed to the model with everything after it and is no download. -/
def StopsBefore (env : Env) (rest : List Segment) : ChainEnd → Prop
  | .finished => rest = []
  | .handedOver text =>
      ∃ segment later, rest = segment :: later ∧ text = remainder segment.command later ∧
        downloadOf env segment.command = none
  | .raised => False

theorem fetched_chainLoop (session : Session) (capture : env.config.captureDownloads = true)
    {segments : List Segment}
    (stripped : ∀ segment ∈ segments, Text.strip segment.command = segment.command)
    (joined : ∀ segment ∈ segments,
      segment.operator = .start ∨ segment.operator = .semicolon)
    (accepted : ∀ segment ∈ segments, urlRejected env segment.command = false)
    (succeeded : Bool) :
    ∃ reached rest, segments = reached ++ rest ∧
      (chainLoop env succeeded segments session).session.fetched =
        session.fetched ++ reached.filterMap (downloadOf env ·.command) ∧
      StopsBefore env rest (chainLoop env succeeded segments session).ending := by
  induction segments generalizing succeeded session with
  | nil => exact ⟨[], [], by simp [chainLoop, StopsBefore]⟩
  | cons segment rest induction =>
      have always : shouldRun segment.operator succeeded = true := by
        rcases joined segment (by simp) with start | semicolon
        · rw [start]; rfl
        · rw [semicolon]; rfl
      rcases fetched_dispatchSegment session capture (stripped segment (by simp))
        with ⟨fetched, notDownload⟩
      have rejected : (dispatchSegment env segment.command session).2 = .raised →
          urlRejected env segment.command = true :=
        fun raised => urlRejected_of_raised
          (dispatchLocal_dispatched env segment.command (session.setSuppressPrompt true)) raised
      simp only [chainLoop, always, if_true]
      generalize dispatchSegment env segment.command session = outcome at fetched notDownload rejected
      rcases outcome with ⟨next, stage⟩
      simp only at fetched notDownload rejected
      cases stage with
      | raised =>
          have isAccepted := accepted segment (List.mem_cons_self ..)
          rw [rejected rfl] at isAccepted
          cases isAccepted
      | declined =>
          have other := notDownload rfl
          refine ⟨[], segment :: rest, rfl, ?_, segment, rest, rfl, rfl, other⟩
          simp [fetched, other]
      | handled ok =>
          rcases induction next (fun other member => stripped other (by simp [member]))
            (fun other member => joined other (by simp [member]))
            (fun other member => accepted other (by simp [member])) ok with
            ⟨reached, unreached, rfl, fetchedLater, stops⟩
          refine ⟨segment :: reached, unreached, rfl, ?_, stops⟩
          refine fetchedLater.trans ?_
          simp only [fetched, List.filterMap_cons]
          cases downloadOf env segment.command <;> simp

theorem fetched_finishChain (run : ChainRun) :
    (finishChain env run).1.fetched = run.session.fetched := by
  unfold finishChain
  split
  · exact congrArg ShellView.fetched (Session.shell_showPrompt ..)
  · exact congrArg ShellView.fetched (shell_processCommandWithLlm ..)
  · rfl

/-- A `;` chain without a URL that raises fetches its downloads once each and in order, up to
the segment it hands to the model. -/
theorem chain_fetches_before_handover {line : Str} {segments : List Segment}
    (split : splitChain line = some segments)
    (joined : ∀ segment ∈ segments,
      segment.operator = .start ∨ segment.operator = .semicolon)
    (accepted : ∀ segment ∈ segments, urlRejected env segment.command = false)
    (capture : env.config.captureDownloads = true) :
    ∃ reached rest, segments = reached ++ rest ∧
      (dispatchChain env segments session).1.fetched =
        session.fetched ++ reached.filterMap (downloadOf env ·.command) ∧
      StopsBefore env rest (chainLoop env true segments session).ending := by
  rcases fetched_chainLoop session capture (splitChain_stripped split) joined accepted
    true with ⟨reached, rest, parts, fetched, stops⟩
  exact ⟨reached, rest, parts, (fetched_finishChain _).trans fetched, stops⟩

def fetchChain : List Segment :=
  [⟨.start, "make".toList⟩, ⟨.semicolon, "wget http://e/a".toList⟩]

def fetchTwice : List Segment :=
  [⟨.start, "wget http://e/a".toList⟩, ⟨.semicolon, "curl http://e/b".toList⟩,
    ⟨.semicolon, "make".toList⟩, ⟨.semicolon, "wget http://e/c".toList⟩]

/-- Two fetches before `make`, which goes to the model, and none behind it. -/
theorem chain_fetches_before_handover_example :
    ((dispatchChain .pending fetchTwice .root).1.fetched.map (·.url)) =
        ["http://e/a".toList, "http://e/b".toList] ∧
      ∃ reached rest, fetchTwice = reached ++ rest ∧
        (dispatchChain .pending fetchTwice .root).1.fetched =
          Session.root.fetched ++ reached.filterMap (downloadOf .pending ·.command) ∧
        StopsBefore .pending rest (chainLoop .pending true fetchTwice .root).ending := by
  apply And.intro (by decide +kernel)
  have split : splitChain "wget http://e/a; curl http://e/b; make; wget http://e/c".toList =
      some fetchTwice := by decide +kernel
  exact chain_fetches_before_handover split (by decide) (by decide +kernel) rfl

/-- A download behind a segment that the model answers is not fetched. -/
theorem download_behind_handover_not_fetched :
    ¬ ∀ (env : Env) (session : Session) (line : Str) (segments : List Segment),
      splitChain line = some segments →
      (∀ segment ∈ segments, segment.operator = .start ∨ segment.operator = .semicolon) →
      env.config.captureDownloads = true →
      (dispatchChain env segments session).1.fetched =
        session.fetched ++ segments.filterMap (downloadOf env ·.command) := by
  intro all
  have fetched := all .pending .root "make; wget http://e/a".toList fetchChain (by decide)
    (by decide) rfl
  revert fetched
  decide

end Protocol

end LlmHoneypot
