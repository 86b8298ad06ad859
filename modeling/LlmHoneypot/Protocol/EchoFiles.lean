import LlmHoneypot.Protocol.Landing

/-! # What `echo` writes and `cat` reads

A run of redirected `echo` commands on one path, what a shell stores there, and what
the session records of it. -/

namespace LlmHoneypot

namespace Protocol

open CmdParser Responder Vfs

variable {catOne : CatOne} {session next : Session} {path old : Str}

structure Echo where
  append : Bool
  content : Str
  deriving DecidableEq, Repr

namespace Echo

def mutation (path : Str) (echo : Echo) : CmdMutation :=
  if echo.append then .appendFile path echo.content else .createFile path echo.content

def store (file : Str) (echo : Echo) : Str :=
  (if echo.append then file else []) ++ echo.content ++ "\n".toList

/-- The content alone, without the newline of each line. -/
def join (text : Str) (echo : Echo) : Str := (if echo.append then text else []) ++ echo.content

end Echo

def stored (old : Str) (echoes : List Echo) : Str := echoes.foldl Echo.store old

def joined (old : Str) (echoes : List Echo) : Str := echoes.foldl Echo.join old

/-! ## What the session records -/

def snippetAt (path : Str) (session : Session) : Str :=
  ((session.world.files.get? path).bind (·.contentSnippet)).getD []

theorem echo_world {line : Str} {echo : Echo} (started : path ≠ [])
    (parsed : parseInputMutations line = [echo.mutation path]) :
    ∃ fact : FileFact,
      (applyInputMutations line session).world.files = session.world.files.set path fact ∧
        fact.sizeBytes = Text.utf8Length (echo.join (snippetAt path session)) ∧
        fact.contentSnippet = some ((echo.join (snippetAt path session)).take snippetLength) := by
  rw [applyInputMutations_world parsed]
  rcases echo with ⟨append, content⟩
  cases append with
  | false =>
      simp only [Echo.mutation, FileChange.apply, applyMutation, WorldState.addFile, started,
        if_false, Echo.join, Bool.false_eq_true, List.nil_append]
      exact ⟨_, rfl, rfl, rfl⟩
  | true =>
      simp only [Echo.mutation, FileChange.apply, applyMutation, WorldState.addFile, started,
        if_false, Echo.join, if_true]
      exact ⟨_, rfl, rfl, rfl⟩

theorem sameShell_echo {line : Str} {echo : Echo}
    (parsed : parseInputMutations line = [echo.mutation path]) :
    SameShell session (applyInputMutations line session) := by
  apply sameShell_typed parsed
  intro user now world
  rcases echo with ⟨_ | _, content⟩ <;> exact addFile_withoutFiles

def runLines (lines : List (Str × Echo)) (session : Session) : Session :=
  lines.foldl (fun session line => applyInputMutations line.1 session) session

/-- Every line is recorded as the echo it contains. -/
def Recorded (path : Str) (lines : List (Str × Echo)) : Prop :=
  ∀ line ∈ lines, parseInputMutations line.1 = [line.2.mutation path]

theorem take_join (text : Str) (echo : Echo) :
    (echo.join (text.take snippetLength)).take snippetLength =
      (echo.join text).take snippetLength := by
  unfold Echo.join
  split
  · rw [List.take_append, List.take_append, List.take_take, List.length_take, min_self]
    congr 2
    omega
  · rfl

theorem take_join_congr {text other : Str} (echo : Echo)
    (same : text.take snippetLength = other.take snippetLength) :
    (echo.join text).take snippetLength = (echo.join other).take snippetLength := by
  rw [← take_join text, same, take_join]

theorem utf8Length_append (text more : Str) :
    Text.utf8Length (text ++ more) = Text.utf8Length text + Text.utf8Length more := by
  simp [Text.utf8Length]

theorem utf8Length_take_le (count : Nat) (text : Str) :
    Text.utf8Length (text.take count) ≤ Text.utf8Length text := by
  conv_rhs => rw [← List.take_append_drop count text, utf8Length_append]
  exact Nat.le_add_right ..

theorem utf8Length_join_le {text other : Str} (echo : Echo)
    (shorter : Text.utf8Length text ≤ Text.utf8Length other) :
    Text.utf8Length (echo.join text) ≤ Text.utf8Length (echo.join other) := by
  unfold Echo.join
  split
  · rw [utf8Length_append, utf8Length_append]
    omega
  · exact Nat.le_refl _

theorem snippetAt_of_get? {fact : FileFact} (found : session.world.files.get? path = some fact) :
    snippetAt path session = fact.contentSnippet.getD [] := by
  rw [snippetAt, found]
  rfl

section Run

variable {lines : List (Str × Echo)}

theorem runLines_concat (line : Str × Echo) (session : Session) :
    runLines (lines ++ [line]) session = applyInputMutations line.1 (runLines lines session) :=
  List.foldl_concat ..

theorem sameShell_run (recorded : Recorded path lines) (session : Session) :
    SameShell session (runLines lines session) := by
  induction lines using List.reverseRecOn with
  | nil => exact .refl session
  | append_singleton lines line induction =>
      rw [runLines_concat]
      have before := induction fun other member => recorded other (by simp [member])
      exact before.trans (sameShell_echo (recorded line (by simp)))

theorem get?_run (started : path ≠ []) (recorded : Recorded path lines) (session : Session)
    {other : Str} (differs : other ≠ path) :
    (runLines lines session).world.files.get? other = session.world.files.get? other := by
  induction lines using List.reverseRecOn with
  | nil => rfl
  | append_singleton lines line induction =>
      rw [runLines_concat]
      rcases @echo_world (runLines lines session) _ _ _ started (recorded line (by simp)) with
        ⟨fact, files, -, -⟩
      rw [files, Dict.get?_set, if_neg differs]
      exact induction fun earlier member => recorded earlier (by simp [member])

theorem snippet_run (started : path ≠ []) (recorded : Recorded path lines) (session : Session) :
    (snippetAt path (runLines lines session)).take snippetLength =
        (joined (snippetAt path session) (lines.map Prod.snd)).take snippetLength ∧
      Text.utf8Length (snippetAt path (runLines lines session)) ≤
        Text.utf8Length (joined (snippetAt path session) (lines.map Prod.snd)) := by
  induction lines using List.reverseRecOn with
  | nil => exact ⟨rfl, Nat.le_refl _⟩
  | append_singleton lines line induction =>
      rcases induction fun earlier member => recorded earlier (by simp [member]) with
        ⟨begins, shorter⟩
      rcases @echo_world (runLines lines session) _ _ _ started (recorded line (by simp)) with
        ⟨fact, files, -, snippet⟩
      have stored : (applyInputMutations line.1 (runLines lines session)).world.files.get? path =
          some fact := by
        rw [files, Dict.get?_set, if_pos rfl]
      rw [runLines_concat, snippetAt_of_get? stored, snippet, Option.getD_some, joined,
        List.map_append, List.foldl_append, List.take_take, min_self]
      constructor
      · exact take_join_congr line.2 begins
      · exact (utf8Length_take_le ..).trans (utf8Length_join_le line.2 shorter)

theorem fact_run {line : Str × Echo} (started : path ≠ [])
    (recorded : Recorded path (lines ++ [line])) (session : Session) :
    ∃ fact,
      (runLines (lines ++ [line]) session).world.files.get? path = some fact ∧
        fact.sizeBytes ≤ Text.utf8Length
          (line.2.join (joined (snippetAt path session) (lines.map Prod.snd))) ∧
        fact.contentSnippet = some
          ((line.2.join (joined (snippetAt path session) (lines.map Prod.snd))).take
            snippetLength) := by
  have earlier : Recorded path lines := fun other member => recorded other (by simp [member])
  rcases snippet_run started earlier session with ⟨begins, shorter⟩
  rcases @echo_world (runLines lines session) _ _ _ started (recorded line (by simp)) with
    ⟨fact, files, size, snippet⟩
  refine ⟨fact, ?_, ?_, ?_⟩
  · rw [runLines_concat, files, Dict.get?_set, if_pos rfl]
  · rw [size]
    exact utf8Length_join_le line.2 shorter
  · rw [snippet]
    exact congrArg some (take_join_congr line.2 begins)

end Run

/-! ## What a shell stores -/

theorem joined_le_stored {text old : Str} (echoes : List Echo)
    (shorter : Text.utf8Length text ≤ Text.utf8Length old ∧ text.length ≤ old.length) :
    Text.utf8Length (joined text echoes) ≤ Text.utf8Length (stored old echoes) ∧
      (joined text echoes).length ≤ (stored old echoes).length := by
  induction echoes generalizing text old with
  | nil => exact shorter
  | cons echo echoes induction =>
      apply induction
      unfold Echo.join Echo.store
      split
      · simp only [utf8Length_append, List.length_append]
        omega
      · simp only [utf8Length_append, List.length_append]
        omega

theorem join_lt_store {text old : Str} (echo : Echo)
    (shorter : Text.utf8Length text ≤ Text.utf8Length old) :
    Text.utf8Length (echo.join text) < Text.utf8Length (echo.store old) := by
  have newline : 0 < Text.utf8Length "\n".toList := by decide
  unfold Echo.join Echo.store
  split <;> simp only [utf8Length_append] <;> omega

theorem joined_nil_lt_stored (old : Str) (echoes : List Echo) :
    stored old echoes = [] ∨ (joined [] echoes).length < (stored old echoes).length := by
  induction echoes using List.reverseRecOn with
  | nil =>
      cases old with
      | nil => exact .inl rfl
      | cons ch rest => exact .inr (Nat.succ_pos _)
  | append_singleton echoes echo _ =>
      have before := (@joined_le_stored [] old echoes ⟨Nat.zero_le _, Nat.zero_le _⟩).2
      right
      rw [joined, stored, List.foldl_concat, List.foldl_concat]
      change (echo.join (joined [] echoes)).length < (echo.store (stored old echoes)).length
      unfold Echo.join Echo.store
      split
      · simp only [List.length_append]
        simp
        omega
      · simp

def printed (snippet : Str) : Str :=
  if "\n".toList.isSuffixOf snippet then snippet else snippet ++ "\n".toList

theorem printed_length_le (snippet : Str) : (printed snippet).length ≤ snippet.length + 1 := by
  unfold printed
  split
  · omega
  · simp

theorem printed_take_iff (content : Str) :
    printed (content.take snippetLength) = content ++ "\n".toList ↔
      content.length ≤ snippetLength ∧ "\n".toList.isSuffixOf content = false := by
  constructor
  · intro equal
    have lengths := congrArg List.length equal
    have bound := printed_length_le (content.take snippetLength)
    have newline : "\n".toList.length = 1 := by decide
    rw [List.length_append, newline] at lengths
    rw [List.length_take] at bound
    have short : content.length ≤ snippetLength := by omega
    refine ⟨short, ?_⟩
    rw [List.take_of_length_le short, printed] at equal
    split at equal
    · have same := congrArg List.length equal
      rw [List.length_append, newline] at same
      omega
    · rename_i open_
      exact Bool.not_eq_true _ ▸ open_
  · rintro ⟨short, open_⟩
    rw [List.take_of_length_le short, printed, open_]
    rfl

/-- The recorded content prints as what a shell stores only where the last command
is the first one that counts, short, and does not end in a newline of its own. -/
theorem printed_join_iff (old : Str) (echoes : List Echo) (echo : Echo) :
    printed ((echo.join (joined [] echoes)).take snippetLength) =
        echo.store (stored old echoes) ↔
      (echo.append = false ∨ stored old echoes = []) ∧
        echo.content.length ≤ snippetLength ∧
          "\n".toList.isSuffixOf echo.content = false := by
  have alone : echo.append = false ∨ stored old echoes = [] →
      echo.join (joined [] echoes) = echo.content ∧
        echo.store (stored old echoes) = echo.content ++ "\n".toList := by
    unfold Echo.join Echo.store
    rintro (overwrites | empty)
    · simp [overwrites]
    · have shorter := (@joined_le_stored [] old echoes ⟨Nat.zero_le _, Nat.zero_le _⟩).2
      rw [empty] at shorter
      have none : joined [] echoes = [] := List.length_eq_zero_iff.mp (Nat.le_zero.mp shorter)
      simp [none, empty]
  by_cases first : echo.append = false ∨ stored old echoes = []
  · rcases alone first with ⟨content, stores⟩
    rw [content, stores, printed_take_iff]
    exact (and_iff_right first).symm
  · rw [not_or, Bool.not_eq_false] at first
    rcases first with ⟨appends, filled⟩
    have longer := (joined_nil_lt_stored old echoes).resolve_left filled
    simp only [appends, filled, Bool.true_eq_false, or_self, false_and, iff_false]
    intro equal
    have lengths := congrArg List.length equal
    have bound := printed_length_le ((echo.join (joined [] echoes)).take snippetLength)
    have newline : "\n".toList.length = 1 := by decide
    simp only [Echo.join, Echo.store, appends, if_true, List.length_append, List.length_take,
      newline] at lengths bound
    omega

/-! ## Reading back -/

def CatPrints (catOne : CatOne) (session : Session) (path text : Str) : Prop :=
  hCat catOne [path] session.shellContext session.effectiveUser = some { output := text }

def StatSize (session : Session) (path : Str) (size : Nat) : Prop :=
  ∃ node, session.vfs.statNode (normpath path) = some node ∧ node.size = size

/-- The run starts on a path that the session has not recorded, or by overwriting it. -/
def Begins (path : Str) (session : Session) (echoes : List Echo) : Prop :=
  session.world.files.get? path = none ∨ (echoes.head?.map Echo.append) = some false

theorem joined_of_begins {echoes : List Echo} (begins : Begins path session echoes) :
    joined (snippetAt path session) echoes = joined [] echoes := by
  rcases begins with fresh | overwrites
  · rw [snippetAt, fresh]
    rfl
  · cases echoes with
    | nil => cases overwrites
    | cons echo echoes =>
        have first : echo.append = false := by simpa using overwrites
        simp [joined, Echo.join, first]

/-- After a run of redirected echoes on an absolute path, ended by `line`, what a shell
has stored there is what `cat` prints and has the size that `stat` shows only under
an unnormalised spelling of a path that had this size before the run, for a last
command that begins the file, with at most two hundred characters. -/
theorem echo_read_back_iff (catOne : CatOne) (session : Session) (path old : Str)
    (lines : List (Str × Echo)) (line : Str × Echo)
    (absolute : "/".toList.isPrefixOf path = true) (recorded : Recorded path (lines ++ [line]))
    (begins : Begins path session ((lines ++ [line]).map Prod.snd)) :
    let text := stored old ((lines ++ [line]).map Prod.snd)
    let final := runLines (lines ++ [line]) session
    CatPrints catOne final path text ∧ StatSize final path (Text.utf8Length text) ↔
      (path ≠ normpath path ∧ StatSize session path (Text.utf8Length text)) ∧
        (line.2.append = false ∨ stored old (lines.map Prod.snd) = []) ∧
          line.2.content.length ≤ snippetLength ∧
            "\n".toList.isSuffixOf line.2.content = false := by
  intro text final
  have started : path ≠ [] := by
    rintro rfl
    cases absolute
  have textEq : text = line.2.store (stored old (lines.map Prod.snd)) := by
    simp only [text, List.map_append, stored, List.foldl_append]
    rfl
  have joinEq : line.2.join (joined (snippetAt path session) (lines.map Prod.snd)) =
      line.2.join (joined [] (lines.map Prod.snd)) := by
    have whole := joined_of_begins begins
    simp only [List.map_append, joined, List.foldl_append] at whole
    exact whole
  rcases fact_run started recorded session with ⟨fact, found, size, snippet⟩
  rw [joinEq] at size snippet
  have cat : CatPrints catOne final path text ↔
      (line.2.append = false ∨ stored old (lines.map Prod.snd) = []) ∧
        line.2.content.length ≤ snippetLength ∧
          "\n".toList.isSuffixOf line.2.content = false := by
    have stored : final.shellContext.world.files.get? path = some fact := found
    rw [← printed_join_iff, ← textEq, CatPrints, hCat_text absolute, stored]
    simp only [snippet, Option.map_some, Option.some.injEq, ResponderResult.mk.injEq, and_true]
    rfl
  have stat : StatSize final path (Text.utf8Length text) ↔
      path ≠ normpath path ∧ StatSize session path (Text.utf8Length text) := by
    by_cases normal : path = normpath path
    · have smaller : fact.sizeBytes < Text.utf8Length text := by
        have shorter := (@joined_le_stored [] old (lines.map Prod.snd)
          ⟨Nat.zero_le _, Nat.zero_le _⟩).1
        rw [textEq]
        exact Nat.lt_of_le_of_lt size (join_lt_store line.2 shorter)
      have atNormal : final.vfs.world.files.get? (normpath path) = some fact := normal ▸ found
      rcases statNode_of_get? atNormal with ⟨name, node⟩
      have different : ¬ StatSize final path (Text.utf8Length text) := by
        rintro ⟨other, isNode, sameSize⟩
        rw [node, Option.some.injEq] at isNode
        rw [← isNode] at sameSize
        exact absurd sameSize (Nat.ne_of_lt smaller)
      exact iff_of_false different fun ⟨irregular, _⟩ => irregular normal
    · have same : final.vfs.statNode (normpath path) = session.vfs.statNode (normpath path) :=
        statNode_congr (sameShell_run recorded session).loginUser
          (get?_run started recorded session (Ne.symm normal))
      rw [StatSize, StatSize, same]
      exact (and_iff_right normal).symm
  rw [cat, stat, and_comm]

/-- The spelling `/etc//hostname` and eleven characters happen to read back right. -/
theorem echo_hostname_reads_back :
    let final :=
      runLines [("echo 12345678901 > /etc//hostname".toList, ⟨false, "12345678901".toList⟩)] .root
    CatPrints (fun _ _ _ => none) final "/etc//hostname".toList "12345678901\n".toList ∧
      StatSize final "/etc//hostname".toList 12 := by
  apply (echo_read_back_iff (fun _ _ _ => none) .root "/etc//hostname".toList [] []
    ("echo 12345678901 > /etc//hostname".toList, ⟨false, "12345678901".toList⟩) (by decide)
    ?_ (.inl rfl)).mpr
  · exact ⟨⟨by decide, fileNode "hostname" 12, by decide, by decide⟩, .inl rfl, by decide,
      by decide⟩
  · intro line member
    rw [List.mem_singleton.mp member]
    decide

/-- `echo a > /tmp/f`: `stat` shows one byte, and there are two. -/
theorem echo_size_lacks_newline :
    ¬ ∀ catOne session path old (lines : List (Str × Echo)), lines ≠ [] →
      "/".toList.isPrefixOf path = true → Recorded path lines →
      Begins path session (lines.map Prod.snd) →
      CatPrints catOne (runLines lines session) path (stored old (lines.map Prod.snd)) ∧
        StatSize (runLines lines session) path
          (Text.utf8Length (stored old (lines.map Prod.snd))) := by
  intro all
  have recorded : Recorded "/tmp/f".toList [("echo a > /tmp/f".toList, ⟨false, "a".toList⟩)] := by
    intro line member
    rw [List.mem_singleton.mp member]
    decide
  have both := all (fun _ _ _ => none) .root "/tmp/f".toList []
    [("echo a > /tmp/f".toList, ⟨false, "a".toList⟩)] (by decide) (by decide) recorded (.inl rfl)
  rcases both.2 with ⟨node, isNode, size⟩
  have stated : (runLines [("echo a > /tmp/f".toList, ⟨false, "a".toList⟩)]
      Session.root).vfs.statNode (normpath "/tmp/f".toList) =
      some { name := "f".toList, kind := .file, size := 1 } := by decide
  rw [stated, Option.some.injEq] at isNode
  rw [← isNode] at size
  revert size
  decide

end Protocol

end LlmHoneypot
