import LlmHoneypot.Environment
import LlmHoneypot.Protocol.Directories

/-! # Home directories

The directories that `cd`, a tilde, `HOME` and the account file give for the user of a
session. -/

namespace LlmHoneypot

namespace Responder

open Protocol (Session applyInputMutations newCwd)
open CmdParser (CmdMutation parseInputMutations)

/-! ## Runs -/

/-- What can happen to the users, the variables and the directory of a session. -/
inductive Turn
  | line (text : Str)
  | leave
  | chdir (arg : Str)

def Turn.apply (session : Session) : Turn → Session
  | line text => applyInputMutations text session
  | leave => session.applyMutations [.popUser]
  | chdir arg => session.changeDirectory arg

def run (session : Session) (turns : List Turn) : Session := turns.foldl Turn.apply session

def HOME : Str := "HOME".toList

def SameDirectory (path other : Str) : Prop := AbsPath.ofText path = AbsPath.ofText other

/-- The turn assigns no other directory to `HOME`. -/
def Turn.KeepsHome (home : Str) : Turn → Prop
  | line text => ∀ value, Sets text HOME value → SameDirectory value home
  | leave | chdir _ => True

/-! ## One home -/

/-- All views of the home directory of the user in front name one directory. -/
structure OneHome (other : Tables) (pipesEnabled : Bool) (session : Session) (home : Str) :
    Prop where
  chdir : SameDirectory (session.changeDirectory []).cwd home
  chdirTilde : SameDirectory (session.changeDirectory "~".toList).cwd home
  tilde : SameDirectory (resolvePath "~".toList session.shellContext) home
  assigned : ∃ value, SameDirectory value home ∧
    HasLine session.shellContext HOME value ∧
    answer other pipesEnabled session.shellContext ["printenv".toList, HOME] =
      some { output := value ++ "\n".toList } ∧
    Echoes other pipesEnabled session.shellContext HOME value
  account : ∀ line, accountOf (etcPasswd session.loginUser) session.effectiveUser = some line →
    SameDirectory (field 5 line) home

/-! ## The directory of `cd` -/

section

open Protocol (collapse cdPath)

theorem ofText_slashes (path : Str) (more : Nat) :
    AbsPath.ofText (path ++ List.replicate more '/') = AbsPath.ofText path := by
  induction more with
  | zero => rw [List.replicate_zero, List.append_nil]
  | succ more induction =>
      rw [← induction, List.replicate_succ', ← List.append_assoc]
      ext1
      rw [AbsPath.ofText, AbsPath.ofText, Protocol.components_follow, Protocol.components_follow,
        Text.splitChar_between, List.foldl_append]
      rfl

theorem sameDirectory_collapse (path : Str) : SameDirectory (collapse path) path := by
  have slashes : path.rtakeWhile (· = '/') =
      List.replicate (path.rtakeWhile (· = '/')).length '/' := by
    apply List.eq_replicate_of_mem
    intro ch member
    have slash := List.mem_rtakeWhile_imp member
    exact of_decide_eq_true slash
  have whole : path = path.rdropWhile (· = '/') ++
      List.replicate (path.rtakeWhile (· = '/')).length '/' := by
    rw [← slashes]
    exact (List.rdropWhile_append_rtakeWhile ..).symm
  have shorter : AbsPath.ofText path = AbsPath.ofText (path.rdropWhile (· = '/')) := by
    conv_lhs => rw [whole]
    exact ofText_slashes _ _
  rw [SameDirectory, shorter, collapse]
  split
  · next empty =>
    rw [empty]
    rfl
  · rfl

theorem sameDirectory_cd (session : Session) {arg : Str} (isHome : arg = [] ∨ arg = "~".toList) :
    SameDirectory (session.changeDirectory arg).cwd (homeFor session.loginUser) := by
  have path : cdPath (homeFor session.loginUser) session.cwd session.prevCwd arg =
      homeFor session.loginUser := if_pos isHome
  have cwd : (session.changeDirectory arg).cwd = collapse (homeFor session.loginUser) :=
    (Protocol.newCwd_eq ..).trans (congrArg collapse path)
  rw [cwd]
  exact sameDirectory_collapse _

end

/-! ## The account file -/

section

variable {login : Str}

theorem mem_of_splitChar {separator ch : Char} {text part : Str}
    (member : part ∈ Text.splitChar separator text) (inPart : ch ∈ part) : ch ∈ text := by
  induction text generalizing part with
  | nil =>
      rw [List.mem_singleton.mp member] at inPart
      cases inPart
  | cons first rest induction =>
      rw [Text.splitChar] at member
      split at member
      · rcases List.mem_cons.mp member with rfl | later
        · cases inPart
        · exact List.mem_cons_of_mem _ (induction later inPart)
      · rcases Text.splitChar_head separator rest with ⟨tail, equal, -⟩
        rw [equal] at member induction
        rcases List.mem_cons.mp member with rfl | later
        · rcases List.mem_cons.mp inPart with rfl | inHead
          · exact List.mem_cons_self
          · exact List.mem_cons_of_mem _ (induction List.mem_cons_self inHead)
        · exact List.mem_cons_of_mem _ (induction (List.mem_cons_of_mem _ later) inPart)

theorem mem_of_field {index : Nat} {line : Str} {ch : Char} (member : ch ∈ field index line) :
    ch ∈ line := by
  rw [field, List.getD_eq_getElem?_getD] at member
  cases found : (Text.splitChar ':' line)[index]? with
  | none =>
      rw [found] at member
      cases member
  | some part =>
      rw [found] at member
      exact mem_of_splitChar (List.mem_of_getElem? found) member

theorem home_passwdLine (free : ':' ∉ login) :
    field 0 (passwdLine login) = login ∧ field 5 (passwdLine login) = "/home/".toList ++ login := by
  have uid := @notMem_decimal (uidFor login) ':' rfl
  have x : ':' ∉ ['x'] := by decide
  have comment : ':' ∉ login ++ ",,,".toList := by simp [free]
  have home : ':' ∉ "/home/".toList ++ login := by simp [free]
  have parts : Text.splitChar ':' (passwdLine login) =
      [login, ['x'], Text.decimal (uidFor login), Text.decimal (uidFor login),
        login ++ ",,,".toList, "/home/".toList ++ login, "/bin/bash".toList] := by
    have whole : passwdLine login = login ++ ':' :: (['x'] ++ ':' ::
        (Text.decimal (uidFor login) ++ ':' :: (Text.decimal (uidFor login) ++ ':' ::
          (login ++ ",,,".toList ++ ':' :: ("/home/".toList ++ login ++ ':' ::
            "/bin/bash".toList))))) := by
      simp [passwdLine]
    rw [whole, Text.splitChar_append free, Text.splitChar_append x, Text.splitChar_append uid,
      Text.splitChar_append uid, Text.splitChar_append comment, Text.splitChar_append home,
      Text.splitChar_free (by decide)]
  rw [field, field, parts]
  exact ⟨rfl, rfl⟩

theorem account_home (ordinary : login = "root".toList ∨ login ∉ SYSTEM_NAMES) {line : Str}
    (found : accountOf (etcPasswd login) login = some line) : field 5 line = homeFor login := by
  rw [accountOf, fileLines_passwd, accountIn] at found
  have isLogin : field 0 line = login := by
    have named := List.find?_some found
    exact of_decide_eq_true named
  have member := List.mem_of_find?_eq_some found
  rcases ordinary with root | other
  · have base := base_facts.2.2.2.2.2.1
    subst root
    rw [extraLines, if_neg (not_not.mpr rfl), List.append_nil, ← accountIn] at found
    rw [found] at base
    exact Option.some.inj base
  · have notRoot : login ≠ "root".toList := by
      intro root
      exact other (root ▸ by decide +kernel)
    have extra : line ∈ extraLines passwdLine login := by
      rcases List.mem_append.mp member with inBase | extra
      · rw [← base_facts.2.1] at other
        exact absurd (List.mem_map.mpr ⟨line, inBase, isLogin⟩) other
      · exact extra
    rw [extraLines, if_pos notRoot] at extra
    have clean : '\n' ∉ login := by
      intro newline
      rw [← isLogin] at newline
      exact Text.not_mem_splitChar extra (mem_of_field newline)
    have free : ':' ∉ login := isLogin ▸ notMem_field 0 line
    rw [Text.splitChar_free (clean_passwdLine clean), List.mem_singleton] at extra
    rw [extra, (home_passwdLine free).2, homeFor, if_neg notRoot]

end

/-! ## `HOME` -/

def HomeKept (home : Str) (world : WorldState) : Prop :=
  ∀ value, world.envVars.get? HOME = some value → SameDirectory value home

section

variable {home : Str} {session : Session}

theorem homeKept_assignVar {envVars : Dict Str Str} {mutations : List CmdMutation}
    (kept : ∀ value, envVars.get? HOME = some value → SameDirectory value home)
    (assigns : ∀ value, .setEnv HOME value ∈ mutations → SameDirectory value home) :
    ∀ value, (mutations.foldl assignVar envVars).get? HOME = some value →
      SameDirectory value home := by
  induction mutations generalizing envVars with
  | nil => exact kept
  | cons mutation mutations induction =>
      rw [List.foldl_cons]
      apply induction
      · intro value found
        cases mutation with
        | setEnv name assigned =>
            rw [assignVar] at found
            split at found
            · exact kept value found
            · rw [Dict.get?_set] at found
              split at found
              · next same =>
                rw [Option.some.injEq] at found
                rw [← found]
                exact assigns _ (same ▸ List.mem_cons_self)
              · exact kept value found
        | _ => exact kept value found
      · exact fun value member => assigns value (List.mem_cons_of_mem _ member)

theorem homeKept_turn {turn : Turn} (keeps : turn.KeepsHome home)
    (kept : HomeKept home session.world) : HomeKept home (turn.apply session).world := by
  cases turn with
  | line text =>
      rw [HomeKept, Turn.apply, applyInputMutations, envVars_applyMutations]
      exact homeKept_assignVar kept keeps
  | leave => exact kept
  | chdir arg => exact kept

theorem run_keeps {turns : List Turn} (keeps : ∀ turn ∈ turns, turn.KeepsHome home)
    (kept : HomeKept home session.world) :
    HomeKept home (run session turns).world ∧
      (run session turns).loginUser = session.loginUser := by
  induction turns generalizing session with
  | nil => exact ⟨kept, rfl⟩
  | cons turn turns induction =>
      have step := homeKept_turn (keeps turn List.mem_cons_self) kept
      have rest := induction (fun other member => keeps other (List.mem_cons_of_mem _ member)) step
      rw [run, List.foldl_cons, ← run]
      refine ⟨rest.1, rest.2.trans ?_⟩
      cases turn with
      | line text => rfl
      | leave => rfl
      | chdir arg => rfl

theorem base_home (ctx : ShellContext) (user : Str) :
    (baseEnv ctx user).get? HOME = some (homeFor user) := by
  have names : (baseEntries ctx user).map Prod.fst = BASE_NAMES := rfl
  have distinct : ((baseEntries ctx user).map Prod.fst).Nodup := by
    rw [names]
    decide
  rw [baseEnv, Dict.ofEntries, Dict.get?_setAll _ distinct]
  rfl

theorem isVariable_home : IsVariable HOME := .inl ⟨by decide, by decide⟩

theorem home_shown (other : Tables) (pipesEnabled : Bool) (ctx : ShellContext) :
    ∃ value, (ctx.world.envVars.get? HOME = some value ∨ value = homeFor ctx.user) ∧
      HasLine ctx HOME value ∧
      answer other pipesEnabled ctx ["printenv".toList, HOME] =
        some { output := value ++ "\n".toList } ∧
      Echoes other pipesEnabled ctx HOME value := by
  cases assigned : ctx.world.envVars.get? HOME with
  | some value =>
      refine ⟨value, .inl rfl, shown_of_get isVariable_home ?_⟩
      rw [Dict.get?_update, assigned]
      rfl
  | none =>
      refine ⟨homeFor ctx.user, .inr rfl, shown_of_get isVariable_home ?_⟩
      rw [Dict.get?_update, assigned, base_home]
      rfl

end

/-- In a run that assigns no other directory to `HOME`, the views name one directory whenever the
user in front is the login user. -/
theorem one_home (other : Tables) (pipesEnabled : Bool) {session : Session} {turns : List Turn}
    (kept : HomeKept (homeFor session.loginUser) session.world)
    (keeps : ∀ turn ∈ turns, turn.KeepsHome (homeFor session.loginUser))
    (ordinary : session.loginUser = "root".toList ∨ session.loginUser ∉ SYSTEM_NAMES)
    (settled : (run session turns).effectiveUser = session.loginUser) :
    OneHome other pipesEnabled (run session turns) (homeFor session.loginUser) := by
  have after := run_keeps keeps kept
  constructor
  · exact after.2 ▸ sameDirectory_cd (run session turns) (.inl rfl)
  · exact after.2 ▸ sameDirectory_cd (run session turns) (.inr rfl)
  · have user : (run session turns).shellContext.user = session.loginUser := settled
    rw [resolvePath, if_neg (by decide), if_pos rfl, user]
    rfl
  · rcases home_shown other pipesEnabled (run session turns).shellContext with ⟨value, isValue, shown⟩
    refine ⟨value, ?_, shown⟩
    rcases isValue with assigned | isHome
    · exact after.1 value assigned
    · have user : (run session turns).shellContext.user = session.loginUser := settled
      rw [isHome, user]
      rfl
  · intro line found
    rw [settled, after.2] at found
    rw [account_home ordinary found]
    rfl

/-! ## Two runs -/

theorem parse_su : parseInputMutations "su bob".toList = [.pushUser "bob".toList] := by decide

theorem keeps_su (home : Str) : (Turn.line "su bob".toList).KeepsHome home := by
  intro value sets
  rw [Sets, parse_su, List.mem_singleton] at sets
  cases sets

def visit : List Turn := [.line "su bob".toList, .leave]

theorem one_home_visit : OneHome noTables true (run loginSession visit) "/home/alice".toList := by
  apply @one_home noTables true loginSession visit
  · intro value found
    cases found
  · intro turn member
    rcases List.mem_cons.mp member with rfl | member
    · exact keeps_su _
    · rw [List.mem_singleton.mp member]
      trivial
  · exact .inr (by decide +kernel)
  · decide

/-- After `su bob` the tilde is the home of `bob`, and `cd` leads to the login user's. -/
theorem two_homes_su : ¬ ∃ home, OneHome noTables true (run loginSession [.line "su bob".toList])
    home := by
  rintro ⟨home, views⟩
  have bob := views.tilde
  have alice := views.chdir
  have user : (run loginSession [.line "su bob".toList]).shellContext.user = "bob".toList := by decide
  have login : ((run loginSession [.line "su bob".toList]).changeDirectory []).cwd =
      "/home/alice".toList := by decide
  rw [login] at alice
  rw [resolvePath, if_neg (by decide), if_pos rfl, user] at bob
  have same : AbsPath.ofText "/home/alice".toList = AbsPath.ofText (homeFor "bob".toList) :=
    alice.trans bob.symm
  exact absurd (congrArg AbsPath.text same) (by decide)

end Responder

end LlmHoneypot
