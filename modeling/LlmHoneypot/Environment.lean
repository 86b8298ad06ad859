import LlmHoneypot.Accounts
import LlmHoneypot.Foundation.DictMap
import LlmHoneypot.PlainAnswers
import LlmHoneypot.Protocol.CommandPatterns

/-! # The environment

What `env`, `printenv` and `echo` of `responder.py` show of the variables that the lines of a
session assign. -/

namespace LlmHoneypot

namespace Responder

def baseEntries (ctx : ShellContext) (user : Str) : List (Str × Str) :=
  [("SHELL".toList, "/bin/bash".toList),
    ("PWD".toList, ctx.cwd),
    ("LOGNAME".toList, user),
    ("HOME".toList, homeFor user),
    ("LANG".toList, "en_US.UTF-8".toList),
    ("USER".toList, user),
    ("SHLVL".toList, "1".toList),
    ("PATH".toList, "/usr/local/sbin:/usr/local/bin:/usr/sbin:/usr/bin:/sbin:/bin".toList),
    ("MAIL".toList, "/var/mail/".toList ++ user),
    ("_".toList, "/usr/bin/env".toList),
    ("TERM".toList, "xterm-256color".toList),
    ("HOSTNAME".toList, ctx.hostname)]

def baseEnv (ctx : ShellContext) (user : Str) : Dict Str Str := .ofEntries (baseEntries ctx user)

def specials (ctx : ShellContext) (user : Str) : List (Str × Str) :=
  [("?".toList, "0".toList), ("$".toList, "9121".toList),
    ("UID".toList, Text.decimal (uidFor user)), ("EUID".toList, Text.decimal (uidFor user)),
    ("HOSTNAME".toList, ctx.hostname)]

def expandVar (name : Str) (ctx : ShellContext) (user : Str) : Option Str :=
  match ctx.world.envVars.get? name with
  | some value => some value
  | none =>
      match (baseEnv ctx user).get? name with
      | some value => some value
      | none => (specials ctx user).lookup name

def envLines (ctx : ShellContext) (user : Str) : List Str :=
  ((baseEnv ctx user).update ctx.world.envVars).entries.map fun entry =>
    entry.1 ++ '=' :: entry.2

def hEnv : Handler := fun args ctx user =>
  if args ≠ [] then none
  else some { output := Text.join "\n".toList (envLines ctx user) ++ "\n".toList }

def hPrintenv : Handler := fun args ctx user =>
  match args.filter fun arg => !"-".toList.isPrefixOf arg with
  | [] => hEnv [] ctx user
  | [name] =>
      match expandVar name ctx user with
      | none => some {}
      | some value => some { output := value ++ "\n".toList }
  | _ => none

/-! ## Words of `echo` -/

def isVarStart (ch : Char) : Bool := ch.isAlpha || ch == '_' || ch == '?' || ch == '$'

/-- `[A-Za-z_?$][A-Za-z0-9_]*`. -/
def varName? : Str → Option Str
  | [] => none
  | ch :: rest =>
      if isVarStart ch then some (ch :: rest.takeWhile CmdParser.isNameChar) else none

def reference? : Str → Option (Str × Nat)
  | '{' :: rest =>
      (varName? rest).bind fun name =>
        if (rest.drop name.length).head? = some '}' then some (name, name.length + 2) else none
  | text => (varName? text).map fun name => (name, name.length)

/-- `re.sub` over a word; `skip` counts what the last reference still covers. -/
def expandFrom (lookup : Str → Option Str) : (skip : Nat) → Str → Str
  | _, [] => []
  | skip + 1, _ :: rest => expandFrom lookup skip rest
  | 0, ch :: rest =>
      if ch = '$' then
        match reference? rest with
        | some (name, length) => (lookup name).getD [] ++ expandFrom lookup length rest
        | none => '$' :: expandFrom lookup 0 rest
      else ch :: expandFrom lookup 0 rest

def expandWord (word : Str) (ctx : ShellContext) (user : Str) : Str :=
  expandFrom (expandVar · ctx user) 0 word

def hEcho : Handler := fun args ctx user =>
  let newline := args.head? ≠ some "-n".toList
  let words := if args.head? = some "-n".toList then args.drop 1 else args
  some { output := Text.join " ".toList (words.map (expandWord · ctx user)) ++
    if newline then "\n".toList else [] }

def withEnvironment (other : Tables) : Tables where
  handler command :=
    if command = "env".toList then hEnv
    else if command = "printenv".toList then hPrintenv
    else if command = "echo".toList then hEcho
    else other.handler command
  filter := other.filter

/-! ## Variables in words -/

/-- The name of a variable, or one of the shell's own that has no name. -/
def IsVariable (text : Str) : Prop :=
  Spelling.IsName text ∨ text = "?".toList ∨ text = "$".toList

section

variable {name : Str}

theorem IsVariable.parts (isVariable : IsVariable name) :
    ∃ ch rest, name = ch :: rest ∧ isVarStart ch = true ∧ rest.all Spelling.isNameChar = true := by
  rcases isVariable with isName | rfl | rfl
  · rcases isName.started with ⟨ch, rest, equal, start⟩
    subst equal
    have parts := isName.2
    rw [List.all_cons, Bool.and_eq_true] at parts
    have begins : (ch.isAlpha || ch == '_') = true := start
    exact ⟨ch, rest, rfl, by rw [isVarStart, begins]; rfl, parts.2⟩
  · exact ⟨'?', [], rfl, rfl, rfl⟩
  · exact ⟨'$', [], rfl, rfl, rfl⟩

theorem IsVariable.plain (isVariable : IsVariable name) : name.all isPlain = true := by
  rcases isVariable with isName | rfl | rfl
  · rw [List.all_eq_true]
    intro ch member
    have isChar := List.all_eq_true.mp isName.2 ch member
    refine isPlain_iff.mpr ⟨Spelling.name_visible isChar, ?_⟩
    intro special
    have none_ : (NOT_PLAIN.all fun ch => !Spelling.isNameChar ch) = true := by decide
    have noName := List.all_eq_true.mp none_ ch special
    rw [isChar] at noName
    cases noName
  · decide
  · decide

theorem IsVariable.notSign (isVariable : IsVariable name) : '=' ∉ name := by
  rcases isVariable with isName | rfl | rfl
  · intro member
    have isChar := List.all_eq_true.mp isName.2 _ member
    exact absurd isChar (by decide)
  · decide
  · decide

theorem IsVariable.notOption (isVariable : IsVariable name) :
    "-".toList.isPrefixOf name = false := by
  rcases isVariable.parts with ⟨ch, rest, rfl, start, -⟩
  rw [Bool.eq_false_iff]
  intro begins
  rcases List.isPrefixOf_iff_prefix.mp begins with ⟨more, equal⟩
  have dash : '-' = ch := (List.cons.inj equal).1
  rw [← dash] at start
  exact absurd start (by decide)

theorem takeWhile_name {rest : Str} (all : rest.all Spelling.isNameChar = true) (after : Str)
    (ends : ∀ ch ∈ after.head?, Spelling.isNameChar ch = false) :
    (rest ++ after).takeWhile CmdParser.isNameChar = rest := by
  have inside : ∀ ch ∈ rest, CmdParser.isNameChar ch = true := List.all_eq_true.mp all
  rw [List.takeWhile_append_of_pos inside]
  cases after with
  | nil => simp
  | cons ch after =>
      have stops : CmdParser.isNameChar ch = false := ends ch rfl
      rw [List.takeWhile_cons_of_neg (by simp [stops]), List.append_nil]

theorem expandFrom_covered (lookup : Str → Option Str) (text : Str) :
    expandFrom lookup text.length text = [] := by
  induction text with
  | nil => rfl
  | cons ch text induction => exact induction

variable (lookup : Str → Option Str)

theorem expand_bare (isVariable : IsVariable name) :
    expandFrom lookup 0 ('$' :: name) = (lookup name).getD [] := by
  rcases isVariable.parts with ⟨ch, rest, rfl, start, all⟩
  have notBrace : ch ≠ '{' := by
    rintro rfl
    exact absurd start (by decide)
  have found : varName? (ch :: rest) = some (ch :: rest) := by
    have whole := takeWhile_name all [] (by simp)
    rw [List.append_nil] at whole
    rw [varName?, if_pos start, whole]
  have reference : reference? (ch :: rest) = some (ch :: rest, (ch :: rest).length) := by
    rw [reference?, found]
    · rfl
    · rintro later equal
      exact notBrace (List.cons.inj equal).1
  rw [expandFrom, if_pos rfl, reference]
  simp only [expandFrom_covered, List.append_nil]

theorem expand_braced (isVariable : IsVariable name) :
    expandFrom lookup 0 ('$' :: '{' :: (name ++ ['}'])) = (lookup name).getD [] := by
  rcases isVariable.parts with ⟨ch, rest, rfl, start, all⟩
  have found : varName? (ch :: rest ++ ['}']) = some (ch :: rest) := by
    have ends : ∀ ch ∈ ['}'].head?, Spelling.isNameChar ch = false := by
      intro ch isHead
      rw [← Option.some.inj isHead]
      rfl
    have whole := takeWhile_name all ['}'] ends
    rw [List.cons_append, varName?, if_pos start, whole]
  have reference : reference? ('{' :: (ch :: rest ++ ['}'])) =
      some (ch :: rest, (ch :: rest).length + 2) := by
    rw [reference?, found, Option.bind_some, List.drop_left, if_pos (by rfl)]
  have covered : (ch :: rest).length + 2 = ('{' :: (ch :: rest ++ ['}'])).length := by simp
  rw [expandFrom, if_pos rfl, reference]
  simp only [covered, expandFrom_covered, List.append_nil]

end

/-! ## Answers -/

section

variable (other : Tables) (pipesEnabled : Bool) (ctx : ShellContext) {name : Str}

/-- How the responder answers a line of words. -/
def answer (words : List Str) : Option ResponderResult :=
  respond (withEnvironment other) pipesEnabled (lineOf words) ctx

theorem answer_printenv (isVariable : IsVariable name) :
    answer other pipesEnabled ctx ["printenv".toList, name] =
      some { output := ((expandVar name ctx ctx.user).map (· ++ "\n".toList)).getD [] } := by
  have plain : ∀ word ∈ ["printenv".toList, name], IsPlainWord word := by
    intro word member
    rcases List.mem_cons.mp member with rfl | member
    · decide
    · rw [List.mem_singleton.mp member]
      rcases isVariable.parts with ⟨ch, rest, equal, -⟩
      exact ⟨by rw [equal]; exact List.cons_ne_nil _ _, isVariable.plain⟩
  rw [answer, respond_lineOf _ _ _ plain (by decide), if_pos (by decide)]
  have handler : (withEnvironment other).handler "printenv".toList = hPrintenv := rfl
  rw [handler, hPrintenv]
  simp only [List.filter_cons, isVariable.notOption, Bool.not_false, if_true, List.filter_nil]
  cases expandVar name ctx ctx.user with
  | none => rfl
  | some value => rfl

theorem answer_echo {word value : Str} (plain : IsPlainWord word) (notOption : word ≠ "-n".toList)
    (expands : expandWord word ctx ctx.user = value) :
    answer other pipesEnabled ctx ["echo".toList, word] =
      some { output := value ++ "\n".toList } := by
  have words : ∀ part ∈ ["echo".toList, word], IsPlainWord part := by
    intro part member
    rcases List.mem_cons.mp member with rfl | member
    · decide
    · rw [List.mem_singleton.mp member]
      exact plain
  rw [answer, respond_lineOf _ _ _ words (by decide), if_pos (by decide)]
  have handler : (withEnvironment other).handler "echo".toList = hEcho := rfl
  have first : ¬ [word].head? = some "-n".toList := fun equal =>
    notOption (Option.some.inj equal)
  rw [handler, hEcho]
  have shown : [word].map (expandWord · ctx ctx.user) = [value] :=
    congrArg (fun shown => [shown]) expands
  simp only [ne_eq, first, not_false_eq_true, if_true, if_false, shown]
  simp [Text.join]

theorem answer_bare (isVariable : IsVariable name) :
    answer other pipesEnabled ctx ["echo".toList, '$' :: name] =
      some { output := (expandVar name ctx ctx.user).getD [] ++ "\n".toList } := by
  apply answer_echo
  · refine ⟨List.cons_ne_nil _ _, ?_⟩
    rw [List.all_cons, isVariable.plain]
    rfl
  · exact fun equal => absurd (List.cons.inj equal).1 (by decide)
  · exact expand_bare _ isVariable

theorem answer_braced (isVariable : IsVariable name) :
    answer other pipesEnabled ctx ["echo".toList, '$' :: '{' :: (name ++ ['}'])] =
      some { output := (expandVar name ctx ctx.user).getD [] ++ "\n".toList } := by
  apply answer_echo
  · refine ⟨List.cons_ne_nil _ _, ?_⟩
    rw [List.all_cons, List.all_cons, List.all_append, isVariable.plain]
    rfl
  · exact fun equal => absurd (List.cons.inj equal).1 (by decide)
  · exact expand_braced _ isVariable

end

/-! ## What is exported -/

section

open Protocol (Session applyInputMutations applyMutation patternMutations Headed bareAssign_eq)
open CmdParser (CmdMutation parseInputMutations bareAssign parseBackground
  parseUserSwitch)

def typed (lines : List Str) (session : Session) : Session :=
  lines.foldl (fun session line => applyInputMutations line session) session

def Sets (line name value : Str) : Prop := CmdMutation.setEnv name value ∈ parseInputMutations line

/-- The line has an `export` command that names the variable, with a value or without. -/
def Exports (line name : Str) : Prop :=
  ∃ part ∈ line.splitOnP (";&|\n".toList.contains ·), ∃ words,
    Text.words part = "export".toList :: words ∧
      ∃ word ∈ words, word = name ∨ (name ++ ['=']) <+: word

/-- The variable is one of a new shell's, or of those that the session began with, or a line
exports it. -/
def Exported (session : Session) (lines : List Str) (name : Str) : Prop :=
  name ∈ (baseEnv session.shellContext session.effectiveUser).keys ∨
    name ∈ session.world.envVars.keys ∨ ∃ line ∈ lines, Exports line name

def Assigned (lines : List Str) (name : Str) : Prop := ∃ line ∈ lines, ∃ value, Sets line name value

section

variable {line name value : Str}

theorem parseBackground_ne : parseBackground line ≠ some (.setEnv name value) := by
  intro found
  have started : ∀ command : Str, (if command = [] then none else some (.addProcess command)) ≠
      some (CmdMutation.setEnv name value) := by
    intro command
    split
    · exact fun same => by cases same
    · exact fun same => by cases same
  simp only [parseBackground] at found
  split at found
  · cases found
  · exact started _ found

theorem parseUserSwitch_ne : parseUserSwitch line ≠ some (.setEnv name value) := by
  intro found
  unfold parseUserSwitch at found
  split at found
  · cases found
  · cases found
  · split at found
    · cases found
    · split at found
      · split at found
        · cases found
        · cases found
      · cases found

theorem sets_pattern (sets : CmdMutation.setEnv name value ∈ patternMutations line) :
    ∃ text, CmdMutation.setEnv name value ∈
      (bareAssign text).toList.map CmdParser.assignment := by
  unfold patternMutations at sets
  split at sets
  · split at sets
    · simp at sets
    · simp at sets
  · split at sets
    · simp at sets
    · split at sets
      · simp at sets
      · split at sets
        · simp at sets
        · split at sets
          · simp at sets
          · split at sets
            · next assign _ => exact ⟨assign, sets⟩
            · split at sets
              · exact ⟨line, sets⟩
              · cases sets

theorem isName_of_sets (sets : Sets line name value) : Spelling.IsName name := by
  have fromPattern : ∃ head, CmdMutation.setEnv name value ∈ patternMutations head := by
    cases background : parseBackground line with
    | some mutation =>
        simp only [Sets, parseInputMutations, background, List.mem_singleton] at sets
        rw [← sets] at background
        exact absurd background parseBackground_ne
    | none =>
        by_cases empty : Text.strip (CmdParser.splitFirstCommand line) = []
        · simp [Sets, parseInputMutations, background, empty] at sets
        · rw [Sets, Headed.parse ⟨background, rfl, empty⟩] at sets
          cases switch : parseUserSwitch (Text.strip (CmdParser.splitFirstCommand line)) with
          | some mutation =>
              rw [switch] at sets
              rw [← List.mem_singleton.mp sets] at switch
              exact absurd switch parseUserSwitch_ne
          | none =>
              rw [switch] at sets
              exact ⟨_, sets⟩
  rcases fromPattern with ⟨head, member⟩
  rcases sets_pattern member with ⟨text, member⟩
  rcases List.mem_map.mp member with ⟨assign, found, same⟩
  rw [Option.mem_toList, bareAssign_eq, Option.bind_eq_some_iff] at found
  rcases found with ⟨parts, isAssign, found⟩
  rcases Option.map_eq_some_iff.mp found with ⟨rest, -, rfl⟩
  rw [CmdParser.assignment, CmdMutation.setEnv.injEq] at same
  rw [← same.1]
  exact (Spelling.assignmentOf_eq_some.mp isAssign).1

end

def assignVar (envVars : Dict Str Str) : CmdMutation → Dict Str Str
  | .setEnv name value => if name = [] then envVars else envVars.set name value
  | _ => envVars

theorem envVars_addFile (world : WorldState) (path : Str) (size : Nat) (sha256 : Option Str)
    (mtime : Nat) (source : FileSource) (url snippet : Option Str) :
    (world.addFile path size sha256 mtime source url snippet).envVars = world.envVars := by
  unfold WorldState.addFile
  split
  · rfl
  · rfl

theorem envVars_applyMutation (user : Str) (now : Nat) (world : WorldState)
    (mutation : CmdMutation) :
    (applyMutation user now world mutation).envVars = assignVar world.envVars mutation := by
  cases mutation with
  | setEnv name value =>
      simp only [applyMutation, WorldState.addEnv, assignVar]
      split
      · rfl
      · rfl
  | createFile path content => exact envVars_addFile ..
  | appendFile path content => exact envVars_addFile ..
  | removeFile path => rfl
  | copyFile path dstPath =>
      simp only [applyMutation]
      split
      · exact envVars_addFile ..
      · rfl
  | moveFile path dstPath =>
      simp only [applyMutation]
      split
      · exact envVars_addFile ..
      · rfl
  | pushUser user =>
      simp only [applyMutation, WorldState.pushUser]
      split
      · rfl
      · rfl
  | popUser => rfl
  | addProcess command =>
      simp only [applyMutation, WorldState.addProcess]
      split
      · rfl
      · rfl

theorem mem_keys_assignVar {envVars : Dict Str Str} {mutation : CmdMutation} {name : Str} :
    name ∈ (assignVar envVars mutation).keys ↔
      name ∈ envVars.keys ∨ name ≠ [] ∧ ∃ value, mutation = .setEnv name value := by
  cases mutation with
  | setEnv set value =>
      simp only [assignVar, CmdMutation.setEnv.injEq]
      split
      · next empty =>
        simp only [empty, exists_and_left, exists_eq', and_true]
        exact (or_iff_left fun assigned => assigned.1 assigned.2.symm).symm
      · next notEmpty =>
        rw [Dict.mem_keys_set]
        simp only [exists_and_left, exists_eq', and_true]
        rw [or_comm, eq_comm]
        apply or_congr_right
        exact (and_iff_right_of_imp fun same empty => notEmpty (same.trans empty)).symm
  | _ => simp [assignVar]

theorem envVars_applyMutations (mutations : List CmdMutation) (session : Session) :
    (session.applyMutations mutations).world.envVars =
      mutations.foldl assignVar session.world.envVars := by
  simp only [Session.applyMutations]
  generalize session.world = world
  induction mutations generalizing world with
  | nil => rfl
  | cons mutation mutations induction =>
      rw [List.foldl_cons, induction, envVars_applyMutation, List.foldl_cons]

theorem mem_keys_foldl {envVars : Dict Str Str} {mutations : List CmdMutation} {name : Str} :
    name ∈ (mutations.foldl assignVar envVars).keys ↔
      name ∈ envVars.keys ∨ name ≠ [] ∧ ∃ value, .setEnv name value ∈ mutations := by
  induction mutations generalizing envVars with
  | nil => simp
  | cons mutation mutations induction =>
      rw [List.foldl_cons, induction, mem_keys_assignVar]
      simp only [List.mem_cons, exists_or, eq_comm, or_assoc, and_or_left]

theorem envVars_applyInputMutations {line : Str} {session : Session} {name : Str} :
    name ∈ (applyInputMutations line session).world.envVars.keys ↔
      name ∈ session.world.envVars.keys ∨ ∃ value, Sets line name value := by
  rw [applyInputMutations, envVars_applyMutations, mem_keys_foldl]
  apply or_congr_right
  apply and_iff_right_of_imp
  intro assigned empty
  rcases assigned with ⟨value, sets⟩
  rcases (isName_of_sets sets).started with ⟨ch, rest, equal, -⟩
  rw [empty] at equal
  cases equal

theorem envVars_typed {lines : List Str} {session : Session} {name : Str} :
    name ∈ (typed lines session).world.envVars.keys ↔
      name ∈ session.world.envVars.keys ∨ Assigned lines name := by
  induction lines generalizing session with
  | nil => simp [typed, Assigned]
  | cons line lines induction =>
      rw [typed, List.foldl_cons, ← typed, induction, envVars_applyInputMutations]
      simp only [Assigned, List.mem_cons, exists_eq_or_imp, or_assoc]

/-! ## Where the views agree -/

def BASE_NAMES : List Str :=
  ["SHELL", "PWD", "LOGNAME", "HOME", "LANG", "USER", "SHLVL", "PATH", "MAIL", "_", "TERM",
    "HOSTNAME"].map String.toList

/-- The parameters that the shell answers for and that are in no environment. -/
def PARAMETERS : List Str := ["?", "$", "UID", "EUID"].map String.toList

theorem mem_keys_base {ctx : ShellContext} {user name : Str} :
    name ∈ (baseEnv ctx user).keys ↔ name ∈ BASE_NAMES := by
  rw [baseEnv, Dict.ofEntries, Dict.mem_keys_setAll]
  exact or_iff_left (List.not_mem_nil)

def HasLine (ctx : ShellContext) (name value : Str) : Prop :=
  name ++ '=' :: value ∈ envLines ctx ctx.user

/-- The variables of the environment have names. -/
def Named (world : WorldState) : Prop := ∀ name ∈ world.envVars.keys, Spelling.IsName name

theorem assign_inj {name other value shown : Str} (named : '=' ∉ name) (otherNamed : '=' ∉ other)
    (same : name ++ '=' :: value = other ++ '=' :: shown) : name = other ∧ value = shown := by
  induction name generalizing other with
  | nil =>
      cases other with
      | nil => exact ⟨rfl, (List.cons.inj same).2⟩
      | cons ch other => exact absurd ((List.cons.inj same).1 ▸ List.mem_cons_self) otherNamed
  | cons ch name induction =>
      cases other with
      | nil => exact absurd ((List.cons.inj same).1 ▸ List.mem_cons_self) named
      | cons first other =>
          rcases List.cons.inj same with ⟨rfl, rest⟩
          rcases induction (fun member => named (List.mem_cons_of_mem _ member))
            (fun member => otherNamed (List.mem_cons_of_mem _ member)) rest with ⟨rfl, equal⟩
          exact ⟨rfl, equal⟩

section

variable {ctx : ShellContext} {user name value : Str}

theorem keys_notSign (named : Named ctx.world) {key : Str}
    (member : key ∈ ((baseEnv ctx user).update ctx.world.envVars).keys) : '=' ∉ key := by
  rw [Dict.update, Dict.mem_keys_setAll] at member
  rcases member with assigned | base
  · exact IsVariable.notSign (.inl (named key assigned))
  · have none_ : ∀ key ∈ BASE_NAMES, '=' ∉ key := by decide
    exact none_ key (mem_keys_base.mp base)

theorem hasLine_iff (named : Named ctx.world) (notSign : '=' ∉ name) :
    HasLine ctx name value ↔
      ((baseEnv ctx ctx.user).update ctx.world.envVars).get? name = some value := by
  rw [HasLine, envLines, List.mem_map, ← Dict.mem_entries_iff]
  constructor
  · intro shown
    rcases shown with ⟨entry, member, same⟩
    have key := keys_notSign named (List.mem_map.mpr ⟨entry, member, rfl⟩)
    rcases assign_inj key notSign same with ⟨rfl, rfl⟩
    exact member
  · exact fun member => ⟨(name, value), member, rfl⟩

theorem expandVar_eq : expandVar name ctx user =
    (((baseEnv ctx user).update ctx.world.envVars).get? name).or
      ((specials ctx user).lookup name) := by
  rw [expandVar, Dict.get?_update]
  cases ctx.world.envVars.get? name with
  | some value => rfl
  | none =>
      cases (baseEnv ctx user).get? name with
      | some value => rfl
      | none => rfl

theorem lookup_specials (notBase : name ∉ BASE_NAMES) :
    ((specials ctx user).lookup name).isSome = true ↔ name ∈ PARAMETERS := by
  have keys : (specials ctx user).map Prod.fst = PARAMETERS ++ ["HOSTNAME".toList] := rfl
  have known : ((specials ctx user).lookup name).isSome = true ↔
      name ∈ (specials ctx user).map Prod.fst := by
    rw [List.lookup_isSome_iff, List.mem_map]
    simp
  rw [known, keys, List.mem_append, List.mem_singleton, or_iff_left]
  intro isHostname
  exact notBase (isHostname ▸ by decide)

def Prints (other : Tables) (pipesEnabled : Bool) (ctx : ShellContext) (name : Str) : Prop :=
  ∃ result, answer other pipesEnabled ctx ["printenv".toList, name] = some result ∧
    result.output ≠ []

def Echoes (other : Tables) (pipesEnabled : Bool) (ctx : ShellContext) (name value : Str) : Prop :=
  answer other pipesEnabled ctx ["echo".toList, '$' :: name] =
      some { output := value ++ "\n".toList } ∧
    answer other pipesEnabled ctx ["echo".toList, '$' :: '{' :: (name ++ ['}'])] =
      some { output := value ++ "\n".toList }

variable {other : Tables} {pipesEnabled : Bool}

theorem prints_iff (isVariable : IsVariable name) :
    Prints other pipesEnabled ctx name ↔ (expandVar name ctx ctx.user).isSome = true := by
  rw [Prints, answer_printenv _ _ _ isVariable]
  cases expandVar name ctx ctx.user with
  | none => simp
  | some value =>
      apply iff_of_true
      · exact ⟨_, rfl, by simp⟩
      · rfl

theorem echoes_of (isVariable : IsVariable name) (found : expandVar name ctx ctx.user = some value) :
    Echoes other pipesEnabled ctx name value := by
  rw [Echoes, answer_bare _ _ _ isVariable, answer_braced _ _ _ isVariable, found]
  exact ⟨rfl, rfl⟩

theorem hasLine_some (named : Named ctx.world) (isVariable : IsVariable name) :
    (∃ value, HasLine ctx name value) ↔ name ∈ BASE_NAMES ∨ name ∈ ctx.world.envVars.keys := by
  simp only [hasLine_iff named isVariable.notSign]
  rw [← Dict.mem_keys_iff, Dict.update, Dict.mem_keys_setAll, mem_keys_base, or_comm]
  rfl

theorem listed_iff (named : Named ctx.world) (isVariable : IsVariable name) :
    (Prints other pipesEnabled ctx name ↔ ∃ value, HasLine ctx name value) ↔
      (name ∈ PARAMETERS → name ∈ ctx.world.envVars.keys) := by
  have inEnvironment : (((baseEnv ctx ctx.user).update ctx.world.envVars).get? name).isSome = true ↔
      name ∈ BASE_NAMES ∨ name ∈ ctx.world.envVars.keys := by
    rw [← hasLine_some named isVariable, Option.isSome_iff_exists]
    simp only [hasLine_iff named isVariable.notSign]
  rw [prints_iff isVariable, hasLine_some named isVariable, expandVar_eq, Option.isSome_or,
    Bool.or_eq_true, inEnvironment]
  by_cases base : name ∈ BASE_NAMES
  · have notParameter : ∀ name ∈ BASE_NAMES, name ∉ PARAMETERS := by decide
    simp [base, notParameter name base]
  · rw [lookup_specials base]
    simp only [base, false_or]
    exact or_iff_left_iff_imp

theorem shown_of_get (isVariable : IsVariable name)
    (found : ((baseEnv ctx ctx.user).update ctx.world.envVars).get? name = some value) :
    HasLine ctx name value ∧
      answer other pipesEnabled ctx ["printenv".toList, name] =
        some { output := value ++ "\n".toList } ∧
      Echoes other pipesEnabled ctx name value := by
  have expands : expandVar name ctx ctx.user = some value := by
    rw [expandVar_eq, found]
    rfl
  rw [answer_printenv _ _ _ isVariable, expands]
  exact ⟨List.mem_map.mpr ⟨(name, value), Dict.mem_entries_iff.mpr found, rfl⟩, rfl,
    echoes_of isVariable expands⟩

end

/-- The views of one variable after command lines. -/
structure EnvAgrees (other : Tables) (pipesEnabled : Bool) (session : Session) (lines : List Str)
    (name : Str) : Prop where
  exported : Exported session lines name →
    name ∈ BASE_NAMES ∨ name ∈ (typed lines session).world.envVars.keys →
      ∃ value, HasLine (typed lines session).shellContext name value ∧
        answer other pipesEnabled (typed lines session).shellContext ["printenv".toList, name] =
          some { output := value ++ "\n".toList } ∧
        Echoes other pipesEnabled (typed lines session).shellContext name value
  listed : Prints other pipesEnabled (typed lines session).shellContext name ↔
    ∃ value, HasLine (typed lines session).shellContext name value
  hidden : Assigned lines name → ¬ Exported session lines name →
    (∃ value, (typed lines session).world.envVars.get? name = some value ∧
      Echoes other pipesEnabled (typed lines session).shellContext name value) ∧
    ¬ Prints other pipesEnabled (typed lines session).shellContext name ∧
    ¬ ∃ value, HasLine (typed lines session).shellContext name value

section

variable (other : Tables) (pipesEnabled : Bool) (session : Session) (lines : List Str) {name : Str}

theorem Named.typed (named : Named session.world) : Named (typed lines session).world := by
  intro name member
  rcases envVars_typed.mp member with before | assigned
  · exact named name before
  · rcases assigned with ⟨line, -, value, sets⟩
    exact isName_of_sets sets

/-- The views agree exactly where no parameter is asked for that no line has assigned, and
whatever a line assigns is exported. -/
theorem env_agrees_iff (named : Named session.world) (isVariable : IsVariable name) :
    EnvAgrees other pipesEnabled session lines name ↔
      (name ∈ PARAMETERS → name ∈ session.world.envVars.keys ∨ Assigned lines name) ∧
        (Assigned lines name → Exported session lines name) := by
  have namedAfter : Named (typed lines session).shellContext.world := named.typed session lines
  have keys : name ∈ (typed lines session).shellContext.world.envVars.keys ↔
      name ∈ session.world.envVars.keys ∨ Assigned lines name := envVars_typed
  constructor
  · intro agrees
    constructor
    · rw [← keys]
      exact (listed_iff namedAfter isVariable).mp agrees.listed
    · intro assigned
      by_contra notExported
      rcases agrees.hidden assigned notExported with ⟨-, -, noLine⟩
      exact noLine ((hasLine_some namedAfter isVariable).mpr (.inr (keys.mpr (.inr assigned))))
  · rintro ⟨parameter, exported⟩
    constructor
    · intro _ present
      rcases (hasLine_some namedAfter isVariable).mpr present with ⟨value, line⟩
      exact ⟨value, shown_of_get isVariable ((hasLine_iff namedAfter isVariable.notSign).mp line)⟩
    · rw [listed_iff namedAfter isVariable, keys]
      exact parameter
    · exact fun assigned notExported => absurd (exported assigned) notExported

def loginSession : Session := { loginUser := "alice".toList, hostname := "web01".toList }

def noTables : Tables where
  handler _ _ _ _ := none
  filter _ _ _ := none

theorem named_login : Named loginSession.world := by
  intro name member
  cases member

theorem env_agrees_path : EnvAgrees noTables true loginSession [] "PATH".toList := by
  apply (env_agrees_iff _ _ _ _ named_login (.inl ⟨by decide, by decide⟩)).mpr
  constructor
  · exact fun parameter => absurd parameter (by decide)
  · intro assigned
    rcases assigned with ⟨line, member, -⟩
    cases member

/-- `printenv UID` prints a number and `env` has no line for it. -/
theorem env_differs_uid : ¬ EnvAgrees noTables true loginSession [] "UID".toList := by
  intro agrees
  have isVariable : IsVariable "UID".toList := .inl ⟨by decide, by decide⟩
  have assigned := (listed_iff named_login isVariable).mp agrees.listed (by decide)
  cases assigned

end

end

end Responder

end LlmHoneypot
