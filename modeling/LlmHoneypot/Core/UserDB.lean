import LlmHoneypot.Foundation.RuleTable
import LlmHoneypot.Foundation.Utf8

/-! # The user database

`UserDB` of `core/auth.py`: lines `user:x:password`, whose rules are kept in a dictionary.
Compiled patterns are values of any type; two of them are one key where they are equal. -/

namespace LlmHoneypot

namespace Core

namespace UserDB

inductive Rule (Pattern : Type)
  | bytes (rule : Bytes)
  | pattern (rule : Pattern)
  deriving DecidableEq

abbrev Table (Pattern : Type) := Dict (Rule Pattern × Rule Pattern) Bool

/-! ## Lines -/

/-- The groups of `/(.+)/(i)?$`: what is between the first and the last slash, and whether an
`i` follows. A line end may follow too. -/
def slashed (rule : Bytes) : Option (Bytes × Bool) :=
  match rule with
  | 47 :: rest =>
      let rest := if rest.getLast? = some 10 then rest.dropLast else rest
      let ignoreCase := rest.getLast? = some 105
      let closed := if ignoreCase then rest.dropLast else rest
      if closed.getLast? = some 47 ∧ closed.dropLast ≠ [] ∧ 10 ∉ closed then
        some (closed.dropLast, ignoreCase)
      else none
  | _ => none

/-- The login and the password of a line that is taken: not those of a comment, nor those of a
line with fewer than three fields. -/
def fields (user : Str) : Option (Bytes × Bytes) :=
  if user.head? = some '#' then none
  else
    let parts := Text.splitChar ':' user
    match parts[0]?, parts[2]? with
    | some login, some password => some (Utf8.encode login, Utf8.encode (Text.strip password))
    | _, _ => none

def policy (passwd : Bytes) : Bool × Bytes :=
  if passwd.head? = some 33 then (false, passwd.drop 1) else (true, passwd)

section

variable {Pattern : Type} (compile : Bytes → Bool → Option Pattern)

def reOrBytes (rule : Bytes) : Option (Rule Pattern) :=
  match slashed rule with
  | some (body, ignoreCase) => (compile body ignoreCase).map .pattern
  | none => some (.bytes rule)

/-- The rules of a login and a password, and the policy. An empty password has no first byte. -/
def entry (login passwd : Bytes) : Option ((Rule Pattern × Rule Pattern) × Bool) := do
  let user ← reOrBytes compile login
  if passwd = [] then none
  else
    let password ← reOrBytes compile (policy passwd).2
    some ((user, password), (policy passwd).1)

variable [DecidableEq Pattern]

def adduser (userdb : Table Pattern) (login passwd : Bytes) : Option (Table Pattern) :=
  (entry compile login passwd).map fun added => userdb.set added.1 added.2

def loadLine (userdb : Table Pattern) (user : Str) : Option (Table Pattern) :=
  match fields user with
  | none => some userdb
  | some (login, password) => adduser compile userdb login password

def load (dblines : List Str) : Option (Table Pattern) := dblines.foldlM (loadLine compile) .empty

end

section

variable {Pattern : Type} (search : Pattern → Bytes → Bool)

def matchRule : Rule Pattern → Bytes → Bool
  | .bytes rule, data => rule = [42] ∨ rule = data
  | .pattern rule, data => search rule data

def matchesBoth (thelogin thepasswd : Bytes) (credentials : Rule Pattern × Rule Pattern) : Bool :=
  matchRule search credentials.1 thelogin && matchRule search credentials.2 thepasswd

def checklogin (userdb : Table Pattern) (thelogin thepasswd : Bytes) : Bool :=
  match userdb.entries.find? (matchesBoth search thelogin thepasswd ·.1) with
  | some (_, policy) => policy
  | none => false

end

/-! ## First match -/

section

variable {Pattern : Type} (compile : Bytes → Bool → Option Pattern)

def rules (dblines : List Str) : List ((Rule Pattern × Rule Pattern) × Bool) :=
  dblines.filterMap fun user => (fields user).bind fun line => entry compile line.1 line.2

/-- A line that is taken has a password, and its patterns are patterns. -/
def Loadable (user : Str) : Prop :=
  ∀ login passwd, fields user = some (login, passwd) →
    passwd ≠ [] ∧ (reOrBytes compile login).isSome ∧ (reOrBytes compile (policy passwd).2).isSome

variable (search : Pattern → Bytes → Bool)

def firstMatch (dblines : List Str) (thelogin thepasswd : Bytes) : Bool :=
  match (rules compile dblines).find? (matchesBoth search thelogin thepasswd ·.1) with
  | some (_, policy) => policy
  | none => false

/-- The last line under the rules of the first match has the policy of the first match. -/
def Agreed [DecidableEq Pattern] (dblines : List Str) (thelogin thepasswd : Bytes) : Prop :=
  ∀ first, (rules compile dblines).find? (matchesBoth search thelogin thepasswd ·.1) = some first →
    RuleTable.lastValue (rules compile dblines) first.1 = some first.2

def FirstMatchWins [DecidableEq Pattern] (dblines : List Str) (thelogin thepasswd : Bytes) : Prop :=
  ∃ userdb, load compile dblines = some userdb ∧
    checklogin search userdb thelogin thepasswd =
      firstMatch compile search dblines thelogin thepasswd

theorem entry_isSome (login passwd : Bytes) :
    (entry compile login passwd).isSome ↔
      passwd ≠ [] ∧ (reOrBytes compile login).isSome ∧
        (reOrBytes compile (policy passwd).2).isSome := by
  rw [entry]
  cases reOrBytes compile login with
  | none => simp
  | some user =>
      rw [Option.bind_eq_bind, Option.bind_some]
      split
      · next empty => simp [empty]
      · next given =>
        cases reOrBytes compile (policy passwd).2 with
        | none => simp
        | some password => simp [given]

theorem loadable_iff (user : Str) :
    Loadable compile user ↔
      ∀ line, fields user = some line → (entry compile line.1 line.2).isSome := by
  constructor
  · intro loadable line isLine
    exact (entry_isSome compile ..).mpr (loadable line.1 line.2 isLine)
  · intro loadable login passwd isLine
    exact (entry_isSome compile ..).mp (loadable (login, passwd) isLine)

theorem rules_cons (user : Str) (dblines : List Str) :
    rules compile (user :: dblines) =
      ((fields user).bind fun line => entry compile line.1 line.2).toList ++
        rules compile dblines := by
  rw [rules, List.filterMap_cons]
  cases (fields user).bind fun line => entry compile line.1 line.2 with
  | none => rfl
  | some added => rfl

section

variable [DecidableEq Pattern]

theorem loadLine_eq_some_iff {userdb next : Table Pattern} {user : Str} :
    loadLine compile userdb user = some next ↔
      Loadable compile user ∧
        ((fields user).bind fun line => entry compile line.1 line.2).toList.foldl
          (fun dict rule => dict.set rule.1 rule.2) userdb = next := by
  rw [loadLine, loadable_iff]
  cases fields user with
  | none => simp
  | some line =>
      simp only [adduser, Option.some.injEq, forall_eq', Option.bind_some]
      cases entry compile line.1 line.2 with
      | none => simp
      | some added => simp

theorem load_eq_some_iff {dblines : List Str} {userdb : Table Pattern} :
    load compile dblines = some userdb ↔
      (∀ user ∈ dblines, Loadable compile user) ∧
        RuleTable.collect (rules compile dblines) = userdb := by
  suffices every : ∀ start : Table Pattern,
      dblines.foldlM (loadLine compile) start = some userdb ↔
        (∀ user ∈ dblines, Loadable compile user) ∧
          (rules compile dblines).foldl (fun dict rule => dict.set rule.1 rule.2) start = userdb from
    every .empty
  induction dblines with
  | nil =>
      intro start
      simp [rules]
  | cons user dblines induction =>
      intro start
      rw [List.foldlM_cons, Option.bind_eq_bind, Option.bind_eq_some_iff, List.forall_mem_cons,
        rules_cons, List.foldl_append, and_assoc]
      constructor
      · intro parts
        rcases parts with ⟨next, loaded, rest⟩
        rcases (loadLine_eq_some_iff compile).mp loaded with ⟨loadable, isNext⟩
        rw [isNext]
        exact ⟨loadable, (induction next).mp rest⟩
      · intro parts
        rcases parts with ⟨loadable, rest⟩
        exact ⟨_, (loadLine_eq_some_iff compile).mpr ⟨loadable, rfl⟩, (induction _).mpr rest⟩

theorem checklogin_collect (dblines : List Str) (thelogin thepasswd : Bytes) :
    checklogin search (RuleTable.collect (rules compile dblines)) thelogin thepasswd =
      (((rules compile dblines).find? (matchesBoth search thelogin thepasswd ·.1)).bind
        fun first => RuleTable.lastValue (rules compile dblines) first.1).getD false := by
  rw [checklogin, RuleTable.find?_collect]
  cases (rules compile dblines).find? (matchesBoth search thelogin thepasswd ·.1) with
  | none => rfl
  | some first =>
      rw [Option.bind_some, Option.bind_some]
      cases RuleTable.lastValue (rules compile dblines) first.1 with
      | none => rfl
      | some policy => rfl

/-- The first match wins exactly if every line can be loaded and no line is rewritten that is
the first match. -/
theorem firstMatchWins_iff (dblines : List Str) (thelogin thepasswd : Bytes) :
    FirstMatchWins compile search dblines thelogin thepasswd ↔
      (∀ user ∈ dblines, Loadable compile user) ∧
        Agreed compile search dblines thelogin thepasswd := by
  have answers : checklogin search (RuleTable.collect (rules compile dblines)) thelogin thepasswd =
        firstMatch compile search dblines thelogin thepasswd ↔
      Agreed compile search dblines thelogin thepasswd := by
    rw [checklogin_collect, firstMatch, Agreed]
    cases isFirst : (rules compile dblines).find? (matchesBoth search thelogin thepasswd ·.1) with
    | none => simp
    | some first =>
        have listed := RuleTable.lastValue_isSome (List.mem_of_find?_eq_some isFirst)
        rcases Option.isSome_iff_exists.mp listed with ⟨value, isValue⟩
        simp [isValue]
  constructor
  · intro parts
    rcases parts with ⟨userdb, loaded, same⟩
    rcases (load_eq_some_iff compile).mp loaded with ⟨loadable, isUserdb⟩
    rw [← isUserdb] at same
    exact ⟨loadable, answers.mp same⟩
  · intro parts
    rcases parts with ⟨loadable, agreed⟩
    exact ⟨_, (load_eq_some_iff compile).mpr ⟨loadable, rfl⟩, answers.mpr agreed⟩

end

/-- `root:x:a` is let in by the first line and turned away by the second one, and a line without
a password is not loaded. -/
theorem rewritten_policy :
    ¬ FirstMatchWins (fun _ _ => (none : Option Unit)) (fun _ _ => false)
        ["root:x:a".toList, "root:x:!a".toList] (Utf8.encode "root".toList)
        (Utf8.encode "a".toList) ∧
      load (fun _ _ => (none : Option Unit)) ["root:x:".toList] = none := by
  constructor
  · intro wins
    rcases wins with ⟨userdb, loaded, same⟩
    cases loaded
    revert same
    decide +kernel
  · decide +kernel

end

end UserDB

end Core

end LlmHoneypot
