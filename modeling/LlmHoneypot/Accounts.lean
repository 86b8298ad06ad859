import LlmHoneypot.Foundation.Decimal
import LlmHoneypot.Responder

/-! # Accounts

`id` of `responder.py` beside the account files that `cat /etc/passwd` and `cat /etc/group`
show. -/

namespace LlmHoneypot

namespace Responder

def SYSTEM_UIDS : List (Str × Nat) :=
  [("root", 0), ("daemon", 1), ("bin", 2), ("sys", 3), ("sync", 4), ("games", 5), ("man", 6),
    ("www-data", 33), ("backup", 34), ("nobody", 65534), ("systemd-network", 100),
    ("messagebus", 103), ("sshd", 104)].map fun entry => (entry.1.toList, entry.2)

def uidFor (user : Str) : Nat := (SYSTEM_UIDS.lookup user).getD 1000

/-- `_resolve_user`; `none` defers. -/
def resolveUser (name loginUser : Str) : Option (Nat × Str) :=
  match SYSTEM_UIDS.lookup name with
  | some uid => some (uid, name)
  | none => if name = loginUser then some (1000, name) else none

structure IdReport where
  uid : Nat
  gid : Nat
  groups : List Nat
  user : Str
  group : Str
  deriving DecidableEq, Repr

def IdReport.text (report : IdReport) : Str :=
  "uid=".toList ++ Text.decimal report.uid ++ "(".toList ++ report.user ++ ") gid=".toList ++
    Text.decimal report.gid ++ "(".toList ++ report.group ++ ") groups=".toList ++
    Text.join ",".toList (report.groups.map fun gid =>
      Text.decimal gid ++ "(".toList ++ report.group ++ ")".toList) ++ "\n".toList

def IdReport.of (uid : Nat) (name : Str) : IdReport :=
  if uid = 0 then
    { uid := 0, gid := 0, groups := [0], user := "root".toList, group := "root".toList }
  else { uid, gid := uid, groups := [uid], user := name, group := name }

def idReport (args : List Str) (ctx : ShellContext) (user : Str) : Option IdReport :=
  match args.filter fun arg => !"-".toList.isPrefixOf arg with
  | name :: _ => (resolveUser name ctx.loginUser).map fun account => .of account.1 account.2
  | [] => some (.of (uidFor user) user)

def hId : Handler := fun args ctx user =>
  (idReport args ctx user).map fun report => { output := report.text }

/-! ## Account files -/

def PASSWD_BASE : List Str :=
  ["root:x:0:0:root:/root:/bin/bash",
    "daemon:x:1:1:daemon:/usr/sbin:/usr/sbin/nologin",
    "bin:x:2:2:bin:/bin:/usr/sbin/nologin",
    "sys:x:3:3:sys:/dev:/usr/sbin/nologin",
    "sync:x:4:65534:sync:/bin:/bin/sync",
    "games:x:5:60:games:/usr/games:/usr/sbin/nologin",
    "man:x:6:12:man:/var/cache/man:/usr/sbin/nologin",
    "www-data:x:33:33:www-data:/var/www:/usr/sbin/nologin",
    "backup:x:34:34:backup:/var/backups:/usr/sbin/nologin",
    "nobody:x:65534:65534:nobody:/nonexistent:/usr/sbin/nologin",
    "systemd-network:x:100:102:systemd Network Management,,,:/run/systemd:/usr/sbin/nologin",
    "messagebus:x:103:106::/nonexistent:/usr/sbin/nologin",
    "sshd:x:104:65534::/run/sshd:/usr/sbin/nologin"].map String.toList

def GROUP_BASE : List Str :=
  ["root:x:0:", "daemon:x:1:", "bin:x:2:", "sys:x:3:", "adm:x:4:", "tty:x:5:", "disk:x:6:",
    "sudo:x:27:", "www-data:x:33:", "ssh:x:108:", "nogroup:x:65534:"].map String.toList

def passwdLine (login : Str) : Str :=
  let uid := Text.decimal (uidFor login)
  login ++ ":x:".toList ++ uid ++ ":".toList ++ uid ++ ":".toList ++ login ++ ",,,:".toList ++
    "/home/".toList ++ login ++ ":/bin/bash".toList

def groupLine (login : Str) : Str :=
  login ++ ":x:".toList ++ Text.decimal (uidFor login) ++ ":".toList

def etcPasswd (login : Str) : Str :=
  let base := if login ≠ "root".toList then PASSWD_BASE ++ [passwdLine login] else PASSWD_BASE
  Text.join "\n".toList base ++ "\n".toList

def etcGroup (login : Str) : Str :=
  let base := if login ≠ "root".toList then GROUP_BASE ++ [groupLine login] else GROUP_BASE
  Text.join "\n".toList base ++ "\n".toList

/-! ## Reading them -/

def fileLines (text : Str) : List Str := (Text.splitChar '\n' text).dropLast

def field (index : Nat) (line : Str) : Str := (Text.splitChar ':' line).getD index []

def accountIn (lines : List Str) (name : Str) : Option Str :=
  lines.find? fun line => field 0 line = name

def groupIn (lines : List Str) (gid : Str) : Option Str :=
  (lines.find? fun line => field 2 line = gid).map (field 0)

def accountOf (passwd name : Str) : Option Str := accountIn (fileLines passwd) name

def groupNamed (group gid : Str) : Option Str := groupIn (fileLines group) gid

def members (line : Str) : List Str := (Text.splitChar ',' (field 3 line)).filter (· ≠ [])

def memberOf (group name : Str) : List Str :=
  ((fileLines group).filter fun line => name ∈ members line).map (field 2)

/-- What `id` tells is what the account files say. -/
def IdReport.Agrees (passwd group name : Str) (report : IdReport) : Prop :=
  ∃ line, accountOf passwd name = some line ∧ report.user = name ∧
    field 2 line = Text.decimal report.uid ∧ field 3 line = Text.decimal report.gid ∧
    groupNamed group (field 3 line) = some report.group ∧
    report.groups.map Text.decimal =
      field 3 line :: (memberOf group name).filter (· ≠ field 3 line)

def Unique (passwd : Str) : Prop :=
  ((fileLines passwd).map (field 0)).Nodup ∧ ((fileLines passwd).map (field 2)).Nodup

/-! ## The lines -/

theorem fileLines_join {lines : List Str} (some_ : lines ≠ []) :
    fileLines (Text.join "\n".toList lines ++ "\n".toList) =
      lines.flatMap (Text.splitChar '\n') := by
  have split : Text.splitChar '\n' (Text.join "\n".toList lines) =
      lines.flatMap (Text.splitChar '\n') := by
    induction lines with
    | nil => exact absurd rfl some_
    | cons line lines induction =>
        cases lines with
        | nil => simp [Text.join]
        | cons next lines =>
            have join : Text.join "\n".toList (line :: next :: lines) =
                line ++ '\n' :: Text.join "\n".toList (next :: lines) := by simp [Text.join]
            rw [join, Text.splitChar_between, induction (List.cons_ne_nil _ _)]
            rfl
  have last : "\n".toList = '\n' :: [] := rfl
  rw [fileLines, last, Text.splitChar_between, ← last, split]
  exact List.dropLast_concat

def extraLines (line : Str → Str) (login : Str) : List Str :=
  if login ≠ "root".toList then Text.splitChar '\n' (line login) else []

def SYSTEM_NAMES : List Str := SYSTEM_UIDS.map Prod.fst

def FAITHFUL : List Str :=
  ["root".toList, "daemon".toList, "bin".toList, "sys".toList, "www-data".toList]

-- one evaluation of all lines, since each one takes its time
theorem base_facts :
    (∀ line ∈ PASSWD_BASE ++ GROUP_BASE, '\n' ∉ line) ∧
      PASSWD_BASE.map (field 0) = SYSTEM_NAMES ∧
      PASSWD_BASE.map (field 2) = SYSTEM_UIDS.map (fun entry => Text.decimal entry.2) ∧
      (∀ line ∈ GROUP_BASE, field 3 line = []) ∧
      groupIn GROUP_BASE (Text.decimal 1000) = none ∧
      (accountIn PASSWD_BASE "root".toList).map (field 5) = some "/root".toList ∧
      (∀ entry ∈ SYSTEM_UIDS, (accountIn PASSWD_BASE entry.1).any (fun line =>
        field 2 line = Text.decimal entry.2 ∧
          (entry.1 ∈ FAITHFUL ↔ field 3 line = Text.decimal entry.2 ∧
            groupIn GROUP_BASE (Text.decimal entry.2) = some entry.1))) := by
  decide +kernel

theorem flatMap_splitChar {lines : List Str} (free : ∀ line ∈ lines, '\n' ∉ line) :
    lines.flatMap (Text.splitChar '\n') = lines := by
  induction lines with
  | nil => rfl
  | cons line lines induction =>
      rw [List.flatMap_cons, Text.splitChar_free (free line List.mem_cons_self),
        induction fun other member => free other (List.mem_cons_of_mem _ member)]
      rfl

theorem fileLines_extra {base : List Str} (free : ∀ line ∈ base, '\n' ∉ line) (some_ : base ≠ [])
    (line : Str → Str) (login : Str) :
    fileLines (Text.join "\n".toList
        (if login ≠ "root".toList then base ++ [line login] else base) ++ "\n".toList) =
      base ++ extraLines line login := by
  rw [extraLines]
  by_cases other : login ≠ "root".toList
  · rw [if_pos other, if_pos other, fileLines_join (by simp), List.flatMap_append,
      flatMap_splitChar free, List.flatMap_singleton]
  · rw [if_neg other, if_neg other, fileLines_join some_, flatMap_splitChar free, List.append_nil]

theorem fileLines_passwd (login : Str) :
    fileLines (etcPasswd login) = PASSWD_BASE ++ extraLines passwdLine login :=
  fileLines_extra (fun line member => base_facts.1 line (List.mem_append_left _ member))
    (by simp [PASSWD_BASE]) passwdLine login

theorem fileLines_group (login : Str) :
    fileLines (etcGroup login) = GROUP_BASE ++ extraLines groupLine login :=
  fileLines_extra (fun line member => base_facts.1 line (List.mem_append_right _ member))
    (by simp [GROUP_BASE]) groupLine login

/-! ## Fields of the login user's line -/

section

variable {login name : Str}

theorem field_zero (text : Str) : ∃ later, Text.splitChar ':' text = field 0 text :: later := by
  rcases Text.splitChar_head ':' text with ⟨later, equal, -⟩
  exact ⟨later, by rw [field, equal]; rfl⟩

theorem field_zero_append (text rest : Str) : field 0 (text ++ ':' :: rest) = field 0 text := by
  rcases field_zero text with ⟨later, equal⟩
  rw [field, Text.splitChar_between, equal]
  rfl

theorem notMem_field (index : Nat) (line : Str) : ':' ∉ field index line := by
  rw [field, List.getD_eq_getElem?_getD]
  cases found : (Text.splitChar ':' line)[index]? with
  | none => simp
  | some part => exact Text.not_mem_splitChar (List.mem_of_getElem? found)

theorem field_append {text : Str} {index : Nat} (inside : index < (Text.splitChar ':' text).length)
    (rest : Str) : field index (text ++ ':' :: rest) = field index text := by
  simp only [field, Text.splitChar_between, List.getD_eq_getElem?_getD]
  rw [List.getElem?_append_left inside]

def lineStart (login : Str) : Str := login ++ ':' :: ('x' :: ':' :: Text.decimal (uidFor login))

theorem passwdLine_eq (login : Str) :
    passwdLine login = lineStart login ++ ':' :: (Text.decimal (uidFor login) ++
      ':' :: (login ++ ",,,".toList ++ ':' :: ("/home/".toList ++ login ++
        ':' :: "/bin/bash".toList))) := by
  simp [passwdLine, lineStart]

theorem groupLine_eq (login : Str) : groupLine login = lineStart login ++ ':' :: [] := by
  simp [groupLine, lineStart]

theorem field_groupLine {index : Nat} (early : index < 3) :
    field index (groupLine login) = field index (passwdLine login) := by
  have long : index < (Text.splitChar ':' (lineStart login)).length := by
    have login_ := List.length_pos_iff.mpr (Text.splitChar_ne_nil ':' login)
    have uid := List.length_pos_iff.mpr (Text.splitChar_ne_nil ':' (Text.decimal (uidFor login)))
    have start : lineStart login =
        login ++ ':' :: (['x'] ++ ':' :: Text.decimal (uidFor login)) := rfl
    have x : (Text.splitChar ':' ['x']).length = 1 := by decide
    rw [start, Text.splitChar_between, Text.splitChar_between, List.length_append,
      List.length_append, x]
    omega
  rw [passwdLine_eq, groupLine_eq, field_append long, field_append long]

theorem extraLines_clean {line : Str → Str} (other : login ≠ "root".toList)
    (clean : '\n' ∉ line login) : extraLines line login = [line login] := by
  rw [extraLines, if_pos other, Text.splitChar_free clean]

theorem notMem_decimal (number : Nat) {ch : Char} (notDigit : ch.isDigit = false) :
    ch ∉ Text.decimal number := by
  rw [Decimal.decimal_eq_toDigits]
  intro member
  rw [Nat.isDigit_of_mem_toDigits (by decide) (by decide) member] at notDigit
  cases notDigit

theorem clean_passwdLine (clean : '\n' ∉ login) : '\n' ∉ passwdLine login := by
  have uid := @notMem_decimal (uidFor login) '\n' rfl
  simp [passwdLine, clean, uid]

theorem clean_groupLine (clean : '\n' ∉ login) : '\n' ∉ groupLine login := by
  have uid := @notMem_decimal (uidFor login) '\n' rfl
  simp [groupLine, clean, uid]

/-! ## Each account once -/

/-- The login user is root, or an account of its own on one line. -/
def UniqueLogin (login : Str) : Prop :=
  login = "root".toList ∨ ('\n' ∉ login ∧ field 0 (passwdLine login) ∉ SYSTEM_NAMES ∧
    field 2 (passwdLine login) ∉ SYSTEM_UIDS.map fun entry => Text.decimal entry.2)

instance (login : Str) : Decidable (UniqueLogin login) := inferInstanceAs (Decidable (_ ∨ _))

theorem nodup_base : SYSTEM_NAMES.Nodup ∧
    (SYSTEM_UIDS.map fun entry => Text.decimal entry.2).Nodup := by
  decide +kernel

theorem splitChar_begun {begun : Str} (free : '\n' ∉ begun) (rest : Str) :
    ∃ line later, Text.splitChar '\n' (begun ++ ':' :: rest) = (begun ++ ':' :: line) :: later := by
  induction begun with
  | nil =>
      rcases Text.splitChar_head '\n' rest with ⟨later, equal, -⟩
      exact ⟨_, later, by simp [Text.splitChar, equal]; rfl⟩
  | cons ch begun induction =>
      have parts := List.ne_and_not_mem_of_not_mem_cons free
      rcases induction parts.2 with ⟨line, later, equal⟩
      exact ⟨line, later, by simp [Text.splitChar, Ne.symm parts.1, equal]⟩

theorem not_unique_of_newline (other : login ≠ "root".toList) (newline : '\n' ∈ login) :
    ¬ Unique (etcPasswd login) := by
  have reversed : '\n' ∈ login.reverse := List.mem_reverse.mpr newline
  rcases List.eq_append_cons_of_mem reversed with ⟨back, front, equal, free⟩
  have same : login = front.reverse ++ '\n' :: back.reverse := by
    rw [← List.reverse_reverse login, equal]
    simp
  generalize front.reverse = before at same
  have free : '\n' ∉ back.reverse := fun member => free (List.mem_reverse.mp member)
  generalize back.reverse = after at same free
  -- the line that ends the first occurrence of the name, and the one that ends the last
  have first := splitChar_begun free ("x:".toList ++ Text.decimal (uidFor login) ++ ":".toList ++
    Text.decimal (uidFor login) ++ ":".toList ++ before)
  have last := splitChar_begun free "/bin/bash".toList
  rcases first with ⟨one, ones, first⟩
  rcases last with ⟨two, twos, last⟩
  have line : passwdLine login =
      before ++ '\n' :: (after ++ ':' :: ("x:".toList ++ Text.decimal (uidFor login) ++ ":".toList ++
        Text.decimal (uidFor login) ++ ":".toList ++ before) ++ '\n' ::
          (after ++ ",,,:/home/".toList ++ before ++ '\n' :: (after ++ ':' :: "/bin/bash".toList))) := by
    rw [passwdLine]
    simp [same]
  have twice : [field 0 after, field 0 after].Sublist ((extraLines passwdLine login).map (field 0)) := by
    rw [extraLines, if_pos other, line, Text.splitChar_between, Text.splitChar_between,
      Text.splitChar_between, first, last]
    simp only [List.map_append, List.map_cons, field_zero_append]
    apply List.Sublist.trans _ (List.sublist_append_right _ _)
    apply List.Sublist.cons_cons
    apply List.Sublist.trans _ (List.sublist_append_right _ _)
    apply List.Sublist.trans _ (List.sublist_append_right _ _)
    exact List.Sublist.cons_cons _ (List.nil_sublist _)
  intro unique
  have nodup := unique.1
  rw [fileLines_passwd, List.map_append] at nodup
  exact absurd (nodup.sublist (twice.trans (List.sublist_append_right _ _))) (by simp)

theorem unique_iff (login : Str) : Unique (etcPasswd login) ↔ UniqueLogin login := by
  rw [UniqueLogin]
  by_cases root : login = "root".toList
  · rw [Unique, fileLines_passwd, extraLines, if_neg (not_not.mpr root), List.append_nil,
      base_facts.2.1, base_facts.2.2.1]
    exact iff_of_true nodup_base (.inl root)
  · rw [or_iff_right root]
    by_cases newline : '\n' ∈ login
    · exact iff_of_false (not_unique_of_newline root newline) (fun fits => fits.1 newline)
    · rw [Unique, fileLines_passwd, extraLines_clean root (clean_passwdLine newline),
        List.map_append, List.map_append, base_facts.2.1, base_facts.2.2.1]
      simp only [List.map_singleton, List.nodup_append, nodup_base.1, nodup_base.2,
        List.nodup_singleton, List.mem_singleton, forall_eq, true_and, newline, not_false_eq_true]
      constructor
      · exact fun apart =>
          ⟨fun member => apart.1 _ member rfl, fun member => apart.2 _ member rfl⟩
      · exact fun absent =>
          ⟨fun other member same => absent.1 (same ▸ member),
            fun other member same => absent.2 (same ▸ member)⟩

/-! ## What the files say of an account -/

theorem account_system {uid : Nat} (member : (name, uid) ∈ SYSTEM_UIDS) (login : Str) :
    ∃ line, accountOf (etcPasswd login) name = some line ∧ field 2 line = Text.decimal uid ∧
      (name ∈ FAITHFUL ↔ field 3 line = Text.decimal uid ∧
        groupIn GROUP_BASE (Text.decimal uid) = some name) := by
  have fact := base_facts.2.2.2.2.2.2 (name, uid) member
  cases found : accountIn PASSWD_BASE name with
  | none =>
      rw [found] at fact
      cases fact
  | some line =>
      rw [found] at fact
      refine ⟨line, ?_, of_decide_eq_true fact⟩
      rw [accountIn] at found
      rw [accountOf, fileLines_passwd, accountIn, List.find?_append, found]
      rfl

theorem account_other (other : name ∉ SYSTEM_NAMES) (unique : UniqueLogin login) :
    accountOf (etcPasswd login) name =
      if login ≠ "root".toList ∧ field 0 (passwdLine login) = name then some (passwdLine login)
      else none := by
  have base : PASSWD_BASE.find? (fun line => field 0 line = name) = none := by
    rw [List.find?_eq_none]
    intro line isLine same
    rw [← base_facts.2.1] at other
    exact other (List.mem_map.mpr ⟨line, isLine, of_decide_eq_true same⟩)
  rw [accountOf, fileLines_passwd, accountIn, List.find?_append, base, Option.none_or]
  rcases unique with root | ⟨clean, -⟩
  · rw [extraLines, if_neg (not_not.mpr root), if_neg (fun both => both.1 root), List.find?_nil]
  · by_cases root : login = "root".toList
    · rw [extraLines, if_neg (not_not.mpr root), if_neg (fun both => both.1 root), List.find?_nil]
    · rw [extraLines_clean root (clean_passwdLine clean), List.find?_singleton]
      simp only [decide_eq_true_eq, ne_eq, root, not_false_eq_true, true_and]

theorem extraLines_group (unique : UniqueLogin login) :
    extraLines groupLine login = if login ≠ "root".toList then [groupLine login] else [] := by
  by_cases root : login = "root".toList
  · rw [extraLines, if_neg (not_not.mpr root), if_neg (not_not.mpr root)]
  · rw [if_pos root]
    exact extraLines_clean root (clean_groupLine (unique.resolve_left root).1)

theorem groupNamed_system (unique : UniqueLogin login) {gid : Str}
    (isUid : gid ∈ SYSTEM_UIDS.map fun entry => Text.decimal entry.2) :
    groupNamed (etcGroup login) gid = groupIn GROUP_BASE gid := by
  have extra : (extraLines groupLine login).find? (fun line => field 2 line = gid) = none := by
    rw [extraLines_group unique]
    split
    · next other =>
      rw [List.find?_singleton, if_neg]
      simp only [field_groupLine (show 2 < 3 by decide), decide_eq_true_eq]
      exact fun same => (unique.resolve_left other).2.2 (same ▸ isUid)
    · rfl
  rw [groupNamed, groupIn, fileLines_group, List.find?_append, extra, Option.or_none, groupIn]

theorem groupNamed_login (unique : UniqueLogin login) (other : login ≠ "root".toList)
    (uid : field 2 (passwdLine login) = Text.decimal 1000) :
    groupNamed (etcGroup login) (Text.decimal 1000) = some (field 0 (passwdLine login)) := by
  have base : GROUP_BASE.find? (fun line => field 2 line = Text.decimal 1000) = none := by
    have none_ := base_facts.2.2.2.2.1
    rwa [groupIn, Option.map_eq_none_iff] at none_
  rw [groupNamed, groupIn, fileLines_group, List.find?_append, base, Option.none_or,
    extraLines_group unique, if_pos other, List.find?_singleton]
  simp [field_groupLine (show 2 < 3 by decide), field_groupLine (show 0 < 3 by decide), uid]

theorem memberOf_group (unique : UniqueLogin login) (name : Str) :
    memberOf (etcGroup login) name =
      if login ≠ "root".toList ∧ name ∈ members (groupLine login) then
        [field 2 (passwdLine login)]
      else [] := by
  have base : GROUP_BASE.filter (fun line => name ∈ members line) = [] := by
    rw [List.filter_eq_nil_iff]
    intro line isLine
    have none_ : members line = [] := by
      rw [members, base_facts.2.2.2.1 line isLine]
      rfl
    simp [none_]
  rw [memberOf, fileLines_group, List.filter_append, base, List.nil_append,
    extraLines_group unique]
  by_cases root : login = "root".toList
  · rw [if_neg (not_not.mpr root), if_neg (fun both => both.1 root)]
    rfl
  · rw [if_pos root]
    by_cases isMember : name ∈ members (groupLine login)
    · rw [if_pos ⟨root, isMember⟩, ← field_groupLine (show 2 < 3 by decide)]
      simp [isMember]
    · rw [if_neg (fun both => isMember both.2)]
      simp [isMember]

/-! ## When `id` agrees -/

theorem of_system {uid : Nat} (member : (name, uid) ∈ SYSTEM_UIDS) :
    IdReport.of uid name = { uid, gid := uid, groups := [uid], user := name, group := name } := by
  have root : ∀ entry ∈ SYSTEM_UIDS, entry.2 = 0 → entry.1 = "root".toList := by decide +kernel
  rw [IdReport.of]
  split
  · next zero =>
    have same : name = "root".toList := root (name, uid) member zero
    rw [zero, same]
  · rfl

/-- A system account that the two files know as `id` does, and that the login user's name makes
no member of another group. -/
def SystemFits (login name : Str) : Prop :=
  name ∈ FAITHFUL ∧ (login = "root".toList ∨ name ∉ members (groupLine login))

/-- The login user's line is the account's, with the number 1000 twice. -/
def LoginFits (login name : Str) : Prop :=
  login ≠ "root".toList ∧ field 0 (passwdLine login) = name ∧
    field 2 (passwdLine login) = Text.decimal 1000 ∧ field 3 (passwdLine login) = Text.decimal 1000

instance (login name : Str) : Decidable (SystemFits login name) :=
  inferInstanceAs (Decidable (_ ∧ _))

theorem system_agrees_iff (unique : UniqueLogin login) {uid : Nat}
    (member : (name, uid) ∈ SYSTEM_UIDS) :
    (IdReport.of uid name).Agrees (etcPasswd login) (etcGroup login) name ↔
      SystemFits login name := by
  rcases account_system member login with ⟨line, found, isUid, faithful⟩
  have isListed : Text.decimal uid ∈ SYSTEM_UIDS.map fun entry => Text.decimal entry.2 :=
    List.mem_map.mpr ⟨_, member, rfl⟩
  have others : (memberOf (etcGroup login) name).filter (· ≠ Text.decimal uid) = [] ↔
      (login = "root".toList ∨ name ∉ members (groupLine login)) := by
    rw [memberOf_group unique]
    by_cases root : login = "root".toList
    · rw [if_neg (fun both => both.1 root)]
      exact iff_of_true rfl (.inl root)
    · rw [or_iff_right root]
      have differs : field 2 (passwdLine login) ≠ Text.decimal uid := fun same =>
        (unique.resolve_left root).2.2 (same ▸ isListed)
      by_cases isMember : name ∈ members (groupLine login)
      · rw [if_pos ⟨root, isMember⟩]
        simp [differs, isMember]
      · rw [if_neg (fun both => isMember both.2)]
        exact iff_of_true rfl isMember
  rw [of_system member, SystemFits, ← others, faithful]
  constructor
  · intro agrees
    rcases agrees with ⟨other, same, -, -, gid, group, groups⟩
    rw [found, Option.some.injEq] at same
    subst same
    rw [gid, groupNamed_system unique isListed] at group
    rw [gid] at groups
    simp only [List.map_singleton, List.cons.injEq, true_and] at groups
    exact ⟨⟨gid, group⟩, groups.symm⟩
  · intro fits
    rcases fits with ⟨⟨gid, group⟩, alone⟩
    refine ⟨line, found, rfl, isUid, gid, ?_, ?_⟩
    · rw [gid, groupNamed_system unique isListed]
      exact group
    · rw [gid, alone]
      rfl

theorem login_agrees_iff (unique : UniqueLogin login) (other : name ∉ SYSTEM_NAMES) :
    (IdReport.of 1000 name).Agrees (etcPasswd login) (etcGroup login) name ↔
      LoginFits login name := by
  have report : IdReport.of 1000 name =
      { uid := 1000, gid := 1000, groups := [1000], user := name, group := name } := rfl
  have found := account_other other unique
  rw [report, LoginFits]
  constructor
  · intro agrees
    rcases agrees with ⟨line, same, -, uid, gid, -⟩
    rw [found] at same
    split at same
    · next both =>
      cases same
      exact ⟨both.1, both.2, uid, gid⟩
    · cases same
  · intro fits
    rcases fits with ⟨notRoot, isName, uid, gid⟩
    refine ⟨passwdLine login, ?_, rfl, uid, gid, ?_, ?_⟩
    · rw [found, if_pos ⟨notRoot, isName⟩]
    · rw [gid, groupNamed_login unique notRoot uid, isName]
    · rw [gid, memberOf_group unique, uid]
      split
      · simp
      · rfl

/-- Whatever `id` tells, with or without a name, is what the account files say, and these have
each name and each uid once. -/
def IdAgrees (ctx : ShellContext) (user : Str) (asked : Option Str) : Prop :=
  (∀ report, idReport asked.toList ctx user = some report →
    hId asked.toList ctx user = some { output := report.text } ∧
      report.Agrees (etcPasswd ctx.loginUser) (etcGroup ctx.loginUser) (asked.getD user)) ∧
  Unique (etcPasswd ctx.loginUser)

/-- The name asked for is left to the model. -/
def Deferred (login : Str) (asked : Option Str) : Prop :=
  ∃ name ∈ asked, name ∉ SYSTEM_NAMES ∧ name ≠ login

theorem lookup_system {uid : Nat} (found : SYSTEM_UIDS.lookup name = some uid) :
    (name, uid) ∈ SYSTEM_UIDS := by
  rcases List.lookup_eq_some_iff.mp found with ⟨before, after, equal, -⟩
  rw [equal]
  exact List.mem_append_right _ List.mem_cons_self

theorem lookup_other (other : SYSTEM_UIDS.lookup name = none) : name ∉ SYSTEM_NAMES := by
  intro member
  rcases List.mem_map.mp member with ⟨entry, isEntry, same⟩
  have differs := List.lookup_eq_none_iff.mp other entry isEntry
  simp [same] at differs

theorem filter_asked {asked : Option Str} (isName : ∀ name ∈ asked, ¬ "-".toList <+: name) :
    asked.toList.filter (fun arg => !"-".toList.isPrefixOf arg) = asked.toList := by
  cases asked with
  | none => rfl
  | some name =>
      have notOption : "-".toList.isPrefixOf name = false := by
        rw [Bool.eq_false_iff]
        exact fun begins => isName name rfl (List.isPrefixOf_iff_prefix.mp begins)
      simp only [Option.toList_some, List.filter_cons, notOption, Bool.not_false, if_true,
        List.filter_nil]

theorem idReport_system {ctx : ShellContext} {user : Str} {asked : Option Str}
    (isName : ∀ name ∈ asked, ¬ "-".toList <+: name) {uid : Nat}
    (found : SYSTEM_UIDS.lookup (asked.getD user) = some uid) :
    idReport asked.toList ctx user = some (.of uid (asked.getD user)) := by
  rw [idReport, filter_asked isName]
  cases asked with
  | none =>
      rw [Option.getD_none] at found
      simp only [Option.toList_none, uidFor, found, Option.getD_some, Option.getD_none]
  | some name =>
      rw [Option.getD_some] at found
      simp only [Option.toList_some, resolveUser, found, Option.map_some, Option.getD_some]

theorem idReport_other {ctx : ShellContext} {user : Str} {asked : Option Str}
    (isName : ∀ name ∈ asked, ¬ "-".toList <+: name)
    (other : SYSTEM_UIDS.lookup (asked.getD user) = none) :
    (Deferred ctx.loginUser asked ∧ idReport asked.toList ctx user = none) ∨
      (¬ Deferred ctx.loginUser asked ∧
        idReport asked.toList ctx user = some (.of 1000 (asked.getD user))) := by
  rw [idReport, filter_asked isName]
  cases asked with
  | none =>
      rw [Option.getD_none] at other
      right
      constructor
      · intro deferred
        rcases deferred with ⟨name, isAsked, -⟩
        cases isAsked
      · simp only [Option.toList_none, uidFor, other, Option.getD_none]
  | some name =>
      rw [Option.getD_some] at other
      simp only [Option.toList_some, resolveUser, other, Option.getD_some]
      by_cases login : name = ctx.loginUser
      · right
        constructor
        · intro deferred
          rcases deferred with ⟨_, isAsked, -, differs⟩
          cases isAsked
          exact differs login
        · rw [if_pos login]
          rfl
      · left
        constructor
        · exact ⟨name, rfl, lookup_other other, login⟩
        · rw [if_neg login]
          rfl

/-- `id` agrees where the login user is root or an account of its own, and the account is the
login user's, or a system account that the files give the same group. -/
theorem id_agrees_iff (ctx : ShellContext) (user : Str) (asked : Option Str)
    (isName : ∀ name ∈ asked, ¬ "-".toList <+: name) :
    IdAgrees ctx user asked ↔
      UniqueLogin ctx.loginUser ∧
        (Deferred ctx.loginUser asked ∨ SystemFits ctx.loginUser (asked.getD user) ∨
          LoginFits ctx.loginUser (asked.getD user)) := by
  have reported {report : IdReport} (equal : idReport asked.toList ctx user = some report) :
      hId asked.toList ctx user = some { output := report.text } := by
    rw [hId, equal]
    rfl
  rw [IdAgrees, unique_iff, and_comm]
  refine and_congr_right fun unique => ?_
  cases found : SYSTEM_UIDS.lookup (asked.getD user) with
  | some uid =>
      have member := lookup_system found
      have report := @idReport_system ctx user asked isName uid found
      have isSystem : asked.getD user ∈ SYSTEM_NAMES := List.mem_map.mpr ⟨_, member, rfl⟩
      have notDeferred : ¬ Deferred ctx.loginUser asked := by
        intro deferred
        rcases deferred with ⟨name, isAsked, notSystem, -⟩
        cases isAsked
        exact notSystem isSystem
      have notLogin : ¬ LoginFits ctx.loginUser (asked.getD user) := fun fits =>
        (unique.resolve_left fits.1).2.1 (fits.2.1 ▸ isSystem)
      rw [or_iff_right notDeferred, or_iff_left notLogin, ← system_agrees_iff unique member]
      constructor
      · exact fun all => (all _ report).2
      · intro agrees other equal
        rw [report, Option.some.injEq] at equal
        subst equal
        exact ⟨reported report, agrees⟩
  | none =>
      have notSystem : ¬ SystemFits ctx.loginUser (asked.getD user) := by
        intro fits
        have known : ∀ name ∈ FAITHFUL, name ∈ SYSTEM_NAMES := by decide +kernel
        exact lookup_other found (known _ fits.1)
      rw [or_iff_right notSystem]
      rcases @idReport_other ctx user asked isName found with ⟨deferred, report⟩ | ⟨answered, report⟩
      · refine iff_of_true ?_ (.inl deferred)
        intro other equal
        rw [report] at equal
        cases equal
      · rw [or_iff_right answered, ← login_agrees_iff unique (lookup_other found)]
        constructor
        · exact fun all => (all _ report).2
        · intro agrees other equal
          rw [report, Option.some.injEq] at equal
          subst equal
          exact ⟨reported report, agrees⟩

end

/-! ## Logins -/

def loggedIn (login : Str) : ShellContext :=
  { world := {}, cwd := "/root".toList, loginUser := login, hostname := "web01".toList, now := 0 }

theorem id_agrees_www_data : IdAgrees (loggedIn "alice".toList) "alice".toList
    (some "www-data".toList) := by
  apply (id_agrees_iff _ _ _ (by decide)).mpr
  exact ⟨by decide +kernel, .inr (.inl (by decide +kernel))⟩

/-- The group of `games` is 60 in the account file and 5 in what `id` tells. -/
theorem id_differs_games : ¬ IdAgrees (loggedIn "alice".toList) "alice".toList
    (some "games".toList) := by
  intro agrees
  have unique : UniqueLogin "alice".toList := by decide +kernel
  have member : ("games".toList, 5) ∈ SYSTEM_UIDS := by decide +kernel
  have fits := (system_agrees_iff unique member).mp (agrees.1 _ (by decide +kernel)).2
  exact absurd fits.1 (by decide +kernel)

end Responder

end LlmHoneypot
