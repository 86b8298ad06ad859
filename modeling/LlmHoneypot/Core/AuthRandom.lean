import LlmHoneypot.Foundation.BytesRepr
import LlmHoneypot.Foundation.Dict
import LlmHoneypot.Foundation.EventRun
import Mathlib.Data.List.Dedup
import Mathlib.Data.List.Perm.Subperm

/-! # Random logins

`AuthRandom` of `core/auth.py`: an address gets in after a random number of attempts, with a
login that is kept for it and for the others. -/

namespace LlmHoneypot

namespace Core

/-- The three numbers of `auth_class_parameters`. -/
structure AuthRandom where
  mintry : Nat
  maxtry : Nat
  maxcache : Nat
  mintry_pos : 1 ≤ mintry
  mintry_le : mintry ≤ maxtry
  maxcache_pos : 1 ≤ maxcache

def AuthRandom.init (mintry maxtry maxcache : Nat) (mintry_pos : 1 ≤ mintry)
    (maxcache_pos : 1 ≤ maxcache) : AuthRandom where
  mintry := mintry
  maxtry := if maxtry < mintry then mintry + 1 else maxtry
  maxcache := maxcache
  mintry_pos := mintry_pos
  mintry_le := by
    split
    · exact Nat.le_succ mintry
    · next enough => exact Nat.le_of_not_lt enough
  maxcache_pos := maxcache_pos

namespace AuthRandom

/-- An address. The key `cache` of the store is none. -/
abbrev Address := { ip : Str // ip ≠ "cache".toList }

structure IpInfo where
  tries : Option Nat := none
  max : Option Nat := none
  user : Option Str := none
  pw : Option Str := none
  tried : Option (List Str) := none
  deriving DecidableEq

structure Uservar where
  cache : List Str := []
  visitors : Dict Address IpInfo := .empty

def userpass (thelogin thepasswd : Bytes) : Str :=
  BytesRepr.str thelogin ++ ':' :: BytesRepr.str thepasswd

def eqText (_data : Bytes) (_text : Str) : Bool := false

def IpInfo.login (ipinfo : IpInfo) (thelogin thepasswd : Bytes) : IpInfo :=
  { ipinfo with user := some (BytesRepr.str thelogin), pw := some (BytesRepr.str thepasswd) }

/-- `ipinfo["try"]`, which is there when it is read. -/
def IpInfo.attempts (ipinfo : IpInfo) : Nat := ipinfo.tries.getD 0

/-- `ipinfo["tried"]`, which is there when it is read. -/
def IpInfo.combinations (ipinfo : IpInfo) : List Str := ipinfo.tried.getD []

def IpInfo.fillIn (randint : Nat) (ipinfo : IpInfo) : IpInfo :=
  { ipinfo with
    max := some (ipinfo.max.getD randint)
    tries := some (ipinfo.tries.getD 0)
    tried := some (ipinfo.tried.getD []) }

def remember (maxcache : Nat) (cache : List Str) (added : Str) : List Str :=
  let cache := cache ++ [added]
  if maxcache < cache.length then cache.drop 1 else cache

def attempt (auth : AuthRandom) (cache : List Str) (ipinfo : IpInfo) (need : Nat)
    (thelogin thepasswd : Bytes) : List Str × IpInfo × Bool :=
  let attempts := ipinfo.attempts + 1
  let ipinfo := { ipinfo with tries := some attempts }
  let tried := some (ipinfo.combinations ++ [userpass thelogin thepasswd])
  if attempts < need then (cache, { ipinfo with tried := tried }, false)
  else if attempts = need then
    (remember auth.maxcache cache (userpass thelogin thepasswd), ipinfo.login thelogin thepasswd,
      true)
  else
    match ipinfo.user, ipinfo.pw with
    | some user, some pw =>
        (cache, ipinfo, eqText thelogin user && BytesRepr.str thepasswd == pw)
    | _, _ => (cache, { ipinfo with tried := tried, tries := some 1 }, false)

def checklogin (auth : AuthRandom) (uservar : Uservar) (thelogin thepasswd : Bytes)
    (srcIp : Address) (randint : Nat) : Uservar × Bool :=
  let cached := userpass thelogin thepasswd ∈ uservar.cache
  let ipinfo : IpInfo :=
    match uservar.visitors.get? srcIp with
    | none => { tries := some 0, max := if cached then none else some randint }
    | some ipinfo => ipinfo
  if cached then
    let ipinfo := { ipinfo.login thelogin thepasswd with max := some 1 }
    ({ uservar with visitors := uservar.visitors.set srcIp ipinfo }, true)
  else
    let ipinfo := ipinfo.fillIn randint
    if userpass thelogin thepasswd ∈ ipinfo.combinations then
      ({ uservar with visitors := uservar.visitors.set srcIp ipinfo }, false)
    else
      let (cache, ipinfo, auth) :=
        auth.attempt uservar.cache ipinfo (ipinfo.max.getD randint) thelogin thepasswd
      ({ cache, visitors := uservar.visitors.set srcIp ipinfo }, auth)

/-! ## Runs -/

abbrev Login := Bytes × Bytes

/-- A call of `checklogin`, with the number that `randint` would draw. -/
structure Call (auth : AuthRandom) where
  login : Login
  srcIp : Address
  randint : Nat
  mintry_le : auth.mintry ≤ randint
  le_maxtry : randint ≤ auth.maxtry

structure Answered where
  login : Login
  srcIp : Address
  accepted : Bool

/-- The store, and the calls so far with the latest one first. -/
structure State where
  uservar : Uservar := {}
  history : List Answered := []

def State.answer {auth : AuthRandom} (state : State) (call : Call auth) : Uservar × Bool :=
  auth.checklogin state.uservar call.login.1 call.login.2 call.srcIp call.randint

def step (auth : AuthRandom) (state : State) (call : Call auth) : Option State :=
  let (uservar, accepted) := state.answer call
  some { uservar, history := ⟨call.login, call.srcIp, accepted⟩ :: state.history }

/-- The latest login that succeeded from an address. -/
def lastLogin (history : List Answered) (srcIp : Address) : Option Login :=
  (history.find? fun answered => answered.srcIp = srcIp ∧ answered.accepted).map Answered.login

/-- What an address has tried, with the repetitions. -/
def attempted (history : List Answered) (srcIp : Address) : List Login :=
  (history.filter fun answered => answered.srcIp = srcIp).map Answered.login

def Uservar.Cached (uservar : Uservar) (login : Login) : Prop :=
  userpass login.1 login.2 ∈ uservar.cache

instance (uservar : Uservar) (login : Login) : Decidable (uservar.Cached login) :=
  inferInstanceAs (Decidable (_ ∈ _))

/-- What the docstring of `checklogin` says about a call. -/
structure Promised (auth : AuthRandom) (state : State) (call : Call auth) : Prop where
  /-- The login that succeeded last is let in again. -/
  returns : lastLogin state.history call.srcIp = some call.login → (state.answer call).2 = true
  /-- Another one is not, unless it is cached. -/
  refused : ∀ stored, lastLogin state.history call.srcIp = some stored → stored ≠ call.login →
    ¬ state.uservar.Cached call.login → (state.answer call).2 = false
  /-- The first success is earned. -/
  earned : lastLogin state.history call.srcIp = none → ¬ state.uservar.Cached call.login →
    (state.answer call).2 = true →
      call.login ∉ attempted state.history call.srcIp ∧
        auth.mintry ≤ (attempted state.history call.srcIp).dedup.length + 1
  bounded : (state.answer call).1.cache.length ≤ auth.maxcache

def IpInfo.Stored (ipinfo : IpInfo) (login : Login) : Prop :=
  ipinfo.user = some (BytesRepr.str login.1) ∧ ipinfo.pw = some (BytesRepr.str login.2)

def IpInfo.Due (ipinfo : IpInfo) (login : Login) : Prop :=
  userpass login.1 login.2 ∉ ipinfo.combinations ∧ ipinfo.max = some (ipinfo.attempts + 1)

/-- An address that has a login stored and comes with one that is not cached: it is the stored
one exactly if the attempt is the one that is let in. -/
def Spared {auth : AuthRandom} (state : State) (call : Call auth) : Prop :=
  ∀ ipinfo, state.uservar.visitors.get? call.srcIp = some ipinfo → ipinfo.user.isSome →
    ¬ state.uservar.Cached call.login → (ipinfo.Stored call.login ↔ ipinfo.Due call.login)

/-! ## The answer -/

theorem length_remember {maxcache : Nat} {cache : List Str} (short : cache.length ≤ maxcache)
    (added : Str) : (remember maxcache cache added).length ≤ maxcache := by
  rw [remember]
  split
  · rw [List.length_drop, List.length_append, List.length_singleton]
    exact short
  · next fits => exact Nat.le_of_not_lt fits

def Uservar.counted (uservar : Uservar) (srcIp : Address) (randint : Nat) : IpInfo :=
  match uservar.visitors.get? srcIp with
  | none => { tries := some 0, max := some randint, tried := some [] }
  | some ipinfo => ipinfo.fillIn randint

theorem checklogin_cached (auth : AuthRandom) {uservar : Uservar} {login : Login}
    (cached : uservar.Cached login) (srcIp : Address) (randint : Nat) :
    ∃ ipinfo : IpInfo, ipinfo.max = some 1 ∧ ipinfo.Stored login ∧
      auth.checklogin uservar login.1 login.2 srcIp randint =
        ({ uservar with visitors := uservar.visitors.set srcIp ipinfo }, true) := by
  have member : userpass login.1 login.2 ∈ uservar.cache := cached
  rw [checklogin, if_pos member]
  exact ⟨_, rfl, ⟨rfl, rfl⟩, rfl⟩

theorem checklogin_uncached (auth : AuthRandom) {uservar : Uservar} {login : Login}
    (uncached : ¬ uservar.Cached login) (srcIp : Address) (randint : Nat) :
    auth.checklogin uservar login.1 login.2 srcIp randint =
      let ipinfo := uservar.counted srcIp randint
      if userpass login.1 login.2 ∈ ipinfo.combinations then
        ({ uservar with visitors := uservar.visitors.set srcIp ipinfo }, false)
      else
        let (cache, ipinfo, auth) :=
          auth.attempt uservar.cache ipinfo (ipinfo.max.getD randint) login.1 login.2
        ({ cache, visitors := uservar.visitors.set srcIp ipinfo }, auth) := by
  have notMember : userpass login.1 login.2 ∉ uservar.cache := uncached
  rw [checklogin, if_neg notMember, if_neg notMember, Uservar.counted]
  cases uservar.visitors.get? srcIp with
  | none => rfl
  | some ipinfo => rfl

theorem attempt_accepted (auth : AuthRandom) (cache : List Str) (ipinfo : IpInfo) (need : Nat)
    (login : Login) :
    (auth.attempt cache ipinfo need login.1 login.2).2.2 = true ↔
      need = ipinfo.attempts + 1 := by
  rw [attempt]
  split
  · next early =>
    have differs : need ≠ ipinfo.attempts + 1 := by omega
    simp [differs]
  · split
    · next due => simp [due]
    · next late =>
      have differs : need ≠ ipinfo.attempts + 1 := fun same => late same.symm
      -- A byte string equals no text, so nobody returns.
      split
      · simp [eqText, differs]
      · simp [differs]

theorem length_attempt (auth : AuthRandom) {cache : List Str}
    (short : cache.length ≤ auth.maxcache) (ipinfo : IpInfo) (need : Nat) (login : Login) :
    (auth.attempt cache ipinfo need login.1 login.2).1.length ≤ auth.maxcache := by
  rw [attempt]
  split
  · exact short
  · split
    · exact length_remember short _
    · split
      · exact short
      · exact short

/-! ## What is known of an address -/

@[simp] theorem lastLogin_cons (answered : Answered) (history : List Answered) (srcIp : Address) :
    lastLogin (answered :: history) srcIp =
      if answered.srcIp = srcIp ∧ answered.accepted then some answered.login
      else lastLogin history srcIp := by
  rw [lastLogin, List.find?_cons]
  by_cases found : answered.srcIp = srcIp ∧ answered.accepted
  · simp [found]
  · simp [found, lastLogin]

@[simp] theorem attempted_cons (answered : Answered) (history : List Answered) (srcIp : Address) :
    attempted (answered :: history) srcIp =
      if answered.srcIp = srcIp then answered.login :: attempted history srcIp
      else attempted history srcIp := by
  rw [attempted, List.filter_cons]
  by_cases same : answered.srcIp = srcIp
  · simp [same, attempted]
  · simp [same, attempted]

theorem lastLogin_of_attempted {history : List Answered} {srcIp : Address}
    (nothing : attempted history srcIp = []) : lastLogin history srcIp = none := by
  rw [attempted, List.map_eq_nil_iff, List.filter_eq_nil_iff] at nothing
  rw [lastLogin, Option.map_eq_none_iff, List.find?_eq_none]
  intro answered member isFound
  apply nothing answered member
  simpa using (decide_eq_true_iff.mp isFound).1

structure Counting (auth : AuthRandom) (tried : List Login) (ipinfo : IpInfo) : Prop where
  early : ∃ need, ipinfo.max = some need ∧ auth.mintry ≤ need ∧ ipinfo.attempts < need
  length : ipinfo.combinations.length = ipinfo.attempts
  nodup : ipinfo.combinations.Nodup
  same : ∀ text, text ∈ ipinfo.combinations ↔ ∃ login ∈ tried, userpass login.1 login.2 = text

/-- What is known of an address fits its history. -/
structure Fits (auth : AuthRandom) (history : List Answered) (srcIp : Address) (ipinfo : IpInfo) :
    Prop where
  max : ipinfo.max.isSome
  user : ipinfo.user = (lastLogin history srcIp).map fun login => BytesRepr.str login.1
  pw : ipinfo.pw = (lastLogin history srcIp).map fun login => BytesRepr.str login.2
  counting : lastLogin history srcIp = none → Counting auth (attempted history srcIp) ipinfo

structure Sound (auth : AuthRandom) (state : State) : Prop where
  new : ∀ srcIp, state.uservar.visitors.get? srcIp = none → attempted state.history srcIp = []
  known : ∀ srcIp ipinfo, state.uservar.visitors.get? srcIp = some ipinfo →
    Fits auth state.history srcIp ipinfo
  bounded : state.uservar.cache.length ≤ auth.maxcache

theorem fillIn_fits {auth : AuthRandom} {history : List Answered} {srcIp : Address}
    {ipinfo : IpInfo} (fits : Fits auth history srcIp ipinfo) (randint : Nat) :
    Fits auth history srcIp (ipinfo.fillIn randint) := by
  refine ⟨rfl, fits.user, fits.pw, ?_⟩
  intro never
  rcases fits.counting never with ⟨⟨need, isNeed, enough⟩, length, nodup, same⟩
  refine ⟨⟨need, ?_, enough⟩, length, nodup, same⟩
  rw [IpInfo.fillIn, isNeed]
  rfl

theorem counted_fits {auth : AuthRandom} {state : State} (sound : Sound auth state)
    (call : Call auth) :
    Fits auth state.history call.srcIp
      (state.uservar.counted call.srcIp call.randint) := by
  rw [Uservar.counted]
  cases visited : state.uservar.visitors.get? call.srcIp with
  | none =>
      have nothing := sound.new call.srcIp visited
      have never := lastLogin_of_attempted nothing
      refine ⟨rfl, ?_, ?_, ?_⟩
      · rw [never]
        rfl
      · rw [never]
        rfl
      · intro _
        rw [nothing]
        have positive : 0 < call.randint := Nat.le_trans auth.mintry_pos call.mintry_le
        refine ⟨⟨call.randint, rfl, call.mintry_le, positive⟩, rfl, List.nodup_nil, ?_⟩
        intro text
        simp [IpInfo.combinations]
  | some ipinfo => exact fillIn_fits (sound.known call.srcIp ipinfo visited) call.randint

theorem stored_iff {auth : AuthRandom} {history : List Answered} {srcIp : Address}
    {ipinfo : IpInfo} (fits : Fits auth history srcIp ipinfo) (login : Login) :
    ipinfo.Stored login ↔ lastLogin history srcIp = some login := by
  rw [IpInfo.Stored, fits.user, fits.pw]
  cases lastLogin history srcIp with
  | none => simp
  | some stored =>
      simp only [Option.map_some, Option.some.injEq]
      constructor
      · intro ⟨user, pw⟩
        exact Prod.ext (BytesRepr.str_injective user) (BytesRepr.str_injective pw)
      · intro same
        rw [same]
        exact ⟨rfl, rfl⟩

theorem answer_uncached {auth : AuthRandom} {state : State} (sound : Sound auth state)
    {call : Call auth} (uncached : ¬ state.uservar.Cached call.login) :
    (state.answer call).2 = true ↔
      (state.uservar.counted call.srcIp call.randint).Due call.login := by
  rcases Option.isSome_iff_exists.mp (counted_fits sound call).max with ⟨need, isNeed⟩
  rw [State.answer, checklogin_uncached auth uncached, IpInfo.Due]
  simp only [isNeed, Option.getD_some, Option.some.injEq]
  split
  · next tried => simp [tried]
  · next untried =>
    rw [← attempt_accepted auth state.uservar.cache _ need call.login]
    simp [untried]

theorem answer_cached {auth : AuthRandom} {state : State} {call : Call auth}
    (cached : state.uservar.Cached call.login) : (state.answer call).2 = true := by
  rcases checklogin_cached auth cached call.srcIp call.randint with ⟨_, _, _, answered⟩
  rw [State.answer, answered]

theorem bounded_answer {auth : AuthRandom} {state : State} (sound : Sound auth state)
    (call : Call auth) : (state.answer call).1.cache.length ≤ auth.maxcache := by
  by_cases cached : state.uservar.Cached call.login
  · rcases checklogin_cached auth cached call.srcIp call.randint with ⟨_, _, _, answered⟩
    rw [State.answer, answered]
    exact sound.bounded
  · rw [State.answer, checklogin_uncached auth cached]
    simp only
    split
    · exact sound.bounded
    · exact length_attempt auth sound.bounded ..

/-! ## What a call keeps -/

theorem fits_accepted {auth : AuthRandom} {history : List Answered} {srcIp : Address}
    {ipinfo : IpInfo} {login : Login} (isMax : ipinfo.max.isSome) (stored : ipinfo.Stored login) :
    Fits auth (⟨login, srcIp, true⟩ :: history) srcIp ipinfo := by
  have last : lastLogin (⟨login, srcIp, true⟩ :: history) srcIp = some login := by simp
  refine ⟨isMax, ?_, ?_, ?_⟩
  · rw [last]
    exact stored.1
  · rw [last]
    exact stored.2
  · intro never
    rw [last] at never
    cases never

theorem fits_refused {auth : AuthRandom} {history : List Answered} {srcIp : Address}
    {ipinfo next : IpInfo} {login : Login} (fits : Fits auth history srcIp ipinfo)
    (isMax : next.max = ipinfo.max) (user : next.user = ipinfo.user) (pw : next.pw = ipinfo.pw)
    (counting : Counting auth (attempted history srcIp) ipinfo →
      Counting auth (login :: attempted history srcIp) next) :
    Fits auth (⟨login, srcIp, false⟩ :: history) srcIp next := by
  have last : lastLogin (⟨login, srcIp, false⟩ :: history) srcIp = lastLogin history srcIp := by simp
  have tried : attempted (⟨login, srcIp, false⟩ :: history) srcIp =
      login :: attempted history srcIp := by simp
  refine ⟨?_, ?_, ?_, ?_⟩
  · rw [isMax]
    exact fits.max
  · rw [last, user]
    exact fits.user
  · rw [last, pw]
    exact fits.pw
  · intro never
    rw [last] at never
    rw [tried]
    exact counting (fits.counting never)

theorem counting_repeated {auth : AuthRandom} {tried : List Login} {ipinfo : IpInfo} {login : Login}
    (counting : Counting auth tried ipinfo)
    (again : userpass login.1 login.2 ∈ ipinfo.combinations) :
    Counting auth (login :: tried) ipinfo := by
  refine ⟨counting.early, counting.length, counting.nodup, ?_⟩
  intro text
  rw [counting.same, List.exists_mem_cons_iff]
  constructor
  · exact .inr
  · intro found
    rcases found with same | found
    · exact (counting.same text).mp (same ▸ again)
    · exact found

theorem counting_failed {auth : AuthRandom} {tried : List Login} {ipinfo : IpInfo} {login : Login}
    {need : Nat} (counting : Counting auth tried ipinfo) (isNeed : ipinfo.max = some need)
    (new : userpass login.1 login.2 ∉ ipinfo.combinations) (early : ipinfo.attempts + 1 < need) :
    Counting auth (login :: tried)
      { ipinfo with
        tries := some (ipinfo.attempts + 1)
        tried := some (ipinfo.combinations ++ [userpass login.1 login.2]) } := by
  rcases counting.early with ⟨least, isLeast, enough, _⟩
  rw [isNeed, Option.some.injEq] at isLeast
  refine ⟨⟨need, isNeed, isLeast ▸ enough, early⟩, ?_, ?_, ?_⟩
  · change (ipinfo.combinations ++ [_]).length = ipinfo.attempts + 1
    rw [List.length_append, counting.length]
    rfl
  · change (ipinfo.combinations ++ [_]).Nodup
    rw [List.nodup_append]
    refine ⟨counting.nodup, List.nodup_singleton _, ?_⟩
    intro text member other isNew same
    rw [List.mem_singleton] at isNew
    rw [← isNew, ← same] at new
    exact new member
  · intro text
    change text ∈ ipinfo.combinations ++ [_] ↔ _
    rw [List.mem_append, counting.same, List.exists_mem_cons_iff, List.mem_singleton, or_comm,
      eq_comm]

theorem answer_fits {auth : AuthRandom} {state : State} (sound : Sound auth state)
    (call : Call auth) :
    ∃ ipinfo, (state.answer call).1.visitors =
        state.uservar.visitors.set call.srcIp ipinfo ∧
      Fits auth (⟨call.login, call.srcIp, (state.answer call).2⟩ :: state.history) call.srcIp
        ipinfo := by
  by_cases cached : state.uservar.Cached call.login
  · rcases checklogin_cached auth cached call.srcIp call.randint with
      ⟨ipinfo, isMax, stored, answered⟩
    rw [State.answer, answered]
    refine ⟨ipinfo, rfl, fits_accepted ?_ stored⟩
    rw [isMax]
    rfl
  · have fits := counted_fits sound call
    rcases Option.isSome_iff_exists.mp fits.max with ⟨need, isNeed⟩
    rw [State.answer, checklogin_uncached auth cached]
    simp only [isNeed, Option.getD_some]
    split
    · next again =>
      refine ⟨_, rfl, fits_refused fits rfl rfl rfl ?_⟩
      intro counting
      exact counting_repeated counting again
    · next new =>
      rw [attempt]
      split
      · next early =>
        refine ⟨_, rfl, fits_refused fits rfl rfl rfl ?_⟩
        intro counting
        exact counting_failed counting isNeed new early
      · split
        · refine ⟨_, rfl, fits_accepted ?_ ⟨rfl, rfl⟩⟩
          exact fits.max
        · next late due =>
          -- An address that is past its number has succeeded before.
          have never : ¬ Counting auth (attempted state.history call.srcIp)
              (state.uservar.counted call.srcIp call.randint) := by
            intro counting
            rcases counting.early with ⟨least, isLeast, _, few⟩
            rw [isNeed, Option.some.injEq] at isLeast
            omega
          split
          · exact ⟨_, rfl, fits_refused fits rfl rfl rfl fun counting => (never counting).elim⟩
          · exact ⟨_, rfl, fits_refused fits rfl rfl rfl fun counting => (never counting).elim⟩

theorem step_sound {auth : AuthRandom} {state next : State} {call : Call auth}
    (sound : Sound auth state) (taken : step auth state call = some next) : Sound auth next := by
  have isNext : next =
      { uservar := (state.answer call).1
        history := ⟨call.login, call.srcIp, (state.answer call).2⟩ :: state.history } :=
    (Option.some.inj taken).symm
  rw [isNext]
  rcases answer_fits sound call with ⟨ipinfo, visitors, fits⟩
  constructor
  · intro srcIp unknown
    rw [visitors, Dict.get?_set] at unknown
    split at unknown
    · cases unknown
    · next other =>
      rw [attempted_cons, if_neg (Ne.symm other)]
      exact sound.new srcIp unknown
  · intro srcIp known isKnown
    rw [visitors, Dict.get?_set] at isKnown
    split at isKnown
    · next same =>
      cases isKnown
      rw [same]
      exact fits
    · next other =>
      have old := sound.known srcIp known isKnown
      have last : lastLogin (⟨call.login, call.srcIp, (state.answer call).2⟩ :: state.history) srcIp =
          lastLogin state.history srcIp := by simp [Ne.symm other]
      have tried : attempted (⟨call.login, call.srcIp, (state.answer call).2⟩ :: state.history) srcIp =
          attempted state.history srcIp := by simp [Ne.symm other]
      refine ⟨old.max, ?_, ?_, ?_⟩
      · rw [last]
        exact old.user
      · rw [last]
        exact old.pw
      · rw [last, tried]
        exact old.counting
  · exact bounded_answer sound call

/-! ## The promise -/

theorem due_fillIn {ipinfo : IpInfo} (isMax : ipinfo.max.isSome) (randint : Nat) (login : Login) :
    (ipinfo.fillIn randint).Due login ↔ ipinfo.Due login := by
  rcases Option.isSome_iff_exists.mp isMax with ⟨need, isNeed⟩
  rw [IpInfo.Due, IpInfo.Due, isNeed, IpInfo.fillIn, isNeed]
  rfl

theorem earned_of_due {auth : AuthRandom} {tried : List Login} {ipinfo : IpInfo} {login : Login}
    (counting : Counting auth tried ipinfo) (due : ipinfo.Due login) :
    login ∉ tried ∧ auth.mintry ≤ tried.dedup.length + 1 := by
  constructor
  · intro member
    exact due.1 ((counting.same _).mpr ⟨login, member, rfl⟩)
  · rcases counting.early with ⟨need, isNeed, enough, _⟩
    rw [due.2, Option.some.injEq] at isNeed
    have covered : ipinfo.combinations ⊆
        tried.dedup.map fun login => userpass login.1 login.2 := by
      intro text member
      rcases (counting.same text).mp member with ⟨login, inTried, same⟩
      exact List.mem_map.mpr ⟨login, List.mem_dedup.mpr inTried, same⟩
    have fewer := (counting.nodup.subperm covered).length_le
    rw [counting.length, List.length_map] at fewer
    omega

theorem promised_iff_spared_of_sound {auth : AuthRandom} {state : State} (sound : Sound auth state)
    (call : Call auth) : Promised auth state call ↔ Spared state call := by
  have fits := counted_fits sound call
  constructor
  · intro promised ipinfo isKnown isUser uncached
    have known := sound.known call.srcIp ipinfo isKnown
    rw [stored_iff known, ← due_fillIn known.max call.randint]
    have counted : state.uservar.counted call.srcIp call.randint = ipinfo.fillIn call.randint := by
      rw [Uservar.counted, isKnown]
    rw [← counted, ← answer_uncached sound uncached]
    rw [known.user, Option.isSome_map] at isUser
    rcases Option.isSome_iff_exists.mp isUser with ⟨stored, isStored⟩
    constructor
    · exact promised.returns
    · intro accepted
      by_contra differs
      rw [isStored, Option.some.injEq] at differs
      rw [promised.refused stored isStored differs uncached] at accepted
      cases accepted
  · intro spared
    -- What the condition says of an address that succeeded before.
    have known : ∀ stored, lastLogin state.history call.srcIp = some stored →
        ¬ state.uservar.Cached call.login →
          (stored = call.login ↔ (state.answer call).2 = true) := by
      intro stored isStored uncached
      rw [answer_uncached sound uncached, Uservar.counted]
      cases isKnown : state.uservar.visitors.get? call.srcIp with
      | none =>
          have never := lastLogin_of_attempted (sound.new call.srcIp isKnown)
          rw [isStored] at never
          cases never
      | some ipinfo =>
          have old := sound.known call.srcIp ipinfo isKnown
          have isUser : ipinfo.user.isSome := by
            rw [old.user, isStored]
            rfl
          have same := spared ipinfo isKnown isUser uncached
          rw [stored_iff old, isStored, Option.some.injEq] at same
          rw [same, due_fillIn old.max]
    refine ⟨?_, ?_, ?_, bounded_answer sound call⟩
    · intro returns
      by_cases cached : state.uservar.Cached call.login
      · exact answer_cached cached
      · exact (known _ returns cached).mp rfl
    · intro stored isStored differs uncached
      rw [Ne, known stored isStored uncached, Bool.not_eq_true] at differs
      exact differs
    · intro never uncached accepted
      exact earned_of_due (fits.counting never) ((answer_uncached sound uncached).mp accepted)

theorem initial_sound (auth : AuthRandom) : Sound auth {} := by
  refine ⟨fun _ _ => rfl, ?_, Nat.zero_le _⟩
  intro srcIp ipinfo known
  cases known

/-- The promise is kept all along a run exactly if no call comes to an address whose counter
stands in its way. -/
theorem promised_iff_spared (auth : AuthRandom) (calls : List (Call auth)) :
    EventRun.Along (step auth) (Promised auth) {} calls ↔
      EventRun.Along (step auth) Spared {} calls :=
  EventRun.along_congr (Sound auth) step_sound
    (fun sound => promised_iff_spared_of_sound sound _) (initial_sound auth) calls

/-- In every run an address whose login is not cached gets in for the first time with a login that
is new, after enough different ones. -/
theorem first_success_earned (auth : AuthRandom) (calls : List (Call auth)) :
    EventRun.Along (step auth)
      (fun state call => lastLogin state.history call.srcIp = none →
        ¬ state.uservar.Cached call.login → (state.answer call).2 = true →
          call.login ∉ attempted state.history call.srcIp ∧
            auth.mintry ≤ (attempted state.history call.srcIp).dedup.length + 1) {} calls := by
  apply EventRun.along_of_invariant (Sound auth) step_sound
  · intro state call sound never uncached accepted
    have counting := (counted_fits sound call).counting never
    exact earned_of_due counting ((answer_uncached sound uncached).mp accepted)
  · exact initial_sound auth

def smallest : AuthRandom := init 1 1 1 (by decide) (by decide)

def smallestCall (user pass : String) (srcIp : String) (isAddress : srcIp.toList ≠ "cache".toList) :
    Call smallest where
  login := (Utf8.encode user.toList, Utf8.encode pass.toList)
  srcIp := ⟨srcIp.toList, isAddress⟩
  randint := 1
  mintry_le := by decide
  le_maxtry := by decide

def evictedCalls : List (Call smallest) :=
  [smallestCall "root" "a" "192.0.2.1" (by decide), smallestCall "root" "b" "192.0.2.2" (by decide),
    smallestCall "root" "a" "192.0.2.1" (by decide)]

theorem evicted_refused : ¬ EventRun.Along (step smallest) (Promised smallest) {} evictedCalls := by
  intro along
  have third := (along.2 _ rfl).2 _ rfl
  have accepted := third.1.returns (by decide +kernel)
  revert accepted
  decide +kernel

end AuthRandom

end Core

end LlmHoneypot
