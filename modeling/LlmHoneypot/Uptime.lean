import LlmHoneypot.Memory

/-! # Uptime

The boot time that `persona.py` rolls for a session, and the uptime that `responder.py` and the
system prompt tell of it. Times are seconds, and fractions of them. -/

namespace LlmHoneypot

namespace Uptime

open Memory (intText)

/-! ## Sessions -/

structure Persona where
  slug : Str
  distro : Str
  kernel : Str
  unameM : Str
  bashVersion : Str
  cpuinfoModel : Str
  memtotalKb : Nat
  uptimeDaysRange : Nat × Nat
  installedPackages : List Str := []
  ncpus : Nat := 1

structure Random where
  first : Str → Nat × Nat → Nat
  second : Str → Nat × Nat → Nat × Nat → Nat

structure Setup where
  firstPersona : Persona
  otherPersonas : List Persona
  digest : Str → Nat
  override : Str
  random : Random

namespace Setup

def personas (setup : Setup) : List Persona := setup.firstPersona :: setup.otherPersonas

/-- `none` for the `ValueError`. -/
def pickPersona (setup : Setup) (seed : Str) : Option Persona :=
  if setup.override ≠ [] ∧ setup.override ≠ "auto".toList then
    setup.personas.find? fun persona => persona.slug = setup.override
  else setup.personas[setup.digest seed % setup.personas.length]?

def rolledAge (setup : Setup) (persona : Persona) (seed : Str) : Nat :=
  let text := seed ++ '|' :: persona.slug
  let days := setup.random.first text persona.uptimeDaysRange
  let extra := setup.random.second text persona.uptimeDaysRange (0, 86399)
  days * 86400 + extra

def rollBootTime (setup : Setup) (persona : Persona) (seed : Str) (now : ℚ) : ℚ :=
  now - setup.rolledAge persona seed

end Setup

structure Session where
  persona : Persona
  bootTime : ℚ

def Setup.connect (setup : Setup) (realClientIP : Str) (now : ℚ) : Session :=
  let persona := (setup.pickPersona realClientIP).getD setup.firstPersona
  { persona, bootTime := setup.rollBootTime persona realClientIP now }

/-! ## Renderers -/

structure Parts where
  days : Int
  hrs : Int
  mins : Int
  deriving DecidableEq, Repr

def upSeconds (bootTime now : ℚ) : Int := max 0 ⌊now - bootTime⌋

def uptimeParts (bootTime now : ℚ) : Int × Parts :=
  let up := upSeconds bootTime now
  (up, ⟨up / 86400, up % 86400 / 3600, up % 3600 / 60⟩)

def twoDigits (number : Int) : Str :=
  List.replicate (2 - (intText number).length) '0' ++ intText number

def hoursAndMinutes (parts : Parts) : Str := twoDigits parts.hrs ++ (':' :: twoDigits parts.mins)

def uptimeUp (parts : Parts) : Str :=
  if 0 < parts.days then
    intText parts.days ++ " day".toList ++ (if parts.days ≠ 1 then "s".toList else []) ++
      ", ".toList ++ hoursAndMinutes parts
  else hoursAndMinutes parts

def wUp (parts : Parts) : Str :=
  if parts.days ≠ 0 then
    intText parts.days ++ " day".toList ++ (if parts.days ≠ 1 then "s".toList else []) ++
      ", ".toList ++ hoursAndMinutes parts
  else hoursAndMinutes parts

def topUp (parts : Parts) : Str :=
  if parts.days ≠ 0 then intText parts.days ++ " days, ".toList ++ hoursAndMinutes parts
  else hoursAndMinutes parts

/-- What else the renderers show: the time of the day, the load and the user, and the products of
floats that `/proc/uptime` has behind the seconds. -/
structure Context where
  clock : ℚ → Str
  hundredths : ℚ → Str
  idle : Int → Nat → Str
  load : Str
  loginUser : Str
  clientIp : Str
  serverIp : Str

def hUptime (context : Context) (session : Session) (now : ℚ) : Str :=
  let parts := (uptimeParts session.bootTime now).2
  ' ' :: context.clock now ++ " up ".toList ++ uptimeUp parts ++ ",  1 user".toList ++
    (",  load average: ".toList ++ context.load ++ "\n".toList)

def padRight (width : Nat) (text : Str) : Str := text ++ List.replicate (width - text.length) ' '

def hW (context : Context) (session : Session) (now : ℚ) : Str :=
  let parts := (uptimeParts session.bootTime now).2
  let src :=
    if context.clientIp ≠ [] then context.clientIp
    else if context.serverIp ≠ [] then context.serverIp
    else "10.0.0.1".toList
  ' ' :: context.clock now ++ " up ".toList ++ wUp parts ++ ",  1 user".toList ++
    (",  load average: ".toList ++ context.load ++ "\n".toList ++
      "USER     TTY      FROM             LOGIN@   IDLE   JCPU   PCPU WHAT\n".toList ++
      padRight 8 context.loginUser ++ " pts/0    ".toList ++ padRight 15 src ++ "  ".toList ++
      context.clock now ++ "    0.00s  0.04s  0.00s w\n".toList)

def topHead (context : Context) (session : Session) (now : ℚ) : Str :=
  let parts := (uptimeParts session.bootTime now).2
  "top - ".toList ++ context.clock now ++ " up ".toList ++ topUp parts ++ ",  1 user".toList ++
    (",  load average: ".toList ++ context.load)

def procUptime (context : Context) (session : Session) (now : ℚ) : Str :=
  let up := (uptimeParts session.bootTime now).1
  let idle := context.idle up (max 1 session.persona.ncpus)
  intText up ++ ('.' :: (context.hundredths now ++ (' ' :: idle) ++ "\n".toList))

def renderPromptSection (session : Session) (now : ℚ) : Str :=
  let persona := session.persona
  let uptimeS := max 0 ⌊now - session.bootTime⌋
  let uptimeDays := uptimeS / 86400
  let uptimeHrs := uptimeS % 86400 / 3600
  let uptimeMins := uptimeS % 3600 / 60
  let pkgs := Text.join ", ".toList (persona.installedPackages.take 12)
  let bashLine :=
    if persona.bashVersion = [] then []
    else "bash version: ".toList ++ persona.bashVersion ++ "\n".toList
  "Pinned system facts (must remain consistent across commands):\n".toList ++
    "distro: ".toList ++ persona.distro ++ "\nkernel: ".toList ++ persona.kernel ++
    "\narchitecture: ".toList ++ persona.unameM ++ "\n".toList ++ bashLine ++
    "cpu model: ".toList ++ persona.cpuinfoModel ++ "\nmemtotal: ".toList ++
    Text.decimal persona.memtotalKb ++ " kB".toList ++ "\nuptime: ".toList ++ intText uptimeDays ++
    " days, ".toList ++ (twoDigits uptimeHrs ++ (':' :: twoDigits uptimeMins)) ++ "\n".toList ++
    ("installed packages (truncated): ".toList ++ pkgs)

/-! ## One clock -/

def Session.uptime (session : Session) (now : ℚ) : ℚ := now - session.bootTime

structure Parts.Of (parts : Parts) (seconds : Int) : Prop where
  sum : (parts.days * 86400 + parts.hrs * 3600 + parts.mins * 60) ≤ seconds
  minute : seconds < parts.days * 86400 + parts.hrs * 3600 + parts.mins * 60 + 60
  hrs : 0 ≤ parts.hrs ∧ parts.hrs < 24
  mins : 0 ≤ parts.mins ∧ parts.mins < 60

/-- The five renderers tell the same days, hours and minutes. -/
structure Told (context : Context) (session : Session) (now : ℚ) (seconds : Int) (parts : Parts) :
    Prop where
  of : parts.Of seconds
  uptime : ∃ front behind, hUptime context session now =
    front ++ " up ".toList ++ uptimeUp parts ++ ",  1 user".toList ++ behind
  w : ∃ front behind, hW context session now =
    front ++ " up ".toList ++ wUp parts ++ ",  1 user".toList ++ behind
  top : ∃ front behind, topHead context session now =
    front ++ " up ".toList ++ topUp parts ++ ",  1 user".toList ++ behind
  proc : ∃ behind, procUptime context session now = intText seconds ++ ('.' :: behind)
  prompt : ∃ front behind, renderPromptSection session now =
    front ++ "\nuptime: ".toList ++ intText parts.days ++ " days, ".toList ++
      hoursAndMinutes parts ++ "\n".toList ++ behind

theorem parts_of (seconds : Int) :
    Parts.Of ⟨seconds / 86400, seconds % 86400 / 3600, seconds % 3600 / 60⟩ seconds := by
  constructor
  · dsimp only
    omega
  · dsimp only
    omega
  · dsimp only
    omega
  · dsimp only
    omega

theorem told (context : Context) (session : Session) (now : ℚ) :
    Told context session now (upSeconds session.bootTime now)
      (uptimeParts session.bootTime now).2 where
  of := parts_of _
  uptime := ⟨' ' :: context.clock now, _, rfl⟩
  w := ⟨' ' :: context.clock now, _, rfl⟩
  top := ⟨"top - ".toList ++ context.clock now, _, rfl⟩
  proc := ⟨_, rfl⟩
  prompt := ⟨_, _, rfl⟩

theorem upSeconds_nonneg (bootTime now : ℚ) : 0 ≤ upSeconds bootTime now := le_max_left _ _

theorem wUp_eq {parts : Parts} (nonneg : 0 ≤ parts.days) : wUp parts = uptimeUp parts := by
  rw [wUp, uptimeUp]
  by_cases started : parts.days = 0
  · rw [if_neg (not_not.mpr started), if_neg (show ¬ 0 < parts.days by omega)]
  · rw [if_pos started, if_pos (show 0 < parts.days by omega)]

theorem topUp_eq {parts : Parts} (nonneg : 0 ≤ parts.days) (notSecond : parts.days ≠ 1) :
    topUp parts = uptimeUp parts := by
  rw [topUp, uptimeUp]
  by_cases started : parts.days = 0
  · rw [if_neg (not_not.mpr started), if_neg (show ¬ 0 < parts.days by omega)]
  · rw [if_pos started, if_pos (show 0 < parts.days by omega), if_pos notSecond]
    simp only [List.append_assoc]
    rfl

variable (setup : Setup) (realClientIP : Str)

theorem connect_uptime (opened now : ℚ) :
    (setup.connect realClientIP opened).uptime now = now - opened +
      setup.rolledAge (setup.connect realClientIP opened).persona realClientIP := by
  rw [Session.uptime, Setup.connect, Setup.rollBootTime]
  ring

theorem upSeconds_eq {opened now : ℚ} (later : opened ≤ now) :
    upSeconds (setup.connect realClientIP opened).bootTime now =
      ⌊(setup.connect realClientIP opened).uptime now⌋ := by
  apply max_eq_right
  apply Int.floor_nonneg.mpr
  rw [← Session.uptime, connect_uptime]
  exact add_nonneg (sub_nonneg.mpr later) (Nat.cast_nonneg _)

/-- In two sessions from one address the uptimes differ by the time between the observations, less
the time between the openings; at any moment the renderers tell the same uptime, `uptime` and `w`
in the same words, and `top` too but for the second day. -/
theorem one_clock :
    (∀ opened opened' now now' : ℚ,
      (setup.connect realClientIP opened').uptime now' -
        (setup.connect realClientIP opened).uptime now = now' - now - (opened' - opened)) ∧
    (∀ opened now : ℚ, opened ≤ now → ∀ seconds : Nat,
      upSeconds (setup.connect realClientIP opened).bootTime (now + seconds) =
        upSeconds (setup.connect realClientIP opened).bootTime now + seconds) ∧
    ∀ (context : Context) (opened now : ℚ), ∃ parts,
      Told context (setup.connect realClientIP opened) now
        (upSeconds (setup.connect realClientIP opened).bootTime now) parts ∧
      wUp parts = uptimeUp parts ∧ (parts.days ≠ 1 → topUp parts = uptimeUp parts) := by
  refine ⟨?_, ?_, ?_⟩
  · intro opened opened' now now'
    have samePersona : (setup.connect realClientIP opened').persona =
        (setup.connect realClientIP opened).persona := rfl
    rw [connect_uptime, connect_uptime, samePersona]
    ring
  · intro opened now later seconds
    have later' : opened ≤ now + seconds := later.trans (le_add_of_nonneg_right (Nat.cast_nonneg _))
    rw [upSeconds_eq _ _ later, upSeconds_eq _ _ later', connect_uptime, connect_uptime,
      ← Int.floor_add_natCast]
    apply congrArg
    ring
  · intro context opened now
    refine ⟨_, told context _ now, ?_, ?_⟩
    · apply wUp_eq
      exact Int.ediv_nonneg (upSeconds_nonneg _ _) (by decide)
    · intro notSecond
      apply topUp_eq _ notSecond
      exact Int.ediv_nonneg (upSeconds_nonneg _ _) (by decide)

def sampleSetup : Setup where
  firstPersona := {
    slug := "min".toList, distro := [], kernel := [], unameM := [], bashVersion := []
    cpuinfoModel := [], memtotalKb := 0, uptimeDaysRange := (1, 1) }
  otherPersonas := []
  digest := fun _ => 0
  override := []
  random := { first := fun _ range => range.1, second := fun _ _ range => range.1 }

theorem sample_seconds : upSeconds (sampleSetup.connect [] 0).bootTime 172800 = 259200 := by
  have age : (sampleSetup.rolledAge (sampleSetup.connect [] 0).persona [] : ℚ) = 86400 := by
    have rolled : sampleSetup.rolledAge (sampleSetup.connect [] 0).persona [] = 86400 := by decide
    rw [rolled]
    norm_num
  have sum : (172800 : ℚ) - 0 + 86400 = (259200 : Int) := by norm_num
  rw [upSeconds_eq _ _ (by norm_num), connect_uptime, age, sum, Int.floor_intCast]

theorem one_clock_sample :
    upSeconds (sampleSetup.connect [] 0).bootTime (0 + (60 : Nat)) =
        upSeconds (sampleSetup.connect [] 0).bootTime 0 + (60 : Nat) ∧
      ∃ parts, Told ⟨fun _ => [], fun _ => [], fun _ _ => [], [], [], [], []⟩
          (sampleSetup.connect [] 0) 172800
          (upSeconds (sampleSetup.connect [] 0).bootTime 172800) parts ∧
        topUp parts = uptimeUp parts := by
  refine ⟨(one_clock sampleSetup []).2.1 0 0 le_rfl 60, ?_⟩
  rcases (one_clock sampleSetup []).2.2 ⟨fun _ => [], fun _ => [], fun _ _ => [], [], [], [], []⟩ 0
    172800 with ⟨parts, isTold, -, sameText⟩
  refine ⟨parts, isTold, sameText ?_⟩
  rcases sample_seconds ▸ isTold.of with ⟨sum, minute, hrs, mins⟩
  omega

/-- A machine that is asked again in a new session is no older, and on its second day `top` has
`1 days`. -/
theorem clock_differs :
    (¬ ∀ (setup : Setup) (realClientIP : Str) (opened opened' now now' : ℚ), now ≤ now' →
        (setup.connect realClientIP opened').uptime now' -
          (setup.connect realClientIP opened).uptime now = now' - now) ∧
      ¬ ∀ (session : Session) (now : ℚ), topUp (uptimeParts session.bootTime now).2 =
        uptimeUp (uptimeParts session.bootTime now).2 := by
  constructor
  · intro all
    have same := all sampleSetup [] 0 60 0 60 (by norm_num)
    have samePersona : (sampleSetup.connect [] 60).persona = (sampleSetup.connect [] 0).persona :=
      rfl
    rw [connect_uptime, connect_uptime, samePersona] at same
    linarith
  · intro all
    have same := all ⟨sampleSetup.firstPersona, 0⟩ 86400
    have seconds : upSeconds 0 86400 = 86400 := by
      have whole : (86400 : ℚ) - 0 = (86400 : Int) := by norm_num
      rw [upSeconds, whole, Int.floor_intCast]
      rfl
    have parts : (uptimeParts 0 86400).2 = ⟨1, 0, 0⟩ := by
      rw [uptimeParts, seconds]
      rfl
    rw [parts] at same
    exact absurd same (by decide)

end Uptime

end LlmHoneypot
