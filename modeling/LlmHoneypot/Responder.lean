import LlmHoneypot.PipeFilters
import LlmHoneypot.WorldState

/-! # Deterministic responder

`responder.py`: which command lines are answered from local state, and how a
line reaches the renderer of its command. -/

namespace LlmHoneypot

namespace Responder

/-- What the renderers read of a live session. -/
structure ShellContext where
  world : WorldState
  cwd : Str
  loginUser : Str
  hostname : Str
  now : Nat
  /-- Standard output feeds a pipe. -/
  piped : Bool := false

def ShellContext.user (ctx : ShellContext) : Str := ctx.world.effectiveUser ctx.loginUser

structure ResponderResult where
  output : Str := []
  isError : Bool := false
  deriving DecidableEq, Repr

/-- A renderer: arguments, context and effective user. `none` stands for a
returned `None` and for an exception, which `respond` turns into `None`. -/
abbrev Handler := List Str → ShellContext → Str → Option ResponderResult

def METACHARS : List Str :=
  [">".toList, "<".toList, ";".toList, "&&".toList, "||".toList, "$(".toList,
    "`".toList, "\n".toList]

def DISPATCH : List Str :=
  ["whoami", "id", "groups", "hostname", "uname", "arch", "nproc", "free", "uptime",
    "cat", "lsb_release", "lscpu", "ps", "env", "printenv", "echo", "date", "which",
    "command", "w", "top", "ping", "vmstat", "df", "mount", "ss", "netstat", "crontab",
    "ls", "stat"].map String.toList

/-- The renderers and filters behind the two dispatch tables. -/
structure Tables where
  handler : Str → Handler
  filter : Str → PipeFilters.Filter

def sudoFlags : (target : Str) → List Str → List Str × Str
  | target, [] => ([], target)
  | target, [arg] => if "-".toList.isPrefixOf arg then ([], target) else ([arg], target)
  | target, arg :: next :: rest =>
      if ¬ "-".toList.isPrefixOf arg then (arg :: next :: rest, target)
      else if arg = "-u".toList ∨ arg = "--user".toList then sudoFlags next rest
      else sudoFlags target (next :: rest)

/-- The command under a leading `sudo` and the user it runs as, `none` for a
`sudo` without a command. -/
def peelSudo : List Str → Option (List Str × Option Str)
  | [] => some ([], none)
  | command :: args =>
      if command = "sudo".toList then
        match sudoFlags "root".toList args with
        | ([], _) => none
        | (inner, target) => some (inner, some target)
      else some (command :: args, none)

def respondSimple (tables : Tables) (raw : Str) (ctx : ShellContext) :
    Option ResponderResult :=
  if METACHARS.any (Text.contains · raw) then none
  else
    match Shlex.split raw with
    | none => none
    | some argv =>
        match peelSudo argv with
        | none => none
        | some ([], _) => none
        | some (command :: args, override) =>
            -- An empty `-u` target counts as no override.
            let user :=
              match override with
              | some user => if user = [] then ctx.user else user
              | none => ctx.user
            if command ∈ DISPATCH then tables.handler command args ctx user else none

/-- The line as `respond` answers it; `none` defers to the model. -/
def respond (tables : Tables) (pipesEnabled : Bool) (command : Str) (ctx : ShellContext) :
    Option ResponderResult :=
  let raw := Text.strip command
  if raw = [] then none
  else if "&".toList.isSuffixOf raw ∧ ¬ "&&".toList.isSuffixOf raw then none
  else
    match PipeFilters.splitPipeline raw with
    | none => none
    | some [] => none
    | some [_] => respondSimple tables raw ctx
    | some (first :: stages) =>
        if pipesEnabled then
          match respondSimple tables first { ctx with piped := true } with
          | none => none
          | some result =>
              if result.isError then none
              else
                (PipeFilters.applyFilters tables.filter result.output stages).map
                  fun text => { output := text }
        else none

theorem respondSimple_unknown {tables : Tables} {raw command : Str} {args : List Str}
    {ctx : ShellContext} (words : Shlex.split raw = some (command :: args))
    (notSudo : command ≠ "sudo".toList) (unknown : command ∉ DISPATCH) :
    respondSimple tables raw ctx = none := by
  simp only [respondSimple, words]
  split
  · rfl
  · simp only [peelSudo, if_neg notSudo, if_neg unknown]

def homeFor (user : Str) : Str :=
  if user = "root".toList then "/root".toList else "/home/".toList ++ user

/-- A possibly relative path against the session's directory. -/
def resolvePath (arg : Str) (ctx : ShellContext) : Str :=
  if arg = [] ∨ arg = ".".toList then ctx.cwd
  else if arg = "~".toList then homeFor ctx.user
  else if "~/".toList.isPrefixOf arg then homeFor ctx.user ++ arg.drop 1
  else if "/".toList.isPrefixOf arg then arg
  else ctx.cwd.rdropWhile (· = '/') ++ '/' :: arg

end Responder

end LlmHoneypot
