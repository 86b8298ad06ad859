import LlmHoneypot.Foundation.Dict
import LlmHoneypot.Foundation.Text

/-! # Shadow state of a session

`worldstate.py`: the facts a session has established, which later answers must
repeat. -/

namespace LlmHoneypot

inductive FileSource
  | downloaded
  | created
  | edited
  deriving DecidableEq, Repr

structure FileFact where
  path : Str
  sizeBytes : Nat
  sha256 : Option Str
  mtime : Nat
  source : FileSource
  sourceUrl : Option Str
  contentSnippet : Option Str
  deriving DecidableEq, Repr

structure ProcessFact where
  pid : Nat
  command : Str
  user : Str
  startedAt : Nat
  deriving DecidableEq, Repr

inductive ClaimSource
  | deterministic
  | llm
  deriving DecidableEq, Repr

structure ClaimFact where
  key : Str
  excerpt : Str
  turn : Nat
  source : ClaimSource
  command : Str
  deriving DecidableEq, Repr

structure WorldState where
  files : Dict Str FileFact := .empty
  envVars : Dict Str Str := .empty
  processes : Dict Nat ProcessFact := .empty
  toldFacts : Dict Str ClaimFact := .empty
  bgPids : List Nat := []
  /-- Effective users pushed by su and sudo; the last one is in effect. -/
  userStack : List Str := []
  nextPid : Nat := 17000
  maxFactsInPrompt : Int := 12
  deriving DecidableEq

namespace WorldState

def MAX_FACT_EXCERPT : Nat := 200

def recordClaim (world : WorldState) (key excerpt : Str) (turn : Nat)
    (source : ClaimSource) (command : Str) : WorldState :=
  if key = [] ∨ excerpt = [] then world
  else
    let text := Text.strip excerpt
    let text :=
      if MAX_FACT_EXCERPT < text.length then text.take MAX_FACT_EXCERPT ++ ['…']
      else text
    { world with toldFacts := world.toldFacts.set key ⟨key, text, turn, source, command⟩ }

def addFile (world : WorldState) (path : Str) (sizeBytes : Nat) (sha256 : Option Str)
    (mtime : Nat) (source : FileSource) (sourceUrl : Option Str)
    (contentSnippet : Option Str) : WorldState :=
  if path = [] then world
  else
    { world with
      files := world.files.set path
        ⟨path, sizeBytes, sha256, mtime, source, sourceUrl, contentSnippet⟩ }

def popFile (world : WorldState) (path : Str) : WorldState :=
  { world with files := world.files.erase path }

def addEnv (world : WorldState) (name value : Str) : WorldState :=
  if name = [] then world else { world with envVars := world.envVars.set name value }

def addProcess (world : WorldState) (command user : Str) (now : Nat) : WorldState :=
  let command := Text.strip command
  if command = [] then world
  else
    let pid := world.nextPid
    { world with
      nextPid := pid + 1
      processes := world.processes.set pid ⟨pid, command, user, now⟩
      bgPids := if pid ∈ world.bgPids then world.bgPids else world.bgPids ++ [pid] }

def pushUser (world : WorldState) (user : Str) : WorldState :=
  if user = [] then world else { world with userStack := world.userStack ++ [user] }

def popUser (world : WorldState) : WorldState :=
  { world with userStack := world.userStack.dropLast }

def effectiveUser (world : WorldState) (loginUser : Str) : Str :=
  world.userStack.getLast?.getD loginUser

end WorldState

end LlmHoneypot
