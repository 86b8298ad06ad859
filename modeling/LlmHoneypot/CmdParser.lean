import LlmHoneypot.Foundation.Shlex

/-! # Mutations read off a command line

`cmd_parser.py`: what a line would change in the session's files, environment,
processes and user stack. -/

namespace LlmHoneypot

namespace CmdParser

inductive CmdMutation
  | createFile (path content : Str)
  | appendFile (path content : Str)
  | removeFile (path : Str)
  | moveFile (path dstPath : Str)
  | copyFile (path dstPath : Str)
  | setEnv (envName envValue : Str)
  | pushUser (user : Str)
  | popUser
  | addProcess (procCommand : Str)
  deriving DecidableEq, Repr

/-! ## Patterns

Each pattern is the match of the regular expression with the same name, on the
whole text. -/

/-- `(.*)$`: the text up to a newline that nothing follows. -/
def restOfLine (text : Str) : Option Str :=
  match text.dropWhile (· ≠ '\n') with
  | [] => some text
  | ['\n'] => some (text.takeWhile (· ≠ '\n'))
  | _ => none

/-- `^\s*verb\s+`: what follows the verb and the blanks after it. -/
def afterVerb (verb text : Str) : Option Str :=
  let text := Text.lstrip text
  if verb.isPrefixOf text then
    match text.drop verb.length with
    | ch :: rest => if Text.isSpace ch then some (Text.lstrip rest) else none
    | [] => none
  else none

def verbArgs (verb text : Str) : Option Str := (afterVerb verb text).bind restOfLine

/-- `\s*(\S+)\s*$`. -/
def lastWord (text : Str) : Option Str :=
  let text := Text.lstrip text
  let word := Text.firstWord text
  if word ≠ [] ∧ (text.drop word.length).all Text.isSpace then some word else none

/-- `\s*(>>?)\s*(\S+)\s*$`; the flag says that the operator is `>>`. -/
def redirectAt (text : Str) : Option (Bool × Str) :=
  match Text.lstrip text with
  | '>' :: rest =>
      let overwrite := (lastWord rest).map (false, ·)
      match rest with
      | '>' :: rest => ((lastWord rest).map (true, ·)).or overwrite
      | _ => overwrite
  | _ => none

/-- `(.*?)` before a redirection: the shortest content that one follows. -/
def contentThenRedirect (content : Str) (text : Str) : Option (Str × Bool × Str) :=
  match redirectAt text, text with
  | some redirect, _ => some (content, redirect)
  | none, [] => none
  | none, ch :: rest =>
      if ch = '\n' then none else contentThenRedirect (content ++ [ch]) rest

def echoRedirect (text : Str) : Option (Str × Bool × Str) :=
  (afterVerb "echo".toList text).bind (contentThenRedirect [])

def isNameStart (ch : Char) : Bool := ch.isAlpha || ch == '_'

def isNameChar (ch : Char) : Bool := ch.isAlphanum || ch == '_'

def bareAssign (text : Str) : Option (Str × Str) :=
  let text := Text.lstrip text
  let name := text.takeWhile isNameChar
  match name, text.drop name.length with
  | ch :: _, '=' :: value =>
      if isNameStart ch then (restOfLine value).map (name, ·) else none
  | _, _ => none

def exportAssign (text : Str) : Option Str :=
  (afterVerb "export".toList text).bind fun assign =>
    if '=' ∈ (Text.firstWord assign).drop 1 then restOfLine assign else none

/-! ## Parsing -/

def stripQuotes (text : Str) : Str :=
  match Shlex.split text with
  | some [part] => part
  | some parts => Text.join " ".toList parts
  | none => text

def SEPARATORS : List Str :=
  [";".toList, "&&".toList, "||".toList, "|".toList, "\n".toList]

def splitFirstCommand (line : Str) : Str :=
  Text.beforeFirstOf SEPARATORS line

def tokens (args : Str) : List Str := (Shlex.split args).getD (Text.words args)

def isFlag (token : Str) : Bool := "-".toList.isPrefixOf token

def parseBackground (line : Str) : Option CmdMutation :=
  let stripped := Text.rstrip line
  if ¬ "&".toList.isSuffixOf stripped ∨ "&&".toList.isSuffixOf stripped then none
  else
    let cmd := Text.strip stripped.dropLast
    let nohup := "nohup ".toList
    let cmd := if nohup.isPrefixOf cmd then Text.strip (cmd.drop nohup.length) else cmd
    if cmd = [] then none else some (.addProcess cmd)

def suTarget (fallback : Str) (args : List Str) : Str :=
  (args.find? (!isFlag ·)).getD fallback

/-- The loop over the words after `sudo`: the target user and whether a shell
is started as that user. -/
def sudoTarget : (target : Str) → (becomesShell : Bool) → List Str → Str × Bool
  | target, becomesShell, [] => (target, becomesShell)
  | target, becomesShell, [arg] =>
      if arg = "-i".toList ∨ arg = "--login".toList ∨ arg = "-s".toList ∨
          arg = "--shell".toList then (target, true)
      else if isFlag arg then (target, becomesShell)
      else (target, becomesShell || arg = "su".toList)
  | target, becomesShell, arg :: next :: rest =>
      if arg = "-u".toList ∨ arg = "--user".toList then
        sudoTarget next becomesShell rest
      else if arg = "-i".toList ∨ arg = "--login".toList ∨ arg = "-s".toList ∨
          arg = "--shell".toList then sudoTarget target true (next :: rest)
      else if isFlag arg then sudoTarget target becomesShell (next :: rest)
      else if arg = "su".toList then (suTarget target (next :: rest), true)
      else (target, becomesShell)

def parseUserSwitch (head : Str) : Option CmdMutation :=
  match Shlex.split head with
  | none => none
  | some [] => none
  | some (command :: args) =>
      if command = "su".toList then some (.pushUser (suTarget "root".toList args))
      else if command = "sudo".toList then
        match sudoTarget "root".toList false args with
        | (target, true) => some (.pushUser target)
        | (_, false) => none
      else none

def sourceAndTarget (args : Str) : Option (Str × Str) :=
  match (tokens args).filter (!isFlag ·) with
  | first :: second :: rest => some (first, (second :: rest).getLast (by simp))
  | _ => none

def assignment (assign : Str × Str) : CmdMutation :=
  .setEnv assign.1 (stripQuotes assign.2)

/-- The patterns are tried in the source's order and the first match decides. -/
def parseInputMutations (line : Str) : List CmdMutation :=
  match parseBackground line with
  | some background => [background]
  | none =>
    let head := Text.strip (splitFirstCommand line)
    if head = [] then []
    else match parseUserSwitch head with
    | some switch => [switch]
    | none =>
    match echoRedirect head with
    | some (content, append, path) =>
        let path := Text.stripWhere (fun ch => ch == '\'' || ch == '"') path
        if append then [.appendFile path (stripQuotes content)]
        else [.createFile path (stripQuotes content)]
    | none =>
    match verbArgs "touch".toList head with
    | some args => ((tokens args).filter (!isFlag ·)).map (.createFile · [])
    | none =>
    match verbArgs "rm".toList head with
    | some args => ((tokens args).filter (!isFlag ·)).map .removeFile
    | none =>
    match verbArgs "cp".toList head with
    | some args => (sourceAndTarget args).toList.map fun (path, dst) => .copyFile path dst
    | none =>
    match verbArgs "mv".toList head with
    | some args => (sourceAndTarget args).toList.map fun (path, dst) => .moveFile path dst
    | none =>
    match exportAssign head with
    | some assign => (bareAssign assign).toList.map assignment
    | none =>
        if (Text.words head).length = 1 then (bareAssign head).toList.map assignment
        else []

example : parseInputMutations "su postgres ; ls".toList =
    [.pushUser "postgres".toList] := by decide

end CmdParser

end LlmHoneypot
