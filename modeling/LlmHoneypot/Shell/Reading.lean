import LlmHoneypot.Shell.Machine

/-! # Reading command lines

`HoneyPotShell.lineReceived`: the tokens of a line become pending commands; subshells
and substitutions are executed while the line is read. -/

namespace LlmHoneypot

namespace Shell

variable {World : Type}

def WORDCHARS : List Char := "@%\x7b\x7d=$:+^,()`".toList

def getToken (lexer : Str) : Option (Option Str × Str) := ShellLexer.getToken WORDCHARS lexer

def isNameChar (ch : Char) : Bool :=
  ch = '_' || ch.isDigit || ('a' ≤ ch && ch ≤ 'z') || ('A' ≤ ch && ch ≤ 'Z')

def beforeFinalNewline (text : Str) : Str :=
  if text.getLast? = some '\n' then text.dropLast else text

def braceName (token : Str) : Option Str :=
  match beforeFinalNewline token with
  | '$' :: '{' :: rest =>
      let name := rest.dropLast
      if rest.getLast? = some '}' ∧ name ≠ [] ∧ name.all isNameChar then some name else none
  | _ => none

def simpleName (token : Str) : Option Str :=
  match beforeFinalNewline token with
  | '$' :: name => if name ≠ [] ∧ name.all isNameChar then some name else none
  | _ => none

/-- A token that may be a variable: its value, `none` where the token is dropped. -/
def expand (environ : Environ) (name : Option Str) (token : Str) : Option Str :=
  match name with
  | none => some token
  | some name => environ.get? name

/-- How `do_command_substitution` begins: what stands before the substitution, and the
search for its end. -/
def beginSubstitution (startTok : Str) : Option (Str × Search) :=
  if startTok.head? = some '(' then some ([], { cmdExpr := startTok, pos := 1 })
  else
    match Text.before? "$(".toList startTok, Text.before? "`".toList startTok with
    | some result, _ =>
        some (result, { cmdExpr := startTok.drop result.length, pos := 2 })
    | none, some result =>
        some (result, { cmdExpr := startTok.drop result.length, pos := 1 })
    | none, none => none

inductive Reaction
  | collect (token : Str)
  | drop
  /-- The tokens so far are a command. -/
  | finishCommand
  /-- `&&` or `||` without a command, or a parenthesis inside one: the rest of the line
  is given up. -/
  | refuse (message : Str)
  | collectSubshell
  | searchSubshell (search : Search)
  | substitute (result : Str) (search : Search)
  deriving DecidableEq, Repr

def unexpected (token : Str) (ending : String) : Str :=
  "-bash: syntax error near unexpected token `".toList ++ token ++ ending.toList

def react (environ : Environ) (tokens : List Str) (tok : Str) : Reaction :=
  if tok = "&&".toList ∨ tok = "||".toList then
    if tokens = [] then .refuse (unexpected tok "'\n") else .finishCommand
  else if tok = ";".toList then .finishCommand
  else if tok = "$?".toList then .collect "0".toList
  else if tok.head? = some '(' then
    -- The second message ends in a backslash and an `n`, as the source has it.
    if tokens ≠ [] then .refuse (unexpected tok "'\\n")
    else if tok = "(".toList then .collectSubshell
    else .searchSubshell { cmdExpr := tok, pos := 1 }
  else if Text.contains "$(".toList tok ∨ Text.contains "`".toList tok then
    match beginSubstitution tok with
    | some (result, search) => .substitute result search
    | none => .collect tok
  else if "$\x7b".toList.isPrefixOf tok then
    ((expand environ (braceName tok) tok).map .collect).getD .drop
  else if "$".toList.isPrefixOf tok then
    ((expand environ (simpleName tok) tok).map .collect).getD .drop
  else .collect tok

def Session.addPending (shell : Nat) (tokens : List Str) (session : Session World) :
    Session World :=
  if tokens = [] then session
  else session.setPending shell ((session.shell shell).cmdpending ++ [tokens])

def finishReading (shell : Nat) (agenda : List (Task World)) (session : Session World) :
    Machine World :=
  let merged := (session.shell shell).cmdpending.map CommandParser.mergeRedirectionTokens
  { session := session.setPending shell merged, agenda := .runOrPrompt shell :: agenda }

def readTokens (env : Env World) (reading : Reading) (agenda : List (Task World))
    (session : Session World) : Machine World :=
  let shell := reading.shell
  match getToken reading.lexer with
  | none => unwind env session (.readTokens reading :: agenda)
  | some (none, _) => finishReading shell agenda (session.addPending shell reading.tokens)
  | some (some tok, lexer) =>
      let reading := { reading with lexer }
      match react (session.shell shell).environ reading.tokens tok with
      | .collect token =>
          { session
            agenda := .readTokens { reading with tokens := reading.tokens ++ [token] } :: agenda }
      | .drop => { session, agenda := .readTokens reading :: agenda }
      | .finishCommand =>
          { session := session.addPending shell reading.tokens
            agenda := .readTokens { reading with tokens := [] } :: agenda }
      | .refuse message => finishReading shell agenda (session.print message)
      | .collectSubshell => { session, agenda := .collectSubshell reading [] 1 0 :: agenda }
      | .searchSubshell search => { session, agenda := .searchSubshell reading search :: agenda }
      | .substitute result search =>
          { session, agenda := .substitute reading result search :: agenda }

def runSubshellCommand (cmdExpr : Str) : Subshell :=
  { lexer :=
      if "$(".toList.isPrefixOf cmdExpr then (cmdExpr.drop 2).dropLast
      else (cmdExpr.drop 1).dropLast }

def collectSubshell (env : Env World) (reading : Reading) (cmdTokens : List Str)
    (openingCount closingCount : Nat) (agenda : List (Task World)) (session : Session World) :
    Machine World :=
  let execute (reading : Reading) : Machine World :=
    let cmdExpr := '(' :: Text.join " ".toList cmdTokens ++ ")".toList
    { session, agenda := .subshell reading .execution (runSubshellCommand cmdExpr) :: agenda }
  let proceed (reading : Reading) (tok : Str) (openingCount closingCount : Nat) : Machine World :=
    { session
      agenda := .collectSubshell reading (cmdTokens ++ [tok]) openingCount closingCount :: agenda }
  match getToken reading.lexer with
  | none => unwind env session (.readTokens reading :: agenda)
  | some (none, lexer) => execute { reading with lexer }
  | some (some tok, lexer) =>
      let reading := { reading with lexer }
      if tok = ")".toList then
        if openingCount = closingCount + 1 then execute reading
        else proceed reading tok openingCount (closingCount + 1)
      else if tok = "(".toList then proceed reading tok (openingCount + 1) closingCount
      else proceed reading tok openingCount closingCount

/-- The end of a loop over `cmd_expr` where it finds no parenthesis: at the end of the
text the lexer's next token is added. `none` where it raises, `some none` where the
lexer is at its end. -/
def Search.advance (search : Search) (lexer : Str) : Option (Option (Search × Str)) :=
  if search.pos + 1 = search.cmdExpr.length then
    (getToken lexer).map fun (tok, lexer) =>
      tok.map fun tok =>
        ({ search with cmdExpr := search.cmdExpr ++ ' ' :: tok, pos := search.pos + 1 }, lexer)
  else some (some ({ search with pos := search.pos + 1 }, lexer))

def searchSubshell (env : Env World) (reading : Reading) (search : Search)
    (agenda : List (Task World)) (session : Session World) : Machine World :=
  let proceed (search : Search) (lexer : Str) : Machine World :=
    { session, agenda := .searchSubshell { reading with lexer } search :: agenda }
  match search.cmdExpr[search.pos]? with
  | none => unwind env session (.readTokens reading :: agenda)
  | some ')' =>
      if search.openingCount = search.closingCount + 1 then
        { session
          agenda :=
            .subshell reading .execution
              (runSubshellCommand (search.cmdExpr.take (search.pos + 1))) :: agenda }
      else
        proceed { search with pos := search.pos + 1, closingCount := search.closingCount + 1 }
          reading.lexer
  | some '(' =>
      proceed { search with pos := search.pos + 1, openingCount := search.openingCount + 1 }
        reading.lexer
  | some _ =>
      match search.advance reading.lexer with
      | none => unwind env session (.readTokens reading :: agenda)
      | some none => { session, agenda := .readTokens { reading with lexer := [] } :: agenda }
      | some (some (search, lexer)) => proceed search lexer

def substitute (env : Env World) (reading : Reading) (result : Str) (search : Search)
    (agenda : List (Task World)) (session : Session World) : Machine World :=
  let proceed (search : Search) (lexer : Str) : Machine World :=
    { session, agenda := .substitute { reading with lexer } result search :: agenda }
  let finish (lexer : Str) : Machine World :=
    { session
      agenda := .readTokens { reading with lexer, tokens := reading.tokens ++ [result] } :: agenda }
  match search.cmdExpr[search.pos]? with
  | none => unwind env session (.readTokens reading :: agenda)
  | some ch =>
      if ch = ')' ∨ ch = '`' then
        if search.openingCount = search.closingCount + 1 then
          { session
            agenda :=
              .subshell reading (.substitution result search)
                (runSubshellCommand (search.cmdExpr.take (search.pos + 1))) :: agenda }
        else
          proceed { search with pos := search.pos + 1, closingCount := search.closingCount + 1 }
            reading.lexer
      else if ch = '$' ∧ search.cmdExpr[search.pos + 1]? = some '(' then
        proceed { search with pos := search.pos + 2, openingCount := search.openingCount + 1 }
          reading.lexer
      else
        match search.advance reading.lexer with
        | none => unwind env session (.readTokens reading :: agenda)
        | some none => finish []
        | some (some (search, lexer)) => proceed search lexer

def substituted (reading : Reading) (result : Str) (search : Search) (output : Str)
    (agenda : List (Task World)) (session : Session World) : Machine World :=
  let isSubshell := search.cmdExpr.head? = some '('
  let session := if isSubshell then session.print output else session
  let result := if isSubshell then result else result ++ output
  let remainder := search.cmdExpr.drop (search.pos + 1)
  let again :=
    if Text.contains "$(".toList remainder ∨ Text.contains "`".toList remainder then
      beginSubstitution (result ++ remainder)
    else none
  match again with
  | some (result, search) => { session, agenda := .substitute reading result search :: agenda }
  | none =>
      { session
        agenda :=
          .readTokens { reading with tokens := reading.tokens ++ [result ++ remainder] } :: agenda }

/-- The end of `run_subshell_command`; a substitution loses the newlines at its end. -/
def finishSubshell (reading : Reading) (purpose : Purpose) (output : Str)
    (agenda : List (Task World)) (session : Session World) : Machine World :=
  match purpose with
  | .execution => { session := session.print output, agenda := .readTokens reading :: agenda }
  | .substitution result search =>
      let output :=
        if search.cmdExpr.head? = some '(' then output else output.rdropWhile (· = '\n')
      substituted reading result search output agenda session

def executeSingle (env : Env World) (reading : Reading) (purpose : Purpose) (loop : Subshell)
    (agenda : List (Task World)) (session : Session World) : Machine World :=
  let shell := session.shells.next
  let cmd := Text.join " ".toList loop.currentCmdTokens
  { session :=
      session.pushShell { interactive := false, redirect := true, environ := env.environ }
    agenda :=
      .readTokens { shell, lexer := cmd } :: .captured ::
        .subshell reading purpose { loop with currentCmdTokens := [] } :: agenda }

def subshell (env : Env World) (reading : Reading) (purpose : Purpose) (loop : Subshell)
    (agenda : List (Task World)) (session : Session World) : Machine World :=
  let proceed (loop : Subshell) : Machine World :=
    { session, agenda := .subshell reading purpose loop :: agenda }
  if loop.last then finishSubshell reading purpose loop.accumulatedOutput agenda session
  else
    match getToken loop.lexer with
    | none => unwind env session (.readTokens reading :: agenda)
    | some (none, lexer) =>
        let loop := { loop with lexer, last := true }
        if loop.currentCmdTokens = [] then proceed loop
        else executeSingle env reading purpose loop agenda session
    | some (some tok, lexer) =>
        let loop := { loop with lexer }
        if tok = ";".toList ∨ tok = "&&".toList ∨ tok = "||".toList then
          if loop.currentCmdTokens = [] then proceed loop
          else executeSingle env reading purpose loop agenda session
        else proceed { loop with currentCmdTokens := loop.currentCmdTokens ++ [tok] }

/-- The output of the last pipe; `none` where it does not decode. -/
def capturedOutput (session : Session World) : Option Str :=
  match session.pp with
  | none => some []
  | some pp => Utf8.decode (session.pipe pp).redirectedData

/-- The rest of `_execute_single_command_with_redirect`. -/
def captured (env : Env World) (agenda : List (Task World))
    (session : Session World) : Machine World :=
  match session.cmdstack with
  | [] => unwind env session agenda
  | _ :: below =>
      let session := { session with cmdstack := below }
      match capturedOutput session, agenda with
      | some output, .subshell reading purpose loop :: agenda =>
          { session
            agenda :=
              .subshell reading purpose
                { loop with accumulatedOutput := loop.accumulatedOutput ++ output } :: agenda }
      | _, _ => unwind env session agenda

/-! ## Steps -/

def proceed (env : Env World) (task : Task World) (agenda : List (Task World))
    (session : Session World) : Machine World :=
  match task with
  | .runOrPrompt shell => runOrPrompt env shell agenda session
  | .redirect shell ops =>
      match redirectOnly env shell ops session with
      | (some _, session) => { session, agenda := .runOrPrompt shell :: agenda }
      | (none, session) => unwind env session agenda
  | .build shell environ (stage :: stages) pp =>
      buildStage env shell environ stage stages pp agenda session
  | .build shell _ [] pp => callBuilt shell pp agenda session
  | .callCommand pp => callCommand env pp agenda session
  | .perform _ _ [] => { session, agenda }
  | .perform id pp (action :: actions) =>
      performAction env id pp action (.perform id pp actions :: agenda) session
  | .outConnectionLost => outConnectionLost agenda session
  | .popShell =>
      match session.cmdstack with
      | [] => unwind env session agenda
      | _ :: below =>
          { session := { session with cmdstack := below }, agenda }
  | .restoreDepth depth => { session := { session with scriptDepth := depth }, agenda }
  | .readTokens reading => readTokens env reading agenda session
  | .collectSubshell reading cmdTokens openingCount closingCount =>
      collectSubshell env reading cmdTokens openingCount closingCount agenda session
  | .searchSubshell reading search => searchSubshell env reading search agenda session
  | .substitute reading result search => substitute env reading result search agenda session
  | .subshell reading purpose loop => subshell env reading purpose loop agenda session
  | .captured => captured env agenda session

def queueInput (env : Env World) (line : Str) (session : Session World) : Machine World :=
  match Shlex.split line, session.cmdstack.getLast? with
  | some tokens, some (.shell shell) =>
      { session := session.setPending shell ((session.shell shell).cmdpending ++ [tokens]) }
  | _, _ => unwind env session []

def lineReceived (env : Env World) (line : Str) (session : Session World) : Machine World :=
  match session.cmdstack with
  | [] => { session := { session with ended := true } }
  | .shell shell :: _ => { session, agenda := [.readTokens { shell, lexer := line }] }
  | .command _ :: _ => queueInput env line session

inductive Event
  | line (line : Str)
  | tick
  deriving DecidableEq, Repr

/-- A line is received when all calls have returned. -/
def step (env : Env World) (machine : Machine World) : Event → Option (Machine World)
  | .line line =>
      if machine.raised ∨ machine.agenda ≠ [] then none
      else some (lineReceived env line machine.session)
  | .tick =>
      match machine.agenda with
      | [] => none
      | task :: agenda => some (proceed env task agenda machine.session)

def connectionMade (env : Env World) (world : World) : Machine World :=
  let session : Session World :=
    { world, cmdstack := [], shells := .empty, pipes := .empty }
  let pushed := session.pushShell { interactive := !env.exec, environ := env.environ }
  { session := pushed.showPrompt env session.shells.next }

end Shell

end LlmHoneypot
