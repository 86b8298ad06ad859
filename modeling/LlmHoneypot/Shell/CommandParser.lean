import LlmHoneypot.CmdParser

/-! # Redirections of a command

`shell/parser.py`: the tokens of a redirection are put together again and taken out of
the arguments of a command. -/

namespace LlmHoneypot

namespace Shell

inductive Redirection
  | file (fd : Nat) (target : Str) (append : Bool)
  | stdin (fd : Nat) (target : Str)
  | dup (fd : Nat) (target : Nat)
  deriving DecidableEq, Repr

namespace CommandParser

def isdigit (token : Str) : Bool := token ≠ [] ∧ token.all Char.isDigit

def int (digits : Str) : Nat :=
  digits.foldl (fun value ch => value * 10 + (ch.toNat - '0'.toNat)) 0

def BOUNDARIES : List Str := ["|".toList, ";".toList, "&&".toList, "||".toList]

/-- `_combine_redir_sequence`: the token that stands for the first ones, with the
tokens after them. -/
def combineRedirSequence : List Str → Option (Str × List Str)
  | tok :: nxt :: rest =>
      if isdigit tok ∧ nxt ∈ [">".toList, ">>".toList, ">&".toList] then
        let combined := tok ++ nxt
        match rest with
        | nxt2 :: rest' =>
            if nxt = ">&".toList ∧ nxt2 ∉ BOUNDARIES then some (combined ++ nxt2, rest')
            else if nxt ≠ ">&".toList ∧ nxt2 = "&".toList then
              match rest' with
              | nxt3 :: rest'' =>
                  if nxt3 ∉ BOUNDARIES then some (combined ++ '&' :: nxt3, rest'')
                  else some (combined ++ "&".toList, rest')
              | [] => some (combined ++ "&".toList, rest')
            else some (combined, rest)
        | [] => some (combined, rest)
      else if tok ∈ [">".toList, ">>".toList] ∧ nxt = "&".toList then
        some (tok ++ "&".toList, rest)
      else none
  | _ => none

def mergeFrom : Nat → List Str → List Str
  | 0, tokens => tokens
  | _, [] => []
  | fuel + 1, tok :: rest =>
      match combineRedirSequence (tok :: rest) with
      | some (combined, rest) => combined :: mergeFrom fuel rest
      | none => tok :: mergeFrom fuel rest

def mergeRedirectionTokens (tokens : List Str) : List Str := mergeFrom tokens.length tokens

inductive Op
  | overwrite
  | append
  | input
  | duplicate
  deriving DecidableEq, Repr

/-- `(>>|>&|>|<)(.*)$`. -/
def redirOp (text : Str) : Option (Op × Str) :=
  match text with
  | '>' :: '>' :: rest => (CmdParser.restOfLine rest).map (.append, ·)
  | '>' :: '&' :: rest => (CmdParser.restOfLine rest).map (.duplicate, ·)
  | '>' :: rest => (CmdParser.restOfLine rest).map (.overwrite, ·)
  | '<' :: rest => (CmdParser.restOfLine rest).map (.input, ·)
  | _ => none

def extractRedirOp (token : Str) : Option (Op × Option Nat × Str) :=
  let digits := token.takeWhile Char.isDigit
  (redirOp (token.drop digits.length)).map fun (op, inlineTarget) =>
    (op, if digits = [] then none else some (int digits), inlineTarget)

/-- `_apply_redirection`: the operations and the arguments that the token makes, and
how many tokens it takes. -/
def applyRedirection (op : Op) (fd : Option Nat) (inlineTarget : Str) (nextToken : Option Str)
    (rawToken : Str) : List Redirection × List Str × Nat :=
  let consumed := if inlineTarget = [] then 2 else 1
  match if inlineTarget = [] then nextToken else some inlineTarget with
  | none => ([], [rawToken], 1)
  | some target =>
      match op with
      | .overwrite => ([.file (fd.getD 1) target false], [], consumed)
      | .append => ([.file (fd.getD 1) target true], [], consumed)
      | .input => ([.stdin (fd.getD 0) target], [], consumed)
      | .duplicate =>
          if target = "-".toList then ([], [], consumed)
          else if isdigit target then ([.dup (fd.getD 1) (int target)], [], consumed)
          else ([], [rawToken], 1)

def parseFrom : Nat → List Str → List Str × List Redirection
  | 0, _ => ([], [])
  | _, [] => ([], [])
  | fuel + 1, tok :: rest =>
      match extractRedirOp tok with
      | some (op, fd, inlineTarget) =>
          let (ops, arguments, consumed) :=
            applyRedirection op fd inlineTarget rest.head? tok
          let (cleaned, more) := parseFrom fuel (rest.drop (consumed - 1))
          (arguments ++ cleaned, ops ++ more)
      | none =>
          let (cleaned, more) := parseFrom fuel rest
          (tok :: cleaned, more)

def parseRedirections (arguments : List Str) : List Str × List Redirection :=
  parseFrom arguments.length arguments

end CommandParser

end Shell

end LlmHoneypot
