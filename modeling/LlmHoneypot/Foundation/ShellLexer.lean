import LlmHoneypot.Foundation.Shlex

/-! # Tokens of a shell line

`shlex.shlex(text, posix=True, punctuation_chars=True)`: words, runs of punctuation
and comments, one `get_token` after another. `extra` are the characters added to the
lexer's `wordchars`. -/

namespace LlmHoneypot

namespace ShellLexer

def PUNCTUATION : List Char := "();<>|&".toList

def isWordChar (extra : List Char) (ch : Char) : Bool :=
  let code := ch.toNat
  ch.isAlphanum || "_~-./*?=".toList.contains ch ||
    (0xC0 ≤ code && code ≤ 0xFF && code != 0xD7 && code != 0xF7) || extra.contains ch

inductive Mode
  | between
  | comment
  | word
  | punctuation
  | quoted (quote : Char)
  | escaped (insideQuote : Bool)
  deriving DecidableEq, Repr

def afterLine (text : Str) : Str := (text.dropWhile (· ≠ '\n')).drop 1

/-- `read_token`: the token, `none` at the end, and the text that follows it; no
result where it raises `ValueError`. In the modes `word` and `punctuation` the token
is not empty or was quoted. -/
def readToken (extra : List Char) :
    Mode → (token : Str) → (quoted : Bool) → Str → Option (Option Str × Str)
  | .between, _, _, [] => some (none, [])
  | .between, token, quoted, ch :: rest =>
      if Shlex.isBlank ch then readToken extra .between token quoted rest
      else if ch = '#' then readToken extra .comment token quoted rest
      else if ch = '\\' then readToken extra (.escaped false) [] false rest
      else if isWordChar extra ch then readToken extra .word [ch] false rest
      else if ch ∈ PUNCTUATION then readToken extra .punctuation [ch] false rest
      else if Shlex.isQuote ch then readToken extra (.quoted ch) [] false rest
      else some (some [ch], rest)
  | .comment, _, _, [] => some (none, [])
  | .comment, token, quoted, ch :: rest =>
      if ch = '\n' then readToken extra .between token quoted rest
      else readToken extra .comment token quoted rest
  | .word, token, _, [] => some (some token, [])
  | .word, token, quoted, ch :: rest =>
      if Shlex.isBlank ch then some (some token, rest)
      else if ch = '#' then some (some token, afterLine rest)
      else if Shlex.isQuote ch then readToken extra (.quoted ch) token quoted rest
      else if ch = '\\' then readToken extra (.escaped false) token quoted rest
      else if isWordChar extra ch then readToken extra .word (token ++ [ch]) quoted rest
      else some (some token, ch :: rest)
  | .punctuation, token, _, [] => some (some token, [])
  | .punctuation, token, quoted, ch :: rest =>
      if Shlex.isBlank ch then some (some token, rest)
      else if ch = '#' then some (some token, afterLine rest)
      else if ch ∈ PUNCTUATION then readToken extra .punctuation (token ++ [ch]) quoted rest
      else some (some token, ch :: rest)
  | .quoted _, _, _, [] => none
  | .quoted quote, token, _, ch :: rest =>
      if ch = quote then readToken extra .word token true rest
      else if ch = '\\' ∧ quote = '"' then readToken extra (.escaped true) token true rest
      else readToken extra (.quoted quote) (token ++ [ch]) true rest
  | .escaped _, _, _, [] => none
  | .escaped true, token, quoted, ch :: rest =>
      if ch = '\\' ∨ ch = '"' then readToken extra (.quoted '"') (token ++ [ch]) quoted rest
      else readToken extra (.quoted '"') (token ++ ['\\', ch]) quoted rest
  | .escaped false, token, quoted, ch :: rest =>
      readToken extra .word (token ++ [ch]) quoted rest

def getToken (extra : List Char) (text : Str) : Option (Option Str × Str) :=
  readToken extra .between [] false text

end ShellLexer

end LlmHoneypot
