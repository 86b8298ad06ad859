import LlmHoneypot.Foundation.Text

/-! # Options of a command

`getopt.gnu_getopt` for options that take no argument: options and operands in any
order; and `getopt.getopt` and `getopt.gnu_getopt` for all options. Of a `GetoptError` the
option is known. -/

namespace LlmHoneypot

namespace Getopt

variable (shortopts : List Char) (longopts : List Str)

def doLongs (text : Str) : Except Str Str :=
  let name := text.takeWhile (· ≠ '=')
  let possibilities := longopts.filter name.isPrefixOf
  let found :=
    if name ∈ possibilities then some name
    else match possibilities with
      | [single] => some single
      | _ => none
  match found with
  | none => .error name
  | some option =>
      if name.length < text.length then .error option else .ok ("--".toList ++ option)

def doShorts : Str → Except Str (List Str)
  | [] => .ok []
  | ch :: rest =>
      if ch ∈ shortopts then (doShorts rest).map (['-', ch] :: ·) else .error [ch]

def gnuGetopt : List Str → Except Str (List Str × List Str)
  | [] => .ok ([], [])
  | arg :: args =>
      match arg with
      | ['-', '-'] => .ok ([], args)
      | '-' :: '-' :: text => do
          let option ← doLongs longopts text
          (gnuGetopt args).map fun (options, operands) => (option :: options, operands)
      | '-' :: ch :: text => do
          let shorts ← doShorts shortopts (ch :: text)
          (gnuGetopt args).map fun (options, operands) => (shorts ++ options, operands)
      | _ => (gnuGetopt args).map fun (options, operands) => (options, arg :: operands)

/-! ## Options with arguments -/

abbrev Given := Str × Str

def shortHasArg (opt : Char) : Str → Option Bool
  | [] => none
  | ch :: rest =>
      if ch = opt ∧ ch ≠ ':' then some (rest.head? = some ':') else shortHasArg opt rest

def longHasArgs (name : Str) : Option (Bool × Str) :=
  let possibilities := longopts.filter name.isPrefixOf
  if name ∈ possibilities then some (false, name)
  else if name ++ ['='] ∈ possibilities then some (true, name)
  else
    match possibilities with
    | [single] =>
        if single.getLast? = some '=' then some (true, single.dropLast) else some (false, single)
    | _ => none

/-- The options of one argument; the last one may still be without its own argument. -/
structure Taken where
  options : List Given := []
  waiting : Option Str := none
  deriving DecidableEq, Repr

def takeShorts (shortopts : Str) : Str → Except Str Taken
  | [] => .ok {}
  | ch :: rest =>
      match shortHasArg ch shortopts with
      | none => .error [ch]
      | some false =>
          (takeShorts shortopts rest).map fun taken =>
            { taken with options := (['-', ch], []) :: taken.options }
      | some true =>
          if rest = [] then .ok { waiting := some ['-', ch] }
          else .ok { options := [(['-', ch], rest)] }

def takeLong (text : Str) : Except Str Taken :=
  let name := text.takeWhile (· ≠ '=')
  let value := if name.length < text.length then some (text.drop (name.length + 1)) else none
  match longHasArgs longopts name, value with
  | none, _ => .error name
  | some (true, full), some value => .ok { options := [("--".toList ++ full, value)] }
  | some (true, full), none => .ok { waiting := some ("--".toList ++ full) }
  | some (false, full), some _ => .error full
  | some (false, full), none => .ok { options := [("--".toList ++ full, [])] }

def takeOption (shortopts : Str) : Str → Except Str Taken
  | '-' :: '-' :: text => takeLong longopts text
  | _ :: text => takeShorts shortopts text
  | [] => .ok {}

def getoptFrom (gnu : Bool) (shortopts : Str) (longopts : List Str) :
    (waiting : Option Str) → List Str → Except Str (List Given × List Str)
  | none, [] => .ok ([], [])
  | some name, [] => .error (name.dropWhile (· = '-'))
  | some name, value :: args =>
      (getoptFrom gnu shortopts longopts none args).map fun later =>
        ((name, value) :: later.1, later.2)
  | none, arg :: args =>
      if arg = "--".toList then .ok ([], args)
      else if arg.head? = some '-' ∧ arg ≠ "-".toList then
        match takeOption longopts shortopts arg with
        | .error name => .error name
        | .ok taken =>
            (getoptFrom gnu shortopts longopts taken.waiting args).map fun later =>
              (taken.options ++ later.1, later.2)
      else if gnu then
        (getoptFrom gnu shortopts longopts none args).map fun later => (later.1, arg :: later.2)
      else .ok ([], arg :: args)

/-- `getopt(args, shortopts, longopts)`, or `gnu_getopt` of them, where options may also stand
behind operands. -/
def getopt (gnu : Bool) (shortopts : Str) (longopts args : List Str) :
    Except Str (List Given × List Str) :=
  getoptFrom gnu shortopts longopts none args

theorem getoptFrom_option {gnu : Bool} {shortopts : Str} {longopts : List Str} {arg : Str}
    {taken : Taken} (dash : arg.head? = some '-') (notDash : arg ≠ "-".toList)
    (notEnd : arg ≠ "--".toList) (takes : takeOption longopts shortopts arg = .ok taken)
    (args : List Str) :
    getoptFrom gnu shortopts longopts none (arg :: args) =
      (getoptFrom gnu shortopts longopts taken.waiting args).map fun later =>
        (taken.options ++ later.1, later.2) := by
  rw [getoptFrom, if_neg notEnd, if_pos ⟨dash, notDash⟩, takes]

theorem getoptFrom_operands {shortopts : Str} {longopts args : List Str}
    (plain : ∀ arg ∈ args.head?, arg.head? ≠ some '-') :
    getoptFrom false shortopts longopts none args = .ok ([], args) := by
  cases args with
  | nil => rfl
  | cons arg args =>
      have noDash : arg.head? ≠ some '-' := plain arg rfl
      rw [getoptFrom, if_neg, if_neg fun both => noDash both.1]
      · rfl
      · intro isEnd
        exact noDash (by rw [isEnd]; rfl)

end Getopt

end LlmHoneypot
