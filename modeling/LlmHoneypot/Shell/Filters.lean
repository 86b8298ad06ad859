import LlmHoneypot.Foundation.OsPath
import LlmHoneypot.Shell.Commands

/-! # Filters

The commands that read the output of the stage before them: `commands/cut.py`, `uniq.py`,
`base64.py`, `tee.py`, `wc.py`, `cat.py`, and `grep`, `tail` and `head` of `commands/fs.py`. -/

namespace LlmHoneypot

namespace Shell

inductive Filter
  | cut
  | uniq
  | base64
  | tee
  | wc
  | grep
  | tail
  | head
  | cat
  deriving DecidableEq, Repr

def Filter.names : Filter → List Str
  | .cut => ["/usr/bin/cut".toList, "/bin/cut".toList, "cut".toList]
  | .uniq => ["/usr/bin/uniq".toList, "uniq".toList]
  | .base64 => ["/usr/bin/base64".toList, "base64".toList]
  | .tee => ["/bin/tee".toList, "tee".toList]
  | .wc => ["/usr/bin/wc".toList, "/bin/wc".toList, "wc".toList]
  | .grep => ["/bin/grep".toList, "grep".toList, "/bin/egrep".toList, "/bin/fgrep".toList]
  | .tail => ["/bin/tail".toList, "/usr/bin/tail".toList, "tail".toList]
  | .head => ["/bin/head".toList, "/usr/bin/head".toList, "head".toList]
  | .cat => ["/bin/cat".toList, "cat".toList]

def filterOf (name : Str) : Option Filter :=
  [.cut, .uniq, .base64, .tee, .wc, .grep, .tail, .head, .cat].find? fun filter =>
    name ∈ filter.names

/-- The call of `getopt` or `gnu_getopt` in `start`; `uniq` has none. -/
def Filter.getopt (filter : Filter) (args : List Str) :
    Except Str (List Getopt.Given × List Str) :=
  match filter with
  | .cut =>
      Getopt.getopt true "d:f:b:c:s".toList
        ["help".toList, "version".toList, "delimiter=".toList, "fields=".toList] args
  | .uniq => .ok ([], [])
  | .base64 =>
      Getopt.getopt false "diw:".toList
        ["version".toList, "help".toList, "decode".toList, "ignore-garbage".toList, "wrap=".toList]
        args
  | .tee =>
      Getopt.getopt true "aip".toList ["help".toList, "append".toList, "version".toList] args
  | .wc => Getopt.getopt false "cmlLwhv".toList [] args
  | .grep =>
      Getopt.getopt false "abcDEFGHhIiJLlmnOoPqRSsUVvwxZA:B:C:e:f:".toList
        ["binary-files=".toList, "color=".toList, "color".toList, "context=".toList,
          "directories=".toList, "label".toList, "line-buffered".toList] args
  | .tail => Getopt.getopt false "n:".toList [] args
  | .head => Getopt.getopt false "c:n:".toList [] args
  | .cat =>
      Getopt.getopt true "AbeEnstTuv".toList
        ["help".toList, "number".toList, "version".toList] args

inductive Ending
  | exits
  | waits
  | raises
  deriving DecidableEq, Repr

variable {World : Type}

def Ending.actions : Ending → List (Action World)
  | .exits => [.exit]
  | .waits => []
  | .raises => [.raise]

structure Work (World : Type) where
  outputs : List (Output World) := []
  ending : Ending

namespace Work

def exits (outputs : List (Output World)) : Work World := ⟨outputs, .exits⟩

def waits : Work World := ⟨[], .waits⟩

def raises (outputs : List (Output World)) : Work World := ⟨outputs, .raises⟩

def exitsWith : Option (List (Output World)) → Work World
  | some outputs => exits outputs
  | none => raises []

def after (outputs : List (Output World)) (work : Work World) : Work World :=
  { work with outputs := outputs ++ work.outputs }

/-- A loop whose body writes and changes a state, or raises; then `exit`. -/
def each {State Item : Type} (body : State → Item → Option (List (Output World) × State)) :
    State → List Item → Work World
  | _, [] => exits []
  | state, item :: items =>
      match body state item with
      | none => raises []
      | some (outputs, state) => (each body state items).after outputs

def actions (work : Work World) : List (Action World) :=
  work.outputs.map .output ++ work.ending.actions

@[simp] theorem ending_exits (outputs : List (Output World)) : (exits outputs).ending = .exits := rfl

@[simp] theorem ending_waits : (waits : Work World).ending = .waits := rfl

@[simp] theorem ending_raises (outputs : List (Output World)) :
    (raises outputs).ending = .raises := rfl

@[simp] theorem ending_after (outputs : List (Output World)) (work : Work World) :
    (work.after outputs).ending = work.ending := rfl

@[simp] theorem ending_exitsWith (outputs : Option (List (Output World))) :
    (exitsWith outputs).ending = .exits ↔ outputs.isSome := by
  cases outputs with
  | none => simp [exitsWith]
  | some outputs => simp [exitsWith]

end Work

def say (text : Str) : Output World := .write (Utf8.encode text)

def complain (text : Str) : Output World := .errorWrite (Utf8.encode text)

def asksHelp (given : List Getopt.Given) : Bool := given.any (·.1 = "--help".toList)

def isRedirect (args : List Str) : Bool := args.head? = some ">".toList

inductive MkfileError
  | fileNotFound
  | permissionDenied
  deriving DecidableEq, Repr

structure Library (World : Type) where
  isdigit : Str → Bool
  /-- `none` for a `ValueError`. -/
  int : Str → Option Int
  /-- `re.compile(pattern).search`, `none` for an `re.error`. -/
  compile : Bytes → Option (Bytes → Bool)
  b64encode : Bytes → Bytes
  b64decode : Bytes → Option Bytes
  help : Filter → Bytes
  version : Filter → Bytes
  isdir : Str → World → Bool
  mkfile : Str → World → Except MkfileError World

/-- `data.split(b"\n")`, without what follows the last newline where that is empty. -/
def linesOf (data : Bytes) : List Bytes :=
  let lines := data.splitOn 10
  if lines.getLast? = some [] then lines.dropLast else lines

section

variable (env : Env World) (lib : Library World)

/-! ## File operands -/

/-- `check_arguments`; it gives no paths where it raises. -/
def checkArguments (application : Str) (world : World) :
    List Str → List (Output World) × Option (List Str)
  | [] => ([], some [])
  | arg :: args =>
      match env.resolvePath arg world with
      | none => ([], none)
      | some path =>
          let later := checkArguments application world args
          if lib.isdir path world then
            (complain (application ++ ": error reading `".toList ++ arg ++
              "': Is a directory\n".toList) :: later.1, later.2)
          else (later.1, later.2.map (path :: ·))

def readArguments {State : Type} (application : Str) (args : List Str) (world : World)
    (read : State → Str → Option (List (Output World) × State)) (state : State) : Work World :=
  match checkArguments env lib application world args with
  | (outputs, none) => .raises outputs
  | (outputs, some files) => (Work.each read state files).after outputs

/-! ## `cut` -/

structure CutOptions where
  delimiter : Str := "\t".toList
  fieldSpec : Option Str := none
  suppress : Bool := false
  deriving DecidableEq, Repr

/-- The loop over the options; some of them end the command. -/
def cutOptions : CutOptions → List Getopt.Given → Except (List (Output World)) CutOptions
  | options, [] => .ok options
  | options, (opt, val) :: given =>
      if opt = "--help".toList then .error [.write (lib.help .cut)]
      else if opt = "--version".toList then .error [.write (lib.version .cut)]
      else if opt = "-d".toList ∨ opt = "--delimiter".toList then
        cutOptions { options with delimiter := val } given
      else if opt = "-f".toList ∨ opt = "--fields".toList then
        cutOptions { options with fieldSpec := some val } given
      else if opt = "-s".toList then cutOptions { options with suppress := true } given
      else if opt = "-b".toList ∨ opt = "-c".toList then
        cutOptions { options with fieldSpec := some val } given
      else cutOptions options given

def parseRange (part : Str) : Option (Int × Option Int) :=
  if '-' ∈ part then
    let first := part.takeWhile (· ≠ '-')
    let last := part.drop (first.length + 1)
    (if first ≠ [] then (lib.int first).map (· - 1) else some 0).bind fun start =>
      (if last ≠ [] then (lib.int last).map some else some none).map fun stop => (start, stop)
  else (lib.int part).map fun number => (number - 1, some number)

def parseFieldSpec (spec : Str) : Option (List (Int × Option Int)) :=
  (Text.splitChar ',' spec).mapM (parseRange lib)

def sliceIndex (length : Nat) (index : Int) : Nat :=
  (if index < 0 then index + length else index).toNat

def slice (fields : List Str) (start : Int) (stop : Option Int) : List Str :=
  let taken :=
    match stop with
    | some stop => fields.take (sliceIndex fields.length stop)
    | none => fields
  taken.drop (sliceIndex fields.length start)

def splitParts (delimiter : Str) : Nat → Str → List Str
  | 0, text => [text]
  | count + 1, text =>
      match Text.before? delimiter text, Text.after? delimiter text with
      | some part, some rest => part :: splitParts delimiter count rest
      | _, _ => [text]

def cutLine (options : CutOptions) (ranges : List (Int × Option Int)) (line : Bytes) :
    Option (List (Output World)) :=
  let text := Utf8.decodeReplace line
  if options.delimiter = [] then none
  else if ¬ Text.contains options.delimiter text then
    some (if options.suppress then [] else [say (text ++ "\n".toList)])
  else
    let fields := splitParts options.delimiter text.length text
    let selected := ranges.flatMap fun range => slice fields range.1 range.2
    some [say (Text.join options.delimiter selected ++ "\n".toList)]

def cutProcess (options : CutOptions) (ranges : List (Int × Option Int)) (data : Bytes) :
    Option (List (Output World)) :=
  ((linesOf data).mapM (cutLine options ranges)).map List.flatten

def cutFile (options : CutOptions) (ranges : List (Int × Option Int)) (world : World) (_ : Unit)
    (arg : Str) : Option (List (Output World) × Unit) :=
  let missing : List (Output World) :=
    [complain ("cut: ".toList ++ arg ++ ": No such file or directory\n".toList)]
  (env.resolvePath arg world).map fun path =>
    match env.fileContents path world with
    | .ok contents => ((cutProcess options ranges contents).getD missing, ())
    | .error _ => (missing, ())

def cutStart (args : List Str) (input : Option Bytes) (world : World) : Work World :=
  let tryHelp : Output World := complain "Try 'cut --help' for more information.\n".toList
  match Filter.getopt .cut args with
  | .error opt => .exits [complain ("cut: invalid option -- '".toList ++ opt ++ "'\n".toList), tryHelp]
  | .ok (given, operands) =>
      match cutOptions lib {} given with
      | .error outputs => .exits outputs
      | .ok options =>
          match options.fieldSpec with
          | none =>
              .exits [complain
                "cut: you must specify a list of bytes, characters, or fields\n".toList, tryHelp]
          | some spec =>
              match parseFieldSpec lib spec with
              | none => .raises []
              | some ranges =>
                  if input.getD [] ≠ [] then .exitsWith (cutProcess options ranges (input.getD []))
                  else if operands ≠ [] then
                    .each (cutFile env options ranges world) () operands
                  else .waits

/-! ## `uniq` -/

def uniqLines : Option Bytes → List Bytes → List (Output World)
  | _, [] => []
  | last, line :: lines =>
      if some line = last then uniqLines last lines
      else .write (line ++ [10]) :: uniqLines (some line) lines

def uniqStart (args : List Str) (input : Option Bytes) : Work World :=
  if args.contains "--help".toList then .exits [.write (lib.help .uniq)]
  else if input.getD [] ≠ [] then .exits (uniqLines none (linesOf (input.getD [])))
  else .waits

/-! ## `base64` -/

structure Base64Options where
  decodes : Bool := false
  ignore : Bool := false
  deriving DecidableEq, Repr

def base64Options : Base64Options → List Getopt.Given → Except (List (Output World)) Base64Options
  | options, [] => .ok options
  | options, (opt, _) :: given =>
      if opt = "--help".toList then .error [.write (lib.help .base64)]
      else if opt = "--version".toList then .error [.write (lib.version .base64)]
      else if opt = "-d".toList ∨ opt = "--decode".toList then
        base64Options { options with decodes := true } given
      else if opt = "-i".toList ∨ opt = "--ignore-garbage".toList then
        base64Options { options with ignore := true } given
      else base64Options options given

def isBase64 (byte : UInt8) : Bool :=
  (65 ≤ byte && byte ≤ 90) || (97 ≤ byte && byte ≤ 122) || (48 ≤ byte && byte ≤ 57) ||
    byte = 43 || byte = 47 || byte = 61

def dojob (options : Base64Options) (data : Bytes) : List (Output World) :=
  let data := if options.ignore then data.filter isBase64 else data
  if options.decodes then
    match lib.b64decode data with
    | some decoded => [.write decoded]
    | none => [complain "base64: invalid input\n".toList]
  else [.write (lib.b64encode data), .write [10]]

def base64Start (args : List Str) (input : Option Bytes) (world : World) : Work World :=
  match Filter.getopt .base64 args with
  | .error _ => .exits [complain "Unrecognized option\n".toList]
  | .ok (given, operands) =>
      match base64Options lib {} given with
      | .error outputs => .exits outputs
      | .ok options =>
          match operands with
          | [] =>
              if input.getD [] ≠ [] then .exits (dojob lib options (input.getD [])) else .waits
          | first :: _ :: _ =>
              .exits [complain ("base64: extra operand '".toList ++ first ++
                "'\nTry 'base64 --help' for more information.\n".toList)]
          | [arg] =>
              match env.resolvePath arg world with
              | none => .raises []
              | some path =>
                  if lib.isdir path world then
                    .exits [complain "base64: read error: Is a directory\n".toList]
                  else
                    match env.fileContents path world with
                    | .ok contents => .exits (dojob lib options contents)
                    | .error _ =>
                        .exits [complain ("base64: ".toList ++ arg ++
                          ": No such file or directory\n".toList)]

/-! ## `tee` -/

def made (path : Str) (world : World) : World :=
  match lib.mkfile path world with
  | .ok changed => changed
  | .error _ => world

/-- The loop over the operands: what it does, and `teeFiles` where it does not raise. -/
def teeOperands : List Str → World → List (Output World) × Option (List Str)
  | [], _ => ([], some [])
  | arg :: args, world =>
      match env.resolvePath arg world with
      | none => ([], none)
      | some path =>
          let missing : Output World :=
            complain ("tee: ".toList ++ arg ++ ": No such file or directory\n".toList)
          if lib.isdir path world then
            let later := teeOperands args world
            (complain ("tee: ".toList ++ arg ++ ": Is a directory\n".toList) :: later.1, later.2)
          else
            match env.resolvePath (OsPath.dirname path) world with
            | none => ([], none)
            | some folder =>
                if ¬ lib.isdir folder world then
                  let later := teeOperands args world
                  (missing :: later.1, later.2)
                else
                  match lib.mkfile path world with
                  | .error .permissionDenied => ([], none)
                  | .error .fileNotFound =>
                      let later := teeOperands args world
                      (missing :: later.1, later.2)
                  | .ok changed =>
                      let later := teeOperands args changed
                      (.update (made lib path) :: later.1, later.2.map (path :: ·))

def teeLines (files : List Str) : Nat → List Str → List (Output World)
  | _, [] => []
  | written, line :: lines =>
      let count := written + (Utf8.encode line).length + 1
      say (line ++ "\n".toList) ::
        files.map (fun file => .update (env.updateSize file count)) ++ teeLines files count lines

/-- `output` of an input that is not empty; it raises where that is no text. -/
def teeOutput (files : List Str) (data : Bytes) : Option (List (Output World)) :=
  (Utf8.decode data).map fun text =>
    let lines := Text.splitChar '\n' text
    teeLines env files 0 (if lines.getLast? = some [] then lines.dropLast else lines)

def teeStart (args : List Str) (input : Option Bytes) (world : World) : Work World :=
  match Filter.getopt .tee args with
  | .error opt =>
      .exits [complain ("tee: invalid option -- '".toList ++ opt ++
        "'\nTry 'tee --help' for more information.\n".toList)]
  | .ok (given, operands) =>
      if asksHelp given then .exits [.write (lib.help .tee)]
      else
        match teeOperands env lib operands world with
        | (outputs, none) => .raises outputs
        | (outputs, some files) =>
            if input.getD [] ≠ [] then
              (Work.exitsWith (teeOutput env files (input.getD []))).after outputs
            else Work.waits.after outputs

/-! ## `wc` -/

def isSpaceByte (byte : UInt8) : Bool := byte = 32 || (9 ≤ byte && byte ≤ 13)

def squeeze : Bytes → Bytes
  | 32 :: 32 :: rest => squeeze (32 :: rest)
  | byte :: rest => byte :: squeeze rest
  | [] => []

def wcApplication (contents : Bytes) (given : List Getopt.Given) : List (Output World) :=
  given.map fun option =>
    if option.1 = "-l".toList then
      say (Text.decimal ((contents.splitOn 10).length - 1) ++ "\n".toList)
    else if option.1 = "-w".toList then
      let stripped := Text.stripWhere isSpaceByte (Text.stripWhere (· = 10) contents)
      say (Text.decimal ((squeeze stripped).splitOn 32).length ++ "\n".toList)
    else if option.1 = "-m".toList ∨ option.1 = "-c".toList then
      say (Text.decimal contents.length ++ "\n".toList)
    else if option.1 = "-v".toList then .write (lib.version .wc)
    else .write (lib.help .wc)

def wcFile (given : List Getopt.Given) (world : World) (_ : Unit) (filename : Str) :
    Option (List (Output World) × Unit) :=
  match env.fileContents filename world with
  | .ok contents => some (wcApplication lib contents given, ())
  | .error _ =>
      some ([complain ("wc: ".toList ++ filename ++ ": No such file or directory\n".toList)], ())

def wcStart (args : List Str) (input : Option Bytes) (world : World) : Work World :=
  if args = [] then .exits []
  -- `args` and `optlist` are not bound then
  else if isRedirect args then .raises []
  else
    match Filter.getopt .wc args with
    | .error opt =>
        .exits [complain ("wc: invalid option -- ".toList ++ opt ++ "\n".toList),
          .write (lib.help .wc)]
    | .ok (given, operands) =>
        match given.find? fun option => option.1 = "-v".toList ∨ option.1 = "-h".toList with
        | some (opt, _) =>
            .exits [.write (if opt = "-v".toList then lib.version .wc else lib.help .wc)]
        | none =>
            if input.getD [] = [] then
              readArguments env lib "wc".toList (operands.drop 1) world
                (wcFile env lib given world) ()
            else .exits (wcApplication lib (input.getD []) given)

/-! ## `grep` -/

def grepPattern (pattern : Str) : Bytes :=
  Utf8.encode ((OsPath.basename pattern).filter (· ≠ '"'))

def grepApplication (contents : Bytes) (pattern : Str) : Option (List (Output World)) :=
  (lib.compile (grepPattern pattern)).map fun search =>
    ((contents.splitOn 10).filter search).map fun line => .write (line ++ [10])

def grepFile (pattern : Str) (world : World) (_ : Unit) (filename : Str) :
    Option (List (Output World) × Unit) :=
  let missing : List (Output World) :=
    [complain ("grep: ".toList ++ filename ++ ": No such file or directory\n".toList)]
  match env.fileContents filename world with
  | .ok contents => some ((grepApplication lib contents pattern).getD missing, ())
  | .error _ => some (missing, ())

def grepStart (args : List Str) (input : Option Bytes) (world : World) : Work World :=
  if args = [] then .exits [.write (lib.help .grep)]
  -- `args` is not bound then
  else if isRedirect args then .raises []
  else
    match Filter.getopt .grep args with
    | .error opt =>
        .exits [complain ("grep: invalid option -- ".toList ++ opt ++ "\n".toList),
          .write (lib.help .grep)]
    | .ok (given, operands) =>
        let helps : List (Output World) :=
          (given.filter (·.1 = "-h".toList)).map fun _ => .write (lib.help .grep)
        if input.getD [] = [] then
          (readArguments env lib "grep".toList (operands.drop 1) world
            (grepFile env lib (operands.headD []) world) ()).after helps
        else
          match operands with
          | [] => .raises helps
          | pattern :: _ =>
              (Work.exitsWith (grepApplication lib (input.getD []) pattern)).after helps

/-! ## `tail` and `head` -/

/-- A loop over options `-n` and `-c`: what it writes, and the number of lines and of bytes
that are left where no number raises. -/
def numberOptions (illegal : Str → Str → Str) :
    Int × Int → List Getopt.Given → List (Output World) × Option (Int × Int)
  | numbers, [] => ([], some numbers)
  | numbers, (opt, val) :: given =>
      if ¬ lib.isdigit val then
        let later := numberOptions illegal numbers given
        (complain (illegal opt val) :: later.1, later.2)
      else
        match lib.int val with
        | none => ([], none)
        | some number =>
            numberOptions illegal (if opt = "-n".toList then (number, 0) else (0, number)) given

/-- `start` of both: how they name an illegal number, what they show of an input and of
files. -/
def numberedStart (filter : Filter) (application : Str) (illegal : Str → Str → Str)
    (shown : Int × Int → Bytes → List (Output World)) (files : Int × Int → List Str → Work World)
    (args : List Str) (input : Option Bytes) : Work World :=
  if args = [] ∨ isRedirect args then .waits
  else
    match filter.getopt args with
    | .error opt => .exits [complain (application ++ ": invalid option -- '".toList ++ opt ++ "'
".toList)]
    | .ok (given, operands) =>
        match numberOptions lib illegal (10, 0) given with
        | (outputs, none) => .raises outputs
        | (outputs, some numbers) =>
            if input.getD [] = [] then (files numbers operands).after outputs
            else (Work.exits (shown numbers (input.getD []))).after outputs

def tailApplication (n : Int) (contents : Bytes) : List (Output World) × Int :=
  let lines := contents.splitOn 10
  let count : Int := lines.length
  let n := if count < n then count - 1 else n
  let start := count - n - 1
  -- the index of the first line is `-1` where there are just `n` lines
  let shown :=
    if start < 0 then (lines.getLast?.getD []) :: lines else lines.drop start.toNat
  (shown.zipIdx.flatMap fun line =>
    .write line.1 :: if (line.2 : Int) < n then [.write [10]] else [], n)

def tailFile (world : World) (n : Int) (filename : Str) : Option (List (Output World) × Int) :=
  match env.fileContents filename world with
  | .ok contents => some (tailApplication n contents)
  | .error _ =>
      some ([complain ("tail: cannot open `".toList ++ filename ++
        "' for reading: No such file or directory
".toList)], n)

def illegalOffset (_ val : Str) : Str := "tail: illegal offset -- ".toList ++ val ++ "
".toList

def tailStart (args : List Str) (input : Option Bytes) (world : World) : Work World :=
  numberedStart lib .tail "tail".toList illegalOffset
    (fun numbers contents => (tailApplication numbers.1 contents).1)
    (fun numbers operands =>
      readArguments env lib "tail".toList operands world (tailFile env world) numbers.1)
    args input

def headApplication (numbers : Int × Int) (contents : Bytes) : List (Output World) :=
  if numbers.2 ≠ 0 then [.write (contents.take numbers.2.toNat)]
  else if numbers.1 ≠ 0 then
    ((contents.splitOn 10).take numbers.1.toNat).map fun line => .write (line ++ [10])
  else []

def headFile (numbers : Int × Int) (world : World) (_ : Unit) (filename : Str) :
    Option (List (Output World) × Unit) :=
  match env.fileContents filename world with
  | .ok contents => some (headApplication numbers contents, ())
  | .error .fileNotFound =>
      some ([complain ("head: cannot open `".toList ++ filename ++
        "' for reading: No such file or directory
".toList)], ())
  | .error .isADirectory => none

def invalidNumber (opt val : Str) : Str :=
  "head: invalid number of ".toList ++
    (if opt = "-n".toList then "lines".toList else "bytes".toList) ++ ": `".toList ++ val ++
    "'
".toList

def headStart (args : List Str) (input : Option Bytes) (world : World) : Work World :=
  numberedStart lib .head "head".toList invalidNumber headApplication
    (fun numbers operands =>
      readArguments env lib "head".toList operands world (headFile env numbers world) ())
    args input

/-! ## `cat` -/

def lineNumber (number : Nat) : Str :=
  let digits := Text.decimal number
  List.replicate (6 - digits.length) ' ' ++ digits ++ "  ".toList

def catLines (number : Bool) : Nat → List Bytes → List (Output World) × Nat
  | linenumber, [] => ([], linenumber)
  | linenumber, line :: lines =>
      if number then
        let later := catLines number (linenumber + 1) lines
        (say (lineNumber linenumber) :: .write (line ++ [10]) :: later.1, later.2)
      else
        let later := catLines number linenumber lines
        (.write (line ++ [10]) :: later.1, later.2)

def catFile (number : Bool) (input : Option Bytes) (world : World) (linenumber : Nat) (arg : Str) :
    Option (List (Output World) × Nat) :=
  if arg = "-".toList then
    match input with
    | none => some ([], linenumber)
    | some data => some (catLines number linenumber (linesOf data))
  else
    (env.resolvePath arg world).bind fun path =>
      if lib.isdir path world then
        some ([complain ("cat: ".toList ++ arg ++ ": Is a directory\n".toList)], linenumber)
      else
        match env.fileContents path world with
        | .ok contents => some (catLines number linenumber (linesOf contents))
        | .error .fileNotFound =>
            some ([complain ("cat: ".toList ++ arg ++ ": No such file or directory\n".toList)],
              linenumber)
        | .error .isADirectory => none

def catStart (args : List Str) (input : Option Bytes) (world : World) : Work World :=
  match Filter.getopt .cat args with
  | .error opt =>
      .exits [complain ("cat: invalid option -- '".toList ++ opt ++
        "'\nTry 'cat --help' for more information.\n".toList)]
  | .ok (given, operands) =>
      if asksHelp given then .exits [.write (lib.help .cat)]
      else
        let number := given.any fun option => option.1 = "-n".toList ∨ option.1 = "--number".toList
        if operands ≠ [] then .each (catFile env lib number input world) 1 operands
        else
          match input with
          | some data => .exits (catLines number 1 (linesOf data)).1
          | none => .waits

/-! ## All filters -/

def filterStart (filter : Filter) (args : List Str) (input : Option Bytes) (world : World) :
    Work World :=
  match filter with
  | .cut => cutStart env lib args input world
  | .uniq => uniqStart lib args input
  | .base64 => base64Start env lib args input world
  | .tee => teeStart env lib args input world
  | .wc => wcStart env lib args input world
  | .grep => grepStart env lib args input world
  | .tail => tailStart env lib args input world
  | .head => headStart env lib args input world
  | .cat => catStart env lib args input world

/-- The same with the filters in the table of commands. -/
def Env.withFilters : Env World :=
  { env with
    isCommand := fun name => (filterOf name).isSome || env.isCommand name
    start := fun name args input world =>
      match filterOf name with
      | some filter => (filterStart env lib filter args input world).actions
      | none => env.start name args input world }

end

end Shell

end LlmHoneypot
