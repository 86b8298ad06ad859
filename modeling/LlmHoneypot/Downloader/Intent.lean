import LlmHoneypot.Foundation.Shlex

/-! # Download commands

The first half of `downloader.py`: which lines are downloads, from where and to
which file. -/

namespace LlmHoneypot

namespace Downloader

inductive Tool
  | wget
  | curl
  | tftp
  | ftpget
  | scp
  deriving DecidableEq, Repr

def Tool.text : Tool → Str
  | .wget => "wget".toList
  | .curl => "curl".toList
  | .tftp => "tftp".toList
  | .ftpget => "ftpget".toList
  | .scp => "scp".toList

def DOWNLOAD_TOOLS : List Tool := [.wget, .curl, .tftp, .ftpget, .scp]

def Tool.ofText? (text : Str) : Option Tool := DOWNLOAD_TOOLS.find? (·.text = text)

structure DownloadIntent where
  tool : Tool
  url : Str
  outfile : Option Str
  rawCommand : Str
  deriving DecidableEq, Repr

inductive ValueError
  | invalidUrl
  deriving DecidableEq, Repr

/-- What `urllib.parse.urlparse` finds in a URL. Reading the port may raise
after the rest has parsed. -/
structure ParsedUrl where
  hostname : Option Str
  path : Str
  port : Except ValueError (Option Nat)
  username : Option Str
  password : Option Str

abbrev UrlParse := Str → Except ValueError ParsedUrl

def SEPARATORS : List Str :=
  [";".toList, "&&".toList, "||".toList, "|".toList, "\n".toList]

def splitPipeline (line : Str) : Str := Text.beforeFirstOf SEPARATORS line

def isFlag (arg : Str) : Bool := "-".toList.isPrefixOf arg

/-- The loop over an argument vector: `withValue` at a flag that takes the next
argument as its value, `plain` at every other argument. -/
def scanArgs {State : Type} (takesValue : Str → Bool) (withValue : State → Str → Str → State)
    (plain : State → Str → State) : State → List Str → State
  | state, [] => state
  | state, [arg] => plain state arg
  | state, arg :: next :: rest =>
      if takesValue arg then
        scanArgs takesValue withValue plain (withValue state arg next) rest
      else scanArgs takesValue withValue plain (plain state arg) (next :: rest)

/-! ## HTTP tools -/

def isUrl (arg : Str) : Bool :=
  "http://".toList.isPrefixOf arg || "https://".toList.isPrefixOf arg ||
    "ftp://".toList.isPrefixOf arg

def normalizeUrl (arg : Str) : Str :=
  if Text.contains "://".toList arg then arg else "http://".toList ++ arg

def optionValue (arg : Str) : Str := (Text.after? "=".toList arg).getD []

structure HttpArgs where
  outfile : Option Str := none
  useRemoteName : Bool := false
  urls : List Str := []

def wgetArg (found : HttpArgs) (arg : Str) : HttpArgs :=
  if "--output-document=".toList.isPrefixOf arg then
    { found with outfile := some (optionValue arg) }
  else if "-O".toList.isPrefixOf arg ∧ 2 < arg.length then
    { found with outfile := some (arg.drop 2) }
  else if isUrl arg then { found with urls := found.urls ++ [arg] }
  else if isFlag arg then found
  else { found with urls := found.urls ++ [normalizeUrl arg] }

def parseWget (args : List Str) (raw : Str) : Option DownloadIntent :=
  let found :=
    scanArgs (· ∈ ["-O".toList, "--output-document".toList])
      (fun found _ value => { found with outfile := some value }) wgetArg {} args
  found.urls.head?.map fun url => ⟨.wget, url, found.outfile, raw⟩

def curlArg (found : HttpArgs) (arg : Str) : HttpArgs :=
  if arg = "-O".toList ∨ arg = "--remote-name".toList then
    { found with useRemoteName := true }
  else if "--output=".toList.isPrefixOf arg then
    { found with outfile := some (optionValue arg) }
  else if isUrl arg then { found with urls := found.urls ++ [arg] }
  else if isFlag arg then found
  else { found with urls := found.urls ++ [normalizeUrl arg] }

def basename (path : Str) : Str := path.rtakeWhile (· ≠ '/')

def parseCurl (urlparse : UrlParse) (args : List Str) (raw : Str) :
    Except ValueError (Option DownloadIntent) :=
  let found :=
    scanArgs (· ∈ ["-o".toList, "--output".toList])
      (fun found _ value => { found with outfile := some value }) curlArg {} args
  match found.urls.head? with
  | none => .ok none
  | some url =>
      if found.useRemoteName ∧ found.outfile = none then
        (urlparse url).map fun parsed =>
          let name := basename parsed.path
          some ⟨.curl, url, some (if name = [] then "index.html".toList else name), raw⟩
      else .ok (some ⟨.curl, url, found.outfile, raw⟩)

/-! ## Other tools -/

structure TftpArgs where
  remote : Option Str := none
  localFile : Option Str := none
  host : Option Str := none

def parseTftp (args : List Str) (raw : Str) : Option DownloadIntent :=
  let found :=
    scanArgs (· ∈ ["-r".toList, "-l".toList])
      (fun found flag value =>
        if flag = "-r".toList then { found with remote := some value }
        else { found with localFile := some value })
      (fun found arg => if isFlag arg then found else { found with host := some arg })
      ({} : TftpArgs) args
  match found.host, found.remote with
  | some host, some remote =>
      if host = [] ∨ remote = [] then none
      else
        let outfile :=
          match found.localFile with
          | some name => if name = [] then basename remote else name
          | none => basename remote
        some ⟨.tftp, "tftp://".toList ++ host ++ '/' :: remote, some outfile, raw⟩
  | _, _ => none

def parseFtpget (args : List Str) (raw : Str) : Option DownloadIntent :=
  let positionals :=
    scanArgs (· ∈ ["-u".toList, "-p".toList, "-P".toList]) (fun found _ _ => found)
      (fun found arg => if isFlag arg then found else found ++ [arg]) [] args
  match positionals with
  | host :: localFile :: remote :: _ =>
      if host = [] ∨ remote = [] then none
      else some ⟨.ftpget, "ftp://".toList ++ host ++ '/' :: remote, some localFile, raw⟩
  | _ => none

def isRemote (operand : Str) : Bool :=
  match Text.before? ":".toList operand with
  | some host => '/' ∉ host
  | none => false

def parseScp (args : List Str) (raw : Str) : Option DownloadIntent :=
  match (args.filter (!isFlag ·)).reverse with
  | dst :: src :: _ =>
      let direction :=
        if isRemote src ∧ ¬ isRemote dst then "inbound".toList
        else if isRemote dst ∧ ¬ isRemote src then "outbound".toList
        else "ambiguous".toList
      some ⟨.scp, "scp://".toList ++ direction ++ '/' :: src ++ "->".toList ++ dst,
        some (if direction = "inbound".toList then dst else src), raw⟩
  | _ => none

/-! ## Detection -/

def parseArgs (urlparse : UrlParse) (args : List Str) (raw : Str) :
    Tool → Except ValueError (Option DownloadIntent)
  | .wget => .ok (parseWget args raw)
  | .curl => parseCurl urlparse args raw
  | .tftp => .ok (parseTftp args raw)
  | .ftpget => .ok (parseFtpget args raw)
  | .scp => .ok (parseScp args raw)

/-- `none` for a line that is no download; an exception of `urlparse` passes
through to the caller. -/
def parseDownloadCommand (urlparse : UrlParse) (line : Str) :
    Except ValueError (Option DownloadIntent) :=
  let head := Text.strip (splitPipeline line)
  if head = [] then .ok none
  else
    match Tool.ofText? (Text.firstWord head) with
    | none => .ok none
    | some _ =>
        match Shlex.split head with
        | none => .ok none
        | some [] => .ok none
        | some (tool :: args) =>
            match Tool.ofText? tool with
            | none => .ok none
            | some tool => parseArgs urlparse args line tool

theorem Tool.text_of_ofText? {text : Str} {tool : Tool} (found : ofText? text = some tool) :
    tool.text = text := by
  simpa using List.find?_some found

theorem parseDownloadCommand_tool {urlparse : UrlParse} {line : Str}
    (isDownload : parseDownloadCommand urlparse line ≠ .ok none) :
    ∃ first tool : Tool, ∃ args,
      Text.strip (splitPipeline line) ≠ [] ∧
      Text.firstWord (Text.strip (splitPipeline line)) = first.text ∧
      Shlex.split (Text.strip (splitPipeline line)) = some (tool.text :: args) := by
  simp only [parseDownloadCommand] at isDownload
  split at isDownload
  · exact absurd rfl isDownload
  · rename_i visible
    split at isDownload
    · exact absurd rfl isDownload
    · rename_i first firstFound
      split at isDownload
      · exact absurd rfl isDownload
      · exact absurd rfl isDownload
      · rename_i word args words
        split at isDownload
        · exact absurd rfl isDownload
        · rename_i tool toolFound
          have spelled := Tool.text_of_ofText? toolFound
          exact ⟨first, tool, args, visible, (Tool.text_of_ofText? firstFound).symm,
            by rw [words, spelled]⟩

end Downloader

end LlmHoneypot
