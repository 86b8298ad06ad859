import LlmHoneypot.Downloader.Intent

/-! # Fetching and observing

The second half of `downloader.py`: what a fetch does before it waits for the
network, and the observation block that reports its outcome. -/

namespace LlmHoneypot

namespace Downloader

inductive Outcome
  | success
  | partialBody
  | failedBlocked
  | failedDns
  | failedConnection
  | failedHttp
  | toolUnsupported
  deriving DecidableEq, Repr

def Outcome.text : Outcome → Str
  | .success => "success".toList
  | .partialBody => "partial".toList
  | .failedBlocked => "failed_blocked".toList
  | .failedDns => "failed_dns".toList
  | .failedConnection => "failed_connection".toList
  | .failedHttp => "failed_http".toList
  | .toolUnsupported => "tool_unsupported".toList

structure FetchResult where
  outcome : Outcome
  url : Str
  savedTo : Option Str := none
  bytesDownloaded : Nat := 0
  bytesAdvertised : Option Nat := none
  sha256 : Option Str := none
  httpStatus : Option Nat := none
  contentType : Option Str := none
  errorMessage : Option Str := none
  /-- Hundredths of a second. -/
  duration : Nat := 0
  deriving DecidableEq, Repr

/-! ## Dispatch -/

inductive Transfer
  | http (url : Str)
  | tftp (host : Str) (port : Nat) (filename : Str)
  | ftp (host : Str) (port : Nat) (user password path : Str)
  deriving DecidableEq, Repr

/-- A fetch as `fetch` leaves it: an outcome that needs no network, or a
transfer behind the check of its host. -/
inductive FetchPlan
  | finished (result : FetchResult)
  | gated (host : Str) (transfer : Transfer)
  deriving DecidableEq, Repr

def orDefault (default : Str) : Option Str → Str
  | some value => if value = [] then default else value
  | none => default

def fetchHttp (urlparse : UrlParse) (intent : DownloadIntent) :
    Except ValueError FetchPlan :=
  (urlparse intent.url).map fun parsed =>
    .gated (parsed.hostname.getD []) (.http intent.url)

def malformed (intent : DownloadIntent) (message : Str) : FetchPlan :=
  .finished { outcome := .failedConnection, url := intent.url, errorMessage := some message }

def fetchTftp (urlparse : UrlParse) (intent : DownloadIntent) :
    Except ValueError FetchPlan :=
  match urlparse intent.url with
  | .error raised => .error raised
  | .ok parsed =>
      let host := parsed.hostname.getD []
      let filename := parsed.path.dropWhile (· = '/')
      match parsed.port with
      | .error raised => .error raised
      | .ok port =>
          if host = [] ∨ filename = [] then
            .ok (malformed intent "malformed TFTP URL".toList)
          else
            -- Port zero counts as no port.
            let port := if port.getD 0 = 0 then 69 else port.getD 0
            .ok (.gated host (.tftp host port filename))

def fetchFtp (urlparse : UrlParse) (intent : DownloadIntent) :
    Except ValueError FetchPlan :=
  match urlparse intent.url with
  | .error raised => .error raised
  | .ok parsed =>
      let host := parsed.hostname.getD []
      match parsed.port with
      | .error raised => .error raised
      | .ok port =>
          let path := if parsed.path = [] then "/".toList else parsed.path
          if host = [] ∨ path = "/".toList then
            .ok (malformed intent "malformed FTP URL".toList)
          else
            let port := if port.getD 0 = 0 then 21 else port.getD 0
            .ok (.gated host (.ftp host port
              (orDefault "anonymous".toList parsed.username)
              (orDefault "honeypot@example.com".toList parsed.password) path))

def refuseScp (intent : DownloadIntent) : FetchPlan :=
  .finished
    { outcome := .failedBlocked, url := intent.url,
      errorMessage := some "Permission denied (publickey,password).".toList }

def unsupported (intent : DownloadIntent) : FetchPlan :=
  .finished
    { outcome := .toolUnsupported, url := intent.url,
      errorMessage := some
        ("tool '".toList ++ intent.tool.text ++ "' not implemented".toList) }

/-- `fetch`; an exception of `urlparse` leaves it before any Deferred exists. -/
def fetch (urlparse : UrlParse) (intent : DownloadIntent) : Except ValueError FetchPlan :=
  let isHttp :=
    "http://".toList.isPrefixOf intent.url || "https://".toList.isPrefixOf intent.url
  let isFtp := "ftp://".toList.isPrefixOf intent.url
  match intent.tool with
  | .wget | .curl =>
      if isHttp then fetchHttp urlparse intent
      else if isFtp then fetchFtp urlparse intent
      else .ok (unsupported intent)
  | .tftp => fetchTftp urlparse intent
  | .ftpget => fetchFtp urlparse intent
  | .scp => .ok (refuseScp intent)

/-! ## Observation -/

def OBSERVATION_OPEN : Str := "[SHELL_OBSERVED]".toList

def OBSERVATION_CLOSE : Str := "[/SHELL_OBSERVED]".toList

def durationText (hundredths : Nat) : Str :=
  Text.decimal (hundredths / 100) ++ '.' :: Text.decimal (hundredths / 10 % 10) ++
    Text.decimal (hundredths % 10)

def textLine (label : String) : Option Str → List Str
  | some value => if value = [] then [] else [label.toList ++ value]
  | none => []

def numberLine (label : String) (value : Option Nat) : List Str :=
  value.toList.map (label.toList ++ Text.decimal ·)

def renderObservation (intent : DownloadIntent) (result : FetchResult) : Str :=
  Text.join "\n".toList <|
    [OBSERVATION_OPEN, "command: ".toList ++ Text.strip intent.rawCommand,
      "outcome: ".toList ++ result.outcome.text, "url: ".toList ++ result.url] ++
    textLine "saved_to: " result.savedTo ++
    numberLine "bytes_downloaded: "
      (if result.bytesDownloaded = 0 then none else some result.bytesDownloaded) ++
    numberLine "bytes_advertised: " result.bytesAdvertised ++
    textLine "sha256: " result.sha256 ++
    numberLine "http_status: " result.httpStatus ++
    textLine "content_type: " result.contentType ++
    textLine "error: " result.errorMessage ++
    ["duration_seconds: ".toList ++ durationText result.duration, OBSERVATION_CLOSE,
      ("Produce realistic terminal output for the command. Do not " ++
        "contradict any fact in the SHELL_OBSERVED block above.").toList]

def observationLength (text : Str) : Nat :=
  if OBSERVATION_OPEN.isPrefixOf text then
    match Text.before? OBSERVATION_CLOSE (text.drop OBSERVATION_OPEN.length) with
    | some body => OBSERVATION_OPEN.length + body.length + OBSERVATION_CLOSE.length
    | none => 0
  else 0

def stripLeakedObservation (text : Str) : Str × Bool :=
  if Text.contains OBSERVATION_OPEN text ∨ Text.contains OBSERVATION_CLOSE text then
    (Text.replace OBSERVATION_CLOSE []
      (Text.replace OBSERVATION_OPEN [] (Text.substitute observationLength [] text)), true)
  else (text, false)

end Downloader

end LlmHoneypot
