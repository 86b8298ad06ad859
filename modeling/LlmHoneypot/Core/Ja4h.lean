import LlmHoneypot.Core.Ja4

/-! # Fingerprints of requests

`parse_http_request` and `generate_ja4h` of `fingerprint.py`, over requests whose header lines
change places. -/

namespace LlmHoneypot

namespace Fingerprint

open Reordering

/-! ## Parsing -/

def splitCrlf : Str → List Str
  | [] => [[]]
  | '\r' :: '\n' :: rest => [] :: splitCrlf rest
  | ch :: rest =>
      match splitCrlf rest with
      | [] => [[ch]]
      | line :: lines => (ch :: line) :: lines

def lower (text : Str) : Str := text.map Char.toLower

structure HttpRequest where
  method : Str
  version : Str
  headers : List Str := []
  cookies : Option (List Str) := none
  referer : Option Str := none
  acceptLanguage : Option Str := none
  deriving DecidableEq, Repr

def header? (line : Str) : Option (Str × Str) :=
  if ':' ∈ line then
    some (Text.strip (line.takeWhile (· ≠ ':')), Text.strip ((line.dropWhile (· ≠ ':')).drop 1))
  else none

def cookieNames (value : Str) : Option (List Str) :=
  let names := (Text.splitChar ';' value).map fun cookie => Text.strip (cookie.takeWhile (· ≠ '='))
  let names := names.filter fun name => name ≠ []
  if names = [] then none else some names

def COOKIE : Str := "cookie".toList

def REFERER : Str := "referer".toList

def ACCEPT_LANGUAGE : Str := "accept-language".toList

def readHeader (request : HttpRequest) (line : Str) : HttpRequest :=
  match header? line with
  | none => request
  | some (name, value) =>
      let request := { request with headers := request.headers ++ [name] }
      if lower name = COOKIE then { request with cookies := cookieNames value }
      else if lower name = REFERER then { request with referer := some value }
      else if lower name = ACCEPT_LANGUAGE then { request with acceptLanguage := some value }
      else request

def requestLine? (line : Str) : Option HttpRequest :=
  match Text.words line with
  | method :: _ :: version :: _ =>
      some {
        method
        version := if "HTTP/".toList.isPrefixOf version then version.drop 5 else "1.1".toList }
  | _ => none

def parseHttpRequest (data : Bytes) : Option HttpRequest :=
  match splitCrlf (asciiIgnore data) with
  | [] => none
  | line :: lines => (requestLine? line).map fun request => lines.foldl readHeader request

/-! ## The fingerprint -/

def versionCode (version : Str) : Str :=
  if version = "2.0".toList then "20".toList
  else if version = "1.1".toList then "11".toList
  else if version = "1.0".toList then "10".toList
  else "11".toList

def filteredHeaders (headers : List Str) : List Str :=
  headers.filter fun header => lower header ∉ [COOKIE, REFERER] ∧ header ≠ []

def language (acceptLanguage : Option Str) : Str :=
  let text := acceptLanguage.getD []
  if text = [] then "0000".toList
  else
    let text := lower (Text.replace ";".toList ",".toList (Text.replace "-".toList [] text))
    let lang := ((Text.splitChar ',' text).headD []).take 4
    lang ++ List.replicate (4 - lang.length) '0'

def generateJa4h (sha : Str → Str) (request : HttpRequest) : Str :=
  let methodStr := (lower request.method).take 2
  let headers := filteredHeaders request.headers
  let headerCount := min headers.length 99
  let cookies := request.cookies.getD []
  let cookieStr := if cookies = [] then 'n' else 'c'
  let refererStr := if request.referer.getD [] = [] then 'n' else 'r'
  let sortedHeaders := sorted (headers.map lower)
  let headerHash := if sortedHeaders = [] then NO_HASH else shaEncode sha sortedHeaders
  let cookieHash := if cookies = [] then NO_HASH else shaEncode sha (sorted (cookies.map lower))
  methodStr ++ (versionCode request.version ++ (cookieStr :: refererStr ::
    (digits 10 2 headerCount ++ (language request.acceptLanguage ++ ('_' :: (headerHash ++
      ('_' :: (cookieHash ++ ('_' :: NO_HASH)))))))))

/-- The fingerprint of the bytes of a request, where they are read. -/
def ja4h (sha : Str → Str) (data : Bytes) : Option Str :=
  (parseHttpRequest data).map (generateJa4h sha)

/-! ## Requests -/

/-- A request: `rest` is what follows its header lines. -/
structure Request where
  requestLine : Bytes
  headers : List Bytes
  rest : Bytes

namespace Request

def CRLF : Bytes := [13, 10]

def bytes (request : Request) : Bytes :=
  request.requestLine ++ (CRLF ++ (request.headers.flatMap (· ++ CRLF) ++ request.rest))

def valueOf (name line : Str) : Option Str :=
  (header? line).bind fun header => if lower header.1 = name then some header.2 else none

def lastOf (name : Str) (lines : List Str) : Option Str := last? (lines.map (valueOf name))

def lines (bytes : Bytes) : List Str := splitCrlf (asciiIgnore bytes)

def hashedCookies (cookies : Option (List Str)) : Option Str :=
  if cookies.getD [] = [] then none
  else some (Text.join [','] (sorted ((cookies.getD []).map lower)))

def cookieView (value : Option Str) : Option Str := hashedCookies (value.bind cookieNames)

def refererView (value : Option Str) : Bool := value.getD [] = []

/-- The last line of a name is behind the header lines, or all of them say the same. -/
def Settled {View : Type} (name : Str) (view : Option Str → View) (request : Request) : Prop :=
  lastOf name (lines request.rest) ≠ none ∨
    ∀ header ∈ request.headers, ∀ other ∈ request.headers, ∀ value value',
      lastOf name (lines header) = some value → lastOf name (lines other) = some value' →
        view (some value) = view (some value')

/-- The request line has a method, a path and a version. -/
def Readable (request : Request) : Prop :=
  (requestLine? ((lines request.requestLine).headD [])).isSome = true

end Request

/-! ## Lines -/

theorem splitCrlf_ne_nil (text : Str) : splitCrlf text ≠ [] := by
  fun_cases splitCrlf text with
  | case1 => exact List.cons_ne_nil _ _
  | case2 rest => exact List.cons_ne_nil _ _
  | case3 ch rest _ nothing => exact List.cons_ne_nil _ _
  | case4 ch rest _ line lines _ => exact List.cons_ne_nil _ _

theorem splitCrlf_append (text rest : Str) :
    splitCrlf (text ++ ('\r' :: '\n' :: rest)) = splitCrlf text ++ splitCrlf rest := by
  fun_induction splitCrlf text with
  | case1 => rfl
  | case2 more induction =>
      rw [List.cons_append, List.cons_append, splitCrlf, induction]
      rfl
  | case3 ch more noEnd nothing induction => exact absurd nothing (splitCrlf_ne_nil more)
  | case4 ch more noEnd line lines isSplit induction =>
      rw [isSplit, List.cons_append] at induction
      have step : splitCrlf (ch :: (more ++ ('\r' :: '\n' :: rest))) =
          (ch :: line) :: (lines ++ splitCrlf rest) := by
        rw [splitCrlf, induction]
        intro after isCr isAfter
        cases more with
        | nil => cases isAfter
        | cons next others =>
            rw [List.cons_append] at isAfter
            rcases List.cons_eq_cons.mp isAfter with ⟨isLf, -⟩
            exact noEnd others isCr (isLf ▸ rfl)
      rw [List.cons_append, step]
      rfl

theorem asciiIgnore_append (bytes more : Bytes) :
    asciiIgnore (bytes ++ more) = asciiIgnore bytes ++ asciiIgnore more := by
  rw [asciiIgnore, List.filter_append, List.map_append]
  rfl

namespace Request

variable {request : Request}

theorem lines_crlf (bytes more : Bytes) : lines (bytes ++ (CRLF ++ more)) = lines bytes ++ lines more := by
  have isCrlf : asciiIgnore CRLF = ['\r', '\n'] := by decide
  rw [lines, asciiIgnore_append, asciiIgnore_append, isCrlf]
  exact splitCrlf_append _ _

theorem lines_headers (headers : List Bytes) (rest : Bytes) :
    lines (headers.flatMap (· ++ CRLF) ++ rest) = headers.flatMap lines ++ lines rest := by
  induction headers with
  | nil => rfl
  | cons header headers induction =>
      rw [List.flatMap_cons, List.append_assoc, List.append_assoc, lines_crlf, induction,
        List.flatMap_cons, List.append_assoc]

theorem lines_bytes (request : Request) :
    lines request.bytes =
      lines request.requestLine ++ (request.headers.flatMap lines ++ lines request.rest) := by
  rw [bytes, lines_crlf, lines_headers]

/-! ## What is read -/

def names (lines : List Str) : List Str := lines.filterMap fun line => (header? line).map Prod.fst

theorem lastOf_cons (name line : Str) (lines : List Str) :
    lastOf name (line :: lines) = (lastOf name lines).or (valueOf name line) := by
  rw [lastOf, List.map_cons, last?]
  rfl

theorem lastOf_append (name : Str) (lines more : List Str) :
    lastOf name (lines ++ more) = (lastOf name more).or (lastOf name lines) := by
  rw [lastOf, List.map_append, last?_append]
  rfl

theorem lastOf_flatMap (name : Str) (headers : List Bytes) :
    lastOf name (headers.flatMap lines) = last? (headers.map fun header => lastOf name (lines header)) := by
  induction headers with
  | nil => rfl
  | cons header headers induction =>
      rw [List.flatMap_cons, lastOf_append, induction, List.map_cons, last?]

theorem foldl_readHeader (lines : List Str) (start : HttpRequest) :
    lines.foldl readHeader start =
      { start with
        headers := start.headers ++ names lines
        cookies := (lastOf COOKIE lines).elim start.cookies cookieNames
        referer := (lastOf REFERER lines).or start.referer
        acceptLanguage := (lastOf ACCEPT_LANGUAGE lines).or start.acceptLanguage } := by
  induction lines generalizing start with
  | nil => simp [names, lastOf, last?]
  | cons line lines induction =>
      rw [List.foldl_cons, induction, lastOf_cons, lastOf_cons, lastOf_cons]
      cases isHeader : header? line with
      | none =>
          have noValue (name : Str) : valueOf name line = none := by
            rw [valueOf, isHeader, Option.bind_none]
          have same : names (line :: lines) = names lines := by simp [names, isHeader]
          simp only [readHeader, isHeader, noValue, same, Option.or_none]
      | some header =>
          have isValue (name : Str) : valueOf name line =
              if lower header.1 = name then some header.2 else none := by
            rw [valueOf, isHeader, Option.bind_some]
          have more : names (line :: lines) = header.1 :: names lines := by simp [names, isHeader]
          have cookie : COOKIE ≠ REFERER ∧ COOKIE ≠ ACCEPT_LANGUAGE ∧ REFERER ≠ ACCEPT_LANGUAGE := by
            decide
          simp only [readHeader, isHeader, isValue, more]
          by_cases isCookie : lower header.1 = COOKIE
          · rw [if_pos isCookie, if_pos isCookie, if_neg (isCookie ▸ cookie.1),
              if_neg (isCookie ▸ cookie.2.1)]
            cases lastOf COOKIE lines <;> simp
          · rw [if_neg isCookie, if_neg isCookie, Option.or_none]
            by_cases isReferer : lower header.1 = REFERER
            · rw [if_pos isReferer, if_pos isReferer, if_neg (isReferer ▸ cookie.2.2)]
              cases lastOf REFERER lines <;> simp
            · rw [if_neg isReferer, if_neg isReferer, Option.or_none]
              by_cases isLanguage : lower header.1 = ACCEPT_LANGUAGE
              · rw [if_pos isLanguage, if_pos isLanguage]
                cases lastOf ACCEPT_LANGUAGE lines <;> simp
              · rw [if_neg isLanguage, if_neg isLanguage, Option.or_none]
                simp

/-! ## What is seen -/

theorem length_language (acceptLanguage : Option Str) : (language acceptLanguage).length = 4 := by
  rw [language]
  split
  · rfl
  · dsimp only
    rw [List.length_append, List.length_replicate, List.length_take]
    omega

theorem cookieStr_eq (cookies : Option (List Str)) :
    (if cookies.getD [] = [] then 'n' else 'c') = (hashedCookies cookies).elim 'n' fun _ => 'c' := by
  rw [hashedCookies]
  split
  · rfl
  · rfl

theorem cookieHash_eq (sha : Str → Str) (cookies : Option (List Str)) :
    (if cookies.getD [] = [] then NO_HASH
      else shaEncode sha (sorted ((cookies.getD []).map lower))) =
        (hashedCookies cookies).elim NO_HASH sha := by
  rw [hashedCookies]
  split
  · rfl
  · rfl

theorem refererStr_eq (referer : Option Str) :
    (if referer.getD [] = [] then 'n' else 'r') = (if refererView referer then 'n' else 'r') := by
  rw [refererView]
  simp only [decide_eq_true_eq]

theorem generateJa4h_iff {one other : HttpRequest} (method : other.method = one.method)
    (version : other.version = one.version) (headers : other.headers.Perm one.headers) :
    (∀ sha, generateJa4h sha other = generateJa4h sha one) ↔
      hashedCookies other.cookies = hashedCookies one.cookies ∧
        refererView other.referer = refererView one.referer ∧
          language other.acceptLanguage = language one.acceptLanguage := by
  have kept : (filteredHeaders other.headers).Perm (filteredHeaders one.headers) := headers.filter _
  have sortedSame := sorted_eq_of_perm (kept.map lower)
  have lengths : (language other.acceptLanguage).length = (language one.acceptLanguage).length :=
    (length_language _).trans (length_language _).symm
  simp only [generateJa4h, method, version, sortedSame, kept.length_eq, List.append_right_inj,
    List.cons.injEq, cookieStr_eq, cookieHash_eq, refererStr_eq]
  constructor
  · intro same
    rcases same id with ⟨cookie, referer, more⟩
    rcases List.append_inj more lengths with ⟨isLanguage, hashes⟩
    have hash := List.append_cancel_left (List.cons_eq_cons.mp hashes).2
    have hash := List.append_cancel_right (List.cons_eq_cons.mp hash).2
    refine ⟨?_, ?_, isLanguage⟩
    · cases isOther : hashedCookies other.cookies with
      | none =>
          cases isOne : hashedCookies one.cookies with
          | none => rfl
          | some text =>
              rw [isOther, isOne] at cookie
              cases cookie
      | some text =>
          cases isOne : hashedCookies one.cookies with
          | none =>
              rw [isOther, isOne] at cookie
              cases cookie
          | some text' =>
              rw [isOther, isOne] at hash
              exact congrArg some hash
    · cases isOther : refererView other.referer <;> cases isOne : refererView one.referer <;>
        simp [isOther, isOne] at referer ⊢
  · intro seen sha
    rcases seen with ⟨cookie, referer, isLanguage⟩
    rw [cookie, referer, isLanguage]
    exact ⟨rfl, rfl, rfl⟩

theorem parseHttpRequest_cons {data : Bytes} {first : Str} {rest : List Str}
    (isLines : lines data = first :: rest) :
    parseHttpRequest data = (requestLine? first).map fun start => rest.foldl readHeader start := by
  rw [lines] at isLines
  rw [parseHttpRequest, isLines]

theorem requestLine?_bare {line : Str} {start : HttpRequest} (isLine : requestLine? line = some start) :
    start.cookies = none ∧ start.referer = none ∧ start.acceptLanguage = none := by
  rw [requestLine?] at isLine
  split at isLine
  · cases isLine
    exact ⟨rfl, rfl, rfl⟩
  · cases isLine

theorem seen_iff {line : Str} {start : HttpRequest} (isLine : requestLine? line = some start)
    {texts others : List Str} (reordered : (names others).Perm (names texts)) :
    (∀ sha, generateJa4h sha (others.foldl readHeader start) =
        generateJa4h sha (texts.foldl readHeader start)) ↔
      cookieView (lastOf COOKIE others) = cookieView (lastOf COOKIE texts) ∧
        refererView (lastOf REFERER others) = refererView (lastOf REFERER texts) ∧
          language (lastOf ACCEPT_LANGUAGE others) = language (lastOf ACCEPT_LANGUAGE texts) := by
  rcases requestLine?_bare isLine with ⟨noCookies, noReferer, noLanguage⟩
  have cookies (value : Option Str) : value.elim none cookieNames = value.bind cookieNames := by
    cases value with
    | none => rfl
    | some text => rfl
  rw [foldl_readHeader, foldl_readHeader, generateJa4h_iff]
  · simp only [noCookies, noReferer, noLanguage, Option.or_none, cookies]
    rfl
  · rfl
  · rfl
  · exact reordered.append_left _

theorem settled_iff {View : Type} (name : Str) (view : Option Str → View) (request : Request)
    (front : List Str) :
    (∀ headers : List Bytes, headers.Perm request.headers →
        view (lastOf name (front ++ (headers.flatMap lines ++ lines request.rest))) =
          view (lastOf name (front ++ (request.headers.flatMap lines ++ lines request.rest)))) ↔
      Settled name view request := by
  simp only [lastOf_append, lastOf_flatMap]
  cases behind : lastOf name (lines request.rest) with
  | some value =>
      simp only [Option.some_or, implies_true, true_iff]
      exact .inl (by rw [behind]; exact Option.some_ne_none _)
  | none =>
      have agree := last?_reordered_iff (fun header => lastOf name (lines header))
        (fun value => view (value.or (lastOf name front))) request.headers
      simp only [Option.none_or]
      rw [agree, Settled, behind]
      simp only [Option.some_or, ne_eq, not_true_eq_false, false_or]

theorem names_perm {headers : List Bytes} (reordered : headers.Perm request.headers)
    (front rest : List Str) :
    (names (front ++ (headers.flatMap lines ++ rest))).Perm
      (names (front ++ (request.headers.flatMap lines ++ rest))) := by
  apply List.Perm.filterMap
  exact ((reordered.flatMap_right lines).append_right rest).append_left front

/-- Which header lines the fingerprint passes over in any order. -/
structure Steady (request : Request) : Prop where
  cookie : Settled COOKIE cookieView request
  referer : Settled REFERER refererView request
  acceptLanguage : Settled ACCEPT_LANGUAGE language request

/-- The fingerprint is the same in every order of the header lines exactly where the request line
is not read or the headers that are read are settled. -/
theorem reordered_iff (request : Request) :
    (∀ headers : List Bytes, headers.Perm request.headers →
        ∀ sha, ja4h sha { request with headers }.bytes = ja4h sha request.bytes) ↔
      (request.Readable → request.Steady) := by
  rcases List.exists_cons_of_ne_nil
    (splitCrlf_ne_nil (asciiIgnore request.requestLine)) with ⟨first, front, isLines⟩
  change lines request.requestLine = first :: front at isLines
  have parsed (headers : List Bytes) :
      parseHttpRequest { request with headers }.bytes = (requestLine? first).map fun start =>
        (front ++ (headers.flatMap lines ++ lines request.rest)).foldl readHeader start := by
    have isBytes := lines_bytes { request with headers }
    rw [isLines, List.cons_append] at isBytes
    exact parseHttpRequest_cons isBytes
  rw [Readable, isLines, List.headD_cons]
  simp only [ja4h, parsed]
  cases isLine : requestLine? first with
  | none => simp
  | some start =>
      have same : ∀ headers : List Bytes, headers.Perm request.headers →
          ((∀ sha, generateJa4h sha ((front ++ (headers.flatMap lines ++
                lines request.rest)).foldl readHeader start) =
              generateJa4h sha ((front ++ (request.headers.flatMap lines ++
                lines request.rest)).foldl readHeader start)) ↔ _) := fun headers reordered =>
        seen_iff isLine (names_perm reordered front (lines request.rest))
      simp only [Option.map_some, Option.some.injEq, Option.isSome_some, true_implies]
      constructor
      · intro all
        have seen := fun headers reordered => (same headers reordered).mp (all headers reordered)
        exact ⟨(settled_iff _ _ _ front).mp fun headers reordered => (seen headers reordered).1,
          (settled_iff _ _ _ front).mp fun headers reordered => (seen headers reordered).2.1,
          (settled_iff _ _ _ front).mp fun headers reordered => (seen headers reordered).2.2⟩
      · intro steady headers reordered
        apply (same headers reordered).mpr
        exact ⟨(settled_iff _ _ _ front).mpr steady.cookie headers reordered,
          (settled_iff _ _ _ front).mpr steady.referer headers reordered,
          (settled_iff _ _ _ front).mpr steady.acceptLanguage headers reordered⟩

end Request

/-! ## Clients in disguise -/

/-- Fingerprints are the same under every disguise but GREASE among the signature algorithms, and
in every order of the header lines where those that are read are settled. -/
theorem fingerprint_same_iff (useQuic : Bool) :
    (∀ fields disguised : ClientHelloFields, fields.Disguised disguised →
      ((∀ sha, generateJa4 sha disguised useQuic = generateJa4 sha fields useQuic) ↔
        disguised.signatureAlgorithms.getD [] = fields.signatureAlgorithms.getD [] ∨
          filtered fields.extensions = [])) ∧
    (∀ hello disguised : ClientHello, hello.WellFormed → disguised.WellFormed →
      hello.Disguised disguised →
        ((∀ sha, ja4 sha useQuic disguised.record = ja4 sha useQuic hello.record) ↔
          disguised.algorithms = hello.algorithms)) ∧
    ∀ request : Request,
      ((∀ headers : List Bytes, headers.Perm request.headers →
          ∀ sha, ja4h sha { request with headers }.bytes = ja4h sha request.bytes) ↔
        (request.Readable → request.Steady)) := by
  refine ⟨?_, ?_, ?_⟩
  · intro fields disguised disguise
    exact disguise.ja4_iff useQuic
  · intro hello disguised formed formed' disguise
    exact disguise.record_iff formed formed' useQuic
  · exact Request.reordered_iff

def disguisedHello (grease : List Nat) : ClientHello :=
  { sampleHello with
    ciphers := [0x0a0a, 0x1301]
    extensions := some [.signatureAlgorithms (grease ++ [0x0403]), .other 0x1a1a [],
      .serverName [0, 1], .alpn [[104, 50]]] }

theorem disguisedHello_formed {grease : List Nat} (few : grease = [] ∨ grease = [0x0a0a]) :
    (disguisedHello grease).WellFormed := by
  rcases few with same | same <;> subst same <;> exact
    { sampleHello_formed with
      ciphers := by decide
      areCiphers := by decide
      cipherRoom := by decide
      extensions := by
        intro extensions isSome
        cases isSome
        refine ⟨?_, by decide, by decide⟩
        intro extension member
        simp only [List.mem_cons, List.not_mem_nil, or_false] at member
        rcases member with same | same | same | same
        · rw [same]
          exact ⟨⟨by decide, by decide⟩, by decide⟩
        · rw [same]
          exact ⟨⟨by decide, by decide⟩, by decide⟩
        · rw [same]
          exact ⟨trivial, by decide⟩
        · rw [same]
          exact ⟨protocols_formed, by decide⟩ }

theorem disguisedHello_disguise {grease : List Nat} (few : grease = [] ∨ grease = [0x0a0a]) :
    sampleHello.Disguised (disguisedHello grease) := by
  have inserted : Inserted IsGrease [0x0403] (grease ++ [0x0403]) := by
    rcases few with same | same
    · rw [same]
      exact .keep _ .nil
    · rw [same]
      exact .insert (by decide) (.keep _ .nil)
  rcases few with same | same <;> subst same <;> exact
    { version := rfl
      ciphers := ⟨[0x0a0a], by decide, by decide⟩
      hasExtensions := by decide
      extensions := by
        refine ⟨_, [.other 0x1a1a []],
          .cons (.same _) (.cons (.same _) (.cons (.algorithms inserted) .nil)), ?_, ?_⟩
        · decide
        · decide }

def plainRequest : Request where
  requestLine := "GET / HTTP/1.1".toList.map fun ch => UInt8.ofNat ch.toNat
  headers := [[65, 58], [66, 58]]
  rest := Request.CRLF

def cookieLines : List Bytes :=
  ["Cookie: a=1".toList, "Cookie: b=2".toList].map fun line => line.map fun ch =>
    UInt8.ofNat ch.toNat

theorem plainRequest_bare : ∀ header ∈ plainRequest.headers,
    ∀ name ∈ [COOKIE, REFERER, ACCEPT_LANGUAGE],
      Request.lastOf name (Request.lines header) = none := by
  decide

theorem plainRequest_settled {View : Type} {name : Str} (view : Option Str → View)
    (member : name ∈ [COOKIE, REFERER, ACCEPT_LANGUAGE]) : plainRequest.Settled name view := by
  apply Or.inr
  intro header isHeader other _ value value' isValue
  rw [plainRequest_bare header isHeader name member] at isValue
  cases isValue

theorem plainRequest_steady : plainRequest.Steady where
  cookie := plainRequest_settled _ (by decide)
  referer := plainRequest_settled _ (by decide)
  acceptLanguage := plainRequest_settled _ (by decide)

theorem fingerprint_same_sample :
    (∀ sha, generateJa4 sha (disguisedHello []).fields false =
      generateJa4 sha sampleHello.fields false) ∧
    (∀ sha, ja4 sha false (disguisedHello []).record = ja4 sha false sampleHello.record) ∧
    ∀ sha, ja4h sha { plainRequest with headers := [[66, 58], [65, 58]] }.bytes =
      ja4h sha plainRequest.bytes := by
  refine ⟨?_, ?_, ?_⟩
  · exact ((fingerprint_same_iff false).1 _ _
      ((disguisedHello_disguise (.inl rfl)).fields (by decide))).mpr (.inl (by decide))
  · exact ((fingerprint_same_iff false).2.1 _ _ sampleHello_formed
      (disguisedHello_formed (.inl rfl)) (disguisedHello_disguise (.inl rfl))).mpr (by decide)
  · exact ((fingerprint_same_iff false).2.2 plainRequest).mpr (fun _ => plainRequest_steady) _
      (by decide)

/-- GREASE among the algorithms shows, and so does the order of two cookie lines. -/
theorem disguise_seen :
    (¬ ∀ hello disguised : ClientHello, hello.WellFormed → disguised.WellFormed →
        hello.Disguised disguised → ∀ sha,
          ja4 sha false disguised.record = ja4 sha false hello.record) ∧
      ¬ ∀ (request : Request) (headers : List Bytes), headers.Perm request.headers →
        ∀ sha, ja4h sha { request with headers }.bytes = ja4h sha request.bytes := by
  constructor
  · intro all
    have formed := disguisedHello_formed (.inr rfl)
    have disguise := disguisedHello_disguise (.inr rfl)
    have same := (disguise.record_iff sampleHello_formed formed false).mp
      (all _ _ sampleHello_formed formed disguise)
    exact absurd same (by decide)
  · intro all
    have same := all { plainRequest with headers := cookieLines } cookieLines.reverse
      (List.reverse_perm _) id
    exact absurd same (by decide +kernel)

end Fingerprint

end LlmHoneypot
