import LlmHoneypot.Downloader.Intent
import LlmHoneypot.Foundation.Spelling

/-! # Arguments of download tools

Which URL `parse_download_command` takes from a `wget` or `curl` command, beside the one that
the tool fetches first. -/

namespace LlmHoneypot

namespace Downloader

open Spelling

inductive Argument
  | flag (word : Str)
  | valued (word value : Str)
  | url (word : Str)
  deriving DecidableEq, Repr

def Argument.words : Argument → List Str
  | .flag word => [word]
  | .valued word value => [word, value]
  | .url word => [word]

/-- The options of a tool: those that stand alone, or hold their value, and those whose value
is the next word. -/
structure Options where
  alone : Str → Prop
  valued : Str → Prop

def outputOptions : Tool → List Str
  | .wget => ["-O".toList, "--output-document".toList]
  | .curl => ["-o".toList, "--output".toList]
  | _ => []

/-- What the manual of a tool says: options begin with a dash, and these take a value. -/
structure Documented (tool : Tool) (options : Options) : Prop where
  dashed : ∀ word, options.alone word ∨ options.valued word → isFlag word = true
  output : ∀ word ∈ outputOptions tool, ¬ options.alone word

def SCHEMES : List Str := ["http".toList, "https".toList, "ftp".toList]

def IsExplicit (word : Str) : Prop :=
  ∃ scheme rest, scheme.map Char.toLower ∈ SCHEMES ∧ word = scheme ++ ("://".toList ++ rest)

def Argument.Legal (options : Options) : Argument → Prop
  | .flag word => options.alone word
  | .valued word _ => options.valued word
  | .url word => IsExplicit word

/-- The line calls the tool with the arguments, the first URL among them behind `before`. -/
structure Calls (tool : Tool) (options : Options) (line : Line) (before : List Argument)
    (url : Str) (after : List Argument) : Prop where
  command : line.command.pieces = tool.text.map Piece.plain
  values : line.values = (before ++ .url url :: after).flatMap Argument.words
  legal : ∀ argument ∈ before ++ .url url :: after, argument.Legal options
  first : ∀ word, Argument.url word ∉ before

/-- The intent has the URL that the tool fetches first. -/
def Fetches (urlparse : UrlParse) (tool : Tool) (line url : Str) : Prop :=
  ∃ intent, parseDownloadCommand urlparse line = .ok (some intent) ∧ intent.tool = tool ∧
    intent.url = url

def stray (tool : Tool) : Argument → Option Str
  | .valued word value =>
      if word ∈ outputOptions tool ∨ isFlag value = true then none else some value
  | _ => none

def strays (tool : Tool) (before : List Argument) : List Str := before.filterMap (stray tool)

structure Legible (tool : Tool) (line : Line) (before : List Argument) : Prop where
  /-- No dollar or backquote is escaped within double quotes. -/
  plain : ∀ arg ∈ line.args, ∀ piece ∈ arg.2.pieces, piece.Plain
  /-- No white space that is part of a word ends the line. -/
  closed : ∀ ch ∈ (argsText line.args).getLast?, Text.isSpace ch = false
  /-- No value is itself an output option. -/
  kept : ∀ word value, Argument.valued word value ∈ before → word ∉ outputOptions tool →
    value ∉ outputOptions tool

/-- Not even quoted, there is a text in the line that separates commands. -/
def Unseparated (line : Str) : Prop := ∀ separator ∈ SEPARATORS, ¬ separator <:+: line

/-- No value before the URL is taken for another one. -/
def FirstTaken (tool : Tool) (before : List Argument) (url : Str) : Prop :=
  ∀ value ∈ (strays tool before).head?, normalizeUrl value = url

def RemoteNamed (words : List Str) : Prop :=
  let found := scanArgs (· ∈ ["-o".toList, "--output".toList])
    (fun found _ value => { found with outfile := some value }) curlArg {} words
  found.useRemoteName ∧ found.outfile = none

/-- Where the file is to have the name that the URL has, the URL can be parsed. -/
def Parses (urlparse : UrlParse) (tool : Tool) (words : List Str) (url : Str) : Prop :=
  tool = .curl → RemoteNamed words → ∃ parsed, urlparse url = .ok parsed

/-! ## The scan -/

def candidate (arg : Str) : List Str := if isFlag arg then [] else [normalizeUrl arg]

/-- The URLs that the parser takes from the words. -/
def taken (takesValue : Str → Bool) : List Str → List Str
  | [] => []
  | [arg] => candidate arg
  | arg :: next :: rest =>
      if takesValue arg then taken takesValue rest
      else candidate arg ++ taken takesValue (next :: rest)

theorem scanArgs_urls {takesValue : Str → Bool} {withValue : HttpArgs → Str → Str → HttpArgs}
    {plain : HttpArgs → Str → HttpArgs}
    (valueKeeps : ∀ found flag value, (withValue found flag value).urls = found.urls)
    (plainAdds : ∀ found arg, (plain found arg).urls = found.urls ++ candidate arg)
    (found : HttpArgs) (args : List Str) :
    (scanArgs takesValue withValue plain found args).urls =
      found.urls ++ taken takesValue args := by
  induction args using taken.induct takesValue generalizing found with
  | case1 => exact (List.append_nil _).symm
  | case2 arg => exact plainAdds found arg
  | case3 arg next rest takes induction =>
      rw [scanArgs, if_pos takes, taken, if_pos takes, induction, valueKeeps]
  | case4 arg next rest takes induction =>
      rw [scanArgs, if_neg takes, taken, if_neg takes, induction, plainAdds, List.append_assoc]

theorem isFlag_isUrl {arg : Str} (flag : isFlag arg = true) : isUrl arg = false := by
  rcases List.isPrefixOf_iff_prefix.mp flag with ⟨rest, rfl⟩
  rfl

theorem normalizeUrl_isUrl {arg : Str} (url : isUrl arg = true) : normalizeUrl arg = arg := by
  have contains : Text.contains "://".toList arg = true := by
    rw [Text.contains_iff_infix]
    simp only [isUrl, Bool.or_eq_true, List.isPrefixOf_iff_prefix] at url
    rcases url with (http | https) | ftp
    · exact (show "://".toList <:+: "http://".toList by decide).trans http.isInfix
    · exact (show "://".toList <:+: "https://".toList by decide).trans https.isInfix
    · exact (show "://".toList <:+: "ftp://".toList by decide).trans ftp.isInfix
  rw [normalizeUrl, if_pos contains]

theorem urls_candidate (found : HttpArgs) (arg : Str) :
    (if isUrl arg then { found with urls := found.urls ++ [arg] }
      else if isFlag arg then found
      else { found with urls := found.urls ++ [normalizeUrl arg] }).urls =
      found.urls ++ candidate arg := by
  by_cases url : isUrl arg
  · have noFlag : isFlag arg = false := by
      by_contra flag
      rw [isFlag_isUrl (by simpa using flag)] at url
      cases url
    rw [if_pos url, candidate, noFlag, normalizeUrl_isUrl url]
    rfl
  · rw [if_neg url, candidate]
    by_cases flag : isFlag arg
    · rw [if_pos flag, if_pos flag, List.append_nil]
    · rw [if_neg flag, if_neg flag]

theorem candidate_flag {arg : Str} (flag : isFlag arg = true) : candidate arg = [] := if_pos flag

theorem wgetArg_urls (found : HttpArgs) (arg : Str) :
    (wgetArg found arg).urls = found.urls ++ candidate arg := by
  have dashed (text : Str) (dash : "-".toList <+: text) (isPrefix : text.isPrefixOf arg = true) :
      candidate arg = [] := by
    apply candidate_flag
    apply List.isPrefixOf_iff_prefix.mpr
    exact dash.trans (List.isPrefixOf_iff_prefix.mp isPrefix)
  rw [wgetArg]
  split
  · rename_i attached
    rw [dashed _ (by decide) attached, List.append_nil]
  · split
    · rename_i attached
      rw [dashed _ (by decide) attached.1, List.append_nil]
    · exact urls_candidate found arg

theorem curlArg_urls (found : HttpArgs) (arg : Str) :
    (curlArg found arg).urls = found.urls ++ candidate arg := by
  rw [curlArg]
  split
  · rename_i remote
    have none : candidate arg = [] := by
      rcases remote with same | same
      · rw [same]
        rfl
      · rw [same]
        rfl
    rw [none, List.append_nil]
  · split
    · rename_i attached
      have none : candidate arg = [] := by
        apply candidate_flag
        apply List.isPrefixOf_iff_prefix.mpr
        exact List.IsPrefix.trans (by decide) (List.isPrefixOf_iff_prefix.mp attached)
      rw [none, List.append_nil]
    · exact urls_candidate found arg

theorem taken_plain {takesValue : Str → Bool} {arg : Str} (plain : takesValue arg = false)
    (rest : List Str) :
    taken takesValue (arg :: rest) = candidate arg ++ taken takesValue rest := by
  cases rest with
  | nil => exact (List.append_nil _).symm
  | cons next rest => rw [taken, if_neg (by simp [plain])]

/-! ## The first URL -/

theorem candidate_explicit {word : Str} (explicit : IsExplicit word) : candidate word = [word] := by
  rcases explicit with ⟨scheme, rest, known, rfl⟩
  have noFlag : isFlag (scheme ++ ("://".toList ++ rest)) = false := by
    rw [Bool.eq_false_iff]
    intro flag
    have isPrefix := List.isPrefixOf_iff_prefix.mp flag
    cases scheme with
    | nil => revert known; decide
    | cons ch scheme =>
        have same : '-' = ch := (List.cons_prefix_cons.mp isPrefix).1
        rw [← same] at known
        revert known
        simp [SCHEMES]
  have contains : Text.contains "://".toList (scheme ++ ("://".toList ++ rest)) = true := by
    rw [Text.contains_iff_infix]
    exact List.infix_append' _ _ _
  rw [candidate, noFlag, normalizeUrl, if_pos contains]
  rfl

theorem outputOptions_dashed {tool : Tool} {word : Str} (output : word ∈ outputOptions tool) :
    isFlag word = true := by
  cases tool <;> simp only [outputOptions, List.mem_cons, List.not_mem_nil, or_false] at output
  · rcases output with same | same <;> rw [same] <;> rfl
  · rcases output with same | same <;> rw [same] <;> rfl

section

variable {tool : Tool} {options : Options} (documented : Documented tool options)

include documented

theorem taken_before {before : List Argument}
    (legal : ∀ argument ∈ before, argument.Legal options)
    (first : ∀ word, Argument.url word ∉ before)
    (kept : ∀ word value, Argument.valued word value ∈ before → word ∉ outputOptions tool →
      value ∉ outputOptions tool) (rest : List Str) :
    taken (· ∈ outputOptions tool) (before.flatMap Argument.words ++ rest) =
      (strays tool before).map normalizeUrl ++ taken (· ∈ outputOptions tool) rest := by
  induction before with
  | nil => rfl
  | cons argument before induction =>
      have later := induction (fun other member => legal other (List.mem_cons_of_mem _ member))
        (fun word member => first word (List.mem_cons_of_mem _ member))
        (fun word value member => kept word value (List.mem_cons_of_mem _ member))
      have here := legal argument (List.mem_cons_self ..)
      rw [List.flatMap_cons, List.append_assoc]
      cases argument with
      | flag word =>
          have noOutput : word ∉ outputOptions tool := fun output =>
            documented.output word output here
          rw [Argument.words, List.singleton_append, taken_plain (by simpa using noOutput),
            candidate_flag (documented.dashed word (.inl here)), later]
          rfl
      | valued word value =>
          rw [Argument.words, List.cons_append, List.singleton_append]
          by_cases output : word ∈ outputOptions tool
          · have none : stray tool (.valued word value) = none := if_pos (.inl output)
            rw [taken, if_pos (by simpa using output), later, strays, strays,
              List.filterMap_cons_none none]
          · have noOutput := kept word value (List.mem_cons_self ..) output
            rw [taken_plain (by simpa using output),
              candidate_flag (documented.dashed word (.inr here)), List.nil_append,
              taken_plain (by simpa using noOutput), later]
            by_cases flag : isFlag value
            · have none : stray tool (.valued word value) = none := if_pos (.inr flag)
              rw [candidate_flag flag, strays, strays, List.filterMap_cons_none none]
              rfl
            · have some : stray tool (.valued word value) = some value :=
                if_neg (not_or.mpr ⟨output, flag⟩)
              rw [candidate, if_neg flag, strays, strays, List.filterMap_cons_some some]
              rfl
      | url word => exact absurd (List.mem_cons_self ..) (first word)

theorem taken_head {before : List Argument} {url : Str} {after : List Argument}
    (legal : ∀ argument ∈ before ++ .url url :: after, argument.Legal options)
    (first : ∀ word, Argument.url word ∉ before)
    (kept : ∀ word value, Argument.valued word value ∈ before → word ∉ outputOptions tool →
      value ∉ outputOptions tool) :
    (taken (· ∈ outputOptions tool)
      ((before ++ .url url :: after).flatMap Argument.words)).head? =
      some (((strays tool before).map normalizeUrl).headD url) := by
  have explicit : IsExplicit url := legal (.url url) (by simp)
  have noOutput : url ∉ outputOptions tool := by
    intro output
    have flag := outputOptions_dashed output
    have none := candidate_flag flag
    rw [candidate_explicit explicit] at none
    cases none
  have legalBefore : ∀ argument ∈ before, argument.Legal options :=
    fun argument member => legal argument (List.mem_append_left _ member)
  rw [List.flatMap_append, taken_before documented legalBefore first kept, List.flatMap_cons,
    Argument.words, List.singleton_append, taken_plain (by simpa using noOutput),
    candidate_explicit explicit]
  cases (strays tool before).map normalizeUrl <;> rfl

end

/-! ## Reading the line -/

theorem tool_plain {tool : Tool} {ch : Char} (member : ch ∈ tool.text) :
    ch ∉ METACHARACTERS ∧ ch ≠ '\r' ∧ Text.isSpace ch = false := by
  have all : tool.text.all (fun ch =>
      decide (ch ∉ METACHARACTERS ∧ ch ≠ '\r' ∧ Text.isSpace ch = false)) = true := by
    cases tool <;> decide
  exact of_decide_eq_true (List.all_eq_true.mp all ch member)

theorem flatMap_plain (text : Str) :
    (text.map Piece.plain).flatMap Piece.text = text ∧
      (text.map Piece.plain).flatMap Piece.value = text := by
  induction text with
  | nil => exact ⟨rfl, rfl⟩
  | cons ch text induction =>
      rw [List.map_cons, List.flatMap_cons, List.flatMap_cons, induction.1, induction.2]
      exact ⟨rfl, rfl⟩

theorem argsText_head (args : List (Gap × Word)) :
    argsText args = [] ∨ ∃ ch rest, argsText args = ch :: rest ∧ Text.isSpace ch = true := by
  cases args with
  | nil => exact .inl rfl
  | cons arg args =>
      rcases List.exists_cons_of_ne_nil arg.1.started with ⟨ch, blanks, equal⟩
      apply Or.inr
      apply Exists.intro ch
      apply Exists.intro (blanks ++ arg.2.text ++ argsText args)
      constructor
      · rw [argsText, List.flatMap_cons, equal, List.cons_append, List.cons_append]
        rfl
      · apply space_of_blank
        apply arg.1.blank
        rw [equal]
        exact List.mem_cons_self ..

theorem firstWord_tool (tool : Tool) (args : List (Gap × Word)) :
    Text.firstWord (tool.text ++ argsText args) = tool.text := by
  have word : ∀ ch ∈ tool.text, (!Text.isSpace ch) = true := by
    intro ch member
    rw [(tool_plain member).2.2]
    rfl
  rw [Text.firstWord, List.takeWhile_append_of_pos word]
  rcases argsText_head args with none | ⟨ch, rest, equal, space⟩
  · rw [none, List.takeWhile_nil, List.append_nil]
  · rw [equal, List.takeWhile_cons_of_neg (by simp [space]), List.append_nil]

theorem splitPipeline_of_free {line : Str} (free : Unseparated line) :
    splitPipeline line = line := by
  have none : SEPARATORS.findSome? (Text.before? · line) = none := by
    rw [List.findSome?_eq_none_iff]
    intro separator member
    exact Text.before?_eq_none_iff.mpr (free separator member)
  rw [splitPipeline, Text.beforeFirstOf, none]
  rfl

theorem tool_ofText (tool : Tool) : Tool.ofText? tool.text = some tool := by
  cases tool <;> decide

section

variable {urlparse : UrlParse} {tool : Tool} {line : Line}

theorem parse_line (command : line.command.pieces = tool.text.map Piece.plain)
    (unseparated : Unseparated line.text)
    (plain : ∀ arg ∈ line.args, ∀ piece ∈ arg.2.pieces, piece.Plain) (some : line.args ≠ [])
    (closed : ∀ ch ∈ (argsText line.args).getLast?, Text.isSpace ch = false) :
    parseDownloadCommand urlparse line.text =
      parseArgs urlparse line.values line.text tool := by
  have commandText : line.command.text = tool.text := by
    rw [Word.text, command]
    exact (flatMap_plain _).1
  have commandValue : line.command.value = tool.text := by
    rw [Word.value, command]
    exact (flatMap_plain _).2
  have started : tool.text ≠ [] := by cases tool <;> decide
  have argsStarted : argsText line.args ≠ [] := by
    rcases List.exists_cons_of_ne_nil some with ⟨arg, args, equal⟩
    rw [equal, argsText, List.flatMap_cons]
    simp [arg.1.started]
  have stripped : Text.strip line.text = tool.text ++ argsText line.args := by
    rw [Line.text, commandText]
    apply strip_blank line.leadBlank line.trailBlank
    · simp [started]
    · intro ch member
      rw [List.head?_append_of_ne_nil _ started] at member
      exact (tool_plain (List.mem_of_head? member)).2.2
    · rw [List.getLast?_append_of_ne_nil _ argsStarted]
      exact closed
  have commandPlain : ∀ piece ∈ line.command.pieces, piece.Plain := by
    intro piece member
    rw [command] at member
    rcases List.mem_map.mp member with ⟨ch, inTool, rfl⟩
    exact (tool_plain inTool).2.1
  have words := split_words line.command commandPlain plain
  rw [commandText, commandValue] at words
  have visible : tool.text ++ argsText line.args ≠ [] := by simp [started]
  simp only [parseDownloadCommand]
  rw [splitPipeline_of_free unseparated, stripped, if_neg visible, firstWord_tool, tool_ofText]
  simp only [words, tool_ofText]
  rfl

theorem parse_cut {separator : Str} (member : separator ∈ SEPARATORS)
    (isInfix : separator <:+: line.text) :
    parseDownloadCommand urlparse line.text = .ok none := by
  have cut : Shlex.split (Text.strip (splitPipeline line.text)) = none := by
    cases found : SEPARATORS.findSome? (Text.before? · line.text) with
    | none =>
        rw [List.findSome?_eq_none_iff] at found
        exact absurd isInfix (Text.before?_eq_none_iff.mp (found separator member))
    | some before =>
        have each : ∀ other ∈ SEPARATORS, other ≠ [] ∧
            other.head?.all (fun ch => decide (ch ∈ ShellSyntax.SEPARATORS)) = true := by decide
        rcases List.exists_of_findSome?_eq_some found with ⟨other, among, at_⟩
        rcases Text.before?_append at_ with ⟨rest, whole, begins⟩
        rcases List.exists_cons_of_ne_nil (each other among).1 with ⟨ch, more, rfl⟩
        rcases begins with ⟨behind, rfl⟩
        have guarded := line.guarded
        rw [whole] at guarded
        rw [splitPipeline, Text.beforeFirstOf, found, Option.getD_some]
        exact guarded.not_split (of_decide_eq_true (each _ among).2)
  simp only [parseDownloadCommand, cut]
  split
  · rfl
  · split <;> rfl

/-! ## What is fetched -/

theorem parseWget_url {args : List Str} {raw first : Str}
    (head : (taken (· ∈ outputOptions .wget) args).head? = some first) :
    ∃ intent, parseWget args raw = some intent ∧ intent.tool = .wget ∧ intent.url = first := by
  have urls := @scanArgs_urls (· ∈ outputOptions .wget)
    (fun found _ value => { found with outfile := some value }) wgetArg
    (fun _ _ _ => rfl) wgetArg_urls {} args
  have equal : (scanArgs (· ∈ ["-O".toList, "--output-document".toList])
      (fun found _ value => { found with outfile := some value }) wgetArg {} args).urls.head? =
        some first := (congrArg List.head? urls).trans head
  simp only [parseWget, equal]
  exact ⟨_, rfl, rfl, rfl⟩

theorem parseCurl_url {args : List Str} {raw first : Str}
    (head : (taken (· ∈ outputOptions .curl) args).head? = some first) :
    (RemoteNamed args → ∃ parsed, urlparse first = .ok parsed) ∧ (∃ intent,
        parseCurl urlparse args raw = .ok (some intent) ∧ intent.tool = .curl ∧
          intent.url = first) ∨
      ¬ (RemoteNamed args → ∃ parsed, urlparse first = .ok parsed) ∧
        ∃ raised, parseCurl urlparse args raw = .error raised := by
  have urls := @scanArgs_urls (· ∈ outputOptions .curl)
    (fun found _ value => { found with outfile := some value }) curlArg
    (fun _ _ _ => rfl) curlArg_urls {} args
  have equal : (scanArgs (· ∈ ["-o".toList, "--output".toList])
      (fun found _ value => { found with outfile := some value }) curlArg {} args).urls.head? =
        some first := (congrArg List.head? urls).trans head
  simp only [parseCurl, equal]
  split
  · rename_i named
    cases parse : urlparse first with
    | error raised =>
        apply Or.inr
        constructor
        · intro parses
          rcases parses named with ⟨parsed, accepted⟩
          cases accepted
        · exact ⟨raised, rfl⟩
    | ok parsed => exact .inl ⟨fun _ => ⟨parsed, rfl⟩, _, rfl, rfl, rfl⟩
  · rename_i unnamed
    exact .inl ⟨fun named => absurd named unnamed, _, rfl, rfl, rfl⟩

end

/-- Only a line without a text that separates commands fetches the URL, and among those that
are legible it is fetched where no value is taken for it. -/
theorem first_url_fetched {urlparse : UrlParse} {tool : Tool} {options : Options} {line : Line}
    {before : List Argument} {url : Str} {after : List Argument}
    (http : tool = .wget ∨ tool = .curl) (documented : Documented tool options)
    (calls : Calls tool options line before url after) :
    (Fetches urlparse tool line.text url → Unseparated line.text) ∧
      (Legible tool line before → (Fetches urlparse tool line.text url ↔
        Unseparated line.text ∧ FirstTaken tool before url ∧
          Parses urlparse tool line.values url)) := by
  have unseparated : Fetches urlparse tool line.text url → Unseparated line.text := by
    intro fetched separator member isInfix
    rcases fetched with ⟨intent, result, -⟩
    rw [parse_cut member isInfix] at result
    cases result
  apply And.intro unseparated
  intro legible
  have some : line.args ≠ [] := by
    intro none
    have values := calls.values
    rw [Line.values, none, List.flatMap_append, List.flatMap_cons] at values
    have length := congrArg List.length values
    simp [Argument.words] at length
  have first : FirstTaken tool before url ↔
      ((strays tool before).map normalizeUrl).headD url = url := by
    rw [FirstTaken]
    cases strays tool before with
    | nil => simp
    | cons value rest => simp
  have head := taken_head documented calls.legal calls.first legible.kept
  rw [← calls.values] at head
  have reads (free : Unseparated line.text) := @parse_line urlparse tool line calls.command free
    legible.plain some legible.closed
  rw [first]
  rcases http with rfl | rfl
  · rcases @parseWget_url _ line.text _ head with ⟨intent, parsed, isTool, isUrl⟩
    constructor
    · intro fetched
      have free := unseparated fetched
      rcases fetched with ⟨other, result, -, otherUrl⟩
      rw [reads free] at result
      have equal := (Except.ok.inj result).symm.trans parsed
      rw [← isUrl, ← Option.some.inj equal]
      exact ⟨free, otherUrl, fun isCurl => nomatch isCurl⟩
    · intro ⟨free, same, _⟩
      rw [same] at isUrl
      rw [Fetches, reads free]
      exact ⟨intent, congrArg Except.ok parsed, isTool, isUrl⟩
  · rcases @parseCurl_url urlparse _ line.text _ head with
      ⟨parses, intent, parsed, isTool, isUrl⟩ | ⟨unparsed, raised, fails⟩
    · constructor
      · intro fetched
        have free := unseparated fetched
        rcases fetched with ⟨other, result, -, otherUrl⟩
        rw [reads free] at result
        have equal := Option.some.inj (Except.ok.inj (result.symm.trans parsed))
        have same := isUrl.symm.trans ((congrArg DownloadIntent.url equal).symm.trans otherUrl)
        rw [same] at parses
        exact ⟨free, same, fun _ => parses⟩
      · intro ⟨free, same, _⟩
        rw [same] at isUrl
        rw [Fetches, reads free]
        exact ⟨intent, parsed, isTool, isUrl⟩
    · constructor
      · intro fetched
        have free := unseparated fetched
        rcases fetched with ⟨other, result, -⟩
        rw [reads free] at result
        cases result.symm.trans fails
      · intro ⟨_, same, parses⟩
        rw [same] at unparsed
        exact absurd (parses rfl) unparsed

/-! ## Options with and without a value -/

def someOptions : Options where
  alone word := word = "-q".toList
  valued word := word = "-T".toList

theorem documented_someOptions : Documented .wget someOptions := by
  constructor
  · intro word known
    rcases known with same | same
    · rw [show word = "-q".toList from same]
      rfl
    · rw [show word = "-T".toList from same]
      rfl
  · intro word output same
    rw [show word = "-q".toList from same] at output
    revert output
    decide

def wgetLine (args : List Word) : Line where
  lead := []
  command := .ofPlain "wget".toList (by decide)
  args := args.map fun word => (⟨[' '], by decide, by simp [IsBlank]⟩, word)
  trail := []
  leadBlank := by simp
  trailBlank := by simp

def quietLine : Line :=
  wgetLine [.ofPlain "-q".toList (by decide), .ofPlain "http://e/x".toList (by decide)]

def timeoutLine : Line :=
  wgetLine [.ofPlain "-T".toList (by decide), .ofPlain "10".toList (by decide),
    .ofPlain "http://e/x".toList (by decide)]

def parseSample : UrlParse := fun _ =>
  .ok { hostname := some "e".toList, path := "/x".toList, port := .ok none, username := none,
        password := none }

theorem explicit_sample : IsExplicit "http://e/x".toList :=
  ⟨"http".toList, "e/x".toList, by decide, rfl⟩

theorem calls_quietLine :
    Calls .wget someOptions quietLine [.flag "-q".toList] "http://e/x".toList [] := by
  constructor
  · rfl
  · rfl
  · intro argument member
    simp only [List.cons_append, List.nil_append, List.mem_cons, List.not_mem_nil,
      or_false] at member
    rcases member with same | same
    · rw [same]
      rfl
    · rw [same]
      exact explicit_sample
  · simp

theorem calls_timeoutLine : Calls .wget someOptions timeoutLine
    [.valued "-T".toList "10".toList] "http://e/x".toList [] := by
  constructor
  · rfl
  · rfl
  · intro argument member
    simp only [List.cons_append, List.nil_append, List.mem_cons, List.not_mem_nil,
      or_false] at member
    rcases member with same | same
    · rw [same]
      rfl
    · rw [same]
      exact explicit_sample
  · simp

theorem quietLine_fetched :
    Fetches parseSample .wget quietLine.text "http://e/x".toList := by
  have legible : Legible .wget quietLine [.flag "-q".toList] := by
    constructor
    · decide
    · intro ch member
      have last : 'x' = ch := Option.some.inj member
      rw [← last]
      decide
    · simp
  apply ((first_url_fetched (.inl rfl) documented_someOptions calls_quietLine).2 legible).mpr
  constructor
  · rw [Unseparated]
    decide
  · constructor
    · intro value member
      cases member
    · intro isCurl
      cases isCurl

/-- The value of the option is fetched. -/
theorem timeout_fetched : Documented .wget someOptions ∧
    Calls .wget someOptions timeoutLine [.valued "-T".toList "10".toList] "http://e/x".toList [] ∧
    ¬ Fetches parseSample .wget timeoutLine.text "http://e/x".toList := by
  apply And.intro documented_someOptions
  apply And.intro calls_timeoutLine
  intro fetched
  rcases fetched with ⟨intent, result, -, url⟩
  have parsed : parseDownloadCommand parseSample timeoutLine.text =
      .ok (some ⟨.wget, "http://10".toList, none, timeoutLine.text⟩) := by decide +kernel
  rw [parsed] at result
  rw [← Option.some.inj (Except.ok.inj result)] at url
  revert url
  decide

end Downloader

end LlmHoneypot
