import CryptoAlert.Domain.DeepResearch
import CryptoAlert.Lib.Collecting
import CryptoAlert.Lib.Decoded
import CryptoAlert.Lib.Integers
import CryptoAlert.Lib.Url
import CryptoAlert.Providers.CitedNumbers
import CryptoAlert.Providers.RetryPolicy

/-!
# The evidence of the search providers

Three parsers read what the providers answer into evidence. A page is known to them by the URL as
the provider wrote it: the check of its host and the test for repetitions look at that text, and
the evidence holds the URL that `HttpUrl` makes of it. The functions of other libraries are
gathered in `Library`; texts are Unicode texts without surrogates.
-/

namespace CryptoAlert.Search

open Collecting
open Decoded (Value Fields valueAt)
open Text (isSpace stripText)
open Url

structure IpAddress where
  isVersion6 : Bool
  isGlobal : Bool

/-- What the parsers call. A parsed URL is equal to another one when their texts are equal. -/
structure Library (U : Type) where
  unicode : Text.UnicodeData
  /-- `ipaddress.ip_address`; `none` for a `ValueError`. -/
  ipAddress : List Char → Option IpAddress
  /-- `HttpUrl`; `none` for a text that it refuses. -/
  httpUrl : List Char → Option U
  scheme : U → List Char
  host : U → List Char
  /-- `str` of a value that is no text. -/
  shown : Value → String
  contentHash : List (List Char) → String
  /-- `datetime.fromisoformat` as the microsecond behind the first of the year 1 at Greenwich, a
  text without an offset read as Greenwich time; `none` for a `ValueError`. -/
  fromIsoformat : List Char → Option ℤ
  dateTime : ℤ → DateTime

inductive Raised where
  | unavailable (exc : ResearchUnavailable)
  | typeError
  | validationError
  | overflowError

abbrev Read := Except Raised

def unavailable (message provider : String) (retryable : Bool) (errorType : String) : Raised :=
  .unavailable { message, provider, retryable, errorType := some errorType }

def reservedEvidenceHosts : List (List Char) :=
  ["localhost", "local", "test", "invalid", "internal", "example", "example.com", "example.net",
    "example.org"].map (·.toList)

def isReserved (host : List Char) : Bool :=
  reservedEvidenceHosts.contains host ||
    reservedEvidenceHosts.any fun reserved => ('.' :: reserved).isSuffixOf host

section Parsers

variable {U : Type} [DecidableEq U] (lib : Library U)

/-- Whether `urlsplit` takes what stands in brackets for a host. -/
def isBracketedHost (host : List Char) : Bool :=
  match host with
  | 'v' :: version =>
      let isHex := fun c : Char => c.isDigit || ('a' ≤ c.toLower && c.toLower ≤ 'f')
      match version.dropWhile isHex with
      | '.' :: address => (version.takeWhile isHex).length != 0 && !address.isEmpty
      | _ => false
  | _ => (lib.ipAddress host).any (·.isVersion6)

/-- The checks that `urlsplit` makes of brackets. -/
def bracketsPass (netloc : List Char) : Bool :=
  if netloc.contains '[' != netloc.contains ']' then false
  else if netloc.contains '[' then
    match partition '[' (netloc.rtakeWhile (· != '@')) with
    | ([], some bracketed) =>
        let (host, port) := partition ']' bracketed
        isBracketedHost lib host && (port.getD []).head?.all (· == ':')
    | _ => false
  else true

/-- `parsed.hostname` for a network location without credentials. -/
def hostname (parts : SplitResult) : Option (List Char) :=
  let host := match partition '[' parts.netloc with
    | (_, some bracketed) => (partition ']' bracketed).1
    | (_, none) => (partition ':' parts.netloc).1
  if host.isEmpty then none
  else some (lib.unicode.lower (host.takeWhile (· != '%')) ++ host.dropWhile (· != '%'))

/-- `_is_public_https_url` -/
def isPublicHttpsUrl (url : List Char) : Bool :=
  match urlsplit lib.unicode url with
  | none => false
  | some parts =>
      if !bracketsPass lib parts.netloc then false
      else
        match hostname lib parts with
        | none => false
        | some host =>
            parts.scheme == "https".toList && !parts.netloc.contains '@' && !isReserved host &&
              (lib.ipAddress host).all (·.isGlobal)

/-- `str(value or "")` -/
def textOr (value : Value) : List Char := if value.isTruthy then value.text lib.shown else []

/-- A piece of evidence; `none` for a `ValidationError`. -/
def webEvidence (query : String) (fetchedAt : ℤ) (url title excerpt : List Char)
    (publishedAt : Option ℤ) (author : Option (List Char)) (hashed : List Char)
    (parserVersion source : String) : Option (WebEvidence U) :=
  (lib.httpUrl url).map fun finalUrl => {
    query, finalUrl, redirectChain := [], httpStatus := none, fetchedAt := lib.dateTime fetchedAt,
    publishedAt := publishedAt.map lib.dateTime,
    contentHash := lib.contentHash [url, title, hashed], parserVersion,
    title := String.ofList title, author := author.map String.ofList, source,
    excerpt := String.ofList excerpt, evidenceRelation := "supports" }

section Builtin

/-- Removes the mark of a list item in front of white space. -/
def dropBullet (s : List Char) : List Char :=
  let rest := match s with
    | [] => none
    | c :: cs =>
        if c == '-' || c == '*' then some cs
        else
          match s.dropWhile lib.unicode.isDecimal with
          | d :: ds => if lib.unicode.isDecimal c && (d == '.' || d == ')') then some ds else none
          | [] => none
  match rest with
  | some (d :: ds) => if isSpace d then ds.dropWhile isSpace else s
  | _ => s

def cleanCitationText (value : List Char) : List Char :=
  stripText (dropBullet lib (stripText (WebMarket.joinWords value)))

/-- `text[start:stop]` -/
def slice (text : List Char) (start stop : ℕ) : List Char := (text.take stop).drop start

def citationExcerpt (text : List Char) (note : Fields) (title : List Char)
    (singleCitation : Bool) : List Char :=
  let fallback := (if singleCitation then cleanCitationText lib text else title).take 1000
  match valueAt note "start_index", valueAt note "end_index" with
  | .int start, .int stop =>
      if start < 0 ∨ stop ≤ start ∨ (text.length : ℤ) ≤ start then fallback
      else
        let start := start.toNat
        let boundedEnd := min stop.toNat text.length
        let annotated := cleanCitationText lib (slice text start boundedEnd)
        if 24 ≤ annotated.length then annotated.take 1000
        else
          let lineStart := start - ((text.take start).rtakeWhile (· != '\n')).length
          let lineEnd := boundedEnd + ((text.drop boundedEnd).takeWhile (· != '\n')).length
          let line := cleanCitationText lib (slice text lineStart lineEnd)
          if !line.isEmpty then line.take 1000 else title.take 1000
  | _, _ => fallback

/-- `_unwrap_content_block` -/
def unwrapContentBlock (block : Value) : Value :=
  match block with
  | .dict fields =>
      match (valueAt fields "type").isText "non_standard", valueAt fields "value" with
      | true, .dict value => .dict value
      | _, _ => block
  | _ => block

/-- `value in {…}`, which wants a value that can be hashed. -/
def memberOf (texts : List String) (value : Value) : Read Bool :=
  if value.isHashable then .ok (texts.any value.isText) else .error .typeError

def isCompleted (fields : Fields) : Read Bool :=
  memberOf ["completed", "success"] (valueAt fields "status")

/-- `any(…)` over blocks. -/
def anyBlock (p : Fields → Read Bool) : List Value → Read Bool
  | [] => .ok false
  | .dict fields :: blocks => do
      if ← p fields then return true
      else anyBlock p blocks
  | _ :: blocks => anyBlock p blocks

def isCall (fields : Fields) : Bool :=
  (valueAt fields "type").isText "server_tool_call" && (valueAt fields "name").isText "web_search"

def successfulWebSearch (blocks : List Value) : Read Bool := do
  let normalized := blocks.map unwrapContentBlock
  if ← anyBlock (fun fields =>
      if (valueAt fields "type").isText "web_search_call" then isCompleted fields else return false)
      normalized then
    return true
  let calls := normalized.filterMap fun block =>
    match block with
    | .dict fields =>
        let id := valueAt fields "id"
        if isCall fields && id.isTruthy then some (id.text lib.shown) else none
    | _ => none
  if ← anyBlock (fun fields =>
      if (valueAt fields "type").isText "server_tool_result" &&
          calls.contains ((valueAt fields "tool_call_id").text lib.shown) then isCompleted fields
      else return false) normalized then
    return true
  anyBlock (fun fields => if isCall fields then isCompleted fields else return false) normalized

structure Citation where
  url : List Char
  title : List Char
  excerpt : List Char

/-- The annotations of a citation type. -/
def citation (note : Value) : Read (Option Fields) :=
  match note with
  | .dict fields => do
      if ← memberOf ["citation", "url_citation"] (valueAt fields "type") then return some fields
      else return none
  | _ => return none

/-- What the loop over the annotations of a text block looks at. -/
def citationsOf (block : Value) : Read (List Citation) :=
  match block with
  | .dict fields =>
      if (valueAt fields "type").isText "text" then do
        let text := stripText (textOr lib (valueAt fields "text"))
        let value := valueAt fields "annotations"
        let annotations ←
          (if value.isTruthy then value.iterate else some []).elim (.error .typeError) .ok
        let cited ← annotations.mapM citation
        let cited := cited.reduceOption
        return cited.filterMap fun note =>
          let url := stripText (textOr lib (valueAt note "url"))
          if isPublicHttpsUrl lib url then
            let title := valueAt note "title"
            let title := stripText (if title.isTruthy then title.text lib.shown else url)
            some ⟨url, title, citationExcerpt lib text note title (cited.length == 1)⟩
          else none
      else return []
  | _ => return []

/-- The public pages that were opened, by the identifier of the call. -/
def openPageCalls (normalized : List Value) : List (List Char × List Char) :=
  normalized.foldl (fun calls block =>
    match block with
    | .dict fields =>
        match isCall fields, valueAt fields "args", valueAt fields "id" with
        | true, .dict args, .str callId =>
            match valueAt args "url" with
            | .str url =>
                if (valueAt args "type").isText "open_page" && isPublicHttpsUrl lib url.toList then
                  (callId.toList, url.toList) :: calls
                else calls
            | _ => calls
        | _, _, _ => calls
    | _ => calls) []

def completedUrl (calls : List (List Char × List Char)) (block : Value) :
    Read (Option (List Char)) :=
  match block with
  | .dict fields =>
      if (valueAt fields "type").isText "server_tool_result" then do
        if ← isCompleted fields then
          return calls.lookup ((valueAt fields "tool_call_id").text lib.shown)
        else return none
      else return none
  | _ => return none

/-- The one completed page that a text names. -/
def matchingUrl (completedUrls : List (List Char)) (block : Value) :
    Option (List Char × List Char) :=
  match block with
  | .dict fields =>
      if (valueAt fields "type").isText "text" then
        let text := cleanCitationText lib (textOr lib (valueAt fields "text"))
        match completedUrls.filter fun url => text.tails.any fun rest => url.isPrefixOf rest with
        | [url] => if text.isEmpty then none else some (url, text)
        | _ => none
      else none
  | _ => none

variable (query : String) (fetchedAt : ℤ)

def openPage (page : List Char × List Char) : Read (Option (WebEvidence U)) :=
  let (url, text) := page
  let host := ((urlsplit lib.unicode url).bind (hostname lib)).getD url
  match webEvidence lib query fetchedAt url host (text.take 1000) none none text
      "openai-responses-open-page-v1" "openai_builtin_web_search" with
  | some item => .ok (some item)
  | none => .error .validationError

def completedOpenPageEvidence (blocks : List Value) : Read (List (WebEvidence U)) := do
  let normalized := blocks.map unwrapContentBlock
  let completed ← normalized.mapM (completedUrl lib (openPageCalls lib normalized))
  collect true Prod.fst (openPage lib query fetchedAt) []
    (normalized.filterMap (matchingUrl lib completed.reduceOption.dedup))

def cite (citation : Citation) : Read (Option (WebEvidence U)) :=
  .ok (webEvidence lib query fetchedAt citation.url citation.title citation.excerpt none none
    citation.excerpt "openai-responses-citation-v1" "openai_builtin_web_search")

/-- An opened page takes the place of the citation of the same page. -/
def replaceCitation (evidence : List (WebEvidence U)) (opened : WebEvidence U) :
    List (WebEvidence U) :=
  evidence.filter (fun item => item.finalUrl ≠ opened.finalUrl) ++ [opened]

/-- What raises ends everything, so the citations of all blocks are read first. -/
def parseBuiltinSearchResponse (allowCompletedOpenPageEvidence : Bool) (blocks : List Value) :
    Read (List (WebEvidence U)) := do
  if !(← successfulWebSearch lib blocks) then
    throw (unavailable ("built-in web search requires a completed server web_search call and " ++
      "provider URL citation") "builtin_web_search" false "UnverifiedServerToolCall")
  let citations ← blocks.mapM (citationsOf lib)
  let evidence ← collect true Citation.url (cite lib query fetchedAt) [] citations.flatten
  let opened ←
    if allowCompletedOpenPageEvidence then completedOpenPageEvidence lib query fetchedAt blocks
    else pure []
  let evidence := opened.foldl replaceCitation evidence
  if evidence.isEmpty then
    throw (unavailable "built-in web search returned no verified provider URL citation"
      "builtin_web_search" false "MissingProviderCitation")
  return evidence

end Builtin

section Results

variable (query : String) (fetchedAt : ℤ)

/-- An answer of the search tool; an error that is an exception comes normalised. -/
inductive TavilyResponse where
  | failed (exc : ResearchUnavailable)
  | value (response : Value)

/-- A result with all that the parser asks for. -/
def tavilyResult (result : Value) : Option Citation :=
  match result with
  | .dict fields =>
      let url := stripText (textOr lib (valueAt fields "url"))
      let title := stripText (textOr lib (valueAt fields "title"))
      let excerpt := stripText (textOr lib (valueAt fields "content"))
      if isPublicHttpsUrl lib url && !title.isEmpty && !excerpt.isEmpty then
        some ⟨url, title, excerpt⟩
      else none
  | _ => none

def tavilyEvidence (result : Citation) : Read (Option (WebEvidence U)) :=
  .ok (webEvidence lib query fetchedAt result.url result.title (result.excerpt.take 1000) none none
    result.excerpt "openai-responses-citation-v1" "tavily")

def tavilyResults (response : TavilyResponse) : Read (List Value) :=
  match response with
  | .failed exc => throw (.unavailable exc)
  | .value (.dict fields) =>
      match valueAt fields "error" with
      | .null =>
          match valueAt fields "results" with
          | .list (result :: results) => return result :: results
          | _ => throw (unavailable "Tavily search returned no results" "tavily" true
              "EmptyProviderResponse")
      | _ => throw (unavailable "Tavily search failed" "tavily" false "ProviderError")
  | .value _ => throw (unavailable "Tavily search returned an invalid response" "tavily" true
      "InvalidProviderResponse")

def parseTavilyResponse (response : TavilyResponse) : Read (List (WebEvidence U)) := do
  let results ← tavilyResults response
  let evidence ← collect true Citation.url (tavilyEvidence lib query fetchedAt) []
    (results.filterMap (tavilyResult lib))
  if evidence.isEmpty then
    throw (unavailable "Tavily search returned no valid URL/title/snippet evidence" "tavily" true
      "InvalidProviderEvidence")
  return evidence

structure DdgsResult extends Citation where
  date : Value
  author : List Char

def ddgsResult (raw : Value) : Option DdgsResult :=
  match raw with
  | .dict fields =>
      let first := fun keys : List String =>
        (((keys.map (valueAt fields)).find? (·.isTruthy)).map (·.text lib.shown)).getD []
      let url := stripText (first ["url", "link", "href"])
      let title := valueAt fields "title"
      let title := stripText (if title.isTruthy then title.text lib.shown else url)
      let excerpt := stripText (first ["body", "snippet"])
      if isPublicHttpsUrl lib url && !excerpt.isEmpty then
        some ⟨⟨url, title, excerpt⟩, valueAt fields "date",
          stripText (textOr lib (valueAt fields "source"))⟩
      else none
  | _ => none

/-- Behind the last microsecond of the year 9999. -/
def instantLimit : ℤ := 315537897600000000

/-- `_provider_datetime` -/
def providerDatetime (value : Value) : Read (Option ℤ) :=
  match value with
  | .str s =>
      let text := stripText s.toList
      if text.isEmpty then return none
      else
        match lib.fromIsoformat (text.flatMap fun c => if c == 'Z' then "+00:00".toList else [c])
            with
        | none => return none
        | some parsed =>
            -- `astimezone` leaves the calendar at its ends.
            if parsed < 0 ∨ instantLimit ≤ parsed then throw .overflowError
            else return if parsed ≤ fetchedAt then some parsed else none
  | _ => return none

def ddgsEvidence (result : DdgsResult) : Read (Option (WebEvidence U)) := do
  let publishedAt ← providerDatetime lib fetchedAt result.date
  return webEvidence lib query fetchedAt result.url result.title (result.excerpt.take 1000)
    publishedAt (if result.author.isEmpty then none else some result.author) result.excerpt
    "ddgs-metasearch-v1" "ddgs_metasearch"

def parseDdgsMetasearchResponse (response : Value) : Read (List (WebEvidence U)) :=
  match response with
  | .list results => do
      let evidence ← collect false (·.url) (ddgsEvidence lib query fetchedAt) []
        (results.filterMap (ddgsResult lib))
      if evidence.isEmpty then
        throw (unavailable "DDGS metasearch returned no valid public HTTPS evidence"
          "ddgs_metasearch" true "EmptyEvidence")
      return evidence
  | _ => throw (unavailable "DDGS metasearch returned an invalid response" "ddgs_metasearch" true
      "InvalidProviderResponse")

end Results

end Parsers

end CryptoAlert.Search
