import CryptoAlert.Domain.Analysis

/-!
# Web evidence and deep research artifacts

A URL is kept in its normalised form, which may be longer than the text it was parsed from.
Reading a dumped URL back succeeds only within the length limit of the URL type, so evidence is
parametrised by the kind of URL it holds: as collected, or as read back from a dump.
-/

namespace CryptoAlert

/-- A parsed URL in normalised form. -/
structure HttpUrl where
  text : String
deriving DecidableEq

/-- A normalised URL within the length limit of the URL type, in bytes. -/
abbrev ReadUrl := {url : HttpUrl // url.text.utf8ByteSize ≤ 2083}

/-- Parsing the dump of a parsed URL gives the URL back unless it has become too long. -/
def HttpUrl.reread (url : HttpUrl) : Option ReadUrl :=
  if h : url.text.utf8ByteSize ≤ 2083 then some ⟨url, h⟩ else none

def ReadUrl.codec : Codec ReadUrl :=
  Codec.text.refine (fun s => HttpUrl.reread ⟨s⟩) (fun url => url.val.text)
    (fun url => dif_pos url.property)

structure WebEvidence (U : Type) where
  query : String
  finalUrl : U
  redirectChain : List U
  httpStatus : Option ℤ
  fetchedAt : DateTime
  publishedAt : Option DateTime
  contentHash : String
  parserVersion : String
  title : String
  author : Option String
  source : String
  excerpt : String
  evidenceRelation : String
deriving DecidableEq

namespace WebEvidence

variable {U V : Type}

def mapUrls (f : U → Option V) (e : WebEvidence U) : Option (WebEvidence V) :=
  (f e.finalUrl).bind fun finalUrl =>
    (e.redirectChain.mapM f).map fun redirectChain =>
      { e with finalUrl, redirectChain }

/-- Validation of the dump of a piece of evidence. -/
def reread (e : WebEvidence HttpUrl) : Option (WebEvidence ReadUrl) := e.mapUrls HttpUrl.reread

def codec : Codec (WebEvidence ReadUrl) :=
  ((Record.field "query" Codec.text).and <|
    (Record.field "final_url" ReadUrl.codec).and <|
    (Record.field "redirect_chain" ReadUrl.codec.list).and <|
    (Record.field "http_status" (Codec.integer.nullable fun _ => nofun)).and <|
    (Record.field "fetched_at" DateTime.codec).and <|
    (Record.field "published_at" (DateTime.codec.nullable fun _ => nofun)).and <|
    (Record.field "content_hash" Codec.text).and <|
    (Record.field "parser_version" Codec.text).and <|
    (Record.field "title" Codec.text).and <|
    (Record.field "author" (Codec.text.nullable fun _ => nofun)).and <|
    (Record.field "source" Codec.text).and <|
    (Record.field "excerpt" Codec.text).and <|
    Record.field "evidence_relation" Codec.text).iso
    (fun e => (e.query, e.finalUrl, e.redirectChain, e.httpStatus, e.fetchedAt, e.publishedAt,
      e.contentHash, e.parserVersion, e.title, e.author, e.source, e.excerpt,
      e.evidenceRelation))
    (fun (query, url, chain, status, fetched, published, hash, version, title, author, source,
      excerpt, relation) => ⟨query, url, chain, status, fetched, published, hash, version, title,
        author, source, excerpt, relation⟩)
    (fun _ => rfl) |>.codec (by decide)

end WebEvidence

abbrev BoundedList (α : Type) (min max : ℕ) := {l : List α // min ≤ l.length ∧ l.length ≤ max}

def BoundedList.codec {α : Type} (min max : ℕ) (c : Codec α) : Codec (BoundedList α min max) :=
  c.list.subtype _

abbrev SourceIndex := {n : ℕ // 1 ≤ n ∧ n ≤ 8}

def SourceIndex.codec : Codec SourceIndex := Codec.natural.subtype _

structure CitedResearchFinding where
  claim : BoundedText 1 2000
  sourceIndexes : {l : BoundedList SourceIndex 1 8 // l.val.Nodup}
deriving DecidableEq

def CitedResearchFinding.codec : Codec CitedResearchFinding :=
  ((Record.field "claim" (BoundedText.codec 1 2000)).and <|
    Record.field "source_indexes" ((BoundedList.codec 1 8 SourceIndex.codec).subtype _)).iso
    (fun f => (f.claim, f.sourceIndexes)) (fun (claim, indexes) => ⟨claim, indexes⟩)
    (fun _ => rfl) |>.codec (by decide)

structure ResearchSection where
  title : BoundedText 1 200
  summary : BoundedText 1 4000
  findings : BoundedList CitedResearchFinding 1 12
deriving DecidableEq

def ResearchSection.codec : Codec ResearchSection :=
  ((Record.field "title" (BoundedText.codec 1 200)).and <|
    (Record.field "summary" (BoundedText.codec 1 4000)).and <|
    Record.field "findings" (BoundedList.codec 1 12 CitedResearchFinding.codec)).iso
    (fun s => (s.title, s.summary, s.findings))
    (fun (title, summary, findings) => ⟨title, summary, findings⟩)
    (fun _ => rfl) |>.codec (by decide)

structure DeepResearchReport where
  executiveSummary : BoundedText 1 6000
  sections : BoundedList ResearchSection 1 8
  riskNotes : BoundedList String 0 12
  evidenceGaps : BoundedList String 0 12
deriving DecidableEq

def DeepResearchReport.codec : Codec DeepResearchReport :=
  ((Record.field "executive_summary" (BoundedText.codec 1 6000)).and <|
    (Record.field "sections" (BoundedList.codec 1 8 ResearchSection.codec)).and <|
    (Record.field "risk_notes" (BoundedList.codec 0 12 Codec.text)).and <|
    Record.field "evidence_gaps" (BoundedList.codec 0 12 Codec.text)).iso
    (fun r => (r.executiveSummary, r.sections, r.riskNotes, r.evidenceGaps))
    (fun (summary, sections, notes, gaps) => ⟨summary, sections, notes, gaps⟩)
    (fun _ => rfl) |>.codec (by decide)

def DeepResearchReport.referencedSourceIndexes (r : DeepResearchReport) : List ℕ :=
  r.sections.val.flatMap fun s =>
    s.findings.val.flatMap fun f => f.sourceIndexes.val.val.map Subtype.val

structure IndexedResearchSource (U : Type) where
  index : SourceIndex
  evidence : WebEvidence U
deriving DecidableEq

def IndexedResearchSource.codec : Codec (IndexedResearchSource ReadUrl) :=
  ((Record.field "index" SourceIndex.codec).and <|
    Record.field "evidence" WebEvidence.codec).iso
    (fun s => (s.index, s.evidence)) (fun (index, evidence) => ⟨index, evidence⟩)
    (fun _ => rfl) |>.codec (by decide)

inductive DeepResearchSearchProvider where
  | builtinWebSearch | tavily | ddgsMetasearch | deepResearchSearch | search
deriving DecidableEq, Repr

def DeepResearchSearchProvider.name : DeepResearchSearchProvider → String
  | builtinWebSearch => "builtin_web_search"
  | tavily => "tavily"
  | ddgsMetasearch => "ddgs_metasearch"
  | deepResearchSearch => "deep_research_search"
  | search => "search"

def DeepResearchSearchProvider.codec : Codec DeepResearchSearchProvider :=
  Codec.enum [builtinWebSearch, tavily, ddgsMetasearch, deepResearchSearch, search] name
    (by intro a; cases a <;> decide)

inductive DeepResearchSearchErrorKind where
  | timeout | serverError | rateLimited | connectionError | unverifiedServerToolCall
  | missingProviderCitation | missingVerifiedEvidence | invalidProviderResponse | providerError
deriving DecidableEq, Repr

def DeepResearchSearchErrorKind.name : DeepResearchSearchErrorKind → String
  | timeout => "timeout"
  | serverError => "server_error"
  | rateLimited => "rate_limited"
  | connectionError => "connection_error"
  | unverifiedServerToolCall => "unverified_server_tool_call"
  | missingProviderCitation => "missing_provider_citation"
  | missingVerifiedEvidence => "missing_verified_evidence"
  | invalidProviderResponse => "invalid_provider_response"
  | providerError => "provider_error"

def DeepResearchSearchErrorKind.codec : Codec DeepResearchSearchErrorKind :=
  Codec.enum [timeout, serverError, rateLimited, connectionError, unverifiedServerToolCall,
    missingProviderCitation, missingVerifiedEvidence, invalidProviderResponse, providerError] name
    (by intro a; cases a <;> decide)

abbrev QueryCount := {n : ℕ // 1 ≤ n ∧ n ≤ 3}

structure DeepResearchSearchFailure where
  queryIndex : QueryCount
  provider : DeepResearchSearchProvider
  errorKind : DeepResearchSearchErrorKind
  retryable : Bool
  attempt : Option QueryCount
deriving DecidableEq

def DeepResearchSearchFailure.codec : Codec DeepResearchSearchFailure :=
  ((Record.field "query_index" (Codec.natural.subtype _ : Codec QueryCount)).and <|
    (Record.field "provider" DeepResearchSearchProvider.codec).and <|
    (Record.field "error_kind" DeepResearchSearchErrorKind.codec).and <|
    (Record.field "retryable" Codec.bool).and <|
    Record.field "attempt" ((Codec.natural.subtype _ : Codec QueryCount).nullable fun _ => nofun)).iso
    (fun f => (f.queryIndex, f.provider, f.errorKind, f.retryable, f.attempt))
    (fun (index, provider, kind, retryable, attempt) =>
      ⟨index, provider, kind, retryable, attempt⟩)
    (fun _ => rfl) |>.codec (by decide)

/-- `complete` says whether the status is `complete` rather than `partial`. -/
structure SearchCoverageFields where
  complete : Bool
  attemptedQueries : QueryCount
  successfulQueries : QueryCount
  failedQueries : BoundedList DeepResearchSearchFailure 0 2
deriving DecidableEq

def SearchCoverageFields.failedIndexes (c : SearchCoverageFields) : List ℕ :=
  c.failedQueries.val.map (·.queryIndex.val)

/-- The check `require_coherent_query_coverage`. -/
def SearchCoverageFields.Coherent (c : SearchCoverageFields) : Prop :=
  c.failedIndexes.Pairwise (· < ·) ∧ (∀ i ∈ c.failedIndexes, i ≤ c.attemptedQueries.val) ∧
    c.successfulQueries.val + c.failedIndexes.length = c.attemptedQueries.val ∧
    (c.complete = true ↔ c.failedIndexes = [])

instance (c : SearchCoverageFields) : Decidable c.Coherent :=
  inferInstanceAs (Decidable (_ ∧ _ ∧ _ ∧ _))

abbrev DeepResearchSearchCoverage := {c : SearchCoverageFields // c.Coherent}

def DeepResearchSearchCoverage.codec : Codec DeepResearchSearchCoverage :=
  (((Record.field "status" (Codec.enum [true, false]
      (fun complete => if complete then "complete" else "partial") (by decide))).and <|
    (Record.field "attempted_queries" (Codec.natural.subtype _ : Codec QueryCount)).and <|
    (Record.field "successful_queries" (Codec.natural.subtype _ : Codec QueryCount)).and <|
    Record.field "failed_queries"
      (BoundedList.codec 0 2 DeepResearchSearchFailure.codec)).iso
    (fun c => (c.complete, c.attemptedQueries, c.successfulQueries, c.failedQueries))
    (fun (complete, attempted, successful, failed) => ⟨complete, attempted, successful, failed⟩)
    (fun _ => rfl) |>.codec (by decide)).subtype _

end CryptoAlert
