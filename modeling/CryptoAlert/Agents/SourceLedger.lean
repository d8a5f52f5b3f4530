import CryptoAlert.Domain.ArtifactCodec
import CryptoAlert.Lib.Interleaving
import CryptoAlert.Providers.CitedNumbers
import CryptoAlert.Providers.RetryPolicy

/-!
# The source ledger of a deep research run

The tool of the research model searches up to three questions and gives back a catalog of the
verified sources. The ledger takes the sources from the lists of the successful searches in turn
and answers every later call with the catalog of the first one. A call holds the lock of the
ledger, so calls follow one another.
-/

namespace CryptoAlert

/-- `SearchEvidenceUnavailable` is another name of it in the providers. -/
abbrev SearchEvidenceUnavailable := ResearchUnavailable

def maxResearchSources : ℕ := 8

def maxSearchQueries : ℕ := 3

/-- The `_SEARCH_PROVIDERS` by their names, and `search` for every other. -/
def searchProviderOf (rawProvider : String) : DeepResearchSearchProvider :=
  let named : List DeepResearchSearchProvider :=
    [.builtinWebSearch, .tavily, .ddgsMetasearch, .deepResearchSearch]
  (named.find? fun provider => provider.name = rawProvider).getD .search

/-- `_SEARCH_ERROR_KINDS` -/
def searchErrorKinds : List (String × DeepResearchSearchErrorKind) :=
  [("APITimeoutError", .timeout), ("TimeoutError", .timeout),
    ("InternalServerError", .serverError), ("RateLimitError", .rateLimited),
    ("APIConnectionError", .connectionError),
    ("UnverifiedServerToolCall", .unverifiedServerToolCall),
    ("MissingProviderCitation", .missingProviderCitation),
    ("MissingVerifiedEvidence", .missingVerifiedEvidence),
    ("InvalidProviderResponse", .invalidProviderResponse),
    ("InvalidProviderEvidence", .invalidProviderResponse),
    ("EmptyProviderResponse", .invalidProviderResponse),
    ("EmptyEvidence", .missingVerifiedEvidence)]

def searchErrorKind (rawErrorType : Option String) : DeepResearchSearchErrorKind :=
  (rawErrorType.bind fun errorType => searchErrorKinds.lookup errorType).getD .providerError

/-- An attempt from one to three, and nothing for any other. -/
def attemptOf (attempt : Option ℤ) : Option QueryCount :=
  attempt.bind fun n =>
    if h : 1 ≤ n ∧ n ≤ 3 then some ⟨n.toNat, by omega, by omega⟩ else none

/-- `_query_failure_from_exception`; `none` where the model refuses the index. -/
def queryFailureFromException (exc : SearchEvidenceUnavailable) (queryIndex : ℕ) :
    Option DeepResearchSearchFailure :=
  if h : 1 ≤ queryIndex ∧ queryIndex ≤ 3 then
    some {
      queryIndex := ⟨queryIndex, h⟩
      provider := searchProviderOf exc.provider
      errorKind := searchErrorKind exc.errorType
      retryable := exc.retryable
      attempt := attemptOf exc.attempt }
  else none

inductive LedgerError where
  | valueError (message : String)
  | unavailable (exc : SearchEvidenceUnavailable)
  | assertionError (message : String)
  /-- A model refuses its fields. -/
  | validationError
deriving DecidableEq

/-- The identity of a source: `(str(item.final_url), item.content_hash)`. -/
def evidenceKey (item : WebEvidence HttpUrl) : String × String :=
  (item.finalUrl.text, item.contentHash)

structure SourceLedger where
  evidence : List (WebEvidence HttpUrl) := []
  coverage : Option DeepResearchSearchCoverage := none
  /-- The JSON value whose text is `_tool_result`. -/
  toolResult : Option Json := none
  seen : List (String × String) := []

/-- What the loop over the queries has found. -/
structure SearchTally where
  firstProviderFailure : Option SearchEvidenceUnavailable := none
  firstMissingFailure : Option SearchEvidenceUnavailable := none
  failures : List DeepResearchSearchFailure := []
  successfulResultSets : List (List (WebEvidence HttpUrl)) := []
  successfulQueries : ℕ := 0

/-- What a search gives for a query. -/
abbrev SearchResult := Except SearchEvidenceUnavailable (List (WebEvidence HttpUrl))

def missingEvidence : SearchEvidenceUnavailable where
  message := "verified search returned no evidence"
  provider := "deep_research_search"
  retryable := true
  errorType := some "MissingVerifiedEvidence"

namespace SearchTally

/-- One round of the loop over the queries. -/
def note (tally : SearchTally) (queryIndex : ℕ) : SearchResult → Except LedgerError SearchTally
  | .error exc =>
    match queryFailureFromException exc queryIndex with
    | none => .error .validationError
    | some failure => .ok { tally with
        firstProviderFailure := tally.firstProviderFailure.or (some exc)
        failures := tally.failures ++ [failure] }
  | .ok [] =>
    match queryFailureFromException missingEvidence queryIndex with
    | none => .error .validationError
    | some failure => .ok { tally with
        firstMissingFailure := tally.firstMissingFailure.or (some missingEvidence)
        failures := tally.failures ++ [failure] }
  | .ok results => .ok { tally with
        successfulQueries := tally.successfulQueries + 1
        successfulResultSets := tally.successfulResultSets ++ [results] }

/-- The loop over the queries, counted from an index on. -/
def noteAll (tally : SearchTally) (queryIndex : ℕ) :
    List SearchResult → Except LedgerError SearchTally
  | [] => .ok tally
  | result :: rest => do (← tally.note queryIndex result).noteAll (queryIndex + 1) rest

end SearchTally

namespace SourceLedger

/-- The body of the loop over the lists, for an item of a list that is not exhausted. -/
def admitItem (ledger : SourceLedger) (item : WebEvidence HttpUrl) : SourceLedger :=
  if maxResearchSources ≤ ledger.evidence.length then ledger
  else if evidenceKey item ∈ ledger.seen then ledger
  else { ledger with
    seen := evidenceKey item :: ledger.seen
    evidence := ledger.evidence ++ [item] }

/-- One round over the lists. -/
def takeTurn (ledger : SourceLedger) (resultOffset : ℕ) :
    List (List (WebEvidence HttpUrl)) → SourceLedger
  | [] => ledger
  | results :: rest =>
    match results[resultOffset]? with
    | none => ledger.takeTurn resultOffset rest
    | some item => (ledger.admitItem item).takeTurn resultOffset rest

/-- The loop over the offsets. -/
def takeTurns (sets : List (List (WebEvidence HttpUrl))) (resultOffset : ℕ)
    (ledger : SourceLedger) : SourceLedger :=
  if h : ledger.evidence.length < maxResearchSources ∧
      ∃ results ∈ sets, resultOffset < results.length then
    takeTurns sets (resultOffset + 1) (ledger.takeTurn resultOffset sets)
  else ledger
termination_by Interleaving.longest sets - resultOffset
decreasing_by
  obtain ⟨results, hmem, hlt⟩ := h.2
  have hle := Interleaving.length_le_longest hmem
  omega

end SourceLedger

/-- `DeepResearchSearchCoverage(…)`; `none` where a field or the whole is refused. -/
def coverageOf (attemptedQueries successfulQueries : ℕ)
    (failures : List DeepResearchSearchFailure) : Option DeepResearchSearchCoverage :=
  if h : (1 ≤ attemptedQueries ∧ attemptedQueries ≤ 3) ∧
      (1 ≤ successfulQueries ∧ successfulQueries ≤ 3) ∧ failures.length ≤ 2 then
    let fields : SearchCoverageFields := {
      complete := failures.isEmpty
      attemptedQueries := ⟨attemptedQueries, h.1⟩
      successfulQueries := ⟨successfulQueries, h.2.1⟩
      failedQueries := ⟨failures, Nat.zero_le _, h.2.2⟩ }
    if hcoherent : fields.Coherent then some ⟨fields, hcoherent⟩ else none
  else none

variable (isoformat : DateTime → String)

/-- An entry of `safe_catalog`. -/
def catalogEntry (index : ℕ) (item : WebEvidence HttpUrl) : Json :=
  .obj [("index", .num index), ("title", .str item.title), ("excerpt", .str item.excerpt),
    ("published_at", match item.publishedAt with
      | some publishedAt => .str (isoformat publishedAt)
      | none => .null)]

/-- `tool_result` -/
def toolResultOf (evidence : List (WebEvidence HttpUrl)) (coverage : DeepResearchSearchCoverage) :
    Json :=
  .obj [("sources", .arr (evidence.zipIdx.map fun item => catalogEntry isoformat (item.2 + 1) item.1)),
    ("coverage", .obj [
      ("status", .str (if coverage.val.complete then "complete" else "partial")),
      ("attempted_queries", .num coverage.val.attemptedQueries.val),
      ("successful_queries", .num coverage.val.successfulQueries.val),
      ("failed_query_indexes", .arr (coverage.val.failedIndexes.map fun index => .num index))])]

/-- How a call of `collect` ends, with the queries that it searched. -/
structure CollectedSources where
  result : Except LedgerError Json
  ledger : SourceLedger
  searched : List (List Char) := []

/-- `list(dict.fromkeys(" ".join(query.split()) for query in queries))` -/
def normalizedQueries (queries : List (List Char)) : List (List Char) :=
  (queries.map WebMarket.joinWords).eraseDups

/-- The rest of `collect`, once all queries are searched. -/
def SourceLedger.complete (ledger : SourceLedger) (attemptedQueries : ℕ) (tally : SearchTally) :
    Except LedgerError Json × SourceLedger :=
  if tally.successfulQueries = 0 then
    match tally.firstProviderFailure, tally.firstMissingFailure with
    | some exc, _ => (.error (.unavailable exc), ledger)
    | none, some exc => (.error (.unavailable exc), ledger)
    | none, none =>
      (.error (.assertionError "verified search completed without an outcome"), ledger)
  else
    let ledger := ledger.takeTurns tally.successfulResultSets 0
    match coverageOf attemptedQueries tally.successfulQueries tally.failures with
    | none => (.error .validationError, ledger)
    | some coverage =>
      let toolResult := toolResultOf isoformat ledger.evidence coverage
      (.ok toolResult, { ledger with coverage := some coverage, toolResult := some toolResult })

/-- `_VerifiedSourceLedger.collect` -/
def SourceLedger.collect (ledger : SourceLedger) (queries : List (List Char))
    (search : List Char → SearchResult) : CollectedSources :=
  let normalized := normalizedQueries queries
  if ¬(1 ≤ normalized.length ∧ normalized.length ≤ maxSearchQueries) then
    ⟨.error (.valueError "verified search requires 1 to 3 unique queries"), ledger, []⟩
  else if ∃ query ∈ normalized, query = [] ∨ 500 < query.length then
    ⟨.error (.valueError "verified search queries must contain 1 to 500 characters"), ledger, []⟩
  else match ledger.toolResult with
    | some toolResult => ⟨.ok toolResult, ledger, []⟩
    | none =>
      match ({} : SearchTally).noteAll 1 (normalized.map search) with
      | .error e => ⟨.error e, ledger, normalized⟩
      | .ok tally =>
        let completed := ledger.complete isoformat normalized.length tally
        ⟨completed.1, completed.2, normalized⟩

/-- `IndexedResearchSource(index=…, evidence=item)`; `none` where the index is refused. -/
def indexedSource (item : WebEvidence HttpUrl) (index : ℕ) :
    Option (IndexedResearchSource HttpUrl) :=
  if h : 1 ≤ index ∧ index ≤ 8 then some ⟨⟨index, h⟩, item⟩ else none

/-- The sources of the catalog, counted from an index on. -/
def indexedSources : ℕ → List (WebEvidence HttpUrl) → Option (List (IndexedResearchSource HttpUrl))
  | _, [] => some []
  | index, item :: rest => do
    let source ← indexedSource item index
    let sources ← indexedSources (index + 1) rest
    return source :: sources

/-- `materialize_deep_research_artifact`; `none` where it raises. -/
def materializeDeepResearchArtifact (report : DeepResearchReport)
    (evidence : List (WebEvidence HttpUrl)) (harnessMode : ResearchHarnessMode)
    (searchCoverage : DeepResearchSearchCoverage) (modelAudits : List ModelExecutionAudit)
    (committed : Bool) : Option (DeepResearchArtifact HttpUrl) :=
  if evidence = [] ∨ maxResearchSources < evidence.length then none
  else do
    let sources ← indexedSources 1 evidence
    if h : 1 ≤ sources.length ∧ sources.length ≤ 8 then
      DeepResearchArtifact.of? {
        committed, harnessMode, searchCoverage, report, modelAudits
        sources := ⟨sources, h⟩ }
    else none

end CryptoAlert
