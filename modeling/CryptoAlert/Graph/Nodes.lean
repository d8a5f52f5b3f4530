import CryptoAlert.Graph.State
import CryptoAlert.Lib.Url
import Mathlib.Data.List.Sort

/-!
# The nodes of the analysis graph

A node reads the channels and returns their new values together with the events it emits;
`none` means that an exception escapes. A node that reads a channel without a default raises
where the channel was never written.
-/

namespace CryptoAlert

abbrev NodeResult := Option (AnalysisState × List ProductEvent)

namespace ProvidedSnapshot

def positive? (d : Decimal) : Option PositiveDecimal := if h : 0 < d.value then some ⟨d, h⟩ else none

def nonNegative? (d : Decimal) : Option NonNegativeDecimal :=
  if h : 0 ≤ d.value then some ⟨d, h⟩ else none

def priceLevel? (level : Decimal × Decimal) : Option PriceLevel := do
  let price ← positive? level.1
  let size ← positive? level.2
  return ⟨price, size⟩

section Ranges

variable {openPrice high low close : PositiveDecimal}
  (h : (openPrice.val.value ≤ high.val.value ∧ close.val.value ≤ high.val.value) ∧
    (low.val.value ≤ openPrice.val.value ∧ low.val.value ≤ close.val.value))

include h

theorem highRange : openPrice.val.value ≤ high.val.value ∧ close.val.value ≤ high.val.value := h.1

theorem lowRange : low.val.value ≤ openPrice.val.value ∧ low.val.value ≤ close.val.value := h.2

end Ranges

def candle? (candle : DateTime × Decimal × Decimal × Decimal × Decimal × Decimal) :
    Option Candle := do
  let (timestamp, openPrice, high, low, close, volume) := candle
  let openPrice ← positive? openPrice
  let high ← positive? high
  let low ← positive? low
  let close ← positive? close
  let volume ← nonNegative? volume
  if h : (openPrice.val.value ≤ high.val.value ∧ close.val.value ≤ high.val.value) ∧
      (low.val.value ≤ openPrice.val.value ∧ low.val.value ≤ close.val.value) then
    some ⟨timestamp, openPrice, high, low, close, volume, highRange h, lowRange h⟩
  else none

/-- `_to_domain_snapshot`. -/
def toDomain : ProvidedSnapshot → Option MarketSnapshot
  | domain snapshot => some snapshot
  | provider snapshot => do
      let symbol ← Symbol.codec.read (.str snapshot.symbol)
      let sourceLevel ← SourceLevel.codec.read (.str snapshot.sourceLevel)
      let last ← positive? snapshot.tickerLast
      let markPrice ← positive? snapshot.markPrice
      let indexPrice ← positive? snapshot.indexPrice
      let openInterest ← nonNegative? snapshot.openInterest
      let bids ← snapshot.bids.mapM priceLevel?
      let asks ← snapshot.asks.mapM priceLevel?
      let candles ← snapshot.candles.mapM candle?
      return {
        symbol, fetchedAt := snapshot.fetchedAt, sourceLevel,
        ticker := some ⟨last, none, none, none, nofun⟩, markPrice, indexPrice,
        fundingRate := snapshot.fundingRate, openInterest, orderBook := some ⟨bids, asks⟩,
        candles }

end ProvidedSnapshot

/-- Evidence read back from the channel and new evidence, without repetitions of a page. -/
def mergeWebEvidence (existing incoming : List (WebEvidence HttpUrl)) :
    Option (List (WebEvidence HttpUrl)) :=
  if existing.all fun e => e.reread.isSome then
    some ((existing ++ incoming).eraseDupsBy fun e f =>
      (e.finalUrl, e.contentHash) == (f.finalUrl, f.contentHash))
  else none

/-- The evidence that may influence the analysis. No character but the ASCII letters themselves
folds to a letter of `excluded`. -/
def effectiveWebEvidence (evidence : List (WebEvidence HttpUrl)) : List (WebEvidence HttpUrl) :=
  evidence.filter fun e =>
    let relation := (e.evidenceRelation.toList.dropWhile Text.isSpace).rdropWhile Text.isSpace
    relation.map Char.toLower ≠ "excluded".toList

/-- The usage event of a list of audits. -/
def usageEvent (sequence : ℕ) (audits : List ModelExecutionAudit) : ProductEvent :=
  let total := fun field : ModelExecutionAudit → Option ℕ =>
    let values := audits.filterMap field
    if values.isEmpty then none else some values.sum
  .usage sequence (audits.map (·.callCount)).sum (total (·.inputTokens)) (total (·.outputTokens))
    (total (·.totalTokens)) ((audits.map (·.promptVersion.val)).dedup.insertionSort (· ≤ ·))

/-- The end of a node that classifies a failure. -/
def failed (s : AnalysisState) (sequence : ℕ) (phase : Phase) (error : GraphError) : NodeResult :=
  some ({ s with terminalStatus := some .failed, errors := [error] },
    [.taskProgress sequence phase .failed])

section Requests

variable (u : Text.UnicodeData)

def RequestFields.analysis (r : RequestFields) : Option AnalysisRequest :=
  if r.taskType = .marketAnalysis then
    AnalysisRequest.validate u r.symbol r.horizon r.queryText r.notify
  else none

def RequestFields.deepResearch (r : RequestFields) : Option DeepResearchRequest :=
  if r.taskType = .deepResearch then
    DeepResearchRequest.validate u r.symbol r.horizon r.queryText
  else none

/-- The dump of a validated request. -/
def RequestFields.validated (r : RequestFields) : Option RequestFields :=
  match r.taskType with
  | .deepResearch => (r.deepResearch u).map fun q =>
      ⟨.deepResearch, q.symbol, q.horizon.val, q.queryText, false⟩
  | .marketAnalysis => (r.analysis u).map fun q =>
      ⟨.marketAnalysis, q.symbol, q.horizon.val, q.queryText, q.notify⟩

variable {u} in
theorem RequestFields.analysis_identity {r : RequestFields} {q : AnalysisRequest}
    (h : r.analysis u = some q) :
    r.taskType = .marketAnalysis ∧ q.symbol = r.symbol ∧ q.horizon.val = r.horizon := by
  unfold analysis at h
  split_ifs at h with htask
  exact ⟨htask, AnalysisRequest.validate_identity u h⟩

variable {u} in
theorem RequestFields.deepResearch_identity {r : RequestFields} {q : DeepResearchRequest}
    (h : r.deepResearch u = some q) :
    r.taskType = .deepResearch ∧ q.symbol = r.symbol ∧ q.horizon.val = r.horizon := by
  unfold deepResearch at h
  split_ifs at h with htask
  exact ⟨htask, DeepResearchRequest.validate_identity u h⟩

variable {u} in
/-- Validation keeps the identity of a request. -/
theorem RequestFields.validated_identity {r q : RequestFields} (h : r.validated u = some q) :
    q.taskType = r.taskType ∧ q.symbol = r.symbol ∧ q.horizon = r.horizon := by
  unfold validated at h
  split at h
  · obtain ⟨request, hrequest, rfl⟩ := Option.map_eq_some_iff.mp h
    obtain ⟨htask, hsymbol, hhorizon⟩ := deepResearch_identity hrequest
    exact ⟨htask.symm, hsymbol, hhorizon⟩
  · obtain ⟨request, hrequest, rfl⟩ := Option.map_eq_some_iff.mp h
    obtain ⟨htask, hsymbol, hhorizon⟩ := analysis_identity hrequest
    exact ⟨htask.symm, hsymbol, hhorizon⟩

def effectivePolicy (cfg : GraphConfig) (s : AnalysisState) : ReviewPolicy :=
  if s.reviewPolicy = some .required ∨ cfg.serverReviewPolicy = .required then .required
  else .bypass

def validateRequest (cfg : GraphConfig) (s : AnalysisState) : NodeResult := do
  let raw ← s.request
  let request ← raw.validated u
  return ({ s with
      request := some request, taskType := some request.taskType,
      reviewPolicy := some (effectivePolicy cfg s), reviewAction := none, reviewEdits := none,
      reviewComment := none, reviewIteration := 0, terminalStatus := some .running, errors := [] },
    [.taskProgress 10 .requestValidated .active, .notification 11 request.notify])

end Requests

section DeepResearch

/-- `_deep_research_failure_error`. -/
def deepResearchFailureError (cfg : GraphConfig) (e : CollaboratorError) : GraphError where
  code := "deep_research_unavailable"
  errorType := some e.reportedType
  retryable := e.retryable
  provider := some <|
    match e.kind with
    | .searchEvidenceUnavailable => (e.provider.filter fun p => !p.isEmpty).getD "search"
    | .searchReadiness => "search_readiness"
    | .toolCallLimit => "deepagents"
    | .other => "model"
  endpoint := some <|
    match e.kind with
    | .searchEvidenceUnavailable => "verified_web_search"
    | .searchReadiness => "startup_probe"
    | .toolCallLimit => "delegation_budget"
    | .other => "deep_research_model"
  attempt := e.attempt.filter fun n => 1 ≤ n && n ≤ 100
  correlationId := cfg.correlationId.filter fun c => !c.isEmpty

def runDeepResearch (u : Text.UnicodeData) (cfg : GraphConfig) (ext : Externals)
    (s : AnalysisState) : NodeResult := do
  let raw ← s.request
  let _ ← raw.deepResearch u
  match ext.deepResearch with
  | none =>
      failed s 20 .deepResearch
        { code := "deep_research_unavailable", errorType := some "MissingDeepResearchRuntime",
          retryable := false }
  | some (.error e) =>
      (failed s 20 .deepResearch (deepResearchFailureError cfg e)).map fun (s, events) =>
        (s, .taskProgress 20 .deepResearch .active :: events)
  | some (.ok result) =>
      let artifact ← result.artifact.reread
      let draft ← DeepResearchArtifact.of? { artifact.val with committed := false }
      return ({ s with
          deepResearchArtifact := some draft, webEvidence := result.evidence,
          modelAudits := result.modelAudits },
        [.taskProgress 20 .deepResearch .active,
          .taskProgress 30 .deepResearchDraftReady .complete,
          .evidence 31 .collected result.evidence.length none, usageEvent 32 result.modelAudits,
          .artifact 33 false 1])

end DeepResearch

section Collection

/-- `_market_provider_failure`. -/
def marketProviderFailure (e : ProviderUnavailable) : GraphError where
  code := "provider_unavailable"
  provider := some e.provider
  endpoint := some e.endpoint
  retryable := e.retryable
  correlationId := some e.correlationId

/-- Whether the web search may stand in for the market provider. -/
def ProviderUnavailable.allowsFallback (e : ProviderUnavailable) : Bool :=
  e.provider == "okx" && e.retryable && e.retryExhausted

def fallbackFailure (primary : ProviderUnavailable) (e : CollaboratorError) : GraphError where
  code := "provider_unavailable"
  provider := some (e.provider.getD "builtin_web_search")
  endpoint := some "web_search_market"
  errorType := some e.reportedType
  retryable := e.retryable
  fallbackFrom := some primary.provider
  primaryAttempt := primary.attempt
  correlationId := some primary.correlationId

/-- The fallback collector, where there is one and the failure allows it. -/
def fallbackFor (ext : Externals) (e : ProviderUnavailable) :
    Option (Except CollaboratorError WebMarketResult) :=
  if e.allowsFallback then ext.fallback else none

def collectMarketSnapshot (u : Text.UnicodeData) (ext : Externals) (s : AnalysisState) :
    NodeResult := do
  let raw ← s.request
  let _ ← raw.analysis u
  match ext.market with
  | .ok provided =>
      let snapshot ← provided.toDomain
      return ({ s with marketSnapshot := some snapshot },
        [.taskProgress 20 .marketCollected .complete])
  | .error primary =>
      match fallbackFor ext primary with
      | none => failed s 20 .marketCollection (marketProviderFailure primary)
      | some (.error e) => failed s 20 .marketCollection (fallbackFailure primary e)
      | some (.ok result) =>
          return ({ s with
              marketSnapshot := some result.snapshot, webEvidence := result.evidence,
              modelAudits := [result.modelAudit] },
            [.taskProgress 20 .marketCollected .complete])

def researchFailure (e : CollaboratorError) : GraphError where
  code := "research_unavailable"
  endpoint := some "research_events"
  errorType := some e.reportedType
  retryable := e.retryable
  provider := e.provider.filter fun p => !p.isEmpty
  attempt := e.attempt.filter fun n => 0 < n

def researchEvents (u : Text.UnicodeData) (ext : Externals) (s : AnalysisState) : NodeResult := do
  let raw ← s.request
  let _ ← raw.analysis u
  match ext.research with
  | .error e => failed s 30 .researchCollection (researchFailure e)
  | .ok result =>
      let merged ← mergeWebEvidence s.webEvidence result.evidence
      return ({ s with
          researchBundle := some result.bundle, webEvidence := merged,
          modelAudits := s.modelAudits ++ result.modelAudit.toList },
        [.taskProgress 30 .researchCollected .complete,
          .evidence 31 .collected (effectiveWebEvidence merged).length none])

end Collection

section Analysis

def AnalysisError.record : AnalysisError → GraphError
  | invalidOutput typeName =>
      { code := "model_invalid_output", errorType := some typeName, retryable := false }
  | transient typeName =>
      { code := "model_unavailable", errorType := some typeName, retryable := true }
  | other typeName =>
      { code := "model_unavailable", errorType := some typeName, retryable := false }

def outputMismatch (field expected actual : String) : GraphError :=
  { code := "model_output_mismatch", retryable := false, field, expected, actual }

def analyzeMarket (u : Text.UnicodeData) (ext : Externals) (s : AnalysisState) : NodeResult := do
  let raw ← s.request
  let snapshot ← s.marketSnapshot
  let bundle ← s.researchBundle
  match ext.analysis with
  | .error e => failed s 40 .analysis e.record
  | .ok (analysis, audit) =>
      let request ← raw.analysis u
      if analysis.instrument ≠ request.symbol then
        failed s 40 .analysis
          (outputMismatch "instrument" request.symbol.name analysis.instrument.name)
      else if analysis.horizon.val ≠ request.horizon.val then
        failed s 40 .analysis
          (outputMismatch "horizon" request.horizon.val analysis.horizon.val)
      else
        let unavailableData := deriveUnavailableData snapshot bundle
          (effectiveWebEvidence s.webEvidence).length
        let audits := s.modelAudits ++ [audit]
        return ({ s with
            modelAudits := audits, analysis := some { analysis with unavailableData } },
          [.taskProgress 40 .analysisCompleted .complete, usageEvent 41 audits])

def validateEvidence (s : AnalysisState) : NodeResult := do
  let snapshot ← s.marketSnapshot
  let bundle ← s.researchBundle
  let analysis ← s.analysis
  let verdict := checkEvidenceSufficiency snapshot bundle analysis.mainAction
  let offset := s.reviewIteration * 100
  return ({ s with evidenceVerdict := some verdict },
    [.taskProgress (50 + offset) .evidenceValidated
        (if verdict.sufficient then .complete else .blocked),
      .evidence (51 + offset) .validated (effectiveWebEvidence s.webEvidence).length
        (some verdict.sufficient)])

def applyRisk (s : AnalysisState) : NodeResult := do
  let analysis ← s.analysis
  let evidence ← s.evidenceVerdict
  let verdict := applyRiskPolicy analysis evidence .default
  let offset := s.reviewIteration * 100
  return ({ s with
      riskVerdict := some verdict,
      terminalStatus := some (if verdict.allowed then .running else .blocked) },
    [.taskProgress (60 + offset) .riskValidated (if verdict.allowed then .complete else .blocked),
      .quality (61 + offset) evidence.sufficient verdict.allowed verdict.warnings.length
        verdict.blockedReasons.length])

/-- The distinct non-empty names in order, joined, or a default. -/
def joinedNames (names : List String) (default : String) : String :=
  let joined := ", ".intercalate
    ((names.filter fun n => !n.isEmpty).dedup.insertionSort (· ≤ ·))
  if joined.isEmpty then default else joined

/-- `none` where the URL cannot be split; the inner option is the host. -/
def endpointHost (u : Text.UnicodeData) (cfg : GraphConfig) : Option (Option String) :=
  match cfg.openaiBaseUrl.filter fun url => !url.isEmpty with
  | none => some none
  | some url => (Url.urlsplit u url.toList).map fun parts =>
      (parts.hostname u).map String.ofList

def artifactProvenance (u : Text.UnicodeData) (cfg : GraphConfig) (level : SourceLevel)
    (evidence : List (WebEvidence HttpUrl)) (modelAudits : List ModelExecutionAudit) :
    Option ArtifactProvenance := do
  let host ← endpointHost u cfg
  let controlled := level = .controlledDependency
  let marketProvider ← BoundedText.of? 1 64 <|
    if controlled then "controlled_dependency"
    else if level = .webSearchVerified then "web_search_market" else "okx"
  let searchProvider ← BoundedText.of? 1 128
    (joinedNames (evidence.map (·.source)) cfg.searchProvider)
  let searchParserVersion ← BoundedText.of? 1 128
    (joinedNames (evidence.map (·.parserVersion)) "unavailable")
  let modelProvider ← BoundedText.of? 1 64 <|
    if controlled then "controlled_dependency"
    else if (cfg.openaiBaseUrl.filter fun url => !url.isEmpty).isSome then "openai-compatible"
    else "openai"
  let modelName ← BoundedText.of? 1 128
    (if controlled then "controlled-dependency-test" else cfg.modelName)
  let modelEndpointHost ← (if controlled then none else host).mapM (BoundedText.of? 0 255)
  return {
    marketProvider, searchProvider, searchParserVersion, modelProvider, modelName,
    modelEndpointHost, modelAudits }

def buildArtifact (u : Text.UnicodeData) (cfg : GraphConfig) (s : AnalysisState) :
    NodeResult := do
  let snapshot ← s.marketSnapshot
  let analysis ← s.analysis
  let evidenceVerdict ← s.evidenceVerdict
  let riskVerdict ← s.riskVerdict
  let evidence := effectiveWebEvidence s.webEvidence
  let provenance ← artifactProvenance u cfg snapshot.sourceLevel evidence s.modelAudits
  let offset := s.reviewIteration * 100
  return ({ s with
      artifact := some {
        schemaVersion := "1.0", contentVersion := ⟨1, le_refl 1⟩, status := .draft, analysis,
        evidenceVerdict, riskVerdict, sourceReferences := evidence.map (·.finalUrl.text),
        provenance := some provenance } },
    [.taskProgress (70 + offset) .artifactBuilt .complete, .artifact (71 + offset) false 1])

end Analysis

section Review

/-- The node `review_policy`. -/
def reviewPolicyNode (s : AnalysisState) : NodeResult :=
  let offset := s.reviewIteration * 100
  some (s, [match s.reviewPolicy with
    | some .required => .taskProgress (80 + offset) .reviewRequired .active
    | _ => .taskProgress (80 + offset) .reviewBypass .complete])

/-- The payload with which `interrupt_review` pauses. -/
def reviewPayload (u : Text.UnicodeData) (s : AnalysisState) : Option ReviewPayload :=
  let iteration : PositiveInteger := ⟨s.reviewIteration + 1, by omega⟩
  if s.taskType = some .deepResearch then do
    let raw ← s.request
    let request ← raw.deepResearch u
    let horizon ← StrippedText.of? 1 32 request.horizon.val
    let artifact ← s.deepResearchArtifact
    if h : artifact.val.committed = false then
      some (.deepResearch ⟨request.symbol, horizon, iteration, artifact, h⟩)
    else none
  else do
    let artifact ← s.artifact
    if h : artifact.status = .draft then some (.artifact ⟨iteration, artifact, h⟩) else none

def ReviewAction.phase : ReviewAction → Phase
  | approve => .reviewApprove
  | reject => .reviewReject
  | edit => .reviewEdit

/-- What `interrupt_review` does with a validated response. -/
def resumeReview (response : ReviewResponse) (s : AnalysisState) :
    AnalysisState × List ProductEvent :=
  ({ s with
      reviewAction := some response.action, reviewEdits := response.edits,
      reviewComment := response.comment.map Subtype.val,
      reviewIteration := s.reviewIteration + 1 },
    [.taskProgress (81 + s.reviewIteration * 100) response.action.phase
      (if response.action = .reject then .blocked else .complete)])

def applyEdits (s : AnalysisState) : NodeResult :=
  let events : List ProductEvent :=
    [.taskProgress (82 + (s.reviewIteration - 1) * 100) .reviewEditsApplied .complete]
  if s.taskType = some .deepResearch then
    match s.reviewEdits with
    | some (.deepResearch report) => do
        let current ← s.deepResearchArtifact
        let artifact ← DeepResearchArtifact.of? { current.val with committed := false, report }
        return ({ s with deepResearchArtifact := some artifact }, events)
    | _ => none
  else
    match s.reviewEdits with
    | some (.artifact edits) => do
        let current ← s.analysis
        let analysis ← edits.val.apply current
        return ({ s with analysis := some analysis }, events)
    | _ => none

/-- `commit_deep_research_artifact`. -/
def commitDeepResearchArtifact (a : DeepResearchArtifact ReadUrl) :
    Option (DeepResearchArtifact ReadUrl) :=
  if a.val.committed then none else DeepResearchArtifact.of? { a.val with committed := true }

def commitArtifact (s : AnalysisState) : NodeResult :=
  let offset := s.reviewIteration * 100
  let committed := fun version : ℤ => ([.taskProgress (90 + offset) .artifactCommitted .complete,
    .artifact (91 + offset) true version] : List ProductEvent)
  if s.taskType = some .deepResearch then do
    let draft ← s.deepResearchArtifact
    let artifact ← commitDeepResearchArtifact draft
    return ({ s with deepResearchArtifact := some artifact }, committed 1)
  else do
    let draft ← s.artifact
    return ({ s with artifact := some { draft with status := .committed } },
      committed draft.contentVersion.val)

end Review

section Completion

def complete (s : AnalysisState) : NodeResult :=
  some ({ s with terminalStatus := some .succeeded },
    [.taskProgress (100 + s.reviewIteration * 100) .completed .complete])

def rejectionReason : String := "Rejected during required human review."

def RiskVerdict.reject (v : RiskVerdict) : RiskVerdict :=
  let reasons :=
    if v.blockedReasons.contains rejectionReason then v.blockedReasons
    else v.blockedReasons ++ [rejectionReason]
  { allowed := false, blockedReasons := reasons, warnings := v.warnings, confidenceCap := zeroCap
    consistent := by
      have hne : reasons ≠ [] := by
        simp only [reasons]
        split_ifs with h
        · intro hnil
          simp [hnil] at h
        · simp
      simp [hne] }

def completeBlocked (s : AnalysisState) : NodeResult :=
  let rejected := s.reviewAction = some .reject
  let events : List ProductEvent :=
    [.taskProgress (100 + s.reviewIteration * 100)
      (if rejected then .completedRejected else .completedBlocked) .blocked]
  let s := { s with terminalStatus := some .blocked }
  match s.taskType, s.deepResearchArtifact with
  | some .deepResearch, some current => do
      let artifact ← DeepResearchArtifact.of? { current.val with committed := false }
      return ({ s with deepResearchArtifact := some artifact }, events)
  | _, _ =>
      match s.artifact with
      | some current =>
          if rejected then
            some ({ s with artifact := some { current with
              status := .draft, riskVerdict := current.riskVerdict.reject } }, events)
          else some (s, events)
      | none => some (s, events)

def completeFailed (s : AnalysisState) : NodeResult :=
  some ({ s with terminalStatus := some .failed },
    [.taskProgress (100 + s.reviewIteration * 100) .completedFailed .failed])

end Completion

end CryptoAlert
