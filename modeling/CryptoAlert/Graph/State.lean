import CryptoAlert.Domain.Policies
import CryptoAlert.Graph.Events
import CryptoAlert.Graph.Review

/-!
# The state of the analysis graph and what its collaborators return

A channel holds the dump of a value, and reading the dump gives the value back, so the channels
are typed by the values. A channel that was never written is `none`, or empty where the nodes
read it with an empty default.
-/

namespace CryptoAlert

inductive TerminalStatus where
  | running | succeeded | blocked | failed
deriving DecidableEq, Repr

/-- An error record of the graph, before it is validated as part of a terminal output. -/
structure GraphError where
  code : String
  retryable : Bool
  provider : Option String := none
  errorType : Option String := none
  attempt : Option ℤ := none
  endpoint : Option String := none
  fallbackFrom : Option String := none
  primaryAttempt : Option ℤ := none
  correlationId : Option String := none
  field : Option String := none
  expected : Option String := none
  actual : Option String := none
deriving DecidableEq

/-- The `request` channel: the fields of either request model. -/
structure RequestFields where
  taskType : TaskType
  symbol : Symbol
  horizon : String
  queryText : String
  notify : Bool
deriving DecidableEq

structure AnalysisState where
  taskType : Option TaskType
  request : Option RequestFields
  marketSnapshot : Option MarketSnapshot
  researchBundle : Option ResearchBundle
  webEvidence : List (WebEvidence HttpUrl)
  modelAudits : List ModelExecutionAudit
  analysis : Option MarketAnalysis
  evidenceVerdict : Option EvidenceVerdict
  riskVerdict : Option RiskVerdict
  artifact : Option Artifact
  deepResearchArtifact : Option (DeepResearchArtifact ReadUrl)
  reviewPolicy : Option ReviewPolicy
  reviewAction : Option ReviewAction
  reviewEdits : Option ReviewEdits
  reviewComment : Option String
  reviewIteration : ℕ
  terminalStatus : Option TerminalStatus
  errors : List GraphError

/-- The state of a thread on which nothing has run. -/
def AnalysisState.fresh : AnalysisState :=
  ⟨none, none, none, none, [], [], none, none, none, none, none, none, none, none, none, 0, none,
    []⟩

/-- The input of a run; both channels are always given. -/
structure RunInput where
  request : RequestFields
  reviewPolicy : ReviewPolicy

/-- The run configuration and the settings that the nodes read. -/
structure GraphConfig where
  /-- Whether the run carries a complete identity for product events. -/
  hasIdentity : Bool
  serverReviewPolicy : ReviewPolicy
  correlationId : Option String
  openaiBaseUrl : Option String
  searchProvider : String
  modelName : String

/-- `ProviderUnavailable`. -/
structure ProviderUnavailable where
  provider : String
  endpoint : String
  retryable : Bool
  correlationId : String
  attempt : Option ℤ
  retryExhausted : Bool

inductive CollaboratorErrorKind where
  | searchEvidenceUnavailable | searchReadiness | toolCallLimit | other
deriving DecidableEq

/-- An exception of one of the classes that the nodes catch, with the attributes they look at;
an attribute that the exception does not have is `none`. -/
structure CollaboratorError where
  kind : CollaboratorErrorKind
  typeName : String
  errorType : Option String
  provider : Option String
  attempt : Option ℤ
  /-- The attribute of that name, or membership in one of the transient error classes. -/
  retryable : Bool

/-- `getattr(exc, "error_type", None) or type(exc).__name__`. -/
def CollaboratorError.reportedType (e : CollaboratorError) : String :=
  match e.errorType with
  | some t => if t.isEmpty then e.typeName else t
  | none => e.typeName

/-- A snapshot as the exchange provider returns it, before validation. A level is a price and a
size, a candle a timestamp, the four prices and the volume. -/
structure ProviderMarketSnapshot where
  symbol : String
  fetchedAt : DateTime
  sourceLevel : String
  tickerLast : Decimal
  markPrice : Decimal
  indexPrice : Decimal
  fundingRate : Decimal
  openInterest : Decimal
  bids : List (Decimal × Decimal)
  asks : List (Decimal × Decimal)
  candles : List (DateTime × Decimal × Decimal × Decimal × Decimal × Decimal)

inductive ProvidedSnapshot where
  | domain (snapshot : MarketSnapshot)
  | provider (snapshot : ProviderMarketSnapshot)

structure WebMarketResult where
  snapshot : MarketSnapshot
  evidence : List (WebEvidence HttpUrl)
  modelAudit : ModelExecutionAudit

structure ResearchResult where
  bundle : ResearchBundle
  evidence : List (WebEvidence HttpUrl)
  modelAudit : Option ModelExecutionAudit

inductive AnalysisError where
  /-- A structured output error or an exceeded model call limit. -/
  | invalidOutput (typeName : String)
  | transient (typeName : String)
  | other (typeName : String)

structure DeepResearchExecutionResult where
  artifact : DeepResearchArtifact HttpUrl
  evidence : List (WebEvidence HttpUrl)
  modelAudits : List ModelExecutionAudit

/-- What the collaborators return when a node calls them. -/
structure Externals where
  market : Except ProviderUnavailable ProvidedSnapshot
  /-- `none` if the runtime has no fallback collector. -/
  fallback : Option (Except CollaboratorError WebMarketResult)
  research : Except CollaboratorError ResearchResult
  analysis : Except AnalysisError (MarketAnalysis × ModelExecutionAudit)
  /-- `none` if the runtime has no deep research executor or harness mode. -/
  deepResearch : Option (Except CollaboratorError DeepResearchExecutionResult)

end CryptoAlert
