import CryptoAlert.Domain.Models

/-!
# Market snapshots, analyses and artifacts

The values that the analysis graph carries from node to node. Every bound and every
cross-field check of the validators is part of the type, so a value of one of these types is
what a successful validation returns, and dumping it and validating the dump gives it back.
-/

namespace CryptoAlert

/-- A date and time, kept as its canonical ISO text. -/
structure DateTime where
  text : String
deriving DecidableEq

def DateTime.codec : Codec DateTime := Codec.text.refine (fun s => some ⟨s⟩) (·.text) (fun _ => rfl)

inductive SourceLevel where
  | exchangeNative | webSearchVerified | controlledDependency
deriving DecidableEq, Repr

def SourceLevel.name : SourceLevel → String
  | exchangeNative => "exchange_native"
  | webSearchVerified => "web_search_verified"
  | controlledDependency => "controlled_dependency"

def SourceLevel.codec : Codec SourceLevel :=
  Codec.enum [exchangeNative, webSearchVerified, controlledDependency] name
    (by intro a; cases a <;> decide)

structure PriceLevel where
  price : PositiveDecimal
  size : PositiveDecimal
deriving DecidableEq

structure Ticker where
  last : PositiveDecimal
  bid : Option PositiveDecimal
  ask : Option PositiveDecimal
  volume24h : Option NonNegativeDecimal
  spread : ∀ b ∈ bid, ∀ a ∈ ask, b.val.value ≤ a.val.value

structure OrderBook where
  bids : List PriceLevel
  asks : List PriceLevel
deriving DecidableEq

structure Candle where
  timestamp : DateTime
  openPrice : PositiveDecimal
  high : PositiveDecimal
  low : PositiveDecimal
  close : PositiveDecimal
  volume : NonNegativeDecimal
  high_range : openPrice.val.value ≤ high.val.value ∧ close.val.value ≤ high.val.value
  low_range : low.val.value ≤ openPrice.val.value ∧ low.val.value ≤ close.val.value

structure MarketSnapshot where
  symbol : Symbol
  fetchedAt : DateTime
  sourceLevel : SourceLevel
  ticker : Option Ticker
  markPrice : Option PositiveDecimal
  indexPrice : Option PositiveDecimal
  fundingRate : Option Decimal
  openInterest : Option NonNegativeDecimal
  orderBook : Option OrderBook
  candles : List Candle

abbrev NonEmptyText := {s : String // 1 ≤ s.length}

def NonEmptyText.codec : Codec NonEmptyText := Codec.text.subtype _

structure ResearchFinding where
  title : NonEmptyText
  summary : NonEmptyText
  sourceUrl : {s : String // s.startsWith "http://" || s.startsWith "https://"}
  fetchedAt : DateTime
  publishedAt : Option DateTime
deriving DecidableEq

structure ResearchBundle where
  vix : Option NonNegativeDecimal
  realYield10y : Option Decimal
  dxy : Option PositiveDecimal
  macroEventScan : Option (List ResearchFinding)
  findings : List ResearchFinding
  sourceConflicts : List String
  evidenceGaps : List String
deriving DecidableEq

inductive Regime where
  | riskOn | riskOff | eventCompression | surpriseRepricing
deriving DecidableEq, Repr

def Regime.name : Regime → String
  | riskOn => "risk_on"
  | riskOff => "risk_off"
  | eventCompression => "event_compression"
  | surpriseRepricing => "surprise_repricing"

def Regime.codec : Codec Regime :=
  Codec.enum [riskOn, riskOff, eventCompression, surpriseRepricing] name
    (by intro a; cases a <;> decide)

inductive PositionSizeClass where
  | light | standard | heavy | none
deriving DecidableEq, Repr

def PositionSizeClass.name : PositionSizeClass → String
  | light => "light"
  | standard => "standard"
  | heavy => "heavy"
  | none => "none"

def PositionSizeClass.codec : Codec PositionSizeClass :=
  Codec.enum [light, standard, heavy, none] name (by intro a; cases a <;> decide)

abbrev FactorScore := {n : ℤ // -2 ≤ n ∧ n ≤ 2}

abbrev PositiveInteger := {n : ℤ // 1 ≤ n}

abbrev UnitDecimal := {d : Decimal // 0 ≤ d.value ∧ d.value ≤ 1}

/-- A non-empty chain of causes, none of them blank. -/
abbrev RootCauseChain :=
  {causes : List String // 1 ≤ causes.length ∧ ∀ c ∈ causes, Text.isBlank c.toList = false}

structure MarketAnalysis where
  regime : Regime
  factorScores : List (String × FactorScore)
  totalScore : ℤ
  mainAction : Action
  instrument : Symbol
  horizon : NonEmptyText
  referencePrice : PositiveDecimal
  entryTrigger : Option PositiveDecimal
  stopPrice : Option PositiveDecimal
  target1 : Option PositiveDecimal
  target2 : Option PositiveDecimal
  probability : UnitInterval
  positionSizeClass : PositionSizeClass
  maxLeverage : PositiveInteger
  riskPct : UnitDecimal
  rootCauseChain : RootCauseChain
  whyNotOpposite : NonEmptyText
  invalidation : String
  unavailableData : List String
  manualExecutionRequired : Bool
  expiresInSeconds : PositiveInteger
deriving DecidableEq

structure EvidenceVerdict where
  sufficient : Bool
  confidenceCap : UnitInterval
  missingRequired : List String
  missingOptional : List String
  warnings : List String
  consistent : (sufficient = true ↔ missingRequired = []) ∧
    (sufficient = false → confidenceCap.val = 0)
deriving DecidableEq

structure RiskVerdict where
  allowed : Bool
  blockedReasons : List String
  warnings : List String
  confidenceCap : UnitInterval
  consistent : allowed = true ↔ blockedReasons = []
deriving DecidableEq

structure ModelExecutionAudit where
  promptVersion : BoundedText 1 128
  callCount : ℕ
  inputTokens : Option ℕ
  outputTokens : Option ℕ
  totalTokens : Option ℕ
  latencyMs : {q : ℚ // 0 ≤ q}
  observationIds : {ids : List String // ids.length ≤ 32}
deriving DecidableEq

structure ArtifactProvenance where
  marketProvider : BoundedText 1 64
  searchProvider : BoundedText 1 128
  searchParserVersion : BoundedText 1 128
  modelProvider : BoundedText 1 64
  modelName : BoundedText 1 128
  modelEndpointHost : Option (BoundedText 0 255)
  modelAudits : List ModelExecutionAudit
deriving DecidableEq

inductive ArtifactStatus where
  | draft | streaming | committed | failed
deriving DecidableEq, Repr

def ArtifactStatus.name : ArtifactStatus → String
  | draft => "draft"
  | streaming => "streaming"
  | committed => "committed"
  | failed => "failed"

def ArtifactStatus.codec : Codec ArtifactStatus :=
  Codec.enum [draft, streaming, committed, failed] name (by intro a; cases a <;> decide)

structure Artifact where
  schemaVersion : String
  contentVersion : PositiveInteger
  status : ArtifactStatus
  analysis : MarketAnalysis
  evidenceVerdict : EvidenceVerdict
  riskVerdict : RiskVerdict
  sourceReferences : List String
  provenance : Option ArtifactProvenance
deriving DecidableEq

end CryptoAlert
