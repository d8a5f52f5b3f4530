import CryptoAlert.Domain.Models
import CryptoAlert.Observability.Redaction

/-!
# Decision requests and their routing

The product request envelope, its validation and the deterministic admission policy. The
query text is redacted whenever a request is validated, after its length has been checked.
-/

namespace CryptoAlert

inductive DecisionEntryKind where
  | manual | scheduled | postmortem | eval | replay | system
deriving DecidableEq, Repr

namespace DecisionEntryKind

def name : DecisionEntryKind → String
  | manual => "manual"
  | scheduled => "scheduled"
  | postmortem => "postmortem"
  | eval => "eval"
  | replay => "replay"
  | system => "system"

def codec : Codec DecisionEntryKind :=
  Codec.enum [manual, scheduled, postmortem, eval, replay, system] name
    (by intro a; cases a <;> decide)

/-- Entries that may not use live providers. -/
def isNonLive : DecisionEntryKind → Bool
  | postmortem | eval | replay | system => true
  | manual | scheduled => false

end DecisionEntryKind

inductive DecisionIntent where
  | marketAnalysis | deepResearch | monitorReview | postmortem | evaluation | replay
  | systemQuery | unknown
deriving DecidableEq, Repr

namespace DecisionIntent

def name : DecisionIntent → String
  | marketAnalysis => "market_analysis"
  | deepResearch => "deep_research"
  | monitorReview => "monitor_review"
  | postmortem => "postmortem"
  | evaluation => "evaluation"
  | replay => "replay"
  | systemQuery => "system_query"
  | unknown => "unknown"

def codec : Codec DecisionIntent :=
  Codec.enum [marketAnalysis, deepResearch, monitorReview, postmortem, evaluation, replay,
    systemQuery, unknown] name (by intro a; cases a <;> decide)

def isNonLive : DecisionIntent → Bool
  | postmortem | evaluation | replay | systemQuery => true
  | marketAnalysis | deepResearch | monitorReview | unknown => false

end DecisionIntent

inductive DecisionComplexity where
  | simpleFast | standard | deepResearch | evalReplay | blockedClarify
deriving DecidableEq, Repr

namespace DecisionComplexity

def name : DecisionComplexity → String
  | simpleFast => "simple_fast"
  | standard => "standard"
  | deepResearch => "deep_research"
  | evalReplay => "eval_replay"
  | blockedClarify => "blocked_clarify"

def codec : Codec DecisionComplexity :=
  Codec.enum [simpleFast, standard, deepResearch, evalReplay, blockedClarify] name
    (by intro a; cases a <;> decide)

end DecisionComplexity

inductive PositionSide where
  | flat | long | short
deriving DecidableEq, Repr

def PositionSide.name : PositionSide → String
  | flat => "flat"
  | long => "long"
  | short => "short"

def PositionSide.codec : Codec PositionSide :=
  Codec.enum [flat, long, short] name (by intro a; cases a <;> decide)

inductive RiskMode where
  | conservative | balanced | aggressive
deriving DecidableEq, Repr

def RiskMode.name : RiskMode → String
  | conservative => "conservative"
  | balanced => "balanced"
  | aggressive => "aggressive"

def RiskMode.codec : Codec RiskMode :=
  Codec.enum [conservative, balanced, aggressive] name (by intro a; cases a <;> decide)

/-- The capabilities of one request; notifications and trades are fixed to `False`. -/
structure LiveSideEffectPolicy where
  liveMarketData : Bool
  liveWebResearch : Bool
  productWrites : Bool
deriving DecidableEq, Repr

def LiveSideEffectPolicy.codec : Codec LiveSideEffectPolicy :=
  ((Record.field "live_market_data" Codec.bool).and <|
    (Record.field "live_web_research" Codec.bool).and <|
    (Record.field "product_writes" Codec.bool).and <|
    (Record.field "external_notifications" Codec.never).and <|
    Record.field "trade_execution" Codec.never).iso
    (fun p => (p.liveMarketData, p.liveWebResearch, p.productWrites, (), ()))
    (fun (market, web, writes, _, _) => ⟨market, web, writes⟩) (fun _ => rfl) |>.codec (by decide)

abbrev Leverage := {d : Decimal // 1 ≤ d.value ∧ d.value ≤ 125}

structure PositionContext where
  side : PositionSide
  entryPrice : Option PositiveDecimal
  size : Option PositiveDecimal
  leverage : Option Leverage
deriving DecidableEq

def PositionContext.codec : Codec PositionContext :=
  ((Record.field "side" PositionSide.codec).and <|
    (Record.field "entry_price" (PositiveDecimal.codec.nullable PositiveDecimal.dump_ne_null)).and <|
    (Record.field "size" (PositiveDecimal.codec.nullable PositiveDecimal.dump_ne_null)).and <|
    Record.field "leverage" ((Decimal.codec.subtype _ : Codec Leverage).nullable fun _ => nofun)).iso
    (fun p => (p.side, p.entryPrice, p.size, p.leverage))
    (fun (side, price, size, leverage) => ⟨side, price, size, leverage⟩)
    (fun _ => rfl) |>.codec (by decide)

structure RiskContext where
  mode : RiskMode
  maxLossQuote : Option PositiveDecimal
  maxPositionNotional : Option PositiveDecimal
deriving DecidableEq

def RiskContext.codec : Codec RiskContext :=
  ((Record.field "mode" RiskMode.codec).and <|
    (Record.field "max_loss_quote" (PositiveDecimal.codec.nullable PositiveDecimal.dump_ne_null)).and <|
    Record.field "max_position_notional" (PositiveDecimal.codec.nullable PositiveDecimal.dump_ne_null)).iso
    (fun r => (r.mode, r.maxLossQuote, r.maxPositionNotional))
    (fun (mode, loss, notional) => ⟨mode, loss, notional⟩) (fun _ => rfl) |>.codec (by decide)

/-- What a client sends; actor and workspace are injected by the server. -/
structure DecisionRequestSubmission where
  entryKind : DecisionEntryKind
  sessionId : Option (StrippedText 1 255)
  intent : DecisionIntent
  intentConfidence : UnitInterval
  complexity : DecisionComplexity
  symbol : Option Symbol
  horizon : Option (StrippedText 1 32)
  queryText : String
  requestedAction : Option Action
  position : Option PositionContext
  risk : RiskContext
  sideEffects : LiveSideEffectPolicy
  sourceReferenceId : Option (StrippedText 1 255)
deriving DecidableEq

/-- The request envelope. Entries that are not live may not ask for live providers. -/
structure DecisionRequest extends DecisionRequestSubmission where
  actorId : StrippedText 1 255
  workspaceId : StrippedText 1 255
  liveProviders : entryKind.isNonLive = true →
    sideEffects.liveMarketData = false ∧ sideEffects.liveWebResearch = false
deriving DecidableEq

namespace DecisionRequest

/-- The fields without the cross-field check, in the order of the model. -/
def record : Record (DecisionRequestSubmission × StrippedText 1 255 × StrippedText 1 255) :=
  ((Record.field "schema_version" (Codec.literal "1.0")).and <|
    (Record.field "entry_kind" DecisionEntryKind.codec).and <|
    (Record.field "actor_id" (StrippedText.codec 1 255)).and <|
    (Record.field "workspace_id" (StrippedText.codec 1 255)).and <|
    (Record.field "session_id" ((StrippedText.codec 1 255).nullable fun _ => nofun)).and <|
    (Record.field "intent" DecisionIntent.codec).and <|
    (Record.field "intent_confidence" UnitInterval.codec).and <|
    (Record.field "complexity" DecisionComplexity.codec).and <|
    (Record.field "symbol" (Symbol.codec.nullable fun _ => nofun)).and <|
    (Record.field "horizon" ((StrippedText.codec 1 32).nullable fun _ => nofun)).and <|
    (Record.field "query_text" Codec.text).and <|
    (Record.field "requested_action" (Action.codec.nullable fun _ => nofun)).and <|
    (Record.field "position" (PositionContext.codec.nullable fun _ => nofun)).and <|
    (Record.field "risk" RiskContext.codec).and <|
    (Record.field "side_effects" LiveSideEffectPolicy.codec).and <|
    Record.field "source_reference_id" ((StrippedText.codec 1 255).nullable fun _ => nofun)).iso
    (fun (r, actor, workspace) => ((), r.entryKind, actor, workspace, r.sessionId, r.intent,
      r.intentConfidence, r.complexity, r.symbol, r.horizon, r.queryText, r.requestedAction,
      r.position, r.risk, r.sideEffects, r.sourceReferenceId))
    (fun (_, kind, actor, workspace, session, intent, confidence, complexity, symbol, horizon,
      query, action, position, risk, effects, reference) =>
      (⟨kind, session, intent, confidence, complexity, symbol, horizon, query, action, position,
        risk, effects, reference⟩, actor, workspace))
    (fun _ => rfl)

/-- The check `reject_live_providers_for_non_live_entry`. -/
def ofFields (r : DecisionRequestSubmission) (actor workspace : StrippedText 1 255) :
    Option DecisionRequest :=
  if h : r.entryKind.isNonLive = true →
      r.sideEffects.liveMarketData = false ∧ r.sideEffects.liveWebResearch = false then
    some { r with actorId := actor, workspaceId := workspace, liveProviders := h }
  else none

theorem ofFields_self (r : DecisionRequest) :
    ofFields r.toDecisionRequestSubmission r.actorId r.workspaceId = some r := by
  unfold ofFields
  rw [dif_pos r.liveProviders]

def codec : Codec DecisionRequest :=
  (record.codec (by decide)).refine (fun (r, actor, workspace) => ofFields r actor workspace)
    (fun r => (r.toDecisionRequestSubmission, r.actorId, r.workspaceId)) ofFields_self

variable (u : Text.UnicodeData)

/-- Validation of the query text: trimmed, measured, then redacted. -/
def validateQuery (query : String) : Option String :=
  (StrippedText.of? 1 4000 query).map fun q => Redaction.redactText u q.text

def modelDump (r : DecisionRequest) : Json := codec.dump r

def modelValidate (payload : Json) : Option DecisionRequest :=
  (codec.read payload).bind fun r =>
    (validateQuery u r.queryText).map fun query => { r with queryText := query }

theorem modelValidate_modelDump (r : DecisionRequest) :
    modelValidate u r.modelDump =
      (validateQuery u r.queryText).map fun query => { r with queryText := query } := by
  rw [modelValidate, modelDump, codec.read_dump, Option.bind_some]

end DecisionRequest

inductive DecisionRouteStatus where
  | admitted | blockedClarify | unsupportedMode
deriving DecidableEq, Repr

structure DecisionRoute where
  status : DecisionRouteStatus
  complexity : DecisionComplexity
  taskType : Option TaskType
  missingSlots : List String
  reason : String
deriving DecidableEq, Repr

def missingTargetSlots (request : DecisionRequest) : List String :=
  (if request.symbol.isNone then ["symbol"] else []) ++
    (if request.horizon.isNone then ["horizon"] else [])

def missingExecutionSlots (request : DecisionRequest) : List String :=
  if !request.requestedAction.any Action.isOpening then missingTargetSlots request
  else
    missingTargetSlots request ++
      (match request.position with
        | none =>
            ["position", "position.entry_price", "position.size", "position.leverage"]
        | some position =>
            (if position.entryPrice.isNone then ["position.entry_price"] else []) ++
            (if position.size.isNone then ["position.size"] else []) ++
            (if position.leverage.isNone then ["position.leverage"] else [])) ++
      (if request.risk.maxLossQuote.isNone then ["risk.max_loss_quote"] else [])

/-- The deterministic admission policy in front of the graph. -/
def routeDecisionRequest (request : DecisionRequest) : DecisionRoute :=
  if request.intent = .unknown then
    { status := .blockedClarify, complexity := .blockedClarify, taskType := none,
      missingSlots := ["intent"], reason := "intent requires clarification" }
  else if request.intent.isNonLive then
    { status := .unsupportedMode, complexity := .evalReplay, taskType := none,
      missingSlots := [], reason := "request is typed but has no live Graph executor" }
  else if missingExecutionSlots request ≠ [] then
    { status := .blockedClarify, complexity := .blockedClarify, taskType := none,
      missingSlots := missingExecutionSlots request,
      reason := "required request slots are missing" }
  else if request.intent = .deepResearch then
    { status := .admitted, complexity := .deepResearch, taskType := some .deepResearch,
      missingSlots := [], reason := "request admitted to existing Product execution" }
  else
    { status := .admitted,
      complexity := match request.complexity with
        | .deepResearch | .evalReplay | .blockedClarify => .standard
        | complexity => complexity,
      taskType := some .marketAnalysis, missingSlots := [],
      reason := "request admitted to existing Product execution" }

/-- The route does not look at the query text. -/
theorem routeDecisionRequest_queryText (request : DecisionRequest) (query : String) :
    routeDecisionRequest { request with queryText := query } = routeDecisionRequest request :=
  rfl

/-- An admitted request has the symbol and the horizon that the graph needs. -/
theorem symbol_horizon_of_admitted {request : DecisionRequest}
    (h : (routeDecisionRequest request).status = .admitted) :
    ∃ symbol horizon, request.symbol = some symbol ∧ request.horizon = some horizon := by
  have hslots : missingExecutionSlots request = [] := by
    by_contra hne
    unfold routeDecisionRequest at h
    split_ifs at h
  have hbase : missingTargetSlots request = [] := by
    unfold missingExecutionSlots at hslots
    split at hslots
    · exact hslots
    · exact (List.append_eq_nil_iff.mp (List.append_eq_nil_iff.mp hslots).1).1
  obtain ⟨hs, hh⟩ := List.append_eq_nil_iff.mp hbase
  cases hsymbol : request.symbol with
  | none => simp [hsymbol] at hs
  | some symbol =>
      cases hhorizon : request.horizon with
      | none => simp [hhorizon] at hh
      | some horizon => exact ⟨symbol, horizon, rfl, rfl⟩

end CryptoAlert
