import CryptoAlert.Domain.ArtifactCodec
import CryptoAlert.Graph.Request

/-!
# Human review: payloads, responses and edits

A field of an edit is absent, explicitly null or given a value. Edits are validated by a model
of their own, which is more permissive than the analysis they are applied to.
-/

namespace CryptoAlert

inductive ReviewPolicy where
  | bypass | required
deriving DecidableEq, Repr

inductive ReviewAction where
  | approve | reject | edit
deriving DecidableEq, Repr

/-- An optional field of an edit: `none` if it is absent, `some none` if it is null. -/
abbrev EditField (α : Type) := Option (Option α)

structure ArtifactEdit where
  regime : EditField Regime
  factorScores : EditField (List (String × ℤ))
  totalScore : EditField ℤ
  mainAction : EditField Action
  referencePrice : EditField PositiveDecimal
  entryTrigger : EditField PositiveDecimal
  stopPrice : EditField PositiveDecimal
  target1 : EditField PositiveDecimal
  target2 : EditField PositiveDecimal
  probability : EditField UnitInterval
  positionSizeClass : EditField PositionSizeClass
  maxLeverage : EditField PositiveInteger
  riskPct : EditField UnitDecimal
  rootCauseChain : EditField {causes : List String // 1 ≤ causes.length}
  whyNotOpposite : EditField NonEmptyText
  invalidation : EditField NonEmptyText
  unavailableData : EditField (List String)
  manualExecutionRequired : EditField Bool
  expiresInSeconds : EditField PositiveInteger
deriving DecidableEq

namespace ArtifactEdit

/-- The edit that gives no field; it is not a correction. -/
def unchanged : ArtifactEdit :=
  ⟨none, none, none, none, none, none, none, none, none, none, none, none, none, none, none,
    none, none, none, none⟩

/-- An edit of a field that the analysis requires. -/
def required {α : Type} (edit : EditField α) (current : α) : Option α :=
  match edit with
  | none => some current
  | some value => value

/-- An edit of a field that the analysis lets be null. -/
def optional {α : Type} (edit : EditField α) (current : Option α) : Option α :=
  edit.getD current

def validateScores (scores : List (String × ℤ)) : Option (List (String × FactorScore)) :=
  scores.mapM fun (name, n) =>
    if h : -2 ≤ n ∧ n ≤ 2 then some (name, ⟨n, h⟩) else none

def validateCauses (causes : {causes : List String // 1 ≤ causes.length}) :
    Option RootCauseChain :=
  if h : ∀ c ∈ causes.val, Text.isBlank c.toList = false then
    some ⟨causes.val, causes.property, h⟩
  else none

/-- A required field whose new value the analysis validates once more. -/
def revalidated {α β : Type} (edit : EditField α) (validate : α → Option β) (current : β) :
    Option β :=
  match edit with
  | none => some current
  | some value => value.bind validate

/-- Merges the given fields into the analysis and validates the result. -/
def apply (e : ArtifactEdit) (a : MarketAnalysis) : Option MarketAnalysis := do
  let regime ← required e.regime a.regime
  let factorScores ← revalidated e.factorScores validateScores a.factorScores
  let totalScore ← required e.totalScore a.totalScore
  let mainAction ← required e.mainAction a.mainAction
  let referencePrice ← required e.referencePrice a.referencePrice
  let probability ← required e.probability a.probability
  let positionSizeClass ← required e.positionSizeClass a.positionSizeClass
  let maxLeverage ← required e.maxLeverage a.maxLeverage
  let riskPct ← required e.riskPct a.riskPct
  let rootCauseChain ← revalidated e.rootCauseChain validateCauses a.rootCauseChain
  let whyNotOpposite ← required e.whyNotOpposite a.whyNotOpposite
  let invalidation ← required (e.invalidation.map (·.map Subtype.val)) a.invalidation
  let unavailableData ← required e.unavailableData a.unavailableData
  let manualExecutionRequired ← required e.manualExecutionRequired a.manualExecutionRequired
  let expiresInSeconds ← required e.expiresInSeconds a.expiresInSeconds
  return {
    regime, factorScores, totalScore, mainAction, instrument := a.instrument,
    horizon := a.horizon, referencePrice,
    entryTrigger := optional e.entryTrigger a.entryTrigger,
    stopPrice := optional e.stopPrice a.stopPrice, target1 := optional e.target1 a.target1,
    target2 := optional e.target2 a.target2, probability, positionSizeClass, maxLeverage,
    riskPct, rootCauseChain, whyNotOpposite, invalidation, unavailableData,
    manualExecutionRequired, expiresInSeconds }

/-- Edits leave the identity of the request alone. -/
theorem apply_identity {e : ArtifactEdit} {a b : MarketAnalysis} (h : e.apply a = some b) :
    b.instrument = a.instrument ∧ b.horizon = a.horizon := by
  unfold apply at h
  iterate 15 obtain ⟨_, _, h⟩ := Option.bind_eq_some_iff.mp h
  cases h
  exact ⟨rfl, rfl⟩

end ArtifactEdit

inductive ReviewEdits where
  | artifact (edit : {e : ArtifactEdit // e ≠ ArtifactEdit.unchanged})
  | deepResearch (report : DeepResearchReport)
deriving DecidableEq

structure ReviewResponse where
  action : ReviewAction
  edits : Option ReviewEdits
  comment : Option (BoundedText 1 1000)
  edits_iff : action = .edit ↔ edits.isSome = true
deriving DecidableEq

structure ArtifactReviewPayload where
  reviewIteration : PositiveInteger
  artifact : Artifact
  draft : artifact.status = .draft
deriving DecidableEq

structure DeepResearchReviewPayload where
  symbol : Symbol
  horizon : StrippedText 1 32
  reviewIteration : PositiveInteger
  artifact : DeepResearchArtifact ReadUrl
  draft : artifact.val.committed = false
deriving DecidableEq

inductive ReviewPayload where
  | artifact (payload : ArtifactReviewPayload)
  | deepResearch (payload : DeepResearchReviewPayload)
deriving DecidableEq

/-- `validate_review_response_for_payload`; `false` where it raises. -/
def validateReviewResponseForPayload (payload : ReviewPayload) (response : ReviewResponse) :
    Bool :=
  match response.edits, payload with
  | none, _ => true
  | some (.artifact _), .artifact _ => true
  | some (.deepResearch report), .deepResearch p =>
      report ≠ p.artifact.val.report ∧
        (DeepResearchArtifact.of? { p.artifact.val with report }).isSome
  | _, _ => false

/-- The actions that every payload lists. -/
def allowedActions : List String := ["approve", "reject", "edit"]

def AllowedActions.codec : Codec Unit :=
  Codec.text.list.refine (fun l => if l = allowedActions then some () else none)
    (fun _ => allowedActions) (fun _ => rfl)

def ArtifactReviewPayload.codec : Codec ArtifactReviewPayload :=
  ((Record.field "kind" (Codec.literal "artifact_review")).and <|
    (Record.field "schema_version" (Codec.literal "1.0")).and <|
    (Record.field "allowed_actions" AllowedActions.codec).and <|
    (Record.field "review_iteration" PositiveInteger.codec).and <|
    Record.field "artifact" Artifact.codec).codec (by decide) |>.refine
    (fun (_, _, _, iteration, artifact) =>
      if h : artifact.status = .draft then some ⟨iteration, artifact, h⟩ else none)
    (fun p => ((), (), (), p.reviewIteration, p.artifact)) (fun p => dif_pos p.draft)

def DeepResearchReviewPayload.codec : Codec DeepResearchReviewPayload :=
  ((Record.field "kind" (Codec.literal "deep_research_review")).and <|
    (Record.field "schema_version" (Codec.literal "1.0")).and <|
    (Record.field "allowed_actions" AllowedActions.codec).and <|
    (Record.field "symbol" Symbol.codec).and <|
    (Record.field "horizon" (StrippedText.codec 1 32)).and <|
    (Record.field "review_iteration" PositiveInteger.codec).and <|
    Record.field "artifact" DeepResearchArtifact.codec).codec (by decide) |>.refine
    (fun (_, _, _, symbol, horizon, iteration, artifact) =>
      if h : artifact.val.committed = false then some ⟨symbol, horizon, iteration, artifact, h⟩
      else none)
    (fun p => ((), (), (), p.symbol, p.horizon, p.reviewIteration, p.artifact))
    (fun p => dif_pos p.draft)

/-- The text under a key of an object. -/
def Json.textAt (key : String) : Json → Option String
  | .obj fields =>
      match fields.lookup key with
      | some (.str s) => some s
      | _ => none
  | _ => none

def ReviewPayload.modelDump : ReviewPayload → Json
  | artifact p => ArtifactReviewPayload.codec.dump p
  | deepResearch p => DeepResearchReviewPayload.codec.dump p

/-- The payload of an interrupt, by its kind. -/
def parseReviewInterruptPayload (value : Json) : Option ReviewPayload :=
  match value.textAt "kind" with
  | some "artifact_review" => (ArtifactReviewPayload.codec.read value).map .artifact
  | some "deep_research_review" => (DeepResearchReviewPayload.codec.read value).map .deepResearch
  | _ => none

theorem parseReviewInterruptPayload_modelDump (payload : ReviewPayload) :
    parseReviewInterruptPayload payload.modelDump = some payload := by
  cases payload with
  | artifact p =>
      have hkind : (ArtifactReviewPayload.codec.dump p).textAt "kind" = some "artifact_review" :=
        rfl
      simp only [parseReviewInterruptPayload, ReviewPayload.modelDump, hkind,
        ArtifactReviewPayload.codec.read_dump, Option.map_some]
  | deepResearch p =>
      have hkind : (DeepResearchReviewPayload.codec.dump p).textAt "kind" =
          some "deep_research_review" := rfl
      simp only [parseReviewInterruptPayload, ReviewPayload.modelDump, hkind,
        DeepResearchReviewPayload.codec.read_dump, Option.map_some]

/-- `validate_review_payload_for_task`; `false` where it raises. -/
def validateReviewPayloadForTask (payload : ReviewPayload) (taskType : TaskType)
    (symbol horizon : String) : Bool :=
  match taskType, payload with
  | .marketAnalysis, .artifact p =>
      p.artifact.analysis.instrument.name = symbol ∧ p.artifact.analysis.horizon.val = horizon
  | .deepResearch, .deepResearch p => p.symbol.name = symbol ∧ p.horizon.text = horizon
  | _, _ => false

end CryptoAlert
