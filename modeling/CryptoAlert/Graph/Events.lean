import Mathlib.Data.Int.Notation
import Mathlib.Data.Nat.Notation

/-!
# Product events of the graph

The events that the nodes emit and the bounds of their models. An event is validated only when
the run carries a complete identity; without one it is dropped.
-/

namespace CryptoAlert

inductive Phase where
  | requestValidated | deepResearch | deepResearchDraftReady | marketCollection | marketCollected
  | researchCollection | researchCollected | analysis | analysisCompleted | evidenceValidated
  | riskValidated | artifactBuilt | reviewBypass | reviewRequired | reviewApprove | reviewReject
  | reviewEdit | reviewEditsApplied | artifactCommitted | completed | completedRejected
  | completedBlocked | completedFailed
deriving DecidableEq, Repr

def Phase.name : Phase → String
  | requestValidated => "request_validated"
  | deepResearch => "deep_research"
  | deepResearchDraftReady => "deep_research_draft_ready"
  | marketCollection => "market_collection"
  | marketCollected => "market_collected"
  | researchCollection => "research_collection"
  | researchCollected => "research_collected"
  | analysis => "analysis"
  | analysisCompleted => "analysis_completed"
  | evidenceValidated => "evidence_validated"
  | riskValidated => "risk_validated"
  | artifactBuilt => "artifact_built"
  | reviewBypass => "review_bypass"
  | reviewRequired => "review_required"
  | reviewApprove => "review_approve"
  | reviewReject => "review_reject"
  | reviewEdit => "review_edit"
  | reviewEditsApplied => "review_edits_applied"
  | artifactCommitted => "artifact_committed"
  | completed => "completed"
  | completedRejected => "completed_rejected"
  | completedBlocked => "completed_blocked"
  | completedFailed => "completed_failed"

inductive ProgressStatus where
  | active | complete | blocked | failed
deriving DecidableEq, Repr

inductive EvidenceStage where
  | collected | validated
deriving DecidableEq, Repr

inductive ProductEvent where
  | taskProgress (sequence : ℕ) (phase : Phase) (status : ProgressStatus)
  | artifact (sequence : ℕ) (committed : Bool) (contentVersion : ℤ)
  | evidence (sequence : ℕ) (stage : EvidenceStage) (verifiedSourceCount : ℕ)
      (sufficient : Option Bool)
  | usage (sequence : ℕ) (modelCallCount : ℕ) (inputTokens outputTokens totalTokens : Option ℕ)
      (promptVersions : List String)
  | notification (sequence : ℕ) (requested : Bool)
  | quality (sequence : ℕ) (evidenceSufficient riskAllowed : Bool)
      (warningCount blockedReasonCount : ℕ)
deriving DecidableEq, Repr

/-- The pattern `^[a-z0-9_]+$` and the length limit of a phase. -/
def validPhaseName (s : String) : Bool :=
  1 ≤ s.length && s.length ≤ 64 &&
    s.toList.all fun c => ('a' ≤ c && c ≤ 'z') || ('0' ≤ c && c ≤ '9') || c == '_'

namespace ProductEvent

def sequence : ProductEvent → ℕ
  | taskProgress n _ _ | artifact n _ _ | evidence n _ _ _ | usage n _ _ _ _ _
  | notification n _ | quality n _ _ _ _ => n

/-- The bounds of the event models. -/
def isValid (e : ProductEvent) : Bool :=
  Nat.ble 1 e.sequence &&
    match e with
    | taskProgress _ phase _ => validPhaseName phase.name
    | artifact _ _ version => 1 ≤ version
    | evidence _ _ count _ => count ≤ 1000
    | usage _ calls _ _ _ versions => calls ≤ 1000 && versions.length ≤ 16
    | notification _ _ => true
    | quality _ _ _ warnings reasons => warnings ≤ 1000 && reasons ≤ 1000

end ProductEvent

@[simp] theorem validPhaseName_name (p : Phase) : validPhaseName p.name = true := by
  cases p <;> decide

/-- Progress events are valid at any sequence number from one on. -/
@[simp] theorem isValid_taskProgress (n : ℕ) (p : Phase) (s : ProgressStatus) :
    (ProductEvent.taskProgress n p s).isValid = true ↔ 1 ≤ n := by
  simp [ProductEvent.isValid, ProductEvent.sequence]

@[simp] theorem isValid_artifact (n : ℕ) (committed : Bool) (version : ℤ) :
    (ProductEvent.artifact n committed version).isValid = true ↔ 1 ≤ n ∧ 1 ≤ version := by
  simp [ProductEvent.isValid, ProductEvent.sequence]

@[simp] theorem isValid_evidence (n : ℕ) (stage : EvidenceStage) (count : ℕ)
    (sufficient : Option Bool) :
    (ProductEvent.evidence n stage count sufficient).isValid = true ↔ 1 ≤ n ∧ count ≤ 1000 := by
  simp [ProductEvent.isValid, ProductEvent.sequence]

@[simp] theorem isValid_notification (n : ℕ) (requested : Bool) :
    (ProductEvent.notification n requested).isValid = true ↔ 1 ≤ n := by
  simp [ProductEvent.isValid, ProductEvent.sequence]

@[simp] theorem isValid_quality (n : ℕ) (sufficient allowed : Bool) (warnings reasons : ℕ) :
    (ProductEvent.quality n sufficient allowed warnings reasons).isValid = true ↔
      1 ≤ n ∧ warnings ≤ 1000 ∧ reasons ≤ 1000 := by
  simp [ProductEvent.isValid, ProductEvent.sequence]

/-- Emits events in order; `none` where the validation of one of them raises. -/
def emit (hasIdentity : Bool) (events : List ProductEvent) : Option (List ProductEvent) :=
  if !hasIdentity then some []
  else if events.all ProductEvent.isValid then some events else none

/-- Events that are valid wherever they are validated are emitted. -/
theorem emit_isSome {hasIdentity : Bool} {events : List ProductEvent}
    (h : hasIdentity = true → ∀ e ∈ events, e.isValid = true) :
    (emit hasIdentity events).isSome := by
  unfold emit
  cases hasIdentity with
  | false => rfl
  | true =>
      have hall : events.all ProductEvent.isValid = true := List.all_eq_true.mpr (h rfl)
      simp [hall]

end CryptoAlert
