import CryptoAlert.Lib.Table
import CryptoAlert.Lib.Transition
import Mathlib.Data.List.MinMax
import Mathlib.Data.Prod.Lex

/-!
# The release of an improvement candidate

A candidate is evaluated on frozen replays, reviewed by a person, run in the shadow and then
promoted; it may be rolled back once. Every write locks the row of the candidate first, so the
candidate and the rows that belong to it are changed by one transaction at a time. The calls to
the review runtime lie between two transactions and are kept with the state. `created_at` is the
instant at which a transaction began, so rows of different transactions may share it.
-/

namespace CryptoAlert

inductive CandidateStatus where
  | draft | evaluated | pendingReview | approved | rejected | shadow | active | rolledBack
deriving DecidableEq, Repr

/-- `_TRANSITIONS`. -/
def CandidateStatus.transitions : CandidateStatus → List CandidateStatus
  | draft => [evaluated]
  | evaluated => [pendingReview]
  | pendingReview => [approved, rejected]
  | approved => [shadow]
  | shadow => [active]
  | active => [rolledBack]
  | rejected | rolledBack => []

/-- `transition_candidate`; `none` where it raises. -/
def transitionCandidate (current target : CandidateStatus) : Option CandidateStatus :=
  if target ∈ current.transitions then some target else none

structure ImprovementCandidate where
  id : ℕ
  ownerId : ℕ
  baseVersion : String
  candidateVersion : String
  rollbackTargetVersion : String
  versionHash : String
  status : CandidateStatus
  idempotencyKey : String
deriving DecidableEq

/-- What the frozen replays and `evaluate_release_gate` make of an experiment. -/
structure GateOutcome where
  approved : Bool
  caseCount : ℕ
deriving DecidableEq

inductive ExperimentStatus where
  | succeeded | failed
deriving DecidableEq, Repr

structure ImprovementExperiment where
  id : ℕ
  status : ExperimentStatus
  promptVersion : String
  gitRevision : String
  caseCount : ℕ
  gateApproved : Bool
  idempotencyKey : String
  createdAt : ℕ
deriving DecidableEq

inductive ImprovementReviewStatus where
  | pending | approved | rejected
deriving DecidableEq, Repr

inductive ImprovementDecision where
  | approve | reject
deriving DecidableEq, Repr

/-- The status of the review and of the candidate that a decision asks for. -/
def ImprovementDecision.expected : ImprovementDecision → ImprovementReviewStatus × CandidateStatus
  | approve => (.approved, .approved)
  | reject => (.rejected, .rejected)

/-- The text of the status that the runtime has to return. -/
def ImprovementDecision.expectedText : ImprovementDecision → String
  | approve => "approved"
  | reject => "rejected"

/-- The columns of a review that name its run on the Agent Server. -/
structure OfficialReceipt where
  assistantId : String
  threadId : String
  runId : String
  interruptId : String
deriving DecidableEq

structure ImprovementReviewRow where
  id : ℕ
  status : ImprovementReviewStatus
  idempotencyKey : String
  official : Option OfficialReceipt := none
  reviewerUserId : Option ℕ := none
  response : Option (ImprovementDecision × Option String) := none
  decidedAt : Option ℕ := none
  /-- The experiment whose gate admitted the review. It is not a column. -/
  experimentId : ℕ
deriving DecidableEq

inductive ShadowStatus where
  | passed | failed
deriving DecidableEq, Repr

structure ImprovementShadowRun where
  id : ℕ
  baselineVersion : String
  status : ShadowStatus
  minimumRuns : ℕ
  observedRuns : ℕ
  idempotencyKey : String
  createdAt : ℕ
  /-- The experiment whose source hash enters the hash of the run. -/
  experimentId : ℕ
deriving DecidableEq

inductive ReleaseAction where
  | promoted | rolledBack
deriving DecidableEq, Repr

structure ImprovementReleaseEvent where
  id : ℕ
  action : ReleaseAction
  fromVersion : String
  toVersion : String
  rollbackTargetVersion : String
  reason : String
  reviewId : ℕ
  shadowRunId : ℕ
  /-- The experiment whose source hash is the evidence of the event. -/
  experimentId : ℕ
  createdAt : ℕ
deriving DecidableEq

/-- A candidate with the rows that refer to it. The events are in the order of their commits. -/
structure Improvement where
  candidate : ImprovementCandidate
  experiments : List ImprovementExperiment := []
  review : Option ImprovementReviewRow := none
  shadows : List ImprovementShadowRun := []
  events : List ImprovementReleaseEvent := []
deriving DecidableEq

/-- A row that a query with `order_by(created_at.desc()).limit(1)` may return. The query leaves the
choice among the latest rows open. -/
def pickLatest {ρ : Type} (id createdAt : ρ → ℕ) (rows : List ρ) (choice : ℕ) : Option ρ :=
  rows.find? fun r => id r == choice && rows.all fun r' => createdAt r' ≤ createdAt r

namespace Improvement

variable (f : Improvement)

/-- Sets the status of the candidate along the transitions. -/
def moveTo (target : CandidateStatus) : Option Improvement := do
  let status ← transitionCandidate f.candidate.status target
  some { f with candidate := { f.candidate with status := status } }

/-- The last part of `run_improvement_experiment`, for a new key. -/
def addExperiment (experiment : ImprovementExperiment) : Option Improvement :=
  let added := { f with experiments := f.experiments ++ [experiment] }
  match f.candidate.status with
  | .draft => added.moveTo .evaluated
  | .evaluated => some added
  | _ => none

/-- The experiment that `request_improvement_review` reads: among the latest ones, the one with the
greatest id. -/
def lastExperiment : Option ImprovementExperiment :=
  f.experiments.argmax fun e => toLex (e.createdAt, e.id)

/-- The latest experiment, as the other operations read it. -/
def latestExperiment (choice : ℕ) : Option ImprovementExperiment :=
  pickLatest ImprovementExperiment.id ImprovementExperiment.createdAt f.experiments choice

def latestShadow (choice : ℕ) : Option ImprovementShadowRun :=
  pickLatest ImprovementShadowRun.id ImprovementShadowRun.createdAt f.shadows choice

/-- The first transaction of `request_improvement_review`: the review that it finds or makes.
`admitted` says whether `admit_agent` lets a new review in. -/
def requestReview (key : String) (admitted : Bool) (reviewId : ℕ) :
    Option (Improvement × ImprovementReviewRow) := do
  let experiment ← f.lastExperiment
  guard (experiment.status = .succeeded ∧ experiment.gateApproved)
  match f.review with
  | some review => if review.idempotencyKey = key then some (f, review) else none
  | none =>
      guard (f.candidate.status = .evaluated ∧ admitted)
      let review : ImprovementReviewRow := {
        id := reviewId
        status := .pending
        idempotencyKey := key
        experimentId := experiment.id }
      let moved ← f.moveTo .pendingReview
      some ({ moved with review := some review }, review)

/-- The second transaction of `request_improvement_review`. -/
def recordStart (reviewId : ℕ) (receipt : OfficialReceipt) : Option Improvement := do
  let review ← f.review
  guard (review.id = reviewId ∧ review.status = .pending)
  some { f with review := some { review with official := some receipt } }

/-- The second transaction of `decide_improvement_review`. -/
def recordDecision (reviewer : ℕ) (decision : ImprovementDecision) (comment : Option String)
    (now : ℕ) : Option Improvement := do
  let review ← f.review
  if review.status = .pending then
    let moved ← f.moveTo decision.expected.2
    some { moved with
      review := some { review with
        status := decision.expected.1
        reviewerUserId := some reviewer
        response := some (decision, comment)
        decidedAt := some now } }
  else some f

/-- `run_improvement_shadow`, for a key that is new unless `used`. -/
def runShadow (used : Bool) (key : String) (minimumRuns id now choice : ℕ) :
    Option Improvement := do
  let review ← f.review
  let experiment ← f.latestExperiment choice
  guard (review.status = .approved ∧ experiment.status = .succeeded)
  if used then some f
  else
    let observedRuns := experiment.caseCount
    let passed := decide (minimumRuns ≤ observedRuns) && experiment.gateApproved
    let moved ← f.moveTo .shadow
    some { moved with
      shadows := f.shadows ++ [{
        id := id
        baselineVersion := f.candidate.baseVersion
        status := if passed then .passed else .failed
        minimumRuns := minimumRuns
        observedRuns := min observedRuns minimumRuns
        idempotencyKey := key
        createdAt := now
        experimentId := experiment.id }] }

/-- `_record_improvement_release`. -/
def recordRelease (action : ReleaseAction) (reason : String)
    (id now shadowChoice experimentChoice : ℕ) : Option Improvement := do
  let review ← f.review
  let shadow ← f.latestShadow shadowChoice
  let experiment ← f.latestExperiment experimentChoice
  if f.events.any fun event => event.action == action then some f
  else
    match action with
    | .promoted =>
        guard (f.candidate.status = .shadow ∧ review.status = .approved ∧ shadow.status = .passed)
        let moved ← f.moveTo .active
        some { moved with
          events := f.events ++ [{
            id := id
            action := .promoted
            fromVersion := f.candidate.baseVersion
            toVersion := f.candidate.candidateVersion
            rollbackTargetVersion := f.candidate.rollbackTargetVersion
            reason := reason
            reviewId := review.id
            shadowRunId := shadow.id
            experimentId := experiment.id
            createdAt := now }] }
    | .rolledBack =>
        guard (f.candidate.status = .active ∧ f.events.any fun event => event.action == .promoted)
        let moved ← f.moveTo .rolledBack
        some { moved with
          events := f.events ++ [{
            id := id
            action := .rolledBack
            fromVersion := f.candidate.candidateVersion
            toVersion := f.candidate.rollbackTargetVersion
            rollbackTargetVersion := f.candidate.rollbackTargetVersion
            reason := reason
            reviewId := review.id
            shadowRunId := shadow.id
            experimentId := experiment.id
            createdAt := now }] }

end Improvement

/-- A call to the review runtime that is under way. -/
inductive ReviewCall where
  | start (ownerId candidateId reviewId : ℕ)
  | decide (ownerId candidateId : ℕ) (decision : ImprovementDecision) (comment : Option String)
deriving DecidableEq

structure ReleaseState where
  improvements : List Improvement
  calls : List ReviewCall

/-- The calls of actors and of the review runtime. An owner is a user in a workspace. -/
inductive ReleaseLabel where
  | createCandidate (candidate : ImprovementCandidate)
  | runExperiment (ownerId candidateId : ℕ) (key promptVersion gitRevision : String)
      (outcome : Option GateOutcome) (id now : ℕ)
  | requestReview (ownerId candidateId : ℕ) (key : String) (admitted : Bool) (reviewId : ℕ)
  /-- The runtime answers a start, or the call comes to nothing. -/
  | reviewStarted (i : ℕ) (receipt : Option OfficialReceipt)
  | decideReview (ownerId candidateId : ℕ) (decision : ImprovementDecision)
      (comment : Option String)
  /-- The runtime answers a decision with a status, or the call comes to nothing. -/
  | reviewDecided (i : ℕ) (status : Option String) (now : ℕ)
  | runShadow (ownerId candidateId : ℕ) (key : String) (minimumRuns id now choice : ℕ)
  | recordRelease (ownerId candidateId : ℕ) (action : ReleaseAction) (reason : String)
      (id now shadowChoice experimentChoice : ℕ)

namespace ReleaseState

/-- The key of an improvement. -/
def key (f : Improvement) : ℕ := f.candidate.id

def init : ReleaseState := ⟨[], []⟩

variable (s : ReleaseState)

/-- The improvements of an owner. -/
def owned (ownerId : ℕ) : List Improvement :=
  s.improvements.filter fun f => f.candidate.ownerId == ownerId

/-- The candidate that a call names, in the scope of its actor. -/
def findScoped (ownerId candidateId : ℕ) : Option Improvement :=
  s.improvements.find? fun f => f.candidate.id == candidateId && f.candidate.ownerId == ownerId

/-- Writes an improvement back. -/
def write (f : Improvement) : ReleaseState :=
  { s with improvements := Table.put key s.improvements f }

/-- `create_improvement_candidate`. -/
def createCandidate (candidate : ImprovementCandidate) : Option ReleaseState := do
  let existing := (s.owned candidate.ownerId).find? fun f =>
    f.candidate.idempotencyKey == candidate.idempotencyKey
  match existing with
  | some f => if f.candidate.versionHash = candidate.versionHash then some s else none
  | none =>
      guard ((s.owned candidate.ownerId).all fun f =>
        f.candidate.versionHash != candidate.versionHash)
      let improvements ← Table.insert key s.improvements
        { candidate := { candidate with status := .draft } }
      some { s with improvements := improvements }

/-- `run_improvement_experiment`. The outcome is missing where the dataset is, or where the
experiment raises. -/
def runExperiment (ownerId candidateId : ℕ) (key promptVersion gitRevision : String)
    (outcome : Option GateOutcome) (id now : ℕ) : Option ReleaseState := do
  let f ← s.findScoped ownerId candidateId
  let experiments := (s.owned ownerId).flatMap Improvement.experiments
  if experiments.any fun e => e.idempotencyKey == key then some s
  else
    guard (s.improvements.all fun g => g.experiments.all fun e => e.id != id)
    let outcome ← outcome
    let f ← f.addExperiment {
      id := id
      status := if outcome.approved then .succeeded else .failed
      promptVersion := promptVersion
      gitRevision := gitRevision
      caseCount := outcome.caseCount
      gateApproved := outcome.approved
      idempotencyKey := key
      createdAt := now }
    some (s.write f)

/-- `request_improvement_review` up to the call of the runtime, unless it has been answered. -/
def requestReview (ownerId candidateId : ℕ) (key : String) (admitted : Bool) (reviewId : ℕ) :
    Option ReleaseState := do
  let f ← s.findScoped ownerId candidateId
  let (f, review) ← f.requestReview key admitted reviewId
  let s := s.write f
  match review.official with
  | some _ => some s
  | none => some { s with calls := s.calls ++ [.start ownerId candidateId review.id] }

/-- The second transaction of `request_improvement_review`. -/
def recordStart (ownerId candidateId reviewId : ℕ) (receipt : Option OfficialReceipt) :
    Option ReleaseState := do
  let receipt ← receipt
  let f ← s.findScoped ownerId candidateId
  let f ← f.recordStart reviewId receipt
  some (s.write f)

/-- `request_improvement_review` after the call of the runtime. -/
def reviewStarted (i : ℕ) (receipt : Option OfficialReceipt) : Option ReleaseState := do
  match ← s.calls[i]? with
  | .start ownerId candidateId reviewId =>
      let ended := { s with calls := s.calls.eraseIdx i }
      some ((ended.recordStart ownerId candidateId reviewId receipt).getD ended)
  | .decide _ _ _ _ => none

/-- `decide_improvement_review` up to the call of the runtime. -/
def decideReview (ownerId candidateId : ℕ) (decision : ImprovementDecision)
    (comment : Option String) : Option ReleaseState := do
  let f ← s.findScoped ownerId candidateId
  let review ← f.review
  if review.status ≠ .pending then some s
  else
    let _ ← review.official
    some { s with calls := s.calls ++ [.decide ownerId candidateId decision comment] }

/-- `decide_improvement_review` from the answer of the runtime on. -/
def recordDecision (ownerId candidateId : ℕ) (decision : ImprovementDecision)
    (comment : Option String) (status : Option String) (now : ℕ) : Option ReleaseState := do
  guard (status = some decision.expectedText)
  let f ← s.findScoped ownerId candidateId
  let f ← f.recordDecision ownerId decision comment now
  some (s.write f)

/-- `decide_improvement_review` after the call of the runtime. -/
def reviewDecided (i : ℕ) (status : Option String) (now : ℕ) : Option ReleaseState := do
  match ← s.calls[i]? with
  | .start _ _ _ => none
  | .decide ownerId candidateId decision comment =>
      let ended := { s with calls := s.calls.eraseIdx i }
      some ((ended.recordDecision ownerId candidateId decision comment status now).getD ended)

def runShadow (ownerId candidateId : ℕ) (key : String) (minimumRuns id now choice : ℕ) :
    Option ReleaseState := do
  let f ← s.findScoped ownerId candidateId
  let shadows := (s.owned ownerId).flatMap Improvement.shadows
  let f ← f.runShadow (shadows.any fun x => x.idempotencyKey == key) key minimumRuns id now choice
  some (s.write f)

def recordRelease (ownerId candidateId : ℕ) (action : ReleaseAction) (reason : String)
    (id now shadowChoice experimentChoice : ℕ) : Option ReleaseState := do
  let f ← s.findScoped ownerId candidateId
  let f ← f.recordRelease action reason id now shadowChoice experimentChoice
  some (s.write f)

/-- One transaction. A call that raises is no step, except that it ends a call of the runtime. -/
def step : ReleaseLabel → Option ReleaseState
  | .createCandidate candidate => s.createCandidate candidate
  | .runExperiment ownerId candidateId key promptVersion gitRevision outcome id now =>
      s.runExperiment ownerId candidateId key promptVersion gitRevision outcome id now
  | .requestReview ownerId candidateId key admitted reviewId =>
      s.requestReview ownerId candidateId key admitted reviewId
  | .reviewStarted i receipt => s.reviewStarted i receipt
  | .decideReview ownerId candidateId decision comment =>
      s.decideReview ownerId candidateId decision comment
  | .reviewDecided i status now => s.reviewDecided i status now
  | .runShadow ownerId candidateId key minimumRuns id now choice =>
      s.runShadow ownerId candidateId key minimumRuns id now choice
  | .recordRelease ownerId candidateId action reason id now shadowChoice experimentChoice =>
      s.recordRelease ownerId candidateId action reason id now shadowChoice experimentChoice

end ReleaseState

end CryptoAlert
