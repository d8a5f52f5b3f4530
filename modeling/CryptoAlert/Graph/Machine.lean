import CryptoAlert.Graph.Nodes
import CryptoAlert.Lib.Transition

/-!
# Runs of the analysis graph

The graph moves from node to node along the edges of its builder and pauses at the review
interrupt. A collaborator is called at most once in a run, so the results of the calls are
fixed for the whole run; the responses of the reviewer come one by one.
-/

namespace CryptoAlert

inductive Node where
  | validateRequest | runDeepResearch | collectMarketSnapshot | researchEvents | analyzeMarket
  | validateEvidence | applyRiskPolicy | buildArtifact | reviewPolicy | interruptReview
  | applyEdits | commitArtifact | complete | completeBlocked | completeFailed
deriving DecidableEq, Repr

inductive Position where
  | node (n : Node)
  /-- Waiting for the reviewer, who sees the payload. -/
  | paused (payload : ReviewPayload)
  | ended
  /-- An exception has escaped from a node. -/
  | raised
deriving DecidableEq

/-- `_after_external_call`. -/
def afterExternalCall (s : AnalysisState) (next : Node) : Node :=
  if s.terminalStatus = some .failed then .completeFailed else next

/-- `_after_request_validation`. -/
def afterRequestValidation (s : AnalysisState) : Node :=
  if s.terminalStatus = some .failed then .completeFailed
  else if s.taskType = some .deepResearch then .runDeepResearch
  else .collectMarketSnapshot

/-- `_after_review_policy`. -/
def afterReviewPolicy (s : AnalysisState) : Node :=
  if s.reviewPolicy = some .required then .interruptReview
  else if s.terminalStatus = some .blocked then .completeBlocked
  else .commitArtifact

/-- `_after_review`. -/
def afterReview (s : AnalysisState) : Node :=
  match s.reviewAction with
  | some .edit => .applyEdits
  | some .reject => .completeBlocked
  | some .approve =>
      if s.terminalStatus = some .blocked then .completeBlocked else .commitArtifact
  | none => .completeBlocked

/-- `_after_edits`. -/
def afterEdits (s : AnalysisState) : Node :=
  if s.taskType = some .deepResearch then .reviewPolicy else .validateEvidence

/-- The outgoing edges of a node. -/
def edge (n : Node) (s : AnalysisState) : Position :=
  match n with
  | .validateRequest => .node (afterRequestValidation s)
  | .runDeepResearch => .node (afterExternalCall s .reviewPolicy)
  | .collectMarketSnapshot => .node (afterExternalCall s .researchEvents)
  | .researchEvents => .node (afterExternalCall s .analyzeMarket)
  | .analyzeMarket => .node (afterExternalCall s .validateEvidence)
  | .validateEvidence => .node .applyRiskPolicy
  | .applyRiskPolicy => .node .buildArtifact
  | .buildArtifact => .node .reviewPolicy
  | .reviewPolicy => .node (afterReviewPolicy s)
  | .interruptReview => .node (afterReview s)
  | .applyEdits => .node (afterEdits s)
  | .commitArtifact => .node .complete
  | .complete | .completeBlocked | .completeFailed => .ended

structure GraphRun where
  position : Position
  state : AnalysisState
  events : List ProductEvent
  /-- The reviews handled so far, each with the payload it answers. -/
  reviews : List (ReviewPayload × ReviewResponse)

/-- Starting a run writes the input over the channels of the thread. -/
def GraphRun.start (input : RunInput) (s : AnalysisState) : GraphRun :=
  ⟨.node .validateRequest,
    { s with request := some input.request, reviewPolicy := some input.reviewPolicy }, [], []⟩

inductive GraphLabel where
  | advance
  | respond (response : ReviewResponse)

section Steps

variable (u : Text.UnicodeData) (cfg : GraphConfig) (ext : Externals)

/-- The function of a node; the review interrupt is split into pause and resumption. -/
def runNode (n : Node) (s : AnalysisState) : NodeResult :=
  match n with
  | .validateRequest => validateRequest u cfg s
  | .runDeepResearch => runDeepResearch u cfg ext s
  | .collectMarketSnapshot => collectMarketSnapshot u ext s
  | .researchEvents => researchEvents u ext s
  | .analyzeMarket => analyzeMarket u ext s
  | .validateEvidence => validateEvidence s
  | .applyRiskPolicy => applyRisk s
  | .buildArtifact => buildArtifact u cfg s
  | .reviewPolicy => reviewPolicyNode s
  | .interruptReview => none
  | .applyEdits => applyEdits s
  | .commitArtifact => commitArtifact s
  | .complete => complete s
  | .completeBlocked => completeBlocked s
  | .completeFailed => completeFailed s

namespace GraphRun

def raise (r : GraphRun) : GraphRun := { r with position := .raised }

/-- Takes over what a node returns, once its events are emitted. -/
def finish (r : GraphRun) (n : Node) (result : NodeResult) : GraphRun :=
  match result with
  | none => r.raise
  | some (s, events) =>
      match emit cfg.hasIdentity events with
      | none => r.raise
      | some emitted => { r with position := edge n s, state := s, events := r.events ++ emitted }

/-- Pauses for review, or raises if there is no payload to show. -/
def pause (r : GraphRun) : GraphRun :=
  match reviewPayload u r.state with
  | some payload => { r with position := .paused payload }
  | none => r.raise

def advance (r : GraphRun) : Option GraphRun :=
  match r.position with
  | .node .interruptReview => some (r.pause u)
  | .node n => some (r.finish cfg n (runNode u cfg ext n r.state))
  | _ => none

/-- Keeps a review that has been handled. -/
def record (r : GraphRun) (payload : ReviewPayload) (response : ReviewResponse) : GraphRun :=
  { r with reviews := r.reviews ++ [(payload, response)] }

/-- Resumes the interrupt; a response that is no answer to the payload raises. -/
def respond (response : ReviewResponse) (r : GraphRun) : Option GraphRun :=
  match r.position with
  | .paused payload =>
      if validateReviewResponseForPayload payload response then
        some ((r.record payload response).finish cfg .interruptReview
          (some (resumeReview response r.state)))
      else some r.raise
  | _ => none

def step (r : GraphRun) : GraphLabel → Option GraphRun
  | .advance => r.advance u cfg ext
  | .respond response => r.respond cfg response

end GraphRun

end Steps

section Inversion

variable {u : Text.UnicodeData} {cfg : GraphConfig} {ext : Externals} {r r' : GraphRun}

variable (cfg r) in
/-- What a node that does not raise leaves behind. -/
theorem GraphRun.finish_cases (n : Node) (result : NodeResult) :
    r.finish cfg n result = r.raise ∨
      ∃ s events emitted, result = some (s, events) ∧ emit cfg.hasIdentity events = some emitted ∧
        r.finish cfg n result =
          { r with position := edge n s, state := s, events := r.events ++ emitted } := by
  unfold finish
  cases result with
  | none => exact .inl rfl
  | some result =>
      obtain ⟨s, events⟩ := result
      cases h : emit cfg.hasIdentity events with
      | none => exact .inl (by simp only [h])
      | some emitted => exact .inr ⟨s, events, emitted, rfl, h, by simp only [h]⟩

/-- What one step of a run can do. -/
theorem GraphRun.step_cases {l : GraphLabel} (h : r.step u cfg ext l = some r') :
    r'.position = .raised ∨
    (∃ n s events, r.position = .node n ∧ n ≠ .interruptReview ∧
      runNode u cfg ext n r.state = some (s, events) ∧ r'.position = edge n s ∧ r'.state = s ∧
      r'.reviews = r.reviews) ∨
    (∃ payload, r.position = .node .interruptReview ∧ reviewPayload u r.state = some payload ∧
      r'.position = .paused payload ∧ r'.state = r.state ∧ r'.reviews = r.reviews) ∨
    (∃ payload response, r.position = .paused payload ∧
      validateReviewResponseForPayload payload response = true ∧
      r'.state = (resumeReview response r.state).1 ∧
      r'.position = edge .interruptReview r'.state ∧
      r'.reviews = r.reviews ++ [(payload, response)]) := by
  cases l with
  | advance =>
      cases hp : r.position with
      | node n =>
          by_cases hn : n = .interruptReview
          · subst hn
            simp only [step, advance, hp, Option.some.injEq] at h
            cases hpay : reviewPayload u r.state with
            | none =>
                simp only [pause, hpay] at h
                exact .inl (by rw [← h]; rfl)
            | some payload =>
                simp only [pause, hpay] at h
                exact .inr (.inr (.inl ⟨payload, rfl, rfl, by rw [← h], by rw [← h], by rw [← h]⟩))
          · have hadv : r' = r.finish cfg n (runNode u cfg ext n r.state) := by
              cases n <;> simp only [step, advance, hp, Option.some.injEq] at h <;>
                first | exact h.symm | exact absurd rfl hn
            rcases finish_cases cfg r n (runNode u cfg ext n r.state) with
              hf | ⟨s, events, emitted, hs, -, hf⟩
            · exact .inl (by rw [hadv, hf]; rfl)
            · exact .inr (.inl ⟨n, s, events, rfl, hn, hs, by rw [hadv, hf], by rw [hadv, hf],
                by rw [hadv, hf]⟩)
      | paused payload => simp [step, advance, hp] at h
      | ended => simp [step, advance, hp] at h
      | raised => simp [step, advance, hp] at h
  | respond response =>
      cases hp : r.position with
      | paused payload =>
          simp only [step, respond, hp] at h
          by_cases hv : validateReviewResponseForPayload payload response = true
          · rw [if_pos hv, Option.some.injEq] at h
            rcases finish_cases cfg (r.record payload response) .interruptReview
              (some (resumeReview response r.state)) with hf | ⟨s, events, emitted, hs, -, hf⟩
            · exact .inl (by rw [← h, hf]; rfl)
            · rw [Option.some.injEq] at hs
              exact .inr (.inr (.inr ⟨payload, response, rfl, hv, by rw [← h, hf, hs],
                by rw [← h, hf], by rw [← h, hf]; rfl⟩))
          · rw [if_neg hv, Option.some.injEq] at h
            exact .inl (by rw [← h]; rfl)
      | node n => simp [step, respond, hp] at h
      | ended => simp [step, respond, hp] at h
      | raised => simp [step, respond, hp] at h

end Inversion

end CryptoAlert
