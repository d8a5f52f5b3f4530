import CryptoAlert.Graph.Machine

/-!
# Driving a run of the analysis graph

A run goes on by itself until it pauses, ends or raises. Every edge that it takes by itself
leads to a node of smaller rank, so it cannot go on for ever between two responses.
-/

namespace CryptoAlert

/-- The channels that a run reports when it ends. -/
structure GraphOutput where
  terminalStatus : Option TerminalStatus
  marketSnapshot : Option MarketSnapshot
  webEvidence : List (WebEvidence HttpUrl)
  modelAudits : List ModelExecutionAudit
  artifact : Option Artifact
  deepResearchArtifact : Option (DeepResearchArtifact ReadUrl)
  errors : List GraphError

def AnalysisState.output (s : AnalysisState) : GraphOutput :=
  ⟨s.terminalStatus, s.marketSnapshot, s.webEvidence, s.modelAudits, s.artifact,
    s.deepResearchArtifact, s.errors⟩

inductive GraphOutcome where
  | ended (output : GraphOutput)
  | paused (payload : ReviewPayload)
  | raised
  | unfinished

def GraphRun.outcome (r : GraphRun) : GraphOutcome :=
  match r.position with
  | .ended => .ended r.state.output
  | .paused payload => .paused payload
  | .raised => .raised
  | .node _ => .unfinished

section Execution

variable (u : Text.UnicodeData) (cfg : GraphConfig) (ext : Externals)

/-- Runs nodes until the graph pauses, ends or raises. -/
def settle : ℕ → GraphRun → GraphRun
  | 0, r => r
  | fuel + 1, r =>
      match r.advance u cfg ext with
      | some r' => settle fuel r'
      | none => r

/-- An upper bound on the number of nodes between two pauses. -/
def settleSteps : ℕ := 16

/-- Answers a pause; a run that does not wait for an answer is left as it is. -/
def answer (r : GraphRun) (response : ReviewResponse) : GraphRun :=
  match r.respond cfg response with
  | some r' => settle u cfg ext settleSteps r'
  | none => r

/-- A run on a thread, with the responses of its reviewer. -/
def execute (input : RunInput) (responses : List ReviewResponse) (s : AnalysisState) : GraphRun :=
  responses.foldl (answer u cfg ext) (settle u cfg ext settleSteps (GraphRun.start input s))

end Execution

section Settled

/-- How many nodes may still follow before the next pause. -/
def Node.rank : Node → ℕ
  | .validateRequest => 15
  | .runDeepResearch => 14
  | .collectMarketSnapshot => 14
  | .researchEvents => 13
  | .analyzeMarket => 12
  | .applyEdits => 11
  | .validateEvidence => 10
  | .applyRiskPolicy => 9
  | .buildArtifact => 8
  | .reviewPolicy => 7
  | .interruptReview => 6
  | .commitArtifact => 2
  | .complete | .completeBlocked | .completeFailed => 1

def Position.rank : Position → ℕ
  | .node n => n.rank
  | _ => 0

/-- Every edge that a run takes by itself leads to a smaller rank. -/
theorem rank_edge_lt (n : Node) (s : AnalysisState) (hn : n ≠ .interruptReview) :
    (edge n s).rank < n.rank := by
  cases n with
  | interruptReview => exact absurd rfl hn
  | validateRequest =>
      simp only [edge, afterRequestValidation]
      split_ifs <;> decide
  | runDeepResearch | collectMarketSnapshot | researchEvents | analyzeMarket =>
      simp only [edge, afterExternalCall]
      split_ifs <;> decide
  | reviewPolicy =>
      simp only [edge, afterReviewPolicy]
      split_ifs <;> decide
  | applyEdits =>
      simp only [edge, afterEdits]
      split_ifs <;> decide
  | validateEvidence | applyRiskPolicy | buildArtifact | commitArtifact | complete
  | completeBlocked | completeFailed => simp [edge, Position.rank, Node.rank]

variable {u : Text.UnicodeData} {cfg : GraphConfig} {ext : Externals}

/-- A node that returns with valid events leads on along its edge. -/
theorem advance_of_runNode {r : GraphRun} {n : Node} {s : AnalysisState}
    {events : List ProductEvent} (hp : r.position = .node n)
    (hrun : runNode u cfg ext n r.state = some (s, events))
    (hvalid : cfg.hasIdentity = true → ∀ e ∈ events, e.isValid = true) :
    ∃ emitted, r.advance u cfg ext = some ⟨edge n s, s, r.events ++ emitted, r.reviews⟩ := by
  obtain ⟨emitted, hemit⟩ := Option.isSome_iff_exists.mp (emit_isSome hvalid)
  have hfinish : r.finish cfg n (runNode u cfg ext n r.state) =
      ⟨edge n s, s, r.events ++ emitted, r.reviews⟩ := by
    simp only [GraphRun.finish, hrun, hemit]
  refine ⟨emitted, ?_⟩
  cases n <;> simp only [GraphRun.advance, hp, hfinish]
  cases hrun

theorem rank_advance_lt {r r' : GraphRun} (h : r.advance u cfg ext = some r') :
    r'.position.rank < r.position.rank := by
  have hpos {n : Node} : 0 < n.rank := by cases n <;> decide
  have hstep : r.step u cfg ext .advance = some r' := h
  rcases GraphRun.step_cases hstep with hraised |
    ⟨n, s, events, hp, hn, -, hposition, -⟩ | ⟨payload, hp, -, hposition, -⟩ |
    ⟨payload, response, hp, -⟩
  · cases hp : r.position with
    | node n =>
        rw [hraised]
        exact hpos
    | paused | ended | raised => simp [GraphRun.advance, hp] at h
  · rw [hp, hposition]
    exact rank_edge_lt n s hn
  · rw [hp, hposition]
    exact hpos (n := .interruptReview)
  · simp [GraphRun.advance, hp] at h

theorem settle_succ {fuel : ℕ} {r r' : GraphRun} (h : r.advance u cfg ext = some r') :
    settle u cfg ext (fuel + 1) r = settle u cfg ext fuel r' := by
  simp only [settle, h]

theorem settle_of_none {r : GraphRun} (h : r.advance u cfg ext = none) (fuel : ℕ) :
    settle u cfg ext fuel r = r := by
  cases fuel with
  | zero => rfl
  | succ fuel => simp only [settle, h]

/-- Enough fuel leads to a run that cannot go on by itself. -/
theorem advance_settle (fuel : ℕ) (r : GraphRun) (h : r.position.rank ≤ fuel) :
    (settle u cfg ext fuel r).advance u cfg ext = none := by
  induction fuel generalizing r with
  | zero =>
      by_contra hsome
      obtain ⟨r', hr'⟩ := Option.ne_none_iff_exists'.mp hsome
      have hlt := rank_advance_lt hr'
      simp only [settle] at hlt
      omega
  | succ fuel ih =>
      simp only [settle]
      cases hadvance : r.advance u cfg ext with
      | none => exact hadvance
      | some r' =>
          have hlt := rank_advance_lt hadvance
          exact ih r' (by omega)

end Settled

end CryptoAlert
