import CryptoAlert.Graph.Machine

/-!
# Gate safety of the market analysis graph

Along a run the channels describe one assessment: a snapshot, a research bundle and an analysis,
from which both verdicts follow. Each stage of the graph adds a channel to it, and an edit leads
back to the stage before the verdicts.
-/

namespace CryptoAlert

/-- The snapshot that the collaborators of a run provide. -/
def collectedSnapshot (ext : Externals) : Option MarketSnapshot :=
  match ext.market with
  | .ok provided => provided.toDomain
  | .error primary =>
      match fallbackFor ext primary with
      | some (.ok result) => some result.snapshot
      | _ => none

def collectedResearch (ext : Externals) : Option ResearchBundle :=
  match ext.research with
  | .ok result => some result.bundle
  | .error _ => none

/-- What a market analysis is judged on. -/
structure Assessment where
  snapshot : MarketSnapshot
  bundle : ResearchBundle
  analysis : MarketAnalysis

namespace Assessment

def evidence (m : Assessment) : EvidenceVerdict :=
  checkEvidenceSufficiency m.snapshot m.bundle m.analysis.mainAction

def risk (m : Assessment) : RiskVerdict := applyRiskPolicy m.analysis m.evidence .default

end Assessment

section Stages

variable (cfg : GraphConfig) (ext : Externals) (input : RunInput)

/-- Review is required if either side asks for it. -/
def reviewRequired : Prop :=
  input.reviewPolicy = .required ∨ cfg.serverReviewPolicy = .required

structure Requested (s : AnalysisState) : Prop where
  taskType : s.taskType = some .marketAnalysis
  request : ∃ r, s.request = some r ∧ r.symbol = input.request.symbol ∧
    r.horizon = input.request.horizon
  policy : s.reviewPolicy = some .required ↔ reviewRequired cfg input

structure Collected (s : AnalysisState) (market : MarketSnapshot) : Prop
    extends Requested cfg input s where
  snapshot : s.marketSnapshot = some market
  provided : collectedSnapshot ext = some market

structure Researched (s : AnalysisState) (market : MarketSnapshot) (research : ResearchBundle) :
    Prop extends Collected cfg ext input s market where
  bundle : s.researchBundle = some research
  researched : collectedResearch ext = some research

structure Analysed (s : AnalysisState) (m : Assessment) : Prop
    extends Researched cfg ext input s m.snapshot m.bundle where
  analysis : s.analysis = some m.analysis
  instrument : m.analysis.instrument = input.request.symbol
  horizon : m.analysis.horizon.val = input.request.horizon

structure EvidenceChecked (s : AnalysisState) (m : Assessment) : Prop
    extends Analysed cfg ext input s m where
  evidence : s.evidenceVerdict = some m.evidence

structure RiskChecked (s : AnalysisState) (m : Assessment) : Prop
    extends EvidenceChecked cfg ext input s m where
  risk : s.riskVerdict = some m.risk
  status : s.terminalStatus = some (if m.risk.allowed then .running else .blocked)

/-- An artifact that shows the assessment. -/
structure Shows (a : Artifact) (m : Assessment) : Prop where
  analysis : a.analysis = m.analysis
  evidence : a.evidenceVerdict = m.evidence
  risk : a.riskVerdict = m.risk

structure Built (s : AnalysisState) (m : Assessment) (draft : Artifact) : Prop
    extends RiskChecked cfg ext input s m where
  artifact : s.artifact = some draft
  isDraft : draft.status = .draft
  shows : Shows draft m

/-- The last review approves the draft, where review is required. -/
def Approved (r : GraphRun) (draft : Artifact) : Prop :=
  reviewRequired cfg input →
    ∃ earlier payload response, r.reviews = earlier ++ [(.artifact payload, response)] ∧
      response.action = .approve ∧ payload.artifact = draft

def NoReject (r : GraphRun) : Prop := ∀ x ∈ r.reviews, x.2.action ≠ .reject

/-- A succeeded run has released an assessment that passed both gates. -/
structure Released (r : GraphRun) (m : Assessment) (draft : Artifact) : Prop
    extends Researched cfg ext input r.state m.snapshot m.bundle where
  analysis : r.state.analysis = some m.analysis
  instrument : m.analysis.instrument = input.request.symbol
  horizon : m.analysis.horizon.val = input.request.horizon
  allowed : m.risk.allowed = true
  shows : Shows draft m
  artifact : r.state.artifact = some { draft with status := .committed }
  approved : Approved cfg input r draft

/-- What holds of a run at each position. -/
def Gate (r : GraphRun) : Prop :=
  match r.position with
  | .node .validateRequest =>
      r.state.request = some input.request ∧ r.state.reviewPolicy = some input.reviewPolicy ∧
        NoReject r
  | .node .runDeepResearch => False
  | .node .collectMarketSnapshot => Requested cfg input r.state ∧ NoReject r
  | .node .researchEvents => (∃ snapshot, Collected cfg ext input r.state snapshot) ∧ NoReject r
  | .node .analyzeMarket => (∃ snapshot bundle, Researched cfg ext input r.state snapshot bundle) ∧ NoReject r
  | .node .validateEvidence | .node .applyEdits =>
      (∃ m, Analysed cfg ext input r.state m) ∧ NoReject r
  | .node .applyRiskPolicy => (∃ m, EvidenceChecked cfg ext input r.state m) ∧ NoReject r
  | .node .buildArtifact => (∃ m, RiskChecked cfg ext input r.state m) ∧ NoReject r
  | .node .reviewPolicy | .node .interruptReview =>
      (∃ m draft, Built cfg ext input r.state m draft) ∧ NoReject r
  | .paused payload =>
      (∃ m p, payload = .artifact p ∧ Built cfg ext input r.state m p.artifact) ∧ NoReject r
  | .node .commitArtifact =>
      (∃ m draft, Built cfg ext input r.state m draft ∧ m.risk.allowed = true ∧
        Approved cfg input r draft) ∧ NoReject r
  | .node .complete => (∃ m draft, Released cfg ext input r m draft) ∧ NoReject r
  | .node .completeBlocked =>
      Requested cfg input r.state ∧
        (NoReject r ∨ r.state.reviewAction = some .reject ∧ r.state.artifact.isSome)
  | .node .completeFailed => NoReject r
  | .ended =>
      (r.state.terminalStatus = some .succeeded → ∃ m draft, Released cfg ext input r m draft) ∧
        (NoReject r ∨ r.state.terminalStatus = some .blocked ∧
          ∃ draft, r.state.artifact = some draft ∧ draft.status = .draft)
  | .raised => True

end Stages

section Nodes

variable {u : Text.UnicodeData} {cfg : GraphConfig} {ext : Externals} {input : RunInput}
  {s s' : AnalysisState} {events : List ProductEvent}

theorem validateRequest_requested (hmarket : input.request.taskType = .marketAnalysis)
    (hs : s.request = some input.request) (hpolicy : s.reviewPolicy = some input.reviewPolicy)
    (h : validateRequest u cfg s = some (s', events)) :
    Requested cfg input s' ∧ s'.terminalStatus = some .running := by
  obtain ⟨raw, hraw, h⟩ := Option.bind_eq_some_iff.mp h
  obtain ⟨q, hq, h⟩ := Option.bind_eq_some_iff.mp h
  have hinput : raw = input.request := Option.some.inj (hraw.symm.trans hs)
  rw [hinput] at hq
  obtain ⟨htask, hsymbol, hhorizon⟩ := RequestFields.validated_identity hq
  cases h
  refine ⟨⟨congrArg some (htask.trans hmarket), ⟨q, rfl, hsymbol, hhorizon⟩, ?_⟩, rfl⟩
  simp only [effectivePolicy, hpolicy, reviewRequired, Option.some.injEq]
  split_ifs with hrequired
  · exact iff_of_true rfl hrequired
  · exact iff_of_false nofun hrequired

theorem collectMarketSnapshot_collected (hs : Requested cfg input s)
    (h : collectMarketSnapshot u ext s = some (s', events)) :
    s'.terminalStatus = some .failed ∨ ∃ snapshot, Collected cfg ext input s' snapshot := by
  obtain ⟨raw, -, h⟩ := Option.bind_eq_some_iff.mp h
  obtain ⟨_, -, h⟩ := Option.bind_eq_some_iff.mp h
  cases hm : ext.market with
  | ok provided =>
      simp only [hm] at h
      obtain ⟨snapshot, hsnapshot, h⟩ := Option.bind_eq_some_iff.mp h
      cases h
      exact .inr ⟨snapshot, ⟨hs.taskType, hs.request, hs.policy⟩, rfl, by simp only [collectedSnapshot, hm, hsnapshot]⟩
  | error primary =>
      simp only [hm] at h
      cases hf : fallbackFor ext primary with
      | none =>
          simp only [hf] at h
          cases h
          exact .inl rfl
      | some result =>
          cases result with
          | error e =>
              simp only [hf] at h
              cases h
              exact .inl rfl
          | ok result =>
              simp only [hf] at h
              cases h
              exact .inr ⟨result.snapshot, ⟨hs.taskType, hs.request, hs.policy⟩, rfl,
                by simp only [collectedSnapshot, hm, hf]⟩

theorem researchEvents_researched {market : MarketSnapshot} (hs : Collected cfg ext input s market)
    (h : researchEvents u ext s = some (s', events)) :
    s'.terminalStatus = some .failed ∨ ∃ research, Researched cfg ext input s' market research := by
  obtain ⟨raw, -, h⟩ := Option.bind_eq_some_iff.mp h
  obtain ⟨_, -, h⟩ := Option.bind_eq_some_iff.mp h
  cases hr : ext.research with
  | error e =>
      simp only [hr] at h
      cases h
      exact .inl rfl
  | ok result =>
      simp only [hr] at h
      obtain ⟨merged, -, h⟩ := Option.bind_eq_some_iff.mp h
      cases h
      exact .inr ⟨result.bundle, ⟨⟨hs.taskType, hs.request, hs.policy⟩, hs.snapshot, hs.provided⟩, rfl,
        by simp only [collectedResearch, hr]⟩

theorem analyzeMarket_analysed {market : MarketSnapshot} {research : ResearchBundle}
    (hs : Researched cfg ext input s market research)
    (h : analyzeMarket u ext s = some (s', events)) :
    s'.terminalStatus = some .failed ∨ ∃ m, Analysed cfg ext input s' m := by
  obtain ⟨raw, hraw, h⟩ := Option.bind_eq_some_iff.mp h
  obtain ⟨snapshot, hsnapshot, h⟩ := Option.bind_eq_some_iff.mp h
  obtain ⟨bundle, hbundle, h⟩ := Option.bind_eq_some_iff.mp h
  cases ha : ext.analysis with
  | error e =>
      simp only [ha] at h
      cases h
      exact .inl rfl
  | ok result =>
      obtain ⟨analysis, audit⟩ := result
      simp only [ha] at h
      obtain ⟨request, hrequest, h⟩ := Option.bind_eq_some_iff.mp h
      by_cases hinstrument : analysis.instrument ≠ request.symbol
      · rw [if_pos hinstrument] at h
        cases h
        exact .inl rfl
      · by_cases hhorizon : analysis.horizon.val ≠ request.horizon.val
        · rw [if_neg hinstrument, if_pos hhorizon] at h
          cases h
          exact .inl rfl
        · rw [if_neg hinstrument, if_neg hhorizon] at h
          cases h
          obtain ⟨-, hsymbol, hrequestHorizon⟩ := RequestFields.analysis_identity hrequest
          obtain ⟨r, hr, hrs, hrh⟩ := hs.request
          have hsame : raw = r := Option.some.inj (hraw.symm.trans hr)
          rw [hsame] at hsymbol hrequestHorizon
          refine .inr ⟨⟨market, research, _⟩, ⟨⟨⟨hs.taskType, hs.request, hs.policy⟩, hs.snapshot,
            hs.provided⟩, hs.bundle, hs.researched⟩, rfl, ?_, ?_⟩
          · exact (not_not.mp hinstrument).trans (hsymbol.trans hrs)
          · exact (not_not.mp hhorizon).trans (hrequestHorizon.trans hrh)

theorem validateEvidence_checked {m : Assessment} (hs : Analysed cfg ext input s m)
    (h : validateEvidence s = some (s', events)) : EvidenceChecked cfg ext input s' m := by
  unfold validateEvidence at h
  rw [hs.snapshot, hs.bundle, hs.analysis] at h
  cases h
  exact ⟨⟨⟨⟨⟨hs.taskType, hs.request, hs.policy⟩, rfl, hs.provided⟩, rfl, hs.researched⟩, rfl,
    hs.instrument, hs.horizon⟩, rfl⟩

theorem applyRisk_checked {m : Assessment} (hs : EvidenceChecked cfg ext input s m)
    (h : applyRisk s = some (s', events)) : RiskChecked cfg ext input s' m := by
  unfold applyRisk at h
  rw [hs.analysis, hs.evidence] at h
  cases h
  exact ⟨⟨⟨⟨⟨⟨hs.taskType, hs.request, hs.policy⟩, hs.snapshot, hs.provided⟩, hs.bundle, hs.researched⟩,
    rfl, hs.instrument, hs.horizon⟩, rfl⟩, rfl, rfl⟩

theorem buildArtifact_built {m : Assessment} (hs : RiskChecked cfg ext input s m)
    (h : buildArtifact u cfg s = some (s', events)) :
    ∃ draft, Built cfg ext input s' m draft := by
  unfold buildArtifact at h
  rw [hs.snapshot, hs.analysis, hs.evidence, hs.risk] at h
  obtain ⟨_, h', h⟩ := Option.bind_eq_some_iff.mp h
  cases h'
  obtain ⟨_, h', h⟩ := Option.bind_eq_some_iff.mp h
  cases h'
  obtain ⟨_, h', h⟩ := Option.bind_eq_some_iff.mp h
  cases h'
  obtain ⟨_, h', h⟩ := Option.bind_eq_some_iff.mp h
  cases h'
  obtain ⟨provenance, -, h⟩ := Option.bind_eq_some_iff.mp h
  cases h
  exact ⟨_, ⟨⟨⟨⟨⟨⟨hs.taskType, hs.request, hs.policy⟩, rfl, hs.provided⟩, hs.bundle, hs.researched⟩, rfl,
    hs.instrument, hs.horizon⟩, rfl⟩, rfl, hs.status⟩, rfl, rfl, rfl, rfl, rfl⟩

theorem not_deepResearch (hs : Requested cfg input s) : s.taskType ≠ some .deepResearch := by
  rw [hs.taskType]
  decide

/-- The status of an assessed run is not blocked only if the risk verdict allows it. -/
theorem RiskChecked.allowed {m : Assessment} (hs : RiskChecked cfg ext input s m)
    (h : s.terminalStatus ≠ some .blocked) : m.risk.allowed = true := by
  by_contra hallowed
  rw [hs.status, if_neg hallowed] at h
  exact h rfl

/-- The draft of a blocked run carries a refusing verdict. -/
theorem Built.refused {m : Assessment} {draft : Artifact} (hs : Built cfg ext input s m draft)
    (h : s.terminalStatus = some .blocked) : draft.riskVerdict.allowed = false := by
  rw [hs.shows.risk]
  by_contra hallowed
  rw [hs.status, if_pos (by simpa using hallowed)] at h
  cases h

theorem reviewPayload_artifact {m : Assessment} {draft : Artifact} {payload : ReviewPayload}
    (hs : Built cfg ext input s m draft) (h : reviewPayload u s = some payload) :
    ∃ p, payload = .artifact p ∧ p.artifact = draft := by
  rw [reviewPayload, if_neg (not_deepResearch hs.toRequested)] at h
  obtain ⟨artifact, hartifact, h⟩ := Option.bind_eq_some_iff.mp h
  have hsame : artifact = draft := Option.some.inj (hartifact.symm.trans hs.artifact)
  split_ifs at h
  cases h
  exact ⟨_, rfl, hsame⟩

/-- Handling a review changes no channel of the assessment. -/
theorem Built.resumeReview {m : Assessment} {draft : Artifact} (response : ReviewResponse)
    (hs : Built cfg ext input s m draft) : Built cfg ext input (resumeReview response s).1 m draft :=
  ⟨⟨⟨⟨⟨⟨⟨hs.taskType, hs.request, hs.policy⟩, hs.snapshot, hs.provided⟩, hs.bundle, hs.researched⟩,
    hs.analysis, hs.instrument, hs.horizon⟩, hs.evidence⟩, hs.risk, hs.status⟩, hs.artifact,
    hs.isDraft, hs.shows⟩

theorem applyEdits_analysed {m : Assessment} (hs : Analysed cfg ext input s m)
    (h : applyEdits s = some (s', events)) : ∃ m', Analysed cfg ext input s' m' := by
  simp only [applyEdits, if_neg (not_deepResearch hs.toRequested)] at h
  split at h
  · obtain ⟨current, hcurrent, h⟩ := Option.bind_eq_some_iff.mp h
    obtain ⟨edited, hedited, h⟩ := Option.bind_eq_some_iff.mp h
    cases h
    have hsame : current = m.analysis := Option.some.inj (hcurrent.symm.trans hs.analysis)
    obtain ⟨hinstrument, hhorizon⟩ := ArtifactEdit.apply_identity hedited
    rw [hsame] at hinstrument hhorizon
    exact ⟨⟨m.snapshot, m.bundle, edited⟩, ⟨⟨⟨hs.taskType, hs.request, hs.policy⟩, hs.snapshot,
      hs.provided⟩, hs.bundle, hs.researched⟩, rfl, hinstrument.trans hs.instrument,
      (congrArg Subtype.val hhorizon).trans hs.horizon⟩
  · cases h

theorem commitArtifact_released {m : Assessment} {draft : Artifact} {r r' : GraphRun}
    (hs : Built cfg ext input r.state m draft) (hallowed : m.risk.allowed = true)
    (happroved : Approved cfg input r draft) (h : commitArtifact r.state = some (s', events))
    (hstate : r'.state = s') (hreviews : r'.reviews = r.reviews) :
    Released cfg ext input r' m draft := by
  simp only [commitArtifact, if_neg (not_deepResearch hs.toRequested)] at h
  obtain ⟨artifact, hartifact, h⟩ := Option.bind_eq_some_iff.mp h
  cases h
  have hsame : artifact = draft := Option.some.inj (hartifact.symm.trans hs.artifact)
  refine ⟨⟨⟨⟨?_, ?_, ?_⟩, ?_, hs.provided⟩, ?_, hs.researched⟩, ?_, hs.instrument, hs.horizon,
    hallowed, hs.shows, ?_, ?_⟩
  · rw [hstate]; exact hs.taskType
  · rw [hstate]; exact hs.request
  · rw [hstate]; exact hs.policy
  · rw [hstate]; exact hs.snapshot
  · rw [hstate]; exact hs.bundle
  · rw [hstate]; exact hs.analysis
  · rw [hstate, hsame]
  · unfold Approved
    rw [hreviews]
    exact happroved

/-- Completion changes nothing that is released. -/
theorem Released.complete {m : Assessment} {draft : Artifact} {r r' : GraphRun}
    (hs : Released cfg ext input r m draft) (h : complete r.state = some (s', events))
    (hstate : r'.state = s') (hreviews : r'.reviews = r.reviews) :
    Released cfg ext input r' m draft := by
  cases h
  refine ⟨⟨⟨⟨?_, ?_, ?_⟩, ?_, hs.provided⟩, ?_, hs.researched⟩, ?_, hs.instrument, hs.horizon,
    hs.allowed, hs.shows, ?_, ?_⟩
  · rw [hstate]; exact hs.taskType
  · rw [hstate]; exact hs.request
  · rw [hstate]; exact hs.policy
  · rw [hstate]; exact hs.snapshot
  · rw [hstate]; exact hs.bundle
  · rw [hstate]; exact hs.analysis
  · rw [hstate]; exact hs.artifact
  · unfold Approved
    rw [hreviews]
    exact hs.approved

theorem completeBlocked_blocked (hs : Requested cfg input s)
    (h : completeBlocked s = some (s', events)) :
    s'.terminalStatus = some .blocked ∧
      (s.reviewAction = some .reject → s.artifact.isSome →
        ∃ draft, s'.artifact = some draft ∧ draft.status = .draft) := by
  unfold completeBlocked at h
  rw [hs.taskType] at h
  cases ha : s.artifact with
  | none =>
      simp only [ha] at h
      cases h
      exact ⟨rfl, fun _ => by simp⟩
  | some current =>
      by_cases hr : s.reviewAction = some .reject
      · simp only [ha, if_pos hr] at h
        cases h
        exact ⟨rfl, fun _ _ => ⟨_, rfl, rfl⟩⟩
      · simp only [ha, if_neg hr] at h
        cases h
        exact ⟨rfl, fun hreject => absurd hreject hr⟩

end Nodes

section Runs

variable {u : Text.UnicodeData} {cfg : GraphConfig} {ext : Externals} {input : RunInput}
  {r r' : GraphRun}

theorem NoReject.of_reviews (h : NoReject r) (hreviews : r'.reviews = r.reviews) : NoReject r' := by
  unfold NoReject
  rw [hreviews]
  exact h

/-- A collaborator's node leads on with what it adds, or to the failed completion. -/
theorem gate_afterExternalCall {next : Node} {s : AnalysisState}
    (hnoreject : NoReject r') (hposition : r'.position = .node (afterExternalCall s next))
    (hnext : s.terminalStatus = some .failed ∨
      (r'.position = .node next → Gate cfg ext input r')) : Gate cfg ext input r' := by
  by_cases hfailed : s.terminalStatus = some .failed
  · rw [afterExternalCall, if_pos hfailed] at hposition
    simpa only [Gate, hposition] using hnoreject
  · rw [afterExternalCall, if_neg hfailed] at hposition
    exact (hnext.resolve_left hfailed) hposition

/-- A node keeps the gate. -/
theorem gate_node (hmarket : input.request.taskType = .marketAnalysis) (hg : Gate cfg ext input r)
    {n : Node} {s' : AnalysisState} {events : List ProductEvent} (hp : r.position = .node n)
    (hrun : runNode u cfg ext n r.state = some (s', events)) (hposition : r'.position = edge n s')
    (hstate : r'.state = s') (hreviews : r'.reviews = r.reviews) : Gate cfg ext input r' := by
  cases n with
  | validateRequest =>
      simp only [Gate, hp] at hg
      obtain ⟨hrequested, hrunning⟩ := validateRequest_requested hmarket hg.1 hg.2.1 hrun
      have hnotFailed : s'.terminalStatus ≠ some .failed := by
        rw [hrunning]
        decide
      simp only [edge, afterRequestValidation, if_neg hnotFailed,
        if_neg (not_deepResearch hrequested)] at hposition
      simp only [Gate, hposition, hstate]
      exact ⟨hrequested, hg.2.2.of_reviews hreviews⟩
  | runDeepResearch => simp only [Gate, hp] at hg
  | collectMarketSnapshot =>
      simp only [Gate, hp] at hg
      refine gate_afterExternalCall (hg.2.of_reviews hreviews) hposition ?_
      refine (collectMarketSnapshot_collected hg.1 hrun).imp_right fun hcollected hnext => ?_
      simp only [Gate, hnext, hstate]
      exact ⟨hcollected, hg.2.of_reviews hreviews⟩
  | researchEvents =>
      simp only [Gate, hp] at hg
      obtain ⟨⟨market, hmarket⟩, hnoreject⟩ := hg
      refine gate_afterExternalCall (hnoreject.of_reviews hreviews) hposition ?_
      refine (researchEvents_researched hmarket hrun).imp_right fun hresearched hnext => ?_
      simp only [Gate, hnext, hstate]
      exact ⟨⟨market, hresearched⟩, hnoreject.of_reviews hreviews⟩
  | analyzeMarket =>
      simp only [Gate, hp] at hg
      obtain ⟨⟨market, research, hs⟩, hnoreject⟩ := hg
      refine gate_afterExternalCall (hnoreject.of_reviews hreviews) hposition ?_
      refine (analyzeMarket_analysed hs hrun).imp_right fun hanalysed hnext => ?_
      simp only [Gate, hnext, hstate]
      exact ⟨hanalysed, hnoreject.of_reviews hreviews⟩
  | validateEvidence =>
      simp only [Gate, hp] at hg
      obtain ⟨⟨m, hs⟩, hnoreject⟩ := hg
      simp only [Gate, hposition, edge, hstate]
      exact ⟨⟨m, validateEvidence_checked hs hrun⟩, hnoreject.of_reviews hreviews⟩
  | applyRiskPolicy =>
      simp only [Gate, hp] at hg
      obtain ⟨⟨m, hs⟩, hnoreject⟩ := hg
      simp only [Gate, hposition, edge, hstate]
      exact ⟨⟨m, applyRisk_checked hs hrun⟩, hnoreject.of_reviews hreviews⟩
  | buildArtifact =>
      simp only [Gate, hp] at hg
      obtain ⟨⟨m, hs⟩, hnoreject⟩ := hg
      simp only [Gate, hposition, edge, hstate]
      exact ⟨⟨m, buildArtifact_built hs hrun⟩, hnoreject.of_reviews hreviews⟩
  | reviewPolicy =>
      simp only [Gate, hp] at hg
      obtain ⟨⟨m, draft, hs⟩, hnoreject⟩ := hg
      replace hnoreject := hnoreject.of_reviews hreviews
      cases hrun
      by_cases hrequired : r.state.reviewPolicy = some .required
      · simp only [edge, afterReviewPolicy, if_pos hrequired] at hposition
        simp only [Gate, hposition, hstate]
        exact ⟨⟨m, draft, hs⟩, hnoreject⟩
      · by_cases hblocked : r.state.terminalStatus = some .blocked
        · simp only [edge, afterReviewPolicy, if_neg hrequired, if_pos hblocked] at hposition
          simp only [Gate, hposition, hstate]
          exact ⟨hs.toRequested, .inl hnoreject⟩
        · simp only [edge, afterReviewPolicy, if_neg hrequired, if_neg hblocked] at hposition
          simp only [Gate, hposition, hstate]
          exact ⟨⟨m, draft, hs, hs.allowed hblocked,
            fun hpolicy => absurd (hs.policy.mpr hpolicy) hrequired⟩, hnoreject⟩
  | interruptReview => cases hrun
  | applyEdits =>
      simp only [Gate, hp] at hg
      obtain ⟨⟨m, hs⟩, hnoreject⟩ := hg
      obtain ⟨m', hs'⟩ := applyEdits_analysed hs hrun
      simp only [edge, afterEdits, if_neg (not_deepResearch hs'.toRequested)] at hposition
      simp only [Gate, hposition, hstate]
      exact ⟨⟨m', hs'⟩, hnoreject.of_reviews hreviews⟩
  | commitArtifact =>
      simp only [Gate, hp] at hg
      obtain ⟨⟨m, draft, hs, hallowed, happroved⟩, hnoreject⟩ := hg
      simp only [Gate, hposition, edge]
      exact ⟨⟨m, draft, commitArtifact_released hs hallowed happroved hrun hstate hreviews⟩,
        hnoreject.of_reviews hreviews⟩
  | complete =>
      simp only [Gate, hp] at hg
      obtain ⟨⟨m, draft, hs⟩, hnoreject⟩ := hg
      simp only [Gate, hposition, edge]
      exact ⟨fun _ => ⟨m, draft, hs.complete hrun hstate hreviews⟩,
        .inl (hnoreject.of_reviews hreviews)⟩
  | completeBlocked =>
      simp only [Gate, hp] at hg
      obtain ⟨hblocked, hdraft⟩ := completeBlocked_blocked hg.1 hrun
      simp only [Gate, hposition, edge, hstate]
      refine ⟨fun hsucceeded => ?_, ?_⟩
      · rw [hblocked] at hsucceeded
        cases hsucceeded
      · rcases hg.2 with hnoreject | ⟨hreject, hartifact⟩
        · exact .inl (hnoreject.of_reviews hreviews)
        · exact .inr ⟨hblocked, hdraft hreject hartifact⟩
  | completeFailed =>
      simp only [Gate, hp] at hg
      cases hrun
      simp only [Gate, hposition, edge, hstate]
      exact ⟨nofun, .inl (hg.of_reviews hreviews)⟩

/-- Handling a review keeps the gate: only an approval leads on to the commit. -/
theorem gate_respond {payload : ReviewPayload} {response : ReviewResponse}
    (hg : Gate cfg ext input r) (hp : r.position = .paused payload)
    (hstate : r'.state = (resumeReview response r.state).1)
    (hposition : r'.position = edge .interruptReview r'.state)
    (hreviews : r'.reviews = r.reviews ++ [(payload, response)]) : Gate cfg ext input r' := by
  simp only [Gate, hp] at hg
  obtain ⟨⟨m, p, rfl, hs⟩, hnoreject⟩ := hg
  replace hs := hs.resumeReview response
  rw [← hstate] at hs
  have haction : r'.state.reviewAction = some response.action := by rw [hstate]; rfl
  have hnoreject' (h : response.action ≠ .reject) : NoReject r' := by
    unfold NoReject
    rw [hreviews]
    intro x hx
    rcases List.mem_append.mp hx with hx | hx
    · exact hnoreject x hx
    · rw [List.mem_singleton.mp hx]
      exact h
  simp only [edge, afterReview, haction] at hposition
  cases hresponse : response.action with
  | edit =>
      simp only [hresponse] at hposition
      simp only [Gate, hposition]
      exact ⟨⟨m, hs.toAnalysed⟩, hnoreject' (by simp [hresponse])⟩
  | reject =>
      simp only [hresponse] at hposition
      simp only [Gate, hposition]
      refine ⟨hs.toRequested, .inr ⟨haction.trans (congrArg some hresponse), ?_⟩⟩
      rw [hs.artifact]
      rfl
  | approve =>
      have hkept := hnoreject' (by simp [hresponse])
      by_cases hblocked : r'.state.terminalStatus = some .blocked
      · simp only [hresponse, if_pos hblocked] at hposition
        simp only [Gate, hposition]
        exact ⟨hs.toRequested, .inl hkept⟩
      · simp only [hresponse, if_neg hblocked] at hposition
        simp only [Gate, hposition]
        exact ⟨⟨m, p.artifact, hs, hs.allowed hblocked,
          fun _ => ⟨r.reviews, p, response, hreviews, hresponse, rfl⟩⟩, hkept⟩

theorem gate_step (hmarket : input.request.taskType = .marketAnalysis) {l : GraphLabel}
    (hg : Gate cfg ext input r) (h : r.step u cfg ext l = some r') : Gate cfg ext input r' := by
  rcases GraphRun.step_cases h with hraised | ⟨n, s, events, hp, -, hrun, hposition, hstate,
    hreviews⟩ | ⟨payload, hp, hpayload, hposition, hstate, hreviews⟩ |
    ⟨payload, response, hp, -, hstate, hposition, hreviews⟩
  · simp only [Gate, hraised]
  · exact gate_node hmarket hg hp hrun hposition hstate hreviews
  · simp only [Gate, hp] at hg
    obtain ⟨⟨m, draft, hs⟩, hnoreject⟩ := hg
    obtain ⟨p, rfl, rfl⟩ := reviewPayload_artifact hs hpayload
    simp only [Gate, hposition, hstate]
    exact ⟨⟨m, p, rfl, hs⟩, hnoreject.of_reviews hreviews⟩
  · exact gate_respond hg hp hstate hposition hreviews

theorem gate_of_reaches (hmarket : input.request.taskType = .marketAnalysis) {s : AnalysisState}
    (h : Reaches (GraphRun.step u cfg ext) anyStep (GraphRun.start input s) r) :
    Gate cfg ext input r := by
  refine h.invariant (fun _ _ _ _ hg hstep => gate_step hmarket hg hstep) ?_
  have hnoreject : NoReject (GraphRun.start input s) := fun x hx => absurd hx List.not_mem_nil
  exact ⟨rfl, rfl, hnoreject⟩

/-- A succeeded market analysis has committed an artifact whose verdicts are those of its own
analysis on the collected evidence, which passed both gates and, where review is required, was
approved last as it stands. After a rejection nothing is committed any more. -/
theorem gate_safety (hmarket : input.request.taskType = .marketAnalysis) {s : AnalysisState}
    (h : Reaches (GraphRun.step u cfg ext) anyStep (GraphRun.start input s) r) :
    (r.position = .ended → r.state.terminalStatus = some .succeeded →
      ∃ artifact snapshot bundle,
        r.state.artifact = some artifact ∧ artifact.status = .committed ∧
        r.state.marketSnapshot = some snapshot ∧ collectedSnapshot ext = some snapshot ∧
        r.state.researchBundle = some bundle ∧ collectedResearch ext = some bundle ∧
        r.state.analysis = some artifact.analysis ∧
        artifact.evidenceVerdict =
          checkEvidenceSufficiency snapshot bundle artifact.analysis.mainAction ∧
        artifact.riskVerdict =
          applyRiskPolicy artifact.analysis artifact.evidenceVerdict .default ∧
        artifact.evidenceVerdict.sufficient = true ∧ artifact.riskVerdict.allowed = true ∧
        artifact.analysis.probability.val ≤ artifact.evidenceVerdict.confidenceCap.val ∧
        artifact.analysis.instrument = input.request.symbol ∧
        artifact.analysis.horizon.val = input.request.horizon ∧
        (reviewRequired cfg input → ∃ earlier payload response,
          r.reviews = earlier ++ [(.artifact payload, response)] ∧ response.action = .approve ∧
          payload.artifact.analysis = artifact.analysis ∧
          artifact = { payload.artifact with status := .committed })) ∧
    ((∃ x ∈ r.reviews, x.2.action = .reject) →
      r.position ≠ .node .commitArtifact ∧ r.position ≠ .node .complete ∧
      (r.position = .ended → r.state.terminalStatus = some .blocked ∧
        ∃ draft, r.state.artifact = some draft ∧ draft.status = .draft)) := by
  have hgate := gate_of_reaches hmarket h
  constructor
  · intro hended hsucceeded
    simp only [Gate, hended] at hgate
    obtain ⟨m, draft, hs⟩ := hgate.1 hsucceeded
    obtain ⟨artifact, hartifact⟩ : ∃ a : Artifact, a = { draft with status := .committed } :=
      ⟨_, rfl⟩
    have hanalysis : artifact.analysis = m.analysis := by rw [hartifact, ← hs.shows.analysis]
    have hevidence : artifact.evidenceVerdict = m.evidence := by
      rw [hartifact, ← hs.shows.evidence]
    have hrisk : artifact.riskVerdict = m.risk := by rw [hartifact, ← hs.shows.risk]
    obtain ⟨hsufficient, hcap⟩ := applyRiskPolicy_allowed hs.allowed
    refine ⟨artifact, m.snapshot, m.bundle, by rw [hs.artifact, hartifact], by rw [hartifact],
      hs.snapshot, hs.provided, hs.bundle, hs.researched, ?_, ?_, ?_, ?_, ?_, ?_, ?_, ?_, ?_⟩
    · rw [hs.analysis, ← hanalysis]
    · exact hevidence.trans (by rw [Assessment.evidence, ← hanalysis])
    · exact hrisk.trans (by rw [Assessment.risk, ← hanalysis, ← hevidence])
    · rw [hevidence]
      exact hsufficient
    · rw [hrisk]
      exact hs.allowed
    · rw [hevidence, hanalysis]
      exact hcap
    · rw [hanalysis]
      exact hs.instrument
    · rw [hanalysis]
      exact hs.horizon
    · intro hrequired
      obtain ⟨earlier, payload, response, hreviews, happrove, hdraft⟩ := hs.approved hrequired
      exact ⟨earlier, payload, response, hreviews, happrove, by rw [hdraft, hartifact],
        by rw [hdraft, hartifact]⟩
  · rintro ⟨x, hx, hreject⟩
    have hnot (hnoreject : NoReject r) : False := hnoreject x hx hreject
    refine ⟨?_, ?_, ?_⟩
    · intro hp
      simp only [Gate, hp] at hgate
      exact hnot hgate.2
    · intro hp
      simp only [Gate, hp] at hgate
      exact hnot hgate.2
    · intro hp
      simp only [Gate, hp] at hgate
      exact hgate.2.resolve_left hnot

end Runs

section QuietMarket

def decimalOne : PositiveDecimal := ⟨⟨false, 1, 0⟩, by decide +kernel⟩

def quietSnapshot : MarketSnapshot :=
  ⟨.btcUsdtSwap, ⟨"2026-01-01T00:00:00Z"⟩, .controlledDependency, none, none, none, none, none,
    none, []⟩

def quietResearch : ResearchBundle := ⟨none, none, none, none, [], [], []⟩

theorem one_le_one : (1 : ℤ) ≤ 1 := le_refl 1

theorem horizon_nonempty : 1 ≤ "4h".length := by decide

def quietAudit : ModelExecutionAudit :=
  ⟨⟨"v1", by decide⟩, 1, none, none, none, ⟨0, le_refl 0⟩, ⟨[], by decide⟩⟩

def quietAnalysis (horizon : NonEmptyText) : MarketAnalysis where
  regime := .riskOff
  factorScores := []
  totalScore := 0
  mainAction := .noTrade
  instrument := .btcUsdtSwap
  horizon := horizon
  referencePrice := decimalOne
  entryTrigger := none
  stopPrice := none
  target1 := none
  target2 := none
  probability := zeroCap
  positionSizeClass := .none
  maxLeverage := ⟨1, one_le_one⟩
  riskPct := ⟨⟨false, 0, 0⟩, by decide +kernel⟩
  rootCauseChain := ⟨["quiet"], by decide, by decide⟩
  whyNotOpposite := ⟨"quiet", by decide⟩
  invalidation := ""
  unavailableData := []
  manualExecutionRequired := true
  expiresInSeconds := ⟨1, one_le_one⟩

def quietExternals (horizon : NonEmptyText) : Externals where
  market := .ok (.domain quietSnapshot)
  fallback := none
  research := .ok ⟨quietResearch, [], none⟩
  analysis := .ok (quietAnalysis horizon, quietAudit)
  deepResearch := none

def quietConfig : GraphConfig := ⟨true, .required, none, none, "tavily", "model"⟩

def quietInput : RunInput := ⟨⟨.marketAnalysis, .btcUsdtSwap, "4h", "!", false⟩, .bypass⟩

def approval : ReviewResponse := ⟨.approve, none, none, by decide⟩

def approvedRun : List GraphLabel :=
  List.replicate 9 .advance ++ [.respond approval, .advance, .advance]

/-- A quiet market, analysed for four hours and approved. -/
theorem gate_safety_approved :
    ∃ r artifact, Reaches (GraphRun.step .ascii quietConfig (quietExternals ⟨"4h", by decide⟩))
        anyStep (GraphRun.start quietInput .fresh) r ∧
      r.state.artifact = some artifact ∧ artifact.status = .committed ∧
      artifact.analysis.horizon.val = "4h" := by
  have hany : (runLabels (GraphRun.step .ascii quietConfig (quietExternals ⟨"4h", by decide⟩))
      (GraphRun.start quietInput .fresh) approvedRun).any (fun r =>
        r.position = .ended ∧ r.state.terminalStatus = some .succeeded) = true := by
    decide +kernel
  obtain ⟨r, hlabels, hdone⟩ := (Option.any_eq_true _ _).mp hany
  obtain ⟨hended, hsucceeded⟩ := of_decide_eq_true hdone
  have hrun := reaches_of_runLabels approvedRun hlabels
  obtain ⟨artifact, -, -, hartifact, hcommitted, -, -, -, -, -, -, -, -, -, -, -, hhorizon, -⟩ :=
    (gate_safety rfl hrun).1 hended hsucceeded
  exact ⟨r, artifact, hrun, hartifact, hcommitted, hhorizon⟩

end QuietMarket

end CryptoAlert
