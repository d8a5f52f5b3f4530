import CryptoAlert.Commands.Submission
import CryptoAlert.Graph.Execution
import CryptoAlert.Graph.Gate

/-!
# What a thread leaves to its next run

A run that is driven to its end, to a pause or to an exception is a function of the state of the
thread, the input, the results of the collaborators and the responses. Two runs that differ only
in the state of the thread are compared step by step: a channel that is written before it is
read may differ.
-/

namespace CryptoAlert

/-- Agreement on the channels that no run resets and that it may report. -/
structure SameResidue (s s' : AnalysisState) : Prop where
  marketSnapshot : s.marketSnapshot = s'.marketSnapshot
  webEvidence : s.webEvidence = s'.webEvidence
  modelAudits : s.modelAudits = s'.modelAudits
  artifact : s.artifact = s'.artifact
  deepResearchArtifact : s.deepResearchArtifact = s'.deepResearchArtifact

/-- Agreement on all but the channels that are written before they are read. -/
def Agree (s s' : AnalysisState) : Prop :=
  ∃ bundle analysis evidence risk, s' = { s with
    researchBundle := bundle, analysis, evidenceVerdict := evidence, riskVerdict := risk }

/-- How the states of two runs at the same position are related. -/
def Related : Position → AnalysisState → AnalysisState → Prop
  | .node .validateRequest, s, s' =>
      SameResidue s s' ∧ s.request = s'.request ∧ s.reviewPolicy = s'.reviewPolicy
  | .node .runDeepResearch, s, s' => Agree s s' ∧ s.taskType = some .deepResearch
  | .node .collectMarketSnapshot, s, s' | .node .researchEvents, s, s' | .node .completeFailed, s, s' | .ended, s, s' => Agree s s'
  | .node .analyzeMarket, s, s' => Agree s s' ∧ s.researchBundle = s'.researchBundle
  | .node .validateEvidence, s, s' =>
      Agree s s' ∧ s.researchBundle = s'.researchBundle ∧ s.analysis = s'.analysis
  | .node .applyRiskPolicy, s, s' =>
      Agree s s' ∧ s.researchBundle = s'.researchBundle ∧ s.analysis = s'.analysis ∧
        s.evidenceVerdict = s'.evidenceVerdict
  | .node .buildArtifact, s, s' => s = s'
  | .node .reviewPolicy, s, s' | .node .interruptReview, s, s' | .paused _, s, s'
  | .node .applyEdits, s, s' | .node .commitArtifact, s, s' | .node .complete, s, s'
  | .node .completeBlocked, s, s' => Agree s s' ∧ (s.taskType ≠ some .deepResearch → s = s')
  | .raised, _, _ => True

section Relation

variable {s s' : AnalysisState}

theorem Agree.refl (s : AnalysisState) : Agree s s := ⟨_, _, _, _, rfl⟩

/-- Agreement with nothing missing is equality. -/
theorem Agree.eq (h : Agree s s') (hbundle : s.researchBundle = s'.researchBundle)
    (hanalysis : s.analysis = s'.analysis) (hevidence : s.evidenceVerdict = s'.evidenceVerdict)
    (hrisk : s.riskVerdict = s'.riskVerdict) : s = s' := by
  obtain ⟨_, _, _, _, rfl⟩ := h
  simp only at hbundle hanalysis hevidence hrisk
  rw [← hbundle, ← hanalysis, ← hevidence, ← hrisk]

/-- Related results of a node: related states at the same position. -/
def RelatedResult (n : Node) (x y : AnalysisState × List ProductEvent) : Prop :=
  edge n x.1 = edge n y.1 ∧ Related (edge n x.1) x.1 y.1 ∧ x.2 = y.2

variable (u : Text.UnicodeData) (cfg : GraphConfig) (ext : Externals)

theorem related_validateRequest (h : Related (.node .validateRequest) s s') :
    Option.Rel (RelatedResult .validateRequest) (validateRequest u cfg s)
      (validateRequest u cfg s') := by
  obtain ⟨⟨hmarket, hevidence, haudits, hartifact, hdeep⟩, hrequest, hpolicy⟩ := h
  unfold validateRequest
  rw [← hrequest]
  cases s.request with
  | none => exact .none
  | some raw =>
      simp only [Option.bind_eq_bind, Option.bind_some]
      cases raw.validated u with
      | none => exact .none
      | some request =>
          refine .some ⟨rfl, ?_, rfl⟩
          have hagree (t : AnalysisState) (ht : t = { s with
              request := some request, taskType := some request.taskType,
              reviewPolicy := some (effectivePolicy cfg s), reviewAction := none,
              reviewEdits := none, reviewComment := none, reviewIteration := 0,
              terminalStatus := some .running, errors := [] }) :
              Agree t { s' with
                request := some request, taskType := some request.taskType,
                reviewPolicy := some (effectivePolicy cfg s'), reviewAction := none,
                reviewEdits := none, reviewComment := none, reviewIteration := 0,
                terminalStatus := some .running, errors := [] } := by
            refine ⟨s'.researchBundle, s'.analysis, s'.evidenceVerdict, s'.riskVerdict, ?_⟩
            simp only [ht, effectivePolicy, hpolicy, hmarket, hevidence, haudits, hartifact, hdeep]
          simp only [edge, afterRequestValidation]
          split_ifs with hfailed hdeepResearch
          · exact hagree _ rfl
          · exact ⟨hagree _ rfl, hdeepResearch⟩
          · exact hagree _ rfl

theorem related_afterExternalCall (n next : Node) {x y : AnalysisState × List ProductEvent}
    (hagree : Agree x.1 y.1) (hevents : x.2 = y.2)
    (hedge : ∀ t, edge n t = .node (afterExternalCall t next))
    (hnext : x.1.terminalStatus ≠ some .failed → Related (.node next) x.1 y.1) :
    RelatedResult n x y := by
  have hstatus : y.1.terminalStatus = x.1.terminalStatus := by
    obtain ⟨_, _, _, _, h⟩ := hagree
    rw [h]
  refine ⟨by rw [hedge, hedge, afterExternalCall, afterExternalCall, hstatus], ?_, hevents⟩
  rw [hedge, afterExternalCall]
  split_ifs with hfailed
  · exact hagree
  · exact hnext hfailed

theorem related_collectMarketSnapshot (h : Agree s s') :
    Option.Rel (RelatedResult .collectMarketSnapshot) (collectMarketSnapshot u ext s)
      (collectMarketSnapshot u ext s') := by
  obtain ⟨bundle, analysis, evidence, risk, rfl⟩ := h
  obtain ⟨_, request⟩ := s
  unfold collectMarketSnapshot
  simp only [Option.bind_eq_bind]
  cases request with
  | none => exact .none
  | some raw =>
      simp only [Option.bind_some]
      cases raw.analysis u with
      | none => exact .none
      | some request =>
          have hresult (t : AnalysisState) (events : List ProductEvent) :
              RelatedResult .collectMarketSnapshot (t, events) ({ t with
                researchBundle := bundle, analysis, evidenceVerdict := evidence,
                riskVerdict := risk }, events) :=
            related_afterExternalCall _ .researchEvents ⟨_, _, _, _, rfl⟩ rfl (fun _ => rfl)
              (fun _ => ⟨_, _, _, _, rfl⟩)
          cases ext.market with
          | ok provided =>
              simp only [Option.bind_some]
              cases provided.toDomain with
              | none => exact .none
              | some snapshot => exact .some (hresult _ _)
          | error primary =>
              simp only [Option.bind_some]
              cases fallbackFor ext primary with
              | none => exact .some (hresult _ _)
              | some result =>
                  cases result with
                  | error e => exact .some (hresult _ _)
                  | ok result => exact .some (hresult _ _)

theorem related_researchEvents (h : Agree s s') :
    Option.Rel (RelatedResult .researchEvents) (researchEvents u ext s)
      (researchEvents u ext s') := by
  obtain ⟨bundle, analysis, evidence, risk, rfl⟩ := h
  obtain ⟨_, request, _, _, webEvidence⟩ := s
  unfold researchEvents
  simp only [Option.bind_eq_bind]
  cases request with
  | none => exact .none
  | some raw =>
      simp only [Option.bind_some]
      cases raw.analysis u with
      | none => exact .none
      | some request =>
          cases ext.research with
          | error e =>
              exact .some (related_afterExternalCall _ .analyzeMarket ⟨_, _, _, _, rfl⟩ rfl
                (fun _ => rfl) (fun hstatus => absurd rfl hstatus))
          | ok result =>
              simp only [Option.bind_some]
              cases mergeWebEvidence webEvidence result.evidence with
              | none => exact .none
              | some merged =>
                  exact .some (related_afterExternalCall _ .analyzeMarket ⟨_, _, _, _, rfl⟩ rfl
                    (fun _ => rfl) (fun _ => ⟨⟨_, _, _, _, rfl⟩, rfl⟩))

theorem related_analyzeMarket (h : Related (.node .analyzeMarket) s s') :
    Option.Rel (RelatedResult .analyzeMarket) (analyzeMarket u ext s) (analyzeMarket u ext s') := by
  obtain ⟨⟨bundle, analysis, evidence, risk, rfl⟩, hbundle⟩ := h
  obtain rfl : s.researchBundle = bundle := hbundle
  have hfailed (error : GraphError) : Option.Rel (RelatedResult .analyzeMarket)
      (failed s 40 .analysis error) (failed { s with
        researchBundle := s.researchBundle, analysis, evidenceVerdict := evidence,
        riskVerdict := risk } 40 .analysis error) :=
    .some (related_afterExternalCall _ .validateEvidence ⟨_, _, _, _, rfl⟩ rfl
      (fun _ => rfl) (fun hstatus => absurd rfl hstatus))
  obtain ⟨_, request, market, bundle⟩ := s
  unfold analyzeMarket
  simp only [Option.bind_eq_bind]
  cases request with
  | none => exact .none
  | some raw =>
      cases market with
      | none => exact .none
      | some snapshot =>
          cases bundle with
          | none => exact .none
          | some bundle =>
              simp only [Option.bind_some]
              cases ext.analysis with
              | error e => exact hfailed _
              | ok result =>
                  simp only
                  cases raw.analysis u with
                  | none => exact .none
                  | some request =>
                      simp only [Option.bind_some]
                      split_ifs
                      · exact hfailed _
                      · exact hfailed _
                      · exact .some (related_afterExternalCall _ .validateEvidence
                          ⟨_, _, _, _, rfl⟩ rfl (fun _ => rfl)
                          (fun _ => ⟨⟨_, _, _, _, rfl⟩, rfl, rfl⟩))

theorem related_runDeepResearch (h : Related (.node .runDeepResearch) s s') :
    Option.Rel (RelatedResult .runDeepResearch) (runDeepResearch u cfg ext s)
      (runDeepResearch u cfg ext s') := by
  obtain ⟨⟨bundle, analysis, evidence, risk, rfl⟩, htask⟩ := h
  obtain ⟨task, request⟩ := s
  unfold runDeepResearch
  simp only [Option.bind_eq_bind]
  cases request with
  | none => exact .none
  | some raw =>
      simp only [Option.bind_some]
      cases raw.deepResearch u with
      | none => exact .none
      | some request =>
          simp only [Option.bind_some]
          cases ext.deepResearch with
          | none =>
              exact .some (related_afterExternalCall _ .reviewPolicy ⟨_, _, _, _, rfl⟩ rfl
                (fun _ => rfl) (fun hstatus => absurd rfl hstatus))
          | some result =>
              cases result with
              | error e =>
                  exact .some (related_afterExternalCall _ .reviewPolicy ⟨_, _, _, _, rfl⟩ rfl
                    (fun _ => rfl) (fun hstatus => absurd rfl hstatus))
              | ok result =>
                  simp only
                  cases result.artifact.reread with
                  | none => exact .none
                  | some artifact =>
                      simp only [Option.bind_some]
                      cases DeepResearchArtifact.of? { artifact.val with committed := false } with
                      | none => exact .none
                      | some draft =>
                          exact .some (related_afterExternalCall _ .reviewPolicy
                            ⟨_, _, _, _, rfl⟩ rfl (fun _ => rfl)
                            (fun _ => ⟨⟨_, _, _, _, rfl⟩, fun hnot => absurd htask hnot⟩))

theorem related_validateEvidence (h : Related (.node .validateEvidence) s s') :
    Option.Rel (RelatedResult .validateEvidence) (validateEvidence s) (validateEvidence s') := by
  obtain ⟨⟨bundle, analysis, evidence, risk, rfl⟩, hbundle, hanalysis⟩ := h
  obtain rfl : s.researchBundle = bundle := hbundle
  obtain rfl : s.analysis = analysis := hanalysis
  obtain ⟨_, _, market, bundle, _, _, analysis⟩ := s
  cases market with
  | none => exact .none
  | some snapshot =>
      cases bundle with
      | none => exact .none
      | some bundle =>
          cases analysis with
          | none => exact .none
          | some analysis => exact .some ⟨rfl, ⟨⟨_, _, _, _, rfl⟩, rfl, rfl, rfl⟩, rfl⟩

theorem related_applyRisk (h : Related (.node .applyRiskPolicy) s s') :
    Option.Rel (RelatedResult .applyRiskPolicy) (applyRisk s) (applyRisk s') := by
  obtain ⟨⟨bundle, analysis, evidence, risk, rfl⟩, hbundle, hanalysis, hevidence⟩ := h
  obtain rfl : s.researchBundle = bundle := hbundle
  obtain rfl : s.analysis = analysis := hanalysis
  obtain rfl : s.evidenceVerdict = evidence := hevidence
  obtain ⟨_, _, _, _, _, _, analysis, evidence⟩ := s
  cases analysis with
  | none => exact .none
  | some analysis =>
      cases evidence with
      | none => exact .none
      | some evidence => exact .some ⟨rfl, rfl, rfl⟩

theorem related_buildArtifact (h : Related (.node .buildArtifact) s s') :
    Option.Rel (RelatedResult .buildArtifact) (buildArtifact u cfg s) (buildArtifact u cfg s') := by
  obtain rfl : s = s' := h
  cases buildArtifact u cfg s with
  | none => exact .none
  | some x => exact .some ⟨rfl, ⟨.refl _, fun _ => rfl⟩, rfl⟩

theorem related_reviewPolicy (h : Related (.node .reviewPolicy) s s') :
    Option.Rel (RelatedResult .reviewPolicy) (reviewPolicyNode s) (reviewPolicyNode s') := by
  obtain ⟨⟨bundle, analysis, evidence, risk, rfl⟩, heq⟩ := h
  refine .some ⟨rfl, ?_, rfl⟩
  simp only [edge, afterReviewPolicy]
  split_ifs <;> exact ⟨⟨_, _, _, _, rfl⟩, heq⟩

theorem related_applyEdits (h : Related (.node .applyEdits) s s') :
    Option.Rel (RelatedResult .applyEdits) (applyEdits s) (applyEdits s') := by
  obtain ⟨hagree, heq⟩ := h
  by_cases htask : s.taskType = some .deepResearch
  · obtain ⟨bundle, analysis, evidence, risk, rfl⟩ := hagree
    simp only [applyEdits, if_pos htask]
    obtain ⟨task, _, _, _, _, _, _, _, _, _, deep, _, _, edits⟩ := s
    cases edits with
    | none => exact .none
    | some edits =>
        cases edits with
        | artifact edit => exact .none
        | deepResearch report =>
            cases deep with
            | none => exact .none
            | some current =>
                simp only [Option.bind_eq_bind, Option.bind_some]
                cases DeepResearchArtifact.of? { current.val with committed := false, report } with
                | none => exact .none
                | some artifact =>
                    refine .some ⟨rfl, ?_, rfl⟩
                    simp only [edge, afterEdits, if_pos htask]
                    exact ⟨⟨_, _, _, _, rfl⟩, fun hnot => absurd htask hnot⟩
  · obtain rfl := heq htask
    cases applyEdits s with
    | none => exact .none
    | some x =>
        refine .some ⟨rfl, ?_, rfl⟩
        simp only [edge, afterEdits]
        split_ifs
        · exact ⟨.refl _, fun _ => rfl⟩
        · exact ⟨.refl _, rfl, rfl⟩

theorem related_commitArtifact (h : Related (.node .commitArtifact) s s') :
    Option.Rel (RelatedResult .commitArtifact) (commitArtifact s) (commitArtifact s') := by
  obtain ⟨hagree, heq⟩ := h
  by_cases htask : s.taskType = some .deepResearch
  · obtain ⟨bundle, analysis, evidence, risk, rfl⟩ := hagree
    simp only [commitArtifact, if_pos htask]
    obtain ⟨task, _, _, _, _, _, _, _, _, _, deep⟩ := s
    cases deep with
    | none => exact .none
    | some draft =>
        simp only [Option.bind_eq_bind, Option.bind_some]
        cases commitDeepResearchArtifact draft with
        | none => exact .none
        | some artifact =>
            exact .some ⟨rfl, ⟨⟨_, _, _, _, rfl⟩, fun hnot => absurd htask hnot⟩, rfl⟩
  · obtain rfl := heq htask
    cases commitArtifact s with
    | none => exact .none
    | some x => exact .some ⟨rfl, ⟨.refl _, fun _ => rfl⟩, rfl⟩

theorem related_completeBlocked (h : Related (.node .completeBlocked) s s') :
    Option.Rel (RelatedResult .completeBlocked) (completeBlocked s) (completeBlocked s') := by
  obtain ⟨hagree, heq⟩ := h
  by_cases htask : s.taskType = some .deepResearch
  · obtain ⟨bundle, analysis, evidence, risk, rfl⟩ := hagree
    obtain ⟨task, _, _, _, _, _, _, _, _, artifact, deep⟩ := s
    obtain rfl : task = some .deepResearch := htask
    cases deep with
    | none =>
        cases artifact with
        | none => exact .some ⟨rfl, ⟨_, _, _, _, rfl⟩, rfl⟩
        | some current =>
            simp only [completeBlocked]
            split_ifs
            · exact .some ⟨rfl, ⟨_, _, _, _, rfl⟩, rfl⟩
            · exact .some ⟨rfl, ⟨_, _, _, _, rfl⟩, rfl⟩
    | some current =>
        simp only [completeBlocked, Option.bind_eq_bind]
        cases DeepResearchArtifact.of? { current.val with committed := false } with
        | none => exact .none
        | some artifact => exact .some ⟨rfl, ⟨_, _, _, _, rfl⟩, rfl⟩
  · obtain rfl := heq htask
    cases completeBlocked s with
    | none => exact .none
    | some x => exact .some ⟨rfl, .refl _, rfl⟩

theorem related_runNode (n : Node) (h : Related (.node n) s s') :
    Option.Rel (RelatedResult n) (runNode u cfg ext n s) (runNode u cfg ext n s') := by
  cases n with
  | validateRequest => exact related_validateRequest u cfg h
  | runDeepResearch => exact related_runDeepResearch u cfg ext h
  | collectMarketSnapshot => exact related_collectMarketSnapshot u ext h
  | researchEvents => exact related_researchEvents u ext h
  | analyzeMarket => exact related_analyzeMarket u ext h
  | validateEvidence => exact related_validateEvidence h
  | applyRiskPolicy => exact related_applyRisk h
  | buildArtifact => exact related_buildArtifact u cfg h
  | reviewPolicy => exact related_reviewPolicy h
  | interruptReview => exact .none
  | applyEdits => exact related_applyEdits h
  | commitArtifact => exact related_commitArtifact h
  | complete =>
      obtain ⟨⟨bundle, analysis, evidence, risk, rfl⟩, -⟩ := h
      exact .some ⟨rfl, ⟨_, _, _, _, rfl⟩, rfl⟩
  | completeBlocked => exact related_completeBlocked h
  | completeFailed =>
      obtain ⟨bundle, analysis, evidence, risk, rfl⟩ := h
      exact .some ⟨rfl, ⟨_, _, _, _, rfl⟩, rfl⟩

theorem reviewPayload_of_agree (h : Agree s s') : reviewPayload u s' = reviewPayload u s := by
  obtain ⟨bundle, analysis, evidence, risk, rfl⟩ := h
  rfl

theorem related_resumeReview {payload : ReviewPayload} (response : ReviewResponse)
    (h : Related (.paused payload) s s') :
    RelatedResult .interruptReview (resumeReview response s) (resumeReview response s') := by
  obtain ⟨⟨bundle, analysis, evidence, risk, rfl⟩, heq⟩ := h
  refine ⟨rfl, ?_, rfl⟩
  have hshared : Agree (resumeReview response s).1 (resumeReview response { s with
      researchBundle := bundle, analysis, evidenceVerdict := evidence, riskVerdict := risk }).1 ∧
      ((resumeReview response s).1.taskType ≠ some .deepResearch →
        (resumeReview response s).1 = (resumeReview response { s with
          researchBundle := bundle, analysis, evidenceVerdict := evidence,
          riskVerdict := risk }).1) :=
    ⟨⟨_, _, _, _, rfl⟩, fun hnot => congrArg (fun t => (resumeReview response t).1) (heq hnot)⟩
  simp only [edge, afterReview]
  split
  · exact hshared
  · exact hshared
  · split_ifs
    · exact hshared
    · exact hshared
  · exact hshared

/-- Two runs at the same position whose states are related there. -/
def RelatedRuns (r r' : GraphRun) : Prop :=
  r.position = r'.position ∧ Related r.position r.state r'.state

theorem RelatedRuns.finish {r r' : GraphRun} {n : Node} {x y : NodeResult}
    (h : Option.Rel (RelatedResult n) x y) :
    RelatedRuns (r.finish cfg n x) (r'.finish cfg n y) := by
  cases h with
  | none => exact ⟨rfl, trivial⟩
  | some h =>
      obtain ⟨hedge, hrelated, hevents⟩ := h
      simp only [GraphRun.finish, ← hevents]
      split
      · exact ⟨rfl, trivial⟩
      · exact ⟨hedge, hrelated⟩

theorem RelatedRuns.advance {r r' : GraphRun} (h : RelatedRuns r r') :
    Option.Rel RelatedRuns (r.advance u cfg ext) (r'.advance u cfg ext) := by
  obtain ⟨hposition, hrelated⟩ := h
  unfold GraphRun.advance
  rw [← hposition]
  cases hp : r.position with
  | node n =>
      rw [hp] at hrelated
      by_cases hn : n = .interruptReview
      · subst hn
        refine .some ?_
        simp only [GraphRun.pause, reviewPayload_of_agree u hrelated.1]
        split
        · exact ⟨rfl, hrelated⟩
        · exact ⟨rfl, trivial⟩
      · have hfinish : RelatedRuns (r.finish cfg n (runNode u cfg ext n r.state))
            (r'.finish cfg n (runNode u cfg ext n r'.state)) :=
          RelatedRuns.finish cfg (related_runNode u cfg ext n hrelated)
        cases n <;> first | exact .some hfinish | exact absurd rfl hn
  | paused | ended | raised => exact .none

theorem RelatedRuns.respond {r r' : GraphRun} (response : ReviewResponse)
    (h : RelatedRuns r r') :
    Option.Rel RelatedRuns (r.respond cfg response) (r'.respond cfg response) := by
  obtain ⟨hposition, hrelated⟩ := h
  unfold GraphRun.respond
  rw [← hposition]
  cases hp : r.position with
  | paused payload =>
      rw [hp] at hrelated
      simp only
      split_ifs
      · exact .some (RelatedRuns.finish cfg (.some (related_resumeReview response hrelated)))
      · exact .some ⟨rfl, trivial⟩
  | node | ended | raised => exact .none

theorem RelatedRuns.settle (fuel : ℕ) {r r' : GraphRun} (h : RelatedRuns r r') :
    RelatedRuns (settle u cfg ext fuel r) (settle u cfg ext fuel r') := by
  induction fuel generalizing r r' with
  | zero => exact h
  | succ fuel ih =>
      have hadvance := h.advance u cfg ext
      simp only [CryptoAlert.settle]
      cases hr : r.advance u cfg ext with
      | none =>
          rw [hr] at hadvance
          cases hr' : r'.advance u cfg ext with
          | none => exact h
          | some t => rw [hr'] at hadvance; cases hadvance
      | some t =>
          rw [hr] at hadvance
          cases hr' : r'.advance u cfg ext with
          | none => rw [hr'] at hadvance; cases hadvance
          | some t' =>
              rw [hr'] at hadvance
              cases hadvance with
              | some ht => exact ih ht

theorem RelatedRuns.outcome {r r' : GraphRun} (h : RelatedRuns r r') :
    r.outcome = r'.outcome := by
  obtain ⟨hposition, hrelated⟩ := h
  unfold GraphRun.outcome
  rw [← hposition]
  cases hp : r.position with
  | ended =>
      rw [hp] at hrelated
      obtain ⟨bundle, analysis, evidence, risk, h⟩ := hrelated
      simp only [h, AnalysisState.output]
  | node | paused | raised => rfl

theorem RelatedRuns.answer {r r' : GraphRun} (response : ReviewResponse)
    (h : RelatedRuns r r') :
    RelatedRuns (answer u cfg ext r response) (answer u cfg ext r' response) := by
  have hrespond := h.respond cfg response
  unfold CryptoAlert.answer
  cases hr : r.respond cfg response with
  | none =>
      rw [hr] at hrespond
      cases hr' : r'.respond cfg response with
      | none => exact h
      | some t => rw [hr'] at hrespond; cases hrespond
  | some t =>
      rw [hr] at hrespond
      cases hr' : r'.respond cfg response with
      | none => rw [hr'] at hrespond; cases hrespond
      | some t' =>
          rw [hr'] at hrespond
          cases hrespond with
          | some ht => exact ht.settle u cfg ext settleSteps

/-- Related threads give related runs, whatever the input and the responses. -/
theorem relatedRuns_execute (input : RunInput) (responses : List ReviewResponse)
    (h : SameResidue s s') :
    RelatedRuns (execute u cfg ext input responses s) (execute u cfg ext input responses s') := by
  have hstart : RelatedRuns (GraphRun.start input s) (GraphRun.start input s') :=
    ⟨rfl, ⟨h.marketSnapshot, h.webEvidence, h.modelAudits, h.artifact,
      h.deepResearchArtifact⟩, rfl, rfl⟩
  have hsettled := hstart.settle u cfg ext settleSteps
  unfold execute
  generalize settle u cfg ext settleSteps (GraphRun.start input s) = r at hsettled
  generalize settle u cfg ext settleSteps (GraphRun.start input s') = r' at hsettled
  induction responses generalizing r r' with
  | nil => exact hsettled
  | cons response responses ih => exact ih _ _ (hsettled.answer u cfg ext response)

end Relation

section Outage

/-! A market provider that is down, without a fallback. -/

def outage : ProviderUnavailable := ⟨"okx", "ticker", true, "c", some 1, true⟩

def outageExternals : Externals where
  market := .error outage
  fallback := none
  research := .error ⟨.other, "TypeError", none, none, none, false⟩
  analysis := .error (.other "TypeError")
  deepResearch := none

def outageInput : RunInput :=
  ⟨⟨.marketAnalysis, .btcUsdtSwap, "4h", exclamations 1, false⟩, .bypass⟩

variable (u : Text.UnicodeData) (cfg : GraphConfig)

theorem outageInput_validated :
    outageInput.request.validated u = some outageInput.request ∧
      ∃ q, outageInput.request.analysis u = some q := by
  have hquery : redactQuery u 2000 (exclamations 1) = some (exclamations 1) :=
    redactQuery_exclamations u (by omega) (by omega)
  have hhorizon : BoundedText.of? 1 32 "4h" = some ⟨"4h", by decide⟩ :=
    BoundedText.of?_eq_some_iff.mpr rfl
  have hanalysis : outageInput.request.analysis u =
      some ⟨.btcUsdtSwap, ⟨"4h", by decide⟩, exclamations 1, false⟩ := by
    simp only [RequestFields.analysis, outageInput, if_true, AnalysisRequest.validate, hhorizon,
      hquery, Option.bind_eq_bind, Option.bind_some]
    rfl
  refine ⟨?_, _, hanalysis⟩
  have htask : outageInput.request.taskType = .marketAnalysis := rfl
  simp only [RequestFields.validated, htask, hanalysis, Option.map_some]
  rfl

/-- During the outage a run fails at once and leaves what the thread holds. -/
theorem outage_run (s : AnalysisState) :
    ∃ r₁ r₂ r₃, (GraphRun.start outageInput s).advance u cfg outageExternals = some r₁ ∧
      r₁.position = .node .collectMarketSnapshot ∧
      r₁.advance u cfg outageExternals = some r₂ ∧ r₂.position = .node .completeFailed ∧
      r₂.advance u cfg outageExternals = some r₃ ∧ r₃.position = .ended ∧
      r₃.state.output = { s.output with
        terminalStatus := some .failed, errors := [marketProviderFailure outage] } := by
  obtain ⟨hvalidated, q, hanalysis⟩ := outageInput_validated u
  let start := GraphRun.start outageInput s
  let validated : AnalysisState := { start.state with
    taskType := some .marketAnalysis, reviewPolicy := some (effectivePolicy cfg start.state),
    reviewAction := none, reviewEdits := none, reviewComment := none, reviewIteration := 0,
    terminalStatus := some .running, errors := [] }
  let stopped : AnalysisState := { validated with
    terminalStatus := some .failed, errors := [marketProviderFailure outage] }
  have hvalidate : runNode u cfg outageExternals .validateRequest start.state = some (validated,
      [.taskProgress 10 .requestValidated .active, .notification 11 false]) := by
    simp only [runNode, start, GraphRun.start, validateRequest, Option.bind_eq_bind,
      Option.bind_some, hvalidated]
    rfl
  have hcollect : runNode u cfg outageExternals .collectMarketSnapshot validated =
      some (stopped, [.taskProgress 20 .marketCollection .failed]) := by
    simp only [runNode, validated, start, GraphRun.start, collectMarketSnapshot,
      Option.bind_eq_bind, Option.bind_some, hanalysis]
    rfl
  have hcomplete : runNode u cfg outageExternals .completeFailed stopped =
      some (stopped, [.taskProgress 100 .completedFailed .failed]) := rfl
  obtain ⟨first, hfirst⟩ := advance_of_runNode (r := start) rfl hvalidate fun _ => by simp
  obtain ⟨second, hsecond⟩ := advance_of_runNode (n := .collectMarketSnapshot)
    (r := ⟨edge .validateRequest validated, validated, start.events ++ first, start.reviews⟩)
    rfl hcollect fun _ => by simp
  obtain ⟨third, hthird⟩ := advance_of_runNode (n := .completeFailed)
    (r := ⟨edge .collectMarketSnapshot stopped, stopped, start.events ++ first ++ second,
      start.reviews⟩) rfl hcomplete fun _ => by simp
  exact ⟨_, _, _, hfirst, rfl, hsecond, rfl, hthird, rfl, rfl⟩

/-- During the outage a run reports whatever the thread holds. -/
theorem execute_outage (s : AnalysisState) :
    (execute u cfg outageExternals outageInput [] s).outcome =
      .ended { s.output with
        terminalStatus := some .failed, errors := [marketProviderFailure outage] } := by
  obtain ⟨r₁, r₂, r₃, hfirst, -, hsecond, -, hthird, hended, houtput⟩ := outage_run u cfg s
  have hstop : r₃.advance u cfg outageExternals = none := by
    simp only [GraphRun.advance, hended]
  rw [execute, List.foldl_nil, settleSteps, settle_succ hfirst, settle_succ hsecond,
    settle_succ hthird, settle_of_none hstop, GraphRun.outcome, hended, houtput]

end Outage

/-- A run does not depend on the state of its thread exactly if the thread brings the same
snapshot, evidence, audits and artifacts with it. -/
theorem outcome_eq_iff (u : Text.UnicodeData) (cfg : GraphConfig) (s s' : AnalysisState) :
    (∀ ext input responses, (execute u cfg ext input responses s).outcome =
      (execute u cfg ext input responses s').outcome) ↔ SameResidue s s' := by
  constructor
  · intro h
    have houtage := h outageExternals outageInput []
    rw [execute_outage, execute_outage] at houtage
    injection houtage with houtput
    injection houtput with _ hmarket hevidence haudits hartifact hdeep
    exact ⟨hmarket, hevidence, haudits, hartifact, hdeep⟩
  · intro h ext input responses
    exact (relatedRuns_execute u cfg ext input responses h).outcome

/-- A failed run reports the artifact that an earlier run on its thread has committed. -/
theorem stale_artifact_reported :
    (execute .ascii quietConfig outageExternals outageInput []
      (execute .ascii quietConfig (quietExternals ⟨"4h", by decide⟩) quietInput [approval]
        .fresh).state).outcome ≠
      (execute .ascii quietConfig outageExternals outageInput [] .fresh).outcome := by
  have hcommitted : (execute .ascii quietConfig (quietExternals ⟨"4h", by decide⟩) quietInput
      [approval] .fresh).state.artifact.isSome = true := by decide +kernel
  rw [execute_outage, execute_outage]
  intro h
  injection h with houtput
  injection houtput with _ _ _ _ hartifact
  have hnone : (execute .ascii quietConfig (quietExternals ⟨"4h", by decide⟩) quietInput
      [approval] .fresh).state.artifact = none := hartifact
  rw [hnone] at hcommitted
  cases hcommitted

end CryptoAlert
