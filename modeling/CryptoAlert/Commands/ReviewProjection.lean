import CryptoAlert.Commands.Submission
import CryptoAlert.Graph.Contract

/-!
# Projecting a review pause onto the task

The worker starts the graph with the submission of the claimed command and projects the payload
of an interrupt onto the task. The payload is checked against the request that the task
persists: once when it is projected, and again when it is answered.
-/

namespace CryptoAlert

namespace ProductSubmission

def taskType : ProductSubmission → TaskType
  | analysis _ => .marketAnalysis
  | deepResearch _ => .deepResearch

def symbol : ProductSubmission → Symbol
  | analysis s => s.symbol
  | deepResearch s => s.symbol

def horizon : ProductSubmission → BoundedText 1 32
  | analysis s => s.horizon
  | deepResearch s => s.horizon

/-- The dump of the submission, with its task type. -/
def graphRequest : ProductSubmission → RequestFields
  | analysis s => ⟨.marketAnalysis, s.symbol, s.horizon.val, s.queryText, s.notify⟩
  | deepResearch s => ⟨.deepResearch, s.symbol, s.horizon.val, s.queryText, false⟩

end ProductSubmission

/-- The input of the run that the worker starts. -/
def graphInput (submission : ProductSubmission) (policy : ReviewPolicy) : RunInput :=
  ⟨submission.graphRequest, policy⟩

/-- Reads a review payload and checks it against the task; `none` where that raises. -/
def reviewPayloadForTask (task : Admission) (value : Json) : Option ReviewPayload := do
  let payload ← parseReviewInterruptPayload value
  let symbol ← task.payload.textAt "symbol"
  let horizon ← task.payload.textAt "horizon"
  if validateReviewPayloadForTask payload task.taskType symbol horizon then some payload else none

/-- The payload that `_mark_waiting_human` stores with the pause. -/
def projectedPayload (task : Admission) (value : Json) : Option Json :=
  (reviewPayloadForTask task value).map ReviewPayload.modelDump

/-- Whether `respond_interrupts` gets past the stored payload to the response itself. -/
def answerable (task : Admission) (stored : Json) : Bool := (reviewPayloadForTask task stored).isSome

/-- The graph accepts the request, and its nodes the request that it keeps. -/
def GraphAccepts (u : Text.UnicodeData) (request : RequestFields) : Prop :=
  ((request.validated u).bind (RequestFields.validated u)).isSome

/-- The horizon of a plain deep research request has no surrounding white space; the other
requests are free of this. -/
def HasTrimmedHorizon : Request → Prop
  | .deepResearch body => strip body.horizon.val = body.horizon.val
  | _ => True

section Identity

variable {u : Text.UnicodeData}

theorem ProductSubmission.graphRequest_identity (submission : ProductSubmission) :
    submission.graphRequest.taskType = submission.taskType ∧
      submission.graphRequest.symbol = submission.symbol ∧
      submission.graphRequest.horizon = submission.horizon.val := by
  cases submission <;> exact ⟨rfl, rfl, rfl⟩

/-- The submission of a graph request is a redaction of it. -/
theorem submissionForGraphRequest_identity {taskType : TaskType} {r : GraphRequest}
    {submission : ProductSubmission}
    (h : submissionForGraphRequest u taskType r = some submission) :
    submission.taskType = taskType ∧
      match r with
      | .analysis q => submission.symbol = q.symbol ∧ submission.horizon = q.horizon
      | .deepResearch q => submission.symbol = q.symbol ∧ submission.horizon = q.horizon := by
  cases taskType <;> cases r <;> simp only [submissionForGraphRequest, reduceCtorEq] at h
  · obtain ⟨s, hs, rfl⟩ := Option.map_eq_some_iff.mp h
    rw [AnalysisRequest.submissionDump, AnalysisSubmission.modelValidate_modelDump] at hs
    obtain ⟨_, -, rfl⟩ := Option.map_eq_some_iff.mp hs
    exact ⟨rfl, rfl, rfl⟩
  · obtain ⟨s, hs, rfl⟩ := Option.map_eq_some_iff.mp h
    rw [DeepResearchRequest.modelDump, DeepResearchSubmission.modelValidate_modelDump] at hs
    obtain ⟨_, -, rfl⟩ := Option.map_eq_some_iff.mp hs
    exact ⟨rfl, rfl, rfl⟩

theorem graphRequestForDecision_identity {r : DecisionRequest} {symbol : Symbol}
    {horizon : StrippedText 1 32} {q : GraphRequest} (hsymbol : r.symbol = some symbol)
    (hhorizon : r.horizon = some horizon) (h : graphRequestForDecision u r = some q) :
    match q with
    | .analysis q => q.symbol = symbol ∧ q.horizon = horizon.val
    | .deepResearch q => q.symbol = symbol ∧ q.horizon = horizon.val := by
  simp only [graphRequestForDecision, hsymbol, hhorizon] at h
  split_ifs at h
  split at h
  · rename_i hs hh
    obtain ⟨rfl⟩ := Option.some.inj hs
    obtain ⟨rfl⟩ := Option.some.inj hh
    obtain ⟨q, hq, rfl⟩ := Option.map_eq_some_iff.mp h
    obtain ⟨hsame, hval⟩ := DeepResearchRequest.validate_identity u hq
    exact ⟨hsame, Subtype.ext hval⟩
  · rename_i hs hh
    obtain ⟨rfl⟩ := Option.some.inj hs
    obtain ⟨rfl⟩ := Option.some.inj hh
    obtain ⟨q, hq, rfl⟩ := Option.map_eq_some_iff.mp h
    obtain ⟨hsame, hval⟩ := AnalysisRequest.validate_identity u hq
    exact ⟨hsame, Subtype.ext hval⟩
  · cases h

theorem DecisionRequest.textAt_modelDump {r : DecisionRequest} {symbol : Symbol}
    {horizon : StrippedText 1 32} (hsymbol : r.symbol = some symbol)
    (hhorizon : r.horizon = some horizon) :
    r.modelDump.textAt "symbol" = some symbol.name ∧
      r.modelDump.textAt "horizon" = some horizon.text := by
  obtain ⟨⟨⟩, _, _, _⟩ := r
  cases hsymbol
  cases hhorizon
  exact ⟨rfl, rfl⟩

/-- What a submission claimed for a task has in common with the request that was admitted. -/
structure Claimed (request : Request) (task : Admission) (submission : ProductSubmission) :
    Prop where
  taskType : submission.taskType = task.taskType
  symbol : task.payload.textAt "symbol" = some submission.symbol.name
  horizon : task.payload.textAt "horizon" = some submission.horizon.val
  trimmed : HasTrimmedHorizon request → submission.taskType = .deepResearch →
    strip submission.horizon.val = submission.horizon.val
  untrimmed : ¬ HasTrimmedHorizon request →
    submission.taskType = .deepResearch ∧ strip submission.horizon.val ≠ submission.horizon.val

theorem claimed_of_admission {request : Request} {task : Admission}
    {submission : ProductSubmission} (ha : admission u request = some task)
    (hsubmission : productSubmissionFromPayload u task.taskType task.payload = some submission) :
    Claimed request task submission := by
  cases request with
  | analysis body =>
      obtain ⟨s, hs, rfl⟩ := Option.map_eq_some_iff.mp ha
      rw [productSubmission_analysis] at hsubmission
      obtain ⟨t, ht, rfl⟩ := Option.map_eq_some_iff.mp hsubmission
      obtain ⟨_, -, rfl⟩ := Option.map_eq_some_iff.mp ht
      exact ⟨rfl, rfl, rfl, fun _ h => (nomatch h), fun h => absurd trivial h⟩
  | deepResearch body =>
      obtain ⟨s, hs, rfl⟩ := Option.map_eq_some_iff.mp ha
      obtain ⟨_, -, rfl⟩ := Option.map_eq_some_iff.mp hs
      rw [productSubmission_deepResearch] at hsubmission
      obtain ⟨t, ht, rfl⟩ := Option.map_eq_some_iff.mp hsubmission
      obtain ⟨_, -, rfl⟩ := Option.map_eq_some_iff.mp ht
      exact ⟨rfl, rfl, rfl, fun h _ => h, fun h => ⟨rfl, h⟩⟩
  | decision actorId workspaceId body =>
      rw [admission] at ha
      obtain ⟨s, -, hadmit⟩ := Option.bind_eq_some_iff.mp ha
      obtain ⟨r, -, hroute⟩ := Option.bind_eq_some_iff.mp hadmit
      simp only at hroute
      split_ifs at hroute with hstatus
      obtain ⟨taskType, htask, rfl⟩ := Option.map_eq_some_iff.mp hroute
      obtain ⟨symbol, horizon, hsymbol, hhorizon⟩ := symbol_horizon_of_admitted hstatus
      rw [productSubmissionFromPayload, isDecisionPayload_decision, if_pos rfl,
        DecisionRequest.modelValidate_modelDump] at hsubmission
      obtain ⟨stored, hstored, hclaim⟩ := Option.bind_eq_some_iff.mp hsubmission
      obtain ⟨query, -, rfl⟩ := Option.map_eq_some_iff.mp hstored
      obtain ⟨q, hq, hclaim⟩ := Option.bind_eq_some_iff.mp hclaim
      have hrequest := graphRequestForDecision_identity (r := { r with queryText := query })
        hsymbol hhorizon hq
      obtain ⟨htaskType, hsame⟩ := submissionForGraphRequest_identity hclaim
      have hboth : submission.symbol = symbol ∧ submission.horizon = horizon.val := by
        cases q with
        | analysis q => exact ⟨hsame.1.trans hrequest.1, hsame.2.trans hrequest.2⟩
        | deepResearch q => exact ⟨hsame.1.trans hrequest.1, hsame.2.trans hrequest.2⟩
      obtain ⟨htextSymbol, htextHorizon⟩ := DecisionRequest.textAt_modelDump hsymbol hhorizon
      refine ⟨htaskType, ?_, ?_, fun _ _ => ?_, fun h => absurd trivial h⟩
      · rw [hboth.1]
        exact htextSymbol
      · rw [hboth.2]
        exact htextHorizon
      · rw [hboth.2]
        exact horizon.property

end Identity

section Payload

variable {u : Text.UnicodeData} {task : Admission} {symbol horizon : String}

/-- A dumped payload passes exactly the check against the task. -/
theorem reviewPayloadForTask_modelDump (hsymbol : task.payload.textAt "symbol" = some symbol)
    (hhorizon : task.payload.textAt "horizon" = some horizon) (payload : ReviewPayload) :
    reviewPayloadForTask task payload.modelDump =
      if validateReviewPayloadForTask payload task.taskType symbol horizon then some payload
      else none := by
  simp only [reviewPayloadForTask, parseReviewInterruptPayload_modelDump, hsymbol, hhorizon,
    Option.bind_eq_bind, Option.bind_some]

/-- A pause can be shown to the reviewer and answered. -/
def Projectable (task : Admission) (pause : Option ReviewPayload) : Prop :=
  ∃ payload stored, pause = some payload ∧ projectedPayload task payload.modelDump = some stored ∧
    answerable task stored = true

theorem projectable_iff (hsymbol : task.payload.textAt "symbol" = some symbol)
    (hhorizon : task.payload.textAt "horizon" = some horizon) (pause : Option ReviewPayload) :
    Projectable task pause ↔ ∃ payload, pause = some payload ∧
      validateReviewPayloadForTask payload task.taskType symbol horizon = true := by
  have hread := reviewPayloadForTask_modelDump hsymbol hhorizon
  constructor
  · rintro ⟨payload, stored, hpause, hprojected, -⟩
    refine ⟨payload, hpause, ?_⟩
    by_contra hvalid
    rw [projectedPayload, hread, if_neg hvalid] at hprojected
    cases hprojected
  · rintro ⟨payload, hpause, hvalid⟩
    refine ⟨payload, payload.modelDump, hpause, ?_, ?_⟩
    · rw [projectedPayload, hread, if_pos hvalid]
      rfl
    · rw [answerable, hread, if_pos hvalid]
      rfl

end Payload

section DeepResearch

variable {u : Text.UnicodeData} {cfg : GraphConfig} {ext : Externals} {input : RunInput}
  {r r' : GraphRun} {s s' : AnalysisState} {events : List ProductEvent}

variable (u input) in
/-- The thread holds the validated request. -/
def DeepRequested (s : AnalysisState) : Prop :=
  s.taskType = some .deepResearch ∧
    ∃ q, s.request = some q ∧ input.request.validated u = some q

variable (u input) in
/-- The nodes have accepted the validated request as well. -/
def DeepAccepted (s : AnalysisState) : Prop :=
  s.taskType = some .deepResearch ∧
    ∃ q, s.request = some q ∧ input.request.validated u = some q ∧ (q.deepResearch u).isSome

variable (u input) in
/-- What holds of a deep research run on any thread up to its review. -/
def DeepGate (r : GraphRun) : Prop :=
  match r.position with
  | .node .validateRequest => r.state.request = some input.request
  | .node .runDeepResearch => DeepRequested u input r.state
  | .node .reviewPolicy | .node .interruptReview => DeepAccepted u input r.state ∧ Drafted r.state
  | .paused _ | .node .applyEdits => DeepAccepted u input r.state
  | .node .commitArtifact | .node .complete | .node .completeBlocked | .node .completeFailed
  | .ended | .raised => True
  | _ => False

theorem DeepAccepted.graphAccepts (hdeep : input.request.taskType = .deepResearch)
    (hs : DeepAccepted u input s) : GraphAccepts u input.request := by
  obtain ⟨-, q, -, hvalidated, hsome⟩ := hs
  obtain ⟨htask, -, -⟩ := RequestFields.validated_identity hvalidated
  rw [hdeep] at htask
  rw [GraphAccepts, hvalidated, Option.bind_some, RequestFields.validated, htask]
  simpa using hsome

theorem validateRequest_deepRequested (hdeep : input.request.taskType = .deepResearch)
    (hs : s.request = some input.request) (h : validateRequest u cfg s = some (s', events)) :
    DeepRequested u input s' ∧ s'.terminalStatus = some .running := by
  obtain ⟨raw, hraw, h⟩ := Option.bind_eq_some_iff.mp h
  obtain ⟨q, hq, h⟩ := Option.bind_eq_some_iff.mp h
  cases h
  rw [hs] at hraw
  cases hraw
  obtain ⟨htask, -, -⟩ := RequestFields.validated_identity hq
  exact ⟨⟨by rw [htask, hdeep], q, rfl, hq⟩, rfl⟩

/-- The research node goes on to the review with a draft, or fails. -/
theorem runDeepResearch_drafted (hs : DeepRequested u input s)
    (h : runDeepResearch u cfg ext s = some (s', events)) :
    s'.terminalStatus = some .failed ∨ DeepAccepted u input s' ∧ Drafted s' := by
  obtain ⟨htask, q, hrequest, hvalidated⟩ := hs
  simp only [runDeepResearch, hrequest, Option.bind_eq_bind, Option.bind_some] at h
  cases haccepted : q.deepResearch u with
  | none => simp [haccepted] at h
  | some request =>
      have hsome : (q.deepResearch u).isSome := by rw [haccepted]; rfl
      simp only [haccepted, Option.bind_some] at h
      cases hresult : ext.deepResearch with
      | none =>
          simp only [hresult] at h
          cases h
          exact .inl rfl
      | some result =>
          cases result with
          | error e =>
              simp only [hresult] at h
              obtain ⟨_, hfailed, h⟩ := Option.map_eq_some_iff.mp h
              cases hfailed
              cases h
              exact .inl rfl
          | ok result =>
              simp only [hresult] at h
              obtain ⟨artifact, -, h⟩ := Option.bind_eq_some_iff.mp h
              rw [of?_committed] at h
              cases h
              exact .inr ⟨⟨htask, q, rfl, hvalidated, hsome⟩, _, rfl, rfl⟩

theorem applyEdits_drafted (hs : DeepAccepted u input s)
    (h : applyEdits s = some (s', events)) : DeepAccepted u input s' ∧ Drafted s' := by
  simp only [applyEdits, if_pos hs.1] at h
  split at h
  · obtain ⟨current, -, h⟩ := Option.bind_eq_some_iff.mp h
    obtain ⟨artifact, hartifact, h⟩ := Option.bind_eq_some_iff.mp h
    cases h
    refine ⟨hs, artifact, rfl, ?_⟩
    unfold DeepResearchArtifact.of? at hartifact
    split_ifs at hartifact
    cases hartifact
    rfl
  · cases h

theorem deepGate_step (hdeep : input.request.taskType = .deepResearch) {l : GraphLabel}
    (hg : DeepGate u input r) (h : r.step u cfg ext l = some r') : DeepGate u input r' := by
  rcases GraphRun.step_cases h with hraised | ⟨n, s, events, hp, hn, hrun, hposition, hstate, -⟩ |
    ⟨payload, hp, -, hposition, hstate, -⟩ | ⟨payload, response, hp, -, hstate, hposition, -⟩
  · simp only [DeepGate, hraised]
  · simp only [DeepGate, hp] at hg
    simp only [DeepGate, hposition, hstate]
    cases n with
    | validateRequest =>
        obtain ⟨hrequested, hrunning⟩ := validateRequest_deepRequested hdeep hg hrun
        simp only [edge, afterRequestValidation, hrunning, hrequested.1]
        exact hrequested
    | runDeepResearch =>
        simp only [edge, afterExternalCall]
        split_ifs with hfailed
        · trivial
        · exact (runDeepResearch_drafted hg hrun).resolve_left hfailed
    | reviewPolicy =>
        cases hrun
        simp only [edge, afterReviewPolicy]
        split_ifs
        · exact hg
        · trivial
        · trivial
    | interruptReview => exact absurd rfl hn
    | applyEdits =>
        have hedited := applyEdits_drafted hg hrun
        simp only [edge, afterEdits, if_pos hedited.1.1]
        exact hedited
    | commitArtifact | complete | completeBlocked | completeFailed => trivial
    | collectMarketSnapshot | researchEvents | analyzeMarket | validateEvidence
    | applyRiskPolicy | buildArtifact => exact hg.elim
  · simp only [DeepGate, hp] at hg
    simp only [DeepGate, hposition, hstate]
    exact hg.1
  · simp only [DeepGate, hp] at hg
    have haccepted : DeepAccepted u input r'.state := by
      rw [hstate]
      exact hg
    have haction : r'.state.reviewAction = some response.action := by rw [hstate]; rfl
    simp only [DeepGate, hposition, edge, afterReview, haction]
    cases response.action with
    | edit => exact haccepted
    | reject => trivial
    | approve =>
        dsimp only
        split_ifs
        · trivial
        · trivial

theorem deepGate_of_reaches (hdeep : input.request.taskType = .deepResearch) {s : AnalysisState}
    (h : Reaches (GraphRun.step u cfg ext) anyStep (GraphRun.start input s) r) :
    DeepGate u input r :=
  h.invariant (fun _ _ _ _ hg hstep => deepGate_step hdeep hg hstep) rfl

theorem iteration_pos (s : AnalysisState) : 1 ≤ (s.reviewIteration : ℤ) + 1 := by omega

/-- The payload of a deep research review carries the trimmed horizon of the request. -/
theorem reviewPayload_deepResearch {a : DeepResearchArtifact ReadUrl}
    (hs : DeepAccepted u input s) (ha : s.deepResearchArtifact = some a)
    (hdraft : a.val.committed = false) :
    reviewPayload u s = (StrippedText.of? 1 32 input.request.horizon).map fun horizon =>
      .deepResearch ⟨input.request.symbol, horizon, ⟨s.reviewIteration + 1, iteration_pos s⟩, a,
        hdraft⟩ := by
  obtain ⟨htask, q, hrequest, hvalidated, hsome⟩ := hs
  obtain ⟨request, haccepted⟩ := Option.isSome_iff_exists.mp hsome
  obtain ⟨-, hsymbol, hhorizon⟩ := RequestFields.validated_identity hvalidated
  obtain ⟨-, hsymbol', hhorizon'⟩ := RequestFields.deepResearch_identity haccepted
  simp only [reviewPayload, if_pos htask, hrequest, haccepted, ha, Option.bind_eq_bind,
    Option.bind_some, hhorizon', hhorizon, hsymbol', hsymbol, dif_pos hdraft]
  cases StrippedText.of? 1 32 input.request.horizon <;> rfl

end DeepResearch

section QuietResearch

/-! A research run that drafts a report of one finding. -/

def quietEvidence : WebEvidence HttpUrl where
  query := "q"
  finalUrl := ⟨"https://example.com/"⟩
  redirectChain := []
  httpStatus := none
  fetchedAt := ⟨"2026-01-01T00:00:00Z"⟩
  publishedAt := none
  contentHash := "hash"
  parserVersion := "v1"
  title := "title"
  author := none
  source := "source"
  excerpt := "excerpt"
  evidenceRelation := "supports"

def quietFinding : CitedResearchFinding :=
  ⟨⟨"finding", by decide⟩, ⟨⟨[⟨1, by decide⟩], by decide⟩, by decide⟩⟩

def quietReport : DeepResearchReport :=
  ⟨⟨"summary", by decide⟩,
    ⟨[⟨⟨"title", by decide⟩, ⟨"summary", by decide⟩, ⟨[quietFinding], by decide⟩⟩], by decide⟩,
    ⟨[], by decide⟩, ⟨[], by decide⟩⟩

def quietDraft : DeepResearchArtifact HttpUrl where
  val := {
    committed := false, harnessMode := .deepagents
    searchCoverage := ⟨⟨true, ⟨1, by decide⟩, ⟨1, by decide⟩, ⟨[], by decide⟩⟩, by decide⟩
    report := quietReport, sources := ⟨[⟨⟨1, by decide⟩, quietEvidence⟩], by decide⟩
    modelAudits := [] }
  property := by decide

def researchExternals : Externals :=
  { outageExternals with deepResearch := some (.ok ⟨quietDraft, [], []⟩) }

theorem quietDraft_reread : quietDraft.reread.isSome := by decide +kernel

/-- Any deep research request that the graph accepts can be led to the review. -/
theorem reaches_interruptReview (u : Text.UnicodeData) (input : RunInput)
    (hdeep : input.request.taskType = .deepResearch) (haccepts : GraphAccepts u input.request)
    (s : AnalysisState) :
    ∃ r, Reaches (GraphRun.step u quietConfig researchExternals) anyStep
      (GraphRun.start input s) r ∧ r.position = .node .interruptReview := by
  obtain ⟨q', hagain⟩ := Option.isSome_iff_exists.mp haccepts
  obtain ⟨q, hvalidated, hq⟩ := Option.bind_eq_some_iff.mp hagain
  obtain ⟨htask, -, -⟩ := RequestFields.validated_identity hvalidated
  rw [hdeep] at htask
  simp only [RequestFields.validated, htask] at hq
  obtain ⟨request, haccepted, -⟩ := Option.map_eq_some_iff.mp hq
  obtain ⟨artifact, hartifact⟩ := Option.isSome_iff_exists.mp quietDraft_reread
  let start := GraphRun.start input s
  have hpolicy : effectivePolicy quietConfig start.state = .required := if_pos (.inr rfl)
  let validated : AnalysisState := { start.state with
    request := some q, taskType := some .deepResearch, reviewPolicy := some .required,
    reviewAction := none, reviewEdits := none, reviewComment := none, reviewIteration := 0,
    terminalStatus := some .running, errors := [] }
  let drafted : AnalysisState := { validated with
    deepResearchArtifact := some ⟨{ artifact.val with committed := false }, artifact.property⟩,
    webEvidence := [], modelAudits := [] }
  have hvalidate : runNode u quietConfig researchExternals .validateRequest start.state =
      some (validated, [.taskProgress 10 .requestValidated .active, .notification 11 q.notify]) := by
    simp only [runNode, validateRequest, hpolicy]
    simp only [start, GraphRun.start, Option.bind_eq_bind, Option.bind_some, hvalidated, htask]
    rfl
  have hresearch : runNode u quietConfig researchExternals .runDeepResearch validated =
      some (drafted, [.taskProgress 20 .deepResearch .active,
        .taskProgress 30 .deepResearchDraftReady .complete, .evidence 31 .collected 0 none,
        usageEvent 32 [], .artifact 33 false 1]) := by
    simp only [runNode, runDeepResearch, validated, haccepted, researchExternals, hartifact,
      of?_committed, Option.bind_eq_bind, Option.bind_some]
    rfl
  have hpolicyNode : runNode u quietConfig researchExternals .reviewPolicy drafted =
      some (drafted, [.taskProgress 80 .reviewRequired .active]) := rfl
  obtain ⟨first, hfirst⟩ := advance_of_runNode (r := start) rfl hvalidate fun _ => by simp
  obtain ⟨second, hsecond⟩ := advance_of_runNode (n := .runDeepResearch)
    (r := ⟨edge .validateRequest validated, validated, start.events ++ first, start.reviews⟩)
    rfl hresearch fun _ => by
      have husage : (usageEvent 32 []).isValid = true :=
        isValid_usageEvent (by omega) ⟨by decide, by decide⟩
      simp [husage]
  obtain ⟨third, hthird⟩ := advance_of_runNode (n := .reviewPolicy)
    (r := ⟨edge .runDeepResearch drafted, drafted, start.events ++ first ++ second,
      start.reviews⟩) rfl hpolicyNode fun _ => by simp
  have hrun₁ : Reaches (GraphRun.step u quietConfig researchExternals) anyStep start _ :=
    Reaches.refl.tail .advance trivial hfirst
  have hrun₂ : Reaches (GraphRun.step u quietConfig researchExternals) anyStep start _ :=
    hrun₁.tail .advance trivial hsecond
  exact ⟨_, hrun₂.tail .advance trivial hthird, rfl⟩

end QuietResearch

section Runs

variable {u : Text.UnicodeData} {request : Request} {task : Admission}
  {submission : ProductSubmission}

/-- Every review of every run of the task can be shown and answered. -/
def ReviewsProjectable (u : Text.UnicodeData) (task : Admission)
    (submission : ProductSubmission) : Prop :=
  ∀ cfg ext policy s r,
    Reaches (GraphRun.step u cfg ext) anyStep (GraphRun.start (graphInput submission policy) s) r →
    r.position = .node .interruptReview → Projectable task (reviewPayload u r.state)

theorem market_projectable (hclaimed : Claimed request task submission)
    (hmarket : submission.taskType = .marketAnalysis) : ReviewsProjectable u task submission := by
  intro cfg ext policy s r hrun hp
  obtain ⟨htask, hsymbol, hhorizon⟩ := submission.graphRequest_identity
  have hgate := gate_of_reaches (htask.trans hmarket) hrun
  simp only [Gate, hp] at hgate
  obtain ⟨⟨m, draft, hs⟩, -⟩ := hgate
  obtain ⟨payload, hpayload⟩ := market_pause (u := u) hs
  obtain ⟨p, rfl, hdraft⟩ := reviewPayload_artifact hs hpayload
  refine (projectable_iff hclaimed.symbol hclaimed.horizon _).mpr ⟨_, hpayload, ?_⟩
  have hinstrument : m.analysis.instrument.name = submission.symbol.name := by
    rw [hs.instrument, ← hsymbol, graphInput]
  have hsame : m.analysis.horizon.val = submission.horizon.val := hs.horizon.trans hhorizon
  simp only [validateReviewPayloadForTask, ← hclaimed.taskType, hmarket, hdraft,
    hs.shows.analysis, hinstrument, hsame, and_self, decide_true]

/-- The payload of a deep research review passes exactly if its trimmed horizon is the horizon
of the submission. -/
theorem deepResearch_projectable_iff (hclaimed : Claimed request task submission)
    (hdeep : submission.taskType = .deepResearch) {cfg : GraphConfig} {ext : Externals}
    {policy : ReviewPolicy} {s : AnalysisState} {r : GraphRun}
    (hrun : Reaches (GraphRun.step u cfg ext) anyStep
      (GraphRun.start (graphInput submission policy) s) r)
    (hp : r.position = .node .interruptReview) :
    Projectable task (reviewPayload u r.state) ↔
      strip submission.horizon.val = submission.horizon.val := by
  obtain ⟨htask, hsymbol, hhorizon⟩ := submission.graphRequest_identity
  have hgate := deepGate_of_reaches (htask.trans hdeep) hrun
  simp only [DeepGate, hp] at hgate
  obtain ⟨haccepted, a, ha, hdraft⟩ := hgate
  rw [projectable_iff hclaimed.symbol hclaimed.horizon,
    reviewPayload_deepResearch haccepted ha hdraft]
  simp only [graphInput, hsymbol, hhorizon]
  constructor
  · rintro ⟨payload, hpayload, hvalid⟩
    obtain ⟨horizon, hstripped, rfl⟩ := Option.map_eq_some_iff.mp hpayload
    simp only [validateReviewPayloadForTask, ← hclaimed.taskType, hdeep, decide_eq_true_eq,
      Bool.decide_and, Bool.and_eq_true] at hvalid
    rw [← hvalid.2]
    exact horizon.property
  · intro htrimmed
    have hof : StrippedText.of? 1 32 submission.horizon.val = some ⟨submission.horizon, htrimmed⟩ :=
      StrippedText.of?_text ⟨submission.horizon, htrimmed⟩
    refine ⟨_, by rw [hof]; rfl, ?_⟩
    simp only [validateReviewPayloadForTask, ← hclaimed.taskType, hdeep, StrippedText.text,
      and_self, decide_true]

/-- The reviews of an admitted and claimed task can be shown and answered exactly if its horizon
is compared as it was stored, or the graph never gets to a review. -/
theorem reviewsProjectable_iff (ha : admission u request = some task)
    (hsubmission : productSubmissionFromPayload u task.taskType task.payload = some submission) :
    ReviewsProjectable u task submission ↔
      HasTrimmedHorizon request ∨
        ¬ GraphAccepts u submission.graphRequest := by
  have hclaimed := claimed_of_admission ha hsubmission
  constructor
  · intro hall
    by_contra hneither
    push Not at hneither
    obtain ⟨huntrimmed, haccepts⟩ := hneither
    obtain ⟨hdeep, hne⟩ := hclaimed.untrimmed huntrimmed
    obtain ⟨htask, -, -⟩ := submission.graphRequest_identity
    obtain ⟨r, hrun, hp⟩ := reaches_interruptReview u (graphInput submission .required)
      (htask.trans hdeep) haccepts .fresh
    exact hne ((deepResearch_projectable_iff hclaimed hdeep hrun hp).mp (hall _ _ _ _ _ hrun hp))
  · intro hcondition
    cases htask : submission.taskType with
    | marketAnalysis => exact market_projectable hclaimed htask
    | deepResearch =>
        intro cfg ext policy s r hrun hp
        have hdeep : submission.graphRequest.taskType = .deepResearch :=
          submission.graphRequest_identity.1.trans htask
        have hgate := deepGate_of_reaches hdeep hrun
        simp only [DeepGate, hp] at hgate
        rw [deepResearch_projectable_iff hclaimed htask hrun hp]
        exact hclaimed.trimmed (hcondition.resolve_right (not_not.mpr (hgate.1.graphAccepts hdeep)))
          htask

/-- A deep research request that asks a question of one character. -/
def researchBody (horizon : BoundedText 1 32) : DeepResearchSubmission :=
  ⟨.btcUsdtSwap, horizon, exclamations 1⟩

theorem researchBody_claimed (u : Text.UnicodeData) (horizon : BoundedText 1 32) :
    ∃ task, admission u (.deepResearch (researchBody horizon)) = some task ∧
      productSubmissionFromPayload u task.taskType task.payload =
        some (.deepResearch (researchBody horizon)) ∧
      GraphAccepts u (ProductSubmission.deepResearch (researchBody horizon)).graphRequest := by
  have hquery : redactQuery u 4000 (exclamations 1) = some (exclamations 1) :=
    redactQuery_exclamations u (by omega) (by omega)
  have hredacted : (researchBody horizon).redacted u = some (researchBody horizon) := by
    simp only [DeepResearchSubmission.redacted, researchBody, hquery, Option.map_some]
  have hvalidated : (ProductSubmission.deepResearch (researchBody horizon)).graphRequest.validated
      u = some (ProductSubmission.deepResearch (researchBody horizon)).graphRequest := by
    simp only [ProductSubmission.graphRequest, RequestFields.validated, RequestFields.deepResearch,
      if_true, DeepResearchRequest.validate, researchBody, BoundedText.of?_val, hquery,
      Option.bind_eq_bind, Option.bind_some]
    rfl
  refine ⟨⟨.deepResearch, (researchBody horizon).modelDump⟩, ?_, ?_, ?_⟩
  · rw [admission, hredacted, Option.map_some]
  · rw [productSubmission_deepResearch, hredacted, Option.map_some]
  · rw [GraphAccepts, hvalidated, Option.bind_some, hvalidated]
    rfl

/-- The reviews of a research task for four hours can be shown and answered. -/
theorem reviewsProjectable_iff_trimmed :
    ∃ task, admission .ascii (.deepResearch (researchBody ⟨"4h", by decide⟩)) = some task ∧
      ReviewsProjectable .ascii task (.deepResearch (researchBody ⟨"4h", by decide⟩)) := by
  obtain ⟨task, ha, hsubmission, -⟩ := researchBody_claimed .ascii ⟨"4h", by decide⟩
  have htrimmed : strip "4h" = "4h" := by decide
  exact ⟨task, ha, (reviewsProjectable_iff ha hsubmission).mpr (.inl htrimmed)⟩

/-- With a space before the horizon the review is reached but cannot be projected. -/
theorem paddedHorizon_not_projectable :
    ∃ task r, admission .ascii (.deepResearch (researchBody ⟨" 4h", by decide⟩)) = some task ∧
      productSubmissionFromPayload .ascii task.taskType task.payload =
        some (.deepResearch (researchBody ⟨" 4h", by decide⟩)) ∧
      Reaches (GraphRun.step .ascii quietConfig researchExternals) anyStep
        (GraphRun.start (graphInput (.deepResearch (researchBody ⟨" 4h", by decide⟩)) .required)
          .fresh) r ∧
      r.position = .node .interruptReview ∧ ¬ Projectable task (reviewPayload .ascii r.state) := by
  obtain ⟨task, ha, hsubmission, haccepts⟩ := researchBody_claimed .ascii ⟨" 4h", by decide⟩
  obtain ⟨r, hrun, hp⟩ := reaches_interruptReview .ascii
    (graphInput (.deepResearch (researchBody ⟨" 4h", by decide⟩)) .required) rfl haccepts .fresh
  have huntrimmed : strip " 4h" ≠ " 4h" := by decide
  refine ⟨task, r, ha, hsubmission, hrun, hp, ?_⟩
  rw [deepResearch_projectable_iff (claimed_of_admission ha hsubmission) rfl hrun hp]
  exact huntrimmed

end Runs

end CryptoAlert
