import CryptoAlert.Api.TerminalOutput
import CryptoAlert.Graph.Residual

/-!
# The terminal contract of the graph

What a run must be given so that no node raises and its final state validates: the texts and
numbers of its collaborators have to stay within the limits of the models that they end up in.
The condition is put on each step, on the state before it and on what the collaborator returns.
-/

namespace CryptoAlert

section Conditions

variable (u : Text.UnicodeData) (cfg : GraphConfig) (ext : Externals)

/-- The totals that a usage event may report. -/
def UsageFits (audits : List ModelExecutionAudit) : Prop :=
  (audits.map (·.callCount)).sum ≤ 1000 ∧
    (audits.map (·.promptVersion.val)).dedup.length ≤ 16

def Readable (evidence : List (WebEvidence HttpUrl)) : Prop := ∀ e ∈ evidence, e.reread.isSome

/-- The request is accepted and is still acceptable after its redaction. -/
def RequestFits (s : AnalysisState) : Prop :=
  ∃ raw q, s.request = some raw ∧ raw.validated u = some q ∧ (q.validated u).isSome

def DeepResearchFits : Prop :=
  match ext.deepResearch with
  | none => True
  | some (.error e) =>
      (NameText.of? 128 e.reportedType).isSome ∧
      (e.kind = .searchEvidenceUnavailable →
        ∀ p ∈ e.provider, p ≠ "" → (NameText.of? 64 p).isSome) ∧
      ∀ c ∈ cfg.correlationId, c ≠ "" → (StrippedText.of? 1 255 c).isSome
  | some (.ok result) =>
      result.artifact.reread.isSome ∧ Readable result.evidence ∧
      (cfg.hasIdentity = true → result.evidence.length ≤ 1000 ∧ UsageFits result.modelAudits)

def MarketFits : Prop :=
  match ext.market with
  | .ok provided => provided.toDomain.isSome
  | .error primary =>
      match fallbackFor ext primary with
      | none =>
          (NameText.of? 64 primary.provider).isSome ∧ (NameText.of? 128 primary.endpoint).isSome ∧
          (StrippedText.of? 1 255 primary.correlationId).isSome
      | some (.error e) =>
          (NameText.of? 64 (e.provider.getD "builtin_web_search")).isSome ∧
          (NameText.of? 128 e.reportedType).isSome ∧
          (∀ n ∈ primary.attempt, 1 ≤ n ∧ n ≤ 100) ∧
          (StrippedText.of? 1 255 primary.correlationId).isSome
      | some (.ok result) => Readable result.evidence

def ResearchFits (s : AnalysisState) : Prop :=
  match ext.research with
  | .error e =>
      (NameText.of? 128 e.reportedType).isSome ∧
      (∀ p ∈ e.provider, p ≠ "" → (NameText.of? 64 p).isSome) ∧ ∀ n ∈ e.attempt, n ≤ 100
  | .ok result =>
      Readable result.evidence ∧
      (cfg.hasIdentity = true → ∀ merged,
        mergeWebEvidence s.webEvidence result.evidence = some merged →
        (effectiveWebEvidence merged).length ≤ 1000)

def AnalysisError.typeName : AnalysisError → String
  | invalidOutput name | transient name | other name => name

/-- The model answers for the right instrument; a wrong horizon can be reported. -/
def AnalysisFits (s : AnalysisState) : Prop :=
  match ext.analysis with
  | .error e => (NameText.of? 128 e.typeName).isSome
  | .ok (analysis, audit) => ∀ raw ∈ s.request, analysis.instrument = raw.symbol →
      if analysis.horizon.val = raw.horizon then
        cfg.hasIdentity = true → UsageFits (s.modelAudits ++ [audit])
      else
        (StrippedText.of? 1 128 raw.horizon).isSome ∧
          (StrippedText.of? 1 128 analysis.horizon.val).isSome

def TextFits (min max : ℕ) (s : String) : Prop := min ≤ s.length ∧ s.length ≤ max

/-- The names of the sources, of the model and of its host fit into a provenance. -/
def ProvenanceFits (s : AnalysisState) : Prop :=
  (endpointHost u cfg).isSome ∧
  TextFits 1 128
    (joinedNames ((effectiveWebEvidence s.webEvidence).map (·.source)) cfg.searchProvider) ∧
  TextFits 1 128
    (joinedNames ((effectiveWebEvidence s.webEvidence).map (·.parserVersion)) "unavailable") ∧
  ∀ snapshot ∈ s.marketSnapshot, snapshot.sourceLevel ≠ .controlledDependency →
    TextFits 1 128 cfg.modelName ∧
    ∀ host, endpointHost u cfg = some (some host) → host.length ≤ 255

/-- The horizon of a deep research request is not blank. -/
def HorizonFits (s : AnalysisState) : Prop :=
  s.taskType = some .deepResearch → ∀ raw ∈ s.request, (StrippedText.of? 1 32 raw.horizon).isSome

/-- The corrected analysis is still one: no required field is null, no score is out of range and
no cause is blank. -/
structure ArtifactEdit.Applies (e : ArtifactEdit) : Prop where
  regime : e.regime ≠ some none
  factorScores : ∀ v, e.factorScores = some v →
    ∃ scores, v = some scores ∧ ∀ x ∈ scores, -2 ≤ x.2 ∧ x.2 ≤ 2
  totalScore : e.totalScore ≠ some none
  mainAction : e.mainAction ≠ some none
  referencePrice : e.referencePrice ≠ some none
  probability : e.probability ≠ some none
  positionSizeClass : e.positionSizeClass ≠ some none
  maxLeverage : e.maxLeverage ≠ some none
  riskPct : e.riskPct ≠ some none
  rootCauseChain : ∀ v, e.rootCauseChain = some v →
    ∃ causes, v = some causes ∧ ∀ c ∈ causes.val, Text.isBlank c.toList = false
  whyNotOpposite : e.whyNotOpposite ≠ some none
  invalidation : e.invalidation ≠ some none
  unavailableData : e.unavailableData ≠ some none
  manualExecutionRequired : e.manualExecutionRequired ≠ some none
  expiresInSeconds : e.expiresInSeconds ≠ some none

def EditFits (s : AnalysisState) : Prop :=
  ∀ e, s.reviewEdits = some (.artifact e) → e.val.Applies

/-- The condition on a node, on the state before it. -/
def NodeFits (n : Node) (s : AnalysisState) : Prop :=
  match n with
  | .validateRequest => RequestFits u s
  | .runDeepResearch => DeepResearchFits cfg ext
  | .collectMarketSnapshot => MarketFits ext
  | .researchEvents => ResearchFits cfg ext s
  | .analyzeMarket => AnalysisFits cfg ext s
  | .buildArtifact => ProvenanceFits u cfg s
  | .interruptReview => HorizonFits s
  | .applyEdits => EditFits s
  | _ => True

/-- The condition on a step: a response has to answer the payload that is shown. -/
def StepFits (r : GraphRun) (l : GraphLabel) : Prop :=
  match l, r.position with
  | .advance, .node n => NodeFits u cfg ext n r.state
  | .respond response, .paused payload => validateReviewResponseForPayload payload response = true
  | _, _ => True

end Conditions

section Errors

theorem attemptNumber_isSome {n : ℤ} (h : 1 ≤ n ∧ n ≤ 100) : (AttemptNumber.of? n).isSome := by
  rw [AttemptNumber.of?, dif_pos h]
  rfl

theorem marketProviderFailure_fits {e : ProviderUnavailable}
    (hprovider : (NameText.of? 64 e.provider).isSome)
    (hendpoint : (NameText.of? 128 e.endpoint).isSome)
    (hcorrelation : (StrippedText.of? 1 255 e.correlationId).isSome) :
    (marketProviderFailure e).Fits := by
  constructor <;> simp only [marketProviderFailure, Option.mem_def, Option.some.injEq,
    forall_eq', reduceCtorEq, false_implies, implies_true, hprovider, hendpoint, hcorrelation]
  decide

theorem provider_of_fallbackFor {ext : Externals} {primary : ProviderUnavailable}
    {result : Except CollaboratorError WebMarketResult}
    (h : fallbackFor ext primary = some result) : primary.provider = "okx" := by
  unfold fallbackFor ProviderUnavailable.allowsFallback at h
  split_ifs at h with hallows
  simp only [Bool.and_eq_true, beq_iff_eq] at hallows
  exact hallows.1.1

theorem fallbackFailure_fits {primary : ProviderUnavailable} {e : CollaboratorError}
    (hokx : primary.provider = "okx")
    (hprovider : (NameText.of? 64 (e.provider.getD "builtin_web_search")).isSome)
    (htype : (NameText.of? 128 e.reportedType).isSome)
    (hattempt : ∀ n ∈ primary.attempt, 1 ≤ n ∧ n ≤ 100)
    (hcorrelation : (StrippedText.of? 1 255 primary.correlationId).isSome) :
    (fallbackFailure primary e).Fits := by
  have hprimary : ∀ n ∈ primary.attempt, (AttemptNumber.of? n).isSome :=
    fun n hn => attemptNumber_isSome (hattempt n hn)
  constructor <;> simp only [fallbackFailure, hokx, Option.mem_def, Option.some.injEq,
    forall_eq', reduceCtorEq, false_implies, implies_true, hprovider, htype, hcorrelation]
  · decide
  · decide
  · decide
  · exact hprimary

theorem researchFailure_fits {e : CollaboratorError}
    (htype : (NameText.of? 128 e.reportedType).isSome)
    (hprovider : ∀ p ∈ e.provider, p ≠ "" → (NameText.of? 64 p).isSome)
    (hattempt : ∀ n ∈ e.attempt, n ≤ 100) : (researchFailure e).Fits := by
  constructor <;> simp only [researchFailure, Option.mem_def, Option.some.injEq,
    forall_eq', reduceCtorEq, false_implies, implies_true, htype]
  · decide
  · intro p hp
    obtain ⟨hp, hne⟩ := Option.filter_eq_some_iff.mp hp
    exact hprovider p hp (by simpa using hne)
  · intro n hn
    obtain ⟨hn, hpos⟩ := Option.filter_eq_some_iff.mp hn
    have hpos : 0 < n := by simpa using hpos
    exact attemptNumber_isSome ⟨by omega, hattempt n hn⟩
  · decide

/-- A record of a code and the type of the exception. -/
theorem typedError_fits {code typeName : String} {retryable : Bool}
    (hcode : (ErrorCode.of? code).isSome) (htype : (NameText.of? 128 typeName).isSome) :
    ({ code, retryable, errorType := some typeName } : GraphError).Fits := by
  constructor <;> simp only [Option.mem_def, Option.some.injEq, forall_eq', reduceCtorEq,
    false_implies, implies_true, hcode, htype]

theorem analysisError_fits {e : AnalysisError} (h : (NameText.of? 128 e.typeName).isSome) :
    e.record.Fits := by
  cases e with
  | invalidOutput name => exact typedError_fits (by decide) h
  | transient name => exact typedError_fits (by decide) h
  | other name => exact typedError_fits (by decide) h

theorem outputMismatch_fits {field expected actual : String}
    (hfield : (StrippedText.of? 1 64 field).isSome)
    (hexpected : (StrippedText.of? 1 128 expected).isSome)
    (hactual : (StrippedText.of? 1 128 actual).isSome) :
    (outputMismatch field expected actual).Fits := by
  constructor <;> simp only [outputMismatch, Option.mem_def, Option.some.injEq, forall_eq',
    reduceCtorEq, false_implies, implies_true, hfield, hexpected, hactual]
  decide

theorem symbolName_fits (s : Symbol) : (StrippedText.of? 1 128 s.name).isSome := by
  cases s <;> decide

theorem deepResearchFailureError_fits {cfg : GraphConfig} {e : CollaboratorError}
    (htype : (NameText.of? 128 e.reportedType).isSome)
    (hprovider : e.kind = .searchEvidenceUnavailable →
      ∀ p ∈ e.provider, p ≠ "" → (NameText.of? 64 p).isSome)
    (hcorrelation : ∀ c ∈ cfg.correlationId, c ≠ "" → (StrippedText.of? 1 255 c).isSome) :
    (deepResearchFailureError cfg e).Fits := by
  constructor <;> simp only [deepResearchFailureError, Option.mem_def, Option.some.injEq,
    forall_eq', reduceCtorEq, false_implies, implies_true, htype]
  · decide
  · cases hkind : e.kind with
    | searchEvidenceUnavailable =>
        simp only
        cases hp : e.provider.filter fun p => !p.isEmpty with
        | none => decide
        | some p =>
            obtain ⟨hp, hne⟩ := Option.filter_eq_some_iff.mp hp
            exact hprovider hkind p hp (by simpa using hne)
    | searchReadiness | toolCallLimit | other =>
        simp only
        decide
  · intro n hn
    obtain ⟨-, hrange⟩ := Option.filter_eq_some_iff.mp hn
    exact attemptNumber_isSome (by simpa using hrange)
  · cases e.kind <;> decide
  · intro c hc
    obtain ⟨hc, hne⟩ := Option.filter_eq_some_iff.mp hc
    exact hcorrelation c hc (by simpa using hne)

end Errors

section Edits

open ArtifactEdit

variable {α β : Type}

theorem required_isSome {edit : EditField α} (h : edit ≠ some none) (current : α) :
    (required edit current).isSome := by
  cases edit with
  | none => rfl
  | some value =>
      cases value with
      | none => exact absurd rfl h
      | some value => rfl

theorem revalidated_isSome {edit : EditField α} {validate : α → Option β}
    (h : ∀ v, edit = some v → ∃ value, v = some value ∧ (validate value).isSome) (current : β) :
    (revalidated edit validate current).isSome := by
  cases edit with
  | none => rfl
  | some v =>
      obtain ⟨value, rfl, hvalue⟩ := h v rfl
      exact hvalue

/-- An edit within the limits of the analysis can be applied to any analysis. -/
theorem ArtifactEdit.Applies.apply_isSome {e : ArtifactEdit} (h : e.Applies)
    (a : MarketAnalysis) : (e.apply a).isSome := by
  have hscores : ∀ v, e.factorScores = some v →
      ∃ value, v = some value ∧ (validateScores value).isSome := by
    intro v hv
    obtain ⟨scores, rfl, hrange⟩ := h.factorScores v hv
    refine ⟨scores, rfl, isSome_mapM_iff.mpr fun x hx => ?_⟩
    obtain ⟨name, n⟩ := x
    have hn : -2 ≤ n ∧ n ≤ 2 := hrange _ hx
    simp only [dif_pos hn]
    rfl
  have hcauses : ∀ v, e.rootCauseChain = some v →
      ∃ value, v = some value ∧ (validateCauses value).isSome := by
    intro v hv
    obtain ⟨causes, rfl, hblank⟩ := h.rootCauseChain v hv
    refine ⟨causes, rfl, ?_⟩
    rw [validateCauses, dif_pos hblank]
    rfl
  have hinvalidation : e.invalidation.map (·.map Subtype.val) ≠ some none := by
    intro hnone
    obtain ⟨v, hv, hmap⟩ := Option.map_eq_some_iff.mp hnone
    rw [Option.map_eq_none_iff.mp hmap] at hv
    exact h.invalidation hv
  unfold apply
  refine isSome_bind (required_isSome h.regime _) fun _ _ => ?_
  refine isSome_bind (revalidated_isSome hscores _) fun _ _ => ?_
  refine isSome_bind (required_isSome h.totalScore _) fun _ _ => ?_
  refine isSome_bind (required_isSome h.mainAction _) fun _ _ => ?_
  refine isSome_bind (required_isSome h.referencePrice _) fun _ _ => ?_
  refine isSome_bind (required_isSome h.probability _) fun _ _ => ?_
  refine isSome_bind (required_isSome h.positionSizeClass _) fun _ _ => ?_
  refine isSome_bind (required_isSome h.maxLeverage _) fun _ _ => ?_
  refine isSome_bind (required_isSome h.riskPct _) fun _ _ => ?_
  refine isSome_bind (revalidated_isSome hcauses _) fun _ _ => ?_
  refine isSome_bind (required_isSome h.whyNotOpposite _) fun _ _ => ?_
  refine isSome_bind (required_isSome hinvalidation _) fun _ _ => ?_
  refine isSome_bind (required_isSome h.unavailableData _) fun _ _ => ?_
  refine isSome_bind (required_isSome h.manualExecutionRequired _) fun _ _ => ?_
  refine isSome_bind (required_isSome h.expiresInSeconds _) fun _ _ => ?_
  rfl

end Edits

section Values

theorem isValid_usageEvent {n : ℕ} (hn : 1 ≤ n) {audits : List ModelExecutionAudit}
    (h : UsageFits audits) : (usageEvent n audits).isValid = true := by
  simp only [usageEvent, ProductEvent.isValid, ProductEvent.sequence, Bool.and_eq_true,
    decide_eq_true_eq, List.length_insertionSort]
  exact ⟨Nat.ble_eq.mpr hn, h⟩

theorem mem_of_mem_eraseDupsBy {α : Type} {r : α → α → Bool} {l : List α} {a : α}
    (h : a ∈ l.eraseDupsBy r) : a ∈ l := by
  induction hn : l.length using Nat.strong_induction_on generalizing l with
  | _ n ih =>
      cases l with
      | nil => exact h
      | cons b l =>
          rw [List.eraseDupsBy_cons] at h
          rcases List.mem_cons.mp h with rfl | h
          · exact List.mem_cons_self
          · have hlt : (l.filter fun c => r c b = false).length < n := by
              have hle := List.length_filter_le (fun c => decide (r c b = false)) l
              rw [List.length_cons] at hn
              omega
            have hmem := ih _ hlt h rfl
            exact List.mem_cons_of_mem b (List.mem_of_mem_filter hmem)

/-- Readable evidence merges into readable evidence. -/
theorem mergeWebEvidence_readable {existing incoming : List (WebEvidence HttpUrl)}
    (hexisting : Readable existing) (hincoming : Readable incoming) :
    ∃ merged, mergeWebEvidence existing incoming = some merged ∧ Readable merged := by
  unfold mergeWebEvidence
  rw [if_pos (List.all_eq_true.mpr hexisting)]
  refine ⟨_, rfl, fun e he => ?_⟩
  rcases List.mem_append.mp (mem_of_mem_eraseDupsBy he) with he | he
  · exact hexisting e he
  · exact hincoming e he

theorem length_whenAll_le (entries : List (Bool × String)) :
    (whenAll entries).length ≤ entries.length := by
  rw [whenAll, List.length_map]
  exact List.length_filter_le _ _

theorem checkEvidenceSufficiency_warnings (snapshot : MarketSnapshot) (bundle : ResearchBundle)
    (action : Action) : (checkEvidenceSufficiency snapshot bundle action).warnings.length ≤ 3 := by
  have hoptional : (missingOptionalFields snapshot).length ≤ 2 := length_whenAll_le _
  simp only [checkEvidenceSufficiency, List.length_append, List.length_map]
  split_ifs <;> simp only [List.length_cons, List.length_nil] <;> omega

theorem blockedReasons_length (analysis : MarketAnalysis) (evidence : EvidenceVerdict)
    (budget : RiskBudget) : (blockedReasons analysis evidence budget).length ≤ 10 :=
  length_whenAll_le _

theorem of?_isSome_of_fits {min max : ℕ} {s : String} (h : TextFits min max s) :
    (BoundedText.of? min max s).isSome := (BoundedText.of?_isSome s).mpr h

theorem artifactProvenance_isSome {u : Text.UnicodeData} {cfg : GraphConfig} {s : AnalysisState}
    {snapshot : MarketSnapshot} (hsnapshot : s.marketSnapshot = some snapshot)
    (h : ProvenanceFits u cfg s) :
    (artifactProvenance u cfg snapshot.sourceLevel (effectiveWebEvidence s.webEvidence)
      s.modelAudits).isSome := by
  obtain ⟨hhost, hsources, hparsers, hmodel⟩ := h
  unfold artifactProvenance
  refine isSome_bind hhost fun host hhost' => ?_
  have hmarket : (BoundedText.of? 1 64 (if snapshot.sourceLevel = .controlledDependency then
      "controlled_dependency" else if snapshot.sourceLevel = .webSearchVerified then
      "web_search_market" else "okx")).isSome := by
    split_ifs <;> decide
  have hprovider : (BoundedText.of? 1 64 (if snapshot.sourceLevel = .controlledDependency then
      "controlled_dependency" else if (cfg.openaiBaseUrl.filter fun url => !url.isEmpty).isSome
      then "openai-compatible" else "openai")).isSome := by
    split_ifs <;> decide
  refine isSome_bind hmarket fun _ _ => ?_
  refine isSome_bind (of?_isSome_of_fits hsources) fun _ _ => ?_
  refine isSome_bind (of?_isSome_of_fits hparsers) fun _ _ => ?_
  refine isSome_bind hprovider fun _ _ => ?_
  by_cases hcontrolled : snapshot.sourceLevel = .controlledDependency
  · simp only [if_pos hcontrolled]
    exact isSome_bind (by decide) fun _ _ => rfl
  · simp only [if_neg hcontrolled]
    obtain ⟨hname, hlength⟩ := hmodel snapshot hsnapshot hcontrolled
    refine isSome_bind (of?_isSome_of_fits hname) fun _ _ => ?_
    cases host with
    | none => rfl
    | some host =>
        have hfits : (BoundedText.of? 0 255 host).isSome :=
          of?_isSome_of_fits ⟨Nat.zero_le _, hlength host hhost'⟩
        obtain ⟨t, ht⟩ := Option.isSome_iff_exists.mp hfits
        simp [ht]

end Values

section Invariants

variable (u : Text.UnicodeData) (cfg : GraphConfig) (ext : Externals) (input : RunInput)

structure Sound (s : AnalysisState) : Prop where
  readable : Readable s.webEvidence
  errors : s.errors = []

structure MarketSound (s : AnalysisState) : Prop extends Sound s where
  request : ∃ raw, s.request = some raw ∧ (raw.analysis u).isSome
  noDeepResearch : s.deepResearchArtifact = none

/-- The evidence can be counted in an event. -/
def Counted (s : AnalysisState) : Prop :=
  cfg.hasIdentity = true → (effectiveWebEvidence s.webEvidence).length ≤ 1000

/-- A failure that has been classified. -/
structure Failing (s : AnalysisState) : Prop where
  readable : Readable s.webEvidence
  noArtifact : s.artifact = none
  noDeepResearch : s.deepResearchArtifact = none
  errors : s.errors ≠ [] ∧ ∀ e ∈ s.errors, e.Fits

/-- A final state that validates as a terminal output with the status it carries. -/
def ValidOutput (s : AnalysisState) : Prop :=
  ∃ output, TerminalGraphOutput.validate s = some output ∧
    s.terminalStatus.bind TerminalStatus.output = some output.terminalStatus

/-- What holds at each position of a market analysis, beyond its gate. -/
def MarketContract (p : Position) (s : AnalysisState) : Prop :=
  match p with
  | .node .validateRequest => s = (GraphRun.start input .fresh).state
  | .node .collectMarketSnapshot | .node .researchEvents =>
      MarketSound u s ∧ s.artifact = none ∧ s.terminalStatus = some .running
  | .node .analyzeMarket =>
      MarketSound u s ∧ s.artifact = none ∧ s.terminalStatus = some .running ∧ Counted cfg s
  | .node .validateEvidence | .node .applyRiskPolicy | .node .buildArtifact
  | .node .reviewPolicy | .node .interruptReview | .paused _ | .node .commitArtifact =>
      MarketSound u s ∧ Counted cfg s
  | .node .applyEdits =>
      MarketSound u s ∧ Counted cfg s ∧ ∃ e, s.reviewEdits = some (.artifact e)
  | .node .complete => MarketSound u s
  | .node .completeBlocked =>
      MarketSound u s ∧ ∃ draft, s.artifact = some draft ∧ draft.status = .draft ∧
        (s.reviewAction = some .reject ∨ draft.riskVerdict.allowed = false)
  | .node .completeFailed => Failing s
  | .ended => ValidOutput s
  | .node .runDeepResearch | .raised => False

/-- A node returns, its events are valid, and what follows holds at the next position. -/
def Proceeds (contract : Position → AnalysisState → Prop) (n : Node) (s : AnalysisState) : Prop :=
  ∃ s' events, runNode u cfg ext n s = some (s', events) ∧
    (cfg.hasIdentity = true → ∀ e ∈ events, e.isValid = true) ∧ contract (edge n s') s'

end Invariants

section Market

variable {u : Text.UnicodeData} {cfg : GraphConfig} {ext : Externals} {input : RunInput}
  {s : AnalysisState}

/-- A classified failure leads to the failed completion. -/
theorem contract_failed {contract : Position → AnalysisState → Prop} {n : Node} (next : Node)
    {sequence : ℕ} {phase : Phase} {error : GraphError} (hreadable : Readable s.webEvidence)
    (hartifact : s.artifact = none) (hdeep : s.deepResearchArtifact = none) (herror : error.Fits)
    (hsequence : 1 ≤ sequence)
    (hrun : runNode u cfg ext n s = failed s sequence phase error)
    (hedge : ∀ t, edge n t = .node (afterExternalCall t next))
    (hcontract : ∀ t, Failing t → contract (.node .completeFailed) t) :
    Proceeds u cfg ext contract n s := by
  refine ⟨_, _, hrun, fun _ => by simp [hsequence], ?_⟩
  rw [hedge, afterExternalCall, if_pos rfl]
  exact hcontract _ ⟨hreadable, hartifact, hdeep, by simp, by simp [herror]⟩

theorem market_validateRequest (hmarket : input.request.taskType = .marketAnalysis)
    (hs : s = (GraphRun.start input .fresh).state) (hfits : RequestFits u s) :
    Proceeds u cfg ext (MarketContract u cfg input) .validateRequest s := by
  obtain ⟨raw, q, hraw, hq, hagain⟩ := hfits
  obtain ⟨htask, hsymbol, hhorizon⟩ := RequestFields.validated_identity hq
  have hinput : raw = input.request := by
    rw [hs] at hraw
    exact (Option.some.inj hraw).symm
  have hqtask : q.taskType = .marketAnalysis := by rw [htask, hinput, hmarket]
  have hanalysis : (q.analysis u).isSome := by
    simp only [RequestFields.validated, hqtask, Option.isSome_map] at hagain
    exact hagain
  have hrun : runNode u cfg ext .validateRequest s = some ({ s with
      request := some q, taskType := some q.taskType,
      reviewPolicy := some (effectivePolicy cfg s), reviewAction := none, reviewEdits := none,
      reviewComment := none, reviewIteration := 0, terminalStatus := some .running, errors := [] },
      [.taskProgress 10 .requestValidated .active, .notification 11 q.notify]) := by
    simp only [runNode, validateRequest, hraw, hq, Option.bind_eq_bind, Option.bind_some]
    rfl
  refine ⟨_, _, hrun, fun _ => by simp, ?_⟩
  subst hs
  simp only [edge, afterRequestValidation, hqtask]
  exact ⟨⟨⟨List.forall_mem_nil _, rfl⟩, ⟨q, rfl, hanalysis⟩, rfl⟩, rfl, rfl⟩

theorem market_collectMarketSnapshot
    (hs : MarketContract u cfg input (.node .collectMarketSnapshot) s) (hfits : MarketFits ext) :
    Proceeds u cfg ext (MarketContract u cfg input) .collectMarketSnapshot s := by
  obtain ⟨hsound, hartifact, hrunning⟩ := hs
  obtain ⟨raw, hraw, hvalid⟩ := hsound.request
  obtain ⟨q, hq⟩ := Option.isSome_iff_exists.mp hvalid
  have hnext (t : AnalysisState) (hstatus : t.terminalStatus = some .running)
      (ht : MarketContract u cfg input (.node .researchEvents) t) :
      MarketContract u cfg input (edge .collectMarketSnapshot t) t := by
    rw [edge, afterExternalCall, if_neg (by rw [hstatus]; decide)]
    exact ht
  unfold MarketFits at hfits
  cases hm : ext.market with
  | ok provided =>
      simp only [hm] at hfits
      obtain ⟨snapshot, hsnapshot⟩ := Option.isSome_iff_exists.mp hfits
      have hrun : runNode u cfg ext .collectMarketSnapshot s =
          some ({ s with marketSnapshot := some snapshot },
            [.taskProgress 20 .marketCollected .complete]) := by
        simp only [runNode, collectMarketSnapshot, hraw, hq, hm, hsnapshot, Option.bind_eq_bind,
          Option.bind_some]
        rfl
      exact ⟨_, _, hrun, fun _ => by simp, hnext _ hrunning
        ⟨⟨⟨hsound.readable, hsound.errors⟩, hsound.request, hsound.noDeepResearch⟩, hartifact,
          hrunning⟩⟩
  | error primary =>
      simp only [hm] at hfits
      have hfailed (error : GraphError) (herror : error.Fits)
          (hrun : runNode u cfg ext .collectMarketSnapshot s =
            failed s 20 .marketCollection error) :
          Proceeds u cfg ext (MarketContract u cfg input) .collectMarketSnapshot s :=
        contract_failed .researchEvents hsound.readable hartifact
          hsound.noDeepResearch herror (by omega) hrun (fun _ => rfl) (fun _ h => h)
      cases hf : fallbackFor ext primary with
      | none =>
          simp only [hf] at hfits
          refine hfailed _ (marketProviderFailure_fits hfits.1 hfits.2.1 hfits.2.2) ?_
          simp only [runNode, collectMarketSnapshot, hraw, hq, hm, hf, Option.bind_eq_bind,
            Option.bind_some]
      | some result =>
          cases result with
          | error e =>
              simp only [hf] at hfits
              refine hfailed _ (fallbackFailure_fits (provider_of_fallbackFor hf) hfits.1
                hfits.2.1 hfits.2.2.1 hfits.2.2.2) ?_
              simp only [runNode, collectMarketSnapshot, hraw, hq, hm, hf, Option.bind_eq_bind,
                Option.bind_some]
          | ok result =>
              simp only [hf] at hfits
              have hrun : runNode u cfg ext .collectMarketSnapshot s = some ({ s with
                  marketSnapshot := some result.snapshot, webEvidence := result.evidence,
                  modelAudits := [result.modelAudit] },
                  [.taskProgress 20 .marketCollected .complete]) := by
                simp only [runNode, collectMarketSnapshot, hraw, hq, hm, hf, Option.bind_eq_bind,
                  Option.bind_some]
                rfl
              exact ⟨_, _, hrun, fun _ => by simp, hnext _ hrunning
                ⟨⟨⟨hfits, hsound.errors⟩, hsound.request, hsound.noDeepResearch⟩, hartifact,
                  hrunning⟩⟩

theorem market_researchEvents
    (hs : MarketContract u cfg input (.node .researchEvents) s)
    (hfits : ResearchFits cfg ext s) :
    Proceeds u cfg ext (MarketContract u cfg input) .researchEvents s := by
  obtain ⟨hsound, hartifact, hrunning⟩ := hs
  obtain ⟨raw, hraw, hvalid⟩ := hsound.request
  obtain ⟨q, hq⟩ := Option.isSome_iff_exists.mp hvalid
  unfold ResearchFits at hfits
  cases hr : ext.research with
  | error e =>
      simp only [hr] at hfits
      have hrun : runNode u cfg ext .researchEvents s =
          failed s 30 .researchCollection (researchFailure e) := by
        simp only [runNode, researchEvents, hraw, hq, hr, Option.bind_eq_bind, Option.bind_some]
      exact contract_failed .analyzeMarket hsound.readable hartifact hsound.noDeepResearch
        (researchFailure_fits hfits.1 hfits.2.1 hfits.2.2) (by omega) hrun (fun _ => rfl)
        (fun _ h => h)
  | ok result =>
      simp only [hr] at hfits
      obtain ⟨merged, hmerged, hreadable⟩ := mergeWebEvidence_readable hsound.readable hfits.1
      have hcount : cfg.hasIdentity = true → (effectiveWebEvidence merged).length ≤ 1000 :=
        fun hidentity => hfits.2 hidentity merged hmerged
      have hrun : runNode u cfg ext .researchEvents s = some ({ s with
          researchBundle := some result.bundle, webEvidence := merged,
          modelAudits := s.modelAudits ++ result.modelAudit.toList },
          [.taskProgress 30 .researchCollected .complete,
            .evidence 31 .collected (effectiveWebEvidence merged).length none]) := by
        simp only [runNode, researchEvents, hraw, hq, hr, hmerged, Option.bind_eq_bind,
          Option.bind_some]
        rfl
      refine ⟨_, _, hrun, fun hidentity => ?_, ?_⟩
      · simp [hcount hidentity]
      · simp only [edge, afterExternalCall, hrunning]
        exact ⟨⟨⟨hreadable, hsound.errors⟩, ⟨raw, hraw, hvalid⟩, hsound.noDeepResearch⟩,
          hartifact, rfl, hcount⟩

theorem market_analyzeMarket {market : MarketSnapshot} {research : ResearchBundle}
    (hg : Researched cfg ext input s market research)
    (hs : MarketContract u cfg input (.node .analyzeMarket) s) (hfits : AnalysisFits cfg ext s) :
    Proceeds u cfg ext (MarketContract u cfg input) .analyzeMarket s := by
  obtain ⟨hsound, hartifact, hrunning, hcount⟩ := hs
  obtain ⟨raw, hraw, hvalid⟩ := hsound.request
  obtain ⟨q, hq⟩ := Option.isSome_iff_exists.mp hvalid
  obtain ⟨-, hsymbol, hhorizon⟩ := RequestFields.analysis_identity hq
  have hfailed (error : GraphError) (herror : error.Fits)
      (hrun : runNode u cfg ext .analyzeMarket s = failed s 40 .analysis error) :
      Proceeds u cfg ext (MarketContract u cfg input) .analyzeMarket s :=
    contract_failed .validateEvidence hsound.readable hartifact hsound.noDeepResearch herror
      (by omega) hrun (fun _ => rfl) (fun _ h => h)
  unfold AnalysisFits at hfits
  cases ha : ext.analysis with
  | error e =>
      simp only [ha] at hfits
      refine hfailed _ (analysisError_fits hfits) ?_
      simp only [runNode, analyzeMarket, hraw, hg.snapshot, hg.bundle, ha, Option.bind_eq_bind,
        Option.bind_some]
  | ok result =>
      obtain ⟨analysis, audit⟩ := result
      simp only [ha] at hfits
      by_cases hinstrument : analysis.instrument = q.symbol
      · have hlimits := hfits raw hraw (hinstrument.trans hsymbol)
        by_cases hsame : analysis.horizon.val = q.horizon.val
        · rw [if_pos (hsame.trans hhorizon)] at hlimits
          have hrun : runNode u cfg ext .analyzeMarket s = some ({ s with
              modelAudits := s.modelAudits ++ [audit], analysis := some { analysis with
                unavailableData := deriveUnavailableData market research
                  (effectiveWebEvidence s.webEvidence).length } },
              [.taskProgress 40 .analysisCompleted .complete,
                usageEvent 41 (s.modelAudits ++ [audit])]) := by
            simp only [runNode, analyzeMarket, hraw, hg.snapshot, hg.bundle, ha, hq,
              Option.bind_eq_bind, Option.bind_some]
            rw [if_neg (not_not.mpr hinstrument), if_neg (not_not.mpr hsame)]
            rfl
          refine ⟨_, _, hrun, fun hidentity => ?_, ?_⟩
          · simp [isValid_usageEvent (n := 41) (by omega) (hlimits hidentity)]
          · simp only [edge, afterExternalCall, hrunning]
            exact ⟨⟨⟨hsound.readable, hsound.errors⟩, ⟨raw, hraw, hvalid⟩,
              hsound.noDeepResearch⟩, hcount⟩
        · rw [if_neg fun h => hsame (h.trans hhorizon.symm)] at hlimits
          refine hfailed (outputMismatch "horizon" q.horizon.val analysis.horizon.val)
            (outputMismatch_fits (by decide) (by rw [hhorizon]; exact hlimits.1) hlimits.2) ?_
          simp only [runNode, analyzeMarket, hraw, hg.snapshot, hg.bundle, ha, hq,
            Option.bind_eq_bind, Option.bind_some]
          rw [if_neg (not_not.mpr hinstrument), if_pos hsame]
      · refine hfailed (outputMismatch "instrument" q.symbol.name analysis.instrument.name)
          (outputMismatch_fits (by decide) (symbolName_fits _) (symbolName_fits _)) ?_
        simp only [runNode, analyzeMarket, hraw, hg.snapshot, hg.bundle, ha, hq,
          Option.bind_eq_bind, Option.bind_some]
        rw [if_pos hinstrument]

theorem market_validateEvidence {m : Assessment} (hg : Analysed cfg ext input s m)
    (hs : MarketContract u cfg input (.node .validateEvidence) s) :
    Proceeds u cfg ext (MarketContract u cfg input) .validateEvidence s := by
  obtain ⟨hsound, hcount⟩ := hs
  have hrun : runNode u cfg ext .validateEvidence s = some ({ s with
      evidenceVerdict := some m.evidence },
      [.taskProgress (50 + s.reviewIteration * 100) .evidenceValidated
        (if m.evidence.sufficient then .complete else .blocked),
      .evidence (51 + s.reviewIteration * 100) .validated
        (effectiveWebEvidence s.webEvidence).length (some m.evidence.sufficient)]) := by
    simp only [runNode, validateEvidence, hg.snapshot, hg.bundle, hg.analysis,
      Option.bind_eq_bind, Option.bind_some]
    rfl
  refine ⟨_, _, hrun, fun hidentity => ?_, ?_⟩
  · simp [hcount hidentity]
    omega
  · exact ⟨⟨⟨hsound.readable, hsound.errors⟩, hsound.request, hsound.noDeepResearch⟩, hcount⟩

theorem market_applyRisk {m : Assessment} (hg : EvidenceChecked cfg ext input s m)
    (hs : MarketContract u cfg input (.node .applyRiskPolicy) s) :
    Proceeds u cfg ext (MarketContract u cfg input) .applyRiskPolicy s := by
  obtain ⟨hsound, hcount⟩ := hs
  have hrun : runNode u cfg ext .applyRiskPolicy s = some ({ s with
      riskVerdict := some m.risk,
      terminalStatus := some (if m.risk.allowed then .running else .blocked) },
      [.taskProgress (60 + s.reviewIteration * 100) .riskValidated
        (if m.risk.allowed then .complete else .blocked),
      .quality (61 + s.reviewIteration * 100) m.evidence.sufficient m.risk.allowed
        m.risk.warnings.length m.risk.blockedReasons.length]) := by
    simp only [runNode, applyRisk, hg.analysis, hg.evidence, Option.bind_eq_bind,
      Option.bind_some]
    rfl
  have hwarnings : m.risk.warnings.length ≤ 3 :=
    checkEvidenceSufficiency_warnings m.snapshot m.bundle m.analysis.mainAction
  have hreasons : m.risk.blockedReasons.length ≤ 10 := blockedReasons_length _ _ _
  refine ⟨_, _, hrun, fun _ => ?_, ?_⟩
  · simp
    omega
  · exact ⟨⟨⟨hsound.readable, hsound.errors⟩, hsound.request, hsound.noDeepResearch⟩, hcount⟩

theorem market_buildArtifact {m : Assessment} (hg : RiskChecked cfg ext input s m)
    (hs : MarketContract u cfg input (.node .buildArtifact) s) (hfits : ProvenanceFits u cfg s) :
    Proceeds u cfg ext (MarketContract u cfg input) .buildArtifact s := by
  obtain ⟨hsound, hcount⟩ := hs
  obtain ⟨provenance, hprovenance⟩ :=
    Option.isSome_iff_exists.mp (artifactProvenance_isSome hg.snapshot hfits)
  have hrun : runNode u cfg ext .buildArtifact s = some ({ s with
      artifact := some {
        schemaVersion := "1.0", contentVersion := ⟨1, le_refl 1⟩, status := .draft,
        analysis := m.analysis, evidenceVerdict := m.evidence, riskVerdict := m.risk,
        sourceReferences := (effectiveWebEvidence s.webEvidence).map (·.finalUrl.text),
        provenance := some provenance } },
      [.taskProgress (70 + s.reviewIteration * 100) .artifactBuilt .complete,
        .artifact (71 + s.reviewIteration * 100) false 1]) := by
    simp only [runNode, buildArtifact, hg.snapshot, hg.analysis, hg.evidence, hg.risk,
      hprovenance, Option.bind_eq_bind, Option.bind_some]
    rfl
  refine ⟨_, _, hrun, fun _ => ?_, ?_⟩
  · simp
    omega
  · exact ⟨⟨⟨hsound.readable, hsound.errors⟩, hsound.request, hsound.noDeepResearch⟩, hcount⟩

theorem market_reviewPolicy {m : Assessment} {draft : Artifact}
    (hg : Built cfg ext input s m draft)
    (hs : MarketContract u cfg input (.node .reviewPolicy) s) :
    Proceeds u cfg ext (MarketContract u cfg input) .reviewPolicy s := by
  refine ⟨_, _, rfl, fun _ => ?_, ?_⟩
  · intro e he
    rw [List.mem_singleton.mp he]
    split <;> simp <;> omega
  · by_cases hrequired : s.reviewPolicy = some .required
    · simp only [edge, afterReviewPolicy, if_pos hrequired]
      exact hs
    · by_cases hblocked : s.terminalStatus = some .blocked
      · simp only [edge, afterReviewPolicy, if_neg hrequired, if_pos hblocked]
        refine ⟨hs.1, draft, hg.artifact, hg.isDraft, .inr ?_⟩
        exact hg.refused hblocked
      · simp only [edge, afterReviewPolicy, if_neg hrequired, if_neg hblocked]
        exact hs

theorem market_applyEdits {m : Assessment} (hg : Analysed cfg ext input s m)
    (hs : MarketContract u cfg input (.node .applyEdits) s) (hfits : EditFits s) :
    Proceeds u cfg ext (MarketContract u cfg input) .applyEdits s := by
  obtain ⟨hsound, hcount, e, he⟩ := hs
  obtain ⟨edited, hedited⟩ :=
    Option.isSome_iff_exists.mp ((hfits e he).apply_isSome m.analysis)
  have hmarket := not_deepResearch hg.toRequested
  have hrun : runNode u cfg ext .applyEdits s = some ({ s with analysis := some edited },
      [.taskProgress (82 + (s.reviewIteration - 1) * 100) .reviewEditsApplied .complete]) := by
    simp only [runNode, applyEdits, if_neg hmarket, he, hg.analysis, hedited,
      Option.bind_eq_bind, Option.bind_some]
    rfl
  refine ⟨_, _, hrun, fun _ => ?_, ?_⟩
  · simp
    omega
  · simp only [edge, afterEdits, if_neg hmarket]
    exact ⟨⟨⟨hsound.readable, hsound.errors⟩, hsound.request, hsound.noDeepResearch⟩, hcount⟩

theorem market_commitArtifact {m : Assessment} {draft : Artifact}
    (hg : Built cfg ext input s m draft)
    (hs : MarketContract u cfg input (.node .commitArtifact) s) :
    Proceeds u cfg ext (MarketContract u cfg input) .commitArtifact s := by
  obtain ⟨hsound, -⟩ := hs
  have hrun : runNode u cfg ext .commitArtifact s = some ({ s with
      artifact := some { draft with status := .committed } },
      [.taskProgress (90 + s.reviewIteration * 100) .artifactCommitted .complete,
        .artifact (91 + s.reviewIteration * 100) true draft.contentVersion.val]) := by
    simp only [runNode, commitArtifact, if_neg (not_deepResearch hg.toRequested), hg.artifact,
      Option.bind_eq_bind, Option.bind_some]
    rfl
  have hversion : 1 ≤ draft.contentVersion.val := draft.contentVersion.property
  refine ⟨_, _, hrun, fun _ => ?_, ?_⟩
  · simp [hversion]
    omega
  · exact ⟨⟨hsound.readable, hsound.errors⟩, hsound.request, hsound.noDeepResearch⟩

theorem validOutput_of_contract (status : OutputStatus)
    (hstatus : s.terminalStatus.bind TerminalStatus.output = some status)
    (hevidence : Readable s.webEvidence) (herrors : ∀ e ∈ s.errors, e.Fits)
    (hcontract : TerminalContract status s.artifact s.deepResearchArtifact s.errors.length) :
    ValidOutput s := by
  obtain ⟨output, houtput, hsame⟩ :=
    TerminalGraphOutput.validate_of_contract hstatus hevidence herrors hcontract
  exact ⟨output, houtput, by rw [hsame]; exact hstatus⟩

theorem Sound.errors_fit (hs : Sound s) : ∀ e ∈ s.errors, e.Fits := by
  rw [hs.errors]
  exact fun e he => absurd he List.not_mem_nil

theorem market_complete {r : GraphRun} {m : Assessment} {draft : Artifact}
    (hg : Released cfg ext input r m draft)
    (hs : MarketContract u cfg input (.node .complete) r.state) :
    Proceeds u cfg ext (MarketContract u cfg input) .complete r.state := by
  have hrun : runNode u cfg ext .complete r.state = some (
      { r.state with terminalStatus := some .succeeded },
      [.taskProgress (100 + r.state.reviewIteration * 100) .completed .complete]) := rfl
  have hcontract : TerminalContract .succeeded r.state.artifact r.state.deepResearchArtifact
      r.state.errors.length := by
    rw [hg.artifact, hs.noDeepResearch]
    simp [TerminalContract]
  refine ⟨_, _, hrun, fun _ => ?_, ?_⟩
  · simp
    omega
  · exact validOutput_of_contract .succeeded rfl hs.readable hs.errors_fit hcontract

theorem market_completeBlocked (hg : Requested cfg input s)
    (hs : MarketContract u cfg input (.node .completeBlocked) s) :
    Proceeds u cfg ext (MarketContract u cfg input) .completeBlocked s := by
  obtain ⟨hsound, draft, hartifact, hdraft, hrefused⟩ := hs
  by_cases hreject : s.reviewAction = some .reject
  · have hrun : runNode u cfg ext .completeBlocked s = some ({ s with
        terminalStatus := some .blocked, artifact := some { draft with
          status := .draft, riskVerdict := draft.riskVerdict.reject } },
        [.taskProgress (100 + s.reviewIteration * 100) .completedRejected .blocked]) := by
      simp only [runNode, completeBlocked, hg.taskType, hartifact, if_pos hreject]
    have hcontract : TerminalContract .blocked (some { draft with
        status := .draft, riskVerdict := draft.riskVerdict.reject }) s.deepResearchArtifact
        s.errors.length := by
      rw [hsound.noDeepResearch]
      simp [TerminalContract, RiskVerdict.reject]
    refine ⟨_, _, hrun, fun _ => ?_, ?_⟩
    · simp
      omega
    · exact validOutput_of_contract .blocked rfl hsound.readable
        hsound.errors_fit hcontract
  · have hrun : runNode u cfg ext .completeBlocked s = some ({ s with
        terminalStatus := some .blocked },
        [.taskProgress (100 + s.reviewIteration * 100) .completedBlocked .blocked]) := by
      simp only [runNode, completeBlocked, hg.taskType, hartifact, if_neg hreject]
    have hcontract : TerminalContract .blocked s.artifact s.deepResearchArtifact
        s.errors.length := by
      rw [hsound.noDeepResearch, hartifact]
      simp [TerminalContract, hdraft, hrefused.resolve_left hreject]
    refine ⟨_, _, hrun, fun _ => ?_, ?_⟩
    · simp
      omega
    · exact validOutput_of_contract .blocked rfl hsound.readable
        hsound.errors_fit hcontract

theorem completeFailed_proceeds {contract : Position → AnalysisState → Prop} (hs : Failing s)
    (hended : ∀ t, ValidOutput t → contract .ended t) :
    Proceeds u cfg ext contract .completeFailed s := by
  have hrun : runNode u cfg ext .completeFailed s = some (
      { s with terminalStatus := some .failed },
      [.taskProgress (100 + s.reviewIteration * 100) .completedFailed .failed]) := rfl
  have hcontract : TerminalContract .failed s.artifact s.deepResearchArtifact
      s.errors.length := by
    refine ⟨hs.noArtifact, hs.noDeepResearch, ?_⟩
    rw [Ne, List.length_eq_zero_iff]
    exact hs.errors.1
  refine ⟨_, _, hrun, fun _ => ?_, hended _ ?_⟩
  · simp
    omega
  · exact validOutput_of_contract .failed rfl hs.readable hs.errors.2 hcontract

theorem market_pause {m : Assessment} {draft : Artifact} (hg : Built cfg ext input s m draft) :
    ∃ payload, reviewPayload u s = some payload := by
  simp only [reviewPayload, if_neg (not_deepResearch hg.toRequested), hg.artifact,
    Option.bind_eq_bind, Option.bind_some, dif_pos hg.isDraft]
  exact ⟨_, rfl⟩

theorem market_respond {m : Assessment} {p : ArtifactReviewPayload} {response : ReviewResponse}
    (hg : Built cfg ext input s m p.artifact) (hs : MarketSound u s ∧ Counted cfg s)
    (hvalid : validateReviewResponseForPayload (.artifact p) response = true) :
    MarketContract u cfg input (edge .interruptReview (resumeReview response s).1)
      (resumeReview response s).1 := by
  obtain ⟨hsound, hcount⟩ := hs
  have hsound' : MarketSound u (resumeReview response s).1 :=
    ⟨⟨hsound.readable, hsound.errors⟩, hsound.request, hsound.noDeepResearch⟩
  have haction : (resumeReview response s).1.reviewAction = some response.action := rfl
  simp only [edge, afterReview, haction]
  cases hresponse : response.action with
  | approve =>
      simp only
      by_cases hblocked : (resumeReview response s).1.terminalStatus = some .blocked
      · rw [if_pos hblocked]
        exact ⟨hsound', p.artifact, hg.artifact, hg.isDraft, .inr (hg.refused hblocked)⟩
      · rw [if_neg hblocked]
        exact ⟨hsound', hcount⟩
  | reject => exact ⟨hsound', p.artifact, hg.artifact, hg.isDraft, .inl (by rw [haction, hresponse])⟩
  | edit =>
      refine ⟨hsound', hcount, ?_⟩
      obtain ⟨edits, hedits⟩ := Option.isSome_iff_exists.mp (response.edits_iff.mp hresponse)
      cases edits with
      | artifact e => exact ⟨e, hedits⟩
      | deepResearch report =>
          simp [validateReviewResponseForPayload, hedits] at hvalid

end Market

section DeepResearch

variable {u : Text.UnicodeData} {cfg : GraphConfig} {ext : Externals} {input : RunInput}
  {s : AnalysisState}

variable (u) in
structure DeepSound (s : AnalysisState) : Prop extends Sound s where
  request : ∃ raw, s.request = some raw ∧ (raw.deepResearch u).isSome
  taskType : s.taskType = some .deepResearch
  noArtifact : s.artifact = none

/-- A deep research draft that may be reviewed. -/
def Drafted (s : AnalysisState) : Prop :=
  ∃ a, s.deepResearchArtifact = some a ∧ a.val.committed = false

variable (u input) in
/-- What holds at each position of a deep research run. -/
def DeepContract (p : Position) (s : AnalysisState) : Prop :=
  match p with
  | .node .validateRequest => s = (GraphRun.start input .fresh).state
  | .node .runDeepResearch =>
      DeepSound u s ∧ s.deepResearchArtifact = none ∧ s.terminalStatus = some .running
  | .node .reviewPolicy | .node .interruptReview | .node .commitArtifact =>
      DeepSound u s ∧ Drafted s ∧ s.terminalStatus = some .running
  | .paused payload =>
      DeepSound u s ∧ s.terminalStatus = some .running ∧
        ∃ p, payload = .deepResearch p ∧ s.deepResearchArtifact = some p.artifact
  | .node .applyEdits =>
      DeepSound u s ∧ s.terminalStatus = some .running ∧
        ∃ a report, s.deepResearchArtifact = some a ∧
          s.reviewEdits = some (.deepResearch report) ∧
          (DeepResearchArtifact.of? { a.val with report }).isSome
  | .node .complete =>
      DeepSound u s ∧ ∃ a, s.deepResearchArtifact = some a ∧ a.val.committed = true
  | .node .completeBlocked => DeepSound u s ∧ Drafted s
  | .node .completeFailed => Failing s
  | .ended => ValidOutput s
  | _ => False

/-- Committing or uncommitting an artifact leaves it coherent. -/
theorem of?_committed (a : DeepResearchArtifact ReadUrl) (committed : Bool) :
    DeepResearchArtifact.of? { a.val with committed } =
      some ⟨{ a.val with committed }, a.property⟩ := dif_pos a.property

theorem of?_draft_report {a : DeepResearchArtifact ReadUrl} {report : DeepResearchReport}
    (h : (DeepResearchArtifact.of? { a.val with report }).isSome) :
    ∃ edited, DeepResearchArtifact.of? { a.val with committed := false, report } = some edited ∧
      edited.val.committed = false := by
  unfold DeepResearchArtifact.of? at h ⊢
  by_cases hcoherent : DeepResearchFields.Coherent { a.val with report }
  · have hdraft : DeepResearchFields.Coherent { a.val with committed := false, report } :=
      hcoherent
    rw [dif_pos hdraft]
    exact ⟨_, rfl, rfl⟩
  · rw [dif_neg hcoherent] at h
    cases h

theorem deep_validateRequest (hdeep : input.request.taskType = .deepResearch)
    (hs : s = (GraphRun.start input .fresh).state) (hfits : RequestFits u s) :
    Proceeds u cfg ext (DeepContract u input) .validateRequest s := by
  obtain ⟨raw, q, hraw, hq, hagain⟩ := hfits
  obtain ⟨htask, hsymbol, hhorizon⟩ := RequestFields.validated_identity hq
  have hinput : raw = input.request := by
    rw [hs] at hraw
    exact (Option.some.inj hraw).symm
  have hqtask : q.taskType = .deepResearch := by rw [htask, hinput, hdeep]
  have hresearch : (q.deepResearch u).isSome := by
    simp only [RequestFields.validated, hqtask, Option.isSome_map] at hagain
    exact hagain
  have hrun : runNode u cfg ext .validateRequest s = some ({ s with
      request := some q, taskType := some q.taskType,
      reviewPolicy := some (effectivePolicy cfg s), reviewAction := none, reviewEdits := none,
      reviewComment := none, reviewIteration := 0, terminalStatus := some .running, errors := [] },
      [.taskProgress 10 .requestValidated .active, .notification 11 q.notify]) := by
    simp only [runNode, validateRequest, hraw, hq, Option.bind_eq_bind, Option.bind_some]
    rfl
  refine ⟨_, _, hrun, fun _ => by simp, ?_⟩
  subst hs
  simp only [edge, afterRequestValidation, hqtask]
  exact ⟨⟨⟨List.forall_mem_nil _, rfl⟩, ⟨q, rfl, hresearch⟩, rfl, rfl⟩, rfl, rfl⟩

theorem deep_runDeepResearch (hs : DeepContract u input (.node .runDeepResearch) s)
    (hfits : DeepResearchFits cfg ext) :
    Proceeds u cfg ext (DeepContract u input) .runDeepResearch s := by
  obtain ⟨hsound, hdeep, hrunning⟩ := hs
  obtain ⟨raw, hraw, hvalid⟩ := hsound.request
  obtain ⟨q, hq⟩ := Option.isSome_iff_exists.mp hvalid
  unfold DeepResearchFits at hfits
  cases he : ext.deepResearch with
  | none =>
      have hrun : runNode u cfg ext .runDeepResearch s = failed s 20 .deepResearch
          { code := "deep_research_unavailable", errorType := some "MissingDeepResearchRuntime",
            retryable := false } := by
        simp only [runNode, runDeepResearch, hraw, hq, he, Option.bind_eq_bind, Option.bind_some]
      exact contract_failed .reviewPolicy hsound.readable hsound.noArtifact hdeep
        (typedError_fits (by decide) (by decide)) (by omega) hrun (fun _ => rfl) (fun _ h => h)
  | some result =>
      cases result with
      | error e =>
          simp only [he] at hfits
          have hrun : runNode u cfg ext .runDeepResearch s = some ({ s with
              terminalStatus := some .failed, errors := [deepResearchFailureError cfg e] },
              [.taskProgress 20 .deepResearch .active, .taskProgress 20 .deepResearch .failed]) := by
            simp only [runNode, runDeepResearch, hraw, hq, he, Option.bind_eq_bind,
              Option.bind_some]
            simp only [failed, hraw, Option.map_some]
          have herror := deepResearchFailureError_fits hfits.1 hfits.2.1 hfits.2.2
          refine ⟨_, _, hrun, fun _ => by simp, ?_⟩
          simp only [edge, afterExternalCall, if_true]
          exact ⟨hsound.readable, hsound.noArtifact, hdeep, by simp, by simp [herror]⟩
      | ok result =>
          simp only [he] at hfits
          obtain ⟨artifact, hartifact⟩ := Option.isSome_iff_exists.mp hfits.1
          have hrun : runNode u cfg ext .runDeepResearch s = some ({ s with
              deepResearchArtifact :=
                some ⟨{ artifact.val with committed := false }, artifact.property⟩,
              webEvidence := result.evidence, modelAudits := result.modelAudits },
              [.taskProgress 20 .deepResearch .active,
                .taskProgress 30 .deepResearchDraftReady .complete,
                .evidence 31 .collected result.evidence.length none,
                usageEvent 32 result.modelAudits, .artifact 33 false 1]) := by
            simp only [runNode, runDeepResearch, hraw, hq, he, hartifact, of?_committed,
              Option.bind_eq_bind, Option.bind_some]
            rfl
          refine ⟨_, _, hrun, fun hidentity => ?_, ?_⟩
          · obtain ⟨hcount, husage⟩ := hfits.2.2 hidentity
            have hevent := isValid_usageEvent (n := 32) (by omega) husage
            simp [hcount, hevent]
          · simp only [edge, afterExternalCall, hrunning]
            exact ⟨⟨⟨hfits.2.1, hsound.errors⟩, ⟨raw, hraw, hvalid⟩, hsound.taskType,
              hsound.noArtifact⟩, ⟨_, rfl, rfl⟩, rfl⟩

theorem deep_reviewPolicy (hs : DeepContract u input (.node .reviewPolicy) s) :
    Proceeds u cfg ext (DeepContract u input) .reviewPolicy s := by
  have hnotBlocked : s.terminalStatus ≠ some .blocked := by
    rw [hs.2.2]
    decide
  refine ⟨_, _, rfl, fun _ => ?_, ?_⟩
  · intro e he
    rw [List.mem_singleton.mp he]
    split <;> simp <;> omega
  · simp only [edge, afterReviewPolicy, if_neg hnotBlocked]
    split_ifs
    · exact hs
    · exact hs

theorem deep_pause (hs : DeepContract u input (.node .interruptReview) s)
    (hfits : HorizonFits s) :
    ∃ payload, reviewPayload u s = some payload ∧ DeepContract u input (.paused payload) s := by
  obtain ⟨hsound, ⟨a, ha, hdraft⟩, hrunning⟩ := hs
  obtain ⟨raw, hraw, hvalid⟩ := hsound.request
  obtain ⟨q, hq⟩ := Option.isSome_iff_exists.mp hvalid
  obtain ⟨-, -, hsame⟩ := RequestFields.deepResearch_identity hq
  obtain ⟨horizon, hhorizon⟩ :=
    Option.isSome_iff_exists.mp (hfits hsound.taskType raw hraw)
  rw [← hsame] at hhorizon
  refine ⟨.deepResearch ⟨q.symbol, horizon, ⟨s.reviewIteration + 1, by omega⟩, a, hdraft⟩, ?_,
    hsound, hrunning, _, rfl, ha⟩
  simp only [reviewPayload, if_pos hsound.taskType, hraw, hq, hhorizon, ha, Option.bind_eq_bind,
    Option.bind_some]
  rw [dif_pos hdraft]

theorem deep_respond {payload : ReviewPayload} {response : ReviewResponse}
    (hs : DeepContract u input (.paused payload) s)
    (hvalid : validateReviewResponseForPayload payload response = true) :
    DeepContract u input (edge .interruptReview (resumeReview response s).1)
      (resumeReview response s).1 := by
  obtain ⟨hsound, hrunning, p, rfl, ha⟩ := hs
  have hsound' : DeepSound u (resumeReview response s).1 :=
    ⟨⟨hsound.readable, hsound.errors⟩, hsound.request, hsound.taskType, hsound.noArtifact⟩
  have hnotBlocked : (resumeReview response s).1.terminalStatus ≠ some .blocked := by
    change s.terminalStatus ≠ _
    rw [hrunning]
    decide
  have hdraft : Drafted (resumeReview response s).1 := ⟨p.artifact, ha, p.draft⟩
  have haction : (resumeReview response s).1.reviewAction = some response.action := rfl
  simp only [edge, afterReview, haction]
  cases hresponse : response.action with
  | approve =>
      simp only [if_neg hnotBlocked]
      exact ⟨hsound', hdraft, hrunning⟩
  | reject => exact ⟨hsound', hdraft⟩
  | edit =>
      refine ⟨hsound', hrunning, ?_⟩
      obtain ⟨edits, hedits⟩ := Option.isSome_iff_exists.mp (response.edits_iff.mp hresponse)
      cases edits with
      | artifact e => simp [validateReviewResponseForPayload, hedits] at hvalid
      | deepResearch report =>
          simp only [validateReviewResponseForPayload, hedits, Bool.decide_and, Bool.and_eq_true]
            at hvalid
          exact ⟨p.artifact, report, ha, hedits, of_decide_eq_true hvalid.2⟩

theorem deep_applyEdits (hs : DeepContract u input (.node .applyEdits) s) :
    Proceeds u cfg ext (DeepContract u input) .applyEdits s := by
  obtain ⟨hsound, hrunning, a, report, ha, hedits, hcoherent⟩ := hs
  obtain ⟨edited, hedited, hdraft⟩ := of?_draft_report hcoherent
  have hrun : runNode u cfg ext .applyEdits s = some (
      { s with deepResearchArtifact := some edited },
      [.taskProgress (82 + (s.reviewIteration - 1) * 100) .reviewEditsApplied .complete]) := by
    simp only [runNode, applyEdits, if_pos hsound.taskType, hedits, ha, hedited,
      Option.bind_eq_bind, Option.bind_some]
    rfl
  refine ⟨_, _, hrun, fun _ => ?_, ?_⟩
  · simp
    omega
  · simp only [edge, afterEdits, if_pos hsound.taskType]
    exact ⟨⟨⟨hsound.readable, hsound.errors⟩, hsound.request, hsound.taskType,
      hsound.noArtifact⟩, ⟨edited, rfl, hdraft⟩, hrunning⟩

theorem deep_commitArtifact (hs : DeepContract u input (.node .commitArtifact) s) :
    Proceeds u cfg ext (DeepContract u input) .commitArtifact s := by
  obtain ⟨hsound, ⟨a, ha, hdraft⟩, -⟩ := hs
  have hcommit : commitDeepResearchArtifact a =
      some ⟨{ a.val with committed := true }, a.property⟩ := by
    rw [commitDeepResearchArtifact, hdraft, of?_committed]
    rfl
  have hrun : runNode u cfg ext .commitArtifact s = some ({ s with
      deepResearchArtifact := some ⟨{ a.val with committed := true }, a.property⟩ },
      [.taskProgress (90 + s.reviewIteration * 100) .artifactCommitted .complete,
        .artifact (91 + s.reviewIteration * 100) true 1]) := by
    simp only [runNode, commitArtifact, if_pos hsound.taskType, ha, hcommit,
      Option.bind_eq_bind, Option.bind_some]
    rfl
  refine ⟨_, _, hrun, fun _ => ?_, ?_⟩
  · simp
    omega
  · exact ⟨⟨⟨hsound.readable, hsound.errors⟩, hsound.request, hsound.taskType,
      hsound.noArtifact⟩, _, rfl, rfl⟩

theorem deep_complete (hs : DeepContract u input (.node .complete) s) :
    Proceeds u cfg ext (DeepContract u input) .complete s := by
  obtain ⟨hsound, a, ha, hcommitted⟩ := hs
  have hrun : runNode u cfg ext .complete s = some (
      { s with terminalStatus := some .succeeded },
      [.taskProgress (100 + s.reviewIteration * 100) .completed .complete]) := rfl
  have hcontract : TerminalContract .succeeded s.artifact s.deepResearchArtifact
      s.errors.length := by
    rw [ha, hsound.noArtifact]
    simp [TerminalContract, hcommitted]
  refine ⟨_, _, hrun, fun _ => ?_, ?_⟩
  · simp
    omega
  · exact validOutput_of_contract .succeeded rfl hsound.readable hsound.errors_fit hcontract

theorem deep_completeBlocked (hs : DeepContract u input (.node .completeBlocked) s) :
    Proceeds u cfg ext (DeepContract u input) .completeBlocked s := by
  obtain ⟨hsound, a, ha, -⟩ := hs
  have hrun : runNode u cfg ext .completeBlocked s = some ({ s with
      terminalStatus := some .blocked,
      deepResearchArtifact := some ⟨{ a.val with committed := false }, a.property⟩ },
      [.taskProgress (100 + s.reviewIteration * 100)
        (if s.reviewAction = some .reject then .completedRejected else .completedBlocked)
        .blocked]) := by
    simp only [runNode, completeBlocked, hsound.taskType, ha, of?_committed, Option.bind_eq_bind,
      Option.bind_some]
    rfl
  have hcontract : TerminalContract .blocked s.artifact
      (some ⟨{ a.val with committed := false }, a.property⟩) s.errors.length := by
    rw [hsound.noArtifact]
    simp [TerminalContract]
  refine ⟨_, _, hrun, fun _ => ?_, ?_⟩
  · simp
    omega
  · exact validOutput_of_contract .blocked rfl hsound.readable hsound.errors_fit hcontract

end DeepResearch

section Runs

variable {u : Text.UnicodeData} {cfg : GraphConfig} {ext : Externals} {input : RunInput}
  {r r' : GraphRun}

/-- A contract is kept by a step whose node proceeds, whose pause has a payload to show and
whose response is handled. -/
theorem contract_step {contract : Position → AnalysisState → Prop} {l : GraphLabel}
    (hnode : ∀ n, r.position = .node n → n ≠ .interruptReview → NodeFits u cfg ext n r.state →
      Proceeds u cfg ext contract n r.state)
    (hpause : r.position = .node .interruptReview → HorizonFits r.state →
      ∃ payload, reviewPayload u r.state = some payload ∧ contract (.paused payload) r.state)
    (hrespond : ∀ payload response, r.position = .paused payload →
      validateReviewResponseForPayload payload response = true →
      contract (edge .interruptReview (resumeReview response r.state).1)
        (resumeReview response r.state).1)
    (hfits : StepFits u cfg ext r l) (h : r.step u cfg ext l = some r') :
    contract r'.position r'.state := by
  cases l with
  | advance =>
      cases hp : r.position with
      | node n =>
          simp only [StepFits, hp] at hfits
          by_cases hn : n = .interruptReview
          · subst hn
            obtain ⟨payload, hpayload, hcontract⟩ := hpause hp hfits
            simp only [GraphRun.step, GraphRun.advance, hp, GraphRun.pause, hpayload,
              Option.some.injEq] at h
            rw [← h]
            exact hcontract
          · obtain ⟨s, events, hrun, hvalid, hcontract⟩ := hnode n hp hn hfits
            obtain ⟨emitted, hadvance⟩ := advance_of_runNode hp hrun hvalid
            have hr' : ⟨edge n s, s, r.events ++ emitted, r.reviews⟩ = r' :=
              Option.some.inj (hadvance.symm.trans h)
            rw [← hr']
            exact hcontract
      | paused | ended | raised => simp [GraphRun.step, GraphRun.advance, hp] at h
  | respond response =>
      cases hp : r.position with
      | paused payload =>
          simp only [StepFits, hp] at hfits
          simp only [GraphRun.step, GraphRun.respond, hp, if_pos hfits, Option.some.injEq] at h
          have hvalid : cfg.hasIdentity = true →
              ∀ e ∈ (resumeReview response r.state).2, e.isValid = true := by
            intro _ e he
            rw [List.mem_singleton.mp he]
            simp
            omega
          obtain ⟨emitted, hemit⟩ := Option.isSome_iff_exists.mp (emit_isSome hvalid)
          simp only [GraphRun.finish, hemit] at h
          rw [← h]
          exact hrespond payload response hp hfits
      | node | ended | raised => simp [GraphRun.step, GraphRun.respond, hp] at h

theorem market_step (hmarket : input.request.taskType = .marketAnalysis) {l : GraphLabel}
    (hfits : StepFits u cfg ext r l) (hg : Gate cfg ext input r)
    (hc : MarketContract u cfg input r.position r.state) (h : r.step u cfg ext l = some r') :
    MarketContract u cfg input r'.position r'.state := by
  refine contract_step (fun n hp hn hnode => ?_) (fun hp _ => ?_)
    (fun payload response hp hvalid => ?_) hfits h
  · rw [hp] at hc
    simp only [Gate, hp] at hg
    cases n with
    | validateRequest => exact market_validateRequest hmarket hc hnode
    | runDeepResearch => exact hg.elim
    | collectMarketSnapshot => exact market_collectMarketSnapshot hc hnode
    | researchEvents => exact market_researchEvents hc hnode
    | analyzeMarket =>
        obtain ⟨⟨market, research, hs⟩, -⟩ := hg
        exact market_analyzeMarket hs hc hnode
    | validateEvidence =>
        obtain ⟨⟨m, hs⟩, -⟩ := hg
        exact market_validateEvidence hs hc
    | applyRiskPolicy =>
        obtain ⟨⟨m, hs⟩, -⟩ := hg
        exact market_applyRisk hs hc
    | buildArtifact =>
        obtain ⟨⟨m, hs⟩, -⟩ := hg
        exact market_buildArtifact hs hc hnode
    | reviewPolicy =>
        obtain ⟨⟨m, draft, hs⟩, -⟩ := hg
        exact market_reviewPolicy hs hc
    | interruptReview => exact absurd rfl hn
    | applyEdits =>
        obtain ⟨⟨m, hs⟩, -⟩ := hg
        exact market_applyEdits hs hc hnode
    | commitArtifact =>
        obtain ⟨⟨m, draft, hs, -⟩, -⟩ := hg
        exact market_commitArtifact hs hc
    | complete =>
        obtain ⟨⟨m, draft, hs⟩, -⟩ := hg
        exact market_complete hs hc
    | completeBlocked => exact market_completeBlocked hg.1 hc
    | completeFailed => exact completeFailed_proceeds hc (fun _ h => h)
  · rw [hp] at hc
    simp only [Gate, hp] at hg
    obtain ⟨⟨m, draft, hs⟩, -⟩ := hg
    obtain ⟨payload, hpayload⟩ := market_pause (u := u) hs
    exact ⟨payload, hpayload, hc⟩
  · rw [hp] at hc
    simp only [Gate, hp] at hg
    obtain ⟨⟨m, p, rfl, hs⟩, -⟩ := hg
    exact market_respond hs hc hvalid

theorem deep_step (hdeep : input.request.taskType = .deepResearch) {l : GraphLabel}
    (hfits : StepFits u cfg ext r l) (hc : DeepContract u input r.position r.state)
    (h : r.step u cfg ext l = some r') : DeepContract u input r'.position r'.state := by
  refine contract_step (fun n hp hn hnode => ?_) (fun hp hhorizon => ?_)
    (fun payload response hp hvalid => ?_) hfits h
  · rw [hp] at hc
    cases n with
    | validateRequest => exact deep_validateRequest hdeep hc hnode
    | runDeepResearch => exact deep_runDeepResearch hc hnode
    | reviewPolicy => exact deep_reviewPolicy hc
    | interruptReview => exact absurd rfl hn
    | applyEdits => exact deep_applyEdits hc
    | commitArtifact => exact deep_commitArtifact hc
    | complete => exact deep_complete hc
    | completeBlocked => exact deep_completeBlocked hc
    | completeFailed => exact completeFailed_proceeds hc (fun _ h => h)
    | collectMarketSnapshot | researchEvents | analyzeMarket | validateEvidence
    | applyRiskPolicy | buildArtifact => exact hc.elim
  · rw [hp] at hc
    exact deep_pause hc hhorizon
  · rw [hp] at hc
    exact deep_respond hc hvalid

/-- From a fresh thread, a run whose steps keep within the limits never raises; driven on, it
pauses or ends, and where it ends its state validates with the status that it carries. -/
theorem terminal_contract
    (h : Reaches (GraphRun.step u cfg ext) (StepFits u cfg ext) (GraphRun.start input .fresh) r) :
    r.position ≠ .raised ∧
    (∀ n, r.position = .node n →
      ∃ r', r.advance u cfg ext = some r' ∧ r'.position.rank < r.position.rank) ∧
    (r.position = .ended → ∃ output, TerminalGraphOutput.validate r.state = some output ∧
      r.state.terminalStatus.bind TerminalStatus.output = some output.terminalStatus) := by
  have hprogress (n : Node) (hp : r.position = .node n) :
      ∃ r', r.advance u cfg ext = some r' ∧ r'.position.rank < r.position.rank := by
    have hsome : (r.advance u cfg ext).isSome := by
      unfold GraphRun.advance
      rw [hp]
      cases n <;> rfl
    obtain ⟨r', hr'⟩ := Option.isSome_iff_exists.mp hsome
    exact ⟨r', hr', rank_advance_lt hr'⟩
  cases htask : input.request.taskType with
  | marketAnalysis =>
      have hcontract : MarketContract u cfg input r.position r.state := by
        refine h.invariant_of (I := Gate cfg ext input)
          (fun _ _ _ _ hg hstep => gate_step htask hg hstep)
          (fun _ _ _ hfits hg hc hstep => market_step htask hfits hg hc hstep) ?_ rfl
        exact gate_of_reaches (u := u) htask .refl
      refine ⟨fun hp => ?_, hprogress, fun hp => ?_⟩
      · rw [hp] at hcontract
        exact hcontract
      · rw [hp] at hcontract
        exact hcontract
  | deepResearch =>
      have hcontract : DeepContract u input r.position r.state := by
        refine h.invariant (I := fun r => DeepContract u input r.position r.state)
          (fun _ _ _ hfits hc hstep => deep_step htask hfits hc hstep) ?_
        exact Eq.refl (GraphRun.start input .fresh).state
      refine ⟨fun hp => ?_, hprogress, fun hp => ?_⟩
      · rw [hp] at hcontract
        exact hcontract
      · rw [hp] at hcontract
        exact hcontract

/-- An outage of the market provider is reported as such. -/
theorem terminal_contract_outage :
    ∃ r output, r.position = .ended ∧
      Reaches (GraphRun.step .ascii quietConfig outageExternals)
        (StepFits .ascii quietConfig outageExternals) (GraphRun.start outageInput .fresh) r ∧
      TerminalGraphOutput.validate r.state = some output := by
  obtain ⟨r₁, r₂, r₃, hfirst, hp₁, hsecond, hp₂, hthird, hended, -⟩ :=
    outage_run .ascii quietConfig .fresh
  obtain ⟨hvalidated, -⟩ := outageInput_validated .ascii
  have hrequest : StepFits .ascii quietConfig outageExternals
      (GraphRun.start outageInput .fresh) .advance :=
    ⟨outageInput.request, outageInput.request, rfl, hvalidated,
      Option.isSome_iff_exists.mpr ⟨_, hvalidated⟩⟩
  have hmarket : MarketFits outageExternals := by
    have hprovider : (NameText.of? 64 outage.provider).isSome := by decide
    have hendpoint : (NameText.of? 128 outage.endpoint).isSome := by decide
    exact ⟨hprovider, hendpoint, by decide⟩
  have hrun : Reaches (GraphRun.step .ascii quietConfig outageExternals)
      (StepFits .ascii quietConfig outageExternals) (GraphRun.start outageInput .fresh) r₃ := by
    refine ((Reaches.refl.tail .advance hrequest hfirst).tail .advance ?_ hsecond).tail .advance
      ?_ hthird
    · simp only [StepFits, hp₁]
      exact hmarket
    · simp only [StepFits, hp₂, NodeFits]
  obtain ⟨output, houtput, -⟩ := (terminal_contract hrun).2.2 hended
  exact ⟨r₃, output, hended, hrun, houtput⟩

/-- A horizon of 129 characters. -/
def longHorizon : NonEmptyText := ⟨exclamations 129, by rw [exclamations_length]; omega⟩

/-- A model that answers for such a horizon makes the run fail, and the error that says so does
not validate. -/
theorem longHorizon_invalid :
    ∃ r, Reaches (GraphRun.step .ascii quietConfig (quietExternals longHorizon)) anyStep
        (GraphRun.start quietInput .fresh) r ∧
      r.position = .ended ∧ r.state.terminalStatus = some .failed ∧
      (TerminalGraphOutput.validate r.state).isNone = true := by
  have hany : (runLabels (GraphRun.step .ascii quietConfig (quietExternals longHorizon))
      (GraphRun.start quietInput .fresh) (List.replicate 5 .advance)).any (fun r =>
        r.position = .ended ∧ r.state.terminalStatus = some .failed ∧
          (TerminalGraphOutput.validate r.state).isNone = true) = true := by
    decide +kernel
  obtain ⟨r, hlabels, hdone⟩ := (Option.any_eq_true _ _).mp hany
  exact ⟨r, reaches_of_runLabels _ hlabels, of_decide_eq_true hdone⟩

end Runs

end CryptoAlert
