import CryptoAlert.Graph.Contract
import CryptoAlert.Lib.Table

/-!
# What an accepted edit does to the analysis

The validation of a response knows the model of edits only. The analysis that results from an edit
is validated by its own model, which refuses nulls of required fields, scores out of range and
blank causes.
-/

namespace CryptoAlert

section Fields

variable {α β : Type}

/-- A field keeps its value unless the edit sets it; then it has the value of the edit. -/
def EditField.Sets (edit : EditField α) (current new : Option α) : Prop :=
  match edit with
  | none => new = current
  | some value => new = value

theorem EditField.Sets.ne_null {edit : EditField α} {current : Option α} {new : α}
    (h : edit.Sets current (some new)) : edit ≠ some none := by
  rintro rfl
  cases h

theorem required_eq_some {edit : EditField α} {current new : α}
    (h : ArtifactEdit.required edit current = some new) :
    edit.Sets (some current) (some new) := by
  cases edit with
  | none => exact h.symm
  | some value => exact h.symm

theorem sets_optional (edit : EditField α) (current : Option α) :
    edit.Sets current (ArtifactEdit.optional edit current) := by
  cases edit with
  | none => rfl
  | some value => rfl

/-- A field that the analysis validates once more holds what the edit says. -/
theorem revalidated_eq_some {edit : EditField α} {validate : α → Option β} {forget : β → α}
    (hvalidate : ∀ a b, validate a = some b → forget b = a) {current new : β}
    (h : ArtifactEdit.revalidated edit validate current = some new) :
    edit.Sets (some (forget current)) (some (forget new)) := by
  cases edit with
  | none =>
      cases h
      rfl
  | some value =>
      obtain ⟨a, ha, hnew⟩ := Option.bind_eq_some_iff.mp h
      change some (forget new) = value
      rw [ha, hvalidate a new hnew]

end Fields

namespace MarketAnalysis

/-- The scores as an edit writes them. -/
def scores (a : MarketAnalysis) : List (String × ℤ) :=
  a.factorScores.map fun score => (score.1, score.2.val)

/-- The causes as an edit writes them. -/
def causes (a : MarketAnalysis) : {causes : List String // 1 ≤ causes.length} :=
  ⟨a.rootCauseChain.val, a.rootCauseChain.property.1⟩

end MarketAnalysis

namespace ArtifactEdit

/-- The analysis `b` is `a` with exactly the fields of the edit replaced. -/
structure Edits (e : ArtifactEdit) (a b : MarketAnalysis) : Prop where
  instrument : b.instrument = a.instrument
  horizon : b.horizon = a.horizon
  regime : e.regime.Sets (some a.regime) (some b.regime)
  factorScores : e.factorScores.Sets (some a.scores) (some b.scores)
  totalScore : e.totalScore.Sets (some a.totalScore) (some b.totalScore)
  mainAction : e.mainAction.Sets (some a.mainAction) (some b.mainAction)
  referencePrice : e.referencePrice.Sets (some a.referencePrice) (some b.referencePrice)
  entryTrigger : e.entryTrigger.Sets a.entryTrigger b.entryTrigger
  stopPrice : e.stopPrice.Sets a.stopPrice b.stopPrice
  target1 : e.target1.Sets a.target1 b.target1
  target2 : e.target2.Sets a.target2 b.target2
  probability : e.probability.Sets (some a.probability) (some b.probability)
  positionSizeClass :
    e.positionSizeClass.Sets (some a.positionSizeClass) (some b.positionSizeClass)
  maxLeverage : e.maxLeverage.Sets (some a.maxLeverage) (some b.maxLeverage)
  riskPct : e.riskPct.Sets (some a.riskPct) (some b.riskPct)
  rootCauseChain : e.rootCauseChain.Sets (some a.causes) (some b.causes)
  whyNotOpposite : e.whyNotOpposite.Sets (some a.whyNotOpposite) (some b.whyNotOpposite)
  invalidation : EditField.Sets (e.invalidation.map (·.map Subtype.val)) (some a.invalidation)
    (some b.invalidation)
  unavailableData : e.unavailableData.Sets (some a.unavailableData) (some b.unavailableData)
  manualExecutionRequired : e.manualExecutionRequired.Sets (some a.manualExecutionRequired)
    (some b.manualExecutionRequired)
  expiresInSeconds : e.expiresInSeconds.Sets (some a.expiresInSeconds) (some b.expiresInSeconds)

variable {e : ArtifactEdit} {a b : MarketAnalysis}

theorem validateScores_eq_some {scores : List (String × ℤ)}
    {validated : List (String × FactorScore)} (h : validateScores scores = some validated) :
    (validated.map fun score => (score.1, score.2.val)) = scores := by
  have hall := mapM_eq_some_iff.mp h
  clear h
  induction hall with
  | nil => rfl
  | @cons score new scores news hnew _ ih =>
      obtain ⟨name, n⟩ := score
      dsimp only at hnew
      split_ifs at hnew
      cases hnew
      rw [List.map_cons, ih]

theorem validateCauses_eq_some {causes : {causes : List String // 1 ≤ causes.length}}
    {chain : RootCauseChain} (h : validateCauses causes = some chain) :
    (⟨chain.val, chain.property.1⟩ : {causes : List String // 1 ≤ causes.length}) = causes := by
  rw [validateCauses] at h
  split_ifs at h
  cases h
  rfl

/-- An edit that is applied sets its fields and no others. -/
theorem edits_of_apply (h : e.apply a = some b) : e.Edits a b := by
  unfold apply at h
  obtain ⟨_, hregime, h⟩ := Option.bind_eq_some_iff.mp h
  obtain ⟨_, hscores, h⟩ := Option.bind_eq_some_iff.mp h
  obtain ⟨_, htotal, h⟩ := Option.bind_eq_some_iff.mp h
  obtain ⟨_, haction, h⟩ := Option.bind_eq_some_iff.mp h
  obtain ⟨_, hreference, h⟩ := Option.bind_eq_some_iff.mp h
  obtain ⟨_, hprobability, h⟩ := Option.bind_eq_some_iff.mp h
  obtain ⟨_, hposition, h⟩ := Option.bind_eq_some_iff.mp h
  obtain ⟨_, hleverage, h⟩ := Option.bind_eq_some_iff.mp h
  obtain ⟨_, hrisk, h⟩ := Option.bind_eq_some_iff.mp h
  obtain ⟨_, hcauses, h⟩ := Option.bind_eq_some_iff.mp h
  obtain ⟨_, hopposite, h⟩ := Option.bind_eq_some_iff.mp h
  obtain ⟨_, hinvalidation, h⟩ := Option.bind_eq_some_iff.mp h
  obtain ⟨_, hunavailable, h⟩ := Option.bind_eq_some_iff.mp h
  obtain ⟨_, hmanual, h⟩ := Option.bind_eq_some_iff.mp h
  obtain ⟨_, hexpires, h⟩ := Option.bind_eq_some_iff.mp h
  cases h
  exact {
    instrument := rfl
    horizon := rfl
    regime := required_eq_some hregime
    factorScores := revalidated_eq_some (fun _ _ => validateScores_eq_some) hscores
    totalScore := required_eq_some htotal
    mainAction := required_eq_some haction
    referencePrice := required_eq_some hreference
    entryTrigger := sets_optional _ _
    stopPrice := sets_optional _ _
    target1 := sets_optional _ _
    target2 := sets_optional _ _
    probability := required_eq_some hprobability
    positionSizeClass := required_eq_some hposition
    maxLeverage := required_eq_some hleverage
    riskPct := required_eq_some hrisk
    rootCauseChain := revalidated_eq_some (fun _ _ => validateCauses_eq_some) hcauses
    whyNotOpposite := required_eq_some hopposite
    invalidation := required_eq_some hinvalidation
    unavailableData := required_eq_some hunavailable
    manualExecutionRequired := required_eq_some hmanual
    expiresInSeconds := required_eq_some hexpires }

/-- Only an edit within the limits of the analysis leads to an analysis. -/
theorem Edits.applies (h : e.Edits a b) : e.Applies where
  regime := h.regime.ne_null
  factorScores v hv := by
    have hset := h.factorScores
    rw [hv] at hset
    refine ⟨b.scores, hset.symm, fun x hx => ?_⟩
    obtain ⟨score, -, rfl⟩ := List.mem_map.mp hx
    exact score.2.property
  totalScore := h.totalScore.ne_null
  mainAction := h.mainAction.ne_null
  referencePrice := h.referencePrice.ne_null
  probability := h.probability.ne_null
  positionSizeClass := h.positionSizeClass.ne_null
  maxLeverage := h.maxLeverage.ne_null
  riskPct := h.riskPct.ne_null
  rootCauseChain v hv := by
    have hset := h.rootCauseChain
    rw [hv] at hset
    exact ⟨b.causes, hset.symm, b.rootCauseChain.property.2⟩
  whyNotOpposite := h.whyNotOpposite.ne_null
  invalidation := by
    intro hnull
    have hset := h.invalidation
    rw [hnull] at hset
    cases hset
  unavailableData := h.unavailableData.ne_null
  manualExecutionRequired := h.manualExecutionRequired.ne_null
  expiresInSeconds := h.expiresInSeconds.ne_null

end ArtifactEdit

/-- For a response that the review of an analysis accepts, the graph applies the edit to the
analysis exactly when the edit stays within the limits of the analysis. -/
theorem applyEdits_edits_iff (u : Text.UnicodeData) (s : AnalysisState)
    (payload : ArtifactReviewPayload) (response : ReviewResponse)
    (hpayload : reviewPayload u s = some (.artifact payload))
    (hanalysis : s.analysis = some payload.artifact.analysis)
    (haccepted : validateReviewResponseForPayload (.artifact payload) response = true)
    (hedit : response.action = .edit) :
    ∃ e, response.edits = some (.artifact e) ∧
      ((∃ s' events b, applyEdits (resumeReview response s).1 = some (s', events) ∧
        s'.analysis = some b ∧ e.val.Edits payload.artifact.analysis b) ↔ e.val.Applies) := by
  have htask : s.taskType ≠ some .deepResearch := by
    intro hdeep
    rw [reviewPayload, if_pos hdeep] at hpayload
    obtain ⟨_, -, hpayload⟩ := Option.bind_eq_some_iff.mp hpayload
    obtain ⟨_, -, hpayload⟩ := Option.bind_eq_some_iff.mp hpayload
    obtain ⟨_, -, hpayload⟩ := Option.bind_eq_some_iff.mp hpayload
    obtain ⟨_, -, hpayload⟩ := Option.bind_eq_some_iff.mp hpayload
    split_ifs at hpayload
    cases hpayload
  have hsome := response.edits_iff.mp hedit
  unfold validateReviewResponseForPayload at haccepted
  cases hedits : response.edits with
  | none => rw [hedits] at hsome; cases hsome
  | some edits =>
      rw [hedits] at haccepted
      cases edits with
      | deepResearch report => cases haccepted
      | artifact e =>
          refine ⟨e, rfl, ?_⟩
          have happly : applyEdits (resumeReview response s).1 =
              (e.val.apply payload.artifact.analysis).map fun b =>
                ({ (resumeReview response s).1 with analysis := some b },
                  [.taskProgress (82 + (s.reviewIteration + 1 - 1) * 100) .reviewEditsApplied
                    .complete]) := by
            have htask' : ¬(resumeReview response s).1.taskType = some .deepResearch := htask
            have hedits' : (resumeReview response s).1.reviewEdits = some (.artifact e) := hedits
            have hanalysis' : (resumeReview response s).1.analysis =
              some payload.artifact.analysis := hanalysis
            simp only [applyEdits, if_neg htask', hedits', hanalysis', Option.bind_eq_bind,
              Option.bind_some]
            cases e.val.apply payload.artifact.analysis with
            | none => rfl
            | some b => rfl
          rw [happly]
          constructor
          · rintro ⟨s', events, b, -, -, hb⟩
            exact hb.applies
          · intro h
            obtain ⟨b, hb⟩ := Option.isSome_iff_exists.mp
              (h.apply_isSome payload.artifact.analysis)
            rw [hb]
            exact ⟨_, _, b, rfl, rfl, ArtifactEdit.edits_of_apply hb⟩

section Examples

/-- A draft that waits for its review. -/
def draftArtifact : Artifact where
  schemaVersion := "1.0"
  contentVersion := ⟨1, one_le_one⟩
  status := .draft
  analysis := quietAnalysis ⟨"4h", horizon_nonempty⟩
  evidenceVerdict := ⟨true, zeroCap, [], [], [], consistent_of_nothing_missing⟩
  riskVerdict := ⟨true, [], [], zeroCap, consistent_of_no_reasons⟩
  sourceReferences := []
  provenance := none

def draftedState : AnalysisState :=
  { AnalysisState.fresh with
    taskType := some .marketAnalysis, analysis := some draftArtifact.analysis,
    artifact := some draftArtifact }

def draftPayload : ArtifactReviewPayload := ⟨⟨1, one_le_one⟩, draftArtifact, rfl⟩

/-- A response that sets the scores. -/
def scoring (scores : List (String × ℤ)) : ReviewResponse where
  action := .edit
  edits := some (.artifact ⟨{ ArtifactEdit.unchanged with factorScores := some (some scores) },
    fun h => by cases congrArg ArtifactEdit.factorScores h⟩)
  comment := none
  edits_iff := ⟨fun _ => rfl, fun _ => rfl⟩

theorem applies_scoring : ({ ArtifactEdit.unchanged with
    factorScores := some (some [("macro", 2)]) } : ArtifactEdit).Applies where
  regime := nofun
  factorScores v hv := by
    cases hv
    exact ⟨_, rfl, by decide⟩
  totalScore := nofun
  mainAction := nofun
  referencePrice := nofun
  probability := nofun
  positionSizeClass := nofun
  maxLeverage := nofun
  riskPct := nofun
  rootCauseChain := nofun
  whyNotOpposite := nofun
  invalidation := nofun
  unavailableData := nofun
  manualExecutionRequired := nofun
  expiresInSeconds := nofun

theorem applyEdits_edits_scoring :
    ∃ s' events b, applyEdits (resumeReview (scoring [("macro", 2)]) draftedState).1 =
      some (s', events) ∧ s'.analysis = some b := by
  obtain ⟨e, he, hiff⟩ := applyEdits_edits_iff .ascii draftedState draftPayload
    (scoring [("macro", 2)]) rfl rfl rfl rfl
  cases he
  obtain ⟨s', events, b, happly, hb, -⟩ := hiff.mpr applies_scoring
  exact ⟨s', events, b, happly, hb⟩

/-- A response with a score that no analysis may have is accepted, and the run ends with it. -/
theorem overscored_edit_accepted :
    ¬∀ (s : AnalysisState) (payload : ArtifactReviewPayload) (response : ReviewResponse),
      reviewPayload .ascii s = some (.artifact payload) →
      s.analysis = some payload.artifact.analysis →
      validateReviewResponseForPayload (.artifact payload) response = true →
      response.action = .edit → (applyEdits (resumeReview response s).1).isSome := by
  intro h
  have hsome := h draftedState draftPayload (scoring [("macro", 3)]) rfl rfl rfl rfl
  cases hsome

end Examples

end CryptoAlert
