import CryptoAlert.Improvement.FrozenReplay
import CryptoAlert.Lib.Refusals
import Mathlib.Data.List.Dedup

/-!
# The frozen experiment under reordering and under lower thresholds

The experiment sorts its cases by name, so it cannot see the order in which they were given. A
lower threshold can only keep a product output that a higher one set to zero: every mean grows
while the bar it is compared with falls.
-/

namespace CryptoAlert

theorem scored_nonneg (passed : Bool) : 0 ≤ scored passed := by
  cases passed <;> simp [scored]

theorem scored_le_one (passed : Bool) : scored passed ≤ 1 := by
  cases passed <;> simp [scored]

theorem ruleJudge_inRange {packet : FrozenReplayPacket} {judged : RuleJudgeResult}
    (h : ruleJudge packet = .ok judged) (metric : Metric) :
    0 ≤ judged.scores metric ∧ judged.scores metric ≤ 1 := by
  unfold ruleJudge at h
  cases hterminal : isTerminalStatus (packet.observedOutput.lookup "terminal_status") with
  | error e =>
    rw [hterminal] at h
    cases h
  | ok terminal =>
    rw [hterminal] at h
    cases h
    exact ⟨scored_nonneg _, scored_le_one _⟩

theorem candidateScores_mem (thresholds scores : Metric → ℚ) (metric : Metric) :
    candidateScores thresholds scores metric = 0 ∨
      candidateScores thresholds scores metric = scores metric := by
  unfold candidateScores
  split
  · by_cases hmetric : metric = .productOutput
    · exact .inl (if_pos hmetric)
    · exact .inr (if_neg hmetric)
  · exact .inr rfl

theorem candidateScores_inRange {thresholds scores : Metric → ℚ}
    (h : ∀ metric, 0 ≤ scores metric ∧ scores metric ≤ 1) (metric : Metric) :
    0 ≤ candidateScores thresholds scores metric ∧
      candidateScores thresholds scores metric ≤ 1 := by
  rcases candidateScores_mem thresholds scores metric with hzero | hkept
  · rw [hzero]
    exact ⟨le_refl 0, zero_le_one⟩
  · rw [hkept]
    exact h metric

/-- Higher thresholds never raise a score. -/
theorem candidateScores_antitone {a b scores : Metric → ℚ} (hab : ∀ metric, a metric ≤ b metric)
    (hscores : ∀ metric, 0 ≤ scores metric) (metric : Metric) :
    candidateScores b scores metric ≤ candidateScores a scores metric := by
  by_cases hbelow : Metric.names.any fun metric => scores metric < a metric
  · -- a score below the lower threshold is below the higher one too
    have hbelow' : Metric.names.any fun metric => scores metric < b metric := by
      obtain ⟨low, hlow, hlt⟩ := List.any_eq_true.mp hbelow
      have hlt' : scores low < b low := lt_of_lt_of_le (of_decide_eq_true hlt) (hab low)
      exact List.any_eq_true.mpr ⟨low, hlow, decide_eq_true hlt'⟩
    unfold candidateScores
    rw [if_pos hbelow, if_pos hbelow']
  · have hkept : candidateScores a scores = scores := if_neg hbelow
    rw [hkept]
    rcases candidateScores_mem b scores metric with hzero | hsame
    · rw [hzero]
      exact hscores metric
    · rw [hsame]

/-- The evaluation of the same case with scores that are at least as high. -/
def CaseEvaluation.Covers (x y : CaseEvaluation) : Prop :=
  x.caseName = y.caseName ∧ ∀ metric, y.scores metric ≤ x.scores metric

theorem CaseEvaluation.create_of_inRange {caseName : String} {scores : Metric → ℚ}
    (h : ∀ metric, 0 ≤ scores metric ∧ scores metric ≤ 1) :
    CaseEvaluation.create caseName scores = .ok ⟨caseName, scores, h⟩ :=
  dif_pos fun metric _ => h metric

theorem evaluateCases_antitone {a b : Metric → ℚ} (hab : ∀ metric, a metric ≤ b metric)
    (seen : List String) (cases : List (String × FrozenReplayPacket)) :
    Refusals.SameEnd (List.Forall₂ CaseEvaluation.Covers) (evaluateCases a seen cases)
      (evaluateCases b seen cases) := by
  induction cases generalizing seen with
  | nil => exact .returned .nil
  | cons item rest ih =>
    obtain ⟨caseName, packet⟩ := item
    unfold evaluateCases
    by_cases hseen : caseName ∈ seen
    · rw [if_pos hseen, if_pos hseen]
      exact .raised _
    rw [if_neg hseen, if_neg hseen]
    cases hjudged : ruleJudge packet with
    | error e => exact .raised e
    | ok judged =>
      have hrange := ruleJudge_inRange hjudged
      have hcovers := candidateScores_antitone hab fun metric => (hrange metric).1
      have hcreated : Refusals.SameEnd CaseEvaluation.Covers
          (CaseEvaluation.create caseName (candidateScores a judged.scores))
          (CaseEvaluation.create caseName (candidateScores b judged.scores)) := by
        rw [CaseEvaluation.create_of_inRange (candidateScores_inRange hrange),
          CaseEvaluation.create_of_inRange (candidateScores_inRange hrange)]
        exact .returned ⟨rfl, hcovers⟩
      refine hcreated.bind fun p q hpq => ?_
      refine (ih (caseName :: seen)).bind fun x y hxy => ?_
      exact .returned (.cons hpq hxy)

theorem names_of_covers {x y : List CaseEvaluation} (h : List.Forall₂ CaseEvaluation.Covers x y) :
    x.map (·.caseName) = y.map (·.caseName) := by
  induction h with
  | nil => rfl
  | cons hcovers _ ih => simp only [List.map_cons, hcovers.1, ih]

theorem meanScore_le_of_covers {x y : List CaseEvaluation}
    (h : List.Forall₂ CaseEvaluation.Covers x y) (metric : Metric) :
    meanScore y metric ≤ meanScore x metric := by
  have hsum : (y.map fun item => item.scores metric).sum ≤
      (x.map fun item => item.scores metric).sum := by
    induction h with
    | nil => exact le_refl _
    | cons hcovers _ ih =>
      simp only [List.map_cons, List.sum_cons]
      exact add_le_add (hcovers.2 metric) ih
  unfold meanScore
  rw [h.length_eq]
  exact div_le_div_of_nonneg_right hsum (Nat.cast_nonneg _)

theorem joinSorted_eq_of_perm {names names' : List String} (h : names'.Perm names) :
    joinSorted names' = joinSorted names := by
  have hkeys : (names.dedup.map id).Nodup := by
    rw [List.map_id]
    exact List.nodup_dedup names
  unfold joinSorted
  rw [Sorting.sortBy_eq_of_perm h.dedup hkeys]

theorem caseReasons_eq_of_perm {actual expected expected' : List String}
    (h : expected'.Perm expected) : caseReasons actual expected' = caseReasons actual expected := by
  have hnil : expected' = [] ↔ expected = [] := by
    rw [← List.length_eq_zero_iff, h.length_eq, List.length_eq_zero_iff]
  have hmissing := h.filter fun name => decide (name ∉ actual)
  have hmissingNil : (expected'.filter fun name => decide (name ∉ actual)) = [] ↔
      (expected.filter fun name => decide (name ∉ actual)) = [] := by
    rw [← List.length_eq_zero_iff, hmissing.length_eq, List.length_eq_zero_iff]
  simp only [caseReasons, hnil, hmissingNil, joinSorted_eq_of_perm hmissing, h.mem_iff]

theorem isEmpty_filterMap_metricReason {metrics thresholds : Metric → ℚ} :
    (Metric.names.filterMap (metricReason metrics thresholds)).isEmpty = true ↔
      ∀ metric, thresholds metric ≤ metrics metric := by
  rw [List.isEmpty_iff, List.filterMap_eq_nil_iff]
  constructor
  · intro h metric
    by_contra hlt
    have hreason := h metric metric.mem_names
    rw [metricReason, if_pos (not_le.mp hlt)] at hreason
    cases hreason
  · intro h metric _
    exact if_neg (not_lt.mpr (h metric))

/-- What the gate asks for besides the order of the means and the thresholds. -/
theorem approved_iff {result : OfflineExperimentResult} {thresholds : Metric → ℚ}
    {expected : List String} :
    (evaluateReleaseGate result thresholds expected).approved = true ↔
      caseReasons (result.caseResults.map (·.caseName)) expected = [] ∧
        result.promptVersion ≠ "" ∧ result.gitRevision ≠ "" ∧
        ∀ metric, thresholds metric ≤ result.metrics metric := by
  rw [← isEmpty_filterMap_metricReason]
  by_cases hprompt : result.promptVersion = "" <;> by_cases hgit : result.gitRevision = "" <;>
    simp [evaluateReleaseGate, hprompt, hgit]

/-- One experiment with its gate does at least as well as another. -/
def Surpasses (x y : OfflineExperimentResult × ReleaseGateReport) : Prop :=
  (∀ metric, y.1.metrics metric ≤ x.1.metrics metric) ∧
    (y.2.approved = true → x.2.approved = true)

theorem gateThresholds_of_candidateThresholds {diff : RuleDiff} {thresholds : Metric → ℚ}
    (h : candidateThresholds diff = .ok thresholds) : gateThresholds diff = thresholds := by
  unfold candidateThresholds at h
  unfold gateThresholds
  cases hraw : diff.rawScores with
  | other =>
    rw [hraw] at h
    cases h
  | mapping items =>
    rw [hraw] at h
    dsimp only at h
    split at h
    · cases h
    split at h
    · cases h
    · exact Except.ok.inj h

theorem experimentWithGate_eq_of_perm {cases cases' : List (String × FrozenReplayPacket)}
    (h : cases'.Perm cases) (hnames : (cases.map Prod.fst).Nodup) (diff : RuleDiff)
    (promptVersion gitRevision : String) :
    experimentWithGate cases' diff promptVersion gitRevision =
      experimentWithGate cases diff promptVersion gitRevision := by
  have hnil : cases' = [] ↔ cases = [] := by
    rw [← List.length_eq_zero_iff, h.length_eq, List.length_eq_zero_iff]
  have hrun : runFrozenRuleExperiment cases' diff promptVersion gitRevision =
      runFrozenRuleExperiment cases diff promptVersion gitRevision := by
    simp only [runFrozenRuleExperiment, hnil, Sorting.sortBy_eq_of_perm h hnames]
  have hgate : ∀ result thresholds, evaluateReleaseGate result thresholds (cases'.map Prod.fst) =
      evaluateReleaseGate result thresholds (cases.map Prod.fst) := fun result thresholds => by
    simp only [evaluateReleaseGate, caseReasons_eq_of_perm (h.map Prod.fst)]
  simp only [experimentWithGate, hrun, hgate]

/-- The runs of one experiment over the same cases under lower and under higher thresholds. -/
structure OfflineExperimentResult.Covers (x y : OfflineExperimentResult) : Prop where
  names : x.caseResults.map (·.caseName) = y.caseResults.map (·.caseName)
  metrics : ∀ metric, y.metrics metric ≤ x.metrics metric
  promptVersion : x.promptVersion = y.promptVersion
  gitRevision : x.gitRevision = y.gitRevision

theorem runFrozenRuleExperiment_antitone {cases : List (String × FrozenReplayPacket)}
    {lower higher : RuleDiff} {a b : Metric → ℚ} (ha : candidateThresholds lower = .ok a)
    (hb : candidateThresholds higher = .ok b) (hab : ∀ metric, a metric ≤ b metric)
    (promptVersion gitRevision : String) :
    Refusals.SameEnd OfflineExperimentResult.Covers
      (runFrozenRuleExperiment cases lower promptVersion gitRevision)
      (runFrozenRuleExperiment cases higher promptVersion gitRevision) := by
  unfold runFrozenRuleExperiment
  by_cases hcases : cases = []
  · rw [if_pos hcases, if_pos hcases]
    exact .raised _
  rw [if_neg hcases, if_neg hcases, ha, hb]
  have hcovers := evaluateCases_antitone hab [] (Sorting.sortBy Prod.fst cases)
  refine hcovers.bind fun x y hxy => ?_
  exact .returned ⟨names_of_covers hxy, meanScore_le_of_covers hxy, rfl, rfl⟩

theorem OfflineExperimentResult.Covers.approved {x y : OfflineExperimentResult} (h : x.Covers y)
    {a b : Metric → ℚ} (hab : ∀ metric, a metric ≤ b metric) {expected : List String}
    (happroved : (evaluateReleaseGate y b expected).approved = true) :
    (evaluateReleaseGate x a expected).approved = true := by
  obtain ⟨hnames, hprompt, hgit, hmetrics⟩ := approved_iff.mp happroved
  apply approved_iff.mpr
  rw [h.names, h.promptVersion, h.gitRevision]
  exact ⟨hnames, hprompt, hgit, fun metric =>
    (hab metric).trans ((hmetrics metric).trans (h.metrics metric))⟩

theorem experimentWithGate_antitone {cases : List (String × FrozenReplayPacket)}
    {lower higher : RuleDiff} {a b : Metric → ℚ} (ha : candidateThresholds lower = .ok a)
    (hb : candidateThresholds higher = .ok b) (hab : ∀ metric, a metric ≤ b metric)
    (promptVersion gitRevision : String) :
    Refusals.SameEnd Surpasses (experimentWithGate cases lower promptVersion gitRevision)
      (experimentWithGate cases higher promptVersion gitRevision) := by
  refine (runFrozenRuleExperiment_antitone ha hb hab promptVersion gitRevision).bind
    fun x y hxy => ?_
  rw [gateThresholds_of_candidateThresholds ha, gateThresholds_of_candidateThresholds hb]
  exact .returned ⟨hxy.metrics, hxy.approved hab⟩

/-- Reordering the cases changes nothing, and a candidate with lower minimum scores does at least
as well. Where the judge raises, it raises the same error for both. -/
theorem frozen_experiment_ordered {cases : List (String × FrozenReplayPacket)}
    (hnames : (cases.map Prod.fst).Nodup)
    {lower higher : RuleDiff} {a b : Metric → ℚ} (ha : candidateThresholds lower = .ok a)
    (hb : candidateThresholds higher = .ok b) (promptVersion gitRevision : String) :
    (∀ cases' : List (String × FrozenReplayPacket), cases'.Perm cases →
      experimentWithGate cases' lower promptVersion gitRevision =
        experimentWithGate cases lower promptVersion gitRevision) ∧
      ((∀ metric, a metric ≤ b metric) →
        Refusals.SameEnd Surpasses (experimentWithGate cases lower promptVersion gitRevision)
          (experimentWithGate cases higher promptVersion gitRevision)) :=
  ⟨fun _ hperm => experimentWithGate_eq_of_perm hperm hnames lower promptVersion gitRevision,
    fun hab => experimentWithGate_antitone ha hb hab promptVersion gitRevision⟩

def quietReplay : FrozenReplayPacket where
  evidence := [[("url", .str "https://example.com/a")]]
  gates := [("evidence", .obj [("sufficient", .bool true)]), ("risk", .obj [("allowed", .bool true)])]
  observedOutput := [("terminal_status", .str "succeeded"), ("main_action", .str "no_trade")]

/-- It was stopped before it had an action. -/
def blockedReplay : FrozenReplayPacket :=
  { quietReplay with observedOutput := [("terminal_status", .str "blocked")] }

def minimumDiff (items : List (String × ℚ)) : RuleDiff := ⟨some (.mapping items)⟩

theorem candidateThresholds_minimumDiff {items : List (String × ℚ)}
    (hnames : (items.any fun item => item.1 ∉ Metric.names.map Metric.name) = false)
    (hrange : (Metric.names.any fun metric =>
      thresholdsOf items metric < 0 ∨ 1 < thresholdsOf items metric) = false) :
    candidateThresholds (minimumDiff items) = .ok (thresholdsOf items) :=
  (if_neg (ne_true_of_eq_false hnames)).trans (if_neg (ne_true_of_eq_false hrange))

theorem frozen_experiment_ordered_half :
    experimentWithGate [("calm", blockedReplay), ("bull", quietReplay)]
          (minimumDiff [("product_output", 1 / 2)]) "p" "g" =
        experimentWithGate [("bull", quietReplay), ("calm", blockedReplay)]
          (minimumDiff [("product_output", 1 / 2)]) "p" "g" ∧
      Refusals.SameEnd Surpasses
        (experimentWithGate [("bull", quietReplay), ("calm", blockedReplay)]
          (minimumDiff [("product_output", 1 / 2)]) "p" "g")
        (experimentWithGate [("bull", quietReplay), ("calm", blockedReplay)]
          (minimumDiff []) "p" "g") := by
  have hnames : ([("bull", quietReplay), ("calm", blockedReplay)].map Prod.fst).Nodup := by decide
  have hhalf : candidateThresholds (minimumDiff [("product_output", 1 / 2)]) =
      .ok (thresholdsOf [("product_output", 1 / 2)]) :=
    candidateThresholds_minimumDiff (by decide) (by decide +kernel)
  have hdefault : candidateThresholds (minimumDiff []) = .ok (thresholdsOf []) :=
    candidateThresholds_minimumDiff (by decide) (by decide +kernel)
  have hordered := frozen_experiment_ordered hnames hhalf hdefault "p" "g"
  refine ⟨hordered.1 _ (.swap _ _ _), hordered.2 fun metric => ?_⟩
  cases metric <;> decide +kernel

end CryptoAlert
