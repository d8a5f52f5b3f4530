import CryptoAlert.Lib.Codec
import CryptoAlert.Lib.Rounding
import CryptoAlert.Lib.Sorting
import Mathlib.Data.String.Basic

/-!
# The frozen experiment of a rule candidate and its release gate

The judge scores a frozen replay by what it recorded, with no call to a model. A case that is
below any minimum score of the candidate has the score of its product output set to zero, and
the same minimum scores are afterwards compared with the means over all cases. Scores and minimum
scores are exact rationals here.
-/

namespace CryptoAlert

/-- `METRIC_NAMES`, in this order. -/
inductive Metric where
  | structural | evidence | risk | productOutput
deriving DecidableEq, Repr

def Metric.names : List Metric := [.structural, .evidence, .risk, .productOutput]

def Metric.name : Metric → String
  | .structural => "structure"
  | .evidence => "evidence"
  | .risk => "risk"
  | .productOutput => "product_output"

@[simp] theorem Metric.mem_names (metric : Metric) : metric ∈ Metric.names := by
  cases metric <;> decide

inductive ExperimentError where
  | valueError (message : String)
  /-- `in` asks for the hash of a list or of a mapping. -/
  | unhashable
deriving DecidableEq, Repr

/-- The parts of a `FrozenReplayPacket` that the judge reads. -/
structure FrozenReplayPacket where
  evidence : List (List (String × Json))
  gates : List (String × Json)
  observedOutput : List (String × Json)

structure RuleJudgeResult where
  scores : Metric → ℚ
  reasons : List String

/-- `gate.get(key) if isinstance(gate, Mapping) else None`, for the gate under a name. -/
def gateField (gates : List (String × Json)) (name key : String) : Option Json :=
  match gates.lookup name with
  | some (.obj fields) => fields.lookup key
  | _ => none

def scored (passed : Bool) : ℚ := if passed then 1 else 0

/-- `terminal_status in {"succeeded", "failed", "blocked"}`. -/
def isTerminalStatus : Option Json → Except ExperimentError Bool
  | some (.str status) => .ok (status ∈ ["succeeded", "failed", "blocked"])
  | some (.arr _) | some (.obj _) => .error .unhashable
  | _ => .ok false

/-- `sufficient is True and packet.evidence`. -/
def FrozenReplayPacket.isSufficient (packet : FrozenReplayPacket) : Bool :=
  match gateField packet.gates "evidence" "sufficient" with
  | some (.bool true) => !packet.evidence.isEmpty
  | _ => false

def FrozenReplayPacket.hasRiskGate (packet : FrozenReplayPacket) : Bool :=
  match gateField packet.gates "risk" "allowed" with
  | some (.bool _) => true
  | _ => false

def FrozenReplayPacket.hasAction (packet : FrozenReplayPacket) : Bool :=
  match packet.observedOutput.lookup "main_action" with
  | some (.str action) => action ≠ ""
  | _ => false

def ruleJudge (packet : FrozenReplayPacket) : Except ExperimentError RuleJudgeResult := do
  let terminal ← isTerminalStatus (packet.observedOutput.lookup "terminal_status")
  let passed : Metric → Bool
    | .structural => terminal
    | .evidence => packet.isSufficient
    | .risk => packet.hasRiskGate
    | .productOutput => packet.hasAction
  let reason : Metric → String
    | .structural => "missing_terminal_status"
    | .evidence => "evidence_gate_or_sources_missing"
    | .risk => "risk_gate_missing"
    | .productOutput => "main_action_missing"
  return {
    scores := fun metric => scored (passed metric)
    reasons := (Metric.names.filter fun metric => !passed metric).map reason }

/-- `candidate.diff["minimum_scores"]`, and anything in its place that is no mapping. -/
inductive MinimumScores where
  | mapping (items : List (String × ℚ))
  | other

structure RuleDiff where
  minimumScores : Option MinimumScores

/-- `diff.get("minimum_scores", {})`. -/
def RuleDiff.rawScores (diff : RuleDiff) : MinimumScores := diff.minimumScores.getD (.mapping [])

/-- `float(raw.get(metric, 1.0))` for every metric. -/
def thresholdsOf (items : List (String × ℚ)) (metric : Metric) : ℚ :=
  (items.lookup metric.name).getD 1

def candidateThresholds (diff : RuleDiff) : Except ExperimentError (Metric → ℚ) :=
  match diff.rawScores with
  | .other => .error (.valueError "candidate minimum_scores contains unsupported metrics")
  | .mapping items =>
    if items.any fun item => item.1 ∉ Metric.names.map Metric.name then
      .error (.valueError "candidate minimum_scores contains unsupported metrics")
    else if Metric.names.any fun metric =>
        thresholdsOf items metric < 0 ∨ 1 < thresholdsOf items metric then
      .error (.valueError "candidate minimum_scores must be between zero and one")
    else .ok (thresholdsOf items)

/-- A case result. Every score lies between zero and one. -/
structure CaseEvaluation where
  caseName : String
  scores : Metric → ℚ
  inRange : ∀ metric, 0 ≤ scores metric ∧ scores metric ≤ 1

/-- `CaseEvaluation.__post_init__`. -/
def CaseEvaluation.create (caseName : String) (scores : Metric → ℚ) :
    Except ExperimentError CaseEvaluation :=
  if h : ∀ metric ∈ Metric.names, 0 ≤ scores metric ∧ scores metric ≤ 1 then
    .ok ⟨caseName, scores, fun metric => h metric metric.mem_names⟩
  else .error (.valueError "release metric scores must be between zero and one")

/-- The scores of a case, with the product output at zero if any score is below its threshold. -/
def candidateScores (thresholds scores : Metric → ℚ) : Metric → ℚ :=
  if Metric.names.any fun metric => scores metric < thresholds metric then
    fun metric => if metric = .productOutput then 0 else scores metric
  else scores

structure OfflineExperimentResult where
  caseResults : List CaseEvaluation
  metrics : Metric → ℚ
  promptVersion : String
  gitRevision : String

/-- The loop over the sorted cases; `seen` are the names that it has met. -/
def evaluateCases (thresholds : Metric → ℚ) :
    List String → List (String × FrozenReplayPacket) → Except ExperimentError (List CaseEvaluation)
  | _, [] => .ok []
  | seen, (caseName, packet) :: rest =>
    if caseName ∈ seen then .error (.valueError s!"duplicate evaluation case: {caseName}")
    else do
      let judged ← ruleJudge packet
      let evaluation ← CaseEvaluation.create caseName (candidateScores thresholds judged.scores)
      let evaluations ← evaluateCases thresholds (caseName :: seen) rest
      return evaluation :: evaluations

def meanScore (caseResults : List CaseEvaluation) (metric : Metric) : ℚ :=
  (caseResults.map fun item => item.scores metric).sum / caseResults.length

def runFrozenRuleExperiment (cases : List (String × FrozenReplayPacket)) (diff : RuleDiff)
    (promptVersion gitRevision : String) : Except ExperimentError OfflineExperimentResult :=
  if cases = [] then .error (.valueError "a frozen rule experiment requires at least one case")
  else do
    let thresholds ← candidateThresholds diff
    let caseResults ← evaluateCases thresholds [] (Sorting.sortBy Prod.fst cases)
    return { caseResults, metrics := meanScore caseResults, promptVersion, gitRevision }

structure ReleaseGateReport where
  approved : Bool
  reasons : List String
  metrics : Metric → ℚ
  thresholds : Metric → ℚ
  promptVersion : String
  gitRevision : String

/-- `f"{value:.6f}"` of a number that is not negative. -/
def sixPlaces (value : ℚ) : String :=
  let scaled := (Rounding.halfEven (value * 10 ^ 6)).toNat
  let fraction := toString (scaled % 10 ^ 6)
  s!"{scaled / 10 ^ 6}." ++ "".pushn '0' (6 - fraction.length) ++ fraction

/-- `",".join(sorted(names))` of a set that is given as a list. -/
def joinSorted (names : List String) : String :=
  ",".intercalate (Sorting.sortBy id names.dedup)

/-- The reasons of `evaluate_release_gate` about the names of the cases. -/
def caseReasons (actualCases expectedCases : List String) : List String :=
  let missingCases := expectedCases.filter fun name => name ∉ actualCases
  let extraCases := actualCases.filter fun name => name ∉ expectedCases
  (if expectedCases = [] then ["missing_expected_cases"] else []) ++
    (if missingCases = [] then [] else [s!"missing_cases:{joinSorted missingCases}"]) ++
    if extraCases = [] then [] else [s!"unexpected_cases:{joinSorted extraCases}"]

/-- The reason about a metric. The result and the thresholds have a value for every metric. -/
def metricReason (metrics thresholds : Metric → ℚ) (metric : Metric) : Option String :=
  if metrics metric < thresholds metric then
    some (s!"metric_below_threshold:{metric.name}:{sixPlaces (metrics metric)}<" ++
      sixPlaces (thresholds metric))
  else none

def evaluateReleaseGate (result : OfflineExperimentResult) (thresholds : Metric → ℚ)
    (expectedCaseNames : List String) : ReleaseGateReport :=
  let reasons :=
    caseReasons (result.caseResults.map (·.caseName)) expectedCaseNames ++
      (if result.promptVersion = "" then ["missing_prompt_version"] else []) ++
      (if result.gitRevision = "" then ["missing_git_revision"] else []) ++
      Metric.names.filterMap (metricReason result.metrics thresholds)
  { approved := reasons.isEmpty
    reasons
    metrics := result.metrics
    thresholds
    promptVersion := result.promptVersion
    gitRevision := result.gitRevision }

/-- The thresholds that `run_improvement_experiment` gives the gate. It reads the minimum scores
after the experiment has accepted them. -/
def gateThresholds (diff : RuleDiff) : Metric → ℚ :=
  match diff.rawScores with
  | .mapping items => thresholdsOf items
  | .other => fun _ => 1

/-- The experiment and its gate, as `run_improvement_experiment` calls them. -/
def experimentWithGate (cases : List (String × FrozenReplayPacket)) (diff : RuleDiff)
    (promptVersion gitRevision : String) :
    Except ExperimentError (OfflineExperimentResult × ReleaseGateReport) := do
  let result ← runFrozenRuleExperiment cases diff promptVersion gitRevision
  return (result, evaluateReleaseGate result (gateThresholds diff) (cases.map (·.1)))

end CryptoAlert
