import CryptoAlert.Api.Submissions

/-!
# From an admitted request to the submission of its command

Admission persists the dumped request as the payload of the task and of its command; claiming
the command validates that payload again. The two sides apply the same validators to
different texts, since each validation redacts the query once more.
-/

namespace CryptoAlert

variable (u : Text.UnicodeData)

/-- The graph request dumped without its task type. -/
def AnalysisRequest.submissionDump (r : AnalysisRequest) : Json :=
  AnalysisSubmission.modelDump ⟨r.symbol, r.horizon, r.queryText, r.notify⟩

/-- The graph request dumped with its task type. -/
def DeepResearchRequest.modelDump (r : DeepResearchRequest) : Json :=
  DeepResearchSubmission.modelDump ⟨r.symbol, r.horizon, r.queryText⟩

def isDecisionPayload : Json → Bool
  | .obj fields =>
      (match fields.lookup "schema_version" with
        | some (.str version) => version == "1.0"
        | _ => false) && (fields.lookup "entry_kind").isSome
  | _ => false

def submissionForGraphRequest : TaskType → GraphRequest → Option ProductSubmission
  | .deepResearch, .deepResearch r =>
      (DeepResearchSubmission.modelValidate u r.modelDump).map .deepResearch
  | .marketAnalysis, .analysis r =>
      (AnalysisSubmission.modelValidate u r.submissionDump).map .analysis
  | _, _ => none

/-- The submission of a claimed command; `none` where the source raises. -/
def productSubmissionFromPayload (taskType : TaskType) (payload : Json) :
    Option ProductSubmission :=
  if isDecisionPayload payload then
    (DecisionRequest.modelValidate u payload).bind fun request =>
      (graphRequestForDecision u request).bind (submissionForGraphRequest u taskType)
  else if taskType = .deepResearch then
    (DeepResearchSubmission.modelValidate u payload).map .deepResearch
  else (AnalysisSubmission.modelValidate u payload).map .analysis

/-- What a client submits, with the query text as it was typed. -/
inductive Request where
  | analysis (body : AnalysisSubmission)
  | deepResearch (body : DeepResearchSubmission)
  | decision (actorId workspaceId : String) (body : DecisionRequestSubmission)

/-- The task type and the persisted payload of an admitted request. -/
structure Admission where
  taskType : TaskType
  payload : Json

/-- Validation and dump of a request on the way to `_create_product_task`; a request that is
refused, or routed to no task, has no admission. -/
def admission : Request → Option Admission
  | .analysis body => (body.redacted u).map fun s => ⟨.marketAnalysis, s.modelDump⟩
  | .deepResearch body => (body.redacted u).map fun s => ⟨.deepResearch, s.modelDump⟩
  | .decision actorId workspaceId body =>
      (body.redacted u).bind fun s =>
        (s.toDomainRequest u actorId workspaceId).bind fun request =>
          let route := routeDecisionRequest request
          if route.status = .admitted then
            route.taskType.map fun taskType => ⟨taskType, request.modelDump⟩
          else none

/-- The stored query of a decision request, redacted on receipt and again in the envelope. -/
def storedQuery (query : String) : String :=
  Redaction.redactText u (strip (Redaction.redactText u (strip query)))

/-- The limit on the query text of the graph request that an intent is routed to. -/
def DecisionIntent.queryLimit : DecisionIntent → ℕ
  | .deepResearch => 4000
  | _ => 2000

/-- The stored query text, and each further redaction of it up to the claim, stays within the
limits of the models it passes through. -/
def FitsAfterRedaction : Request → Prop
  | .analysis body => (Redaction.redactText u body.queryText).length ≤ 2000
  | .deepResearch body => (Redaction.redactText u body.queryText).length ≤ 4000
  | .decision _ _ body =>
      let stored := strip (storedQuery u body.queryText)
      let claimed := Redaction.redactText u stored
      stored.length ≤ 4000 ∧ claimed.length ≤ body.intent.queryLimit ∧
        (Redaction.redactText u claimed).length ≤ body.intent.queryLimit

theorem strip_length_pos_iff (s : String) : 1 ≤ (strip s).length ↔ Text.HasInk s.toList := by
  rw [← Text.trim_ne_nil_iff, strip, String.length_ofList]
  exact List.length_pos_iff

theorem hasInk_redactText {s : String} (h : Text.HasInk s.toList) :
    Text.HasInk (Redaction.redactText u s).toList := by
  rw [Redaction.redactText, String.toList_ofList]
  exact Redaction.hasInk_redactChars u h

theorem redactQuery_isSome {max : ℕ} {query : String} (hpos : 1 ≤ query.length) :
    (redactQuery u max query).isSome ↔ query.length ≤ max := by
  rw [redactQuery, Option.isSome_map, BoundedText.of?_isSome]
  exact and_iff_right hpos

theorem validateQuery_eq_some {query stored : String} :
    DecisionRequest.validateQuery u query = some stored ↔
      1 ≤ (strip query).length ∧ (strip query).length ≤ 4000 ∧
        stored = Redaction.redactText u (strip query) := by
  unfold DecisionRequest.validateQuery StrippedText.of?
  split_ifs with h
  · simp only [Option.map_some, Option.some.injEq, StrippedText.text, h.1, h.2, true_and]
    exact eq_comm
  · simp only [Option.map_none, reduceCtorEq, false_iff]
    intro hall
    exact h ⟨hall.1, hall.2.1⟩

theorem isDecisionPayload_analysis (s : AnalysisSubmission) :
    isDecisionPayload s.modelDump = false := rfl

theorem isDecisionPayload_deepResearch (s : DeepResearchSubmission) :
    isDecisionPayload s.modelDump = false := rfl

theorem isDecisionPayload_decision (r : DecisionRequest) :
    isDecisionPayload r.modelDump = true := rfl

theorem productSubmission_analysis (s : AnalysisSubmission) :
    productSubmissionFromPayload u .marketAnalysis s.modelDump =
      (s.redacted u).map .analysis := by
  rw [productSubmissionFromPayload, isDecisionPayload_analysis,
    AnalysisSubmission.modelValidate_modelDump]
  rfl

theorem productSubmission_deepResearch (s : DeepResearchSubmission) :
    productSubmissionFromPayload u .deepResearch s.modelDump =
      (s.redacted u).map .deepResearch := by
  rw [productSubmissionFromPayload, isDecisionPayload_deepResearch,
    DeepResearchSubmission.modelValidate_modelDump]
  rfl

theorem analysisRequest_validate (symbol : Symbol) (horizon : StrippedText 1 32)
    (query : String) (notify : Bool) :
    AnalysisRequest.validate u symbol horizon.text query notify =
      (redactQuery u 2000 query).map fun q => ⟨symbol, horizon.val, q, notify⟩ := by
  have hof : BoundedText.of? 1 32 horizon.text = some horizon.val := BoundedText.of?_val _
  rw [AnalysisRequest.validate, hof]
  cases redactQuery u 2000 query <;> rfl

theorem deepResearchRequest_validate (symbol : Symbol) (horizon : StrippedText 1 32)
    (query : String) :
    DeepResearchRequest.validate u symbol horizon.text query =
      (redactQuery u 4000 query).map fun q => ⟨symbol, horizon.val, q⟩ := by
  have hof : BoundedText.of? 1 32 horizon.text = some horizon.val := BoundedText.of?_val _
  rw [DeepResearchRequest.validate, hof]
  cases redactQuery u 4000 query <;> rfl

theorem submissionForGraphRequest_analysis (r : AnalysisRequest) :
    (submissionForGraphRequest u .marketAnalysis (.analysis r)).isSome =
      (redactQuery u 2000 r.queryText).isSome := by
  rw [submissionForGraphRequest, AnalysisRequest.submissionDump,
    AnalysisSubmission.modelValidate_modelDump, AnalysisSubmission.redacted,
    Option.isSome_map, Option.isSome_map]

theorem submissionForGraphRequest_deepResearch (r : DeepResearchRequest) :
    (submissionForGraphRequest u .deepResearch (.deepResearch r)).isSome =
      (redactQuery u 4000 r.queryText).isSome := by
  rw [submissionForGraphRequest, DeepResearchRequest.modelDump,
    DeepResearchSubmission.modelValidate_modelDump, DeepResearchSubmission.redacted,
    Option.isSome_map, Option.isSome_map]

/-- A query accepted by a graph request is redacted once more for the submission. -/
theorem redactQuery_redactQuery_isSome {max : ℕ} {query : String} (hpos : 1 ≤ query.length) :
    ((redactQuery u max query).bind (redactQuery u max)).isSome ↔
      query.length ≤ max ∧ (Redaction.redactText u query).length ≤ max := by
  by_cases hle : query.length ≤ max
  · have hof : BoundedText.of? 1 max query = some ⟨query, hpos, hle⟩ := dif_pos ⟨hpos, hle⟩
    rw [redactQuery, hof, Option.map_some, Option.bind_some,
      redactQuery_isSome u (Redaction.redactText_length_pos u hpos)]
    simp [hle]
  · have hnone : redactQuery u max query = none := by
      rw [← Option.not_isSome_iff_eq_none, redactQuery_isSome u hpos]
      exact hle
    simp [hnone, hle]

/-- An admitted request is routed by its intent alone. -/
theorem taskType_of_admitted {r : DecisionRequest}
    (hstatus : (routeDecisionRequest r).status = .admitted) :
    (r.intent = .deepResearch ∧ (routeDecisionRequest r).taskType = some .deepResearch) ∨
      (r.intent ≠ .deepResearch ∧
        (routeDecisionRequest r).taskType = some .marketAnalysis) := by
  unfold routeDecisionRequest at hstatus ⊢
  split_ifs at hstatus ⊢ with _ _ _ hdeep
  · exact Or.inl ⟨hdeep, rfl⟩
  · exact Or.inr ⟨hdeep, rfl⟩

/-- The claim of an admitted decision request redacts its query twice more. -/
theorem claim_decision {r : DecisionRequest} {taskType : TaskType}
    (hstatus : (routeDecisionRequest r).status = .admitted)
    (htask : (routeDecisionRequest r).taskType = some taskType) :
    ((graphRequestForDecision u r).bind (submissionForGraphRequest u taskType)).isSome =
      ((redactQuery u r.intent.queryLimit r.queryText).bind
        (redactQuery u r.intent.queryLimit)).isSome := by
  obtain ⟨symbol, horizon, hsymbol, hhorizon⟩ := symbol_horizon_of_admitted hstatus
  rw [graphRequestForDecision]
  rcases taskType_of_admitted hstatus with ⟨hintent, hroute⟩ | ⟨hintent, hroute⟩
  · have hlimit : r.intent.queryLimit = 4000 := by rw [hintent]; rfl
    rw [hroute, Option.some.injEq] at htask
    subst htask
    simp only [hstatus, hroute, hsymbol, hhorizon, if_true, deepResearchRequest_validate, hlimit]
    cases redactQuery u 4000 r.queryText with
    | none => rfl
    | some q => exact submissionForGraphRequest_deepResearch u _
  · have hlimit : r.intent.queryLimit = 2000 := by
      cases hi : r.intent <;> first | rfl | exact absurd hi hintent
    rw [hroute, Option.some.injEq] at htask
    subst htask
    simp only [hstatus, hroute, hsymbol, hhorizon, if_true, analysisRequest_validate, hlimit]
    cases redactQuery u 2000 r.queryText with
    | none => rfl
    | some q => exact submissionForGraphRequest_analysis u _

/-- A persisted decision request is claimed exactly if its query fits the routed models. -/
theorem productSubmission_decision {r : DecisionRequest} {taskType : TaskType}
    (hstatus : (routeDecisionRequest r).status = .admitted)
    (htask : (routeDecisionRequest r).taskType = some taskType)
    (hink : Text.HasInk r.queryText.toList) :
    (productSubmissionFromPayload u taskType r.modelDump).isSome ↔
      (strip r.queryText).length ≤ 4000 ∧
      (Redaction.redactText u (strip r.queryText)).length ≤ r.intent.queryLimit ∧
      (Redaction.redactText u (Redaction.redactText u (strip r.queryText))).length ≤
        r.intent.queryLimit := by
  have hpos : 1 ≤ (strip r.queryText).length := (strip_length_pos_iff _).mpr hink
  have hclaimed : 1 ≤ (Redaction.redactText u (strip r.queryText)).length :=
    Redaction.redactText_length_pos u hpos
  rw [productSubmissionFromPayload, isDecisionPayload_decision, if_pos rfl,
    DecisionRequest.modelValidate_modelDump]
  by_cases hstored : (strip r.queryText).length ≤ 4000
  · have hquery : DecisionRequest.validateQuery u r.queryText =
        some (Redaction.redactText u (strip r.queryText)) :=
      (validateQuery_eq_some u).mpr ⟨hpos, hstored, rfl⟩
    rw [hquery, Option.map_some, Option.bind_some,
      claim_decision u (by rw [routeDecisionRequest_queryText]; exact hstatus)
        (by rw [routeDecisionRequest_queryText]; exact htask),
      redactQuery_redactQuery_isSome u hclaimed]
    exact (and_iff_right hstored).symm
  · have hquery : DecisionRequest.validateQuery u r.queryText = none := by
      rw [Option.eq_none_iff_forall_ne_some]
      intro q hq
      exact hstored ((validateQuery_eq_some u).mp hq).2.1
    rw [hquery]
    simp [hstored]

theorem redactQuery_eq_some {max : ℕ} {query redacted : String}
    (h : redactQuery u max query = some redacted) :
    1 ≤ query.length ∧ redacted = Redaction.redactText u query := by
  unfold redactQuery BoundedText.of? at h
  split_ifs at h with hb
  · rw [Option.map_some, Option.some.injEq] at h
    exact ⟨hb.1, h.symm⟩
  · simp at h

theorem productSubmission_of_decision {actorId workspaceId : String}
    {body : DecisionRequestSubmission} {a : Admission}
    (h : admission u (.decision actorId workspaceId body) = some a) :
    (productSubmissionFromPayload u a.taskType a.payload).isSome ↔
      FitsAfterRedaction u (.decision actorId workspaceId body) := by
  rw [admission] at h
  obtain ⟨s, hs, hadmit⟩ := Option.bind_eq_some_iff.mp h
  obtain ⟨r, hr, hroute⟩ := Option.bind_eq_some_iff.mp hadmit
  obtain ⟨query, hquery, rfl⟩ := Option.map_eq_some_iff.mp hs
  obtain ⟨hpos, -, rfl⟩ := (validateQuery_eq_some u).mp hquery
  obtain ⟨stored, hstored, hfields⟩ := DecisionRequestSubmission.toDomainRequest_eq_some u hr
  obtain ⟨hpos', -, rfl⟩ := (validateQuery_eq_some u).mp hstored
  have htext : r.queryText = storedQuery u body.queryText := by rw [hfields, storedQuery]
  have hintent : r.intent = body.intent := by rw [hfields]
  have hink : Text.HasInk r.queryText.toList := by
    rw [htext]
    exact hasInk_redactText u ((strip_length_pos_iff _).mp (by simpa using hpos'))
  simp only at hroute
  split_ifs at hroute with hstatus
  obtain ⟨taskType, htask, rfl⟩ := Option.map_eq_some_iff.mp hroute
  rw [productSubmission_decision u hstatus htask hink, htext, hintent]
  rfl

/-- Admission implies an executable submission exactly where the redacted text still fits. -/
theorem productSubmission_isSome_iff {request : Request} {a : Admission}
    (h : admission u request = some a) :
    (productSubmissionFromPayload u a.taskType a.payload).isSome ↔
      FitsAfterRedaction u request := by
  cases request with
  | analysis body =>
      obtain ⟨s, hs, rfl⟩ := Option.map_eq_some_iff.mp h
      obtain ⟨query, hquery, rfl⟩ := Option.map_eq_some_iff.mp hs
      obtain ⟨hpos, rfl⟩ := redactQuery_eq_some u hquery
      rw [productSubmission_analysis, Option.isSome_map, AnalysisSubmission.redacted,
        Option.isSome_map, redactQuery_isSome u (Redaction.redactText_length_pos u hpos)]
      rfl
  | deepResearch body =>
      obtain ⟨s, hs, rfl⟩ := Option.map_eq_some_iff.mp h
      obtain ⟨query, hquery, rfl⟩ := Option.map_eq_some_iff.mp hs
      obtain ⟨hpos, rfl⟩ := redactQuery_eq_some u hquery
      rw [productSubmission_deepResearch, Option.isSome_map, DeepResearchSubmission.redacted,
        Option.isSome_map, redactQuery_isSome u (Redaction.redactText_length_pos u hpos)]
      rfl
  | decision actorId workspaceId body => exact productSubmission_of_decision u h

section Exclamations

/-! Texts of exclamation marks pass through trimming and redaction unchanged. -/

def exclamations (n : ℕ) : String := String.ofList (List.replicate n '!')

theorem exclamations_length (n : ℕ) : (exclamations n).length = n := by
  simp [exclamations]

open Redaction Regex in
theorem stuck_exclamation : ∀ r ∈ [urlPattern u, emailPattern, creditCardPattern u, ipv4Pattern u,
    macPattern, phonePattern u, headerPattern u, assignmentPattern u, bearerPattern u,
    knownTokenPattern u], r.stuck ['!'] = true := by
  have hdecimal : u.isDecimal '!' = false := by
    rw [Text.UnicodeData.isDecimal, u.decimal_ascii '!' (by decide)]
    rfl
  simp only [List.mem_cons, List.not_mem_nil, or_false, forall_eq_or_imp, forall_eq]
  refine ⟨rfl, rfl, ?_, ?_, rfl, ?_, rfl, rfl, rfl, rfl⟩
  · simp [creditCardPattern, stuck, seqs, hdecimal]
  · simp [ipv4Pattern, stuck, seqs, between, times, hdecimal]
  · simp [phonePattern, stuck, seqs, between, times, hdecimal]

theorem redactText_exclamations (n : ℕ) :
    Redaction.redactText u (exclamations n) = exclamations n := by
  have hself := Redaction.redactChars_eq_self u ['!'] (stuck_exclamation u)
    (s := List.replicate n '!') (fun c hc => by simp [List.eq_of_mem_replicate hc])
  rw [Redaction.redactText, exclamations, String.toList_ofList, hself]

theorem redactQuery_exclamations {max n : ℕ} (hpos : 1 ≤ n) (hmax : n ≤ max) :
    redactQuery u max (exclamations n) = some (exclamations n) := by
  rw [redactQuery, BoundedText.of?, dif_pos (by rw [exclamations_length]; exact ⟨hpos, hmax⟩),
    Option.map_some, redactText_exclamations]

theorem strip_exclamations (n : ℕ) : strip (exclamations n) = exclamations n := by
  have hall : ∀ c ∈ List.replicate n '!', Text.isWhiteSpace c = false := by
    intro c hc
    rw [List.eq_of_mem_replicate hc]
    decide
  rw [strip, exclamations, String.toList_ofList, Text.trim_eq_self hall]

theorem validateQuery_exclamations {n : ℕ} (h : 1 ≤ n ∧ n ≤ 4000) :
    DecisionRequest.validateQuery .ascii (exclamations n) = some (exclamations n) := by
  rw [validateQuery_eq_some, strip_exclamations, exclamations_length, redactText_exclamations]
  exact ⟨h.1, h.2, rfl⟩

theorem certainty_fits : (0 : ℚ) ≤ 1 ∧ (1 : ℚ) ≤ 1 := by decide

/-- A complete request for a market analysis. -/
def decisionBody (query : String) : DecisionRequestSubmission where
  entryKind := .manual
  sessionId := none
  intent := .marketAnalysis
  intentConfidence := ⟨1, certainty_fits⟩
  complexity := .standard
  symbol := some .btcUsdtSwap
  horizon := StrippedText.of? 1 32 "4h"
  queryText := query
  requestedAction := none
  position := none
  risk := ⟨.balanced, none, none⟩
  sideEffects := ⟨true, false, false⟩
  sourceReferenceId := none

theorem route_decisionBody {r : DecisionRequest} {query : String}
    (h : r.toDecisionRequestSubmission = decisionBody query) :
    (routeDecisionRequest r).status = .admitted ∧
      (routeDecisionRequest r).taskType = some .marketAnalysis := by
  have hhorizon : (StrippedText.of? 1 32 "4h").isNone = false := by decide
  have hslots : missingExecutionSlots r = [] := by
    simp [missingExecutionSlots, missingTargetSlots, h, decisionBody, hhorizon]
  have hintent : r.intent = .marketAnalysis := by rw [h]; rfl
  simp [routeDecisionRequest, hslots, hintent, DecisionIntent.isNonLive]

theorem admit_exclamations {n : ℕ} (h : 1 ≤ n ∧ n ≤ 4000) :
    (admission .ascii (.decision "user" "workspace" (decisionBody (exclamations n)))).isSome := by
  have hquery : DecisionRequest.validateQuery .ascii (decisionBody (exclamations n)).queryText =
      some (exclamations n) := validateQuery_exclamations h
  have hredacted : (decisionBody (exclamations n)).redacted .ascii =
      some (decisionBody (exclamations n)) := by
    rw [DecisionRequestSubmission.redacted, hquery]
    rfl
  obtain ⟨actor, hactor⟩ : ∃ t, StrippedText.of? 1 255 "user" = some t :=
    Option.isSome_iff_exists.mp (by decide)
  obtain ⟨workspace, hworkspace⟩ : ∃ t, StrippedText.of? 1 255 "workspace" = some t :=
    Option.isSome_iff_exists.mp (by decide)
  obtain ⟨r, hr⟩ : ∃ r, (decisionBody (exclamations n)).toDomainRequest .ascii
      "user" "workspace" = some r := by
    have hlive : (decisionBody (exclamations n)).entryKind.isNonLive ≠ true := by
      simp [decisionBody, DecisionEntryKind.isNonLive]
    simp only [DecisionRequestSubmission.toDomainRequest, hactor, hworkspace, hquery,
      Option.bind_eq_bind, Option.bind_some]
    exact ⟨_, dif_pos fun hnon => absurd hnon hlive⟩
  obtain ⟨query, hq, hfields⟩ := DecisionRequestSubmission.toDomainRequest_eq_some .ascii hr
  rw [hquery, Option.some.injEq] at hq
  obtain ⟨hstatus, htask⟩ := @route_decisionBody r query (by rw [hfields]; rfl)
  simp only [admission, hredacted, Option.bind_some, hr, hstatus, htask, if_true]
  rfl

/-- A short question is claimed as it was admitted. -/
theorem productSubmission_isSome_iff_short :
    ∃ a, admission .ascii (.decision "user" "workspace" (decisionBody (exclamations 3))) = some a ∧
      ((productSubmissionFromPayload .ascii a.taskType a.payload).isSome ↔
        FitsAfterRedaction .ascii (.decision "user" "workspace" (decisionBody (exclamations 3)))) := by
  obtain ⟨a, ha⟩ := Option.isSome_iff_exists.mp (admit_exclamations (n := 3) (by omega))
  exact ⟨a, ha, productSubmission_isSome_iff .ascii ha⟩

/-- Admission accepts 2001 characters of a market question that the claim then refuses. -/
theorem longDecision_not_executable :
    ∃ a, admission .ascii (.decision "user" "workspace" (decisionBody (exclamations 2001))) = some a ∧
      productSubmissionFromPayload .ascii a.taskType a.payload = none := by
  obtain ⟨a, ha⟩ := Option.isSome_iff_exists.mp (admit_exclamations (n := 2001) (by omega))
  refine ⟨a, ha, ?_⟩
  rw [← Option.not_isSome_iff_eq_none, productSubmission_of_decision .ascii ha]
  rintro ⟨-, hlimit, -⟩
  rw [storedQuery] at hlimit
  simp only [decisionBody, strip_exclamations, redactText_exclamations, exclamations_length,
    DecisionIntent.queryLimit] at hlimit
  omega

end Exclamations

end CryptoAlert
