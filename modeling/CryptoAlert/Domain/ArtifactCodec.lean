import CryptoAlert.Domain.DeepResearch

/-!
# Dumps of artifacts

The codecs of the analysis and deep research artifacts: their JSON dumps, and the validation
of a dump, which gives the value back.
-/

namespace CryptoAlert

/-- A dictionary with values of one kind. -/
def Codec.dict {α : Type} (c : Codec α) : Codec (List (String × α)) where
  dump entries := .obj (entries.map fun (k, a) => (k, c.dump a))
  read j := match j with
    | .obj fields => fields.mapM fun (k, v) => (c.read v).map fun a => (k, a)
    | _ => none
  read_dump entries := by
    induction entries with
    | nil => rfl
    | cons entry entries ih =>
        simp only [List.map_cons, List.mapM_cons, c.read_dump] at ih ⊢
        simp [ih]

def FactorScore.codec : Codec FactorScore := Codec.integer.subtype _

def PositiveInteger.codec : Codec PositiveInteger := Codec.integer.subtype _

def UnitDecimal.codec : Codec UnitDecimal := Decimal.codec.subtype _

def RootCauseChain.codec : Codec RootCauseChain := Codec.text.list.subtype _

def MarketAnalysis.codec : Codec MarketAnalysis :=
  ((Record.field "regime" Regime.codec).and <|
    (Record.field "factor_scores" FactorScore.codec.dict).and <|
    (Record.field "total_score" Codec.integer).and <|
    (Record.field "main_action" Action.codec).and <|
    (Record.field "instrument" Symbol.codec).and <|
    (Record.field "horizon" NonEmptyText.codec).and <|
    (Record.field "reference_price" PositiveDecimal.codec).and <|
    (Record.field "entry_trigger" (PositiveDecimal.codec.nullable PositiveDecimal.dump_ne_null)).and <|
    (Record.field "stop_price" (PositiveDecimal.codec.nullable PositiveDecimal.dump_ne_null)).and <|
    (Record.field "target_1" (PositiveDecimal.codec.nullable PositiveDecimal.dump_ne_null)).and <|
    (Record.field "target_2" (PositiveDecimal.codec.nullable PositiveDecimal.dump_ne_null)).and <|
    (Record.field "probability" UnitInterval.codec).and <|
    (Record.field "position_size_class" PositionSizeClass.codec).and <|
    (Record.field "max_leverage" PositiveInteger.codec).and <|
    (Record.field "risk_pct" UnitDecimal.codec).and <|
    (Record.field "root_cause_chain" RootCauseChain.codec).and <|
    (Record.field "why_not_opposite" NonEmptyText.codec).and <|
    (Record.field "invalidation" Codec.text).and <|
    (Record.field "unavailable_data" Codec.text.list).and <|
    (Record.field "manual_execution_required" Codec.bool).and <|
    Record.field "expires_in_seconds" PositiveInteger.codec).iso
    (fun a => (a.regime, a.factorScores, a.totalScore, a.mainAction, a.instrument, a.horizon,
      a.referencePrice, a.entryTrigger, a.stopPrice, a.target1, a.target2, a.probability,
      a.positionSizeClass, a.maxLeverage, a.riskPct, a.rootCauseChain, a.whyNotOpposite,
      a.invalidation, a.unavailableData, a.manualExecutionRequired, a.expiresInSeconds))
    (fun (regime, scores, total, action, instrument, horizon, reference, entry, stop, first,
      second, probability, size, leverage, risk, causes, opposite, invalidation, unavailable,
      manual, expires) =>
      ⟨regime, scores, total, action, instrument, horizon, reference, entry, stop, first, second,
        probability, size, leverage, risk, causes, opposite, invalidation, unavailable, manual,
        expires⟩)
    (fun _ => rfl) |>.codec (by decide)

def EvidenceVerdict.codec : Codec EvidenceVerdict :=
  ((Record.field "sufficient" Codec.bool).and <|
    (Record.field "confidence_cap" UnitInterval.codec).and <|
    (Record.field "missing_required" Codec.text.list).and <|
    (Record.field "missing_optional" Codec.text.list).and <|
    Record.field "warnings" Codec.text.list).codec (by decide) |>.refine
    (fun (sufficient, cap, required, optional, warnings) =>
      if h : (sufficient = true ↔ required = []) ∧ (sufficient = false → cap.val = 0) then
        some ⟨sufficient, cap, required, optional, warnings, h⟩
      else none)
    (fun v => (v.sufficient, v.confidenceCap, v.missingRequired, v.missingOptional, v.warnings))
    (fun v => dif_pos v.consistent)

def RiskVerdict.codec : Codec RiskVerdict :=
  ((Record.field "allowed" Codec.bool).and <|
    (Record.field "blocked_reasons" Codec.text.list).and <|
    (Record.field "warnings" Codec.text.list).and <|
    Record.field "confidence_cap" UnitInterval.codec).codec (by decide) |>.refine
    (fun (allowed, reasons, warnings, cap) =>
      if h : allowed = true ↔ reasons = [] then some ⟨allowed, reasons, warnings, cap, h⟩
      else none)
    (fun v => (v.allowed, v.blockedReasons, v.warnings, v.confidenceCap))
    (fun v => dif_pos v.consistent)

def ModelExecutionAudit.codec : Codec ModelExecutionAudit :=
  ((Record.field "prompt_version" (BoundedText.codec 1 128)).and <|
    (Record.field "call_count" Codec.natural).and <|
    (Record.field "input_tokens" (Codec.natural.nullable fun _ => nofun)).and <|
    (Record.field "output_tokens" (Codec.natural.nullable fun _ => nofun)).and <|
    (Record.field "total_tokens" (Codec.natural.nullable fun _ => nofun)).and <|
    (Record.field "latency_ms" (Codec.number.subtype _)).and <|
    Record.field "observation_ids" (Codec.text.list.subtype _)).iso
    (fun a => (a.promptVersion, a.callCount, a.inputTokens, a.outputTokens, a.totalTokens,
      a.latencyMs, a.observationIds))
    (fun (version, calls, input, output, total, latency, ids) =>
      ⟨version, calls, input, output, total, latency, ids⟩)
    (fun _ => rfl) |>.codec (by decide)

def ArtifactProvenance.codec : Codec ArtifactProvenance :=
  ((Record.field "market_provider" (BoundedText.codec 1 64)).and <|
    (Record.field "search_provider" (BoundedText.codec 1 128)).and <|
    (Record.field "search_parser_version" (BoundedText.codec 1 128)).and <|
    (Record.field "model_provider" (BoundedText.codec 1 64)).and <|
    (Record.field "model_name" (BoundedText.codec 1 128)).and <|
    (Record.field "model_endpoint_host"
      ((BoundedText.codec 0 255).nullable fun _ => nofun)).and <|
    Record.field "model_audits" ModelExecutionAudit.codec.list).iso
    (fun p => (p.marketProvider, p.searchProvider, p.searchParserVersion, p.modelProvider,
      p.modelName, p.modelEndpointHost, p.modelAudits))
    (fun (market, search, parser, provider, name, host, audits) =>
      ⟨market, search, parser, provider, name, host, audits⟩)
    (fun _ => rfl) |>.codec (by decide)

def Artifact.codec : Codec Artifact :=
  ((Record.field "artifact_type" (Codec.literal "analysis_report")).and <|
    (Record.field "schema_version" Codec.text).and <|
    (Record.field "content_version" PositiveInteger.codec).and <|
    (Record.field "status" ArtifactStatus.codec).and <|
    (Record.field "analysis" MarketAnalysis.codec).and <|
    (Record.field "evidence_verdict" EvidenceVerdict.codec).and <|
    (Record.field "risk_verdict" RiskVerdict.codec).and <|
    (Record.field "source_references" Codec.text.list).and <|
    Record.field "provenance" (ArtifactProvenance.codec.nullable fun _ => nofun)).iso
    (fun a => ((), a.schemaVersion, a.contentVersion, a.status, a.analysis, a.evidenceVerdict,
      a.riskVerdict, a.sourceReferences, a.provenance))
    (fun (_, schema, version, status, analysis, evidence, risk, references, provenance) =>
      ⟨schema, version, status, analysis, evidence, risk, references, provenance⟩)
    (fun _ => rfl) |>.codec (by decide)

inductive ResearchHarnessMode where
  | deepagents | langchain
deriving DecidableEq, Repr

def ResearchHarnessMode.name : ResearchHarnessMode → String
  | deepagents => "deepagents"
  | langchain => "langchain"

def ResearchHarnessMode.codec : Codec ResearchHarnessMode :=
  Codec.enum [deepagents, langchain] name (by intro a; cases a <;> decide)

structure DeepResearchFields (U : Type) where
  /-- Whether the status is `committed` rather than `draft`. -/
  committed : Bool
  harnessMode : ResearchHarnessMode
  searchCoverage : DeepResearchSearchCoverage
  report : DeepResearchReport
  sources : BoundedList (IndexedResearchSource U) 1 8
  modelAudits : List ModelExecutionAudit
deriving DecidableEq

/-- The check `require_coherent_source_catalog`. -/
def DeepResearchFields.Coherent {U : Type} (a : DeepResearchFields U) : Prop :=
  a.sources.val.map (·.index.val) = List.range' 1 a.sources.val.length ∧
    (a.sources.val.map fun s => (s.evidence.finalUrl, s.evidence.contentHash)).Nodup ∧
    ∀ i ∈ a.report.referencedSourceIndexes, i ∈ a.sources.val.map (·.index.val)

instance {U : Type} [DecidableEq U] (a : DeepResearchFields U) : Decidable a.Coherent :=
  inferInstanceAs (Decidable (_ ∧ _ ∧ _))

abbrev DeepResearchArtifact (U : Type) := {a : DeepResearchFields U // a.Coherent}

namespace DeepResearchArtifact

def of? {U : Type} [DecidableEq U] (a : DeepResearchFields U) : Option (DeepResearchArtifact U) :=
  if h : a.Coherent then some ⟨a, h⟩ else none

/-- Validation of the dump of an artifact. -/
def reread (a : DeepResearchArtifact HttpUrl) : Option (DeepResearchArtifact ReadUrl) :=
  (a.val.sources.val.mapM fun (s : IndexedResearchSource HttpUrl) =>
    s.evidence.reread.map (IndexedResearchSource.mk s.index)).bind fun sources =>
    if h : 1 ≤ sources.length ∧ sources.length ≤ 8 then
      of? { a.val with sources := ⟨sources, h⟩ }
    else none

def codec : Codec (DeepResearchArtifact ReadUrl) :=
  (((Record.field "artifact_type" (Codec.literal "deep_research_report")).and <|
    (Record.field "schema_version" (Codec.literal "1.0")).and <|
    (Record.field "status" (Codec.enum [false, true]
      (fun committed => if committed then "committed" else "draft") (by decide))).and <|
    (Record.field "harness_mode" ResearchHarnessMode.codec).and <|
    (Record.field "search_coverage" DeepResearchSearchCoverage.codec).and <|
    (Record.field "report" DeepResearchReport.codec).and <|
    (Record.field "sources" (BoundedList.codec 1 8 IndexedResearchSource.codec)).and <|
    Record.field "model_audits" ModelExecutionAudit.codec.list).iso
    (fun a => ((), (), a.committed, a.harnessMode, a.searchCoverage, a.report, a.sources,
      a.modelAudits))
    (fun (_, _, committed, mode, coverage, report, sources, audits) =>
      ⟨committed, mode, coverage, report, sources, audits⟩)
    (fun _ => rfl) |>.codec (by decide)).subtype _

end DeepResearchArtifact

end CryptoAlert
