import CryptoAlert.Commands.Integrity
import CryptoAlert.Projections.EventSequence
import CryptoAlert.Workers.OutcomeMaturation

/-!
# The outcome that a projection schedules

Along with the decision of a succeeded analysis an observation of its outcome is stored, to be
made when the horizon of the analysis is over. The horizon is a text of at most 32 characters at
admission and is read as a duration here, in the same transaction.
-/

namespace CryptoAlert

/-- An observation with the version that it belongs to. -/
structure ScheduledOutcome where
  artifactVersionId : ℕ
  row : OutcomeRow

section Definitions

variable (u : Text.UnicodeData)

/-- `outcome_horizon`: the horizon of the analysis, where that is empty the one of the task. -/
def outcomeHorizon (task : TaskRow) (analysis : MarketAnalysis) : String :=
  if analysis.horizon.val ≠ "" then analysis.horizon.val
  else
    match task.payload.textAt "horizon" with
    | some horizon => if horizon ≠ "" then horizon else "1h"
    | none => "1h"

/-- Stores the observation of a version unless there is one for the same horizon. -/
def scheduleOutcome (task : TaskRow) (analysis : MarketAnalysis) (versionId now : ℕ)
    (outcomes : List ScheduledOutcome) : Except OutcomeError (List ScheduledOutcome) :=
  let horizon := outcomeHorizon task analysis
  if outcomes.any fun o => o.artifactVersionId == versionId && o.row.horizon == horizon then
    .ok outcomes
  else
    match maturationAt u now horizon with
    | .error error => .error error
    | .ok maturation => .ok (outcomes ++ [⟨versionId, {
        action := analysis.mainAction
        predictedProbability := some analysis.probability
        horizon
        maturationAt := maturation
        availableAt := maturation }⟩])

/-- The first projection of an output with the observation that it schedules; `none` where an
exception leaves it. -/
def projectScheduled (cfg : DispatcherConfig) (lease : CommandLease)
    (terminal : TerminalGraphOutput) (now : ℕ) (ids : CommitIds)
    (outcomes : List ScheduledOutcome) (l : LockedRows) :
    Option (LockedRows × List ScheduledOutcome) :=
  match TaskStore.projectOutput cfg lease terminal now ids l, terminal.terminalStatus,
      terminal.artifact with
  | none, _, _ => none
  | some l', .succeeded, some artifact =>
      match scheduleOutcome cfg.unicode l.task artifact.analysis ids.version now outcomes with
      | .error _ => none
      | .ok outcomes => some (l', outcomes)
  | some l', _, _ => some (l', outcomes)

/-- The horizon is a positive number of minutes, hours or days that ends within the calendar. -/
def IsDuration (horizon : String) (now : ℕ) : Prop :=
  ∃ w c unit amount, u.lower (Text.stripText horizon.toList) = w ++ [c] ∧ w ≠ [] ∧
    horizonUnit c = some unit ∧ Text.readInteger u w = some amount ∧ 0 < amount ∧
      now + amount.toNat * unit * Calendar.second < datetimeLimit

end Definitions

section Horizons

variable {u : Text.UnicodeData} {horizon : String} {now : ℕ}

theorem parseHorizon_eq_ok {amount : ℤ} {unit : ℕ} :
    parseHorizon u horizon = .ok (amount, unit) ↔
      ∃ w c, u.lower (Text.stripText horizon.toList) = w ++ [c] ∧ w ≠ [] ∧
        horizonUnit c = some unit ∧ Text.readInteger u w = some amount := by
  unfold parseHorizon
  generalize u.lower (Text.stripText horizon.toList) = normalized
  dsimp only
  rcases List.eq_nil_or_concat normalized with rfl | ⟨w, c, rfl⟩
  · simp
  rw [List.concat_eq_append, List.getLast?_concat, List.dropLast_concat, Option.bind_some]
  have hsame : ∀ w' c', w ++ [c] = w' ++ [c'] → w = w' ∧ c = c' := by
    intro w' c' h
    simpa using List.append_inj' h rfl
  constructor
  · intro h
    cases hunit : horizonUnit c with
    | none => simp [hunit] at h
    | some found =>
        simp only [hunit] at h
        split_ifs at h with hshort
        cases hread : Text.readInteger u w with
        | none => simp [hread] at h
        | some read =>
            simp only [hread] at h
            cases h
            refine ⟨w, c, rfl, ?_, hunit, hread⟩
            rintro rfl
            simp at hshort
  · rintro ⟨w', c', h, hne, hunit, hread⟩
    obtain ⟨rfl, rfl⟩ := hsame w' c' h
    have hlong : ¬ (w ++ [c]).length < 2 := by
      have hpos := List.length_pos_of_ne_nil hne
      rw [List.length_append, List.length_singleton]
      omega
    simp only [hunit, if_neg hlong, hread]

/-- A horizon has a maturation just where it is a duration. -/
theorem maturationAt_isOk_iff :
    (∃ maturation, maturationAt u now horizon = .ok maturation) ↔ IsDuration u horizon now := by
  constructor
  · rintro ⟨maturation, h⟩
    unfold maturationAt at h
    cases hparse : parseHorizon u horizon with
    | error error => simp [hparse] at h
    | ok found =>
        obtain ⟨amount, unit⟩ := found
        simp only [hparse] at h
        split_ifs at h with hpositive hlimit
        obtain ⟨w, c, hw, hne, hunit, hread⟩ := parseHorizon_eq_ok.mp hparse
        exact ⟨w, c, unit, amount, hw, hne, hunit, hread, not_le.mp hpositive, hlimit⟩
  · rintro ⟨w, c, unit, amount, hw, hne, hunit, hread, hpositive, hlimit⟩
    have hparse := parseHorizon_eq_ok.mpr ⟨w, c, hw, hne, hunit, hread⟩
    refine ⟨now + amount.toNat * unit * Calendar.second, ?_⟩
    simp only [maturationAt, hparse, if_neg (not_le.mpr hpositive), if_pos hlimit]

end Horizons

section Commit

variable {o : Outputs} {ids : CommitIds}

/-- The ids of a commit are new, and the decisions are those of stored versions. -/
structure Outputs.Accepts (o : Outputs) (ids : CommitIds) : Prop where
  numbered : o.Numbered
  decided : ∀ d ∈ o.decisions, ∃ v ∈ o.versions, v.id = d.artifactVersionId ∧
    v.artifactId = d.artifactId ∧ v.versionNumber = d.decisionVersion
  artifact : ∀ a ∈ o.artifacts, a.id ≠ ids.artifact
  version : ∀ v ∈ o.versions, v.id ≠ ids.version
  decision : ∀ d ∈ o.decisions, d.id ≠ ids.decision

theorem Table.insert_of_fresh {ρ : Type} (key : ρ → ℕ) {rows : List ρ} {row : ρ}
    (h : ∀ r ∈ rows, key r ≠ key row) : Table.insert key rows row = some (rows ++ [row]) := by
  have hnone : (rows.any fun r => key r == key row) = false := by
    simpa using h
  simp [Table.insert, hnone]

/-- A version is stored under new ids, with a number that no version of its artifact has. -/
theorem commitVersion_of_accepts (h : o.Accepts ids) (type : ArtifactType) (runId : ℕ)
    (content : Json) :
    ∃ o' v, o.commitVersion type ids runId content = some (o', v) ∧ v.id = ids.version ∧
      o'.decisions = o.decisions ∧ o'.events = o.events ∧
        ∀ w ∈ o.versions, w.artifactId = v.artifactId → w.versionNumber ≠ v.versionNumber := by
  have hartifact : ∃ o₁ a, o.artifactFor type ids.artifact = some (o₁, a) ∧
      o₁.versions = o.versions ∧ o₁.decisions = o.decisions ∧ o₁.events = o.events := by
    unfold Outputs.artifactFor
    split
    · exact ⟨_, _, rfl, rfl, rfl, rfl⟩
    · have hfresh : ∀ a ∈ o.artifacts,
          a.id ≠ (ArtifactRow.mk ids.artifact type 0).id := h.artifact
      dsimp only
      rw [Table.insert_of_fresh ArtifactRow.id hfresh]
      exact ⟨_, _, rfl, rfl, rfl, rfl⟩
  obtain ⟨o₁, a, hfound, hversions, hdecisions, hevents⟩ := hartifact
  have hfresh : ∀ v ∈ o₁.versions, v.id ≠ ids.version := by
    rw [hversions]
    exact h.version
  let number := Table.maxOf ArtifactVersion.versionNumber
    (o₁.versions.filter fun v => v.artifactId == a.id) + 1
  let version : ArtifactVersion := ⟨ids.version, a.id, runId, number, content⟩
  refine ⟨{ o₁ with
    artifacts := Table.put ArtifactRow.id o₁.artifacts { a with latestVersionNumber := number }
    versions := o₁.versions ++ [version] }, version, ?_, rfl, hdecisions, hevents, ?_⟩
  · have hinsert : Table.insert ArtifactVersion.id o₁.versions version =
        some (o₁.versions ++ [version]) := Table.insert_of_fresh _ hfresh
    simp only [Outputs.commitVersion, hfound, Option.bind_eq_bind, Option.bind_some,
      Option.pure_def]
    rw [show Table.insert ArtifactVersion.id o₁.versions _ = _ from hinsert, Option.bind_some]
  · intro w hw hartifact hnumber
    have hmem : w ∈ o₁.versions.filter fun v => v.artifactId == a.id := by
      rw [hversions]
      exact List.mem_filter.mpr ⟨hw, by simpa using hartifact⟩
    have hle : w.versionNumber < number := Nat.lt_succ_of_le (Table.le_maxOf hmem)
    exact absurd hnumber (Nat.ne_of_lt hle)

/-- A decision of the new version is stored along with it. -/
theorem commitVersionAndDecision_of_accepts (h : o.Accepts ids) (runId : ℕ) (content : Json)
    {analysis evidence risk : Json} (hanalysis : content.get? "analysis" = some analysis)
    (hevidence : content.get? "evidence_verdict" = some evidence)
    (hrisk : content.get? "risk_verdict" = some risk) :
    ∃ o' row, o.commitVersionAndDecision ids runId content = some (o', row) ∧
      row.decision = analysis ∧ o'.events = o.events := by
  obtain ⟨o₁, v, hcommit, hid, hdecisions, hevents, hnumbers⟩ :=
    commitVersion_of_accepts h .analysisReport runId content
  let row : DecisionRow := ⟨ids.decision, v.artifactId, v.id, runId, v.versionNumber, analysis,
    evidence, risk⟩
  have hnone : (o₁.decisions.any fun d => d.artifactVersionId == row.artifactVersionId ||
      (d.artifactId == row.artifactId && d.decisionVersion == row.decisionVersion)) = false := by
    rw [List.any_eq_false]
    intro d hd hsame
    rw [hdecisions] at hd
    obtain ⟨w, hw, hversion, hartifact, hnumber⟩ := h.decided d hd
    simp only [Bool.or_eq_true, beq_iff_eq, Bool.and_eq_true] at hsame
    rcases hsame with hsame | ⟨hsame, hdecision⟩
    · exact h.version w hw ((hversion.trans hsame).trans hid)
    · exact hnumbers w hw (hartifact.trans hsame) (hnumber.trans hdecision)
  have hfresh : ∀ d ∈ o₁.decisions, d.id ≠ row.id := by
    rw [hdecisions]
    exact h.decision
  refine ⟨{ o₁ with decisions := o₁.decisions ++ [row] }, row, ?_, rfl, hevents⟩
  simp only [Outputs.commitVersionAndDecision, hanalysis, hevidence, hrisk, hcommit,
    Option.bind_eq_bind, Option.bind_some, Option.pure_def]
  rw [if_neg (by rw [hnone]; exact Bool.false_ne_true), Table.insert_of_fresh _ hfresh,
    Option.bind_some]

/-- The artifact of a succeeded output is stored; the events stay as they are. -/
theorem commitTerminalArtifact_of_accepts (h : o.Accepts ids) (task : TaskRow) (runId : ℕ)
    (terminal : TerminalGraphOutput) :
    ∃ o' notification, commitTerminalArtifact task o ids runId terminal =
      some (o', notification) ∧ o'.events = o.events := by
  unfold commitTerminalArtifact
  by_cases hstatus : terminal.terminalStatus = .succeeded
  · rw [if_pos hstatus]
    cases terminal.artifact with
    | some artifact =>
        obtain ⟨o', row, hcommit, hrow, hevents⟩ :=
          commitVersionAndDecision_of_accepts h runId (Artifact.codec.dump artifact) rfl rfl rfl
        have hpayload : ∃ payload, notificationEventPayload task row = some payload := by
          unfold notificationEventPayload
          rw [hrow]
          exact ⟨_, rfl⟩
        obtain ⟨payload, hpayload⟩ := hpayload
        simp only [hcommit, Option.bind_eq_bind, Option.bind_some]
        by_cases hnotify : task.payload.boolAt "notify" = true
        · exact ⟨o', some payload, by rw [if_pos hnotify, hpayload]; rfl, hevents⟩
        · exact ⟨o', none, by rw [if_neg hnotify]; rfl, hevents⟩
    | none =>
        cases terminal.deepResearchArtifact with
        | some artifact =>
            obtain ⟨o', v, hcommit, -, -, hevents, -⟩ :=
              commitVersion_of_accepts h .deepResearchReport runId
                (DeepResearchArtifact.codec.dump artifact)
            refine ⟨o', none, ?_, hevents⟩
            dsimp only
            rw [hcommit, Option.map_some]
        | none => exact ⟨o, none, rfl, rfl⟩
  · exact ⟨o, none, if_neg hstatus, rfl⟩

end Commit

section Events

variable {hashing : Hashing} {models : PayloadModels} {log : EventLog} {source : EventSource}

/-- The validation of a dumped deep research artifact succeeds. -/
def AcceptsResearch (models : PayloadModels) : Prop :=
  ∀ a : DeepResearchArtifact ReadUrl, ∃ payload,
    models.deepResearchArtifact (DeepResearchArtifact.codec.dump a).excludeNone = some payload ∧
      (payload.get? "report").isSome ∧ (payload.get? "status").isSome

variable (hashing) in
theorem exists_domainEventSpecs (hresearch : AcceptsResearch models) (t : TerminalGraphOutput)
    (notification : Option Json) :
    ∃ specs, domainEventSpecs hashing models t.modelDump notification = some specs := by
  have hdeep : ∃ research, deepResearchSpecs hashing models
      "output_payload#/deep_research_artifact" (t.modelDump.get? "deep_research_artifact") =
        some research := by
    rw [t.get?_deepResearchArtifact]
    cases t.deepResearchArtifact with
    | none => exact ⟨[], rfl⟩
    | some a =>
        obtain ⟨payload, hpayload, hreport, hstatus⟩ := hresearch a
        obtain ⟨report, hreport⟩ := Option.isSome_iff_exists.mp hreport
        obtain ⟨status, hstatus⟩ := Option.isSome_iff_exists.mp hstatus
        rw [Option.map_some]
        have hobj : ∃ fields, (DeepResearchArtifact.codec.dump a).excludeNone = .obj fields :=
          ⟨_, rfl⟩
        obtain ⟨fields, hfields⟩ := hobj
        rw [hfields] at hpayload ⊢
        simp only [deepResearchSpecs, hpayload, hreport, hstatus, Option.bind_eq_bind,
          Option.bind_some]
        split <;> exact ⟨_, rfl⟩
  obtain ⟨research, hdeep⟩ := hdeep
  exact ⟨_, by rw [domainEventSpecs, hdeep, Option.map_some]⟩

/-- The stored digests are those of the stored payloads. -/
def EventLog.Hashed (hashing : Hashing) (log : EventLog) : Prop :=
  ∀ e ∈ log.events, e.payloadHash = hashing.payloadHash e.payload

theorem exists_pendingSpecs (hhashed : log.Hashed hashing)
    (hnew : ∀ e ∈ log.events, e.runId = source.runId →
      e.sourceDigest ≠ hashing.sha256 source.sourceEventKey)
    (specs : List (DomainEventSpec hashing)) :
    ∃ pending, log.pendingSpecs hashing source specs = .ok pending := by
  have hpending : ∀ spec, ∃ b, log.isPending hashing source spec = .ok b := by
    intro spec
    have hnone : log.stored source.runId
        (hashing.sha256 source.sourceEventKey, spec.eventType) = none := by
      by_contra hsome
      obtain ⟨e, he⟩ := Option.ne_none_iff_exists'.mp hsome
      obtain ⟨⟨hmem, hrun⟩, hkey⟩ := EventLog.stored_eq_some he
      exact hnew e hmem hrun (congrArg Prod.fst hkey)
    unfold EventLog.isPending
    rw [hnone]
    cases hlatest : log.latest source.runId spec.eventType with
    | none => exact ⟨true, rfl⟩
    | some e =>
        obtain ⟨⟨hmem, _⟩, _⟩ := EventLog.latest_eq_some hlatest
        dsimp only
        by_cases hsame : e.payloadHash = spec.payloadHash
        · rw [if_pos hsame, if_neg (not_not.mpr ((hhashed e hmem).symm.trans hsame))]
          exact ⟨false, rfl⟩
        · rw [if_neg hsame]
          exact ⟨true, rfl⟩
  induction specs with
  | nil => exact ⟨[], rfl⟩
  | cons spec specs ih =>
      obtain ⟨b, hb⟩ := hpending spec
      obtain ⟨rest, hrest⟩ := ih
      exact ⟨if b then spec :: rest else rest, by simp only [EventLog.pendingSpecs, hb, hrest]⟩

/-- Nothing stands in the way of the events of a first projection. -/
theorem exists_appendEventSpecs (hgapless : log.Gapless) (hkeys : log.KeysDistinct)
    (hhashed : log.Hashed hashing)
    (hnew : ∀ e ∈ log.events, e.runId = source.runId →
      e.sourceDigest ≠ hashing.sha256 source.sourceEventKey)
    {specs : List (DomainEventSpec hashing)} (htypes : (specs.map (·.eventType)).Nodup) :
    ∃ log', log.appendEventSpecs hashing source specs = .ok log' := by
  obtain ⟨pending, hpending⟩ := exists_pendingSpecs hhashed hnew specs
  have hintegrity : log.appendEventSpecs hashing source specs ≠ .error .integrity :=
    EventLog.appendEventSpecs_ne_integrity hgapless hkeys htypes
  unfold EventLog.appendEventSpecs at hintegrity ⊢
  simp only [hpending] at hintegrity ⊢
  split_ifs at hintegrity ⊢
  · exact ⟨_, rfl⟩
  · exact ⟨_, rfl⟩
  · exact absurd rfl hintegrity

end Events

section Projection

/-- A succeeded output answers a submission: it carries the one artifact that was asked for, and
the analysis is about the symbol and the horizon of the submission. -/
def TerminalGraphOutput.Answers (t : TerminalGraphOutput) : ProductSubmission → Prop
  | .analysis s => t.terminalStatus = .succeeded ∧ t.deepResearchArtifact = none ∧
      ∃ a, t.artifact = some a ∧ a.analysis.instrument = s.symbol ∧
        a.analysis.horizon.val = s.horizon.val
  | .deepResearch _ => t.terminalStatus = .succeeded ∧ t.artifact = none ∧
      ∃ a, t.deepResearchArtifact = some a

/-- The rows hold what the constraints of their tables and the log guarantee, the ids that are
drawn are new, and the output has not been projected to the run yet. -/
structure LockedRows.Ready (cfg : DispatcherConfig) (terminal : TerminalGraphOutput)
    (ids : CommitIds) (outcomes : List ScheduledOutcome) (l : LockedRows) : Prop where
  accepts : l.outputs.Accepts ids
  observed : ∀ o ∈ outcomes, o.artifactVersionId ≠ ids.version
  gapless : l.outputs.events.Gapless
  keys : l.outputs.events.KeysDistinct
  hashed : l.outputs.events.Hashed cfg.hashing
  first : ∀ e ∈ l.outputs.events.events, e.runId = l.run.id →
    e.sourceDigest ≠ cfg.hashing.sha256 s!"terminal:{outputHash cfg terminal}"

variable {cfg : DispatcherConfig} {lease : CommandLease} {terminal : TerminalGraphOutput}
  {now : ℕ} {ids : CommitIds} {outcomes : List ScheduledOutcome} {l : LockedRows}

variable (lease now) in
/-- All of a projection but the observation succeeds. -/
theorem exists_projectOutput (hresearch : AcceptsResearch cfg.models)
    (hready : l.Ready cfg terminal ids outcomes)
    (hone : terminal.artifact = none ∨ terminal.deepResearchArtifact = none) :
    ∃ l', TaskStore.projectOutput cfg lease terminal now ids l = some l' := by
  let run : RunRow := { l.run with
    outputPayload := some terminal.modelDump
    projectionFence := lease.commandSequence
    terminalOutputHash := some (outputHash cfg terminal)
    status := terminal.terminalStatus.runStatus
    finishedAt := some now
    failureCode := terminal.firstCode
    failureMessage := if terminal.errors.isEmpty then none else l.run.failureMessage }
  let receipts := appendRunUsageReceipts cfg.hashing l.outputs.receipts run
  have haccepts : Outputs.Accepts { l.outputs with receipts } ids := by
    obtain ⟨⟨hids, hnumbers, hversioned⟩, hdecided, hartifact, hversion, hdecision⟩ :=
      hready.accepts
    exact ⟨⟨hids, hnumbers, hversioned⟩, hdecided, hartifact, hversion, hdecision⟩
  obtain ⟨outputs, notification, hcommit, hevents⟩ :=
    commitTerminalArtifact_of_accepts haccepts l.task run.id terminal
  obtain ⟨specs, hspecs⟩ :=
    exists_domainEventSpecs cfg.hashing hresearch terminal notification
  have htypes : (specs.map (·.eventType)).Nodup := by
    apply domainEventSpecs_types hspecs
    rcases hone with hnone | hnone
    · left
      rw [terminal.get?_artifact, hnone]
      rfl
    · right
      rw [terminal.get?_deepResearchArtifact, hnone]
      rfl
  let source : EventSource :=
    ⟨run.id, s!"terminal:{outputHash cfg terminal}", none, run.checkpointId, now⟩
  have hlog : ∃ log, l.outputs.events.appendEventSpecs cfg.hashing source specs = .ok log :=
    exists_appendEventSpecs hready.gapless hready.keys hready.hashed hready.first htypes
  obtain ⟨log, hlog⟩ := hlog
  have happend : outputs.events.appendDomainEvents cfg.hashing cfg.models run.id
      terminal.modelDump notification run.checkpointId now = .ok log := by
    rw [hevents]
    simp only [EventLog.appendDomainEvents, hspecs]
    exact hlog
  refine ⟨{ l with
    task := l.task.terminalize terminal.terminalStatus now
    run
    outputs := { outputs with events := log } }, ?_⟩
  simp only [TaskStore.projectOutput, Option.bind_eq_bind]
  rw [show commitTerminalArtifact l.task _ ids _ terminal = _ from hcommit, Option.bind_some]
  dsimp only
  rw [show outputs.events.appendDomainEvents cfg.hashing cfg.models _ terminal.modelDump
    notification _ now = _ from happend]
  rfl

/-- The observation of a new version is stored just where the horizon is a duration. -/
theorem scheduleOutcome_isOk_iff (u : Text.UnicodeData) (task : TaskRow)
    (analysis : MarketAnalysis) (now : ℕ) {versionId : ℕ}
    (hnew : ∀ o ∈ outcomes, o.artifactVersionId ≠ versionId) :
    (∃ outcomes', scheduleOutcome u task analysis versionId now outcomes = .ok outcomes') ↔
      IsDuration u analysis.horizon.val now := by
  have hhorizon : outcomeHorizon task analysis = analysis.horizon.val := by
    have hne : analysis.horizon.val ≠ "" := by
      intro hempty
      have hpos := analysis.horizon.property
      rw [hempty] at hpos
      exact absurd hpos (by decide)
    rw [outcomeHorizon, if_pos hne]
  have hnone : (outcomes.any fun o => o.artifactVersionId == versionId &&
      o.row.horizon == analysis.horizon.val) = false := by
    rw [List.any_eq_false]
    intro o ho hsame
    exact hnew o ho (beq_iff_eq.mp (Bool.and_eq_true_iff.mp hsame).1)
  rw [← maturationAt_isOk_iff]
  simp only [scheduleOutcome, hhorizon, hnone]
  cases maturationAt u now analysis.horizon.val with
  | error error => simp
  | ok maturation => simp

/-- The rows of an admitted task whose run has come to its end. -/
def endedRows : LockedRows :=
  plainTask.store.lock (.new 1 (.submit plainTask.store.task.payload) "hash" 1 "submit")
    (RunRow.new 2 1 .running)

def endedLease : CommandLease where
  commandId := 1
  productRunId := some 2
  commandType := .submit
  commandSequence := 1
  workerId := "worker"
  fenceToken := 1
  taskType := .marketAnalysis
  submission := none
  remoteHandle := some plainHandle
  resumeHandle := none
  respondPayload := none
  forkSourceHandle := none
  forkPayload := none
  observedTerminalStatus := some .success
  submitReconcileOnly := false
  resumeReconcileOnly := false
  forkReconcileOnly := false

/-- Dumps of research are validated as they are. -/
def researchDispatcher : DispatcherConfig :=
  { plainDispatcher with models := { dumpModels with deepResearchArtifact := some } }

def horizonSubmission (horizon : BoundedText 1 32) : AnalysisSubmission :=
  ⟨.btcUsdtSwap, horizon, "!", false⟩

def horizonOutput (horizon : NonEmptyText) : TerminalGraphOutput :=
  { quietOutput with
    artifact := some { quietArtifact with analysis := quietAnalysis horizon }
    contract := rfl }

theorem endedRows_ready (terminal : TerminalGraphOutput) :
    endedRows.Ready researchDispatcher terminal ⟨4, 5, 6⟩ [] where
  accepts := ⟨⟨.nil, by rintro _ ⟨⟩, by rintro _ ⟨⟩⟩, by rintro _ ⟨⟩, by rintro _ ⟨⟩,
    by rintro _ ⟨⟩, by rintro _ ⟨⟩⟩
  observed := by rintro _ ⟨⟩
  gapless := ⟨1, le_refl 1, rfl, rfl⟩
  keys := .nil
  hashed := by rintro _ ⟨⟩
  first := by rintro _ ⟨⟩

end Projection

end CryptoAlert
