import CryptoAlert.Persistence.UsageReceipts

/-!
# Persisting the terminal output of a run

The run takes the status, the dump and the hash of the output, along with the fence under which
it was projected; the usage receipts and the domain events follow in the same transaction. A
succeeded run also commits a version of the artifact of its task.
-/

namespace CryptoAlert

/-- What the workers are configured with, next to the text functions that they share. -/
structure DispatcherConfig where
  unicode : Text.UnicodeData
  hashing : Hashing
  models : PayloadModels
  leaseSeconds : ℕ
  maxAttempts : ℕ
  maxCancelAttempts : ℕ
  maxCancelSeconds : ℕ
  reconciliationInterval : ℕ
  maxRunSeconds : ℕ
  interruptTtlSeconds : ℕ
  attempts_pos : 1 ≤ maxAttempts ∧ 1 ≤ maxCancelAttempts

def OutputStatus.runStatus : OutputStatus → RunStatus
  | succeeded => .succeeded
  | blocked => .blocked
  | failed => .failed
  | cancelled => .cancelled

/-- The rows that every terminal projection writes. -/
structure ProjectedRows where
  task : TaskRow
  run : RunRow
  outputs : Outputs

/-- The attempt number that an error record may carry. -/
def clampedAttempt (attempt : ℕ) : ℕ := max 1 (min attempt 100)

/-- A failed output with one error record; `none` where its validation raises. -/
def failedTerminalOutput (code errorType : String) (retryable : Bool) (attempt : Option ℕ) :
    Option TerminalGraphOutput := do
  let code ← ErrorCode.of? code
  let errorType ← NameText.of? 128 errorType
  let attempt ← validateOptional AttemptNumber.of? (attempt.map fun n => (clampedAttempt n : ℤ))
  return {
    terminalStatus := .failed
    marketSnapshot := none
    webEvidence := []
    artifact := none
    deepResearchArtifact := none
    errors := [{
      code, retryable, provider := none, errorType := some errorType, attempt,
      endpoint := none, fallbackFrom := none, primaryAttempt := none, correlationId := none,
      field := none, expected := none, actual := none }]
    contract := ⟨rfl, rfl, by simp⟩ }

def cancelledOutput : TerminalGraphOutput where
  terminalStatus := .cancelled
  marketSnapshot := none
  webEvidence := []
  artifact := none
  deepResearchArtifact := none
  errors := []
  contract := trivial

/-- The code of the first error of an output. -/
def TerminalGraphOutput.firstCode (t : TerminalGraphOutput) : Option String :=
  t.errors.head?.map fun e => e.code.val.text

section Persist

variable (cfg : DispatcherConfig)

def outputHash (t : TerminalGraphOutput) : String := cfg.hashing.payloadHash t.modelDump

/-- The task that takes over the status of a terminal output. -/
def TaskRow.terminalize (task : TaskRow) (status : OutputStatus) (now : ℕ) : TaskRow :=
  { task with status := status.runStatus, completedAt := some now }

/-- `_persist_terminal_run`. -/
def persistTerminalRun (rows : ProjectedRows) (terminal : TerminalGraphOutput)
    (now fence : ℕ) (terminalizeTask : Bool) (message : Option String) : Option ProjectedRows :=
  let run : RunRow := { rows.run with
    status := terminal.terminalStatus.runStatus
    outputPayload := some terminal.modelDump
    finishedAt := some now
    projectionFence := fence
    terminalOutputHash := some (outputHash cfg terminal)
    failureCode := terminal.firstCode
    failureMessage := if terminal.errors.isEmpty then none else message }
  match rows.outputs.events.appendDomainEvents cfg.hashing cfg.models run.id terminal.modelDump
      none run.checkpointId now with
  | .error _ => none
  | .ok events => some {
      task := if terminalizeTask then rows.task.terminalize terminal.terminalStatus now
        else rows.task
      run
      outputs := { rows.outputs with
        events, receipts := appendRunUsageReceipts cfg.hashing rows.outputs.receipts run } }

/-- `_persist_failed_terminal_run`. -/
def persistFailedTerminalRun (rows : ProjectedRows) (failureCode errorType : String)
    (retryable : Bool) (now fence : ℕ) (message : String) (attempt : Option ℕ) :
    Option ProjectedRows :=
  (failedTerminalOutput failureCode errorType retryable attempt).bind fun terminal =>
    persistTerminalRun cfg rows terminal now fence true (some message)

end Persist

section Artifacts

/-- The ids that a commit draws for the rows it inserts. -/
structure CommitIds where
  artifact : ℕ
  version : ℕ
  decision : ℕ
deriving DecidableEq

/-- The artifact of a type, inserted where the task has none. -/
def Outputs.artifactFor (o : Outputs) (type : ArtifactType) (id : ℕ) :
    Option (Outputs × ArtifactRow) :=
  match o.artifacts.find? fun a => a.artifactType == type with
  | some artifact => some (o, artifact)
  | none =>
      let artifact : ArtifactRow := ⟨id, type, 0⟩
      (Table.insert ArtifactRow.id o.artifacts artifact).map fun artifacts =>
        ({ o with artifacts }, artifact)

/-- `commit_version`. -/
def Outputs.commitVersion (o : Outputs) (type : ArtifactType) (ids : CommitIds) (runId : ℕ)
    (content : Json) : Option (Outputs × ArtifactVersion) := do
  let (o, artifact) ← o.artifactFor type ids.artifact
  let ofArtifact := o.versions.filter fun v => v.artifactId == artifact.id
  let versionNumber := Table.maxOf ArtifactVersion.versionNumber ofArtifact + 1
  let version : ArtifactVersion := ⟨ids.version, artifact.id, runId, versionNumber, content⟩
  let versions ← Table.insert ArtifactVersion.id o.versions version
  let artifacts := Table.put ArtifactRow.id o.artifacts
    { artifact with latestVersionNumber := versionNumber }
  return ({ o with artifacts, versions }, version)

/-- `commit_version_and_decision`; the parts of the decision are read off the content. -/
def Outputs.commitVersionAndDecision (o : Outputs) (ids : CommitIds) (runId : ℕ)
    (content : Json) : Option (Outputs × DecisionRow) := do
  let decision ← content.get? "analysis"
  let evidenceVerdict ← content.get? "evidence_verdict"
  let riskVerdict ← content.get? "risk_verdict"
  let (o, version) ← o.commitVersion .analysisReport ids runId content
  let row : DecisionRow := ⟨ids.decision, version.artifactId, version.id, runId,
    version.versionNumber, decision, evidenceVerdict, riskVerdict⟩
  if o.decisions.any fun d => d.artifactVersionId == row.artifactVersionId ||
      (d.artifactId == row.artifactId && d.decisionVersion == row.decisionVersion) then none
  else
    let decisions ← Table.insert DecisionRow.id o.decisions row
    return ({ o with decisions }, row)

def Json.boolAt (key : String) (j : Json) : Bool :=
  match j.get? key with
  | some (.bool b) => b
  | _ => false

/-- The payload of the event that announces a planned notification. -/
def notificationEventPayload (task : TaskRow) (row : DecisionRow) : Option Json := do
  let instrument ← row.decision.textAt "instrument"
  let action ← row.decision.textAt "main_action"
  return .obj [("title", .str s!"{instrument} analysis complete"), ("body", .str action),
    ("task_id", .str (toString task.id)), ("run_id", .str (toString row.runId)),
    ("artifact_id", .str (toString row.artifactId)),
    ("artifact_version_id", .str (toString row.artifactVersionId)),
    ("decision_id", .str (toString row.id)),
    ("decision_version", .num row.decisionVersion), ("instrument", .str instrument),
    ("action", .str action), ("risk_allowed", .bool (row.riskVerdict.boolAt "allowed"))]

/-- Commits the artifact of a succeeded output; with it comes the payload of the notification
that the task asked for. -/
def commitTerminalArtifact (task : TaskRow) (o : Outputs) (ids : CommitIds) (runId : ℕ)
    (terminal : TerminalGraphOutput) : Option (Outputs × Option Json) :=
  if terminal.terminalStatus = .succeeded then
    match terminal.artifact, terminal.deepResearchArtifact with
    | some artifact, _ => do
        let (o, row) ← o.commitVersionAndDecision ids runId (Artifact.codec.dump artifact)
        if task.payload.boolAt "notify" then
          let payload ← notificationEventPayload task row
          return (o, some payload)
        else return (o, none)
    | none, some artifact =>
        (o.commitVersion .deepResearchReport ids runId
          (DeepResearchArtifact.codec.dump artifact)).map fun (o, _) => (o, none)
    | none, none => some (o, none)
  else some (o, none)

end Artifacts

end CryptoAlert
