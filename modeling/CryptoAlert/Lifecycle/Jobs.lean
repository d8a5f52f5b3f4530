import CryptoAlert.Lib.Instants
import CryptoAlert.Lib.JsonText
import CryptoAlert.Lib.Sessions
import CryptoAlert.Lib.Table
import CryptoAlert.Projections.EventSpecs

/-!
# Exports and deletions of the data of an actor

An export collects the safe columns of the rows of an actor into a bundle, whose digest stands in
a manifest. A deletion erases these rows and asks the other systems to do the same. The policy
of the actor can hold deletions back. Instants are counted in microseconds.
-/

namespace CryptoAlert

/-- `DATA_LIFECYCLE_SYSTEMS`. -/
inductive LifecycleSystem where
  | productDb | objectStorage | checkpoint | store | search | langsmith | langfuse | logs | backups
deriving DecidableEq, Repr

namespace LifecycleSystem

def all : List LifecycleSystem :=
  [productDb, objectStorage, checkpoint, store, search, langsmith, langfuse, logs, backups]

/-- `DATA_LIFECYCLE_EXTERNAL_SYSTEMS`. -/
def external : List LifecycleSystem := all.filter fun system => system ≠ productDb

theorem mem_all (system : LifecycleSystem) : system ∈ all := by
  cases system <;> decide

/-- The systems whose retention the deployment owns. -/
def isRetained : LifecycleSystem → Bool
  | logs | backups => true
  | _ => false

end LifecycleSystem

inductive LifecycleOutcome where
  | succeeded | notApplicable | pendingExternal | pendingExpiry | failed
deriving DecidableEq, Repr

/-- What a deletion job says of a system. -/
inductive SystemStatus where
  | pending | blockedLegalHold
  | outcome (o : LifecycleOutcome)
deriving DecidableEq, Repr

/-- The status of every system. -/
abbrev SystemStatuses := LifecycleSystem → SystemStatus

instance : DecidableEq SystemStatuses := fun s t =>
  decidable_of_iff (∀ system ∈ LifecycleSystem.all, s system = t system)
    ⟨fun h => funext fun system => h system system.mem_all, fun h _ _ => by rw [h]⟩

inductive ExportStatus where
  | queued | running | succeeded | failed
deriving DecidableEq, Repr

inductive DeletionStatus where
  | queued | running | pendingExternal | succeeded | blockedLegalHold | failed
deriving DecidableEq, Repr

inductive LifecycleError where
  | manifestInvalid | manifestTampered | bundleTampered | idempotencyConflict
  | legalHoldReasonRequired | invalidDeletionConfirmation
deriving DecidableEq, Repr

namespace LifecycleError

def code : LifecycleError → String
  | manifestInvalid => "manifest_invalid"
  | manifestTampered => "manifest_tampered"
  | bundleTampered => "bundle_tampered"
  | idempotencyConflict => "idempotency_conflict"
  | legalHoldReasonRequired => "legal_hold_reason_required"
  | invalidDeletionConfirmation => "invalid_deletion_confirmation"

end LifecycleError

/-- A row of `data_lifecycle_policies`; the defaults are `DEFAULT_POLICY`. -/
structure DataLifecyclePolicy where
  productRetentionDays : ℕ := 365
  artifactRetentionDays : ℕ := 365
  taskRetentionDays : ℕ := 365
  runRetentionDays : ℕ := 365
  decisionRetentionDays : ℕ := 365
  usageRetentionDays : ℕ := 365
  completedCheckpointRetentionDays : ℕ := 30
  technicalProjectionRetentionDays : ℕ := 30
  logRetentionDays : ℕ := 30
  backupRetentionDays : ℕ := 35
  retainRawPrompt : Bool := false
  retainRawResponse : Bool := false
  legalHoldActive : Bool := false
  legalHoldReason : Option String := none
deriving DecidableEq

/-- The policy as it stands in a bundle. -/
def DataLifecyclePolicy.toJson (policy : DataLifecyclePolicy) : Json :=
  .obj [("product_retention_days", .num policy.productRetentionDays),
    ("artifact_retention_days", .num policy.artifactRetentionDays),
    ("task_retention_days", .num policy.taskRetentionDays),
    ("run_retention_days", .num policy.runRetentionDays),
    ("decision_retention_days", .num policy.decisionRetentionDays),
    ("usage_retention_days", .num policy.usageRetentionDays),
    ("completed_checkpoint_retention_days", .num policy.completedCheckpointRetentionDays),
    ("technical_projection_retention_days", .num policy.technicalProjectionRetentionDays),
    ("log_retention_days", .num policy.logRetentionDays),
    ("backup_retention_days", .num policy.backupRetentionDays),
    ("retain_raw_prompt", .bool policy.retainRawPrompt),
    ("retain_raw_response", .bool policy.retainRawResponse),
    ("legal_hold_active", .bool policy.legalHoldActive),
    ("legal_hold_reason", policy.legalHoldReason.elim .null .str)]

structure DataLifecyclePolicyUpdate where
  productRetentionDays : Option ℕ := none
  artifactRetentionDays : Option ℕ := none
  taskRetentionDays : Option ℕ := none
  runRetentionDays : Option ℕ := none
  decisionRetentionDays : Option ℕ := none
  usageRetentionDays : Option ℕ := none
  completedCheckpointRetentionDays : Option ℕ := none
  technicalProjectionRetentionDays : Option ℕ := none
  logRetentionDays : Option ℕ := none
  backupRetentionDays : Option ℕ := none
  retainRawPrompt : Option Bool := none
  retainRawResponse : Option Bool := none
  legalHoldActive : Option Bool := none
  legalHoldReason : Option String := none

namespace DataLifecyclePolicyUpdate

/-- The bounds of the fields and `validate_legal_hold`. -/
def isValid (u : DataLifecyclePolicyUpdate) : Bool :=
  ([u.productRetentionDays, u.artifactRetentionDays, u.taskRetentionDays, u.runRetentionDays,
    u.decisionRetentionDays, u.usageRetentionDays, u.completedCheckpointRetentionDays,
    u.technicalProjectionRetentionDays, u.logRetentionDays, u.backupRetentionDays].all fun days =>
      days.all fun n => 1 ≤ n ∧ n ≤ 3650) &&
  (u.legalHoldReason.all fun reason => 1 ≤ reason.length ∧ reason.length ≤ 500) &&
  !(u.legalHoldActive = some false && u.legalHoldReason.isSome) &&
  !(u.legalHoldActive = some true && u.legalHoldReason.isNone)

/-- The fields of the policy that the update sets. -/
def apply (u : DataLifecyclePolicyUpdate) (policy : DataLifecyclePolicy) : DataLifecyclePolicy where
  productRetentionDays := u.productRetentionDays.getD policy.productRetentionDays
  artifactRetentionDays := u.artifactRetentionDays.getD policy.artifactRetentionDays
  taskRetentionDays := u.taskRetentionDays.getD policy.taskRetentionDays
  runRetentionDays := u.runRetentionDays.getD policy.runRetentionDays
  decisionRetentionDays := u.decisionRetentionDays.getD policy.decisionRetentionDays
  usageRetentionDays := u.usageRetentionDays.getD policy.usageRetentionDays
  completedCheckpointRetentionDays :=
    u.completedCheckpointRetentionDays.getD policy.completedCheckpointRetentionDays
  technicalProjectionRetentionDays :=
    u.technicalProjectionRetentionDays.getD policy.technicalProjectionRetentionDays
  logRetentionDays := u.logRetentionDays.getD policy.logRetentionDays
  backupRetentionDays := u.backupRetentionDays.getD policy.backupRetentionDays
  retainRawPrompt := u.retainRawPrompt.getD policy.retainRawPrompt
  retainRawResponse := u.retainRawResponse.getD policy.retainRawResponse
  legalHoldActive := u.legalHoldActive.getD policy.legalHoldActive
  legalHoldReason := u.legalHoldReason.or policy.legalHoldReason

end DataLifecyclePolicyUpdate

/-- `update_policy` on the policy row, which `_ensure_policy` adds where it is missing. -/
def updatePolicy (policy : Option DataLifecyclePolicy) (u : DataLifecyclePolicyUpdate) :
    Except LifecycleError DataLifecyclePolicy :=
  let policy := u.apply (policy.getD {})
  if policy.legalHoldActive then
    if policy.legalHoldReason.all String.isEmpty then .error .legalHoldReasonRequired
    else .ok policy
  else .ok { policy with legalHoldReason := none }

open JsonText in
def scalarJson : Scalar → Json
  | .text s => .str (String.ofList s)
  | .int n => .num n
  | .bool b => .bool b
  | .null => .null

/-- A row of one of the tables that are scoped to an actor. -/
structure ProductRow where
  table : String
  id : ℕ
  owner : ℕ
  columns : List (String × JsonText.Scalar)
deriving DecidableEq

/-- `_SAFE_EXPORT_FIELDS` without the id. -/
def safeExportFields : List String :=
  ["created_at", "updated_at", "status", "task_type", "symbol", "horizon", "kind", "channel",
    "attempt", "attempt_count", "version", "version_number", "decision_version", "scope",
    "provider", "unit"]

/-- A row in a bundle. -/
structure SafeRow where
  id : ℕ
  columns : List (String × JsonText.Scalar)
deriving DecidableEq

namespace SafeRow

def ofRow (row : ProductRow) : SafeRow where
  id := row.id
  columns := row.columns.filter fun (name, value) => safeExportFields.contains name && value ≠ .null

def toJson (row : SafeRow) : Json :=
  .obj (("id", .str (toString row.id)) ::
    row.columns.map fun (name, value) => (name, scalarJson value))

end SafeRow

abbrev ExportRecords := List (String × List SafeRow)

/-- The bundle that `build_export_payload` collects. -/
structure ExportBundle where
  exportId : ℕ
  generatedAt : ℕ
  records : ExportRecords
  policy : DataLifecyclePolicy
deriving DecidableEq

def isoformat (moment : ℕ) : String := String.ofList (Calendar.parts moment).text

def ExportBundle.toJson (bundle : ExportBundle) : Json :=
  .obj [("bundle_version", .num 1), ("export_id", .str (toString bundle.exportId)),
    ("scope", .str "user_data"), ("generated_at", .str (isoformat bundle.generatedAt)),
    ("records", .obj (bundle.records.map fun (table, rows) =>
      (table, .arr (rows.map SafeRow.toJson)))),
    ("policy", bundle.policy.toJson)]

/-- What the column `bundle` of an export job holds: a bundle or the mark of a deletion. -/
inductive StoredBundle where
  | exported (bundle : ExportBundle)
  | scrubbed
deriving DecidableEq

namespace StoredBundle

def toJson : StoredBundle → Json
  | exported bundle => bundle.toJson
  | scrubbed => .obj [("deleted", .bool true), ("reason", .str "user_data_deletion")]

/-- The bundle holds the row of a table. -/
def Holds (bundle : StoredBundle) (table : String) (id : ℕ) : Prop :=
  match bundle with
  | exported b => ∃ rows, (table, rows) ∈ b.records ∧ ∃ row ∈ rows, row.id = id
  | scrubbed => False

end StoredBundle

structure ExportManifest where
  manifestVersion : ℕ := 1
  exportId : ℕ
  generatedAt : ℕ
  bundleSha256 : String
  tables : List (String × ℕ × String)
deriving DecidableEq

def ExportManifest.toJson (manifest : ExportManifest) : Json :=
  .obj [("manifest_version", .num manifest.manifestVersion),
    ("export_id", .str (toString manifest.exportId)), ("scope", .str "user_data"),
    ("generated_at", .str (isoformat manifest.generatedAt)),
    ("bundle_sha256", .str manifest.bundleSha256),
    ("tables", .obj (manifest.tables.map fun (table, count, digest) =>
      (table, .obj [("row_count", .num count), ("records_sha256", .str digest)])))]

/-- A row of `data_export_jobs`. -/
structure DataExportJob where
  id : ℕ
  owner : ℕ
  idempotencyKey : String
  requestPayloadHash : String
  status : ExportStatus := .queued
  leaseOwner : Option String := none
  leaseExpiresAt : Option ℕ := none
  attempt : ℕ := 0
  availableAt : ℕ
  requestedAt : ℕ
  completedAt : Option ℕ := none
  expiredAt : Option ℕ := none
  manifestVersion : Option ℕ := none
  manifest : Option ExportManifest := none
  manifestHash : Option String := none
  bundle : Option StoredBundle := none
  lastError : Option String := none
deriving DecidableEq

/-- A row of `data_deletion_jobs`. -/
structure DataDeletionJob where
  id : ℕ
  owner : ℕ
  idempotencyKey : String
  requestPayloadHash : String
  confirmationHash : String
  status : DeletionStatus
  leaseOwner : Option String := none
  leaseExpiresAt : Option ℕ := none
  attempt : ℕ := 0
  availableAt : ℕ
  requestedAt : ℕ
  completedAt : Option ℕ := none
  legalHoldActive : Bool
  legalHoldReason : Option String
  systemStatus : SystemStatuses
  lastError : Option String := none

inductive ReceiptPhase where
  | delete | survivorScan | retentionQueue
deriving DecidableEq, Repr

/-- A row of `data_deletion_receipts`. -/
structure DataDeletionReceipt where
  jobId : ℕ
  system : LifecycleSystem
  phase : ReceiptPhase
  attempt : ℕ
  outcome : LifecycleOutcome
  affectedCount : ℕ
  survivorCount : ℕ
  reference : Option ℕ := none
  observedAt : ℕ
deriving DecidableEq

section

variable (hashing : Hashing)

/-- `compute_manifest_hash`. -/
def computeManifestHash (manifest : ExportManifest) : String := hashing.payloadHash manifest.toJson

/-- `validate_manifest_hash`. -/
def validateManifestHash (manifest : ExportManifest) (expected : String)
    (bundle : Option StoredBundle) : Except LifecycleError Unit :=
  if manifest.manifestVersion ≠ 1 then .error .manifestInvalid
  else if hashing.sha256 expected ≠ hashing.sha256 (computeManifestHash hashing manifest) then
    .error .manifestTampered
  else match bundle with
    | none => .ok ()
    | some bundle =>
        if manifest.bundleSha256 ≠ hashing.payloadHash bundle.toJson then .error .bundleTampered
        else .ok ()

/-- The result of `build_export_payload` for the records it has read. -/
def buildExportPayload (job : DataExportJob) (records : ExportRecords)
    (policy : Option DataLifecyclePolicy) (now : ℕ) : ExportBundle × ExportManifest × String :=
  let bundle : ExportBundle :=
    { exportId := job.id, generatedAt := now, records, policy := policy.getD {} }
  let manifest : ExportManifest :=
    { exportId := job.id
      generatedAt := bundle.generatedAt
      bundleSha256 := hashing.payloadHash bundle.toJson
      tables := records.map fun (table, rows) =>
        (table, rows.length, hashing.payloadHash (.arr (rows.map SafeRow.toJson))) }
  (bundle, manifest, computeManifestHash hashing manifest)

structure ExportBundleView where
  exportId : ℕ
  status : ExportStatus
  manifestVersion : Option ℕ
  manifestHash : Option String
  bundle : Option StoredBundle

/-- `get_export_bundle`. -/
def getExportBundle (jobs : List DataExportJob) (actor exportId : ℕ) :
    Except LifecycleError (Option ExportBundleView) :=
  match jobs.find? fun job => job.id == exportId && job.owner == actor with
  | none => .ok none
  | some job => do
      if let (.succeeded, some manifest, some hash) := (job.status, job.manifest, job.manifestHash)
      then
        unless hash.isEmpty do validateManifestHash hashing manifest hash job.bundle
      return some ⟨job.id, job.status, job.manifestVersion, job.manifestHash, job.bundle⟩

/-- `create_export`: the jobs and the id of the job that the caller sees. -/
def createExport (jobs : List DataExportJob) (actor id : ℕ) (idempotencyKey : String) (now : ℕ) :
    Except LifecycleError (List DataExportJob × ℕ) :=
  let payloadHash := hashing.payloadHash (.obj [("scope", .str "user_data")])
  match jobs.find? fun job => job.owner == actor && job.idempotencyKey == idempotencyKey with
  | some existing =>
      if existing.requestPayloadHash ≠ payloadHash then .error .idempotencyConflict
      else .ok (jobs, existing.id)
  | none =>
      let job : DataExportJob :=
        { id
          owner := actor
          idempotencyKey
          requestPayloadHash := payloadHash
          availableAt := now
          requestedAt := now }
      .ok (jobs ++ [job], id)

/-- `create_deletion`: the jobs, the policy of the actor, which is added where it is missing, and
the id of the job that the caller sees. -/
def createDeletion (jobs : List DataDeletionJob) (policy : Option DataLifecyclePolicy)
    (actor id : ℕ) (confirmation idempotencyKey : String) (now : ℕ) :
    Except LifecycleError (List DataDeletionJob × Option DataLifecyclePolicy × ℕ) :=
  let payloadHash := hashing.payloadHash (.obj [("scope", .str "user_data")])
  if confirmation ≠ "DELETE MY DATA" then .error .invalidDeletionConfirmation
  else match jobs.find? fun job => job.owner == actor && job.idempotencyKey == idempotencyKey with
    | some existing =>
        if existing.requestPayloadHash ≠ payloadHash then .error .idempotencyConflict
        else .ok (jobs, policy, existing.id)
    | none =>
        let policy := policy.getD {}
        let held := policy.legalHoldActive
        let job : DataDeletionJob :=
          { id
            owner := actor
            idempotencyKey
            requestPayloadHash := payloadHash
            confirmationHash := hashing.sha256 confirmation
            status := if held then .blockedLegalHold else .queued
            availableAt := now
            requestedAt := now
            legalHoldActive := held
            legalHoldReason := policy.legalHoldReason
            systemStatus := fun _ => if held then .blockedLegalHold else .pending }
        .ok (jobs ++ [job], some policy, id)

end

end CryptoAlert
