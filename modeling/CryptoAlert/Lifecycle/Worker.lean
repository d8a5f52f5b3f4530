import CryptoAlert.Lifecycle.Jobs

/-!
# What the lifecycle worker writes

A job is held by the worker that claimed it last. The transactions of the worker load a job that
it holds, and what they change in the loaded copy is sent when they commit.
-/

namespace CryptoAlert

/-- What an adapter says of a deletion or of a scan for survivors; the reference of a retained
system is the moment from which it may be gone. -/
structure LifecycleAdapterResult where
  outcome : LifecycleOutcome
  affectedCount : ℕ := 0
  survivorCount : ℕ := 0
  reference : Option ℕ := none
deriving DecidableEq

namespace LifecycleSystem

def name : LifecycleSystem → String
  | productDb => "product_db"
  | objectStorage => "object_storage"
  | checkpoint => "checkpoint"
  | store => "store"
  | search => "search"
  | langsmith => "langsmith"
  | langfuse => "langfuse"
  | logs => "logs"
  | backups => "backups"

/-- The systems in the order of their names. -/
def sorted : List LifecycleSystem :=
  [backups, checkpoint, langfuse, langsmith, logs, objectStorage, productDb, search, store]

end LifecycleSystem

/-- `_system_outcome`. -/
def systemOutcome (deletion scan : LifecycleAdapterResult) : LifecycleOutcome :=
  if deletion.outcome = .failed ∨ scan.outcome = .failed then .failed
  else if deletion.outcome = .pendingExternal ∨ deletion.outcome = .pendingExpiry then
    deletion.outcome
  else if scan.outcome = .pendingExternal ∨ scan.outcome = .pendingExpiry then scan.outcome
  else if deletion.outcome = .notApplicable ∧ scan.outcome = .notApplicable then .notApplicable
  else .succeeded

/-- The text of an error, cut to its column. -/
def lifecycleError (errorType what : String) : String :=
  String.ofList ((errorType ++ ": lifecycle " ++ what ++ " failed").toList.take 500)

namespace DataExportJob

/-- The condition of `_claim`. -/
def isDue (job : DataExportJob) (now : ℕ) : Bool :=
  job.availableAt ≤ now && (job.status = .queued ||
    (job.status = .running && job.leaseExpiresAt.all fun expires => expires ≤ now))

def claim (job : DataExportJob) (worker : String) (leaseUntil : ℕ) : DataExportJob :=
  { job with
    status := .running
    leaseOwner := some worker
    leaseExpiresAt := some leaseUntil
    attempt := job.attempt + 1 }

def isHeldBy (job : DataExportJob) (worker : String) : Bool :=
  job.status = .running && job.leaseOwner = some worker

/-- What `_process_export` makes of the job. -/
def complete (job : DataExportJob) (payload : ExportBundle × ExportManifest × String) (now : ℕ) :
    DataExportJob :=
  { job with
    status := .succeeded
    leaseOwner := none
    leaseExpiresAt := none
    completedAt := some now
    expiredAt := some (now + 7 * Calendar.day)
    manifestVersion := some payload.2.1.manifestVersion
    manifest := some payload.2.1
    manifestHash := some payload.2.2
    bundle := some (.exported payload.1)
    lastError := none }

def fail (job : DataExportJob) (errorType : String) : DataExportJob :=
  { job with
    status := .failed
    leaseOwner := none
    leaseExpiresAt := none
    lastError := some (lifecycleError errorType "export") }

def release (job : DataExportJob) (now : ℕ) : DataExportJob :=
  { job with
    status := .queued
    leaseOwner := none
    leaseExpiresAt := none
    availableAt := now }

/-- What a deletion leaves of the job. -/
def scrub (job : DataExportJob) (now : ℕ) : DataExportJob :=
  { job with bundle := some .scrubbed, expiredAt := some now }

/-- The row after a flush of the copy `new`, which was loaded as `loaded`. -/
def flush (loaded new row : DataExportJob) : DataExportJob :=
  { row with
    status := sent loaded.status new.status row.status
    leaseOwner := sent loaded.leaseOwner new.leaseOwner row.leaseOwner
    leaseExpiresAt := sent loaded.leaseExpiresAt new.leaseExpiresAt row.leaseExpiresAt
    completedAt := sent loaded.completedAt new.completedAt row.completedAt
    expiredAt := sent loaded.expiredAt new.expiredAt row.expiredAt
    manifestVersion := sent loaded.manifestVersion new.manifestVersion row.manifestVersion
    manifest := sent loaded.manifest new.manifest row.manifest
    manifestHash := sent loaded.manifestHash new.manifestHash row.manifestHash
    bundle := sent loaded.bundle new.bundle row.bundle
    lastError := sent loaded.lastError new.lastError row.lastError }

end DataExportJob

namespace DataDeletionJob

/-- The condition of `_claim`. -/
def isDue (job : DataDeletionJob) (now : ℕ) : Bool :=
  job.availableAt ≤ now && (job.status = .queued ||
    (job.status = .running && job.leaseExpiresAt.all fun expires => expires ≤ now))

def claim (job : DataDeletionJob) (worker : String) (leaseUntil : ℕ) : DataDeletionJob :=
  { job with
    status := .running
    leaseOwner := some worker
    leaseExpiresAt := some leaseUntil
    attempt := job.attempt + 1 }

def isHeldBy (job : DataDeletionJob) (worker : String) : Bool :=
  job.status = .running && job.leaseOwner = some worker

/-- What `_process_deletion` makes of a job whose actor has an active legal hold. -/
def block (job : DataDeletionJob) (reason : Option String) : DataDeletionJob :=
  { job with
    status := .blockedLegalHold
    legalHoldActive := true
    legalHoldReason := reason
    systemStatus := fun _ => .blockedLegalHold
    leaseOwner := none
    leaseExpiresAt := none }

/-- What the scan for rows of the actor says. -/
def productScan (survivors : ℕ) : LifecycleAdapterResult where
  outcome := if survivors = 0 then .succeeded else .failed
  survivorCount := survivors

/-- What the erasure of the product rows makes of the job. -/
def erase (job : DataDeletionJob) (deletion scan : LifecycleAdapterResult) (leaseUntil : ℕ) :
    DataDeletionJob :=
  let job := { job with
    systemStatus := Function.update (fun _ => .pending) .productDb
      (.outcome (systemOutcome deletion scan))
    lastError := none
    leaseExpiresAt := some leaseUntil }
  if scan.survivorCount = 0 then job
  else { job with
    status := .failed
    lastError := some "Product survivor scan found actor-owned rows"
    leaseOwner := none
    leaseExpiresAt := none }

/-- What `_record_adapter_result` makes of the job. -/
def record (job : DataDeletionJob) (system : LifecycleSystem)
    (deletion scan : LifecycleAdapterResult) (leaseUntil : ℕ) : DataDeletionJob :=
  { job with
    systemStatus := Function.update job.systemStatus system (.outcome (systemOutcome deletion scan))
    leaseExpiresAt := some leaseUntil }

/-- A status that leaves a system unresolved. -/
def isUnresolved (status : SystemStatus) : Bool :=
  [.outcome .pendingExternal, .outcome .pendingExpiry, .pending].contains status

/-- What the last transaction of `_process_deletion` makes of the job. -/
def finish (job : DataDeletionJob) (now : ℕ) : DataDeletionJob :=
  let job := { job with leaseOwner := none, leaseExpiresAt := none }
  if LifecycleSystem.all.any fun system => job.systemStatus system = .outcome .failed then
    { job with
      status := .failed
      lastError := some "one or more lifecycle survivor scans failed" }
  else
    let unresolved := LifecycleSystem.sorted.filter fun system =>
      isUnresolved (job.systemStatus system)
    if unresolved ≠ [] then
      { job with
        status := .pendingExternal
        lastError := some ("unresolved lifecycle systems: " ++
          ", ".intercalate (unresolved.map LifecycleSystem.name)) }
    else { job with status := .succeeded, completedAt := some now, lastError := none }

def fail (job : DataDeletionJob) (errorType : String) : DataDeletionJob :=
  { job with
    status := .failed
    leaseOwner := none
    leaseExpiresAt := none
    lastError := some (lifecycleError errorType "deletion") }

def release (job : DataDeletionJob) (now : ℕ) : DataDeletionJob :=
  { job with
    status := .queued
    leaseOwner := none
    leaseExpiresAt := none
    availableAt := now }

/-- The row after a flush of the copy `new`, which was loaded as `loaded`. -/
def flush (loaded new row : DataDeletionJob) : DataDeletionJob :=
  { row with
    status := sent loaded.status new.status row.status
    leaseOwner := sent loaded.leaseOwner new.leaseOwner row.leaseOwner
    leaseExpiresAt := sent loaded.leaseExpiresAt new.leaseExpiresAt row.leaseExpiresAt
    completedAt := sent loaded.completedAt new.completedAt row.completedAt
    legalHoldActive := sent loaded.legalHoldActive new.legalHoldActive row.legalHoldActive
    legalHoldReason := sent loaded.legalHoldReason new.legalHoldReason row.legalHoldReason
    systemStatus := sent loaded.systemStatus new.systemStatus row.systemStatus
    lastError := sent loaded.lastError new.lastError row.lastError }

/-- `_append_receipt`, which leaves a receipt of the same attempt as it is. -/
def appendReceipt (job : DataDeletionJob) (receipts : List DataDeletionReceipt)
    (system : LifecycleSystem) (phase : ReceiptPhase) (result : LifecycleAdapterResult)
    (observedAt : ℕ) : List DataDeletionReceipt :=
  if receipts.any fun receipt => receipt.jobId == job.id && receipt.system == system &&
      receipt.phase == phase && receipt.attempt == job.attempt then receipts
  else receipts ++
    [{ jobId := job.id
       system
       phase
       attempt := job.attempt
       outcome := result.outcome
       affectedCount := result.affectedCount
       survivorCount := result.survivorCount
       reference := result.reference
       observedAt }]

/-- The two receipts of a system. -/
def appendReceipts (job : DataDeletionJob) (receipts : List DataDeletionReceipt)
    (system : LifecycleSystem) (phase : ReceiptPhase) (deletion scan : LifecycleAdapterResult)
    (observedAt : ℕ) : List DataDeletionReceipt :=
  job.appendReceipt (job.appendReceipt receipts system phase deletion observedAt) system
    .survivorScan scan observedAt

end DataDeletionJob

end CryptoAlert
