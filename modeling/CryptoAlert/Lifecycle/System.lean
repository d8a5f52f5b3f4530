import CryptoAlert.Lib.Transition
import CryptoAlert.Lifecycle.Worker

/-!
# Exports and deletions in any interleaving

The committed tables and what every worker is doing. A statement of a transaction reads what is
committed; what a transaction writes is committed at its end, and until then it locks the rows
that it has erased or scrubbed. Between two steps of a worker anything else may happen.
-/

namespace CryptoAlert

structure LifecycleConfig where
  hashing : Hashing
  /-- The tables that are scoped to an actor, in the order of the metadata. -/
  tables : List String
  workers : List String
  leaseSeconds : ℕ
  /-- The systems for which a worker has an adapter. -/
  adapters : String → LifecycleSystem → Bool

def LifecycleConfig.leaseUntil (cfg : LifecycleConfig) (now : ℕ) : ℕ :=
  now + cfg.leaseSeconds * Calendar.second

def LifecycleConfig.others (cfg : LifecycleConfig) (worker : String) : List String :=
  cfg.workers.filter fun other => other ≠ worker

/-- A deletion behind its first transaction, with the external systems that are left. -/
structure DeletionCourse where
  jobId : ℕ
  owner : ℕ
  policy : Option DataLifecyclePolicy
  systems : List LifecycleSystem

/-- Where a worker stands. A job that is held as an argument was loaded by the transaction that
is open. -/
inductive LifecycleActivity where
  | idle
  | exportClaimed (jobId : ℕ)
  | exporting (job : DataExportJob) (pending : List String) (records : ExportRecords)
  | exportRaised (jobId : ℕ) (errorType : String)
  | deletionClaimed (jobId : ℕ)
  | checkingHold (job : DataDeletionJob)
  | blocking (job : DataDeletionJob) (reason : Option String)
  | erasing (job : DataDeletionJob) (policy : Option DataLifecyclePolicy) (pending : List String)
      (erased : List ProductRow)
  | scanning (job : DataDeletionJob) (policy : Option DataLifecyclePolicy)
      (erased : List ProductRow) (scrubbed : List ℕ) (pending : List String) (survivors : ℕ)
  | notifying (course : DeletionCourse)
  | deleting (course : DeletionCourse)
  | surveying (course : DeletionCourse) (deletion : LifecycleAdapterResult)
  | recording (course : DeletionCourse) (deletion scan : LifecycleAdapterResult)
  | recordingLoaded (course : DeletionCourse) (job : DataDeletionJob)
      (deletion scan : LifecycleAdapterResult)
  | finishing (job : DataDeletionJob)
  | deletionRaised (jobId : ℕ) (errorType : String)

namespace LifecycleActivity

/-- The export job that an open transaction has loaded. -/
def openExport : LifecycleActivity → Option DataExportJob
  | exporting job _ _ => some job
  | _ => none

/-- The deletion job that an open transaction has loaded. -/
def openDeletion : LifecycleActivity → Option DataDeletionJob
  | checkingHold job | blocking job _ | erasing job _ _ _ | scanning job _ _ _ _ _
  | recordingLoaded _ job _ _ | finishing job => some job
  | _ => none

/-- The product rows that are erased by the open transaction. -/
def erasedRows : LifecycleActivity → List ProductRow
  | erasing _ _ _ erased | scanning _ _ erased _ _ _ => erased
  | _ => []

/-- The export jobs that the open transaction has scrubbed. -/
def scrubbedJobs : LifecycleActivity → List ℕ
  | scanning _ _ _ scrubbed _ _ => scrubbed
  | _ => []

/-- The handler that an exception leads to. -/
def raised (errorType : String) : LifecycleActivity → Option LifecycleActivity
  | exportClaimed jobId => some (exportRaised jobId errorType)
  | exporting job _ _ => some (exportRaised job.id errorType)
  | deletionClaimed jobId => some (deletionRaised jobId errorType)
  | checkingHold job | blocking job _ | erasing job _ _ _ | scanning job _ _ _ _ _
  | finishing job => some (deletionRaised job.id errorType)
  | notifying course | recording course _ _ | recordingLoaded course _ _ _ =>
      some (deletionRaised course.jobId errorType)
  -- exceptions of an adapter are results
  | idle | exportRaised _ _ | deleting _ | surveying _ _ | deletionRaised _ _ => none

end LifecycleActivity

/-- A change of the product rows by the other parts of the application. -/
inductive RowEdit where
  | insert (table : String) (owner : ℕ) (columns : List (String × JsonText.Scalar))
  | rewrite (id : ℕ) (columns : List (String × JsonText.Scalar))
  | remove (id : ℕ)

structure LifecycleState where
  policies : ℕ → Option DataLifecyclePolicy := fun _ => none
  exports : List DataExportJob := []
  deletions : List DataDeletionJob := []
  receipts : List DataDeletionReceipt := []
  rows : List ProductRow := []
  /-- The ids below are taken. -/
  nextRow : ℕ := 0
  activity : String → LifecycleActivity := fun _ => .idle
  /-- The committed erasures so far: a row and the job that erased it. -/
  erasures : List (ℕ × ProductRow) := []
  /-- The calls of `adapter.delete` so far. -/
  deleteCalls : List (ℕ × LifecycleSystem) := []

inductive LifecycleLabel where
  | updatePolicy (actor : ℕ) (update : DataLifecyclePolicyUpdate)
  | createExport (actor id : ℕ) (idempotencyKey : String) (now : ℕ)
  | createDeletion (actor id : ℕ) (confirmation idempotencyKey : String) (now : ℕ)
  | editRow (edit : RowEdit)
  | claimExport (worker : String) (id now : ℕ)
  | claimDeletion (worker : String) (id now : ℕ)
  | loadExport (worker : String)
  | readTable (worker : String)
  | commitExport (worker : String) (now : ℕ)
  | loadDeletion (worker : String)
  | checkHold (worker : String)
  | commitBlock (worker : String)
  | eraseTable (worker : String)
  | scrubExports (worker : String)
  | scanTable (worker : String)
  | commitErasure (worker : String) (now : ℕ)
  | skipAdapter (worker : String) (now : ℕ)
  | callDelete (worker : String)
  | answerDelete (worker : String) (result : Option LifecycleAdapterResult)
  | answerScan (worker : String) (result : Option LifecycleAdapterResult)
  | loadRecord (worker : String)
  | commitRecord (worker : String) (now : ℕ)
  | loadFinish (worker : String)
  | commitFinish (worker : String) (now : ℕ)
  | raise (worker : String) (errorType : String)
  | commitFailure (worker : String)
  | releaseLeases (worker : String) (now : ℕ)
  | crash (worker : String)

namespace LifecycleState

variable (cfg : LifecycleConfig) (s : LifecycleState)

def setActivity (worker : String) (activity : LifecycleActivity) : LifecycleState :=
  { s with activity := Function.update s.activity worker activity }

/-- No transaction of these workers has erased the row. -/
def rowFree (workers : List String) (row : ProductRow) : Bool :=
  workers.all fun worker => (s.activity worker).erasedRows.all fun erased => erased.id != row.id

/-- No transaction of these workers has scrubbed the export job. -/
def exportFree (workers : List String) (id : ℕ) : Bool :=
  workers.all fun worker => !(s.activity worker).scrubbedJobs.contains id

/-- The committed rows of an actor in a table. -/
def rowsOf (owner : ℕ) (table : String) : List ProductRow :=
  s.rows.filter fun row => row.owner == owner && row.table == table

def updatePolicy (actor : ℕ) (u : DataLifecyclePolicyUpdate) : Option LifecycleState := do
  guard (u.isValid = true)
  match CryptoAlert.updatePolicy (s.policies actor) u with
  | .error _ => some s
  | .ok policy => some { s with policies := Function.update s.policies actor (some policy) }

def createExport (actor id : ℕ) (idempotencyKey : String) (now : ℕ) : Option LifecycleState := do
  guard (∀ job ∈ s.exports, job.id ≠ id)
  match CryptoAlert.createExport cfg.hashing s.exports actor id idempotencyKey now with
  | .error _ => some s
  | .ok (exports, _) => some { s with exports }

def createDeletion (actor id : ℕ) (confirmation idempotencyKey : String) (now : ℕ) :
    Option LifecycleState := do
  guard (∀ job ∈ s.deletions, job.id ≠ id)
  match CryptoAlert.createDeletion cfg.hashing s.deletions (s.policies actor) actor id confirmation
      idempotencyKey now with
  | .error _ => some s
  | .ok (deletions, policy, _) =>
      some { s with deletions, policies := Function.update s.policies actor policy }

def editRow : RowEdit → Option LifecycleState
  | .insert table owner columns =>
      some { s with
        rows := s.rows ++ [⟨table, s.nextRow, owner, columns⟩]
        nextRow := s.nextRow + 1 }
  | .rewrite id columns => do
      guard (∀ row ∈ s.rows, row.id = id → s.rowFree cfg.workers row)
      some { s with rows := s.rows.map fun row => if row.id = id then { row with columns } else row }
  | .remove id => do
      guard (∀ row ∈ s.rows, row.id = id → s.rowFree cfg.workers row)
      some { s with rows := s.rows.filter fun row => row.id ≠ id }

/-- `_claim` of an export job. -/
def claimExport (worker : String) (id now : ℕ) : Option LifecycleState := do
  guard (worker ∈ cfg.workers)
  let .idle := s.activity worker | none
  let job ← Table.find DataExportJob.id s.exports id
  guard (job.isDue now = true ∧ s.exportFree (cfg.others worker) id = true)
  let s := { s with
    exports := Table.put DataExportJob.id s.exports (job.claim worker (cfg.leaseUntil now)) }
  some (s.setActivity worker (.exportClaimed id))

/-- `_claim` of a deletion job. -/
def claimDeletion (worker : String) (id now : ℕ) : Option LifecycleState := do
  guard (worker ∈ cfg.workers)
  let .idle := s.activity worker | none
  let job ← Table.find DataDeletionJob.id s.deletions id
  guard (job.isDue now = true)
  let s := { s with
    deletions := Table.put DataDeletionJob.id s.deletions (job.claim worker (cfg.leaseUntil now)) }
  some (s.setActivity worker (.deletionClaimed id))

/-- The first statement of `_process_export`. -/
def loadExport (worker : String) : Option LifecycleState := do
  let .exportClaimed id := s.activity worker | none
  match s.exports.find? fun job => job.id == id && job.isHeldBy worker with
  | none => some (s.setActivity worker .idle)
  | some job => some (s.setActivity worker (.exporting job cfg.tables []))

/-- `build_export_payload` reads the next table. -/
def readTable (worker : String) : Option LifecycleState := do
  let .exporting job (table :: pending) records := s.activity worker | none
  let rows := (s.rowsOf job.owner table).map SafeRow.ofRow
  some (s.setActivity worker (.exporting job pending (records ++ [(table, rows)])))

/-- `build_export_payload` reads the policy, and the transaction commits. -/
def commitExport (worker : String) (now : ℕ) : Option LifecycleState := do
  let .exporting job [] records := s.activity worker | none
  let row ← Table.find DataExportJob.id s.exports job.id
  guard (s.exportFree (cfg.others worker) job.id = true)
  let payload := buildExportPayload cfg.hashing job records (s.policies job.owner) now
  let row := DataExportJob.flush job (job.complete payload now) row
  some ({ s with exports := Table.put DataExportJob.id s.exports row }.setActivity worker .idle)

/-- The first statement of `_process_deletion`. -/
def loadDeletion (worker : String) : Option LifecycleState := do
  let .deletionClaimed id := s.activity worker | none
  match s.deletions.find? fun job => job.id == id && job.isHeldBy worker with
  | none => some (s.setActivity worker .idle)
  | some job => some (s.setActivity worker (.checkingHold job))

/-- The policy is read. -/
def checkHold (worker : String) : Option LifecycleState := do
  let .checkingHold job := s.activity worker | none
  let policy := s.policies job.owner
  if policy.any DataLifecyclePolicy.legalHoldActive then
    some (s.setActivity worker (.blocking job (policy.bind DataLifecyclePolicy.legalHoldReason)))
  else some (s.setActivity worker (.erasing job policy cfg.tables.reverse []))

/-- Sends what a transaction has changed in the deletion job that it loaded. -/
def flushDeletion (loaded new : DataDeletionJob) : Option LifecycleState := do
  let row ← Table.find DataDeletionJob.id s.deletions loaded.id
  some { s with
    deletions := Table.put DataDeletionJob.id s.deletions (DataDeletionJob.flush loaded new row) }

def commitBlock (worker : String) : Option LifecycleState := do
  let .blocking job reason := s.activity worker | none
  let s ← s.flushDeletion job (job.block reason)
  some (s.setActivity worker .idle)

/-- `delete_actor_product_rows` erases the rows of the next table. -/
def eraseTable (worker : String) : Option LifecycleState := do
  let .erasing job policy (table :: pending) erased := s.activity worker | none
  let rows := s.rowsOf job.owner table
  guard (∀ row ∈ rows, s.rowFree (cfg.others worker) row = true)
  some (s.setActivity worker (.erasing job policy pending (erased ++ rows)))

/-- The update of the export jobs of the actor. -/
def scrubExports (worker : String) : Option LifecycleState := do
  let .erasing job policy [] erased := s.activity worker | none
  let scrubbed := (s.exports.filter fun row => row.owner == job.owner).map DataExportJob.id
  guard (∀ id ∈ scrubbed, s.exportFree (cfg.others worker) id = true)
  some (s.setActivity worker (.scanning job policy erased scrubbed cfg.tables 0))

/-- `count_actor_product_rows` counts the rows of the next table. -/
def scanTable (worker : String) : Option LifecycleState := do
  let .scanning job policy erased scrubbed (table :: pending) survivors := s.activity worker | none
  let rows := (s.rowsOf job.owner table).filter fun row =>
    erased.all fun gone => gone.id != row.id
  some (s.setActivity worker
    (.scanning job policy erased scrubbed pending (survivors + rows.length)))

/-- The receipts are written, and the erasure commits. -/
def commitErasure (worker : String) (now : ℕ) : Option LifecycleState := do
  let .scanning job policy erased scrubbed [] survivors := s.activity worker | none
  let deletion : LifecycleAdapterResult :=
    { outcome := .succeeded, affectedCount := erased.length }
  let scan := DataDeletionJob.productScan survivors
  let s ← s.flushDeletion job (job.erase deletion scan (cfg.leaseUntil now))
  let s := { s with
    rows := s.rows.filter fun row => erased.all fun gone => gone.id != row.id
    exports := s.exports.map fun (row : DataExportJob) =>
      if row.id ∈ scrubbed then row.scrub now else row
    receipts := job.appendReceipts s.receipts .productDb .delete deletion scan now
    erasures := s.erasures ++ erased.map fun row => (job.id, row) }
  if survivors = 0 then
    some (s.setActivity worker (.notifying ⟨job.id, job.owner, policy, LifecycleSystem.external⟩))
  else some (s.setActivity worker .idle)

/-- The systems that the deployment retains or that have no adapter. -/
def skipAdapter (worker : String) (now : ℕ) : Option LifecycleState := do
  let .notifying course := s.activity worker | none
  let system :: _ := course.systems | none
  if system.isRetained then
    let policy := course.policy.getD {}
    let days := if system = .logs then policy.logRetentionDays else policy.backupRetentionDays
    let deleteAfter := now + days * Calendar.day
    some (s.setActivity worker (.recording course
      { outcome := .pendingExpiry, reference := some deleteAfter }
      { outcome := .pendingExpiry, survivorCount := 1, reference := some deleteAfter }))
  else do
    guard (cfg.adapters worker system = false)
    let unresolved : LifecycleAdapterResult := { outcome := .pendingExternal }
    some (s.setActivity worker (.recording course unresolved unresolved))

/-- `adapter.delete` is called. -/
def callDelete (worker : String) : Option LifecycleState := do
  let .notifying course := s.activity worker | none
  let system :: _ := course.systems | none
  guard (system.isRetained = false ∧ cfg.adapters worker system = true)
  some ({ s with deleteCalls := s.deleteCalls ++ [(course.jobId, system)] }.setActivity worker
    (.deleting course))

/-- The result of a call that raised. -/
def adapterFailure : LifecycleAdapterResult := { outcome := .failed }

/-- `adapter.delete` returns or raises. -/
def answerDelete (worker : String) (result : Option LifecycleAdapterResult) :
    Option LifecycleState := do
  let .deleting course := s.activity worker | none
  match result with
  | none => some (s.setActivity worker (.recording course adapterFailure adapterFailure))
  | some deletion => some (s.setActivity worker (.surveying course deletion))

/-- `adapter.survivor_scan` returns or raises. -/
def answerScan (worker : String) (result : Option LifecycleAdapterResult) :
    Option LifecycleState := do
  let .surveying course deletion := s.activity worker | none
  match result with
  | none => some (s.setActivity worker (.recording course adapterFailure adapterFailure))
  | some scan => some (s.setActivity worker (.recording course deletion scan))

/-- The course behind its first system. -/
def behindSystem (course : DeletionCourse) : LifecycleActivity :=
  .notifying { course with systems := course.systems.tail }

/-- The first statement of `_record_adapter_result`. -/
def loadRecord (worker : String) : Option LifecycleState := do
  let .recording course deletion scan := s.activity worker | none
  match s.deletions.find? fun job => job.id == course.jobId && job.isHeldBy worker with
  | none => some (s.setActivity worker (behindSystem course))
  | some job => some (s.setActivity worker (.recordingLoaded course job deletion scan))

/-- The receipts of a system are written, and the transaction commits. -/
def commitRecord (worker : String) (now : ℕ) : Option LifecycleState := do
  let .recordingLoaded course job deletion scan := s.activity worker | none
  let system :: _ := course.systems | none
  let phase := if system.isRetained then .retentionQueue else .delete
  let s ← s.flushDeletion job (job.record system deletion scan (cfg.leaseUntil now))
  let s := { s with receipts := job.appendReceipts s.receipts system phase deletion scan now }
  some (s.setActivity worker (behindSystem course))

/-- The first statement of the last transaction. -/
def loadFinish (worker : String) : Option LifecycleState := do
  let .notifying ⟨jobId, _, _, []⟩ := s.activity worker | none
  match s.deletions.find? fun job => job.id == jobId && job.isHeldBy worker with
  | none => some (s.setActivity worker .idle)
  | some job => some (s.setActivity worker (.finishing job))

def commitFinish (worker : String) (now : ℕ) : Option LifecycleState := do
  let .finishing job := s.activity worker | none
  let s ← s.flushDeletion job (job.finish now)
  some (s.setActivity worker .idle)

def raise (worker errorType : String) : Option LifecycleState := do
  let handler ← (s.activity worker).raised errorType
  some (s.setActivity worker handler)

/-- The update that an exception leads to. -/
def commitFailure (worker : String) : Option LifecycleState :=
  match s.activity worker with
  | .exportRaised jobId errorType => do
      guard (s.exportFree (cfg.others worker) jobId = true)
      let s := { s with exports := s.exports.map fun (job : DataExportJob) =>
        if job.id = jobId ∧ job.isHeldBy worker then job.fail errorType else job }
      some (s.setActivity worker .idle)
  | .deletionRaised jobId errorType =>
      let s := { s with deletions := s.deletions.map fun (job : DataDeletionJob) =>
        if job.id = jobId ∧ job.isHeldBy worker then job.fail errorType else job }
      some (s.setActivity worker .idle)
  | _ => none

/-- `release_owned_leases`, which runs when the worker has stopped. -/
def releaseLeases (worker : String) (now : ℕ) : Option LifecycleState := do
  let .idle := s.activity worker | none
  guard (∀ job ∈ s.exports, job.isHeldBy worker → s.exportFree (cfg.others worker) job.id = true)
  some { s with
    exports := s.exports.map fun job => if job.isHeldBy worker then job.release now else job
    deletions := s.deletions.map fun job => if job.isHeldBy worker then job.release now else job }

def step : LifecycleLabel → Option LifecycleState
  | .updatePolicy actor u => s.updatePolicy actor u
  | .createExport actor id key now => s.createExport cfg actor id key now
  | .createDeletion actor id confirmation key now =>
      s.createDeletion cfg actor id confirmation key now
  | .editRow edit => s.editRow cfg edit
  | .claimExport worker id now => s.claimExport cfg worker id now
  | .claimDeletion worker id now => s.claimDeletion cfg worker id now
  | .loadExport worker => s.loadExport cfg worker
  | .readTable worker => s.readTable worker
  | .commitExport worker now => s.commitExport cfg worker now
  | .loadDeletion worker => s.loadDeletion worker
  | .checkHold worker => s.checkHold cfg worker
  | .commitBlock worker => s.commitBlock worker
  | .eraseTable worker => s.eraseTable cfg worker
  | .scrubExports worker => s.scrubExports cfg worker
  | .scanTable worker => s.scanTable worker
  | .commitErasure worker now => s.commitErasure cfg worker now
  | .skipAdapter worker now => s.skipAdapter cfg worker now
  | .callDelete worker => s.callDelete cfg worker
  | .answerDelete worker result => s.answerDelete worker result
  | .answerScan worker result => s.answerScan worker result
  | .loadRecord worker => s.loadRecord worker
  | .commitRecord worker now => s.commitRecord cfg worker now
  | .loadFinish worker => s.loadFinish worker
  | .commitFinish worker now => s.commitFinish worker now
  | .raise worker errorType => s.raise worker errorType
  | .commitFailure worker => s.commitFailure cfg worker
  | .releaseLeases worker now => s.releaseLeases cfg worker now
  | .crash worker => some (s.setActivity worker .idle)

end LifecycleState

end CryptoAlert
