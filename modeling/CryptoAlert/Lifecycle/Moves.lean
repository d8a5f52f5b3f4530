import CryptoAlert.Lifecycle.System

/-!
# What a step of the lifecycle workers does

A step is inverted once, into a move that names the job, the rows and the activity that it is
about. The invariants are proved for moves.
-/

namespace CryptoAlert

namespace LifecycleState

section Activity

variable {s : LifecycleState} {worker other : String} {activity : LifecycleActivity}

@[simp] theorem activity_setActivity : (s.setActivity worker activity).activity worker = activity :=
  Function.update_self ..

theorem activity_setActivity_of_ne (h : other ≠ worker) :
    (s.setActivity worker activity).activity other = s.activity other := Function.update_of_ne h ..

/-- What the other workers are doing and what this one is doing now. -/
theorem forall_setActivity {p : String → LifecycleActivity → Prop}
    (h : ∀ other, p other (s.activity other)) (hworker : p worker activity) :
    ∀ other, p other ((s.setActivity worker activity).activity other) := by
  intro other
  by_cases hother : other = worker
  · rw [hother, activity_setActivity]
    exact hworker
  · rw [activity_setActivity_of_ne hother]
    exact h other

end Activity

variable (cfg : LifecycleConfig) (s : LifecycleState)

def putExport (row : DataExportJob) : LifecycleState :=
  { s with exports := Table.put DataExportJob.id s.exports row }

def putDeletion (row : DataDeletionJob) : LifecycleState :=
  { s with deletions := Table.put DataDeletionJob.id s.deletions row }

/-- The state after the erasure of a job has been committed. -/
def erased (job row : DataDeletionJob) (gone : List ProductRow) (scrubbed : List ℕ)
    (deletion scan : LifecycleAdapterResult) (now : ℕ) : LifecycleState :=
  { s.putDeletion row with
    rows := s.rows.filter fun row => gone.all fun r => r.id != row.id
    exports := s.exports.map fun (row : DataExportJob) =>
      if row.id ∈ scrubbed then row.scrub now else row
    receipts := job.appendReceipts s.receipts .productDb .delete deletion scan now
    erasures := s.erasures ++ gone.map fun row => (job.id, row) }

/-- The state after the results of a system have been committed. -/
def recorded (job row : DataDeletionJob) (system : LifecycleSystem) (phase : ReceiptPhase)
    (deletion scan : LifecycleAdapterResult) (now : ℕ) : LifecycleState :=
  { s.putDeletion row with
    receipts := job.appendReceipts s.receipts system phase deletion scan now }

/-- The state in which some export jobs are rewritten. -/
def mapExports (f : DataExportJob → DataExportJob) : LifecycleState :=
  { s with exports := s.exports.map f }

def mapDeletions (f : DataDeletionJob → DataDeletionJob) : LifecycleState :=
  { s with deletions := s.deletions.map f }

/-- The results that stand for a system without an adapter. -/
def IsSkipped (system : LifecycleSystem) (deletion scan : LifecycleAdapterResult) : Prop :=
  if system.isRetained then deletion.outcome = .pendingExpiry ∧ scan.outcome = .pendingExpiry
  else deletion.outcome = .pendingExternal ∧ scan.outcome = .pendingExternal

inductive Move : LifecycleLabel → LifecycleState → Prop where
  /-- A request that changes nothing. -/
  | refused (label : LifecycleLabel) : Move label s
  | policyUpdated (actor : ℕ) (u : DataLifecyclePolicyUpdate) (policy : DataLifecyclePolicy)
      (updated : CryptoAlert.updatePolicy (s.policies actor) u = .ok policy) :
      Move (.updatePolicy actor u)
        { s with policies := Function.update s.policies actor (some policy) }
  | exportCreated (actor id : ℕ) (key : String) (now : ℕ) (job : DataExportJob)
      (fresh : ∀ j ∈ s.exports, j.id ≠ id) (new : job = {
        id, owner := actor, idempotencyKey := key
        requestPayloadHash := job.requestPayloadHash, availableAt := now, requestedAt := now }) :
      Move (.createExport actor id key now) { s with exports := s.exports ++ [job] }
  | deletionCreated (actor id : ℕ) (confirmation key : String) (now : ℕ) (job : DataDeletionJob)
      (fresh : ∀ j ∈ s.deletions, j.id ≠ id) (jobId : job.id = id) (owner : job.owner = actor)
      (unclaimed : job.attempt = 0 ∧ job.leaseOwner = none) (unfinished : job.completedAt = none)
      (status : (job.status = .blockedLegalHold ∧
          ∀ system, job.systemStatus system = .blockedLegalHold) ∨
        (job.status = .queued ∧ ∀ system, job.systemStatus system = .pending)) :
      Move (.createDeletion actor id confirmation key now)
        { s with
          deletions := s.deletions ++ [job]
          policies := Function.update s.policies actor (some ((s.policies actor).getD {})) }
  | rowInserted (table : String) (owner : ℕ) (columns : List (String × JsonText.Scalar)) :
      Move (.editRow (.insert table owner columns))
        { s with rows := s.rows ++ [⟨table, s.nextRow, owner, columns⟩], nextRow := s.nextRow + 1 }
  | rowRewritten (id : ℕ) (columns : List (String × JsonText.Scalar))
      (free : ∀ row ∈ s.rows, row.id = id → s.rowFree cfg.workers row = true) :
      Move (.editRow (.rewrite id columns))
        { s with rows := s.rows.map fun row => if row.id = id then { row with columns } else row }
  | rowRemoved (id : ℕ)
      (free : ∀ row ∈ s.rows, row.id = id → s.rowFree cfg.workers row = true) :
      Move (.editRow (.remove id)) { s with rows := s.rows.filter fun row => row.id ≠ id }
  | exportClaimed (worker : String) (id now : ℕ) (job : DataExportJob)
      (configured : worker ∈ cfg.workers) (idle : s.activity worker = .idle)
      (found : Table.find DataExportJob.id s.exports id = some job) (due : job.isDue now = true) :
      Move (.claimExport worker id now)
        ((s.putExport (job.claim worker (cfg.leaseUntil now))).setActivity worker
          (.exportClaimed id))
  | deletionClaimed (worker : String) (id now : ℕ) (job : DataDeletionJob)
      (configured : worker ∈ cfg.workers) (idle : s.activity worker = .idle)
      (found : Table.find DataDeletionJob.id s.deletions id = some job)
      (due : job.isDue now = true) :
      Move (.claimDeletion worker id now)
        ((s.putDeletion (job.claim worker (cfg.leaseUntil now))).setActivity worker
          (.deletionClaimed id))
  /-- A worker that finds its job gone, or crashes. -/
  | idled (label : LifecycleLabel) (worker : String) : Move label (s.setActivity worker .idle)
  | exportLoaded (worker : String) (job : DataExportJob)
      (activity : s.activity worker = .exportClaimed job.id) (mem : job ∈ s.exports)
      (held : job.isHeldBy worker = true) :
      Move (.loadExport worker) (s.setActivity worker (.exporting job cfg.tables []))
  | tableRead (worker : String) (job : DataExportJob) (table : String) (pending : List String)
      (records : ExportRecords)
      (activity : s.activity worker = .exporting job (table :: pending) records) :
      Move (.readTable worker) (s.setActivity worker (.exporting job pending
        (records ++ [(table, (s.rowsOf job.owner table).map SafeRow.ofRow)])))
  | exportCommitted (worker : String) (now : ℕ) (job row : DataExportJob)
      (records : ExportRecords) (activity : s.activity worker = .exporting job [] records)
      (found : Table.find DataExportJob.id s.exports job.id = some row) :
      Move (.commitExport worker now)
        ((s.putExport (DataExportJob.flush job (job.complete
          (buildExportPayload cfg.hashing job records (s.policies job.owner) now) now)
            row)).setActivity worker .idle)
  | deletionLoaded (worker : String) (job : DataDeletionJob)
      (activity : s.activity worker = .deletionClaimed job.id) (mem : job ∈ s.deletions)
      (held : job.isHeldBy worker = true) :
      Move (.loadDeletion worker) (s.setActivity worker (.checkingHold job))
  | holdFound (worker : String) (job : DataDeletionJob) (reason : Option String)
      (activity : s.activity worker = .checkingHold job)
      (hold : (s.policies job.owner).any DataLifecyclePolicy.legalHoldActive = true) :
      Move (.checkHold worker) (s.setActivity worker (.blocking job reason))
  | holdAbsent (worker : String) (job : DataDeletionJob)
      (activity : s.activity worker = .checkingHold job)
      (hold : (s.policies job.owner).any DataLifecyclePolicy.legalHoldActive = false) :
      Move (.checkHold worker)
        (s.setActivity worker (.erasing job (s.policies job.owner) cfg.tables.reverse []))
  | blocked (worker : String) (job row : DataDeletionJob) (reason : Option String)
      (activity : s.activity worker = .blocking job reason)
      (found : Table.find DataDeletionJob.id s.deletions job.id = some row) :
      Move (.commitBlock worker)
        ((s.putDeletion (DataDeletionJob.flush job (job.block reason) row)).setActivity worker .idle)
  | tableErased (worker : String) (job : DataDeletionJob) (policy : Option DataLifecyclePolicy)
      (table : String) (pending : List String) (gone : List ProductRow)
      (activity : s.activity worker = .erasing job policy (table :: pending) gone)
      (free : ∀ row ∈ s.rowsOf job.owner table, s.rowFree (cfg.others worker) row = true) :
      Move (.eraseTable worker)
        (s.setActivity worker (.erasing job policy pending (gone ++ s.rowsOf job.owner table)))
  | exportsScrubbed (worker : String) (job : DataDeletionJob)
      (policy : Option DataLifecyclePolicy) (gone : List ProductRow)
      (activity : s.activity worker = .erasing job policy [] gone) :
      Move (.scrubExports worker) (s.setActivity worker (.scanning job policy gone
        ((s.exports.filter fun row => row.owner == job.owner).map DataExportJob.id) cfg.tables 0))
  | tableScanned (worker : String) (job : DataDeletionJob) (policy : Option DataLifecyclePolicy)
      (gone : List ProductRow) (scrubbed : List ℕ) (table : String) (pending : List String)
      (survivors survivors' : ℕ)
      (activity : s.activity worker =
        .scanning job policy gone scrubbed (table :: pending) survivors) :
      Move (.scanTable worker)
        (s.setActivity worker (.scanning job policy gone scrubbed pending survivors'))
  | erasureCommitted (worker : String) (now : ℕ) (job row : DataDeletionJob)
      (policy : Option DataLifecyclePolicy) (gone : List ProductRow) (scrubbed : List ℕ)
      (survivors : ℕ) (deletion scan : LifecycleAdapterResult) (next : LifecycleActivity)
      (activity : s.activity worker = .scanning job policy gone scrubbed [] survivors)
      (found : Table.find DataDeletionJob.id s.deletions job.id = some row)
      (deleted : deletion = { outcome := .succeeded, affectedCount := gone.length })
      (scanned : scan = DataDeletionJob.productScan survivors)
      (goes : next = .idle ∨
        next = .notifying ⟨job.id, job.owner, policy, LifecycleSystem.external⟩) :
      Move (.commitErasure worker now)
        ((s.erased job (DataDeletionJob.flush job
            (job.erase deletion scan (cfg.leaseUntil now)) row) gone scrubbed deletion scan
              now).setActivity worker next)
  | adapterSkipped (worker : String) (now : ℕ) (course : DeletionCourse)
      (system : LifecycleSystem) (systems : List LifecycleSystem)
      (deletion scan : LifecycleAdapterResult) (activity : s.activity worker = .notifying course)
      (next : course.systems = system :: systems) (skipped : IsSkipped system deletion scan) :
      Move (.skipAdapter worker now) (s.setActivity worker (.recording course deletion scan))
  | deleteCalled (worker : String) (course : DeletionCourse) (system : LifecycleSystem)
      (systems : List LifecycleSystem) (activity : s.activity worker = .notifying course)
      (next : course.systems = system :: systems) (owned : system.isRetained = false) :
      Move (.callDelete worker)
        ({ s with deleteCalls := s.deleteCalls ++ [(course.jobId, system)] }.setActivity worker
          (.deleting course))
  /-- An adapter answers the first or the second question. -/
  | deleteAnswered (worker : String) (result : Option LifecycleAdapterResult)
      (course : DeletionCourse) (deletion : LifecycleAdapterResult)
      (activity : s.activity worker = .deleting course) :
      Move (.answerDelete worker result) (s.setActivity worker (.surveying course deletion))
  | answered (label : LifecycleLabel) (worker : String) (course : DeletionCourse)
      (deletion scan : LifecycleAdapterResult)
      (activity : s.activity worker = .deleting course ∨
        ∃ deletion, s.activity worker = .surveying course deletion) :
      Move label (s.setActivity worker (.recording course deletion scan))
  | recordLost (worker : String) (course : DeletionCourse)
      (deletion scan : LifecycleAdapterResult)
      (activity : s.activity worker = .recording course deletion scan) :
      Move (.loadRecord worker) (s.setActivity worker (behindSystem course))
  | recordLoaded (worker : String) (course : DeletionCourse) (job : DataDeletionJob)
      (deletion scan : LifecycleAdapterResult)
      (activity : s.activity worker = .recording course deletion scan)
      (jobId : job.id = course.jobId) (mem : job ∈ s.deletions)
      (held : job.isHeldBy worker = true) :
      Move (.loadRecord worker)
        (s.setActivity worker (.recordingLoaded course job deletion scan))
  | recordCommitted (worker : String) (now : ℕ) (course : DeletionCourse)
      (job row : DataDeletionJob) (system : LifecycleSystem) (systems : List LifecycleSystem)
      (phase : ReceiptPhase) (deletion scan : LifecycleAdapterResult)
      (activity : s.activity worker = .recordingLoaded course job deletion scan)
      (next : course.systems = system :: systems)
      (found : Table.find DataDeletionJob.id s.deletions job.id = some row)
      (phased : phase = if system.isRetained then .retentionQueue else .delete) :
      Move (.commitRecord worker now)
        ((s.recorded job (DataDeletionJob.flush job
          (job.record system deletion scan (cfg.leaseUntil now)) row) system phase deletion scan
            now).setActivity worker (behindSystem course))
  | finishLoaded (worker : String) (course : DeletionCourse) (job : DataDeletionJob)
      (activity : s.activity worker = .notifying course) (done : course.systems = [])
      (jobId : job.id = course.jobId) (mem : job ∈ s.deletions)
      (held : job.isHeldBy worker = true) :
      Move (.loadFinish worker) (s.setActivity worker (.finishing job))
  | finished (worker : String) (now : ℕ) (job row : DataDeletionJob)
      (activity : s.activity worker = .finishing job)
      (found : Table.find DataDeletionJob.id s.deletions job.id = some row) :
      Move (.commitFinish worker now)
        ((s.putDeletion (DataDeletionJob.flush job (job.finish now) row)).setActivity worker .idle)
  | raised (worker errorType : String) (handler : LifecycleActivity)
      (goes : (s.activity worker).raised errorType = some handler) :
      Move (.raise worker errorType) (s.setActivity worker handler)
  | exportFailed (worker : String) (jobId : ℕ) (errorType : String) :
      Move (.commitFailure worker) ((s.mapExports fun job =>
        if job.id = jobId ∧ job.isHeldBy worker then job.fail errorType else job).setActivity
          worker .idle)
  | deletionFailed (worker : String) (jobId : ℕ) (errorType : String) :
      Move (.commitFailure worker) ((s.mapDeletions fun job =>
        if job.id = jobId ∧ job.isHeldBy worker then job.fail errorType else job).setActivity
          worker .idle)
  | released (worker : String) (now : ℕ) (idle : s.activity worker = .idle) :
      Move (.releaseLeases worker now) ((s.mapExports fun job =>
        if job.isHeldBy worker then job.release now else job).mapDeletions fun job =>
          if job.isHeldBy worker then job.release now else job)

variable {cfg s} {s' : LifecycleState} {worker : String} {now : ℕ}

theorem move_updatePolicy {actor : ℕ} {u : DataLifecyclePolicyUpdate}
    (h : s.updatePolicy actor u = some s') : s.Move cfg (.updatePolicy actor u) s' := by
  obtain ⟨_, -, h⟩ := Option.bind_eq_some_iff.mp h
  split at h
  · cases h
    exact .refused _
  · rename_i policy hpolicy
    cases h
    exact .policyUpdated actor u policy hpolicy

theorem move_createExport {actor id : ℕ} {key : String}
    (h : s.createExport cfg actor id key now = some s') :
    s.Move cfg (.createExport actor id key now) s' := by
  obtain ⟨_, hfresh, h⟩ := Option.bind_eq_some_iff.mp h
  have hfresh := (Option.guard_eq_some' _).mp hfresh
  split at h
  · cases h
    exact .refused _
  · rename_i exports _ hexports
    cases h
    unfold CryptoAlert.createExport at hexports
    simp only at hexports
    split at hexports
    · split at hexports
      · cases hexports
      · cases hexports
        exact .refused _
    · cases hexports
      exact .exportCreated actor id key now _ hfresh rfl

theorem move_createDeletion {actor id : ℕ} {confirmation key : String}
    (h : s.createDeletion cfg actor id confirmation key now = some s') :
    s.Move cfg (.createDeletion actor id confirmation key now) s' := by
  obtain ⟨_, hfresh, h⟩ := Option.bind_eq_some_iff.mp h
  have hfresh := (Option.guard_eq_some' _).mp hfresh
  split at h
  · cases h
    exact .refused _
  · rename_i deletions policy _ hdeletions
    cases h
    unfold CryptoAlert.createDeletion at hdeletions
    simp only at hdeletions
    split at hdeletions
    · cases hdeletions
    split at hdeletions
    · split at hdeletions
      · cases hdeletions
      · cases hdeletions
        rw [Function.update_eq_self]
        exact .refused _
    · cases hdeletions
      refine .deletionCreated actor id confirmation key now _ hfresh rfl rfl ⟨rfl, rfl⟩ rfl ?_
      by_cases hheld : ((s.policies actor).getD {}).legalHoldActive = true
      · exact .inl ⟨if_pos hheld, fun _ => if_pos hheld⟩
      · exact .inr ⟨if_neg hheld, fun _ => if_neg hheld⟩

theorem move_editRow {edit : RowEdit} (h : s.editRow cfg edit = some s') :
    s.Move cfg (.editRow edit) s' := by
  cases edit with
  | insert table owner columns =>
      cases h
      exact .rowInserted table owner columns
  | rewrite id columns =>
      obtain ⟨_, hfree, h⟩ := Option.bind_eq_some_iff.mp h
      cases h
      exact .rowRewritten id columns ((Option.guard_eq_some' _).mp hfree)
  | remove id =>
      obtain ⟨_, hfree, h⟩ := Option.bind_eq_some_iff.mp h
      cases h
      exact .rowRemoved id ((Option.guard_eq_some' _).mp hfree)

theorem move_claimExport {id : ℕ} (h : s.claimExport cfg worker id now = some s') :
    s.Move cfg (.claimExport worker id now) s' := by
  obtain ⟨_, hconfigured, h⟩ := Option.bind_eq_some_iff.mp h
  have hconfigured := (Option.guard_eq_some' _).mp hconfigured
  split at h
  · rename_i hidle
    obtain ⟨job, hfound, h⟩ := Option.bind_eq_some_iff.mp h
    obtain ⟨_, hdue, h⟩ := Option.bind_eq_some_iff.mp h
    cases h
    exact .exportClaimed worker id now job hconfigured hidle hfound
      ((Option.guard_eq_some' _).mp hdue).1
  · cases h

theorem move_claimDeletion {id : ℕ} (h : s.claimDeletion cfg worker id now = some s') :
    s.Move cfg (.claimDeletion worker id now) s' := by
  obtain ⟨_, hconfigured, h⟩ := Option.bind_eq_some_iff.mp h
  have hconfigured := (Option.guard_eq_some' _).mp hconfigured
  split at h
  · rename_i hidle
    obtain ⟨job, hfound, h⟩ := Option.bind_eq_some_iff.mp h
    obtain ⟨_, hdue, h⟩ := Option.bind_eq_some_iff.mp h
    cases h
    exact .deletionClaimed worker id now job hconfigured hidle hfound
      ((Option.guard_eq_some' _).mp hdue)
  · cases h

/-- The row that a transaction has found is the row of its job, held by the worker. -/
theorem held_of_find {jobs : List DataDeletionJob} {id : ℕ} {job : DataDeletionJob}
    (h : (jobs.find? fun job => job.id == id && job.isHeldBy worker) = some job) :
    job.id = id ∧ job ∈ jobs ∧ job.isHeldBy worker = true := by
  have hfound := List.find?_some h
  rw [Bool.and_eq_true, beq_iff_eq] at hfound
  exact ⟨hfound.1, List.mem_of_find?_eq_some h, hfound.2⟩

theorem move_loadExport (h : s.loadExport cfg worker = some s') :
    s.Move cfg (.loadExport worker) s' := by
  unfold loadExport at h
  split at h
  · rename_i id hactivity
    split at h
    · cases h
      exact .idled _ worker
    · rename_i job hfind
      cases h
      have hfound := List.find?_some hfind
      rw [Bool.and_eq_true, beq_iff_eq] at hfound
      obtain ⟨rfl, hheld⟩ := hfound
      exact .exportLoaded worker job hactivity (List.mem_of_find?_eq_some hfind) hheld
  · cases h

theorem move_readTable (h : s.readTable worker = some s') :
    s.Move cfg (.readTable worker) s' := by
  unfold readTable at h
  split at h
  · rename_i job table pending records hactivity
    cases h
    exact .tableRead worker job table pending records hactivity
  · cases h

theorem move_commitExport (h : s.commitExport cfg worker now = some s') :
    s.Move cfg (.commitExport worker now) s' := by
  unfold commitExport at h
  split at h
  · rename_i job records hactivity
    obtain ⟨row, hfound, h⟩ := Option.bind_eq_some_iff.mp h
    obtain ⟨_, -, h⟩ := Option.bind_eq_some_iff.mp h
    cases h
    exact .exportCommitted worker now job row records hactivity hfound
  · cases h

theorem move_loadDeletion (h : s.loadDeletion worker = some s') :
    s.Move cfg (.loadDeletion worker) s' := by
  unfold loadDeletion at h
  split at h
  · rename_i id hactivity
    split at h
    · cases h
      exact .idled _ worker
    · rename_i job hfind
      cases h
      obtain ⟨rfl, hmem, hheld⟩ := held_of_find hfind
      exact .deletionLoaded worker job hactivity hmem hheld
  · cases h

theorem move_checkHold (h : s.checkHold cfg worker = some s') :
    s.Move cfg (.checkHold worker) s' := by
  unfold checkHold at h
  split at h
  · rename_i job hactivity
    simp only at h
    split at h
    · rename_i hhold
      cases h
      exact .holdFound worker job _ hactivity hhold
    · rename_i hhold
      cases h
      exact .holdAbsent worker job hactivity (by simpa using hhold)
  · cases h

theorem eq_of_flushDeletion {loaded new : DataDeletionJob}
    (h : s.flushDeletion loaded new = some s') :
    ∃ row, Table.find DataDeletionJob.id s.deletions loaded.id = some row ∧
      s' = s.putDeletion (DataDeletionJob.flush loaded new row) := by
  obtain ⟨row, hfound, h⟩ := Option.bind_eq_some_iff.mp h
  cases h
  exact ⟨row, hfound, rfl⟩

theorem move_commitBlock (h : s.commitBlock worker = some s') :
    s.Move cfg (.commitBlock worker) s' := by
  unfold commitBlock at h
  split at h
  · rename_i job reason hactivity
    obtain ⟨t, hflush, h⟩ := Option.bind_eq_some_iff.mp h
    obtain ⟨row, hfound, rfl⟩ := eq_of_flushDeletion hflush
    cases h
    exact .blocked worker job row reason hactivity hfound
  · cases h

theorem move_eraseTable (h : s.eraseTable cfg worker = some s') :
    s.Move cfg (.eraseTable worker) s' := by
  unfold eraseTable at h
  split at h
  · rename_i job policy table pending gone hactivity
    obtain ⟨_, hfree, h⟩ := Option.bind_eq_some_iff.mp h
    cases h
    exact .tableErased worker job policy table pending gone hactivity
      ((Option.guard_eq_some' _).mp hfree)
  · cases h

theorem move_scrubExports (h : s.scrubExports cfg worker = some s') :
    s.Move cfg (.scrubExports worker) s' := by
  unfold scrubExports at h
  split at h
  · rename_i job policy gone hactivity
    obtain ⟨_, -, h⟩ := Option.bind_eq_some_iff.mp h
    cases h
    exact .exportsScrubbed worker job policy gone hactivity
  · cases h

theorem move_scanTable (h : s.scanTable worker = some s') :
    s.Move cfg (.scanTable worker) s' := by
  unfold scanTable at h
  split at h
  · rename_i job policy gone scrubbed table pending survivors hactivity
    cases h
    exact .tableScanned worker job policy gone scrubbed table pending survivors _ hactivity
  · cases h

theorem move_commitErasure (h : s.commitErasure cfg worker now = some s') :
    s.Move cfg (.commitErasure worker now) s' := by
  unfold commitErasure at h
  split at h
  · rename_i job policy gone scrubbed survivors hactivity
    obtain ⟨t, hflush, h⟩ := Option.bind_eq_some_iff.mp h
    obtain ⟨row, hfound, rfl⟩ := eq_of_flushDeletion hflush
    split at h
    · cases h
      exact .erasureCommitted worker now job row policy gone scrubbed survivors _ _ _ hactivity
        hfound rfl rfl (.inr rfl)
    · cases h
      exact .erasureCommitted worker now job row policy gone scrubbed survivors _ _ _ hactivity
        hfound rfl rfl (.inl rfl)
  · cases h

theorem move_skipAdapter (h : s.skipAdapter cfg worker now = some s') :
    s.Move cfg (.skipAdapter worker now) s' := by
  unfold skipAdapter at h
  split at h
  · rename_i course hactivity
    split at h
    · rename_i system systems hsystems
      split at h
      · rename_i hretained
        cases h
        refine .adapterSkipped worker now course system systems _ _ hactivity hsystems ?_
        rw [IsSkipped, if_pos hretained]
        exact ⟨rfl, rfl⟩
      · rename_i hretained
        obtain ⟨_, -, h⟩ := Option.bind_eq_some_iff.mp h
        cases h
        refine .adapterSkipped worker now course system systems _ _ hactivity hsystems ?_
        rw [IsSkipped, if_neg hretained]
        exact ⟨rfl, rfl⟩
    · cases h
  · cases h

theorem move_callDelete (h : s.callDelete cfg worker = some s') :
    s.Move cfg (.callDelete worker) s' := by
  unfold callDelete at h
  split at h
  · rename_i course hactivity
    split at h
    · rename_i system systems hsystems
      obtain ⟨_, howned, h⟩ := Option.bind_eq_some_iff.mp h
      cases h
      exact .deleteCalled worker course system systems hactivity hsystems
        ((Option.guard_eq_some' _).mp howned).1
    · cases h
  · cases h

theorem move_answerDelete {result : Option LifecycleAdapterResult}
    (h : s.answerDelete worker result = some s') :
    s.Move cfg (.answerDelete worker result) s' := by
  unfold answerDelete at h
  split at h
  · rename_i course hactivity
    cases result with
    | none =>
        cases h
        exact .answered _ worker course _ _ (.inl hactivity)
    | some deletion =>
        cases h
        exact .deleteAnswered worker _ course deletion hactivity
  · cases h

theorem move_answerScan {result : Option LifecycleAdapterResult}
    (h : s.answerScan worker result = some s') : s.Move cfg (.answerScan worker result) s' := by
  unfold answerScan at h
  split at h
  · rename_i course deletion hactivity
    cases result with
    | none =>
        cases h
        exact .answered _ worker course _ _ (.inr ⟨deletion, hactivity⟩)
    | some scan =>
        cases h
        exact .answered _ worker course _ _ (.inr ⟨deletion, hactivity⟩)
  · cases h

theorem move_loadRecord (h : s.loadRecord worker = some s') :
    s.Move cfg (.loadRecord worker) s' := by
  unfold loadRecord at h
  split at h
  · rename_i course deletion scan hactivity
    split at h
    · cases h
      exact .recordLost worker course deletion scan hactivity
    · rename_i job hfind
      cases h
      obtain ⟨hid, hmem, hheld⟩ := held_of_find hfind
      exact .recordLoaded worker course job deletion scan hactivity hid hmem hheld
  · cases h

theorem move_commitRecord (h : s.commitRecord cfg worker now = some s') :
    s.Move cfg (.commitRecord worker now) s' := by
  unfold commitRecord at h
  split at h
  · rename_i course job deletion scan hactivity
    split at h
    · rename_i system systems hsystems
      obtain ⟨t, hflush, h⟩ := Option.bind_eq_some_iff.mp h
      obtain ⟨row, hfound, rfl⟩ := eq_of_flushDeletion hflush
      cases h
      exact .recordCommitted worker now course job row system systems _ deletion scan hactivity
        hsystems hfound rfl
    · cases h
  · cases h

theorem move_loadFinish (h : s.loadFinish worker = some s') :
    s.Move cfg (.loadFinish worker) s' := by
  unfold loadFinish at h
  split at h
  · rename_i jobId owner policy hactivity
    split at h
    · cases h
      exact .idled _ worker
    · rename_i job hfind
      cases h
      obtain ⟨hid, hmem, hheld⟩ := held_of_find hfind
      exact .finishLoaded worker _ job hactivity rfl hid hmem hheld
  · cases h

theorem move_commitFinish (h : s.commitFinish worker now = some s') :
    s.Move cfg (.commitFinish worker now) s' := by
  unfold commitFinish at h
  split at h
  · rename_i job hactivity
    obtain ⟨t, hflush, h⟩ := Option.bind_eq_some_iff.mp h
    obtain ⟨row, hfound, rfl⟩ := eq_of_flushDeletion hflush
    cases h
    exact .finished worker now job row hactivity hfound
  · cases h

theorem move_raise {errorType : String} (h : s.raise worker errorType = some s') :
    s.Move cfg (.raise worker errorType) s' := by
  obtain ⟨handler, hgoes, h⟩ := Option.bind_eq_some_iff.mp h
  cases h
  exact .raised worker errorType handler hgoes

theorem move_commitFailure (h : s.commitFailure cfg worker = some s') :
    s.Move cfg (.commitFailure worker) s' := by
  unfold commitFailure at h
  split at h
  · obtain ⟨_, -, h⟩ := Option.bind_eq_some_iff.mp h
    cases h
    exact .exportFailed worker _ _
  · cases h
    exact .deletionFailed worker _ _
  · cases h

theorem move_releaseLeases (h : s.releaseLeases cfg worker now = some s') :
    s.Move cfg (.releaseLeases worker now) s' := by
  unfold releaseLeases at h
  split at h
  · rename_i hidle
    obtain ⟨_, -, h⟩ := Option.bind_eq_some_iff.mp h
    cases h
    exact .released worker now hidle
  · cases h

/-- Every step is a move. -/
theorem move_of_step {label : LifecycleLabel} (h : s.step cfg label = some s') :
    s.Move cfg label s' := by
  cases label with
  | updatePolicy actor u => exact move_updatePolicy h
  | createExport actor id key now => exact move_createExport h
  | createDeletion actor id confirmation key now => exact move_createDeletion h
  | editRow edit => exact move_editRow h
  | claimExport worker id now => exact move_claimExport h
  | claimDeletion worker id now => exact move_claimDeletion h
  | loadExport worker => exact move_loadExport h
  | readTable worker => exact move_readTable h
  | commitExport worker now => exact move_commitExport h
  | loadDeletion worker => exact move_loadDeletion h
  | checkHold worker => exact move_checkHold h
  | commitBlock worker => exact move_commitBlock h
  | eraseTable worker => exact move_eraseTable h
  | scrubExports worker => exact move_scrubExports h
  | scanTable worker => exact move_scanTable h
  | commitErasure worker now => exact move_commitErasure h
  | skipAdapter worker now => exact move_skipAdapter h
  | callDelete worker => exact move_callDelete h
  | answerDelete worker result => exact move_answerDelete h
  | answerScan worker result => exact move_answerScan h
  | loadRecord worker => exact move_loadRecord h
  | commitRecord worker now => exact move_commitRecord h
  | loadFinish worker => exact move_loadFinish h
  | commitFinish worker now => exact move_commitFinish h
  | raise worker errorType => exact move_raise h
  | commitFailure worker => exact move_commitFailure h
  | releaseLeases worker now => exact move_releaseLeases h
  | crash worker =>
      cases h
      exact .idled _ worker

end LifecycleState

end CryptoAlert
