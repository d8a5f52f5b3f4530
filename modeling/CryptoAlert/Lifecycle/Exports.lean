import CryptoAlert.Lifecycle.Moves
import CryptoAlert.Projections.EventSequence

/-!
# What an export can hold

A job that has succeeded holds the manifest of one bundle, and this bundle or the mark of a
deletion. The bundle lists the tables of the configuration, each with rows that the owner had in
it at some moment of the run.
-/

namespace CryptoAlert

/-- The manifest of a bundle. -/
def manifestOf (hashing : Hashing) (bundle : ExportBundle) : ExportManifest where
  exportId := bundle.exportId
  generatedAt := bundle.generatedAt
  bundleSha256 := hashing.payloadHash bundle.toJson
  tables := bundle.records.map fun (table, rows) =>
    (table, rows.length, hashing.payloadHash (.arr (rows.map SafeRow.toJson)))

theorem buildExportPayload_eq (hashing : Hashing) (job : DataExportJob) (records : ExportRecords)
    (policy : Option DataLifecyclePolicy) (now : ℕ) :
    ∃ bundle : ExportBundle, bundle.exportId = job.id ∧ bundle.records = records ∧
      buildExportPayload hashing job records policy now = (bundle, manifestOf hashing bundle,
        computeManifestHash hashing (manifestOf hashing bundle)) :=
  ⟨_, rfl, rfl, rfl⟩

/-- A manifest and its bundle pass the check that reads them back. -/
theorem validateManifestHash_manifestOf (hashing : Hashing) (bundle : ExportBundle) :
    validateManifestHash hashing (manifestOf hashing bundle)
      (computeManifestHash hashing (manifestOf hashing bundle)) (some (.exported bundle)) =
        .ok () := by
  rw [validateManifestHash, if_neg (fun h => h rfl), if_neg (fun h => h rfl)]
  exact if_neg fun h => h rfl

/-- The records are safe copies of rows that the owner is known to have had. -/
def ExportRecords.Genuine (known : ProductRow → Prop) (owner : ℕ) (records : ExportRecords) :
    Prop :=
  ∀ table rows, (table, rows) ∈ records → ∀ r ∈ rows,
    ∃ row, known row ∧ row.owner = owner ∧ row.table = table ∧ r = SafeRow.ofRow row

namespace DataExportJob

/-- Nothing has been exported yet. -/
structure Unexported (job : DataExportJob) : Prop where
  manifest : job.manifest = none
  manifestHash : job.manifestHash = none
  manifestVersion : job.manifestVersion = none
  bundle : job.bundle = none ∨ job.bundle = some .scrubbed

/-- The job holds the manifest of a bundle, and the bundle itself unless a deletion has taken it. -/
structure Exported (hashing : Hashing) (job : DataExportJob) (bundle : ExportBundle) : Prop where
  exportId : bundle.exportId = job.id
  manifest : job.manifest = some (manifestOf hashing bundle)
  manifestHash : job.manifestHash =
    some (computeManifestHash hashing (manifestOf hashing bundle))
  manifestVersion : job.manifestVersion = some 1
  bundle : job.bundle = some (.exported bundle) ∨ job.bundle = some .scrubbed

variable {cfg : LifecycleConfig} {known known' : ProductRow → Prop}
  {job row : DataExportJob} {now : ℕ} {worker : String}

/-- What holds of an export job. -/
structure Sound (cfg : LifecycleConfig) (known : ProductRow → Prop) (job : DataExportJob) :
    Prop where
  unexported : job.status ≠ .succeeded → job.Unexported
  exported : job.status = .succeeded → ∃ bundle, job.Exported cfg.hashing bundle ∧
    bundle.records.map Prod.fst = cfg.tables ∧ bundle.records.Genuine known job.owner

theorem Sound.of_unexported (h : job.Unexported) (status : ExportStatus)
    (hstatus : job.status = status) (hne : status ≠ .succeeded) : job.Sound cfg known := by
  rw [← hstatus] at hne
  exact ⟨fun _ => h, fun hsucceeded => absurd hsucceeded hne⟩

theorem Sound.mono (h : job.Sound cfg known) (hknown : ∀ row, known row → known' row) :
    job.Sound cfg known' := by
  refine ⟨h.unexported, fun hstatus => ?_⟩
  obtain ⟨bundle, hexported, htables, hgenuine⟩ := h.exported hstatus
  refine ⟨bundle, hexported, htables, fun table rows hmem r hr => ?_⟩
  obtain ⟨row, hrow, hrest⟩ := hgenuine table rows hmem r hr
  exact ⟨row, hknown row hrow, hrest⟩

theorem ne_succeeded_of_isDue (h : job.isDue now = true) : job.status ≠ .succeeded := by
  intro hstatus
  simp [isDue, hstatus] at h

theorem status_of_isHeldBy (h : job.isHeldBy worker = true) : job.status = .running := by
  rw [isHeldBy, Bool.and_eq_true, decide_eq_true_eq] at h
  exact h.1

theorem Sound.unexported_of_isHeldBy (h : job.Sound cfg known)
    (hheld : job.isHeldBy worker = true) : job.Unexported := by
  apply h.unexported
  rw [status_of_isHeldBy hheld]
  decide

theorem Sound.claim (h : job.Sound cfg known) (hdue : job.isDue now = true) (leaseUntil : ℕ) :
    (job.claim worker leaseUntil).Sound cfg known := by
  obtain ⟨hmanifest, hhash, hversion, hbundle⟩ := h.unexported (ne_succeeded_of_isDue hdue)
  exact .of_unexported ⟨hmanifest, hhash, hversion, hbundle⟩ .running rfl (by decide)

theorem Sound.fail (h : job.Sound cfg known) (hheld : job.isHeldBy worker = true)
    (errorType : String) : (job.fail errorType).Sound cfg known := by
  obtain ⟨hmanifest, hhash, hversion, hbundle⟩ := h.unexported_of_isHeldBy hheld
  exact .of_unexported ⟨hmanifest, hhash, hversion, hbundle⟩ .failed rfl (by decide)

theorem Sound.release (h : job.Sound cfg known) (hheld : job.isHeldBy worker = true) :
    (job.release now).Sound cfg known := by
  obtain ⟨hmanifest, hhash, hversion, hbundle⟩ := h.unexported_of_isHeldBy hheld
  exact .of_unexported ⟨hmanifest, hhash, hversion, hbundle⟩ .queued rfl (by decide)

theorem Sound.scrub (h : job.Sound cfg known) : (job.scrub now).Sound cfg known := by
  refine ⟨fun hstatus => ?_, fun hstatus => ?_⟩
  · obtain ⟨hmanifest, hhash, hversion, -⟩ := h.unexported hstatus
    exact ⟨hmanifest, hhash, hversion, .inr rfl⟩
  · obtain ⟨bundle, ⟨hid, hmanifest, hhash, hversion, -⟩, hrest⟩ := h.exported hstatus
    exact ⟨bundle, ⟨hid, hmanifest, hhash, hversion, .inr rfl⟩, hrest⟩

/-- A commit sends everything that it has collected, since the loaded copy had none of it. -/
theorem Sound.flush_complete {records : ExportRecords} (hunexported : job.Unexported)
    (hrunning : job.status = .running) (hid : row.id = job.id) (howner : row.owner = job.owner)
    (htables : records.map Prod.fst = cfg.tables) (hgenuine : records.Genuine known job.owner)
    (policy : Option DataLifecyclePolicy) (now : ℕ) :
    (flush job (job.complete (buildExportPayload cfg.hashing job records policy now) now)
      row).Sound cfg known := by
  obtain ⟨bundle, hexport, hrecords, hpayload⟩ :=
    buildExportPayload_eq cfg.hashing job records policy now
  obtain ⟨hmanifest, hhash, hversion, hbundle⟩ := hunexported
  rw [hpayload]
  have hstatus : (flush job (job.complete (bundle, manifestOf cfg.hashing bundle,
      computeManifestHash cfg.hashing (manifestOf cfg.hashing bundle)) now) row).status =
        .succeeded := by
    refine sent_of_ne ?_
    rw [hrunning]
    intro h
    cases h
  refine ⟨fun h => absurd hstatus h, fun _ => ⟨bundle, ⟨?_, ?_, ?_, ?_, ?_⟩, ?_, ?_⟩⟩
  · rw [hexport]
    exact hid.symm
  · refine sent_of_ne ?_
    rw [hmanifest]
    exact Option.some_ne_none _
  · refine sent_of_ne ?_
    rw [hhash]
    exact Option.some_ne_none _
  · refine sent_of_ne ?_
    rw [hversion]
    exact Option.some_ne_none _
  · refine .inl (sent_of_ne ?_)
    obtain hbundle | hbundle := hbundle
    · rw [hbundle]
      exact Option.some_ne_none _
    · rw [hbundle]
      intro h
      cases h
  · rw [hrecords, htables]
  · rw [hrecords]
    rw [← howner] at hgenuine
    exact hgenuine

end DataExportJob

namespace LifecycleState

/-- An export that is being collected: the job as it was loaded, the tables that are still to be
read and the records read so far. -/
structure Collecting (cfg : LifecycleConfig) (known : ProductRow → Prop)
    (exports : List DataExportJob) (job : DataExportJob) (pending : List String)
    (records : ExportRecords) : Prop where
  unexported : job.Unexported
  running : job.status = .running
  stored : ∃ row ∈ exports, row.id = job.id ∧ row.owner = job.owner
  tables : records.map Prod.fst ++ pending = cfg.tables
  genuine : records.Genuine known job.owner

/-- What holds of the export jobs and of the exports that are being collected. -/
structure ExportsSound (cfg : LifecycleConfig) (known : ProductRow → Prop) (s : LifecycleState) :
    Prop where
  ids : (s.exports.map DataExportJob.id).Nodup
  jobs : ∀ job ∈ s.exports, job.Sound cfg known
  collecting : ∀ worker job pending records,
    s.activity worker = .exporting job pending records →
      Collecting cfg known s.exports job pending records

variable {cfg : LifecycleConfig} {known known' : ProductRow → Prop} {s s' : LifecycleState}
  {worker : String}

namespace ExportsSound

theorem init : ExportsSound cfg known {} := by
  refine ⟨List.nodup_nil, fun _ h => ?_, fun _ _ _ _ h => ?_⟩
  · cases h
  · cases h

theorem mono (h : s.ExportsSound cfg known) (hknown : ∀ row, known row → known' row) :
    s.ExportsSound cfg known' := by
  refine ⟨h.ids, fun job hjob => (h.jobs job hjob).mono hknown, ?_⟩
  intro worker job pending records hactivity
  obtain ⟨hunexported, hrunning, hstored, htables, hgenuine⟩ :=
    h.collecting worker job pending records hactivity
  refine ⟨hunexported, hrunning, hstored, htables, fun table rows hmem r hr => ?_⟩
  obtain ⟨row, hrow, hrest⟩ := hgenuine table rows hmem r hr
  exact ⟨row, hknown row hrow, hrest⟩

/-- Only the export jobs and the activities matter. -/
theorem congr (h : s.ExportsSound cfg known) (hexports : s'.exports = s.exports)
    (hactivity : s'.activity = s.activity) : s'.ExportsSound cfg known := by
  refine ⟨?_, ?_, ?_⟩
  · rw [hexports]
    exact h.ids
  · rw [hexports]
    exact h.jobs
  · intro worker job pending records hcurrent
    rw [hactivity] at hcurrent
    obtain ⟨hunexported, hrunning, hstored, htables, hgenuine⟩ :=
      h.collecting worker job pending records hcurrent
    rw [← hexports] at hstored
    exact ⟨hunexported, hrunning, hstored, htables, hgenuine⟩

theorem setActivity (h : s.ExportsSound cfg known) {activity : LifecycleActivity}
    (hcollecting : ∀ job pending records, activity = .exporting job pending records →
      Collecting cfg known s.exports job pending records) :
    (s.setActivity worker activity).ExportsSound cfg known := by
  refine ⟨h.ids, h.jobs, ?_⟩
  refine forall_setActivity (p := fun _ a => ∀ job pending records,
    a = .exporting job pending records → Collecting cfg known s.exports job pending records) ?_ hcollecting
  exact h.collecting

/-- A worker that does not collect an export. -/
theorem leave (h : s.ExportsSound cfg known) {activity : LifecycleActivity}
    (hopen : activity.openExport = none) :
    (s.setActivity worker activity).ExportsSound cfg known := by
  refine h.setActivity fun job pending records hactivity => ?_
  rw [hactivity] at hopen
  cases hopen

theorem mapExports (h : s.ExportsSound cfg known) {f : DataExportJob → DataExportJob}
    (hid : ∀ job ∈ s.exports, (f job).id = job.id)
    (howner : ∀ job ∈ s.exports, (f job).owner = job.owner)
    (hsound : ∀ job ∈ s.exports, (f job).Sound cfg known) :
    (s.mapExports f).ExportsSound cfg known := by
  refine ⟨?_, ?_, ?_⟩
  · have hids : (s.exports.map f).map DataExportJob.id = s.exports.map DataExportJob.id := by
      rw [List.map_map]
      exact List.map_congr_left hid
    have hnodup := h.ids
    rw [← hids] at hnodup
    exact hnodup
  · intro job hjob
    obtain ⟨old, hold, rfl⟩ := List.mem_map.mp hjob
    exact hsound old hold
  · intro worker job pending records hactivity
    obtain ⟨hunexported, hrunning, ⟨row, hrow, hrowId, hrowOwner⟩, htables, hgenuine⟩ :=
      h.collecting worker job pending records hactivity
    have hstored : f row ∈ s.exports.map f := List.mem_map_of_mem hrow
    refine ⟨hunexported, hrunning, ⟨f row, hstored, ?_, ?_⟩, htables, hgenuine⟩
    · rw [hid row hrow, hrowId]
    · rw [howner row hrow, hrowOwner]

theorem putExport (h : s.ExportsSound cfg known) {row new : DataExportJob} (hrow : row ∈ s.exports)
    (hsound : new.Sound cfg known) (hid : new.id = row.id) (howner : new.owner = row.owner) :
    (s.putExport new).ExportsSound cfg known := by
  have hsame : ∀ job ∈ s.exports, job.id = new.id → job = row := by
    intro job hjob hkey
    exact List.inj_on_of_nodup_map h.ids hjob hrow (hkey.trans hid)
  refine h.mapExports (f := fun job => if job.id = new.id then new else job) ?_ ?_ ?_
  · intro job hjob
    by_cases hkey : job.id = new.id
    · rw [if_pos hkey, hkey]
    · rw [if_neg hkey]
  · intro job hjob
    by_cases hkey : job.id = new.id
    · rw [if_pos hkey, hsame job hjob hkey, howner]
    · rw [if_neg hkey]
  · intro job hjob
    by_cases hkey : job.id = new.id
    · rw [if_pos hkey]
      exact hsound
    · rw [if_neg hkey]
      exact h.jobs job hjob

/-- The jobs that a worker holds are rewritten. -/
theorem mapHeld (h : s.ExportsSound cfg known) (worker : String) (p : DataExportJob → Prop)
    [DecidablePred p] (f : DataExportJob → DataExportJob) (hheld : ∀ job, p job → job.isHeldBy worker = true)
    (hid : ∀ job, (f job).id = job.id) (howner : ∀ job, (f job).owner = job.owner)
    (hsound : ∀ job : DataExportJob, job.Sound cfg known → job.isHeldBy worker = true →
      (f job).Sound cfg known) :
    (s.mapExports fun job => if p job then f job else job).ExportsSound cfg known := by
  refine h.mapExports ?_ ?_ ?_
  · intro job _
    by_cases hp : p job
    · rw [if_pos hp, hid]
    · rw [if_neg hp]
  · intro job _
    by_cases hp : p job
    · rw [if_pos hp, howner]
    · rw [if_neg hp]
  · intro job hjob
    by_cases hp : p job
    · rw [if_pos hp]
      exact hsound job (h.jobs job hjob) (hheld job hp)
    · rw [if_neg hp]
      exact h.jobs job hjob

theorem append (h : s.ExportsSound cfg known) {job : DataExportJob}
    (hfresh : ∀ j ∈ s.exports, j.id ≠ job.id) (hsound : job.Sound cfg known) :
    ({ s with exports := s.exports ++ [job] } : LifecycleState).ExportsSound cfg known := by
  refine ⟨Table.nodup_insert h.ids hfresh, ?_, ?_⟩
  · rw [List.forall_mem_append, List.forall_mem_singleton]
    exact ⟨h.jobs, hsound⟩
  · intro worker job' pending records hactivity
    obtain ⟨hunexported, hrunning, ⟨row, hrow, hstored⟩, htables, hgenuine⟩ :=
      h.collecting worker job' pending records hactivity
    exact ⟨hunexported, hrunning, ⟨row, List.mem_append_left _ hrow, hstored⟩, htables, hgenuine⟩

end ExportsSound

theorem openExport_raised {activity handler : LifecycleActivity} {errorType : String}
    (h : activity.raised errorType = some handler) : handler.openExport = none := by
  cases activity <;> cases h <;> rfl

/-- The tables of an export go on with the next one. -/
theorem Collecting.read {job : DataExportJob} {table : String} {pending : List String}
    {records : ExportRecords} (h : Collecting cfg known s.exports job (table :: pending) records)
    (hknown : ∀ row ∈ s.rows, known row) :
    Collecting cfg known s.exports job pending
      (records ++ [(table, (s.rowsOf job.owner table).map SafeRow.ofRow)]) := by
  refine ⟨h.unexported, h.running, h.stored, ?_, ?_⟩
  · rw [List.map_append, List.append_assoc]
    exact h.tables
  · intro table' rows hmem r hr
    rw [List.mem_append, List.mem_singleton] at hmem
    obtain hmem | hmem := hmem
    · exact h.genuine table' rows hmem r hr
    · cases hmem
      obtain ⟨row, hrow, rfl⟩ := List.mem_map.mp hr
      rw [rowsOf, List.mem_filter, Bool.and_eq_true, beq_iff_eq, beq_iff_eq] at hrow
      exact ⟨row, hknown row hrow.1, hrow.2.1, hrow.2.2, rfl⟩

theorem ExportsSound.move {label : LifecycleLabel} (h : s.ExportsSound cfg known)
    (hknown : ∀ row ∈ s.rows, known row) (hmove : s.Move cfg label s') :
    s'.ExportsSound cfg known := by
  cases hmove with
  | refused => exact h
  | policyUpdated | deletionCreated | rowInserted | rowRewritten | rowRemoved =>
      exact h.congr rfl rfl
  | exportCreated actor id key now job hfresh hnew =>
      refine h.append ?_ ?_
      · rw [hnew]
        exact hfresh
      · rw [hnew]
        exact .of_unexported ⟨rfl, rfl, rfl, .inl rfl⟩ .queued rfl (by decide)
  | exportClaimed worker id now job _ _ hfound hdue =>
      obtain ⟨hmem, -⟩ := Table.find_eq_some hfound
      exact (h.putExport hmem ((h.jobs job hmem).claim hdue _) rfl rfl).leave rfl
  | deletionClaimed | blocked =>
      refine ExportsSound.leave ?_ rfl
      exact h.congr rfl rfl
  | recordCommitted | finished | deletionFailed =>
      refine ExportsSound.leave ?_ rfl
      exact h.congr rfl rfl
  | deleteCalled =>
      refine ExportsSound.leave ?_ rfl
      exact h.congr rfl rfl
  | idled | deletionLoaded | holdFound | holdAbsent | tableErased | exportsScrubbed
  | tableScanned | adapterSkipped | deleteAnswered | answered | recordLost | recordLoaded
  | finishLoaded => exact h.leave rfl
  | raised worker errorType handler hgoes => exact h.leave (openExport_raised hgoes)
  | exportLoaded worker job _ hmem hheld =>
      refine h.setActivity fun job' pending records hactivity => ?_
      cases hactivity
      have hrunning := DataExportJob.status_of_isHeldBy hheld
      have hunexported := (h.jobs job hmem).unexported_of_isHeldBy hheld
      exact ⟨hunexported, hrunning, ⟨job, hmem, rfl, rfl⟩, rfl,
        fun _ _ hmem => by cases hmem⟩
  | tableRead worker job table pending records hactivity =>
      refine h.setActivity fun job' pending' records' hnext => ?_
      cases hnext
      exact (h.collecting worker job (table :: pending) records hactivity).read hknown
  | exportCommitted worker now job row records hactivity hfound =>
      obtain ⟨hmem, hid⟩ := Table.find_eq_some hfound
      obtain ⟨hunexported, hrunning, ⟨stored, hstored, hstoredId, hstoredOwner⟩, htables,
        hgenuine⟩ := h.collecting worker job [] records hactivity
      have hrow : row = stored :=
        List.inj_on_of_nodup_map h.ids hmem hstored (hid.trans hstoredId.symm)
      rw [List.append_nil] at htables
      rw [← hrow] at hstoredOwner
      have hsound := DataExportJob.Sound.flush_complete hunexported hrunning hid
        hstoredOwner htables hgenuine (s.policies job.owner) now
      exact (h.putExport hmem hsound rfl rfl).leave rfl
  | erasureCommitted worker now job row policy gone scrubbed survivors deletion scan next
      hactivity hfound hdeleted hscanned hgoes =>
      have hopen : next.openExport = none := by
        obtain rfl | rfl := hgoes
        · rfl
        · rfl
      refine ExportsSound.leave ?_ hopen
      have hscrubbed : (s.mapExports fun row =>
          if row.id ∈ scrubbed then row.scrub now else row).ExportsSound cfg known := by
        refine h.mapExports ?_ ?_ ?_
        · intro job _
          by_cases hjob : job.id ∈ scrubbed
          · rw [if_pos hjob]
            rfl
          · rw [if_neg hjob]
        · intro job _
          by_cases hjob : job.id ∈ scrubbed
          · rw [if_pos hjob]
            rfl
          · rw [if_neg hjob]
        · intro job hmem
          by_cases hjob : job.id ∈ scrubbed
          · rw [if_pos hjob]
            exact (h.jobs job hmem).scrub
          · rw [if_neg hjob]
            exact h.jobs job hmem
      exact hscrubbed.congr rfl rfl
  | exportFailed worker jobId errorType =>
      have hfailed := h.mapHeld worker (fun job => job.id = jobId ∧ job.isHeldBy worker)
        (fun job => job.fail errorType) (fun _ hp => hp.2) (fun _ => rfl) (fun _ => rfl)
        fun job hsound hheld => hsound.fail hheld errorType
      exact hfailed.leave rfl
  | released worker now =>
      have hreleased := h.mapHeld worker (fun job => job.isHeldBy worker = true)
        (fun job => job.release now) (fun _ hp => hp) (fun _ => rfl) (fun _ => rfl)
        fun job hsound hheld => hsound.release hheld
      exact hreleased.congr rfl rfl

/-- The rows that the run has passed. -/
def HadRow (cfg : LifecycleConfig) (s : LifecycleState) (row : ProductRow) : Prop :=
  Passed (step cfg) anyStep {} s fun u => row ∈ u.rows

theorem exportsSound_of_reaches (h : Reaches (step cfg) anyStep {} s) :
    s.ExportsSound cfg (HadRow cfg s) := by
  induction h with
  | refl => exact .init
  | tail hrun label hok hstep ih =>
      have hnow : ∀ row ∈ LifecycleState.rows _, HadRow cfg _ row :=
        fun row hrow => Passed.now hrun hrow
      refine (ih.move hnow (move_of_step hstep)).mono fun row hrow => ?_
      exact hrow.tail (Reaches.refl.tail label hok hstep)

def plainLifecycle : LifecycleConfig := ⟨plainHashing, ["tasks"], ["a", "b"], 60, fun _ _ => true⟩

/-- One actor has a row and exports it. -/
def exportRun : List LifecycleLabel :=
  [.editRow (.insert "tasks" 1 []), .createExport 1 0 "k" 1, .claimExport "a" 0 2, .loadExport "a",
    .readTable "a", .commitExport "a" 3]

end LifecycleState

namespace DataExportJob

variable {hashing : Hashing} {job : DataExportJob} {jobs : List DataExportJob}
  {actor exportId : ℕ} {bundle : ExportBundle}

/-- What `get_export_bundle` returns of the job that it has found. -/
def bundleView (job : DataExportJob) : ExportBundleView :=
  ⟨job.id, job.status, job.manifestVersion, job.manifestHash, job.bundle⟩

theorem getExportBundle_of_unfinished
    (h : (jobs.find? fun job => job.id == exportId && job.owner == actor) = some job)
    (hstatus : job.status ≠ .succeeded) :
    getExportBundle hashing jobs actor exportId = .ok (some job.bundleView) := by
  rw [getExportBundle, h]
  dsimp only
  split
  · rename_i manifest hash heq
    rw [Prod.mk.injEq] at heq
    exact absurd heq.1 hstatus
  · rfl

theorem Exported.getExportBundle (hexported : job.Exported hashing bundle)
    (h : (jobs.find? fun job => job.id == exportId && job.owner == actor) = some job)
    (hstatus : job.status = .succeeded) :
    getExportBundle hashing jobs actor exportId = .ok (some job.bundleView) ∨
      (getExportBundle hashing jobs actor exportId = .error .bundleTampered ∧
        job.bundle = some .scrubbed) := by
  obtain ⟨-, hmanifest, hhash, -, hbundle⟩ := hexported
  have hvalid := validateManifestHash_manifestOf hashing bundle
  have hview : job.bundleView = ⟨job.id, job.status, job.manifestVersion, job.manifestHash,
    job.bundle⟩ := rfl
  rw [hview, CryptoAlert.getExportBundle, h]
  dsimp only
  rw [hstatus, hmanifest, hhash]
  dsimp only
  by_cases hempty : (computeManifestHash hashing (manifestOf hashing bundle)).isEmpty = true
  · rw [if_pos hempty]
    exact .inl rfl
  · rw [if_neg hempty]
    obtain hbundle | hbundle := hbundle
    · rw [hbundle, hvalid]
      exact .inl rfl
    · rw [hbundle, validateManifestHash, if_neg (fun h => h rfl), if_neg (fun h => h rfl)]
      by_cases hsame : (manifestOf hashing bundle).bundleSha256 ≠
          hashing.payloadHash StoredBundle.scrubbed.toJson
      · rw [if_pos hsame]
        exact .inr ⟨rfl, rfl⟩
      · rw [if_neg hsame]
        exact .inl rfl

end DataExportJob

namespace LifecycleState

variable {cfg : LifecycleConfig} {s : LifecycleState}

/-- The actor of the export asks for a deletion, which replaces the bundle by its mark. -/
def scrubRun : List LifecycleLabel := exportRun ++
  [.createDeletion 1 0 "DELETE MY DATA" "k" 4, .claimDeletion "a" 0 5, .loadDeletion "a",
    .checkHold "a", .eraseTable "a", .scrubExports "a", .scanTable "a", .commitErasure "a" 6]

end LifecycleState

end CryptoAlert
