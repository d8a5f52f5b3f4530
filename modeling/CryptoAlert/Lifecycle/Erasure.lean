import CryptoAlert.Lifecycle.DeletionStatus

/-!
# What a deletion erases

A deletion erases committed rows of its own actor, holds them until it commits, and two deletions
never erase the same row. What was erased does not come back.
-/

namespace CryptoAlert

/-- The tables whose rows the open transaction is still to erase. -/
def LifecycleActivity.pendingTables : LifecycleActivity → List String
  | .erasing _ _ pending _ => pending
  | _ => []

namespace LifecycleState

/-- What holds of what a worker is doing to the rows. -/
structure OpenErasure (rows : List ProductRow) (deletions : List DataDeletionJob)
    (activity : LifecycleActivity) : Prop where
  stored : ∀ job ∈ activity.openDeletion,
    ∃ row ∈ deletions, row.id = job.id ∧ row.owner = job.owner
  present : ∀ row ∈ activity.erasedRows, row ∈ rows ∧ row.table ∉ activity.pendingTables ∧
    ∀ job ∈ activity.openDeletion, row.owner = job.owner
  rowIds : (activity.erasedRows.map ProductRow.id).Nodup
  tables : activity.pendingTables.Nodup

/-- What holds of the rows and of the erasures, open and committed. -/
structure ErasuresSound (cfg : LifecycleConfig) (s : LifecycleState) : Prop where
  configured : ∀ worker, s.activity worker ≠ .idle → worker ∈ cfg.workers
  jobIds : (s.deletions.map DataDeletionJob.id).Nodup
  rowIds : (s.rows.map ProductRow.id).Nodup
  below : ∀ row ∈ s.rows, row.id < s.nextRow
  opened : ∀ worker, OpenErasure s.rows s.deletions (s.activity worker)
  disjoint : ∀ worker other, worker ≠ other → ∀ row ∈ (s.activity worker).erasedRows,
    ∀ row' ∈ (s.activity other).erasedRows, row.id ≠ row'.id
  gone : ∀ erasure ∈ s.erasures, erasure.2.id < s.nextRow ∧
    (∀ row ∈ s.rows, row.id ≠ erasure.2.id) ∧
    ∃ job ∈ s.deletions, job.id = erasure.1 ∧ job.owner = erasure.2.owner
  once : (s.erasures.map fun erasure => erasure.2.id).Nodup

variable {cfg : LifecycleConfig} {s s' : LifecycleState} {worker : String}
  {activity : LifecycleActivity}

theorem OpenErasure.none {rows : List ProductRow} {deletions : List DataDeletionJob}
    (herased : activity.erasedRows = []) (hpending : activity.pendingTables = [])
    (hstored : ∀ job ∈ activity.openDeletion,
      ∃ row ∈ deletions, row.id = job.id ∧ row.owner = job.owner) :
    OpenErasure rows deletions activity := by
  refine ⟨hstored, ?_, ?_, ?_⟩
  · rw [herased]
    exact fun _ h => by cases h
  · rw [herased]
    exact List.nodup_nil
  · rw [hpending]
    exact List.nodup_nil

/-- A worker that has no deletion job loaded. -/
theorem OpenErasure.of_closed {rows : List ProductRow} {deletions : List DataDeletionJob}
    (hclosed : activity.openDeletion = Option.none) : OpenErasure rows deletions activity := by
  have herased : activity.erasedRows = [] := by
    cases activity <;> first | rfl | cases hclosed
  have hpending : activity.pendingTables = [] := by
    cases activity <;> first | rfl | cases hclosed
  refine .none herased hpending fun job hjob => ?_
  rw [hclosed] at hjob
  cases hjob

namespace ErasuresSound

/-- A step that keeps the rows, the erasures and the activities, and the jobs up to what is not
their id or their owner. -/
theorem congr (h : s.ErasuresSound cfg) (hrows : s'.rows = s.rows)
    (hnext : s'.nextRow = s.nextRow) (herasures : s'.erasures = s.erasures)
    (hactivity : s'.activity = s.activity)
    (hkeys : s'.deletions.map DataDeletionJob.id = s.deletions.map DataDeletionJob.id)
    (hjobs : ∀ job ∈ s.deletions, ∃ job' ∈ s'.deletions, job'.id = job.id ∧
      job'.owner = job.owner) : s'.ErasuresSound cfg := by
  obtain ⟨hconfigured, hjobIds, hrowIds, hbelow, hopened, hdisjoint, hgone, honce⟩ := h
  refine ⟨?_, ?_, ?_, ?_, ?_, ?_, ?_, ?_⟩
  · rw [hactivity]
    exact hconfigured
  · rw [hkeys]
    exact hjobIds
  · rw [hrows]
    exact hrowIds
  · rw [hrows, hnext]
    exact hbelow
  · intro worker
    rw [hactivity, hrows]
    obtain ⟨hstored, hpresent, hids, htables⟩ := hopened worker
    refine ⟨fun job hjob => ?_, hpresent, hids, htables⟩
    obtain ⟨row, hrow, hid, howner⟩ := hstored job hjob
    obtain ⟨row', hrow', hid', howner'⟩ := hjobs row hrow
    exact ⟨row', hrow', hid'.trans hid, howner'.trans howner⟩
  · rw [hactivity]
    exact hdisjoint
  · rw [herasures, hrows, hnext]
    intro erasure herasure
    obtain ⟨hlt, habsent, job, hjob, hid, howner⟩ := hgone erasure herasure
    obtain ⟨job', hjob', hid', howner'⟩ := hjobs job hjob
    exact ⟨hlt, habsent, job', hjob', hid'.trans hid, howner'.trans howner⟩
  · rw [herasures]
    exact honce

/-- A step that leaves the deletion jobs alone as well. -/
theorem congr_same (h : s.ErasuresSound cfg) (hrows : s'.rows = s.rows)
    (hnext : s'.nextRow = s.nextRow) (herasures : s'.erasures = s.erasures)
    (hactivity : s'.activity = s.activity) (hdeletions : s'.deletions = s.deletions) :
    s'.ErasuresSound cfg := by
  refine h.congr hrows hnext herasures hactivity (by rw [hdeletions]) fun job hjob => ?_
  rw [← hdeletions] at hjob
  exact ⟨job, hjob, rfl, rfl⟩

/-- The deletion jobs are rewritten, but for their ids and owners. -/
theorem mapDeletions (h : s.ErasuresSound cfg) {f : DataDeletionJob → DataDeletionJob}
    (hid : ∀ job ∈ s.deletions, (f job).id = job.id)
    (howner : ∀ job ∈ s.deletions, (f job).owner = job.owner) :
    (s.mapDeletions f).ErasuresSound cfg := by
  refine h.congr rfl rfl rfl rfl ?_ fun job hjob => ?_
  · rw [LifecycleState.mapDeletions, List.map_map]
    exact List.map_congr_left hid
  · exact ⟨f job, List.mem_map_of_mem hjob, hid job hjob, howner job hjob⟩

theorem putDeletion (h : s.ErasuresSound cfg) {row : DataDeletionJob} (new : DataDeletionJob)
    (hrow : row ∈ s.deletions) (hid : new.id = row.id) (howner : new.owner = row.owner) :
    (s.putDeletion new).ErasuresSound cfg := by
  refine h.mapDeletions (f := fun job => if job.id = new.id then new else job) ?_ ?_
  · intro job _
    by_cases hkey : job.id = new.id
    · rw [if_pos hkey, hkey]
    · rw [if_neg hkey]
  · intro job hjob
    by_cases hkey : job.id = new.id
    · rw [if_pos hkey, howner, List.inj_on_of_nodup_map h.jobIds hjob hrow (hkey.trans hid)]
    · rw [if_neg hkey]

/-- The jobs that a worker holds are rewritten. -/
theorem mapHeld (h : s.ErasuresSound cfg) {p : DataDeletionJob → Prop} [DecidablePred p]
    {f : DataDeletionJob → DataDeletionJob} (hid : ∀ job, (f job).id = job.id)
    (howner : ∀ job, (f job).owner = job.owner) :
    (s.mapDeletions fun job => if p job then f job else job).ErasuresSound cfg := by
  refine h.mapDeletions ?_ ?_
  · intro job _
    by_cases hp : p job
    · rw [if_pos hp, hid]
    · rw [if_neg hp]
  · intro job _
    by_cases hp : p job
    · rw [if_pos hp, howner]
    · rw [if_neg hp]

/-- A worker goes on; the rows that it erases in addition were erased by no other. -/
theorem setActivity (h : s.ErasuresSound cfg) (hworker : worker ∈ cfg.workers)
    (hopen : OpenErasure s.rows s.deletions activity)
    (hdisjoint : ∀ other, other ≠ worker → ∀ row ∈ activity.erasedRows,
      ∀ row' ∈ (s.activity other).erasedRows, row.id ≠ row'.id) :
    (s.setActivity worker activity).ErasuresSound cfg := by
  refine ⟨?_, h.jobIds, h.rowIds, h.below, ?_, ?_, h.gone, h.once⟩
  · exact forall_setActivity (p := fun w a => a ≠ .idle → w ∈ cfg.workers) h.configured
      fun _ => hworker
  · exact forall_setActivity (p := fun _ a => OpenErasure s.rows s.deletions a) h.opened hopen
  · intro w w' hne
    by_cases hw : w = worker
    · rw [hw, activity_setActivity]
      have hw' : w' ≠ worker := fun heq => hne (hw.trans heq.symm)
      rw [activity_setActivity_of_ne hw']
      exact hdisjoint w' hw'
    · rw [activity_setActivity_of_ne hw]
      by_cases hw' : w' = worker
      · rw [hw', activity_setActivity]
        intro row hrow row' hrow' heq
        exact hdisjoint w hw row' hrow' row hrow heq.symm
      · rw [activity_setActivity_of_ne hw']
        exact h.disjoint w w' hne

/-- A worker that has erased nothing. -/
theorem leave (h : s.ErasuresSound cfg) (hworker : worker ∈ cfg.workers ∨ activity = .idle)
    (hclosed : activity.openDeletion = none) :
    (s.setActivity worker activity).ErasuresSound cfg := by
  have hopen : OpenErasure s.rows s.deletions activity := .of_closed hclosed
  have herased : activity.erasedRows = [] := by
    cases activity <;> first | rfl | cases hclosed
  obtain hworker | hidle := hworker
  · refine h.setActivity hworker hopen fun _ _ row hrow => ?_
    rw [herased] at hrow
    cases hrow
  · by_cases hworker : worker ∈ cfg.workers
    · refine h.setActivity hworker hopen fun _ _ row hrow => ?_
      rw [herased] at hrow
      cases hrow
    · have hsame : s.setActivity worker activity = s := by
        have hcurrent : s.activity worker = activity := by
          rw [hidle]
          exact not_not.mp (mt (h.configured worker) hworker)
        rw [LifecycleState.setActivity, ← hcurrent, Function.update_eq_self]
      rw [hsame]
      exact h

/-- A worker goes on with the rows that it has erased. -/
theorem goOn (h : s.ErasuresSound cfg) {current : LifecycleActivity}
    (hcurrent : s.activity worker = current) (hbusy : current ≠ .idle)
    (herased : activity.erasedRows = current.erasedRows)
    (hopen : OpenErasure s.rows s.deletions activity) :
    (s.setActivity worker activity).ErasuresSound cfg := by
  have hworker : worker ∈ cfg.workers := by
    apply h.configured worker
    rw [hcurrent]
    exact hbusy
  refine h.setActivity hworker hopen fun other hother row hrow row' hrow' => ?_
  rw [herased, ← hcurrent] at hrow
  exact h.disjoint worker other (Ne.symm hother) row hrow row' hrow'

theorem worker_of_busy (h : s.ErasuresSound cfg) (hactivity : s.activity worker = activity)
    (hbusy : activity ≠ .idle) : worker ∈ cfg.workers := by
  apply h.configured worker
  rw [hactivity]
  exact hbusy

theorem opened_of (h : s.ErasuresSound cfg) (hactivity : s.activity worker = activity) :
    OpenErasure s.rows s.deletions activity := by
  rw [← hactivity]
  exact h.opened worker

/-- A row that no open transaction has erased. -/
theorem ne_of_rowFree {workers : List String} {row : ProductRow}
    (hfree : s.rowFree workers row = true) {other : String} (hother : other ∈ workers)
    {erased : ProductRow} (herased : erased ∈ (s.activity other).erasedRows) :
    erased.id ≠ row.id := by
  rw [rowFree, List.all_eq_true] at hfree
  have hall := hfree other hother
  rw [List.all_eq_true] at hall
  simpa using hall erased herased

theorem insertRow (h : s.ErasuresSound cfg) (table : String) (owner : ℕ)
    (columns : List (String × JsonText.Scalar)) :
    ({ s with
      rows := s.rows ++ [⟨table, s.nextRow, owner, columns⟩]
      nextRow := s.nextRow + 1 } : LifecycleState).ErasuresSound cfg := by
  have hfresh : ∀ row ∈ s.rows, row.id ≠ s.nextRow := fun row hrow => (h.below row hrow).ne
  refine ⟨h.configured, h.jobIds, Table.nodup_insert h.rowIds hfresh, ?_, ?_, h.disjoint, ?_,
    h.once⟩
  · rw [List.forall_mem_append, List.forall_mem_singleton]
    exact ⟨fun row hrow => Nat.lt_succ_of_lt (h.below row hrow), Nat.lt_succ_self _⟩
  · intro worker
    obtain ⟨hstored, hpresent, hids, htables⟩ := h.opened worker
    refine ⟨hstored, fun row hrow => ?_, hids, htables⟩
    obtain ⟨hmem, hrest⟩ := hpresent row hrow
    exact ⟨List.mem_append_left _ hmem, hrest⟩
  · intro erasure herasure
    obtain ⟨hlt, habsent, hjob⟩ := h.gone erasure herasure
    refine ⟨Nat.lt_succ_of_lt hlt, ?_, hjob⟩
    rw [List.forall_mem_append, List.forall_mem_singleton]
    exact ⟨habsent, hlt.ne'⟩

/-- A row that all open transactions leave free has been erased by none of them. -/
theorem ne_of_free (h : s.ErasuresSound cfg) {id : ℕ}
    (hfree : ∀ row ∈ s.rows, row.id = id → s.rowFree cfg.workers row = true)
    {erased : ProductRow} (herased : erased ∈ (s.activity worker).erasedRows) :
    erased.id ≠ id := by
  intro hid
  have hworker : worker ∈ cfg.workers := by
    apply h.configured
    intro hidle
    rw [hidle] at herased
    cases herased
  obtain ⟨hmem, -⟩ := (h.opened worker).present erased herased
  exact ne_of_rowFree (hfree erased hmem hid) hworker herased rfl

theorem rewriteRow (h : s.ErasuresSound cfg) {id : ℕ} (columns : List (String × JsonText.Scalar))
    (hfree : ∀ row ∈ s.rows, row.id = id → s.rowFree cfg.workers row = true) :
    ({ s with rows := s.rows.map fun row =>
        if row.id = id then { row with columns } else row } : LifecycleState).ErasuresSound cfg := by
  have hid : ∀ row : ProductRow, (if row.id = id then { row with columns } else row).id = row.id := by
    intro row
    by_cases hrow : row.id = id
    · rw [if_pos hrow]
    · rw [if_neg hrow]
  refine ⟨h.configured, h.jobIds, ?_, ?_, ?_, h.disjoint, ?_, h.once⟩
  · rw [List.map_map]
    have hids : s.rows.map (ProductRow.id ∘ fun row =>
        if row.id = id then { row with columns } else row) = s.rows.map ProductRow.id :=
      List.map_congr_left fun row _ => hid row
    rw [hids]
    exact h.rowIds
  · rw [List.forall_mem_map]
    intro row hrow
    rw [hid]
    exact h.below row hrow
  · intro worker
    obtain ⟨hstored, hpresent, hids, htables⟩ := h.opened worker
    refine ⟨hstored, fun row hrow => ?_, hids, htables⟩
    obtain ⟨hmem, hrest⟩ := hpresent row hrow
    have hkept : (if row.id = id then { row with columns } else row) = row :=
      if_neg (h.ne_of_free hfree hrow)
    refine ⟨?_, hrest⟩
    rw [← hkept]
    exact List.mem_map_of_mem hmem
  · intro erasure herasure
    obtain ⟨hlt, habsent, hjob⟩ := h.gone erasure herasure
    refine ⟨hlt, ?_, hjob⟩
    rw [List.forall_mem_map]
    intro row hrow
    rw [hid]
    exact habsent row hrow

/-- Some rows go, none of which an open transaction has erased. -/
theorem filterRows (h : s.ErasuresSound cfg) {p : ProductRow → Bool}
    (hkept : ∀ worker, ∀ row ∈ (s.activity worker).erasedRows, p row = true) :
    ({ s with rows := s.rows.filter p } : LifecycleState).ErasuresSound cfg := by
  refine ⟨h.configured, h.jobIds, h.rowIds.sublist (List.filter_sublist.map _), ?_, ?_,
    h.disjoint, ?_, h.once⟩
  · exact fun row hrow => h.below row (List.mem_of_mem_filter hrow)
  · intro worker
    obtain ⟨hstored, hpresent, hids, htables⟩ := h.opened worker
    refine ⟨hstored, fun row hrow => ?_, hids, htables⟩
    obtain ⟨hmem, hrest⟩ := hpresent row hrow
    exact ⟨List.mem_filter.mpr ⟨hmem, hkept worker row hrow⟩, hrest⟩
  · intro erasure herasure
    obtain ⟨hlt, habsent, hjob⟩ := h.gone erasure herasure
    exact ⟨hlt, fun row hrow => habsent row (List.mem_of_mem_filter hrow), hjob⟩

/-- The erasures of a transaction are committed; nobody else has erased these rows. -/
theorem erased (h : s.ErasuresSound cfg) {job row : DataDeletionJob} {gone : List ProductRow}
    (hrow : row ∈ s.deletions) (hid : row.id = job.id) (howner : row.owner = job.owner)
    (new : DataDeletionJob) (hnewId : new.id = row.id) (hnewOwner : new.owner = row.owner)
    (hpresent : ∀ r ∈ gone, r ∈ s.rows ∧ r.owner = job.owner)
    (hnodup : (gone.map ProductRow.id).Nodup)
    (hfree : ∀ worker, ∀ r ∈ (s.activity worker).erasedRows, ∀ r' ∈ gone, r'.id ≠ r.id)
    (scrubbed : List ℕ) (deletion scan : LifecycleAdapterResult) (now : ℕ) :
    (s.erased job new gone scrubbed deletion scan now).ErasuresSound cfg := by
  have hrows := (h.putDeletion new hrow hnewId hnewOwner).filterRows
    (p := fun row => gone.all fun r => r.id != row.id) fun worker r hr => by
      rw [List.all_eq_true]
      exact fun r' hr' => bne_iff_ne.mpr (hfree worker r hr r' hr')
  have hstored : new ∈ Table.put DataDeletionJob.id s.deletions new :=
    Table.mem_put_self hrow hnewId.symm
  refine ⟨hrows.configured, hrows.jobIds, hrows.rowIds, hrows.below, hrows.opened, hrows.disjoint,
    ?_, ?_⟩
  · change ∀ erasure ∈ s.erasures ++ gone.map fun row => (job.id, row), _
    rw [List.forall_mem_append]
    refine ⟨hrows.gone, ?_⟩
    rw [List.forall_mem_map]
    intro r hr
    obtain ⟨hmem, hrOwner⟩ := hpresent r hr
    refine ⟨h.below r hmem, fun row' hrow' => ?_, new, hstored, hnewId.trans hid, ?_⟩
    · have hkept := (List.mem_filter.mp hrow').2
      rw [List.all_eq_true] at hkept
      exact fun heq => bne_iff_ne.mp (hkept r hr) heq.symm
    · rw [hnewOwner, howner, hrOwner]
  · change ((s.erasures ++ gone.map fun row => (job.id, row)).map fun e => e.2.id).Nodup
    rw [List.map_append, List.map_map]
    refine List.Nodup.append h.once hnodup ?_
    intro id hold hnew
    obtain ⟨erasure, herasure, rfl⟩ := List.mem_map.mp hold
    obtain ⟨r, hr, heq⟩ := List.mem_map.mp hnew
    exact (h.gone erasure herasure).2.1 r (hpresent r hr).1 heq

end ErasuresSound

theorem erasedRows_of_closed (h : activity.openDeletion = none) : activity.erasedRows = [] := by
  cases activity <;> first | rfl | cases h

theorem openDeletion_raised {handler : LifecycleActivity} {errorType : String}
    (h : activity.raised errorType = some handler) :
    handler.openDeletion = none ∧ activity ≠ .idle := by
  cases activity <;> cases h <;> exact ⟨rfl, fun h => by cases h⟩

/-- A transaction erases the rows of the next table. -/
theorem ErasuresSound.eraseTable (h : s.ErasuresSound cfg) {job : DataDeletionJob}
    {policy : Option DataLifecyclePolicy} {table : String} {pending : List String}
    {gone : List ProductRow}
    (hactivity : s.activity worker = .erasing job policy (table :: pending) gone)
    (hfree : ∀ row ∈ s.rowsOf job.owner table, s.rowFree (cfg.others worker) row = true) :
    (s.setActivity worker
      (.erasing job policy pending (gone ++ s.rowsOf job.owner table))).ErasuresSound cfg := by
  have hworker : worker ∈ cfg.workers := h.worker_of_busy hactivity fun h => by cases h
  obtain ⟨hstored, hpresent, hids, htables⟩ := h.opened_of hactivity
  obtain ⟨hhead, htables⟩ := List.nodup_cons.mp htables
  have hnew : ∀ row ∈ s.rowsOf job.owner table,
      row ∈ s.rows ∧ row.owner = job.owner ∧ row.table = table := by
    intro row hrow
    rw [rowsOf, List.mem_filter, Bool.and_eq_true, beq_iff_eq, beq_iff_eq] at hrow
    exact hrow
  refine h.setActivity hworker ⟨hstored, ?_, ?_, htables⟩ ?_
  · rw [LifecycleActivity.erasedRows, List.forall_mem_append]
    refine ⟨fun row hrow => ?_, fun row hrow => ?_⟩
    · obtain ⟨hmem, htable, howner⟩ := hpresent row hrow
      exact ⟨hmem, fun hin => htable (List.mem_cons_of_mem _ hin), howner⟩
    · obtain ⟨hmem, howner, htable⟩ := hnew row hrow
      rw [← htable] at hhead
      refine ⟨hmem, hhead, fun loaded hloaded => ?_⟩
      cases hloaded
      exact howner
  · rw [LifecycleActivity.erasedRows, List.map_append]
    refine List.Nodup.append hids (h.rowIds.sublist (List.filter_sublist.map _)) ?_
    intro id hold hnewId
    obtain ⟨row, hrow, rfl⟩ := List.mem_map.mp hold
    obtain ⟨row', hrow', heq⟩ := List.mem_map.mp hnewId
    obtain ⟨hmem, htable, -⟩ := hpresent row hrow
    obtain ⟨hmem', -, htable'⟩ := hnew row' hrow'
    have hsame : row' = row := List.inj_on_of_nodup_map h.rowIds hmem' hmem heq
    rw [hsame] at htable'
    apply htable
    rw [LifecycleActivity.pendingTables, htable']
    exact List.mem_cons_self
  · intro other hother row hrow row' hrow'
    rw [LifecycleActivity.erasedRows, List.mem_append] at hrow
    obtain hrow | hrow := hrow
    · refine h.disjoint worker other (Ne.symm hother) row ?_ row' hrow'
      rw [hactivity]
      exact hrow
    · have hin : other ∈ cfg.others worker := by
        rw [LifecycleConfig.others, List.mem_filter]
        refine ⟨h.configured other fun hidle => ?_, decide_eq_true hother⟩
        rw [hidle] at hrow'
        cases hrow'
      exact (ErasuresSound.ne_of_rowFree (hfree row hrow) hin hrow').symm

theorem ErasuresSound.move (htables : cfg.tables.Nodup) {label : LifecycleLabel}
    (h : s.ErasuresSound cfg) (hmove : s.Move cfg label s') : s'.ErasuresSound cfg := by
  cases hmove with
  | refused => exact h
  | policyUpdated | exportCreated => exact h.congr_same rfl rfl rfl rfl rfl
  | deletionCreated actor id confirmation key now job hfresh hid =>
      refine ⟨h.configured, Table.nodup_insert h.jobIds ?_, h.rowIds, h.below, ?_, h.disjoint,
        ?_, h.once⟩
      · rw [hid]
        exact hfresh
      · intro worker
        obtain ⟨hstored, hpresent, hids, hpending⟩ := h.opened worker
        refine ⟨fun loaded hloaded => ?_, hpresent, hids, hpending⟩
        obtain ⟨row, hrow, hsame⟩ := hstored loaded hloaded
        exact ⟨row, List.mem_append_left _ hrow, hsame⟩
      · intro erasure herasure
        obtain ⟨hlt, habsent, job, hjob, hsame⟩ := h.gone erasure herasure
        exact ⟨hlt, habsent, job, List.mem_append_left _ hjob, hsame⟩
  | rowInserted table owner columns => exact h.insertRow table owner columns
  | rowRewritten id columns hfree => exact h.rewriteRow columns hfree
  | rowRemoved id hfree =>
      refine h.filterRows fun worker row hrow => ?_
      exact decide_eq_true (h.ne_of_free hfree hrow)
  | exportClaimed worker id now job hconfigured hidle hfound hdue =>
      refine ErasuresSound.leave ?_ (.inl hconfigured) rfl
      exact h.congr_same rfl rfl rfl rfl rfl
  | deletionClaimed worker id now job hconfigured hidle hfound hdue =>
      have hclaimed := h.putDeletion (job.claim worker (cfg.leaseUntil now))
        (Table.find_eq_some hfound).1 rfl rfl
      exact hclaimed.leave (.inl hconfigured) rfl
  | idled label worker => exact h.leave (.inr rfl) rfl
  | exportLoaded worker job hactivity =>
      exact h.leave (.inl (h.worker_of_busy hactivity fun h => by cases h)) rfl
  | tableRead worker job table pending records hactivity =>
      exact h.leave (.inl (h.worker_of_busy hactivity fun h => by cases h)) rfl
  | exportCommitted worker now job row records hactivity =>
      refine ErasuresSound.leave ?_ (.inr rfl) rfl
      exact h.congr_same rfl rfl rfl rfl rfl
  | deletionLoaded worker job hactivity hmem hheld =>
      refine h.goOn hactivity (fun h => by cases h) rfl (.none rfl rfl fun loaded hloaded => ?_)
      cases hloaded
      exact ⟨job, hmem, rfl, rfl⟩
  | holdFound worker job reason hactivity =>
      exact h.goOn hactivity (fun h => by cases h) rfl
        (.none rfl rfl (h.opened_of hactivity).stored)
  | holdAbsent worker job hactivity =>
      refine h.goOn hactivity (fun h => by cases h) rfl
        ⟨(h.opened_of hactivity).stored, fun row hrow => ?_, List.nodup_nil, ?_⟩
      · cases hrow
      · exact List.nodup_reverse.mpr htables
  | blocked worker job row reason hactivity hfound =>
      have hblocked := h.putDeletion (DataDeletionJob.flush job (job.block reason) row)
        (Table.find_eq_some hfound).1 rfl rfl
      exact hblocked.leave (.inr rfl) rfl
  | tableErased worker job policy table pending gone hactivity hfree =>
      exact h.eraseTable hactivity hfree
  | exportsScrubbed worker job policy gone hactivity =>
      obtain ⟨hstored, hpresent, hids, hpending⟩ := h.opened_of hactivity
      refine h.goOn hactivity (fun h => by cases h) rfl
        ⟨hstored, fun row hrow => ?_, hids, List.nodup_nil⟩
      obtain ⟨hmem, -, howner⟩ := hpresent row hrow
      exact ⟨hmem, fun hin => (by cases hin), howner⟩
  | tableScanned worker job policy gone scrubbed table pending survivors survivors' hactivity =>
      obtain ⟨hstored, hpresent, hids, hpending⟩ := h.opened_of hactivity
      exact h.goOn hactivity (fun h => by cases h) rfl ⟨hstored, hpresent, hids, hpending⟩
  | erasureCommitted worker now job row policy gone scrubbed survivors deletion scan next
      hactivity hfound hdeleted hscanned hgoes =>
      have hworker := h.worker_of_busy hactivity fun h => by cases h
      obtain ⟨hstored, hpresent, hids, -⟩ := h.opened_of hactivity
      obtain ⟨hmem, hid⟩ := Table.find_eq_some hfound
      obtain ⟨stored, hmem', hid', howner⟩ := hstored job rfl
      have hsame : row = stored := List.inj_on_of_nodup_map h.jobIds hmem hmem' (hid.trans hid'.symm)
      rw [← hsame] at howner
      have hclosed : next.openDeletion = none := by
        obtain rfl | rfl := hgoes
        · rfl
        · rfl
      have hleft : (s.setActivity worker next).ErasuresSound cfg := h.leave (.inl hworker) hclosed
      have hgone : ∀ r ∈ gone, r ∈ s.rows ∧ r.owner = job.owner := by
        intro r hr
        obtain ⟨hr', -, hrOwner⟩ := hpresent r hr
        exact ⟨hr', hrOwner job rfl⟩
      have hfree : ∀ other, ∀ r ∈ ((s.setActivity worker next).activity other).erasedRows,
          ∀ r' ∈ gone, r'.id ≠ r.id := by
        intro other r hr r' hr'
        by_cases hother : other = worker
        · rw [hother, activity_setActivity, erasedRows_of_closed hclosed] at hr
          cases hr
        · rw [activity_setActivity_of_ne hother] at hr
          refine h.disjoint worker other (Ne.symm hother) r' ?_ r hr
          rw [hactivity]
          exact hr'
      exact hleft.erased hmem hid howner (DataDeletionJob.flush job (job.erase deletion scan
        (cfg.leaseUntil now)) row) rfl rfl hgone hids hfree scrubbed deletion scan now
  | adapterSkipped worker now course system systems deletion scan hactivity =>
      exact h.leave (.inl (h.worker_of_busy hactivity fun h => by cases h)) rfl
  | deleteCalled worker course system systems hactivity =>
      refine ErasuresSound.leave ?_ (.inl (h.worker_of_busy hactivity fun h => by cases h)) rfl
      exact h.congr_same rfl rfl rfl rfl rfl
  | deleteAnswered worker result course deletion hactivity =>
      exact h.leave (.inl (h.worker_of_busy hactivity fun h => by cases h)) rfl
  | answered label worker course deletion scan hactivity =>
      have hworker : worker ∈ cfg.workers := by
        obtain hdeleting | ⟨_, hsurveying⟩ := hactivity
        · exact h.worker_of_busy hdeleting fun h => by cases h
        · exact h.worker_of_busy hsurveying fun h => by cases h
      exact h.leave (.inl hworker) rfl
  | recordLost worker course deletion scan hactivity =>
      exact h.leave (.inl (h.worker_of_busy hactivity fun h => by cases h)) rfl
  | recordLoaded worker course job deletion scan hactivity _ hmem hheld =>
      refine h.goOn hactivity (fun h => by cases h) rfl (.none rfl rfl fun loaded hloaded => ?_)
      cases hloaded
      exact ⟨job, hmem, rfl, rfl⟩
  | recordCommitted worker now course job row system systems phase deletion scan hactivity hnext
      hfound =>
      have hworker := h.worker_of_busy hactivity fun h => by cases h
      have hflushed := h.putDeletion (DataDeletionJob.flush job (job.record system deletion scan
        (cfg.leaseUntil now)) row) (Table.find_eq_some hfound).1 rfl rfl
      refine ErasuresSound.leave ?_ (.inl hworker) rfl
      exact hflushed.congr_same rfl rfl rfl rfl rfl
  | finishLoaded worker course job hactivity _ _ hmem hheld =>
      refine h.goOn hactivity (fun h => by cases h) rfl (.none rfl rfl fun loaded hloaded => ?_)
      cases hloaded
      exact ⟨job, hmem, rfl, rfl⟩
  | finished worker now job row hactivity hfound =>
      have hfinished := h.putDeletion (DataDeletionJob.flush job (job.finish now) row)
        (Table.find_eq_some hfound).1 rfl rfl
      exact hfinished.leave (.inr rfl) rfl
  | raised worker errorType handler hgoes =>
      obtain ⟨hclosed, hbusy⟩ := openDeletion_raised hgoes
      exact h.leave (.inl (h.configured worker hbusy)) hclosed
  | exportFailed worker =>
      refine ErasuresSound.leave ?_ (.inr rfl) rfl
      exact h.congr_same rfl rfl rfl rfl rfl
  | deletionFailed worker jobId errorType =>
      refine ErasuresSound.leave ?_ (.inr rfl) rfl
      exact h.mapHeld (fun _ => rfl) fun _ => rfl
  | released worker now =>
      have hreleased : (s.mapDeletions fun job =>
          if job.isHeldBy worker then job.release now else job).ErasuresSound cfg :=
        h.mapHeld (fun _ => rfl) fun _ => rfl
      exact hreleased.congr_same rfl rfl rfl rfl rfl

theorem erasuresSound_of_reaches (htables : cfg.tables.Nodup)
    (h : Reaches (step cfg) anyStep {} s) : s.ErasuresSound cfg := by
  refine h.invariant (fun _ _ _ _ hs hstep => hs.move htables (move_of_step hstep)) ?_
  refine ⟨fun _ h => absurd rfl h, List.nodup_nil, List.nodup_nil, fun _ h => (by cases h),
    fun _ => .of_closed rfl, fun _ _ _ _ h => (by cases h), fun _ h => (by cases h),
    List.nodup_nil⟩

end LifecycleState

end CryptoAlert
