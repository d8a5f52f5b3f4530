import CryptoAlert.Lifecycle.Erasure

/-!
# The receipts of a deletion

Every claim of a job is a new attempt, and the copies of a job that different workers have loaded
are of different attempts, so each erasure leaves a receipt of its own. The receipts of a job
therefore count the rows that it erased.
-/

namespace CryptoAlert

namespace LifecycleActivity

/-- The job of a deletion that has not erased the product rows yet. -/
def beforeErasure : LifecycleActivity → Option DataDeletionJob
  | checkingHold job | blocking job _ | erasing job _ _ _ | scanning job _ _ _ _ _ => some job
  | _ => none

/-- The deletion job that is claimed and not loaded yet. -/
def claimedDeletion : LifecycleActivity → Option ℕ
  | deletionClaimed jobId => some jobId
  | _ => none

def course : LifecycleActivity → Option DeletionCourse
  | notifying course | deleting course | surveying course _ | recording course _ _
  | recordingLoaded course _ _ _ => some course
  | _ => none

theorem openDeletion_of_beforeErasure {activity : LifecycleActivity} {job : DataDeletionJob}
    (h : job ∈ activity.beforeErasure) : job ∈ activity.openDeletion := by
  cases activity <;> first | exact h | cases h

end LifecycleActivity

namespace DataDeletionReceipt

/-- The receipt of an erasure of the product rows of a job. -/
def isErasure (receipt : DataDeletionReceipt) (jobId : ℕ) : Bool :=
  receipt.jobId == jobId && receipt.system == .productDb && receipt.phase == .delete

end DataDeletionReceipt

namespace LifecycleState

variable {cfg : LifecycleConfig} {s s' : LifecycleState} {worker : String}
  {activity : LifecycleActivity}

/-- The rows that the receipts of a job account for. -/
def accounted (s : LifecycleState) (jobId : ℕ) : ℕ :=
  ((s.receipts.filter fun receipt => receipt.isErasure jobId).map
    DataDeletionReceipt.affectedCount).sum

/-- The number of rows that a job has erased. -/
def erasedCount (s : LifecycleState) (jobId : ℕ) : ℕ :=
  (s.erasures.filter fun erasure => erasure.1 == jobId).length

/-- A copy that a worker has loaded is of the attempt of its claim, or of an earlier one if the
job has been claimed since. -/
def Copied (deletions : List DataDeletionJob) (worker : String) (job : DataDeletionJob) : Prop :=
  ∀ row ∈ deletions, row.id = job.id → job.attempt ≤ row.attempt ∧
    (job.attempt = row.attempt → row.leaseOwner = some worker ∨ row.leaseOwner = none)

structure Audited (s : LifecycleState) : Prop where
  copied : ∀ worker, ∀ job ∈ (s.activity worker).openDeletion, Copied s.deletions worker job
  distinct : ∀ worker other, worker ≠ other → ∀ job ∈ (s.activity worker).openDeletion,
    ∀ job' ∈ (s.activity other).openDeletion, job.id = job'.id → job.attempt ≠ job'.attempt
  known : ∀ receipt ∈ s.receipts, ∃ row ∈ s.deletions, row.id = receipt.jobId
  attempts : ∀ receipt ∈ s.receipts, ∀ row ∈ s.deletions, row.id = receipt.jobId →
    receipt.attempt ≤ row.attempt
  /-- A claim that nobody has taken over is of an attempt without receipts. -/
  fresh : ∀ worker, ∀ id ∈ (s.activity worker).claimedDeletion, ∀ row ∈ s.deletions,
    row.id = id → row.leaseOwner = some worker → ∀ receipt ∈ s.receipts, receipt.jobId = id →
      receipt.attempt < row.attempt
  unrecorded : ∀ worker, ∀ job ∈ (s.activity worker).beforeErasure, ∀ receipt ∈ s.receipts,
    receipt.isErasure job.id = true → receipt.attempt ≠ job.attempt
  external : ∀ worker, ∀ course ∈ (s.activity worker).course,
    LifecycleSystem.productDb ∉ course.systems
  sum : ∀ jobId, s.accounted jobId = s.erasedCount jobId

/-- The rows of the jobs are what they were, but some may have lost their lease. -/
def Kept (deletions deletions' : List DataDeletionJob) : Prop :=
  (∀ row ∈ deletions, ∃ row' ∈ deletions', row'.id = row.id) ∧
  ∀ row' ∈ deletions', ∃ row ∈ deletions, row.id = row'.id ∧ row.attempt = row'.attempt ∧
    (row'.leaseOwner = row.leaseOwner ∨ row'.leaseOwner = none)

theorem Kept.refl (deletions : List DataDeletionJob) : Kept deletions deletions :=
  ⟨fun row hrow => ⟨row, hrow, rfl⟩, fun row hrow => ⟨row, hrow, rfl, rfl, .inl rfl⟩⟩

theorem Kept.map {deletions : List DataDeletionJob} {f : DataDeletionJob → DataDeletionJob}
    (hid : ∀ row ∈ deletions, (f row).id = row.id)
    (hattempt : ∀ row ∈ deletions, (f row).attempt = row.attempt)
    (hlease : ∀ row ∈ deletions, (f row).leaseOwner = row.leaseOwner ∨ (f row).leaseOwner = none) :
    Kept deletions (deletions.map f) := by
  refine ⟨fun row hrow => ⟨f row, List.mem_map_of_mem hrow, hid row hrow⟩, ?_⟩
  rw [List.forall_mem_map]
  exact fun row hrow => ⟨row, hrow, (hid row hrow).symm, (hattempt row hrow).symm, hlease row hrow⟩

/-- A flush of a copy that gives up its lease or keeps it. -/
theorem Kept.flush {deletions : List DataDeletionJob} {loaded new row : DataDeletionJob}
    (hids : (deletions.map DataDeletionJob.id).Nodup)
    (hfound : Table.find DataDeletionJob.id deletions loaded.id = some row)
    (hnew : new.leaseOwner = loaded.leaseOwner ∨ new.leaseOwner = none) :
    Kept deletions (Table.put DataDeletionJob.id deletions
      (DataDeletionJob.flush loaded new row)) := by
  obtain ⟨hmem, hid⟩ := Table.find_eq_some hfound
  have hlease : (DataDeletionJob.flush loaded new row).leaseOwner = row.leaseOwner ∨
      (DataDeletionJob.flush loaded new row).leaseOwner = none := by
    change sent loaded.leaseOwner new.leaseOwner row.leaseOwner = row.leaseOwner ∨
      sent loaded.leaseOwner new.leaseOwner row.leaseOwner = none
    obtain hsame | hnone := hnew
    · rw [hsame, sent_same]
      exact .inl rfl
    · rw [hnone]
      exact sent_eq_or.symm
  have hsame : ∀ job ∈ deletions, job.id = row.id → job = row := fun job hjob hkey =>
    List.inj_on_of_nodup_map hids hjob hmem hkey
  refine Kept.map (f := fun job => if job.id = row.id then
    DataDeletionJob.flush loaded new row else job) ?_ ?_ ?_
  · intro job hjob
    by_cases hkey : job.id = row.id
    · rw [if_pos hkey, hkey]
      rfl
    · rw [if_neg hkey]
  · intro job hjob
    by_cases hkey : job.id = row.id
    · rw [if_pos hkey, hsame job hjob hkey]
      rfl
    · rw [if_neg hkey]
  · intro job hjob
    by_cases hkey : job.id = row.id
    · rw [if_pos hkey, hsame job hjob hkey]
      exact hlease
    · rw [if_neg hkey]
      exact .inl rfl

theorem Copied.keep {deletions deletions' : List DataDeletionJob} {job : DataDeletionJob}
    (h : Copied deletions worker job) (hkept : Kept deletions deletions') :
    Copied deletions' worker job := by
  intro row' hrow' hid
  obtain ⟨row, hrow, hrowId, hattempt, hlease⟩ := hkept.2 row' hrow'
  obtain ⟨hle, howner⟩ := h row hrow (hrowId.trans hid)
  rw [← hattempt]
  refine ⟨hle, fun heq => ?_⟩
  obtain hsame | hnone := hlease
  · rw [hsame]
    exact howner heq
  · exact .inr hnone

namespace Audited

/-- The rows of the jobs change as they may, and nothing else that matters here. -/
theorem keep (h : s.Audited) (hkept : Kept s.deletions s'.deletions)
    (hreceipts : s'.receipts = s.receipts) (herasures : s'.erasures = s.erasures)
    (hactivity : s'.activity = s.activity) : s'.Audited := by
  obtain ⟨hcopied, hdistinct, hknown, hattempts, hfresh, hunrecorded, hexternal, hsum⟩ := h
  refine ⟨?_, ?_, ?_, ?_, ?_, ?_, ?_, ?_⟩
  · rw [hactivity]
    exact fun worker job hjob => (hcopied worker job hjob).keep hkept
  · rw [hactivity]
    exact hdistinct
  · rw [hreceipts]
    intro receipt hreceipt
    obtain ⟨row, hrow, hid⟩ := hknown receipt hreceipt
    obtain ⟨row', hrow', hid'⟩ := hkept.1 row hrow
    exact ⟨row', hrow', hid'.trans hid⟩
  · rw [hreceipts]
    intro receipt hreceipt row' hrow' hid
    obtain ⟨row, hrow, hrowId, hattempt, -⟩ := hkept.2 row' hrow'
    rw [← hattempt]
    exact hattempts receipt hreceipt row hrow (hrowId.trans hid)
  · rw [hactivity, hreceipts]
    intro worker id hclaimed row' hrow' hid howner receipt hreceipt hjobId
    obtain ⟨row, hrow, hrowId, hattempt, hlease⟩ := hkept.2 row' hrow'
    rw [← hattempt]
    refine hfresh worker id hclaimed row hrow (hrowId.trans hid) ?_ receipt hreceipt hjobId
    obtain hsame | hnone := hlease
    · rw [← hsame]
      exact howner
    · cases hnone.symm.trans howner
  · rw [hactivity, hreceipts]
    exact hunrecorded
  · rw [hactivity]
    exact hexternal
  · intro jobId
    rw [accounted, erasedCount, hreceipts, herasures]
    exact hsum jobId

/-- A worker goes on to an activity that says no more about jobs than what is shown of it. -/
theorem setActivity (h : s.Audited)
    (hcopied : ∀ job ∈ activity.openDeletion, Copied s.deletions worker job)
    (hdistinct : ∀ other, other ≠ worker → ∀ job ∈ activity.openDeletion,
      ∀ job' ∈ (s.activity other).openDeletion, job.id = job'.id → job.attempt ≠ job'.attempt)
    (hfresh : activity.claimedDeletion = none)
    (hunrecorded : ∀ job ∈ activity.beforeErasure, ∀ receipt ∈ s.receipts,
      receipt.isErasure job.id = true → receipt.attempt ≠ job.attempt)
    (hexternal : ∀ course ∈ activity.course, LifecycleSystem.productDb ∉ course.systems) :
    (s.setActivity worker activity).Audited := by
  refine ⟨?_, ?_, h.known, h.attempts, ?_, ?_, ?_, h.sum⟩
  · exact forall_setActivity (p := fun w a => ∀ job ∈ a.openDeletion, Copied s.deletions w job)
      h.copied hcopied
  · intro w w' hne
    by_cases hw : w = worker
    · rw [hw, activity_setActivity]
      have hw' : w' ≠ worker := fun heq => hne (hw.trans heq.symm)
      rw [activity_setActivity_of_ne hw']
      exact hdistinct w' hw'
    · rw [activity_setActivity_of_ne hw]
      by_cases hw' : w' = worker
      · rw [hw', activity_setActivity]
        intro job hjob job' hjob' hid heq
        exact hdistinct w hw job' hjob' job hjob hid.symm heq.symm
      · rw [activity_setActivity_of_ne hw']
        exact h.distinct w w' hne
  · refine forall_setActivity (p := fun w a => ∀ id ∈ a.claimedDeletion, ∀ row ∈ s.deletions,
      row.id = id → row.leaseOwner = some w → ∀ receipt ∈ s.receipts, receipt.jobId = id →
        receipt.attempt < row.attempt) h.fresh ?_
    rw [hfresh]
    exact fun id hid => by cases hid
  · exact forall_setActivity (p := fun _ a => ∀ job ∈ a.beforeErasure, ∀ receipt ∈ s.receipts,
      receipt.isErasure job.id = true → receipt.attempt ≠ job.attempt) h.unrecorded hunrecorded
  · exact forall_setActivity (p := fun _ a => ∀ course ∈ a.course,
      LifecycleSystem.productDb ∉ course.systems) h.external hexternal

/-- A worker that has no deletion job. -/
theorem leave (h : s.Audited) (hclosed : activity.openDeletion = none)
    (hclaimed : activity.claimedDeletion = none)
    (hexternal : ∀ course ∈ activity.course, LifecycleSystem.productDb ∉ course.systems) :
    (s.setActivity worker activity).Audited := by
  have hnone : ∀ job, job ∉ activity.openDeletion := by
    rw [hclosed]
    exact fun _ hjob => by cases hjob
  refine h.setActivity (fun job hjob => absurd hjob (hnone job))
    (fun _ _ job hjob => absurd hjob (hnone job)) hclaimed (fun job hjob => ?_) hexternal
  exact absurd (LifecycleActivity.openDeletion_of_beforeErasure hjob) (hnone job)

/-- A worker goes on with the job that it has loaded. -/
theorem goOn (h : s.Audited) {current : LifecycleActivity} (hcurrent : s.activity worker = current)
    (hsame : activity.openDeletion = current.openDeletion)
    (hbefore : activity.beforeErasure = current.beforeErasure)
    (hclaimed : activity.claimedDeletion = none) (hcourse : activity.course = none) :
    (s.setActivity worker activity).Audited := by
  have hcopied := h.copied worker
  have hdistinct := h.distinct worker
  have hunrecorded := h.unrecorded worker
  rw [hcurrent] at hcopied hdistinct hunrecorded
  rw [← hsame] at hcopied hdistinct
  rw [← hbefore] at hunrecorded
  refine h.setActivity hcopied (fun other hother => hdistinct other (Ne.symm hother)) hclaimed
    hunrecorded ?_
  rw [hcourse]
  exact fun _ hcourse => by cases hcourse

/-- A worker loads a job that it holds. -/
theorem load (h : s.Audited) (hids : (s.deletions.map DataDeletionJob.id).Nodup)
    {job : DataDeletionJob} (hmem : job ∈ s.deletions) (hheld : job.isHeldBy worker = true)
    (hopen : activity.openDeletion = some job) (hclaimed : activity.claimedDeletion = none)
    (hunrecorded : ∀ job ∈ activity.beforeErasure, ∀ receipt ∈ s.receipts,
      receipt.isErasure job.id = true → receipt.attempt ≠ job.attempt)
    (hexternal : ∀ course ∈ activity.course, LifecycleSystem.productDb ∉ course.systems) :
    (s.setActivity worker activity).Audited := by
  rw [DataDeletionJob.isHeldBy, Bool.and_eq_true, decide_eq_true_eq, decide_eq_true_eq] at hheld
  obtain ⟨-, howner⟩ := hheld
  refine h.setActivity ?_ ?_ hclaimed hunrecorded hexternal
  · rw [hopen]
    rintro loaded hloaded row hrow hid
    cases hloaded
    obtain rfl := List.inj_on_of_nodup_map hids hrow hmem hid
    exact ⟨le_rfl, fun _ => .inl howner⟩
  · rw [hopen]
    rintro other hother loaded hloaded job' hjob' hid heq
    cases hloaded
    -- the copy of the other worker is older, since the row names this one
    obtain ⟨-, hlast⟩ := h.copied other job' hjob' job hmem hid
    obtain hsome | hnone := hlast heq.symm
    · rw [howner, Option.some.injEq] at hsome
      exact hother hsome.symm
    · cases hnone.symm.trans howner

/-- A worker claims a job, which is a new attempt. -/
theorem claim (h : s.Audited) {job : DataDeletionJob} (hmem : job ∈ s.deletions) (leaseUntil : ℕ) :
    ((s.putDeletion (job.claim worker leaseUntil)).setActivity worker
      (.deletionClaimed job.id)).Audited := by
  have hrows : ∀ row ∈ Table.put DataDeletionJob.id s.deletions (job.claim worker leaseUntil),
      (row ∈ s.deletions ∧ row.id ≠ job.id) ∨ row = job.claim worker leaseUntil := by
    intro row hrow
    obtain hold | ⟨hnew, -⟩ := Table.mem_put.mp hrow
    · exact .inl hold
    · exact .inr hnew
  refine ⟨?_, ?_, ?_, ?_, ?_, ?_, ?_, h.sum⟩
  · refine forall_setActivity (p := fun w a => ∀ job' ∈ a.openDeletion,
      Copied (Table.put DataDeletionJob.id s.deletions (job.claim worker leaseUntil)) w job') ?_ ?_
    · intro w job' hjob' row hrow hid
      obtain ⟨hold, -⟩ | rfl := hrows row hrow
      · exact h.copied w job' hjob' row hold hid
      · have hle := (h.copied w job' hjob' job hmem hid).1
        have hlt : job'.attempt < job.attempt + 1 := Nat.lt_succ_of_le hle
        exact ⟨hlt.le, fun heq => absurd heq hlt.ne⟩
    · exact fun job' hjob' => by cases hjob'
  · intro w w' hne
    by_cases hw : w = worker
    · rw [hw, activity_setActivity]
      exact fun job' hjob' => by cases hjob'
    · rw [activity_setActivity_of_ne hw]
      by_cases hw' : w' = worker
      · rw [hw', activity_setActivity]
        exact fun _ _ job' hjob' => by cases hjob'
      · rw [activity_setActivity_of_ne hw']
        exact h.distinct w w' hne
  · intro receipt hreceipt
    obtain ⟨row, hrow, hid⟩ := h.known receipt hreceipt
    by_cases hkey : row.id = job.id
    · exact ⟨_, Table.mem_put_self hmem rfl, hkey.symm.trans hid⟩
    · exact ⟨row, Table.mem_put_other hrow hkey, hid⟩
  · intro receipt hreceipt row hrow hid
    obtain ⟨hold, -⟩ | rfl := hrows row hrow
    · exact h.attempts receipt hreceipt row hold hid
    · exact (h.attempts receipt hreceipt job hmem hid).trans (Nat.le_succ _)
  · intro w id hclaimed row hrow hid howner receipt hreceipt hjobId
    by_cases hw : w = worker
    · rw [hw, activity_setActivity] at hclaimed
      cases hclaimed
      obtain ⟨-, hne⟩ | rfl := hrows row hrow
      · exact absurd hid hne
      · exact Nat.lt_succ_of_le (h.attempts receipt hreceipt job hmem hjobId.symm)
    · rw [activity_setActivity_of_ne hw] at hclaimed
      obtain ⟨hold, -⟩ | rfl := hrows row hrow
      · exact h.fresh w id hclaimed row hold hid howner receipt hreceipt hjobId
      · cases howner
        exact absurd rfl hw
  · refine forall_setActivity (p := fun _ a => ∀ job ∈ a.beforeErasure, ∀ receipt ∈ s.receipts,
      receipt.isErasure job.id = true → receipt.attempt ≠ job.attempt) h.unrecorded ?_
    exact fun job' hjob' => by cases hjob'
  · refine forall_setActivity (p := fun _ a => ∀ course ∈ a.course,
      LifecycleSystem.productDb ∉ course.systems) h.external ?_
    exact fun course hcourse => by cases hcourse

/-- A worker that has left its job adds receipts of the attempt of its copy. -/
theorem append (h : s.Audited) {job : DataDeletionJob} {receipts : List DataDeletionReceipt}
    {erasures : List (ℕ × ProductRow)}
    (hnew : ∀ receipt ∈ receipts, receipt ∈ s.receipts ∨
      (receipt.jobId = job.id ∧ receipt.attempt = job.attempt))
    (hstored : ∃ row ∈ s.deletions, row.id = job.id) (hcopied : Copied s.deletions worker job)
    (hdistinct : ∀ other, ∀ job' ∈ (s.activity other).openDeletion, job.id = job'.id →
      job.attempt ≠ job'.attempt)
    (hunclaimed : (s.activity worker).claimedDeletion = none)
    (hsum : ∀ jobId, ({ s with receipts, erasures } : LifecycleState).accounted jobId =
      ({ s with receipts, erasures } : LifecycleState).erasedCount jobId) :
    ({ s with receipts, erasures } : LifecycleState).Audited := by
  refine ⟨h.copied, h.distinct, ?_, ?_, ?_, ?_, h.external, hsum⟩
  · intro receipt hreceipt
    obtain hold | ⟨hid, -⟩ := hnew receipt hreceipt
    · exact h.known receipt hold
    · rw [hid]
      exact hstored
  · intro receipt hreceipt row hrow hid
    obtain hold | ⟨hjobId, hattempt⟩ := hnew receipt hreceipt
    · exact h.attempts receipt hold row hrow hid
    · rw [hattempt]
      exact (hcopied row hrow (hid.trans hjobId)).1
  · intro w id hclaimed row hrow hid howner receipt hreceipt hjobId
    obtain hold | ⟨hnewId, hattempt⟩ := hnew receipt hreceipt
    · exact h.fresh w id hclaimed row hrow hid howner receipt hold hjobId
    · obtain ⟨hle, hlast⟩ := hcopied row hrow (hid.trans (hjobId.symm.trans hnewId))
      rw [hattempt]
      refine lt_of_le_of_ne hle fun heq => ?_
      obtain hsome | hnone := hlast heq
      · rw [howner, Option.some.injEq] at hsome
        rw [hsome, hunclaimed] at hclaimed
        cases hclaimed
      · cases hnone.symm.trans howner
  · intro w job' hjob' receipt hreceipt herasure
    obtain hold | ⟨hnewId, hattempt⟩ := hnew receipt hreceipt
    · exact h.unrecorded w job' hjob' receipt hold herasure
    · rw [hattempt]
      refine hdistinct w job' (LifecycleActivity.openDeletion_of_beforeErasure hjob') ?_
      rw [DataDeletionReceipt.isErasure, Bool.and_eq_true, Bool.and_eq_true, beq_iff_eq] at herasure
      exact hnewId.symm.trans herasure.1.1

/-- A worker commits what it has made of its job, with the receipts of its attempt, and leaves. -/
theorem commit (h : s.Audited) (hids : (s.deletions.map DataDeletionJob.id).Nodup)
    {job row new : DataDeletionJob} (receipts : List DataDeletionReceipt)
    (erasures : List (ℕ × ProductRow)) (activity : LifecycleActivity) (hopen : job ∈ (s.activity worker).openDeletion)
    (hfound : Table.find DataDeletionJob.id s.deletions job.id = some row)
    (hlease : new.leaseOwner = job.leaseOwner ∨ new.leaseOwner = none)
    (hclosed : activity.openDeletion = none) (hclaimed : activity.claimedDeletion = none)
    (hexternal : ∀ course ∈ activity.course, LifecycleSystem.productDb ∉ course.systems)
    (hnew : ∀ receipt ∈ receipts, receipt ∈ s.receipts ∨
      (receipt.jobId = job.id ∧ receipt.attempt = job.attempt))
    (hsum : ∀ jobId, ({ s with receipts, erasures } : LifecycleState).accounted jobId =
      ({ s with receipts, erasures } : LifecycleState).erasedCount jobId) :
    ({ s.putDeletion (DataDeletionJob.flush job new row) with
      receipts, erasures }.setActivity worker activity).Audited := by
  obtain ⟨hmem, hid⟩ := Table.find_eq_some hfound
  have hkept := Kept.flush hids hfound hlease
  have hleft : (s.setActivity worker activity).Audited := h.leave hclosed hclaimed hexternal
  have hflushed : ((s.putDeletion (DataDeletionJob.flush job new row)).setActivity worker
      activity).Audited := hleft.keep hkept rfl rfl rfl
  have hdistinct : ∀ other, ∀ job' ∈ ((s.setActivity worker activity).activity other).openDeletion,
      job.id = job'.id → job.attempt ≠ job'.attempt := by
    intro other job' hjob'
    by_cases hother : other = worker
    · rw [hother, activity_setActivity, hclosed] at hjob'
      cases hjob'
    · rw [activity_setActivity_of_ne hother] at hjob'
      exact h.distinct worker other (Ne.symm hother) job hopen job' hjob'
  have hunclaimed : ((s.setActivity worker activity).activity worker).claimedDeletion = none := by
    rw [activity_setActivity]
    exact hclaimed
  exact hflushed.append hnew ⟨_, Table.mem_put_self hmem rfl, hid⟩
    ((h.copied worker job hopen).keep hkept) hdistinct hunclaimed hsum

/-- The rows that a worker holds lose their leases. -/
theorem giveUp (h : s.Audited) {p : DataDeletionJob → Prop} [DecidablePred p]
    {f : DataDeletionJob → DataDeletionJob} (hid : ∀ job, (f job).id = job.id)
    (hattempt : ∀ job, (f job).attempt = job.attempt) (hlease : ∀ job, (f job).leaseOwner = none) :
    (s.mapDeletions fun job => if p job then f job else job).Audited := by
  refine h.keep (Kept.map ?_ ?_ ?_) rfl rfl rfl
  · intro job _
    by_cases hp : p job
    · rw [if_pos hp, hid]
    · rw [if_neg hp]
  · intro job _
    by_cases hp : p job
    · rw [if_pos hp, hattempt]
    · rw [if_neg hp]
  · intro job _
    by_cases hp : p job
    · rw [if_pos hp]
      exact .inr (hlease job)
    · rw [if_neg hp]
      exact .inl rfl

end Audited

section Receipts

variable {job : DataDeletionJob} {receipts : List DataDeletionReceipt} {system : LifecycleSystem}
  {phase : ReceiptPhase} {result deletion scan : LifecycleAdapterResult} {now : ℕ}

theorem mem_appendReceipt {receipt : DataDeletionReceipt}
    (h : receipt ∈ job.appendReceipt receipts system phase result now) :
    receipt ∈ receipts ∨ (receipt.jobId = job.id ∧ receipt.attempt = job.attempt) := by
  rw [DataDeletionJob.appendReceipt] at h
  split at h
  · exact .inl h
  · rw [List.mem_append, List.mem_singleton] at h
    obtain hold | rfl := h
    · exact .inl hold
    · exact .inr ⟨rfl, rfl⟩

theorem mem_appendReceipts {receipt : DataDeletionReceipt}
    (h : receipt ∈ job.appendReceipts receipts system phase deletion scan now) :
    receipt ∈ receipts ∨ (receipt.jobId = job.id ∧ receipt.attempt = job.attempt) := by
  obtain h | h := mem_appendReceipt h
  · exact mem_appendReceipt h
  · exact .inr h

/-- A receipt that is not of an erasure of product rows. -/
theorem filter_appendReceipt_other (h : (system == .productDb && phase == .delete) = false)
    (jobId : ℕ) : (job.appendReceipt receipts system phase result now).filter
      (fun receipt => receipt.isErasure jobId) =
        receipts.filter fun receipt => receipt.isErasure jobId := by
  rw [DataDeletionJob.appendReceipt]
  split
  · rfl
  · rw [List.filter_append, List.filter_cons_of_neg, List.filter_nil, List.append_nil]
    rw [DataDeletionReceipt.isErasure, Bool.and_assoc, h, Bool.and_false]
    exact Bool.false_ne_true

/-- The first receipt of an erasure in its attempt. -/
theorem appendReceipt_of_unrecorded
    (h : ∀ receipt ∈ receipts, receipt.isErasure job.id = true → receipt.attempt ≠ job.attempt) :
    job.appendReceipt receipts .productDb .delete result now = receipts ++
      [{ jobId := job.id, system := .productDb, phase := .delete, attempt := job.attempt
         outcome := result.outcome, affectedCount := result.affectedCount
         survivorCount := result.survivorCount, reference := result.reference
         observedAt := now }] := by
  rw [DataDeletionJob.appendReceipt]
  refine if_neg fun hany => ?_
  obtain ⟨receipt, hmem, hsame⟩ := List.any_eq_true.mp hany
  rw [Bool.and_eq_true, beq_iff_eq] at hsame
  exact h receipt hmem hsame.1 hsame.2

end Receipts

/-- An erasure adds as much to what the receipts account for as it erases. -/
theorem accounted_erased {job row : DataDeletionJob} {gone : List ProductRow} {scrubbed : List ℕ}
    {deletion scan : LifecycleAdapterResult} {now jobId : ℕ}
    (hdeletion : deletion.affectedCount = gone.length)
    (hunrecorded : ∀ receipt ∈ s.receipts, receipt.isErasure job.id = true →
      receipt.attempt ≠ job.attempt) (hsum : s.accounted jobId = s.erasedCount jobId) :
    (s.erased job row gone scrubbed deletion scan now).accounted jobId =
      (s.erased job row gone scrubbed deletion scan now).erasedCount jobId := by
  have hgone : (gone.map fun row => (job.id, row)).filter (fun erasure => erasure.1 == jobId) =
      if job.id = jobId then gone.map fun row => (job.id, row) else [] := by
    by_cases hid : job.id = jobId
    · rw [if_pos hid, List.filter_eq_self]
      rw [List.forall_mem_map]
      exact fun _ _ => beq_iff_eq.mpr hid
    · rw [if_neg hid, List.filter_eq_nil_iff]
      rw [List.forall_mem_map]
      exact fun _ _ heq => hid (beq_iff_eq.mp heq)
  have hright : (s.erased job row gone scrubbed deletion scan now).erasedCount jobId =
      s.erasedCount jobId + if job.id = jobId then gone.length else 0 := by
    change ((s.erasures ++ gone.map fun row => (job.id, row)).filter
      fun erasure => erasure.1 == jobId).length = _
    rw [List.filter_append, hgone, List.length_append, erasedCount]
    by_cases hid : job.id = jobId
    · rw [if_pos hid, if_pos hid, List.length_map]
    · rw [if_neg hid, if_neg hid, List.length_nil]
  have hleft : (s.erased job row gone scrubbed deletion scan now).accounted jobId =
      s.accounted jobId + if job.id = jobId then gone.length else 0 := by
    change (((job.appendReceipt (job.appendReceipt s.receipts .productDb .delete deletion now)
      .productDb .survivorScan scan now).filter fun receipt => receipt.isErasure jobId).map
        DataDeletionReceipt.affectedCount).sum = _
    rw [filter_appendReceipt_other (by decide), appendReceipt_of_unrecorded hunrecorded,
      List.filter_append, List.map_append, List.sum_append, accounted]
    congr 1
    by_cases hid : job.id = jobId
    · rw [if_pos hid, List.filter_cons_of_pos, List.filter_nil, List.map_singleton,
        List.sum_singleton, hdeletion]
      rw [DataDeletionReceipt.isErasure, hid, beq_self_eq_true]
      rfl
    · rw [if_neg hid, List.filter_cons_of_neg, List.filter_nil, List.map_nil, List.sum_nil]
      rw [DataDeletionReceipt.isErasure, beq_eq_false_iff_ne.mpr hid]
      exact Bool.false_ne_true
  rw [hleft, hright, hsum]

/-- The receipts of the other systems account for no product rows. -/
theorem accounted_recorded {job row : DataDeletionJob} {system : LifecycleSystem}
    {phase : ReceiptPhase} {deletion scan : LifecycleAdapterResult} {now jobId : ℕ}
    (hsystem : system ≠ .productDb) :
    (s.recorded job row system phase deletion scan now).accounted jobId = s.accounted jobId := by
  have hother : ∀ p : ReceiptPhase, (system == .productDb && p == .delete) = false := by
    intro p
    rw [beq_eq_false_iff_ne.mpr hsystem, Bool.false_and]
  change (((job.appendReceipt (job.appendReceipt s.receipts system phase deletion now) system
    .survivorScan scan now).filter fun receipt => receipt.isErasure jobId).map
      DataDeletionReceipt.affectedCount).sum = _
  rw [filter_appendReceipt_other (hother _), filter_appendReceipt_other (hother _), accounted]

theorem productDb_not_mem_external : LifecycleSystem.productDb ∉ LifecycleSystem.external := by
  decide

theorem productDb_not_mem_tail {course : DeletionCourse}
    (h : LifecycleSystem.productDb ∉ course.systems) :
    ∀ c ∈ (behindSystem course).course, LifecycleSystem.productDb ∉ c.systems := by
  intro c hc
  cases hc
  exact fun hmem => h (List.mem_of_mem_tail hmem)

theorem no_course (h : activity.course = none) :
    ∀ c ∈ activity.course, LifecycleSystem.productDb ∉ c.systems := by
  rw [h]
  exact fun _ hc => by cases hc

theorem closed_raised {handler : LifecycleActivity} {errorType : String}
    (h : activity.raised errorType = some handler) :
    handler.claimedDeletion = none ∧ handler.course = none := by
  cases activity <;> cases h <;> exact ⟨rfl, rfl⟩

theorem Audited.move {label : LifecycleLabel} (h : s.Audited) (hsound : s.ErasuresSound cfg)
    (hmove : s.Move cfg label s') : s'.Audited := by
  have hids := hsound.jobIds
  cases hmove with
  | refused => exact h
  | policyUpdated | exportCreated | rowInserted | rowRewritten | rowRemoved =>
      exact h.keep (.refl _) rfl rfl rfl
  | deletionCreated actor id confirmation key now job hfresh hid =>
      have hnew : ∀ row ∈ s.deletions ++ [job], row ∈ s.deletions ∨ row.id = id := by
        rw [List.forall_mem_append, List.forall_mem_singleton]
        exact ⟨fun row hrow => .inl hrow, .inr hid⟩
      refine ⟨?_, h.distinct, ?_, ?_, ?_, h.unrecorded, h.external, h.sum⟩
      · intro worker loaded hloaded row hrow hsame
        obtain hold | hrowId := hnew row hrow
        · exact h.copied worker loaded hloaded row hold hsame
        · obtain ⟨stored, hstored, hstoredId, -⟩ := (hsound.opened worker).stored loaded hloaded
          exact absurd (hstoredId.trans (hsame.symm.trans hrowId)) (hfresh stored hstored)
      · intro receipt hreceipt
        obtain ⟨row, hrow, hsame⟩ := h.known receipt hreceipt
        exact ⟨row, List.mem_append_left _ hrow, hsame⟩
      · intro receipt hreceipt row hrow hsame
        obtain hold | hrowId := hnew row hrow
        · exact h.attempts receipt hreceipt row hold hsame
        · obtain ⟨stored, hstored, hstoredId⟩ := h.known receipt hreceipt
          exact absurd (hstoredId.trans (hsame.symm.trans hrowId)) (hfresh stored hstored)
      · intro worker id' hclaimed row hrow hsame howner receipt hreceipt hjobId
        obtain hold | hrowId := hnew row hrow
        · exact h.fresh worker id' hclaimed row hold hsame howner receipt hreceipt hjobId
        · obtain ⟨stored, hstored, hstoredId⟩ := h.known receipt hreceipt
          exact absurd (hstoredId.trans (hjobId.trans (hsame.symm.trans hrowId)))
            (hfresh stored hstored)
  | exportClaimed worker | exportCommitted worker | exportFailed worker =>
      refine Audited.leave ?_ rfl rfl (no_course rfl)
      exact h.keep (.refl _) rfl rfl rfl
  | deletionClaimed worker id now job hconfigured hidle hfound hdue =>
      obtain ⟨hmem, rfl⟩ := Table.find_eq_some hfound
      exact h.claim hmem (cfg.leaseUntil now)
  | idled | exportLoaded | tableRead => exact h.leave rfl rfl (no_course rfl)
  | deletionLoaded worker job hactivity hmem hheld =>
      refine h.load hids hmem hheld rfl rfl ?_ (no_course rfl)
      intro loaded hloaded receipt hreceipt herasure
      cases hloaded
      rw [DataDeletionReceipt.isErasure, Bool.and_eq_true, Bool.and_eq_true, beq_iff_eq] at herasure
      have hclaimed : job.id ∈ (s.activity worker).claimedDeletion := by
        rw [hactivity]
        rfl
      rw [DataDeletionJob.isHeldBy, Bool.and_eq_true, decide_eq_true_eq, decide_eq_true_eq] at hheld
      exact (h.fresh worker job.id hclaimed job hmem rfl hheld.2 receipt hreceipt
        herasure.1.1).ne
  | holdFound worker job reason hactivity => exact h.goOn hactivity rfl rfl rfl rfl
  | holdAbsent worker job hactivity => exact h.goOn hactivity rfl rfl rfl rfl
  | blocked worker job row reason hactivity hfound =>
      refine Audited.leave ?_ rfl rfl (no_course rfl)
      exact h.keep (Kept.flush hids hfound (.inr rfl)) rfl rfl rfl
  | tableErased worker job policy table pending gone hactivity =>
      exact h.goOn hactivity rfl rfl rfl rfl
  | exportsScrubbed worker job policy gone hactivity => exact h.goOn hactivity rfl rfl rfl rfl
  | tableScanned worker job policy gone scrubbed table pending survivors survivors' hactivity =>
      exact h.goOn hactivity rfl rfl rfl rfl
  | erasureCommitted worker now job row policy gone scrubbed survivors deletion scan next
      hactivity hfound hdeleted hscanned hgoes =>
      have hnext : next.openDeletion = none ∧ next.claimedDeletion = none ∧
          ∀ c ∈ next.course, LifecycleSystem.productDb ∉ c.systems := by
        obtain rfl | rfl := hgoes
        · exact ⟨rfl, rfl, no_course rfl⟩
        · refine ⟨rfl, rfl, fun c hc => ?_⟩
          cases hc
          exact productDb_not_mem_external
      have hopen : job ∈ (s.activity worker).openDeletion := by
        rw [hactivity]
        rfl
      have hbefore : job ∈ (s.activity worker).beforeErasure := by
        rw [hactivity]
        rfl
      have hlease : (job.erase deletion scan (cfg.leaseUntil now)).leaseOwner = job.leaseOwner ∨
          (job.erase deletion scan (cfg.leaseUntil now)).leaseOwner = none := by
        rw [DataDeletionJob.erase]
        dsimp only
        split
        · exact .inl rfl
        · exact .inr rfl
      have hcount : deletion.affectedCount = gone.length := by rw [hdeleted]
      have hsum : ∀ jobId, (s.erased job row gone scrubbed deletion scan now).accounted jobId =
          (s.erased job row gone scrubbed deletion scan now).erasedCount jobId := fun jobId =>
        accounted_erased hcount (h.unrecorded worker job hbefore) (h.sum jobId)
      have hcommitted := h.commit hids
        (job.appendReceipts s.receipts .productDb .delete deletion scan now)
        (s.erasures ++ gone.map fun row => (job.id, row)) next hopen hfound hlease hnext.1
        hnext.2.1 hnext.2.2 (fun receipt hreceipt => mem_appendReceipts hreceipt) hsum
      exact hcommitted.keep (.refl _) rfl rfl rfl
  | adapterSkipped worker now course system systems deletion scan hactivity =>
      have hexternal := h.external worker
      rw [hactivity] at hexternal
      exact h.leave rfl rfl hexternal
  | deleteCalled worker course system systems hactivity =>
      have hexternal := h.external worker
      rw [hactivity] at hexternal
      refine Audited.leave ?_ rfl rfl hexternal
      exact h.keep (.refl _) rfl rfl rfl
  | deleteAnswered worker result course deletion hactivity =>
      have hexternal := h.external worker
      rw [hactivity] at hexternal
      exact h.leave rfl rfl hexternal
  | answered label worker course deletion scan hactivity =>
      have hexternal := h.external worker
      obtain hdeleting | ⟨_, hsurveying⟩ := hactivity
      · rw [hdeleting] at hexternal
        exact h.leave rfl rfl hexternal
      · rw [hsurveying] at hexternal
        exact h.leave rfl rfl hexternal
  | recordLost worker course deletion scan hactivity =>
      have hexternal := h.external worker
      rw [hactivity] at hexternal
      exact h.leave rfl rfl (productDb_not_mem_tail (hexternal course rfl))
  | recordLoaded worker course job deletion scan hactivity _ hmem hheld =>
      have hexternal := h.external worker
      rw [hactivity] at hexternal
      exact h.load hids hmem hheld rfl rfl (fun loaded hloaded => by cases hloaded) hexternal
  | recordCommitted worker now course job row system systems phase deletion scan hactivity hnext
      hfound =>
      have hexternal := h.external worker
      rw [hactivity] at hexternal
      have hsystem : system ≠ .productDb := by
        intro heq
        apply hexternal course rfl
        rw [hnext, heq]
        exact List.mem_cons_self
      have hopen : job ∈ (s.activity worker).openDeletion := by
        rw [hactivity]
        rfl
      have hlease : (job.record system deletion scan (cfg.leaseUntil now)).leaseOwner =
          job.leaseOwner ∨
            (job.record system deletion scan (cfg.leaseUntil now)).leaseOwner = none := .inl rfl
      have hsum : ∀ jobId, (s.recorded job row system phase deletion scan now).accounted jobId =
          s.erasedCount jobId := fun jobId => (accounted_recorded hsystem).trans (h.sum jobId)
      have hcommitted := h.commit hids
        (job.appendReceipts s.receipts system phase deletion scan now) s.erasures
        (behindSystem course) hopen hfound hlease rfl rfl
        (productDb_not_mem_tail (hexternal course rfl))
        (fun receipt hreceipt => mem_appendReceipts hreceipt) hsum
      exact hcommitted.keep (.refl _) rfl rfl rfl
  | finishLoaded worker course job hactivity _ _ hmem hheld =>
      exact h.load hids hmem hheld rfl rfl (fun loaded hloaded => by cases hloaded) (no_course rfl)
  | finished worker now job row hactivity hfound =>
      have hlease : (job.finish now).leaseOwner = none := by
        rw [DataDeletionJob.finish]
        dsimp only
        split
        · rfl
        · split
          · rfl
          · rfl
      refine Audited.leave ?_ rfl rfl (no_course rfl)
      exact h.keep (Kept.flush hids hfound (.inr hlease)) rfl rfl rfl
  | raised worker errorType handler hgoes =>
      obtain ⟨hclaimed, hcourse⟩ := closed_raised hgoes
      exact h.leave (openDeletion_raised hgoes).1 hclaimed (no_course hcourse)
  | deletionFailed worker jobId errorType =>
      refine Audited.leave ?_ rfl rfl (no_course rfl)
      exact h.giveUp (fun _ => rfl) (fun _ => rfl) fun _ => rfl
  | released worker now =>
      have hreleased : (s.mapDeletions fun job =>
          if job.isHeldBy worker then job.release now else job).Audited :=
        h.giveUp (fun _ => rfl) (fun _ => rfl) fun _ => rfl
      exact hreleased.keep (.refl _) rfl rfl rfl

theorem audited_of_reaches (htables : cfg.tables.Nodup) (h : Reaches (step cfg) anyStep {} s) :
    s.Audited := by
  have hboth := h.invariant (I := fun s => s.ErasuresSound cfg ∧ s.Audited)
    (fun _ _ _ _ hs hstep => ⟨hs.1.move htables (move_of_step hstep),
      hs.2.move hs.1 (move_of_step hstep)⟩) ⟨erasuresSound_of_reaches htables .refl, ?_⟩
  · exact hboth.2
  · exact ⟨fun _ _ h => (by cases h), fun _ _ _ _ h => (by cases h), fun _ h => (by cases h),
      fun _ h => (by cases h), fun _ _ h => (by cases h), fun _ _ h => (by cases h),
      fun _ _ h => (by cases h), fun _ => rfl⟩

end LifecycleState

end CryptoAlert
