import CryptoAlert.Lifecycle.Exports

/-!
# What a deletion says of itself

The deployment keeps its logs and its backups for the days of the policy, so a deletion never
becomes one that has succeeded. Its status says so, whatever the workers that held it in turn
were doing when they lost it.
-/

namespace CryptoAlert

/-- The deployment still holds what it retains. -/
def StillRetained (statuses : SystemStatuses) : Prop :=
  ∀ system, system.isRetained = true →
    statuses system = .pending ∨ statuses system = .outcome .pendingExpiry

/-- The results for a system that the deployment retains say that it will expire. -/
def DeletionCourse.Expects (course : DeletionCourse) (deletion scan : LifecycleAdapterResult) :
    Prop :=
  ∀ system ∈ course.systems.head?, system.isRetained = true →
    deletion.outcome = .pendingExpiry ∧ scan.outcome = .pendingExpiry

/-- An adapter is only asked for a system that the deployment does not retain. -/
def DeletionCourse.Asks (course : DeletionCourse) : Prop :=
  ∀ system ∈ course.systems.head?, system.isRetained = false

namespace DataDeletionJob

/-- What holds of a deletion job. -/
structure Honest (job : DataDeletionJob) : Prop where
  status : job.status ≠ .succeeded
  completedAt : job.completedAt = none
  retained : ∀ system, system.isRetained = true → job.systemStatus system = .pending ∨
    job.systemStatus system = .blockedLegalHold ∨
    job.systemStatus system = .outcome .pendingExpiry
  claimable : job.status = .queued ∨ job.status = .running → StillRetained job.systemStatus

/-- What holds of a job that a worker has loaded. -/
structure Loaded (job : DataDeletionJob) : Prop where
  running : job.status = .running
  completedAt : job.completedAt = none
  retained : StillRetained job.systemStatus

variable {job row old new : DataDeletionJob} {worker : String} {now : ℕ}
  {deletion scan : LifecycleAdapterResult}

theorem retained_of_still {statuses : SystemStatuses} (h : StillRetained statuses)
    {system : LifecycleSystem} (hsystem : system.isRetained = true) :
    statuses system = .pending ∨ statuses system = .blockedLegalHold ∨
      statuses system = .outcome .pendingExpiry := by
  obtain hpending | hexpiry := h system hsystem
  · exact .inl hpending
  · exact .inr (.inr hexpiry)

theorem status_of_isHeldBy (h : job.isHeldBy worker = true) : job.status = .running := by
  rw [isHeldBy, Bool.and_eq_true, decide_eq_true_eq] at h
  exact h.1

theorem claimable_of_isDue (h : job.isDue now = true) :
    job.status = .queued ∨ job.status = .running := by
  rw [isDue, Bool.and_eq_true, Bool.or_eq_true, Bool.and_eq_true, decide_eq_true_eq,
    decide_eq_true_eq] at h
  obtain hqueued | hrunning := h.2
  · exact .inl hqueued
  · exact .inr (of_decide_eq_true hrunning.1)

theorem Honest.loaded (h : job.Honest) (hheld : job.isHeldBy worker = true) : job.Loaded :=
  have hrunning := status_of_isHeldBy hheld
  ⟨hrunning, h.completedAt, h.claimable (.inr hrunning)⟩

theorem Honest.claim (h : job.Honest) (hdue : job.isDue now = true) (worker : String)
    (leaseUntil : ℕ) : (job.claim worker leaseUntil).Honest :=
  ⟨fun hstatus => (by cases hstatus), h.completedAt, h.retained,
    fun _ => h.claimable (claimable_of_isDue hdue)⟩

theorem Honest.release (h : job.Honest) (hheld : job.isHeldBy worker = true) :
    (job.release now).Honest :=
  ⟨fun hstatus => (by cases hstatus), h.completedAt, h.retained,
    fun _ => (h.loaded hheld).retained⟩

theorem Honest.fail (h : job.Honest) (errorType : String) : (job.fail errorType).Honest := by
  refine ⟨fun hstatus => (by cases hstatus), h.completedAt, h.retained, fun hstatus => ?_⟩
  obtain hqueued | hrunning := hstatus
  · cases hqueued
  · cases hrunning

/-- A copy that a worker has changed: it neither succeeds nor goes back to the queue, and unless
a hold blocks it, it says that the deployment still holds what it retains. -/
structure Kept (new : DataDeletionJob) : Prop where
  status : new.status ≠ .succeeded
  requeued : new.status ≠ .queued
  completedAt : new.completedAt = none
  retained : StillRetained new.systemStatus ∨
    (new.status = .blockedLegalHold ∧ ∀ system, new.systemStatus system = .blockedLegalHold)

/-- What a stale copy sends may be mixed with what others have written. -/
theorem Honest.flush (hrow : row.Honest) (hloaded : old.Loaded) (hnew : new.Kept) :
    (flush old new row).Honest := by
  have hstatus : (DataDeletionJob.flush old new row).status =
      sent old.status new.status row.status := rfl
  have hstatuses : (DataDeletionJob.flush old new row).systemStatus =
      sent old.systemStatus new.systemStatus row.systemStatus := rfl
  have hcompleted : (DataDeletionJob.flush old new row).completedAt =
      sent old.completedAt new.completedAt row.completedAt := rfl
  have hsentStatuses : sent old.systemStatus new.systemStatus row.systemStatus =
      new.systemStatus ∨ sent old.systemStatus new.systemStatus row.systemStatus =
        row.systemStatus := sent_eq_or
  refine ⟨?_, ?_, ?_, ?_⟩
  · have hsent : sent old.status new.status row.status = new.status ∨
        sent old.status new.status row.status = row.status := sent_eq_or
    rw [hstatus]
    obtain h | h := hsent
    · rw [h]
      exact hnew.status
    · rw [h]
      exact hrow.status
  · rw [hcompleted, hloaded.completedAt, hnew.completedAt, sent_same]
    exact hrow.completedAt
  · intro system hsystem
    rw [hstatuses]
    obtain h | h := hsentStatuses
    · rw [h]
      obtain hstill | ⟨-, hblocked⟩ := hnew.retained
      · exact retained_of_still hstill hsystem
      · exact .inr (.inl (hblocked system))
    · rw [h]
      exact hrow.retained system hsystem
  · intro hclaimable
    rw [hstatus, hloaded.running] at hclaimable
    rw [hstatuses]
    by_cases hkept : new.status = .running
    · -- the status was not sent, so it is the one of the row
      rw [hkept, sent_same] at hclaimable
      obtain hstill | ⟨hblocked, -⟩ := hnew.retained
      · obtain h | h := hsentStatuses
        · rw [h]
          exact hstill
        · rw [h]
          exact hrow.claimable hclaimable
      · cases hkept.symm.trans hblocked
    · rw [sent_of_ne hkept] at hclaimable
      obtain hqueued | hrunning := hclaimable
      · exact absurd hqueued hnew.requeued
      · exact absurd hrunning hkept

theorem Loaded.block (h : job.Loaded) (reason : Option String) : (job.block reason).Kept :=
  ⟨fun hstatus => (by cases hstatus), fun hstatus => (by cases hstatus), h.completedAt,
    .inr ⟨rfl, fun _ => rfl⟩⟩

theorem stillRetained_update {statuses : SystemStatuses} (h : StillRetained statuses)
    {system : LifecycleSystem} {status : SystemStatus}
    (hsystem : system.isRetained = true → status = .outcome .pendingExpiry) :
    StillRetained (Function.update statuses system status) := by
  intro other hother
  by_cases hsame : other = system
  · rw [hsame, Function.update_self]
    rw [hsame] at hother
    exact .inr (hsystem hother)
  · rw [Function.update_of_ne hsame]
    exact h other hother

theorem Loaded.erase (h : job.Loaded) (deletion scan : LifecycleAdapterResult) (leaseUntil : ℕ) :
    (job.erase deletion scan leaseUntil).Kept := by
  have hretained : StillRetained (Function.update (fun _ => SystemStatus.pending) .productDb
      (.outcome (systemOutcome deletion scan))) := by
    refine stillRetained_update (fun _ _ => .inl rfl) fun hsystem => ?_
    cases hsystem
  rw [DataDeletionJob.erase]
  by_cases hsurvivors : scan.survivorCount = 0
  · dsimp only
    rw [if_pos hsurvivors]
    refine ⟨?_, ?_, h.completedAt, .inl hretained⟩
    · exact fun hstatus => by cases h.running.symm.trans hstatus
    · exact fun hstatus => by cases h.running.symm.trans hstatus
  · dsimp only
    rw [if_neg hsurvivors]
    exact ⟨fun hstatus => (by cases hstatus), fun hstatus => (by cases hstatus), h.completedAt,
      .inl hretained⟩

theorem Loaded.record (h : job.Loaded) {system : LifecycleSystem}
    (hsystem : system.isRetained = true →
      deletion.outcome = .pendingExpiry ∧ scan.outcome = .pendingExpiry) (leaseUntil : ℕ) :
    (job.record system deletion scan leaseUntil).Kept := by
  refine ⟨fun hstatus => ?_, fun hstatus => ?_, h.completedAt, .inl ?_⟩
  · cases h.running.symm.trans hstatus
  · cases h.running.symm.trans hstatus
  · refine stillRetained_update h.retained fun hretained => ?_
    obtain ⟨hdeletion, hscan⟩ := hsystem hretained
    rw [systemOutcome, hdeletion, hscan]
    decide

/-- The logs are always among the systems that are not resolved. -/
theorem Loaded.finish (h : job.Loaded) : (job.finish now).Kept := by
  have hlogs : isUnresolved (job.systemStatus .logs) = true := by
    obtain hpending | hexpiry := h.retained .logs rfl
    · rw [hpending]
      decide
    · rw [hexpiry]
      decide
  have hunresolved : (LifecycleSystem.sorted.filter fun system =>
      isUnresolved (job.systemStatus system)) ≠ [] := by
    apply List.ne_nil_of_mem (a := LifecycleSystem.logs)
    rw [List.mem_filter]
    exact ⟨by decide, hlogs⟩
  rw [DataDeletionJob.finish]
  dsimp only
  split
  · exact ⟨fun hstatus => (by cases hstatus), fun hstatus => (by cases hstatus), h.completedAt,
      .inl h.retained⟩
  · exact ⟨fun hstatus => (by cases hstatus), fun hstatus => (by cases hstatus), h.completedAt,
      .inl h.retained⟩

end DataDeletionJob

/-- What holds of what a worker is doing. -/
def LifecycleActivity.Honest : LifecycleActivity → Prop
  | checkingHold job | blocking job _ | erasing job _ _ _ | scanning job _ _ _ _ _
  | finishing job => job.Loaded
  | deleting course | surveying course _ => course.Asks
  | recording course deletion scan => course.Expects deletion scan
  | recordingLoaded course job deletion scan => job.Loaded ∧ course.Expects deletion scan
  | idle | exportClaimed _ | exporting _ _ _ | exportRaised _ _ | deletionClaimed _
  | notifying _ | deletionRaised _ _ => True

namespace LifecycleState

structure DeletionsHonest (s : LifecycleState) : Prop where
  jobs : ∀ job ∈ s.deletions, job.Honest
  activities : ∀ worker, (s.activity worker).Honest

variable {cfg : LifecycleConfig} {s s' : LifecycleState} {worker : String}

namespace DeletionsHonest

theorem setActivity (h : s.DeletionsHonest) {activity : LifecycleActivity}
    (hactivity : activity.Honest) : (s.setActivity worker activity).DeletionsHonest :=
  ⟨h.jobs, forall_setActivity (p := fun _ a => a.Honest) h.activities hactivity⟩

theorem congr (h : s.DeletionsHonest) (hdeletions : s'.deletions = s.deletions)
    (hactivity : s'.activity = s.activity) : s'.DeletionsHonest := by
  refine ⟨?_, ?_⟩
  · rw [hdeletions]
    exact h.jobs
  · rw [hactivity]
    exact h.activities

theorem putDeletion (h : s.DeletionsHonest) {row : DataDeletionJob} (hrow : row.Honest) :
    (s.putDeletion row).DeletionsHonest :=
  ⟨Table.forall_put h.jobs hrow, h.activities⟩

theorem mapHeld (h : s.DeletionsHonest) {p : DataDeletionJob → Prop} [DecidablePred p]
    {f : DataDeletionJob → DataDeletionJob}
    (hf : ∀ job : DataDeletionJob, p job → job.Honest → (f job).Honest) :
    (s.mapDeletions fun job => if p job then f job else job).DeletionsHonest := by
  refine ⟨fun job hjob => ?_, h.activities⟩
  obtain ⟨old, hold, rfl⟩ := List.mem_map.mp hjob
  by_cases hp : p old
  · rw [if_pos hp]
    exact hf old hp (h.jobs old hold)
  · rw [if_neg hp]
    exact h.jobs old hold

/-- A transaction commits what it has made of the job that it loaded. -/
theorem flush (h : s.DeletionsHonest) {job new row : DataDeletionJob} (hjob : job.Loaded)
    (hfound : Table.find DataDeletionJob.id s.deletions job.id = some row) (hnew : new.Kept) :
    (s.putDeletion (DataDeletionJob.flush job new row)).DeletionsHonest :=
  h.putDeletion ((h.jobs row (Table.find_eq_some hfound).1).flush hjob hnew)

/-- What the worker is doing is as its activity says. -/
theorem of_activity (h : s.DeletionsHonest) {activity : LifecycleActivity}
    (hactivity : s.activity worker = activity) : activity.Honest := by
  have hworker := h.activities worker
  rwa [hactivity] at hworker

end DeletionsHonest

theorem honest_raised {activity handler : LifecycleActivity} {errorType : String}
    (h : activity.raised errorType = some handler) : handler.Honest := by
  cases activity <;> cases h <;> trivial

theorem DeletionsHonest.move {label : LifecycleLabel} (h : s.DeletionsHonest)
    (hmove : s.Move cfg label s') : s'.DeletionsHonest := by
  cases hmove with
  | refused => exact h
  | policyUpdated | exportCreated | rowInserted | rowRewritten | rowRemoved =>
      exact h.congr rfl rfl
  | deletionCreated actor id confirmation key now job _ _ _ _ hunfinished hstatus =>
      refine ⟨?_, h.activities⟩
      rw [List.forall_mem_append, List.forall_mem_singleton]
      refine ⟨h.jobs, ?_⟩
      obtain ⟨hblocked, hstatuses⟩ | ⟨hqueued, hstatuses⟩ := hstatus
      · refine ⟨?_, hunfinished, fun system _ => .inr (.inl (hstatuses system)), ?_⟩
        · rw [hblocked]
          decide
        · rw [hblocked]
          intro hstatus
          obtain hqueued | hrunning := hstatus
          · cases hqueued
          · cases hrunning
      · refine ⟨?_, hunfinished, fun system _ => .inl (hstatuses system), ?_⟩
        · rw [hqueued]
          decide
        · exact fun _ system _ => .inl (hstatuses system)
  | exportClaimed | exportCommitted | exportFailed =>
      refine DeletionsHonest.setActivity ?_ trivial
      exact h.congr rfl rfl
  | deletionClaimed worker id now job _ _ hfound hdue =>
      have hclaimed := (h.jobs job (Table.find_eq_some hfound).1).claim hdue worker
        (cfg.leaseUntil now)
      exact (h.putDeletion hclaimed).setActivity trivial
  | idled | exportLoaded | tableRead => exact h.setActivity trivial
  | deletionLoaded worker job _ hmem hheld =>
      exact h.setActivity ((h.jobs job hmem).loaded hheld)
  | holdFound worker job reason hactivity | holdAbsent worker job hactivity =>
      have hloaded : job.Loaded := h.of_activity hactivity
      exact h.setActivity hloaded
  | tableErased worker job policy table pending gone hactivity =>
      have hloaded : job.Loaded := h.of_activity hactivity
      exact h.setActivity hloaded
  | exportsScrubbed worker job policy gone hactivity =>
      have hloaded : job.Loaded := h.of_activity hactivity
      exact h.setActivity hloaded
  | tableScanned worker job policy gone scrubbed table pending survivors survivors' hactivity =>
      have hloaded : job.Loaded := h.of_activity hactivity
      exact h.setActivity hloaded
  | blocked worker job row reason hactivity hfound =>
      have hloaded : job.Loaded := h.of_activity hactivity
      exact (h.flush hloaded hfound (hloaded.block reason)).setActivity trivial
  | erasureCommitted worker now job row policy gone scrubbed survivors deletion scan next
      hactivity hfound hdeleted hscanned hgoes =>
      have hloaded : job.Loaded := h.of_activity hactivity
      have hflushed := h.flush hloaded hfound
        (hloaded.erase deletion scan (cfg.leaseUntil now))
      have herased : (s.erased job (DataDeletionJob.flush job (job.erase deletion scan
          (cfg.leaseUntil now)) row) gone scrubbed deletion scan now).DeletionsHonest :=
        hflushed.congr rfl rfl
      refine herased.setActivity ?_
      obtain rfl | rfl := hgoes
      · trivial
      · trivial
  | adapterSkipped worker now course system systems deletion scan hactivity hnext hskipped =>
      refine h.setActivity fun other hother hretained => ?_
      rw [hnext, List.head?_cons] at hother
      cases hother
      rwa [IsSkipped, if_pos hretained] at hskipped
  | deleteCalled worker course system systems hactivity hnext howned =>
      have hcalled : ({ s with deleteCalls :=
          s.deleteCalls ++ [(course.jobId, system)] } : LifecycleState).DeletionsHonest :=
        h.congr rfl rfl
      refine hcalled.setActivity fun other hother => ?_
      rw [hnext, List.head?_cons] at hother
      cases hother
      exact howned
  | deleteAnswered worker result course deletion hactivity =>
      have hasks : course.Asks := h.of_activity hactivity
      exact h.setActivity hasks
  | answered label worker course deletion scan hactivity =>
      have hasks : course.Asks := by
        obtain hdeleting | ⟨deletion, hsurveying⟩ := hactivity
        · exact h.of_activity hdeleting
        · exact h.of_activity hsurveying
      refine h.setActivity fun system hsystem hretained => ?_
      cases (hasks system hsystem).symm.trans hretained
  | recordLost => exact h.setActivity trivial
  | recordLoaded worker course job deletion scan hactivity _ hmem hheld =>
      exact h.setActivity ⟨(h.jobs job hmem).loaded hheld, h.of_activity hactivity⟩
  | recordCommitted worker now course job row system systems phase deletion scan hactivity hnext
      hfound hphase =>
      obtain ⟨hloaded, hexpects⟩ := h.of_activity hactivity
      have hsystem : system ∈ course.systems.head? := by
        rw [hnext]
        rfl
      have hflushed := h.flush hloaded hfound
        (hloaded.record (hexpects system hsystem) (cfg.leaseUntil now))
      have hrecorded : (s.recorded job (DataDeletionJob.flush job (job.record system deletion scan
          (cfg.leaseUntil now)) row) system phase deletion scan now).DeletionsHonest :=
        hflushed.congr rfl rfl
      exact hrecorded.setActivity trivial
  | finishLoaded worker course job hactivity _ _ hmem hheld =>
      exact h.setActivity ((h.jobs job hmem).loaded hheld)
  | finished worker now job row hactivity hfound =>
      have hloaded : job.Loaded := h.of_activity hactivity
      exact (h.flush hloaded hfound hloaded.finish).setActivity trivial
  | raised worker errorType handler hgoes => exact h.setActivity (honest_raised hgoes)
  | deletionFailed worker jobId errorType =>
      refine DeletionsHonest.setActivity ?_ trivial
      exact h.mapHeld fun job _ hjob => hjob.fail errorType
  | released worker now =>
      have hreleased : (s.mapDeletions fun job =>
          if job.isHeldBy worker then job.release now else job).DeletionsHonest :=
        h.mapHeld fun job hheld hjob => hjob.release hheld
      exact hreleased.congr rfl rfl

theorem deletionsHonest_of_reaches (h : Reaches (step cfg) anyStep {} s) : s.DeletionsHonest := by
  refine h.invariant (fun _ _ _ _ hs hstep => hs.move (move_of_step hstep)) ⟨?_, ?_⟩
  · exact fun job hjob => by cases hjob
  · exact fun _ => trivial

/-- A deletion never counts as done: in no interleaving does a job become one that has succeeded
or get a moment of completion, and of the logs and the backups it only ever says that they are
pending, blocked by a hold or still to expire. -/
theorem deletions_never_succeed (h : Reaches (step cfg) anyStep {} s) {job : DataDeletionJob}
    (hjob : job ∈ s.deletions) :
    job.status ≠ .succeeded ∧ job.completedAt = none ∧
      ∀ system, system.isRetained = true → job.systemStatus system ∈
        [.pending, .blockedLegalHold, .outcome .pendingExpiry] := by
  obtain ⟨hstatus, hcompleted, hretained, -⟩ := (deletionsHonest_of_reaches h).jobs job hjob
  refine ⟨hstatus, hcompleted, fun system hsystem => ?_⟩
  obtain hpending | hblocked | hexpiry := hretained system hsystem
  · rw [hpending]
    decide
  · rw [hblocked]
    decide
  · rw [hexpiry]
    decide

/-- The steps of a worker for one of the external systems, where every adapter succeeds. -/
def systemRun (system : LifecycleSystem) : List LifecycleLabel :=
  let answer : LifecycleAdapterResult := { outcome := .succeeded }
  (if system.isRetained then [.skipAdapter "a" 7]
    else [.callDelete "a", .answerDelete "a" (some answer), .answerScan "a" (some answer)]) ++
  [.loadRecord "a", .commitRecord "a" 8]

def deletionRun : List LifecycleLabel :=
  scrubRun ++ LifecycleSystem.external.flatMap systemRun ++ [.loadFinish "a", .commitFinish "a" 9]

theorem deletions_never_succeed_run : ∃ s, Reaches (step plainLifecycle) anyStep {} s ∧
    ∃ job ∈ s.deletions, job.status = .pendingExternal ∧ job.systemStatus .checkpoint =
      .outcome .succeeded ∧ job.status ≠ .succeeded ∧ job.completedAt = none := by
  have hany : (runLabels (step plainLifecycle) {} deletionRun).any (fun s =>
      s.deletions.any fun job => job.status = .pendingExternal ∧
        job.systemStatus .checkpoint = .outcome .succeeded) = true := by decide +kernel
  obtain ⟨s, hrun, hjob⟩ := (Option.any_eq_true _ _).mp hany
  obtain ⟨job, hmem, hstatus⟩ := List.any_eq_true.mp hjob
  obtain ⟨hpending, hcheckpoint⟩ := of_decide_eq_true hstatus
  have hreaches := reaches_of_runLabels deletionRun hrun
  obtain ⟨hnever, hcompleted, -⟩ := deletions_never_succeed hreaches hmem
  exact ⟨s, hreaches, job, hmem, hpending, hcheckpoint, hnever, hcompleted⟩

end LifecycleState

end CryptoAlert
