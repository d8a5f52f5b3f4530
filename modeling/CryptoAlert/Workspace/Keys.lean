import CryptoAlert.Commands.Digests
import CryptoAlert.Workspace.Invariants

/-!
# The keys of the rows of a workspace

The tasks, the triggers and the ledger entries have distinct keys, and the rows of every task are
sound.
-/

namespace CryptoAlert

namespace WorkspaceRows

/-- The rows have distinct keys, and the rows of every task are sound. -/
structure Keyed (w : WorkspaceRows) : Prop where
  tasks : (w.tasks.map WorkspaceTask.id).Nodup
  sound : ∀ t ∈ w.tasks, t.state.Sound
  triggers : (w.triggers.map MonitorTrigger.id).Nodup
  ledger : (w.ledger.map (·.key)).Nodup

end WorkspaceRows

namespace Workspace

variable {cfg : WorkspaceConfig} {w w' : Workspace} {label : WorkspaceLabel}

/-- The rows are keyed, and the row of a task that is not yet committed is new. -/
structure Keyed (w : Workspace) : Prop extends w.rows.Keyed where
  inserted : ∀ r task period, w.creates r = .inserted task period →
    ∀ t ∈ w.rows.tasks, t.id ≠ task.id

theorem keyed_init (e : Option Entitlement) (monitors : List MonitorDefinition) :
    (init e monitors).Keyed :=
  ⟨⟨List.nodup_nil, nofun, List.nodup_nil, List.nodup_nil⟩, nofun⟩

theorem createdTask_id (c : CreateInput) (taskId : ℕ) (ids : InsertedIds) :
    (createdTask cfg c taskId ids).id = taskId := rfl

theorem triggeredTask_id (m : MonitorDefinition) (kind : TriggerKind) (identity : String)
    (ids : InsertedIds) : (triggeredTask cfg m kind identity ids).id = ids.taskId := rfl

/-- A statement of a request leaves the phases of the other requests alone. -/
theorem creates_other {l : Admission.Label String} {r r' : ℕ} {a : Admission.State String}
    (hrequest : l.request = some r)
    (hstatement : Admission.step (createRequest cfg) w.admissionState l = some a) (hr : r' ≠ r) :
    (w.afterCreate a).creates r' = w.creates r' :=
  (Admission.step_statement hrequest hstatement).others r' hr

/-- A commit ends its request. -/
theorem creates_commit {r : ℕ} {task : Admission.Task String} {period : Admission.Instant}
    {a : Admission.State String} (hphase : w.creates r = .inserted task period)
    (hstatement : Admission.step (createRequest cfg) w.admissionState (.commit r) = some a) :
    a.phase r = .done (.task task.id) := by
  have hadmission : w.admissionState.phase r = .inserted task period := hphase
  simp only [Admission.step, hadmission, Option.some.injEq] at hstatement
  subst hstatement
  simp [Admission.State.leave]

/-- No request has inserted its task while a delivery holds the row of the entitlement. -/
theorem Held.not_inserted (h : w.Held) {r r' : ℕ} (hdelivery : (w.deliveries r).holdsEntitlement)
    {task : Admission.Task String} {period : Admission.Instant} :
    w.creates r' ≠ .inserted task period := by
  intro hinserted
  have hcreate := h.create r' (by rw [hinserted]; trivial)
  rw [h.delivery r hdelivery] at hcreate
  cases hcreate

/-- At most one request has inserted its task. -/
theorem Held.eq_of_inserted (h : w.Held) {r r' : ℕ} {task task' : Admission.Task String}
    {period period' : Admission.Instant} (hr : w.creates r = .inserted task period)
    (hr' : w.creates r' = .inserted task' period') : r = r' := by
  have hcreate := h.create r (by rw [hr]; trivial)
  have hcreate' := h.create r' (by rw [hr']; trivial)
  rw [hcreate] at hcreate'
  cases hcreate'
  rfl

theorem keyed_deliver (h : w.Keyed) (hheld : w.Held) {r : ℕ} (hmove : DeliveryMove cfg w r w') :
    w'.Keyed := by
  cases hmove with
  | leave => exact ⟨h.toKeyed, h.inserted⟩
  | lock => exact ⟨h.toKeyed, h.inserted⟩
  | absent => exact ⟨h.toKeyed, h.inserted⟩
  | entitled => exact ⟨h.toKeyed, h.inserted⟩
  | counted => exact ⟨h.toKeyed, h.inserted⟩
  | suppressed m version reason ids suppressing joins =>
      simp only [MonitorTrigger.mayJoin, Bool.and_eq_true, List.all_eq_true, bne_iff_ne] at joins
      refine ⟨⟨h.tasks, h.sound, ?_, h.ledger⟩, h.inserted⟩
      exact Table.nodup_insert h.triggers fun g hg => (joins.2 g hg).1
  | admitted m e identity ids admitting identified joins fresh uncharged =>
      simp only [MonitorTrigger.mayJoin, Bool.and_eq_true, List.all_eq_true, bne_iff_ne] at joins
      simp only [WorkspaceRows.mayAddTask, Bool.and_eq_true, List.all_eq_true, bne_iff_ne]
        at fresh
      refine ⟨⟨?_, ?_, ?_, ?_⟩, ?_⟩
      · exact Table.nodup_insert h.tasks fun t ht => (fresh t ht).1
      · intro t ht
        obtain ht | ht := List.mem_append.mp ht
        · exact h.sound t ht
        · rw [List.mem_singleton.mp ht]
          exact TaskState.Sound.admitted _ _ _ _ _
      · exact Table.nodup_insert h.triggers fun g hg => (joins.2 g hg).1
      · change ((w.rows.ledger ++ [_]).map _).Nodup
        rw [← UsageLedger.append_of_fresh uncharged]
        exact UsageLedger.nodup_append h.ledger
      · intro r' task period hinserted
        exact absurd hinserted (hheld.not_inserted (r := r) (by rw [admitting]; trivial))

theorem keyed_step (h : w.Keyed) (hheld : w.Held) (hstep : w.step cfg label = some w') :
    w'.Keyed := by
  cases step_cases hstep with
  | create _ l r a request free statement =>
      refine ⟨h.toKeyed, ?_⟩
      intro r' task period hinserted t ht
      by_cases hr : r' = r
      · subst hr
        have hfresh := (Admission.step_statement request statement).inserted task period hinserted
        exact (hfresh.2.2 t.admissionRow (List.mem_map_of_mem ht)).1
      · rw [creates_other request statement hr] at hinserted
        exact h.inserted r' task period hinserted t ht
  | commit r ids task period a inserted statement =>
      refine ⟨⟨?_, ?_, h.triggers, UsageLedger.nodup_append h.ledger⟩, ?_⟩
      · exact Table.nodup_insert h.tasks (h.inserted r task period inserted)
      · intro t ht
        obtain ht | ht := List.mem_append.mp ht
        · exact h.sound t ht
        · rw [List.mem_singleton.mp ht]
          exact TaskState.Sound.admitted _ _ _ _ _
      · intro r' task' period' hinserted
        by_cases hr : r' = r
        · have hdone := creates_commit inserted statement
          rw [hr] at hinserted
          change a.phase r = _ at hinserted
          rw [hdone] at hinserted
          cases hinserted
        · change (w.afterCreate a).creates r' = _ at hinserted
          rw [creates_other rfl statement hr] at hinserted
          exact absurd (hheld.eq_of_inserted hinserted inserted) hr
  | deliver r ids _ move => exact keyed_deliver h hheld move
  | crashDelivery r _ crash =>
      rw [crash]
      exact ⟨h.toKeyed, h.inserted⟩
  | task t state l found stepped apart =>
      obtain ⟨hmem, -⟩ := Table.find_eq_some found
      have hid : WorkspaceTask.id { t with state } = t.id :=
        TaskState.task_id_step (h.sound t hmem) stepped
      refine ⟨⟨?_, ?_, h.triggers, UsageLedger.nodup_appendAll h.ledger⟩, ?_⟩
      · rw [Table.map_key_put]
        exact h.tasks
      · exact Table.forall_put h.sound ((h.sound t hmem).step stepped)
      · intro r task period hinserted
        apply Table.forall_put (h.inserted r task period hinserted)
        rw [hid]
        exact h.inserted r task period hinserted t hmem
  | requestReview reviewId candidateId now createdAt idle fresh =>
      exact ⟨⟨h.tasks, h.sound, h.triggers, UsageLedger.nodup_append h.ledger⟩, h.inserted⟩
  | decideReview reviewId => exact ⟨⟨h.tasks, h.sound, h.triggers, h.ledger⟩, h.inserted⟩
  | addMonitor m absent => exact ⟨⟨h.tasks, h.sound, h.triggers, h.ledger⟩, h.inserted⟩
  | putMonitor m old found free owner =>
      exact ⟨⟨h.tasks, h.sound, h.triggers, h.ledger⟩, h.inserted⟩
  | setEntitlement e free => exact ⟨⟨h.tasks, h.sound, h.triggers, h.ledger⟩, h.inserted⟩
  | reconcile moment now repair reconciliations free =>
      refine ⟨⟨h.tasks, h.sound, h.triggers, ?_⟩, h.inserted⟩
      cases repair
      · exact h.ledger
      · exact UsageLedger.nodup_appendAll h.ledger

/-- What holds of every workspace. -/
structure Sound (w : Workspace) : Prop where
  keyed : w.Keyed
  held : w.Held

theorem sound_init (e : Option Entitlement) (monitors : List MonitorDefinition) :
    (init e monitors).Sound :=
  ⟨keyed_init e monitors, held_init e monitors⟩

theorem Sound.step (h : w.Sound) (hstep : w.step cfg label = some w') : w'.Sound :=
  ⟨keyed_step h.keyed h.held hstep, held_step h.held hstep⟩

section Plain

def plainEntitlement : Entitlement where
  active := true
  validFrom := ⟨1, 1, 0⟩
  validUntil := none
  allowedTaskTypes := [.marketAnalysis]
  maxConcurrentTasks := 1
  monthlyAgentAdmissionLimit := 10
  allowsCandidateReview := true
  activeMonitorLimit := 1
  minIntervalSeconds := 1
  monthlyTriggerLimit := 2
  positive := by decide

def plainMonitor : MonitorDefinition where
  id := 1
  ownerUserId := 1
  cronBindingId := 1
  officialCronId := none
  status := .active
  condition := .obj [("kind", .str "scheduled_review")]
  timezone := "UTC"
  expiresAt := none
  quietHours := none
  scheduleVersion := 1
  taskTemplate := []
  runTaskType := .marketAnalysis

/-- Every create request has a key of its own, every second delivery the same; the deliveries are
a second apart. -/
noncomputable def plainConfig : WorkspaceConfig where
  dispatcher := plainDispatcher
  digests := plainDigests
  clock := ⟨fun _ => none, fun _ _ => none⟩
  creates r := { ownerUserId := 1, idempotencyKey := toString r, taskType := .marketAnalysis,
                 payload := .obj [] }
  deliveries r :=
    .trigger ⟨1, 1, .manual, none, none, none, none, some (toString (r % 2)), none, r * 1000000⟩

/-- A create request that commits the task `1`. -/
def createRun : List WorkspaceLabel :=
  [.lookup 0, .lock 0 0, .countActive 0, .checkMonthly 0, .insert 0 1,
    .commit 0 ⟨0, 0, 2, "thread", 0⟩]

/-- A delivery that commits the trigger `5` with the task `3`. -/
def deliverRun : List WorkspaceLabel :=
  List.replicate 8 (.deliver 1 ⟨5, 3, 4, "monitor", 0⟩)

end Plain

end Workspace

end CryptoAlert
