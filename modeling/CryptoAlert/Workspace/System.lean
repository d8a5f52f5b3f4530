import CryptoAlert.Commands.Execution
import CryptoAlert.Monitors.Triggers

/-!
# One workspace

The rows of a workspace under create requests, trigger deliveries, the work on its tasks, the
reviews and the reconciliation of its ledger. Create requests and deliveries run statement by
statement under read-committed isolation; a delivery holds the row of its monitor, and both hold
the row of the entitlement from their counts to their commit. Every other transaction is one
step.
-/

namespace CryptoAlert

/-- A task with what the workspace reads of it; a task of a monitor names its trigger in the
context of its thread. -/
structure WorkspaceTask where
  ownerUserId : ℕ
  idempotencyKey : String
  requestPayloadHash : String
  createdAt : ℕ
  triggerId : Option ℕ
  state : TaskState

namespace WorkspaceTask

def row (t : WorkspaceTask) : TaskRow := t.state.store.task

def id (t : WorkspaceTask) : ℕ := t.row.id

/-- The status is one of `ACTIVE_TASK_STATUSES`. -/
def active (t : WorkspaceTask) : Bool := !t.row.status.isTerminal

/-- The columns that admission reads. -/
def admissionRow (t : WorkspaceTask) : Admission.Task String where
  id := t.id
  ownerUserId := t.ownerUserId
  idempotencyKey := t.idempotencyKey
  taskType := t.row.taskType
  payload := t.requestPayloadHash
  active := t.active

end WorkspaceTask

structure ImprovementReview where
  id : ℕ
  candidateId : ℕ
  createdAt : ℕ
  pending : Bool

/-- A receipt of a reconciliation; the hashes stand for the facts and the totals hashed. -/
structure UsageReconciliation where
  periodStart : Admission.Instant
  sourceFacts : List UsageFact
  ledgerTotals : List (LedgerUnit × ℕ)
  discrepancies : List (LedgerUnit × ℕ × ℕ)
  repairApplied : Bool
deriving DecidableEq

/-- The committed rows. -/
structure WorkspaceRows where
  entitlement : Option Entitlement
  monitors : List MonitorDefinition
  triggers : List MonitorTrigger
  tasks : List WorkspaceTask
  reviews : List ImprovementReview
  ledger : List UsageLedgerEntry
  reconciliations : List UsageReconciliation

inductive RowHolder where
  | create (r : ℕ) | delivery (r : ℕ)
deriving DecidableEq

/-- The query that comes next in a delivery. -/
inductive TriggerCount where
  | monitors | latest | usage | tasks

inductive DeliveryOutcome where
  | receipt (triggerId : ℕ) (created : Bool)
  | rejected | notFound | integrityError
deriving DecidableEq

/-- Where a delivery stands between two of its statements. -/
inductive DeliveryPhase where
  | start
  | locked (m : MonitorDefinition)
  /-- No trigger has the identity of the delivery; the row of the entitlement comes next. -/
  | unseen (m : MonitorDefinition)
  | counting (m : MonitorDefinition) (e : Entitlement) (next : TriggerCount)
      (reason : Option String)
  | suppressing (m : MonitorDefinition) (version : ℤ) (reason : String)
  | admitting (m : MonitorDefinition) (e : Entitlement)
  | done (outcome : DeliveryOutcome)
  | crashed

structure Workspace where
  rows : WorkspaceRows
  /-- The transaction that holds the row of the entitlement. -/
  holder : Option RowHolder
  /-- The deliveries that hold the rows of the monitors. -/
  monitorHolder : ℕ → Option ℕ
  creates : ℕ → Admission.Phase String
  deliveries : ℕ → DeliveryPhase

/-- A create request after its validation. -/
structure CreateInput extends Admission where
  ownerUserId : ℕ
  idempotencyKey : String

/-- The environment of a workspace: what its requests ask for, and what its workers run with. -/
structure WorkspaceConfig where
  dispatcher : DispatcherConfig
  digests : KeyDigests
  clock : LocalClock
  creates : ℕ → CreateInput
  deliveries : ℕ → TriggerDelivery

/-- The ids and the time that the database gives to the rows of a request. -/
structure InsertedIds where
  triggerId : ℕ
  taskId : ℕ
  commandId : ℕ
  threadId : String
  createdAt : ℕ

inductive WorkspaceLabel where
  | lookup (r : ℕ)
  | lock (r now : ℕ)
  | countActive (r : ℕ)
  | checkMonthly (r : ℕ)
  | insert (r taskId : ℕ)
  | commit (r : ℕ) (ids : InsertedIds)
  | reread (r : ℕ)
  | crash (r : ℕ)
  /-- The next statement of a delivery. -/
  | deliver (r : ℕ) (ids : InsertedIds)
  | crashDelivery (r : ℕ)
  | task (taskId : ℕ) (label : TaskLabel)
  | requestReview (reviewId candidateId now createdAt : ℕ)
  | decideReview (reviewId : ℕ)
  | putMonitor (m : MonitorDefinition)
  | setEntitlement (e : Entitlement)
  | reconcile (moment now : ℕ) (repair : Bool)

namespace WorkspaceRows

variable (w : WorkspaceRows)

def activeTasks : ℕ := (w.tasks.filter (·.active)).length

def pendingReviews : ℕ := (w.reviews.filter (·.pending)).length

/-- The rows that the admission of a create request reads. The admissions of the reviews are
among the entries of the ledger. -/
def admissionStore : Admission.Store String where
  entitlement := w.entitlement.map (·.toWorkspaceEntitlement)
  tasks := w.tasks.map (·.admissionRow)
  commands := w.tasks.map (·.id)
  ledger := (w.ledger.filter fun e => e.unit = .agentAdmission).flatMap fun e =>
    List.replicate e.quantity ⟨e.resource.id, e.periodStart⟩
  pendingReviews := w.pendingReviews
  reviewAdmissions := []

def findTask (id : ℕ) : Option WorkspaceTask := Table.find WorkspaceTask.id w.tasks id

def findMonitor (id : ℕ) : Option MonitorDefinition :=
  Table.find MonitorDefinition.id w.monitors id

/-- The monitors that count against the limit. -/
def activeMonitors : ℕ := (w.monitors.filter fun m => m.status.isCounted).length

/-- The active tasks of admitted triggers. -/
def monitorTasks : ℕ :=
  (w.tasks.filter fun t => t.active &&
    w.triggers.any fun g => g.status == .admitted && g.taskId == some t.id).length

/-- A task can be inserted beside the others, with its command. -/
def mayAddTask (t : WorkspaceTask) : Bool :=
  w.tasks.all fun t' => t'.id != t.id &&
    !(t'.ownerUserId == t.ownerUserId && t'.idempotencyKey == t.idempotencyKey)

end WorkspaceRows

namespace Workspace

variable (cfg : WorkspaceConfig) (w : Workspace)

section Create

def hash (payload : Json) : String := cfg.dispatcher.hashing.payloadHash payload

/-- A create request as admission compares it. -/
def createRequest (r : ℕ) : Admission.CreateRequest String where
  ownerUserId := (cfg.creates r).ownerUserId
  idempotencyKey := (cfg.creates r).idempotencyKey
  taskType := (cfg.creates r).taskType
  payload := hash cfg (cfg.creates r).payload

/-- The create requests on the rows of the workspace. -/
def admissionState : Admission.State String where
  store := w.rows.admissionStore
  holder :=
    match w.holder with
    | some (.create r) => some r
    | _ => none
  phase := w.creates

/-- Takes over the phases and the lock of a statement of a create request. -/
def afterCreate (a : Admission.State String) : Workspace :=
  { w with
    holder :=
      match w.holder with
      | some (.delivery r) => some (.delivery r)
      | _ => a.holder.map .create
    creates := a.phase }

/-- A statement of a create request that inserts nothing for good. -/
def createStep (l : Admission.Label String) : Option Workspace :=
  (Admission.step (createRequest cfg) w.admissionState l).map w.afterCreate

/-- The entry for the admission of a task. -/
def admissionEntry (taskId : ℕ) (taskType : TaskType) (period : Admission.Instant) :
    UsageLedgerEntry where
  key := .agentAdmission taskId
  resource := .task taskId
  unit := .agentAdmission
  quantity := 1
  sourceReceiptHash := hash cfg (.obj [("task_type", .str taskType.name),
    ("resource_type", .str "task"), ("resource_id", .str (toString taskId))])
  triggerId := none
  periodStart := period

/-- The task that a create request commits. -/
def createdTask (c : CreateInput) (taskId : ℕ) (ids : InsertedIds) : WorkspaceTask where
  ownerUserId := c.ownerUserId
  idempotencyKey := c.idempotencyKey
  requestPayloadHash := hash cfg c.payload
  createdAt := ids.createdAt
  triggerId := none
  state := .admitted taskId ids.commandId ids.threadId c.toAdmission (hash cfg c.payload)

/-- The commit of a create request. -/
def commitCreate (r : ℕ) (ids : InsertedIds) : Option Workspace :=
  match w.creates r with
  | .inserted task periodStart => do
      let w' ← w.createStep cfg (.commit r)
      let c := cfg.creates r
      return { w' with rows := { w.rows with
        tasks := w.rows.tasks ++ [createdTask cfg c task.id ids]
        ledger := UsageLedger.append w.rows.ledger
          (admissionEntry cfg task.id c.taskType periodStart) } }
  | _ => none

end Create

section Deliver

def enterDelivery (r : ℕ) (p : DeliveryPhase) : Workspace :=
  { w with deliveries := Function.update w.deliveries r p }

/-- Ends the transaction of a delivery, releasing the rows it holds. -/
def leaveDelivery (r : ℕ) (p : DeliveryPhase) : Workspace :=
  { w with
    holder := if w.holder = some (.delivery r) then none else w.holder
    monitorHolder := fun m => if w.monitorHolder m = some r then none else w.monitorHolder m
    deliveries := Function.update w.deliveries r p }

/-- Locks the row of the monitor, where the delivery names one that takes it. -/
def lockMonitor (r : ℕ) : Option Workspace :=
  match cfg.deliveries r with
  | .trigger d =>
      if !d.isWellFormed then some (w.leaveDelivery r (.done .rejected))
      else
        match (w.rows.findMonitor d.monitorId).filter (·.ownerUserId == d.actorUserId) with
        | none => some (w.leaveDelivery r (.done .notFound))
        | some m =>
            if (w.monitorHolder m.id).isSome then none
            else if !d.accepts m then some (w.leaveDelivery r (.done .rejected))
            else some { w.enterDelivery r (.locked m) with
              monitorHolder := Function.update w.monitorHolder m.id (some r) }
  | .revoked d =>
      match (w.rows.findMonitor d.monitorId).filter (·.cronBindingId == d.cronBindingId) with
      | none => some (w.leaveDelivery r (.done .notFound))
      | some m =>
          if (w.monitorHolder m.id).isSome then none
          else if !m.hasEvaluator then some (w.leaveDelivery r (.done .rejected))
          else some { w.enterDelivery r (.locked m) with
            monitorHolder := Function.update w.monitorHolder m.id (some r) }

/-- Looks the identity up among the triggers of the monitor. -/
def lookupTrigger (r : ℕ) (m : MonitorDefinition) : Workspace :=
  let d := cfg.deliveries r
  match findExistingTrigger w.rows.triggers m d.kind d.identity with
  | some existing => w.leaveDelivery r (.done (.receipt existing.id false))
  | none =>
      match d with
      | .trigger d =>
          if d.scheduleVersion.any (· < 1) then w.leaveDelivery r (.done .rejected)
          else w.enterDelivery r (.unseen m)
      | .revoked d =>
          w.enterDelivery r (.suppressing m d.scheduleVersion "membership_revoked")

/-- Locks the row of the entitlement; the reasons that need no counting follow. -/
def lockEntitlement (r : ℕ) (m : MonitorDefinition) : Option Workspace :=
  match w.holder, cfg.deliveries r with
  | none, .trigger d =>
      let usable := usableEntitlement w.rows.entitlement d.receivedAt
      let version := d.effectiveVersion m
      let phase := match earlyReason cfg.clock m usable version d.receivedAt, usable with
        | none, some e => .counting m e .monitors none
        | reason, _ => .suppressing m version (reason.getD "entitlement_unavailable")
      some { w.enterDelivery r phase with holder := some (.delivery r) }
  | _, _ => none

/-- The reason after a count; the first one stays. -/
def afterCount (m : MonitorDefinition) (e : Entitlement) (now : ℕ) (next : TriggerCount)
    (reason : Option String) : Option String :=
  match next with
  | .monitors =>
      reason <|> (if e.activeMonitorLimit < w.rows.activeMonitors then
        some "active_monitor_limit_exceeded" else none)
  | .latest =>
      reason <|> (if tooSoon w.rows.triggers m e now then
        some "minimum_interval_not_elapsed" else none)
  | .usage =>
      reason <|> (if monthlyTriggersExceeded w.rows.ledger e now then
        some "monthly_trigger_limit_exceeded" else none)
  | .tasks =>
      reason <|> (if e.maxConcurrentTasks ≤ w.rows.monitorTasks then
        some "max_concurrent_tasks_exceeded" else none)

/-- One of the four counts of a delivery. -/
def countStep (r : ℕ) (m : MonitorDefinition) (e : Entitlement) (next : TriggerCount)
    (reason : Option String) : Workspace :=
  let d := cfg.deliveries r
  let reason := w.afterCount m e d.receivedAt next reason
  match next, reason with
  | .monitors, reason => w.enterDelivery r (.counting m e .latest reason)
  | .latest, reason => w.enterDelivery r (.counting m e .usage reason)
  | .usage, reason => w.enterDelivery r (.counting m e .tasks reason)
  | .tasks, none => w.enterDelivery r (.admitting m e)
  | .tasks, some reason =>
      match d with
      | .trigger d => w.enterDelivery r (.suppressing m (d.effectiveVersion m) reason)
      | .revoked d => w.enterDelivery r (.suppressing m d.scheduleVersion reason)

/-- A trigger of a delivery, as far as its columns do not depend on the decision. -/
def triggerRow (d : TriggerDelivery) (m : MonitorDefinition) (id : ℕ) : MonitorTrigger where
  id
  monitorId := m.id
  ownerUserId := m.ownerUserId
  officialCronId :=
    match d with
    | .trigger d => d.officialCronId
    | .revoked _ => m.officialCronId
  officialRunId :=
    match d with
    | .trigger d => d.officialRunId
    | .revoked d => some d.officialRunId
  officialThreadId :=
    match d with
    | .trigger d => d.officialThreadId
    | .revoked d => d.officialThreadId
  manualStableKey :=
    match d with
    | .trigger d => d.manualStableKey
    | .revoked _ => none
  kind := d.kind
  status := .received
  reason := none
  scheduleVersion := m.scheduleVersion
  taskId := none
  threadId := none
  receivedAt := d.receivedAt
  admittedAt := none

/-- The receipt of a suppressed delivery. -/
def suppressedTrigger (d : TriggerDelivery) (m : MonitorDefinition) (id : ℕ) (version : ℤ)
    (reason : String) : MonitorTrigger :=
  { triggerRow d m id with
    status := .suppressed, reason := some reason, scheduleVersion := version }

/-- The receipt of an admitted delivery. -/
def admittedTrigger (d : TriggerDelivery) (m : MonitorDefinition) (ids : InsertedIds) :
    MonitorTrigger :=
  { triggerRow d m ids.triggerId with
    status := .admitted
    taskId := some ids.taskId
    threadId := some ids.threadId
    admittedAt := some d.receivedAt }

/-- `_identity_digest`. -/
def identityDigest (kind : TriggerKind) (identity : String) : String :=
  cfg.dispatcher.hashing.sha256 (kind.name ++ "\x1f" ++ identity)

/-- The task of an admitted trigger. -/
def triggeredTask (m : MonitorDefinition) (kind : TriggerKind) (identity : String)
    (ids : InsertedIds) : WorkspaceTask :=
  let payload := taskPayloadFromTemplate m.taskTemplate
  { ownerUserId := m.ownerUserId
    idempotencyKey := s!"monitor-trigger:{m.id}:" ++ identityDigest cfg kind identity
    requestPayloadHash := hash cfg payload
    createdAt := ids.createdAt
    triggerId := some ids.triggerId
    state := .admitted ids.taskId ids.commandId ids.threadId ⟨m.runTaskType, payload⟩
      (hash cfg payload) }

/-- The charge for an admitted trigger. -/
def triggerEntry (m : MonitorDefinition) (kind : TriggerKind) (identity : String)
    (ids : InsertedIds) (now : ℕ) : UsageLedgerEntry where
  key := .monitorTrigger m.id kind identity
  resource := .monitorTrigger ids.triggerId
  unit := .trigger
  quantity := 1
  sourceReceiptHash := identityDigest cfg kind identity
  triggerId := some ids.triggerId
  periodStart := monthStart (.ofMicros now)

/-- Inserts the receipt of a suppressed delivery and commits. -/
def suppress (r : ℕ) (m : MonitorDefinition) (version : ℤ) (reason : String)
    (ids : InsertedIds) : Workspace :=
  let trigger := suppressedTrigger (cfg.deliveries r) m ids.triggerId version reason
  if trigger.mayJoin w.rows.triggers then
    let w := w.leaveDelivery r (.done (.receipt trigger.id true))
    { w with rows := { w.rows with triggers := w.rows.triggers ++ [trigger] } }
  else w.leaveDelivery r (.done .integrityError)

/-- Inserts the rows of an admitted delivery and commits. -/
def admitDelivery (r : ℕ) (m : MonitorDefinition) (ids : InsertedIds) : Workspace :=
  let d := cfg.deliveries r
  let trigger := admittedTrigger d m ids
  match d.identity with
  | none => w.leaveDelivery r (.done .rejected)
  | some identity =>
      let task := triggeredTask cfg m d.kind identity ids
      let usage := triggerEntry cfg m d.kind identity ids d.receivedAt
      if trigger.mayJoin w.rows.triggers && w.rows.mayAddTask task &&
          w.rows.ledger.all (fun e => e.key != usage.key) then
        let w := w.leaveDelivery r (.done (.receipt trigger.id true))
        { w with rows := { w.rows with
          triggers := w.rows.triggers ++ [trigger]
          tasks := w.rows.tasks ++ [task]
          ledger := w.rows.ledger ++ [usage] } }
      else w.leaveDelivery r (.done .integrityError)

/-- The next statement of a delivery. -/
def deliverStep (r : ℕ) (ids : InsertedIds) : Option Workspace :=
  match w.deliveries r with
  | .start => w.lockMonitor cfg r
  | .locked m => some (w.lookupTrigger cfg r m)
  | .unseen m => w.lockEntitlement cfg r m
  | .counting m e next reason => some (w.countStep cfg r m e next reason)
  | .suppressing m version reason => some (w.suppress cfg r m version reason ids)
  | .admitting m _ => some (w.admitDelivery cfg r m ids)
  | .done _ | .crashed => none

def crashDeliveryStep (r : ℕ) : Option Workspace :=
  match w.deliveries r with
  | .done _ => none
  | _ => some (w.leaveDelivery r .crashed)

end Deliver

section Tasks

/-- The entry of a receipt for a run, charged to the month in which the run finished. -/
def runEntry (state : TaskState) (receipt : UsageReceipt) : UsageLedgerEntry where
  key := .runUsage receipt.runId receipt.unit
  resource := .run receipt.runId
  unit := .run receipt.unit
  quantity := receipt.quantity
  sourceReceiptHash := receipt.sourceReceiptHash
  triggerId := none
  periodStart := periodOf
    (((state.store.findRun receipt.runId).bind (·.finishedAt)).getD 0)

/-- The receipts that a step on a task has added. -/
def newReceipts (before after : TaskState) : List UsageReceipt :=
  after.store.outputs.receipts.drop before.store.outputs.receipts.length

/-- A run id that no other task has. -/
def runIdsApart (t : WorkspaceTask) (state : TaskState) : Bool :=
  w.rows.tasks.all fun t' => t'.id == t.id || t'.state.store.runs.all fun run' =>
    state.store.runs.all fun run => run.id != run'.id

/-- A step on the rows of a task; its receipts are entries of the ledger. -/
def taskStep (taskId : ℕ) (l : TaskLabel) : Option Workspace := do
  let t ← w.rows.findTask taskId
  let state ← t.state.step cfg.dispatcher cfg.digests l
  if !w.runIdsApart t state then none
  else
    return { w with rows := { w.rows with
      tasks := Table.put WorkspaceTask.id w.rows.tasks { t with state }
      ledger := UsageLedger.appendAll (runEntry state) w.rows.ledger
        (newReceipts t.state state) } }

end Tasks

section Reviews

/-- The entry for the admission of a review. -/
def reviewEntry (reviewId : ℕ) (period : Admission.Instant) : UsageLedgerEntry where
  key := .candidateReview reviewId
  resource := .improvementReview reviewId
  unit := .agentAdmission
  quantity := 1
  sourceReceiptHash := hash cfg (.obj [("task_type", .str "candidate_review"),
    ("resource_type", .str "improvement_review"), ("resource_id", .str (toString reviewId))])
  triggerId := none
  periodStart := period

/-- The admission of a review, in one step: its counts, its entry and its row. -/
def requestReview (reviewId candidateId now createdAt : ℕ) : Option Workspace := do
  let e ← usableEntitlement w.rows.entitlement now
  if w.holder.isSome || !e.allowsCandidateReview ||
      e.maxConcurrentTasks ≤ w.rows.activeTasks + w.rows.pendingReviews ||
      e.monthlyAgentAdmissionLimit ≤ UsageLedger.total w.rows.ledger .agentAdmission
        (Admission.usagePeriodStart (.ofMicros now)) ||
      w.rows.reviews.any (fun v => v.id == reviewId || v.candidateId == candidateId) then none
  else
    return { w with rows := { w.rows with
      reviews := w.rows.reviews ++ [⟨reviewId, candidateId, createdAt, true⟩]
      ledger := UsageLedger.append w.rows.ledger
        (reviewEntry cfg reviewId (Admission.usagePeriodStart (.ofMicros now))) } }

def decideReview (reviewId : ℕ) : Workspace :=
  { w with rows := { w.rows with
    reviews := w.rows.reviews.map fun v => if v.id = reviewId then { v with pending := false }
      else v } }

end Reviews

end Workspace

end CryptoAlert
