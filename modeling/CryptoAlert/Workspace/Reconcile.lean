import CryptoAlert.Workspace.System

/-!
# Reconciling the ledger with its sources

The facts of a period are computed again from the tasks, the reviews, the triggers and the runs.
A repair appends the facts whose key is missing from the period; nothing is ever taken back.
-/

namespace CryptoAlert

/-- The bounds of the queries for the sources of a period. -/
def inBounds (period : Admission.Instant) (t : ℕ) : Bool :=
  period.toMicros ≤ t && t < period.nextMonth.toMicros

section Facts

variable (hashing : Hashing)

def taskFact (t : WorkspaceTask) : UsageFact where
  key := .agentAdmission t.id
  resource := .task t.id
  unit := .agentAdmission
  quantity := 1
  sourceReceiptHash := hashing.payloadHash (.obj [("task_id", .str (toString t.id)),
    ("task_type", .str t.row.taskType.name)])

def reviewFact (v : ImprovementReview) : UsageFact where
  key := .candidateReview v.id
  resource := .improvementReview v.id
  unit := .agentAdmission
  quantity := 1
  sourceReceiptHash := hashing.payloadHash (.obj [("review_id", .str (toString v.id)),
    ("candidate_id", .str (toString v.candidateId))])

def triggerFact (g : MonitorTrigger) : UsageFact where
  key := .reconcileTrigger g.id
  resource := .monitorTrigger g.id
  unit := .trigger
  quantity := 1
  sourceReceiptHash := hashing.payloadHash (.obj [("trigger_id", .str (toString g.id)),
    ("kind", .str g.kind.name)])

/-- A receipt of a run as a fact. -/
def runFact (r : UsageReceipt) : UsageFact where
  key := .runUsage r.runId r.unit
  resource := .run r.runId
  unit := .run r.unit
  quantity := r.quantity
  sourceReceiptHash := r.sourceReceiptHash

/-- The order in which the facts of a period are listed. -/
def factOrder (f f' : UsageFact) : Bool :=
  f.unit.name < f'.unit.name || (f.unit.name == f'.unit.name && f.key.text ≤ f'.key.text)

namespace WorkspaceRows

variable (w : WorkspaceRows)

def runs : List RunRow := w.tasks.flatMap (·.state.store.runs)

/-- The facts of a period, in no particular order. -/
def unsortedFacts (period : Admission.Instant) : List UsageFact :=
  (w.tasks.filter fun t => inBounds period t.createdAt).map (taskFact hashing) ++
    (w.reviews.filter fun v => inBounds period v.createdAt).map (reviewFact hashing) ++
    (w.triggers.filter fun g => inBounds period g.receivedAt).map (triggerFact hashing) ++
    (w.runs.filter fun r => r.finishedAt.any (inBounds period)).flatMap
      fun r => (runUsageFacts hashing r).map runFact

/-- `source_facts`. -/
def sourceFacts (period : Admission.Instant) : List UsageFact :=
  (w.unsortedFacts hashing period).insertionSort fun f f' => factOrder f f'

/-- Whether a repair leaves a fact out: its key, or its trigger, is charged in the period. -/
def isCharged (period : Admission.Instant) (f : UsageFact) : Bool :=
  (UsageLedger.inPeriod w.ledger period).any fun e => e.key == f.key ||
    (match f.resource with
      | .monitorTrigger id => e.triggerId == some id
      | _ => false)

/-- The ledger after a repair of a period. -/
def repaired (period : Admission.Instant) : List UsageLedgerEntry :=
  UsageLedger.appendAll (fun f => ⟨f, none, period⟩) w.ledger
    ((w.sourceFacts hashing period).filter fun f => !w.isCharged period f)

end WorkspaceRows

/-- The totals of facts by unit. -/
def factTotal (facts : List UsageFact) (unit : LedgerUnit) : ℕ :=
  ((facts.filter fun f => f.unit = unit).map (·.quantity)).sum

/-- The units whose totals differ, with the total of the sources and that of the ledger. -/
def discrepancies (facts : List UsageFact) (ledger : List UsageLedgerEntry)
    (period : Admission.Instant) : List (LedgerUnit × ℕ × ℕ) :=
  (LedgerUnit.all.filter fun unit =>
      factTotal facts unit ≠ UsageLedger.total ledger unit period).map fun unit =>
    (unit, factTotal facts unit, UsageLedger.total ledger unit period)

/-- `reconcile`, with the receipt it answers; `none` where it raises. -/
def WorkspaceRows.reconcile (w : WorkspaceRows) (period : Admission.Instant) (repair : Bool)
    (now : ℕ) : Option (WorkspaceRows × UsageReconciliation) := do
  let _ ← usableEntitlement w.entitlement now
  let facts := w.sourceFacts hashing period
  let ledger := if repair then w.repaired hashing period else w.ledger
  let receipt : UsageReconciliation := {
    periodStart := period
    sourceFacts := facts
    ledgerTotals := LedgerUnit.all.map fun unit => (unit, UsageLedger.total ledger unit period)
    discrepancies := discrepancies facts ledger period
    repairApplied := repair }
  match w.reconciliations.find? fun r => r.periodStart == period && r.sourceFacts == facts &&
      r.ledgerTotals == receipt.ledgerTotals with
  | some existing => return ({ w with ledger }, existing)
  | none => return ({ w with ledger, reconciliations := w.reconciliations ++ [receipt] }, receipt)

end Facts

namespace Workspace

variable (cfg : WorkspaceConfig) (w : Workspace)

/-- `reconcile_usage`; a repair waits for the row of the entitlement. -/
def reconcileStep (moment now : ℕ) (repair : Bool) : Option Workspace :=
  if repair && w.holder.isSome then none
  else (w.rows.reconcile cfg.dispatcher.hashing (periodOf moment) repair now).map
    fun (rows, _) => { w with rows }

/-- Inserts a monitor or changes one that no delivery holds; its owner stays. -/
def putMonitor (m : MonitorDefinition) : Option Workspace :=
  match w.rows.findMonitor m.id with
  | none => some { w with rows := { w.rows with monitors := w.rows.monitors ++ [m] } }
  | some old =>
      if (w.monitorHolder m.id).isSome || old.ownerUserId != m.ownerUserId then none
      else some { w with rows := { w.rows with
        monitors := Table.put MonitorDefinition.id w.rows.monitors m } }

/-- One step of the workspace; `none` where it cannot happen, waits or is rolled back. -/
def step (w : Workspace) : WorkspaceLabel → Option Workspace
  | .lookup r => w.createStep cfg (.lookup r)
  | .lock r now =>
      if w.holder.isSome then none else w.createStep cfg (.lock r (.ofMicros now))
  | .countActive r => w.createStep cfg (.countActive r)
  | .checkMonthly r => w.createStep cfg (.checkMonthly r)
  | .insert r taskId => w.createStep cfg (.insert r taskId)
  | .commit r ids => w.commitCreate cfg r ids
  | .reread r => w.createStep cfg (.reread r)
  | .crash r => w.createStep cfg (.crash r)
  | .deliver r ids => w.deliverStep cfg r ids
  | .crashDelivery r => w.crashDeliveryStep r
  | .task taskId l => w.taskStep cfg taskId l
  | .requestReview reviewId candidateId now createdAt =>
      w.requestReview cfg reviewId candidateId now createdAt
  | .decideReview reviewId => some (w.decideReview reviewId)
  | .putMonitor m => w.putMonitor m
  | .setEntitlement e =>
      if w.holder.isSome then none
      else some { w with rows := { w.rows with entitlement := some e } }
  | .reconcile moment now repair => w.reconcileStep cfg moment now repair

/-- A workspace with monitors but without a history. -/
def init (entitlement : Option Entitlement) (monitors : List MonitorDefinition) : Workspace where
  rows := ⟨entitlement, monitors, [], [], [], [], []⟩
  holder := none
  monitorHolder _ := none
  creates _ := .start
  deliveries _ := .start

end Workspace

end CryptoAlert
