import CryptoAlert.Domain.Models
import CryptoAlert.Lib.Transition
import Mathlib.Logic.Function.Basic

/-!
# Concurrent admission of create requests

The transactions of `_create_product_task` with the entitlement row lock of `admit_agent`, at
the granularity of their statements. Under read-committed isolation each statement sees the
rows committed when it runs, so the lookup of the idempotency key, the quota counts and the
insert may see different stores. One workspace is modelled, since the entitlement row, the
unique index and all the counts are those of one workspace.
-/

namespace CryptoAlert.Admission

/-- A UTC time: year, month, and the microseconds since the month began. -/
structure Instant where
  year : ℕ
  month : ℕ
  rest : ℕ
deriving DecidableEq, Repr

namespace Instant

def lt (a b : Instant) : Bool :=
  a.year < b.year || (a.year == b.year &&
    (a.month < b.month || (a.month == b.month && a.rest < b.rest)))

end Instant

def usagePeriodStart (value : Instant) : Instant := { value with rest := 0 }

structure WorkspaceEntitlement where
  active : Bool
  validFrom : Instant
  validUntil : Option Instant
  allowedTaskTypes : List TaskType
  maxConcurrentTasks : ℕ
  monthlyAgentAdmissionLimit : ℕ

/-- The check of `require_entitlement` on the locked row. -/
def WorkspaceEntitlement.isAvailable (e : WorkspaceEntitlement) (now : Instant) : Bool :=
  e.active && !now.lt e.validFrom &&
    (match e.validUntil with
      | none => true
      | some validUntil => now.lt validUntil)

/-- A task row; `payload` stands for the canonical payload and so also for its hash, and
`active` says whether the status is one of `queued`, `running` and `waiting_human`. -/
structure Task (P : Type) where
  id : ℕ
  ownerUserId : ℕ
  idempotencyKey : String
  taskType : TaskType
  payload : P
  active : Bool

/-- An `agent_admission` entry of the usage ledger, of quantity one. -/
structure LedgerEntry where
  resourceId : ℕ
  periodStart : Instant

/-- The committed rows. Reviews take part in both quotas but are admitted elsewhere. -/
structure Store (P : Type) where
  entitlement : Option WorkspaceEntitlement
  tasks : List (Task P)
  /-- The task ids of the submit commands. -/
  commands : List ℕ
  ledger : List LedgerEntry
  pendingReviews : ℕ
  reviewAdmissions : List Instant

structure CreateRequest (P : Type) where
  ownerUserId : ℕ
  idempotencyKey : String
  taskType : TaskType
  payload : P

inductive Outcome where
  | task (taskId : ℕ)
  | idempotencyConflict
  | entitlementDenied
  | modeDenied
  | quotaExceeded (unit : String) (current limit : ℕ)
  | integrityError
deriving DecidableEq

/-- Where a request stands between two of its statements. -/
inductive Phase (P : Type) where
  | start
  /-- The lookup found no task; the entitlement row comes next. -/
  | lookedUp
  | locked (entitlement : WorkspaceEntitlement) (now : Instant)
  | counted (entitlement : WorkspaceEntitlement) (now : Instant)
  | admitted (periodStart : Instant)
  | inserted (task : Task P) (periodStart : Instant)
  /-- Rolled back after an integrity error; the task is looked up again. -/
  | rolledBack
  | done (outcome : Outcome)
  | crashed

structure State (P : Type) where
  store : Store P
  /-- The request whose transaction holds the entitlement row. -/
  holder : Option ℕ
  phase : ℕ → Phase P

inductive Label (P : Type) where
  | lookup (r : ℕ)
  | lock (r : ℕ) (now : Instant)
  | countActive (r : ℕ)
  | checkMonthly (r : ℕ)
  | insert (r taskId : ℕ)
  | commit (r : ℕ)
  | reread (r : ℕ)
  | crash (r : ℕ)
  /-- A status change of a task by the dispatcher or another request. -/
  | setActive (taskId : ℕ) (active : Bool)
  | setReviews (pendingReviews : ℕ) (reviewAdmissions : List Instant)
  | setEntitlement (entitlement : Option WorkspaceEntitlement)

variable {P : Type} (requests : ℕ → CreateRequest P)

def Task.hasKey (t : Task P) (c : CreateRequest P) : Bool :=
  t.ownerUserId == c.ownerUserId && t.idempotencyKey == c.idempotencyKey

/-- `_find_admission_task`. -/
def Store.findAdmissionTask (s : Store P) (c : CreateRequest P) : Option (Task P) :=
  s.tasks.find? (·.hasKey c)

/-- `_require_same_payload`, followed by the view of the task. -/
def replay [DecidableEq P] (c : CreateRequest P) (existing : Task P) : Outcome :=
  if existing.payload = c.payload then .task existing.id else .idempotencyConflict

def Store.activeOperations (s : Store P) : ℕ :=
  (s.tasks.filter (·.active)).length + s.pendingReviews

/-- The `agent_admission` total of a period. -/
def Store.total (s : Store P) (periodStart : Instant) : ℕ :=
  (s.ledger.filter fun entry => entry.periodStart = periodStart).length +
    (s.reviewAdmissions.filter fun start => start = periodStart).length

namespace State

def enter (s : State P) (r : ℕ) (p : Phase P) : State P :=
  { s with phase := Function.update s.phase r p }

/-- Ends the transaction of a request, releasing the entitlement row if it holds it. -/
def leave (s : State P) (r : ℕ) (p : Phase P) : State P :=
  { s with
    holder := if s.holder = some r then none else s.holder
    phase := Function.update s.phase r p }

end State

/-- One statement of one request, or a change from outside; `none` where it cannot happen. -/
def step [DecidableEq P] (s : State P) : Label P → Option (State P)
  | .lookup r =>
      match s.phase r with
      | .start =>
          match s.store.findAdmissionTask (requests r) with
          | some existing => some (s.leave r (.done (replay (requests r) existing)))
          | none => some (s.enter r .lookedUp)
      | _ => none
  | .lock r now =>
      match s.phase r, s.holder with
      | .lookedUp, none =>
          match s.store.entitlement with
          | none => some (s.leave r (.done .entitlementDenied))
          | some e =>
              if !e.isAvailable now then some (s.leave r (.done .entitlementDenied))
              else if !e.allowedTaskTypes.contains (requests r).taskType then
                some (s.leave r (.done .modeDenied))
              else some { s.enter r (.locked e now) with holder := some r }
      | _, _ => none
  | .countActive r =>
      match s.phase r with
      | .locked e now =>
          let current := s.store.activeOperations
          if current ≥ e.maxConcurrentTasks then
            some (s.leave r (.done (.quotaExceeded "concurrent_agent_operation" current
              e.maxConcurrentTasks)))
          else some (s.enter r (.counted e now))
      | _ => none
  | .checkMonthly r =>
      match s.phase r with
      | .counted e now =>
          let current := s.store.total (usagePeriodStart now)
          if current ≥ e.monthlyAgentAdmissionLimit then
            some (s.leave r (.done (.quotaExceeded "agent_admission" current
              e.monthlyAgentAdmissionLimit)))
          else some (s.enter r (.admitted (usagePeriodStart now)))
      | _ => none
  | .insert r taskId =>
      match s.phase r with
      | .admitted periodStart =>
          let c := requests r
          -- Every inserting transaction holds the entitlement row, so the unique index can only
          -- collide with committed rows.
          if s.store.tasks.any fun t => t.id == taskId || t.hasKey c then
            some (s.leave r .rolledBack)
          else
            some (s.enter r (.inserted
              ⟨taskId, c.ownerUserId, c.idempotencyKey, c.taskType, c.payload, true⟩ periodStart))
      | _ => none
  | .commit r =>
      match s.phase r with
      | .inserted task periodStart =>
          some { s.leave r (.done (.task task.id)) with
            store := { s.store with
              tasks := s.store.tasks ++ [task]
              commands := s.store.commands ++ [task.id]
              ledger := s.store.ledger ++ [⟨task.id, periodStart⟩] } }
      | _ => none
  | .reread r =>
      match s.phase r with
      | .rolledBack =>
          match s.store.findAdmissionTask (requests r) with
          | some existing => some (s.leave r (.done (replay (requests r) existing)))
          | none => some (s.leave r (.done .integrityError))
      | _ => none
  | .crash r =>
      match s.phase r with
      | .done _ => none
      | _ => some (s.leave r .crashed)
  | .setActive taskId active =>
      some { s with store := { s.store with
        tasks := s.store.tasks.map fun t => if t.id = taskId then { t with active } else t } }
  | .setReviews pendingReviews reviewAdmissions =>
      some { s with store := { s.store with pendingReviews, reviewAdmissions } }
  | .setEntitlement entitlement =>
      if s.holder = none then some { s with store := { s.store with entitlement } } else none

/-- A workspace without tasks and without requests under way. -/
def init (entitlement : Option WorkspaceEntitlement) (pendingReviews : ℕ)
    (reviewAdmissions : List Instant) : State P where
  store := ⟨entitlement, [], [], [], pendingReviews, reviewAdmissions⟩
  holder := none
  phase _ := .start

end CryptoAlert.Admission
