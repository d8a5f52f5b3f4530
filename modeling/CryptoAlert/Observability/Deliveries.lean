import CryptoAlert.Lib.Table
import CryptoAlert.Persistence.UsageReceipts
import Mathlib.Data.List.Sort
import Mathlib.Data.Prod.Lex

/-!
# Deliveries to the observability providers

A delivery is a row that asks for the trace of a run to be found at a provider. A worker leases
it and reports what it found with the fence of its lease; a lease that is over is recovered by
whoever leases next. Instants are counted in microseconds.
-/

namespace CryptoAlert

inductive DeliveryStatus where
  | notRequested | planned | leased | verifying | verified | failedRetryable | failedTerminal
  | unknown
deriving DecidableEq, Repr

namespace DeliveryStatus

def toText : DeliveryStatus → String
  | notRequested => "not_requested"
  | planned => "planned"
  | leased => "leased"
  | verifying => "verifying"
  | verified => "verified"
  | failedRetryable => "failed_retryable"
  | failedTerminal => "failed_terminal"
  | unknown => "unknown"

/-- `OBSERVABILITY_DELIVERY_STATUSES`. -/
def all : List DeliveryStatus :=
  [notRequested, planned, leased, verifying, verified, failedRetryable, failedTerminal, unknown]

def ofText? (text : String) : Option DeliveryStatus :=
  all.find? fun status => status.toText == text

/-- The statuses that come with a lease. -/
def isHeld : DeliveryStatus → Bool
  | leased | verifying => true
  | _ => false

/-- The statuses that wait for a lease. -/
def isWaiting : DeliveryStatus → Bool
  | planned | failedRetryable | unknown => true
  | _ => false

/-- The two ends of a delivery that was asked for. -/
def isFinal : DeliveryStatus → Bool
  | verified | failedTerminal => true
  | _ => false

end DeliveryStatus

/-- `OBSERVABILITY_DELIVERY_PROVIDERS`. -/
def observabilityProviders : List String := ["langsmith", "langfuse"]

/-- `_validate_text`, which raises on a text that is blank or too long. -/
def validateText (value : String) (maxLength : ℕ) : Option String :=
  let normalized := stripSpace value
  if normalized.isEmpty || maxLength < normalized.length then none else some normalized

structure ObservabilityDelivery where
  id : ℕ
  workspaceId : ℕ
  runId : ℕ
  provider : String
  eventType : String
  eventVersion : ℕ
  deliveryKey : String
  correlationId : String
  status : DeliveryStatus
  sampled : Bool
  skipReason : Option String
  attemptCount : ℕ := 0
  fenceToken : ℕ := 0
  leaseOwner : Option String := none
  leaseExpiresAt : Option ℕ := none
  nextAttemptAt : Option ℕ := none
  verificationDeadline : Option ℕ
  providerTraceId : Option String
  lastStage : Option String := none
  lastRetryState : Option String := none
  lastErrorCode : Option String := none
  lastErrorType : Option String := none
  lastErrorSummary : Option String := none
  lastErrorAt : Option ℕ := none
  verifiedAt : Option ℕ := none
  terminalAt : Option ℕ := none
  createdAt : ℕ
deriving DecidableEq

structure ObservabilityDeliveryIntent where
  provider : String
  eventType : String
  eventVersion : ℕ
  deliveryKey : String
  correlationId : String
  status : String
  sampled : Bool
  skipReason : Option String
  providerTraceId : Option String
  verificationDeadline : Option ℕ

structure ObservabilityDeliveryLease where
  deliveryId : ℕ
  provider : String
  eventType : String
  eventVersion : ℕ
  status : DeliveryStatus
  runId : ℕ
  correlationId : String
  deliveryKey : String
  providerTraceId : Option String
  verificationDeadline : Option ℕ
  attemptCount : ℕ
  fenceToken : ℕ
  leaseOwner : String
  leaseExpiresAt : ℕ
deriving DecidableEq

/-- `_validate_text` on an optional text. -/
def validateOptionalText (value : Option String) (maxLength : ℕ) : Option (Option String) :=
  match value with
  | none => some none
  | some text => (validateText text maxLength).map some

/-- The row that `ensure_intents` makes of an intent; `none` where it raises. -/
def ObservabilityDeliveryIntent.toRow (intent : ObservabilityDeliveryIntent)
    (id workspaceId runId now : ℕ) : Option ObservabilityDelivery := do
  let provider := (← validateText intent.provider 32).toLower
  guard (provider ∈ observabilityProviders)
  let status ← DeliveryStatus.ofText? (← validateText intent.status 32)
  guard !status.isHeld
  let skipReason ← validateOptionalText intent.skipReason 128
  guard (status = .notRequested ↔ skipReason.isSome)
  let providerTraceId ← validateOptionalText intent.providerTraceId 255
  guard (status = .verified → providerTraceId ≠ none)
  let eventType ← validateText intent.eventType 64
  guard (1 ≤ intent.eventVersion)
  some {
    id := id
    workspaceId := workspaceId
    runId := runId
    provider := provider
    eventType := eventType
    eventVersion := intent.eventVersion
    deliveryKey := ← validateText intent.deliveryKey 255
    correlationId := ← validateText intent.correlationId 255
    status := status
    sampled := intent.sampled
    skipReason := skipReason
    verificationDeadline := intent.verificationDeadline
    providerTraceId := providerTraceId
    verifiedAt := if status = .verified then some now else none
    createdAt := now }

namespace ObservabilityDelivery

variable (d : ObservabilityDelivery) (now : ℕ)

/-- The columns of the conflict target of `ensure_intents`. -/
def logicalKey : ℕ × String × String × ℕ := (d.runId, d.provider, d.eventType, d.eventVersion)

/-- Whether the lease is over. -/
def isExpired : Bool := d.leaseExpiresAt.any (· ≤ now)

/-- Whether the query of `lease_due` selects the row. -/
def isDue : Bool := d.status.isWaiting && d.nextAttemptAt.all (· ≤ now)

/-- The order of the query of `lease_due`, in which a missing instant comes last. -/
def dueOrder : ℕ ×ₗ ℕ ×ₗ ℕ ×ₗ ℕ :=
  match d.nextAttemptAt with
  | some t => toLex (0, toLex (t, toLex (d.createdAt, d.id)))
  | none => toLex (1, toLex (0, toLex (d.createdAt, d.id)))

/-- `recover_expired_leases`, for one row. -/
def recover : ObservabilityDelivery :=
  { d with
    status := .unknown
    leaseOwner := none
    leaseExpiresAt := none
    nextAttemptAt := some now
    lastRetryState := some "unknown"
    lastErrorCode := some "lease_expired"
    lastErrorType := some "LeaseExpired"
    lastErrorSummary := some "Provider outcome could not be confirmed after lease expiry."
    lastErrorAt := some now }

/-- `release_owned_leases`, for one row. -/
def release : ObservabilityDelivery :=
  { d with
    status := .failedRetryable
    leaseOwner := none
    leaseExpiresAt := none
    nextAttemptAt := some now
    lastRetryState := some "scheduled"
    lastErrorCode := some "worker_shutdown"
    lastErrorType := some "WorkerShutdown"
    lastErrorSummary := some "Worker shutdown released a read-only provider verification lease."
    lastErrorAt := some now }

/-- The row as `lease_due` leaves it. -/
def leaseTo (owner : String) (leaseExpiresAt : ℕ) : ObservabilityDelivery :=
  { d with
    status := if d.status = .unknown then .verifying else .leased
    attemptCount := d.attemptCount + 1
    fenceToken := d.fenceToken + 1
    leaseOwner := some owner
    leaseExpiresAt := some leaseExpiresAt
    nextAttemptAt := none }

/-- The lease that `lease_due` returns for a row that it has written. -/
def leaseOf (owner : String) (leaseExpiresAt : ℕ) : ObservabilityDeliveryLease where
  deliveryId := d.id
  provider := d.provider
  eventType := d.eventType
  eventVersion := d.eventVersion
  status := d.status
  runId := d.runId
  correlationId := d.correlationId
  deliveryKey := d.deliveryKey
  providerTraceId := d.providerTraceId
  verificationDeadline := d.verificationDeadline
  attemptCount := d.attemptCount
  fenceToken := d.fenceToken
  leaseOwner := owner
  leaseExpiresAt := leaseExpiresAt

/-- The condition of `_fenced_transition`. -/
def isLockedBy (lease : ObservabilityDeliveryLease) : Bool :=
  d.id == lease.deliveryId && d.leaseOwner == some lease.leaseOwner &&
    d.fenceToken == lease.fenceToken && d.status.isHeld

end ObservabilityDelivery

/-- The error columns that the failing marks share. -/
structure MarkError where
  code : String
  type : Option String
  summary : Option String := none
  stage : Option String := some "hosted_query"

/-- The calls that report the end of a lease. -/
inductive DeliveryMark where
  | verified (providerTraceId : String)
  | retryable (nextAttemptAt : ℕ) (error : MarkError)
  | unknown (nextAttemptAt : Option ℕ) (error : MarkError)
  | terminal (error : MarkError)

namespace DeliveryMark

/-- The columns that `mark_retryable`, `mark_unknown` and `mark_terminal` all set. -/
def failed (d : ObservabilityDelivery) (now : ℕ) (retryState : String) (error : MarkError) :
    Option ObservabilityDelivery := do
  let code ← validateText error.code 128
  some { d with
    leaseOwner := none
    leaseExpiresAt := none
    lastStage := error.stage
    lastRetryState := some retryState
    lastErrorCode := some code
    lastErrorType := error.type
    lastErrorSummary := error.summary
    lastErrorAt := some now }

/-- The row that a mark writes; `none` where the call raises. -/
def apply (d : ObservabilityDelivery) (now : ℕ) : DeliveryMark → Option ObservabilityDelivery
  | verified providerTraceId => do
      let receipt ← validateText providerTraceId 255
      some { d with
        status := .verified
        providerTraceId := some receipt
        verifiedAt := some now
        leaseOwner := none
        leaseExpiresAt := none
        nextAttemptAt := none
        lastRetryState := some "not_applicable"
        lastErrorCode := none
        lastErrorType := none
        lastErrorSummary := none
        lastErrorAt := none }
  | retryable nextAttemptAt error => do
      let row ← failed d now "scheduled" error
      some { row with status := .failedRetryable, nextAttemptAt := some nextAttemptAt }
  | unknown nextAttemptAt error => do
      let row ← failed d now "unknown" error
      some { row with status := .unknown, nextAttemptAt := some (nextAttemptAt.getD now) }
  | terminal error => do
      let row ← failed d now "exhausted" error
      some { row with status := .failedTerminal, nextAttemptAt := none, terminalAt := some now }

end DeliveryMark

namespace Deliveries

/-- The key of a delivery. -/
def key (d : ObservabilityDelivery) : ℕ := d.id

/-- Inserts a row unless its logical key is taken; another taken key is an error. -/
def insertIntent (rows : List ObservabilityDelivery) (row : ObservabilityDelivery) :
    Option (List ObservabilityDelivery) :=
  if rows.any fun d => d.logicalKey == row.logicalKey then some rows
  else if rows.any fun d => d.workspaceId == row.workspaceId && d.deliveryKey == row.deliveryKey
    then none
  else Table.insert key rows row

/-- `ensure_intents`; `none` where it raises. The ids are the fresh ids of the rows. -/
def ensureIntents (deliveries : List ObservabilityDelivery) (workspaceId runId now : ℕ)
    (intents : List (ℕ × ObservabilityDeliveryIntent)) : Option (List ObservabilityDelivery) := do
  let rows ← intents.mapM fun (id, intent) => intent.toRow id workspaceId runId now
  if (rows.map ObservabilityDelivery.logicalKey).Nodup then rows.foldlM insertIntent deliveries
  else none

/-- `recover_expired_leases`, with the rows that others have locked. -/
def recoverExpiredLeases (deliveries : List ObservabilityDelivery) (now : ℕ) (locked : List ℕ) :
    List ObservabilityDelivery :=
  deliveries.map fun d =>
    if d.status.isHeld && d.isExpired now && !locked.contains d.id then d.recover now else d

/-- `release_owned_leases`. -/
def releaseOwnedLeases (deliveries : List ObservabilityDelivery) (owner : String) (now : ℕ)
    (locked : List ℕ) : List ObservabilityDelivery :=
  deliveries.map fun d =>
    if d.leaseOwner == some owner && d.status.isHeld && !locked.contains d.id then d.release now
    else d

/-- The rows that the two queries of `lease_due` skip, because others hold their locks. -/
structure Locked where
  recovery : List ℕ := []
  due : List ℕ := []

/-- The rows that the query of `lease_due` selects. -/
def selectDue (deliveries : List ObservabilityDelivery) (now limit : ℕ) (locked : List ℕ) :
    List ObservabilityDelivery :=
  ((deliveries.filter fun d => d.isDue now && !locked.contains d.id).insertionSort
    fun d e => d.dueOrder ≤ e.dueOrder).take limit

/-- `lease_due` for a checked worker id and limit, with the leases that it returns. -/
def leaseDue (deliveries : List ObservabilityDelivery) (owner : String)
    (now leaseSeconds limit : ℕ) (locked : Locked) :
    List ObservabilityDelivery × List ObservabilityDeliveryLease :=
  let recovered := recoverExpiredLeases deliveries now locked.recovery
  let due := selectDue recovered now limit locked.due
  let leaseExpiresAt := now + leaseSeconds * 1000000
  (recovered.map fun d =>
      if due.any fun e => e.id == d.id then d.leaseTo owner leaseExpiresAt else d,
    due.map fun d => (d.leaseTo owner leaseExpiresAt).leaseOf owner leaseExpiresAt)

/-- `_fenced_transition` for a mark. A call that raises changes nothing. -/
def fencedTransition (deliveries : List ObservabilityDelivery) (lease : ObservabilityDeliveryLease)
    (mark : DeliveryMark) (now : ℕ) : List ObservabilityDelivery :=
  deliveries.map fun d => if d.isLockedBy lease then (mark.apply d now).getD d else d

end Deliveries

end CryptoAlert
