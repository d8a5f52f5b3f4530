import CryptoAlert.Lib.Table
import CryptoAlert.Persistence.UsageReceipts

/-!
# The notification outbox

A notification is a row of the outbox with the attempts made to deliver it, oldest first. A
worker leases a notification, marks the attempt before it sends, and records the result in a
third transaction; the fence of the lease is counted on the row. Instants are counted in
microseconds.
-/

namespace CryptoAlert

inductive OutboxStatus where
  | planned | leased | sending | delivered | failedRetryable | failedTerminal | unknown
deriving DecidableEq, Repr

def OutboxStatus.toText : OutboxStatus → String
  | planned => "planned"
  | leased => "leased"
  | sending => "sending"
  | delivered => "delivered"
  | failedRetryable => "failed_retryable"
  | failedTerminal => "failed_terminal"
  | unknown => "unknown"

inductive AttemptTrigger where
  | automatic | manual
deriving DecidableEq, Repr

/-- The results that the worker writes into an attempt. -/
inductive AttemptResult where
  | sending | delivered | failedRetryable | failedTerminal | unknown
deriving DecidableEq, Repr

structure NotificationAttempt where
  attemptNumber : ℕ
  owner : String
  fenceToken : ℕ
  trigger : AttemptTrigger
  requestedBy : Option String
  result : AttemptResult
  reason : Option String := none
  errorCode : Option String := none
  retryAfterSeconds : Option ℕ := none
  delaySeconds : ℕ := 0
  costUnits : ℚ := 0
  providerReceipt : Option String := none
  createdAt : ℕ
  finishedAt : Option ℕ := none
deriving DecidableEq

def isSafeChar (c : Char) : Bool :=
  c.isAlphanum || c == '_' || c == '.' || c == ':' || c == '-'

/-- `_safe_reason`. -/
def safeReason (value : String) : String :=
  if 1 ≤ value.length && value.length ≤ 128 && value.toList.all isSafeChar then value
  else "adapter_error"

/-- The attempt as `_set_unknown` leaves it. -/
def NotificationAttempt.withUnknown (a : NotificationAttempt) (now : ℕ) (reason : String) :
    NotificationAttempt :=
  { a with
    result := .unknown
    reason := some (safeReason reason)
    errorCode := some (safeReason reason)
    finishedAt := some now }

/-- The three columns of a manual resend request, which are set and cleared together. -/
structure ManualResend where
  requestedAt : ℕ
  requestedBy : String
  reason : String
deriving DecidableEq

structure NotificationOutbox where
  id : ℕ
  tenantId : ℕ
  workspaceId : ℕ
  ownerUserId : ℕ
  status : OutboxStatus
  availableAt : ℕ
  attemptCount : ℕ
  fenceToken : ℕ
  leaseOwner : Option String
  leaseExpiresAt : Option ℕ
  manualResend : Option ManualResend
  deliveredAt : Option ℕ
  terminalAt : Option ℕ
  createdAt : ℕ
deriving DecidableEq

structure Notification where
  row : NotificationOutbox
  attempts : List NotificationAttempt
deriving DecidableEq

structure NotificationLease where
  notificationId : ℕ
  attemptNumber : ℕ
  owner : String
  fenceToken : ℕ
  leaseExpiresAt : ℕ
  trigger : AttemptTrigger
  requestedBy : Option String
deriving DecidableEq

/-- `max_attempts`, which the worker and the resend request fix. -/
def maxAttempts : ℕ := 5

/-- `retry_window_seconds`, which the worker and the resend request fix at 24 hours. -/
def retryWindow : ℕ := 86400 * 1000000

structure OutboxWorker where
  workerId : String
  leaseSeconds : ℕ
  baseBackoffSeconds : ℕ
  maxBackoffSeconds : ℕ
  leaseSeconds_pos : 1 ≤ leaseSeconds
  backoff_valid : 1 ≤ baseBackoffSeconds ∧ baseBackoffSeconds ≤ maxBackoffSeconds

/-- The `DeliveryOutcome` of an adapter. -/
inductive AdapterOutcome where
  | delivered | retryable | terminal
deriving DecidableEq, Repr

structure DeliveryResult where
  outcome : AdapterOutcome
  reason : Option String := none
  retryAfterSeconds : Option ℤ := none
  costUnits : ℚ := 0
  providerReceipt : Option String := none

namespace DeliveryResult

def ofReceipt (receipt : String) : DeliveryResult :=
  { outcome := .delivered, providerReceipt := some receipt }

def retryable (reason : String) (retryAfterSeconds : Option ℤ) : DeliveryResult :=
  { outcome := .retryable, reason := some reason, retryAfterSeconds := retryAfterSeconds }

def terminal (reason : String) : DeliveryResult :=
  { outcome := .terminal, reason := some reason }

/-- `result.reason or "delivery_failed"`. -/
def failureReason (result : DeliveryResult) : String :=
  match result.reason with
  | some reason => if reason.isEmpty then "delivery_failed" else reason
  | none => "delivery_failed"

end DeliveryResult

/-- `_safe_receipt`. -/
def safeReceipt (value : Option String) : Option String := do
  let normalized := stripSpace (← value)
  let first ← normalized.toList.head?
  if first.isAlphanum && normalized.length ≤ 128 && normalized.toList.all isSafeChar then
    some normalized
  else none

/-- `_required_text`. -/
def requiredText (value : String) (maxLength : ℕ) : Option String :=
  let normalized := stripSpace value
  if normalized.isEmpty || maxLength < normalized.length ||
      normalized.toList.any (fun c => c.toNat < 32 || c.toNat == 127) then none
  else some normalized

/-- `_retry_after`. -/
def boundedRetryAfter (value : Option ℤ) : Option ℕ := do
  let seconds ← value
  if seconds < 0 then none else some (min seconds.toNat 86400)

namespace NotificationOutbox

variable (n : NotificationOutbox) (now : ℕ)

/-- Whether a lease is held, expired or not. -/
def isHeld : Bool := n.status == .leased || n.status == .sending

def isResendable : Bool :=
  n.status == .unknown || n.status == .failedRetryable || n.status == .failedTerminal

/-- Whether the row waits for its next automatic attempt. -/
def isWaiting : Bool := n.status == .planned || n.status == .failedRetryable

/-- Whether the retry window is over. -/
def isOverdue : Bool := n.createdAt + retryWindow ≤ now

/-- Whether the lease is over. -/
def isExpired : Bool := n.leaseExpiresAt.any (· ≤ now)

/-- `_clear_lease`. -/
def clearLease : NotificationOutbox :=
  { n with leaseOwner := none, leaseExpiresAt := none }

/-- `_release_without_send`. -/
def releaseWithoutSend : NotificationOutbox :=
  if maxAttempts ≤ n.attemptCount || n.isOverdue now then
    clearLease { n with status := .failedTerminal, terminalAt := some now }
  else clearLease { n with status := .failedRetryable, availableAt := now }

/-- The row as `_claim_locked` leaves it. -/
def claimLocked (w : OutboxWorker) : NotificationOutbox :=
  { n with
    status := .leased
    fenceToken := n.fenceToken + 1
    leaseOwner := some w.workerId
    leaseExpiresAt := some (now + w.leaseSeconds * 1000000)
    terminalAt := none }

/-- The lease that `_claim_locked` returns. -/
def leaseOf (w : OutboxWorker) (trigger : AttemptTrigger) (requestedBy : Option String) :
    NotificationLease where
  notificationId := n.id
  attemptNumber := n.attemptCount + 1
  owner := w.workerId
  fenceToken := n.fenceToken + 1
  leaseExpiresAt := now + w.leaseSeconds * 1000000
  trigger := trigger
  requestedBy := requestedBy

end NotificationOutbox

/-- The errors of `request_manual_resend`. -/
inductive ResendError where
  | invalidText (name : String)
  | notFound
  | notResendable (message : String)
  | retryBudgetExhausted (message : String)
deriving DecidableEq, Repr

/-- The arguments of `request_manual_resend`. -/
structure ResendRequest where
  notificationId : ℕ
  tenantId : ℕ
  workspaceId : ℕ
  ownerUserId : ℕ
  requestedBy : String
  reason : String

namespace Notification

variable (n : Notification) (now : ℕ)

/-- The row that `plan_notification` inserts. -/
def planned (id tenantId workspaceId ownerUserId plannedAt : ℕ) : Notification where
  row := {
    id := id
    tenantId := tenantId
    workspaceId := workspaceId
    ownerUserId := ownerUserId
    status := .planned
    availableAt := plannedAt
    attemptCount := 0
    fenceToken := 0
    leaseOwner := none
    leaseExpiresAt := none
    manualResend := none
    deliveredAt := none
    terminalAt := none
    createdAt := plannedAt }
  attempts := []

/-- `_active_attempt`. -/
def activeAttempt : Option NotificationAttempt :=
  n.attempts.find? fun a => a.attemptNumber == n.row.attemptCount &&
    some a.owner == n.row.leaseOwner && a.fenceToken == n.row.fenceToken && a.result == .sending

/-- Writes an attempt back. -/
def putAttempt (attempt : NotificationAttempt) : List NotificationAttempt :=
  Table.put NotificationAttempt.attemptNumber n.attempts attempt

/-- `_locked_lease`, for the notification that the lease names. -/
def isLockedBy (lease : NotificationLease) : Bool :=
  n.row.leaseOwner == some lease.owner && n.row.fenceToken == lease.fenceToken

/-- `_set_unknown`. -/
def setUnknown (attempt : Option NotificationAttempt) (reason : String) : Notification where
  row := { n.row with status := .unknown, terminalAt := some now }.clearLease
  attempts := match attempt with
    | some a => n.putAttempt (a.withUnknown now reason)
    | none => n.attempts

/-- What happens to a lease that is over, or that its worker gives up. -/
def endLease (reason : String) : Notification :=
  if n.row.status = .sending then n.setUnknown now n.activeAttempt reason
  else { n with row := n.row.releaseWithoutSend now }

/-- `_recover_expired_leases`, for one notification. -/
def recover : Notification :=
  if n.row.isHeld && n.row.isExpired now then n.endLease now "sending_lease_expired" else n

/-- `_terminalize_expired_retry_windows`, for one notification. -/
def terminalize : Notification :=
  if n.row.isWaiting && n.row.isOverdue now then
    { n with row := { n.row with status := .failedTerminal, terminalAt := some now }.clearLease }
  else n

/-- `release_owned_leases`, for one notification. -/
def release (workerId : String) : Notification :=
  if n.row.leaseOwner = some workerId ∧ n.row.isHeld then
    n.endLease now "worker_shutdown_during_send"
  else n

/-- Whether the first query of `claim_next` selects the notification. -/
def awaitsManual : Bool :=
  n.row.manualResend.isSome && n.row.isResendable && n.row.attemptCount < maxAttempts &&
    !n.row.isOverdue now

/-- Whether the second query of `claim_next` selects the notification. -/
def awaitsAutomatic : Bool :=
  n.row.isWaiting && n.row.manualResend.isNone && n.row.availableAt ≤ now &&
    n.row.attemptCount < maxAttempts && !n.row.isOverdue now

/-- `request_manual_resend` on the notification that it reads, with checked texts. -/
def requestManualResend (actor reason : String) : Except ResendError Notification :=
  if ¬ n.row.isResendable then
    .error (.notResendable ("notification status '" ++ n.row.status.toText ++
      "' cannot be manually resent"))
  else if n.row.manualResend.isSome then
    .error (.notResendable "notification already has a manual resend request")
  else if n.attempts.any fun a => a.trigger == .manual then
    .error (.notResendable "notification already used its one manual resend")
  else if maxAttempts ≤ n.row.attemptCount || n.row.isOverdue now then
    .error (.retryBudgetExhausted
      "notification reached the five-attempt or 24-hour retry limit")
  else .ok { n with row := { n.row with manualResend := some ⟨now, actor, reason⟩ } }

/-- `_mark_sending`; `none` where it returns `False`. -/
def markSending (lease : NotificationLease) : Option Notification :=
  if !n.isLockedBy lease || n.row.status != .leased || n.row.leaseExpiresAt.all (· ≤ now) ||
      n.row.attemptCount + 1 != lease.attemptNumber || maxAttempts ≤ n.row.attemptCount ||
      n.row.isOverdue now then none
  else
    some {
      row := { n.row with
        attemptCount := lease.attemptNumber
        status := .sending
        manualResend := if lease.trigger = .manual then none else n.row.manualResend }
      attempts := n.attempts ++ [{
        attemptNumber := lease.attemptNumber
        owner := lease.owner
        fenceToken := lease.fenceToken
        trigger := lease.trigger
        requestedBy := lease.requestedBy
        result := .sending
        createdAt := now }] }

/-- `_finish_uncertain`; `none` where it returns `False`. -/
def finishUncertain (lease : NotificationLease) (reason : String) : Option Notification :=
  if !n.isLockedBy lease || n.row.status != .sending then none
  else some (n.setUnknown now n.activeAttempt reason)

/-- The delay before the next attempt. -/
def retryDelay (w : OutboxWorker) (retryAfterSeconds : Option ℕ) : ℕ :=
  max (retryAfterSeconds.getD 0)
    (min w.maxBackoffSeconds (w.baseBackoffSeconds * 2 ^ (n.row.attemptCount - 1)))

/-- `_finish_result` for the active attempt, after the columns that every result sets. -/
def settle (w : OutboxWorker) (lease : NotificationLease) (result : DeliveryResult)
    (attempt : NotificationAttempt) : Notification :=
  let reason := safeReason result.failureReason
  let failed := { attempt with reason := some reason, errorCode := some reason }
  let ended := { n.row with status := .failedTerminal, terminalAt := some now }
  match result.outcome with
  | .delivered =>
      match attempt.providerReceipt with
      | none => n.setUnknown now (some attempt) "provider_receipt_missing_or_invalid"
      | some _ =>
          { row := { n.row with
              status := .delivered
              deliveredAt := some now
              terminalAt := some now }.clearLease
            attempts := n.putAttempt { attempt with result := .delivered } }
  | .terminal =>
      { row := ended.clearLease, attempts := n.putAttempt { failed with result := .failedTerminal } }
  | .retryable =>
      -- A manual resend is not followed by automatic attempts.
      if lease.trigger = .manual then
        { row := ended.clearLease
          attempts := n.putAttempt { failed with result := .failedTerminal } }
      else
        let delay := n.retryDelay w attempt.retryAfterSeconds
        let retryAt := now + delay * 1000000
        if maxAttempts ≤ n.row.attemptCount ∨ n.row.createdAt + retryWindow ≤ retryAt then
          { row := ended.clearLease
            attempts := n.putAttempt { failed with
              result := .failedTerminal, delaySeconds := delay } }
        else
          { row := { n.row with status := .failedRetryable, availableAt := retryAt }.clearLease
            attempts := n.putAttempt { failed with
              result := .failedRetryable, delaySeconds := delay } }

/-- `_finish_result`; `none` where it returns `False`. -/
def finishResult (w : OutboxWorker) (lease : NotificationLease) (result : DeliveryResult) :
    Option Notification :=
  if !n.isLockedBy lease || n.row.status != .sending then none
  else
    n.activeAttempt.map fun a => n.settle now w lease result { a with
      costUnits := max 0 result.costUnits
      retryAfterSeconds := boundedRetryAfter result.retryAfterSeconds
      providerReceipt := safeReceipt result.providerReceipt
      finishedAt := some now }

end Notification

end CryptoAlert
