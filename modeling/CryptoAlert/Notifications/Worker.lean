import CryptoAlert.Lib.Transition
import CryptoAlert.Notifications.Outbox
import Mathlib.Data.List.MinMax
import Mathlib.Data.Prod.Lex

/-!
# Notification workers

Workers, users and the provider act on the notifications of an outbox. A dispatch is one turn of a
worker: it holds the lease that `claim_next` returned until it has recorded what became of its
request, and it may stop between any two of its transactions. The provider may accept the request
of a dispatch at any time after the attempt is marked, also when the worker no longer waits for
the answer, unless the request ended before it was written.
-/

namespace CryptoAlert

/-- How `send` of an adapter fails. -/
inductive SendFailure where
  /-- `DeliveryUncertainError` or `TimeoutError`. -/
  | uncertain
  | exception (typeName : String)
deriving DecidableEq

/-- An adapter, by what it makes of the reply of its provider. -/
structure NotificationAdapter (ρ : Type) where
  send : ρ → Except SendFailure DeliveryResult
  /-- The replies that arise before the request is written. -/
  unwritten : ρ → Bool

/-- What ends the `try` block of `execute`. -/
inductive Exchange (ρ : Type) where
  /-- There is no adapter for the channel. -/
  | unconfigured
  /-- The resolver of the adapters fails. -/
  | unresolved (failure : SendFailure)
  | replied (reply : ρ)
  /-- The time for sending is over. -/
  | timedOut
  | cancelled

inductive DispatchPhase (ρ : Type) where
  | claimed
  | sending
  | sent (exchange : Exchange ρ)
  /-- The turn is over, with the exchange that it has had, if any. -/
  | ended (exchange : Option (Exchange ρ))

namespace DispatchPhase

variable {ρ : Type}

/-- The exchange that a turn has had. -/
def exchange : DispatchPhase ρ → Option (Exchange ρ)
  | claimed | sending => none
  | sent x => some x
  | ended x => x

/-- The end of a turn, wherever it is. -/
def stop (phase : DispatchPhase ρ) : DispatchPhase ρ := .ended phase.exchange

@[simp] theorem exchange_stop (phase : DispatchPhase ρ) : phase.stop.exchange = phase.exchange :=
  rfl

end DispatchPhase

/-- What became of the request of a dispatch. -/
inductive RequestState where
  | unsent | underway | unwritten | accepted
deriving DecidableEq, Repr

/-- One turn of a worker. -/
structure Dispatch (ρ : Type) where
  worker : OutboxWorker
  lease : NotificationLease
  phase : DispatchPhase ρ
  request : RequestState

structure OutboxState (ρ : Type) where
  notifications : List Notification
  dispatches : List (Dispatch ρ)

/-- The rows that the four queries of `claim_next` skip, because others hold their locks. -/
structure Skipped where
  recovery : List ℕ := []
  windows : List ℕ := []
  manual : List ℕ := []
  automatic : List ℕ := []

inductive OutboxLabel (ρ : Type) where
  | plan (id tenantId workspaceId ownerUserId now : ℕ)
  | claimNext (worker : OutboxWorker) (now : ℕ) (skipped : Skipped)
  | requestManualResend (request : ResendRequest) (now : ℕ)
  | claimManualResend (worker : OutboxWorker) (request : ResendRequest) (now : ℕ)
  | markSending (i now : ℕ)
  /-- The provider accepts the request of a dispatch. -/
  | accept (i : ℕ)
  /-- The `try` block of a dispatch ends. -/
  | reply (i : ℕ) (exchange : Exchange ρ)
  | finish (i now : ℕ)
  | crash (i : ℕ)
  | releaseOwnedLeases (worker : OutboxWorker) (now : ℕ) (skipped : List ℕ)

variable {ρ : Type} (adapter : NotificationAdapter ρ)

def Exchange.isUnwritten : Exchange ρ → Bool
  | unconfigured | unresolved _ => true
  | replied reply => adapter.unwritten reply
  | timedOut | cancelled => false

/-- The result that `execute` makes of an exception. -/
def DeliveryResult.ofException (typeName : String) : DeliveryResult :=
  .retryable (safeReason ("adapter_" ++ typeName.toLower)) none

namespace Notification

variable (n : Notification) (now : ℕ) (w : OutboxWorker) (lease : NotificationLease)

/-- What `execute` does about a failure. -/
def finishFailure : SendFailure → Option Notification
  | .uncertain => n.finishUncertain now lease "delivery_outcome_uncertain"
  | .exception typeName => n.finishResult now w lease (.ofException typeName)

/-- The last transaction of `execute`. -/
def finish : Exchange ρ → Option Notification
  | .unconfigured => n.finishResult now w lease (.terminal "channel_not_configured")
  | .unresolved failure => n.finishFailure now w lease failure
  | .replied reply =>
      match adapter.send reply with
      | .ok result => n.finishResult now w lease result
      | .error failure => n.finishFailure now w lease failure
  | .timedOut => n.finishUncertain now lease "delivery_outcome_uncertain"
  | .cancelled => n.finishUncertain now lease "worker_cancelled_during_send"

/-- The notification as a claim leaves it. -/
def claim : Notification :=
  { n with row := n.row.claimLocked now w }

end Notification

namespace OutboxState

/-- The key of a notification. -/
def key (n : Notification) : ℕ := n.row.id

/-- The order of the first query of `claim_next`. -/
def manualOrder (n : Notification) : ℕ ×ₗ ℕ ×ₗ ℕ :=
  toLex ((n.row.manualResend.map ManualResend.requestedAt).getD 0,
    toLex (n.row.createdAt, n.row.id))

/-- The order of the second query of `claim_next`. -/
def automaticOrder (n : Notification) : ℕ ×ₗ ℕ ×ₗ ℕ :=
  toLex (n.row.availableAt, toLex (n.row.createdAt, n.row.id))

/-- The first two statements of `claim_next`. -/
def sweep (now : ℕ) (skipped : Skipped) (notifications : List Notification) :
    List Notification :=
  let recovered := notifications.map fun n =>
    if skipped.recovery.contains n.row.id then n else n.recover now
  recovered.map fun n => if skipped.windows.contains n.row.id then n else n.terminalize now

/-- The notification that the two queries of `claim_next` select, with the trigger and the
person who asked for it. -/
def selectNext (now : ℕ) (skipped : Skipped) (notifications : List Notification) :
    Option (Notification × AttemptTrigger × Option String) :=
  let manual := notifications.filter fun n =>
    !skipped.manual.contains n.row.id && n.awaitsManual now
  match manual.argmin manualOrder with
  | some n => some (n, .manual, n.row.manualResend.map ManualResend.requestedBy)
  | none =>
      let automatic := notifications.filter fun n =>
        !skipped.automatic.contains n.row.id && n.awaitsAutomatic now
      (automatic.argmin automaticOrder).map fun n => (n, .automatic, none)

variable (s : OutboxState ρ)

/-- The outbox after `_claim_locked`, with the turn of the worker that it begins. -/
def claimLocked (w : OutboxWorker) (now : ℕ) (n : Notification) (trigger : AttemptTrigger)
    (requestedBy : Option String) : OutboxState ρ where
  notifications := Table.put key s.notifications (n.claim now w)
  dispatches := s.dispatches ++
    [⟨w, n.row.leaseOf now w trigger requestedBy, .claimed, .unsent⟩]

def claimNext (w : OutboxWorker) (now : ℕ) (skipped : Skipped) : OutboxState ρ :=
  let swept := { s with notifications := sweep now skipped s.notifications }
  match selectNext now skipped swept.notifications with
  | some (n, trigger, requestedBy) => swept.claimLocked w now n trigger requestedBy
  | none => swept

/-- The notification that a resend request reads. -/
def findScoped (request : ResendRequest) : Option Notification :=
  s.notifications.find? fun n => n.row.id == request.notificationId &&
    n.row.tenantId == request.tenantId && n.row.workspaceId == request.workspaceId &&
    n.row.ownerUserId == request.ownerUserId

/-- `request_manual_resend`, with the notification that it returns. -/
def requestManualResend (request : ResendRequest) (now : ℕ) :
    Except ResendError (OutboxState ρ × Notification) :=
  match requiredText request.requestedBy 255, requiredText request.reason 500 with
  | none, _ => .error (.invalidText "requested_by")
  | _, none => .error (.invalidText "reason")
  | some actor, some reason =>
      match s.findScoped request with
      | none => .error .notFound
      | some n => do
          let n ← n.requestManualResend now actor reason
          return ({ s with notifications := Table.put key s.notifications n }, n)

/-- `claim_manual_resend`, whose reason is fixed. -/
def claimManualResend (w : OutboxWorker) (request : ResendRequest) (now : ℕ) :
    Except ResendError (OutboxState ρ) := do
  let (s, n) ← s.requestManualResend
    { request with reason := "direct_worker_manual_resend" } now
  return s.claimLocked w now n .manual (n.row.manualResend.map ManualResend.requestedBy)

/-- Replaces a dispatch. -/
def setDispatch (i : ℕ) (d : Dispatch ρ) : OutboxState ρ :=
  { s with dispatches := s.dispatches.set i d }

/-- Writes a notification back, if the transaction changes it. -/
def write (n : Option Notification) : OutboxState ρ :=
  match n with
  | some n => { s with notifications := Table.put key s.notifications n }
  | none => s

/-- `_mark_sending` in the turn of a worker. -/
def markSending (i now : ℕ) : Option (OutboxState ρ) := do
  let d ← s.dispatches[i]?
  match d.phase with
  | .claimed =>
      let n ← Table.find key s.notifications d.lease.notificationId
      match n.markSending now d.lease with
      | some n =>
          some ((s.write (some n)).setDispatch i { d with
            phase := .sending, request := .underway })
      | none => some (s.setDispatch i { d with phase := d.phase.stop })
  | _ => none

def accept (i : ℕ) : Option (OutboxState ρ) := do
  let d ← s.dispatches[i]?
  if d.request = .underway then some (s.setDispatch i { d with request := .accepted }) else none

def reply (i : ℕ) (exchange : Exchange ρ) : Option (OutboxState ρ) := do
  let d ← s.dispatches[i]?
  match d.phase with
  | .sending =>
      if exchange.isUnwritten adapter then
        if d.request = .accepted then none
        else some (s.setDispatch i { d with phase := .sent exchange, request := .unwritten })
      else some (s.setDispatch i { d with phase := .sent exchange })
  | _ => none

def finish (i now : ℕ) : Option (OutboxState ρ) := do
  let d ← s.dispatches[i]?
  match d.phase with
  | .sent exchange =>
      let n ← Table.find key s.notifications d.lease.notificationId
      some ((s.write (n.finish adapter now d.worker d.lease exchange)).setDispatch i
        { d with phase := d.phase.stop })
  | _ => none

def releaseOwnedLeases (w : OutboxWorker) (now : ℕ) (skipped : List ℕ) : OutboxState ρ :=
  { s with notifications := s.notifications.map fun n =>
      if skipped.contains n.row.id then n else n.release now w.workerId }

/-- The outbox of a new installation. -/
def init : OutboxState ρ := ⟨[], []⟩

def step : OutboxLabel ρ → Option (OutboxState ρ)
  | .plan id tenantId workspaceId ownerUserId now =>
      (Table.insert key s.notifications (.planned id tenantId workspaceId ownerUserId now)).map
        fun notifications => { s with notifications := notifications }
  | .claimNext w now skipped => some (s.claimNext w now skipped)
  | .requestManualResend request now => (s.requestManualResend request now).toOption.map Prod.fst
  | .claimManualResend w request now => (s.claimManualResend w request now).toOption
  | .markSending i now => s.markSending i now
  | .accept i => s.accept i
  | .reply i exchange => s.reply adapter i exchange
  | .finish i now => s.finish adapter i now
  | .crash i => s.dispatches[i]?.map fun d => s.setDispatch i { d with phase := d.phase.stop }
  | .releaseOwnedLeases w now skipped => some (s.releaseOwnedLeases w now skipped)

end OutboxState

end CryptoAlert
