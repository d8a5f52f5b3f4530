import CryptoAlert.Commands.Terminal

/-!
# The projection reconciler

The reconciler takes over a command whose lease is over while its run is active and silent. It
looks the run up, registers its handle and observes its state, and gives the command back. Its
claims leave the attempt of the command as it is.
-/

namespace CryptoAlert

structure ReconciliationLease where
  commandId : ℕ
  commandAttempt : ℕ
  commandSequence : ℕ
  productRunId : ℕ
  projectionFence : ℕ
  workerId : String
  remoteThreadId : String
  remoteHandle : Option RemoteRunHandle

/-- The statuses that `RemoteRunState` may carry. -/
inductive RemoteRunStatus where
  | pending | running | interrupted
  | terminal (status : ObservedTerminalStatus)
deriving DecidableEq, Repr

/-- `ACTIVE_PRODUCT_STATUSES`. -/
def isActiveProduct (status : RunStatus) : Bool :=
  status == .running || status == .waitingHuman

/-- The conditions of `_owns_command`. -/
def TaskCommand.isReconciledBy (c : TaskCommand) (lease : ReconciliationLease) : Bool :=
  c.id == lease.commandId && c.status == .dispatching &&
    c.leaseOwner == some lease.workerId && c.attempt == lease.commandAttempt &&
    c.sequence == lease.commandSequence

namespace TaskStore

variable (s : TaskStore)

/-- `_target_run`. -/
def reconciliationTarget (c : TaskCommand) : Option RunRow :=
  match c.officialRunId, c.payload with
  | some officialRunId, _ => s.runs.find? fun r => r.officialRunId == some officialRunId
  | none, .retry payload => s.findRun payload.retryRunId
  | none, .fork payload => s.findRun payload.forkRunId
  | none, _ => s.latestRun

/-- `_is_reconcilable_run`, for a run that was found. -/
def isReconcilable (c : TaskCommand) (run : RunRow) (staleBefore : ℕ) : Bool :=
  isActiveProduct run.status && run.observedTerminalStatus.isNone &&
    run.terminalOutputHash.isNone && run.projectionFence < c.sequence &&
    !run.lastHeartbeatAt.any (staleBefore < ·) &&
    c.officialRunId.all (fun id => run.officialRunId == some id) &&
    (match c.commandType with
      | .respond => run.resumeOfRunId.isSome
      | .retry => run.retryOfRunId.isSome
      | .fork => run.forkedFromRunId.isSome
      | _ => true)

/-- The reconciler's `claim_next` for a command that its query selects. -/
def reconcileClaim (commandId : ℕ) (workerId : String) (now staleBefore leaseExpiresAt : ℕ) :
    Option (TaskStore × ReconciliationLease) := do
  let c ← Table.find TaskCommand.id s.commands commandId
  let run ← s.reconciliationTarget c
  if c.commandType.drives && c.status == .dispatching && decide (0 < c.attempt) &&
      c.leaseExpiresAt.any (· ≤ now) && isActiveProduct s.task.status &&
      isReconcilable c run staleBefore then
    return (s.putCommand { c with
      leaseOwner := some workerId, leaseExpiresAt := some leaseExpiresAt },
      { commandId := c.id
        commandAttempt := c.attempt
        commandSequence := c.sequence
        productRunId := run.id
        projectionFence := run.projectionFence
        workerId
        remoteThreadId := s.officialThreadId.getD s.threadId
        remoteHandle := do
          let assistantId ← run.officialAssistantId
          let runId ← run.officialRunId
          return ⟨assistantId, s.officialThreadId.getD s.threadId, runId⟩ })
  else none

/-- `_locked_projection`, which all writes but the release go through. -/
def underReconciliation (lease : ReconciliationLease) (now : ℕ)
    (body : LockedRows → Option LockedRows) : Option (TaskStore × Bool) :=
  match s.commands.find? fun c => c.isReconciledBy lease && c.isUnexpired now with
  | none => some (s, false)
  | some command =>
      match s.findRun lease.productRunId with
      | none => some (s, false)
      | some run =>
          if !isActiveProduct s.task.status || !isActiveProduct run.status ||
              run.projectionFence != lease.projectionFence || run.terminalOutputHash.isSome then
            some (s, false)
          else (body (s.lock command run)).map fun l => (s.write l, true)

/-- `_validate_handle`; `false` where it raises. -/
def validateHandle (lease : ReconciliationLease) (l : LockedRows) (handle : RemoteRunHandle) :
    Bool :=
  handle.threadId == lease.remoteThreadId &&
    l.officialThreadId.all (fun id => id == handle.threadId) &&
    l.run.officialRunId.all (fun id => id == handle.runId) &&
    l.run.officialAssistantId.all (fun id => id == handle.assistantId) &&
    l.command.officialRunId.all (fun id => id == handle.runId)

/-- `register_remote_handle`. -/
def registerRemoteHandle (lease : ReconciliationLease) (handle : RemoteRunHandle) (now : ℕ) :
    Option (TaskStore × Bool) :=
  s.underReconciliation lease now fun l =>
    if validateHandle lease l handle && !s.officialRunTaken l.run handle then
      some (l.register handle now)
    else none

/-- `observe_remote_absence`. -/
def observeRemoteAbsence (lease : ReconciliationLease) (now : ℕ) : Option (TaskStore × Bool) :=
  s.underReconciliation lease now fun l => some (l.heartbeat now)

/-- `observe_remote_state`. -/
def observeRemoteState (lease : ReconciliationLease) (handle : RemoteRunHandle)
    (status : RemoteRunStatus) (now : ℕ) : Option (TaskStore × Bool) :=
  s.underReconciliation lease now fun l =>
    if !validateHandle lease l handle then none
    else
      match status, l.run.observedTerminalStatus with
      | .terminal status, observed =>
          if observed.any fun observed => observed ≠ status then none
          else
            let l := { l with run := { l.run with observedTerminalStatus := some status } }
            some ((l.heartbeat now).releaseUntil now)
      | _, none => some ((l.heartbeat now).releaseUntil now)
      | _, some _ => none

/-- `release`. -/
def releaseReconciliation (lease : ReconciliationLease) (now : ℕ) : TaskStore × Bool :=
  match Table.find TaskCommand.id s.commands lease.commandId with
  | none => (s, false)
  | some c =>
      if c.isReconciledBy lease then (s.putCommand (c.release now), true) else (s, false)

end TaskStore

end CryptoAlert
