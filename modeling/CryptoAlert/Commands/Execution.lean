import CryptoAlert.Projections.Reconciliation

/-!
# Workers on the rows of a task

`execute` alternates between transactions and calls to the Agent Server, whose answers and
exceptions are arbitrary. A worker may stop after any of its transactions, and any number of
workers, reconcilers and service operations interleave. The state keeps every lease that was
ever given out, so that an overtaken worker may still run.
-/

namespace CryptoAlert

/-- The answer of the Agent Server to a cancellation. -/
inductive RemoteCancelResult where
  | confirmed | unconfirmed
  | terminal (status : Option ObservedTerminalStatus)
deriving DecidableEq, Repr

/-- Where `execute` stands. -/
inductive Pc where
  | start
  | finding
  | creating
  | registering (handle : RemoteRunHandle)
  | failing (error : RemoteError)
  | streaming (handle : RemoteRunHandle)
  | polling (handle : RemoteRunHandle)
  | overdue (handle : RemoteRunHandle)
  | rescheduling
  | orphaned (errorType : String)
  | interrupted (handle : RemoteRunHandle)
  | pausing (set : RemoteInterruptSet)
  | terminated (handle : RemoteRunHandle) (status : ObservedTerminalStatus)
  | joining (handle : RemoteRunHandle)
  | finalizing (terminal : TerminalGraphOutput)
  | recovering (terminal : TerminalGraphOutput) (operational : Bool)
  | registeringTarget (handle : RemoteRunHandle)
  | cancelling (handle : RemoteRunHandle)
  | retryingCancel (errorType : Option String)
  | failingCancel (errorType failureCode failureMessage : String)
  | confirmingCancel
  | done

/-- What happens next in a worker: it proceeds with its transaction, or a remote call ends. -/
inductive Event where
  | proceed
  | timedOut
  | raised (error : RemoteError)
  | found (handle : RemoteRunHandle)
  | absent
  | update (eventId : String) (updates : List (String × Json))
  | state (status : RemoteRunStatus)
  | interrupts (set : RemoteInterruptSet)
  | cancelled (result : RemoteCancelResult)
  /-- The output of the run, unless it does not validate. -/
  | joined (output : Option TerminalGraphOutput)
  | pause (pauseId : ℕ) (memberIds : List ℕ)
  | commit (ids : CommitIds)
  /-- The database fails while a terminal projection is committed; the commit itself may have
  gone through. -/
  | databaseError (operational : Bool) (committed : Option CommitIds)

namespace CommandLease

/-- The error that stands for a create call with an unknown outcome. -/
def indeterminate (lease : CommandLease) : RemoteError :=
  match lease.commandType with
  | .respond => .resumeIndeterminate
  | .fork => .forkIndeterminate
  | _ => .submitIndeterminate

/-- Whether the run may only be looked up. -/
def reconcileOnly (lease : CommandLease) : Bool :=
  lease.submitReconcileOnly || lease.resumeReconcileOnly || lease.forkReconcileOnly

/-- The first move of a worker that owns its lease. -/
def firstMove (lease : CommandLease) : Pc :=
  if lease.commandType.cancels then
    match lease.observedTerminalStatus, lease.remoteHandle, lease.productRunId with
    | some status, some handle, _ => .terminated handle status
    | some _, none, _ => .retryingCancel none
    | none, some handle, _ => .cancelling handle
    | none, none, some _ => .finding
    | none, none, none => .confirmingCancel
  else
    match lease.productRunId, lease.remoteHandle, lease.commandType with
    | none, _, _ => .done
    | some _, some handle, _ => .streaming handle
    | some _, none, .respond =>
        if lease.resumeHandle.isNone then .failing (.other "RuntimeError")
        else if lease.reconcileOnly then .finding else .creating
    | some _, none, .fork =>
        if lease.forkSourceHandle.isNone then .failing (.other "RuntimeError")
        else if lease.reconcileOnly then .finding else .creating
    | some _, none, _ => if lease.reconcileOnly then .finding else .creating

/-- A succeeded output without the artifact of the task type. -/
def lacksArtifact (lease : CommandLease) (t : TerminalGraphOutput) : Bool :=
  t.terminalStatus == .succeeded && (match lease.taskType with
    | .marketAnalysis => t.artifact.isNone
    | .deepResearch => t.deepResearchArtifact.isNone)

/-- The output that is projected for what `join` returned. -/
def terminalOf (lease : CommandLease) (joined : Option TerminalGraphOutput) :
    Option TerminalGraphOutput :=
  match joined with
  | none => failedTerminalOutput "invalid_agent_output" "ValidationError" false none
  | some t =>
      if lease.lacksArtifact t then
        failedTerminalOutput "invalid_agent_output" "TaskArtifactTypeMismatch" false none
      else some t

/-- The output for a run that the Agent Server reports as failed. -/
def remoteFailure : ObservedTerminalStatus → Option TerminalGraphOutput
  | .timeout => failedTerminalOutput "agent_run_timeout" "OfficialRunStatus" true none
  | _ => failedTerminalOutput "agent_run_error" "OfficialRunStatus" false none

/-- The move after a failed attempt at the output of a terminal run. -/
def terminalRetry (cfg : DispatcherConfig) (lease : CommandLease) (errorType : String) :
    Option Pc :=
  let limit := if lease.commandType.cancels then cfg.maxCancelAttempts else cfg.maxAttempts
  if limit ≤ lease.fenceToken then
    (failedTerminalOutput "terminal_projection_unavailable" errorType false
      (some lease.fenceToken)).map .finalizing
  else some .rescheduling

end CommandLease

namespace TaskStore

variable (cfg : DispatcherConfig) (digests : KeyDigests) (s : TaskStore)

/-- `_run_deadline_exceeded`. -/
def runDeadlineExceeded (lease : CommandLease) (now : ℕ) : Bool :=
  match lease.productRunId.bind s.findRun with
  | none => true
  | some run =>
      match run.reconciliationDeadlineAt, run.startedAt with
      | some deadline, _ => deadline ≤ now
      | none, some startedAt => startedAt + cfg.maxRunSeconds ≤ now
      | none, none => false

variable (lease : CommandLease) (now : ℕ)

/-- The move after a poll that found the run unfinished. -/
def reconcileOrTimeout (handle : RemoteRunHandle) : Pc :=
  if s.runDeadlineExceeded cfg lease now then .overdue handle else .rescheduling

/-- The move after the answer to the cancellation of an overdue run. -/
def afterOverdue (handle : RemoteRunHandle) : RemoteCancelResult → Option Pc
  | .confirmed =>
      (failedTerminalOutput "agent_run_timeout" "OrphanDeadlineExceeded" true none).map .finalizing
  | .terminal (some status) => some (.terminated handle status)
  | .terminal none | .unconfirmed => some (.orphaned "RuntimeError")

/-- The move after the interrupts of a run could not be read. -/
def afterInterruptError (error : RemoteError) : Option Pc :=
  if s.runDeadlineExceeded cfg lease now then
    (failedTerminalOutput "interrupt_projection_unavailable" error.typeName false
      (some lease.fenceToken)).map .finalizing
  else some .rescheduling

/-- The move after the interrupts of a run were read. -/
def afterInterrupts (set : RemoteInterruptSet) : Option Pc :=
  if set.interrupts.isEmpty then some .done
  else if 64 < set.interrupts.length then
    (failedTerminalOutput "interrupt_member_limit_exceeded" "OfficialInterruptSet" false none).map
      .finalizing
  else some (.pausing set)

/-- The move after the answer to a requested cancellation. -/
def afterCancel (handle : RemoteRunHandle) : RemoteCancelResult → Pc
  | .confirmed => .confirmingCancel
  | .terminal (some status) => .terminated handle status
  | .terminal none | .unconfirmed => .retryingCancel none

/-- One step of `execute`; `none` where it cannot happen or raises. -/
def executeStep (pc : Pc) (event : Event) : Option (TaskStore × Pc) :=
  match pc, event with
  | .start, .proceed =>
      some (s, if (s.lockedCommand lease now false).isSome then lease.firstMove else .done)
  | .finding, .found handle =>
      some (s, if lease.commandType.cancels then .registeringTarget handle
        else .registering handle)
  | .finding, .absent =>
      some (s, if lease.commandType.cancels then .retryingCancel none
        else .failing lease.indeterminate)
  | .finding, .timedOut =>
      some (s, if lease.commandType.cancels then .retryingCancel (some "TimeoutError")
        else .failing lease.indeterminate)
  | .finding, .raised error =>
      some (s, if lease.commandType.cancels then .retryingCancel (some error.typeName)
        else .failing error)
  | .creating, .proceed => (s.renewLease cfg lease now).map fun (s, renewed) =>
      (s, if renewed then .creating else .done)
  | .creating, .found handle => some (s, .registering handle)
  | .creating, .timedOut => some (s, .failing lease.indeterminate)
  | .creating, .raised error => some (s, .failing error)
  | .registering handle, .proceed =>
      (s.registerRemote cfg lease handle now).map fun (s, registration) =>
        (s, if registration = .registered then .streaming handle else .done)
  | .failing error, .proceed =>
      (s.recordRemoteError cfg lease error now).map fun (s, _) => (s, .done)
  | .streaming handle, .update eventId updates =>
      (s.persistProgressiveUpdate cfg lease handle eventId updates now).map fun (s, persisted) =>
        (s, if persisted then .streaming handle else .done)
  | .streaming _, .raised error => some (s, .failing error)
  | .streaming handle, .proceed =>
      some (s, match lease.observedTerminalStatus with
        | some status => .terminated handle status
        | none => .polling handle)
  | .polling handle, .raised _ => some (s, s.reconcileOrTimeout cfg lease now handle)
  | .polling handle, .timedOut => some (s, s.reconcileOrTimeout cfg lease now handle)
  | .polling handle, .state status =>
      some (s, match status with
        | .pending | .running => s.reconcileOrTimeout cfg lease now handle
        | .interrupted => .interrupted handle
        | .terminal status => .terminated handle status)
  | .overdue _, .raised error => some (s, .orphaned error.typeName)
  | .overdue _, .timedOut => some (s, .orphaned "TimeoutError")
  | .overdue handle, .cancelled result => (afterOverdue handle result).map fun pc => (s, pc)
  | .rescheduling, .proceed =>
      (s.scheduleReconciliation cfg lease now).map fun (s, _) => (s, .done)
  | .orphaned errorType, .proceed =>
      (s.scheduleOrphanCancel cfg lease now).map fun (s, cleanup) =>
        (s, if cleanup = .exhausted then .failingCancel errorType "orphan_cancel_unconfirmed"
          "Official Run cleanup after the orphan deadline could not be confirmed." else .done)
  | .interrupted _, .raised error =>
      (s.afterInterruptError cfg lease now error).map fun pc => (s, pc)
  | .interrupted _, .timedOut =>
      (s.afterInterruptError cfg lease now (.other "TimeoutError")).map fun pc => (s, pc)
  | .interrupted _, .interrupts set => (afterInterrupts set).map fun pc => (s, pc)
  | .pausing set, .pause pauseId memberIds =>
      (s.markWaitingHuman cfg digests lease set pauseId memberIds now).map fun (s, _) =>
        (s, .done)
  | .terminated handle status, .proceed => do
      let (s, remembered) ← s.rememberRemoteTerminal lease status now
      if !remembered then return (s, .done)
      else if status = .success then return (s, .joining handle)
      else (CommandLease.remoteFailure status).map fun terminal => (s, .finalizing terminal)
  | .joining _, .joined output => (lease.terminalOf output).map fun t => (s, .finalizing t)
  | .joining _, .raised error => (lease.terminalRetry cfg error.typeName).map fun pc => (s, pc)
  | .joining _, .timedOut => (lease.terminalRetry cfg "TimeoutError").map fun pc => (s, pc)
  | .finalizing terminal, .commit ids =>
      (s.finalize cfg lease terminal now ids).map fun (s, _) => (s, .done)
  | .finalizing terminal, .databaseError operational committed =>
      match committed with
      | none => some (s, .recovering terminal operational)
      | some ids => (s.finalize cfg lease terminal now ids).map fun (s, _) =>
          (s, .recovering terminal operational)
  | .recovering terminal operational, .proceed =>
      (s.recordTerminalProjectionDatabaseError cfg lease terminal now operational).map
        fun (s, _) => (s, .done)
  | .registeringTarget handle, .proceed =>
      (s.registerCancelTarget lease handle now).map fun (s, registered) =>
        (s, if registered then .cancelling handle else .done)
  | .cancelling _, .raised error => some (s, .retryingCancel (some error.typeName))
  | .cancelling _, .timedOut => some (s, .retryingCancel (some "TimeoutError"))
  | .cancelling handle, .cancelled result => some (s, afterCancel handle result)
  | .retryingCancel errorType, .proceed =>
      if lease.observedTerminalStatus.isSome then
        (lease.terminalRetry cfg "RuntimeError").map fun pc => (s, pc)
      else if cfg.maxCancelAttempts ≤ lease.fenceToken then
        some (s, .failingCancel (errorType.getD "RunDiscoveryTimeout") "agent_cancel_failed"
          "Official Run cancellation could not be confirmed.")
      else (s.scheduleCancelRetry cfg lease now).map fun (s, _) => (s, .done)
  | .failingCancel errorType code message, .proceed =>
      (s.finalizeCancelFailure cfg lease errorType code message now).map fun (s, _) => (s, .done)
  | .confirmingCancel, .proceed =>
      (s.finalizeCancel cfg lease now).map fun (s, _) => (s, .done)
  | _, _ => none

end TaskStore

/-- A lease with the place where its worker stands. -/
structure Activation where
  lease : CommandLease
  pc : Pc

structure TaskState where
  store : TaskStore
  activations : List Activation
  reconciliations : List ReconciliationLease

inductive TaskLabel where
  | cancelTask (key : String) (commandId now : ℕ)
  | cancelRun (runId : ℕ) (key : String) (commandId now : ℕ)
  | retryTask (key : String) (runId commandId : ℕ)
  | forkTask (sourceRunId : ℕ) (checkpointId : Option String) (key : String)
      (runId commandId now : ℕ)
  | respondInterrupts (submission : InterruptResponsesSubmission) (key : String)
      (runId commandId now : ℕ)
  | expire (pauseId runId commandId now : ℕ)
  | claim (workerId : String) (runId now : ℕ)
  /-- The next step of the worker of a lease. -/
  | execute (lease : ℕ) (event : Event) (now : ℕ)
  | releaseOwned (workerId : String) (now : ℕ)
  | reconcile (commandId : ℕ) (workerId : String) (now staleBefore leaseExpiresAt : ℕ)
  | registerHandle (lease : ℕ) (handle : RemoteRunHandle) (now : ℕ)
  | observeAbsence (lease now : ℕ)
  | observeState (lease : ℕ) (handle : RemoteRunHandle) (status : RemoteRunStatus) (now : ℕ)
  | releaseReconciled (lease now : ℕ)

namespace TaskState

variable (cfg : DispatcherConfig) (digests : KeyDigests)

/-- The state after a service operation that was not refused. -/
def afterService (t : TaskState) (result : ServiceResult) : Option TaskState :=
  match result with
  | .ok (store, _) => some { t with store }
  | .error _ => none

/-- One step on the rows of a task; `none` where it cannot happen or is rolled back. -/
def step (t : TaskState) : TaskLabel → Option TaskState
  | .cancelTask key commandId now =>
      t.afterService (t.store.cancelTask digests key commandId now)
  | .cancelRun runId key commandId now =>
      t.afterService (t.store.cancelRun digests runId key commandId now)
  | .retryTask key runId commandId =>
      t.afterService (t.store.retryTask digests key runId commandId)
  | .forkTask sourceRunId checkpointId key runId commandId now =>
      t.afterService (t.store.forkTask digests sourceRunId checkpointId key runId commandId now)
  | .respondInterrupts submission key runId commandId now =>
      t.afterService (t.store.respondInterrupts digests submission key runId commandId now)
  | .expire pauseId runId commandId now =>
      (t.store.expireDueInterrupt digests pauseId runId commandId now).map
        fun store => { t with store }
  | .claim workerId runId now =>
      (t.store.claimNext cfg workerId runId now).map fun (store, lease) =>
        { t with
          store
          activations := t.activations ++ lease.toList.map fun lease => ⟨lease, .start⟩ }
  | .execute i event now => do
      let a ← t.activations[i]?
      let (store, pc) ← t.store.executeStep cfg digests a.lease now a.pc event
      return { t with store, activations := t.activations.set i ⟨a.lease, pc⟩ }
  | .releaseOwned workerId now =>
      some { t with store := t.store.releaseOwnedLeases workerId now }
  | .reconcile commandId workerId now staleBefore leaseExpiresAt =>
      (t.store.reconcileClaim commandId workerId now staleBefore leaseExpiresAt).map
        fun (store, lease) =>
          { t with store, reconciliations := t.reconciliations ++ [lease] }
  | .registerHandle i handle now => do
      let lease ← t.reconciliations[i]?
      let (store, _) ← t.store.registerRemoteHandle lease handle now
      return { t with store }
  | .observeAbsence i now => do
      let lease ← t.reconciliations[i]?
      let (store, _) ← t.store.observeRemoteAbsence lease now
      return { t with store }
  | .observeState i handle status now => do
      let lease ← t.reconciliations[i]?
      let (store, _) ← t.store.observeRemoteState lease handle status now
      return { t with store }
  | .releaseReconciled i now => do
      let lease ← t.reconciliations[i]?
      return { t with store := (t.store.releaseReconciliation lease now).1 }

/-- A task that was just admitted. -/
def admitted (taskId commandId : ℕ) (threadId : String) (admission : Admission)
    (payloadHash : String) : TaskState where
  store := .admitted taskId commandId threadId admission payloadHash
  activations := []
  reconciliations := []

end TaskState

end CryptoAlert
