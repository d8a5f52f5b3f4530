import CryptoAlert.Commands.Progress

/-!
# Ending a command

The transactions that project a terminal result, confirm or give up a cancellation, or record
that the Agent Server or the database failed. A projection is fenced by the sequence number of
its command.
-/

namespace CryptoAlert

/-- An exception of a remote call; three types say that a create call may have succeeded. -/
inductive RemoteError where
  | submitIndeterminate | resumeIndeterminate | forkIndeterminate
  | other (typeName : String)
deriving DecidableEq, Repr

def RemoteError.typeName : RemoteError → String
  | submitIndeterminate => "RemoteSubmitIndeterminateError"
  | resumeIndeterminate => "RemoteResumeIndeterminateError"
  | forkIndeterminate => "RemoteForkIndeterminateError"
  | other typeName => typeName

namespace LockedRows

variable (cfg : DispatcherConfig) (l : LockedRows)

/-- An active pause that a run was paused at, or resumes. -/
def inLineage (runId : ℕ) (p : InterruptPause) : Bool :=
  p.status.isActive && (p.runId == runId || p.resumeRunId == some runId)

/-- The status with which a pause of the lineage is closed: `resolved` needs accepted answers. -/
def closedStatus (resolve : Bool) (p : InterruptPause) : InterruptStatus :=
  if resolve && p.status == .responding &&
      (l.membersOf p.id).all (fun m => m.response.isSome) then .resolved
  else .cancelled

/-- `_close_active_interrupt_lineage`; `none` where it raises. -/
def closeActiveInterruptLineage (runId : ℕ) (resolve : Bool) : Option LockedRows :=
  let lineage := l.pauses.filter (inLineage runId)
  if lineage.any fun p => (l.membersOf p.id).isEmpty ||
      (l.membersOf p.id).any fun m => m.status ≠ p.status then none
  else some { l with
    pauses := l.pauses.map fun p =>
      if inLineage runId p then { p with status := l.closedStatus resolve p } else p
    members := l.members.map fun m =>
      match lineage.find? fun p => p.id == m.pauseId with
      | some p => { m with status := l.closedStatus resolve p }
      | none => m }

/-- Puts the run back in the queue, with the reason why. -/
def requeueRun (taskStatus : RunStatus) (code message : String) : LockedRows :=
  { l with
    task := { l.task with status := taskStatus }
    run := { l.run with
      status := .queued, failureCode := some code, failureMessage := some message } }

/-- The recovery deadline of the run is not over. -/
def beforeDeadline (now : ℕ) : Bool := l.run.reconciliationDeadlineAt.any (now < ·)

end LockedRows

namespace TaskStore

variable (cfg : DispatcherConfig) (s : TaskStore)

/-- A transaction on the task and the command of a lease that has no run. -/
def underRunlessLease (lease : CommandLease) (now : ℕ)
    (body : TaskRow → TaskCommand → TaskRow × TaskCommand × Bool) : TaskStore × Bool :=
  match s.lockedCommand lease now true with
  | none => (s, false)
  | some command =>
      let (task, command, answer) := body s.task command
      ({ s.putCommand command with task }, answer)

/-- Whether the run of a cancellation decides over the task. -/
def targetIsLatest (lease : CommandLease) (run : RunRow) : Bool :=
  lease.commandType == .cancelTask ||
    (lease.commandType == .cancelRun && s.latestRun.map RunRow.id == some run.id)

/-- `_finalize_cancel_failure`. -/
def finalizeCancelFailure (lease : CommandLease) (errorType failureCode failureMessage : String)
    (now : ℕ) : Option (TaskStore × Bool) :=
  match failedTerminalOutput failureCode errorType false (some lease.fenceToken),
      lease.productRunId with
  | none, _ => none
  | some _, none => some <| s.underRunlessLease lease now fun task command =>
      if task.status.isTerminal then (task, command.settle .cancelled, false)
      else if lease.commandType = .cancelTask then
        ({ task with status := .failed, completedAt := some now }, command.settle .failed, true)
      else (task, command.settle .failed, true)
  | some terminal, some runId => s.underLease lease now true false fun l =>
      if l.task.status.isTerminal then some (l.settle .cancelled, false)
      else do
        let l ← l.closeActiveInterruptLineage runId false
        let l ← (l.settle .failed).persist cfg terminal now lease.commandSequence
          (s.targetIsLatest lease l.run) (some failureMessage)
        return (l, true)

/-- `_finalize_cancel`. -/
def finalizeCancel (lease : CommandLease) (now : ℕ) : Option (TaskStore × Bool) :=
  match lease.productRunId with
  | none => some <| s.underRunlessLease lease now fun task command =>
      if task.status.isTerminal then (task, command.settle .cancelled, false)
      else if lease.commandType = .cancelTask then
        ({ task with status := .cancelled, completedAt := some now },
          command.settle .dispatched, true)
      else (task, command.settle .dispatched, true)
  | some runId => s.underLease lease now true false fun l =>
      if l.task.status.isTerminal then some (l.settle .cancelled, false)
      else if lease.commandSequence < l.run.projectionFence then
        some (l.settle .cancelled, false)
      else do
        let l ← l.closeActiveInterruptLineage runId false
        let l ← (l.settle .dispatched).persist cfg cancelledOutput now lease.commandSequence
          (s.targetIsLatest lease l.run) none
        return (l, true)

section RemoteErrors

variable (lease : CommandLease) (error : RemoteError) (now : ℕ)

/-- The part of `_record_remote_error` for a submission or a retry whose create call may have
succeeded. -/
def recordIndeterminateSubmit (l : LockedRows) : Option (LockedRows × Unit) :=
  if l.beforeDeadline now then
    some ((l.requeueRun .queued "agent_submit_indeterminate"
      ("Official submit may have succeeded; only metadata reconciliation is allowed until " ++
        "the recovery deadline.")).requeue (now + cfg.reconciliationInterval), ())
  else
    (l.persistFailed cfg "agent_submit_indeterminate" error.typeName false now
      lease.commandSequence ("The official submit acceptance remained unknown until the " ++
        "recovery deadline; no second Run was created.") (some l.command.attempt)).map
      fun l => (l.settle .failed, ())

/-- The part of `_record_remote_error` for the answer to a pause. -/
def recordRespondError (payload : RespondCommandPayload) (l : LockedRows) :
    Option (LockedRows × Unit) :=
  match l.findPause payload.pauseId with
  | none => none
  | some pause =>
      let members := l.membersOf pause.id
      let expected : InterruptStatus := if payload.expired then .expired else .responding
      let taskStatus : RunStatus := if payload.expired then .running else .waitingHuman
      if pause.status ≠ expected ∨
          ¬ ((∀ m ∈ members, m.id ∈ payload.responses.map (·.projectionId)) ∧
            ∀ r ∈ payload.responses, r.projectionId ∈ members.map (·.id)) ∨
          (members.any fun m => m.status ≠ expected) then none
      else if error = .resumeIndeterminate ∧ l.beforeDeadline now then
        some ((l.requeueRun taskStatus "agent_resume_indeterminate"
          ("Official resume create may have succeeded; only metadata reconciliation is " ++
            "allowed until the recovery deadline.")).requeue
              (now + cfg.reconciliationInterval), ())
      else if l.command.attempt <
          (if payload.expired then cfg.maxCancelAttempts else cfg.maxAttempts) then
        some ((l.requeueRun taskStatus "agent_server_unavailable"
          ("Agent Server is temporarily unavailable; the accepted review batch is still " ++
            "awaiting resume.")).requeue (now + cfg.reconciliationInterval), ())
      else
        ((l.putPause { pause with status := .resumeFailed }).persistFailed cfg
          "agent_resume_failed" error.typeName false now lease.commandSequence
          "Official Run resume failed after the configured attempt limit."
          (some l.command.attempt)).map fun l => (l.settle .failed, ())

/-- The part of `_record_remote_error` for a fork. -/
def recordForkError (l : LockedRows) : Option (LockedRows × Unit) :=
  if error = .forkIndeterminate ∧ l.beforeDeadline now then
    some ((l.requeueRun .queued "agent_fork_indeterminate"
      ("Official checkpoint fork may have succeeded; only metadata reconciliation is allowed " ++
        "until the recovery deadline.")).requeue (now + cfg.reconciliationInterval), ())
  else if l.command.attempt < cfg.maxAttempts then
    some ((l.requeueRun .queued "agent_server_unavailable"
      ("Agent Server is temporarily unavailable; the admitted checkpoint fork is awaiting " ++
        "dispatch.")).requeue (now + cfg.reconciliationInterval), ())
  else
    (l.persistFailed cfg "agent_fork_failed" error.typeName false now lease.commandSequence
      "Official checkpoint fork failed after the configured attempt limit."
      (some l.command.attempt)).map fun l => (l.settle .failed, ())

/-- The part of `_record_remote_error` for the other errors of a submission or a retry. -/
def recordSubmitError (l : LockedRows) : Option (LockedRows × Unit) :=
  if l.command.attempt < cfg.maxAttempts then
    let l := if lease.commandType = .submit ∨ lease.commandType = .retry then
        let l := l.requeueRun .queued "agent_server_unavailable"
          ("Agent Server rejected the request before an official Run was known to exist; " ++
            "submit may be retried.")
        { l with task := { l.task with completedAt := none } }
      else l
    -- The command stays with its worker, but its lease is over.
    some ({ l with command := { l.command with leaseExpiresAt := some now } }, ())
  else
    (l.persistFailed cfg "agent_server_unavailable" error.typeName true now
      lease.commandSequence "Agent Server 暂时不可用，当前分析未完成。"
      (some l.command.attempt)).map fun l => (l.settle .failed, ())

/-- `_record_remote_error`. -/
def recordRemoteError : Option (TaskStore × Unit) :=
  s.underLease lease now true () fun l =>
    if l.run.cancelRequestedAt.isSome then some (l.settle .cancelled, ())
    else if (lease.commandType = .submit ∨ lease.commandType = .retry) ∧
        error = .submitIndeterminate then recordIndeterminateSubmit cfg lease error now l
    else
      match lease.commandType, lease.respondPayload, lease.forkPayload with
      | .respond, some payload, _ => recordRespondError cfg lease error now payload l
      | .fork, _, some _ => recordForkError cfg lease error now l
      | _, _, _ => recordSubmitError cfg lease error now l

end RemoteErrors

section Projection

variable (lease : CommandLease) (terminal : TerminalGraphOutput) (now : ℕ)

/-- The run already carries this output, under the fence of this command. -/
def alreadyProjected (run : RunRow) : Bool :=
  run.projectionFence == lease.commandSequence &&
    run.terminalOutputHash == some (outputHash cfg terminal) &&
    run.outputPayload.any fun output =>
      cfg.hashing.payloadHash output == outputHash cfg terminal

/-- `_record_terminal_projection_database_error`; `operational` says whether the error is an
`OperationalError`. -/
def recordTerminalProjectionDatabaseError (operational : Bool) : Option (TaskStore × Bool) :=
  s.underLease lease now true false fun l =>
    if alreadyProjected cfg lease terminal l.run then
      (l.persist cfg terminal now lease.commandSequence true l.run.failureMessage).map
        fun l => (l.settle .dispatched, true)
    else
      let message := "The terminal Product projection could not be committed."
      let l := { l with run := { l.run with
        failureCode := some "terminal_projection_unavailable"
        failureMessage := some message
        lastHeartbeatAt := some now } }
      if l.command.attempt < cfg.maxAttempts then
        let l := { l with
          task := { l.task with status := .queued, completedAt := none }
          run := { l.run with status := .queued, finishedAt := none } }
        some (l.requeue (now + cfg.reconciliationInterval), false)
      else
        (l.persistFailed cfg "terminal_projection_unavailable"
          (if operational then "DatabaseOperationalError" else "DatabaseError") true now
          lease.commandSequence message (some l.command.attempt)).map
          fun l => (l.settle .failed, false)

/-- Whether the task takes a terminal result from a lease. -/
def acceptsProjection (task : TaskRow) : Bool :=
  taskAcceptsActiveRun task lease || (lease.commandType.cancels && task.status == .waitingHuman)

/-- Closes the pause that the projected run resumes, or was paused at. -/
def closePauses (l : LockedRows) : Option LockedRows :=
  if lease.commandType.cancels then
    match lease.productRunId with
    | none => some l
    | some runId => l.closeActiveInterruptLineage runId true
  else l.resolveRespondingInterrupt lease now

/-- The first projection of an output: the run and the task take its status, and its artifact,
receipts and events are stored. -/
def projectOutput (ids : CommitIds) (l : LockedRows) : Option LockedRows := do
  let run : RunRow := { l.run with
    outputPayload := some terminal.modelDump
    projectionFence := lease.commandSequence
    terminalOutputHash := some (outputHash cfg terminal)
    status := terminal.terminalStatus.runStatus
    finishedAt := some now
    failureCode := terminal.firstCode
    failureMessage := if terminal.errors.isEmpty then none else l.run.failureMessage }
  let receipts := appendRunUsageReceipts cfg.hashing l.outputs.receipts run
  let (outputs, notification) ← commitTerminalArtifact l.task { l.outputs with receipts } ids
    run.id terminal
  match outputs.events.appendDomainEvents cfg.hashing cfg.models run.id terminal.modelDump
      notification run.checkpointId now with
  | .error _ => none
  | .ok events => return { l with
      task := l.task.terminalize terminal.terminalStatus now
      run
      outputs := { outputs with events } }

/-- `_finalize`. -/
def finalize (ids : CommitIds) : Option (TaskStore × Bool) :=
  s.underLease lease now true false fun l =>
    if !acceptsProjection lease l.task then some (l.settle .cancelled, false)
    else do
      let l ← closePauses lease now l
      if lease.commandSequence < l.run.projectionFence then return (l.settle .cancelled, false)
      else if l.run.projectionFence = lease.commandSequence ∧
          l.run.terminalOutputHash.isSome then
        if alreadyProjected cfg lease terminal l.run then
          let l ← l.persist cfg terminal now lease.commandSequence true l.run.failureMessage
          return (l.settle .dispatched, true)
        else
          let conflict ← failedTerminalOutput "terminal_projection_conflict"
            "TerminalOutputHashConflict" false (some l.command.attempt)
          let l ← l.persist cfg conflict now lease.commandSequence true
            (some "A terminal replay did not match the persisted output hash.")
          return (l.settle .failed, false)
      else
        let l ← projectOutput cfg lease terminal now ids l
        return (l.settle .dispatched, true)

end Projection

end TaskStore

end CryptoAlert
