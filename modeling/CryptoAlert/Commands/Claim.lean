import CryptoAlert.Api.RespondInterrupts
import CryptoAlert.Commands.Lease

/-!
# Claiming commands

A worker first looks for a pause whose time for an answer is over, and rejects it on behalf of
the person. Otherwise it claims the first command of a task that is due, validates it against
the runs and, where the run is not yet known at the Agent Server, leaves a durable intent to
create it.
-/

namespace CryptoAlert

/-- The response with which an expired pause is answered. -/
def expiryResponse : ResponseDump where
  action := .reject
  edits := none
  comment := some ⟨"The review window expired before a decision was submitted.", by decide⟩

namespace TaskStore

variable (cfg : DispatcherConfig) (digests : KeyDigests) (s : TaskStore)

/-- The command that answers an expired pause. -/
def expiryPayload (pause : InterruptPause) (members : List InterruptProjection) :
    RespondCommandPayload where
  pauseId := pause.id
  pauseVersion := pause.pauseVersion
  rootCheckpoint := pause.root
  responses := (sortMembers members).map fun m =>
    ⟨m.id, m.officialInterruptId, m.namespaceName, m.checkpointId, m.responseVersion,
      expiryResponse⟩
  expired := true

/-- `_expire_due_interrupt_once` for a pause that the query selects; `none` where nothing is
inserted. -/
def expireDueInterrupt (pauseId runId commandId now : ℕ) : Option TaskStore := do
  let pause ← s.findPause pauseId
  if ¬ (pause.status = .pending ∧ (∃ t ∈ pause.expiresAt, t ≤ now) ∧
      s.task.status = .waitingHuman) then none
  else if s.hasLive .respond then none
  else
    let parent ← s.findRun pause.runId
    if parent.status ≠ .waitingHuman then none
    else
      let members := s.membersOf pause.id
      if members.isEmpty || members.any fun m => m.status ≠ .pending then none
      else
        let payload := expiryPayload pause members
        s.acceptResponses pause parent payload (digests.respond payload)
          s!"expire:{pause.id}:{pause.pauseVersion}" runId commandId now

/-- Whether a command is due: nobody holds a lease on it that has not expired. -/
def isDue (c : TaskCommand) (now : ℕ) : Bool :=
  (c.status == .pending && c.leaseExpiresAt.all (· ≤ now)) ||
    (c.status == .dispatching && c.leaseExpiresAt.any (· ≤ now))

/-- The task states whose commands are claimed. -/
def isClaimable (status : RunStatus) : Bool :=
  status == .queued || status == .running || status == .waitingHuman

/-- The command that `claim_next` selects among those of the task: it is due, and no earlier
command of the thread is live. -/
def nextCommand (now : ℕ) : Option TaskCommand :=
  if isClaimable s.task.status then
    s.commands.find? fun c => isDue c now &&
      !s.commands.any fun prior => prior.sequence < c.sequence && prior.isLive
  else none

/-- The outcome of validating a claimed command. -/
inductive Claimed where
  /-- The command drives, or cancels, this run. -/
  | run (run : Option RunRow)
  /-- The command is moot. -/
  | moot
  /-- The command is invalid; a run is failed with it. -/
  | invalid (code errorType message : String) (failed : Option RunRow)

/-- The validation of a fork command against its runs. -/
def validateFork (payload : ForkCommandPayload) (latest : Option RunRow) : Claimed :=
  match payload.validate with
  | none => .invalid "invalid_fork_command" "CommandValidationError"
      "The fork command payload was invalid." latest
  | some payload =>
      let run := s.findRun payload.forkRunId
      let source := (s.findRun payload.sourceRunId).filter fun r =>
        r.checkpointId == some payload.checkpointId
      if source.isSome && run.any fun r => r.checkpointId == some payload.checkpointId &&
          r.forkedFromRunId == some payload.sourceRunId &&
          r.forkedFromCheckpointId == some payload.checkpointId then .run run
      else .invalid "invalid_fork_lineage" "CommandLineageError"
        "Fork command does not match its Product Run lineage." (run <|> latest)

/-- The validation of a retry command against its runs. -/
def validateRetry (payload : RetryCommandPayload) (latest : Option RunRow) : Claimed :=
  match payload.validate with
  | none => .invalid "invalid_retry_command" "CommandValidationError"
      "The retry command payload was invalid." latest
  | some payload =>
      let run := (s.findRun payload.retryRunId).filter fun r =>
        r.retryOfRunId == some payload.sourceRunId
      let source := (s.findRun payload.sourceRunId).filter fun r =>
        r.status == .failed || r.status == .blocked
      if run.isSome && source.isSome then .run run
      else .invalid "invalid_retry_lineage" "CommandLineageError"
        "Retry command does not match its Product Run lineage." (run <|> latest)

/-- The run that a claimed command is about, with the validation of the command. -/
def claimedRun (c : TaskCommand) : Claimed :=
  match c.payload with
  | .submit _ => .run s.latestRun
  | .cancelTask _ => .run s.latestRun
  | .cancelRun id =>
      match s.findRun id with
      | none => .moot
      | some run => if run.status.isTerminal then .moot else .run (some run)
  | .respond payload =>
      match payload.validate with
      | none => .invalid "invalid_respond_command" "CommandValidationError"
          "The respond command payload was invalid." s.latestRun
      | some _ => .run s.latestRun
  | .fork payload => s.validateFork payload s.latestRun
  | .retry payload => s.validateRetry payload s.latestRun

/-- Fails an invalid command, along with a run and the task. -/
def failInvalid (c : TaskCommand) (code errorType message : String) (failed : Option RunRow)
    (now : ℕ) : Option TaskStore :=
  let s := s.putCommand (c.settle .failed)
  match failed with
  | none => some { s with task := { s.task with status := .failed, completedAt := some now } }
  | some run =>
      (persistFailedTerminalRun cfg ⟨s.task, run, s.outputs⟩ code errorType false now c.sequence
        message none).map fun rows =>
          { s.putRun rows.run with task := rows.task, outputs := rows.outputs }

/-- The first run of a task, inserted when its submission is claimed. -/
def ensureRun (c : TaskCommand) (run : Option RunRow) (runId now : ℕ) :
    Option (TaskStore × Option RunRow) :=
  match run, c.commandType with
  | none, .submit =>
      let run : RunRow := { RunRow.new runId (s.maxAttempt + 1) .running with
        startedAt := some now
        lastHeartbeatAt := some now
        reconciliationDeadlineAt := some (now + cfg.maxRunSeconds) }
      (s.insertRun run).map fun s => (s, some run)
  | run, _ => some (s, run)

/-- The codes by which a run says that a create call may have reached the Agent Server. -/
def createCodes : CommandType → List String
  | .submit | .retry => ["agent_submit_create_intent", "agent_submit_indeterminate"]
  | .respond => ["agent_resume_create_intent", "agent_resume_indeterminate"]
  | .fork => ["agent_fork_create_intent", "agent_fork_indeterminate"]
  | .cancelRun | .cancelTask => []

/-- The code and the message of a durable intent to create a run. -/
def createIntent : CommandType → String × String
  | .submit | .retry => ("agent_submit_create_intent",
      "Official submit create intent is durable; a replacement worker must reconcile metadata " ++
        "before any second create.")
  | .respond => ("agent_resume_create_intent",
      "Official resume create intent is durable; a replacement worker must reconcile metadata " ++
        "before any second create.")
  | .fork => ("agent_fork_create_intent",
      "Official checkpoint fork create intent is durable; a replacement worker must reconcile " ++
        "metadata before any second create.")
  | .cancelRun | .cancelTask => ("", "")

/-- Whether a claimed run may only be looked up at the Agent Server. -/
def reconcileOnly (type : CommandType) (run : RunRow) : Bool :=
  run.officialRunId.isNone && run.failureCode.any fun code => (createCodes type).contains code

/-- A run that a worker is about to drive. -/
def driveRun (type : CommandType) (run : RunRow) (now : ℕ) : RunRow :=
  let run : RunRow := { run with
    status := .running
    startedAt := some (run.startedAt.getD now)
    lastHeartbeatAt := some now
    reconciliationDeadlineAt := some (run.reconciliationDeadlineAt.getD
      (now + cfg.maxRunSeconds)) }
  if run.officialRunId.isNone && !reconcileOnly type run then
    { run with
      failureCode := some (createIntent type).1
      failureMessage := some (createIntent type).2 }
  else run

/-- The handle of a run that is registered at the Agent Server. -/
def handleOf (run : RunRow) : Option RemoteRunHandle := do
  let assistantId ← run.officialAssistantId
  let threadId ← s.officialThreadId
  let runId ← run.officialRunId
  return ⟨assistantId, threadId, runId⟩

/-- The handle of the run that a run resumes. -/
def resumedHandle (run : RunRow) : Option RemoteRunHandle :=
  (run.resumeOfRunId.bind s.findRun).bind s.handleOf

def respondPayloadOf (c : TaskCommand) : Option RespondCommandPayload :=
  match c.payload with
  | .respond payload => payload.validate
  | _ => none

def forkPayloadOf (c : TaskCommand) : Option ForkCommandPayload :=
  match c.payload with
  | .fork payload => payload.validate
  | _ => none

/-- The status of a task whose driving command is claimed. -/
def claimedTaskStatus (c : TaskCommand) : RunStatus :=
  match c.payload with
  | .respond payload => if payload.expired then .running else .waitingHuman
  | _ => .running

/-- Takes the lease on a validated command and puts the run in its hands. -/
def leaseCommand (c : TaskCommand) (run : Option RunRow) (workerId : String) (now : ℕ) :
    Option (TaskStore × CommandLease) :=
  let type := c.commandType
  let command : TaskCommand := { c with
    status := .dispatching
    leaseOwner := some workerId
    leaseExpiresAt := some (now + cfg.leaseSeconds)
    attempt := c.attempt + 1 }
  let s := s.putCommand command
  if type.drives && run.isNone then none
  else
    let before := run
    let run := if type.drives then run.map fun r => driveRun cfg type r now else run
    let s := match type.drives, run with
      | true, some r =>
          { s.putRun r with task := { s.task with status := claimedTaskStatus c } }
      | _, _ => s
    let submission := productSubmissionFromPayload cfg.unicode s.task.taskType s.task.payload
    -- The lease of a submission reads the request of the task, which may raise.
    if (type = .submit ∨ type = .retry) ∧ submission.isNone then none
    else
      let handle := run.bind s.handleOf
      some (s, {
        commandId := c.id
        productRunId := run.map RunRow.id
        commandType := type
        commandSequence := c.sequence
        workerId
        fenceToken := c.attempt + 1
        taskType := s.task.taskType
        submission := if type = .submit ∨ type = .retry then submission else none
        remoteHandle :=
          if type = .cancelTask then handle <|> run.bind s.resumedHandle else handle
        resumeHandle := if type = .respond then run.bind s.resumedHandle else none
        respondPayload := respondPayloadOf c
        forkSourceHandle := if type = .fork then
            ((forkPayloadOf c).bind fun p => s.findRun p.sourceRunId).bind s.handleOf
          else none
        forkPayload := forkPayloadOf c
        observedTerminalStatus := run.bind RunRow.observedTerminalStatus
        submitReconcileOnly := (type == .submit || type == .retry) &&
          before.any (reconcileOnly type)
        resumeReconcileOnly := type == .respond && before.any (reconcileOnly type)
        forkReconcileOnly := type == .fork && before.any (reconcileOnly type) })

/-- `claim_next` on the command it selected; without a lease where the command was ended, and
`none` where the transaction raises. -/
def claim (c : TaskCommand) (workerId : String) (runId now : ℕ) :
    Option (TaskStore × Option CommandLease) :=
  match s.claimedRun c with
  | .moot => some (s.putCommand (c.settle .cancelled), none)
  | .invalid code errorType message failed =>
      (s.failInvalid cfg c code errorType message failed now).map fun s => (s, none)
  | .run run => do
      let (s, run) ← s.ensureRun cfg c run runId now
      -- A submission yields to a pending cancellation of its task.
      if c.commandType = .submit ∧ (run.any fun r => r.cancelRequestedAt.isSome) ∧
          s.hasLive .cancelTask then
        return (s.putCommand (c.settle .cancelled), none)
      else
        let (s, lease) ← s.leaseCommand cfg c run workerId now
        return (s, some lease)

/-- `claim_next`. -/
def claimNext (workerId : String) (runId now : ℕ) : Option (TaskStore × Option CommandLease) :=
  match s.nextCommand now with
  | none => some (s, none)
  | some c => s.claim cfg c workerId runId now

end TaskStore

end CryptoAlert
