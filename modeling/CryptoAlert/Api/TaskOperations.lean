import CryptoAlert.Commands.ReviewProjection
import CryptoAlert.Persistence.TerminalRun

/-!
# The service operations on an admitted task

Each operation is one transaction that holds the row of the task. It either answers with the
view of the task as it is, or requests something by inserting a command.
-/

namespace CryptoAlert

inductive ServiceError where
  | notFound
  | taskNotCancellable
  | runNotCancellable
  | taskNotRetryable
  | forkConflict
  | idempotencyConflict
  | interruptResponseConflict
  /-- A stored row or a submitted value does not validate. -/
  | invalid
  /-- A constraint of the tables is violated. -/
  | integrity
deriving DecidableEq, Repr

/-- Whether an operation inserted its command or only answered with the view of the task. -/
inductive Reply where
  | view | requested
deriving DecidableEq, Repr

abbrev ServiceResult := Except ServiceError (TaskStore × Reply)

/-- The rows behind an operation that inserted its command. -/
def ServiceResult.requested? : ServiceResult → Option TaskStore
  | .ok (s, .requested) => some s
  | _ => none

theorem ServiceResult.eq_of_requested {result : ServiceResult} {s : TaskStore}
    (h : result.requested? = some s) : result = .ok (s, .requested) := by
  unfold ServiceResult.requested? at h
  split at h
  · cases h
    rfl
  · cases h

/-- Digests of idempotency keys and of the payloads that are compared by their hashes; both are
taken to be free of collisions. -/
structure KeyDigests where
  key : String → String
  key_injective : Function.Injective key
  respond : RespondCommandPayload → String
  respond_injective : Function.Injective respond
  /-- The hash of the other payloads, which is stored but never compared. -/
  other : CommandPayload → String
  /-- The hash of the coordinates of the members of a pause. -/
  memberSet : RemoteCheckpoint → List (String × String × String) → String

namespace TaskStore

/-- A command that a cancellation takes over: it is pending, or it is being dispatched and is
not a submission whose run at the Agent Server is unknown. -/
def isClosable (c : TaskCommand) : Bool :=
  c.status == .pending ||
    (c.status == .dispatching && !(c.commandType == .submit && c.officialRunId.isNone))

/-- Cancels the commands that a cancellation takes over. -/
def closeCommands (commands : List TaskCommand) : List TaskCommand :=
  commands.map fun c => if isClosable c then c.settle .cancelled else c

/-- A live command of a type. -/
def hasLive (s : TaskStore) (type : CommandType) : Bool :=
  s.commands.any fun c => c.commandType == type && c.isLive

def hasKey (s : TaskStore) (key : String) : Bool :=
  s.commands.any fun c => c.idempotencyKey == key

/-- Inserts a command with the next sequence number. -/
def request (s : TaskStore) (commandId : ℕ) (payload : CommandPayload) (hash key : String) :
    ServiceResult :=
  match s.insertCommand (.new commandId payload hash (s.maxSequence + 1) key) with
  | none => .error .integrity
  | some s => .ok (s, .requested)

variable (digests : KeyDigests)

/-- `cancel_task`. -/
def cancelTask (s : TaskStore) (idempotencyKey : String) (commandId now : ℕ) : ServiceResult :=
  let key := s!"cancel:{s.task.id}:{digests.key idempotencyKey}"
  if s.task.status = .cancelled then .ok (s, .view)
  else if s.task.status.isTerminal then .error .taskNotCancellable
  else if s.hasKey key then .ok (s, .view)
  else if s.hasLive .cancelTask then .ok (s, .view)
  else
    let s := { s with commands := closeCommands s.commands }
    let s := match s.latestRun with
      | some run => s.putRun { run with cancelRequestedAt := some now }
      | none => s
    let payload := CommandPayload.cancelTask s.task.id
    s.request commandId payload (digests.other payload) key

/-- `cancel_run`. -/
def cancelRun (s : TaskStore) (runId : ℕ) (idempotencyKey : String) (commandId now : ℕ) :
    ServiceResult :=
  let key := s!"cancel-run:{runId}:{digests.key idempotencyKey}"
  match s.findRun runId with
  | none => .error .notFound
  | some run =>
      if s.hasKey key then .ok (s, .view)
      else if run.status.isTerminal then .error .runNotCancellable
      else if s.hasLive .cancelTask then .error .runNotCancellable
      else if s.commands.any fun c => c.isLive && c.cancelsRun run.id then .ok (s, .view)
      else
        let s := { s with commands := closeCommands s.commands }
        let s := s.putRun { run with cancelRequestedAt := some now }
        let payload := CommandPayload.cancelRun run.id
        s.request commandId payload (digests.other payload) key

/-- A run that was cancelled by a command for that run may be retried. -/
def cancelledRunIsRetryable (s : TaskStore) (source : RunRow) : Bool :=
  s.task.status == .cancelled && source.status == .cancelled &&
    s.commands.any fun c => c.status == .dispatched && c.cancelsRun source.id

/-- `retry_task`. -/
def retryTask (s : TaskStore) (idempotencyKey : String) (runId commandId : ℕ) :
    ServiceResult :=
  let key := s!"retry:{s.task.id}:{digests.key idempotencyKey}"
  if s.hasKey key then .ok (s, .view)
  else
    let source := s.latestRun
    if !(s.task.status == .failed || s.task.status == .blocked ||
        source.any s.cancelledRunIsRetryable) then .error .taskNotRetryable
    else if s.commands.any TaskCommand.isLive then .error .taskNotRetryable
    else
      match source with
      | none => .error .taskNotRetryable
      | some source =>
          if !(source.status == .failed || source.status == .blocked ||
              source.status == .cancelled) then .error .taskNotRetryable
          else
            let run : RunRow := { RunRow.new runId (s.maxAttempt + 1) .queued with
              retryOfRunId := some source.id }
            match s.insertRun run with
            | none => .error .integrity
            | some s =>
                let payload := CommandPayload.retry ⟨source.id, runId⟩
                let s := { s with task := { s.task with status := .queued, completedAt := none } }
                s.request commandId payload (digests.other (.cancelTask s.task.id)) key

/-- `_cancel_pending_pause_for_fork`. -/
def cancelPendingPauseForFork (s : TaskStore) (now : ℕ) : Except ServiceError TaskStore :=
  match s.pauses.filter fun p => p.status.isActive with
  | [] => .ok s
  | [pause] =>
      if pause.status = .responding then .error .forkConflict
      else
        let members := s.membersOf pause.id
        if members.isEmpty || members.any fun m => m.status ≠ .pending then .error .invalid
        else
          match s.findRun pause.runId with
          | none => .error .invalid
          | some run =>
              if run.status ≠ .waitingHuman then .error .invalid
              else
                let s := s.putPause { pause with status := .cancelled }
                let s := s.mapMembers pause.id fun m => { m with status := .cancelled }
                .ok (s.putRun { run with
                  status := .cancelled, finishedAt := some (run.finishedAt.getD now) })
  | _ => .error .invalid

/-- `fork_task`; `checkpointId` is the checkpoint that the client expects, if it names one. -/
def forkTask (s : TaskStore) (sourceRunId : ℕ) (checkpointId : Option String)
    (idempotencyKey : String) (runId commandId now : ℕ) : ServiceResult :=
  let key := s!"fork:{s.task.id}:{digests.key idempotencyKey}"
  match s.commands.find? fun c => c.idempotencyKey == key with
  | some replay =>
      match replay.payload with
      | .fork p =>
          if p.sourceRunId = sourceRunId ∧ ∀ c ∈ checkpointId, p.checkpointId = c then
            .ok (s, .view)
          else .error .idempotencyConflict
      | _ => .error .idempotencyConflict
  | none =>
      if s.task.status = .cancelled then .error .forkConflict
      else
        match s.findRun sourceRunId with
        | none => .error .notFound
        | some source =>
            match source.checkpointId with
            | none => .error .forkConflict
            | some sourceCheckpointId =>
                if ∃ c ∈ checkpointId, sourceCheckpointId ≠ c then .error .forkConflict
                else if s.commands.any TaskCommand.isLive then .error .forkConflict
                else
                  match s.cancelPendingPauseForFork now with
                  | .error e => .error e
                  | .ok s =>
                      let run : RunRow := { RunRow.new runId (s.maxAttempt + 1) .queued with
                        checkpointId := some sourceCheckpointId
                        forkedFromRunId := some source.id
                        forkedFromCheckpointId := some sourceCheckpointId }
                      match s.insertRun run with
                      | none => .error .integrity
                      | some s =>
                          let payload :=
                            CommandPayload.fork ⟨source.id, runId, sourceCheckpointId⟩
                          let s := { s with
                            task := { s.task with status := .queued, completedAt := none } }
                          s.request commandId payload (digests.other payload) key

end TaskStore

end CryptoAlert
