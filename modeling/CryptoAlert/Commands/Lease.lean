import CryptoAlert.Persistence.TerminalRun

/-!
# Leases on commands

A worker claims a command for a while; the number of the claim is its fencing token. Every
transaction of the worker locks the task and then the command, and finds the command only if
the lease is still its own.
-/

namespace CryptoAlert

structure CommandLease where
  commandId : ℕ
  productRunId : Option ℕ
  commandType : CommandType
  commandSequence : ℕ
  workerId : String
  fenceToken : ℕ
  taskType : TaskType
  submission : Option ProductSubmission
  remoteHandle : Option RemoteRunHandle
  resumeHandle : Option RemoteRunHandle
  respondPayload : Option RespondCommandPayload
  forkSourceHandle : Option RemoteRunHandle
  forkPayload : Option ForkCommandPayload
  observedTerminalStatus : Option ObservedTerminalStatus
  submitReconcileOnly : Bool
  resumeReconcileOnly : Bool
  forkReconcileOnly : Bool

/-- Whether the lease is one of an answer that a person gave. -/
def CommandLease.isAnswer (lease : CommandLease) : Bool :=
  lease.commandType == .respond && lease.respondPayload.any fun p => !p.expired

/-- `_task_accepts_active_run`. -/
def taskAcceptsActiveRun (task : TaskRow) (lease : CommandLease) : Bool :=
  task.status == .running || (task.status == .waitingHuman && lease.isAnswer)

/-- The conditions under which a lease still owns a command. -/
def TaskCommand.isOwnedBy (c : TaskCommand) (lease : CommandLease) : Bool :=
  c.id == lease.commandId && c.status == .dispatching &&
    c.leaseOwner == some lease.workerId && c.attempt == lease.fenceToken

def TaskCommand.isUnexpired (c : TaskCommand) (now : ℕ) : Bool :=
  c.leaseExpiresAt.any (now < ·)

/-- The rows that a transaction under a lease works on: the task, the run and the command of
the lease, and all pauses and outputs of the task. -/
structure LockedRows extends ProjectedRows where
  command : TaskCommand
  officialThreadId : Option String
  pauses : List InterruptPause
  members : List InterruptProjection

namespace TaskStore

variable (s : TaskStore)

/-- `_locked_command`. -/
def lockedCommand (lease : CommandLease) (now : ℕ) (allowExpired : Bool) : Option TaskCommand :=
  s.commands.find? fun c => c.isOwnedBy lease && (allowExpired || c.isUnexpired now)

def lock (command : TaskCommand) (run : RunRow) : LockedRows where
  task := s.task
  run
  outputs := s.outputs
  command
  officialThreadId := s.officialThreadId
  pauses := s.pauses
  members := s.members

/-- Writes the locked rows back. -/
def write (l : LockedRows) : TaskStore where
  task := l.task
  threadId := s.threadId
  officialThreadId := l.officialThreadId
  runs := Table.put RunRow.id s.runs l.run
  commands := Table.put TaskCommand.id s.commands l.command
  pauses := l.pauses
  members := l.members
  outputs := l.outputs

/-- A transaction under a lease: it answers `lost` where the lease or its run is gone, and is
rolled back where its body raises. -/
def underLease {α : Type} (lease : CommandLease) (now : ℕ) (allowExpired : Bool) (lost : α)
    (body : LockedRows → Option (LockedRows × α)) : Option (TaskStore × α) :=
  match s.lockedCommand lease now allowExpired with
  | none => some (s, lost)
  | some command =>
      match lease.productRunId.bind s.findRun with
      | none => some (s, lost)
      | some run => (body (s.lock command run)).map fun (l, answer) => (s.write l, answer)

end TaskStore

namespace LockedRows

variable (l : LockedRows)

def findPause (id : ℕ) : Option InterruptPause := Table.find InterruptPause.id l.pauses id

def membersOf (pauseId : ℕ) : List InterruptProjection :=
  l.members.filter fun m => m.pauseId == pauseId

def putPause (p : InterruptPause) : LockedRows :=
  { l with pauses := Table.put InterruptPause.id l.pauses p }

def mapMembers (pauseId : ℕ) (f : InterruptProjection → InterruptProjection) : LockedRows :=
  { l with members := l.members.map fun m => if m.pauseId == pauseId then f m else m }

/-- Ends the command. -/
def settle (status : CommandStatus) : LockedRows :=
  { l with command := l.command.settle status }

/-- Gives the lease up until a time; the command stays with the workers. -/
def releaseUntil (expiresAt : ℕ) : LockedRows :=
  { l with command := l.command.release expiresAt }

/-- Puts the command back in the queue until a time. -/
def requeue (expiresAt : ℕ) : LockedRows :=
  { l with command := { l.command.release expiresAt with status := .pending } }

/-- Persists a terminal run, as `persistTerminalRun` does on its own rows. -/
def persist (cfg : DispatcherConfig) (terminal : TerminalGraphOutput) (now fence : ℕ)
    (terminalizeTask : Bool) (message : Option String) : Option LockedRows :=
  (persistTerminalRun cfg l.toProjectedRows terminal now fence terminalizeTask message).map
    fun rows => { l with toProjectedRows := rows }

def persistFailed (cfg : DispatcherConfig) (failureCode errorType : String) (retryable : Bool)
    (now fence : ℕ) (message : String) (attempt : Option ℕ) : Option LockedRows :=
  (persistFailedTerminalRun cfg l.toProjectedRows failureCode errorType retryable now fence
    message attempt).map fun rows => { l with toProjectedRows := rows }

end LockedRows

end CryptoAlert
