import CryptoAlert.Commands.Payloads
import CryptoAlert.Commands.Submission
import CryptoAlert.Lib.Table
import CryptoAlert.Persistence.Statuses
import CryptoAlert.Projections.EventLog

/-!
# The rows of a task

All transactions of the service and of the workers stay within the rows of one task and its
thread. Those rows make up a store; the constraints of the tables are checked where rows are
inserted.
-/

namespace CryptoAlert

inductive CommandStatus where
  | pending | dispatching | dispatched | rejected | cancelled | failed
deriving DecidableEq, Repr

/-- A command that still waits for a worker or is being worked on. -/
def CommandStatus.isLive : CommandStatus → Bool
  | pending | dispatching => true
  | dispatched | rejected | cancelled | failed => false

/-- The status of a pause or of one of its members; `resumeFailed` is a status of pauses. -/
inductive InterruptStatus where
  | pending | responding | resolved | expired | resumeFailed | cancelled
deriving DecidableEq, Repr

def InterruptStatus.isActive : InterruptStatus → Bool
  | pending | responding => true
  | resolved | expired | resumeFailed | cancelled => false

inductive ObservedTerminalStatus where
  | error | success | timeout
deriving DecidableEq, Repr

/-- A task; its type and its request are those of its admission. -/
structure TaskRow extends Admission where
  id : ℕ
  status : RunStatus
  completedAt : Option ℕ

structure RunRow where
  id : ℕ
  attempt : ℕ
  status : RunStatus
  checkpointId : Option String
  resumeOfRunId : Option ℕ
  retryOfRunId : Option ℕ
  forkedFromRunId : Option ℕ
  forkedFromCheckpointId : Option String
  officialAssistantId : Option String
  officialRunId : Option String
  officialStreamLastEventId : Option String
  observedTerminalStatus : Option ObservedTerminalStatus
  outputPayload : Option Json
  terminalOutputHash : Option String
  projectionFence : ℕ
  failureCode : Option String
  failureMessage : Option String
  cancelRequestedAt : Option ℕ
  startedAt : Option ℕ
  finishedAt : Option ℕ
  lastHeartbeatAt : Option ℕ
  reconciliationDeadlineAt : Option ℕ

/-- A run as it is inserted. -/
def RunRow.new (id attempt : ℕ) (status : RunStatus) : RunRow where
  id
  attempt
  status
  checkpointId := none
  resumeOfRunId := none
  retryOfRunId := none
  forkedFromRunId := none
  forkedFromCheckpointId := none
  officialAssistantId := none
  officialRunId := none
  officialStreamLastEventId := none
  observedTerminalStatus := none
  outputPayload := none
  terminalOutputHash := none
  projectionFence := 0
  failureCode := none
  failureMessage := none
  cancelRequestedAt := none
  startedAt := none
  finishedAt := none
  lastHeartbeatAt := none
  reconciliationDeadlineAt := none

structure TaskCommand where
  id : ℕ
  payload : CommandPayload
  payloadHash : String
  sequence : ℕ
  status : CommandStatus
  leaseOwner : Option String
  leaseExpiresAt : Option ℕ
  attempt : ℕ
  idempotencyKey : String
  officialRunId : Option String

namespace TaskCommand

def commandType (c : TaskCommand) : CommandType := c.payload.commandType

def isLive (c : TaskCommand) : Bool := c.status.isLive

/-- Whether a command asks for the cancellation of a run. -/
def cancelsRun (c : TaskCommand) (runId : ℕ) : Bool :=
  match c.payload with
  | .cancelRun id => id == runId
  | _ => false

/-- A command as it is inserted. -/
def new (id : ℕ) (payload : CommandPayload) (payloadHash : String) (sequence : ℕ)
    (idempotencyKey : String) : TaskCommand where
  id
  payload
  payloadHash
  sequence
  status := .pending
  leaseOwner := none
  leaseExpiresAt := none
  attempt := 0
  idempotencyKey
  officialRunId := none

/-- Takes a command out of the hands of its worker. -/
def settle (c : TaskCommand) (status : CommandStatus) : TaskCommand :=
  { c with status, leaseOwner := none, leaseExpiresAt := none }

/-- Gives the lease up until a time. -/
def release (c : TaskCommand) (expiresAt : ℕ) : TaskCommand :=
  { c with leaseOwner := none, leaseExpiresAt := some expiresAt }

end TaskCommand

structure InterruptPause where
  id : ℕ
  runId : ℕ
  pauseVersion : ℕ
  root : RemoteCheckpoint
  memberSetHash : String
  status : InterruptStatus
  expiresAt : Option ℕ
  resumeRunId : Option ℕ
  acceptedPayloadHash : Option String

structure InterruptProjection where
  id : ℕ
  runId : ℕ
  pauseId : ℕ
  officialInterruptId : String
  namespaceName : String
  checkpointId : String
  responseVersion : ℕ
  status : InterruptStatus
  payload : Json
  response : Option ResponseDump
  respondedAt : Option ℕ

inductive ArtifactType where
  | analysisReport | deepResearchReport
deriving DecidableEq, Repr

structure ArtifactRow where
  id : ℕ
  artifactType : ArtifactType
  latestVersionNumber : ℕ

/-- A version; versions are only ever written as committed. -/
structure ArtifactVersion where
  id : ℕ
  artifactId : ℕ
  runId : ℕ
  versionNumber : ℕ
  content : Json

structure DecisionRow where
  id : ℕ
  artifactId : ℕ
  artifactVersionId : ℕ
  runId : ℕ
  decisionVersion : ℕ
  decision : Json
  evidenceVerdict : Json
  riskVerdict : Json

inductive UsageUnit where
  | modelToken | searchRequest | runtimeMillisecond | storageByte
deriving DecidableEq, Repr

/-- An entry of the usage ledger for a run; its key is the run with the unit. -/
structure UsageReceipt where
  runId : ℕ
  unit : UsageUnit
  quantity : ℕ
  sourceReceiptHash : String

/-- What a terminal projection writes besides the run and the task. -/
structure Outputs where
  artifacts : List ArtifactRow
  versions : List ArtifactVersion
  decisions : List DecisionRow
  receipts : List UsageReceipt
  events : EventLog

structure TaskStore where
  task : TaskRow
  threadId : String
  /-- The id of the thread at the Agent Server. -/
  officialThreadId : Option String
  runs : List RunRow
  commands : List TaskCommand
  pauses : List InterruptPause
  members : List InterruptProjection
  outputs : Outputs

/-- Inserts a pause; the partial index allows one active pause a task. -/
def InterruptPause.insertInto (pauses : List InterruptPause) (p : InterruptPause) :
    Option (List InterruptPause) :=
  if pauses.any fun p' => p'.status.isActive && p.status.isActive ||
      (p'.runId == p.runId && (p'.pauseVersion == p.pauseVersion ||
        (p'.root.checkpointNs == p.root.checkpointNs &&
          p'.root.checkpointId == p.root.checkpointId))) then none
  else Table.insert InterruptPause.id pauses p

/-- Inserts a member, unless its pause has one of the same id or another pause has one with the
same coordinates. -/
def InterruptProjection.insertInto (members : List InterruptProjection)
    (m : InterruptProjection) : Option (List InterruptProjection) :=
  if members.any fun m' => m'.officialInterruptId == m.officialInterruptId &&
      (m'.pauseId == m.pauseId ||
        (m'.checkpointId == m.checkpointId && m'.responseVersion == m.responseVersion)) then none
  else Table.insert InterruptProjection.id members m

namespace TaskStore

variable (s : TaskStore)

def findRun (id : ℕ) : Option RunRow := Table.find RunRow.id s.runs id

def findPause (id : ℕ) : Option InterruptPause := Table.find InterruptPause.id s.pauses id

/-- The members of a pause by their ids. -/
def membersOf (pauseId : ℕ) : List InterruptProjection :=
  s.members.filter fun m => m.pauseId == pauseId

def maxAttempt : ℕ := Table.maxOf RunRow.attempt s.runs

def maxSequence : ℕ := Table.maxOf TaskCommand.sequence s.commands

def maxPauseVersion : ℕ := Table.maxOf InterruptPause.pauseVersion s.pauses

/-- The run with the largest attempt. -/
def latestRun : Option RunRow := s.runs.find? fun r => r.attempt == s.maxAttempt

/-- Inserts a run, subject to the primary key and to the unique attempt and lineage columns. -/
def insertRun (r : RunRow) : Option TaskStore :=
  if s.runs.any fun r' => r'.attempt == r.attempt ||
      (r.resumeOfRunId.isSome && r'.resumeOfRunId == r.resumeOfRunId) ||
      (r.retryOfRunId.isSome && r'.retryOfRunId == r.retryOfRunId) then none
  else (Table.insert RunRow.id s.runs r).map fun runs => { s with runs }

/-- Inserts a command, subject to the primary key, the unique sequence and the unique key. -/
def insertCommand (c : TaskCommand) : Option TaskStore :=
  if s.commands.any fun c' => c'.sequence == c.sequence ||
      c'.idempotencyKey == c.idempotencyKey then none
  else (Table.insert TaskCommand.id s.commands c).map fun commands => { s with commands }

def putRun (r : RunRow) : TaskStore := { s with runs := Table.put RunRow.id s.runs r }

def putCommand (c : TaskCommand) : TaskStore :=
  { s with commands := Table.put TaskCommand.id s.commands c }

def putPause (p : InterruptPause) : TaskStore :=
  { s with pauses := Table.put InterruptPause.id s.pauses p }

/-- Changes all members of a pause. -/
def mapMembers (pauseId : ℕ) (f : InterruptProjection → InterruptProjection) : TaskStore :=
  { s with members := s.members.map fun m => if m.pauseId == pauseId then f m else m }

/-- A task as it is admitted, with its submit command. -/
def admitted (taskId commandId : ℕ) (threadId : String) (admission : Admission)
    (payloadHash : String) : TaskStore where
  task := { admission with id := taskId, status := .queued, completedAt := none }
  threadId
  officialThreadId := none
  runs := []
  commands := [.new commandId (.submit admission.payload) payloadHash 1 s!"submit:{taskId}"]
  pauses := []
  members := []
  outputs := ⟨[], [], [], [], ⟨[], 1⟩⟩

end TaskStore

end CryptoAlert
