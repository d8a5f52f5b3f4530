import CryptoAlert.Lib.Dicts
import CryptoAlert.Lib.Integers

/-!
# The interrupts of a remote thread

A thread state names the nodes that are still to run, and its tasks hold the interrupts they
raised and the states of the subgraphs they run. The runner collects the interrupts of all
pending tasks together with the checkpoints that a resumption has to address.

What a payload holds under a key is `none` where the key is absent or holds a value of another
type, unless the source tells the two apart. Interrupt values that compare equal are one value.
-/

namespace CryptoAlert.AgentServer

inductive CheckpointMapPayload where
  | absent
  | invalid
  | items (items : List (Option String × Option String))

structure CheckpointPayload where
  threadId : Option String
  checkpointNs : Option String
  checkpointId : Option String
  checkpointMap : CheckpointMapPayload

structure RemoteCheckpoint where
  threadId : String
  checkpointNs : String
  checkpointId : String
  checkpointMap : Dict String String

structure RemoteInterrupt (V : Type) where
  interruptId : String
  nameSpace : String
  checkpointId : String
  value : V
deriving DecidableEq

/-- The namespace and the id of the checkpoint that an interrupt belongs to. -/
def RemoteInterrupt.coordinates {V : Type} (i : RemoteInterrupt V) : String × String :=
  (i.nameSpace, i.checkpointId)

structure RemoteInterruptSet (V : Type) where
  checkpoint : RemoteCheckpoint
  interrupts : List (RemoteInterrupt V)

/-- What a task holds under `checkpoint`. -/
inductive TaskCheckpointPayload where
  | absent
  | invalid
  | checkpoint (payload : CheckpointPayload)

structure InterruptFields (V : Type) where
  id : Option String
  value : Option V

/-- The keys of a task other than its state. An interrupt that is not an object is `none`. -/
structure TaskFields (V : Type) where
  name : Option String
  hasResult : Bool
  checkpoint : TaskCheckpointPayload
  interrupts : Option (List (Option (InterruptFields V)))

mutual

inductive ThreadState (V : Type) where
  | mk (checkpoint : CheckpointPayload) (next : Option (List (Option String)))
      (tasks : Option (List (ThreadTask V)))

inductive ThreadTask (V : Type) where
  | invalid
  | mk (task : TaskFields V) (state : TaskState V)

/-- What a task holds under `state`. -/
inductive TaskState (V : Type) where
  | absent
  | invalid
  | state (state : ThreadState V)

end

/-- What has been collected so far; an interrupt stands under its id with its priority. -/
structure Collected (V : Type) where
  collected : Dict String (RemoteInterrupt V × ℕ)
  checkpointMap : Dict String String

def isBlankText (s : String) : Bool := Text.isBlank s.toList

def stripSpaces (s : String) : String := String.ofList (Text.stripText s.toList)

def isDescendantNamespace (nameSpace parentNamespace : String) : Bool :=
  if nameSpace = "" then false
  else if parentNamespace = "" then true
  else (parentNamespace ++ "|").toList.isPrefixOf nameSpace.toList

def isAncestorNamespace (nameSpace descendantNamespace : String) : Bool :=
  nameSpace = descendantNamespace || nameSpace = "" ||
    (nameSpace ++ "|").toList.isPrefixOf descendantNamespace.toList

def checkpointValue (value : Option String) (fieldName : String) (allowEmpty : Bool) :
    Except String String :=
  match value with
  | none => .error ("Agent Server Thread state omitted " ++ fieldName)
  | some value =>
      if !allowEmpty && isBlankText value then
        .error ("Agent Server Thread state omitted " ++ fieldName)
      else .ok value

def normalizedMap : List (Option String × Option String) → Dict String String →
    Except String (Dict String String)
  | [], normalized => .ok normalized
  | (nameSpace, checkpointId) :: items, normalized =>
      match nameSpace with
      | none => .error "Agent Server checkpoint_map contains an invalid namespace"
      | some nameSpace =>
          match checkpointId with
          | none => .error "Agent Server checkpoint_map contains an invalid checkpoint id"
          | some checkpointId =>
              if isBlankText checkpointId then
                .error "Agent Server checkpoint_map contains an invalid checkpoint id"
              else normalizedMap items (normalized.set nameSpace (stripSpaces checkpointId))

def CheckpointMapPayload.parse : CheckpointMapPayload → Except String (Dict String String)
  | .absent => .ok .empty
  | .invalid => .error "Agent Server Thread state returned an invalid checkpoint_map"
  | .items entries => normalizedMap entries .empty

/-- `_parse_remote_checkpoint`. -/
def CheckpointPayload.parse (payload : CheckpointPayload) : Except String RemoteCheckpoint := do
  let checkpointMap ← payload.checkpointMap.parse
  let threadId ← checkpointValue payload.threadId "thread_id" false
  let checkpointNs ← checkpointValue payload.checkpointNs "checkpoint_ns" true
  let checkpointId ← checkpointValue payload.checkpointId "checkpoint_id" false
  .ok { threadId, checkpointNs, checkpointId, checkpointMap }

def TaskCheckpointPayload.parse : TaskCheckpointPayload → Except String (Option RemoteCheckpoint)
  | .absent => .ok none
  | .invalid => .error "Agent Server Thread task returned an invalid checkpoint"
  | .checkpoint payload => payload.parse.map some

def RemoteCheckpoint.same (c d : RemoteCheckpoint) : Bool :=
  c.threadId == d.threadId && c.checkpointNs == d.checkpointNs &&
    c.checkpointId == d.checkpointId && c.checkpointMap.same d.checkpointMap

/-- `_parse_remote_interrupt`. -/
def parseInterrupt {V : Type} (payload : Option (InterruptFields V))
    (checkpoint : RemoteCheckpoint) : Except String (RemoteInterrupt V) :=
  match payload with
  | none => .error "Agent Server returned an invalid interrupt"
  | some fields =>
      match fields.id with
      | none => .error "Agent Server interrupt omitted id"
      | some id =>
          if isBlankText id then .error "Agent Server interrupt omitted id"
          else
            match fields.value with
            | none => .error "Agent Server interrupt value must be an object"
            | some value =>
                .ok { interruptId := stripSpaces id, nameSpace := checkpoint.checkpointNs,
                      checkpointId := checkpoint.checkpointId, value }

def nodeName : Option String → Except String String
  | none => .error "Agent Server Thread state returned an invalid next node"
  | some name =>
      if isBlankText name then .error "Agent Server Thread state returned an invalid next node"
      else .ok name

def pendingNodeNames : Option (List (Option String)) → Except String (List String)
  | none => .error "Agent Server Thread state returned invalid next nodes"
  | some pending => pending.mapM nodeName

def taskName : Option String → Except String String
  | none => .error "Agent Server Thread task omitted name"
  | some name =>
      if isBlankText name then .error "Agent Server Thread task omitted name" else .ok name

section

variable (root : RemoteCheckpoint)

/-- Maps a namespace to a checkpoint id. -/
def mapNamespace (checkpointMap : Dict String String) (item : String × String) :
    Except String (Dict String String) :=
  match checkpointMap.get item.1 with
  | none => .ok (checkpointMap.set item.1 item.2)
  | some current =>
      if current = item.2 then .ok (checkpointMap.set item.1 item.2)
      else .error "Agent Server returned conflicting checkpoint lineage"

def mapAncestor (nameSpace : String) (checkpointMap : Dict String String)
    (item : String × String) : Except String (Dict String String) :=
  if isAncestorNamespace item.1 nameSpace then mapNamespace checkpointMap item
  else .error "Agent Server checkpoint_map contains unrelated lineage"

def checkLineage (checkpoint : RemoteCheckpoint) (parentNamespace : Option String) :
    Except String Unit :=
  if checkpoint.threadId ≠ root.threadId then
    .error "Agent Server interrupt checkpoint belongs to another thread"
  else
    match parentNamespace with
    | none =>
        if checkpoint.checkpointNs ≠ "" then
          .error "Agent Server root checkpoint has a nested namespace"
        else .ok ()
    | some parentNamespace =>
        if isDescendantNamespace checkpoint.checkpointNs parentNamespace then .ok ()
        else .error "Agent Server child checkpoint is outside its parent namespace"

def checkAdvertised (checkpoint : RemoteCheckpoint) : Except String Unit :=
  if checkpoint.checkpointMap.items = [] then .ok ()
  else if checkpoint.checkpointMap.get checkpoint.checkpointNs ≠ some checkpoint.checkpointId then
    .error "Agent Server checkpoint_map omits its own checkpoint"
  else if checkpoint.checkpointMap.get "" ≠ some root.checkpointId then
    .error "Agent Server checkpoint_map belongs to another root"
  else .ok ()

def mergeCheckpoint (checkpoint : RemoteCheckpoint) (parentNamespace : Option String)
    (checkpointMap : Dict String String) : Except String (Dict String String) := do
  checkLineage root checkpoint parentNamespace
  checkAdvertised root checkpoint
  let checkpointMap ←
    checkpoint.checkpointMap.items.foldlM (mapAncestor checkpoint.checkpointNs) checkpointMap
  mapNamespace checkpointMap (checkpoint.checkpointNs, checkpoint.checkpointId)

variable {V : Type}

def Collected.merge (checkpoint : RemoteCheckpoint) (parentNamespace : Option String)
    (c : Collected V) : Except String (Collected V) := do
  let checkpointMap ← mergeCheckpoint root checkpoint parentNamespace c.checkpointMap
  .ok { c with checkpointMap }

variable [DecidableEq V]

/-- Keeps an interrupt unless one with its id is already there at its priority or a higher one. -/
def Collected.keep (c : Collected V) (parsed : RemoteInterrupt V) (priority : ℕ) :
    Except String (Collected V) :=
  match c.collected.get parsed.interruptId with
  | none => .ok { c with collected := c.collected.set parsed.interruptId (parsed, priority) }
  | some (existing, existingPriority) =>
      if existing.value ≠ parsed.value then
        .error "Agent Server reused an interrupt id with another value"
      else if priority = existingPriority ∧ parsed.coordinates ≠ existing.coordinates then
        .error "Agent Server returned conflicting interrupt checkpoints"
      else if existingPriority < priority then
        .ok { c with collected := c.collected.set parsed.interruptId (parsed, priority) }
      else .ok c

def Collected.register (checkpoint : RemoteCheckpoint) (priority : ℕ) (c : Collected V)
    (payload : Option (InterruptFields V)) : Except String (Collected V) := do
  let parsed ← parseInterrupt payload checkpoint
  c.keep parsed priority

/-- The checkpoint under which a task runs and the priority of its interrupts. -/
def taskCheckpoint (depth : ℕ) (snapshot : RemoteCheckpoint)
    (stateCheckpoint ownCheckpoint : Option RemoteCheckpoint) : RemoteCheckpoint × ℕ :=
  match ownCheckpoint.or stateCheckpoint with
  | none => (snapshot, depth * 2)
  | some checkpoint => (checkpoint, depth * 2 + 1)

def ThreadState.checkpoint : ThreadState V → CheckpointPayload
  | .mk checkpoint _ _ => checkpoint

def TaskState.parseCheckpoint : TaskState V → Except String (Option RemoteCheckpoint)
  | .state snapshot => snapshot.checkpoint.parse.map some
  | _ => .ok none

def Collected.mergeOptional (checkpoint : Option RemoteCheckpoint) (parentNamespace : String)
    (c : Collected V) : Except String (Collected V) :=
  match checkpoint with
  | none => .ok c
  | some checkpoint => c.merge root checkpoint (some parentNamespace)

/-- Both checkpoints are there and differ. -/
def conflicts : Option RemoteCheckpoint → Option RemoteCheckpoint → Bool
  | some stateCheckpoint, some ownCheckpoint => !ownCheckpoint.same stateCheckpoint
  | _, _ => false

/-- The interrupts of a task itself, without those of its state. -/
def TaskFields.collect (task : TaskFields V) (state : TaskState V) (depth : ℕ)
    (snapshot : RemoteCheckpoint) (c : Collected V) : Except String (Collected V) := do
  let stateCheckpoint ← state.parseCheckpoint
  let c ← c.mergeOptional root stateCheckpoint snapshot.checkpointNs
  let ownCheckpoint ← task.checkpoint.parse
  let c ← c.mergeOptional root ownCheckpoint snapshot.checkpointNs
  if conflicts stateCheckpoint ownCheckpoint then
    .error "Agent Server task checkpoint conflicts with nested state"
  else
    let (checkpoint, priority) := taskCheckpoint depth snapshot stateCheckpoint ownCheckpoint
    match task.interrupts with
    | none => .error "Agent Server Thread task returned invalid interrupts"
    | some interrupts => interrupts.foldlM (Collected.register checkpoint priority) c

mutual

def ThreadState.visit : ThreadState V → ℕ → Option String → Collected V →
    Except String (Collected V)
  | .mk checkpoint next tasks, depth, parentNamespace, c => do
      let snapshot ← checkpoint.parse
      let c ← c.merge root snapshot parentNamespace
      let pending ← pendingNodeNames next
      match tasks with
      | none => .error "Agent Server Thread state returned invalid tasks"
      | some tasks => ThreadTask.visitAll tasks depth snapshot pending c

def ThreadTask.visitAll : List (ThreadTask V) → ℕ → RemoteCheckpoint → List String →
    Collected V → Except String (Collected V)
  | [], _, _, _, c => .ok c
  | task :: tasks, depth, snapshot, pending, c => do
      let c ← task.visit depth snapshot pending c
      ThreadTask.visitAll tasks depth snapshot pending c

def ThreadTask.visit : ThreadTask V → ℕ → RemoteCheckpoint → List String → Collected V →
    Except String (Collected V)
  | .invalid, _, _, _, _ => .error "Agent Server Thread state returned an invalid task"
  | .mk task state, depth, snapshot, pending, c => do
      let name ← taskName task.name
      if name ∈ pending then
        if task.hasResult then
          .error "Agent Server marked a completed task as still pending"
        else
          let c ← task.collect root state depth snapshot c
          state.visit (depth + 1) snapshot.checkpointNs c
      else .ok c

def TaskState.visit : TaskState V → ℕ → String → Collected V → Except String (Collected V)
  | .absent, _, _, c => .ok c
  | .invalid, _, _, _ => .error "Agent Server Thread task returned invalid state"
  | .state snapshot, depth, parentNamespace, c => snapshot.visit depth (some parentNamespace) c

end

end

/-- `_collect_remote_interrupts`. -/
def collectRemoteInterrupts {V : Type} [DecidableEq V] (state : ThreadState V)
    (expectedThreadId : String) : Except String (RemoteInterruptSet V) := do
  let root ← state.checkpoint.parse
  if root.threadId ≠ expectedThreadId then
    .error "Agent Server Thread state belongs to another thread"
  else if root.checkpointNs ≠ "" then
    .error "Agent Server root checkpoint has a nested namespace"
  else
    let c ← state.visit root 0 none
      { collected := .empty, checkpointMap := Dict.empty.set "" root.checkpointId }
    .ok { checkpoint := { root with checkpointMap := c.checkpointMap }
          interrupts := c.collected.items.map fun item => item.2.1 }

end CryptoAlert.AgentServer
