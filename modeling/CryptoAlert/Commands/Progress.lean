import CryptoAlert.Commands.Claim

/-!
# Transactions that follow a run

Between the claim of a command and the terminal projection of its run, a worker registers the
run, relays its events, renews or gives up the lease, and projects a pause for review.
-/

namespace CryptoAlert

structure RemoteInterrupt where
  interruptId : String
  namespaceName : String
  checkpointId : String
  value : Json

/-- `RemoteInterruptSet`; the runner collects the interrupts by their ids. -/
structure RemoteInterruptSet where
  checkpoint : RemoteCheckpoint
  interrupts : List RemoteInterrupt
  distinct : (interrupts.map (·.interruptId)).Nodup
  notBlank : Text.isBlank checkpoint.checkpointId.toList = false

inductive Registration where
  | registered | cancelRequested | lost
deriving DecidableEq, Repr

namespace LockedRows

variable (l : LockedRows)

/-- The rows with the run registered under a handle. -/
def register (handle : RemoteRunHandle) (now : ℕ) : LockedRows :=
  { l with
    officialThreadId := some handle.threadId
    run := { l.run with
      officialAssistantId := some handle.assistantId
      officialRunId := some handle.runId
      lastHeartbeatAt := some now }
    command := { l.command with officialRunId := some handle.runId } }

def heartbeat (now : ℕ) : LockedRows :=
  { l with run := { l.run with lastHeartbeatAt := some now } }

/-- `_resolve_responding_interrupt`; `none` where it raises. -/
def resolveRespondingInterrupt (lease : CommandLease) (now : ℕ) : Option LockedRows :=
  match lease.respondPayload with
  | none => some l
  | some payload =>
      match l.findPause payload.pauseId with
      | none => none
      | some pause =>
          let members := l.membersOf pause.id
          if ¬ ((∀ m ∈ members, m.id ∈ payload.responses.map (·.projectionId)) ∧
              ∀ r ∈ payload.responses, r.projectionId ∈ members.map (·.id)) then none
          else if pause.status = .responding then
            if members.any fun m => m.status ≠ .responding then none
            else some <| (l.putPause { pause with status := .resolved }).mapMembers pause.id
              fun m => { m with
                status := .resolved, respondedAt := some (m.respondedAt.getD now) }
          else some l

end LockedRows

namespace TaskStore

variable (cfg : DispatcherConfig) (digests : KeyDigests) (s : TaskStore)

/-- Another run already has this id at the Agent Server. -/
def officialRunTaken (run : RunRow) (handle : RemoteRunHandle) : Bool :=
  s.runs.any fun r => r.id != run.id && r.officialRunId == some handle.runId

/-- `_register_remote`. -/
def registerRemote (lease : CommandLease) (handle : RemoteRunHandle) (now : ℕ) :
    Option (TaskStore × Registration) :=
  s.underLease lease now false .lost fun l =>
    if !taskAcceptsActiveRun l.task lease then some (l, .lost)
    else if s.officialRunTaken l.run handle then none
    else
      let l := l.register handle now
      let l := { l with run := { l.run with failureCode := none, failureMessage := none } }
      if l.run.cancelRequestedAt.isSome then some (l.settle .cancelled, .cancelRequested)
      else some ({ l with command := { l.command with
        leaseExpiresAt := some (now + cfg.leaseSeconds) } }, .registered)

/-- `_register_cancel_target`. -/
def registerCancelTarget (lease : CommandLease) (handle : RemoteRunHandle) (now : ℕ) :
    Option (TaskStore × Bool) :=
  s.underLease lease now true false fun l =>
    if s.officialRunTaken l.run handle then none else some (l.register handle now, true)

/-- `_remember_remote_terminal`; it raises where another terminal status was observed. -/
def rememberRemoteTerminal (lease : CommandLease) (status : ObservedTerminalStatus) (now : ℕ) :
    Option (TaskStore × Bool) :=
  s.underLease lease now true false fun l =>
    if l.run.observedTerminalStatus.any fun observed => observed ≠ status then none
    else some ({ l with run := { l.run with
      observedTerminalStatus := some status, lastHeartbeatAt := some now } }, true)

/-- `_persist_progressive_update`. -/
def persistProgressiveUpdate (lease : CommandLease) (handle : RemoteRunHandle)
    (eventId : String) (updates : List (String × Json)) (now : ℕ) :
    Option (TaskStore × Bool) :=
  s.underLease lease now false false fun l =>
    if !taskAcceptsActiveRun l.task lease || l.run.officialRunId != some handle.runId ||
        l.command.officialRunId != some handle.runId then some (l, false)
    else
      match l.outputs.events.appendProgressiveEvents cfg.hashing cfg.models l.run.id updates
          eventId l.run.checkpointId now with
      | .error _ => none
      | .ok events => some ({ l with
          outputs := { l.outputs with events }
          run := { l.run with
            officialStreamLastEventId := some eventId, lastHeartbeatAt := some now }
          command := { l.command with
            leaseExpiresAt := some (now + cfg.leaseSeconds) } }, true)

/-- `_renew_lease`. -/
def renewLease (lease : CommandLease) (now : ℕ) : Option (TaskStore × Bool) :=
  s.underLease lease now false false fun l =>
    some ({ l.heartbeat now with command := { l.command with
      leaseExpiresAt := some (now + cfg.leaseSeconds) } }, true)

/-- The transaction of `_schedule_cancel_retry` while attempts are left. -/
def scheduleCancelRetry (lease : CommandLease) (now : ℕ) : Option (TaskStore × Bool) :=
  s.underLease lease now true false fun l =>
    some (l.releaseUntil (now + cfg.reconciliationInterval), true)

/-- `_schedule_reconciliation`. -/
def scheduleReconciliation (lease : CommandLease) (now : ℕ) : Option (TaskStore × Bool) :=
  s.underLease lease now true false fun l =>
    if l.run.status ≠ .running then some (l, false)
    else some ((l.heartbeat now).releaseUntil (now + cfg.reconciliationInterval), true)

/-- What the cleanup of an orphaned run comes to. -/
inductive OrphanCleanup where
  | scheduled | exhausted | lost
deriving DecidableEq, Repr

/-- The first transaction of `_schedule_or_finalize_orphan_cancel`. -/
def scheduleOrphanCancel (lease : CommandLease) (now : ℕ) :
    Option (TaskStore × OrphanCleanup) :=
  s.underLease lease now true .lost fun l =>
    if l.run.status ≠ .running then some (l, .lost)
    else if l.run.cancelRequestedAt.any (· + cfg.maxCancelSeconds ≤ now) then
      some (l, .exhausted)
    else
      let l := { l with run := { l.run with
        cancelRequestedAt := some (l.run.cancelRequestedAt.getD now) } }
      some ((l.heartbeat now).releaseUntil (now + cfg.reconciliationInterval), .scheduled)

/-- Projects one interrupt as a member of a pause; `none` where it raises. -/
def projectMember (task : TaskRow) (runId pauseId : ℕ)
    (members : List InterruptProjection) (interrupt : RemoteInterrupt) (id : ℕ) :
    Option (List InterruptProjection) :=
  match reviewPayloadForTask task.toAdmission interrupt.value with
  | none => none
  | some payload =>
      match members.find? fun m => m.pauseId == pauseId &&
          m.officialInterruptId == interrupt.interruptId with
      | none => InterruptProjection.insertInto members {
          id, runId, pauseId
          officialInterruptId := interrupt.interruptId
          namespaceName := interrupt.namespaceName
          checkpointId := interrupt.checkpointId
          responseVersion := 1
          status := .pending
          payload := payload.modelDump
          response := none
          respondedAt := none }
      | some m =>
          if m.runId ≠ runId then none
          else if m.status = .pending then
            if m.checkpointId ≠ interrupt.checkpointId ∨
                m.namespaceName ≠ interrupt.namespaceName then none
            else some (Table.put InterruptProjection.id members
              { m with payload := payload.modelDump })
          else some members

/-- Projects all interrupts, each under a fresh id. -/
def projectMembers (task : TaskRow) (runId pauseId : ℕ) :
    List InterruptProjection → List RemoteInterrupt → List ℕ → Option (List InterruptProjection)
  | members, [], [] => some members
  | members, interrupt :: interrupts, id :: ids =>
      (projectMember task runId pauseId members interrupt id).bind fun members =>
        projectMembers task runId pauseId members interrupts ids
  | _, _, _ => none

/-- The hash of the members of a pause. -/
def memberSetHash (set : RemoteInterruptSet) : String :=
  let interrupts := set.interrupts.insertionSort fun a b => a.interruptId ≤ b.interruptId
  digests.memberSet set.checkpoint
    (interrupts.map fun i => (i.interruptId, i.namespaceName, i.checkpointId))

/-- The pause of a run at a checkpoint, inserted where there is none. -/
def pauseFor (l : LockedRows) (set : RemoteInterruptSet) (pauseId now : ℕ) :
    Option (LockedRows × InterruptPause) :=
  match l.pauses.find? fun p => p.runId == l.run.id &&
      p.root.checkpointNs == set.checkpoint.checkpointNs &&
      p.root.checkpointId == set.checkpoint.checkpointId with
  | some pause =>
      if pause.memberSetHash ≠ memberSetHash digests set ∨ pause.root ≠ set.checkpoint then none
      else some (l, pause)
  | none =>
      let pause : InterruptPause := {
        id := pauseId
        runId := l.run.id
        pauseVersion := Table.maxOf InterruptPause.pauseVersion l.pauses + 1
        root := set.checkpoint
        memberSetHash := memberSetHash digests set
        status := .pending
        expiresAt := some (now + cfg.interruptTtlSeconds)
        resumeRunId := none
        acceptedPayloadHash := none }
      (InterruptPause.insertInto l.pauses pause).map fun pauses => ({ l with pauses }, pause)

/-- Runs that were forked from another checkpoint of a run keep it from changing. -/
def checkpointPinned (run : RunRow) (checkpointId : String) : Bool :=
  s.runs.any fun r => r.forkedFromRunId == some run.id &&
    r.forkedFromCheckpointId != some checkpointId

/-- The transaction of `_mark_waiting_human`, for a set within the limit of members. -/
def markWaitingHuman (lease : CommandLease) (set : RemoteInterruptSet) (pauseId : ℕ)
    (memberIds : List ℕ) (now : ℕ) : Option (TaskStore × Bool) :=
  s.underLease lease now true false fun l =>
    if !taskAcceptsActiveRun l.task lease then some (l, false)
    else if 255 < set.checkpoint.checkpointId.length ∨
        s.checkpointPinned l.run set.checkpoint.checkpointId then none
    else do
      let l ← l.resolveRespondingInterrupt lease now
      let (l, pause) ← pauseFor cfg digests l set pauseId now
      let members ← projectMembers l.task l.run.id pause.id l.members set.interrupts memberIds
      if (members.filter fun m => m.pauseId == pause.id).length ≠ set.interrupts.length then none
      else
        let l := { l with
          members
          task := { l.task with status := .waitingHuman }
          run := { l.run with
            status := .waitingHuman
            checkpointId := some set.checkpoint.checkpointId
            lastHeartbeatAt := some now } }
        return (l.settle .dispatched, true)

/-- `release_owned_leases`, at the shutdown of a worker. -/
def releaseOwnedLeases (workerId : String) (now : ℕ) : TaskStore :=
  { s with commands := s.commands.map fun c =>
      if c.status = .dispatching ∧ c.leaseOwner = some workerId then c.release now else c }

end TaskStore

end CryptoAlert
