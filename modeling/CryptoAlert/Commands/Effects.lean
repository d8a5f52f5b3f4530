import CryptoAlert.Commands.Execution

/-!
# What a transaction under a lease can do

Whatever a worker does under a lease, it changes the task, one run and one command, and possibly
the pauses of the task. Six effects cover all transactions; each says what becomes of the
status of the run, of the command and of the task.
-/

namespace CryptoAlert

/-- The columns of a run that are never written after its insertion. -/
structure RunRow.SameIdentity (r r' : RunRow) : Prop where
  id : r'.id = r.id
  attempt : r'.attempt = r.attempt
  resumeOf : r'.resumeOfRunId = r.resumeOfRunId
  retryOf : r'.retryOfRunId = r.retryOfRunId
  forkedFrom : r'.forkedFromRunId = r.forkedFromRunId
  forkedFromCheckpoint : r'.forkedFromCheckpointId = r.forkedFromCheckpointId

/-- The columns that a terminal projection writes. -/
structure RunRow.SameOutput (r r' : RunRow) : Prop where
  outputPayload : r'.outputPayload = r.outputPayload
  terminalOutputHash : r'.terminalOutputHash = r.terminalOutputHash
  projectionFence : r'.projectionFence = r.projectionFence

/-- A write that neither settles a run nor moves it. -/
structure RunRow.Quiet (r r' : RunRow) : Prop extends RunRow.SameIdentity r r',
    RunRow.SameOutput r r' where
  status : r'.status = r.status
  checkpointId : r'.checkpointId = r.checkpointId
  cancelRequested : r.cancelRequestedAt.isSome → r'.cancelRequestedAt.isSome
  registered : r.officialRunId.isSome → r'.officialRunId.isSome
  failureCode : r'.failureCode = r.failureCode ∨ r'.officialRunId.isSome

/-- The columns of a command that only a claim writes, or nothing. -/
structure TaskCommand.SameIdentity (c c' : TaskCommand) : Prop where
  id : c'.id = c.id
  payload : c'.payload = c.payload
  payloadHash : c'.payloadHash = c.payloadHash
  sequence : c'.sequence = c.sequence
  attempt : c'.attempt = c.attempt
  idempotencyKey : c'.idempotencyKey = c.idempotencyKey
  owner : c'.leaseOwner = c.leaseOwner ∨ c'.leaseOwner = none
  registered : c.officialRunId.isSome → c'.officialRunId.isSome

/-- The outputs but for the events. -/
structure Outputs.SameArtifacts (o o' : Outputs) : Prop where
  artifacts : o'.artifacts = o.artifacts
  versions : o'.versions = o.versions
  decisions : o'.decisions = o.decisions

section Order

theorem RunRow.SameIdentity.refl (r : RunRow) : r.SameIdentity r :=
  ⟨rfl, rfl, rfl, rfl, rfl, rfl⟩

theorem RunRow.Quiet.refl (r : RunRow) : r.Quiet r :=
  ⟨.refl r, ⟨rfl, rfl, rfl⟩, rfl, rfl, fun h => h, fun h => h, .inl rfl⟩

theorem TaskCommand.SameIdentity.refl (c : TaskCommand) : c.SameIdentity c :=
  ⟨rfl, rfl, rfl, rfl, rfl, rfl, .inl rfl, fun h => h⟩

theorem TaskCommand.SameIdentity.settle (c : TaskCommand) (status : CommandStatus) :
    c.SameIdentity (c.settle status) :=
  ⟨rfl, rfl, rfl, rfl, rfl, rfl, .inr rfl, fun h => h⟩

theorem TaskCommand.SameIdentity.release (c : TaskCommand) (expiresAt : ℕ) :
    c.SameIdentity (c.release expiresAt) :=
  ⟨rfl, rfl, rfl, rfl, rfl, rfl, .inr rfl, fun h => h⟩

theorem TaskCommand.SameIdentity.requeue (c : TaskCommand) (expiresAt : ℕ) :
    c.SameIdentity { c.release expiresAt with status := .pending } :=
  ⟨rfl, rfl, rfl, rfl, rfl, rfl, .inr rfl, fun h => h⟩

theorem TaskCommand.SameIdentity.renew (c : TaskCommand) (expiresAt : Option ℕ) :
    c.SameIdentity { c with leaseExpiresAt := expiresAt } :=
  ⟨rfl, rfl, rfl, rfl, rfl, rfl, .inl rfl, fun h => h⟩

theorem Outputs.SameArtifacts.refl (o : Outputs) : o.SameArtifacts o := ⟨rfl, rfl, rfl⟩

theorem RunRow.SameIdentity.trans {r r' r'' : RunRow} (h : r.SameIdentity r')
    (h' : r'.SameIdentity r'') : r.SameIdentity r'' :=
  ⟨h'.id.trans h.id, h'.attempt.trans h.attempt, h'.resumeOf.trans h.resumeOf,
    h'.retryOf.trans h.retryOf, h'.forkedFrom.trans h.forkedFrom,
    h'.forkedFromCheckpoint.trans h.forkedFromCheckpoint⟩

theorem TaskCommand.SameIdentity.trans {c c' c'' : TaskCommand} (h : c.SameIdentity c')
    (h' : c'.SameIdentity c'') : c.SameIdentity c'' :=
  ⟨h'.id.trans h.id, h'.payload.trans h.payload, h'.payloadHash.trans h.payloadHash,
    h'.sequence.trans h.sequence, h'.attempt.trans h.attempt,
    h'.idempotencyKey.trans h.idempotencyKey, h'.owner.elim (fun heq => heq ▸ h.owner) .inr,
    fun hsome => h'.registered (h.registered hsome)⟩

theorem Outputs.SameArtifacts.trans {o o' o'' : Outputs} (h : o.SameArtifacts o')
    (h' : o'.SameArtifacts o'') : o.SameArtifacts o'' :=
  ⟨h'.artifacts.trans h.artifacts, h'.versions.trans h.versions, h'.decisions.trans h.decisions⟩

end Order

namespace LockedRows

/-- How a transaction may change the pauses and their members. -/
inductive PauseEffect (lease : CommandLease) (l l' : LockedRows) : Prop where
  | same (pauses : l'.pauses = l.pauses) (members : l'.members = l.members)
  | closed (runId : ℕ) (resolve : Bool) (closed : LockedRows)
      (run : lease.productRunId = some runId)
      (close : l.closeActiveInterruptLineage runId resolve = some closed)
      (pauses : l'.pauses = closed.pauses) (members : l'.members = closed.members)
  | resolved (now : ℕ) (resolved : LockedRows)
      (resolve : l.resolveRespondingInterrupt lease now = some resolved)
      (pauses : l'.pauses = resolved.pauses) (members : l'.members = resolved.members)
  | resumeFailed (payload : RespondCommandPayload) (pause : InterruptPause)
      (respond : lease.respondPayload = some payload)
      (found : l.findPause payload.pauseId = some pause)
      (status : pause.status = if payload.expired then .expired else .responding)
      (pauses : l'.pauses =
        Table.put InterruptPause.id l.pauses { pause with status := .resumeFailed })
      (members : l'.members = l.members)

/-- Why a transaction ends its command without looking at the run. -/
inductive DropReason (lease : CommandLease) (l : LockedRows) : Prop where
  | cancelRequested (h : l.run.cancelRequestedAt.isSome)
  | refused (h : TaskStore.acceptsProjection lease l.task = false)
  | terminal (h : l.task.status.isTerminal)
  | fenced (h : lease.commandSequence < l.run.projectionFence)

/-- The output with which a transaction settles a run. -/
inductive SettledBy (cfg : DispatcherConfig) (lease : CommandLease) (l : LockedRows) :
    TerminalGraphOutput → Prop where
  | failed {t : TerminalGraphOutput} (h : t.terminalStatus = .failed) : SettledBy cfg lease l t
  | cancelled : SettledBy cfg lease l cancelledOutput
  | replayed {t : TerminalGraphOutput} (h : TaskStore.alreadyProjected cfg lease t l.run) :
      SettledBy cfg lease l t

/-- The six effects of a transaction under a lease. -/
inductive Effect (cfg : DispatcherConfig) (digests : KeyDigests) (s : TaskStore)
    (lease : CommandLease) (l l' : LockedRows) : Prop where
  /-- The run goes on; the lease may be renewed or given up. -/
  | quiet (task : l'.task = l.task) (run : l.run.Quiet l'.run)
      (command : l.command.SameIdentity l'.command) (status : l'.command.status = .dispatching)
      (pauses : l'.pauses = l.pauses) (members : l'.members = l.members)
      (artifacts : l.outputs.SameArtifacts l'.outputs)
  /-- The command is cancelled and the run is left alone. -/
  | dropped (reason : DropReason lease l) (task : l'.task = l.task) (run : l.run.Quiet l'.run)
      (command : l.command.SameIdentity l'.command) (status : l'.command.status = .cancelled)
      (pauses : PauseEffect lease l l') (outputs : l'.outputs = l.outputs)
  /-- The run waits for another worker. -/
  | requeued (task : l'.task.id = l.task.id ∧ l'.task.toAdmission = l.task.toAdmission)
      (taskStatus : TaskStore.isClaimable l'.task.status)
      (identity : l.run.SameIdentity l'.run) (output : l.run.SameOutput l'.run)
      (checkpointId : l'.run.checkpointId = l.run.checkpointId)
      (runStatus : l'.run.status = .queued)
      (command : l.command.SameIdentity l'.command) (status : l'.command.isLive)
      (pauses : l'.pauses = l.pauses) (members : l'.members = l.members)
      (outputs : l'.outputs = l.outputs)
  /-- The run waits for a person. -/
  | paused (set : RemoteInterruptSet) (pauseId : ℕ) (memberIds : List ℕ) (now : ℕ)
      (resolved found : LockedRows) (pause : InterruptPause)
      (task : l'.task = { l.task with status := .waitingHuman })
      (accepts : taskAcceptsActiveRun l.task lease)
      (resolve : l.resolveRespondingInterrupt lease now = some resolved)
      (find : TaskStore.pauseFor cfg digests resolved set pauseId now = some (found, pause))
      (project : TaskStore.projectMembers l.task l.run.id pause.id found.members set.interrupts
        memberIds = some l'.members)
      (count : (l'.membersOf pause.id).length = set.interrupts.length)
      (pauses : l'.pauses = found.pauses)
      (identity : l.run.SameIdentity l'.run) (output : l.run.SameOutput l'.run)
      (runStatus : l'.run.status = .waitingHuman)
      (checkpointId : l'.run.checkpointId = some set.checkpoint.checkpointId)
      (free : s.checkpointPinned l.run set.checkpoint.checkpointId = false)
      (command : l.command.SameIdentity l'.command) (status : l'.command.status = .dispatched)
      (outputs : l'.outputs = l.outputs)
  /-- The run takes an output that commits no artifact. -/
  | settled (t : TerminalGraphOutput) (by_ : SettledBy cfg lease l t) (terminalize : Bool)
      (now : ℕ) (decides : terminalize = true ∨ terminalize = s.targetIsLatest lease l.run)
      (task : l'.task = if terminalize then l.task.terminalize t.terminalStatus now else l.task)
      (identity : l.run.SameIdentity l'.run)
      (checkpointId : l'.run.checkpointId = l.run.checkpointId)
      (runStatus : l'.run.status = t.terminalStatus.runStatus)
      (output : l'.run.outputPayload = some t.modelDump)
      (hash : l'.run.terminalOutputHash = some (outputHash cfg t))
      (fence : l'.run.projectionFence = lease.commandSequence)
      (command : l.command.SameIdentity l'.command)
      (status : l'.command.status = .dispatched ∨ l'.command.status = .failed)
      (pauses : PauseEffect lease l l') (artifacts : l.outputs.SameArtifacts l'.outputs)
  /-- The run takes an output for the first time. -/
  | projected (t : TerminalGraphOutput) (now : ℕ) (ids : CommitIds) (closed : LockedRows)
      (checked : lease.lacksArtifact t = false)
      (accepts : TaskStore.acceptsProjection lease l.task)
      (close : TaskStore.closePauses lease now l = some closed)
      (project : TaskStore.projectOutput cfg lease t now ids closed = some
        { l' with command := closed.command })
      (command : l.command.SameIdentity l'.command) (status : l'.command.status = .dispatched)

end LockedRows

namespace TaskStore

variable {cfg : DispatcherConfig} {digests : KeyDigests} {s s' : TaskStore}
  {lease : CommandLease} {now : ℕ}

/-- The rows that a transaction under a lease finds. -/
structure Locks (s : TaskStore) (lease : CommandLease) (command : TaskCommand) (run : RunRow) :
    Prop where
  mem : command ∈ s.commands
  owned : command.isOwnedBy lease
  found : s.findRun run.id = some run
  target : lease.productRunId = some run.id

theorem lockedCommand_eq_some {allowExpired : Bool} {command : TaskCommand}
    (h : s.lockedCommand lease now allowExpired = some command) :
    command ∈ s.commands ∧ command.isOwnedBy lease := by
  have hfound := List.find?_some h
  rw [Bool.and_eq_true] at hfound
  exact ⟨List.mem_of_find?_eq_some h, hfound.1⟩

theorem underLease_cases {α : Type} {allowExpired : Bool} {lost answer : α}
    {body : LockedRows → Option (LockedRows × α)}
    (h : s.underLease lease now allowExpired lost body = some (s', answer)) :
    (s' = s ∧ answer = lost) ∨ ∃ command run l', Locks s lease command run ∧
      body (s.lock command run) = some (l', answer) ∧ s' = s.write l' := by
  unfold underLease at h
  cases hcommand : s.lockedCommand lease now allowExpired with
  | none =>
      simp only [hcommand, Option.some.injEq, Prod.mk.injEq] at h
      exact .inl ⟨h.1.symm, h.2.symm⟩
  | some command =>
      simp only [hcommand] at h
      cases hrun : lease.productRunId.bind s.findRun with
      | none =>
          simp only [hrun, Option.some.injEq, Prod.mk.injEq] at h
          exact .inl ⟨h.1.symm, h.2.symm⟩
      | some run =>
          simp only [hrun] at h
          obtain ⟨⟨l', answer'⟩, hbody, hout⟩ := Option.map_eq_some_iff.mp h
          cases hout
          obtain ⟨hmem, howned⟩ := lockedCommand_eq_some hcommand
          obtain ⟨runId, hid, hfind⟩ := Option.bind_eq_some_iff.mp hrun
          obtain ⟨-, hkey⟩ := Table.find_eq_some hfind
          subst hkey
          exact .inr ⟨command, run, l', ⟨hmem, howned, hfind, hid⟩, hbody, rfl⟩

/-- What a transaction under a lease leaves behind: the rows as they were, or an effect. -/
def Writes (cfg : DispatcherConfig) (digests : KeyDigests) (s : TaskStore) (lease : CommandLease)
    (s' : TaskStore) : Prop :=
  s' = s ∨ ∃ command run l', Locks s lease command run ∧
    (s.lock command run).Effect cfg digests s lease l' ∧ s' = s.write l'

theorem writes_of_underLease {α : Type} {allowExpired : Bool} {lost answer : α}
    {body : LockedRows → Option (LockedRows × α)}
    (hbody : ∀ command run l' answer, Locks s lease command run →
      body (s.lock command run) = some (l', answer) →
      (s.lock command run).Effect cfg digests s lease l')
    (h : s.underLease lease now allowExpired lost body = some (s', answer)) :
    Writes cfg digests s lease s' := by
  obtain ⟨rfl, -⟩ | ⟨command, run, l', hlocks, hl, rfl⟩ := underLease_cases h
  · exact .inl rfl
  · exact .inr ⟨command, run, l', hlocks, hbody command run l' answer hlocks hl, rfl⟩

theorem Locks.dispatching {command : TaskCommand} {run : RunRow}
    (h : Locks s lease command run) : command.status = .dispatching := by
  have howned := h.owned
  simp only [TaskCommand.isOwnedBy, Bool.and_eq_true, beq_iff_eq] at howned
  exact howned.1.1.2

end TaskStore

namespace LockedRows

variable {cfg : DispatcherConfig} {digests : KeyDigests} {s : TaskStore} {lease : CommandLease}
  {l : LockedRows}

theorem PauseEffect.congr {l₁ l₂ : LockedRows} (h : PauseEffect lease l l₁)
    (hpauses : l₂.pauses = l₁.pauses) (hmembers : l₂.members = l₁.members) :
    PauseEffect lease l l₂ := by
  cases h with
  | same hp hm => exact .same (hpauses.trans hp) (hmembers.trans hm)
  | closed runId resolve closed hrun hclose hp hm =>
      exact .closed runId resolve closed hrun hclose (hpauses.trans hp) (hmembers.trans hm)
  | resolved now resolved hresolve hp hm =>
      exact .resolved now resolved hresolve (hpauses.trans hp) (hmembers.trans hm)
  | resumeFailed payload pause hrespond hfound hstatus hp hm =>
      exact .resumeFailed payload pause hrespond hfound hstatus (hpauses.trans hp)
        (hmembers.trans hm)

/-- A transaction that leaves all rows as they are. -/
theorem Effect.idle (h : l.command.status = .dispatching) : l.Effect cfg digests s lease l :=
  .quiet rfl (.refl _) (.refl _) h rfl rfl ⟨rfl, rfl, rfl⟩

/-- What persisting a terminal output writes. -/
structure Persisted (cfg : DispatcherConfig) (t : TerminalGraphOutput) (now fence : ℕ)
    (terminalize : Bool) (l l' : LockedRows) : Prop where
  task : l'.task = if terminalize then l.task.terminalize t.terminalStatus now else l.task
  identity : l.run.SameIdentity l'.run
  checkpointId : l'.run.checkpointId = l.run.checkpointId
  runStatus : l'.run.status = t.terminalStatus.runStatus
  output : l'.run.outputPayload = some t.modelDump
  hash : l'.run.terminalOutputHash = some (outputHash cfg t)
  fence : l'.run.projectionFence = fence
  command : l'.command = l.command
  pauses : l'.pauses = l.pauses
  members : l'.members = l.members
  artifacts : l.outputs.SameArtifacts l'.outputs
  officialRunId : l'.run.officialRunId = l.run.officialRunId

theorem persist_eq_some {t : TerminalGraphOutput} {now fence : ℕ} {terminalize : Bool}
    {message : Option String} {l' : LockedRows}
    (h : l.persist cfg t now fence terminalize message = some l') :
    Persisted cfg t now fence terminalize l l' := by
  obtain ⟨rows, hrows, rfl⟩ := Option.map_eq_some_iff.mp h
  unfold persistTerminalRun at hrows
  dsimp only at hrows
  split at hrows
  · cases hrows
  · cases hrows
    exact ⟨rfl, ⟨rfl, rfl, rfl, rfl, rfl, rfl⟩, rfl, rfl, rfl, rfl, rfl, rfl, rfl, rfl,
      ⟨rfl, rfl, rfl⟩, rfl⟩

theorem failedTerminalOutput_status {code errorType : String} {retryable : Bool}
    {attempt : Option ℕ} {t : TerminalGraphOutput}
    (h : failedTerminalOutput code errorType retryable attempt = some t) :
    t.terminalStatus = .failed := by
  unfold failedTerminalOutput at h
  iterate 3 obtain ⟨_, _, h⟩ := Option.bind_eq_some_iff.mp h
  cases h
  rfl

theorem persistFailed_eq_some {code errorType message : String} {retryable : Bool}
    {now fence : ℕ} {attempt : Option ℕ} {l' : LockedRows}
    (h : l.persistFailed cfg code errorType retryable now fence message attempt = some l') :
    ∃ t : TerminalGraphOutput, t.terminalStatus = .failed ∧
      Persisted cfg t now fence true l l' := by
  obtain ⟨rows, hrows, hl⟩ := Option.map_eq_some_iff.mp h
  obtain ⟨t, ht, hpersist⟩ := Option.bind_eq_some_iff.mp hrows
  refine ⟨t, failedTerminalOutput_status ht, ?_⟩
  have hl : l.persist cfg t now fence true (some message) = some l' := by
    rw [persist, hpersist, Option.map_some, hl]
  exact persist_eq_some hl

/-- Only pauses and members change where a lineage is closed. -/
theorem closeActiveInterruptLineage_eq_some {runId : ℕ} {resolve : Bool} {l' : LockedRows}
    (h : l.closeActiveInterruptLineage runId resolve = some l') :
    l' = { l with pauses := l'.pauses, members := l'.members } := by
  unfold closeActiveInterruptLineage at h
  dsimp only at h
  split_ifs at h
  cases h
  rfl

theorem resolveRespondingInterrupt_eq_some {now : ℕ} {l' : LockedRows}
    (h : l.resolveRespondingInterrupt lease now = some l') :
    l' = { l with pauses := l'.pauses, members := l'.members } := by
  unfold resolveRespondingInterrupt at h
  split at h
  · cases h
    rfl
  · split at h
    · cases h
    · dsimp only at h
      split_ifs at h
      · cases h
        rfl
      · cases h
        rfl

/-- The same with the command ended on both sides. -/
theorem Persisted.withCommand {t : TerminalGraphOutput} {now fence : ℕ} {terminalize : Bool}
    {l' : LockedRows} (h : Persisted cfg t now fence terminalize l l') (status : CommandStatus) :
    Persisted cfg t now fence terminalize (l.settle status) (l'.settle status) := by
  refine ⟨h.task, h.identity, h.checkpointId, h.runStatus, h.output, h.hash, h.fence, ?_, h.pauses,
    h.members, h.artifacts, h.officialRunId⟩
  rw [settle, settle, h.command]

/-- A persisted output, along with the command that is ended with it, is an effect. -/
theorem Persisted.effect {t : TerminalGraphOutput} {now : ℕ} {terminalize : Bool}
    {l₀ l' : LockedRows} (h : Persisted cfg t now lease.commandSequence terminalize l₀ l')
    (hrows : l₀.task = l.task ∧ l.run.SameIdentity l₀.run ∧
      l₀.run.checkpointId = l.run.checkpointId ∧ l.outputs.SameArtifacts l₀.outputs)
    (hsettled : SettledBy cfg lease l t)
    (hdecides : terminalize = true ∨ terminalize = s.targetIsLatest lease l.run)
    (hpauses : PauseEffect lease l l')
    (hcommand : l.command.SameIdentity l'.command)
    (hstatus : l'.command.status = .dispatched ∨ l'.command.status = .failed) :
    l.Effect cfg digests s lease l' := by
  obtain ⟨htask, hidentity, hcheckpoint, hartifacts⟩ := hrows
  refine .settled t hsettled terminalize now hdecides ?_ ?_ ?_ h.runStatus h.output h.hash h.fence
    hcommand hstatus hpauses ?_
  · rw [h.task, htask]
  · exact hidentity.trans h.identity
  · rw [h.checkpointId, hcheckpoint]
  · exact hartifacts.trans h.artifacts

end LockedRows

namespace TaskStore

variable {cfg : DispatcherConfig} {digests : KeyDigests} {s s' : TaskStore}
  {lease : CommandLease} {now : ℕ}

section Quiet

theorem registerRemote_writes {handle : RemoteRunHandle} {r : Registration}
    (h : s.registerRemote cfg lease handle now = some (s', r)) :
    Writes cfg digests s lease s' := by
  refine writes_of_underLease ?_ h
  intro command run l' answer hlocks hbody
  have hcommand : (s.lock command run).command.status = .dispatching := hlocks.dispatching
  dsimp only at hbody
  split_ifs at hbody with haccepts htaken hcancel
  · cases hbody
    exact .idle hcommand
  · cases hbody
    refine .dropped (.cancelRequested hcancel) rfl ?_
      ⟨rfl, rfl, rfl, rfl, rfl, rfl, .inr rfl, fun _ => rfl⟩ rfl (.same rfl rfl) rfl
    exact ⟨⟨rfl, rfl, rfl, rfl, rfl, rfl⟩, ⟨rfl, rfl, rfl⟩, rfl, rfl, fun h => h,
      fun _ => rfl, .inr rfl⟩
  · cases hbody
    refine .quiet rfl ?_ ⟨rfl, rfl, rfl, rfl, rfl, rfl, .inl rfl, fun _ => rfl⟩ hcommand rfl rfl
      ⟨rfl, rfl, rfl⟩
    exact ⟨⟨rfl, rfl, rfl, rfl, rfl, rfl⟩, ⟨rfl, rfl, rfl⟩, rfl, rfl, fun h => h,
      fun _ => rfl, .inr rfl⟩

theorem registerCancelTarget_writes {handle : RemoteRunHandle} {b : Bool}
    (h : s.registerCancelTarget lease handle now = some (s', b)) :
    Writes cfg digests s lease s' := by
  refine writes_of_underLease ?_ h
  intro command run l' answer hlocks hbody
  split_ifs at hbody
  cases hbody
  refine .quiet rfl ?_ ⟨rfl, rfl, rfl, rfl, rfl, rfl, .inl rfl, fun _ => rfl⟩ hlocks.dispatching
    rfl rfl ⟨rfl, rfl, rfl⟩
  exact ⟨⟨rfl, rfl, rfl, rfl, rfl, rfl⟩, ⟨rfl, rfl, rfl⟩, rfl, rfl, fun h => h, fun _ => rfl,
    .inl rfl⟩

theorem rememberRemoteTerminal_writes {status : ObservedTerminalStatus} {b : Bool}
    (h : s.rememberRemoteTerminal lease status now = some (s', b)) :
    Writes cfg digests s lease s' := by
  refine writes_of_underLease ?_ h
  intro command run l' answer hlocks hbody
  split_ifs at hbody
  cases hbody
  refine .quiet rfl ?_ (.refl _) hlocks.dispatching rfl rfl ⟨rfl, rfl, rfl⟩
  exact ⟨⟨rfl, rfl, rfl, rfl, rfl, rfl⟩, ⟨rfl, rfl, rfl⟩, rfl, rfl, fun h => h, fun h => h,
    .inl rfl⟩

theorem persistProgressiveUpdate_writes {handle : RemoteRunHandle} {eventId : String}
    {updates : List (String × Json)} {b : Bool}
    (h : s.persistProgressiveUpdate cfg lease handle eventId updates now = some (s', b)) :
    Writes cfg digests s lease s' := by
  refine writes_of_underLease ?_ h
  intro command run l' answer hlocks hbody
  have hcommand : (s.lock command run).command.status = .dispatching := hlocks.dispatching
  split_ifs at hbody
  · cases hbody
    exact .idle hcommand
  · split at hbody
    · cases hbody
    · cases hbody
      refine .quiet rfl ?_ (.renew _ _) hcommand rfl rfl ⟨rfl, rfl, rfl⟩
      exact ⟨⟨rfl, rfl, rfl, rfl, rfl, rfl⟩, ⟨rfl, rfl, rfl⟩, rfl, rfl, fun h => h, fun h => h,
        .inl rfl⟩

theorem renewLease_writes {b : Bool} (h : s.renewLease cfg lease now = some (s', b)) :
    Writes cfg digests s lease s' := by
  refine writes_of_underLease ?_ h
  intro command run l' answer hlocks hbody
  cases hbody
  refine .quiet rfl ?_ (.renew _ _) hlocks.dispatching rfl rfl
    ⟨rfl, rfl, rfl⟩
  exact ⟨⟨rfl, rfl, rfl, rfl, rfl, rfl⟩, ⟨rfl, rfl, rfl⟩, rfl, rfl, fun h => h, fun h => h,
    .inl rfl⟩

theorem scheduleCancelRetry_writes {b : Bool}
    (h : s.scheduleCancelRetry cfg lease now = some (s', b)) : Writes cfg digests s lease s' := by
  refine writes_of_underLease ?_ h
  intro command run l' answer hlocks hbody
  cases hbody
  exact .quiet rfl (.refl _) (.release _ _) hlocks.dispatching rfl rfl
    ⟨rfl, rfl, rfl⟩

theorem scheduleReconciliation_writes {b : Bool}
    (h : s.scheduleReconciliation cfg lease now = some (s', b)) :
    Writes cfg digests s lease s' := by
  refine writes_of_underLease ?_ h
  intro command run l' answer hlocks hbody
  have hcommand : (s.lock command run).command.status = .dispatching := hlocks.dispatching
  split_ifs at hbody
  · cases hbody
    exact .idle hcommand
  · cases hbody
    refine .quiet rfl ?_ (.release _ _) hcommand rfl rfl ⟨rfl, rfl, rfl⟩
    exact ⟨⟨rfl, rfl, rfl, rfl, rfl, rfl⟩, ⟨rfl, rfl, rfl⟩, rfl, rfl, fun h => h, fun h => h,
      .inl rfl⟩

theorem scheduleOrphanCancel_writes {cleanup : OrphanCleanup}
    (h : s.scheduleOrphanCancel cfg lease now = some (s', cleanup)) :
    Writes cfg digests s lease s' := by
  refine writes_of_underLease ?_ h
  intro command run l' answer hlocks hbody
  have hcommand : (s.lock command run).command.status = .dispatching := hlocks.dispatching
  dsimp only at hbody
  split_ifs at hbody
  · cases hbody
    exact .idle hcommand
  · cases hbody
    exact .idle hcommand
  · cases hbody
    refine .quiet rfl ?_ (.release _ _) hcommand rfl rfl ⟨rfl, rfl, rfl⟩
    exact ⟨⟨rfl, rfl, rfl, rfl, rfl, rfl⟩, ⟨rfl, rfl, rfl⟩, rfl, rfl, fun _ => rfl, fun h => h,
      .inl rfl⟩

end Quiet

section Pause

/-- The pause of a run is found or inserted without any other write. -/
theorem pauseFor_eq_some {l l' : LockedRows} {set : RemoteInterruptSet} {pauseId : ℕ}
    {pause : InterruptPause} (h : pauseFor cfg digests l set pauseId now = some (l', pause)) :
    l' = { l with pauses := l'.pauses } := by
  unfold pauseFor at h
  split at h
  · split_ifs at h
    cases h
    rfl
  · dsimp only at h
    obtain ⟨pauses, -, hl⟩ := Option.map_eq_some_iff.mp h
    cases hl
    rfl

theorem markWaitingHuman_writes {set : RemoteInterruptSet} {pauseId : ℕ} {memberIds : List ℕ}
    {b : Bool}
    (h : s.markWaitingHuman cfg digests lease set pauseId memberIds now = some (s', b)) :
    Writes cfg digests s lease s' := by
  refine writes_of_underLease ?_ h
  intro command run l' answer hlocks hbody
  split_ifs at hbody with haccepts hpinned
  · cases hbody
    exact .idle hlocks.dispatching
  · obtain ⟨resolved, hresolved, hbody⟩ := Option.bind_eq_some_iff.mp hbody
    obtain ⟨⟨found, pause⟩, hfound, hbody⟩ := Option.bind_eq_some_iff.mp hbody
    obtain ⟨members, hmembers, hbody⟩ := Option.bind_eq_some_iff.mp hbody
    split_ifs at hbody with hcount
    cases hbody
    have hr := LockedRows.resolveRespondingInterrupt_eq_some hresolved
    have hf := pauseFor_eq_some hfound
    have htask : found.task = s.task := by rw [hf, hr]; rfl
    have hrun : found.run = run := by rw [hf, hr]; rfl
    have hcommand : found.command = command := by rw [hf, hr]; rfl
    have houtputs : found.outputs = s.outputs := by rw [hf, hr]; rfl
    rw [htask, hrun] at hmembers
    have hsame : run.SameIdentity found.run := by
      rw [hrun]
      exact .refl run
    refine .paused set pauseId memberIds now resolved found pause ?_ (by simpa using haccepts)
      hresolved hfound hmembers (not_not.mp hcount) rfl ?_ ?_ rfl rfl ?_ ?_ rfl houtputs
    · exact congrArg (fun task : TaskRow => { task with status := .waitingHuman }) htask
    · exact hsame.trans ⟨rfl, rfl, rfl, rfl, rfl, rfl⟩
    · refine ⟨?_, ?_, ?_⟩
      · change found.run.outputPayload = run.outputPayload
        rw [hrun]
      · change found.run.terminalOutputHash = run.terminalOutputHash
        rw [hrun]
      · change found.run.projectionFence = run.projectionFence
        rw [hrun]
    · have hfree := (not_or.mp hpinned).2
      simpa using hfree
    · change command.SameIdentity (found.command.settle .dispatched)
      rw [hcommand]
      exact .settle _ _

end Pause

section Terminal

theorem finalizeCancelFailure_writes {errorType code message : String} {b : Bool} {runId : ℕ}
    (hrun : lease.productRunId = some runId)
    (h : s.finalizeCancelFailure cfg lease errorType code message now = some (s', b)) :
    Writes cfg digests s lease s' := by
  unfold finalizeCancelFailure at h
  rw [hrun] at h
  cases hfailed : failedTerminalOutput code errorType false (some lease.fenceToken) with
  | none => simp [hfailed] at h
  | some terminal =>
      simp only [hfailed] at h
      refine writes_of_underLease ?_ h
      intro command run l' answer hlocks hbody
      split_ifs at hbody with hterminal
      · cases hbody
        exact .dropped (.terminal hterminal) rfl (.refl _) (.settle _ _) rfl
          (.same rfl rfl) rfl
      · obtain ⟨closed, hclosed, hbody⟩ := Option.bind_eq_some_iff.mp hbody
        obtain ⟨persisted, hpersisted, hbody⟩ := Option.bind_eq_some_iff.mp hbody
        cases hbody
        have hp := LockedRows.persist_eq_some hpersisted
        have hc := LockedRows.closeActiveInterruptLineage_eq_some hclosed
        have hcommand : (s.lock command run).command.SameIdentity l'.command := by
          rw [hp.command, hc]
          exact .settle _ _
        refine hp.effect ?_ (.failed (LockedRows.failedTerminalOutput_status hfailed))
          (.inr (by rw [hc]))
          (.closed runId false closed hrun hclosed hp.pauses hp.members) hcommand
          (.inr (by rw [hp.command]; rfl))
        rw [hc]
        exact ⟨rfl, .refl _, rfl, .refl _⟩

theorem finalizeCancel_writes {b : Bool} {runId : ℕ} (hrun : lease.productRunId = some runId)
    (h : s.finalizeCancel cfg lease now = some (s', b)) : Writes cfg digests s lease s' := by
  unfold finalizeCancel at h
  rw [hrun] at h
  refine writes_of_underLease ?_ h
  intro command run l' answer hlocks hbody
  split_ifs at hbody with hterminal hfence
  · cases hbody
    exact .dropped (.terminal hterminal) rfl (.refl _) (.settle _ _) rfl
      (.same rfl rfl) rfl
  · cases hbody
    exact .dropped (.fenced hfence) rfl (.refl _) (.settle _ _) rfl
      (.same rfl rfl) rfl
  · obtain ⟨closed, hclosed, hbody⟩ := Option.bind_eq_some_iff.mp hbody
    obtain ⟨persisted, hpersisted, hbody⟩ := Option.bind_eq_some_iff.mp hbody
    cases hbody
    have hp := LockedRows.persist_eq_some hpersisted
    have hc := LockedRows.closeActiveInterruptLineage_eq_some hclosed
    have hcommand : (s.lock command run).command.SameIdentity l'.command := by
      rw [hp.command, hc]
      exact .settle _ _
    refine hp.effect ?_ .cancelled (.inr (by rw [hc]))
      (.closed runId false closed hrun hclosed hp.pauses hp.members) hcommand
      (.inl (by rw [hp.command]; rfl))
    rw [hc]
    exact ⟨rfl, .refl _, rfl, .refl _⟩

/-- A failed output that ends its command on the spot. -/
theorem effect_of_persistFailed {code errorType message : String} {retryable : Bool}
    {attempt : Option ℕ} {l l₀ persisted : LockedRows}
    (h : l₀.persistFailed cfg code errorType retryable now lease.commandSequence message attempt =
      some persisted)
    (hrows : l₀.task = l.task ∧ l.run.SameIdentity l₀.run ∧
      l₀.run.checkpointId = l.run.checkpointId ∧ l.outputs.SameArtifacts l₀.outputs)
    (hcommand : l₀.command = l.command)
    (hpauses : ∀ l', l'.pauses = l₀.pauses → l'.members = l₀.members →
      LockedRows.PauseEffect lease l l') :
    l.Effect cfg digests s lease (persisted.settle .failed) := by
  obtain ⟨t, ht, hp⟩ := LockedRows.persistFailed_eq_some h
  have hsettled := hp.withCommand .failed
  have hidentity : l.command.SameIdentity (persisted.settle .failed).command := by
    rw [hsettled.command, LockedRows.settle, hcommand]
    exact .settle _ _
  exact hsettled.effect hrows (.failed ht) (.inl rfl) (hpauses _ hp.pauses hp.members) hidentity
    (.inr rfl)

section RemoteErrors

variable {error : RemoteError} {l l' : LockedRows}

/-- A run that is put back in the queue, along with its command. -/
theorem effect_of_requeueRun {taskStatus : RunStatus} {code message : String}
    (hstatus : isClaimable taskStatus) (hrun : l'.run = (l.requeueRun taskStatus code message).run)
    (htask : l'.task = (l.requeueRun taskStatus code message).task ∨
      l'.task = { (l.requeueRun taskStatus code message).task with completedAt := none })
    (hcommand : l.command.SameIdentity l'.command) (hlive : l'.command.isLive)
    (hpauses : l'.pauses = l.pauses) (hmembers : l'.members = l.members)
    (houtputs : l'.outputs = l.outputs) : l.Effect cfg digests s lease l' := by
  refine .requeued ?_ ?_ ?_ ?_ ?_ ?_ hcommand hlive hpauses hmembers houtputs
  · obtain htask | htask := htask <;> rw [htask] <;> exact ⟨rfl, rfl⟩
  · obtain htask | htask := htask <;> rw [htask] <;> exact hstatus
  · rw [hrun]
    exact ⟨rfl, rfl, rfl, rfl, rfl, rfl⟩
  · rw [hrun]
    exact ⟨rfl, rfl, rfl⟩
  · rw [hrun]
    rfl
  · rw [hrun]
    rfl

theorem recordIndeterminateSubmit_effect
    (h : recordIndeterminateSubmit cfg lease error now l = some (l', ())) :
    l.Effect cfg digests s lease l' := by
  unfold recordIndeterminateSubmit at h
  split_ifs at h
  · cases h
    exact effect_of_requeueRun rfl rfl (.inl rfl) (.requeue _ _) rfl rfl rfl rfl
  · obtain ⟨persisted, hpersisted, hl⟩ := Option.map_eq_some_iff.mp h
    cases hl
    exact effect_of_persistFailed hpersisted ⟨rfl, .refl _, rfl, .refl _⟩ rfl
      fun l' hpauses hmembers => .same hpauses hmembers

theorem recordForkError_effect (h : recordForkError cfg lease error now l = some (l', ())) :
    l.Effect cfg digests s lease l' := by
  unfold recordForkError at h
  split_ifs at h
  · cases h
    exact effect_of_requeueRun rfl rfl (.inl rfl) (.requeue _ _) rfl rfl rfl rfl
  · cases h
    exact effect_of_requeueRun rfl rfl (.inl rfl) (.requeue _ _) rfl rfl rfl rfl
  · obtain ⟨persisted, hpersisted, hl⟩ := Option.map_eq_some_iff.mp h
    cases hl
    exact effect_of_persistFailed hpersisted ⟨rfl, .refl _, rfl, .refl _⟩ rfl
      fun l' hpauses hmembers => .same hpauses hmembers

theorem recordSubmitError_effect (hdispatching : l.command.status = .dispatching)
    (h : recordSubmitError cfg lease error now l = some (l', ())) :
    l.Effect cfg digests s lease l' := by
  have hlive : l.command.isLive := by rw [TaskCommand.isLive, hdispatching]; rfl
  unfold recordSubmitError at h
  dsimp only at h
  split_ifs at h
  · cases h
    exact effect_of_requeueRun (show TaskStore.isClaimable .queued from rfl) rfl (.inr rfl)
      (.renew _ _) hlive rfl rfl rfl
  · cases h
    exact .quiet rfl (.refl _) (.renew _ _) hdispatching rfl rfl (.refl _)
  · obtain ⟨persisted, hpersisted, hl⟩ := Option.map_eq_some_iff.mp h
    cases hl
    exact effect_of_persistFailed hpersisted ⟨rfl, .refl _, rfl, .refl _⟩ rfl
      fun l' hpauses hmembers => .same hpauses hmembers

theorem recordRespondError_effect {payload : RespondCommandPayload}
    (hpayload : lease.respondPayload = some payload)
    (h : recordRespondError cfg lease error now payload l = some (l', ())) :
    l.Effect cfg digests s lease l' := by
  have hclaimable : isClaimable (if payload.expired then .running else .waitingHuman) := by
    cases payload.expired <;> rfl
  unfold recordRespondError at h
  split at h
  · cases h
  · rename_i pause hfound
    dsimp only at h
    generalize hexpected : (if payload.expired then InterruptStatus.expired else
      InterruptStatus.responding) = expected at h
    generalize (if payload.expired then RunStatus.running else RunStatus.waitingHuman) =
      taskStatus at h hclaimable
    generalize (if payload.expired then cfg.maxCancelAttempts else cfg.maxAttempts) = limit at h
    split_ifs at h with hmoot
    · cases h
      exact effect_of_requeueRun hclaimable rfl (.inl rfl) (.requeue _ _) rfl rfl
        rfl rfl
    · cases h
      exact effect_of_requeueRun hclaimable rfl (.inl rfl) (.requeue _ _) rfl rfl
        rfl rfl
    · obtain ⟨persisted, hpersisted, hl⟩ := Option.map_eq_some_iff.mp h
      cases hl
      have hstatus : pause.status = if payload.expired then .expired else .responding := by
        rw [hexpected]
        by_contra hne
        exact hmoot (.inl hne)
      exact effect_of_persistFailed hpersisted ⟨rfl, .refl _, rfl, .refl _⟩ rfl
        fun l' hpauses hmembers =>
          .resumeFailed payload pause hpayload hfound hstatus hpauses hmembers

theorem recordRemoteError_writes
    (h : s.recordRemoteError cfg lease error now = some (s', ())) :
    Writes cfg digests s lease s' := by
  refine writes_of_underLease ?_ h
  intro command run l' answer hlocks hbody
  split_ifs at hbody with hcancel
  · cases hbody
    exact .dropped (.cancelRequested hcancel) rfl (.refl _) (.settle _ _) rfl
      (.same rfl rfl) rfl
  · exact recordIndeterminateSubmit_effect hbody
  · split at hbody
    · rename_i hpayload
      exact recordRespondError_effect hpayload hbody
    · exact recordForkError_effect hbody
    · exact recordSubmitError_effect hlocks.dispatching hbody

end RemoteErrors

section Projection

variable {terminal : TerminalGraphOutput} {b : Bool}

theorem recordTerminalProjectionDatabaseError_writes {operational : Bool}
    (h : s.recordTerminalProjectionDatabaseError cfg lease terminal now operational =
      some (s', b)) : Writes cfg digests s lease s' := by
  refine writes_of_underLease ?_ h
  intro command run l' answer hlocks hbody
  dsimp only at hbody
  generalize (if operational then "DatabaseOperationalError" else "DatabaseError") = errorType
    at hbody
  split_ifs at hbody with hreplayed
  · obtain ⟨persisted, hpersisted, hl⟩ := Option.map_eq_some_iff.mp hbody
    cases hl
    have hp := (LockedRows.persist_eq_some hpersisted).withCommand .dispatched
    refine hp.effect ⟨rfl, .refl _, rfl, .refl _⟩ (.replayed hreplayed) (.inl rfl)
      (.same hp.pauses hp.members) ?_ (.inl rfl)
    rw [hp.command]
    exact .settle _ _
  · cases hbody
    exact .requeued ⟨rfl, rfl⟩ rfl ⟨rfl, rfl, rfl, rfl, rfl, rfl⟩ ⟨rfl, rfl, rfl⟩ rfl rfl
      (.requeue _ _) rfl rfl rfl rfl
  · obtain ⟨persisted, hpersisted, hl⟩ := Option.map_eq_some_iff.mp hbody
    cases hl
    exact effect_of_persistFailed hpersisted
      ⟨rfl, ⟨rfl, rfl, rfl, rfl, rfl, rfl⟩, rfl, .refl _⟩ rfl
      fun l' hpauses hmembers => .same hpauses hmembers

theorem closePauses_eq_some {l l' : LockedRows} (h : closePauses lease now l = some l') :
    l' = { l with pauses := l'.pauses, members := l'.members } ∧ l.PauseEffect lease l' := by
  unfold closePauses at h
  split_ifs at h
  · split at h
    · cases h
      exact ⟨rfl, .same rfl rfl⟩
    · rename_i runId hrun
      exact ⟨LockedRows.closeActiveInterruptLineage_eq_some h,
        .closed runId true l' hrun h rfl rfl⟩
  · exact ⟨LockedRows.resolveRespondingInterrupt_eq_some h, .resolved now l' h rfl rfl⟩

/-- What the first projection of an output writes. -/
structure ProjectedOutput (cfg : DispatcherConfig) (lease : CommandLease)
    (t : TerminalGraphOutput) (now : ℕ) (ids : CommitIds) (l l' : LockedRows) : Prop where
  task : l'.task = l.task.terminalize t.terminalStatus now
  identity : l.run.SameIdentity l'.run
  checkpointId : l'.run.checkpointId = l.run.checkpointId
  runStatus : l'.run.status = t.terminalStatus.runStatus
  output : l'.run.outputPayload = some t.modelDump
  hash : l'.run.terminalOutputHash = some (outputHash cfg t)
  fence : l'.run.projectionFence = lease.commandSequence
  command : l'.command = l.command
  pauses : l'.pauses = l.pauses
  members : l'.members = l.members
  commit : ∃ receipts outputs notification,
    commitTerminalArtifact l.task { l.outputs with receipts } ids l.run.id t =
      some (outputs, notification) ∧ outputs.SameArtifacts l'.outputs

theorem projectOutput_eq_some {ids : CommitIds} {l l' : LockedRows}
    (h : projectOutput cfg lease terminal now ids l = some l') :
    ProjectedOutput cfg lease terminal now ids l l' := by
  unfold projectOutput at h
  dsimp only at h
  obtain ⟨⟨outputs, notification⟩, hcommit, h⟩ := Option.bind_eq_some_iff.mp h
  dsimp only at h
  split at h
  · cases h
  · cases h
    exact ⟨rfl, ⟨rfl, rfl, rfl, rfl, rfl, rfl⟩, rfl, rfl, rfl, rfl, rfl, rfl, rfl, rfl, _, outputs,
      notification, hcommit, ⟨rfl, rfl, rfl⟩⟩

theorem finalize_writes {ids : CommitIds} (hchecked : lease.lacksArtifact terminal = false)
    (h : s.finalize cfg lease terminal now ids = some (s', b)) :
    Writes cfg digests s lease s' := by
  refine writes_of_underLease ?_ h
  intro command run l' answer hlocks hbody
  split_ifs at hbody with haccepts
  · cases hbody
    refine .dropped (.refused ?_) rfl (.refl _) (.settle _ _) rfl
      (.same rfl rfl) rfl
    simpa using haccepts
  · obtain ⟨closed, hclosed, hbody⟩ := Option.bind_eq_some_iff.mp hbody
    obtain ⟨hrows, hpauses⟩ := closePauses_eq_some hclosed
    have hbase : closed.task = (s.lock command run).task ∧
        (s.lock command run).run.SameIdentity closed.run ∧
        closed.run.checkpointId = (s.lock command run).run.checkpointId ∧
        (s.lock command run).outputs.SameArtifacts closed.outputs := by
      rw [hrows]
      exact ⟨rfl, .refl _, rfl, .refl _⟩
    have hrun : closed.run = run := by rw [hrows]; rfl
    have hsettle : ∀ status,
        (s.lock command run).command.SameIdentity (closed.command.settle status) := by
      intro status
      rw [hrows]
      exact .settle _ _
    split_ifs at hbody with hfence hstored hreplayed
    · cases hbody
      rw [hrun] at hfence
      refine .dropped (.fenced hfence) hbase.1 ?_ (hsettle _) rfl (hpauses.congr rfl rfl) ?_
      · change run.Quiet closed.run
        rw [hrun]
        exact .refl run
      · rw [hrows]
        rfl
    · obtain ⟨persisted, hpersisted, hbody⟩ := Option.bind_eq_some_iff.mp hbody
      cases hbody
      have hp := (LockedRows.persist_eq_some hpersisted).withCommand .dispatched
      refine hp.effect hbase ?_ (.inl rfl) (hpauses.congr hp.pauses hp.members) ?_ ?_
      · rw [hrun] at hreplayed
        exact .replayed hreplayed
      · rw [hp.command]
        exact hsettle _
      · exact .inl (by rw [hp.command]; rfl)
    · obtain ⟨conflict, hconflict, hbody⟩ := Option.bind_eq_some_iff.mp hbody
      obtain ⟨persisted, hpersisted, hbody⟩ := Option.bind_eq_some_iff.mp hbody
      cases hbody
      have hp := (LockedRows.persist_eq_some hpersisted).withCommand .failed
      refine hp.effect hbase (.failed (LockedRows.failedTerminalOutput_status hconflict)) (.inl rfl)
        (hpauses.congr hp.pauses hp.members) ?_ ?_
      · rw [hp.command]
        exact hsettle _
      · exact .inr (by rw [hp.command]; rfl)
    · obtain ⟨projected, hprojected, hbody⟩ := Option.bind_eq_some_iff.mp hbody
      cases hbody
      have hcommand := (projectOutput_eq_some hprojected).command
      refine .projected terminal now ids closed hchecked ?_ hclosed ?_ ?_ rfl
      · simpa using haccepts
      · rw [hprojected, ← hcommand]
        rfl
      · change (s.lock command run).command.SameIdentity (projected.command.settle .dispatched)
        rw [hcommand]
        exact hsettle _

end Projection

end Terminal

end TaskStore

namespace LockedRows

variable {cfg : DispatcherConfig} {digests : KeyDigests} {s : TaskStore} {lease : CommandLease}
  {l l' : LockedRows}

/-- A projection seen as rows before and after, without the rows in between. -/
theorem projected_rows {t : TerminalGraphOutput} {now : ℕ} {ids : CommitIds}
    {closed : LockedRows} (close : TaskStore.closePauses lease now l = some closed)
    (project : TaskStore.projectOutput cfg lease t now ids closed = some
      { l' with command := closed.command }) :
    TaskStore.ProjectedOutput cfg lease t now ids { l with
        pauses := closed.pauses, members := closed.members, command := l'.command } l' := by
  have hrows := (TaskStore.closePauses_eq_some close).1
  have hp := TaskStore.projectOutput_eq_some project
  rw [hrows] at hp
  exact ⟨hp.task, hp.identity, hp.checkpointId, hp.runStatus, hp.output, hp.hash, hp.fence, rfl,
    hp.pauses, hp.members, hp.commit⟩

namespace Effect

theorem command (h : l.Effect cfg digests s lease l') : l.command.SameIdentity l'.command := by
  cases h <;> assumption

theorem identity (h : l.Effect cfg digests s lease l') : l.run.SameIdentity l'.run := by
  cases h with
  | quiet _ run => exact run.toSameIdentity
  | dropped _ _ run => exact run.toSameIdentity
  | requeued _ _ identity => exact identity
  | paused _ _ _ _ _ _ _ _ _ _ _ _ _ _ identity => exact identity
  | settled _ _ _ _ _ _ identity => exact identity
  | projected _ _ _ _ _ _ close project => exact (projected_rows close project).identity

/-- A transaction that moves the fence ends its command. -/
theorem fence (h : l.Effect cfg digests s lease l') :
    l'.run.projectionFence = l.run.projectionFence ∨
      (l'.run.projectionFence = lease.commandSequence ∧ l'.command.isLive = false) := by
  cases h with
  | quiet _ run => exact .inl run.projectionFence
  | dropped _ _ run => exact .inl run.projectionFence
  | requeued _ _ _ output => exact .inl output.projectionFence
  | paused _ _ _ _ _ _ _ _ _ _ _ _ _ _ _ output => exact .inl output.projectionFence
  | settled _ _ _ _ _ _ _ _ _ _ _ fence _ status =>
      refine .inr ⟨fence, ?_⟩
      obtain status | status := status <;> rw [TaskCommand.isLive, status] <;> rfl
  | projected _ _ _ _ _ _ close project _ status =>
      refine .inr ⟨(projected_rows close project).fence, ?_⟩
      rw [TaskCommand.isLive, status]
      rfl

theorem admission (h : l.Effect cfg digests s lease l') :
    l'.task.toAdmission = l.task.toAdmission := by
  cases h with
  | quiet task => rw [task]
  | dropped _ task => rw [task]
  | requeued task => exact task.2
  | paused _ _ _ _ _ _ _ task => rw [task]
  | settled _ _ terminalize _ _ task => cases terminalize <;> rw [task] <;> rfl
  | projected _ _ _ _ _ _ close project => rw [(projected_rows close project).task]; rfl

/-- A command that stays with the workers belongs to a task whose commands are claimed. -/
theorem task_of_live (h : l.Effect cfg digests s lease l') (hlive : l'.command.isLive) :
    l'.task.status = l.task.status ∨ TaskStore.isClaimable l'.task.status := by
  cases h with
  | quiet task => exact .inl (by rw [task])
  | dropped _ task => exact .inl (by rw [task])
  | requeued _ taskStatus => exact .inr taskStatus
  | paused _ _ _ _ _ _ _ task => exact .inr (by rw [task]; rfl)
  | settled _ _ _ _ _ _ _ _ _ _ _ _ _ status =>
      obtain status | status := status <;> rw [TaskCommand.isLive, status] at hlive <;> cases hlive
  | projected _ _ _ _ _ _ _ _ _ status =>
      rw [TaskCommand.isLive, status] at hlive
      cases hlive

end Effect

end LockedRows

namespace TaskStore

variable {cfg : DispatcherConfig} {digests : KeyDigests} {s s' : TaskStore}
  {lease : CommandLease} {now : ℕ}

section Execution

/-- What a transaction without a run leaves behind: its command is ended, and a cancellation of
the task decides over a task that is not terminal. -/
structure Unassigned (s : TaskStore) (lease : CommandLease) (command : TaskCommand)
    (status : CommandStatus) (task : TaskRow) (s' : TaskStore) : Prop where
  runless : lease.productRunId = none
  mem : command ∈ s.commands
  owned : command.isOwnedBy lease
  ended : status.isLive = false
  decides : task = s.task ∧ (s.task.status.isTerminal ∨ lease.commandType ≠ .cancelTask) ∨
    ∃ terminal : RunStatus, terminal.isTerminal ∧ ∃ now,
      task = { s.task with status := terminal, completedAt := some now }
  store : s' = { s.putCommand (command.settle status) with task }

theorem finalizeCancelFailure_unassigned {errorType code message : String} {b : Bool}
    (hrun : lease.productRunId = none)
    (h : s.finalizeCancelFailure cfg lease errorType code message now = some (s', b)) :
    s' = s ∨ ∃ command status task, Unassigned s lease command status task s' := by
  unfold finalizeCancelFailure at h
  rw [hrun] at h
  cases hfailed : failedTerminalOutput code errorType false (some lease.fenceToken) with
  | none => simp [hfailed] at h
  | some terminal =>
      simp only [hfailed, Option.some.injEq] at h
      unfold underRunlessLease at h
      cases hcommand : s.lockedCommand lease now true with
      | none =>
          rw [hcommand] at h
          exact .inl (congrArg Prod.fst h).symm
      | some command =>
          obtain ⟨hmem, howned⟩ := lockedCommand_eq_some hcommand
          rw [hcommand] at h
          dsimp only at h
          split_ifs at h with hterminal htype <;> cases h
          · exact .inr ⟨command, _, _, hrun, hmem, howned, rfl, .inl ⟨rfl, .inl hterminal⟩, rfl⟩
          · exact .inr ⟨command, _, _, hrun, hmem, howned, rfl, .inr ⟨.failed, rfl, now, rfl⟩, rfl⟩
          · exact .inr ⟨command, _, _, hrun, hmem, howned, rfl, .inl ⟨rfl, .inr htype⟩, rfl⟩

theorem finalizeCancel_unassigned {b : Bool} (hrun : lease.productRunId = none)
    (h : s.finalizeCancel cfg lease now = some (s', b)) :
    s' = s ∨ ∃ command status task, Unassigned s lease command status task s' := by
  unfold finalizeCancel at h
  rw [hrun] at h
  simp only [Option.some.injEq] at h
  unfold underRunlessLease at h
  cases hcommand : s.lockedCommand lease now true with
  | none =>
      rw [hcommand] at h
      exact .inl (congrArg Prod.fst h).symm
  | some command =>
      obtain ⟨hmem, howned⟩ := lockedCommand_eq_some hcommand
      rw [hcommand] at h
      dsimp only at h
      split_ifs at h with hterminal htype <;> cases h
      · exact .inr ⟨command, _, _, hrun, hmem, howned, rfl, .inl ⟨rfl, .inl hterminal⟩, rfl⟩
      · exact .inr ⟨command, _, _, hrun, hmem, howned, rfl, .inr ⟨.cancelled, rfl, now, rfl⟩, rfl⟩
      · exact .inr ⟨command, _, _, hrun, hmem, howned, rfl, .inl ⟨rfl, .inr htype⟩, rfl⟩

/-- One step of a worker is a transaction under its lease, or leaves the rows alone. -/
theorem executeStep_cases {pc pc' : Pc} {event : Event}
    (hchecked : ∀ t, pc = .finalizing t → lease.lacksArtifact t = false)
    (h : s.executeStep cfg digests lease now pc event = some (s', pc')) :
    Writes cfg digests s lease s' ∨
      ∃ command status task, Unassigned s lease command status task s' := by
  have idle : ∀ {pc : Pc}, some (s, pc) = some (s', pc') → Writes cfg digests s lease s' := by
    intro pc h
    cases h
    exact .inl rfl
  have idleMap : ∀ {o : Option Pc}, (o.map fun pc => (s, pc)) = some (s', pc') →
      Writes cfg digests s lease s' := by
    intro o h
    obtain ⟨_, _, h⟩ := Option.map_eq_some_iff.mp h
    cases h
    exact .inl rfl
  have transaction : ∀ {α : Type} {o : Option (TaskStore × α)} {f : TaskStore × α → TaskStore × Pc},
      o.map f = some (s', pc') → (∀ x, (f x).1 = x.1) → ∃ answer, o = some (s', answer) := by
    intro α o f h hf
    obtain ⟨⟨s₁, answer⟩, ho, h⟩ := Option.map_eq_some_iff.mp h
    have hstore : s₁ = s' := by simpa [h] using (hf (s₁, answer)).symm
    exact ⟨answer, hstore ▸ ho⟩
  unfold executeStep at h
  split at h
  -- Steps that only move the worker.
  case h_1 | h_2 | h_3 | h_4 | h_5 | h_7 | h_8 | h_9 | h_13 | h_14 | h_15 | h_16 | h_17 | h_18 |
      h_19 | h_35 | h_36 | h_37 => exact .inl (idle h)
  case h_20 | h_23 | h_24 | h_25 | h_29 | h_30 => exact .inl (idleMap h)
  case h_28 =>
    obtain ⟨_, _, h⟩ := Option.map_eq_some_iff.mp h
    cases h
    exact .inl (.inl rfl)
  -- Transactions while the run goes on.
  case h_6 =>
    obtain ⟨_, h⟩ := transaction h fun _ => rfl
    exact .inl (renewLease_writes h)
  case h_10 =>
    obtain ⟨_, h⟩ := transaction h fun _ => rfl
    exact .inl (registerRemote_writes h)
  case h_12 =>
    obtain ⟨_, h⟩ := transaction h fun _ => rfl
    exact .inl (persistProgressiveUpdate_writes h)
  case h_21 =>
    obtain ⟨_, h⟩ := transaction h fun _ => rfl
    exact .inl (scheduleReconciliation_writes h)
  case h_22 =>
    obtain ⟨_, h⟩ := transaction h fun _ => rfl
    exact .inl (scheduleOrphanCancel_writes h)
  case h_26 =>
    obtain ⟨_, h⟩ := transaction h fun _ => rfl
    exact .inl (markWaitingHuman_writes h)
  case h_27 =>
    obtain ⟨⟨s₁, remembered⟩, hremember, h⟩ := Option.bind_eq_some_iff.mp h
    have hstore : s' = s₁ := by
      dsimp only at h
      split_ifs at h
      · cases h
        rfl
      · cases h
        rfl
      · obtain ⟨_, _, h⟩ := Option.map_eq_some_iff.mp h
        cases h
        rfl
    rw [hstore]
    exact .inl (rememberRemoteTerminal_writes hremember)
  -- Transactions that end the command.
  case h_11 =>
    obtain ⟨_, h⟩ := transaction h fun _ => rfl
    exact .inl (recordRemoteError_writes h)
  case h_31 =>
    obtain ⟨_, h⟩ := transaction h fun _ => rfl
    exact .inl (finalize_writes (hchecked _ rfl) h)
  case h_32 =>
    split at h
    · exact .inl (idle h)
    · obtain ⟨_, h⟩ := transaction h fun _ => rfl
      exact .inl (finalize_writes (hchecked _ rfl) h)
  case h_33 =>
    obtain ⟨_, h⟩ := transaction h fun _ => rfl
    exact .inl (recordTerminalProjectionDatabaseError_writes h)
  case h_34 =>
    obtain ⟨_, h⟩ := transaction h fun _ => rfl
    exact .inl (registerCancelTarget_writes h)
  case h_38 =>
    split_ifs at h
    · exact .inl (idleMap h)
    · exact .inl (idle h)
    · obtain ⟨_, h⟩ := transaction h fun _ => rfl
      exact .inl (scheduleCancelRetry_writes h)
  case h_39 =>
    obtain ⟨_, h⟩ := transaction h fun _ => rfl
    cases hrun : lease.productRunId with
    | some runId => exact .inl (finalizeCancelFailure_writes hrun h)
    | none =>
        obtain rfl | hunassigned := finalizeCancelFailure_unassigned hrun h
        · exact .inl (.inl rfl)
        · exact .inr hunassigned
  case h_40 =>
    obtain ⟨_, h⟩ := transaction h fun _ => rfl
    cases hrun : lease.productRunId with
    | some runId => exact .inl (finalizeCancel_writes hrun h)
    | none =>
        obtain rfl | hunassigned := finalizeCancel_unassigned hrun h
        · exact .inl (.inl rfl)
        · exact .inr hunassigned
  case h_41 => cases h

end Execution

end TaskStore

end CryptoAlert
