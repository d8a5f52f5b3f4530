import CryptoAlert.Commands.Soundness

/-!
# Which steps make a task active

A worker only moves a task that still takes its outcome, so an ended task stays ended but for a
retry or a fork. The id of a task never changes, and its submission is inserted once.
-/

namespace CryptoAlert

namespace LockedRows

variable {cfg : DispatcherConfig} {digests : KeyDigests} {s : TaskStore} {lease : CommandLease}
  {l l' : LockedRows}

theorem Effect.task_id (h : l.Effect cfg digests s lease l') : l'.task.id = l.task.id := by
  cases h with
  | quiet task => rw [task]
  | dropped _ task => rw [task]
  | requeued task => exact task.1
  | paused _ _ _ _ _ _ _ task => rw [task]
  | settled _ _ terminalize _ _ task => cases terminalize <;> rw [task] <;> rfl
  | projected _ _ _ _ _ _ close project => rw [(projected_rows close project).task]; rfl

end LockedRows

namespace TaskStore

variable {cfg : DispatcherConfig} {digests : KeyDigests} {leases : List CommandLease}
  {s s' : TaskStore} {lease? : Option CommandLease}

theorem isClaimable_of_active {status : RunStatus} (h : isClaimable status) :
    status.isTerminal = false := by
  cases status <;> first | rfl | cases h

/-- The task after a request: it stays as it is, or is queued again for a retry or a fork. -/
theorem Requested.task (h : Requested digests s s') : s'.task = s.task ∨
    (s'.task = s.requeuedTask ∧ (s'.lastType = some .retry ∨ s'.lastType = some .fork)) := by
  cases h with
  | cancelTask => exact .inl rfl
  | cancelRun => exact .inl rfl
  | retry => exact .inr ⟨rfl, .inl (lastType_append rfl rfl)⟩
  | fork _ _ _ _ _ _ _ s₁ _ _ _ _ closed =>
      refine .inr ⟨?_, .inr (lastType_append rfl rfl)⟩
      rw [requeuedTask, requeuedTask, (cancelPendingPauseForFork_commands closed).2]
  | answer => exact .inl rfl

theorem Claims.task_id {now : ℕ} (h : Claims cfg s now s' lease?) : s'.task.id = s.task.id := by
  cases h with
  | idle => rfl
  | cancelled => rfl
  | failed c code errorType message run s' next invalid fail =>
      obtain ⟨-, rfl⟩ | ⟨run', t, l, -, -, hp, rfl⟩ := failInvalid_eq_some fail
      · rfl
      · change l.task.id = s.task.id
        rw [hp.task]
        rfl
  | driven => rfl
  | cancelling => rfl

theorem Change.task_id (h : Change cfg digests leases s s' lease?) :
    s'.task.id = s.task.id := by
  cases h with
  | relaxed relaxed => rw [relaxed.task]
  | requested requested =>
      obtain htask | ⟨htask, -⟩ := requested.task
      · rw [htask]
      · rw [htask]
        rfl
  | claimed now claims => exact claims.task_id
  | effect issued locks effect => exact effect.task_id
  | unassigned issued unassigned =>
      rw [unassigned.store]
      obtain ⟨htask, -⟩ | ⟨terminal, -, now, htask⟩ := unassigned.decides <;> rw [htask]

/-- The types of the commands of a task, in the order of their insertion. -/
def commandTypes (s : TaskStore) : List CommandType := s.commands.map TaskCommand.commandType

theorem commandTypes_of_continues {commands : List TaskCommand}
    (h : List.Forall₂ TaskCommand.Continues s.commands commands) :
    commands.map TaskCommand.commandType = s.commandTypes := by
  refine Table.map_eq_of_forall₂ ?_ h
  intro c c' hc
  rw [TaskCommand.commandType, TaskCommand.commandType, hc.payload]

/-- A request inserts one command, and never a submission. -/
theorem Requested.commandTypes (h : Requested digests s s') :
    ∃ type, type ≠ .submit ∧ s'.commandTypes = s.commandTypes ++ [type] := by
  have happend : ∀ {commands : List TaskCommand} {c : TaskCommand},
      s'.commands = commands ++ [c] → List.Forall₂ TaskCommand.Continues s.commands commands →
      s'.commandTypes = s.commandTypes ++ [c.commandType] := by
    intro commands c hcommands hkept
    rw [TaskStore.commandTypes, hcommands, List.map_append, commandTypes_of_continues hkept]
    rfl
  cases h with
  | cancelTask => exact ⟨.cancelTask, nofun, happend rfl (closeCommands_kept s)⟩
  | cancelRun => exact ⟨.cancelRun, nofun, happend rfl (closeCommands_kept s)⟩
  | retry => exact ⟨.retry, nofun, happend rfl (sameCommands s)⟩
  | fork _ _ _ _ _ _ _ s₁ _ _ _ _ closed =>
      refine ⟨.fork, nofun, happend rfl ?_⟩
      rw [(cancelPendingPauseForFork_commands closed).1]
      exact sameCommands s
  | answer => exact ⟨.respond, nofun, happend rfl (sameCommands s)⟩

theorem Claims.commandTypes {now : ℕ} (hk : s.Keyed) (h : Claims cfg s now s' lease?) :
    s'.commandTypes = s.commandTypes := by
  cases h with
  | idle => rfl
  | cancelled c next moot =>
      exact commandTypes_of_continues
        (putCommand_kept hk (nextCommand_eq_some next).2.1 (settle_continues c _))
  | failed c code errorType message run s' next invalid fail =>
      have hmem := (nextCommand_eq_some next).2.1
      obtain ⟨-, rfl⟩ | ⟨run', t, l, -, -, hp, rfl⟩ := failInvalid_eq_some fail
      · exact commandTypes_of_continues (putCommand_kept hk hmem (settle_continues c _))
      · refine commandTypes_of_continues (putCommand_kept hk hmem ?_)
        rw [hp.command]
        exact settle_continues c _
  | driven c workerId run s₁ lease next =>
      exact commandTypes_of_continues (putCommand_kept hk (nextCommand_eq_some next).2.1
        (dispatched_continues cfg now c workerId))
  | cancelling c workerId run lease next =>
      exact commandTypes_of_continues (putCommand_kept hk (nextCommand_eq_some next).2.1
        (dispatched_continues cfg now c workerId))

/-- Every change leaves the commands or appends one that is no submission. -/
theorem Change.commandTypes (hk : s.Keyed) (h : Change cfg digests leases s s' lease?) :
    s'.commandTypes = s.commandTypes ∨
      ∃ type, type ≠ .submit ∧ s'.commandTypes = s.commandTypes ++ [type] := by
  cases h with
  | relaxed relaxed =>
      exact .inl (commandTypes_of_continues (relaxed.commands.imp fun _ _ h => h.continues))
  | requested requested => exact .inr requested.commandTypes
  | claimed now claims => exact .inl (claims.commandTypes hk)
  | effect issued locks effect =>
      exact .inl (commandTypes_of_continues
        (putCommand_kept hk locks.mem effect.command.continues))
  | unassigned issued unassigned =>
      rw [unassigned.store]
      exact .inl (commandTypes_of_continues
        (putCommand_kept hk unassigned.mem (settle_continues _ _)))

/-- A claim takes place on an active task only, if it changes the task at all. -/
theorem Claims.task_of_terminal {now : ℕ} (hended : s.task.status.isTerminal)
    (h : Claims cfg s now s' lease?) : s'.task = s.task := by
  have hclaimable : ∀ {c : TaskCommand}, s.nextCommand now = some c → False := by
    intro c hnext
    rw [isClaimable_of_active (nextCommand_eq_some hnext).1] at hended
    cases hended
  cases h with
  | idle => rfl
  | cancelled => rfl
  | failed c code errorType message run s' next => exact (hclaimable next).elim
  | driven c workerId run s₁ lease next => exact (hclaimable next).elim
  | cancelling => rfl

/-- No worker has a command of an ended task. -/
theorem SoundRows.not_owned {command : TaskCommand} {lease : CommandLease} (h : s.SoundRows)
    (hended : s.task.status.isTerminal) (hmem : command ∈ s.commands) :
    ¬ command.isOwnedBy lease := by
  intro howned
  simp only [TaskCommand.isOwnedBy, Bool.and_eq_true, beq_iff_eq] at howned
  rw [isClaimable_of_active (h.claimable command hmem howned.1.1.2)] at hended
  cases hended

/-- A request of another kind than a retry or a fork leaves the task as it is. -/
theorem Requested.task_of_lastType (h : Requested digests s s') {type : CommandType}
    (htype : s'.lastType = some type) (hretry : type ≠ .retry) (hfork : type ≠ .fork) :
    s'.task = s.task := by
  obtain htask | ⟨-, hlast | hlast⟩ := h.task
  · exact htask
  · rw [htype, Option.some.injEq] at hlast
    exact absurd hlast hretry
  · rw [htype, Option.some.injEq] at hlast
    exact absurd hlast hfork

end TaskStore

/-- The labels of the requests that restart a task. -/
def TaskLabel.restarts : TaskLabel → Bool
  | .retryTask _ _ _ | .forkTask _ _ _ _ _ _ => true
  | _ => false

namespace TaskState

variable {cfg : DispatcherConfig} {digests : KeyDigests} {t t' : TaskState} {label : TaskLabel}

theorem task_id_step (h : t.Sound) (hstep : t.step cfg digests label = some t') :
    t'.store.task.id = t.store.task.id := by
  obtain ⟨lease, hchange, -⟩ := step_change h.toKeyed h.checked hstep
  exact hchange.task_id

/-- No step adds or removes a submission. -/
theorem count_submit_step (h : t.Sound) (hstep : t.step cfg digests label = some t') :
    t'.store.commandTypes.count .submit = t.store.commandTypes.count .submit := by
  obtain ⟨lease, hchange, -⟩ := step_change h.toKeyed h.checked hstep
  obtain hsame | ⟨type, htype, happend⟩ := hchange.commandTypes h.toKeyed
  · rw [hsame]
  · rw [happend, List.count_append, List.count_singleton, if_neg (by simpa using htype)]
    rfl

/-- An ended task stays as it is unless it is restarted. -/
theorem task_of_terminal (h : t.Sound) (hstep : t.step cfg digests label = some t')
    (hended : t.store.task.status.isTerminal) (hrestarts : label.restarts = false) :
    t'.store.task = t.store.task := by
  have service : ∀ {result : ServiceResult} (type : CommandType),
      t.afterService result = some t' → type ≠ .retry → type ≠ .fork →
      (∀ s reply, result = .ok (s, reply) → s = t.store ∨
        TaskStore.Requested digests t.store s ∧ s.lastType = some type) →
      t'.store.task = t.store.task := by
    intro result type h hretry hfork hrequested
    obtain ⟨reply, hresult, -, -⟩ := afterService_eq_some h
    obtain hsame | ⟨hrequested, htype⟩ := hrequested _ _ hresult
    · rw [hsame]
    · exact hrequested.task_of_lastType htype hretry hfork
  cases label with
  | cancelTask key commandId now =>
      exact service .cancelTask hstep nofun nofun fun _ _ h => TaskStore.cancelTask_requested h
  | cancelRun runId key commandId now =>
      exact service .cancelRun hstep nofun nofun fun _ _ h => TaskStore.cancelRun_requested h
  | retryTask key runId commandId => cases hrestarts
  | forkTask sourceRunId checkpointId key runId commandId now => cases hrestarts
  | respondInterrupts submission key runId commandId now =>
      exact service .respond hstep nofun nofun fun _ _ h =>
        TaskStore.respondInterrupts_requested h
  | expire pauseId runId commandId now =>
      obtain ⟨store, hstore, rfl⟩ := Option.map_eq_some_iff.mp hstep
      obtain ⟨hrequested, htype⟩ := TaskStore.expireDueInterrupt_requested hstore
      exact hrequested.task_of_lastType htype nofun nofun
  | claim workerId runId now =>
      obtain ⟨⟨store, lease⟩, hstore, rfl⟩ := Option.map_eq_some_iff.mp hstep
      exact (TaskStore.claimNext_claims hstore).task_of_terminal hended
  | execute i event now =>
      obtain ⟨a, ha, hstep⟩ := Option.bind_eq_some_iff.mp hstep
      obtain ⟨⟨store, pc⟩, hstore, hstep⟩ := Option.bind_eq_some_iff.mp hstep
      cases hstep
      obtain (rfl | ⟨command, run, l, hlocks, heffect, rfl⟩) |
          ⟨command, status, task, hunassigned⟩ :=
        TaskStore.executeStep_cases (h.checked a (List.mem_of_getElem? ha)) hstore
      · rfl
      · exact (h.not_owned hended hlocks.mem hlocks.owned).elim
      · exact (h.not_owned hended hunassigned.mem hunassigned.owned).elim
  | releaseOwned workerId now =>
      cases hstep
      exact (TaskStore.releaseOwnedLeases_relaxed workerId now).task
  | reconcile commandId workerId now staleBefore leaseExpiresAt =>
      obtain ⟨⟨store, lease⟩, hstore, rfl⟩ := Option.map_eq_some_iff.mp hstep
      exact (TaskStore.reconcileClaim_relaxed h.toKeyed hstore).task
  | registerHandle i handle now =>
      obtain ⟨lease, -, hstep⟩ := Option.bind_eq_some_iff.mp hstep
      obtain ⟨⟨store, b⟩, hstore, hstep⟩ := Option.bind_eq_some_iff.mp hstep
      cases hstep
      exact (TaskStore.registerRemoteHandle_relaxed h.toKeyed hstore).task
  | observeAbsence i now =>
      obtain ⟨lease, -, hstep⟩ := Option.bind_eq_some_iff.mp hstep
      obtain ⟨⟨store, b⟩, hstore, hstep⟩ := Option.bind_eq_some_iff.mp hstep
      cases hstep
      exact (TaskStore.observeRemoteAbsence_relaxed h.toKeyed hstore).task
  | observeState i handle status now =>
      obtain ⟨lease, -, hstep⟩ := Option.bind_eq_some_iff.mp hstep
      obtain ⟨⟨store, b⟩, hstore, hstep⟩ := Option.bind_eq_some_iff.mp hstep
      cases hstep
      exact (TaskStore.observeRemoteState_relaxed h.toKeyed hstore).task
  | releaseReconciled i now =>
      obtain ⟨lease, -, hstep⟩ := Option.bind_eq_some_iff.mp hstep
      cases hstep
      exact (TaskStore.releaseReconciliation_relaxed h.toKeyed lease now).task

end TaskState

end CryptoAlert
