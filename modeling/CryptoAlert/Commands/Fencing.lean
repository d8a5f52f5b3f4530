import CryptoAlert.Commands.Digests
import CryptoAlert.Commands.Soundness

/-!
# Leases that were taken over

Each claim of a dispatcher has a token of its own, so that a dispatcher that was overtaken by
another is locked out for good. The reconciler takes a command over without a new token; that it
locks out the worker before it rests on the names of the workers alone.
-/

namespace CryptoAlert

namespace TaskStore

variable {cfg : DispatcherConfig} {digests : KeyDigests} {leases : List CommandLease}
  {s s' : TaskStore} {lease : CommandLease} {lease? : Option CommandLease}

section Owners

/-- No command changes hands; its owner may give it up. -/
def OwnersKept (s s' : TaskStore) : Prop :=
  ∀ c' ∈ s'.commands, (∀ c ∈ s.commands, c.id ≠ c'.id) ∨ ∃ c ∈ s.commands, c.id = c'.id ∧
    c'.attempt = c.attempt ∧ (c'.leaseOwner = c.leaseOwner ∨ c'.leaseOwner = none)

theorem OwnersKept.of_same (h : s'.commands = s.commands) : OwnersKept s s' := by
  intro c' hc'
  rw [h] at hc'
  exact .inr ⟨c', hc', rfl, rfl, .inl rfl⟩

theorem OwnersKept.put {c d : TaskCommand} (hc : c ∈ s.commands) (hid : c.id = d.id)
    (hattempt : d.attempt = c.attempt) (howner : d.leaseOwner = c.leaseOwner ∨ d.leaseOwner = none)
    (h : s'.commands = Table.put TaskCommand.id s.commands d) : OwnersKept s s' := by
  intro c' hc'
  rw [h] at hc'
  obtain ⟨hc', -⟩ | ⟨rfl, -⟩ := Table.mem_put.mp hc'
  · exact .inr ⟨c', hc', rfl, rfl, .inl rfl⟩
  · exact .inr ⟨c, hc, hid, hattempt, howner⟩

theorem OwnersKept.settle {c : TaskCommand} {status : CommandStatus} (hc : c ∈ s.commands)
    (h : s'.commands = Table.put TaskCommand.id s.commands (c.settle status)) :
    OwnersKept s s' :=
  .put (d := c.settle status) hc rfl rfl (.inr rfl) h

theorem closeCommands_owners {c' : TaskCommand} (h : c' ∈ closeCommands s.commands) :
    ∃ c ∈ s.commands, c.id = c'.id ∧ c'.attempt = c.attempt ∧
      (c'.leaseOwner = c.leaseOwner ∨ c'.leaseOwner = none) := by
  obtain ⟨c, hc, rfl⟩ := List.mem_map.mp h
  refine ⟨c, hc, ?_⟩
  split_ifs
  · exact ⟨rfl, rfl, .inr rfl⟩
  · exact ⟨rfl, rfl, .inl rfl⟩

theorem requested_owners (hr : Requested digests s s') : OwnersKept s s' := by
  have hclosed : ∀ {new : TaskCommand}, (∀ c ∈ s.commands, c.id ≠ new.id) →
      s'.commands = closeCommands s.commands ++ [new] → OwnersKept s s' := by
    intro new hfresh hcommands c' hc'
    rw [hcommands] at hc'
    obtain hc' | hc' := List.mem_append.mp hc'
    · exact .inr (closeCommands_owners hc')
    · rw [List.mem_singleton.mp hc']
      exact .inl hfresh
  have hinserted : ∀ {new : TaskCommand}, (∀ c ∈ s.commands, c.id ≠ new.id) →
      s'.commands = s.commands ++ [new] → OwnersKept s s' := by
    intro new hfresh hcommands c' hc'
    rw [hcommands] at hc'
    obtain hc' | hc' := List.mem_append.mp hc'
    · exact .inr ⟨c', hc', rfl, rfl, .inl rfl⟩
    · rw [List.mem_singleton.mp hc']
      exact .inl hfresh
  cases hr with
  | cancelTask key commandId now active idle fresh => exact hclosed fresh.id rfl
  | cancelRun run key commandId now found active idle unrequested fresh =>
      exact hclosed fresh.id rfl
  | retry source key hash runId commandId latest idle retryable status freshRun fresh =>
      exact hinserted fresh.id rfl
  | fork source checkpointId key hash runId commandId now s₁ found checkpoint active idle closed
      freshRun fresh =>
      obtain ⟨hcommands, -⟩ := cancelPendingPauseForFork_commands closed
      refine hinserted ?_ (congrArg (· ++ _) hcommands)
      rw [← hcommands]
      exact fresh.id
  | answer pause parent payload key runId commandId now pauseFound pending parentFound paused
      waiting waitingTask members payloadPause expiry freshRun fresh =>
      exact hinserted fresh.id rfl

/-- A command that a worker takes. -/
structure TakenBy (s s' : TaskStore) (c d : TaskCommand) (workerId : String) : Prop where
  mem : c ∈ s.commands
  id : d.id = c.id
  owner : d.leaseOwner = some workerId
  commands : s'.commands = Table.put TaskCommand.id s.commands d

theorem claims_owners {now : ℕ} (hc : Claims cfg s now s' lease?) :
    (OwnersKept s s' ∧ lease? = none) ∨ ∃ lease c d, lease? = some lease ∧
      TakenBy s s' c d lease.workerId ∧ lease.commandId = d.id ∧ lease.fenceToken = d.attempt := by
  cases hc with
  | idle => exact .inl ⟨.of_same rfl, rfl⟩
  | cancelled c next moot => exact .inl ⟨.settle (first_of_next next).mem rfl, rfl⟩
  | failed c code errorType message run s' next invalid fail =>
      obtain ⟨-, rfl⟩ | ⟨run', t, l, -, -, hp, rfl⟩ := failInvalid_eq_some fail
      · exact .inl ⟨.settle (first_of_next next).mem rfl, rfl⟩
      · have hcommands : (s.write l).commands =
            Table.put TaskCommand.id s.commands (c.settle .failed) := by
          rw [write, hp.command]
          rfl
        exact .inl ⟨.settle (first_of_next next).mem hcommands, rfl⟩
  | driven c workerId run s₁ lease next drives ensured leaseOf worker =>
      refine .inr ⟨lease, c, dispatched cfg now c workerId, rfl,
        ⟨(first_of_next next).mem, rfl, ?_, rfl⟩, leaseOf.commandId, leaseOf.fenceToken⟩
      rw [worker]
      rfl
  | cancelling c workerId run lease next cancels claimed leaseOf worker =>
      refine .inr ⟨lease, c, dispatched cfg now c workerId, rfl,
        ⟨(first_of_next next).mem, rfl, ?_, rfl⟩, leaseOf.commandId, leaseOf.fenceToken⟩
      rw [worker]
      rfl

theorem effect_owners {command : TaskCommand} {run : RunRow} {l : LockedRows}
    (hlocks : s.Locks lease command run)
    (heffect : (s.lock command run).Effect cfg digests s lease l) : OwnersKept s (s.write l) :=
  .put hlocks.mem heffect.command.id.symm heffect.command.attempt heffect.command.owner rfl

theorem releaseOwned_owners (workerId : String) (now : ℕ) :
    OwnersKept s (s.releaseOwnedLeases workerId now) := by
  intro c' hc'
  obtain ⟨c, hc, rfl⟩ := List.mem_map.mp hc'
  refine .inr ⟨c, hc, ?_⟩
  split_ifs
  · exact ⟨rfl, rfl, .inr rfl⟩
  · exact ⟨rfl, rfl, .inl rfl⟩

theorem underReconciliation_owners {lease : ReconciliationLease} {now : ℕ}
    {body : LockedRows → Option LockedRows} {b : Bool}
    (hbody : ∀ l l', body l = some l' → l'.command.id = l.command.id ∧
      l'.command.attempt = l.command.attempt ∧
      (l'.command.leaseOwner = l.command.leaseOwner ∨ l'.command.leaseOwner = none))
    (h : s.underReconciliation lease now body = some (s', b)) : OwnersKept s s' := by
  unfold underReconciliation at h
  cases hcommand : s.commands.find? fun c => c.isReconciledBy lease && c.isUnexpired now with
  | none =>
      simp only [hcommand, Option.some.injEq, Prod.mk.injEq] at h
      exact .of_same (by rw [← h.1])
  | some command =>
      cases hrun : s.findRun lease.productRunId with
      | none =>
          simp only [hcommand, hrun, Option.some.injEq, Prod.mk.injEq] at h
          exact .of_same (by rw [← h.1])
      | some run =>
          simp only [hcommand, hrun] at h
          split_ifs at h
          · cases h
            exact .of_same rfl
          · obtain ⟨l', hl, hs⟩ := Option.map_eq_some_iff.mp h
            cases hs
            obtain ⟨hid, hattempt, howner⟩ := hbody _ _ hl
            exact .put (List.mem_of_find?_eq_some hcommand) hid.symm hattempt howner rfl

theorem registerRemoteHandle_owners {lease : ReconciliationLease} {handle : RemoteRunHandle}
    {now : ℕ} {b : Bool} (h : s.registerRemoteHandle lease handle now = some (s', b)) :
    OwnersKept s s' := by
  refine underReconciliation_owners ?_ h
  intro l l' hl
  split_ifs at hl
  cases hl
  exact ⟨rfl, rfl, .inl rfl⟩

theorem observeRemoteAbsence_owners {lease : ReconciliationLease} {now : ℕ} {b : Bool}
    (h : s.observeRemoteAbsence lease now = some (s', b)) : OwnersKept s s' := by
  refine underReconciliation_owners ?_ h
  intro l l' hl
  cases hl
  exact ⟨rfl, rfl, .inl rfl⟩

theorem observeRemoteState_owners {lease : ReconciliationLease} {handle : RemoteRunHandle}
    {status : RemoteRunStatus} {now : ℕ} {b : Bool}
    (h : s.observeRemoteState lease handle status now = some (s', b)) : OwnersKept s s' := by
  refine underReconciliation_owners ?_ h
  intro l l' hl
  dsimp only at hl
  split_ifs at hl
  split at hl
  · split_ifs at hl
    cases hl
    exact ⟨rfl, rfl, .inr rfl⟩
  · cases hl
    exact ⟨rfl, rfl, .inr rfl⟩
  · cases hl

theorem releaseReconciliation_owners (lease : ReconciliationLease) (now : ℕ) :
    OwnersKept s (s.releaseReconciliation lease now).1 := by
  unfold releaseReconciliation
  cases hfound : Table.find TaskCommand.id s.commands lease.commandId with
  | none => exact .of_same rfl
  | some c =>
      dsimp only
      split_ifs
      · exact .put (d := c.release now) (Table.find_eq_some hfound).1 rfl rfl (.inr rfl) rfl
      · exact .of_same rfl

theorem reconcileClaim_owners {commandId now staleBefore leaseExpiresAt : ℕ} {workerId : String}
    {lease : ReconciliationLease}
    (h : s.reconcileClaim commandId workerId now staleBefore leaseExpiresAt = some (s', lease)) :
    ∃ c d, TakenBy s s' c d lease.workerId ∧ lease.commandId = d.id ∧
      lease.commandAttempt = d.attempt ∧ lease.workerId = workerId := by
  obtain ⟨c, hc, h⟩ := Option.bind_eq_some_iff.mp h
  obtain ⟨run, -, h⟩ := Option.bind_eq_some_iff.mp h
  split_ifs at h
  cases h
  exact ⟨c, { c with leaseOwner := some workerId, leaseExpiresAt := some leaseExpiresAt },
    ⟨(Table.find_eq_some hc).1, rfl, rfl, rfl⟩, rfl, rfl, rfl⟩

/-- A worker that owns no command changes nothing. -/
theorem executeStep_lost {pc pc' : Pc} {event : Event} {now : ℕ}
    (hchecked : ∀ t, pc = .finalizing t → lease.lacksArtifact t = false)
    (hlost : ∀ c ∈ s.commands, c.isOwnedBy lease = false)
    (h : s.executeStep cfg digests lease now pc event = some (s', pc')) : s' = s := by
  obtain (rfl | ⟨command, run, l, hlocks, -, -⟩) | ⟨command, status, task, hunassigned⟩ :=
    executeStep_cases hchecked h
  · rfl
  · have howned := hlost command hlocks.mem
    rw [hlocks.owned] at howned
    cases howned
  · have howned := hlost command hunassigned.mem
    rw [hunassigned.owned] at howned
    cases howned

theorem underReconciliation_lost {lease : ReconciliationLease} {now : ℕ}
    {body : LockedRows → Option LockedRows} {b : Bool}
    (hlost : ∀ c ∈ s.commands, c.isReconciledBy lease = false)
    (h : s.underReconciliation lease now body = some (s', b)) : s' = s := by
  have hnone : (s.commands.find? fun c => c.isReconciledBy lease && c.isUnexpired now) = none := by
    rw [List.find?_eq_none]
    intro c hc
    simp [hlost c hc]
  simp only [underReconciliation, hnone, Option.some.injEq, Prod.mk.injEq] at h
  exact h.1.symm

theorem releaseReconciliation_lost {lease : ReconciliationLease} {now : ℕ}
    (hlost : ∀ c ∈ s.commands, c.isReconciledBy lease = false) :
    (s.releaseReconciliation lease now).1 = s := by
  unfold releaseReconciliation
  cases hfound : Table.find TaskCommand.id s.commands lease.commandId with
  | none => rfl
  | some c => simp [hlost c (Table.find_eq_some hfound).1]

end Owners

end TaskStore

/-- A lease that was given out, by its number. -/
inductive Holder where
  | dispatcher (i : ℕ)
  | reconciler (i : ℕ)
deriving DecidableEq

namespace TaskState

variable {cfg : DispatcherConfig} {digests : KeyDigests} {t t' t₀ : TaskState}

/-- The command of a lease, the attempt under which it was given out and the name of its
worker. -/
def held (t : TaskState) : Holder → Option (ℕ × ℕ × String)
  | .dispatcher i => t.activations[i]?.map fun a =>
      (a.lease.commandId, a.lease.fenceToken, a.lease.workerId)
  | .reconciler i => t.reconciliations[i]?.map fun r => (r.commandId, r.commandAttempt, r.workerId)

/-- What a step does to the owners of the commands. -/
inductive OwnersStep (t t' : TaskState) : Prop where
  | kept (owners : TaskStore.OwnersKept t.store t'.store) (holders : ∀ h, t'.held h = t.held h)
  | taken (h : Holder) (c d : TaskCommand) (workerId : String) (fresh : t.held h = none)
      (holder : t'.held h = some (d.id, d.attempt, workerId))
      (takes : TaskStore.TakenBy t.store t'.store c d workerId)
      (others : ∀ h', h' ≠ h → t'.held h' = t.held h')

theorem held_congr {i : Holder} (ha : t'.leases = t.leases)
    (hr : t'.reconciliations = t.reconciliations) : t'.held i = t.held i := by
  cases i with
  | dispatcher i =>
      have hlease := congrArg (fun leases : List CommandLease => leases[i]?.map fun lease =>
        (lease.commandId, lease.fenceToken, lease.workerId)) ha
      simpa [leases, held, Function.comp_def] using hlease
  | reconciler i => rw [held, held, hr]

theorem owners_of_reconciliation {store : TaskStore} (h : TaskStore.OwnersKept t.store store) :
    OwnersStep t { t with store } :=
  .kept h fun _ => held_congr rfl rfl

theorem step_owners (hs : t.Sound) {label : TaskLabel} (h : t.step cfg digests label = some t') :
    OwnersStep t t' := by
  have service : ∀ {result : ServiceResult}, t.afterService result = some t' →
      (∀ s reply, result = .ok (s, reply) →
        s = t.store ∨ TaskStore.Requested digests t.store s) → OwnersStep t t' := by
    intro result h hrequested
    obtain ⟨reply, hresult, hactivations, hreconciliations⟩ := afterService_eq_some h
    refine .kept ?_ fun _ => held_congr (congrArg (List.map Activation.lease) hactivations)
      hreconciliations
    obtain hsame | hrequested := hrequested _ _ hresult
    · exact .of_same (by rw [hsame])
    · exact TaskStore.requested_owners hrequested
  cases label with
  | cancelTask key commandId now =>
      exact service h fun _ _ h => (TaskStore.cancelTask_requested h).imp_right And.left
  | cancelRun runId key commandId now =>
      exact service h fun _ _ h => (TaskStore.cancelRun_requested h).imp_right And.left
  | retryTask key runId commandId =>
      exact service h fun _ _ h => (TaskStore.retryTask_requested h).imp_right And.left
  | forkTask sourceRunId checkpointId key runId commandId now =>
      exact service h fun _ _ h => (TaskStore.forkTask_requested h).imp_right And.left
  | respondInterrupts submission key runId commandId now =>
      exact service h fun _ _ h => (TaskStore.respondInterrupts_requested h).imp_right And.left
  | expire pauseId runId commandId now =>
      obtain ⟨store, hstore, rfl⟩ := Option.map_eq_some_iff.mp h
      exact owners_of_reconciliation
        (TaskStore.requested_owners (TaskStore.expireDueInterrupt_requested hstore).1)
  | claim workerId runId now =>
      obtain ⟨⟨store, lease⟩, hstore, rfl⟩ := Option.map_eq_some_iff.mp h
      obtain ⟨howners, rfl⟩ | ⟨lease, c, d, rfl, htakes, hid, htoken⟩ :=
        TaskStore.claims_owners (TaskStore.claimNext_claims hstore)
      · exact .kept howners fun _ => held_congr (by simp [leases]) rfl
      · refine .taken (.dispatcher t.activations.length) c d lease.workerId ?_ ?_ htakes ?_
        · simp [held]
        · simp [held, hid, htoken]
        · intro h' hne
          cases h' with
          | dispatcher i =>
              have hi : i ≠ t.activations.length := fun heq => hne (congrArg Holder.dispatcher heq)
              exact congrArg (Option.map _) (Table.getElem?_append_of_ne hi)
          | reconciler i => rfl
  | execute i event now =>
      obtain ⟨a, ha, h⟩ := Option.bind_eq_some_iff.mp h
      obtain ⟨⟨store, pc⟩, hstore, h⟩ := Option.bind_eq_some_iff.mp h
      cases h
      refine .kept ?_ ?_
      · obtain (hsame | ⟨command, run, l, hlocks, heffect, hs⟩) |
          ⟨command, status, task, hunassigned⟩ :=
            TaskStore.executeStep_cases (hs.checked a (List.mem_of_getElem? ha)) hstore
        · exact .of_same (by rw [hsame])
        · rw [hs]
          exact TaskStore.effect_owners hlocks heffect
        · have hcommands : store.commands =
              Table.put TaskCommand.id t.store.commands (command.settle status) := by
            rw [hunassigned.store]
            rfl
          exact .settle hunassigned.mem hcommands
      · exact fun _ => held_congr (leases_set ha pc) rfl
  | releaseOwned workerId now =>
      cases h
      exact owners_of_reconciliation (TaskStore.releaseOwned_owners workerId now)
  | reconcile commandId workerId now staleBefore leaseExpiresAt =>
      obtain ⟨⟨store, lease⟩, hstore, rfl⟩ := Option.map_eq_some_iff.mp h
      obtain ⟨c, d, htakes, hid, hattempt, -⟩ := TaskStore.reconcileClaim_owners hstore
      refine .taken (.reconciler t.reconciliations.length) c d lease.workerId ?_ ?_ htakes ?_
      · simp [held]
      · simp [held, hid, hattempt]
      · intro h' hne
        cases h' with
        | dispatcher i => rfl
        | reconciler i =>
            have hi : i ≠ t.reconciliations.length := fun heq =>
              hne (congrArg Holder.reconciler heq)
            exact congrArg (Option.map _) (Table.getElem?_append_of_ne hi)
  | registerHandle i handle now =>
      obtain ⟨lease, -, h⟩ := Option.bind_eq_some_iff.mp h
      obtain ⟨⟨store, b⟩, hstore, h⟩ := Option.bind_eq_some_iff.mp h
      cases h
      exact owners_of_reconciliation (TaskStore.registerRemoteHandle_owners hstore)
  | observeAbsence i now =>
      obtain ⟨lease, -, h⟩ := Option.bind_eq_some_iff.mp h
      obtain ⟨⟨store, b⟩, hstore, h⟩ := Option.bind_eq_some_iff.mp h
      cases h
      exact owners_of_reconciliation (TaskStore.observeRemoteAbsence_owners hstore)
  | observeState i handle status now =>
      obtain ⟨lease, -, h⟩ := Option.bind_eq_some_iff.mp h
      obtain ⟨⟨store, b⟩, hstore, h⟩ := Option.bind_eq_some_iff.mp h
      cases h
      exact owners_of_reconciliation (TaskStore.observeRemoteState_owners hstore)
  | releaseReconciled i now =>
      obtain ⟨lease, -, h⟩ := Option.bind_eq_some_iff.mp h
      cases h
      exact owners_of_reconciliation (TaskStore.releaseReconciliation_owners lease now)

/-- The worker that holds a command took it after the state `t₀`. -/
def OwnedSince (t₀ : TaskState) (id : ℕ) (t : TaskState) : Prop :=
  ∃ c ∈ t.store.commands, c.id = id ∧ ∀ w, c.leaseOwner = some w →
    ∃ h, t₀.held h = none ∧ t.held h = some (id, c.attempt, w)

theorem OwnersStep.held_mono (h : OwnersStep t t') {i : Holder} (hi : t.held i ≠ none) :
    t'.held i = t.held i := by
  cases h with
  | kept owners holders => exact holders i
  | taken j c d workerId fresh holder takes others =>
      apply others
      rintro rfl
      exact hi fresh

theorem held_mono {ok : TaskState → TaskLabel → Prop}
    (hr : Reaches (TaskState.step cfg digests) ok t t') (hs : t.Sound) {i : Holder}
    (hi : t.held i ≠ none) : t'.held i = t.held i := by
  have hboth : t'.Sound ∧ t'.held i = t.held i := by
    refine hr.invariant (I := fun u => u.Sound ∧ u.held i = t.held i) ?_ ⟨hs, rfl⟩
    intro u label u' _ hu hstep
    refine ⟨hu.1.step hstep, ?_⟩
    rw [(step_owners hu.1 hstep).held_mono (by rw [hu.2]; exact hi), hu.2]
  exact hboth.2

/-- A step that gives the command out again was taken by the new worker. -/
theorem OwnersStep.ownedSince (h : OwnersStep t t') {i : Holder} {id attempt : ℕ} {w : String}
    (hfresh : t.held i = none) (hi : t'.held i = some (id, attempt, w)) : OwnedSince t id t' := by
  cases h with
  | kept owners holders =>
      rw [holders, hfresh] at hi
      cases hi
  | taken j c d workerId fresh holder takes others =>
      have hsame : i = j := by
        by_contra hne
        rw [others i hne, hfresh] at hi
        cases hi
      subst hsame
      rw [holder] at hi
      cases hi
      refine ⟨d, ?_, rfl, ?_⟩
      · rw [takes.commands]
        exact Table.mem_put_self takes.mem takes.id.symm
      · intro w' hw
        rw [takes.owner] at hw
        cases hw
        exact ⟨i, hfresh, holder⟩

theorem ownedSince_step (hs : t.Sound) {label : TaskLabel} {id : ℕ} (h : OwnedSince t₀ id t)
    (hmono : ∀ i, t.held i = none → t₀.held i = none) (hstep : t.step cfg digests label = some t') :
    OwnedSince t₀ id t' := by
  obtain ⟨c, hc, hid, howner⟩ := h
  have hs' := hs.step hstep
  obtain ⟨lease, hchange, -⟩ := step_change hs.toKeyed hs.checked hstep
  obtain ⟨c', hc', hcontinues⟩ := (hchange.grows hs.toKeyed).command hc
  have hid' : c'.id = id := hcontinues.id.trans hid
  have howners := step_owners hs hstep
  refine ⟨c', hc', hid', ?_⟩
  intro w hw
  cases howners with
  | kept owners holders =>
      obtain hfresh | ⟨c₁, hc₁, hid₁, hattempt, howner₁⟩ := owners c' hc'
      · exact absurd hcontinues.id.symm (hfresh c hc)
      · obtain rfl : c₁ = c := List.inj_on_of_nodup_map hs.commandIds hc₁ hc
          (hid₁.trans hcontinues.id)
        obtain howner₁ | howner₁ := howner₁
        · obtain ⟨i, hi, hheld⟩ := howner w (howner₁ ▸ hw)
          refine ⟨i, hi, ?_⟩
          rw [holders, hattempt]
          exact hheld
        · rw [howner₁] at hw
          cases hw
  | taken j c₁ d workerId fresh holder takes others =>
      have hcommands := hc'
      rw [takes.commands] at hcommands
      obtain ⟨hmem, hne⟩ | ⟨rfl, -⟩ := Table.mem_put.mp hcommands
      · obtain rfl : c' = c := List.inj_on_of_nodup_map hs.commandIds hmem hc hcontinues.id
        obtain ⟨i, hi, hheld⟩ := howner w hw
        refine ⟨i, hi, ?_⟩
        rw [others, hheld]
        rintro rfl
        rw [fresh] at hheld
        cases hheld
      · rw [takes.owner] at hw
        cases hw
        exact ⟨j, hmono j fresh, hid' ▸ holder⟩

end TaskState

/-- The processes behind the leases: the name that each process was started with, and the
process that each lease is given to. -/
structure Fleet where
  name : ℕ → String
  dispatcher : ℕ → ℕ
  reconciler : ℕ → ℕ

namespace Fleet

variable (f : Fleet)

/-- The name of a worker within its process. -/
def workerId : Holder → String
  | .dispatcher i => f.name (f.dispatcher i) ++ ":command"
  | .reconciler i => f.name (f.reconciler i) ++ ":projection"

/-- Whether two leases were given to one worker. -/
def SameWorker : Holder → Holder → Prop
  | .dispatcher i, .dispatcher j => f.dispatcher i = f.dispatcher j
  | .reconciler i, .reconciler j => f.reconciler i = f.reconciler j
  | _, _ => False

/-- A worker takes leases under its own name, and works on the last of them only. -/
def Runs (t : TaskState) : TaskLabel → Prop
  | .claim w _ _ => w = f.workerId (.dispatcher t.activations.length)
  | .reconcile _ w _ _ _ => w = f.workerId (.reconciler t.reconciliations.length)
  | .execute i _ _ => ∀ j, i < j → j < t.activations.length → f.dispatcher j ≠ f.dispatcher i
  | .registerHandle i _ _ | .observeAbsence i _ | .observeState i _ _ _ | .releaseReconciled i _ =>
      ∀ j, i < j → j < t.reconciliations.length → f.reconciler j ≠ f.reconciler i
  | _ => True

end Fleet

/-- The transactions of the worker of a lease. -/
def Holder.acts : Holder → TaskLabel → Prop
  | .dispatcher i, .execute j _ _ => i = j
  | .reconciler i, .registerHandle j _ _ | .reconciler i, .observeAbsence j _
  | .reconciler i, .observeState j _ _ _ | .reconciler i, .releaseReconciled j _ => i = j
  | _, _ => False

namespace TaskStore

variable {cfg : DispatcherConfig} {s s' : TaskStore}

/-- A claim gives the lease to the worker that made it. -/
theorem claimNext_workerId {workerId : String} {runId now : ℕ} {lease : CommandLease}
    (h : s.claimNext cfg workerId runId now = some (s', some lease)) :
    lease.workerId = workerId := by
  unfold claimNext at h
  cases hnext : s.nextCommand now with
  | none => simp [hnext] at h
  | some c =>
      simp only [hnext, claim] at h
      cases hclaimed : s.claimedRun c with
      | moot => simp [hclaimed] at h
      | invalid code errorType message run =>
          simp only [hclaimed] at h
          obtain ⟨s₁, -, hs⟩ := Option.map_eq_some_iff.mp h
          cases hs
      | run before =>
          simp only [hclaimed] at h
          obtain ⟨⟨s₁, run⟩, -, h⟩ := Option.bind_eq_some_iff.mp h
          dsimp only at h
          split_ifs at h
          · cases h
          · obtain ⟨⟨s₂, lease'⟩, hlease, h⟩ := Option.bind_eq_some_iff.mp h
            cases h
            exact (leaseCommand_eq_some hlease).2.1

end TaskStore

section Names

theorem append_toList_inj {a b x y : String} (h : a ++ x = b ++ y) :
    a.toList ++ x.toList = b.toList ++ y.toList := by
  rw [← String.toList_append, ← String.toList_append, h]

/-- No dispatcher has the name of a reconciler. -/
theorem command_ne_projection (a b : String) : a ++ ":command" ≠ b ++ ":projection" := by
  intro h
  have hlast := congrArg List.getLast? (append_toList_inj h)
  rw [List.getLast?_append, List.getLast?_append] at hlast
  exact absurd (show some 'd' = some 'n' from hlast) (by decide)

theorem append_string_cancel {a b x : String} (h : a ++ x = b ++ x) : a = b :=
  String.toList_inj.mp (List.append_cancel_right (append_toList_inj h))

end Names

namespace Fleet

variable {f : Fleet} {cfg : DispatcherConfig} {digests : KeyDigests} {t t' : TaskState}

/-- Workers with one name are one worker, if all processes have names of their own. -/
theorem sameWorker_of_workerId (hname : Function.Injective f.name) {i j : Holder}
    (h : f.workerId i = f.workerId j) : f.SameWorker i j := by
  cases i with
  | dispatcher i =>
      cases j with
      | dispatcher j => exact hname (append_string_cancel h)
      | reconciler j => exact absurd h (command_ne_projection _ _)
  | reconciler i =>
      cases j with
      | dispatcher j => exact absurd h.symm (command_ne_projection _ _)
      | reconciler j => exact hname (append_string_cancel h)

/-- Every lease carries the name of its worker. -/
structure Named (f : Fleet) (t : TaskState) : Prop where
  dispatchers : ∀ i a, t.activations[i]? = some a → a.lease.workerId = f.workerId (.dispatcher i)
  reconcilers : ∀ i r, t.reconciliations[i]? = some r → r.workerId = f.workerId (.reconciler i)

theorem Named.workerId (h : f.Named t) {i : Holder} {id attempt : ℕ} {w : String}
    (hi : t.held i = some (id, attempt, w)) : w = f.workerId i := by
  cases i with
  | dispatcher i =>
      obtain ⟨a, ha, heq⟩ := Option.map_eq_some_iff.mp hi
      cases heq
      exact h.dispatchers i a ha
  | reconciler i =>
      obtain ⟨r, hr, heq⟩ := Option.map_eq_some_iff.mp hi
      cases heq
      exact h.reconcilers i r hr

theorem Named.congr (h : f.Named t) (hleases : t'.leases = t.leases)
    (hreconciliations : t'.reconciliations = t.reconciliations) : f.Named t' := by
  refine ⟨?_, by rw [hreconciliations]; exact h.reconcilers⟩
  intro i a' ha'
  have hlease : t.leases[i]? = some a'.lease := by
    rw [← hleases, TaskState.leases, List.getElem?_map, ha']
    rfl
  rw [TaskState.leases, List.getElem?_map] at hlease
  obtain ⟨a, ha, heq⟩ := Option.map_eq_some_iff.mp hlease
  rw [← heq]
  exact h.dispatchers i a ha

theorem Named.step (h : f.Named t) {label : TaskLabel} (hruns : f.Runs t label)
    (hstep : t.step cfg digests label = some t') : f.Named t' := by
  have service : ∀ {result : ServiceResult}, t.afterService result = some t' → f.Named t' := by
    intro result hresult
    obtain ⟨-, -, hactivations, hreconciliations⟩ := TaskState.afterService_eq_some hresult
    exact h.congr (congrArg (List.map Activation.lease) hactivations) hreconciliations
  cases label with
  | cancelTask key commandId now => exact service hstep
  | cancelRun runId key commandId now => exact service hstep
  | retryTask key runId commandId => exact service hstep
  | forkTask sourceRunId checkpointId key runId commandId now => exact service hstep
  | respondInterrupts submission key runId commandId now => exact service hstep
  | expire pauseId runId commandId now =>
      obtain ⟨store, -, rfl⟩ := Option.map_eq_some_iff.mp hstep
      exact h.congr rfl rfl
  | claim workerId runId now =>
      obtain ⟨⟨store, lease⟩, hstore, rfl⟩ := Option.map_eq_some_iff.mp hstep
      cases lease with
      | none => exact h.congr (by simp [TaskState.leases]) rfl
      | some lease =>
          refine ⟨?_, h.reconcilers⟩
          intro i a ha
          by_cases hi : i = t.activations.length
          · subst hi
            simp only [Option.toList_some, List.map_cons, List.map_nil, List.getElem?_concat_length,
              Option.some.injEq] at ha
            rw [← ha]
            exact (TaskStore.claimNext_workerId hstore).trans hruns
          · exact h.dispatchers i a ((Table.getElem?_append_of_ne hi).symm.trans ha)
  | execute i event now =>
      obtain ⟨a, ha, hstep⟩ := Option.bind_eq_some_iff.mp hstep
      obtain ⟨⟨store, pc⟩, -, hstep⟩ := Option.bind_eq_some_iff.mp hstep
      cases hstep
      exact h.congr (TaskState.leases_set ha pc) rfl
  | releaseOwned workerId now =>
      cases hstep
      exact h.congr rfl rfl
  | reconcile commandId workerId now staleBefore leaseExpiresAt =>
      obtain ⟨⟨store, lease⟩, hstore, rfl⟩ := Option.map_eq_some_iff.mp hstep
      obtain ⟨-, -, -, -, -, hworker⟩ := TaskStore.reconcileClaim_owners hstore
      refine ⟨h.dispatchers, ?_⟩
      intro i r hr
      by_cases hi : i = t.reconciliations.length
      · subst hi
        simp only [List.getElem?_concat_length, Option.some.injEq] at hr
        rw [← hr]
        exact hworker.trans hruns
      · exact h.reconcilers i r ((Table.getElem?_append_of_ne hi).symm.trans hr)
  | registerHandle i handle now =>
      obtain ⟨lease, -, hstep⟩ := Option.bind_eq_some_iff.mp hstep
      obtain ⟨⟨store, b⟩, -, hstep⟩ := Option.bind_eq_some_iff.mp hstep
      cases hstep
      exact h.congr rfl rfl
  | observeAbsence i now =>
      obtain ⟨lease, -, hstep⟩ := Option.bind_eq_some_iff.mp hstep
      obtain ⟨⟨store, b⟩, -, hstep⟩ := Option.bind_eq_some_iff.mp hstep
      cases hstep
      exact h.congr rfl rfl
  | observeState i handle status now =>
      obtain ⟨lease, -, hstep⟩ := Option.bind_eq_some_iff.mp hstep
      obtain ⟨⟨store, b⟩, -, hstep⟩ := Option.bind_eq_some_iff.mp hstep
      cases hstep
      exact h.congr rfl rfl
  | releaseReconciled i now =>
      obtain ⟨lease, -, hstep⟩ := Option.bind_eq_some_iff.mp hstep
      cases hstep
      exact h.congr rfl rfl

/-- What fencing asks of a fleet, in every run of its workers: once a lease was taken over, its
worker writes nothing under it; and until the worker is given the command again, a release of
all of its leases leaves the command alone. -/
def Fences (f : Fleet) : Prop :=
  ∀ (cfg : DispatcherConfig) (digests : KeyDigests) (taskId commandId : ℕ) (threadId : String)
    (admission : Admission) (payloadHash : String) (t t₁ t₂ : TaskState) (label : TaskLabel)
    (i j : Holder) (id : ℕ),
    Reaches (TaskState.step cfg digests) f.Runs
      (.admitted taskId commandId threadId admission payloadHash) t →
    (t.held i).map Prod.fst = some id →
    f.Runs t label → t.step cfg digests label = some t₁ →
    t.held j = none → (t₁.held j).map Prod.fst = some id →
    Reaches (TaskState.step cfg digests) f.Runs t₁ t₂ →
    (∀ label' t₃, i.acts label' → f.Runs t₂ label' → t₂.step cfg digests label' = some t₃ →
      t₃.store = t₂.store) ∧
    ((∀ k, f.SameWorker i k → t.held k = none → (t₂.held k).map Prod.fst ≠ some id) →
      ∀ now, ∀ c ∈ t₂.store.commands, c.id = id →
        c ∈ (t₂.store.releaseOwnedLeases (f.workerId i) now).commands)

section Fenced

variable {t₀ : TaskState} {i : Holder} {id : ℕ}

/-- Who holds the command of an overtaken lease, if anybody does. -/
theorem holder_of_owned (hs : t.Sound) (hn : f.Named t) (ho : t₀.OwnedSince id t)
    {c : TaskCommand} (hc : c ∈ t.store.commands) (hid : c.id = id) {w : String}
    (hw : c.leaseOwner = some w) :
    ∃ k, t₀.held k = none ∧ t.held k = some (id, c.attempt, w) ∧ w = f.workerId k := by
  obtain ⟨c', hc', hid', howner⟩ := ho
  obtain rfl : c' = c := List.inj_on_of_nodup_map hs.commandIds hc' hc (hid'.trans hid.symm)
  obtain ⟨k, hk, hheld⟩ := howner w hw
  exact ⟨k, hk, hheld, hn.workerId hheld⟩

/-- An overtaken dispatcher owns no command: nobody else has its token. -/
theorem dispatcher_lost (hs : t.Sound) (hn : f.Named t) {n : ℕ} {a : Activation}
    (ha : t.activations[n]? = some a) (hheld : t₀.held (.dispatcher n) ≠ none)
    (ho : t₀.OwnedSince a.lease.commandId t) :
    ∀ c ∈ t.store.commands, c.isOwnedBy a.lease = false := by
  intro c hc
  by_contra howned
  rw [Bool.not_eq_false] at howned
  simp only [TaskCommand.isOwnedBy, Bool.and_eq_true, beq_iff_eq] at howned
  obtain ⟨⟨⟨hid, -⟩, howner⟩, htoken⟩ := howned
  obtain ⟨k, hk, hk', hw⟩ := holder_of_owned hs hn ho hc hid howner
  cases k with
  | dispatcher m =>
      obtain ⟨b, hb, heq⟩ := Option.map_eq_some_iff.mp hk'
      simp only [Prod.mk.injEq] at heq
      have hlease : ∀ {n : ℕ} {a : Activation}, t.activations[n]? = some a →
          (t.leases.map fun lease => (lease.commandId, lease.fenceToken))[n]? =
            some (a.lease.commandId, a.lease.fenceToken) := by
        intro n a ha
        rw [TaskState.leases, List.map_map, List.getElem?_map, ha]
        rfl
      have hsame : m = n := by
        have hm := hlease hb
        have hn := hlease ha
        rw [heq.1, heq.2.1, htoken] at hm
        obtain ⟨hlt, -⟩ := List.getElem?_eq_some_iff.mp hm
        exact (List.getElem?_inj hlt hs.tokens).mp (hm.trans hn.symm)
      exact hheld (hsame ▸ hk)
  | reconciler m =>
      rw [hn.dispatchers n a ha] at hw
      exact command_ne_projection _ _ hw

/-- An overtaken reconciler owns no command, since it only works on its last lease. -/
theorem reconciler_lost (hname : Function.Injective f.name) (hs : t.Sound) (hn : f.Named t)
    {n : ℕ} {r : ReconciliationLease} (hr : t.reconciliations[n]? = some r)
    (hlast : ∀ j, n < j → j < t.reconciliations.length → f.reconciler j ≠ f.reconciler n)
    (hheld : t₀.held (.reconciler n) ≠ none) (ho : t₀.OwnedSince r.commandId t) :
    ∀ c ∈ t.store.commands, c.isReconciledBy r = false := by
  intro c hc
  by_contra howned
  rw [Bool.not_eq_false] at howned
  simp only [TaskCommand.isReconciledBy, Bool.and_eq_true, beq_iff_eq] at howned
  obtain ⟨⟨⟨⟨hid, -⟩, howner⟩, -⟩, -⟩ := howned
  obtain ⟨k, hk, hk', hw⟩ := holder_of_owned hs hn ho hc hid howner
  rw [hn.reconcilers n r hr] at hw
  cases k with
  | dispatcher m => exact command_ne_projection _ _ hw.symm
  | reconciler m =>
      have hsame : f.reconciler n = f.reconciler m := sameWorker_of_workerId hname hw
      obtain ⟨b, hb, -⟩ := Option.map_eq_some_iff.mp hk'
      obtain ⟨hlt, -⟩ := List.getElem?_eq_some_iff.mp hb
      refine hlast m ?_ hlt hsame.symm
      -- The lease of the overtaken worker is an earlier one.
      rw [TaskState.held, Option.map_eq_none_iff, List.getElem?_eq_none_iff] at hk
      have hearlier : n < t₀.reconciliations.length := by
        by_contra hlate
        apply hheld
        rw [TaskState.held, List.getElem?_eq_none (by omega), Option.map_none]
      omega

theorem fences_of_injective (hname : Function.Injective f.name) : f.Fences := by
  intro cfg digests taskId commandId threadId admission payloadHash t t₁ t₂ label i j id hr hi
    hruns hstep hfresh hj hr₂
  have hs := TaskState.Sound.reaches hr (.admitted taskId commandId threadId admission payloadHash)
  have hs₁ := hs.step hstep
  have hnamed : f.Named t := by
    refine hr.invariant_of (I := TaskState.Sound) (J := f.Named) (fun _ _ _ _ h hstep => h.step hstep)
      (fun _ _ _ hok _ h hstep => h.step hok hstep) (.admitted _ _ _ _ _) ?_
    exact ⟨fun i a ha => by simp [TaskState.admitted] at ha,
      fun i r hr => by simp [TaskState.admitted] at hr⟩
  have hheld : t.held i ≠ none := by
    intro hnone
    rw [hnone] at hi
    cases hi
  obtain ⟨⟨id', attempt, w⟩, htaken, hid'⟩ := Option.map_eq_some_iff.mp hj
  obtain rfl : id' = id := hid'
  -- What holds from the takeover on.
  have hafter : t₂.Sound ∧ f.Named t₂ ∧ t.OwnedSince id' t₂ ∧
      ∀ k, t.held k ≠ none → t₂.held k = t.held k := by
    refine hr₂.invariant (I := fun u => u.Sound ∧ f.Named u ∧ t.OwnedSince id' u ∧
      ∀ k, t.held k ≠ none → u.held k = t.held k) ?_ ⟨hs₁, hnamed.step hruns hstep, ?_, ?_⟩
    · rintro u label u' hok ⟨hu, hnu, hou, hku⟩ hstep
      refine ⟨hu.step hstep, hnu.step hok hstep, TaskState.ownedSince_step hu hou ?_ hstep, ?_⟩
      · intro k hk
        by_contra hne
        rw [hku k hne] at hk
        exact hne hk
      · intro k hk
        rw [(TaskState.step_owners hu hstep).held_mono (by rw [hku k hk]; exact hk), hku k hk]
    · exact (TaskState.step_owners hs hstep).ownedSince hfresh htaken
    · exact fun k hk => (TaskState.step_owners hs hstep).held_mono hk
  obtain ⟨hs₂, hn₂, ho₂, hk₂⟩ := hafter
  have hi₂ : (t₂.held i).map Prod.fst = some id' := by
    rw [hk₂ i hheld]
    exact hi
  refine ⟨?_, ?_⟩
  · intro label' t₃ hacts hok hstep'
    cases i with
    | dispatcher n =>
        cases label' with
        | execute m event now =>
            obtain rfl : n = m := hacts
            obtain ⟨a, ha, hstep'⟩ := Option.bind_eq_some_iff.mp hstep'
            obtain ⟨⟨store, pc⟩, hstore, hstep'⟩ := Option.bind_eq_some_iff.mp hstep'
            cases hstep'
            simp only [TaskState.held, ha, Option.map_some, Option.some.injEq] at hi₂
            subst hi₂
            exact TaskStore.executeStep_lost (hs₂.checked a (List.mem_of_getElem? ha))
              (dispatcher_lost hs₂ hn₂ ha hheld ho₂) hstore
        | _ => exact hacts.elim
    | reconciler n =>
        have hlost : ∀ r, t₂.reconciliations[n]? = some r →
            (∀ j, n < j → j < t₂.reconciliations.length → f.reconciler j ≠ f.reconciler n) →
            ∀ c ∈ t₂.store.commands, c.isReconciledBy r = false := by
          intro r hr hlast
          simp only [TaskState.held, hr, Option.map_some, Option.some.injEq] at hi₂
          subst hi₂
          exact reconciler_lost hname hs₂ hn₂ hr hlast hheld ho₂
        cases label' with
        | registerHandle m handle now =>
            obtain rfl : n = m := hacts
            obtain ⟨r, hr, hstep'⟩ := Option.bind_eq_some_iff.mp hstep'
            obtain ⟨⟨store, b⟩, hstore, hstep'⟩ := Option.bind_eq_some_iff.mp hstep'
            cases hstep'
            exact TaskStore.underReconciliation_lost (hlost r hr hok) hstore
        | observeAbsence m now =>
            obtain rfl : n = m := hacts
            obtain ⟨r, hr, hstep'⟩ := Option.bind_eq_some_iff.mp hstep'
            obtain ⟨⟨store, b⟩, hstore, hstep'⟩ := Option.bind_eq_some_iff.mp hstep'
            cases hstep'
            exact TaskStore.underReconciliation_lost (hlost r hr hok) hstore
        | observeState m handle status now =>
            obtain rfl : n = m := hacts
            obtain ⟨r, hr, hstep'⟩ := Option.bind_eq_some_iff.mp hstep'
            obtain ⟨⟨store, b⟩, hstore, hstep'⟩ := Option.bind_eq_some_iff.mp hstep'
            cases hstep'
            exact TaskStore.underReconciliation_lost (hlost r hr hok) hstore
        | releaseReconciled m now =>
            obtain rfl : n = m := hacts
            obtain ⟨r, hr, hstep'⟩ := Option.bind_eq_some_iff.mp hstep'
            cases hstep'
            exact TaskStore.releaseReconciliation_lost (hlost r hr hok)
        | _ => exact hacts.elim
  · intro hagain now c hc hid
    rw [TaskStore.releaseOwnedLeases, List.mem_map]
    refine ⟨c, hc, if_neg ?_⟩
    rintro ⟨-, hw⟩
    obtain ⟨k, hk, hk', hworker⟩ := holder_of_owned hs₂ hn₂ ho₂ hc hid hw
    refine hagain k (sameWorker_of_workerId hname hworker) hk ?_
    rw [hk']
    rfl

end Fenced

end Fleet

section Overtaken

/-- A task whose command was just claimed. -/
noncomputable def claimedTask (w : String) : TaskState :=
  (plainTask.step plainDispatcher plainDigests (.claim w 3 0)).get rfl

/-- The same after a reconciler took the command over. -/
noncomputable def reconciledTask (w w' : String) : TaskState :=
  ((claimedTask w).step plainDispatcher plainDigests (.reconcile 2 w' 40 10 70)).get rfl

/-- The same after a second reconciler took it over from the first. -/
noncomputable def overtakenTask (w w' w'' : String) : TaskState :=
  ((reconciledTask w w').step plainDispatcher plainDigests (.reconcile 2 w'' 80 50 110)).get rfl

theorem reaches_reconciledTask {ok : TaskState → TaskLabel → Prop} {w w' : String}
    (hclaim : ok plainTask (.claim w 3 0))
    (hreconcile : ok (claimedTask w) (.reconcile 2 w' 40 10 70)) :
    Reaches (TaskState.step plainDispatcher plainDigests) ok plainTask (reconciledTask w w') := by
  have hclaimed : Reaches (TaskState.step plainDispatcher plainDigests) ok plainTask
      (claimedTask w) := Reaches.refl.tail _ hclaim rfl
  exact hclaimed.tail _ hreconcile rfl

/-- A reconciler that was overtaken by one of its own name releases the lease of the other. -/
theorem overtaken_release (w w' : String) : ∃ t,
    (overtakenTask w w' w').step plainDispatcher plainDigests (.releaseReconciled 0 90) = some t ∧
      t.store ≠ (overtakenTask w w' w').store := by
  obtain ⟨r, hr⟩ : ∃ r, (overtakenTask w w' w').reconciliations[0]? = some r := ⟨_, rfl⟩
  obtain ⟨c, hc⟩ : ∃ c, Table.find TaskCommand.id (overtakenTask w w' w').store.commands
      r.commandId = some c := by
    cases hr
    exact ⟨_, rfl⟩
  have howner : (overtakenTask w w' w').store.commands.map TaskCommand.leaseOwner = [some w'] := rfl
  have howned : c.isReconciledBy r := by
    cases hr
    cases hc
    simp only [TaskCommand.isReconciledBy, Bool.and_eq_true, beq_iff_eq]
    exact ⟨⟨⟨⟨rfl, rfl⟩, rfl⟩, rfl⟩, rfl⟩
  have hrelease : ((overtakenTask w w' w').store.releaseReconciliation r 90).1 =
      (overtakenTask w w' w').store.putCommand (c.release 90) := by
    simp only [TaskStore.releaseReconciliation, hc, howned, if_true]
  refine ⟨{ overtakenTask w w' w' with
    store := ((overtakenTask w w' w').store.releaseReconciliation r 90).1 }, ?_, ?_⟩
  · cases hr
    rfl
  · intro hsame
    rw [hrelease] at hsame
    have hcommands := congrArg (fun s => s.commands.map TaskCommand.leaseOwner) hsame
    dsimp only at hcommands
    rw [howner] at hcommands
    cases hr
    cases hc
    cases hcommands

end Overtaken

namespace Fleet

/-- Leases that were taken over are fenced off in every run if and only if no two processes were
started with one name. -/
theorem fences_iff (name : ℕ → String) :
    (∀ dispatcher reconciler, (Fleet.mk name dispatcher reconciler).Fences) ↔
      Function.Injective name := by
  refine ⟨?_, fun hname _ _ => fences_of_injective hname⟩
  intro hfences p q hpq
  by_contra hne
  let f : Fleet := ⟨name, fun _ => p, fun j => if j = 0 then p else q⟩
  have hreaches : Reaches (TaskState.step plainDispatcher plainDigests) f.Runs plainTask
      (reconciledTask (name p ++ ":command") (name p ++ ":projection")) :=
    reaches_reconciledTask rfl rfl
  obtain ⟨t, hstep, hchanged⟩ :=
    overtaken_release (name p ++ ":command") (name p ++ ":projection")
  have hfenced := hfences f.dispatcher f.reconciler plainDispatcher plainDigests _ _ _ _ _ _ _ _
    (.reconcile 2 (name p ++ ":projection") 80 50 110) (.reconciler 0) (.reconciler 1) 2 hreaches
    rfl (congrArg (· ++ ":projection") hpq) rfl rfl rfl .refl
  refine hchanged (hfenced.1 (.releaseReconciled 0 90) t rfl ?_ hstep)
  intro j hj _
  change (if j = 0 then p else q) ≠ p
  rw [if_neg (by omega)]
  exact fun h => hne h.symm

/-- Two replicas of one worker: the second reconciles the command while the first still does, and
the first registers the run that it found. -/
theorem replicas_not_fenced :
    ¬ (⟨fun _ => "production-worker", id, id⟩ : Fleet).Fences := by
  intro hfences
  have hreaches : Reaches (TaskState.step plainDispatcher plainDigests)
      (⟨fun _ => "production-worker", id, id⟩ : Fleet).Runs plainTask
      (reconciledTask "production-worker:command" "production-worker:projection") :=
    reaches_reconciledTask rfl rfl
  have hfenced := hfences plainDispatcher plainDigests _ _ _ _ _ _ _ _
    (.reconcile 2 "production-worker:projection" 80 50 110) (.reconciler 0) (.reconciler 1) 2
    hreaches rfl rfl rfl rfl rfl .refl
  have hchanged : ((overtakenTask "production-worker:command" "production-worker:projection"
      "production-worker:projection").step plainDispatcher plainDigests
        (.registerHandle 0 plainHandle 90)).any (fun t =>
          t.store.runs.map RunRow.officialRunId == [some "run"]) = true := by
    decide +kernel
  obtain ⟨t, hstep, hregistered⟩ := (Option.any_eq_true _ _).mp hchanged
  have hsame := hfenced.1 (.registerHandle 0 plainHandle 90) t rfl ?_ hstep
  · rw [hsame] at hregistered
    exact absurd hregistered (by decide +kernel)
  · intro j hj _
    exact fun h => hj.ne h.symm

end Fleet

end CryptoAlert
