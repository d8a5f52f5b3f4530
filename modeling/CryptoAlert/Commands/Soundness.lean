import CryptoAlert.Commands.Changes

/-!
# Invariants of all tasks

Whatever steps a task takes, its rows keep their keys, only the first live command is being
worked on, the task of that command is one whose commands are claimed, and no run was ever
projected under the sequence number of a live command or a later one. Every lease names a
command that has it by its token.
-/

namespace CryptoAlert

/-- What all steps keep of a command. -/
structure TaskCommand.Continues (c c' : TaskCommand) : Prop where
  id : c'.id = c.id
  payload : c'.payload = c.payload
  payloadHash : c'.payloadHash = c.payloadHash
  sequence : c'.sequence = c.sequence
  idempotencyKey : c'.idempotencyKey = c.idempotencyKey
  attempt : c.attempt ≤ c'.attempt

theorem TaskCommand.Continues.refl (c : TaskCommand) : c.Continues c :=
  ⟨rfl, rfl, rfl, rfl, rfl, le_rfl⟩

theorem TaskCommand.Kept.continues {c c' : TaskCommand} (h : c.Kept c') : c.Continues c' :=
  ⟨h.id, h.payload, h.payloadHash, h.sequence, h.idempotencyKey, h.attempt.ge⟩

theorem TaskCommand.SameIdentity.continues {c c' : TaskCommand} (h : c.SameIdentity c') :
    c.Continues c' :=
  ⟨h.id, h.payload, h.payloadHash, h.sequence, h.idempotencyKey, h.attempt.ge⟩

/-- The lease that holds the current claim of a command, whoever the worker is. -/
def TaskCommand.IsCurrent (c : TaskCommand) (lease : CommandLease) : Prop :=
  c.id = lease.commandId ∧ c.status = .dispatching ∧ c.attempt = lease.fenceToken

theorem TaskCommand.isCurrent_of_owned {c : TaskCommand} {lease : CommandLease}
    (h : c.isOwnedBy lease) : c.IsCurrent lease := by
  simp only [isOwnedBy, Bool.and_eq_true, beq_iff_eq] at h
  exact ⟨h.1.1.1, h.1.1.2, h.2⟩

namespace TaskStore

section Growth

/-- Rows keep their identity, and at most one run and one command are inserted. -/
structure Grows (s s' : TaskStore) : Prop where
  runs : ∃ kept new, s'.runs = kept ++ new ∧ List.Forall₂ RunRow.SameIdentity s.runs kept ∧
    (new = [] ∨ ∃ r, new = [r] ∧ s.FreshRun r)
  commands : ∃ kept new, s'.commands = kept ++ new ∧
    List.Forall₂ TaskCommand.Continues s.commands kept ∧
    (new = [] ∨ ∃ c, new = [c] ∧ s.FreshCommand c ∧ c.sequence = s.maxSequence + 1 ∧
      c.status = .pending ∧ c.attempt = 0)
  admission : s'.task.toAdmission = s.task.toAdmission

variable {cfg : DispatcherConfig} {digests : KeyDigests} {leases : List CommandLease}
  {s s' : TaskStore} {lease : Option CommandLease}

theorem sameRuns (s : TaskStore) : List.Forall₂ RunRow.SameIdentity s.runs s.runs :=
  List.forall₂_same.mpr fun r _ => .refl r

theorem sameCommands (s : TaskStore) : List.Forall₂ TaskCommand.Continues s.commands s.commands :=
  List.forall₂_same.mpr fun c _ => .refl c

/-- Nothing is inserted. -/
theorem Grows.of_kept (hruns : List.Forall₂ RunRow.SameIdentity s.runs s'.runs)
    (hcommands : List.Forall₂ TaskCommand.Continues s.commands s'.commands)
    (hadmission : s'.task.toAdmission = s.task.toAdmission) : s.Grows s' :=
  ⟨⟨s'.runs, [], (List.append_nil _).symm, hruns, .inl rfl⟩,
    ⟨s'.commands, [], (List.append_nil _).symm, hcommands, .inl rfl⟩, hadmission⟩

theorem putRun_kept (hk : s.Keyed) {run run' : RunRow} (hrun : run ∈ s.runs)
    (h : run.SameIdentity run') :
    List.Forall₂ RunRow.SameIdentity s.runs (Table.put RunRow.id s.runs run') :=
  Table.forall₂_put RunRow.SameIdentity.refl hk.runIds hrun h.id h

theorem putCommand_kept (hk : s.Keyed) {c c' : TaskCommand} (hc : c ∈ s.commands)
    (h : c.Continues c') :
    List.Forall₂ TaskCommand.Continues s.commands (Table.put TaskCommand.id s.commands c') :=
  Table.forall₂_put TaskCommand.Continues.refl hk.commandIds hc h.id h

theorem settle_continues (c : TaskCommand) (status : CommandStatus) :
    c.Continues (c.settle status) := ⟨rfl, rfl, rfl, rfl, rfl, le_rfl⟩

theorem closeCommands_kept (s : TaskStore) :
    List.Forall₂ TaskCommand.Continues s.commands (closeCommands s.commands) := by
  rw [closeCommands, List.forall₂_map_right_iff, List.forall₂_same]
  intro c _
  by_cases h : isClosable c
  · rw [if_pos h]
    exact settle_continues c _
  · rw [if_neg h]
    exact .refl c

/-- Closing the pause for a fork changes at most the status of one run. -/
theorem cancelPendingPauseForFork_runs (hk : s.Keyed) {now : ℕ}
    (h : s.cancelPendingPauseForFork now = .ok s') :
    List.Forall₂ RunRow.SameIdentity s.runs s'.runs := by
  obtain ⟨rfl, -⟩ | ⟨pause, run, -, -, -, -, hrun, -, rfl⟩ := cancelPendingPauseForFork_cases h
  · exact sameRuns s'
  · exact putRun_kept hk (Table.find_eq_some hrun).1 ⟨rfl, rfl, rfl, rfl, rfl, rfl⟩

/-- A run that is fresh after rows were rewritten was fresh before. -/
theorem FreshRun.of_kept {r : RunRow} (hruns : List.Forall₂ RunRow.SameIdentity s.runs s'.runs)
    (h : s'.FreshRun r) : s.FreshRun r := by
  refine ⟨?_, ?_, ?_, ?_⟩
  · intro r' hr'
    obtain ⟨r'', hr'', hsame⟩ := Table.exists_of_forall₂' hruns hr'
    rw [← hsame.id]
    exact h.id r'' hr''
  · intro r' hr'
    obtain ⟨r'', hr'', hsame⟩ := Table.exists_of_forall₂' hruns hr'
    rw [← hsame.attempt]
    exact h.attempt r'' hr''
  · intro hsome r' hr'
    obtain ⟨r'', hr'', hsame⟩ := Table.exists_of_forall₂' hruns hr'
    rw [← hsame.resumeOf]
    exact h.resumeOf hsome r'' hr''
  · intro hsome r' hr'
    obtain ⟨r'', hr'', hsame⟩ := Table.exists_of_forall₂' hruns hr'
    rw [← hsame.retryOf]
    exact h.retryOf hsome r'' hr''

theorem FreshRun.of_identity {r r' : RunRow} (h : s.FreshRun r) (hsame : r.SameIdentity r') :
    s.FreshRun r' := by
  refine ⟨?_, ?_, ?_, ?_⟩
  · rw [hsame.id]
    exact h.id
  · rw [hsame.attempt]
    exact h.attempt
  · rw [hsame.resumeOf]
    exact h.resumeOf
  · rw [hsame.retryOf]
    exact h.retryOf

theorem Requested.grows (hk : s.Keyed) (h : Requested digests s s') : s.Grows s' := by
  cases h with
  | cancelTask key commandId now active idle fresh =>
      refine ⟨⟨_, [], (List.append_nil _).symm, ?_, .inl rfl⟩,
        ⟨_, _, rfl, closeCommands_kept s, .inr ⟨_, rfl, fresh, rfl, rfl, rfl⟩⟩, rfl⟩
      cases hlatest : s.latestRun with
      | none => exact sameRuns s
      | some run => exact putRun_kept hk (latestRun_mem hlatest) ⟨rfl, rfl, rfl, rfl, rfl, rfl⟩
  | cancelRun run key commandId now found active idle unrequested fresh =>
      exact ⟨⟨_, [], (List.append_nil _).symm,
          putRun_kept hk (Table.find_eq_some found).1 ⟨rfl, rfl, rfl, rfl, rfl, rfl⟩, .inl rfl⟩,
        ⟨_, _, rfl, closeCommands_kept s, .inr ⟨_, rfl, fresh, rfl, rfl, rfl⟩⟩, rfl⟩
  | retry source key hash runId commandId latest idle retryable status freshRun fresh =>
      exact ⟨⟨_, _, rfl, sameRuns s, .inr ⟨_, rfl, freshRun⟩⟩,
        ⟨_, _, rfl, sameCommands s, .inr ⟨_, rfl, fresh, rfl, rfl, rfl⟩⟩, rfl⟩
  | fork source checkpointId key hash runId commandId now s₁ found checkpoint active idle closed
      freshRun fresh =>
      have hruns := cancelPendingPauseForFork_runs hk closed
      obtain ⟨hcommands, htask⟩ := cancelPendingPauseForFork_commands closed
      have hmax : s₁.maxSequence = s.maxSequence := by rw [maxSequence, maxSequence, hcommands]
      refine ⟨⟨s₁.runs, _, rfl, hruns, .inr ⟨_, rfl, freshRun.of_kept hruns⟩⟩,
        ⟨s₁.commands, _, rfl, ?_, .inr ⟨_, rfl, ⟨?_, ?_⟩, ?_, rfl, rfl⟩⟩, ?_⟩
      · rw [hcommands]
        exact sameCommands s
      · rw [← hcommands]
        exact fresh.id
      · rw [← hcommands]
        exact fresh.key
      · exact congrArg (· + 1) hmax
      · change s₁.task.toAdmission = s.task.toAdmission
        rw [htask]
  | answer pause parent payload key runId commandId now pauseFound pending parentFound paused
      waiting waitingTask members payloadPause expiry freshRun fresh =>
      exact ⟨⟨_, _, rfl, sameRuns s, .inr ⟨_, rfl, freshRun⟩⟩,
        ⟨_, _, rfl, sameCommands s, .inr ⟨_, rfl, fresh, rfl, rfl, rfl⟩⟩, rfl⟩

theorem dispatched_continues (cfg : DispatcherConfig) (now : ℕ) (c : TaskCommand)
    (workerId : String) : c.Continues (dispatched cfg now c workerId) :=
  ⟨rfl, rfl, rfl, rfl, rfl, Nat.le_succ _⟩

theorem driveRun_identity (cfg : DispatcherConfig) (type : CommandType) (run : RunRow) (now : ℕ) :
    run.SameIdentity (driveRun cfg type run now) := by
  unfold driveRun
  dsimp only
  split_ifs <;> exact ⟨rfl, rfl, rfl, rfl, rfl, rfl⟩

theorem Claims.grows (hk : s.Keyed) {now : ℕ} (h : Claims cfg s now s' lease) : s.Grows s' := by
  cases h with
  | idle => exact .of_kept (sameRuns s) (sameCommands s) rfl
  | cancelled c next moot =>
      exact .of_kept (sameRuns s)
        (putCommand_kept hk (nextCommand_eq_some next).2.1 (settle_continues c _)) rfl
  | failed c code errorType message run s' next invalid fail =>
      have hmem := (nextCommand_eq_some next).2.1
      obtain ⟨-, rfl⟩ | ⟨run', t, l, hrun, -, hp, rfl⟩ := failInvalid_eq_some fail
      · exact .of_kept (sameRuns s) (putCommand_kept hk hmem (settle_continues c _)) rfl
      · refine .of_kept (putRun_kept hk (claimedRun_invalid_mem invalid run' hrun) hp.identity)
          (putCommand_kept hk hmem ?_) ?_
        · rw [hp.command]
          exact settle_continues c _
        · change l.task.toAdmission = s.task.toAdmission
          rw [hp.task]
          rfl
  | driven c workerId run s₁ lease next drives ensured leaseOf worker =>
      have hcommands := putCommand_kept hk (nextCommand_eq_some next).2.1
        (dispatched_continues cfg now c workerId)
      cases ensured with
      | found claimed =>
          exact .of_kept (putRun_kept hk (claimedRun_mem claimed) (driveRun_identity cfg _ run now))
            hcommands rfl
      | inserted runId submit none fresh first =>
          have hdriven := driveRun_identity cfg c.commandType run now
          refine ⟨⟨s.runs, [driveRun cfg c.commandType run now], ?_, sameRuns s,
            .inr ⟨_, rfl, ?_⟩⟩, ⟨_, [], (List.append_nil _).symm, hcommands, .inl rfl⟩, rfl⟩
          · apply Table.put_append_fresh
            · intro r hr
              rw [hdriven.id]
              exact fresh.id r hr
            · exact hdriven.id.symm
          · exact fresh.of_identity hdriven
  | cancelling c workerId run lease next cancels claimed leaseOf worker =>
      exact .of_kept (sameRuns s) (putCommand_kept hk (nextCommand_eq_some next).2.1
        (dispatched_continues cfg now c workerId)) rfl

theorem effect_kept (hk : s.Keyed) {lease : CommandLease} {command : TaskCommand} {run : RunRow}
    {l : LockedRows} (hlocks : s.Locks lease command run)
    (heffect : (s.lock command run).Effect cfg digests s lease l) : s.Grows (s.write l) :=
  .of_kept (putRun_kept hk (Table.find_eq_some hlocks.found).1 heffect.identity)
    (putCommand_kept hk hlocks.mem heffect.command.continues) heffect.admission

/-- Every change keeps the rows and inserts at most one run and one command. -/
theorem Change.grows (hk : s.Keyed) (h : Change cfg digests leases s s' lease) : s.Grows s' := by
  cases h with
  | relaxed relaxed =>
      exact .of_kept (relaxed.runs.imp fun _ _ h => h.toSameIdentity)
        (relaxed.commands.imp fun _ _ h => h.continues)
        (congrArg TaskRow.toAdmission relaxed.task)
  | requested requested => exact requested.grows hk
  | claimed now claims => exact claims.grows hk
  | effect issued locks effect => exact effect_kept hk locks effect
  | unassigned issued unassigned =>
      rw [unassigned.store]
      refine .of_kept (sameRuns s) (putCommand_kept hk unassigned.mem (settle_continues _ _)) ?_
      obtain ⟨htask, -⟩ | ⟨terminal, -, now, htask⟩ := unassigned.decides <;> rw [htask]

theorem le_maxSequence {c : TaskCommand} (hc : c ∈ s.commands) : c.sequence ≤ s.maxSequence :=
  Table.le_maxOf hc

theorem Grows.keyed (h : s.Grows s') (hk : s.Keyed) : s'.Keyed := by
  obtain ⟨kept, new, hruns, hkept, hnew⟩ := h.runs
  obtain ⟨keptC, newC, hcommands, hkeptC, hnewC⟩ := h.commands
  have hrunIds : kept.map RunRow.id = s.runs.map RunRow.id :=
    Table.map_eq_of_forall₂ (fun _ _ h => h.id) hkept
  have hattempts : kept.map RunRow.attempt = s.runs.map RunRow.attempt :=
    Table.map_eq_of_forall₂ (fun _ _ h => h.attempt) hkept
  have hids : keptC.map TaskCommand.id = s.commands.map TaskCommand.id :=
    Table.map_eq_of_forall₂ (fun _ _ h => h.id) hkeptC
  have hsequences : keptC.map TaskCommand.sequence = s.commands.map TaskCommand.sequence :=
    Table.map_eq_of_forall₂ (fun _ _ h => h.sequence) hkeptC
  refine ⟨?_, ?_, ?_, ?_⟩
  · rw [hruns]
    obtain rfl | ⟨r, rfl, hfresh⟩ := hnew
    · simpa [hrunIds] using hk.runIds
    · apply Table.nodup_insert
      · rw [hrunIds]
        exact hk.runIds
      · intro r' hr'
        obtain ⟨r₀, hr₀, hsame⟩ := Table.exists_of_forall₂ hkept hr'
        rw [hsame.id]
        exact hfresh.id r₀ hr₀
  · rw [hruns]
    obtain rfl | ⟨r, rfl, hfresh⟩ := hnew
    · simpa [hattempts] using hk.attempts
    · apply Table.nodup_insert
      · rw [hattempts]
        exact hk.attempts
      · intro r' hr'
        obtain ⟨r₀, hr₀, hsame⟩ := Table.exists_of_forall₂ hkept hr'
        rw [hsame.attempt]
        exact hfresh.attempt r₀ hr₀
  · rw [hcommands]
    obtain rfl | ⟨c, rfl, hfresh, -⟩ := hnewC
    · simpa [hids] using hk.commandIds
    · apply Table.nodup_insert
      · rw [hids]
        exact hk.commandIds
      · intro c' hc'
        obtain ⟨c₀, hc₀, hsame⟩ := Table.exists_of_forall₂ hkeptC hc'
        rw [hsame.id]
        exact hfresh.id c₀ hc₀
  · rw [hcommands]
    obtain rfl | ⟨c, rfl, -, hsequence, -⟩ := hnewC
    · simpa [hsequences] using hk.sequences
    · apply Table.nodup_insert
      · rw [hsequences]
        exact hk.sequences
      · intro c' hc'
        obtain ⟨c₀, hc₀, hsame⟩ := Table.exists_of_forall₂ hkeptC hc'
        have hle := le_maxSequence hc₀
        rw [hsame.sequence, hsequence]
        omega

/-- No command is ever deleted. -/
theorem Grows.command (h : s.Grows s') {c : TaskCommand} (hc : c ∈ s.commands) :
    ∃ c' ∈ s'.commands, c.Continues c' := by
  obtain ⟨kept, new, hcommands, hkept, -⟩ := h.commands
  obtain ⟨c', hc', hcontinues⟩ := Table.exists_of_forall₂' hkept hc
  refine ⟨c', ?_, hcontinues⟩
  rw [hcommands]
  exact List.mem_append_left _ hc'

theorem Grows.run (h : s.Grows s') {r : RunRow} (hr : r ∈ s.runs) :
    ∃ r' ∈ s'.runs, r.SameIdentity r' := by
  obtain ⟨kept, new, hruns, hkept, -⟩ := h.runs
  obtain ⟨r', hr', hsame⟩ := Table.exists_of_forall₂' hkept hr
  refine ⟨r', ?_, hsame⟩
  rw [hruns]
  exact List.mem_append_left _ hr'

/-- The sequence numbers only go up. -/
theorem Grows.maxSequence_le (h : s.Grows s') : s.maxSequence ≤ s'.maxSequence := by
  apply Table.maxOf_le
  intro c hc
  obtain ⟨c', hc', hcontinues⟩ := h.command hc
  rw [← hcontinues.sequence]
  exact le_maxSequence hc'

end Growth

section Sound

theorem target_of_submit {c : TaskCommand} (h : c.commandType = .submit) :
    target c.payload = none := by
  unfold TaskCommand.commandType at h
  cases hpayload : c.payload with
  | submit request => rfl
  | respond payload => rfl
  | cancelTask id => rfl
  | fork payload => simp [hpayload, CommandPayload.commandType] at h
  | retry payload => simp [hpayload, CommandPayload.commandType] at h
  | cancelRun id => simp [hpayload, CommandPayload.commandType] at h

/-- A lease that was given out on a command. -/
structure GivenOn (s : TaskStore) (lease : CommandLease) (c : TaskCommand) : Prop where
  mem : c ∈ s.commands
  commandId : lease.commandId = c.id
  commandType : lease.commandType = c.commandType
  commandSequence : lease.commandSequence = c.sequence
  fenceToken : lease.fenceToken ≤ c.attempt
  respondPayload : lease.respondPayload = respondPayloadOf c
  taskType : lease.taskType = s.task.taskType
  run : ∀ runId, lease.productRunId = some runId → ∃ r ∈ s.runs, r.id = runId
  target : ∀ runId, target c.payload = some runId → lease.productRunId = some runId

/-- What holds of the rows of a task. -/
structure SoundRows (s : TaskStore) : Prop where
  /-- Only the first live command is being worked on. -/
  ordered : ∀ c ∈ s.commands, c.status = .dispatching → ∀ d ∈ s.commands, d.isLive →
    c.sequence ≤ d.sequence
  claimable : ∀ c ∈ s.commands, c.status = .dispatching → isClaimable s.task.status
  fenced : ∀ r ∈ s.runs, ∀ c ∈ s.commands, c.isLive → r.projectionFence < c.sequence
  bounded : ∀ r ∈ s.runs, r.projectionFence ≤ s.maxSequence
  positive : ∀ c ∈ s.commands, 0 < c.sequence

/-- What holds of the rows, and of all leases that were ever given out on them. -/
structure Sound (s : TaskStore) (leases : List CommandLease) : Prop extends Keyed s,
    SoundRows s where
  given : ∀ lease ∈ leases, ∃ c, s.GivenOn lease c
  tokens : (leases.map fun lease => (lease.commandId, lease.fenceToken)).Nodup

variable {cfg : DispatcherConfig} {digests : KeyDigests} {leases : List CommandLease}
  {s s' : TaskStore} {lease : CommandLease}

namespace Sound

/-- The command that a lease owns is the one it was given on. -/
theorem givenOn (h : s.Sound leases) (hissued : lease ∈ leases) {command : TaskCommand}
    (hmem : command ∈ s.commands) (howned : command.isOwnedBy lease) :
    s.GivenOn lease command := by
  obtain ⟨c, hc⟩ := h.given lease hissued
  have hid : command.id = lease.commandId := by
    simp only [TaskCommand.isOwnedBy, Bool.and_eq_true, beq_iff_eq] at howned
    exact howned.1.1.1
  have hsame : c = command :=
    List.inj_on_of_nodup_map h.commandIds hc.mem hmem (hc.commandId.symm.trans hid.symm)
  rwa [← hsame]

/-- At most one command is being worked on. -/
theorem eq_of_dispatching (h : s.Sound leases) {c d : TaskCommand} (hc : c ∈ s.commands)
    (hd : d ∈ s.commands) (hcs : c.status = .dispatching) (hds : d.status = .dispatching) :
    c = d := by
  have hlive : ∀ e : TaskCommand, e.status = .dispatching → e.isLive := by
    intro e he
    rw [TaskCommand.isLive, he]
    rfl
  have hcd := h.ordered c hc hcs d hd (hlive d hds)
  have hdc := h.ordered d hd hds c hc (hlive c hcs)
  exact List.inj_on_of_nodup_map h.sequences hc hd (Nat.le_antisymm hcd hdc)

/-- At most one lease owns a command. -/
theorem eq_of_owned (h : s.Sound leases) {lease' : CommandLease} (hissued : lease ∈ leases)
    (hissued' : lease' ∈ leases) {c d : TaskCommand} (hc : c ∈ s.commands) (hd : d ∈ s.commands)
    (howned : c.isOwnedBy lease) (howned' : d.isOwnedBy lease') : lease = lease' := by
  simp only [TaskCommand.isOwnedBy, Bool.and_eq_true, beq_iff_eq] at howned howned'
  obtain rfl := h.eq_of_dispatching hc hd howned.1.1.2 howned'.1.1.2
  apply List.inj_on_of_nodup_map h.tokens hissued hissued'
  rw [← howned.1.1.1, ← howned'.1.1.1, ← howned.2, ← howned'.2]

end Sound

/-- The first live command. -/
structure First (s : TaskStore) (c : TaskCommand) : Prop where
  mem : c ∈ s.commands
  live : c.isLive
  le : ∀ d ∈ s.commands, d.isLive → c.sequence ≤ d.sequence

theorem isLive_of_dispatching {c : TaskCommand} (h : c.status = .dispatching) : c.isLive := by
  rw [TaskCommand.isLive, h]
  rfl

theorem Locks.first (h : s.Sound leases) {command : TaskCommand} {run : RunRow}
    (hlocks : s.Locks lease command run) : s.First command :=
  ⟨hlocks.mem, isLive_of_dispatching hlocks.dispatching, h.ordered command hlocks.mem
    hlocks.dispatching⟩

theorem first_of_next {now : ℕ} {c : TaskCommand} (h : s.nextCommand now = some c) :
    s.First c :=
  have hnext := nextCommand_eq_some h
  ⟨hnext.2.1, hnext.2.2.1, hnext.2.2.2⟩

namespace First

variable {c c' d : TaskCommand}

theorem lt (hfirst : s.First c) (h : s.Sound leases) (hd : d ∈ s.commands) (hlive : d.isLive)
    (hne : d.id ≠ c.id) : c.sequence < d.sequence := by
  have hle := hfirst.le d hd hlive
  have hseq : c.sequence ≠ d.sequence := by
    intro heq
    have hsame := List.inj_on_of_nodup_map h.sequences hfirst.mem hd heq
    exact hne (by rw [hsame])
  omega

/-- Once the first live command is rewritten, no other command is being worked on. -/
theorem eq_of_dispatching (hfirst : s.First c) (h : s.Sound leases) (hid : c'.id = c.id)
    (hd : d ∈ Table.put TaskCommand.id s.commands c') (hds : d.status = .dispatching) :
    d = c' := by
  obtain ⟨hd, hne⟩ | ⟨rfl, -⟩ := Table.mem_put.mp hd
  · have hlt := hfirst.lt h hd (isLive_of_dispatching hds) (by rwa [← hid])
    have hle := h.ordered d hd hds c hfirst.mem hfirst.live
    omega
  · rfl

/-- Commands stay in order while the first one is rewritten. -/
theorem ordered (hfirst : s.First c) (h : s.Sound leases) (hid : c'.id = c.id)
    (hsequence : c'.sequence = c.sequence) :
    ∀ x ∈ Table.put TaskCommand.id s.commands c', x.status = .dispatching →
      ∀ d ∈ Table.put TaskCommand.id s.commands c', d.isLive → x.sequence ≤ d.sequence := by
  intro x hx hxs d hd hlive
  rw [hfirst.eq_of_dispatching h hid hx hxs, hsequence]
  obtain ⟨hd, -⟩ | ⟨rfl, -⟩ := Table.mem_put.mp hd
  · exact hfirst.le d hd hlive
  · exact hsequence.ge

/-- No run is projected ahead of the live commands while the first one is rewritten along with
a run, unless it is ended. -/
theorem fenced (hfirst : s.First c) (h : s.Sound leases) (hid : c'.id = c.id)
    (hsequence : c'.sequence = c.sequence) {run run' : RunRow} (hrun : run ∈ s.runs)
    (hfence : run'.projectionFence = run.projectionFence ∨
      (run'.projectionFence = c.sequence ∧ c'.isLive = false)) :
    ∀ r ∈ Table.put RunRow.id s.runs run', ∀ d ∈ Table.put TaskCommand.id s.commands c',
      d.isLive → r.projectionFence < d.sequence := by
  intro r hr d hd hlive
  have hold : ∀ r₀ ∈ s.runs, r₀.projectionFence < d.sequence := by
    intro r₀ hr₀
    obtain ⟨hd, -⟩ | ⟨rfl, -⟩ := Table.mem_put.mp hd
    · exact h.fenced r₀ hr₀ d hd hlive
    · rw [hsequence]
      exact h.fenced r₀ hr₀ c hfirst.mem hfirst.live
  obtain ⟨hr, -⟩ | ⟨rfl, -⟩ := Table.mem_put.mp hr
  · exact hold r hr
  · obtain hfence | ⟨hfence, hended⟩ := hfence
    · rw [hfence]
      exact hold run hrun
    · obtain ⟨hd, hne⟩ | ⟨rfl, -⟩ := Table.mem_put.mp hd
      · rw [hfence]
        exact hfirst.lt h hd hlive (by rwa [← hid])
      · rw [hended] at hlive
        cases hlive

end First

theorem maxSequence_put {c c' : TaskCommand} (hk : s.Keyed) (hc : c ∈ s.commands)
    (hid : c'.id = c.id) (hsequence : c'.sequence = c.sequence) :
    Table.maxOf TaskCommand.sequence (Table.put TaskCommand.id s.commands c') = s.maxSequence := by
  have hmap : (Table.put TaskCommand.id s.commands c').map TaskCommand.sequence =
      s.commands.map TaskCommand.sequence :=
    Table.map_eq_of_forall₂ (fun _ _ h => h)
      (Table.forall₂_put (R := fun c c' : TaskCommand => c'.sequence = c.sequence) (fun _ => rfl)
        hk.commandIds hc hid hsequence)
  rw [Table.maxOf, hmap]
  rfl

theorem positive_put (h : s.Sound leases) {c c' : TaskCommand} (hc : c ∈ s.commands)
    (hsequence : c'.sequence = c.sequence)
    (hcommands : s'.commands = Table.put TaskCommand.id s.commands c') :
    ∀ d ∈ s'.commands, 0 < d.sequence := by
  rw [hcommands]
  apply Table.forall_put h.positive
  rw [hsequence]
  exact h.positive c hc

/-- The rows after the first live command was rewritten along with a run. -/
theorem soundRows_of_first (h : s.Sound leases) {c d : TaskCommand} {run run' : RunRow}
    (hfirst : s.First c) (hid : d.id = c.id) (hsequence : d.sequence = c.sequence)
    (hrun : run ∈ s.runs)
    (hfence : run'.projectionFence = run.projectionFence ∨
      (run'.projectionFence = c.sequence ∧ d.isLive = false))
    (hruns : s'.runs = Table.put RunRow.id s.runs run')
    (hcommands : s'.commands = Table.put TaskCommand.id s.commands d)
    (hclaimable : d.status = .dispatching → isClaimable s'.task.status) : s'.SoundRows := by
  refine ⟨?_, ?_, ?_, ?_, positive_put h hfirst.mem hsequence hcommands⟩
  · rw [hcommands]
    exact hfirst.ordered h hid hsequence
  · rw [hcommands]
    intro e hd hds
    obtain rfl := hfirst.eq_of_dispatching h hid hd hds
    exact hclaimable hds
  · rw [hruns, hcommands]
    exact hfirst.fenced h hid hsequence hrun hfence
  · rw [hruns, maxSequence, hcommands, maxSequence_put h.toKeyed hfirst.mem hid hsequence]
    intro r hr
    obtain ⟨hr, -⟩ | ⟨rfl, -⟩ := Table.mem_put.mp hr
    · exact h.bounded r hr
    · obtain hfence | ⟨hfence, -⟩ := hfence
      · rw [hfence]
        exact h.bounded run hrun
      · rw [hfence]
        exact le_maxSequence hfirst.mem

/-- The same without a run. -/
theorem soundRows_of_first' (h : s.Sound leases) {c d : TaskCommand}
    (hfirst : s.First c) (hid : d.id = c.id) (hsequence : d.sequence = c.sequence)
    (hruns : s'.runs = s.runs)
    (hcommands : s'.commands = Table.put TaskCommand.id s.commands d)
    (hclaimable : d.status = .dispatching → isClaimable s'.task.status) : s'.SoundRows := by
  refine ⟨?_, ?_, ?_, ?_, positive_put h hfirst.mem hsequence hcommands⟩
  · rw [hcommands]
    exact hfirst.ordered h hid hsequence
  · rw [hcommands]
    intro e hd hds
    obtain rfl := hfirst.eq_of_dispatching h hid hd hds
    exact hclaimable hds
  · rw [hruns, hcommands]
    intro r hr e hd hlive
    obtain ⟨hd, -⟩ | ⟨rfl, -⟩ := Table.mem_put.mp hd
    · exact h.fenced r hr e hd hlive
    · rw [hsequence]
      exact h.fenced r hr c hfirst.mem hfirst.live
  · rw [hruns, maxSequence, hcommands, maxSequence_put h.toKeyed hfirst.mem hid hsequence]
    exact h.bounded

theorem effect_soundRows (h : s.Sound leases) (hissued : lease ∈ leases) {command : TaskCommand}
    {run : RunRow} {l : LockedRows} (hlocks : s.Locks lease command run)
    (heffect : (s.lock command run).Effect cfg digests s lease l) : (s.write l).SoundRows := by
  have hgiven := h.givenOn hissued hlocks.mem hlocks.owned
  have hidentity := heffect.command
  refine soundRows_of_first h (hlocks.first h) hidentity.id hidentity.sequence
    (Table.find_eq_some hlocks.found).1 ?_ rfl rfl ?_
  · rw [← hgiven.commandSequence]
    exact heffect.fence
  · intro hstatus
    obtain htask | htask := heffect.task_of_live (isLive_of_dispatching hstatus)
    · change isClaimable l.task.status
      rw [htask]
      exact h.claimable command hlocks.mem hlocks.dispatching
    · exact htask

theorem unassigned_soundRows (h : s.Sound leases) {command : TaskCommand}
    {status : CommandStatus} {task : TaskRow}
    (hu : s.Unassigned lease command status task s') : s'.SoundRows := by
  have howned := hu.owned
  simp only [TaskCommand.isOwnedBy, Bool.and_eq_true, beq_iff_eq] at howned
  have hfirst : s.First command :=
    ⟨hu.mem, isLive_of_dispatching howned.1.1.2, h.ordered command hu.mem howned.1.1.2⟩
  rw [hu.store]
  refine soundRows_of_first' h hfirst (d := command.settle status) rfl rfl rfl rfl ?_
  intro hstatus
  have hended := hu.ended
  change status = .dispatching at hstatus
  rw [hstatus] at hended
  cases hended

theorem relaxed_soundRows (h : s.Sound leases) (hr : s.Relaxed s') : s'.SoundRows := by
  have hcommand : ∀ c' ∈ s'.commands, ∃ c ∈ s.commands, c.Kept c' := fun c' hc' =>
    Table.exists_of_forall₂ hr.commands hc'
  have hlive : ∀ {c c' : TaskCommand}, c.Kept c' → c'.isLive → c.isLive := by
    intro c c' hkept hlive
    rwa [TaskCommand.isLive, ← hkept.status]
  have hmax : s'.maxSequence = s.maxSequence := by
    rw [maxSequence, Table.maxOf,
      Table.map_eq_of_forall₂ (fun _ _ h => h.sequence) hr.commands]
    rfl
  refine ⟨?_, ?_, ?_, ?_, ?_⟩
  · intro c' hc' hstatus d' hd' hd'live
    obtain ⟨c, hc, hkept⟩ := hcommand c' hc'
    obtain ⟨d, hd, hdkept⟩ := hcommand d' hd'
    rw [hkept.sequence, hdkept.sequence]
    exact h.ordered c hc (by rw [← hkept.status, hstatus]) d hd (hlive hdkept hd'live)
  · intro c' hc' hstatus
    obtain ⟨c, hc, hkept⟩ := hcommand c' hc'
    rw [hr.task]
    exact h.claimable c hc (by rw [← hkept.status, hstatus])
  · intro r' hr' d' hd' hd'live
    obtain ⟨r, hmem, hquiet⟩ := Table.exists_of_forall₂ hr.runs hr'
    obtain ⟨d, hd, hdkept⟩ := hcommand d' hd'
    rw [hquiet.projectionFence, hdkept.sequence]
    exact h.fenced r hmem d hd (hlive hdkept hd'live)
  · intro r' hr'
    obtain ⟨r, hmem, hquiet⟩ := Table.exists_of_forall₂ hr.runs hr'
    rw [hquiet.projectionFence, hmax]
    exact h.bounded r hmem
  · intro c' hc'
    obtain ⟨c, hc, hkept⟩ := hcommand c' hc'
    rw [hkept.sequence]
    exact h.positive c hc

/-- The rows after a pending command was inserted, while live commands are at most closed and
runs keep their fences. -/
theorem soundRows_of_inserted (h : s.Sound leases) {kept : List TaskCommand} {new : TaskCommand}
    (hcommands : s'.commands = kept ++ [new])
    (hlive : ∀ c ∈ kept, c.isLive → c ∈ s.commands)
    (hkept : List.Forall₂ TaskCommand.Continues s.commands kept)
    (hsequence : new.sequence = s.maxSequence + 1) (hpending : new.status = .pending)
    (hruns : ∀ r ∈ s'.runs, r.projectionFence = 0 ∨
      ∃ r₀ ∈ s.runs, r.projectionFence = r₀.projectionFence)
    (hclaimable : ∀ c ∈ s.commands, c.status = .dispatching → isClaimable s'.task.status) :
    s'.SoundRows := by
  have hold : ∀ c ∈ kept, ∃ c₀ ∈ s.commands, c.sequence = c₀.sequence := by
    intro c hc
    obtain ⟨c₀, hc₀, hcontinues⟩ := Table.exists_of_forall₂ hkept hc
    exact ⟨c₀, hc₀, hcontinues.sequence⟩
  have hdispatching : ∀ c ∈ s'.commands, c.status = .dispatching → c ∈ s.commands := by
    rw [hcommands]
    intro c hc hstatus
    obtain hc | hc := List.mem_append.mp hc
    · exact hlive c hc (isLive_of_dispatching hstatus)
    · rw [List.mem_singleton.mp hc, hpending] at hstatus
      cases hstatus
  have hmax : s.maxSequence ≤ s'.maxSequence := by
    have hnew : new ∈ s'.commands := by
      rw [hcommands]
      exact List.mem_append_right _ List.mem_cons_self
    have hle := le_maxSequence hnew
    omega
  have hpositive : ∀ c ∈ s'.commands, 0 < c.sequence := by
    rw [hcommands]
    intro c hc
    obtain hc | hc := List.mem_append.mp hc
    · obtain ⟨c₀, hc₀, hseq⟩ := hold c hc
      rw [hseq]
      exact h.positive c₀ hc₀
    · rw [List.mem_singleton.mp hc, hsequence]
      exact Nat.succ_pos _
  refine ⟨?_, ?_, ?_, ?_, hpositive⟩
  · intro c hc hstatus d hd hdlive
    have hc := hdispatching c hc hstatus
    rw [hcommands] at hd
    obtain hd | hd := List.mem_append.mp hd
    · exact h.ordered c hc hstatus d (hlive d hd hdlive) hdlive
    · have hle := le_maxSequence hc
      rw [List.mem_singleton.mp hd, hsequence]
      omega
  · intro c hc hstatus
    exact hclaimable c (hdispatching c hc hstatus) hstatus
  · intro r hr d hd hdlive
    obtain hzero | ⟨r₀, hr₀, hfence⟩ := hruns r hr
    · rw [hzero]
      exact hpositive d hd
    · rw [hfence]
      rw [hcommands] at hd
      obtain hd | hd := List.mem_append.mp hd
      · exact h.fenced r₀ hr₀ d (hlive d hd hdlive) hdlive
      · have hle := h.bounded r₀ hr₀
        rw [List.mem_singleton.mp hd, hsequence]
        omega
  · intro r hr
    obtain hzero | ⟨r₀, hr₀, hfence⟩ := hruns r hr
    · omega
    · have hle := h.bounded r₀ hr₀
      omega

theorem closeCommands_live {c : TaskCommand} (hc : c ∈ closeCommands s.commands)
    (hlive : c.isLive) : c ∈ s.commands ∧ isClosable c = false := by
  obtain ⟨d, hd, rfl⟩ := List.mem_map.mp hc
  by_cases hclosable : isClosable d
  · rw [if_pos hclosable] at hlive
    cases hlive
  · rw [if_neg hclosable]
    exact ⟨hd, by simpa using hclosable⟩

theorem requested_soundRows (h : s.Sound leases) (hr : Requested digests s s') :
    s'.SoundRows := by
  have hidle : (∀ c ∈ s.commands, c.isLive = false) → ∀ c ∈ s.commands, c.status = .dispatching →
      isClaimable .queued := fun _ _ _ _ => rfl
  have hinserted : ∀ {runs : List RunRow} {run : RunRow},
      (∀ r ∈ runs, ∃ r₀ ∈ s.runs, r.projectionFence = r₀.projectionFence) →
      run.projectionFence = 0 → ∀ r ∈ runs ++ [run], r.projectionFence = 0 ∨
        ∃ r₀ ∈ s.runs, r.projectionFence = r₀.projectionFence := by
    intro runs run hruns hrun r hr
    obtain hr | hr := List.mem_append.mp hr
    · exact .inr (hruns r hr)
    · rw [List.mem_singleton.mp hr]
      exact .inl hrun
  have hput : ∀ {run run' : RunRow} (r), r ∈ Table.put RunRow.id s.runs run' → run ∈ s.runs →
      run'.projectionFence = run.projectionFence → ∃ r₀ ∈ s.runs,
        r.projectionFence = r₀.projectionFence := by
    intro run run' r hr hrun hfence
    obtain ⟨hr, -⟩ | ⟨rfl, -⟩ := Table.mem_put.mp hr
    · exact ⟨r, hr, rfl⟩
    · exact ⟨run, hrun, hfence⟩
  cases hr with
  | cancelTask key commandId now active idle fresh =>
      refine soundRows_of_inserted h rfl (fun c hc hlive => (closeCommands_live hc hlive).1)
        (closeCommands_kept s) rfl rfl ?_ h.claimable
      intro r hr
      cases hlatest : s.latestRun with
      | none =>
          simp only [hlatest] at hr
          exact .inr ⟨r, hr, rfl⟩
      | some run =>
          simp only [hlatest] at hr
          exact .inr (hput r hr (latestRun_mem hlatest) rfl)
  | cancelRun run key commandId now found active idle unrequested fresh =>
      exact soundRows_of_inserted h rfl (fun c hc hlive => (closeCommands_live hc hlive).1)
        (closeCommands_kept s) rfl rfl
        (fun r hr => .inr (hput r hr (Table.find_eq_some found).1 rfl)) h.claimable
  | retry source key hash runId commandId latest idle retryable status freshRun fresh =>
      exact soundRows_of_inserted h rfl (fun c hc _ => hc) (sameCommands s) rfl rfl
        (hinserted (fun r hr => ⟨r, hr, rfl⟩) rfl) (hidle idle)
  | fork source checkpointId key hash runId commandId now s₁ found checkpoint active idle closed
      freshRun fresh =>
      obtain ⟨hcommands, -⟩ := cancelPendingPauseForFork_commands closed
      have hmax : s₁.maxSequence = s.maxSequence := by rw [maxSequence, maxSequence, hcommands]
      have hkept : List.Forall₂ TaskCommand.Continues s.commands s₁.commands := by
        rw [hcommands]
        exact sameCommands s
      refine soundRows_of_inserted h rfl (fun c hc _ => hcommands ▸ hc) hkept
        (congrArg (· + 1) hmax) rfl (hinserted ?_ rfl) (hidle idle)
      obtain ⟨rfl, -⟩ | ⟨pause, run, -, -, -, -, hrun, -, rfl⟩ :=
        cancelPendingPauseForFork_cases closed
      · exact fun r hr => ⟨r, hr, rfl⟩
      · exact fun r hr => hput r hr (Table.find_eq_some hrun).1 rfl
  | answer pause parent payload key runId commandId now pauseFound pending parentFound paused
      waiting waitingTask members payloadPause expiry freshRun fresh =>
      exact soundRows_of_inserted h rfl (fun c hc _ => hc) (sameCommands s) rfl rfl
        (hinserted (fun r hr => ⟨r, hr, rfl⟩) rfl) h.claimable

theorem driveRun_fence (cfg : DispatcherConfig) (type : CommandType) (run : RunRow) (now : ℕ) :
    (driveRun cfg type run now).projectionFence = run.projectionFence := by
  unfold driveRun
  dsimp only
  split_ifs <;> rfl

theorem claimedTaskStatus_claimable (c : TaskCommand) : isClaimable (claimedTaskStatus c) := by
  unfold claimedTaskStatus
  split
  · split_ifs <;> rfl
  · rfl

theorem claims_soundRows {lease? : Option CommandLease} {now : ℕ} (h : s.Sound leases)
    (hc : Claims cfg s now s' lease?) : s'.SoundRows := by
  cases hc with
  | idle => exact h.toSoundRows
  | cancelled c next moot =>
      exact soundRows_of_first' h (first_of_next next) (d := c.settle .cancelled) rfl rfl rfl rfl
        nofun
  | failed c code errorType message run s' next invalid fail =>
      obtain ⟨-, rfl⟩ | ⟨run', t, l, hrun, -, hp, rfl⟩ := failInvalid_eq_some fail
      · exact soundRows_of_first' h (first_of_next next) (d := c.settle .failed) rfl rfl rfl rfl
          nofun
      · have hcommand : l.command = c.settle .failed := hp.command
        refine soundRows_of_first h (first_of_next next) (d := l.command) ?_ ?_
          (claimedRun_invalid_mem invalid run' hrun) (.inr ⟨hp.fence, ?_⟩) rfl rfl ?_
        · rw [hcommand]
          rfl
        · rw [hcommand]
          rfl
        · rw [hcommand]
          rfl
        · rw [hcommand]
          exact nofun
  | driven c workerId run s₁ lease next drives ensured leaseOf worker =>
      have hclaimable : isClaimable (claimedTaskStatus c) := claimedTaskStatus_claimable c
      cases ensured with
      | found claimed =>
          exact soundRows_of_first h (first_of_next next) (d := dispatched cfg now c workerId) rfl
            rfl (claimedRun_mem claimed) (.inl (driveRun_fence cfg _ run now)) rfl rfl
            fun _ => hclaimable
      | inserted runId submit none fresh first =>
          have hrows : SoundRows { s with
              task := { s.task with status := claimedTaskStatus c }
              commands := Table.put TaskCommand.id s.commands (dispatched cfg now c workerId) } :=
            soundRows_of_first' h (first_of_next next) (d := dispatched cfg now c workerId) rfl rfl rfl rfl
            fun _ => hclaimable
          have hfence : (driveRun cfg c.commandType run now).projectionFence = 0 := by
            rw [driveRun_fence, first]
            rfl
          have hruns : ∀ r ∈ Table.put RunRow.id (s.runs ++ [run])
              (driveRun cfg c.commandType run now), r.projectionFence = 0 ∨ r ∈ s.runs := by
            intro r hr
            obtain ⟨hr, hne⟩ | ⟨rfl, -⟩ := Table.mem_put.mp hr
            · obtain hr | hr := List.mem_append.mp hr
              · exact .inr hr
              · rw [List.mem_singleton.mp hr, driveRun_id] at hne
                exact absurd rfl hne
            · exact .inl hfence
          refine ⟨hrows.ordered, hrows.claimable, ?_, ?_, hrows.positive⟩
          · intro r hr d hd hlive
            obtain hzero | hr := hruns r hr
            · rw [hzero]
              exact hrows.positive d hd
            · exact hrows.fenced r hr d hd hlive
          · intro r hr
            obtain hzero | hr := hruns r hr
            · rw [hzero]
              exact Nat.zero_le _
            · exact hrows.bounded r hr
  | cancelling c workerId run lease next cancels claimed leaseOf worker =>
      exact soundRows_of_first' h (first_of_next next) (d := dispatched cfg now c workerId) rfl rfl
        rfl rfl fun _ => (nextCommand_eq_some next).1

theorem change_soundRows {lease? : Option CommandLease} (h : s.Sound leases)
    (hc : Change cfg digests leases s s' lease?) : s'.SoundRows := by
  cases hc with
  | relaxed relaxed => exact relaxed_soundRows h relaxed
  | requested requested => exact requested_soundRows h requested
  | claimed now claims => exact claims_soundRows h claims
  | effect issued locks effect => exact effect_soundRows h issued locks effect
  | unassigned issued unassigned => exact unassigned_soundRows h unassigned

theorem GivenOn.grows {c : TaskCommand} (h : s.GivenOn lease c) (hg : s.Grows s') :
    ∃ c', s'.GivenOn lease c' := by
  obtain ⟨c', hc', hcontinues⟩ := hg.command h.mem
  have hpayload : respondPayloadOf c' = respondPayloadOf c := by
    rw [respondPayloadOf, respondPayloadOf, hcontinues.payload]
  refine ⟨c', hc', h.commandId.trans hcontinues.id.symm, ?_,
    h.commandSequence.trans hcontinues.sequence.symm, h.fenceToken.trans hcontinues.attempt,
    h.respondPayload.trans hpayload.symm, ?_, ?_, ?_⟩
  · rw [h.commandType, TaskCommand.commandType, TaskCommand.commandType, hcontinues.payload]
  · rw [h.taskType, hg.admission]
  · intro runId hrun
    obtain ⟨r, hr, hid⟩ := h.run runId hrun
    obtain ⟨r', hr', hsame⟩ := hg.run hr
    exact ⟨r', hr', hsame.id.trans hid⟩
  · intro runId htarget
    rw [hcontinues.payload] at htarget
    exact h.target runId htarget

theorem dispatched_mem {now : ℕ} {c : TaskCommand} (hc : c ∈ s.commands) (workerId : String) :
    dispatched cfg now c workerId ∈
      Table.put TaskCommand.id s.commands (dispatched cfg now c workerId) :=
  Table.mem_put_self hc rfl

/-- A lease that a claim gives out is on the claimed command, under a new token. -/
theorem claims_given {now : ℕ} (h : s.Sound leases)
    (hc : Claims cfg s now s' (some lease)) :
    ∃ c, s'.GivenOn lease c ∧ ∃ c₀ ∈ s.commands, c₀.id = c.id ∧
      lease.fenceToken = c₀.attempt + 1 := by
  have hgrows := hc.grows h.toKeyed
  cases hc with
  | driven c workerId run s₁ lease next drives ensured leaseOf worker =>
      have hmem := (first_of_next next).mem
      refine ⟨dispatched cfg now c workerId, ⟨dispatched_mem hmem workerId, leaseOf.commandId,
        leaseOf.commandType, leaseOf.commandSequence, leaseOf.fenceToken.le,
        leaseOf.respondPayload, leaseOf.taskType, ?_, ?_⟩, c, hmem, rfl, leaseOf.fenceToken⟩
      · intro runId hrun
        rw [leaseOf.productRunId, Option.map_some, Option.some.injEq] at hrun
        have hid : (driveRun cfg c.commandType run now).id = run.id := driveRun_id _ _ _ _
        refine ⟨driveRun cfg c.commandType run now, ?_, hid.trans hrun⟩
        cases ensured with
        | found claimed => exact Table.mem_put_self (claimedRun_mem claimed) hid.symm
        | inserted runId submit none fresh first =>
            exact Table.mem_put_self (List.mem_append_right _ List.mem_cons_self) hid.symm
      · intro runId htarget
        rw [leaseOf.productRunId]
        cases ensured with
        | found claimed => exact claimedRun_target claimed htarget
        | inserted _ submit none fresh first =>
            change target c.payload = some runId at htarget
            rw [target_of_submit submit] at htarget
            cases htarget
  | cancelling c workerId run lease next cancels claimed leaseOf worker =>
      have hmem := (first_of_next next).mem
      refine ⟨dispatched cfg now c workerId, ⟨dispatched_mem hmem workerId, leaseOf.commandId,
        leaseOf.commandType, leaseOf.commandSequence, leaseOf.fenceToken.le,
        leaseOf.respondPayload, leaseOf.taskType, ?_, ?_⟩, c, hmem, rfl, leaseOf.fenceToken⟩
      · intro runId hrun
        rw [leaseOf.productRunId] at hrun
        obtain ⟨r, hr, hid⟩ := Option.map_eq_some_iff.mp hrun
        rw [hr] at claimed
        exact ⟨r, claimedRun_mem (s := s) claimed, hid⟩
      · intro runId htarget
        rw [leaseOf.productRunId]
        exact claimedRun_target (s := s) claimed htarget

/-- Every change keeps the rows and the leases sound. -/
theorem Sound.change {lease? : Option CommandLease} (h : s.Sound leases)
    (hc : Change cfg digests leases s s' lease?) : s'.Sound (leases ++ lease?.toList) := by
  have hgrows := hc.grows h.toKeyed
  have hkept : ∀ lease ∈ leases, ∃ c, s'.GivenOn lease c := by
    intro lease hlease
    obtain ⟨c, hgiven⟩ := h.given lease hlease
    exact hgiven.grows hgrows
  cases lease? with
  | none =>
      refine ⟨hgrows.keyed h.toKeyed, change_soundRows h hc, ?_, ?_⟩
      · simpa using hkept
      · simpa using h.tokens
  | some lease =>
      obtain ⟨now, hclaims⟩ : ∃ now, Claims cfg s now s' (some lease) := by
        cases hc with
        | claimed now claims => exact ⟨now, claims⟩
      obtain ⟨c, hgiven, c₀, hc₀, hid, htoken⟩ := claims_given h hclaims
      refine ⟨hgrows.keyed h.toKeyed, change_soundRows h hc, ?_, ?_⟩
      · intro lease' hlease'
        obtain hlease' | hlease' := List.mem_append.mp hlease'
        · exact hkept lease' hlease'
        · rw [List.mem_singleton.mp hlease']
          exact ⟨c, hgiven⟩
      · rw [Option.toList_some, List.map_append, List.map_singleton]
        apply List.Nodup.append h.tokens (List.nodup_singleton _)
        intro token htokens hlast
        rw [List.mem_singleton.mp hlast] at htokens
        -- An earlier token on the same command is at most its number of claims so far.
        obtain ⟨lease', hlease', hsame⟩ := List.mem_map.mp htokens
        rw [Prod.mk.injEq] at hsame
        obtain ⟨c', hgiven'⟩ := h.given lease' hlease'
        have hcommand : c' = c₀ := by
          apply List.inj_on_of_nodup_map h.commandIds hgiven'.mem hc₀
          rw [← hgiven'.commandId, hsame.1, hgiven.commandId, hid]
        have hle := hgiven'.fenceToken
        rw [hcommand] at hle
        omega

end Sound

section Tracing

variable {cfg : DispatcherConfig} {digests : KeyDigests} {leases : List CommandLease}
  {s s' : TaskStore} {lease : CommandLease} {lease? : Option CommandLease}

/-- A command that a service operation just inserted; one that drives a run of its own comes with
that run, and while no other command is live. -/
structure Inserted (s s' : TaskStore) (c : TaskCommand) : Prop where
  sequence : c.sequence = s.maxSequence + 1
  pending : c.status = .pending
  fresh : s.FreshCommand c
  run : ∀ runId, target c.payload = some runId → c.commandType.drives →
    (∀ d ∈ s.commands, d.isLive = false) ∧ (∀ r ∈ s.runs, r.id ≠ runId)

theorem live_put {c c' d : TaskCommand} (hc : c ∈ s.commands) (hcontinues : c.Continues c')
    (hlive : c'.isLive → c.isLive) (hd : d ∈ Table.put TaskCommand.id s.commands c')
    (hdlive : d.isLive) : ∃ c ∈ s.commands, c.isLive ∧ c.Continues d := by
  obtain ⟨hd, -⟩ | ⟨rfl, -⟩ := Table.mem_put.mp hd
  · exact ⟨d, hd, hdlive, .refl d⟩
  · exact ⟨c, hc, hlive hdlive, hcontinues⟩

theorem live_requested (hk : s.Keyed) (hr : Requested digests s s') {c' : TaskCommand}
    (hmem : c' ∈ s'.commands) (hlive : c'.isLive) :
    c' ∈ s.commands ∨ Inserted s s' c' := by
  have hclosed : ∀ {new : TaskCommand}, c' ∈ closeCommands s.commands ++ [new] →
      c' ∈ s.commands ∨ c' = new := by
    intro new hmem
    exact (List.mem_append.mp hmem).imp (fun h => (closeCommands_live h hlive).1)
      List.mem_singleton.mp
  have hkept : ∀ {new : TaskCommand}, c' ∈ s.commands ++ [new] → c' ∈ s.commands ∨ c' = new := by
    intro new hmem
    exact (List.mem_append.mp hmem).imp id List.mem_singleton.mp
  cases hr with
  | cancelTask key commandId now active idle fresh =>
      refine (hclosed hmem).imp_right ?_
      rintro rfl
      exact ⟨rfl, rfl, fresh, fun _ hnone _ => by cases hnone⟩
  | cancelRun run key commandId now found active idle unrequested fresh =>
      refine (hclosed hmem).imp_right ?_
      rintro rfl
      exact ⟨rfl, rfl, fresh, fun _ _ hdrives => by cases hdrives⟩
  | retry source key hash runId commandId latest idle retryable status freshRun fresh =>
      refine (hkept hmem).imp_right ?_
      rintro rfl
      refine ⟨rfl, rfl, fresh, ?_⟩
      intro id htarget _
      obtain rfl := Option.some.inj htarget
      exact ⟨idle, freshRun.id⟩
  | fork source checkpointId key hash runId commandId now s₁ found checkpoint active idle closed
      freshRun fresh =>
      have hfresh := freshRun.of_kept (cancelPendingPauseForFork_runs hk closed)
      obtain ⟨hcommands, -⟩ := cancelPendingPauseForFork_commands closed
      have hmax : s₁.maxSequence = s.maxSequence := by rw [maxSequence, maxSequence, hcommands]
      rw [hcommands] at hmem
      refine (hkept hmem).imp_right ?_
      rintro rfl
      refine ⟨congrArg (· + 1) hmax, rfl, ⟨hcommands ▸ fresh.id, hcommands ▸ fresh.key⟩, ?_⟩
      intro id htarget _
      obtain rfl := Option.some.inj htarget
      exact ⟨idle, hfresh.id⟩
  | answer pause parent payload key runId commandId now pauseFound pending parentFound paused
      waiting waitingTask members payloadPause expiry freshRun fresh =>
      refine (hkept hmem).imp_right ?_
      rintro rfl
      exact ⟨rfl, rfl, fresh, fun _ htarget _ => by cases htarget⟩

theorem live_claims {now : ℕ} (hc : Claims cfg s now s' lease?) {c' : TaskCommand}
    (hmem : c' ∈ s'.commands) (hlive : c'.isLive) :
    ∃ c ∈ s.commands, c.isLive ∧ c.Continues c' := by
  cases hc with
  | idle => exact ⟨c', hmem, hlive, .refl c'⟩
  | cancelled c next moot =>
      exact live_put (first_of_next next).mem (settle_continues c _) (fun h => by cases h) hmem hlive
  | failed c code errorType message run s' next invalid fail =>
      have hfirst := first_of_next next
      obtain ⟨-, rfl⟩ | ⟨run', t, l, -, -, hp, rfl⟩ := failInvalid_eq_some fail
      · exact live_put hfirst.mem (settle_continues c _) (fun h => by cases h) hmem hlive
      · have hcommands : (s.write l).commands =
            Table.put TaskCommand.id s.commands (c.settle .failed) := by
          rw [write, hp.command]
          rfl
        rw [hcommands] at hmem
        exact live_put hfirst.mem (settle_continues c _) (fun h => by cases h) hmem hlive
  | driven c workerId run s₁ lease next drives ensured leaseOf worker =>
      have hfirst := first_of_next next
      exact live_put hfirst.mem (dispatched_continues cfg now c workerId) (fun _ => hfirst.live)
        hmem hlive
  | cancelling c workerId run lease next cancels claimed leaseOf worker =>
      have hfirst := first_of_next next
      exact live_put hfirst.mem (dispatched_continues cfg now c workerId) (fun _ => hfirst.live)
        hmem hlive

/-- Every live command was live before, or was just inserted. -/
theorem live_before (h : s.Sound leases) (hc : Change cfg digests leases s s' lease?)
    {c' : TaskCommand} (hmem : c' ∈ s'.commands) (hlive : c'.isLive) :
    (∃ c ∈ s.commands, c.isLive ∧ c.Continues c') ∨ Inserted s s' c' := by
  cases hc with
  | relaxed relaxed =>
      obtain ⟨c, hc, hkept⟩ := Table.exists_of_forall₂ relaxed.commands hmem
      refine .inl ⟨c, hc, ?_, hkept.continues⟩
      rwa [TaskCommand.isLive, ← hkept.status]
  | requested requested =>
      obtain hmem | hinserted := live_requested h.toKeyed requested hmem hlive
      · exact .inl ⟨c', hmem, hlive, .refl c'⟩
      · exact .inr hinserted
  | claimed now claims => exact .inl (live_claims claims hmem hlive)
  | effect issued locks effect =>
      exact .inl (live_put locks.mem effect.command.continues
        (fun _ => isLive_of_dispatching locks.dispatching) hmem hlive)
  | unassigned issued unassigned =>
      rw [unassigned.store] at hmem
      refine .inl (live_put unassigned.mem (settle_continues _ _) ?_ hmem hlive)
      intro hlive
      rw [TaskCommand.isLive, TaskCommand.settle, unassigned.ended] at hlive
      cases hlive

/-- A command that is being worked on was so before under the same token, or was just claimed
under the next one. -/
theorem dispatching_before (h : s.Sound leases) (hc : Change cfg digests leases s s' lease?)
    {c' : TaskCommand} (hmem : c' ∈ s'.commands) (hstatus : c'.status = .dispatching) :
    ∃ c ∈ s.commands, c.Continues c' ∧
      ((c.status = .dispatching ∧ c'.attempt = c.attempt) ∨ c'.attempt = c.attempt + 1) := by
  have hsame : c' ∈ s.commands → ∃ c ∈ s.commands, c.Continues c' ∧
      ((c.status = .dispatching ∧ c'.attempt = c.attempt) ∨ c'.attempt = c.attempt + 1) :=
    fun hmem => ⟨c', hmem, .refl c', .inl ⟨hstatus, rfl⟩⟩
  have hput : ∀ {c d : TaskCommand}, c ∈ s.commands → c.Continues d →
      (d.status = .dispatching →
        (c.status = .dispatching ∧ d.attempt = c.attempt) ∨ d.attempt = c.attempt + 1) →
      c' ∈ Table.put TaskCommand.id s.commands d → ∃ c ∈ s.commands, c.Continues c' ∧
        ((c.status = .dispatching ∧ c'.attempt = c.attempt) ∨ c'.attempt = c.attempt + 1) := by
    intro c d hc hcontinues hd hmem
    obtain ⟨hmem, -⟩ | ⟨rfl, -⟩ := Table.mem_put.mp hmem
    · exact hsame hmem
    · exact ⟨c, hc, hcontinues, hd hstatus⟩
  have hsettled : ∀ {c : TaskCommand} {status : CommandStatus}, c ∈ s.commands →
      status.isLive = false → c' ∈ Table.put TaskCommand.id s.commands (c.settle status) →
      ∃ c ∈ s.commands, c.Continues c' ∧
        ((c.status = .dispatching ∧ c'.attempt = c.attempt) ∨ c'.attempt = c.attempt + 1) := by
    intro c status hc hended hmem
    refine hput hc (settle_continues c status) ?_ hmem
    intro hdispatching
    have hlive := isLive_of_dispatching hdispatching
    rw [show (c.settle status).isLive = status.isLive from rfl, hended] at hlive
    cases hlive
  cases hc with
  | relaxed relaxed =>
      obtain ⟨c, hc, hkept⟩ := Table.exists_of_forall₂ relaxed.commands hmem
      exact ⟨c, hc, hkept.continues, .inl ⟨hkept.status ▸ hstatus, hkept.attempt⟩⟩
  | requested requested =>
      have hlive := isLive_of_dispatching hstatus
      obtain hmem | hinserted := live_requested h.toKeyed requested hmem hlive
      · exact hsame hmem
      · rw [hinserted.pending] at hstatus
        cases hstatus
  | claimed now claims =>
      cases claims with
      | idle => exact hsame hmem
      | cancelled c next moot =>
          exact hsettled (first_of_next next).mem rfl hmem
      | failed c code errorType message run s' next invalid fail =>
          have hfirst := first_of_next next
          obtain ⟨-, rfl⟩ | ⟨run', t, l, -, -, hp, rfl⟩ := failInvalid_eq_some fail
          · exact hsettled hfirst.mem rfl hmem
          · have hcommands : (s.write l).commands =
                Table.put TaskCommand.id s.commands (c.settle .failed) := by
              rw [write, hp.command]
              rfl
            rw [hcommands] at hmem
            exact hsettled hfirst.mem rfl hmem
      | driven c workerId run s₁ lease next drives ensured leaseOf worker =>
          exact hput (first_of_next next).mem (dispatched_continues cfg now c workerId)
            (fun _ => .inr rfl) hmem
      | cancelling c workerId run lease next cancels claimed leaseOf worker =>
          exact hput (first_of_next next).mem (dispatched_continues cfg now c workerId)
            (fun _ => .inr rfl) hmem
  | effect issued locks effect =>
      exact hput locks.mem effect.command.continues
        (fun _ => .inl ⟨locks.dispatching, effect.command.attempt⟩) hmem
  | unassigned issued unassigned =>
      rw [unassigned.store] at hmem
      exact hsettled unassigned.mem unassigned.ended hmem

/-- A lease that holds the current claim held it before. -/
theorem current_before (h : s.Sound leases) (hc : Change cfg digests leases s s' lease?)
    (hissued : lease ∈ leases) {c' : TaskCommand} (hmem : c' ∈ s'.commands)
    (hcurrent : c'.IsCurrent lease) : ∃ c ∈ s.commands, c.IsCurrent lease ∧ c.Continues c' := by
  obtain ⟨hid, hstatus, htoken⟩ := hcurrent
  obtain ⟨c, hcmem, hcontinues, ⟨hcs, hattempt⟩ | hattempt⟩ :=
    dispatching_before h hc hmem hstatus
  · exact ⟨c, hcmem, ⟨hcontinues.id.symm.trans hid, hcs, hattempt.symm.trans htoken⟩, hcontinues⟩
  · obtain ⟨d, hgiven⟩ := h.given lease hissued
    have hsame : d = c := by
      apply List.inj_on_of_nodup_map h.commandIds hgiven.mem hcmem
      rw [← hgiven.commandId, ← hid, hcontinues.id]
    have hle := hgiven.fenceToken
    rw [hsame] at hle
    omega

end Tracing

section Checked

variable {cfg : DispatcherConfig} {digests : KeyDigests} {s s' : TaskStore} {lease : CommandLease}
  {now : ℕ}

theorem lacksArtifact_of_failed {t : TerminalGraphOutput} (h : t.terminalStatus = .failed) :
    lease.lacksArtifact t = false := by
  rw [CommandLease.lacksArtifact, h]
  rfl

theorem terminalOf_checked {joined : Option TerminalGraphOutput} {t : TerminalGraphOutput}
    (h : lease.terminalOf joined = some t) : lease.lacksArtifact t = false := by
  unfold CommandLease.terminalOf at h
  split at h
  · exact lacksArtifact_of_failed (LockedRows.failedTerminalOutput_status h)
  · split_ifs at h with hlacks
    · exact lacksArtifact_of_failed (LockedRows.failedTerminalOutput_status h)
    · cases h
      simpa using hlacks

theorem firstMove_ne_finalizing (lease : CommandLease) (t : TerminalGraphOutput) :
    lease.firstMove ≠ .finalizing t := by
  unfold CommandLease.firstMove
  split_ifs <;> split <;> exact nofun

theorem reconcileOrTimeout_ne_finalizing (cfg : DispatcherConfig) (s : TaskStore)
    (lease : CommandLease) (now : ℕ) (handle : RemoteRunHandle) (t : TerminalGraphOutput) :
    s.reconcileOrTimeout cfg lease now handle ≠ .finalizing t := by
  unfold reconcileOrTimeout
  split_ifs <;> exact nofun

theorem remoteFailure_status {status : ObservedTerminalStatus} {t : TerminalGraphOutput}
    (h : CommandLease.remoteFailure status = some t) : t.terminalStatus = .failed := by
  unfold CommandLease.remoteFailure at h
  split at h <;> exact LockedRows.failedTerminalOutput_status h

theorem terminalRetry_checked {errorType : String} {pc : Pc} {t : TerminalGraphOutput}
    (h : lease.terminalRetry cfg errorType = some pc) (hpc : pc = .finalizing t) :
    lease.lacksArtifact t = false := by
  unfold CommandLease.terminalRetry at h
  dsimp only at h
  generalize (if lease.commandType.cancels then cfg.maxCancelAttempts else cfg.maxAttempts) =
    limit at h
  split_ifs at h
  · obtain ⟨t', ht', rfl⟩ := Option.map_eq_some_iff.mp h
    cases hpc
    exact lacksArtifact_of_failed (LockedRows.failedTerminalOutput_status ht')
  · cases h
    cases hpc

/-- A worker comes to a projection only with an output that it checked, or with a failed one. -/
theorem executeStep_checked {pc pc' : Pc} {event : Event}
    (h : s.executeStep cfg digests lease now pc event = some (s', pc')) {t : TerminalGraphOutput}
    (hpc : pc' = .finalizing t) : lease.lacksArtifact t = false := by
  have failed : ∀ {o : Option TerminalGraphOutput} {pc : Pc},
      (∀ t, o = some t → t.terminalStatus = .failed) → o.map Pc.finalizing = some pc →
      pc = .finalizing t → lease.lacksArtifact t = false := by
    intro o pc ho h hpc
    obtain ⟨t', ht', rfl⟩ := Option.map_eq_some_iff.mp h
    cases hpc
    exact lacksArtifact_of_failed (ho _ ht')
  have moved : ∀ {o : Option Pc}, (o.map fun pc => (s, pc)) = some (s', pc') → o = some pc' := by
    intro o h
    obtain ⟨pc, hpc, h⟩ := Option.map_eq_some_iff.mp h
    cases h
    exact hpc
  have ended : ∀ {α : Type} {o : Option (TaskStore × α)} {f : TaskStore × α → TaskStore × Pc},
      o.map f = some (s', pc') → (∀ x, (f x).2 ≠ .finalizing t) →
      lease.lacksArtifact t = false := by
    intro α o f h hf
    obtain ⟨x, -, hx⟩ := Option.map_eq_some_iff.mp h
    exact absurd (hpc ▸ congrArg Prod.snd hx) (hf x)
  unfold executeStep at h
  split at h
  -- Steps of the worker alone.
  case h_1 =>
    have hmove := (congrArg Prod.snd (Option.some.inj h)).trans hpc
    dsimp only at hmove
    split_ifs at hmove
    exact absurd hmove (firstMove_ne_finalizing lease t)
  case h_2 | h_3 | h_4 | h_5 =>
    have hmove := (congrArg Prod.snd (Option.some.inj h)).trans hpc
    dsimp only at hmove
    split_ifs at hmove
  case h_7 | h_8 | h_9 | h_13 | h_18 | h_19 | h_35 | h_36 =>
    cases (congrArg Prod.snd (Option.some.inj h)).trans hpc
  case h_14 =>
    have hmove := (congrArg Prod.snd (Option.some.inj h)).trans hpc
    dsimp only at hmove
    split at hmove <;> cases hmove
  case h_15 | h_16 =>
    exact absurd ((congrArg Prod.snd (Option.some.inj h)).trans hpc)
      (reconcileOrTimeout_ne_finalizing _ _ _ _ _ t)
  case h_17 =>
    have hmove := (congrArg Prod.snd (Option.some.inj h)).trans hpc
    dsimp only at hmove
    split at hmove
    · exact absurd hmove (reconcileOrTimeout_ne_finalizing _ _ _ _ _ t)
    · exact absurd hmove (reconcileOrTimeout_ne_finalizing _ _ _ _ _ t)
    · cases hmove
    · cases hmove
  case h_37 =>
    have hmove := (congrArg Prod.snd (Option.some.inj h)).trans hpc
    dsimp only [afterCancel] at hmove
    split at hmove <;> cases hmove
  -- Failed outputs, and the output of the run itself.
  case h_20 =>
    have hmove := moved h
    unfold afterOverdue at hmove
    split at hmove
    · exact failed (fun _ => LockedRows.failedTerminalOutput_status) hmove hpc
    · cases hmove
      cases hpc
    · cases hmove
      cases hpc
    · cases hmove
      cases hpc
  case h_23 | h_24 =>
    have hmove := moved h
    unfold afterInterruptError at hmove
    split_ifs at hmove
    · exact failed (fun _ => LockedRows.failedTerminalOutput_status) hmove hpc
    · cases hmove
      cases hpc
  case h_25 =>
    have hmove := moved h
    unfold afterInterrupts at hmove
    split_ifs at hmove
    · cases hmove
      cases hpc
    · exact failed (fun _ => LockedRows.failedTerminalOutput_status) hmove hpc
    · cases hmove
      cases hpc
  case h_27 =>
    obtain ⟨⟨s₁, remembered⟩, -, h⟩ := Option.bind_eq_some_iff.mp h
    dsimp only at h
    split_ifs at h
    · cases h
      cases hpc
    · cases h
      cases hpc
    · obtain ⟨t', ht', h⟩ := Option.map_eq_some_iff.mp h
      cases h
      cases hpc
      exact lacksArtifact_of_failed (remoteFailure_status ht')
  case h_28 =>
    obtain ⟨t', ht', h⟩ := Option.map_eq_some_iff.mp h
    cases h
    cases hpc
    exact terminalOf_checked ht'
  case h_29 | h_30 => exact terminalRetry_checked (moved h) hpc
  case h_38 =>
    split_ifs at h
    · exact terminalRetry_checked (moved h) hpc
    · cases (congrArg Prod.snd (Option.some.inj h)).trans hpc
    · exact ended h fun _ => nofun
  -- Transactions.
  case h_6 | h_10 | h_12 | h_22 | h_34 =>
    refine ended h fun x => ?_
    dsimp only
    split_ifs <;> exact nofun
  case h_11 | h_21 | h_26 | h_31 | h_33 | h_39 | h_40 => exact ended h fun _ => nofun
  case h_32 =>
    split at h
    · cases (congrArg Prod.snd (Option.some.inj h)).trans hpc
    · exact ended h fun _ => nofun
  case h_41 => cases h

end Checked

end TaskStore

namespace TaskState

variable {cfg : DispatcherConfig} {digests : KeyDigests} {t t' : TaskState}

/-- The rows of a task are sound for the leases that were given out on it. -/
structure Sound (t : TaskState) : Prop extends t.store.Sound t.leases where
  checked : ∀ a ∈ t.activations, a.Checked

theorem step_checked (h : ∀ a ∈ t.activations, a.Checked) {label : TaskLabel}
    (hstep : t.step cfg digests label = some t') : ∀ a ∈ t'.activations, a.Checked :=
  forall_workers hstep h (fun _ _ => nofun) fun _ _ _ _ _ _ hmove _ hpc =>
    TaskStore.executeStep_checked hmove hpc

theorem Sound.step {label : TaskLabel} (h : t.Sound) (hstep : t.step cfg digests label = some t') :
    t'.Sound := by
  obtain ⟨lease, hchange, hleases⟩ := step_change h.toKeyed h.checked hstep
  refine ⟨?_, step_checked h.checked hstep⟩
  rw [hleases]
  exact h.toSound.change hchange

theorem Sound.admitted (taskId commandId : ℕ) (threadId : String) (admission : Admission)
    (payloadHash : String) :
    (TaskState.admitted taskId commandId threadId admission payloadHash).Sound := by
  refine ⟨⟨⟨?_, ?_, ?_, ?_⟩, ⟨?_, ?_, ?_, ?_, ?_⟩, ?_, ?_⟩, ?_⟩ <;>
    simp [TaskState.admitted, TaskStore.admitted, TaskCommand.new, leases]

/-- Every state that a task can reach is sound. -/
theorem Sound.reaches {ok : TaskState → TaskLabel → Prop}
    (hr : Reaches (TaskState.step cfg digests) ok t t') (h : t.Sound) : t'.Sound :=
  hr.invariant (I := Sound) (fun _ _ _ _ h hstep => h.step hstep) h

end TaskState

end CryptoAlert
