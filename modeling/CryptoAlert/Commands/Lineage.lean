import CryptoAlert.Commands.Integrity

/-!
# Retries and forks from their admission to their claim

A retry or a fork is admitted along with its run, and validated again when its command is
claimed. Until then the command is the first live one of the task, so that no other worker
touches what the validation reads: the two agree exactly if they do so at the admission.
-/

namespace CryptoAlert

/-- What the validation of a retry or a fork reads of a run, but for its status. -/
structure RunRow.SameLineage (r r' : RunRow) : Prop where
  id : r'.id = r.id
  retryOf : r'.retryOfRunId = r.retryOfRunId
  forkedFrom : r'.forkedFromRunId = r.forkedFromRunId
  forkedFromCheckpoint : r'.forkedFromCheckpointId = r.forkedFromCheckpointId
  checkpointId : r'.checkpointId = r.checkpointId

namespace RunRow.SameLineage

theorem refl (r : RunRow) : r.SameLineage r := ⟨rfl, rfl, rfl, rfl, rfl⟩

theorem trans {r r' r'' : RunRow} (h : r.SameLineage r') (h' : r'.SameLineage r'') :
    r.SameLineage r'' :=
  ⟨h'.id.trans h.id, h'.retryOf.trans h.retryOf, h'.forkedFrom.trans h.forkedFrom,
    h'.forkedFromCheckpoint.trans h.forkedFromCheckpoint, h'.checkpointId.trans h.checkpointId⟩

theorem of_identity {r r' : RunRow} (h : r.SameIdentity r')
    (hcheckpoint : r'.checkpointId = r.checkpointId) : r.SameLineage r' :=
  ⟨h.id, h.retryOf, h.forkedFrom, h.forkedFromCheckpoint, hcheckpoint⟩

end RunRow.SameLineage

namespace TaskStore

variable {cfg : DispatcherConfig} {digests : KeyDigests} {leases : List CommandLease}
  {s s' : TaskStore} {lease? : Option CommandLease}

section Kept

/-- No run but the one with the given id changes its status, and none its lineage. -/
def LineageKept (s s' : TaskStore) (runId : ℕ) : Prop :=
  ∀ r ∈ s.runs, ∃ r' ∈ s'.runs, r.SameLineage r' ∧ (r.id ≠ runId → r'.status = r.status)

theorem LineageKept.of_sub {runId : ℕ} (h : ∀ r ∈ s.runs, r ∈ s'.runs) : LineageKept s s' runId :=
  fun r hr => ⟨r, h r hr, .refl r, fun _ => rfl⟩

theorem LineageKept.put {runId : ℕ} {run r : RunRow} (hk : s.Keyed) (hrun : run ∈ s.runs)
    (hlineage : run.SameLineage r) (hstatus : run.id ≠ runId → r.status = run.status)
    (hruns : s'.runs = Table.put RunRow.id s.runs r) : LineageKept s s' runId := by
  intro old hold
  rw [hruns]
  by_cases hid : old.id = run.id
  · have hsame : old = run := List.inj_on_of_nodup_map hk.runIds hold hrun hid
    rw [hsame]
    exact ⟨r, Table.mem_put_self hrun hlineage.id.symm, hlineage, hstatus⟩
  · exact ⟨old, Table.mem_put_other hold fun heq => hid (heq.trans hlineage.id), .refl old,
      fun _ => rfl⟩

theorem First.eq (hk : s.Keyed) {c d : TaskCommand} (hc : s.First c) (hd : s.First d) : c = d :=
  List.inj_on_of_nodup_map hk.sequences hc.mem hd.mem
    (Nat.le_antisymm (hc.le d hd.mem hd.live) (hd.le c hc.mem hc.live))

theorem driveRun_checkpointId (cfg : DispatcherConfig) (type : CommandType) (run : RunRow)
    (now : ℕ) : (driveRun cfg type run now).checkpointId = run.checkpointId := by
  unfold driveRun
  dsimp only
  split_ifs <;> rfl

/-- A command that was ended is not live. -/
theorem not_live_settled {c c' : TaskCommand} {status : CommandStatus}
    (hended : status.isLive = false)
    (hcommands : s'.commands = Table.put TaskCommand.id s.commands (c.settle status))
    (hc' : c' ∈ s'.commands) (hid : c'.id = c.id) : c'.isLive = false := by
  rw [hcommands] at hc'
  obtain ⟨-, hne⟩ | ⟨rfl, -⟩ := Table.mem_put.mp hc'
  · exact absurd hid hne
  · exact hended

theorem requested_lineage (hk : s.Keyed) (hr : Requested digests s s') {runId : ℕ}
    {c : TaskCommand} (hc : c ∈ s.commands) (hlive : c.isLive) : LineageKept s s' runId := by
  have hbusy : (∀ d ∈ s.commands, d.isLive = false) → False := by
    intro hidle
    have hended := hidle c hc
    rw [hlive] at hended
    cases hended
  cases hr with
  | cancelTask key commandId now active idle fresh =>
      cases hlatest : s.latestRun with
      | none => exact .of_sub fun r hr => hr
      | some run =>
          exact .put (r := { run with cancelRequestedAt := some now }) hk
            (latestRun_mem hlatest) ⟨rfl, rfl, rfl, rfl, rfl⟩ (fun _ => rfl) rfl
  | cancelRun run key commandId now found active idle unrequested fresh =>
      exact .put (r := { run with cancelRequestedAt := some now }) hk
        (Table.find_eq_some found).1 ⟨rfl, rfl, rfl, rfl, rfl⟩ (fun _ => rfl) rfl
  | retry source key hash runId commandId latest idle retryable status freshRun fresh =>
      exact (hbusy idle).elim
  | fork source checkpointId key hash runId commandId now s₁ found checkpoint active idle closed
      freshRun fresh =>
      exact (hbusy idle).elim
  | answer pause parent payload key runId commandId now pauseFound pending parentFound paused
      waiting waitingTask members payloadPause expiry freshRun fresh =>
      exact .of_sub fun r hr => List.mem_append_left _ hr

theorem not_submit_of_insertsRun {c : TaskCommand} (h : c.commandType.insertsRun) :
    c.commandType ≠ .submit := by
  intro hsubmit
  rw [hsubmit] at h
  cases h

theorem claims_lineage {now : ℕ} (hk : s.Keyed) (hc : Claims cfg s now s' lease?)
    {c c' : TaskCommand} (hfirst : s.First c) (hinserts : c.commandType.insertsRun) {runId : ℕ}
    (htarget : target c.payload = some runId) (hc' : c' ∈ s'.commands) (hid : c'.id = c.id)
    (hlive : c'.isLive) : LineageKept s s' runId := by
  have hended : ∀ status : CommandStatus, status.isLive = false →
      s'.commands = Table.put TaskCommand.id s.commands (c.settle status) → False := by
    intro status hended hcommands
    have hnot := not_live_settled hended hcommands hc' hid
    rw [hlive] at hnot
    cases hnot
  cases hc with
  | idle => exact .of_sub fun r hr => hr
  | cancelled d next moot =>
      obtain rfl := hfirst.eq hk (first_of_next next)
      exact (hended .cancelled rfl rfl).elim
  | failed d code errorType message run s' next invalid fail =>
      obtain rfl := hfirst.eq hk (first_of_next next)
      obtain ⟨-, rfl⟩ | ⟨run', t, l, -, -, hp, rfl⟩ := failInvalid_eq_some fail
      · exact (hended .failed rfl rfl).elim
      · have hcommands : (s.write l).commands =
            Table.put TaskCommand.id s.commands (c.settle .failed) := by
          rw [write, hp.command]
          rfl
        exact (hended .failed rfl hcommands).elim
  | driven d workerId run s₁ lease next drives ensured leaseOf worker =>
      obtain rfl := hfirst.eq hk (first_of_next next)
      cases ensured with
      | found claimed =>
          have hrun := claimedRun_target claimed htarget
          rw [Option.map_some, Option.some.injEq] at hrun
          exact .put hk (claimedRun_mem claimed)
            (.of_identity (driveRun_identity cfg c.commandType run now)
              (driveRun_checkpointId cfg c.commandType run now))
            (fun hne => absurd hrun hne) rfl
      | inserted id submit none fresh first =>
          exact absurd submit (not_submit_of_insertsRun hinserts)
  | cancelling d workerId run lease next cancels claimed leaseOf worker =>
      exact .of_sub fun r hr => hr

/-- While a command that inserted its run is live, all but that run stay as they are. -/
theorem lineage_kept (h : s.Sound leases) (hc : Change cfg digests leases s s' lease?)
    {c c' : TaskCommand} (hfirst : s.First c) (hinserts : c.commandType.insertsRun) {runId : ℕ}
    (htarget : target c.payload = some runId) (hc' : c' ∈ s'.commands) (hid : c'.id = c.id)
    (hlive : c'.isLive) : LineageKept s s' runId := by
  cases hc with
  | relaxed relaxed =>
      intro r hr
      obtain ⟨r', hr', hquiet⟩ := Table.exists_of_forall₂' relaxed.runs hr
      exact ⟨r', hr', .of_identity hquiet.toSameIdentity hquiet.checkpointId,
        fun _ => hquiet.status⟩
  | requested requested => exact requested_lineage h.toKeyed requested hfirst.mem hfirst.live
  | claimed now claims =>
      exact claims_lineage h.toKeyed claims hfirst hinserts htarget hc' hid hlive
  | @effect lease command run l issued locks effect =>
      obtain rfl := hfirst.eq h.toKeyed (locks.first h)
      have hgiven := h.givenOn issued locks.mem locks.owned
      have hrun : run.id = runId := by
        have htarget' := hgiven.target runId htarget
        rw [locks.target, Option.some.injEq] at htarget'
        exact htarget'
      have hcommand : c' = l.command := by
        obtain ⟨-, hne⟩ | ⟨heq, -⟩ := Table.mem_put.mp hc'
        · exact absurd (hid.trans effect.command.id.symm) hne
        · exact heq
      have hcheckpoint : l.run.checkpointId = run.checkpointId := by
        rw [hcommand] at hlive
        cases effect with
        | quiet _ quiet => exact quiet.checkpointId
        | dropped _ _ _ _ status =>
            rw [TaskCommand.isLive, status] at hlive
            cases hlive
        | requeued _ _ _ _ checkpointId => exact checkpointId
        | paused _ _ _ _ _ _ _ _ _ _ _ _ _ _ _ _ _ _ _ _ status =>
            rw [TaskCommand.isLive, status] at hlive
            cases hlive
        | settled _ _ _ _ _ _ _ _ _ _ _ _ _ status =>
            obtain status | status := status <;> rw [TaskCommand.isLive, status] at hlive <;>
              cases hlive
        | projected _ _ _ _ _ _ _ _ _ status =>
            rw [TaskCommand.isLive, status] at hlive
            cases hlive
      exact .put h.toKeyed (Table.find_eq_some locks.found).1
        (.of_identity effect.identity hcheckpoint) (fun hne => absurd hrun hne) rfl
  | @unassigned s' lease command status task issued unassigned =>
      have howned := TaskCommand.isCurrent_of_owned unassigned.owned
      have hsame : s.First command := ⟨unassigned.mem, isLive_of_dispatching howned.2.1,
        h.ordered command unassigned.mem howned.2.1⟩
      obtain rfl := hfirst.eq h.toKeyed hsame
      have hcommands : s'.commands = Table.put TaskCommand.id s.commands (c.settle status) := by
        rw [unassigned.store]
        rfl
      have hnot := not_live_settled unassigned.ended hcommands hc' hid
      rw [hlive] at hnot
      cases hnot

end Kept

section Awaited

theorem LineageKept.refl (s : TaskStore) (runId : ℕ) : LineageKept s s runId :=
  .of_sub fun _ hr => hr

theorem LineageKept.trans {s'' : TaskStore} {runId : ℕ} (h : LineageKept s s' runId)
    (h' : LineageKept s' s'' runId) : LineageKept s s'' runId := by
  intro r hr
  obtain ⟨r', hr', hlineage, hstatus⟩ := h r hr
  obtain ⟨r'', hr'', hlineage', hstatus'⟩ := h' r' hr'
  refine ⟨r'', hr'', hlineage.trans hlineage', ?_⟩
  intro hne
  rw [hstatus' (by rwa [hlineage.id]), hstatus hne]

/-- Since the rows `s₁`, nothing has changed that the validation of a command reads; the
command is still the first live one, unless it was ended. -/
structure Awaits (s₁ : TaskStore) (c : TaskCommand) (runId : ℕ) (s : TaskStore) : Prop where
  known : ∃ d ∈ s.commands, d.id = c.id
  kept : ∀ d ∈ s.commands, d.id = c.id → d.isLive →
    s.First d ∧ d.payload = c.payload ∧ LineageKept s₁ s runId

variable {s₁ : TaskStore} {c : TaskCommand} {runId : ℕ}

/-- A command that was inserted while no other was live is the first one. -/
theorem Awaits.inserted (hcommands : s₁.commands = s.commands ++ [c])
    (hidle : ∀ d ∈ s.commands, d.isLive = false) (hfresh : ∀ d ∈ s.commands, d.id ≠ c.id) :
    Awaits s₁ c runId s₁ := by
  have hmem : c ∈ s₁.commands := by rw [hcommands]; simp
  have hcases : ∀ d ∈ s₁.commands, d ∈ s.commands ∨ d = c := by
    intro d hd
    rw [hcommands] at hd
    exact (List.mem_append.mp hd).imp id List.mem_singleton.mp
  refine ⟨⟨c, hmem, rfl⟩, ?_⟩
  intro d hd hid hlive
  obtain hd | rfl := hcases d hd
  · exact absurd hid (hfresh d hd)
  · refine ⟨⟨hmem, hlive, ?_⟩, rfl, .refl s₁ runId⟩
    intro e he helive
    obtain he | rfl := hcases e he
    · rw [hidle e he] at helive
      cases helive
    · exact le_rfl

theorem Awaits.change (hawaits : Awaits s₁ c runId s) (h : s.Sound leases)
    (hc : Change cfg digests leases s s' lease?) (hinserts : c.commandType.insertsRun)
    (htarget : target c.payload = some runId) : Awaits s₁ c runId s' := by
  obtain ⟨known, hknown, hsame⟩ := hawaits.known
  constructor
  · obtain ⟨d, hd, hcontinues⟩ := (hc.grows h.toKeyed).command hknown
    exact ⟨d, hd, hcontinues.id.trans hsame⟩
  · intro d' hd' hid hlive
    obtain ⟨d, hd, hdlive, hcontinues⟩ | hinserted := live_before h hc hd' hlive
    · obtain ⟨hfirst, hpayload, hkept⟩ := hawaits.kept d hd (hcontinues.id.symm.trans hid) hdlive
      have htype : d.commandType.insertsRun := by
        rw [TaskCommand.commandType, hpayload]
        exact hinserts
      have hstep := lineage_kept h hc hfirst htype (hpayload ▸ htarget) hd' hcontinues.id hlive
      refine ⟨⟨hd', hlive, ?_⟩, hcontinues.payload.trans hpayload, hkept.trans hstep⟩
      intro e' he' helive
      rw [hcontinues.sequence]
      obtain ⟨e, he, helive, hsequence⟩ | hinserted := live_before h hc he' helive
      · rw [hsequence.sequence]
        exact hfirst.le e he helive
      · have hle := le_maxSequence hd
        rw [hinserted.sequence]
        omega
    · exact absurd (hsame.trans hid.symm) (hinserted.fresh.id known hknown)

/-- Closing the pause for a fork leaves the lineage of all runs. -/
theorem cancelPendingPauseForFork_lineage (hk : s.Keyed) {now : ℕ}
    (h : s.cancelPendingPauseForFork now = .ok s') {r : RunRow} (hr : r ∈ s.runs) :
    ∃ r' ∈ s'.runs, r.SameLineage r' := by
  obtain ⟨rfl, -⟩ | ⟨pause, run, -, -, -, -, hrun, -, rfl⟩ := cancelPendingPauseForFork_cases h
  · exact ⟨r, hr, .refl r⟩
  · let cancelled : RunRow := { run with
      status := .cancelled, finishedAt := some (run.finishedAt.getD now) }
    have hkept : LineageKept s (s.putRun cancelled) run.id :=
      .put (r := cancelled) hk (Table.find_eq_some hrun).1 ⟨rfl, rfl, rfl, rfl, rfl⟩
        (fun hne => absurd rfl hne) rfl
    obtain ⟨r', hr', hlineage, -⟩ := hkept r hr
    exact ⟨r', hr', hlineage⟩

/-- The run of a command, and the run that it starts from, at the claim. -/
theorem LineageKept.find (hkept : LineageKept s₁ s runId) (hk : s.Keyed) {r : RunRow}
    (hr : r ∈ s₁.runs) : ∃ r', s.findRun r.id = some r' ∧ r.SameLineage r' ∧
      (r.id ≠ runId → r'.status = r.status) := by
  obtain ⟨r', hr', hlineage, hstatus⟩ := hkept r hr
  refine ⟨r', ?_, hlineage, hstatus⟩
  rw [← hlineage.id]
  exact Table.find_of_mem hk.runIds hr'

theorem claimedRun_retry_iff (hk : s.Keyed) {source run : RunRow} (hsource : source ∈ s₁.runs)
    (hrun : run ∈ s₁.runs) (hne : source.id ≠ run.id)
    (hretry : run.retryOfRunId = some source.id) (hkept : LineageKept s₁ s run.id)
    (hpayload : c.payload = .retry ⟨source.id, run.id⟩) :
    (∃ r, s.claimedRun c = .run r) ↔ source.status = .failed ∨ source.status = .blocked := by
  obtain ⟨source', hsource', -, hstatus⟩ := hkept.find hk hsource
  obtain ⟨run', hrun', hlineage, -⟩ := hkept.find hk hrun
  have hvalid : RetryCommandPayload.validate ⟨source.id, run.id⟩ = some ⟨source.id, run.id⟩ :=
    RetryCommandPayload.validate_eq_some.mpr ⟨hne, rfl⟩
  have hretry' : run'.retryOfRunId = some source.id := hlineage.retryOf.trans hretry
  rw [← hstatus hne]
  simp only [claimedRun, hpayload, validateRetry, hvalid, hrun', hsource', Option.filter_some,
    hretry', beq_self_eq_true, if_true, Option.isSome_some, Bool.true_and, Bool.or_eq_true,
    beq_iff_eq]
  by_cases hfailed : source'.status = .failed ∨ source'.status = .blocked
  · simp [hfailed]
  · simp [hfailed]

theorem claimedRun_fork_iff (hk : s.Keyed) {source run : RunRow} {checkpointId : String}
    (hsource : source ∈ s₁.runs) (hrun : run ∈ s₁.runs) (hne : source.id ≠ run.id)
    (hcheckpoint : source.checkpointId = some checkpointId)
    (hrunCheckpoint : run.checkpointId = some checkpointId)
    (hforked : run.forkedFromRunId = some source.id)
    (hforkedCheckpoint : run.forkedFromCheckpointId = some checkpointId)
    (hkept : LineageKept s₁ s run.id)
    (hpayload : c.payload = .fork ⟨source.id, run.id, checkpointId⟩) :
    (∃ r, s.claimedRun c = .run r) ↔ strippedWithin 1 255 checkpointId = some checkpointId := by
  obtain ⟨source', hsource', hlineage, -⟩ := hkept.find hk hsource
  obtain ⟨run', hrun', hlineage', -⟩ := hkept.find hk hrun
  have hsourceCheckpoint := hlineage.checkpointId.trans hcheckpoint
  have hrunCheckpoint' := hlineage'.checkpointId.trans hrunCheckpoint
  have hforked' := hlineage'.forkedFrom.trans hforked
  have hforkedCheckpoint' := hlineage'.forkedFromCheckpoint.trans hforkedCheckpoint
  cases hstripped : strippedWithin 1 255 checkpointId with
  | none =>
      have hinvalid : ForkCommandPayload.validate ⟨source.id, run.id, checkpointId⟩ = none := by
        rw [Option.eq_none_iff_forall_ne_some]
        intro p hp
        have hstripped' := (ForkCommandPayload.validate_eq_some.mp hp).2.1
        rw [hstripped] at hstripped'
        cases hstripped'
      simp [claimedRun, hpayload, validateFork, hinvalid]
  | some stripped =>
      have hvalid : ForkCommandPayload.validate ⟨source.id, run.id, checkpointId⟩ =
          some ⟨source.id, run.id, stripped⟩ :=
        ForkCommandPayload.validate_eq_some.mpr ⟨hne, hstripped, rfl, rfl⟩
      simp only [claimedRun, hpayload, validateFork, hvalid, hrun', hsource', Option.filter_some,
        hsourceCheckpoint, hrunCheckpoint', hforked', hforkedCheckpoint', Option.any_some,
        Option.some.injEq]
      by_cases hsame : stripped = checkpointId
      · simp [hsame]
      · have hsame' : checkpointId ≠ stripped := fun h => hsame h.symm
        simp [hsame, hsame']

end Awaited

end TaskStore

/-- A request to start a run from an earlier one of the task. -/
inductive Restart where
  | retry (key : String) (runId commandId : ℕ)
  | fork (sourceRunId : ℕ) (checkpointId : Option String) (key : String)
      (runId commandId now : ℕ)

namespace Restart

variable {cfg : DispatcherConfig} {digests : KeyDigests}

def label : Restart → TaskLabel
  | retry key runId commandId => .retryTask key runId commandId
  | fork sourceRunId checkpointId key runId commandId now =>
      .forkTask sourceRunId checkpointId key runId commandId now

/-- What the service answers. -/
def answer (digests : KeyDigests) (s : TaskStore) : Restart → ServiceResult
  | retry key runId commandId => s.retryTask digests key runId commandId
  | fork sourceRunId checkpointId key runId commandId now =>
      s.forkTask digests sourceRunId checkpointId key runId commandId now

def commandId : Restart → ℕ
  | retry _ _ commandId => commandId
  | fork _ _ _ _ commandId _ => commandId

/-- A retry starts from a run that failed or was blocked, a fork from a checkpoint whose id is
stripped and not too long. -/
def HasLineage (s : TaskStore) : Restart → Prop
  | retry _ _ _ => ∃ source, s.latestRun = some source ∧
      (source.status = .failed ∨ source.status = .blocked)
  | fork sourceRunId _ _ _ _ _ => ∃ source checkpointId, s.findRun sourceRunId = some source ∧
      source.checkpointId = some checkpointId ∧
      strippedWithin 1 255 checkpointId = some checkpointId

theorem step_label (restart : Restart) (t : TaskState) :
    t.step cfg digests restart.label = t.afterService (restart.answer digests t.store) := by
  cases restart <;> rfl

/-- An accepted request inserts a command whose validation awaits the claim. -/
theorem exists_awaits {restart : Restart} {s s₁ : TaskStore} (hk : s.Keyed)
    (h : restart.answer digests s = .ok (s₁, .requested)) :
    ∃ c runId, c.id = restart.commandId ∧ c.commandType.insertsRun ∧
      TaskStore.target c.payload = some runId ∧ TaskStore.Awaits s₁ c runId s₁ ∧
      ∀ s₂ : TaskStore, s₂.Keyed → TaskStore.LineageKept s₁ s₂ runId →
        ∀ d : TaskCommand, d.payload = c.payload →
          ((∃ run, s₂.claimedRun d = .run run) ↔ restart.HasLineage s) := by
  cases restart with
  | retry key runId commandId =>
      obtain ⟨-, hview⟩ | ⟨source, key', hash, hlatest, hidle, -, -, hfreshRun, hfresh, rfl⟩ :=
        TaskStore.retryTask_cases h
      · cases hview
      · have hsource := TaskStore.latestRun_mem hlatest
        let run : RunRow := { RunRow.new runId (s.maxAttempt + 1) .queued with
          retryOfRunId := some source.id }
        refine ⟨_, runId, rfl, rfl, rfl, .inserted rfl hidle hfresh.id, ?_⟩
        intro s₂ hk₂ hkept d hpayload
        have hrun : run ∈ s.runs ++ [run] := List.mem_append_right _ List.mem_cons_self
        rw [TaskStore.claimedRun_retry_iff hk₂ (List.mem_append_left _ hsource) hrun
          (hfreshRun.id source hsource) rfl hkept hpayload]
        simp [HasLineage, hlatest]
  | fork sourceRunId checkpointId key runId commandId now =>
      obtain ⟨-, hview⟩ | ⟨source, sourceCheckpointId, key', hash, s₀, hfound, hcheckpoint, -,
        hidle, hclosed, hfreshRun, hfresh, rfl⟩ := TaskStore.forkTask_cases h
      · cases hview
      · obtain ⟨source', hsource', hlineage⟩ :=
          TaskStore.cancelPendingPauseForFork_lineage hk hclosed (Table.find_eq_some hfound).1
        obtain ⟨hcommands, -⟩ := TaskStore.cancelPendingPauseForFork_commands hclosed
        let run : RunRow := { RunRow.new runId (s₀.maxAttempt + 1) .queued with
          checkpointId := some sourceCheckpointId
          forkedFromRunId := some source.id
          forkedFromCheckpointId := some sourceCheckpointId }
        refine ⟨_, runId, rfl, rfl, rfl, .inserted rfl (hcommands ▸ hidle) hfresh.id, ?_⟩
        intro s₂ hk₂ hkept d hpayload
        have hrun : run ∈ s₀.runs ++ [run] := List.mem_append_right _ List.mem_cons_self
        rw [TaskStore.claimedRun_fork_iff hk₂ (List.mem_append_left _ hsource') hrun
          (hfreshRun.id source' hsource') (hlineage.checkpointId.trans hcheckpoint) rfl
          (congrArg some hlineage.id.symm) rfl hkept (by rw [hpayload, hlineage.id]; rfl)]
        simp [HasLineage, hfound, hcheckpoint]

/-- While the command of an accepted retry or fork is live, whatever else happens, its validation
succeeds if and only if the request had a lineage that the validation accepts. -/
theorem claimedRun_iff {restart : Restart} {taskId commandId : ℕ} {threadId : String}
    {admission : Admission} {payloadHash : String} {t t₂ : TaskState} {s₁ : TaskStore}
    {c : TaskCommand}
    (hr : Reaches (TaskState.step cfg digests) anyStep
      (.admitted taskId commandId threadId admission payloadHash) t)
    (hanswer : restart.answer digests t.store = .ok (s₁, .requested))
    (hr₂ : Reaches (TaskState.step cfg digests) anyStep { t with store := s₁ } t₂)
    (hc : c ∈ t₂.store.commands) (hid : c.id = restart.commandId) (hlive : c.isLive) :
    (∃ run, t₂.store.claimedRun c = .run run) ↔ restart.HasLineage t.store := by
  have hs := TaskState.Sound.reaches hr (.admitted taskId commandId threadId admission payloadHash)
  have hstep : t.step cfg digests restart.label = some { t with store := s₁ } := by
    rw [step_label, hanswer]
    rfl
  obtain ⟨c₁, runId, hid₁, hinserts, htarget, hawaits, hvalid⟩ := exists_awaits hs.toKeyed hanswer
  have hawaits₂ : TaskStore.Awaits s₁ c₁ runId t₂.store := by
    refine hr₂.invariant_of (I := TaskState.Sound)
      (J := fun t => TaskStore.Awaits s₁ c₁ runId t.store) (fun _ _ _ _ h hstep => h.step hstep)
      ?_ (hs.step hstep) hawaits
    intro u label u' _ hu hawaits hstep
    obtain ⟨lease, hchange, -⟩ := TaskState.step_change hu.toKeyed hu.checked hstep
    exact hawaits.change hu.toSound hchange hinserts htarget
  have hs₂ := TaskState.Sound.reaches hr₂ (hs.step hstep)
  obtain ⟨-, hpayload, hkept⟩ := hawaits₂.kept c hc (hid.trans hid₁.symm) hlive
  exact hvalid t₂.store hs₂.toKeyed hkept c hpayload

def failedRun : List TaskLabel :=
  [.claim "worker" 3 0, .execute 0 .proceed 0, .execute 0 .proceed 0,
    .execute 0 (.found plainHandle) 1, .execute 0 .proceed 1, .execute 0 .proceed 2,
    .execute 0 (.state (.terminal .error)) 3, .execute 0 .proceed 3,
    .execute 0 (.commit ⟨4, 5, 6⟩) 4]

def cancelledRun : List TaskLabel :=
  [.claim "worker" 3 0, .execute 0 .proceed 0, .execute 0 .proceed 0,
    .execute 0 (.found plainHandle) 1, .execute 0 .proceed 1, .cancelRun 3 "cancel" 4 2,
    .claim "worker" 5 3, .execute 1 .proceed 3, .execute 1 (.cancelled .confirmed) 4,
    .execute 1 .proceed 4]

/-- The retry of a run that failed is claimed. -/
theorem claimedRun_iff_failed : ∃ (t : TaskState) (s₁ : TaskStore) (c : TaskCommand),
    (retry "retry" 6 7).answer plainDigests t.store = .ok (s₁, .requested) ∧ c ∈ s₁.commands ∧
      c.isLive ∧ ∃ run, s₁.claimedRun c = .run run := by
  have hany : (runLabels (TaskState.step plainDispatcher plainDigests) plainTask failedRun).any
      (fun t => t.store.latestRun.any (fun source => source.status == .failed) &&
        ((retry "retry" 6 7).answer plainDigests t.store).requested?.any fun s₁ =>
          s₁.commands.any fun c => c.id == 7 && c.isLive) = true := by
    decide +kernel
  obtain ⟨t, hlabels, hdone⟩ := (Option.any_eq_true _ _).mp hany
  obtain ⟨hfailed, haccepted⟩ := Bool.and_eq_true_iff.mp hdone
  obtain ⟨source, hsource, hstatus⟩ := (Option.any_eq_true _ _).mp hfailed
  have hrun := reaches_of_runLabels failedRun hlabels
  obtain ⟨s₁, hrequested, haccepted⟩ := (Option.any_eq_true _ _).mp haccepted
  have hanswer := ServiceResult.eq_of_requested hrequested
  obtain ⟨c, hc, hlive⟩ := List.any_eq_true.mp haccepted
  obtain ⟨hid, hlive⟩ := Bool.and_eq_true_iff.mp hlive
  refine ⟨t, s₁, c, hanswer, hc, hlive, ?_⟩
  exact (claimedRun_iff hrun hanswer .refl hc (beq_iff_eq.mp hid) hlive).mpr
    ⟨source, hsource, .inl (beq_iff_eq.mp hstatus)⟩

/-- Whether the dispatcher finds the next command invalid and fails its run. -/
def failsInvalid (s : TaskStore) : Bool :=
  ((s.nextCommand 5).any fun c => c.id == 7 && match s.claimedRun c with
    | .run _ => false
    | _ => true) &&
  match s.claimNext plainDispatcher "worker" 8 5 with
  | some (s₂, none) => s₂.runs.map RunRow.failureCode == [none, some "invalid_retry_lineage"]
  | _ => false

theorem failsInvalid_spec {s : TaskStore} (h : failsInvalid s = true) :
    ∃ c s₂, s.nextCommand 5 = some c ∧ c.id = 7 ∧ (¬ ∃ run, s.claimedRun c = .run run) ∧
      s.claimNext plainDispatcher "worker" 8 5 = some (s₂, none) ∧
      s₂.runs.map RunRow.failureCode = [none, some "invalid_retry_lineage"] := by
  obtain ⟨hnext, hclaim⟩ := Bool.and_eq_true_iff.mp h
  obtain ⟨c, hc, hinvalid⟩ := (Option.any_eq_true _ _).mp hnext
  obtain ⟨hid, hinvalid⟩ := Bool.and_eq_true_iff.mp hinvalid
  split at hclaim
  · rename_i s₂ hclaimed
    refine ⟨c, s₂, hc, beq_iff_eq.mp hid, ?_, hclaimed, beq_iff_eq.mp hclaim⟩
    rintro ⟨run, hrun⟩
    rw [hrun] at hinvalid
    cases hinvalid
  · cases hclaim

/-- A run is cancelled on request and retried, as the service allows; the dispatcher fails the
retry as invalid. -/
theorem cancelled_retry_invalid : ∃ t s₁ c s₂,
    Reaches (TaskState.step plainDispatcher plainDigests) anyStep plainTask t ∧
      (retry "retry" 6 7).answer plainDigests t.store = .ok (s₁, .requested) ∧
      s₁.nextCommand 5 = some c ∧ c.id = 7 ∧ (¬ ∃ run, s₁.claimedRun c = .run run) ∧
      s₁.claimNext plainDispatcher "worker" 8 5 = some (s₂, none) ∧
      s₂.runs.map RunRow.failureCode = [none, some "invalid_retry_lineage"] := by
  have hany : (runLabels (TaskState.step plainDispatcher plainDigests) plainTask cancelledRun).any
      (fun t => ((retry "retry" 6 7).answer plainDigests t.store).requested?.any failsInvalid) =
        true := by
    decide +kernel
  obtain ⟨t, hlabels, hdone⟩ := (Option.any_eq_true _ _).mp hany
  obtain ⟨s₁, hrequested, hinvalid⟩ := (Option.any_eq_true _ _).mp hdone
  obtain ⟨c, s₂, hfails⟩ := failsInvalid_spec hinvalid
  exact ⟨t, s₁, c, s₂, reaches_of_runLabels _ hlabels, ServiceResult.eq_of_requested hrequested,
    hfails⟩

end Restart

end CryptoAlert
