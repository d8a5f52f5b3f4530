import CryptoAlert.Commands.Digests
import CryptoAlert.Commands.Soundness
import CryptoAlert.Graph.Gate
import CryptoAlert.Persistence.Artifacts

/-!
# Integrity of artifacts

A run that a live command may still settle has not succeeded. A projection therefore meets a run
without a version, commits one along with the status, and no later step touches either.
-/

namespace CryptoAlert

/-- A command that drives a run of its own, inserted with it. -/
def CommandType.insertsRun : CommandType → Bool
  | fork | retry => true
  | submit | respond | cancelRun | cancelTask => false

/-- A write that neither lets a run succeed nor touches one that has. -/
structure RunRow.KeepsSuccess (r r' : RunRow) : Prop where
  id : r'.id = r.id
  attempt : r'.attempt = r.attempt
  status : r'.status = .succeeded ↔ r.status = .succeeded
  output : r.status = .succeeded → r'.outputPayload = r.outputPayload

namespace RunRow.KeepsSuccess

theorem refl (r : RunRow) : r.KeepsSuccess r := ⟨rfl, rfl, .rfl, fun _ => rfl⟩

theorem of_open {r r' : RunRow} (h : r.SameIdentity r') (hr : r.status ≠ .succeeded)
    (hr' : r'.status ≠ .succeeded) : r.KeepsSuccess r' :=
  ⟨h.id, h.attempt, ⟨fun h => absurd h hr', fun h => absurd h hr⟩, fun h => absurd h hr⟩

theorem of_quiet {r r' : RunRow} (h : r.Quiet r') : r.KeepsSuccess r' :=
  ⟨h.id, h.attempt, by rw [h.status], fun _ => h.outputPayload⟩

end RunRow.KeepsSuccess

namespace TaskStore

/-- No run that a live command may settle has succeeded. -/
structure Targets (s : TaskStore) (leases : List CommandLease) : Prop where
  latest : isClaimable s.task.status → ∀ r ∈ s.runs, (∀ r' ∈ s.runs, r'.attempt ≤ r.attempt) →
    r.status ≠ .succeeded
  inserted : ∀ c ∈ s.commands, c.isLive → c.commandType.insertsRun →
    (∀ d ∈ s.commands, d.isLive → c.sequence ≤ d.sequence) ∧
      ∀ runId, target c.payload = some runId → ∀ r ∈ s.runs, r.id = runId → r.status ≠ .succeeded
  leased : ∀ lease ∈ leases, ∀ c ∈ s.commands, c.IsCurrent lease → ∀ r ∈ s.runs,
    lease.productRunId = some r.id → r.status ≠ .succeeded

/-- No run succeeds, and no run that has succeeded is touched. -/
def RunsKept (s s' : TaskStore) : Prop :=
  ∃ kept new, s'.runs = kept ++ new ∧ List.Forall₂ RunRow.KeepsSuccess s.runs kept ∧
    (new = [] ∨ ∃ r, new = [r] ∧ s.FreshRun r ∧ r.status ≠ .succeeded)

/-- The first projection of a succeeded output by a worker. -/
structure Succeeds (cfg : DispatcherConfig) (digests : KeyDigests) (s : TaskStore)
    (lease : CommandLease) (command : TaskCommand) (run : RunRow) (l : LockedRows)
    (t : TerminalGraphOutput) : Prop where
  locks : s.Locks lease command run
  succeeded : t.terminalStatus = .succeeded
  checked : lease.lacksArtifact t = false
  settled : l.command.isLive = false
  effect : (s.lock command run).Effect cfg digests s lease l
  task : l.task.status = .succeeded
  runStatus : l.run.status = .succeeded
  output : l.run.outputPayload = some t.modelDump
  commit : ∃ receipts outputs ids notification,
    commitTerminalArtifact s.task { s.outputs with receipts } ids run.id t =
      some (outputs, notification) ∧ outputs.SameArtifacts l.outputs

variable {cfg : DispatcherConfig} {digests : KeyDigests} {leases : List CommandLease}
  {s s' : TaskStore} {lease : CommandLease} {lease? : Option CommandLease}

section Runs

theorem RunsKept.of_kept (h : List.Forall₂ RunRow.KeepsSuccess s.runs s'.runs) : RunsKept s s' :=
  ⟨s'.runs, [], (List.append_nil _).symm, h, .inl rfl⟩

theorem keepsSuccess_refl (s : TaskStore) : List.Forall₂ RunRow.KeepsSuccess s.runs s.runs :=
  List.forall₂_same.mpr fun r _ => .refl r

theorem keepsSuccess_put (hk : s.Keyed) {run run' : RunRow} (hrun : run ∈ s.runs)
    (h : run.KeepsSuccess run') :
    List.Forall₂ RunRow.KeepsSuccess s.runs (Table.put RunRow.id s.runs run') :=
  Table.forall₂_put RunRow.KeepsSuccess.refl hk.runIds hrun h.id h

theorem latestRun_le {run : RunRow} (h : s.latestRun = some run) :
    ∀ r ∈ s.runs, r.attempt ≤ run.attempt := by
  have hfound := List.find?_some h
  rw [beq_iff_eq] at hfound
  intro r hr
  rw [hfound]
  exact Table.le_maxOf hr

theorem Targets.latestRun (ht : s.Targets leases) (hclaimable : isClaimable s.task.status)
    {run : RunRow} (h : s.latestRun = some run) : run.status ≠ .succeeded :=
  ht.latest hclaimable run (latestRun_mem h) (latestRun_le h)

theorem insertsRun_of_target {c : TaskCommand} {runId : ℕ} (h : target c.payload = some runId) :
    c.commandType.insertsRun ∨ c.payload = .cancelRun runId := by
  rw [TaskCommand.commandType]
  cases hpayload : c.payload with
  | submit request => simp [hpayload, target] at h
  | respond payload => simp [hpayload, target] at h
  | cancelTask id => simp [hpayload, target] at h
  | fork payload => exact .inl rfl
  | retry payload => exact .inl rfl
  | cancelRun id =>
      simp only [hpayload, target, Option.some.injEq] at h
      exact .inr (by rw [h])

theorem target_of_insertsRun {c : TaskCommand} (h : c.commandType.insertsRun) :
    ∃ runId, target c.payload = some runId ∧ c.commandType.drives := by
  rw [TaskCommand.commandType] at h ⊢
  cases hpayload : c.payload with
  | submit request =>
      rw [hpayload] at h
      cases h
  | respond payload =>
      rw [hpayload] at h
      cases h
  | cancelTask id =>
      rw [hpayload] at h
      cases h
  | cancelRun id =>
      rw [hpayload] at h
      cases h
  | fork payload => exact ⟨_, rfl, rfl⟩
  | retry payload => exact ⟨_, rfl, rfl⟩

/-- The run that a claim drives or cancels has not succeeded. -/
theorem Targets.claimedRun (ht : s.Targets leases) {c : TaskCommand} {run : RunRow}
    (hclaimable : isClaimable s.task.status) (hc : c ∈ s.commands) (hlive : c.isLive)
    (h : s.claimedRun c = .run (some run)) : run.status ≠ .succeeded := by
  obtain ⟨-, hlatest⟩ | ⟨runId, r, htarget, hfound, hrun, hactive⟩ := claimedRun_cases h
  · exact ht.latestRun hclaimable hlatest.symm
  · cases hrun
    obtain ⟨hmem, hid⟩ := Table.find_eq_some hfound
    obtain hinserts | hcancels := insertsRun_of_target htarget
    · exact (ht.inserted c hc hlive hinserts).2 runId htarget run hmem hid
    · intro hsucceeded
      have hterminal := hactive hcancels
      rw [hsucceeded] at hterminal
      cases hterminal

/-- The run that an invalid command fails has not succeeded. -/
theorem Targets.invalidRun (ht : s.Targets leases) {c : TaskCommand}
    {code errorType message : String} {run : RunRow} (hclaimable : isClaimable s.task.status)
    (hc : c ∈ s.commands) (hlive : c.isLive)
    (h : s.claimedRun c = .invalid code errorType message (some run)) :
    run.status ≠ .succeeded := by
  obtain hlatest | ⟨runId, r, htarget, hfound, hrun, hdrives⟩ := claimedRun_invalid_cases h
  · exact ht.latestRun hclaimable hlatest.symm
  · cases hrun
    obtain ⟨hmem, hid⟩ := Table.find_eq_some hfound
    obtain hinserts | hcancels := insertsRun_of_target htarget
    · exact (ht.inserted c hc hlive hinserts).2 runId htarget run hmem hid
    · rw [TaskCommand.commandType, hcancels] at hdrives
      cases hdrives

/-- The replay of a projected output never meets a live command. -/
theorem not_alreadyProjected (h : s.Sound leases) (hissued : lease ∈ leases)
    {command : TaskCommand} {run : RunRow} {t : TerminalGraphOutput}
    (hlocks : s.Locks lease command run) : alreadyProjected cfg lease t run = false := by
  have hgiven := h.givenOn hissued hlocks.mem hlocks.owned
  have hlt := h.fenced run (Table.find_eq_some hlocks.found).1 command hlocks.mem
    (isLive_of_dispatching hlocks.dispatching)
  rw [← hgiven.commandSequence] at hlt
  have hne : (run.projectionFence == lease.commandSequence) = false := by
    rw [beq_eq_false_iff_ne]
    omega
  rw [alreadyProjected, hne, Bool.false_and, Bool.false_and]

theorem runStatus_eq_succeeded {status : OutputStatus} (h : status.runStatus = .succeeded) :
    status = .succeeded := by
  cases status <;> first | rfl | cases h

/-- What a transaction does to a run that has not succeeded. -/
theorem effect_runs (h : s.Sound leases) (ht : s.Targets leases) (hissued : lease ∈ leases)
    {command : TaskCommand} {run : RunRow} {l : LockedRows} (hlocks : s.Locks lease command run)
    (heffect : (s.lock command run).Effect cfg digests s lease l) :
    (l.run.status ≠ .succeeded ∧ s.outputs.SameArtifacts l.outputs) ∨
      ∃ t, Succeeds cfg digests s lease command run l t := by
  have hmem := (Table.find_eq_some hlocks.found).1
  have hopen : run.status ≠ .succeeded :=
    ht.leased lease hissued command hlocks.mem (TaskCommand.isCurrent_of_owned hlocks.owned) run
      hmem hlocks.target
  have heffect' := heffect
  cases heffect with
  | quiet _ quiet _ _ _ _ artifacts =>
      refine .inl ⟨?_, artifacts⟩
      rw [quiet.status]
      exact hopen
  | dropped _ _ quiet _ _ _ outputs =>
      refine .inl ⟨?_, ?_⟩
      · rw [quiet.status]
        exact hopen
      · rw [outputs]
        exact .refl _
  | requeued _ _ _ _ _ runStatus _ _ _ _ outputs =>
      refine .inl ⟨?_, ?_⟩
      · rw [runStatus]
        exact nofun
      · rw [outputs]
        exact .refl _
  | paused _ _ _ _ _ _ _ _ _ _ _ _ _ _ _ _ runStatus _ _ _ _ outputs =>
      refine .inl ⟨?_, ?_⟩
      · rw [runStatus]
        exact nofun
      · rw [outputs]
        exact .refl _
  | settled t settledBy _ _ _ _ _ _ runStatus _ _ _ _ _ _ artifacts =>
      refine .inl ⟨?_, artifacts⟩
      rw [runStatus]
      intro hsucceeded
      cases settledBy with
      | failed hfailed =>
          rw [hfailed] at hsucceeded
          cases hsucceeded
      | cancelled => cases hsucceeded
      | replayed hreplayed =>
          rw [show (s.lock command run).run = run from rfl,
            not_alreadyProjected h hissued hlocks] at hreplayed
          cases hreplayed
  | projected t now ids closed checked accepts close project identity status =>
      have hp := LockedRows.projected_rows close project
      obtain ⟨receipts, outputs, notification, hcommit, hsame⟩ := hp.commit
      by_cases hstatus : t.terminalStatus = .succeeded
      · refine .inr ⟨t, hlocks, hstatus, checked, ?_, heffect', ?_, ?_, hp.output, receipts,
          outputs, ids, notification, hcommit, hsame⟩
        · rw [TaskCommand.isLive, status]
          rfl
        · rw [hp.task, TaskRow.terminalize, hstatus]
          rfl
        · rw [hp.runStatus, hstatus]
          rfl
      · refine .inl ⟨?_, ?_⟩
        · rw [hp.runStatus]
          exact fun hsucceeded => hstatus (runStatus_eq_succeeded hsucceeded)
        · have houtputs := commitTerminalArtifact_of_open hstatus hcommit
          rw [houtputs] at hsame
          exact ⟨hsame.artifacts, hsame.versions, hsame.decisions⟩

theorem driveRun_status (cfg : DispatcherConfig) (type : CommandType) (run : RunRow) (now : ℕ) :
    (driveRun cfg type run now).status = .running := by
  unfold driveRun
  dsimp only
  split_ifs <;> rfl

theorem ensured_mem {c : TaskCommand} {run : RunRow} {now : ℕ} {s₁ : TaskStore}
    (h : s.Ensured cfg now c run s₁) : run ∈ s₁.runs := by
  cases h with
  | found claimed => exact claimedRun_mem claimed
  | inserted runId submit none fresh first => exact List.mem_append_right _ List.mem_cons_self

theorem requested_runs (hk : s.Keyed) (hr : Requested digests s s') :
    RunsKept s s' ∧ s.outputs.SameArtifacts s'.outputs := by
  cases hr with
  | cancelTask key commandId now active idle fresh =>
      refine ⟨.of_kept ?_, .refl _⟩
      cases hlatest : s.latestRun with
      | none => exact keepsSuccess_refl s
      | some run => exact keepsSuccess_put hk (latestRun_mem hlatest) ⟨rfl, rfl, .rfl, fun _ => rfl⟩
  | cancelRun run key commandId now found active idle unrequested fresh =>
      exact ⟨.of_kept (keepsSuccess_put hk (Table.find_eq_some found).1
        ⟨rfl, rfl, .rfl, fun _ => rfl⟩), .refl _⟩
  | retry source key hash runId commandId latest idle retryable status freshRun fresh =>
      exact ⟨⟨s.runs, _, rfl, keepsSuccess_refl s, .inr ⟨_, rfl, freshRun, nofun⟩⟩, .refl _⟩
  | fork source checkpointId key hash runId commandId now s₁ found checkpoint active idle closed
      freshRun fresh =>
      have hfresh := freshRun.of_kept (cancelPendingPauseForFork_runs hk closed)
      obtain ⟨rfl, -⟩ | ⟨pause, run, -, -, -, -, hrun, hwaiting, rfl⟩ :=
        cancelPendingPauseForFork_cases closed
      · exact ⟨⟨s₁.runs, _, rfl, keepsSuccess_refl s₁, .inr ⟨_, rfl, hfresh, nofun⟩⟩, .refl _⟩
      · refine ⟨⟨_, _, rfl, keepsSuccess_put hk (Table.find_eq_some hrun).1 ?_,
          .inr ⟨_, rfl, hfresh, nofun⟩⟩, .refl _⟩
        refine .of_open ⟨rfl, rfl, rfl, rfl, rfl, rfl⟩ ?_ nofun
        rw [hwaiting]
        exact nofun
  | answer pause parent payload key runId commandId now pauseFound pending parentFound paused
      waiting waitingTask members payloadPause expiry freshRun fresh =>
      exact ⟨⟨s.runs, _, rfl, keepsSuccess_refl s, .inr ⟨_, rfl, freshRun, nofun⟩⟩, .refl _⟩

theorem claims_runs {now : ℕ} (h : s.Sound leases) (ht : s.Targets leases)
    (hc : Claims cfg s now s' lease?) : RunsKept s s' ∧ s.outputs.SameArtifacts s'.outputs := by
  cases hc with
  | idle => exact ⟨.of_kept (keepsSuccess_refl s), .refl _⟩
  | cancelled c next moot => exact ⟨.of_kept (keepsSuccess_refl s), .refl _⟩
  | failed c code errorType message run s' next invalid fail =>
      have hnext := nextCommand_eq_some next
      obtain ⟨-, rfl⟩ | ⟨run', t, l, rfl, htf, hp, rfl⟩ := failInvalid_eq_some fail
      · exact ⟨.of_kept (keepsSuccess_refl s), .refl _⟩
      · have hmem := claimedRun_invalid_mem invalid run' rfl
        refine ⟨.of_kept (keepsSuccess_put h.toKeyed hmem (.of_open hp.identity ?_ ?_)),
          hp.artifacts⟩
        · exact ht.invalidRun hnext.1 hnext.2.1 hnext.2.2.1 invalid
        · rw [hp.runStatus, htf]
          exact nofun
  | driven c workerId run s₁ lease next drives ensured leaseOf worker =>
      have hnext := nextCommand_eq_some next
      have hdriven : (driveRun cfg c.commandType run now).status ≠ .succeeded := by
        rw [driveRun_status]
        exact nofun
      have hidentity := driveRun_identity cfg c.commandType run now
      cases ensured with
      | found claimed =>
          exact ⟨.of_kept (keepsSuccess_put h.toKeyed (claimedRun_mem claimed) (.of_open hidentity
            (ht.claimedRun hnext.1 hnext.2.1 hnext.2.2.1 claimed) hdriven)), .refl _⟩
      | inserted runId submit none fresh first =>
          refine ⟨⟨s.runs, [driveRun cfg c.commandType run now], ?_, keepsSuccess_refl s,
            .inr ⟨_, rfl, fresh.of_identity hidentity, hdriven⟩⟩, .refl _⟩
          apply Table.put_append_fresh
          · intro r hr
            rw [hidentity.id]
            exact fresh.id r hr
          · exact hidentity.id.symm
  | cancelling c workerId run lease next cancels claimed leaseOf worker =>
      exact ⟨.of_kept (keepsSuccess_refl s), .refl _⟩

/-- Every change keeps the succeeded runs and the artifacts, unless it lets a run succeed. -/
theorem change_runs (h : s.Sound leases) (ht : s.Targets leases)
    (hc : Change cfg digests leases s s' lease?) :
    (RunsKept s s' ∧ s.outputs.SameArtifacts s'.outputs) ∨
      ∃ lease ∈ leases, ∃ command run l t, Succeeds cfg digests s lease command run l t ∧
        s' = s.write l := by
  cases hc with
  | relaxed relaxed =>
      exact .inl ⟨.of_kept (relaxed.runs.imp fun _ _ => .of_quiet), relaxed.artifacts⟩
  | requested requested => exact .inl (requested_runs h.toKeyed requested)
  | claimed now claims => exact .inl (claims_runs h ht claims)
  | effect issued locks effect =>
      have hmem := (Table.find_eq_some locks.found).1
      obtain ⟨hstatus, hartifacts⟩ | ⟨t, hsucceeds⟩ := effect_runs h ht issued locks effect
      · refine .inl ⟨.of_kept (keepsSuccess_put h.toKeyed hmem (.of_open effect.identity ?_ hstatus)),
          hartifacts⟩
        exact ht.leased _ issued _ locks.mem (TaskCommand.isCurrent_of_owned locks.owned) _ hmem
          locks.target
      · exact .inr ⟨_, issued, _, _, _, t, hsucceeds, rfl⟩
  | unassigned issued unassigned =>
      rw [unassigned.store]
      exact .inl ⟨.of_kept (keepsSuccess_refl s), .refl _⟩

end Runs

section Targets

/-- A task that is taken up again is given a newer run. -/
theorem claimable_before (h : s.Sound leases) (hc : Change cfg digests leases s s' lease?)
    (hclaimable : isClaimable s'.task.status) :
    isClaimable s.task.status ∨ ∃ r ∈ s'.runs, ∀ r₀ ∈ s.runs, r₀.attempt < r.attempt := by
  cases hc with
  | relaxed relaxed => exact .inl (relaxed.task ▸ hclaimable)
  | requested requested =>
      cases requested with
      | cancelTask => exact .inl hclaimable
      | cancelRun => exact .inl hclaimable
      | retry source key hash runId commandId =>
          refine .inr ⟨_, List.mem_append_right _ List.mem_cons_self, ?_⟩
          intro r hr
          exact Nat.lt_succ_of_le (Table.le_maxOf hr)
      | fork source checkpointId key hash runId commandId now s₁ found checkpoint active idle
          closed =>
          refine .inr ⟨_, List.mem_append_right _ List.mem_cons_self, ?_⟩
          intro r hr
          obtain ⟨r₁, hr₁, hsame⟩ := Table.exists_of_forall₂'
            (cancelPendingPauseForFork_runs h.toKeyed closed) hr
          rw [← hsame.attempt]
          exact Nat.lt_succ_of_le (Table.le_maxOf hr₁)
      | answer pause parent payload key runId commandId now pauseFound pending parentFound paused
          waiting waitingTask =>
          rw [waitingTask]
          exact .inl rfl
  | claimed now claims =>
      cases claims with
      | idle => exact .inl hclaimable
      | cancelled c next moot => exact .inl hclaimable
      | failed c code errorType message run s' next => exact .inl (nextCommand_eq_some next).1
      | driven c workerId run s₁ lease next => exact .inl (nextCommand_eq_some next).1
      | cancelling c workerId run lease next => exact .inl (nextCommand_eq_some next).1
  | effect issued locks effect => exact .inl (h.claimable _ locks.mem locks.dispatching)
  | unassigned issued unassigned =>
      exact .inl (h.claimable _ unassigned.mem (TaskCommand.isCurrent_of_owned unassigned.owned).2.1)

/-- The runs that are kept did not succeed before, if they have not now. -/
theorem RunsKept.before (h : RunsKept s s') {r' : RunRow} (hr' : r' ∈ s'.runs)
    (hsucceeded : r'.status = .succeeded) : ∃ r ∈ s.runs, r.KeepsSuccess r' ∧
      r.status = .succeeded := by
  obtain ⟨kept, new, hruns, hkept, hnew⟩ := h
  rw [hruns] at hr'
  obtain hr' | hr' := List.mem_append.mp hr'
  · obtain ⟨r, hr, hkeeps⟩ := Table.exists_of_forall₂ hkept hr'
    exact ⟨r, hr, hkeeps, hkeeps.status.mp hsucceeded⟩
  · obtain rfl | ⟨r, rfl, -, hopen⟩ := hnew
    · cases hr'
    · rw [List.mem_singleton.mp hr'] at hsucceeded
      exact absurd hsucceeded hopen

theorem RunsKept.after (h : RunsKept s s') {r : RunRow} (hr : r ∈ s.runs) :
    ∃ r' ∈ s'.runs, r.KeepsSuccess r' := by
  obtain ⟨kept, new, hruns, hkept, -⟩ := h
  obtain ⟨r', hr', hkeeps⟩ := Table.exists_of_forall₂' hkept hr
  exact ⟨r', hruns ▸ List.mem_append_left _ hr', hkeeps⟩

theorem targets_latest (h : s.Sound leases) (ht : s.Targets leases)
    (hc : Change cfg digests leases s s' lease?) (hkept : RunsKept s s')
    (hclaimable : isClaimable s'.task.status) {r : RunRow} (hr : r ∈ s'.runs)
    (hlatest : ∀ r' ∈ s'.runs, r'.attempt ≤ r.attempt) : r.status ≠ .succeeded := by
  intro hsucceeded
  obtain ⟨r₀, hr₀, hkeeps, hsucceeded₀⟩ := hkept.before hr hsucceeded
  obtain hbefore | ⟨new, hnew, hlt⟩ := claimable_before h hc hclaimable
  · refine ht.latest hbefore r₀ hr₀ ?_ hsucceeded₀
    intro r₁ hr₁
    obtain ⟨r₂, hr₂, hkeeps₂⟩ := hkept.after hr₁
    rw [← hkeeps₂.attempt, ← hkeeps.attempt]
    exact hlatest r₂ hr₂
  · have hle := hlatest new hnew
    have hlt := hlt r₀ hr₀
    rw [hkeeps.attempt] at hle
    omega

/-- A live command that inserts its run was the first, and its run is the one it named. -/
theorem targets_inserted (h : s.Sound leases) (ht : s.Targets leases)
    (hc : Change cfg digests leases s s' lease?) {c : TaskCommand} (hmem : c ∈ s'.commands)
    (hlive : c.isLive) (hinserts : c.commandType.insertsRun) :
    ∀ d ∈ s'.commands, d.isLive → c.sequence ≤ d.sequence := by
  intro d hd hdlive
  obtain ⟨c₀, hc₀, hlive₀, hcontinues⟩ | hinserted := live_before h hc hmem hlive
  · rw [hcontinues.sequence]
    obtain ⟨d₀, hd₀, hdlive₀, hdcontinues⟩ | hdinserted := live_before h hc hd hdlive
    · rw [hdcontinues.sequence]
      refine (ht.inserted c₀ hc₀ hlive₀ ?_).1 d₀ hd₀ hdlive₀
      rw [TaskCommand.commandType, ← hcontinues.payload]
      exact hinserts
    · have hle := le_maxSequence hc₀
      rw [hdinserted.sequence]
      omega
  · rw [hinserted.sequence]
    obtain ⟨d₀, hd₀, hdlive₀, hdcontinues⟩ | hdinserted := live_before h hc hd hdlive
    · obtain ⟨runId, htarget, hdrives⟩ := target_of_insertsRun hinserts
      have hidle := (hinserted.run runId htarget hdrives).1 d₀ hd₀
      rw [hdlive₀] at hidle
      cases hidle
    · rw [hdinserted.sequence]

/-- A lease on a run that a live command may still settle. -/
theorem leased_open (h : s.Sound leases) (hk : s'.Keyed) (hc : Change cfg digests leases s s' lease?)
    (ht : s.Targets leases) (hkept : RunsKept s s') (hlease : lease ∈ leases ++ lease?.toList)
    {c : TaskCommand} (hmem : c ∈ s'.commands) (hcurrent : c.IsCurrent lease) {r : RunRow}
    (hr : r ∈ s'.runs) (htarget : lease.productRunId = some r.id) : r.status ≠ .succeeded := by
  intro hsucceeded
  obtain ⟨r₀, hr₀, hkeeps, hsucceeded₀⟩ := hkept.before hr hsucceeded
  obtain hissued | hnew := List.mem_append.mp hlease
  · obtain ⟨c₀, hc₀, hcurrent₀, -⟩ := current_before h hc hissued hmem hcurrent
    refine ht.leased lease hissued c₀ hc₀ hcurrent₀ r₀ hr₀ ?_ hsucceeded₀
    rw [htarget, hkeeps.id]
  · cases hc with
    | relaxed | requested | effect | unassigned => cases hnew
    | claimed now claims =>
        cases claims with
        | idle | cancelled | failed => cases hnew
        | driven c workerId run s₁ new next drives ensured leaseOf worker =>
            obtain rfl := List.mem_singleton.mp hnew
            have hid := htarget.symm.trans leaseOf.productRunId
            have hsame : driveRun cfg c.commandType run now = r := by
              apply List.inj_on_of_nodup_map hk.runIds
              · exact Table.mem_put_self (ensured_mem ensured) (driveRun_identity _ _ _ _).id.symm
              · exact hr
              · rw [(driveRun_identity cfg c.commandType run now).id]
                exact (Option.some.inj hid).symm
            rw [← hsame, driveRun_status] at hsucceeded
            cases hsucceeded
        | cancelling c workerId run new next cancels claimed leaseOf worker =>
            obtain rfl := List.mem_singleton.mp hnew
            have hnext := nextCommand_eq_some next
            have hid := htarget.symm.trans leaseOf.productRunId
            obtain ⟨run, rfl, hrunId⟩ := Option.map_eq_some_iff.mp hid.symm
            refine ht.claimedRun hnext.1 hnext.2.1 hnext.2.2.1 claimed ?_
            have hsame : run = r₀ := by
              apply List.inj_on_of_nodup_map h.runIds (claimedRun_mem claimed) hr₀
              rw [hrunId, hkeeps.id]
            rw [hsame]
            exact hsucceeded₀

theorem Targets.change (h : s.Sound leases) (ht : s.Targets leases)
    (hc : Change cfg digests leases s s' lease?) : s'.Targets (leases ++ lease?.toList) := by
  have hsound := h.change hc
  obtain ⟨hkept, -⟩ | ⟨lease, hissued, command, run, l, t, hsucceeds, hs⟩ := change_runs h ht hc
  · refine ⟨fun hclaimable r hr => targets_latest h ht hc hkept hclaimable hr,
      fun c hmem hlive hinserts => ⟨targets_inserted h ht hc hmem hlive hinserts, ?_⟩,
      fun lease hlease c hmem hcurrent r hr =>
        leased_open h hsound.toKeyed hc ht hkept hlease hmem hcurrent hr⟩
    intro runId htarget r hr hid hsucceeded
    obtain ⟨r₀, hr₀, hkeeps, hsucceeded₀⟩ := hkept.before hr hsucceeded
    obtain ⟨c₀, hc₀, hlive₀, hcontinues⟩ | hinserted := live_before h hc hmem hlive
    · refine (ht.inserted c₀ hc₀ hlive₀ ?_).2 runId ?_ r₀ hr₀ (hkeeps.id.symm.trans hid)
        hsucceeded₀
      · rw [TaskCommand.commandType, ← hcontinues.payload]
        exact hinserts
      · rw [← hcontinues.payload]
        exact htarget
    · obtain ⟨runId', htarget', hdrives⟩ := target_of_insertsRun hinserts
      exact (hinserted.run runId htarget hdrives).2 r₀ hr₀ (hkeeps.id.symm.trans hid)
  · -- The projected command was the first live one, and the last that was worked on.
    have hfirst := hsucceeds.locks.first h
    have hid := hsucceeds.effect.command.id
    have hother : ∀ c ∈ s'.commands, c.isLive → c ∈ s.commands ∧ c.id ≠ command.id := by
      intro c hc hlive
      rw [hs] at hc
      obtain ⟨hc, hne⟩ | ⟨rfl, -⟩ := Table.mem_put.mp hc
      · exact ⟨hc, fun heq => hne (heq.trans hid.symm)⟩
      · rw [hsucceeds.settled] at hlive
        cases hlive
    refine ⟨?_, ?_, ?_⟩
    · intro hclaimable
      rw [hs, write, hsucceeds.task] at hclaimable
      cases hclaimable
    · intro c hc hlive hinserts
      obtain ⟨hc, hne⟩ := hother c hc hlive
      have hle := (ht.inserted c hc hlive hinserts).1 command hfirst.mem hfirst.live
      have hsame : c = command := List.inj_on_of_nodup_map h.sequences hc hfirst.mem
        (Nat.le_antisymm hle (hfirst.le c hc hlive))
      exact absurd (congrArg TaskCommand.id hsame) hne
    · intro _ _ c hc hcurrent
      obtain ⟨hc, hne⟩ := hother c hc (isLive_of_dispatching hcurrent.2.1)
      have hsame := h.eq_of_dispatching hc hfirst.mem hcurrent.2.1 hsucceeds.locks.dispatching
      exact absurd (congrArg TaskCommand.id hsame) hne

end Targets

section Integrity

/-- The artifact of an output, as it is committed. -/
def committedContent (t : TerminalGraphOutput) : Option Json :=
  match t.artifact with
  | some artifact => some (Artifact.codec.dump artifact)
  | none => t.deepResearchArtifact.map DeepResearchArtifact.codec.dump

/-- The artifact in the dump of an output, where null members are left out. -/
def storedArtifact (output : Json) : Option Json :=
  match output.get? "artifact" with
  | some artifact => some artifact
  | none => output.get? "deep_research_artifact"

theorem storedArtifact_modelDump (t : TerminalGraphOutput) :
    storedArtifact t.modelDump = (committedContent t).map Json.excludeNone := by
  rw [storedArtifact, t.get?_artifact, t.get?_deepResearchArtifact, committedContent]
  cases t.artifact with
  | some artifact => rfl
  | none =>
      rw [Option.map_none, Option.map_map]
      rfl

/-- A run with exactly one version, which holds the artifact of the stored output, and in the
analysis of a market exactly one decision, numbered as that version. -/
structure HoldsArtifact (s : TaskStore) (r : RunRow) (t : TerminalGraphOutput)
    (v : ArtifactVersion) : Prop where
  output : r.outputPayload = some t.modelDump
  version : s.outputs.versionsOf r.id = [v]
  content : committedContent t = some v.content
  decision : s.task.taskType = .marketAnalysis → ∃ d, s.outputs.decisionsOf r.id = [d] ∧
    d.decisionVersion = v.versionNumber ∧ d.artifactVersionId = v.id

/-- Artifacts belong to the runs that have succeeded, and to no other. -/
structure Integrity (s : TaskStore) : Prop where
  numbered : s.outputs.Numbered
  succeeded : ∀ r ∈ s.runs, r.status = .succeeded → ∃ t v, s.HoldsArtifact r t v
  unfinished : ∀ r ∈ s.runs, r.status ≠ .succeeded →
    s.outputs.versionsOf r.id = [] ∧ s.outputs.decisionsOf r.id = []
  versioned : ∀ v ∈ s.outputs.versions, ∃ r ∈ s.runs, r.id = v.runId
  decided : ∀ d ∈ s.outputs.decisions, ∃ r ∈ s.runs, r.id = d.runId

theorem HoldsArtifact.stored {r : RunRow} {t : TerminalGraphOutput} {v : ArtifactVersion}
    (h : s.HoldsArtifact r t v) :
    r.outputPayload.bind storedArtifact = some v.content.excludeNone := by
  rw [h.output, Option.bind_some, storedArtifact_modelDump, h.content, Option.map_some]

theorem numbered_congr {o o' : Outputs} (h : o.SameArtifacts o') (hn : o.Numbered) :
    o'.Numbered := by
  refine ⟨?_, ?_, ?_⟩
  · rw [h.artifacts]
    exact hn.ids
  · rw [h.artifacts]
    intro a ha
    rw [Outputs.numbersOf, h.versions]
    exact hn.numbers a ha
  · rw [h.versions, h.artifacts]
    exact hn.versioned

theorem versionsOf_fresh (hi : s.Integrity) {runId : ℕ} (hfresh : ∀ r ∈ s.runs, r.id ≠ runId) :
    s.outputs.versionsOf runId = [] ∧ s.outputs.decisionsOf runId = [] := by
  constructor
  · rw [Outputs.versionsOf, List.filter_eq_nil_iff]
    intro v hv heq
    obtain ⟨r, hr, hid⟩ := hi.versioned v hv
    exact hfresh r hr (hid.trans (beq_iff_eq.mp heq))
  · rw [Outputs.decisionsOf, List.filter_eq_nil_iff]
    intro d hd heq
    obtain ⟨r, hr, hid⟩ := hi.decided d hd
    exact hfresh r hr (hid.trans (beq_iff_eq.mp heq))

/-- The artifacts stay where they were, while at most a run is inserted. -/
theorem integrity_kept (hi : s.Integrity) (hkept : RunsKept s s')
    (hartifacts : s.outputs.SameArtifacts s'.outputs)
    (hadmission : s'.task.toAdmission = s.task.toAdmission) : s'.Integrity := by
  have hversions : ∀ runId, s'.outputs.versionsOf runId = s.outputs.versionsOf runId := by
    intro runId
    rw [Outputs.versionsOf, hartifacts.versions, ← Outputs.versionsOf]
  have hdecisions : ∀ runId, s'.outputs.decisionsOf runId = s.outputs.decisionsOf runId := by
    intro runId
    rw [Outputs.decisionsOf, hartifacts.decisions, ← Outputs.decisionsOf]
  refine ⟨numbered_congr hartifacts hi.numbered, ?_, ?_, ?_, ?_⟩
  · intro r' hr' hsucceeded
    obtain ⟨r, hr, hkeeps, hsucceeded₀⟩ := hkept.before hr' hsucceeded
    obtain ⟨t, v, hholds⟩ := hi.succeeded r hr hsucceeded₀
    refine ⟨t, v, ?_, ?_, hholds.content, ?_⟩
    · rw [hkeeps.output hsucceeded₀]
      exact hholds.output
    · rw [hversions, hkeeps.id]
      exact hholds.version
    · rw [hdecisions, hkeeps.id, hadmission]
      exact hholds.decision
  · intro r' hr' hopen
    rw [hversions, hdecisions]
    obtain ⟨kept, new, hruns, hforall, hnew⟩ := hkept
    rw [hruns] at hr'
    obtain hr' | hr' := List.mem_append.mp hr'
    · obtain ⟨r, hr, hkeeps⟩ := Table.exists_of_forall₂ hforall hr'
      rw [hkeeps.id]
      exact hi.unfinished r hr fun hsucceeded => hopen (hkeeps.status.mpr hsucceeded)
    · obtain rfl | ⟨r, rfl, hfresh, -⟩ := hnew
      · cases hr'
      · rw [List.mem_singleton.mp hr']
        exact versionsOf_fresh hi hfresh.id
  · intro v hv
    rw [hartifacts.versions] at hv
    obtain ⟨r, hr, hid⟩ := hi.versioned v hv
    obtain ⟨r', hr', hkeeps⟩ := hkept.after hr
    exact ⟨r', hr', hkeeps.id.trans hid⟩
  · intro d hd
    rw [hartifacts.decisions] at hd
    obtain ⟨r, hr, hid⟩ := hi.decided d hd
    obtain ⟨r', hr', hkeeps⟩ := hkept.after hr
    exact ⟨r', hr', hkeeps.id.trans hid⟩

/-- The version, and for the artifact of an analysis the decision, that a commit appends. -/
structure Appends (o o' : Outputs) (runId : ℕ) (t : TerminalGraphOutput) (v : ArtifactVersion) :
    Prop where
  versions : o'.versions = o.versions ++ [v]
  ofRun : v.runId = runId
  content : committedContent t = some v.content
  numbered : o'.Numbered
  decisions : (t.artifact = none ∧ o'.decisions = o.decisions) ∨
    ∃ d, o'.decisions = o.decisions ++ [d] ∧ d.runId = runId ∧
      d.decisionVersion = v.versionNumber ∧ d.artifactVersionId = v.id

namespace Appends

variable {o o' o'' : Outputs} {runId : ℕ} {t : TerminalGraphOutput} {v : ArtifactVersion}

theorem of_commit (h : TerminalCommit o o' runId t) : ∃ v, Appends o o' runId t v := by
  cases h with
  | decided a v d artifact decided =>
      refine ⟨v, decided.versions, decided.ofRun, ?_, decided.numbered, .inr ⟨d,
        decided.decisions, decided.decisionOfRun, decided.decisionVersion,
        decided.artifactVersion⟩⟩
      rw [committedContent, artifact, decided.stores]
  | committed a v none artifact committed =>
      refine ⟨v, committed.versions, committed.ofRun, ?_, committed.numbered, .inl ⟨none,
        committed.decisions⟩⟩
      rw [committedContent, none, artifact, committed.stores]
      rfl

theorem congr (h : Appends o o' runId t v) (hsame : o'.SameArtifacts o'') :
    Appends o o'' runId t v := by
  refine ⟨hsame.versions.trans h.versions, h.ofRun, h.content, numbered_congr hsame h.numbered, ?_⟩
  rw [hsame.decisions]
  exact h.decisions

theorem versionsOf_other (h : Appends o o' runId t v) {other : ℕ} (hne : other ≠ runId) :
    o'.versionsOf other = o.versionsOf other := by
  rw [Outputs.versionsOf, h.versions, List.filter_append, ← Outputs.versionsOf]
  simp [h.ofRun, hne.symm]

theorem decisionsOf_other (h : Appends o o' runId t v) {other : ℕ} (hne : other ≠ runId) :
    o'.decisionsOf other = o.decisionsOf other := by
  obtain ⟨-, hdecisions⟩ | ⟨d, hdecisions, hrun, -⟩ := h.decisions
  · rw [Outputs.decisionsOf, hdecisions, ← Outputs.decisionsOf]
  · rw [Outputs.decisionsOf, hdecisions, List.filter_append, ← Outputs.decisionsOf]
    simp [hrun, hne.symm]

theorem versionsOf_self (h : Appends o o' runId t v) (hnone : o.versionsOf runId = []) :
    o'.versionsOf runId = [v] := by
  rw [Outputs.versionsOf, h.versions, List.filter_append, ← Outputs.versionsOf, hnone]
  simp [h.ofRun]

theorem decisionsOf_self (h : Appends o o' runId t v) (hnone : o.decisionsOf runId = [])
    (hartifact : t.artifact ≠ none) : ∃ d, o'.decisionsOf runId = [d] ∧
      d.decisionVersion = v.versionNumber ∧ d.artifactVersionId = v.id := by
  obtain ⟨hartifact', -⟩ | ⟨d, hdecisions, hrun, hversion, hversionId⟩ := h.decisions
  · exact absurd hartifact' hartifact
  · refine ⟨d, ?_, hversion, hversionId⟩
    rw [Outputs.decisionsOf, hdecisions, List.filter_append, ← Outputs.decisionsOf, hnone]
    simp [hrun]

theorem version_mem (h : Appends o o' runId t v) {w : ArtifactVersion} (hw : w ∈ o'.versions) :
    w ∈ o.versions ∨ w.runId = runId := by
  rw [h.versions] at hw
  obtain hw | hw := List.mem_append.mp hw
  · exact .inl hw
  · rw [List.mem_singleton.mp hw]
    exact .inr h.ofRun

theorem decision_mem (h : Appends o o' runId t v) {d : DecisionRow} (hd : d ∈ o'.decisions) :
    d ∈ o.decisions ∨ d.runId = runId := by
  obtain ⟨-, hdecisions⟩ | ⟨new, hdecisions, hrun, -⟩ := h.decisions
  · rw [hdecisions] at hd
    exact .inl hd
  · rw [hdecisions] at hd
    obtain hd | hd := List.mem_append.mp hd
    · exact .inl hd
    · rw [List.mem_singleton.mp hd]
      exact .inr hrun

end Appends

theorem artifact_of_checked {t : TerminalGraphOutput} (h : lease.lacksArtifact t = false)
    (hsucceeded : t.terminalStatus = .succeeded) (htype : lease.taskType = .marketAnalysis) :
    t.artifact ≠ none := by
  intro hnone
  rw [CommandLease.lacksArtifact, hsucceeded, htype, hnone] at h
  cases h

theorem Succeeds.appends {command : TaskCommand} {run : RunRow} {l : LockedRows}
    {t : TerminalGraphOutput} (hi : s.Integrity)
    (hs : Succeeds cfg digests s lease command run l t) :
    ∃ v, Appends s.outputs l.outputs run.id t v := by
  obtain ⟨receipts, outputs, ids, notification, hcommit, hsame⟩ := hs.commit
  have hnumbered : Outputs.Numbered { s.outputs with receipts := receipts } :=
    numbered_congr (o := s.outputs) ⟨rfl, rfl, rfl⟩ hi.numbered
  obtain ⟨hother, -⟩ | ⟨-, hterminal⟩ := commitTerminalArtifact_eq_some hnumbered hcommit
  · exact absurd hs.succeeded hother
  · obtain ⟨v, happends⟩ := Appends.of_commit hterminal
    have happends : Appends s.outputs outputs run.id t v :=
      ⟨happends.versions, happends.ofRun, happends.content, happends.numbered, happends.decisions⟩
    exact ⟨v, happends.congr hsame⟩

/-- The first projection of a succeeded output brings the artifact of its run. -/
theorem integrity_succeeds (h : s.Sound leases) (ht : s.Targets leases) (hi : s.Integrity)
    (hissued : lease ∈ leases) {command : TaskCommand} {run : RunRow} {l : LockedRows}
    {t : TerminalGraphOutput} (hs : Succeeds cfg digests s lease command run l t) :
    (s.write l).Integrity := by
  have hmem := (Table.find_eq_some hs.locks.found).1
  have hid : l.run.id = run.id := hs.effect.identity.id
  have hopen := hi.unfinished run hmem <| ht.leased lease hissued command hs.locks.mem
    (TaskCommand.isCurrent_of_owned hs.locks.owned) run hmem hs.locks.target
  obtain ⟨v, happends⟩ := hs.appends hi
  have htype : (s.write l).task.taskType = s.task.taskType :=
    congrArg Admission.taskType hs.effect.admission
  have hafter : ∀ r ∈ s.runs, ∃ r' ∈ (s.write l).runs, r'.id = r.id := by
    intro r hr
    by_cases heq : r.id = run.id
    · exact ⟨l.run, Table.mem_put_self hmem hid.symm, hid.trans heq.symm⟩
    · exact ⟨r, Table.mem_put_other hr fun heq' => heq (heq'.trans hid), rfl⟩
  refine ⟨happends.numbered, ?_, ?_, ?_, ?_⟩
  · intro r hr hsucceeded
    obtain ⟨hr, hne⟩ | ⟨rfl, -⟩ := Table.mem_put.mp hr
    · obtain ⟨t', v', hholds⟩ := hi.succeeded r hr hsucceeded
      have hne' : r.id ≠ run.id := fun heq => hne (heq.trans hid.symm)
      refine ⟨t', v', hholds.output, ?_, hholds.content, ?_⟩
      · exact (happends.versionsOf_other hne').trans hholds.version
      · intro hanalysis
        obtain ⟨d, hdecisions, hdecision⟩ := hholds.decision (htype.symm.trans hanalysis)
        exact ⟨d, (happends.decisionsOf_other hne').trans hdecisions, hdecision⟩
    · refine ⟨t, v, hs.output, ?_, happends.content, ?_⟩
      · rw [hid]
        exact happends.versionsOf_self hopen.1
      · intro hanalysis
        rw [hid]
        apply happends.decisionsOf_self hopen.2
        apply artifact_of_checked hs.checked hs.succeeded
        rw [(h.givenOn hissued hs.locks.mem hs.locks.owned).taskType]
        exact htype.symm.trans hanalysis
  · intro r hr hother
    obtain ⟨hr, hne⟩ | ⟨rfl, -⟩ := Table.mem_put.mp hr
    · have hne' : r.id ≠ run.id := fun heq => hne (heq.trans hid.symm)
      obtain ⟨hversions, hdecisions⟩ := hi.unfinished r hr hother
      exact ⟨(happends.versionsOf_other hne').trans hversions,
        (happends.decisionsOf_other hne').trans hdecisions⟩
    · exact absurd hs.runStatus hother
  · intro w hw
    obtain hw | hw := happends.version_mem hw
    · obtain ⟨r, hr, hrid⟩ := hi.versioned w hw
      obtain ⟨r', hr', hrid'⟩ := hafter r hr
      exact ⟨r', hr', hrid'.trans hrid⟩
    · obtain ⟨r', hr', hrid'⟩ := hafter run hmem
      exact ⟨r', hr', hrid'.trans hw.symm⟩
  · intro d hd
    obtain hd | hd := happends.decision_mem hd
    · obtain ⟨r, hr, hrid⟩ := hi.decided d hd
      obtain ⟨r', hr', hrid'⟩ := hafter r hr
      exact ⟨r', hr', hrid'.trans hrid⟩
    · obtain ⟨r', hr', hrid'⟩ := hafter run hmem
      exact ⟨r', hr', hrid'.trans hd.symm⟩

theorem Integrity.change (h : s.Sound leases) (ht : s.Targets leases) (hi : s.Integrity)
    (hc : Change cfg digests leases s s' lease?) : s'.Integrity := by
  obtain ⟨hkept, hsame⟩ | ⟨lease, hissued, command, run, l, t, hsucceeds, rfl⟩ :=
    change_runs h ht hc
  · exact integrity_kept hi hkept hsame (hc.grows h.toKeyed).admission
  · exact integrity_succeeds h ht hi hissued hsucceeds

end Integrity

end TaskStore

namespace TaskState

variable {cfg : DispatcherConfig} {digests : KeyDigests} {t t' : TaskState}

/-- The artifacts of a task are in order, whatever its workers still hold. -/
structure Complete (t : TaskState) : Prop where
  sound : t.Sound
  targets : t.store.Targets t.leases
  integrity : t.store.Integrity

theorem Complete.step {label : TaskLabel} (h : t.Complete)
    (hstep : t.step cfg digests label = some t') : t'.Complete := by
  obtain ⟨lease, hchange, hleases⟩ := step_change h.sound.toKeyed h.sound.checked hstep
  refine ⟨h.sound.step hstep, ?_, ?_⟩
  · rw [hleases]
    exact h.targets.change h.sound.toSound hchange
  · exact h.integrity.change h.sound.toSound h.targets hchange

theorem Complete.admitted (taskId commandId : ℕ) (threadId : String) (admission : Admission)
    (payloadHash : String) :
    (TaskState.admitted taskId commandId threadId admission payloadHash).Complete := by
  refine ⟨.admitted taskId commandId threadId admission payloadHash, ⟨?_, ?_, ?_⟩,
    ⟨⟨?_, ?_, ?_⟩, ?_, ?_, ?_, ?_⟩⟩ <;>
    simp [TaskState.admitted, TaskStore.admitted, TaskCommand.new, leases, TaskCommand.commandType,
      CommandPayload.commandType, CommandType.insertsRun]

end TaskState

/-- In every state that a task can reach, a run that has succeeded has exactly one version, with
the artifact of its stored output, and for the analysis of a market one decision under the number
of that version; no other run has any; and each artifact has the versions up to its latest. -/
theorem artifact_integrity {cfg : DispatcherConfig} {digests : KeyDigests} {taskId commandId : ℕ}
    {threadId : String} {admission : Admission} {payloadHash : String} {t : TaskState}
    (hr : Reaches (TaskState.step cfg digests) anyStep
      (.admitted taskId commandId threadId admission payloadHash) t) :
    (∀ r ∈ t.store.runs, r.status = .succeeded → ∃ output v,
      t.store.HoldsArtifact r output v ∧
        r.outputPayload.bind TaskStore.storedArtifact = some v.content.excludeNone) ∧
    (∀ r ∈ t.store.runs, r.status ≠ .succeeded → t.store.outputs.versionsOf r.id = [] ∧
      t.store.outputs.decisionsOf r.id = []) ∧
    ∀ a ∈ t.store.outputs.artifacts,
      t.store.outputs.numbersOf a.id = List.range' 1 a.latestVersionNumber := by
  have hcomplete : t.Complete := hr.invariant (I := TaskState.Complete)
    (fun _ _ _ _ h hstep => h.step hstep) (.admitted _ _ _ _ _)
  refine ⟨?_, hcomplete.integrity.unfinished, hcomplete.integrity.numbered.numbers⟩
  intro r hrun hsucceeded
  obtain ⟨output, v, hholds⟩ := hcomplete.integrity.succeeded r hrun hsucceeded
  exact ⟨output, v, hholds, hholds.stored⟩

def quietArtifact : Artifact where
  schemaVersion := "1.0"
  contentVersion := ⟨1, one_le_one⟩
  status := .committed
  analysis := quietAnalysis ⟨"4h", horizon_nonempty⟩
  evidenceVerdict := ⟨true, zeroCap, [], [], [], consistent_of_nothing_missing⟩
  riskVerdict := ⟨true, [], [], zeroCap, consistent_of_no_reasons⟩
  sourceReferences := []
  provenance := none

def quietOutput : TerminalGraphOutput where
  terminalStatus := .succeeded
  marketSnapshot := none
  webEvidence := []
  artifact := some quietArtifact
  deepResearchArtifact := none
  errors := []
  contract := by decide

def finalizedRun : List TaskLabel :=
  [.claim "worker" 3 0, .execute 0 .proceed 0, .execute 0 .proceed 0,
    .execute 0 (.found plainHandle) 1, .execute 0 .proceed 1, .execute 0 .proceed 2,
    .execute 0 (.state (.terminal .success)) 3, .execute 0 .proceed 3,
    .execute 0 (.joined (some quietOutput)) 4, .execute 0 (.commit ⟨4, 5, 6⟩) 5]

/-- A submission that is claimed, followed to its end and projected. -/
theorem artifact_integrity_finalized :
    ∃ t r v, Reaches (TaskState.step plainDispatcher plainDigests) anyStep plainTask t ∧
      r ∈ t.store.runs ∧ r.status = .succeeded ∧ t.store.outputs.versionsOf r.id = [v] := by
  have hany : (runLabels (TaskState.step plainDispatcher plainDigests) plainTask
      finalizedRun).any (fun t => t.store.runs.map RunRow.status == [.succeeded]) = true := by
    decide +kernel
  obtain ⟨t, hlabels, hdone⟩ := (Option.any_eq_true _ _).mp hany
  have hrun := reaches_of_runLabels finalizedRun hlabels
  obtain ⟨r, hr, hsucceeded⟩ : ∃ r ∈ t.store.runs, r.status = .succeeded := by
    apply List.mem_map.mp
    rw [beq_iff_eq.mp hdone]
    exact List.mem_cons_self
  obtain ⟨output, v, hholds, -⟩ := (artifact_integrity hrun).1 r hr hsucceeded
  exact ⟨t, r, v, hrun, hr, hsucceeded, hholds.version⟩

end CryptoAlert
