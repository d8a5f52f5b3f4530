import CryptoAlert.Commands.Fencing
import CryptoAlert.Commands.Lineage

/-!
# Cancellations before the creation

A cancellation of a task without a run is confirmed on the spot. A run that was inserted by a retry
or a fork and never claimed is looked up at the Agent Server all the same, and as nobody has
created it, the cancellation cannot be confirmed.
-/

namespace CryptoAlert

/-- A run as a retry or a fork inserts it, but for the request to cancel it. -/
structure RunRow.Untouched (r : RunRow) : Prop where
  status : r.status = .queued
  unregistered : r.officialRunId = none
  unobserved : r.observedTerminalStatus = none
  original : r.resumeOfRunId = none

/-- A cancellation of the task, or of the run if there is one. -/
def TaskCommand.CancelsTarget (c : TaskCommand) (target : Option ℕ) : Prop :=
  (∃ taskId, c.payload = .cancelTask taskId) ∨ ∃ runId, target = some runId ∧
    c.payload = .cancelRun runId

/-- Where the worker of a cancellation may stand that has found nothing to cancel. -/
def Pc.Searches : Option ℕ → Pc → Prop
  | _, .start | _, .done | none, .confirmingCancel => True
  | some _, .finding | some _, .retryingCancel _ | some _, .failingCancel _ _ _ => True
  | _, _ => False

/-- A worker with the lease of a cancellation that has found nothing to cancel. -/
structure Activation.Searching (target : Option ℕ) (a : Activation) : Prop where
  run : a.lease.productRunId = target
  type : a.lease.commandType = .cancelTask ∨
    (target.isSome ∧ a.lease.commandType = .cancelRun)
  handle : a.lease.remoteHandle = none
  unobserved : a.lease.observedTerminalStatus = none
  pc : a.pc.Searches target

namespace TaskStore

/-- Nothing has happened to the latest run, which is the target; without a target there is no
run. -/
def Pristine (s : TaskStore) : Option ℕ → Prop
  | none => s.runs = []
  | some runId => ∃ run, s.latestRun = some run ∧ run.id = runId ∧ run.Untouched

variable {cfg : DispatcherConfig} {digests : KeyDigests} {s s' : TaskStore} {target : Option ℕ}

theorem Pristine.latestRun (h : s.Pristine target) : s.latestRun.map RunRow.id = target ∧
    ∀ run, s.latestRun = some run → run.Untouched := by
  cases target with
  | none =>
      have hruns : s.runs = [] := h
      have hnone : s.latestRun = none := by
        rw [TaskStore.latestRun, hruns, List.find?_nil]
      rw [hnone]
      exact ⟨rfl, fun _ hrun => by cases hrun⟩
  | some runId =>
      obtain ⟨run, hlatest, hid, huntouched⟩ := h
      rw [hlatest, Option.map_some, hid]
      refine ⟨rfl, fun run' hrun' => ?_⟩
      cases hrun'
      exact huntouched

theorem Pristine.congr (h : s.Pristine target) (hruns : s'.runs = s.runs) : s'.Pristine target := by
  have hlatest : s'.latestRun = s.latestRun := by
    simp only [TaskStore.latestRun, maxAttempt, hruns]
  cases target with
  | none => exact hruns.trans h
  | some runId =>
      obtain ⟨run, hrun, hid, huntouched⟩ := h
      exact ⟨run, hlatest.trans hrun, hid, huntouched⟩

/-- A cancellation is claimed with the latest run. -/
theorem claimedRun_of_cancels (h : s.Pristine target) (hk : s.Keyed) {c : TaskCommand}
    (hc : c.CancelsTarget target) : s.claimedRun c = .run s.latestRun := by
  obtain ⟨taskId, hpayload⟩ | ⟨runId, rfl, hpayload⟩ := hc
  · rw [claimedRun, hpayload]
  · obtain ⟨run, hlatest, rfl, huntouched⟩ := h
    have hfound : s.findRun run.id = some run :=
      Table.find_of_mem hk.runIds (latestRun_mem hlatest)
    simp only [claimedRun, hpayload, hfound, huntouched.status, hlatest]
    rfl

theorem drives_of_cancels {c : TaskCommand} (hc : c.CancelsTarget target) :
    c.commandType.drives = false ∧ c.commandType ≠ .submit ∧
      (c.commandType = .cancelTask ∨ (target.isSome ∧ c.commandType = .cancelRun)) := by
  obtain ⟨taskId, hpayload⟩ | ⟨runId, rfl, hpayload⟩ := hc <;>
    simp [TaskCommand.commandType, hpayload, CommandPayload.commandType, CommandType.drives]

/-- The lease of a cancellation knows nothing about the run. -/
theorem leaseCommand_of_cancels (h : s.Pristine target) {c : TaskCommand}
    (hc : c.CancelsTarget target) {workerId : String} {now : ℕ} {lease : CommandLease}
    (hlease : s.leaseCommand cfg c s.latestRun workerId now = some (s', lease)) :
    s' = s.putCommand (dispatched cfg now c workerId) ∧ lease.commandId = c.id ∧
      lease.fenceToken = c.attempt + 1 ∧ Activation.Searching target ⟨lease, .start⟩ := by
  obtain ⟨hid, huntouched⟩ := h.latestRun
  obtain ⟨hdrives, hsubmit, htype⟩ := drives_of_cancels hc
  unfold leaseCommand at hlease
  simp only [hdrives, Bool.false_and, Bool.false_eq_true, if_false] at hlease
  obtain ⟨-, hlease⟩ := Option.ite_none_left_eq_some.mp hlease
  cases hlease
  refine ⟨by cases s.latestRun <;> rfl, rfl, rfl, hid, htype, ?_, ?_, trivial⟩
  · cases hlatest : s.latestRun with
    | none => dsimp only; split_ifs <;> rfl
    | some run =>
        have hrun := huntouched run hlatest
        simp only [Option.bind_some, handleOf_eq_none hrun.unregistered, resumedHandle,
          hrun.original, Option.bind_none]
        split_ifs <;> rfl
  · cases hlatest : s.latestRun with
    | none => rfl
    | some run => exact (huntouched run hlatest).unobserved

theorem claim_of_cancels (h : s.Pristine target) (hk : s.Keyed) {c : TaskCommand}
    (hc : c.CancelsTarget target) {workerId : String} {runId now : ℕ}
    {lease? : Option CommandLease}
    (hclaim : s.claim cfg c workerId runId now = some (s', lease?)) :
    ∃ lease, lease? = some lease ∧ s' = s.putCommand (dispatched cfg now c workerId) ∧
      lease.commandId = c.id ∧ lease.fenceToken = c.attempt + 1 ∧
      Activation.Searching target ⟨lease, .start⟩ := by
  obtain ⟨hdrives, hsubmit, -⟩ := drives_of_cancels hc
  have hclaimed := claimedRun_of_cancels h hk hc
  unfold claim at hclaim
  rw [hclaimed] at hclaim
  obtain ⟨⟨s₁, run⟩, hensure, hclaim⟩ := Option.bind_eq_some_iff.mp hclaim
  obtain ⟨rfl, rfl⟩ | ⟨r, -, -, hsubmit', -⟩ := ensureRun_eq_some hclaimed hensure
  · dsimp only at hclaim
    rw [if_neg fun hyields => hsubmit hyields.1] at hclaim
    obtain ⟨⟨s₂, lease⟩, hlease, hclaim⟩ := Option.bind_eq_some_iff.mp hclaim
    cases hclaim
    exact ⟨lease, rfl, leaseCommand_of_cancels h hc hlease⟩
  · exact absurd hsubmit' hsubmit

section SearchingWorkers

variable {lease : CommandLease} {pc pc' : Pc} {event : Event} {now : ℕ}

/-- What a worker writes that has found nothing to cancel. -/
inductive SearchWrites (cfg : DispatcherConfig) (s : TaskStore) (lease : CommandLease) (now : ℕ)
    (s' : TaskStore) : Option ℕ → Prop where
  | released {target : Option ℕ} (b : Bool)
      (release : s.scheduleCancelRetry cfg lease now = some (s', b)) :
      SearchWrites cfg s lease now s' target
  | failed {runId : ℕ} (errorType code message : String) (b : Bool)
      (fail : s.finalizeCancelFailure cfg lease errorType code message now = some (s', b)) :
      SearchWrites cfg s lease now s' (some runId)
  | confirmed (b : Bool) (confirm : s.finalizeCancel cfg lease now = some (s', b)) :
      SearchWrites cfg s lease now s' none

theorem firstMove_searches (h : Activation.Searching target ⟨lease, pc⟩) :
    lease.firstMove.Searches target := by
  have hcancels : lease.commandType.cancels := by
    obtain htype | ⟨-, htype⟩ := h.type <;> rw [htype] <;> rfl
  have hhandle : lease.remoteHandle = none := h.handle
  have hunobserved : lease.observedTerminalStatus = none := h.unobserved
  have hrun : lease.productRunId = target := h.run
  unfold CommandLease.firstMove
  rw [if_pos hcancels, hhandle, hunobserved, hrun]
  cases target <;> trivial

/-- While nothing is found, a worker searches on or ends with one of its writes. -/
theorem searching_step (h : Activation.Searching target ⟨lease, pc⟩)
    (hnothing : pc = .finding → ∀ handle, event ≠ .found handle)
    (hstep : s.executeStep cfg digests lease now pc event = some (s', pc')) :
    (s' = s ∧ Activation.Searching target ⟨lease, pc'⟩) ∨
      (pc' = .done ∧ SearchWrites cfg s lease now s' target) := by
  have hcancels : lease.commandType.cancels := by
    obtain htype | ⟨-, htype⟩ := h.type <;> rw [htype] <;> rfl
  have move : ∀ {pc₁ : Pc}, pc₁.Searches target → some (s, pc₁) = some (s', pc') →
      (s' = s ∧ Activation.Searching target ⟨lease, pc'⟩) ∨
        (pc' = .done ∧ SearchWrites cfg s lease now s' target) := by
    intro pc₁ hpc hmove
    cases hmove
    exact .inl ⟨rfl, h.run, h.type, h.handle, h.unobserved, hpc⟩
  cases pc with
  | start =>
      cases event with
      | proceed =>
          refine move ?_ hstep
          split_ifs
          · exact firstMove_searches h
          · cases target <;> trivial
      | _ => cases hstep
  | done => cases event <;> cases hstep
  | finding =>
      cases target with
      | none => exact h.pc.elim
      | some runId =>
          cases event with
          | found handle => exact absurd rfl (hnothing rfl handle)
          | absent | timedOut | raised =>
              refine move ?_ hstep
              rw [if_pos hcancels]
              trivial
          | _ => cases hstep
  | retryingCancel errorType =>
      cases target with
      | none => exact h.pc.elim
      | some runId =>
          cases event with
          | proceed =>
              unfold executeStep at hstep
              have hunobserved : lease.observedTerminalStatus = none := h.unobserved
              dsimp only at hstep
              rw [if_neg (by rw [hunobserved]; exact Bool.false_ne_true)] at hstep
              split_ifs at hstep with hlimit
              · refine move ?_ hstep
                trivial
              · obtain ⟨⟨s₁, b⟩, hretry, hout⟩ := Option.map_eq_some_iff.mp hstep
                cases hout
                exact .inr ⟨rfl, .released b hretry⟩
          | _ => cases hstep
  | failingCancel errorType code message =>
      cases target with
      | none => exact h.pc.elim
      | some runId =>
          cases event with
          | proceed =>
              unfold executeStep at hstep
              dsimp only at hstep
              obtain ⟨⟨s₁, b⟩, hfail, hout⟩ := Option.map_eq_some_iff.mp hstep
              cases hout
              exact .inr ⟨rfl, .failed errorType code message b hfail⟩
          | _ => cases hstep
  | confirmingCancel =>
      cases target with
      | some runId => exact h.pc.elim
      | none =>
          cases event with
          | proceed =>
              unfold executeStep at hstep
              dsimp only at hstep
              obtain ⟨⟨s₁, b⟩, hconfirm, hout⟩ := Option.map_eq_some_iff.mp hstep
              cases hout
              exact .inr ⟨rfl, .confirmed b hconfirm⟩
          | _ => cases hstep
  | _ => cases target <;> exact h.pc.elim

end SearchingWorkers

end TaskStore

namespace TaskState

variable {cfg : DispatcherConfig} {digests : KeyDigests} {t t' : TaskState} {s : TaskStore}
  {target : Option ℕ}

/-- A cancellation of a target that does not exist at the Agent Server is on its way. -/
structure Cancelling (target : Option ℕ) (t : TaskState) : Prop where
  task : t.store.task.status = .queued
  run : t.store.Pristine target
  live : ∀ c ∈ t.store.commands, c.isLive → c.CancelsTarget target
  sole : ∀ c ∈ t.store.commands, c.isLive → ∀ d ∈ t.store.commands, d.isLive → c.id = d.id
  workers : ∀ a ∈ t.activations, (target.isSome → ∃ c ∈ t.store.commands, c.isOwnedBy a.lease) →
    a.Searching target

/-- The cancellation has come to its end: without a run it was confirmed, with a run it failed. -/
structure Ended (target : Option ℕ) (s : TaskStore) : Prop where
  task : s.task.status = if target.isSome then .failed else .cancelled
  runless : target = none → s.runs = []
  run : ∀ runId, target = some runId → ∃ run ∈ s.runs, run.id = runId ∧ run.status = .failed
  idle : ∀ c ∈ s.commands, c.isLive = false

/-- Workers and their leases may go on while no row changes but for the ends of leases. -/
theorem Cancelling.relax (h : Cancelling target t) (htask : t'.store.task = t.store.task)
    (hruns : t'.store.runs = t.store.runs)
    (hcommands : ∀ c' ∈ t'.store.commands, ∃ c ∈ t.store.commands, c.Kept c' ∧
      (c'.leaseOwner = c.leaseOwner ∨ c'.leaseOwner = none))
    (hworkers : ∀ a ∈ t'.activations,
      (target.isSome → ∃ c ∈ t.store.commands, c.isOwnedBy a.lease) → a.Searching target) :
    Cancelling target t' where
  task := (congrArg TaskRow.status htask).trans h.task
  run := h.run.congr hruns
  live c' hc' hlive := by
    obtain ⟨c, hc, hkept, -⟩ := hcommands c' hc'
    have hcancels := h.live c hc (by rwa [TaskCommand.isLive, ← hkept.status])
    rw [TaskCommand.CancelsTarget, hkept.payload]
    exact hcancels
  sole c' hc' hlive d' hd' hlive' := by
    obtain ⟨c, hc, hkept, -⟩ := hcommands c' hc'
    obtain ⟨d, hd, hkept', -⟩ := hcommands d' hd'
    rw [hkept.id, hkept'.id]
    exact h.sole c hc (by rwa [TaskCommand.isLive, ← hkept.status]) d hd
      (by rwa [TaskCommand.isLive, ← hkept'.status])
  workers a ha hown := by
    refine hworkers a ha fun hsome => ?_
    obtain ⟨c', hc', howned⟩ := hown hsome
    obtain ⟨c, hc, hkept, howner⟩ := hcommands c' hc'
    refine ⟨c, hc, ?_⟩
    simp only [TaskCommand.isOwnedBy, Bool.and_eq_true, beq_iff_eq] at howned ⊢
    obtain hsame | hnone := howner
    · rw [← hkept.id, ← hkept.status, ← hkept.attempt, ← hsame]
      exact howned
    · rw [hnone] at howned
      cases howned.1.2

/-- A claim leases the cancellation, if it is due. -/
theorem Cancelling.claim (h : Cancelling target t) (hs : t.Sound) {workerId : String}
    {runId now : ℕ} (hstep : t.step cfg digests (.claim workerId runId now) = some t') :
    Cancelling target t' := by
  obtain ⟨⟨store, lease?⟩, hclaim, rfl⟩ := Option.map_eq_some_iff.mp hstep
  unfold TaskStore.claimNext at hclaim
  cases hnext : t.store.nextCommand now with
  | none =>
      rw [hnext] at hclaim
      cases hclaim
      dsimp only
      rw [Option.toList_none, List.map_nil, List.append_nil]
      exact h
  | some c =>
      rw [hnext] at hclaim
      have hfirst := TaskStore.first_of_next hnext
      have hcancels := h.live c hfirst.mem hfirst.live
      obtain ⟨lease, rfl, rfl, hid, htoken, hsearching⟩ :=
        TaskStore.claim_of_cancels h.run hs.toKeyed hcancels hclaim
      have hrow : ∀ d ∈ (t.store.putCommand (TaskStore.dispatched cfg now c workerId)).commands,
          d.isLive → ∃ e ∈ t.store.commands, e.isLive ∧ e.id = d.id ∧ e.payload = d.payload := by
        intro d hd hlive
        obtain ⟨hd, -⟩ | ⟨rfl, -⟩ := Table.mem_put.mp hd
        · exact ⟨d, hd, hlive, rfl, rfl⟩
        · exact ⟨c, hfirst.mem, hfirst.live, rfl, rfl⟩
      refine ⟨h.task, h.run.congr rfl, ?_, ?_, ?_⟩
      · intro d hd hlive
        obtain ⟨e, he, helive, -, hpayload⟩ := hrow d hd hlive
        rw [TaskCommand.CancelsTarget, ← hpayload]
        exact h.live e he helive
      · intro d hd hlive d' hd' hlive'
        obtain ⟨e, he, helive, heid, -⟩ := hrow d hd hlive
        obtain ⟨e', he', helive', heid', -⟩ := hrow d' hd' hlive'
        rw [← heid, ← heid']
        exact h.sole e he helive e' he' helive'
      · intro a ha hown
        obtain ha | ha := List.mem_append.mp ha
        · refine h.workers a ha fun hsome => ?_
          obtain ⟨d, hd, howned⟩ := hown hsome
          obtain ⟨hd, -⟩ | ⟨rfl, -⟩ := Table.mem_put.mp hd
          · exact ⟨d, hd, howned⟩
          · -- An earlier lease has an earlier token.
            obtain ⟨given, hgiven⟩ := hs.given a.lease (List.mem_map_of_mem ha)
            have hcurrent := TaskCommand.isCurrent_of_owned howned
            have hsame : given = c := List.inj_on_of_nodup_map hs.commandIds hgiven.mem hfirst.mem
              (hgiven.commandId.symm.trans hcurrent.1.symm)
            have htoken' : c.attempt + 1 = a.lease.fenceToken := hcurrent.2.2
            have hle := hgiven.fenceToken
            rw [hsame] at hle
            omega
        · rw [Option.toList_some, List.map_singleton, List.mem_singleton] at ha
          rw [ha]
          exact hsearching

/-- The only live command was settled. -/
theorem Cancelling.idle_of_settle (h : Cancelling target t) {command : TaskCommand}
    (hcommand : command ∈ t.store.commands) (hlive : command.isLive) {status : CommandStatus}
    (hended : status.isLive = false) {c : TaskCommand}
    (hc : c ∈ Table.put TaskCommand.id t.store.commands (command.settle status)) :
    c.isLive = false := by
  obtain ⟨hc, hne⟩ | ⟨rfl, -⟩ := Table.mem_put.mp hc
  · by_contra hother
    exact hne (h.sole c hc (by simpa using hother) command hcommand hlive)
  · exact hended

theorem Cancelling.isLive_of_owned {lease : CommandLease} {command : TaskCommand}
    (howned : command.isOwnedBy lease) : command.isLive := by
  rw [TaskCommand.isLive, (TaskCommand.isCurrent_of_owned howned).2.1]
  rfl

theorem Cancelling.failed (h : Cancelling target t) {lease : CommandLease}
    {errorType code message : String} {now runId : ℕ} {b : Bool} (htarget : target = some runId)
    (hrun : lease.productRunId = some runId)
    (htype : lease.commandType = .cancelTask ∨ lease.commandType = .cancelRun)
    (hfail : t.store.finalizeCancelFailure cfg lease errorType code message now = some (s, b)) :
    s = t.store ∨ Ended target s := by
  subst htarget
  unfold TaskStore.finalizeCancelFailure at hfail
  rw [hrun] at hfail
  cases houtput : failedTerminalOutput code errorType false (some lease.fenceToken) with
  | none => simp [houtput] at hfail
  | some terminal =>
      simp only [houtput] at hfail
      obtain ⟨hsame, -⟩ | ⟨command, run, l', hlocks, hbody, hstore⟩ :=
        TaskStore.underLease_cases hfail
      · exact .inl hsame
      · have hlive := Cancelling.isLive_of_owned hlocks.owned
        rw [if_neg (by rw [TaskStore.lock, h.task]; exact Bool.false_ne_true)] at hbody
        obtain ⟨closed, hclosed, hbody⟩ := Option.bind_eq_some_iff.mp hbody
        obtain ⟨persisted, hpersisted, hbody⟩ := Option.bind_eq_some_iff.mp hbody
        cases hbody
        have hc := LockedRows.closeActiveInterruptLineage_eq_some hclosed
        have hp := LockedRows.persist_eq_some hpersisted
        have hstatus := LockedRows.failedTerminalOutput_status houtput
        obtain ⟨latest, hlatest, hid, -⟩ := h.run
        have hrunId : run.id = runId := Option.some.inj (hlocks.target.symm.trans hrun)
        have hlatest' : TaskStore.targetIsLatest t.store lease closed.run = true := by
          have hclosedRun : closed.run.id = runId := by rw [hc]; exact hrunId
          obtain htype | htype := htype
          · rw [TaskStore.targetIsLatest, htype]
            rfl
          · rw [TaskStore.targetIsLatest, htype, hlatest, Option.map_some, hid, hclosedRun]
            exact Bool.or_eq_true_iff.mpr (.inr (by rw [beq_self_eq_true, beq_self_eq_true]; rfl))
        rw [hlatest'] at hp
        have htask : l'.task.status = .failed := by
          rw [hp.task, if_pos rfl, hstatus]
          rfl
        have hcommands : s.commands =
            Table.put TaskCommand.id t.store.commands (command.settle .failed) := by
          rw [hstore, TaskStore.write, hp.command, hc]
          rfl
        have hfound := (Table.find_eq_some hlocks.found).1
        have hsameId : l'.run.id = run.id := by
          rw [hp.identity.id, hc]
          rfl
        right
        refine ⟨?_, (fun hnone => by cases hnone), fun runId' htarget => ?_, fun c hc' => ?_⟩
        · rw [hstore]
          exact htask
        · cases htarget
          refine ⟨l'.run, ?_, hsameId.trans hrunId, ?_⟩
          · rw [hstore]
            exact Table.mem_put_self hfound hsameId.symm
          · rw [hp.runStatus, hstatus]
            rfl
        · rw [hcommands] at hc'
          exact h.idle_of_settle hlocks.mem hlive rfl hc'

theorem Cancelling.confirmed (h : Cancelling none t) {lease : CommandLease} {now : ℕ} {b : Bool}
    (hrun : lease.productRunId = none) (htype : lease.commandType = .cancelTask)
    (hconfirm : t.store.finalizeCancel cfg lease now = some (s, b)) :
    s = t.store ∨ Ended none s := by
  unfold TaskStore.finalizeCancel at hconfirm
  rw [hrun] at hconfirm
  simp only [Option.some.injEq] at hconfirm
  unfold TaskStore.underRunlessLease at hconfirm
  cases hcommand : t.store.lockedCommand lease now true with
  | none =>
      rw [hcommand] at hconfirm
      exact .inl (congrArg Prod.fst hconfirm).symm
  | some command =>
      obtain ⟨hmem, howned⟩ := TaskStore.lockedCommand_eq_some hcommand
      have hlive := Cancelling.isLive_of_owned howned
      rw [hcommand] at hconfirm
      dsimp only at hconfirm
      rw [if_neg (by rw [h.task]; exact Bool.false_ne_true), if_pos htype] at hconfirm
      have hstore : s = _ := (congrArg Prod.fst hconfirm).symm
      right
      refine ⟨?_, fun _ => ?_, nofun, fun c hc => ?_⟩
      · rw [hstore]
        rfl
      · rw [hstore]
        exact h.run
      · rw [hstore] at hc
        exact h.idle_of_settle hmem hlive rfl hc

/-- A worker gives the lease up until the next attempt. -/
theorem kept_of_scheduleCancelRetry (hs : t.Sound) {lease : CommandLease}
    {now : ℕ} {b : Bool}
    (hrelease : t.store.scheduleCancelRetry cfg lease now = some (s, b)) :
    s.task = t.store.task ∧ s.runs = t.store.runs ∧
      ∀ c' ∈ s.commands, ∃ c ∈ t.store.commands, c.Kept c' ∧
        (c'.leaseOwner = c.leaseOwner ∨ c'.leaseOwner = none) := by
  obtain ⟨hsame, -⟩ | ⟨command, run, l', hlocks, hbody, hstore⟩ :=
    TaskStore.underLease_cases hrelease
  · rw [hsame]
    exact ⟨rfl, rfl, fun c hc => ⟨c, hc, .refl c, .inl rfl⟩⟩
  · cases hbody
    rw [hstore]
    refine ⟨rfl, Table.put_of_mem hs.runIds (Table.find_eq_some hlocks.found).1, fun c hc => ?_⟩
    obtain ⟨hc, -⟩ | ⟨rfl, -⟩ := Table.mem_put.mp hc
    · exact ⟨c, hc, .refl c, .inl rfl⟩
    · exact ⟨command, hlocks.mem, ⟨rfl, rfl, rfl, rfl, rfl, rfl, rfl⟩, .inr rfl⟩

/-- A step of a dispatcher, while no run was created for the target at the Agent Server. -/
def DispatcherStep (target : Option ℕ) (t : TaskState) : TaskLabel → Prop
  | .claim _ _ _ | .releaseOwned _ _ => True
  | .execute i event _ => ∀ a, t.activations[i]? = some a → a.pc = .finding →
      a.lease.productRunId = target → ∀ handle, event ≠ .found handle
  | _ => False

theorem kept_of_releaseOwned (workerId : String) (now : ℕ) (s : TaskStore) :
    ∀ c' ∈ (s.releaseOwnedLeases workerId now).commands, ∃ c ∈ s.commands, c.Kept c' ∧
      (c'.leaseOwner = c.leaseOwner ∨ c'.leaseOwner = none) := by
  intro c' hc'
  obtain ⟨c, hc, rfl⟩ := List.mem_map.mp hc'
  refine ⟨c, hc, ?_⟩
  split_ifs
  · exact ⟨⟨rfl, rfl, rfl, rfl, rfl, rfl, rfl⟩, .inr rfl⟩
  · exact ⟨.refl c, .inl rfl⟩

/-- The move of a worker, on the rows that it leaves behind. -/
theorem execute_eq_some {i now : ℕ} {event : Event}
    (hstep : t.step cfg digests (.execute i event now) = some t') :
    ∃ a store pc, t.activations[i]? = some a ∧
      t.store.executeStep cfg digests a.lease now a.pc event = some (store, pc) ∧
      t' = { t with store, activations := t.activations.set i ⟨a.lease, pc⟩ } := by
  obtain ⟨a, ha, hstep⟩ := Option.bind_eq_some_iff.mp hstep
  obtain ⟨⟨store, pc⟩, hmove, hstep⟩ := Option.bind_eq_some_iff.mp hstep
  cases hstep
  exact ⟨a, store, pc, ha, hmove, rfl⟩

theorem Cancelling.execute (h : Cancelling target t) (hs : t.Sound) {i now : ℕ} {event : Event}
    (hok : DispatcherStep target t (.execute i event now))
    (hstep : t.step cfg digests (.execute i event now) = some t') :
    Cancelling target t' ∨ Ended target t'.store := by
  obtain ⟨a, store, pc, ha, hmove, rfl⟩ := execute_eq_some hstep
  have hmem := List.mem_of_getElem? ha
  -- The rows are as they were, and the worker searches on if it owns the cancellation.
  have quiet : store.task = t.store.task → store.runs = t.store.runs →
      (∀ c' ∈ store.commands, ∃ c ∈ t.store.commands, c.Kept c' ∧
        (c'.leaseOwner = c.leaseOwner ∨ c'.leaseOwner = none)) →
      ((target.isSome → ∃ c ∈ t.store.commands, c.isOwnedBy a.lease) →
        Activation.Searching target ⟨a.lease, pc⟩) →
      Cancelling target { t with store, activations := t.activations.set i ⟨a.lease, pc⟩ } := by
    intro htask hruns hcommands hsearching
    refine h.relax htask hruns hcommands fun a' ha' howned => ?_
    obtain ha' | rfl := List.mem_or_eq_of_mem_set ha'
    · exact h.workers a' ha' howned
    · exact hsearching howned
  by_cases howned : target.isSome → ∃ c ∈ t.store.commands, c.isOwnedBy a.lease
  · have hsearching := h.workers a hmem howned
    have hnothing : a.pc = .finding → ∀ handle, event ≠ .found handle :=
      fun hpc => hok a ha hpc hsearching.run
    obtain ⟨rfl, hpc⟩ | ⟨rfl, hwrites⟩ := TaskStore.searching_step hsearching hnothing hmove
    · exact .inl (quiet rfl rfl (fun c hc => ⟨c, hc, .refl c, .inl rfl⟩) fun _ => hpc)
    · have hdone : Activation.Searching target ⟨a.lease, .done⟩ :=
        ⟨hsearching.run, hsearching.type, hsearching.handle, hsearching.unobserved,
          by cases target <;> trivial⟩
      have same : store = t.store →
          Cancelling target
            { t with store, activations := t.activations.set i ⟨a.lease, .done⟩ } := by
        rintro rfl
        exact quiet rfl rfl (fun c hc => ⟨c, hc, .refl c, .inl rfl⟩) fun _ => hdone
      cases hwrites with
      | released b release =>
          obtain ⟨htask, hruns, hcommands⟩ := kept_of_scheduleCancelRetry hs release
          exact .inl (quiet htask hruns hcommands fun _ => hdone)
      | failed errorType code message b fail =>
          have htype := hsearching.type.imp_right And.right
          exact (h.failed rfl hsearching.run htype fail).imp_left same
      | confirmed b confirm =>
          have htype := hsearching.type.resolve_right fun hcancelRun => by cases hcancelRun.1
          exact (h.confirmed hsearching.run htype confirm).imp_left same
  · have hlost : store = t.store := by
      refine TaskStore.executeStep_lost (hs.checked a hmem) (fun c hc => ?_) hmove
      by_contra hother
      exact howned fun _ => ⟨c, hc, by simpa using hother⟩
    subst hlost
    exact .inl (quiet rfl rfl (fun c hc => ⟨c, hc, .refl c, .inl rfl⟩)
      fun hown => absurd hown howned)

theorem Cancelling.dispatcherStep (h : Cancelling target t) (hs : t.Sound) {label : TaskLabel}
    (hok : DispatcherStep target t label) (hstep : t.step cfg digests label = some t') :
    Cancelling target t' ∨ Ended target t'.store := by
  cases label with
  | claim workerId runId now => exact .inl (h.claim hs hstep)
  | execute i event now => exact h.execute hs hok hstep
  | releaseOwned workerId now =>
      cases hstep
      exact .inl (h.relax rfl rfl (kept_of_releaseOwned workerId now t.store) h.workers)
  | _ => exact hok.elim

theorem Ended.nextCommand (h : Ended target s) (now : ℕ) : s.nextCommand now = none := by
  cases hnext : s.nextCommand now with
  | none => rfl
  | some c =>
      have hfirst := TaskStore.first_of_next hnext
      exact absurd hfirst.live (by rw [h.idle c hfirst.mem]; exact Bool.false_ne_true)

/-- After the end the dispatchers leave the rows alone. -/
theorem Ended.dispatcherStep (h : Ended target t.store) (hs : t.Sound) {label : TaskLabel}
    (hok : DispatcherStep target t label) (hstep : t.step cfg digests label = some t') :
    Ended target t'.store := by
  have hdispatching : ∀ c ∈ t.store.commands, c.status ≠ .dispatching := by
    intro c hc hstatus
    have hidle := h.idle c hc
    rw [TaskCommand.isLive, hstatus] at hidle
    cases hidle
  cases label with
  | claim workerId runId now =>
      obtain ⟨⟨store, lease?⟩, hclaim, rfl⟩ := Option.map_eq_some_iff.mp hstep
      unfold TaskStore.claimNext at hclaim
      rw [h.nextCommand] at hclaim
      cases hclaim
      exact ⟨h.task, h.runless, h.run, h.idle⟩
  | execute i event now =>
      obtain ⟨a, store, pc, ha, hmove, rfl⟩ := execute_eq_some hstep
      have hlost : store = t.store := by
        refine TaskStore.executeStep_lost (hs.checked a (List.mem_of_getElem? ha))
          (fun c hc => ?_) hmove
        by_contra howned
        exact hdispatching c hc (TaskCommand.isCurrent_of_owned (by simpa using howned)).2.1
      subst hlost
      exact ⟨h.task, h.runless, h.run, h.idle⟩
  | releaseOwned workerId now =>
      cases hstep
      refine ⟨h.task, h.runless, h.run, fun c' hc' => ?_⟩
      obtain ⟨c, hc, hkept, -⟩ := kept_of_releaseOwned workerId now t.store c' hc'
      rw [TaskCommand.isLive, hkept.status]
      exact h.idle c hc
  | _ => exact hok.elim

/-- Without a run there is nothing but searching workers, before the end and after it. -/
theorem searching_dispatcherStep (h : Cancelling none t ∨ Ended none t.store) (hs : t.Sound)
    (hworkers : ∀ a ∈ t.activations, a.Searching none) {label : TaskLabel}
    (hok : DispatcherStep none t label) (hstep : t.step cfg digests label = some t') :
    ∀ a ∈ t'.activations, a.Searching none := by
  cases label with
  | claim workerId runId now =>
      obtain hcancelling | hended := h
      · intro a ha
        exact (hcancelling.claim hs hstep).workers a ha nofun
      · obtain ⟨⟨store, lease?⟩, hclaim, rfl⟩ := Option.map_eq_some_iff.mp hstep
        unfold TaskStore.claimNext at hclaim
        rw [hended.nextCommand] at hclaim
        cases hclaim
        dsimp only
        rw [Option.toList_none, List.map_nil, List.append_nil]
        exact hworkers
  | execute i event now =>
      obtain ⟨a, store, pc, ha, hmove, rfl⟩ := execute_eq_some hstep
      have hsearching := hworkers a (List.mem_of_getElem? ha)
      intro a' ha'
      obtain ha' | rfl := List.mem_or_eq_of_mem_set ha'
      · exact hworkers a' ha'
      · have hnothing : a.pc = .finding → ∀ handle, event ≠ .found handle := by
          intro hpc
          have hstands := hsearching.pc
          rw [hpc] at hstands
          exact hstands.elim
        obtain ⟨-, hnext⟩ | ⟨rfl, -⟩ := TaskStore.searching_step hsearching hnothing hmove
        · exact hnext
        · exact ⟨hsearching.run, hsearching.type, hsearching.handle, hsearching.unobserved, trivial⟩
  | releaseOwned workerId now =>
      cases hstep
      exact hworkers
  | _ => exact hok.elim

section Waiting

variable {command : ℕ}

/-- The command of the target waits for its first claim, as the only live one. -/
structure Waiting (target : Option ℕ) (command : ℕ) (t : TaskState) : Prop where
  task : t.store.task.status = .queued
  run : t.store.Pristine target
  live : ∀ c ∈ t.store.commands, c.isLive →
    c.id = command ∧ c.status = .pending ∧ c.commandType.drives
  unstarted : target = none → t.activations = []

/-- A command that was inserted and never claimed. -/
def Unclaimed (command : ℕ) (s : TaskStore) : Prop :=
  ∃ c ∈ s.commands, c.id = command ∧ c.isLive ∧ c.attempt = 0

/-- The steps that can happen while no command is being dispatched. -/
theorem step_of_idle (hs : t.Sound) (hidle : ∀ c ∈ t.store.commands, c.status ≠ .dispatching)
    {label : TaskLabel} (hstep : t.step cfg digests label = some t') :
    (t'.store = t.store ∧ t'.leases = t.leases) ∨
      (TaskStore.Requested digests t.store t'.store ∧ t'.leases = t.leases) ∨
      ∃ now lease?, TaskStore.Claims cfg t.store now t'.store lease? ∧
        t'.leases = t.leases ++ lease?.toList := by
  have hlost : ∀ (lease : ReconciliationLease), ∀ c ∈ t.store.commands,
      c.isReconciledBy lease = false := by
    intro lease c hc
    by_contra hother
    simp only [Bool.not_eq_false, TaskCommand.isReconciledBy, Bool.and_eq_true,
      beq_iff_eq] at hother
    exact hidle c hc (by tauto)
  have service : ∀ {result : ServiceResult}, t.afterService result = some t' →
      (∀ s reply, result = .ok (s, reply) →
        s = t.store ∨ TaskStore.Requested digests t.store s) →
      (t'.store = t.store ∧ t'.leases = t.leases) ∨
        (TaskStore.Requested digests t.store t'.store ∧ t'.leases = t.leases) ∨
        ∃ now lease?, TaskStore.Claims cfg t.store now t'.store lease? ∧
          t'.leases = t.leases ++ lease?.toList := by
    intro result h hrequested
    obtain ⟨reply, hresult, hactivations, -⟩ := afterService_eq_some h
    have hleases : t'.leases = t.leases := by rw [leases, leases, hactivations]
    obtain hsame | hrequested := hrequested _ _ hresult
    · exact .inl ⟨hsame, hleases⟩
    · exact .inr (.inl ⟨hrequested, hleases⟩)
  cases label with
  | cancelTask key commandId now =>
      exact service hstep fun _ _ h => (TaskStore.cancelTask_requested h).imp_right And.left
  | cancelRun runId key commandId now =>
      exact service hstep fun _ _ h => (TaskStore.cancelRun_requested h).imp_right And.left
  | retryTask key runId commandId =>
      exact service hstep fun _ _ h => (TaskStore.retryTask_requested h).imp_right And.left
  | forkTask sourceRunId checkpointId key runId commandId now =>
      exact service hstep fun _ _ h => (TaskStore.forkTask_requested h).imp_right And.left
  | respondInterrupts submission key runId commandId now =>
      exact service hstep fun _ _ h =>
        (TaskStore.respondInterrupts_requested h).imp_right And.left
  | expire pauseId runId commandId now =>
      obtain ⟨store, hstore, rfl⟩ := Option.map_eq_some_iff.mp hstep
      exact .inr (.inl ⟨(TaskStore.expireDueInterrupt_requested hstore).1, rfl⟩)
  | claim workerId runId now =>
      obtain ⟨⟨store, lease?⟩, hclaim, rfl⟩ := Option.map_eq_some_iff.mp hstep
      refine .inr (.inr ⟨now, lease?, TaskStore.claimNext_claims hclaim, ?_⟩)
      rw [leases, List.map_append, List.map_map]
      cases lease? <;> rfl
  | execute i event now =>
      obtain ⟨a, store, pc, ha, hmove, rfl⟩ := execute_eq_some hstep
      refine .inl ⟨?_, leases_set ha pc⟩
      refine TaskStore.executeStep_lost (hs.checked a (List.mem_of_getElem? ha))
        (fun c hc => ?_) hmove
      by_contra howned
      exact hidle c hc (TaskCommand.isCurrent_of_owned (by simpa using howned)).2.1
  | releaseOwned workerId now =>
      cases hstep
      refine .inl ⟨?_, rfl⟩
      have hcommands : (t.store.releaseOwnedLeases workerId now).commands = t.store.commands := by
        refine (List.map_congr_left fun c hc => ?_).trans (List.map_id _)
        rw [if_neg fun hboth => hidle c hc hboth.1]
        rfl
      exact congrArg (fun commands => { t.store with commands }) hcommands
  | reconcile commandId workerId now staleBefore leaseExpiresAt =>
      obtain ⟨⟨store, lease⟩, hstore, rfl⟩ := Option.map_eq_some_iff.mp hstep
      obtain ⟨c, hc, h⟩ := Option.bind_eq_some_iff.mp hstore
      obtain ⟨run, -, h⟩ := Option.bind_eq_some_iff.mp h
      have hnot := hidle c (Table.find_eq_some hc).1
      split_ifs at h with hready
      simp only [Bool.and_eq_true, beq_iff_eq] at hready
      exact absurd hready.1.1.1.1.2 hnot
  | registerHandle i handle now =>
      obtain ⟨lease, -, h⟩ := Option.bind_eq_some_iff.mp hstep
      obtain ⟨⟨store, b⟩, hstore, h⟩ := Option.bind_eq_some_iff.mp h
      cases h
      exact .inl ⟨TaskStore.underReconciliation_lost (hlost lease) hstore, rfl⟩
  | observeAbsence i now =>
      obtain ⟨lease, -, h⟩ := Option.bind_eq_some_iff.mp hstep
      obtain ⟨⟨store, b⟩, hstore, h⟩ := Option.bind_eq_some_iff.mp h
      cases h
      exact .inl ⟨TaskStore.underReconciliation_lost (hlost lease) hstore, rfl⟩
  | observeState i handle status now =>
      obtain ⟨lease, -, h⟩ := Option.bind_eq_some_iff.mp hstep
      obtain ⟨⟨store, b⟩, hstore, h⟩ := Option.bind_eq_some_iff.mp h
      cases h
      exact .inl ⟨TaskStore.underReconciliation_lost (hlost lease) hstore, rfl⟩
  | releaseReconciled i now =>
      obtain ⟨lease, -, h⟩ := Option.bind_eq_some_iff.mp hstep
      cases h
      exact .inl ⟨TaskStore.releaseReconciliation_lost (hlost lease), rfl⟩

/-- A request cancels the waiting command, or is refused. -/
theorem Waiting.requested (h : Waiting target command t) (hs : t.Sound)
    (hknown : ∃ c ∈ t.store.commands, c.id = command)
    (hrequested : TaskStore.Requested digests t.store s) : ¬ Unclaimed command s := by
  rintro ⟨d, hd, hdid, hdlive, -⟩
  obtain ⟨known, hknown, hid⟩ := hknown
  have hmem : d ∈ t.store.commands := by
    obtain hmem | hinserted := TaskStore.live_requested hs.toKeyed hrequested hd hdlive
    · exact hmem
    · exact absurd (hid.trans hdid.symm) (hinserted.fresh.id known hknown)
  have hbusy : ¬ ∀ c ∈ t.store.commands, c.isLive = false := by
    intro hidle
    rw [hidle d hmem] at hdlive
    cases hdlive
  have hclosed : ∀ {new : TaskCommand}, t.store.FreshCommand new →
      d ∈ TaskStore.closeCommands t.store.commands ++ [new] → False := by
    intro new hfresh hd
    obtain hd | hnew := List.mem_append.mp hd
    · have hclosable := (TaskStore.closeCommands_live hd hdlive).2
      rw [TaskStore.isClosable, (h.live d hmem hdlive).2.1] at hclosable
      cases hclosable
    · rw [List.mem_singleton.mp hnew] at hdid
      exact hfresh.id known hknown (hid.trans hdid.symm)
  cases hrequested with
  | cancelTask key commandId now active idle fresh => exact hclosed fresh hd
  | cancelRun run key commandId now found active idle unrequested fresh => exact hclosed fresh hd
  | retry source key hash runId commandId latest idle => exact hbusy idle
  | fork source checkpointId key hash runId commandId now s₁ found checkpoint active idle =>
      exact hbusy idle
  | answer pause parent payload key runId commandId now pauseFound pending parentFound paused
      waiting waitingTask =>
      rw [h.task] at waitingTask
      cases waitingTask

/-- A claim finds nothing due, or ends the waiting command or counts an attempt of it. -/
theorem Waiting.claims (h : Waiting target command t) {now : ℕ} {lease? : Option CommandLease}
    (hclaims : TaskStore.Claims cfg t.store now s lease?) :
    (s = t.store ∧ lease? = none) ∨ ¬ Unclaimed command s := by
  have hput : ∀ c c' : TaskCommand, t.store.nextCommand now = some c → c'.id = c.id →
      (c'.isLive = false ∨ c'.attempt = c.attempt + 1) →
      s.commands = Table.put TaskCommand.id t.store.commands c' → ¬ Unclaimed command s := by
    rintro c c' hnext hsameId hended hcommands ⟨d, hd, hdid, hdlive, hzero⟩
    have hfirst := TaskStore.first_of_next hnext
    rw [hcommands] at hd
    obtain ⟨-, hne⟩ | ⟨rfl, -⟩ := Table.mem_put.mp hd
    · exact hne (hdid.trans ((h.live c hfirst.mem hfirst.live).1.symm.trans hsameId.symm))
    · obtain hended | hcounted := hended
      · rw [hended] at hdlive
        cases hdlive
      · omega
  cases hclaims with
  | idle => exact .inl ⟨rfl, rfl⟩
  | cancelled c next moot =>
      exact .inr (hput c (c.settle .cancelled) next rfl (.inl rfl) rfl)
  | failed c code errorType message run s next invalid fail =>
      refine .inr (hput c (c.settle .failed) next rfl (.inl rfl) ?_)
      obtain ⟨-, rfl⟩ | ⟨run', t₁, l, -, -, hp, rfl⟩ := TaskStore.failInvalid_eq_some fail
      · rfl
      · rw [TaskStore.write, hp.command]
        rfl
  | driven c workerId run s₁ lease next drives ensured leaseOf worker =>
      exact .inr (hput c (TaskStore.dispatched cfg now c workerId) next rfl (.inr rfl) rfl)
  | cancelling c workerId run lease next cancels claimed leaseOf worker =>
      exact .inr (hput c (TaskStore.dispatched cfg now c workerId) next rfl (.inr rfl) rfl)

/-- While the command waits, nothing but its own claim or cancellation happens to it. -/
theorem Waiting.step (h : Waiting target command t) (hs : t.Sound) {label : TaskLabel}
    (hstep : t.step cfg digests label = some t') (hknown : ∃ c ∈ t.store.commands, c.id = command)
    (hunclaimed : Unclaimed command t'.store) : Waiting target command t' := by
  have hidle : ∀ c ∈ t.store.commands, c.status ≠ .dispatching := by
    intro c hc hstatus
    have hpending := (h.live c hc (TaskStore.isLive_of_dispatching hstatus)).2.1
    rw [hstatus] at hpending
    cases hpending
  have hsame : t'.store = t.store → t'.leases = t.leases → Waiting target command t' := by
    intro hstore hleases
    refine ⟨by rw [hstore]; exact h.task, by rw [hstore]; exact h.run,
      by rw [hstore]; exact h.live, fun hnone => ?_⟩
    rw [leases, leases, h.unstarted hnone, List.map_nil, List.map_eq_nil_iff] at hleases
    exact hleases
  obtain ⟨hstore, hleases⟩ | ⟨hrequested, -⟩ | ⟨now, lease?, hclaims, hleases⟩ :=
    step_of_idle hs hidle hstep
  · exact hsame hstore hleases
  · exact absurd hunclaimed (h.requested hs hknown hrequested)
  · obtain ⟨hstore, rfl⟩ | hclaimed := h.claims hclaims
    · exact hsame hstore (by rw [hleases, Option.toList_none, List.append_nil])
    · exact absurd hunclaimed hclaimed

/-- Until the command is claimed or cancelled, it waits. -/
theorem waiting_of_reaches (hr : Reaches (TaskState.step cfg digests) anyStep t t')
    (hs : t.Sound) (hknown : ∃ c ∈ t.store.commands, c.id = command)
    (hwaiting : Waiting target command t) (hunclaimed : Unclaimed command t'.store) :
    Waiting target command t' := by
  have hboth : (∃ c ∈ t'.store.commands, c.id = command) ∧
      (Unclaimed command t'.store → Waiting target command t') := by
    refine hr.invariant_of (I := TaskState.Sound)
      (J := fun t => (∃ c ∈ t.store.commands, c.id = command) ∧
        (Unclaimed command t.store → Waiting target command t))
      (fun _ _ _ _ h hstep => h.step hstep) ?_ hs ⟨hknown, fun _ => hwaiting⟩
    intro u label u' _ hu hawaits hstep
    obtain ⟨⟨known, hknown, hid⟩, hwaits⟩ := hawaits
    obtain ⟨lease?, hchange, -⟩ := TaskState.step_change hu.toKeyed hu.checked hstep
    constructor
    · obtain ⟨c, hc, hcontinues⟩ := (hchange.grows hu.toKeyed).command hknown
      exact ⟨c, hc, hcontinues.id.trans hid⟩
    · intro hunclaimed
      obtain ⟨d, hd, hdid, hdlive, hzero⟩ := hunclaimed
      refine (hwaits ?_).step hu hstep ⟨known, hknown, hid⟩ ⟨d, hd, hdid, hdlive, hzero⟩
      obtain ⟨c, hc, hlive, hcontinues⟩ | hinserted :=
        TaskStore.live_before hu.toSound hchange hd hdlive
      · have hle := hcontinues.attempt
        exact ⟨c, hc, hcontinues.id.symm.trans hdid, hlive, by omega⟩
      · exact absurd (hid.trans hdid.symm) (hinserted.fresh.id known hknown)
  exact hboth.2 hunclaimed

end Waiting

end TaskState

namespace TaskStore

variable {cfg : DispatcherConfig} {digests : KeyDigests} {s s' : TaskStore} {target : Option ℕ}

theorem latestRun_of_mem (hk : s.Keyed) {run : RunRow} (hrun : run ∈ s.runs)
    (hmax : ∀ r ∈ s.runs, r.attempt ≤ run.attempt) : s.latestRun = some run := by
  have hattempt : run.attempt = s.maxAttempt :=
    Nat.le_antisymm (Table.le_maxOf hrun) (Table.maxOf_le hmax)
  rw [latestRun, ← hattempt]
  exact Table.find_of_mem hk.attempts hrun

/-- The target stays as it was when its cancellation is requested. -/
theorem Pristine.requested (h : s.Pristine target) (hk' : s'.Keyed) {run : RunRow}
    {now : ℕ} (hrun : s.latestRun = some run)
    (hruns : s'.runs = Table.put RunRow.id s.runs { run with cancelRequestedAt := some now }) :
    s'.Pristine target := by
  have hmem := latestRun_mem hrun
  cases target with
  | none =>
      have hempty : s.runs = [] := h
      rw [hempty] at hmem
      cases hmem
  | some runId =>
      obtain ⟨latest, hlatest, hid, huntouched⟩ := h
      rw [hrun, Option.some.injEq] at hlatest
      subst hlatest
      refine ⟨{ run with cancelRequestedAt := some now }, ?_, hid, ⟨huntouched.status,
        huntouched.unregistered, huntouched.unobserved, huntouched.original⟩⟩
      refine latestRun_of_mem hk' ?_ ?_
      · rw [hruns]
        exact Table.mem_put_self hmem rfl
      · intro r hr
        rw [hruns] at hr
        obtain ⟨hr, -⟩ | ⟨rfl, -⟩ := Table.mem_put.mp hr
        · exact latestRun_le hrun r hr
        · exact le_refl run.attempt

end TaskStore

/-- A request to cancel a task, or one of its runs. -/
inductive Cancellation where
  | task (key : String) (commandId now : ℕ)
  | run (runId : ℕ) (key : String) (commandId now : ℕ)

namespace Cancellation

/-- What the service answers. -/
def answer (digests : KeyDigests) (s : TaskStore) : Cancellation → ServiceResult
  | task key commandId now => s.cancelTask digests key commandId now
  | run runId key commandId now => s.cancelRun digests runId key commandId now

def label : Cancellation → TaskLabel
  | task key commandId now => .cancelTask key commandId now
  | run runId key commandId now => .cancelRun runId key commandId now

theorem step_label {cfg : DispatcherConfig} {digests : KeyDigests} (cancellation : Cancellation)
    (t : TaskState) : t.step cfg digests cancellation.label =
      t.afterService (cancellation.answer digests t.store) := by
  cases cancellation <;> rfl

/-- The cancellation is meant for the task, or for its run if there is one. -/
def IsFor (target : Option ℕ) : Cancellation → Prop
  | task _ _ _ => True
  | run runId _ _ _ => target = some runId

variable {digests : KeyDigests} {s s' : TaskStore} {target : Option ℕ}

/-- An accepted cancellation closes the commands before its own, and is noted on its run. -/
theorem accepted {cancellation : Cancellation} (hs : s.Pristine target) (hk : s.Keyed)
    (hfor : cancellation.IsFor target)
    (h : cancellation.answer digests s = .ok (s', .requested)) :
    s'.task = s.task ∧
      (∃ new : TaskCommand, s'.commands = TaskStore.closeCommands s.commands ++ [new] ∧
        new.status = .pending ∧ new.CancelsTarget target) ∧
      (s'.runs = s.runs ∨ ∃ run now, s.latestRun = some run ∧
        s'.runs = Table.put RunRow.id s.runs { run with cancelRequestedAt := some now }) := by
  cases cancellation with
  | task key commandId now =>
      have hcancel : s.cancelTask digests key commandId now = .ok (s', .requested) := h
      unfold TaskStore.cancelTask at hcancel
      dsimp only at hcancel
      split_ifs at hcancel with hcancelled hterminal hkey hlive
      · cases hcancel
      · cases hcancel
      · cases hcancel
      · have hlatest : TaskStore.latestRun { s with
            commands := TaskStore.closeCommands s.commands } = s.latestRun := rfl
        rw [hlatest] at hcancel
        cases hrun : s.latestRun with
        | none =>
            rw [hrun] at hcancel
            obtain ⟨-, rfl⟩ := TaskStore.request_of_closed rfl hcancel
            exact ⟨rfl, ⟨_, rfl, rfl, .inl ⟨s.task.id, rfl⟩⟩, .inl rfl⟩
        | some run =>
            rw [hrun] at hcancel
            obtain ⟨-, rfl⟩ := TaskStore.request_of_closed rfl hcancel
            exact ⟨rfl, ⟨_, rfl, rfl, .inl ⟨s.task.id, rfl⟩⟩, .inr ⟨run, now, rfl, rfl⟩⟩
  | run runId key commandId now =>
      have hcancel : s.cancelRun digests runId key commandId now = .ok (s', .requested) := h
      have htarget : target = some runId := hfor
      subst htarget
      obtain ⟨latest, hlatest, hid, -⟩ := hs
      unfold TaskStore.cancelRun at hcancel
      dsimp only at hcancel
      split at hcancel
      · cases hcancel
      · rename_i run hfound
        split_ifs at hcancel with hkey hterminal hlive hrequested
        · cases hcancel
        · cases hcancel
        · obtain ⟨hmem, hrunId⟩ := Table.find_eq_some hfound
          have hsame : run = latest := List.inj_on_of_nodup_map hk.runIds hmem
            (TaskStore.latestRun_mem hlatest) (hrunId.trans hid.symm)
          obtain ⟨-, rfl⟩ := TaskStore.request_of_closed rfl hcancel
          refine ⟨rfl, ⟨_, rfl, rfl, .inr ⟨runId, rfl, ?_⟩⟩, .inr ⟨run, now, ?_, rfl⟩⟩
          · rw [← hrunId]
            rfl
          · rw [hlatest, hsame]

end Cancellation

namespace TaskState

variable {cfg : DispatcherConfig} {digests : KeyDigests} {t : TaskState} {s : TaskStore}
  {target : Option ℕ} {command : ℕ}

theorem Waiting.accepted (h : Waiting target command t) (hk : t.store.Keyed) (hk' : s.Keyed)
    {cancellation : Cancellation} (hfor : cancellation.IsFor target)
    (hanswer : cancellation.answer digests t.store = .ok (s, .requested)) :
    Cancelling target { t with store := s } := by
  obtain ⟨htask, ⟨new, hcommands, hpending, hcancels⟩, hruns⟩ :=
    Cancellation.accepted h.run hk hfor hanswer
  have hlive : ∀ c ∈ s.commands, c.isLive → c = new := by
    intro c hc hlive
    rw [hcommands] at hc
    obtain hc | hc := List.mem_append.mp hc
    · obtain ⟨hmem, hclosable⟩ := TaskStore.closeCommands_live hc hlive
      rw [TaskStore.isClosable, (h.live c hmem hlive).2.1] at hclosable
      cases hclosable
    · exact List.mem_singleton.mp hc
  refine ⟨(congrArg TaskRow.status htask).trans h.task, ?_, ?_, ?_, ?_⟩
  · obtain hsame | ⟨run, now, hlatest, hput⟩ := hruns
    · exact h.run.congr hsame
    · exact h.run.requested hk' hlatest hput
  · intro c hc hclive
    rw [hlive c hc hclive]
    exact hcancels
  · intro c hc hclive d hd hdlive
    rw [hlive c hc hclive, hlive d hd hdlive]
  · intro a ha howned
    cases htarget : target with
    | none =>
        have hstarted : a ∈ t.activations := ha
        rw [h.unstarted htarget] at hstarted
        cases hstarted
    | some runId =>
        -- A pending command is nobody's.
        obtain ⟨c, hc, hown⟩ := howned (by rw [htarget]; rfl)
        have hdispatching := (TaskCommand.isCurrent_of_owned hown).2.1
        rw [hlive c hc (TaskStore.isLive_of_dispatching hdispatching), hpending] at hdispatching
        cases hdispatching

theorem Waiting.admitted (taskId commandId : ℕ) (threadId : String) (admission : Admission)
    (payloadHash : String) :
    Waiting none commandId (.admitted taskId commandId threadId admission payloadHash) := by
  refine ⟨rfl, rfl, fun c hc _ => ?_, fun _ => rfl⟩
  obtain rfl := List.mem_singleton.mp hc
  exact ⟨rfl, rfl, rfl⟩

end TaskState

namespace Restart

variable {digests : KeyDigests} {s s' : TaskStore}

/-- The run that is inserted along with the command. -/
def runId : Restart → ℕ
  | retry _ runId _ => runId
  | fork _ _ _ runId _ _ => runId

/-- The inserted run is the latest, and its command the only live one. -/
theorem inserted {restart : Restart}
    (h : restart.answer digests s = .ok (s', .requested)) :
    s'.task.status = .queued ∧
      (∃ (run : RunRow) (s₀ : TaskStore), s'.runs = s₀.runs ++ [run] ∧
        run.attempt = s₀.maxAttempt + 1 ∧ run.id = restart.runId ∧ run.Untouched) ∧
      ∃ new : TaskCommand, s'.commands = s.commands ++ [new] ∧ new.id = restart.commandId ∧
        new.status = .pending ∧ new.attempt = 0 ∧ new.commandType.drives ∧
        ∀ c ∈ s.commands, c.isLive = false := by
  cases restart with
  | retry key runId commandId =>
      obtain ⟨-, hview⟩ | ⟨source, key', hash, -, hidle, -, -, -, -, rfl⟩ :=
        TaskStore.retryTask_cases h
      · cases hview
      · exact ⟨rfl, ⟨_, s, rfl, rfl, rfl, rfl, rfl, rfl, rfl⟩,
          ⟨_, rfl, rfl, rfl, rfl, rfl, hidle⟩⟩
  | fork sourceRunId checkpointId key runId commandId now =>
      obtain ⟨-, hview⟩ | ⟨source, sourceCheckpointId, key', hash, s₀, -, -, -, hidle, hclosed,
        -, -, rfl⟩ := TaskStore.forkTask_cases h
      · cases hview
      · obtain ⟨hcommands, -⟩ := TaskStore.cancelPendingPauseForFork_commands hclosed
        exact ⟨rfl, ⟨_, s₀, rfl, rfl, rfl, rfl, rfl, rfl, rfl⟩,
          ⟨_, by rw [← hcommands], rfl, rfl, rfl, rfl, hidle⟩⟩

theorem waiting {restart : Restart} {t : TaskState} (hk' : s'.Keyed)
    (h : restart.answer digests t.store = .ok (s', .requested)) :
    TaskState.Waiting (some restart.runId) restart.commandId { t with store := s' } := by
  obtain ⟨htask, ⟨run, s₀, hruns, hattempt, hid, huntouched⟩, new, hcommands, hnew, hpending, -,
    hdrives, hidle⟩ := inserted h
  refine ⟨htask, ⟨run, ?_, hid, huntouched⟩, fun c hc hlive => ?_, nofun⟩
  · refine TaskStore.latestRun_of_mem hk' ?_ fun r hr => ?_
    · rw [hruns]
      exact List.mem_append_right _ List.mem_cons_self
    · rw [hruns] at hr
      obtain hr | hr := List.mem_append.mp hr
      · have hle : r.attempt ≤ s₀.maxAttempt := Table.le_maxOf hr
        omega
      · rw [List.mem_singleton.mp hr]
  · have hmem : c ∈ t.store.commands ++ [new] := by rw [← hcommands]; exact hc
    obtain hc | hc := List.mem_append.mp hmem
    · rw [hidle c hc] at hlive
      cases hlive
    · rw [List.mem_singleton.mp hc]
      exact ⟨hnew, hpending, hdrives⟩

end Restart

namespace TaskState

variable {cfg : DispatcherConfig} {digests : KeyDigests} {init t t₁ t₂ : TaskState}
  {s : TaskStore} {target : Option ℕ} {command : ℕ}

/-- An attempt begins with the admission of its task and without a run, or with the run that a
retry or a fork inserts. -/
inductive Begun (cfg : DispatcherConfig) (digests : KeyDigests) (init : TaskState)
    (submission : ℕ) : Option ℕ → ℕ → TaskState → Prop where
  | first : Begun cfg digests init submission none submission init
  | restarted (t : TaskState) (s₁ : TaskStore) (restart : Restart)
      (run : Reaches (TaskState.step cfg digests) anyStep init t)
      (accepted : restart.answer digests t.store = .ok (s₁, .requested)) :
      Begun cfg digests init submission (some restart.runId) restart.commandId
        { t with store := s₁ }

/-- The task or the run of the attempt is terminal. -/
def Finished (target : Option ℕ) (t : TaskState) : Prop :=
  t.store.task.status.isTerminal ∨
    ∃ run ∈ t.store.runs, target = some run.id ∧ run.status.isTerminal

/-- The attempt ended as cancelled, and whoever creates a run at the Agent Server creates it for
another attempt. -/
structure EndedCancelled (target : Option ℕ) (t : TaskState) : Prop where
  task : t.store.task.status = .cancelled
  run : ∀ run ∈ t.store.runs, target = some run.id → run.status = .cancelled
  runless : target = none → t.store.runs = []
  uncreated : ∀ a ∈ t.activations, a.pc = .creating →
    ∃ run ∈ t.store.runs, a.lease.productRunId = some run.id ∧ target ≠ some run.id

theorem Begun.waiting {taskId submission : ℕ} {threadId : String} {admission : Admission}
    {payloadHash : String}
    (h : Begun cfg digests (.admitted taskId submission threadId admission payloadHash) submission
      target command t) :
    t.Sound ∧ (∃ c ∈ t.store.commands, c.id = command) ∧ Waiting target command t := by
  have hadmitted := Sound.admitted taskId submission threadId admission payloadHash
  cases h with
  | first => exact ⟨hadmitted, ⟨_, List.mem_cons_self, rfl⟩, .admitted ..⟩
  | restarted t s₁ restart run accepted =>
      have hstep : t.step cfg digests restart.label = some { t with store := s₁ } := by
        rw [Restart.step_label, accepted]
        rfl
      have hs := (Sound.reaches run hadmitted).step hstep
      refine ⟨hs, ?_, Restart.waiting hs.toKeyed accepted⟩
      obtain ⟨-, -, new, hcommands, hid, -⟩ := Restart.inserted accepted
      exact ⟨new, by rw [hcommands]; exact List.mem_append_right _ List.mem_cons_self, hid⟩

/-- From the acceptance on the dispatchers search until the end. -/
theorem searching_of_reaches
    (hr : Reaches (TaskState.step cfg digests) (DispatcherStep target) t₁ t) (hs : t₁.Sound)
    (h : Cancelling target t₁) :
    t.Sound ∧ (Cancelling target t ∨ Ended target t.store) ∧
      (target = none → ∀ a ∈ t.activations, a.Searching none) := by
  refine hr.invariant (I := fun t => t.Sound ∧ (Cancelling target t ∨ Ended target t.store) ∧
    (target = none → ∀ a ∈ t.activations, a.Searching none)) ?_ ⟨hs, .inl h, ?_⟩
  · rintro u label u' hok ⟨hu, hphase, hworkers⟩ hstep
    refine ⟨hu.step hstep, ?_, ?_⟩
    · obtain hcancelling | hended := hphase
      · exact hcancelling.dispatcherStep hu hok hstep
      · exact .inr (hended.dispatcherStep hu hok hstep)
    · rintro rfl
      exact searching_dispatcherStep hphase hu (hworkers rfl) hok hstep
  · rintro rfl a ha
    exact h.workers a ha nofun

/-- A cancellation that is accepted before the first claim of an attempt ends it as cancelled if
and only if the attempt is the first one: whenever the dispatchers finish, a retry or a fork has
failed. -/
theorem cancelled_before_creation {taskId submission : ℕ} {threadId : String}
    {admission : Admission} {payloadHash : String} (cancellation : Cancellation)
    (hbegun : Begun cfg digests (.admitted taskId submission threadId admission payloadHash)
      submission target command t₁)
    (hr : Reaches (TaskState.step cfg digests) anyStep t₁ t₂)
    (hunclaimed : Unclaimed command t₂.store) (hfor : cancellation.IsFor target)
    (haccepted : cancellation.answer digests t₂.store = .ok (s, .requested))
    (hdispatched : Reaches (TaskState.step cfg digests) (DispatcherStep target)
      { t₂ with store := s } t)
    (hfinished : Finished target t) : EndedCancelled target t ↔ target = none := by
  obtain ⟨hs₁, hknown, hbegins⟩ := hbegun.waiting
  have hs₂ := Sound.reaches hr hs₁
  have hwaiting := waiting_of_reaches hr hs₁ hknown hbegins hunclaimed
  have hstep : t₂.step cfg digests cancellation.label = some { t₂ with store := s } := by
    rw [Cancellation.step_label, haccepted]
    rfl
  have hs₃ := hs₂.step hstep
  have hcancelling := hwaiting.accepted hs₂.toKeyed hs₃.toKeyed hfor haccepted
  obtain ⟨hs, hphase, hworkers⟩ := searching_of_reaches hdispatched hs₃ hcancelling
  have hended : Ended target t.store := by
    refine hphase.resolve_left fun hsearching => ?_
    obtain hterminal | ⟨run, hrun, rfl, hterminal⟩ := hfinished
    · rw [hsearching.task] at hterminal
      cases hterminal
    · obtain ⟨latest, hlatest, hid, huntouched⟩ := hsearching.run
      have hsame : latest = run := List.inj_on_of_nodup_map hs.runIds
        (TaskStore.latestRun_mem hlatest) hrun hid
      rw [← hsame, huntouched.status] at hterminal
      cases hterminal
  constructor
  · intro hcancelled
    by_contra htarget
    have htask := hended.task
    rw [if_pos (Option.isSome_iff_ne_none.mpr htarget), hcancelled.task] at htask
    cases htask
  · rintro rfl
    refine ⟨hended.task, fun run _ htarget => ?_, fun _ => hended.runless rfl, fun a ha hpc => ?_⟩
    · cases htarget
    · have hstands := (hworkers rfl a ha).pc
      rw [hpc] at hstands
      exact hstands.elim

def confirmedCancel : List TaskLabel :=
  [.claim "worker" 9 6, .execute 0 .proceed 6, .execute 0 .proceed 7]

def failedCancel : List TaskLabel :=
  [.claim "worker" 9 6, .execute 1 .proceed 6, .execute 1 .absent 7, .execute 1 .proceed 7,
    .claim "worker" 9 20, .execute 2 .proceed 20, .execute 2 .absent 21, .execute 2 .proceed 21,
    .execute 2 .proceed 22]

theorem dispatcherStep_of_mem {label : TaskLabel} (h : label ∈ confirmedCancel ++ failedCancel) :
    DispatcherStep target t label := by
  simp only [confirmedCancel, failedCancel, List.cons_append, List.nil_append, List.mem_cons,
    List.not_mem_nil, or_false] at h
  obtain rfl | rfl | rfl | rfl | rfl | rfl | rfl | rfl | rfl | rfl | rfl | rfl := h <;>
    first
    | trivial
    | exact fun _ _ _ _ _ => by rintro ⟨⟩

/-- A task that is cancelled before its submission is claimed has no run, and is cancelled. -/
theorem cancelled_before_creation_first : ∃ t, EndedCancelled none t := by
  have hany : ((Cancellation.task "cancel" 8 5).answer plainDigests
      plainTask.store).requested?.any (fun s => (runLabels (TaskState.step plainDispatcher
        plainDigests) { plainTask with store := s } confirmedCancel).any fun t =>
          t.store.task.status.isTerminal) = true := by
    decide +kernel
  obtain ⟨s, haccepted, hdone⟩ := (Option.any_eq_true _ _).mp hany
  obtain ⟨t, hlabels, hterminal⟩ := (Option.any_eq_true _ _).mp hdone
  have hdispatched : Reaches (TaskState.step plainDispatcher plainDigests) (DispatcherStep none)
      { plainTask with store := s } t := reaches_of_guarded confirmedCancel
    (fun _ _ hl => dispatcherStep_of_mem (List.mem_append_left _ hl)) hlabels
  have hunclaimed : Unclaimed 2 plainTask.store := ⟨_, List.mem_cons_self, rfl, rfl, rfl⟩
  exact ⟨t, (cancelled_before_creation (.task "cancel" 8 5) .first .refl hunclaimed
    trivial (ServiceResult.eq_of_requested haccepted) hdispatched (.inl hterminal)).mpr rfl⟩

/-- A retry that is cancelled before its claim was created nowhere, and fails. -/
theorem cancelled_retry_fails : ¬ ∀ (target : Option ℕ) (command : ℕ) (t₁ t₂ t : TaskState)
    (cancellation : Cancellation) (s : TaskStore),
    Begun plainDispatcher plainDigests plainTask 2 target command t₁ →
      Reaches (TaskState.step plainDispatcher plainDigests) anyStep t₁ t₂ →
      Unclaimed command t₂.store → cancellation.IsFor target →
      cancellation.answer plainDigests t₂.store = .ok (s, .requested) →
      Reaches (TaskState.step plainDispatcher plainDigests) (DispatcherStep target)
        { t₂ with store := s } t →
      Finished target t → EndedCancelled target t := by
  intro hclaim
  let restart := Restart.retry "retry" 6 7
  let cancellation := Cancellation.task "cancel" 8 5
  have hany : (runLabels (TaskState.step plainDispatcher plainDigests) plainTask
      Restart.failedRun).any (fun t => (restart.answer plainDigests t.store).requested?.any
        fun s₁ => (s₁.commands.any fun c => c.id == 7 && c.isLive && c.attempt == 0) &&
          (cancellation.answer plainDigests s₁).requested?.any fun s₂ =>
            (runLabels (TaskState.step plainDispatcher plainDigests) { t with store := s₂ }
              failedCancel).any fun t => t.store.task.status == .failed) = true := by
    decide +kernel
  obtain ⟨t, hlabels, hdone⟩ := (Option.any_eq_true _ _).mp hany
  obtain ⟨s₁, hretried, hdone⟩ := (Option.any_eq_true _ _).mp hdone
  obtain ⟨hpending, hdone⟩ := Bool.and_eq_true_iff.mp hdone
  obtain ⟨s₂, haccepted, hdone⟩ := (Option.any_eq_true _ _).mp hdone
  obtain ⟨c, hc, hboth⟩ := List.any_eq_true.mp hpending
  simp only [Bool.and_eq_true, beq_iff_eq] at hboth
  obtain ⟨t', hlabels', hfailed⟩ := (Option.any_eq_true _ _).mp hdone
  have hdispatched : Reaches (TaskState.step plainDispatcher plainDigests)
      (DispatcherStep (some 6)) { t with store := s₂ } t' := reaches_of_guarded failedCancel
    (fun _ _ hl => dispatcherStep_of_mem (List.mem_append_right _ hl)) hlabels'
  have hstatus := beq_iff_eq.mp hfailed
  have hcancelled := hclaim (some 6) 7 _ _ t' cancellation s₂
    (.restarted t s₁ restart (reaches_of_runLabels _ hlabels)
      (ServiceResult.eq_of_requested hretried)) .refl ⟨c, hc, hboth.1.1, hboth.1.2, hboth.2⟩ trivial
    (ServiceResult.eq_of_requested haccepted) hdispatched (.inl (by rw [hstatus]; rfl))
  rw [hcancelled.task] at hstatus
  cases hstatus

end TaskState

end CryptoAlert
