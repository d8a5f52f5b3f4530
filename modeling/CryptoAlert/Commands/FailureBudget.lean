import CryptoAlert.Commands.Digests
import CryptoAlert.Commands.Soundness
import Mathlib.Data.Finset.Card
import Mathlib.Order.Interval.Finset.Nat

/-!
# Failures and the attempts of a command

A command is given up after a number of attempts, and what is counted as an attempt is a claim.
The failures of remote operations are recorded beside the rows, so that the two numbers can be
compared.
-/

namespace CryptoAlert

/-- Whether a remote operation fails. A lookup that finds nothing, and a cancellation that is not
confirmed, are tried again like operations that raise. -/
def Pc.fails : Pc → Event → Bool
  | .finding, .absent | .finding, .timedOut | .finding, .raised _
  | .creating, .timedOut | .creating, .raised _
  | .streaming _, .raised _
  | .polling _, .timedOut | .polling _, .raised _
  | .overdue _, .timedOut | .overdue _, .raised _
  | .interrupted _, .timedOut | .interrupted _, .raised _
  | .joining _, .timedOut | .joining _, .raised _
  | .cancelling _, .timedOut | .cancelling _, .raised _
  | .cancelling _, .cancelled .unconfirmed | .cancelling _, .cancelled (.terminal none) => true
  | _, _ => false

/-- A task with the history of the failed remote operations: the command and the token of the
lease under which each of them was made. -/
structure FailureState where
  task : TaskState
  failed : List (ℕ × ℕ)

namespace DispatcherConfig

variable (cfg : DispatcherConfig)

/-- The number of attempts with which `_record_remote_error` compares. -/
def recordLimit (type : CommandType) (payload : Option RespondCommandPayload) : ℕ :=
  match type, payload with
  | .respond, some payload => if payload.expired then cfg.maxCancelAttempts else cfg.maxAttempts
  | _, _ => cfg.maxAttempts

/-- The attempts of a command that any comparison looks at. -/
def attemptBudget (type : CommandType) (payload : Option RespondCommandPayload) : ℕ :=
  if type.cancels then cfg.maxCancelAttempts else max cfg.maxAttempts (cfg.recordLimit type payload)

end DispatcherConfig

namespace FailureState

variable (cfg : DispatcherConfig) (digests : KeyDigests)

/-- The operation that fails in a step. -/
def failures (t : TaskState) : TaskLabel → List (ℕ × ℕ)
  | .execute i event _ =>
      (t.activations[i]?.filter fun a => a.pc.fails event).toList.map
        fun a => (a.lease.commandId, a.lease.fenceToken)
  | _ => []

def step (h : FailureState) (label : TaskLabel) : Option FailureState :=
  (h.task.step cfg digests label).map fun task => ⟨task, h.failed ++ failures h.task label⟩

/-- How many remote operations of a command have failed. -/
def failureCount (h : FailureState) (commandId : ℕ) : ℕ := h.failed.countP (·.1 == commandId)

def admitted (taskId commandId : ℕ) (threadId : String) (admission : Admission)
    (payloadHash : String) : FailureState :=
  ⟨.admitted taskId commandId threadId admission payloadHash, []⟩

/-- A command is claimed again only after a remote operation has failed under each of its earlier
leases that count. -/
def Spent (h : FailureState) : TaskLabel → Prop
  | .claim _ _ now =>
      match h.task.store.nextCommand now with
      | none => True
      | some c => ∀ attempt ∈ List.range' 1 c.attempt,
          attempt < cfg.attemptBudget c.commandType (TaskStore.respondPayloadOf c) →
          (c.id, attempt) ∈ h.failed
  | _ => True

instance (h : FailureState) (label : TaskLabel) : Decidable (Spent cfg h label) :=
  match label with
  | .claim _ _ now =>
      match hnext : h.task.store.nextCommand now with
      | none => isTrue (by rw [Spent, hnext]; trivial)
      | some c => decidable_of_iff (∀ attempt ∈ List.range' 1 c.attempt,
          attempt < cfg.attemptBudget c.commandType (TaskStore.respondPayloadOf c) →
          (c.id, attempt) ∈ h.failed) (by rw [Spent, hnext])
  | .cancelTask _ _ _ | .cancelRun _ _ _ _ | .retryTask _ _ _ | .forkTask _ _ _ _ _ _
  | .respondInterrupts _ _ _ _ _ | .expire _ _ _ _ | .execute _ _ _ | .releaseOwned _ _
  | .reconcile _ _ _ _ _ | .registerHandle _ _ _ | .observeAbsence _ _ | .observeState _ _ _ _
  | .releaseReconciled _ _ => inferInstanceAs (Decidable True)

end FailureState

namespace TaskStore

/-- A worker gives up for a failed remote operation when its attempts have reached a limit. -/
inductive GivesUp (cfg : DispatcherConfig) (s s' : TaskStore) (lease : CommandLease) :
    Pc → Event → Pc → ℕ → Prop where
  /-- `_record_remote_error` fails the command. The error of a create call with an unknown outcome
  has a deadline instead of a limit. -/
  | recorded {error : RemoteError} {event : Event} {pc' : Pc} {c c' : TaskCommand}
      (known : ¬ ((lease.commandType = .submit ∨ lease.commandType = .retry) ∧
        error = .submitIndeterminate))
      (drives : lease.commandType.cancels = false)
      (mem : c ∈ s.commands) (id : c.id = lease.commandId) (status : c.status ≠ .failed)
      (mem' : c' ∈ s'.commands) (id' : c'.id = lease.commandId) (failed : c'.status = .failed) :
      GivesUp cfg s s' lease (.failing error) event pc'
        (cfg.recordLimit lease.commandType lease.respondPayload)
  /-- `_schedule_terminal_retry` fails the run without its output. -/
  | output {handle : RemoteRunHandle} {event : Event} {terminal : TerminalGraphOutput}
      (fails : (Pc.joining handle).fails event) :
      GivesUp cfg s s' lease (.joining handle) event (.finalizing terminal)
        (if lease.commandType.cancels then cfg.maxCancelAttempts else cfg.maxAttempts)
  /-- `_schedule_cancel_retry` fails the cancellation. -/
  | cancellation {errorType : Option String} {event : Event} {type code message : String}
      (cancels : lease.commandType.cancels) :
      GivesUp cfg s s' lease (.retryingCancel errorType) event (.failingCancel type code message)
        cfg.maxCancelAttempts

section RecordRemoteError

variable {cfg : DispatcherConfig} {s s' : TaskStore} {lease : CommandLease} {error : RemoteError}
  {now : ℕ} {l l' : LockedRows}

/-- A command in the queue was not given up. -/
theorem requeue_ne_failed (l : LockedRows) (expiresAt : ℕ) :
    (l.requeue expiresAt).command.status ≠ .failed := nofun

theorem recordRespondError_limit {payload : RespondCommandPayload}
    (h : recordRespondError cfg lease error now payload l = some (l', ()))
    (hfailed : l'.command.status = .failed) :
    (if payload.expired then cfg.maxCancelAttempts else cfg.maxAttempts) ≤ l.command.attempt := by
  unfold recordRespondError at h
  split at h
  · cases h
  · dsimp only at h
    generalize (if payload.expired then InterruptStatus.expired else
      InterruptStatus.responding) = expected at h
    generalize (if payload.expired then RunStatus.running else RunStatus.waitingHuman) =
      taskStatus at h
    generalize (if payload.expired then cfg.maxCancelAttempts else cfg.maxAttempts) = limit at h ⊢
    split_ifs at h with hmoot hindeterminate hattempts
    · cases h
      exact absurd hfailed (requeue_ne_failed _ _)
    · cases h
      exact absurd hfailed (requeue_ne_failed _ _)
    · exact not_lt.mp hattempts

theorem recordForkError_limit (h : recordForkError cfg lease error now l = some (l', ()))
    (hfailed : l'.command.status = .failed) : cfg.maxAttempts ≤ l.command.attempt := by
  unfold recordForkError at h
  split_ifs at h with hindeterminate hattempts
  · cases h
    exact absurd hfailed (requeue_ne_failed _ _)
  · cases h
    exact absurd hfailed (requeue_ne_failed _ _)
  · exact not_lt.mp hattempts

theorem recordSubmitError_limit (hstatus : l.command.status ≠ .failed)
    (h : recordSubmitError cfg lease error now l = some (l', ()))
    (hfailed : l'.command.status = .failed) : cfg.maxAttempts ≤ l.command.attempt := by
  unfold recordSubmitError at h
  dsimp only at h
  split_ifs at h with hattempts
  · cases h
    exact absurd hfailed hstatus
  · cases h
    exact absurd hfailed hstatus
  · exact not_lt.mp hattempts

/-- The command of a lease fails only when its attempts have reached the limit. -/
theorem recordRemoteError_limit (hk : s.Keyed)
    (h : s.recordRemoteError cfg lease error now = some (s', ()))
    (hknown : ¬ ((lease.commandType = .submit ∨ lease.commandType = .retry) ∧
      error = .submitIndeterminate))
    {c c' : TaskCommand} (hc : c ∈ s.commands) (hid : c.id = lease.commandId)
    (hstatus : c.status ≠ .failed) (hc' : c' ∈ s'.commands) (hid' : c'.id = lease.commandId)
    (hfailed : c'.status = .failed) :
    cfg.recordLimit lease.commandType lease.respondPayload ≤ lease.fenceToken := by
  obtain ⟨rfl, -⟩ | ⟨command, run, l', hlocks, hbody, rfl⟩ := underLease_cases h
  · have hsame : c' = c :=
      List.inj_on_of_nodup_map hk.commandIds hc' hc (hid'.trans hid.symm)
    subst hsame
    exact absurd hfailed hstatus
  · have hcurrent := TaskCommand.isCurrent_of_owned hlocks.owned
    have hwritten : l'.command.status = .failed := by
      obtain ⟨hmem, hother⟩ | ⟨rfl, -⟩ := Table.mem_put.mp hc'
      · have hsame : c' = c :=
          List.inj_on_of_nodup_map hk.commandIds hmem hc (hid'.trans hid.symm)
        subst hsame
        exact absurd hfailed hstatus
      · exact hfailed
    rw [← hcurrent.2.2]
    split_ifs at hbody with hcancel
    · cases hbody
      cases hwritten
    · split at hbody
      · rename_i payload _ htype hpayload
        rw [htype, hpayload]
        exact recordRespondError_limit hbody hwritten
      · rename_i htype hpayload
        rw [htype]
        exact recordForkError_limit hbody hwritten
      · rename_i hrespond _
        have hlimit := recordSubmitError_limit
          (by rw [lock, hcurrent.2.1]; nofun) hbody hwritten
        unfold DispatcherConfig.recordLimit
        split
        · rename_i payload htype hpayload
          exact absurd hpayload (hrespond payload htype)
        · exact hlimit

end RecordRemoteError

end TaskStore

namespace FailureState

variable {cfg : DispatcherConfig} {digests : KeyDigests} {h h' : FailureState} {label : TaskLabel}

theorem step_eq_some (hstep : step cfg digests h label = some h') :
    h.task.step cfg digests label = some h'.task ∧
      h'.failed = h.failed ++ failures h.task label := by
  obtain ⟨task, htask, rfl⟩ := Option.map_eq_some_iff.mp hstep
  exact ⟨htask, rfl⟩

/-- Under the earlier leases of a command that count, a remote operation has failed. -/
structure Budgeted (cfg : DispatcherConfig) (h : FailureState) : Prop where
  sound : h.task.Sound
  spent : ∀ lease ∈ h.task.leases, ∀ attempt, 0 < attempt → attempt < lease.fenceToken →
    attempt < cfg.attemptBudget lease.commandType lease.respondPayload →
    (lease.commandId, attempt) ∈ h.failed

/-- A lease is given out on the command that is next. -/
theorem lease_of_claims {s s' : TaskStore} {now : ℕ} {lease : CommandLease}
    (hc : TaskStore.Claims cfg s now s' (some lease)) : ∃ c, s.nextCommand now = some c ∧
      lease.commandId = c.id ∧ lease.fenceToken = c.attempt + 1 ∧
      lease.commandType = c.commandType ∧
      lease.respondPayload = TaskStore.respondPayloadOf c := by
  cases hc with
  | driven c workerId run s₁ lease next drives ensured leaseOf =>
      exact ⟨c, next, leaseOf.commandId, leaseOf.fenceToken, leaseOf.commandType,
        leaseOf.respondPayload⟩
  | cancelling c workerId run lease next cancels claimed leaseOf =>
      exact ⟨c, next, leaseOf.commandId, leaseOf.fenceToken, leaseOf.commandType,
        leaseOf.respondPayload⟩

/-- Leases are given out by claims alone. -/
theorem mem_leases_of_step {t t' : TaskState} (hstep : t.step cfg digests label = some t')
    {lease : CommandLease} (hl : lease ∈ t'.leases) :
    lease ∈ t.leases ∨ ∃ workerId runId now, label = .claim workerId runId now ∧
      TaskStore.Claims cfg t.store now t'.store (some lease) := by
  have same : t'.activations = t.activations → lease ∈ t.leases := by
    intro hactivations
    rw [TaskState.leases, hactivations] at hl
    exact hl
  have service : ∀ {result : ServiceResult}, t.afterService result = some t' →
      lease ∈ t.leases := by
    intro result hresult
    obtain ⟨-, -, hactivations, -⟩ := TaskState.afterService_eq_some hresult
    exact same hactivations
  have reconciled : ∀ {i : ℕ} {f : ReconciliationLease → Option (TaskStore × Bool)},
      (t.reconciliations[i]?.bind fun r => (f r).bind fun x => some { t with store := x.1 }) =
        some t' → lease ∈ t.leases := by
    intro i f hf
    obtain ⟨r, -, hf⟩ := Option.bind_eq_some_iff.mp hf
    obtain ⟨x, -, hf⟩ := Option.bind_eq_some_iff.mp hf
    cases hf
    exact hl
  cases label with
  | claim workerId runId now =>
      obtain ⟨⟨store, lease?⟩, hstore, rfl⟩ := Option.map_eq_some_iff.mp hstep
      rw [TaskState.leases, List.map_append] at hl
      obtain hl | hl := List.mem_append.mp hl
      · exact .inl hl
      · cases lease? with
        | none => cases hl
        | some new =>
            rw [List.mem_singleton.mp hl]
            exact .inr ⟨workerId, runId, now, rfl, TaskStore.claimNext_claims hstore⟩
  | cancelTask | cancelRun | retryTask | forkTask | respondInterrupts => exact .inl (service hstep)
  | expire pauseId runId commandId now =>
      obtain ⟨store, -, rfl⟩ := Option.map_eq_some_iff.mp hstep
      exact .inl hl
  | execute i event now =>
      obtain ⟨a, ha, hstep⟩ := Option.bind_eq_some_iff.mp hstep
      obtain ⟨⟨store, pc⟩, -, hstep⟩ := Option.bind_eq_some_iff.mp hstep
      cases hstep
      rw [TaskState.leases, TaskState.leases_set ha] at hl
      exact .inl hl
  | releaseOwned workerId now =>
      cases hstep
      exact .inl hl
  | reconcile commandId workerId now staleBefore leaseExpiresAt =>
      obtain ⟨store, -, rfl⟩ := Option.map_eq_some_iff.mp hstep
      exact .inl hl
  | registerHandle | observeAbsence | observeState => exact .inl (reconciled hstep)
  | releaseReconciled i now =>
      obtain ⟨r, -, hstep⟩ := Option.bind_eq_some_iff.mp hstep
      cases hstep
      exact .inl hl

theorem budgeted_of_step (hok : Spent cfg h label) (hb : Budgeted cfg h)
    (hstep : step cfg digests h label = some h') : Budgeted cfg h' := by
  obtain ⟨htask, hfailed⟩ := step_eq_some hstep
  refine ⟨hb.sound.step htask, fun lease hl attempt hpos hlt hbudget => ?_⟩
  rw [hfailed]
  refine List.mem_append_left _ ?_
  obtain hl | ⟨workerId, runId, now, rfl, hclaims⟩ := mem_leases_of_step htask hl
  · exact hb.spent lease hl attempt hpos hlt hbudget
  · obtain ⟨c, hnext, hid, htoken, htype, hpayload⟩ := lease_of_claims hclaims
    simp only [Spent, hnext] at hok
    rw [htype, hpayload] at hbudget
    rw [hid]
    exact hok attempt (List.mem_range'_1.mpr ⟨hpos, by omega⟩) hbudget

theorem budgeted_of_reaches {taskId commandId : ℕ} {threadId : String} {admission : Admission}
    {payloadHash : String} (hr : Reaches (step cfg digests) (Spent cfg)
      (admitted taskId commandId threadId admission payloadHash) h) : Budgeted cfg h := by
  refine hr.invariant (fun _ _ _ hok hb hstep => budgeted_of_step hok hb hstep) ?_
  exact ⟨TaskState.Sound.admitted taskId commandId threadId admission payloadHash,
    fun _ hl => absurd hl List.not_mem_nil⟩

/-- Failures under different leases are different failures. -/
theorem card_le_failureCount {commandId : ℕ} {attempts : Finset ℕ}
    (hfailed : ∀ attempt ∈ attempts, (commandId, attempt) ∈ h.failed) :
    attempts.card ≤ h.failureCount commandId := by
  let failures := h.failed.filter (·.1 == commandId)
  have hsub : attempts.image (commandId, ·) ⊆ failures.toFinset := by
    intro failure hf
    obtain ⟨attempt, hattempt, rfl⟩ := Finset.mem_image.mp hf
    exact List.mem_toFinset.mpr (List.mem_filter.mpr ⟨hfailed attempt hattempt, beq_self_eq_true _⟩)
  calc attempts.card = (attempts.image (commandId, ·)).card :=
        (Finset.card_image_of_injective _ (Prod.mk_right_injective commandId)).symm
    _ ≤ failures.toFinset.card := Finset.card_le_card hsub
    _ ≤ failures.length := List.toFinset_card_le failures
    _ = h.failureCount commandId := List.countP_eq_length_filter.symm

theorem Budgeted.le_failureCount (hb : Budgeted cfg h) {lease : CommandLease}
    (hl : lease ∈ h.task.leases) (hremote : (lease.commandId, lease.fenceToken) ∈ h.failed)
    {limit : ℕ} (hattempts : limit ≤ lease.fenceToken)
    (hbudget : limit ≤ cfg.attemptBudget lease.commandType lease.respondPayload) :
    limit ≤ h.failureCount lease.commandId := by
  have hcount := @card_le_failureCount h lease.commandId
    (insert lease.fenceToken (Finset.Ico 1 limit)) fun attempt hattempt => by
      obtain rfl | hattempt := Finset.mem_insert.mp hattempt
      · exact hremote
      · have hrange := Finset.mem_Ico.mp hattempt
        exact hb.spent lease hl attempt (by omega) (by omega) (by omega)
  have hlast : lease.fenceToken ∉ Finset.Ico 1 limit := by
    rw [Finset.mem_Ico]
    omega
  rw [Finset.card_insert_of_notMem hlast, Nat.card_Ico] at hcount
  omega

end FailureState

namespace TaskStore

variable {cfg : DispatcherConfig} {digests : KeyDigests} {s s' : TaskStore} {lease : CommandLease}

/-- A worker gives up when the token of its lease has reached the limit. -/
theorem GivesUp.limit_le {pc pc' : Pc} {event : Event} {limit now : ℕ}
    (hgives : GivesUp cfg s s' lease pc event pc' limit) (hk : s.Keyed)
    (h : s.executeStep cfg digests lease now pc event = some (s', pc')) :
    limit ≤ lease.fenceToken := by
  cases hgives with
  | recorded known drives mem id status mem' id' failed =>
      cases event with
      | proceed =>
          obtain ⟨⟨s₁, _⟩, hrecord, hout⟩ := Option.map_eq_some_iff.mp h
          cases hout
          exact recordRemoteError_limit hk hrecord known mem id status mem' id' failed
      | _ => cases h
  | @output _ _ terminal fails =>
      have hretry : ∀ errorType, (lease.terminalRetry cfg errorType).map (fun pc => (s, pc)) =
          some (s', .finalizing terminal) →
          (if lease.commandType.cancels then cfg.maxCancelAttempts else cfg.maxAttempts) ≤
            lease.fenceToken := by
        intro errorType hretry
        obtain ⟨pc, hpc, hout⟩ := Option.map_eq_some_iff.mp hretry
        cases hout
        unfold CommandLease.terminalRetry at hpc
        dsimp only at hpc
        by_contra hlt
        rw [if_neg hlt] at hpc
        cases hpc
      cases event with
      | timedOut => exact hretry _ h
      | raised error => exact hretry _ h
      | _ => cases fails
  | cancellation cancels =>
      cases event with
      | proceed =>
          unfold executeStep at h
          dsimp only at h
          split_ifs at h with hobserved hattempts
          · obtain ⟨pc, hpc, hout⟩ := Option.map_eq_some_iff.mp h
            cases hout
            unfold CommandLease.terminalRetry at hpc
            dsimp only at hpc
            split_ifs at hpc
            · obtain ⟨_, _, hpc⟩ := Option.map_eq_some_iff.mp hpc
              cases hpc
            · cases hpc
          · exact hattempts
          · obtain ⟨_, _, hout⟩ := Option.map_eq_some_iff.mp h
            cases hout
      | _ => cases h

theorem GivesUp.limit_le_budget {pc pc' : Pc} {event : Event} {limit : ℕ}
    (hgives : GivesUp cfg s s' lease pc event pc' limit) :
    limit ≤ cfg.attemptBudget lease.commandType lease.respondPayload := by
  unfold DispatcherConfig.attemptBudget
  cases hgives with
  | recorded known drives =>
      rw [drives]
      exact le_max_right _ _
  | output fails =>
      split_ifs
      · exact le_rfl
      · exact le_max_left _ _
  | cancellation cancels =>
      rw [if_pos cancels]

end TaskStore

namespace FailureState

/-- A worker gives up only after as many failed operations of its command as its limit says, in the
runs in which every earlier lease of a command that counts has failed an operation. -/
theorem failure_budget {cfg : DispatcherConfig} {digests : KeyDigests} {taskId commandId : ℕ}
    {threadId : String} {admission : Admission} {payloadHash : String} {h h' : FailureState}
    (hr : Reaches (step cfg digests) (Spent cfg)
      (admitted taskId commandId threadId admission payloadHash) h)
    {i now limit : ℕ} {event : Event} {lease : CommandLease} {pc pc' : Pc}
    (hworker : h.task.activations[i]? = some ⟨lease, pc⟩)
    (hstep : step cfg digests h (.execute i event now) = some h')
    (hworker' : h'.task.activations[i]? = some ⟨lease, pc'⟩)
    (hremote : (lease.commandId, lease.fenceToken) ∈ h'.failed)
    (hgives : TaskStore.GivesUp cfg h.task.store h'.task.store lease pc event pc' limit) :
    limit ≤ h'.failureCount lease.commandId := by
  have hb := budgeted_of_reaches hr
  have hok : Spent cfg h (.execute i event now) := trivial
  have hb' := budgeted_of_step hok hb hstep
  obtain ⟨a, ha, hmove⟩ := Option.bind_eq_some_iff.mp (step_eq_some hstep).1
  obtain ⟨⟨store, pc₁⟩, hmove, hout⟩ := Option.bind_eq_some_iff.mp hmove
  rw [hworker] at ha
  cases ha
  have htask := Option.some.inj hout
  rw [← htask] at hworker' hgives
  have hpc : pc₁ = pc' := by
    obtain ⟨hi, -⟩ := List.getElem?_eq_some_iff.mp hworker
    rw [List.getElem?_set_self hi] at hworker'
    exact congrArg Activation.pc (Option.some.inj hworker')
  rw [hpc] at hmove
  have hlease : lease ∈ h'.task.leases := by
    rw [← htask, TaskState.leases, TaskState.leases_set hworker]
    exact List.mem_map_of_mem (List.mem_of_getElem? hworker)
  exact hb'.le_failureCount hlease hremote (hgives.limit_le hb.sound.toKeyed hmove)
    hgives.limit_le_budget

/-- The plain task, before anything failed. -/
def plainFailures : FailureState :=
  admitted 1 2 "thread"
    ⟨.marketAnalysis, AnalysisSubmission.modelDump ⟨.btcUsdtSwap, ⟨"4h", fourHours_fits⟩, "!", false⟩⟩
    "hash"

/-- Two attempts to create the run fail. -/
def refusedRun : List TaskLabel :=
  [.claim "worker" 3 0, .execute 0 .proceed 0, .execute 0 (.raised (.other "ConnectError")) 1,
    .execute 0 .proceed 2, .claim "worker" 3 3, .execute 1 .proceed 4,
    .execute 1 (.raised (.other "ConnectError")) 5]

/-- The run is polled while it goes on, and its stream breaks after the next claim. -/
def polledRun : List TaskLabel :=
  [.claim "worker" 3 0, .execute 0 .proceed 0, .execute 0 (.found plainHandle) 1,
    .execute 0 .proceed 2, .execute 0 .proceed 3, .execute 0 (.state .running) 4,
    .execute 0 .proceed 5, .claim "worker" 3 50, .execute 1 .proceed 50,
    .execute 1 (.raised (.other "ReadError")) 51]

/-- Whether the second worker fails the command with its next step, after some failures. -/
noncomputable def givesUpAfter (failures : ℕ) (h : FailureState) : Bool :=
  (h.task.activations[1]?.any fun a =>
    a.pc matches .failing (.other _) && a.lease.commandId == 2 && a.lease.fenceToken == 2 &&
      a.lease.commandType == .submit) &&
  (h.task.store.commands.any fun c => c.id == 2 && c.status == .dispatching) &&
  (step plainDispatcher plainDigests h (.execute 1 .proceed 52)).any fun h' =>
    (h'.task.store.commands.any fun c => c.id == 2 && c.status == .failed) &&
    h'.failed.contains (2, 2) && h'.failureCount 2 == failures

theorem givesUp_of_after {failures : ℕ} (hafter : givesUpAfter failures h = true) :
    ∃ lease pc pc' h', h.task.activations[1]? = some ⟨lease, pc⟩ ∧
      step plainDispatcher plainDigests h (.execute 1 .proceed 52) = some h' ∧
      h'.task.activations[1]? = some ⟨lease, pc'⟩ ∧
      (lease.commandId, lease.fenceToken) ∈ h'.failed ∧
      TaskStore.GivesUp plainDispatcher h.task.store h'.task.store lease pc .proceed pc' 2 ∧
      h'.failureCount lease.commandId = failures := by
  simp only [givesUpAfter, Bool.and_eq_true, Option.any_eq_true, List.any_eq_true, beq_iff_eq,
    List.contains_eq_mem, decide_eq_true_eq] at hafter
  obtain ⟨⟨⟨⟨lease, pc⟩, hworker, ⟨⟨hpc, hid⟩, htoken⟩, htype⟩, c, hc, hcid, hstatus⟩, h', hstep,
    ⟨⟨c', hc', hcid', hfailed⟩, hremote⟩, hcount⟩ := hafter
  obtain ⟨a, ha, hmove⟩ := Option.bind_eq_some_iff.mp (step_eq_some hstep).1
  obtain ⟨⟨store, pc'⟩, -, hout⟩ := Option.bind_eq_some_iff.mp hmove
  rw [hworker] at ha
  cases ha
  have hworker' : h'.task.activations[1]? = some ⟨lease, pc'⟩ := by
    obtain ⟨hi, -⟩ := List.getElem?_eq_some_iff.mp hworker
    rw [← Option.some.inj hout, List.getElem?_set_self hi]
  dsimp only at hpc hid htoken htype
  have hremote : (lease.commandId, lease.fenceToken) ∈ h'.failed := by
    rw [hid, htoken]
    exact hremote
  refine ⟨lease, pc, pc', h', hworker, hstep, hworker', hremote, ?_, by rw [hid, hcount]⟩
  cases pc with
  | failing error =>
      cases error with
      | other typeName =>
          have hgives := @TaskStore.GivesUp.recorded plainDispatcher h.task.store h'.task.store
            lease (.other typeName) .proceed pc' c c' (fun hknown => nomatch hknown.2)
            (by rw [htype]; rfl) hc (hcid.trans hid.symm) (by rw [hstatus]; nofun) hc'
            (hcid'.trans hid.symm) hfailed
          rw [htype] at hgives
          exact hgives
      | submitIndeterminate | resumeIndeterminate | forkIndeterminate => cases hpc
  | _ => cases hpc

/-- Two attempts fail before the command does. -/
theorem failure_budget_refused : ∃ (h h' : FailureState) (lease : CommandLease) (pc pc' : Pc),
    TaskStore.GivesUp plainDispatcher h.task.store h'.task.store lease pc .proceed pc' 2 ∧
      2 ≤ h'.failureCount lease.commandId := by
  have hrun : (runChecked (step plainDispatcher plainDigests)
      (fun h label => decide (Spent plainDispatcher h label)) plainFailures refusedRun).any
      (givesUpAfter 2) = true := by
    decide +kernel
  obtain ⟨h, hlabels, hafter⟩ := (Option.any_eq_true _ _).mp hrun
  have hreaches := reaches_of_runChecked _ (fun _ _ h => of_decide_eq_true h) hlabels
  obtain ⟨lease, pc, pc', h', hworker, hstep, hworker', hremote, hgives, hcount⟩ :=
    givesUp_of_after hafter
  exact ⟨h, h', lease, pc, pc', hgives,
    failure_budget hreaches hworker hstep hworker' hremote hgives⟩

/-- A healthy poll uses up the first of two attempts, so that one failure ends the command. -/
theorem polled_command_fails_early :
    ¬ ∀ (cfg : DispatcherConfig) (digests : KeyDigests) (taskId commandId : ℕ) (threadId : String)
      (admission : Admission) (payloadHash : String) (h h' : FailureState) (i now limit : ℕ)
      (event : Event) (lease : CommandLease) (pc pc' : Pc),
      Reaches (step cfg digests) anyStep
        (admitted taskId commandId threadId admission payloadHash) h →
      h.task.activations[i]? = some ⟨lease, pc⟩ →
      step cfg digests h (.execute i event now) = some h' →
      h'.task.activations[i]? = some ⟨lease, pc'⟩ →
      (lease.commandId, lease.fenceToken) ∈ h'.failed →
      TaskStore.GivesUp cfg h.task.store h'.task.store lease pc event pc' limit →
      limit ≤ h'.failureCount lease.commandId := by
  have hrun : (runLabels (step plainDispatcher plainDigests) plainFailures polledRun).any
      (givesUpAfter 1) = true := by
    decide +kernel
  obtain ⟨h, hlabels, hafter⟩ := (Option.any_eq_true _ _).mp hrun
  obtain ⟨lease, pc, pc', h', hworker, hstep, hworker', hremote, hgives, hcount⟩ :=
    givesUp_of_after hafter
  intro hclaim
  have hle := hclaim plainDispatcher plainDigests _ _ _ _ _ h h' 1 52 2 .proceed lease pc pc'
    (reaches_of_runLabels _ hlabels) hworker hstep hworker' hremote hgives
  omega

end FailureState

end CryptoAlert
