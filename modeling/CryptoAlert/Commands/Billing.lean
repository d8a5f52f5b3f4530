import CryptoAlert.Commands.Changes

/-!
# The receipts that a step adds

Only a transaction that projects an output writes usage receipts. They are appended, and each of
them is a fact of a finished run as the transaction leaves it.
-/

namespace CryptoAlert

theorem appendFacts_eq (receipts facts : List UsageReceipt) :
    ∃ new, facts.foldl appendFact receipts = receipts ++ new ∧ ∀ r ∈ new, r ∈ facts := by
  induction facts generalizing receipts with
  | nil => exact ⟨[], (List.append_nil _).symm, nofun⟩
  | cons fact facts ih =>
      rw [List.foldl_cons]
      obtain ⟨new, hnew, hfacts⟩ := ih (appendFact receipts fact)
      have hlater : ∀ r ∈ new, r ∈ fact :: facts :=
        fun r hr => List.mem_cons_of_mem _ (hfacts r hr)
      by_cases htaken : receipts.any fun r => r.runId == fact.runId && r.unit == fact.unit
      · rw [appendFact, if_pos htaken] at hnew
        refine ⟨new, ?_, hlater⟩
        rw [appendFact, if_pos htaken, hnew]
      · rw [appendFact, if_neg htaken] at hnew
        refine ⟨fact :: new, ?_, List.forall_mem_cons.mpr ⟨List.mem_cons_self, hlater⟩⟩
        rw [appendFact, if_neg htaken, hnew, List.append_assoc, List.singleton_append]

namespace LockedRows

/-- What a transaction does to the receipts: nothing, or it appends those of its run. -/
inductive Billing (hashing : Hashing) (l l' : LockedRows) : Prop where
  | kept (receipts : l'.outputs.receipts = l.outputs.receipts)
  | billed (id : l'.run.id = l.run.id) (finished : l'.run.finishedAt.isSome)
      (receipts : l'.outputs.receipts =
        appendRunUsageReceipts hashing l.outputs.receipts l'.run)

variable {cfg : DispatcherConfig} {l l' l'' : LockedRows}

theorem persist_billing {t : TerminalGraphOutput} {now fence : ℕ} {terminalize : Bool}
    {message : Option String} (h : l.persist cfg t now fence terminalize message = some l') :
    l.Billing cfg.hashing l' := by
  obtain ⟨rows, hrows, rfl⟩ := Option.map_eq_some_iff.mp h
  unfold persistTerminalRun at hrows
  dsimp only at hrows
  split at hrows
  · cases hrows
  · cases hrows
    exact .billed rfl rfl rfl

theorem persistFailed_billing {code errorType message : String} {retryable : Bool}
    {now fence : ℕ} {attempt : Option ℕ}
    (h : l.persistFailed cfg code errorType retryable now fence message attempt = some l') :
    l.Billing cfg.hashing l' := by
  obtain ⟨rows, hrows, hl⟩ := Option.map_eq_some_iff.mp h
  obtain ⟨t, -, hpersist⟩ := Option.bind_eq_some_iff.mp hrows
  have hl : l.persist cfg t now fence true (some message) = some l' := by
    rw [persist, hpersist, Option.map_some, hl]
  exact persist_billing hl

/-- The receipts and the run before a transaction are all that its billing reads. -/
theorem Billing.congr {hashing : Hashing} (h : l.Billing hashing l')
    (hreceipts : l''.outputs.receipts = l.outputs.receipts) (hid : l''.run.id = l.run.id) :
    l''.Billing hashing l' := by
  cases h with
  | kept receipts => exact .kept (receipts.trans hreceipts.symm)
  | billed id finished receipts =>
      refine .billed (id.trans hid.symm) finished ?_
      rw [receipts, hreceipts]

theorem Billing.settle {hashing : Hashing} (h : l.Billing hashing l') (status : CommandStatus) :
    l.Billing hashing (l'.settle status) := by
  cases h with
  | kept receipts => exact .kept receipts
  | billed id finished receipts => exact .billed id finished receipts

end LockedRows

section Commit

variable {o o' : Outputs}

theorem artifactFor_receipts {type : ArtifactType} {id : ℕ} {a : ArtifactRow}
    (h : o.artifactFor type id = some (o', a)) : o'.receipts = o.receipts := by
  unfold Outputs.artifactFor at h
  split at h
  · cases h
    rfl
  · obtain ⟨artifacts, -, h⟩ := Option.map_eq_some_iff.mp h
    cases h
    rfl

theorem commitVersion_receipts {type : ArtifactType} {ids : CommitIds} {runId : ℕ}
    {content : Json} {v : ArtifactVersion}
    (h : o.commitVersion type ids runId content = some (o', v)) : o'.receipts = o.receipts := by
  obtain ⟨⟨o₁, a⟩, hartifact, h⟩ := Option.bind_eq_some_iff.mp h
  obtain ⟨versions, -, h⟩ := Option.bind_eq_some_iff.mp h
  have hreceipts := artifactFor_receipts hartifact
  cases h
  exact hreceipts

theorem commitVersionAndDecision_receipts {ids : CommitIds} {runId : ℕ} {content : Json}
    {d : DecisionRow} (h : o.commitVersionAndDecision ids runId content = some (o', d)) :
    o'.receipts = o.receipts := by
  unfold Outputs.commitVersionAndDecision at h
  iterate 3 obtain ⟨_, _, h⟩ := Option.bind_eq_some_iff.mp h
  obtain ⟨⟨o₁, v⟩, hversion, h⟩ := Option.bind_eq_some_iff.mp h
  dsimp only at h
  split_ifs at h
  obtain ⟨decisions, -, h⟩ := Option.bind_eq_some_iff.mp h
  have hreceipts := commitVersion_receipts hversion
  cases h
  exact hreceipts

theorem commitTerminalArtifact_receipts {task : TaskRow} {ids : CommitIds} {runId : ℕ}
    {t : TerminalGraphOutput} {notification : Option Json}
    (h : commitTerminalArtifact task o ids runId t = some (o', notification)) :
    o'.receipts = o.receipts := by
  unfold commitTerminalArtifact at h
  by_cases hsucceeded : t.terminalStatus = .succeeded
  · rw [if_pos hsucceeded] at h
    split at h
    · obtain ⟨⟨o₁, row⟩, hdecision, h⟩ := Option.bind_eq_some_iff.mp h
      dsimp only at h
      split_ifs at h
      · obtain ⟨payload, -, h⟩ := Option.bind_eq_some_iff.mp h
        cases h
        exact commitVersionAndDecision_receipts hdecision
      · cases h
        exact commitVersionAndDecision_receipts hdecision
    · obtain ⟨⟨o₁, v⟩, hversion, h⟩ := Option.map_eq_some_iff.mp h
      cases h
      exact commitVersion_receipts hversion
    · cases h
      rfl
  · rw [if_neg hsucceeded] at h
    cases h
    rfl

end Commit

namespace TaskStore

variable {cfg : DispatcherConfig} {digests : KeyDigests} {hashing : Hashing}
  {s s' : TaskStore} {lease : CommandLease} {now : ℕ}

/-- A step appends receipts of finished runs. -/
def Bills (hashing : Hashing) (s s' : TaskStore) : Prop :=
  ∃ new, s'.outputs.receipts = s.outputs.receipts ++ new ∧
    ∀ receipt ∈ new, ∃ r ∈ s'.runs, r.finishedAt.isSome ∧ receipt ∈ runUsageFacts hashing r

theorem Bills.of_same (h : s'.outputs.receipts = s.outputs.receipts) : Bills hashing s s' :=
  ⟨[], by rw [h, List.append_nil], nofun⟩

theorem Bills.of_billing {command : TaskCommand} {run : RunRow} {l : LockedRows}
    (hrun : run ∈ s.runs) (h : (s.lock command run).Billing hashing l) :
    Bills hashing s (s.write l) := by
  cases h with
  | kept receipts => exact .of_same receipts
  | billed id finished receipts =>
      obtain ⟨new, hnew, hfacts⟩ := appendFacts_eq s.outputs.receipts (runUsageFacts hashing l.run)
      refine ⟨new, receipts.trans hnew, fun receipt hreceipt => ⟨l.run, ?_, finished,
        hfacts receipt hreceipt⟩⟩
      exact Table.mem_put_self hrun id.symm

theorem bills_of_underLease {α : Type} {allowExpired : Bool} {lost answer : α}
    {body : LockedRows → Option (LockedRows × α)}
    (hbody : ∀ l l' answer, body l = some (l', answer) → l.Billing hashing l')
    (h : s.underLease lease now allowExpired lost body = some (s', answer)) :
    Bills hashing s s' := by
  obtain ⟨rfl, -⟩ | ⟨command, run, l', hlocks, hl, rfl⟩ := underLease_cases h
  · exact .of_same rfl
  · exact .of_billing (Table.find_eq_some hlocks.found).1 (hbody _ _ _ hl)

section Transactions

variable {b : Bool}

theorem renewLease_bills (h : s.renewLease cfg lease now = some (s', b)) :
    Bills hashing s s' := by
  refine bills_of_underLease ?_ h
  intro l l' answer hbody
  cases hbody
  exact .kept rfl

theorem scheduleCancelRetry_bills (h : s.scheduleCancelRetry cfg lease now = some (s', b)) :
    Bills hashing s s' := by
  refine bills_of_underLease ?_ h
  intro l l' answer hbody
  cases hbody
  exact .kept rfl

theorem registerRemote_bills {handle : RemoteRunHandle} {r : Registration}
    (h : s.registerRemote cfg lease handle now = some (s', r)) : Bills hashing s s' := by
  refine bills_of_underLease ?_ h
  intro l l' answer hbody
  dsimp only at hbody
  split_ifs at hbody <;> cases hbody <;> exact .kept rfl

theorem persistProgressiveUpdate_bills {handle : RemoteRunHandle} {eventId : String}
    {updates : List (String × Json)}
    (h : s.persistProgressiveUpdate cfg lease handle eventId updates now = some (s', b)) :
    Bills hashing s s' := by
  refine bills_of_underLease ?_ h
  intro l l' answer hbody
  split_ifs at hbody
  · cases hbody
    exact .kept rfl
  · split at hbody <;> cases hbody
    exact .kept rfl

theorem scheduleReconciliation_bills
    (h : s.scheduleReconciliation cfg lease now = some (s', b)) : Bills hashing s s' := by
  refine bills_of_underLease ?_ h
  intro l l' answer hbody
  split_ifs at hbody <;> cases hbody <;> exact .kept rfl

theorem scheduleOrphanCancel_bills {cleanup : OrphanCleanup}
    (h : s.scheduleOrphanCancel cfg lease now = some (s', cleanup)) : Bills hashing s s' := by
  refine bills_of_underLease ?_ h
  intro l l' answer hbody
  dsimp only at hbody
  split_ifs at hbody <;> cases hbody <;> exact .kept rfl

theorem markWaitingHuman_bills {set : RemoteInterruptSet} {pauseId : ℕ} {memberIds : List ℕ}
    (h : s.markWaitingHuman cfg digests lease set pauseId memberIds now = some (s', b)) :
    Bills hashing s s' := by
  refine bills_of_underLease ?_ h
  intro l l' answer hbody
  split_ifs at hbody
  · cases hbody
    exact .kept rfl
  · obtain ⟨resolved, hresolved, hbody⟩ := Option.bind_eq_some_iff.mp hbody
    obtain ⟨⟨found, pause⟩, hfound, hbody⟩ := Option.bind_eq_some_iff.mp hbody
    obtain ⟨members, -, hbody⟩ := Option.bind_eq_some_iff.mp hbody
    split_ifs at hbody
    cases hbody
    have houtputs : found.outputs = l.outputs := by
      rw [pauseFor_eq_some hfound, LockedRows.resolveRespondingInterrupt_eq_some hresolved]
    exact .kept (congrArg Outputs.receipts houtputs)

theorem rememberRemoteTerminal_bills {status : ObservedTerminalStatus}
    (h : s.rememberRemoteTerminal lease status now = some (s', b)) : Bills hashing s s' := by
  refine bills_of_underLease ?_ h
  intro l l' answer hbody
  split_ifs at hbody
  cases hbody
  exact .kept rfl

theorem registerCancelTarget_bills {handle : RemoteRunHandle}
    (h : s.registerCancelTarget lease handle now = some (s', b)) : Bills hashing s s' := by
  refine bills_of_underLease ?_ h
  intro l l' answer hbody
  split_ifs at hbody
  cases hbody
  exact .kept rfl

theorem finalizeCancelFailure_bills {errorType code message : String}
    (h : s.finalizeCancelFailure cfg lease errorType code message now = some (s', b)) :
    Bills cfg.hashing s s' := by
  cases hrun : lease.productRunId with
  | none =>
      obtain rfl | ⟨_, _, _, hunassigned⟩ := finalizeCancelFailure_unassigned hrun h
      · exact .of_same rfl
      · rw [hunassigned.store]
        exact .of_same rfl
  | some runId =>
      unfold finalizeCancelFailure at h
      rw [hrun] at h
      cases hfailed : failedTerminalOutput code errorType false (some lease.fenceToken) with
      | none => simp [hfailed] at h
      | some terminal =>
          simp only [hfailed] at h
          refine bills_of_underLease ?_ h
          intro l l' answer hbody
          split_ifs at hbody
          · cases hbody
            exact .kept rfl
          · obtain ⟨closed, hclosed, hbody⟩ := Option.bind_eq_some_iff.mp hbody
            obtain ⟨persisted, hpersisted, hbody⟩ := Option.bind_eq_some_iff.mp hbody
            cases hbody
            have hrows := LockedRows.closeActiveInterruptLineage_eq_some hclosed
            refine (LockedRows.persist_billing hpersisted).congr ?_ ?_ <;> rw [hrows] <;> rfl

theorem finalizeCancel_bills (h : s.finalizeCancel cfg lease now = some (s', b)) :
    Bills cfg.hashing s s' := by
  cases hrun : lease.productRunId with
  | none =>
      obtain rfl | ⟨_, _, _, hunassigned⟩ := finalizeCancel_unassigned hrun h
      · exact .of_same rfl
      · rw [hunassigned.store]
        exact .of_same rfl
  | some runId =>
      unfold finalizeCancel at h
      rw [hrun] at h
      refine bills_of_underLease ?_ h
      intro l l' answer hbody
      split_ifs at hbody
      · cases hbody
        exact .kept rfl
      · cases hbody
        exact .kept rfl
      · obtain ⟨closed, hclosed, hbody⟩ := Option.bind_eq_some_iff.mp hbody
        obtain ⟨persisted, hpersisted, hbody⟩ := Option.bind_eq_some_iff.mp hbody
        cases hbody
        have hrows := LockedRows.closeActiveInterruptLineage_eq_some hclosed
        refine (LockedRows.persist_billing hpersisted).congr ?_ ?_ <;> rw [hrows] <;> rfl

/-- A failed output ends its command. -/
theorem settled_billing {code errorType message : String} {retryable : Bool} {fence : ℕ}
    {attempt : Option ℕ} {l l' : LockedRows}
    (h : (l.persistFailed cfg code errorType retryable now fence message attempt).map
      (fun l => (l.settle .failed, ())) = some (l', ())) : l.Billing cfg.hashing l' := by
  obtain ⟨persisted, hpersisted, hl⟩ := Option.map_eq_some_iff.mp h
  cases hl
  exact (LockedRows.persistFailed_billing hpersisted).settle _

theorem recordRemoteError_bills {error : RemoteError}
    (h : s.recordRemoteError cfg lease error now = some (s', ())) : Bills cfg.hashing s s' := by
  refine bills_of_underLease ?_ h
  intro l l' answer hbody
  split_ifs at hbody
  · cases hbody
    exact .kept rfl
  · unfold recordIndeterminateSubmit at hbody
    split_ifs at hbody
    · cases hbody
      exact .kept rfl
    · exact settled_billing hbody
  · split at hbody
    · unfold recordRespondError at hbody
      split at hbody
      · cases hbody
      · dsimp only at hbody
        generalize (if (_ : RespondCommandPayload).expired then InterruptStatus.expired else
          InterruptStatus.responding) = expected at hbody
        generalize (if (_ : RespondCommandPayload).expired then RunStatus.running else
          RunStatus.waitingHuman) = taskStatus at hbody
        generalize (if (_ : RespondCommandPayload).expired then cfg.maxCancelAttempts else
          cfg.maxAttempts) = limit at hbody
        split_ifs at hbody
        · cases hbody
          exact .kept rfl
        · cases hbody
          exact .kept rfl
        · exact (settled_billing hbody).congr rfl rfl
    · unfold recordForkError at hbody
      split_ifs at hbody
      · cases hbody
        exact .kept rfl
      · cases hbody
        exact .kept rfl
      · exact settled_billing hbody
    · unfold recordSubmitError at hbody
      dsimp only at hbody
      split_ifs at hbody
      · cases hbody
        exact .kept rfl
      · cases hbody
        exact .kept rfl
      · exact settled_billing hbody

theorem recordTerminalProjectionDatabaseError_bills {terminal : TerminalGraphOutput}
    {operational : Bool}
    (h : s.recordTerminalProjectionDatabaseError cfg lease terminal now operational =
      some (s', b)) : Bills cfg.hashing s s' := by
  refine bills_of_underLease ?_ h
  intro l l' answer hbody
  dsimp only at hbody
  split_ifs at hbody
  · obtain ⟨persisted, hpersisted, hl⟩ := Option.map_eq_some_iff.mp hbody
    cases hl
    exact (LockedRows.persist_billing hpersisted).settle _
  · cases hbody
    exact .kept rfl
  · obtain ⟨persisted, hpersisted, hl⟩ := Option.map_eq_some_iff.mp hbody
    cases hl
    exact ((LockedRows.persistFailed_billing hpersisted).settle _).congr rfl rfl
  · obtain ⟨persisted, hpersisted, hl⟩ := Option.map_eq_some_iff.mp hbody
    cases hl
    exact ((LockedRows.persistFailed_billing hpersisted).settle _).congr rfl rfl

theorem projectOutput_billing {terminal : TerminalGraphOutput} {ids : CommitIds}
    {l l' : LockedRows} (h : projectOutput cfg lease terminal now ids l = some l') :
    l.Billing cfg.hashing l' := by
  unfold projectOutput at h
  dsimp only at h
  obtain ⟨⟨outputs, notification⟩, hcommit, h⟩ := Option.bind_eq_some_iff.mp h
  dsimp only at h
  split at h
  · cases h
  · have hreceipts := commitTerminalArtifact_receipts hcommit
    cases h
    exact .billed rfl rfl hreceipts

theorem finalize_bills {terminal : TerminalGraphOutput} {ids : CommitIds}
    (h : s.finalize cfg lease terminal now ids = some (s', b)) : Bills cfg.hashing s s' := by
  refine bills_of_underLease ?_ h
  intro l l' answer hbody
  split_ifs at hbody
  · cases hbody
    exact .kept rfl
  · obtain ⟨closed, hclosed, hbody⟩ := Option.bind_eq_some_iff.mp hbody
    have hrows := (closePauses_eq_some hclosed).1
    have hreceipts : l.outputs.receipts = closed.outputs.receipts := by rw [hrows]
    have hid : l.run.id = closed.run.id := by rw [hrows]
    split_ifs at hbody
    · cases hbody
      exact .kept hreceipts.symm
    · obtain ⟨persisted, hpersisted, hbody⟩ := Option.bind_eq_some_iff.mp hbody
      cases hbody
      exact ((LockedRows.persist_billing hpersisted).settle _).congr hreceipts hid
    · obtain ⟨conflict, -, hbody⟩ := Option.bind_eq_some_iff.mp hbody
      obtain ⟨persisted, hpersisted, hbody⟩ := Option.bind_eq_some_iff.mp hbody
      cases hbody
      exact ((LockedRows.persist_billing hpersisted).settle _).congr hreceipts hid
    · obtain ⟨projected, hprojected, hbody⟩ := Option.bind_eq_some_iff.mp hbody
      cases hbody
      exact ((projectOutput_billing hprojected).settle _).congr hreceipts hid

theorem executeStep_bills {pc pc' : Pc} {event : Event}
    (h : s.executeStep cfg digests lease now pc event = some (s', pc')) :
    Bills cfg.hashing s s' := by
  have idle : ∀ {pc : Pc}, some (s, pc) = some (s', pc') → Bills cfg.hashing s s' := by
    intro pc h
    cases h
    exact .of_same rfl
  have idleMap : ∀ {o : Option Pc}, (o.map fun pc => (s, pc)) = some (s', pc') →
      Bills cfg.hashing s s' := by
    intro o h
    obtain ⟨_, _, h⟩ := Option.map_eq_some_iff.mp h
    cases h
    exact .of_same rfl
  have transaction : ∀ {α : Type} {o : Option (TaskStore × α)} {f : TaskStore × α → TaskStore × Pc},
      o.map f = some (s', pc') → (∀ x, (f x).1 = x.1) → ∃ answer, o = some (s', answer) := by
    intro α o f h hf
    obtain ⟨⟨s₁, answer⟩, ho, h⟩ := Option.map_eq_some_iff.mp h
    have hstore : s₁ = s' := by simpa [h] using (hf (s₁, answer)).symm
    exact ⟨answer, hstore ▸ ho⟩
  unfold executeStep at h
  split at h
  case h_1 | h_2 | h_3 | h_4 | h_5 | h_7 | h_8 | h_9 | h_13 | h_14 | h_15 | h_16 | h_17 | h_18 |
      h_19 | h_35 | h_36 | h_37 => exact idle h
  case h_20 | h_23 | h_24 | h_25 | h_29 | h_30 => exact idleMap h
  case h_28 =>
    obtain ⟨_, _, h⟩ := Option.map_eq_some_iff.mp h
    cases h
    exact .of_same rfl
  case h_6 =>
    obtain ⟨_, h⟩ := transaction h fun _ => rfl
    exact renewLease_bills h
  case h_10 =>
    obtain ⟨_, h⟩ := transaction h fun _ => rfl
    exact registerRemote_bills h
  case h_12 =>
    obtain ⟨_, h⟩ := transaction h fun _ => rfl
    exact persistProgressiveUpdate_bills h
  case h_21 =>
    obtain ⟨_, h⟩ := transaction h fun _ => rfl
    exact scheduleReconciliation_bills h
  case h_22 =>
    obtain ⟨_, h⟩ := transaction h fun _ => rfl
    exact scheduleOrphanCancel_bills h
  case h_26 =>
    obtain ⟨_, h⟩ := transaction h fun _ => rfl
    exact markWaitingHuman_bills h
  case h_27 =>
    obtain ⟨⟨s₁, remembered⟩, hremember, h⟩ := Option.bind_eq_some_iff.mp h
    have hstore : s' = s₁ := by
      dsimp only at h
      split_ifs at h
      · cases h
        rfl
      · cases h
        rfl
      · obtain ⟨_, _, h⟩ := Option.map_eq_some_iff.mp h
        cases h
        rfl
    rw [hstore]
    exact rememberRemoteTerminal_bills hremember
  case h_11 =>
    obtain ⟨_, h⟩ := transaction h fun _ => rfl
    exact recordRemoteError_bills h
  case h_31 =>
    obtain ⟨_, h⟩ := transaction h fun _ => rfl
    exact finalize_bills h
  case h_32 =>
    split at h
    · exact idle h
    · obtain ⟨_, h⟩ := transaction h fun _ => rfl
      exact finalize_bills h
  case h_33 =>
    obtain ⟨_, h⟩ := transaction h fun _ => rfl
    exact recordTerminalProjectionDatabaseError_bills h
  case h_34 =>
    obtain ⟨_, h⟩ := transaction h fun _ => rfl
    exact registerCancelTarget_bills h
  case h_38 =>
    split_ifs at h
    · exact idleMap h
    · exact idle h
    · obtain ⟨_, h⟩ := transaction h fun _ => rfl
      exact scheduleCancelRetry_bills h
  case h_39 =>
    obtain ⟨_, h⟩ := transaction h fun _ => rfl
    exact finalizeCancelFailure_bills h
  case h_40 =>
    obtain ⟨_, h⟩ := transaction h fun _ => rfl
    exact finalizeCancel_bills h
  case h_41 => cases h

end Transactions

section Changes

/-- A request writes no output. -/
theorem Requested.outputs (h : Requested digests s s') : s'.outputs = s.outputs := by
  cases h with
  | fork source checkpointId key hash runId commandId now s₁ found checkpoint active idle closed =>
      obtain ⟨rfl, -⟩ | ⟨pause, run, -, -, -, -, -, -, rfl⟩ :=
        cancelPendingPauseForFork_cases closed <;> rfl
  | _ => rfl

/-- A claim writes receipts only where it fails the run of an invalid command. -/
theorem Claims.bills {claimed : Option CommandLease} (h : Claims cfg s now s' claimed) :
    Bills cfg.hashing s s' := by
  cases h with
  | idle => exact .of_same rfl
  | cancelled c next moot => exact .of_same rfl
  | failed c code errorType message run _ next invalid fail =>
      unfold failInvalid at fail
      cases run with
      | none =>
          cases fail
          exact .of_same rfl
      | some run =>
          obtain ⟨rows, hrows, rfl⟩ := Option.map_eq_some_iff.mp fail
          have hpersist : ((s.lock c run).settle .failed).persistFailed cfg code errorType false now
              c.sequence message none =
              some { (s.lock c run).settle .failed with toProjectedRows := rows } := by
            rw [LockedRows.persistFailed]
            exact Option.map_eq_some_iff.mpr ⟨rows, hrows, rfl⟩
          have hbilling : (s.lock c run).Billing cfg.hashing
              { (s.lock c run).settle .failed with toProjectedRows := rows } :=
            (LockedRows.persistFailed_billing hpersist).congr rfl rfl
          exact .of_billing (claimedRun_invalid_mem invalid run rfl) hbilling
  | driven c workerId run s₁ lease next drives ensured =>
      cases ensured with
      | found claimed => exact .of_same rfl
      | inserted runId submit none fresh first => exact .of_same rfl
  | cancelling c workerId run lease next cancels claimed => exact .of_same rfl

/-- A transaction of the reconciler writes receipts only if its body does. -/
theorem receipts_of_underReconciliation {lease : ReconciliationLease} {b : Bool}
    {body : LockedRows → Option LockedRows}
    (hbody : ∀ l l', body l = some l' → l'.outputs.receipts = l.outputs.receipts)
    (h : s.underReconciliation lease now body = some (s', b)) :
    s'.outputs.receipts = s.outputs.receipts := by
  unfold underReconciliation at h
  split at h
  · cases h
    rfl
  · split at h
    · cases h
      rfl
    · split_ifs at h
      · cases h
        rfl
      · obtain ⟨l', hl, hs⟩ := Option.map_eq_some_iff.mp h
        cases hs
        exact hbody _ _ hl

end Changes

end TaskStore

namespace TaskState

variable {cfg : DispatcherConfig} {digests : KeyDigests} {t t' : TaskState}

theorem step_bills {label : TaskLabel} (h : t.step cfg digests label = some t') :
    TaskStore.Bills cfg.hashing t.store t'.store := by
  have service : ∀ {result : ServiceResult}, t.afterService result = some t' →
      (∀ s reply, result = .ok (s, reply) → s = t.store ∨ TaskStore.Requested digests t.store s) →
      TaskStore.Bills cfg.hashing t.store t'.store := by
    intro result h hrequested
    obtain ⟨reply, hresult, -, -⟩ := afterService_eq_some h
    obtain hsame | hrequested := hrequested _ _ hresult
    · rw [hsame]
      exact .of_same rfl
    · exact .of_same (congrArg Outputs.receipts hrequested.outputs)
  cases label with
  | cancelTask key commandId now =>
      exact service h fun _ _ h => (TaskStore.cancelTask_requested h).imp_right And.left
  | cancelRun runId key commandId now =>
      exact service h fun _ _ h => (TaskStore.cancelRun_requested h).imp_right And.left
  | retryTask key runId commandId =>
      exact service h fun _ _ h => (TaskStore.retryTask_requested h).imp_right And.left
  | forkTask sourceRunId checkpointId key runId commandId now =>
      exact service h fun _ _ h => (TaskStore.forkTask_requested h).imp_right And.left
  | respondInterrupts submission key runId commandId now =>
      exact service h fun _ _ h => (TaskStore.respondInterrupts_requested h).imp_right And.left
  | expire pauseId runId commandId now =>
      obtain ⟨store, hstore, rfl⟩ := Option.map_eq_some_iff.mp h
      have hrequested := (TaskStore.expireDueInterrupt_requested hstore).1
      exact .of_same (congrArg Outputs.receipts hrequested.outputs)
  | claim workerId runId now =>
      obtain ⟨⟨store, lease⟩, hstore, rfl⟩ := Option.map_eq_some_iff.mp h
      exact (TaskStore.claimNext_claims hstore).bills
  | execute i event now =>
      obtain ⟨a, -, h⟩ := Option.bind_eq_some_iff.mp h
      obtain ⟨⟨store, pc⟩, hstore, h⟩ := Option.bind_eq_some_iff.mp h
      cases h
      exact TaskStore.executeStep_bills hstore
  | releaseOwned workerId now =>
      cases h
      exact .of_same rfl
  | reconcile commandId workerId now staleBefore leaseExpiresAt =>
      obtain ⟨⟨store, lease⟩, hstore, rfl⟩ := Option.map_eq_some_iff.mp h
      obtain ⟨c, -, hstore⟩ := Option.bind_eq_some_iff.mp hstore
      obtain ⟨run, -, hstore⟩ := Option.bind_eq_some_iff.mp hstore
      split_ifs at hstore
      cases hstore
      exact .of_same rfl
  | registerHandle i handle now =>
      obtain ⟨lease, -, h⟩ := Option.bind_eq_some_iff.mp h
      obtain ⟨⟨store, b⟩, hstore, h⟩ := Option.bind_eq_some_iff.mp h
      cases h
      refine .of_same (TaskStore.receipts_of_underReconciliation ?_ hstore)
      intro l l' hl
      split_ifs at hl
      cases hl
      rfl
  | observeAbsence i now =>
      obtain ⟨lease, -, h⟩ := Option.bind_eq_some_iff.mp h
      obtain ⟨⟨store, b⟩, hstore, h⟩ := Option.bind_eq_some_iff.mp h
      cases h
      refine .of_same (TaskStore.receipts_of_underReconciliation ?_ hstore)
      intro l l' hl
      cases hl
      rfl
  | observeState i handle status now =>
      obtain ⟨lease, -, h⟩ := Option.bind_eq_some_iff.mp h
      obtain ⟨⟨store, b⟩, hstore, h⟩ := Option.bind_eq_some_iff.mp h
      cases h
      refine .of_same (TaskStore.receipts_of_underReconciliation ?_ hstore)
      intro l l' hl
      dsimp only at hl
      split_ifs at hl
      split at hl
      · split_ifs at hl
        cases hl
        rfl
      · cases hl
        rfl
      · cases hl
  | releaseReconciled i now =>
      obtain ⟨lease, -, h⟩ := Option.bind_eq_some_iff.mp h
      cases h
      refine .of_same ?_
      unfold TaskStore.releaseReconciliation
      dsimp only
      split
      · rfl
      · split_ifs <;> rfl

end TaskState

end CryptoAlert
