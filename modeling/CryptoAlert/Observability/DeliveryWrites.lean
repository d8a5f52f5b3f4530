import CryptoAlert.Observability.Verification

/-!
# What verification workers can do to a delivery

A step writes a delivery in one of a few ways, which are listed once, together with the leases
that the step gives out.
-/

namespace CryptoAlert

namespace ObservabilityDelivery

/-- What a step makes of a delivery. -/
inductive Written (settings : VerificationSettings) (s : VerificationState)
    (d : ObservabilityDelivery) : VerificationLabel → ObservabilityDelivery → Prop where
  | kept (label : VerificationLabel) : Written settings s d label d
  | leased {workerId owner : String} {now limit : ℕ} {locked : Deliveries.Locked}
      (leaseExpiresAt : ℕ) (waiting : d.status.isWaiting) :
      Written settings s d (.leaseDue workerId now limit locked) (d.leaseTo owner leaseExpiresAt)
  | recovered {workerId : String} {now limit : ℕ} {locked : Deliveries.Locked}
      (held : d.status.isHeld) (expired : d.isExpired now) (free : d.id ∉ locked.recovery) :
      Written settings s d (.leaseDue workerId now limit locked) (d.recover now)
  /-- A recovered delivery may be leased in the same step. -/
  | retaken {workerId owner : String} {now limit : ℕ} {locked : Deliveries.Locked}
      (leaseExpiresAt : ℕ) (held : d.status.isHeld) (expired : d.isExpired now)
      (free : d.id ∉ locked.recovery) :
      Written settings s d (.leaseDue workerId now limit locked)
        ((d.recover now).leaseTo owner leaseExpiresAt)
  | released {workerId owner : String} {now : ℕ} {locked : List ℕ} (held : d.status.isHeld)
      (valid : validateText workerId 255 = some owner) (owned : d.leaseOwner = some owner)
      (free : d.id ∉ locked) :
      Written settings s d (.releaseOwnedLeases workerId now locked) (d.release now)
  | reported {i started finished : ℕ} {outcome : VerifyOutcome}
      {lease : ObservabilityDeliveryLease} {d' : ObservabilityDelivery}
      (holder : s.executions[i]? = some lease) (latest : d.isLockedBy lease)
      (mark : (settings.execute lease started finished outcome).1.apply d
        (settings.execute lease started finished outcome).2 = some d') :
      Written settings s d (.execute i started finished outcome) d'

/-- Whether a step raised the counters of a delivery, by one each. -/
def Leased (d d' : ObservabilityDelivery) : Prop :=
  d'.attemptCount = d.attemptCount + 1 ∧ d'.fenceToken = d.fenceToken + 1

/-- Whether a step left the counters of a delivery alone. -/
def SameCounters (d d' : ObservabilityDelivery) : Prop :=
  d'.attemptCount = d.attemptCount ∧ d'.fenceToken = d.fenceToken

variable {settings : VerificationSettings} {s : VerificationState} {d d' : ObservabilityDelivery}
  {label : VerificationLabel} {lease : ObservabilityDeliveryLease}

theorem isLockedBy_iff : d.isLockedBy lease ↔ d.id = lease.deliveryId ∧
    d.leaseOwner = some lease.leaseOwner ∧ d.fenceToken = lease.fenceToken ∧ d.status.isHeld := by
  simp only [isLockedBy, Bool.and_eq_true, beq_iff_eq, and_assoc]

end ObservabilityDelivery

namespace DeliveryMark

variable {d d' : ObservabilityDelivery} {now : ℕ} {mark : DeliveryMark}

/-- The status that a mark writes. -/
def status : DeliveryMark → DeliveryStatus
  | verified _ => .verified
  | retryable _ _ => .failedRetryable
  | unknown _ _ => .unknown
  | terminal _ => .failedTerminal

/-- What a mark leaves alone and what it sets, whichever mark it is. -/
structure Applied (mark : DeliveryMark) (d d' : ObservabilityDelivery) : Prop where
  id : d'.id = d.id
  same : d.SameCounters d'
  leaseOwner : d'.leaseOwner = none
  status : d'.status = mark.status

theorem applied (h : mark.apply d now = some d') : mark.Applied d d' := by
  cases mark with
  | verified traceId =>
      obtain ⟨receipt, -, h⟩ := Option.bind_eq_some_iff.mp h
      cases h
      exact ⟨rfl, ⟨rfl, rfl⟩, rfl, rfl⟩
  | retryable nextAttemptAt error | unknown nextAttemptAt error | terminal error =>
      obtain ⟨row, hrow, h⟩ := Option.bind_eq_some_iff.mp h
      obtain ⟨code, -, hrow⟩ := Option.bind_eq_some_iff.mp hrow
      cases hrow
      cases h
      exact ⟨rfl, ⟨rfl, rfl⟩, rfl, rfl⟩

theorem not_isHeld_status (mark : DeliveryMark) : mark.status.isHeld = false := by
  cases mark <;> rfl

end DeliveryMark

namespace VerificationSettings

variable {settings : VerificationSettings} {lease : ObservabilityDeliveryLease} {now : ℕ}

theorem retry_waiting {code : String} {errorType : Option String}
    (h : (settings.retry lease now code errorType).status.isWaiting) :
    lease.attemptCount < settings.maxAttempts := by
  unfold retry at h
  cases hbudget : settings.budgetError lease now with
  | some error =>
      rw [hbudget] at h
      cases h
  | none =>
      rw [budgetError] at hbudget
      cases hdeadline : lease.verificationDeadline with
      | none =>
          rw [hdeadline] at hbudget
          cases hbudget
      | some deadline =>
          simp only [hdeadline] at hbudget
          split_ifs at hbudget with _ hcount
          omega

theorem finish_waiting {result : ObservabilityVerificationResult}
    (h : (settings.finish lease now result).status.isWaiting) :
    lease.attemptCount < settings.maxAttempts := by
  rw [finish] at h
  cases hresult : result.result with
  | verified =>
      simp only [hresult] at h
      cases htrace : result.providerTraceId with
      | none =>
          simp only [htrace] at h
          cases h
      | some traceId =>
          simp only [htrace] at h
          split_ifs at h <;> cases h
  | terminalFailure =>
      simp only [hresult] at h
      cases h
  | notVisible | retryableFailure =>
      simp only [hresult] at h
      exact retry_waiting h

/-- A worker asks for another attempt only when the attempts are not used up. -/
theorem execute_waiting {started finished : ℕ} {outcome : VerifyOutcome}
    (h : (settings.execute lease started finished outcome).1.status.isWaiting) :
    lease.attemptCount < settings.maxAttempts := by
  unfold execute at h
  split at h
  · cases h
  split_ifs at h
  · cases h
  · cases h
  · cases h
  cases outcome with
  | cancelled | failed =>
      dsimp only at h
      exact retry_waiting h
  | invalid => cases h
  | returned result => exact finish_waiting h

end VerificationSettings

theorem ObservabilityDelivery.Written.id {settings : VerificationSettings} {s : VerificationState}
    {label : VerificationLabel} {d d' : ObservabilityDelivery}
    (h : d.Written settings s label d') : d'.id = d.id := by
  cases h with
  | kept | leased | recovered | retaken | released => rfl
  | reported _ _ mark => exact (DeliveryMark.applied mark).id

namespace Deliveries

variable {deliveries : List ObservabilityDelivery} {d e : ObservabilityDelivery}

/-- A row that `ensure_intents` adds has no attempts and no lease. -/
def Planned (d : ObservabilityDelivery) : Prop :=
  d.attemptCount = 0 ∧ d.fenceToken = 0 ∧ d.leaseOwner = none ∧ d.status.isHeld = false

theorem planned_toRow {intent : ObservabilityDeliveryIntent} {id workspaceId runId now : ℕ}
    (h : intent.toRow id workspaceId runId now = some d) : Planned d := by
  simp only [ObservabilityDeliveryIntent.toRow, Option.bind_eq_bind, Option.bind_eq_some_iff] at h
  obtain ⟨provider, -, -, -, -, -, status, -, _, hheld, skipReason, -, -, -, traceId, -, -, -,
    eventType, -, -, -, deliveryKey, -, correlationId, -, h⟩ := h
  cases h
  have hstatus : status.isHeld = false := by simpa using hheld
  exact ⟨rfl, rfl, rfl, hstatus⟩

theorem insertIntent_eq_some {rows : List ObservabilityDelivery}
    (hn : (deliveries.map key).Nodup) (h : insertIntent deliveries d = some rows) :
    ∃ planned, rows = deliveries ++ planned ∧ planned ⊆ [d] ∧ (rows.map key).Nodup := by
  rw [insertIntent] at h
  split_ifs at h with hlogical hkey
  · cases h
    exact ⟨[], (List.append_nil _).symm, List.nil_subset _, hn⟩
  · obtain ⟨rfl, hfresh⟩ := Table.insert_eq_some h
    exact ⟨[d], rfl, List.Subset.refl _, Table.nodup_insert hn hfresh⟩

theorem foldlM_insertIntent {rows rows' : List ObservabilityDelivery}
    (hn : (deliveries.map key).Nodup) (h : rows.foldlM insertIntent deliveries = some rows') :
    ∃ planned, rows' = deliveries ++ planned ∧ planned ⊆ rows ∧ (rows'.map key).Nodup := by
  induction rows generalizing deliveries with
  | nil =>
      cases h
      exact ⟨[], (List.append_nil _).symm, List.nil_subset _, hn⟩
  | cons row rows ih =>
      rw [List.foldlM_cons] at h
      obtain ⟨between, hfirst, hrest⟩ := Option.bind_eq_some_iff.mp h
      obtain ⟨first, rfl, hsub, hn⟩ := insertIntent_eq_some hn hfirst
      obtain ⟨rest, rfl, hsub', hn⟩ := ih hn hrest
      refine ⟨first ++ rest, List.append_assoc _ _ _, ?_, hn⟩
      intro d hd
      obtain hd | hd := List.mem_append.mp hd
      · rw [List.mem_singleton.mp (hsub hd)]
        exact List.mem_cons_self
      · exact List.mem_cons_of_mem _ (hsub' hd)

theorem ensureIntents_eq_some {workspaceId runId now : ℕ}
    {intents : List (ℕ × ObservabilityDeliveryIntent)} {rows : List ObservabilityDelivery}
    (hn : (deliveries.map key).Nodup)
    (h : ensureIntents deliveries workspaceId runId now intents = some rows) :
    ∃ planned, rows = deliveries ++ planned ∧ (∀ d ∈ planned, Planned d) ∧
      (rows.map key).Nodup := by
  obtain ⟨checked, hchecked, h⟩ := Option.bind_eq_some_iff.mp h
  split_ifs at h with hkeys
  obtain ⟨planned, rfl, hsub, hn⟩ := foldlM_insertIntent hn h
  refine ⟨planned, rfl, fun d hd => ?_, hn⟩
  obtain ⟨⟨id, intent⟩, -, hrow⟩ := Table.exists_of_forall₂ (mapM_eq_some_iff.mp hchecked) (hsub hd)
  exact planned_toRow hrow

theorem mem_selectDue {now limit : ℕ} {locked : List ℕ}
    (h : d ∈ selectDue deliveries now limit locked) : d ∈ deliveries ∧ d.status.isWaiting := by
  have hsorted := List.mem_of_mem_take h
  rw [List.mem_insertionSort, List.mem_filter, Bool.and_eq_true, ObservabilityDelivery.isDue,
    Bool.and_eq_true] at hsorted
  exact ⟨hsorted.1, hsorted.2.1.1⟩

theorem nodup_selectDue {now limit : ℕ} {locked : List ℕ} (hn : (deliveries.map key).Nodup) :
    ((selectDue deliveries now limit locked).map key).Nodup := by
  have hfilter : ((deliveries.filter fun d => d.isDue now && !locked.contains d.id).map key).Nodup :=
    hn.sublist (List.filter_sublist.map key)
  have hsorted := ((List.perm_insertionSort (fun d e : ObservabilityDelivery =>
    d.dueOrder ≤ e.dueOrder) _).map key).nodup_iff.mpr hfilter
  exact hsorted.sublist ((List.take_sublist _ _).map key)

end Deliveries

/-- How a step relates the deliveries and the leases in the hands of workers. -/
structure Stepped (settings : VerificationSettings) (s : VerificationState)
    (label : VerificationLabel) (s' : VerificationState)
    (f : ObservabilityDelivery → ObservabilityDelivery) (planned : List ObservabilityDelivery)
    (issued : List ObservabilityDeliveryLease) : Prop where
  deliveries : s'.deliveries = s.deliveries.map f ++ planned
  nodup : (s'.deliveries.map Deliveries.key).Nodup
  written : ∀ d ∈ s.deliveries, d.Written settings s label (f d)
  ofPlanned : ∀ d ∈ planned, Deliveries.Planned d
  executions : ∃ kept, kept.Sublist s.executions ∧ s'.executions = kept ++ issued
  nodup_issued : (issued.map ObservabilityDeliveryLease.deliveryId).Nodup
  ofIssued : ∀ lease ∈ issued, ∃ d ∈ s.deliveries, d.Leased (f d) ∧ lease.deliveryId = d.id ∧
    lease.attemptCount = (f d).attemptCount ∧ lease.fenceToken = (f d).fenceToken
  counters : ∀ d ∈ s.deliveries, d.SameCounters (f d) ∨
    (d.Leased (f d) ∧ ∃ lease ∈ issued, lease.deliveryId = d.id)

namespace VerificationState

open ObservabilityDelivery

variable {settings : VerificationSettings} {s s' : VerificationState} {label : VerificationLabel}

theorem map_key_map {f : ObservabilityDelivery → ObservabilityDelivery}
    {deliveries : List ObservabilityDelivery} (h : ∀ d ∈ deliveries, (f d).id = d.id) :
    (deliveries.map f).map Deliveries.key = deliveries.map Deliveries.key := by
  rw [List.map_map]
  exact List.map_congr_left h

/-- A step that writes every delivery at most once and gives out no lease. -/
theorem stepped_of_map {f : ObservabilityDelivery → ObservabilityDelivery}
    (hn : (s.deliveries.map Deliveries.key).Nodup) (hdeliveries : s'.deliveries = s.deliveries.map f)
    (hexecutions : s'.executions.Sublist s.executions)
    (h : ∀ d ∈ s.deliveries, d.Written settings s label (f d) ∧ (f d).id = d.id ∧
      d.SameCounters (f d)) : Stepped settings s label s' f [] [] where
  deliveries := by rw [hdeliveries, List.append_nil]
  nodup := by
    rw [hdeliveries, map_key_map fun d hd => (h d hd).2.1]
    exact hn
  written d hd := (h d hd).1
  ofPlanned _ hd := by cases hd
  executions := ⟨s'.executions, hexecutions, (List.append_nil _).symm⟩
  nodup_issued := List.nodup_nil
  ofIssued _ hl := by cases hl
  counters d hd := .inl (h d hd).2.2

theorem stepped_releaseOwnedLeases {workerId owner : String} {now : ℕ} {locked : List ℕ}
    (hn : (s.deliveries.map Deliveries.key).Nodup) (hvalid : validateText workerId 255 = some owner) :
    Stepped settings s (.releaseOwnedLeases workerId now locked)
      { s with deliveries := Deliveries.releaseOwnedLeases s.deliveries owner now locked }
      (fun d => if d.leaseOwner == some owner && d.status.isHeld && !locked.contains d.id then
        d.release now else d) [] [] := by
  refine stepped_of_map hn rfl (List.Sublist.refl _) fun d _ => ?_
  split
  · rename_i h
    simp only [Bool.and_eq_true, beq_iff_eq, Bool.not_eq_true', List.contains_eq_mem,
      decide_eq_false_iff_not] at h
    exact ⟨.released h.1.2 hvalid h.1.1 h.2, rfl, rfl, rfl⟩
  · exact ⟨.kept _, rfl, rfl, rfl⟩

theorem stepped_execute {i started finished : ℕ} {outcome : VerifyOutcome}
    {lease : ObservabilityDeliveryLease} (hn : (s.deliveries.map Deliveries.key).Nodup)
    (hlease : s.executions[i]? = some lease) :
    Stepped settings s (.execute i started finished outcome)
      { deliveries := Deliveries.fencedTransition s.deliveries lease
          (settings.execute lease started finished outcome).1
          (settings.execute lease started finished outcome).2
        executions := s.executions.eraseIdx i }
      (fun d => if d.isLockedBy lease then
        ((settings.execute lease started finished outcome).1.apply d
          (settings.execute lease started finished outcome).2).getD d else d) [] [] := by
  refine stepped_of_map hn rfl (List.eraseIdx_sublist _ _) fun d _ => ?_
  split
  · rename_i hlocked
    cases hmark : (settings.execute lease started finished outcome).1.apply d
        (settings.execute lease started finished outcome).2 with
    | none => exact ⟨.kept _, rfl, rfl, rfl⟩
    | some d' =>
        have happlied := DeliveryMark.applied hmark
        exact ⟨.reported hlease hlocked hmark, happlied.id, happlied.same⟩
  · exact ⟨.kept _, rfl, rfl, rfl⟩

theorem stepped_ensureIntents {workspaceId runId now : ℕ}
    {intents : List (ℕ × ObservabilityDeliveryIntent)} {rows : List ObservabilityDelivery}
    (hn : (s.deliveries.map Deliveries.key).Nodup)
    (h : Deliveries.ensureIntents s.deliveries workspaceId runId now intents = some rows) :
    ∃ planned, Stepped settings s (.ensureIntents workspaceId runId now intents)
      { s with deliveries := rows } id planned [] := by
  obtain ⟨planned, rfl, hplanned, hn⟩ := Deliveries.ensureIntents_eq_some hn h
  exact ⟨planned, {
    deliveries := by rw [List.map_id]
    nodup := hn
    written := fun d _ => .kept _
    ofPlanned := hplanned
    executions := ⟨s.executions, List.Sublist.refl _, (List.append_nil _).symm⟩
    nodup_issued := List.nodup_nil
    ofIssued := fun _ hl => by cases hl
    counters := fun d _ => .inl ⟨rfl, rfl⟩ }⟩

section LeaseDue

variable (deliveries : List ObservabilityDelivery) (owner : String)
  (now leaseExpiresAt limit : ℕ) (locked : Deliveries.Locked)

/-- A delivery after the first query of `lease_due`. -/
def recoverIfExpired (d : ObservabilityDelivery) : ObservabilityDelivery :=
  if d.status.isHeld && d.isExpired now && !locked.recovery.contains d.id then d.recover now else d

/-- The deliveries that `lease_due` leases, as its first query leaves them. -/
def dueRows : List ObservabilityDelivery :=
  Deliveries.selectDue (deliveries.map (recoverIfExpired now locked)) now limit locked.due

/-- What `lease_due` makes of a delivery. -/
def leaseIfDue (d : ObservabilityDelivery) : ObservabilityDelivery :=
  if (dueRows deliveries now limit locked).any fun e => e.id == (recoverIfExpired now locked d).id
  then (recoverIfExpired now locked d).leaseTo owner leaseExpiresAt
  else recoverIfExpired now locked d

variable {deliveries owner now leaseExpiresAt limit locked} {d e : ObservabilityDelivery}

theorem recoverIfExpired_id : (recoverIfExpired now locked d).id = d.id := by
  rw [recoverIfExpired]
  split <;> rfl

theorem recoverIfExpired_counters : d.SameCounters (recoverIfExpired now locked d) := by
  rw [recoverIfExpired]
  split <;> exact ⟨rfl, rfl⟩

theorem nodup_recovered (hn : (deliveries.map Deliveries.key).Nodup) :
    ((deliveries.map (recoverIfExpired now locked)).map Deliveries.key).Nodup := by
  rw [map_key_map fun d _ => recoverIfExpired_id]
  exact hn

theorem mem_dueRows (h : e ∈ dueRows deliveries now limit locked) :
    ∃ d ∈ deliveries, e = recoverIfExpired now locked d ∧ e.status.isWaiting := by
  obtain ⟨hmem, hwaiting⟩ := Deliveries.mem_selectDue h
  obtain ⟨d, hd, rfl⟩ := List.mem_map.mp hmem
  exact ⟨d, hd, rfl, hwaiting⟩

/-- A delivery is leased when its own recovered row is due. -/
theorem leaseIfDue_cases (hn : (deliveries.map Deliveries.key).Nodup) (hd : d ∈ deliveries) :
    (recoverIfExpired now locked d ∈ dueRows deliveries now limit locked ∧
      leaseIfDue deliveries owner now leaseExpiresAt limit locked d =
        (recoverIfExpired now locked d).leaseTo owner leaseExpiresAt) ∨
    leaseIfDue deliveries owner now leaseExpiresAt limit locked d = recoverIfExpired now locked d := by
  rw [leaseIfDue]
  split
  · rename_i hany
    obtain ⟨e, he, hid⟩ := List.any_eq_true.mp hany
    obtain ⟨d', hd', rfl, -⟩ := mem_dueRows he
    have hkey : d'.id = d.id := by
      simpa only [beq_iff_eq, recoverIfExpired_id] using hid
    have hsame : d' = d := List.inj_on_of_nodup_map hn hd' hd hkey
    subst hsame
    exact .inl ⟨he, rfl⟩
  · exact .inr rfl

theorem leaseIfDue_of_mem (h : recoverIfExpired now locked d ∈ dueRows deliveries now limit locked) :
    leaseIfDue deliveries owner now leaseExpiresAt limit locked d =
      (recoverIfExpired now locked d).leaseTo owner leaseExpiresAt := by
  have hany : ((dueRows deliveries now limit locked).any fun e =>
      e.id == (recoverIfExpired now locked d).id) = true :=
    List.any_eq_true.mpr ⟨_, h, by rw [beq_self_eq_true]⟩
  rw [leaseIfDue, if_pos hany]

theorem written_leaseIfDue {workerId : String} (hn : (s.deliveries.map Deliveries.key).Nodup)
    {d : ObservabilityDelivery} (hd : d ∈ s.deliveries) :
    d.Written settings s (.leaseDue workerId now limit locked)
      (leaseIfDue s.deliveries owner now leaseExpiresAt limit locked d) := by
  have hrecovered : (recoverIfExpired now locked d = d) ∨
      (d.status.isHeld ∧ d.isExpired now ∧ d.id ∉ locked.recovery ∧
        recoverIfExpired now locked d = d.recover now) := by
    rw [recoverIfExpired]
    split
    · rename_i h
      simp only [Bool.and_eq_true, Bool.not_eq_true', List.contains_eq_mem,
        decide_eq_false_iff_not] at h
      exact .inr ⟨h.1.1, h.1.2, h.2, rfl⟩
    · exact .inl rfl
  have hcases := @leaseIfDue_cases s.deliveries owner now leaseExpiresAt limit locked d hn hd
  obtain ⟨hdue, heq⟩ | heq := hcases
  · obtain ⟨-, -, -, hwaiting⟩ := mem_dueRows hdue
    rw [heq]
    obtain hsame | ⟨hheld, hexpired, hfree, hsame⟩ := hrecovered
    · rw [hsame] at hwaiting ⊢
      exact .leased leaseExpiresAt hwaiting
    · rw [hsame]
      exact .retaken leaseExpiresAt hheld hexpired hfree
  · rw [heq]
    obtain hsame | ⟨hheld, hexpired, hfree, hsame⟩ := hrecovered
    · rw [hsame]
      exact .kept _
    · rw [hsame]
      exact .recovered hheld hexpired hfree

theorem sameCounters_or_leased (hn : (deliveries.map Deliveries.key).Nodup) (hd : d ∈ deliveries) :
    d.SameCounters (leaseIfDue deliveries owner now leaseExpiresAt limit locked d) ∨
    recoverIfExpired now locked d ∈ dueRows deliveries now limit locked := by
  have hcases := @leaseIfDue_cases deliveries owner now leaseExpiresAt limit locked d hn hd
  obtain ⟨hdue, -⟩ | heq := hcases
  · exact .inr hdue
  · rw [heq]
    exact .inl recoverIfExpired_counters

theorem leased_leaseIfDue (h : recoverIfExpired now locked d ∈ dueRows deliveries now limit locked) :
    d.Leased (leaseIfDue deliveries owner now leaseExpiresAt limit locked d) := by
  have hsame := @recoverIfExpired_counters now locked d
  rw [leaseIfDue_of_mem h]
  exact ⟨congrArg (· + 1) hsame.1, congrArg (· + 1) hsame.2⟩

theorem leaseDue_deliveries {leaseSeconds : ℕ} :
    (Deliveries.leaseDue deliveries owner now leaseSeconds limit locked).1 =
      deliveries.map
        (leaseIfDue deliveries owner now (now + leaseSeconds * 1000000) limit locked) := by
  simp only [Deliveries.leaseDue, Deliveries.recoverExpiredLeases, List.map_map]
  rfl

theorem stepped_leaseDue {workerId : String} {leaseSeconds : ℕ}
    (hn : (s.deliveries.map Deliveries.key).Nodup) :
    Stepped settings s (.leaseDue workerId now limit locked)
      { deliveries :=
          (Deliveries.leaseDue s.deliveries owner now leaseSeconds limit locked).1
        executions := s.executions ++
          (Deliveries.leaseDue s.deliveries owner now leaseSeconds limit locked).2 }
      (leaseIfDue s.deliveries owner now (now + leaseSeconds * 1000000) limit locked) []
      (Deliveries.leaseDue s.deliveries owner now leaseSeconds limit locked).2 where
  deliveries := by
    rw [List.append_nil]
    exact leaseDue_deliveries
  nodup := by
    rw [leaseDue_deliveries, map_key_map fun d hd =>
      (@written_leaseIfDue settings s owner now (now + leaseSeconds * 1000000) limit locked workerId
        hn d hd).id]
    exact hn
  written d hd := written_leaseIfDue hn hd
  ofPlanned _ hd := by cases hd
  executions := ⟨s.executions, List.Sublist.refl _, rfl⟩
  nodup_issued := by
    have hdue : ((dueRows s.deliveries now limit locked).map Deliveries.key).Nodup :=
      Deliveries.nodup_selectDue (nodup_recovered hn)
    simp only [Deliveries.leaseDue, List.map_map]
    exact hdue
  ofIssued lease hl := by
    obtain ⟨e, he, rfl⟩ := List.mem_map.mp hl
    obtain ⟨d, hd, rfl, -⟩ := mem_dueRows he
    refine ⟨d, hd, leased_leaseIfDue he, recoverIfExpired_id, ?_, ?_⟩
    · rw [leaseIfDue_of_mem he]
      rfl
    · rw [leaseIfDue_of_mem he]
      rfl
  counters d hd := by
    obtain hsame | hdue := @sameCounters_or_leased s.deliveries owner now
      (now + leaseSeconds * 1000000) limit locked d hn hd
    · exact .inl hsame
    · exact .inr ⟨leased_leaseIfDue hdue, _, List.mem_map_of_mem hdue, recoverIfExpired_id⟩

end LeaseDue

/-- Every step writes every delivery in one of the listed ways. -/
theorem stepped_of_step (hn : (s.deliveries.map Deliveries.key).Nodup)
    (h : step settings s label = some s') :
    ∃ f planned issued, Stepped settings s label s' f planned issued := by
  cases label with
  | ensureIntents workspaceId runId now intents =>
      obtain ⟨rows, hrows, rfl⟩ := Option.map_eq_some_iff.mp h
      obtain ⟨planned, hstepped⟩ := stepped_ensureIntents hn hrows
      exact ⟨_, _, _, hstepped⟩
  | leaseDue workerId now limit locked =>
      obtain ⟨_, -, h⟩ := Option.bind_eq_some_iff.mp h
      obtain ⟨owner, -, h⟩ := Option.bind_eq_some_iff.mp h
      cases h
      exact ⟨_, _, _, stepped_leaseDue hn⟩
  | execute i started finished outcome =>
      obtain ⟨lease, hlease, h⟩ := Option.bind_eq_some_iff.mp h
      cases h
      exact ⟨_, _, _, stepped_execute hn hlease⟩
  | abandon i =>
      obtain ⟨lease, -, h⟩ := Option.bind_eq_some_iff.mp h
      cases h
      exact ⟨id, _, _, stepped_of_map hn (List.map_id _).symm (List.eraseIdx_sublist _ _)
        fun d _ => ⟨.kept _, rfl, rfl, rfl⟩⟩
  | releaseOwnedLeases workerId now locked =>
      obtain ⟨owner, hvalid, h⟩ := Option.bind_eq_some_iff.mp h
      cases h
      exact ⟨_, _, _, stepped_releaseOwnedLeases hn hvalid⟩

end VerificationState

end CryptoAlert
