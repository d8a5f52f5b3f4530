import CryptoAlert.Observability.DeliveryWrites

/-!
# The discipline of fences and attempts

A report counts only under the fence of the last lease, so the invariants bound the fences in the
hands of workers by the fence of the row. Attempts are counted with the fence; they stay within
`max_attempts` as long as no lease of the last attempt is recovered or released.
-/

namespace CryptoAlert

open ObservabilityDelivery

/-- The invariant of all runs: attempts and leases are counted together, and no worker holds a
fence that the row has not reached. -/
structure VerificationState.Sound (s : VerificationState) : Prop where
  nodup : (s.deliveries.map Deliveries.key).Nodup
  counted : ∀ d ∈ s.deliveries, d.attemptCount = d.fenceToken
  reached : ∀ lease ∈ s.executions, lease.attemptCount = lease.fenceToken ∧
    ∃ d ∈ s.deliveries, d.id = lease.deliveryId ∧ lease.fenceToken ≤ d.fenceToken
  distinct : (s.executions.map fun lease => (lease.deliveryId, lease.fenceToken)).Nodup

section Step

variable {settings : VerificationSettings} {s s' : VerificationState} {label : VerificationLabel}
variable {f : ObservabilityDelivery → ObservabilityDelivery}
  {planned : List ObservabilityDelivery} {issued : List ObservabilityDeliveryLease}

theorem Stepped.mem_deliveries (h : Stepped settings s label s' f planned issued)
    {d : ObservabilityDelivery} (hd : d ∈ s.deliveries) : f d ∈ s'.deliveries := by
  rw [h.deliveries]
  exact List.mem_append_left _ (List.mem_map_of_mem hd)

theorem Stepped.fence_le (h : Stepped settings s label s' f planned issued)
    {d : ObservabilityDelivery} (hd : d ∈ s.deliveries) : d.fenceToken ≤ (f d).fenceToken := by
  obtain hsame | ⟨hleased, -⟩ := h.counters d hd
  · exact hsame.2.ge
  · rw [hleased.2]
    exact Nat.le_succ _

theorem Stepped.mem_executions (h : Stepped settings s label s' f planned issued)
    {lease : ObservabilityDeliveryLease} (hl : lease ∈ s'.executions) :
    lease ∈ s.executions ∨ lease ∈ issued := by
  obtain ⟨kept, hkept, heq⟩ := h.executions
  rw [heq] at hl
  obtain hl | hl := List.mem_append.mp hl
  · exact .inl (hkept.subset hl)
  · exact .inr hl

theorem Stepped.sound (h : Stepped settings s label s' f planned issued) (hs : s.Sound) :
    s'.Sound where
  nodup := h.nodup
  counted d hd := by
    rw [h.deliveries] at hd
    obtain hd | hd := List.mem_append.mp hd
    · obtain ⟨e, he, rfl⟩ := List.mem_map.mp hd
      have hcounted := hs.counted e he
      obtain ⟨hattempt, hfence⟩ | ⟨⟨hattempt, hfence⟩, -⟩ := h.counters e he
      · omega
      · omega
    · obtain ⟨hattempt, hfence, -, -⟩ := h.ofPlanned d hd
      omega
  reached lease hl := by
    obtain hl | hl := h.mem_executions hl
    · obtain ⟨hcounted, d, hd, hid, hle⟩ := hs.reached lease hl
      exact ⟨hcounted, f d, h.mem_deliveries hd, (h.written d hd).id.trans hid,
        hle.trans (h.fence_le hd)⟩
    · obtain ⟨d, hd, ⟨hattempt, hfence⟩, hid, hattempt', hfence'⟩ := h.ofIssued lease hl
      have hcounted := hs.counted d hd
      refine ⟨by omega, f d, h.mem_deliveries hd, (h.written d hd).id.trans hid.symm, hfence'.le⟩
  distinct := by
    obtain ⟨kept, hkept, heq⟩ := h.executions
    rw [heq, List.map_append, List.nodup_append]
    refine ⟨hs.distinct.sublist (hkept.map _), ?_, ?_⟩
    · have hids : ((issued.map fun lease => (lease.deliveryId, lease.fenceToken)).map
          Prod.fst).Nodup := by
        rw [List.map_map]
        exact h.nodup_issued
      exact hids.of_map
    · -- A new fence is above those that workers held for the same delivery.
      rintro _ hold _ hnew rfl
      obtain ⟨lease, hl, heq⟩ := List.mem_map.mp hold
      obtain ⟨new, hn, heq'⟩ := List.mem_map.mp hnew
      obtain ⟨-, d, hd, hid, hle⟩ := hs.reached lease (hkept.subset hl)
      obtain ⟨e, he, ⟨-, hfence⟩, hid', -, hfence'⟩ := h.ofIssued new hn
      have hpair := Prod.mk.injEq _ _ _ _ ▸ heq.trans heq'.symm
      have hsame : d = e :=
        List.inj_on_of_nodup_map hs.nodup hd he (hid.trans (hpair.1.trans hid'))
      subst hsame
      have := hpair.2
      omega

namespace VerificationState

theorem sound_init : init.Sound :=
  ⟨List.nodup_nil, fun _ h => absurd h List.not_mem_nil, fun _ h => absurd h List.not_mem_nil,
    List.nodup_nil⟩

theorem sound_of_step (h : step settings s label = some s') (hs : s.Sound) : s'.Sound := by
  obtain ⟨f, planned, issued, hstepped⟩ := stepped_of_step hs.nodup h
  exact hstepped.sound hs

theorem sound_of_reaches {ok : VerificationState → VerificationLabel → Prop}
    (h : Reaches (step settings) ok init s) : s.Sound :=
  h.invariant (fun _ _ _ _ hs hstep => sound_of_step hstep hs) sound_init

end VerificationState

/-- How the lease of a delivery ends: its worker reports under the fence that is the last one given
out, its worker is shut down, or it is over. -/
def EndsLease (s : VerificationState) (d : ObservabilityDelivery) : VerificationLabel → Prop
  | .execute i _ _ _ => ∃ lease, s.executions[i]? = some lease ∧ d.isLockedBy lease ∧
      ∀ other ∈ s.executions, other.deliveryId = d.id →
        other.fenceToken ≤ lease.fenceToken ∧
        (other.fenceToken = lease.fenceToken → other = lease)
  | .releaseOwnedLeases workerId _ _ =>
      ∃ owner, validateText workerId 255 = some owner ∧ d.leaseOwner = some owner
  | .leaseDue _ now _ _ => d.isExpired now
  | .ensureIntents _ _ _ _ | .abandon _ => False

/-- The discipline that a step keeps for a delivery. -/
structure Disciplined (s : VerificationState) (label : VerificationLabel) (s' : VerificationState)
    (d d' : ObservabilityDelivery) : Prop where
  absorbing : d.status.isFinal → d' = d
  holder : d' ≠ d → (d.status.isWaiting ∧ d.Leased d') ∨ (d.status.isHeld ∧ EndsLease s d label)
  counters : d.SameCounters d' ∨ (d.Leased d' ∧ ∃ lease ∈ s'.executions,
    lease.deliveryId = d.id ∧ lease.fenceToken = d'.fenceToken)
  leases : ∀ lease ∈ s'.executions, lease ∉ s.executions → lease.deliveryId = d.id →
    d.Leased d' ∧ lease.attemptCount = d'.attemptCount ∧ lease.fenceToken = d'.fenceToken

/-- A worker that may still write a delivery holds its latest fence, and holds it alone. -/
theorem VerificationState.Sound.latest (hs : s.Sound) {d : ObservabilityDelivery}
    {lease other : ObservabilityDeliveryLease} (hd : d ∈ s.deliveries) (hl : lease ∈ s.executions)
    (hlocked : d.isLockedBy lease) (ho : other ∈ s.executions) (hid : other.deliveryId = d.id) :
    other.fenceToken ≤ lease.fenceToken ∧ (other.fenceToken = lease.fenceToken → other = lease) := by
  obtain ⟨hlease, -, hfence, -⟩ := isLockedBy_iff.mp hlocked
  obtain ⟨-, e, he, hid', hle⟩ := hs.reached other ho
  have hsame : e = d := List.inj_on_of_nodup_map hs.nodup he hd (hid'.trans hid)
  subst hsame
  refine ⟨by omega, fun heq => ?_⟩
  exact List.inj_on_of_nodup_map hs.distinct ho hl
    (Prod.ext (hid.trans hlease) heq)

theorem ObservabilityDelivery.Written.absorbing {d d' : ObservabilityDelivery}
    (h : d.Written settings s label d') (hfinal : d.status.isFinal) : d' = d := by
  have hheld : ¬ d.status.isHeld := by
    intro hheld
    cases hstatus : d.status <;> simp [hstatus, DeliveryStatus.isHeld, DeliveryStatus.isFinal]
      at hheld hfinal
  cases h with
  | kept => rfl
  | leased _ waiting =>
      cases hstatus : d.status <;> simp [hstatus, DeliveryStatus.isWaiting, DeliveryStatus.isFinal]
        at waiting hfinal
  | recovered held | retaken _ held | released held => exact absurd held hheld
  | reported _ latest => exact absurd (isLockedBy_iff.mp latest).2.2.2 hheld

theorem ObservabilityDelivery.Written.holder {d d' : ObservabilityDelivery}
    (h : d.Written settings s label d') (hs : s.Sound) (hd : d ∈ s.deliveries) (hne : d' ≠ d) :
    (d.status.isWaiting ∧ d.Leased d') ∨ (d.status.isHeld ∧ EndsLease s d label) := by
  cases h with
  | kept => exact absurd rfl hne
  | leased _ waiting => exact .inl ⟨waiting, rfl, rfl⟩
  | recovered held expired | retaken _ held expired => exact .inr ⟨held, expired⟩
  | released held valid owned => exact .inr ⟨held, _, valid, owned⟩
  | reported holder latest =>
      have hmem := List.mem_of_getElem? holder
      exact .inr ⟨(isLockedBy_iff.mp latest).2.2.2, _, holder, latest,
        fun other ho hid => hs.latest hd hmem latest ho hid⟩

theorem Stepped.disciplined (h : Stepped settings s label s' f planned issued) (hs : s.Sound)
    {d : ObservabilityDelivery} (hd : d ∈ s.deliveries) : Disciplined s label s' d (f d) where
  absorbing := (h.written d hd).absorbing
  holder := (h.written d hd).holder hs hd
  counters := by
    obtain hsame | ⟨hleased, lease, hl, hid⟩ := h.counters d hd
    · exact .inl hsame
    · obtain ⟨e, he, -, hid', -, hfence⟩ := h.ofIssued lease hl
      have hsame : d = e := List.inj_on_of_nodup_map hs.nodup hd he (hid.symm.trans hid')
      subst hsame
      obtain ⟨kept, -, heq⟩ := h.executions
      exact .inr ⟨hleased, lease, heq ▸ List.mem_append_right _ hl, hid, hfence⟩
  leases lease hl hnew hid := by
    obtain hold | hl := h.mem_executions hl
    · exact absurd hold hnew
    · obtain ⟨e, he, hleased, hid', hattempt, hfence⟩ := h.ofIssued lease hl
      have hsame : d = e := List.inj_on_of_nodup_map hs.nodup hd he (hid.symm.trans hid')
      subst hsame
      exact ⟨hleased, hattempt, hfence⟩

/-- No lease of the last attempt is recovered or released. -/
def Undisturbed (settings : VerificationSettings) (s : VerificationState) :
    VerificationLabel → Prop
  | .leaseDue _ now _ locked => ∀ d ∈ s.deliveries, d.status.isHeld → d.isExpired now →
      d.id ∉ locked.recovery → d.attemptCount < settings.maxAttempts
  | .releaseOwnedLeases workerId _ locked => ∀ d ∈ s.deliveries, d.status.isHeld →
      d.leaseOwner = validateText workerId 255 → d.id ∉ locked →
      d.attemptCount < settings.maxAttempts
  | _ => True

instance (settings : VerificationSettings) (s : VerificationState) (label : VerificationLabel) :
    Decidable (Undisturbed settings s label) :=
  match label with
  | .leaseDue _ now _ locked => inferInstanceAs (Decidable (∀ d ∈ s.deliveries, d.status.isHeld →
      d.isExpired now → d.id ∉ locked.recovery → d.attemptCount < settings.maxAttempts))
  | .releaseOwnedLeases workerId _ locked => inferInstanceAs (Decidable (∀ d ∈ s.deliveries,
      d.status.isHeld → d.leaseOwner = validateText workerId 255 → d.id ∉ locked →
      d.attemptCount < settings.maxAttempts))
  | .ensureIntents _ _ _ _ | .execute _ _ _ _ | .abandon _ => inferInstanceAs (Decidable True)

/-- A delivery that waits has attempts left. -/
def WithinBudget (settings : VerificationSettings) (d : ObservabilityDelivery) : Prop :=
  d.attemptCount ≤ settings.maxAttempts ∧
    (d.status.isWaiting → d.attemptCount < settings.maxAttempts)

theorem ObservabilityDelivery.Written.withinBudget {d d' : ObservabilityDelivery}
    (h : d.Written settings s label d') (hs : s.Sound) (hd : d ∈ s.deliveries)
    (hok : Undisturbed settings s label) (hbudget : WithinBudget settings d) :
    WithinBudget settings d' := by
  cases h with
  | kept => exact hbudget
  | leased _ waiting =>
      refine ⟨hbudget.2 waiting, fun h => ?_⟩
      rw [leaseTo] at h
      split_ifs at h <;> cases h
  | recovered held expired free =>
      have hleft := hok d hd held expired free
      exact ⟨hleft.le, fun _ => hleft⟩
  | retaken _ held expired free =>
      exact ⟨hok d hd held expired free, fun h => by cases h⟩
  | released held valid owned free =>
      have hleft := hok d hd held (owned.trans valid.symm) free
      exact ⟨hleft.le, fun _ => hleft⟩
  | reported holder latest mark =>
      have happlied := DeliveryMark.applied mark
      refine ⟨happlied.same.1.trans_le hbudget.1, fun hwaiting => ?_⟩
      rw [happlied.status] at hwaiting
      have hleft := VerificationSettings.execute_waiting hwaiting
      have hlease := (hs.reached _ (List.mem_of_getElem? holder)).1
      have hfence := (isLockedBy_iff.mp latest).2.2.1
      have hcounted := hs.counted d hd
      have hsame := happlied.same.1
      omega

theorem Stepped.withinBudget (h : Stepped settings s label s' f planned issued) (hs : s.Sound)
    (hok : Undisturbed settings s label) (hbudget : ∀ d ∈ s.deliveries, WithinBudget settings d) :
    ∀ d ∈ s'.deliveries, WithinBudget settings d := by
  intro d hd
  rw [h.deliveries] at hd
  obtain hd | hd := List.mem_append.mp hd
  · obtain ⟨e, he, rfl⟩ := List.mem_map.mp hd
    exact (h.written e he).withinBudget hs he hok (hbudget e he)
  · have hzero := (h.ofPlanned d hd).1
    have hpos := settings.maxAttempts_pos
    exact ⟨by omega, fun _ => by omega⟩

namespace VerificationState

theorem withinBudget_of_reaches (h : Reaches (step settings) (Undisturbed settings) init s) :
    ∀ d ∈ s.deliveries, WithinBudget settings d := by
  refine h.invariant_of (I := Sound) (J := fun s => ∀ d ∈ s.deliveries, WithinBudget settings d)
    (fun _ _ _ _ hs hstep => sound_of_step hstep hs) ?_ sound_init
    fun _ hd => absurd hd List.not_mem_nil
  intro s label s' hok hs hbudget hstep
  obtain ⟨f, planned, issued, hstepped⟩ := stepped_of_step hs.nodup hstep
  exact hstepped.withinBudget hs hok hbudget

/-- Deliveries keep their discipline in all runs, and their budget in the runs in which no lease of
the last attempt is recovered or released. -/
theorem deliveries_disciplined (settings : VerificationSettings) :
    (∀ s label s', Reaches (step settings) anyStep init s → step settings s label = some s' →
      ∀ d ∈ s.deliveries, ∃ d' ∈ s'.deliveries, d'.id = d.id ∧ Disciplined s label s' d d') ∧
    ∀ s, Reaches (step settings) (Undisturbed settings) init s →
      ∀ d ∈ s.deliveries, d.attemptCount ≤ settings.maxAttempts := by
  constructor
  · intro s label s' hs hstep d hd
    have hsound := sound_of_reaches hs
    obtain ⟨f, planned, issued, hstepped⟩ := stepped_of_step hsound.nodup hstep
    exact ⟨f d, hstepped.mem_deliveries hd, (hstepped.written d hd).id,
      hstepped.disciplined hsound hd⟩
  · intro s hs d hd
    exact (withinBudget_of_reaches hs d hd).1

end VerificationState

end Step

section Runs

/-- Workers that give up after three attempts. -/
def plainVerification : VerificationSettings where
  verifiers := ["langsmith"]
  langsmithProject := "project"
  leaseSeconds := 30
  retryDelay := 5000000
  maxAttempts := 3
  langsmithProject_valid := by decide +kernel
  leaseSeconds_valid := by decide
  retryDelay_pos := by decide
  maxAttempts_pos := by decide

def plainIntent : ObservabilityDeliveryIntent where
  provider := "langsmith"
  eventType := "root_trace"
  eventVersion := 1
  deliveryKey := "delivery"
  correlationId := "correlation"
  status := "planned"
  sampled := true
  skipReason := none
  providerTraceId := none
  verificationDeadline := some 1000000000

/-- A lease at an instant. -/
def leaseAt (workerId : String) (now : ℕ) : VerificationLabel := .leaseDue workerId now 1 {}

/-- A report that the trace is there. -/
def verifiedAt (i now : ℕ) : VerificationLabel :=
  .execute i now now (.returned ⟨some "trace", .verified, "verified", none⟩)

namespace VerificationState

/-- The first lease is over when the second one is given out; its report comes late and changes
nothing. -/
theorem deliveries_disciplined_retaken :
    ∃ s : VerificationState, (∃ d ∈ s.deliveries, d.status = .verified ∧ d.attemptCount = 2) ∧
      ∀ d ∈ s.deliveries, d.attemptCount ≤ 3 := by
  have hrun : (runChecked (step plainVerification)
      (fun s label => decide (Undisturbed plainVerification s label)) init
      [.ensureIntents 1 2 0 [(3, plainIntent)], leaseAt "a" 1, leaseAt "b" 40000000,
        verifiedAt 0 41000000, verifiedAt 0 42000000]).any (fun s =>
      s.deliveries.any fun d => d.status == .verified && d.attemptCount == 2) = true := by
    decide +kernel
  obtain ⟨s, hs, hany⟩ := (Option.any_eq_true _ _).mp hrun
  obtain ⟨d, hd, hfound⟩ := List.any_eq_true.mp hany
  rw [Bool.and_eq_true, beq_iff_eq, beq_iff_eq] at hfound
  have hreaches := reaches_of_runChecked _ (fun _ _ h => of_decide_eq_true h) hs
  exact ⟨s, ⟨d, hd, hfound⟩, (deliveries_disciplined plainVerification).2 s hreaches⟩

/-- Four workers in turn lease the delivery and stop. -/
theorem deliveries_attempts_exceeded :
    ¬ ∀ (settings : VerificationSettings) (s : VerificationState),
      Reaches (step settings) anyStep init s →
      ∀ d ∈ s.deliveries, d.attemptCount ≤ settings.maxAttempts := by
  have hrun : (runLabels (step plainVerification) init
      [.ensureIntents 1 2 0 [(3, plainIntent)], leaseAt "a" 1, .abandon 0, leaseAt "b" 40000000,
        .abandon 0, leaseAt "c" 80000000, .abandon 0, leaseAt "d" 120000000]).any (fun s =>
      s.deliveries.any fun d => d.attemptCount == 4) = true := by
    decide +kernel
  obtain ⟨s, hs, hany⟩ := (Option.any_eq_true _ _).mp hrun
  obtain ⟨d, hd, hcount⟩ := List.any_eq_true.mp hany
  intro h
  have hle := h plainVerification s (reaches_of_runLabels _ hs) d hd
  rw [beq_iff_eq] at hcount
  have hmax : plainVerification.maxAttempts = 3 := rfl
  omega

end VerificationState

end Runs

end CryptoAlert
