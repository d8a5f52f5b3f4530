import CryptoAlert.Observability.VerificationSafety
import Mathlib.Data.List.Perm.Subperm
import Mathlib.Order.Interval.Finset.Nat

/-!
# The queries behind the attempts

A lease counts as an attempt when it is given out, and its worker compares the attempts with the
budget before it asks the provider. The history of the queries that were made is kept beside the
state, so that it can be compared with the attempts of the row.
-/

namespace CryptoAlert

open ObservabilityDelivery

namespace VerificationSettings

variable {settings : VerificationSettings} {lease : ObservabilityDeliveryLease} {now : ℕ}

/-- Whether `execute` gets to its call of `verify`. -/
def queries (settings : VerificationSettings) (lease : ObservabilityDeliveryLease) (now : ℕ) :
    Bool :=
  (settings.budgetError lease now).isNone && lease.eventType == "root_trace" &&
    lease.eventVersion == 1 && settings.verifiers.contains lease.provider && lease.hasValidRequest

theorem attemptCount_lt_of_budgetError (h : settings.budgetError lease now = none) :
    lease.attemptCount < settings.maxAttempts := by
  rw [budgetError] at h
  cases hdeadline : lease.verificationDeadline with
  | none =>
      rw [hdeadline] at h
      cases h
  | some deadline =>
      simp only [hdeadline] at h
      split_ifs at h with _ hcount
      omega

theorem attemptCount_ge_of_exhausted
    (h : settings.budgetError lease now = some "hosted_verification_attempts_exhausted") :
    settings.maxAttempts ≤ lease.attemptCount := by
  by_contra hlt
  rw [budgetError] at h
  cases hdeadline : lease.verificationDeadline with
  | none =>
      rw [hdeadline] at h
      exact absurd (Option.some.inj h) (by decide)
  | some deadline =>
      simp only [hdeadline, if_neg hlt] at h
      split_ifs at h with hover
      exact absurd (Option.some.inj h) (by decide)

/-- The budget is compared before the query. -/
theorem attemptCount_lt_of_queries (h : settings.queries lease now) :
    lease.attemptCount < settings.maxAttempts := by
  simp only [queries, Bool.and_eq_true, Option.isNone_iff_eq_none] at h
  exact attemptCount_lt_of_budgetError h.1.1.1.1

/-- A worker that asks for another attempt has asked the provider. -/
theorem queries_of_execute_waiting {started finished : ℕ} {outcome : VerifyOutcome}
    (h : (settings.execute lease started finished outcome).1.status.isWaiting) :
    settings.queries lease started := by
  unfold execute at h
  split at h
  · cases h
  · rename_i hbudget
    split_ifs at h with hevent hverifier hrequest
    · cases h
    · cases h
    · cases h
    · simp only [not_or, not_not, Bool.not_eq_true', Bool.not_eq_false] at hevent hverifier hrequest
      simp only [queries, hbudget, hevent, hverifier, hrequest, Option.isNone_none,
        beq_self_eq_true, Bool.and_self]

end VerificationSettings

/-- The workers together with what they have asked the providers. -/
structure QueryState where
  verification : VerificationState
  /-- The leases under which `verify` was called, in the order of the calls. -/
  asked : List ObservabilityDeliveryLease

inductive QueryLabel where
  | ofStep (label : VerificationLabel)
  /-- A worker stops after its query and before its report is committed. -/
  | stop (i started : ℕ)

namespace QueryLabel

/-- What happens to the deliveries and the leases. -/
def base : QueryLabel → VerificationLabel
  | ofStep label => label
  | stop i _ => .abandon i

/-- The leases whose workers end their turn. -/
def used (s : VerificationState) : QueryLabel → List ObservabilityDeliveryLease
  | ofStep (.execute i _ _ _) | ofStep (.abandon i) | stop i _ => s.executions[i]?.toList
  | ofStep _ => []

/-- The leases under which a step calls `verify`. -/
def asks (settings : VerificationSettings) (s : VerificationState) :
    QueryLabel → List ObservabilityDeliveryLease
  | ofStep (.execute i started _ _) | stop i started =>
      s.executions[i]?.toList.filter (settings.queries · started)
  | ofStep _ => []

end QueryLabel

namespace QueryState

def init : QueryState := ⟨.init, []⟩

variable (settings : VerificationSettings) (s : QueryState)

def step (label : QueryLabel) : Option QueryState :=
  (s.verification.step settings label.base).map
    fun verification => ⟨verification, s.asked ++ label.asks settings s.verification⟩

/-- How often a provider was asked for the trace of a delivery. -/
def queryCount (deliveryId : ℕ) : ℕ := s.asked.countP (·.deliveryId == deliveryId)

end QueryState

namespace QueryLabel

variable {settings : VerificationSettings} {s s' : VerificationState} {label : QueryLabel}
  {lease : ObservabilityDeliveryLease}

theorem asks_sublist_used : (label.asks settings s).Sublist (label.used s) := by
  cases label with
  | stop i started => exact List.filter_sublist
  | ofStep label =>
      cases label with
      | execute i started finished outcome => exact List.filter_sublist
      | ensureIntents | leaseDue | abandon | releaseOwnedLeases => exact List.nil_sublist _

theorem attemptCount_lt_of_mem_asks (h : lease ∈ label.asks settings s) :
    lease.attemptCount < settings.maxAttempts := by
  cases label with
  | stop i started =>
      exact VerificationSettings.attemptCount_lt_of_queries (List.mem_filter.mp h).2
  | ofStep label =>
      cases label with
      | execute i started finished outcome =>
          exact VerificationSettings.attemptCount_lt_of_queries (List.mem_filter.mp h).2
      | ensureIntents | leaseDue | abandon | releaseOwnedLeases => cases h

theorem subperm_eraseIdx (i : ℕ) :
    (s.executions[i]?.toList ++ s.executions.eraseIdx i).Subperm s.executions := by
  cases hlease : s.executions[i]? with
  | none =>
      rw [List.eraseIdx_of_length_le (List.getElem?_eq_none_iff.mp hlease)]
      exact List.Subperm.refl _
  | some lease =>
      obtain ⟨hi, rfl⟩ := List.getElem?_eq_some_iff.mp hlease
      exact (List.getElem_cons_eraseIdx_perm hi).subperm

theorem mem_executions_of_mem_used (h : lease ∈ label.used s) : lease ∈ s.executions := by
  cases label with
  | stop i started => exact List.mem_of_getElem? (Option.mem_toList.mp h)
  | ofStep label =>
      cases label with
      | execute i started finished outcome => exact List.mem_of_getElem? (Option.mem_toList.mp h)
      | abandon i => exact List.mem_of_getElem? (Option.mem_toList.mp h)
      | ensureIntents | leaseDue | releaseOwnedLeases => cases h

theorem mem_executions_of_mem_asks (h : lease ∈ label.asks settings s) : lease ∈ s.executions :=
  mem_executions_of_mem_used (asks_sublist_used.subset h)

/-- A turn that ends uses up its lease. -/
theorem exists_stepped (hn : (s.deliveries.map Deliveries.key).Nodup)
    (h : s.step settings label.base = some s') :
    ∃ f planned issued kept, Stepped settings s label.base s' f planned issued ∧
      s'.executions = kept ++ issued ∧ (label.used s ++ kept).Subperm s.executions := by
  have habandon : ∀ i, s.step settings (.abandon i) = some s' →
      ∃ f planned issued kept, Stepped settings s (.abandon i) s' f planned issued ∧
        s'.executions = kept ++ issued ∧
        (s.executions[i]?.toList ++ kept).Subperm s.executions := by
    intro i h
    obtain ⟨lease, -, h⟩ := Option.bind_eq_some_iff.mp h
    cases h
    exact ⟨id, _, _, _, VerificationState.stepped_of_map hn (List.map_id _).symm
      (List.eraseIdx_sublist _ _) fun d _ => ⟨.kept _, rfl, rfl, rfl⟩,
      (List.append_nil _).symm, subperm_eraseIdx i⟩
  cases label with
  | stop i started => exact habandon i h
  | ofStep label =>
      cases label with
      | abandon i => exact habandon i h
      | execute i started finished outcome =>
          obtain ⟨lease, hlease, h⟩ := Option.bind_eq_some_iff.mp h
          cases h
          exact ⟨_, _, _, _, VerificationState.stepped_execute hn hlease,
            (List.append_nil _).symm, subperm_eraseIdx i⟩
      | ensureIntents | leaseDue | releaseOwnedLeases =>
          obtain ⟨f, planned, issued, hstepped⟩ := VerificationState.stepped_of_step hn h
          obtain ⟨kept, hkept, heq⟩ := hstepped.executions
          exact ⟨f, planned, issued, kept, hstepped, heq, hkept.subperm⟩

end QueryLabel

namespace QueryState

variable {settings : VerificationSettings} {s s' : QueryState} {label : QueryLabel}
  {d : ObservabilityDelivery} {lease : ObservabilityDeliveryLease} {deliveryId : ℕ}

theorem step_eq_some (h : step settings s label = some s') :
    s.verification.step settings label.base = some s'.verification ∧
      s'.asked = s.asked ++ label.asks settings s.verification := by
  obtain ⟨verification, hstep, rfl⟩ := Option.map_eq_some_iff.mp h
  exact ⟨hstep, rfl⟩

/-- Every query has used up a lease of its own, which was not of the last attempt. -/
structure Counted (settings : VerificationSettings) (s : QueryState) : Prop where
  sound : s.verification.Sound
  distinct : ((s.asked ++ s.verification.executions).map
    fun lease => (lease.deliveryId, lease.fenceToken)).Nodup
  positive : ∀ lease ∈ s.asked ++ s.verification.executions, 0 < lease.attemptCount
  early : ∀ lease ∈ s.asked, lease.attemptCount < settings.maxAttempts
  reached : ∀ lease ∈ s.asked, lease.attemptCount = lease.fenceToken ∧
    ∃ d ∈ s.verification.deliveries, d.id = lease.deliveryId ∧ lease.fenceToken ≤ d.fenceToken

theorem counted_init : Counted settings init where
  sound := VerificationState.sound_init
  distinct := List.nodup_nil
  positive _ h := absurd h List.not_mem_nil
  early _ h := absurd h List.not_mem_nil
  reached _ h := absurd h List.not_mem_nil

theorem Counted.reached_of_mem (hs : Counted settings s)
    (h : lease ∈ s.asked ++ s.verification.executions) :
    lease.attemptCount = lease.fenceToken ∧ ∃ d ∈ s.verification.deliveries,
      d.id = lease.deliveryId ∧ lease.fenceToken ≤ d.fenceToken := by
  obtain h | h := List.mem_append.mp h
  · exact hs.reached lease h
  · exact hs.sound.reached lease h

theorem counted_of_step (h : step settings s label = some s') (hs : Counted settings s) :
    Counted settings s' := by
  obtain ⟨hstep, hasked⟩ := step_eq_some h
  have hsound := VerificationState.sound_of_step hstep hs.sound
  obtain ⟨f, planned, issued, kept, hstepped, hexecutions, hsub⟩ :=
    QueryLabel.exists_stepped hs.sound.nodup hstep
  have hold : (s.asked ++ label.asks settings s.verification ++ kept).Subperm
      (s.asked ++ s.verification.executions) := by
    rw [List.append_assoc]
    exact (List.subperm_append_left s.asked).mpr
      ((QueryLabel.asks_sublist_used.append_right kept).subperm.trans hsub)
  have hmem : ∀ {lease}, lease ∈ s'.asked ++ s'.verification.executions →
      lease ∈ s.asked ++ s.verification.executions ∨ lease ∈ issued := by
    intro lease hl
    rw [hasked, hexecutions, ← List.append_assoc] at hl
    obtain hl | hl := List.mem_append.mp hl
    · exact .inl (hold.subset hl)
    · exact .inr hl
  refine ⟨hsound, ?_, ?_, ?_, ?_⟩
  · rw [hasked, hexecutions, ← List.append_assoc, List.map_append, List.nodup_append]
    refine ⟨?_, ?_, ?_⟩
    · obtain ⟨leases, hperm, hleases⟩ := hold
      exact (hperm.map _).nodup_iff.mp (hs.distinct.sublist (hleases.map _))
    · have hids : ((issued.map fun lease => (lease.deliveryId, lease.fenceToken)).map
          Prod.fst).Nodup := by
        rw [List.map_map]
        exact hstepped.nodup_issued
      exact hids.of_map
    · -- A new fence is above those of all earlier leases of its delivery.
      rintro _ hfirst _ hnew rfl
      obtain ⟨lease, hl, heq⟩ := List.mem_map.mp hfirst
      obtain ⟨new, hn, heq'⟩ := List.mem_map.mp hnew
      obtain ⟨-, d, hd, hid, hle⟩ := hs.reached_of_mem (hold.subset hl)
      obtain ⟨e, he, ⟨-, hfence⟩, hid', -, hfence'⟩ := hstepped.ofIssued new hn
      have hpair := Prod.mk.injEq _ _ _ _ ▸ heq.trans heq'.symm
      have hsame : d = e :=
        List.inj_on_of_nodup_map hs.sound.nodup hd he (hid.trans (hpair.1.trans hid'))
      subst hsame
      have := hpair.2
      omega
  · intro lease hl
    obtain hl | hl := hmem hl
    · exact hs.positive lease hl
    · obtain ⟨e, he, ⟨hattempt, -⟩, -, hattempt', -⟩ := hstepped.ofIssued lease hl
      omega
  · intro lease hl
    rw [hasked] at hl
    obtain hl | hl := List.mem_append.mp hl
    · exact hs.early lease hl
    · exact QueryLabel.attemptCount_lt_of_mem_asks hl
  · intro lease hl
    have hwas : lease ∈ s.asked ++ s.verification.executions := by
      rw [hasked] at hl
      exact hold.subset (List.mem_append_left _ hl)
    obtain ⟨hcounted, d, hd, hid, hle⟩ := hs.reached_of_mem hwas
    exact ⟨hcounted, f d, hstepped.mem_deliveries hd, (hstepped.written d hd).id.trans hid,
      hle.trans (hstepped.fence_le hd)⟩

theorem counted_of_reaches {ok : QueryState → QueryLabel → Prop}
    (h : Reaches (step settings) ok init s) : Counted settings s :=
  h.invariant (fun _ _ _ _ hs hstep => counted_of_step hstep hs) counted_init

/-- The attempts of the queries of a delivery are different and below `max_attempts`. -/
theorem Counted.queryCount_lt (hs : Counted settings s) (deliveryId : ℕ) :
    s.queryCount deliveryId < settings.maxAttempts := by
  have hpos := settings.maxAttempts_pos
  let fences := (s.asked.filter (·.deliveryId == deliveryId)).map
    ObservabilityDeliveryLease.fenceToken
  have hnodup : fences.Nodup := by
    have hpairs : ((s.asked.filter (·.deliveryId == deliveryId)).map
        fun lease => (lease.deliveryId, lease.fenceToken)).Nodup :=
      hs.distinct.sublist ((List.filter_sublist.trans (List.sublist_append_left _ _)).map _)
    refine List.Nodup.map_on (fun lease hl other ho heq => ?_) hpairs.of_map
    obtain ⟨-, hid⟩ := List.mem_filter.mp hl
    obtain ⟨-, hid'⟩ := List.mem_filter.mp ho
    rw [beq_iff_eq] at hid hid'
    exact List.inj_on_of_nodup_map hpairs hl ho (Prod.ext (hid.trans hid'.symm) heq)
  have hsub : fences.toFinset ⊆ Finset.Ico 1 settings.maxAttempts := by
    intro fence hf
    obtain ⟨lease, hl, rfl⟩ := List.mem_map.mp (List.mem_toFinset.mp hf)
    have hl := (List.mem_filter.mp hl).1
    have hpositive := hs.positive lease (List.mem_append_left _ hl)
    have hearly := hs.early lease hl
    have hcounted := (hs.reached lease hl).1
    exact Finset.mem_Ico.mpr ⟨by omega, by omega⟩
  have hcard : s.queryCount deliveryId ≤ settings.maxAttempts - 1 := by
    calc s.queryCount deliveryId = fences.length := by
          rw [queryCount, List.countP_eq_length_filter, List.length_map]
      _ = fences.toFinset.card := (List.toFinset_card_of_nodup hnodup).symm
      _ ≤ (Finset.Ico 1 settings.maxAttempts).card := Finset.card_le_card hsub
      _ = settings.maxAttempts - 1 := Nat.card_Ico _ _
  omega

theorem Counted.queryCount_eq_zero (hs : Counted settings s)
    (h : ∀ d ∈ s.verification.deliveries, d.id ≠ deliveryId) : s.queryCount deliveryId = 0 := by
  refine List.countP_eq_zero.mpr fun lease hl hid => ?_
  obtain ⟨-, d, hd, hid', -⟩ := hs.reached lease hl
  exact h d hd (hid'.trans (eq_of_beq hid))

section Uncrashed

/-- No worker stops in the middle of a turn, and no lease is recovered or released. -/
def Uncrashed (s : QueryState) : QueryLabel → Prop
  | .stop _ _ | .ofStep (.abandon _) => False
  | .ofStep (.leaseDue _ now _ locked) => ∀ d ∈ s.verification.deliveries, d.status.isHeld →
      d.isExpired now → d.id ∈ locked.recovery
  | .ofStep (.releaseOwnedLeases workerId _ locked) => ∀ d ∈ s.verification.deliveries,
      d.status.isHeld → d.leaseOwner = validateText workerId 255 → d.id ∈ locked
  | .ofStep (.ensureIntents _ _ _ _) | .ofStep (.execute _ _ _ _) => True

instance (s : QueryState) (label : QueryLabel) : Decidable (Uncrashed s label) :=
  match label with
  | .stop _ _ | .ofStep (.abandon _) => inferInstanceAs (Decidable False)
  | .ofStep (.leaseDue _ now _ locked) => inferInstanceAs (Decidable
      (∀ d ∈ s.verification.deliveries, d.status.isHeld → d.isExpired now → d.id ∈ locked.recovery))
  | .ofStep (.releaseOwnedLeases workerId _ locked) => inferInstanceAs (Decidable
      (∀ d ∈ s.verification.deliveries, d.status.isHeld →
        d.leaseOwner = validateText workerId 255 → d.id ∈ locked))
  | .ofStep (.ensureIntents _ _ _ _) | .ofStep (.execute _ _ _ _) =>
      inferInstanceAs (Decidable True)

/-- In runs without crashes every attempt but that of the current lease has made its query. -/
structure Exact (settings : VerificationSettings) (s : QueryState) : Prop where
  held : ∀ lease ∈ s.verification.executions, ∃ d ∈ s.verification.deliveries,
    d.id = lease.deliveryId ∧ d.fenceToken = lease.fenceToken ∧ d.status.isHeld ∧
      s.queryCount d.id + 1 = d.attemptCount ∧ d.attemptCount ≤ settings.maxAttempts
  waiting : ∀ d ∈ s.verification.deliveries, d.status.isWaiting →
    s.queryCount d.id = d.attemptCount ∧ d.attemptCount < settings.maxAttempts

theorem exact_init : Exact settings init where
  held _ h := absurd h List.not_mem_nil
  waiting _ h := absurd h List.not_mem_nil

/-- A delivery that nobody asks about keeps its count. -/
theorem queryCount_of_step (h : step settings s label = some s')
    (hother : ∀ lease ∈ label.asks settings s.verification, lease.deliveryId ≠ deliveryId) :
    s'.queryCount deliveryId = s.queryCount deliveryId := by
  have hnone : (label.asks settings s.verification).countP (·.deliveryId == deliveryId) = 0 :=
    List.countP_eq_zero.mpr fun lease hl hid => hother lease hl (eq_of_beq hid)
  rw [queryCount, (step_eq_some h).2, List.countP_append, hnone]
  rfl

/-- The row of a lease that a worker holds. -/
theorem Exact.row (hx : Exact settings s) (hs : Counted settings s)
    (hl : lease ∈ s.verification.executions) (hd : d ∈ s.verification.deliveries)
    (hid : d.id = lease.deliveryId) :
    d.fenceToken = lease.fenceToken ∧ d.status.isHeld ∧
      s.queryCount d.id + 1 = d.attemptCount ∧ d.attemptCount ≤ settings.maxAttempts := by
  obtain ⟨e, he, hid', hrow⟩ := hx.held lease hl
  have hsame : e = d := List.inj_on_of_nodup_map hs.sound.nodup he hd (hid'.trans hid.symm)
  subst hsame
  exact hrow

theorem Exact.ne_of_waiting (hx : Exact settings s) (hs : Counted settings s)
    (hd : d ∈ s.verification.deliveries) (hwaiting : d.status.isWaiting)
    (hl : lease ∈ s.verification.executions) : lease.deliveryId ≠ d.id := by
  intro hid
  have hheld := (hx.row hs hl hd hid.symm).2.1
  cases hstatus : d.status <;> simp [hstatus, DeliveryStatus.isWaiting, DeliveryStatus.isHeld]
    at hwaiting hheld

/-- In runs without crashes a delivery is leased when it waits, and written again by the worker of
its lease. -/
theorem written_cases {d' : ObservabilityDelivery} (hok : Uncrashed s label)
    (hd : d ∈ s.verification.deliveries) (h : d.Written settings s.verification label.base d') :
    d' = d ∨
    (d.status.isWaiting ∧ ∃ owner leaseExpiresAt, d' = d.leaseTo owner leaseExpiresAt) ∨
    ∃ i started finished outcome lease, label = .ofStep (.execute i started finished outcome) ∧
      s.verification.executions[i]? = some lease ∧ d.isLockedBy lease ∧
      (settings.execute lease started finished outcome).1.apply d
        (settings.execute lease started finished outcome).2 = some d' := by
  cases label with
  | stop i started => exact hok.elim
  | ofStep label =>
      cases h with
      | kept => exact .inl rfl
      | leased leaseExpiresAt waiting => exact .inr (.inl ⟨waiting, _, leaseExpiresAt, rfl⟩)
      | recovered held expired free | retaken leaseExpiresAt held expired free =>
          exact absurd (hok d hd held expired) free
      | released held valid owned free =>
          exact absurd (hok d hd held (owned.trans valid.symm)) free
      | reported holder latest mark =>
          exact .inr (.inr ⟨_, _, _, _, _, rfl, holder, latest, mark⟩)

theorem isHeld_leaseTo (owner : String) (leaseExpiresAt : ℕ) :
    (d.leaseTo owner leaseExpiresAt).status.isHeld := by
  rw [leaseTo]
  split_ifs <;> rfl

theorem not_isWaiting_leaseTo (owner : String) (leaseExpiresAt : ℕ) :
    ¬ (d.leaseTo owner leaseExpiresAt).status.isWaiting := by
  rw [leaseTo]
  split_ifs <;> exact Bool.false_ne_true

/-- A worker that sends its delivery back has made the query of its attempt. -/
theorem queryCount_of_report {i started finished : ℕ} {outcome : VerifyOutcome}
    (h : step settings s (.ofStep (.execute i started finished outcome)) = some s')
    (hlease : s.verification.executions[i]? = some lease)
    (hwaiting : (settings.execute lease started finished outcome).1.status.isWaiting) :
    s'.queryCount lease.deliveryId = s.queryCount lease.deliveryId + 1 := by
  have hqueries := VerificationSettings.queries_of_execute_waiting hwaiting
  have hasks : (QueryLabel.ofStep (.execute i started finished outcome)).asks settings
      s.verification = [lease] := by
    simp only [QueryLabel.asks, hlease, Option.toList_some, List.filter_cons, hqueries, if_true,
      List.filter_nil]
  rw [queryCount, (step_eq_some h).2, hasks, List.countP_append, List.countP_singleton,
    beq_self_eq_true, if_pos rfl]
  rfl

theorem Exact.waiting_of_written {d' : ObservabilityDelivery} (hx : Exact settings s)
    (hs : Counted settings s) (hok : Uncrashed s label) (h : step settings s label = some s')
    (hd : d ∈ s.verification.deliveries) (hw : d.Written settings s.verification label.base d')
    (hwaiting : d'.status.isWaiting) :
    s'.queryCount d'.id = d'.attemptCount ∧ d'.attemptCount < settings.maxAttempts := by
  obtain rfl | ⟨-, owner, leaseExpiresAt, rfl⟩ |
    ⟨i, started, finished, outcome, lease, rfl, hlease, hlocked, hmark⟩ := written_cases hok hd hw
  · obtain ⟨hcount, hlt⟩ := hx.waiting _ hd hwaiting
    rw [queryCount_of_step h fun lease hl => hx.ne_of_waiting hs hd hwaiting
      (QueryLabel.mem_executions_of_mem_asks hl)]
    exact ⟨hcount, hlt⟩
  · exact absurd hwaiting (not_isWaiting_leaseTo owner leaseExpiresAt)
  · have happlied := DeliveryMark.applied hmark
    have hid := (isLockedBy_iff.mp hlocked).1
    obtain ⟨-, -, hcount, -⟩ := hx.row hs (List.mem_of_getElem? hlease) hd hid
    rw [happlied.status] at hwaiting
    have hlt := VerificationSettings.execute_waiting hwaiting
    have hattempt := (hs.sound.reached lease (List.mem_of_getElem? hlease)).1
    have hfence := (isLockedBy_iff.mp hlocked).2.2.1
    have hcounted := hs.sound.counted d hd
    have hquery := queryCount_of_report h hlease hwaiting
    rw [happlied.id, happlied.same.1, hid, hquery, ← hid]
    exact ⟨hcount, by omega⟩

/-- The worker of one lease of a delivery does not write for another. -/
theorem Exact.ne_of_used (hx : Exact settings s) (hs : Counted settings s)
    {kept : List ObservabilityDeliveryLease}
    (hsub : (label.used s.verification ++ kept).Subperm s.verification.executions)
    (hl : lease ∈ kept) {other : ObservabilityDeliveryLease}
    (ho : other ∈ label.used s.verification) : other.deliveryId ≠ lease.deliveryId := by
  intro hid
  obtain ⟨d, hd, hrow, hfence, -⟩ := hx.held lease (hsub.subset (List.mem_append_right _ hl))
  obtain ⟨hfence', -⟩ := hx.row hs (QueryLabel.mem_executions_of_mem_used ho) hd
    (hrow.trans hid.symm)
  obtain ⟨leases, hperm, hleases⟩ := hsub
  have hnodup := (hperm.map _).nodup_iff.mp (hs.sound.distinct.sublist (hleases.map _))
  rw [List.map_append, List.nodup_append] at hnodup
  exact hnodup.2.2 _ (List.mem_map_of_mem ho) _ (List.mem_map_of_mem hl)
    (Prod.ext hid (hfence'.symm.trans hfence))

theorem exact_of_step (hok : Uncrashed s label) (hs : Counted settings s)
    (hx : Exact settings s) (h : step settings s label = some s') : Exact settings s' := by
  obtain ⟨f, planned, issued, kept, hstepped, hexecutions, hsub⟩ :=
    QueryLabel.exists_stepped hs.sound.nodup (step_eq_some h).1
  constructor
  · intro lease hl
    rw [hexecutions] at hl
    obtain hl | hl := List.mem_append.mp hl
    · -- The worker goes on with its turn.
      obtain ⟨d, hd, hid, hfence, hheld, hcount, hle⟩ :=
        hx.held lease (hsub.subset (List.mem_append_right _ hl))
      have hother : ∀ other ∈ label.used s.verification, other.deliveryId ≠ d.id :=
        fun other ho => hid ▸ hx.ne_of_used hs hsub hl ho
      have hkept : f d = d := by
        obtain hsame | ⟨hwaiting, -⟩ |
          ⟨i, started, finished, outcome, other, rfl, hlease, hlocked, -⟩ :=
          written_cases hok hd (hstepped.written d hd)
        · exact hsame
        · exact absurd hid.symm (hx.ne_of_waiting hs hd hwaiting
            (hsub.subset (List.mem_append_right _ hl)))
        · exact absurd (isLockedBy_iff.mp hlocked).1.symm
            (hother other (Option.mem_toList.mpr hlease))
      have hmem := hstepped.mem_deliveries hd
      rw [hkept] at hmem
      rw [← queryCount_of_step h fun other ho =>
        hother other (QueryLabel.asks_sublist_used.subset ho)] at hcount
      exact ⟨d, hmem, hid, hfence, hheld, hcount, hle⟩
    · obtain ⟨d, hd, ⟨hattempt, -⟩, hid, -, hfence⟩ := hstepped.ofIssued lease hl
      obtain hsame | ⟨hwaiting, owner, leaseExpiresAt, heq⟩ |
        ⟨i, started, finished, outcome, other, rfl, -, -, hmark⟩ :=
        written_cases hok hd (hstepped.written d hd)
      · rw [hsame] at hattempt
        omega
      · obtain ⟨hcount, hlt⟩ := hx.waiting d hd hwaiting
        have hrow := (hstepped.written d hd).id
        rw [← queryCount_of_step h fun other ho => hx.ne_of_waiting hs hd hwaiting
          (QueryLabel.mem_executions_of_mem_asks ho)] at hcount
        refine ⟨f d, hstepped.mem_deliveries hd, hrow.trans hid.symm, hfence.symm, ?_, ?_, ?_⟩
        · rw [heq]
          exact isHeld_leaseTo owner leaseExpiresAt
        · rw [hrow]
          omega
        · omega
      · have hsame := (DeliveryMark.applied hmark).same.1
        omega
  · intro d hd hwaiting
    rw [hstepped.deliveries] at hd
    obtain hd | hd := List.mem_append.mp hd
    · obtain ⟨e, he, rfl⟩ := List.mem_map.mp hd
      exact hx.waiting_of_written hs hok h he (hstepped.written e he) hwaiting
    · -- A new row has a new id, so that nobody has asked about it.
      have hfresh : ∀ e ∈ s.verification.deliveries, e.id ≠ d.id := by
        have hnodup := hstepped.nodup
        rw [hstepped.deliveries, List.map_append, List.nodup_append] at hnodup
        intro e he hid
        exact hnodup.2.2 _ (List.mem_map_of_mem (List.mem_map_of_mem he)) _
          (List.mem_map_of_mem hd) ((hstepped.written e he).id.trans hid)
      have hzero := hs.queryCount_eq_zero hfresh
      have hpos := settings.maxAttempts_pos
      rw [queryCount_of_step h fun lease hl hid => ?_, hzero, (hstepped.ofPlanned d hd).1]
      · exact ⟨rfl, hpos⟩
      · obtain ⟨-, e, he, hid', -⟩ :=
          hs.sound.reached lease (QueryLabel.mem_executions_of_mem_asks hl)
        exact hfresh e he (hid'.trans hid)

theorem exact_of_reaches (h : Reaches (step settings) Uncrashed init s) : Exact settings s :=
  h.invariant_of (I := Counted settings) (J := Exact settings)
    (fun _ _ _ _ hs hstep => counted_of_step hstep hs)
    (fun _ _ _ hok hs hx hstep => exact_of_step hok hs hx hstep) counted_init exact_init

end Uncrashed

/-- No delivery is asked about `max_attempts` times. In runs without crashes the attempts are found
used up when one query less than `max_attempts` has been made. -/
theorem query_budget_unused (settings : VerificationSettings) :
    (∀ s, Reaches (step settings) anyStep init s → ∀ d ∈ s.verification.deliveries,
      s.queryCount d.id < settings.maxAttempts) ∧
    ∀ s, Reaches (step settings) Uncrashed init s → ∀ lease ∈ s.verification.executions,
      ∀ now, settings.budgetError lease now = some "hosted_verification_attempts_exhausted" →
        s.queryCount lease.deliveryId + 1 = settings.maxAttempts := by
  constructor
  · intro s hs d _
    exact (counted_of_reaches hs).queryCount_lt d.id
  · intro s hs lease hl now hexhausted
    have hcounted := counted_of_reaches hs
    obtain ⟨d, hd, hid, hfence, -, hcount, hle⟩ := (exact_of_reaches hs).held lease hl
    have hge := VerificationSettings.attemptCount_ge_of_exhausted hexhausted
    have hattempt := (hcounted.sound.reached lease hl).1
    have hrow := hcounted.sound.counted d hd
    rw [← hid]
    omega

/-- A report that the trace is not there. -/
def notVisibleAt (now : ℕ) : QueryLabel :=
  .ofStep (.execute 0 now now (.returned ⟨none, .notVisible, "not_visible", none⟩))

/-- The third lease of three ends without a query. -/
theorem exhausted_after_two_queries :
    ¬ ∀ (settings : VerificationSettings) (s : QueryState),
      Reaches (step settings) Uncrashed init s → ∀ d ∈ s.verification.deliveries,
      d.status = .failedTerminal →
      d.lastErrorCode = some "hosted_verification_attempts_exhausted" →
      s.queryCount d.id = settings.maxAttempts := by
  have hrun : (runChecked (step plainVerification) (fun s label => decide (Uncrashed s label)) init
      [.ofStep (.ensureIntents 1 2 0 [(3, plainIntent)]), .ofStep (leaseAt "a" 1), notVisibleAt 2,
        .ofStep (leaseAt "a" 6000000), notVisibleAt 6000001, .ofStep (leaseAt "a" 12000000),
        notVisibleAt 12000001]).any (fun s => s.verification.deliveries.any fun d =>
      d.status == .failedTerminal &&
        d.lastErrorCode == some "hosted_verification_attempts_exhausted" &&
        s.queryCount d.id == 2) = true := by
    decide +kernel
  obtain ⟨s, hs, hany⟩ := (Option.any_eq_true _ _).mp hrun
  obtain ⟨d, hd, hfound⟩ := List.any_eq_true.mp hany
  rw [Bool.and_eq_true, Bool.and_eq_true, beq_iff_eq, beq_iff_eq, beq_iff_eq] at hfound
  have hreaches := reaches_of_runChecked _ (fun _ _ h => of_decide_eq_true h) hs
  intro h
  have hcount := h plainVerification s hreaches d hd hfound.1.1 hfound.1.2
  have hmax : plainVerification.maxAttempts = 3 := rfl
  omega

end QueryState

end CryptoAlert
