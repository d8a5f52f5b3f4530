import CryptoAlert.Notifications.Moves

/-!
# The attempts of a notification

The attempts are numbered without gaps and counted on the row, a delivered notification stays as it
is, and after an unknown outcome there are no automatic attempts. The last fact rests on what a
worker may assume of the notification that it holds a lease on.
-/

namespace CryptoAlert

namespace Notification

variable {n n' n'' : Notification} {holder : Option NotificationLease} {lease : NotificationLease}

/-- The triggers of the attempts, oldest first. -/
def triggers (n : Notification) : List AttemptTrigger := n.attempts.map NotificationAttempt.trigger

def HasUnknown (n : Notification) : Prop := ∃ a ∈ n.attempts, a.result = .unknown

/-- The counters and the attempts agree, and an unknown outcome leaves only a manual resend. -/
structure Sound (n : Notification) : Prop where
  numbered : n.attempts.map NotificationAttempt.attemptNumber = List.range' 1 n.row.attemptCount
  bounded : n.row.attemptCount ≤ maxAttempts
  manual : n.triggers.count .manual ≤ 1
  pending : n.row.manualResend.isSome → .manual ∉ n.triggers
  active : n.row.status = .sending → ∃ a, n.activeAttempt = some a
  unknown : n.row.status = .unknown → n.HasUnknown
  resent : n.HasUnknown → n.row.status = .leased ∨ n.row.isWaiting → n.row.manualResend.isSome

/-- What the holder of a lease may assume of the notification. -/
structure Held (lease : NotificationLease) (n : Notification) : Prop where
  fence : lease.fenceToken ≤ n.row.fenceToken
  manual : lease.fenceToken = n.row.fenceToken → n.row.status = .leased →
    lease.trigger = .manual → n.row.manualResend.isSome
  automatic : lease.fenceToken = n.row.fenceToken → n.row.isHeld → lease.trigger = .automatic →
    ¬ n.HasUnknown

/-- What a notification keeps for the rest of a run. -/
structure Onward (n n' : Notification) : Prop where
  delivered : n.row.status = .delivered → n' = n
  unknown : n.HasUnknown → n'.HasUnknown
  triggers : ∃ l, n'.triggers = n.triggers ++ l ∧ (n.HasUnknown → ∀ t ∈ l, t = .manual)

theorem sound_planned (id tenantId workspaceId ownerUserId now : ℕ) :
    (planned id tenantId workspaceId ownerUserId now).Sound where
  numbered := rfl
  bounded := Nat.zero_le _
  manual := Nat.zero_le _
  pending h := by cases h
  active h := by cases h
  unknown h := by cases h
  resent h := by
    obtain ⟨a, ha, -⟩ := h
    cases ha

theorem mem_of_activeAttempt {a : NotificationAttempt} (h : n.activeAttempt = some a) :
    a ∈ n.attempts ∧ a.result = .sending := by
  have hfound := List.find?_some h
  simp only [Bool.and_eq_true, beq_iff_eq] at hfound
  exact ⟨List.mem_of_find?_eq_some h, hfound.2⟩

theorem Sound.nodup (h : n.Sound) : (n.attempts.map NotificationAttempt.attemptNumber).Nodup := by
  rw [h.numbered]
  exact List.nodup_range'

theorem length_of_numbered (h : n.Sound) : n.attempts.length = n.row.attemptCount := by
  have hlength := congrArg List.length h.numbered
  rwa [List.length_map, List.length_range'] at hlength

section PutAttempt

variable {a a' : NotificationAttempt}

theorem map_number_putAttempt (a' : NotificationAttempt) :
    (n.putAttempt a').map NotificationAttempt.attemptNumber =
      n.attempts.map NotificationAttempt.attemptNumber :=
  Table.map_key_put _ _

theorem map_trigger_putAttempt (h : n.Sound) (ha : a ∈ n.attempts)
    (hnumber : a'.attemptNumber = a.attemptNumber) (htrigger : a'.trigger = a.trigger) :
    (n.putAttempt a').map NotificationAttempt.trigger = n.triggers := by
  have hrows := Table.forall₂_put (R := fun a a' => a'.trigger = a.trigger) (fun _ => rfl)
    h.nodup ha hnumber htrigger
  exact Table.map_eq_of_forall₂ (fun _ _ h => h) hrows

/-- The exchanged attempt had no result, so an unknown one stays. -/
theorem hasUnknown_putAttempt (h : n.Sound) (ha : a ∈ n.attempts) (hresult : a.result = .sending)
    (hnumber : a'.attemptNumber = a.attemptNumber) (hunknown : n.HasUnknown) :
    ∃ b ∈ n.putAttempt a', b.result = .unknown := by
  obtain ⟨b, hb, hbresult⟩ := hunknown
  refine ⟨b, Table.mem_put_other hb ?_, hbresult⟩
  intro hkey
  have hsame : b = a := List.inj_on_of_nodup_map h.nodup hb ha (hkey.trans hnumber)
  rw [hsame, hresult] at hbresult
  cases hbresult

theorem hasUnknown_of_putAttempt (hresult : a'.result ≠ .unknown)
    (hunknown : ∃ b ∈ n.putAttempt a', b.result = .unknown) : n.HasUnknown := by
  obtain ⟨b, hb, hbresult⟩ := hunknown
  obtain ⟨hb, -⟩ | ⟨rfl, -⟩ := Table.mem_put.mp hb
  · exact ⟨b, hb, hbresult⟩
  · exact absurd hbresult hresult

end PutAttempt

/-- A write that resolves the active attempt. -/
structure Resolves (n n' : Notification) : Prop where
  status : n.row.status = .sending
  same : SameLease n n'
  attempt : ∃ a a', n.activeAttempt = some a ∧ a'.attemptNumber = a.attemptNumber ∧
    a'.trigger = a.trigger ∧ n'.attempts = n.putAttempt a' ∧
    (a'.result = .unknown ↔ n'.row.status = .unknown)

theorem resolves_lapsed (h : n.Sound) (now : ℕ) (reason : String) (hs : n.row.status = .sending) :
    Resolves n (n.setUnknown now n.activeAttempt reason) := by
  obtain ⟨a, ha⟩ := h.active hs
  have hattempts : (n.setUnknown now n.activeAttempt reason).attempts =
      n.putAttempt (a.withUnknown now reason) := by
    simp only [setUnknown, ha]
  exact ⟨hs, ⟨rfl, rfl, rfl, rfl⟩, a, a.withUnknown now reason, ha, rfl, rfl, hattempts,
    iff_of_true rfl rfl⟩

namespace Resolves

theorem triggers (hr : Resolves n n') (h : n.Sound) : n'.triggers = n.triggers := by
  obtain ⟨a, a', hactive, hnumber, htrigger, hattempts, -⟩ := hr.attempt
  rw [Notification.triggers, hattempts]
  exact map_trigger_putAttempt h (mem_of_activeAttempt hactive).1 hnumber htrigger

theorem hasUnknown (hr : Resolves n n') (h : n.Sound) (hunknown : n.HasUnknown) :
    n'.HasUnknown := by
  obtain ⟨a, a', hactive, hnumber, -, hattempts, -⟩ := hr.attempt
  obtain ⟨hmem, hresult⟩ := mem_of_activeAttempt hactive
  rw [HasUnknown, hattempts]
  exact hasUnknown_putAttempt h hmem hresult hnumber hunknown

theorem hasUnknown_of_status (hr : Resolves n n') (hs : n'.row.status = .unknown) :
    n'.HasUnknown := by
  obtain ⟨a, a', hactive, hnumber, -, hattempts, hunknown⟩ := hr.attempt
  refine ⟨a', ?_, hunknown.mpr hs⟩
  rw [hattempts]
  exact Table.mem_put_self (mem_of_activeAttempt hactive).1 hnumber.symm

theorem hasUnknown_of (hr : Resolves n n') (hs : n'.row.status ≠ .unknown)
    (hunknown : n'.HasUnknown) : n.HasUnknown := by
  obtain ⟨a, a', -, -, -, hattempts, hiff⟩ := hr.attempt
  rw [HasUnknown, hattempts] at hunknown
  exact hasUnknown_of_putAttempt (fun h => hs (hiff.mp h)) hunknown

/-- Where the notification waits again, it is for lack of an unknown outcome. -/
theorem sound (hr : Resolves n n') (h : n.Sound)
    (hended : n'.row.status = .unknown ∨ n'.row.status = .delivered ∨
      n'.row.status = .failedTerminal ∨ (n'.row.status = .failedRetryable ∧ ¬ n.HasUnknown)) :
    n'.Sound where
  numbered := by
    obtain ⟨a, a', -, -, -, hattempts, -⟩ := hr.attempt
    rw [hattempts, map_number_putAttempt, hr.same.attemptCount]
    exact h.numbered
  bounded := by
    rw [hr.same.attemptCount]
    exact h.bounded
  manual := by
    rw [hr.triggers h]
    exact h.manual
  pending := by
    rw [hr.same.manualResend, hr.triggers h]
    exact h.pending
  active hs := by
    rw [hs] at hended
    simp at hended
  unknown := hr.hasUnknown_of_status
  resent hunknown hs := by
    obtain he | he | he | ⟨he, hnone⟩ := hended
    · simp [NotificationOutbox.isWaiting, he] at hs
    · simp [NotificationOutbox.isWaiting, he] at hs
    · simp [NotificationOutbox.isWaiting, he] at hs
    · refine absurd (hr.hasUnknown_of ?_ hunknown) hnone
      rw [he]
      decide

end Resolves

/-- A write that touches neither attempts nor counters. -/
theorem Sound.of_same (h : n.Sound) (same : SameLease n n') (attempts : n'.attempts = n.attempts)
    (hended : n'.row.status = .failedTerminal ∨ (n'.row.status = .failedRetryable ∧
      (n.row.status = .leased ∨ n.row.isWaiting))) : n'.Sound where
  numbered := by
    rw [attempts, same.attemptCount]
    exact h.numbered
  bounded := by
    rw [same.attemptCount]
    exact h.bounded
  manual := by
    rw [triggers, attempts]
    exact h.manual
  pending := by
    rw [same.manualResend, triggers, attempts]
    exact h.pending
  active hs := by
    rw [hs] at hended
    simp at hended
  unknown hs := by
    rw [hs] at hended
    simp at hended
  resent hunknown hs := by
    rw [HasUnknown, attempts] at hunknown
    rw [same.manualResend]
    obtain he | ⟨-, hwaiting⟩ := hended
    · simp [NotificationOutbox.isWaiting, he] at hs
    · exact h.resent hunknown hwaiting

theorem Sound.requested (h : n.Sound) {resend : ManualResend}
    (hattempts : ∀ a ∈ n.attempts, a.trigger ≠ .manual) :
    ({ n with row := { n.row with manualResend := some resend } } : Notification).Sound where
  numbered := h.numbered
  bounded := h.bounded
  manual := h.manual
  pending _ := by
    intro hmem
    obtain ⟨a, ha, htrigger⟩ := List.mem_map.mp hmem
    exact hattempts a ha htrigger
  active hs := h.active hs
  unknown := h.unknown
  resent _ _ := rfl

theorem Sound.claimed (h : n.Sound) {trigger : AttemptTrigger} (hc : n.Claimable trigger)
    (now : ℕ) (w : OutboxWorker) : (n.claim now w).Sound where
  numbered := h.numbered
  bounded := h.bounded
  manual := h.manual
  pending := h.pending
  active hs := by cases hs
  unknown hs := by cases hs
  resent hunknown _ := by
    cases trigger with
    | manual => exact hc.2
    | automatic => exact h.resent hunknown (.inr hc.1)

theorem hasUnknown_append {a : NotificationAttempt} (hattempts : n'.attempts = n.attempts ++ [a])
    (hresult : a.result = .sending) : n'.HasUnknown ↔ n.HasUnknown := by
  rw [HasUnknown, HasUnknown, hattempts]
  simp [hresult]

theorem Sound.marked (h : n.Sound) (hheld : n.Held lease) {now : ℕ}
    (hs : n.row.status = .leased) (hcount : n.row.attemptCount < maxAttempts)
    (hmark : n.markSending now lease = some n') : n'.Sound := by
  obtain ⟨-, hfence, hsending, howner, hcurrent, hnext, hresend, a, hattempts, hnumber, haowner,
    hafence, hatrigger, haresult⟩ := eq_of_markSending hmark
  have hlength := length_of_numbered h
  have htriggers : n'.triggers = n.triggers ++ [a.trigger] := by
    rw [triggers, hattempts, List.map_append]
    rfl
  refine ⟨?_, ?_, ?_, ?_, ?_, ?_, ?_⟩
  · rw [hattempts, List.map_append, h.numbered, hnext, List.range'_concat, List.map_singleton,
      hnumber, Nat.one_mul, Nat.add_comm]
  · omega
  · -- A manual attempt is the first one, since a manual resend was pending.
    rw [htriggers, List.count_append]
    cases htrigger : lease.trigger with
    | automatic =>
        rw [hatrigger, htrigger]
        exact h.manual
    | manual =>
        have hpending := h.pending (hheld.manual hcurrent.symm hs htrigger)
        rw [List.count_eq_zero.mpr hpending, hatrigger, htrigger]
        decide
  · intro hsome
    rw [hresend] at hsome
    split_ifs at hsome with hmanual
    · cases hsome
    rw [htriggers, List.mem_append, not_or]
    refine ⟨h.pending hsome, ?_⟩
    rw [hatrigger, List.mem_singleton]
    exact fun heq => hmanual heq.symm
  · intro _
    refine ⟨a, ?_⟩
    have hothers : ∀ b ∈ n.attempts, b.attemptNumber ≠ n'.row.attemptCount := by
      intro b hb heq
      have hmem := List.mem_map_of_mem (f := NotificationAttempt.attemptNumber) hb
      rw [h.numbered, List.mem_range'_1] at hmem
      omega
    rw [activeAttempt, hattempts, List.find?_append]
    have hnone : n.attempts.find? (fun b => b.attemptNumber == n'.row.attemptCount &&
        some b.owner == n'.row.leaseOwner && b.fenceToken == n'.row.fenceToken &&
        b.result == .sending) = none := by
      rw [List.find?_eq_none]
      intro b hb
      simp [hothers b hb]
    rw [hnone, Option.none_or]
    simp [hnumber, hnext, haowner, howner, hafence, hfence, hcurrent, haresult]
  · intro hs
    rw [hsending] at hs
    cases hs
  · intro _ hs
    simp [NotificationOutbox.isWaiting, hsending] at hs

theorem Move.sound (hmove : n.Move holder n') (h : n.Sound)
    (hheld : ∀ lease ∈ holder, n.Held lease) : n'.Sound := by
  cases hmove with
  | released hs same attempts ended =>
      exact h.of_same same attempts (ended.symm.imp_right fun he => ⟨he, .inl hs⟩)
  | overdue hs same attempts ended => exact h.of_same same attempts (.inl ended)
  | lapsed _ now reason locked hs => exact (resolves_lapsed h now reason hs).sound h (.inl rfl)
  | requested resend hs hnone hattempts => exact h.requested hattempts
  | claimed now w trigger hc => exact h.claimed hc now w
  | marked now lease locked hs count mark => exact h.marked (hheld lease rfl) hs count mark
  | resolved lease a a' locked hs same active number trigger attempts unknown ended =>
      have hr : Resolves n n' := ⟨hs, same, a, a', active, number, trigger, attempts, unknown⟩
      refine hr.sound h (ended.imp_right (Or.imp_right (Or.imp_right ?_)))
      rintro ⟨he, hautomatic⟩
      rw [Notification.isLockedBy, Bool.and_eq_true, beq_iff_eq, beq_iff_eq] at locked
      refine ⟨he, (hheld lease rfl).automatic locked.2.symm ?_ hautomatic⟩
      rw [NotificationOutbox.isHeld, hs]
      rfl

/-- A write that leaves no lease under the fence of the notification. -/
theorem Held.of_idle (h : n.Held lease) (hfence : n'.row.fenceToken = n.row.fenceToken)
    (hidle : n'.row.isHeld = false) : n'.Held lease where
  fence := by
    rw [hfence]
    exact h.fence
  manual _ hs := by
    rw [NotificationOutbox.isHeld, hs] at hidle
    cases hidle
  automatic _ hs := by
    rw [hidle] at hs
    cases hs

theorem Held.move (h : n.Held lease) (hmove : n.Move holder n') : n'.Held lease := by
  cases hmove with
  | released hs same attempts ended =>
      apply h.of_idle same.fenceToken
      obtain he | he := ended <;> simp [NotificationOutbox.isHeld, he]
  | overdue hs same attempts ended =>
      apply h.of_idle same.fenceToken
      simp [NotificationOutbox.isHeld, ended]
  | lapsed _ now reason locked hs => exact h.of_idle rfl rfl
  | requested resend hs hnone hattempts => exact ⟨h.fence, fun _ _ _ => rfl, h.automatic⟩
  | claimed now w trigger hc =>
      -- The claim counts the fence up, so older leases are over.
      have hfence : lease.fenceToken < (n.claim now w).row.fenceToken := Nat.lt_succ_of_le h.fence
      exact ⟨hfence.le, fun heq => absurd heq hfence.ne, fun heq => absurd heq hfence.ne⟩
  | marked now lease' locked hs count mark =>
      obtain ⟨-, hfence, hsending, -, -, -, -, a, hattempts, -, -, -, -, haresult⟩ :=
        eq_of_markSending mark
      refine ⟨?_, ?_, ?_⟩
      · rw [hfence]
        exact h.fence
      · intro _ hs'
        rw [hsending] at hs'
        cases hs'
      · intro heq _ hautomatic
        rw [hasUnknown_append hattempts haresult]
        refine h.automatic (heq.trans hfence) ?_ hautomatic
        rw [NotificationOutbox.isHeld, hs]
        rfl
  | resolved lease' a a' locked hs same active number trigger attempts unknown ended =>
      apply h.of_idle same.fenceToken
      obtain he | he | he | ⟨he, -⟩ := ended <;> simp [NotificationOutbox.isHeld, he]

/-- What a new lease may assume. -/
theorem held_claim (h : n.Sound) {trigger : AttemptTrigger} (hc : n.Claimable trigger) (now : ℕ)
    (w : OutboxWorker) (requestedBy : Option String) :
    (n.claim now w).Held (n.row.leaseOf now w trigger requestedBy) where
  fence := le_rfl
  manual _ _ htrigger := by
    change trigger = .manual at htrigger
    subst htrigger
    exact hc.2
  automatic _ _ htrigger := by
    change trigger = .automatic at htrigger
    subst htrigger
    intro hunknown
    have hsome := h.resent hunknown (.inr hc.1)
    rw [hc.2] at hsome
    cases hsome

theorem Onward.refl (n : Notification) : n.Onward n :=
  ⟨fun _ => rfl, id, [], (List.append_nil _).symm, fun _ _ h => absurd h List.not_mem_nil⟩

theorem Onward.trans (h : n.Onward n') (h' : n'.Onward n'') : n.Onward n'' := by
  obtain ⟨l, hl, hmanual⟩ := h.triggers
  obtain ⟨l', hl', hmanual'⟩ := h'.triggers
  refine ⟨?_, fun hu => h'.unknown (h.unknown hu), l ++ l', ?_, ?_⟩
  · intro hs
    have heq := h.delivered hs
    rw [heq] at h'
    exact h'.delivered hs
  · rw [hl', hl, List.append_assoc]
  · intro hu t ht
    obtain ht | ht := List.mem_append.mp ht
    · exact hmanual hu t ht
    · exact hmanual' (h.unknown hu) t ht

/-- A write that makes no attempt. -/
theorem onward_of_triggers (hs : n.row.status ≠ .delivered)
    (hunknown : n.HasUnknown → n'.HasUnknown) (htriggers : n'.triggers = n.triggers) :
    n.Onward n' :=
  ⟨fun h => absurd h hs, hunknown, [], by rw [htriggers, List.append_nil],
    fun _ _ h => absurd h List.not_mem_nil⟩

theorem onward_of_attempts (hs : n.row.status ≠ .delivered)
    (hattempts : n'.attempts = n.attempts) : n.Onward n' := by
  apply onward_of_triggers hs
  · rw [HasUnknown, HasUnknown, hattempts]
    exact id
  · rw [triggers, triggers, hattempts]

theorem Resolves.onward (hr : Resolves n n') (h : n.Sound) : n.Onward n' := by
  refine onward_of_triggers ?_ (hr.hasUnknown h) (hr.triggers h)
  rw [hr.status]
  decide

theorem status_ne_delivered_of_isWaiting (h : n.row.isWaiting) : n.row.status ≠ .delivered := by
  intro hs
  simp [NotificationOutbox.isWaiting, hs] at h

theorem status_ne_delivered_of_isResendable (h : n.row.isResendable) :
    n.row.status ≠ .delivered := by
  intro hs
  simp [NotificationOutbox.isResendable, hs] at h

theorem Move.onward (hmove : n.Move holder n') (h : n.Sound)
    (hheld : ∀ lease ∈ holder, n.Held lease) : n.Onward n' := by
  cases hmove with
  | released hs same attempts ended =>
      refine onward_of_attempts ?_ attempts
      rw [hs]
      decide
  | overdue hs same attempts ended =>
      exact onward_of_attempts (status_ne_delivered_of_isWaiting hs) attempts
  | lapsed _ now reason locked hs => exact (resolves_lapsed h now reason hs).onward h
  | requested resend hs hnone hattempts =>
      exact onward_of_attempts (status_ne_delivered_of_isResendable hs) rfl
  | claimed now w trigger hc =>
      refine onward_of_attempts ?_ rfl
      cases trigger with
      | manual => exact status_ne_delivered_of_isResendable hc.1
      | automatic => exact status_ne_delivered_of_isWaiting hc.1
  | marked now lease locked hs count mark =>
      obtain ⟨-, -, -, -, hcurrent, -, -, a, hattempts, -, -, -, hatrigger, haresult⟩ :=
        eq_of_markSending mark
      refine ⟨fun hd => absurd (hd.symm.trans hs) (by decide),
        (hasUnknown_append hattempts haresult).mpr, [a.trigger], ?_, ?_⟩
      · rw [triggers, hattempts, List.map_append]
        rfl
      · intro hu t ht
        rw [List.mem_singleton] at ht
        rw [ht, hatrigger]
        cases htrigger : lease.trigger with
        | manual => rfl
        | automatic =>
            refine absurd hu ((hheld lease rfl).automatic hcurrent.symm ?_ htrigger)
            rw [NotificationOutbox.isHeld, hs]
            rfl
  | resolved lease a a' locked hs same active number trigger attempts unknown ended =>
      have hr : Resolves n n' := ⟨hs, same, a, a', active, number, trigger, attempts, unknown⟩
      exact hr.onward h

/-- What becomes of a notification in a run: its leases and its history stay valid. -/
structure Follows (n n' : Notification) : Prop where
  id : n'.row.id = n.row.id
  sound : n'.Sound
  held : ∀ lease, n.Held lease → n'.Held lease
  onward : n.Onward n'

theorem Follows.refl (h : n.Sound) : n.Follows n := ⟨rfl, h, fun _ h => h, .refl n⟩

theorem Move.follows (hmove : n.Move holder n') (h : n.Sound)
    (hheld : ∀ lease ∈ holder, n.Held lease) : n.Follows n' :=
  ⟨hmove.id, hmove.sound h hheld, fun _ hl => hl.move hmove, hmove.onward h hheld⟩

end Notification

namespace OutboxState

variable {ρ : Type} {adapter : NotificationAdapter ρ} {s₀ s t : OutboxState ρ} {n n' : Notification}

structure Sound (s : OutboxState ρ) : Prop where
  keyed : (s.notifications.map key).Nodup
  sound : ∀ n ∈ s.notifications, n.Sound
  served : ∀ d ∈ s.dispatches, ∃ n, s.Serves d n
  held : ∀ d ∈ s.dispatches, ∀ n, s.Serves d n → n.Held d.lease

/-- The state is sound, and every notification of the first state is still there. -/
structure Lasting (s₀ s : OutboxState ρ) : Prop where
  sound : s.Sound
  onward : ∀ n ∈ s₀.notifications, ∃ n' ∈ s.notifications, n'.row.id = n.row.id ∧ n.Onward n'

theorem sound_init : (init : OutboxState ρ).Sound :=
  ⟨List.nodup_nil, fun _ h => absurd h List.not_mem_nil, fun _ h => absurd h List.not_mem_nil,
    fun _ h => absurd h List.not_mem_nil⟩

theorem Sound.lasting (h : s.Sound) : s.Lasting s :=
  ⟨h, fun n hn => ⟨n, hn, rfl, .refl n⟩⟩

theorem Sound.eq_of_id (h : s.Sound) (hn : n ∈ s.notifications) (hn' : n' ∈ s.notifications)
    (hid : n'.row.id = n.row.id) : n' = n :=
  List.inj_on_of_nodup_map h.keyed hn' hn hid

/-- A write under the lease of a dispatch. -/
theorem Sound.follows (h : s.Sound) {i : ℕ} {d : Dispatch ρ} (hd : s.dispatches[i]? = some d)
    (hserves : s.Serves d n) (hmove : n.Move (some d.lease) n') : n.Follows n' := by
  refine hmove.follows (h.sound n hserves.1) fun lease hl => ?_
  cases hl
  exact h.held d (List.mem_of_getElem? hd) n hserves

namespace Lasting

theorem map (h : s₀.Lasting s) {f : Notification → Notification}
    (hf : ∀ n ∈ s.notifications, n.Follows (f n)) :
    s₀.Lasting { s with notifications := s.notifications.map f } := by
  refine ⟨⟨?_, ?_, ?_, ?_⟩, ?_⟩
  · have hkeys : (s.notifications.map f).map key = s.notifications.map key := by
      rw [List.map_map]
      exact List.map_congr_left fun n hn => (hf n hn).id
    dsimp only
    rw [hkeys]
    exact h.sound.keyed
  · intro m hm
    obtain ⟨n, hn, rfl⟩ := List.mem_map.mp hm
    exact (hf n hn).sound
  · intro d hd
    obtain ⟨n, hn, hid⟩ := h.sound.served d hd
    exact ⟨f n, List.mem_map_of_mem hn, (hf n hn).id.trans hid⟩
  · rintro d hd m ⟨hm, hid⟩
    obtain ⟨n, hn, rfl⟩ := List.mem_map.mp hm
    exact (hf n hn).held _ (h.sound.held d hd n ⟨hn, (hf n hn).id.symm.trans hid⟩)
  · intro n₀ hn₀
    obtain ⟨n, hn, hid, honward⟩ := h.onward n₀ hn₀
    exact ⟨f n, List.mem_map_of_mem hn, (hf n hn).id.trans hid, honward.trans (hf n hn).onward⟩

theorem write (h : s₀.Lasting s) (hn : n ∈ s.notifications) (hfollows : n.Follows n') :
    s₀.Lasting (s.write (some n')) := by
  refine h.map fun m hm => ?_
  by_cases hkey : key m = key n'
  · have hsame : m = n := h.sound.eq_of_id hn hm (hkey.trans hfollows.id)
    rw [if_pos hkey, hsame]
    exact hfollows
  · rw [if_neg hkey]
    exact .refl (h.sound.sound m hm)

theorem setDispatch (h : s₀.Lasting s) {i : ℕ} {d d' : Dispatch ρ} (hd : s.dispatches[i]? = some d)
    (hlease : d'.lease = d.lease) : s₀.Lasting (s.setDispatch i d') := by
  have hmem := List.mem_of_getElem? hd
  refine ⟨⟨h.sound.keyed, h.sound.sound, ?_, ?_⟩, h.onward⟩
  · intro e he
    obtain he | rfl := List.mem_or_eq_of_mem_set he
    · exact h.sound.served e he
    · obtain ⟨n, hn, hid⟩ := h.sound.served d hmem
      exact ⟨n, hn, hid.trans (congrArg _ hlease.symm)⟩
  · rintro e he m ⟨hm, hid⟩
    obtain he | rfl := List.mem_or_eq_of_mem_set he
    · exact h.sound.held e he m ⟨hm, hid⟩
    · rw [hlease]
      exact h.sound.held d hmem m ⟨hm, hid.trans (congrArg _ hlease)⟩

theorem stopped (h : s₀.Lasting s) {i : ℕ} {d : Dispatch ρ} (hd : s.dispatches[i]? = some d) :
    s₀.Lasting (s.setDispatch i { d with phase := d.phase.stop }) :=
  h.setDispatch hd rfl

theorem claimLocked (h : s₀.Lasting s) (hn : n ∈ s.notifications) {trigger : AttemptTrigger}
    (hc : n.Claimable trigger) (w : OutboxWorker) (now : ℕ) (requestedBy : Option String) :
    s₀.Lasting (s.claimLocked w now n trigger requestedBy) := by
  have hsound := h.sound.sound n hn
  have hmove : n.Move none (n.claim now w) := .claimed now w trigger hc
  have hwritten := h.write hn (hmove.follows hsound fun _ h => by cases h)
  have hclaimed : n.claim now w ∈ (s.write (some (n.claim now w))).notifications :=
    mem_write hn rfl
  refine ⟨⟨hwritten.sound.keyed, hwritten.sound.sound, ?_, ?_⟩, hwritten.onward⟩
  · intro d hd
    obtain hd | hd := List.mem_append.mp hd
    · exact hwritten.sound.served d hd
    · rw [List.mem_singleton] at hd
      subst hd
      exact ⟨_, hclaimed, rfl⟩
  · rintro d hd m ⟨hm, hid⟩
    obtain hd | hd := List.mem_append.mp hd
    · exact hwritten.sound.held d hd m ⟨hm, hid⟩
    · rw [List.mem_singleton] at hd
      subst hd
      rw [hwritten.sound.eq_of_id hclaimed hm hid]
      exact Notification.held_claim hsound hc now w requestedBy

end Lasting

theorem closed_lasting (adapter : NotificationAdapter ρ) (s₀ : OutboxState ρ) :
    Closed adapter anyStep (Lasting s₀) where
  planned s id tenantId workspaceId ownerUserId now h hfresh := by
    refine ⟨⟨?_, ?_, ?_, ?_⟩, ?_⟩
    · exact Table.nodup_insert h.sound.keyed hfresh
    · intro n hn
      obtain hn | hn := List.mem_append.mp hn
      · exact h.sound.sound n hn
      · rw [List.mem_singleton] at hn
        rw [hn]
        exact Notification.sound_planned id tenantId workspaceId ownerUserId now
    · intro d hd
      obtain ⟨n, hn, hid⟩ := h.sound.served d hd
      exact ⟨n, List.mem_append_left _ hn, hid⟩
    · rintro d hd n ⟨hn, hid⟩
      obtain hn | hn := List.mem_append.mp hn
      · exact h.sound.held d hd n ⟨hn, hid⟩
      · rw [List.mem_singleton] at hn
        subst hn
        obtain ⟨m, hm, hmid⟩ := h.sound.served d hd
        exact absurd (hmid.trans hid.symm) (hfresh m hm)
    · intro n hn
      obtain ⟨n', hn', hid, honward⟩ := h.onward n hn
      exact ⟨n', List.mem_append_left _ hn', hid, honward⟩
  swept s f h hf := by
    refine h.map fun n hn => ?_
    obtain heq | ⟨hmove, -⟩ := hf n hn
    · rw [heq]
      exact .refl (h.sound.sound n hn)
    · exact hmove.follows (h.sound.sound n hn) fun _ h => by cases h
  requested s n n' request now h _ hn _ hmove :=
    h.write hn (hmove.follows (h.sound.sound n hn) fun _ h => by cases h)
  claimed s w now n trigger requestedBy h hn hc := h.claimLocked hn hc w now requestedBy
  marked s i now d n n' h hd _ hserves hmark :=
    (h.write hserves.1 (h.sound.follows hd hserves (Notification.move_markSending hmark))).setDispatch
      hd rfl
  finished s i now d n exchange h hd _ hserves := by
    cases hfinish : n.finish adapter now d.worker d.lease exchange with
    | none => exact h.setDispatch hd rfl
    | some n' =>
        have hfollows := h.sound.follows hd hserves (Notification.move_finish hfinish)
        exact (h.write hserves.1 hfollows).setDispatch hd rfl
  stopped s i d h hd := h.setDispatch hd rfl
  accepted s i d h _ hd _ := h.setDispatch hd rfl
  replied s i d exchange h _ hd _ _ := h.setDispatch hd rfl

theorem Sound.reaches (h : Reaches (step adapter) anyStep (init : OutboxState ρ) s) : s.Sound :=
  ((closed_lasting adapter init).reaches sound_init.lasting h).sound

/-- The steps that may change a notification: while a lease is held, those in the name of its
fence, the shutdown of the worker that it names and, once the lease is over, a claim that recovers
it; otherwise claims and resend requests. -/
def MayChange (s : OutboxState ρ) (n : Notification) : OutboxLabel ρ → Prop
  | .claimNext _ now _ => n.row.isHeld → n.row.isExpired now
  | .requestManualResend request _ | .claimManualResend _ request _ =>
      n.row.isHeld = false ∧ n.row.id = request.notificationId
  | .markSending i _ | .finish i _ =>
      ∃ d, s.dispatches[i]? = some d ∧ s.Serves d n ∧ n.isLockedBy d.lease
  | .releaseOwnedLeases w _ _ => n.row.isHeld ∧ n.row.leaseOwner = some w.workerId
  | .plan .. | .accept _ | .reply .. | .crash _ => False

theorem mem_write_other (hn : n ∈ s.notifications) (hid : n.row.id ≠ n'.row.id) :
    n ∈ (s.write (some n')).notifications :=
  Table.mem_put_other hn hid

theorem recover_of_not_expired {now : ℕ} (h : n.row.isExpired now = false) :
    n.recover now = n := by
  rw [Notification.recover, h, Bool.and_false]
  rfl

theorem terminalize_of_held {now : ℕ} (h : n.row.isHeld) : n.terminalize now = n := by
  have hwaiting : n.row.isWaiting = false := by
    cases hs : n.row.status <;>
      simp_all [NotificationOutbox.isHeld, NotificationOutbox.isWaiting]
  rw [Notification.terminalize, hwaiting, Bool.false_and]
  rfl

theorem isHeld_of_isResendable (h : n.row.isResendable) : n.row.isHeld = false := by
  cases hstatus : n.row.status <;>
    simp_all [NotificationOutbox.isHeld, NotificationOutbox.isResendable]

theorem isHeld_of_claimable {trigger : AttemptTrigger} (h : n.Claimable trigger) :
    n.row.isHeld = false := by
  cases trigger with
  | manual => exact isHeld_of_isResendable h.1
  | automatic =>
      have hs := h.1
      cases hstatus : n.row.status <;>
        simp_all [NotificationOutbox.isHeld, NotificationOutbox.isWaiting]

theorem mem_sweep {now : ℕ} (skipped : Skipped) (hn : n ∈ s.notifications) (hheld : n.row.isHeld)
    (hlease : n.row.isExpired now = false) : n ∈ sweep now skipped s.notifications := by
  rw [map_sweep, List.map_map]
  refine List.mem_map.mpr ⟨n, hn, ?_⟩
  rw [Function.comp_apply, recover_of_not_expired hlease, ite_self, terminalize_of_held hheld,
    ite_self]

theorem Sound.mem_claimLocked (h : s.Sound) (hn : n ∈ s.notifications) (hn' : n' ∈ s.notifications)
    (hheld : n.row.isHeld) {trigger : AttemptTrigger} (hc : n'.Claimable trigger) (w : OutboxWorker)
    (now : ℕ) (requestedBy : Option String) :
    n ∈ (s.claimLocked w now n' trigger requestedBy).notifications := by
  have hother : n.row.id ≠ (n'.claim now w).row.id := by
    intro hid
    rw [h.eq_of_id hn' hn hid, isHeld_of_claimable hc] at hheld
    cases hheld
  exact mem_write_other hn hother

/-- A claim leaves a notification alone whose lease is held. -/
theorem Sound.mem_claimNext (adapter : NotificationAdapter ρ) (h : s.Sound) {w : OutboxWorker} {now : ℕ} {skipped : Skipped}
    (hn : n ∈ s.notifications) (hheld : n.row.isHeld) (hlease : n.row.isExpired now = false) :
    n ∈ (s.claimNext w now skipped).notifications := by
  have hswept : Sound { s with notifications := sweep now skipped s.notifications } :=
    ((closed_lasting adapter s).sweep h.lasting now skipped).sound
  rw [claimNext]
  dsimp only
  split
  · rename_i n' trigger requestedBy hselect
    obtain ⟨hmem, hclaimable⟩ := mem_of_selectNext hselect
    exact hswept.mem_claimLocked (mem_sweep skipped hn hheld hlease) hmem hheld hclaimable w now _
  · exact mem_sweep skipped hn hheld hlease

/-- A transaction under a lease leaves the notifications alone that it does not hold. -/
theorem Sound.mem_write (h : s.Sound) (hn : n ∈ s.notifications) {d : Dispatch ρ}
    {m m' : Notification} (hserves : s.Serves d m) (hmove : m.Move (some d.lease) m')
    (hheld : ¬ (s.Serves d n ∧ n.isLockedBy d.lease)) : n ∈ (s.write (some m')).notifications := by
  refine mem_write_other hn fun hid => hheld ?_
  have hsame : n = m := h.eq_of_id hserves.1 hn (hid.trans hmove.id)
  subst hsame
  exact ⟨hserves, hmove.isLockedBy⟩

theorem Sound.mem_requested (h : s.Sound) (hn : n ∈ s.notifications) {request : ResendRequest}
    {now : ℕ} (hrequest : s.requestManualResend request now = .ok (t, n'))
    (hchange : ¬ (n.row.isHeld = false ∧ n.row.id = request.notificationId)) :
    n ∈ t.notifications ∧ n.row.id ≠ n'.row.id := by
  obtain ⟨m, hm, hid, hresendable, hmove, -, rfl⟩ := requestManualResend_cases hrequest
  have hother : n.row.id ≠ n'.row.id := by
    intro heq
    rw [hmove.id] at heq
    refine hchange ⟨?_, heq.trans hid⟩
    rw [h.eq_of_id hm hn heq]
    exact isHeld_of_isResendable hresendable
  exact ⟨mem_write_other hn hother, hother⟩

/-- Every other step leaves a notification as it is. -/
theorem Sound.mayChange (h : s.Sound) {label : OutboxLabel ρ}
    (hstep : s.step adapter label = some t) (hn : n ∈ s.notifications)
    (hchanged : n ∉ t.notifications) : s.MayChange n label := by
  by_contra hmay
  apply hchanged
  cases label with
  | plan id tenantId workspaceId ownerUserId now =>
      obtain ⟨rows, hinsert, rfl⟩ := Option.map_eq_some_iff.mp hstep
      obtain ⟨rfl, -⟩ := Table.insert_eq_some hinsert
      exact List.mem_append_left _ hn
  | claimNext w now skipped =>
      cases hstep
      rw [MayChange, Classical.not_imp, Bool.not_eq_true] at hmay
      exact h.mem_claimNext adapter hn hmay.1 hmay.2
  | requestManualResend request now =>
      obtain ⟨⟨u, n'⟩, hrequest, rfl⟩ := Option.map_eq_some_iff.mp hstep
      exact (h.mem_requested hn (ok_of_toOption hrequest) hmay).1
  | claimManualResend w request now =>
      have hclaim := ok_of_toOption hstep
      rw [OutboxState.claimManualResend] at hclaim
      cases hrequest : s.requestManualResend
          { request with reason := "direct_worker_manual_resend" } now with
      | error e =>
          rw [hrequest] at hclaim
          cases hclaim
      | ok r =>
          obtain ⟨u, n'⟩ := r
          rw [hrequest] at hclaim
          cases hclaim
          obtain ⟨hmem, hother⟩ := h.mem_requested hn hrequest hmay
          have hclaimed : n.row.id ≠ (n'.claim now w).row.id := hother
          exact mem_write_other hmem hclaimed
  | markSending i now =>
      obtain ⟨d, hd, hstep⟩ := Option.bind_eq_some_iff.mp hstep
      split at hstep
      · obtain ⟨m, hfind, hstep⟩ := Option.bind_eq_some_iff.mp hstep
        split at hstep
        · rename_i m' hmark
          cases hstep
          exact h.mem_write hn (Table.find_eq_some hfind) (Notification.move_markSending hmark)
            fun hheld => hmay ⟨d, hd, hheld⟩
        · cases hstep
          exact hn
      · cases hstep
  | accept i =>
      obtain ⟨d, hd, hstep⟩ := Option.bind_eq_some_iff.mp hstep
      split_ifs at hstep
      cases hstep
      exact hn
  | reply i exchange =>
      obtain ⟨d, hd, hstep⟩ := Option.bind_eq_some_iff.mp hstep
      split at hstep
      · split_ifs at hstep <;> (cases hstep; exact hn)
      · cases hstep
  | finish i now =>
      obtain ⟨d, hd, hstep⟩ := Option.bind_eq_some_iff.mp hstep
      split at hstep
      · rename_i exchange hphase
        obtain ⟨m, hfind, hstep⟩ := Option.bind_eq_some_iff.mp hstep
        cases hstep
        cases hfinish : m.finish adapter now d.worker d.lease exchange with
        | none => exact hn
        | some m' =>
            exact h.mem_write hn (Table.find_eq_some hfind) (Notification.move_finish hfinish)
              fun hheld => hmay ⟨d, hd, hheld⟩
      · cases hstep
  | crash i =>
      obtain ⟨d, hd, rfl⟩ := Option.map_eq_some_iff.mp hstep
      exact hn
  | releaseOwnedLeases w now skipped =>
      cases hstep
      refine List.mem_map.mpr ⟨n, hn, ?_⟩
      have hkept : n.release now w.workerId = n := by
        rw [Notification.release, if_neg]
        exact fun hrelease => hmay ⟨hrelease.2, hrelease.1⟩
      rw [hkept, ite_self]

theorem triggers_drop_of_onward (h : n.Onward n') (hunknown : n.HasUnknown)
    {a : NotificationAttempt} (ha : a ∈ n'.attempts.drop n.attempts.length) :
    a.trigger = .manual := by
  obtain ⟨l, hl, hmanual⟩ := h.triggers
  apply hmanual hunknown
  have hdrop : n'.triggers.drop n.attempts.length = l := by
    rw [hl, List.drop_append_of_le_length (by rw [Notification.triggers, List.length_map]),
      Notification.triggers, List.drop_eq_nil_of_le (by rw [List.length_map]), List.nil_append]
  rw [← hdrop, Notification.triggers, ← List.map_drop]
  exact List.mem_map_of_mem ha

/-- In every run the attempts of a notification are numbered from one without gaps and counted on
the row, at most five and at most one of them manual; a delivered notification stays as it is, and
after an unknown outcome only a manual attempt is made. Who may change it is `MayChange`. -/
theorem notification_attempts (h : Reaches (step adapter) anyStep (init : OutboxState ρ) s)
    (hn : n ∈ s.notifications) :
    n.row.attemptCount = n.attempts.length ∧
      n.attempts.map NotificationAttempt.attemptNumber = List.range' 1 n.attempts.length ∧
      n.attempts.length ≤ maxAttempts ∧
      (n.attempts.countP fun a => a.trigger == .manual) ≤ 1 ∧
      (∀ t n', Reaches (step adapter) anyStep s t → n' ∈ t.notifications →
        n'.row.id = n.row.id →
        (n.row.status = .delivered → n' = n) ∧
          (n.row.status = .unknown →
            ∀ a ∈ n'.attempts.drop n.attempts.length, a.trigger = .manual)) ∧
      (∀ label t, s.step adapter label = some t → n ∉ t.notifications → s.MayChange n label) := by
  have hs := Sound.reaches h
  have hsound := hs.sound n hn
  have hlength := Notification.length_of_numbered hsound
  refine ⟨hlength.symm, ?_, ?_, ?_, ?_, ?_⟩
  · rw [hlength]
    exact hsound.numbered
  · rw [hlength]
    exact hsound.bounded
  · have hmanual := hsound.manual
    rw [Notification.triggers, List.count, List.countP_map] at hmanual
    exact hmanual
  · intro t n' hrun hn' hid
    have hlasting : s.Lasting t := (closed_lasting adapter s).reaches hs.lasting hrun
    obtain ⟨m, hm, hmid, honward⟩ := hlasting.onward n hn
    have hsame : n' = m := hlasting.sound.eq_of_id hm hn' (hid.trans hmid.symm)
    subst hsame
    exact ⟨honward.delivered, fun hunknown a ha =>
      triggers_drop_of_onward honward (hsound.unknown hunknown) ha⟩
  · exact fun label t hstep hchanged => hs.mayChange hstep hn hchanged

/-- An adapter that reports what it is told. -/
def plainAdapter : NotificationAdapter (Except SendFailure DeliveryResult) where
  send := id
  unwritten _ := false

def plainWorker (workerId : String) : OutboxWorker where
  workerId := workerId
  leaseSeconds := 30
  baseBackoffSeconds := 30
  maxBackoffSeconds := 3600
  leaseSeconds_pos := by decide
  backoff_valid := by decide

/-- A worker marks its attempt and is not heard of again. -/
def silentRun : List (OutboxLabel (Except SendFailure DeliveryResult)) :=
  [.plan 1 2 3 4 0, .claimNext (plainWorker "first") 0 {}, .markSending 0 1]

/-- The lease of the silent worker is recovered, and the user asks for a manual resend. -/
def resentRun : List (OutboxLabel (Except SendFailure DeliveryResult)) :=
  silentRun ++ [.claimNext (plainWorker "second") 30000000 {},
    .requestManualResend ⟨1, 2, 3, 4, "user", "again"⟩ 40000000,
    .claimNext (plainWorker "second") 50000000 {}, .markSending 1 50000001]

theorem notification_attempts_resent :
    ∃ s n, Reaches (step plainAdapter) anyStep init s ∧ n ∈ s.notifications ∧
      n.attempts.length = 2 ∧
      n.attempts.map NotificationAttempt.attemptNumber = List.range' 1 n.attempts.length := by
  have hany : (runLabels (step plainAdapter) init resentRun).any (fun s =>
      s.notifications.any fun n => n.attempts.length == 2) = true := by decide +kernel
  obtain ⟨s, hrun, hs⟩ := (Option.any_eq_true _ _).mp hany
  obtain ⟨n, hn, hlength⟩ := List.any_eq_true.mp hs
  have hreach := reaches_of_runLabels resentRun hrun
  exact ⟨s, n, hreach, hn, by simpa using hlength, (notification_attempts hreach hn).2.1⟩

/-- The steps in the name of the current fence. -/
def ByHolder (s : OutboxState ρ) (n : Notification) : OutboxLabel ρ → Prop
  | .markSending i _ | .finish i _ =>
      ∃ d, s.dispatches[i]? = some d ∧ s.Serves d n ∧ n.isLockedBy d.lease
  | _ => False

/-- A worker that never held the lease changes the notification after the lease is over. -/
theorem not_byHolder_recovery :
    ¬ ∀ (s t : OutboxState (Except SendFailure DeliveryResult)) (n : Notification)
      (label : OutboxLabel (Except SendFailure DeliveryResult)),
      Reaches (step plainAdapter) anyStep init s → n ∈ s.notifications →
      s.step plainAdapter label = some t → n ∉ t.notifications → s.ByHolder n label := by
  intro hclaim
  have hany : (runLabels (step plainAdapter) init silentRun).any (fun s =>
      s.notifications.any fun n => (s.claimNext (plainWorker "second") 30000000 {}).notifications.all
        fun n' => n' ≠ n) = true := by decide +kernel
  obtain ⟨s, hrun, hs⟩ := (Option.any_eq_true _ _).mp hany
  obtain ⟨n, hn, hchanged⟩ := List.any_eq_true.mp hs
  refine hclaim s _ n (.claimNext (plainWorker "second") 30000000 {})
    (reaches_of_runLabels silentRun hrun) hn rfl fun hmem => ?_
  have hne := List.all_eq_true.mp hchanged n hmem
  simp at hne

end OutboxState

end CryptoAlert
