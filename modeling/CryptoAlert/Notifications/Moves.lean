import CryptoAlert.Notifications.Worker
import Mathlib.Logic.Relation

/-!
# The writes to a notification

Every transaction is a sequence of moves, each of which changes one notification or the turn of
one worker. What a move can do is said once here; the invariants are proved for moves.
-/

namespace CryptoAlert

namespace Notification

variable {n n' : Notification} {now : ℕ}

/-- The parts that only a claim and the marking of an attempt change. -/
structure SameLease (n n' : Notification) : Prop where
  id : n'.row.id = n.row.id
  attemptCount : n'.row.attemptCount = n.row.attemptCount
  fenceToken : n'.row.fenceToken = n.row.fenceToken
  manualResend : n'.row.manualResend = n.row.manualResend

/-- Whether a claim with a trigger is allowed. -/
def Claimable (n : Notification) : AttemptTrigger → Prop
  | .manual => n.row.isResendable ∧ n.row.manualResend.isSome
  | .automatic => n.row.isWaiting ∧ n.row.manualResend = none

/-- One write to a notification, in the name of a lease or of nobody's. -/
inductive Move (n : Notification) : Option NotificationLease → Notification → Prop where
  /-- A lease ends before its attempt is marked. -/
  | released {n' : Notification} (status : n.row.status = .leased) (same : SameLease n n')
      (attempts : n'.attempts = n.attempts)
      (ended : n'.row.status = .failedRetryable ∨ n'.row.status = .failedTerminal) :
      Move n none n'
  /-- The retry window is over. -/
  | overdue {n' : Notification} (status : n.row.isWaiting) (same : SameLease n n')
      (attempts : n'.attempts = n.attempts) (ended : n'.row.status = .failedTerminal) :
      Move n none n'
  /-- The outcome of a marked attempt stays unknown. -/
  | lapsed (holder : Option NotificationLease) (now : ℕ) (reason : String)
      (locked : ∀ lease ∈ holder, n.isLockedBy lease) (status : n.row.status = .sending) :
      Move n holder (n.setUnknown now n.activeAttempt reason)
  | requested (resend : ManualResend) (status : n.row.isResendable)
      (manualResend : n.row.manualResend = none)
      (attempts : ∀ a ∈ n.attempts, a.trigger ≠ .manual) :
      Move n none { n with row := { n.row with manualResend := some resend } }
  | claimed (now : ℕ) (w : OutboxWorker) (trigger : AttemptTrigger)
      (claimable : n.Claimable trigger) : Move n none (n.claim now w)
  | marked {n' : Notification} (now : ℕ) (lease : NotificationLease) (locked : n.isLockedBy lease)
      (status : n.row.status = .leased) (count : n.row.attemptCount < maxAttempts)
      (mark : n.markSending now lease = some n') : Move n (some lease) n'
  /-- The result of a marked attempt is recorded. -/
  | resolved {n' : Notification} (lease : NotificationLease) (attempt attempt' : NotificationAttempt)
      (locked : n.isLockedBy lease) (status : n.row.status = .sending) (same : SameLease n n')
      (active : n.activeAttempt = some attempt)
      (number : attempt'.attemptNumber = attempt.attemptNumber)
      (trigger : attempt'.trigger = attempt.trigger)
      (attempts : n'.attempts = n.putAttempt attempt')
      (unknown : attempt'.result = .unknown ↔ n'.row.status = .unknown)
      (ended : n'.row.status = .unknown ∨ n'.row.status = .delivered ∨
        n'.row.status = .failedTerminal ∨
        (n'.row.status = .failedRetryable ∧ lease.trigger = .automatic)) :
      Move n (some lease) n'

/-- A write of a sweep over the notifications, which is no resend request. -/
def Swept (n n' : Notification) : Prop :=
  n' = n ∨ (n.Move none n' ∧ n'.row.manualResend = n.row.manualResend)

theorem swept_endLease (h : n.row.isHeld) (reason : String) :
    n.Swept (n.endLease now reason) := by
  rw [endLease]
  by_cases hsending : n.row.status = .sending
  · rw [if_pos hsending]
    exact .inr ⟨.lapsed none now reason (fun _ h => by cases h) hsending, rfl⟩
  · rw [if_neg hsending]
    have hleased : n.row.status = .leased := by
      simpa [NotificationOutbox.isHeld, hsending] using h
    rw [NotificationOutbox.releaseWithoutSend]
    split
    · exact .inr ⟨.released hleased ⟨rfl, rfl, rfl, rfl⟩ rfl (.inr rfl), rfl⟩
    · exact .inr ⟨.released hleased ⟨rfl, rfl, rfl, rfl⟩ rfl (.inl rfl), rfl⟩

theorem swept_recover : n.Swept (n.recover now) := by
  rw [recover]
  split
  · rename_i h
    rw [Bool.and_eq_true] at h
    exact swept_endLease h.1 _
  · exact .inl rfl

theorem swept_release (workerId : String) : n.Swept (n.release now workerId) := by
  rw [release]
  split
  · rename_i h
    exact swept_endLease h.2 _
  · exact .inl rfl

theorem swept_terminalize : n.Swept (n.terminalize now) := by
  rw [terminalize]
  split
  · rename_i h
    rw [Bool.and_eq_true] at h
    exact .inr ⟨.overdue h.1 ⟨rfl, rfl, rfl, rfl⟩ rfl rfl, rfl⟩
  · exact .inl rfl

theorem move_requestManualResend {actor reason : String}
    (h : n.requestManualResend now actor reason = .ok n') :
    n.Move none n' ∧ n.row.isResendable ∧ n'.Claimable .manual := by
  rw [requestManualResend] at h
  split_ifs at h with hstatus hpending hmanual hbudget
  cases h
  have hnone : n.row.manualResend = none := by simpa using hpending
  have hattempts : ∀ a ∈ n.attempts, a.trigger ≠ .manual := by simpa using hmanual
  exact ⟨.requested _ hstatus hnone hattempts, hstatus, hstatus, rfl⟩

theorem move_markSending {lease : NotificationLease} (h : n.markSending now lease = some n') :
    n.Move (some lease) n' := by
  have hmark := h
  rw [markSending] at h
  split at h
  · cases h
  rename_i hrefused
  simp only [Bool.or_eq_true, not_or, Bool.not_eq_true, Bool.not_eq_false', bne_eq_false_iff_eq,
    decide_eq_false_iff_not, not_le] at hrefused
  obtain ⟨⟨⟨⟨⟨hlocked, hstatus⟩, -⟩, -⟩, hcount⟩, -⟩ := hrefused
  exact .marked now lease hlocked hstatus hcount hmark

theorem move_finishUncertain {lease : NotificationLease} {reason : String}
    (h : n.finishUncertain now lease reason = some n') : n.Move (some lease) n' := by
  rw [finishUncertain] at h
  split_ifs at h with hrefused
  cases h
  simp only [Bool.or_eq_true, not_or, Bool.not_eq_true, Bool.not_eq_false',
    bne_eq_false_iff_eq] at hrefused
  refine .lapsed _ now reason (fun lease hl => ?_) hrefused.2
  cases hl
  exact hrefused.1

theorem move_finishResult {w : OutboxWorker} {lease : NotificationLease} {result : DeliveryResult}
    (h : n.finishResult now w lease result = some n') : n.Move (some lease) n' := by
  rw [finishResult] at h
  split_ifs at h with hrefused
  simp only [Bool.or_eq_true, not_or, Bool.not_eq_true, Bool.not_eq_false',
    bne_eq_false_iff_eq] at hrefused
  obtain ⟨hlocked, hstatus⟩ := hrefused
  obtain ⟨a, hactive, rfl⟩ := Option.map_eq_some_iff.mp h
  rw [settle]
  have hresolved : ∀ {n' : Notification} {attempt' : NotificationAttempt},
      n'.attempts = n.putAttempt attempt' → SameLease n n' →
      attempt'.attemptNumber = a.attemptNumber → attempt'.trigger = a.trigger →
      (attempt'.result = .unknown ↔ n'.row.status = .unknown) →
      (n'.row.status = .unknown ∨ n'.row.status = .delivered ∨ n'.row.status = .failedTerminal ∨
        (n'.row.status = .failedRetryable ∧ lease.trigger = .automatic)) →
      n.Move (some lease) n' := fun attempts same number trigger =>
    .resolved lease a _ hlocked hstatus same hactive number trigger attempts
  cases result.outcome with
  | delivered =>
      cases safeReceipt result.providerReceipt with
      | none => exact hresolved rfl ⟨rfl, rfl, rfl, rfl⟩ rfl rfl (iff_of_true rfl rfl) (.inl rfl)
      | some receipt =>
          exact hresolved rfl ⟨rfl, rfl, rfl, rfl⟩ rfl rfl
            (by simp [NotificationOutbox.clearLease]) (.inr (.inl rfl))
  | terminal =>
      exact hresolved rfl ⟨rfl, rfl, rfl, rfl⟩ rfl rfl
        (by simp [NotificationOutbox.clearLease]) (.inr (.inr (.inl rfl)))
  | retryable =>
      dsimp only
      split_ifs with hmanual hended
      · exact hresolved rfl ⟨rfl, rfl, rfl, rfl⟩ rfl rfl
          (by simp [NotificationOutbox.clearLease]) (.inr (.inr (.inl rfl)))
      · exact hresolved rfl ⟨rfl, rfl, rfl, rfl⟩ rfl rfl
          (by simp [NotificationOutbox.clearLease]) (.inr (.inr (.inl rfl)))
      · have hautomatic : lease.trigger = .automatic := by
          cases htrigger : lease.trigger with
          | automatic => rfl
          | manual => exact absurd htrigger hmanual
        exact hresolved rfl ⟨rfl, rfl, rfl, rfl⟩ rfl rfl
          (by simp [NotificationOutbox.clearLease]) (.inr (.inr (.inr ⟨rfl, hautomatic⟩)))

theorem move_finish {ρ : Type} {adapter : NotificationAdapter ρ} {w : OutboxWorker}
    {lease : NotificationLease} {exchange : Exchange ρ}
    (h : n.finish adapter now w lease exchange = some n') : n.Move (some lease) n' := by
  have hfailure : ∀ failure, n.finishFailure now w lease failure = some n' →
      n.Move (some lease) n' := by
    intro failure h
    cases failure with
    | uncertain => exact move_finishUncertain h
    | exception typeName => exact move_finishResult h
  cases exchange with
  | unconfigured => exact move_finishResult h
  | unresolved failure => exact hfailure failure h
  | replied reply =>
      rw [finish] at h
      cases hsend : adapter.send reply with
      | ok result =>
          rw [hsend] at h
          exact move_finishResult h
      | error failure =>
          rw [hsend] at h
          exact hfailure failure h
  | timedOut => exact move_finishUncertain h
  | cancelled => exact move_finishUncertain h

theorem claimable_manual (h : n.awaitsManual now) : n.Claimable .manual := by
  simp only [awaitsManual, Bool.and_eq_true] at h
  exact ⟨h.1.1.2, h.1.1.1⟩

theorem claimable_automatic (h : n.awaitsAutomatic now) : n.Claimable .automatic := by
  simp only [awaitsAutomatic, Bool.and_eq_true, Option.isNone_iff_eq_none] at h
  exact ⟨h.1.1.1.1, h.1.1.1.2⟩

/-- What `_mark_sending` writes. -/
theorem eq_of_markSending {lease : NotificationLease} (h : n.markSending now lease = some n') :
    n'.row.id = n.row.id ∧ n'.row.fenceToken = n.row.fenceToken ∧ n'.row.status = .sending ∧
      n'.row.leaseOwner = some lease.owner ∧ n.row.fenceToken = lease.fenceToken ∧
      n'.row.attemptCount = n.row.attemptCount + 1 ∧
      n'.row.manualResend = (if lease.trigger = .manual then none else n.row.manualResend) ∧
      ∃ a, n'.attempts = n.attempts ++ [a] ∧ a.attemptNumber = n.row.attemptCount + 1 ∧
        a.owner = lease.owner ∧ a.fenceToken = lease.fenceToken ∧ a.trigger = lease.trigger ∧
        a.result = .sending := by
  rw [markSending] at h
  split at h
  · cases h
  rename_i hrefused
  cases h
  simp only [isLockedBy, Bool.or_eq_true, not_or, Bool.not_eq_true, Bool.not_eq_false',
    Bool.and_eq_true, beq_iff_eq, bne_eq_false_iff_eq] at hrefused
  obtain ⟨⟨⟨⟨⟨⟨howner, hfence⟩, -⟩, -⟩, hnumber⟩, -⟩, -⟩ := hrefused
  exact ⟨rfl, rfl, rfl, howner, hfence, hnumber.symm, rfl, _, rfl, hnumber.symm, rfl, rfl, rfl,
    rfl⟩

theorem status_of_markSending {lease : NotificationLease}
    (h : n.markSending now lease = some n') : n.row.status = .leased := by
  rw [markSending] at h
  split at h
  · cases h
  rename_i hrefused
  simp only [Bool.or_eq_true, not_or, Bool.not_eq_true, bne_eq_false_iff_eq] at hrefused
  exact hrefused.1.1.1.1.2

theorem Move.isLockedBy {lease : NotificationLease} (h : n.Move (some lease) n') :
    n.isLockedBy lease := by
  cases h with
  | lapsed _ now reason locked => exact locked lease rfl
  | marked now _ locked => exact locked
  | resolved _ _ _ locked => exact locked

theorem Move.id {holder : Option NotificationLease} (h : n.Move holder n') :
    n'.row.id = n.row.id := by
  cases h with
  | released _ same => exact same.id
  | overdue _ same => exact same.id
  | lapsed => rfl
  | requested => rfl
  | claimed => rfl
  | marked now lease locked status count mark => exact (eq_of_markSending mark).1
  | resolved _ _ _ _ _ same => exact same.id

end Notification

namespace OutboxState

variable {ρ : Type} {adapter : NotificationAdapter ρ} {s t : OutboxState ρ}

/-- The notification that a dispatch serves. -/
def Serves (s : OutboxState ρ) (d : Dispatch ρ) (n : Notification) : Prop :=
  n ∈ s.notifications ∧ n.row.id = d.lease.notificationId

/-- What every move of an allowed step preserves. -/
structure Closed (adapter : NotificationAdapter ρ) (ok : OutboxState ρ → OutboxLabel ρ → Prop)
    (I : OutboxState ρ → Prop) : Prop where
  planned : ∀ s id tenantId workspaceId ownerUserId now, I s →
    (∀ n ∈ s.notifications, n.row.id ≠ id) →
    I { s with notifications :=
      s.notifications ++ [.planned id tenantId workspaceId ownerUserId now] }
  swept : ∀ s f, I s → (∀ n ∈ s.notifications, n.Swept (f n)) →
    I { s with notifications := s.notifications.map f }
  requested : ∀ s n n' request now, I s →
    ok s (.requestManualResend request now) ∨ (∃ w, ok s (.claimManualResend w request now)) →
    n ∈ s.notifications → n.row.id = request.notificationId → n.Move none n' → I (s.write (some n'))
  claimed : ∀ s w now n trigger requestedBy, I s → n ∈ s.notifications → n.Claimable trigger →
    I (s.claimLocked w now n trigger requestedBy)
  marked : ∀ s i now d n n', I s → s.dispatches[i]? = some d → d.phase = .claimed →
    s.Serves d n → n.markSending now d.lease = some n' →
    I ((s.write (some n')).setDispatch i { d with phase := .sending, request := .underway })
  finished : ∀ s i now d n exchange, I s → s.dispatches[i]? = some d → d.phase = .sent exchange →
    s.Serves d n → I ((s.write (n.finish adapter now d.worker d.lease exchange)).setDispatch i
      { d with phase := d.phase.stop })
  stopped : ∀ s i d, I s → s.dispatches[i]? = some d →
    I (s.setDispatch i { d with phase := d.phase.stop })
  accepted : ∀ s i d, I s → ok s (.accept i) → s.dispatches[i]? = some d → d.request = .underway →
    I (s.setDispatch i { d with request := .accepted })
  replied : ∀ s i d exchange, I s → ok s (.reply i exchange) → s.dispatches[i]? = some d →
    d.phase = .sending → (exchange.isUnwritten adapter → d.request ≠ .accepted) →
    I (s.setDispatch i { d with
      phase := .sent exchange
      request := if exchange.isUnwritten adapter then .unwritten else d.request })

theorem map_sweep (now : ℕ) (skipped : Skipped) (notifications : List Notification) :
    sweep now skipped notifications =
      (notifications.map fun n => if skipped.recovery.contains n.row.id then n
        else n.recover now).map fun n => if skipped.windows.contains n.row.id then n
          else n.terminalize now := rfl

theorem mem_of_selectNext {now : ℕ} {skipped : Skipped} {notifications : List Notification}
    {n : Notification} {trigger : AttemptTrigger} {requestedBy : Option String}
    (h : selectNext now skipped notifications = some (n, trigger, requestedBy)) :
    n ∈ notifications ∧ n.Claimable trigger := by
  rw [selectNext] at h
  split at h
  · rename_i m hm
    cases h
    obtain ⟨hmem, hawaits⟩ := List.mem_filter.mp (List.argmin_mem (Option.mem_def.mpr hm))
    rw [Bool.and_eq_true] at hawaits
    exact ⟨hmem, Notification.claimable_manual hawaits.2⟩
  · obtain ⟨m, hm, heq⟩ := Option.map_eq_some_iff.mp h
    cases heq
    obtain ⟨hmem, hawaits⟩ := List.mem_filter.mp (List.argmin_mem (Option.mem_def.mpr hm))
    rw [Bool.and_eq_true] at hawaits
    exact ⟨hmem, Notification.claimable_automatic hawaits.2⟩

theorem ok_of_toOption {ε α : Type} {x : Except ε α} {a : α} (h : x.toOption = some a) :
    x = .ok a := by
  cases x with
  | error e => cases h
  | ok b => exact congrArg Except.ok (Option.some.inj h)

theorem mem_of_findScoped {request : ResendRequest} {n : Notification}
    (h : s.findScoped request = some n) :
    n ∈ s.notifications ∧ n.row.id = request.notificationId := by
  have hfound := List.find?_some h
  simp only [Bool.and_eq_true, beq_iff_eq] at hfound
  exact ⟨List.mem_of_find?_eq_some h, hfound.1.1.1⟩

/-- What `request_manual_resend` writes. -/
theorem requestManualResend_cases {request : ResendRequest} {now : ℕ} {n' : Notification}
    (h : s.requestManualResend request now = .ok (t, n')) :
    ∃ n ∈ s.notifications, n.row.id = request.notificationId ∧ n.row.isResendable ∧
      n.Move none n' ∧ n'.Claimable .manual ∧ t = s.write (some n') := by
  rw [requestManualResend] at h
  split at h
  · cases h
  · cases h
  rename_i actor reason _ _
  split at h
  · cases h
  rename_i n hfind
  obtain ⟨hmem, hid⟩ := mem_of_findScoped hfind
  cases hrequest : n.requestManualResend now actor reason with
  | error e =>
      rw [hrequest] at h
      cases h
  | ok m =>
      rw [hrequest] at h
      cases h
      obtain ⟨hmove, hresendable, hclaimable⟩ := Notification.move_requestManualResend hrequest
      exact ⟨n, hmem, hid, hresendable, hmove, hclaimable, rfl⟩

theorem mem_write {n n' : Notification} (h : n ∈ s.notifications) (hid : n'.row.id = n.row.id) :
    n' ∈ (s.write (some n')).notifications :=
  Table.mem_put_self h hid.symm

namespace Closed

variable {ok : OutboxState ρ → OutboxLabel ρ → Prop} {I : OutboxState ρ → Prop}

theorem sweep (h : Closed adapter ok I) (hs : I s) (now : ℕ) (skipped : Skipped) :
    I { s with notifications := OutboxState.sweep now skipped s.notifications } := by
  rw [map_sweep]
  refine h.swept _ _ (h.swept s _ hs ?_) ?_
  · intro n _
    split
    · exact .inl rfl
    · exact Notification.swept_recover
  · intro n _
    split
    · exact .inl rfl
    · exact Notification.swept_terminalize

theorem claimNext (h : Closed adapter ok I) (hs : I s) (w : OutboxWorker) (now : ℕ)
    (skipped : Skipped) : I (s.claimNext w now skipped) := by
  have hswept := h.sweep hs now skipped
  rw [OutboxState.claimNext]
  dsimp only
  split
  · rename_i n trigger requestedBy hselect
    obtain ⟨hmem, hclaimable⟩ := mem_of_selectNext hselect
    exact h.claimed _ w now n trigger requestedBy hswept hmem hclaimable
  · exact hswept

theorem claimManualResend (h : Closed adapter ok I) (hs : I s) {w : OutboxWorker}
    {request : ResendRequest} {now : ℕ} (hok : ok s (.claimManualResend w request now))
    (hstep : s.claimManualResend w request now = .ok t) : I t := by
  rw [OutboxState.claimManualResend] at hstep
  cases hrequest : s.requestManualResend
      { request with reason := "direct_worker_manual_resend" } now with
  | error e =>
      rw [hrequest] at hstep
      cases hstep
  | ok r =>
      obtain ⟨u, n'⟩ := r
      rw [hrequest] at hstep
      cases hstep
      obtain ⟨n, hmem, hid, -, hmove, hclaimable, rfl⟩ := requestManualResend_cases hrequest
      have hwritten : I (s.write (some n')) :=
        h.requested s n n' request now hs (.inr ⟨w, hok⟩) hmem hid hmove
      exact h.claimed _ w now n' .manual _ hwritten (mem_write hmem hmove.id) hclaimable

theorem markSending (h : Closed adapter ok I) (hs : I s) {i now : ℕ}
    (hstep : s.markSending i now = some t) : I t := by
  obtain ⟨d, hd, hstep⟩ := Option.bind_eq_some_iff.mp hstep
  split at hstep
  · rename_i hphase
    obtain ⟨n, hfind, hstep⟩ := Option.bind_eq_some_iff.mp hstep
    split at hstep
    · rename_i n' hmark
      cases hstep
      exact h.marked s i now d n n' hs hd hphase (Table.find_eq_some hfind) hmark
    · cases hstep
      exact h.stopped s i d hs hd
  · cases hstep

theorem reply (h : Closed adapter ok I) (hs : I s) {i : ℕ} {exchange : Exchange ρ}
    (hok : ok s (.reply i exchange)) (hstep : s.reply adapter i exchange = some t) : I t := by
  obtain ⟨d, hd, hstep⟩ := Option.bind_eq_some_iff.mp hstep
  split at hstep
  · rename_i hphase
    have hreplied := h.replied s i d exchange hs hok hd hphase
    split_ifs at hstep with hunwritten haccepted
    · cases hstep
      rw [if_pos hunwritten] at hreplied
      exact hreplied fun _ => haccepted
    · cases hstep
      rw [if_neg hunwritten] at hreplied
      exact hreplied fun h => absurd h hunwritten
  · cases hstep

theorem finish (h : Closed adapter ok I) (hs : I s) {i now : ℕ}
    (hstep : s.finish adapter i now = some t) : I t := by
  obtain ⟨d, hd, hstep⟩ := Option.bind_eq_some_iff.mp hstep
  split at hstep
  · rename_i exchange hphase
    obtain ⟨n, hfind, hstep⟩ := Option.bind_eq_some_iff.mp hstep
    cases hstep
    exact h.finished s i now d n exchange hs hd hphase (Table.find_eq_some hfind)
  · cases hstep

/-- Every allowed step is made of moves. -/
theorem step (h : Closed adapter ok I) {label : OutboxLabel ρ} (hok : ok s label) (hs : I s)
    (hstep : s.step adapter label = some t) : I t := by
  cases label with
  | plan id tenantId workspaceId ownerUserId now =>
      obtain ⟨rows, hinsert, rfl⟩ := Option.map_eq_some_iff.mp hstep
      obtain ⟨rfl, hfresh⟩ := Table.insert_eq_some hinsert
      exact h.planned s id tenantId workspaceId ownerUserId now hs hfresh
  | claimNext w now skipped =>
      cases hstep
      exact h.claimNext hs w now skipped
  | requestManualResend request now =>
      obtain ⟨⟨u, n'⟩, hrequest, rfl⟩ := Option.map_eq_some_iff.mp hstep
      obtain ⟨n, hmem, hid, -, hmove, -, rfl⟩ :=
        requestManualResend_cases (ok_of_toOption hrequest)
      exact h.requested s n n' request now hs (.inl hok) hmem hid hmove
  | claimManualResend w request now =>
      exact h.claimManualResend hs hok (ok_of_toOption hstep)
  | markSending i now => exact h.markSending hs hstep
  | accept i =>
      obtain ⟨d, hd, hstep⟩ := Option.bind_eq_some_iff.mp hstep
      split_ifs at hstep with hrequest
      cases hstep
      exact h.accepted s i d hs hok hd hrequest
  | reply i exchange => exact h.reply hs hok hstep
  | finish i now => exact h.finish hs hstep
  | crash i =>
      obtain ⟨d, hd, rfl⟩ := Option.map_eq_some_iff.mp hstep
      exact h.stopped s i d hs hd
  | releaseOwnedLeases w now skipped =>
      cases hstep
      apply h.swept s _ hs
      intro n _
      split
      · exact .inl rfl
      · exact Notification.swept_release w.workerId

/-- Every guarded run is made of moves. -/
theorem reaches (h : Closed adapter ok I) (hs : I s)
    (hrun : Reaches (OutboxState.step adapter) ok s t) : I t :=
  hrun.invariant (fun _ _ _ hok hs hstep => h.step hok hs hstep) hs

end Closed

end OutboxState

end CryptoAlert
