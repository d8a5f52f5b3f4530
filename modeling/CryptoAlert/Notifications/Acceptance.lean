import CryptoAlert.Notifications.Adapters
import CryptoAlert.Notifications.Attempts

/-!
# The messages that the provider accepts

A request that may still be accepted either is the one that its notification waits for, or belongs
to a notification that is never sent again. This holds as long as no reply makes the worker repeat
a request that the provider accepts, and nobody asks for a manual resend.
-/

namespace CryptoAlert

/-- A list whose entries with a property are at one place has at most one of them. -/
theorem countP_le_one {α : Type*} {p : α → Bool} {l : List α}
    (h : ∀ (i j : ℕ) (a b : α), l[i]? = some a → l[j]? = some b → p a → p b → i = j) :
    l.countP p ≤ 1 := by
  induction l with
  | nil => exact Nat.zero_le 1
  | cons a l ih =>
      by_cases ha : p a
      · have hnone : l.countP p = 0 := by
          rw [List.countP_eq_zero]
          intro b hb hpb
          obtain ⟨j, hj⟩ := List.mem_iff_getElem?.mp hb
          have := h 0 (j + 1) a b rfl hj ha hpb
          omega
        rw [List.countP_cons_of_pos ha, hnone]
      · rw [List.countP_cons_of_neg ha]
        apply ih
        intro i j b c hb hc hpb hpc
        have := h (i + 1) (j + 1) b c hb hc hpb hpc
        omega

namespace Notification

variable {n n' : Notification} {now : ℕ} {w : OutboxWorker} {lease : NotificationLease}
  {holder : Option NotificationLease} {isDigit : Char → Bool}

/-- The notification waits for the result of a lease, or is not sent again by itself. -/
def Settled (lease : NotificationLease) (n : Notification) : Prop :=
  n.row.status = .delivered ∨ n.row.status = .failedTerminal ∨ n.row.status = .unknown ∨
    (n.row.status = .sending ∧ n.row.fenceToken = lease.fenceToken)

theorem Settled.not_isWaiting (h : n.Settled lease) : n.row.isWaiting = false := by
  obtain hs | hs | hs | ⟨hs, -⟩ := h <;> simp [NotificationOutbox.isWaiting, hs]

theorem Settled.ne_leased (h : n.Settled lease) : n.row.status ≠ .leased := by
  obtain hs | hs | hs | ⟨hs, -⟩ := h <;> simp [hs]

theorem Settled.fence_of_held (h : n.Settled lease) (hheld : n.row.isHeld) :
    n.row.fenceToken = lease.fenceToken := by
  obtain hs | hs | hs | ⟨-, hfence⟩ := h
  · simp [NotificationOutbox.isHeld, hs] at hheld
  · simp [NotificationOutbox.isHeld, hs] at hheld
  · simp [NotificationOutbox.isHeld, hs] at hheld
  · exact hfence

theorem Move.isHeld (hmove : n.Move (some lease) n') : n.row.isHeld := by
  cases hmove with
  | lapsed _ now reason locked hs => simp [NotificationOutbox.isHeld, hs]
  | marked now _ locked hs => simp [NotificationOutbox.isHeld, hs]
  | resolved _ _ _ locked hs => simp [NotificationOutbox.isHeld, hs]

theorem fence_of_isLockedBy (h : n.isLockedBy lease) : n.row.fenceToken = lease.fenceToken := by
  rw [isLockedBy, Bool.and_eq_true, beq_iff_eq, beq_iff_eq] at h
  exact h.2

/-- Only a manual request, or a result that asks for another attempt, unsettles a notification. -/
theorem Settled.move (h : n.Settled lease) (hmove : n.Move holder n')
    (hunasked : n.row.manualResend = none) (hresult : holder.isSome → n'.row.isWaiting = false) :
    n'.Settled lease := by
  cases hmove with
  | released hs same attempts ended => exact absurd hs h.ne_leased
  | overdue hs same attempts ended => exact .inr (.inl ended)
  | lapsed _ now reason locked hs => exact .inr (.inr (.inl rfl))
  | requested resend hs hnone hattempts => exact h
  | claimed now w trigger hc =>
      cases trigger with
      | manual =>
          have hasked := hc.2
          rw [hunasked] at hasked
          cases hasked
      | automatic =>
          have hwaiting := hc.1
          rw [h.not_isWaiting] at hwaiting
          cases hwaiting
  | marked now lease' locked hs count mark => exact absurd hs h.ne_leased
  | resolved lease' a a' locked hs same active number trigger attempts unknown ended =>
      obtain he | he | he | ⟨he, -⟩ := ended
      · exact .inr (.inr (.inl he))
      · exact .inl he
      · exact .inr (.inl he)
      · have hwaiting := hresult rfl
        simp [NotificationOutbox.isWaiting, he] at hwaiting

/-- A move other than a resend request leaves the columns of the request empty. -/
theorem Move.unasked (hmove : n.Move holder n') (hunasked : n.row.manualResend = none)
    (hrequest : n.row.isResendable → n'.row.manualResend = none) :
    n'.row.manualResend = none := by
  cases hmove with
  | released hs same => exact same.manualResend.trans hunasked
  | overdue hs same => exact same.manualResend.trans hunasked
  | lapsed => exact hunasked
  | requested resend hs => exact hrequest hs
  | claimed => exact hunasked
  | marked now lease locked hs count mark =>
      obtain ⟨-, -, -, -, -, -, hresend, -⟩ := eq_of_markSending mark
      rw [hresend, hunasked, ite_self]
  | resolved _ _ _ _ _ same => exact same.manualResend.trans hunasked

theorem not_isWaiting_setUnknown (attempt : Option NotificationAttempt) (reason : String) :
    (n.setUnknown now attempt reason).row.isWaiting = false := rfl

theorem retryable_of_isWaiting {result : DeliveryResult}
    (h : n.finishResult now w lease result = some n') (hwaiting : n'.row.isWaiting) :
    result.outcome = .retryable := by
  rw [finishResult] at h
  split_ifs at h
  obtain ⟨a, -, rfl⟩ := Option.map_eq_some_iff.mp h
  rw [settle] at hwaiting
  cases houtcome : result.outcome with
  | retryable => rfl
  | terminal =>
      rw [houtcome] at hwaiting
      cases hwaiting
  | delivered =>
      rw [houtcome] at hwaiting
      cases hreceipt : safeReceipt result.providerReceipt <;>
        (rw [hreceipt] at hwaiting; cases hwaiting)

theorem not_isWaiting_of_finishUncertain {reason : String}
    (h : n.finishUncertain now lease reason = some n') : n'.row.isWaiting = false := by
  rw [finishUncertain] at h
  split_ifs at h
  cases h
  exact not_isWaiting_setUnknown _ reason

/-- Where a notification waits after its result, the request was not written or is repeated. -/
theorem repeats_of_isWaiting {exchange : Exchange BarkReply}
    (h : n.finish (barkAdapter isDigit) now w lease exchange = some n')
    (hwaiting : n'.row.isWaiting) :
    exchange.isUnwritten (barkAdapter isDigit) ∨ exchange.Repeats := by
  cases exchange with
  | unconfigured => exact .inl rfl
  | unresolved failure => exact .inl rfl
  | replied reply =>
      rw [finish] at h
      cases hsend : (barkAdapter isDigit).send reply with
      | ok result =>
          rw [hsend] at h
          exact repeats_of_retryable hsend (retryable_of_isWaiting h hwaiting)
      | error failure =>
          rw [hsend] at h
          cases failure with
          | uncertain =>
              rw [not_isWaiting_of_finishUncertain h] at hwaiting
              cases hwaiting
          | exception typeName => exact .inr (repeats_of_exception hsend)
  | timedOut =>
      rw [not_isWaiting_of_finishUncertain h] at hwaiting
      cases hwaiting
  | cancelled =>
      rw [not_isWaiting_of_finishUncertain h] at hwaiting
      cases hwaiting

end Notification

namespace OutboxState

variable {isDigit : Char → Bool} {id : ℕ} {s t : OutboxState BarkReply} {n n' : Notification}

/-- Whether the request of a dispatch is on its way or was accepted. -/
def isWritten (d : Dispatch BarkReply) : Bool := d.request == .underway || d.request == .accepted

/-- A request that may count: it may be written, and its reply does not repeat it. -/
def MayCount (id : ℕ) (d : Dispatch BarkReply) : Prop :=
  d.lease.notificationId = id ∧ isWritten d ∧ ∀ x, d.phase.exchange = some x → ¬ x.Repeats

/-- The steps of a run in which nobody asks for a manual resend of a notification, and no request
for it that the provider accepts gets a reply after which it is repeated. -/
def Permitted (id : ℕ) (s : OutboxState BarkReply) : OutboxLabel BarkReply → Prop
  | .requestManualResend request _ | .claimManualResend _ request _ => request.notificationId ≠ id
  | .accept i => ∀ d, s.dispatches[i]? = some d → d.lease.notificationId = id →
      ∀ x, d.phase.exchange = some x → ¬ x.Repeats
  | .reply i exchange => ∀ d, s.dispatches[i]? = some d → d.lease.notificationId = id →
      exchange.Repeats → d.request ≠ .accepted
  | _ => True

/-- At most one request for the notification may count, and the notification is settled then. -/
structure Once (id : ℕ) (s : OutboxState BarkReply) (isDigit : Char → Bool) : Prop where
  sound : s.Sound
  unasked : ∀ n ∈ s.notifications, n.row.id = id → n.row.manualResend = none
  fences : ∀ (i j : ℕ) (d e : Dispatch BarkReply), s.dispatches[i]? = some d →
    s.dispatches[j]? = some e → d.lease.notificationId = e.lease.notificationId →
    d.lease.fenceToken = e.lease.fenceToken → i = j
  claimed : ∀ d ∈ s.dispatches, d.phase = .claimed → d.request = .unsent
  unwritten : ∀ d ∈ s.dispatches, ∀ x, d.phase.exchange = some x →
    x.isUnwritten (barkAdapter isDigit) → d.request = .unwritten
  settled : ∀ d ∈ s.dispatches, MayCount id d → ∀ n, s.Serves d n → n.Settled d.lease
  single : ∀ (i j : ℕ) (d e : Dispatch BarkReply), s.dispatches[i]? = some d →
    s.dispatches[j]? = some e → MayCount id d → MayCount id e → i = j
  accepted : ∀ d ∈ s.dispatches, d.lease.notificationId = id → d.request = .accepted →
    MayCount id d

/-- The number of messages for a notification that the provider has accepted. -/
def acceptances (id : ℕ) (s : OutboxState BarkReply) : ℕ :=
  s.dispatches.countP fun d => d.lease.notificationId == id && d.request == .accepted

theorem Once.acceptances_le (h : Once id s isDigit) : acceptances id s ≤ 1 := by
  apply countP_le_one
  intro i j d e hd he hcount hcount'
  rw [Bool.and_eq_true, beq_iff_eq, beq_iff_eq] at hcount hcount'
  exact h.single i j d e hd he (h.accepted d (List.mem_of_getElem? hd) hcount.1 hcount.2)
    (h.accepted e (List.mem_of_getElem? he) hcount'.1 hcount'.2)

theorem once_init : Once id (init : OutboxState BarkReply) isDigit where
  sound := sound_init
  unasked _ h := absurd h List.not_mem_nil
  fences _ _ _ _ h := by cases h
  claimed _ h := absurd h List.not_mem_nil
  unwritten _ h := absurd h List.not_mem_nil
  settled _ h := absurd h List.not_mem_nil
  single _ _ _ _ h := by cases h
  accepted _ h := absurd h List.not_mem_nil

namespace Once

/-- What a write to the notifications has to keep. -/
theorem map (h : Once id s isDigit) {f : Notification → Notification}
    (hsound : Sound { s with notifications := s.notifications.map f })
    (hid : ∀ n ∈ s.notifications, (f n).row.id = n.row.id)
    (hkeep : ∀ n ∈ s.notifications, n.row.id = id → (f n).row.manualResend = none ∧
      ∀ d ∈ s.dispatches, MayCount id d → n.Settled d.lease → (f n).Settled d.lease) :
    Once id { s with notifications := s.notifications.map f } isDigit where
  sound := hsound
  unasked m hm hmid := by
    obtain ⟨n, hn, rfl⟩ := List.mem_map.mp hm
    exact (hkeep n hn ((hid n hn).symm.trans hmid)).1
  fences := h.fences
  claimed := h.claimed
  unwritten := h.unwritten
  settled d hd hcount m hserves := by
    obtain ⟨hm, hmid⟩ := hserves
    obtain ⟨n, hn, rfl⟩ := List.mem_map.mp hm
    have hnid : n.row.id = d.lease.notificationId := (hid n hn).symm.trans hmid
    exact (hkeep n hn (hnid.trans hcount.1)).2 d hd hcount (h.settled d hd hcount n ⟨hn, hnid⟩)
  single := h.single
  accepted := h.accepted

/-- A write to one notification. -/
theorem write (h : Once id s isDigit) (hsound : (s.write (some n')).Sound)
    (hn : n ∈ s.notifications) (hid : n'.row.id = n.row.id)
    (hkeep : n.row.id = id → n'.row.manualResend = none ∧
      ∀ d ∈ s.dispatches, MayCount id d → n.Settled d.lease → n'.Settled d.lease) :
    Once id (s.write (some n')) isDigit := by
  refine h.map hsound ?_ ?_
  · intro m hm
    by_cases hkey : key m = key n'
    · rw [if_pos hkey]
      exact hkey.symm
    · rw [if_neg hkey]
  · intro m hm hmid
    by_cases hkey : key m = key n'
    · have hsame : m = n := h.sound.eq_of_id hn hm (hkey.trans hid)
      rw [if_pos hkey, hsame]
      exact hkeep (by rw [← hsame]; exact hmid)
    · rw [if_neg hkey]
      exact ⟨h.unasked m hm hmid, fun _ _ _ hsettled => hsettled⟩

/-- What a change of a dispatch has to keep: its request may count only if it could before, or if
no other request may count and the notification is settled. -/
theorem setDispatch (h : Once id s isDigit) {i : ℕ} {d d' : Dispatch BarkReply}
    (hsound : (s.setDispatch i d').Sound) (hd : s.dispatches[i]? = some d)
    (hlease : d'.lease = d.lease) (hclaimed : d'.phase = .claimed → d'.request = .unsent)
    (hunwritten : ∀ x, d'.phase.exchange = some x → x.isUnwritten (barkAdapter isDigit) →
      d'.request = .unwritten)
    (hcount : MayCount id d' → MayCount id d ∨ ((∀ e ∈ s.dispatches, ¬ MayCount id e) ∧
      ∀ n, s.Serves d' n → n.Settled d'.lease))
    (haccepted : d'.lease.notificationId = id → d'.request = .accepted → MayCount id d') :
    Once id (s.setDispatch i d') isDigit := by
  have hold : ∀ (j : ℕ) (e : Dispatch BarkReply), (s.dispatches.set i d')[j]? = some e →
      (j = i ∧ e = d') ∨ (j ≠ i ∧ s.dispatches[j]? = some e) := by
    intro j e he
    rw [List.getElem?_set] at he
    split_ifs at he with hij hlt
    · cases he
      exact .inl ⟨hij.symm, rfl⟩
    · exact .inr ⟨Ne.symm hij, he⟩
  have hleases : ∀ (j : ℕ) (e : Dispatch BarkReply), (s.dispatches.set i d')[j]? = some e →
      ∃ e', s.dispatches[j]? = some e' ∧ e'.lease = e.lease := by
    intro j e he
    obtain ⟨rfl, rfl⟩ | ⟨-, he⟩ := hold j e he
    · exact ⟨d, hd, hlease.symm⟩
    · exact ⟨e, he, rfl⟩
  have hmem : ∀ e ∈ s.dispatches.set i d', e ∈ s.dispatches ∨ e = d' := fun e he =>
    List.mem_or_eq_of_mem_set he
  -- An old request that may count leaves no room for a new one.
  have hother : ∀ (k : ℕ) (g : Dispatch BarkReply), k ≠ i → s.dispatches[k]? = some g →
      MayCount id g → ¬ MayCount id d' := by
    intro k g hk hg hmay hmay'
    obtain hmay' | ⟨hnone, -⟩ := hcount hmay'
    · exact hk (h.single k i g d hg hd hmay hmay')
    · exact hnone g (List.mem_of_getElem? hg) hmay
  refine ⟨hsound, h.unasked, ?_, ?_, ?_, ?_, ?_, ?_⟩
  · intro j k e g he hg hsame hfence
    obtain ⟨e', he', helease⟩ := hleases j e he
    obtain ⟨g', hg', hglease⟩ := hleases k g hg
    rw [← helease, ← hglease] at hsame hfence
    exact h.fences j k e' g' he' hg' hsame hfence
  · intro e he hphase
    obtain he | rfl := hmem e he
    · exact h.claimed e he hphase
    · exact hclaimed hphase
  · intro e he
    obtain he | rfl := hmem e he
    · exact h.unwritten e he
    · exact hunwritten
  · intro e he hmay n hserves
    obtain he | rfl := hmem e he
    · exact h.settled e he hmay n hserves
    · obtain hmay | ⟨-, hsettled⟩ := hcount hmay
      · obtain ⟨hn, hid⟩ := hserves
        rw [hlease] at hid ⊢
        exact h.settled d (List.mem_of_getElem? hd) hmay n ⟨hn, hid⟩
      · exact hsettled n hserves
  · intro j k e g he hg hmay hmay'
    obtain ⟨rfl, rfl⟩ | ⟨hj, hej⟩ := hold j e he
    · obtain ⟨rfl, rfl⟩ | ⟨hk, hgk⟩ := hold k g hg
      · rfl
      · exact absurd hmay (hother k g hk hgk hmay')
    · obtain ⟨rfl, rfl⟩ | ⟨hk, hgk⟩ := hold k g hg
      · exact absurd hmay' (hother j e hj hej hmay)
      · exact h.single j k e g hej hgk hmay hmay'
  · intro e he
    obtain he | rfl := hmem e he
    · exact h.accepted e he
    · exact haccepted

theorem claimLocked (h : Once id s isDigit) {w : OutboxWorker} {now : ℕ} {trigger : AttemptTrigger}
    {requestedBy : Option String} (hsound : (s.claimLocked w now n trigger requestedBy).Sound)
    (hwritten : (s.write (some (n.claim now w))).Sound) (hn : n ∈ s.notifications)
    (hc : n.Claimable trigger) : Once id (s.claimLocked w now n trigger requestedBy) isDigit := by
  have hmove : n.Move none (n.claim now w) := .claimed now w trigger hc
  have hw : Once id (s.write (some (n.claim now w))) isDigit := by
    refine h.write hwritten hn rfl fun hid => ?_
    have hunasked := h.unasked n hn hid
    exact ⟨hunasked, fun d hd hmay hsettled => hsettled.move hmove hunasked fun h => by cases h⟩
  have hfresh : ∀ d ∈ s.dispatches, d.lease.notificationId = n.row.id →
      d.lease.fenceToken ≠ n.row.fenceToken + 1 := by
    intro d hd hid
    have hle := (h.sound.held d hd n ⟨hn, hid.symm⟩).fence
    omega
  have hnew : ¬ MayCount id (⟨w, n.row.leaseOf now w trigger requestedBy, .claimed, .unsent⟩ :
      Dispatch BarkReply) := by
    rintro ⟨-, hwritten, -⟩
    cases hwritten
  have hold : ∀ (j : ℕ) (e : Dispatch BarkReply),
      (s.claimLocked w now n trigger requestedBy).dispatches[j]? = some e →
      s.dispatches[j]? = some e ∨ (j = s.dispatches.length ∧
        e = ⟨w, n.row.leaseOf now w trigger requestedBy, .claimed, .unsent⟩) := by
    intro j e he
    rw [OutboxState.claimLocked, List.getElem?_append] at he
    split_ifs at he with hlt
    · exact .inl he
    · obtain ⟨hj, hej⟩ := List.getElem?_eq_some_iff.mp he
      rw [List.length_singleton] at hj
      rw [List.getElem_singleton] at hej
      exact .inr ⟨by omega, hej.symm⟩
  have hmem : ∀ e ∈ (s.claimLocked w now n trigger requestedBy).dispatches, e ∈ s.dispatches ∨
      e = ⟨w, n.row.leaseOf now w trigger requestedBy, .claimed, .unsent⟩ := by
    intro e he
    obtain he | he := List.mem_append.mp he
    · exact .inl he
    · exact .inr (List.mem_singleton.mp he)
  refine ⟨hsound, hw.unasked, ?_, ?_, ?_, ?_, ?_, ?_⟩
  · intro j k e g he hg hsame hfence
    obtain he | ⟨rfl, rfl⟩ := hold j e he
    · obtain hg | ⟨rfl, rfl⟩ := hold k g hg
      · exact h.fences j k e g he hg hsame hfence
      · exact absurd hfence (hfresh e (List.mem_of_getElem? he) hsame)
    · obtain hg | ⟨rfl, rfl⟩ := hold k g hg
      · exact absurd hfence.symm (hfresh g (List.mem_of_getElem? hg) hsame.symm)
      · rfl
  · intro e he hphase
    obtain he | rfl := hmem e he
    · exact h.claimed e he hphase
    · rfl
  · intro e he
    obtain he | rfl := hmem e he
    · exact h.unwritten e he
    · intro x hx
      cases hx
  · intro e he hmay m hserves
    obtain he | rfl := hmem e he
    · exact hw.settled e he hmay m hserves
    · exact absurd hmay hnew
  · intro j k e g he hg hmay hmay'
    obtain he | ⟨rfl, rfl⟩ := hold j e he
    · obtain hg | ⟨rfl, rfl⟩ := hold k g hg
      · exact h.single j k e g he hg hmay hmay'
      · exact absurd hmay' hnew
    · exact absurd hmay hnew
  · intro e he hid hrequest
    obtain he | rfl := hmem e he
    · exact h.accepted e he hid hrequest
    · cases hrequest

theorem marked (h : Once id s isDigit) {i now : ℕ} {d : Dispatch BarkReply}
    (hwritten : (s.write (some n')).Sound)
    (hsound : ((s.write (some n')).setDispatch i
      { d with phase := .sending, request := .underway }).Sound)
    (hd : s.dispatches[i]? = some d) (hserves : s.Serves d n)
    (hmark : n.markSending now d.lease = some n') :
    Once id ((s.write (some n')).setDispatch i { d with phase := .sending, request := .underway })
      isDigit := by
  have hmove := Notification.move_markSending hmark
  obtain ⟨-, hfence, hsending, -, hcurrent, -⟩ := Notification.eq_of_markSending hmark
  have hleased := Notification.status_of_markSending hmark
  have hw : Once id (s.write (some n')) isDigit := by
    refine h.write hwritten hserves.1 hmove.id fun hid => ?_
    have hunasked := h.unasked n hserves.1 hid
    refine ⟨hmove.unasked hunasked fun hr => ?_, fun e he hmay hsettled =>
      absurd hleased hsettled.ne_leased⟩
    simp [NotificationOutbox.isResendable, hleased] at hr
  refine hw.setDispatch hsound hd rfl ?_ ?_ ?_ ?_
  · intro hphase
    cases hphase
  · intro x hx
    cases hx
  · rintro ⟨hid, -, -⟩
    right
    constructor
    · -- The notification was leased, so no other request may count.
      intro e he hmay
      have hserved : s.Serves e n := ⟨hserves.1, hserves.2.trans (hid.trans hmay.1.symm)⟩
      exact (h.settled e he hmay n hserved).ne_leased hleased
    · rintro m ⟨hm, hmid⟩
      have hmem := mem_write hserves.1 hmove.id
      have hsame : m = n' :=
        hwritten.eq_of_id hmem hm (hmid.trans (hserves.2.symm.trans hmove.id.symm))
      rw [hsame]
      exact .inr (.inr (.inr ⟨hsending, hfence.trans hcurrent⟩))
  · intro _ hrequest
    cases hrequest

theorem finished (h : Once id s isDigit) {i now : ℕ} {d : Dispatch BarkReply}
    {exchange : Exchange BarkReply} (hwritten : (s.write (some n')).Sound)
    (hd : s.dispatches[i]? = some d) (hphase : d.phase = .sent exchange) (hserves : s.Serves d n)
    (hfinish : n.finish (barkAdapter isDigit) now d.worker d.lease exchange = some n') :
    Once id (s.write (some n')) isDigit := by
  have hmove := Notification.move_finish hfinish
  have hheld := hmove.isHeld
  refine h.write hwritten hserves.1 hmove.id fun hid => ?_
  have hunasked := h.unasked n hserves.1 hid
  refine ⟨hmove.unasked hunasked fun hr => ?_, fun e he hmay hsettled => ?_⟩
  · rw [isHeld_of_isResendable hr] at hheld
    cases hheld
  · refine hsettled.move hmove hunasked fun _ => ?_
    by_contra hwaiting
    rw [Bool.not_eq_false] at hwaiting
    -- The request that may count is the one whose result is recorded.
    obtain ⟨j, hj⟩ := List.mem_iff_getElem?.mp he
    have hfence : d.lease.fenceToken = e.lease.fenceToken :=
      (Notification.fence_of_isLockedBy hmove.isLockedBy).symm.trans
        (hsettled.fence_of_held hheld)
    have hij : i = j :=
      h.fences i j d e hd hj (hserves.2.symm.trans (hid.trans hmay.1.symm)) hfence
    subst hij
    rw [hd] at hj
    cases hj
    have hexchange : d.phase.exchange = some exchange := by
      rw [hphase]
      rfl
    obtain hunwritten | hrepeats := Notification.repeats_of_isWaiting hfinish hwaiting
    · have hrequest := h.unwritten d he exchange hexchange hunwritten
      have hcount := hmay.2.1
      rw [isWritten, hrequest] at hcount
      cases hcount
    · exact hmay.2.2 exchange hexchange hrepeats

theorem stopped (h : Once id s isDigit) {i : ℕ} {d : Dispatch BarkReply}
    (hsound : (s.setDispatch i { d with phase := d.phase.stop }).Sound)
    (hd : s.dispatches[i]? = some d) :
    Once id (s.setDispatch i { d with phase := d.phase.stop }) isDigit := by
  have hmem := List.mem_of_getElem? hd
  refine h.setDispatch hsound hd rfl ?_ (h.unwritten d hmem) (fun hmay => .inl hmay)
    (h.accepted d hmem)
  intro hphase
  cases hphase

end Once

/-- What the steps of a permitted run preserve. -/
theorem closed_once (isDigit : Char → Bool) (id : ℕ) :
    Closed (barkAdapter isDigit) (Permitted id) (fun s => Once id s isDigit) where
  planned s planId tenantId workspaceId ownerUserId now h hfresh := by
    have hsound := ((closed_lasting (barkAdapter isDigit) s).planned s planId tenantId
      workspaceId ownerUserId now h.sound.lasting hfresh).sound
    refine ⟨hsound, ?_, h.fences, h.claimed, h.unwritten, ?_, h.single, h.accepted⟩
    · intro n hn hid
      obtain hn | hn := List.mem_append.mp hn
      · exact h.unasked n hn hid
      · rw [List.mem_singleton] at hn
        rw [hn]
        rfl
    · rintro d hd hmay n ⟨hn, hid⟩
      obtain hn | hn := List.mem_append.mp hn
      · exact h.settled d hd hmay n ⟨hn, hid⟩
      · rw [List.mem_singleton] at hn
        subst hn
        obtain ⟨m, hm, hmid⟩ := h.sound.served d hd
        exact absurd (hmid.trans hid.symm) (hfresh m hm)
  swept s f h hf := by
    have hsound :=
      ((closed_lasting (barkAdapter isDigit) s).swept s f h.sound.lasting hf).sound
    refine h.map hsound ?_ ?_
    · intro n hn
      obtain heq | ⟨hmove, -⟩ := hf n hn
      · rw [heq]
      · exact hmove.id
    · intro n hn hid
      have hunasked := h.unasked n hn hid
      obtain heq | ⟨hmove, hresend⟩ := hf n hn
      · rw [heq]
        exact ⟨hunasked, fun _ _ _ hsettled => hsettled⟩
      · exact ⟨hresend.trans hunasked, fun _ _ _ hsettled =>
          hsettled.move hmove hunasked fun h => by cases h⟩
  requested s n n' request now h hok hn hid hmove := by
    have hsound := ((closed_lasting (barkAdapter isDigit) s).requested s n n' request now
      h.sound.lasting (.inl trivial) hn hid hmove).sound
    refine h.write hsound hn hmove.id fun hsame => ?_
    have hne : request.notificationId ≠ id := by
      obtain hok | ⟨w, hok⟩ := hok
      · exact hok
      · exact hok
    exact absurd (hid.symm.trans hsame) hne
  claimed s w now n trigger requestedBy h hn hc := by
    have hclosed := closed_lasting (barkAdapter isDigit) s
    have hmove : n.Move none (n.claim now w) := .claimed now w trigger hc
    have hfollows : n.Follows (n.claim now w) :=
      hmove.follows (h.sound.sound n hn) fun _ h => by cases h
    exact h.claimLocked (hclosed.claimed s w now n trigger requestedBy h.sound.lasting hn hc).sound
      (h.sound.lasting.write hn hfollows).sound hn hc
  marked s i now d n n' h hd _ hserves hmark := by
    have hwritten := h.sound.lasting.write hserves.1
      (h.sound.follows hd hserves (Notification.move_markSending hmark))
    have hsound : s.Lasting ((s.write (some n')).setDispatch i
        { d with phase := .sending, request := .underway }) := hwritten.setDispatch hd rfl
    exact h.marked hwritten.sound hsound.sound hd hserves hmark
  finished s i now d n exchange h hd hphase hserves := by
    cases hfinish : n.finish (barkAdapter isDigit) now d.worker d.lease exchange with
    | none =>
        exact h.stopped (h.sound.lasting.stopped hd).sound hd
    | some n' =>
        have hwritten := h.sound.lasting.write hserves.1
          (h.sound.follows hd hserves (Notification.move_finish hfinish))
        exact (h.finished hwritten.sound hd hphase hserves hfinish).stopped
          (hwritten.stopped hd).sound hd
  stopped s i d h hd := h.stopped (h.sound.lasting.stopped hd).sound hd
  accepted s i d h hok hd hrequest := by
    have hmem := List.mem_of_getElem? hd
    have hsound : s.Lasting (s.setDispatch i { d with request := .accepted }) :=
      h.sound.lasting.setDispatch hd rfl
    refine h.setDispatch hsound.sound hd rfl ?_ ?_ ?_ ?_
    · intro hphase
      rw [h.claimed d hmem hphase] at hrequest
      cases hrequest
    · intro x hx hunwritten
      rw [h.unwritten d hmem x hx hunwritten] at hrequest
      cases hrequest
    · rintro ⟨hid, -, hrepeats⟩
      left
      refine ⟨hid, ?_, hrepeats⟩
      rw [isWritten, hrequest]
      rfl
    · intro hid _
      exact ⟨hid, rfl, hok d hd hid⟩
  replied s i d exchange h hok hd hphase hunwritten := by
    have hmem := List.mem_of_getElem? hd
    have hsound : s.Lasting (s.setDispatch i { d with
        phase := .sent exchange
        request := if exchange.isUnwritten (barkAdapter isDigit) then .unwritten
          else d.request }) := h.sound.lasting.setDispatch hd rfl
    refine h.setDispatch hsound.sound hd rfl ?_ ?_ ?_ ?_
    · intro hclaimed
      cases hclaimed
    · intro x hx hxunwritten
      cases hx
      exact if_pos hxunwritten
    · rintro ⟨hid, hwritten, -⟩
      left
      refine ⟨hid, ?_, ?_⟩
      · by_cases hx : exchange.isUnwritten (barkAdapter isDigit)
        · simp [isWritten, hx] at hwritten
        · simpa [isWritten, hx] using hwritten
      · intro x hx
        rw [hphase] at hx
        cases hx
    · intro hid haccepted
      by_cases hx : exchange.isUnwritten (barkAdapter isDigit)
      · simp [hx] at haccepted
      · have hrequest : d.request = .accepted := by simpa [hx] using haccepted
        refine ⟨hid, ?_, ?_⟩
        · simp [isWritten, hx, hrequest]
        · intro x hx hrepeats
          cases hx
          exact hok d hd hid hrepeats hrequest

/-- In every run in which nobody asks for a manual resend of a notification and no reply makes a
worker repeat a request for it that the provider accepts, the provider accepts it at most once. -/
theorem acceptances_le_one
    (h : Reaches (step (barkAdapter isDigit)) (Permitted id) init s) : acceptances id s ≤ 1 :=
  ((closed_once isDigit id).reaches once_init h).acceptances_le

/-- A check that implies `Permitted`: requests are accepted before they are answered, and only a
good answer is read. -/
def isAnswered (s : OutboxState BarkReply) : OutboxLabel BarkReply → Bool
  | .requestManualResend _ _ | .claimManualResend _ _ _ => false
  | .accept i => s.dispatches[i]?.all fun d => d.phase.exchange.isNone
  | .reply _ (.replied (.response r _)) =>
      !isBusy r.statusCode && r.body.all fun body => !isBusy body.code
  | .reply _ _ => false
  | _ => true

theorem permitted_of_isAnswered (s : OutboxState BarkReply) (label : OutboxLabel BarkReply)
    (h : s.isAnswered label) : Permitted id s label := by
  cases label with
  | requestManualResend => cases h
  | claimManualResend => cases h
  | accept i =>
      intro d hd _ x hx
      rw [isAnswered, hd, Option.all_some, hx] at h
      cases h
  | reply i exchange =>
      intro d hd _ hrepeats
      cases exchange with
      | replied reply =>
          cases reply with
          | response r now =>
              rw [isAnswered, Bool.and_eq_true, Bool.not_eq_true', Option.all_eq_true] at h
              obtain hbusy | ⟨-, -, body, hbody, hbusy⟩ := hrepeats
              · rw [h.1] at hbusy
                cases hbusy
              · have hgood := h.2 body hbody
                rw [hbusy] at hgood
                cases hgood
          | _ => cases h
      | _ => cases h
  | _ => trivial

/-- The provider accepts the message and answers it. -/
theorem acceptances_le_one_answered :
    ∃ s, acceptances 1 s = 1 ∧
      Reaches (step (barkAdapter Char.isDigit)) (Permitted 1) init s ∧ acceptances 1 s ≤ 1 := by
  have hany : (runChecked (step (barkAdapter Char.isDigit)) isAnswered init
      [.plan 1 2 3 4 0, .claimNext (plainWorker "worker") 0 {}, .markSending 0 1, .accept 0,
        .reply 0 (.replied (.response ⟨200, none, some "receipt", some ⟨200, none⟩⟩ 2)),
        .finish 0 3]).any (fun s => acceptances 1 s == 1) = true := by decide +kernel
  obtain ⟨s, hrun, hs⟩ := (Option.any_eq_true _ _).mp hany
  have hreach : Reaches (step (barkAdapter Char.isDigit)) (Permitted 1) init s :=
    reaches_of_runChecked _ permitted_of_isAnswered hrun
  exact ⟨s, by simpa using hs, hreach, acceptances_le_one hreach⟩

/-- The steps of a run in which nobody asks for a manual resend of a notification. -/
def Unasked (id : ℕ) (_ : OutboxState BarkReply) : OutboxLabel BarkReply → Prop
  | .requestManualResend request _ | .claimManualResend _ request _ => request.notificationId ≠ id
  | _ => True

/-- The connection breaks after the provider has accepted a message, and again for the retry. -/
def brokenRun : List (OutboxLabel BarkReply) :=
  [.plan 1 2 3 4 0, .claimNext (plainWorker "worker") 0 {}, .markSending 0 1, .accept 0,
    .reply 0 (.replied (.raised .readError)), .finish 0 2,
    .claimNext (plainWorker "worker") 60000000 {}, .markSending 1 60000001, .accept 1]

theorem acceptances_readError :
    ¬ ∀ s, Reaches (step (barkAdapter Char.isDigit)) (Unasked 1) init s → acceptances 1 s ≤ 1 := by
  intro hclaim
  have hany : (runLabels (step (barkAdapter Char.isDigit)) init brokenRun).any
      (fun s => acceptances 1 s == 2) = true := by decide +kernel
  obtain ⟨s, hrun, hs⟩ := (Option.any_eq_true _ _).mp hany
  have hunasked : ∀ s l, l ∈ brokenRun → Unasked 1 s l := by
    intro s l hl
    simp only [brokenRun, List.mem_cons, List.not_mem_nil, or_false] at hl
    obtain rfl | rfl | rfl | rfl | rfl | rfl | rfl | rfl | rfl := hl <;> trivial
  have hle := hclaim s (reaches_of_guarded brokenRun hunasked hrun)
  have htwo : acceptances 1 s = 2 := by simpa using hs
  omega

end OutboxState

end CryptoAlert
