import CryptoAlert.Workspace.Locks

/-!
# What one statement of a delivery does

A statement ends its delivery without a trace, moves it on while it holds the rows it has locked,
or commits a trigger, alone or together with its task, its command and its charge.
-/

namespace CryptoAlert

namespace DeliveryPhase

/-- The row of a monitor that a delivery holds. -/
def monitor : DeliveryPhase → Option MonitorDefinition
  | locked m | unseen m | counting m _ _ _ | suppressing m _ _ | admitting m _ => some m
  | start | done _ | crashed => none

/-- The delivery is past the lock of the entitlement and may still be admitted. -/
def holdsEntitlement : DeliveryPhase → Prop
  | counting _ _ _ _ | admitting _ _ => True
  | _ => False

/-- The transaction is over. -/
def ended : DeliveryPhase → Prop
  | done _ | crashed => True
  | _ => False

end DeliveryPhase

/-- The query after a count. -/
def TriggerCount.after : TriggerCount → Option TriggerCount
  | monitors => some latest
  | latest => some usage
  | usage => some tasks
  | tasks => none

namespace Workspace

variable (cfg : WorkspaceConfig) (w : Workspace) (r : ℕ)

/-- The states that a statement of a delivery may lead to. -/
inductive DeliveryMove : Workspace → Prop where
  | leave (p : DeliveryPhase) (ended : p.ended)
      (receipt : ∀ id, p = .done (.receipt id false) → ∃ m, w.deliveries r = .locked m ∧
        ∃ g, findExistingTrigger w.rows.triggers m (cfg.deliveries r).kind
          (cfg.deliveries r).identity = some g ∧ g.id = id)
      (old : ∀ id, p ≠ .done (.receipt id true)) : DeliveryMove (w.leaveDelivery r p)
  | lock (m : MonitorDefinition) (start : w.deliveries r = .start)
      (found : w.rows.findMonitor m.id = some m) (named : m.id = (cfg.deliveries r).monitorId)
      (free : w.monitorHolder m.id = none) :
      DeliveryMove { w.enterDelivery r (.locked m) with
        monitorHolder := Function.update w.monitorHolder m.id (some r) }
  | absent (m : MonitorDefinition) (p : DeliveryPhase) (locked : w.deliveries r = .locked m)
      (absent : findExistingTrigger w.rows.triggers m (cfg.deliveries r).kind
        (cfg.deliveries r).identity = none)
      (next : p = .unseen m ∨ ∃ version reason, p = .suppressing m version reason) :
      DeliveryMove (w.enterDelivery r p)
  | entitled (m : MonitorDefinition) (p : DeliveryPhase) (unseen : w.deliveries r = .unseen m)
      (free : w.holder = none)
      (next : (∃ e, w.rows.entitlement = some e ∧ p = .counting m e .monitors none) ∨
        ∃ version reason, p = .suppressing m version reason) :
      DeliveryMove { w.enterDelivery r p with holder := some (.delivery r) }
  | counted (m : MonitorDefinition) (e : Entitlement) (next : TriggerCount)
      (reason : Option String) (p : DeliveryPhase)
      (counting : w.deliveries r = .counting m e next reason)
      (next : (∃ following, next.after = some following ∧ p = .counting m e following
          (w.afterCount m e (cfg.deliveries r).receivedAt next reason)) ∨
        (next.after = none ∧ w.afterCount m e (cfg.deliveries r).receivedAt next reason = none ∧
          p = .admitting m e) ∨
        ∃ version reason, p = .suppressing m version reason) :
      DeliveryMove (w.enterDelivery r p)
  | suppressed (m : MonitorDefinition) (version : ℤ) (reason : String) (ids : InsertedIds)
      (suppressing : w.deliveries r = .suppressing m version reason)
      (joins : (suppressedTrigger (cfg.deliveries r) m ids.triggerId version reason).mayJoin
        w.rows.triggers = true) :
      DeliveryMove { w.leaveDelivery r (.done (.receipt ids.triggerId true)) with
        rows := { w.rows with triggers := w.rows.triggers ++
          [suppressedTrigger (cfg.deliveries r) m ids.triggerId version reason] } }
  | admitted (m : MonitorDefinition) (e : Entitlement) (identity : String) (ids : InsertedIds)
      (admitting : w.deliveries r = .admitting m e)
      (identified : (cfg.deliveries r).identity = some identity)
      (joins : (admittedTrigger (cfg.deliveries r) m ids).mayJoin w.rows.triggers = true)
      (fresh : w.rows.mayAddTask
        (triggeredTask cfg m (cfg.deliveries r).kind identity ids) = true)
      (uncharged : ∀ e ∈ w.rows.ledger, e.key ≠
        .monitorTrigger m.id (cfg.deliveries r).kind identity) :
      DeliveryMove { w.leaveDelivery r (.done (.receipt ids.triggerId true)) with
        rows := { w.rows with
          triggers := w.rows.triggers ++ [admittedTrigger (cfg.deliveries r) m ids]
          tasks := w.rows.tasks ++
            [triggeredTask cfg m (cfg.deliveries r).kind identity ids]
          ledger := w.rows.ledger ++ [triggerEntry cfg m (cfg.deliveries r).kind identity ids
            (cfg.deliveries r).receivedAt] } }

variable {cfg w r} {w' : Workspace}

theorem lockMonitor_move (hstart : w.deliveries r = .start) (h : w.lockMonitor cfg r = some w') :
    DeliveryMove cfg w r w' := by
  have hleave : ∀ o, (∀ id created, o ≠ .receipt id created) →
      DeliveryMove cfg w r (w.leaveDelivery r (.done o)) := by
    intro o ho
    refine .leave (.done o) trivial ?_ ?_
    · intro id heq
      cases heq
      exact absurd rfl (ho id false)
    · intro id heq
      cases heq
      exact absurd rfl (ho id true)
  have hlock : ∀ m, (∃ p, (w.rows.findMonitor (cfg.deliveries r).monitorId).filter p = some m) →
      w.monitorHolder m.id = none → DeliveryMove cfg w r { w.enterDelivery r (.locked m) with
        monitorHolder := Function.update w.monitorHolder m.id (some r) } := by
    rintro m ⟨p, hm⟩ hfree
    have hfound : w.rows.findMonitor (cfg.deliveries r).monitorId = some m :=
      (Option.filter_eq_some_iff.mp hm).1
    have hid : m.id = (cfg.deliveries r).monitorId := (Table.find_eq_some hfound).2
    exact .lock m hstart (by rw [hid]; exact hfound) hid hfree
  unfold lockMonitor at h
  cases hd : cfg.deliveries r with
  | trigger d =>
      simp only [hd] at h
      split_ifs at h with hform
      · cases h
        exact hleave _ nofun
      · split at h
        · cases h
          exact hleave _ nofun
        · rename_i m hm
          split_ifs at h with hheld haccepts
          · cases h
            exact hleave _ nofun
          · cases h
            exact hlock m ⟨_, by rw [hd]; exact hm⟩ (by simpa using hheld)
  | revoked d =>
      simp only [hd] at h
      split at h
      · cases h
        exact hleave _ nofun
      · rename_i m hm
        split_ifs at h with hheld haccepts
        · cases h
          exact hleave _ nofun
        · cases h
          exact hlock m ⟨_, by rw [hd]; exact hm⟩ (by simpa using hheld)

theorem lookupTrigger_move {m : MonitorDefinition} (hlocked : w.deliveries r = .locked m) :
    DeliveryMove cfg w r (w.lookupTrigger cfg r m) := by
  unfold lookupTrigger
  cases hfind : findExistingTrigger w.rows.triggers m (cfg.deliveries r).kind
      (cfg.deliveries r).identity with
  | some g =>
      simp only [hfind]
      refine .leave (.done (.receipt g.id false)) trivial ?_ nofun
      intro id heq
      cases heq
      exact ⟨m, hlocked, g, hfind, rfl⟩
  | none =>
      simp only [hfind]
      split
      · split_ifs with hversion
        · exact .leave (.done .rejected) trivial nofun nofun
        · exact .absent m (.unseen m) hlocked hfind (.inl rfl)
      · exact .absent m _ hlocked hfind (.inr ⟨_, _, rfl⟩)

theorem lockEntitlement_move {m : MonitorDefinition} (hunseen : w.deliveries r = .unseen m)
    (h : w.lockEntitlement cfg r m = some w') : DeliveryMove cfg w r w' := by
  unfold lockEntitlement at h
  cases hholder : w.holder with
  | some _ => simp [hholder] at h
  | none =>
      cases hd : cfg.deliveries r with
      | revoked d => simp [hholder, hd] at h
      | trigger d =>
          simp only [hholder, hd, Option.some.injEq] at h
          subst h
          refine .entitled m _ hunseen hholder ?_
          cases husable : usableEntitlement w.rows.entitlement d.receivedAt with
          | none => exact .inr ⟨_, _, rfl⟩
          | some e =>
              cases hreason : earlyReason cfg.clock m (some e) (d.effectiveVersion m)
                  d.receivedAt with
              | none =>
                  exact .inl ⟨e, (Option.filter_eq_some_iff.mp husable).1, rfl⟩
              | some reason => exact .inr ⟨_, _, rfl⟩

theorem countStep_move {m : MonitorDefinition} {e : Entitlement} {next : TriggerCount}
    {reason : Option String} (hcounting : w.deliveries r = .counting m e next reason) :
    DeliveryMove cfg w r (w.countStep cfg r m e next reason) := by
  cases next with
  | tasks =>
      cases hreason : w.afterCount m e (cfg.deliveries r).receivedAt .tasks reason with
      | none =>
          have hstep : w.countStep cfg r m e .tasks reason =
              w.enterDelivery r (.admitting m e) := by
            simp only [countStep, hreason]
          rw [hstep]
          exact .counted m e .tasks reason _ hcounting (.inr (.inl ⟨rfl, hreason, rfl⟩))
      | some text =>
          cases hd : cfg.deliveries r with
          | trigger d =>
              have hstep : w.countStep cfg r m e .tasks reason =
                  w.enterDelivery r (.suppressing m (d.effectiveVersion m) text) := by
                rw [hd] at hreason
                simp only [countStep, hd, hreason]
              rw [hstep]
              exact .counted m e .tasks reason _ hcounting (.inr (.inr ⟨_, _, rfl⟩))
          | revoked d =>
              have hstep : w.countStep cfg r m e .tasks reason =
                  w.enterDelivery r (.suppressing m d.scheduleVersion text) := by
                rw [hd] at hreason
                simp only [countStep, hd, hreason]
              rw [hstep]
              exact .counted m e .tasks reason _ hcounting (.inr (.inr ⟨_, _, rfl⟩))
  | monitors => exact .counted m e .monitors reason _ hcounting (.inl ⟨_, rfl, rfl⟩)
  | latest => exact .counted m e .latest reason _ hcounting (.inl ⟨_, rfl, rfl⟩)
  | usage => exact .counted m e .usage reason _ hcounting (.inl ⟨_, rfl, rfl⟩)

theorem suppress_move {m : MonitorDefinition} {version : ℤ} {reason : String}
    {ids : InsertedIds} (hphase : w.deliveries r = .suppressing m version reason) :
    DeliveryMove cfg w r (w.suppress cfg r m version reason ids) := by
  unfold suppress
  dsimp only
  split_ifs with hjoins
  · exact .suppressed m version reason ids hphase hjoins
  · exact .leave (.done .integrityError) trivial nofun nofun

theorem admitDelivery_move {m : MonitorDefinition} {e : Entitlement} {ids : InsertedIds}
    (hphase : w.deliveries r = .admitting m e) :
    DeliveryMove cfg w r (w.admitDelivery cfg r m ids) := by
  unfold admitDelivery
  cases hidentity : (cfg.deliveries r).identity with
  | none =>
      simp only [hidentity]
      exact .leave (.done .rejected) trivial nofun nofun
  | some identity =>
      simp only [hidentity]
      split_ifs with hchecks
      · simp only [Bool.and_eq_true, List.all_eq_true, bne_iff_ne] at hchecks
        obtain ⟨⟨hjoins, hfresh⟩, huncharged⟩ := hchecks
        exact .admitted m e identity ids hphase hidentity hjoins hfresh huncharged
      · exact .leave (.done .integrityError) trivial nofun nofun

theorem deliverStep_move {ids : InsertedIds} (h : w.deliverStep cfg r ids = some w') :
    DeliveryMove cfg w r w' := by
  unfold deliverStep at h
  cases hphase : w.deliveries r with
  | start =>
      rw [hphase] at h
      exact lockMonitor_move hphase h
  | locked m =>
      simp only [hphase, Option.some.injEq] at h
      subst h
      exact lookupTrigger_move hphase
  | unseen m =>
      rw [hphase] at h
      exact lockEntitlement_move hphase h
  | counting m e next reason =>
      simp only [hphase, Option.some.injEq] at h
      subst h
      exact countStep_move hphase
  | suppressing m version reason =>
      simp only [hphase, Option.some.injEq] at h
      subst h
      exact suppress_move hphase
  | admitting m e =>
      simp only [hphase, Option.some.injEq] at h
      subst h
      exact admitDelivery_move hphase
  | done o => simp [hphase] at h
  | crashed => simp [hphase] at h

end Workspace

end CryptoAlert
