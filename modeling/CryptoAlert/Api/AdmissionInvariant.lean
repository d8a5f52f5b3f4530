import CryptoAlert.Api.Admission

/-!
# One task per idempotency key

Whatever the interleaving: only the holder of the entitlement row inserts, and the unique index
refuses a second task with the same key.
-/

namespace CryptoAlert.Admission

variable {P : Type} (requests : ℕ → CreateRequest P)

/-- The phases in which the transaction holds the entitlement row. -/
def Phase.holdsRow : Phase P → Prop
  | .locked _ _ | .counted _ _ | .admitted _ | .inserted _ _ => True
  | _ => False

structure Inv (s : State P) : Prop where
  commands : s.store.commands = s.store.tasks.map (·.id)
  ledger : s.store.ledger.map (·.resourceId) = s.store.tasks.map (·.id)
  ids : (s.store.tasks.map (·.id)).Nodup
  keys : s.store.tasks.Pairwise fun a b =>
    ¬ (a.ownerUserId = b.ownerUserId ∧ a.idempotencyKey = b.idempotencyKey)
  holder : ∀ r, (s.phase r).holdsRow → s.holder = some r
  inserted : ∀ r task periodStart, s.phase r = .inserted task periodStart →
    task.ownerUserId = (requests r).ownerUserId ∧
    task.idempotencyKey = (requests r).idempotencyKey ∧
    task.payload = (requests r).payload ∧
    ∀ t ∈ s.store.tasks, t.id ≠ task.id ∧ t.hasKey (requests r) = false

variable {requests} {s s' : State P}

theorem inv_init (entitlement : Option WorkspaceEntitlement) (pendingReviews : ℕ)
    (reviewAdmissions : List Instant) :
    Inv requests (init entitlement pendingReviews reviewAdmissions) where
  commands := rfl
  ledger := rfl
  ids := List.nodup_nil
  keys := List.Pairwise.nil
  holder r h := h.elim
  inserted r task start h := by simp [init] at h

/-- Ending a transaction without a change of the store. -/
theorem Inv.leave (hinv : Inv requests s) (r : ℕ) {p : Phase P} (hp : ¬ p.holdsRow) :
    Inv requests (s.leave r p) where
  commands := hinv.commands
  ledger := hinv.ledger
  ids := hinv.ids
  keys := hinv.keys
  holder r' h := by
    by_cases hr : r' = r
    · subst hr
      exact absurd (by simpa [State.leave] using h) hp
    · have hholder : s.holder = some r' :=
        hinv.holder r' (by simpa [State.leave, hr] using h)
      have hne : s.holder ≠ some r := by
        rw [hholder]
        simpa using hr
      change (if s.holder = some r then none else s.holder) = some r'
      rw [if_neg hne, hholder]
  inserted r' task start h := by
    by_cases hr : r' = r
    · subst hr
      have hinserted : p = .inserted task start := by simpa [State.leave] using h
      exact absurd (by rw [hinserted]; trivial) hp
    · exact hinv.inserted r' task start (by simpa [State.leave, hr] using h)

/-- Moving on within a transaction that holds the row. -/
theorem Inv.enter (hinv : Inv requests s) {r : ℕ} {p : Phase P} (hholder : s.holder = some r)
    (hp : ∀ task start, p = .inserted task start →
      task.ownerUserId = (requests r).ownerUserId ∧
      task.idempotencyKey = (requests r).idempotencyKey ∧
      task.payload = (requests r).payload ∧
      ∀ t ∈ s.store.tasks, t.id ≠ task.id ∧ t.hasKey (requests r) = false) :
    Inv requests (s.enter r p) where
  commands := hinv.commands
  ledger := hinv.ledger
  ids := hinv.ids
  keys := hinv.keys
  holder r' h := by
    by_cases hr : r' = r
    · rw [hr]
      exact hholder
    · exact hinv.holder r' (by simpa [State.enter, hr] using h)
  inserted r' task start h := by
    by_cases hr : r' = r
    · subst hr
      exact hp task start (by simpa [State.enter] using h)
    · exact hinv.inserted r' task start (by simpa [State.enter, hr] using h)

theorem Inv.enter_free (hinv : Inv requests s) (r : ℕ) {p : Phase P} (hp : ¬ p.holdsRow) :
    Inv requests (s.enter r p) where
  commands := hinv.commands
  ledger := hinv.ledger
  ids := hinv.ids
  keys := hinv.keys
  holder r' h := by
    by_cases hr : r' = r
    · subst hr
      exact absurd (by simpa [State.enter] using h) hp
    · exact hinv.holder r' (by simpa [State.enter, hr] using h)
  inserted r' task start h := by
    by_cases hr : r' = r
    · subst hr
      have hinserted : p = .inserted task start := by simpa [State.enter] using h
      exact absurd (by rw [hinserted]; trivial) hp
    · exact hinv.inserted r' task start (by simpa [State.enter, hr] using h)

/-- Taking the free row. -/
theorem Inv.lock (hinv : Inv requests s) (hfree : s.holder = none) (r : ℕ)
    (e : WorkspaceEntitlement) (now : Instant) :
    Inv requests { s.enter r (.locked e now) with holder := some r } where
  commands := hinv.commands
  ledger := hinv.ledger
  ids := hinv.ids
  keys := hinv.keys
  holder r' h := by
    by_cases hr : r' = r
    · rw [hr]
    · have hholder := hinv.holder r' (by simpa [State.enter, hr] using h)
      rw [hfree] at hholder
      cases hholder
  inserted r' task start h := by
    by_cases hr : r' = r
    · subst hr
      simp [State.enter] at h
    · exact hinv.inserted r' task start (by simpa [State.enter, hr] using h)

/-- A change from outside that keeps the key columns of every task. -/
theorem Inv.external (hinv : Inv requests s) {store : Store P} {f : Task P → Task P}
    (hf : ∀ t, (f t).id = t.id ∧ (f t).ownerUserId = t.ownerUserId ∧
      (f t).idempotencyKey = t.idempotencyKey)
    (htasks : store.tasks = s.store.tasks.map f) (hcommands : store.commands = s.store.commands)
    (hledger : store.ledger = s.store.ledger) : Inv requests { s with store } where
  commands := by
    rw [hcommands, htasks, hinv.commands, List.map_map]
    exact List.map_congr_left fun t _ => (hf t).1.symm
  ledger := by
    rw [hledger, htasks, hinv.ledger, List.map_map]
    exact List.map_congr_left fun t _ => (hf t).1.symm
  ids := by
    have hids : (store.tasks.map (·.id)) = s.store.tasks.map (·.id) := by
      rw [htasks, List.map_map]
      exact List.map_congr_left fun t _ => (hf t).1
    rw [hids]
    exact hinv.ids
  keys := by
    rw [htasks, List.pairwise_map]
    refine hinv.keys.imp ?_
    intro a b h
    rw [(hf a).2.1, (hf a).2.2, (hf b).2.1, (hf b).2.2]
    exact h
  holder := hinv.holder
  inserted r task start h := by
    obtain ⟨howner, hkey, hpayload, hfresh⟩ := hinv.inserted r task start h
    refine ⟨howner, hkey, hpayload, ?_⟩
    intro t ht
    rw [htasks] at ht
    obtain ⟨t₀, ht₀, rfl⟩ := List.mem_map.mp ht
    obtain ⟨hid, hno⟩ := hfresh t₀ ht₀
    rw [(hf t₀).1]
    refine ⟨hid, ?_⟩
    rw [Task.hasKey, (hf t₀).2.1, (hf t₀).2.2]
    exact hno

/-- The commit of the inserted task, its command and its ledger entry. -/
theorem Inv.commit (hinv : Inv requests s) {r : ℕ} {task : Task P} {periodStart : Instant}
    (hphase : s.phase r = .inserted task periodStart) :
    Inv requests { s.leave r (.done (.task task.id)) with
      store := { s.store with
        tasks := s.store.tasks ++ [task]
        commands := s.store.commands ++ [task.id]
        ledger := s.store.ledger ++ [⟨task.id, periodStart⟩] } } := by
  obtain ⟨howner, hkey, _, hfresh⟩ := hinv.inserted r task periodStart hphase
  have hleave := hinv.leave r (p := .done (.task task.id)) (fun h => h)
  refine ⟨?_, ?_, ?_, ?_, hleave.holder, ?_⟩
  · simp [hinv.commands]
  · simp [hinv.ledger]
  · rw [List.map_append, List.nodup_append]
    refine ⟨hinv.ids, by simp, ?_⟩
    intro a ha b hb hab
    obtain ⟨t, ht, rfl⟩ := List.mem_map.mp ha
    rw [List.map_singleton, List.mem_singleton] at hb
    exact (hfresh t ht).1 (hab.trans hb)
  · rw [List.pairwise_append]
    refine ⟨hinv.keys, List.pairwise_singleton _ _, ?_⟩
    intro a ha b hb hab
    rw [List.mem_singleton] at hb
    subst hb
    have hno := (hfresh a ha).2
    simp [Task.hasKey, ← howner, ← hkey, hab.1, hab.2] at hno
  · -- No other transaction can be past its insert, since this one holds the row.
    intro r' task' start' h
    have hold := hleave.holder r' (by
      rw [show (s.leave r (.done (.task task.id))).phase r' = .inserted task' start' from h]
      trivial)
    have hr := hinv.holder r (by rw [hphase]; trivial)
    change (if s.holder = some r then none else s.holder) = some r' at hold
    rw [if_pos hr] at hold
    cases hold

/-- The lookup finds the one task that has the key. -/
theorem Inv.find (hinv : Inv requests s) {c : CreateRequest P} {t : Task P}
    (ht : t ∈ s.store.tasks) (hkey : t.hasKey c = true) :
    s.store.findAdmissionTask c = some t := by
  have hsame : ∀ a : Task P, a.hasKey c = true →
      a.ownerUserId = t.ownerUserId ∧ a.idempotencyKey = t.idempotencyKey := by
    intro a ha
    simp only [Task.hasKey, Bool.and_eq_true, beq_iff_eq] at ha hkey
    exact ⟨ha.1.trans hkey.1.symm, ha.2.trans hkey.2.symm⟩
  have hkeys := hinv.keys
  unfold Store.findAdmissionTask
  generalize s.store.tasks = tasks at ht hkeys ⊢
  induction tasks with
  | nil => cases ht
  | cons a tasks ih =>
      rw [List.pairwise_cons] at hkeys
      rcases List.mem_cons.mp ht with rfl | hmem
      · simp [hkey]
      · have hno : a.hasKey c = false := by
          by_contra hyes
          exact hkeys.1 t hmem (hsame a (by simpa using hyes))
        rw [List.find?_cons, hno]
        exact ih hmem hkeys.2

theorem Inv.filter_length_le_one (hinv : Inv requests s) (c : CreateRequest P) :
    (s.store.tasks.filter (·.hasKey c)).length ≤ 1 := by
  have hpair := hinv.keys.sublist (List.filter_sublist (p := fun t => t.hasKey c))
  have hkey : ∀ t ∈ s.store.tasks.filter (·.hasKey c),
      t.ownerUserId = c.ownerUserId ∧ t.idempotencyKey = c.idempotencyKey := by
    intro t ht
    simpa [Task.hasKey] using (List.mem_filter.mp ht).2
  generalize s.store.tasks.filter (·.hasKey c) = found at hpair hkey ⊢
  match found with
  | [] => simp
  | [t] => simp
  | t :: t' :: rest =>
      rw [List.pairwise_cons] at hpair
      have ht := hkey t (by simp)
      have ht' := hkey t' (by simp)
      exact absurd ⟨ht.1.trans ht'.1.symm, ht.2.trans ht'.2.symm⟩ (hpair.1 t' (by simp))

variable [DecidableEq P]

/-- Every step keeps the invariant, whatever the interleaving. -/
theorem step_inv (hinv : Inv requests s) {l : Label P} (h : step requests s l = some s') :
    Inv requests s' := by
  have hfree : ∀ o : Outcome, ¬ (Phase.done o : Phase P).holdsRow := fun _ h => h
  cases l with
  | lookup r =>
      simp only [step] at h
      split at h
      · split at h <;> cases h
        · exact hinv.leave r (hfree _)
        · exact hinv.enter_free r (fun h => h)
      · cases h
  | lock r now =>
      simp only [step] at h
      split at h
      · rename_i hholder
        split at h
        · cases h
          exact hinv.leave r (hfree _)
        · split_ifs at h <;> cases h
          · exact hinv.leave r (hfree _)
          · exact hinv.leave r (hfree _)
          · exact hinv.lock hholder r _ now
      · cases h
  | countActive r =>
      simp only [step] at h
      split at h
      · rename_i e now hphase
        have hholder := hinv.holder r (by rw [hphase]; trivial)
        split_ifs at h <;> cases h
        · exact hinv.leave r (hfree _)
        · exact hinv.enter hholder nofun
      · cases h
  | checkMonthly r =>
      simp only [step] at h
      split at h
      · rename_i e now hphase
        have hholder := hinv.holder r (by rw [hphase]; trivial)
        split_ifs at h <;> cases h
        · exact hinv.leave r (hfree _)
        · exact hinv.enter hholder nofun
      · cases h
  | insert r taskId =>
      simp only [step] at h
      split at h
      · rename_i start hphase
        have hholder := hinv.holder r (by rw [hphase]; trivial)
        split_ifs at h with hany <;> cases h
        · exact hinv.leave r (fun h => h)
        · refine hinv.enter hholder ?_
          intro task start' htask
          cases htask
          refine ⟨rfl, rfl, rfl, ?_⟩
          intro t ht
          simp only [List.any_eq_true, not_exists, not_and, Bool.or_eq_true, beq_iff_eq,
            not_or, Bool.not_eq_true] at hany
          exact hany t ht
      · cases h
  | commit r =>
      simp only [step] at h
      split at h
      · rename_i task start hphase
        cases h
        exact hinv.commit hphase
      · cases h
  | reread r =>
      simp only [step] at h
      split at h
      · split at h <;> cases h
        · exact hinv.leave r (hfree _)
        · exact hinv.leave r (hfree _)
      · cases h
  | crash r =>
      simp only [step] at h
      split at h
      · cases h
      · cases h
        exact hinv.leave r (fun h => h)
  | setActive taskId active =>
      simp only [step, Option.some.injEq] at h
      subst h
      refine hinv.external (f := fun t => if t.id = taskId then { t with active } else t) ?_
        rfl rfl rfl
      intro t
      by_cases ht : t.id = taskId <;> simp [ht]
  | setReviews reviews admissions =>
      simp only [step, Option.some.injEq] at h
      subst h
      exact hinv.external (f := id) (fun _ => ⟨rfl, rfl, rfl⟩) (List.map_id _).symm rfl rfl
  | setEntitlement entitlement =>
      simp only [step] at h
      split_ifs at h
      cases h
      exact hinv.external (f := id) (fun _ => ⟨rfl, rfl, rfl⟩) (List.map_id _).symm rfl rfl

end CryptoAlert.Admission
