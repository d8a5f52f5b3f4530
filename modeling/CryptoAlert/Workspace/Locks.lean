import CryptoAlert.Api.AdmissionInvariant
import CryptoAlert.Workspace.Reconcile

/-!
# Who holds which row

A transaction that is past its lock holds the row until it ends. Everything that the counts of a
transaction have seen and that only holders change is therefore still so at its commit.
-/

namespace CryptoAlert

namespace Admission

variable {P : Type}

/-- The request that a statement belongs to. -/
def Label.request : Label P → Option ℕ
  | .lookup r | .lock r _ | .countActive r | .checkMonthly r | .insert r _ | .commit r
  | .reread r | .crash r => some r
  | .setActive _ _ | .setReviews _ _ | .setEntitlement _ => none

/-- The request is past the count of the active tasks. -/
def Phase.passed : Phase P → Prop
  | .counted _ _ | .admitted _ | .inserted _ _ => True
  | _ => False

/-- What one statement of a request does to the phases and to the lock. -/
structure Statement (requests : ℕ → CreateRequest P) (l : Label P) (r : ℕ) (s s' : State P) :
    Prop where
  others : ∀ r', r' ≠ r → s'.phase r' = s.phase r'
  holder : (s'.holder = s.holder ∧ ((s'.phase r).holdsRow → (s.phase r).holdsRow)) ∨
    ((∃ now, l = .lock r now) ∧ s.holder = none ∧ s'.holder = some r) ∨
    (s.holder = some r ∧ s'.holder = none ∧ ¬ (s'.phase r).holdsRow)
  locked : ∀ e now, s'.phase r = .locked e now → s.store.entitlement = some e
  passed : (s'.phase r).passed → (s.phase r).passed ∨
    ∃ e now, s.phase r = .locked e now ∧ s.store.activeOperations < e.maxConcurrentTasks
  inserted : ∀ task periodStart, s'.phase r = .inserted task periodStart →
    task.ownerUserId = (requests r).ownerUserId ∧
      task.idempotencyKey = (requests r).idempotencyKey ∧
      ∀ t ∈ s.store.tasks, t.id ≠ task.id ∧ t.hasKey (requests r) = false

variable {requests : ℕ → CreateRequest P} {l : Label P} {s s' : State P} {r : ℕ}

/-- A request whose transaction ends. -/
theorem Statement.leave {p : Phase P} (hp : ¬ p.holdsRow) :
    Statement requests l r s (s.leave r p) := by
  have hphase : (s.leave r p).phase r = p := by simp [State.leave]
  have hpassed : ¬ p.passed := by
    intro h
    cases p <;> first | exact hp trivial | exact h
  refine ⟨?_, ?_, ?_, ?_, ?_⟩
  · intro r' hr
    simp [State.leave, hr]
  · by_cases hholder : s.holder = some r
    · refine .inr (.inr ⟨hholder, ?_, ?_⟩)
      · simp [State.leave, hholder]
      · rw [hphase]
        exact hp
    · refine .inl ⟨?_, ?_⟩
      · simp [State.leave, hholder]
      · rw [hphase]
        intro h
        exact absurd h hp
  · intro e now h
    rw [hphase] at h
    rw [h] at hp
    exact absurd trivial hp
  · intro h
    rw [hphase] at h
    exact absurd h hpassed
  · intro task periodStart h
    rw [hphase] at h
    rw [h] at hp
    exact absurd trivial hp

/-- A request that moves on within its transaction. -/
theorem Statement.enter {p : Phase P} (hholds : p.holdsRow → (s.phase r).holdsRow)
    (hlocked : ∀ e now, p ≠ .locked e now)
    (hpassed : p.passed → (s.phase r).passed ∨
      ∃ e now, s.phase r = .locked e now ∧ s.store.activeOperations < e.maxConcurrentTasks)
    (hinserted : ∀ task periodStart, p = .inserted task periodStart →
      task.ownerUserId = (requests r).ownerUserId ∧
        task.idempotencyKey = (requests r).idempotencyKey ∧
        ∀ t ∈ s.store.tasks, t.id ≠ task.id ∧ t.hasKey (requests r) = false) :
    Statement requests l r s (s.enter r p) := by
  have hphase : (s.enter r p).phase r = p := by simp [State.enter]
  refine ⟨?_, .inl ⟨rfl, ?_⟩, ?_, ?_, ?_⟩
  · intro r' hr
    simp [State.enter, hr]
  · rw [hphase]
    exact hholds
  · intro e now h
    rw [hphase] at h
    exact absurd h (hlocked e now)
  · rw [hphase]
    exact hpassed
  · intro task periodStart h
    rw [hphase] at h
    exact hinserted task periodStart h

theorem step_statement [DecidableEq P] (hl : l.request = some r)
    (h : step requests s l = some s') : Statement requests l r s s' := by
  have hends : ∀ o, ¬ (Phase.done o : Phase P).holdsRow := fun o h => h
  cases l with
  | lookup _ =>
      cases hl
      cases hphase : s.phase r with
      | start =>
          simp only [step, hphase] at h
          cases hfind : s.store.findAdmissionTask (requests r) with
          | some existing =>
              rw [hfind] at h
              cases h
              exact .leave (hends _)
          | none =>
              rw [hfind] at h
              cases h
              exact .enter (fun h => h.elim) (fun _ _ h => by cases h) (fun h => h.elim)
                (fun _ _ h => by cases h)
      | _ => simp [step, hphase] at h
  | lock _ now =>
      cases hl
      cases hphase : s.phase r with
      | lookedUp =>
          cases hholder : s.holder with
          | some _ => simp [step, hphase, hholder] at h
          | none =>
              cases hent : s.store.entitlement with
              | none =>
                  simp only [step, hphase, hholder, hent, Option.some.injEq] at h
                  subst h
                  exact .leave (hends _)
              | some e =>
                  simp only [step, hphase, hholder, hent] at h
                  split_ifs at h with havailable hmode
                  · cases h
                    exact .leave (hends _)
                  · cases h
                    exact .leave (hends _)
                  · cases h
                    refine ⟨?_, .inr (.inl ⟨⟨now, rfl⟩, hholder, rfl⟩), ?_, ?_, ?_⟩
                    · intro r₁ hr
                      simp [State.enter, hr]
                    · intro e' now' hlocked
                      simp only [State.enter, Function.update_self, Phase.locked.injEq] at hlocked
                      rw [hent, hlocked.1]
                    · intro hpassed
                      simp only [State.enter, Function.update_self] at hpassed
                      exact hpassed.elim
                    · intro task periodStart hinserted
                      simp [State.enter] at hinserted
      | _ => simp [step, hphase] at h
  | countActive _ =>
      cases hl
      cases hphase : s.phase r with
      | locked e now =>
          simp only [step, hphase] at h
          split_ifs at h with hfull
          · cases h
            exact .leave (hends _)
          · cases h
            refine .enter (fun _ => by rw [hphase]; trivial) (fun _ _ h => by cases h) (fun _ => ?_)
              (fun _ _ h => by cases h)
            exact .inr ⟨e, now, hphase, Nat.not_le.mp hfull⟩
      | _ => simp [step, hphase] at h
  | checkMonthly _ =>
      cases hl
      cases hphase : s.phase r with
      | counted e now =>
          simp only [step, hphase] at h
          split_ifs at h with hfull
          · cases h
            exact .leave (hends _)
          · cases h
            exact .enter (fun _ => by rw [hphase]; trivial) (fun _ _ h => by cases h)
              (fun _ => .inl (by rw [hphase]; trivial)) (fun _ _ h => by cases h)
      | _ => simp [step, hphase] at h
  | insert _ taskId =>
      cases hl
      cases hphase : s.phase r with
      | admitted periodStart =>
          simp only [step, hphase] at h
          split_ifs at h with htaken
          · cases h
            exact .leave (fun h => h)
          · cases h
            refine .enter (fun _ => by rw [hphase]; trivial) (fun _ _ h => by cases h)
              (fun _ => .inl (by rw [hphase]; trivial)) ?_
            intro task start heq
            cases heq
            refine ⟨rfl, rfl, ?_⟩
            intro t ht
            simp only [List.any_eq_true, Bool.or_eq_true, beq_iff_eq, not_exists, not_and,
              not_or, Bool.not_eq_true] at htaken
            exact htaken t ht
      | _ => simp [step, hphase] at h
  | commit _ =>
      cases hl
      cases hphase : s.phase r with
      | inserted task periodStart =>
          simp only [step, hphase, Option.some.injEq] at h
          subst h
          have hleave : Statement requests (.commit r) r s (s.leave r (.done (.task task.id))) :=
            .leave (hends _)
          exact ⟨hleave.others, hleave.holder, hleave.locked, hleave.passed, hleave.inserted⟩
      | _ => simp [step, hphase] at h
  | reread _ =>
      cases hl
      cases hphase : s.phase r with
      | rolledBack =>
          simp only [step, hphase] at h
          cases hfind : s.store.findAdmissionTask (requests r) with
          | some existing =>
              rw [hfind] at h
              cases h
              exact .leave (hends _)
          | none =>
              rw [hfind] at h
              cases h
              exact .leave (hends _)
      | _ => simp [step, hphase] at h
  | crash _ =>
      cases hl
      cases hphase : s.phase r with
      | done o => simp [step, hphase] at h
      | _ =>
          simp only [step, hphase, Option.some.injEq] at h
          subst h
          exact .leave (fun h => h)
  | setActive | setReviews | setEntitlement => cases hl

end Admission

end CryptoAlert
