import CryptoAlert.Api.AdmissionInvariant
import Mathlib.Data.List.Nodup

/-!
# Admission is idempotent while the quota has room

A late duplicate is answered with the task of its key only if the quota lets it get as far as
the insert, because the lookup precedes the lock and the quota check precedes the unique index.
-/

namespace CryptoAlert.Admission

variable {P : Type} {requests : ℕ → CreateRequest P} {s s' : State P}

theorem leave_done {r r' : ℕ} {p : Phase P} {o : Outcome}
    (hund : ∀ o, s.phase r' ≠ .done o) (h : (s.leave r p).phase r' = .done o) :
    r' = r ∧ p = .done o := by
  by_cases hr : r' = r
  · subst hr
    exact ⟨rfl, by simpa [State.leave] using h⟩
  · exact absurd (by simpa [State.leave, hr] using h) (hund o)

theorem enter_done {r r' : ℕ} {p : Phase P} {o : Outcome}
    (hund : ∀ o, s.phase r' ≠ .done o) (h : (s.enter r p).phase r' = .done o) :
    r' = r ∧ p = .done o := by
  by_cases hr : r' = r
  · subst hr
    exact ⟨rfl, by simpa [State.enter] using h⟩
  · exact absurd (by simpa [State.enter, hr] using h) (hund o)
/-- The task of the key of a request is committed. -/
def Committed (requests : ℕ → CreateRequest P) (s : State P) (r : ℕ) : Prop :=
  ∃ t ∈ s.store.tasks, t.hasKey (requests r) = true

/-- A request whose task is already committed finds the entitlement available, its mode allowed
and room in both quotas whenever it comes to these checks. -/
def HasRoom (requests : ℕ → CreateRequest P) (s : State P) : Label P → Prop
  | .lock r now => Committed requests s r → ∃ e, s.store.entitlement = some e ∧
      e.isAvailable now = true ∧ e.allowedTaskTypes.contains (requests r).taskType = true
  | .countActive r => Committed requests s r → ∀ e now, s.phase r = .locked e now →
      s.store.activeOperations < e.maxConcurrentTasks
  | .checkMonthly r => Committed requests s r → ∀ e now, s.phase r = .counted e now →
      s.store.total (usagePeriodStart now) < e.monthlyAgentAdmissionLimit
  | _ => True

variable [DecidableEq P]

/-- A request answered after its task was committed is answered with that task, or with a
conflict if its payload is another. -/
theorem step_answer (hinv : Inv requests s) {l : Label P} (hroom : HasRoom requests s l)
    (h : step requests s l = some s') {r : ℕ} {t : Task P} {o : Outcome}
    (ht : t ∈ s.store.tasks) (hkey : t.hasKey (requests r) = true)
    (hund : ∀ o, s.phase r ≠ .done o) (hdone : s'.phase r = .done o) :
    o = replay (requests r) t := by
  have hcommitted : Committed requests s r := ⟨t, ht, hkey⟩
  have hfind := hinv.find ht hkey
  cases l with
  | lookup r₀ =>
      simp only [step] at h
      split at h
      · split at h <;> cases h
        · rename_i existing hexisting
          obtain ⟨rfl, ho⟩ := leave_done hund hdone
          rw [hfind, Option.some.injEq] at hexisting
          rw [hexisting]
          exact (Phase.done.inj ho).symm
        · obtain ⟨rfl, ho⟩ := enter_done hund hdone
          cases ho
      · cases h
  | lock r₀ now =>
      simp only [step] at h
      split at h
      · by_cases hr : r = r₀
        · subst hr
          obtain ⟨e, he, havailable, hmode⟩ := hroom hcommitted
          simp only [he, havailable, hmode, Bool.not_true, Bool.false_eq_true, if_false] at h
          cases h
          obtain ⟨_, ho⟩ := enter_done hund hdone
          cases ho
        · exfalso
          split at h
          · cases h
            exact hr (leave_done hund hdone).1
          · split_ifs at h <;> cases h
            · exact hr (leave_done hund hdone).1
            · exact hr (leave_done hund hdone).1
            · exact hr (enter_done hund hdone).1
      · cases h
  | countActive r₀ =>
      simp only [step] at h
      split at h
      · rename_i e now hphase
        split_ifs at h with hfull <;> cases h
        · obtain ⟨rfl, _⟩ := leave_done hund hdone
          have hlt := hroom hcommitted e now hphase
          omega
        · obtain ⟨_, ho⟩ := enter_done hund hdone
          cases ho
      · cases h
  | checkMonthly r₀ =>
      simp only [step] at h
      split at h
      · rename_i e now hphase
        split_ifs at h with hfull <;> cases h
        · obtain ⟨rfl, _⟩ := leave_done hund hdone
          have hlt := hroom hcommitted e now hphase
          omega
        · obtain ⟨_, ho⟩ := enter_done hund hdone
          cases ho
      · cases h
  | insert r₀ taskId =>
      simp only [step] at h
      split at h
      · split_ifs at h <;> cases h
        · obtain ⟨_, ho⟩ := leave_done hund hdone
          cases ho
        · obtain ⟨_, ho⟩ := enter_done hund hdone
          cases ho
      · cases h
  | commit r₀ =>
      simp only [step] at h
      split at h
      · rename_i task start hphase
        cases h
        obtain ⟨rfl, _⟩ := leave_done (p := .done (.task task.id)) hund hdone
        obtain ⟨_, _, _, hfresh⟩ := hinv.inserted r task start hphase
        rw [(hfresh t ht).2] at hkey
        cases hkey
      · cases h
  | reread r₀ =>
      simp only [step] at h
      split at h
      · split at h <;> cases h
        · rename_i existing hexisting
          obtain ⟨rfl, ho⟩ := leave_done hund hdone
          rw [hfind, Option.some.injEq] at hexisting
          rw [hexisting]
          exact (Phase.done.inj ho).symm
        · rename_i hnone
          obtain ⟨rfl, _⟩ := leave_done hund hdone
          rw [hfind] at hnone
          cases hnone
      · cases h
  | crash r₀ =>
      simp only [step] at h
      split at h
      · cases h
      · cases h
        obtain ⟨_, ho⟩ := leave_done hund hdone
        cases ho
  | setActive taskId active =>
      simp only [step, Option.some.injEq] at h
      subst h
      exact absurd hdone (hund o)
  | setReviews reviews admissions =>
      simp only [step, Option.some.injEq] at h
      subst h
      exact absurd hdone (hund o)
  | setEntitlement entitlement =>
      simp only [step] at h
      split_ifs at h
      cases h
      exact absurd hdone (hund o)
/-- The columns that no step changes. -/
def SameTask (t t' : Task P) : Prop :=
  t'.id = t.id ∧ t'.ownerUserId = t.ownerUserId ∧ t'.idempotencyKey = t.idempotencyKey ∧
    t'.payload = t.payload

theorem step_tasks {l : Label P} (h : step requests s l = some s') :
    s'.store.tasks = s.store.tasks ∨ (∃ task, s'.store.tasks = s.store.tasks ++ [task]) ∨
      ∃ f : Task P → Task P, (∀ t, SameTask t (f t)) ∧
        s'.store.tasks = s.store.tasks.map f := by
  cases l with
  | commit r =>
      simp only [step] at h
      split at h <;> cases h
      exact Or.inr (Or.inl ⟨_, rfl⟩)
  | setActive taskId active =>
      simp only [step, Option.some.injEq] at h
      subst h
      refine Or.inr (Or.inr ⟨_, ?_, rfl⟩)
      intro t
      by_cases ht : t.id = taskId <;> simp [ht, SameTask]
  | setReviews reviews admissions =>
      simp only [step, Option.some.injEq] at h
      subst h
      exact Or.inl rfl
  | setEntitlement entitlement =>
      simp only [step] at h
      split_ifs at h
      cases h
      exact Or.inl rfl
  | lookup r | lock r now | countActive r | checkMonthly r | insert r taskId | reread r | crash r =>
      simp only [step] at h
      repeat' split at h
      all_goals cases h
      all_goals exact Or.inl rfl

theorem step_persists {l : Label P} (h : step requests s l = some s') {t : Task P}
    (ht : t ∈ s.store.tasks) : ∃ t' ∈ s'.store.tasks, SameTask t t' := by
  have hrefl : SameTask t t := ⟨rfl, rfl, rfl, rfl⟩
  rcases step_tasks h with hs | ⟨task, hs⟩ | ⟨f, hf, hs⟩
  · exact ⟨t, hs ▸ ht, hrefl⟩
  · exact ⟨t, by rw [hs]; exact List.mem_append_left _ ht, hrefl⟩
  · exact ⟨f t, by rw [hs]; exact List.mem_map_of_mem ht, hf t⟩

/-- An answer is final. -/
theorem step_done_stable {l : Label P} (h : step requests s l = some s') {r : ℕ} {o : Outcome}
    (hdone : s.phase r = .done o) : s'.phase r = s.phase r := by
  have hother : ∀ {r₀ : ℕ} (p : Phase P), s.phase r₀ ≠ .done o →
      Function.update s.phase r₀ p r = s.phase r := by
    intro r₀ p hr
    have hne : r ≠ r₀ := by
      rintro rfl
      exact hr hdone
    exact Function.update_of_ne hne _ _
  cases l with
  | setActive | setReviews =>
      simp only [step, Option.some.injEq] at h
      subst h
      rfl
  | setEntitlement entitlement =>
      simp only [step] at h
      split_ifs at h
      cases h
      rfl
  | crash r₀ =>
      simp only [step] at h
      split at h
      · cases h
      · rename_i hnot
        cases h
        exact hother _ (hnot o)
  | lookup r₀ | lock r₀ now | countActive r₀ | checkMonthly r₀ | insert r₀ taskId | commit r₀
  | reread r₀ =>
      simp only [step] at h
      have hphase : s.phase r₀ ≠ .done o := by
        intro hd
        simp [hd] at h
      repeat' split at h
      all_goals cases h
      all_goals exact hother _ hphase

/-- From a state in which a task is committed on, every request with its key that is answered
is answered with that task or, for another payload, with a conflict. -/
theorem answered_after_commit (hinv : Inv requests s) {t : Task P} (ht : t ∈ s.store.tasks)
    {r : ℕ} (hkey : t.hasKey (requests r) = true) (hund : ∀ o, s.phase r ≠ .done o)
    (h : Reaches (step requests) (HasRoom requests) s s') :
    Inv requests s' ∧ (∃ t' ∈ s'.store.tasks, SameTask t t') ∧
      ∀ o, s'.phase r = .done o → o = replay (requests r) t := by
  induction h with
  | refl => exact ⟨hinv, ⟨t, ht, rfl, rfl, rfl, rfl⟩, fun o ho => absurd ho (hund o)⟩
  | tail _ l hroom hstep ih =>
      obtain ⟨hinv', ⟨t', ht', hid, howner, hidem, hpayload⟩, hanswer⟩ := ih
      refine ⟨step_inv hinv' hstep, ?_, ?_⟩
      · obtain ⟨t'', ht'', hid', howner', hidem', hpayload'⟩ := step_persists hstep ht'
        exact ⟨t'', ht'', hid'.trans hid, howner'.trans howner, hidem'.trans hidem,
          hpayload'.trans hpayload⟩
      · intro o ho
        have hkey' : t'.hasKey (requests r) = true := by
          rw [Task.hasKey, howner, hidem]
          exact hkey
        have hreplay : replay (requests r) t' = replay (requests r) t := by
          rw [replay, replay, hid, hpayload]
        rename_i s₁ s₂ _
        by_cases hdone : ∃ o₁, s₁.phase r = .done o₁
        · obtain ⟨o₁, ho₁⟩ := hdone
          have hkeep : s₂.phase r = s₁.phase r := step_done_stable hstep ho₁
          rw [hkeep, ho₁] at ho
          exact hanswer o (by rw [ho₁, ho])
        · rw [← hreplay]
          exact step_answer hinv' hroom hstep ht' hkey' (fun o₁ ho₁ => hdone ⟨o₁, ho₁⟩) ho

/-- A step without room answers a request whose task is committed with an error. -/
theorem refused_without_room {l : Label P} (hno : ¬ HasRoom requests s l)
    (h : step requests s l = some s') :
    ∃ r o, Committed requests s r ∧ s'.phase r = .done o ∧ ∀ t, o ≠ replay (requests r) t := by
  have hreplay : ∀ r t, replay (requests r) t = .task t.id ∨
      replay (requests r) t = .idempotencyConflict := by
    intro r t
    unfold replay
    split_ifs
    · exact Or.inl rfl
    · exact Or.inr rfl
  have hleft : ∀ (r : ℕ) (p : Phase P), (s.leave r p).phase r = p := by simp [State.leave]
  cases l with
  | lock r now =>
      simp only [HasRoom, Classical.not_imp, not_exists, not_and] at hno
      obtain ⟨hcommitted, hcheck⟩ := hno
      simp only [step] at h
      split at h
      · split at h
        · cases h
          refine ⟨r, _, hcommitted, hleft r _, fun t ht => ?_⟩
          rcases hreplay r t with hr | hr <;> rw [hr] at ht <;> cases ht
        · rename_i e he
          split_ifs at h with havailable hmode <;> cases h
          · refine ⟨r, _, hcommitted, hleft r _, fun t ht => ?_⟩
            rcases hreplay r t with hr | hr <;> rw [hr] at ht <;> cases ht
          · refine ⟨r, _, hcommitted, hleft r _, fun t ht => ?_⟩
            rcases hreplay r t with hr | hr <;> rw [hr] at ht <;> cases ht
          · exact absurd (by simpa using hmode) (hcheck e he (by simpa using havailable))
      · cases h
  | countActive r =>
      simp only [HasRoom, Classical.not_imp, not_forall, not_lt] at hno
      obtain ⟨hcommitted, e, now, hphase, hfull⟩ := hno
      simp only [step, hphase, ge_iff_le, if_pos hfull, Option.some.injEq] at h
      subst h
      refine ⟨r, _, hcommitted, hleft r _, fun t ht => ?_⟩
      rcases hreplay r t with hr | hr <;> rw [hr] at ht <;> cases ht
  | checkMonthly r =>
      simp only [HasRoom, Classical.not_imp, not_forall, not_lt] at hno
      obtain ⟨hcommitted, e, now, hphase, hfull⟩ := hno
      simp only [step, hphase, ge_iff_le, if_pos hfull, Option.some.injEq] at h
      subst h
      refine ⟨r, _, hcommitted, hleft r _, fun t ht => ?_⟩
      rcases hreplay r t with hr | hr <;> rw [hr] at ht <;> cases ht
  | lookup | insert | commit | reread | crash | setActive | setReviews | setEntitlement =>
      exact absurd trivial hno

/-- One task, one submit command and one ledger entry per key, and one answer for all. -/
theorem createProductTask_idempotent {entitlement : Option WorkspaceEntitlement}
    {pendingReviews : ℕ} {reviewAdmissions : List Instant}
    (h : Reaches (step requests) (HasRoom requests)
      (init entitlement pendingReviews reviewAdmissions) s)
    (h' : Reaches (step requests) (HasRoom requests) s s') :
    (∀ c, (s.store.tasks.filter (·.hasKey c)).length ≤ 1) ∧
    (∀ t ∈ s.store.tasks, s.store.commands.count t.id = 1 ∧
      (s.store.ledger.filter (·.resourceId = t.id)).length = 1) ∧
    ∀ t ∈ s.store.tasks, ∀ r, t.hasKey (requests r) = true → (∀ o, s.phase r ≠ .done o) →
      ∀ o, s'.phase r = .done o →
        o = if t.payload = (requests r).payload then .task t.id else .idempotencyConflict := by
  have hinv : Inv requests s :=
    h.invariant (fun _ _ _ _ hs hstep => step_inv hs hstep) (inv_init _ _ _)
  refine ⟨hinv.filter_length_le_one, ?_, ?_⟩
  · intro t ht
    have hmem : t.id ∈ s.store.tasks.map (·.id) := List.mem_map_of_mem ht
    constructor
    · rw [hinv.commands]
      exact List.count_eq_one_of_mem hinv.ids hmem
    · have hcount := List.count_eq_one_of_mem hinv.ids hmem
      rw [← hinv.ledger, List.count_eq_countP, List.countP_map, List.countP_eq_length_filter]
        at hcount
      simpa [Function.comp_def, beq_eq_decide] using hcount
  · intro t ht r hkey hund o ho
    exact (answered_after_commit hinv ht hkey hund h').2.2 o ho

section Runs

/-! Two requests with one key and one payload, under an entitlement for `limit` tasks. -/

def sameRequest (_ : ℕ) : CreateRequest ℕ := ⟨1, "key", .marketAnalysis, 0⟩

def may : Instant := ⟨2025, 5, 17⟩

def entitlementFor (limit : ℕ) : WorkspaceEntitlement :=
  ⟨true, ⟨2025, 1, 0⟩, none, [.marketAnalysis], limit, 100⟩

/-- With room for two tasks the second request is answered with the task of the first. -/
theorem createProductTask_idempotent_two :
    ∃ s s', Reaches (step sameRequest) (HasRoom sameRequest)
        (init (some (entitlementFor 2)) 0 []) s ∧
      Reaches (step sameRequest) (HasRoom sameRequest) s s' ∧
      s.store.tasks.length = 1 ∧ s'.phase 1 = .done (.task 7) ∧
      ∀ t ∈ s.store.tasks, ∀ r, t.hasKey (sameRequest r) = true →
        (∀ o, s.phase r ≠ .done o) → ∀ o, s'.phase r = .done o →
        o = if t.payload = (sameRequest r).payload then .task t.id else .idempotencyConflict := by
  have hempty : ∀ {s : State ℕ} {r : ℕ}, s.store.tasks = [] → ¬ Committed sameRequest s r := by
    rintro s r hs ⟨t, ht, _⟩
    rw [hs] at ht
    cases ht
  have h₀ : Reaches (step sameRequest) (HasRoom sameRequest)
    (init (some (entitlementFor 2)) 0 []) (init (some (entitlementFor 2)) 0 []) := .refl
  have h₁ := h₀.tail (.lookup 0) trivial rfl
  have h₂ := h₁.tail (.lock 0 may) (fun h => absurd h (hempty rfl)) rfl
  have h₃ := h₂.tail (.countActive 0) (fun h => absurd h (hempty rfl)) rfl
  have h₄ := h₃.tail (.checkMonthly 0) (fun h => absurd h (hempty rfl)) rfl
  have h₅ := h₄.tail (.insert 0 7) trivial rfl
  have h₆ := h₅.tail (.commit 0) trivial rfl
  exact ⟨_, _, h₆, .tail .refl (.lookup 1) trivial rfl, rfl, rfl,
    (createProductTask_idempotent h₆ (.tail .refl (.lookup 1) trivial rfl)).2.2⟩

/-- With room for one task the request that lost the race is refused, not answered. -/
theorem duplicate_refused_by_quota :
    ∃ s s' : State ℕ, Reaches (step sameRequest) anyStep
        (init (some (entitlementFor 1)) 0 []) s ∧
      Reaches (step sameRequest) anyStep s s' ∧
      (∃ t ∈ s.store.tasks, t.hasKey (sameRequest 1) = true ∧
        t.payload = (sameRequest 1).payload) ∧
      (∀ o, s.phase 1 ≠ .done o) ∧
      s'.phase 1 = .done (.quotaExceeded "concurrent_agent_operation" 1 1) := by
  refine ⟨_, _,
    reaches_of_runLabels [.lookup 0, .lookup 1, .lock 0 may, .countActive 0, .checkMonthly 0,
      .insert 0 7, .commit 0] rfl,
    reaches_of_runLabels [.lock 1 may, .countActive 1] rfl,
    ⟨_, List.mem_singleton_self _, rfl, rfl⟩, nofun, rfl⟩

end Runs

end CryptoAlert.Admission
