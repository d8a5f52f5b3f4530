import CryptoAlert.Workspace.Keys

/-!
# The cap on the active tasks of a workspace

A create request counts all active tasks while it holds the row of the entitlement, so it alone
keeps the cap. A delivery counts the tasks of monitors only, and a retry or a fork counts nothing.
-/

namespace CryptoAlert

/-- The label leaves the entitlement as it is. -/
def WorkspaceLabel.KeepsEntitlement : WorkspaceLabel → Prop
  | .setEntitlement _ => False
  | _ => True

namespace WorkspaceRows

variable {w : WorkspaceRows} {t t' : WorkspaceTask}

theorem activeTasks_append (w : WorkspaceRows) (t : WorkspaceTask) :
    { w with tasks := w.tasks ++ [t] }.activeTasks ≤ w.activeTasks + 1 := by
  simp only [activeTasks, List.filter_append, List.length_append]
  have hone := List.length_filter_le (fun t : WorkspaceTask => t.active) [t]
  rw [List.length_singleton] at hone
  omega

/-- Writing a task back that was active, or is not active now, makes no room smaller. -/
theorem activeTasks_put_le (hn : (w.tasks.map WorkspaceTask.id).Nodup) (ht : t ∈ w.tasks)
    (hid : t'.id = t.id) (hactive : t'.active → t.active) :
    { w with tasks := Table.put WorkspaceTask.id w.tasks t' }.activeTasks ≤ w.activeTasks := by
  obtain ⟨l₁, l₂, hbefore, hafter⟩ := Table.exists_put_eq hn ht hid
  simp only [activeTasks, hafter]
  rw [hbefore]
  simp only [List.filter_append, List.filter_cons, List.length_append]
  cases hnew : t'.active with
  | false => cases t.active <;> simp
  | true => simp [hactive hnew]

theorem activeTasks_put_le_succ (hn : (w.tasks.map WorkspaceTask.id).Nodup) (ht : t ∈ w.tasks)
    (hid : t'.id = t.id) :
    { w with tasks := Table.put WorkspaceTask.id w.tasks t' }.activeTasks ≤ w.activeTasks + 1 := by
  obtain ⟨l₁, l₂, hbefore, hafter⟩ := Table.exists_put_eq hn ht hid
  simp only [activeTasks, hafter]
  rw [hbefore]
  simp only [List.filter_append, List.filter_cons, List.length_append]
  cases t'.active <;> cases t.active <;> simp <;> omega

theorem activeOperations_admissionStore (w : WorkspaceRows) :
    w.admissionStore.activeOperations = w.activeTasks + w.pendingReviews := by
  simp only [Admission.Store.activeOperations, admissionStore, List.filter_map, List.length_map]
  rfl

end WorkspaceRows

namespace Workspace

variable {cfg : WorkspaceConfig} {w w' : Workspace} {label : WorkspaceLabel} {e : Entitlement}

/-- A transaction has counted the active tasks, and its own task is not among them yet. -/
def Counted (w : Workspace) : Prop :=
  ∃ r, (w.creates r).passed ∨ ∃ m e, w.deliveries r = .admitting m e

/-- A step that may make a task active, other than the commit of a create request, finds room for
it: a restart of an ended task beside the active tasks and a counted one, and a delivery where the
tasks of the monitors leave room. -/
def LeavesRoom (limit : ℕ) (w : Workspace) : WorkspaceLabel → Prop
  | .task taskId l => l.restarts → ∀ t, w.rows.findTask taskId = some t → t.active = false →
      w.rows.activeTasks < limit ∧ (w.Counted → w.rows.activeTasks + 1 < limit)
  | .deliver r _ => ∀ m e, w.deliveries r = .counting m e .tasks none →
      w.rows.monitorTasks < limit → w.rows.activeTasks < limit
  | _ => True

/-- The cap, with what the transactions under way have seen of it. -/
structure Capped (e : Entitlement) (w : Workspace) : Prop where
  entitlement : w.rows.entitlement = some e
  locked : ∀ r e' now, w.creates r = .locked e' now → e' = e.toWorkspaceEntitlement
  counting : ∀ r m e' next reason, w.deliveries r = .counting m e' next reason → e' = e
  active : w.rows.activeTasks ≤ e.maxConcurrentTasks
  counted : w.Counted → w.rows.activeTasks < e.maxConcurrentTasks

theorem capped_init (e : Entitlement) (monitors : List MonitorDefinition) :
    (init (some e) monitors).Capped e := by
  refine ⟨rfl, ?_, ?_, Nat.zero_le _, ?_⟩
  · intro r e' now h
    cases h
  · intro r m e' next reason h
    cases h
  · rintro ⟨r, h | ⟨m, e', h⟩⟩
    · exact h.elim
    · cases h

theorem holdsRow_of_passed {p : Admission.Phase String} (h : p.passed) : p.holdsRow := by
  cases p <;> trivial

/-- The request or the delivery that has counted holds the row of the entitlement. -/
theorem Held.holder_of_counted (h : w.Held) {r : ℕ}
    (hr : (w.creates r).passed ∨ ∃ m e, w.deliveries r = .admitting m e) :
    ((w.creates r).passed ∧ w.holder = some (.create r)) ∨
      ((∃ m e, w.deliveries r = .admitting m e) ∧ w.holder = some (.delivery r)) := by
  obtain hpassed | ⟨m, e, hadmitting⟩ := hr
  · exact .inl ⟨hpassed, h.create r (holdsRow_of_passed hpassed)⟩
  · exact .inr ⟨⟨m, e, hadmitting⟩, h.delivery r (by rw [hadmitting]; trivial)⟩

/-- A delivery that moves on beside the other transactions. -/
theorem Capped.enter (h : w.Capped e) {r : ℕ} (p : DeliveryPhase)
    (hentitlement : w'.rows.entitlement = w.rows.entitlement)
    (htasks : w'.rows.tasks = w.rows.tasks) (hcreates : w'.creates = w.creates)
    (hdeliveries : w'.deliveries = Function.update w.deliveries r p)
    (hcounting : ∀ m e' next reason, p = .counting m e' next reason → e' = e)
    (hadmitting : ∀ m e', p = .admitting m e' → w.rows.activeTasks < e.maxConcurrentTasks) :
    w'.Capped e := by
  have hactive : w'.rows.activeTasks = w.rows.activeTasks := by
    rw [WorkspaceRows.activeTasks, htasks, WorkspaceRows.activeTasks]
  refine ⟨hentitlement.trans h.entitlement, ?_, ?_, by rw [hactive]; exact h.active, ?_⟩
  · rw [hcreates]
    exact h.locked
  · intro r' m e' next reason hphase
    rw [hdeliveries, Function.update_apply] at hphase
    split_ifs at hphase
    · exact hcounting m e' next reason hphase
    · exact h.counting r' m e' next reason hphase
  · rw [hactive]
    rintro ⟨r', hpassed | ⟨m, e', hphase⟩⟩
    · rw [hcreates] at hpassed
      exact h.counted ⟨r', .inl hpassed⟩
    · rw [hdeliveries, Function.update_apply] at hphase
      split_ifs at hphase
      · exact hadmitting m e' hphase
      · exact h.counted ⟨r', .inr ⟨m, e', hphase⟩⟩

/-- A delivery that is not to be admitted. -/
theorem Capped.pass (h : w.Capped e) {r : ℕ} (p : DeliveryPhase) (hp : ¬ p.holdsEntitlement)
    (hentitlement : w'.rows.entitlement = w.rows.entitlement)
    (htasks : w'.rows.tasks = w.rows.tasks) (hcreates : w'.creates = w.creates)
    (hdeliveries : w'.deliveries = Function.update w.deliveries r p) : w'.Capped e := by
  refine h.enter p hentitlement htasks hcreates hdeliveries ?_ ?_
  · rintro m e' next reason rfl
    exact absurd trivial hp
  · rintro m e' rfl
    exact absurd trivial hp

theorem not_holdsEntitlement_of_ended {p : DeliveryPhase} (h : p.ended) :
    ¬ p.holdsEntitlement := by
  cases p <;> first | exact h.elim | exact fun h => h

/-- The count of the tasks that admits a delivery. -/
theorem afterCount_tasks {m : MonitorDefinition} {e : Entitlement} {now : ℕ}
    {reason : Option String} (h : w.afterCount m e now .tasks reason = none) :
    reason = none ∧ w.rows.monitorTasks < e.maxConcurrentTasks := by
  cases reason with
  | some text => cases h
  | none => simpa [afterCount] using h

theorem capped_deliver (h : w.Capped e) (hs : w.Sound) {r : ℕ}
    (hroom : ∀ m e', w.deliveries r = .counting m e' .tasks none →
      w.rows.monitorTasks < e.maxConcurrentTasks → w.rows.activeTasks < e.maxConcurrentTasks)
    (hmove : DeliveryMove cfg w r w') : w'.Capped e := by
  cases hmove with
  | leave p ended => exact h.pass p (not_holdsEntitlement_of_ended ended) rfl rfl rfl rfl
  | lock m => exact h.pass (.locked m) (fun h => h) rfl rfl rfl rfl
  | absent m p locked absent next =>
      obtain rfl | ⟨version, reason, rfl⟩ := next
      · exact h.pass (.unseen m) (fun h => h) rfl rfl rfl rfl
      · exact h.pass (.suppressing m version reason) (fun h => h) rfl rfl rfl rfl
  | entitled m p unseen free next =>
      obtain ⟨e', hent, rfl⟩ | ⟨version, reason, rfl⟩ := next
      · refine h.enter (.counting m e' .monitors none) rfl rfl rfl rfl ?_ (fun _ _ h => by cases h)
        intro m' e'' next reason heq
        cases heq
        rw [h.entitlement, Option.some.injEq] at hent
        exact hent.symm
      · exact h.pass (.suppressing m version reason) (fun h => h) rfl rfl rfl rfl
  | counted m e' next reason p counting hnext =>
      have he : e' = e := h.counting r m e' next reason counting
      obtain ⟨following, -, rfl⟩ | ⟨hlast, hnone, rfl⟩ | ⟨version, text, rfl⟩ := hnext
      · refine h.enter (.counting m e' following _) rfl rfl rfl rfl ?_ (fun _ _ h => by cases h)
        intro m' e'' next' reason' heq
        cases heq
        exact he
      · refine h.enter (.admitting m e') rfl rfl rfl rfl (fun _ _ _ _ h => by cases h) ?_
        intro m' e'' _
        cases next <;> cases hlast
        obtain ⟨rfl, hcount⟩ := afterCount_tasks hnone
        rw [he] at hcount
        exact hroom m e' counting hcount
      · exact h.pass (.suppressing m version text) (fun h => h) rfl rfl rfl rfl
  | suppressed m version reason ids suppressing joins =>
      exact h.pass (.done (.receipt ids.triggerId true)) (fun h => h) rfl rfl rfl rfl
  | admitted m e' identity ids admitting identified joins fresh uncharged =>
      have hroom : w.rows.activeTasks < e.maxConcurrentTasks :=
        h.counted ⟨r, .inr ⟨m, e', admitting⟩⟩
      have hactive := w.rows.activeTasks_append (triggeredTask cfg m (cfg.deliveries r).kind
        identity ids)
      have hleft : (w.leaveDelivery r (.done (.receipt ids.triggerId true))).Capped e :=
        h.pass (.done (.receipt ids.triggerId true)) (fun h => h) rfl rfl rfl rfl
      have hidle : ¬ (w.leaveDelivery r (.done (.receipt ids.triggerId true))).Counted := by
        rintro ⟨r', hr'⟩
        have hheld := hs.held.leaveDelivery r (p := .done (.receipt ids.triggerId true)) trivial
        have hfree : (w.leaveDelivery r (.done (.receipt ids.triggerId true))).holder = none :=
          if_pos (hs.held.delivery r (by rw [admitting]; trivial))
        obtain ⟨-, hholder⟩ | ⟨-, hholder⟩ := hheld.holder_of_counted hr'
        · rw [hfree] at hholder
          cases hholder
        · rw [hfree] at hholder
          cases hholder
      exact ⟨h.entitlement, h.locked, hleft.counting, hactive.trans hroom,
        fun hcounted => (hidle hcounted).elim⟩

theorem capped_create (h : w.Capped e) {l : Admission.Label String} {r : ℕ}
    {a : Admission.State String} (hrequest : l.request = some r)
    (hstatement : Admission.step (createRequest cfg) w.admissionState l = some a) :
    (w.afterCreate a).Capped e := by
  have hst := Admission.step_statement hrequest hstatement
  refine ⟨h.entitlement, ?_, h.counting, h.active, ?_⟩
  · intro r' e' now hlocked
    by_cases hr : r' = r
    · subst hr
      have hent : w.rows.entitlement.map (·.toWorkspaceEntitlement) = some e' :=
        hst.locked e' now hlocked
      rw [h.entitlement, Option.map_some, Option.some.injEq] at hent
      exact hent.symm
    · rw [creates_other hrequest hstatement hr] at hlocked
      exact h.locked r' e' now hlocked
  · rintro ⟨r', hpassed | hadmitting⟩
    · by_cases hr : r' = r
      · subst hr
        obtain hpassed | ⟨e', now, hlocked, hcount⟩ := hst.passed hpassed
        · exact h.counted ⟨r', .inl hpassed⟩
        · have hroom : w.rows.admissionStore.activeOperations < e'.maxConcurrentTasks := hcount
          rw [WorkspaceRows.activeOperations_admissionStore, h.locked r' e' now hlocked] at hroom
          exact Nat.lt_of_le_of_lt (Nat.le_add_right _ _) hroom
      · rw [creates_other hrequest hstatement hr] at hpassed
        exact h.counted ⟨r', .inl hpassed⟩
    · exact h.counted ⟨r', .inr hadmitting⟩

theorem capped_step (h : w.Capped e) (hs : w.Sound) (hkeeps : label.KeepsEntitlement)
    (hroom : w.LeavesRoom e.maxConcurrentTasks label) (hstep : w.step cfg label = some w') :
    w'.Capped e := by
  cases step_cases hstep with
  | create _ l r a request free statement => exact capped_create h request statement
  | commit r ids task period a inserted statement =>
      have hroom : w.rows.activeTasks < e.maxConcurrentTasks :=
        h.counted ⟨r, .inl (by rw [inserted]; trivial)⟩
      have hactive := w.rows.activeTasks_append (createdTask cfg (cfg.creates r) task.id ids)
      have hleft : (w.afterCreate a).Capped e := capped_create h rfl statement
      have hidle : ¬ (w.afterCreate a).Counted := by
        rintro ⟨r', hr'⟩
        have hholder : w.holder = some (.create r) := hs.held.create r (by rw [inserted]; trivial)
        obtain hpassed | ⟨m, e', hadmitting⟩ := hr'
        · by_cases hr : r' = r
          · subst hr
            change (a.phase r').passed at hpassed
            rw [creates_commit inserted statement] at hpassed
            exact hpassed
          · rw [creates_other rfl statement hr] at hpassed
            have hholder' := hs.held.create r' (holdsRow_of_passed hpassed)
            rw [hholder] at hholder'
            cases hholder'
            exact hr rfl
        · have hphase : w.deliveries r' = .admitting m e' := hadmitting
          have hholder' := hs.held.delivery r' (by rw [hphase]; trivial)
          rw [hholder] at hholder'
          cases hholder'
      exact ⟨h.entitlement, hleft.locked, h.counting, hactive.trans hroom,
        fun hcounted => (hidle hcounted).elim⟩
  | deliver r ids _ move => exact capped_deliver h hs hroom move
  | crashDelivery r _ crash =>
      rw [crash]
      exact h.pass .crashed (fun h => h) rfl rfl rfl rfl
  | task t state l found stepped apart =>
      obtain ⟨hmem, -⟩ := Table.find_eq_some found
      have hsound := hs.keyed.sound t hmem
      have hid : WorkspaceTask.id { t with state } = t.id := TaskState.task_id_step hsound stepped
      by_cases hwakes : WorkspaceTask.active { t with state } = true ∧ t.active = false
      · obtain ⟨hactive, hended⟩ := hwakes
        have hrestarts : l.restarts = true := by
          by_contra hrestarts
          have htask := TaskState.task_of_terminal hsound stepped
            (by simpa [WorkspaceTask.active, WorkspaceTask.row] using hended)
            (by simpa using hrestarts)
          have hsame : WorkspaceTask.active { t with state } = t.active := by
            rw [WorkspaceTask.active, WorkspaceTask.row, htask]
            rfl
          rw [hsame, hended] at hactive
          cases hactive
        obtain ⟨hfree, hcounted⟩ := hroom hrestarts t found hended
        have hput := WorkspaceRows.activeTasks_put_le_succ hs.keyed.tasks hmem hid
        refine ⟨h.entitlement, h.locked, h.counting, hput.trans hfree, ?_⟩
        intro hcount
        exact Nat.lt_of_le_of_lt hput (hcounted hcount)
      · have hput := WorkspaceRows.activeTasks_put_le hs.keyed.tasks hmem hid fun hactive => by
          by_contra hended
          exact hwakes ⟨hactive, by simpa using hended⟩
        exact ⟨h.entitlement, h.locked, h.counting, hput.trans h.active,
          fun hcount => Nat.lt_of_le_of_lt hput (h.counted hcount)⟩
  | requestReview reviewId candidateId now createdAt idle fresh =>
      exact ⟨h.entitlement, h.locked, h.counting, h.active, h.counted⟩
  | decideReview reviewId => exact ⟨h.entitlement, h.locked, h.counting, h.active, h.counted⟩
  | addMonitor m absent => exact ⟨h.entitlement, h.locked, h.counting, h.active, h.counted⟩
  | putMonitor m old found free owner =>
      exact ⟨h.entitlement, h.locked, h.counting, h.active, h.counted⟩
  | setEntitlement e free => exact hkeeps.elim
  | reconcile moment now repair reconciliations free =>
      exact ⟨h.entitlement, h.locked, h.counting, h.active, h.counted⟩

/-- Under a fixed entitlement the active tasks stay within its limit, as long as restarts and
deliveries find room among all active tasks. -/
theorem activeTasks_le {monitors : List MonitorDefinition}
    (h : Reaches (step cfg)
      (fun w l => l.KeepsEntitlement ∧ w.LeavesRoom e.maxConcurrentTasks l)
      (init (some e) monitors) w) : w.rows.activeTasks ≤ e.maxConcurrentTasks := by
  have hcapped : w.Capped e :=
    h.invariant_of (I := Sound) (fun _ _ _ _ hs hstep => hs.step hstep)
      (fun _ _ _ hok hs hc hstep => capped_step hc hs hok.1 hok.2 hstep)
      (sound_init (some e) monitors) (capped_init e monitors)
  exact hcapped.active

theorem activeTasks_le_create : ∃ w, Reaches (step plainConfig)
      (fun w l => l.KeepsEntitlement ∧ w.LeavesRoom plainEntitlement.maxConcurrentTasks l)
      (init (some plainEntitlement) [plainMonitor]) w ∧ w.rows.tasks.length = 1 ∧
    w.rows.activeTasks ≤ plainEntitlement.maxConcurrentTasks := by
  have hany : (runLabels (step plainConfig) (init (some plainEntitlement) [plainMonitor])
      createRun).any (fun w => w.rows.tasks.length == 1) = true := by decide +kernel
  obtain ⟨w, hrun, htask⟩ := (Option.any_eq_true _ _).mp hany
  have hreaches : Reaches (step plainConfig)
      (fun w l => l.KeepsEntitlement ∧ w.LeavesRoom plainEntitlement.maxConcurrentTasks l)
      (init (some plainEntitlement) [plainMonitor]) w := by
    refine reaches_of_guarded createRun ?_ hrun
    intro w l hl
    simp only [createRun, List.mem_cons, List.not_mem_nil, or_false] at hl
    obtain rfl | rfl | rfl | rfl | rfl | rfl := hl <;> exact ⟨trivial, trivial⟩
  exact ⟨w, hreaches, by simpa using htask, activeTasks_le hreaches⟩

/-- A delivery is admitted beside a task that takes up the only place. -/
theorem deliver_exceeds : ∃ w, Reaches (step plainConfig) (fun _ l => l.KeepsEntitlement)
      (init (some plainEntitlement) [plainMonitor]) w ∧
    ¬ w.rows.activeTasks ≤ plainEntitlement.maxConcurrentTasks := by
  have hany : (runLabels (step plainConfig) (init (some plainEntitlement) [plainMonitor])
      (createRun ++ deliverRun)).any
        (fun w => !w.rows.activeTasks ≤ plainEntitlement.maxConcurrentTasks) = true := by
    decide +kernel
  obtain ⟨w, hrun, hactive⟩ := (Option.any_eq_true _ _).mp hany
  have hreaches : Reaches (step plainConfig) (fun _ l => l.KeepsEntitlement)
      (init (some plainEntitlement) [plainMonitor]) w := by
    refine reaches_of_guarded (createRun ++ deliverRun) ?_ hrun
    intro w l hl
    simp only [createRun, deliverRun, List.cons_append, List.nil_append, List.mem_cons,
      List.mem_replicate] at hl
    obtain rfl | rfl | rfl | rfl | rfl | rfl | ⟨-, rfl⟩ := hl <;> trivial
  exact ⟨w, hreaches, by simpa using hactive⟩

end Workspace

end CryptoAlert
