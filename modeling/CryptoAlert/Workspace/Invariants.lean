import CryptoAlert.Commands.Activity
import CryptoAlert.Workspace.Deliveries

/-!
# What holds in every workspace

The kinds of steps, and the invariants that all accounts of a workspace rest on: the locks are
held by those that are past them, the rows have distinct keys, and the rows of every task are
sound.
-/

namespace CryptoAlert

namespace Workspace

variable (cfg : WorkspaceConfig) (w : Workspace)

/-- The kinds of steps. -/
inductive StepCase : WorkspaceLabel → Workspace → Prop where
  | create (label : WorkspaceLabel) (l : Admission.Label String) (r : ℕ)
      (a : Admission.State String) (request : l.request = some r)
      (free : (∃ now, l = .lock r now) → w.holder = none)
      (statement : Admission.step (createRequest cfg) w.admissionState l = some a) :
      StepCase label (w.afterCreate a)
  | commit (r : ℕ) (ids : InsertedIds) (task : Admission.Task String)
      (period : Admission.Instant) (a : Admission.State String)
      (inserted : w.creates r = .inserted task period)
      (statement : Admission.step (createRequest cfg) w.admissionState (.commit r) = some a) :
      StepCase (.commit r ids) { w.afterCreate a with rows := { w.rows with
        tasks := w.rows.tasks ++ [createdTask cfg (cfg.creates r) task.id ids]
        ledger := UsageLedger.append w.rows.ledger
          (admissionEntry cfg task.id (cfg.creates r).taskType period) } }
  | deliver (r : ℕ) (ids : InsertedIds) (w' : Workspace)
      (move : DeliveryMove cfg w r w') : StepCase (.deliver r ids) w'
  | crashDelivery (r : ℕ) (w' : Workspace) (crash : w' = w.leaveDelivery r .crashed) :
      StepCase (.crashDelivery r) w'
  | task (t : WorkspaceTask) (state : TaskState) (l : TaskLabel)
      (found : w.rows.findTask t.id = some t)
      (stepped : t.state.step cfg.dispatcher cfg.digests l = some state)
      (apart : w.runIdsApart t state) :
      StepCase (.task t.id l) { w with rows := { w.rows with
        tasks := Table.put WorkspaceTask.id w.rows.tasks { t with state }
        ledger := UsageLedger.appendAll (runEntry state) w.rows.ledger
          (newReceipts t.state state) } }
  | requestReview (reviewId candidateId now createdAt : ℕ)
      (idle : w.holder = none)
      (fresh : ∀ v ∈ w.rows.reviews, v.id ≠ reviewId) :
      StepCase (.requestReview reviewId candidateId now createdAt) { w with rows := { w.rows with
        reviews := w.rows.reviews ++ [⟨reviewId, candidateId, createdAt, true⟩]
        ledger := UsageLedger.append w.rows.ledger
          (reviewEntry cfg reviewId (Admission.usagePeriodStart (.ofMicros now))) } }
  | decideReview (reviewId : ℕ) : StepCase (.decideReview reviewId) (w.decideReview reviewId)
  | addMonitor (m : MonitorDefinition) (absent : w.rows.findMonitor m.id = none) :
      StepCase (.putMonitor m)
        { w with rows := { w.rows with monitors := w.rows.monitors ++ [m] } }
  | putMonitor (m old : MonitorDefinition) (found : w.rows.findMonitor m.id = some old)
      (free : w.monitorHolder m.id = none) (owner : m.ownerUserId = old.ownerUserId) :
      StepCase (.putMonitor m) { w with rows := { w.rows with
        monitors := Table.put MonitorDefinition.id w.rows.monitors m } }
  | setEntitlement (e : Entitlement) (free : w.holder = none) :
      StepCase (.setEntitlement e) { w with rows := { w.rows with entitlement := some e } }
  | reconcile (moment now : ℕ) (repair : Bool) (reconciliations : List UsageReconciliation)
      (free : repair = true → w.holder = none) :
      StepCase (.reconcile moment now repair) { w with rows := { w.rows with
        ledger := if repair then w.rows.repaired cfg.dispatcher.hashing (periodOf moment)
          else w.rows.ledger
        reconciliations } }

variable {cfg w} {w' : Workspace} {label : WorkspaceLabel}

theorem reconcile_eq_some {hashing : Hashing} {rows rows' : WorkspaceRows}
    {period : Admission.Instant} {repair : Bool} {now : ℕ} {receipt : UsageReconciliation}
    (h : rows.reconcile hashing period repair now = some (rows', receipt)) :
    ∃ reconciliations, rows' = { rows with
      ledger := if repair then rows.repaired hashing period else rows.ledger
      reconciliations } := by
  unfold WorkspaceRows.reconcile at h
  obtain ⟨e, -, h⟩ := Option.bind_eq_some_iff.mp h
  dsimp only at h
  split at h
  · cases h
    exact ⟨rows.reconciliations, rfl⟩
  · cases h
    exact ⟨_, rfl⟩

theorem step_cases (h : w.step cfg label = some w') : StepCase cfg w label w' := by
  have hcreate : ∀ {l : Admission.Label String} {r : ℕ}, l.request = some r →
      ((∃ now, l = .lock r now) → w.holder = none) → w.createStep cfg l = some w' →
      StepCase cfg w label w' := by
    intro l r hrequest hfree h
    obtain ⟨a, ha, rfl⟩ := Option.map_eq_some_iff.mp h
    exact .create label l r a hrequest hfree ha
  cases label with
  | lookup r => exact hcreate rfl (by rintro ⟨_, ⟨⟩⟩) h
  | lock r now =>
      simp only [step] at h
      split_ifs at h with hheld
      have hfree : w.holder = none := by simpa using hheld
      exact hcreate rfl (fun _ => hfree) h
  | countActive r => exact hcreate rfl (by rintro ⟨_, ⟨⟩⟩) h
  | checkMonthly r => exact hcreate rfl (by rintro ⟨_, ⟨⟩⟩) h
  | insert r taskId => exact hcreate rfl (by rintro ⟨_, ⟨⟩⟩) h
  | reread r => exact hcreate rfl (by rintro ⟨_, ⟨⟩⟩) h
  | crash r => exact hcreate rfl (by rintro ⟨_, ⟨⟩⟩) h
  | commit r ids =>
      simp only [step, commitCreate] at h
      split at h
      · rename_i task period hphase
        obtain ⟨w₁, hstep, h⟩ := Option.bind_eq_some_iff.mp h
        obtain ⟨a, ha, rfl⟩ := Option.map_eq_some_iff.mp hstep
        cases h
        exact .commit r ids task period a hphase ha
      · cases h
  | deliver r ids => exact .deliver r ids _ (deliverStep_move h)
  | crashDelivery r =>
      simp only [step, crashDeliveryStep] at h
      split at h
      · cases h
      · cases h
        exact .crashDelivery r _ rfl
  | task taskId l =>
      simp only [step, taskStep] at h
      obtain ⟨t, ht, h⟩ := Option.bind_eq_some_iff.mp h
      obtain ⟨state, hstate, h⟩ := Option.bind_eq_some_iff.mp h
      split_ifs at h with hapart
      cases h
      obtain ⟨-, rfl⟩ := Table.find_eq_some ht
      exact .task t state l ht hstate (by simpa using hapart)
  | requestReview reviewId candidateId now createdAt =>
      simp only [step, requestReview] at h
      obtain ⟨e, -, h⟩ := Option.bind_eq_some_iff.mp h
      split_ifs at h with hrefused
      cases h
      simp only [Bool.or_eq_true, not_or] at hrefused
      refine .requestReview reviewId candidateId now createdAt ?_ ?_
      · simpa using hrefused.1.1.1.1
      · intro v hv heq
        have hnone := hrefused.2
        simp only [List.any_eq_true, not_exists, not_and] at hnone
        exact hnone v hv (by simp [heq])
  | decideReview reviewId =>
      cases h
      exact .decideReview reviewId
  | putMonitor m =>
      simp only [step, Workspace.putMonitor] at h
      split at h
      · rename_i habsent
        cases h
        exact .addMonitor m habsent
      · rename_i old hfound
        split_ifs at h with hrefused
        cases h
        simp only [Bool.or_eq_true, not_or, bne_iff_ne, not_not] at hrefused
        exact .putMonitor m old hfound (by simpa using hrefused.1) hrefused.2.symm
  | setEntitlement e =>
      simp only [step] at h
      split_ifs at h with hheld
      cases h
      exact .setEntitlement e (by simpa using hheld)
  | reconcile moment now repair =>
      simp only [step, reconcileStep] at h
      split_ifs at h with hheld
      obtain ⟨⟨rows, receipt⟩, hrows, rfl⟩ := Option.map_eq_some_iff.mp h
      obtain ⟨reconciliations, rfl⟩ := reconcile_eq_some hrows
      refine .reconcile moment now repair reconciliations ?_
      intro hrepair
      rw [hrepair] at hheld
      simpa using hheld

/-- A transaction that is past a lock holds its row, and a monitor that is held is as it was
read. -/
structure Held (w : Workspace) : Prop where
  create : ∀ r, (w.creates r).holdsRow → w.holder = some (.create r)
  delivery : ∀ r, (w.deliveries r).holdsEntitlement → w.holder = some (.delivery r)
  monitor : ∀ r m, (w.deliveries r).monitor = some m →
    w.monitorHolder m.id = some r ∧ w.rows.findMonitor m.id = some m

theorem held_init (e : Option Entitlement) (monitors : List MonitorDefinition) :
    (init e monitors).Held :=
  ⟨fun _ h => h.elim, fun _ h => h.elim, fun _ _ h => by cases h⟩

theorem admissionState_holder {r : ℕ} :
    w.admissionState.holder = some r ↔ w.holder = some (.create r) := by
  unfold admissionState
  cases hholder : w.holder with
  | none => simp
  | some x => cases x <;> simp

theorem admissionState_holder_none :
    w.admissionState.holder = none ↔ ∀ r, w.holder ≠ some (.create r) := by
  unfold admissionState
  cases hholder : w.holder with
  | none => simp
  | some x => cases x <;> simp

/-- The lock after a statement of a create request. -/
theorem afterCreate_holder {l : Admission.Label String} {r : ℕ} {a : Admission.State String}
    (h : Admission.Statement (createRequest cfg) l r w.admissionState a)
    (hfree : (∃ now, l = .lock r now) → w.holder = none) :
    ((w.afterCreate a).holder = w.holder ∧ ((a.phase r).holdsRow → (w.creates r).holdsRow)) ∨
      (w.holder = none ∧ (w.afterCreate a).holder = some (.create r)) ∨
      (w.holder = some (.create r) ∧ (w.afterCreate a).holder = none ∧
        ¬ (a.phase r).holdsRow) := by
  obtain ⟨hsame, hphase⟩ | ⟨hlock, -, hholder⟩ | ⟨hbefore, hafter, hphase⟩ := h.holder
  · refine .inl ⟨?_, hphase⟩
    unfold afterCreate
    rw [hsame]
    unfold admissionState
    cases hholder : w.holder with
    | none => rfl
    | some x => cases x <;> rfl
  · refine .inr (.inl ⟨hfree hlock, ?_⟩)
    unfold afterCreate
    rw [hfree hlock, hholder]
    rfl
  · rw [admissionState_holder] at hbefore
    refine .inr (.inr ⟨hbefore, ?_, hphase⟩)
    unfold afterCreate
    rw [hbefore, hafter]
    rfl

theorem Held.afterCreate (h : w.Held) {l : Admission.Label String} {r : ℕ}
    {a : Admission.State String}
    (hstatement : Admission.Statement (createRequest cfg) l r w.admissionState a)
    (hfree : (∃ now, l = .lock r now) → w.holder = none) : (w.afterCreate a).Held := by
  have hothers : ∀ r', r' ≠ r → (w.afterCreate a).creates r' = w.creates r' :=
    hstatement.others
  refine ⟨?_, ?_, h.monitor⟩
  · intro r' hholds
    by_cases hr : r' = r
    · subst hr
      obtain ⟨hsame, hphase⟩ | ⟨-, hafter⟩ | ⟨-, -, hphase⟩ := afterCreate_holder hstatement hfree
      · rw [hsame]
        exact h.create r' (hphase hholds)
      · exact hafter
      · exact absurd hholds hphase
    · rw [hothers r' hr] at hholds
      have hheld := h.create r' hholds
      obtain ⟨hsame, -⟩ | ⟨hnone, -⟩ | ⟨hbefore, -⟩ := afterCreate_holder hstatement hfree
      · rw [hsame]
        exact hheld
      · rw [hnone] at hheld
        cases hheld
      · rw [hbefore] at hheld
        cases hheld
        exact absurd rfl hr
  · intro r' hholds
    have hheld := h.delivery r' hholds
    obtain ⟨hsame, -⟩ | ⟨hnone, -⟩ | ⟨hbefore, -⟩ := afterCreate_holder hstatement hfree
    · rw [hsame]
      exact hheld
    · rw [hnone] at hheld
      cases hheld
    · rw [hbefore] at hheld
      cases hheld

/-- Ending a delivery releases its rows and no others. -/
theorem Held.leaveDelivery (h : w.Held) (r : ℕ) {p : DeliveryPhase} (hp : p.ended) :
    (w.leaveDelivery r p).Held := by
  have hphase : ∀ r', (w.leaveDelivery r p).deliveries r' =
      if r' = r then p else w.deliveries r' := fun r' => Function.update_apply _ _ _ _
  have hended : p.monitor = none ∧ ¬ p.holdsEntitlement := by
    cases p <;> first | exact ⟨rfl, fun h => h⟩ | exact hp.elim
  refine ⟨?_, ?_, ?_⟩
  · intro r' hholds
    have hheld := h.create r' hholds
    change (if w.holder = some (.delivery r) then none else w.holder) = _
    rw [if_neg (by simp [hheld]), hheld]
  · intro r' hholds
    rw [hphase] at hholds
    by_cases hr : r' = r
    · rw [if_pos hr] at hholds
      exact absurd hholds hended.2
    · rw [if_neg hr] at hholds
      have hheld := h.delivery r' hholds
      change (if w.holder = some (.delivery r) then none else w.holder) = _
      rw [if_neg (by simp [hheld, hr]), hheld]
  · intro r' m hmonitor
    rw [hphase] at hmonitor
    by_cases hr : r' = r
    · rw [if_pos hr, hended.1] at hmonitor
      cases hmonitor
    · rw [if_neg hr] at hmonitor
      obtain ⟨hheld, hfound⟩ := h.monitor r' m hmonitor
      refine ⟨?_, hfound⟩
      change (if w.monitorHolder m.id = some r then none else w.monitorHolder m.id) = _
      rw [if_neg (by simp [hheld, hr]), hheld]

/-- A delivery that moves on within its transaction. -/
theorem Held.enterDelivery (h : w.Held) {r : ℕ} {p : DeliveryPhase} {m : MonitorDefinition}
    (hbefore : (w.deliveries r).monitor = some m) (hafter : p.monitor = some m)
    (hholds : p.holdsEntitlement → w.holder = some (.delivery r)) :
    (w.enterDelivery r p).Held := by
  have hphase : ∀ r', (w.enterDelivery r p).deliveries r' =
      if r' = r then p else w.deliveries r' := fun r' => Function.update_apply _ _ _ _
  refine ⟨h.create, ?_, ?_⟩
  · intro r' hentitlement
    rw [hphase] at hentitlement
    by_cases hr : r' = r
    · rw [if_pos hr] at hentitlement
      rw [hr]
      exact hholds hentitlement
    · rw [if_neg hr] at hentitlement
      exact h.delivery r' hentitlement
  · intro r' m' hmonitor
    rw [hphase] at hmonitor
    by_cases hr : r' = r
    · rw [if_pos hr, hafter, Option.some.injEq] at hmonitor
      subst hmonitor
      rw [hr]
      exact h.monitor r m hbefore
    · rw [if_neg hr] at hmonitor
      exact h.monitor r' m' hmonitor

theorem Held.lock (h : w.Held) {r : ℕ} {m : MonitorDefinition}
    (hfound : w.rows.findMonitor m.id = some m) (hfree : w.monitorHolder m.id = none) :
    Held { w.enterDelivery r (.locked m) with
      monitorHolder := Function.update w.monitorHolder m.id (some r) } := by
  have hphase : ∀ r', (w.enterDelivery r (.locked m)).deliveries r' =
      if r' = r then .locked m else w.deliveries r' := fun r' => Function.update_apply _ _ _ _
  refine ⟨h.create, ?_, ?_⟩
  · intro r' hentitlement
    change ((w.enterDelivery r (.locked m)).deliveries r').holdsEntitlement at hentitlement
    rw [hphase] at hentitlement
    by_cases hr : r' = r
    · rw [if_pos hr] at hentitlement
      exact hentitlement.elim
    · rw [if_neg hr] at hentitlement
      exact h.delivery r' hentitlement
  · intro r' m' hmonitor
    change ((w.enterDelivery r (.locked m)).deliveries r').monitor = some m' at hmonitor
    rw [hphase] at hmonitor
    change Function.update w.monitorHolder m.id (some r) m'.id = some r' ∧ _
    rw [Function.update_apply]
    by_cases hr : r' = r
    · rw [if_pos hr] at hmonitor
      cases hmonitor
      rw [if_pos rfl, hr]
      exact ⟨rfl, hfound⟩
    · rw [if_neg hr] at hmonitor
      obtain ⟨hheld, hfound'⟩ := h.monitor r' m' hmonitor
      have hne : m'.id ≠ m.id := by
        intro heq
        rw [heq, hfree] at hheld
        cases hheld
      rw [if_neg hne]
      exact ⟨hheld, hfound'⟩

theorem Held.entitle (h : w.Held) {r : ℕ} {m : MonitorDefinition} {p : DeliveryPhase}
    (hbefore : (w.deliveries r).monitor = some m) (hafter : p.monitor = some m)
    (hfree : w.holder = none) :
    Held { w.enterDelivery r p with holder := some (.delivery r) } := by
  have hphase : ∀ r', (w.enterDelivery r p).deliveries r' =
      if r' = r then p else w.deliveries r' := fun r' => Function.update_apply _ _ _ _
  refine ⟨?_, ?_, ?_⟩
  · intro r' hholds
    have hheld := h.create r' hholds
    rw [hfree] at hheld
    cases hheld
  · intro r' hentitlement
    change ((w.enterDelivery r p).deliveries r').holdsEntitlement at hentitlement
    rw [hphase] at hentitlement
    by_cases hr : r' = r
    · rw [hr]
    · rw [if_neg hr] at hentitlement
      have hheld := h.delivery r' hentitlement
      rw [hfree] at hheld
      cases hheld
  · intro r' m' hmonitor
    change ((w.enterDelivery r p).deliveries r').monitor = some m' at hmonitor
    rw [hphase] at hmonitor
    by_cases hr : r' = r
    · rw [if_pos hr, hafter, Option.some.injEq] at hmonitor
      subst hmonitor
      rw [hr]
      exact h.monitor r m hbefore
    · rw [if_neg hr] at hmonitor
      exact h.monitor r' m' hmonitor

theorem Held.deliver (h : w.Held) {r : ℕ} (hmove : DeliveryMove cfg w r w') : w'.Held := by
  cases hmove with
  | leave p ended => exact h.leaveDelivery r ended
  | lock m start found named free => exact h.lock found free
  | absent m p locked absent next =>
      have hmonitor : (w.deliveries r).monitor = some m := by rw [locked]; rfl
      obtain rfl | ⟨version, reason, rfl⟩ := next
      · exact h.enterDelivery hmonitor rfl (fun h => h.elim)
      · exact h.enterDelivery hmonitor rfl (fun h => h.elim)
  | entitled m p unseen free next =>
      have hmonitor : (w.deliveries r).monitor = some m := by rw [unseen]; rfl
      obtain ⟨e, -, rfl⟩ | ⟨version, reason, rfl⟩ := next
      · exact h.entitle hmonitor rfl free
      · exact h.entitle hmonitor rfl free
  | counted m e next reason p counting hnext =>
      have hmonitor : (w.deliveries r).monitor = some m := by rw [counting]; rfl
      have hheld : w.holder = some (.delivery r) := h.delivery r (by rw [counting]; trivial)
      obtain ⟨following, -, rfl⟩ | ⟨-, -, rfl⟩ | ⟨version, reason, rfl⟩ := hnext <;>
        exact h.enterDelivery hmonitor rfl (fun _ => hheld)
  | suppressed m version reason ids suppressing joins =>
      obtain ⟨hcreate, hdelivery, hmonitor⟩ :=
        h.leaveDelivery r (p := .done (.receipt ids.triggerId true)) trivial
      exact ⟨hcreate, hdelivery, hmonitor⟩
  | admitted m e identity ids admitting identified joins fresh uncharged =>
      obtain ⟨hcreate, hdelivery, hmonitor⟩ :=
        h.leaveDelivery r (p := .done (.receipt ids.triggerId true)) trivial
      exact ⟨hcreate, hdelivery, hmonitor⟩

theorem Held.congr (h : w.Held) (hholder : w'.holder = w.holder)
    (hmonitorHolder : w'.monitorHolder = w.monitorHolder) (hcreates : w'.creates = w.creates)
    (hdeliveries : w'.deliveries = w.deliveries)
    (hmonitors : ∀ r m, (w.deliveries r).monitor = some m → w.rows.findMonitor m.id = some m →
      w'.rows.findMonitor m.id = some m) : w'.Held := by
  refine ⟨?_, ?_, ?_⟩
  · rw [hholder, hcreates]
    exact h.create
  · rw [hholder, hdeliveries]
    exact h.delivery
  · rw [hmonitorHolder, hdeliveries]
    intro r m hmonitor
    obtain ⟨hheld, hfound⟩ := h.monitor r m hmonitor
    exact ⟨hheld, hmonitors r m hmonitor hfound⟩

theorem held_step (h : w.Held) (hstep : w.step cfg label = some w') : w'.Held := by
  cases step_cases hstep with
  | create _ l r a request free statement =>
      exact h.afterCreate (Admission.step_statement request statement) free
  | commit r ids task period a inserted statement =>
      have hafter := h.afterCreate (Admission.step_statement rfl statement) (by rintro ⟨_, ⟨⟩⟩)
      exact ⟨hafter.create, hafter.delivery, hafter.monitor⟩
  | deliver r ids _ move => exact h.deliver move
  | crashDelivery r _ crash =>
      rw [crash]
      exact h.leaveDelivery r trivial
  | task t state l found stepped apart => exact h.congr rfl rfl rfl rfl fun _ _ _ h => h
  | requestReview reviewId candidateId now createdAt idle fresh =>
      exact h.congr rfl rfl rfl rfl fun _ _ _ h => h
  | decideReview reviewId => exact h.congr rfl rfl rfl rfl fun _ _ _ h => h
  | addMonitor m absent =>
      refine h.congr rfl rfl rfl rfl ?_
      intro r m' _ hfound
      change Table.find _ (w.rows.monitors ++ [m]) m'.id = some m'
      rw [Table.find, List.find?_append]
      exact Option.or_eq_some_iff.mpr (.inl hfound)
  | putMonitor m old found free owner =>
      refine h.congr rfl rfl rfl rfl ?_
      intro r m' hmonitor hfound
      have hne : m'.id ≠ m.id := by
        intro heq
        have hheld := (h.monitor r m' hmonitor).1
        rw [heq, free] at hheld
        cases hheld
      exact (Table.find_put_other hne).trans hfound
  | setEntitlement e free => exact h.congr rfl rfl rfl rfl fun _ _ _ h => h
  | reconcile moment now repair reconciliations free =>
      exact h.congr rfl rfl rfl rfl fun _ _ _ h => h

end Workspace

end CryptoAlert
