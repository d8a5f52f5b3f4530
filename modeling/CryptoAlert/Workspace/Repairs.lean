import CryptoAlert.Commands.Billing
import CryptoAlert.Commands.Lineage
import CryptoAlert.Workspace.TriggerIdentity

/-!
# What a repair of the ledger achieves

As long as every charge lies in the month of its source, and no run that was charged changes its
month or its usage, each entry of the ledger stands for one of the sources. A repair of a month
then closes it: the totals are those of the sources, and repeating the repair changes nothing.
-/

namespace CryptoAlert

/-- What a fact is charged, whatever its key. -/
def UsageFact.charge (f : UsageFact) : UsageResource × LedgerUnit × ℕ :=
  (f.resource, f.unit, f.quantity)

/-- An entry is for what its key says; the charge for an admitted trigger names it. -/
def UsageLedgerEntry.Named (e : UsageLedgerEntry) : Prop :=
  match e.key with
  | .agentAdmission id => e.resource = .task id ∧ e.unit = .agentAdmission ∧ e.triggerId = none
  | .candidateReview id =>
      e.resource = .improvementReview id ∧ e.unit = .agentAdmission ∧ e.triggerId = none
  | .monitorTrigger _ _ _ =>
      ∃ id, e.resource = .monitorTrigger id ∧ e.unit = .trigger ∧ e.triggerId = some id
  | .reconcileTrigger id =>
      e.resource = .monitorTrigger id ∧ e.unit = .trigger ∧ e.triggerId = none
  | .runUsage id unit => e.resource = .run id ∧ e.unit = .run unit ∧ e.triggerId = none

theorem mem_runUsageFacts {hashing : Hashing} {r : RunRow} {receipt : UsageReceipt}
    (h : receipt ∈ runUsageFacts hashing r) :
    ∃ finishedAt output, r.finishedAt = some finishedAt ∧ r.outputPayload = some output ∧
      receipt.runId = r.id ∧
      receipt.quantity = usageQuantity hashing r output finishedAt receipt.unit ∧
      receipt.sourceReceiptHash = r.terminalOutputHash.getD (hashing.payloadHash output) := by
  unfold runUsageFacts at h
  split at h
  · rename_i finishedAt output hfinished houtput
    obtain ⟨unit, -, hunit⟩ := List.mem_filterMap.mp h
    dsimp only at hunit
    split_ifs at hunit
    cases hunit
    exact ⟨finishedAt, output, hfinished, houtput, rfl, rfl, rfl⟩
  · cases h

/-- A run has one fact a unit. -/
theorem runUsageFacts_units_nodup (hashing : Hashing) (r : RunRow) :
    ((runUsageFacts hashing r).map UsageReceipt.unit).Nodup := by
  unfold runUsageFacts
  split
  · rename_i finishedAt output _ _
    have hsub : ∀ units : List UsageUnit, ((units.filterMap fun unit =>
        let quantity := usageQuantity hashing r output finishedAt unit
        if 0 < quantity then some (UsageReceipt.mk r.id unit quantity
          (r.terminalOutputHash.getD (hashing.payloadHash output))) else none).map
        UsageReceipt.unit).Sublist units := by
      intro units
      induction units with
      | nil => exact .slnil
      | cons unit units ih =>
          by_cases hpos : 0 < usageQuantity hashing r output finishedAt unit
          · simp only [List.filterMap_cons, if_pos hpos, List.map_cons]
            exact ih.cons_cons unit
          · simp only [List.filterMap_cons, if_neg hpos]
            exact ih.cons unit
    exact (hsub _).nodup (by decide)
  · exact List.nodup_nil

namespace WorkspaceRows

variable {hashing : Hashing} {w w' : WorkspaceRows} {f f' : UsageFact} {t t' moment : ℕ}
  {e e' : UsageLedgerEntry}

/-- The facts of a workspace with the times that date them. -/
inductive Dates (hashing : Hashing) (w : WorkspaceRows) : UsageFact → ℕ → Prop where
  | task (t : WorkspaceTask) (mem : t ∈ w.tasks) : Dates hashing w (taskFact hashing t) t.createdAt
  | review (v : ImprovementReview) (mem : v ∈ w.reviews) :
      Dates hashing w (reviewFact hashing v) v.createdAt
  | trigger (g : MonitorTrigger) (mem : g ∈ w.triggers) :
      Dates hashing w (triggerFact hashing g) g.receivedAt
  | run (t : WorkspaceTask) (r : RunRow) (receipt : UsageReceipt) (finishedAt : ℕ)
      (mem : t ∈ w.tasks) (run : r ∈ t.state.store.runs) (finished : r.finishedAt = some finishedAt)
      (used : receipt ∈ runUsageFacts hashing r) : Dates hashing w (runFact receipt) finishedAt

theorem mem_unsortedFacts : f ∈ w.unsortedFacts hashing (periodOf moment) ↔
    ∃ t, w.Dates hashing f t ∧ periodOf t = periodOf moment := by
  simp only [unsortedFacts, runs, List.mem_append, List.mem_map, List.mem_filter,
    List.mem_flatMap, inBounds_periodOf]
  constructor
  · rintro (((⟨t, ⟨ht, hin⟩, rfl⟩ | ⟨v, ⟨hv, hin⟩, rfl⟩) | ⟨g, ⟨hg, hin⟩, rfl⟩) |
      ⟨r, ⟨⟨t, ht, hr⟩, hin⟩, receipt, hreceipt, rfl⟩)
    · exact ⟨_, .task t ht, hin⟩
    · exact ⟨_, .review v hv, hin⟩
    · exact ⟨_, .trigger g hg, hin⟩
    · obtain ⟨finishedAt, hfinished, hin⟩ := (Option.any_eq_true _ _).mp hin
      exact ⟨finishedAt, .run t r receipt finishedAt ht hr hfinished hreceipt,
        inBounds_periodOf.mp hin⟩
  · rintro ⟨moment', hdates, hin⟩
    cases hdates with
    | task t mem => exact .inl (.inl (.inl ⟨t, ⟨mem, hin⟩, rfl⟩))
    | review v mem => exact .inl (.inl (.inr ⟨v, ⟨mem, hin⟩, rfl⟩))
    | trigger g mem => exact .inl (.inr ⟨g, ⟨mem, hin⟩, rfl⟩)
    | run t r receipt _ mem run finished used =>
        refine .inr ⟨r, ⟨⟨t, mem, run⟩, ?_⟩, receipt, used, rfl⟩
        rw [finished]
        exact inBounds_periodOf.mpr hin

/-- The entry that a repair makes of a fact is named. -/
theorem Dates.named (h : w.Dates hashing f t) (period : Admission.Instant) :
    (UsageLedgerEntry.mk f none period).Named := by
  cases h <;> exact ⟨rfl, rfl, rfl⟩

/-- Every entry stands for a source that lies in its month, and the sources are told apart by
their ids. -/
structure Sourced (hashing : Hashing) (w : WorkspaceRows) : Prop where
  apart : ∀ t ∈ w.tasks, ∀ t' ∈ w.tasks, ∀ r ∈ t.state.store.runs, ∀ r' ∈ t'.state.store.runs,
    r.id = r'.id → t.id = t'.id
  reviews : (w.reviews.map ImprovementReview.id).Nodup
  named : ∀ e ∈ w.ledger, e.Named
  source : ∀ e ∈ w.ledger, ∃ f t, w.Dates hashing f t ∧ periodOf t = e.periodStart ∧
    f.charge = e.charge

theorem Dates.inj (hk : w.Keyed) (hs : w.Sourced hashing) (h : w.Dates hashing f t)
    (h' : w.Dates hashing f' t') (hresource : f.resource = f'.resource) (hunit : f.unit = f'.unit) :
    f = f' ∧ t = t' := by
  cases h with
  | task task mem =>
      cases h' with
      | task task' mem' =>
          have hid : task.id = task'.id := UsageResource.task.inj hresource
          rw [List.inj_on_of_nodup_map hk.tasks mem mem' hid]
          exact ⟨rfl, rfl⟩
      | _ => cases hresource
  | review v mem =>
      cases h' with
      | review v' mem' =>
          have hid : v.id = v'.id := UsageResource.improvementReview.inj hresource
          rw [List.inj_on_of_nodup_map hs.reviews mem mem' hid]
          exact ⟨rfl, rfl⟩
      | _ => cases hresource
  | trigger g mem =>
      cases h' with
      | trigger g' mem' =>
          have hid : g.id = g'.id := UsageResource.monitorTrigger.inj hresource
          rw [List.inj_on_of_nodup_map hk.triggers mem mem' hid]
          exact ⟨rfl, rfl⟩
      | _ => cases hresource
  | run task r receipt _ mem run finished used =>
      cases h' with
      | run task' r' receipt' _ mem' run' finished' used' =>
          have hid : receipt.runId = receipt'.runId := UsageResource.run.inj hresource
          have hsame : receipt.unit = receipt'.unit := LedgerUnit.run.inj hunit
          obtain ⟨_, _, -, -, hr, -⟩ := mem_runUsageFacts used
          obtain ⟨_, _, -, -, hr', -⟩ := mem_runUsageFacts used'
          have hrun : r.id = r'.id := hr.symm.trans (hid.trans hr')
          have htask := hs.apart task mem task' mem' r run r' run' hrun
          have htask := List.inj_on_of_nodup_map hk.tasks mem mem' htask
          subst htask
          have hrow := List.inj_on_of_nodup_map (hk.sound task mem).runIds run run' hrun
          subst hrow
          rw [finished, Option.some.injEq] at finished'
          have hreceipt := List.inj_on_of_nodup_map (runUsageFacts_units_nodup hashing r) used
            used' hsame
          exact ⟨congrArg runFact hreceipt, finished'⟩
      | _ => cases hresource

/-- Entries for the same thing are one entry. -/
theorem Sourced.entry_inj (hs : w.Sourced hashing) (hk : w.Keyed) (hi : w.Identified)
    (he : e ∈ w.ledger) (he' : e' ∈ w.ledger) (hresource : e.resource = e'.resource)
    (hunit : e.unit = e'.unit) : e = e' := by
  apply List.inj_on_of_nodup_map hk.ledger he he'
  have hnamed := hs.named e he
  have hnamed' := hs.named e' he'
  have htrigger : ∀ id, e.resource = .monitorTrigger id → e.key = e'.key := by
    intro id hid
    obtain ⟨g, hg, hgid, hkey⟩ := hi.charge e he id (.inl hid)
    obtain ⟨g', hg', hgid', hkey'⟩ := hi.charge e' he' id (.inl (hresource.symm.trans hid))
    rw [hkey, hkey', List.inj_on_of_nodup_map hk.triggers hg hg' (hgid.trans hgid'.symm)]
  unfold UsageLedgerEntry.Named at hnamed hnamed'
  cases hkey : e.key with
  | monitorTrigger m kind identity =>
      rw [hkey] at hnamed
      obtain ⟨id, hid, -⟩ := hnamed
      exact hkey.symm.trans (htrigger id hid)
  | reconcileTrigger id =>
      rw [hkey] at hnamed
      exact hkey.symm.trans (htrigger id hnamed.1)
  | agentAdmission id =>
      rw [hkey] at hnamed
      cases hkey' : e'.key <;> simp_all
  | candidateReview id =>
      rw [hkey] at hnamed
      cases hkey' : e'.key <;> simp_all
  | runUsage id unit =>
      rw [hkey] at hnamed
      cases hkey' : e'.key <;> simp_all

section Kept

/-- The facts stay, and every new entry is named and stands for one of them. -/
theorem Sourced.appendAll {α : Type*} {g : α → UsageLedgerEntry} {l : List α}
    (hs : w.Sourced hashing) (hapart : ∀ t ∈ w'.tasks, ∀ t' ∈ w'.tasks,
      ∀ r ∈ t.state.store.runs, ∀ r' ∈ t'.state.store.runs, r.id = r'.id → t.id = t'.id)
    (hreviews : (w'.reviews.map ImprovementReview.id).Nodup)
    (hkept : ∀ f t, w.Dates hashing f t →
      ∃ f' t', w'.Dates hashing f' t' ∧ periodOf t' = periodOf t ∧ f'.charge = f.charge)
    (hl : ∀ a ∈ l, (g a).Named ∧ ∃ f t, w'.Dates hashing f t ∧
      periodOf t = (g a).periodStart ∧ f.charge = (g a).charge)
    (hledger : w'.ledger = UsageLedger.appendAll g w.ledger l) : w'.Sourced hashing := by
  refine ⟨hapart, hreviews, ?_, ?_⟩
  · rw [hledger]
    intro e he
    obtain he | ⟨a, ha, rfl⟩ := UsageLedger.mem_of_mem_appendAll he
    · exact hs.named e he
    · exact (hl a ha).1
  · rw [hledger]
    intro e he
    obtain he | ⟨a, ha, rfl⟩ := UsageLedger.mem_of_mem_appendAll he
    · obtain ⟨f, t, hdates, hperiod, hcharge⟩ := hs.source e he
      obtain ⟨f', t', hdates', hperiod', hcharge'⟩ := hkept f t hdates
      exact ⟨f', t', hdates', hperiod'.trans hperiod, hcharge'.trans hcharge⟩
    · exact (hl a ha).2

theorem Dates.mono (h : w.Dates hashing f t) (htasks : ∀ t ∈ w.tasks, t ∈ w'.tasks)
    (hreviews : ∀ v ∈ w.reviews, ∃ v' ∈ w'.reviews, v'.id = v.id ∧
      v'.candidateId = v.candidateId ∧ v'.createdAt = v.createdAt)
    (htriggers : ∀ g ∈ w.triggers, g ∈ w'.triggers) : w'.Dates hashing f t := by
  cases h with
  | task t mem => exact .task t (htasks t mem)
  | review v mem =>
      obtain ⟨v', hv', hid, hcandidate, hcreated⟩ := hreviews v mem
      have hfact : reviewFact hashing v = reviewFact hashing v' := by
        rw [reviewFact, reviewFact, hid, hcandidate]
      rw [hfact, ← hcreated]
      exact .review v' hv'
  | trigger g mem => exact .trigger g (htriggers g mem)
  | run t r receipt _ mem run finished used =>
      exact .run t r receipt _ (htasks t mem) run finished used

theorem same_reviews {reviews reviews' : List ImprovementReview} (h : ∀ v ∈ reviews, v ∈ reviews') :
    ∀ v ∈ reviews, ∃ v' ∈ reviews', v'.id = v.id ∧ v'.candidateId = v.candidateId ∧
      v'.createdAt = v.createdAt :=
  fun v hv => ⟨v, h v hv, rfl, rfl, rfl⟩

theorem Sourced.congr (hs : w.Sourced hashing) (htasks : w'.tasks = w.tasks)
    (hreviews : w'.reviews = w.reviews) (htriggers : ∀ g ∈ w.triggers, g ∈ w'.triggers)
    (hledger : w'.ledger = w.ledger) : w'.Sourced hashing := by
  refine hs.appendAll (g := id) (l := []) (by rw [htasks]; exact hs.apart)
    (by rw [hreviews]; exact hs.reviews) ?_ (fun _ h => absurd h List.not_mem_nil) hledger
  intro f t hdates
  refine ⟨f, t, hdates.mono (by rw [htasks]; exact fun _ h => h) ?_ htriggers, rfl, rfl⟩
  rw [hreviews]
  exact same_reviews fun _ h => h

end Kept

end WorkspaceRows

namespace TaskState

/-- A run that used something keeps the month in which it finished, and what it used. -/
def KeepsCharges (hashing : Hashing) (t t' : TaskState) : Prop :=
  ∀ r ∈ t.store.runs, ∀ receipt ∈ runUsageFacts hashing r, ∃ r' ∈ t'.store.runs,
    r'.id = r.id ∧ r'.finishedAt.map periodOf = r.finishedAt.map periodOf ∧
      ∃ receipt' ∈ runUsageFacts hashing r', receipt'.unit = receipt.unit ∧
        receipt'.quantity = receipt.quantity

instance (hashing : Hashing) (t t' : TaskState) : Decidable (t.KeepsCharges hashing t') :=
  inferInstanceAs (Decidable (∀ r ∈ t.store.runs, ∀ receipt ∈ runUsageFacts hashing r, _))

end TaskState

namespace Workspace

variable {cfg : WorkspaceConfig} {w w' : Workspace} {label : WorkspaceLabel}

/-- An admission is charged to the month in which its row is created, and a step on a task keeps
what its runs are charged. -/
def ChargesItsMonth (cfg : WorkspaceConfig) (w : Workspace) : WorkspaceLabel → Prop
  | .commit r ids => ∀ task period, w.creates r = .inserted task period →
      period = periodOf ids.createdAt
  | .requestReview _ _ now createdAt => periodOf now = periodOf createdAt
  | .task taskId l => ∀ t, w.rows.findTask taskId = some t → ∀ state,
      t.state.step cfg.dispatcher cfg.digests l = some state →
      t.state.KeepsCharges cfg.dispatcher.hashing state
  | _ => True

/-- A run of a new task is a run of no other one. -/
theorem apart_append {tasks : List WorkspaceTask} {t : WorkspaceTask}
    (hruns : t.state.store.runs = [])
    (h : ∀ t₁ ∈ tasks, ∀ t₂ ∈ tasks, ∀ r₁ ∈ t₁.state.store.runs, ∀ r₂ ∈ t₂.state.store.runs,
      r₁.id = r₂.id → t₁.id = t₂.id) :
    ∀ t₁ ∈ tasks ++ [t], ∀ t₂ ∈ tasks ++ [t], ∀ r₁ ∈ t₁.state.store.runs,
      ∀ r₂ ∈ t₂.state.store.runs, r₁.id = r₂.id → t₁.id = t₂.id := by
  intro t₁ ht₁ t₂ ht₂ r₁ hr₁ r₂ hr₂ hid
  obtain ht₁ | ht₁ := List.mem_append.mp ht₁
  · obtain ht₂ | ht₂ := List.mem_append.mp ht₂
    · exact h t₁ ht₁ t₂ ht₂ r₁ hr₁ r₂ hr₂ hid
    · rw [List.mem_singleton.mp ht₂, hruns] at hr₂
      cases hr₂
  · rw [List.mem_singleton.mp ht₁, hruns] at hr₁
    cases hr₁

theorem sourced_deliver {hashing : Hashing} (h : w.rows.Sourced hashing) {r : ℕ}
    (hmove : DeliveryMove cfg w r w') : w'.rows.Sourced hashing := by
  cases hmove with
  | leave => exact h
  | lock => exact h
  | absent => exact h
  | entitled => exact h
  | counted => exact h
  | suppressed m version reason ids suppressing joins =>
      exact h.congr rfl rfl (fun g hg => List.mem_append_left _ hg) rfl
  | admitted m e identity ids admitting identified joins fresh uncharged =>
      have hledger : UsageLedger.append w.rows.ledger (triggerEntry cfg m (cfg.deliveries r).kind
          identity ids (cfg.deliveries r).receivedAt) = _ :=
        UsageLedger.append_of_fresh uncharged
      refine h.appendAll (g := id) (l := [triggerEntry cfg m (cfg.deliveries r).kind
        identity ids (cfg.deliveries r).receivedAt]) (apart_append rfl h.apart) h.reviews ?_ ?_
        hledger.symm
      · intro f t hdates
        refine ⟨f, t, hdates.mono (fun t ht => List.mem_append_left _ ht)
          (WorkspaceRows.same_reviews fun _ h => h) fun g hg => List.mem_append_left _ hg, rfl, rfl⟩
      · intro e he
        rw [List.mem_singleton.mp he]
        exact ⟨⟨ids.triggerId, rfl, rfl, rfl⟩, _, _,
          .trigger _ (List.mem_append_right _ (List.mem_singleton_self _)), rfl, rfl⟩

/-- A guarded step on a task charges its runs to their months. -/
theorem sourced_task {t : WorkspaceTask} {state : TaskState} {l : TaskLabel}
    (hs : w.Sound) (h : w.rows.Sourced cfg.dispatcher.hashing)
    (hok : w.ChargesItsMonth cfg (.task t.id l)) (found : w.rows.findTask t.id = some t)
    (stepped : t.state.step cfg.dispatcher cfg.digests l = some state)
    (apart : w.runIdsApart t state) :
    { w.rows with
      tasks := Table.put WorkspaceTask.id w.rows.tasks { t with state }
      ledger := UsageLedger.appendAll (runEntry state) w.rows.ledger
        (newReceipts t.state state) }.Sourced cfg.dispatcher.hashing := by
  obtain ⟨hmem, -⟩ := Table.find_eq_some found
  have hsound := hs.keyed.sound t hmem
  have hid : WorkspaceTask.id { t with state } = t.id := TaskState.task_id_step hsound stepped
  have hput : { t with state } ∈ Table.put WorkspaceTask.id w.rows.tasks { t with state } :=
    Table.mem_put_self hmem hid.symm
  refine h.appendAll ?_ h.reviews ?_ ?_ rfl
  · -- The runs of the task are compared with those of the other tasks before its step.
    have hother : ∀ t' ∈ w.rows.tasks, t'.id ≠ t.id → ∀ r' ∈ t'.state.store.runs,
        ∀ r ∈ state.store.runs, r.id ≠ r'.id := by
      intro t' ht' hne r' hr' r hr
      simp only [runIdsApart, List.all_eq_true, Bool.or_eq_true, beq_iff_eq, bne_iff_ne] at apart
      exact ((apart t' ht').resolve_left hne) r' hr' r hr
    intro t₁ ht₁ t₂ ht₂ r₁ hr₁ r₂ hr₂ hids
    obtain ⟨ht₁, hne₁⟩ | ⟨rfl, -⟩ := Table.mem_put.mp ht₁
    · obtain ⟨ht₂, hne₂⟩ | ⟨rfl, -⟩ := Table.mem_put.mp ht₂
      · exact h.apart t₁ ht₁ t₂ ht₂ r₁ hr₁ r₂ hr₂ hids
      · exact absurd hids.symm (hother t₁ ht₁ (by rwa [hid] at hne₁) r₁ hr₁ r₂ hr₂)
    · obtain ⟨ht₂, hne₂⟩ | ⟨rfl, -⟩ := Table.mem_put.mp ht₂
      · exact absurd hids (hother t₂ ht₂ (by rwa [hid] at hne₂) r₂ hr₂ r₁ hr₁)
      · rfl
  · intro f moment hdates
    cases hdates with
    | task t' mem =>
        by_cases hsame : t'.id = t.id
        · have ht : t' = t := List.inj_on_of_nodup_map hs.keyed.tasks mem hmem hsame
          have hfact : taskFact cfg.dispatcher.hashing t' =
              taskFact cfg.dispatcher.hashing { t with state } := by
            obtain ⟨lease, hchange, -⟩ :=
              TaskState.step_change hsound.toKeyed hsound.checked stepped
            have hadmission := (hchange.grows hsound.toKeyed).admission
            rw [ht, taskFact, taskFact, hid]
            simp only [WorkspaceTask.row, hadmission]
          refine ⟨_, _, .task { t with state } hput, ?_, ?_⟩
          · rw [ht]
          · rw [hfact]
        · exact ⟨_, _, .task t' (Table.mem_put_other mem (by rwa [hid])), rfl, rfl⟩
    | review v mem => exact ⟨_, _, .review v mem, rfl, rfl⟩
    | trigger g mem => exact ⟨_, _, .trigger g mem, rfl, rfl⟩
    | run t' r receipt _ mem run finished used =>
        by_cases hsame : t'.id = t.id
        · have ht : t' = t := List.inj_on_of_nodup_map hs.keyed.tasks mem hmem hsame
          rw [ht] at run
          obtain ⟨r', hr', hrid, hperiod, receipt', used', hunit, hquantity⟩ :=
            hok t found state stepped r run receipt used
          obtain ⟨finishedAt', _, hfinished', -, hid', -⟩ := mem_runUsageFacts used'
          obtain ⟨_, _, -, -, hid, -⟩ := mem_runUsageFacts used
          rw [hfinished', finished, Option.map_some, Option.map_some, Option.some.injEq] at hperiod
          refine ⟨_, _, .run _ r' receipt' finishedAt' hput hr' hfinished' used', hperiod, ?_⟩
          simp only [UsageFact.charge, runFact, hid', hid, hrid, hunit, hquantity]
        · exact ⟨_, _, .run t' r receipt _ (Table.mem_put_other mem (by rwa [hid])) run finished
            used, rfl, rfl⟩
  · intro receipt hreceipt
    obtain ⟨new, hnew, hfacts⟩ := TaskState.step_bills stepped
    rw [newReceipts, hnew, List.drop_left] at hreceipt
    obtain ⟨r, hr, hfinished, hused⟩ := hfacts receipt hreceipt
    obtain ⟨finishedAt, _, hfinished, -, hrid, -⟩ := mem_runUsageFacts hused
    have hfind : state.store.findRun receipt.runId = some r := by
      rw [hrid]
      exact Table.find_of_mem (hsound.step stepped).runIds hr
    refine ⟨⟨rfl, rfl, rfl⟩, _, _, .run _ r receipt finishedAt hput hr hfinished hused, ?_, rfl⟩
    rw [runEntry, hfind, Option.bind_some, hfinished, Option.getD_some]

theorem sourced_step (hs : w.Sound) (h : w.rows.Sourced cfg.dispatcher.hashing)
    (hok : w.ChargesItsMonth cfg label) (hstep : w.step cfg label = some w') :
    w'.rows.Sourced cfg.dispatcher.hashing := by
  cases step_cases hstep with
  | create _ l r a request free statement => exact h
  | commit r ids task period a inserted statement =>
      refine h.appendAll (g := id) (l := [admissionEntry cfg task.id (cfg.creates r).taskType
        period]) (apart_append rfl h.apart) h.reviews ?_ ?_ rfl
      · intro f t hdates
        exact ⟨f, t, hdates.mono (fun t ht => List.mem_append_left _ ht)
          (WorkspaceRows.same_reviews fun _ h => h) fun _ h => h, rfl, rfl⟩
      · intro e he
        rw [List.mem_singleton.mp he]
        exact ⟨⟨rfl, rfl, rfl⟩, _, _, .task _ (List.mem_append_right _ (List.mem_singleton_self _)),
          (hok task period inserted).symm, rfl⟩
  | deliver r ids _ move => exact sourced_deliver h move
  | crashDelivery r _ crash =>
      rw [crash]
      exact h
  | task t state l found stepped apart => exact sourced_task hs h hok found stepped apart
  | requestReview reviewId candidateId now createdAt idle fresh =>
      refine h.appendAll (g := id) (l := [reviewEntry cfg reviewId
        (Admission.usagePeriodStart (.ofMicros now))]) h.apart
        (Table.nodup_insert h.reviews fresh) ?_ ?_ rfl
      · intro f t hdates
        exact ⟨f, t, hdates.mono (fun _ h => h)
          (WorkspaceRows.same_reviews fun v hv => List.mem_append_left _ hv) fun _ h => h, rfl, rfl⟩
      · intro e he
        rw [List.mem_singleton.mp he]
        exact ⟨⟨rfl, rfl, rfl⟩, _, _,
          .review _ (List.mem_append_right _ (List.mem_singleton_self _)), hok.symm, rfl⟩
  | decideReview reviewId =>
      have hids : (w.rows.reviews.map fun v =>
          if v.id = reviewId then { v with pending := false } else v).map ImprovementReview.id =
          w.rows.reviews.map ImprovementReview.id := by
        rw [List.map_map]
        apply List.map_congr_left
        intro v _
        by_cases hv : v.id = reviewId <;> simp [hv]
      refine h.appendAll (g := id) (l := []) h.apart ?_ ?_
        (fun _ h => absurd h List.not_mem_nil) rfl
      · exact hids.symm ▸ h.reviews
      · intro f t hdates
        refine ⟨f, t, hdates.mono (fun _ h => h) ?_ fun _ h => h, rfl, rfl⟩
        intro v hv
        refine ⟨_, List.mem_map_of_mem hv, ?_⟩
        by_cases hreview : v.id = reviewId <;> simp [hreview]
  | addMonitor m absent => exact h.congr rfl rfl (fun _ h => h) rfl
  | putMonitor m old found free owner => exact h.congr rfl rfl (fun _ h => h) rfl
  | setEntitlement e free => exact h.congr rfl rfl (fun _ h => h) rfl
  | reconcile moment now repair reconciliations free =>
      cases repair with
      | false => exact h.congr rfl rfl (fun _ h => h) rfl
      | true =>
          refine h.appendAll (g := fun f => ⟨f, none, periodOf moment⟩) h.apart h.reviews
            (fun f t hdates => ⟨f, t, hdates.mono (fun _ h => h)
              (WorkspaceRows.same_reviews fun _ h => h) fun _ h => h, rfl, rfl⟩) ?_ rfl
          intro f hf
          obtain ⟨hsource, -⟩ := List.mem_filter.mp hf
          obtain ⟨t, hdates, hperiod⟩ :=
            WorkspaceRows.mem_unsortedFacts.mp (WorkspaceRows.mem_sourceFacts.mp hsource)
          have hdates' : { w.rows with
              ledger := w.rows.repaired cfg.dispatcher.hashing (periodOf moment)
              reconciliations }.Dates cfg.dispatcher.hashing f t := hdates.mono (fun _ h => h) (WorkspaceRows.same_reviews fun _ h => h) fun _ h => h
          exact ⟨hdates.named _, f, t, hdates', hperiod, rfl⟩

theorem sourced_init (hashing : Hashing) (e : Option Entitlement)
    (monitors : List MonitorDefinition) : (init e monitors).rows.Sourced hashing :=
  ⟨fun _ h => absurd h List.not_mem_nil, List.nodup_nil, fun _ h => absurd h List.not_mem_nil,
    fun _ h => absurd h List.not_mem_nil⟩

end Workspace

section Totals

theorem factTotal_eq (facts : List UsageFact) (unit : LedgerUnit) :
    factTotal facts unit =
      (((facts.map UsageFact.charge).filter fun c => c.2.1 = unit).map (·.2.2)).sum := by
  rw [factTotal, List.filter_map, List.map_map]
  rfl

theorem UsageLedger.total_eq (ledger : List UsageLedgerEntry) (unit : LedgerUnit)
    (period : Admission.Instant) : total ledger unit period =
      ((((inPeriod ledger period).map (·.charge)).filter fun c => c.2.1 = unit).map
        (·.2.2)).sum := by
  rw [total, List.filter_map, List.map_map]
  rfl

end Totals

namespace WorkspaceRows

variable {hashing : Hashing} {w : WorkspaceRows} {moment : ℕ}

/-- Every fact of a period has an entry in the ledger, of whatever period. -/
def Closed (hashing : Hashing) (w : WorkspaceRows) (period : Admission.Instant) : Prop :=
  ∀ f ∈ w.sourceFacts hashing period, ∃ e ∈ w.ledger, e.key = f.key ∨
    ∃ id, f.resource = .monitorTrigger id ∧ e.triggerId = some id

theorem isCharged_iff {period : Admission.Instant} {f : UsageFact} :
    w.isCharged period f = true ↔ ∃ e ∈ w.ledger, e.periodStart = period ∧ (e.key = f.key ∨
      ∃ id, f.resource = .monitorTrigger id ∧ e.triggerId = some id) := by
  simp only [isCharged, UsageLedger.inPeriod, List.any_eq_true, List.mem_filter,
    decide_eq_true_eq, Bool.or_eq_true, beq_iff_eq]
  constructor
  · rintro ⟨e, ⟨he, hperiod⟩, hkey | htrigger⟩
    · exact ⟨e, he, hperiod, .inl hkey⟩
    · refine ⟨e, he, hperiod, .inr ?_⟩
      cases hresource : f.resource with
      | monitorTrigger id =>
          rw [hresource] at htrigger
          exact ⟨id, rfl, by simpa using htrigger⟩
      | _ => simp [hresource] at htrigger
  · rintro ⟨e, he, hperiod, hkey | ⟨id, hresource, htrigger⟩⟩
    · exact ⟨e, ⟨he, hperiod⟩, .inl hkey⟩
    · exact ⟨e, ⟨he, hperiod⟩, .inr (by simp [hresource, htrigger])⟩

theorem taken_of_appendAll {α : Type*} {g : α → UsageLedgerEntry} {l : List α} {a : α}
    (ledger : List UsageLedgerEntry) (ha : a ∈ l) :
    ∃ e ∈ UsageLedger.appendAll g ledger l, e.key = (g a).key := by
  induction l generalizing ledger with
  | nil => cases ha
  | cons a' l ih =>
      rw [UsageLedger.appendAll_cons]
      obtain rfl | ha := List.mem_cons.mp ha
      · by_cases htaken : ∃ e ∈ ledger, e.key = (g a).key
        · obtain ⟨e, he, hkey⟩ := htaken
          exact ⟨e, UsageLedger.mem_appendAll_of_mem (UsageLedger.mem_append_iff.mpr (.inl he)), hkey⟩
        · have hfresh : ∀ e ∈ ledger, e.key ≠ (g a).key :=
            fun e he hkey => htaken ⟨e, he, hkey⟩
          exact ⟨g a, UsageLedger.mem_appendAll_of_mem
            (UsageLedger.mem_append_iff.mpr (.inr ⟨rfl, hfresh⟩)), rfl⟩
      · exact ih _ ha

/-- A repair gives every fact of the period an entry. -/
theorem closed_repaired {period : Admission.Instant} (reconciliations : List UsageReconciliation) :
    { w with ledger := w.repaired hashing period, reconciliations }.Closed hashing period := by
  intro f hf
  change f ∈ w.sourceFacts hashing period at hf
  by_cases hcharged : w.isCharged period f
  · obtain ⟨e, he, -, hcharge⟩ := isCharged_iff.mp hcharged
    exact ⟨e, UsageLedger.mem_appendAll_of_mem he, hcharge⟩
  · have hmem : f ∈ (w.sourceFacts hashing period).filter fun f => !w.isCharged period f :=
      List.mem_filter.mpr ⟨hf, by simpa using hcharged⟩
    obtain ⟨e, he, hkey⟩ := taken_of_appendAll (g := fun f => ⟨f, none, period⟩) w.ledger hmem
    exact ⟨e, he, .inl hkey⟩

variable (hk : w.Keyed) (hs : w.Sourced hashing) (hi : w.Identified)

include hk hs in
/-- The entry that closes a fact stands for this fact, and lies in its month. -/
theorem Closed.entry {f : UsageFact} (hclosed : w.Closed hashing (periodOf moment))
    (hf : f ∈ w.sourceFacts hashing (periodOf moment)) :
    ∃ e ∈ w.ledger, e.periodStart = periodOf moment ∧ e.charge = f.charge ∧ (e.key = f.key ∨
      ∃ id, f.resource = .monitorTrigger id ∧ e.triggerId = some id) := by
  obtain ⟨e, he, hcharges⟩ := hclosed f hf
  obtain ⟨t, hdates, hperiod⟩ := mem_unsortedFacts.mp (mem_sourceFacts.mp hf)
  obtain ⟨f', t', hdates', hperiod', hcharge'⟩ := hs.source e he
  have hsubject : e.resource = f.resource ∧ e.unit = f.unit := by
    have hnamed := hs.named e he
    unfold UsageLedgerEntry.Named at hnamed
    have hfact := hdates.named (periodOf moment)
    unfold UsageLedgerEntry.Named at hfact
    obtain hkey | ⟨id, hresource, htrigger⟩ := hcharges
    · rw [hkey] at hnamed
      cases hdates <;> simp_all [taskFact, reviewFact, triggerFact, runFact]
    · cases hkey : e.key <;> cases hdates <;> simp_all [taskFact, reviewFact, triggerFact, runFact]
  rw [UsageFact.charge, UsageFact.charge, Prod.mk.injEq, Prod.mk.injEq] at hcharge'
  obtain ⟨rfl, rfl⟩ := hdates'.inj hk hs hdates (hcharge'.1.trans hsubject.1)
    (hcharge'.2.1.trans hsubject.2)
  refine ⟨e, he, hperiod'.symm.trans hperiod, ?_, hcharges⟩
  rw [UsageFact.charge, UsageFact.charge, hcharge'.1, hcharge'.2.1, hcharge'.2.2]

include hk hs in
theorem runs_nodup : (w.runs.map RunRow.id).Nodup := by
  rw [runs, List.map_flatMap, List.nodup_flatMap]
  refine ⟨fun t ht => (hk.sound t ht).runIds, ?_⟩
  have htasks : w.tasks.Pairwise fun t t' => t.id ≠ t'.id := List.pairwise_map.mp hk.tasks
  refine htasks.imp_of_mem ?_
  intro t t' ht ht' hne id hid hid'
  obtain ⟨r, hr, rfl⟩ := List.mem_map.mp hid
  obtain ⟨r', hr', hsame⟩ := List.mem_map.mp hid'
  exact hne (hs.apart t ht t' ht' r hr r' hr' hsame.symm)

include hk hs in
/-- No two facts of a period are charged for the same thing. -/
theorem subjects_nodup :
    ((w.unsortedFacts hashing (periodOf moment)).map fun f => (f.resource, f.unit)).Nodup := by
  have htasks : ((w.tasks.filter fun t => inBounds (periodOf moment) t.createdAt).map
      WorkspaceTask.id).Nodup := hk.tasks.sublist (List.filter_sublist.map _)
  have hreviews : ((w.reviews.filter fun v => inBounds (periodOf moment) v.createdAt).map
      ImprovementReview.id).Nodup := hs.reviews.sublist (List.filter_sublist.map _)
  have htriggers : ((w.triggers.filter fun g => inBounds (periodOf moment) g.receivedAt).map
      MonitorTrigger.id).Nodup := hk.triggers.sublist (List.filter_sublist.map _)
  have hruns : ((w.runs.filter fun r => r.finishedAt.any (inBounds (periodOf moment))).map
      RunRow.id).Nodup := (runs_nodup hk hs).sublist (List.filter_sublist.map _)
  have htasks := htasks.map (f := fun id => (UsageResource.task id, LedgerUnit.agentAdmission))
    fun _ _ h => UsageResource.task.inj (Prod.mk.inj h).1
  have hreviews := hreviews.map
    (f := fun id => (UsageResource.improvementReview id, LedgerUnit.agentAdmission))
    fun _ _ h => UsageResource.improvementReview.inj (Prod.mk.inj h).1
  have htriggers := htriggers.map
    (f := fun id => (UsageResource.monitorTrigger id, LedgerUnit.trigger))
    fun _ _ h => UsageResource.monitorTrigger.inj (Prod.mk.inj h).1
  rw [List.map_map] at htasks hreviews htriggers
  have hunits : ∀ r : RunRow, ((runUsageFacts hashing r).map fun receipt =>
      (UsageResource.run receipt.runId, LedgerUnit.run receipt.unit)).Nodup := by
    intro r
    have hnodup := runUsageFacts_units_nodup hashing r
    rw [List.Nodup, List.pairwise_map] at hnodup ⊢
    exact hnodup.imp fun hne h => hne (LedgerUnit.run.inj (Prod.mk.inj h).2)
  simp only [unsortedFacts, List.map_append, List.map_map, List.map_flatMap]
  refine List.Nodup.append (List.Nodup.append (List.Nodup.append htasks hreviews ?_) htriggers ?_)
    ?_ ?_
  · intro p hp hp'
    obtain ⟨t, -, rfl⟩ := List.mem_map.mp hp
    obtain ⟨v, -, hv⟩ := List.mem_map.mp hp'
    cases hv
  · intro p hp hp'
    obtain ⟨g, -, rfl⟩ := List.mem_map.mp hp'
    obtain hp | hp := List.mem_append.mp hp
    · obtain ⟨t, -, ht⟩ := List.mem_map.mp hp
      cases ht
    · obtain ⟨v, -, hv⟩ := List.mem_map.mp hp
      cases hv
  · rw [List.nodup_flatMap]
    refine ⟨fun r _ => hunits r, ?_⟩
    refine (List.pairwise_map.mp hruns).imp ?_
    intro r r' hne p hp hp'
    obtain ⟨receipt, hreceipt, rfl⟩ := List.mem_map.mp hp
    obtain ⟨receipt', hreceipt', hsame⟩ := List.mem_map.mp hp'
    obtain ⟨_, _, -, -, hr, -⟩ := mem_runUsageFacts hreceipt
    obtain ⟨_, _, -, -, hr', -⟩ := mem_runUsageFacts hreceipt'
    have hids : receipt'.runId = receipt.runId := UsageResource.run.inj (Prod.mk.inj hsame).1
    exact hne (hr.symm.trans (hids.symm.trans hr'))
  · intro p hp hp'
    obtain ⟨r, -, hp'⟩ := List.mem_flatMap.mp hp'
    obtain ⟨receipt, -, rfl⟩ := List.mem_map.mp hp'
    obtain hp | hp := List.mem_append.mp hp
    · obtain hp | hp := List.mem_append.mp hp
      · obtain ⟨t, -, ht⟩ := List.mem_map.mp hp
        cases ht
      · obtain ⟨v, -, hv⟩ := List.mem_map.mp hp
        cases hv
    · obtain ⟨g, -, hg⟩ := List.mem_map.mp hp
      cases hg

include hk hs hi in
/-- The entries of a closed month are charged as its facts are. -/
theorem Closed.perm (hclosed : w.Closed hashing (periodOf moment)) :
    ((UsageLedger.inPeriod w.ledger (periodOf moment)).map (·.charge)).Perm
      ((w.sourceFacts hashing (periodOf moment)).map UsageFact.charge) := by
  have hledger : ((UsageLedger.inPeriod w.ledger (periodOf moment)).map (·.charge)).Nodup := by
    have hnodup : (UsageLedger.inPeriod w.ledger (periodOf moment)).Nodup :=
      hk.ledger.of_map.filter _
    refine hnodup.map_on ?_
    intro e he e' he' hcharge
    rw [UsageFact.charge, UsageFact.charge, Prod.mk.injEq, Prod.mk.injEq] at hcharge
    exact hs.entry_inj hk hi (List.mem_filter.mp he).1 (List.mem_filter.mp he').1 hcharge.1
      hcharge.2.1
  have hfacts : ((w.sourceFacts hashing (periodOf moment)).map UsageFact.charge).Nodup := by
    have hperm : (w.sourceFacts hashing (periodOf moment)).Perm
        (w.unsortedFacts hashing (periodOf moment)) := List.perm_insertionSort _ _
    have hsubjects := ((hperm.map fun f => (f.resource, f.unit)).nodup_iff).mpr
      (subjects_nodup hk hs)
    rw [List.Nodup, List.pairwise_map] at hsubjects ⊢
    refine hsubjects.imp ?_
    intro f f' hne hcharge
    rw [UsageFact.charge, UsageFact.charge, Prod.mk.injEq, Prod.mk.injEq] at hcharge
    exact hne (by rw [hcharge.1, hcharge.2.1])
  rw [List.perm_ext_iff_of_nodup hledger hfacts]
  intro c
  constructor
  · intro hc
    obtain ⟨e, he, rfl⟩ := List.mem_map.mp hc
    obtain ⟨he, hperiod⟩ := List.mem_filter.mp he
    obtain ⟨f, t, hdates, hmonth, hcharge⟩ := hs.source e he
    rw [← hcharge]
    apply List.mem_map_of_mem
    exact mem_sourceFacts.mpr (mem_unsortedFacts.mpr ⟨t, hdates, hmonth.trans (by simpa using hperiod)⟩)
  · intro hc
    obtain ⟨f, hf, rfl⟩ := List.mem_map.mp hc
    obtain ⟨e, he, hperiod, hcharge, -⟩ := hclosed.entry hk hs hf
    rw [← hcharge]
    exact List.mem_map_of_mem (List.mem_filter.mpr ⟨he, by simpa using hperiod⟩)

include hk hs hi in
theorem Closed.total (hclosed : w.Closed hashing (periodOf moment)) (unit : LedgerUnit) :
    UsageLedger.total w.ledger unit (periodOf moment) =
      factTotal (w.sourceFacts hashing (periodOf moment)) unit := by
  rw [UsageLedger.total_eq, factTotal_eq]
  exact (((hclosed.perm hk hs hi).filter _).map _).sum_eq

include hk hs in
/-- A repair of a closed month appends nothing. -/
theorem Closed.repaired (hclosed : w.Closed hashing (periodOf moment)) :
    w.repaired hashing (periodOf moment) = w.ledger := by
  have hcharged : (w.sourceFacts hashing (periodOf moment)).filter
      (fun f => !w.isCharged (periodOf moment) f) = [] := by
    apply List.filter_eq_nil_iff.mpr
    intro f hf
    obtain ⟨e, he, hperiod, -, hcharges⟩ := hclosed.entry hk hs hf
    rw [isCharged_iff.mpr ⟨e, he, hperiod, hcharges⟩]
    exact Bool.false_ne_true
  rw [WorkspaceRows.repaired, hcharged]
  rfl

end WorkspaceRows

section Receipts

variable {hashing : Hashing} {w w' : WorkspaceRows} {period : Admission.Instant} {repair : Bool}
  {now : ℕ} {receipt : UsageReconciliation}

/-- A receipt reports the discrepancies between the facts and the totals that it records. -/
def UsageReconciliation.IsHonest (receipt : UsageReconciliation) : Prop :=
  ∃ ledger, receipt.ledgerTotals = LedgerUnit.all.map (fun unit =>
      (unit, UsageLedger.total ledger unit receipt.periodStart)) ∧
    receipt.discrepancies =
      CryptoAlert.discrepancies receipt.sourceFacts ledger receipt.periodStart

theorem discrepancies_eq_nil_iff {facts : List UsageFact} {ledger : List UsageLedgerEntry} :
    discrepancies facts ledger period = [] ↔
      ∀ unit, factTotal facts unit = UsageLedger.total ledger unit period := by
  simp only [discrepancies, List.map_eq_nil_iff, List.filter_eq_nil_iff, decide_eq_true_eq,
    not_not]
  exact ⟨fun h unit => h unit (LedgerUnit.mem_all unit), fun h unit _ => h unit⟩

/-- An honest receipt with the facts and the totals of a ledger reports its discrepancies. -/
theorem UsageReconciliation.IsHonest.of_totals (h : receipt.IsHonest)
    {ledger : List UsageLedgerEntry} (htotals : receipt.ledgerTotals = LedgerUnit.all.map
      fun unit => (unit, UsageLedger.total ledger unit receipt.periodStart)) :
    receipt.discrepancies =
      CryptoAlert.discrepancies receipt.sourceFacts ledger receipt.periodStart := by
  obtain ⟨ledger', htotals', hdiscrepancies⟩ := h
  have htotal : ∀ unit, UsageLedger.total ledger' unit receipt.periodStart =
      UsageLedger.total ledger unit receipt.periodStart := by
    intro unit
    rw [htotals', List.map_inj_left] at htotals
    exact (Prod.mk.inj (htotals unit (LedgerUnit.mem_all unit))).2
  rw [hdiscrepancies]
  simp only [CryptoAlert.discrepancies, htotal]

namespace WorkspaceRows

/-- What a reconciliation leaves: the ledger, repaired or not, and a receipt of its facts and
totals, which may be an old one. -/
theorem reconcile_spec (hhonest : ∀ r ∈ w.reconciliations, r.IsHonest)
    (h : w.reconcile hashing period repair now = some (w', receipt)) :
    w'.ledger = (if repair then w.repaired hashing period else w.ledger) ∧
      receipt ∈ w'.reconciliations ∧ receipt.periodStart = period ∧
      receipt.sourceFacts = w.sourceFacts hashing period ∧
      receipt.ledgerTotals = LedgerUnit.all.map
        (fun unit => (unit, UsageLedger.total w'.ledger unit period)) ∧
      ∀ r ∈ w'.reconciliations, r.IsHonest := by
  unfold reconcile at h
  obtain ⟨e, -, h⟩ := Option.bind_eq_some_iff.mp h
  dsimp only at h
  split at h
  · rename_i existing hfound
    cases h
    have hmatch := List.find?_some hfound
    simp only [Bool.and_eq_true, beq_iff_eq] at hmatch
    exact ⟨rfl, List.mem_of_find?_eq_some hfound, hmatch.1.1, hmatch.1.2, hmatch.2, hhonest⟩
  · cases h
    refine ⟨rfl, List.mem_append_right _ (List.mem_singleton_self _), rfl, rfl, rfl, ?_⟩
    intro r hr
    obtain hr | hr := List.mem_append.mp hr
    · exact hhonest r hr
    · rw [List.mem_singleton.mp hr]
      exact ⟨_, rfl, rfl⟩

/-- A reconciliation with the facts and the totals of an old receipt writes no other one. -/
theorem reconcile_again (hreceipt : receipt ∈ w.reconciliations)
    (hperiod : receipt.periodStart = period)
    (hfacts : receipt.sourceFacts = w.sourceFacts hashing period)
    (htotals : receipt.ledgerTotals = LedgerUnit.all.map
      fun unit => (unit, UsageLedger.total w.ledger unit period))
    (hledger : w.repaired hashing period = w.ledger) {receipt' : UsageReconciliation}
    (h : w.reconcile hashing period repair now = some (w', receipt')) : w' = w := by
  unfold reconcile at h
  obtain ⟨e, -, h⟩ := Option.bind_eq_some_iff.mp h
  dsimp only at h
  have hsame : (if repair then w.repaired hashing period else w.ledger) = w.ledger := by
    rw [hledger, ite_self]
  rw [hsame] at h
  split at h
  · cases h
    rfl
  · rename_i hnone
    have hno := List.find?_eq_none.mp hnone receipt hreceipt
    simp [hperiod, hfacts, htotals] at hno

end WorkspaceRows

end Receipts

namespace Workspace

variable {cfg : WorkspaceConfig} {w w₁ : Workspace} {label : WorkspaceLabel}

theorem reconcileStep_eq_some {moment now : ℕ} {repair : Bool}
    (h : w.step cfg (.reconcile moment now repair) = some w₁) :
    ∃ rows receipt, w.rows.reconcile cfg.dispatcher.hashing (periodOf moment) repair now =
      some (rows, receipt) ∧ w₁ = { w with rows } := by
  simp only [step, reconcileStep] at h
  split_ifs at h
  obtain ⟨⟨rows, receipt⟩, hrows, rfl⟩ := Option.map_eq_some_iff.mp h
  exact ⟨rows, receipt, hrows, rfl⟩

theorem honest_step (h : ∀ r ∈ w.rows.reconciliations, r.IsHonest)
    (hstep : w.step cfg label = some w₁) : ∀ r ∈ w₁.rows.reconciliations, r.IsHonest := by
  cases step_cases hstep with
  | reconcile moment now repair reconciliations free =>
      obtain ⟨rows, receipt, hrows, hw⟩ := reconcileStep_eq_some hstep
      have hreceipts : reconciliations = rows.reconciliations :=
        congrArg (fun w => w.rows.reconciliations) hw
      change ∀ r ∈ reconciliations, r.IsHonest
      rw [hreceipts]
      exact (WorkspaceRows.reconcile_spec h hrows).2.2.2.2.2
  | deliver r ids _ move => cases move <;> exact h
  | crashDelivery r _ crash =>
      rw [crash]
      exact h
  | _ => exact h

/-- A repair closes the ledger of its month, if every charge before it lies in the month of its
source and no run that was charged changes its month or its usage: the totals are those of the
sources, a reconciliation that follows reports no discrepancy, and it writes nothing. -/
theorem repair_closes {e : Option Entitlement} {monitors : List MonitorDefinition}
    {moment now : ℕ} (h : Reaches (step cfg) (ChargesItsMonth cfg) (init e monitors) w)
    (hrepair : w.step cfg (.reconcile moment now true) = some w₁) :
    (∀ unit, UsageLedger.total w₁.rows.ledger unit (periodOf moment) =
      factTotal (w₁.rows.sourceFacts cfg.dispatcher.hashing (periodOf moment)) unit) ∧
    (∀ repair now' rows receipt, w₁.rows.reconcile cfg.dispatcher.hashing (periodOf moment)
      repair now' = some (rows, receipt) → rows = w₁.rows ∧ receipt.discrepancies = []) ∧
    ∀ repair, w₁.step cfg (.reconcile moment now repair) = some w₁ := by
  have hinv : ∀ {w}, Reaches (step cfg) (ChargesItsMonth cfg) (init e monitors) w →
      w.Sound ∧ w.rows.Identified ∧ w.rows.Sourced cfg.dispatcher.hashing ∧
        ∀ r ∈ w.rows.reconciliations, r.IsHonest := by
    intro w h
    refine h.invariant (I := fun w => w.Sound ∧ w.rows.Identified ∧
      w.rows.Sourced cfg.dispatcher.hashing ∧ ∀ r ∈ w.rows.reconciliations, r.IsHonest) ?_
      ⟨sound_init e monitors, identified_init e monitors, sourced_init _ e monitors,
        fun _ h => absurd h List.not_mem_nil⟩
    rintro v l v' hok ⟨hsound, hidentified, hsourced, hhonest⟩ hstep
    exact ⟨hsound.step hstep, identified_step hidentified hsound hstep,
      sourced_step hsound hsourced hok hstep, honest_step hhonest hstep⟩
  obtain ⟨-, -, -, hhonest⟩ := hinv h
  obtain ⟨hsound₁, hidentified₁, hsourced₁, hhonest₁⟩ := hinv (h.tail (.reconcile moment now true) trivial hrepair)
  obtain ⟨rows, receipt, hrows, rfl⟩ := reconcileStep_eq_some hrepair
  obtain ⟨hledger, hmem, hperiod, hfacts, htotals, -⟩ :=
    WorkspaceRows.reconcile_spec hhonest hrows
  obtain ⟨reconciliations, hrec⟩ := reconcile_eq_some hrows
  have hclosed : rows.Closed cfg.dispatcher.hashing (periodOf moment) := by
    rw [hrec]
    exact WorkspaceRows.closed_repaired reconciliations
  have hsame : rows.sourceFacts cfg.dispatcher.hashing (periodOf moment) =
      w.rows.sourceFacts cfg.dispatcher.hashing (periodOf moment) := by
    rw [hrec]
    rfl
  have hkeyed := hsound₁.keyed.toKeyed
  have htotal := hclosed.total hkeyed hsourced₁ hidentified₁
  have hagain : ∀ repair now' rows' receipt', rows.reconcile cfg.dispatcher.hashing
      (periodOf moment) repair now' = some (rows', receipt') →
      rows' = rows ∧ receipt'.discrepancies = [] := by
    intro repair now' rows' receipt' hreconcile
    have hrows' : rows' = rows := WorkspaceRows.reconcile_again hmem hperiod
      (hfacts.trans hsame.symm) htotals (hclosed.repaired hkeyed hsourced₁) hreconcile
    obtain ⟨-, hmem', hperiod', hfacts', htotals', hhonest'⟩ :=
      WorkspaceRows.reconcile_spec hhonest₁ hreconcile
    rw [hrows'] at htotals'
    refine ⟨hrows', ?_⟩
    rw [← hperiod'] at htotals' htotal
    rw [(hhonest' receipt' hmem').of_totals htotals', discrepancies_eq_nil_iff]
    intro unit
    rw [hfacts', ← hperiod']
    exact (htotal unit).symm
  refine ⟨htotal, hagain, ?_⟩
  intro repair
  have hfree : w.holder = none := by
    simp only [step, reconcileStep] at hrepair
    split_ifs at hrepair with hheld
    simpa using hheld
  have husable : ∃ rows' receipt', rows.reconcile cfg.dispatcher.hashing (periodOf moment) repair
      now = some (rows', receipt') := by
    obtain ⟨entitlement, husable, -⟩ := Option.bind_eq_some_iff.mp hrows
    have husable : usableEntitlement rows.entitlement now = some entitlement := by
      rw [hrec]
      exact husable
    unfold WorkspaceRows.reconcile
    rw [husable]
    dsimp only [Option.bind_eq_bind, Option.bind_some]
    split
    · exact ⟨_, _, rfl⟩
    · exact ⟨_, _, rfl⟩
  obtain ⟨rows', receipt', hreconcile⟩ := husable
  obtain ⟨hrows', -⟩ := hagain repair now rows' receipt' hreconcile
  rw [step, reconcileStep, hfree, hreconcile, hrows']
  simp

/-- Decides `ChargesItsMonth`. -/
def chargesItsMonth (cfg : WorkspaceConfig) (w : Workspace) : WorkspaceLabel → Bool
  | .commit r ids =>
      match w.creates r with
      | .inserted _ period => period == periodOf ids.createdAt
      | _ => true
  | .requestReview _ _ now createdAt => periodOf now == periodOf createdAt
  | .task taskId l =>
      (w.rows.findTask taskId).all fun t =>
        (t.state.step cfg.dispatcher cfg.digests l).all fun state =>
          decide (t.state.KeepsCharges cfg.dispatcher.hashing state)
  | _ => true

theorem ChargesItsMonth.of_check (h : chargesItsMonth cfg w label) :
    w.ChargesItsMonth cfg label := by
  cases label with
  | commit r ids =>
      intro task period hinserted
      simpa [chargesItsMonth, hinserted] using h
  | requestReview reviewId candidateId now createdAt =>
      have hperiod : periodOf now = periodOf createdAt := by simpa [chargesItsMonth] using h
      exact hperiod
  | task taskId l =>
      intro t ht state hstate
      simpa [chargesItsMonth, ht, hstate] using h
  | _ => trivial

/-- Every create request asks for the same analysis. -/
noncomputable def analysisConfig : WorkspaceConfig :=
  { plainConfig with
    creates := fun r => ⟨⟨.marketAnalysis, AnalysisSubmission.modelDump
      ⟨.btcUsdtSwap, ⟨"4h", fourHours_fits⟩, "!", false⟩⟩, 1, toString r⟩ }

/-- A task that is created and fails, and then a repair of its month, with some usage of its run
to account for. -/
theorem repair_closes_failed : ∃ w w₁,
    Reaches (step analysisConfig) (ChargesItsMonth analysisConfig)
      (init (some plainEntitlement) [plainMonitor]) w ∧
    w.step analysisConfig (.reconcile 0 0 true) = some w₁ ∧ 2 ≤ w₁.rows.ledger.length ∧
    (∀ unit, UsageLedger.total w₁.rows.ledger unit (periodOf 0) =
      factTotal (w₁.rows.sourceFacts analysisConfig.dispatcher.hashing (periodOf 0)) unit) ∧
    (∀ repair now' rows receipt, w₁.rows.reconcile analysisConfig.dispatcher.hashing (periodOf 0)
      repair now' = some (rows, receipt) → rows = w₁.rows ∧ receipt.discrepancies = []) ∧
    ∀ repair, w₁.step analysisConfig (.reconcile 0 0 repair) = some w₁ := by
  have hany : (runChecked (step analysisConfig) (chargesItsMonth analysisConfig)
      (init (some plainEntitlement) [plainMonitor])
      (createRun ++ Restart.failedRun.map (.task 1))).any (fun w =>
        (w.step analysisConfig (.reconcile 0 0 true)).any fun w₁ =>
          2 ≤ w₁.rows.ledger.length) = true := by decide +kernel
  obtain ⟨w, hrun, hrepair⟩ := (Option.any_eq_true _ _).mp hany
  obtain ⟨w₁, hstep, hlength⟩ := (Option.any_eq_true _ _).mp hrepair
  have hreaches : Reaches (step analysisConfig) (ChargesItsMonth analysisConfig)
      (init (some plainEntitlement) [plainMonitor]) w :=
    reaches_of_runChecked _ (fun _ _ h => ChargesItsMonth.of_check h) hrun
  exact ⟨w, w₁, hreaches, hstep, by simpa using hlength, repair_closes hreaches hstep⟩

/-- A create request whose transaction begins in the last second of a month and is admitted in
the next one: its charge lies in the next month and its key is taken, so that no repair closes
the month of its task. -/
theorem repair_acrossMonths : ∃ w w₁ rows receipt,
    Reaches (step plainConfig) anyStep (init (some plainEntitlement) [plainMonitor]) w ∧
    w.step plainConfig (.reconcile 0 2678400000000 true) = some w₁ ∧
    w₁.rows.reconcile plainConfig.dispatcher.hashing (periodOf 0) false 2678400000000 =
      some (rows, receipt) ∧
    receipt.discrepancies = [(.agentAdmission, 1, 0)] := by
  have hany : (runLabels (step plainConfig) (init (some plainEntitlement) [plainMonitor])
      [.lookup 0, .lock 0 2678400000000, .countActive 0, .checkMonthly 0, .insert 0 1,
        .commit 0 ⟨0, 0, 2, "thread", 2678399000000⟩]).any (fun w =>
      (w.step plainConfig (.reconcile 0 2678400000000 true)).any fun w₁ =>
        (w₁.rows.reconcile plainConfig.dispatcher.hashing (periodOf 0) false 2678400000000).any
          fun p => p.2.discrepancies == [(.agentAdmission, 1, 0)]) = true := by decide +kernel
  obtain ⟨w, hrun, hrepair⟩ := (Option.any_eq_true _ _).mp hany
  obtain ⟨w₁, hstep, hreconcile⟩ := (Option.any_eq_true _ _).mp hrepair
  obtain ⟨⟨rows, receipt⟩, hagain, hdiscrepancies⟩ := (Option.any_eq_true _ _).mp hreconcile
  exact ⟨w, w₁, rows, receipt, reaches_of_runLabels _ hrun, hstep, hagain,
    by simpa using hdiscrepancies⟩

end Workspace

end CryptoAlert
