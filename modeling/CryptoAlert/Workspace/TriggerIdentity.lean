import CryptoAlert.Workspace.TriggerCharges

/-!
# One trigger for every identity

The unique indexes keep the triggers of a monitor apart, and every delivery is answered with the
trigger of its identity. A trigger has at most one task and one charge, and a suppressed one gets
its charge from a repair only.
-/

namespace CryptoAlert

namespace MonitorTrigger

/-- Two triggers that the unique indexes keep apart. -/
def SharesIdentity (g g' : MonitorTrigger) : Prop :=
  g.monitorId = g'.monitorId ∧
    ((g.officialRunId.isSome ∧ g.officialRunId = g'.officialRunId) ∨
      (g.manualStableKey.isSome ∧ g.manualStableKey = g'.manualStableKey))

/-- The trigger of a delivery, as its identity says. -/
def Answers (g : MonitorTrigger) (d : TriggerDelivery) : Prop :=
  g.monitorId = d.monitorId ∧ d.identity.isSome ∧
    (match d.kind with
      | .cron => g.officialRunId = d.identity
      | .manual => g.manualStableKey = d.identity)

/-- The key of the charge of a trigger. -/
def chargeKey (g : MonitorTrigger) : LedgerKey :=
  match g.status with
  | .admitted => .monitorTrigger g.monitorId g.kind (g.identity.getD "")
  | _ => .reconcileTrigger g.id

variable {g g' : MonitorTrigger} {triggers : List MonitorTrigger}

theorem not_sharesIdentity_of_mayJoin (h : g.mayJoin triggers) (hg' : g' ∈ triggers) :
    ¬ g'.SharesIdentity g ∧ ¬ g.SharesIdentity g' ∧ g'.id ≠ g.id := by
  simp only [mayJoin, Bool.and_eq_true, List.all_eq_true, Bool.or_eq_true, bne_iff_ne] at h
  obtain ⟨hid, hmonitor | ⟨hrun, hkey⟩⟩ := h.2 g' hg'
  · exact ⟨fun h => hmonitor h.1, fun h => hmonitor h.1.symm, hid⟩
  · refine ⟨?_, ?_, hid⟩
    · rintro ⟨-, ⟨hsome, heq⟩ | ⟨hsome, heq⟩⟩
      · rw [heq] at hsome
        obtain hnone | hne := hrun
        · simp_all
        · exact hne heq
      · rw [heq] at hsome
        obtain hnone | hne := hkey
        · simp_all
        · exact hne heq
    · rintro ⟨-, ⟨hsome, heq⟩ | ⟨hsome, heq⟩⟩
      · obtain hnone | hne := hrun
        · simp_all
        · exact hne heq.symm
      · obtain hnone | hne := hkey
        · simp_all
        · exact hne heq.symm

/-- Two triggers that answer deliveries of one identity share it. -/
theorem Answers.sharesIdentity {d d' : TriggerDelivery} (h : g.Answers d) (h' : g'.Answers d')
    (hmonitor : d.monitorId = d'.monitorId) (hkind : d.kind = d'.kind)
    (hidentity : d.identity = d'.identity) : g.SharesIdentity g' := by
  obtain ⟨hm, hsome, hmatch⟩ := h
  obtain ⟨hm', hsome', hmatch'⟩ := h'
  refine ⟨hm.trans (hmonitor.trans hm'.symm), ?_⟩
  cases hd : d.kind with
  | cron =>
      rw [hd] at hmatch hkind
      rw [← hkind] at hmatch'
      exact .inl ⟨by rw [hmatch]; exact hsome, hmatch.trans (hidentity.trans hmatch'.symm)⟩
  | manual =>
      rw [hd] at hmatch hkind
      rw [← hkind] at hmatch'
      exact .inr ⟨by rw [hmatch]; exact hsome, hmatch.trans (hidentity.trans hmatch'.symm)⟩

end MonitorTrigger

/-- An entry is the charge of a trigger. -/
def UsageLedgerEntry.Charges (entry : UsageLedgerEntry) (triggerId : ℕ) : Prop :=
  entry.resource = .monitorTrigger triggerId ∨ entry.triggerId = some triggerId

instance (entry : UsageLedgerEntry) (triggerId : ℕ) : Decidable (entry.Charges triggerId) :=
  inferInstanceAs (Decidable (_ ∨ _))

namespace WorkspaceRows

/-- What the triggers have to do with the tasks and the ledger. -/
structure Identified (w : WorkspaceRows) : Prop where
  apart : ∀ g ∈ w.triggers, ∀ g' ∈ w.triggers, g.SharesIdentity g' → g = g'
  task : ∀ t ∈ w.tasks, ∀ id, t.triggerId = some id →
    ∃ g ∈ w.triggers, g.id = id ∧ g.status = .admitted ∧ g.taskId = some t.id
  submits : ∀ t ∈ w.tasks, t.state.store.commandTypes.count .submit = 1
  charge : ∀ entry ∈ w.ledger, ∀ id, entry.Charges id →
    ∃ g ∈ w.triggers, g.id = id ∧ entry.key = g.chargeKey
  entry : ∀ g ∈ w.triggers, g.status = .admitted → ∃ entry ∈ w.ledger,
    entry.triggerId = some g.id ∧ entry.periodStart = periodOf g.receivedAt

variable {w w' : WorkspaceRows} {g : MonitorTrigger}

theorem apart_append (h : w.Identified) (hjoins : g.mayJoin w.triggers) :
    ∀ g₁ ∈ w.triggers ++ [g], ∀ g₂ ∈ w.triggers ++ [g], g₁.SharesIdentity g₂ → g₁ = g₂ := by
  intro g₁ hg₁ g₂ hg₂ hshares
  obtain hg₁ | hg₁ := List.mem_append.mp hg₁
  · obtain hg₂ | hg₂ := List.mem_append.mp hg₂
    · exact h.apart g₁ hg₁ g₂ hg₂ hshares
    · rw [List.mem_singleton.mp hg₂] at hshares
      exact absurd hshares (MonitorTrigger.not_sharesIdentity_of_mayJoin hjoins hg₁).1
  · obtain hg₂ | hg₂ := List.mem_append.mp hg₂
    · rw [List.mem_singleton.mp hg₁] at hshares
      exact absurd hshares (MonitorTrigger.not_sharesIdentity_of_mayJoin hjoins hg₂).2.1
    · rw [List.mem_singleton.mp hg₁, List.mem_singleton.mp hg₂]

/-- Tasks that keep their triggers, and entries that keep to the keys of the charges. -/
theorem Identified.appendAll {α : Type*} {f : α → UsageLedgerEntry} {l : List α}
    (h : w.Identified) (hl : ∀ a ∈ l, ∀ id, (f a).Charges id →
      ∃ g ∈ w.triggers, g.id = id ∧ (f a).key = g.chargeKey)
    (htriggers : w'.triggers = w.triggers)
    (htasks : ∀ t ∈ w'.tasks, t.state.store.commandTypes.count .submit = 1 ∧
      ∀ id, t.triggerId = some id → ∃ t' ∈ w.tasks, t'.triggerId = some id ∧ t'.id = t.id)
    (hledger : w'.ledger = UsageLedger.appendAll f w.ledger l) : w'.Identified := by
  refine ⟨by rw [htriggers]; exact h.apart, ?_, fun t ht => (htasks t ht).1, ?_, ?_⟩
  · intro t ht id hid
    obtain ⟨t', ht', hid', hsame⟩ := (htasks t ht).2 id hid
    rw [htriggers, ← hsame]
    exact h.task t' ht' id hid'
  · rw [htriggers, hledger]
    intro entry hentry id hid
    obtain hentry | ⟨a, ha, rfl⟩ := UsageLedger.mem_of_mem_appendAll hentry
    · exact h.charge entry hentry id hid
    · exact hl a ha id hid
  · rw [htriggers, hledger]
    intro g hg hadmitted
    obtain ⟨entry, hentry, hcharge⟩ := h.entry g hg hadmitted
    exact ⟨entry, UsageLedger.mem_appendAll_of_mem hentry, hcharge⟩

theorem Identified.same_tasks (h : w.Identified) : ∀ t ∈ w.tasks,
    t.state.store.commandTypes.count .submit = 1 ∧ ∀ id, t.triggerId = some id →
      ∃ t' ∈ w.tasks, t'.triggerId = some id ∧ t'.id = t.id :=
  fun t ht => ⟨h.submits t ht, fun _ hid => ⟨t, ht, hid, rfl⟩⟩

theorem Identified.congr (h : w.Identified) (htriggers : w'.triggers = w.triggers)
    (htasks : w'.tasks = w.tasks) (hledger : w'.ledger = w.ledger) : w'.Identified :=
  h.appendAll (f := id) (l := []) (fun _ h => absurd h List.not_mem_nil) htriggers
    (by rw [htasks]; exact h.same_tasks) hledger

/-- An entry for anything but a trigger. -/
theorem Identified.append (h : w.Identified) {entry : UsageLedgerEntry}
    (hresource : ∀ id, entry.resource ≠ .monitorTrigger id) (hnone : entry.triggerId = none)
    (htriggers : w'.triggers = w.triggers)
    (htasks : ∀ t ∈ w'.tasks, t.state.store.commandTypes.count .submit = 1 ∧
      ∀ id, t.triggerId = some id → ∃ t' ∈ w.tasks, t'.triggerId = some id ∧ t'.id = t.id)
    (hledger : w'.ledger = UsageLedger.append w.ledger entry) : w'.Identified := by
  refine h.appendAll (f := id) (l := [entry]) ?_ htriggers htasks hledger
  rintro a ha id (hid | hid)
  · rw [List.mem_singleton.mp ha] at hid
    exact absurd hid (hresource id)
  · rw [List.mem_singleton.mp ha] at hid
    change entry.triggerId = some id at hid
    rw [hnone] at hid
    cases hid

end WorkspaceRows

namespace Workspace

variable {cfg : WorkspaceConfig} {w w' : Workspace} {label : WorkspaceLabel} {r : ℕ}

theorem triggerRow_identity (d : TriggerDelivery) (m : MonitorDefinition) (id : ℕ) :
    (triggerRow d m id).identity = d.identity := by
  cases d with
  | trigger d => rfl
  | revoked d => rfl

/-- A trigger that passes the checks of its table answers its delivery. -/
theorem answers_of_mayJoin {d : TriggerDelivery} {m : MonitorDefinition} {g : MonitorTrigger}
    {triggers : List MonitorTrigger} (hmonitor : m.id = d.monitorId)
    (hid : g.monitorId = m.id) (hkind : g.kind = d.kind) (hidentity : g.identity = d.identity)
    (hjoins : g.mayJoin triggers) : g.Answers d := by
  simp only [MonitorTrigger.mayJoin, Bool.and_eq_true] at hjoins
  have hform := hjoins.1.1
  unfold MonitorTrigger.hasIdentityByKind at hform
  unfold MonitorTrigger.identity at hidentity
  refine ⟨hid.trans hmonitor, ?_⟩
  rw [← hkind, ← hidentity]
  cases hcase : g.kind with
  | cron =>
      rw [hcase, Bool.and_eq_true] at hform
      exact ⟨hform.1, rfl⟩
  | manual =>
      rw [hcase, Bool.and_eq_true] at hform
      exact ⟨hform.1, rfl⟩

theorem identified_suppressed (h : w.rows.Identified) {g : MonitorTrigger}
    (hjoins : g.mayJoin w.rows.triggers) (hsuppressed : g.status = .suppressed) :
    { w.rows with triggers := w.rows.triggers ++ [g] }.Identified := by
  refine ⟨WorkspaceRows.apart_append h hjoins, ?_, h.submits, ?_, ?_⟩
  · intro t ht id hid
    obtain ⟨g', hg', hcharge⟩ := h.task t ht id hid
    exact ⟨g', List.mem_append_left _ hg', hcharge⟩
  · intro entry hentry id hid
    obtain ⟨g', hg', hcharge⟩ := h.charge entry hentry id hid
    exact ⟨g', List.mem_append_left _ hg', hcharge⟩
  · intro g' hg' hadmitted
    obtain hg' | hg' := List.mem_append.mp hg'
    · exact h.entry g' hg' hadmitted
    · rw [List.mem_singleton.mp hg', hsuppressed] at hadmitted
      cases hadmitted

theorem count_submit_admitted (taskId commandId : ℕ) (threadId : String) (admission : Admission)
    (payloadHash : String) : (TaskState.admitted taskId commandId threadId admission
      payloadHash).store.commandTypes.count .submit = 1 := rfl

theorem identified_deliver (h : w.rows.Identified) (hmove : DeliveryMove cfg w r w') :
    w'.rows.Identified := by
  cases hmove with
  | leave => exact h
  | lock => exact h
  | absent => exact h
  | entitled => exact h
  | counted => exact h
  | suppressed m version reason ids suppressing joins => exact identified_suppressed h joins rfl
  | admitted m e identity ids admitting identified joins fresh uncharged =>
      refine ⟨WorkspaceRows.apart_append h joins, ?_, ?_, ?_, ?_⟩
      · intro t ht id hid
        obtain ht | ht := List.mem_append.mp ht
        · obtain ⟨g, hg, hcharge⟩ := h.task t ht id hid
          exact ⟨g, List.mem_append_left _ hg, hcharge⟩
        · rw [List.mem_singleton.mp ht] at hid ⊢
          cases hid
          exact ⟨_, List.mem_append_right _ (List.mem_singleton_self _), rfl, rfl, rfl⟩
      · intro t ht
        obtain ht | ht := List.mem_append.mp ht
        · exact h.submits t ht
        · rw [List.mem_singleton.mp ht]
          exact count_submit_admitted _ _ _ _ _
      · intro entry hentry id hid
        obtain hentry | hentry := List.mem_append.mp hentry
        · obtain ⟨g, hg, hcharge⟩ := h.charge entry hentry id hid
          exact ⟨g, List.mem_append_left _ hg, hcharge⟩
        · rw [List.mem_singleton.mp hentry] at hid ⊢
          refine ⟨_, List.mem_append_right _ (List.mem_singleton_self _), ?_, ?_⟩
          · obtain hid | hid := hid <;> cases hid <;> rfl
          · have hidentity : (admittedTrigger (cfg.deliveries r) m ids).identity =
                some identity := (triggerRow_identity _ m ids.triggerId).trans identified
            rw [MonitorTrigger.chargeKey, hidentity]
            rfl
      · intro g hg hadmitted
        obtain hg | hg := List.mem_append.mp hg
        · obtain ⟨entry, hentry, hcharge⟩ := h.entry g hg hadmitted
          exact ⟨entry, List.mem_append_left _ hentry, hcharge⟩
        · rw [List.mem_singleton.mp hg]
          exact ⟨_, List.mem_append_right _ (List.mem_singleton_self _), rfl, rfl⟩

theorem identified_repaired (h : w.rows.Identified) {hashing : Hashing} {moment : ℕ}
    {rows : WorkspaceRows} (htriggers : rows.triggers = w.rows.triggers)
    (htasks : rows.tasks = w.rows.tasks)
    (hledger : rows.ledger = w.rows.repaired hashing (periodOf moment)) : rows.Identified := by
  refine h.appendAll ?_ htriggers (by rw [htasks]; exact h.same_tasks) hledger
  intro f hf id hid
  obtain ⟨hsource, hfree⟩ := List.mem_filter.mp hf
  obtain hid | hid := hid
  · obtain ⟨g, hg, hperiod, rfl⟩ :=
      WorkspaceRows.mem_sourceFacts_trigger hsource (.inr ⟨id, hid⟩)
    cases hid
    refine ⟨g, hg, rfl, ?_⟩
    have hsuppressed : g.status ≠ .admitted := by
      intro hadmitted
      obtain ⟨entry, hentry, hcharge, hstart⟩ := h.entry g hg hadmitted
      rw [WorkspaceRows.isCharged_trigger hentry hcharge (hstart.trans hperiod)] at hfree
      cases hfree
    unfold MonitorTrigger.chargeKey
    split
    · contradiction
    · rfl
  · cases hid

theorem identified_step (h : w.rows.Identified) (hs : w.Sound)
    (hstep : w.step cfg label = some w') : w'.rows.Identified := by
  cases step_cases hstep with
  | create _ l r a request free statement => exact h
  | commit r ids task period a inserted statement =>
      refine h.append (by rintro _ ⟨⟩) rfl rfl ?_ rfl
      intro t ht
      obtain ht | ht := List.mem_append.mp ht
      · exact h.same_tasks t ht
      · rw [List.mem_singleton.mp ht]
        exact ⟨count_submit_admitted _ _ _ _ _, by rintro _ ⟨⟩⟩
  | deliver r ids _ move => exact identified_deliver h move
  | crashDelivery r _ crash =>
      rw [crash]
      exact h
  | task t state l found stepped apart =>
      obtain ⟨hmem, -⟩ := Table.find_eq_some found
      have hsound := hs.keyed.sound t hmem
      have hid : WorkspaceTask.id { t with state } = t.id := TaskState.task_id_step hsound stepped
      refine h.appendAll ?_ rfl ?_ rfl
      · rintro receipt - id (hid | hid) <;> cases hid
      · apply Table.forall_put h.same_tasks
        refine ⟨(TaskState.count_submit_step hsound stepped).trans (h.submits t hmem), ?_⟩
        intro id htrigger
        exact ⟨t, hmem, htrigger, hid.symm⟩
  | requestReview reviewId candidateId now createdAt idle fresh =>
      exact h.append (by rintro _ ⟨⟩) rfl rfl h.same_tasks rfl
  | decideReview reviewId => exact h.congr rfl rfl rfl
  | addMonitor m absent => exact h.congr rfl rfl rfl
  | putMonitor m old found free owner => exact h.congr rfl rfl rfl
  | setEntitlement e free => exact h.congr rfl rfl rfl
  | reconcile moment now repair reconciliations free =>
      cases repair with
      | false => exact h.congr rfl rfl rfl
      | true => exact identified_repaired h rfl rfl rfl

theorem identified_init (e : Option Entitlement) (monitors : List MonitorDefinition) :
    (init e monitors).rows.Identified :=
  ⟨fun _ h => absurd h List.not_mem_nil, fun _ h => absurd h List.not_mem_nil,
    fun _ h => absurd h List.not_mem_nil, fun _ h => absurd h List.not_mem_nil,
    fun _ h => absurd h List.not_mem_nil⟩

/-- Every delivery is answered with the trigger of its identity, which only one delivery has
inserted. -/
structure Answered (cfg : WorkspaceConfig) (w : Workspace) : Prop where
  named : ∀ r m, (w.deliveries r).monitor = some m → m.id = (cfg.deliveries r).monitorId
  receipt : ∀ r id created, w.deliveries r = .done (.receipt id created) →
    ∃ g ∈ w.rows.triggers, g.id = id ∧ g.Answers (cfg.deliveries r)
  created : ∀ r r' id, w.deliveries r = .done (.receipt id true) →
    w.deliveries r' = .done (.receipt id true) → r = r'

theorem answered_init (e : Option Entitlement) (monitors : List MonitorDefinition) :
    (init e monitors).Answered cfg := by
  refine ⟨?_, ?_, ?_⟩
  · intro r m h
    cases h
  · intro r id created h
    cases h
  · intro r r' id h
    cases h

theorem findExistingTrigger_answers {triggers : List MonitorTrigger} {m : MonitorDefinition}
    {d : TriggerDelivery} {g : MonitorTrigger} (hmonitor : m.id = d.monitorId)
    (h : findExistingTrigger triggers m d.kind d.identity = some g) :
    g ∈ triggers ∧ g.Answers d := by
  have hfound := List.find?_some h
  simp only [Bool.and_eq_true, beq_iff_eq] at hfound
  obtain ⟨⟨⟨-, hid⟩, hsome⟩, hmatch⟩ := hfound
  refine ⟨List.mem_of_find?_eq_some h, hid.trans hmonitor, hsome, ?_⟩
  cases hkind : d.kind <;> rw [hkind] at hmatch <;> simpa using hmatch

/-- A delivery moves on, and triggers may be added with it. -/
theorem Answered.update (h : w.Answered cfg) {p : DeliveryPhase}
    (htriggers : ∀ g ∈ w.rows.triggers, g ∈ w'.rows.triggers)
    (hdeliveries : w'.deliveries = Function.update w.deliveries r p)
    (hnamed : ∀ m, p.monitor = some m → m.id = (cfg.deliveries r).monitorId)
    (hreceipt : ∀ id created, p = .done (.receipt id created) →
      ∃ g ∈ w'.rows.triggers, g.id = id ∧ g.Answers (cfg.deliveries r))
    (hcreated : ∀ id, p = .done (.receipt id true) → ∀ g ∈ w.rows.triggers, g.id ≠ id) :
    w'.Answered cfg := by
  have hphase : ∀ r', w'.deliveries r' = if r' = r then p else w.deliveries r' := by
    intro r'
    rw [hdeliveries, Function.update_apply]
  have hold : ∀ r' id, p = .done (.receipt id true) →
      w.deliveries r' ≠ .done (.receipt id true) := by
    intro r' id hp hr'
    obtain ⟨g, hg, hid, -⟩ := h.receipt r' id true hr'
    exact hcreated id hp g hg hid
  refine ⟨?_, ?_, ?_⟩
  · intro r' m hmonitor
    rw [hphase] at hmonitor
    split_ifs at hmonitor with hr
    · rw [hr]
      exact hnamed m hmonitor
    · exact h.named r' m hmonitor
  · intro r' id created hdone
    rw [hphase] at hdone
    split_ifs at hdone with hr
    · rw [hr]
      exact hreceipt id created hdone
    · obtain ⟨g, hg, hanswers⟩ := h.receipt r' id created hdone
      exact ⟨g, htriggers g hg, hanswers⟩
  · intro r₁ r₂ id h₁ h₂
    rw [hphase] at h₁ h₂
    split_ifs at h₁ h₂ with hr₁ hr₂ hr₂
    · exact hr₁.trans hr₂.symm
    · exact absurd h₂ (hold r₂ id h₁)
    · exact absurd h₁ (hold r₁ id h₂)
    · exact h.created r₁ r₂ id h₁ h₂

/-- A delivery that goes on with the monitor it holds. -/
theorem Answered.go (h : w.Answered cfg) {p : DeliveryPhase} {m : MonitorDefinition}
    (htriggers : w'.rows.triggers = w.rows.triggers)
    (hdeliveries : w'.deliveries = Function.update w.deliveries r p)
    (hp : p.monitor = some m) (hm : m.id = (cfg.deliveries r).monitorId) : w'.Answered cfg := by
  have hdone : ∀ o, p ≠ .done o := by
    rintro o rfl
    cases hp
  refine h.update (by rw [htriggers]; exact fun _ h => h) hdeliveries ?_
    (fun id created heq => absurd heq (hdone _)) (fun id heq => absurd heq (hdone _))
  intro m' hm'
  rw [hp, Option.some.injEq] at hm'
  rw [← hm']
  exact hm

/-- A delivery that inserts its trigger. -/
theorem Answered.insert (h : w.Answered cfg) {g : MonitorTrigger}
    (htriggers : w'.rows.triggers = w.rows.triggers ++ [g])
    (hdeliveries : w'.deliveries = Function.update w.deliveries r (.done (.receipt g.id true)))
    (hjoins : g.mayJoin w.rows.triggers) (hanswers : g.Answers (cfg.deliveries r)) :
    w'.Answered cfg := by
  refine h.update ?_ hdeliveries (by rintro m ⟨⟩) ?_ ?_
  · rw [htriggers]
    exact fun g' hg' => List.mem_append_left _ hg'
  · intro id created heq
    cases heq
    rw [htriggers]
    exact ⟨g, List.mem_append_right _ (List.mem_singleton_self _), rfl, hanswers⟩
  · intro id heq g' hg'
    cases heq
    exact (MonitorTrigger.not_sharesIdentity_of_mayJoin hjoins hg').2.2

theorem answered_deliver (h : w.Answered cfg) (hmove : DeliveryMove cfg w r w') :
    w'.Answered cfg := by
  have hnamed : ∀ {m : MonitorDefinition} {p : DeliveryPhase}, w.deliveries r = p →
      p.monitor = some m → m.id = (cfg.deliveries r).monitorId := by
    intro m p hphase hp
    exact h.named r m (by rw [hphase]; exact hp)
  cases hmove with
  | leave p ended receipt old =>
      refine h.update (fun _ h => h) rfl ?_ ?_ ?_
      · intro m hm
        cases p <;> first | exact ended.elim | cases hm
      · intro id created heq
        cases created with
        | true => exact absurd heq (old id)
        | false =>
            obtain ⟨m, hlocked, g, hfind, hid⟩ := receipt id heq
            obtain ⟨hg, hanswers⟩ := findExistingTrigger_answers (hnamed hlocked rfl) hfind
            exact ⟨g, hg, hid, hanswers⟩
      · intro id heq
        exact absurd heq (old id)
  | lock m start found named free => exact h.go (p := .locked m) rfl rfl rfl named
  | absent m p locked absent next =>
      obtain rfl | ⟨version, reason, rfl⟩ := next
      · exact h.go (p := .unseen m) rfl rfl rfl (hnamed locked rfl)
      · exact h.go (p := .suppressing m version reason) rfl rfl rfl (hnamed locked rfl)
  | entitled m p unseen free next =>
      obtain ⟨e, -, rfl⟩ | ⟨version, reason, rfl⟩ := next
      · exact h.go (p := .counting m e .monitors none) rfl rfl rfl (hnamed unseen rfl)
      · exact h.go (p := .suppressing m version reason) rfl rfl rfl (hnamed unseen rfl)
  | counted m e next reason p counting hnext =>
      obtain ⟨following, -, rfl⟩ | ⟨-, -, rfl⟩ | ⟨version, text, rfl⟩ := hnext
      · exact h.go (m := m) rfl rfl rfl (hnamed counting rfl)
      · exact h.go (m := m) rfl rfl rfl (hnamed counting rfl)
      · exact h.go (m := m) rfl rfl rfl (hnamed counting rfl)
  | suppressed m version reason ids suppressing joins =>
      exact h.insert rfl rfl joins (answers_of_mayJoin (hnamed suppressing rfl) rfl rfl
        (triggerRow_identity _ m ids.triggerId) joins)
  | admitted m e identity ids admitting identified joins fresh uncharged =>
      exact h.insert rfl rfl joins (answers_of_mayJoin (hnamed admitting rfl) rfl rfl
        (triggerRow_identity _ m ids.triggerId) joins)

theorem answered_step (h : w.Answered cfg) (hstep : w.step cfg label = some w') :
    w'.Answered cfg := by
  cases step_cases hstep with
  | deliver r ids _ move => exact answered_deliver h move
  | crashDelivery r _ crash =>
      rw [crash]
      refine h.update (fun _ h => h) rfl ?_ ?_ ?_
      · rintro m ⟨⟩
      · rintro id created ⟨⟩
      · rintro id ⟨⟩
  | _ => exact ⟨h.named, h.receipt, h.created⟩

end Workspace

end CryptoAlert
