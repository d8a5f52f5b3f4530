import CryptoAlert.Workspace.Keys

/-!
# What the triggers of a workspace are charged

An admitted trigger is charged with its admission, and a repair leaves it out because its charge
names it. A suppressed trigger has no charge, so a repair of its month charges it.
-/

namespace CryptoAlert

theorem inBounds_periodOf {moment t : ℕ} :
    inBounds (periodOf moment) t = true ↔ periodOf t = periodOf moment := by
  rw [inBounds, Bool.and_eq_true, decide_eq_true_iff, decide_eq_true_iff]
  exact periodOf_eq_iff_bounds.symm

namespace WorkspaceRows

variable {hashing : Hashing} {w : WorkspaceRows} {moment : ℕ} {f : UsageFact}
  {entry : UsageLedgerEntry}

/-- The triggers of a month that were admitted. -/
def admittedTriggers (w : WorkspaceRows) (period : Admission.Instant) : ℕ :=
  (w.triggers.filter fun g => g.status = .admitted ∧ periodOf g.receivedAt = period).length

theorem admittedTriggers_append (w : WorkspaceRows) (g : MonitorTrigger)
    (period : Admission.Instant) :
    { w with triggers := w.triggers ++ [g] }.admittedTriggers period =
      w.admittedTriggers period +
        if g.status = .admitted ∧ periodOf g.receivedAt = period then 1 else 0 := by
  simp only [admittedTriggers, List.filter_append, List.length_append, List.filter_singleton]
  by_cases h : g.status = .admitted ∧ periodOf g.receivedAt = period <;> simp [h]

theorem mem_sourceFacts {period : Admission.Instant} :
    f ∈ w.sourceFacts hashing period ↔ f ∈ w.unsortedFacts hashing period :=
  List.mem_insertionSort _

/-- The facts of a month about triggers. -/
theorem mem_sourceFacts_trigger (h : f ∈ w.sourceFacts hashing (periodOf moment))
    (hunit : f.unit = .trigger ∨ ∃ id, f.resource = .monitorTrigger id) :
    ∃ g ∈ w.triggers, periodOf g.receivedAt = periodOf moment ∧ f = triggerFact hashing g := by
  rw [mem_sourceFacts] at h
  simp only [unsortedFacts, List.mem_append, List.mem_map, List.mem_filter, List.mem_flatMap] at h
  obtain ((⟨t, -, rfl⟩ | ⟨v, -, rfl⟩) | ⟨g, ⟨hg, hin⟩, rfl⟩) | ⟨run, -, receipt, -, rfl⟩ := h
  · obtain hunit | ⟨id, hid⟩ := hunit
    · cases hunit
    · cases hid
  · obtain hunit | ⟨id, hid⟩ := hunit
    · cases hunit
    · cases hid
  · exact ⟨g, hg, inBounds_periodOf.mp hin, rfl⟩
  · obtain hunit | ⟨id, hid⟩ := hunit
    · cases hunit
    · cases hid

/-- A trigger is charged in a month by an entry that names it. -/
theorem isCharged_trigger {g : MonitorTrigger} {period : Admission.Instant}
    (hentry : entry ∈ w.ledger) (hcharge : entry.triggerId = some g.id)
    (hperiod : entry.periodStart = period) :
    w.isCharged period (triggerFact hashing g) = true := by
  apply List.any_eq_true.mpr
  refine ⟨entry, List.mem_filter.mpr ⟨hentry, by simpa using hperiod⟩, ?_⟩
  simp [triggerFact, hcharge]

end WorkspaceRows

namespace Workspace

variable {cfg : WorkspaceConfig} {w w' : Workspace} {label : WorkspaceLabel}

/-- The charges of the triggers: every admitted one is charged in its month, and no other. -/
structure Charged (w : Workspace) : Prop where
  entry : ∀ g ∈ w.rows.triggers, g.status = .admitted → ∃ entry ∈ w.rows.ledger,
    entry.triggerId = some g.id ∧ entry.periodStart = periodOf g.receivedAt
  trigger : ∀ entry ∈ w.rows.ledger, ∀ id,
    entry.resource = .monitorTrigger id ∨ entry.triggerId = some id →
    ∃ g ∈ w.rows.triggers, g.id = id ∧ g.status = .admitted
  total : ∀ period, UsageLedger.total w.rows.ledger .trigger period =
    w.rows.admittedTriggers period

/-- A repair is of a month without suppressed triggers. -/
def RepairsAdmitted (w : Workspace) : WorkspaceLabel → Prop
  | .reconcile moment _ true => ∀ g ∈ w.rows.triggers, g.status ≠ .admitted →
      periodOf g.receivedAt ≠ periodOf moment
  | _ => True

/-- Entries for anything but triggers leave the charges of the triggers alone. -/
theorem Charged.appendAll {α : Type*} {f : α → UsageLedgerEntry} {l : List α}
    (h : w.Charged) (hl : ∀ a ∈ l, (f a).unit ≠ .trigger ∧
      (∀ id, (f a).resource ≠ .monitorTrigger id) ∧ (f a).triggerId = none)
    (htriggers : w'.rows.triggers = w.rows.triggers)
    (hledger : w'.rows.ledger = UsageLedger.appendAll f w.rows.ledger l) : w'.Charged := by
  refine ⟨?_, ?_, ?_⟩
  · rw [htriggers, hledger]
    intro g hg hadmitted
    obtain ⟨entry, hentry, hcharge⟩ := h.entry g hg hadmitted
    exact ⟨entry, UsageLedger.mem_appendAll_of_mem hentry, hcharge⟩
  · rw [htriggers, hledger]
    intro entry hentry id hid
    obtain hentry | ⟨a, ha, rfl⟩ := UsageLedger.mem_of_mem_appendAll hentry
    · exact h.trigger entry hentry id hid
    · obtain ⟨-, hresource, hnone⟩ := hl a ha
      obtain hid | hid := hid
      · exact absurd hid (hresource id)
      · rw [hnone] at hid
        cases hid
  · intro period
    rw [hledger, UsageLedger.total_appendAll_other fun a ha => (hl a ha).1, h.total]
    rw [WorkspaceRows.admittedTriggers, WorkspaceRows.admittedTriggers, htriggers]

theorem Charged.congr (h : w.Charged) (htriggers : w'.rows.triggers = w.rows.triggers)
    (hledger : w'.rows.ledger = w.rows.ledger) : w'.Charged :=
  h.appendAll (f := id) (l := []) nofun htriggers hledger

theorem Charged.append (h : w.Charged) {entry : UsageLedgerEntry} (hunit : entry.unit ≠ .trigger)
    (hresource : ∀ id, entry.resource ≠ .monitorTrigger id) (hnone : entry.triggerId = none)
    (htriggers : w'.rows.triggers = w.rows.triggers)
    (hledger : w'.rows.ledger = UsageLedger.append w.rows.ledger entry) : w'.Charged := by
  refine h.appendAll (f := id) (l := [entry]) ?_ htriggers hledger
  intro a ha
  rw [List.mem_singleton.mp ha]
  exact ⟨hunit, hresource, hnone⟩

theorem charged_deliver (h : w.Charged) {r : ℕ} (hmove : DeliveryMove cfg w r w') :
    w'.Charged := by
  cases hmove with
  | leave => exact h.congr rfl rfl
  | lock => exact h.congr rfl rfl
  | absent => exact h.congr rfl rfl
  | entitled => exact h.congr rfl rfl
  | counted => exact h.congr rfl rfl
  | suppressed m version reason ids suppressing joins =>
      refine ⟨?_, ?_, ?_⟩
      · intro g hg hadmitted
        obtain hg | hg := List.mem_append.mp hg
        · exact h.entry g hg hadmitted
        · rw [List.mem_singleton.mp hg] at hadmitted
          cases hadmitted
      · intro entry hentry id hid
        obtain ⟨g, hg, hcharge⟩ := h.trigger entry hentry id hid
        exact ⟨g, List.mem_append_left _ hg, hcharge⟩
      · intro period
        have happend := w.rows.admittedTriggers_append
          (suppressedTrigger (cfg.deliveries r) m ids.triggerId version reason) period
        rw [if_neg (by rintro ⟨⟨⟩⟩)] at happend
        exact (h.total period).trans happend.symm
  | admitted m e identity ids admitting identified joins fresh uncharged =>
      refine ⟨?_, ?_, ?_⟩
      · intro g hg hadmitted
        obtain hg | hg := List.mem_append.mp hg
        · obtain ⟨entry, hentry, hcharge⟩ := h.entry g hg hadmitted
          exact ⟨entry, List.mem_append_left _ hentry, hcharge⟩
        · rw [List.mem_singleton.mp hg]
          exact ⟨_, List.mem_append_right _ (List.mem_singleton_self _), rfl, rfl⟩
      · intro entry hentry id hid
        obtain hentry | hentry := List.mem_append.mp hentry
        · obtain ⟨g, hg, hcharge⟩ := h.trigger entry hentry id hid
          exact ⟨g, List.mem_append_left _ hg, hcharge⟩
        · rw [List.mem_singleton.mp hentry] at hid
          refine ⟨_, List.mem_append_right _ (List.mem_singleton_self _), ?_, rfl⟩
          obtain hid | hid := hid <;> cases hid <;> rfl
      · intro period
        have happend := w.rows.admittedTriggers_append
          (admittedTrigger (cfg.deliveries r) m ids) period
        have htotal := UsageLedger.total_append w.rows.ledger [triggerEntry cfg m
          (cfg.deliveries r).kind identity ids (cfg.deliveries r).receivedAt] .trigger period
        have hone : UsageLedger.total [triggerEntry cfg m (cfg.deliveries r).kind identity ids
            (cfg.deliveries r).receivedAt] .trigger period =
            if periodOf (cfg.deliveries r).receivedAt = period then 1 else 0 := by
          by_cases hperiod : periodOf (cfg.deliveries r).receivedAt = period
          · rw [if_pos hperiod]
            exact UsageLedger.total_singleton rfl hperiod
          · rw [if_neg hperiod]
            exact UsageLedger.total_singleton_other hperiod
        rw [h.total, hone] at htotal
        have hif : (if (admittedTrigger (cfg.deliveries r) m ids).status = .admitted ∧
            periodOf (admittedTrigger (cfg.deliveries r) m ids).receivedAt = period then 1 else 0) =
            if periodOf (cfg.deliveries r).receivedAt = period then 1 else 0 :=
          if_congr (and_iff_right rfl) rfl rfl
        rw [hif] at happend
        exact htotal.trans happend.symm

theorem charged_step (h : w.Charged) (hrepairs : w.RepairsAdmitted label)
    (hstep : w.step cfg label = some w') : w'.Charged := by
  cases step_cases hstep with
  | create _ l r a request free statement => exact h.congr rfl rfl
  | commit r ids task period a inserted statement => exact h.append (by rintro ⟨⟩) (by rintro _ ⟨⟩) rfl rfl rfl
  | deliver r ids _ move => exact charged_deliver h move
  | crashDelivery r _ crash =>
      rw [crash]
      exact h.congr rfl rfl
  | task t state l found stepped apart =>
      exact h.appendAll (fun receipt _ => ⟨by rintro ⟨⟩, by rintro _ ⟨⟩, rfl⟩) rfl rfl
  | requestReview reviewId candidateId now createdAt idle fresh =>
      exact h.append (by rintro ⟨⟩) (by rintro _ ⟨⟩) rfl rfl rfl
  | decideReview reviewId => exact h.congr rfl rfl
  | addMonitor m absent => exact h.congr rfl rfl
  | putMonitor m old found free owner => exact h.congr rfl rfl
  | setEntitlement e free => exact h.congr rfl rfl
  | reconcile moment now repair reconciliations free =>
      cases repair with
      | false => exact h.congr rfl rfl
      | true =>
          refine h.appendAll ?_ rfl rfl
          intro f hf
          obtain ⟨hsource, hfree⟩ := List.mem_filter.mp hf
          have hother : ¬ (f.unit = .trigger ∨ ∃ id, f.resource = .monitorTrigger id) := by
            intro htrigger
            obtain ⟨g, hg, hperiod, rfl⟩ := WorkspaceRows.mem_sourceFacts_trigger hsource htrigger
            have hadmitted : g.status = .admitted := by
              by_contra hne
              exact hrepairs g hg hne hperiod
            obtain ⟨entry, hentry, hcharge, hstart⟩ := h.entry g hg hadmitted
            rw [WorkspaceRows.isCharged_trigger hentry hcharge (hstart.trans hperiod)] at hfree
            cases hfree
          simp only [not_or, not_exists] at hother
          exact ⟨hother.1, hother.2, rfl⟩

theorem charged_init (e : Option Entitlement) (monitors : List MonitorDefinition) :
    (init e monitors).Charged :=
  ⟨fun _ h => absurd h List.not_mem_nil, fun _ h => absurd h List.not_mem_nil, fun _ => rfl⟩

/-- As long as no repair is of a month with a suppressed trigger, the triggers of a month are
charged once for every admitted one, and no charge is for another trigger. -/
theorem triggers_charged {e : Option Entitlement} {monitors : List MonitorDefinition}
    (h : Reaches (step cfg) RepairsAdmitted (init e monitors) w) :
    (∀ period, UsageLedger.total w.rows.ledger .trigger period =
      w.rows.admittedTriggers period) ∧
    ∀ entry ∈ w.rows.ledger, ∀ id,
      entry.resource = .monitorTrigger id ∨ entry.triggerId = some id →
      ∃ g ∈ w.rows.triggers, g.id = id ∧ g.status = .admitted := by
  have hcharged : w.Charged := h.invariant (I := Charged)
    (fun _ _ _ hok hc hstep => charged_step hc hok hstep) (charged_init e monitors)
  exact ⟨hcharged.total, hcharged.trigger⟩

/-- An admitted delivery, and then a repair of its month. -/
theorem triggers_charged_repaired : ∃ w, Reaches (step plainConfig) RepairsAdmitted
      (init (some plainEntitlement) [plainMonitor]) w ∧ w.rows.triggers.length = 1 ∧
    (∀ period, UsageLedger.total w.rows.ledger .trigger period =
      w.rows.admittedTriggers period) ∧
    ∀ entry ∈ w.rows.ledger, ∀ id,
      entry.resource = .monitorTrigger id ∨ entry.triggerId = some id →
      ∃ g ∈ w.rows.triggers, g.id = id ∧ g.status = .admitted := by
  have hany : (runLabels (step plainConfig) (init (some plainEntitlement) [plainMonitor])
      deliverRun).any (fun w => w.rows.triggers.length == 1 &&
        w.rows.triggers.all (fun g => g.status == .admitted) &&
        (w.step plainConfig (.reconcile 0 0 true)).any fun w' =>
          w'.rows.triggers.length == 1) = true := by decide +kernel
  obtain ⟨w, hrun, hchecks⟩ := (Option.any_eq_true _ _).mp hany
  simp only [Bool.and_eq_true, List.all_eq_true, beq_iff_eq] at hchecks
  obtain ⟨⟨-, hadmitted⟩, hrepair⟩ := hchecks
  obtain ⟨w', hstep, hone⟩ := (Option.any_eq_true _ _).mp hrepair
  have hdelivered : Reaches (step plainConfig) RepairsAdmitted
      (init (some plainEntitlement) [plainMonitor]) w := by
    refine reaches_of_guarded deliverRun ?_ hrun
    intro v l hl
    rw [List.eq_of_mem_replicate hl]
    trivial
  have hreaches := hdelivered.tail (.reconcile 0 0 true)
    (fun g hg hne => absurd (hadmitted g hg) hne) hstep
  exact ⟨w', hreaches, by simpa using hone, triggers_charged hreaches⟩

/-- The trigger of a paused monitor is charged by a repair of its month. -/
theorem suppressed_charged : ∃ w, Reaches (step plainConfig) anyStep
      (init (some plainEntitlement) [{ plainMonitor with status := .paused }]) w ∧
    (∀ g ∈ w.rows.triggers, g.status = .suppressed) ∧
    UsageLedger.total w.rows.ledger .trigger (periodOf 0) = 1 ∧
    w.rows.admittedTriggers (periodOf 0) = 0 := by
  have hany : (runLabels (step plainConfig)
      (init (some plainEntitlement) [{ plainMonitor with status := .paused }])
      (List.replicate 4 (.deliver 1 ⟨5, 3, 4, "monitor", 0⟩) ++ [.reconcile 0 0 true])).any
        (fun w => w.rows.triggers.all (fun g => g.status == .suppressed) &&
          UsageLedger.total w.rows.ledger .trigger (periodOf 0) == 1 &&
          w.rows.admittedTriggers (periodOf 0) == 0) = true := by decide +kernel
  obtain ⟨w, hrun, hchecks⟩ := (Option.any_eq_true _ _).mp hany
  simp only [Bool.and_eq_true, List.all_eq_true, beq_iff_eq] at hchecks
  exact ⟨w, reaches_of_runLabels _ hrun, hchecks.1.1, hchecks.1.2, hchecks.2⟩

end Workspace

end CryptoAlert
