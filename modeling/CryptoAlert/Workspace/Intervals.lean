import CryptoAlert.Workspace.Concurrency
import CryptoAlert.Workspace.TriggerIdentity

/-!
# The time between two admitted triggers

A delivery compares its time with the latest admission of its monitor while it holds the row of
the monitor, so no other delivery is admitted before it is. Suppressed triggers have no part in
the comparison.
-/

namespace CryptoAlert

/-- The monitor of a delivery that found enough time since the latest admission. -/
def DeliveryPhase.pastInterval : DeliveryPhase → Option MonitorDefinition
  | counting m _ .usage none | counting m _ .tasks none | admitting m _ => some m
  | _ => none

theorem DeliveryPhase.monitor_of_pastInterval {p : DeliveryPhase} {m : MonitorDefinition}
    (h : p.pastInterval = some m) : p.monitor = some m := by
  unfold pastInterval at h
  split at h <;> first | exact h | cases h

theorem latestAdmission_append_suppressed {triggers : List MonitorTrigger} {g : MonitorTrigger}
    (h : g.status = .suppressed) (m : MonitorDefinition) :
    latestAdmission (triggers ++ [g]) m = latestAdmission triggers m := by
  simp [latestAdmission, h]

/-- The latest admission is not before any admission of the monitor. -/
theorem le_of_not_tooSoon {triggers : List MonitorTrigger} {m : MonitorDefinition}
    {e : Entitlement} {now a : ℕ} (h : tooSoon triggers m e now = false) {g : MonitorTrigger}
    (hg : g ∈ triggers) (howner : g.ownerUserId = m.ownerUserId) (hmonitor : g.monitorId = m.id)
    (hadmitted : g.status = .admitted) (ha : g.admittedAt = some a) :
    a + e.minIntervalSeconds * 1000000 ≤ now := by
  have hmem : a ∈ (triggers.filter fun t => t.ownerUserId == m.ownerUserId &&
      t.monitorId == m.id && t.status == .admitted).filterMap (·.admittedAt) := by
    refine List.mem_filterMap.mpr ⟨g, List.mem_filter.mpr ⟨hg, ?_⟩, ha⟩
    simp [howner, hmonitor, hadmitted]
  cases hmax : latestAdmission triggers m with
  | none =>
      rw [latestAdmission, List.max?_eq_none_iff] at hmax
      rw [hmax] at hmem
      cases hmem
  | some latest =>
      have hle : a ≤ latest := (List.max?_eq_some_iff.mp hmax).2 a hmem
      rw [tooSoon, hmax, Option.any_some, decide_eq_false_iff_not, not_lt] at h
      exact (Nat.add_le_add_right hle _).trans h

namespace Workspace

variable {cfg : WorkspaceConfig} {w w' : Workspace} {label : WorkspaceLabel} {r : ℕ}
  {e : Entitlement}

/-- The admitted triggers of a monitor are apart in time, also from a delivery that found enough
time since the latest of them. -/
structure Spaced (cfg : WorkspaceConfig) (e : Entitlement) (w : Workspace) : Prop where
  entitlement : w.rows.entitlement = some e
  counting : ∀ r m e' next reason, w.deliveries r = .counting m e' next reason → e' = e
  admittedAt : ∀ g ∈ w.rows.triggers, g.status = .admitted → g.admittedAt = some g.receivedAt
  owner : ∀ g ∈ w.rows.triggers, ∃ m, w.rows.findMonitor g.monitorId = some m ∧
    g.ownerUserId = m.ownerUserId
  checked : ∀ r m, (w.deliveries r).pastInterval = some m → ∀ g ∈ w.rows.triggers,
    g.status = .admitted → g.monitorId = m.id →
    g.receivedAt + e.minIntervalSeconds * 1000000 ≤ (cfg.deliveries r).receivedAt
  spaced : ∀ g ∈ w.rows.triggers, ∀ g' ∈ w.rows.triggers, g ≠ g' → g.monitorId = g'.monitorId →
    g.status = .admitted → g'.status = .admitted →
    g.receivedAt + e.minIntervalSeconds * 1000000 ≤ g'.receivedAt ∨
      g'.receivedAt + e.minIntervalSeconds * 1000000 ≤ g.receivedAt

theorem spaced_init (e : Entitlement) (monitors : List MonitorDefinition) :
    (init (some e) monitors).Spaced cfg e := by
  refine ⟨rfl, ?_, ?_, ?_, ?_, ?_⟩
  · intro r m e' next reason h
    cases h
  · exact fun _ h => absurd h List.not_mem_nil
  · exact fun _ h => absurd h List.not_mem_nil
  · intro r m h
    cases h
  · exact fun _ h => absurd h List.not_mem_nil

/-- A delivery that moves on without a trigger. -/
theorem Spaced.go (h : w.Spaced cfg e) {p : DeliveryPhase} (hrows : w'.rows = w.rows)
    (hdeliveries : w'.deliveries = Function.update w.deliveries r p)
    (hcounting : ∀ m e' next reason, p = .counting m e' next reason → e' = e)
    (hpast : ∀ m, p.pastInterval = some m → ∀ g ∈ w.rows.triggers, g.status = .admitted →
      g.monitorId = m.id →
      g.receivedAt + e.minIntervalSeconds * 1000000 ≤ (cfg.deliveries r).receivedAt) :
    w'.Spaced cfg e := by
  have hphase : ∀ r', w'.deliveries r' = if r' = r then p else w.deliveries r' := by
    intro r'
    rw [hdeliveries, Function.update_apply]
  refine ⟨by rw [hrows]; exact h.entitlement, ?_, by rw [hrows]; exact h.admittedAt,
    by rw [hrows]; exact h.owner, ?_, by rw [hrows]; exact h.spaced⟩
  · intro r' m e' next reason hp
    rw [hphase] at hp
    split_ifs at hp
    · exact hcounting m e' next reason hp
    · exact h.counting r' m e' next reason hp
  · rw [hrows]
    intro r' m hp
    rw [hphase] at hp
    split_ifs at hp with hr
    · rw [hr]
      exact hpast m hp
    · exact h.checked r' m hp

/-- A delivery that is not on its way to an admission. -/
theorem Spaced.pass (h : w.Spaced cfg e) (p : DeliveryPhase) (hp : ¬ p.holdsEntitlement)
    (hrows : w'.rows = w.rows)
    (hdeliveries : w'.deliveries = Function.update w.deliveries r p) : w'.Spaced cfg e := by
  refine h.go hrows hdeliveries ?_ ?_
  · rintro m e' next reason rfl
    exact absurd trivial hp
  · intro m hpast
    unfold DeliveryPhase.pastInterval at hpast
    split at hpast <;> first | exact absurd trivial hp | cases hpast

/-- A delivery that inserts its trigger and ends. -/
theorem Spaced.insert (h : w.Spaced cfg e) (hheld : w.Held) {g : MonitorTrigger}
    {m : MonitorDefinition} {o : DeliveryOutcome} (hm : (w.deliveries r).monitor = some m)
    (hentitlement : w'.rows.entitlement = w.rows.entitlement)
    (hmonitors : w'.rows.monitors = w.rows.monitors)
    (htriggers : w'.rows.triggers = w.rows.triggers ++ [g])
    (hdeliveries : w'.deliveries = Function.update w.deliveries r (.done o))
    (hmonitor : g.monitorId = m.id) (howner : g.ownerUserId = m.ownerUserId)
    (hnew : g.status = .admitted → g.admittedAt = some g.receivedAt ∧
      ∀ g' ∈ w.rows.triggers, g'.status = .admitted → g'.monitorId = m.id →
        g'.receivedAt + e.minIntervalSeconds * 1000000 ≤ g.receivedAt) : w'.Spaced cfg e := by
  have hphase : ∀ r', w'.deliveries r' = if r' = r then .done o else w.deliveries r' := by
    intro r'
    rw [hdeliveries, Function.update_apply]
  have hfind : ∀ id, w'.rows.findMonitor id = w.rows.findMonitor id := by
    intro id
    rw [WorkspaceRows.findMonitor, hmonitors, WorkspaceRows.findMonitor]
  refine ⟨hentitlement.trans h.entitlement, ?_, ?_, ?_, ?_, ?_⟩
  · intro r' m' e' next reason hp
    rw [hphase] at hp
    split_ifs at hp
    exact h.counting r' m' e' next reason hp
  · rw [htriggers]
    intro g' hg' hadmitted
    obtain hg' | hg' := List.mem_append.mp hg'
    · exact h.admittedAt g' hg' hadmitted
    · rw [List.mem_singleton.mp hg'] at hadmitted ⊢
      exact (hnew hadmitted).1
  · rw [htriggers]
    intro g' hg'
    rw [hfind]
    obtain hg' | hg' := List.mem_append.mp hg'
    · exact h.owner g' hg'
    · rw [List.mem_singleton.mp hg', hmonitor]
      exact ⟨m, (hheld.monitor r m hm).2, howner⟩
  · rw [htriggers]
    intro r' m' hp g' hg' hadmitted hid
    rw [hphase] at hp
    split_ifs at hp with hr
    · cases hp
    · obtain hg' | hg' := List.mem_append.mp hg'
      · exact h.checked r' m' hp g' hg' hadmitted hid
      · -- Two deliveries do not hold the same monitor.
        rw [List.mem_singleton.mp hg', hmonitor] at hid
        have hholder := (hheld.monitor r m hm).1
        have hholder' := (hheld.monitor r' m' (DeliveryPhase.monitor_of_pastInterval hp)).1
        rw [← hid, hholder] at hholder'
        cases hholder'
        exact absurd rfl hr
  · rw [htriggers]
    intro g₁ hg₁ g₂ hg₂ hne hsame hadmitted₁ hadmitted₂
    obtain hg₁ | hg₁ := List.mem_append.mp hg₁
    · obtain hg₂ | hg₂ := List.mem_append.mp hg₂
      · exact h.spaced g₁ hg₁ g₂ hg₂ hne hsame hadmitted₁ hadmitted₂
      · rw [List.mem_singleton.mp hg₂] at hsame hadmitted₂ ⊢
        exact .inl ((hnew hadmitted₂).2 g₁ hg₁ hadmitted₁ (hsame.trans hmonitor))
    · rw [List.mem_singleton.mp hg₁] at hsame hadmitted₁ hne ⊢
      obtain hg₂ | hg₂ := List.mem_append.mp hg₂
      · exact .inr ((hnew hadmitted₁).2 g₂ hg₂ hadmitted₂ (hsame.symm.trans hmonitor))
      · exact absurd (List.mem_singleton.mp hg₂).symm hne

/-- A count that finds no reason had none before. -/
theorem reason_of_afterCount {m : MonitorDefinition} {e : Entitlement} {now : ℕ}
    {next : TriggerCount} {reason : Option String}
    (h : w.afterCount m e now next reason = none) : reason = none := by
  cases reason with
  | none => rfl
  | some text => cases next <;> cases h

theorem not_tooSoon_of_afterCount {m : MonitorDefinition} {e : Entitlement} {now : ℕ}
    {reason : Option String} (h : w.afterCount m e now .latest reason = none) :
    tooSoon w.rows.triggers m e now = false := by
  obtain rfl := reason_of_afterCount h
  simpa [afterCount] using h

theorem spaced_deliver (h : w.Spaced cfg e) (hheld : w.Held) (hmove : DeliveryMove cfg w r w') :
    w'.Spaced cfg e := by
  cases hmove with
  | leave p ended => exact h.pass p (not_holdsEntitlement_of_ended ended) rfl rfl
  | lock m => exact h.pass (.locked m) (fun h => h) rfl rfl
  | absent m p locked absent next =>
      obtain rfl | ⟨version, reason, rfl⟩ := next
      · exact h.pass (.unseen m) (fun h => h) rfl rfl
      · exact h.pass (.suppressing m version reason) (fun h => h) rfl rfl
  | entitled m p unseen free next =>
      obtain ⟨e', hent, rfl⟩ | ⟨version, reason, rfl⟩ := next
      · refine h.go (p := .counting m e' .monitors none) rfl rfl ?_ ?_
        · intro m' e'' next reason heq
          cases heq
          rw [h.entitlement, Option.some.injEq] at hent
          exact hent.symm
        · intro m' hpast
          cases hpast
      · exact h.pass (.suppressing m version reason) (fun h => h) rfl rfl
  | counted m e' next reason p counting hnext =>
      have he : e' = e := h.counting r m e' next reason counting
      obtain ⟨following, hafter, rfl⟩ | ⟨hlast, hnone, rfl⟩ | ⟨version, text, rfl⟩ := hnext
      · refine h.go rfl rfl ?_ ?_
        · intro m' e'' next' reason' heq
          cases heq
          exact he
        · intro m' hpast g hg hadmitted hid
          cases next with
          | monitors =>
              cases hafter
              cases hpast
          | latest =>
              cases hafter
              cases hreason : w.afterCount m e' (cfg.deliveries r).receivedAt .latest reason with
              | some text =>
                  rw [hreason] at hpast
                  cases hpast
              | none =>
                  rw [hreason] at hpast
                  cases hpast
                  obtain ⟨m', hfound, howner⟩ := h.owner g hg
                  have hm := (hheld.monitor r m (by rw [counting]; rfl)).2
                  rw [hid, hm, Option.some.injEq] at hfound
                  rw [← hfound] at howner
                  rw [← he]
                  exact le_of_not_tooSoon (not_tooSoon_of_afterCount hreason) hg howner hid
                    hadmitted (h.admittedAt g hg hadmitted)
          | usage =>
              cases hafter
              cases hreason : w.afterCount m e' (cfg.deliveries r).receivedAt .usage reason with
              | some text =>
                  rw [hreason] at hpast
                  cases hpast
              | none =>
                  rw [hreason] at hpast
                  cases hpast
                  exact h.checked r m (by rw [counting, reason_of_afterCount hreason]; rfl) g hg
                    hadmitted hid
          | tasks => cases hafter
      · refine h.go rfl rfl ?_ ?_
        · intro m' e'' next' reason' heq
          cases heq
        · intro m' hpast
          cases hpast
          cases next <;> cases hlast
          exact h.checked r m (by rw [counting, reason_of_afterCount hnone]; rfl)
      · exact h.pass (.suppressing m version text) (fun h => h) rfl rfl
  | suppressed m version reason ids suppressing joins =>
      exact h.insert hheld (by rw [suppressing]; rfl) rfl rfl rfl rfl rfl rfl (by rintro ⟨⟩)
  | admitted m e' identity ids admitting identified joins fresh uncharged =>
      refine h.insert hheld (by rw [admitting]; rfl) rfl rfl rfl rfl rfl rfl ?_
      intro _
      exact ⟨rfl, h.checked r m (by rw [admitting]; rfl)⟩

/-- A step that leaves the triggers and the deliveries alone. -/
theorem Spaced.congr (h : w.Spaced cfg e) (hentitlement : w'.rows.entitlement = w.rows.entitlement)
    (htriggers : w'.rows.triggers = w.rows.triggers) (hdeliveries : w'.deliveries = w.deliveries)
    (hmonitors : ∀ id m, w.rows.findMonitor id = some m →
      ∃ m', w'.rows.findMonitor id = some m' ∧ m'.ownerUserId = m.ownerUserId) :
    w'.Spaced cfg e := by
  refine ⟨hentitlement.trans h.entitlement, by rw [hdeliveries]; exact h.counting,
    by rw [htriggers]; exact h.admittedAt, ?_, by rw [hdeliveries, htriggers]; exact h.checked,
    by rw [htriggers]; exact h.spaced⟩
  rw [htriggers]
  intro g hg
  obtain ⟨m, hfound, howner⟩ := h.owner g hg
  obtain ⟨m', hfound', howner'⟩ := hmonitors g.monitorId m hfound
  exact ⟨m', hfound', howner.trans howner'.symm⟩

theorem spaced_step (h : w.Spaced cfg e) (hheld : w.Held) (hkeeps : label.KeepsEntitlement)
    (hstep : w.step cfg label = some w') : w'.Spaced cfg e := by
  have hsame : ∀ id m, w.rows.findMonitor id = some m →
      ∃ m', w.rows.findMonitor id = some m' ∧ m'.ownerUserId = m.ownerUserId :=
    fun id m hfound => ⟨m, hfound, rfl⟩
  cases step_cases hstep with
  | deliver r ids _ move => exact spaced_deliver h hheld move
  | crashDelivery r _ crash =>
      rw [crash]
      exact h.pass .crashed (fun h => h) rfl rfl
  | addMonitor m absent =>
      refine h.congr rfl rfl rfl ?_
      intro id m' hfound
      refine ⟨m', ?_, rfl⟩
      change Table.find _ (w.rows.monitors ++ [m]) id = some m'
      rw [Table.find, List.find?_append]
      exact Option.or_eq_some_iff.mpr (.inl hfound)
  | putMonitor m old found free owner =>
      refine h.congr rfl rfl rfl ?_
      intro id m' hfound
      by_cases hid : id = m.id
      · rw [hid, found, Option.some.injEq] at hfound
        obtain ⟨hmem, hkey⟩ := Table.find_eq_some found
        refine ⟨m, ?_, by rw [owner, hfound]⟩
        rw [hid]
        exact Table.find_put_self ⟨old, hmem, hkey⟩
      · exact ⟨m', (Table.find_put_other hid).trans hfound, rfl⟩
  | setEntitlement e free => exact hkeeps.elim
  | _ => exact h.congr rfl rfl rfl hsame

/-- What a workspace owes to the deliveries of its triggers. -/
structure ExactlyOnce (cfg : WorkspaceConfig) (w : Workspace) : Prop where
  /-- Two deliveries of one identity are answered with one trigger. -/
  receipt : ∀ r r' id id' created created',
    w.deliveries r = .done (.receipt id created) → w.deliveries r' = .done (.receipt id' created') →
    (cfg.deliveries r).monitorId = (cfg.deliveries r').monitorId →
    (cfg.deliveries r).kind = (cfg.deliveries r').kind →
    (cfg.deliveries r).identity = (cfg.deliveries r').identity →
    id = id' ∧ (created = true → created' = true → r = r')
  trigger : ∀ g ∈ w.rows.triggers, ∀ g' ∈ w.rows.triggers, g.SharesIdentity g' → g = g'
  task : ∀ g ∈ w.rows.triggers,
    (w.rows.tasks.filter fun t => t.triggerId = some g.id).length ≤ 1
  submit : ∀ t ∈ w.rows.tasks, t.state.store.commandTypes.count .submit = 1
  charge : ∀ g ∈ w.rows.triggers, (w.rows.ledger.filter fun entry => entry.Charges g.id).length ≤ 1
  /-- A suppressed trigger has no task, and at most the charge of a repair. -/
  suppressed : ∀ g ∈ w.rows.triggers, g.status = .suppressed →
    (∀ t ∈ w.rows.tasks, t.triggerId ≠ some g.id) ∧
      ∀ entry ∈ w.rows.ledger, entry.Charges g.id → entry.key = .reconcileTrigger g.id
  /-- The step that inserts a suppressed trigger leaves the tasks, with their commands, the ledger
  and the latest admissions as they are. -/
  suppression : ∀ label w', w.step cfg label = some w' → ∀ g, g.status = .suppressed →
    w'.rows.triggers = w.rows.triggers ++ [g] → w'.rows.tasks = w.rows.tasks ∧
      w'.rows.ledger = w.rows.ledger ∧
      ∀ m, latestAdmission w'.rows.triggers m = latestAdmission w.rows.triggers m

theorem length_filter_le_one {α : Type*} {l : List α} {p : α → Bool} (hn : l.Nodup)
    (h : ∀ a ∈ l, ∀ b ∈ l, p a → p b → a = b) : (l.filter p).length ≤ 1 := by
  cases hfilter : l.filter p with
  | nil => exact Nat.zero_le 1
  | cons a rest =>
      cases rest with
      | nil => exact le_rfl
      | cons b rest =>
          have hmem : ∀ c ∈ a :: b :: rest, c ∈ l ∧ p c := by
            intro c hc
            rw [← hfilter] at hc
            exact List.mem_filter.mp hc
          have ha := hmem a List.mem_cons_self
          have hb := hmem b (List.mem_cons_of_mem _ List.mem_cons_self)
          have hne := (hn.filter p)
          rw [hfilter, h a ha.1 b hb.1 ha.2 hb.2] at hne
          exact absurd List.mem_cons_self (List.nodup_cons.mp hne).1

theorem suppression_step (hstep : w.step cfg label = some w') {g : MonitorTrigger}
    (hg : g.status = .suppressed) (htriggers : w'.rows.triggers = w.rows.triggers ++ [g]) :
    w'.rows.tasks = w.rows.tasks ∧ w'.rows.ledger = w.rows.ledger ∧
      ∀ m, latestAdmission w'.rows.triggers m = latestAdmission w.rows.triggers m := by
  have hsame : w'.rows.triggers ≠ w.rows.triggers := by
    rw [htriggers]
    simp
  have hmove : ∀ {r : ℕ}, DeliveryMove cfg w r w' → w'.rows.tasks = w.rows.tasks ∧
      w'.rows.ledger = w.rows.ledger ∧
      ∀ m, latestAdmission w'.rows.triggers m = latestAdmission w.rows.triggers m := by
    intro r hmove
    cases hmove with
    | suppressed m version reason ids suppressing joins =>
        exact ⟨rfl, rfl, fun m' => latestAdmission_append_suppressed rfl m'⟩
    | admitted m e' identity ids admitting identified joins fresh uncharged =>
        have heq := List.append_cancel_left htriggers
        cases heq
        cases hg
    | _ => exact absurd rfl hsame
  cases step_cases hstep with
  | deliver r ids _ move => exact hmove move
  | crashDelivery r _ crash =>
      rw [crash] at hsame
      exact absurd rfl hsame
  | _ => exact absurd rfl hsame

/-- The tasks and the charges of a trigger, as the rows relate them. -/
theorem exactlyOnce_of_identified (hs : w.Sound) (h : w.rows.Identified) (ha : w.Answered cfg) :
    w.ExactlyOnce cfg := by
  have hsameId : ∀ g ∈ w.rows.triggers, ∀ g' ∈ w.rows.triggers, g.id = g'.id → g = g' :=
    fun g hg g' hg' hid => List.inj_on_of_nodup_map hs.keyed.triggers hg hg' hid
  refine ⟨?_, h.apart, ?_, h.submits, ?_, ?_, ?_⟩
  · intro r r' id id' created created' hr hr' hmonitor hkind hidentity
    obtain ⟨g, hg, rfl, hanswers⟩ := ha.receipt r id created hr
    obtain ⟨g', hg', rfl, hanswers'⟩ := ha.receipt r' id' created' hr'
    have hsame := h.apart g hg g' hg' (hanswers.sharesIdentity hanswers' hmonitor hkind hidentity)
    subst hsame
    refine ⟨rfl, ?_⟩
    rintro rfl rfl
    exact ha.created r r' g.id hr hr'
  · intro g hg
    apply length_filter_le_one (List.Nodup.of_map _ hs.keyed.tasks)
    intro t ht t' ht' hid hid'
    obtain ⟨g₁, hg₁, hid₁, -, htask⟩ := h.task t ht g.id (by simpa using hid)
    obtain ⟨g₂, hg₂, hid₂, -, htask'⟩ := h.task t' ht' g.id (by simpa using hid')
    have hsame := hsameId g₁ hg₁ g₂ hg₂ (hid₁.trans hid₂.symm)
    rw [← hsame, htask, Option.some.injEq] at htask'
    exact List.inj_on_of_nodup_map hs.keyed.tasks ht ht' htask'
  · intro g hg
    apply length_filter_le_one (List.Nodup.of_map _ hs.keyed.ledger)
    intro entry hentry entry' hentry' hcharge hcharge'
    obtain ⟨g₁, hg₁, hid₁, hkey⟩ := h.charge entry hentry g.id (by simpa using hcharge)
    obtain ⟨g₂, hg₂, hid₂, hkey'⟩ := h.charge entry' hentry' g.id (by simpa using hcharge')
    have hsame := hsameId g₁ hg₁ g₂ hg₂ (hid₁.trans hid₂.symm)
    rw [← hsame] at hkey'
    exact List.inj_on_of_nodup_map hs.keyed.ledger hentry hentry' (hkey.trans hkey'.symm)
  · intro g hg hsuppressed
    refine ⟨?_, ?_⟩
    · intro t ht hid
      obtain ⟨g', hg', hsame, hadmitted, -⟩ := h.task t ht g.id hid
      rw [hsameId g' hg' g hg hsame, hsuppressed] at hadmitted
      cases hadmitted
    · intro entry hentry hcharge
      obtain ⟨g', hg', hsame, hkey⟩ := h.charge entry hentry g.id hcharge
      rw [hkey, hsameId g' hg' g hg hsame, MonitorTrigger.chargeKey, hsuppressed]
  · intro label w' hstep g hsuppressed htriggers
    exact suppression_step hstep hsuppressed htriggers

/-- Room for two tasks. -/
def twoTasks : Entitlement := { plainEntitlement with maxConcurrentTasks := 2, positive := by decide }

/-- An admitted delivery, the same delivery again, and one that comes a second later. -/
def threeDeliveries : List WorkspaceLabel :=
  deliverRun ++ List.replicate 2 (.deliver 3 ⟨6, 7, 8, "monitor", 0⟩) ++
    List.replicate 8 (.deliver 2 ⟨6, 7, 8, "monitor", 0⟩)

end Workspace

end CryptoAlert
