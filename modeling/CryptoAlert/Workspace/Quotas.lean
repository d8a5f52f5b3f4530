import CryptoAlert.Workspace.Keys
import Mathlib.Algebra.Order.BigOperators.Group.List

/-!
# The monthly quotas and their units

The admission of a task sums the entries of its own unit. The admission of a trigger sums all
entries of the month, so that it is right about the triggers only where the other entries make no
difference.
-/

namespace CryptoAlert

namespace UsageLedger

variable {ledger more : List UsageLedgerEntry} {unit : LedgerUnit} {period : Admission.Instant}

/-- The sum over all units. -/
def sum (ledger : List UsageLedgerEntry) (period : Admission.Instant) : ℕ :=
  ((inPeriod ledger period).map (·.quantity)).sum

theorem sum_append (ledger more : List UsageLedgerEntry) (period : Admission.Instant) :
    sum (ledger ++ more) period = sum ledger period + sum more period := by
  simp only [sum, inPeriod, List.filter_append, List.map_append, List.sum_append]

theorem total_le_sum (ledger : List UsageLedgerEntry) (unit : LedgerUnit)
    (period : Admission.Instant) : total ledger unit period ≤ sum ledger period :=
  (List.filter_sublist.map _).sum_le_sum fun _ _ => Nat.zero_le _

theorem total_filter (ledger : List UsageLedgerEntry) (unit : LedgerUnit)
    (period : Admission.Instant) :
    sum (ledger.filter fun entry => entry.unit = unit) period = total ledger unit period := by
  simp only [sum, total, inPeriod, List.filter_filter, Bool.and_comm]

/-- A total depends on the entries of its unit alone. -/
theorem total_congr {ledger' : List UsageLedgerEntry}
    (h : ledger.filter (fun entry => entry.unit = unit) =
      ledger'.filter fun entry => entry.unit = unit) :
    total ledger unit period = total ledger' unit period := by
  rw [← total_filter, h, total_filter]

end UsageLedger

theorem monthStart_eq_usagePeriodStart (value : Admission.Instant) :
    monthStart value = Admission.usagePeriodStart value := rfl

theorem monthlyTriggersExceeded_iff {ledger : List UsageLedgerEntry} {e : Entitlement} {now : ℕ} :
    monthlyTriggersExceeded ledger e now = true ↔
      e.monthlyTriggerLimit ≤ UsageLedger.sum ledger (periodOf now) := by
  rw [monthlyTriggersExceeded, monthStart_eq_usagePeriodStart]
  exact decide_eq_true_iff

/-- The admissions of the tasks and the reviews, as a create request sums them. -/
theorem WorkspaceRows.total_admissionStore (w : WorkspaceRows) (period : Admission.Instant) :
    w.admissionStore.total period = UsageLedger.total w.ledger .agentAdmission period := by
  unfold Admission.Store.total WorkspaceRows.admissionStore UsageLedger.total UsageLedger.inPeriod
  dsimp only
  induction w.ledger with
  | nil => rfl
  | cons entry ledger ih =>
      simp only [List.filter_cons, List.filter_nil, List.length_nil, Nat.add_zero] at ih ⊢
      by_cases hunit : entry.unit = .agentAdmission <;>
        by_cases hperiod : entry.periodStart = period <;>
        simp [hunit, hperiod, ih]

namespace Workspace

variable {cfg : WorkspaceConfig} {w w' : Workspace} {r : ℕ}

/-- What the count of the month makes of a create request. -/
def monthlyDecision (cfg : WorkspaceConfig) (w : Workspace) (r : ℕ) :
    Option (Admission.Phase String) :=
  (w.createStep cfg (.checkMonthly r)).map fun w' => w'.creates r

theorem monthlyDecision_eq {e : Admission.WorkspaceEntitlement} {now : Admission.Instant}
    (hphase : w.creates r = .counted e now) : monthlyDecision cfg w r =
      let current := UsageLedger.total w.rows.ledger .agentAdmission
        (Admission.usagePeriodStart now)
      some (if e.monthlyAgentAdmissionLimit ≤ current then
        .done (.quotaExceeded "agent_admission" current e.monthlyAgentAdmissionLimit)
      else .admitted (Admission.usagePeriodStart now)) := by
  have hadmission : w.admissionState.phase r = .counted e now := hphase
  have htotal : w.admissionState.store.total (Admission.usagePeriodStart now) = _ :=
    w.rows.total_admissionStore _
  simp only [monthlyDecision, createStep, Admission.step, hadmission, htotal, ge_iff_le]
  split_ifs with hlimit
  · simp [afterCreate, Admission.State.leave]
  · simp [afterCreate, Admission.State.enter]

/-- The count of the month reads the phase of the request and the admissions of the ledger. -/
theorem monthlyDecision_congr (hphase : w.creates r = w'.creates r)
    (hledger : w.rows.ledger.filter (fun entry => entry.unit = .agentAdmission) =
      w'.rows.ledger.filter fun entry => entry.unit = .agentAdmission) :
    monthlyDecision cfg w r = monthlyDecision cfg w' r := by
  by_cases hcounted : ∃ e now, w.creates r = .counted e now
  · obtain ⟨e, now, hcounted⟩ := hcounted
    rw [monthlyDecision_eq hcounted, monthlyDecision_eq (hphase ▸ hcounted),
      UsageLedger.total_congr hledger]
  · have hnone : ∀ v : Workspace, (¬ ∃ e now, v.creates r = .counted e now) →
        monthlyDecision cfg v r = none := by
      intro v hv
      simp only [monthlyDecision, createStep, Admission.step]
      split
      · rename_i e now hphase
        exact absurd ⟨e, now, hphase⟩ hv
      · rfl
    rw [hnone w hcounted, hnone w' (hphase ▸ hcounted)]

/-- The decisions about the monthly quotas read the entries of their own units. -/
structure OwnUnits (ledger more : List UsageLedgerEntry) (e : Entitlement) (now : ℕ) : Prop where
  /-- A trigger is measured by the total of the triggers. -/
  trigger : monthlyTriggersExceeded ledger e now =
    decide (e.monthlyTriggerLimit ≤ UsageLedger.total ledger .trigger (periodOf now))
  only : monthlyTriggersExceeded (ledger.filter fun entry => entry.unit = .trigger) e now =
    monthlyTriggersExceeded ledger e now
  more : monthlyTriggersExceeded (ledger ++ more) e now = monthlyTriggersExceeded ledger e now
  agent : ∀ (cfg : WorkspaceConfig) (w w' : Workspace) (r : ℕ), w.creates r = w'.creates r →
    w.rows.ledger.filter (fun entry => entry.unit = .agentAdmission) =
      w'.rows.ledger.filter (fun entry => entry.unit = .agentAdmission) →
    monthlyDecision cfg w r = monthlyDecision cfg w' r

/-- The quotas are decided by their own units exactly where the triggers alone reach the limit,
or all entries together, those that are added included, stay below it. -/
theorem ownUnits_iff {ledger more : List UsageLedgerEntry} {e : Entitlement} {now : ℕ} :
    OwnUnits ledger more e now ↔
      e.monthlyTriggerLimit ≤ UsageLedger.total ledger .trigger (periodOf now) ∨
        UsageLedger.sum (ledger ++ more) (periodOf now) < e.monthlyTriggerLimit := by
  have hle := UsageLedger.total_le_sum ledger .trigger (periodOf now)
  have hsum := UsageLedger.sum_append ledger more (periodOf now)
  constructor
  · intro h
    by_contra hother
    simp only [not_or, not_le, not_lt] at hother
    have hexceeded : monthlyTriggersExceeded (ledger ++ more) e now = true :=
      monthlyTriggersExceeded_iff.mpr hother.2
    rw [h.more, h.trigger, decide_eq_true_iff] at hexceeded
    exact absurd hother.1 (Nat.not_lt.mpr hexceeded)
  · intro h
    have hequal : ∀ l, (e.monthlyTriggerLimit ≤ UsageLedger.sum l (periodOf now) ↔
        e.monthlyTriggerLimit ≤ UsageLedger.total ledger .trigger (periodOf now)) →
        monthlyTriggersExceeded l e now =
          decide (e.monthlyTriggerLimit ≤ UsageLedger.total ledger .trigger (periodOf now)) := by
      intro l hl
      rw [Bool.eq_iff_iff, monthlyTriggersExceeded_iff, hl, decide_eq_true_iff]
    have hledger := hequal ledger (by omega)
    refine ⟨hledger, ?_, ?_, fun cfg w w' r => monthlyDecision_congr⟩
    · rw [hledger]
      exact hequal _ (by rw [UsageLedger.total_filter])
    · rw [hledger]
      exact hequal _ (by omega)

/-- An entry of the model tokens of a run. -/
def tokenEntry (quantity : ℕ) : UsageLedgerEntry where
  key := .runUsage 1 .modelToken
  resource := .run 1
  unit := .run .modelToken
  quantity
  sourceReceiptHash := ""
  triggerId := none
  periodStart := periodOf 0

/-- Two tokens use up the quota of two triggers. -/
theorem not_ownUnits_tokens : ¬ OwnUnits [] [tokenEntry 2] plainEntitlement 0 := by
  intro h
  have hsame := h.more
  revert hsame
  decide +kernel

end Workspace

end CryptoAlert
