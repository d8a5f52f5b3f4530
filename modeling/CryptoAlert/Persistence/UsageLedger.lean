import CryptoAlert.Api.Admission
import CryptoAlert.Lib.Calendar
import CryptoAlert.Persistence.UsageReceipts

/-!
# The usage ledger of a workspace

Entries are never changed. The key of an entry is unique in the workspace, whatever its period,
and an insert whose key is taken does nothing.
-/

namespace CryptoAlert

namespace Admission.Instant

open Calendar

/-- The calendar fields of a time. -/
def ofMicros (t : ℕ) : Instant where
  year := monthOf t / 12 + 1
  month := monthOf t % 12 + 1
  rest := t - monthStart (monthOf t)

def toMicros (value : Instant) : ℕ :=
  monthStart ((value.year - 1) * 12 + (value.month - 1)) + value.rest

/-- `_next_month`. -/
def nextMonth (value : Instant) : Instant :=
  if value.month = 12 then { value with year := value.year + 1, month := 1 }
  else { value with month := value.month + 1 }

theorem toMicros_mk {year month rest n : ℕ} (h : (year - 1) * 12 + (month - 1) = n) :
    (Instant.mk year month rest).toMicros = monthStart n + rest := by
  rw [← h]
  rfl

theorem toMicros_ofMicros (t : ℕ) : (ofMicros t).toMicros = t := by
  have hmonth : (monthOf t / 12 + 1 - 1) * 12 + (monthOf t % 12 + 1 - 1) = monthOf t := by omega
  rw [ofMicros, toMicros_mk hmonth]
  exact Nat.add_sub_cancel' (monthStart_monthOf_le t)

end Admission.Instant

/-- The period that a time is charged to. -/
def periodOf (t : ℕ) : Admission.Instant := Admission.usagePeriodStart (.ofMicros t)

section Periods

open Calendar

theorem periodOf_eq_mk (t : ℕ) : periodOf t = ⟨monthOf t / 12 + 1, monthOf t % 12 + 1, 0⟩ := rfl

theorem toMicros_periodOf (t : ℕ) : (periodOf t).toMicros = monthStart (monthOf t) := by
  have hmonth : (monthOf t / 12 + 1 - 1) * 12 + (monthOf t % 12 + 1 - 1) = monthOf t := by omega
  rw [periodOf_eq_mk, Admission.Instant.toMicros_mk hmonth, Nat.add_zero]

theorem toMicros_nextMonth (t : ℕ) :
    (periodOf t).nextMonth.toMicros = monthStart (monthOf t + 1) := by
  rw [periodOf_eq_mk, Admission.Instant.nextMonth]
  by_cases hlast : monthOf t % 12 + 1 = 12
  · have hmonth : (monthOf t / 12 + 1 + 1 - 1) * 12 + (1 - 1) = monthOf t + 1 := by omega
    rw [if_pos hlast, Admission.Instant.toMicros_mk hmonth, Nat.add_zero]
  · have hmonth : (monthOf t / 12 + 1 - 1) * 12 + (monthOf t % 12 + 1 + 1 - 1) =
        monthOf t + 1 := by omega
    rw [if_neg hlast, Admission.Instant.toMicros_mk hmonth, Nat.add_zero]

theorem periodOf_eq_iff {s t : ℕ} : periodOf s = periodOf t ↔ monthOf s = monthOf t := by
  constructor
  · intro h
    have hstart := congrArg Admission.Instant.toMicros h
    rw [toMicros_periodOf, toMicros_periodOf] at hstart
    exact monthStart_strictMono.injective hstart
  · intro h
    simp only [periodOf, Admission.usagePeriodStart, Admission.Instant.ofMicros, h]

/-- The bounds of a period select the times that are charged to it. -/
theorem periodOf_eq_iff_bounds {s t : ℕ} : periodOf s = periodOf t ↔
    (periodOf t).toMicros ≤ s ∧ s < (periodOf t).nextMonth.toMicros := by
  rw [periodOf_eq_iff, toMicros_periodOf, toMicros_nextMonth]
  exact monthOf_eq_iff

end Periods

/-- The units of usage; those of the finished runs are `UsageUnit`. -/
inductive LedgerUnit where
  | agentAdmission | trigger
  | run (unit : UsageUnit)
deriving DecidableEq, Repr

namespace LedgerUnit

def name : LedgerUnit → String
  | agentAdmission => "agent_admission"
  | trigger => "trigger"
  | run .modelToken => "model_token"
  | run .searchRequest => "search_request"
  | run .runtimeMillisecond => "runtime_millisecond"
  | run .storageByte => "storage_byte"

/-- `USAGE_UNITS`. -/
def all : List LedgerUnit := [agentAdmission, trigger] ++ UsageUnit.all.map run

theorem mem_all (u : LedgerUnit) : u ∈ all := by
  cases u with
  | agentAdmission => decide
  | trigger => decide
  | run u => cases u <;> decide

end LedgerUnit

inductive TriggerKind where
  | manual | cron
deriving DecidableEq, Repr

def TriggerKind.name : TriggerKind → String
  | manual => "manual"
  | cron => "cron"

/-- The idempotency keys of the ledger. A digest of a kind and an identity stands for the two. -/
inductive LedgerKey where
  | agentAdmission (taskId : ℕ)
  | candidateReview (reviewId : ℕ)
  | monitorTrigger (monitorId : ℕ) (kind : TriggerKind) (identity : String)
  | reconcileTrigger (triggerId : ℕ)
  | runUsage (runId : ℕ) (unit : UsageUnit)
deriving DecidableEq, Repr

/-- The text of a key. -/
def LedgerKey.text : LedgerKey → String
  | agentAdmission taskId => s!"agent-admission:{taskId}"
  | candidateReview reviewId => s!"candidate-review-admission:{reviewId}"
  | monitorTrigger monitorId kind identity =>
      s!"monitor-trigger-usage:{monitorId}:{kind.name}:{identity}"
  | reconcileTrigger triggerId => s!"reconcile-monitor-trigger:{triggerId}"
  | runUsage runId unit => s!"run-usage:{runId}:" ++ (LedgerUnit.run unit).name

/-- What an entry is charged for, as its `resource_type` and `resource_id` say. -/
inductive UsageResource where
  | task (id : ℕ) | improvementReview (id : ℕ) | monitorTrigger (id : ℕ) | run (id : ℕ)
deriving DecidableEq, Repr

def UsageResource.id : UsageResource → ℕ
  | task id | improvementReview id | monitorTrigger id | run id => id

structure UsageFact where
  key : LedgerKey
  resource : UsageResource
  unit : LedgerUnit
  quantity : ℕ
  sourceReceiptHash : String
deriving DecidableEq, Repr

structure UsageLedgerEntry extends UsageFact where
  triggerId : Option ℕ
  periodStart : Admission.Instant
deriving DecidableEq

namespace UsageLedger

variable (ledger : List UsageLedgerEntry)

def inPeriod (period : Admission.Instant) : List UsageLedgerEntry :=
  ledger.filter fun e => e.periodStart = period

/-- `UsageGovernanceRepository.total`. -/
def total (unit : LedgerUnit) (period : Admission.Instant) : ℕ :=
  (((inPeriod ledger period).filter fun e => e.unit = unit).map (·.quantity)).sum

/-- `append_fact`. -/
def append (entry : UsageLedgerEntry) : List UsageLedgerEntry :=
  if ledger.any fun e => e.key == entry.key then ledger else ledger ++ [entry]

variable {ledger} {entry e : UsageLedgerEntry} {period : Admission.Instant} {unit : LedgerUnit}

theorem total_append (ledger more : List UsageLedgerEntry) (unit : LedgerUnit)
    (period : Admission.Instant) :
    total (ledger ++ more) unit period = total ledger unit period + total more unit period := by
  simp only [total, inPeriod, List.filter_append, List.map_append, List.sum_append]

theorem append_of_taken (h : ∃ e ∈ ledger, e.key = entry.key) : append ledger entry = ledger := by
  rw [append, if_pos]
  simpa using h

theorem append_of_fresh (h : ∀ e ∈ ledger, e.key ≠ entry.key) :
    append ledger entry = ledger ++ [entry] := by
  rw [append, if_neg]
  simpa using h

theorem mem_append_iff : e ∈ append ledger entry ↔
    e ∈ ledger ∨ (e = entry ∧ ∀ e' ∈ ledger, e'.key ≠ entry.key) := by
  by_cases h : ∃ e' ∈ ledger, e'.key = entry.key
  · rw [append_of_taken h]
    refine ⟨Or.inl, ?_⟩
    rintro (hmem | ⟨-, hfresh⟩)
    · exact hmem
    · obtain ⟨e', he', hkey⟩ := h
      exact absurd hkey (hfresh e' he')
  · have hfresh : ∀ e' ∈ ledger, e'.key ≠ entry.key := fun e' he' hkey => h ⟨e', he', hkey⟩
    rw [append_of_fresh hfresh, List.mem_append, List.mem_singleton]
    exact or_congr_right (and_iff_left hfresh).symm

theorem nodup_append (h : (ledger.map (·.key)).Nodup) :
    ((append ledger entry).map (·.key)).Nodup := by
  by_cases htaken : ∃ e' ∈ ledger, e'.key = entry.key
  · rw [append_of_taken htaken]
    exact h
  · have hfresh : ∀ e' ∈ ledger, e'.key ≠ entry.key := fun e' he' hkey => htaken ⟨e', he', hkey⟩
    rw [append_of_fresh hfresh, List.map_append, List.nodup_append]
    refine ⟨h, List.nodup_singleton _, ?_⟩
    rintro k hk k' hk' rfl
    obtain ⟨e', he', rfl⟩ := List.mem_map.mp hk
    rw [List.map_singleton, List.mem_singleton] at hk'
    exact hfresh e' he' hk'

theorem total_singleton (hunit : entry.unit = unit) (hperiod : entry.periodStart = period) :
    total [entry] unit period = entry.quantity := by
  simp [total, inPeriod, hunit, hperiod]

theorem total_singleton_other (h : entry.periodStart ≠ period) : total [entry] unit period = 0 := by
  simp [total, inPeriod, h]

theorem total_append_other (h : entry.unit ≠ unit) :
    total (append ledger entry) unit period = total ledger unit period := by
  unfold append
  split_ifs
  · rfl
  · rw [total_append]
    simp [total, inPeriod, List.filter_cons, h, apply_ite]

section AppendAll

variable {α : Type*} {entryOf : α → UsageLedgerEntry} {l : List α}

/-- Appends entries one after the other. -/
def appendAll (entryOf : α → UsageLedgerEntry) (ledger : List UsageLedgerEntry) (l : List α) :
    List UsageLedgerEntry :=
  l.foldl (fun ledger a => append ledger (entryOf a)) ledger

theorem appendAll_cons (ledger : List UsageLedgerEntry) (a : α) (l : List α) :
    appendAll entryOf ledger (a :: l) = appendAll entryOf (append ledger (entryOf a)) l := rfl

theorem nodup_appendAll (h : (ledger.map (·.key)).Nodup) :
    ((appendAll entryOf ledger l).map (·.key)).Nodup := by
  induction l generalizing ledger with
  | nil => exact h
  | cons a l ih => exact ih (nodup_append h)

theorem total_appendAll_other (h : ∀ a ∈ l, (entryOf a).unit ≠ unit) :
    total (appendAll entryOf ledger l) unit period = total ledger unit period := by
  induction l generalizing ledger with
  | nil => rfl
  | cons a l ih =>
      rw [appendAll_cons, ih fun a' ha' => h a' (List.mem_cons_of_mem _ ha'),
        total_append_other (h a List.mem_cons_self)]

theorem mem_appendAll_of_mem (h : e ∈ ledger) : e ∈ appendAll entryOf ledger l := by
  induction l generalizing ledger with
  | nil => exact h
  | cons a l ih => exact ih (mem_append_iff.mpr (.inl h))

/-- An entry was there before, or is one of those appended. -/
theorem mem_of_mem_appendAll (h : e ∈ appendAll entryOf ledger l) :
    e ∈ ledger ∨ ∃ a ∈ l, e = entryOf a := by
  induction l generalizing ledger with
  | nil => exact .inl h
  | cons a l ih =>
      obtain hmem | ⟨a', ha', rfl⟩ := ih h
      · obtain hmem | ⟨rfl, -⟩ := mem_append_iff.mp hmem
        · exact .inl hmem
        · exact .inr ⟨a, List.mem_cons_self, rfl⟩
      · exact .inr ⟨a', List.mem_cons_of_mem _ ha', rfl⟩

end AppendAll

end UsageLedger

/-- The row of an entitlement, with the columns that the monitors and the reviews read. -/
structure Entitlement extends Admission.WorkspaceEntitlement where
  allowsCandidateReview : Bool
  activeMonitorLimit : ℕ
  minIntervalSeconds : ℕ
  monthlyTriggerLimit : ℕ
  positive : 1 ≤ minIntervalSeconds ∧ 1 ≤ maxConcurrentTasks

end CryptoAlert
