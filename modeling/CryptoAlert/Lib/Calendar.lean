import Mathlib.Data.Nat.Find
import Mathlib.Data.Nat.Notation
import Mathlib.Order.Monotone.Basic

/-!
# Months of the Gregorian calendar

Times are microseconds since the first day of year 1, in UTC. Months are numbered through, so
that month `n` is month `n % 12 + 1` of year `n / 12 + 1`.
-/

namespace CryptoAlert.Calendar

def isLeap (year : ℕ) : Bool :=
  year % 4 == 0 && (year % 100 != 0 || year % 400 == 0)

def daysInMonth (year month : ℕ) : ℕ :=
  if month = 2 then if isLeap year then 29 else 28
  else if month = 4 ∨ month = 6 ∨ month = 9 ∨ month = 11 then 30
  else 31

/-- The microseconds of a day. -/
def day : ℕ := 86400000000

def monthLength (n : ℕ) : ℕ := daysInMonth (n / 12 + 1) (n % 12 + 1) * day

/-- The first microsecond of a month. -/
def monthStart : ℕ → ℕ
  | 0 => 0
  | n + 1 => monthStart n + monthLength n

/-- The month that a time lies in; the search is bounded, as no month is shorter than 28 days. -/
def monthOf (t : ℕ) : ℕ := Nat.findGreatest (fun n => monthStart n ≤ t) (t / (28 * day))

theorem day_pos : 0 < day := by decide

theorem le_daysInMonth (year month : ℕ) : 28 ≤ daysInMonth year month := by
  unfold daysInMonth
  split_ifs <;> omega

theorem le_monthLength (n : ℕ) : 28 * day ≤ monthLength n :=
  Nat.mul_le_mul_right day (le_daysInMonth _ _)

theorem monthStart_succ (n : ℕ) : monthStart (n + 1) = monthStart n + monthLength n := rfl

theorem monthStart_strictMono : StrictMono monthStart := by
  apply strictMono_nat_of_lt_succ
  intro n
  have hlength := le_monthLength n
  have hday := day_pos
  rw [monthStart_succ]
  omega

theorem le_monthStart (n : ℕ) : n * (28 * day) ≤ monthStart n := by
  induction n with
  | zero => exact (Nat.zero_mul _).le
  | succ n ih =>
      rw [monthStart_succ, Nat.succ_mul]
      exact Nat.add_le_add ih (le_monthLength n)

theorem monthStart_monthOf_le (t : ℕ) : monthStart (monthOf t) ≤ t :=
  Nat.findGreatest_spec (P := fun n => monthStart n ≤ t) (Nat.zero_le _) (Nat.zero_le t)

theorem lt_monthStart_succ_monthOf (t : ℕ) : t < monthStart (monthOf t + 1) := by
  by_contra hle
  have hle : monthStart (monthOf t + 1) ≤ t := Nat.not_lt.mp hle
  have hbound : monthOf t + 1 ≤ t / (28 * day) := by
    rw [Nat.le_div_iff_mul_le (by decide)]
    exact (le_monthStart _).trans hle
  have hgreatest : monthOf t + 1 ≤ monthOf t :=
    Nat.le_findGreatest (P := fun n => monthStart n ≤ t) hbound hle
  omega

/-- A time lies in the month whose first microsecond is not after it and whose successor's is. -/
theorem monthOf_eq_iff {t n : ℕ} : monthOf t = n ↔ monthStart n ≤ t ∧ t < monthStart (n + 1) := by
  constructor
  · intro h
    rw [← h]
    exact ⟨monthStart_monthOf_le t, lt_monthStart_succ_monthOf t⟩
  · rintro ⟨hle, hlt⟩
    have hfirst : n < monthOf t + 1 :=
      monthStart_strictMono.lt_iff_lt.mp (hle.trans_lt (lt_monthStart_succ_monthOf t))
    have hsecond : monthOf t < n + 1 :=
      monthStart_strictMono.lt_iff_lt.mp ((monthStart_monthOf_le t).trans_lt hlt)
    omega

theorem monthOf_monthStart (n : ℕ) : monthOf (monthStart n) = n :=
  monthOf_eq_iff.mpr ⟨le_rfl, monthStart_strictMono n.lt_succ_self⟩

end CryptoAlert.Calendar
