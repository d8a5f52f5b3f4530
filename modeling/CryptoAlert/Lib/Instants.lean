import CryptoAlert.Lib.Calendar
import CryptoAlert.Lib.Numerals

/-!
# Instants as texts

The text of an instant in UTC, to the microsecond, as `isoformat` writes it; the fraction is left
out where it is zero, and the offset is written as `Z`.
-/

namespace CryptoAlert.Calendar

open Numerals

def second : ℕ := 1000000

def minute : ℕ := 60 * second

def hour : ℕ := 60 * minute

/-- An instant of a year up to 9999. -/
def InRange (t : ℕ) : Prop := monthOf t < 9999 * 12

instance (t : ℕ) : Decidable (InRange t) := inferInstanceAs (Decidable (_ < _))

/-- The parts of an instant. -/
structure Parts where
  year : ℕ
  month : ℕ
  dayOfMonth : ℕ
  hours : ℕ
  minutes : ℕ
  seconds : ℕ
  micros : ℕ
deriving DecidableEq

/-- The parts of an instant, with month and day counted from one. -/
def parts (t : ℕ) : Parts where
  year := monthOf t / 12 + 1
  month := monthOf t % 12 + 1
  dayOfMonth := (t - monthStart (monthOf t)) / day + 1
  hours := (t - monthStart (monthOf t)) % day / hour
  minutes := (t - monthStart (monthOf t)) % day % hour / minute
  seconds := (t - monthStart (monthOf t)) % day % hour % minute / second
  micros := (t - monthStart (monthOf t)) % day % hour % minute % second

namespace Parts

variable (p : Parts)

/-- The ranges that a calendar date and a time of day have. -/
def IsValid : Prop :=
  (1 ≤ p.year ∧ p.year ≤ 9999) ∧ (1 ≤ p.month ∧ p.month ≤ 12) ∧
    (1 ≤ p.dayOfMonth ∧ p.dayOfMonth ≤ daysInMonth p.year p.month) ∧
    p.hours < 24 ∧ p.minutes < 60 ∧ p.seconds < 60

instance : Decidable p.IsValid := inferInstanceAs (Decidable (_ ∧ _))

/-- The instant with the given parts. -/
def instant : ℕ :=
  monthStart ((p.year - 1) * 12 + (p.month - 1)) + ((p.dayOfMonth - 1) * day + (p.hours * hour +
    (p.minutes * minute + (p.seconds * second + p.micros))))

/-- The text of the fraction and the offset. -/
def fraction : List Char :=
  if p.micros = 0 then ['Z'] else '.' :: (write 10 6 p.micros ++ ['Z'])

/-- `isoformat().replace("+00:00", "Z")`. -/
def text : List Char :=
  write 10 4 p.year ++ '-' :: (write 10 2 p.month ++ '-' :: (write 10 2 p.dayOfMonth ++
    'T' :: (write 10 2 p.hours ++ ':' :: (write 10 2 p.minutes ++
      ':' :: (write 10 2 p.seconds ++ p.fraction)))))

/-- Reads the fraction, if there is one. -/
def scanFraction : List Char → Option (ℕ × List Char)
  | '.' :: s => scan 10 6 s
  | s => some (0, s)

/-- `fromisoformat` of a text whose offset is written as `Z`. -/
def ofText (s : List Char) : Option Parts := do
  let (year, s) ← scan 10 4 s
  let (month, s) ← scan 10 2 (← expect '-' s)
  let (dayOfMonth, s) ← scan 10 2 (← expect '-' s)
  let (hours, s) ← scan 10 2 (← expect 'T' s)
  let (minutes, s) ← scan 10 2 (← expect ':' s)
  let (seconds, s) ← scan 10 2 (← expect ':' s)
  let (micros, s) ← scanFraction s
  let p : Parts := ⟨year, month, dayOfMonth, hours, minutes, seconds, micros⟩
  if s = ['Z'] ∧ p.IsValid then some p else none

end Parts

theorem instant_parts (t : ℕ) : (parts t).instant = t := by
  have hle := monthStart_monthOf_le t
  have hmonth : monthOf t / 12 * 12 + monthOf t % 12 = monthOf t := Nat.div_add_mod' _ _
  simp only [Parts.instant, parts, Nat.add_sub_cancel, hmonth]
  rw [Nat.div_add_mod', Nat.div_add_mod', Nat.div_add_mod', Nat.div_add_mod']
  omega

theorem isValid_parts {t : ℕ} (h : InRange t) : (parts t).IsValid := by
  have hle := monthStart_monthOf_le t
  have hmonth : monthOf t < 9999 * 12 := h
  have hrest : t - monthStart (monthOf t) < monthLength (monthOf t) := by
    have hlt := lt_monthStart_succ_monthOf t
    rw [monthStart_succ] at hlt
    omega
  have hday : (t - monthStart (monthOf t)) / day < daysInMonth (monthOf t / 12 + 1)
      (monthOf t % 12 + 1) := by
    rw [Nat.div_lt_iff_lt_mul day_pos]
    exact hrest
  have hhours : (t - monthStart (monthOf t)) % day / hour < 24 :=
    Nat.div_lt_of_lt_mul (Nat.mod_lt _ day_pos)
  have hminutes : (t - monthStart (monthOf t)) % day % hour / minute < 60 :=
    Nat.div_lt_of_lt_mul (Nat.mod_lt _ (by decide))
  have hseconds : (t - monthStart (monthOf t)) % day % hour % minute / second < 60 :=
    Nat.div_lt_of_lt_mul (Nat.mod_lt _ (by decide))
  exact ⟨⟨Nat.le_add_left 1 _, by change monthOf t / 12 + 1 ≤ 9999; omega⟩,
    ⟨Nat.le_add_left 1 _, by change monthOf t % 12 + 1 ≤ 12; omega⟩,
    ⟨Nat.le_add_left 1 _, hday⟩, hhours, hminutes, hseconds⟩

theorem micros_parts_lt (t : ℕ) : (parts t).micros < 10 ^ 6 := Nat.mod_lt _ (by decide)

namespace Parts

variable {p : Parts}

theorem scanFraction_fraction (hmicros : p.micros < 10 ^ 6) :
    scanFraction p.fraction = some (p.micros, ['Z']) := by
  rw [fraction]
  by_cases hzero : p.micros = 0
  · rw [if_pos hzero, hzero]
    rfl
  · rw [if_neg hzero, scanFraction, scan_write (by decide) hmicros]

/-- A text that was written can be read. -/
theorem ofText_text (hvalid : p.IsValid) (hmicros : p.micros < 10 ^ 6) :
    ofText p.text = some p := by
  have hranges := hvalid
  obtain ⟨⟨-, hyear⟩, ⟨-, hmonth⟩, ⟨-, hday⟩, hhours, hminutes, hseconds⟩ := hranges
  have hlength : daysInMonth p.year p.month ≤ 31 := by
    unfold daysInMonth
    split_ifs <;> decide
  rw [ofText, text, scan_write (by decide) (by omega)]
  simp only [Option.bind_eq_bind, Option.bind_some, expect_cons]
  rw [scan_write (by decide) (by omega)]
  simp only [Option.bind_some, expect_cons]
  rw [scan_write (by decide) (by omega)]
  simp only [Option.bind_some, expect_cons]
  rw [scan_write (by decide) (by omega)]
  simp only [Option.bind_some, expect_cons]
  rw [scan_write (by decide) (by omega)]
  simp only [Option.bind_some, expect_cons]
  rw [scan_write (by decide) (by omega)]
  simp only [Option.bind_some]
  rw [scanFraction_fraction hmicros]
  simp only [Option.bind_some]
  exact if_pos ⟨trivial, hvalid⟩

end Parts

end CryptoAlert.Calendar
