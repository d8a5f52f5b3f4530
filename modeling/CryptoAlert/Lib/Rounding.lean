import Mathlib.Data.Int.Log
import Mathlib.Data.Rat.Floor
import Mathlib.Tactic.Ring

/-!
# Rounding to significant digits

Decimal arithmetic of a fixed precision: the exact result of an operation is rounded to the
nearest number with so many digits, half to even. A number that has no more digits is not
changed.
-/

namespace CryptoAlert.Rounding

/-- The nearest integer, and the even one of two that are equally near. -/
def halfEven (q : ℚ) : ℤ :=
  if Int.fract q < 1 / 2 then ⌊q⌋
  else if 1 / 2 < Int.fract q then ⌊q⌋ + 1
  else if ⌊q⌋ % 2 = 0 then ⌊q⌋ else ⌊q⌋ + 1

/-- The exponent of the last of `digits` digits of a number. -/
def lastPlace (digits : ℕ) (q : ℚ) : ℤ := Int.log 10 |q| + 1 - digits

def significant (digits : ℕ) (q : ℚ) : ℚ :=
  halfEven (q / 10 ^ lastPlace digits q) * 10 ^ lastPlace digits q

/-- At most `digits` significant digits. -/
def HasDigits (digits : ℕ) (q : ℚ) : Prop :=
  ∃ c e : ℤ, |c| < 10 ^ digits ∧ q = c * 10 ^ e

@[simp] theorem halfEven_intCast (c : ℤ) : halfEven c = c := by
  simp [halfEven]

theorem HasDigits.scaled {digits : ℕ} {q : ℚ} (h : HasDigits digits q) (k : ℤ) :
    HasDigits digits (q * 10 ^ k) := by
  obtain ⟨c, e, hc, rfl⟩ := h
  refine ⟨c, e + k, hc, ?_⟩
  rw [zpow_add₀ (by norm_num), mul_assoc]

theorem HasDigits.neg {digits : ℕ} {q : ℚ} (h : HasDigits digits q) : HasDigits digits (-q) := by
  obtain ⟨c, e, hc, rfl⟩ := h
  exact ⟨-c, e, by rwa [abs_neg], by push_cast; ring⟩

theorem lastPlace_le {digits : ℕ} {c e : ℤ} (hc : |c| < 10 ^ digits) (hne : c ≠ 0) :
    lastPlace digits (c * 10 ^ e) ≤ e := by
  have habs : |(c : ℚ) * 10 ^ e| = |(c : ℚ)| * 10 ^ e := by
    rw [abs_mul, abs_of_pos (zpow_pos (by norm_num) e : (0 : ℚ) < 10 ^ e)]
  have hpos : (0 : ℚ) < |(c : ℚ)| * 10 ^ e := by
    have hcast : (c : ℚ) ≠ 0 := by exact_mod_cast hne
    exact mul_pos (abs_pos.mpr hcast) (zpow_pos (by norm_num) e)
  have hbound : |(c : ℚ)| * 10 ^ e < 10 ^ ((digits : ℤ) + e) := by
    rw [zpow_add₀ (by norm_num), zpow_natCast]
    have hcq : |(c : ℚ)| < 10 ^ digits := by exact_mod_cast hc
    exact mul_lt_mul_of_pos_right hcq (zpow_pos (by norm_num) e)
  have hlog : Int.log 10 (|(c : ℚ)| * 10 ^ e) < digits + e := by
    by_contra hge
    have hle : (10 : ℚ) ^ ((digits : ℤ) + e) ≤ |(c : ℚ)| * 10 ^ e :=
      (Int.zpow_le_iff_le_log (by norm_num) hpos).mpr (not_lt.mp hge)
    exact absurd hbound (not_lt.mpr hle)
  unfold lastPlace
  rw [habs]
  omega

/-- A number that has no more digits than the precision is kept as it is. -/
theorem significant_of_hasDigits {digits : ℕ} {q : ℚ} (h : HasDigits digits q) :
    significant digits q = q := by
  obtain ⟨c, e, hc, rfl⟩ := h
  by_cases hne : c = 0
  · simp [hne, significant, halfEven]
  have hle := lastPlace_le (e := e) hc hne
  unfold significant
  generalize lastPlace digits ((c : ℚ) * 10 ^ e) = p at hle ⊢
  have hzero : (10 : ℚ) ^ p ≠ 0 := zpow_ne_zero p (by norm_num)
  have hquotient : (c : ℚ) * 10 ^ e / 10 ^ p = ((c * 10 ^ (e - p).toNat : ℤ) : ℚ) := by
    rw [div_eq_iff hzero]
    push_cast
    rw [← zpow_natCast, Int.toNat_of_nonneg (by omega), mul_assoc, ← zpow_add₀ (by norm_num)]
    congr 2
    omega
  rw [hquotient, halfEven_intCast, ← hquotient, div_mul_cancel₀ _ hzero]

end CryptoAlert.Rounding
