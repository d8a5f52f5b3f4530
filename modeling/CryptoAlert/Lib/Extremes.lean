import Mathlib.Order.MinMax

/-!
# The largest and the smallest value of a list, with a default

Comparisons with an extreme are comparisons with some member of the list; an empty list counts as
the list of its default.
-/

namespace CryptoAlert

variable {α : Type*} [LinearOrder α]

def largest (default : α) : List α → α
  | [] => default
  | a :: l => l.foldl max a

def smallest (default : α) : List α → α
  | [] => default
  | a :: l => l.foldl min a

/-- The values that an extreme is taken of. -/
def orDefault (default : α) (l : List α) : List α := if l = [] then [default] else l

variable {l l' : List α} {d d' a x : α}

theorem le_foldl_max : x ≤ l.foldl max a ↔ x ≤ a ∨ ∃ b ∈ l, x ≤ b := by
  induction l generalizing a with
  | nil => simp
  | cons b l ih =>
      rw [List.foldl_cons, ih, le_max_iff, or_assoc]
      simp

theorem foldl_min_le : l.foldl min a ≤ x ↔ a ≤ x ∨ ∃ b ∈ l, b ≤ x := by
  induction l generalizing a with
  | nil => simp
  | cons b l ih =>
      rw [List.foldl_cons, ih, min_le_iff, or_assoc]
      simp

theorem le_largest : x ≤ largest d l ↔ ∃ b ∈ orDefault d l, x ≤ b := by
  cases l with
  | nil => simp [largest, orDefault]
  | cons a l =>
      rw [largest, le_foldl_max, orDefault, if_neg (List.cons_ne_nil a l)]
      simp

theorem smallest_le : smallest d l ≤ x ↔ ∃ b ∈ orDefault d l, b ≤ x := by
  cases l with
  | nil => simp [smallest, orDefault]
  | cons a l =>
      rw [smallest, foldl_min_le, orDefault, if_neg (List.cons_ne_nil a l)]
      simp

/-- The largest value is below another one exactly when every value is below some other. -/
theorem largest_le_largest : largest d l ≤ largest d' l' ↔
    ∀ a ∈ orDefault d l, ∃ b ∈ orDefault d' l', a ≤ b := by
  constructor
  · intro h a ha
    exact le_largest.mp (le_trans (le_largest.mpr ⟨a, ha, le_refl a⟩) h)
  · intro h
    obtain ⟨a, ha, hle⟩ := le_largest.mp (le_refl (largest d l))
    obtain ⟨b, hb, hab⟩ := h a ha
    exact le_largest.mpr ⟨b, hb, le_trans hle hab⟩

theorem smallest_le_smallest : smallest d l ≤ smallest d' l' ↔
    ∀ b ∈ orDefault d' l', ∃ a ∈ orDefault d l, a ≤ b := by
  constructor
  · intro h b hb
    exact smallest_le.mp (le_trans h (smallest_le.mpr ⟨b, hb, le_refl b⟩))
  · intro h
    obtain ⟨b, hb, hle⟩ := smallest_le.mp (le_refl (smallest d' l'))
    obtain ⟨a, ha, hab⟩ := h b hb
    exact smallest_le.mpr ⟨a, ha, le_trans hab hle⟩

end CryptoAlert
