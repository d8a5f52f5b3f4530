import Mathlib.Tactic.SplitIfs

/-!
# Attributes of rows that a session holds

A session loads a row, changes the loaded copy and, when it flushes, sends the attributes that
differ from what it loaded. The row may have been changed by others in the meantime.
-/

namespace CryptoAlert

variable {α : Type*} [DecidableEq α] {loaded new row : α}

/-- An attribute of the row after a flush of the copy `new`, which was loaded as `loaded`. -/
def sent (loaded new row : α) : α := if new = loaded then row else new

theorem sent_loaded : sent loaded new loaded = new := by
  by_cases h : new = loaded
  · rw [sent, if_pos h, h]
  · rw [sent, if_neg h]

/-- An attribute that the session did not change. -/
@[simp] theorem sent_same : sent loaded loaded row = row := if_pos rfl

theorem sent_of_ne (h : new ≠ loaded) : sent loaded new row = new := if_neg h

/-- An attribute holds the value that was sent or keeps its own. -/
theorem sent_eq_or : sent loaded new row = new ∨ sent loaded new row = row := by
  by_cases h : new = loaded
  · exact .inr (if_pos h)
  · exact .inl (if_neg h)

end CryptoAlert
