import Mathlib.Data.Nat.Notation

/-!
# Statuses of the persisted rows

The closed vocabularies that the check constraints of the tables allow.
-/

namespace CryptoAlert

/-- The status of a task or of a run. -/
inductive RunStatus where
  | queued | running | waitingHuman | succeeded | blocked | failed | cancelled
deriving DecidableEq, Repr

/-- `TERMINAL_RUN_STATUSES`. -/
def RunStatus.isTerminal : RunStatus → Bool
  | succeeded | blocked | failed | cancelled => true
  | queued | running | waitingHuman => false

end CryptoAlert
