import CryptoAlert.Graph.State
import CryptoAlert.Lib.Budgets

/-!
# The retry policies of the providers

`RetryPolicy` owns the retries of the market provider, `SearchRetryPolicy` those of the search
providers, with one executor for calls that block and one for calls that are awaited. The clock is
asked at the points named in the source; a call and a sleep have a start and a finish of their own,
so the clock may move on at every point. Times are exact rationals.
-/

namespace CryptoAlert

open Budgets (Activity)

/-- `backoff_seconds[min(index, len(backoff_seconds) - 1)]` -/
def backoffAt (backoffSeconds : List ℚ) (index : ℕ) : ℚ :=
  backoffSeconds.getD (min index (backoffSeconds.length - 1)) 0

/-- What a run does until it returns or raises. -/
structure RetryRun (β ρ : Type) where
  activities : List Activity
  /-- What it hands to `record_attempt`. -/
  records : List ρ
  result : β
  finish : ℚ

def RetryRun.after {β ρ : Type} (run : RetryRun β ρ) (activities : List Activity)
    (records : List ρ) : RetryRun β ρ :=
  { run with activities := activities ++ run.activities, records := records ++ run.records }

structure RetryPolicy where
  maxAttempts : ℕ
  totalBudgetSeconds : ℚ
  backoffSeconds : List ℚ
  attempts : 1 ≤ maxAttempts ∧ maxAttempts ≤ 3
  budget : 0 < totalBudgetSeconds ∧ totalBudgetSeconds ≤ 10
  backoff : backoffSeconds ≠ [] ∧ ∀ delay ∈ backoffSeconds, 0 ≤ delay

/-- `RetryPolicy.__post_init__` -/
def RetryPolicy.create (maxAttempts : ℕ) (totalBudgetSeconds : ℚ) (backoffSeconds : List ℚ) :
    Except String RetryPolicy :=
  if hlimits : (1 ≤ maxAttempts ∧ maxAttempts ≤ 3) ∧
      0 < totalBudgetSeconds ∧ totalBudgetSeconds ≤ 10 then
    if hbackoff : backoffSeconds ≠ [] ∧ ∀ delay ∈ backoffSeconds, 0 ≤ delay then
      .ok ⟨maxAttempts, totalBudgetSeconds, backoffSeconds, hlimits.1, hlimits.2, hbackoff⟩
    else .error "provider retry backoff must contain non-negative delays"
  else .error ("provider retry budget requires at least 1 attempt, a positive budget, " ++
    "and allows at most 3 attempts and 10 seconds")

/-- How a call of the operation ends. Any other exception passes through the policy. -/
inductive ProviderOutcome (α : Type) where
  | returned (value : α)
  | unavailable (exc : ProviderUnavailable)
  | crashed

inductive ProviderResult (α : Type) where
  | returned (value : α)
  | unavailable (exc : ProviderUnavailable)
  | crashed
  | runtimeError (message : String)

namespace RetryPolicy

variable {α : Type} (policy : RetryPolicy) (clock : ℕ → ℚ) (operation : ℕ → ℚ → ProviderOutcome α)

/-- The end of `execute`, behind the loop. -/
def exhausted : Option ProviderUnavailable → ProviderResult α
  | some lastError => .unavailable { lastError with retryExhausted := lastError.retryable }
  | none => .runtimeError "retry policy exhausted before its first attempt"

/-- The loop of `execute` with so many rounds to go. The clock has been asked up to `tick`. -/
def loop (deadline : ℚ) : ℕ → ℕ → ℕ → Option ProviderUnavailable →
    RetryRun (ProviderResult α) Empty
  | 0, _, tick, lastError => ⟨[], [], exhausted lastError, clock tick⟩
  | left + 1, attemptIndex, tick, lastError =>
    let remaining := deadline - clock tick
    if remaining ≤ 0 then ⟨[], [], exhausted lastError, clock (tick + 1)⟩
    else
      let call : Activity := ⟨.call, clock tick, remaining, clock (tick + 1), clock (tick + 2)⟩
      match operation attemptIndex remaining with
      | .returned value => ⟨[call], [], .returned value, clock (tick + 3)⟩
      | .crashed => ⟨[call], [], .crashed, clock (tick + 3)⟩
      | .unavailable raised =>
        let exc := { raised with attempt := some (attemptIndex + 1 : ℤ) }
        if ¬exc.retryable then
          ⟨[call], [], .unavailable { exc with retryExhausted := false }, clock (tick + 3)⟩
        else if policy.maxAttempts ≤ attemptIndex + 1 then
          ⟨[call], [], .unavailable { exc with retryExhausted := true }, clock (tick + 3)⟩
        else
          let delay := backoffAt policy.backoffSeconds attemptIndex
          let remaining := deadline - clock (tick + 3)
          if remaining ≤ delay then ⟨[call], [], exhausted (some exc), clock (tick + 4)⟩
          else
            let sleep : Activity :=
              ⟨.sleep, clock (tick + 3), delay, clock (tick + 4), clock (tick + 5)⟩
            (loop deadline left (attemptIndex + 1) (tick + 6) (some exc)).after [call, sleep] []

def execute : RetryRun (ProviderResult α) Empty :=
  policy.loop clock operation (clock 0 + policy.totalBudgetSeconds) policy.maxAttempts 0 1 none

end RetryPolicy

inductive SearchOutcomeName where
  | succeeded | retryableFailure | terminalFailure
deriving DecidableEq, Repr

structure SearchAttempt where
  provider : String
  attempt : ℕ
  correlationId : Option String
  remainingBudgetSeconds : ℚ
  elapsedSeconds : ℚ
  outcome : SearchOutcomeName
  errorType : Option String := none
deriving DecidableEq

structure SearchRetryPolicy where
  maxAttempts : ℕ
  totalBudgetSeconds : ℚ
  backoffSeconds : List ℚ
  firstAttemptBudgetShare : ℚ
  attempts : 1 ≤ maxAttempts ∧ maxAttempts ≤ 3
  budget : 0 < totalBudgetSeconds ∧ totalBudgetSeconds ≤ 30
  backoff : backoffSeconds ≠ [] ∧ ∀ delay ∈ backoffSeconds, 0 ≤ delay
  share : 0 < firstAttemptBudgetShare ∧ firstAttemptBudgetShare ≤ 1

/-- `SearchRetryPolicy.__post_init__` -/
def SearchRetryPolicy.create (maxAttempts : ℕ) (totalBudgetSeconds : ℚ)
    (backoffSeconds : List ℚ) (firstAttemptBudgetShare : ℚ) : Except String SearchRetryPolicy :=
  if hlimits : (1 ≤ maxAttempts ∧ maxAttempts ≤ 3) ∧
      0 < totalBudgetSeconds ∧ totalBudgetSeconds ≤ 30 then
    if hbackoff : backoffSeconds ≠ [] ∧ ∀ delay ∈ backoffSeconds, 0 ≤ delay then
      if hshare : 0 < firstAttemptBudgetShare ∧ firstAttemptBudgetShare ≤ 1 then
        .ok ⟨maxAttempts, totalBudgetSeconds, backoffSeconds, firstAttemptBudgetShare,
          hlimits.1, hlimits.2, hbackoff, hshare⟩
      else .error "search first-attempt budget share must be in (0, 1]"
    else .error "search retry backoff must contain non-negative delays"
  else .error "search retry budget allows at most 3 attempts and 30 seconds"

structure ResearchUnavailable where
  message : String
  provider : String
  retryable : Bool := false
  retryAfterSeconds : Option ℚ := none
  errorType : Option String := none
  attempt : Option ℤ := none
deriving DecidableEq

/-- `exc.error_type or type(exc).__name__` -/
def ResearchUnavailable.typeName (exc : ResearchUnavailable) : String :=
  match exc.errorType with
  | some errorType => if errorType = "" then "ResearchUnavailable" else errorType
  | none => "ResearchUnavailable"

inductive SearchOutcome (α : Type) where
  | returned (value : α)
  | unavailable (exc : ResearchUnavailable)
  | crashed
deriving DecidableEq

namespace SearchRetryPolicy

variable {α : Type} (policy : SearchRetryPolicy)

/-- `_attempt_timeout_seconds` -/
def attemptTimeoutSeconds (remainingBudgetSeconds : ℚ) (attempt : ℕ) : ℚ :=
  let attemptsRemaining := policy.maxAttempts - attempt + 1
  let futureBackoff := ((List.range' (attempt - 1) (policy.maxAttempts - attempt)).map
    (backoffAt policy.backoffSeconds)).sum
  let reservedBackoff := min futureBackoff (remainingBudgetSeconds / 2)
  let usableBudget := remainingBudgetSeconds - reservedBackoff
  if attemptsRemaining = 3 then usableBudget * policy.firstAttemptBudgetShare
  else usableBudget / attemptsRemaining

variable (clock : ℕ → ℚ) (operation : ℚ → ℕ → SearchOutcome α)
  (provider : String) (correlationId : Option String)

/-- The end of an executor, behind its loop. -/
def exhausted : Option ResearchUnavailable → SearchOutcome α
  | some lastError => .unavailable lastError
  | none => .unavailable {
      message := "search retry budget exhausted before its first attempt"
      provider
      errorType := some "RetryBudgetExhausted" }

/-- The loop of `execute` with so many rounds to go. -/
def loop (deadline : ℚ) : ℕ → ℕ → ℕ → Option ResearchUnavailable →
    RetryRun (SearchOutcome α) SearchAttempt
  | 0, _, tick, lastError => ⟨[], [], exhausted provider lastError, clock tick⟩
  | left + 1, attempt, tick, lastError =>
    let remainingBefore := deadline - clock tick
    if remainingBefore ≤ 0 then ⟨[], [], exhausted provider lastError, clock (tick + 1)⟩
    else
      let attemptStarted := clock (tick + 1)
      let timeout := policy.attemptTimeoutSeconds remainingBefore attempt
      let call : Activity := ⟨.call, clock tick, timeout, clock (tick + 2), clock (tick + 3)⟩
      match operation timeout attempt with
      | .crashed => ⟨[call], [], .crashed, clock (tick + 4)⟩
      | .unavailable raised =>
        let exc := { raised with attempt := some (attempt : ℤ) }
        let remainingAfter := deadline - clock (tick + 4)
        let backoff := backoffAt policy.backoffSeconds (attempt - 1)
        let retryAfter := max 0 (exc.retryAfterSeconds.getD 0)
        let delay := max backoff retryAfter
        let canRetry : Bool := exc.retryable ∧ attempt < policy.maxAttempts ∧
          0 < remainingAfter ∧ delay < remainingAfter
        let recorded : SearchAttempt := {
          provider, attempt, correlationId
          remainingBudgetSeconds := max 0 remainingBefore
          elapsedSeconds := max 0 (clock (tick + 5) - attemptStarted)
          outcome := if canRetry then .retryableFailure else .terminalFailure
          errorType := some exc.typeName }
        if ¬canRetry then ⟨[call], [recorded], .unavailable exc, clock (tick + 6)⟩
        else
          let sleep : Activity :=
            ⟨.sleep, clock (tick + 4), delay, clock (tick + 6), clock (tick + 7)⟩
          (loop deadline left (attempt + 1) (tick + 8) (some exc)).after [call, sleep] [recorded]
      | .returned value =>
        let recorded : SearchAttempt := {
          provider, attempt, correlationId
          remainingBudgetSeconds := max 0 remainingBefore
          elapsedSeconds := max 0 (clock (tick + 4) - attemptStarted)
          outcome := .succeeded }
        ⟨[call], [recorded], .returned value, clock (tick + 5)⟩

def execute : RetryRun (SearchOutcome α) SearchAttempt :=
  let startedAt := clock 0
  policy.loop clock operation provider correlationId (startedAt + policy.totalBudgetSeconds)
    policy.maxAttempts 1 1 none

/-- The loop of `execute_async`, whose calls and sleeps are awaited. -/
def loopAsync (deadline : ℚ) : ℕ → ℕ → ℕ → Option ResearchUnavailable →
    RetryRun (SearchOutcome α) SearchAttempt
  | 0, _, tick, lastError => ⟨[], [], exhausted provider lastError, clock tick⟩
  | left + 1, attempt, tick, lastError =>
    let remainingBefore := deadline - clock tick
    if remainingBefore ≤ 0 then ⟨[], [], exhausted provider lastError, clock (tick + 1)⟩
    else
      let attemptStarted := clock (tick + 1)
      let timeout := policy.attemptTimeoutSeconds remainingBefore attempt
      let awaited : Activity := ⟨.call, clock tick, timeout, clock (tick + 2), clock (tick + 3)⟩
      match operation timeout attempt with
      | .crashed => ⟨[awaited], [], .crashed, clock (tick + 4)⟩
      | .unavailable raised =>
        let exc := { raised with attempt := some (attempt : ℤ) }
        let remainingAfter := deadline - clock (tick + 4)
        let backoff := backoffAt policy.backoffSeconds (attempt - 1)
        let retryAfter := max 0 (exc.retryAfterSeconds.getD 0)
        let delay := max backoff retryAfter
        let canRetry : Bool := exc.retryable ∧ attempt < policy.maxAttempts ∧
          0 < remainingAfter ∧ delay < remainingAfter
        let recorded : SearchAttempt := {
          provider, attempt, correlationId
          remainingBudgetSeconds := max 0 remainingBefore
          elapsedSeconds := max 0 (clock (tick + 5) - attemptStarted)
          outcome := if canRetry then .retryableFailure else .terminalFailure
          errorType := some exc.typeName }
        if ¬canRetry then ⟨[awaited], [recorded], .unavailable exc, clock (tick + 6)⟩
        else
          let asyncSleep : Activity :=
            ⟨.sleep, clock (tick + 4), delay, clock (tick + 6), clock (tick + 7)⟩
          (loopAsync deadline left (attempt + 1) (tick + 8) (some exc)).after
            [awaited, asyncSleep] [recorded]
      | .returned value =>
        let recorded : SearchAttempt := {
          provider, attempt, correlationId
          remainingBudgetSeconds := max 0 remainingBefore
          elapsedSeconds := max 0 (clock (tick + 4) - attemptStarted)
          outcome := .succeeded }
        ⟨[awaited], [recorded], .returned value, clock (tick + 5)⟩

def executeAsync : RetryRun (SearchOutcome α) SearchAttempt :=
  policy.loopAsync clock operation provider correlationId (clock 0 + policy.totalBudgetSeconds)
    policy.maxAttempts 1 1 none

end SearchRetryPolicy

end CryptoAlert
