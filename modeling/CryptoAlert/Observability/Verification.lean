import CryptoAlert.Lib.Transition
import CryptoAlert.Observability.Deliveries

/-!
# Verification workers

A worker takes one delivery at a time, asks the provider for its trace and reports the answer
with the fence of its lease. Workers may stop at any time, and leases expire while their holders
still work. All workers run with the same settings.
-/

namespace CryptoAlert

/-- The settings of `ObservabilityVerificationWorker`. -/
structure VerificationSettings where
  verifiers : List String
  langsmithProject : String
  leaseSeconds : ℕ
  retryDelay : ℕ
  maxAttempts : ℕ
  langsmithProject_valid : stripSpace langsmithProject ≠ ""
  leaseSeconds_valid : 3 ≤ leaseSeconds
  retryDelay_pos : 0 < retryDelay
  maxAttempts_pos : 1 ≤ maxAttempts

inductive VerificationOutcome where
  | verified | notVisible | retryableFailure | terminalFailure
deriving DecidableEq, Repr

structure ObservabilityVerificationResult where
  providerTraceId : Option String
  result : VerificationOutcome
  code : String
  errorType : Option String

/-- How the call of `verify` ends. -/
inductive VerifyOutcome where
  | returned (result : ObservabilityVerificationResult)
  | cancelled
  /-- `TypeError` or `ValueError`. -/
  | invalid
  | failed

namespace ObservabilityDeliveryLease

variable (lease : ObservabilityDeliveryLease)

/-- Whether `ObservabilityVerificationRequest` accepts the identity of the lease. -/
def hasValidRequest : Bool :=
  observabilityProviders.contains lease.provider && stripSpace lease.correlationId != "" &&
    (lease.provider == "langsmith" || lease.providerTraceId.any (stripSpace · != ""))

end ObservabilityDeliveryLease

namespace VerificationSettings

variable (settings : VerificationSettings) (lease : ObservabilityDeliveryLease) (now : ℕ)

/-- `_budget_error`. -/
def budgetError : Option String :=
  match lease.verificationDeadline with
  | none => some "hosted_verification_deadline_missing"
  | some deadline =>
      if deadline ≤ now then some "hosted_verification_deadline_exceeded"
      else if settings.maxAttempts ≤ lease.attemptCount then
        some "hosted_verification_attempts_exhausted"
      else none

/-- `_retry`. -/
def retry (code : String) (errorType : Option String) : DeliveryMark :=
  match settings.budgetError lease now with
  | some budgetError =>
      let errorType := match errorType with
        | some type => if type.isEmpty then "VerificationBudgetExhausted" else type
        | none => "VerificationBudgetExhausted"
      .terminal { code := budgetError, type := some errorType }
  | none => .retryable (now + settings.retryDelay) { code := code, type := errorType }

/-- `_finish`. Both places that look at the budget report its error in the same way. -/
def finish (result : ObservabilityVerificationResult) : DeliveryMark :=
  match result.result with
  | .verified =>
      match result.providerTraceId with
      | some traceId =>
          if traceId.isEmpty then
            .terminal {
              code := "hosted_verification_receipt_missing", type := some "ProtocolError" }
          else .verified traceId
      | none =>
          .terminal {
            code := "hosted_verification_receipt_missing", type := some "ProtocolError" }
  | .terminalFailure => .terminal { code := result.code, type := result.errorType }
  | .notVisible | .retryableFailure => settings.retry lease now result.code result.errorType

/-- `execute`: the mark of a turn, with the instant that it carries. -/
def execute (started finished : ℕ) (outcome : VerifyOutcome) : DeliveryMark × ℕ :=
  match settings.budgetError lease started with
  | some budgetError =>
      (.terminal { code := budgetError, type := some "VerificationBudgetExhausted" }, started)
  | none =>
      if lease.eventType ≠ "root_trace" ∨ lease.eventVersion ≠ 1 then
        (.terminal {
          code := "unsupported_observability_event", type := some "ConfigurationError" }, started)
      else if !settings.verifiers.contains lease.provider then
        (.terminal {
          code := "hosted_verifier_not_configured", type := some "ConfigurationError" }, started)
      else if !lease.hasValidRequest then
        (.terminal {
          code := "hosted_verification_identity_invalid", type := some "ConfigurationError" },
          finished)
      else
        match outcome with
        | .cancelled =>
            (settings.retry lease finished "worker_cancelled" (some "WorkerCancelled"), finished)
        | .invalid =>
            (.terminal {
              code := "hosted_verification_identity_invalid", type := some "ConfigurationError" },
              finished)
        | .failed =>
            (settings.retry lease finished "hosted_query_unexpected_failure"
              (some "UnexpectedVerificationError"), finished)
        | .returned result => (settings.finish lease finished result, finished)

end VerificationSettings

structure VerificationState where
  deliveries : List ObservabilityDelivery
  /-- The leases that workers hold and have not reported on. -/
  executions : List ObservabilityDeliveryLease

inductive VerificationLabel where
  | ensureIntents (workspaceId runId now : ℕ) (intents : List (ℕ × ObservabilityDeliveryIntent))
  | leaseDue (workerId : String) (now limit : ℕ) (locked : Deliveries.Locked)
  | execute (i started finished : ℕ) (outcome : VerifyOutcome)
  /-- A worker stops before its report is committed. -/
  | abandon (i : ℕ)
  | releaseOwnedLeases (workerId : String) (now : ℕ) (locked : List ℕ)

namespace VerificationState

/-- The state of a new installation. -/
def init : VerificationState := ⟨[], []⟩

variable (settings : VerificationSettings) (s : VerificationState)

def step : VerificationLabel → Option VerificationState
  | .ensureIntents workspaceId runId now intents =>
      (Deliveries.ensureIntents s.deliveries workspaceId runId now intents).map
        fun deliveries => { s with deliveries := deliveries }
  | .leaseDue workerId now limit locked => do
      guard (1 ≤ limit ∧ limit ≤ 100)
      let owner ← validateText workerId 255
      let leased := Deliveries.leaseDue s.deliveries owner now settings.leaseSeconds limit locked
      some { deliveries := leased.1, executions := s.executions ++ leased.2 }
  | .execute i started finished outcome => do
      let lease ← s.executions[i]?
      let mark := settings.execute lease started finished outcome
      some {
        deliveries := Deliveries.fencedTransition s.deliveries lease mark.1 mark.2
        executions := s.executions.eraseIdx i }
  | .abandon i => do
      let _ ← s.executions[i]?
      some { s with executions := s.executions.eraseIdx i }
  | .releaseOwnedLeases workerId now locked => do
      let owner ← validateText workerId 255
      some { s with deliveries := Deliveries.releaseOwnedLeases s.deliveries owner now locked }

end VerificationState

end CryptoAlert
