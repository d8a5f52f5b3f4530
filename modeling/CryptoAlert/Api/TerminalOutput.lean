import CryptoAlert.Graph.State
import CryptoAlert.Lib.Table

/-!
# The terminal output of a graph run

The model `TerminalGraphOutput`, by which the product reads the final state of a run, and the
field rules of its error records. Texts are trimmed before their length and pattern are checked.
-/

namespace CryptoAlert

/-- The pattern `^[a-z][a-z0-9_]*$`. -/
def isErrorCode (s : List Char) : Bool :=
  match s with
  | [] => false
  | c :: rest => ('a' ≤ c && c ≤ 'z') &&
      rest.all fun d => ('a' ≤ d && d ≤ 'z') || ('0' ≤ d && d ≤ '9') || d == '_'

/-- The pattern `^[A-Za-z0-9._-]+$`, for a text that is not empty. -/
def isNameText (s : List Char) : Bool :=
  s.all fun c => c.isAlphanum || c == '.' || c == '_' || c == '-'

abbrev ErrorCode := {t : StrippedText 1 128 // isErrorCode t.text.toList = true}

abbrev NameText (max : ℕ) := {t : StrippedText 1 max // isNameText t.text.toList = true}

def ErrorCode.of? (s : String) : Option ErrorCode :=
  (StrippedText.of? 1 128 s).bind fun t =>
    if h : isErrorCode t.text.toList = true then some ⟨t, h⟩ else none

def NameText.of? (max : ℕ) (s : String) : Option (NameText max) :=
  (StrippedText.of? 1 max s).bind fun t =>
    if h : isNameText t.text.toList = true then some ⟨t, h⟩ else none

abbrev AttemptNumber := {n : ℤ // 1 ≤ n ∧ n ≤ 100}

def AttemptNumber.of? (n : ℤ) : Option AttemptNumber :=
  if h : 1 ≤ n ∧ n ≤ 100 then some ⟨n, h⟩ else none

structure GraphExecutionError where
  code : ErrorCode
  retryable : Bool
  provider : Option (NameText 64)
  errorType : Option (NameText 128)
  attempt : Option AttemptNumber
  endpoint : Option (NameText 128)
  fallbackFrom : Option (NameText 64)
  primaryAttempt : Option AttemptNumber
  correlationId : Option (StrippedText 1 255)
  field : Option (StrippedText 1 64)
  expected : Option (StrippedText 1 128)
  actual : Option (StrippedText 1 128)

/-- Validation of a field that may be absent. -/
def validateOptional {α β : Type} (validate : α → Option β) : Option α → Option (Option β)
  | none => some none
  | some a => (validate a).map some

def GraphError.validate (e : GraphError) : Option GraphExecutionError := do
  let code ← ErrorCode.of? e.code
  let provider ← validateOptional (NameText.of? 64) e.provider
  let errorType ← validateOptional (NameText.of? 128) e.errorType
  let attempt ← validateOptional AttemptNumber.of? e.attempt
  let endpoint ← validateOptional (NameText.of? 128) e.endpoint
  let fallbackFrom ← validateOptional (NameText.of? 64) e.fallbackFrom
  let primaryAttempt ← validateOptional AttemptNumber.of? e.primaryAttempt
  let correlationId ← validateOptional (StrippedText.of? 1 255) e.correlationId
  let field ← validateOptional (StrippedText.of? 1 64) e.field
  let expected ← validateOptional (StrippedText.of? 1 128) e.expected
  let actual ← validateOptional (StrippedText.of? 1 128) e.actual
  return {
    code, retryable := e.retryable, provider, errorType, attempt, endpoint, fallbackFrom,
    primaryAttempt, correlationId, field, expected, actual }

inductive OutputStatus where
  | succeeded | blocked | failed | cancelled
deriving DecidableEq, Repr

/-- The check `validate_terminal_contract`. -/
def TerminalContract (status : OutputStatus) (artifact : Option Artifact)
    (deepResearch : Option (DeepResearchArtifact ReadUrl)) (errorCount : ℕ) : Prop :=
  match status with
  | .succeeded =>
      (artifact.any fun a => a.status = .committed).toNat +
        (deepResearch.any fun a => a.val.committed).toNat = 1
  | .blocked =>
      (artifact.any fun a => a.status = .draft).toNat +
        (deepResearch.any fun a => !a.val.committed).toNat = 1 ∧
      ∀ a ∈ artifact, a.riskVerdict.allowed = false
  | .failed => artifact = none ∧ deepResearch = none ∧ errorCount ≠ 0
  | .cancelled => True

instance (status : OutputStatus) (artifact : Option Artifact)
    (deepResearch : Option (DeepResearchArtifact ReadUrl)) (errorCount : ℕ) :
    Decidable (TerminalContract status artifact deepResearch errorCount) :=
  match status with
  | .succeeded => inferInstanceAs (Decidable (_ = _))
  | .blocked => inferInstanceAs (Decidable (_ ∧ _))
  | .failed => inferInstanceAs (Decidable (_ ∧ _ ∧ _))
  | .cancelled => inferInstanceAs (Decidable True)

structure TerminalGraphOutput where
  terminalStatus : OutputStatus
  marketSnapshot : Option MarketSnapshot
  webEvidence : List (WebEvidence ReadUrl)
  artifact : Option Artifact
  deepResearchArtifact : Option (DeepResearchArtifact ReadUrl)
  errors : List GraphExecutionError
  contract : TerminalContract terminalStatus artifact deepResearchArtifact errors.length

/-- The status that a final state may carry. -/
def TerminalStatus.output : TerminalStatus → Option OutputStatus
  | running => none
  | succeeded => some .succeeded
  | blocked => some .blocked
  | failed => some .failed

/-- Validation of a final state as a terminal output. -/
def TerminalGraphOutput.validate (s : AnalysisState) : Option TerminalGraphOutput := do
  let status ← s.terminalStatus.bind TerminalStatus.output
  let webEvidence ← s.webEvidence.mapM WebEvidence.reread
  let errors ← s.errors.mapM GraphError.validate
  if h : TerminalContract status s.artifact s.deepResearchArtifact errors.length then
    some ⟨status, s.marketSnapshot, webEvidence, s.artifact, s.deepResearchArtifact, errors, h⟩
  else none

section Validation

theorem validateOptional_isSome {α β : Type} {validate : α → Option β} {a : Option α} :
    (validateOptional validate a).isSome ↔ ∀ x ∈ a, (validate x).isSome := by
  cases a with
  | none => simp [validateOptional]
  | some a => simp [validateOptional]

/-- What the error model asks of a record. -/
structure GraphError.Fits (e : GraphError) : Prop where
  code : (ErrorCode.of? e.code).isSome
  provider : ∀ x ∈ e.provider, (NameText.of? 64 x).isSome
  errorType : ∀ x ∈ e.errorType, (NameText.of? 128 x).isSome
  attempt : ∀ n ∈ e.attempt, (AttemptNumber.of? n).isSome
  endpoint : ∀ x ∈ e.endpoint, (NameText.of? 128 x).isSome
  fallbackFrom : ∀ x ∈ e.fallbackFrom, (NameText.of? 64 x).isSome
  primaryAttempt : ∀ n ∈ e.primaryAttempt, (AttemptNumber.of? n).isSome
  correlationId : ∀ x ∈ e.correlationId, (StrippedText.of? 1 255 x).isSome
  field : ∀ x ∈ e.field, (StrippedText.of? 1 64 x).isSome
  expected : ∀ x ∈ e.expected, (StrippedText.of? 1 128 x).isSome
  actual : ∀ x ∈ e.actual, (StrippedText.of? 1 128 x).isSome

/-- A value that is there lets a validation go on. -/
theorem isSome_bind {α β : Type} {a : Option α} {f : α → Option β} (ha : a.isSome)
    (hf : ∀ x, a = some x → (f x).isSome) : (a.bind f).isSome := by
  obtain ⟨x, hx⟩ := Option.isSome_iff_exists.mp ha
  rw [hx, Option.bind_some]
  exact hf x hx

theorem GraphError.validate_isSome {e : GraphError} (h : e.Fits) : e.validate.isSome := by
  unfold validate
  refine isSome_bind h.code fun _ _ => ?_
  refine isSome_bind (validateOptional_isSome.mpr h.provider) fun _ _ => ?_
  refine isSome_bind (validateOptional_isSome.mpr h.errorType) fun _ _ => ?_
  refine isSome_bind (validateOptional_isSome.mpr h.attempt) fun _ _ => ?_
  refine isSome_bind (validateOptional_isSome.mpr h.endpoint) fun _ _ => ?_
  refine isSome_bind (validateOptional_isSome.mpr h.fallbackFrom) fun _ _ => ?_
  refine isSome_bind (validateOptional_isSome.mpr h.primaryAttempt) fun _ _ => ?_
  refine isSome_bind (validateOptional_isSome.mpr h.correlationId) fun _ _ => ?_
  refine isSome_bind (validateOptional_isSome.mpr h.field) fun _ _ => ?_
  refine isSome_bind (validateOptional_isSome.mpr h.expected) fun _ _ => ?_
  refine isSome_bind (validateOptional_isSome.mpr h.actual) fun _ _ => ?_
  rfl

theorem length_of_mapM {α β : Type} {f : α → Option β} {l : List α} {l' : List β}
    (h : l.mapM f = some l') : l'.length = l.length := by
  induction l generalizing l' with
  | nil => cases h; rfl
  | cons a l ih =>
      rw [List.mapM_cons] at h
      obtain ⟨_, -, h⟩ := Option.bind_eq_some_iff.mp h
      obtain ⟨_, hrest, h⟩ := Option.bind_eq_some_iff.mp h
      cases h
      rw [List.length_cons, List.length_cons, ih hrest]

/-- A final state with readable evidence, fitting errors and the right artifacts validates. -/
theorem TerminalGraphOutput.validate_of_contract {s : AnalysisState} {status : OutputStatus}
    (hstatus : s.terminalStatus.bind TerminalStatus.output = some status)
    (hevidence : ∀ e ∈ s.webEvidence, e.reread.isSome) (herrors : ∀ e ∈ s.errors, e.Fits)
    (hcontract : TerminalContract status s.artifact s.deepResearchArtifact s.errors.length) :
    ∃ output, TerminalGraphOutput.validate s = some output ∧ output.terminalStatus = status := by
  obtain ⟨webEvidence, hweb⟩ := Option.isSome_iff_exists.mp (isSome_mapM_iff.mpr hevidence)
  obtain ⟨errors, herr⟩ := Option.isSome_iff_exists.mp
    (isSome_mapM_iff.mpr fun e he => GraphError.validate_isSome (herrors e he))
  have hlength := length_of_mapM herr
  simp only [validate, hstatus, hweb, herr, Option.bind_eq_bind, Option.bind_some]
  rw [dif_pos (by rw [hlength]; exact hcontract)]
  exact ⟨_, rfl, rfl⟩

end Validation

end CryptoAlert
