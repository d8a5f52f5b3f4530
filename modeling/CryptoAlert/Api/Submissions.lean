import CryptoAlert.Graph.Request

/-!
# Submissions

The two executable submissions, with the dump that is persisted and the validation that reads
it back.
-/

namespace CryptoAlert

structure AnalysisSubmission where
  symbol : Symbol
  horizon : BoundedText 1 32
  queryText : String
  notify : Bool
deriving DecidableEq

structure DeepResearchSubmission where
  symbol : Symbol
  horizon : BoundedText 1 32
  queryText : String
deriving DecidableEq

variable (u : Text.UnicodeData)

namespace AnalysisSubmission

def codec : Codec AnalysisSubmission :=
  ((Record.field "symbol" Symbol.codec).and <|
    (Record.field "horizon" (BoundedText.codec 1 32)).and <|
    (Record.field "query_text" Codec.text).and <|
    Record.field "notify" Codec.bool).iso
    (fun s => (s.symbol, s.horizon, s.queryText, s.notify))
    (fun (symbol, horizon, query, notify) => ⟨symbol, horizon, query, notify⟩)
    (fun _ => rfl) |>.codec (by decide)

/-- The validators of the query text, on a submission whose text is as it was given. -/
def redacted (s : AnalysisSubmission) : Option AnalysisSubmission :=
  (redactQuery u 2000 s.queryText).map fun query => { s with queryText := query }

def modelDump (s : AnalysisSubmission) : Json := codec.dump s

def modelValidate (payload : Json) : Option AnalysisSubmission :=
  (codec.read payload).bind (redacted u)

theorem modelValidate_modelDump (s : AnalysisSubmission) :
    modelValidate u s.modelDump = s.redacted u := by
  rw [modelValidate, modelDump, codec.read_dump, Option.bind_some]

end AnalysisSubmission

namespace DeepResearchSubmission

def codec : Codec DeepResearchSubmission :=
  ((Record.field "task_type" (Codec.literal "deep_research")).and <|
    (Record.field "symbol" Symbol.codec).and <|
    (Record.field "horizon" (BoundedText.codec 1 32)).and <|
    Record.field "query_text" Codec.text).iso
    (fun s => ((), s.symbol, s.horizon, s.queryText))
    (fun (_, symbol, horizon, query) => ⟨symbol, horizon, query⟩)
    (fun _ => rfl) |>.codec (by decide)

def redacted (s : DeepResearchSubmission) : Option DeepResearchSubmission :=
  (redactQuery u 4000 s.queryText).map fun query => { s with queryText := query }

def modelDump (s : DeepResearchSubmission) : Json := codec.dump s

def modelValidate (payload : Json) : Option DeepResearchSubmission :=
  (codec.read payload).bind (redacted u)

theorem modelValidate_modelDump (s : DeepResearchSubmission) :
    modelValidate u s.modelDump = s.redacted u := by
  rw [modelValidate, modelDump, codec.read_dump, Option.bind_some]

end DeepResearchSubmission

namespace DecisionRequestSubmission

/-- The validators of the query text, on a body whose text is as it was sent. -/
def redacted (s : DecisionRequestSubmission) : Option DecisionRequestSubmission :=
  (DecisionRequest.validateQuery u s.queryText).map fun query => { s with queryText := query }

/-- The domain request; the query text is validated and redacted once more. -/
def toDomainRequest (s : DecisionRequestSubmission) (actorId workspaceId : String) :
    Option DecisionRequest := do
  let actor ← StrippedText.of? 1 255 actorId
  let workspace ← StrippedText.of? 1 255 workspaceId
  let query ← DecisionRequest.validateQuery u s.queryText
  DecisionRequest.ofFields { s with queryText := query } actor workspace

theorem toDomainRequest_eq_some {s : DecisionRequestSubmission} {actorId workspaceId : String}
    {r : DecisionRequest} (h : s.toDomainRequest u actorId workspaceId = some r) :
    ∃ query, DecisionRequest.validateQuery u s.queryText = some query ∧
      r.toDecisionRequestSubmission = { s with queryText := query } := by
  simp only [toDomainRequest, Option.bind_eq_bind, Option.bind_eq_some_iff] at h
  obtain ⟨actor, _, workspace, _, query, hquery, hfields⟩ := h
  refine ⟨query, hquery, ?_⟩
  unfold DecisionRequest.ofFields at hfields
  split_ifs at hfields
  rw [Option.some.injEq] at hfields
  rw [← hfields]

end DecisionRequestSubmission

inductive ProductSubmission where
  | analysis (submission : AnalysisSubmission)
  | deepResearch (submission : DeepResearchSubmission)
deriving DecidableEq

end CryptoAlert
