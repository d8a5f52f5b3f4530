import CryptoAlert.Domain.DecisionRequest

/-!
# Graph requests

The two request models of the graph and the adapter from an admitted decision request.
-/

namespace CryptoAlert

structure AnalysisRequest where
  symbol : Symbol
  horizon : BoundedText 1 32
  queryText : String
  notify : Bool
deriving DecidableEq

structure DeepResearchRequest where
  symbol : Symbol
  horizon : BoundedText 1 32
  queryText : String
deriving DecidableEq

variable (u : Text.UnicodeData)

/-- A query text within the length limit, redacted after the check. -/
def redactQuery (max : ℕ) (query : String) : Option String :=
  (BoundedText.of? 1 max query).map fun q => Redaction.redactText u q.val

def AnalysisRequest.validate (symbol : Symbol) (horizon query : String) (notify : Bool) :
    Option AnalysisRequest := do
  let horizon ← BoundedText.of? 1 32 horizon
  let query ← redactQuery u 2000 query
  return ⟨symbol, horizon, query, notify⟩

def DeepResearchRequest.validate (symbol : Symbol) (horizon query : String) :
    Option DeepResearchRequest := do
  let horizon ← BoundedText.of? 1 32 horizon
  let query ← redactQuery u 4000 query
  return ⟨symbol, horizon, query⟩

theorem AnalysisRequest.validate_identity {symbol : Symbol} {horizon query : String}
    {notify : Bool} {q : AnalysisRequest}
    (h : AnalysisRequest.validate u symbol horizon query notify = some q) :
    q.symbol = symbol ∧ q.horizon.val = horizon := by
  obtain ⟨_, hhorizon, h⟩ := Option.bind_eq_some_iff.mp h
  obtain ⟨_, -, h⟩ := Option.bind_eq_some_iff.mp h
  cases h
  exact ⟨rfl, BoundedText.of?_eq_some_iff.mp hhorizon⟩

theorem DeepResearchRequest.validate_identity {symbol : Symbol} {horizon query : String}
    {q : DeepResearchRequest}
    (h : DeepResearchRequest.validate u symbol horizon query = some q) :
    q.symbol = symbol ∧ q.horizon.val = horizon := by
  obtain ⟨_, hhorizon, h⟩ := Option.bind_eq_some_iff.mp h
  obtain ⟨_, -, h⟩ := Option.bind_eq_some_iff.mp h
  cases h
  exact ⟨rfl, BoundedText.of?_eq_some_iff.mp hhorizon⟩

inductive GraphRequest where
  | analysis (request : AnalysisRequest)
  | deepResearch (request : DeepResearchRequest)
deriving DecidableEq

/-- Adapts an admitted product request; `none` where the source raises. -/
def graphRequestForDecision (request : DecisionRequest) : Option GraphRequest :=
  let route := routeDecisionRequest request
  if route.status = .admitted then
    match route.taskType, request.symbol, request.horizon with
    | some .deepResearch, some symbol, some horizon =>
        (DeepResearchRequest.validate u symbol horizon.text request.queryText).map .deepResearch
    | some .marketAnalysis, some symbol, some horizon =>
        (AnalysisRequest.validate u symbol horizon.text request.queryText false).map .analysis
    | _, _, _ => none
  else none

end CryptoAlert
