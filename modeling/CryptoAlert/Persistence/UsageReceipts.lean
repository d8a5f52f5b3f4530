import CryptoAlert.Persistence.Rows

/-!
# The usage of a terminal run

The quantities are read off the stored output. A receipt is written once for a run and a unit;
a later projection of the run leaves the receipt alone.
-/

namespace CryptoAlert

/-- Removes what `str.strip` removes. -/
def stripSpace (s : String) : String :=
  String.ofList ((s.toList.dropWhile Text.isSpace).rdropWhile Text.isSpace)

/-- An integer of a payload, with negative ones counted as zero. -/
def Json.count : Option Json → ℕ
  | some (.num q) => if q.den = 1 then q.num.toNat else 0
  | _ => 0

/-- The tokens of the audits that an object lists. -/
def Json.auditTokens (fields : List (String × Json)) : ℕ :=
  match fields.lookup "model_audits" with
  | some (.arr audits) => (audits.map fun audit => Json.count (audit.get? "total_tokens")).sum
  | _ => 0

/-- The number of queries that the coverage record of an object reports. -/
def Json.coverageQueries (fields : List (String × Json)) : ℕ :=
  match fields.lookup "search_coverage" with
  | some (.obj coverage) => Json.count (coverage.lookup "attempted_queries")
  | _ => 0

mutual

/-- `_model_tokens`. -/
def Json.modelTokens : Json → ℕ
  | .obj fields => Json.auditTokens fields + Json.modelTokensFields fields
  | .arr items => Json.modelTokensItems items
  | _ => 0

def Json.modelTokensFields : List (String × Json) → ℕ
  | [] => 0
  | (_, value) :: rest => Json.modelTokens value + Json.modelTokensFields rest

def Json.modelTokensItems : List Json → ℕ
  | [] => 0
  | item :: rest => Json.modelTokens item + Json.modelTokensItems rest

end

mutual

/-- The largest number of attempted queries at any depth. -/
def Json.attemptedQueries : Json → ℕ
  | .obj fields => max (Json.coverageQueries fields) (Json.attemptedQueriesFields fields)
  | .arr items => Json.attemptedQueriesItems items
  | _ => 0

def Json.attemptedQueriesFields : List (String × Json) → ℕ
  | [] => 0
  | (_, value) :: rest => max (Json.attemptedQueries value) (Json.attemptedQueriesFields rest)

def Json.attemptedQueriesItems : List Json → ℕ
  | [] => 0
  | item :: rest => max (Json.attemptedQueries item) (Json.attemptedQueriesItems rest)

end

/-- The query of a piece of evidence, unless it is blank. -/
def Json.evidenceQuery (item : Json) : Option String :=
  match item.get? "query" with
  | some (.str query) => if stripSpace query = "" then none else some (stripSpace query)
  | _ => none

/-- `_search_requests`. -/
def Json.searchRequests (payload : Json) : ℕ :=
  let queries := match payload.get? "web_evidence" with
    | some (.arr items) => (items.filterMap Json.evidenceQuery).dedup
    | _ => []
  max queries.length payload.attemptedQueries

def UsageUnit.all : List UsageUnit :=
  [.modelToken, .searchRequest, .runtimeMillisecond, .storageByte]

section Facts

variable (hashing : Hashing)

/-- The quantity of a unit that a run with an output used; times are in microseconds. -/
def usageQuantity (run : RunRow) (output : Json) (finishedAt : ℕ) : UsageUnit → ℕ
  | .modelToken => output.modelTokens
  | .searchRequest => output.searchRequests
  | .runtimeMillisecond =>
      match run.startedAt with
      | some startedAt => max 1 ((finishedAt - startedAt) / 1000)
      | none => 0
  | .storageByte => (hashing.canonical output).utf8ByteSize

/-- `run_usage_facts`. -/
def runUsageFacts (run : RunRow) : List UsageReceipt :=
  match run.finishedAt, run.outputPayload with
  | some finishedAt, some output =>
      let outputHash := run.terminalOutputHash.getD (hashing.payloadHash output)
      UsageUnit.all.filterMap fun unit =>
        let quantity := usageQuantity hashing run output finishedAt unit
        if 0 < quantity then some ⟨run.id, unit, quantity, outputHash⟩ else none
  | _, _ => []

/-- Inserts a receipt, doing nothing where its key is taken. -/
def appendFact (receipts : List UsageReceipt) (fact : UsageReceipt) : List UsageReceipt :=
  if receipts.any fun r => r.runId == fact.runId && r.unit == fact.unit then receipts
  else receipts ++ [fact]

/-- `append_run_usage_receipts`. -/
def appendRunUsageReceipts (receipts : List UsageReceipt) (run : RunRow) : List UsageReceipt :=
  (runUsageFacts hashing run).foldl appendFact receipts

end Facts

end CryptoAlert
