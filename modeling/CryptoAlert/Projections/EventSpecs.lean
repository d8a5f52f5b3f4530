import CryptoAlert.Api.OutputDump

/-!
# The domain events that a graph update or a terminal output gives rise to

The payload of an event is identified by the digest of its canonical text. Updates and outputs
are read as plain JSON; what the projection validates goes through the domain models.
-/

namespace CryptoAlert

inductive EventType where
  | marketSnapshot | researchEvidence | agentOutput | evidenceVerdict | riskVerdict | artifact
  | notificationPlanned | runTerminal
deriving DecidableEq, Repr

/-- The names of `DOMAIN_EVENT_TYPES`. -/
def EventType.name : EventType → String
  | marketSnapshot => "market.snapshot.committed"
  | researchEvidence => "research.evidence.committed"
  | agentOutput => "agent.output.committed"
  | evidenceVerdict => "evidence.verdict.committed"
  | riskVerdict => "risk.verdict.committed"
  | artifact => "artifact.committed"
  | notificationPlanned => "notification.planned"
  | runTerminal => "run.terminal"

/-- The canonical text of a payload and the digest of a text, which is taken to be free of
collisions. -/
structure Hashing where
  canonical : Json → String
  sha256 : String → String
  collisionFree : Function.Injective sha256

def Hashing.payloadHash (hashing : Hashing) (payload : Json) : String :=
  hashing.sha256 (hashing.canonical payload)

/-- Validation by a domain model followed by the dump without nulls; `none` where it raises. -/
structure PayloadModels where
  marketSnapshot : Json → Option Json
  webEvidence : Json → Option Json
  deepResearchArtifact : Json → Option Json
  marketAnalysis : Json → Option Json
  evidenceVerdict : Json → Option Json
  riskVerdict : Json → Option Json

structure DomainEventSpec (hashing : Hashing) where
  eventType : EventType
  payloadRef : String
  payloadHash : String
  payload : Json
  hashed : payloadHash = hashing.payloadHash payload

def eventSpec (hashing : Hashing) (eventType : EventType) (payloadRef : String)
    (payload : Json) : DomainEventSpec hashing :=
  ⟨eventType, payloadRef, hashing.payloadHash payload, payload, rfl⟩

section Updates

variable (hashing : Hashing) (models : PayloadModels)

/-- An event for a channel of an update that is a validated object. -/
def objectSpecs (eventType : EventType) (node channel : String) (validate : Json → Option Json)
    (update : Json) : Option (List (DomainEventSpec hashing)) :=
  match update.get? channel with
  | some (.obj fields) => (validate (.obj fields)).map fun payload =>
      [eventSpec hashing eventType s!"official-update#/{node}/{channel}" payload]
  | _ => some []

/-- An event for the evidence of an update, also where the list is empty. -/
def evidenceSpecs (node : String) (update : Json) : Option (List (DomainEventSpec hashing)) :=
  match update.get? "web_evidence" with
  | some (.arr items) => (items.mapM models.webEvidence).map fun payload =>
      [eventSpec hashing .researchEvidence s!"official-update#/{node}/web_evidence"
        (.arr payload)]
  | _ => some []

/-- The events for a deep research artifact; its report is an output of an agent. -/
def deepResearchSpecs (ref : String) (artifact : Option Json) :
    Option (List (DomainEventSpec hashing)) :=
  match artifact with
  | some (.obj fields) => do
      let payload ← models.deepResearchArtifact (.obj fields)
      let report ← payload.get? "report"
      let status ← payload.get? "status"
      let output := eventSpec hashing .agentOutput s!"{ref}/report" report
      match status with
      | .str "committed" => return [output, eventSpec hashing .artifact ref payload]
      | _ => return [output]
  | _ => some []

/-- The events of the update of one node. -/
def nodeEventSpecs (node : String) (update : Json) : Option (List (DomainEventSpec hashing)) :=
  match node with
  | "collect_market_snapshot" => do
      let market ← objectSpecs hashing .marketSnapshot node "market_snapshot"
        models.marketSnapshot update
      let evidence ← evidenceSpecs hashing models node update
      return market ++ evidence
  | "research_events" => evidenceSpecs hashing models node update
  | "run_deep_research" => do
      let evidence ← evidenceSpecs hashing models node update
      let artifact ← deepResearchSpecs hashing models
        "official-update#/run_deep_research/deep_research_artifact"
        (update.get? "deep_research_artifact")
      return evidence ++ artifact
  | "analyze_market" =>
      objectSpecs hashing .agentOutput node "analysis" models.marketAnalysis update
  | "validate_evidence" =>
      objectSpecs hashing .evidenceVerdict node "evidence_verdict" models.evidenceVerdict update
  | "apply_risk_policy" =>
      objectSpecs hashing .riskVerdict node "risk_verdict" models.riskVerdict update
  | _ => some []

/-- `progressive_event_specs`; `none` where a validation raises. -/
def progressiveEventSpecs (updates : List (String × Json)) :
    Option (List (DomainEventSpec hashing)) :=
  (updates.mapM fun (update : String × Json) =>
    if update.2.isObj then nodeEventSpecs hashing models update.1 update.2
    else some []).map List.flatten

end Updates

section Output

variable (hashing : Hashing) (models : PayloadModels)

/-- An event for a field of an output that is an object. -/
def fieldSpecs (eventType : EventType) (ref : String) (value : Option Json) :
    List (DomainEventSpec hashing) :=
  match value with
  | some (.obj fields) => [eventSpec hashing eventType ref (.obj fields)]
  | _ => []

/-- The events for a market analysis artifact. -/
def artifactSpecs (artifact : Option Json) : List (DomainEventSpec hashing) :=
  match artifact with
  | some (.obj fields) =>
      let artifact := Json.obj fields
      fieldSpecs hashing .agentOutput "output_payload#/artifact/analysis"
          (artifact.get? "analysis") ++
        fieldSpecs hashing .evidenceVerdict "output_payload#/artifact/evidence_verdict"
          (artifact.get? "evidence_verdict") ++
        fieldSpecs hashing .riskVerdict "output_payload#/artifact/risk_verdict"
          (artifact.get? "risk_verdict") ++
        (match artifact.get? "status" with
          | some (.str "committed") =>
              [eventSpec hashing .artifact "output_payload#/artifact" artifact]
          | _ => [])
  | _ => []

/-- The event for the evidence of an output; empty evidence is reported only along with an
artifact. -/
def outputEvidenceSpecs (output : Json) : List (DomainEventSpec hashing) :=
  match output.get? "web_evidence" with
  | some (.arr items) =>
      if !items.isEmpty || (output.get? "artifact").any Json.isObj ||
          (output.get? "deep_research_artifact").any Json.isObj then
        [eventSpec hashing .researchEvidence "output_payload#/web_evidence" (.arr items)]
      else []
  | _ => []

/-- `domain_event_specs`; `none` where a validation raises. -/
def domainEventSpecs (output : Json) (notification : Option Json) :
    Option (List (DomainEventSpec hashing)) :=
  (deepResearchSpecs hashing models "output_payload#/deep_research_artifact"
    (output.get? "deep_research_artifact")).map fun research =>
      fieldSpecs hashing .marketSnapshot "output_payload#/market_snapshot"
          (output.get? "market_snapshot") ++
        outputEvidenceSpecs hashing output ++ artifactSpecs hashing (output.get? "artifact") ++
        research ++
        notification.toList.map
          (eventSpec hashing .notificationPlanned "notification_outbox#/payload") ++
        [eventSpec hashing .runTerminal "output_payload#" output]

end Output

end CryptoAlert
