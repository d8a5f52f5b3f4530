import CryptoAlert.Graph.Review

/-!
# The payloads of task commands

A command stores what its execution needs: runs by their ids, checkpoints as the Agent Server
named them, and for an answered pause the dumped responses. A worker validates the stored
payload again when it claims the command.
-/

namespace CryptoAlert

structure RemoteRunHandle where
  assistantId : String
  threadId : String
  runId : String
deriving DecidableEq, Repr

/-- A checkpoint that the Agent Server returned; its id is not blank. -/
structure RemoteCheckpoint where
  threadId : String
  checkpointNs : String
  checkpointId : String
  checkpointMap : List (String × String)
deriving DecidableEq, Repr

/-- A stripped text within bounds, as `str_strip_whitespace` with a length check yields it. -/
def strippedWithin (min max : ℕ) (s : String) : Option String :=
  if min ≤ (strip s).length ∧ (strip s).length ≤ max then some (strip s) else none

section Responses

/-- The dump of an edit leaves out the fields that are null. -/
def EditField.excludeNone {α : Type} : EditField α → EditField α
  | some none => none
  | edit => edit

def ArtifactEdit.excludeNone (e : ArtifactEdit) : ArtifactEdit where
  regime := EditField.excludeNone e.regime
  factorScores := EditField.excludeNone e.factorScores
  totalScore := EditField.excludeNone e.totalScore
  mainAction := EditField.excludeNone e.mainAction
  referencePrice := EditField.excludeNone e.referencePrice
  entryTrigger := EditField.excludeNone e.entryTrigger
  stopPrice := EditField.excludeNone e.stopPrice
  target1 := EditField.excludeNone e.target1
  target2 := EditField.excludeNone e.target2
  probability := EditField.excludeNone e.probability
  positionSizeClass := EditField.excludeNone e.positionSizeClass
  maxLeverage := EditField.excludeNone e.maxLeverage
  riskPct := EditField.excludeNone e.riskPct
  rootCauseChain := EditField.excludeNone e.rootCauseChain
  whyNotOpposite := EditField.excludeNone e.whyNotOpposite
  invalidation := EditField.excludeNone e.invalidation
  unavailableData := EditField.excludeNone e.unavailableData
  manualExecutionRequired := EditField.excludeNone e.manualExecutionRequired
  expiresInSeconds := EditField.excludeNone e.expiresInSeconds

/-- Stored edits; an artifact edit may have lost all of its fields. -/
inductive EditsDump where
  | artifact (edit : ArtifactEdit)
  | deepResearch (report : DeepResearchReport)
deriving DecidableEq

/-- A stored response. -/
structure ResponseDump where
  action : ReviewAction
  edits : Option EditsDump
  comment : Option (BoundedText 1 1000)
deriving DecidableEq

def ReviewEdits.modelDump : ReviewEdits → EditsDump
  | .artifact edit => .artifact edit.val.excludeNone
  | .deepResearch report => .deepResearch report

/-- `model_dump(mode="json", exclude_none=True)` of a response. -/
def ReviewResponse.modelDump (r : ReviewResponse) : ResponseDump :=
  ⟨r.action, r.edits.map ReviewEdits.modelDump, r.comment⟩

def EditsDump.modelValidate : EditsDump → Option ReviewEdits
  | .artifact edit =>
      if h : edit ≠ ArtifactEdit.unchanged then some (.artifact ⟨edit, h⟩) else none
  | .deepResearch report => some (.deepResearch report)

/-- Validation of a stored response; `none` where it raises. -/
def ResponseDump.modelValidate (r : ResponseDump) : Option ReviewResponse :=
  match r.edits with
  | none =>
      if h : r.action = .edit ↔ (none : Option ReviewEdits).isSome = true then
        some ⟨r.action, none, r.comment, h⟩
      else none
  | some edits =>
      edits.modelValidate.bind fun edits =>
        if h : r.action = .edit ↔ (some edits).isSome = true then
          some ⟨r.action, some edits, r.comment, h⟩
        else none

end Responses

/-- The stored answer to one member of a pause. -/
structure RespondCommandMember where
  projectionId : ℕ
  interruptId : String
  namespaceName : String
  checkpointId : String
  responseVersion : ℕ
  response : ResponseDump
deriving DecidableEq

structure RespondCommandPayload where
  pauseId : ℕ
  pauseVersion : ℕ
  rootCheckpoint : RemoteCheckpoint
  responses : List RespondCommandMember
  expired : Bool
deriving DecidableEq

structure ForkCommandPayload where
  sourceRunId : ℕ
  forkRunId : ℕ
  checkpointId : String
deriving DecidableEq

structure RetryCommandPayload where
  sourceRunId : ℕ
  retryRunId : ℕ
deriving DecidableEq

/-- The payload with the type of its command. -/
inductive CommandPayload where
  | submit (request : Json)
  | respond (payload : RespondCommandPayload)
  | fork (payload : ForkCommandPayload)
  | retry (payload : RetryCommandPayload)
  | cancelRun (runId : ℕ)
  | cancelTask (taskId : ℕ)

inductive CommandType where
  | submit | respond | fork | retry | cancelRun | cancelTask
deriving DecidableEq, Repr

namespace CommandType

/-- The commands that drive a run at the Agent Server. -/
def drives : CommandType → Bool
  | submit | respond | fork | retry => true
  | cancelRun | cancelTask => false

def cancels (t : CommandType) : Bool := !t.drives

end CommandType

def CommandPayload.commandType : CommandPayload → CommandType
  | submit _ => .submit
  | respond _ => .respond
  | fork _ => .fork
  | retry _ => .retry
  | cancelRun _ => .cancelRun
  | cancelTask _ => .cancelTask

def RemoteCheckpoint.validate (c : RemoteCheckpoint) : Option RemoteCheckpoint := do
  let threadId ← strippedWithin 1 255 c.threadId
  let checkpointNs ← strippedWithin 0 1024 c.checkpointNs
  let checkpointId ← strippedWithin 1 255 c.checkpointId
  return ⟨threadId, checkpointNs, checkpointId,
    c.checkpointMap.map fun (ns, id) => (strip ns, strip id)⟩

def RespondCommandMember.validate (m : RespondCommandMember) : Option RespondCommandMember := do
  let interruptId ← strippedWithin 1 255 m.interruptId
  let namespaceName ← strippedWithin 0 1024 m.namespaceName
  let checkpointId ← strippedWithin 1 255 m.checkpointId
  let response ← m.response.modelValidate
  if 1 ≤ m.responseVersion then
    return ⟨m.projectionId, interruptId, namespaceName, checkpointId, m.responseVersion,
      response.modelDump⟩
  else none

/-- `RespondCommandPayload.model_validate`; `none` where it raises. -/
def RespondCommandPayload.validate (p : RespondCommandPayload) :
    Option RespondCommandPayload := do
  let rootCheckpoint ← p.rootCheckpoint.validate
  let responses ← p.responses.mapM RespondCommandMember.validate
  if 1 ≤ p.pauseVersion ∧ 1 ≤ responses.length ∧ responses.length ≤ 64 ∧
      (responses.map (·.interruptId)).Nodup ∧ (responses.map (·.projectionId)).Nodup then
    return ⟨p.pauseId, p.pauseVersion, rootCheckpoint, responses, p.expired⟩
  else none

/-- `ForkCommandPayload.model_validate`; `none` where it raises. -/
def ForkCommandPayload.validate (p : ForkCommandPayload) : Option ForkCommandPayload := do
  let checkpointId ← strippedWithin 1 255 p.checkpointId
  if p.sourceRunId = p.forkRunId then none
  else return { p with checkpointId }

theorem ForkCommandPayload.validate_eq_some {p p' : ForkCommandPayload} :
    p.validate = some p' ↔ p.sourceRunId ≠ p.forkRunId ∧
      strippedWithin 1 255 p.checkpointId = some p'.checkpointId ∧
      p'.sourceRunId = p.sourceRunId ∧ p'.forkRunId = p.forkRunId := by
  have hdef : p.validate = (strippedWithin 1 255 p.checkpointId).bind fun checkpointId =>
      if p.sourceRunId = p.forkRunId then none else some { p with checkpointId } := rfl
  rw [hdef, Option.bind_eq_some_iff]
  constructor
  · rintro ⟨checkpointId, hcheckpoint, hp⟩
    obtain ⟨hne, hp⟩ := Option.ite_none_left_eq_some.mp hp
    cases hp
    exact ⟨hne, hcheckpoint, rfl, rfl⟩
  · rintro ⟨hne, hcheckpoint, hsource, hfork⟩
    refine ⟨_, hcheckpoint, ?_⟩
    rw [if_neg hne, ← hsource, ← hfork]

/-- `RetryCommandPayload.model_validate`; `none` where it raises. -/
def RetryCommandPayload.validate (p : RetryCommandPayload) : Option RetryCommandPayload :=
  if p.sourceRunId = p.retryRunId then none else some p

theorem RetryCommandPayload.validate_eq_some {p p' : RetryCommandPayload} :
    p.validate = some p' ↔ p.sourceRunId ≠ p.retryRunId ∧ p' = p := by
  unfold RetryCommandPayload.validate
  by_cases hsame : p.sourceRunId = p.retryRunId
  · simp [hsame]
  · simp [hsame, eq_comm]

end CryptoAlert
