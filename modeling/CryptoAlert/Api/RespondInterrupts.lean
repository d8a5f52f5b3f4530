import CryptoAlert.Api.TaskOperations

/-!
# Answering a pause

A submission answers all members of a pause at once. It is checked against the stored members,
then against the stored command of the same key, and only then against the state of the pause.
-/

namespace CryptoAlert

structure InterruptResponseItem where
  interruptId : String
  responseVersion : ℕ
  response : ReviewResponse
deriving DecidableEq

/-- `InterruptResponsesSubmission`; the members it names are distinct. -/
structure InterruptResponsesSubmission where
  pauseId : ℕ
  pauseVersion : ℕ
  responses : List InterruptResponseItem
  distinct : (responses.map (·.interruptId)).Nodup

namespace TaskStore

/-- Members in the order of the ids that the Agent Server gave them. -/
def sortMembers (members : List InterruptProjection) : List InterruptProjection :=
  members.insertionSort fun a b => a.officialInterruptId ≤ b.officialInterruptId

/-- The stored form of the answer to a member. -/
def canonicalResponse (task : TaskRow) (submission : InterruptResponsesSubmission)
    (member : InterruptProjection) : Except ServiceError RespondCommandMember :=
  match submission.responses.find? fun item => item.interruptId == member.officialInterruptId with
  | none => .error .interruptResponseConflict
  | some item =>
      if member.responseVersion ≠ item.responseVersion then .error .interruptResponseConflict
      else
        match reviewPayloadForTask task.toAdmission member.payload with
        | none => .error .invalid
        | some payload =>
            if validateReviewResponseForPayload payload item.response then
              .ok ⟨member.id, member.officialInterruptId, member.namespaceName,
                member.checkpointId, member.responseVersion, item.response.modelDump⟩
            else .error .invalid

/-- The stored forms of all answers, in order; the first failure counts. -/
def canonicalResponses (task : TaskRow) (submission : InterruptResponsesSubmission) :
    List InterruptProjection → Except ServiceError (List RespondCommandMember)
  | [] => .ok []
  | member :: members =>
      match canonicalResponse task submission member with
      | .error e => .error e
      | .ok response => (canonicalResponses task submission members).map (response :: ·)

/-- The waiting run with the largest attempt. -/
def latestWaitingRun (s : TaskStore) : Option RunRow :=
  let waiting := s.runs.filter fun r => r.status == .waitingHuman
  waiting.find? fun r => r.attempt == Table.maxOf RunRow.attempt waiting

/-- Whether the time for an answer is over. -/
def windowExpired (pause : InterruptPause) (now : ℕ) : Bool :=
  pause.status == .expired || (pause.status == .pending && pause.expiresAt.any (· ≤ now))

/-- A member with its answer. -/
def answerMember (responses : List RespondCommandMember) (status : InterruptStatus) (now : ℕ)
    (m : InterruptProjection) : InterruptProjection :=
  { m with
    status
    response := (responses.find? fun r => r.projectionId == m.id).map (·.response)
    respondedAt := some now }

/-- Inserts the run that resumes a pause and the command that drives it, and records the
answer with the pause and its members. -/
def acceptResponses (s : TaskStore) (pause : InterruptPause) (parent : RunRow)
    (payload : RespondCommandPayload) (hash key : String) (runId commandId now : ℕ) :
    Option TaskStore := do
  let run : RunRow := { RunRow.new runId (parent.attempt + 1) .queued with
    resumeOfRunId := some parent.id }
  let s ← s.insertRun run
  let status : InterruptStatus := if payload.expired then .expired else .responding
  let s := s.putPause { pause with
    status, resumeRunId := some runId, acceptedPayloadHash := some hash }
  let s := s.mapMembers pause.id (answerMember payload.responses status now)
  s.insertCommand (.new commandId (.respond payload) hash (s.maxSequence + 1) key)

variable (digests : KeyDigests)

/-- `respond_interrupts`. -/
def respondInterrupts (s : TaskStore) (submission : InterruptResponsesSubmission)
    (idempotencyKey : String) (runId commandId now : ℕ) : ServiceResult :=
  let request := s!"{s.task.id}:{submission.pauseId}:{idempotencyKey}"
  let key := s!"respond-all:{digests.key request}"
  match s.findPause submission.pauseId with
  | none => .error .notFound
  | some pause =>
      let members := s.membersOf pause.id
      if members.isEmpty then .error .interruptResponseConflict
      else if ¬ ((∀ m ∈ members, m.officialInterruptId ∈
            submission.responses.map (·.interruptId)) ∧
          ∀ r ∈ submission.responses, r.interruptId ∈
            members.map (·.officialInterruptId)) then .error .interruptResponseConflict
      else if pause.pauseVersion ≠ submission.pauseVersion then
        .error .interruptResponseConflict
      else
        match canonicalResponses s.task submission (sortMembers members) with
        | .error e => .error e
        | .ok responses =>
            let payload : RespondCommandPayload :=
              ⟨pause.id, pause.pauseVersion, pause.root, responses, false⟩
            let hash := digests.respond payload
            match s.commands.find? fun c => c.idempotencyKey == key with
            | some replay =>
                if replay.payloadHash ≠ hash then .error .idempotencyConflict
                else .ok (s, .view)
            | none =>
                match s.findRun pause.runId with
                | none => .error .interruptResponseConflict
                | some parent =>
                    if parent.status ≠ .waitingHuman ∨
                        s.latestWaitingRun.map RunRow.id ≠ some parent.id ∨
                        s.task.status ≠ .waitingHuman then .error .interruptResponseConflict
                    else if windowExpired pause now then .error .interruptResponseConflict
                    else if pause.status ≠ .pending ∨ (members.any fun m => m.status ≠ .pending)
                    then .error .interruptResponseConflict
                    else
                      match s.acceptResponses pause parent payload hash key runId commandId
                        now with
                      | none => .error .integrity
                      | some s => .ok (s, .requested)

end TaskStore

end CryptoAlert
