import CryptoAlert.Commands.Integrity
import CryptoAlert.Commands.ResponseDumps

/-!
# The way of a review response to the graph

The operation that accepts the responses stores them with its command. The worker that claims the
command validates what is stored and sends it to the Agent Server, under the ids of the
interrupts, and the graph validates what it gets. A null that a reviewer gave is lost on the way:
the field keeps its value, and an edit that gives nothing but nulls is no edit any more, so that
the whole command fails to validate.
-/

namespace CryptoAlert

section Responses

/-- No given field is null. -/
def ReviewResponse.NullFree (r : ReviewResponse) : Prop :=
  ∀ edit, r.edits = some (.artifact edit) → ArtifactEdit.patch.NullFree edit.val

/-- What the graph keeps of a response: its action and the fields that its edits assign. -/
def ReviewResponse.decision (r : ReviewResponse) : ReviewAction × Option Json :=
  (r.action, r.edits.map ReviewEdits.dumpSet)

/-- The graph finds the edits again where it keeps them. -/
theorem ReviewEdits.read_dumpSet (e : ReviewEdits) : read e.dumpSet = some e := by
  cases e with
  | artifact edit =>
      have hread := EditsDump.read_toJson (.artifact edit.val)
      rw [EditsDump.modelValidate, dif_pos edit.property] at hread
      exact hread
  | deepResearch report => exact EditsDump.read_toJson (.deepResearch report)

theorem ReviewEdits.dumpSet_injective : Function.Injective dumpSet := by
  intro e e' h
  have hread := read_dumpSet e
  rw [h, read_dumpSet] at hread
  exact (Option.some.inj hread).symm

theorem ReviewResponse.decision_eq_iff {r g : ReviewResponse} :
    g.decision = r.decision ↔ g.action = r.action ∧ g.edits = r.edits := by
  rw [decision, decision, Prod.mk.injEq,
    (Option.map_injective ReviewEdits.dumpSet_injective).eq_iff]

variable {r g : ReviewResponse}

/-- A stored response that validates has lost its nulls and nothing else. -/
theorem ReviewResponse.validate_modelDump (h : r.modelDump.modelValidate = some g) :
    g.NullFree ∧ g.action = r.action ∧ (r.NullFree → g.edits = r.edits) := by
  obtain ⟨action, edits, comment, hedits⟩ := r
  cases edits with
  | none =>
      rw [modelDump, Option.map_none, ResponseDump.modelValidate, dif_pos hedits] at h
      cases h
      exact ⟨(fun _ hg => by cases hg), rfl, fun _ => rfl⟩
  | some edits =>
    cases edits with
    | deepResearch report =>
      have hg : some (ReviewResponse.mk action _ comment hedits) = some g :=
        (dif_pos hedits).symm.trans h
      cases hg
      exact ⟨(fun _ hg => by cases hg), rfl, fun _ => rfl⟩
    | artifact edit =>
      obtain ⟨edits', hedits', h⟩ := Option.bind_eq_some_iff.mp h
      by_cases hsome : edit.val.excludeNone ≠ ArtifactEdit.unchanged
      · have hpruned : some (ReviewEdits.artifact ⟨edit.val.excludeNone, hsome⟩) = some edits' :=
          (dif_pos hsome).symm.trans hedits'
        cases hpruned
        have hg : some (ReviewResponse.mk action (some (.artifact ⟨_, hsome⟩)) comment hedits) =
            some g := (dif_pos hedits).symm.trans h
        cases hg
        refine ⟨?_, rfl, ?_⟩
        · intro edit' hedit'
          cases hedit'
          exact ArtifactEdit.patch.nullFree_prune edit.val
        · intro hfree
          have hsame := (ArtifactEdit.patch.prune_eq_iff edit.val).mpr (hfree edit rfl)
          exact congrArg (fun e => some (ReviewEdits.artifact e)) (Subtype.ext hsame)
      · have hnone : none = some edits' := (dif_neg hsome).symm.trans hedits'
        cases hnone

/-- Without nulls the response comes back as it was. -/
theorem ReviewResponse.NullFree.validate_modelDump (hfree : r.NullFree) :
    r.modelDump.modelValidate = some r := by
  obtain ⟨action, edits, comment, hedits⟩ := r
  match edits with
  | none => exact dif_pos hedits
  | some (.deepResearch report) => exact dif_pos hedits
  | some (.artifact edit) =>
      have hsame : edit.val.excludeNone = edit.val :=
        (ArtifactEdit.patch.prune_eq_iff edit.val).mpr (hfree edit rfl)
      have hread : EditsDump.modelValidate (.artifact edit.val.excludeNone) =
          some (.artifact edit) := by
        rw [hsame]
        exact dif_pos edit.property
      change (EditsDump.modelValidate (.artifact edit.val.excludeNone)).bind _ = _
      rw [hread]
      exact dif_pos hedits

theorem ReviewResponse.NullFree.of_edits (hg : g.NullFree) (h : g.edits = r.edits) :
    r.NullFree := by
  intro edit hedit
  exact hg edit (h.trans hedit)

end Responses

section Claim

theorem strippedWithin_eq_some {min max : ℕ} {t t' : String} :
    strippedWithin min max t = some t' ↔
      t' = strip t ∧ min ≤ (strip t).length ∧ (strip t).length ≤ max := by
  unfold strippedWithin
  by_cases hbounds : min ≤ (strip t).length ∧ (strip t).length ≤ max
  · rw [if_pos hbounds, Option.some.injEq, eq_comm]
    exact (and_iff_left hbounds).symm
  · rw [if_neg hbounds]
    exact iff_of_false nofun fun h => hbounds h.2

theorem RespondCommandMember.validate_eq_some {m m' : RespondCommandMember} :
    m.validate = some m' ↔
      strippedWithin 1 255 m.interruptId = some m'.interruptId ∧
      strippedWithin 0 1024 m.namespaceName = some m'.namespaceName ∧
      strippedWithin 1 255 m.checkpointId = some m'.checkpointId ∧
      (∃ g, m.response.modelValidate = some g ∧ m'.response = g.modelDump) ∧
      1 ≤ m.responseVersion ∧ m'.projectionId = m.projectionId ∧
      m'.responseVersion = m.responseVersion := by
  unfold RespondCommandMember.validate
  simp only [Option.bind_eq_bind, Option.bind_eq_some_iff]
  constructor
  · rintro ⟨interruptId, hid, namespaceName, hnamespace, checkpointId, hcheckpoint, g, hg, h⟩
    by_cases hversion : 1 ≤ m.responseVersion
    · rw [if_pos hversion] at h
      cases h
      exact ⟨hid, hnamespace, hcheckpoint, ⟨g, hg, rfl⟩, hversion, rfl, rfl⟩
    · rw [if_neg hversion] at h
      cases h
  · rintro ⟨hid, hnamespace, hcheckpoint, ⟨g, hg, hresponse⟩, hversion, hprojection, hsame⟩
    refine ⟨_, hid, _, hnamespace, _, hcheckpoint, g, hg, ?_⟩
    rw [if_pos hversion, ← hprojection, ← hsame, ← hresponse]
    rfl

theorem RespondCommandPayload.validate_eq_some {p p' : RespondCommandPayload} :
    p.validate = some p' ↔
      p.rootCheckpoint.validate = some p'.rootCheckpoint ∧
      List.Forall₂ (fun m m' => m.validate = some m') p.responses p'.responses ∧
      1 ≤ p.pauseVersion ∧ 1 ≤ p'.responses.length ∧ p'.responses.length ≤ 64 ∧
      (p'.responses.map (·.interruptId)).Nodup ∧ (p'.responses.map (·.projectionId)).Nodup ∧
      p'.pauseId = p.pauseId ∧ p'.pauseVersion = p.pauseVersion ∧ p'.expired = p.expired := by
  unfold RespondCommandPayload.validate
  simp only [Option.bind_eq_bind, Option.bind_eq_some_iff, mapM_eq_some_iff]
  constructor
  · rintro ⟨root, hroot, responses, hresponses, h⟩
    split_ifs at h with hvalid
    cases h
    obtain ⟨hversion, hone, hcount, hinterrupts, hprojections⟩ := hvalid
    exact ⟨hroot, hresponses, hversion, hone, hcount, hinterrupts, hprojections, rfl, rfl, rfl⟩
  · rintro ⟨hroot, hresponses, hversion, hone, hcount, hinterrupts, hprojections, hpause, hsame,
      hexpired⟩
    refine ⟨_, hroot, _, hresponses, ?_⟩
    rw [if_pos ⟨hversion, hone, hcount, hinterrupts, hprojections⟩, ← hpause, ← hsame, ← hexpired]
    rfl

/-- The values that the worker sends with the ids of the interrupts that they answer. -/
def RespondCommandPayload.resumeValues (p : RespondCommandPayload) : List (String × Json) :=
  p.responses.map fun m => (m.interruptId, m.response.toJson)

/-- The response that the graph reads at an interrupt, once a worker has claimed the command. -/
def RespondCommandPayload.seenByGraph (p : RespondCommandPayload) (interruptId : String) :
    Option ReviewResponse := do
  let claimed ← p.validate
  let value ← claimed.resumeValues.lookup interruptId
  ReviewResponse.read value

end Claim

section RoundTrip

/-- The command validates when it is claimed, and the graph decides at every interrupt what was
submitted for it. -/
def RoundTrips (payload : RespondCommandPayload) (submission : InterruptResponsesSubmission)
    (members : List InterruptProjection) : Prop :=
  payload.validate.isSome ∧
    ∀ member ∈ members, ∀ item ∈ submission.responses,
      item.interruptId = member.officialInterruptId →
        (payload.seenByGraph member.officialInterruptId).map ReviewResponse.decision =
          some item.response.decision

/-- The worker accepts the ids that the Agent Server gave to the interrupt. -/
structure InterruptProjection.Addressable (m : InterruptProjection) : Prop where
  stripped : strip m.officialInterruptId = m.officialInterruptId
  interruptId : (strippedWithin 1 255 m.officialInterruptId).isSome
  namespaceName : (strippedWithin 0 1024 m.namespaceName).isSome
  checkpointId : (strippedWithin 1 255 m.checkpointId).isSome
  responseVersion : 1 ≤ m.responseVersion

/-- The worker accepts what the pause and its members say about the Agent Server. -/
structure InterruptPause.Addressable (pause : InterruptPause)
    (members : List InterruptProjection) : Prop where
  root : pause.root.validate.isSome
  pauseVersion : 1 ≤ pause.pauseVersion
  count : members.length ≤ 64
  each : ∀ m ∈ members, m.Addressable
  distinct : (members.map (·.officialInterruptId)).Nodup
  distinctRows : (members.map (·.id)).Nodup

/-- The stored answer to a member. -/
def storedAnswer (member : InterruptProjection) (item : InterruptResponseItem) :
    RespondCommandMember :=
  ⟨member.id, member.officialInterruptId, member.namespaceName, member.checkpointId,
    member.responseVersion, item.response.modelDump⟩

def Answers (submission : InterruptResponsesSubmission) (member : InterruptProjection)
    (stored : RespondCommandMember) : Prop :=
  ∃ item ∈ submission.responses, item.interruptId = member.officialInterruptId ∧
    stored = storedAnswer member item

variable {submission : InterruptResponsesSubmission} {member : InterruptProjection}
  {stored claimed : RespondCommandMember} {payload : RespondCommandPayload}
  {members : List InterruptProjection}

theorem canonicalResponse_answers {task : TaskRow}
    (h : TaskStore.canonicalResponse task submission member = .ok stored) :
    Answers submission member stored := by
  unfold TaskStore.canonicalResponse at h
  split at h
  · cases h
  · rename_i item hitem
    have hid := List.find?_some hitem
    rw [beq_iff_eq] at hid
    split at h
    · cases h
    · split at h
      · cases h
      · split at h
        · cases h
          exact ⟨item, List.mem_of_find?_eq_some hitem, hid, rfl⟩
        · cases h

theorem canonicalResponses_answers {task : TaskRow} {responses : List RespondCommandMember}
    (h : TaskStore.canonicalResponses task submission members = .ok responses) :
    List.Forall₂ (Answers submission) members responses := by
  induction members generalizing responses with
  | nil =>
      cases h
      exact .nil
  | cons member members ih =>
      rw [TaskStore.canonicalResponses] at h
      split at h
      · cases h
      · rename_i stored hstored
        cases htail : TaskStore.canonicalResponses task submission members with
        | error e =>
            rw [htail] at h
            cases h
        | ok tail =>
            rw [htail] at h
            cases h
            exact .cons (canonicalResponse_answers hstored) (ih htail)

/-- Whatever the graph reads has no nulls left. -/
theorem RespondCommandPayload.seenByGraph_nullFree {interruptId : String} {g : ReviewResponse}
    (h : payload.seenByGraph interruptId = some g) : g.NullFree := by
  simp only [RespondCommandPayload.seenByGraph, Option.bind_eq_bind, Option.bind_eq_some_iff] at h
  obtain ⟨claimed, hclaimed, value, hvalue, h⟩ := h
  obtain ⟨-, hresponses, -⟩ := validate_eq_some.mp hclaimed
  obtain ⟨_, _, hsplit, -⟩ := List.lookup_eq_some_iff.mp hvalue
  have hmem : (interruptId, value) ∈ claimed.resumeValues := by simp [hsplit]
  obtain ⟨m, hm, hpair⟩ := List.mem_map.mp hmem
  cases hpair
  obtain ⟨m₀, -, hvalidated⟩ := Table.exists_of_forall₂ hresponses hm
  obtain ⟨-, -, -, ⟨g', -, hresponse⟩, -⟩ := RespondCommandMember.validate_eq_some.mp hvalidated
  rw [hresponse, ResponseDump.read_toJson] at h
  exact (ReviewResponse.validate_modelDump h).1

/-- The names that the worker strips. -/
def RespondCommandMember.stripNames (m : RespondCommandMember) : RespondCommandMember :=
  { m with namespaceName := strip m.namespaceName, checkpointId := strip m.checkpointId }

/-- A stored answer without its nulls validates to itself, up to white space around names. -/
theorem InterruptProjection.Addressable.validate {item : InterruptResponseItem}
    (h : member.Addressable) (hfree : item.response.NullFree) :
    (storedAnswer member item).validate = some (storedAnswer member item).stripNames := by
  obtain ⟨interruptId, hid⟩ := Option.isSome_iff_exists.mp h.interruptId
  obtain ⟨namespaceName, hnamespace⟩ := Option.isSome_iff_exists.mp h.namespaceName
  obtain ⟨checkpointId, hcheckpoint⟩ := Option.isSome_iff_exists.mp h.checkpointId
  rw [RespondCommandMember.validate_eq_some]
  have hsame : interruptId = member.officialInterruptId :=
    (strippedWithin_eq_some.mp hid).1.trans h.stripped
  rw [hsame] at hid
  rw [(strippedWithin_eq_some.mp hnamespace).1] at hnamespace
  rw [(strippedWithin_eq_some.mp hcheckpoint).1] at hcheckpoint
  exact ⟨hid, hnamespace, hcheckpoint, ⟨item.response, hfree.validate_modelDump, rfl⟩,
    h.responseVersion, rfl, rfl⟩

section Equivalence

variable {pause : InterruptPause} {sorted : List InterruptProjection}

/-- If the answers come back, the pause is addressable. -/
theorem RoundTrips.addressable (hperm : sorted.Perm members)
    (hanswers : List.Forall₂ (Answers submission) sorted payload.responses)
    (hroot : payload.rootCheckpoint = pause.root)
    (hversion : payload.pauseVersion = pause.pauseVersion)
    (h : RoundTrips payload submission members) : pause.Addressable members := by
  obtain ⟨hvalid, hseen⟩ := h
  obtain ⟨claimed, hclaimed⟩ := Option.isSome_iff_exists.mp hvalid
  have hvalidated := RespondCommandPayload.validate_eq_some.mp hclaimed
  obtain ⟨hroot', hresponses, hpause, -, hcount, hinterrupts, hprojections, -⟩ := hvalidated
  have hstripped : ∀ member ∈ members, strip member.officialInterruptId =
      member.officialInterruptId := by
    intro member hmember
    obtain ⟨stored, -, item, hitem, hid, -⟩ :=
      Table.exists_of_forall₂' hanswers (hperm.mem_iff.mpr hmember)
    obtain ⟨g, hg, -⟩ := Option.map_eq_some_iff.mp (hseen member hmember item hitem hid)
    simp only [RespondCommandPayload.seenByGraph, Option.bind_eq_bind,
      Option.bind_eq_some_iff] at hg
    obtain ⟨claimed', hclaimed', value, hvalue, -⟩ := hg
    cases hclaimed.symm.trans hclaimed'
    obtain ⟨_, _, hsplit, -⟩ := List.lookup_eq_some_iff.mp hvalue
    have hmem : (member.officialInterruptId, value) ∈ claimed.resumeValues := by simp [hsplit]
    obtain ⟨m, hm, hpair⟩ := List.mem_map.mp hmem
    obtain ⟨m₀, -, hm₀⟩ := Table.exists_of_forall₂ hresponses hm
    have hstrip := (strippedWithin_eq_some.mp
      (RespondCommandMember.validate_eq_some.mp hm₀).1).1
    have hname : m.interruptId = member.officialInterruptId := congrArg Prod.fst hpair
    rw [← hname, hstrip, strip_strip]
  have hids : claimed.responses.map (·.interruptId) =
      sorted.map fun member => strip member.officialInterruptId := by
    rw [Table.map_eq_of_forall₂ (f := fun m => strip m.interruptId) ?_ hresponses,
      Table.map_eq_of_forall₂ ?_ hanswers]
    · rintro member stored ⟨item, -, -, rfl⟩
      rfl
    · intro m m' hm
      exact (strippedWithin_eq_some.mp (RespondCommandMember.validate_eq_some.mp hm).1).1
  have hrows : claimed.responses.map (·.projectionId) = sorted.map (·.id) := by
    rw [Table.map_eq_of_forall₂ (f := RespondCommandMember.projectionId) ?_ hresponses,
      Table.map_eq_of_forall₂ ?_ hanswers]
    · rintro member stored ⟨item, -, -, rfl⟩
      rfl
    · intro m m' hm
      exact (RespondCommandMember.validate_eq_some.mp hm).2.2.2.2.2.1
  have hlength : claimed.responses.length = members.length := by
    rw [← hresponses.length_eq, ← hanswers.length_eq, hperm.length_eq]
  refine ⟨?_, hversion ▸ hpause, hlength ▸ hcount, ?_, ?_, ?_⟩
  · rw [← hroot, hroot']
    rfl
  · intro member hmember
    obtain ⟨stored, hstored, item, -, -, rfl⟩ :=
      Table.exists_of_forall₂' hanswers (hperm.mem_iff.mpr hmember)
    obtain ⟨m, -, hm⟩ := Table.exists_of_forall₂' hresponses hstored
    obtain ⟨hid, hnamespace, hcheckpoint, -, hresponse, -⟩ :=
      RespondCommandMember.validate_eq_some.mp hm
    exact ⟨hstripped member hmember, Option.isSome_of_eq_some hid,
      Option.isSome_of_eq_some hnamespace, Option.isSome_of_eq_some hcheckpoint, hresponse⟩
  · rw [hids] at hinterrupts
    have hsame : (members.map fun member => strip member.officialInterruptId) =
        members.map (·.officialInterruptId) := List.map_congr_left hstripped
    rw [← hsame]
    exact ((hperm.map _).nodup_iff).mp hinterrupts
  · rw [hrows] at hprojections
    exact ((hperm.map _).nodup_iff).mp hprojections

/-- If the answers come back, none of them gave a null. -/
theorem RoundTrips.nullFree
    (hcovered : ∀ item ∈ submission.responses,
      item.interruptId ∈ members.map (·.officialInterruptId))
    (h : RoundTrips payload submission members) :
    ∀ item ∈ submission.responses, item.response.NullFree := by
  intro item hitem
  obtain ⟨member, hmember, hid⟩ := List.mem_map.mp (hcovered item hitem)
  obtain ⟨g, hg, hdecision⟩ := Option.map_eq_some_iff.mp (h.2 member hmember item hitem hid.symm)
  exact (RespondCommandPayload.seenByGraph_nullFree hg).of_edits
    (ReviewResponse.decision_eq_iff.mp hdecision).2

/-- Without nulls, the answers to an addressable pause come back. -/
theorem InterruptPause.Addressable.roundTrips (hperm : sorted.Perm members)
    (hanswers : List.Forall₂ (Answers submission) sorted payload.responses)
    (hroot : payload.rootCheckpoint = pause.root)
    (hversion : payload.pauseVersion = pause.pauseVersion) (hone : members ≠ [])
    (hfree : ∀ item ∈ submission.responses, item.response.NullFree)
    (h : pause.Addressable members) : RoundTrips payload submission members := by
  obtain ⟨root, hvalidRoot⟩ := Option.isSome_iff_exists.mp h.root
  have hresponses : List.Forall₂ (fun m m' => RespondCommandMember.validate m = some m')
      payload.responses (payload.responses.map RespondCommandMember.stripNames) := by
    rw [List.forall₂_map_right_iff, List.forall₂_same]
    intro stored hstored
    obtain ⟨member, hmember, item, hitem, -, rfl⟩ := Table.exists_of_forall₂ hanswers hstored
    exact (h.each member (hperm.mem_iff.mp hmember)).validate (hfree item hitem)
  have hids : payload.responses.map (·.interruptId) = sorted.map (·.officialInterruptId) := by
    apply Table.map_eq_of_forall₂ ?_ hanswers
    rintro member stored ⟨item, -, -, rfl⟩
    rfl
  have hrows : payload.responses.map (·.projectionId) = sorted.map (·.id) := by
    apply Table.map_eq_of_forall₂ ?_ hanswers
    rintro member stored ⟨item, -, -, rfl⟩
    rfl
  have hlength : payload.responses.length = members.length := by
    rw [← hanswers.length_eq, hperm.length_eq]
  have hpositive : 1 ≤ members.length := List.length_pos_iff.mpr hone
  have hdistinct : (payload.responses.map (·.interruptId)).Nodup := by
    rw [hids]
    exact ((hperm.map _).nodup_iff).mpr h.distinct
  have hclaimed : payload.validate = some { payload with
      rootCheckpoint := root
      responses := payload.responses.map RespondCommandMember.stripNames } := by
    rw [RespondCommandPayload.validate_eq_some]
    refine ⟨hroot ▸ hvalidRoot, hresponses, hversion ▸ h.pauseVersion, ?_, ?_, ?_, ?_, rfl, rfl,
      rfl⟩
    · rw [List.length_map, hlength]
      exact hpositive
    · rw [List.length_map, hlength]
      exact h.count
    · rw [List.map_map]
      exact hdistinct
    · rw [List.map_map]
      change (payload.responses.map (·.projectionId)).Nodup
      rw [hrows]
      exact ((hperm.map _).nodup_iff).mpr h.distinctRows
  refine ⟨Option.isSome_of_eq_some hclaimed, ?_⟩
  intro member hmember item hitem hid
  obtain ⟨stored, hstored, item', hitem', hid', rfl⟩ :=
    Table.exists_of_forall₂' hanswers (hperm.mem_iff.mpr hmember)
  have hsame : item' = item :=
    List.inj_on_of_nodup_map submission.distinct hitem' hitem (hid'.trans hid.symm)
  rw [hsame] at hstored
  have hlookup : (RespondCommandPayload.resumeValues { payload with
      rootCheckpoint := root
      responses := payload.responses.map RespondCommandMember.stripNames }).lookup
        member.officialInterruptId = some item.response.modelDump.toJson := by
    apply Record.lookup_of_nodup
    · rw [RespondCommandPayload.resumeValues, List.map_map, List.map_map]
      exact hdistinct
    · rw [RespondCommandPayload.resumeValues, List.map_map]
      exact List.mem_map.mpr ⟨_, hstored, rfl⟩
  have hread : ReviewResponse.read item.response.modelDump.toJson = some item.response := by
    rw [ResponseDump.read_toJson]
    exact (hfree item hitem).validate_modelDump
  have hseen : payload.seenByGraph member.officialInterruptId = some item.response := by
    rw [RespondCommandPayload.seenByGraph, hclaimed]
    change (Option.bind _ ReviewResponse.read) = _
    rw [hlookup]
    exact hread
  rw [hseen]
  rfl

end Equivalence

end RoundTrip

namespace TaskStore

/-- The responses that the service accepts reach the graph as they were submitted exactly if none
of them sets a field to null, and the worker accepts the ids of the pause. -/
theorem respondInterrupts_roundTrips {digests : KeyDigests} {s s' : TaskStore}
    {submission : InterruptResponsesSubmission} {key : String} {runId commandId now : ℕ}
    {reply : Reply}
    (h : s.respondInterrupts digests submission key runId commandId now = .ok (s', reply)) :
    ∃ pause command payload, s.findPause submission.pauseId = some pause ∧
      command ∈ s'.commands ∧ command.payloadHash = digests.respond payload ∧
      (reply = .requested → command.payload = .respond payload) ∧
      (RoundTrips payload submission (s.membersOf pause.id) ↔
        (∀ item ∈ submission.responses, item.response.NullFree) ∧
          pause.Addressable (s.membersOf pause.id)) := by
  unfold respondInterrupts at h
  dsimp only at h
  split at h
  · cases h
  rename_i pause hpause
  obtain ⟨hempty, h⟩ := of_not_refused h
  obtain ⟨hexact, h⟩ := of_not_refused h
  obtain ⟨-, h⟩ := of_not_refused h
  split at h
  · cases h
  rename_i responses hresponses
  rw [not_not] at hexact
  have hperm : (sortMembers (s.membersOf pause.id)).Perm (s.membersOf pause.id) :=
    List.perm_insertionSort _ _
  have hanswers := canonicalResponses_answers hresponses
  have hone : s.membersOf pause.id ≠ [] := by simpa using hempty
  have hequiv : RoundTrips ⟨pause.id, pause.pauseVersion, pause.root, responses, false⟩ submission
      (s.membersOf pause.id) ↔ (∀ item ∈ submission.responses, item.response.NullFree) ∧
        pause.Addressable (s.membersOf pause.id) := by
    constructor
    · exact fun hround => ⟨hround.nullFree hexact.2, hround.addressable hperm hanswers rfl rfl⟩
    · exact fun ⟨hfree, haddressable⟩ =>
        haddressable.roundTrips hperm hanswers rfl rfl hone hfree
  split at h
  · rename_i replay hreplay
    obtain ⟨hhash, h⟩ := of_not_refused h
    cases h
    rw [not_not] at hhash
    exact ⟨pause, replay, _, hpause, List.mem_of_find?_eq_some hreplay, hhash, nofun, hequiv⟩
  · split at h
    · cases h
    rename_i parent hparent
    obtain ⟨-, h⟩ := of_not_refused h
    obtain ⟨-, h⟩ := of_not_refused h
    obtain ⟨-, h⟩ := of_not_refused h
    split at h
    · cases h
    rename_i s₁ haccept
    cases h
    obtain ⟨s₂, -, haccept⟩ := Option.bind_eq_some_iff.mp haccept
    obtain ⟨-, rfl⟩ := insertCommand_eq_some haccept
    exact ⟨pause, _, _, hpause, List.mem_append_right _ (List.mem_singleton_self _), rfl,
      fun _ => rfl, hequiv⟩

end TaskStore

section Examples

def quietReview : ReviewPayload :=
  .artifact ⟨⟨1, one_le_one⟩, { quietArtifact with status := .draft }, rfl⟩

def quietInterrupts : RemoteInterruptSet where
  checkpoint := ⟨"thread", "", "checkpoint", []⟩
  interrupts := [⟨"interrupt", "", "checkpoint", quietReview.modelDump⟩]
  distinct := List.nodup_singleton _
  notBlank := by decide

/-- A submission that is claimed and followed until its review. -/
def pausedRun : List TaskLabel :=
  [.claim "worker" 3 0, .execute 0 .proceed 0, .execute 0 .proceed 0,
    .execute 0 (.found plainHandle) 1, .execute 0 .proceed 1, .execute 0 .proceed 2,
    .execute 0 (.state .interrupted) 3, .execute 0 (.interrupts quietInterrupts) 3,
    .execute 0 (.pause 4 [5]) 3]

def answerWith (response : ReviewResponse) : InterruptResponsesSubmission where
  pauseId := 4
  pauseVersion := 1
  responses := [⟨"interrupt", 1, response⟩]
  distinct := List.nodup_singleton _

/-- An edit that takes the stop price away. -/
def withoutStop : ReviewResponse :=
  ⟨.edit, some (.artifact ⟨{ ArtifactEdit.unchanged with stopPrice := some none }, by decide⟩),
    none, by decide⟩

/-- Whether the service accepts a response and the command that it inserts passes a check. -/
noncomputable def TaskStore.acceptsWith (s : TaskStore) (response : ReviewResponse)
    (check : RespondCommandPayload → Bool) : Bool :=
  match s.respondInterrupts plainDigests (answerWith response) "answer" 6 7 8 with
  | .ok (s', .requested) => s'.commands.any fun c =>
      match c.payload with
      | .respond payload => check payload
      | _ => false
  | _ => false

theorem TaskStore.acceptsWith_iff {s : TaskStore} {response : ReviewResponse}
    {check : RespondCommandPayload → Bool} : s.acceptsWith response check = true ↔
      ∃ s' c payload, s.respondInterrupts plainDigests (answerWith response) "answer" 6 7 8 =
        .ok (s', .requested) ∧ c ∈ s'.commands ∧ c.payload = .respond payload ∧
        check payload = true := by
  unfold acceptsWith
  constructor
  · intro h
    split at h
    · rename_i s' hs
      obtain ⟨c, hc, h⟩ := List.any_eq_true.mp h
      split at h
      · rename_i payload hpayload
        exact ⟨s', c, payload, hs, hc, hpayload, h⟩
      · cases h
    · cases h
  · rintro ⟨s', c, payload, hs, hc, hpayload, hcheck⟩
    rw [hs]
    refine List.any_eq_true.mpr ⟨c, hc, ?_⟩
    rw [hpayload]
    exact hcheck

/-- An approval of a paused review. -/
theorem respondInterrupts_roundTrips_approval :
    ∃ (t : TaskState) (s' : TaskStore) (pause : InterruptPause) (payload : RespondCommandPayload),
      Reaches (TaskState.step plainDispatcher plainDigests) anyStep plainTask t ∧
      t.store.respondInterrupts plainDigests (answerWith approval) "answer" 6 7 8 =
        .ok (s', .requested) ∧ t.store.findPause 4 = some pause ∧
      (RoundTrips payload (answerWith approval) (t.store.membersOf pause.id) ↔
        (∀ item ∈ (answerWith approval).responses, item.response.NullFree) ∧
          pause.Addressable (t.store.membersOf pause.id)) := by
  have hany : (runLabels (TaskState.step plainDispatcher plainDigests) plainTask
      pausedRun).any (fun t => t.store.acceptsWith approval fun _ => true) = true := by
    decide +kernel
  obtain ⟨t, hlabels, haccepts⟩ := (Option.any_eq_true _ _).mp hany
  obtain ⟨s', -, -, hanswer, -⟩ := TaskStore.acceptsWith_iff.mp haccepts
  obtain ⟨pause, -, payload, hpause, -, -, -, hequiv⟩ :=
    TaskStore.respondInterrupts_roundTrips hanswer
  exact ⟨t, s', pause, payload, reaches_of_runLabels pausedRun hlabels, hanswer, hpause, hequiv⟩

/-- An edit that only takes the stop price away is accepted, and its command is invalid. -/
theorem respondInterrupts_withoutStop :
    ∃ t s' c payload, Reaches (TaskState.step plainDispatcher plainDigests) anyStep plainTask t ∧
      t.store.respondInterrupts plainDigests (answerWith withoutStop) "answer" 6 7 8 =
        .ok (s', .requested) ∧
      c ∈ s'.commands ∧ c.payload = .respond payload ∧ payload.validate = none := by
  have hany : (runLabels (TaskState.step plainDispatcher plainDigests) plainTask
      pausedRun).any (fun t => t.store.acceptsWith withoutStop fun payload =>
        payload.validate.isNone) = true := by
    decide +kernel
  obtain ⟨t, hlabels, haccepts⟩ := (Option.any_eq_true _ _).mp hany
  obtain ⟨s', c, payload, hanswer, hc, hpayload, hinvalid⟩ :=
    TaskStore.acceptsWith_iff.mp haccepts
  exact ⟨t, s', c, payload, reaches_of_runLabels pausedRun hlabels, hanswer, hc, hpayload,
    Option.isNone_iff_eq_none.mp hinvalid⟩

end Examples

end CryptoAlert
