import CryptoAlert.Persistence.Statuses
import CryptoAlert.Projections.EventSequence

/-!
# The worker that projects the events of terminal runs

The worker selects a run by a predicate on its stored output and on the types of its stored
events, and appends the events that the output gives rise to. The two sides are written
independently of each other.
-/

namespace CryptoAlert

structure ProjectedRun where
  id : ℕ
  threadId : ℕ
  status : RunStatus
  finishedAt : Option ℕ
  checkpointId : Option String
  outputPayload : Option Json
  /-- The payloads of the notifications of the run, the latest first. -/
  outbox : List {payload : Json // payload.isObj = true}

structure EventStore where
  /-- The runs in the order of their end and their id. -/
  runs : List ProjectedRun
  logs : ℕ → EventLog

/-- The value at a path of the artifact of an output. -/
def artifactField (output : Json) (key : String) : Option Json :=
  (output.get? "artifact").bind (Json.get? key)

/-- The text value `committed`. -/
def isCommitted : Option Json → Bool
  | some (.str status) => status == "committed"
  | _ => false

namespace EventStore

/-- `missing` of the selection query. -/
def missing (store : EventStore) (run : ProjectedRun) (eventType : EventType) : Bool :=
  !(store.logs run.threadId).events.any fun e => e.runId = run.id ∧ e.eventType = eventType

/-- The condition of the selection query on one run. A JSON value under a key is not a null of
the database, whatever the value is. -/
def selects (store : EventStore) (run : ProjectedRun) : Bool :=
  run.status.isTerminal && run.outputPayload.any fun output =>
    store.missing run .runTerminal ||
    (output.get? "market_snapshot").isSome && store.missing run .marketSnapshot ||
    ((output.get? "artifact").isSome || (output.get? "web_evidence").isSome) &&
      store.missing run .researchEvidence ||
    (artifactField output "analysis").isSome && store.missing run .agentOutput ||
    (artifactField output "evidence_verdict").isSome && store.missing run .evidenceVerdict ||
    (artifactField output "risk_verdict").isSome && store.missing run .riskVerdict ||
    isCommitted (artifactField output "status") && store.missing run .artifact ||
    !run.outbox.isEmpty && store.missing run .notificationPlanned

/-- The first run that is selected and not locked by another transaction. -/
def nextRow (store : EventStore) (locked : ℕ → Bool) (runId : Option ℕ) : Option ProjectedRun :=
  store.runs.find? fun run =>
    store.selects run && !locked run.id && runId.all (fun id => run.id == id)

/-- How many runs the worker would still select. -/
def selectable (store : EventStore) : ℕ := store.runs.countP store.selects

variable (hashing : Hashing) (models : PayloadModels)

/-- `dispatch_once`, committed or raised. -/
def dispatchOnce (store : EventStore) (locked : ℕ → Bool) (runId : Option ℕ) (now : ℕ) :
    Except AppendError (Bool × EventStore) :=
  match store.nextRow locked runId with
  | none => .ok (false, store)
  | some run =>
      match run.outputPayload with
      | some (.obj fields) =>
          match (store.logs run.threadId).appendDomainEvents hashing models run.id (.obj fields)
              (run.outbox.head?.map Subtype.val) run.checkpointId (run.finishedAt.getD now) with
          | .ok log => .ok (true, { store with logs := Function.update store.logs run.threadId log })
          | .error e => .error e
      | _ => .ok (false, store)

end EventStore

section Derivation

variable {hashing : Hashing} {models : PayloadModels} {output : Json}
  {notification : Option Json} {specs : List (DomainEventSpec hashing)}

/-- The output gives rise to an event of a type. -/
def Derives (specs : List (DomainEventSpec hashing)) (eventType : EventType) : Prop :=
  ∃ spec ∈ specs, spec.eventType = eventType

theorem derives_append {l l' : List (DomainEventSpec hashing)} {eventType : EventType} :
    Derives (l ++ l') eventType ↔ Derives l eventType ∨ Derives l' eventType := by
  simp only [Derives, List.mem_append, or_and_right, exists_or]

theorem derives_fieldSpecs {eventType : EventType} {ref : String} {value : Option Json}
    {eventType' : EventType} :
    Derives (fieldSpecs hashing eventType ref value) eventType' ↔
      value.any Json.isObj = true ∧ eventType' = eventType := by
  unfold fieldSpecs
  split
  · simp [Derives, eventSpec, Json.isObj, eq_comm]
  · rename_i hnot
    cases value with
    | none => simp [Derives]
    | some j => cases j <;> simp_all [Derives, Json.isObj]

theorem derives_artifactSpecs {artifact : Json} (hobj : artifact.isObj = true)
    {key : String} {eventType : EventType}
    (hkey : (key, eventType) ∈ [("analysis", EventType.agentOutput),
      ("evidence_verdict", .evidenceVerdict), ("risk_verdict", .riskVerdict)])
    (hfield : (artifact.get? key).any Json.isObj = true) :
    Derives (artifactSpecs hashing (some artifact)) eventType := by
  cases artifact with
  | obj fields =>
      simp only [List.mem_cons, Prod.mk.injEq, List.not_mem_nil, or_false] at hkey
      simp only [artifactSpecs, derives_append, derives_fieldSpecs]
      rcases hkey with ⟨rfl, rfl⟩ | ⟨rfl, rfl⟩ | ⟨rfl, rfl⟩
      · exact .inl (.inl (.inl ⟨hfield, rfl⟩))
      · exact .inl (.inl (.inr ⟨hfield, rfl⟩))
      · exact .inl (.inr ⟨hfield, rfl⟩)
  | null | bool | num | str | arr => cases hobj

theorem derives_committed {artifact : Json} (hobj : artifact.isObj = true)
    (hstatus : artifact.get? "status" = some (.str "committed")) :
    Derives (artifactSpecs hashing (some artifact)) .artifact := by
  cases artifact with
  | obj fields =>
      simp only [artifactSpecs, derives_append, hstatus]
      exact .inr ⟨_, List.mem_singleton_self _, rfl⟩
  | null | bool | num | str | arr => cases hobj

theorem derives_researchEvidence {eventType : EventType} :
    Derives (outputEvidenceSpecs hashing output) eventType ↔
      eventType = .researchEvidence ∧ ∃ items, output.get? "web_evidence" = some (.arr items) ∧
        (items ≠ [] ∨ (output.get? "artifact").any Json.isObj = true ∨
          (output.get? "deep_research_artifact").any Json.isObj = true) := by
  unfold outputEvidenceSpecs
  split
  · rename_i items hitems
    split_ifs with hcond
    · simp only [Bool.or_eq_true, Bool.not_eq_true', List.isEmpty_eq_false_iff] at hcond
      simp only [Derives, List.mem_singleton, exists_eq_left, eventSpec, hitems, Option.some.injEq,
        Json.arr.injEq, exists_eq_left', eq_comm (a := eventType)]
      exact (and_iff_left (or_assoc.mp hcond)).symm
    · simp only [Bool.or_eq_true, Bool.not_eq_true', List.isEmpty_eq_false_iff] at hcond
      simp only [Derives, List.not_mem_nil, false_and, exists_false, hitems, Option.some.injEq,
        Json.arr.injEq, exists_eq_left', false_iff, not_and]
      exact fun _ h => hcond (or_assoc.mpr h)
  · rename_i hnot
    simp only [Derives, List.not_mem_nil, false_and, exists_false, false_iff]
    rintro ⟨-, items, hitems, -⟩
    exact hnot items hitems

end Derivation

section Outputs

variable {hashing : Hashing} {models : PayloadModels} (t : TerminalGraphOutput)

/-- The output has evidence, or an artifact along with which empty evidence is reported. -/
def ReportsEvidence : Prop :=
  t.webEvidence ≠ [] ∨ t.artifact.isSome ∨ t.deepResearchArtifact.isSome

theorem artifactField_modelDump (key : String) : artifactField t.modelDump key =
    t.artifact.bind fun a => (Artifact.codec.dump a).excludeNone.get? key := by
  rw [artifactField, t.get?_artifact]
  cases t.artifact <;> rfl

variable {t} {notification : Option Json} {specs : List (DomainEventSpec hashing)}

/-- The types of the events that a dumped output gives rise to. -/
structure DerivedTypes (t : TerminalGraphOutput) (notification : Option Json)
    (specs : List (DomainEventSpec hashing)) : Prop where
  terminal : Derives specs .runTerminal
  market : t.marketSnapshot.isSome → Derives specs .marketSnapshot
  evidence : Derives specs .researchEvidence ↔ ReportsEvidence t
  output : t.artifact.isSome → Derives specs .agentOutput
  evidenceVerdict : t.artifact.isSome → Derives specs .evidenceVerdict
  riskVerdict : t.artifact.isSome → Derives specs .riskVerdict
  committed : isCommitted (artifactField t.modelDump "status") = true → Derives specs .artifact
  planned : notification.isSome → Derives specs .notificationPlanned

theorem derivedTypes
    (h : domainEventSpecs hashing models t.modelDump notification = some specs) :
    DerivedTypes t notification specs := by
  obtain ⟨research, hresearch, rfl⟩ := Option.map_eq_some_iff.mp h
  have hresearchTypes : ∀ spec ∈ research, spec.eventType ≠ .researchEvidence := by
    intro spec hspec heq
    have hsub := (deepResearchSpecs_types hresearch).subset (List.mem_map_of_mem hspec)
    rw [heq] at hsub
    simp at hsub
  have hartifactTypes : ¬ Derives (artifactSpecs hashing (t.modelDump.get? "artifact"))
      .researchEvidence := by
    rintro ⟨spec, hspec, heq⟩
    have hsub := (artifactSpecs_types hashing _).subset (List.mem_map_of_mem hspec)
    rw [heq] at hsub
    simp at hsub
  have hmarket : (t.modelDump.get? "market_snapshot").any Json.isObj = t.marketSnapshot.isSome := by
    rw [t.get?_marketSnapshot]
    cases t.marketSnapshot <;> rfl
  have hartifact : (t.modelDump.get? "artifact").any Json.isObj = t.artifact.isSome := by
    rw [t.get?_artifact]
    cases t.artifact <;> rfl
  have hdeep : (t.modelDump.get? "deep_research_artifact").any Json.isObj =
      t.deepResearchArtifact.isSome := by
    rw [t.get?_deepResearchArtifact]
    cases t.deepResearchArtifact <;> rfl
  have hfields {key : String} {eventType : EventType}
      (hkey : (key, eventType) ∈ [("analysis", EventType.agentOutput),
        ("evidence_verdict", .evidenceVerdict), ("risk_verdict", .riskVerdict)])
      (hsome : t.artifact.isSome) :
      Derives (artifactSpecs hashing (t.modelDump.get? "artifact")) eventType := by
    obtain ⟨a, ha⟩ := Option.isSome_iff_exists.mp hsome
    rw [t.get?_artifact, ha, Option.map_some]
    refine derives_artifactSpecs rfl hkey ?_
    simp only [List.mem_cons, Prod.mk.injEq, List.not_mem_nil, or_false] at hkey
    rcases hkey with ⟨rfl, -⟩ | ⟨rfl, -⟩ | ⟨rfl, -⟩ <;> rfl
  refine ⟨?_, ?_, ?_, ?_, ?_, ?_, ?_, ?_⟩
  · exact ⟨_, List.mem_append_right _ (List.mem_singleton_self _), rfl⟩
  · intro hsome
    simp only [derives_append, derives_fieldSpecs, hmarket, hsome]
    tauto
  · have hplanned : ¬ Derives (notification.toList.map
        (eventSpec hashing .notificationPlanned "notification_outbox#/payload"))
        .researchEvidence := by
      rintro ⟨spec, hspec, heq⟩
      obtain ⟨payload, -, rfl⟩ := List.mem_map.mp hspec
      cases heq
    have hterminal : ¬ Derives [eventSpec hashing .runTerminal "output_payload#" t.modelDump]
        .researchEvidence := by
      rintro ⟨spec, hspec, heq⟩
      rw [List.mem_singleton.mp hspec] at heq
      cases heq
    have hresearch : ¬ Derives research .researchEvidence :=
      fun ⟨spec, hspec, heq⟩ => hresearchTypes spec hspec heq
    simp only [derives_append, derives_fieldSpecs, derives_researchEvidence, hartifactTypes,
      hresearch, hplanned, hterminal, reduceCtorEq, and_false, or_false, false_or, true_and,
      t.get?_webEvidence, Option.some.injEq, Json.arr.injEq, exists_eq_left', hartifact, hdeep,
      ne_eq, List.map_eq_nil_iff, ReportsEvidence]
  · intro hsome
    have houtput := hfields (.head _) hsome
    simp only [derives_append]
    tauto
  · intro hsome
    have houtput := hfields (.tail _ (.head _)) hsome
    simp only [derives_append]
    tauto
  · intro hsome
    have houtput := hfields (.tail _ (.tail _ (.head _))) hsome
    simp only [derives_append]
    tauto
  · intro hcommitted
    have houtput : Derives (artifactSpecs hashing (t.modelDump.get? "artifact")) .artifact := by
      rw [artifactField_modelDump] at hcommitted
      rw [t.get?_artifact]
      cases ha : t.artifact with
      | none =>
          rw [ha] at hcommitted
          cases hcommitted
      | some a =>
          rw [ha, Option.bind_some] at hcommitted
          refine derives_committed rfl ?_
          cases hstatus : (Artifact.codec.dump a).excludeNone.get? "status" with
          | none =>
              rw [hstatus] at hcommitted
              cases hcommitted
          | some value =>
              rw [hstatus] at hcommitted
              cases value with
              | str status => rw [of_decide_eq_true hcommitted]
              | null | bool | num | arr | obj => cases hcommitted
    simp only [derives_append]
    tauto
  · intro hsome
    obtain ⟨payload, rfl⟩ := Option.isSome_iff_exists.mp hsome
    have hplanned : Derives ((some payload).toList.map
        (eventSpec hashing .notificationPlanned "notification_outbox#/payload"))
        .notificationPlanned := ⟨_, List.mem_singleton_self _, rfl⟩
    simp only [derives_append]
    tauto

end Outputs

section Progress

variable {hashing : Hashing} {models : PayloadModels} {store store' : EventStore}
  {locked : ℕ → Bool} {runId : Option ℕ} {now : ℕ} {run : ProjectedRun}

theorem countP_lt_countP {α : Type} {p q : α → Bool} {l : List α} {a : α}
    (hle : ∀ x ∈ l, p x = true → q x = true) (ha : a ∈ l) (hq : q a = true) (hp : p a = false) :
    l.countP p < l.countP q := by
  obtain ⟨before, after, rfl⟩ := List.append_of_mem ha
  have hbefore : before.countP p ≤ before.countP q :=
    List.countP_mono_left fun x hx => hle x (List.mem_append_left _ hx)
  have hafter : after.countP p ≤ after.countP q :=
    List.countP_mono_left fun x hx => hle x (List.mem_append_right _ (List.mem_cons_of_mem _ hx))
  simp only [List.countP_append, List.countP_cons, hq, hp, if_true, Bool.false_eq_true, if_false]
  omega

theorem missing_eq_false {eventType : EventType} :
    store.missing run eventType = false ↔
      ∃ e ∈ (store.logs run.threadId).events, e.runId = run.id ∧ e.eventType = eventType := by
  simp [EventStore.missing]

/-- The selection of a run looks at the stored events through their types only. -/
theorem selects_congr (h : ∀ eventType, store'.missing run eventType = store.missing run eventType) :
    store'.selects run = store.selects run := by
  simp only [EventStore.selects, h]

/-- A call that has projected a run has appended the events of its output. -/
theorem dispatchOnce_cases (hrow : store.nextRow locked runId = some run) {output : Json}
    (houtput : run.outputPayload = some output)
    (h : store.dispatchOnce hashing models locked runId now = .ok (true, store')) :
    ∃ specs log, domainEventSpecs hashing models output (run.outbox.head?.map Subtype.val) =
        some specs ∧
      (store.logs run.threadId).appendEventSpecs hashing ⟨run.id,
        s!"terminal:{hashing.payloadHash output}", none, run.checkpointId,
        run.finishedAt.getD now⟩ specs = .ok log ∧
      store' = { store with logs := Function.update store.logs run.threadId log } := by
  simp only [EventStore.dispatchOnce, hrow, houtput] at h
  cases output with
  | obj fields =>
      dsimp only at h
      split at h
      · rename_i log happend
        cases h
        unfold EventLog.appendDomainEvents at happend
        split at happend
        · cases happend
        · rename_i specs hspecs
          exact ⟨specs, log, hspecs, happend, rfl⟩
      · cases h
  | null | bool | num | str | arr => cases h

/-- After the call a type is missing for the run only if it was and the output has none. -/
theorem missing_dispatched {specs : List (DomainEventSpec hashing)} {log : EventLog}
    {source : EventSource} (hsource : source.runId = run.id)
    (happend : (store.logs run.threadId).appendEventSpecs hashing source specs = .ok log)
    (eventType : EventType) :
    EventStore.missing { store with logs := Function.update store.logs run.threadId log } run
      eventType = false ↔ store.missing run eventType = false ∨ Derives specs eventType := by
  rw [missing_eq_false, missing_eq_false]
  simp only [Function.update_self]
  constructor
  · rintro ⟨e, he, hrun, rfl⟩
    rcases (EventLog.mem_of_appendEventSpecs happend e).2 he with hold | ⟨-, s, hs, htype⟩
    · exact .inl ⟨e, hold, hrun, rfl⟩
    · exact .inr ⟨s, hs, htype⟩
  · rintro (⟨e, he, hrun⟩ | ⟨s, hs, rfl⟩)
    · exact ⟨e, (EventLog.mem_of_appendEventSpecs happend e).1 he, hrun⟩
    · obtain ⟨e, he, hrun, htype⟩ := EventLog.appendEventSpecs_covers happend s hs
      exact ⟨e, he, hrun.trans hsource, htype⟩

/-- Events of another run are left alone. -/
theorem missing_other {specs : List (DomainEventSpec hashing)} {log : EventLog}
    {source : EventSource} (hsource : source.runId = run.id)
    (happend : (store.logs run.threadId).appendEventSpecs hashing source specs = .ok log)
    {other : ProjectedRun} (hother : other.id ≠ run.id) (eventType : EventType) :
    EventStore.missing { store with logs := Function.update store.logs run.threadId log } other
      eventType = store.missing other eventType := by
  rw [Bool.eq_iff_iff, ← not_iff_not, Bool.not_eq_true, Bool.not_eq_true, missing_eq_false,
    missing_eq_false]
  by_cases hthread : other.threadId = run.threadId
  · rw [hthread]
    simp only [Function.update_self]
    refine exists_congr fun e => ?_
    have hmem := EventLog.mem_of_appendEventSpecs happend e
    constructor
    · rintro ⟨he, hrun, htype⟩
      rcases hmem.2 he with hold | ⟨hnew, -⟩
      · exact ⟨hold, hrun, htype⟩
      · exact absurd (hrun.symm.trans (hnew.trans hsource)) hother
    · rintro ⟨he, hrun, htype⟩
      exact ⟨hmem.1 he, hrun, htype⟩
  · simp only [Function.update_of_ne hthread]

/-- A projected run is no longer selected, so that there are fewer runs to select, exactly if its
output has evidence or an artifact, or an event for evidence was stored before. -/
theorem dispatchOnce_progress_iff {t : TerminalGraphOutput}
    (hids : (store.runs.map (·.id)).Nodup) (hrow : store.nextRow locked runId = some run)
    (houtput : run.outputPayload = some t.modelDump)
    (h : store.dispatchOnce hashing models locked runId now = .ok (true, store')) :
    (store'.selects run = false ∧ store'.selectable < store.selectable) ↔
      ReportsEvidence t ∨ store.missing run .researchEvidence = false := by
  obtain ⟨specs, log, hspecs, happend, rfl⟩ := dispatchOnce_cases hrow houtput h
  have hderived := derivedTypes hspecs
  have hmissing (eventType : EventType) : EventStore.missing
      { store with logs := Function.update store.logs run.threadId log } run eventType = false ↔
        store.missing run eventType = false ∨ Derives specs eventType :=
    missing_dispatched rfl happend eventType
  have hrun : run ∈ store.runs := List.mem_of_find?_eq_some hrow
  have hselected : store.selects run = true := by
    have hfound := List.find?_some hrow
    simp only [Bool.and_eq_true] at hfound
    exact hfound.1.1
  constructor
  · rintro ⟨hdeselected, -⟩
    simp only [EventStore.selects, houtput, Option.any_some, Bool.and_eq_true] at hselected
    simp only [EventStore.selects, houtput, Option.any_some, hselected.1, Bool.true_and,
      Bool.or_eq_false_iff] at hdeselected
    obtain ⟨⟨⟨⟨⟨⟨-, hevidence⟩, -⟩, -⟩, -⟩, -⟩, -⟩ := hdeselected
    rw [t.get?_webEvidence, Option.isSome_some, Bool.or_true, Bool.true_and, hmissing,
      hderived.evidence] at hevidence
    exact hevidence.symm
  · intro hcondition
    have hdeselected : EventStore.selects
        { store with logs := Function.update store.logs run.threadId log } run = false := by
      have hnot {eventType : EventType} {condition : Bool}
          (hderives : condition = true → Derives specs eventType) :
          (condition && EventStore.missing { store with
            logs := Function.update store.logs run.threadId log } run eventType) = false := by
        cases condition with
        | false => rfl
        | true => exact (hmissing eventType).mpr (.inr (hderives rfl))
      have hartifact {key : String} (hsome : (artifactField t.modelDump key).isSome = true) :
          t.artifact.isSome := by
        rw [artifactField_modelDump] at hsome
        cases ha : t.artifact with
        | none =>
            rw [ha] at hsome
            cases hsome
        | some a => rfl
      have hevidence := (hmissing .researchEvidence).mpr
        (hcondition.symm.imp_right hderived.evidence.mpr)
      simp only [EventStore.selects, houtput, Option.any_some, hevidence,
        (hmissing .runTerminal).mpr (.inr hderived.terminal), Bool.and_false, Bool.or_false,
        Bool.false_or]
      rw [hnot fun hsome => hderived.market (by simpa [t.get?_marketSnapshot] using hsome),
        hnot fun hsome => hderived.output (hartifact hsome),
        hnot fun hsome => hderived.evidenceVerdict (hartifact hsome),
        hnot fun hsome => hderived.riskVerdict (hartifact hsome), hnot hderived.committed,
        hnot fun hsome => hderived.planned (by cases hout : run.outbox <;> simp_all)]
      simp
    refine ⟨hdeselected, countP_lt_countP (fun x hx hselects => ?_) hrun hselected hdeselected⟩
    by_cases hx' : x.id = run.id
    · rw [List.inj_on_of_nodup_map hids hx hrun hx', hdeselected] at hselects
      cases hselects
    · rwa [selects_congr (missing_other rfl happend hx')] at hselects

end Progress

section Failed

/-! Failed runs, with and without evidence that was collected before the failure. -/

def modelUnavailable : GraphExecutionError where
  code := ⟨⟨⟨"model_unavailable", by decide⟩, by decide⟩, by decide⟩
  retryable := true
  provider := none
  errorType := none
  attempt := none
  endpoint := none
  fallbackFrom := none
  primaryAttempt := none
  correlationId := none
  field := none
  expected := none
  actual := none

def failedTerminal (webEvidence : List (WebEvidence ReadUrl)) : TerminalGraphOutput :=
  ⟨.failed, none, webEvidence, none, none, [modelUnavailable], ⟨rfl, rfl, by decide⟩⟩

def collectedEvidence : WebEvidence ReadUrl where
  query := "q"
  finalUrl := ⟨⟨"https://example.com/"⟩, by decide +kernel⟩
  redirectChain := []
  httpStatus := some 200
  fetchedAt := ⟨"2026-01-01T00:00:00Z"⟩
  publishedAt := none
  contentHash := "hash"
  parserVersion := "v1"
  title := "title"
  author := none
  source := "source"
  excerpt := "excerpt"
  evidenceRelation := "supports"

def failedRun (webEvidence : List (WebEvidence ReadUrl)) : ProjectedRun :=
  ⟨1, 1, .failed, some 0, none, some (failedTerminal webEvidence).modelDump, []⟩

def failedStore (webEvidence : List (WebEvidence ReadUrl)) : EventStore :=
  ⟨[failedRun webEvidence], fun _ => ⟨[], 1⟩⟩

/-- A failed run with evidence is projected once. -/
theorem dispatchOnce_progress_collected :
    ∃ store, (failedStore [collectedEvidence]).dispatchOnce plainHashing dumpModels
        (fun _ => false) none 0 = .ok (true, store) ∧
      store.selectable < (failedStore [collectedEvidence]).selectable := by
  have hany : (match (failedStore [collectedEvidence]).dispatchOnce plainHashing dumpModels
      (fun _ => false) none 0 with
      | .ok (done, _) => done
      | .error _ => false) = true := by
    decide +kernel
  have hrow : (failedStore [collectedEvidence]).nextRow (fun _ => false) none =
      some (failedRun [collectedEvidence]) := by
    have hselects : (failedStore [collectedEvidence]).selects (failedRun [collectedEvidence]) =
        true := by
      decide +kernel
    simp [EventStore.nextRow, failedStore, failedRun] at hselects ⊢
    exact hselects
  split at hany
  · rename_i done store hdispatch
    subst hany
    have hids : ((failedStore [collectedEvidence]).runs.map (·.id)).Nodup :=
      List.nodup_singleton _
    have hevidence : ReportsEvidence (failedTerminal [collectedEvidence]) :=
      .inl (List.cons_ne_nil _ _)
    have hprogress := (dispatchOnce_progress_iff hids hrow rfl hdispatch).mpr (.inl hevidence)
    exact ⟨store, hdispatch, hprogress.2⟩
  · cases hany

/-- A failed run without evidence is selected again after it has been projected. -/
theorem failed_run_selected_again :
    ∃ store, (failedStore []).dispatchOnce plainHashing dumpModels (fun _ => false) none 0 =
        .ok (true, store) ∧
      store.selects (failedRun []) = true ∧ store.selectable = (failedStore []).selectable := by
  have hany : (match (failedStore []).dispatchOnce plainHashing dumpModels
      (fun _ => false) none 0 with
      | .ok (done, store) => done && store.selects (failedRun []) &&
          store.selectable == (failedStore []).selectable
      | .error _ => false) = true := by
    decide +kernel
  split at hany
  · rename_i done store hdispatch
    simp only [Bool.and_eq_true, beq_iff_eq] at hany
    obtain ⟨⟨rfl, hselects⟩, hcount⟩ := hany
    exact ⟨store, hdispatch, hselects, hcount⟩
  · cases hany

end Failed

end CryptoAlert
