import CryptoAlert.Projections.EventLog

/-!
# Sequence numbers and keys of the events of a thread

Transactions that append to the log of a thread run one after the other, since each of them
takes its numbers by an update of the thread row; any of them may be rolled back.
-/

namespace CryptoAlert

section Types

variable {hashing : Hashing} {models : PayloadModels}

theorem objectSpecs_types {eventType : EventType} {node channel : String}
    {validate : Json → Option Json} {update : Json} {specs : List (DomainEventSpec hashing)}
    (h : objectSpecs hashing eventType node channel validate update = some specs) :
    (specs.map (·.eventType)).Sublist [eventType] := by
  unfold objectSpecs at h
  split at h
  · obtain ⟨_, -, rfl⟩ := Option.map_eq_some_iff.mp h
    exact .refl _
  · cases h
    exact List.nil_sublist _

theorem evidenceSpecs_types {node : String} {update : Json} {specs : List (DomainEventSpec hashing)}
    (h : evidenceSpecs hashing models node update = some specs) :
    (specs.map (·.eventType)).Sublist [.researchEvidence] := by
  unfold evidenceSpecs at h
  split at h
  · obtain ⟨_, -, rfl⟩ := Option.map_eq_some_iff.mp h
    exact .refl _
  · cases h
    exact List.nil_sublist _

theorem deepResearchSpecs_types {ref : String} {artifact : Option Json}
    {specs : List (DomainEventSpec hashing)}
    (h : deepResearchSpecs hashing models ref artifact = some specs) :
    (specs.map (·.eventType)).Sublist [.agentOutput, .artifact] := by
  unfold deepResearchSpecs at h
  split at h
  · obtain ⟨_, -, h⟩ := Option.bind_eq_some_iff.mp h
    obtain ⟨_, -, h⟩ := Option.bind_eq_some_iff.mp h
    obtain ⟨_, -, h⟩ := Option.bind_eq_some_iff.mp h
    dsimp only at h
    split at h
    · cases h
      exact .refl _
    · cases h
      exact (List.nil_sublist _).cons_cons _
  · cases h
    exact List.nil_sublist _

/-- The events of one node have different types. -/
theorem nodeEventSpecs_types {node : String} {update : Json} {specs : List (DomainEventSpec hashing)}
    (h : nodeEventSpecs hashing models node update = some specs) :
    (specs.map (·.eventType)).Nodup := by
  unfold nodeEventSpecs at h
  split at h
  · obtain ⟨market, hmarket, h⟩ := Option.bind_eq_some_iff.mp h
    obtain ⟨evidence, hevidence, h⟩ := Option.bind_eq_some_iff.mp h
    cases h
    rw [List.map_append]
    exact ((objectSpecs_types hmarket).append (evidenceSpecs_types hevidence)).nodup (by decide)
  · exact (evidenceSpecs_types h).nodup (by decide)
  · obtain ⟨evidence, hevidence, h⟩ := Option.bind_eq_some_iff.mp h
    obtain ⟨artifact, hartifact, h⟩ := Option.bind_eq_some_iff.mp h
    cases h
    rw [List.map_append]
    exact ((evidenceSpecs_types hevidence).append (deepResearchSpecs_types hartifact)).nodup
      (by decide)
  · exact (objectSpecs_types h).nodup (List.nodup_singleton _)
  · exact (objectSpecs_types h).nodup (List.nodup_singleton _)
  · exact (objectSpecs_types h).nodup (List.nodup_singleton _)
  · cases h
    exact List.nodup_nil

theorem progressiveEventSpecs_types {node : String} {update : Json}
    {specs : List (DomainEventSpec hashing)}
    (h : progressiveEventSpecs hashing models [(node, update)] = some specs) :
    (specs.map (·.eventType)).Nodup := by
  obtain ⟨lists, hlists, rfl⟩ := Option.map_eq_some_iff.mp h
  rw [List.mapM_cons, List.mapM_nil] at hlists
  obtain ⟨one, hone, hlists⟩ := Option.bind_eq_some_iff.mp hlists
  cases hlists
  rw [List.flatten_singleton]
  split_ifs at hone
  · exact nodeEventSpecs_types hone
  · cases hone
    exact List.nodup_nil

variable (hashing) in
theorem fieldSpecs_types (eventType : EventType) (ref : String) (value : Option Json) :
    ((fieldSpecs hashing eventType ref value).map (·.eventType)).Sublist [eventType] := by
  unfold fieldSpecs
  split
  · exact .refl _
  · exact List.nil_sublist _

variable (hashing) in
theorem outputEvidenceSpecs_types (output : Json) :
    ((outputEvidenceSpecs hashing output).map (·.eventType)).Sublist [.researchEvidence] := by
  unfold outputEvidenceSpecs
  split
  · split_ifs
    · exact .refl _
    · exact List.nil_sublist _
  · exact List.nil_sublist _

variable (hashing) in
theorem artifactSpecs_types (artifact : Option Json) :
    ((artifactSpecs hashing artifact).map (·.eventType)).Sublist
      [.agentOutput, .evidenceVerdict, .riskVerdict, .artifact] := by
  unfold artifactSpecs
  split
  · simp only [List.map_append]
    refine (((fieldSpecs_types hashing _ _ _).append (fieldSpecs_types hashing _ _ _)).append
      (fieldSpecs_types hashing _ _ _)).append ?_
    split
    · exact .refl _
    · exact List.nil_sublist _
  · exact List.nil_sublist _

/-- An output that carries no two artifacts gives rise to events of different types. -/
theorem domainEventSpecs_types {output : Json} {notification : Option Json}
    {specs : List (DomainEventSpec hashing)}
    (h : domainEventSpecs hashing models output notification = some specs)
    (hone : (output.get? "artifact").any Json.isObj = false ∨
      (output.get? "deep_research_artifact").any Json.isObj = false) :
    (specs.map (·.eventType)).Nodup := by
  obtain ⟨research, hresearch, rfl⟩ := Option.map_eq_some_iff.mp h
  have hplanned : ((notification.toList.map
      (eventSpec hashing .notificationPlanned "notification_outbox#/payload")).map
        (·.eventType)).Sublist [.notificationPlanned] := by
    cases notification with
    | none => exact List.nil_sublist _
    | some payload => exact .refl _
  have hmarket := fieldSpecs_types hashing .marketSnapshot
    "output_payload#/market_snapshot" (output.get? "market_snapshot")
  have hevidence := outputEvidenceSpecs_types hashing output
  have hartifact := artifactSpecs_types hashing (output.get? "artifact")
  have hdeep := deepResearchSpecs_types hresearch
  simp only [List.map_append]
  rcases hone with hnone | hnone
  · have hempty : artifactSpecs hashing (output.get? "artifact") = [] := by
      unfold artifactSpecs
      split
      · rename_i hobj
        rw [hobj] at hnone
        cases hnone
      · rfl
    rw [hempty]
    exact (((((hmarket.append hevidence).append (List.nil_sublist [])).append hdeep).append
      hplanned).append (.refl [EventType.runTerminal])).nodup (by decide)
  · have hempty : research = [] := by
      unfold deepResearchSpecs at hresearch
      split at hresearch
      · rename_i hobj
        rw [hobj] at hnone
        cases hnone
      · cases hresearch
        rfl
    rw [hempty]
    exact (((((hmarket.append hevidence).append hartifact).append (List.nil_sublist [])).append
      hplanned).append (.refl [EventType.runTerminal])).nodup (by decide)

end Types

namespace EventLog

/-- The numbers of the events run without gaps from some number on up to the counter. -/
def Gapless (log : EventLog) : Prop :=
  ∃ first, 1 ≤ first ∧ log.events.map (·.sequence) = List.range' first log.events.length ∧
    log.nextSequence = first + log.events.length

/-- Events of one run have different keys. -/
def KeysDistinct (log : EventLog) : Prop :=
  log.events.Pairwise fun e f => e.runId = f.runId → e.sourceEventKey ≠ f.sourceEventKey

variable {hashing : Hashing} {models : PayloadModels} {log log' : EventLog}
  {source : EventSource} {specs : List (DomainEventSpec hashing)}

theorem keysDistinct_iff :
    log.KeysDistinct ↔ (log.events.map fun e => (e.runId, e.sourceEventKey)).Nodup := by
  rw [KeysDistinct, List.Nodup, List.pairwise_map]
  simp only [ne_eq, Prod.mk.injEq, not_and]

@[simp] theorem length_rows (next : ℕ) (pending : List (DomainEventSpec hashing)) :
    (rows hashing source next pending).length = pending.length := by
  rw [rows, List.length_map, List.length_zipIdx]

variable (hashing source) in
theorem Gapless.append (hlog : log.Gapless) (pending : List (DomainEventSpec hashing)) :
    Gapless ⟨log.events ++ rows hashing source log.nextSequence pending,
      log.nextSequence + pending.length⟩ := by
  obtain ⟨first, hfirst, hnumbers, hnext⟩ := hlog
  refine ⟨first, hfirst, ?_, ?_⟩
  · rw [List.map_append, hnumbers, rows_sequence, hnext, List.length_append, length_rows,
      List.range'_append_1]
  · simp only [List.length_append, length_rows]
    omega

/-- Numbers without gaps are distinct and positive. -/
theorem Gapless.constraints (hlog : log.Gapless) (hkeys : log.KeysDistinct) :
    Constraints log.events := by
  obtain ⟨first, hfirst, hnumbers, -⟩ := hlog
  refine ⟨keysDistinct_iff.mp hkeys, ?_, ?_⟩
  · rw [hnumbers]
    exact List.nodup_range'
  · intro e he
    have hmem : e.sequence ∈ List.range' first log.events.length := by
      rw [← hnumbers]
      exact List.mem_map_of_mem he
    have hlower := (List.mem_range'_1.mp hmem).1
    omega

/-- What an append preserves. -/
theorem appendEventSpecs_gapless (hlog : log.Gapless) (hkeys : log.KeysDistinct)
    (h : log.appendEventSpecs hashing source specs = .ok log') :
    log'.Gapless ∧ log'.KeysDistinct ∧ log.events <+: log'.events := by
  obtain ⟨pending, -, hcases⟩ := appendEventSpecs_cases h
  rcases hcases with ⟨-, rfl⟩ | ⟨-, hconstraints, rfl⟩
  · exact ⟨hlog, hkeys, List.prefix_rfl⟩
  · exact ⟨hlog.append hashing source pending, keysDistinct_iff.mpr hconstraints.1, List.prefix_append _ _⟩

theorem pendingSpecs_error {e : AppendError}
    (h : log.pendingSpecs hashing source specs = .error e) : e = .conflict := by
  induction specs with
  | nil => cases h
  | cons spec specs ih =>
      simp only [pendingSpecs] at h
      split at h
      · rename_i hpending
        cases h
        unfold isPending at hpending
        split at hpending
        · split_ifs at hpending
          exact (Except.error.inj hpending).symm
        · split at hpending
          · split_ifs at hpending
            exact (Except.error.inj hpending).symm
          · cases hpending
      · rename_i hrest
        cases h
        exact ih hrest
      · cases h

/-- The rows of events of different types, none of which is stored, have keys of their own. -/
theorem keysDistinct_append (hkeys : log.KeysDistinct) {pending : List (DomainEventSpec hashing)}
    (hfresh : ∀ s ∈ pending, log.stored source.runId
      (hashing.sha256 source.sourceEventKey, s.eventType) = none)
    (htypes : (pending.map (·.eventType)).Nodup) (next : ℕ) :
    (log.events ++ rows hashing source next pending).Pairwise fun e f =>
      e.runId = f.runId → e.sourceEventKey ≠ f.sourceEventKey := by
  rw [List.pairwise_append]
  refine ⟨hkeys, ?_, ?_⟩
  · have hrowTypes : (rows hashing source next pending).map (·.eventType) =
        pending.map (·.eventType) := by
      rw [rows, List.map_map]
      conv_rhs => rw [← List.zipIdx_map_fst next pending, List.map_map]
      rfl
    rw [← hrowTypes, List.Nodup, List.pairwise_map] at htypes
    exact htypes.imp fun hne _ hkey => hne (Prod.mk.inj hkey).2
  · intro e he f hf hrun hkey
    obtain ⟨hfrun, hdigest, -, s, hs, htype, -⟩ := mem_rows hf
    refine ne_key_of_stored_eq_none (hfresh s hs) he (hrun.trans hfrun) ?_
    rw [hkey, DomainEvent.sourceEventKey, hdigest, htype]

/-- Events of different types never violate the constraints of the table. -/
theorem appendEventSpecs_ne_integrity (hlog : log.Gapless) (hkeys : log.KeysDistinct)
    (htypes : (specs.map (·.eventType)).Nodup) :
    log.appendEventSpecs hashing source specs ≠ .error .integrity := by
  unfold appendEventSpecs
  cases hpending : log.pendingSpecs hashing source specs with
  | error e =>
      have he := pendingSpecs_error hpending
      simp [he]
  | ok pending =>
      obtain ⟨hsub, hfresh, -⟩ := pendingSpecs_ok hpending
      have hdistinct := keysDistinct_append hkeys hfresh ((hsub.map _).nodup htypes)
        log.nextSequence
      have hconstraints := (hlog.append hashing source pending).constraints hdistinct
      simp only [if_pos hconstraints]
      split_ifs <;> exact nofun

end EventLog

/-- A transaction that appends to the log of the thread. -/
inductive EventTransaction where
  | progressive (run : ℕ) (updates : List (String × Json)) (sourceEventId : String)
      (checkpointId : Option String) (createdAt : ℕ)
  | terminal (run : ℕ) (output : Json) (notification : Option Json)
      (checkpointId : Option String) (createdAt : ℕ)

namespace EventTransaction

variable (hashing : Hashing) (models : PayloadModels)

def apply (transaction : EventTransaction) (log : EventLog) : Except AppendError EventLog :=
  match transaction with
  | progressive run updates sourceEventId checkpointId createdAt =>
      log.appendProgressiveEvents hashing models run updates sourceEventId checkpointId createdAt
  | terminal run output notification checkpointId createdAt =>
      log.appendDomainEvents hashing models run output notification checkpointId createdAt

/-- A transaction that is committed or rolled back; one that raises is rolled back. -/
def step (log : EventLog) : EventTransaction × Bool → Option EventLog
  | (transaction, committed) =>
      match transaction.apply hashing models log with
      | .ok log' => if committed then some log' else some log
      | .error _ => some log

/-- An update of a single node, or an output that carries no two artifacts. -/
def OneSource : EventTransaction → Prop
  | progressive _ updates _ _ _ => ∃ node update, updates = [(node, update)]
  | terminal _ output _ _ _ => (output.get? "artifact").any Json.isObj = false ∨
      (output.get? "deep_research_artifact").any Json.isObj = false

end EventTransaction

section Runs

variable {hashing : Hashing} {models : PayloadModels} {log log' : EventLog}

variable (hashing models) in
/-- A transaction appends the events of some delivery. -/
theorem EventTransaction.apply_cases (transaction : EventTransaction) (log : EventLog) :
    transaction.apply hashing models log = .error .invalid ∨
    ∃ source specs, transaction.apply hashing models log =
        log.appendEventSpecs hashing source specs ∧
      (transaction.OneSource → (specs.map (·.eventType)).Nodup) := by
  cases transaction with
  | progressive run updates sourceEventId checkpointId createdAt =>
      simp only [apply, EventLog.appendProgressiveEvents]
      split_ifs
      · exact .inl rfl
      · cases hspecs : progressiveEventSpecs hashing models updates with
        | none => exact .inl rfl
        | some specs =>
            refine .inr ⟨_, specs, rfl, ?_⟩
            rintro ⟨node, update, rfl⟩
            exact progressiveEventSpecs_types hspecs
  | terminal run output notification checkpointId createdAt =>
      simp only [apply, EventLog.appendDomainEvents]
      cases hspecs : domainEventSpecs hashing models output notification with
      | none => exact .inl rfl
      | some specs => exact .inr ⟨_, specs, rfl, domainEventSpecs_types hspecs⟩

theorem eventTransaction_step_gapless {l : EventTransaction × Bool}
    (hlog : log.Gapless ∧ log.KeysDistinct)
    (h : EventTransaction.step hashing models log l = some log') :
    (log'.Gapless ∧ log'.KeysDistinct) ∧ log.events <+: log'.events := by
  obtain ⟨transaction, committed⟩ := l
  simp only [EventTransaction.step] at h
  cases happly : transaction.apply hashing models log with
  | error e =>
      simp only [happly, Option.some.injEq] at h
      subst h
      exact ⟨hlog, List.prefix_rfl⟩
  | ok applied =>
      simp only [happly] at h
      split_ifs at h
      · cases h
        rcases transaction.apply_cases hashing models log with hinvalid |
          ⟨source, specs, hspecs, -⟩
        · rw [happly] at hinvalid
          cases hinvalid
        · rw [happly] at hspecs
          obtain ⟨hgapless, hkeys, hprefix⟩ :=
            EventLog.appendEventSpecs_gapless hlog.1 hlog.2 hspecs.symm
          exact ⟨⟨hgapless, hkeys⟩, hprefix⟩
      · cases h
        exact ⟨hlog, List.prefix_rfl⟩

/-- Over all transactions of a thread, committed or rolled back, the numbers of its events stay
without gaps and the keys of a run distinct. No key of an update of one node and none of an
output with one artifact is refused by the constraints of the table. -/
theorem event_sequences_gapless (hlog : log.Gapless) (hkeys : log.KeysDistinct)
    (h : Reaches (EventTransaction.step hashing models) anyStep log log') :
    log'.Gapless ∧ log'.KeysDistinct ∧ log.events <+: log'.events ∧
      ∀ transaction : EventTransaction, transaction.OneSource →
        transaction.apply hashing models log' ≠ .error .integrity := by
  have hrun : (log'.Gapless ∧ log'.KeysDistinct) ∧ log.events <+: log'.events := by
    refine h.invariant (I := fun t => (t.Gapless ∧ t.KeysDistinct) ∧ log.events <+: t.events)
      (fun s l t _ hs hstep => ?_) ⟨⟨hlog, hkeys⟩, List.prefix_rfl⟩
    obtain ⟨hgapless, hprefix⟩ := eventTransaction_step_gapless hs.1 hstep
    exact ⟨hgapless, hs.2.trans hprefix⟩
  refine ⟨hrun.1.1, hrun.1.2, hrun.2, fun transaction hsource => ?_⟩
  rcases transaction.apply_cases hashing models log' with hinvalid |
    ⟨source, specs, hspecs, htypes⟩
  · rw [hinvalid]
    exact nofun
  · rw [hspecs]
    exact EventLog.appendEventSpecs_ne_integrity hrun.1.1 hrun.1.2 (htypes hsource)

mutual

/-- A text of a payload, for samples. -/
def Json.compactText : Json → String
  | .null => "null"
  | .bool b => if b then "true" else "false"
  | .num q => if q.den = 1 then toString q.num else toString q.num ++ "/" ++ toString q.den
  | .str text => "\"" ++ text ++ "\""
  | .arr items => "[" ++ ",".intercalate (Json.itemTexts items) ++ "]"
  | .obj fields => "\x7b" ++ ",".intercalate (Json.fieldTexts fields) ++ "\x7d"

def Json.itemTexts : List Json → List String
  | [] => []
  | item :: rest => Json.compactText item :: Json.itemTexts rest

def Json.fieldTexts : List (String × Json) → List String
  | [] => []
  | (key, value) :: rest =>
      ("\"" ++ key ++ "\":" ++ Json.compactText value) :: Json.fieldTexts rest

end

/-- Payloads identified by their texts. -/
def plainHashing : Hashing := ⟨Json.compactText, id, Function.injective_id⟩

/-- The domain models on the dumps that the graph sends. -/
def dumpModels : PayloadModels where
  marketSnapshot j := (MarketSnapshot.codec.read j).map fun m =>
    (MarketSnapshot.codec.dump m).excludeNone
  webEvidence j := (WebEvidence.codec.read j).map fun e => (WebEvidence.codec.dump e).excludeNone
  deepResearchArtifact j := (DeepResearchArtifact.codec.read j).map fun a =>
    (DeepResearchArtifact.codec.dump a).excludeNone
  marketAnalysis j := (MarketAnalysis.codec.read j).map fun a =>
    (MarketAnalysis.codec.dump a).excludeNone
  evidenceVerdict j := (EvidenceVerdict.codec.read j).map fun v =>
    (EvidenceVerdict.codec.dump v).excludeNone
  riskVerdict j := (RiskVerdict.codec.read j).map fun v => (RiskVerdict.codec.dump v).excludeNone

def failedOutput : Json := .obj [("terminal_status", .str "failed")]

/-- The terminal event of a failed run is the first one of its thread. -/
theorem event_sequences_gapless_failed :
    ∃ log : EventLog, log.events.length = 1 ∧ log.Gapless ∧ log.KeysDistinct := by
  have hany : (runLabels (EventTransaction.step plainHashing dumpModels) ⟨[], 1⟩
      [(.terminal 1 failedOutput none none 0, true)]).any (fun log =>
        log.events.length = 1) = true := by
    decide +kernel
  obtain ⟨log, hlabels, hlength⟩ := (Option.any_eq_true _ _).mp hany
  have hempty : EventLog.Gapless ⟨[], 1⟩ := ⟨1, le_refl 1, rfl, rfl⟩
  obtain ⟨hgapless, hkeys, -⟩ :=
    event_sequences_gapless hempty .nil (reaches_of_runLabels _ hlabels)
  exact ⟨log, of_decide_eq_true hlength, hgapless, hkeys⟩

end Runs

end CryptoAlert
