import CryptoAlert.Lib.Transition
import CryptoAlert.Projections.EventSpecs
import Mathlib.Data.List.Sort

/-!
# The event log of a thread

The events of all runs of a thread share one sequence counter. Two mechanisms keep a delivery
from being stored twice: the key of its source, and the comparison with the latest event of the
same type of the run. The constraints of the table are checked when the transaction writes.
-/

namespace CryptoAlert

structure DomainEvent where
  runId : ℕ
  eventType : EventType
  /-- The digest of the source key; with the type it makes up the stored key. -/
  sourceDigest : String
  sourceEventId : Option String
  checkpointId : Option String
  payloadHash : String
  payload : Json
  sequence : ℕ
  createdAt : ℕ

def DomainEvent.sourceEventKey (e : DomainEvent) : String × EventType :=
  (e.sourceDigest, e.eventType)

/-- The events of a thread in the order in which they were stored, and the counter of the
thread. -/
structure EventLog where
  events : List DomainEvent
  nextSequence : ℕ

inductive AppendError where
  /-- `DomainEventProjectionConflict`. -/
  | conflict
  /-- A constraint of the table is violated. -/
  | integrity
  /-- The arguments or a payload do not validate. -/
  | invalid
deriving DecidableEq, Repr

/-- What the events of one append have in common. -/
structure EventSource where
  runId : ℕ
  sourceEventKey : String
  sourceEventId : Option String
  checkpointId : Option String
  createdAt : ℕ

namespace EventLog

/-- The events of a run by their sequence numbers. -/
def existing (log : EventLog) (run : ℕ) : List DomainEvent :=
  (log.events.filter fun e => e.runId = run).insertionSort fun e f => e.sequence ≤ f.sequence

/-- The event that `by_source_key` holds for a key. -/
def stored (log : EventLog) (run : ℕ) (key : String × EventType) : Option DomainEvent :=
  (log.existing run).reverse.find? fun e => e.sourceEventKey = key

/-- The event that `latest_by_type` holds for a type. -/
def latest (log : EventLog) (run : ℕ) (eventType : EventType) : Option DomainEvent :=
  (log.existing run).reverse.find? fun e => e.eventType = eventType

section Append

variable (hashing : Hashing)

/-- Whether an event is new to the log. -/
def isPending (log : EventLog) (source : EventSource) (spec : DomainEventSpec hashing) :
    Except AppendError Bool :=
  match log.stored source.runId (hashing.sha256 source.sourceEventKey, spec.eventType) with
  | some exact =>
      if exact.payloadHash ≠ spec.payloadHash ∨
          hashing.payloadHash exact.payload ≠ spec.payloadHash then .error .conflict
      else .ok false
  | none =>
      match log.latest source.runId spec.eventType with
      | some latest =>
          if latest.payloadHash = spec.payloadHash then
            if hashing.payloadHash latest.payload ≠ spec.payloadHash then .error .conflict
            else .ok false
          else .ok true
      | none => .ok true

/-- The events of a delivery that are new, all compared with the log as it was before. -/
def pendingSpecs (log : EventLog) (source : EventSource) :
    List (DomainEventSpec hashing) → Except AppendError (List (DomainEventSpec hashing))
  | [] => .ok []
  | spec :: specs =>
      match log.isPending hashing source spec, log.pendingSpecs source specs with
      | .error e, _ => .error e
      | .ok _, .error e => .error e
      | .ok pending, .ok rest => .ok (if pending then spec :: rest else rest)

/-- The rows of the new events, numbered from the counter on. -/
def rows (source : EventSource) (next : ℕ) (pending : List (DomainEventSpec hashing)) : List DomainEvent :=
  (pending.zipIdx next).map fun (spec, sequence) =>
    ⟨source.runId, spec.eventType, hashing.sha256 source.sourceEventKey, source.sourceEventId,
      source.checkpointId, spec.payloadHash, spec.payload, sequence, source.createdAt⟩

/-- The constraints of the table on the events of a thread. -/
def Constraints (events : List DomainEvent) : Prop :=
  (events.map fun e => (e.runId, e.sourceEventKey)).Nodup ∧ (events.map (·.sequence)).Nodup ∧
    ∀ e ∈ events, 1 ≤ e.sequence

instance (events : List DomainEvent) : Decidable (Constraints events) :=
  inferInstanceAs (Decidable (_ ∧ _ ∧ _))

/-- `append_event_specs`. -/
def appendEventSpecs (log : EventLog) (source : EventSource) (specs : List (DomainEventSpec hashing)) :
    Except AppendError EventLog :=
  match log.pendingSpecs hashing source specs with
  | .error e => .error e
  | .ok pending =>
      if pending.isEmpty then .ok log
      else
        let events := log.events ++ rows hashing source log.nextSequence pending
        if Constraints events then .ok ⟨events, log.nextSequence + pending.length⟩
        else .error .integrity

variable (models : PayloadModels)

/-- `append_progressive_events`. -/
def appendProgressiveEvents (log : EventLog) (run : ℕ) (updates : List (String × Json))
    (sourceEventId : String) (checkpointId : Option String) (createdAt : ℕ) :
    Except AppendError EventLog :=
  if sourceEventId.isEmpty ∨ 255 < sourceEventId.length then .error .invalid
  else
    match progressiveEventSpecs hashing models updates with
    | none => .error .invalid
    | some specs => log.appendEventSpecs hashing
        ⟨run, s!"stream:{sourceEventId}", some sourceEventId, checkpointId, createdAt⟩ specs

/-- `append_domain_events`. -/
def appendDomainEvents (log : EventLog) (run : ℕ) (output : Json) (notification : Option Json)
    (checkpointId : Option String) (createdAt : ℕ) : Except AppendError EventLog :=
  match domainEventSpecs hashing models output notification with
  | none => .error .invalid
  | some specs => log.appendEventSpecs hashing
      ⟨run, s!"terminal:{hashing.payloadHash output}", none, checkpointId, createdAt⟩ specs

end Append

section Lookup

variable {log : EventLog} {run : ℕ}

theorem mem_existing {e : DomainEvent} :
    e ∈ log.existing run ↔ e ∈ log.events ∧ e.runId = run := by
  rw [existing, List.mem_insertionSort, List.mem_filter, decide_eq_true_eq]

theorem stored_eq_some {key : String × EventType} {e : DomainEvent}
    (h : log.stored run key = some e) :
    (e ∈ log.events ∧ e.runId = run) ∧ e.sourceEventKey = key := by
  have hmem := List.mem_of_find?_eq_some h
  rw [List.mem_reverse, mem_existing] at hmem
  have hfound := List.find?_some h
  exact ⟨hmem, of_decide_eq_true hfound⟩

theorem ne_key_of_stored_eq_none {key : String × EventType} (h : log.stored run key = none)
    {e : DomainEvent} (he : e ∈ log.events) (hrun : e.runId = run) : e.sourceEventKey ≠ key := by
  have hall := List.find?_eq_none.mp h e (List.mem_reverse.mpr (mem_existing.mpr ⟨he, hrun⟩))
  simpa using hall

theorem latest_eq_some {eventType : EventType} {e : DomainEvent}
    (h : log.latest run eventType = some e) :
    (e ∈ log.events ∧ e.runId = run) ∧ e.eventType = eventType := by
  have hmem := List.mem_of_find?_eq_some h
  rw [List.mem_reverse, mem_existing] at hmem
  have hfound := List.find?_some h
  exact ⟨hmem, of_decide_eq_true hfound⟩

end Lookup

section Inversion

variable {hashing : Hashing} {log log' : EventLog} {source : EventSource}
  {spec : DomainEventSpec hashing} {specs pending : List (DomainEventSpec hashing)}

/-- A new event has no event under its key, one that is not new has an event of its type. -/
theorem isPending_cases {b : Bool} (h : log.isPending hashing source spec = .ok b) :
    (b = true ∧ log.stored source.runId
      (hashing.sha256 source.sourceEventKey, spec.eventType) = none) ∨
    (b = false ∧ ∃ e ∈ log.events, e.runId = source.runId ∧ e.eventType = spec.eventType) := by
  unfold isPending at h
  cases hstored : log.stored source.runId
    (hashing.sha256 source.sourceEventKey, spec.eventType) with
  | some exact =>
      obtain ⟨⟨hmem, hrun⟩, hkey⟩ := stored_eq_some hstored
      simp only [hstored] at h
      split_ifs at h
      cases h
      exact .inr ⟨rfl, exact, hmem, hrun, (Prod.mk.inj hkey).2⟩
  | none =>
      simp only [hstored] at h
      cases hlatest : log.latest source.runId spec.eventType with
      | none =>
          simp only [hlatest] at h
          cases h
          exact .inl ⟨rfl, rfl⟩
      | some latest =>
          obtain ⟨⟨hmem, hrun⟩, htype⟩ := latest_eq_some hlatest
          simp only [hlatest] at h
          split_ifs at h
          · cases h
            exact .inr ⟨rfl, latest, hmem, hrun, htype⟩
          · cases h
            exact .inl ⟨rfl, rfl⟩

/-- What remains of a delivery keeps its order, and none of it is stored under its key. -/
theorem pendingSpecs_ok (h : log.pendingSpecs hashing source specs = .ok pending) :
    pending.Sublist specs ∧
    (∀ s ∈ pending, log.stored source.runId
      (hashing.sha256 source.sourceEventKey, s.eventType) = none) ∧
    ∀ s ∈ specs, s ∈ pending ∨
      ∃ e ∈ log.events, e.runId = source.runId ∧ e.eventType = s.eventType := by
  induction specs generalizing pending with
  | nil =>
      cases h
      exact ⟨.refl _, fun s hs => absurd hs List.not_mem_nil, fun s hs => absurd hs List.not_mem_nil⟩
  | cons spec specs ih =>
      simp only [pendingSpecs] at h
      split at h
      · cases h
      · cases h
      · rename_i b rest hpending hrest
        obtain ⟨hsub, hnone, hcovered⟩ := ih hrest
        cases h
        rcases isPending_cases hpending with ⟨rfl, hfresh⟩ | ⟨rfl, hstored⟩
        · refine ⟨hsub.cons_cons _, ?_, ?_⟩
          · intro s hs
            rcases List.mem_cons.mp hs with rfl | hs
            · exact hfresh
            · exact hnone s hs
          · intro s hs
            rcases List.mem_cons.mp hs with rfl | hs
            · exact .inl List.mem_cons_self
            · exact (hcovered s hs).imp_left (List.mem_cons_of_mem _)
        · refine ⟨hsub.cons _, hnone, ?_⟩
          intro s hs
          rcases List.mem_cons.mp hs with rfl | hs
          · exact .inr hstored
          · exact hcovered s hs

/-- An append leaves the log as it is, or adds rows for what is new. -/
theorem appendEventSpecs_cases (h : log.appendEventSpecs hashing source specs = .ok log') :
    ∃ pending, log.pendingSpecs hashing source specs = .ok pending ∧
      (pending = [] ∧ log' = log ∨
        pending ≠ [] ∧ Constraints log'.events ∧
        log' = ⟨log.events ++ rows hashing source log.nextSequence pending,
          log.nextSequence + pending.length⟩) := by
  unfold appendEventSpecs at h
  cases hpending : log.pendingSpecs hashing source specs with
  | error e => simp [hpending] at h
  | ok pending =>
      refine ⟨pending, rfl, ?_⟩
      cases pending with
      | nil =>
          simp only [hpending, List.isEmpty_nil, if_true] at h
          cases h
          exact .inl ⟨rfl, rfl⟩
      | cons s rest =>
          simp only [hpending, List.isEmpty_cons, Bool.false_eq_true, if_false] at h
          split_ifs at h with hconstraints
          cases h
          exact .inr ⟨by simp, hconstraints, rfl⟩

@[simp] theorem rows_sequence (next : ℕ) :
    (rows hashing source next pending).map (·.sequence) = List.range' next pending.length := by
  rw [rows, List.map_map, ← List.zipIdx_map_snd]
  rfl

theorem mem_rows {next : ℕ} {e : DomainEvent} (h : e ∈ rows hashing source next pending) :
    e.runId = source.runId ∧ e.sourceDigest = hashing.sha256 source.sourceEventKey ∧
      e.sourceEventId = source.sourceEventId ∧
      ∃ s ∈ pending, e.eventType = s.eventType ∧ e.payloadHash = s.payloadHash ∧
        e.payload = s.payload := by
  obtain ⟨⟨s, n⟩, hs, rfl⟩ := List.mem_map.mp h
  exact ⟨rfl, rfl, rfl, s, List.fst_mem_of_mem_zipIdx hs, rfl, rfl, rfl⟩

variable (hashing source) in
theorem exists_row {s : DomainEventSpec hashing} (next : ℕ) (h : s ∈ pending) :
    ∃ e ∈ rows hashing source next pending, e.runId = source.runId ∧ e.eventType = s.eventType := by
  rw [← List.zipIdx_map_fst next pending] at h
  obtain ⟨⟨s, n⟩, hs, rfl⟩ := List.mem_map.mp h
  exact ⟨_, List.mem_map.mpr ⟨_, hs, rfl⟩, rfl, rfl⟩

/-- After an append every event of the delivery has an event of its type in the log. -/
theorem appendEventSpecs_covers (h : log.appendEventSpecs hashing source specs = .ok log') :
    ∀ s ∈ specs, ∃ e ∈ log'.events, e.runId = source.runId ∧ e.eventType = s.eventType := by
  obtain ⟨pending, hpending, hlog⟩ := appendEventSpecs_cases h
  obtain ⟨-, -, hcovered⟩ := pendingSpecs_ok hpending
  intro s hs
  rcases hlog with ⟨rfl, rfl⟩ | ⟨-, -, rfl⟩
  · exact (hcovered s hs).resolve_left List.not_mem_nil
  · rcases hcovered s hs with hnew | ⟨e, he, hold⟩
    · obtain ⟨e, he, hrow⟩ := exists_row hashing source log.nextSequence hnew
      exact ⟨e, List.mem_append_right _ he, hrow⟩
    · exact ⟨e, List.mem_append_left _ he, hold⟩

/-- An append keeps the stored events and adds events of the delivery. -/
theorem mem_of_appendEventSpecs (h : log.appendEventSpecs hashing source specs = .ok log')
    (e : DomainEvent) :
    (e ∈ log.events → e ∈ log'.events) ∧ (e ∈ log'.events → e ∈ log.events ∨
      e.runId = source.runId ∧ ∃ s ∈ specs, s.eventType = e.eventType) := by
  obtain ⟨pending, hpending, hlog⟩ := appendEventSpecs_cases h
  rcases hlog with ⟨-, rfl⟩ | ⟨-, -, rfl⟩
  · exact ⟨id, .inl⟩
  · refine ⟨List.mem_append_left _, fun he => ?_⟩
    rcases List.mem_append.mp he with he | he
    · exact .inl he
    · obtain ⟨hrun, -, -, s, hs, htype, -⟩ := mem_rows he
      exact .inr ⟨hrun, s, (pendingSpecs_ok hpending).1.subset hs, htype.symm⟩

end Inversion

end EventLog

end CryptoAlert
