import CryptoAlert.Projections.EventSequence

/-!
# Delivering the events of a run again

A delivery is an update of the official stream under its event id. The state keeps, next to the
log, the log that the same deliveries leave behind when none of them is repeated.
-/

namespace CryptoAlert

structure Delivery where
  sourceEventId : String
  updates : List (String × Json)

structure DeliveryState where
  log : EventLog
  /-- The log without the repeated deliveries. -/
  reference : EventLog
  delivered : List Delivery

/-- A delivery that is new, or the repetition of an earlier one. -/
inductive DeliveryLabel where
  | first (delivery : Delivery) (checkpointId : Option String) (createdAt : ℕ)
  | again (index : ℕ) (checkpointId : Option String) (createdAt : ℕ)

section Deliveries

variable (hashing : Hashing) (models : PayloadModels) (run : ℕ)

/-- The log after a delivery; one that raises is rolled back. -/
def EventLog.deliver (log : EventLog) (delivery : Delivery) (checkpointId : Option String)
    (createdAt : ℕ) : EventLog :=
  match log.appendProgressiveEvents hashing models run delivery.updates delivery.sourceEventId
      checkpointId createdAt with
  | .ok log' => log'
  | .error _ => log

def DeliveryState.step (s : DeliveryState) : DeliveryLabel → Option DeliveryState
  | .first delivery checkpointId createdAt => some
      ⟨s.log.deliver hashing models run delivery checkpointId createdAt,
        s.reference.deliver hashing models run delivery checkpointId createdAt,
        s.delivered ++ [delivery]⟩
  | .again index checkpointId createdAt =>
      s.delivered[index]?.map fun delivery =>
        { s with log := s.log.deliver hashing models run delivery checkpointId createdAt }

/-- The key under which the events of a delivery are stored. -/
def Delivery.sourceDigest (delivery : Delivery) : String :=
  hashing.sha256 s!"stream:{delivery.sourceEventId}"

/-- An event of a delivery has left its trace: it is stored under the key of the delivery, or no
other payload has followed it as the latest of its type. -/
def Traced (log : EventLog) (delivery : Delivery) (spec : DomainEventSpec hashing) : Prop :=
  (log.stored run (delivery.sourceDigest hashing, spec.eventType)).isSome ∨
    ∃ e, log.latest run spec.eventType = some e ∧ e.payloadHash = spec.payloadHash

/-- An event of a delivery contradicts the one that is stored under the key of the delivery. -/
def Contradicted (log : EventLog) (delivery : Delivery) (spec : DomainEventSpec hashing) : Prop :=
  ∃ e, log.stored run (delivery.sourceDigest hashing, spec.eventType) = some e ∧
    e.payloadHash ≠ spec.payloadHash

/-- A repeated delivery has left a trace of each of its events, or contradicts a stored one. -/
def LeavesTrace (s : DeliveryState) : DeliveryLabel → Prop
  | .first _ _ _ => True
  | .again index _ _ => ∀ delivery specs, s.delivered[index]? = some delivery →
      progressiveEventSpecs hashing models delivery.updates = some specs →
      (∀ spec ∈ specs, Traced hashing run s.log delivery spec) ∨
        ∃ spec ∈ specs, Contradicted hashing run s.log delivery spec

end Deliveries

section Replay

variable {hashing : Hashing} {models : PayloadModels} {run : ℕ} {log : EventLog}
  {delivery : Delivery} {specs : List (DomainEventSpec hashing)}

namespace EventLog

variable {source : EventSource}

/-- An event with a trace is not pending. -/
theorem isPending_of_traced {spec : DomainEventSpec hashing}
    (h : (log.stored source.runId
        (hashing.sha256 source.sourceEventKey, spec.eventType)).isSome ∨
      ∃ e, log.latest source.runId spec.eventType = some e ∧ e.payloadHash = spec.payloadHash) :
    log.isPending hashing source spec ≠ .ok true := by
  unfold isPending
  cases hstored : log.stored source.runId
    (hashing.sha256 source.sourceEventKey, spec.eventType) with
  | some exact =>
      dsimp only
      split_ifs <;> exact nofun
  | none =>
      rw [hstored] at h
      obtain ⟨e, hlatest, hsame⟩ := h.resolve_left (by simp)
      simp only [hlatest, if_pos hsame]
      split_ifs <;> exact nofun

theorem pendingSpecs_of_traced {pending : List (DomainEventSpec hashing)}
    (htraced : ∀ spec ∈ specs, log.isPending hashing source spec ≠ .ok true)
    (h : log.pendingSpecs hashing source specs = .ok pending) : pending = [] := by
  induction specs generalizing pending with
  | nil =>
      cases h
      rfl
  | cons spec specs ih =>
      simp only [pendingSpecs] at h
      split at h
      · cases h
      · cases h
      · rename_i b rest hpending hrest
        cases b with
        | true => exact absurd hpending (htraced spec List.mem_cons_self)
        | false =>
            cases h
            exact ih (fun s hs => htraced s (List.mem_cons_of_mem _ hs)) hrest

/-- An event that contradicts a stored one makes the whole delivery raise. -/
theorem pendingSpecs_of_contradicted {spec : DomainEventSpec hashing} {e : DomainEvent}
    (hspec : spec ∈ specs)
    (hstored : log.stored source.runId (hashing.sha256 source.sourceEventKey, spec.eventType) =
      some e) (hne : e.payloadHash ≠ spec.payloadHash) :
    log.pendingSpecs hashing source specs = .error .conflict := by
  have hconflict : log.isPending hashing source spec = .error .conflict := by
    simp only [isPending, hstored]
    rw [if_pos (.inl hne)]
  cases hpending : log.pendingSpecs hashing source specs with
  | error e' => rw [pendingSpecs_error hpending]
  | ok pending =>
      induction specs generalizing pending with
      | nil => exact absurd hspec List.not_mem_nil
      | cons s specs ih =>
          simp only [pendingSpecs] at hpending
          split at hpending
          · cases hpending
          · cases hpending
          · rename_i hfirst hrest
            rcases List.mem_cons.mp hspec with rfl | hspec
            · rw [hconflict] at hfirst
              cases hfirst
            · have habsurd := ih hspec _ hrest
              cases habsurd

/-- An append of an official stream event. -/
theorem appendProgressiveEvents_cases {log' : EventLog} {delivery : Delivery}
    {checkpointId : Option String} {createdAt : ℕ}
    (h : log.appendProgressiveEvents hashing models run delivery.updates delivery.sourceEventId
      checkpointId createdAt = .ok log') :
    (delivery.sourceEventId.isEmpty = false ∧ delivery.sourceEventId.length ≤ 255) ∧
    ∃ specs, progressiveEventSpecs hashing models delivery.updates = some specs ∧
      log.appendEventSpecs hashing
        ⟨run, s!"stream:{delivery.sourceEventId}", some delivery.sourceEventId, checkpointId,
          createdAt⟩ specs = .ok log' := by
  unfold appendProgressiveEvents at h
  split_ifs at h with hid
  push Not at hid
  cases hspecs : progressiveEventSpecs hashing models delivery.updates with
  | none => simp [hspecs] at h
  | some specs =>
      simp only [hspecs] at h
      exact ⟨⟨by simpa using hid.1, hid.2⟩, specs, rfl, h⟩

end EventLog

/-- A repeated delivery with a trace of each event changes nothing. -/
theorem deliver_of_leavesTrace (htrace : ∀ specs,
    progressiveEventSpecs hashing models delivery.updates = some specs →
      (∀ spec ∈ specs, Traced hashing run log delivery spec) ∨
        ∃ spec ∈ specs, Contradicted hashing run log delivery spec)
    (checkpointId : Option String) (createdAt : ℕ) :
    log.deliver hashing models run delivery checkpointId createdAt = log := by
  unfold EventLog.deliver
  cases happend : log.appendProgressiveEvents hashing models run delivery.updates
    delivery.sourceEventId checkpointId createdAt with
  | error e => rfl
  | ok log' =>
      obtain ⟨-, specs, hspecs, happend⟩ := EventLog.appendProgressiveEvents_cases happend
      obtain ⟨pending, hpending, hcases⟩ := EventLog.appendEventSpecs_cases happend
      rcases htrace specs hspecs with htraced | ⟨spec, hspec, e, hstored, hne⟩
      · have hnot (spec) (hspec : spec ∈ specs) : log.isPending hashing ⟨run,
            s!"stream:{delivery.sourceEventId}", some delivery.sourceEventId, checkpointId,
            createdAt⟩ spec ≠ .ok true := EventLog.isPending_of_traced (htraced spec hspec)
        have hnil : pending = [] := EventLog.pendingSpecs_of_traced hnot hpending
        rcases hcases with ⟨-, rfl⟩ | ⟨hne, -⟩
        · rfl
        · exact absurd hnil hne
      · rw [EventLog.pendingSpecs_of_contradicted hspec hstored hne] at hpending
        cases hpending

theorem deliveryState_step_reference {s s' : DeliveryState} {l : DeliveryLabel}
    (hok : LeavesTrace hashing models run s l) (hs : s.log = s.reference)
    (h : s.step hashing models run l = some s') : s'.log = s'.reference := by
  cases l with
  | first delivery checkpointId createdAt =>
      cases h
      simp only [hs]
  | again index checkpointId createdAt =>
      obtain ⟨delivery, hdelivery, rfl⟩ := Option.map_eq_some_iff.mp h
      have hself := deliver_of_leavesTrace (fun specs => hok delivery specs hdelivery)
        checkpointId createdAt
      exact hself.trans hs

/-- The events of the run come from official stream events, under distinct keys. -/
structure Streamed (hashing : Hashing) (run : ℕ) (log : EventLog) : Prop where
  keys : log.KeysDistinct
  source : ∀ e ∈ log.events, e.runId = run → ∃ id : String, e.sourceEventId = some id ∧
    e.sourceDigest = hashing.sha256 s!"stream:{id}" ∧ id.isEmpty = false ∧ id.length ≤ 255
  hash : ∀ e ∈ log.events, e.runId = run → e.payloadHash = hashing.payloadHash e.payload

theorem streamed_deliver (hlog : Streamed hashing run log) (delivery : Delivery)
    (checkpointId : Option String) (createdAt : ℕ) :
    Streamed hashing run (log.deliver hashing models run delivery checkpointId createdAt) := by
  unfold EventLog.deliver
  cases happend : log.appendProgressiveEvents hashing models run delivery.updates
    delivery.sourceEventId checkpointId createdAt with
  | error e => exact hlog
  | ok log' =>
      obtain ⟨⟨hempty, hlength⟩, specs, hspecs, happend⟩ :=
        EventLog.appendProgressiveEvents_cases happend
      obtain ⟨pending, hpending, hcases⟩ := EventLog.appendEventSpecs_cases happend
      rcases hcases with ⟨-, rfl⟩ | ⟨-, hconstraints, rfl⟩
      · exact hlog
      · refine ⟨EventLog.keysDistinct_iff.mpr hconstraints.1, ?_, ?_⟩
        · intro e he hrun
          rcases List.mem_append.mp he with he | he
          · exact hlog.source e he hrun
          · obtain ⟨-, hdigest, hid, -⟩ := EventLog.mem_rows he
            exact ⟨_, hid, hdigest, hempty, hlength⟩
        · intro e he hrun
          rcases List.mem_append.mp he with he | he
          · exact hlog.hash e he hrun
          · obtain ⟨-, -, -, spec, hspec, -, hhash, hpayload⟩ := EventLog.mem_rows he
            rw [hhash, hpayload]
            exact spec.hashed

theorem deliveryState_step_streamed {s s' : DeliveryState} {l : DeliveryLabel}
    (hs : Streamed hashing run s.log) (h : s.step hashing models run l = some s') :
    Streamed hashing run s'.log := by
  cases l with
  | first delivery checkpointId createdAt =>
      cases h
      exact streamed_deliver hs delivery checkpointId createdAt
  | again index checkpointId createdAt =>
      obtain ⟨delivery, -, rfl⟩ := Option.map_eq_some_iff.mp h
      exact streamed_deliver hs delivery checkpointId createdAt

/-- The event that is stored under the key of an event is that event. -/
theorem Streamed.stored_self (hlog : Streamed hashing run log) {e : DomainEvent}
    (he : e ∈ log.events) (hrun : e.runId = run) :
    log.stored run e.sourceEventKey = some e := by
  cases hstored : log.stored run e.sourceEventKey with
  | none => exact absurd rfl (EventLog.ne_key_of_stored_eq_none hstored he hrun)
  | some f =>
      obtain ⟨⟨hf, hfrun⟩, hkey⟩ := EventLog.stored_eq_some hstored
      rw [List.inj_on_of_nodup_map (EventLog.keysDistinct_iff.mp hlog.keys) hf he
        (by rw [hfrun, hrun, hkey])]

/-- An event id that comes with a payload other than the stored one of the type is refused. -/
theorem conflict_of_changed_payload (hlog : Streamed hashing run log) {spec : DomainEventSpec hashing}
    {e : DomainEvent} (hspecs : progressiveEventSpecs hashing models delivery.updates = some specs)
    (hspec : spec ∈ specs) (he : e ∈ log.events) (hrun : e.runId = run)
    (hid : e.sourceEventId = some delivery.sourceEventId) (htype : e.eventType = spec.eventType)
    (hpayload : hashing.canonical e.payload ≠ hashing.canonical spec.payload)
    (checkpointId : Option String) (createdAt : ℕ) :
    log.appendProgressiveEvents hashing models run delivery.updates delivery.sourceEventId
      checkpointId createdAt = .error .conflict := by
  obtain ⟨id, hid', hdigest, hempty, hlength⟩ := hlog.source e he hrun
  have hsame : id = delivery.sourceEventId := Option.some.inj (hid'.symm.trans hid)
  subst hsame
  have hstored := hlog.stored_self he hrun
  have hne : e.payloadHash ≠ spec.payloadHash := by
    rw [hlog.hash e he hrun, spec.hashed]
    exact fun heq => hpayload (hashing.collisionFree heq)
  rw [DomainEvent.sourceEventKey, hdigest, htype] at hstored
  have hconflict : log.pendingSpecs hashing ⟨run, s!"stream:{delivery.sourceEventId}",
      some delivery.sourceEventId, checkpointId, createdAt⟩ specs = .error .conflict :=
    EventLog.pendingSpecs_of_contradicted hspec hstored hne
  unfold EventLog.appendProgressiveEvents
  rw [if_neg (by simp [hempty, hlength])]
  simp only [hspecs, EventLog.appendEventSpecs, hconflict]

/-- Repeated deliveries that have left a trace leave the log as it would be without them, and an
event id that comes with another payload of a stored type is always refused. -/
theorem replay_idempotent (hkeys : log.KeysDistinct) (hfresh : ∀ e ∈ log.events, e.runId ≠ run) :
    (∀ s, Reaches (DeliveryState.step hashing models run) (LeavesTrace hashing models run)
      ⟨log, log, []⟩ s → s.log = s.reference) ∧
    ∀ s, Reaches (DeliveryState.step hashing models run) anyStep ⟨log, log, []⟩ s →
      ∀ (delivery : Delivery) checkpointId createdAt, ∀ e ∈ s.log.events, e.runId = run →
        e.sourceEventId = some delivery.sourceEventId →
        ∀ specs, progressiveEventSpecs hashing models delivery.updates = some specs →
        ∀ spec ∈ specs, e.eventType = spec.eventType →
          hashing.canonical e.payload ≠ hashing.canonical spec.payload →
          s.log.appendProgressiveEvents hashing models run delivery.updates
            delivery.sourceEventId checkpointId createdAt = .error .conflict := by
  constructor
  · intro s h
    exact h.invariant (I := fun s => s.log = s.reference)
      (fun _ _ _ hok hs hstep => deliveryState_step_reference hok hs hstep) rfl
  · intro s h delivery checkpointId createdAt e he hrun hid specs hspecs spec hspec htype hpayload
    have hstart : Streamed hashing run log :=
      ⟨hkeys, fun e he hrun => absurd hrun (hfresh e he), fun e he hrun => absurd hrun (hfresh e he)⟩
    have hlog : Streamed hashing run s.log :=
      h.invariant (I := fun s => Streamed hashing run s.log)
        (fun _ _ _ _ hs hstep => deliveryState_step_streamed hs hstep) hstart
    exact conflict_of_changed_payload hlog hspecs hspec he hrun hid htype hpayload checkpointId
      createdAt

end Replay

section Verdicts

/-! Evidence verdicts as they follow each other over rounds of edits. -/

/-- The update of a node that has found the evidence sufficient. -/
def verdictDelivery (sourceEventId : String) (cap : UnitInterval) : Delivery :=
  ⟨sourceEventId, [("validate_evidence", .obj [("evidence_verdict",
    EvidenceVerdict.codec.dump ⟨true, cap, [], [], [], by simp⟩)])]⟩

theorem half_fits : (0 : ℚ) ≤ 1 / 2 ∧ (1 / 2 : ℚ) ≤ 1 := by decide +kernel

def halfCap : UnitInterval := ⟨1 / 2, half_fits⟩

/-- The first of two different verdicts is delivered again. -/
theorem replay_idempotent_verdicts :
    ∃ s : DeliveryState, s.delivered.length = 2 ∧ s.log.events.length = 2 ∧
      s.log = s.reference := by
  have hany : (runLabels (DeliveryState.step plainHashing dumpModels 1) ⟨⟨[], 1⟩, ⟨[], 1⟩, []⟩
      [.first (verdictDelivery "1" fullCap) none 0,
        .first (verdictDelivery "2" halfCap) none 1]).any (fun s =>
          s.delivered.length = 2 ∧ s.log.events.length = 2 ∧
          s.delivered[0]?.all (fun delivery =>
            (progressiveEventSpecs plainHashing dumpModels delivery.updates).all fun specs =>
              specs.all fun spec => (s.log.stored 1
                (delivery.sourceDigest plainHashing, spec.eventType)).isSome) = true) = true := by
    decide +kernel
  obtain ⟨s, hlabels, hall⟩ := (Option.any_eq_true _ _).mp hany
  obtain ⟨htwo, hlength, hstored⟩ := of_decide_eq_true hall
  obtain ⟨delivery, hdelivery⟩ : ∃ delivery, s.delivered[0]? = some delivery :=
    ⟨_, List.getElem?_eq_getElem (by omega)⟩
  have htrace : LeavesTrace plainHashing dumpModels 1 s (.again 0 none 2) := by
    intro delivery specs hdelivery hspecs
    simp only [hdelivery, Option.all_some, hspecs, List.all_eq_true] at hstored
    exact .inl fun spec hspec => .inl (hstored spec hspec)
  have hrun : Reaches (DeliveryState.step plainHashing dumpModels 1)
      (LeavesTrace plainHashing dumpModels 1) ⟨⟨[], 1⟩, ⟨[], 1⟩, []⟩ s := by
    refine reaches_of_guarded _ (fun s l hl => ?_) hlabels
    simp only [List.mem_cons, List.not_mem_nil, or_false] at hl
    rcases hl with rfl | rfl <;> exact trivial
  have hagain : s.step plainHashing dumpModels 1 (.again 0 none 2) =
      some { s with log := s.log.deliver plainHashing dumpModels 1 delivery none 2 } := by
    simp only [DeliveryState.step, hdelivery, Option.map_some]
  have hempty : EventLog.KeysDistinct ⟨[], 1⟩ := .nil
  have hsame := (replay_idempotent hempty fun e he => absurd he List.not_mem_nil).1 _
    (hrun.tail _ htrace hagain)
  have hself : s.log.deliver plainHashing dumpModels 1 delivery none 2 = s.log :=
    deliver_of_leavesTrace (fun specs => htrace delivery specs hdelivery) none 2
  refine ⟨{ s with log := s.log.deliver plainHashing dumpModels 1 delivery none 2 }, htwo, ?_,
    hsame⟩
  exact (congrArg (fun log => log.events.length) hself).trans hlength

/-- A verdict that was equal to the one before it is delivered again after a third verdict and
stored this time. -/
theorem repeated_verdict_stored :
    ∃ s, Reaches (DeliveryState.step plainHashing dumpModels 1) anyStep
        ⟨⟨[], 1⟩, ⟨[], 1⟩, []⟩ s ∧
      s.reference.events.length = 2 ∧ s.log.events.length = 3 := by
  have hany : (runLabels (DeliveryState.step plainHashing dumpModels 1) ⟨⟨[], 1⟩, ⟨[], 1⟩, []⟩
      [.first (verdictDelivery "1" fullCap) none 0, .first (verdictDelivery "2" fullCap) none 1,
        .first (verdictDelivery "3" halfCap) none 2, .again 1 none 3]).any (fun s =>
        s.reference.events.length = 2 ∧ s.log.events.length = 3) = true := by
    decide +kernel
  obtain ⟨s, hlabels, hlength⟩ := (Option.any_eq_true _ _).mp hany
  exact ⟨s, reaches_of_runLabels _ hlabels, of_decide_eq_true hlength⟩

end Verdicts

end CryptoAlert
