import CryptoAlert.Graph.Gate
import CryptoAlert.Lib.Streams
import Mathlib.Data.List.Pairwise

/-!
# The order of the product events of a run

The nodes number their events by literals and an offset of a hundred for every review. Along every
path of the graph the numbers rise, so they identify the events of a run. A node whose execution is
lost is executed again, and may have written some of its events before.
-/

namespace CryptoAlert

inductive EventName where
  | taskProgress | artifact | evidence | usage | notification | quality
deriving DecidableEq, Repr

namespace ProductEvent

def name : ProductEvent → EventName
  | taskProgress .. => .taskProgress
  | artifact .. => .artifact
  | evidence .. => .evidence
  | usage .. => .usage
  | notification .. => .notification
  | quality .. => .quality

/-- The coordinates that `event_id` is the digest of; the others are those of the run. -/
def eventId (e : ProductEvent) : EventName × ℕ := (e.name, e.sequence)

/-- The events come in the strict order of their numbers. -/
abbrev Ascending (events : List ProductEvent) : Prop :=
  events.Pairwise fun e f => e.sequence < f.sequence

end ProductEvent

open ProductEvent (Ascending)

namespace Node

variable (n : Node) (s : AnalysisState)

/-- The lowest number of the events of a node. -/
def firstNumber : ℕ :=
  match n with
  | .validateRequest => 10
  | .runDeepResearch | .collectMarketSnapshot => 20
  | .researchEvents => 30
  | .analyzeMarket => 40
  | .validateEvidence => 50 + s.reviewIteration * 100
  | .applyRiskPolicy => 60 + s.reviewIteration * 100
  | .buildArtifact => 70 + s.reviewIteration * 100
  | .reviewPolicy => 80 + s.reviewIteration * 100
  | .interruptReview => 81 + s.reviewIteration * 100
  | .applyEdits => 82 + (s.reviewIteration - 1) * 100
  | .commitArtifact => 90 + s.reviewIteration * 100
  | .complete | .completeBlocked | .completeFailed => 100 + s.reviewIteration * 100

/-- The highest number of the events of a node. -/
def lastNumber : ℕ :=
  match n with
  | .validateRequest => 11
  | .runDeepResearch => 33
  | .collectMarketSnapshot => 20
  | .researchEvents => 31
  | .analyzeMarket => 41
  | .validateEvidence => 51 + s.reviewIteration * 100
  | .applyRiskPolicy => 61 + s.reviewIteration * 100
  | .buildArtifact => 71 + s.reviewIteration * 100
  | .reviewPolicy => 80 + s.reviewIteration * 100
  | .interruptReview => 81 + s.reviewIteration * 100
  | .applyEdits => 82 + (s.reviewIteration - 1) * 100
  | .commitArtifact => 91 + s.reviewIteration * 100
  | .complete | .completeBlocked | .completeFailed => 100 + s.reviewIteration * 100

theorem firstNumber_le_lastNumber : n.firstNumber s ≤ n.lastNumber s := by
  cases n <;> simp only [firstNumber, lastNumber] <;> omega

/-- The number of reviews after a node. -/
def nextIteration : ℕ :=
  match n with
  | .validateRequest => 0
  | .interruptReview => s.reviewIteration + 1
  | _ => s.reviewIteration

end Node

/-- The events of a node are numbered within its range. -/
structure Numbered (n : Node) (s s' : AnalysisState) (events : List ProductEvent) : Prop where
  ascending : Ascending events
  range : ∀ e ∈ events, n.firstNumber s ≤ e.sequence ∧ e.sequence ≤ n.lastNumber s
  iteration : s'.reviewIteration = n.nextIteration s

/-- Every event that may still come has a higher number than `k`. -/
def Position.Follows (p : Position) (s : AnalysisState) (k : ℕ) : Prop :=
  match p with
  | .node n => k < n.firstNumber s
  | .paused _ => k < Node.firstNumber .interruptReview s
  | .ended | .raised => True

/-- Along an edge the numbers rise. -/
theorem follows_edge {n : Node} {s s' : AnalysisState} {k : ℕ}
    (hiteration : s'.reviewIteration = n.nextIteration s)
    (hedited : n = .applyEdits → 1 ≤ s.reviewIteration) (hk : k ≤ n.lastNumber s) :
    (edge n s').Follows s' k := by
  cases n with
  | validateRequest =>
      simp only [Node.lastNumber, Node.nextIteration] at hk hiteration
      simp only [edge, afterRequestValidation]
      split_ifs <;> simp only [Position.Follows, Node.firstNumber] <;> omega
  | runDeepResearch | collectMarketSnapshot | researchEvents | analyzeMarket =>
      simp only [Node.lastNumber, Node.nextIteration] at hk hiteration
      simp only [edge, afterExternalCall]
      split_ifs <;> simp only [Position.Follows, Node.firstNumber] <;> omega
  | validateEvidence | applyRiskPolicy | buildArtifact | commitArtifact =>
      simp only [Node.lastNumber, Node.nextIteration] at hk hiteration
      simp only [edge, Position.Follows, Node.firstNumber]
      omega
  | reviewPolicy =>
      simp only [Node.lastNumber, Node.nextIteration] at hk hiteration
      simp only [edge, afterReviewPolicy]
      split_ifs <;> simp only [Position.Follows, Node.firstNumber] <;> omega
  | interruptReview =>
      simp only [Node.lastNumber, Node.nextIteration] at hk hiteration
      simp only [edge, afterReview]
      split <;> (try split_ifs) <;> simp only [Position.Follows, Node.firstNumber] <;> omega
  | applyEdits =>
      have hpos := hedited rfl
      simp only [Node.lastNumber, Node.nextIteration] at hk hiteration
      simp only [edge, afterEdits]
      split_ifs <;> simp only [Position.Follows, Node.firstNumber] <;> omega
  | complete | completeBlocked | completeFailed => trivial

section Nodes

variable {u : Text.UnicodeData} {cfg : GraphConfig} {ext : Externals} {s s' : AnalysisState}
  {events : List ProductEvent}

theorem numbered_single {n : Node} {e : ProductEvent}
    (hrange : n.firstNumber s ≤ e.sequence ∧ e.sequence ≤ n.lastNumber s)
    (hiteration : s'.reviewIteration = n.nextIteration s) : Numbered n s s' [e] :=
  ⟨List.pairwise_singleton _ _, List.forall_mem_singleton.mpr hrange, hiteration⟩

theorem numbered_pair {n : Node} {e f : ProductEvent} (hlt : e.sequence < f.sequence)
    (hfirst : n.firstNumber s ≤ e.sequence) (hlast : f.sequence ≤ n.lastNumber s)
    (hiteration : s'.reviewIteration = n.nextIteration s) : Numbered n s s' [e, f] where
  ascending := List.pairwise_pair.mpr hlt
  range := by
    simp only [List.forall_mem_cons]
    exact ⟨⟨hfirst, by omega⟩, ⟨by omega, hlast⟩, fun _ h => absurd h List.not_mem_nil⟩
  iteration := hiteration

theorem numbered_failed {n : Node} {k : ℕ} {phase : Phase} {error : GraphError}
    (hk : n.firstNumber s = k) (hiteration : n.nextIteration s = s.reviewIteration)
    (h : failed s k phase error = some (s', events)) : Numbered n s s' events := by
  cases h
  subst hk
  exact numbered_single ⟨le_rfl, n.firstNumber_le_lastNumber s⟩ hiteration.symm

theorem numbered_validateRequest (h : validateRequest u cfg s = some (s', events)) :
    Numbered .validateRequest s s' events := by
  obtain ⟨raw, -, h⟩ := Option.bind_eq_some_iff.mp h
  obtain ⟨request, -, h⟩ := Option.bind_eq_some_iff.mp h
  cases h
  exact numbered_pair (Nat.lt_succ_self 10) le_rfl le_rfl rfl

/-- Deep research numbers its failure as it numbers its start. -/
theorem numbered_runDeepResearch (hresult : ∀ e, ext.deepResearch ≠ some (.error e))
    (h : runDeepResearch u cfg ext s = some (s', events)) :
    Numbered .runDeepResearch s s' events := by
  obtain ⟨raw, -, h⟩ := Option.bind_eq_some_iff.mp h
  obtain ⟨request, -, h⟩ := Option.bind_eq_some_iff.mp h
  cases hext : ext.deepResearch with
  | none =>
      simp only [hext] at h
      exact numbered_failed rfl rfl h
  | some result =>
      cases result with
      | error e => exact absurd hext (hresult e)
      | ok result =>
          simp only [hext] at h
          obtain ⟨artifact, -, h⟩ := Option.bind_eq_some_iff.mp h
          obtain ⟨draft, -, h⟩ := Option.bind_eq_some_iff.mp h
          cases h
          constructor
          · simp [Ascending, ProductEvent.sequence, usageEvent]
          · simp [Node.firstNumber, Node.lastNumber, ProductEvent.sequence, usageEvent]
          · rfl

theorem numbered_collectMarketSnapshot (h : collectMarketSnapshot u ext s = some (s', events)) :
    Numbered .collectMarketSnapshot s s' events := by
  obtain ⟨raw, -, h⟩ := Option.bind_eq_some_iff.mp h
  obtain ⟨request, -, h⟩ := Option.bind_eq_some_iff.mp h
  cases hmarket : ext.market with
  | ok provided =>
      simp only [hmarket] at h
      obtain ⟨snapshot, -, h⟩ := Option.bind_eq_some_iff.mp h
      cases h
      exact numbered_single ⟨le_rfl, le_rfl⟩ rfl
  | error primary =>
      simp only [hmarket] at h
      cases hfallback : fallbackFor ext primary with
      | none =>
          simp only [hfallback] at h
          exact numbered_failed rfl rfl h
      | some result =>
          cases result with
          | error e =>
              simp only [hfallback] at h
              exact numbered_failed rfl rfl h
          | ok result =>
              simp only [hfallback] at h
              cases h
              exact numbered_single ⟨le_rfl, le_rfl⟩ rfl

theorem numbered_researchEvents (h : researchEvents u ext s = some (s', events)) :
    Numbered .researchEvents s s' events := by
  obtain ⟨raw, -, h⟩ := Option.bind_eq_some_iff.mp h
  obtain ⟨request, -, h⟩ := Option.bind_eq_some_iff.mp h
  cases hresearch : ext.research with
  | error e =>
      simp only [hresearch] at h
      exact numbered_failed rfl rfl h
  | ok result =>
      simp only [hresearch] at h
      obtain ⟨merged, -, h⟩ := Option.bind_eq_some_iff.mp h
      cases h
      exact numbered_pair (Nat.lt_succ_self 30) le_rfl le_rfl rfl

theorem numbered_analyzeMarket (h : analyzeMarket u ext s = some (s', events)) :
    Numbered .analyzeMarket s s' events := by
  obtain ⟨raw, -, h⟩ := Option.bind_eq_some_iff.mp h
  obtain ⟨snapshot, -, h⟩ := Option.bind_eq_some_iff.mp h
  obtain ⟨bundle, -, h⟩ := Option.bind_eq_some_iff.mp h
  cases hanalysis : ext.analysis with
  | error e =>
      simp only [hanalysis] at h
      exact numbered_failed rfl rfl h
  | ok result =>
      simp only [hanalysis] at h
      obtain ⟨request, -, h⟩ := Option.bind_eq_some_iff.mp h
      split_ifs at h with hinstrument hhorizon
      · exact numbered_failed rfl rfl h
      · exact numbered_failed rfl rfl h
      · cases h
        exact numbered_pair (Nat.lt_succ_self 40) le_rfl le_rfl rfl

theorem numbered_validateEvidence (h : validateEvidence s = some (s', events)) :
    Numbered .validateEvidence s s' events := by
  obtain ⟨snapshot, -, h⟩ := Option.bind_eq_some_iff.mp h
  obtain ⟨bundle, -, h⟩ := Option.bind_eq_some_iff.mp h
  obtain ⟨analysis, -, h⟩ := Option.bind_eq_some_iff.mp h
  cases h
  exact numbered_pair (Nat.add_lt_add_right (Nat.lt_succ_self 50) _) le_rfl le_rfl rfl

theorem numbered_applyRisk (h : applyRisk s = some (s', events)) :
    Numbered .applyRiskPolicy s s' events := by
  obtain ⟨analysis, -, h⟩ := Option.bind_eq_some_iff.mp h
  obtain ⟨evidence, -, h⟩ := Option.bind_eq_some_iff.mp h
  cases h
  exact numbered_pair (Nat.add_lt_add_right (Nat.lt_succ_self 60) _) le_rfl le_rfl rfl

theorem numbered_buildArtifact (h : buildArtifact u cfg s = some (s', events)) :
    Numbered .buildArtifact s s' events := by
  obtain ⟨snapshot, -, h⟩ := Option.bind_eq_some_iff.mp h
  obtain ⟨analysis, -, h⟩ := Option.bind_eq_some_iff.mp h
  obtain ⟨evidence, -, h⟩ := Option.bind_eq_some_iff.mp h
  obtain ⟨risk, -, h⟩ := Option.bind_eq_some_iff.mp h
  obtain ⟨provenance, -, h⟩ := Option.bind_eq_some_iff.mp h
  cases h
  exact numbered_pair (Nat.add_lt_add_right (Nat.lt_succ_self 70) _) le_rfl le_rfl rfl

theorem numbered_reviewPolicy (h : reviewPolicyNode s = some (s', events)) :
    Numbered .reviewPolicy s s' events := by
  cases h
  apply numbered_single _ rfl
  cases s.reviewPolicy with
  | none => exact ⟨le_rfl, le_rfl⟩
  | some policy => cases policy <;> exact ⟨le_rfl, le_rfl⟩

theorem numbered_resumeReview (response : ReviewResponse) :
    Numbered .interruptReview s (resumeReview response s).1 (resumeReview response s).2 :=
  numbered_single ⟨le_rfl, le_rfl⟩ rfl

theorem numbered_applyEdits (h : applyEdits s = some (s', events)) :
    Numbered .applyEdits s s' events := by
  unfold applyEdits at h
  split_ifs at h with hdeep
  · cases hedits : s.reviewEdits with
    | none => simp only [hedits] at h; cases h
    | some edits =>
        cases edits with
        | artifact edit => simp only [hedits] at h; cases h
        | deepResearch report =>
            simp only [hedits] at h
            obtain ⟨current, -, h⟩ := Option.bind_eq_some_iff.mp h
            obtain ⟨artifact, -, h⟩ := Option.bind_eq_some_iff.mp h
            cases h
            exact numbered_single ⟨le_rfl, le_rfl⟩ rfl
  · cases hedits : s.reviewEdits with
    | none => simp only [hedits] at h; cases h
    | some edits =>
        cases edits with
        | deepResearch report => simp only [hedits] at h; cases h
        | artifact edit =>
            simp only [hedits] at h
            obtain ⟨current, -, h⟩ := Option.bind_eq_some_iff.mp h
            obtain ⟨analysis, -, h⟩ := Option.bind_eq_some_iff.mp h
            cases h
            exact numbered_single ⟨le_rfl, le_rfl⟩ rfl

theorem numbered_commitArtifact (h : commitArtifact s = some (s', events)) :
    Numbered .commitArtifact s s' events := by
  have hlt : 90 + s.reviewIteration * 100 < 91 + s.reviewIteration * 100 :=
    Nat.add_lt_add_right (Nat.lt_succ_self 90) _
  unfold commitArtifact at h
  split_ifs at h with hdeep
  · obtain ⟨draft, -, h⟩ := Option.bind_eq_some_iff.mp h
    obtain ⟨artifact, -, h⟩ := Option.bind_eq_some_iff.mp h
    cases h
    exact numbered_pair hlt le_rfl le_rfl rfl
  · obtain ⟨draft, -, h⟩ := Option.bind_eq_some_iff.mp h
    cases h
    exact numbered_pair hlt le_rfl le_rfl rfl

/-- The event of `complete_blocked`. -/
def completeBlockedEvent (s : AnalysisState) : ProductEvent :=
  .taskProgress (100 + s.reviewIteration * 100)
    (if s.reviewAction = some .reject then .completedRejected else .completedBlocked) .blocked

theorem completeBlocked_events (h : completeBlocked s = some (s', events)) :
    events = [completeBlockedEvent s] ∧ s'.reviewIteration = s.reviewIteration := by
  unfold completeBlocked at h
  dsimp only at h
  split at h
  · obtain ⟨artifact, -, h⟩ := Option.bind_eq_some_iff.mp h
    cases h
    exact ⟨rfl, rfl⟩
  · split at h
    · split_ifs at h with hreject
      · cases h
        exact ⟨by rw [completeBlockedEvent, if_pos hreject], rfl⟩
      · cases h
        exact ⟨by rw [completeBlockedEvent, if_neg hreject], rfl⟩
    · cases h
      exact ⟨rfl, rfl⟩

theorem numbered_completeBlocked (h : completeBlocked s = some (s', events)) :
    Numbered .completeBlocked s s' events := by
  obtain ⟨rfl, hiteration⟩ := completeBlocked_events h
  exact numbered_single ⟨le_rfl, le_rfl⟩ hiteration

/-- Every node that completes numbers its events within its range. -/
theorem numbered_runNode {n : Node}
    (hresult : n = .runDeepResearch → ∀ e, ext.deepResearch ≠ some (.error e))
    (h : runNode u cfg ext n s = some (s', events)) : Numbered n s s' events := by
  cases n with
  | validateRequest => exact numbered_validateRequest h
  | runDeepResearch => exact numbered_runDeepResearch (hresult rfl) h
  | collectMarketSnapshot => exact numbered_collectMarketSnapshot h
  | researchEvents => exact numbered_researchEvents h
  | analyzeMarket => exact numbered_analyzeMarket h
  | validateEvidence => exact numbered_validateEvidence h
  | applyRiskPolicy => exact numbered_applyRisk h
  | buildArtifact => exact numbered_buildArtifact h
  | reviewPolicy => exact numbered_reviewPolicy h
  | interruptReview => cases h
  | applyEdits => exact numbered_applyEdits h
  | commitArtifact => exact numbered_commitArtifact h
  | completeBlocked => exact numbered_completeBlocked h
  | complete | completeFailed =>
      cases h
      exact numbered_single ⟨le_rfl, le_rfl⟩ rfl

end Nodes

/-- What an execution of a node gets from outside. -/
inductive Attempt where
  | call (ext : Externals)
  | reply (response : ReviewResponse)

/-- A run together with everything that it has written to its stream. -/
structure StreamedRun where
  run : GraphRun
  stream : List ProductEvent
  /-- The last execution of the current node that was lost. -/
  lost : Option Attempt

inductive StreamLabel where
  /-- A node is executed to its end, or until it raises. -/
  | execute (attempt : Attempt)
  /-- An execution is lost once it has written some of its events. -/
  | lose (attempt : Attempt) (written : ℕ)

def StreamLabel.attempt : StreamLabel → Attempt
  | execute attempt | lose attempt _ => attempt

section Streams

variable (u : Text.UnicodeData) (cfg : GraphConfig)

/-- The events that a node writes, up to an exception that it raises. -/
def nodeEvents (ext : Externals) (n : Node) (s : AnalysisState) : List ProductEvent :=
  match runNode u cfg ext n s with
  | some (_, events) => events
  | none =>
      match n with
      | .runDeepResearch =>
          if (s.request.bind (·.deepResearch u)).isSome ∧ ext.deepResearch.isSome then
            [.taskProgress 20 .deepResearch .active]
          else []
      | .completeBlocked => [completeBlockedEvent s]
      | _ => []

namespace GraphRun

variable (r : GraphRun)

/-- The events that an execution reaches, before any of them is validated. -/
def reachedEvents : Attempt → List ProductEvent
  | .call ext =>
      match r.position with
      | .node n => nodeEvents u cfg ext n r.state
      | _ => []
  | .reply response =>
      match r.position with
      | .paused payload =>
          if validateReviewResponseForPayload payload response then
            (resumeReview response r.state).2
          else []
      | _ => []

/-- The events that an execution writes; the first one that is not valid raises. -/
def written (a : Attempt) : List ProductEvent :=
  if cfg.hasIdentity then (r.reachedEvents u cfg a).takeWhile ProductEvent.isValid else []

def execute : Attempt → Option GraphRun
  | .call ext => r.advance u cfg ext
  | .reply response => r.respond cfg response

end GraphRun

namespace StreamedRun

def start (input : RunInput) (s : AnalysisState) : StreamedRun :=
  ⟨GraphRun.start input s, [], none⟩

def step (r : StreamedRun) : StreamLabel → Option StreamedRun
  | .execute a =>
      (r.run.execute u cfg a).map fun run => ⟨run, r.stream ++ r.run.written u cfg a, none⟩
  | .lose a k =>
      (r.run.execute u cfg a).map fun _ =>
        { r with stream := r.stream ++ (r.run.written u cfg a).take k, lost := some a }

end StreamedRun

end Streams

section Order

variable {u : Text.UnicodeData} {cfg : GraphConfig} {r r' : GraphRun} {a : Attempt}

theorem emit_eq {hasIdentity : Bool} {events emitted : List ProductEvent}
    (h : emit hasIdentity events = some emitted) :
    emitted = if hasIdentity then events.takeWhile ProductEvent.isValid else [] := by
  unfold emit at h
  cases hasIdentity with
  | false => exact (Option.some.inj h).symm
  | true =>
      by_cases hall : events.all ProductEvent.isValid = true
      · have hevents : events.takeWhile ProductEvent.isValid = events :=
          List.takeWhile_eq_self_iff.mpr (List.all_eq_true.mp hall)
        simp only [Bool.not_true, Bool.false_eq_true, if_false, hall, if_true] at h
        rw [if_pos rfl, hevents]
        exact (Option.some.inj h).symm
      · simp [hall] at h

/-- What an execution that is not lost does. -/
theorem GraphRun.execute_cases (h : r.execute u cfg a = some r') :
    (r'.position = .raised ∧ r'.events = r.events) ∨
    (r.written u cfg a = [] ∧ r.position = .node .interruptReview ∧
      (∃ payload, r'.position = .paused payload) ∧ r'.state = r.state ∧ r'.events = r.events) ∨
    (∃ n events, r'.position = edge n r'.state ∧ r'.events = r.events ++ r.written u cfg a ∧
      r.reachedEvents u cfg a = events ∧
      ((∃ ext, a = .call ext ∧ r.position = .node n ∧
          runNode u cfg ext n r.state = some (r'.state, events)) ∨
        ∃ payload response, a = .reply response ∧ r.position = .paused payload ∧
          n = .interruptReview ∧ (r'.state, events) = resumeReview response r.state)) := by
  cases a with
  | call ext =>
      cases hp : r.position with
      | node n =>
          by_cases hn : n = .interruptReview
          · subst hn
            have hwritten : r.written u cfg (.call ext) = [] := by
              simp [GraphRun.written, GraphRun.reachedEvents, hp, nodeEvents, runNode]
            simp only [execute, advance, hp, Option.some.injEq] at h
            subst h
            cases hpay : reviewPayload u r.state with
            | none =>
                left
                simp only [pause, hpay]
                exact ⟨rfl, rfl⟩
            | some payload =>
                right
                left
                simp only [pause, hpay]
                exact ⟨hwritten, trivial, ⟨payload, rfl⟩, trivial, trivial⟩
          · have hadv : r' = r.finish cfg n (runNode u cfg ext n r.state) := by
              cases n <;> simp only [execute, advance, hp, Option.some.injEq] at h <;>
                first | exact h.symm | exact absurd rfl hn
            rcases finish_cases cfg r n (runNode u cfg ext n r.state) with
              hf | ⟨s, events, emitted, hs, hemit, hf⟩
            · left
              rw [hadv, hf]
              exact ⟨rfl, rfl⟩
            · right
              right
              have hreached : r.reachedEvents u cfg (.call ext) = events := by
                simp only [reachedEvents, hp, nodeEvents, hs]
              refine ⟨n, events, by rw [hadv, hf], ?_, hreached, .inl ⟨ext, rfl, rfl, ?_⟩⟩
              · rw [hadv, hf, written, hreached, emit_eq hemit]
              · rw [hadv, hf, hs]
      | paused payload => simp [execute, advance, hp] at h
      | ended => simp [execute, advance, hp] at h
      | raised => simp [execute, advance, hp] at h
  | reply response =>
      cases hp : r.position with
      | paused payload =>
          simp only [execute, respond, hp] at h
          by_cases hv : validateReviewResponseForPayload payload response = true
          · rw [if_pos hv, Option.some.injEq] at h
            rcases finish_cases cfg (r.record payload response) .interruptReview
              (some (resumeReview response r.state)) with hf | ⟨s, events, emitted, hs, hemit, hf⟩
            · left
              rw [← h, hf]
              exact ⟨rfl, rfl⟩
            · right
              right
              rw [Option.some.injEq] at hs
              have hreached : r.reachedEvents u cfg (.reply response) = events := by
                simp only [reachedEvents, hp, if_pos hv, hs]
              refine ⟨.interruptReview, events, by rw [← h, hf], ?_, hreached,
                .inr ⟨payload, response, rfl, rfl, rfl, ?_⟩⟩
              · rw [← h, hf, written, hreached, emit_eq hemit]
                rfl
              · rw [← h, hf, hs]
          · rw [if_neg hv, Option.some.injEq] at h
            left
            rw [← h]
            exact ⟨rfl, rfl⟩
      | node n => simp [execute, respond, hp] at h
      | ended => simp [execute, respond, hp] at h
      | raised => simp [execute, respond, hp] at h

/-- The executor of a deep research does not fail with an exception that the node handles. -/
def ResearchHolds (p : Position) (a : Attempt) : Prop :=
  p = .node .runDeepResearch → ∀ ext e, a = .call ext → ext.deepResearch ≠ some (.error e)

/-- The events that an execution reaches rise, and are higher than all before. -/
theorem reachedEvents_ascending (hresearch : ResearchHolds r.position a) :
    Ascending (r.reachedEvents u cfg a) ∧
      ∀ e ∈ r.reachedEvents u cfg a, ∀ k, r.position.Follows r.state k → k < e.sequence := by
  have hnone : Ascending [] ∧ ∀ e ∈ ([] : List ProductEvent), ∀ k,
      r.position.Follows r.state k → k < e.sequence :=
    ⟨List.Pairwise.nil, fun _ h => absurd h List.not_mem_nil⟩
  have hnumbered : ∀ {n s' events}, Numbered n r.state s' events →
      (∀ k, r.position.Follows r.state k → k < n.firstNumber r.state) →
      Ascending events ∧ ∀ e ∈ events, ∀ k, r.position.Follows r.state k → k < e.sequence := by
    intro n s' events hn hfollows
    exact ⟨hn.ascending, fun e he k hk => (hfollows k hk).trans_le (hn.range e he).1⟩
  cases a with
  | call ext =>
      rw [GraphRun.reachedEvents]
      cases hp : r.position with
      | node n =>
          simp only
          rw [hp] at hnone hnumbered hresearch
          unfold nodeEvents
          cases hrun : runNode u cfg ext n r.state with
          | some result =>
              have hn := numbered_runNode (fun hn e => hresearch (by rw [hn]) ext e rfl) hrun
              exact hnumbered hn fun k hk => hk
          | none =>
              have hsingle : ∀ e : ProductEvent, n.firstNumber r.state = e.sequence →
                  Ascending [e] ∧ ∀ f ∈ [e], ∀ k, (Position.node n).Follows r.state k →
                    k < f.sequence := by
                intro e he
                refine ⟨List.pairwise_singleton _ _, List.forall_mem_singleton.mpr ?_⟩
                intro k hk
                rw [← he]
                exact hk
              cases n with
              | runDeepResearch =>
                  simp only
                  split_ifs
                  · exact hsingle _ rfl
                  · exact hnone
              | completeBlocked => exact hsingle _ rfl
              | _ => exact hnone
      | paused payload => rwa [hp] at hnone
      | ended => rwa [hp] at hnone
      | raised => rwa [hp] at hnone
  | reply response =>
      rw [GraphRun.reachedEvents]
      cases hp : r.position with
      | paused payload =>
          simp only
          rw [hp] at hnone hnumbered
          split_ifs
          · exact hnumbered (numbered_resumeReview response) fun k hk => hk
          · exact hnone
      | node n => rwa [hp] at hnone
      | ended => rwa [hp] at hnone
      | raised => rwa [hp] at hnone

theorem written_sublist : (r.written u cfg a).Sublist (r.reachedEvents u cfg a) := by
  rw [GraphRun.written]
  split_ifs
  · exact (List.takeWhile_prefix _).sublist
  · exact List.nil_sublist _

theorem written_ascending (hresearch : ResearchHolds r.position a)
    (hascending : Ascending r.events)
    (hfollows : ∀ e ∈ r.events, r.position.Follows r.state e.sequence) :
    Ascending (r.events ++ r.written u cfg a) := by
  obtain ⟨hreached, habove⟩ := @reachedEvents_ascending u cfg r a hresearch
  apply List.pairwise_append.mpr
  refine ⟨hascending, hreached.sublist written_sublist, ?_⟩
  intro e he f hf
  exact habove f (written_sublist.subset hf) e.sequence (hfollows e he)

end Order

namespace StreamedRun

/-- The executor of a deep research does not fail, and an execution that repeats a lost one gets
from outside what that one got. -/
structure Repeatable (r : StreamedRun) (l : StreamLabel) : Prop where
  research : ResearchHolds r.run.position l.attempt
  same : ∀ a, r.lost = some a → l.attempt = a

/-- The events of the stream are identified by their numbers, and a reader of the stream loses
none of them. -/
structure Ordered (r : StreamedRun) : Prop where
  ascending : Ascending r.run.events
  kept : ∀ e ∈ r.run.events, e ∈ r.stream
  identified : ∀ e ∈ r.stream, ∀ f ∈ r.stream, e.eventId = f.eventId → e = f
  consumed : ∀ e, e ∈ Stream.consume ProductEvent.eventId ProductEvent.sequence r.stream ↔
    e ∈ r.stream
  sorted : Ascending (Stream.consume ProductEvent.eventId ProductEvent.sequence r.stream)

section

variable (u : Text.UnicodeData) (cfg : GraphConfig)

/-- The events of the lost executions of the current node. -/
def pending (r : StreamedRun) : List ProductEvent :=
  match r.lost with
  | none => []
  | some a => r.run.written u cfg a

/-- What every step keeps: the events that the stream may hold rise along the run. -/
structure Rising (r : StreamedRun) : Prop where
  edited : r.run.position = .node .applyEdits → 1 ≤ r.run.state.reviewIteration
  follows : ∀ e ∈ r.run.events, r.run.position.Follows r.run.state e.sequence
  kept : ∀ e ∈ r.run.events, e ∈ r.stream
  known : ∃ rest, Ascending (r.run.events ++ rest) ∧ (∀ e ∈ r.stream, e ∈ r.run.events ++ rest) ∧
    (r.run.position ≠ .raised → rest = r.pending u cfg)

end

variable {u : Text.UnicodeData} {cfg : GraphConfig} {r r' : StreamedRun} {l : StreamLabel}

theorem Rising.ordered (h : r.Rising u cfg) : r.Ordered := by
  obtain ⟨rest, hascending, hstream, -⟩ := h.known
  have hnumber : ∀ e ∈ r.stream, ∀ f ∈ r.stream, e.sequence = f.sequence → e = f := by
    have hdistinct : (r.run.events ++ rest).Pairwise fun e f => e.sequence ≠ f.sequence :=
      hascending.imp fun hlt => hlt.ne
    have hsymm : Std.Symm fun e f : ProductEvent => e.sequence ≠ f.sequence :=
      ⟨fun _ _ h => h.symm⟩
    intro e he f hf heq
    by_contra hne
    exact hdistinct.forall (hstream e he) (hstream f hf) hne heq
  have hident : ∀ e ∈ r.stream, ∀ f ∈ r.stream, e.eventId = f.eventId → e = f := by
    intro e he f hf heq
    exact hnumber e he f hf (congrArg Prod.snd heq)
  exact {
    ascending := (List.pairwise_append.mp hascending).1
    kept := h.kept
    identified := hident
    consumed := Stream.mem_consume hident
    sorted := Stream.pairwise_consume hident hnumber }

theorem rising_start (input : RunInput) (s : AnalysisState) : (start input s).Rising u cfg where
  edited := by rintro ⟨⟩
  follows := fun _ h => absurd h List.not_mem_nil
  kept := fun _ h => absurd h List.not_mem_nil
  known := ⟨[], List.Pairwise.nil, fun _ h => absurd h List.not_mem_nil, fun _ => rfl⟩

/-- What the stream holds when a node is executed once more. -/
theorem Rising.stream (hr : r.Rising u cfg) (hok : Repeatable r l) {run : GraphRun}
    (h : r.run.execute u cfg l.attempt = some run) :
    ∀ e ∈ r.stream, e ∈ r.run.events ++ r.run.written u cfg l.attempt := by
  obtain ⟨rest, -, hstream, hrest⟩ := hr.known
  have hposition : r.run.position ≠ .raised := by
    intro hraised
    cases ha : l.attempt with
    | call ext => simp [ha, GraphRun.execute, GraphRun.advance, hraised] at h
    | reply response => simp [ha, GraphRun.execute, GraphRun.respond, hraised] at h
  intro e he
  have hmem := hstream e he
  rw [hrest hposition, pending] at hmem
  cases hlost : r.lost with
  | none =>
      rw [hlost, List.append_nil] at hmem
      exact List.mem_append_left _ hmem
  | some a =>
      rw [hok.same a hlost]
      rwa [hlost] at hmem

theorem Rising.ascending (hr : r.Rising u cfg) : Ascending r.run.events := by
  obtain ⟨rest, hascending, -⟩ := hr.known
  exact (List.pairwise_append.mp hascending).1

theorem edge_applyEdits {n : Node} {s : AnalysisState} (h : edge n s = .node .applyEdits) :
    n = .interruptReview := by
  cases n with
  | interruptReview => rfl
  | validateRequest =>
      simp only [edge, afterRequestValidation] at h
      split_ifs at h <;> cases h
  | runDeepResearch | collectMarketSnapshot | researchEvents | analyzeMarket =>
      simp only [edge, afterExternalCall] at h
      split_ifs at h <;> cases h
  | reviewPolicy =>
      simp only [edge, afterReviewPolicy] at h
      split_ifs at h <;> cases h
  | applyEdits =>
      simp only [edge, afterEdits] at h
      split_ifs at h <;> cases h
  | validateEvidence | applyRiskPolicy | buildArtifact | commitArtifact | complete
  | completeBlocked | completeFailed => cases h

theorem Rising.execute (hr : r.Rising u cfg) {a : Attempt} (hok : Repeatable r (.execute a))
    {run : GraphRun} (h : r.run.execute u cfg a = some run) :
    Rising u cfg ⟨run, r.stream ++ r.run.written u cfg a, none⟩ := by
  have hascending : Ascending (r.run.events ++ r.run.written u cfg a) :=
    written_ascending hok.research hr.ascending hr.follows
  have hstream : ∀ e ∈ r.stream ++ r.run.written u cfg a,
      e ∈ r.run.events ++ r.run.written u cfg a := by
    intro e he
    rcases List.mem_append.mp he with hold | hnew
    · exact hr.stream hok h e hold
    · exact List.mem_append_right _ hnew
  have hkept : ∀ e ∈ r.run.events, e ∈ r.stream ++ r.run.written u cfg a :=
    fun e he => List.mem_append_left _ (hr.kept e he)
  rcases GraphRun.execute_cases h with ⟨hposition, hevents⟩ |
    ⟨hwritten, hposition, ⟨payload, hpaused⟩, hstate, hevents⟩ |
    ⟨n, events, hposition, hevents, hreached, hrun⟩
  · -- The node has raised, so nothing follows.
    exact {
      edited := by rw [hposition]; rintro ⟨⟩
      follows := by rw [hposition]; exact fun _ _ => trivial
      kept := by rw [hevents]; exact hkept
      known := ⟨r.run.written u cfg a, by rw [hevents]; exact hascending,
        by rw [hevents]; exact hstream, fun hne => absurd hposition hne⟩ }
  · have hfollows := hr.follows
    rw [hposition] at hfollows
    simp only [hwritten, List.append_nil] at hascending hstream hkept ⊢
    exact {
      edited := by rw [hpaused]; rintro ⟨⟩
      follows := by rw [hpaused, hstate, hevents]; exact hfollows
      kept := by rw [hevents]; exact hkept
      known := ⟨[], by rw [hevents, List.append_nil]; exact hascending,
        by rw [hevents, List.append_nil]; exact hstream, fun _ => rfl⟩ }
  · -- The node has completed, and its events are above all earlier ones.
    have hnumbered : Numbered n r.run.state run.state events := by
      rcases hrun with ⟨ext, rfl, hp, hnode⟩ | ⟨payload, response, rfl, hp, rfl, hreview⟩
      · exact numbered_runNode (fun hn e => hok.research (by rw [hp, hn]) ext e rfl) hnode
      · have hn := @numbered_resumeReview r.run.state response
        rwa [← hreview] at hn
    have hbelow : ∀ e ∈ r.run.events, e.sequence ≤ n.lastNumber r.run.state := by
      intro e he
      have hlt := hr.follows e he
      have hfirst := n.firstNumber_le_lastNumber r.run.state
      rcases hrun with ⟨ext, -, hp, -⟩ | ⟨payload, response, -, hp, rfl, -⟩
      · rw [hp, Position.Follows] at hlt
        omega
      · rw [hp, Position.Follows] at hlt
        omega
    have hedited : n = .applyEdits → 1 ≤ r.run.state.reviewIteration := by
      rcases hrun with ⟨ext, -, hp, -⟩ | ⟨payload, response, -, -, rfl, -⟩
      · intro hn
        exact hr.edited (by rw [hp, hn])
      · rintro ⟨⟩
    have hnew : ∀ e ∈ r.run.written u cfg a, e.sequence ≤ n.lastNumber r.run.state := by
      intro e he
      have hmem := written_sublist.subset he
      rw [hreached] at hmem
      exact (hnumbered.range e hmem).2
    exact {
      edited := by
        intro hedit
        have hinterrupt := edge_applyEdits (hposition.symm.trans hedit)
        subst hinterrupt
        have hiteration := hnumbered.iteration
        simp only [Node.nextIteration] at hiteration
        rw [hiteration]
        omega
      follows := by
        rw [hevents, hposition]
        intro e he
        apply follows_edge hnumbered.iteration hedited
        rcases List.mem_append.mp he with hold | hfresh
        · exact hbelow e hold
        · exact hnew e hfresh
      kept := by
        rw [hevents]
        intro e he
        rcases List.mem_append.mp he with hold | hfresh
        · exact hkept e hold
        · exact List.mem_append_right _ hfresh
      known := ⟨[], by rw [hevents, List.append_nil]; exact hascending,
        by rw [hevents, List.append_nil]; exact hstream, fun _ => rfl⟩ }

theorem Rising.lose (hr : r.Rising u cfg) {a : Attempt} {k : ℕ} (hok : Repeatable r (.lose a k))
    {run : GraphRun} (h : r.run.execute u cfg a = some run) :
    Rising u cfg
      { r with stream := r.stream ++ (r.run.written u cfg a).take k, lost := some a } where
  edited := hr.edited
  follows := hr.follows
  kept := fun e he => List.mem_append_left _ (hr.kept e he)
  known := by
    refine ⟨r.run.written u cfg a, written_ascending hok.research hr.ascending hr.follows, ?_,
      fun _ => rfl⟩
    intro e he
    rcases List.mem_append.mp he with hold | hnew
    · exact hr.stream hok h e hold
    · exact List.mem_append_right _ (List.mem_of_mem_take hnew)

theorem Rising.step (hr : r.Rising u cfg) (hok : Repeatable r l) (h : r.step u cfg l = some r') :
    r'.Rising u cfg := by
  cases l with
  | execute a =>
      obtain ⟨run, hrun, rfl⟩ := Option.map_eq_some_iff.mp h
      exact hr.execute hok hrun
  | lose a k =>
      obtain ⟨run, hrun, rfl⟩ := Option.map_eq_some_iff.mp h
      exact hr.lose hok hrun

/-- While no deep research fails and lost executions repeat themselves, the events of a run are
written in the order of their numbers and a reader loses none of them. -/
theorem events_ordered (input : RunInput) (s : AnalysisState)
    (h : Reaches (step u cfg) Repeatable (start input s) r) : r.Ordered :=
  (h.invariant (I := Rising u cfg) (fun _ _ _ hok hs hst => hs.step hok hst)
    (rising_start input s)).ordered

section QuietMarket

/-- What the first nodes of the approved run get from outside. -/
def quietCall : Attempt := .call (quietExternals ⟨"4h", by decide⟩)

def approvedLabels : List StreamLabel :=
  List.replicate 8 (.execute quietCall) ++
    [.execute (.reply approval), .execute quietCall, .execute quietCall]

/-- No execution has been lost, and the attempt runs no deep research. -/
def isPlain (r : StreamedRun) (l : StreamLabel) : Bool :=
  r.lost.isNone && match l.attempt with
    | .call ext => ext.deepResearch.isNone
    | .reply _ => true

theorem repeatable_of_isPlain {r : StreamedRun} {l : StreamLabel} (h : isPlain r l) :
    Repeatable r l := by
  simp only [isPlain, Bool.and_eq_true] at h
  obtain ⟨hlost, hcall⟩ := h
  constructor
  · intro _ ext e ha hext
    simp [ha, hext] at hcall
  · intro a ha
    simp [ha] at hlost

/-- An approved run whose first execution is lost. -/
theorem events_ordered_approved :
    ∃ r, Reaches (step .ascii quietConfig) Repeatable (start quietInput .fresh) r ∧
      r.run.position = .ended ∧ r.Ordered := by
  have hany : ((step .ascii quietConfig (start quietInput .fresh) (.lose quietCall 1)).bind
      fun r => (step .ascii quietConfig r (.execute quietCall)).bind fun r' =>
        runChecked (step .ascii quietConfig) isPlain r' approvedLabels).any
      (fun r => r.run.position = .ended) = true := by decide +kernel
  obtain ⟨r, hrun, hended⟩ := (Option.any_eq_true _ _).mp hany
  obtain ⟨r₁, hlose, hrun⟩ := Option.bind_eq_some_iff.mp hrun
  obtain ⟨r₂, hexecute, hrun⟩ := Option.bind_eq_some_iff.mp hrun
  have hlost : r₁.lost = some quietCall := by
    have hmap := hlose
    rw [step] at hmap
    obtain ⟨run, -, rfl⟩ := Option.map_eq_some_iff.mp hmap
    rfl
  have hquiet : ∀ p, ResearchHolds p quietCall := by
    rintro p - ext e ⟨⟩ ⟨⟩
  have hfirst : Repeatable (start quietInput .fresh) (.lose quietCall 1) :=
    ⟨hquiet _, fun _ h => by cases h⟩
  have hsecond : Repeatable r₁ (.execute quietCall) := by
    refine ⟨hquiet _, fun a ha => ?_⟩
    rw [hlost] at ha
    exact Option.some.inj ha
  have hreach := ((Reaches.refl.tail _ hfirst hlose).tail _ hsecond hexecute).trans
    (reaches_of_runChecked approvedLabels (fun _ _ h => repeatable_of_isPlain h) hrun)
  exact ⟨r, hreach, of_decide_eq_true hended, events_ordered quietInput .fresh hreach⟩

/-- A deep research whose executor fails with an exception that the node handles. -/
def failingCall : Attempt :=
  .call { quietExternals ⟨"4h", by decide⟩ with
    deepResearch := some (.error ⟨.other, "ValueError", none, none, none, false⟩) }

/-- The start and the failure of a deep research have one number, and one identifier. -/
theorem events_tied :
    ∃ r, Reaches (step .ascii quietConfig) anyStep
        (start ⟨⟨.deepResearch, .btcUsdtSwap, "4h", "!", false⟩, .bypass⟩ .fresh) r ∧
      ¬ r.Ordered := by
  have hany : (runLabels (step .ascii quietConfig)
      (start ⟨⟨.deepResearch, .btcUsdtSwap, "4h", "!", false⟩, .bypass⟩ .fresh)
      [.execute failingCall, .execute failingCall]).any
      (fun r => !decide (Ascending r.run.events)) = true := by decide +kernel
  obtain ⟨r, hrun, htied⟩ := (Option.any_eq_true _ _).mp hany
  refine ⟨r, reaches_of_runLabels _ hrun, fun hordered => ?_⟩
  rw [decide_eq_true hordered.ascending] at htied
  cases htied

end QuietMarket

end StreamedRun

end CryptoAlert
