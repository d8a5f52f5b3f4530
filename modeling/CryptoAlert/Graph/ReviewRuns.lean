import CryptoAlert.Graph.Gate
import CryptoAlert.Graph.Execution
import Mathlib.Data.List.Chain

/-!
# The reviews of a run

What a reviewer is shown goes back to the collaborators through the edits of the earlier
reviews of the run alone, and what a run commits is what was shown last. This holds for both
kinds of task and from any state of the thread.
-/

namespace CryptoAlert

/-- The content of a draft, as far as edits can change it. -/
inductive Shown where
  | analysis (a : MarketAnalysis)
  | research (a : DeepResearchArtifact ReadUrl)

namespace ReviewPayload

def shown : ReviewPayload → Shown
  | artifact p => .analysis p.artifact.analysis
  | deepResearch p => .research p.artifact

def iteration : ReviewPayload → ℤ
  | artifact p => p.reviewIteration.val
  | deepResearch p => p.reviewIteration.val

end ReviewPayload

/-- The content after an edit of its own kind. -/
def Shown.revised (c : Shown) (response : ReviewResponse) : Option Shown :=
  match c, response.edits with
  | .analysis a, some (.artifact edits) => (edits.val.apply a).map .analysis
  | .research a, some (.deepResearch report) =>
      (DeepResearchArtifact.of? { a.val with committed := false, report }).map .research
  | _, _ => none

/-- The content as the collaborators of the run have returned it. -/
def Shown.Original (ext : Externals) : Shown → Prop
  | .analysis a => ∃ returned audit unavailable, ext.analysis = .ok (returned, audit) ∧
      a = { returned with unavailableData := unavailable }
  | .research a => ∃ result returned, ext.deepResearch = some (.ok result) ∧
      result.artifact.reread = some returned ∧ a.val = { returned.val with committed := false }

namespace AnalysisState

/-- The state holds a draft of the content. -/
def Presents (s : AnalysisState) : Shown → Prop
  | .analysis a => s.taskType ≠ some .deepResearch ∧ s.analysis = some a ∧
      ∃ draft, s.artifact = some draft ∧ draft.status = .draft ∧ draft.analysis = a
  | .research a => s.taskType = some .deepResearch ∧ s.deepResearchArtifact = some a ∧
      a.val.committed = false

/-- The state holds the content committed. -/
def Committed (s : AnalysisState) : Shown → Prop
  | .analysis a => s.taskType ≠ some .deepResearch ∧
      ∃ artifact, s.artifact = some artifact ∧ artifact.status = .committed ∧ artifact.analysis = a
  | .research a => s.taskType = some .deepResearch ∧
      ∃ artifact, s.deepResearchArtifact = some artifact ∧
        artifact.val = { a.val with committed := true }

/-- The channels that only the validation and the reviews write. -/
structure SameRequest (s s' : AnalysisState) : Prop where
  taskType : s'.taskType = s.taskType
  policy : s'.reviewPolicy = s.reviewPolicy
  iteration : s'.reviewIteration = s.reviewIteration

end AnalysisState

open AnalysisState

section Nodes

variable {u : Text.UnicodeData} {cfg : GraphConfig} {ext : Externals} {input : RunInput}
  {s s' : AnalysisState} {events : List ProductEvent}

theorem DeepResearchArtifact.of?_val {f : DeepResearchFields ReadUrl}
    {a : DeepResearchArtifact ReadUrl} (h : DeepResearchArtifact.of? f = some a) : a.val = f := by
  unfold DeepResearchArtifact.of? at h
  split_ifs at h
  rw [← Option.some.inj h]

theorem sameRequest_failed {k : ℕ} {phase : Phase} {error : GraphError}
    (h : failed s k phase error = some (s', events)) :
    s.SameRequest s' ∧ s'.terminalStatus = some .failed := by
  cases h
  exact ⟨⟨rfl, rfl, rfl⟩, rfl⟩

/-- The state after the validation of the input of a run. -/
structure Validated (cfg : GraphConfig) (input : RunInput) (s : AnalysisState) : Prop where
  policy : s.reviewPolicy = some .required ↔ reviewRequired cfg input
  fresh : s.reviewIteration = 0

theorem validated_validateRequest (hpolicy : s.reviewPolicy = some input.reviewPolicy)
    (h : validateRequest u cfg s = some (s', events)) :
    Validated cfg input s' ∧ s'.terminalStatus = some .running := by
  obtain ⟨raw, -, h⟩ := Option.bind_eq_some_iff.mp h
  obtain ⟨request, -, h⟩ := Option.bind_eq_some_iff.mp h
  cases h
  refine ⟨⟨?_, rfl⟩, rfl⟩
  simp only [effectivePolicy, hpolicy, reviewRequired, Option.some.injEq]
  split_ifs with hrequired
  · exact iff_of_true rfl hrequired
  · exact iff_of_false (fun h => by cases h) hrequired

theorem Validated.of_same (h : Validated cfg input s) (hsame : s.SameRequest s') :
    Validated cfg input s' :=
  ⟨by rw [hsame.policy]; exact h.policy, hsame.iteration.trans h.fresh⟩

/-- Deep research fails, or presents the artifact that was returned to it. -/
theorem presents_runDeepResearch (hdeep : s.taskType = some .deepResearch)
    (h : runDeepResearch u cfg ext s = some (s', events)) :
    s.SameRequest s' ∧ (s'.terminalStatus = some .failed ∨
      ∃ c, s'.Presents c ∧ c.Original ext) := by
  obtain ⟨raw, -, h⟩ := Option.bind_eq_some_iff.mp h
  obtain ⟨request, -, h⟩ := Option.bind_eq_some_iff.mp h
  cases hext : ext.deepResearch with
  | none =>
      simp only [hext] at h
      obtain ⟨hsame, hfailed⟩ := sameRequest_failed h
      exact ⟨hsame, .inl hfailed⟩
  | some result =>
      cases result with
      | error e =>
          simp only [hext] at h
          cases h
          exact ⟨⟨rfl, rfl, rfl⟩, .inl rfl⟩
      | ok result =>
          simp only [hext] at h
          obtain ⟨returned, hreturned, h⟩ := Option.bind_eq_some_iff.mp h
          obtain ⟨draft, hdraft, h⟩ := Option.bind_eq_some_iff.mp h
          cases h
          have hval := DeepResearchArtifact.of?_val hdraft
          refine ⟨⟨rfl, rfl, rfl⟩, .inr ⟨.research draft, ⟨hdeep, rfl, by rw [hval]⟩, ?_⟩⟩
          exact ⟨result, returned, hext, hreturned, hval⟩

theorem sameRequest_collectMarketSnapshot
    (h : collectMarketSnapshot u ext s = some (s', events)) : s.SameRequest s' := by
  obtain ⟨raw, -, h⟩ := Option.bind_eq_some_iff.mp h
  obtain ⟨request, -, h⟩ := Option.bind_eq_some_iff.mp h
  cases hmarket : ext.market with
  | ok provided =>
      simp only [hmarket] at h
      obtain ⟨snapshot, -, h⟩ := Option.bind_eq_some_iff.mp h
      cases h
      exact ⟨rfl, rfl, rfl⟩
  | error primary =>
      simp only [hmarket] at h
      cases hfallback : fallbackFor ext primary with
      | none =>
          simp only [hfallback] at h
          exact (sameRequest_failed h).1
      | some result =>
          cases result with
          | error e =>
              simp only [hfallback] at h
              exact (sameRequest_failed h).1
          | ok result =>
              simp only [hfallback] at h
              cases h
              exact ⟨rfl, rfl, rfl⟩

theorem sameRequest_researchEvents (h : researchEvents u ext s = some (s', events)) :
    s.SameRequest s' := by
  obtain ⟨raw, -, h⟩ := Option.bind_eq_some_iff.mp h
  obtain ⟨request, -, h⟩ := Option.bind_eq_some_iff.mp h
  cases hresearch : ext.research with
  | error e =>
      simp only [hresearch] at h
      exact (sameRequest_failed h).1
  | ok result =>
      simp only [hresearch] at h
      obtain ⟨merged, -, h⟩ := Option.bind_eq_some_iff.mp h
      cases h
      exact ⟨rfl, rfl, rfl⟩

/-- The analysis fails, or is the one that the model has returned but for what is missing. -/
theorem original_analyzeMarket (h : analyzeMarket u ext s = some (s', events)) :
    s.SameRequest s' ∧ (s'.terminalStatus = some .failed ∨
      ∃ a, s'.analysis = some a ∧ (Shown.analysis a).Original ext) := by
  obtain ⟨raw, -, h⟩ := Option.bind_eq_some_iff.mp h
  obtain ⟨snapshot, -, h⟩ := Option.bind_eq_some_iff.mp h
  obtain ⟨bundle, -, h⟩ := Option.bind_eq_some_iff.mp h
  cases hanalysis : ext.analysis with
  | error e =>
      simp only [hanalysis] at h
      obtain ⟨hsame, hfailed⟩ := sameRequest_failed h
      exact ⟨hsame, .inl hfailed⟩
  | ok result =>
      obtain ⟨returned, audit⟩ := result
      simp only [hanalysis] at h
      obtain ⟨request, -, h⟩ := Option.bind_eq_some_iff.mp h
      split_ifs at h with hinstrument hhorizon
      · obtain ⟨hsame, hfailed⟩ := sameRequest_failed h
        exact ⟨hsame, .inl hfailed⟩
      · obtain ⟨hsame, hfailed⟩ := sameRequest_failed h
        exact ⟨hsame, .inl hfailed⟩
      · cases h
        exact ⟨⟨rfl, rfl, rfl⟩, .inr ⟨_, rfl, ⟨returned, audit, _, hanalysis, rfl⟩⟩⟩

theorem kept_validateEvidence (h : validateEvidence s = some (s', events)) :
    s.SameRequest s' ∧ s'.analysis = s.analysis := by
  obtain ⟨snapshot, -, h⟩ := Option.bind_eq_some_iff.mp h
  obtain ⟨bundle, -, h⟩ := Option.bind_eq_some_iff.mp h
  obtain ⟨analysis, hanalysis, h⟩ := Option.bind_eq_some_iff.mp h
  cases h
  exact ⟨⟨rfl, rfl, rfl⟩, rfl⟩

theorem kept_applyRisk (h : applyRisk s = some (s', events)) :
    s.SameRequest s' ∧ s'.analysis = s.analysis := by
  obtain ⟨analysis, -, h⟩ := Option.bind_eq_some_iff.mp h
  obtain ⟨evidence, -, h⟩ := Option.bind_eq_some_iff.mp h
  cases h
  exact ⟨⟨rfl, rfl, rfl⟩, rfl⟩

theorem presents_buildArtifact {a : MarketAnalysis} (htask : s.taskType ≠ some .deepResearch)
    (ha : s.analysis = some a) (h : buildArtifact u cfg s = some (s', events)) :
    s.SameRequest s' ∧ s'.Presents (.analysis a) := by
  obtain ⟨snapshot, -, h⟩ := Option.bind_eq_some_iff.mp h
  obtain ⟨analysis, hanalysis, h⟩ := Option.bind_eq_some_iff.mp h
  obtain ⟨evidence, -, h⟩ := Option.bind_eq_some_iff.mp h
  obtain ⟨risk, -, h⟩ := Option.bind_eq_some_iff.mp h
  obtain ⟨provenance, -, h⟩ := Option.bind_eq_some_iff.mp h
  cases h
  have hsame : analysis = a := Option.some.inj (hanalysis.symm.trans ha)
  exact ⟨⟨rfl, rfl, rfl⟩, htask, ha, _, rfl, rfl, hsame⟩

/-- A pause shows the content of the state under the number of the next review. -/
theorem reviewPayload_shown {c : Shown} {payload : ReviewPayload} (hc : s.Presents c)
    (h : reviewPayload u s = some payload) :
    payload.shown = c ∧ payload.iteration = s.reviewIteration + 1 := by
  cases c with
  | analysis a =>
      obtain ⟨htask, -, draft, hartifact, -, rfl⟩ := hc
      simp only [reviewPayload, if_neg htask] at h
      obtain ⟨artifact, hread, h⟩ := Option.bind_eq_some_iff.mp h
      have hsame : artifact = draft := Option.some.inj (hread.symm.trans hartifact)
      split_ifs at h
      cases h
      exact ⟨congrArg (fun d : Artifact => Shown.analysis d.analysis) hsame, rfl⟩
  | research a =>
      obtain ⟨htask, hartifact, -⟩ := hc
      simp only [reviewPayload, if_pos htask] at h
      obtain ⟨raw, -, h⟩ := Option.bind_eq_some_iff.mp h
      obtain ⟨request, -, h⟩ := Option.bind_eq_some_iff.mp h
      obtain ⟨horizon, -, h⟩ := Option.bind_eq_some_iff.mp h
      obtain ⟨artifact, hread, h⟩ := Option.bind_eq_some_iff.mp h
      have hsame : artifact = a := Option.some.inj (hread.symm.trans hartifact)
      split_ifs at h
      cases h
      exact ⟨congrArg Shown.research hsame, rfl⟩

/-- What `apply_edits` leaves for the next review. -/
theorem revised_applyEdits {c : Shown} {response : ReviewResponse} (hc : s.Presents c)
    (hedits : s.reviewEdits = response.edits) (h : applyEdits s = some (s', events)) :
    s.SameRequest s' ∧ ∃ c', c.revised response = some c' ∧
      ((∃ a, c' = .analysis a ∧ s'.taskType ≠ some .deepResearch ∧ s'.analysis = some a) ∨
        ((∃ a, c' = .research a) ∧ s'.taskType = some .deepResearch ∧ s'.Presents c')) := by
  cases c with
  | analysis a =>
      obtain ⟨htask, ha, -⟩ := hc
      simp only [applyEdits, if_neg htask, hedits] at h
      split at h
      · rename_i edits hedit
        obtain ⟨current, hcurrent, h⟩ := Option.bind_eq_some_iff.mp h
        obtain ⟨edited, hedited, h⟩ := Option.bind_eq_some_iff.mp h
        cases h
        have hsame : current = a := Option.some.inj (hcurrent.symm.trans ha)
        rw [hsame] at hedited
        refine ⟨⟨rfl, rfl, rfl⟩, .analysis edited, ?_, .inl ⟨edited, rfl, htask, rfl⟩⟩
        simp only [Shown.revised, hedit, hedited, Option.map_some]
      · cases h
  | research a =>
      obtain ⟨htask, ha, -⟩ := hc
      simp only [applyEdits, if_pos htask, hedits] at h
      split at h
      · rename_i report hedit
        obtain ⟨current, hcurrent, h⟩ := Option.bind_eq_some_iff.mp h
        obtain ⟨edited, hedited, h⟩ := Option.bind_eq_some_iff.mp h
        cases h
        have hsame : current = a := Option.some.inj (hcurrent.symm.trans ha)
        rw [hsame] at hedited
        have hval := DeepResearchArtifact.of?_val hedited
        refine ⟨⟨rfl, rfl, rfl⟩, .research edited, ?_,
          .inr ⟨⟨edited, rfl⟩, htask, htask, rfl, by rw [hval]⟩⟩
        simp only [Shown.revised, hedit, hedited, Option.map_some]
      · cases h

theorem committed_commitArtifact {c : Shown} (hc : s.Presents c)
    (h : commitArtifact s = some (s', events)) : s'.Committed c := by
  cases c with
  | analysis a =>
      obtain ⟨htask, -, draft, hartifact, -, hanalysis⟩ := hc
      simp only [commitArtifact, if_neg htask] at h
      obtain ⟨current, hcurrent, h⟩ := Option.bind_eq_some_iff.mp h
      cases h
      have hsame : current = draft := Option.some.inj (hcurrent.symm.trans hartifact)
      exact ⟨htask, _, rfl, rfl, by rw [hsame]; exact hanalysis⟩
  | research a =>
      obtain ⟨htask, ha, -⟩ := hc
      simp only [commitArtifact, if_pos htask] at h
      obtain ⟨current, hcurrent, h⟩ := Option.bind_eq_some_iff.mp h
      obtain ⟨artifact, hartifact, h⟩ := Option.bind_eq_some_iff.mp h
      cases h
      have hsame : current = a := Option.some.inj (hcurrent.symm.trans ha)
      unfold commitDeepResearchArtifact at hartifact
      split_ifs at hartifact
      have hval := DeepResearchArtifact.of?_val hartifact
      exact ⟨htask, artifact, rfl, by rw [hval, hsame]⟩

/-- `complete_blocked` leaves the draft a draft of the same content. -/
theorem presents_completeBlocked {c : Shown} (hc : s.Presents c)
    (h : completeBlocked s = some (s', events)) :
    s'.Presents c ∧ s'.terminalStatus = some .blocked := by
  cases c with
  | analysis a =>
      obtain ⟨htask, ha, draft, hartifact, hdraft, hanalysis⟩ := hc
      unfold completeBlocked at h
      dsimp only at h
      split at h
      · rename_i hdeep _
        exact absurd hdeep htask
      · rw [hartifact] at h
        dsimp only at h
        split_ifs at h
        · cases h
          exact ⟨⟨htask, ha, _, rfl, rfl, hanalysis⟩, rfl⟩
        · cases h
          exact ⟨⟨htask, ha, draft, rfl, hdraft, hanalysis⟩, rfl⟩
  | research a =>
      obtain ⟨htask, ha, hdraft⟩ := hc
      unfold completeBlocked at h
      dsimp only at h
      rw [htask, ha] at h
      obtain ⟨artifact, hartifact, h⟩ := Option.bind_eq_some_iff.mp h
      cases h
      have hval := DeepResearchArtifact.of?_val hartifact
      have hsame : artifact = a := Subtype.ext (by rw [hval, ← hdraft])
      exact ⟨⟨rfl, congrArg some hsame, hdraft⟩, rfl⟩

end Nodes

section Runs

variable {u : Text.UnicodeData} {cfg : GraphConfig} {ext : Externals} {input : RunInput}
  {r r' : GraphRun}

/-- The first review edits what it was shown, and the second is shown the result. -/
def Linked (x y : ReviewPayload × ReviewResponse) : Prop :=
  x.2.action = .edit ∧ x.1.shown.revised x.2 = some y.1.shown

/-- The reviews of a run from its first one on. -/
structure ReviewHistory (ext : Externals) (reviews : List (ReviewPayload × ReviewResponse)) :
    Prop where
  numbered : ∀ (i : ℕ) x, reviews[i]? = some x → x.1.iteration = i + 1
  original : ∀ x, reviews.head? = some x → x.1.shown.Original ext
  linked : reviews.IsChain Linked

/-- The content is what is to be shown after these reviews. -/
def NextShown (ext : Externals) (reviews : List (ReviewPayload × ReviewResponse)) (c : Shown) :
    Prop :=
  match reviews.getLast? with
  | none => c.Original ext
  | some x => x.2.action = .edit ∧ x.1.shown.revised x.2 = some c

theorem ReviewHistory.append {reviews : List (ReviewPayload × ReviewResponse)}
    {payload : ReviewPayload} (h : ReviewHistory ext reviews)
    (hnext : NextShown ext reviews payload.shown)
    (hnumber : payload.iteration = reviews.length + 1) (response : ReviewResponse) :
    ReviewHistory ext (reviews ++ [(payload, response)]) where
  numbered := by
    intro i x hx
    rcases lt_or_ge i reviews.length with hlt | hge
    · rw [List.getElem?_append_left hlt] at hx
      exact h.numbered i x hx
    · rw [List.getElem?_append_right hge, List.getElem?_singleton] at hx
      split_ifs at hx with hi
      cases hx
      have hlength : i = reviews.length := by omega
      rw [hnumber, hlength]
  original := by
    intro x hx
    cases hreviews : reviews with
    | nil =>
        rw [hreviews] at hx hnext
        cases hx
        exact hnext
    | cons y ys =>
        rw [hreviews] at hx
        exact h.original x (by rw [hreviews]; exact hx)
  linked := by
    refine List.isChain_append.mpr ⟨h.linked, List.isChain_singleton _, ?_⟩
    intro x hx y hy
    cases hy
    rw [NextShown, hx] at hnext
    exact hnext

variable (cfg ext input r) in
/-- The content that the state of the run holds is to be shown next. -/
structure Reviewable (c : Shown) : Prop where
  policy : r.state.reviewPolicy = some .required ↔ reviewRequired cfg input
  counted : r.state.reviewIteration = r.reviews.length
  next : NextShown ext r.reviews c
  reviewed : r.reviews ≠ [] → reviewRequired cfg input

variable (cfg ext input r) in
/-- The content is approved by the last review, or was never to be reviewed. -/
structure AgreedOn (c : Shown) : Prop where
  approved : reviewRequired cfg input → ∃ earlier x, r.reviews = earlier ++ [x] ∧
    x.2.action = .approve ∧ x.1.shown = c
  bypassed : ¬ reviewRequired cfg input → r.reviews = [] ∧ c.Original ext

variable (cfg ext input r) in
/-- What holds at the end of a run, by its terminal status. -/
def EndsAsReviewed : Prop :=
  (r.state.terminalStatus = some .succeeded ∧
    ∃ c, r.state.Committed c ∧ AgreedOn cfg ext input r c) ∨
  (r.state.terminalStatus = some .blocked ∧ ∃ c, r.state.Presents c) ∨
  (r.state.terminalStatus = some .failed ∧ r.reviews = [])

variable (cfg ext input r) in
/-- What holds of the reviews at each position of a run. -/
def Standing : Prop :=
  match r.position with
  | .node .validateRequest => r.state.reviewPolicy = some input.reviewPolicy ∧ r.reviews = []
  | .node .runDeepResearch =>
      Validated cfg input r.state ∧ r.reviews = [] ∧ r.state.taskType = some .deepResearch
  | .node .collectMarketSnapshot | .node .researchEvents | .node .analyzeMarket =>
      Validated cfg input r.state ∧ r.reviews = [] ∧ r.state.taskType ≠ some .deepResearch
  | .node .validateEvidence | .node .applyRiskPolicy | .node .buildArtifact =>
      ∃ a, r.state.taskType ≠ some .deepResearch ∧ r.state.analysis = some a ∧
        Reviewable cfg ext input r (.analysis a)
  | .node .reviewPolicy => ∃ c, r.state.Presents c ∧ Reviewable cfg ext input r c
  | .node .interruptReview =>
      ∃ c, r.state.Presents c ∧ Reviewable cfg ext input r c ∧ reviewRequired cfg input
  | .paused payload =>
      r.state.Presents payload.shown ∧ Reviewable cfg ext input r payload.shown ∧
        reviewRequired cfg input ∧ payload.iteration = r.reviews.length + 1
  | .node .applyEdits =>
      ∃ earlier payload response, r.reviews = earlier ++ [(payload, response)] ∧
        r.state.Presents payload.shown ∧ r.state.reviewEdits = response.edits ∧
        response.action = .edit ∧ r.state.reviewIteration = r.reviews.length ∧
        (r.state.reviewPolicy = some .required ↔ reviewRequired cfg input) ∧
        reviewRequired cfg input
  | .node .commitArtifact => ∃ c, r.state.Presents c ∧ AgreedOn cfg ext input r c
  | .node .complete => ∃ c, r.state.Committed c ∧ AgreedOn cfg ext input r c
  | .node .completeBlocked => ∃ c, r.state.Presents c
  | .node .completeFailed => r.reviews = []
  | .ended => EndsAsReviewed cfg ext input r
  | .raised => True

theorem Validated.reviewable {c : Shown} (h : Validated cfg input r.state) (hnone : r.reviews = [])
    (hc : c.Original ext) : Reviewable cfg ext input r c where
  policy := h.policy
  counted := by rw [h.fresh, hnone]; rfl
  next := by rw [hnone]; exact hc
  reviewed := fun hsome => absurd hnone hsome

theorem Reviewable.of_same {c : Shown} (h : Reviewable cfg ext input r c)
    (hsame : r.state.SameRequest r'.state) (hreviews : r'.reviews = r.reviews) :
    Reviewable cfg ext input r' c where
  policy := by rw [hsame.policy]; exact h.policy
  counted := by rw [hsame.iteration, hreviews]; exact h.counted
  next := by rw [hreviews]; exact h.next
  reviewed := by rw [hreviews]; exact h.reviewed

theorem AgreedOn.of_reviews {c : Shown} (h : AgreedOn cfg ext input r c)
    (hreviews : r'.reviews = r.reviews) : AgreedOn cfg ext input r' c where
  approved := by rw [hreviews]; exact h.approved
  bypassed := by rw [hreviews]; exact h.bypassed

/-- A run whose node has failed ends without a review, and any other goes on to `next`. -/
theorem standing_afterExternalCall {next : Node} (hnone : r'.reviews = [])
    (hposition : r'.position = .node (afterExternalCall r'.state next))
    (hnext : r'.state.terminalStatus ≠ some .failed → r'.position = .node next →
      Standing cfg ext input r') : Standing cfg ext input r' := by
  by_cases hfailed : r'.state.terminalStatus = some .failed
  · rw [afterExternalCall, if_pos hfailed] at hposition
    simp only [Standing, hposition]
    exact hnone
  · rw [afterExternalCall, if_neg hfailed] at hposition
    exact hnext hfailed hposition

/-- A node that runs by itself keeps what holds of the reviews. -/
theorem standing_node {n : Node} {s : AnalysisState} {events : List ProductEvent}
    (hr : Standing cfg ext input r) (hp : r.position = .node n)
    (hrun : runNode u cfg ext n r.state = some (s, events)) (hposition : r'.position = edge n s)
    (hstate : r'.state = s) (hreviews : r'.reviews = r.reviews) : Standing cfg ext input r' := by
  subst hstate
  cases n with
  | validateRequest =>
      simp only [Standing, hp] at hr
      obtain ⟨hpolicy, hnone⟩ := hr
      obtain ⟨hvalid, hrunning⟩ := validated_validateRequest hpolicy hrun
      have hnot : r'.state.terminalStatus ≠ some .failed := by rw [hrunning]; decide
      simp only [edge, afterRequestValidation, if_neg hnot] at hposition
      split_ifs at hposition with htask
      · simp only [Standing, hposition]
        exact ⟨hvalid, hreviews.trans hnone, htask⟩
      · simp only [Standing, hposition]
        exact ⟨hvalid, hreviews.trans hnone, htask⟩
  | runDeepResearch =>
      simp only [Standing, hp] at hr
      obtain ⟨hvalid, hnone, hdeep⟩ := hr
      obtain ⟨hsame, hresult⟩ := presents_runDeepResearch hdeep hrun
      apply standing_afterExternalCall (hreviews.trans hnone) hposition
      intro hnot hat
      obtain ⟨c, hc, horiginal⟩ := hresult.resolve_left hnot
      simp only [Standing, hat]
      exact ⟨c, hc, (hvalid.of_same hsame).reviewable (hreviews.trans hnone) horiginal⟩
  | collectMarketSnapshot =>
      simp only [Standing, hp] at hr
      obtain ⟨hvalid, hnone, htask⟩ := hr
      have hsame := sameRequest_collectMarketSnapshot hrun
      apply standing_afterExternalCall (hreviews.trans hnone) hposition
      intro hnot hat
      simp only [Standing, hat]
      exact ⟨hvalid.of_same hsame, hreviews.trans hnone, by rw [hsame.taskType]; exact htask⟩
  | researchEvents =>
      simp only [Standing, hp] at hr
      obtain ⟨hvalid, hnone, htask⟩ := hr
      have hsame := sameRequest_researchEvents hrun
      apply standing_afterExternalCall (hreviews.trans hnone) hposition
      intro hnot hat
      simp only [Standing, hat]
      exact ⟨hvalid.of_same hsame, hreviews.trans hnone, by rw [hsame.taskType]; exact htask⟩
  | analyzeMarket =>
      simp only [Standing, hp] at hr
      obtain ⟨hvalid, hnone, htask⟩ := hr
      obtain ⟨hsame, hresult⟩ := original_analyzeMarket hrun
      apply standing_afterExternalCall (hreviews.trans hnone) hposition
      intro hnot hat
      obtain ⟨a, ha, horiginal⟩ := hresult.resolve_left hnot
      simp only [Standing, hat]
      exact ⟨a, by rw [hsame.taskType]; exact htask, ha,
        (hvalid.of_same hsame).reviewable (hreviews.trans hnone) horiginal⟩
  | validateEvidence =>
      simp only [Standing, hp] at hr
      obtain ⟨a, htask, ha, hreview⟩ := hr
      obtain ⟨hsame, hanalysis⟩ := kept_validateEvidence hrun
      simp only [Standing, hposition, edge]
      exact ⟨a, by rw [hsame.taskType]; exact htask, hanalysis.trans ha,
        hreview.of_same hsame hreviews⟩
  | applyRiskPolicy =>
      simp only [Standing, hp] at hr
      obtain ⟨a, htask, ha, hreview⟩ := hr
      obtain ⟨hsame, hanalysis⟩ := kept_applyRisk hrun
      simp only [Standing, hposition, edge]
      exact ⟨a, by rw [hsame.taskType]; exact htask, hanalysis.trans ha,
        hreview.of_same hsame hreviews⟩
  | buildArtifact =>
      simp only [Standing, hp] at hr
      obtain ⟨a, htask, ha, hreview⟩ := hr
      obtain ⟨hsame, hpresents⟩ := presents_buildArtifact htask ha hrun
      simp only [Standing, hposition, edge]
      exact ⟨.analysis a, hpresents, hreview.of_same hsame hreviews⟩
  | reviewPolicy =>
      simp only [Standing, hp] at hr
      obtain ⟨c, hc, hreview⟩ := hr
      obtain ⟨hsame, -⟩ := Prod.ext_iff.mp (Option.some.inj hrun)
      replace hsame : r.state = r'.state := hsame
      have hkept : Reviewable cfg ext input r' c :=
        hreview.of_same (by rw [hsame]; exact ⟨rfl, rfl, rfl⟩) hreviews
      rw [hsame] at hc
      simp only [edge, afterReviewPolicy] at hposition
      split_ifs at hposition with hrequired hblocked
      · simp only [Standing, hposition]
        exact ⟨c, hc, hkept, hkept.policy.mp hrequired⟩
      · simp only [Standing, hposition]
        exact ⟨c, hc⟩
      · simp only [Standing, hposition]
        have hnot : ¬ reviewRequired cfg input := fun h => hrequired (hkept.policy.mpr h)
        have hnone : r'.reviews = [] := by
          by_contra hsome
          exact hnot (hkept.reviewed hsome)
        have horiginal := hkept.next
        rw [hnone] at horiginal
        exact ⟨c, hc, fun h => absurd h hnot, fun _ => ⟨hnone, horiginal⟩⟩
  | interruptReview => cases hrun
  | applyEdits =>
      simp only [Standing, hp] at hr
      obtain ⟨earlier, payload, response, hlast, hc, hedits, haction, hcounted, hpolicy,
        hrequired⟩ := hr
      obtain ⟨hsame, c, hrevised, hleft⟩ := revised_applyEdits hc hedits hrun
      have hnext : NextShown ext r'.reviews c := by
        rw [hreviews, hlast, NextShown, List.getLast?_concat]
        exact ⟨haction, hrevised⟩
      have hreview : Reviewable cfg ext input r' c :=
        ⟨by rw [hsame.policy]; exact hpolicy, by rw [hsame.iteration, hreviews]; exact hcounted,
          hnext, fun _ => hrequired⟩
      rcases hleft with ⟨a, rfl, htask, ha⟩ | ⟨-, htask, hpresents⟩
      · simp only [edge, afterEdits, if_neg htask] at hposition
        simp only [Standing, hposition]
        exact ⟨a, htask, ha, hreview⟩
      · simp only [edge, afterEdits, if_pos htask] at hposition
        simp only [Standing, hposition]
        exact ⟨c, hpresents, hreview⟩
  | commitArtifact =>
      simp only [Standing, hp] at hr
      obtain ⟨c, hc, hagreed⟩ := hr
      simp only [Standing, hposition, edge]
      exact ⟨c, committed_commitArtifact hc hrun, hagreed.of_reviews hreviews⟩
  | complete =>
      simp only [Standing, hp] at hr
      obtain ⟨c, hc, hagreed⟩ := hr
      obtain ⟨hstate, -⟩ := Prod.ext_iff.mp (Option.some.inj hrun)
      replace hstate : { r.state with terminalStatus := some .succeeded } = r'.state := hstate
      simp only [Standing, hposition, edge]
      refine .inl ⟨by rw [← hstate], c, ?_, hagreed.of_reviews hreviews⟩
      rw [← hstate]
      cases c <;> exact hc
  | completeBlocked =>
      simp only [Standing, hp] at hr
      obtain ⟨c, hc⟩ := hr
      obtain ⟨hpresents, hblocked⟩ := presents_completeBlocked hc hrun
      simp only [Standing, hposition, edge]
      exact .inr (.inl ⟨hblocked, c, hpresents⟩)
  | completeFailed =>
      simp only [Standing, hp] at hr
      obtain ⟨hstate, -⟩ := Prod.ext_iff.mp (Option.some.inj hrun)
      replace hstate : { r.state with terminalStatus := some .failed } = r'.state := hstate
      simp only [Standing, hposition, edge]
      exact .inr (.inr ⟨by rw [← hstate], hreviews.trans hr⟩)

/-- A review that is handled takes its place behind the earlier ones. -/
theorem standing_respond {payload : ReviewPayload} {response : ReviewResponse}
    (hr : Standing cfg ext input r) (hp : r.position = .paused payload)
    (hstate : r'.state = (resumeReview response r.state).1)
    (hposition : r'.position = edge .interruptReview r'.state)
    (hreviews : r'.reviews = r.reviews ++ [(payload, response)]) : Standing cfg ext input r' := by
  simp only [Standing, hp] at hr
  obtain ⟨hc, hreview, hrequired, -⟩ := hr
  have hpresents : r'.state.Presents payload.shown := by
    rw [hstate]
    revert hc
    cases payload.shown <;> exact id
  have haction : r'.state.reviewAction = some response.action := by rw [hstate]; rfl
  have hedits : r'.state.reviewEdits = response.edits := by rw [hstate]; rfl
  have hcounted : r'.state.reviewIteration = r'.reviews.length := by
    rw [hstate, hreviews, List.length_append]
    exact congrArg (· + 1) hreview.counted
  have hpolicy : r'.state.reviewPolicy = some .required ↔ reviewRequired cfg input := by
    rw [hstate]
    exact hreview.policy
  simp only [edge, afterReview, haction] at hposition
  cases hresponse : response.action with
  | edit =>
      simp only [hresponse] at hposition
      simp only [Standing, hposition]
      exact ⟨r.reviews, payload, response, hreviews, hpresents, hedits, hresponse, hcounted,
        hpolicy, hrequired⟩
  | reject =>
      simp only [hresponse] at hposition
      simp only [Standing, hposition]
      exact ⟨_, hpresents⟩
  | approve =>
      simp only [hresponse] at hposition
      split_ifs at hposition with hblocked
      · simp only [Standing, hposition]
        exact ⟨_, hpresents⟩
      · simp only [Standing, hposition]
        exact ⟨_, hpresents, fun _ => ⟨r.reviews, _, hreviews, hresponse, rfl⟩,
          fun h => absurd hrequired h⟩

theorem standing_step {l : GraphLabel} (hr : Standing cfg ext input r)
    (h : r.step u cfg ext l = some r') : Standing cfg ext input r' := by
  rcases GraphRun.step_cases h with hraised | ⟨n, s, events, hp, -, hrun, hposition, hstate,
    hreviews⟩ | ⟨payload, hp, hpayload, hposition, hstate, hreviews⟩ |
    ⟨payload, response, hp, -, hstate, hposition, hreviews⟩
  · simp only [Standing, hraised]
  · exact standing_node hr hp hrun hposition hstate hreviews
  · simp only [Standing, hp] at hr
    obtain ⟨c, hc, hreview, hrequired⟩ := hr
    obtain ⟨rfl, hnumber⟩ := reviewPayload_shown hc hpayload
    simp only [Standing, hposition]
    refine ⟨by rw [hstate]; exact hc, hreview.of_same (by rw [hstate]; exact ⟨rfl, rfl, rfl⟩)
      hreviews, hrequired, ?_⟩
    rw [hnumber, hreview.counted, hreviews]
  · exact standing_respond hr hp hstate hposition hreviews

/-- Only an answer to a pause adds to the reviews, also where the run then raises. -/
theorem GraphRun.step_reviews {l : GraphLabel} (h : r.step u cfg ext l = some r') :
    r'.reviews = r.reviews ∨ ∃ payload response, r.position = .paused payload ∧
      r'.reviews = r.reviews ++ [(payload, response)] := by
  have hfinish (r : GraphRun) (n : Node) (result : NodeResult) :
      (r.finish cfg n result).reviews = r.reviews := by
    rcases GraphRun.finish_cases cfg r n result with hf | ⟨s, events, emitted, -, -, hf⟩
    · rw [hf]
      rfl
    · rw [hf]
  cases l with
  | advance =>
      left
      simp only [GraphRun.step, GraphRun.advance] at h
      split at h
      · cases h
        unfold GraphRun.pause
        split <;> rfl
      · cases h
        exact hfinish r _ _
      · cases h
  | respond response =>
      simp only [GraphRun.step, GraphRun.respond] at h
      split at h
      · rename_i payload hp
        split_ifs at h with hvalid
        · cases h
          exact .inr ⟨payload, response, hp, hfinish _ _ _⟩
        · cases h
          exact .inl rfl
      · cases h

theorem history_step {l : GraphLabel} (hr : Standing cfg ext input r)
    (hh : ReviewHistory ext r.reviews) (h : r.step u cfg ext l = some r') :
    ReviewHistory ext r'.reviews := by
  rcases GraphRun.step_reviews h with hsame | ⟨payload, response, hp, happended⟩
  · rw [hsame]
    exact hh
  · simp only [Standing, hp] at hr
    obtain ⟨-, hreview, -, hnumber⟩ := hr
    rw [happended]
    exact hh.append hreview.next hnumber response

variable {s : AnalysisState}

theorem standing_of_reaches
    (h : Reaches (GraphRun.step u cfg ext) anyStep (GraphRun.start input s) r) :
    Standing cfg ext input r ∧ ReviewHistory ext r.reviews := by
  refine h.invariant (I := fun r => Standing cfg ext input r ∧ ReviewHistory ext r.reviews) ?_ ?_
  · rintro r l r' - ⟨hr, hh⟩ hstep
    exact ⟨standing_step hr hstep, history_step hr hh hstep⟩
  · have hnone : ReviewHistory ext (GraphRun.start input s).reviews :=
      ⟨fun i x hx => absurd hx (by simp [GraphRun.start]),
        fun x hx => absurd hx (by simp [GraphRun.start]), List.isChain_nil⟩
    exact ⟨⟨rfl, rfl⟩, hnone⟩

/-- On a thread in any state, the pauses of a run are numbered one by one. The first one shows
the content that the collaborators have returned; each later one shows what the edit that
answered the one before makes of the content shown there; and every answer but the last is an
edit. -/
theorem reviews_chained
    (h : Reaches (GraphRun.step u cfg ext) anyStep (GraphRun.start input s) r) :
    (∀ (i : ℕ) payload response, r.reviews[i]? = some (payload, response) →
      payload.iteration = i + 1 ∧ (i = 0 → payload.shown.Original ext) ∧
      ∀ payload' response', r.reviews[i + 1]? = some (payload', response') →
        response.action = .edit ∧ payload.shown.revised response = some payload'.shown) ∧
    ∀ payload, r.position = .paused payload →
      payload.iteration = r.reviews.length + 1 ∧
      (r.reviews = [] → payload.shown.Original ext) ∧
      ∀ earlier payload' response', r.reviews = earlier ++ [(payload', response')] →
        response'.action = .edit ∧ payload'.shown.revised response' = some payload.shown := by
  obtain ⟨hr, hh⟩ := standing_of_reaches h
  constructor
  · intro i payload response hi
    refine ⟨hh.numbered i _ hi, ?_, ?_⟩
    · rintro rfl
      exact hh.original _ (by rw [List.head?_eq_getElem?]; exact hi)
    · intro payload' response' hnext
      obtain ⟨hlt, hfirst⟩ := List.getElem?_eq_some_iff.mp hi
      obtain ⟨hlt', hsecond⟩ := List.getElem?_eq_some_iff.mp hnext
      have hlink := hh.linked.getElem i hlt'
      rw [hfirst, hsecond] at hlink
      exact hlink
  · intro payload hp
    simp only [Standing, hp] at hr
    obtain ⟨-, hreview, -, hnumber⟩ := hr
    have hnext := hreview.next
    refine ⟨hnumber, ?_, ?_⟩
    · intro hnone
      rw [hnone] at hnext
      exact hnext
    · intro earlier payload' response' hlast
      rw [hlast, NextShown, List.getLast?_concat] at hnext
      exact hnext

/-- A run that has ended has committed what its last review approved as it was shown, or what
the collaborators returned if nothing was to be reviewed; or it is blocked and its artifact
still a draft; or it failed before any review. -/
theorem ends_as_reviewed
    (h : Reaches (GraphRun.step u cfg ext) anyStep (GraphRun.start input s) r)
    (hended : r.position = .ended) : EndsAsReviewed cfg ext input r := by
  obtain ⟨hr, -⟩ := standing_of_reaches h
  simp only [Standing, hended] at hr
  exact hr

end Runs

section Length

variable {u : Text.UnicodeData} {cfg : GraphConfig} {ext : Externals} {r r' : GraphRun}

def GraphLabel.isAdvance : GraphLabel → Bool
  | advance => true
  | respond _ => false

/-- An answer leads to one of the nodes before the next pause. -/
theorem rank_respond_le {response : ReviewResponse}
    (h : r.step u cfg ext (.respond response) = some r') :
    r'.position.rank ≤ Node.rank .applyEdits := by
  rcases GraphRun.step_cases h with hraised | ⟨n, s, events, hp, -⟩ | ⟨payload, hp, -⟩ |
    ⟨payload, response, -, -, -, hposition, -⟩
  · rw [hraised]
    exact Nat.zero_le _
  · simp [GraphRun.step, GraphRun.respond, hp] at h
  · simp [GraphRun.step, GraphRun.respond, hp] at h
  · rw [hposition]
    simp only [edge, afterReview]
    split
    · exact le_rfl
    · decide
    · split_ifs <;> decide
    · decide

theorem executions_le (ls : List GraphLabel)
    (h : runLabels (GraphRun.step u cfg ext) r ls = some r') :
    ls.countP GraphLabel.isAdvance + r'.position.rank ≤
      r.position.rank + Node.rank .applyEdits * ls.countP (fun l => !l.isAdvance) := by
  induction ls generalizing r with
  | nil =>
      rw [runLabels, Option.some.injEq] at h
      simp [h]
  | cons l ls ih =>
      obtain ⟨t, ht, hrest⟩ := Option.bind_eq_some_iff.mp h
      have hle := ih hrest
      cases l with
      | advance =>
          have hadvance : r.advance u cfg ext = some t := ht
          have hlt := rank_advance_lt hadvance
          simp only [List.countP_cons, GraphLabel.isAdvance, Bool.not_true, if_true] at hle ⊢
          simp only [Bool.false_eq_true, if_false, Nat.add_zero]
          omega
      | respond response =>
          have hrank := rank_respond_le ht
          simp only [List.countP_cons, GraphLabel.isAdvance, Bool.not_false, if_true,
            Bool.false_eq_true, if_false, Nat.add_zero, Nat.mul_add, Nat.mul_one] at hle ⊢
          omega

/-- A run goes on by itself for a bounded number of nodes after its start and after each of the
answers it gets, whatever the collaborators return. -/
theorem executions_bounded (input : RunInput) (s : AnalysisState) (ls : List GraphLabel)
    (h : runLabels (GraphRun.step u cfg ext) (GraphRun.start input s) ls = some r) :
    ls.countP GraphLabel.isAdvance ≤ 15 + 11 * ls.countP (fun l => !l.isAdvance) := by
  have hle := executions_le ls h
  have hstart : (GraphRun.start input s).position.rank = 15 := rfl
  have hedits : Node.rank .applyEdits = 11 := rfl
  rw [hstart, hedits] at hle
  omega

end Length

section QuietEdit

/-- An edit of the total score alone. -/
def rescored : ReviewResponse :=
  ⟨.edit, some (.artifact ⟨{ ArtifactEdit.unchanged with totalScore := some (some 1) }, by decide⟩),
    none, by decide⟩

def rescoredRun : List GraphLabel :=
  List.replicate 9 .advance ++ [.respond rescored] ++ List.replicate 6 .advance

/-- The quiet market is shown again with the edited score, as the second review. -/
theorem reviews_chained_rescored :
    ∃ r first payload, Reaches (GraphRun.step .ascii quietConfig
        (quietExternals ⟨"4h", by decide⟩)) anyStep (GraphRun.start quietInput .fresh) r ∧
      r.reviews = [(first, rescored)] ∧ r.position = .paused payload ∧ payload.iteration = 2 ∧
      first.shown.revised rescored = some payload.shown := by
  have hany : (runLabels (GraphRun.step .ascii quietConfig (quietExternals ⟨"4h", by decide⟩))
      (GraphRun.start quietInput .fresh) rescoredRun).any (fun r =>
        r.position.rank = 0 ∧ r.position ≠ .ended ∧ r.position ≠ .raised ∧
          r.reviews.map Prod.snd = [rescored]) = true := by
    decide +kernel
  obtain ⟨r, hlabels, hdone⟩ := (Option.any_eq_true _ _).mp hany
  obtain ⟨hrank, hnotEnded, hnotRaised, hreviews⟩ := of_decide_eq_true hdone
  have hrun := reaches_of_runLabels rescoredRun hlabels
  obtain ⟨⟨first, response⟩, hfirst, hresponse⟩ : ∃ x, r.reviews = [x] ∧ x.2 = rescored := by
    cases hr : r.reviews with
    | nil => rw [hr] at hreviews; cases hreviews
    | cons x xs =>
        rw [hr, List.map_cons, List.cons.injEq, List.map_eq_nil_iff] at hreviews
        exact ⟨x, by rw [hreviews.2], hreviews.1⟩
  cases hresponse
  cases hp : r.position with
  | node n => cases n <;> (rw [hp] at hrank; cases hrank)
  | ended => exact absurd hp hnotEnded
  | raised => exact absurd hp hnotRaised
  | paused payload =>
      obtain ⟨hnumber, -, hchain⟩ := (reviews_chained hrun).2 payload hp
      rw [hfirst] at hnumber
      exact ⟨r, first, payload, hrun, hfirst, hp, hnumber, (hchain [] first rescored hfirst).2⟩

theorem approvedRun_succeeds :
    ∃ r, runLabels (GraphRun.step .ascii quietConfig (quietExternals ⟨"4h", by decide⟩))
        (GraphRun.start quietInput .fresh) approvedRun = some r ∧
      r.position = .ended ∧ r.state.terminalStatus = some .succeeded := by
  have hany : (runLabels (GraphRun.step .ascii quietConfig (quietExternals ⟨"4h", by decide⟩))
      (GraphRun.start quietInput .fresh) approvedRun).any (fun r =>
        r.position = .ended ∧ r.state.terminalStatus = some .succeeded) = true := by
    decide +kernel
  obtain ⟨r, hlabels, hdone⟩ := (Option.any_eq_true _ _).mp hany
  exact ⟨r, hlabels, of_decide_eq_true hdone⟩

/-- The approved run of the quiet market. -/
theorem ends_as_reviewed_approved :
    ∃ r, Reaches (GraphRun.step .ascii quietConfig (quietExternals ⟨"4h", by decide⟩)) anyStep
        (GraphRun.start quietInput .fresh) r ∧ r.state.terminalStatus = some .succeeded ∧
      EndsAsReviewed quietConfig (quietExternals ⟨"4h", by decide⟩) quietInput r := by
  obtain ⟨r, hlabels, hended, hsucceeded⟩ := approvedRun_succeeds
  have hrun := reaches_of_runLabels approvedRun hlabels
  exact ⟨r, hrun, hsucceeded, ends_as_reviewed hrun hended⟩

/-- The approved run takes eleven nodes for one answer. -/
theorem executions_bounded_approved :
    approvedRun.countP GraphLabel.isAdvance ≤
      15 + 11 * approvedRun.countP (fun l => !l.isAdvance) := by
  obtain ⟨r, hlabels, -⟩ := approvedRun_succeeds
  exact executions_bounded quietInput .fresh approvedRun hlabels

end QuietEdit

end CryptoAlert
