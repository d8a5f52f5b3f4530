import CryptoAlert.Improvement.CandidateSafety

/-!
# The safety of releases

What holds of one candidate under every operation holds of all candidates in every run. The
experiment on which the receipts of a candidate rest is the one whose gate admitted the review,
unless that experiment shares its `created_at` with another one.
-/

namespace CryptoAlert

namespace ReleaseState

open Improvement

variable {s s' : ReleaseState} {label : ReleaseLabel} {f f' : Improvement}

theorem mem_of_findScoped {ownerId candidateId : ℕ} (h : s.findScoped ownerId candidateId = some f) :
    f ∈ s.improvements ∧ f.candidate.id = candidateId := by
  have hfound := List.find?_some h
  rw [Bool.and_eq_true, beq_iff_eq, beq_iff_eq] at hfound
  exact ⟨List.mem_of_find?_eq_some h, hfound.1⟩

/-- A step leaves the candidates alone, adds a draft, or writes one of them. -/
inductive Stepped (s : ReleaseState) (label : ReleaseLabel) (s' : ReleaseState) : Prop where
  | kept (h : s'.improvements = s.improvements)
  | created (candidate : ImprovementCandidate) (draft : candidate.status = .draft)
      (fresh : ∀ f ∈ s.improvements, f.candidate.id ≠ candidate.id)
      (h : s'.improvements = s.improvements ++ [{ candidate := candidate }])
  | written (f f' : Improvement) (mem : f ∈ s.improvements) (write : f.Written label f')
      (h : s'.improvements = Table.put key s.improvements f')

theorem stepped_createCandidate {candidate : ImprovementCandidate}
    (h : s.createCandidate candidate = some s') : Stepped s (.createCandidate candidate) s' := by
  rw [createCandidate] at h
  cases hexisting : (s.owned candidate.ownerId).find? fun f =>
      f.candidate.idempotencyKey == candidate.idempotencyKey with
  | some f =>
      simp only [hexisting] at h
      split_ifs at h
      cases h
      exact .kept rfl
  | none =>
      simp only [hexisting] at h
      obtain ⟨_, -, h⟩ := Option.bind_eq_some_iff.mp h
      obtain ⟨improvements, hinsert, h⟩ := Option.bind_eq_some_iff.mp h
      cases h
      obtain ⟨rfl, hfresh⟩ := Table.insert_eq_some hinsert
      exact .created _ rfl hfresh rfl

theorem stepped_runExperiment {ownerId candidateId : ℕ} {key promptVersion gitRevision : String}
    {outcome : Option GateOutcome} {id now : ℕ}
    (h : s.runExperiment ownerId candidateId key promptVersion gitRevision outcome id now = some s') :
    Stepped s (.runExperiment ownerId candidateId key promptVersion gitRevision outcome id now)
      s' := by
  obtain ⟨f, hf, h⟩ := Option.bind_eq_some_iff.mp h
  obtain ⟨hmem, -⟩ := mem_of_findScoped hf
  dsimp only at h
  split_ifs at h
  · cases h
    exact .kept rfl
  obtain ⟨_, hfresh, h⟩ := Option.bind_eq_some_iff.mp h
  obtain ⟨gate, rfl, hwrite⟩ := Option.bind_eq_some_iff.mp h
  obtain ⟨f', hf', hwrite⟩ := Option.bind_eq_some_iff.mp hwrite
  cases hwrite
  simp only [Option.guard_eq_some', List.all_eq_true, bne_iff_ne] at hfresh
  refine .written f f' hmem (.experiment _ ?_ (hfresh f hmem) hf') rfl
  cases gate.approved <;> simp

theorem stepped_requestReview {ownerId candidateId : ℕ} {key : String} {admitted : Bool}
    {reviewId : ℕ} (h : s.requestReview ownerId candidateId key admitted reviewId = some s') :
    Stepped s (.requestReview ownerId candidateId key admitted reviewId) s' := by
  obtain ⟨f, hf, h⟩ := Option.bind_eq_some_iff.mp h
  obtain ⟨hmem, rfl⟩ := mem_of_findScoped hf
  obtain ⟨⟨f', r⟩, hf', h⟩ := Option.bind_eq_some_iff.mp h
  refine .written f f' hmem (.review r hf') ?_
  dsimp only at h
  split at h <;> cases h <;> rfl

theorem stepped_reviewStarted {i : ℕ} {receipt : Option OfficialReceipt}
    (h : s.reviewStarted i receipt = some s') : Stepped s (.reviewStarted i receipt) s' := by
  obtain ⟨call, -, h⟩ := Option.bind_eq_some_iff.mp h
  cases call with
  | decide ownerId candidateId decision comment => cases h
  | start ownerId candidateId reviewId =>
      dsimp only at h
      cases hwrite : recordStart { s with calls := s.calls.eraseIdx i } ownerId candidateId reviewId
          receipt with
      | none =>
          rw [hwrite] at h
          cases h
          exact .kept rfl
      | some ended =>
          rw [hwrite] at h
          cases h
          obtain ⟨receipt, rfl, hwrite⟩ := Option.bind_eq_some_iff.mp hwrite
          obtain ⟨f, hf, hwrite⟩ := Option.bind_eq_some_iff.mp hwrite
          obtain ⟨f', hf', hwrite⟩ := Option.bind_eq_some_iff.mp hwrite
          cases hwrite
          exact .written f f' (mem_of_findScoped hf).1 (.start hf') rfl

theorem stepped_reviewDecided {i now : ℕ} {status : Option String}
    (h : s.reviewDecided i status now = some s') : Stepped s (.reviewDecided i status now) s' := by
  obtain ⟨call, -, h⟩ := Option.bind_eq_some_iff.mp h
  cases call with
  | start ownerId candidateId reviewId => cases h
  | decide ownerId candidateId decision comment =>
      dsimp only at h
      cases hwrite : recordDecision { s with calls := s.calls.eraseIdx i } ownerId candidateId
          decision comment status now with
      | none =>
          rw [hwrite] at h
          cases h
          exact .kept rfl
      | some ended =>
          rw [hwrite] at h
          cases h
          obtain ⟨_, -, hwrite⟩ := Option.bind_eq_some_iff.mp hwrite
          obtain ⟨f, hf, hwrite⟩ := Option.bind_eq_some_iff.mp hwrite
          obtain ⟨f', hf', hwrite⟩ := Option.bind_eq_some_iff.mp hwrite
          cases hwrite
          exact .written f f' (mem_of_findScoped hf).1 (.decision hf') rfl

theorem stepped_of_step (h : s.step label = some s') : Stepped s label s' := by
  cases label with
  | createCandidate candidate => exact stepped_createCandidate h
  | runExperiment ownerId candidateId key promptVersion gitRevision outcome id now =>
      exact stepped_runExperiment h
  | requestReview ownerId candidateId key admitted reviewId => exact stepped_requestReview h
  | reviewStarted i receipt => exact stepped_reviewStarted h
  | decideReview ownerId candidateId decision comment =>
      obtain ⟨f, -, h⟩ := Option.bind_eq_some_iff.mp h
      obtain ⟨r, -, h⟩ := Option.bind_eq_some_iff.mp h
      split_ifs at h
      · cases h
        exact .kept rfl
      · obtain ⟨_, -, h⟩ := Option.bind_eq_some_iff.mp h
        cases h
        exact .kept rfl
  | reviewDecided i status now => exact stepped_reviewDecided h
  | runShadow ownerId candidateId key minimumRuns id now choice =>
      obtain ⟨f, hf, h⟩ := Option.bind_eq_some_iff.mp h
      obtain ⟨f', hf', h⟩ := Option.bind_eq_some_iff.mp h
      cases h
      exact .written f f' (mem_of_findScoped hf).1 (.shadow hf') rfl
  | recordRelease ownerId candidateId action reason id now shadowChoice experimentChoice =>
      obtain ⟨f, hf, h⟩ := Option.bind_eq_some_iff.mp h
      obtain ⟨f', hf', h⟩ := Option.bind_eq_some_iff.mp h
      cases h
      exact .written f f' (mem_of_findScoped hf).1 (.release hf') rfl

/-- The invariant of all runs. -/
structure Sound (s : ReleaseState) : Prop where
  nodup : (s.improvements.map key).Nodup
  improvements : ∀ f ∈ s.improvements, f.Sound

theorem Stepped.sound (h : Stepped s label s') (hs : s.Sound) : s'.Sound := by
  cases h with
  | kept h =>
      constructor
      · rw [h]
        exact hs.nodup
      · rw [h]
        exact hs.improvements
  | created candidate draft fresh h =>
      constructor
      · rw [h]
        exact Table.nodup_insert hs.nodup fresh
      · rw [h]
        intro f hf
        obtain hf | hf := List.mem_append.mp hf
        · exact hs.improvements f hf
        · rw [List.mem_singleton.mp hf]
          exact sound_new candidate draft
  | written f f' mem write h =>
      constructor
      · rw [h, Table.map_key_put]
        exact hs.nodup
      · rw [h]
        exact Table.forall_put hs.improvements (write.sound (hs.improvements f mem)).1

theorem sound_of_reaches {ok : ReleaseState → ReleaseLabel → Prop} (h : Reaches step ok init s) :
    s.Sound :=
  h.invariant (fun _ _ _ _ hs hstep => (stepped_of_step hstep).sound hs)
    ⟨List.nodup_nil, fun _ h => absurd h List.not_mem_nil⟩

/-- Every candidate that is there advances. -/
theorem Stepped.advances (h : Stepped s label s') (hs : s.Sound) (hf : f ∈ s.improvements) :
    ∃ f' ∈ s'.improvements, f.Advances f' := by
  cases h with
  | kept h => exact ⟨f, h ▸ hf, .refl f⟩
  | created candidate draft fresh h => exact ⟨f, h ▸ List.mem_append_left _ hf, .refl f⟩
  | written g g' mem write h =>
      have hadvances := (write.sound (hs.improvements g mem)).2
      by_cases hkey : key f = key g
      · have hsame : f = g := List.inj_on_of_nodup_map hs.nodup hf mem hkey
        subst hsame
        exact ⟨g', h ▸ Table.mem_put_self hf hadvances.id.symm, hadvances⟩
      · refine ⟨f, h ▸ Table.mem_put_other hf ?_, .refl f⟩
        exact fun heq => hkey (heq.trans hadvances.id)

/-- The review of a candidate is admitted by an experiment that shares its `created_at` with no
other. -/
def Untied (s : ReleaseState) : ReleaseLabel → Prop
  | .requestReview _ candidateId _ _ _ => ∀ f ∈ s.improvements, f.candidate.id = candidateId →
      f.review = none → f.HasOneLatest
  | _ => True

theorem Stepped.grounded (h : Stepped s label s') (hs : s.Sound) (hok : Untied s label)
    (hg : ∀ f ∈ s.improvements, f.Grounded) : ∀ f ∈ s'.improvements, f.Grounded := by
  cases h with
  | kept h => rwa [h]
  | created candidate draft fresh h =>
      intro f hf
      rw [h] at hf
      obtain hf | hf := List.mem_append.mp hf
      · exact hg f hf
      · rw [List.mem_singleton.mp hf]
        intro r hr
        cases hr
  | written f f' mem write h =>
      rw [h]
      apply Table.forall_put hg
      apply write.grounded (hs.improvements f mem) (hg f mem)
      rintro ownerId key admitted reviewId rfl hnone
      exact hok f mem rfl hnone

theorem grounded_of_reaches (h : Reaches step Untied init s) :
    ∀ f ∈ s.improvements, f.Grounded := by
  refine h.invariant_of (I := Sound) (J := fun s => ∀ f ∈ s.improvements, f.Grounded)
    (fun _ _ _ _ hs hstep => (stepped_of_step hstep).sound hs) ?_
    ⟨List.nodup_nil, fun _ h => absurd h List.not_mem_nil⟩ fun _ h => absurd h List.not_mem_nil
  intro s label s' hok hs hg hstep
  exact (stepped_of_step hstep).grounded hs hok hg

/-- What a release has to be preceded by. -/
structure Vetted (f : Improvement) : Prop where
  experiment : ∃ e ∈ f.experiments, e.gateApproved
  review : ∃ r, f.review = some r ∧ r.status = .approved
  shadow : ∃ x ∈ f.shadows, x.status = .passed

theorem vetted_of_released (hs : f.Sound) (h : f.candidate.status.isReleased) : Vetted f := by
  have hstatus : f.candidate.status.reviewStatus = some .approved ∧
      f.candidate.status.shadowCount = 1 := by
    cases hc : f.candidate.status <;> rw [hc] at h <;> first | exact ⟨rfl, rfl⟩ | cases h
  have hreview := hs.review
  rw [hstatus.1] at hreview
  obtain ⟨r, hr, happroved⟩ := Option.map_eq_some_iff.mp hreview
  obtain ⟨e, he, -, hgate, -⟩ := hs.admitted r hr
  obtain ⟨x, hx⟩ := List.length_eq_one_iff.mp (hs.shadows.trans hstatus.2)
  have hmem : x ∈ f.shadows := hx ▸ List.mem_singleton_self x
  exact ⟨⟨e, he, hgate⟩, ⟨r, hr, happroved⟩, x, hmem, hs.passed h x hmem⟩

theorem released_of_promoted (hs : f.Sound)
    (h : f.candidate.status = .active ∨ ∃ v ∈ f.events, v.action = .promoted) :
    f.candidate.status.isReleased := by
  obtain h | ⟨v, hv, haction⟩ := h
  · rw [h]
    rfl
  · have hmem : ReleaseAction.promoted ∈ f.candidate.status.releaseActions := by
      rw [← hs.events, ← haction]
      exact List.mem_map_of_mem hv
    cases hc : f.candidate.status <;> rw [hc] at hmem <;>
      first | rfl | exact absurd hmem List.not_mem_nil

theorem events_prefix (hs : f.Sound) :
    f.events.map ImprovementReleaseEvent.action <+: [.promoted, .rolledBack] := by
  rw [hs.events]
  cases f.candidate.status <;> decide

/-- All receipts of a candidate rest on one experiment, which has passed its gate. -/
def RestOnPassed (f : Improvement) (r : ImprovementReviewRow) : Prop :=
  ∃ e ∈ f.experiments, e.status = .succeeded ∧ e.gateApproved ∧
    (∀ e' ∈ f.experiments, e'.id = e.id → e' = e) ∧ r.experimentId = e.id ∧
    (∀ x ∈ f.shadows, x.experimentId = e.id) ∧ ∀ v ∈ f.events, v.experimentId = e.id

theorem restOnPassed (hs : f.Sound) (hg : f.Grounded) {r : ImprovementReviewRow}
    (hr : f.review = some r) : RestOnPassed f r := by
  obtain ⟨e, he, hid, hgate, -⟩ := hs.admitted r hr
  refine ⟨e, he, (hs.graded e he).mpr hgate, hgate, ?_, hid.symm, ?_, ?_⟩
  · exact fun e' he' heq => List.inj_on_of_nodup_map hs.ids he' he heq
  · rw [hid]
    exact (hg r hr).shadows
  · rw [hid]
    exact (hg r hr).events

/-- Candidates advance along the transitions, and nothing is released without its receipts. The
receipts rest on the same experiment in the runs in which a review is admitted by an experiment
that shares its `created_at` with no other. -/
theorem releases_safe (s : ReleaseState) :
    (Reaches step anyStep init s →
      (∀ label s', step s label = some s' →
        ∀ f ∈ s.improvements, ∃ f' ∈ s'.improvements, f.Advances f') ∧
      (∀ f ∈ s.improvements,
        (f.candidate.status = .active ∨ ∃ v ∈ f.events, v.action = .promoted) → Vetted f) ∧
      ∀ f ∈ s.improvements,
        f.events.map ImprovementReleaseEvent.action <+: [.promoted, .rolledBack]) ∧
    (Reaches step Untied init s → ∀ f ∈ s.improvements, ∀ r, f.review = some r →
      RestOnPassed f r) := by
  refine ⟨fun hs => ⟨fun label s' hstep f hf => ?_, fun f hf h => ?_, fun f hf => ?_⟩,
    fun hs f hf r hr => ?_⟩
  · exact (stepped_of_step hstep).advances (sound_of_reaches hs) hf
  · have hsound := (sound_of_reaches hs).improvements f hf
    exact vetted_of_released hsound (released_of_promoted hsound h)
  · exact events_prefix ((sound_of_reaches hs).improvements f hf)
  · exact restOnPassed ((sound_of_reaches hs).improvements f hf) (grounded_of_reaches hs f hf) hr

section Runs

def plainCandidate : ImprovementCandidate where
  id := 1
  ownerId := 2
  baseVersion := "v1"
  candidateVersion := "v2"
  rollbackTargetVersion := "v1"
  versionHash := "hash"
  status := .draft
  idempotencyKey := "candidate"

def plainReceipt : OfficialReceipt := ⟨"assistant", "thread", "run", "interrupt"⟩

/-- The calls from the request of a review to the promotion, which reads the experiment `choice`. -/
def releaseRun (choice : ℕ) : List ReleaseLabel :=
  [.requestReview 2 1 "review" true 5, .reviewStarted 0 (some plainReceipt),
    .decideReview 2 1 .approve none, .reviewDecided 0 (some "approved") 30,
    .runShadow 2 1 "shadow" 1 6 40 4, .recordRelease 2 1 .promoted "reason" 7 50 6 choice]

instance (f : Improvement) (e : ImprovementExperiment) : Decidable (f.IsLatest e) :=
  inferInstanceAs (Decidable (∀ e' ∈ f.experiments, e'.createdAt ≤ e.createdAt))

instance (f : Improvement) : Decidable f.HasOneLatest :=
  inferInstanceAs (Decidable (∀ e ∈ f.experiments, ∀ e' ∈ f.experiments,
    f.IsLatest e → f.IsLatest e' → e.id = e'.id))

instance (s : ReleaseState) (label : ReleaseLabel) : Decidable (Untied s label) :=
  match label with
  | .requestReview _ candidateId _ _ _ => inferInstanceAs (Decidable (∀ f ∈ s.improvements,
      f.candidate.id = candidateId → f.review = none → f.HasOneLatest))
  | .createCandidate _ | .runExperiment _ _ _ _ _ _ _ _ | .reviewStarted _ _
  | .decideReview _ _ _ _ | .reviewDecided _ _ _ | .runShadow _ _ _ _ _ _ _
  | .recordRelease _ _ _ _ _ _ _ _ => inferInstanceAs (Decidable True)

/-- A later experiment that passes takes the place of one that failed. -/
theorem releases_safe_retried :
    ∃ (s : ReleaseState) (f : Improvement) (r : ImprovementReviewRow), f ∈ s.improvements ∧
      f.review = some r ∧ f.candidate.status = .active ∧ RestOnPassed f r := by
  have hrun : (runChecked step (fun s label => decide (Untied s label)) init
      ([.createCandidate plainCandidate,
        .runExperiment 2 1 "first" "prompt" "git" (some ⟨false, 3⟩) 3 10,
        .runExperiment 2 1 "second" "prompt" "git" (some ⟨true, 3⟩) 4 20] ++ releaseRun 4)).any
      (fun s => s.improvements.any fun f =>
        f.candidate.status == .active && f.review.isSome) = true := by
    decide +kernel
  obtain ⟨s, hs, hany⟩ := (Option.any_eq_true _ _).mp hrun
  obtain ⟨f, hf, hfound⟩ := List.any_eq_true.mp hany
  rw [Bool.and_eq_true, beq_iff_eq] at hfound
  obtain ⟨r, hr⟩ := Option.isSome_iff_exists.mp hfound.2
  have hreaches := reaches_of_runChecked _ (fun _ _ h => of_decide_eq_true h) hs
  exact ⟨s, f, r, hf, hr, hfound.1, (releases_safe s).2 hreaches f hf r hr⟩

/-- Two experiments begin in the same microsecond. The review is admitted by the one that passed,
and the promotion records the other one as its evidence. -/
theorem releases_tied :
    ¬ ∀ s, Reaches step anyStep init s → ∀ f ∈ s.improvements, ∀ v ∈ f.events,
      ∃ e ∈ f.experiments, e.id = v.experimentId ∧ e.gateApproved := by
  have hrun : (runLabels step init
      ([.createCandidate plainCandidate,
        .runExperiment 2 1 "first" "prompt" "git" (some ⟨false, 3⟩) 3 10,
        .runExperiment 2 1 "second" "prompt" "git" (some ⟨true, 3⟩) 4 10] ++ releaseRun 3)).any
      (fun s => s.improvements.any fun f => f.events.any fun v =>
        f.experiments.all fun e => e.id != v.experimentId || !e.gateApproved) = true := by
    decide +kernel
  obtain ⟨s, hs, hany⟩ := (Option.any_eq_true _ _).mp hrun
  obtain ⟨f, hf, hany⟩ := List.any_eq_true.mp hany
  obtain ⟨v, hv, hall⟩ := List.any_eq_true.mp hany
  intro h
  obtain ⟨e, he, hid, hgate⟩ := h s (reaches_of_runLabels _ hs) f hf v hv
  have hfails := List.all_eq_true.mp hall e he
  simp [hid, hgate] at hfails

end Runs

end ReleaseState

end CryptoAlert
