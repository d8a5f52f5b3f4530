import CryptoAlert.Persistence.TerminalRun

/-!
# Version numbers of artifacts

A commit appends one version to its artifact, numbered next to the versions before it. The
latest number that an artifact stores is therefore the number of its versions.
-/

namespace CryptoAlert

namespace Outputs

/-- The version numbers of an artifact, in the order of the commits. -/
def numbersOf (o : Outputs) (artifactId : ℕ) : List ℕ :=
  (o.versions.filter fun v => v.artifactId == artifactId).map ArtifactVersion.versionNumber

/-- Every artifact has the versions `1` to its latest number. -/
structure Numbered (o : Outputs) : Prop where
  ids : (o.artifacts.map ArtifactRow.id).Nodup
  numbers : ∀ a ∈ o.artifacts, o.numbersOf a.id = List.range' 1 a.latestVersionNumber
  versioned : ∀ v ∈ o.versions, ∃ a ∈ o.artifacts, a.id = v.artifactId

/-- The versions of a run. -/
def versionsOf (o : Outputs) (runId : ℕ) : List ArtifactVersion :=
  o.versions.filter fun v => v.runId == runId

def decisionsOf (o : Outputs) (runId : ℕ) : List DecisionRow :=
  o.decisions.filter fun d => d.runId == runId

variable {o o' : Outputs} {type : ArtifactType} {ids : CommitIds} {runId : ℕ} {content : Json}

theorem foldr_max_range' (n : ℕ) : (List.range' 1 n).foldr max 0 = n := by
  have hstart : ∀ n start, (List.range' start n).foldr max 0 = if n = 0 then 0 else start + n - 1 := by
    intro n
    induction n with
    | zero => intro start; rfl
    | succ n ih =>
        intro start
        rw [List.range'_succ, List.foldr_cons, ih]
        by_cases hn : n = 0
        · simp [hn]
        · rw [if_neg hn, if_neg (Nat.succ_ne_zero n)]
          omega
  rw [hstart]
  by_cases hn : n = 0
  · rw [if_pos hn, hn]
  · rw [if_neg hn]
    omega

/-- The artifact that a commit finds or inserts. -/
theorem artifactFor_eq_some {a : ArtifactRow} (h : o.artifactFor type ids.artifact = some (o', a)) :
    (o' = o ∧ a ∈ o.artifacts) ∨ (o' = { o with artifacts := o.artifacts ++ [a] } ∧
      a.latestVersionNumber = 0 ∧ ∀ b ∈ o.artifacts, b.id ≠ a.id) := by
  unfold artifactFor at h
  split at h
  · rename_i artifact hfound
    cases h
    exact .inl ⟨rfl, List.mem_of_find?_eq_some hfound⟩
  · obtain ⟨artifacts, hinsert, h⟩ := Option.map_eq_some_iff.mp h
    cases h
    obtain ⟨rfl, hfresh⟩ := Table.insert_eq_some hinsert
    exact .inr ⟨rfl, rfl, hfresh⟩

/-- A new artifact has no versions yet. -/
theorem Numbered.artifactFor {a : ArtifactRow} (hn : o.Numbered)
    (h : o.artifactFor type ids.artifact = some (o', a)) :
    o'.Numbered ∧ a ∈ o'.artifacts ∧ o'.versions = o.versions ∧ o'.decisions = o.decisions := by
  obtain ⟨rfl, ha⟩ | ⟨rfl, hlatest, hfresh⟩ := artifactFor_eq_some h
  · exact ⟨hn, ha, rfl, rfl⟩
  · refine ⟨⟨Table.nodup_insert hn.ids hfresh, ?_, ?_⟩, List.mem_append_right _ List.mem_cons_self,
      rfl, rfl⟩
    · intro b hb
      obtain hb | hb := List.mem_append.mp hb
      · exact hn.numbers b hb
      · rw [List.mem_singleton.mp hb, hlatest]
        have hnone : ∀ v ∈ o.versions, v.artifactId ≠ a.id := by
          intro v hv heq
          obtain ⟨b, hb, hid⟩ := hn.versioned v hv
          exact hfresh b hb (hid.trans heq)
        simpa [numbersOf] using hnone
    · intro v hv
      obtain ⟨b, hb, hid⟩ := hn.versioned v hv
      exact ⟨b, List.mem_append_left _ hb, hid⟩

/-- The version that a commit appends. -/
structure Committed (o o' : Outputs) (runId : ℕ) (content : Json) (v : ArtifactVersion) :
    Prop where
  versions : o'.versions = o.versions ++ [v]
  ofRun : v.runId = runId
  stores : v.content = content
  decisions : o'.decisions = o.decisions
  numbered : o'.Numbered

theorem commitVersion_eq_some {v : ArtifactVersion} (hn : o.Numbered)
    (h : o.commitVersion type ids runId content = some (o', v)) :
    Committed o o' runId content v := by
  obtain ⟨⟨o₁, a⟩, hartifact, h⟩ := Option.bind_eq_some_iff.mp h
  obtain ⟨hn₁, ha, hversions, hdecisions⟩ := hn.artifactFor hartifact
  obtain ⟨versions, hinsert, h⟩ := Option.bind_eq_some_iff.mp h
  obtain ⟨rfl, hfresh⟩ := Table.insert_eq_some hinsert
  cases h
  have hmax : Table.maxOf ArtifactVersion.versionNumber
      (o₁.versions.filter fun v => v.artifactId == a.id) = a.latestVersionNumber := by
    have hnumbers := hn₁.numbers a ha
    rw [numbersOf] at hnumbers
    rw [Table.maxOf, hnumbers, foldr_max_range']
  refine ⟨congrArg (· ++ _) hversions, rfl, rfl, hdecisions, ⟨?_, ?_, ?_⟩⟩
  · rw [Table.map_key_put]
    exact hn₁.ids
  · intro b hb
    obtain ⟨hb, hne⟩ | ⟨rfl, -⟩ := Table.mem_put.mp hb
    · have hnumbers := hn₁.numbers b hb
      rw [← hnumbers, numbersOf, numbersOf, List.filter_append, List.map_append]
      have hother : (a.id == b.id) = false := by simpa using Ne.symm hne
      simp [hother]
    · have hnumbers := hn₁.numbers a ha
      rw [numbersOf] at hnumbers ⊢
      rw [List.filter_append, List.map_append, hnumbers, hmax, List.range'_concat]
      simp [Nat.add_comm]
  · intro v hv
    obtain hv | hv := List.mem_append.mp hv
    · obtain ⟨b, hb, hid⟩ := hn₁.versioned v hv
      by_cases hb' : b.id = a.id
      · exact ⟨_, Table.mem_put_self hb hb', hb'.symm.trans hid⟩
      · exact ⟨b, Table.mem_put_other hb hb', hid⟩
    · rw [List.mem_singleton.mp hv]
      exact ⟨_, Table.mem_put_self ha rfl, rfl⟩

/-- The decision that is committed along with a version. -/
structure Decided (o o' : Outputs) (runId : ℕ) (content : Json) (v : ArtifactVersion)
    (d : DecisionRow) : Prop where
  versions : o'.versions = o.versions ++ [v]
  ofRun : v.runId = runId
  stores : v.content = content
  decisions : o'.decisions = o.decisions ++ [d]
  decisionOfRun : d.runId = runId
  decisionVersion : d.decisionVersion = v.versionNumber
  artifactVersion : d.artifactVersionId = v.id
  numbered : o'.Numbered

theorem commitVersionAndDecision_eq_some {d : DecisionRow} (hn : o.Numbered)
    (h : o.commitVersionAndDecision ids runId content = some (o', d)) :
    ∃ v, Decided o o' runId content v d := by
  iterate 3 obtain ⟨_, _, h⟩ := Option.bind_eq_some_iff.mp h
  obtain ⟨⟨o₁, v⟩, hcommit, h⟩ := Option.bind_eq_some_iff.mp h
  have hc := commitVersion_eq_some hn hcommit
  dsimp only at h
  split_ifs at h
  obtain ⟨decisions, hinsert, h⟩ := Option.bind_eq_some_iff.mp h
  obtain ⟨rfl, -⟩ := Table.insert_eq_some hinsert
  cases h
  exact ⟨v, hc.versions, hc.ofRun, hc.stores, congrArg (· ++ _) hc.decisions, rfl, rfl, rfl,
    ⟨hc.numbered.ids, hc.numbered.numbers, hc.numbered.versioned⟩⟩

end Outputs

/-- What is committed for a succeeded output: a version with its artifact, and for the artifact
of an analysis also a decision. -/
inductive TerminalCommit (o o' : Outputs) (runId : ℕ) (t : TerminalGraphOutput) : Prop where
  | decided (a : Artifact) (v : ArtifactVersion) (d : DecisionRow) (artifact : t.artifact = some a)
      (decided : Outputs.Decided o o' runId (Artifact.codec.dump a) v d)
  | committed (a : DeepResearchArtifact ReadUrl) (v : ArtifactVersion) (none : t.artifact = none)
      (artifact : t.deepResearchArtifact = some a)
      (committed : Outputs.Committed o o' runId (DeepResearchArtifact.codec.dump a) v)

theorem commitTerminalArtifact_of_open {task : TaskRow} {o o' : Outputs} {ids : CommitIds}
    {runId : ℕ} {t : TerminalGraphOutput} {notification : Option Json}
    (hstatus : t.terminalStatus ≠ .succeeded)
    (h : commitTerminalArtifact task o ids runId t = some (o', notification)) : o' = o := by
  unfold commitTerminalArtifact at h
  rw [if_neg hstatus] at h
  cases h
  rfl

theorem commitTerminalArtifact_eq_some {task : TaskRow} {o o' : Outputs} {ids : CommitIds}
    {runId : ℕ} {t : TerminalGraphOutput} {notification : Option Json} (hn : o.Numbered)
    (h : commitTerminalArtifact task o ids runId t = some (o', notification)) :
    (t.terminalStatus ≠ .succeeded ∧ o' = o) ∨
      (t.terminalStatus = .succeeded ∧ TerminalCommit o o' runId t) := by
  by_cases hstatus : t.terminalStatus = .succeeded
  · unfold commitTerminalArtifact at h
    rw [if_pos hstatus] at h
    right
    refine ⟨hstatus, ?_⟩
    have hcontract := t.contract
    rw [hstatus] at hcontract
    cases hartifact : t.artifact with
    | some a =>
        simp only [hartifact] at h
        obtain ⟨⟨o₁, d⟩, hcommit, h⟩ := Option.bind_eq_some_iff.mp h
        obtain ⟨v, hd⟩ := Outputs.commitVersionAndDecision_eq_some hn hcommit
        dsimp only at h
        split_ifs at h
        · obtain ⟨payload, -, h⟩ := Option.bind_eq_some_iff.mp h
          cases h
          exact .decided a v d hartifact hd
        · cases h
          exact .decided a v d hartifact hd
    | none =>
        cases hdeep : t.deepResearchArtifact with
        | some a =>
            simp only [hartifact, hdeep] at h
            obtain ⟨⟨o₁, v⟩, hcommit, h⟩ := Option.map_eq_some_iff.mp h
            cases h
            exact .committed a v hartifact hdeep (Outputs.commitVersion_eq_some hn hcommit)
        | none => simp [TerminalContract, hartifact, hdeep] at hcontract
  · exact .inl ⟨hstatus, commitTerminalArtifact_of_open hstatus h⟩

end CryptoAlert
