import Mathlib.Data.Countable.Basic
import Mathlib.Data.Rat.Encodable
import Mathlib.Logic.Equiv.List
import CryptoAlert.Commands.Execution
import CryptoAlert.Projections.EventSequence

/-!
# Digests without collisions

The answers to a pause are countable, as all that is stored in them is, so that digests
without collisions exist. A dispatcher on plain digests is what runs are evaluated on.
-/

namespace CryptoAlert

section Countable

instance countableChar : Countable Char :=
  Function.Injective.countable (f := Char.toNat) fun _ _ h => Char.toNat_inj.mp h

instance countableString : Countable String :=
  Function.Injective.countable (f := String.toList) fun _ _ h => String.toList_inj.mp h

instance : Countable Decimal :=
  Function.Injective.countable (f := fun d : Decimal => (d.negative, d.coefficient, d.exponent))
    fun d e h => by
      cases d
      cases e
      simpa using h

instance : Countable Regime :=
  Function.Injective.countable (f := Regime.name) fun r r' h => by
    cases r <;> cases r' <;> first | rfl | simp [Regime.name] at h

instance : Countable PositionSizeClass :=
  Function.Injective.countable (f := PositionSizeClass.name) fun c c' h => by
    cases c <;> cases c' <;> first | rfl | simp [PositionSizeClass.name] at h

instance : Countable Action :=
  Function.Injective.countable (f := Action.name) fun a a' h => by
    cases a <;> cases a' <;> first | rfl | simp [Action.name] at h

instance : Countable ReviewAction :=
  Function.Injective.countable (f := fun a : ReviewAction => (a == .approve, a == .reject))
    fun a a' h => by
      cases a <;> cases a' <;> first | rfl | cases h

instance : Countable CitedResearchFinding :=
  Function.Injective.countable (f := fun f : CitedResearchFinding => (f.claim, f.sourceIndexes))
    fun f g h => by
      cases f
      cases g
      simpa using h

instance : Countable ResearchSection :=
  Function.Injective.countable (f := fun s : ResearchSection => (s.title, s.summary, s.findings))
    fun s s' h => by
      cases s
      cases s'
      simpa using h

instance : Countable DeepResearchReport :=
  Function.Injective.countable
    (f := fun r : DeepResearchReport => (r.executiveSummary, r.sections, r.riskNotes, r.evidenceGaps))
    fun r r' h => by
      cases r
      cases r'
      simpa using h

instance : Countable ArtifactEdit :=
  Function.Injective.countable
    (f := fun e : ArtifactEdit => (e.regime, e.factorScores, e.totalScore, e.mainAction,
      e.referencePrice, e.entryTrigger, e.stopPrice, e.target1, e.target2, e.probability,
      e.positionSizeClass, e.maxLeverage, e.riskPct, e.rootCauseChain, e.whyNotOpposite,
      e.invalidation, e.unavailableData, e.manualExecutionRequired, e.expiresInSeconds))
    fun e e' h => by
      cases e
      cases e'
      simpa using h

instance : Countable EditsDump :=
  Function.Injective.countable
    (f := fun e : EditsDump => match e with
      | .artifact edit => (Sum.inl edit : ArtifactEdit ⊕ DeepResearchReport)
      | .deepResearch report => .inr report)
    fun e e' h => by
      cases e <;> cases e' <;> cases h <;> rfl

instance : Countable ResponseDump :=
  Function.Injective.countable (f := fun r : ResponseDump => (r.action, r.edits, r.comment))
    fun r r' h => by
      cases r
      cases r'
      simpa using h

instance : Countable RespondCommandMember :=
  Function.Injective.countable
    (f := fun m : RespondCommandMember => (m.projectionId, m.interruptId, m.namespaceName,
      m.checkpointId, m.responseVersion, m.response))
    fun m m' h => by
      cases m
      cases m'
      simpa using h

instance : Countable RemoteCheckpoint :=
  Function.Injective.countable
    (f := fun c : RemoteCheckpoint => (c.threadId, c.checkpointNs, c.checkpointId, c.checkpointMap))
    fun c c' h => by
      cases c
      cases c'
      simpa using h

instance : Countable RespondCommandPayload :=
  Function.Injective.countable
    (f := fun p : RespondCommandPayload => (p.pauseId, p.pauseVersion, p.rootCheckpoint,
      p.responses, p.expired))
    fun p p' h => by
      cases p
      cases p'
      simpa using h

end Countable

theorem exists_respondDigest : ∃ f : RespondCommandPayload → String, Function.Injective f := by
  obtain ⟨code, hcode⟩ := exists_injective_nat RespondCommandPayload
  refine ⟨fun p => String.ofList (List.replicate (code p) 'x'), ?_⟩
  intro p p' h
  apply hcode
  have hlength := congrArg String.length h
  simpa using hlength

/-- Keys as they are, and some digest of the answers. -/
noncomputable def plainDigests : KeyDigests where
  key := id
  key_injective := Function.injective_id
  respond := exists_respondDigest.choose
  respond_injective := exists_respondDigest.choose_spec
  other _ := ""
  memberSet checkpoint _ := checkpoint.checkpointId

def plainDispatcher : DispatcherConfig where
  unicode := .ascii
  hashing := plainHashing
  models := dumpModels
  leaseSeconds := 30
  maxAttempts := 2
  maxCancelAttempts := 2
  maxCancelSeconds := 60
  reconciliationInterval := 5
  maxRunSeconds := 900
  interruptTtlSeconds := 600
  attempts_pos := by decide

theorem fourHours_fits : 1 ≤ "4h".length ∧ "4h".length ≤ 32 := by decide

def plainTask : TaskState :=
  .admitted 1 2 "thread"
    ⟨.marketAnalysis, AnalysisSubmission.modelDump ⟨.btcUsdtSwap, ⟨"4h", by decide⟩, "!", false⟩⟩
    "hash"

def plainHandle : RemoteRunHandle := ⟨"assistant", "thread", "run"⟩

end CryptoAlert
