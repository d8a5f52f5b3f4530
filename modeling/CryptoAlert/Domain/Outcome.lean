import CryptoAlert.Domain.Models
import CryptoAlert.Lib.Instants
import CryptoAlert.Lib.Integers
import Mathlib.Tactic.Linarith

/-!
# The outcome of a decision

A decision is measured when its horizon is over: how far the price went for and against it, and
what it returned. Prices and returns are exact; instants are counted in microseconds.
-/

namespace CryptoAlert

/-- What `maturation_at` and `evaluate_outcome` raise. -/
inductive OutcomeError where
  | horizonSuffix | horizonNotPositive | overflow
  | notPositive (name : String)
  | inconsistent
  | invalidMetrics
deriving DecidableEq, Repr

/-- The first instant that is no date any more. -/
def datetimeLimit : ℕ := 3652059 * Calendar.day

/-- The seconds of the unit that ends a horizon. -/
def horizonUnit : Char → Option ℕ
  | 'm' => some 60
  | 'h' => some 3600
  | 'd' => some 86400
  | _ => none

/-- The amount and the unit of a horizon. -/
def parseHorizon (u : Text.UnicodeData) (horizon : String) : Except OutcomeError (ℤ × ℕ) :=
  let normalized := u.lower (Text.stripText horizon.toList)
  match normalized.getLast?.bind horizonUnit with
  | none => .error .horizonSuffix
  | some unit =>
      if normalized.length < 2 then .error .horizonSuffix
      else match Text.readInteger u normalized.dropLast with
        | none => .error .horizonSuffix
        | some amount => .ok (amount, unit)

/-- `maturation_at`. -/
def maturationAt (u : Text.UnicodeData) (createdAt : ℕ) (horizon : String) :
    Except OutcomeError ℕ :=
  match parseHorizon u horizon with
  | .error error => .error error
  | .ok (amount, unit) =>
      if amount ≤ 0 then .error .horizonNotPositive
      else
        let maturation := createdAt + amount.toNat * unit * Calendar.second
        if maturation < datetimeLimit then .ok maturation else .error .overflow

structure OutcomeMetrics where
  brierScore : Option ℚ
  mfe : ℚ
  mae : ℚ
  grossReturn : ℚ
  fees : ℚ
  slippage : ℚ
  funding : ℚ
  netReturn : ℚ
deriving DecidableEq

/-- The bounds of the fields. -/
def OutcomeMetrics.isValid (m : OutcomeMetrics) : Bool :=
  (m.brierScore.all fun score => 0 ≤ score ∧ score ≤ 1) && decide (0 ≤ m.fees) &&
    decide (0 ≤ m.slippage)

structure OutcomePrices where
  reference : ℚ
  close : ℚ
  high : ℚ
  low : ℚ

/-- What a decision cost. -/
structure OutcomeCosts where
  fees : ℚ := 0
  slippage : ℚ := 0
  funding : ℚ := 0

namespace OutcomePrices

def named (p : OutcomePrices) : List (String × ℚ) :=
  [("reference_price", p.reference), ("close_price", p.close), ("high_price", p.high),
    ("low_price", p.low)]

/-- The prices pass the checks of `evaluate_outcome`. -/
structure Consistent (p : OutcomePrices) : Prop where
  reference : 0 < p.reference
  close : 0 < p.close
  high : 0 < p.high
  low : 0 < p.low
  le_high : max p.reference p.close ≤ p.high
  low_le : p.low ≤ min p.reference p.close

end OutcomePrices

/-- The actions whose returns count against the price. -/
def Action.isShort : Action → Bool
  | .openShort | .holdShort | .closeLong | .flipLongToShort | .triggerShort => true
  | _ => false

def Action.direction (action : Action) : ℚ := if action.isShort then -1 else 1

/-- `evaluate_outcome`. -/
def evaluateOutcome (action : Action) (predictedProbability realizedLabel : Option ℚ)
    (p : OutcomePrices) (costs : OutcomeCosts) : Except OutcomeError OutcomeMetrics :=
  match p.named.find? fun entry => entry.2 ≤ 0 with
  | some (name, _) => .error (.notPositive name)
  | none =>
      if p.high < max p.reference p.close ∨ min p.reference p.close < p.low then
        .error .inconsistent
      else
        let grossReturn := action.direction * (p.close - p.reference) / p.reference
        let metrics : OutcomeMetrics :=
          { brierScore := predictedProbability.bind fun predicted => realizedLabel.map fun label =>
              (predicted - label) ^ 2
            mfe := action.direction * (p.high - p.reference) / p.reference
            mae := action.direction * (p.low - p.reference) / p.reference
            grossReturn
            fees := costs.fees
            slippage := costs.slippage
            funding := costs.funding
            netReturn := grossReturn - costs.fees - costs.slippage - costs.funding }
        if metrics.isValid then .ok metrics else .error .invalidMetrics

variable {action : Action} {p : OutcomePrices} {costs : OutcomeCosts} {m : OutcomeMetrics}
  {predicted realized : Option ℚ}

/-- The metrics of consistent prices. -/
def OutcomePrices.metrics (action : Action) (p : OutcomePrices) (brierScore : Option ℚ)
    (costs : OutcomeCosts) : OutcomeMetrics where
  brierScore
  mfe := action.direction * (p.high - p.reference) / p.reference
  mae := action.direction * (p.low - p.reference) / p.reference
  grossReturn := action.direction * (p.close - p.reference) / p.reference
  fees := costs.fees
  slippage := costs.slippage
  funding := costs.funding
  netReturn := action.direction * (p.close - p.reference) / p.reference - costs.fees -
    costs.slippage - costs.funding

def brierScore (predicted realized : Option ℚ) : Option ℚ :=
  predicted.bind fun q => realized.map fun label => (q - label) ^ 2

theorem named_find?_eq_none :
    (p.named.find? fun entry => entry.2 ≤ 0) = none ↔
      0 < p.reference ∧ 0 < p.close ∧ 0 < p.high ∧ 0 < p.low := by
  simp [OutcomePrices.named]

/-- The evaluation succeeds on consistent prices whose metrics are within their bounds. -/
theorem evaluateOutcome_eq_ok :
    evaluateOutcome action predicted realized p costs = .ok m ↔
      p.Consistent ∧ (p.metrics action (brierScore predicted realized) costs).isValid = true ∧
        m = p.metrics action (brierScore predicted realized) costs := by
  rw [evaluateOutcome]
  cases hfind : p.named.find? fun entry => entry.2 ≤ 0 with
  | some entry =>
      simp only [reduceCtorEq, false_iff]
      rintro ⟨hp, -, -⟩
      have hnone := named_find?_eq_none.mpr ⟨hp.reference, hp.close, hp.high, hp.low⟩
      rw [hnone] at hfind
      cases hfind
  | none =>
      obtain ⟨hreference, hclose, hhigh, hlow⟩ := named_find?_eq_none.mp hfind
      dsimp only
      by_cases hout : p.high < max p.reference p.close ∨ min p.reference p.close < p.low
      · rw [if_pos hout]
        simp only [reduceCtorEq, false_iff]
        rintro ⟨hp, -, -⟩
        exact hout.elim (not_lt.mpr hp.le_high) (not_lt.mpr hp.low_le)
      · rw [if_neg hout]
        push Not at hout
        have hp : p.Consistent := ⟨hreference, hclose, hhigh, hlow, hout.1, hout.2⟩
        by_cases hvalid : (p.metrics action (brierScore predicted realized) costs).isValid = true
        · rw [if_pos (by exact hvalid)]
          constructor
          · intro h
            cases h
            exact ⟨hp, hvalid, rfl⟩
          · rintro ⟨-, -, rfl⟩
            rfl
        · rw [if_neg (by exact hvalid)]
          simp only [reduceCtorEq, false_iff]
          exact fun h => hvalid h.2.1

theorem isValid_metrics (hpredicted : ∀ q ∈ predicted, 0 ≤ q ∧ q ≤ 1)
    (hrealized : ∀ q ∈ realized, 0 ≤ q ∧ q ≤ 1) (hfees : 0 ≤ costs.fees)
    (hslippage : 0 ≤ costs.slippage) :
    (p.metrics action (brierScore predicted realized) costs).isValid = true := by
  simp only [OutcomeMetrics.isValid, OutcomePrices.metrics, Bool.and_eq_true]
  refine ⟨⟨?_, decide_eq_true hfees⟩, decide_eq_true hslippage⟩
  rw [Option.all_eq_true]
  intro score hscore
  obtain ⟨q, hq, hscore⟩ := Option.bind_eq_some_iff.mp hscore
  obtain ⟨label, hlabel, rfl⟩ := Option.map_eq_some_iff.mp hscore
  obtain ⟨hq₀, hq₁⟩ := hpredicted q hq
  obtain ⟨hl₀, hl₁⟩ := hrealized label hlabel
  rw [decide_eq_true_eq]
  exact ⟨sq_nonneg _, by nlinarith⟩

/-- No excursion in favour is below the return, and none against it is above. -/
structure OutcomeMetrics.ExcursionLaw (m : OutcomeMetrics) : Prop where
  mae_le : m.mae ≤ min 0 m.grossReturn
  le_mfe : max 0 m.grossReturn ≤ m.mfe

/-- The price did not move. -/
structure OutcomePrices.Still (p : OutcomePrices) : Prop where
  close : p.close = p.reference
  high : p.high = p.reference
  low : p.low = p.reference

theorem excursionLaw_of_long (hp : p.Consistent) (score : Option ℚ) (haction : action.isShort = false) :
    (p.metrics action score costs).ExcursionLaw := by
  have hreference := hp.reference
  have hhigh := max_le_iff.mp hp.le_high
  have hlow := le_min_iff.mp hp.low_le
  have hdirection : action.direction = 1 := by rw [Action.direction, haction]; rfl
  constructor
  · simp only [OutcomePrices.metrics, hdirection, one_mul, le_min_iff]
    constructor
    · exact div_nonpos_of_nonpos_of_nonneg (by linarith) hreference.le
    · exact div_le_div_of_nonneg_right (by linarith) hreference.le
  · simp only [OutcomePrices.metrics, hdirection, one_mul, max_le_iff]
    constructor
    · exact div_nonneg (by linarith) hreference.le
    · exact div_le_div_of_nonneg_right (by linarith) hreference.le

/-- On the short side the high counts as the favourable extreme. -/
theorem excursionLaw_of_short (hp : p.Consistent) (score : Option ℚ) (haction : action.isShort = true) :
    (p.metrics action score costs).ExcursionLaw ↔ p.Still := by
  have hreference := hp.reference
  have hhigh := max_le_iff.mp hp.le_high
  have hlow := le_min_iff.mp hp.low_le
  have hdirection : action.direction = -1 := by rw [Action.direction, haction]; rfl
  constructor
  · intro law
    have hmae := law.mae_le
    have hmfe := law.le_mfe
    simp only [OutcomePrices.metrics, hdirection, le_min_iff, max_le_iff] at hmae hmfe
    have hrise : 0 * p.reference ≤ -1 * (p.high - p.reference) :=
      (le_div_iff₀ hreference).mp hmfe.1
    have hfall : -1 * (p.low - p.reference) ≤ 0 * p.reference :=
      (div_le_iff₀ hreference).mp hmae.1
    exact ⟨by linarith, by linarith, by linarith⟩
  · intro hstill
    constructor <;> simp [OutcomePrices.metrics, hstill.close, hstill.high, hstill.low]

/-- On consistent prices the evaluation returns metrics with the law of excursions exactly when
the return does not count against the price or the price did not move. -/
theorem evaluateOutcome_excursions (action : Action) (predicted realized : Option ℚ)
    (p : OutcomePrices) (costs : OutcomeCosts) (hp : p.Consistent)
    (hpredicted : ∀ q ∈ predicted, 0 ≤ q ∧ q ≤ 1) (hrealized : ∀ q ∈ realized, 0 ≤ q ∧ q ≤ 1)
    (hfees : 0 ≤ costs.fees) (hslippage : 0 ≤ costs.slippage) :
    (∃ m, evaluateOutcome action predicted realized p costs = .ok m ∧ m.ExcursionLaw) ↔
      (action.isShort = true → p.Still) := by
  have hvalid : (p.metrics action (brierScore predicted realized) costs).isValid = true :=
    isValid_metrics hpredicted hrealized hfees hslippage
  have hok := evaluateOutcome_eq_ok.mpr ⟨hp, hvalid, rfl⟩
  rw [hok]
  constructor
  · rintro ⟨m, hm, law⟩ haction
    cases hm
    exact (excursionLaw_of_short hp _ haction).mp law
  · intro hstill
    refine ⟨_, rfl, ?_⟩
    cases haction : action.isShort with
    | true => exact (excursionLaw_of_short hp _ haction).mpr (hstill haction)
    | false => exact excursionLaw_of_long hp _ haction

/-- A price that rose from 100 to 110 in between and ended at 90. -/
def swungPrices : OutcomePrices := ⟨100, 90, 110, 80⟩

theorem consistent_swungPrices : swungPrices.Consistent := by
  constructor <;> norm_num [swungPrices]

theorem evaluateOutcome_excursions_swung :
    (∃ m, evaluateOutcome .openLong none none swungPrices {} = .ok m ∧ m.ExcursionLaw) ↔
      (Action.openLong.isShort = true → swungPrices.Still) :=
  evaluateOutcome_excursions .openLong none none swungPrices {} consistent_swungPrices
    (fun _ h => by cases h) (fun _ h => by cases h) (le_refl 0) (le_refl 0)

/-- A short position that ends in profit, with a favourable excursion below zero and an adverse
one above. -/
theorem excursions_swapped : swungPrices.Consistent ∧
    ∃ m, evaluateOutcome .openShort none none swungPrices {} = .ok m ∧
      m.grossReturn = 1 / 10 ∧ m.mfe = -1 / 10 ∧ m.mae = 1 / 5 ∧ ¬m.ExcursionLaw := by
  refine ⟨consistent_swungPrices, _,
    evaluateOutcome_eq_ok.mpr ⟨consistent_swungPrices, by decide +kernel, rfl⟩, ?_⟩
  have hmfe : (swungPrices.metrics .openShort (brierScore none none) {}).mfe = -1 / 10 := by
    decide +kernel
  refine ⟨by decide +kernel, hmfe, by decide +kernel, fun law => ?_⟩
  have hle := le_trans (le_max_left _ _) law.le_mfe
  rw [hmfe] at hle
  norm_num at hle

end CryptoAlert
