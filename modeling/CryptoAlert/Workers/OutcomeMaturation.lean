import CryptoAlert.Domain.Outcome
import CryptoAlert.Lib.Extremes

/-!
# The worker that matures outcomes

A decision whose horizon is over is measured on a snapshot of the exchange: the last price, and
the highest high and the lowest low of the candles that the snapshot holds. The candles are those
that the exchange returned last; nothing selects the ones behind the decision.
-/

namespace CryptoAlert

/-- A candle with the instant at which it starts. -/
structure ExchangeCandle where
  startsAt : ℕ
  high : ℚ
  low : ℚ

structure ExchangeSnapshot where
  last : ℚ
  candles : List ExchangeCandle

inductive OutcomeStatus where
  | scheduled | pending | matured | insufficient | failed
deriving DecidableEq, Repr

/-- Why an observation has failed. -/
inductive OutcomeFailure where
  | noProvider | noSymbol | provider | noReferencePrice
  | evaluation (error : OutcomeError)
deriving DecidableEq

/-- What the column `metrics` holds. -/
inductive StoredOutcome where
  | metrics (m : OutcomeMetrics)
  | error (failure : OutcomeFailure)

theorem nothing_nonneg : (0 : ℚ) ≤ 0 := le_refl 0

/-- A row of `outcome_observations`. -/
structure OutcomeRow where
  action : Action
  predictedProbability : Option UnitInterval
  horizon : String
  status : OutcomeStatus := .scheduled
  maturationAt : ℕ
  availableAt : ℕ
  leaseOwner : Option String := none
  leaseExpiresAt : Option ℕ := none
  attempt : ℕ := 0
  fees : {q : ℚ // 0 ≤ q} := ⟨0, nothing_nonneg⟩
  slippage : {q : ℚ // 0 ≤ q} := ⟨0, nothing_nonneg⟩
  funding : ℚ := 0
  metrics : Option StoredOutcome := none
  realizedLabel : Option ℚ := none
  observedAt : Option ℕ := none
  prices : Option OutcomePrices := none

/-- The provider of the market data; a call may raise. -/
abbrev ExchangeProvider := String → String → Option ExchangeSnapshot

namespace ExchangeSnapshot

/-- The prices that the worker passes to the evaluation. -/
def outcomePrices (s : ExchangeSnapshot) (reference : ℚ) : OutcomePrices where
  reference
  close := s.last
  high := largest s.last (s.candles.map ExchangeCandle.high)
  low := smallest s.last (s.candles.map ExchangeCandle.low)

/-- What the decision came to: the label of the realised price. -/
def realizedLabel (s : ExchangeSnapshot) (reference : ℚ) : ℚ := if reference ≤ s.last then 1 else 0

/-- The prices are positive, as the provider checks. -/
structure Positive (s : ExchangeSnapshot) : Prop where
  last : 0 < s.last
  high : ∀ c ∈ s.candles, 0 < c.high
  low : ∀ c ∈ s.candles, 0 < c.low

/-- The highs of a snapshot; one without candles counts as a candle at the last price. -/
def highs (s : ExchangeSnapshot) : List ℚ := orDefault s.last (s.candles.map ExchangeCandle.high)

def lows (s : ExchangeSnapshot) : List ℚ := orDefault s.last (s.candles.map ExchangeCandle.low)

/-- Some candle reaches up to the price, and some candle reaches down to it. -/
def Reaches (s : ExchangeSnapshot) (price : ℚ) : Prop :=
  (∃ high ∈ s.highs, price ≤ high) ∧ ∃ low ∈ s.lows, low ≤ price

/-- The candles reach the reference price and the last price. -/
def Covers (s : ExchangeSnapshot) (reference : ℚ) : Prop := s.Reaches reference ∧ s.Reaches s.last

end ExchangeSnapshot

namespace OutcomeRow

/-- The condition of `_claim`. -/
def isDue (row : OutcomeRow) (now : ℕ) : Bool :=
  (row.status = .scheduled || row.status = .pending) && row.maturationAt ≤ now &&
    row.availableAt ≤ now && row.leaseExpiresAt.all fun expires => expires ≤ now

def claim (row : OutcomeRow) (worker : String) (leaseUntil : ℕ) : OutcomeRow :=
  { row with
    status := .pending
    leaseOwner := some worker
    leaseExpiresAt := some leaseUntil
    attempt := row.attempt + 1 }

def costs (row : OutcomeRow) : OutcomeCosts := ⟨row.fees.val, row.slippage.val, row.funding⟩

/-- The evaluation of a row on a snapshot. -/
def evaluate (row : OutcomeRow) (reference : ℚ) (s : ExchangeSnapshot) :
    Except OutcomeFailure OutcomeMetrics :=
  if reference ≤ 0 then .error .noReferencePrice
  else (evaluateOutcome row.action (row.predictedProbability.map Subtype.val)
    (some (s.realizedLabel reference)) (s.outcomePrices reference) row.costs).mapError .evaluation

/-- `_finish` of a row that is still leased. -/
def finish (row : OutcomeRow) (status : OutcomeStatus) (metrics : StoredOutcome)
    (realizedLabel : Option ℚ) (observedAt : Option ℕ) (prices : Option OutcomePrices) :
    OutcomeRow :=
  { row with
    status
    metrics := some metrics
    realizedLabel
    observedAt
    prices := prices.or row.prices
    leaseOwner := none
    leaseExpiresAt := none }

def fail (row : OutcomeRow) (failure : OutcomeFailure) : OutcomeRow :=
  row.finish .failed (.error failure) none none none

/-- `dispatch_once` on the row that it claims, with the symbol of its task and the reference price
of its artifact. -/
def dispatchOnce (row : OutcomeRow) (worker : String) (leaseSeconds now : ℕ)
    (provider : Option ExchangeProvider) (symbol : Option String) (reference : ℚ) : OutcomeRow :=
  if !row.isDue now then row
  else
    let row := row.claim worker (now + leaseSeconds * Calendar.second)
    match provider, symbol with
    | none, _ => row.fail .noProvider
    | some _, none => row.fail .noSymbol
    | some provider, some symbol =>
        match provider symbol row.horizon with
        | none => row.fail .provider
        | some snapshot =>
            match row.evaluate reference snapshot with
            | .error failure => row.fail failure
            | .ok metrics =>
                row.finish .matured (.metrics metrics) (some (snapshot.realizedLabel reference))
                  (some now) (some (snapshot.outcomePrices reference))

/-- A row that has failed is never claimed again. -/
theorem not_isDue_fail (row : OutcomeRow) (failure : OutcomeFailure) (now : ℕ) :
    (row.fail failure).isDue now = false := rfl

end OutcomeRow

variable {s s' : ExchangeSnapshot} {reference : ℚ} {row : OutcomeRow}

namespace ExchangeSnapshot

theorem le_high_iff {price : ℚ} :
    price ≤ (s.outcomePrices reference).high ↔ ∃ high ∈ s.highs, price ≤ high :=
  le_largest

theorem low_le_iff {price : ℚ} :
    (s.outcomePrices reference).low ≤ price ↔ ∃ low ∈ s.lows, low ≤ price :=
  smallest_le

theorem pos_of_mem_highs (h : s.Positive) {x : ℚ} (hx : x ∈ s.highs) : 0 < x := by
  rw [highs, orDefault] at hx
  split_ifs at hx with hnil
  · rw [List.mem_singleton.mp hx]
    exact h.last
  · obtain ⟨c, hc, rfl⟩ := List.mem_map.mp hx
    exact h.high c hc

theorem pos_of_mem_lows (h : s.Positive) {x : ℚ} (hx : x ∈ s.lows) : 0 < x := by
  rw [lows, orDefault] at hx
  split_ifs at hx with hnil
  · rw [List.mem_singleton.mp hx]
    exact h.last
  · obtain ⟨c, hc, rfl⟩ := List.mem_map.mp hx
    exact h.low c hc

theorem outcomePrices_high_pos (h : s.Positive) : 0 < (s.outcomePrices reference).high := by
  obtain ⟨high, hmem, -⟩ := le_high_iff.mp (le_refl (s.outcomePrices reference).high)
  exact lt_of_lt_of_le (pos_of_mem_highs h hmem) (le_high_iff.mpr ⟨high, hmem, le_refl high⟩)

theorem outcomePrices_low_pos (h : s.Positive) : 0 < (s.outcomePrices reference).low := by
  obtain ⟨low, hmem, hle⟩ := low_le_iff.mp (le_refl (s.outcomePrices reference).low)
  exact lt_of_lt_of_le (pos_of_mem_lows h hmem) hle

/-- What the worker passes is consistent exactly when the candles cover the two other prices. -/
theorem consistent_iff (h : s.Positive) (hreference : 0 < reference) :
    (s.outcomePrices reference).Consistent ↔ s.Covers reference := by
  constructor
  · intro hp
    have hhigh := max_le_iff.mp hp.le_high
    have hlow := le_min_iff.mp hp.low_le
    exact ⟨⟨le_high_iff.mp hhigh.1, low_le_iff.mp hlow.1⟩,
      le_high_iff.mp hhigh.2, low_le_iff.mp hlow.2⟩
  · rintro ⟨⟨hhigh, hlow⟩, hhigh', hlow'⟩
    exact ⟨hreference, h.last, outcomePrices_high_pos h, outcomePrices_low_pos h,
      max_le (le_high_iff.mpr hhigh) (le_high_iff.mpr hhigh'),
      le_min (low_le_iff.mpr hlow) (low_le_iff.mpr hlow')⟩

theorem realizedLabel_mem : 0 ≤ s.realizedLabel reference ∧ s.realizedLabel reference ≤ 1 := by
  rw [realizedLabel]
  split_ifs
  · exact ⟨zero_le_one, le_refl 1⟩
  · exact ⟨le_refl 0, zero_le_one⟩

end ExchangeSnapshot

namespace OutcomeRow

/-- The metrics of a row that can be evaluated. -/
def metricsOf (row : OutcomeRow) (reference : ℚ) (s : ExchangeSnapshot) : OutcomeMetrics :=
  (s.outcomePrices reference).metrics row.action
    (brierScore (row.predictedProbability.map Subtype.val) (some (s.realizedLabel reference)))
    row.costs

theorem evaluate_eq_ok (h : s.Positive) (hreference : 0 < reference) {m : OutcomeMetrics} :
    row.evaluate reference s = .ok m ↔ s.Covers reference ∧ m = row.metricsOf reference s := by
  have hvalid : (row.metricsOf reference s).isValid = true := by
    apply isValid_metrics
    · intro q hq
      obtain ⟨p, -, rfl⟩ := Option.map_eq_some_iff.mp hq
      exact p.2
    · intro q hq
      cases hq
      exact ExchangeSnapshot.realizedLabel_mem
    · exact row.fees.2
    · exact row.slippage.2
  have hcore : row.evaluate reference s = .ok m ↔
      evaluateOutcome row.action (row.predictedProbability.map Subtype.val)
        (some (s.realizedLabel reference)) (s.outcomePrices reference) row.costs = .ok m := by
    rw [evaluate, if_neg (not_le.mpr hreference)]
    cases evaluateOutcome row.action (row.predictedProbability.map Subtype.val)
        (some (s.realizedLabel reference)) (s.outcomePrices reference) row.costs with
    | error e => simp [Except.mapError]
    | ok m' => simp [Except.mapError]
  rw [hcore, evaluateOutcome_eq_ok, ExchangeSnapshot.consistent_iff h hreference]
  constructor
  · exact fun hm => ⟨hm.1, hm.2.2⟩
  · exact fun hm => ⟨hm.1, hvalid, hm.2⟩

/-- A row that cannot be evaluated fails for the prices. -/
theorem evaluate_eq_inconsistent (h : s.Positive) (hreference : 0 < reference)
    (hcovers : ¬s.Covers reference) :
    row.evaluate reference s = .error (.evaluation .inconsistent) := by
  have hnone : ((s.outcomePrices reference).named.find? fun entry => entry.2 ≤ 0) = none :=
    named_find?_eq_none.mpr ⟨hreference, h.last, ExchangeSnapshot.outcomePrices_high_pos h,
      ExchangeSnapshot.outcomePrices_low_pos h⟩
  have hout : (s.outcomePrices reference).high <
        max (s.outcomePrices reference).reference (s.outcomePrices reference).close ∨
      min (s.outcomePrices reference).reference (s.outcomePrices reference).close <
        (s.outcomePrices reference).low := by
    by_contra hin
    push Not at hin
    exact hcovers ((ExchangeSnapshot.consistent_iff h hreference).mp
      ⟨hreference, h.last, ExchangeSnapshot.outcomePrices_high_pos h,
        ExchangeSnapshot.outcomePrices_low_pos h, hin.1, hin.2⟩)
  rw [evaluate, if_neg (not_le.mpr hreference), evaluateOutcome, hnone]
  dsimp only
  rw [if_pos hout]
  rfl

/-- A row that is due matures on well-formed market data exactly when the candles cover the
reference price and the last price; otherwise it has failed for good. -/
theorem dispatchOnce_matured (row : OutcomeRow) (worker : String) (leaseSeconds now : ℕ)
    (provider : ExchangeProvider) (symbol : String) (reference : ℚ) (s : ExchangeSnapshot)
    (hdue : row.isDue now = true) (hprovider : provider symbol row.horizon = some s)
    (hpositive : s.Positive) (hreference : 0 < reference) :
    ((s.outcomePrices reference).Consistent ∧
      (row.dispatchOnce worker leaseSeconds now (some provider) (some symbol) reference).status =
        .matured) ↔ s.Covers reference := by
  have hclaimed : (row.claim worker (now + leaseSeconds * Calendar.second)).horizon =
      row.horizon := rfl
  rw [ExchangeSnapshot.consistent_iff hpositive hreference]
  constructor
  · exact And.left
  · intro hcovers
    refine ⟨hcovers, ?_⟩
    have heval : (row.claim worker (now + leaseSeconds * Calendar.second)).evaluate reference s =
        .ok _ := (evaluate_eq_ok hpositive hreference).mpr ⟨hcovers, rfl⟩
    rw [dispatchOnce, hdue]
    simp only [Bool.not_true, Bool.false_eq_true, if_false, hclaimed, hprovider, heval]
    rfl

/-- Where the candles do not cover the prices the row has failed, and nothing claims it again. -/
theorem dispatchOnce_failed {worker symbol : String} {leaseSeconds now : ℕ}
    {provider : ExchangeProvider} (hdue : row.isDue now = true)
    (hprovider : provider symbol row.horizon = some s) (hpositive : s.Positive)
    (hreference : 0 < reference) (hcovers : ¬s.Covers reference) (later : ℕ) :
    (row.dispatchOnce worker leaseSeconds now (some provider) (some symbol) reference).status =
        .failed ∧
      (row.dispatchOnce worker leaseSeconds now (some provider) (some symbol)
        reference).isDue later = false := by
  have hclaimed : (row.claim worker (now + leaseSeconds * Calendar.second)).horizon =
      row.horizon := rfl
  have heval : (row.claim worker (now + leaseSeconds * Calendar.second)).evaluate reference s =
      .error (.evaluation .inconsistent) := evaluate_eq_inconsistent hpositive hreference hcovers
  have hrow : row.dispatchOnce worker leaseSeconds now (some provider) (some symbol) reference =
      (row.claim worker (now + leaseSeconds * Calendar.second)).fail
        (.evaluation .inconsistent) := by
    rw [dispatchOnce, hdue]
    simp only [Bool.not_true, Bool.false_eq_true, if_false, hclaimed, hprovider, heval]
  rw [hrow]
  exact ⟨rfl, not_isDue_fail _ _ later⟩

/-- A decision at 100 that was right: the candle behind it stays above its price. -/
def risingRow : OutcomeRow where
  action := .openLong
  predictedProbability := none
  horizon := "1h"
  maturationAt := 60
  availableAt := 60

def risingSnapshot : ExchangeSnapshot := ⟨110, [⟨0, 112, 104⟩]⟩

/-- The same hour with a candle that touches the price of the decision. -/
def touchingSnapshot : ExchangeSnapshot := ⟨110, [⟨0, 112, 99⟩]⟩

theorem positive_risingSnapshot : risingSnapshot.Positive := by
  constructor <;> simp [risingSnapshot]

theorem positive_touchingSnapshot : touchingSnapshot.Positive := by
  constructor <;> simp [touchingSnapshot]

theorem dispatchOnce_matured_touching :
    ((touchingSnapshot.outcomePrices 100).Consistent ∧
      (risingRow.dispatchOnce "worker" 60 60 (some fun _ _ => some touchingSnapshot)
        (some "BTC-USDT-SWAP") 100).status = .matured) ↔ touchingSnapshot.Covers 100 :=
  dispatchOnce_matured risingRow "worker" 60 60 (fun _ _ => some touchingSnapshot)
    "BTC-USDT-SWAP" 100 touchingSnapshot (by decide) rfl positive_touchingSnapshot (by norm_num)

/-- The lowest low lies above the reference price, so the observation fails. -/
theorem rising_fails : risingRow.isDue 60 = true ∧ risingSnapshot.Positive ∧
    (risingRow.dispatchOnce "worker" 60 60 (some fun _ _ => some risingSnapshot)
      (some "BTC-USDT-SWAP") 100).status = .failed ∧
    ¬(risingSnapshot.outcomePrices 100).Consistent := by
  have hcovers : ¬risingSnapshot.Covers 100 := by
    rintro ⟨⟨-, low, hlow, hle⟩, -⟩
    simp only [ExchangeSnapshot.lows, risingSnapshot, orDefault, List.map_cons, List.map_nil,
      reduceCtorEq, if_false, List.mem_singleton] at hlow
    rw [hlow] at hle
    norm_num at hle
  refine ⟨by decide, positive_risingSnapshot, ?_, ?_⟩
  · exact (dispatchOnce_failed (by decide) rfl positive_risingSnapshot (by norm_num) hcovers 0).1
  · rw [ExchangeSnapshot.consistent_iff positive_risingSnapshot (by norm_num)]
    exact hcovers

end OutcomeRow

/-- The candle lies wholly before the instant. -/
def ExchangeCandle.endsBy (bar t : ℕ) (c : ExchangeCandle) : Bool := c.startsAt + bar ≤ t

namespace ExchangeSnapshot

variable {bar t : ℕ}

/-- The snapshots agree on the last price and on the candles that are not wholly before `t`. -/
structure AgreesFrom (bar t : ℕ) (s s' : ExchangeSnapshot) : Prop where
  last : s'.last = s.last
  candles : s'.candles.filter (fun c => !c.endsBy bar t) =
    s.candles.filter fun c => !c.endsBy bar t

/-- The candles that lie before `t`; the last price where there is no candle at all. -/
def earlyHighs (bar t : ℕ) (s : ExchangeSnapshot) : List ℚ :=
  if s.candles = [] then [s.last]
  else (s.candles.filter (·.endsBy bar t)).map ExchangeCandle.high

def earlyLows (bar t : ℕ) (s : ExchangeSnapshot) : List ℚ :=
  if s.candles = [] then [s.last]
  else (s.candles.filter (·.endsBy bar t)).map ExchangeCandle.low

/-- Every candle before `t` is topped and undercut by candles of the other snapshot. -/
def EarlyWithin (bar t : ℕ) (s s' : ExchangeSnapshot) : Prop :=
  (∀ high ∈ s.earlyHighs bar t, ∃ high' ∈ s'.highs, high ≤ high') ∧
    ∀ low ∈ s.earlyLows bar t, ∃ low' ∈ s'.lows, low' ≤ low

theorem AgreesFrom.symm (h : AgreesFrom bar t s s') : AgreesFrom bar t s' s :=
  ⟨h.last.symm, h.candles.symm⟩

/-- A candle that is not before `t` stands in both snapshots. -/
theorem AgreesFrom.mem (h : AgreesFrom bar t s s') {c : ExchangeCandle} (hc : c ∈ s.candles)
    (hlate : c.endsBy bar t = false) : c ∈ s'.candles := by
  have hmem : c ∈ s.candles.filter fun c => !c.endsBy bar t :=
    List.mem_filter.mpr ⟨hc, by rw [hlate]; rfl⟩
  rw [← h.candles] at hmem
  exact List.mem_of_mem_filter hmem

theorem mem_highs {c : ExchangeCandle} (hc : c ∈ s.candles) : c.high ∈ s.highs := by
  rw [highs, orDefault, if_neg (List.map_eq_nil_iff.not.mpr (List.ne_nil_of_mem hc))]
  exact List.mem_map_of_mem hc

theorem mem_lows {c : ExchangeCandle} (hc : c ∈ s.candles) : c.low ∈ s.lows := by
  rw [lows, orDefault, if_neg (List.map_eq_nil_iff.not.mpr (List.ne_nil_of_mem hc))]
  exact List.mem_map_of_mem hc

theorem earlyHighs_subset {x : ℚ} (hx : x ∈ s.earlyHighs bar t) : x ∈ s.highs := by
  rw [earlyHighs] at hx
  split_ifs at hx with hnil
  · rw [highs, hnil]
    exact hx
  · obtain ⟨c, hc, rfl⟩ := List.mem_map.mp hx
    exact mem_highs (List.mem_of_mem_filter hc)

theorem earlyLows_subset {x : ℚ} (hx : x ∈ s.earlyLows bar t) : x ∈ s.lows := by
  rw [earlyLows] at hx
  split_ifs at hx with hnil
  · rw [lows, hnil]
    exact hx
  · obtain ⟨c, hc, rfl⟩ := List.mem_map.mp hx
    exact mem_lows (List.mem_of_mem_filter hc)

/-- A high is one of the early ones or stands in the other snapshot too. -/
theorem high_early_or (h : AgreesFrom bar t s s') {x : ℚ} (hx : x ∈ s.highs) :
    x ∈ s.earlyHighs bar t ∨ x ∈ s'.highs := by
  by_cases hnil : s.candles = []
  · left
    rw [highs, hnil] at hx
    rw [earlyHighs, if_pos hnil]
    exact hx
  · rw [highs, orDefault, if_neg (List.map_eq_nil_iff.not.mpr hnil)] at hx
    obtain ⟨c, hc, rfl⟩ := List.mem_map.mp hx
    cases hearly : c.endsBy bar t with
    | true =>
        left
        rw [earlyHighs, if_neg hnil]
        exact List.mem_map_of_mem (List.mem_filter.mpr ⟨hc, hearly⟩)
    | false => exact .inr (mem_highs (h.mem hc hearly))

theorem low_early_or (h : AgreesFrom bar t s s') {x : ℚ} (hx : x ∈ s.lows) :
    x ∈ s.earlyLows bar t ∨ x ∈ s'.lows := by
  by_cases hnil : s.candles = []
  · left
    rw [lows, hnil] at hx
    rw [earlyLows, if_pos hnil]
    exact hx
  · rw [lows, orDefault, if_neg (List.map_eq_nil_iff.not.mpr hnil)] at hx
    obtain ⟨c, hc, rfl⟩ := List.mem_map.mp hx
    cases hearly : c.endsBy bar t with
    | true =>
        left
        rw [earlyLows, if_neg hnil]
        exact List.mem_map_of_mem (List.mem_filter.mpr ⟨hc, hearly⟩)
    | false => exact .inr (mem_lows (h.mem hc hearly))

/-- The early candles decide whether the extremes of one snapshot are within the other's. -/
theorem earlyWithin_iff (h : AgreesFrom bar t s s') :
    EarlyWithin bar t s s' ↔
      (s.outcomePrices reference).high ≤ (s'.outcomePrices reference).high ∧
        (s'.outcomePrices reference).low ≤ (s.outcomePrices reference).low := by
  have hhigh : (s.outcomePrices reference).high ≤ (s'.outcomePrices reference).high ↔
      ∀ x ∈ s.highs, ∃ y ∈ s'.highs, x ≤ y := largest_le_largest
  have hlow : (s'.outcomePrices reference).low ≤ (s.outcomePrices reference).low ↔
      ∀ x ∈ s.lows, ∃ y ∈ s'.lows, y ≤ x := smallest_le_smallest
  rw [hhigh, hlow]
  constructor
  · rintro ⟨hhighs, hlows⟩
    constructor
    · intro x hx
      obtain hearly | hboth := high_early_or h hx
      · exact hhighs x hearly
      · exact ⟨x, hboth, le_refl x⟩
    · intro x hx
      obtain hearly | hboth := low_early_or h hx
      · exact hlows x hearly
      · exact ⟨x, hboth, le_refl x⟩
  · rintro ⟨hhighs, hlows⟩
    exact ⟨fun x hx => hhighs x (earlyHighs_subset hx), fun x hx => hlows x (earlyLows_subset hx)⟩

end ExchangeSnapshot

namespace OutcomeRow

variable {bar t : ℕ}

open ExchangeSnapshot

theorem direction_ne_zero (action : Action) : action.direction ≠ 0 := by
  rw [Action.direction]
  split_ifs <;> norm_num

/-- An excursion determines its extreme. -/
theorem price_eq_of_return_eq {action : Action} {x y : ℚ} (hreference : 0 < reference)
    (h : action.direction * (x - reference) / reference =
      action.direction * (y - reference) / reference) : x = y := by
  have hdirection := direction_ne_zero action
  have hscaled := (div_left_inj' hreference.ne').mp h
  exact sub_left_inj.mp (mul_left_cancel₀ hdirection hscaled)

theorem outcomePrices_eq (hlast : s'.last = s.last)
    (hhigh : (s.outcomePrices reference).high = (s'.outcomePrices reference).high)
    (hlow : (s.outcomePrices reference).low = (s'.outcomePrices reference).low) :
    s'.outcomePrices reference = s.outcomePrices reference := by
  change OutcomePrices.mk reference s'.last (s'.outcomePrices reference).high
    (s'.outcomePrices reference).low = _
  rw [hlast, ← hhigh, ← hlow]
  rfl

/-- The candle from 100 to 160 is that of the decision; the other one lies before it. -/
def spikedSnapshot : ExchangeSnapshot := ⟨110, [⟨100, 112, 99⟩, ⟨40, 200, 99⟩]⟩

def calmSnapshot : ExchangeSnapshot := ⟨110, [⟨100, 112, 99⟩, ⟨40, 101, 99⟩]⟩

theorem positive_spikedSnapshot : spikedSnapshot.Positive := by
  constructor <;> simp [spikedSnapshot]

theorem positive_calmSnapshot : calmSnapshot.Positive := by
  constructor <;> simp [calmSnapshot]

theorem agreesFrom_spikedSnapshot : AgreesFrom 60 100 calmSnapshot spikedSnapshot :=
  ⟨rfl, rfl⟩

end OutcomeRow

end CryptoAlert
