import CryptoAlert.Domain.Analysis
import Mathlib.Data.Int.Log
import Mathlib.Data.Rat.Floor

/-!
# The evidence gate and the risk policy

`check_evidence_sufficiency`, `derive_unavailable_data` and `apply_risk_policy`. Both verdicts
are built so that the validators of their models hold.
-/

namespace CryptoAlert

/-- The `g` format of a finite float: six significant digits, half to even, no trailing zeros. -/
def formatG (q : ℚ) : String :=
  if q ≤ 0 then "0"
  else
    let scaled := fun e : ℤ => q / (10 : ℚ) ^ (e - 5)
    let halfEven := fun x : ℚ =>
      let lower := ⌊x⌋
      if x - lower < 1 / 2 then lower
      else if x - lower > 1 / 2 then lower + 1
      else if lower % 2 = 0 then lower else lower + 1
    let e₀ := Int.log 10 q
    let m₀ := halfEven (scaled e₀)
    let (m, e) := if m₀ = 1000000 then (100000, e₀ + 1) else (m₀, e₀)
    let digits := (Nat.toDigits 10 m.toNat).rdropWhile (· == '0')
    if e < -4 ∨ 6 ≤ e then
      let exponent := Nat.toDigits 10 e.natAbs
      let padded := if exponent.length < 2 then '0' :: exponent else exponent
      String.ofList (digits.take 1 ++ (if digits.length > 1 then '.' :: digits.drop 1 else []) ++
        'e' :: (if e < 0 then '-' else '+') :: padded)
    else if e < 0 then
      String.ofList ('0' :: '.' :: List.replicate (-e - 1).toNat '0' ++ digits)
    else
      let whole := digits.take (e + 1).toNat
      let fraction := digits.drop (e + 1).toNat
      String.ofList (whole ++ List.replicate ((e + 1).toNat - whole.length) '0' ++
        (if fraction.isEmpty then [] else '.' :: fraction))

example : formatG (3152519739159347 / 4503599627370496) = "0.7" := by decide +kernel

def requiredMacroFields : List String := ["vix", "real_yield_10y", "dxy", "macro_event_scan"]

def requiredMarketFields : List String :=
  ["ticker", "mark_price", "index_price", "order_book", "candles"]

def optionalMarketFields : List String := ["funding_rate", "open_interest"]

def dataAvailabilityOrder : List String :=
  ["exchange_native_market_data"] ++ requiredMarketFields ++ optionalMarketFields ++
    requiredMacroFields ++ ["verified_web_evidence"]

/-- The double nearest to `0.70`. -/
def optionalEvidenceCap : UnitInterval :=
  ⟨3152519739159347 / 4503599627370496, by norm_num, by norm_num⟩

def webSearchContextCap : UnitInterval := ⟨1 / 2, by norm_num, by norm_num⟩

def fullCap : UnitInterval := ⟨1, by norm_num, le_refl 1⟩

def zeroCap : UnitInterval := ⟨0, le_refl 0, by norm_num⟩

theorem consistent_of_nothing_missing : (true = true ↔ ([] : List String) = []) ∧
    (true = false → zeroCap.val = 0) := by
  decide

theorem consistent_of_no_reasons : true = true ↔ ([] : List String) = [] := by
  decide

/-- A member of the list for each condition that holds. -/
def whenAll (entries : List (Bool × String)) : List String :=
  (entries.filter (·.1)).map (·.2)

def missingMarketFields (snapshot : MarketSnapshot) : List String :=
  whenAll [(snapshot.ticker.isNone, "ticker"), (snapshot.markPrice.isNone, "mark_price"),
    (snapshot.indexPrice.isNone, "index_price"),
    (snapshot.orderBook.all fun b => b.bids.isEmpty || b.asks.isEmpty, "order_book"),
    (snapshot.candles.isEmpty, "candles")]

def missingMacroFields (research : ResearchBundle) : List String :=
  whenAll [(research.vix.isNone, "vix"), (research.realYield10y.isNone, "real_yield_10y"),
    (research.dxy.isNone, "dxy"), (research.macroEventScan.isNone, "macro_event_scan")]

def missingOptionalFields (snapshot : MarketSnapshot) : List String :=
  whenAll [(snapshot.fundingRate.isNone, "funding_rate"),
    (snapshot.openInterest.isNone, "open_interest")]

/-- The required evidence that an action lacks. -/
def missingRequired (snapshot : MarketSnapshot) (research : ResearchBundle) (action : Action) :
    List String :=
  (if snapshot.sourceLevel = .webSearchVerified ∧ action ≠ .noTrade then
    ["exchange_native_market_data"] else []) ++
  (if action.isOpening then missingMarketFields snapshot ++ missingMacroFields research else [])

def evidenceCap (snapshot : MarketSnapshot) : UnitInterval :=
  if snapshot.sourceLevel = .webSearchVerified then webSearchContextCap
  else if missingOptionalFields snapshot ≠ [] then optionalEvidenceCap else fullCap

/-- The deterministic live-evidence gate, on the snapshot and the research of a run. -/
def checkEvidenceSufficiency (snapshot : MarketSnapshot) (research : ResearchBundle)
    (mainAction : Action) : EvidenceVerdict :=
  let missing := missingRequired snapshot research mainAction
  let missingOptional := missingOptionalFields snapshot
  { sufficient := missing.isEmpty
    confidenceCap := if missing.isEmpty then evidenceCap snapshot else zeroCap
    missingRequired := missing
    missingOptional := missingOptional
    warnings := missingOptional.map ("evidence.optional_missing:" ++ ·) ++
      (if snapshot.sourceLevel = .webSearchVerified then
        ["evidence.market_source:web_search_verified"] else [])
    consistent := by
      constructor
      · exact List.isEmpty_iff
      · intro h
        rw [h]
        rfl }

/-- The availability codes, in their stable order. -/
def deriveUnavailableData (snapshot : MarketSnapshot) (research : ResearchBundle)
    (verifiedWebEvidenceCount : ℕ) : List String :=
  let missing := missingMarketFields snapshot ++ missingMacroFields research ++
    missingOptionalFields snapshot ++
    whenAll [(snapshot.sourceLevel = .webSearchVerified, "exchange_native_market_data"),
      (verifiedWebEvidenceCount = 0, "verified_web_evidence")]
  dataAvailabilityOrder.filter missing.contains

structure RiskBudget where
  allowedSymbols : List Symbol
  maxLeverage : ℤ
  maxRiskPct : Decimal
  autoOrderEnabled : Bool

/-- The budget in force when none is given. -/
def RiskBudget.default : RiskBudget :=
  ⟨Symbol.all, 2, ⟨false, 25, -2⟩, false⟩

/-- The reasons of `apply_risk_policy`, in the order in which they are appended. -/
def blockedReasons (analysis : MarketAnalysis) (evidence : EvidenceVerdict)
    (budget : RiskBudget) : List String :=
  let opening := analysis.mainAction.isOpening
  whenAll [
    (!evidence.sufficient,
      "evidence.insufficient:" ++ ",".intercalate evidence.missingRequired),
    (!analysis.manualExecutionRequired, "execution.manual_required"),
    (opening && analysis.entryTrigger.isNone, "analysis.entry_trigger.required"),
    (opening && analysis.stopPrice.isNone, "analysis.stop_price.required"),
    (opening && Text.isBlank analysis.invalidation.toList, "analysis.invalidation.required"),
    (budget.autoOrderEnabled, "budget.auto_order_disabled"),
    (!budget.allowedSymbols.contains analysis.instrument,
      "budget.symbol_not_allowed:" ++ analysis.instrument.name),
    (analysis.maxLeverage.val > budget.maxLeverage,
      "budget.max_leverage_exceeded:actual=" ++ toString analysis.maxLeverage.val ++
        ",limit=" ++ toString budget.maxLeverage),
    (analysis.riskPct.val.value > budget.maxRiskPct.value,
      "budget.max_risk_pct_exceeded:actual=" ++ String.ofList analysis.riskPct.val.toText ++
        ",limit=" ++ String.ofList budget.maxRiskPct.toText),
    (evidence.sufficient && analysis.probability.val > evidence.confidenceCap.val,
      "analysis.confidence_cap_exceeded:actual=" ++ formatG analysis.probability.val ++
        ",limit=" ++ formatG evidence.confidenceCap.val)]

/-- The deterministic product and risk-budget rules; the evidence cap is passed on. -/
def applyRiskPolicy (analysis : MarketAnalysis) (evidence : EvidenceVerdict)
    (budget : RiskBudget) : RiskVerdict :=
  let reasons := blockedReasons analysis evidence budget
  { allowed := reasons.isEmpty
    blockedReasons := reasons
    warnings := evidence.warnings
    confidenceCap := evidence.confidenceCap
    consistent := List.isEmpty_iff }

theorem whenAll_eq_nil_iff {entries : List (Bool × String)} :
    whenAll entries = [] ↔ ∀ e ∈ entries, e.1 = false := by
  simp [whenAll, List.filter_eq_nil_iff]

/-- What an allowed verdict says about the analysis and the evidence. -/
theorem applyRiskPolicy_allowed {analysis : MarketAnalysis} {evidence : EvidenceVerdict}
    {budget : RiskBudget} (h : (applyRiskPolicy analysis evidence budget).allowed = true) :
    evidence.sufficient = true ∧ analysis.probability.val ≤ evidence.confidenceCap.val := by
  have hall := whenAll_eq_nil_iff.mp (List.isEmpty_iff.mp h)
  simp only [List.mem_cons, List.not_mem_nil, or_false, forall_eq_or_imp, forall_eq] at hall
  obtain ⟨hevidence, -, -, -, -, -, -, -, -, hcap⟩ := hall
  have hsufficient : evidence.sufficient = true := by simpa using hevidence
  refine ⟨hsufficient, ?_⟩
  simpa [hsufficient] using hcap

end CryptoAlert
