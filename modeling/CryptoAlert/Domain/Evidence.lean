import CryptoAlert.Domain.Policies

/-!
# The evidence gate on evidence of which parts are absent

The gate and the availability codes for any snapshot and any research bundle, present or not. An
absent snapshot lacks its optional fields for the availability codes but not for the gate.
-/

namespace CryptoAlert

/-- What is known when a decision is judged. -/
structure MarketEvidence where
  snapshot : Option MarketSnapshot
  research : Option ResearchBundle

namespace MarketEvidence

/-- `_missing_market_fields`. -/
def missingMarket (e : MarketEvidence) : List String :=
  e.snapshot.elim requiredMarketFields missingMarketFields

/-- `_missing_macro_fields`. -/
def missingMacro (e : MarketEvidence) : List String :=
  e.research.elim requiredMacroFields missingMacroFields

/-- `_missing_optional_fields`. -/
def missingOptional (e : MarketEvidence) : List String :=
  e.snapshot.elim [] missingOptionalFields

def isWebSearch (e : MarketEvidence) : Bool :=
  e.snapshot.any fun snapshot => snapshot.sourceLevel = .webSearchVerified

def missingRequired (e : MarketEvidence) (action : Action) : List String :=
  (if e.isWebSearch ∧ action ≠ .noTrade then ["exchange_native_market_data"] else []) ++
  (if action.isOpening then e.missingMarket ++ e.missingMacro else [])

/-- The smaller of two caps. -/
def minCap (a b : UnitInterval) : UnitInterval := if b.val < a.val then b else a

def confidenceCap (e : MarketEvidence) : UnitInterval :=
  minCap (if e.missingOptional ≠ [] then optionalEvidenceCap else fullCap)
    (if e.isWebSearch then webSearchContextCap else fullCap)

/-- `check_evidence_sufficiency`. -/
def checkSufficiency (e : MarketEvidence) (action : Action) : EvidenceVerdict :=
  let missing := e.missingRequired action
  { sufficient := missing.isEmpty
    confidenceCap := if missing.isEmpty then e.confidenceCap else zeroCap
    missingRequired := missing
    missingOptional := e.missingOptional
    warnings := e.missingOptional.map ("evidence.optional_missing:" ++ ·) ++
      (if e.isWebSearch then ["evidence.market_source:web_search_verified"] else [])
    consistent := by
      constructor
      · exact List.isEmpty_iff
      · intro h
        rw [h]
        rfl }

/-- `derive_unavailable_data`. -/
def unavailableData (e : MarketEvidence) (verifiedWebEvidenceCount : ℤ) : List String :=
  let missing := e.missingMarket ++ e.missingMacro ++
    e.snapshot.elim optionalMarketFields missingOptionalFields ++
    whenAll [(e.isWebSearch, "exchange_native_market_data"),
      (verifiedWebEvidenceCount ≤ 0, "verified_web_evidence")]
  dataAvailabilityOrder.filter missing.contains

/-- On a snapshot and a bundle that are there this is the gate of a run. -/
theorem checkSufficiency_some (snapshot : MarketSnapshot) (research : ResearchBundle)
    (action : Action) : checkSufficiency ⟨some snapshot, some research⟩ action =
      checkEvidenceSufficiency snapshot research action := by
  have hcap : confidenceCap ⟨some snapshot, some research⟩ = evidenceCap snapshot := by
    by_cases hweb : snapshot.sourceLevel = .webSearchVerified
    · by_cases hoptional : missingOptionalFields snapshot = []
      · simp [confidenceCap, evidenceCap, isWebSearch, missingOptional, minCap, hweb, hoptional,
          webSearchContextCap, fullCap]
        norm_num
      · simp [confidenceCap, evidenceCap, isWebSearch, missingOptional, minCap, hweb, hoptional,
          webSearchContextCap, optionalEvidenceCap]
        norm_num
    · by_cases hoptional : missingOptionalFields snapshot = []
      · simp [confidenceCap, evidenceCap, isWebSearch, missingOptional, minCap, hweb, hoptional]
      · simp [confidenceCap, evidenceCap, isWebSearch, missingOptional, minCap, hweb, hoptional,
          fullCap, optionalEvidenceCap]
        norm_num
  have hrequired : missingRequired ⟨some snapshot, some research⟩ action =
      CryptoAlert.missingRequired snapshot research action := by
    simp [missingRequired, CryptoAlert.missingRequired, isWebSearch, missingMarket, missingMacro]
  simp only [checkSufficiency, checkEvidenceSufficiency, hcap, hrequired]
  simp [missingOptional, isWebSearch]

end MarketEvidence

/-- What the first value has the second one has too. -/
def Kept {α : Type} (a b : Option α) : Prop := ∀ x, a = some x → b = some x

/-- The same snapshot with further fields. -/
structure MarketSnapshot.Extended (s s' : MarketSnapshot) : Prop where
  symbol : s'.symbol = s.symbol
  fetchedAt : s'.fetchedAt = s.fetchedAt
  sourceLevel : s'.sourceLevel = s.sourceLevel
  ticker : Kept s.ticker s'.ticker
  markPrice : Kept s.markPrice s'.markPrice
  indexPrice : Kept s.indexPrice s'.indexPrice
  fundingRate : Kept s.fundingRate s'.fundingRate
  openInterest : Kept s.openInterest s'.openInterest
  orderBook : s'.orderBook = s.orderBook ∨
    s.orderBook.all (fun b => b.bids.isEmpty || b.asks.isEmpty)
  candles : s'.candles = s.candles ∨ s.candles = []

/-- The same bundle with further fields. -/
structure ResearchBundle.Extended (r r' : ResearchBundle) : Prop where
  vix : Kept r.vix r'.vix
  realYield10y : Kept r.realYield10y r'.realYield10y
  dxy : Kept r.dxy r'.dxy
  macroEventScan : Kept r.macroEventScan r'.macroEventScan

namespace MarketEvidence

variable {e e' : MarketEvidence} {s s' : MarketSnapshot} {r r' : ResearchBundle}
  {action : Action} {field : String}

/-- The second collection contains everything that is available in the first. -/
structure Extended (e e' : MarketEvidence) : Prop where
  snapshot : ∀ s, e.snapshot = some s → ∃ s', e'.snapshot = some s' ∧ s.Extended s'
  research : ∀ r, e.research = some r → ∃ r', e'.research = some r' ∧ r.Extended r'

/-- More evidence never hurts. -/
structure Improves (action : Action) (e e' : MarketEvidence) : Prop where
  sufficient : (e.checkSufficiency action).sufficient = true →
    (e'.checkSufficiency action).sufficient = true
  cap : (e.checkSufficiency action).confidenceCap.val ≤
    (e'.checkSufficiency action).confidenceCap.val

/-- What the gate reports missing is unavailable. -/
def Reported (action : Action) (e : MarketEvidence) : Prop :=
  ∀ count, ∀ field ∈ (e.checkSufficiency action).missingRequired ++
    (e.checkSufficiency action).missingOptional, field ∈ e.unavailableData count

/-- A snapshot that is new to an action that opens nothing is no web search result and has its
optional fields. -/
def ArrivesComplete (action : Action) (e e' : MarketEvidence) : Prop :=
  e.snapshot = none → action.isOpening = false → ∀ s, e'.snapshot = some s →
    s.sourceLevel ≠ .webSearchVerified ∧ missingOptionalFields s = []

theorem mem_whenAll {entries : List (Bool × String)} :
    field ∈ whenAll entries ↔ (true, field) ∈ entries := by
  simp [whenAll]

theorem isNone_of_kept {α : Type} {a b : Option α} (h : Kept a b) (hb : b.isNone = true) :
    a.isNone = true := by
  cases a with
  | none => rfl
  | some x => rw [h x rfl] at hb; cases hb

theorem missingMarketFields_of_extended (h : s.Extended s') (hf : field ∈ missingMarketFields s') :
    field ∈ missingMarketFields s := by
  rw [missingMarketFields, mem_whenAll] at hf ⊢
  simp only [List.mem_cons, Prod.mk.injEq, List.not_mem_nil, or_false] at hf ⊢
  obtain ⟨hnone, rfl⟩ | ⟨hnone, rfl⟩ | ⟨hnone, rfl⟩ | ⟨hbook, rfl⟩ | ⟨hcandles, rfl⟩ := hf
  · exact .inl ⟨(isNone_of_kept h.ticker hnone.symm).symm, rfl⟩
  · exact .inr (.inl ⟨(isNone_of_kept h.markPrice hnone.symm).symm, rfl⟩)
  · exact .inr (.inr (.inl ⟨(isNone_of_kept h.indexPrice hnone.symm).symm, rfl⟩))
  · refine .inr (.inr (.inr (.inl ⟨?_, rfl⟩)))
    obtain heq | hbad := h.orderBook
    · rw [← heq]
      exact hbook
    · exact hbad.symm
  · refine .inr (.inr (.inr (.inr ⟨?_, rfl⟩)))
    obtain heq | hbad := h.candles
    · rw [← heq]
      exact hcandles
    · rw [hbad]
      rfl

theorem missingOptionalFields_of_extended (h : s.Extended s')
    (hf : field ∈ missingOptionalFields s') : field ∈ missingOptionalFields s := by
  rw [missingOptionalFields, mem_whenAll] at hf ⊢
  simp only [List.mem_cons, Prod.mk.injEq, List.not_mem_nil, or_false] at hf ⊢
  obtain ⟨hnone, rfl⟩ | ⟨hnone, rfl⟩ := hf
  · exact .inl ⟨(isNone_of_kept h.fundingRate hnone.symm).symm, rfl⟩
  · exact .inr ⟨(isNone_of_kept h.openInterest hnone.symm).symm, rfl⟩

theorem missingMacroFields_of_extended (h : r.Extended r') (hf : field ∈ missingMacroFields r') :
    field ∈ missingMacroFields r := by
  rw [missingMacroFields, mem_whenAll] at hf ⊢
  simp only [List.mem_cons, Prod.mk.injEq, List.not_mem_nil, or_false] at hf ⊢
  obtain ⟨hnone, rfl⟩ | ⟨hnone, rfl⟩ | ⟨hnone, rfl⟩ | ⟨hnone, rfl⟩ := hf
  · exact .inl ⟨(isNone_of_kept h.vix hnone.symm).symm, rfl⟩
  · exact .inr (.inl ⟨(isNone_of_kept h.realYield10y hnone.symm).symm, rfl⟩)
  · exact .inr (.inr (.inl ⟨(isNone_of_kept h.dxy hnone.symm).symm, rfl⟩))
  · exact .inr (.inr (.inr ⟨(isNone_of_kept h.macroEventScan hnone.symm).symm, rfl⟩))

theorem missingMarket_of_extended (h : e.Extended e') (hf : field ∈ e'.missingMarket) :
    field ∈ e.missingMarket := by
  cases hs : e.snapshot with
  | none =>
      rw [missingMarket, hs]
      cases hs' : e'.snapshot with
      | none =>
          rw [missingMarket, hs'] at hf
          exact hf
      | some s' =>
          rw [missingMarket, hs', Option.elim_some, missingMarketFields, mem_whenAll] at hf
          simp only [List.mem_cons, Prod.mk.injEq, List.not_mem_nil, or_false] at hf
          simp only [Option.elim_none, requiredMarketFields, List.mem_cons]
          tauto
  | some s =>
      obtain ⟨s', hs', hext⟩ := h.snapshot s hs
      rw [missingMarket, hs', Option.elim_some] at hf
      rw [missingMarket, hs, Option.elim_some]
      exact missingMarketFields_of_extended hext hf

theorem missingMacro_of_extended (h : e.Extended e') (hf : field ∈ e'.missingMacro) :
    field ∈ e.missingMacro := by
  cases hr : e.research with
  | none =>
      rw [missingMacro, hr]
      cases hr' : e'.research with
      | none =>
          rw [missingMacro, hr'] at hf
          exact hf
      | some r' =>
          rw [missingMacro, hr', Option.elim_some, missingMacroFields, mem_whenAll] at hf
          simp only [List.mem_cons, Prod.mk.injEq, List.not_mem_nil, or_false] at hf
          simp only [Option.elim_none, requiredMacroFields, List.mem_cons]
          tauto
  | some r =>
      obtain ⟨r', hr', hext⟩ := h.research r hr
      rw [missingMacro, hr', Option.elim_some] at hf
      rw [missingMacro, hr, Option.elim_some]
      exact missingMacroFields_of_extended hext hf

theorem isWebSearch_of_extended (h : e.Extended e') (hs : e.snapshot = some s) :
    e'.isWebSearch = e.isWebSearch := by
  obtain ⟨s', hs', hext⟩ := h.snapshot s hs
  simp only [isWebSearch, hs, hs', Option.any_some, hext.sourceLevel]

theorem missingOptional_of_extended (h : e.Extended e') (hs : e.snapshot = some s)
    (hf : field ∈ e'.missingOptional) : field ∈ e.missingOptional := by
  obtain ⟨s', hs', hext⟩ := h.snapshot s hs
  rw [missingOptional, hs', Option.elim_some] at hf
  rw [missingOptional, hs, Option.elim_some]
  exact missingOptionalFields_of_extended hext hf

theorem minCap_le_left {a b : UnitInterval} : (minCap a b).val ≤ a.val := by
  rw [minCap]
  split_ifs with h
  · exact h.le
  · exact le_refl _

theorem minCap_le_right {a b : UnitInterval} : (minCap a b).val ≤ b.val := by
  rw [minCap]
  split_ifs with h
  · exact le_refl _
  · exact not_lt.mp h

theorem le_minCap {a b c : UnitInterval} (ha : c.val ≤ a.val) (hb : c.val ≤ b.val) :
    c.val ≤ (minCap a b).val := by
  rw [minCap]
  split_ifs
  · exact hb
  · exact ha

/-- The cap falls with an optional field that is missing and with a web search source. -/
theorem confidenceCap_le (hweb : e'.isWebSearch = true → e.isWebSearch = true)
    (hoptional : e'.missingOptional ≠ [] → e.missingOptional ≠ []) :
    e.confidenceCap.val ≤ e'.confidenceCap.val := by
  apply le_minCap
  · apply le_trans minCap_le_left
    by_cases h : e'.missingOptional = []
    · rw [if_neg (not_not.mpr h)]
      exact Subtype.property (ite (e.missingOptional ≠ []) optionalEvidenceCap fullCap) |>.2
    · rw [if_pos h, if_pos (hoptional h)]
  · apply le_trans minCap_le_right
    by_cases h : e'.isWebSearch = true
    · rw [if_pos h, if_pos (hweb h)]
    · rw [if_neg h]
      exact Subtype.property (ite (e.isWebSearch = true) webSearchContextCap fullCap) |>.2

/-- Evidence that lacks no more and whose cap is no lower is no worse. -/
theorem improves_of_subset
    (hrequired : ∀ field ∈ e'.missingRequired action, field ∈ e.missingRequired action)
    (hcap : e.confidenceCap.val ≤ e'.confidenceCap.val) : Improves action e e' := by
  by_cases hmissing : e.missingRequired action = []
  · have hmissing' : e'.missingRequired action = [] := by
      rw [List.eq_nil_iff_forall_not_mem]
      intro field hf
      have := hrequired field hf
      rw [hmissing] at this
      exact List.not_mem_nil this
    refine ⟨fun _ => ?_, ?_⟩
    · simp only [checkSufficiency, hmissing', List.isEmpty_nil]
    · simp only [checkSufficiency, hmissing, hmissing', List.isEmpty_nil, if_true]
      exact hcap
  · have hempty : (e.missingRequired action).isEmpty = false := by
      rw [List.isEmpty_eq_false_iff]
      exact hmissing
    refine ⟨fun h => ?_, ?_⟩
    · simp only [checkSufficiency, hempty] at h
      cases h
    · simp only [checkSufficiency, hempty]
      exact (ite ((e'.missingRequired action).isEmpty = true) e'.confidenceCap zeroCap).2.1

theorem mem_missingRequired : field ∈ e.missingRequired action ↔
    (e.isWebSearch = true ∧ action ≠ .noTrade ∧ field = "exchange_native_market_data") ∨
      (action.isOpening = true ∧ (field ∈ e.missingMarket ∨ field ∈ e.missingMacro)) := by
  rw [missingRequired, List.mem_append]
  apply or_congr
  · split_ifs with h
    · simp [h]
    · simp only [List.not_mem_nil, false_iff]
      exact fun hf => h ⟨hf.1, hf.2.1⟩
  · split_ifs with h
    · simp [h]
    · simp [h]

/-- Further fields of a snapshot that is already there. -/
theorem improves_of_snapshot (h : e.Extended e') (hs : e.snapshot = some s) :
    Improves action e e' := by
  have hweb := isWebSearch_of_extended h hs
  apply improves_of_subset
  · intro field hf
    rw [mem_missingRequired] at hf ⊢
    obtain ⟨hsearch, haction, rfl⟩ | ⟨hopening, hmarket | hmacro⟩ := hf
    · exact .inl ⟨hweb ▸ hsearch, haction, rfl⟩
    · exact .inr ⟨hopening, .inl (missingMarket_of_extended h hmarket)⟩
    · exact .inr ⟨hopening, .inr (missingMacro_of_extended h hmacro)⟩
  · apply confidenceCap_le
    · intro hsearch
      rw [← hweb]
      exact hsearch
    · intro hne hnil
      apply hne
      rw [List.eq_nil_iff_forall_not_mem]
      intro field hf
      have := missingOptional_of_extended h hs hf
      rw [hnil] at this
      exact List.not_mem_nil this

/-- An action that opens a position is never judged sufficient without a snapshot. -/
theorem improves_of_opening (hs : e.snapshot = none) (hopening : action.isOpening = true) :
    Improves action e e' := by
  have hticker : "ticker" ∈ e.missingRequired action := by
    rw [mem_missingRequired]
    refine .inr ⟨hopening, .inl ?_⟩
    rw [missingMarket, hs]
    decide
  have hempty : (e.missingRequired action).isEmpty = false := by
    rw [List.isEmpty_eq_false_iff]
    exact List.ne_nil_of_mem hticker
  refine ⟨fun h => ?_, ?_⟩
  · simp only [checkSufficiency, hempty] at h
    cases h
  · simp only [checkSufficiency, hempty]
    exact (ite ((e'.missingRequired action).isEmpty = true) e'.confidenceCap zeroCap).2.1

theorem missingRequired_eq_nil (hopening : action.isOpening = false)
    (hweb : e.isWebSearch = false) : e.missingRequired action = [] := by
  rw [missingRequired, hweb, hopening]
  rfl

/-- Without a snapshot an action that opens nothing has the full cap. -/
theorem checkSufficiency_of_absent (hs : e.snapshot = none) (hopening : action.isOpening = false) :
    (e.checkSufficiency action).sufficient = true ∧
      (e.checkSufficiency action).confidenceCap = fullCap := by
  have hweb : e.isWebSearch = false := by rw [isWebSearch, hs]; rfl
  have hoptional : e.missingOptional = [] := by rw [missingOptional, hs]; rfl
  have hrequired := missingRequired_eq_nil hopening hweb
  refine ⟨?_, ?_⟩
  · simp only [checkSufficiency, hrequired, List.isEmpty_nil]
  · simp only [checkSufficiency, hrequired, List.isEmpty_nil, if_true, confidenceCap, hweb,
      hoptional]
    simp [minCap]

theorem improves_of_arrivesComplete (hs : e.snapshot = none)
    (hopening : action.isOpening = false) (hcomplete : ArrivesComplete action e e') :
    Improves action e e' := by
  have hweb : e'.isWebSearch = false := by
    cases hs' : e'.snapshot with
    | none => rw [isWebSearch, hs']; rfl
    | some s' =>
        rw [isWebSearch, hs', Option.any_some, decide_eq_false_iff_not]
        exact (hcomplete hs hopening s' hs').1
  have hoptional : e'.missingOptional = [] := by
    cases hs' : e'.snapshot with
    | none => rw [missingOptional, hs']; rfl
    | some s' =>
        rw [missingOptional, hs', Option.elim_some]
        exact (hcomplete hs hopening s' hs').2
  apply improves_of_subset
  · rw [missingRequired_eq_nil hopening hweb]
    exact fun field hf => absurd hf List.not_mem_nil
  · apply confidenceCap_le
    · rw [hweb]
      exact fun h => by cases h
    · exact fun hne => absurd hoptional hne

theorem arrivesComplete_of_improves (h : Improves action e e') : ArrivesComplete action e e' := by
  intro hs hopening s' hs'
  obtain ⟨hsufficient, hcap⟩ := checkSufficiency_of_absent hs hopening
  have hsufficient' := h.sufficient hsufficient
  have hcap' : (1 : ℚ) ≤ e'.confidenceCap.val := by
    have hle := h.cap
    rw [hcap] at hle
    simp only [checkSufficiency] at hsufficient' hle
    rw [if_pos hsufficient'] at hle
    exact hle
  constructor
  · intro hlevel
    have hweb : e'.isWebSearch = true := by
      rw [isWebSearch, hs', Option.any_some, decide_eq_true_eq]
      exact hlevel
    have hsmall := le_trans hcap' minCap_le_right
    rw [if_pos hweb] at hsmall
    norm_num [webSearchContextCap] at hsmall
  · by_contra hne
    have hoptional : e'.missingOptional ≠ [] := by
      rw [missingOptional, hs', Option.elim_some]
      exact hne
    have hsmall := le_trans hcap' minCap_le_left
    rw [if_pos hoptional] at hsmall
    norm_num [optionalEvidenceCap] at hsmall

/-- Every field that is missing for the gate has its place among the availability codes. -/
theorem mem_dataAvailabilityOrder
    (h : field = "exchange_native_market_data" ∨ field ∈ e.missingMarket ∨
      field ∈ e.missingMacro ∨ field ∈ e.missingOptional) : field ∈ dataAvailabilityOrder := by
  have hmarket : ∀ f ∈ requiredMarketFields, f ∈ dataAvailabilityOrder := by decide
  have hmacro : ∀ f ∈ requiredMacroFields, f ∈ dataAvailabilityOrder := by decide
  have hoptional : ∀ f ∈ optionalMarketFields, f ∈ dataAvailabilityOrder := by decide
  have hnone : Extended ⟨none, none⟩ e := ⟨by rintro s ⟨⟩, by rintro r ⟨⟩⟩
  obtain rfl | hf | hf | hf := h
  · decide
  · exact hmarket field (missingMarket_of_extended hnone hf)
  · exact hmacro field (missingMacro_of_extended hnone hf)
  · apply hoptional
    cases hs : e.snapshot with
    | none =>
        rw [missingOptional, hs] at hf
        exact absurd hf List.not_mem_nil
    | some s =>
        rw [missingOptional, hs, Option.elim_some, missingOptionalFields, mem_whenAll] at hf
        simp only [List.mem_cons, Prod.mk.injEq, List.not_mem_nil, or_false] at hf
        simp only [optionalMarketFields, List.mem_cons]
        tauto

theorem reported (action : Action) (e : MarketEvidence) : Reported action e := by
  intro count field hf
  simp only [checkSufficiency, List.mem_append] at hf
  have hsource : (e.isWebSearch = true ∧ field = "exchange_native_market_data") ∨
      field ∈ e.missingMarket ∨ field ∈ e.missingMacro ∨ field ∈ e.missingOptional := by
    obtain hf | hf := hf
    · obtain ⟨hweb, -, rfl⟩ | ⟨-, hf⟩ := mem_missingRequired.mp hf
      · exact .inl ⟨hweb, rfl⟩
      · exact .inr (hf.imp_right .inl)
    · exact .inr (.inr (.inr hf))
  have horder : field ∈ dataAvailabilityOrder :=
    mem_dataAvailabilityOrder (e := e) (hsource.imp_left And.right)
  rw [unavailableData, List.mem_filter, List.contains_iff_mem]
  refine ⟨horder, ?_⟩
  simp only [List.mem_append]
  obtain ⟨hweb, rfl⟩ | hmarket | hmacro | hoptional := hsource
  · refine .inr ?_
    rw [mem_whenAll, hweb]
    exact List.mem_cons_self
  · exact .inl (.inl (.inl hmarket))
  · exact .inl (.inl (.inr hmacro))
  · refine .inl (.inr ?_)
    cases hs : e.snapshot with
    | none =>
        rw [missingOptional, hs] at hoptional
        exact absurd hoptional List.not_mem_nil
    | some s =>
        rw [missingOptional, hs] at hoptional
        exact hoptional

/-- Evidence that is added never hurts, and what is missing is reported as unavailable: that is so
exactly when a snapshot that is new to an action that opens nothing arrives complete. -/
theorem evidence_monotone (action : Action) (e e' : MarketEvidence) (h : e.Extended e') :
    (Improves action e e' ∧ Reported action e ∧ Reported action e') ↔
      ArrivesComplete action e e' := by
  constructor
  · exact fun hlaw => arrivesComplete_of_improves hlaw.1
  · intro hcomplete
    refine ⟨?_, reported action e, reported action e'⟩
    cases hs : e.snapshot with
    | some s => exact improves_of_snapshot h hs
    | none =>
        by_cases hopening : action.isOpening = true
        · exact improves_of_opening hs hopening
        · rw [Bool.not_eq_true] at hopening
          exact improves_of_arrivesComplete hs hopening hcomplete

/-- A snapshot that a web search gave, with a funding rate and nothing else. -/
def searchedSnapshot : MarketSnapshot :=
  ⟨.btcUsdtSwap, ⟨"2026-07-01T00:00:00Z"⟩, .webSearchVerified, none, none, none,
    some ⟨false, 1, -4⟩, none, none, []⟩

theorem extended_searchedSnapshot : Extended ⟨none, none⟩ ⟨some searchedSnapshot, none⟩ :=
  ⟨by rintro s ⟨⟩, by rintro r ⟨⟩⟩

theorem evidence_monotone_searched :
    (Improves .openLong ⟨none, none⟩ ⟨some searchedSnapshot, none⟩ ∧
      Reported .openLong ⟨none, none⟩ ∧ Reported .openLong ⟨some searchedSnapshot, none⟩) ↔
      ArrivesComplete .openLong ⟨none, none⟩ ⟨some searchedSnapshot, none⟩ :=
  evidence_monotone .openLong ⟨none, none⟩ ⟨some searchedSnapshot, none⟩ extended_searchedSnapshot

/-- Holding a position is allowed without any evidence and no longer with a web search result. -/
theorem evidence_hurts :
    Extended ⟨none, none⟩ ⟨some searchedSnapshot, none⟩ ∧
      (checkSufficiency ⟨none, none⟩ .holdLong).sufficient = true ∧
      (checkSufficiency ⟨some searchedSnapshot, none⟩ .holdLong).sufficient = false ∧
      ¬Improves .holdLong ⟨none, none⟩ ⟨some searchedSnapshot, none⟩ := by
  have hlost : (checkSufficiency ⟨some searchedSnapshot, none⟩ .holdLong).sufficient = false := by
    decide
  refine ⟨extended_searchedSnapshot, by decide, hlost, fun h => ?_⟩
  rw [h.sufficient (by decide)] at hlost
  cases hlost

end MarketEvidence

end CryptoAlert
