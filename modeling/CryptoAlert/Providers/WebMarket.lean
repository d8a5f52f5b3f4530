import CryptoAlert.Domain.Analysis
import CryptoAlert.Domain.DeepResearch
import CryptoAlert.Providers.Spacing
import Mathlib

/-!
# The cited market snapshot

`WebSearchMarketCollector.collect` builds a market snapshot from the values that the extraction
agent cites. A value is accepted if its quote occurs in the evidence of the cited page and the
number pattern finds it in the quote. What the search returns and what the agent answers are
inputs here.
-/

namespace CryptoAlert.WebMarket

open Text

/-- The values that an extraction may cite, under the names of its fields. -/
inductive MarketField where
  | tickerLast | markPrice | indexPrice | fundingRate | openInterest
deriving DecidableEq, Repr

namespace MarketField

def name : MarketField → String
  | tickerLast => "ticker_last"
  | markPrice => "mark_price"
  | indexPrice => "index_price"
  | fundingRate => "funding_rate"
  | openInterest => "open_interest"

/-- The `positive` argument of `_validated_value`. -/
def isPrice : MarketField → Bool
  | tickerLast | markPrice | indexPrice => true
  | _ => false

/-- The `nonnegative` argument of `_validated_value`. -/
def isAmount : MarketField → Bool
  | openInterest => true
  | _ => false

end MarketField

structure CitedMarketValue where
  value : Decimal
  sourceUrl : HttpUrl
  quote : BoundedText 1 500

structure WebMarketExtraction where
  symbol : Symbol
  tickerLast : Option CitedMarketValue
  markPrice : Option CitedMarketValue
  indexPrice : Option CitedMarketValue
  fundingRate : Option CitedMarketValue
  openInterest : Option CitedMarketValue

def WebMarketExtraction.cited (e : WebMarketExtraction) : MarketField → Option CitedMarketValue
  | .tickerLast => e.tickerLast
  | .markPrice => e.markPrice
  | .indexPrice => e.indexPrice
  | .fundingRate => e.fundingRate
  | .openInterest => e.openInterest

structure ResearchUnavailable where
  message : String
  provider : String
  retryable : Bool
  errorType : String
deriving DecidableEq

/-- The ways in which a collection ends without a snapshot; a failed validation is a
`ValueError`. -/
inductive CollectError where
  | unavailable (error : ResearchUnavailable)
  | typeError (message : String)
  | keyError
  | valueError
deriving DecidableEq

def marketEvidenceError (errorType provider : String) (retryable : Bool) : CollectError :=
  .unavailable ⟨"Web Search market evidence did not satisfy the cited value contract", provider,
    retryable, errorType⟩

abbrev Evidence := WebEvidence HttpUrl

/-- `_evidence_provider`. -/
def evidenceProvider (evidence : List Evidence) : String :=
  let sources := (evidence.map (·.source)).dedup
  if sources ≠ [] ∧ sources.all
      (["builtin_web_search", "openai_builtin_web_search", "openai_web_search"].contains ·) then
    "builtin_web_search"
  else
    match sources with
    | [source] => source
    | _ => "web_search"

section Collecting

variable (u : UnicodeData)

/-- `re.search(r"\bUSD\b", text, re.IGNORECASE)`. -/
def mentionsUsd (before : List Char) : List Char → Bool
  | [] => false
  | c :: text =>
      (!before.head?.any u.isWord && ((c :: text).take 3).map foldCase == ['u', 's', 'd'] &&
        !((c :: text).drop 3).head?.any u.isWord) || mentionsUsd (c :: before) text

/-- `require_usd_price_evidence`. -/
def requireUsdPriceEvidence (evidence : List Evidence) : Except CollectError Unit :=
  if evidence.any fun item =>
      let excerpt := item.excerpt.toList
      (excerpt.contains '$' || mentionsUsd u [] excerpt) &&
        (numberMatches u excerpt).any fun m => decide (0 < m.number u) then
    .ok ()
  else
    .error (.unavailable ⟨"Web Search returned no cited USD price value",
      evidenceProvider evidence, true, "MissingCitedTickerCandidate"⟩)

/-- `evidence_by_url.get(url)`: the last item of the address. -/
def evidenceByUrl (evidence : List Evidence) (url : HttpUrl) : Option Evidence :=
  evidence.reverse.find? fun item => item.finalUrl.text == url.text

/-- `_validated_value`. -/
def validatedValue (field : MarketField) (cited : Option CitedMarketValue)
    (evidence : List Evidence) (provider : String) : Except CollectError (Option Decimal) :=
  match cited with
  | none => .ok none
  | some cited =>
      match evidenceByUrl evidence cited.sourceUrl with
      | none => .error (marketEvidenceError ("UnsupportedSource:" ++ field.name) provider false)
      | some item =>
          let quote := joinWords cited.quote.val.toList
          let excerpt := joinWords item.excerpt.toList
          if ¬ quote <:+: excerpt then
            .error (marketEvidenceError ("UnsupportedQuote:" ++ field.name) provider false)
          else
            match quoteSupportsValue u cited.value.value quote with
            | none => .error .keyError
            | some false =>
                .error (marketEvidenceError ("UnsupportedValue:" ++ field.name) provider false)
            | some true =>
                if field.isPrice ∧ cited.value.value ≤ 0 then
                  .error (marketEvidenceError ("NonPositiveValue:" ++ field.name) provider false)
                else if field.isAmount ∧ cited.value.value < 0 then
                  .error (marketEvidenceError ("NegativeValue:" ++ field.name) provider false)
                else .ok (some cited.value)

/-- The latest time of a non-empty list, the first of those that are equal. -/
def latest (clock : DateTime → ℕ) : List DateTime → Option DateTime
  | [] => none
  | t :: ts =>
      some (ts.foldl (fun best t => if clock best < clock t then t else best) t)

def PositiveDecimal.validate (d : Decimal) : Except CollectError PositiveDecimal :=
  if h : 0 < d.value then .ok ⟨d, h⟩ else .error .valueError

def NonNegativeDecimal.validate (d : Decimal) : Except CollectError NonNegativeDecimal :=
  if h : 0 ≤ d.value then .ok ⟨d, h⟩ else .error .valueError

theorem spread_unknown : ∀ b ∈ (none : Option PositiveDecimal),
    ∀ a ∈ (none : Option PositiveDecimal), b.val.value ≤ a.val.value :=
  fun _ hbid => by cases hbid

def webTicker (last : PositiveDecimal) : Ticker := ⟨last, none, none, none, spread_unknown⟩

def asMarketEvidence (item : Evidence) : Evidence :=
  { item with evidenceRelation := "market_snapshot" }

/-- `WebSearchMarketCollector.collect`, from what the search returns and what the agent answers
on; `clock` orders the times of the evidence. -/
def collect (clock : DateTime → ℕ) (symbol : String) (found : List Evidence)
    (answer : Option WebMarketExtraction) : Except CollectError MarketSnapshot := do
  let some validatedSymbol := Symbol.all.find? (·.name == symbol) | throw .valueError
  let evidence := found.map asMarketEvidence
  requireUsdPriceEvidence u evidence
  let provider := evidenceProvider evidence
  let some extraction := answer
    | throw (.typeError "web market agent did not return WebMarketExtraction")
  if extraction.symbol ≠ validatedSymbol then
    throw (marketEvidenceError "SymbolMismatch" provider false)
  let some tickerLast ← validatedValue u .tickerLast extraction.tickerLast evidence provider
    | throw (marketEvidenceError "MissingCitedTicker" provider true)
  let markPrice ← validatedValue u .markPrice extraction.markPrice evidence provider
  let indexPrice ← validatedValue u .indexPrice extraction.indexPrice evidence provider
  let fundingRate ← validatedValue u .fundingRate extraction.fundingRate evidence provider
  let openInterest ← validatedValue u .openInterest extraction.openInterest evidence provider
  let some fetchedAt := latest clock (evidence.map (·.fetchedAt)) | throw .valueError
  let last ← PositiveDecimal.validate tickerLast
  let markPrice ← markPrice.mapM PositiveDecimal.validate
  let indexPrice ← indexPrice.mapM PositiveDecimal.validate
  let openInterest ← openInterest.mapM NonNegativeDecimal.validate
  return {
    symbol := validatedSymbol, fetchedAt, sourceLevel := .webSearchVerified,
    ticker := some (webTicker last), markPrice, indexPrice, fundingRate, openInterest,
    orderBook := none, candles := [] }

end Collecting

/-- The values of a snapshot that a collection fills in. -/
def marketValue (s : MarketSnapshot) : MarketField → Option Decimal
  | .tickerLast => s.ticker.map (·.last.val)
  | .markPrice => s.markPrice.map (·.val)
  | .indexPrice => s.indexPrice.map (·.val)
  | .fundingRate => s.fundingRate
  | .openInterest => s.openInterest.map (·.val)

/-- The condition on a cited value and the item it cites: no number of the quote can be read in
two ways as far as the value is concerned, and where the quote states the value and occurs in the
excerpt, at some place it does so with a number that is not cut off by the ends of the quote. -/
structure CitedMarketValue.IsLegible (u : UnicodeData) (cited : CitedMarketValue)
    (item : Evidence) : Prop where
  plain : ∀ o ∈ occurrences u (joinWords cited.quote.val.toList), o.IsPlain u cited.value.value
  whole : IsStated u (joinWords cited.quote.val.toList) cited.value.value →
    joinWords cited.quote.val.toList <:+: joinWords item.excerpt.toList →
      ∃ left right, joinWords item.excerpt.toList =
          left ++ joinWords cited.quote.val.toList ++ right ∧
        ∃ o ∈ occurrences u (joinWords cited.quote.val.toList),
          o.value u = cited.value.value ∧ o.IsWhole u left right

section Soundness

variable {u : UnicodeData}

theorem go_eq_some_true {v : ℚ} {ms : List NumberMatch}
    (h : quoteSupportsValue.go u v ms = some true) : ∃ m ∈ ms, m.candidate u = some v := by
  induction ms with
  | nil => cases h
  | cons m ms ih =>
      rw [quoteSupportsValue.go] at h
      cases hm : m.candidate u with
      | none => simp [hm] at h
      | some q =>
          simp only [hm] at h
          by_cases hq : q = v
          · exact ⟨m, List.mem_cons_self, by rw [hm, hq]⟩
          · rw [if_neg hq] at h
            obtain ⟨m', hm', hv⟩ := ih h
            exact ⟨m', List.mem_cons_of_mem _ hm', hv⟩

theorem go_of_exists {v : ℚ} {ms : List NumberMatch} (hsome : ∀ m ∈ ms, (m.candidate u).isSome)
    (h : ∃ m ∈ ms, m.candidate u = some v) : quoteSupportsValue.go u v ms = some true := by
  induction ms with
  | nil => simp at h
  | cons m ms ih =>
      rw [quoteSupportsValue.go]
      obtain ⟨q, hq⟩ := Option.isSome_iff_exists.mp (hsome m List.mem_cons_self)
      by_cases hv : q = v
      · simp [hq, hv]
      · simp only [hq, if_neg hv]
        apply ih fun m' hm' => hsome m' (List.mem_cons_of_mem _ hm')
        obtain ⟨m', hm', hc⟩ := h
        rcases List.mem_cons.mp hm' with rfl | hm'
        · rw [hq, Option.some.injEq] at hc
          exact absurd hc hv
        · exact ⟨m', hm', hc⟩

/-- In a quote whose numbers are plain the check finds the value just where it is stated. -/
theorem quoteSupportsValue_iff (hwords : ∀ c, u.isDecimal c = true → u.isAlnum c = true)
    {quote : List Char} {v : ℚ} (hplain : ∀ o ∈ occurrences u quote, o.IsPlain u v) :
    quoteSupportsValue u v quote = some true ↔ IsStated u quote v := by
  obtain ⟨hsome, hiff⟩ := candidates_iff hwords [] quote hplain
  exact ⟨fun h => hiff.mp (go_eq_some_true h), fun h => go_of_exists hsome (hiff.mpr h)⟩

theorem validatedValue_eq_ok {field : MarketField} {c : Option CitedMarketValue}
    {evidence : List Evidence} {provider : String} {d : Decimal}
    (h : validatedValue u field c evidence provider = .ok (some d)) :
    ∃ cited item, c = some cited ∧ evidenceByUrl evidence cited.sourceUrl = some item ∧
      joinWords cited.quote.val.toList <:+: joinWords item.excerpt.toList ∧
        quoteSupportsValue u cited.value.value (joinWords cited.quote.val.toList) = some true ∧
          d = cited.value := by
  unfold validatedValue at h
  cases c with
  | none => cases h
  | some cited =>
      cases hitem : evidenceByUrl evidence cited.sourceUrl with
      | none => simp [hitem] at h
      | some item =>
          simp only [hitem] at h
          split at h
          · cases h
          · rename_i hquote
            split at h
            · cases h
            · cases h
            · rename_i hsupports
              split at h
              · cases h
              · split at h
                · cases h
                · cases h
                  exact ⟨cited, item, rfl, hitem, not_not.mp hquote, hsupports, rfl⟩

/-- A value that is accepted is stated by the item that it cites. -/
theorem isStated_of_validatedValue (hwords : ∀ c, u.isDecimal c = true → u.isAlnum c = true)
    (hspaces : ∀ c, isSpace c = true → u.isAlnum c = false) {cited : CitedMarketValue}
    {item : Evidence} (hlegible : cited.IsLegible u item)
    (hquote : joinWords cited.quote.val.toList <:+: joinWords item.excerpt.toList)
    (hsupports : quoteSupportsValue u cited.value.value (joinWords cited.quote.val.toList) =
      some true) : IsStated u item.excerpt.toList cited.value.value := by
  have hstated := (quoteSupportsValue_iff hwords hlegible.plain).mp hsupports
  obtain ⟨left, right, hsplit, o, ho, hv, hwhole⟩ := hlegible.whole hstated hquote
  obtain ⟨o', ho', hv'⟩ := exists_occurrence_of_isWhole ho hwhole
  rw [← isStated_joinWords_iff hspaces, hsplit]
  exact ⟨o', ho', hv'.trans hv⟩

theorem bind_eq_ok {α β : Type} {x : Except CollectError α} {f : α → Except CollectError β} {b : β}
    (h : (x >>= f) = .ok b) : ∃ a, x = .ok a ∧ f a = .ok b := by
  cases x with
  | error e => cases h
  | ok a => exact ⟨a, rfl, h⟩

theorem map_val_of_mapM {p : Decimal → Prop} {f : Decimal → Except CollectError {d // p d}}
    (hf : ∀ d r, f d = .ok r → r.val = d) {c : Option Decimal} {r : Option {d // p d}}
    (h : c.mapM f = .ok r) : r.map (·.val) = c := by
  cases c with
  | none =>
      cases h
      rfl
  | some d =>
      cases hd : f d with
      | error e =>
          rw [Option.mapM_some, hd] at h
          cases h
      | ok x =>
          rw [Option.mapM_some, hd] at h
          cases h
          exact congrArg some (hf d x hd)

theorem PositiveDecimal.validate_val {d : Decimal} {r : PositiveDecimal}
    (h : PositiveDecimal.validate d = .ok r) : r.val = d := by
  unfold PositiveDecimal.validate at h
  split at h
  · cases h
    rfl
  · cases h

theorem NonNegativeDecimal.validate_val {d : Decimal} {r : NonNegativeDecimal}
    (h : NonNegativeDecimal.validate d = .ok r) : r.val = d := by
  unfold NonNegativeDecimal.validate at h
  split at h
  · cases h
    rfl
  · cases h

/-- Every value of a snapshot is what the check made of the value cited for its field. -/
theorem collect_eq_ok {clock : DateTime → ℕ} {symbol : String} {found : List Evidence}
    {answer : Option WebMarketExtraction} {s : MarketSnapshot}
    (h : collect u clock symbol found answer = .ok s) :
    ∃ extraction, answer = some extraction ∧ ∀ field,
      validatedValue u field (extraction.cited field) (found.map asMarketEvidence)
        (evidenceProvider (found.map asMarketEvidence)) = .ok (marketValue s field) := by
  unfold collect at h
  split at h
  · dsimp only at h
    obtain ⟨_, _, h⟩ := bind_eq_ok h
    cases answer with
    | none => cases h
    | some extraction =>
        refine ⟨extraction, rfl, ?_⟩
        dsimp only at h
        split at h
        · cases h
        · obtain ⟨found, hfound, h⟩ := bind_eq_ok h
          cases found with
          | none => cases h
          | some tickerLast =>
              obtain ⟨markPrice, hmarkPrice, h⟩ := bind_eq_ok h
              obtain ⟨indexPrice, hindexPrice, h⟩ := bind_eq_ok h
              obtain ⟨fundingRate, hfundingRate, h⟩ := bind_eq_ok h
              obtain ⟨openInterest, hopenInterest, h⟩ := bind_eq_ok h
              split at h
              · obtain ⟨last, hlast, h⟩ := bind_eq_ok h
                obtain ⟨mark, hmark, h⟩ := bind_eq_ok h
                obtain ⟨index, hindex, h⟩ := bind_eq_ok h
                obtain ⟨amount, hamount, h⟩ := bind_eq_ok h
                cases h
                intro field
                cases field with
                | tickerLast =>
                    rw [← PositiveDecimal.validate_val hlast] at hfound
                    exact hfound
                | markPrice =>
                    rw [← map_val_of_mapM (fun _ _ => PositiveDecimal.validate_val) hmark]
                      at hmarkPrice
                    exact hmarkPrice
                | indexPrice =>
                    rw [← map_val_of_mapM (fun _ _ => PositiveDecimal.validate_val) hindex]
                      at hindexPrice
                    exact hindexPrice
                | fundingRate => exact hfundingRate
                | openInterest =>
                    rw [← map_val_of_mapM (fun _ _ => NonNegativeDecimal.validate_val) hamount]
                      at hopenInterest
                    exact hopenInterest
              · cases h
  · cases h

theorem evidenceByUrl_relabel (f : Evidence → Evidence) (hf : ∀ e, (f e).finalUrl = e.finalUrl)
    (evidence : List Evidence) (url : HttpUrl) :
    evidenceByUrl (evidence.map f) url = (evidenceByUrl evidence url).map f := by
  simp only [evidenceByUrl, ← List.map_reverse, List.find?_map, Function.comp_def, hf]

variable (u) in
/-- Every value of the snapshot is one that the item cited for it states. -/
def OnlyStated (found : List Evidence) (extraction : WebMarketExtraction) (s : MarketSnapshot) :
    Prop :=
  ∀ field d, marketValue s field = some d → ∃ cited item, extraction.cited field = some cited ∧
    evidenceByUrl found cited.sourceUrl = some item ∧ d = cited.value ∧
      IsStated u item.excerpt.toList d.value

variable (u) in
/-- A value that is cited with the whole excerpt, and stated in it, passes its check. -/
def AcceptsStated (found : List Evidence) (extraction : WebMarketExtraction) : Prop :=
  ∀ provider field cited item, extraction.cited field = some cited →
    evidenceByUrl found cited.sourceUrl = some item → cited.quote.val = item.excerpt →
      IsStated u item.excerpt.toList cited.value.value →
        (field.isPrice = true → 0 < cited.value.value) →
          validatedValue u field (some cited) (found.map asMarketEvidence) provider =
            .ok (some cited.value)

end Soundness

section Examples

def quotedItem (excerpt : String) : Evidence :=
  { query := "current BTC USD price market data live", finalUrl := ⟨"https://a.example/"⟩,
    redirectChain := [], httpStatus := none, fetchedAt := ⟨"2026-01-01T00:00:00Z"⟩,
    publishedAt := none, contentHash := "h", parserVersion := "p", title := "t", author := none,
    source := "builtin_web_search", excerpt, evidenceRelation := "supports" }

def quotedExtraction (quote : BoundedText 1 500) (value : Decimal) : WebMarketExtraction where
  symbol := .btcUsdtSwap
  tickerLast := some ⟨value, ⟨"https://a.example/"⟩, quote⟩
  markPrice := none
  indexPrice := none
  fundingRate := none
  openInterest := none

def priceBefore : BoundedText 1 500 := ⟨"BTC is at $65000 before noon", by decide⟩

def priceToday : BoundedText 1 500 := ⟨"BTC is at $65,000 today", by decide⟩

theorem ascii_words (c : Char) (h : UnicodeData.ascii.isDecimal c = true) :
    UnicodeData.ascii.isAlnum c = true := by
  have hdigit : c.isDigit = true := by
    by_contra hno
    simp [UnicodeData.isDecimal, UnicodeData.ascii, hno] at h
  simp [UnicodeData.ascii, Char.isAlphanum, hdigit]

theorem ascii_spaces (c : Char) (h : isSpace c = true) : UnicodeData.ascii.isAlnum c = false := by
  by_contra hno
  have hletter : (65 ≤ c.toNat ∧ c.toNat ≤ 90) ∨ (97 ≤ c.toNat ∧ c.toNat ≤ 122) ∨
      (48 ≤ c.toNat ∧ c.toNat ≤ 57) := by
    simp only [UnicodeData.ascii, Char.isAlphanum, Char.isAlpha, Char.isUpper, Char.isLower,
      Char.isDigit, Bool.not_eq_false, Bool.or_eq_true, Bool.and_eq_true, decide_eq_true_eq,
      UInt32.le_iff_toNat_le, ge_iff_le, or_assoc] at hno
    exact hno
  simp only [isSpace, isWhiteSpace, Bool.or_eq_true, Bool.and_eq_true, decide_eq_true_eq,
    beq_iff_eq] at h
  omega

end Examples

end CryptoAlert.WebMarket
