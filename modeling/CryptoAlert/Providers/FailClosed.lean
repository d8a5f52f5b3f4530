import CryptoAlert.Lib.Table
import CryptoAlert.Providers.Okx

/-!
# Which answers of the exchange end the collection unclassified

Every check of the readers refuses with `ProviderUnavailable`. Three things pass them: `int` of an
infinite number raises an `OverflowError` of its own, a candle may lie beyond the calendar, and
only the domain compares the prices of a candle.
-/

namespace CryptoAlert.Okx

open Decoded (Value Fields)
open Refusals
open Text (UnicodeData)

/-- A refusal that the node ends the run with; the web search does not stand in for it. -/
def Raised.IsClassified (e : Raised) : Prop :=
  ∃ message exc, e = .unavailable message exc ∧ exc.allowsFallback = false

/-- A snapshot, or a classified failure. -/
def FailsClosed (result : Read CryptoAlert.MarketSnapshot) : Prop :=
  (∃ snapshot, result = .ok snapshot) ∨ ∃ e, result = .error e ∧ e.IsClassified

/-- A candle row of full length with an infinite number for its timestamp. -/
def StartsInfinite (row : Value) : Prop :=
  ∃ time rest, row = .list (time :: rest) ∧ 5 ≤ rest.length ∧ time.IsInfinite

section Readers

variable {u : UnicodeData} {shown : Value → String} {rawHash : (Endpoint → Fields) → String}
  {correlationId : String} {symbol : String} {payloads : Endpoint → Fields}

theorem isClassified_failure {endpoint message : String} :
    (failure correlationId endpoint message).IsClassified := ⟨message, _, rfl, rfl⟩

theorem data_raises {endpoint : Endpoint} {envelope : Fields} :
    Raises Raised.IsClassified (data shown correlationId endpoint envelope) := by
  unfold data
  dsimp only
  split
  · exact raises_error isClassified_failure
  · split
    · exact raises_ok
    · exact raises_error isClassified_failure

theorem decimal_raises {endpoint : Endpoint} {name : String} {positive : Bool} {value : Value} :
    Raises Raised.IsClassified (decimal u correlationId endpoint name positive value) := by
  unfold decimal
  dsimp only
  split
  · exact raises_error isClassified_failure
  · split
    · exact raises_error isClassified_failure
    · exact raises_ok

theorem nonNegativeDecimal_raises {endpoint : Endpoint} {name : String} {value : Value} :
    Raises Raised.IsClassified (nonNegativeDecimal u correlationId endpoint name value) := by
  refine decimal_raises.bind fun number _ => ?_
  split
  · exact raises_error isClassified_failure
  · exact raises_ok

theorem validateInstrumentIds_raises {endpoint : Endpoint} (rows : List Value) :
    Raises Raised.IsClassified
      (validateInstrumentIds shown correlationId endpoint symbol rows) := by
  induction rows with
  | nil => exact raises_ok
  | cons row rows ih =>
      cases row with
      | dict fields =>
          rw [validateInstrumentIds]
          split
          · split
            · exact ih
            · exact raises_error isClassified_failure
          · exact raises_error isClassified_failure
      | _ => exact raises_error isClassified_failure

theorem record_raises {endpoint : Endpoint} {rows : List Value} :
    Raises Raised.IsClassified (record correlationId endpoint rows) := by
  unfold record
  split
  · exact raises_ok
  · exact raises_error isClassified_failure

theorem field_raises {endpoint : Endpoint} {fields : Fields} {name : String} :
    Raises Raised.IsClassified (field correlationId endpoint fields name) := by
  unfold field
  split
  · exact raises_ok
  · exact raises_error isClassified_failure

theorem bookLevels_raises {book : Fields} {side : String} :
    Raises Raised.IsClassified (bookLevels u correlationId book side) := by
  refine field_raises.bind fun rows _ => ?_
  split
  · refine Raises.mapM fun row _ => ?_
    unfold bookLevel
    split
    · exact decimal_raises.bind fun _ _ => decimal_raises.bind fun _ _ => raises_ok
    · exact raises_error isClassified_failure
  · exact raises_error isClassified_failure

theorem rowsOf_raises {endpoint : Endpoint} :
    Raises Raised.IsClassified (rowsOf shown correlationId symbol payloads endpoint) := by
  refine data_raises.bind fun rows _ => ?_
  split
  · exact (validateInstrumentIds_raises rows).bind fun _ _ => raises_ok
  · exact raises_ok

/-- Nothing in front of the timestamps raises anything but a refusal. -/
theorem readQuotes_raises :
    Raises Raised.IsClassified (readQuotes u shown correlationId symbol payloads) := by
  unfold readQuotes
  dsimp only
  split
  · exact raises_error isClassified_failure
  · refine rowsOf_raises.bind fun _ _ => rowsOf_raises.bind fun _ _ => ?_
    refine rowsOf_raises.bind fun _ _ => rowsOf_raises.bind fun _ _ => ?_
    refine rowsOf_raises.bind fun _ _ => rowsOf_raises.bind fun _ _ => ?_
    refine rowsOf_raises.bind fun _ _ => record_raises.bind fun _ _ => ?_
    refine record_raises.bind fun _ _ => record_raises.bind fun _ _ => ?_
    refine record_raises.bind fun _ _ => record_raises.bind fun _ _ => ?_
    refine record_raises.bind fun _ _ => field_raises.bind fun _ _ => ?_
    refine decimal_raises.bind fun _ _ => field_raises.bind fun _ _ => ?_
    refine decimal_raises.bind fun _ _ => field_raises.bind fun _ _ => ?_
    refine decimal_raises.bind fun _ _ => field_raises.bind fun _ _ => ?_
    refine decimal_raises.bind fun _ _ => field_raises.bind fun _ _ => ?_
    refine decimal_raises.bind fun _ _ => bookLevels_raises.bind fun _ _ => ?_
    refine bookLevels_raises.bind fun _ _ => ?_
    split
    · exact raises_error isClassified_failure
    · exact raises_ok

theorem timestamp_infinite {endpoint : Endpoint} {value : Value} (h : value.IsInfinite) :
    timestamp u correlationId endpoint value = .error .overflowError := by
  match value, h with
  | .float (.infinite b), _ => rfl

theorem timestamp_raises {endpoint : Endpoint} {value : Value} (h : ¬ value.IsInfinite) :
    Raises Raised.IsClassified (timestamp u correlationId endpoint value) := by
  have hint : ∃ n, toInt u value = .ok n := by
    unfold toInt
    split
    · exact ⟨_, rfl⟩
    · exact ⟨_, rfl⟩
    · exact ⟨_, rfl⟩
    · exact absurd trivial h
    · split <;> exact ⟨_, rfl⟩
    · exact ⟨_, rfl⟩
  obtain ⟨n, hn⟩ := hint
  unfold timestamp
  rw [hn]
  refine Raises.bind raises_ok fun n' _ => ?_
  dsimp only
  split
  · exact raises_error isClassified_failure
  · exact raises_ok

theorem candle_infinite {row : Value} (h : StartsInfinite row) :
    candle u correlationId row = .error .overflowError := by
  obtain ⟨time, rest, rfl, hlength, htime⟩ := h
  match rest, hlength with
  | first :: second :: third :: fourth :: fifth :: _, _ =>
      rw [candle, timestamp_infinite htime]
      rfl

theorem candle_raises {row : Value} (h : ¬ StartsInfinite row) :
    Raises Raised.IsClassified (candle u correlationId row) := by
  unfold candle
  split
  · next time first second third fourth fifth rest =>
      have htime : ¬ time.IsInfinite := fun htime => h ⟨time, _, rfl, by simp, htime⟩
      refine (timestamp_raises htime).bind fun _ _ => ?_
      refine decimal_raises.bind fun _ _ => decimal_raises.bind fun _ _ => ?_
      refine decimal_raises.bind fun _ _ => decimal_raises.bind fun _ _ => ?_
      exact nonNegativeDecimal_raises.bind fun _ _ => raises_ok
  · exact raises_error isClassified_failure

theorem stamp_infinite {quotes : Quotes} {place : Endpoint × String} {value : Value}
    (hvalue : (quotes.record place.1).lookup place.2 = some value) (h : value.IsInfinite) :
    stamp u correlationId quotes place = .error .overflowError := by
  rw [stamp, field, hvalue]
  dsimp only
  refine bind_eq_error_iff.mpr (.inr ⟨value, rfl, ?_⟩)
  rw [timestamp_infinite h]
  rfl

theorem stamp_raises {quotes : Quotes} {place : Endpoint × String}
    (h : ∀ value, (quotes.record place.1).lookup place.2 = some value → ¬ value.IsInfinite) :
    Raises Raised.IsClassified (stamp u correlationId quotes place) := by
  refine field_raises.bind fun value hvalue => ?_
  have hfinite : ¬ value.IsInfinite := by
    unfold field at hvalue
    split at hvalue
    · next found hfound =>
        cases hvalue
        exact h _ hfound
    · cases hvalue
  exact (timestamp_raises hfinite).bind fun _ _ => raises_ok

/-- No timestamp that is reached is infinite. -/
structure IsFinite (u : UnicodeData) (correlationId : String) (quotes : Quotes) : Prop where
  candles : ∀ before row after, quotes.candleRows = before ++ row :: after →
    (∀ r ∈ before, ∃ c, candle u correlationId r = .ok c) → ¬ StartsInfinite row
  stamps : (∀ row ∈ quotes.candleRows, ∃ c, candle u correlationId row = .ok c) →
    ∀ before place after, stamped = before ++ place :: after →
      (∀ p ∈ before, ∃ t, stamp u correlationId quotes p = .ok t) →
        ∀ value, (quotes.record place.1).lookup place.2 = some value → ¬ value.IsInfinite

theorem candles_eq_ok {rows : List Value} {values : List Candle} :
    candles u correlationId rows = .ok values ↔
      List.Forall₂ (fun row c => candle u correlationId row = .ok c) rows values :=
  mapM_eq_ok_iff

theorem exists_candles_iff {rows : List Value} :
    (∃ values, candles u correlationId rows = .ok values) ↔
      ∀ row ∈ rows, ∃ c, candle u correlationId row = .ok c :=
  exists_mapM_iff

theorem not_isClassified_overflowError : ¬ Raised.overflowError.IsClassified := by
  rintro ⟨message, exc, h, -⟩
  cases h

/-- The readers raise refusals only when no infinite timestamp is reached. -/
theorem parse_raises_iff {clientTimestampMs : Option ℤ} {now : ℤ} :
    Raises Raised.IsClassified (parseOkxSnapshot u shown rawHash correlationId symbol payloads
      clientTimestampMs now) ↔
      ∀ quotes, readQuotes u shown correlationId symbol payloads = .ok quotes →
        IsFinite u correlationId quotes := by
  constructor
  · intro h quotes hquotes
    refine ⟨fun before row after hsplit hread hinfinite => ?_,
      fun hrows before place after hsplit hread value hvalue hinfinite => ?_⟩
    · refine not_isClassified_overflowError (h _ ?_)
      refine bind_eq_error_iff.mpr (.inr ⟨quotes, hquotes, bind_eq_error_iff.mpr (.inl ?_)⟩)
      exact mapM_eq_error_iff.mpr ⟨before, row, after, hsplit, hread, candle_infinite hinfinite⟩
    · obtain ⟨values, hvalues⟩ := exists_candles_iff.mpr hrows
      refine not_isClassified_overflowError (h _ ?_)
      refine bind_eq_error_iff.mpr (.inr ⟨quotes, hquotes, bind_eq_error_iff.mpr (.inr ?_)⟩)
      refine ⟨values, hvalues, bind_eq_error_iff.mpr (.inl ?_)⟩
      exact mapM_eq_error_iff.mpr
        ⟨before, place, after, hsplit, hread, stamp_infinite hvalue hinfinite⟩
  · intro hfinite
    refine readQuotes_raises.bind fun quotes hquotes => ?_
    have h := hfinite quotes hquotes
    have hcandles : Raises Raised.IsClassified (candles u correlationId quotes.candleRows) := by
      intro e he
      obtain ⟨before, row, after, hsplit, hread, hfails⟩ := mapM_eq_error_iff.mp he
      exact candle_raises (h.candles before row after hsplit hread) e hfails
    refine hcandles.bind fun values hvalues => ?_
    have hstamps : Raises Raised.IsClassified (stamped.mapM (stamp u correlationId quotes)) := by
      intro e he
      obtain ⟨before, place, after, hsplit, hread, hfails⟩ := mapM_eq_error_iff.mp he
      exact stamp_raises (h.stamps (exists_candles_iff.mp ⟨values, hvalues⟩) before place after
        hsplit hread) e hfails
    exact hstamps.bind fun _ _ => raises_ok

end Readers

def BookLevel.IsPositive (level : BookLevel) : Prop := 0 < level.price.value ∧ 0 < level.size.value

/-- The prices are positive, the volume is not negative. -/
structure Candle.IsPositive (c : Candle) : Prop where
  openPrice : 0 < c.openPrice.value
  high : 0 < c.high.value
  low : 0 < c.low.value
  close : 0 < c.close.value
  volume : 0 ≤ c.volume.value

structure Quotes.IsPositive (quotes : Quotes) : Prop where
  tickerLast : 0 < quotes.tickerLast.value
  markPrice : 0 < quotes.markPrice.value
  indexPrice : 0 < quotes.indexPrice.value
  openInterest : 0 < quotes.openInterest.value
  bids : ∀ level ∈ quotes.bids, level.IsPositive
  asks : ∀ level ∈ quotes.asks, level.IsPositive

section Positive

variable {u : UnicodeData} {shown : Value → String} {rawHash : (Endpoint → Fields) → String}
  {correlationId : String} {symbol : String} {payloads : Endpoint → Fields}

theorem decimal_positive {endpoint : Endpoint} {name : String} {value : Value} :
    Returns (fun d => 0 < d.value) (decimal u correlationId endpoint name true value) := by
  unfold decimal
  dsimp only
  split
  · exact returns_error
  · split
    · exact returns_error
    · next hsign => exact returns_ok (by simpa using hsign)

theorem nonNegativeDecimal_nonneg {endpoint : Endpoint} {name : String} {value : Value} :
    Returns (fun d => 0 ≤ d.value) (nonNegativeDecimal u correlationId endpoint name value) := by
  refine returns_bind fun number => ?_
  split
  · exact returns_error
  · next hsign => exact returns_ok (not_lt.mp hsign)

theorem candle_positive {row : Value} :
    Returns Candle.IsPositive (candle u correlationId row) := by
  unfold candle
  split
  · refine returns_bind fun _ => ?_
    refine decimal_positive.bind fun _ hopen => decimal_positive.bind fun _ hhigh => ?_
    refine decimal_positive.bind fun _ hlow => decimal_positive.bind fun _ hclose => ?_
    exact nonNegativeDecimal_nonneg.bind fun _ hvolume =>
      returns_ok ⟨hopen, hhigh, hlow, hclose, hvolume⟩
  · exact returns_error

theorem bookLevels_positive {book : Fields} {side : String} :
    Returns (fun levels => ∀ level ∈ levels, level.IsPositive)
      (bookLevels u correlationId book side) := by
  refine returns_bind fun rows => ?_
  split
  · refine Returns.mapM fun row _ => ?_
    unfold bookLevel
    split
    · exact decimal_positive.bind fun _ hprice => decimal_positive.bind fun _ hsize =>
        returns_ok ⟨hprice, hsize⟩
    · exact returns_error
  · exact returns_error

theorem readQuotes_positive :
    Returns Quotes.IsPositive (readQuotes u shown correlationId symbol payloads) := by
  unfold readQuotes
  dsimp only
  split
  · exact returns_error
  · iterate 14 refine returns_bind fun _ => ?_
    refine decimal_positive.bind fun _ hlast => returns_bind fun _ => ?_
    refine decimal_positive.bind fun _ hmark => returns_bind fun _ => ?_
    refine decimal_positive.bind fun _ hindex => returns_bind fun _ => ?_
    refine returns_bind fun _ => returns_bind fun _ => ?_
    refine decimal_positive.bind fun _ hinterest => ?_
    refine bookLevels_positive.bind fun _ hbids => bookLevels_positive.bind fun _ hasks => ?_
    split
    · exact returns_error
    · exact returns_ok ⟨hlast, hmark, hindex, hinterest, hbids, hasks⟩

end Positive

/-- The domain takes the candle: it lies before the year 10000, and its low and its high enclose
the other two prices. -/
structure Candle.Fits (c : Candle) : Prop where
  year : c.exchangeTimestampMs < yearLimit
  high : c.openPrice.value ≤ c.high.value ∧ c.close.value ≤ c.high.value
  low : c.low.value ≤ c.openPrice.value ∧ c.low.value ≤ c.close.value

/-- What the domain relies on besides the candles' own order. -/
structure MarketSnapshot.IsSound (s : MarketSnapshot) : Prop where
  symbol : s.symbol ∈ supportedSymbols
  sourceLevel : s.sourceLevel = "exchange_native"
  fetched : s.clientTimestampMs < yearLimit
  tickerLast : 0 < s.tickerLast.value
  markPrice : 0 < s.markPrice.value
  indexPrice : 0 < s.indexPrice.value
  openInterest : 0 < s.openInterest.value
  bids : ∀ level ∈ s.bids, level.IsPositive
  asks : ∀ level ∈ s.asks, level.IsPositive
  candles : ∀ c ∈ s.candles, c.IsPositive

section Domain

variable {dateTime : ℤ → DateTime}

open ProvidedSnapshot (positive? nonNegative? priceLevel? candle?)

theorem positive?_eq {d : Decimal} (h : 0 < d.value) : positive? d = some ⟨d, h⟩ := dif_pos h

theorem nonNegative?_eq {d : Decimal} (h : 0 ≤ d.value) : nonNegative? d = some ⟨d, h⟩ := dif_pos h

theorem priceLevel?_isSome {level : BookLevel} (h : level.IsPositive) :
    (priceLevel? (level.price, level.size)).isSome := by
  rw [priceLevel?, positive?_eq h.1, positive?_eq h.2]
  rfl

theorem candle?_isSome_iff {c : Candle} (h : c.IsPositive) (timestamp : DateTime) :
    (candle? (timestamp, c.openPrice, c.high, c.low, c.close, c.volume)).isSome ↔
      (c.openPrice.value ≤ c.high.value ∧ c.close.value ≤ c.high.value) ∧
        (c.low.value ≤ c.openPrice.value ∧ c.low.value ≤ c.close.value) := by
  simp only [candle?, positive?_eq h.openPrice, positive?_eq h.high, positive?_eq h.low,
    positive?_eq h.close, nonNegative?_eq h.volume, Option.bind_eq_bind, Option.bind_some]
  split
  · next hrange => exact ⟨fun _ => hrange, fun _ => rfl⟩
  · next hrange => exact ⟨(fun hsome => by cases hsome), fun h => absurd h hrange⟩

theorem fromTimestamp_eq {ms : ℤ} (h : ms < yearLimit) :
    fromTimestamp dateTime ms = .ok (dateTime ms) := if_pos h

theorem domainCandle_eq {c : Candle} (h : c.exchangeTimestampMs < yearLimit) :
    domainCandle dateTime c = .ok (dateTime c.exchangeTimestampMs, c.openPrice, c.high, c.low,
      c.close, c.volume) := by
  rw [domainCandle, fromTimestamp_eq h]
  rfl

theorem not_isClassified_dateError : ¬ Raised.dateError.IsClassified := by
  rintro ⟨message, exc, h, -⟩
  cases h

theorem not_isClassified_validationError : ¬ Raised.validationError.IsClassified := by
  rintro ⟨message, exc, h, -⟩
  cases h

/-- A candle as it is handed to the domain. -/
def Candle.handed (dateTime : ℤ → DateTime) (c : Candle) :
    DateTime × Decimal × Decimal × Decimal × Decimal × Decimal :=
  (dateTime c.exchangeTimestampMs, c.openPrice, c.high, c.low, c.close, c.volume)

theorem domainCandle_eq_ok_iff {c : Candle} :
    (∃ v, domainCandle dateTime c = .ok v) ↔ c.exchangeTimestampMs < yearLimit := by
  constructor
  · rintro ⟨v, hv⟩
    obtain ⟨t, ht, -⟩ := bind_eq_ok_iff.mp hv
    unfold fromTimestamp at ht
    split at ht
    · assumption
    · cases ht
  · intro h
    exact ⟨_, domainCandle_eq h⟩

/-- What the domain is handed. -/
def MarketSnapshot.provided (s : MarketSnapshot) (fetchedAt : DateTime)
    (candles : List (DateTime × Decimal × Decimal × Decimal × Decimal × Decimal)) :
    ProviderMarketSnapshot where
  symbol := s.symbol
  fetchedAt := fetchedAt
  sourceLevel := s.sourceLevel
  tickerLast := s.tickerLast
  markPrice := s.markPrice
  indexPrice := s.indexPrice
  fundingRate := s.fundingRate
  openInterest := s.openInterest
  bids := s.bids.map fun level => (level.price, level.size)
  asks := s.asks.map fun level => (level.price, level.size)
  candles := candles

/-- Only the candles decide whether the domain takes what it is handed. -/
theorem provided_toDomain_isSome_iff {s : MarketSnapshot} (h : s.IsSound) (fetchedAt : DateTime)
    (candles : List (DateTime × Decimal × Decimal × Decimal × Decimal × Decimal)) :
    (ProvidedSnapshot.provider (s.provided fetchedAt candles)).toDomain.isSome ↔
      ∀ c ∈ candles, (candle? c).isSome := by
  have hsymbol : ∃ symbol, Symbol.codec.read (.str s.symbol) = some symbol := by
    have hall : ∀ name ∈ supportedSymbols, (Symbol.codec.read (.str name)).isSome := by decide
    exact Option.isSome_iff_exists.mp (hall _ h.symbol)
  obtain ⟨symbol, hsymbol⟩ := hsymbol
  have hlevel : SourceLevel.codec.read (.str s.sourceLevel) = some .exchangeNative := by
    rw [h.sourceLevel]
    decide
  have hlevels : ∀ levels : List BookLevel, (∀ level ∈ levels, level.IsPositive) →
      ∃ r, (levels.map fun level => (level.price, level.size)).mapM priceLevel? = some r := by
    intro levels hlevels
    refine Option.isSome_iff_exists.mp (isSome_mapM_iff.mpr fun pair hpair => ?_)
    obtain ⟨level, hlevel, rfl⟩ := List.mem_map.mp hpair
    exact priceLevel?_isSome (hlevels level hlevel)
  obtain ⟨bids, hbids⟩ := hlevels s.bids h.bids
  obtain ⟨asks, hasks⟩ := hlevels s.asks h.asks
  rw [← isSome_mapM_iff]
  simp only [ProvidedSnapshot.toDomain, MarketSnapshot.provided, hsymbol, hlevel,
    positive?_eq h.tickerLast, positive?_eq h.markPrice, positive?_eq h.indexPrice,
    nonNegative?_eq h.openInterest.le, hbids, hasks, Option.bind_eq_bind, Option.bind_some]
  cases candles.mapM candle? <;> rfl

/-- The domain takes a snapshot exactly when all its candles fit. -/
theorem taken_eq_elim {taken : Option CryptoAlert.MarketSnapshot} :
    (match taken with
      | some snapshot => pure snapshot
      | none => throw .validationError) =
        taken.elim (Except.error Raised.validationError) .ok := by
  cases taken <;> rfl

theorem toDomain_eq_ok_iff {s : MarketSnapshot} (h : s.IsSound) :
    (∃ d, toDomainSnapshot dateTime s = .ok d) ↔ ∀ c ∈ s.candles, c.Fits := by
  have hyears : (∃ values, s.candles.mapM (domainCandle dateTime) = .ok values) ↔
      ∀ c ∈ s.candles, c.exchangeTimestampMs < yearLimit :=
    exists_mapM_iff.trans (forall₂_congr fun c _ => domainCandle_eq_ok_iff)
  have hdomain : (∀ c ∈ s.candles, c.exchangeTimestampMs < yearLimit) →
      ((∃ d, toDomainSnapshot dateTime s = .ok d) ↔
        ∀ c ∈ s.candles, (candle? (c.handed dateTime)).isSome) := by
    intro hyear
    have hvalues : s.candles.mapM (domainCandle dateTime) =
        .ok (s.candles.map (Candle.handed dateTime)) :=
      mapM_eq_map fun c hc => domainCandle_eq (hyear c hc)
    have hsome := provided_toDomain_isSome_iff h (dateTime s.clientTimestampMs)
      (s.candles.map (Candle.handed dateTime))
    rw [List.forall_mem_map] at hsome
    have hreduce : toDomainSnapshot dateTime s =
        ((ProvidedSnapshot.provider (s.provided (dateTime s.clientTimestampMs)
          (s.candles.map (Candle.handed dateTime)))).toDomain.elim (.error .validationError)
            .ok) := by
      rw [toDomainSnapshot, fromTimestamp_eq h.fetched, hvalues]
      exact taken_eq_elim
    rw [← hsome, hreduce]
    cases (ProvidedSnapshot.provider (s.provided (dateTime s.clientTimestampMs)
        (s.candles.map (Candle.handed dateTime)))).toDomain with
    | none =>
        refine ⟨?_, fun hd => by cases hd⟩
        rintro ⟨d, hd⟩
        cases hd
    | some d => exact ⟨fun _ => rfl, fun _ => ⟨d, rfl⟩⟩
  constructor
  · rintro ⟨d, hd⟩
    obtain ⟨fetchedAt, -, hrest⟩ := bind_eq_ok_iff.mp hd
    obtain ⟨values, hvalues, -⟩ := bind_eq_ok_iff.mp hrest
    have hyear := hyears.mp ⟨values, hvalues⟩
    intro c hc
    have hrange := (candle?_isSome_iff (h.candles c hc) _).mp ((hdomain hyear).mp ⟨d, hd⟩ c hc)
    exact ⟨hyear c hc, hrange.1, hrange.2⟩
  · intro hfits
    refine (hdomain fun c hc => (hfits c hc).year).mpr fun c hc => ?_
    exact (candle?_isSome_iff (h.candles c hc) _).mpr ⟨(hfits c hc).high, (hfits c hc).low⟩

/-- The errors of the domain are no refusals. -/
theorem toDomain_not_classified (s : MarketSnapshot) :
    Raises (fun e => ¬ e.IsClassified) (toDomainSnapshot dateTime s) := by
  have hdate : ∀ ms, Raises (fun e => ¬ e.IsClassified) (fromTimestamp dateTime ms) := by
    intro ms
    unfold fromTimestamp
    split
    · exact raises_ok
    · exact raises_error not_isClassified_dateError
  refine (hdate _).bind fun _ _ => ?_
  refine (Raises.mapM fun c _ => (hdate _).bind fun _ _ => raises_ok).bind fun _ _ => ?_
  dsimp only
  split
  · exact raises_ok
  · exact raises_error not_isClassified_validationError

theorem toDomain_raises_iff {s : MarketSnapshot} (h : s.IsSound) :
    Raises Raised.IsClassified (toDomainSnapshot dateTime s) ↔ ∀ c ∈ s.candles, c.Fits := by
  rw [← @toDomain_eq_ok_iff dateTime s h]
  constructor
  · intro hraises
    cases hresult : toDomainSnapshot dateTime s with
    | ok d => exact ⟨d, rfl⟩
    | error e => exact absurd (hraises e hresult) (toDomain_not_classified s e hresult)
  · rintro ⟨d, hd⟩ e he
    rw [hd] at he
    cases he

end Domain

section Collect

variable {u : UnicodeData} {shown : Value → String} {rawHash : (Endpoint → Fields) → String}
  {dateTime : ℤ → DateTime} {correlationId : String} {symbol : String}
  {payloads : Endpoint → Fields} {now : ℤ}

/-- What a parsed snapshot is made of. -/
theorem parse_eq_ok {s : MarketSnapshot}
    (h : parseOkxSnapshot u shown rawHash correlationId symbol payloads none now = .ok s) :
    ∃ quotes, readQuotes u shown correlationId symbol payloads = .ok quotes ∧
      candles u correlationId quotes.candleRows = .ok s.candles ∧
      (∃ stamps, stamped.mapM (stamp u correlationId quotes) = .ok stamps) ∧
      (s.symbol = symbol ∧ s.sourceLevel = "exchange_native" ∧ s.clientTimestampMs = now) ∧
      (s.tickerLast = quotes.tickerLast ∧ s.markPrice = quotes.markPrice ∧
        s.indexPrice = quotes.indexPrice ∧ s.openInterest = quotes.openInterest) ∧
      s.bids = quotes.bids ∧ s.asks = quotes.asks := by
  obtain ⟨quotes, hquotes, hrest⟩ := bind_eq_ok_iff.mp h
  obtain ⟨values, hvalues, hread⟩ := bind_eq_ok_iff.mp hrest
  obtain ⟨stamps, hstamps, hsnapshot⟩ := bind_eq_ok_iff.mp hread
  cases hsnapshot
  exact ⟨quotes, hquotes, hvalues, ⟨stamps, hstamps⟩, ⟨rfl, rfl, rfl⟩, ⟨rfl, rfl, rfl, rfl⟩, rfl,
    rfl⟩

theorem parse_sound {s : MarketSnapshot} (hsymbol : symbol ∈ supportedSymbols)
    (hclock : now < yearLimit)
    (h : parseOkxSnapshot u shown rawHash correlationId symbol payloads none now = .ok s) :
    s.IsSound := by
  obtain ⟨quotes, hquotes, hcandles, -, ⟨rfl, hlevel, rfl⟩, ⟨hlast, hmark, hindex, hinterest⟩,
    hbids, hasks⟩ := parse_eq_ok h
  have hpositive := readQuotes_positive quotes hquotes
  exact {
    symbol := hsymbol
    sourceLevel := hlevel
    fetched := hclock
    tickerLast := by rw [hlast]; exact hpositive.tickerLast
    markPrice := by rw [hmark]; exact hpositive.markPrice
    indexPrice := by rw [hindex]; exact hpositive.indexPrice
    openInterest := by rw [hinterest]; exact hpositive.openInterest
    bids := by rw [hbids]; exact hpositive.bids
    asks := by rw [hasks]; exact hpositive.asks
    candles := Returns.mapM (fun row _ => candle_positive) s.candles hcandles }

/-- What the answers are like when nothing escapes: no infinite timestamp is reached, and where all
rows and timestamps are read every candle fits. -/
structure Orderly (u : UnicodeData) (shown : Value → String) (correlationId symbol : String)
    (payloads : Endpoint → Fields) : Prop where
  finite : ∀ quotes, readQuotes u shown correlationId symbol payloads = .ok quotes →
    IsFinite u correlationId quotes
  fits : ∀ quotes, readQuotes u shown correlationId symbol payloads = .ok quotes →
    (∀ row ∈ quotes.candleRows, ∃ c, candle u correlationId row = .ok c) →
    (∀ place ∈ stamped, ∃ t, stamp u correlationId quotes place = .ok t) →
    ∀ row ∈ quotes.candleRows, ∀ c, candle u correlationId row = .ok c → c.Fits

/-- The two stages together, on seven objects. -/
theorem parsed_raises_iff (hsymbol : symbol ∈ supportedSymbols) (hclock : now < yearLimit) :
    Raises Raised.IsClassified (do
      let snapshot ← parseOkxSnapshot u shown rawHash correlationId symbol payloads none now
      toDomainSnapshot dateTime snapshot) ↔ Orderly u shown correlationId symbol payloads := by
  rw [raises_bind_iff, parse_raises_iff]
  constructor
  · rintro ⟨hfinite, hdomain⟩
    refine ⟨hfinite, fun quotes hquotes hrows hstamps row hrow c hc => ?_⟩
    obtain ⟨values, hvalues⟩ := exists_candles_iff.mpr hrows
    obtain ⟨stamps, hstamps⟩ := exists_mapM_iff.mpr hstamps
    obtain ⟨s, hs, hcandles⟩ : ∃ s, parseOkxSnapshot u shown rawHash correlationId symbol payloads
        none now = .ok s ∧ s.candles = values :=
      ⟨_, bind_eq_ok_iff.mpr ⟨quotes, hquotes, bind_eq_ok_iff.mpr ⟨values, hvalues,
        bind_eq_ok_iff.mpr ⟨stamps, hstamps, rfl⟩⟩⟩, rfl⟩
    have hfits := (toDomain_raises_iff (parse_sound hsymbol hclock hs)).mp (hdomain s hs)
    obtain ⟨c', hmem, hc'⟩ := Table.exists_of_forall₂' (candles_eq_ok.mp hvalues) hrow
    cases hc.symm.trans hc'
    exact hfits c (by rwa [hcandles])
  · intro h
    refine ⟨h.finite, fun s hs => ?_⟩
    rw [toDomain_raises_iff (parse_sound hsymbol hclock hs)]
    obtain ⟨quotes, hquotes, hcandles, hstamps, -⟩ := parse_eq_ok hs
    intro c hc
    obtain ⟨row, hrow, hread⟩ := Table.exists_of_forall₂ (candles_eq_ok.mp hcandles) hc
    exact h.fits quotes hquotes (exists_candles_iff.mp ⟨_, hcandles⟩) (exists_mapM_iff.mp hstamps)
      row hrow c hread

theorem failsClosed_iff {result : Read CryptoAlert.MarketSnapshot} :
    FailsClosed result ↔ Raises Raised.IsClassified result := by
  constructor
  · rintro (⟨snapshot, rfl⟩ | ⟨e, rfl, he⟩)
    · exact raises_ok
    · exact raises_error he
  · intro h
    cases result with
    | ok snapshot => exact .inl ⟨snapshot, rfl⟩
    | error e => exact .inr ⟨e, rfl, h e rfl⟩

theorem fetchOnce_eq {answers : Endpoint → Value} (h : ∀ e, answers e = .dict (payloads e)) :
    fetchOnce u shown rawHash correlationId symbol answers now =
      parseOkxSnapshot u shown rawHash correlationId symbol payloads none now := by
  have henvelopes : (Endpoint.all.mapM fun endpoint => do
      let payload ← payloadOf correlationId endpoint (answers endpoint)
      return (endpoint, payload)) = .ok (Endpoint.all.map fun e => (e, payloads e)) :=
    mapM_eq_map fun e _ => by rw [h e]; rfl
  have hlookup : (fun endpoint => ((Endpoint.all.map fun e => (e, payloads e)).lookup
      endpoint).getD []) = payloads := by
    funext e
    cases e <;> rfl
  rw [fetchOnce, henvelopes]
  exact congrArg (fun p => parseOkxSnapshot u shown rawHash correlationId symbol p none now) hlookup

/-- An answer that is not an object is refused before anything is read. -/
theorem fetchOnce_not_object {answers : Endpoint → Value}
    (h : ¬ ∃ payloads : Endpoint → Fields, ∀ e, answers e = .dict (payloads e)) :
    ∃ e, fetchOnce u shown rawHash correlationId symbol answers now = .error e ∧
      e.IsClassified := by
  have hobject : ∀ e, Raises Raised.IsClassified (payloadOf correlationId e (answers e)) := by
    intro e
    unfold payloadOf
    split
    · exact raises_ok
    · exact raises_error isClassified_failure
  have hraises : Raises Raised.IsClassified (Endpoint.all.mapM fun endpoint => do
      let payload ← payloadOf correlationId endpoint (answers endpoint)
      return (endpoint, payload)) :=
    Raises.mapM fun e _ => (hobject e).bind fun _ _ => raises_ok
  cases hresult : Endpoint.all.mapM fun endpoint => do
      let payload ← payloadOf correlationId endpoint (answers endpoint)
      return (endpoint, payload) with
  | error e => exact ⟨e, bind_eq_error_iff.mpr (.inl hresult), hraises e hresult⟩
  | ok envelopes =>
      refine absurd ?_ h
      have hall : ∀ e ∈ Endpoint.all, ∃ fields, answers e = .dict fields := by
        intro e he
        obtain ⟨pair, hpair⟩ := exists_mapM_iff.mp ⟨envelopes, hresult⟩ e he
        obtain ⟨fields, hfields, -⟩ := bind_eq_ok_iff.mp hpair
        unfold payloadOf at hfields
        split at hfields
        · next found hanswer => exact ⟨_, hanswer⟩
        · cases hfields
      have hmem : ∀ e : Endpoint, e ∈ Endpoint.all := by
        intro e
        cases e <;> decide
      exact ⟨fun e => (hall e (hmem e)).choose, fun e => (hall e (hmem e)).choose_spec⟩

end Collect

/-- The collection of a supported symbol ends with a snapshot or a classified failure exactly when
seven objects that are read to the end reach no infinite timestamp, no candle beyond the calendar
and no candle whose prices lie outside its own range. -/
theorem collection_fails_closed_iff (u : UnicodeData) (shown : Value → String)
    (rawHash : (Endpoint → Fields) → String) (dateTime : ℤ → DateTime) (correlationId : String)
    (symbol : Symbol) (answers : Endpoint → Value) (now : ℤ) (hclock : now < yearLimit) :
    FailsClosed (collectSnapshot u shown rawHash dateTime correlationId symbol.name answers now) ↔
      ∀ payloads : Endpoint → Fields, (∀ e, answers e = .dict (payloads e)) →
        Orderly u shown correlationId symbol.name payloads := by
  have hsymbol : symbol.name ∈ supportedSymbols := by cases symbol <;> decide
  rw [failsClosed_iff]
  by_cases hobjects : ∃ payloads : Endpoint → Fields, ∀ e, answers e = .dict (payloads e)
  · obtain ⟨payloads, hpayloads⟩ := hobjects
    rw [collectSnapshot, fetchOnce_eq hpayloads, parsed_raises_iff hsymbol hclock]
    constructor
    · intro h payloads' hpayloads'
      have hsame : payloads' = payloads := by
        funext e
        exact Value.dict.inj ((hpayloads' e).symm.trans (hpayloads e))
      rwa [hsame]
    · intro h
      exact h payloads hpayloads
  · obtain ⟨e, he, hclassified⟩ : ∃ e, fetchOnce u shown rawHash correlationId symbol.name answers
        now = .error e ∧ e.IsClassified := fetchOnce_not_object hobjects
    constructor
    · intro _ payloads hpayloads
      exact absurd ⟨payloads, hpayloads⟩ hobjects
    · intro _
      have herror : collectSnapshot u shown rawHash dateTime correlationId symbol.name answers
          now = .error e := bind_eq_error_iff.mpr (.inl he)
      rw [herror]
      exact raises_error hclassified

/-- Answers of the exchange with one candle. -/
def plainPayloads (candle : List Value) (endpoint : Endpoint) : Fields :=
  let rows : List Value := match endpoint with
    | .candles => [.list candle]
    | .book => [.dict [("bids", .list [.list [.int 99, .int 1]]),
        ("asks", .list [.list [.int 101, .int 1]]), ("ts", .int 1)]]
    | .index => [.dict [("instId", .str "BTC-USDT"), ("idxPx", .int 100), ("ts", .int 1)]]
    | _ => [.dict [("instId", .str "BTC-USDT-SWAP"), ("last", .int 100), ("markPx", .int 100),
        ("fundingRate", .int 0), ("fundingTime", .int 1), ("oi", .int 1), ("ts", .int 1)]]
  [("code", .int 0), ("data", .list rows)]

def plainAnswers (candle : List Value) (endpoint : Endpoint) : Value :=
  .dict (plainPayloads candle endpoint)

def plainCollect (candle : List Value) : Read CryptoAlert.MarketSnapshot :=
  collectSnapshot .ascii (fun _ => "") (fun _ => "") (fun _ => ⟨""⟩) "id" Symbol.btcUsdtSwap.name
    (plainAnswers candle) 1

theorem collection_fails_closed_iff_plain :
    Orderly .ascii (fun _ => "") "id" Symbol.btcUsdtSwap.name
      (plainPayloads [.int 1, .int 100, .int 110, .int 90, .int 100, .int 0]) := by
  refine (collection_fails_closed_iff .ascii (fun _ => "") (fun _ => "") (fun _ => ⟨""⟩) "id"
    .btcUsdtSwap (plainAnswers [.int 1, .int 100, .int 110, .int 90, .int 100, .int 0]) 1
    (by decide)).mp (.inl ?_) _ fun _ => rfl
  have hok : (plainCollect [.int 1, .int 100, .int 110, .int 90, .int 100, .int 0]).isOk =
      true := by
    decide +kernel
  cases hresult : plainCollect [.int 1, .int 100, .int 110, .int 90, .int 100, .int 0] with
  | ok snapshot => exact ⟨snapshot, hresult⟩
  | error e =>
      rw [hresult] at hok
      cases hok

/-- Neither a snapshot nor a refusal. -/
def escapes : Read CryptoAlert.MarketSnapshot → Bool
  | .ok _ | .error (.unavailable _ _) => false
  | _ => true

theorem not_failsClosed_of_escapes {result : Read CryptoAlert.MarketSnapshot}
    (h : escapes result = true) : ¬ FailsClosed result := by
  rintro (⟨snapshot, rfl⟩ | ⟨e, rfl, message, exc, rfl, -⟩) <;> cases h

/-- An open above the high, a candle in the year 10000 and an infinite timestamp. -/
theorem malformed_candles_escape :
    ¬ FailsClosed (plainCollect [.int 1, .int 100, .int 99, .int 90, .int 95, .int 0]) ∧
    ¬ FailsClosed (plainCollect [.int 253402300800000, .int 100, .int 110, .int 90, .int 100,
      .int 0]) ∧
    ¬ FailsClosed (plainCollect [.float (.infinite false), .int 100, .int 110, .int 90, .int 100,
      .int 0]) := by
  refine ⟨?_, ?_, ?_⟩ <;> exact not_failsClosed_of_escapes (by decide +kernel)

end CryptoAlert.Okx
