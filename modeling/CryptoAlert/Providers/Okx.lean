import CryptoAlert.Graph.Nodes
import CryptoAlert.Lib.Decoded
import CryptoAlert.Lib.Integers
import CryptoAlert.Lib.Refusals

/-!
# Market data of the exchange

The seven answers of the public endpoints, decoded, are read into one snapshot, and this one into
the snapshot of the domain. A reader refuses what it cannot use with `ProviderUnavailable`; what
else Python raises on the way is an outcome of its own. How a value looks in the text of an error
is the parameter `shown`, the text of a point in time the parameter `dateTime`.
-/

namespace CryptoAlert.Okx

open Decoded (Value Fields)
open Text (UnicodeData)

inductive Endpoint where
  | ticker | mark | index | funding | openInterest | book | candles
deriving DecidableEq, Repr

namespace Endpoint

def name : Endpoint → String
  | ticker => "ticker"
  | mark => "mark"
  | index => "index"
  | funding => "funding"
  | openInterest => "open_interest"
  | book => "book"
  | candles => "candles"

def all : List Endpoint := [ticker, mark, index, funding, openInterest, book, candles]

def hasInstrumentId : Endpoint → Bool
  | book | candles => false
  | _ => true

end Endpoint

def supportedSymbols : List String := ["BTC-USDT-SWAP", "ETH-USDT-SWAP", "SOL-USDT-SWAP"]

/-- `symbol.removesuffix("-SWAP")` -/
def withoutSwap (symbol : String) : String :=
  if symbol.toList.drop (symbol.length - 5) = "-SWAP".toList then
    String.ofList (symbol.toList.take (symbol.length - 5))
  else symbol

def instrumentIdForEndpoint : Endpoint → String → String
  | .index, symbol => withoutSwap symbol
  | _, symbol => symbol

/-- How the collection ends without a snapshot. -/
inductive Raised where
  | unavailable (message : String) (exc : ProviderUnavailable)
  /-- `int` of an infinite number. -/
  | overflowError
  /-- `datetime.fromtimestamp` of a point in time that is not before the year 10000. -/
  | dateError
  | validationError

abbrev Read := Except Raised

section Readers

variable (u : UnicodeData) (shown : Value → String) (correlationId : String)

def failure (endpoint message : String) : Raised :=
  .unavailable message ⟨"okx", endpoint, false, correlationId, none, false⟩

/-- `str(code) == "0"` -/
def isZero : Value → Bool
  | .str s => s == "0"
  | .int n => n == 0
  | _ => false

def data (endpoint : Endpoint) (envelope : Fields) : Read (List Value) :=
  let code := (envelope.lookup "code").getD .null
  if ¬ isZero code then
    .error (failure correlationId endpoint.name
      ("OKX " ++ endpoint.name ++ " returned code=" ++ shown code))
  else
    match envelope.lookup "data" with
    | some (.list (row :: rows)) => .ok (row :: rows)
    | _ => .error (failure correlationId endpoint.name
        ("OKX " ++ endpoint.name ++ " requires non-empty data"))

/-- Whether the decimal lies within the limits of the decimal module. -/
def isInLimits (d : Decimal) : Bool :=
  -1999999999999999997 ≤ d.exponent && d.leftDigits ≤ 1000000000000000000

/-- `Decimal(s)` where it is finite: white space around the number and underscores are passed over,
digits of any script are read. -/
def decimalOfText (s : String) : Option Decimal :=
  let digits := ((Text.stripText s.toList).filter (· != '_')).map fun c =>
    (u.decimal c).elim c Nat.digitChar
  (Decimal.ofText digits).filter isInLimits

/-- `Decimal(str(value))` where it is finite. -/
def decimalOf : Value → Option Decimal
  | .int n => some ⟨decide (n < 0), n.natAbs, 0⟩
  | .float (.finite _ text) => some text
  | .str s => decimalOfText u s
  | _ => none

def decimal (endpoint : Endpoint) (field : String) (positive : Bool) (value : Value) :
    Read Decimal :=
  let refused := failure correlationId endpoint.name ("OKX " ++ endpoint.name ++ " requires " ++
    (if positive then "finite positive " else "finite ") ++ field)
  match decimalOf u value with
  | none => .error refused
  | some number => if positive ∧ number.value ≤ 0 then .error refused else .ok number

def nonNegativeDecimal (endpoint : Endpoint) (field : String) (value : Value) : Read Decimal := do
  let number ← decimal u correlationId endpoint field false value
  if number.value < 0 then
    .error (failure correlationId endpoint.name
      ("OKX " ++ endpoint.name ++ " requires finite non-negative " ++ field))
  else return number

/-- `int(value)`; `none` for a `TypeError` or a `ValueError`. A text may have 4300 digits. -/
def toInt : Value → Except Raised (Option ℤ)
  | .bool b => .ok (some (if b then 1 else 0))
  | .int n => .ok (some n)
  | .float (.finite value _) => .ok (some (if value < 0 then ⌈value⌉ else ⌊value⌋))
  | .float (.infinite _) => .error .overflowError
  | .str s =>
      if s.toList.countP u.isDecimal ≤ 4300 then .ok (Text.readInteger u s.toList) else .ok none
  | _ => .ok none

def timestamp (endpoint : Endpoint) (value : Value) : Read ℤ := do
  let number ← toInt u value
  let timestamp := number.getD 0
  if timestamp ≤ 0 then
    .error (failure correlationId endpoint.name
      ("OKX " ++ endpoint.name ++ " timestamp must be finite positive"))
  else return timestamp

def record (endpoint : Endpoint) (rows : List Value) : Read Fields :=
  match rows.head? with
  | some (.dict fields) => .ok fields
  | _ => .error (failure correlationId endpoint.name
      ("invalid OKX " ++ endpoint.name ++ " response shape"))

def validateInstrumentIds (endpoint : Endpoint) (symbol : String) : List Value → Read Unit
  | [] => .ok ()
  | .dict fields :: rows =>
      let expected := instrumentIdForEndpoint endpoint symbol
      let actual := (fields.lookup "instId").getD .null
      match actual with
      | .str s =>
          if s = expected then validateInstrumentIds endpoint symbol rows
          else .error (failure correlationId endpoint.name ("OKX " ++ endpoint.name ++
            " instrument mismatch: expected instId=" ++ expected ++ ", got " ++ shown actual))
      | _ => .error (failure correlationId endpoint.name ("OKX " ++ endpoint.name ++
          " instrument mismatch: expected instId=" ++ expected ++ ", got " ++ shown actual))
  | _ :: _ => .error (failure correlationId endpoint.name ("invalid OKX " ++ endpoint.name ++
      " response shape: instrument row must be an object"))

def field (endpoint : Endpoint) (record : Fields) (name : String) : Read Value :=
  match record.lookup name with
  | some value => .ok value
  | none => .error (failure correlationId endpoint.name
      ("invalid OKX " ++ endpoint.name ++ " response shape: missing " ++ name))

structure BookLevel where
  price : Decimal
  size : Decimal

def bookLevel (side : String) (row : Value) : Read BookLevel :=
  match row with
  | .list (first :: second :: _) => do
      let price ← decimal u correlationId .book (side ++ " price") true first
      let size ← decimal u correlationId .book (side ++ " size") true second
      return ⟨price, size⟩
  | _ => .error (failure correlationId "book"
      ("invalid OKX book response shape: malformed " ++ side ++ " row"))

def bookLevels (book : Fields) (side : String) : Read (List BookLevel) := do
  let rows ← field correlationId .book book side
  match rows with
  | .list rows => rows.mapM (bookLevel u correlationId side)
  | _ => .error (failure correlationId "book"
      ("invalid OKX book response shape: " ++ side ++ " must be rows"))

structure Candle where
  exchangeTimestampMs : ℤ
  openPrice : Decimal
  high : Decimal
  low : Decimal
  close : Decimal
  volume : Decimal

def candle (row : Value) : Read Candle :=
  match row with
  | .list (time :: first :: second :: third :: fourth :: fifth :: _) => do
      let exchangeTimestampMs ← timestamp u correlationId .candles time
      let openPrice ← decimal u correlationId .candles "open" true first
      let high ← decimal u correlationId .candles "high" true second
      let low ← decimal u correlationId .candles "low" true third
      let close ← decimal u correlationId .candles "close" true fourth
      let volume ← nonNegativeDecimal u correlationId .candles "volume" fifth
      return ⟨exchangeTimestampMs, openPrice, high, low, close, volume⟩
  | _ => .error (failure correlationId "candles"
      "invalid OKX candles response shape: malformed candle row")

def candles (rows : List Value) : Read (List Candle) := rows.mapM (candle u correlationId)

end Readers

structure MarketSnapshot where
  provider : String := "okx"
  venue : String := "OKX"
  symbol : String
  indexSymbol : String
  operation : String := "market_snapshot"
  sourceLevel : String := "exchange_native"
  clientTimestampMs : ℤ
  clockSkewMs : ℤ
  rawHash : String
  normalizedSchemaVersion : String := "okx-market-snapshot/v1"
  freshnessVersion : String := "exchange-timestamp/v1"
  tickerLast : Decimal
  tickerTimestampMs : ℤ
  markPrice : Decimal
  indexPrice : Decimal
  fundingRate : Decimal
  openInterest : Decimal
  bids : List BookLevel
  asks : List BookLevel
  bookTimestampMs : ℤ
  candles : List Candle
  exchangeTimestampsMs : List (Endpoint × ℤ)

/-- What is read in front of the first timestamp. -/
structure Quotes where
  record : Endpoint → Fields
  tickerLast : Decimal
  markPrice : Decimal
  indexPrice : Decimal
  fundingRate : Decimal
  openInterest : Decimal
  bids : List BookLevel
  asks : List BookLevel
  candleRows : List Value

/-- The records whose timestamps are read behind the candles, and the names of the fields. -/
def stamped : List (Endpoint × String) :=
  [(.ticker, "ts"), (.mark, "ts"), (.index, "ts"), (.funding, "fundingTime"),
    (.openInterest, "ts"), (.book, "ts")]

section Parse

variable (u : UnicodeData) (shown : Value → String) (rawHash : (Endpoint → Fields) → String)
  (correlationId : String) (symbol : String) (payloads : Endpoint → Fields)

def rowsOf (endpoint : Endpoint) : Read (List Value) := do
  let rows ← data shown correlationId endpoint (payloads endpoint)
  if endpoint.hasInstrumentId then
    validateInstrumentIds shown correlationId endpoint symbol rows
  return rows

/-- The part of `parse_okx_snapshot` in front of the candles. -/
def readQuotes : Read Quotes := do
  if symbol ∉ supportedSymbols then
    throw (failure correlationId "snapshot" ("unsupported OKX SWAP symbol: " ++ symbol))
  let tickerRows ← rowsOf shown correlationId symbol payloads .ticker
  let markRows ← rowsOf shown correlationId symbol payloads .mark
  let indexRows ← rowsOf shown correlationId symbol payloads .index
  let fundingRows ← rowsOf shown correlationId symbol payloads .funding
  let openInterestRows ← rowsOf shown correlationId symbol payloads .openInterest
  let bookRows ← rowsOf shown correlationId symbol payloads .book
  let candleRows ← rowsOf shown correlationId symbol payloads .candles
  let ticker ← record correlationId .ticker tickerRows
  let mark ← record correlationId .mark markRows
  let index ← record correlationId .index indexRows
  let funding ← record correlationId .funding fundingRows
  let openInterest ← record correlationId .openInterest openInterestRows
  let book ← record correlationId .book bookRows
  let tickerLast ← decimal u correlationId .ticker "last" true
    (← field correlationId .ticker ticker "last")
  let markPrice ← decimal u correlationId .mark "markPx" true
    (← field correlationId .mark mark "markPx")
  let indexPrice ← decimal u correlationId .index "idxPx" true
    (← field correlationId .index index "idxPx")
  let fundingRate ← decimal u correlationId .funding "fundingRate" false
    (← field correlationId .funding funding "fundingRate")
  let openInterestAmount ← decimal u correlationId .openInterest "oi" true
    (← field correlationId .openInterest openInterest "oi")
  let bids ← bookLevels u correlationId book "bids"
  let asks ← bookLevels u correlationId book "asks"
  if bids.isEmpty ∨ asks.isEmpty then
    throw (failure correlationId "book" "OKX book requires both bids and asks")
  let records : Endpoint → Fields
    | .ticker => ticker
    | .mark => mark
    | .index => index
    | .funding => funding
    | .openInterest => openInterest
    | .book => book
    | .candles => []
  return ⟨records, tickerLast, markPrice, indexPrice, fundingRate, openInterestAmount, bids, asks,
    candleRows⟩

/-- One of the timestamps behind the candles. -/
def stamp (quotes : Quotes) (place : Endpoint × String) : Read (Endpoint × ℤ) := do
  let value ← field correlationId place.1 (quotes.record place.1) place.2
  let timestamp ← timestamp u correlationId place.1 value
  return (place.1, timestamp)

/-- `client_timestamp_ms or time.time_ns() // 1_000_000`, with the reading of the clock. -/
def observedAt (clientTimestampMs : Option ℤ) (now : ℤ) : ℤ :=
  match clientTimestampMs with
  | none => now
  | some t => if t = 0 then now else t

def parseOkxSnapshot (clientTimestampMs : Option ℤ) (now : ℤ) : Read MarketSnapshot := do
  let quotes ← readQuotes u shown correlationId symbol payloads
  let candleValues ← candles u correlationId quotes.candleRows
  let timestamps ← stamped.mapM (stamp u correlationId quotes)
  let timestamps := timestamps ++
    [(.candles, (candleValues.head?.map (·.exchangeTimestampMs)).getD 0)]
  let timestampOf : Endpoint → ℤ := fun endpoint => (timestamps.lookup endpoint).getD 0
  let observedAtMs := observedAt clientTimestampMs now
  return {
    symbol, indexSymbol := withoutSwap symbol, clientTimestampMs := observedAtMs,
    clockSkewMs := observedAtMs - timestampOf .ticker, rawHash := rawHash payloads,
    tickerLast := quotes.tickerLast, tickerTimestampMs := timestampOf .ticker,
    markPrice := quotes.markPrice, indexPrice := quotes.indexPrice,
    fundingRate := quotes.fundingRate, openInterest := quotes.openInterest,
    bids := quotes.bids, asks := quotes.asks, bookTimestampMs := timestampOf .book,
    candles := candleValues, exchangeTimestampsMs := timestamps }

end Parse

section Domain

variable (dateTime : ℤ → DateTime)

/-- The first millisecond of the year 10000. -/
def yearLimit : ℤ := 253402300800000

/-- `datetime.fromtimestamp(ms / 1000, tz=UTC)` of a point in time behind 1970. -/
def fromTimestamp (ms : ℤ) : Read DateTime :=
  if ms < yearLimit then .ok (dateTime ms) else .error .dateError

def domainCandle (candle : Candle) :
    Read (DateTime × Decimal × Decimal × Decimal × Decimal × Decimal) := do
  let timestamp ← fromTimestamp dateTime candle.exchangeTimestampMs
  return (timestamp, candle.openPrice, candle.high, candle.low, candle.close, candle.volume)

def toDomainSnapshot (snapshot : MarketSnapshot) : Read CryptoAlert.MarketSnapshot := do
  let fetchedAt ← fromTimestamp dateTime snapshot.clientTimestampMs
  let candles ← snapshot.candles.mapM (domainCandle dateTime)
  let provided : ProviderMarketSnapshot := {
    symbol := snapshot.symbol, fetchedAt, sourceLevel := snapshot.sourceLevel,
    tickerLast := snapshot.tickerLast, markPrice := snapshot.markPrice,
    indexPrice := snapshot.indexPrice, fundingRate := snapshot.fundingRate,
    openInterest := snapshot.openInterest,
    bids := snapshot.bids.map fun level => (level.price, level.size),
    asks := snapshot.asks.map fun level => (level.price, level.size), candles }
  match (ProvidedSnapshot.provider provided).toDomain with
  | some snapshot => return snapshot
  | none => throw .validationError

end Domain

/-- The check of `_get_public_json` on a decoded answer. -/
def payloadOf (correlationId : String) (endpoint : Endpoint) (answer : Value) : Read Fields :=
  match answer with
  | .dict fields => .ok fields
  | _ => .error (failure correlationId endpoint.name
      ("OKX " ++ endpoint.name ++ " response must be an object"))

section Collect

variable (u : UnicodeData) (shown : Value → String) (rawHash : (Endpoint → Fields) → String)
  (dateTime : ℤ → DateTime) (correlationId : String) (symbol : String)
  (answers : Endpoint → Value) (now : ℤ)

/-- `fetch_once` behind the transport, with the decoded answers. -/
def fetchOnce : Read MarketSnapshot := do
  let envelopes ← Endpoint.all.mapM fun endpoint => do
    let payload ← payloadOf correlationId endpoint (answers endpoint)
    return (endpoint, payload)
  parseOkxSnapshot u shown rawHash correlationId symbol
    (fun endpoint => (envelopes.lookup endpoint).getD []) none now

/-- What `collect_market_snapshot` makes of the answers of the exchange. -/
def collectSnapshot : Read CryptoAlert.MarketSnapshot := do
  let snapshot ← fetchOnce u shown rawHash correlationId symbol answers now
  toDomainSnapshot dateTime snapshot

end Collect

end CryptoAlert.Okx
