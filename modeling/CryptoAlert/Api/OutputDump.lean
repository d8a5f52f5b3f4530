import CryptoAlert.Api.TerminalOutput
import CryptoAlert.Domain.ArtifactCodec

/-!
# The dump of a terminal output

A terminal output is persisted as its dump without nulls: a field of a model that is null is
left out, at every depth.
-/

namespace CryptoAlert

/-- The value under a key of an object. -/
def Json.get? (key : String) : Json → Option Json
  | .obj fields => fields.lookup key
  | _ => none

def Json.isObj : Json → Bool
  | .obj _ => true
  | _ => false

mutual

/-- `exclude_none`. -/
def Json.excludeNone : Json → Json
  | .obj fields => .obj (Json.excludeNoneFields fields)
  | .arr items => .arr (Json.excludeNoneItems items)
  | j => j

def Json.excludeNoneFields : List (String × Json) → List (String × Json)
  | [] => []
  | (key, value) :: rest =>
      match value with
      | .null => Json.excludeNoneFields rest
      | value => (key, Json.excludeNone value) :: Json.excludeNoneFields rest

def Json.excludeNoneItems : List Json → List Json
  | [] => []
  | item :: rest => Json.excludeNone item :: Json.excludeNoneItems rest

end

/-- A field that the dump leaves out where it is null. -/
def Json.optionalField {α : Type} (key : String) (dump : α → Json) : Option α → List (String × Json)
  | none => []
  | some a => [(key, dump a)]

namespace MarketSnapshot

def levelCodec : Codec PriceLevel :=
  ((Record.field "price" PositiveDecimal.codec).and <|
    Record.field "size" PositiveDecimal.codec).iso
    (fun l => (l.price, l.size)) (fun (price, size) => ⟨price, size⟩)
    (fun _ => rfl) |>.codec (by decide)

def tickerCodec : Codec Ticker :=
  ((Record.field "last" PositiveDecimal.codec).and <|
    (Record.field "bid" (PositiveDecimal.codec.nullable PositiveDecimal.dump_ne_null)).and <|
    (Record.field "ask" (PositiveDecimal.codec.nullable PositiveDecimal.dump_ne_null)).and <|
    Record.field "volume_24h" (NonNegativeDecimal.codec.nullable fun _ => nofun)).codec
    (by decide) |>.refine
    (fun (last, bid, ask, volume) =>
      if h : ∀ b ∈ bid, ∀ a ∈ ask, b.val.value ≤ a.val.value then some ⟨last, bid, ask, volume, h⟩
      else none)
    (fun t => (t.last, t.bid, t.ask, t.volume24h)) (fun t => dif_pos t.spread)

def orderBookCodec : Codec OrderBook :=
  ((Record.field "bids" levelCodec.list).and <| Record.field "asks" levelCodec.list).iso
    (fun b => (b.bids, b.asks)) (fun (bids, asks) => ⟨bids, asks⟩)
    (fun _ => rfl) |>.codec (by decide)

def candleCodec : Codec Candle :=
  ((Record.field "timestamp" DateTime.codec).and <|
    (Record.field "open" PositiveDecimal.codec).and <|
    (Record.field "high" PositiveDecimal.codec).and <|
    (Record.field "low" PositiveDecimal.codec).and <|
    (Record.field "close" PositiveDecimal.codec).and <|
    Record.field "volume" NonNegativeDecimal.codec).codec (by decide) |>.refine
    (fun (timestamp, openPrice, high, low, close, volume) =>
      if h : (openPrice.val.value ≤ high.val.value ∧ close.val.value ≤ high.val.value) ∧
          (low.val.value ≤ openPrice.val.value ∧ low.val.value ≤ close.val.value) then
        some ⟨timestamp, openPrice, high, low, close, volume, h.1, h.2⟩
      else none)
    (fun c => (c.timestamp, c.openPrice, c.high, c.low, c.close, c.volume))
    (fun c => dif_pos ⟨c.high_range, c.low_range⟩)

def codec : Codec MarketSnapshot :=
  ((Record.field "symbol" Symbol.codec).and <|
    (Record.field "fetched_at" DateTime.codec).and <|
    (Record.field "source_level" SourceLevel.codec).and <|
    (Record.field "ticker" (tickerCodec.nullable fun _ => nofun)).and <|
    (Record.field "mark_price" (PositiveDecimal.codec.nullable PositiveDecimal.dump_ne_null)).and <|
    (Record.field "index_price" (PositiveDecimal.codec.nullable PositiveDecimal.dump_ne_null)).and <|
    (Record.field "funding_rate" (Decimal.codec.nullable fun _ => nofun)).and <|
    (Record.field "open_interest" (NonNegativeDecimal.codec.nullable fun _ => nofun)).and <|
    (Record.field "order_book" (orderBookCodec.nullable fun _ => nofun)).and <|
    Record.field "candles" candleCodec.list).iso
    (fun m => (m.symbol, m.fetchedAt, m.sourceLevel, m.ticker, m.markPrice, m.indexPrice,
      m.fundingRate, m.openInterest, m.orderBook, m.candles))
    (fun (symbol, fetched, level, ticker, mark, index, funding, interest, book, candles) =>
      ⟨symbol, fetched, level, ticker, mark, index, funding, interest, book, candles⟩)
    (fun _ => rfl) |>.codec (by decide)

end MarketSnapshot

def OutputStatus.name : OutputStatus → String
  | succeeded => "succeeded"
  | blocked => "blocked"
  | failed => "failed"
  | cancelled => "cancelled"

def GraphExecutionError.modelDump (e : GraphExecutionError) : Json :=
  .obj <| [("code", .str e.code.val.text), ("retryable", .bool e.retryable)] ++
    Json.optionalField "provider" (fun t => .str t.val.text) e.provider ++
    Json.optionalField "error_type" (fun t => .str t.val.text) e.errorType ++
    Json.optionalField "attempt" (fun n => .num n.val) e.attempt ++
    Json.optionalField "endpoint" (fun t => .str t.val.text) e.endpoint ++
    Json.optionalField "fallback_from" (fun t => .str t.val.text) e.fallbackFrom ++
    Json.optionalField "primary_attempt" (fun n => .num n.val) e.primaryAttempt ++
    Json.optionalField "correlation_id" (fun t => .str t.text) e.correlationId ++
    Json.optionalField "field" (fun t => .str t.text) e.field ++
    Json.optionalField "expected" (fun t => .str t.text) e.expected ++
    Json.optionalField "actual" (fun t => .str t.text) e.actual

namespace TerminalGraphOutput

/-- `model_dump(mode="json", exclude_none=True)`. -/
def modelDump (t : TerminalGraphOutput) : Json :=
  .obj <| [("terminal_status", .str t.terminalStatus.name)] ++
    Json.optionalField "market_snapshot" (fun m => (MarketSnapshot.codec.dump m).excludeNone)
      t.marketSnapshot ++
    [("web_evidence", .arr (t.webEvidence.map fun e => (WebEvidence.codec.dump e).excludeNone))] ++
    Json.optionalField "artifact" (fun a => (Artifact.codec.dump a).excludeNone) t.artifact ++
    Json.optionalField "deep_research_artifact"
      (fun a => (DeepResearchArtifact.codec.dump a).excludeNone) t.deepResearchArtifact ++
    [("errors", .arr (t.errors.map GraphExecutionError.modelDump))]

variable (t : TerminalGraphOutput)

theorem get?_marketSnapshot : t.modelDump.get? "market_snapshot" =
    t.marketSnapshot.map fun m => (MarketSnapshot.codec.dump m).excludeNone := by
  obtain ⟨_, market, _, artifact, deep, _, _⟩ := t
  cases market <;> cases artifact <;> cases deep <;> rfl

theorem get?_webEvidence : t.modelDump.get? "web_evidence" =
    some (.arr (t.webEvidence.map fun e => (WebEvidence.codec.dump e).excludeNone)) := by
  obtain ⟨_, market, _, artifact, deep, _, _⟩ := t
  cases market <;> cases artifact <;> cases deep <;> rfl

theorem get?_artifact : t.modelDump.get? "artifact" =
    t.artifact.map fun a => (Artifact.codec.dump a).excludeNone := by
  obtain ⟨_, market, _, artifact, deep, _, _⟩ := t
  cases market <;> cases artifact <;> cases deep <;> rfl

theorem get?_deepResearchArtifact : t.modelDump.get? "deep_research_artifact" =
    t.deepResearchArtifact.map fun a => (DeepResearchArtifact.codec.dump a).excludeNone := by
  obtain ⟨_, market, _, artifact, deep, _, _⟩ := t
  cases market <;> cases artifact <;> cases deep <;> rfl

end TerminalGraphOutput

end CryptoAlert
