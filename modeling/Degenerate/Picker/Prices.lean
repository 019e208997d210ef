import Degenerate.Models

/-!
# Price Sources and the Evaluation of an Arb

Where the two tasks of the picker get prices from: the WebSocket messages of the
venues (`handle_poly_messages`, `handle_kalshi_messages`), the HTTP order books
(`seed_tob_from_http`, `get_execution_metrics_from_http`), and what
`evaluate_arb` makes of two top-of-book entries.

## Layout

- §1 WebSocket messages and the top of book that each one reports
- §2 HTTP order books, the seed and the execution metrics read from them
- §3 `needed_ask_price`, `needed_ask_size` and the decision of `evaluate_arb`
-/

namespace Degenerate.Picker

open Degenerate.Lib

variable {F : Type} [FloatOps F]

/-! ## §1 WebSocket messages -/

/-- `BestBidAsk` of the Polymarket market channel. -/
structure BestBidAsk where
  assetId : String
  bestBid : String
  bestAsk : String
  timestamp : String
  deriving DecidableEq

/-- One entry of a Polymarket `PriceChange`. -/
structure PriceChangeEntry where
  assetId : String
  bestBid : String
  bestAsk : String
  deriving DecidableEq

/-- The Polymarket messages that reach the picker; all others are ignored. -/
inductive PolyMessage where
  | bestBidAsk (best : BestBidAsk)
  | priceChange (changes : List PriceChangeEntry) (timestamp : String)
  | marketResolved (assetIds : List String)
  | other
  deriving DecidableEq

/-- `TickerUpdate` of Kalshi; absent price fields are empty strings. -/
structure TickerUpdate where
  marketTicker : String
  yesBidDollars : String
  yesAskDollars : String
  yesBidSizeFp : String
  yesAskSizeFp : String
  ts : ℤ
  sid : ℤ
  deriving DecidableEq

/-- `MarketLifecycleV2` of Kalshi. -/
structure MarketLifecycle where
  marketTicker : String
  eventType : String
  closeTs : Option ℤ
  deriving DecidableEq

/-- The Kalshi messages that reach the picker; all others are ignored. -/
inductive KalshiMessage where
  | tickerUpdate (ticker : TickerUpdate)
  | marketLifecycleV2 (event : MarketLifecycle)
  | other
  deriving DecidableEq

/-- The top of book of a Polymarket quote; an unparseable field skips the message. -/
def polyTop (bestBid bestAsk timestamp : String) : Option (TopOfBook F) :=
  match parseF32 bestBid, parseF32 bestAsk, parseI64 timestamp with
  | .ok bid, .ok ask, some ts =>
      some { TopOfBook.default with
        bestBid := bid, bestAsk := ask, spread := ask - bid, tobTimestampMs := ts }
  | _, _, _ => none

/-- The top of book of a Kalshi ticker update: prices must parse, sizes default to zero. -/
def tickerTop (t : TickerUpdate) : Option (TopOfBook F) :=
  match parseF32 t.yesBidDollars, parseF32 t.yesAskDollars with
  | .ok bid, .ok ask =>
      some {
        bestBid := bid
        bestAsk := ask
        -- an unparseable size does not skip the message
        bidSize := (parseF32 t.yesBidSizeFp).toOption.getD FloatOps.zero
        askSize := (parseF32 t.yesAskSizeFp).toOption.getD FloatOps.zero
        spread := ask - bid
        tobTimestampMs := secsToMillis t.ts
        sid := some t.sid }
  | _, _ => none

/-- The price updates of a Polymarket message, in order. -/
def polyUpdates : PolyMessage → List (MarketKey × TopOfBook F)
  | .bestBidAsk b =>
      ((polyTop b.bestBid b.bestAsk b.timestamp).map
        fun tob => (makeMarketKey b.assetId .polymarket, tob)).toList
  | .priceChange changes timestamp =>
      changes.filterMap fun c =>
        (polyTop c.bestBid c.bestAsk timestamp).map
          fun tob => (makeMarketKey c.assetId .polymarket, tob)
  | _ => []

/-! ## §2 HTTP order books -/

/-- A level of a Polymarket book. -/
structure Level where
  price : String
  size : String
  deriving DecidableEq

/-- `OrderBookSummary`: asks lowest first, bids highest first. -/
structure OrderBookSummary where
  asks : List Level
  bids : List Level
  timestamp : String
  deriving DecidableEq

/-- The Kalshi order book: the bids of both sides, ascending, as price and size. -/
structure KalshiOrderbook where
  yesDollars : Option (List (String × String))
  noDollars : Option (List (String × String))
  deriving DecidableEq

/-- The answers of the order-book endpoints: Polymarket by token, Kalshi by market. -/
structure HttpVenue where
  getOrderBook : String → Except String OrderBookSummary
  getMarketOrderbook : String → Except String KalshiOrderbook

/-- An endpoint that never answers. -/
def HttpVenue.down : HttpVenue where
  getOrderBook _ := .error "unreachable"
  getMarketOrderbook _ := .error "unreachable"

/-- The top of book that `seed_tob_from_http` stores for a leg, if it gets that far.
    `nowMs` is the local clock. -/
def seedTop (http : HttpVenue) (nowMs : ℤ) (leg : ArbMinifiedInfo) : Option (TopOfBook F) :=
  match leg.platform with
  | .polymarket =>
      match http.getOrderBook leg.tokenId with
      | .error _ => none
      | .ok summary =>
          -- without an ask nothing is stored, a missing bid is zero
          (summary.asks.head?.bind fun l => FloatOps.parse l.price).map fun ask =>
            let bid := (summary.bids.head?.bind fun l => FloatOps.parse l.price).getD FloatOps.zero
            { TopOfBook.default with
              bestAsk := ask
              bestBid := bid
              spread := ask - bid
              tobTimestampMs := (parseI64 summary.timestamp).getD nowMs }
  | .kalshi =>
      match http.getMarketOrderbook leg.marketId with
      | .error _ => none
      | .ok ob =>
          -- YES ask = 1 - best NO bid; YES bid = best YES bid; the last level is the best
          ((ob.noDollars.bind (·.getLast?)).bind fun l => FloatOps.parse l.1).map fun noBid =>
            let ask : F := FloatOps.one - noBid
            let bid := ((ob.yesDollars.bind (·.getLast?)).bind
              fun l => FloatOps.parse l.1).getD FloatOps.zero
            { TopOfBook.default with
              bestAsk := ask
              bestBid := bid
              spread := ask - bid
              tobTimestampMs := nowMs }

/-- Price and size of the level that a leg would be bought at on Kalshi: the best bid of
    the other side. -/
def kalshiMetrics (book : Option (List (String × String))) (side : String) :
    Except String (Decimal × Decimal) :=
  match book with
  | none => .error ("Kalshi " ++ side ++ " orderbook missing")
  | some levels =>
      match levels.getLast? with
      | none => .error ("Kalshi " ++ side ++ " bids empty")
      | some level =>
          match Decimal.fromStr level.1 with
          | none => .error ("Failed to parse Kalshi " ++ side ++ " bid price")
          | some bidPrice =>
              match Decimal.fromStr level.2 with
              | none => .error ("Failed to convert Kalshi " ++ side ++ " bid size")
              | some bidSize => .ok (Decimal.ofInt 1 - bidPrice, bidSize)

/-- What the executor has read of a Kalshi book: the complement of the best bid, and its size. -/
theorem kalshiMetrics_ok {book : Option (List (String × String))} {side : String}
    {m : Decimal × Decimal} (h : kalshiMetrics book side = .ok m) :
    ∃ level bidPrice bidSize, book.bind (·.getLast?) = some level ∧
      Decimal.fromStr level.1 = some bidPrice ∧ Decimal.fromStr level.2 = some bidSize ∧
      m = (Decimal.ofInt 1 - bidPrice, bidSize) := by
  unfold kalshiMetrics at h
  -- an error for every part that is missing or no decimal
  split at h
  · cases h
  · split at h
    · cases h
    · rename_i level hlast
      split at h
      · cases h
      · rename_i bidPrice hprice
        split at h
        · cases h
        · rename_i bidSize hsize
          cases h
          exact ⟨level, bidPrice, bidSize, hlast, hprice, hsize, rfl⟩

/-- `get_execution_metrics_from_http`. -/
def getExecutionMetricsFromHttp (http : HttpVenue) (arb : ArbMinifiedInfo) :
    Except String (Decimal × Decimal) :=
  match arb.platform with
  | .polymarket =>
      match http.getOrderBook arb.tokenId with
      | .error e => .error e
      | .ok summary =>
          match summary.asks.head? with
          | none => .error "Polymarket ask book is empty!"
          | some bestAsk =>
              match Decimal.fromStr bestAsk.price with
              | none => .error "Failed to parse Polymarket price into Decimal"
              | some price =>
                  match Decimal.fromStr bestAsk.size with
                  | none => .error "Failed to parse Polymarket size into Decimal"
                  | some size => .ok (price, size)
  | .kalshi =>
      match http.getMarketOrderbook arb.marketId with
      | .error _ => .error "err getting kalshi orderbook"
      | .ok ob =>
          match arb.leg with
          -- buying YES trades against the best NO bid, buying NO against the best YES bid
          | .left => kalshiMetrics ob.noDollars "NO"
          | .right => kalshiMetrics ob.yesDollars "YES"

/-! ## §3 Evaluation -/

/-- `needed_ask_price`. -/
def neededAskPrice (tob : TopOfBook F) (arb : ArbMinifiedInfo) : F :=
  match arb.platform with
  | .kalshi =>
      match arb.leg with
      | .left => tob.bestAsk
      | .right => FloatOps.one - tob.bestBid
  | .polymarket => tob.bestAsk

/-- `needed_ask_size`. -/
def neededAskSize (tob : TopOfBook F) (arb : ArbMinifiedInfo) : F :=
  match arb.platform with
  | .kalshi =>
      match arb.leg with
      | .left => tob.askSize
      | .right => tob.bidSize
  | .polymarket => tob.askSize

/-- A close time lies ahead of `now` by at most `window`. -/
def closesWithin (now window close : ℤ) : Bool := now < close && close ≤ now + window

/-- One hour, in milliseconds. -/
def oneHourMs : ℤ := 60 * 60 * 1000

/-- Ten minutes, in milliseconds. -/
def tenMinutesMs : ℤ := 10 * 60 * 1000

/-- The close-time guard of `evaluate_arb`. -/
def closesSoon (now : ℤ) (pair : ArbMinifiedInfoPair) : Bool :=
  match fromTimestampMillis pair.anchor.closeTimeMs, fromTimestampMillis pair.match.closeTimeMs with
  | some ac, some mc => closesWithin now tenMinutesMs ac || closesWithin now tenMinutesMs mc
  | _, _ => false

/-- The request that `evaluate_arb` builds from two top-of-book entries. -/
def executionRequest (cid : CorrelationId) (pair : ArbMinifiedInfoPair)
    (aTob mTob : TopOfBook F) : ExecutionRequest where
  correlationId := cid
  anchor := pair.anchor
  «match» := pair.match
  anchorWsPrice := (FloatOps.toDecimal (neededAskPrice aTob pair.anchor)).getD (.ofInt 0)
  matchWsPrice := (FloatOps.toDecimal (neededAskPrice mTob pair.match)).getD (.ofInt 0)
  anchorWsSize := (FloatOps.toDecimal (neededAskSize aTob pair.anchor)).getD (.ofInt 0)
  matchWsSize := (FloatOps.toDecimal (neededAskSize mTob pair.match)).getD (.ofInt 0)

/-- The part of `evaluate_arb` after the in-flight and cooldown guards: the request to
    send, if the pair is cheap enough and does not close soon. -/
def evaluate (now : ℤ) (cid : CorrelationId) (pair : ArbMinifiedInfoPair)
    (anchorTob matchTob : Option (TopOfBook F)) : Option ExecutionRequest :=
  if closesSoon now pair then none
  else
    match anchorTob, matchTob with
    | some aTob, some mTob =>
        -- sizes are not looked at: the executor caps the trade by them
        let totalCost := neededAskPrice aTob pair.anchor + neededAskPrice mTob pair.match
        if FloatOps.lt FloatOps.zero totalCost &&
            FloatOps.lt totalCost (FloatOps.ofDecimal ⟨95, 2⟩) then
          some (executionRequest cid pair aTob mTob)
        else none
    | _, _ => none

/-- What `evaluate_arb` has found when it builds a request: no leg closes soon, and both legs
    have an entry, at prices that are numbers with a sum in the band. -/
theorem evaluate_eq_some {now : ℤ} {cid : CorrelationId} {pair : ArbMinifiedInfoPair}
    {anchorTob matchTob : Option TopOfBook} {req : ExecutionRequest}
    (h : evaluate now cid pair anchorTob matchTob = some req) :
    closesSoon now pair = false ∧ ∃ aTob mTob a m, anchorTob = some aTob ∧ matchTob = some mTob ∧
      neededAskPrice aTob pair.anchor = .fin a ∧ neededAskPrice mTob pair.match = .fin m ∧
      0 < a.toRat + m.toRat ∧ a.toRat + m.toRat < 95 / 100 ∧
      req = executionRequest cid pair aTob mTob := by
  unfold evaluate at h
  split at h
  · cases h
  · rename_i hclose
    refine ⟨by simpa using hclose, ?_⟩
    split at h
    · rename_i aTob mTob
      simp only at h
      split at h
      · rename_i hband
        cases h
        rw [Bool.and_eq_true] at hband
        -- a special value on either side leaves no sum in the band
        cases ha : neededAskPrice aTob pair.anchor <;> cases hm : neededAskPrice mTob pair.match <;>
          rw [ha, hm] at hband
        case fin.fin a m =>
          refine ⟨aTob, mTob, a, m, rfl, rfl, ha, hm, ?_, ?_, rfl⟩
          · simpa [ExactFloat.lt, ExactFloat.zero] using hband.1
          · have hlimit : (⟨95, 2⟩ : Decimal).toRat = 95 / 100 := by norm_num [Decimal.toRat]
            simpa [ExactFloat.lt, hlimit] using hband.2
        all_goals simp [HAdd.hAdd, Add.add, ExactFloat.add, ExactFloat.lt, ExactFloat.zero] at hband
      · cases h
    · cases h

/-- A request carries the id it was evaluated for. -/
theorem evaluate_correlationId {now : ℤ} {cid : CorrelationId} {pair : ArbMinifiedInfoPair}
    {aTob mTob : Option (TopOfBook F)} {req : ExecutionRequest}
    (h : evaluate now cid pair aTob mTob = some req) : req.correlationId = cid := by
  unfold evaluate at h
  split at h
  · cases h
  · split at h
    · simp only at h
      split at h
      · cases h; rfl
      · cases h
    · cases h

end Degenerate.Picker
