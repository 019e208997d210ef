import Degenerate.Picker.System

/-!
# Optimistic and HTTP Execution

The executor takes price and size of a leg either from the request, that is from the
top of book that a WebSocket message left, or from the order book over HTTP.  Here
both come from one book that has not changed since it was reported.

On Kalshi a ticker update carries the prices and the sizes of both sides, and the two
modes agree.  The messages of Polymarket carry no sizes: `ask_size` keeps its default,
zero, and the optimistic mode sees a market without liquidity.

## Main Results

- `modes_agree_iff`: the two modes agree exactly when each leg can be bought at a level
  whose size was reported
- `optimistic_skips_polymarket`
-/

namespace Degenerate.Picker

open Degenerate.Lib

/-! ## §1 A book and the messages about it -/

/-- The text reads as the number, where a `Decimal` is read. -/
def DecimalText (text : String) (q : ℚ) : Prop :=
  ∃ d, Decimal.fromStr text = some d ∧ d.toRat = q

/-- The text reads as the number, where an `f32` is read. -/
def F32Text (text : String) (q : ℚ) : Prop :=
  ∃ d, ExactFloat.parse text = some (.fin d) ∧ d.toRat = q

/-- A Polymarket quote gives the best prices of the book, on the sides that are not empty. -/
structure QuotesSummary (summary : OrderBookSummary) (bestBid bestAsk : String) : Prop where
  ask : ∀ level ∈ summary.asks.head?, ∃ q, DecimalText level.price q ∧ F32Text bestAsk q
  bid : ∀ level ∈ summary.bids.head?, ∃ q, DecimalText level.price q ∧ F32Text bestBid q

/-- What a Polymarket message says about an asset is true of the book. -/
def PolyMessage.Truthful (assetId : String) (summary : OrderBookSummary) : PolyMessage → Prop
  | .bestBidAsk b => b.assetId = assetId → QuotesSummary summary b.bestBid b.bestAsk
  | .priceChange changes _ =>
      ∀ c ∈ changes, c.assetId = assetId → QuotesSummary summary c.bestBid c.bestAsk
  | _ => True

/-- A ticker update gives price and size of the best bids of the book, the bid for NO as the
    ask for YES, on the sides that are not empty. -/
structure TickerUpdate.Truthful (ob : KalshiOrderbook) (t : TickerUpdate) : Prop where
  yes : ∀ level ∈ ob.yesDollars.bind (·.getLast?), ∃ q n, DecimalText level.1 q ∧
    F32Text t.yesBidDollars q ∧ DecimalText level.2 n ∧ F32Text t.yesBidSizeFp n
  no : ∀ level ∈ ob.noDollars.bind (·.getLast?), ∃ q n, DecimalText level.1 q ∧
    F32Text t.yesAskDollars (1 - q) ∧ DecimalText level.2 n ∧ F32Text t.yesAskSizeFp n

/-- The top of book of a leg was left by a message about the book that the endpoint returns. -/
inductive Reported (leg : ArbMinifiedInfo) (http : HttpVenue) (tob : TopOfBook) : Prop
  | polymarket (platform : leg.platform = .polymarket) {summary : OrderBookSummary}
      (book : http.getOrderBook leg.tokenId = .ok summary) {msg : PolyMessage}
      (truthful : msg.Truthful leg.tokenId summary)
      (update : (makeMarketKey leg.tokenId .polymarket, tob) ∈ polyUpdates msg)
  | kalshi (platform : leg.platform = .kalshi) {ob : KalshiOrderbook}
      (book : http.getMarketOrderbook leg.marketId = .ok ob) {t : TickerUpdate}
      (ticker : t.marketTicker = leg.tokenId) (truthful : t.Truthful ob)
      (update : tickerTop t = some tob)

/-- The level, as price and size, that a purchase of the leg matches. -/
def neededLevel (http : HttpVenue) (leg : ArbMinifiedInfo) : Option (String × String) :=
  match leg.platform with
  | .polymarket =>
      (http.getOrderBook leg.tokenId).toOption.bind fun summary =>
        summary.asks.head?.map fun level => (level.price, level.size)
  | .kalshi =>
      (http.getMarketOrderbook leg.marketId).toOption.bind fun ob =>
        (match leg.leg with
          | .left => ob.noDollars
          | .right => ob.yesDollars).bind (·.getLast?)

/-- The leg can be bought at some level, and the level is empty if the leg is on Polymarket. -/
def SizeReported (http : HttpVenue) (leg : ArbMinifiedInfo) : Prop :=
  ∃ level, neededLevel http leg = some level ∧
    (leg.platform = .polymarket → DecimalText level.2 0)

/-! ## §2 One leg -/

/-- The price and the size that a request carries for a leg. -/
def requestQuote (tob : TopOfBook) (leg : ArbMinifiedInfo) : Decimal × Decimal :=
  ((neededAskPrice tob leg).toDecimal.getD (.ofInt 0),
    (neededAskSize tob leg).toDecimal.getD (.ofInt 0))

/-- The endpoint gives the values that the request carries. -/
def QuotesAgree (http : HttpVenue) (leg : ArbMinifiedInfo) (quote : Decimal × Decimal) : Prop :=
  ∃ d, getExecutionMetricsFromHttp http leg = .ok d ∧ d.1.toRat = quote.1.toRat ∧
    d.2.toRat = quote.2.toRat

theorem parseF32_of_text {text : String} {q : ℚ} (h : F32Text text q) :
    ∃ d, parseF32 text = .ok (.fin d) ∧ d.toRat = q := by
  obtain ⟨d, hd, hq⟩ := h
  exact ⟨d, by simp [parseF32, hd], hq⟩

/-- An update of a truthful Polymarket message carries the best ask and no size. -/
theorem polyUpdates_truthful {assetId : String} {summary : OrderBookSummary} {msg : PolyMessage}
    {tob : TopOfBook} (ht : msg.Truthful assetId summary)
    (h : (makeMarketKey assetId .polymarket, tob) ∈ polyUpdates msg) :
    tob.askSize = .zero ∧ ∀ level ∈ summary.asks.head?, ∃ q d, DecimalText level.price q ∧
      tob.bestAsk = .fin d ∧ d.toRat = q := by
  have htop : ∀ {bid ask ts : String}, QuotesSummary summary bid ask →
      polyTop bid ask ts = some tob → tob.askSize = .zero ∧ ∀ level ∈ summary.asks.head?,
        ∃ q d, DecimalText level.price q ∧ tob.bestAsk = .fin d ∧ d.toRat = q := by
    intro bid ask ts hquote htop
    unfold polyTop at htop
    split at htop
    · rename_i b a t hb ha hts
      cases htop
      refine ⟨rfl, fun level hlevel => ?_⟩
      obtain ⟨q, hprice, hask⟩ := hquote.ask level hlevel
      obtain ⟨d, hd, hq⟩ := parseF32_of_text hask
      rw [hd] at ha
      cases ha
      exact ⟨q, d, hprice, rfl, hq⟩
    · cases htop
  cases msg with
  | bestBidAsk b =>
    simp only [polyUpdates, Option.mem_toList, Option.map_eq_some_iff, Prod.mk.injEq,
      makeMarketKey_inj, and_true] at h
    obtain ⟨_, hpoly, hid, rfl⟩ := h
    exact htop (ht hid) hpoly
  | priceChange changes timestamp =>
    -- the update stems from one of the entries, about this asset
    simp only [polyUpdates, List.mem_filterMap, Option.map_eq_some_iff, Prod.mk.injEq,
      makeMarketKey_inj, and_true] at h
    obtain ⟨c, hc, _, hpoly, hid, rfl⟩ := h
    exact htop (ht c hc hid) hpoly
  | marketResolved ids => cases h
  | other => cases h

/-- A quote that gives the complement of the best bid, with its size, agrees with the reading
    of the endpoint as soon as there is a bid. -/
theorem kalshiMetrics_agree_iff {book : Option (List (String × String))} {side : String}
    {quote : Decimal × Decimal}
    (hquote : ∀ level ∈ book.bind (·.getLast?), ∃ q n, DecimalText level.1 q ∧
      DecimalText level.2 n ∧ quote.1.toRat = 1 - q ∧ quote.2.toRat = n) :
    (∃ d, kalshiMetrics book side = .ok d ∧ d.1.toRat = quote.1.toRat ∧
      d.2.toRat = quote.2.toRat) ↔ ∃ level, book.bind (·.getLast?) = some level := by
  cases book with
  | none => simp [kalshiMetrics]
  | some levels =>
    cases hlast : levels.getLast? with
    | none => simp [kalshiMetrics, hlast]
    | some level =>
      -- both texts of the level parse, so only its existence is left
      obtain ⟨_, _, ⟨p, hp, rfl⟩, ⟨s, hs, rfl⟩, hprice, hsize⟩ := hquote level hlast
      simp [kalshiMetrics, hlast, hp, hs, hprice, hsize]

/-- On Polymarket the prices agree, and the sizes do when the level is empty. -/
theorem quotesAgree_polymarket {leg : ArbMinifiedInfo} {http : HttpVenue} {tob : TopOfBook}
    {summary : OrderBookSummary} (platform : leg.platform = .polymarket)
    (book : http.getOrderBook leg.tokenId = .ok summary) (hsize : tob.askSize = .zero)
    (hask : ∀ level ∈ summary.asks.head?, ∃ q d, DecimalText level.price q ∧
      tob.bestAsk = .fin d ∧ d.toRat = q) :
    QuotesAgree http leg (requestQuote tob leg) ↔ SizeReported http leg := by
  -- the stored size of a Polymarket quote is 0
  have hzero : (requestQuote tob leg).2.toRat = 0 := by
    simp [requestQuote, neededAskSize, platform, hsize, ExactFloat.zero, ExactFloat.toDecimal]
  have hlevel : neededLevel http leg = summary.asks.head?.map fun l => (l.price, l.size) := by
    simp [neededLevel, platform, book, Except.toOption]
  simp only [QuotesAgree, SizeReported, hlevel, hzero, getExecutionMetricsFromHttp, platform, book]
  cases hhead : summary.asks.head? with
  | none => simp
  | some level =>
    obtain ⟨_, d, ⟨p, hp, rfl⟩, hbest, hd⟩ := hask level hhead
    have hprice : (requestQuote tob leg).1.toRat = p.toRat := by
      simp [requestQuote, neededAskPrice, platform, hbest, ExactFloat.toDecimal, hd]
    cases hs : Decimal.fromStr level.size with
    | none => simp [hp, hs, DecimalText]
    | some n => simp [hp, hs, hprice, DecimalText]

/-- The fields of a ticker update's top of book. -/
theorem tickerTop_fields {t : TickerUpdate} {tob : TopOfBook} (h : tickerTop t = some tob) :
    parseF32 t.yesBidDollars = .ok tob.bestBid ∧ parseF32 t.yesAskDollars = .ok tob.bestAsk ∧
      tob.bidSize = (parseF32 t.yesBidSizeFp).toOption.getD .zero ∧
      tob.askSize = (parseF32 t.yesAskSizeFp).toOption.getD .zero := by
  unfold tickerTop at h
  split at h
  · rename_i bid ask hbid hask
    cases h
    exact ⟨hbid, hask, rfl, rfl⟩
  · cases h

/-- On Kalshi the prices and the sizes agree, on either side. -/
theorem quotesAgree_kalshi {leg : ArbMinifiedInfo} {http : HttpVenue} {tob : TopOfBook}
    {ob : KalshiOrderbook} {t : TickerUpdate} (platform : leg.platform = .kalshi)
    (book : http.getMarketOrderbook leg.marketId = .ok ob) (truthful : t.Truthful ob)
    (update : tickerTop t = some tob) :
    QuotesAgree http leg (requestQuote tob leg) ↔ SizeReported http leg := by
  obtain ⟨hbid, hask, hbidSize, haskSize⟩ := tickerTop_fields update
  simp only [QuotesAgree, SizeReported, getExecutionMetricsFromHttp, neededLevel, platform, book,
    Except.toOption, Option.bind_some, reduceCtorEq, false_implies, and_true]
  cases hleg : leg.leg with
  | left =>
    -- YES is bought against the best NO bid, which the update reports as the YES ask
    apply kalshiMetrics_agree_iff
    intro level hlevel
    obtain ⟨q, n, hprice, haskText, hsize, hsizeText⟩ := truthful.no level hlevel
    obtain ⟨a, ha, haq⟩ := parseF32_of_text haskText
    obtain ⟨s, hs, hsn⟩ := parseF32_of_text hsizeText
    rw [ha] at hask
    refine ⟨q, n, hprice, hsize, ?_, ?_⟩
    · simp [requestQuote, neededAskPrice, platform, hleg, ← Except.ok.inj hask,
        ExactFloat.toDecimal, haq]
    · simp [requestQuote, neededAskSize, platform, hleg, haskSize, hs, Except.toOption,
        ExactFloat.toDecimal, hsn]
  | right =>
    -- NO is bought against the best YES bid
    apply kalshiMetrics_agree_iff
    intro level hlevel
    obtain ⟨q, n, hprice, hbidText, hsize, hsizeText⟩ := truthful.yes level hlevel
    obtain ⟨b, hb, hbq⟩ := parseF32_of_text hbidText
    obtain ⟨s, hs, hsn⟩ := parseF32_of_text hsizeText
    rw [hb] at hbid
    refine ⟨q, n, hprice, hsize, ?_, ?_⟩
    · simp [requestQuote, neededAskPrice, platform, hleg, ← Except.ok.inj hbid, ExactFloat.one,
        ExactFloat.toDecimal, hbq]
    · simp [requestQuote, neededAskSize, platform, hleg, hbidSize, hs, Except.toOption,
        ExactFloat.toDecimal, hsn]

/-- **One leg**: request and endpoint agree exactly when the size of the level was reported. -/
theorem quotesAgree_iff {leg : ArbMinifiedInfo} {http : HttpVenue} {tob : TopOfBook}
    (h : Reported leg http tob) :
    QuotesAgree http leg (requestQuote tob leg) ↔ SizeReported http leg := by
  cases h with
  | polymarket platform book truthful update =>
    obtain ⟨hsize, hask⟩ := polyUpdates_truthful truthful update
    exact quotesAgree_polymarket platform book hsize hask
  | kalshi platform book ticker truthful update =>
    exact quotesAgree_kalshi platform book truthful update

/-! ## §3 Both legs -/

/-- Metrics with the same values, whatever their number of places. -/
structure Metrics.Same (w h : Metrics) : Prop where
  anchorPrice : h.anchorPrice.toRat = w.anchorPrice.toRat
  anchorSize : h.anchorSize.toRat = w.anchorSize.toRat
  matchPrice : h.matchPrice.toRat = w.matchPrice.toRat
  matchSize : h.matchSize.toRat = w.matchSize.toRat

theorem Metrics.Same.totalCost {w h : Metrics} (hs : w.Same h) : h.totalCost = w.totalCost := by
  simp only [Metrics.totalCost, Decimal.toRat_add, hs.anchorPrice, hs.matchPrice]

/-- The decisions of the executor depend on the values only. -/
theorem Metrics.Same.decisions {w h : Metrics} (hs : w.Same h) :
    h.outOfBand = w.outOfBand ∧ ∀ bal, h.executionSize bal = w.executionSize bal := by
  refine ⟨by simp only [Metrics.outOfBand, hs.totalCost], fun bal => ?_⟩
  simp only [Metrics.executionSize, hs.anchorPrice, hs.anchorSize, hs.matchPrice, hs.matchSize]

/-- The two modes see the same prices and sizes, accept the same trades, and size them
    alike for every balance. -/
def ModesAgree (ans : ExecAnswers) (req : ExecutionRequest) : Prop :=
  ∃ w h, executionMetrics true ans req = .ok w ∧ executionMetrics false ans req = .ok h ∧
    w.Same h ∧ h.outOfBand = w.outOfBand ∧ ∀ bal, h.executionSize bal = w.executionSize bal

/-- **The modes agree** on the request of `evaluate_arb` exactly when each leg can be bought at
    a level whose size was reported. -/
theorem modes_agree_iff {pair : ArbMinifiedInfoPair} {ans : ExecAnswers} {aTob mTob : TopOfBook}
    (ha : Reported pair.anchor ans.anchorHttp aTob)
    (hm : Reported pair.match ans.matchHttp mTob) (cid : CorrelationId) :
    ModesAgree ans (executionRequest cid pair aTob mTob) ↔
      SizeReported ans.anchorHttp pair.anchor ∧ SizeReported ans.matchHttp pair.match := by
  rw [← quotesAgree_iff ha, ← quotesAgree_iff hm]
  constructor
  · -- http mode succeeds only when both endpoints do
    rintro ⟨w, h, hw, hh, hs, -, -⟩
    cases hw
    simp only [executionMetrics, Bool.false_eq_true, if_false] at hh
    split at hh
    · rename_i a m hga hgm
      cases hh
      exact ⟨⟨a, hga, hs.anchorPrice, hs.anchorSize⟩, ⟨m, hgm, hs.matchPrice, hs.matchSize⟩⟩
    · cases hh
  · rintro ⟨⟨a, hga, hap, has⟩, ⟨m, hgm, hmp, hms⟩⟩
    have hs : Metrics.Same
        ⟨(requestQuote aTob pair.anchor).1, (requestQuote aTob pair.anchor).2,
          (requestQuote mTob pair.match).1, (requestQuote mTob pair.match).2⟩
        ⟨a.1, a.2, m.1, m.2⟩ := ⟨hap, has, hmp, hms⟩
    refine ⟨_, _, rfl, ?_, hs, hs.decisions⟩
    have hga' : getExecutionMetricsFromHttp ans.anchorHttp
        (executionRequest cid pair aTob mTob).anchor = .ok a := hga
    have hgm' : getExecutionMetricsFromHttp ans.matchHttp
        (executionRequest cid pair aTob mTob).match = .ok m := hgm
    simp [executionMetrics, hga', hgm']

/-! ## §4 A pair of each kind -/

/-- A ticker update about the sample book. -/
def sampleTicker (ticker : String) : TickerUpdate where
  marketTicker := ticker
  yesBidDollars := "0.3800"
  yesAskDollars := "0.4000"
  yesBidSizeFp := "20.00"
  yesAskSizeFp := "50.00"
  ts := 1
  sid := 7

/-- What `sampleTicker` leaves in the top of book. -/
def sampleTickerTop : TopOfBook where
  sid := some 7
  bestBid := .fin ⟨3800, 4⟩
  bestAsk := .fin ⟨4000, 4⟩
  bidSize := .fin ⟨2000, 2⟩
  askSize := .fin ⟨5000, 2⟩
  spread := .fin ⟨200, 4⟩
  tobTimestampMs := 1000

/-- A Polymarket quote about the sample book. -/
def sampleBest (assetId : String) : PolyMessage :=
  .bestBidAsk { assetId, bestBid := "0.38", bestAsk := "0.4", timestamp := "1000" }

/-- What `sampleBest` leaves in the top of book. -/
def sampleBestTop : TopOfBook where
  bestBid := .fin ⟨38, 2⟩
  bestAsk := .fin ⟨4, 1⟩
  bidSize := .zero
  askSize := .zero
  spread := .fin ⟨2, 2⟩
  tobTimestampMs := 1000

theorem tickerTop_sampleTicker (ticker : String) :
    tickerTop (sampleTicker ticker) = some sampleTickerTop := by
  have hbid : parseF32 "0.3800" = .ok (.fin ⟨3800, 4⟩) := by decide +kernel
  have hask : parseF32 "0.4000" = .ok (.fin ⟨4000, 4⟩) := by decide +kernel
  have hbidSize : parseF32 "20.00" = .ok (.fin ⟨2000, 2⟩) := by decide +kernel
  have haskSize : parseF32 "50.00" = .ok (.fin ⟨5000, 2⟩) := by decide +kernel
  have htime : secsToMillis 1 = 1000 := by decide
  have hspread : (ExactFloat.fin ⟨4000, 4⟩ - .fin ⟨3800, 4⟩) = .fin ⟨200, 4⟩ := by decide +kernel
  simp only [tickerTop, sampleTicker, hbid, hask, hbidSize, haskSize, htime, hspread]
  rfl

theorem reported_sampleTicker (ticker : String) :
    Reported (watchLeg .kalshi ticker) sampleHttp sampleTickerTop := by
  have hprice : DecimalText "0.60" (60 / 100) := ⟨⟨60, 2⟩, by decide +kernel⟩
  have hask : F32Text "0.4000" (1 - 60 / 100) := ⟨⟨4000, 4⟩, by decide +kernel⟩
  have hsize : DecimalText "50" 50 := ⟨⟨50, 0⟩, by decide +kernel⟩
  have haskSize : F32Text "50.00" 50 := ⟨⟨5000, 2⟩, by decide +kernel⟩
  refine .kalshi (t := sampleTicker ticker) rfl rfl rfl ⟨fun _ h => (nomatch h), fun level h => ?_⟩
    (tickerTop_sampleTicker ticker)
  cases h
  exact ⟨60 / 100, 50, hprice, hask, hsize, haskSize⟩

theorem reported_sampleBest (assetId : String) :
    Reported (watchLeg .polymarket assetId) sampleHttp sampleBestTop := by
  have hprice : DecimalText "0.40" (40 / 100) := ⟨⟨40, 2⟩, by decide +kernel⟩
  have hask : F32Text "0.4" (40 / 100) := ⟨⟨4, 1⟩, by decide +kernel⟩
  have htop : polyTop "0.38" "0.4" "1000" = some sampleBestTop := by decide +kernel
  have htruthful : (sampleBest assetId).Truthful (watchLeg .polymarket assetId).tokenId
      ⟨[⟨"0.40", "50"⟩], [], "1"⟩ := by
    refine fun _ => ⟨fun level h => ?_, fun _ h => (nomatch h)⟩
    cases h
    exact ⟨40 / 100, hprice, hask⟩
  refine .polymarket rfl rfl htruthful ?_
  simp [polyUpdates, sampleBest, htop, watchLeg]

/-- Two tickers of Kalshi: the request carries what the endpoint returns. -/
theorem modes_agree_kalshi_pair :
    ModesAgree silentAnswers (executionRequest "x"
      ⟨watchLeg .kalshi "K", watchLeg .kalshi "L", .zero⟩ sampleTickerTop sampleTickerTop) := by
  refine (modes_agree_iff (reported_sampleTicker "K") (reported_sampleTicker "L") "x").mpr ⟨?_, ?_⟩
  · exact ⟨("0.60", "50"), rfl, fun h => nomatch h⟩
  · exact ⟨("0.60", "50"), rfl, fun h => nomatch h⟩

/-- A thousand dollars on each venue. -/
def sampleFunds : BalanceTracker where
  kalshiUsdc := 1000
  polymarketUsdc := 1000
  tradeFraction := 1 / 5
  minTradeSize := 2

/-- **A trade that only one mode makes**: `evaluate_arb` sends the request, the book has fifty
    contracts on both legs, and the optimistic mode finds nothing to buy on Polymarket. -/
theorem optimistic_skips_polymarket :
    ∃ req, Reported samplePair.anchor silentAnswers.anchorHttp sampleTickerTop ∧
      Reported samplePair.match silentAnswers.matchHttp sampleBestTop ∧
      evaluate 0 "x" samplePair (some sampleTickerTop) (some sampleBestTop) = some req ∧
      ¬ ModesAgree silentAnswers req ∧
      ∃ w h, executionMetrics true silentAnswers req = .ok w ∧
        executionMetrics false silentAnswers req = .ok h ∧
        w.executionSize sampleFunds = none ∧ h.executionSize sampleFunds = some 50 := by
  have hreq : evaluate 0 "x" samplePair (some sampleTickerTop) (some sampleBestTop) =
      some (executionRequest "x" samplePair sampleTickerTop sampleBestTop) := by decide +kernel
  -- the optimistic mode knows the sizes of Kalshi's ticker only, the other one those of both books
  have hw : executionMetrics true silentAnswers
      (executionRequest "x" samplePair sampleTickerTop sampleBestTop) =
        .ok ⟨⟨4, 1⟩, ⟨50, 0⟩, ⟨4, 1⟩, ⟨0, 0⟩⟩ := by decide +kernel
  have hh : executionMetrics false silentAnswers
      (executionRequest "x" samplePair sampleTickerTop sampleBestTop) =
        .ok ⟨⟨40, 2⟩, ⟨50, 0⟩, ⟨40, 2⟩, ⟨50, 0⟩⟩ := by decide +kernel
  have hnone : Metrics.executionSize sampleFunds ⟨⟨4, 1⟩, ⟨50, 0⟩, ⟨4, 1⟩, ⟨0, 0⟩⟩ = none := by
    decide +kernel
  have hsome : Metrics.executionSize sampleFunds ⟨⟨40, 2⟩, ⟨50, 0⟩, ⟨40, 2⟩, ⟨50, 0⟩⟩ =
      some 50 := by decide +kernel
  refine ⟨_, reported_sampleTicker "K", reported_sampleBest "11", hreq, ?_, _, _, hw, hh, hnone,
    hsome⟩
  -- modes that agree would buy the same
  rintro ⟨w, h, hw', hh', -, -, hsize⟩
  rw [hw] at hw'
  rw [hh] at hh'
  cases hw'
  cases hh'
  have hsame := hsize sampleFunds
  rw [hnone, hsome] at hsame
  cases hsame

end Degenerate.Picker
