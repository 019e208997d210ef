import Degenerate.Picker.ArrivalOrder
import Degenerate.Picker.ExecutionModes

/-!
# Seeded Prices

A Kalshi order book is read by two functions.  The executor reads the side that its leg
trades against, and nothing else.  The seed reads both sides into one top of book: the
bids for NO are required, whichever leg is seeded, and a missing bid for YES counts as
zero.

## Main Results

- `seed_reads_alike`: what the executor reads is what the seed stores, given a bid for NO
- `no_leg_unseeded`: a book without bids for NO, read by the executor only
-/

namespace Degenerate.Picker

open Degenerate.Lib

/-! ## §1 One book -/

/-- The best bid of a side. -/
def bestBidOf (book : Option (List (String × String))) : Option (String × String) :=
  book.bind (·.getLast?)

/-- The levels of both sides are decimal prices and sizes. -/
def KalshiOrderbook.DecimalLevels (ob : KalshiOrderbook) : Prop :=
  ∀ levels, ob.yesDollars = some levels ∨ ob.noDollars = some levels →
    ∀ level ∈ levels, (Decimal.fromStr level.1).isSome ∧ (Decimal.fromStr level.2).isSome

section OneBook

variable {http : HttpVenue} {leg : ArbMinifiedInfo} {ob : KalshiOrderbook} {now : ℤ}

/-- The best bid for NO is a decimal. -/
theorem KalshiOrderbook.DecimalLevels.no (h : ob.DecimalLevels) {level : String × String}
    (hbest : bestBidOf ob.noDollars = some level) : ∃ d, Decimal.fromStr level.1 = some d := by
  obtain ⟨levels, hlevels, hlast⟩ := Option.bind_eq_some_iff.mp hbest
  have hlevel := h levels (.inr hlevels) level (List.mem_of_getLast? hlast)
  exact Option.isSome_iff_exists.mp hlevel.1

variable (hplatform : leg.platform = .kalshi)
variable (hob : http.getMarketOrderbook leg.marketId = .ok ob)

include hplatform hob

/-- Without a bid for NO there is nothing to store. -/
theorem seedTop_none (hno : bestBidOf ob.noDollars = none) : seedTop http now leg = none := by
  rw [bestBidOf] at hno
  simp only [seedTop, hplatform, hob, hno]
  rfl

/-- With a bid for NO, its complement is the ask, and the bid is the best one for YES, or zero. -/
theorem seedTop_some (now : ℤ) {level : String × String} {noBid : Decimal}
    (hno : bestBidOf ob.noDollars = some level) (hbid : Decimal.fromStr level.1 = some noBid) :
    ∃ tob, seedTop http now leg = some tob ∧ tob.tobTimestampMs = now ∧
      tob.bestAsk = ExactFloat.one - .fin noBid ∧
      tob.bestBid = ((bestBidOf ob.yesDollars).bind fun l => ExactFloat.parse l.1).getD .zero := by
  rw [bestBidOf] at hno
  let bid := ((bestBidOf ob.yesDollars).bind fun l => ExactFloat.parse l.1).getD .zero
  let ask := ExactFloat.one - .fin noBid
  refine ⟨{ TopOfBook.default with
    bestAsk := ask, bestBid := bid, spread := ask - bid, tobTimestampMs := now }, ?_, rfl, rfl, rfl⟩
  simp only [seedTop, hplatform, hob, hno, Option.bind_some, FloatOps.parse_exact,
    ExactFloat.parse_of_fromStr hbid, Option.map_some]
  rfl

/-- The level that the executor needs, by the leg. -/
theorem neededLevel_kalshi :
    neededLevel http leg = bestBidOf (match leg.leg with
      | .left => ob.noDollars
      | .right => ob.yesDollars) := by
  simp only [neededLevel, hplatform, hob, Except.toOption, Option.bind_some]
  rfl

/-- **A stored price is the one that the executor reads.** -/
theorem neededAskPrice_seed {m : Decimal × Decimal} {tob : TopOfBook}
    (hdec : ob.DecimalLevels) (hread : getExecutionMetricsFromHttp http leg = .ok m)
    (hseed : seedTop http now leg = some tob) :
    ∃ d, neededAskPrice tob leg = .fin d ∧ d.toRat = m.1.toRat := by
  cases hno : bestBidOf ob.noDollars with
  | none => cases hseed.symm.trans (seedTop_none hplatform hob hno)
  | some noLevel =>
    obtain ⟨noBid, hnoBid⟩ := hdec.no hno
    obtain ⟨tob', htob, -, hask, hbid⟩ := seedTop_some hplatform hob now hno hnoBid
    obtain rfl := Option.some.inj (htob.symm.trans hseed)
    simp only [getExecutionMetricsFromHttp, hplatform, hob] at hread
    simp only [neededAskPrice, hplatform]
    cases hleg : leg.leg with
    | left =>
      -- both take the complement of the best bid for NO
      rw [hleg] at hread
      obtain ⟨level, bidPrice, bidSize, hlast, hprice, -, rfl⟩ := kalshiMetrics_ok hread
      obtain rfl : noLevel = level := Option.some.inj (hno.symm.trans hlast)
      obtain rfl : noBid = bidPrice := Option.some.inj (hnoBid.symm.trans hprice)
      exact ⟨_, hask, rfl⟩
    | right =>
      rw [hleg] at hread
      obtain ⟨level, bidPrice, bidSize, hlast, hprice, -, rfl⟩ := kalshiMetrics_ok hread
      have hyes : bestBidOf ob.yesDollars = some level := hlast
      have hbid' : tob'.bestBid = .fin bidPrice := by
        rw [hbid, hyes, Option.bind_some, ExactFloat.parse_of_fromStr hprice, Option.getD_some]
      refine ⟨Decimal.ofInt 1 - bidPrice, ?_, rfl⟩
      show ExactFloat.one - tob'.bestBid = _
      rw [hbid']
      rfl

/-- **Without the side that the leg needs**, the seed stores nothing, or a price of one dollar. -/
theorem neededAskPrice_unread {tob : TopOfBook} (hdec : ob.DecimalLevels)
    (hlevel : neededLevel http leg = none) (hseed : seedTop http now leg = some tob) :
    ∃ d, neededAskPrice tob leg = .fin d ∧ 1 ≤ d.toRat := by
  rw [neededLevel_kalshi hplatform hob] at hlevel
  cases hno : bestBidOf ob.noDollars with
  | none => cases hseed.symm.trans (seedTop_none hplatform hob hno)
  | some noLevel =>
    cases hleg : leg.leg with
    -- the YES leg needs the very level that the seed reads
    | left =>
      rw [hleg] at hlevel
      cases hlevel.symm.trans hno
    -- the NO leg needs the YES side: the seed takes its missing bid for 0, so the ask is 1 − 0
    | right =>
      rw [hleg] at hlevel
      obtain ⟨noBid, hnoBid⟩ := hdec.no hno
      obtain ⟨tob', htob, -, -, hbid⟩ := seedTop_some hplatform hob now hno hnoBid
      obtain rfl := Option.some.inj (htob.symm.trans hseed)
      have hzero : tob'.bestBid = .zero := by
        have hyes : bestBidOf ob.yesDollars = none := hlevel
        rw [hbid, hyes]
        rfl
      refine ⟨Decimal.ofInt 1 - Decimal.ofInt 0, ?_, ?_⟩
      · simp only [neededAskPrice, hplatform, hleg, hzero]
        rfl
      · rw [Decimal.toRat_sub, Decimal.toRat_ofInt, Decimal.toRat_ofInt]
        norm_num

/-- Without the side that the leg needs, the executor reads no price. -/
theorem metrics_unread (hlevel : neededLevel http leg = none) :
    ∃ e, getExecutionMetricsFromHttp http leg = .error e := by
  rw [neededLevel_kalshi hplatform hob] at hlevel
  cases hread : getExecutionMetricsFromHttp http leg with
  | error e => exact ⟨e, rfl⟩
  | ok m =>
    exfalso
    simp only [getExecutionMetricsFromHttp, hplatform, hob] at hread
    cases hleg : leg.leg with
    | left =>
      rw [hleg] at hread hlevel
      obtain ⟨level, _, _, hlast, -⟩ := kalshiMetrics_ok hread
      cases hlast.symm.trans hlevel
    | right =>
      rw [hleg] at hread hlevel
      obtain ⟨level, _, _, hlast, -⟩ := kalshiMetrics_ok hread
      cases hlast.symm.trans hlevel

end OneBook

/-! ## §2 The seed of a leg -/

namespace System

/-- A seed that has read a price, and the `on_price_update` that it ends with. -/
theorem run_seed {cfg : Config} {c c' : Choice} {p q : System} {leg : ArbMinifiedInfo}
    {rest : List CommsOp} {tob : TopOfBook} (hpc : p.comms.pc = .next)
    (htodo : p.comms.todo = .seedTobFromHttp leg :: rest)
    (hseed : seedTop c.http c.utcNow leg = some tob) :
    run (step cfg) p [.comms c, .comms c'] = some q ↔
      opStep cfg c' (p.pop rest) (.onPriceUpdate leg.marketKey tob) = some q := by
  have hfirst : step cfg p (.comms c) =
      some ((p.pop rest).push [.onPriceUpdate leg.marketKey tob]) := by
    simp only [step, commsStep, hpc, htodo, opStep, hseed]
  have hsecond : step cfg ((p.pop rest).push [.onPriceUpdate leg.marketKey tob]) (.comms c') =
      opStep cfg c' (p.pop rest) (.onPriceUpdate leg.marketKey tob) := by
    have hpc' : ((p.pop rest).push [.onPriceUpdate leg.marketKey tob]).comms.pc = .next := hpc
    simp only [step, commsStep, hpc']
    rfl
  simp only [run_cons, hfirst, Option.some.injEq, exists_eq_left', hsecond, run_nil]
  exact exists_eq_right

/-- **Seed and executor read a Kalshi book alike**, on either leg, when there is a bid for NO:
    the seed then stores a price of the value that the executor reads, unless the stored entry
    is no older.  Without a bid for NO nothing is stored; the executor reads a price then only
    for a NO leg.  Where it finds no level, no stored price is below one dollar. -/
theorem seed_reads_alike (cfg : Config) {p : System} {leg : ArbMinifiedInfo} {rest : List CommsOp}
    {c : Choice} {ob : KalshiOrderbook} (hpc : p.comms.pc = .next)
    (htodo : p.comms.todo = .seedTobFromHttp leg :: rest) (hplatform : leg.platform = .kalshi)
    (hob : c.http.getMarketOrderbook leg.marketId = .ok ob) (hdec : ob.DecimalLevels)
    (holder : ∀ e, p.topOfBook leg.marketKey = some e → e.tobTimestampMs < c.utcNow) :
    (∀ m, getExecutionMetricsFromHttp c.http leg = .ok m →
      (bestBidOf ob.noDollars ≠ none →
        (∃ c' q, run (step cfg) p [.comms c, .comms c'] = some q) ∧
        ∀ c' q, run (step cfg) p [.comms c, .comms c'] = some q →
          ∃ tob d, q.topOfBook leg.marketKey = some tob ∧ neededAskPrice tob leg = .fin d ∧
            d.toRat = m.1.toRat) ∧
      (bestBidOf ob.noDollars = none →
        leg.leg = .right ∧ step cfg p (.comms c) = some (p.pop rest))) ∧
    (neededLevel c.http leg = none →
      (∃ e, getExecutionMetricsFromHttp c.http leg = .error e) ∧
      ∀ tob, seedTop c.http c.utcNow leg = some tob →
        ∃ d, neededAskPrice tob leg = .fin d ∧ 1 ≤ d.toRat) := by
  refine ⟨fun m hread => ⟨fun hno => ?_, fun hno => ⟨?_, ?_⟩⟩, fun hlevel =>
    ⟨metrics_unread hplatform hob hlevel, fun tob hseed =>
      neededAskPrice_unread hplatform hob hdec hlevel hseed⟩⟩
  · obtain ⟨level, hlevel⟩ := Option.ne_none_iff_exists'.mp hno
    obtain ⟨noBid, hnoBid⟩ := hdec.no hlevel
    obtain ⟨tob, hseed, hstamp, -⟩ := seedTop_some hplatform hob c.utcNow hlevel hnoBid
    constructor
    · obtain ⟨c', q, hq⟩ := exists_onPriceUpdate cfg (p.pop rest) leg.marketKey tob
      exact ⟨c', q, (run_seed hpc htodo hseed).mpr hq⟩
    · intro c' q hrun
      obtain ⟨hstored, -⟩ := onPriceUpdate_topOfBook ((run_seed hpc htodo hseed).mp hrun)
      obtain ⟨d, hd, hprice⟩ := neededAskPrice_seed hplatform hob hdec hread hseed
      refine ⟨tob, d, ?_, hd, hprice⟩
      rw [hstored]
      show keepLater TopOfBook.tobTimestampMs (p.topOfBook leg.marketKey) tob = some tob
      cases hold : p.topOfBook leg.marketKey with
      | none => rfl
      | some e => exact if_pos (hstamp ▸ holder e hold)
  · -- a YES leg is read from the bids for NO
    cases hleg : leg.leg with
    | right => rfl
    | left =>
      simp only [getExecutionMetricsFromHttp, hplatform, hob, hleg] at hread
      obtain ⟨level, _, _, hlast, -⟩ := kalshiMetrics_ok hread
      cases hno.symm.trans hlast
  · simp only [step, commsStep, hpc, htodo, opStep, seedTop_none hplatform hob hno]

/-- The NO leg of the sample market. -/
def noLeg : ArbMinifiedInfo := { watchLeg .kalshi "K" with leg := .right }

/-- A book with bids for YES, and for NO if given. -/
def sampleBids (noDollars : Option (List (String × String))) : KalshiOrderbook where
  yesDollars := some [("0.38", "5"), ("0.40", "50")]
  noDollars := noDollars

/-- A step of the comms task in which Kalshi answers with this book. -/
def commsBids (ob : KalshiOrderbook) : Choice where
  http := { HttpVenue.down with getMarketOrderbook := fun _ => .ok ob }
  markets := oneSlugVenue

/-- The seed of the NO leg is next, and nothing is stored yet. -/
def seedingState : System :=
  { init (1 / 5) 2 with comms := ⟨.next, [.seedTobFromHttp noLeg]⟩ }

/-- With bids on both sides, the NO leg is seeded at the 0.60 that the executor reads. -/
theorem seed_reads_alike_sample :
    ∃ c q tob d, run (step sampleConfig) seedingState
        [.comms (commsBids (sampleBids (some [("0.55", "5")]))), .comms c] = some q ∧
      q.topOfBook noLeg.marketKey = some tob ∧ neededAskPrice tob noLeg = .fin d ∧
      d.toRat = 60 / 100 := by
  have hdec : (sampleBids (some [("0.55", "5")])).DecimalLevels := by
    rintro levels (h | h) <;> cases h <;> decide
  have hread : getExecutionMetricsFromHttp
      (commsBids (sampleBids (some [("0.55", "5")]))).http noLeg = .ok (⟨60, 2⟩, ⟨50, 0⟩) := by
    decide +kernel
  have hnone : ∀ e, seedingState.topOfBook noLeg.marketKey = some e →
      e.tobTimestampMs < (commsBids (sampleBids (some [("0.55", "5")]))).utcNow :=
    fun _ h => absurd h (by simp [seedingState, init])
  obtain ⟨⟨c, q, hq⟩, hall⟩ := ((seed_reads_alike sampleConfig (p := seedingState) rfl rfl rfl rfl
    hdec hnone).1 _ hread).1 (by decide)
  obtain ⟨tob, d, htob, hd, hprice⟩ := hall c q hq
  exact ⟨c, q, tob, d, hq, htob, hd, hprice.trans (by decide +kernel)⟩

/-- **A NO leg without a seed**: nobody bids for NO, the executor reads the price 0.60 from the
    bids for YES, and the seed stores nothing. -/
theorem no_leg_unseeded :
    getExecutionMetricsFromHttp (commsBids (sampleBids none)).http noLeg =
        .ok (⟨60, 2⟩, ⟨50, 0⟩) ∧
      ∃ q, step sampleConfig seedingState (.comms (commsBids (sampleBids none))) = some q ∧
        q.betweenMessages = true ∧ q.topOfBook noLeg.marketKey = none := by
  have hread : getExecutionMetricsFromHttp (commsBids (sampleBids none)).http noLeg =
      .ok (⟨60, 2⟩, ⟨50, 0⟩) := by
    decide +kernel
  exact ⟨hread, _, rfl, rfl, rfl⟩

end System

end Degenerate.Picker
