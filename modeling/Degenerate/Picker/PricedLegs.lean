import Degenerate.Picker.ExecutionModes
import Degenerate.Picker.InFlight

/-!
# The Price of Each Leg

`evaluate_arb` and `handle_execution_request` test the sum of the two leg prices
against a band, and never a single price.  A side of a book that is absent is stored
as zero, and a complement bid of one makes a price of zero: such a leg costs nothing,
and the other leg alone brings the sum into the band.

The sum excludes nothing else.  If each leg can be bought at a price above zero, a sum
below one puts both prices between zero and one.

## Main Results

- `legs_priced_iff`: in a run all legs are priced exactly when every request is built,
  and every order placed, on quotes that are offers
- `free_leg_traded`
-/

namespace Degenerate.Picker

open Degenerate.Lib

/-! ## §1 Prices and offers -/

/-- A price between nothing and the dollar that a winning contract pays. -/
def Priced (x : ℚ) : Prop := 0 < x ∧ x < 1

/-- Both legs of the request are priced. -/
def LegsPriced (req : ExecutionRequest) : Prop :=
  Priced req.anchorWsPrice.toRat ∧ Priced req.matchWsPrice.toRat

/-- The quote that a purchase of the leg matches is an offer: an ask above zero, or a bid of
    the other side below one. -/
def Offers (tob : TopOfBook) (leg : ArbMinifiedInfo) : Prop :=
  match leg.platform, leg.leg with
  | .kalshi, .right => ExactFloat.lt tob.bestBid .one
  | _, _ => ExactFloat.lt .zero tob.bestAsk

/-- The level that a purchase of the leg matches over HTTP is an offer. -/
def OffersHttp (http : HttpVenue) (leg : ArbMinifiedInfo) : Prop :=
  ∃ level d, neededLevel http leg = some level ∧ Decimal.fromStr level.1 = some d ∧
    match leg.platform with
    | .polymarket => 0 < d.toRat
    -- the level is a bid of the other side
    | .kalshi => d.toRat < 1

/-- Two positive prices with a sum below one are both priced. -/
theorem priced_of_pos {a m : ℚ} (hsum : a + m < 1) :
    (Priced a ∧ Priced m) ↔ 0 < a ∧ 0 < m := by
  constructor
  · rintro ⟨ha, hm⟩
    exact ⟨ha.1, hm.1⟩
  · rintro ⟨ha, hm⟩
    exact ⟨⟨ha, by linarith⟩, ⟨hm, by linarith⟩⟩

/-- A stored quote is an offer exactly when the price read from it is positive. -/
theorem offers_iff {tob : TopOfBook} {leg : ArbMinifiedInfo} {d : Decimal}
    (h : neededAskPrice tob leg = .fin d) : Offers tob leg ↔ 0 < d.toRat := by
  have hask : tob.bestAsk = .fin d → (ExactFloat.lt .zero tob.bestAsk ↔ 0 < d.toRat) := by
    intro hask
    simp [hask, ExactFloat.lt, ExactFloat.zero]
  cases hp : leg.platform with
  | polymarket =>
    simp only [neededAskPrice, hp] at h
    simpa [Offers, hp] using hask h
  | kalshi =>
    cases hl : leg.leg with
    | left =>
      simp only [neededAskPrice, hp, hl] at h
      simpa [Offers, hp, hl] using hask h
    | right =>
      -- the complement of the bid is positive when the bid is below one
      simp only [neededAskPrice, hp, hl] at h
      cases hbid : tob.bestBid with
      | fin b =>
        rw [hbid, FloatOps.one_exact, ExactFloat.one, ExactFloat.fin_sub_fin, ExactFloat.fin.injEq] at h
        subst h
        simp [Offers, hp, hl, hbid, ExactFloat.lt, ExactFloat.one]
      | posInf => rw [hbid] at h; cases h
      | negInf => rw [hbid] at h; cases h
      | nan => rw [hbid] at h; cases h

/-- The price read from a level over HTTP is positive exactly when the level is an offer. -/
theorem offersHttp_iff {http : HttpVenue} {leg : ArbMinifiedInfo} {d : Decimal × Decimal}
    (h : getExecutionMetricsFromHttp http leg = .ok d) : OffersHttp http leg ↔ 0 < d.1.toRat := by
  -- the ask of a side is a dollar less the last bid of the other one
  have hkalshi : ∀ {book : Option (List (String × String))} {side : String},
      kalshiMetrics book side = .ok d →
      ((∃ level b, book.bind (·.getLast?) = some level ∧ Decimal.fromStr level.1 = some b ∧
        b.toRat < 1) ↔ 0 < d.1.toRat) := by
    intro book side hm
    obtain ⟨level, b, _, hlast, hb, -, rfl⟩ := kalshiMetrics_ok hm
    simp [hlast, hb]
  cases hp : leg.platform with
  | polymarket =>
    -- every way out of the lookup but the last one is an error
    simp only [getExecutionMetricsFromHttp, hp] at h
    simp only [OffersHttp, neededLevel, hp]
    split at h
    · cases h
    · rename_i summary hbook
      split at h
      · cases h
      · rename_i ask hask
        split at h
        · cases h
        · rename_i price hprice
          split at h
          · cases h
          · cases h
            simp [hbook, Except.toOption, hask, hprice]
  | kalshi =>
    simp only [getExecutionMetricsFromHttp, hp] at h
    simp only [OffersHttp, neededLevel, hp]
    split at h
    · cases h
    · rename_i ob hbook
      cases hl : leg.leg with
      | left =>
        simp only [hl] at h
        simpa [hbook, Except.toOption] using hkalshi h
      | right =>
        simp only [hl] at h
        simpa [hbook, Except.toOption] using hkalshi h

/-! ## §2 The request and the orders -/

/-- **A request** has priced legs exactly when it was built on two offers. -/
theorem request_priced_iff {now : ℤ} {cid : CorrelationId} {pair : ArbMinifiedInfoPair}
    {aTob mTob : TopOfBook} {req : ExecutionRequest}
    (h : evaluate now cid pair (some aTob) (some mTob) = some req) :
    LegsPriced req ↔ Offers aTob pair.anchor ∧ Offers mTob pair.match := by
  obtain ⟨-, _, _, a, m, ⟨⟩, ⟨⟩, ha, hm, -, hsum, rfl⟩ := evaluate_eq_some h
  -- the request carries the two prices as they are stored
  have hreq : LegsPriced (executionRequest cid pair aTob mTob) ↔
      Priced a.toRat ∧ Priced m.toRat := by
    simp [LegsPriced, executionRequest, ha, hm, ExactFloat.toDecimal]
  rw [hreq, priced_of_pos (by linarith), offers_iff ha, offers_iff hm]

/-- A buy order of the handling goes out to its venue. -/
def Handled.Submits (h : Handled) : Prop := ∃ buy ∈ h.orders, buy.order.sent.isSome

instance (h : Handled) : Decidable h.Submits :=
  inferInstanceAs (Decidable (∃ buy ∈ h.orders, buy.order.sent.isSome))

/-- If an order goes out, both legs are priced. -/
def Handled.BuysPriced (h : Handled) : Prop :=
  h.Submits → ∀ buy ∈ h.orders, Priced buy.price.toRat

/-- A handling places no order, or one for each leg at metrics with a cost below one. -/
theorem handled_orders_cases (cfg : Config) (bal : BalanceTracker) (ans : ExecAnswers)
    (req : ExecutionRequest) :
    (handleExecutionRequest cfg bal ans req).orders = [] ∨
    ∃ m size, executionMetrics cfg.optimistic ans req = .ok m ∧
      m.anchorPrice.toRat + m.matchPrice.toRat < 1 ∧
      (handleExecutionRequest cfg bal ans req).orders =
        [buyLeg cfg ans.anchorVenue req.correlationId req.anchor size m.anchorPrice,
          buyLeg cfg ans.matchVenue req.correlationId req.match size m.matchPrice] := by
  rcases handleExecutionRequest_cases cfg bal ans req with h | h | ⟨m, size, hm, hband, -, h⟩
  · exact .inl (by simp [Handled.orders, h, ExecEffect.order])
  · exact .inl (by simp [Handled.orders, h, ExecEffect.order])
  · refine .inr ⟨m, size, hm, ?_, by rw [h, placeOrders_orders]⟩
    simp only [Metrics.outOfBand, Metrics.totalCost, Decimal.toRat_add, Bool.or_eq_false_iff,
      decide_eq_false_iff_not, not_le, not_lt] at hband
    linarith [hband.2]

/-- **Orders over HTTP** are priced exactly when the levels that they match are offers. -/
theorem buysPriced_http_iff {cfg : Config} (hmode : cfg.optimistic = false) (bal : BalanceTracker)
    (ans : ExecAnswers) (req : ExecutionRequest) :
    (handleExecutionRequest cfg bal ans req).BuysPriced ↔
      ((handleExecutionRequest cfg bal ans req).Submits →
        OffersHttp ans.anchorHttp req.anchor ∧ OffersHttp ans.matchHttp req.match) := by
  rcases handled_orders_cases cfg bal ans req with h | ⟨m, size, hm, hsum, h⟩
  · simp [Handled.BuysPriced, Handled.Submits, h]
  · rw [hmode] at hm
    simp only [executionMetrics, Bool.false_eq_true, if_false] at hm
    split at hm
    · rename_i a b ha hb
      cases hm
      rw [offersHttp_iff ha, offersHttp_iff hb, ← priced_of_pos hsum]
      simp [Handled.BuysPriced, h, buyLeg]
    · cases hm

/-- Optimistic orders are priced when the request is. -/
theorem buysPriced_optimistic {cfg : Config} (hmode : cfg.optimistic = true)
    (bal : BalanceTracker) (ans : ExecAnswers) {req : ExecutionRequest} (hreq : LegsPriced req) :
    (handleExecutionRequest cfg bal ans req).BuysPriced := by
  rcases handled_orders_cases cfg bal ans req with h | ⟨m, size, hm, -, h⟩
  · simp [Handled.BuysPriced, h]
  · rw [hmode] at hm
    cases hm
    intro _ buy hbuy
    rw [h, List.mem_cons, List.mem_singleton] at hbuy
    rcases hbuy with rfl | rfl
    · exact hreq.1
    · exact hreq.2

/-! ## §3 Runs -/

namespace System

/-- Every request that the step enqueues, and every order of a handling that it starts, is for
    priced legs. -/
def PricedStep (cfg : Config) (p : System) : Action → Prop
  | .comms _ => ∀ req, p.Enqueues req → LegsPriced req
  | .execReceive ans => ∀ req, p.Receives req →
      (handleExecutionRequest cfg p.exec.balances ans req).BuysPriced
  | _ => True

/-- The stored quote of a leg is an offer. -/
def StoredOffer (p : System) (leg : ArbMinifiedInfo) : Prop :=
  ∃ tob, p.topOfBook leg.marketKey = some tob ∧ Offers tob leg

/-- A request is enqueued only while the stored quotes of both legs are offers, and orders at
    prices fetched over HTTP go out only if the levels that they match are offers. -/
def OfferedStep (cfg : Config) (p : System) : Action → Prop
  | .comms _ => ∀ req, p.Enqueues req → p.StoredOffer req.anchor ∧ p.StoredOffer req.match
  | .execReceive ans => ∀ req, p.Receives req → cfg.optimistic = false →
      (handleExecutionRequest cfg p.exec.balances ans req).Submits →
      OffersHttp ans.anchorHttp req.anchor ∧ OffersHttp ans.matchHttp req.match
  | _ => True

/-- The request about to be sent was built from the entries that are still stored, and the
    queued ones have priced legs. -/
structure Quoted (p : System) : Prop where
  sending : ∀ req, p.comms.pc = .evaluating (.trySend req) → ∃ now cid pair,
    evaluate now cid pair (p.topOfBook pair.anchor.marketKey)
      (p.topOfBook pair.match.marketKey) = some req
  queued : ∀ req ∈ p.executionRx, LegsPriced req

/-- A step of the comms task reaches the send from the check of the prices only. -/
theorem trySend_of_commsStep {cfg : Config} {c : Choice} {p q : System} {req : ExecutionRequest}
    (h : commsStep cfg c p = some q) (hpc : q.comms.pc = .evaluating (.trySend req)) :
    q.topOfBook = p.topOfBook ∧ ∃ cid w, p.book.records cid = some w ∧
      evaluate c.utcNow cid w.arb (p.topOfBook w.arb.anchor.marketKey)
        (p.topOfBook w.arb.match.marketKey) = some req := by
  obtain ⟨e₀, -, rfl⟩ := commsStep_evaluating h hpc (by simp)
  rcases evalStep_moves hpc with ⟨_, -, he, -⟩ | ⟨_, _, -, he, -⟩ | ⟨_, -, he, -⟩ |
    ⟨cid, w, req', -, he, hw, hreq, hq⟩ | ⟨_, -, he⟩ <;> cases he
  rw [hq]
  exact ⟨rfl, cid, w, hw, hreq⟩

/-- Steps for priced legs keep the queue at priced legs. -/
theorem Quoted.step {cfg : Config} {p q : System} {a : Action} (hq : p.Quoted)
    (ha : PricedStep cfg p a) (h : step cfg p a = some q) : q.Quoted := by
  constructor
  · intro req hpc
    rcases step_comms_cases h with ⟨msg, -, -, rfl⟩ | ⟨c, -, hc⟩ | hsame
    · cases hpc
    · obtain ⟨htob, cid, w, -, hreq⟩ := trySend_of_commsStep hc hpc
      rw [htob]
      exact ⟨c.utcNow, cid, w.arb, hreq⟩
    · rw [hsame.comms] at hpc
      rw [hsame.topOfBook]
      exact hq.sending req hpc
  · intro req hmem
    rcases mem_executionRx_step h hmem with hmem | ⟨⟨c, rfl⟩, hsend⟩
    · exact hq.queued req hmem
    · -- the only step that adds a request is one that the condition speaks of
      exact ha req hsend

/-- A step is for priced legs exactly when it rests on offers. -/
theorem pricedStep_iff {cfg : Config} {p : System} (hq : p.Quoted) (a : Action) :
    PricedStep cfg p a ↔ OfferedStep cfg p a := by
  cases a with
  | comms c =>
    refine forall_congr' fun req => forall_congr' fun hsend => ?_
    obtain ⟨now, cid, pair, hreq⟩ := hq.sending req hsend.1
    obtain ⟨-, aTob, mTob, _, _, ha, hm, -, -, -, -, hbuilt⟩ := evaluate_eq_some hreq
    -- the legs of the request are those of the pair
    have hanchor : req.anchor = pair.anchor := by rw [hbuilt]; rfl
    have hmatch : req.match = pair.match := by rw [hbuilt]; rfl
    rw [ha, hm] at hreq
    simp [request_priced_iff hreq, StoredOffer, hanchor, hmatch, ha, hm]
  | execReceive ans =>
    refine forall_congr' fun req => forall_congr' fun hrec => ?_
    cases hmode : cfg.optimistic with
    | false => simp [buysPriced_http_iff hmode]
    | true =>
      have hpriced := hq.queued req (List.mem_of_head? hrec.2)
      simp [buysPriced_optimistic hmode p.exec.balances ans hpriced]
  | _ => exact Iff.rfl

theorem quoted_init (fraction minSize : ℚ) : (init fraction minSize).Quoted where
  sending req h := by cases h
  queued req h := by cases h

/-- **Both legs are really priced**, in all requests and orders of a run, exactly when each
    request is enqueued on stored offers, and each order at prices fetched over HTTP goes out
    on levels that are offers. -/
theorem legs_priced_iff (cfg : Config) (fraction minSize : ℚ) (as : List Action) :
    Along (step cfg) (PricedStep cfg) (init fraction minSize) as ↔
      Along (step cfg) (OfferedStep cfg) (init fraction minSize) as :=
  along_congr (fun _ _ _ hs ha h => hs.step ha h) (fun _ a hs => pricedStep_iff hs a)
    (quoted_init fraction minSize)

/-! ## §4 A free leg -/

/-- The ticker of the Kalshi leg at 0.40, and the quote of a Polymarket leg without any ask. -/
def freeLegSteps : List Action :=
  confirmSteps (sampleArb "K" "11") "x" ++ [commsOffline, commsOffline,
    .receive (.kalshi (.tickerUpdate ⟨"K", "0.38", "0.40", "50", "50", 1, 1⟩)),
    commsWith ["x"], commsOne, commsOne, commsOne,
    .receive (.polymarket (.bestBidAsk ⟨"11", "0", "0", "1"⟩)),
    commsWith ["x"], commsOne, commsOne, commsOne]

/-- Order books in which the best NO bid is a whole dollar. -/
def freeLevelHttp : HttpVenue :=
  { sampleHttp with
    getMarketOrderbook := fun _ => .ok { yesDollars := none, noDollars := some [("1.00", "50")] } }

/-- The answers to a handling with these order books. -/
def freeLevelAnswers : ExecAnswers := { silentAnswers with anchorHttp := freeLevelHttp }

/-- **A free leg**: a request is enqueued with a leg at price zero, and its handling buys the
    other leg at price zero. -/
theorem free_leg_traded :
    ∃ p q req, run (step httpConfig) (init (1 / 5) 2) freeLegSteps = some p ∧ p.Enqueues req ∧
      req.matchWsPrice.toRat = 0 ∧ run (step httpConfig) p [commsOne, refreshFunds] = some q ∧
      q.Receives req ∧
      (handleExecutionRequest httpConfig q.exec.balances freeLevelAnswers req).Submits ∧
      ∃ buy ∈ (handleExecutionRequest httpConfig q.exec.balances freeLevelAnswers req).orders,
        buy.price.toRat = 0 := by
  have hrun : (run (step httpConfig) (init (1 / 5) 2) freeLegSteps).any (fun p =>
      p.comms.pc.sending.any fun req =>
        decide (req.matchWsPrice.toRat = 0) && p.executionRx.isEmpty &&
        (run (step httpConfig) p [commsOne, refreshFunds]).any fun q =>
          q.exec.pc.isIdle && decide (q.executionRx.head? = some req) &&
          let h := handleExecutionRequest httpConfig q.exec.balances freeLevelAnswers req
          decide h.Submits && h.orders.any fun buy => decide (buy.price.toRat = 0)) = true := by
    decide +kernel
  obtain ⟨p, hp, hsends⟩ := (Option.any_eq_true _ _).mp hrun
  obtain ⟨req, hreq, h⟩ := (Option.any_eq_true _ _).mp hsends
  have hpc := CommsPc.sending_eq_some.mp hreq
  simp only [Bool.and_eq_true, decide_eq_true_eq, List.isEmpty_iff, Option.any_eq_true,
    List.any_eq_true] at h
  obtain ⟨⟨hzero, hempty⟩, q, hq, ⟨hidle, hhead⟩, hsub, buy, hbuy, hprice⟩ := h
  refine ⟨p, q, req, hp, ⟨hpc, by simp [hempty, executionCapacity]⟩, hzero, hq, ⟨?_, hhead⟩,
    hsub, buy, hbuy, hprice⟩
  exact ExecPc.isIdle_iff.mp hidle

end System

end Degenerate.Picker
