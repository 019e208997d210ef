import Degenerate.Picker.Exposure
import Degenerate.Picker.OrderTerms

/-!
# What the Trades Can Cost

A pair of legs pays a dollar whichever side wins, and `handle_execution_request` buys it only
below 98.5 cents.  The limits that go out may be rounded up, but never to more than 99.5 cents
for the pair, and a venue charges at most the limit.  So contracts that both legs have filled
are paid for by what they will pay out, and only the excess of the longer leg is at risk.

## Main Results

- `cost_le_larger`: what the fills of one trade can cost
- `locked_in_profit`: what the fills of a whole run can cost
-/

namespace Degenerate.Picker

open Degenerate.Lib

/-! ## §1 One trade -/

/-- The most that one contract of a buy can cost; nothing if no order goes out. -/
def Buy.limit (buy : Buy) : ℚ := (buy.order.sent.map SentOrder.limitPrice).getD 0

/-- The most that the venue can charge for what it reports as filled. -/
def Buy.cost (buy : Buy) : ℚ := buy.limit * buy.reported

/-- The contracts that both legs of a trade have filled. -/
def matched (t : Buy × Buy) : ℚ := min t.1.reported t.2.reported

/-- The contracts that one leg has filled beyond the other. -/
def excess (t : Buy × Buy) : ℚ := |t.1.reported - t.2.reported|

/-- A buy at a price that is not negative, with a reported fill that is not negative. -/
def Buy.Fair (buy : Buy) : Prop := 0 ≤ buy.price.toRat ∧ 0 ≤ buy.reported

instance (buy : Buy) : Decidable buy.Fair := inferInstanceAs (Decidable (_ ∧ _))

theorem roundDp_nonneg {x : ℚ} (hx : 0 ≤ x) (dp : ℕ) : 0 ≤ roundDp x dp := by
  have hzero : ((0 : ℤ) : ℚ) / 10 ^ dp ≤ roundDp x dp := le_roundDp (by simpa using hx)
  simpa using hzero

/-- A limit is not negative, as far as the price is not. -/
theorem limitPrice_nonneg {uuidV5 : String → String} {venue : OrderVenue}
    {leg : ArbMinifiedInfo} {size : ℚ} {price : Decimal} {cid : CorrelationId} {order : SentOrder}
    (hprice : 0 ≤ price.toRat)
    (h : (makeFakOrder uuidV5 venue leg size price cid).sent = some order) :
    0 ≤ order.limitPrice := by
  -- Kalshi sends whole cents, Polymarket the price rounded to two places
  unfold makeFakOrder at h
  split at h
  · rcases makeKalshiFak_cases uuidV5 venue leg size price cid with ⟨e, he⟩ |
      ⟨cents, count, -, -, -, he⟩
    · rw [he] at h
      cases h
    · rw [he] at h
      cases h
      rw [limitPrice_kalshiRequest]
      positivity
  · rcases submitLimitOrder_cases venue leg.tokenId
      (fun token => ⟨token, roundDp size 2, roundDp price.toRat 2, .buy, .fak⟩)
      "error creating polymarket order" (polyFill size) with ⟨e, he⟩ | ⟨token, -, he⟩
    · rw [he] at h
      cases h
    · rw [he] at h
      cases h
      exact roundDp_nonneg hprice 2

/-- The limit of a leg is at most half a cent above its price. -/
theorem limit_buyLeg {cfg : Config} {venue : OrderVenue} {cid : CorrelationId}
    {leg : ArbMinifiedInfo} {n : ℤ} {price : Decimal} (hprice : 0 ≤ price.toRat) :
    0 ≤ (buyLeg cfg venue cid leg n price).limit ∧
      (buyLeg cfg venue cid leg n price).limit ≤ price.toRat + 5 / 1000 := by
  unfold Buy.limit
  cases hsent : (buyLeg cfg venue cid leg n price).order.sent with
  | none =>
      simp only [Option.map_none, Option.getD_none]
      exact ⟨le_rfl, by linarith⟩
  | some order => exact ⟨limitPrice_nonneg hprice hsent, (makeFakOrder_terms hsent).2⟩

/-- The two buys of a handling that goes ahead. -/
def buysOf (cfg : Config) (ans : ExecAnswers) (req : ExecutionRequest) (m : Metrics) (size : ℚ) :
    Buy × Buy :=
  (buyLeg cfg ans.anchorVenue req.correlationId req.anchor size m.anchorPrice,
    buyLeg cfg ans.matchVenue req.correlationId req.match size m.matchPrice)

/-- A handling trades if it goes ahead. -/
theorem trade_eq_some_iff {cfg : Config} {bal : BalanceTracker} {ans : ExecAnswers}
    {req : ExecutionRequest} {m : Metrics} {size : ℚ} {buys : Buy × Buy} :
    trade cfg bal ans req = some (m, size, buys) ↔
      GoesAhead cfg bal ans req m size ∧ buys = buysOf cfg ans req m size := by
  constructor
  · -- each refusal is `none`; what is left is the trade
    intro h
    unfold trade at h
    split at h
    · cases h
    · rename_i m' hm
      split at h
      · cases h
      · rename_i hband
        obtain ⟨size', hsize, hbuys⟩ := Option.map_eq_some_iff.mp h
        cases hbuys
        obtain ⟨hpos, hworth⟩ := outOfBand_eq_false_iff.mp (Bool.eq_false_iff.mpr hband)
        exact ⟨⟨hm, hpos, hworth, hsize⟩, rfl⟩
  · rintro ⟨hgo, rfl⟩
    have hband : m.outOfBand = false := outOfBand_eq_false_iff.mpr ⟨hgo.positive, hgo.worth⟩
    simp [trade, hgo.metrics, hband, hgo.sized, buysOf]

/-- The orders of a handling are those of its trade. -/
theorem orders_trade (cfg : Config) (bal : BalanceTracker) (ans : ExecAnswers)
    (req : ExecutionRequest) : (handleExecutionRequest cfg bal ans req).orders =
      (tradeBuys cfg bal ans req).toList.flatMap fun t => [t.1, t.2] := by
  unfold tradeBuys
  cases htrade : trade cfg bal ans req with
  | none =>
      have hno : ∀ m size, ¬ GoesAhead cfg bal ans req m size := by
        intro m size hgo
        rw [trade_eq_some_iff.mpr ⟨hgo, rfl⟩] at htrade
        cases htrade
      rw [(quiet_of_not_goesAhead hno).1]
      rfl
  | some t =>
      obtain ⟨m, size, buys⟩ := t
      obtain ⟨hgo, rfl⟩ := trade_eq_some_iff.mp htrade
      rw [handleExecutionRequest_goesAhead hgo, placeOrders_orders]
      rfl

/-- **One trade** costs at most 99.5 cents for each contract of the leg that filled more. -/
theorem cost_le_larger {cfg : Config} {bal : BalanceTracker} {ans : ExecAnswers}
    {req : ExecutionRequest} {t : Buy × Buy} (ht : tradeBuys cfg bal ans req = some t)
    (hanchor : t.1.Fair) (hmatch : t.2.Fair) :
    t.1.cost + t.2.cost ≤ 995 / 1000 * (matched t + excess t) := by
  obtain ⟨⟨m, size, buys⟩, htrade, rfl⟩ := Option.map_eq_some_iff.mp ht
  obtain ⟨hgo, rfl⟩ := trade_eq_some_iff.mp htrade
  have hpositive : 0 < m.anchorPrice.toRat + m.matchPrice.toRat :=
    m.totalCost_eq ▸ hgo.positive
  obtain ⟨n, rfl, -⟩ := (bal.computeSize_eq_some_iff _ hpositive).mp hgo.sized
  set a := (buysOf cfg ans req m n).1
  set b := (buysOf cfg ans req m n).2
  obtain ⟨hlow, hhigh⟩ : 0 ≤ a.limit ∧ a.limit ≤ m.anchorPrice.toRat + 5 / 1000 :=
    limit_buyLeg hanchor.1
  obtain ⟨hlow', hhigh'⟩ : 0 ≤ b.limit ∧ b.limit ≤ m.matchPrice.toRat + 5 / 1000 :=
    limit_buyLeg hmatch.1
  -- half a cent of rounding on each leg, on top of prices of at most 98.5 cents
  have hlimits : a.limit + b.limit ≤ 995 / 1000 := by
    have hworth := hgo.worth
    rw [m.totalCost_eq] at hworth
    linarith
  -- the longer leg is as long as what is matched and what is not
  have hlonger : max a.reported b.reported = min a.reported b.reported +
      |a.reported - b.reported| := by
    rw [← max_sub_min_eq_abs']
    ring
  show a.cost + b.cost ≤ 995 / 1000 * (min a.reported b.reported + |a.reported - b.reported|)
  rw [← hlonger]
  calc a.cost + b.cost
      ≤ a.limit * max a.reported b.reported + b.limit * max a.reported b.reported :=
        add_le_add (mul_le_mul_of_nonneg_left (le_max_left _ _) hlow)
          (mul_le_mul_of_nonneg_left (le_max_right _ _) hlow')
    _ = (a.limit + b.limit) * max a.reported b.reported := (add_mul _ _ _).symm
    _ ≤ 995 / 1000 * max a.reported b.reported :=
        mul_le_mul_of_nonneg_right hlimits (hanchor.2.trans (le_max_left _ _))

/-! ## §2 Runs -/

/-- The buy orders of a step. -/
def Executor.startedBuys (cfg : Config) (x : Executor) : ExecAction → List Buy
  | .receive req ans => (handleExecutionRequest cfg x.balances ans req).orders
  | _ => []

/-- The buy orders of a run are those of its trades. -/
theorem buys_trades (cfg : Config) (x : Executor) (as : List ExecAction) :
    trace (Executor.startedBuys cfg) (Executor.step cfg) x as =
      (trades cfg x as).flatMap fun t => [t.1, t.2] := by
  have hsame : Executor.startedBuys cfg =
      fun x a => (Executor.startedTrade cfg x a).flatMap fun t => [t.1, t.2] := by
    funext x a
    cases a with
    | receive req ans => exact orders_trade cfg x.balances ans req
    | _ => rfl
  rw [trades, flatMap_trace, hsame]

/-- **Matched contracts pay for themselves**: over every run of the executor in which no buy has
a negative price and no venue reports a negative fill, from whatever balances, all buy orders
together cost at most 99.5 cents for each contract that both legs have filled, and as much for
each one in excess. -/
theorem locked_in_profit (cfg : Config) (x : Executor) (as : List ExecAction)
    (hfair : ∀ buy ∈ trace (Executor.startedBuys cfg) (Executor.step cfg) x as, buy.Fair) :
    ((trace (Executor.startedBuys cfg) (Executor.step cfg) x as).map Buy.cost).sum ≤
      995 / 1000 * (((trades cfg x as).map matched).sum + ((trades cfg x as).map excess).sum) := by
  rw [buys_trades] at hfair ⊢
  -- each trade starts from the balances of its own time
  have htrades : ∀ t ∈ trades cfg x as, ∃ bal ans req, tradeBuys cfg bal ans req = some t := by
    refine forall_mem_trace (I := fun _ => True) (fun _ _ _ _ _ => trivial) ?_ trivial
    intro x a _ t ht
    cases a with
    | receive req ans => exact ⟨x.balances, ans, req, by simpa [Executor.startedTrade] using ht⟩
    | _ => cases ht
  revert hfair htrades
  induction trades cfg x as with
  | nil => simp
  | cons t ts ih =>
      intro hfair htrades
      obtain ⟨bal, ans, req, ht⟩ := htrades t List.mem_cons_self
      have hcost := cost_le_larger ht (hfair t.1 (by simp)) (hfair t.2 (by simp))
      have hrest := ih (fun buy hbuy => hfair buy (by simp at hbuy ⊢; exact .inr (.inr hbuy)))
        (fun u hu => htrades u (List.mem_cons_of_mem t hu))
      simp only [List.flatMap_cons, List.map_append, List.sum_append, List.map_cons,
        List.map_nil, List.sum_cons, List.sum_nil] at hrest ⊢
      linarith

/-- Two trades that both venues fill with fifty contracts. -/
theorem locked_in_profit_sample : ∃ x,
    run (Executor.step sampleConfig) (.new fun _ => none) [.refresh ⟨some 100000, some 1000⟩] =
      some x ∧
    ((trace (Executor.startedBuys sampleConfig) (Executor.step sampleConfig) x tradeTwice).map
      Buy.cost).sum ≤ 995 / 1000 * 100 := by
  have hcheck : (run (Executor.step sampleConfig) (.new fun _ => none)
      [.refresh ⟨some 100000, some 1000⟩]).any (fun x =>
        decide (∀ buy ∈ trace (Executor.startedBuys sampleConfig) (Executor.step sampleConfig) x
          tradeTwice, buy.Fair) &&
        decide (((trades sampleConfig x tradeTwice).map matched).sum = 100 ∧
          ((trades sampleConfig x tradeTwice).map excess).sum = 0)) = true := by decide +kernel
  obtain ⟨x, hx, hx'⟩ := (Option.any_eq_true _ _).mp hcheck
  simp only [Bool.and_eq_true, decide_eq_true_eq] at hx'
  obtain ⟨hfair, hmatched, hexcess⟩ := hx'
  have hcost := locked_in_profit sampleConfig x tradeTwice hfair
  rw [hmatched, hexcess, add_zero] at hcost
  exact ⟨x, hx, hcost⟩

end Degenerate.Picker
