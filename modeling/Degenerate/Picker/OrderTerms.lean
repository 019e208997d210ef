import Degenerate.Picker.ExecutionOutcome
import Degenerate.Picker.ExecutionModes
import Degenerate.Picker.Sizing

/-!
# Order Terms

What an order asks for once its price and its quantity are in the units of its
venue: whole cents and whole contracts on Kalshi, two places on Polymarket.  A buy
has to stay below the payout of its pair; a sell has to stay within the excess that
it sells, and the message about it has to say what was sold.

## Main Results

- `sent_limits_le`: the limits of both legs leave half a cent of the dollar
- `hedge_truthful_iff`: when a hedge is what its message says
-/

namespace Degenerate.Picker

open Degenerate.Lib

/-! ## §1 Terms of a sent order -/

/-- The limit price of an order, in dollars. -/
def SentOrder.limitPrice : SentOrder → ℚ
  | .kalshi req => ((req.yesPrice.or req.noPrice).getD 0 : ℚ) / 100
  | .polymarket order => order.price

/-- The number of contracts or shares of an order. -/
def SentOrder.quantity : SentOrder → ℚ
  | .kalshi req => req.count.getD 0
  | .polymarket order => order.size

/-- The venue's unit of quantity: one contract, or a hundredth of a share. -/
def lot : Platform → ℚ
  | .kalshi => 1
  | .polymarket => 1 / 100

/-- A Kalshi order is priced on the side of its leg. -/
@[simp] theorem limitPrice_kalshiRequest (leg : ArbMinifiedInfo) (action : String)
    (count price : ℕ) (id : String) (postOnly : Bool) (tif : String) :
    (SentOrder.kalshi (kalshiRequest leg action count price id postOnly tif)).limitPrice =
      price / 100 := by
  cases hleg : leg.leg <;> simp [SentOrder.limitPrice, kalshiRequest, sideStr, hleg]

@[simp] theorem quantity_kalshiRequest (leg : ArbMinifiedInfo) (action : String)
    (count price : ℕ) (id : String) (postOnly : Bool) (tif : String) :
    (SentOrder.kalshi (kalshiRequest leg action count price id postOnly tif)).quantity = count :=
  rfl

/-! ## §2 Buys -/

/-- A buy of a whole number of contracts is sent for that number, and its limit is at most
    half a cent above the price. -/
theorem makeFakOrder_terms {uuidV5 : String → String} {venue : OrderVenue}
    {leg : ArbMinifiedInfo} {n : ℤ} {price : Decimal} {cid : CorrelationId} {order : SentOrder}
    (h : (makeFakOrder uuidV5 venue leg n price cid).sent = some order) :
    order.quantity = n ∧ order.limitPrice ≤ price.toRat + 5 / 1000 := by
  unfold makeFakOrder at h
  split at h
  · rcases makeKalshiFak_cases uuidV5 venue leg n price cid with ⟨e, he⟩ |
      ⟨cents, count, hcents, hcount, -, he⟩
    · rw [he] at h
      cases h
    · rw [he] at h
      cases h
      rw [limitPrice_kalshiRequest, quantity_kalshiRequest]
      -- the floor of the cents is below the price
      have hfloor : (cents : ℚ) ≤ price.toRat * 100 := by
        rw [toU64_intCast hcents]
        exact Int.floor_le _
      refine ⟨toU64_intCast hcount, ?_⟩
      linarith
  · rcases submitLimitOrder_cases venue leg.tokenId
      (fun token => ⟨token, roundDp n 2, roundDp price.toRat 2, .buy, .fak⟩)
      "error creating polymarket order" (polyFill n) with ⟨e, he⟩ | ⟨token, -, he⟩
    · rw [he] at h
      cases h
    · rw [he] at h
      cases h
      have hround := (abs_le.mp (abs_roundDp_sub_le price.toRat 2)).2
      refine ⟨roundDp_intCast n 2, ?_⟩
      show roundDp price.toRat 2 ≤ _
      linarith

/-- The tracker that the executor is started with, at some balances. -/
def trackerAt (env : String → Option String) (kalshi poly : ℚ) : BalanceTracker :=
  ((BalanceTracker.new env).set kalshi .kalshi).set poly .polymarket

/-- A size of the executor's tracker is a positive whole number. -/
theorem GoesAhead.size_pos {cfg : Config} {env : String → Option String} {kalshi poly : ℚ}
    {ans : ExecAnswers} {req : ExecutionRequest} {m : Metrics} {size : ℚ}
    (h : GoesAhead cfg (trackerAt env kalshi poly) ans req m size) : ∃ n : ℤ, size = n ∧ 0 < n := by
  have hmin : 0 < (trackerAt env kalshi poly).minTradeSize := BalanceTracker.new_minTradeSize env
  have hcost : 0 < m.anchorPrice.toRat + m.matchPrice.toRat := by
    rw [← Decimal.toRat_add]
    exact h.positive
  exact BalanceTracker.computeSize_pos hmin hcost h.sized

/-- Orders are placed by a handling that goes ahead. -/
theorem goesAhead_of_orders {cfg : Config} {bal : BalanceTracker} {ans : ExecAnswers}
    {req : ExecutionRequest} {buy : Buy} {rest : List Buy}
    (h : (handleExecutionRequest cfg bal ans req).orders = buy :: rest) :
    ∃ m size, GoesAhead cfg bal ans req m size := by
  by_contra hnot
  push Not at hnot
  rw [(quiet_of_not_goesAhead hnot).1] at h
  cases h

/-- **A complete fill costs less than its payout**: whatever the venues of the two legs, the
    limits that go out sum to at most 0.995, for the same positive whole number of contracts. -/
theorem sent_limits_le (cfg : Config) (env : String → Option String) (kalshi poly : ℚ)
    (ans : ExecAnswers) (req : ExecutionRequest) {anchor other : Buy}
    {anchorOrder otherOrder : SentOrder}
    (horders : (handleExecutionRequest cfg (trackerAt env kalshi poly) ans req).orders =
      [anchor, other])
    (ha : anchor.order.sent = some anchorOrder) (ho : other.order.sent = some otherOrder) :
    anchorOrder.limitPrice + otherOrder.limitPrice ≤ 995 / 1000 ∧
    ∃ m size, GoesAhead cfg (trackerAt env kalshi poly) ans req m size ∧
      ∃ n : ℕ, size = n ∧ 0 < n ∧ anchorOrder.quantity = n ∧ otherOrder.quantity = n := by
  obtain ⟨m, size, hgo⟩ := goesAhead_of_orders horders
  rw [handleExecutionRequest_goesAhead hgo, placeOrders_orders] at horders
  cases horders
  -- the size is a whole number, so neither venue rounds it
  obtain ⟨n, rfl, hpos⟩ := hgo.size_pos
  obtain ⟨hacount, haprice⟩ := makeFakOrder_terms ha
  obtain ⟨hocount, hoprice⟩ := makeFakOrder_terms ho
  have hcost : m.anchorPrice.toRat + m.matchPrice.toRat ≤ 985 / 1000 := by
    rw [← Decimal.toRat_add]
    exact hgo.worth
  have hnat : ((n.toNat : ℕ) : ℚ) = n := by exact_mod_cast Int.toNat_of_nonneg hpos.le
  refine ⟨by linarith, m, n, hgo, n.toNat, hnat.symm, by omega, ?_, ?_⟩
  · rw [hnat, hacount]
  · rw [hnat, hocount]

/-- The sample pair with both legs filled, and the limits that go out for it. -/
theorem sent_limits_le_sample :
    ∃ anchor other anchorOrder otherOrder,
      (handleExecutionRequest sampleConfig (trackerAt (fun _ => none) 1000 1000)
        (filledAnswers "50.00" 50000000) sampleRequest).orders = [anchor, other] ∧
      anchor.order.sent = some anchorOrder ∧ other.order.sent = some otherOrder ∧
      anchorOrder.limitPrice + otherOrder.limitPrice ≤ 995 / 1000 := by
  have hcheck : (handleExecutionRequest sampleConfig (trackerAt (fun _ => none) 1000 1000)
      (filledAnswers "50.00" 50000000) sampleRequest).orders.map (·.order.sent.isSome) =
        [true, true] := by decide +kernel
  obtain ⟨anchor, rest, horders, ha, hrest⟩ := List.map_eq_cons_iff.mp hcheck
  obtain ⟨other, rest, rfl, ho, hnil⟩ := List.map_eq_cons_iff.mp hrest
  rw [List.map_eq_nil_iff] at hnil
  subst hnil
  obtain ⟨anchorOrder, ha⟩ := Option.isSome_iff_exists.mp ha
  obtain ⟨otherOrder, ho⟩ := Option.isSome_iff_exists.mp ho
  exact ⟨anchor, other, anchorOrder, otherOrder, horders, ha, ho,
    (sent_limits_le sampleConfig (fun _ => none) 1000 1000 (filledAnswers "50.00" 50000000)
      sampleRequest horders ha ho).1⟩

/-! ## §3 Hedges -/

/-- The limit of a hedge before it is put in the venue's units: two cents above the price of
    its leg, at most 0.99. -/
def hedgeLimit (price : ℚ) : ℚ := min (price + 2 / 100) (99 / 100)

/-- The quantity of a hedge that reaches the order endpoint. -/
def sellQuantity (excess : ℚ) : Platform → ℚ
  | .kalshi => ⌊excess⌋
  | .polymarket => roundDp excess 2

/-- The limit price of a hedge that reaches the order endpoint. -/
def sellLimit (limit : ℚ) : Platform → ℚ
  | .kalshi => ⌊limit * 100⌋ / 100
  | .polymarket => roundDp limit 2

/-- A hedge goes out only for a quantity: on Kalshi a count that is positive and fits its type,
    on Polymarket a size that is not rounded to zero. -/
def Sellable (excess : ℚ) : Platform → Prop
  | .kalshi => 1 ≤ excess ∧ excess < 2 ^ 64
  | .polymarket => 5 / 1000 < excess

/-- The count of a Kalshi hedge, which is zero when none goes out. -/
theorem kalshiCount_eq {excess : ℚ} (hpos : 0 < excess) :
    ((toU64 ⌊excess⌋).getD 0 = 0 ↔ ¬ Sellable excess .kalshi) ∧
      (Sellable excess .kalshi → ((toU64 ⌊excess⌋).getD 0 : ℚ) = ⌊excess⌋) := by
  -- the floor fits a `u64` exactly if the excess does
  have hnonneg : 0 ≤ ⌊excess⌋ := Int.floor_nonneg.mpr hpos.le
  have hcast : (0 : ℚ) ≤ (⌊excess⌋ : ℤ) := by exact_mod_cast hnonneg
  have hbound : ⌊excess⌋.toNat < 2 ^ 64 ↔ excess < 2 ^ 64 := by
    have hiff : ⌊excess⌋ < (2 ^ 64 : ℤ) ↔ excess < 2 ^ 64 := by
      rw [Int.floor_lt]
      push_cast
      rfl
    rw [← hiff]
    omega
  by_cases hlt : excess < 2 ^ 64
  · have hcount : toU64 ⌊excess⌋ = some ⌊excess⌋.toNat := by
      refine toU64_eq_some_iff.mpr ⟨hcast, ?_, hbound.mpr hlt⟩
      rw [Int.floor_intCast]
      exact (Int.toNat_of_nonneg hnonneg).symm
    rw [hcount, Option.getD_some]
    constructor
    · have hone : 1 ≤ ⌊excess⌋ ↔ 1 ≤ excess := Int.le_floor.trans (by norm_num)
      simp only [Sellable, hlt, and_true, ← hone]
      omega
    · intro _
      exact_mod_cast Int.toNat_of_nonneg hnonneg
  · -- a floor that is too large is no `u64`, and the count falls back to zero
    have hnone : toU64 ⌊excess⌋ = none := by
      apply Option.eq_none_iff_forall_ne_some.mpr
      intro n hn
      obtain ⟨-, hfloor, hn⟩ := toU64_eq_some_iff.mp hn
      rw [Int.floor_intCast] at hfloor
      exact hlt (hbound.mp (by omega))
    rw [hnone]
    simp [Sellable, hlt]

/-- The cents of a Kalshi hedge. -/
theorem kalshiCents_eq {limit : ℚ} (hpos : 0 ≤ limit) (hle : limit ≤ 99 / 100) :
    ((toU64 ⌊limit * 100⌋).getD 99 : ℚ) = ⌊limit * 100⌋ := by
  have hnonneg : 0 ≤ ⌊limit * 100⌋ := Int.floor_nonneg.mpr (by positivity)
  have hsmall : ⌊limit * 100⌋ ≤ 99 := by
    have : (⌊limit * 100⌋ : ℚ) ≤ 99 := (Int.floor_le _).trans (by linarith)
    exact_mod_cast this
  have hcents : toU64 ⌊limit * 100⌋ = some ⌊limit * 100⌋.toNat := by
    refine toU64_eq_some_iff.mpr ⟨by exact_mod_cast hnonneg, ?_, by omega⟩
    rw [Int.floor_intCast]
    exact (Int.toNat_of_nonneg hnonneg).symm
  rw [hcents, Option.getD_some]
  exact_mod_cast Int.toNat_of_nonneg hnonneg

/-- The limit of a hedge of a leg that is priced inside the dollar. -/
theorem hedgeLimit_mem {price : ℚ} (hpos : 0 < price) :
    2 / 100 ≤ hedgeLimit price ∧ hedgeLimit price ≤ 99 / 100 := by
  refine ⟨le_min ?_ (by norm_num), min_le_right _ _⟩
  linarith

/-- The report of a Polymarket hedge repeats what was asked for. -/
theorem polyHedge_terms {excess price : ℚ} {answer : Except String PostOrderResponse} {r : Hedge}
    (h : polyHedge excess price answer = .ok r) : r.2.2 = (excess, price) := by
  cases answer with
  | error e => cases h
  | ok response =>
    simp only [polyHedge] at h
    split at h
    · cases h
      rfl
    · cases h

/-- A Polymarket size is zero when no hedge goes out. -/
theorem polymarketSize_eq {excess : ℚ} (hpos : 0 < excess) :
    roundDp excess 2 = 0 ↔ ¬ Sellable excess .polymarket := by
  rw [roundDp_eq_zero_iff hpos.le, Sellable, not_lt]
  constructor <;> intro h <;> linarith

/-- **What a hedge sends and reports**: nothing, or one order whose terms are rounded for the
    venue, and a report of the terms before the rounding. -/
theorem hedgeSellOrder_terms (venue : OrderVenue) (id : String) (leg : ArbMinifiedInfo)
    {excess price : ℚ} (he : 0 < excess) (hp : 0 < price) :
    (hedgeSellOrder venue id leg excess (price + 2 / 100)).sent = none ∧
        (∀ r, (hedgeSellOrder venue id leg excess (price + 2 / 100)).result ≠ .ok r) ∨
      (venue.RefusesEmpty → Sellable excess leg.platform) ∧ ∃ order,
        (hedgeSellOrder venue id leg excess (price + 2 / 100)).sent = some order ∧
        order.quantity = sellQuantity excess leg.platform ∧
        order.limitPrice = sellLimit (hedgeLimit price) leg.platform ∧
        ∀ r, (hedgeSellOrder venue id leg excess (price + 2 / 100)).result = .ok r →
          r.2.2 = (excess, hedgeLimit price) := by
  obtain ⟨hlow, hhigh⟩ := hedgeLimit_mem hp
  have hlimit : min (price + 2 / 100) (99 / 100) = hedgeLimit price := rfl
  simp only [hedgeSellOrder, hlimit]
  split
  · rename_i hkalshi
    obtain ⟨hzero, hcount⟩ := kalshiCount_eq he
    rw [hkalshi]
    split
    · exact .inl ⟨rfl, by simp [Placed.unsent]⟩
    · rename_i hne
      have hsell : Sellable excess .kalshi := by
        by_contra hnot
        exact hne (hzero.mpr hnot)
      refine .inr ⟨fun _ => hsell, _, rfl, ?_, ?_, ?_⟩
      · rw [quantity_kalshiRequest, hcount hsell]
        rfl
      · rw [limitPrice_kalshiRequest, kalshiCents_eq (by linarith) hhigh]
        rfl
      · intro r hr
        split at hr
        · cases hr
          rfl
        · cases hr
  · rename_i hpoly
    rw [hpoly]
    rcases submitLimitOrder_cases venue leg.tokenId
      (fun token => ⟨token, roundDp excess 2, roundDp (hedgeLimit price) 2, .sell, .gtc⟩)
      "Failed to build Polymarket hedge order" (polyHedge excess (hedgeLimit price)) with
      ⟨e, h⟩ | ⟨token, -, h⟩
    · rw [h]
      exact .inl ⟨rfl, by simp [Placed.unsent]⟩
    · -- a builder that refuses size zero has built no size that rounds to zero
      have hbuilt := submitLimitOrder_built (congrArg Placed.sent h)
      rw [h]
      refine .inr ⟨fun hrefuses => ?_, _, rfl, rfl, rfl, fun r hr => polyHedge_terms hr⟩
      obtain ⟨token', hok, -⟩ := hbuilt
      by_contra hnot
      exact hrefuses _ ((polymarketSize_eq he).mpr hnot) hok

/-- The sample venue refuses an order for nothing. -/
theorem fillVenue_refusesEmpty (fillCountFp : String) (takingAmount : ℚ) :
    (fillVenue fillCountFp takingAmount).RefusesEmpty := by
  intro order hsize
  simp [fillVenue, hsize]

/-- A venue that accepts the hedge of a leg. -/
theorem hedgeSellOrder_accepted (id : String) (leg : ArbMinifiedInfo) {excess : ℚ}
    (he : 0 < excess) (price : ℚ) (hs : Sellable excess leg.platform) :
    ∃ r, (hedgeSellOrder (fillVenue "0" 0) id leg excess price).result = .ok r := by
  simp only [hedgeSellOrder]
  split
  · rename_i hkalshi
    rw [hkalshi] at hs
    rw [if_neg (fun hzero => (kalshiCount_eq he).1.mp hzero hs)]
    exact ⟨_, rfl⟩
  · rename_i hpoly
    rw [hpoly] at hs
    have hsize : roundDp excess 2 ≠ 0 := fun hzero => (polymarketSize_eq he).mp hzero hs
    simp [submitLimitOrder, fillVenue, hsize, polyHedge]

/-! ## §4 Truthful hedges -/

/-- Every hedge order among the effects stays within the excess by less than a lot, its limit
    is a price inside the dollar, and the message about it repeats its terms. -/
def HedgedExactly (effects : List ExecEffect) (platform : Platform) (excess : ℚ) : Prop :=
  ∀ hedge order, .hedgeSellOrder hedge ∈ effects → hedge.sent = some order →
    (order.quantity ≤ excess ∧ excess - order.quantity < lot platform) ∧
    (1 / 100 ≤ order.limitPrice ∧ order.limitPrice ≤ 99 / 100) ∧
    ∀ ebo msg, .send ebo ∈ effects → ebo.action = .excessFillSubmitted msg →
      msg.excessFillSize = order.quantity ∧ msg.excessFillCost = order.limitPrice

/-- Nothing of a hedge is rounded away: the excess is a number of lots, and the limit a number
    of cents. -/
def Unrounded (platform : Platform) (excess limit : ℚ) : Prop :=
  (∃ n : ℤ, excess = n * lot platform) ∧ ∃ n : ℤ, limit = n * (1 / 100)

/-- Quantities are rounded by less than a lot. -/
theorem abs_sellQuantity_sub_lt (excess : ℚ) (platform : Platform) :
    |sellQuantity excess platform - excess| < lot platform := by
  cases platform with
  | kalshi =>
    have hfloor := Int.floor_le excess
    have hceil := Int.lt_floor_add_one excess
    rw [abs_lt]
    simp only [sellQuantity, lot]
    constructor <;> linarith
  | polymarket =>
    exact (abs_roundDp_sub_le excess 2).trans_lt (by norm_num [lot])

/-- A quantity is kept when it is a number of lots. -/
theorem sellQuantity_eq_self_iff {excess : ℚ} {platform : Platform} :
    sellQuantity excess platform = excess ↔ ∃ n : ℤ, excess = n * lot platform := by
  cases platform with
  | kalshi =>
    simp only [sellQuantity, lot, mul_one]
    constructor
    · intro h
      exact ⟨_, h.symm⟩
    · rintro ⟨n, rfl⟩
      rw [Int.floor_intCast]
  | polymarket =>
    simp only [sellQuantity, lot]
    rw [roundDp_eq_self_iff]
    apply exists_congr
    intro n
    constructor <;> intro h <;> linarith

/-- A limit is kept when it is a number of cents. -/
theorem sellLimit_eq_self_iff {limit : ℚ} {platform : Platform} :
    sellLimit limit platform = limit ↔ ∃ n : ℤ, limit = n * (1 / 100) := by
  cases platform with
  | kalshi =>
    simp only [sellLimit]
    constructor
    · intro h
      exact ⟨⌊limit * 100⌋, by linarith⟩
    · rintro ⟨n, rfl⟩
      have hcents : (n : ℚ) * (1 / 100) * 100 = n := by ring
      rw [hcents, Int.floor_intCast]
      ring
  | polymarket =>
    simp only [sellLimit]
    rw [roundDp_eq_self_iff]
    apply exists_congr
    intro n
    constructor <;> intro h <;> linarith

/-- Rounding keeps a limit inside the dollar. -/
theorem sellLimit_mem {limit : ℚ} (hlow : 2 / 100 ≤ limit) (hhigh : limit ≤ 99 / 100)
    (platform : Platform) :
    1 / 100 ≤ sellLimit limit platform ∧ sellLimit limit platform ≤ 99 / 100 := by
  cases platform with
  | kalshi =>
    have hcents : (2 : ℤ) ≤ ⌊limit * 100⌋ := Int.le_floor.mpr (by push_cast; linarith)
    have hcast : (2 : ℚ) ≤ ⌊limit * 100⌋ := by exact_mod_cast hcents
    have hfloor := Int.floor_le (limit * 100)
    simp only [sellLimit]
    constructor <;> linarith
  | polymarket =>
    have hl : ((2 : ℤ) : ℚ) / 10 ^ 2 ≤ roundDp limit 2 := le_roundDp (by push_cast; linarith)
    have hh : roundDp limit 2 ≤ ((99 : ℤ) : ℚ) / 10 ^ 2 := roundDp_le (by push_cast; linarith)
    push_cast at hl hh
    simp only [sellLimit]
    constructor <;> linarith

/-- The effects after legged fills. -/
theorem afterFills_legged (ans : ExecAnswers) (req : ExecutionRequest) {anchor «match» : Buy}
    (hne : anchor.order.fill.1 ≠ «match».order.fill.1) :
    ∃ order, (afterFills ans req anchor «match»).effects =
      .send ⟨ans.messageId, ans.orderActionAt, .orderSubmitted order⟩ ::
        hedgeEffects ans (excessFill anchor «match») (longerLeg anchor «match») ++
        [.removeInFlight req.correlationId] := by
  simp only [afterFills, if_neg hne]
  exact ⟨_, rfl⟩

/-- What follows the fills is among the effects of placed orders. -/
theorem mem_placeOrders {cfg : Config} {ans : ExecAnswers} {req : ExecutionRequest} {m : Metrics}
    {size : ℚ} {e : ExecEffect}
    (h : e ∈ (afterFills ans req
      (buyLeg cfg ans.anchorVenue req.correlationId req.anchor size m.anchorPrice)
      (buyLeg cfg ans.matchVenue req.correlationId req.match size m.matchPrice)).effects) :
    e ∈ (placeOrders cfg ans req m size).effects :=
  List.mem_cons_of_mem _ (List.mem_cons_of_mem _ (List.mem_cons_of_mem _ h))

/-- The message about an accepted hedge. -/
def hedgeReport (ans : ExecAnswers) : Except String Hedge → List ExecEffect
  | .error _ => []
  | .ok r => [.send {
      correlationId := ans.messageId
      actionAt := ans.excessActionAt
      action := .excessFillSubmitted ⟨r.1, r.2.1, r.2.2.1, r.2.2.2⟩ }]

/-- The hedge branch is the hedge and the message about it. -/
theorem hedgeEffects_eq_report (ans : ExecAnswers) (excess : ℚ) (leg : Buy) :
    hedgeEffects ans excess leg =
      .hedgeSellOrder (hedgeOf ans excess leg) ::
        hedgeReport ans (hedgeOf ans excess leg).result := by
  simp only [hedgeEffects, hedgeOf]
  split <;> simp_all [hedgeReport]

/-- The one hedge after legged fills. -/
theorem mem_afterFills_hedge (ans : ExecAnswers) (req : ExecutionRequest) {anchor «match» : Buy}
    (hne : anchor.order.fill.1 ≠ «match».order.fill.1) {hedge : Placed Hedge} :
    .hedgeSellOrder hedge ∈ (afterFills ans req anchor «match»).effects ↔
      hedge = hedgeOf ans (excessFill anchor «match») (longerLeg anchor «match») := by
  rw [← mem_hedges, afterFills_hedges, hedgesFor, if_neg hne, List.mem_singleton]

/-- The message about the hedge after legged fills. -/
theorem mem_afterFills_excess (ans : ExecAnswers) (req : ExecutionRequest) {anchor «match» : Buy}
    (hne : anchor.order.fill.1 ≠ «match».order.fill.1) {msg : ExcessFillOrderMade} :
    (∃ ebo, .send ebo ∈ (afterFills ans req anchor «match»).effects ∧
        ebo.action = .excessFillSubmitted msg) ↔
      ∃ r, (hedgeOf ans (excessFill anchor «match») (longerLeg anchor «match»)).result = .ok r ∧
        msg = ⟨r.1, r.2.1, r.2.2.1, r.2.2.2⟩ := by
  obtain ⟨order, heffects⟩ := afterFills_legged ans req hne
  rw [heffects]
  generalize excessFill anchor «match» = excess
  generalize longerLeg anchor «match» = longer
  rw [hedgeEffects_eq_report]
  cases (hedgeOf ans excess longer).result with
  | error e => simp [hedgeReport]
  | ok r => simp [hedgeReport, eq_comm]

/-- Where nothing is rounded away the hedge is what its message says. -/
theorem hedgedExactly_of_unrounded {anchor other : Buy}
    (hne : anchor.order.fill.1 ≠ other.order.fill.1)
    (hp : 0 < (longerLeg anchor other).price.toRat)
    (h : Unrounded (longerLeg anchor other).leg.platform (excessFill anchor other)
      (hedgeLimit (longerLeg anchor other).price.toRat)) (ans : ExecAnswers)
    (req : ExecutionRequest) :
    HedgedExactly (afterFills ans req anchor other).effects
      (longerLeg anchor other).leg.platform (excessFill anchor other) := by
  have he : 0 < excessFill anchor other := abs_pos.mpr (sub_ne_zero.mpr hne)
  obtain ⟨hlow, hhigh⟩ := hedgeLimit_mem hp
  intro hedge order hhedge hsent
  rw [mem_afterFills_hedge ans req hne] at hhedge
  subst hhedge
  rcases hedgeSellOrder_terms ans.hedgeVenue ans.hedgeClientOrderId _ he hp with
    ⟨hnone, -⟩ | ⟨-, order', hsent', hquantity, hlimit, hreport⟩
  · cases hnone.symm.trans hsent
  · cases hsent'.symm.trans hsent
    obtain ⟨hsize, hcost⟩ := h
    rw [← sellQuantity_eq_self_iff] at hsize
    rw [← sellLimit_eq_self_iff] at hcost
    rw [hquantity, hlimit]
    refine ⟨⟨hsize.le, ?_⟩, sellLimit_mem hlow hhigh _, ?_⟩
    · have hnear := abs_sellQuantity_sub_lt (excessFill anchor other)
        (longerLeg anchor other).leg.platform
      rw [abs_sub_comm] at hnear
      exact (abs_lt.mp hnear).2
    · -- the report repeats the terms before the rounding, which changes nothing
      intro ebo msg hebo haction
      obtain ⟨r, hr, rfl⟩ := (mem_afterFills_excess ans req hne).mp ⟨ebo, hebo, haction⟩
      rw [hsize, hcost]
      exact ⟨congrArg Prod.fst (hreport r hr), congrArg Prod.snd (hreport r hr)⟩

/-- **A hedge is what its message says** exactly when nothing of it is rounded away, or when
    none goes out because the venue takes no such quantity, the SDK's builder refusing an order
    for nothing; where nothing is rounded away, it is so with every builder. -/
theorem hedge_truthful_iff {anchor other : Buy}
    (hne : anchor.order.fill.1 ≠ other.order.fill.1)
    (hp : 0 < (longerLeg anchor other).price.toRat) :
    ((∀ ans req, ans.hedgeVenue.RefusesEmpty →
        HedgedExactly (afterFills ans req anchor other).effects
          (longerLeg anchor other).leg.platform (excessFill anchor other)) ↔
      ¬ Sellable (excessFill anchor other) (longerLeg anchor other).leg.platform ∨
        Unrounded (longerLeg anchor other).leg.platform (excessFill anchor other)
          (hedgeLimit (longerLeg anchor other).price.toRat)) ∧
    (Unrounded (longerLeg anchor other).leg.platform (excessFill anchor other)
        (hedgeLimit (longerLeg anchor other).price.toRat) →
      ∀ ans req, HedgedExactly (afterFills ans req anchor other).effects
        (longerLeg anchor other).leg.platform (excessFill anchor other)) := by
  have he : 0 < excessFill anchor other := abs_pos.mpr (sub_ne_zero.mpr hne)
  refine ⟨⟨?_, ?_⟩, hedgedExactly_of_unrounded hne hp⟩
  · intro h
    by_contra hnot
    push Not at hnot
    obtain ⟨hsell, hrounded⟩ := hnot
    let ans : ExecAnswers := { silentAnswers with hedgeVenue := fillVenue "0" 0 }
    obtain ⟨r, hr⟩ : ∃ r, (hedgeOf ans (excessFill anchor other) (longerLeg anchor other)).result =
        .ok r := hedgeSellOrder_accepted _ _ he _ hsell
    rcases hedgeSellOrder_terms ans.hedgeVenue ans.hedgeClientOrderId _ he hp with
      ⟨-, hnone⟩ | ⟨-, order, hsent, hquantity, hlimit, hreport⟩
    · exact hnone r hr
    · -- the message of the accepted hedge repeats the unrounded terms
      obtain ⟨ebo, hebo, haction⟩ := (mem_afterFills_excess ans sampleRequest hne).mpr
        ⟨r, hr, rfl⟩
      obtain ⟨-, -, hmsg⟩ := h ans sampleRequest (fillVenue_refusesEmpty "0" 0) _ order
        ((mem_afterFills_hedge ans sampleRequest hne).mpr rfl) hsent
      obtain ⟨hsize, hcost⟩ := hmsg ebo _ hebo haction
      rw [hreport r hr, hquantity] at hsize
      rw [hreport r hr, hlimit] at hcost
      exact hrounded ⟨sellQuantity_eq_self_iff.mp hsize.symm, sellLimit_eq_self_iff.mp hcost.symm⟩
  · rintro (hunsold | hunrounded) ans req hrefuses
    · -- no order goes out, so there is nothing to compare
      intro hedge order hhedge hsent
      rw [mem_afterFills_hedge ans req hne] at hhedge
      subst hhedge
      rcases hedgeSellOrder_terms ans.hedgeVenue ans.hedgeClientOrderId _ he hp with
        ⟨hnone, -⟩ | ⟨hsell, -⟩
      · cases hnone.symm.trans hsent
      · exact absurd (hsell hrefuses) hunsold
    · exact hedgedExactly_of_unrounded hne hp hunrounded ans req

/-- The buy of a leg of the sample pair that the venue fills. -/
def sampleBuy (leg : ArbMinifiedInfo) (fillCountFp : String) (takingAmount : ℚ) : Buy :=
  buyLeg sampleConfig (fillVenue fillCountFp takingAmount) "x" leg 50 ⟨40, 2⟩

/-- Polymarket fills six thousandths of a share more than Kalshi, and takes the hedge. -/
def unevenAnswers : ExecAnswers :=
  { filledAnswers "30.00" 30006000 with hedgeVenue := fillVenue "0" 0 }

/-- Kalshi fills thirty contracts more, and the thirty are sold and reported. -/
theorem hedge_truthful_sample : HedgedExactly
    (afterFills unevenAnswers sampleRequest (sampleBuy samplePair.anchor "50.00" 0)
      (sampleBuy samplePair.match "" 20000000)).effects .kalshi 30 := by
  have hexcess : excessFill (sampleBuy samplePair.anchor "50.00" 0)
      (sampleBuy samplePair.match "" 20000000) = 30 := by decide +kernel
  have hplatform : (longerLeg (sampleBuy samplePair.anchor "50.00" 0)
      (sampleBuy samplePair.match "" 20000000)).leg.platform = .kalshi := by decide +kernel
  have hlimit : hedgeLimit (longerLeg (sampleBuy samplePair.anchor "50.00" 0)
      (sampleBuy samplePair.match "" 20000000)).price.toRat = 42 / 100 := by decide +kernel
  have htruthful := (@hedge_truthful_iff (sampleBuy samplePair.anchor "50.00" 0)
    (sampleBuy samplePair.match "" 20000000) (by decide +kernel) (by decide +kernel)).1.mpr
  rw [hexcess, hplatform, hlimit] at htruthful
  exact htruthful (.inr ⟨⟨30, by norm_num [lot]⟩, ⟨42, by norm_num⟩⟩) unevenAnswers sampleRequest
    (fillVenue_refusesEmpty "0" 0)

/-- **A hedge that oversells**: the excess of 0.006 shares is sold as 0.01, and reported as
    0.006. -/
theorem hedge_oversells :
    ∃ anchor other hedge order ebo msg,
      (handleExecutionRequest sampleConfig sampleFunds unevenAnswers sampleRequest).orders =
        [anchor, other] ∧
      excessFill anchor other = 6 / 1000 ∧ anchor.price.toRat = 40 / 100 ∧
      .hedgeSellOrder hedge ∈
        (handleExecutionRequest sampleConfig sampleFunds unevenAnswers sampleRequest).effects ∧
      hedge.sent = some order ∧ order.quantity = 1 / 100 ∧
      .send ebo ∈
        (handleExecutionRequest sampleConfig sampleFunds unevenAnswers sampleRequest).effects ∧
      ebo.action = .excessFillSubmitted msg ∧ msg.excessFillSize = 6 / 1000 := by
  have hgo : GoesAhead sampleConfig sampleFunds unevenAnswers sampleRequest
      ⟨⟨40, 2⟩, ⟨50, 0⟩, ⟨40, 2⟩, ⟨50, 0⟩⟩ 50 :=
    ⟨rfl, by decide +kernel, by decide +kernel, by decide +kernel⟩
  -- the two legs and their fills, as these answers make them
  rw [handleExecutionRequest_goesAhead hgo, placeOrders_orders]
  set anchor := buyLeg sampleConfig unevenAnswers.anchorVenue sampleRequest.correlationId
    sampleRequest.anchor 50 ⟨40, 2⟩ with hanchor
  set other := buyLeg sampleConfig unevenAnswers.matchVenue sampleRequest.correlationId
    sampleRequest.match 50 ⟨40, 2⟩ with hother
  have hne : anchor.order.fill.1 ≠ other.order.fill.1 := by
    rw [hanchor, hother]
    decide +kernel
  have hexcess : excessFill anchor other = 6 / 1000 := by
    rw [hanchor, hother]
    decide +kernel
  have hhedge : (hedgeOf unevenAnswers (excessFill anchor other) (longerLeg anchor other)).result =
      .ok ("order", .polymarket, 6 / 1000, 42 / 100) := by
    rw [hanchor, hother]
    decide +kernel
  have hsent : ((hedgeOf unevenAnswers (excessFill anchor other) (longerLeg anchor other)).sent.map
      SentOrder.quantity) = some (1 / 100) := by
    rw [hanchor, hother]
    decide +kernel
  obtain ⟨order, hsent, hquantity⟩ := Option.map_eq_some_iff.mp hsent
  obtain ⟨ebo, hebo, haction⟩ := (mem_afterFills_excess unevenAnswers sampleRequest hne).mpr
    ⟨_, hhedge, rfl⟩
  exact ⟨anchor, other, _, order, ebo, _, rfl, hexcess, by decide +kernel,
    mem_placeOrders ((mem_afterFills_hedge unevenAnswers sampleRequest hne).mpr rfl), hsent,
    hquantity, mem_placeOrders hebo, haction, rfl⟩

end Degenerate.Picker
