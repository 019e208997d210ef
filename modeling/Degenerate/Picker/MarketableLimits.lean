import Degenerate.Picker.OrderTerms

/-!
# Marketable Limits

A fill-and-kill buy matches the level that it was sized on only if its limit is not
below the price of that level.  The limit that goes out is the price in cents: rounded
down for Kalshi, to the nearest cent for Polymarket.

## Main Results

- `price_le_limit_iff`: the digits past the second decide whether the limit reaches the price
- `limits_below_asks`: both orders of a pair go out below the asks of an unchanged book
-/

namespace Degenerate.Picker

open Degenerate.Lib

/-- The cents in which a venue takes a price do not fall below it: there is no fraction of a
    cent, or Polymarket's rounding to even takes it up. -/
def CentsReach (price : ℚ) : Platform → Prop
  | .kalshi => Int.fract (price * 100) = 0
  | .polymarket =>
      Int.fract (price * 100) = 0 ∨ 1 / 2 < Int.fract (price * 100) ∨
        Int.fract (price * 100) = 1 / 2 ∧ ⌊price * 100⌋ % 2 ≠ 0

instance (price : ℚ) : (platform : Platform) → Decidable (CentsReach price platform)
  | .kalshi => inferInstanceAs (Decidable (Int.fract (price * 100) = 0))
  | .polymarket => inferInstanceAs (Decidable (_ ∨ _ ∨ _ ∧ _))

/-- Whole cents below a price reach it only when it is one of them. -/
theorem le_floor_cents_iff {price : ℚ} :
    price ≤ (⌊price * 100⌋ : ℚ) / 100 ↔ Int.fract (price * 100) = 0 := by
  have hfract := Int.self_sub_floor (price * 100)
  have hnonneg := Int.fract_nonneg (price * 100)
  rw [le_div_iff₀ (by norm_num), ← sub_nonpos, hfract]
  exact ⟨fun h => le_antisymm h hnonneg, fun h => h.le⟩

/-- **A buy can match the level that it was sized on** exactly when the cents of its venue
    reach the price: for every leg, size and price, and every answer of the venue. -/
theorem price_le_limit_iff {uuidV5 : String → String} {venue : OrderVenue}
    {leg : ArbMinifiedInfo} {size : ℚ} {price : Decimal} {cid : CorrelationId}
    {order : SentOrder}
    (h : (makeFakOrder uuidV5 venue leg size price cid).sent = some order) :
    price.toRat ≤ order.limitPrice ↔ CentsReach price.toRat leg.platform := by
  unfold makeFakOrder at h
  split at h
  · rename_i hp
    rw [hp]
    -- Kalshi takes whole cents: the price is truncated
    rcases makeKalshiFak_cases uuidV5 venue leg size price cid with ⟨e, he⟩ |
      ⟨cents, count, hcents, -, -, he⟩
    · rw [he] at h
      cases h
    · rw [he] at h
      cases h
      rw [limitPrice_kalshiRequest, toU64_intCast hcents]
      exact le_floor_cents_iff
  · rename_i hp
    rw [hp]
    -- Polymarket's limit is rounded half to even
    rcases submitLimitOrder_cases venue leg.tokenId
      (fun token => ⟨token, roundDp size 2, roundDp price.toRat 2, .buy, .fak⟩)
      "error creating polymarket order" (polyFill size) with ⟨e, he⟩ | ⟨token, -, he⟩
    · rw [he] at h
      cases h
    · rw [he] at h
      cases h
      show price.toRat ≤ roundDp price.toRat 2 ↔ _
      rw [self_le_roundDp_iff, self_le_roundHalfEven_iff]
      norm_num [CentsReach]

/-- Two order books with the best ask at 0.426 on Kalshi and at 0.424 on Polymarket. -/
def subCentHttp : HttpVenue where
  getOrderBook _ := .ok { asks := [⟨"0.424", "50"⟩], bids := [], timestamp := "1" }
  getMarketOrderbook _ := .ok { yesDollars := none, noDollars := some [("0.574", "50")] }

/-- Answers to a handling that finds these books, and venues that take any order. -/
def subCentAnswers : ExecAnswers :=
  { filledAnswers "0" 0 with anchorHttp := subCentHttp, matchHttp := subCentHttp }

/-- An ask of whole cents is reached on Kalshi. -/
theorem price_le_limit_sample :
    ∃ order, (makeFakOrder id (fillVenue "50" 0) samplePair.anchor 50 ⟨40, 2⟩ "x").sent =
      some order ∧ (⟨40, 2⟩ : Decimal).toRat ≤ order.limitPrice := by
  have hsent : (makeFakOrder id (fillVenue "50" 0) samplePair.anchor 50 ⟨40, 2⟩ "x").sent.isSome =
      true := by decide +kernel
  obtain ⟨order, hsent⟩ := Option.isSome_iff_exists.mp hsent
  exact ⟨order, hsent, (price_le_limit_iff hsent).mpr (by decide +kernel)⟩

/-- **Orders that cannot match**: the limits that go out are 0.42 on both venues, below the
    asks of 0.426 and 0.424 that the books were read at. -/
theorem limits_below_asks :
    ∃ anchor other anchorOrder otherOrder,
      (handleExecutionRequest httpConfig sampleFunds subCentAnswers sampleRequest).orders =
        [anchor, other] ∧
      getExecutionMetricsFromHttp subCentHttp sampleRequest.anchor =
        .ok (anchor.price, ⟨50, 0⟩) ∧
      getExecutionMetricsFromHttp subCentHttp sampleRequest.match = .ok (other.price, ⟨50, 0⟩) ∧
      anchor.order.sent = some anchorOrder ∧ other.order.sent = some otherOrder ∧
      anchorOrder.limitPrice = 42 / 100 ∧ anchor.price.toRat = 426 / 1000 ∧
      otherOrder.limitPrice = 42 / 100 ∧ other.price.toRat = 424 / 1000 := by
  have hcheck : (handleExecutionRequest httpConfig sampleFunds subCentAnswers
      sampleRequest).orders.map (fun buy => (buy.price, buy.order.sent.map SentOrder.limitPrice)) =
        [(⟨426, 3⟩, some (42 / 100)), (⟨424, 3⟩, some (42 / 100))] := by decide +kernel
  -- both orders are sent, and their limits are read off
  obtain ⟨anchor, rest, horders, hanchor, hrest⟩ := List.map_eq_cons_iff.mp hcheck
  obtain ⟨other, rest, rfl, hother, hnil⟩ := List.map_eq_cons_iff.mp hrest
  rw [List.map_eq_nil_iff] at hnil
  subst hnil
  rw [Prod.mk.injEq] at hanchor hother
  obtain ⟨hap, hao⟩ := hanchor
  obtain ⟨hop, hoo⟩ := hother
  obtain ⟨anchorOrder, hasent, halimit⟩ := Option.map_eq_some_iff.mp hao
  obtain ⟨otherOrder, hosent, holimit⟩ := Option.map_eq_some_iff.mp hoo
  refine ⟨anchor, other, anchorOrder, otherOrder, horders, ?_, ?_, hasent, hosent, halimit, ?_,
    holimit, ?_⟩
  · rw [hap]
    decide +kernel
  · rw [hop]
    decide +kernel
  · rw [hap]
    decide +kernel
  · rw [hop]
    decide +kernel

end Degenerate.Picker
