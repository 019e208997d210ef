import Degenerate.Models

/-!
# Tracked Balances

`BalanceTracker` holds the capital available on each venue.  It is set from the
venues' balance endpoints, debited when fills land, and read by the sizing of the
next trade.  Amounts are exact rationals.
-/

namespace Degenerate.Picker

/-- `BalanceTracker`. -/
structure BalanceTracker where
  kalshiUsdc : ℚ := 0
  polymarketUsdc : ℚ := 0
  /-- Fraction of the smaller balance per trade. -/
  tradeFraction : ℚ
  /-- Minimum dollar cost of a trade. -/
  minTradeSize : ℚ
  deriving DecidableEq

namespace BalanceTracker

/-- The balance of a venue (`kalshi()`, `poly()`). -/
def balance (b : BalanceTracker) : Platform → ℚ
  | .kalshi => b.kalshiUsdc
  | .polymarket => b.polymarketUsdc

/-- Overwrite the balance of a venue (`set_kalshi`, `set_poly`). -/
def set (b : BalanceTracker) (v : ℚ) : Platform → BalanceTracker
  | .kalshi => { b with kalshiUsdc := v }
  | .polymarket => { b with polymarketUsdc := v }

/-- `max_trade_dollars`. -/
def maxTradeDollars (b : BalanceTracker) : ℚ :=
  ⌊min b.kalshiUsdc b.polymarketUsdc * b.tradeFraction⌋

/-- `compute_size`. -/
def computeSize (b : BalanceTracker) (anchorPrice matchPrice marketLiq : ℚ) : Option ℚ :=
  -- whole contracts, capped by the budget and by the liquidity at the price
  let costPerUnit := anchorPrice + matchPrice
  if costPerUnit = 0 then none
  else
    let size : ℚ := min ⌊b.maxTradeDollars / costPerUnit⌋ ⌊marketLiq⌋
    if size * costPerUnit < b.minTradeSize then none else some size

/-- The closure `deduct` of `deduct_fill`: debit one leg's cost from its own venue. -/
def deduct (b : BalanceTracker) (platform : Platform) (cost : ℚ) : BalanceTracker :=
  b.set (b.balance platform - cost) platform

/-- `deduct_fill`. -/
def deductFill (b : BalanceTracker) (anchorPlatform : Platform) (anchorPrice : ℚ)
    (matchPlatform : Platform) (matchPrice size : ℚ) : BalanceTracker :=
  (b.deduct anchorPlatform (anchorPrice * size)).deduct matchPlatform (matchPrice * size)

/-- The answers of one balance refresh; `none` is a failed fetch. -/
structure Fetched where
  /-- Kalshi reports cents. -/
  kalshiCents : Option ℤ
  polymarket : Option ℚ
  deriving DecidableEq

/-- `refresh_and_set_balances`: a failed Kalshi fetch ends the refresh, a failed Polymarket
    fetch keeps the last known balance. -/
def refreshAndSetBalances (b : BalanceTracker) (f : Fetched) : BalanceTracker :=
  match f.kalshiCents with
  | none => b
  | some cents =>
      -- stored before the Polymarket fetch is looked at
      let b := b.set (cents / 100) .kalshi
      match f.polymarket with
      | none => b
      | some v => b.set v .polymarket

@[simp] theorem balance_set (b : BalanceTracker) (v : ℚ) (p q : Platform) :
    (b.set v p).balance q = if q = p then v else b.balance q := by
  cases p <;> cases q <;> simp [set, balance]

@[simp] theorem balance_deduct (b : BalanceTracker) (cost : ℚ) (p q : Platform) :
    (b.deduct p cost).balance q = b.balance q - if q = p then cost else 0 := by
  by_cases h : q = p
  · subst h; simp [deduct]
  · simp [deduct, h]

/-- A fill debits each leg's venue, and the same venue twice when the legs share it. -/
theorem balance_deductFill (b : BalanceTracker) (pa pm : Platform) (a m size : ℚ)
    (q : Platform) :
    (b.deductFill pa a pm m size).balance q =
      b.balance q - ((if q = pa then a * size else 0) + if q = pm then m * size else 0) := by
  simp only [deductFill, balance_deduct]
  exact sub_sub _ _ _

/-- What a refresh sets the balance of a venue to, if it reaches it. -/
def fetchedBalance (f : Fetched) : Platform → Option ℚ
  | .kalshi => f.kalshiCents.map fun cents => (cents : ℚ) / 100
  | .polymarket => f.kalshiCents.bind fun _ => f.polymarket

theorem balance_refreshAndSetBalances (b : BalanceTracker) (f : Fetched) (q : Platform) :
    (b.refreshAndSetBalances f).balance q = (fetchedBalance f q).getD (b.balance q) := by
  obtain ⟨k, p⟩ := f
  cases k with
  | none => cases q <;> rfl
  | some cents => cases p <;> cases q <;> simp [refreshAndSetBalances, fetchedBalance]

end BalanceTracker

end Degenerate.Picker
