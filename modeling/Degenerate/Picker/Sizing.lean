import Degenerate.Lib.Rounding
import Degenerate.Markets
import Degenerate.Picker.Execution

/-!
# Trade Sizing

`compute_size` rounds three times: the budget down to whole dollars, the quotient and
the liquidity down to whole contracts.  None of it costs a contract: the size is the
largest whole number that the budget pays for and the market offers.

## Main Results

- `computeSize_exact`: the size is the greatest one that fits, and fits every balance
- `new_tradeFraction`, `new_minTradeSize`: what the environment can set
-/

namespace Degenerate.Picker

open Degenerate.Lib

namespace BalanceTracker

/-! ## §1 Configuration -/

/-- `DEFAULT_TRADE_FRACTION`. -/
def defaultTradeFraction : ℚ := 20 / 100

/-- `DEFAULT_MIN_TRADE_SIZE`. -/
def defaultMinTradeSize : ℚ := 2

/-- `parse_env_decimal`: anything that is not a number in range counts as not set. -/
def parseEnvDecimal (env : String → Option String) (key : String) (default : ℚ) : ℚ :=
  match (env key).bind fun raw => Decimal.fromStr (trim raw) with
  | some v =>
      if 0 < v.toRat ∧ (key ≠ "TRADE_FRACTION" ∨ v.toRat < 1) then v.toRat else default
  | none => default

/-- `BalanceTracker::new`. -/
def new (env : String → Option String) : BalanceTracker where
  tradeFraction := parseEnvDecimal env "TRADE_FRACTION" defaultTradeFraction
  minTradeSize := parseEnvDecimal env "MIN_TRADE_SIZE" defaultMinTradeSize

/-- What is read from the environment is in range, or the default. -/
theorem parseEnvDecimal_cases (env : String → Option String) (key : String) (default : ℚ) :
    parseEnvDecimal env key default = default ∨
      0 < parseEnvDecimal env key default ∧
        (key = "TRADE_FRACTION" → parseEnvDecimal env key default < 1) := by
  unfold parseEnvDecimal
  split
  · split
    · rename_i v _ hv
      exact .inr ⟨hv.1, fun hkey => hv.2.resolve_left (not_not_intro hkey)⟩
    · exact .inl rfl
  · exact .inl rfl

/-- The trade fraction is a proper fraction, whatever the environment says. -/
theorem new_tradeFraction (env : String → Option String) :
    0 < (new env).tradeFraction ∧ (new env).tradeFraction < 1 := by
  rcases parseEnvDecimal_cases env "TRADE_FRACTION" defaultTradeFraction with h | ⟨hpos, hlt⟩
  · have hdefault : (new env).tradeFraction = defaultTradeFraction := h
    rw [hdefault, defaultTradeFraction]
    norm_num
  · exact ⟨hpos, hlt rfl⟩

/-- The least cost of a trade is positive, whatever the environment says. -/
theorem new_minTradeSize (env : String → Option String) : 0 < (new env).minTradeSize := by
  rcases parseEnvDecimal_cases env "MIN_TRADE_SIZE" defaultMinTradeSize with h | ⟨hpos, -⟩
  · have hdefault : (new env).minTradeSize = defaultMinTradeSize := h
    rw [hdefault, defaultMinTradeSize]
    norm_num
  · exact hpos

/-! ## §2 The size -/

/-- The whole numbers of contracts that the market offers and the budget pays for. -/
def affordable (b : BalanceTracker) (costPerUnit marketLiq : ℚ) : Set ℤ :=
  {n | (n : ℚ) ≤ marketLiq ∧
    n * costPerUnit ≤ ⌊b.tradeFraction * min b.kalshiUsdc b.polymarketUsdc⌋}

/-- The greatest affordable size. -/
def bestSize (b : BalanceTracker) (costPerUnit marketLiq : ℚ) : ℤ :=
  min ⌊b.maxTradeDollars / costPerUnit⌋ ⌊marketLiq⌋

theorem isGreatest_bestSize (b : BalanceTracker) {c : ℚ} (hc : 0 < c) (marketLiq : ℚ) :
    IsGreatest (b.affordable c marketLiq) (b.bestSize c marketLiq) := by
  rw [affordable, mul_comm b.tradeFraction]
  exact isGreatest_min_floor hc b.maxTradeDollars marketLiq

/-- `compute_size` returns the best size, unless it costs too little. -/
theorem computeSize_eq (b : BalanceTracker) {anchorPrice matchPrice : ℚ} (marketLiq : ℚ)
    (hc : 0 < anchorPrice + matchPrice) :
    b.computeSize anchorPrice matchPrice marketLiq =
      if b.bestSize (anchorPrice + matchPrice) marketLiq * (anchorPrice + matchPrice) <
          b.minTradeSize then none
      else some (b.bestSize (anchorPrice + matchPrice) marketLiq : ℚ) := by
  simp only [computeSize, bestSize, if_neg hc.ne', Int.cast_min]

/-- A size is returned exactly when it is the greatest affordable one and worth trading. -/
theorem computeSize_eq_some_iff (b : BalanceTracker) {anchorPrice matchPrice : ℚ}
    (marketLiq : ℚ) (hc : 0 < anchorPrice + matchPrice) {s : ℚ} :
    b.computeSize anchorPrice matchPrice marketLiq = some s ↔
      ∃ n : ℤ, s = n ∧ IsGreatest (b.affordable (anchorPrice + matchPrice) marketLiq) n ∧
        b.minTradeSize ≤ n * (anchorPrice + matchPrice) := by
  have hbest := b.isGreatest_bestSize hc marketLiq
  rw [computeSize_eq b marketLiq hc]
  constructor
  · intro h
    split at h
    · cases h
    · rename_i hmin
      cases h
      exact ⟨_, rfl, hbest, not_lt.mp hmin⟩
  · rintro ⟨n, rfl, hn, hmin⟩
    -- there is one greatest size
    rw [← hn.unique hbest, if_neg (not_lt.mpr hmin)]

/-- A returned size is a positive whole number. -/
theorem computeSize_pos {b : BalanceTracker} (hm : 0 < b.minTradeSize)
    {anchorPrice matchPrice marketLiq s : ℚ} (hc : 0 < anchorPrice + matchPrice)
    (h : b.computeSize anchorPrice matchPrice marketLiq = some s) :
    ∃ n : ℤ, s = n ∧ 0 < n := by
  obtain ⟨n, hs, -, hmin⟩ := (b.computeSize_eq_some_iff marketLiq hc).mp h
  have hpos : (0 : ℚ) < n := pos_of_mul_pos_left (hm.trans_le hmin) hc.le
  exact ⟨n, hs, by exact_mod_cast hpos⟩

/-- The cost of a returned size lies between the least trade and the budget. -/
theorem computeSize_cost {b : BalanceTracker} {anchorPrice matchPrice marketLiq s : ℚ}
    (hc : 0 < anchorPrice + matchPrice)
    (h : b.computeSize anchorPrice matchPrice marketLiq = some s) :
    b.minTradeSize ≤ s * (anchorPrice + matchPrice) ∧
      s * (anchorPrice + matchPrice) ≤ b.tradeFraction * min b.kalshiUsdc b.polymarketUsdc := by
  obtain ⟨n, rfl, hn, hmin⟩ := (b.computeSize_eq_some_iff marketLiq hc).mp h
  exact ⟨hmin, hn.1.2.trans (Int.floor_le _)⟩

/-- The smaller balance is at most either venue's. -/
theorem min_le_balance (b : BalanceTracker) (q : Platform) :
    min b.kalshiUsdc b.polymarketUsdc ≤ b.balance q := by
  cases q with
  | kalshi => exact min_le_left _ _
  | polymarket => exact min_le_right _ _

/-- The cost of a returned size is within the balance of every venue. -/
theorem computeSize_le_balance {b : BalanceTracker} (hf : 0 < b.tradeFraction)
    (hf' : b.tradeFraction < 1) (hm : 0 < b.minTradeSize)
    {anchorPrice matchPrice marketLiq s : ℚ} (hc : 0 < anchorPrice + matchPrice)
    (h : b.computeSize anchorPrice matchPrice marketLiq = some s) (q : Platform) :
    s * (anchorPrice + matchPrice) ≤ b.balance q := by
  obtain ⟨hmin, hmax⟩ := computeSize_cost hc h
  -- a budget above zero comes from a balance above zero
  have hbalance : 0 < min b.kalshiUsdc b.polymarketUsdc :=
    pos_of_mul_pos_right ((hm.trans_le hmin).trans_le hmax) hf.le
  calc s * (anchorPrice + matchPrice)
      ≤ b.tradeFraction * min b.kalshiUsdc b.polymarketUsdc := hmax
    _ ≤ min b.kalshiUsdc b.polymarketUsdc := mul_le_of_le_one_left hbalance.le hf'.le
    _ ≤ b.balance q := b.min_le_balance q

/-- **Sizing is exact and never over-commits**: the size is the greatest affordable one that
    is worth trading, and with prices that are not negative its legs fit the balances. -/
theorem computeSize_exact (b : BalanceTracker) (hf : 0 < b.tradeFraction)
    (hf' : b.tradeFraction < 1) (hm : 0 < b.minTradeSize)
    (anchorPrice matchPrice marketLiq : ℚ) (hc : 0 < anchorPrice + matchPrice) :
    (∀ s : ℚ, b.computeSize anchorPrice matchPrice marketLiq = some s ↔
      ∃ n : ℤ, s = n ∧ IsGreatest (b.affordable (anchorPrice + matchPrice) marketLiq) n ∧
        b.minTradeSize ≤ n * (anchorPrice + matchPrice)) ∧
    (b.computeSize anchorPrice matchPrice marketLiq = none ↔
      ¬ ∃ n : ℤ, IsGreatest (b.affordable (anchorPrice + matchPrice) marketLiq) n ∧
        b.minTradeSize ≤ n * (anchorPrice + matchPrice)) ∧
    ∀ s : ℚ, b.computeSize anchorPrice matchPrice marketLiq = some s →
      (∃ n : ℤ, s = n ∧ 0 < n) ∧
      b.minTradeSize ≤ s * (anchorPrice + matchPrice) ∧
      s * (anchorPrice + matchPrice) ≤ b.tradeFraction * min b.kalshiUsdc b.polymarketUsdc ∧
      (0 ≤ anchorPrice → 0 ≤ matchPrice → ∀ pa pm : Platform,
        anchorPrice * s ≤ b.balance pa ∧ matchPrice * s ≤ b.balance pm ∧
        (pa = pm → anchorPrice * s + matchPrice * s ≤ b.balance pa) ∧
        ∀ q, 0 ≤ (b.deductFill pa anchorPrice pm matchPrice s).balance q) := by
  refine ⟨fun s => b.computeSize_eq_some_iff marketLiq hc, ?_, ?_⟩
  · -- no size: the same equation, read on the other side
    rw [Option.eq_none_iff_forall_ne_some, not_exists]
    constructor
    · intro h n hn
      exact h n ((b.computeSize_eq_some_iff marketLiq hc).mpr ⟨n, rfl, hn⟩)
    · intro h s hs
      obtain ⟨n, -, hn⟩ := (b.computeSize_eq_some_iff marketLiq hc).mp hs
      exact h n hn
  · -- a size: its cost, and what is left of the balances
    intro s hs
    obtain ⟨n, hn, hpos⟩ := computeSize_pos hm hc hs
    obtain ⟨hmin, hmax⟩ := computeSize_cost hc hs
    refine ⟨⟨n, hn, hpos⟩, hmin, hmax, ?_⟩
    intro ha hp pa pm
    have hsize : 0 ≤ s := by
      rw [hn]
      exact_mod_cast hpos.le
    have hanchor : 0 ≤ anchorPrice * s := mul_nonneg ha hsize
    have hmatch : 0 ≤ matchPrice * s := mul_nonneg hp hsize
    have hboth : ∀ q, anchorPrice * s + matchPrice * s ≤ b.balance q := by
      intro q
      rw [← add_mul, mul_comm]
      exact computeSize_le_balance hf hf' hm hc hs q
    refine ⟨?_, ?_, fun _ => hboth pa, ?_⟩
    · have := hboth pa
      linarith
    · have := hboth pm
      linarith
    · intro q
      have := hboth q
      rw [balance_deductFill]
      split <;> split <;> linarith

/-- Fifty and a hundred dollars, of which a fifth is traded. -/
def funded : BalanceTracker := ((new fun _ => none).set 50 .kalshi).set 100 .polymarket

theorem computeSize_exact_funded :
    funded.computeSize (45 / 100) (50 / 100) 12 = some 10 ∧
    (45 / 100) * 10 + (50 / 100) * 10 ≤ funded.balance .kalshi := by
  have hf : 0 < funded.tradeFraction := by decide +kernel
  have hf' : funded.tradeFraction < 1 := by decide +kernel
  have hm : 0 < funded.minTradeSize := by decide +kernel
  have hs : funded.computeSize (45 / 100) (50 / 100) 12 = some 10 := by decide +kernel
  obtain ⟨-, -, h⟩ := computeSize_exact funded hf hf' hm (45 / 100) (50 / 100) 12 (by norm_num)
  obtain ⟨-, -, -, hlegs⟩ := h 10 hs
  exact ⟨hs, (hlegs (by norm_num) (by norm_num) .kalshi .kalshi).2.2.1 rfl⟩

end BalanceTracker

end Degenerate.Picker
