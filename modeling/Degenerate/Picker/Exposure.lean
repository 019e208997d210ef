import Degenerate.Picker.BalanceLedger
import Degenerate.Picker.Sizing
import Mathlib.Algebra.Order.BigOperators.Group.List

/-!
# Exposure between Refreshes

`handle_execution_request` sizes a trade against the tracked balances, and debits them with
what both legs filled.  The next refresh may fail, so that many trades can follow each other
on tracked balances alone.  Each of them takes at most the trade fraction of the smaller
balance, from the venue of one leg or for both legs together, so that the balances shrink
geometrically and never fall below zero.

## Main Results

- `debit_le_fraction`: what one handling debits
- `tracked_balance_bounds`: over all runs of the executor
-/

namespace Degenerate.Picker

open Degenerate.Lib

/-! ## §1 One handling -/

/-- A trade at prices that are not negative, of which each leg fills at most what was ordered. -/
def FillsWithin (m : Metrics) (size : ℚ) (buys : Buy × Buy) : Prop :=
  0 ≤ m.anchorPrice.toRat ∧ 0 ≤ m.matchPrice.toRat ∧
    ∀ buy ∈ [buys.1, buys.2], 0 ≤ buy.order.fill.1 ∧ buy.order.fill.1 ≤ size

instance (m : Metrics) (size : ℚ) (buys : Buy × Buy) : Decidable (FillsWithin m size buys) :=
  inferInstanceAs (Decidable (_ ∧ _ ∧ ∀ buy ∈ [buys.1, buys.2], _ ∧ _))

/-- What a handling that gets as far as its orders works with: the metrics, the size and the two
buys. -/
def trade (cfg : Config) (bal : BalanceTracker) (ans : ExecAnswers) (req : ExecutionRequest) :
    Option (Metrics × ℚ × Buy × Buy) :=
  match executionMetrics cfg.optimistic ans req with
  | .error _ => none
  | .ok m =>
      if m.outOfBand then none
      else
        (m.executionSize bal).map fun size =>
          (m, size, buyLeg cfg ans.anchorVenue req.correlationId req.anchor size m.anchorPrice,
            buyLeg cfg ans.matchVenue req.correlationId req.match size m.matchPrice)

/-- The buys of a handling, if it gets as far as its orders. -/
def tradeBuys (cfg : Config) (bal : BalanceTracker) (ans : ExecAnswers) (req : ExecutionRequest) :
    Option (Buy × Buy) := (trade cfg bal ans req).map (·.2.2)

/-- The trade that a step starts. -/
def Executor.startedTrade (cfg : Config) (x : Executor) : ExecAction → List (Buy × Buy)
  | .receive req ans => (tradeBuys cfg x.balances ans req).toList
  | _ => []

/-- The trades of a run. -/
def trades (cfg : Config) : Executor → List ExecAction → List (Buy × Buy) :=
  trace (Executor.startedTrade cfg) (Executor.step cfg)

/-- An execution that starts in the step fills within its size. -/
def ExecutesWithin (cfg : Config) (x : Executor) : ExecAction → Prop
  | .receive req ans => ∀ t ∈ trade cfg x.balances ans req, FillsWithin t.1 t.2.1 t.2.2
  | _ => True

instance (cfg : Config) (x : Executor) : ∀ a, Decidable (ExecutesWithin cfg x a)
  | .receive req ans => inferInstanceAs (Decidable (∀ t ∈ trade cfg x.balances ans req,
      FillsWithin t.1 t.2.1 t.2.2))
  | .effect | .finish | .refresh _ => .isTrue trivial

/-- The cost of both legs is the sum of their prices. -/
theorem Metrics.totalCost_eq (m : Metrics) :
    m.totalCost = m.anchorPrice.toRat + m.matchPrice.toRat :=
  Decimal.toRat_add _ _

/-- After the fills nothing is debited. -/
theorem afterFills_debit (ans : ExecAnswers) (req : ExecutionRequest) (anchor «match» : Buy)
    (q : Platform) : ∀ e ∈ (afterFills ans req anchor «match»).effects, e.debit q = 0 := by
  intro e he
  rcases afterFills_cases ans req anchor «match» with h | ⟨ebo, h⟩ | ⟨ebo, hedge, ebos, h⟩
  · rw [h] at he
    simp only [List.mem_cons, List.not_mem_nil, or_false] at he
    rcases he with rfl | rfl <;> rfl
  · rw [h] at he
    simp only [List.mem_cons, List.not_mem_nil, or_false] at he
    rcases he with rfl | rfl <;> rfl
  · rw [h] at he
    simp only [List.cons_append, List.mem_cons, List.mem_append, List.mem_map,
      List.not_mem_nil, or_false] at he
    rcases he with rfl | rfl | ⟨ebo, -, rfl⟩ | rfl <;> rfl

/-- What the fills of a trade within its size cost, at the leg prices. -/
theorem cost_le_budget {bal : BalanceTracker} {m : Metrics} {size : ℚ} {buys : Buy × Buy}
    (hcost : 0 < m.anchorPrice.toRat + m.matchPrice.toRat)
    (hsize : m.executionSize bal = some size) (hfills : FillsWithin m size buys) :
    (m.anchorPrice.toRat + m.matchPrice.toRat) * min buys.1.order.fill.1 buys.2.order.fill.1 ≤
      bal.tradeFraction * min bal.kalshiUsdc bal.polymarketUsdc := by
  obtain ⟨-, -, hfill⟩ := hfills
  obtain ⟨-, hbudget⟩ := BalanceTracker.computeSize_cost hcost hsize
  have hle : min buys.1.order.fill.1 buys.2.order.fill.1 ≤ size :=
    (min_le_left _ _).trans (hfill buys.1 (by simp)).2
  calc (m.anchorPrice.toRat + m.matchPrice.toRat) * min buys.1.order.fill.1 buys.2.order.fill.1
      ≤ (m.anchorPrice.toRat + m.matchPrice.toRat) * size :=
        mul_le_mul_of_nonneg_left hle hcost.le
    _ = size * (m.anchorPrice.toRat + m.matchPrice.toRat) := mul_comm _ _
    _ ≤ bal.tradeFraction * min bal.kalshiUsdc bal.polymarketUsdc := hbudget

/-- **One handling** adds to no balance, and debits at most the trade fraction of the smaller
one. -/
theorem debit_le_fraction {cfg : Config} {bal : BalanceTracker} {ans : ExecAnswers}
    {req : ExecutionRequest} (hf : 0 < bal.tradeFraction) (hbal : ∀ q, 0 ≤ bal.balance q)
    (hfills : ∀ t ∈ trade cfg bal ans req, FillsWithin t.1 t.2.1 t.2.2) (q : Platform) :
    (∀ e ∈ (handleExecutionRequest cfg bal ans req).effects, 0 ≤ e.debit q) ∧
      ((handleExecutionRequest cfg bal ans req).effects.map (ExecEffect.debit q)).sum ≤
        bal.tradeFraction * bal.balance q := by
  have hfraction : 0 ≤ bal.tradeFraction * bal.balance q := mul_nonneg hf.le (hbal q)
  rcases handleExecutionRequest_cases cfg bal ans req with he | he | ⟨m, size, hm, hband, hsize, he⟩
  · rw [he]
    exact ⟨by simp [ExecEffect.debit], by simpa [ExecEffect.debit] using hfraction⟩
  · rw [he]
    exact ⟨by simp [ExecEffect.debit], by simpa [ExecEffect.debit] using hfraction⟩
  · set anchor := buyLeg cfg ans.anchorVenue req.correlationId req.anchor size m.anchorPrice
      with hanchor
    set «match» := buyLeg cfg ans.matchVenue req.correlationId req.match size m.matchPrice
      with hmatch
    have htrade : trade cfg bal ans req = some (m, size, anchor, «match») := by
      simp [trade, hm, hband, hsize, hanchor, hmatch]
    have hwithin := hfills _ htrade
    have hcost : 0 < m.anchorPrice.toRat + m.matchPrice.toRat := by
      rw [← m.totalCost_eq]
      simp only [Metrics.outOfBand, Bool.or_eq_false_iff, decide_eq_false_iff_not, not_le] at hband
      exact hband.1
    -- the size is what the fraction of the smaller balance buys of both legs
    have hbudget := cost_le_budget hcost hsize hwithin
    obtain ⟨ha, hp, hfill⟩ := hwithin
    have hfill0 : 0 ≤ min anchor.order.fill.1 «match».order.fill.1 :=
      le_min (hfill anchor (by simp)).1 (hfill «match» (by simp)).1
    have hlegA := mul_nonneg ha hfill0
    have hlegM := mul_nonneg hp hfill0
    have hdebit := afterFills_debit ans req anchor «match» q
    have heffects : (handleExecutionRequest cfg bal ans req).effects =
        .makeFakOrder anchor :: .makeFakOrder «match» ::
        .deductFill req.anchor.platform m.anchorPrice.toRat req.match.platform m.matchPrice.toRat
          (min anchor.order.fill.1 «match».order.fill.1) ::
          (afterFills ans req anchor «match»).effects := by rw [he]; rfl
    rw [heffects]
    constructor
    · intro e hmem
      simp only [List.mem_cons] at hmem
      rcases hmem with rfl | rfl | rfl | hmem
      · exact le_rfl
      · exact le_rfl
      · -- a leg on another venue is not debited here
        refine add_nonneg ?_ ?_
        · split
          · exact hlegA
          · exact le_rfl
        · split
          · exact hlegM
          · exact le_rfl
      · exact (hdebit e hmem).ge
    · have hrest : ((afterFills ans req anchor «match»).effects.map (ExecEffect.debit q)).sum = 0 :=
        (afterFills_free ans req anchor «match» q).1
      have hmin : bal.tradeFraction * min bal.kalshiUsdc bal.polymarketUsdc ≤
          bal.tradeFraction * bal.balance q :=
        mul_le_mul_of_nonneg_left (bal.min_le_balance q) hf.le
      simp only [List.map_cons, List.sum_cons, hrest, ExecEffect.debit]
      rw [add_mul] at hbudget
      split <;> split <;> linarith

/-- A handling that does not get as far as its orders debits nothing. -/
theorem debit_of_no_trade {cfg : Config} {bal : BalanceTracker} {ans : ExecAnswers}
    {req : ExecutionRequest} (hnone : tradeBuys cfg bal ans req = none) (q : Platform) :
    ((handleExecutionRequest cfg bal ans req).effects.map (ExecEffect.debit q)).sum = 0 := by
  rw [tradeBuys, Option.map_eq_none_iff] at hnone
  rcases handleExecutionRequest_cases cfg bal ans req with he | he | ⟨m, size, hm, hband, hsize, -⟩
  · simp [he, ExecEffect.debit]
  · simp [he, ExecEffect.debit]
  · simp [trade, hm, hband, hsize] at hnone

/-! ## §2 Runs -/

/-- A refresh in the step finds at least `low` on each venue that it reaches. -/
def FetchesAtLeast (low : Platform → ℚ) : ExecAction → Prop
  | .refresh f => ∀ q, ∀ v ∈ BalanceTracker.fetchedBalance f q, low q ≤ v
  | _ => True

/-- When the current handling is over, each balance is at least `low`. -/
structure AtLeast (fraction : ℚ) (low : Platform → ℚ) (x : Executor) : Prop where
  fraction : x.balances.tradeFraction = fraction
  pending : ∀ e ∈ x.pc.effects, ∀ q, 0 ≤ e.debit q
  low : ∀ q, low q ≤ x.balances.balance q - (x.pc.effects.map (ExecEffect.debit q)).sum

/-- What is still to come does not add to a balance. -/
theorem AtLeast.le_balance {fraction : ℚ} {low : Platform → ℚ} {x : Executor}
    (h : AtLeast fraction low x) (q : Platform) : low q ≤ x.balances.balance q := by
  have hsum : 0 ≤ (x.pc.effects.map (ExecEffect.debit q)).sum := by
    apply List.sum_nonneg
    intro d hd
    obtain ⟨e, he, rfl⟩ := List.mem_map.mp hd
    exact h.pending e he q
  linarith [h.low q]

/-- Each trade takes the fraction off the bound. -/
def lowAfter (fraction : ℚ) (ts : List (Buy × Buy)) (low : Platform → ℚ) : Platform → ℚ :=
  fun q => (1 - fraction) ^ ts.length * low q

@[simp] theorem lowAfter_nil (fraction : ℚ) (low : Platform → ℚ) :
    lowAfter fraction [] low = low := by
  funext q
  simp [lowAfter]

theorem lowAfter_nonneg {fraction : ℚ} (hf : fraction < 1) {low : Platform → ℚ}
    (hlow : ∀ q, 0 ≤ low q) (ts : List (Buy × Buy)) (q : Platform) :
    0 ≤ lowAfter fraction ts low q :=
  mul_nonneg (pow_nonneg (sub_nonneg.mpr hf.le) _) (hlow q)

/-- The trades of a step and of the rest of a run lower the bound one after another. -/
theorem lowAfter_append (fraction : ℚ) (ts us : List (Buy × Buy)) (low : Platform → ℚ) :
    lowAfter fraction (ts ++ us) low = lowAfter fraction us (lowAfter fraction ts low) := by
  funext q
  rw [lowAfter, lowAfter, lowAfter, List.length_append, pow_add]
  ring

@[simp] theorem BalanceTracker.tradeFraction_set (b : BalanceTracker) (v : ℚ) (p : Platform) :
    (b.set v p).tradeFraction = b.tradeFraction := by
  cases p <;> rfl

theorem tradeFraction_onBalances (bal : BalanceTracker) (e : ExecEffect) :
    (e.onBalances bal).tradeFraction = bal.tradeFraction := by
  cases e with
  | deductFill pa a pm m size =>
    simp [ExecEffect.onBalances, BalanceTracker.deductFill, BalanceTracker.deduct]
  | _ => rfl

theorem tradeFraction_refreshAndSetBalances (bal : BalanceTracker) (f : BalanceTracker.Fetched) :
    (bal.refreshAndSetBalances f).tradeFraction = bal.tradeFraction := by
  obtain ⟨k, p⟩ := f
  cases k with
  | none => rfl
  | some cents => cases p <;> simp [BalanceTracker.refreshAndSetBalances]

/-- One step keeps the bound, as far as it starts no trade. -/
theorem AtLeast.step {cfg : Config} {fraction : ℚ} {low : Platform → ℚ} {x x' : Executor}
    {a : ExecAction} (hf : 0 < fraction) (hf' : fraction < 1) (hlow : ∀ q, 0 ≤ low q)
    (h : AtLeast fraction low x) (hwithin : ExecutesWithin cfg x a)
    (hfetch : FetchesAtLeast low a) (hstep : x.step cfg a = some x') :
    AtLeast fraction (lowAfter fraction (x.startedTrade cfg a) low) x' := by
  rcases Executor.step_cases hstep with ⟨req, ans, rfl, hpc, rfl⟩ |
    ⟨cid, e, rest, rfl, hpc, rfl⟩ | ⟨cid, rfl, hpc, rfl⟩ | ⟨f, rfl, hpc, rfl⟩
  -- a receipt: what the handling will debit is known at once
  · have hbal : ∀ q, 0 ≤ x.balances.balance q := fun q => (hlow q).trans (h.le_balance q)
    have hdebit := debit_le_fraction (h.fraction ▸ hf) hbal hwithin
    refine ⟨h.fraction, fun e he q => (hdebit q).1 e he, fun q => ?_⟩
    show lowAfter fraction (tradeBuys cfg x.balances ans req).toList low q ≤
      x.balances.balance q -
        ((handleExecutionRequest cfg x.balances ans req).effects.map (ExecEffect.debit q)).sum
    cases htrade : tradeBuys cfg x.balances ans req with
    | none =>
      rw [debit_of_no_trade htrade, sub_zero, Option.toList_none, lowAfter_nil]
      exact h.le_balance q
    | some t =>
      have hsum := (hdebit q).2
      rw [h.fraction] at hsum
      have hle : (1 - fraction) * low q ≤ (1 - fraction) * x.balances.balance q :=
        mul_le_mul_of_nonneg_left (h.le_balance q) (sub_nonneg.mpr hf'.le)
      have hone : lowAfter fraction (some t).toList low q = (1 - fraction) * low q := by
        simp [lowAfter]
      rw [hone]
      linarith
  -- an effect moves its debit from what is pending to the balances
  · have hpending := h.pending
    have hlowx := h.low
    simp only [hpc, ExecPc.effects, List.map_cons, List.sum_cons] at hpending hlowx
    show AtLeast fraction (lowAfter fraction [] low) _
    rw [lowAfter_nil]
    refine ⟨?_, fun e' he' => hpending e' (List.mem_cons_of_mem e he'), fun q => ?_⟩
    · exact (tradeFraction_onBalances x.balances e).trans h.fraction
    · show low q ≤ (e.onBalances x.balances).balance q - (rest.map (ExecEffect.debit q)).sum
      rw [balance_onBalances, sub_sub]
      exact hlowx q
  -- the end of a handling, which leaves nothing pending
  · have hlowx := h.low
    simp only [hpc, ExecPc.effects] at hlowx
    show AtLeast fraction (lowAfter fraction [] low) _
    rw [lowAfter_nil]
    exact ⟨h.fraction, fun e he => (by cases he), hlowx⟩
  -- a refresh: a venue that is not reached keeps its balance
  · have hlowx := h.low
    simp only [hpc, ExecPc.effects, List.map_nil, List.sum_nil, sub_zero] at hlowx
    show AtLeast fraction (lowAfter fraction [] low) _
    rw [lowAfter_nil]
    refine ⟨?_, fun e he => (by cases he), fun q => ?_⟩
    · exact (tradeFraction_refreshAndSetBalances x.balances f).trans h.fraction
    · show low q ≤ (x.balances.refreshAndSetBalances f).balance q - 0
      rw [sub_zero, BalanceTracker.balance_refreshAndSetBalances]
      cases hv : BalanceTracker.fetchedBalance f q with
      | none => exact hlowx q
      | some v => exact hfetch q v hv

/-- A refresh that reaches no venue. -/
def NoFetch : ExecAction → Prop
  | .refresh f => f.kalshiCents = none
  | _ => True

theorem fetchesAtLeast_of_noFetch {a : ExecAction} (h : NoFetch a) (low : Platform → ℚ) :
    FetchesAtLeast low a := by
  cases a with
  | refresh f =>
    intro q v hv
    have hnone : f.kalshiCents = none := h
    cases q <;> simp [BalanceTracker.fetchedBalance, hnone] at hv
  | _ => trivial

/-- **Between two refreshes** each trade takes the fraction off the bound. -/
theorem AtLeast.run {cfg : Config} {fraction : ℚ} (hf : 0 < fraction) (hf' : fraction < 1)
    {as : List ExecAction} (hnone : ∀ a ∈ as, NoFetch a) {low : Platform → ℚ} {x x' : Executor}
    (hlow : ∀ q, 0 ≤ low q) (h : AtLeast fraction low x)
    (hwithin : Along (Executor.step cfg) (ExecutesWithin cfg) x as)
    (hrun : run (Executor.step cfg) x as = some x') :
    AtLeast fraction (lowAfter fraction (trades cfg x as) low) x' := by
  -- each trade lowers the bound that the rest of the run starts from
  induction as generalizing x low with
  | nil =>
    obtain rfl : x = x' := by simpa using hrun
    simpa [trades, trace] using h
  | cons a as ih =>
    obtain ⟨t, hstep, hrest⟩ := run_cons.mp hrun
    have hfetch := fetchesAtLeast_of_noFetch (hnone a List.mem_cons_self) low
    have ht := h.step hf hf' hlow hwithin.1 hfetch hstep
    have htail := ih (fun b hb => hnone b (List.mem_cons_of_mem a hb))
      (lowAfter_nonneg hf' hlow _) ht (hwithin.2 t hstep) hrest
    rw [trades, trace_cons_of_step as hstep, lowAfter_append]
    exact htail

/-- `PickerExec::new`. -/
def Executor.new (env : String → Option String) : Executor where
  balances := BalanceTracker.new env

/-- No tracked balance falls below zero. -/
theorem atLeast_zero_run {cfg : Config} {env : String → Option String} {as : List ExecAction}
    {x : Executor} (hwithin : Along (Executor.step cfg) (ExecutesWithin cfg) (.new env) as)
    (hfetch : ∀ a ∈ as, FetchesAtLeast (fun _ => 0) a)
    (hrun : run (Executor.step cfg) (.new env) as = some x) :
    AtLeast (BalanceTracker.new env).tradeFraction (fun _ => 0) x := by
  obtain ⟨hf, hf'⟩ := BalanceTracker.new_tradeFraction env
  have hstart : AtLeast (BalanceTracker.new env).tradeFraction (fun _ => 0) (.new env) := by
    refine ⟨rfl, fun e he => (by cases he), fun q => ?_⟩
    cases q <;> simp [Executor.new, ExecPc.effects, BalanceTracker.balance, BalanceTracker.new]
  -- the fraction of zero is zero, so that the bound is kept by trades as well
  have hboth : Along (Executor.step cfg)
      (fun x a => ExecutesWithin cfg x a ∧ FetchesAtLeast (fun _ => 0) a) (.new env) as :=
    hwithin.and (along_of_forall_mem (fun a ha _ => hfetch a ha) _)
  refine run_invariant_along (fun x a x' hx ha hstep => ?_) hstart hboth hrun
  have hx' := hx.step hf hf' (fun _ => le_rfl) ha.1 ha.2 hstep
  have hzero : lowAfter (BalanceTracker.new env).tradeFraction (x.startedTrade cfg a)
      (fun _ => 0) = fun _ => 0 := by
    funext q
    simp [lowAfter]
  rwa [hzero] at hx'

/-- **Tracked balances.** In every run of the executor in which no fetched balance and no leg
price of a trade is negative and every execution fills within its size, the tracked balances
are never negative; and over any part of the run that begins between two requests and in which
no refresh succeeds, `n` trades leave at least `(1 - f) ^ n` of each of them, for the configured
fraction `f`.  A request that is given up before its orders is no trade. -/
theorem tracked_balance_bounds {cfg : Config} {env : String → Option String}
    {before as : List ExecAction} {x x' : Executor}
    (hbefore : run (Executor.step cfg) (.new env) before = some x)
    (hrun : run (Executor.step cfg) x as = some x')
    (hwithin : Along (Executor.step cfg) (ExecutesWithin cfg) (.new env) (before ++ as))
    (hfetch : ∀ a ∈ before ++ as, FetchesAtLeast (fun _ => 0) a) :
    (∀ q, 0 ≤ x'.balances.balance q) ∧
      ((∀ a ∈ as, NoFetch a) → x.pc = .idle ∨ x.pc = .refreshing → ∀ q,
        (1 - (BalanceTracker.new env).tradeFraction) ^ (trades cfg x as).length *
          x.balances.balance q ≤ x'.balances.balance q) := by
  obtain ⟨hf, hf'⟩ := BalanceTracker.new_tradeFraction env
  obtain ⟨hwithinBefore, hwithinAs⟩ := along_append.mp hwithin
  have hx := atLeast_zero_run hwithinBefore
    (fun a ha => hfetch a (List.mem_append_left as ha)) hbefore
  have hx' := atLeast_zero_run hwithin hfetch (run_append.mpr ⟨x, hbefore, hrun⟩)
  refine ⟨fun q => hx'.le_balance q, fun hnone hpc q => ?_⟩
  -- between two requests nothing is pending, and each balance is its own bound
  have hfree : x.pc.effects = [] := by
    rcases hpc with hpc | hpc <;> rw [hpc] <;> rfl
  have hself : AtLeast (BalanceTracker.new env).tradeFraction x.balances.balance x :=
    ⟨hx.fraction, hx.pending, fun q => by simp [hfree]⟩
  exact (hself.run hf hf' hnone (fun q => hx.le_balance q) (hwithinAs x hbefore) hrun).le_balance q

/-- Two trades after a refresh, of which fifty contracts of each leg are filled. -/
def tradeTwice : List ExecAction :=
  (List.replicate 2 (.receive sampleRequest (filledAnswers "50.00" 50000000) ::
    List.replicate 5 .effect ++ [.finish, .refresh ⟨none, none⟩])).flatten

theorem tracked_balance_bounds_sample : ∃ x x',
    run (Executor.step sampleConfig) (.new fun _ => none) [.refresh ⟨some 100000, some 1000⟩] =
      some x ∧
    run (Executor.step sampleConfig) x tradeTwice = some x' ∧
    0 ≤ x'.balances.balance .polymarket ∧
    (1 - (BalanceTracker.new fun _ => none).tradeFraction) ^ 2 * 1000 ≤
      x'.balances.balance .kalshi := by
  -- the run itself, by evaluation
  have hcheck : (run (Executor.step sampleConfig) (.new fun _ => none)
      [.refresh ⟨some 100000, some 1000⟩]).any (fun x =>
        x.pc.isIdle && decide (x.balances.balance .kalshi = 1000) &&
          decide ((trades sampleConfig x tradeTwice).length = 2) &&
          (run (Executor.step sampleConfig) x tradeTwice).isSome) = true := by decide +kernel
  have hwithin : Along (Executor.step sampleConfig) (ExecutesWithin sampleConfig)
      (.new fun _ => none) ([.refresh ⟨some 100000, some 1000⟩] ++ tradeTwice) := by decide +kernel
  have hnone : ∀ a ∈ tradeTwice, NoFetch a := by
    simp [tradeTwice, NoFetch]
  have hfetch : ∀ a ∈ [.refresh ⟨some 100000, some 1000⟩] ++ tradeTwice,
      FetchesAtLeast (fun _ => 0) a := by
    intro a ha
    rcases List.mem_append.mp ha with ha | ha
    · obtain rfl := List.mem_singleton.mp ha
      intro q
      cases q <;> norm_num [BalanceTracker.fetchedBalance]
    · exact fetchesAtLeast_of_noFetch (hnone a ha) _
  obtain ⟨x, hx, hx'⟩ := (Option.any_eq_true _ _).mp hcheck
  simp only [Bool.and_eq_true, decide_eq_true_eq] at hx'
  obtain ⟨⟨⟨hidle, hbalance⟩, htwo⟩, hsome⟩ := hx'
  obtain ⟨x', hrun⟩ := Option.isSome_iff_exists.mp hsome
  obtain ⟨hpos, hgeometric⟩ := tracked_balance_bounds hx hrun hwithin hfetch
  have hleft := hgeometric hnone (.inl (ExecPc.isIdle_iff.mp hidle)) .kalshi
  rw [hbalance, htwo] at hleft
  exact ⟨x, x', hx, hrun, hpos .polymarket, hleft⟩

end Degenerate.Picker
