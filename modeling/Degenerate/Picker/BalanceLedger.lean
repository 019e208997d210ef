import Degenerate.Picker.System

/-!
# Tracked Balances and the Ledger of Fills

The ledger of a venue is set by a successful fetch of its balance and debited by every
buy that the venue fills, with the filled quantity times the leg price.  The tracked
balance should never be above it.

`handle_execution_request` debits both legs with the smaller of the two fills, so an
execution keeps the two in step when each leg fills what both of them filled.

## Main Results

- `balance_eq_ledger`: over all runs in which the fills of every execution are alike
- `excess_not_deducted`
-/

namespace Degenerate.Picker

open Degenerate.Lib

/-! ## §1 The ledger -/

/-- An entry in the ledger. -/
inductive LedgerEntry where
  | fetched (venue : Platform) (balance : ℚ)
  | bought (venue : Platform) (quantity price : ℚ)

/-- The effect of an entry on the ledger of a venue. -/
def LedgerEntry.post (q : Platform) (balance : ℚ) : LedgerEntry → ℚ
  | .fetched venue v => if q = venue then v else balance
  | .bought venue quantity price => if q = venue then balance - quantity * price else balance

/-- The ledger of a venue: its last fetched balance, zero before the first one, minus the cost
    of the buys filled on it since. -/
def ledgerBalance (q : Platform) (entries : List LedgerEntry) : ℚ :=
  entries.foldl (LedgerEntry.post q) 0

/-- The entries of a refresh. -/
def fetchedEntries (f : BalanceTracker.Fetched) : List LedgerEntry :=
  [Platform.kalshi, .polymarket].filterMap fun q =>
    (BalanceTracker.fetchedBalance f q).map (.fetched q)

/-- The entries of an effect: a buy, with what its venue reports as filled. -/
def ExecEffect.entries : ExecEffect → List LedgerEntry
  | .makeFakOrder buy => [.bought buy.leg.platform buy.reported buy.price.toRat]
  | _ => []

/-- The entries of a step of the executor. -/
def ledgerEntries (x : Executor) : ExecAction → List LedgerEntry
  | .refresh f => fetchedEntries f
  | .effect =>
      match x.pc with
      | .handling _ (e :: _) => e.entries
      | _ => []
  | _ => []

/-! ## §2 Executions with like fills -/

/-- What a venue reports as filled, as far as its answer can be read. -/
def Buy.read (b : Buy) : ℚ := if b.order.result.isOk then b.reported else 0

/-- The two buys of a handling that gets as far as its orders. -/
def placedBuys (cfg : Config) (bal : BalanceTracker) (ans : ExecAnswers)
    (req : ExecutionRequest) : Option (Buy × Buy) :=
  match executionMetrics cfg.optimistic ans req with
  | .error _ => none
  | .ok m =>
      if m.outOfBand then none
      else
        (m.executionSize bal).map fun size =>
          (buyLeg cfg ans.anchorVenue req.correlationId req.anchor size m.anchorPrice,
            buyLeg cfg ans.matchVenue req.correlationId req.match size m.matchPrice)

/-- Each leg that costs something fills the quantity that is read for both legs. -/
def FillsAlike (buys : Buy × Buy) : Prop :=
  ∀ buy ∈ [buys.1, buys.2], buy.price.toRat = 0 ∨ buy.reported = min buys.1.read buys.2.read

/-- An execution that starts in the step has like fills. -/
def ExecutesAlike (cfg : Config) (x : Executor) : ExecAction → Prop
  | .receive req ans => ∀ buys ∈ placedBuys cfg x.balances ans req, FillsAlike buys
  | _ => True

instance (buys : Buy × Buy) : Decidable (FillsAlike buys) :=
  inferInstanceAs (Decidable (∀ buy ∈ [buys.1, buys.2],
    buy.price.toRat = 0 ∨ buy.reported = min buys.1.read buys.2.read))

instance (cfg : Config) (x : Executor) : ∀ a, Decidable (ExecutesAlike cfg x a)
  | .receive req ans => inferInstanceAs (Decidable (∀ buys ∈ placedBuys cfg x.balances ans req,
      FillsAlike buys))
  | .effect | .finish | .refresh _ => .isTrue trivial

/-- The fill that is accounted for is the one that is read. -/
theorem fill_eq_read (cfg : Config) (venue : OrderVenue) (cid : CorrelationId)
    (leg : ArbMinifiedInfo) (size : ℚ) (price : Decimal) :
    (buyLeg cfg venue cid leg size price).order.fill.1 =
      (buyLeg cfg venue cid leg size price).read := by
  set buy := buyLeg cfg venue cid leg size price with hbuy
  cases hr : buy.order.result with
  | error e => simp [Placed.fill, Buy.read, hr, Except.isOk, Except.toBool]
  | ok f =>
    have hfill : f.1 = buy.reported := fill_eq_venueFill hr
    simp [Placed.fill, Buy.read, hr, Except.isOk, Except.toBool, hfill]

/-! ## §3 Debits and costs -/

/-- What an effect debits from the tracked balance of a venue. -/
def ExecEffect.debit (q : Platform) : ExecEffect → ℚ
  | .deductFill pa a pm m size => (if q = pa then a * size else 0) + if q = pm then m * size else 0
  | _ => 0

/-- What an effect costs on a venue. -/
def ExecEffect.cost (q : Platform) : ExecEffect → ℚ
  | .makeFakOrder buy => if q = buy.leg.platform then buy.reported * buy.price.toRat else 0
  | _ => 0

/-- The effects of the current handling that are still to come. -/
def ExecPc.effects : ExecPc → List ExecEffect
  | .handling _ effects => effects
  | _ => []

theorem balance_onBalances (e : ExecEffect) (bal : BalanceTracker) (q : Platform) :
    (e.onBalances bal).balance q = bal.balance q - e.debit q := by
  cases e with
  | deductFill pa a pm m size => exact bal.balance_deductFill pa pm a m size q
  | _ => exact (sub_zero _).symm

theorem foldl_entries (e : ExecEffect) (q : Platform) (b : ℚ) :
    e.entries.foldl (LedgerEntry.post q) b = b - e.cost q := by
  cases e with
  | makeFakOrder buy =>
    simp only [ExecEffect.entries, List.foldl_cons, List.foldl_nil, LedgerEntry.post,
      ExecEffect.cost]
    split
    · rfl
    · exact (sub_zero b).symm
  | _ => exact (sub_zero b).symm

theorem foldl_fetchedEntries (f : BalanceTracker.Fetched) (q : Platform) (b : ℚ) :
    (fetchedEntries f).foldl (LedgerEntry.post q) b =
      (BalanceTracker.fetchedBalance f q).getD b := by
  obtain ⟨k, p⟩ := f
  cases k <;> cases p <;> cases q <;>
    simp [fetchedEntries, BalanceTracker.fetchedBalance, LedgerEntry.post]

/-- After the fills nothing is debited or bought. -/
theorem afterFills_free (ans : ExecAnswers) (req : ExecutionRequest) (anchor «match» : Buy)
    (q : Platform) :
    ((afterFills ans req anchor «match»).effects.map (ExecEffect.debit q)).sum = 0 ∧
      ((afterFills ans req anchor «match»).effects.map (ExecEffect.cost q)).sum = 0 := by
  -- a message costs nothing
  have hsends : ∀ ebos : List ClientEbo,
      ((ebos.map ExecEffect.send).map (ExecEffect.debit q)).sum = 0 ∧
        ((ebos.map ExecEffect.send).map (ExecEffect.cost q)).sum = 0 := by
    intro ebos
    induction ebos with
    | nil => exact ⟨rfl, rfl⟩
    | cons ebo rest ih => simpa [ExecEffect.debit, ExecEffect.cost] using ih
  rcases afterFills_cases ans req anchor «match» with h | ⟨ebo, h⟩ | ⟨ebo, hedge, ebos, h⟩
  · rw [h]
    simp [ExecEffect.debit, ExecEffect.cost]
  · rw [h]
    simp [ExecEffect.debit, ExecEffect.cost]
  · obtain ⟨hd, hc⟩ := hsends ebos
    rw [h]
    simp only [List.map_cons, List.map_append, List.sum_cons, List.sum_append, hd, hc]
    simp [ExecEffect.debit, ExecEffect.cost]

/-- **One handling**: with like fills it debits from each venue what it costs there. -/
theorem debit_eq_cost {cfg : Config} {bal : BalanceTracker} {ans : ExecAnswers}
    {req : ExecutionRequest} (h : ∀ buys ∈ placedBuys cfg bal ans req, FillsAlike buys)
    (q : Platform) :
    ((handleExecutionRequest cfg bal ans req).effects.map (ExecEffect.debit q)).sum =
      ((handleExecutionRequest cfg bal ans req).effects.map (ExecEffect.cost q)).sum := by
  rcases handleExecutionRequest_cases cfg bal ans req with he | he | ⟨m, size, hm, hband, hsize, he⟩
  · rw [he]
    rfl
  · rw [he]
    rfl
  · set anchor := buyLeg cfg ans.anchorVenue req.correlationId req.anchor size m.anchorPrice
      with hanchor
    set «match» := buyLeg cfg ans.matchVenue req.correlationId req.match size m.matchPrice
      with hmatch
    have hplaced : placedBuys cfg bal ans req = some (anchor, «match») := by
      simp [placedBuys, hm, hband, hsize, hanchor, hmatch]
    have hbuys := h _ hplaced
    -- a leg is debited the common fill, which is what it filled unless it is free
    have hleg : ∀ buy ∈ [anchor, «match»], buy.price.toRat * min anchor.read «match».read =
        buy.reported * buy.price.toRat := by
      intro buy hbuy
      rcases hbuys buy hbuy with hzero | hfill
      · rw [hzero, zero_mul, mul_zero]
      · rw [hfill, mul_comm]
    have ha := hleg anchor (by simp)
    have hb := hleg «match» (by simp)
    have hread : min anchor.order.fill.1 «match».order.fill.1 = min anchor.read «match».read := by
      rw [hanchor, hmatch, fill_eq_read, fill_eq_read]
    obtain ⟨hd, hc⟩ := afterFills_free ans req anchor «match» q
    have heffects : (handleExecutionRequest cfg bal ans req).effects =
        .makeFakOrder anchor :: .makeFakOrder «match» ::
        .deductFill req.anchor.platform m.anchorPrice.toRat req.match.platform m.matchPrice.toRat
          (min anchor.order.fill.1 «match».order.fill.1) ::
          (afterFills ans req anchor «match»).effects := by rw [he]; rfl
    rw [heffects, hread]
    simp only [List.map_cons, List.sum_cons, hd, hc, ExecEffect.debit, ExecEffect.cost]
    have hap : m.anchorPrice.toRat * min anchor.read «match».read =
        anchor.reported * anchor.price.toRat := ha
    have hmp : m.matchPrice.toRat * min anchor.read «match».read =
        «match».reported * «match».price.toRat := hb
    have hal : anchor.leg.platform = req.anchor.platform := rfl
    have hml : «match».leg.platform = req.match.platform := rfl
    rw [hap, hmp, hal, hml]
    ring

/-! ## §4 Runs -/

/-- The tracked balance and the ledger of a venue differ by what the current handling still
    debits and costs. -/
def InStep (q : Platform) (x : Executor) (ledger : ℚ) : Prop :=
  x.balances.balance q - (x.pc.effects.map (ExecEffect.debit q)).sum =
    ledger - (x.pc.effects.map (ExecEffect.cost q)).sum

theorem inStep_step {cfg : Config} {q : Platform} {x x' : Executor} {a : ExecAction} {ledger : ℚ}
    (hi : InStep q x ledger) (ha : ExecutesAlike cfg x a) (h : x.step cfg a = some x') :
    InStep q x' ((ledgerEntries x a).foldl (LedgerEntry.post q) ledger) := by
  rcases Executor.step_cases h with ⟨req, ans, rfl, hpc, rfl⟩ | ⟨cid, e, rest, rfl, hpc, rfl⟩ |
    ⟨cid, rfl, hpc, rfl⟩ | ⟨f, rfl, hpc, rfl⟩
  · -- nothing was left to do, and the new handling debits what it costs
    have hsame : x.balances.balance q = ledger := by simpa [InStep, hpc, ExecPc.effects] using hi
    have heq := debit_eq_cost ha q
    simp only [InStep, Executor.handle, ExecPc.effects, ledgerEntries, List.foldl_nil, heq, hsame]
  · -- an effect moves its debit and its cost from what is to come to what is done
    simp only [InStep, hpc, ExecPc.effects, List.map_cons, List.sum_cons] at hi
    simp only [InStep, ledgerEntries, hpc, ExecPc.effects, foldl_entries, balance_onBalances]
    linarith
  · simpa [InStep, hpc, ExecPc.effects, ledgerEntries] using hi
  · -- a refresh sets both to what was fetched, or leaves both
    have hsame : x.balances.balance q = ledger := by simpa [InStep, hpc, ExecPc.effects] using hi
    simp only [InStep, ExecPc.effects, ledgerEntries, foldl_fetchedEntries,
      BalanceTracker.balance_refreshAndSetBalances, hsame, List.map_nil]

/-- **The tracked balance is the ledger**: in every run in which the fills of each execution
    are alike, whenever the executor is between two requests. -/
theorem balance_eq_ledger {cfg : Config} {fraction minSize : ℚ} {as : List ExecAction}
    {x : Executor}
    (hfills : Along (Executor.step cfg) (ExecutesAlike cfg) (Executor.init fraction minSize) as)
    (h : run (Executor.step cfg) (Executor.init fraction minSize) as = some x)
    (hpc : x.pc = .idle ∨ x.pc = .refreshing) (q : Platform) :
    x.balances.balance q = ledgerBalance q
      (trace ledgerEntries (Executor.step cfg) (Executor.init fraction minSize) as) := by
  have hinit : InStep q (Executor.init fraction minSize) 0 := by
    cases q <;> simp [InStep, Executor.init, ExecPc.effects, BalanceTracker.balance]
  have hi : InStep q x (ledgerBalance q
      (trace ledgerEntries (Executor.step cfg) (Executor.init fraction minSize) as)) :=
    foldl_trace_along (I := InStep q) (LedgerEntry.post q)
      (fun _ _ _ _ hi ha ht => inStep_step hi ha ht) hinit hfills h
  have hnone : x.pc.effects = [] := by
    rcases hpc with hpc | hpc <;> rw [hpc] <;> rfl
  simpa [InStep, hnone] using hi

/-- The sample request is executed with `effects` effects, after which the refresh fails. -/
def executeOnce (ans : ExecAnswers) (effects : ℕ) : List ExecAction :=
  .refresh ⟨some 100000, some 1000⟩ :: .receive sampleRequest ans ::
    List.replicate effects .effect ++ [.finish, .refresh ⟨none, none⟩]

/-- Both legs fill fifty contracts, and the balances say so before any refresh succeeds. -/
theorem balance_eq_ledger_sample :
    ∃ x, run (Executor.step sampleConfig) (Executor.init (1 / 5) 2)
        (executeOnce (filledAnswers "50.00" 50000000) 5) = some x ∧
      x.balances.balance .kalshi = 980 ∧
      x.balances.balance .kalshi = ledgerBalance .kalshi (trace ledgerEntries
        (Executor.step sampleConfig) (Executor.init (1 / 5) 2)
        (executeOnce (filledAnswers "50.00" 50000000) 5)) := by
  have hrun : (run (Executor.step sampleConfig) (Executor.init (1 / 5) 2)
      (executeOnce (filledAnswers "50.00" 50000000) 5)).any (fun x =>
        x.pc.isIdle && decide (x.balances.balance .kalshi = 980)) = true := by decide +kernel
  have hfills : Along (Executor.step sampleConfig) (ExecutesAlike sampleConfig)
      (Executor.init (1 / 5) 2) (executeOnce (filledAnswers "50.00" 50000000) 5) := by
    decide +kernel
  obtain ⟨x, hx, hcheck⟩ := (Option.any_eq_true _ _).mp hrun
  rw [Bool.and_eq_true, decide_eq_true_eq] at hcheck
  have hidle := ExecPc.isIdle_iff.mp hcheck.1
  exact ⟨x, hx, hcheck.2, balance_eq_ledger hfills hx (.inl hidle) .kalshi⟩

/-- **An excess that is not deducted**: Kalshi fills fifty contracts and Polymarket none, and
    the twenty dollars stay in the tracked balance. -/
theorem excess_not_deducted :
    ∃ x, run (Executor.step sampleConfig) (Executor.init (1 / 5) 2)
        (executeOnce (filledAnswers "50.00" 0) 6) = some x ∧ x.pc = .idle ∧
      x.balances.balance .kalshi = 1000 ∧
      ledgerBalance .kalshi (trace ledgerEntries (Executor.step sampleConfig)
        (Executor.init (1 / 5) 2) (executeOnce (filledAnswers "50.00" 0) 6)) = 980 := by
  have hrun : (run (Executor.step sampleConfig) (Executor.init (1 / 5) 2)
      (executeOnce (filledAnswers "50.00" 0) 6)).any (fun x =>
        x.pc.isIdle && decide (x.balances.balance .kalshi = 1000)) = true := by decide +kernel
  have hledger : ledgerBalance .kalshi (trace ledgerEntries (Executor.step sampleConfig)
      (Executor.init (1 / 5) 2) (executeOnce (filledAnswers "50.00" 0) 6)) = 980 := by
    decide +kernel
  obtain ⟨x, hx, hcheck⟩ := (Option.any_eq_true _ _).mp hrun
  rw [Bool.and_eq_true, decide_eq_true_eq] at hcheck
  exact ⟨x, hx, ExecPc.isIdle_iff.mp hcheck.1, hcheck.2, hledger⟩

end Degenerate.Picker
