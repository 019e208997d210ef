import Degenerate.Picker.CommsTask
import Degenerate.Picker.InFlight
import Degenerate.Picker.TwoIndexSync

/-!
# Prices of Watched Markets

`unregister_arb` drops the top of book of a market together with its last watcher.
Entries come from three places: the Kalshi branch looks the market up in the registry
first, the seeds follow a registration, and the Polymarket branch stores whatever it is
sent.  So the entries are those of watched markets as long as Polymarket messages are
about watched tokens, and a late or foreign one leaves an entry behind.

Between the lookup and the store nothing may evict the market: in the list of operations
still to do, price operations come before those that may unregister a pair.

## Main Results

- `top_of_book_watched`
- `stray_price_evaluated`: a pair is evaluated at a price from before its registration
-/

namespace Degenerate.Picker

open Degenerate.Lib

/-! ## §1 Price operations -/

/-- The market whose top of book the operation may write. -/
def CommsOp.prices : CommsOp → Option MarketKey
  | .onPriceUpdate key _ => some key
  | .seedTobFromHttp leg => some leg.marketKey
  | _ => none

/-- The operation may lead to the removal of a pair. -/
def CommsOp.evicts : CommsOp → Bool
  | .unregisterArb _ | .marketResolved _ | .marketLifecycle _ | .findArb _ _ => true
  | _ => false

/-- Price operations come first. -/
def PricesFirst (todo : List CommsOp) : Prop :=
  todo.Pairwise fun op op' => op.evicts → op'.prices = none

theorem pricesFirst_of_none {ops : List CommsOp} (h : ∀ op ∈ ops, op.prices = none) :
    PricesFirst ops :=
  List.pairwise_of_forall_mem_list fun _ _ op' hop' _ => h op' hop'

theorem pricesFirst_of_not_evicts {ops : List CommsOp} (h : ∀ op ∈ ops, op.evicts = false) :
    PricesFirst ops :=
  List.pairwise_of_forall_mem_list fun op hop _ _ he => absurd he (by simp [h op hop])

namespace System

/-- What follows an operation evicts only if it does, and writes at most its market. -/
theorem Follows.prices {p : System} {op : CommsOp} {ops : List CommsOp} (h : Follows p op ops) :
    PricesFirst ops ∧
      ∀ op' ∈ ops, (op'.evicts → op.evicts) ∧ (op'.prices = none ∨ op'.prices = op.prices) := by
  have hnone : (∀ op' ∈ ops, op'.prices = none) → (∀ op' ∈ ops, op'.evicts → op.evicts) →
      PricesFirst ops ∧
        ∀ op' ∈ ops, (op'.evicts → op.evicts) ∧ (op'.prices = none ∨ op'.prices = op.prices) :=
    fun hp he => ⟨pricesFirst_of_none hp, fun op' hop' => ⟨he op' hop', .inl (hp op' hop')⟩⟩
  cases h with
  | resolved h =>
    refine hnone (fun op' hop' => ?_) fun _ _ _ => rfl
    obtain ⟨cid, -, rfl⟩ := List.mem_map.mp hop'
    rfl
  | lifecycle h =>
    refine hnone (fun op' hop' => ?_) fun _ _ _ => rfl
    obtain ⟨cid, -, hop'⟩ := List.mem_flatMap.mp hop'
    rcases mem_lifecycleOps hop' with ⟨-, rfl⟩ | rfl <;> rfl
  | closing => exact hnone (by simp [CommsOp.prices]) fun _ _ _ => rfl
  | discovered => exact hnone (by simp [CommsOp.prices]) (by simp [CommsOp.evicts])
  | seeded h =>
    -- the price that was fetched is stored next
    exact ⟨List.pairwise_singleton _ _, by simp [CommsOp.evicts, CommsOp.prices]⟩
  | stale h => exact hnone (by simp) (by simp)
  | evaluated => exact hnone (by simp) (by simp)
  | found => exact hnone (by simp) (by simp)
  | unseeded => exact hnone (by simp) (by simp)
  | undiscovered => exact hnone (by simp) (by simp)
  | sent => exact hnone (by simp) (by simp)

/-! ## §2 The invariant -/

/-- A Polymarket price message is about watched tokens. -/
def NamesWatched (p : System) : Action → Prop
  | .receive (.polymarket msg) => ∀ u ∈ polyUpdates msg, p.book.registry u.1 ≠ none
  | _ => True

instance (p : System) : DecidablePred (NamesWatched p)
  | .receive (.polymarket msg) =>
      inferInstanceAs (Decidable (∀ u ∈ polyUpdates msg, p.book.registry u.1 ≠ none))
  | .receive (.kalshi _) | .receive (.arbDiscovery _) | .receive (.runningArbsResponse _ _)
  | .receive (.confirmedAndRun _ _) | .receive (.deleteRunningArbs _) | .comms _
  | .execReceive _ | .execEffect | .execFinish | .execRefresh _ | .delTask _ _
  | .subscribedResponse _ _ | .tick _ => .isTrue trivial

/-- Stored prices, and those that are about to be stored, are of watched markets. -/
structure PricesWatched (p : System) : Prop where
  stored : ∀ k, p.topOfBook k ≠ none → p.book.registry k ≠ none
  pending : ∀ op ∈ p.comms.todo, ∀ k, op.prices = some k → p.book.registry k ≠ none
  order : PricesFirst p.comms.todo

theorem pricesWatched_init (fraction minSize : ℚ) : (init fraction minSize).PricesWatched where
  stored k h := by exact absurd rfl h
  pending op h := by cases h
  order := List.Pairwise.nil

/-- The operations of a message about watched tokens write watched markets, and come first. -/
theorem opsOf_prices {p : System} {msg : CommsMessage} (h : NamesWatched p (.receive msg)) :
    PricesFirst (opsOf p.book msg) ∧
      ∀ op ∈ opsOf p.book msg, ∀ k, op.prices = some k → p.book.registry k ≠ none := by
  -- most messages write no price
  have hnone : (∀ op ∈ opsOf p.book msg, op.prices = none) →
      PricesFirst (opsOf p.book msg) ∧
        ∀ op ∈ opsOf p.book msg, ∀ k, op.prices = some k → p.book.registry k ≠ none := by
    refine fun hp => ⟨pricesFirst_of_none hp, fun op hop k hk => ?_⟩
    rw [hp op hop] at hk
    cases hk
  cases msg with
  | polymarket msg =>
    have hupdates : opsOf p.book (.polymarket msg) =
        (polyUpdates msg).map (fun u => .onPriceUpdate u.1 u.2) ∨
        ∀ op ∈ opsOf p.book (.polymarket msg), op.prices = none := by
      cases msg with
      | marketResolved assetIds => exact .inr (by simp [opsOf, CommsOp.prices])
      -- the updates evict nothing, and each names a market that the message names
      | _ => exact .inl rfl
    rcases hupdates with heq | hp
    · rw [heq]
      constructor
      · refine pricesFirst_of_not_evicts fun op hop => ?_
        obtain ⟨u, -, rfl⟩ := List.mem_map.mp hop
        rfl
      · intro op hop k hk
        obtain ⟨u, hu, rfl⟩ := List.mem_map.mp hop
        obtain rfl : u.1 = k := Option.some.inj hk
        exact h u hu
    · exact hnone hp
  | kalshi msg =>
    cases msg with
    | tickerUpdate t =>
      -- the Kalshi branch has looked the market up
      simp only [opsOf]
      split
      · exact ⟨List.Pairwise.nil, fun op hop => by cases hop⟩
      · rename_i hwatched
        cases htop : tickerTop t with
        | none => exact ⟨List.Pairwise.nil, fun op hop => by cases hop⟩
        | some tob =>
          refine ⟨List.pairwise_singleton _ _, fun op hop k hk => ?_⟩
          obtain rfl : op = .onPriceUpdate (makeMarketKey t.marketTicker .kalshi) tob := by
            simpa using hop
          obtain rfl : makeMarketKey t.marketTicker .kalshi = k := Option.some.inj hk
          simpa using hwatched
    | marketLifecycleV2 event => exact hnone (by simp [opsOf, CommsOp.prices])
    | other => exact hnone (by simp [opsOf])
  | arbDiscovery arbs => exact hnone (by simp [opsOf, CommsOp.prices])
  | runningArbsResponse arbs cids =>
    refine hnone fun op hop => ?_
    obtain ⟨a, -, rfl⟩ := List.mem_map.mp hop
    rfl
  | confirmedAndRun arb cid => exact hnone (by simp [opsOf, CommsOp.prices])
  | deleteRunningArbs cids =>
    refine hnone fun op hop => ?_
    obtain ⟨cid, -, hop⟩ := List.mem_flatMap.mp hop
    simp only [List.mem_cons, List.not_mem_nil, or_false] at hop
    rcases hop with rfl | rfl <;> rfl

/-- A registration only adds markets, and the seeds are for those that it adds. -/
theorem PricesWatched.register {p q : System} {w : ArbWatch} (hp : p.PricesWatched)
    (htodo : q.comms.todo =
      .seedTobFromHttp w.arb.anchor :: .seedTobFromHttp w.arb.match :: p.comms.todo)
    (hb : q.book = p.book.registerArb w) (htop : q.topOfBook = p.topOfBook) :
    q.PricesWatched := by
  -- a registration takes no key away
  have hgrow : ∀ k, p.book.registry k ≠ none ∨ k ∈ w.legKeys → q.book.registry k ≠ none := by
    intro k hk
    rw [hb, Book.registerArb_registry]
    split
    · exact Option.some_ne_none _
    · exact hk.resolve_right ‹_›
  refine ⟨fun k hk => hgrow k (.inl (hp.stored k (htop ▸ hk))), fun op hop k hk => ?_, ?_⟩
  · rw [htodo, List.mem_cons, List.mem_cons] at hop
    rcases hop with rfl | rfl | hop
    · cases hk
      exact hgrow _ (.inr (by simp [ArbWatch.legKeys, ArbWatch.legs]))
    · cases hk
      exact hgrow _ (.inr (by simp [ArbWatch.legKeys, ArbWatch.legs]))
    · exact hgrow k (.inl (hp.pending op hop k hk))
  · rw [htodo]
    exact List.pairwise_cons.mpr ⟨fun _ _ he => (by cases he),
      List.pairwise_cons.mpr ⟨fun _ _ he => (by cases he), hp.order⟩⟩

/-- A market that loses its last watcher loses its price with it. -/
theorem PricesWatched.unregister {p q : System} {cid : CorrelationId} {rest : List CommsOp}
    (hp : p.PricesWatched) (htodo : p.comms.todo = .unregisterArb cid :: rest)
    (htodo' : q.comms.todo = rest) (hb : q.book = (p.book.unregisterArb cid).1)
    (htop : q.topOfBook =
      p.topOfBook.eraseAll ((p.book.unregisterArb cid).2.map (·.marketKey))) :
    q.PricesWatched := by
  have ho := hp.order
  rw [htodo] at ho
  obtain ⟨hafter, hrest⟩ := List.pairwise_cons.mp ho
  refine ⟨fun k hk hnone => ?_, fun op hop k hk => ?_, by rwa [htodo']⟩
  · rw [htop, PMap.eraseAll_apply] at hk
    rw [hb] at hnone
    rcases Book.evicted_of_unregisterArb hnone with hold | hevicted
    · split at hk
      · exact hk rfl
      · exact hp.stored k hk hold
    · exact hk (if_pos hevicted)
  · -- the order of the operations leaves no price operation behind this one
    rw [htodo'] at hop
    rw [hafter op hop rfl] at hk
    cases hk

/-- While nothing is registered or withdrawn, an operation may store a price for its market and
    be replaced by operations that evict only if it does and write at most its market. -/
theorem PricesWatched.replace {p q : System} {op : CommsOp} {rest ops : List CommsOp}
    (hp : p.PricesWatched) (htodo : p.comms.todo = op :: rest) (hfirst : PricesFirst ops)
    (hops : ∀ op' ∈ ops, (op'.evicts → op.evicts) ∧ (op'.prices = none ∨ op'.prices = op.prices))
    (htodo' : q.comms.todo = ops ++ rest) (hreg : q.book.registry = p.book.registry)
    (hstored : ∀ k, q.topOfBook k ≠ none → p.topOfBook k ≠ none ∨ op.prices = some k) :
    q.PricesWatched := by
  obtain ⟨hs, hpend, ho⟩ := hp
  rw [htodo] at hpend ho
  obtain ⟨hafter, hrest⟩ := List.pairwise_cons.mp ho
  -- the market of the operation is watched, as that of any pending operation
  have hwatched : ∀ k, op.prices = some k → p.book.registry k ≠ none :=
    hpend op (List.mem_cons_self ..)
  refine ⟨fun k hk => ?_, fun op' hop' k hk => ?_, ?_⟩
  · -- the stored prices
    rw [hreg]
    exact (hstored k hk).elim (hs k) (hwatched k)
  · -- the pending operations: those that follow, and those of the rest
    rw [htodo', List.mem_append] at hop'
    rw [hreg]
    rcases hop' with hop' | hop'
    · rcases (hops op' hop').2 with hnone | hsame
      · rw [hnone] at hk
        cases hk
      · exact hwatched k (hsame ▸ hk)
    · exact hpend op' (List.mem_cons_of_mem _ hop') k hk
  · -- the order: what evicts comes after what writes
    rw [htodo']
    exact List.pairwise_append.mpr ⟨hfirst, hrest,
      fun op' hop' op'' hop'' he => hafter op'' hop'' ((hops op' hop').1 he)⟩

/-- Stored prices stay those of watched markets. -/
theorem PricesWatched.step {cfg : Config} {p q : System} {a : Action} (hp : p.PricesWatched)
    (ha : NamesWatched p a) (h : System.step cfg p a = some q) : q.PricesWatched := by
  rcases step_owned_cases h with ⟨⟨htodo, hb, htop⟩, -⟩ | ⟨msg, rfl, -, hcomms, hb, htop⟩ |
    ⟨_, w, -, -, htodo, hb, htop⟩ |
    ⟨_, key, tob, order, rest, -, -, htodo, -, -, htodo', hb, htop⟩ |
    ⟨_, cid, rest, -, -, htodo, htodo', hb, htop⟩ |
    ⟨_, key, cid, ts, rest, -, -, htodo, htodo', hb, htop⟩ |
    ⟨_, op, rest, ops, -, -, htodo, hf, htodo', hb, htop⟩
  · obtain ⟨hs, hpend, ho⟩ := hp
    exact ⟨by rwa [htop, hb], by rwa [htodo, hb], by rwa [htodo]⟩
  · obtain ⟨hfirst, hwatched⟩ := opsOf_prices ha
    have hs := hp.stored
    exact ⟨by rwa [htop, hb], by rwa [hcomms, hb], by rwa [hcomms]⟩
  · exact hp.register htodo hb htop
  · -- the price is stored, and its watchers are evaluated next
    have hevals : ∀ op' ∈ order.map CommsOp.evaluateArb,
        op'.evicts = false ∧ op'.prices = none := by
      intro op' hop'
      obtain ⟨cid, -, rfl⟩ := List.mem_map.mp hop'
      exact ⟨rfl, rfl⟩
    refine hp.replace htodo (pricesFirst_of_none fun op' hop' => (hevals op' hop').2)
      (fun op' hop' => ⟨fun he => ?_, .inl (hevals op' hop').2⟩) htodo' (by rw [hb])
      fun k hk => ?_
    · rw [(hevals op' hop').1] at he
      cases he
    · by_cases hkey : k = key
      · exact .inr (congrArg some hkey.symm)
      · rw [htop, PMap.insert_of_ne _ hkey] at hk
        exact .inl hk
  · exact hp.unregister htodo htodo' hb htop
  · have hreg : q.book.registry = p.book.registry := by rw [hb, Book.updateCloseTime_registry]
    refine hp.replace htodo List.Pairwise.nil (fun op' hop' => by cases hop') htodo' hreg
      fun k hk => .inl ?_
    rwa [htop] at hk
  · obtain ⟨hfirst, hops⟩ := hf.prices
    refine hp.replace htodo hfirst hops htodo' (by rw [hb]) fun k hk => .inl ?_
    rwa [htop] at hk

/-- **Top of book only for watched markets**: in every run in which Polymarket prices come for
    watched tokens only, the entries of every state are those of watched markets; so the entry
    that a market has after it was unwatched has been stored since. -/
theorem top_of_book_watched {cfg : Config} {fraction minSize : ℚ} {as : List Action}
    {p : System} (hpoly : Along (System.step cfg) NamesWatched (init fraction minSize) as)
    (h : run (System.step cfg) (init fraction minSize) as = some p) :
    (∀ k, p.topOfBook k ≠ none → p.book.registry k ≠ none) ∧
    ∀ k bs q tob, p.book.registry k = none → run (System.step cfg) p bs = some q →
      q.topOfBook k = some tob →
      ∃ bs₁ c bs₂ r rest, bs = bs₁ ++ .comms c :: bs₂ ∧
        run (System.step cfg) p bs₁ = some r ∧ r.comms.pc = .next ∧
        r.comms.todo = .onPriceUpdate k tob :: rest ∧ r.accepts k tob = true := by
  have hp : p.PricesWatched :=
    run_invariant_along (fun _ _ _ hs ha ht => hs.step ha ht) (pricesWatched_init _ _) hpoly h
  refine ⟨hp.stored, fun k bs q tob hk hbs hq => ?_⟩
  -- the market had no entry at all, so some step has stored this one
  have hnone : p.topOfBook k ≠ some tob := by
    intro htob
    exact hp.stored k (by simp [htob]) hk
  obtain ⟨bs₁, a, bs₂, r, r', rfl, hr, hbefore, hstep, hafter, -⟩ :=
    exists_turn (fun s : System => s.topOfBook k = some tob) hnone hq hbs
  obtain ⟨c, _, rest, rfl, hpc, htodo, hacc, -⟩ := stored_of_step hstep hbefore hafter
  exact ⟨bs₁, c, bs₂, r, rest, rfl, hr, hpc, htodo, hacc⟩

/-- The sample pair is registered and seeded, and a quote of its Polymarket leg arrives. -/
def quotedSteps : List Action :=
  confirmSteps (sampleArb "K" "11") "x" ++ seedSteps "x" ++ [commsOne, commsOne,
    .receive (.polymarket (.bestBidAsk ⟨"11", "0.38", "0.40", "2"⟩)), commsWith ["x"], commsOne]

/-- The seeded and quoted market is watched. -/
theorem top_of_book_watched_sample :
    ∃ p, run (System.step sampleConfig) (init (1 / 5) 2) quotedSteps = some p ∧
      p.topOfBook "POLYMARKET:11" ≠ none ∧ p.book.registry "POLYMARKET:11" ≠ none := by
  have hrun : (run (System.step sampleConfig) (init (1 / 5) 2) quotedSteps).any
      (fun p => (p.topOfBook "POLYMARKET:11").isSome) = true := by decide +kernel
  have hpoly : Along (System.step sampleConfig) NamesWatched (init (1 / 5) 2) quotedSteps := by
    decide +kernel
  obtain ⟨p, hp, hsome⟩ := (Option.any_eq_true _ _).mp hrun
  have hne : p.topOfBook "POLYMARKET:11" ≠ none := Option.isSome_iff_ne_none.mp hsome
  exact ⟨p, hp, hne, (top_of_book_watched hpoly hp).1 _ hne⟩

/-! ## §3 A price left over -/

/-- The sample pair is registered and deleted, and a quote of its Polymarket leg arrives late. -/
def straySteps : List Action :=
  confirmOffline (sampleArb "K" "11") "x" ++ [.receive (.deleteRunningArbs ["x"]), commsOne,
    commsOne, .receive (.polymarket (.bestBidAsk ⟨"11", "0.38", "0.40", "1"⟩)), commsOne]

/-- The pair is registered again, still subscribed, and only its Kalshi leg is quoted. -/
def leftoverSteps : List Action :=
  .receive (.confirmedAndRun (sampleArb "K" "11") "x") :: List.replicate 4 commsOne ++
    [commsOffline, commsOffline, receiveTicker 1, commsWith ["x"], commsOne, commsOne, commsOne]

/-- **A price left over**: between two messages an entry stands without any watcher, and the
    pair is sent at it after its next registration. -/
theorem stray_price_evaluated :
    ∃ p q req, run (System.step sampleConfig) (init (1 / 5) 2) straySteps = some p ∧
      p.betweenMessages = true ∧ p.topOfBook "POLYMARKET:11" ≠ none ∧
      p.book.registry "POLYMARKET:11" = none ∧
      run (System.step sampleConfig) p leftoverSteps = some q ∧ q.Enqueues req ∧
      q.topOfBook "POLYMARKET:11" = p.topOfBook "POLYMARKET:11" := by
  have hrun : (run (System.step sampleConfig) (init (1 / 5) 2) straySteps).any (fun p =>
      p.betweenMessages && decide (p.topOfBook "POLYMARKET:11" ≠ none) &&
        decide (p.book.registry "POLYMARKET:11" = none) &&
        (run (System.step sampleConfig) p leftoverSteps).any fun q =>
          decide (q.topOfBook "POLYMARKET:11" = p.topOfBook "POLYMARKET:11") &&
          decide (q.executionRx.length < executionCapacity) && q.comms.pc.sending.isSome) =
        true := by decide +kernel
  obtain ⟨p, hp, hcheck⟩ := (Option.any_eq_true _ _).mp hrun
  simp only [Bool.and_eq_true, decide_eq_true_eq, Option.any_eq_true] at hcheck
  obtain ⟨⟨⟨hbetween, htop⟩, hreg⟩, q, hq, ⟨hsame, hroom⟩, hsends⟩ := hcheck
  obtain ⟨req, hreq⟩ := Option.isSome_iff_exists.mp hsends
  have hsend := CommsPc.sending_eq_some.mp hreq
  exact ⟨p, q, req, hp, hbetween, htop, hreg, hq, ⟨hsend, hroom⟩, hsame⟩

end System

end Degenerate.Picker
