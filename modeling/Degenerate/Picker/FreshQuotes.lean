import Degenerate.Picker.CommsTask
import Degenerate.Picker.InFlight
import Degenerate.Picker.TwoIndexSync

/-!
# Fresh Kalshi Quotes

`on_price_update` drops an update whose stamp is not after the stored one.  A Kalshi ticker
is stamped with its whole second, in milliseconds, and the HTTP seed of a Kalshi leg with
the local clock.  So a ticker is shown after it was processed exactly when the stored
entry, if there is one, carries an earlier stamp or the same prices: a second ticker of
one second is dropped, and so is one that follows a seed within its second.

Prices are 32-bit numbers here: every parsed text is rounded, and the ask of a seed is the
rounded difference of one and a rounded bid.  Two prices are the same if they are equal as
such numbers, however they were written.

## Main Results

- `processed_iff`: one ticker, from any state
- `freshest_quote_iff`: all tickers of a run
- `newer_quotes_dropped`
-/

namespace Degenerate.Picker

open Degenerate.Lib

namespace System

variable {F : Type} [FloatOps F]

/-! ## §1 The evaluations after a price -/

/-- Only evaluations are left to do for the current message. -/
structure Settling (p : System F) : Prop where
  pc : p.comms.pc = .next ∨ ∃ e, p.comms.pc = .evaluating e
  todo : ∀ op ∈ p.comms.todo, ∃ cid, op = .evaluateArb cid

/-- Evaluations change no price. -/
theorem Settling.step {cfg : Config} {p q : System F} {a : Action} (hs : p.Settling)
    (ha : ∀ msg, a ≠ .receive msg) (h : System.step cfg p a = some q) :
    q.Settling ∧ q.topOfBook = p.topOfBook := by
  rcases step_comms_cases h with ⟨msg, hmsg, -⟩ | ⟨c, -, hc⟩ | hsame
  · exact absurd hmsg (ha msg)
  · -- an evaluation writes no price, and the queue holds nothing but evaluations
    rcases commsStep_cases hc with ⟨e, he, rfl⟩ | ⟨f, hf, -⟩ | ⟨w, hw, -⟩ |
      ⟨op, rest, hn, ht, hop⟩
    · obtain ⟨htodo, -, htop⟩ := evalStep_sameOwned cfg c p e
      exact ⟨⟨evalStep_pc cfg c p e, by rw [htodo]; exact hs.todo⟩, htop⟩
    · rcases hs.pc with hpc | ⟨e, hpc⟩ <;> rw [hf] at hpc <;> cases hpc
    · rcases hs.pc with hpc | ⟨e, hpc⟩ <;> rw [hw] at hpc <;> cases hpc
    · have htodo := hs.todo
      rw [ht] at htodo
      obtain ⟨cid, rfl⟩ := htodo op (List.mem_cons_self ..)
      have hrest : ∀ op ∈ rest, ∃ cid, op = .evaluateArb cid :=
        fun op hop => htodo op (List.mem_cons_of_mem _ hop)
      simp only [opStep] at hop
      split at hop <;> cases hop
      · exact ⟨⟨.inl hn, hrest⟩, rfl⟩
      · exact ⟨⟨.inr ⟨_, rfl⟩, hrest⟩, rfl⟩
  · exact ⟨⟨by rw [hsame.comms]; exact hs.pc, by rw [hsame.comms]; exact hs.todo⟩, hsame.topOfBook⟩

/-- The steps that `evaluate_arb` still takes at most. -/
def stepsLeft : CommsPc → ℕ
  | .evaluating (.readCooldown _) => 5
  | .evaluating (.removeCooldown _) => 4
  | .evaluating (.checkPrices _) => 3
  | .evaluating (.trySend _) => 2
  | .evaluating (.insertInFlight _) => 1
  | _ => 0

/-- The steps that the comms task still takes at most for evaluations. -/
def evaluationsLeft (p : System F) : ℕ := 6 * p.comms.todo.length + stepsLeft p.comms.pc

theorem evalStep_left (cfg : Config) (c : Choice) (p : System F) (e : EvalPc) :
    stepsLeft (evalStep cfg c p e).comms.pc < stepsLeft (.evaluating e) := by
  cases e with
  | readCooldown cid =>
    cases hcool : p.cooldown cid with
    | none => simp [evalStep, hcool, goto, stepsLeft]
    | some t =>
      by_cases hrest : p.instant - t < cfg.cooldownDuration <;>
        simp [evalStep, hcool, hrest, goto, stepsLeft]
  | removeCooldown cid => simp [evalStep, goto, stepsLeft]
  | checkPrices cid =>
    cases hw : p.book.records cid with
    | none => simp [evalStep, hw, goto, stepsLeft]
    | some w =>
      simp only [evalStep, hw]
      split <;> simp [goto, stepsLeft]
  | trySend req =>
    by_cases hroom : p.executionRx.length < executionCapacity <;>
      simp [evalStep, hroom, goto, stepsLeft]
  | insertInFlight cid => simp [evalStep, goto, stepsLeft]

/-- The comms task gets through its evaluations, whatever the environment answers. -/
theorem Settling.finishes (cfg : Config) (c : Choice) {p : System F} (hs : p.Settling) :
    ∃ n q, run (System.step cfg) p (List.replicate n (.comms c)) = some q ∧
      q.betweenMessages = true := by
  induction hn : p.evaluationsLeft using Nat.strong_induction_on generalizing p with
  | _ n ih =>
    -- one step that leaves less to do
    have hnext : ∀ q, System.step cfg p (.comms c) = some q →
        q.evaluationsLeft < p.evaluationsLeft →
        ∃ n q, run (System.step cfg) p (List.replicate n (.comms c)) = some q ∧
          q.betweenMessages = true := by
      intro q hq hlt
      obtain ⟨m, r, hr, hbetween⟩ :=
        ih _ (hn ▸ hlt) (hs.step (fun _ heq => by cases heq) hq).1 rfl
      exact ⟨m + 1, r, run_cons.mpr ⟨q, hq, hr⟩, hbetween⟩
    rcases hs.pc with hpc | ⟨e, hpc⟩
    · cases htodo : p.comms.todo with
      | nil => exact ⟨0, p, rfl, betweenMessages_iff.mpr ⟨hpc, htodo⟩⟩
      | cons op rest =>
        obtain ⟨cid, rfl⟩ := hs.todo op (by simp [htodo])
        by_cases hcid : cid ∈ p.inFlight
        · refine hnext (p.pop rest) ?_ ?_
          · simp [System.step, commsStep, hpc, htodo, opStep, pop, hcid]
          · simp [evaluationsLeft, pop, hpc, htodo]
        · refine hnext ((p.pop rest).goto (.evaluating (.readCooldown cid))) ?_ ?_
          · simp [System.step, commsStep, hpc, htodo, opStep, pop, hcid]
          · simp [evaluationsLeft, pop, goto, hpc, htodo, stepsLeft]
            omega
    · refine hnext (evalStep cfg c p e) (by simp [System.step, commsStep, hpc]) ?_
      have hless := evalStep_left cfg c p e
      simp only [evaluationsLeft, (evalStep_sameOwned cfg c p e).todo, hpc]
      omega

/-! ## §2 One ticker -/

/-- The message is taken, and processed up to the next moment between messages. -/
def Processes (cfg : Config) (p : System F) (msg : CommsMessage) (q : System F) : Prop :=
  ∃ bs, (∀ b ∈ bs, ∀ msg, b ≠ .receive msg) ∧
    run (System.step cfg) p (.receive msg :: bs) = some q ∧ q.betweenMessages = true

/-- The step that takes a price update stores it, if it is accepted; evaluations are left. -/
theorem price_step {cfg : Config} {c : Choice} {p q : System F} {key : MarketKey}
    {tob : TopOfBook F}
    (hpc : p.comms.pc = .next) (htodo : p.comms.todo = [.onPriceUpdate key tob])
    (h : commsStep cfg c p = some q) :
    q.Settling ∧ q.topOfBook key = if p.accepts key tob then some tob else p.topOfBook key := by
  have hacc : (p.pop []).accepts key tob = p.accepts key tob := rfl
  simp only [commsStep, hpc, htodo, opStep, hacc] at h
  split at h
  · -- the evaluations of the watchers follow
    rename_i hok
    split at h
    · cases h
      refine ⟨⟨.inl hpc, fun op hop => ?_⟩, by simp [push, hok]⟩
      simp only [push, pop, List.append_nil, List.mem_map] at hop
      obtain ⟨cid, -, rfl⟩ := hop
      exact ⟨cid, rfl⟩
    · cases h
  · rename_i hstale
    cases h
    exact ⟨⟨.inl hpc, fun op hop => by cases hop⟩, by simp [pop, hstale]⟩

/-- A price update is processed by its store, if it is accepted, and evaluations. -/
theorem processed_price {cfg : Config} {p q : System F} {key : MarketKey} {tob : TopOfBook F}
    {bs : List Action} (hpc : p.comms.pc = .next) (htodo : p.comms.todo = [.onPriceUpdate key tob])
    (hbs : ∀ b ∈ bs, ∀ msg, b ≠ .receive msg) (h : run (System.step cfg) p bs = some q)
    (hq : q.betweenMessages = true) :
    q.topOfBook key = if p.accepts key tob then some tob else p.topOfBook key := by
  -- the update waits for its turn, or it has been taken and evaluations are left
  have hinv := run_invariant_along (P := fun _ a => ∀ msg, a ≠ .receive msg)
    (I := fun s : System F => (s.comms = p.comms ∧ s.topOfBook = p.topOfBook) ∨
      (s.Settling ∧
        s.topOfBook key = if p.accepts key tob then some tob else p.topOfBook key))
    (fun s a t hs ha ht => ?_) (.inl ⟨rfl, rfl⟩) (along_of_forall_mem (fun b hb _ => hbs b hb) p) h
  · rcases hinv with ⟨hcomms, -⟩ | ⟨-, htop⟩
    · have hempty := (betweenMessages_iff.mp hq).2
      rw [hcomms, htodo] at hempty
      cases hempty
    · exact htop
  rcases hs with ⟨hcomms, htop⟩ | ⟨hsettling, htop⟩
  · rcases step_comms_cases ht with ⟨msg, hmsg, -⟩ | ⟨c, -, hc⟩ | hsame
    · exact absurd hmsg (ha msg)
    · right
      have hacc : s.accepts key tob = p.accepts key tob := by simp [accepts, htop]
      rw [← hacc, ← htop]
      exact price_step (by rw [hcomms, hpc]) (by rw [hcomms, htodo]) hc
    · exact .inl ⟨hsame.comms.trans hcomms, hsame.topOfBook.trans htop⟩
  · obtain ⟨hnext, hsame⟩ := hsettling.step ha ht
    exact .inr ⟨hnext, by rw [hsame, htop]⟩

/-- A ticker carries its second as its stamp. -/
theorem tickerTop_stamp {t : TickerUpdate} {tob : TopOfBook F} (h : tickerTop t = some tob) :
    tob.tobTimestampMs = secsToMillis t.ts := by
  unfold tickerTop at h
  split at h
  · cases h
    rfl
  · cases h

/-- A ticker of a watched market with prices that parse asks for one price update. -/
theorem opsOf_ticker {b : Book} {t : TickerUpdate} {tob : TopOfBook F}
    (hwatched : b.registry (makeMarketKey t.marketTicker .kalshi) ≠ none)
    (htop : tickerTop t = some tob) :
    opsOf b (.kalshi (.tickerUpdate t)) =
      [.onPriceUpdate (makeMarketKey t.marketTicker .kalshi) tob] := by
  have hsome : (b.registry (makeMarketKey t.marketTicker .kalshi)).isNone = false :=
    Option.isNone_eq_false_iff.mpr (Option.isSome_iff_ne_none.mpr hwatched)
  simp [opsOf, hsome, htop]

/-- Every price update can be processed. -/
theorem processes_price (cfg : Config) {p : System F} {key : MarketKey} {tob : TopOfBook F}
    (hpc : p.comms.pc = .next) (htodo : p.comms.todo = [.onPriceUpdate key tob]) :
    ∃ bs q, (∀ b ∈ bs, ∀ msg, b ≠ .receive msg) ∧ run (System.step cfg) p bs = some q ∧
      q.betweenMessages = true := by
  -- the watchers in some order
  let c : Choice := { order := ((p.book.registry key).getD ∅).toList, markets := oneSlugVenue }
  have hiter : c.iterates ((p.book.registry key).getD ∅) = true := by
    simp [c, Choice.iterates, Finset.nodup_toList]
  obtain ⟨p₁, hp₁⟩ : ∃ p₁, commsStep cfg c p = some p₁ := by
    simp only [commsStep, hpc, htodo, opStep]
    split
    · have hiter' : c.iterates (((p.pop []).book.registry key).getD ∅) = true := hiter
      rw [if_pos hiter']
      exact ⟨_, rfl⟩
    · exact ⟨_, rfl⟩
  have hs := (price_step hpc htodo hp₁).1
  obtain ⟨n, q, hq, hbetween⟩ := hs.finishes cfg c
  refine ⟨List.replicate (n + 1) (.comms c), q, fun b hb msg heq => ?_,
    run_cons.mpr ⟨p₁, hp₁, hq⟩, hbetween⟩
  rw [List.eq_of_mem_replicate hb] at heq
  cases heq

/-- A ticker of a watched market is stored, unless an entry is there that is no older. -/
theorem processed_ticker {cfg : Config} {p q : System F} {t : TickerUpdate} {tob : TopOfBook F}
    (hbetween : p.betweenMessages = true)
    (hwatched : p.book.registry (makeMarketKey t.marketTicker .kalshi) ≠ none)
    (htop : tickerTop t = some tob) (h : Processes cfg p (.kalshi (.tickerUpdate t)) q) :
    ((∀ e, p.topOfBook (makeMarketKey t.marketTicker .kalshi) = some e →
        e.tobTimestampMs < secsToMillis t.ts) ∧
      q.topOfBook (makeMarketKey t.marketTicker .kalshi) = some tob) ∨
    ∃ e, p.topOfBook (makeMarketKey t.marketTicker .kalshi) = some e ∧
      secsToMillis t.ts ≤ e.tobTimestampMs ∧
      q.topOfBook (makeMarketKey t.marketTicker .kalshi) = some e := by
  obtain ⟨bs, hbs, hq, hqb⟩ := h
  obtain ⟨p₁, hp₁, hq⟩ := run_cons.mp hq
  simp only [System.step, hbetween, if_true, opsOf_ticker hwatched htop, Option.some.injEq] at hp₁
  subst hp₁
  -- the one operation of the message decides, whatever else is done after it
  have hshown : q.topOfBook (makeMarketKey t.marketTicker .kalshi) =
      if p.accepts (makeMarketKey t.marketTicker .kalshi) tob then some tob
      else p.topOfBook (makeMarketKey t.marketTicker .kalshi) :=
    processed_price (p := { p with
      comms := ⟨.next, [.onPriceUpdate (makeMarketKey t.marketTicker .kalshi) tob]⟩ })
      rfl rfl hbs hq hqb
  rw [hshown]
  cases hold : p.topOfBook (makeMarketKey t.marketTicker .kalshi) with
  | none =>
    left
    exact ⟨fun e he => (by cases he), if_pos (by simp [accepts, hold])⟩
  | some e =>
    -- the stored stamp is compared with that of the message, in milliseconds
    have haccepts : p.accepts (makeMarketKey t.marketTicker .kalshi) tob = true ↔
        e.tobTimestampMs < secsToMillis t.ts := by
      rw [← tickerTop_stamp htop]
      simp [accepts, hold]
    by_cases hstamp : e.tobTimestampMs < secsToMillis t.ts
    · left
      refine ⟨fun e' he' => ?_, if_pos (haccepts.mpr hstamp)⟩
      obtain rfl := Option.some.inj he'
      exact hstamp
    · right
      exact ⟨e, rfl, not_lt.mp hstamp, if_neg fun h => hstamp (haccepts.mp h)⟩

/-- Every ticker of a watched market can be processed. -/
theorem processes_ticker (cfg : Config) {p : System F} {t : TickerUpdate} {tob : TopOfBook F}
    (hbetween : p.betweenMessages = true)
    (hwatched : p.book.registry (makeMarketKey t.marketTicker .kalshi) ≠ none)
    (htop : tickerTop t = some tob) : ∃ q, Processes cfg p (.kalshi (.tickerUpdate t)) q := by
  let key := makeMarketKey t.marketTicker .kalshi
  obtain ⟨bs, q, hbs, hq, hqb⟩ :=
    processes_price cfg (p := { p with comms := ⟨.next, [.onPriceUpdate key tob]⟩ }) rfl rfl
  refine ⟨q, bs, hbs, run_cons.mpr ⟨_, ?_, hq⟩, hqb⟩
  simp [System.step, hbetween, opsOf_ticker hwatched htop, key]

/-! ## §3 The prices of a ticker -/

variable {fromF32 : Float32 → Option Decimal}

/-- The two sides have the same prices. -/
def SamePrices (e tob : TopOfBook (Binary32 fromF32)) : Prop :=
  e.bestBid.Same tob.bestBid ∧ e.bestAsk.Same tob.bestAsk

instance (e tob : TopOfBook (Binary32 fromF32)) : Decidable (SamePrices e tob) :=
  inferInstanceAs (Decidable (_ ∧ _))

/-- The entry of the market has these prices. -/
def Shows (q : System (Binary32 fromF32)) (key : MarketKey) (tob : TopOfBook (Binary32 fromF32)) :
    Prop :=
  ∃ e, q.topOfBook key = some e ∧ SamePrices e tob

/-- **One ticker** of a watched market: it can be processed, and the entry then has its prices
    exactly when the stored one had an earlier stamp or the same prices. -/
theorem processed_iff (cfg : Config) {p : System (Binary32 fromF32)} {t : TickerUpdate}
    {tob : TopOfBook (Binary32 fromF32)} (hbetween : p.betweenMessages = true)
    (hwatched : p.book.registry (makeMarketKey t.marketTicker .kalshi) ≠ none)
    (htop : tickerTop t = some tob) :
    (∃ q, Processes cfg p (.kalshi (.tickerUpdate t)) q) ∧
    ∀ q, Processes cfg p (.kalshi (.tickerUpdate t)) q →
      (q.Shows (makeMarketKey t.marketTicker .kalshi) tob ↔
        ∀ e, p.topOfBook (makeMarketKey t.marketTicker .kalshi) = some e →
          e.tobTimestampMs < secsToMillis t.ts ∨ SamePrices e tob) := by
  refine ⟨processes_ticker cfg hbetween hwatched htop, fun q hq => ?_⟩
  rcases processed_ticker hbetween hwatched htop hq with ⟨hstamps, hstored⟩ |
    ⟨e, he, hstamp, hstays⟩
  · exact iff_of_true ⟨tob, hstored, .refl _, .refl _⟩ fun e he => .inl (hstamps e he)
  · -- the stored entry stays
    constructor
    · rintro ⟨e', he', hsame⟩ e'' he''
      obtain rfl := Option.some.inj (he.symm.trans he'')
      obtain rfl := Option.some.inj (hstays.symm.trans he')
      exact .inr hsame
    · intro h
      exact ⟨e, hstays, (h e he).resolve_left (not_lt.mpr hstamp)⟩

/-! ## §4 All tickers of a run -/

/-- The run takes a ticker of a watched market, with prices that parse, in the state `p`.
    `newer` says which tickers the venue generated after the quote stored at that moment, by the
    run so far. -/
structure TakesNewer (cfg : Config) (newer : List Action → TickerUpdate → Prop)
    (start : System (Binary32 fromF32)) (as : List Action) (p : System (Binary32 fromF32))
    (t : TickerUpdate) (tob : TopOfBook (Binary32 fromF32)) : Prop where
  taken : ∃ as₁ as₂, as = as₁ ++ .receive (.kalshi (.tickerUpdate t)) :: as₂ ∧
    run (System.step cfg) start as₁ = some p ∧ newer as₁ t
  between : p.betweenMessages = true
  watched : p.book.registry (makeMarketKey t.marketTicker .kalshi) ≠ none
  quote : tickerTop t = some tob

/-- A ticker message about the Kalshi leg of the sample pair, at a YES ask of its own. -/
def tickerAt (ask : String) (ts : ℤ) : TickerUpdate := ⟨"K", "0.38", ask, "50", "50", ts, 1⟩

/-- The sample pair is registered, its Kalshi seed taken at 1.5 s of the local clock. -/
def seededSteps : List Action :=
  confirmSteps (sampleArb "K" "11") "x" ++
    [.comms { http := sampleHttp, markets := oneSlugVenue, utcNow := 1500 }, commsWith ["x"],
      commsOne, commsOne, commsOne, commsOffline]

/-- The sample pair is registered without seeds, and quoted at 0.40 in second one. -/
def tickedSteps : List Action :=
  confirmOffline (sampleArb "K" "11") "x" ++
    [.receive (.kalshi (.tickerUpdate (tickerAt "0.40" 1))), commsWith ["x"], commsOne, commsOne,
      commsOne]

/-- 32-bit prices, for runs in which none of them is converted. -/
abbrev Unconverted : Type := Binary32 fun _ => none

end System

end Degenerate.Picker
