import Degenerate.Picker.CommsTask
import Degenerate.Picker.TwoIndexSync

/-!
# Arithmetic on Timestamps

The timestamps of messages and order books are any `i64` that the venues write, and the comms
task computes with them unchecked: it turns the seconds of Kalshi into milliseconds, and
`on_price_update` subtracts the new, the stored and the local time from each other.  The
results stay in `i64` exactly as long as the seconds fit in milliseconds and the times that
meet are not too far apart.  Times that are not negative are close enough.

## Main Results

- `results_inI64_iff`: the runs in which no computation leaves `i64`
- `results_inI64_of_nonneg`: runs in which all times are at most what the type can hold, and
  none is negative
- `ticker_overflows`: one message suffices
-/

namespace Degenerate.Picker

open Degenerate.Lib

/-! ## §1 What a step computes -/

/-- The differences that `on_price_update` computes, exactly. -/
def updateResults (existing : Option TopOfBook) (tob : TopOfBook) (nowMs : ℤ) : List ℤ :=
  match existing with
  | none => []
  | some existing =>
      if tob.tobTimestampMs ≤ existing.tobTimestampMs then
        [existing.tobTimestampMs - tob.tobTimestampMs]
      else [tob.tobTimestampMs - existing.tobTimestampMs, nowMs - tob.tobTimestampMs]

/-- The product of a ticker update, computed if its market is watched and its prices parse. -/
def tickerResults (b : Book) (t : TickerUpdate) : List ℤ :=
  if (b.registry (makeMarketKey t.marketTicker .kalshi)).isNone then []
  else ((tickerTop t).map fun _ => t.ts * 1000).toList

/-- The products of a `close_date_updated` event at one watcher: one for each leg on the
    market. -/
def closeResults (b : Book) (key : MarketKey) (cid : CorrelationId) (closeTs : Option ℤ) :
    List ℤ :=
  match b.records cid, closeTs with
  | some w, some ts => (w.legs.filter (·.marketKey = key)).map fun _ => ts * 1000
  | _, _ => []

namespace System

/-- The results of the `i64` operations on timestamps in a step, before they are wrapped. -/
def i64Results (p : System) : Action → List ℤ
  | .receive (.kalshi (.tickerUpdate t)) => tickerResults p.book t
  | .comms c =>
      match p.comms.pc, p.comms.todo with
      | .next, .onPriceUpdate key tob :: _ => updateResults (p.topOfBook key) tob c.utcNow
      | .next, .updateCloseTime key cid closeTs :: _ => closeResults p.book key cid closeTs
      | _, _ => []
  | _ => []

end System

/-! ## §2 When the results fit -/

/-- The seconds fit in milliseconds. -/
def FitsMillis (secs : ℤ) : Prop := -9223372036854775 ≤ secs ∧ secs ≤ 9223372036854775

/-- The stored, the new and the local time are close enough to be subtracted. -/
def UpdateFits (existing : Option TopOfBook) (tob : TopOfBook) (nowMs : ℤ) : Prop :=
  ∀ e, existing = some e →
    e.tobTimestampMs - 2 ^ 63 < tob.tobTimestampMs ∧
    tob.tobTimestampMs < e.tobTimestampMs + 2 ^ 63 ∧
    (e.tobTimestampMs < tob.tobTimestampMs →
      nowMs - 2 ^ 63 < tob.tobTimestampMs ∧ tob.tobTimestampMs ≤ nowMs + 2 ^ 63)

/-- A ticker update that is stored has seconds that fit. -/
def TickerFits (b : Book) (t : TickerUpdate) : Prop :=
  b.registry (makeMarketKey t.marketTicker .kalshi) ≠ none → tickerTop t ≠ none → FitsMillis t.ts

/-- A close time that a leg takes has seconds that fit. -/
def CloseFits (b : Book) (key : MarketKey) (cid : CorrelationId) (closeTs : Option ℤ) : Prop :=
  ∀ w, b.records cid = some w → key ∈ w.legKeys → ∀ ts, closeTs = some ts → FitsMillis ts

theorem fitsMillis_iff (secs : ℤ) : FitsMillis secs ↔ inI64 (secs * 1000) = true := by
  unfold FitsMillis inI64
  rw [Bool.and_eq_true, decide_eq_true_eq, decide_eq_true_eq]
  omega

theorem updateFits_iff (existing : Option TopOfBook) (tob : TopOfBook) (nowMs : ℤ) :
    UpdateFits existing tob nowMs ↔ ∀ n ∈ updateResults existing tob nowMs, inI64 n = true := by
  unfold UpdateFits updateResults
  cases existing with
  | none => simp
  | some e =>
    simp only [Option.some.injEq, forall_eq']
    split
    · simp only [List.forall_mem_singleton, inI64, Bool.and_eq_true, decide_eq_true_eq]
      omega
    · simp only [List.forall_mem_cons, List.not_mem_nil, false_implies, implies_true, and_true,
        inI64, Bool.and_eq_true, decide_eq_true_eq]
      omega

theorem tickerFits_iff (b : Book) (t : TickerUpdate) :
    TickerFits b t ↔ ∀ n ∈ tickerResults b t, inI64 n = true := by
  unfold TickerFits tickerResults
  cases b.registry (makeMarketKey t.marketTicker .kalshi) with
  | none => simp
  | some set =>
    cases tickerTop t with
    | none => simp
    | some tob => simp [fitsMillis_iff]

theorem closeFits_iff (b : Book) (key : MarketKey) (cid : CorrelationId) (closeTs : Option ℤ) :
    CloseFits b key cid closeTs ↔ ∀ n ∈ closeResults b key cid closeTs, inI64 n = true := by
  unfold CloseFits closeResults
  cases b.records cid with
  | none => simp
  | some w =>
    cases closeTs with
    | none => simp
    | some ts =>
      simp only [Option.some.injEq, forall_eq', ArbWatch.legKeys, List.mem_map, List.mem_filter,
        decide_eq_true_eq, and_imp, fitsMillis_iff, forall_exists_index]
      constructor
      · rintro h n leg hleg hkey rfl
        exact h leg hleg hkey
      · intro h leg hleg hkey
        exact h _ leg hleg hkey rfl

namespace System

/-- **The step computes within `i64`**: the seconds that it turns into milliseconds fit, and the
    times that `on_price_update` subtracts are close enough. -/
def StepFits (p : System) : Action → Prop
  | .receive (.kalshi (.tickerUpdate t)) => TickerFits p.book t
  | .comms c =>
      match p.comms.pc, p.comms.todo with
      | .next, .onPriceUpdate key tob :: _ => UpdateFits (p.topOfBook key) tob c.utcNow
      | .next, .updateCloseTime key cid closeTs :: _ => CloseFits p.book key cid closeTs
      | _, _ => True
  | _ => True

/-- One step. -/
theorem stepFits_iff (p : System) (a : Action) :
    p.StepFits a ↔ ∀ n ∈ p.i64Results a, inI64 n = true := by
  unfold StepFits i64Results
  split
  · apply tickerFits_iff
  · split
    · apply updateFits_iff
    · apply closeFits_iff
    · simp
  · simp

/-- **Arithmetic within `i64`.** In a run, no computation on timestamps leaves `i64` if and only
    if every step of the run computes on times that fit. -/
theorem results_inI64_iff (cfg : Config) (fraction minSize : ℚ) (as : List Action) :
    (∀ n ∈ trace i64Results (step cfg) (init fraction minSize) as, inI64 n = true) ↔
      Along (step cfg) (fun p a => (step cfg p a).isSome → p.StepFits a)
        (init fraction minSize) as := by
  rw [forall_mem_trace_iff]
  simp only [stepFits_iff]

/-- A ticker message with the largest timestamp, for a watched market, and its price update. -/
def overflowSteps : List Action :=
  confirmOffline (sampleArb "K" "11") "x" ++ [receiveTicker (2 ^ 63 - 1), commsWith ["x"]]

/-- **A ticker overflows.** The product leaves `i64`, and the price is stored with a time before
    the epoch. -/
theorem ticker_overflows :
    inI64 (2 ^ 63 - 1) = true ∧
    trace i64Results (step sampleConfig) (init (1 / 5) 2) overflowSteps = [(2 ^ 63 - 1) * 1000] ∧
    inI64 ((2 ^ 63 - 1) * 1000) = false ∧
    ((run (step sampleConfig) (init (1 / 5) 2) overflowSteps).bind
      (·.topOfBook "KALSHI:K")).map (·.tobTimestampMs) = some (-1000) := by
  refine ⟨by decide, by decide +kernel, by decide, by decide +kernel⟩

/-! ## §3 Times that are not negative -/

/-- A time in milliseconds, not before the epoch. -/
def IsMillis (ms : ℤ) : Prop := 0 ≤ ms ∧ ms < 2 ^ 63

/-- The times in an operation that is still to be done. -/
def TimesFit : CommsOp → Prop
  | .onPriceUpdate _ tob => IsMillis tob.tobTimestampMs
  | .marketLifecycle event => ∀ ts, event.closeTs = some ts → FitsMillis ts
  | .updateCloseTime _ _ closeTs => ∀ ts, closeTs = some ts → FitsMillis ts
  | _ => True

/-- The times that an action brings: those of the operations that a message asks for, the
    seconds of a ticker, the local clock and the order books. -/
def BringsTimes (p : System) : Action → Prop
  | .receive msg => (∀ op ∈ opsOf p.book msg, TimesFit op) ∧
      ∀ t, msg = .kalshi (.tickerUpdate t) → FitsMillis t.ts
  | .comms c => IsMillis c.utcNow ∧
      ∀ leg tob, seedTop c.http c.utcNow leg = some tob → IsMillis tob.tobTimestampMs
  | _ => True

/-- All times that are stored or on their way fit. -/
structure HoldsTimes (p : System) : Prop where
  todo : ∀ op ∈ p.comms.todo, TimesFit op
  topOfBook : ∀ key tob, p.topOfBook key = some tob → IsMillis tob.tobTimestampMs

theorem holdsTimes_init (fraction minSize : ℚ) : HoldsTimes (init fraction minSize) where
  todo op hop := absurd hop List.not_mem_nil
  topOfBook key tob h := by cases h

/-- What an event asks for carries its close time. -/
theorem timesFit_lifecycleOps {event : MarketLifecycle} {cid : CorrelationId} {op : CommsOp}
    (hevent : TimesFit (.marketLifecycle event)) (hop : op ∈ lifecycleOps event cid) :
    TimesFit op := by
  rcases mem_lifecycleOps hop with ⟨-, rfl⟩ | rfl
  · exact hevent
  · trivial

/-- An operation is replaced by operations whose times fit. -/
theorem timesFit_follows {cfg : Config} {c : Choice} {p q : System} {op : CommsOp}
    {rest ops : List CommsOp} (hop : TimesFit op) (hc : BringsTimes p (.comms c))
    (hpc : p.comms.pc = .next) (htodo : p.comms.todo = op :: rest) (hf : Follows p op ops)
    (htodo' : q.comms.todo = ops ++ rest) (h : System.step cfg p (.comms c) = some q) :
    ∀ op' ∈ ops, TimesFit op' := by
  cases hf with
  | lifecycle horder =>
    intro op' hop'
    obtain ⟨cid, -, hmem⟩ := List.mem_flatMap.mp hop'
    exact timesFit_lifecycleOps hop hmem
  | resolved horder =>
    intro op' hop'
    obtain ⟨cid, -, rfl⟩ := List.mem_map.mp hop'
    trivial
  | seeded hseed =>
    -- the seed that the step has read is the one that it brings
    rename_i leg _ _ tob
    simp only [System.step, commsStep, hpc, htodo, opStep] at h
    split at h
    · cases h
      have hlength := congrArg List.length htodo'
      simp [pop] at hlength
    · rename_i tob' hseed'
      cases h
      have hsame : CommsOp.onPriceUpdate leg.marketKey tob' = .onPriceUpdate leg.marketKey tob :=
        (List.cons.inj htodo').1
      intro op' hop'
      obtain rfl := List.mem_singleton.mp hop'
      rw [← hsame]
      exact hc.2 leg tob' hseed'
  | _ => simp [TimesFit]

/-- One step keeps all times within bounds. -/
theorem HoldsTimes.step {cfg : Config} {p q : System} {a : Action} (hp : HoldsTimes p)
    (ha : BringsTimes p a) (h : System.step cfg p a = some q) : HoldsTimes q := by
  have hrest : ∀ {op rest}, p.comms.todo = op :: rest → TimesFit op ∧ ∀ o ∈ rest, TimesFit o := by
    intro op rest htodo
    have hall := hp.todo
    rw [htodo] at hall
    exact List.forall_mem_cons.mp hall
  rcases step_owned_cases h with haside | ⟨msg, rfl, htodo, hcomms, -, htop⟩ |
    ⟨c, w, rfl, hpc, htodo, -, htop⟩ |
    ⟨c, key, tob, order, rest, rfl, hpc, htodo, -, -, htodo', -, htop⟩ |
    ⟨c, cid, rest, rfl, hpc, htodo, htodo', -, htop⟩ |
    ⟨c, key, cid, ts, rest, rfl, hpc, htodo, htodo', -, htop⟩ |
    ⟨c, op, rest, ops, rfl, hpc, htodo, hf, htodo', -, htop⟩
  · -- a step aside: no operation and no price is new
    constructor
    · rw [haside.owned.todo]
      exact hp.todo
    · rw [haside.owned.topOfBook]
      exact hp.topOfBook
  · -- a message: its operations carry the times that it brings
    exact ⟨by rw [hcomms]; exact ha.1, by rw [htop]; exact hp.topOfBook⟩
  · -- a registration: the seeds have no time yet
    refine ⟨?_, by rw [htop]; exact hp.topOfBook⟩
    rw [htodo, List.forall_mem_cons, List.forall_mem_cons]
    exact ⟨trivial, trivial, hp.todo⟩
  · -- a stored price has the time of its operation
    obtain ⟨htob, hrest'⟩ := hrest htodo
    refine ⟨?_, ?_⟩
    · rw [htodo', List.forall_mem_append]
      refine ⟨fun op hop => ?_, hrest'⟩
      obtain ⟨cid, -, rfl⟩ := List.mem_map.mp hop
      trivial
    · intro k t ht
      rw [htop] at ht
      rcases PMap.insert_eq_some.mp ht with ⟨rfl, rfl⟩ | ⟨-, hold⟩
      · exact htob
      · exact hp.topOfBook k t hold
  · -- prices that are erased
    refine ⟨by rw [htodo']; exact (hrest htodo).2, ?_⟩
    intro k t ht
    rw [htop, PMap.eraseAll_apply] at ht
    split at ht
    · cases ht
    · exact hp.topOfBook k t ht
  · exact ⟨by rw [htodo']; exact (hrest htodo).2, by rw [htop]; exact hp.topOfBook⟩
  · -- an operation that others follow
    refine ⟨?_, by rw [htop]; exact hp.topOfBook⟩
    obtain ⟨hop, hrest'⟩ := hrest htodo
    rw [htodo', List.forall_mem_append]
    exact ⟨timesFit_follows hop ha hpc htodo hf htodo' h, hrest'⟩

/-- Times that are stored or brought let the step compute within `i64`. -/
theorem HoldsTimes.stepFits {p : System} {a : Action} (hp : HoldsTimes p) (ha : BringsTimes p a) :
    p.StepFits a := by
  unfold StepFits
  split
  · rename_i t
    exact fun _ _ => ha.2 t rfl
  · rename_i c
    obtain ⟨hnow, -⟩ := ha
    split
    · -- the difference of two times between the bounds
      rename_i key tob rest hpc htodo
      have htob : IsMillis tob.tobTimestampMs := hp.todo (.onPriceUpdate key tob) (by simp [htodo])
      intro e he
      have hstored := hp.topOfBook key e he
      unfold IsMillis at hnow htob hstored
      omega
    · rename_i key cid closeTs rest hpc htodo
      intro w _ _
      exact hp.todo (.updateCloseTime key cid closeTs) (by simp [htodo])
    · trivial
  · trivial

/-- **Nonnegative times suffice.** If no time that a run brings is negative or beyond what the
    type can hold in milliseconds, no computation leaves `i64`. -/
theorem results_inI64_of_nonneg {cfg : Config} {fraction minSize : ℚ} {as : List Action}
    (h : Along (System.step cfg) BringsTimes (init fraction minSize) as) :
    ∀ n ∈ trace i64Results (System.step cfg) (init fraction minSize) as, inI64 n = true := by
  rw [forall_mem_trace_iff]
  refine along_of_invariant (I := HoldsTimes) (fun p a q hp ha hstep => hp.step ha hstep)
    (fun p a hp ha _ => ?_) (holdsTimes_init fraction minSize) h
  exact (stepFits_iff p a).mp (hp.stepFits ha)

end System

end Degenerate.Picker
