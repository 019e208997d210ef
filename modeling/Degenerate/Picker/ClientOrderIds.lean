import Degenerate.Picker.System

/-!
# Client Order Ids

Kalshi refuses an order whose `client_order_id` it has seen.  `make_fak_order` derives the
id of a buy order from the pair, the number of contracts and the limit price, and from
nothing else; `hedge_sell_order` draws a fresh one.

So two buy orders of a run have one id exactly when they agree in those three, which
they do when a pair is executed again at its price, and when both legs of a pair are on
Kalshi at one price.

## Main Results

- `clientOrderSeed_injective`
- `client_order_ids_nodup_iff`: over all runs of the executor
- `legs_share_client_order_id`
-/

namespace Degenerate.Picker

open Degenerate.Lib

/-! ## §1 The seed -/

/-- What the id of a buy order is derived from. -/
structure OrderKey where
  correlationId : CorrelationId
  count : ℕ
  limitPrice : Decimal
  deriving DecidableEq

/-- The seed of an order's id determines the pair, the count and the limit price with its
    decimal places. -/
theorem clientOrderSeed_injective :
    Function.Injective fun k : OrderKey =>
      clientOrderSeed k.correlationId k.count k.limitPrice := by
  rintro ⟨cid, n, price⟩ ⟨cid', n', price'⟩ h
  -- the last separator splits off the price, the one before it the count
  obtain ⟨hrest, hprice⟩ := (append_colon_inj price.colon_notMem_display
    price'.colon_notMem_display).mp h
  obtain ⟨hcid, hn⟩ := (append_colon_inj (colon_notMem_toString n) (colon_notMem_toString n')).mp
    hrest
  simp only at hcid
  rw [hcid, toString_nat_injective hn, Decimal.display_injective hprice]

/-! ## §2 The Kalshi buy orders of a run -/

/-- A buy order that reached Kalshi, with the pair and the limit price it was made for. -/
structure KalshiBuy where
  correlationId : CorrelationId
  limitPrice : Decimal
  request : CreateOrderRequest

/-- What the order's id is derived from. -/
def KalshiBuy.key (b : KalshiBuy) : OrderKey :=
  ⟨b.correlationId, b.request.count.getD 0, b.limitPrice⟩

/-- The Kalshi buy order of an effect. -/
def ExecEffect.kalshiBuy (cid : CorrelationId) : ExecEffect → Option KalshiBuy
  | .makeFakOrder buy =>
      match buy.order.sent with
      | some (.kalshi request) => some ⟨cid, buy.price, request⟩
      | _ => none
  | _ => none

theorem ExecEffect.kalshiBuy_of_buys {cid : CorrelationId} {e : ExecEffect} (h : e.buys = none) :
    e.kalshiBuy cid = none := by
  cases e with
  | makeFakOrder buy => cases h
  | _ => rfl

/-- The Kalshi buy order of a step of the executor. -/
def kalshiBuys (x : Executor) : ExecAction → List KalshiBuy
  | .effect =>
      match x.pc with
      | .handling cid (e :: _) => (e.kalshiBuy cid).toList
      | _ => []
  | _ => []

/-- The order carries the id that is derived from its key. -/
def Derived (cfg : Config) (b : KalshiBuy) : Prop :=
  b.request.clientOrderId = some (cfg.generateUuidV5
    (clientOrderSeed b.key.correlationId b.key.count b.key.limitPrice))

/-- The Kalshi buy orders that are still to come are derived. -/
def DerivesIds (cfg : Config) (x : Executor) : Prop :=
  ∀ cid effects, x.pc = .handling cid effects → ∀ e ∈ effects, ∀ b ∈ e.kalshiBuy cid, Derived cfg b

/-- An order of `make_fak_order` for the pair is derived. -/
theorem derived_buyLeg {cfg : Config} {venue : OrderVenue} {cid : CorrelationId}
    {leg : ArbMinifiedInfo} {size : ℚ} {price : Decimal} {b : KalshiBuy}
    (h : b ∈ (ExecEffect.makeFakOrder (buyLeg cfg venue cid leg size price)).kalshiBuy cid) :
    Derived cfg b := by
  simp only [ExecEffect.kalshiBuy] at h
  split at h
  · rename_i request hsent
    cases h
    obtain ⟨n, -, -, hcount, hid⟩ := makeFakOrder_sent_kalshi hsent
    simp only [Derived, KalshiBuy.key, hid, hcount, Option.getD_some]
    rfl
  · cases h

/-- **One handling**: every buy order is made for the pair of the request. -/
theorem handle_derivesIds {cfg : Config} {bal : BalanceTracker} {ans : ExecAnswers}
    {req : ExecutionRequest} :
    ∀ e ∈ (handleExecutionRequest cfg bal ans req).effects,
      ∀ b ∈ e.kalshiBuy req.correlationId, Derived cfg b := by
  rcases handleExecutionRequest_cases cfg bal ans req with h | h | ⟨m, size, -, -, -, h⟩
  · rw [h]
    simp [ExecEffect.kalshiBuy]
  · rw [h]
    simp [ExecEffect.kalshiBuy]
  · rw [h]
    intro e he b hb
    simp only [placeOrders, List.mem_cons] at he
    rcases he with rfl | rfl | rfl | he
    · exact derived_buyLeg hb
    · exact derived_buyLeg hb
    · cases hb
    · -- no order is made after the fills
      have hnone := List.filterMap_eq_nil_iff.mp (afterFills_shape ans req _ _).2.2 e he
      rw [ExecEffect.kalshiBuy_of_buys hnone] at hb
      cases hb

theorem derivesIds_step {cfg : Config} {x x' : Executor} {a : ExecAction}
    (hi : DerivesIds cfg x) (h : x.step cfg a = some x') : DerivesIds cfg x' := by
  rcases Executor.step_cases h with ⟨req, ans, -, -, rfl⟩ | ⟨cid, e, rest, -, hpc, rfl⟩ |
    ⟨cid, -, -, rfl⟩ | ⟨f, -, -, rfl⟩
  · intro cid effects hpc
    cases hpc
    exact handle_derivesIds
  · intro cid' effects hpc' e' he'
    cases hpc'
    exact hi cid _ hpc e' (List.mem_cons_of_mem e he')
  · exact fun _ _ hpc => nomatch hpc
  · exact fun _ _ hpc => nomatch hpc

/-- The Kalshi buy orders of a run from the start of the executor. -/
def submittedBuys (cfg : Config) (tradeFraction minTradeSize : ℚ) (as : List ExecAction) :
    List KalshiBuy :=
  trace kalshiBuys (Executor.step cfg) (Executor.init tradeFraction minTradeSize) as

theorem submittedBuys_derived {cfg : Config} {fraction minSize : ℚ} {as : List ExecAction} :
    ∀ b ∈ submittedBuys cfg fraction minSize as, Derived cfg b := by
  refine forall_mem_trace (I := DerivesIds cfg) (fun _ _ _ hi h => derivesIds_step hi h)
    (fun x a hi b hb => ?_) fun _ _ h => nomatch h
  unfold kalshiBuys at hb
  split at hb
  · split at hb
    · rename_i cid e rest hpc
      exact hi cid _ hpc e (List.mem_cons_self ..) b (by simpa using hb)
    · cases hb
  · cases hb

/-- **Client order ids are unique** in a run exactly when no two of its Kalshi buy orders agree
    in the pair, the number of contracts and the limit price. -/
theorem client_order_ids_nodup_iff {cfg : Config} (hu : Function.Injective cfg.generateUuidV5)
    (fraction minSize : ℚ) (as : List ExecAction) :
    ((submittedBuys cfg fraction minSize as).map (·.request.clientOrderId)).Nodup ↔
      ((submittedBuys cfg fraction minSize as).map KalshiBuy.key).Nodup := by
  have hids : (submittedBuys cfg fraction minSize as).map (·.request.clientOrderId) =
      ((submittedBuys cfg fraction minSize as).map KalshiBuy.key).map fun k =>
        some (cfg.generateUuidV5 (clientOrderSeed k.correlationId k.count k.limitPrice)) := by
    rw [List.map_map]
    exact List.map_congr_left fun b hb => submittedBuys_derived b hb
  -- the hash and the seed are injective, so ids repeat where keys do
  rw [hids]
  exact List.nodup_map_iff ((Option.some_injective _).comp (hu.comp clientOrderSeed_injective))

/-- One execution of a request, up to its two orders. -/
def orderSteps (req : ExecutionRequest) : List ExecAction :=
  [.refresh ⟨some 100000, some 1000⟩, .receive req silentAnswers, .effect, .effect]

/-- A request for two Kalshi tickers at the given prices. -/
def twoTickersAt (anchorPrice matchPrice : Decimal) : ExecutionRequest :=
  { sampleRequest with
    «match» := watchLeg .kalshi "L"
    anchorWsPrice := anchorPrice
    matchWsPrice := matchPrice }

/-- Two Kalshi legs at different prices get different ids. -/
theorem client_order_ids_sample :
    (submittedBuys sampleConfig (1 / 5) 2 (orderSteps (twoTickersAt ⟨40, 2⟩ ⟨45, 2⟩))).length = 2 ∧
      ((submittedBuys sampleConfig (1 / 5) 2 (orderSteps (twoTickersAt ⟨40, 2⟩ ⟨45, 2⟩))).map
        (·.request.clientOrderId)).Nodup := by
  refine ⟨by decide +kernel, (client_order_ids_nodup_iff Function.injective_id _ _ _).mpr ?_⟩
  decide +kernel

/-- **Two orders with one id**: both legs of a pair are on Kalshi, at one price. -/
theorem legs_share_client_order_id :
    Function.Injective sampleConfig.generateUuidV5 ∧
      (submittedBuys sampleConfig (1 / 5) 2 (orderSteps (twoTickersAt ⟨40, 2⟩ ⟨40, 2⟩))).map
        (·.request.ticker) = ["K", "L"] ∧
      ¬ ((submittedBuys sampleConfig (1 / 5) 2 (orderSteps (twoTickersAt ⟨40, 2⟩ ⟨40, 2⟩))).map
        (·.request.clientOrderId)).Nodup :=
  ⟨Function.injective_id, by decide +kernel, by decide +kernel⟩

end Degenerate.Picker
