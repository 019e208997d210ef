import Degenerate.Picker.Balances
import Degenerate.Picker.Orders

/-!
# The Executor

`PickerExec`: one request after another is taken from the channel and handled, and
after each one the balances are fetched anew.

`handle_execution_request` reads no state that another task writes: its prices come
from the request or from HTTP, its balances are its own.  So the whole handling is
fixed by the request, the balances at its start and the answers of the venues, and
`handleExecutionRequest` computes the list of its *effects* in order.  Effects on
shared state (the in-flight set, the cooldown map, the gRPC channel) take place one
at a time, between steps of other tasks.

## Layout

- §1 messages to the server
- §2 `handle_execution_request`
- §3 the executor as a transition system
- §4 what every handling does: one release, no order after it
-/

namespace Degenerate.Picker

open Degenerate.Lib

/-! ## §1 Messages to the server -/

/-- `OrderMade`. -/
structure OrderMade where
  anchorCost : ℚ
  matchCost : ℚ
  anchorFill : ℚ
  matchFill : ℚ
  excessFill : ℚ := 0
  anchorOrderId : String
  matchOrderId : String
  arbCorrelationId : CorrelationId
  deriving DecidableEq

/-- `ExcessFillOrderMade`. -/
structure ExcessFillOrderMade where
  orderId : String
  platform : Platform
  excessFillSize : ℚ
  excessFillCost : ℚ
  deriving DecidableEq

/-- The actions of a `ClientEbo` that the picker sends. -/
inductive ClientAction where
  | crossPlatformArb (arb : Arb)
  | deleteRunningArbs (correlationIds : List CorrelationId)
  | orderSubmitted (order : OrderMade)
  | excessFillSubmitted (order : ExcessFillOrderMade)
  deriving DecidableEq

/-- `ClientEbo`. -/
structure ClientEbo where
  correlationId : CorrelationId := ""
  actionAt : ℤ := 0
  action : ClientAction
  deriving DecidableEq

/-! ## §2 Handling a request -/

/-- What the tasks are configured with. -/
structure Config where
  /-- `generate_uuid_v5`. -/
  generateUuidV5 : String → String
  /-- Take prices from the request instead of fetching them. -/
  optimistic : Bool
  /-- Milliseconds for which an arb rests after a failed execution. -/
  cooldownDuration : ℕ

/-- What the environment answers during the handling of one request. -/
structure ExecAnswers where
  anchorHttp : HttpVenue
  matchHttp : HttpVenue
  anchorVenue : OrderVenue
  matchVenue : OrderVenue
  hedgeVenue : OrderVenue
  /-- `Uuid::new_v4` for the hedge order and for the messages. -/
  hedgeClientOrderId : String
  messageId : String
  /-- The clock at the two messages. -/
  orderActionAt : ℤ
  excessActionAt : ℤ
  /-- The gRPC channel is open. -/
  sendOk : Bool

/-- Price and size of both legs. -/
structure Metrics where
  anchorPrice : Decimal
  anchorSize : Decimal
  matchPrice : Decimal
  matchSize : Decimal
  deriving DecidableEq

/-- The mode split: prices of the request, or of the order books. -/
def executionMetrics (optimistic : Bool) (ans : ExecAnswers) (req : ExecutionRequest) :
    Except String Metrics :=
  if optimistic then
    .ok ⟨req.anchorWsPrice, req.anchorWsSize, req.matchWsPrice, req.matchWsSize⟩
  else
    match getExecutionMetricsFromHttp ans.anchorHttp req.anchor,
        getExecutionMetricsFromHttp ans.matchHttp req.match with
    | .ok a, .ok m => .ok ⟨a.1, a.2, m.1, m.2⟩
    | _, _ => .error "Failed to fetch HTTP execution metrics"

/-- The cost of one unit of both legs. -/
def Metrics.totalCost (m : Metrics) : ℚ := (m.anchorPrice + m.matchPrice).toRat

/-- The total cost is outside the band in which the trade is worth making. -/
def Metrics.outOfBand (m : Metrics) : Bool := m.totalCost ≤ 0 || 985 / 1000 < m.totalCost

/-- The execution size, if the balances allow one. -/
def Metrics.executionSize (bal : BalanceTracker) (m : Metrics) : Option ℚ :=
  bal.computeSize m.anchorPrice.toRat m.matchPrice.toRat
    (min m.anchorSize.toRat m.matchSize.toRat)

/-- A buy of one leg: its order, and what the venue reports as filled. -/
structure Buy where
  leg : ArbMinifiedInfo
  price : Decimal
  order : Placed Fill
  reported : ℚ

/-- An effect of the handler on the world outside it. -/
inductive ExecEffect where
  | makeFakOrder (buy : Buy)
  | deductFill (anchorPlatform : Platform) (anchorPrice : ℚ) (matchPlatform : Platform)
      (matchPrice : ℚ) (size : ℚ)
  | insertCooldown (cid : CorrelationId)
  | removeInFlight (cid : CorrelationId)
  | hedgeSellOrder (hedge : Placed Hedge)
  | send (ebo : ClientEbo)

/-- The effects of a handling in order, and its result. -/
structure Handled where
  effects : List ExecEffect
  result : Except String Unit

/-- The order of one leg. -/
def buyLeg (cfg : Config) (venue : OrderVenue) (cid : CorrelationId) (leg : ArbMinifiedInfo)
    (size : ℚ) (price : Decimal) : Buy :=
  let order := makeFakOrder cfg.generateUuidV5 venue leg size price cid
  { leg, price, order, reported := venueFill venue order.sent }

/-- The message about a submitted pair of orders. -/
def orderMade (req : ExecutionRequest) (anchor «match» : Buy) (excess : ℚ) : OrderMade where
  anchorCost := anchor.price.toRat
  matchCost := «match».price.toRat
  anchorFill := anchor.order.fill.1
  matchFill := «match».order.fill.1
  excessFill := excess
  anchorOrderId := anchor.order.fill.2.2
  matchOrderId := «match».order.fill.2.2
  arbCorrelationId := req.correlationId

/-- The hedge branch: sell the excess of the leg that filled more. -/
def hedgeEffects (ans : ExecAnswers) (excess : ℚ) (leg : Buy) : List ExecEffect :=
  let hedge := hedgeSellOrder ans.hedgeVenue ans.hedgeClientOrderId leg.leg excess
    (leg.price.toRat + 2 / 100)
  .hedgeSellOrder hedge ::
    match hedge.result with
    | .error _ => []
    | .ok r => [.send {
        correlationId := ans.messageId
        actionAt := ans.excessActionAt
        action := .excessFillSubmitted {
          orderId := r.1
          platform := r.2.1
          excessFillSize := r.2.2.1
          excessFillCost := r.2.2.2 } }]

/-- What follows once the orders of both legs are answered. -/
def afterFills (ans : ExecAnswers) (req : ExecutionRequest) (anchor «match» : Buy) : Handled :=
  let anchorFilled := anchor.order.fill.1
  let matchFilled := «match».order.fill.1
  let submitted (excess : ℚ) : ExecEffect := .send {
    correlationId := ans.messageId
    actionAt := ans.orderActionAt
    action := .orderSubmitted (orderMade req anchor «match» excess) }
  if anchorFilled = matchFilled then
    if anchorFilled = 0 then
      -- missed on both venues
      ⟨[.insertCooldown req.correlationId, .removeInFlight req.correlationId], .ok ()⟩
    else
      -- a perfect fill: the flag is released before the message goes out
      ⟨[.removeInFlight req.correlationId, submitted 0],
        if ans.sendOk then .ok () else .error "rror sending msg to gprc: ebo::OrderSubmitted"⟩
  else
    -- legged: the flag is held until the hedge has been answered
    let excess := |anchorFilled - matchFilled|
    let longer := if matchFilled < anchorFilled then anchor else «match»
    ⟨submitted excess :: hedgeEffects ans excess longer ++ [.removeInFlight req.correlationId],
      .ok ()⟩

/-- Both orders, and the deduction of what both filled. -/
def placeOrders (cfg : Config) (ans : ExecAnswers) (req : ExecutionRequest) (m : Metrics)
    (size : ℚ) : Handled :=
  let anchor := buyLeg cfg ans.anchorVenue req.correlationId req.anchor size m.anchorPrice
  let «match» := buyLeg cfg ans.matchVenue req.correlationId req.match size m.matchPrice
  let rest := afterFills ans req anchor «match»
  { rest with
    effects :=
      .makeFakOrder anchor :: .makeFakOrder «match» ::
      .deductFill req.anchor.platform m.anchorPrice.toRat req.match.platform m.matchPrice.toRat
        (min anchor.order.fill.1 «match».order.fill.1) :: rest.effects }

/-- `handle_execution_request`. -/
def handleExecutionRequest (cfg : Config) (bal : BalanceTracker) (ans : ExecAnswers)
    (req : ExecutionRequest) : Handled :=
  match executionMetrics cfg.optimistic ans req with
  -- HTTP mode only: a failed fetch of either leg
  | .error e => ⟨[.removeInFlight req.correlationId], .error e⟩
  | .ok m =>
      if m.outOfBand then
        -- only a price that is gone cools the pair down
        if 1 ≤ m.totalCost then
          ⟨[.insertCooldown req.correlationId, .removeInFlight req.correlationId], .ok ()⟩
        else ⟨[.removeInFlight req.correlationId], .ok ()⟩
      else
        match m.executionSize bal with
        | none => ⟨[.removeInFlight req.correlationId], .ok ()⟩
        | some size => placeOrders cfg ans req m size

/-! ## §3 The run loop -/

/-- Where the executor is. -/
inductive ExecPc where
  /-- in `refresh_and_set_balances`, at start-up and after every request -/
  | refreshing
  /-- waiting for a request -/
  | idle
  /-- in `handle_execution_request`, with the effects that are still to come -/
  | handling (cid : CorrelationId) (effects : List ExecEffect)

/-- The executor waits for a request. -/
def ExecPc.isIdle : ExecPc → Bool
  | .idle => true
  | _ => false

theorem ExecPc.isIdle_iff {pc : ExecPc} : pc.isIdle = true ↔ pc = .idle := by
  cases pc <;> simp [isIdle]

/-- The executor's own state. -/
structure Executor where
  balances : BalanceTracker
  pc : ExecPc := .refreshing

/-- The executor at start-up. -/
def Executor.init (tradeFraction minTradeSize : ℚ) : Executor :=
  { balances := { tradeFraction, minTradeSize } }

/-- A step of the executor. -/
inductive ExecAction where
  | receive (req : ExecutionRequest) (ans : ExecAnswers)
  | effect
  | finish
  | refresh (f : BalanceTracker.Fetched)

/-- What an effect does to the balances. -/
def ExecEffect.onBalances (bal : BalanceTracker) : ExecEffect → BalanceTracker
  | .deductFill pa a pm m size => bal.deductFill pa a pm m size
  | _ => bal

/-- The program point of the executor when it has just taken a request. -/
def Executor.handle (cfg : Config) (x : Executor) (req : ExecutionRequest)
    (ans : ExecAnswers) : ExecPc :=
  .handling req.correlationId (handleExecutionRequest cfg x.balances ans req).effects

/-- `run_picker_exe`. -/
def Executor.step (cfg : Config) (x : Executor) : ExecAction → Option Executor
  | .receive req ans =>
      match x.pc with
      | .idle => some { x with pc := x.handle cfg req ans }
      | _ => none
  | .effect =>
      match x.pc with
      | .handling cid (e :: rest) =>
          some { balances := e.onBalances x.balances, pc := .handling cid rest }
      | _ => none
  | .finish =>
      match x.pc with
      | .handling _ [] => some { x with pc := .refreshing }
      | _ => none
  | .refresh f =>
      match x.pc with
      | .refreshing => some { balances := x.balances.refreshAndSetBalances f, pc := .idle }
      | _ => none

/-- A request is taken only when the executor is idle. -/
theorem Executor.step_receive {cfg : Config} {x x' : Executor} {req : ExecutionRequest}
    {ans : ExecAnswers} (h : x.step cfg (.receive req ans) = some x') :
    x.pc = .idle ∧ x' = { x with pc := x.handle cfg req ans } := by
  simp only [step] at h
  split at h
  · rename_i hpc
    exact ⟨hpc, (Option.some.inj h).symm⟩
  · cases h

/-- An effect is the next one of the current handling. -/
theorem Executor.step_effect {cfg : Config} {x x' : Executor}
    (h : x.step cfg .effect = some x') :
    ∃ cid e rest, x.pc = .handling cid (e :: rest) ∧
      x' = { balances := e.onBalances x.balances, pc := .handling cid rest } := by
  simp only [step] at h
  split at h
  · rename_i cid e rest hpc
    exact ⟨cid, e, rest, hpc, (Option.some.inj h).symm⟩
  · cases h

/-- A handling ends when no effect is left. -/
theorem Executor.step_finish {cfg : Config} {x x' : Executor}
    (h : x.step cfg .finish = some x') :
    ∃ cid, x.pc = .handling cid [] ∧ x' = { x with pc := .refreshing } := by
  simp only [step] at h
  split at h
  · rename_i cid hpc
    exact ⟨cid, hpc, (Option.some.inj h).symm⟩
  · cases h

/-- A refresh makes the executor idle. -/
theorem Executor.step_refresh {cfg : Config} {x x' : Executor} {f : BalanceTracker.Fetched}
    (h : x.step cfg (.refresh f) = some x') :
    x.pc = .refreshing ∧
      x' = { balances := x.balances.refreshAndSetBalances f, pc := .idle } := by
  simp only [step] at h
  split at h
  · rename_i hpc
    exact ⟨hpc, (Option.some.inj h).symm⟩
  · cases h

/-- What one step of the executor can do. -/
theorem Executor.step_cases {cfg : Config} {x x' : Executor} {a : ExecAction}
    (h : x.step cfg a = some x') :
    (∃ req ans, a = .receive req ans ∧ x.pc = .idle ∧
      x' = { x with pc := x.handle cfg req ans }) ∨
    (∃ cid e rest, a = .effect ∧ x.pc = .handling cid (e :: rest) ∧
      x' = { balances := e.onBalances x.balances, pc := .handling cid rest }) ∨
    (∃ cid, a = .finish ∧ x.pc = .handling cid [] ∧ x' = { x with pc := .refreshing }) ∨
    (∃ f, a = .refresh f ∧ x.pc = .refreshing ∧
      x' = { balances := x.balances.refreshAndSetBalances f, pc := .idle }) := by
  cases a with
  | receive req ans =>
    obtain ⟨hpc, hx⟩ := step_receive h
    exact .inl ⟨req, ans, rfl, hpc, hx⟩
  | effect =>
    obtain ⟨cid, e, rest, hpc, hx⟩ := step_effect h
    exact .inr (.inl ⟨cid, e, rest, rfl, hpc, hx⟩)
  | finish =>
    obtain ⟨cid, hpc, hx⟩ := step_finish h
    exact .inr (.inr (.inl ⟨cid, rfl, hpc, hx⟩))
  | refresh f =>
    obtain ⟨hpc, hx⟩ := step_refresh h
    exact .inr (.inr (.inr ⟨f, rfl, hpc, hx⟩))

/-! ## §4 The shape of a handling -/

/-- The release of the in-flight flag. -/
def ExecEffect.isRelease : ExecEffect → Bool
  | .removeInFlight _ => true
  | _ => false

/-- The pair whose flag or cooldown the effect writes. -/
def ExecEffect.pair : ExecEffect → Option CorrelationId
  | .insertCooldown cid | .removeInFlight cid => some cid
  | _ => none

/-- The effect writes the flag and the cooldown of no other pair. -/
def ExecEffect.Of (cid : CorrelationId) (e : ExecEffect) : Prop := ∀ c, e.pair = some c → c = cid

/-- A release among the effects of one pair is the release of that pair. -/
theorem ExecEffect.Of.isRelease_iff {cid : CorrelationId} {e : ExecEffect} (he : e.Of cid) :
    e.isRelease = true ↔ e = .removeInFlight cid := by
  cases e with
  | removeInFlight c =>
    obtain rfl : c = cid := he c rfl
    simp [ExecEffect.isRelease]
  | _ => simp [ExecEffect.isRelease]

/-- The leg of a buy order that the effect starts. -/
def ExecEffect.buys : ExecEffect → Option ArbMinifiedInfo
  | .makeFakOrder buy => some buy.leg
  | _ => none

/-- The handler still has to release its in-flight flag. -/
def Releases (effects : List ExecEffect) : Prop := ∃ e ∈ effects, e.isRelease

instance (effects : List ExecEffect) : Decidable (Releases effects) :=
  inferInstanceAs (Decidable (∃ e ∈ effects, e.isRelease = true))

theorem releases_cons {e : ExecEffect} {rest : List ExecEffect} :
    Releases (e :: rest) ↔ e.isRelease ∨ Releases rest := by
  simp [Releases]

/-- The flag is released at most once, and only after the last buy order was started. -/
def Orderly : List ExecEffect → Prop
  | [] => True
  | e :: rest =>
      Orderly rest ∧ (e.isRelease → ¬ Releases rest) ∧ (e.buys.isSome → Releases rest)

/-- Once the flag is released no buy order is left. -/
theorem Orderly.no_buys {effects : List ExecEffect} (h : Orderly effects)
    (hr : ¬ Releases effects) : effects.filterMap ExecEffect.buys = [] := by
  induction effects with
  | nil => rfl
  | cons e rest ih =>
    rw [releases_cons, not_or] at hr
    have hbuy : e.buys = none := by
      by_contra hne
      exact hr.2 (h.2.2 (Option.isSome_iff_ne_none.mpr hne))
    -- a buy would have the release still ahead of it
    rw [List.filterMap_cons_none hbuy]
    exact ih h.1 hr.2

/-- The remaining effects of a handling are in order, and about the pair it handles. -/
def ExecPc.Orderly : ExecPc → Prop
  | .handling cid effects => Picker.Orderly effects ∧ ∀ e ∈ effects, e.Of cid
  | _ => True

/-- The legs that the executor still buys in the current handling. -/
def ExecPc.buys : ExecPc → List ArbMinifiedInfo
  | .handling _ effects => effects.filterMap ExecEffect.buys
  | _ => []

/-- The arb whose in-flight flag the executor still has to release. -/
def ExecPc.unreleased : ExecPc → Option CorrelationId
  | .handling cid effects => if Releases effects then some cid else none
  | _ => none

/-- The exits of `handle_execution_request`. -/
theorem handleExecutionRequest_cases (cfg : Config) (bal : BalanceTracker) (ans : ExecAnswers)
    (req : ExecutionRequest) :
    (handleExecutionRequest cfg bal ans req).effects = [.removeInFlight req.correlationId] ∨
    (handleExecutionRequest cfg bal ans req).effects =
      [.insertCooldown req.correlationId, .removeInFlight req.correlationId] ∨
    ∃ m size, executionMetrics cfg.optimistic ans req = .ok m ∧ m.outOfBand = false ∧
      m.executionSize bal = some size ∧
      handleExecutionRequest cfg bal ans req = placeOrders cfg ans req m size := by
  unfold handleExecutionRequest
  -- no metrics, prices out of band, no size, or orders
  split
  · exact .inl rfl
  · rename_i m hm
    split
    · split
      · exact .inr (.inl rfl)
      · exact .inl rfl
    · rename_i hband
      split
      · exact .inl rfl
      · rename_i size hsize
        exact .inr (.inr ⟨m, size, hm, by simpa using hband, hsize, rfl⟩)

/-- A hedge is one sell order, with at most one message about it. -/
theorem hedgeEffects_eq (ans : ExecAnswers) (excess : ℚ) (leg : Buy) :
    ∃ hedge ebos, hedgeEffects ans excess leg = .hedgeSellOrder hedge :: List.map .send ebos := by
  unfold hedgeEffects
  simp only
  split
  · exact ⟨_, [], rfl⟩
  · exact ⟨_, [_], rfl⟩

/-- The exits after the fills: missed, perfect, or legged with a hedge. -/
theorem afterFills_cases (ans : ExecAnswers) (req : ExecutionRequest) (anchor «match» : Buy) :
    (afterFills ans req anchor «match»).effects =
      [.insertCooldown req.correlationId, .removeInFlight req.correlationId] ∨
    (∃ ebo, (afterFills ans req anchor «match»).effects =
      [.removeInFlight req.correlationId, .send ebo]) ∨
    ∃ ebo hedge ebos, (afterFills ans req anchor «match»).effects =
      .send ebo :: .hedgeSellOrder hedge :: List.map .send ebos ++
        [.removeInFlight req.correlationId] := by
  unfold afterFills
  simp only
  split
  · split
    · exact .inl rfl
    · exact .inr (.inl ⟨_, rfl⟩)
  · obtain ⟨hedge, ebos, h⟩ := hedgeEffects_eq ans |anchor.order.fill.1 - «match».order.fill.1|
      (if «match».order.fill.1 < anchor.order.fill.1 then anchor else «match»)
    rw [h]
    exact .inr (.inr ⟨_, hedge, ebos, rfl⟩)

/-- Messages followed by the release are in order. -/
theorem orderly_sends_release (ebos : List ClientEbo) (cid : CorrelationId) :
    Orderly (ebos.map ExecEffect.send ++ [.removeInFlight cid]) := by
  induction ebos with
  | nil => simp [Orderly, Releases, ExecEffect.buys]
  | cons e rest ih => simpa [Orderly, ExecEffect.isRelease, ExecEffect.buys] using ih

/-- After the fills the handler starts no further buy and releases the flag once. -/
theorem afterFills_shape (ans : ExecAnswers) (req : ExecutionRequest) (anchor «match» : Buy) :
    Orderly (afterFills ans req anchor «match»).effects ∧
      Releases (afterFills ans req anchor «match»).effects ∧
      (afterFills ans req anchor «match»).effects.filterMap ExecEffect.buys = [] := by
  rcases afterFills_cases ans req anchor «match» with h | ⟨ebo, h⟩ | ⟨ebo, hedge, ebos, h⟩
  · rw [h]
    simp [Orderly, Releases, ExecEffect.isRelease, ExecEffect.buys]
  · rw [h]
    simp [Orderly, Releases, ExecEffect.isRelease, ExecEffect.buys]
  · rw [h]
    refine ⟨?_, by simp [Releases, ExecEffect.isRelease], ?_⟩
    · simpa [Orderly, ExecEffect.isRelease, ExecEffect.buys] 
        using orderly_sends_release ebos req.correlationId
    · -- messages, the hedge and the release are not buys
      simp only [List.filterMap_eq_nil_iff, List.cons_append, List.mem_cons, List.mem_append,
        List.mem_map, List.not_mem_nil, or_false]
      rintro e (rfl | rfl | ⟨_, -, rfl⟩ | rfl) <;> rfl

/-- The buy order that an effect starts. -/
def ExecEffect.order : ExecEffect → Option Buy
  | .makeFakOrder buy => some buy
  | _ => none

/-- The buy orders of a handling. -/
def Handled.orders (h : Handled) : List Buy := h.effects.filterMap ExecEffect.order

/-- After the fills no further order is started: the orders are the two of the legs. -/
theorem placeOrders_orders (cfg : Config) (ans : ExecAnswers) (req : ExecutionRequest)
    (m : Metrics) (size : ℚ) : (placeOrders cfg ans req m size).orders =
      [buyLeg cfg ans.anchorVenue req.correlationId req.anchor size m.anchorPrice,
        buyLeg cfg ans.matchVenue req.correlationId req.match size m.matchPrice] := by
  have hbuys := (afterFills_shape ans req
    (buyLeg cfg ans.anchorVenue req.correlationId req.anchor size m.anchorPrice)
    (buyLeg cfg ans.matchVenue req.correlationId req.match size m.matchPrice)).2.2
  have horders : (afterFills ans req
      (buyLeg cfg ans.anchorVenue req.correlationId req.anchor size m.anchorPrice)
      (buyLeg cfg ans.matchVenue req.correlationId req.match size m.matchPrice)).effects.filterMap
        ExecEffect.order = [] := by
    rw [List.filterMap_eq_nil_iff] at hbuys ⊢
    intro e he
    have hbuy := hbuys e he
    cases e <;> first | rfl | cases hbuy
  exact congrArg (_ :: _ :: ·) horders

/-- **One release, no buy after it**: the shape of every handling. -/
theorem handleExecutionRequest_shape (cfg : Config) (bal : BalanceTracker) (ans : ExecAnswers)
    (req : ExecutionRequest) :
    Orderly (handleExecutionRequest cfg bal ans req).effects ∧
      Releases (handleExecutionRequest cfg bal ans req).effects ∧
      ((handleExecutionRequest cfg bal ans req).effects.filterMap ExecEffect.buys).Sublist
        [req.anchor, req.match] := by
  rcases handleExecutionRequest_cases cfg bal ans req with h | h | ⟨m, size, -, -, -, h⟩
  · rw [h]
    simp [Orderly, Releases, ExecEffect.isRelease, ExecEffect.buys]
  · rw [h]
    simp [Orderly, Releases, ExecEffect.isRelease, ExecEffect.buys]
  · -- the buys come first, and the release last
    obtain ⟨ho, hr, hb⟩ := afterFills_shape ans req
      (buyLeg cfg ans.anchorVenue req.correlationId req.anchor size m.anchorPrice)
      (buyLeg cfg ans.matchVenue req.correlationId req.match size m.matchPrice)
    rw [h]
    refine ⟨?_, ?_, ?_⟩
    · simpa [placeOrders, Orderly, ExecEffect.isRelease, ExecEffect.buys, releases_cons]
        using ⟨ho, hr⟩
    · simpa [placeOrders, releases_cons, ExecEffect.isRelease] using hr
    · have hbuys : (placeOrders cfg ans req m size).effects.filterMap ExecEffect.buys =
          [req.anchor, req.match] := congrArg (req.anchor :: req.match :: ·) hb
      rw [hbuys]

/-- After the fills the handler writes the flag and the cooldown of its own pair only. -/
theorem afterFills_own (ans : ExecAnswers) (req : ExecutionRequest) (anchor «match» : Buy) :
    ∀ e ∈ (afterFills ans req anchor «match»).effects, e.Of req.correlationId := by
  intro e he c hc
  rcases afterFills_cases ans req anchor «match» with h | ⟨ebo, h⟩ | ⟨ebo, hedge, ebos, h⟩
  · rw [h] at he
    simp only [List.mem_cons, List.not_mem_nil, or_false] at he
    rcases he with rfl | rfl <;> exact (Option.some.inj hc).symm
  · rw [h] at he
    simp only [List.mem_cons, List.not_mem_nil, or_false] at he
    rcases he with rfl | rfl
    · exact (Option.some.inj hc).symm
    · cases hc
  · rw [h] at he
    simp only [List.cons_append, List.mem_cons, List.mem_append, List.mem_map, List.not_mem_nil,
      or_false] at he
    -- the messages and the hedge write neither
    rcases he with rfl | rfl | ⟨_, -, rfl⟩ | rfl
    · cases hc
    · cases hc
    · cases hc
    · exact (Option.some.inj hc).symm

/-- **Its own pair**: a handling writes no flag and no cooldown but those of its request. -/
theorem handleExecutionRequest_own (cfg : Config) (bal : BalanceTracker) (ans : ExecAnswers)
    (req : ExecutionRequest) :
    ∀ e ∈ (handleExecutionRequest cfg bal ans req).effects, e.Of req.correlationId := by
  intro e he c hc
  rcases handleExecutionRequest_cases cfg bal ans req with h | h | ⟨m, size, -, -, -, h⟩
  · rw [h, List.mem_singleton] at he
    subst he
    exact (Option.some.inj hc).symm
  · rw [h] at he
    simp only [List.mem_cons, List.not_mem_nil, or_false] at he
    rcases he with rfl | rfl <;> exact (Option.some.inj hc).symm
  · rw [h] at he
    simp only [placeOrders, List.mem_cons] at he
    rcases he with rfl | rfl | rfl | he
    · cases hc
    · cases hc
    · cases hc
    · exact afterFills_own ans req _ _ e he c hc

/-- Every handling of every run is orderly. -/
theorem Executor.orderly_step {cfg : Config} {x x' : Executor} {a : ExecAction}
    (ho : x.pc.Orderly) (h : x.step cfg a = some x') : x'.pc.Orderly := by
  rcases step_cases h with ⟨req, ans, -, -, rfl⟩ | ⟨cid, e, rest, -, hpc, rfl⟩ | ⟨cid, -, -, rfl⟩ |
    ⟨f, -, -, rfl⟩
  · exact ⟨(handleExecutionRequest_shape cfg x.balances ans req).1,
      handleExecutionRequest_own cfg x.balances ans req⟩
  · rw [hpc] at ho
    exact ⟨ho.1.1, fun e' he' => ho.2 e' (List.mem_cons_of_mem _ he')⟩
  · trivial
  · trivial

/-- An executor that takes a request has its flag to release. -/
theorem Executor.unreleased_handle (cfg : Config) (x : Executor) (req : ExecutionRequest)
    (ans : ExecAnswers) : (x.handle cfg req ans).unreleased = some req.correlationId :=
  if_pos (handleExecutionRequest_shape cfg x.balances ans req).2.1

/-- The release is what ends the executor's hold on the flag. -/
theorem ExecPc.unreleased_effect {cid : CorrelationId} {e : ExecEffect} {rest : List ExecEffect}
    (ho : (ExecPc.handling cid (e :: rest)).Orderly) :
    (ExecPc.handling cid rest).unreleased =
      if e.isRelease then none else (ExecPc.handling cid (e :: rest)).unreleased := by
  by_cases he : e.isRelease
  · have hrest : ¬ Releases rest := ho.1.2.1 he
    simp [unreleased, he, hrest]
  · have hiff : Releases (e :: rest) ↔ Releases rest := by simp [Releases, he]
    simp [unreleased, he, hiff]

/-- A handling never has more than two legs to buy. -/
theorem Executor.buys_step {cfg : Config} {x x' : Executor} {a : ExecAction}
    (hb : x.pc.buys.length ≤ 2) (h : x.step cfg a = some x') : x'.pc.buys.length ≤ 2 := by
  rcases step_cases h with ⟨req, ans, -, -, rfl⟩ | ⟨cid, e, rest, -, hpc, rfl⟩ | ⟨cid, -, -, rfl⟩ |
    ⟨f, -, -, rfl⟩
  · exact (handleExecutionRequest_shape cfg x.balances ans req).2.2.length_le
  · rw [hpc] at hb
    exact ((List.sublist_cons_self e rest).filterMap ExecEffect.buys).length_le.trans hb
  · exact Nat.zero_le _
  · exact Nat.zero_le _

end Degenerate.Picker
