import Degenerate.Picker.OrderTerms
import Degenerate.Picker.BalanceLedger

/-!
# Order Messages

An execution that moved money tells the server so: one message about the two orders, and
one about the hedge when a venue has accepted it.  Both carry the same fresh id, by which
the server finds the hedge of an order again.

## Main Results

- `Execution.truthful_messages`: what each execution tells the server, whatever the venues answer
- `Executor.trace_messages`: the messages of a run are those of its executions, in order
-/

namespace Degenerate.Picker

open Degenerate.Lib

/-! ## §1 Accepted hedges -/

/-- The id that a venue gives to an order that it accepts. -/
def OrderVenue.acceptedId (venue : OrderVenue) : SentOrder → Option String
  | .kalshi req => (venue.createOrder req).toOption.map KalshiOrder.orderId
  | .polymarket order =>
      ((venue.postOrder order).toOption.filter PostOrderResponse.success).map
        PostOrderResponse.orderId

/-- The id under which a venue has accepted a hedge that reached it. -/
def Placed.acceptedId {ρ : Type} (order : Placed ρ) (venue : OrderVenue) : Option String :=
  order.sent.bind venue.acceptedId

/-- Polymarket's answer to a hedge is read as an acceptance exactly when it is one. -/
theorem polyHedge_id (excess price : ℚ) (answer : Except String PostOrderResponse) :
    (polyHedge excess price answer).toOption.map Prod.fst =
      (answer.toOption.filter PostOrderResponse.success).map PostOrderResponse.orderId := by
  cases answer with
  | error e => rfl
  | ok response =>
    simp only [polyHedge, Except.toOption]
    by_cases hs : response.success
    · simp [hs]
    · simp [hs]

/-- **A hedge succeeds exactly when its venue has accepted it**, with the id of the venue. -/
theorem hedgeSellOrder_id (venue : OrderVenue) (id : String) (leg : ArbMinifiedInfo)
    (excess price : ℚ) :
    (hedgeSellOrder venue id leg excess price).result.toOption.map Prod.fst =
      (hedgeSellOrder venue id leg excess price).acceptedId venue := by
  unfold hedgeSellOrder
  simp only
  split
  · split
    · rfl
    · -- the answer of Kalshi decides
      simp only [Placed.acceptedId, Option.bind_some, OrderVenue.acceptedId]
      split
      · rename_i order horder
        rw [horder]
        rfl
      · rename_i e he
        rw [he]
        rfl
  · rcases submitLimitOrder_cases venue leg.tokenId
      (fun token => ⟨token, roundDp excess 2, roundDp (min price (99 / 100)) 2, .sell, .gtc⟩)
      "Failed to build Polymarket hedge order" (polyHedge excess (min price (99 / 100))) with
      ⟨e, h⟩ | ⟨token, -, h⟩
    · rw [h]
      rfl
    · rw [h]
      exact polyHedge_id _ _ _

/-! ## §2 Messages of a handling -/

/-- The message that an effect sends. -/
def ExecEffect.ebo : ExecEffect → Option ClientEbo
  | .send ebo => some ebo
  | _ => none

/-- The messages of a handling, in order. -/
def Handled.messages (h : Handled) : List ClientEbo := h.effects.filterMap ExecEffect.ebo

/-- The message about a pair of orders. -/
def orderEbo (ans : ExecAnswers) (order : OrderMade) : ClientEbo :=
  ⟨ans.messageId, ans.orderActionAt, .orderSubmitted order⟩

/-- The message about a hedge. -/
def excessEbo (ans : ExecAnswers) (report : ExcessFillOrderMade) : ClientEbo :=
  ⟨ans.messageId, ans.excessActionAt, .excessFillSubmitted report⟩

/-- What an accepted hedge is reported as. -/
def Hedge.report (r : Hedge) : ExcessFillOrderMade := ⟨r.1, r.2.1, r.2.2.1, r.2.2.2⟩

/-- The report of the hedge that two accounted fills call for, if it succeeded. -/
def reportFor (ans : ExecAnswers) (anchor «match» : Buy) : Option ExcessFillOrderMade :=
  (hedgesFor ans anchor «match»).head?.bind fun hedge => hedge.result.toOption.map Hedge.report

theorem reportFor_of_ne {ans : ExecAnswers} {anchor «match» : Buy}
    (h : anchor.order.fill.1 ≠ «match».order.fill.1) : reportFor ans anchor «match» =
      (hedgeOf ans (excessFill anchor «match»)
        (longerLeg anchor «match»)).result.toOption.map Hedge.report := by
  rw [reportFor, hedgesFor, if_neg h]
  rfl

theorem hedgeReport_ebos (ans : ExecAnswers) (result : Except String Hedge) :
    (hedgeReport ans result).filterMap ExecEffect.ebo =
      (result.toOption.map Hedge.report).toList.map (excessEbo ans) := by
  cases result <;> rfl

/-- After the fills: nothing when both legs missed, and else the orders and the report of the
    hedge that they call for. -/
theorem afterFills_messages (ans : ExecAnswers) (req : ExecutionRequest) (anchor «match» : Buy) :
    (afterFills ans req anchor «match»).messages =
      if anchor.order.fill.1 = 0 ∧ «match».order.fill.1 = 0 then []
      else orderEbo ans (orderMade req anchor «match» (excessFill anchor «match»)) ::
        (reportFor ans anchor «match»).toList.map (excessEbo ans) := by
  by_cases heq : anchor.order.fill.1 = «match».order.fill.1
  · have hexcess : excessFill anchor «match» = 0 := by rw [excessFill, heq, sub_self, abs_zero]
    have hreport : reportFor ans anchor «match» = none := by
      rw [reportFor, hedgesFor_of_eq heq]
      rfl
    simp only [Handled.messages, afterFills, if_pos heq, hexcess, hreport]
    by_cases hzero : anchor.order.fill.1 = 0
    · rw [if_pos hzero, if_pos ⟨hzero, heq ▸ hzero⟩]
      rfl
    · have hsome : ¬ (anchor.order.fill.1 = 0 ∧ «match».order.fill.1 = 0) := fun h => hzero h.1
      rw [if_neg hzero, if_neg hsome]
      rfl
  · -- legged fills are not both zero
    have hsome : ¬ (anchor.order.fill.1 = 0 ∧ «match».order.fill.1 = 0) := fun h =>
      heq (h.1.trans h.2.symm)
    rw [if_neg hsome, reportFor_of_ne heq]
    simp only [Handled.messages, afterFills, if_neg heq]
    rw [← excessFill, ← longerLeg, hedgeEffects_eq_report]
    show orderEbo ans _ :: List.filterMap ExecEffect.ebo
      (hedgeReport ans _ ++ [ExecEffect.removeInFlight req.correlationId]) = _
    rw [List.filterMap_append, hedgeReport_ebos]
    exact congrArg (orderEbo ans _ :: ·) (List.append_nil _)

/-- Placing orders sends what follows the fills. -/
theorem placeOrders_messages (cfg : Config) (ans : ExecAnswers) (req : ExecutionRequest)
    (m : Metrics) (size : ℚ) : (placeOrders cfg ans req m size).messages =
      (afterFills ans req
        (buyLeg cfg ans.anchorVenue req.correlationId req.anchor size m.anchorPrice)
        (buyLeg cfg ans.matchVenue req.correlationId req.match size m.matchPrice)).messages := rfl

/-- A handling that does not go ahead sends nothing. -/
theorem messages_of_not_goesAhead {cfg : Config} {bal : BalanceTracker} {ans : ExecAnswers}
    {req : ExecutionRequest} (h : ∀ m size, ¬ GoesAhead cfg bal ans req m size) :
    (handleExecutionRequest cfg bal ans req).messages = [] := by
  unfold Handled.messages
  rcases effects_of_not_goesAhead h with he | he
  · rw [he]
    rfl
  · rw [he]
    rfl

/-! ## §3 Executions -/

/-- One execution: a request, the balances at its start, and what the environment answers. -/
structure Execution where
  cfg : Config
  balances : BalanceTracker
  ans : ExecAnswers
  req : ExecutionRequest

namespace Execution

/-- The handling of the request. -/
def handled (x : Execution) : Handled := handleExecutionRequest x.cfg x.balances x.ans x.req

/-- What it tells the server. -/
def messages (x : Execution) : List ClientEbo := x.handled.messages

/-- It says something, and draws an id for that. -/
def speaks (x : Execution) : Bool := !x.messages.isEmpty

theorem messages_of_not_speaks {x : Execution} (h : x.speaks = false) : x.messages = [] := by
  simpa [speaks] using h

end Execution

/-- An entry about a pair of orders states the prices used, the accounted fills, by how much
    they differ, and the ids of the orders in the positions of their legs. -/
structure OrderMade.Truthful (entry : OrderMade) (req : ExecutionRequest) (m : Metrics)
    (anchor other : Buy) : Prop where
  anchorCost : entry.anchorCost = m.anchorPrice.toRat
  matchCost : entry.matchCost = m.matchPrice.toRat
  anchorFill : entry.anchorFill = anchor.order.fill.1
  matchFill : entry.matchFill = other.order.fill.1
  excessFill : entry.excessFill = |anchor.order.fill.1 - other.order.fill.1|
  anchorOrderId : entry.anchorOrderId = anchor.order.fill.2.2
  matchOrderId : entry.matchOrderId = other.order.fill.2.2
  arbCorrelationId : entry.arbCorrelationId = req.correlationId

/-- **One truthful entry**: an execution that places no orders, or whose orders both miss, says
    nothing.  Any other one sends one entry about its orders, and behind it under the same id
    one report exactly when the hedge was accepted, with the id that the venue gave to it. -/
def Execution.Truthful (x : Execution) : Prop :=
  (∀ m size, ¬ GoesAhead x.cfg x.balances x.ans x.req m size) ∧ x.messages = [] ∨
  ∃ m size, GoesAhead x.cfg x.balances x.ans x.req m size ∧
    ∃ anchor other : Buy, x.handled.orders = [anchor, other] ∧
      anchor.leg = x.req.anchor ∧ other.leg = x.req.match ∧
      (anchor.order.fill.1 = 0 → other.order.fill.1 = 0 → x.messages = []) ∧
      (0 < anchor.order.fill.1 ∨ 0 < other.order.fill.1 →
        ∃ (entry : OrderMade) (report : Option ExcessFillOrderMade),
          entry.Truthful x.req m anchor other ∧
          x.messages = orderEbo x.ans entry :: report.toList.map (excessEbo x.ans) ∧
          ∀ id, (∃ r, report = some r ∧ r.orderId = id) ↔
            ∃ hedge ∈ x.handled.hedges, hedge.acceptedId x.ans.hedgeVenue = some id)

/-- There is a report exactly when the hedge was accepted, with its id. -/
theorem reportFor_iff (ans : ExecAnswers) (anchor «match» : Buy) (id : String) :
    (∃ r, reportFor ans anchor «match» = some r ∧ r.orderId = id) ↔
      ∃ hedge ∈ hedgesFor ans anchor «match», hedge.acceptedId ans.hedgeVenue = some id := by
  by_cases heq : anchor.order.fill.1 = «match».order.fill.1
  · simp [reportFor, hedgesFor_of_eq heq]
  · rw [reportFor_of_ne heq, hedgesFor, if_neg heq]
    simp only [List.mem_singleton, exists_eq_left]
    -- what the venue accepts is what the handler reads as a success
    have hid := hedgeSellOrder_id ans.hedgeVenue ans.hedgeClientOrderId
      (longerLeg anchor «match»).leg (excessFill anchor «match»)
      ((longerLeg anchor «match»).price.toRat + 2 / 100)
    rw [← hedgeOf] at hid
    rw [← hid, Option.map_eq_some_iff]
    simp only [Option.map_eq_some_iff, exists_exists_and_eq_and]
    rfl

theorem orderMade_truthful {req : ExecutionRequest} {m : Metrics} {anchor other : Buy}
    (ha : anchor.price = m.anchorPrice) (ho : other.price = m.matchPrice) :
    (orderMade req anchor other (excessFill anchor other)).Truthful req m anchor other :=
  ⟨congrArg Decimal.toRat ha, congrArg Decimal.toRat ho, rfl, rfl, rfl, rfl, rfl, rfl⟩

/-- **Every execution is told truthfully.** -/
theorem Execution.truthful_messages (x : Execution) : x.Truthful := by
  by_cases hgo : ∃ m size, GoesAhead x.cfg x.balances x.ans x.req m size
  · obtain ⟨m, size, hgo⟩ := hgo
    right
    refine ⟨m, size, hgo, ?_⟩
    have hplace : x.handled = placeOrders x.cfg x.ans x.req m size :=
      handleExecutionRequest_goesAhead hgo
    rw [Execution.messages, hplace, placeOrders_messages, placeOrders_hedges, placeOrders_orders]
    refine ⟨_, _, rfl, rfl, rfl, ?_, ?_⟩
    · intro hanchor hother
      rw [afterFills_messages, if_pos ⟨hanchor, hother⟩]
    · intro hsome
      refine ⟨_, _, orderMade_truthful rfl rfl, ?_, reportFor_iff x.ans _ _⟩
      rw [afterFills_messages, if_neg]
      -- one of the legs filled
      intro hzero
      rcases hsome with hsome | hsome
      · exact hsome.ne' hzero.1
      · exact hsome.ne' hzero.2
  · left
    push Not at hgo
    exact ⟨hgo, messages_of_not_goesAhead hgo⟩

/-- The messages of an execution: none, or one about its orders and at most one about its
    hedge. -/
theorem Execution.messages_shape (x : Execution) :
    x.messages = [] ∨ ∃ (entry : OrderMade) (report : Option ExcessFillOrderMade),
      x.messages = orderEbo x.ans entry :: report.toList.map (excessEbo x.ans) := by
  by_cases hgo : ∃ m size, GoesAhead x.cfg x.balances x.ans x.req m size
  · obtain ⟨m, size, hgo⟩ := hgo
    rw [Execution.messages, Execution.handled, handleExecutionRequest_goesAhead hgo,
      placeOrders_messages, afterFills_messages]
    split
    · exact .inl rfl
    · exact .inr ⟨_, _, rfl⟩
  · push Not at hgo
    exact .inl (messages_of_not_goesAhead hgo)

/-! ## §4 Runs -/

/-- The messages that the current handling still sends. -/
def ExecPc.messages (pc : ExecPc) : List ClientEbo := pc.effects.filterMap ExecEffect.ebo

/-- The message that a step of the executor sends. -/
def sentMessages (x : Executor) : ExecAction → List ClientEbo
  | .effect => x.pc.effects.head?.toList.filterMap ExecEffect.ebo
  | _ => []

/-- The execution that a step of the executor begins. -/
def begunExecutions (cfg : Config) (x : Executor) : ExecAction → List Execution
  | .receive req ans => [⟨cfg, x.balances, ans, req⟩]
  | _ => []

/-- A step sends what was still to be sent, and adds to it what its execution says. -/
theorem messages_step {cfg : Config} {x x' : Executor} {a : ExecAction}
    (h : x.step cfg a = some x') :
    x.pc.messages ++ (begunExecutions cfg x a).flatMap Execution.messages =
      sentMessages x a ++ x'.pc.messages := by
  rcases Executor.step_cases h with ⟨req, ans, rfl, hpc, rfl⟩ | ⟨cid, e, rest, rfl, hpc, rfl⟩ |
    ⟨cid, rfl, hpc, rfl⟩ | ⟨f, rfl, hpc, rfl⟩
  · rw [hpc]
    exact List.append_nil _
  · -- the first effect is the one that takes place
    simp only [ExecPc.messages, sentMessages, begunExecutions, hpc, ExecPc.effects,
      List.flatMap_nil, List.append_nil, List.head?_cons, Option.toList_some]
    rw [← List.filterMap_append]
    rfl
  · rw [hpc]
    rfl
  · rw [hpc]
    rfl

/-- **The messages of a run are those of its executions**, in order, whenever the executor is
    between two requests. -/
theorem Executor.trace_messages {cfg : Config} {x x' : Executor} {as : List ExecAction}
    (h : run (Executor.step cfg) x as = some x') (hx : x.pc.effects = [])
    (hx' : x'.pc.effects = []) :
    trace sentMessages (Executor.step cfg) x as =
      (trace (begunExecutions cfg) (Executor.step cfg) x as).flatMap Execution.messages := by
  have hconserved := trace_conserved (fun x : Executor => x.pc.messages)
    (fun _ _ _ ht => messages_step ht) h
  simp only [ExecPc.messages, hx, hx', List.filterMap_nil, List.nil_append, List.append_nil]
    at hconserved
  rw [← hconserved, flatMap_trace]

end Degenerate.Picker
