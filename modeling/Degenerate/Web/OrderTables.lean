import Degenerate.Lib.LeftJoin
import Degenerate.Picker.OrderMessages
import Degenerate.Web.Dashboard

/-!
# The Order Tables

The server keeps the orders of the bot in one table and the hedges of its uneven fills in
another one.  Both are filled by `ProcessEbo` alone, from the messages of the executions, and
the orders page joins them on the id of the messages.

## Main Results

- `joined_of_run`: the tables after a run of the executor
- `orders_beside_hedges`: each execution is told truthfully, and in the join each order that
  was told stands once, beside the hedge of its own execution
-/

namespace Degenerate.Web

open Degenerate.Lib Degenerate.Picker

/-! ## §1 The tables -/

/-- A row of the `orders` table. -/
structure OrdersRow where
  correlationId : CorrelationId
  foundAt : ℤ
  /-- What the JSON of the arb unmarshals to, if there is any. -/
  arbs : Option Arb
  anchorCost : ℚ
  matchCost : ℚ
  anchorFill : ℚ
  matchFill : ℚ
  excessFill : ℚ
  anchorOrderId : String
  matchOrderId : String

/-- A row of the `excess_fill` table. -/
structure ExcessFillRow where
  correlationId : CorrelationId
  foundAt : ℤ
  platform : String
  orderId : String
  fillSize : ℚ
  fillCost : ℚ

/-- Both tables; `CORRELATION_ID TEXT NOT NULL UNIQUE` in each. -/
structure OrderTables where
  orders : UniqueTable OrdersRow OrdersRow.correlationId
  excessFill : UniqueTable ExcessFillRow ExcessFillRow.correlationId

/-- `InsertOrderParams` of a message, with the answer of the subselect. -/
def ordersRow (arbs : ArbsTable) (ebo : ClientEbo) (req : OrderMade) : OrdersRow where
  correlationId := ebo.correlationId
  foundAt := ebo.actionAt
  arbs := (arbs.getArbByCorrelationID req.arbCorrelationId).bind ArbsRow.arbs
  anchorCost := req.anchorCost
  matchCost := req.matchCost
  anchorFill := req.anchorFill
  matchFill := req.matchFill
  excessFill := req.excessFill
  anchorOrderId := req.anchorOrderId
  matchOrderId := req.matchOrderId

/-- `InsertExcessFillParams` of a message. -/
def excessFillRow (ebo : ClientEbo) (req : ExcessFillOrderMade) : ExcessFillRow where
  correlationId := ebo.correlationId
  foundAt := ebo.actionAt
  platform := req.platform.asStrName
  orderId := req.orderId
  fillSize := req.excessFillSize
  fillCost := req.excessFillCost

namespace OrderTables

/-- The tables of a new database. -/
def empty : OrderTables := ⟨.empty, .empty⟩

/-- `ProcessEbo`, as far as it touches these tables; `none` is an error of the statement. -/
def processEbo (arbs : ArbsTable) (t : OrderTables) (ebo : ClientEbo) : Option OrderTables :=
  match ebo.action with
  | .orderSubmitted req =>
      (t.orders.insert (ordersRow arbs ebo req)).map fun orders => { t with orders }
  | .excessFillSubmitted req =>
      (t.excessFill.insert (excessFillRow ebo req)).map fun excessFill => { t with excessFill }
  | .crossPlatformArb _ | .deleteRunningArbs _ => some t

/-- The messages that a stream receives: an error is logged, and the next message is read.
    `arbsAt` is the `arbs` table at the time of the message with an id. -/
def receiveAll (arbsAt : CorrelationId → ArbsTable) (t : OrderTables) (ebos : List ClientEbo) :
    OrderTables :=
  ebos.foldl (fun t ebo => (t.processEbo (arbsAt ebo.correlationId) ebo).getD t) t

end OrderTables

/-! ## §2 The query -/

/-- `GetOrderWithExcessRow`; the columns of an order without a hedge are null. -/
structure GetOrderWithExcessRow where
  order : OrdersRow
  hedgePlatform : Option String
  hedgeOrderId : Option String
  hedgeFillSize : Option ℚ
  hedgeFillCost : Option ℚ

/-- The columns that are selected from a row of the join. -/
def selectColumns (row : OrdersRow × Option ExcessFillRow) : GetOrderWithExcessRow where
  order := row.1
  hedgePlatform := row.2.map ExcessFillRow.platform
  hedgeOrderId := row.2.map ExcessFillRow.orderId
  hedgeFillSize := row.2.map ExcessFillRow.fillSize
  hedgeFillCost := row.2.map ExcessFillRow.fillCost

/-- `orders o LEFT JOIN excess_fill e ON o.correlation_id = e.correlation_id`. -/
def OrderTables.joined (t : OrderTables) : List (OrdersRow × Option ExcessFillRow) :=
  leftJoin OrdersRow.correlationId ExcessFillRow.correlationId t.orders.rows t.excessFill.rows

/-- `GetOrderWithExcess`: the newest orders first. -/
def OrderTables.getOrderWithExcess (t : OrderTables) (limit : ℕ) : List GetOrderWithExcessRow :=
  ((t.joined.map selectColumns).mergeSort
    fun r s => s.order.foundAt ≤ r.order.foundAt).take limit

/-! ## §3 Rows of messages -/

/-- The row that a message puts into the `orders` table. -/
def ordersRowOf (arbsAt : CorrelationId → ArbsTable) (ebo : ClientEbo) : Option OrdersRow :=
  match ebo.action with
  | .orderSubmitted req => some (ordersRow (arbsAt ebo.correlationId) ebo req)
  | _ => none

/-- The row that a message puts into the `excess_fill` table. -/
def excessFillRowOf (ebo : ClientEbo) : Option ExcessFillRow :=
  match ebo.action with
  | .excessFillSubmitted req => some (excessFillRow ebo req)
  | _ => none

/-- The message is about an order or a hedge. -/
def isOrderMessage (ebo : ClientEbo) : Bool :=
  match ebo.action with
  | .orderSubmitted _ | .excessFillSubmitted _ => true
  | _ => false

/-- **What is received is inserted**: each message tries to insert its row, and no other one. -/
theorem receiveAll_eq (arbsAt : CorrelationId → ArbsTable) (t : OrderTables)
    (ebos : List ClientEbo) :
    t.receiveAll arbsAt ebos =
      ⟨t.orders.insertAll (ebos.filterMap (ordersRowOf arbsAt)),
        t.excessFill.insertAll (ebos.filterMap excessFillRowOf)⟩ := by
  induction ebos generalizing t with
  | nil => rfl
  | cons ebo ebos ih =>
    -- one message, and then the rest of the list
    show ((t.processEbo (arbsAt ebo.correlationId) ebo).getD t).receiveAll arbsAt ebos = _
    rw [ih]
    obtain ⟨cid, at', action⟩ := ebo
    cases action with
    | crossPlatformArb arb => rfl
    | deleteRunningArbs cids => rfl
    -- an order whose id is taken leaves the table, as an insertion of it does
    | orderSubmitted req =>
      have hprocess : ((t.processEbo (arbsAt cid) ⟨cid, at', .orderSubmitted req⟩).getD t) =
          ⟨t.orders.insertAll [ordersRow (arbsAt cid) ⟨cid, at', .orderSubmitted req⟩ req],
            t.excessFill⟩ := by
        simp only [OrderTables.processEbo, UniqueTable.insertAll, List.foldl_cons, List.foldl_nil]
        cases t.orders.insert (ordersRow (arbsAt cid) ⟨cid, at', .orderSubmitted req⟩ req) <;> rfl
      rw [hprocess]
      rfl
    | excessFillSubmitted req =>
      have hprocess : ((t.processEbo (arbsAt cid) ⟨cid, at', .excessFillSubmitted req⟩).getD t) =
          ⟨t.orders,
            t.excessFill.insertAll [excessFillRow ⟨cid, at', .excessFillSubmitted req⟩ req]⟩ := by
        simp only [OrderTables.processEbo, UniqueTable.insertAll, List.foldl_cons, List.foldl_nil]
        cases t.excessFill.insert (excessFillRow ⟨cid, at', .excessFillSubmitted req⟩ req) <;> rfl
      rw [hprocess]
      rfl

theorem ordersRowOf_eq_none (arbsAt : CorrelationId → ArbsTable) (ebo : ClientEbo)
    (h : isOrderMessage ebo = false) : ordersRowOf arbsAt ebo = none := by
  unfold isOrderMessage at h
  unfold ordersRowOf
  split at h <;> simp_all

theorem excessFillRowOf_eq_none (ebo : ClientEbo) (h : isOrderMessage ebo = false) :
    excessFillRowOf ebo = none := by
  unfold isOrderMessage at h
  unfold excessFillRowOf
  split at h <;> simp_all

/-! ## §4 Rows of executions -/

/-- The row that an execution puts into the `orders` table, if it says anything. -/
def executionOrder (arbsAt : CorrelationId → ArbsTable) (x : Execution) : Option OrdersRow :=
  x.messages.findSome? (ordersRowOf arbsAt)

/-- The row that it puts into the `excess_fill` table, if its hedge was accepted. -/
def executionHedge (x : Execution) : Option ExcessFillRow :=
  x.messages.findSome? excessFillRowOf

/-- An execution puts at most one row into each table, under the id that it drew. -/
theorem execution_rows (arbsAt : CorrelationId → ArbsTable) (x : Execution) :
    x.messages.filterMap (ordersRowOf arbsAt) = (executionOrder arbsAt x).toList ∧
    x.messages.filterMap excessFillRowOf = (executionHedge x).toList ∧
    (∀ row, executionOrder arbsAt x = some row → row.correlationId = x.ans.messageId) ∧
    ∀ row, executionHedge x = some row → row.correlationId = x.ans.messageId := by
  unfold executionOrder executionHedge
  rcases x.messages_shape with h | ⟨entry, report, h⟩
  · rw [h]
    refine ⟨rfl, rfl, ?_, ?_⟩
    · intro row hrow
      cases hrow
    · intro row hrow
      cases hrow
  · -- both messages carry the id that the execution drew
    rw [h]
    cases report with
    | none =>
      refine ⟨rfl, rfl, ?_, ?_⟩
      · intro row hrow
        cases hrow
        rfl
      · intro row hrow
        cases hrow
    | some r =>
      refine ⟨rfl, rfl, ?_, ?_⟩ <;> intro row hrow <;> cases hrow <;> rfl

/-- The rows of the messages of executions are the rows of the executions. -/
theorem filterMap_messages {ρ : Type} {row : ClientEbo → Option ρ}
    {ofExecution : Execution → Option ρ}
    (h : ∀ x : Execution, x.messages.filterMap row = (ofExecution x).toList)
    (execs : List Execution) :
    (execs.flatMap Execution.messages).filterMap row = execs.filterMap ofExecution := by
  induction execs with
  | nil => rfl
  | cons x execs ih =>
    rw [List.flatMap_cons, List.filterMap_append, ih, h]
    cases hx : ofExecution x with
    | none => rw [List.filterMap_cons_none hx]; rfl
    | some r => rw [List.filterMap_cons_some hx]; rfl

/-- The row of the join that an execution makes. -/
def executionRow (arbsAt : CorrelationId → ArbsTable) (x : Execution) :
    Option (OrdersRow × Option ExcessFillRow) :=
  (executionOrder arbsAt x).map fun order => (order, executionHedge x)

section Received

variable (arbsAt : CorrelationId → ArbsTable) {execs : List Execution} {arrived : List ClientEbo}

/-- The rows that arrive in one of the tables are those of the executions, in some order. -/
theorem arrived_rows {ρ : Type} {row : ClientEbo → Option ρ} {ofExecution : Execution → Option ρ}
    (hnone : ∀ ebo, isOrderMessage ebo = false → row ebo = none)
    (hrow : ∀ x : Execution, x.messages.filterMap row = (ofExecution x).toList)
    (harrived : (arrived.filter isOrderMessage).Perm (execs.flatMap Execution.messages)) :
    (arrived.filterMap row).Perm (execs.filterMap ofExecution) := by
  have h := harrived.filterMap row
  rwa [filterMap_filter_of_none hnone, filterMap_messages hrow] at h

/-- A quiet execution puts no order into the tables, -/
theorem executionOrder_of_not_speaks (x : Execution) (h : x.speaks = false) :
    executionOrder arbsAt x = none := by
  rw [executionOrder, Execution.messages_of_not_speaks h]
  rfl

/-- and no hedge. -/
theorem executionHedge_of_not_speaks (x : Execution) (h : x.speaks = false) :
    executionHedge x = none := by
  rw [executionHedge, Execution.messages_of_not_speaks h]
  rfl

/-- **No row is refused**: the tables have the rows of the executions. -/
theorem rows_receiveAll
    (hids : ((execs.filter Execution.speaks).map fun x => x.ans.messageId).Nodup)
    (harrived : (arrived.filter isOrderMessage).Perm (execs.flatMap Execution.messages)) :
    (OrderTables.empty.receiveAll arbsAt arrived).orders.rows.Perm
        (execs.filterMap (executionOrder arbsAt)) ∧
      (OrderTables.empty.receiveAll arbsAt arrived).excessFill.rows.Perm
        (execs.filterMap executionHedge) := by
  -- in each table the keys are ids of executions that speak
  have hall : ∀ {ρ : Type} {key : ρ → CorrelationId} {rows : List ρ} {row : Execution → Option ρ},
      rows.Perm (execs.filterMap row) → (∀ x : Execution, x.speaks = false → row x = none) →
      (∀ x r, row x = some r → key r = x.ans.messageId) →
      (UniqueTable.empty.insertAll rows : UniqueTable ρ key).rows = rows := by
    intro ρ key rows row hrows hquiet hkey
    apply UniqueTable.rows_insertAll
    rw [← filterMap_filter_of_none hquiet] at hrows
    exact ((hrows.map key).nodup_iff).mpr
      (hids.sublist (map_filterMap_sublist fun x _ => hkey x))
  have horders := arrived_rows (ordersRowOf_eq_none arbsAt)
    (fun x => (execution_rows arbsAt x).1) harrived
  have hhedges := arrived_rows excessFillRowOf_eq_none
    (fun x => (execution_rows arbsAt x).2.1) harrived
  rw [receiveAll_eq]
  constructor
  · show (UniqueTable.empty.insertAll _).rows.Perm _
    rw [hall horders (executionOrder_of_not_speaks arbsAt)
      fun x => (execution_rows arbsAt x).2.2.1]
    exact horders
  · show (UniqueTable.empty.insertAll _).rows.Perm _
    rw [hall hhedges executionHedge_of_not_speaks fun x => (execution_rows arbsAt x).2.2.2]
    exact hhedges

/-- **The join has the rows that the executions make.** -/
theorem joined_receiveAll
    (hids : ((execs.filter Execution.speaks).map fun x => x.ans.messageId).Nodup)
    (harrived : (arrived.filter isOrderMessage).Perm (execs.flatMap Execution.messages)) :
    (OrderTables.empty.receiveAll arbsAt arrived).joined.Perm
      (execs.filterMap (executionRow arbsAt)) := by
  obtain ⟨horders, hhedges⟩ := rows_receiveAll arbsAt hids harrived
  rw [← filterMap_filter_of_none (executionOrder_of_not_speaks arbsAt)] at horders
  rw [← filterMap_filter_of_none executionHedge_of_not_speaks] at hhedges
  have hjoin := leftJoin_perm (f := OrdersRow.correlationId) (g := ExcessFillRow.correlationId)
    horders hhedges
  rw [leftJoin_filterMap hids (fun x _ => (execution_rows arbsAt x).2.2.1)
    fun x _ => (execution_rows arbsAt x).2.2.2] at hjoin
  have hquiet : ∀ x : Execution, x.speaks = false → executionRow arbsAt x = none := by
    intro x hx
    rw [executionRow, executionOrder_of_not_speaks arbsAt x hx]
    rfl
  rw [← filterMap_filter_of_none hquiet]
  exact hjoin

/-- A hedge is told only behind its order. -/
theorem executionRow_hedge (x : Execution) :
    (executionRow arbsAt x).bind Prod.snd = executionHedge x := by
  unfold executionRow executionOrder executionHedge
  rcases x.messages_shape with h | ⟨entry, report, h⟩
  · rw [h]
    rfl
  · rw [h]
    rfl

/-- **No hedge is left out of the join**, and none stands in it twice. -/
theorem hedges_joined
    (hids : ((execs.filter Execution.speaks).map fun x => x.ans.messageId).Nodup)
    (harrived : (arrived.filter isOrderMessage).Perm (execs.flatMap Execution.messages)) :
    ((OrderTables.empty.receiveAll arbsAt arrived).joined.filterMap Prod.snd).Perm
      (OrderTables.empty.receiveAll arbsAt arrived).excessFill.rows := by
  apply ((joined_receiveAll arbsAt hids harrived).filterMap Prod.snd).trans
  rw [List.filterMap_filterMap]
  simp only [executionRow_hedge]
  exact (rows_receiveAll arbsAt hids harrived).2.symm

/-- An execution says nothing but messages about orders. -/
theorem isOrderMessage_of_mem {x : Execution} {ebo : ClientEbo} (h : ebo ∈ x.messages) :
    isOrderMessage ebo = true := by
  rcases x.messages_shape with hx | ⟨entry, report, hx⟩
  · rw [hx] at h
    cases h
  · rw [hx, List.mem_cons] at h
    rcases h with rfl | h
    · rfl
    · obtain ⟨r, -, rfl⟩ := List.mem_map.mp h
      rfl

/-- **The tables after a run**: when the executor's messages have been received in the order in
    which it sent them, the join has the rows of the executions of the run. -/
theorem joined_of_run {cfg : Config} {x x' : Executor} {as : List ExecAction}
    (h : run (Executor.step cfg) x as = some x') (hx : x.pc.effects = [])
    (hx' : x'.pc.effects = [])
    (hids : (((trace (begunExecutions cfg) (Executor.step cfg) x as).filter
      Execution.speaks).map fun x => x.ans.messageId).Nodup) :
    (OrderTables.empty.receiveAll arbsAt
      (trace sentMessages (Executor.step cfg) x as)).joined.Perm
        ((trace (begunExecutions cfg) (Executor.step cfg) x as).filterMap
          (executionRow arbsAt)) := by
  apply joined_receiveAll arbsAt hids
  rw [Executor.trace_messages h hx hx', List.filter_eq_self.mpr]
  intro ebo hebo
  obtain ⟨y, -, hy⟩ := List.mem_flatMap.mp hebo
  exact isOrderMessage_of_mem hy

/-- **Orders stand beside their hedges**: every execution is told truthfully, and whatever the
    order in which the messages of executions with distinct ids arrive, and whatever messages
    arrive among them, the orders page shows each order that was told once, beside the hedge of
    its own execution if that was accepted. -/
theorem orders_beside_hedges (execs : List Execution) (arrived : List ClientEbo)
    (hids : ((execs.filter Execution.speaks).map fun x => x.ans.messageId).Nodup)
    (harrived : (arrived.filter isOrderMessage).Perm (execs.flatMap Execution.messages)) :
    (∀ x : Execution, x.Truthful) ∧
    (∃ rows : List GetOrderWithExcessRow,
      rows.Perm ((execs.filterMap (executionRow arbsAt)).map selectColumns) ∧
      ∀ limit, (OrderTables.empty.receiveAll arbsAt arrived).getOrderWithExcess limit =
        rows.take limit) ∧
    ((OrderTables.empty.receiveAll arbsAt arrived).joined.filterMap Prod.snd).Perm
      (OrderTables.empty.receiveAll arbsAt arrived).excessFill.rows := by
  refine ⟨Execution.truthful_messages, ⟨_, ?_, fun _ => rfl⟩,
    hedges_joined arbsAt hids harrived⟩
  apply (List.mergeSort_perm _ _).trans
  exact (joined_receiveAll arbsAt hids harrived).map selectColumns

end Received

/-- One execution of the sample request whose fills differ and whose hedge is accepted, and one
    that fills both legs alike. -/
def sampleExecutions : List Execution :=
  [⟨sampleConfig, sampleFunds, { unevenAnswers with messageId := "a" }, sampleRequest⟩,
    ⟨sampleConfig, sampleFunds, { filledAnswers "50.00" 50000000 with messageId := "b" },
      sampleRequest⟩]

/-- Their messages arrive in reverse, behind a message about nothing of the tables. -/
def sampleArrived : List ClientEbo :=
  { action := .deleteRunningArbs ["x"] } :: (sampleExecutions.flatMap Execution.messages).reverse

theorem orders_beside_hedges_sample :
    (sampleExecutions.filterMap (executionRow fun _ => ⟨[], List.nodup_nil⟩)).map
        (fun row => (row.1.correlationId, row.2.map ExcessFillRow.correlationId)) =
      [("a", some "a"), ("b", none)] ∧
    ∃ rows : List GetOrderWithExcessRow,
      rows.Perm ((sampleExecutions.filterMap
        (executionRow fun _ => ⟨[], List.nodup_nil⟩)).map selectColumns) ∧
      ∀ limit, (OrderTables.empty.receiveAll (fun _ => ⟨[], List.nodup_nil⟩)
        sampleArrived).getOrderWithExcess limit = rows.take limit :=
  ⟨by decide +kernel,
    (orders_beside_hedges (fun _ => ⟨[], List.nodup_nil⟩) sampleExecutions sampleArrived
      (by decide +kernel) (by decide +kernel)).2.1⟩

end Degenerate.Web
