import Degenerate.Web.OrderTables

/-!
# `ProcessEbo`

The server runs the database statement that the action of a message asks for.  Here the
messages are those of the wire, with every action and every payload that can be missing, and
each statement of a call gets an answer of its own, so that a call can be asked whether the
error that it returns is the truth about its statements.

## Main Results

- `processEbo_truthful_iff`: when the error of a call tells whether it did what was asked
- `arbs_processEbo`, `orders_processEbo`: a message of the bot changes the tables, and is
  answered, as the tables of the dashboard say
-/

namespace Degenerate.Web

open Degenerate.Lib Degenerate.Picker Degenerate.Grpc

/-! ## §1 The messages of the wire -/

namespace Protos

/-- `OrderMade`. -/
structure OrderMade where
  anchorCost : F32
  matchCost : F32
  anchorFill : F32
  matchFill : F32
  excessFill : F32
  anchorOrderId : String
  matchOrderId : String
  arbCorrelationId : CorrelationId

/-- `ExcessFillOrderMade`. -/
structure ExcessFillOrderMade where
  orderId : String
  /-- The number of a `Platform`. -/
  platform : ℤ
  excessFillSize : F32
  excessFillCost : F32

/-- `RunningArbsRequest`. -/
structure RunningArbsRequest where
  /-- The number of an `ArbType`. -/
  arbType : ℤ

/-- `DeleteRunningArbRequest`. -/
structure DeleteRunningArbRequest where
  correlationIds : List CorrelationId

/-- `isClientEbo_Action`; the payload of an action can be nil. -/
inductive Action where
  | crossPlatformHit (hit : Option SimilarityHit)
  | intraPlatformHit (hit : Option SimilarityHit)
  | crossPlatformArb (arb : Option Arb)
  | intraPlatformArb (arb : Option Arb)
  | getRunningArbs (req : Option RunningArbsRequest)
  | deleteRunningArbs (req : Option DeleteRunningArbRequest)
  | orderSubmitted (req : Option OrderMade)
  | excessFillSubmitted (req : Option ExcessFillOrderMade)

/-- `ClientEbo`. -/
structure ClientEbo where
  correlationId : CorrelationId := ""
  actionAt : ℤ := 0
  action : Option Action := none

/-- `ArbType_CROSS_PLATFORM`. -/
def arbTypeCrossPlatform : ℤ := 0

/-- `ArbType_INTRA_PLATFORM`. -/
def arbTypeIntraPlatform : ℤ := 1

/-- `Platform.String`: a number without a name is written out. -/
def platformString (platform : ℤ) : String :=
  ((Platform.tryFrom platform).map Platform.asStrName).getD (toString platform)

end Protos

/-! ## §2 Statements -/

/-- `InsertOrderParams`. -/
structure InsertOrderParams where
  orderCorrelationId : CorrelationId
  foundAt : ℤ
  arbCorrelationId : CorrelationId
  anchorCost : Decimal
  matchCost : Decimal
  anchorFill : Decimal
  matchFill : Decimal
  excessFill : Decimal
  anchorOrderId : String
  matchOrderId : String

/-- `InsertExcessFillParams`. -/
structure InsertExcessFillParams where
  correlationId : CorrelationId
  foundAt : ℤ
  platform : String
  orderId : String
  fillSize : Decimal
  fillCost : Decimal

/-- The statements that `ProcessEbo` performs. -/
inductive Statement where
  | insertNewSimilarityHit (correlationId : CorrelationId) (foundAt : ℤ) (similarityHit : String)
      (arbType : ArbType)
  | insertNewArb (correlationId : CorrelationId) (foundAt : ℤ) (arbs : String) (arbType : ArbType)
  | getRunningArbs (arbType : ArbType)
  | deleteArb (correlationId : CorrelationId)
  | insertOrder (params : InsertOrderParams)
  | insertExcessFill (params : InsertExcessFillParams)

/-- What the database answers to the statements of a call, the first one being number zero: an
    error, or the rows that are selected. -/
abbrev Answers := ℕ → Statement → Except String (List ArbsRow)

/-- A statement with its answer. -/
structure Performed where
  statement : Statement
  answer : Except String (List ArbsRow)

/-- How a call ends. -/
inductive Outcome where
  | returned (reply : Option ServerEbo) (err : Option String)
  | panicked

/-- One call of `ProcessEbo`. -/
structure Call where
  performed : List Performed := []
  outcome : Outcome

/-- `return nil, err`, with nothing performed. -/
def Call.fail (err : String) : Call where
  outcome := .returned none (some err)

/-- Return the error of one statement. -/
def Call.exec (ans : Answers) (s : Statement) : Call where
  performed := [⟨s, ans 0 s⟩]
  outcome := .returned none <|
    match ans 0 s with
    | .error e => some e
    | .ok _ => none

/-- Go on with the payload, unless it is nil. -/
def Call.withPayload {α : Type} (payload : Option α) (next : α → Call) : Call :=
  payload.elim (.fail "got nil from client") next

/-! ## §3 The call -/

/-- The JSON encoders; they are taken to succeed. -/
structure Encoders where
  /-- `protojson.Marshal` of a hit. -/
  hit : SimilarityHit → String
  /-- `frontend.ProtoMarshaler.Marshal` of a hit. -/
  frontendHit : SimilarityHit → String
  /-- `protojson.Marshal` of an arb. -/
  arb : Arb → String

/-- The answer to `GetRunningArbs`: rows that do not unmarshal are skipped. -/
def ServerEbo.ofRunningArbs (runningArbs : List ArbsRow) : ServerEbo :=
  let found := runningArbs.filterMap fun arb => arb.arbs.map fun ebo => (ebo, arb.correlationId)
  .runningArbsResponse (found.map Prod.fst) (found.map Prod.snd)

/-- Answer with the running arbs. -/
def Call.getRunningArbs (ans : Answers) : Call where
  performed := [⟨.getRunningArbs .cross, ans 0 (.getRunningArbs .cross)⟩]
  outcome :=
    match ans 0 (.getRunningArbs .cross) with
    | .error e => .returned none (some ("got error from db: " ++ e))
    | .ok runningArbs => .returned (some (.ofRunningArbs runningArbs)) none

/-- One delete for each id. -/
def deleteArbs (ans : Answers) (correlationIds : List CorrelationId) : List Performed :=
  correlationIds.mapIdx fun i cid => ⟨.deleteArb cid, ans i (.deleteArb cid)⟩

/-- The parameters of an order; `decimal.NewFromFloat32` panics when a float is not finite. -/
def insertOrderParams (ebo : Protos.ClientEbo) (req : Protos.OrderMade) :
    Option InsertOrderParams := do
  let anchorCost ← req.anchorCost.toDecimal
  let matchCost ← req.matchCost.toDecimal
  let anchorFill ← req.anchorFill.toDecimal
  let matchFill ← req.matchFill.toDecimal
  let excessFill ← req.excessFill.toDecimal
  return {
    orderCorrelationId := ebo.correlationId
    foundAt := ebo.actionAt
    arbCorrelationId := req.arbCorrelationId
    anchorCost, matchCost, anchorFill, matchFill, excessFill
    anchorOrderId := req.anchorOrderId
    matchOrderId := req.matchOrderId }

/-- The parameters of a hedge. -/
def insertExcessFillParams (ebo : Protos.ClientEbo) (req : Protos.ExcessFillOrderMade) :
    Option InsertExcessFillParams := do
  let fillSize ← req.excessFillSize.toDecimal
  let fillCost ← req.excessFillCost.toDecimal
  return {
    correlationId := ebo.correlationId
    foundAt := ebo.actionAt
    platform := Protos.platformString req.platform
    orderId := req.orderId
    fillSize, fillCost }

/-- Perform the statement that was built, unless building it panicked. -/
def Call.execBuilt (ans : Answers) (s : Option Statement) : Call :=
  s.elim { outcome := .panicked } (.exec ans)

/-- `ProcessEbo`.  Here `describe` is the text of a message in an error (`%+v`). -/
def processEbo (enc : Encoders) (describe : Protos.ClientEbo → String) (ans : Answers)
    (ebo : Protos.ClientEbo) : Call :=
  match ebo.action with
  | some (.crossPlatformHit p) => .withPayload p fun hit =>
      .exec ans (.insertNewSimilarityHit ebo.correlationId ebo.actionAt (enc.hit hit) .cross)
  | some (.intraPlatformHit p) => .withPayload p fun hit =>
      .exec ans
        (.insertNewSimilarityHit ebo.correlationId ebo.actionAt (enc.frontendHit hit) .intra)
  | some (.crossPlatformArb p) => .withPayload p fun arb =>
      .exec ans (.insertNewArb ebo.correlationId ebo.actionAt (enc.arb arb) .cross)
  | some (.intraPlatformArb p) => .withPayload p fun arb =>
      .exec ans (.insertNewArb ebo.correlationId ebo.actionAt (enc.arb arb) .intra)
  | some (.getRunningArbs p) => .withPayload p fun req =>
      if req.arbType = Protos.arbTypeCrossPlatform then .getRunningArbs ans
      else if req.arbType = Protos.arbTypeIntraPlatform then
        .fail "protos.ArbType_INTRA_PLATFORM not implemented"
      else .fail "arbType not supported"
  | some (.deleteRunningArbs p) => .withPayload p fun req => {
      -- an error of a delete is logged; the case has no return
      performed := deleteArbs ans req.correlationIds
      outcome := .returned none (some ("received unknown Action: " ++ describe ebo)) }
  | some (.orderSubmitted p) => .withPayload p fun req =>
      .execBuilt ans ((insertOrderParams ebo req).map .insertOrder)
  | some (.excessFillSubmitted p) => .withPayload p fun req =>
      .execBuilt ans ((insertExcessFillParams ebo req).map .insertExcessFill)
  | none => .fail "received Ebo with empty payload"

/-! ## §4 What an error says -/

/-- A nil error came back. -/
def Outcome.isNil : Outcome → Bool
  | .returned _ none => true
  | .returned _ (some _) => false
  | .panicked => false

/-- Every statement of the call succeeded. -/
def Call.Succeeds (c : Call) : Prop := ∀ p ∈ c.performed, p.answer.isOk = true

/-- **Truthful errors**: there is no error exactly when what was asked is supported and every
    statement succeeded. -/
def Call.Truthful (supported : Prop) (c : Call) : Prop :=
  c.outcome.isNil = true ↔ supported ∧ c.Succeeds

/-- The action is one that the server supports, and its payload is not nil. -/
def Protos.Action.supported : Protos.Action → Bool
  | .crossPlatformHit p => p.isSome
  | .intraPlatformHit p => p.isSome
  | .crossPlatformArb p => p.isSome
  | .intraPlatformArb p => p.isSome
  | .getRunningArbs p => p.any fun req => req.arbType = Protos.arbTypeCrossPlatform
  | .deleteRunningArbs p => p.isSome
  | .orderSubmitted p => p.isSome
  | .excessFillSubmitted p => p.isSome

/-- There is a supported action with a payload. -/
def Protos.ClientEbo.Supported (ebo : Protos.ClientEbo) : Prop :=
  ebo.action.any Protos.Action.supported = true

/-- If deletes are asked for, one of them is refused. -/
def Protos.ClientEbo.SomeDeleteFails (ebo : Protos.ClientEbo) (ans : Answers) : Prop :=
  ∀ req, ebo.action = some (.deleteRunningArbs (some req)) →
    ∃ i cid e, req.correlationIds[i]? = some cid ∧ ans i (.deleteArb cid) = .error e

/-- The floats of an order are finite. -/
def Protos.OrderMade.finite (req : Protos.OrderMade) : Bool :=
  [req.anchorCost, req.matchCost, req.anchorFill, req.matchFill, req.excessFill].all
    fun x => x.toDecimal.isSome

/-- The floats of a hedge are finite. -/
def Protos.ExcessFillOrderMade.finite (req : Protos.ExcessFillOrderMade) : Bool :=
  [req.excessFillSize, req.excessFillCost].all fun x => x.toDecimal.isSome

/-- If the message reports an order or a hedge, its floats are finite. -/
def Protos.Action.finite : Protos.Action → Bool
  | .orderSubmitted p => p.all Protos.OrderMade.finite
  | .excessFillSubmitted p => p.all Protos.ExcessFillOrderMade.finite
  | _ => true

/-- The floats of the message are finite. -/
def Protos.ClientEbo.FiniteFloats (ebo : Protos.ClientEbo) : Prop :=
  ebo.action.all Protos.Action.finite = true

/-! ### The ways to return -/

theorem succeeds_nil (o : Outcome) : (Call.mk [] o).Succeeds := List.forall_mem_nil _

/-- A call that performs nothing and does not return nil is truthful when nothing that is
    supported was asked for. -/
theorem truthful_nil_iff {supported : Prop} {o : Outcome} (ho : o.isNil = false) :
    (Call.mk [] o).Truthful supported ↔ ¬ supported := by
  show (o.isNil = true ↔ supported ∧ (Call.mk [] o).Succeeds) ↔ _
  simp [ho, succeeds_nil]

theorem truthful_fail_iff {supported : Prop} (err : String) :
    (Call.fail err).Truthful supported ↔ ¬ supported :=
  truthful_nil_iff rfl

/-- A call that performs one statement is truthful when it returns nil after a success. -/
theorem truthful_single {supported : Prop} (h : supported) {p : Performed} {o : Outcome}
    (ho : o.isNil = p.answer.isOk) : (Call.mk [p] o).Truthful supported := by
  have hsucceeds : (Call.mk [p] o).Succeeds ↔ p.answer.isOk = true := List.forall_mem_singleton
  unfold Call.Truthful
  rw [hsucceeds, and_iff_right h]
  show o.isNil = true ↔ p.answer.isOk = true
  rw [ho]

/-- **One statement**: its own error is the truth about it. -/
theorem truthful_exec {supported : Prop} (h : supported) (ans : Answers) (s : Statement) :
    (Call.exec ans s).Truthful supported := by
  apply truthful_single h
  show Outcome.isNil (.returned none _) = (ans 0 s).isOk
  cases ans 0 s with
  | error e => rfl
  | ok rows => rfl

theorem truthful_getRunningArbs {supported : Prop} (h : supported) (ans : Answers) :
    (Call.getRunningArbs ans).Truthful supported := by
  apply truthful_single h
  show _ = (ans 0 (.getRunningArbs .cross)).isOk
  cases ans 0 (.getRunningArbs .cross) with
  | error e => rfl
  | ok rows => rfl

/-- **A statement that is built first**: a panic is no error, and it says nothing. -/
theorem truthful_execBuilt_iff {supported : Prop} (h : supported) (ans : Answers)
    (s : Option Statement) : (Call.execBuilt ans s).Truthful supported ↔ s.isSome = true := by
  cases s with
  | none =>
    apply (truthful_nil_iff rfl).trans
    simp [h]
  | some s => exact iff_of_true (truthful_exec h ans s) rfl

/-- A nil payload is refused, and everything else is up to what follows. -/
theorem truthful_withPayload_iff {α : Type} (supported : Option α → Prop)
    (hnone : ¬ supported none) (payload : Option α) (next : α → Call) :
    (Call.withPayload payload next).Truthful (supported payload) ↔
      ∀ x, payload = some x → (next x).Truthful (supported (some x)) := by
  cases payload with
  | none =>
    apply iff_of_true ((truthful_fail_iff _).mpr hnone)
    intro x hx
    cases hx
  | some x =>
    constructor
    · intro h y hy
      cases hy
      exact h
    · intro h
      exact h x rfl

/-- **Statements with a payload**: every action that performs one statement. -/
theorem truthful_withPayload_exec {α : Type} (ans : Answers) (payload : Option α)
    (s : α → Statement) :
    (Call.withPayload payload fun x => .exec ans (s x)).Truthful (payload.isSome = true) := by
  apply (truthful_withPayload_iff (fun p => p.isSome = true) Bool.false_ne_true
    payload _).mpr
  intro x _
  exact truthful_exec rfl ans (s x)

/-- The actions that build their statement first. -/
theorem truthful_withPayload_execBuilt_iff {α : Type} (ans : Answers) (payload : Option α)
    (s : α → Option Statement) :
    (Call.withPayload payload fun x => .execBuilt ans (s x)).Truthful (payload.isSome = true) ↔
      payload.all (fun x => (s x).isSome) = true := by
  rw [truthful_withPayload_iff (fun p => p.isSome = true) Bool.false_ne_true,
    Option.all_eq_true]
  apply forall_congr'
  intro x
  apply imp_congr_right
  intro _
  exact truthful_execBuilt_iff rfl ans (s x)

/-! ### The deletes -/

/-- The deletes succeed when none of them is refused. -/
theorem succeeds_deleteArbs_iff (ans : Answers) (cids : List CorrelationId) (o : Outcome) :
    (Call.mk (deleteArbs ans cids) o).Succeeds ↔
      ¬ ∃ i cid e, cids[i]? = some cid ∧ ans i (.deleteArb cid) = .error e := by
  show (∀ p ∈ deleteArbs ans cids, p.answer.isOk = true) ↔ _
  constructor
  · rintro h ⟨i, cid, e, hi, he⟩
    have hmem : (⟨.deleteArb cid, ans i (.deleteArb cid)⟩ : Performed) ∈ deleteArbs ans cids := by
      apply List.mem_of_getElem? (i := i)
      rw [deleteArbs, List.getElem?_mapIdx, hi]
      rfl
    have hok := h _ hmem
    rw [show (Performed.mk (.deleteArb cid) (ans i (.deleteArb cid))).answer = .error e from he]
      at hok
    cases hok
  · intro h p hp
    -- the delete at position `i` has the answer at that position
    obtain ⟨i, hi, rfl⟩ := List.mem_mapIdx.mp hp
    show (ans i (.deleteArb cids[i])).isOk = true
    cases he : ans i (.deleteArb cids[i]) with
    | error e => exact absurd ⟨i, _, e, List.getElem?_eq_getElem hi, he⟩ h
    | ok rows => rfl

/-- **Deletes**: the call always ends with an error, which is the truth when one of them is
    refused. -/
theorem truthful_deleteArbs_iff {supported : Prop} (h : supported) (ans : Answers)
    (cids : List CorrelationId) (err : String) :
    (Call.mk (deleteArbs ans cids) (.returned none (some err))).Truthful supported ↔
      ∃ i cid e, cids[i]? = some cid ∧ ans i (.deleteArb cid) = .error e := by
  unfold Call.Truthful
  rw [succeeds_deleteArbs_iff, and_iff_right h]
  show (false = true ↔ _) ↔ _
  have hfalse : ∀ fails : Prop, (false = true ↔ ¬ fails) ↔ fails := by simp
  exact hfalse _

/-! ### The floats -/

/-- What is built step by step is there when each step is. -/
theorem isSome_bind_of_forall {α β : Type} (x : Option α) {f : α → Option β} {b : Bool}
    (h : ∀ a, (f a).isSome = b) : (x >>= f).isSome = (x.isSome && b) := by
  cases x with
  | none => rfl
  | some a => exact h a

theorem isSome_insertOrderParams (ebo : Protos.ClientEbo) (req : Protos.OrderMade) :
    (insertOrderParams ebo req).isSome = req.finite := by
  unfold insertOrderParams Protos.OrderMade.finite
  simp only [List.all_cons, List.all_nil]
  apply isSome_bind_of_forall
  intro anchorCost
  apply isSome_bind_of_forall
  intro matchCost
  apply isSome_bind_of_forall
  intro anchorFill
  apply isSome_bind_of_forall
  intro matchFill
  apply isSome_bind_of_forall
  intro excessFill
  rfl

theorem isSome_insertExcessFillParams (ebo : Protos.ClientEbo)
    (req : Protos.ExcessFillOrderMade) :
    (insertExcessFillParams ebo req).isSome = req.finite := by
  unfold insertExcessFillParams Protos.ExcessFillOrderMade.finite
  simp only [List.all_cons, List.all_nil]
  apply isSome_bind_of_forall
  intro fillSize
  apply isSome_bind_of_forall
  intro fillCost
  rfl

/-! ### Every action -/

section Truthful

variable (enc : Encoders) (describe : Protos.ClientEbo → String) (ans : Answers)

/-- An action without deletes and without floats that are not finite meets both conditions. -/
theorem meets_of_ne {ebo : Protos.ClientEbo}
    (hdelete : ∀ req, ebo.action ≠ some (.deleteRunningArbs (some req)))
    (hfinite : ebo.FiniteFloats) : ebo.SomeDeleteFails ans ∧ ebo.FiniteFloats := by
  refine ⟨?_, hfinite⟩
  intro req hreq
  exact absurd hreq (hdelete req)

/-- The running arbs of one kind can be asked for. -/
theorem truthful_processEbo_getRunningArbs (ebo : Protos.ClientEbo)
    (p : Option Protos.RunningArbsRequest) (h : ebo.action = some (.getRunningArbs p)) :
    (processEbo enc describe ans ebo).Truthful ebo.Supported := by
  unfold processEbo Protos.ClientEbo.Supported
  rw [h]
  show (Call.withPayload p _).Truthful
    (p.any (fun req => req.arbType = Protos.arbTypeCrossPlatform) = true)
  apply (truthful_withPayload_iff (fun p => p.any (fun req : Protos.RunningArbsRequest =>
    req.arbType = Protos.arbTypeCrossPlatform) = true) Bool.false_ne_true p _).mpr
  intro req _
  -- only the cross-platform arbs are kept; the other two branches refuse
  by_cases hcross : req.arbType = Protos.arbTypeCrossPlatform
  · rw [if_pos hcross]
    exact truthful_getRunningArbs (decide_eq_true hcross) ans
  · have hsupported : ¬ decide (req.arbType = Protos.arbTypeCrossPlatform) = true := by
      rwa [decide_eq_true_eq]
    rw [if_neg hcross]
    split
    · exact (truthful_fail_iff _).mpr hsupported
    · exact (truthful_fail_iff _).mpr hsupported

/-- Deletes can be asked for, and the answer is an error. -/
theorem truthful_processEbo_deleteRunningArbs_iff (ebo : Protos.ClientEbo)
    (p : Option Protos.DeleteRunningArbRequest)
    (h : ebo.action = some (.deleteRunningArbs p)) :
    (processEbo enc describe ans ebo).Truthful ebo.Supported ↔ ebo.SomeDeleteFails ans := by
  unfold processEbo Protos.ClientEbo.Supported Protos.ClientEbo.SomeDeleteFails
  rw [h]
  show (Call.withPayload p _).Truthful (p.isSome = true) ↔ _
  rw [truthful_withPayload_iff (fun p => p.isSome = true) Bool.false_ne_true]
  apply forall_congr'
  intro req
  rw [Option.some.injEq, Protos.Action.deleteRunningArbs.injEq]
  apply imp_congr_right
  intro _
  exact truthful_deleteArbs_iff rfl ans req.correlationIds _

/-- **Truthful errors**: a call returns a nil error exactly when its action is a supported one
    with a payload and every statement succeeds, unless it is asked for deletes and every one
    of them succeeds, or is told floats that are not finite. -/
theorem processEbo_truthful_iff (ebo : Protos.ClientEbo) :
    (processEbo enc describe ans ebo).Truthful ebo.Supported ↔
      ebo.SomeDeleteFails ans ∧ ebo.FiniteFloats := by
  obtain ⟨cid, at', action⟩ := ebo
  cases action with
  | none =>
    apply iff_of_true ((truthful_fail_iff _).mpr Bool.false_ne_true)
    exact meets_of_ne ans (fun req hreq => by cases hreq) rfl
  | some action =>
    cases action with
    | crossPlatformHit p =>
      apply iff_of_true (truthful_withPayload_exec ans p _)
      exact meets_of_ne ans (fun req hreq => by cases hreq) rfl
    | intraPlatformHit p =>
      apply iff_of_true (truthful_withPayload_exec ans p _)
      exact meets_of_ne ans (fun req hreq => by cases hreq) rfl
    | crossPlatformArb p =>
      apply iff_of_true (truthful_withPayload_exec ans p _)
      exact meets_of_ne ans (fun req hreq => by cases hreq) rfl
    | intraPlatformArb p =>
      apply iff_of_true (truthful_withPayload_exec ans p _)
      exact meets_of_ne ans (fun req hreq => by cases hreq) rfl
    | getRunningArbs p =>
      apply iff_of_true (truthful_processEbo_getRunningArbs enc describe ans _ p rfl)
      exact meets_of_ne ans (fun req hreq => by cases hreq) rfl
    | deleteRunningArbs p =>
      rw [truthful_processEbo_deleteRunningArbs_iff enc describe ans _ p rfl]
      exact (and_iff_left rfl).symm
    | orderSubmitted p =>
      -- the statement is built unless a float is not finite
      apply (truthful_withPayload_execBuilt_iff ans p _).trans
      simp only [Option.isSome_map, isSome_insertOrderParams]
      constructor
      · intro hfinite
        exact meets_of_ne ans (fun req hreq => by cases hreq) hfinite
      · exact And.right
    | excessFillSubmitted p =>
      apply (truthful_withPayload_execBuilt_iff ans p _).trans
      simp only [Option.isSome_map, isSome_insertExcessFillParams]
      constructor
      · intro hfinite
        exact meets_of_ne ans (fun req hreq => by cases hreq) hfinite
      · exact And.right

end Truthful

/-- Encoders that write nothing. -/
def sampleEncoders : Encoders := ⟨fun _ => "", fun _ => "", fun _ => ""⟩

/-- One arb is to be deleted. -/
def sampleDelete : Protos.ClientEbo where
  action := some (.deleteRunningArbs (some ⟨["a"]⟩))

/-- A database in which every statement succeeds. -/
def willing : Answers := fun _ _ => .ok []

/-- **A delete that succeeds is reported as an error.** -/
theorem delete_reported_as_error :
    sampleDelete.Supported ∧
      (processEbo sampleEncoders (fun _ => "") willing sampleDelete).Succeeds ∧
      (processEbo sampleEncoders (fun _ => "") willing sampleDelete).outcome.isNil = false ∧
      ¬ (processEbo sampleEncoders (fun _ => "") willing sampleDelete).Truthful
        sampleDelete.Supported := by
  have hsucceeds : (processEbo sampleEncoders (fun _ => "") willing sampleDelete).Succeeds := by
    intro p hp
    rw [List.mem_singleton.mp hp]
    rfl
  refine ⟨rfl, hsucceeds, rfl, ?_⟩
  intro h
  exact Bool.false_ne_true (h.mpr ⟨rfl, hsucceeds⟩)

/-! ## §5 The tables -/

namespace Protos

/-- The order as the picker knows it. -/
def OrderMade.toBot (req : OrderMade) : Option Picker.OrderMade := do
  let anchorCost ← req.anchorCost.toDecimal
  let matchCost ← req.matchCost.toDecimal
  let anchorFill ← req.anchorFill.toDecimal
  let matchFill ← req.matchFill.toDecimal
  let excessFill ← req.excessFill.toDecimal
  return {
    anchorCost := anchorCost.toRat
    matchCost := matchCost.toRat
    anchorFill := anchorFill.toRat
    matchFill := matchFill.toRat
    excessFill := excessFill.toRat
    anchorOrderId := req.anchorOrderId
    matchOrderId := req.matchOrderId
    arbCorrelationId := req.arbCorrelationId }

/-- The hedge as the picker knows it. -/
def ExcessFillOrderMade.toBot (req : ExcessFillOrderMade) :
    Option Picker.ExcessFillOrderMade := do
  let platform ← Platform.tryFrom req.platform
  let fillSize ← req.excessFillSize.toDecimal
  let fillCost ← req.excessFillCost.toDecimal
  return {
    orderId := req.orderId
    platform
    excessFillSize := fillSize.toRat
    excessFillCost := fillCost.toRat }

/-- The action as the picker knows it, if it is one of the picker's. -/
def Action.toBot : Action → Option ClientAction
  | .crossPlatformArb p => p.map .crossPlatformArb
  | .deleteRunningArbs p => p.map fun req => .deleteRunningArbs req.correlationIds
  | .orderSubmitted p => (p.bind OrderMade.toBot).map .orderSubmitted
  | .excessFillSubmitted p => (p.bind ExcessFillOrderMade.toBot).map .excessFillSubmitted
  | _ => none

end Protos

/-- The message of the wire is one of the bot's. -/
inductive Decodes (ebo : Protos.ClientEbo) : NetworkEbo ClientEbo → Prop
  | getRunningArbs
      (h : ebo.action = some (.getRunningArbs (some ⟨Protos.arbTypeCrossPlatform⟩))) :
      Decodes ebo .getRunningArbs
  | bot {action : ClientAction} (h : ebo.action.bind Protos.Action.toBot = some action) :
      Decodes ebo (.bot ⟨ebo.correlationId, ebo.actionAt, action⟩)

/-- What a statement that succeeds does to the `arbs` table; `unmarshal` reads the JSON back. -/
def Statement.onArbs (unmarshal : String → Option Arb) (t : ArbsTable) : Statement → ArbsTable
  | .insertNewArb correlationId _ arbs arbType =>
      t.insertNewArb { correlationId, arbs := unmarshal arbs, arbType }
  | .deleteArb correlationId => t.deleteArbsBulk [correlationId]
  | _ => t

/-- The `arbs` table after a call. -/
def Call.onArbs (unmarshal : String → Option Arb) (t : ArbsTable) (c : Call) : ArbsTable :=
  c.performed.foldl (fun t p => if p.answer.isOk then p.statement.onArbs unmarshal t else t) t

/-- The message that a call answers with. -/
def Outcome.reply : Outcome → Option ServerEbo
  | .returned reply _ => reply
  | .panicked => none

/-- The id that a statement is about. -/
def Statement.correlationId : Statement → CorrelationId
  | .insertNewSimilarityHit cid _ _ _ => cid
  | .insertNewArb cid _ _ _ => cid
  | .getRunningArbs _ => ""
  | .deleteArb cid => cid
  | .insertOrder params => params.orderCorrelationId
  | .insertExcessFill params => params.correlationId

/-- The rows that a statement selects. -/
def Statement.selected (t : ArbsTable) : Statement → List ArbsRow
  | .getRunningArbs arbType => t.getRunningArbs arbType
  | _ => []

/-- A database with the table, in which the statements about some ids succeed. -/
def ArbsTable.answers (t : ArbsTable) (ok : CorrelationId → Bool) (err : String) : Answers :=
  fun _ s => if ok s.correlationId then .ok (s.selected t) else .error err

section Tables

variable (enc : Encoders) (describe : Protos.ClientEbo → String)

theorem deleteArbsBulk_cons (t : ArbsTable) (cid : CorrelationId) (cids : List CorrelationId) :
    (t.deleteArbsBulk [cid]).deleteArbsBulk cids = t.deleteArbsBulk (cid :: cids) := by
  unfold ArbsTable.deleteArbsBulk
  congr 1
  simp only [List.filter_filter]
  apply List.filter_congr
  intro row _
  rw [← Bool.decide_and, decide_eq_decide, List.mem_singleton, List.mem_cons, not_or]
  exact and_comm

/-- The deletes of a call, when their answers depend on the ids alone. -/
theorem deleteArbs_answers (t : ArbsTable) (ok : CorrelationId → Bool) (err : String)
    (cids : List CorrelationId) : deleteArbs (t.answers ok err) cids =
      cids.map fun cid => ⟨.deleteArb cid, if ok cid then .ok [] else .error err⟩ := by
  apply List.ext_getElem
  · rw [deleteArbs, List.length_mapIdx, List.length_map]
  · intro i hi hi'
    rw [List.getElem_map]
    exact List.getElem_mapIdx

/-- **Deletes, one by one**: the rows of the ids whose delete succeeds are gone. -/
theorem onArbs_deleteArbs (unmarshal : String → Option Arb) (ok : CorrelationId → Bool)
    (err : String) (t : ArbsTable) (cids : List CorrelationId) (o : Outcome) :
    (Call.mk (deleteArbs (t.answers ok err) cids) o).onArbs unmarshal t =
      t.deleteArbsBulk (cids.filter ok) := by
  rw [deleteArbs_answers]
  -- the answers are fixed; the table is not, while the call runs
  have hfold : ∀ (cids : List CorrelationId) (s : ArbsTable),
      (Call.mk (cids.map fun cid => ⟨.deleteArb cid, if ok cid then .ok [] else .error err⟩)
        o).onArbs unmarshal s = s.deleteArbsBulk (cids.filter ok) := by
    intro cids
    induction cids with
    | nil =>
      intro s
      exact s.deleteArbsBulk_nil.symm
    | cons cid cids ih =>
      intro s
      cases hok : ok cid with
      | false =>
        rw [List.filter_cons_of_neg (ne_true_of_eq_false hok), ← ih s]
        simp [Call.onArbs, hok, Except.isOk, Except.toBool]
      | true =>
        rw [List.filter_cons_of_pos hok, ← deleteArbsBulk_cons, ← ih]
        simp [Call.onArbs, hok, Except.isOk, Except.toBool, Statement.onArbs]
  exact hfold cids t

theorem isOk_answers (t : ArbsTable) (ok : CorrelationId → Bool) (err : String) (i : ℕ)
    (s : Statement) : (t.answers ok err i s).isOk = ok s.correlationId := by
  unfold ArbsTable.answers
  cases ok s.correlationId <;> rfl

theorem onArbs_exec (unmarshal : String → Option Arb) (t : ArbsTable) (ans : Answers)
    (s : Statement) : (Call.exec ans s).onArbs unmarshal t =
      if (ans 0 s).isOk then s.onArbs unmarshal t else t :=
  rfl

/-- A statement about another table leaves this one alone, and is not answered. -/
theorem quiet_execBuilt (w : App) (unmarshal : String → Option Arb) (ans : Answers)
    (s : Option Statement) (h : ∀ s', s = some s' → s'.onArbs unmarshal w.arbs = w.arbs) :
    (w, (none : Option ServerEbo)) =
      ({ w with arbs := (Call.execBuilt ans s).onArbs unmarshal w.arbs },
        (Call.execBuilt ans s).outcome.reply) := by
  cases s with
  | none => rfl
  | some s =>
    show (w, none) = (App.mk ((Call.exec ans s).onArbs unmarshal w.arbs) _ _ _ _ _, none)
    rw [onArbs_exec, h s rfl, ite_self]

/-- **The dashboard's tables**: the statements of a call change the `arbs` table, and the call
    is answered, as the dashboard's server does it. -/
theorem arbs_processEbo (w : App) (unmarshal : String → Option Arb) (ok : CorrelationId → Bool)
    (err : String) {ebo : Protos.ClientEbo} {m : NetworkEbo ClientEbo} (h : Decodes ebo m) :
    w.processEbo (fun arb => unmarshal (enc.arb arb)) ok m =
      ({ w with
          arbs := (processEbo enc describe (w.arbs.answers ok err) ebo).onArbs unmarshal w.arbs },
        (processEbo enc describe (w.arbs.answers ok err) ebo).outcome.reply) := by
  cases h with
  -- the rows are read, and the answer goes out if that succeeds
  | getRunningArbs h =>
    have hans : w.arbs.answers ok err 0 (.getRunningArbs .cross) =
        if ok "" then .ok (w.arbs.getRunningArbs .cross) else .error err := rfl
    simp only [processEbo, h, Call.withPayload, Option.elim_some, if_true, Call.getRunningArbs,
      hans, App.processEbo, Call.onArbs, List.foldl_cons, List.foldl_nil, Statement.onArbs,
      ite_self]
    split <;> rfl
  | bot h =>
    obtain ⟨wire, haction, hwire⟩ := Option.bind_eq_some_iff.mp h
    simp only [processEbo, haction]
    cases wire with
    -- one row, if the statement succeeds
    | crossPlatformArb p =>
      obtain ⟨arb, rfl, rfl⟩ := Option.map_eq_some_iff.mp hwire
      refine Prod.ext ?_ rfl
      show (if ok ebo.correlationId then _ else w) =
        App.mk ((Call.exec _ _).onArbs _ _) _ _ _ _ _
      rw [onArbs_exec, isOk_answers]
      show _ = App.mk (if ok ebo.correlationId then _ else _) _ _ _ _ _
      split <;> rfl
    -- one statement for each id
    | deleteRunningArbs p =>
      obtain ⟨req, rfl, rfl⟩ := Option.map_eq_some_iff.mp hwire
      refine Prod.ext ?_ rfl
      show App.mk (w.arbs.deleteArbsBulk (req.correlationIds.filter ok)) _ _ _ _ _ = _
      rw [← onArbs_deleteArbs]
      rfl
    -- the statements of the other messages are about other tables
    | orderSubmitted p =>
      obtain ⟨order, horder, rfl⟩ := Option.map_eq_some_iff.mp hwire
      obtain ⟨req, rfl, -⟩ := Option.bind_eq_some_iff.mp horder
      apply quiet_execBuilt
      intro s hs
      obtain ⟨params, -, rfl⟩ := Option.map_eq_some_iff.mp hs
      rfl
    | excessFillSubmitted p =>
      obtain ⟨order, horder, rfl⟩ := Option.map_eq_some_iff.mp hwire
      obtain ⟨req, rfl, -⟩ := Option.bind_eq_some_iff.mp horder
      apply quiet_execBuilt
      intro s hs
      obtain ⟨params, -, rfl⟩ := Option.map_eq_some_iff.mp hs
      rfl
    | crossPlatformHit p => cases hwire
    | intraPlatformHit p => cases hwire
    | intraPlatformArb p => cases hwire
    | getRunningArbs p => cases hwire

/-- The row of an order, with the answer of the subselect. -/
def InsertOrderParams.row (arbs : ArbsTable) (params : InsertOrderParams) : OrdersRow where
  correlationId := params.orderCorrelationId
  foundAt := params.foundAt
  arbs := (arbs.getArbByCorrelationID params.arbCorrelationId).bind ArbsRow.arbs
  anchorCost := params.anchorCost.toRat
  matchCost := params.matchCost.toRat
  anchorFill := params.anchorFill.toRat
  matchFill := params.matchFill.toRat
  excessFill := params.excessFill.toRat
  anchorOrderId := params.anchorOrderId
  matchOrderId := params.matchOrderId

/-- The row of a hedge. -/
def InsertExcessFillParams.row (params : InsertExcessFillParams) : ExcessFillRow where
  correlationId := params.correlationId
  foundAt := params.foundAt
  platform := params.platform
  orderId := params.orderId
  fillSize := params.fillSize.toRat
  fillCost := params.fillCost.toRat

/-- What a statement does to the tables of orders and hedges; `none` is an error. -/
def Statement.onOrders (arbs : ArbsTable) (t : OrderTables) : Statement → Option OrderTables
  | .insertOrder params =>
      (t.orders.insert (params.row arbs)).map fun orders => { t with orders }
  | .insertExcessFill params =>
      (t.excessFill.insert params.row).map fun excessFill => { t with excessFill }
  | _ => some t

/-- The order of a message of the wire has the row of the bot's order, -/
theorem row_insertOrderParams (arbs : ArbsTable) (ebo : Protos.ClientEbo)
    (action : ClientAction) {req : Protos.OrderMade} {order : OrderMade}
    (h : req.toBot = some order) : ∃ params, insertOrderParams ebo req = some params ∧
      params.row arbs = ordersRow arbs ⟨ebo.correlationId, ebo.actionAt, action⟩ order := by
  simp only [Protos.OrderMade.toBot, Option.bind_eq_bind, Option.bind_eq_some_iff] at h
  obtain ⟨anchorCost, h₁, matchCost, h₂, anchorFill, h₃, matchFill, h₄, excessFill, h₅, h⟩ := h
  cases h
  simp only [insertOrderParams, h₁, h₂, h₃, h₄, h₅]
  exact ⟨_, rfl, rfl⟩

/-- and so has a hedge. -/
theorem row_insertExcessFillParams (ebo : Protos.ClientEbo) (action : ClientAction)
    {req : Protos.ExcessFillOrderMade} {order : ExcessFillOrderMade}
    (h : req.toBot = some order) :
    ∃ params, insertExcessFillParams ebo req = some params ∧
      params.row = excessFillRow ⟨ebo.correlationId, ebo.actionAt, action⟩ order := by
  simp only [Protos.ExcessFillOrderMade.toBot, Option.bind_eq_bind, Option.bind_eq_some_iff] at h
  obtain ⟨platform, hplatform, fillSize, h₁, fillCost, h₂, h⟩ := h
  cases h
  have hstring : Protos.platformString req.platform = platform.asStrName := by
    rw [Protos.platformString, hplatform]
    rfl
  simp only [insertExcessFillParams, h₁, h₂, hstring]
  exact ⟨_, rfl, rfl⟩

/-- Deletes of arbs leave these tables alone. -/
theorem onOrders_deleteArbs (ans : Answers) (arbs : ArbsTable) (t : OrderTables)
    (cids : List CorrelationId) :
    (deleteArbs ans cids).foldlM (fun t p => p.statement.onOrders arbs t) t = some t := by
  have hdelete : ∀ p ∈ deleteArbs ans cids, ∃ cid, p.statement = .deleteArb cid := by
    intro p hp
    obtain ⟨i, hi, rfl⟩ := List.mem_mapIdx.mp hp
    exact ⟨_, rfl⟩
  generalize deleteArbs ans cids = deletes at hdelete ⊢
  induction deletes with
  | nil => rfl
  | cons p rest ih =>
    obtain ⟨cid, hp⟩ := hdelete p List.mem_cons_self
    rw [List.foldlM_cons, hp]
    exact ih fun q hq => hdelete q (List.mem_cons_of_mem p hq)

/-- **The tables of orders and hedges** take the statements of a call as they take the message. -/
theorem orders_processEbo (ans : Answers) (arbs : ArbsTable) (t : OrderTables)
    {ebo : Protos.ClientEbo} {action : ClientAction}
    (h : ebo.action.bind Protos.Action.toBot = some action) :
    t.processEbo arbs ⟨ebo.correlationId, ebo.actionAt, action⟩ =
      (processEbo enc describe ans ebo).performed.foldlM
        (fun t p => p.statement.onOrders arbs t) t := by
  obtain ⟨wire, haction, hwire⟩ := Option.bind_eq_some_iff.mp h
  simp only [processEbo, haction]
  cases wire with
  | crossPlatformArb p =>
    obtain ⟨arb, rfl, rfl⟩ := Option.map_eq_some_iff.mp hwire
    rfl
  | deleteRunningArbs p =>
    -- the arbs are deleted one by one, and no order is
    obtain ⟨req, rfl, rfl⟩ := Option.map_eq_some_iff.mp hwire
    exact (onOrders_deleteArbs ans arbs t req.correlationIds).symm
  | orderSubmitted p =>
    obtain ⟨order, horder, rfl⟩ := Option.map_eq_some_iff.mp hwire
    obtain ⟨req, rfl, hreq⟩ := Option.bind_eq_some_iff.mp horder
    obtain ⟨params, hparams, hrow⟩ := row_insertOrderParams arbs ebo (.orderSubmitted order) hreq
    show (t.orders.insert (ordersRow arbs _ order)).map _ = (Call.execBuilt ans
      ((insertOrderParams ebo req).map .insertOrder)).performed.foldlM _ t
    rw [hparams, ← hrow]
    exact (bind_pure _).symm
  | excessFillSubmitted p =>
    obtain ⟨order, horder, rfl⟩ := Option.map_eq_some_iff.mp hwire
    obtain ⟨req, rfl, hreq⟩ := Option.bind_eq_some_iff.mp horder
    obtain ⟨params, hparams, hrow⟩ := row_insertExcessFillParams ebo
      (.excessFillSubmitted order) hreq
    show (t.excessFill.insert (excessFillRow _ order)).map _ = (Call.execBuilt ans
      ((insertExcessFillParams ebo req).map .insertExcessFill)).performed.foldlM _ t
    rw [hparams, ← hrow]
    exact (bind_pure _).symm
  | crossPlatformHit p => cases hwire
  | intraPlatformHit p => cases hwire
  | intraPlatformArb p => cases hwire
  | getRunningArbs p => cases hwire

end Tables

end Degenerate.Web
