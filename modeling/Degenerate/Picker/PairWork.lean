import Degenerate.Picker.CommsTask
import Degenerate.Lib.KeptTwice
import Mathlib.Algebra.Order.Group.Multiset
import Mathlib.Tactic.Abel

/-!
# The Pairs of the Bot

The bot keeps a record for each pair that it watches.  Beside its records it has work
under way about pairs: a pair to be found or registered, a pair to be unregistered, a
`DeleteRunningArbs` to be sent.  Every step of the bot does a part of this work, drops
some, or adds to it.

## Main Results

- `ledgers_step`: a step of the bot is a list of events about its pairs, whatever is under
  way elsewhere
- `ledgers_receive`: a message of the server becomes work, nothing more and nothing less
-/

namespace Degenerate.Picker

open Degenerate.Lib Degenerate.Platforms

/-! ## §1 Work -/

/-- The ids of a `DeleteRunningArbs` for the server. -/
def ClientEbo.deleted (ebo : ClientEbo) : List CorrelationId :=
  match ebo.action with
  | .deleteRunningArbs cids => cids
  | _ => []

namespace CommsOp

/-- The pair to be found. -/
def starts : CommsOp → List CorrelationId
  | .findArb _ cid => [cid]
  | _ => []

/-- The pair to be unregistered. -/
def stops : CommsOp → List CorrelationId
  | .unregisterArb cid => [cid]
  | _ => []

/-- The rows that the server will be asked to delete. -/
def removals : CommsOp → List CorrelationId
  | .send ebo => ebo.deleted
  | _ => []

end CommsOp

/-- The pair that `find_arb` is at. -/
def CommsPc.starts : CommsPc → List CorrelationId
  | .finding f => [f.correlationId]
  | .registering w => [w.correlationId]
  | _ => []

/-- The rows that a message of the executor asks to delete. -/
def ExecEffect.removals : ExecEffect → List CorrelationId
  | .send ebo => ebo.deleted
  | _ => []

/-- The same for all that is left of a handling. -/
def ExecPc.removals : ExecPc → List CorrelationId
  | .handling _ effects => effects.flatMap ExecEffect.removals
  | _ => []

namespace CommsMessage

/-- The pairs that a message asks to find. -/
def starts : CommsMessage → List CorrelationId
  | .runningArbsResponse arbs cids => (arbs.zip cids).map Prod.snd
  | .confirmedAndRun _ cid => [cid]
  | _ => []

/-- The pairs that a message asks to unregister. -/
def stops : CommsMessage → List CorrelationId
  | .deleteRunningArbs cids => cids
  | _ => []

end CommsMessage

namespace System

/-- The pairs to be found or registered. -/
def starts (p : System) : Multiset CorrelationId :=
  p.comms.pc.starts ++ p.comms.todo.flatMap CommsOp.starts

/-- The pairs to be unregistered. -/
def stops (p : System) : Multiset CorrelationId := p.comms.todo.flatMap CommsOp.stops

/-- The rows that the server will be asked to delete. -/
def removals (p : System) : Multiset CorrelationId :=
  p.comms.todo.flatMap CommsOp.removals ++ p.exec.pc.removals ++
    p.outbox.flatMap ClientEbo.deleted

/-- The pair has a record. -/
def knows (p : System) (cid : CorrelationId) : Bool := (p.book.records cid).isSome

/-- Both sides, where `rest` is what the registry keeps and what is under way outside the bot. -/
def ledgers (p : System) (rest : Ledgers CorrelationId) : Ledgers CorrelationId :=
  { rest with
    held := p.knows
    starts := p.starts + rest.starts
    stops := p.stops + rest.stops
    removals := p.removals + rest.removals }

/-! ## §2 The events of a step -/

end System

/-- What the first reads of `find_arb` mean for its pair. -/
def findEvents (c : Choice) (arb : Arb) (cid : CorrelationId) : List (Event CorrelationId) :=
  match System.findLeg "anchor" arb.anchor, System.findLeg "match" arb.match with
  | .ok (_, anchorClose, _), .ok (_, matchClose, _) =>
      if closesWithin c.utcNow oneHourMs anchorClose ||
        closesWithin c.utcNow oneHourMs matchClose then [.startRefused cid]
      else []
  | _, _ => [.startFails cid]

/-- What an operation means for the pairs. -/
def CommsOp.events (c : Choice) : CommsOp → List (Event CorrelationId)
  | .unregisterArb cid => [.stopped cid]
  | .findArb arb cid => findEvents c arb cid
  | .marketResolved _ => [.stop c.order]
  | .marketLifecycle event =>
      [.stop ((c.order.flatMap (System.lifecycleOps event)).flatMap CommsOp.stops)]
  | _ => []

namespace System

/-- What a step means for the pairs. -/
def events (p : System) : Action → List (Event CorrelationId)
  | .comms c =>
      match p.comms.pc, p.comms.todo with
      -- the loop of `find_arb` ends without a registration
      | .finding f, _ =>
          if (findStep c p f).comms.pc.starts = [] then [.startFails f.correlationId] else []
      | .registering w, _ => [.started w.correlationId]
      | .next, op :: _ => op.events c
      | _, _ => []
  | _ => []

/-! ## §3 One operation -/

section Frame

variable (p : System) (rest : Ledgers CorrelationId)

/-- Two states have the same records and the same work. -/
structure SamePairs (p q : System) : Prop where
  knows : q.knows = p.knows
  starts : q.starts = p.starts
  stops : q.stops = p.stops
  removals : q.removals = p.removals

theorem samePairs_of_eq {p q : System} (hknows : q.knows = p.knows)
    (hpc : q.comms.pc.starts = p.comms.pc.starts) (htodo : q.comms.todo = p.comms.todo)
    (hexec : q.exec.pc.removals = p.exec.pc.removals) (hout : q.outbox = p.outbox) :
    SamePairs p q := by
  refine ⟨hknows, ?_, ?_, ?_⟩
  · simp only [starts, hpc, htodo]
  · simp only [stops, htodo]
  · simp only [removals, htodo, hexec, hout]

theorem SamePairs.ledgers {p q : System} (h : SamePairs p q) : q.ledgers rest = p.ledgers rest := by
  simp only [System.ledgers, h.knows, h.starts, h.stops, h.removals]

@[simp] theorem knows_push (ops : List CommsOp) : (p.push ops).knows = p.knows := rfl

@[simp] theorem starts_push (ops : List CommsOp) :
    (p.push ops).starts = ops.flatMap CommsOp.starts + p.starts := by
  simp only [starts, push, List.flatMap_append, ← Multiset.coe_add]
  exact add_left_comm ..

@[simp] theorem stops_push (ops : List CommsOp) :
    (p.push ops).stops = ops.flatMap CommsOp.stops + p.stops := by
  simp [stops, push]

@[simp] theorem removals_push (ops : List CommsOp) :
    (p.push ops).removals = ops.flatMap CommsOp.removals + p.removals := by
  simp [removals, push]

/-- Operations that are no work about pairs. -/
theorem samePairs_push {ops : List CommsOp}
    (h : ∀ op ∈ ops, op.starts = [] ∧ op.stops = [] ∧ op.removals = []) :
    SamePairs p (p.push ops) := by
  have hnil : ∀ f : CommsOp → List CorrelationId, (∀ op ∈ ops, f op = []) →
      ops.flatMap f = [] := fun f hf => List.flatMap_eq_nil_iff.mpr hf
  refine ⟨rfl, ?_, ?_, ?_⟩
  · simp [hnil _ fun op hop => (h op hop).1]
  · simp [hnil _ fun op hop => (h op hop).2.1]
  · simp [hnil _ fun op hop => (h op hop).2.2]

/-- Both sides, where the bot has an operation before it. -/
def owing (op : CommsOp) : Ledgers CorrelationId :=
  { rest with
    held := p.knows
    starts := op.starts + (p.starts + rest.starts)
    stops := op.stops + (p.stops + rest.stops)
    removals := op.removals + (p.removals + rest.removals) }

/-- The work of a state is that of its next operation, and the rest. -/
theorem ledgers_of_todo {op : CommsOp} {ops : List CommsOp} (hpc : p.comms.pc = .next)
    (htodo : p.comms.todo = op :: ops) : p.ledgers rest = (p.pop ops).owing rest op := by
  have hstarts : p.starts = op.starts + (p.pop ops).starts := by
    simp [starts, pop, hpc, htodo, CommsPc.starts]
  have hstops : p.stops = op.stops + (p.pop ops).stops := by simp [stops, pop, htodo]
  have hremovals : p.removals = op.removals + (p.pop ops).removals := by
    simp [removals, pop, htodo]
  simp only [System.ledgers, owing, hstarts, hstops, hremovals, add_assoc]
  rfl

/-- An operation that is no work about pairs may be forgotten. -/
theorem ledgers_of_idle {op : CommsOp} {ops : List CommsOp} (hpc : p.comms.pc = .next)
    (htodo : p.comms.todo = op :: ops)
    (hop : op.starts = [] ∧ op.stops = [] ∧ op.removals = []) :
    p.ledgers rest = (p.pop ops).ledgers rest := by
  rw [ledgers_of_todo p rest hpc htodo]
  simp [System.ledgers, owing, hop.1, hop.2.1, hop.2.2]

end Frame

theorem resolveDiscovered_deleted {cfg : Config} {v : MarketVenue} {now : ℤ} {arb : DiscoveredArb}
    {ebo : ClientEbo} (h : resolveDiscovered cfg.generateUuidV5 v now arb = some ebo) :
    ebo.deleted = [] := by
  unfold resolveDiscovered at h
  split at h
  · split at h
    · cases h
      rfl
    · cases h
  · cases h

/-- Decisions to unregister some pairs. -/
theorem ledgers_push_stops (p : System) (rest : Ledgers CorrelationId) (ops : List CommsOp)
    (h : ∀ op ∈ ops, op.starts = [] ∧ op.removals = []) :
    run Ledgers.step (p.ledgers rest) [.stop (ops.flatMap CommsOp.stops)] =
      some ((p.push ops).ledgers rest) := by
  have hstarts : ops.flatMap CommsOp.starts = [] :=
    List.flatMap_eq_nil_iff.mpr fun op hop => (h op hop).1
  have hremovals : ops.flatMap CommsOp.removals = [] :=
    List.flatMap_eq_nil_iff.mpr fun op hop => (h op hop).2
  simp only [run, Ledgers.step, Ledgers.Enabled, Ledgers.apply, System.ledgers, knows_push,
    starts_push, stops_push, removals_push, hstarts, hremovals]
  simp
  abel

/-- A new close time keeps the records of the same pairs. -/
theorem knows_updateCloseTime (p : System) (key : MarketKey) (cid : CorrelationId)
    (closeTs : Option ℤ) :
    ({ p with book := p.book.updateCloseTime key cid closeTs } : System).knows = p.knows := by
  funext cid'
  have hkeys := congrArg Option.isSome (Book.updateCloseTime_records p.book key cid cid' closeTs)
  rwa [Option.isSome_map, Option.isSome_map] at hkeys

/-- How `find_arb` goes on from its first reads: it drops the pair, has it deleted because it is
    about to close, or starts its loop. -/
theorem findArb_cases (c : Choice) (p : System) (arb : Arb) (cid : CorrelationId) :
    (findArb c p arb cid = p ∧ findEvents c arb cid = [.startFails cid]) ∨
    (findArb c p arb cid =
        p.push [.unregisterArb cid, .send { action := .deleteRunningArbs [cid] }] ∧
      findEvents c arb cid = [.startRefused cid]) ∨
    ∃ f : FindArb, f.correlationId = cid ∧ findArb c p arb cid = p.goto (.finding f) ∧
      findEvents c arb cid = [] := by
  unfold findArb findEvents
  cases findLeg "anchor" arb.anchor with
  | error _ => exact .inl ⟨rfl, rfl⟩
  | ok anchor =>
    cases findLeg "match" arb.match with
    | error _ => exact .inl ⟨rfl, rfl⟩
    | ok «match» =>
      by_cases hsoon : (closesWithin c.utcNow oneHourMs anchor.2.1 ||
          closesWithin c.utcNow oneHourMs «match».2.1) = true
      · exact .inr (.inl ⟨if_pos hsoon, if_pos hsoon⟩)
      · exact .inr (.inr ⟨_, rfl, if_neg hsoon, if_neg hsoon⟩)

/-- **`unregister_arb`** takes the record of the pair, if it has one. -/
theorem ledgers_unregisterArb (p : System) (rest : Ledgers CorrelationId) (cid : CorrelationId) :
    run Ledgers.step (p.owing rest (.unregisterArb cid)) [.stopped cid] =
      some ((p.unregisterArb cid).ledgers rest) := by
  have hknows : (p.unregisterArb cid).knows = Function.update p.knows cid false := by
    funext cid'
    simp only [knows, System.unregisterArb, Book.unregisterArb_records, Function.update_apply]
    rw [PMap.erase_apply]
    split <;> rfl
  have hwork : (p.unregisterArb cid).starts = p.starts ∧ (p.unregisterArb cid).stops = p.stops ∧
      (p.unregisterArb cid).removals = p.removals := ⟨rfl, rfl, rfl⟩
  have hstep : (p.owing rest (.unregisterArb cid)).step (.stopped cid) =
      some ((p.unregisterArb cid).ledgers rest) := by
    simp [Ledgers.step_eq_some, Ledgers.Enabled, Ledgers.apply, CommsOp.starts, CommsOp.stops,
      CommsOp.removals, System.ledgers, owing, hknows, hwork]
  exact run_cons.mpr ⟨_, hstep, rfl⟩

/-- **`find_arb`** drops the pair, has it deleted, or takes it on. -/
theorem ledgers_findArb {p : System} (rest : Ledgers CorrelationId) (c : Choice) (arb : Arb)
    (cid : CorrelationId) (hpc : p.comms.pc = .next) :
    run Ledgers.step (p.owing rest (.findArb arb cid)) (findEvents c arb cid) =
      some ((findArb c p arb cid).ledgers rest) := by
  rcases findArb_cases c p arb cid with ⟨hq, hevents⟩ | ⟨hq, hevents⟩ | ⟨f, hf, hq, hevents⟩
  · have hstep : (p.owing rest (.findArb arb cid)).step (.startFails cid) =
        some (p.ledgers rest) := by
      simp [Ledgers.step_eq_some, Ledgers.Enabled, Ledgers.apply, CommsOp.starts, CommsOp.stops,
        CommsOp.removals, System.ledgers, owing]
    rw [hq, hevents]
    exact run_cons.mpr ⟨_, hstep, rfl⟩
  · have hstep : (p.owing rest (.findArb arb cid)).step (.startRefused cid) =
        some ((p.push
          [.unregisterArb cid, .send { action := .deleteRunningArbs [cid] }]).ledgers rest) := by
      simp [Ledgers.step_eq_some, Ledgers.Enabled, Ledgers.apply, CommsOp.starts, CommsOp.stops,
        CommsOp.removals, System.ledgers, owing, ClientEbo.deleted]
    rw [hq, hevents]
    exact run_cons.mpr ⟨_, hstep, rfl⟩
  · -- the pair moves from the operations to the loop
    have hstarts : (p.goto (.finding f)).starts = cid ::ₘ p.starts := by
      simp [starts, goto, hpc, CommsPc.starts, hf]
    have hwork : (p.goto (.finding f)).stops = p.stops ∧
        (p.goto (.finding f)).removals = p.removals ∧
        (p.goto (.finding f)).knows = p.knows := ⟨rfl, rfl, rfl⟩
    rw [hq, hevents, run_nil]
    simp [owing, System.ledgers, hstarts, hwork, CommsOp.starts, CommsOp.stops, CommsOp.removals]

/-- A message moves from the operations to the channel. -/
theorem owing_send (p : System) (rest : Ledgers CorrelationId) (ebo : ClientEbo) :
    p.owing rest (.send ebo) =
      ({ p with outbox := p.outbox ++ [ebo] } : System).ledgers rest := by
  have hremovals : ({ p with outbox := p.outbox ++ [ebo] } : System).removals =
      ebo.deleted + p.removals := by
    simp only [removals, List.flatMap_append, List.flatMap_singleton, ← Multiset.coe_add]
    abel
  simp only [owing, System.ledgers, hremovals, CommsOp.starts, CommsOp.stops, CommsOp.removals,
    Multiset.coe_nil, zero_add, add_assoc]
  rfl

/-- The watchers of a market are to be unregistered. -/
theorem ledgers_push_unregister (p : System) (rest : Ledgers CorrelationId)
    (cids : List CorrelationId) : run Ledgers.step (p.ledgers rest) [.stop cids] =
      some ((p.push (cids.map .unregisterArb)).ledgers rest) := by
  have hstops : (cids.map CommsOp.unregisterArb).flatMap CommsOp.stops = cids := by
    rw [List.flatMap_map]
    exact List.flatMap_singleton' cids
  have hpush := ledgers_push_stops p rest (cids.map .unregisterArb) fun op hop => by
    obtain ⟨cid, -, rfl⟩ := List.mem_map.mp hop
    exact ⟨rfl, rfl⟩
  rwa [hstops] at hpush

/-- **One operation**: what it means for the pairs. -/
theorem ledgers_op {cfg : Config} {c : Choice} {p q : System} {op : CommsOp} {ops : List CommsOp}
    (rest : Ledgers CorrelationId) (hpc : p.comms.pc = .next) (htodo : p.comms.todo = op :: ops)
    (h : opStep cfg c (p.pop ops) op = some q) :
    run Ledgers.step (p.ledgers rest) (op.events c) = some (q.ledgers rest) := by
  -- an operation without work that leaves records and work as they are
  have hidle : op.starts = [] ∧ op.stops = [] ∧ op.removals = [] → op.events c = [] →
      SamePairs (p.pop ops) q →
      run Ledgers.step (p.ledgers rest) (op.events c) = some (q.ledgers rest) := by
    intro hop hevents hsame
    rw [ledgers_of_idle p rest hpc htodo hop, hevents, hsame.ledgers]
    rfl
  have hevals : ∀ cids : List CorrelationId, ∀ op ∈ cids.map CommsOp.evaluateArb,
      op.starts = [] ∧ op.stops = [] ∧ op.removals = [] := by
    intro cids op hop
    obtain ⟨cid, -, rfl⟩ := List.mem_map.mp hop
    exact ⟨rfl, rfl, rfl⟩
  cases op with
  | onPriceUpdate key tob =>
    refine hidle ⟨rfl, rfl, rfl⟩ rfl ?_
    simp only [opStep] at h
    split at h
    · split at h
      · cases h
        -- the evaluations are no work about pairs
        have hsame := samePairs_push { p.pop ops with
          topOfBook := (p.pop ops).topOfBook.insert key tob } (hevals c.order)
        exact ⟨hsame.knows, hsame.starts, hsame.stops, hsame.removals⟩
      · cases h
    · cases h
      exact ⟨rfl, rfl, rfl, rfl⟩
  | evaluateArb cid =>
    refine hidle ⟨rfl, rfl, rfl⟩ rfl ?_
    simp only [opStep] at h
    split at h
    · cases h
      exact ⟨rfl, rfl, rfl, rfl⟩
    · cases h
      refine ⟨rfl, ?_, rfl, rfl⟩
      simp [starts, goto, pop, hpc, CommsPc.starts]
  | marketResolved assetId =>
    rw [ledgers_of_idle p rest hpc htodo ⟨rfl, rfl, rfl⟩]
    simp only [opStep] at h
    split at h
    · cases h
      exact ledgers_push_unregister (p.pop ops) rest c.order
    · cases h
  | marketLifecycle event =>
    rw [ledgers_of_idle p rest hpc htodo ⟨rfl, rfl, rfl⟩]
    simp only [opStep] at h
    split at h
    · cases h
      refine ledgers_push_stops (p.pop ops) rest _ fun op hop => ?_
      -- a watcher is unregistered, or its close time is updated
      obtain ⟨cid, -, hop⟩ := List.mem_flatMap.mp hop
      rcases mem_lifecycleOps hop with ⟨-, rfl⟩ | rfl <;> exact ⟨rfl, rfl⟩
    · cases h
  | updateCloseTime key cid closeTs =>
    refine hidle ⟨rfl, rfl, rfl⟩ rfl ?_
    cases h
    exact ⟨knows_updateCloseTime .., rfl, rfl, rfl⟩
  | unregisterArb cid =>
    cases h
    rw [ledgers_of_todo p rest hpc htodo]
    exact ledgers_unregisterArb (p.pop ops) rest cid
  | findArb arb cid =>
    cases h
    rw [ledgers_of_todo p rest hpc htodo]
    exact ledgers_findArb rest c arb cid hpc
  | seedTobFromHttp leg =>
    refine hidle ⟨rfl, rfl, rfl⟩ rfl ?_
    simp only [opStep] at h
    split at h
    · cases h
      exact ⟨rfl, rfl, rfl, rfl⟩
    · cases h
      exact samePairs_push _ (by simp [CommsOp.starts, CommsOp.stops, CommsOp.removals])
  | resolveDiscovered arb =>
    refine hidle ⟨rfl, rfl, rfl⟩ rfl ?_
    simp only [opStep] at h
    split at h
    · cases h
      exact ⟨rfl, rfl, rfl, rfl⟩
    · rename_i ebo hebo
      cases h
      refine samePairs_push _ ?_
      simp [CommsOp.starts, CommsOp.stops, CommsOp.removals, resolveDiscovered_deleted hebo]
  | send ebo =>
    cases h
    rw [ledgers_of_todo p rest hpc htodo]
    exact congrArg some (owing_send (p.pop ops) rest ebo)

/-! ## §4 One step -/

/-- The executor asks for no deletion. -/
theorem removals_handle (cfg : Config) (x : Executor) (req : ExecutionRequest)
    (ans : ExecAnswers) : (x.handle cfg req ans).removals = [] := by
  -- the executor sends, but asks to remove no pair
  have hhedge : ∀ excess leg, (hedgeEffects ans excess leg).flatMap ExecEffect.removals = [] := by
    intro excess leg
    unfold hedgeEffects
    simp only
    split <;> rfl
  have hfills : ∀ anchor «match», (afterFills ans req anchor «match»).effects.flatMap
      ExecEffect.removals = [] := by
    intro anchor «match»
    unfold afterFills
    simp only
    split
    · split <;> rfl
    · rw [List.cons_append, List.flatMap_cons, List.flatMap_append, hhedge]
      rfl
  show (handleExecutionRequest cfg x.balances ans req).effects.flatMap ExecEffect.removals = []
  rcases handleExecutionRequest_cases cfg x.balances ans req with h | h | ⟨m, size, -, -, -, h⟩
  · rw [h]
    rfl
  · rw [h]
    rfl
  · rw [h]
    exact hfills _ _

/-- An executor that has nothing to delete keeps it so. -/
theorem removals_exec_step {cfg : Config} {x x' : Executor} {a : ExecAction}
    (hx : x.pc.removals = []) (h : x.step cfg a = some x') : x'.pc.removals = [] := by
  rcases Executor.step_cases h with ⟨req, ans, -, -, rfl⟩ | ⟨cid, e, rest, -, hpc, rfl⟩ |
    ⟨cid, -, -, rfl⟩ | ⟨f, -, -, rfl⟩
  · exact removals_handle cfg x req ans
  · rw [hpc] at hx
    exact (List.append_eq_nil_iff.mp hx).2
  · rfl
  · rfl

/-- **The executor asks for no deletion** in any state that the bot reaches. -/
theorem removals_exec {cfg : Config} {p q : System} {a : Action} (hp : p.exec.pc.removals = [])
    (h : step cfg p a = some q) : q.exec.pc.removals = [] :=
  run_invariant (I := fun x => x.pc.removals = []) (fun _ _ _ => removals_exec_step) hp
    (step_executor h)

/-- `evaluate_arb` does not touch what is left to do, or the executor, or the outgoing messages. -/
theorem evalStep_frame (cfg : Config) (c : Choice) (p : System) (e : EvalPc) :
    (evalStep cfg c p e).comms.todo = p.comms.todo ∧ (evalStep cfg c p e).exec = p.exec ∧
      (evalStep cfg c p e).outbox = p.outbox := by
  obtain ⟨_, _, _, _, h⟩ := evalStep_writes cfg c p e
  rw [h]
  exact ⟨rfl, rfl, rfl⟩

/-- `evaluate_arb` is no work about pairs. -/
theorem samePairs_evalStep {cfg : Config} {c : Choice} {p : System} {e : EvalPc}
    (hpc : p.comms.pc = .evaluating e) : SamePairs p (evalStep cfg c p e) := by
  obtain ⟨htodo, hexec, hout⟩ := evalStep_frame cfg c p e
  refine samePairs_of_eq ?_ ?_ htodo (by rw [hexec]) hout
  · simp only [funext_iff, knows, (evalStep_sameWatch cfg c p e).book, implies_true]
  · rw [hpc]
    rcases evalStep_pc cfg c p e with h | ⟨e', h⟩ <;> rw [h] <;> rfl

/-- The loop of `find_arb` stays with its pair, or drops it. -/
theorem starts_resume (f : FindArb) (r : Progress AddCall) :
    (f.resume r).starts = [f.correlationId] ∨ (f.resume r).starts = [] := by
  cases r with
  | more call => exact .inl rfl
  | done ok =>
    rcases advance_cases f ok with ⟨_, _, -, h⟩ | ⟨-, h⟩ | ⟨-, -, _, -, h⟩ <;>
      rw [FindArb.resume, h]
    · exact .inl rfl
    · exact .inr rfl
    · exact .inl rfl

/-- **The loop of `find_arb`**: the pair is still to be found, or it is dropped. -/
theorem ledgers_find {c : Choice} {p : System} {f : FindArb} (rest : Ledgers CorrelationId)
    (hpc : p.comms.pc = .finding f) : run Ledgers.step (p.ledgers rest)
      (if (findStep c p f).comms.pc.starts = [] then [.startFails f.correlationId] else []) =
      some ((findStep c p f).ledgers rest) := by
  -- only the program counter moves; the queue, the outbox and the book stay
  obtain ⟨hexec, hbook, -⟩ := findStep_frame c p f
  have htodo : (findStep c p f).comms.todo = p.comms.todo := by
    unfold findStep addStep
    cases f.call <;> rfl
  have hout : (findStep c p f).outbox = p.outbox := by
    unfold findStep addStep
    cases f.call <;> rfl
  have hknows : (findStep c p f).knows = p.knows := by
    simp only [funext_iff, knows, hbook, implies_true]
  rcases starts_resume f (p.addStep c.sendOk f.call).2 with h | h
  · have hsame : SamePairs p (findStep c p f) := by
      refine samePairs_of_eq hknows ?_ htodo (by rw [hexec.exec]) hout
      rw [hpc]
      exact h
    have hnotNil : (findStep c p f).comms.pc.starts ≠ [] := by
      show (f.resume (p.addStep c.sendOk f.call).2).starts ≠ []
      rw [h]
      exact List.cons_ne_nil _ _
    rw [if_neg hnotNil, hsame.ledgers]
    rfl
  · -- the loop gives up on the pair: its start is no longer owed
    have hnext : (findStep c p f).comms.pc.starts = [] := h
    have hstarts : p.starts = f.correlationId ::ₘ (findStep c p f).starts := by
      simp only [starts, hnext, htodo, hpc]
      rfl
    have hstep : (p.ledgers rest).step (.startFails f.correlationId) =
        some ((findStep c p f).ledgers rest) := by
      simp only [Ledgers.step_eq_some, Ledgers.Enabled, Ledgers.apply, System.ledgers, hstarts,
        hknows, stops, removals, htodo, hexec.exec, hout]
      simp
    rw [if_pos hnext]
    exact run_cons.mpr ⟨_, hstep, rfl⟩

/-- **Registration**: the pair gets its record. -/
theorem ledgers_register {p : System} {w : ArbWatch} (rest : Ledgers CorrelationId)
    (hpc : p.comms.pc = .registering w) :
    run Ledgers.step (p.ledgers rest) [.started w.correlationId] =
      some ((p.register w).ledgers rest) := by
  have hstarts : p.starts = w.correlationId ::ₘ (p.register w).starts := by
    simp [starts, register, push, goto, hpc, CommsPc.starts, CommsOp.starts]
  have hstops : (p.register w).stops = p.stops := by
    simp [stops, register, push, goto, CommsOp.stops]
  have hremovals : (p.register w).removals = p.removals := by
    simp [removals, register, push, goto, CommsOp.removals]
  -- the record of the pair is new or is overwritten
  have hknows : (p.register w).knows = Function.update p.knows w.correlationId true := by
    funext cid
    simp only [knows, register, push, goto, Book.registerArb_records, Function.update_apply]
    rw [PMap.insert_apply]
    split <;> rfl
  have hstep : (p.ledgers rest).step (.started w.correlationId) =
      some ((p.register w).ledgers rest) := by
    simp only [Ledgers.step_eq_some, Ledgers.Enabled, Ledgers.apply, System.ledgers, hstarts,
      hstops, hremovals, hknows]
    simp
  exact run_cons.mpr ⟨_, hstep, rfl⟩

/-- The executor's effects move its messages to the channel. -/
theorem samePairs_execEffect {cfg : Config} {p q : System}
    (h : step cfg p .execEffect = some q) : SamePairs p q := by
  obtain ⟨cid, e, rest, x, hpc, hx, -, rfl⟩ := execEffect_cases h
  -- the effect leaves the list of those to come
  have hfront : p.exec.pc.removals = e.removals ++ rest.flatMap ExecEffect.removals := by
    rw [hpc]
    rfl
  have hback : x.pc.removals = rest.flatMap ExecEffect.removals := by
    rw [hx]
    rfl
  cases e with
  | send ebo =>
    refine ⟨rfl, rfl, rfl, ?_⟩
    simp only [removals, hfront, hback, applyEffect, ExecEffect.removals, List.flatMap_append,
      List.flatMap_singleton, ← Multiset.coe_add]
    abel
  | makeFakOrder _ => exact samePairs_of_eq rfl rfl rfl (hback.trans hfront.symm) rfl
  | deductFill _ _ _ _ _ => exact samePairs_of_eq rfl rfl rfl (hback.trans hfront.symm) rfl
  | insertCooldown _ => exact samePairs_of_eq rfl rfl rfl (hback.trans hfront.symm) rfl
  | removeInFlight _ => exact samePairs_of_eq rfl rfl rfl (hback.trans hfront.symm) rfl
  | hedgeSellOrder _ => exact samePairs_of_eq rfl rfl rfl (hback.trans hfront.symm) rfl

/-- The other steps of the executor leave nothing to be deleted. -/
theorem samePairs_execReceive {cfg : Config} {p q : System} {ans : ExecAnswers}
    (h : step cfg p (.execReceive ans) = some q) : SamePairs p q := by
  obtain ⟨req, rest, x, -, hx, rfl⟩ := execReceive_cases h
  obtain ⟨hidle, rfl⟩ := Executor.step_receive hx
  refine samePairs_of_eq rfl rfl rfl ?_ rfl
  rw [hidle]
  exact removals_handle cfg p.exec req ans

theorem samePairs_taskStep {p q : System} {i : ℕ} {sendOk : Bool}
    (h : p.taskStep i sendOk = some q) : SamePairs p q := by
  obtain ⟨hexec, hbook, hcomms⟩ := taskStep_frame h
  have hout : q.outbox = p.outbox := by
    unfold taskStep at h
    split at h
    · cases h
    · rename_i task _
      cases h
      cases task <;> rfl
  refine samePairs_of_eq ?_ (by rw [hcomms]) (by rw [hcomms]) (by rw [hexec.exec]) hout
  simp only [funext_iff, knows, hbook, implies_true]

/-- **One step**: what it means for the pairs, whatever is under way elsewhere. -/
theorem ledgers_step {cfg : Config} {p q : System} {a : Action} (rest : Ledgers CorrelationId)
    (h : step cfg p a = some q) (hmsg : ∀ msg, a ≠ .receive msg) :
    run Ledgers.step (p.ledgers rest) (p.events a) = some (q.ledgers rest) := by
  -- most steps touch neither the queue nor the records, and report no event
  have hsame : SamePairs p q → p.events a = [] →
      run Ledgers.step (p.ledgers rest) (p.events a) = some (q.ledgers rest) := by
    intro hpairs hevents
    rw [hevents, hpairs.ledgers]
    rfl
  cases a with
  | receive msg => exact absurd rfl (hmsg msg)
  | comms c =>
    -- the evaluation, the loop of `find_arb`, the registration, an operation of the queue
    rcases commsStep_cases h with ⟨e, he, rfl⟩ | ⟨f, hf, rfl⟩ | ⟨w, hw, rfl⟩ |
      ⟨op, ops, hn, htodo, hop⟩
    · exact hsame (samePairs_evalStep he) (by simp only [events, he])
    · simp only [events, hf]
      exact ledgers_find rest hf
    · simp only [events, hw]
      exact ledgers_register rest hw
    · simp only [events, hn, htodo]
      exact ledgers_op rest hn htodo hop
  | execReceive ans => exact hsame (samePairs_execReceive h) rfl
  | execEffect => exact hsame (samePairs_execEffect h) rfl
  | execFinish =>
    obtain ⟨x, hx, rfl⟩ := Option.map_eq_some_iff.mp h
    obtain ⟨cid, hpc, rfl⟩ := Executor.step_finish hx
    exact hsame (samePairs_of_eq rfl rfl rfl (by rw [hpc]; rfl) rfl) rfl
  | execRefresh f =>
    obtain ⟨x, hx, rfl⟩ := Option.map_eq_some_iff.mp h
    obtain ⟨hpc, rfl⟩ := Executor.step_refresh hx
    exact hsame (samePairs_of_eq rfl rfl rfl (by rw [hpc]; rfl) rfl) rfl
  | delTask i sendOk => exact hsame (samePairs_taskStep h) rfl
  | subscribedResponse channel sid =>
    cases h
    exact hsame ⟨rfl, rfl, rfl, rfl⟩ rfl
  | tick ms =>
    cases h
    exact hsame ⟨rfl, rfl, rfl, rfl⟩ rfl

/-! ## §5 Messages -/

/-- Operations without work. -/
theorem flatMap_work_eq_nil {ops : List CommsOp}
    (h : ∀ op ∈ ops, op.starts = [] ∧ op.stops = [] ∧ op.removals = []) :
    ops.flatMap CommsOp.starts = [] ∧ ops.flatMap CommsOp.stops = [] ∧
      ops.flatMap CommsOp.removals = [] := by
  simp only [List.flatMap_eq_nil_iff]
  exact ⟨fun op hop => (h op hop).1, fun op hop => (h op hop).2.1, fun op hop => (h op hop).2.2⟩

/-- What a message asks for is what its operations do. -/
theorem work_opsOf (b : Book) (msg : CommsMessage) :
    (opsOf b msg).flatMap CommsOp.starts = msg.starts ∧
      (opsOf b msg).flatMap CommsOp.stops = msg.stops ∧
      (opsOf b msg).flatMap CommsOp.removals = msg.stops := by
  -- a message that is not about pairs asks for nothing
  have hidle : (∀ op ∈ opsOf b msg, op.starts = [] ∧ op.stops = [] ∧ op.removals = []) →
      msg.starts = [] → msg.stops = [] → (opsOf b msg).flatMap CommsOp.starts = msg.starts ∧
      (opsOf b msg).flatMap CommsOp.stops = msg.stops ∧
      (opsOf b msg).flatMap CommsOp.removals = msg.stops := by
    intro h hstarts hstops
    rw [hstarts, hstops]
    exact flatMap_work_eq_nil h
  cases msg with
  | polymarket msg =>
    -- prices, or markets that are resolved
    refine hidle (fun op hop => ?_) rfl rfl
    cases msg with
    | marketResolved assetIds =>
      obtain ⟨assetId, -, rfl⟩ := List.mem_map.mp hop
      exact ⟨rfl, rfl, rfl⟩
    | bestBidAsk best =>
      obtain ⟨u, -, rfl⟩ := List.mem_map.mp hop
      exact ⟨rfl, rfl, rfl⟩
    | priceChange changes timestamp =>
      obtain ⟨u, -, rfl⟩ := List.mem_map.mp hop
      exact ⟨rfl, rfl, rfl⟩
    | other => cases hop
  | kalshi msg =>
    refine hidle (fun op hop => ?_) rfl rfl
    cases msg with
    | tickerUpdate t =>
      simp only [opsOf] at hop
      split at hop
      · cases hop
      · obtain ⟨tob, -, rfl⟩ := Option.map_eq_some_iff.mp (Option.mem_toList.mp hop)
        exact ⟨rfl, rfl, rfl⟩
    | marketLifecycleV2 event =>
      obtain rfl := List.mem_singleton.mp hop
      exact ⟨rfl, rfl, rfl⟩
    | other => cases hop
  | arbDiscovery arbs =>
    refine hidle (fun op hop => ?_) rfl rfl
    obtain ⟨arb, -, rfl⟩ := List.mem_map.mp hop
    exact ⟨rfl, rfl, rfl⟩
  | runningArbsResponse arbs cids =>
    -- one start for each pair of the response
    simp only [opsOf, List.flatMap_map, CommsMessage.starts, CommsMessage.stops, CommsOp.starts,
      CommsOp.stops, CommsOp.removals]
    exact ⟨List.map_eq_flatMap.symm, by simp, by simp⟩
  | confirmedAndRun arb cid => exact ⟨rfl, rfl, rfl⟩
  | deleteRunningArbs cids =>
    -- one stop and one removal for each id
    simp only [opsOf, List.flatMap_assoc, CommsMessage.starts, CommsMessage.stops]
    refine ⟨?_, ?_, ?_⟩
    · exact List.flatMap_eq_nil_iff.mpr fun cid _ => rfl
    · exact List.flatMap_singleton' cids
    · exact List.flatMap_singleton' cids

/-- **A message**: what it asks for becomes work. -/
theorem ledgers_receive {cfg : Config} {p q : System} {msg : CommsMessage}
    (rest : Ledgers CorrelationId) (h : step cfg p (.receive msg) = some q) :
    q.ledgers rest = p.ledgers { rest with
      starts := msg.starts + rest.starts
      stops := msg.stops + rest.stops
      removals := msg.stops + rest.removals } := by
  simp only [step] at h
  split at h
  · rename_i hbetween
    cases h
    obtain ⟨hstarts, hstops, hremovals⟩ := work_opsOf p.book msg
    obtain ⟨hpc, htodo⟩ := betweenMessages_iff.mp hbetween
    -- nothing is left of the message before
    have hbefore : p.starts = 0 ∧ p.stops = 0 ∧
        p.removals = p.exec.pc.removals ++ p.outbox.flatMap ClientEbo.deleted := by
      simp only [starts, stops, removals, hpc, htodo]
      exact ⟨rfl, rfl, rfl⟩
    simp only [System.ledgers, hbefore.1, hbefore.2.1, hbefore.2.2]
    simp only [starts, stops, removals, hstarts, hstops, hremovals, CommsPc.starts, zero_add,
      List.nil_append, ← Multiset.coe_add]
    congr 1
    abel
  · cases h

end System

end Degenerate.Picker
