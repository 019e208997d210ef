import Degenerate.Picker.InFlight

/-!
# Orders for a Withdrawn Pair

`unregister_arb` removes a pair from the book, but neither from the execution channel
nor from the executor: a request that was outstanding at that moment is still
executed, since `handle_execution_request` does not consult the book.

What does hold is that the withdrawal cuts off the supply.  Comms sends no further
request for the pair, so the buy orders that follow belong to what was outstanding,
which is at most one request, with at most one buy of each leg.

## Main Results

- `orders_after_withdrawal`
- `order_for_withdrawn_pair`: an order that starts after the withdrawal
-/

namespace Degenerate.Picker

open Degenerate.Lib

namespace System

/-! ## §1 What is sent, bought and pending for an id -/

/-- The requests for `cid` that comms tries to send in a step. -/
def sends (cid : CorrelationId) (p : System) : Action → List ExecutionRequest
  | .comms _ =>
      match p.comms.pc with
      | .evaluating (.trySend req) => if req.correlationId = cid then [req] else []
      | _ => []
  | _ => []

/-- The legs of `cid` for which the executor starts a buy order in a step. -/
def startedBuys (cid : CorrelationId) (p : System) : Action → List ArbMinifiedInfo
  | .execEffect =>
      match p.exec.pc with
      | .handling c (e :: _) => if c = cid then e.buys.toList else []
      | _ => []
  | _ => []

/-- The legs of `cid` that the executor's current handling still buys. -/
def handledBuys (cid : CorrelationId) : ExecPc → List ArbMinifiedInfo
  | .handling c effects => if c = cid then effects.filterMap ExecEffect.buys else []
  | _ => []

/-- The legs that a request for `cid` may lead to buying. -/
def requestedBuys (cid : CorrelationId) (req : ExecutionRequest) : List ArbMinifiedInfo :=
  if req.correlationId = cid then [req.anchor, req.match] else []

/-- The legs of `cid` that may still be bought for what is outstanding. -/
def pendingBuys (cid : CorrelationId) (p : System) : List ArbMinifiedInfo :=
  handledBuys cid p.exec.pc ++ p.executionRx.flatMap (requestedBuys cid)

/-! ## §2 A withdrawn pair -/

/-- The pair has no record, and comms is not about to send a request for it. -/
structure Withdrawn (cid : CorrelationId) (p : System) : Prop where
  record : p.book.records cid = none
  notSending : ∀ req, p.comms.pc = .evaluating (.trySend req) → req.correlationId ≠ cid

/-- The step does not register the pair. -/
def NotRegistering (cid : CorrelationId) (p : System) (a : Action) : Prop :=
  ∀ w, BookOp.registerArb w ∈ bookMoves p a → w.correlationId ≠ cid

/-- `unregister_arb` withdraws the pair. -/
theorem withdrawn_unregisterArb {cfg : Config} {c : Choice} {p q : System}
    {cid : CorrelationId} {rest : List CommsOp} (hpc : p.comms.pc = .next)
    (htodo : p.comms.todo = .unregisterArb cid :: rest)
    (h : step cfg p (.comms c) = some q) : Withdrawn cid q := by
  simp only [step, commsStep, hpc, htodo, opStep, Option.some.injEq] at h
  subst h
  refine ⟨?_, fun req hreq => ?_⟩
  · show ((p.pop rest).book.unregisterArb cid).1.records cid = none
    simp
  · have hnext : (CommsPc.next) = .evaluating (.trySend req) := hpc ▸ hreq
    cases hnext

/-- An operation that does not register an id without a record leaves it without one. -/
theorem records_none_step {b b' : Book} {op : BookOp} {cid : CorrelationId}
    (hnone : b.records cid = none) (hne : ∀ w, op = .registerArb w → w.correlationId ≠ cid)
    (h : b.step op = some b') : b'.records cid = none := by
  cases op with
  | registerArb w =>
    cases h
    simp [(hne w rfl).symm, hnone]
  | unregisterArb c =>
    cases h
    simp only [Book.unregisterArb_records, PMap.erase_apply]
    split
    · rfl
    · exact hnone
  | updateCloseTime key c closeTs =>
    cases h
    have hmap := Book.updateCloseTime_records b key c cid closeTs
    rw [hnone, Option.map_none, Option.map_eq_none_iff] at hmap
    exact hmap

/-- A pair that is not registered again stays withdrawn. -/
theorem Withdrawn.step {cfg : Config} {p q : System} {a : Action} {cid : CorrelationId}
    (hw : Withdrawn cid p) (hnr : NotRegistering cid p a) (h : step cfg p a = some q) :
    Withdrawn cid q := by
  refine ⟨?_, fun req hreq hid => ?_⟩
  · -- the book side: no operation but a registration writes a record of the pair
    have hbook := step_book h
    rcases bookMoves_length p a with hm | ⟨op, hm⟩
    · rw [hm, run_nil, Option.some.injEq] at hbook
      rw [← hbook]
      exact hw.record
    · rw [hm, run_cons] at hbook
      obtain ⟨b, hb, hrun⟩ := hbook
      obtain rfl : b = q.book := by simpa using hrun
      refine records_none_step hw.record (fun w hop => hnr w ?_) hb
      rw [hm, hop]
      exact List.mem_singleton_self _
  · -- the sending side: `evaluate_arb` builds requests from records only
    have hcomms : q.comms = p.comms → False := fun hc => hw.notSending req (hc ▸ hreq) hid
    rcases step_exec_cases h with ⟨-, -, hsend⟩ | ⟨_, -, -, -, hpc⟩ | ⟨_, -, -, hpc⟩ |
      ⟨_, -, -, -, -, hpc⟩ | ⟨_, -, -, -, -, hpc⟩ | ⟨_, _, -, -, -, -, -, hc⟩ |
      ⟨_, _, _, -, -, -, -, -, hc⟩ | ⟨-, -, -, -, hc⟩
    · rcases hsend req hreq with hsame | hrec
      · exact hw.notSending req (hsame.trans hreq) hid
      · exact hrec (hid ▸ hw.record)
    · rw [hpc] at hreq
      cases hreq
    · rw [hpc] at hreq
      cases hreq
    · rw [hpc] at hreq
      cases hreq
    · rw [hpc] at hreq
      cases hreq
    · exact hcomms hc
    · exact hcomms hc
    · exact hcomms hc

/-! ## §3 The budget of pending buys -/

/-- A step other than an effect of the executor adds nothing to what is pending. -/
theorem pendingBuys_step {cfg : Config} {p q : System} {a : Action} {cid : CorrelationId}
    (hw : Withdrawn cid p) (ha : a ≠ .execEffect) (h : step cfg p a = some q) :
    (pendingBuys cid q).Sublist (pendingBuys cid p) := by
  have hsame : q.exec = p.exec → q.executionRx = p.executionRx →
      (pendingBuys cid q).Sublist (pendingBuys cid p) := fun hx hrx => by
    simp [pendingBuys, hx, hrx]
  rcases step_exec_cases h with ⟨hx, -, -⟩ | ⟨_, -, -, hx, -⟩ | ⟨_, -, hx, -⟩ |
    ⟨req, hpc, -, hrx, hx, -⟩ | ⟨_, -, -, hrx, hx, -⟩ | ⟨ans, req, -, hrx, hidle, hpc, -, -⟩ |
    ⟨_, _, _, he, -⟩ | ⟨hq, hp, -, hrx, -⟩
  · exact hsame hx.exec hx.executionRx
  · exact hsame hx.exec hx.executionRx
  · exact hsame hx.exec hx.executionRx
  · -- the request that is sent is for another pair
    have hne := hw.notSending req hpc
    simp [pendingBuys, hx, hrx, requestedBuys, hne]
  · exact hsame hx hrx
  · -- the request moves from the channel to the executor
    rw [pendingBuys, pendingBuys, hrx, hidle, hpc, Executor.handle, List.flatMap_cons]
    refine List.Sublist.append_right ?_ _
    simp only [handledBuys, requestedBuys]
    split
    · exact (handleExecutionRequest_shape cfg p.exec.balances ans req).2.2
    · exact List.Sublist.refl _
  · exact absurd he ha
  · have hnil : handledBuys cid q.exec.pc = [] := by
      rcases hq with hq | hq <;> rw [hq] <;> rfl
    simp [pendingBuys, hnil, hrx]

/-- An effect of the executor pays for the buy order that it starts. -/
theorem pendingBuys_execEffect {cfg : Config} {p q : System} {cid : CorrelationId}
    (h : step cfg p .execEffect = some q) :
    startedBuys cid p .execEffect ++ pendingBuys cid q = pendingBuys cid p := by
  obtain ⟨c, e, rest, x, hpc, hpc', -, rfl⟩ := execEffect_cases h
  have hrx : (p.applyEffect e).executionRx = p.executionRx := (applyEffect_frame p e).2.1
  simp only [startedBuys, pendingBuys, hpc, hpc', hrx, handledBuys]
  by_cases hc : c = cid
  · cases hb : e.buys <;> simp [hc, hb]
  · simp [hc]

/-- **Budget**: whatever a run buys for a withdrawn pair was pending at its start. -/
theorem startedBuys_sublist {cfg : Config} {p : System} {as : List Action}
    {cid : CorrelationId} (hw : Withdrawn cid p)
    (hnr : Along (step cfg) (NotRegistering cid) p as) :
    (trace (startedBuys cid) (step cfg) p as).Sublist (pendingBuys cid p) := by
  refine trace_sublist (pendingBuys cid) (I := Withdrawn cid)
    (fun _ _ _ hs hn h => hs.step hn h) (fun s a t hs _ h => ?_) hw hnr
  by_cases ha : a = .execEffect
  · subst ha
    rw [pendingBuys_execEffect h]
  · have hnone : startedBuys cid s a = [] := by
      cases a <;> first | rfl | exact absurd rfl ha
    rw [hnone]
    exact pendingBuys_step hs ha h

/-- Comms sends nothing for a withdrawn pair. -/
theorem sends_eq_nil {cfg : Config} {p : System} {as : List Action} {cid : CorrelationId}
    (hw : Withdrawn cid p) (hnr : Along (step cfg) (NotRegistering cid) p as) :
    trace (sends cid) (step cfg) p as = [] := by
  have hsub : (trace (sends cid) (step cfg) p as).Sublist [] := by
    refine trace_sublist (fun _ => []) (I := Withdrawn cid)
      (fun _ _ _ hs hn h => hs.step hn h) (fun s a t hs _ _ => ?_) hw hnr
    have hnone : sends cid s a = [] := by
      unfold sends
      split
      · split
        · rename_i req hpc
          exact if_neg (hs.notSending req hpc)
        · rfl
      · rfl
    simp [hnone]
  exact List.sublist_nil.mp hsub

/-! ## §4 How much can be pending -/

/-- Each request for `cid` in the channel stands for two legs. -/
theorem requestedBuys_length (cid : CorrelationId) (rx : List ExecutionRequest) :
    (rx.flatMap (requestedBuys cid)).length = 2 * (rx.map (·.correlationId)).count cid := by
  induction rx with
  | nil => rfl
  | cons req rest ih =>
    rw [List.flatMap_cons, List.length_append, ih, List.map_cons, List.count_cons]
    by_cases hid : req.correlationId = cid
    · simp only [requestedBuys, hid, if_true, List.length_cons, List.length_nil, beq_self_eq_true]
      omega
    · simp [requestedBuys, hid]

/-- Nothing is left to buy for an id whose flag the executor does not hold. -/
theorem handledBuys_eq_nil {pc : ExecPc} {cid : CorrelationId} (ho : pc.Orderly)
    (h : pc.unreleased ≠ some cid) : handledBuys cid pc = [] := by
  cases pc with
  | handling c effects =>
    by_cases hc : c = cid
    · subst hc
      have hr : ¬ Releases effects := fun hr => h (if_pos hr)
      simpa [handledBuys] using Picker.Orderly.no_buys ho.1 hr
    · simp [handledBuys, hc]
  | refreshing => rfl
  | idle => rfl

theorem handledBuys_length (pc : ExecPc) (cid : CorrelationId) :
    (handledBuys cid pc).length ≤ pc.buys.length := by
  cases pc with
  | handling c effects =>
    simp only [handledBuys, ExecPc.buys]
    split <;> simp
  | refreshing => exact Nat.zero_le _
  | idle => exact Nat.zero_le _

/-- Pending legs belong to outstanding requests, two for each at most. -/
theorem pendingBuys_length {p : System} {cid : CorrelationId} (ho : p.exec.pc.Orderly)
    (hb : p.exec.pc.buys.length ≤ 2) :
    (pendingBuys cid p).length ≤ 2 * p.queue.outstanding cid := by
  have hout : p.queue.outstanding cid = (p.executionRx.map (·.correlationId)).count cid +
      if p.exec.pc.unreleased = some cid then 1 else 0 := rfl
  rw [pendingBuys, List.length_append, requestedBuys_length, hout]
  -- what the executor still buys it buys while it holds the flag
  by_cases hun : p.exec.pc.unreleased = some cid
  · have := handledBuys_length p.exec.pc cid
    rw [if_pos hun]
    omega
  · rw [handledBuys_eq_nil ho hun, if_neg hun, List.length_nil]
    omega

theorem buys_run {cfg : Config} {fraction minSize : ℚ} {as : List Action} {p : System}
    (h : run (step cfg) (init fraction minSize) as = some p) : p.exec.pc.buys.length ≤ 2 :=
  run_invariant (I := fun x : Executor => x.pc.buys.length ≤ 2)
    (fun _ _ _ => Executor.buys_step) (Nat.zero_le _) (run_executor h)

/-- **After a withdrawal**: from the step that unregisters `cid`, and until `cid` is
    registered again, comms sends no request for `cid`, and the executor starts at most the
    buys, one for each leg, of the one request that was outstanding, and none if none was. -/
theorem orders_after_withdrawal {cfg : Config} {fraction minSize : ℚ} {as bs : List Action}
    {c : Choice} {p q : System} {cid : CorrelationId} {rest : List CommsOp}
    (hrun : run (step cfg) (init fraction minSize) as = some p)
    (hpc : p.comms.pc = .next) (htodo : p.comms.todo = .unregisterArb cid :: rest)
    (hstep : step cfg p (.comms c) = some q)
    (hnr : Along (step cfg) (NotRegistering cid) q bs) :
    trace (sends cid) (step cfg) q bs = [] ∧
    (trace (startedBuys cid) (step cfg) q bs).Sublist (pendingBuys cid q) ∧
    q.queue.outstanding cid ≤ 1 ∧
    (pendingBuys cid q).length ≤ 2 * q.queue.outstanding cid := by
  have hw := withdrawn_unregisterArb hpc htodo hstep
  -- how much is pending is known in every state of a run from the start
  have hrun' : run (step cfg) (init fraction minSize) (as ++ [.comms c]) = some q :=
    run_append.mpr ⟨p, hrun, by simp [run, hstep]⟩
  obtain ⟨ho, hi⟩ := queue_inv_run (inv_init fraction minSize) hrun'
  exact ⟨sends_eq_nil hw hnr, startedBuys_sublist hw hnr, hi.single cid,
    pendingBuys_length ho (buys_run hrun')⟩

/-! ## §5 An order that starts after the withdrawal -/

/-- The sample pair is in flight when the server asks for its deletion. -/
def deletedInFlight : List Action := flaggedSteps ++ [.receive (.deleteRunningArbs ["x"])]

/-- The executor takes the queued request and starts on its orders. -/
def executeSteps : List Action :=
  [refreshFunds, .execReceive silentAnswers, .execEffect, .execEffect]

/-- Comms is about to unregister the id. -/
def unregistering (cid : CorrelationId) (p : System) : Bool :=
  match p.comms with
  | ⟨.next, .unregisterArb c :: _⟩ => c == cid
  | _ => false

theorem unregistering_spec {cid : CorrelationId} {p : System} (h : unregistering cid p = true) :
    p.comms.pc = .next ∧ ∃ rest, p.comms.todo = .unregisterArb cid :: rest := by
  unfold unregistering at h
  split at h
  · rename_i c rest hc
    obtain rfl : c = cid := by simpa using h
    rw [hc]
    exact ⟨rfl, rest, rfl⟩
  · cases h

/-- The executor's steps register nothing. -/
theorem executeSteps_notRegistering (q : System) :
    Along (step httpConfig) (NotRegistering "x") q executeSteps := by
  refine along_of_forall_mem (fun a ha s w hw => ?_) q
  simp only [executeSteps, List.mem_cons, List.not_mem_nil, or_false] at ha
  rcases ha with rfl | rfl | rfl | rfl <;> cases hw

/-- The run in which the deletion overtakes the request. -/
theorem deletedInFlight_run :
    ∃ p q, run (step httpConfig) (init (1 / 5) 2) deletedInFlight = some p ∧
      unregistering "x" p = true ∧ step httpConfig p commsOne = some q ∧
      (trace (startedBuys "x") (step httpConfig) q executeSteps).length = 2 := by
  have hrun : (run (step httpConfig) (init (1 / 5) 2) deletedInFlight).any (fun p =>
      unregistering "x" p && (step httpConfig p commsOne).any fun q =>
        (trace (startedBuys "x") (step httpConfig) q executeSteps).length == 2) = true := by
    decide +kernel
  obtain ⟨p, hp, h⟩ := (Option.any_eq_true _ _).mp hrun
  rw [Bool.and_eq_true, Option.any_eq_true] at h
  obtain ⟨hun, q, hq, hlen⟩ := h
  exact ⟨p, q, hp, hun, hq, beq_iff_eq.mp hlen⟩

/-- **An order for a withdrawn pair**: the executor starts both buy orders of the sample
    pair after comms has finished unregistering it. -/
theorem order_for_withdrawn_pair :
    ∃ p q, run (step httpConfig) (init (1 / 5) 2) deletedInFlight = some p ∧
      unregistering "x" p = true ∧ step httpConfig p commsOne = some q ∧ Withdrawn "x" q ∧
      Along (step httpConfig) (NotRegistering "x") q executeSteps ∧
      (trace (startedBuys "x") (step httpConfig) q executeSteps).length = 2 := by
  obtain ⟨p, q, hp, hun, hq, hlen⟩ := deletedInFlight_run
  obtain ⟨hpc, rest, htodo⟩ := unregistering_spec hun
  exact ⟨p, q, hp, hun, hq, withdrawn_unregisterArb hpc htodo hq, executeSteps_notRegistering q,
    hlen⟩

/-- Those two orders are the ones that `orders_after_withdrawal` allows. -/
theorem orders_after_withdrawal_sample :
    ∃ q, trace (sends "x") (step httpConfig) q executeSteps = [] ∧
      (trace (startedBuys "x") (step httpConfig) q executeSteps).length = 2 ∧
      q.queue.outstanding "x" ≤ 1 := by
  obtain ⟨p, q, hp, hun, hq, hlen⟩ := deletedInFlight_run
  obtain ⟨hpc, rest, htodo⟩ := unregistering_spec hun
  have h := orders_after_withdrawal hp hpc htodo hq (executeSteps_notRegistering q)
  exact ⟨q, h.1, hlen, h.2.2.1⟩

end System

end Degenerate.Picker
