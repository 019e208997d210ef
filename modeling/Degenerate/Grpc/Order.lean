import Degenerate.Grpc.Passage

/-!
# Order over Reconnects

Records are lost with a session, in both directions.  What is not lost keeps its order,
and nothing is sent again: the client has no resend and no acknowledgement, so that a
record that reaches the other side has done so once.

## Main Results

- `accounted_sublist`, `relayOrder_sublist`: a step drops records, or adds one at the end
- `delivered_once_in_order`: over every run, in both directions, whether the client still
  runs or has returned
-/

namespace Degenerate.Grpc

open Degenerate.Lib

variable {μ ν : Type}

/-- A client that has returned has nothing in its hand. -/
theorem ClientPc.hand_of_isStopped {pc : ClientPc μ ν} (h : pc.isStopped = true) :
    pc.hand = [] := by
  cases pc <;> first | rfl | cases h

theorem ClientPc.isStopped_mapSession (f : Session μ ν → Session μ ν) (pc : ClientPc μ ν) :
    (pc.mapSession f).isStopped = pc.isStopped := by
  cases pc <;> rfl

namespace GrpcClient

/-! ## §1 A step -/

/-- What the server sent, as far as it has come: first what the bot has. -/
def relayOrder (c : GrpcClient μ ν) : List ν := c.botInbound ++ c.pc.relayed ++ c.pc.incoming

/-- The client's own requests: those that the server has, those on their way, and those that are
    still to be made. -/
def allRequests (c : GrpcClient μ ν) : ℕ :=
  c.received.countP (fun ebo => ebo.ebo?.isNone) +
    c.outbound.countP (fun ebo => ebo.ebo?.isNone) + c.requests

/-- The client before and after the step in which it returns. -/
structure Returned (c c' : GrpcClient μ ν) (a : Action μ ν) : Prop where
  botOutboundRx : c'.botOutboundRx = c.botOutboundRx
  botInbound : c'.botInbound = c.botInbound
  received : c'.received = c.received
  firstConnect : c'.firstConnect = c.firstConnect
  recovery : c'.recovery = c.recovery
  enqueued : a.enqueued = []
  replied : a.replied = []
  arrived : c.arrived a = []

/-- A message that is added or arrives, on either way, leaves the client running. -/
theorem isStopped_of_message {c c' : GrpcClient μ ν} {a : Action μ ν} (h : c.step a = some c')
    (ha : ¬ (a.enqueued = [] ∧ a.replied = [] ∧ c.arrived a = [])) :
    c'.pc.isStopped = c.pc.isStopped := by
  have hrunning := (step_moves h).1
  -- only these three put something into a queue, and none of them moves the task
  cases a with
  | enqueue ebo =>
    simp only [step, hrunning, Bool.false_eq_true, if_false] at h
    split at h <;> cases h
    rfl
  | reply ebo =>
    simp only [step, hrunning, Bool.false_eq_true, if_false, clientStep, Option.none_or] at h
    obtain ⟨s, -, h⟩ := Option.bind_eq_some_iff.mp h
    obtain ⟨-, h⟩ := Option.ite_none_right_eq_some.mp h
    cases h
    exact ClientPc.isStopped_mapSession _ _
  | deliver =>
    simp only [step, hrunning, Bool.false_eq_true, if_false, clientStep, Option.none_or] at h
    obtain ⟨s, -, h⟩ := Option.bind_eq_some_iff.mp h
    simp only [networkStep] at h
    split at h <;> cases h
    exact ClientPc.isStopped_mapSession _ _
  | _ => exact absurd ⟨rfl, rfl, rfl⟩ ha

/-- **A client that returns** leaves its channels as they are. -/
theorem step_returned {c c' : GrpcClient μ ν} {a : Action μ ν} (h : c.step a = some c')
    (hstopped : c'.pc.isStopped = true) : c.Returned c' a := by
  obtain ⟨hrunning, hmoves⟩ := step_moves h
  obtain ⟨henqueued, hreplied, harrived⟩ :
      a.enqueued = [] ∧ a.replied = [] ∧ c.arrived a = [] := by
    by_contra hmessage
    have heq := isStopped_of_message h hmessage
    exact Bool.false_ne_true ((hrunning.symm.trans heq.symm).trans hstopped)
  -- a step that stays in its session, or goes on, does not return
  have hmap : ∀ f : Session μ ν → Session μ ν, (c.pc.mapSession f).isStopped = true → False := by
    intro f hf
    rw [ClientPc.isStopped_mapSession] at hf
    exact Bool.false_ne_true (hrunning.symm.trans hf)
  have hsame : c.pc.isStopped = true → False := fun hf =>
    Bool.false_ne_true (hrunning.symm.trans hf)
  have hfailed : ∀ t, c.Returned (c.sessionFailed t) a := by
    intro t
    obtain ⟨retries, pc, heq, -, -⟩ := c.sessionFailed_eq t
    rw [heq]
    exact ⟨rfl, rfl, rfl, rfl, rfl, henqueued, hreplied, harrived⟩
  cases hmoves with
  | enqueue => exact absurd hstopped hsame
  | closeOutbound => exact absurd hstopped hsame
  | cancel => exact absurd hstopped hsame
  | tick => exact absurd hstopped hsame
  | attempt => exact ⟨rfl, rfl, rfl, rfl, rfl, rfl, rfl, rfl⟩
  | connected => cases hstopped
  | notConnected => exact hfailed _
  | opened => cases hstopped
  | notOpened => exact hfailed _
  | returns => exact ⟨rfl, rfl, rfl, rfl, rfl, henqueued, hreplied, harrived⟩
  | recv => cases hstopped
  | sent => cases hstopped
  | sendFails => exact hfailed _
  | message => cases hstopped
  | streamEnds => exact hfailed _
  | relayed => cases hstopped
  | relayFails => exact hfailed _
  | retry => cases hstopped
  | requested => exact absurd hstopped (hmap _)
  | requestFails => exact absurd hstopped hsame
  | transmit => exact absurd hstopped (hmap _)
  | deliver => exact absurd hstopped (hmap _)
  | reply => exact absurd hstopped (hmap _)
  | breakStream => exact absurd hstopped (hmap _)

/-- **To the server**: a step drops records, or adds one at the end. -/
theorem accounted_sublist {c c' : GrpcClient μ ν} {a : Action μ ν} (hd : c.Drained)
    (h : c.step a = some c') : c'.accounted.Sublist (c.accounted ++ a.enqueued) := by
  cases hstopped : c'.pc.isStopped with
  | false =>
    obtain ⟨pre, post, hbefore, hafter⟩ := accounted_step hd h hstopped
    rw [hbefore, hafter]
    exact ((List.sublist_append_left pre _).append (.refl post)).append (.refl _)
  | true =>
    -- what the session carried is gone with it
    have hr := step_returned h hstopped
    have hafter : c'.accounted = c.delivered ++ c.botOutboundRx := by
      rw [accounted_of_no_session (ClientPc.session_of_isStopped hstopped)
        (ClientPc.hand_of_isStopped hstopped), delivered, hr.received, hr.botOutboundRx]
      rfl
    rw [hafter, hr.enqueued, List.append_nil, accounted, List.append_assoc c.delivered]
    exact (List.sublist_append_left c.delivered _).append (.refl _)

theorem relayOrder_of_no_session {c : GrpcClient μ ν} (h : c.pc.session = none) :
    c.relayOrder = c.botInbound := by
  simp [relayOrder, ClientPc.incoming, relayed_of_no_session h, h]

/-- **To the bot**: a step drops records, or adds one at the end. -/
theorem relayOrder_sublist {c c' : GrpcClient μ ν} {a : Action μ ν} (h : c.step a = some c') :
    c'.relayOrder.Sublist (c.relayOrder ++ a.replied) := by
  have hkept : c'.relayOrder = c.relayOrder →
      c'.relayOrder.Sublist (c.relayOrder ++ a.replied) := by
    intro heq
    rw [heq]
    exact List.sublist_append_left _ _
  -- a step that leaves its session, if there is one
  have hdropped : c'.pc.session = none → c'.botInbound = c.botInbound →
      c'.relayOrder.Sublist (c.relayOrder ++ a.replied) := by
    intro hs hin
    rw [relayOrder_of_no_session hs, hin, relayOrder, List.append_assoc, List.append_assoc]
    exact List.sublist_append_left _ _
  have hfailed : ∀ t, (c.sessionFailed t).relayOrder.Sublist (c.relayOrder ++ a.replied) := by
    intro t
    obtain ⟨retries, pc, heq, hs, -⟩ := c.sessionFailed_eq t
    rw [heq, relayOrder_of_no_session hs, relayOrder, List.append_assoc, List.append_assoc]
    exact List.sublist_append_left _ _
  have hmap : ∀ {f : Session μ ν → Session μ ν}, c'.botInbound = c.botInbound →
      c'.pc = c.pc.mapSession f → (∀ s, (f s).incoming = s.incoming) →
      c'.relayOrder = c.relayOrder := by
    intro f hin hpc hf
    simp [relayOrder, hin, hpc, incoming_mapSession hf]
  cases (step_moves h).2 with
  | enqueue => exact hkept rfl
  | closeOutbound => exact hkept rfl
  | cancel => exact hkept rfl
  | tick => exact hkept rfl
  | attempt => exact hdropped c.session_attempt rfl
  | connected => exact hdropped rfl rfl
  | notConnected => exact hfailed _
  | opened hpc =>
    refine hkept ?_
    rw [relayOrder_of_no_session (c := c) (by rw [hpc]; rfl)]
    simp [relayOrder, established, ClientPc.relayed, ClientPc.incoming, ClientPc.session]
  | notOpened => exact hfailed _
  | returns => exact hdropped rfl rfl
  | recv hpc hrx => exact hkept (by simp only [relayOrder, hpc]; rfl)
  | sent hpc hup => exact hkept (by simp only [relayOrder, hpc]; rfl)
  | sendFails => exact hfailed _
  | message hpc hin =>
    -- from the wire into the client's hand
    refine hkept ?_
    simp [relayOrder, ClientPc.relayed, ClientPc.incoming, ClientPc.session, hpc, hin]
  | streamEnds => exact hfailed _
  | relayed hpc =>
    refine hkept ?_
    simp [relayOrder, ClientPc.relayed, ClientPc.incoming, ClientPc.session, hpc]
  | relayFails => exact hfailed _
  | retry => exact hdropped rfl rfl
  | requested => exact hkept (hmap rfl rfl fun _ => rfl)
  | requestFails => exact hkept rfl
  | transmit => exact hkept (hmap rfl rfl fun _ => rfl)
  | deliver => exact hkept (hmap rfl rfl fun _ => rfl)
  | @reply s ebo hs =>
    -- the one step that adds a message
    have hadded : (c.pc.mapSession fun s => { s with incoming := s.incoming ++ [ebo] }).incoming =
        c.pc.incoming ++ [ebo] := by
      simp [ClientPc.incoming, hs]
    simp only [relayOrder, relayed_mapSession, hadded, Action.replied, List.append_assoc]
    exact .refl _
  | breakStream => exact hkept (hmap rfl rfl fun _ => rfl)

/-- What arrives is what the server receives. -/
theorem received_step {c c' : GrpcClient μ ν} {a : Action μ ν} (h : c.step a = some c') :
    c'.received = c.received ++ c.arrived a := by
  -- a session that fails keeps what it has received
  have hfailed : ∀ t, (c.sessionFailed t).received = c.received ++ [] := by
    intro t
    obtain ⟨retries, pc, heq, -, -⟩ := c.sessionFailed_eq t
    rw [heq, List.append_nil]
  have hnone : c.received = c.received ++ [] := (List.append_nil _).symm
  cases (step_moves h).2 with
  | returns =>
    have hr := step_returned h rfl
    rw [hr.received, hr.arrived, List.append_nil]
  | notConnected => exact hfailed _
  | notOpened => exact hfailed _
  | sendFails => exact hfailed _
  | streamEnds => exact hfailed _
  | relayFails => exact hfailed _
  | deliver hs hout => simp [arrived, hs, hout]
  | _ => exact hnone

/-- A client that returns has nothing on its way to the server that was not there before. -/
theorem outbound_le_of_isStopped {c c' : GrpcClient μ ν} {a : Action μ ν} (h : c.step a = some c')
    (hstopped : c'.pc.isStopped = true) : c'.outbound ≤ c.outbound := by
  rw [outbound_of_no_session (ClientPc.session_of_isStopped hstopped)
    (ClientPc.hand_of_isStopped hstopped), (step_returned h hstopped).botOutboundRx, outbound]
  exact (List.sublist_append_right _ _).subperm

/-- What is on its way to the server after a step, or arrives in it, was on its way before it,
    or is added by it. -/
theorem mem_outbound_step {c c' : GrpcClient μ ν} {a : Action μ ν} (h : c.step a = some c')
    {ebo : NetworkEbo μ} (hebo : ebo ∈ c'.outbound ∨ ebo ∈ c.arrived a) :
    ebo ∈ c.outbound ∨ ebo ∈ a.added := by
  cases hstopped : c'.pc.isStopped with
  | false =>
    have hmem : ebo ∈ c'.outbound + c.lostOutbound a + c.arrived a := by
      rw [Multiset.mem_add, Multiset.mem_add]
      exact hebo.imp .inl id
    rw [outbound_step h hstopped] at hmem
    exact Multiset.mem_add.mp hmem
  | true =>
    rcases hebo with hebo | hebo
    · exact .inl (Multiset.mem_of_le (outbound_le_of_isStopped h hstopped) hebo)
    · rw [(step_returned h hstopped).arrived] at hebo
      cases hebo

/-- What is on its way to the bot after a step was so before it, or is the server's reply. -/
theorem mem_inbound_step {c c' : GrpcClient μ ν} {a : Action μ ν} (h : c.step a = some c') {ebo : ν}
    (hebo : ebo ∈ c'.inbound) : ebo ∈ c.inbound ∨ ebo ∈ a.replied :=
  List.mem_append.mp ((relayOrder_sublist h).subset hebo)

/-- **The client's own requests** do not become more. -/
theorem allRequests_step {c c' : GrpcClient μ ν} {a : Action μ ν} (hn : c.NotStarted)
    (h : c.step a = some c') : c'.allRequests ≤ c.allRequests := by
  cases hstopped : c'.pc.isStopped with
  -- while the client runs, a request moves from the counters to the stream or stays
  | false =>
    have hout := congrArg (Multiset.countP fun ebo : NetworkEbo μ => ebo.ebo?.isNone = true)
      (outbound_step h hstopped)
    have hrequests := (requests_step hn h hstopped).2
    have hreceived := received_step h
    simp only [Multiset.countP_add, Multiset.coe_countP, Bool.decide_eq_true] at hout
    rw [allRequests, allRequests, hreceived, List.countP_append]
    omega
  | true =>
    -- at the return the queues are dropped
    have hr := step_returned h hstopped
    have hout := outbound_le_of_isStopped h hstopped
    have hrequests : c'.requests = c.requests := by
      rw [requests, requests, hr.firstConnect, hr.recovery]
    rw [allRequests, allRequests, hr.received, hrequests]
    have hcount := Multiset.countP_le_of_le (fun ebo : NetworkEbo μ => ebo.ebo?.isNone = true) hout
    omega

theorem notStarted_step {c c' : GrpcClient μ ν} {a : Action μ ν} (hn : c.NotStarted)
    (h : c.step a = some c') : c'.NotStarted := by
  cases hstopped : c'.pc.isStopped with
  | false => exact (requests_step hn h hstopped).1
  | true =>
    have hr := step_returned h hstopped
    intro hfirst
    exact ⟨hr.recovery.trans (hn (hr.firstConnect.symm.trans hfirst)).1,
      ClientPc.session_of_isStopped hstopped⟩

/-! ## §2 Runs -/

/-- What holds of the channels, given what was put into them. -/
structure InOrder (as : List (Action μ ν)) (c : GrpcClient μ ν) : Prop where
  drained : c.Drained
  notStarted : c.NotStarted
  accounted : c.accounted.Sublist (as.flatMap Action.enqueued)
  relayed : c.relayOrder.Sublist (as.flatMap Action.replied)
  requests : c.allRequests ≤ 1

theorem inOrder_run {as : List (Action μ ν)} {c : GrpcClient μ ν}
    (hrun : run step {} as = some c) : InOrder as c := by
  refine run_invariant_prefix (I := InOrder) ?_ ?_ hrun
  · exact ⟨drained_init, fun _ => ⟨rfl, rfl⟩, .refl _, .refl _, le_refl 1⟩
  · intro as c a c' _ hi h
    refine ⟨drained_step hi.drained h, notStarted_step hi.notStarted h, ?_, ?_,
      (allRequests_step hi.notStarted h).trans hi.requests⟩
    · rw [List.flatMap_append, List.flatMap_singleton]
      exact (accounted_sublist hi.drained h).trans (hi.accounted.append (.refl _))
    · rw [List.flatMap_append, List.flatMap_singleton]
      exact (relayOrder_sublist h).trans (hi.relayed.append (.refl _))

/-- **Once, and in order**: over every run, with any number of sessions, what the server has
    received of the bot's messages is a sublist of what the bot enqueued, what the bot has
    received is a sublist of what the server sent, and the request for the running arbs has
    arrived at most once. -/
theorem delivered_once_in_order {as : List (Action μ ν)} {c : GrpcClient μ ν}
    (hrun : run step {} as = some c) :
    c.delivered.Sublist (as.flatMap Action.enqueued) ∧
      c.botInbound.Sublist (as.flatMap Action.replied) ∧
      c.received.countP (fun ebo => ebo.ebo?.isNone) ≤ 1 := by
  have hi := inOrder_run hrun
  refine ⟨?_, ?_, ?_⟩
  · refine List.Sublist.trans ?_ hi.accounted
    rw [accounted, List.append_assoc, List.append_assoc]
    exact List.sublist_append_left _ _
  · refine List.Sublist.trans ?_ hi.relayed
    rw [relayOrder, List.append_assoc]
    exact List.sublist_append_left _ _
  · refine le_trans ?_ hi.requests
    rw [allRequests, Nat.add_assoc]
    exact Nat.le_add_right _ _

/-- Two streams: a record and a reply are through before the first one breaks, a record is lost
    with it, and the next ones go over the second stream. -/
def lossySteps : List (Action ℕ ℕ) :=
  [.attempt, .connected true, .opened true, .enqueue 1, .recv, .send, .transmit, .deliver,
    .reply 7, .message, .relay true, .enqueue 2, .recv, .send, .breakStream, .message,
    .tick 2000, .retry, .attempt, .connected true, .opened true, .enqueue 3, .recv, .send,
    .transmit, .deliver, .reply 9, .message, .relay true]

theorem delivered_once_in_order_lossy :
    ∃ c, run step {} lossySteps = some c ∧ c.delivered = [1, 3] ∧ c.botInbound = [7, 9] ∧
      c.delivered.Sublist [1, 2, 3] ∧ c.received.countP (fun ebo => ebo.ebo?.isNone) ≤ 1 := by
  have hcheck : (run step ({} : GrpcClient ℕ ℕ) lossySteps).any (fun c =>
      c.delivered == [1, 3] && c.botInbound == [7, 9]) = true := by decide +kernel
  obtain ⟨c, hc, hcheck⟩ := (Option.any_eq_true _ _).mp hcheck
  rw [Bool.and_eq_true, beq_iff_eq, beq_iff_eq] at hcheck
  have h := delivered_once_in_order hc
  exact ⟨c, hc, hcheck.1, hcheck.2, h.1, h.2.2⟩

end GrpcClient

end Degenerate.Grpc
