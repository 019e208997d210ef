import Degenerate.Grpc.Client

/-!
# Delivery over Reconnects

A record that the bot has enqueued is on its way through four places: the outbound
channel, the client's hand, the channel of the session, the wire.  The last three
belong to a session, and end with it.

## Main Results

- `accounted_eq_enqueued_iff`: nothing is lost exactly when no session ends, and no
  stream breaks, with a record on its way in it
-/

namespace Degenerate.Grpc

open Degenerate.Lib

variable {μ ν : Type}

/-! ## §1 Where the records are -/

/-- What a session carries, the oldest first. -/
def Session.carried (s : Session μ ν) : List μ :=
  (s.outgoing ++ s.network).filterMap NetworkEbo.ebo?

/-- What the current session carries. -/
def ClientPc.carried (pc : ClientPc μ ν) : List μ := (pc.session.map Session.carried).getD []

/-- The record that the step enqueues. -/
def Action.enqueued : Action μ ν → List μ
  | .enqueue ebo => [ebo]
  | _ => []

namespace GrpcClient

/-- The records that the server has received. -/
def delivered (c : GrpcClient μ ν) : List μ := c.received.filterMap NetworkEbo.ebo?

/-- The records that are received or on their way, in the order of the way. -/
def accounted (c : GrpcClient μ ν) : List μ :=
  c.delivered ++ c.pc.carried ++ c.pc.hand ++ c.botOutboundRx

/-- The records that a step drops with a session: what a broken stream carried, what was in
    the client's hand when the stream was gone, and what an unread stream carried. -/
def lost (c : GrpcClient μ ν) : Action μ ν → List μ
  | .breakStream => c.pc.carried
  | .send => if c.pc.session.any fun s => !s.up then c.pc.hand else []
  | .relay false => c.pc.carried
  | _ => []

/-- A broken stream carries nothing. -/
def Drained (c : GrpcClient μ ν) : Prop :=
  ∀ s, c.pc.session = some s → s.up = false → s.network = [] ∧ s.outgoing = []

/-! ## §2 One step -/

theorem accounted_sessionFailed (c : GrpcClient μ ν) (t : ℕ) :
    (c.sessionFailed t).accounted = c.delivered ++ c.botOutboundRx := by
  obtain ⟨retries, pc, h, hsession, hhand⟩ := c.sessionFailed_eq t
  simp [h, accounted, delivered, ClientPc.carried, hsession, hhand]

theorem drained_sessionFailed (c : GrpcClient μ ν) (t : ℕ) : (c.sessionFailed t).Drained := by
  obtain ⟨retries, pc, heq, hsession, -⟩ := c.sessionFailed_eq t
  intro s hs
  rw [heq] at hs
  cases hsession.symm.trans hs

/-- A session that is changed where it is stays drained if the change keeps it so. -/
theorem drained_mapSession {c c' : GrpcClient μ ν} {f : Session μ ν → Session μ ν}
    (hpc : c'.pc = c.pc.mapSession f) (hf : ∀ s, c.pc.session = some s → (f s).up = false →
      (f s).network = [] ∧ (f s).outgoing = []) : c'.Drained := by
  intro s hs
  rw [hpc, ClientPc.session_mapSession] at hs
  obtain ⟨s₀, hs₀, rfl⟩ := Option.map_eq_some_iff.mp hs
  exact hf s₀ hs₀

theorem drained_step {c c' : GrpcClient μ ν} {a : Action μ ν} (hd : c.Drained)
    (h : c.step a = some c') : c'.Drained := by
  cases (step_moves h).2 with
  -- the steps of the other tasks leave the session alone
  | enqueue => exact hd
  | closeOutbound => exact hd
  | cancel => exact hd
  | tick => exact hd
  | attempt =>
    intro s hs
    cases c.session_attempt.symm.trans hs
  | connected => rintro s ⟨⟩
  | notConnected => exact c.drained_sessionFailed _
  | opened => rintro s ⟨⟩ ⟨⟩
  | notOpened => exact c.drained_sessionFailed _
  | returns => rintro s ⟨⟩
  | recv hpc =>
    intro s hs
    exact hd s (by rw [hpc]; exact hs)
  | sent _ hup =>
    -- nothing is put on the channel of a broken stream
    rintro s ⟨⟩ hdown
    cases hup.symm.trans hdown
  | sendFails => exact c.drained_sessionFailed _
  | @message t s _ _ hpc =>
    rintro s' ⟨⟩ hdown
    have hs : c.pc.session = some s := by rw [hpc]; rfl
    exact hd s hs hdown
  | streamEnds => exact c.drained_sessionFailed _
  | relayed hpc =>
    intro s hs
    exact hd s (by rw [hpc]; exact hs)
  | relayFails => exact c.drained_sessionFailed _
  | retry => rintro s ⟨⟩
  -- a request is put on a stream that stands
  | requested _ hs =>
    obtain ⟨hs, -, hup⟩ := recoverySession_eq_some hs
    refine drained_mapSession rfl fun s' hs' hdown => ?_
    cases hs.symm.trans hs'
    cases hup.symm.trans hdown
  | requestFails => exact hd
  -- a broken stream has nothing to carry on
  | transmit hs hnet =>
    refine drained_mapSession rfl fun s' hs' hdown => ?_
    cases hs.symm.trans hs'
    rw [(hd _ hs hdown).1] at hnet
    cases hnet
  | deliver hs hout =>
    refine drained_mapSession rfl fun s' hs' hdown => ?_
    cases hs.symm.trans hs'
    rw [(hd _ hs hdown).2] at hout
    cases hout
  | reply hs hup =>
    refine drained_mapSession rfl fun s' hs' hdown => ?_
    cases hs.symm.trans hs'
    cases hup.symm.trans hdown
  | breakStream => exact drained_mapSession rfl fun _ _ _ => ⟨rfl, rfl⟩

/-- A session that is changed where it is changes what is on its way by what it carries. -/
theorem accounted_mapSession {c c' : GrpcClient μ ν} {f : Session μ ν → Session μ ν}
    {s : Session μ ν} (hs : c.pc.session = some s) (hpc : c'.pc = c.pc.mapSession f)
    (hrx : c'.botOutboundRx = c.botOutboundRx) :
    c'.accounted = c'.delivered ++ (f s).carried ++ c.pc.hand ++ c.botOutboundRx := by
  simp [accounted, ClientPc.carried, hpc, hs, hrx]

theorem accounted_of_session {c : GrpcClient μ ν} {s : Session μ ν} (hs : c.pc.session = some s) :
    c.accounted = c.delivered ++ s.carried ++ c.pc.hand ++ c.botOutboundRx := by
  simp [accounted, ClientPc.carried, hs]

/-- A change of the session that only moves records on keeps them all. -/
theorem accounted_eq_of_mapSession {c c' : GrpcClient μ ν} {f : Session μ ν → Session μ ν}
    {s : Session μ ν} (hs : c.pc.session = some s) (hpc : c'.pc = c.pc.mapSession f)
    (hrx : c'.botOutboundRx = c.botOutboundRx)
    (hmoved : c'.delivered ++ (f s).carried = c.delivered ++ s.carried) :
    c'.accounted = c.accounted := by
  rw [accounted_mapSession hs hpc hrx, accounted_of_session hs, hmoved]

theorem accounted_of_no_session {c : GrpcClient μ ν} (hs : c.pc.session = none)
    (hhand : c.pc.hand = []) : c.accounted = c.delivered ++ c.botOutboundRx := by
  simp [accounted, ClientPc.carried, hs, hhand]

/-- **What a step does to the records on their way**: it takes out what it loses, and adds what
    it enqueues at the end. -/
theorem accounted_step {c c' : GrpcClient μ ν} {a : Action μ ν} (hd : c.Drained)
    (h : c.step a = some c') (hrunning : c'.pc.isStopped = false) :
    ∃ pre post, c.accounted = pre ++ c.lost a ++ post ∧
      c'.accounted = pre ++ post ++ a.enqueued := by
  -- most steps move a record from one place to the next one
  have hkept : ∀ {c' : GrpcClient μ ν} {a : Action μ ν}, c.lost a = [] → a.enqueued = [] →
      c'.accounted = c.accounted → ∃ pre post, c.accounted = pre ++ c.lost a ++ post ∧
        c'.accounted = pre ++ post ++ a.enqueued := by
    intro c' a hl he hacc
    exact ⟨c.accounted, [], by simp [hl], by simp [he, hacc]⟩
  -- an attempt that fails before it has a session
  have hattempt : ∀ t, c.pc.session = none → c.pc.hand = [] →
      (c.sessionFailed t).accounted = c.accounted := by
    intro t hs hhand
    rw [accounted_sessionFailed, accounted_of_no_session hs hhand]
  cases (step_moves h).2 with
  | enqueue => exact ⟨c.accounted, [], by simp [lost], by
      simp [accounted, delivered, Action.enqueued]⟩
  | closeOutbound => exact hkept rfl rfl rfl
  | cancel => exact hkept rfl rfl rfl
  | tick => exact hkept rfl rfl rfl
  -- without a session only the channel from the bot holds records
  | attempt hpc =>
    refine hkept rfl rfl ?_
    rw [accounted_of_no_session (c := c) (by rw [hpc]; rfl) (by rw [hpc]; rfl)]
    apply accounted_of_no_session
    · exact c.session_attempt
    · exact c.hand_attempt
  | connected hpc => exact hkept rfl rfl (by simp [accounted, delivered, hpc]; rfl)
  | notConnected hpc =>
    exact hkept rfl rfl (hattempt _ (by rw [hpc]; rfl) (by rw [hpc]; rfl))
  | opened hpc => exact hkept rfl rfl (by simp [accounted, delivered, hpc]; rfl)
  | notOpened hpc =>
    exact hkept rfl rfl (hattempt _ (by rw [hpc]; rfl) (by rw [hpc]; rfl))
  -- excluded: the client has not returned
  | returns => cases hrunning
  | recv hpc hrx =>
    exact hkept rfl rfl (by simp [accounted, delivered, ClientPc.carried, hpc, hrx]; rfl)
  | sent hpc hup =>
    refine hkept ?_ rfl ?_
    · simp [lost, hpc, ClientPc.session, hup]
    · simp [accounted, delivered, ClientPc.carried, Session.carried, ClientPc.session,
        ClientPc.hand, NetworkEbo.ebo?, hpc]
  | sendFails hpc hdown =>
    -- the session is drained, the record in hand is lost with it
    obtain ⟨hnet, hout⟩ := hd _ (by rw [hpc]; rfl) hdown
    refine ⟨c.delivered, c.botOutboundRx, ?_, ?_⟩
    · simp [lost, accounted, ClientPc.carried, Session.carried, ClientPc.session, ClientPc.hand,
        hpc, hdown, hnet, hout]
    · rw [accounted_sessionFailed]
      exact (List.append_nil _).symm
  | message hpc => exact hkept rfl rfl (by simp [accounted, delivered, hpc]; rfl)
  -- a session that ends by its stream is drained already
  | streamEnds hpc hdown =>
    obtain ⟨hnet, hout⟩ := hd _ (by rw [hpc]; rfl) hdown
    refine hkept rfl rfl ?_
    rw [accounted_sessionFailed]
    simp [accounted, ClientPc.carried, Session.carried, ClientPc.session, ClientPc.hand, hpc, hnet,
      hout]
  | relayed hpc => exact hkept rfl rfl (by simp [accounted, delivered, hpc]; rfl)
  -- the bot is gone, and so are the records of the session
  | relayFails hpc =>
    refine ⟨c.delivered, c.botOutboundRx, ?_, ?_⟩
    · simp [lost, accounted, ClientPc.hand, hpc]
    · rw [accounted_sessionFailed]
      exact (List.append_nil _).symm
  | retry hpc => exact hkept rfl rfl (by simp [accounted, delivered, hpc]; rfl)
  -- the client's own request is no record of the bot
  | requested _ hs =>
    obtain ⟨hs, -, -⟩ := recoverySession_eq_some hs
    refine hkept rfl rfl (accounted_eq_of_mapSession hs rfl rfl ?_)
    simp [push, delivered, Session.carried, NetworkEbo.ebo?]
  | requestFails => exact hkept rfl rfl rfl
  | transmit hs hnet =>
    refine hkept rfl rfl (accounted_eq_of_mapSession hs rfl rfl ?_)
    simp [delivered, Session.carried, hnet]
  | deliver hs hout =>
    refine hkept rfl rfl (accounted_eq_of_mapSession hs rfl rfl ?_)
    simp only [delivered, Session.carried, hout, ← List.filterMap_append, List.append_assoc]
    rfl
  | reply hs hup =>
    refine hkept rfl rfl (accounted_eq_of_mapSession hs rfl rfl ?_)
    rfl
  -- what is on its way on the stream is lost, what is in hand is not yet
  | breakStream hs hup =>
    refine ⟨c.delivered, c.pc.hand ++ c.botOutboundRx, ?_, ?_⟩
    · simp [lost, accounted]
    · simp [accounted, delivered, Action.enqueued, ClientPc.carried, Session.carried, hs]

/-! ## §3 Runs -/

/-- The step loses no record. -/
def Lossless (c : GrpcClient μ ν) (a : Action μ ν) : Prop := c.lost a = []

instance [DecidableEq μ] (c : GrpcClient μ ν) (a : Action μ ν) : Decidable (c.Lossless a) :=
  inferInstanceAs (Decidable (c.lost a = []))

theorem drained_init : ({} : GrpcClient μ ν).Drained := by rintro s ⟨⟩

/-- A client that takes a step, or ends the run, has not returned. -/
theorem running_of_run {c c' : GrpcClient μ ν} {as : List (Action μ ν)}
    (hrun : run step c as = some c') (hrunning : c'.pc.isStopped = false) :
    c.pc.isStopped = false := by
  cases as with
  | nil =>
    obtain rfl : c = c' := by simpa using hrun
    exact hrunning
  | cons a as =>
    obtain ⟨t, ht, -⟩ := run_cons.mp hrun
    exact (step_moves ht).1

/-- Records are never made up on the way, and a run keeps them all exactly when each step does. -/
theorem accounted_run {c c' : GrpcClient μ ν} {as : List (Action μ ν)} (hd : c.Drained)
    (hrun : run step c as = some c') (hrunning : c'.pc.isStopped = false) :
    c'.accounted.length ≤ c.accounted.length + (as.flatMap Action.enqueued).length ∧
      (c'.accounted = c.accounted ++ as.flatMap Action.enqueued ↔ Along step Lossless c as) := by
  induction as generalizing c with
  | nil =>
    obtain rfl : c = c' := by simpa using hrun
    simp
  | cons a as ih =>
    obtain ⟨t, ht, hrest⟩ := run_cons.mp hrun
    obtain ⟨hle, hiff⟩ := ih (drained_step hd ht) hrest
    obtain ⟨pre, post, hbefore, hafter⟩ := accounted_step hd ht (running_of_run hrest hrunning)
    have hcount : t.accounted.length + (c.lost a).length =
        c.accounted.length + a.enqueued.length := by
      rw [hbefore, hafter]
      simp only [List.length_append]
      omega
    simp only [List.flatMap_cons, List.length_append]
    refine ⟨by omega, ?_⟩
    by_cases hlost : c.lost a = []
    · have hkept : t.accounted = c.accounted ++ a.enqueued := by
        rw [hafter, hbefore, hlost, List.append_nil]
      rw [← List.append_assoc, ← hkept, hiff]
      constructor
      · intro h
        refine ⟨hlost, fun t' ht' => ?_⟩
        cases ht.symm.trans ht'
        exact h
      · rintro ⟨-, h⟩
        exact h t ht
    · -- what is lost is missing from then on
      have hpos : 0 < (c.lost a).length := List.length_pos_iff.mpr hlost
      constructor
      · intro h
        have hlen := congrArg List.length h
        simp only [List.length_append] at hlen
        omega
      · rintro ⟨h, -⟩
        exact absurd h hlost

/-- **Nothing is lost** exactly when no session ends, and no stream breaks, with a record on its
    way in it: then what was enqueued is received, on the wire, in the session's channel, in the
    client's hand or in the outbound channel, each record once and in order. -/
theorem accounted_eq_enqueued_iff {as : List (Action μ ν)} {c : GrpcClient μ ν}
    (hrun : run step {} as = some c) (hrunning : c.pc.isStopped = false) :
    c.accounted = as.flatMap Action.enqueued ↔ Along step Lossless {} as := by
  simpa [accounted, delivered, ClientPc.carried, ClientPc.session, ClientPc.hand] using
    (accounted_run drained_init hrun hrunning).2

/-- A session is opened at the first attempt. -/
def openSession : List (Action ℕ Unit) := [.attempt, .connected true, .opened true]

/-- A record that is through before the stream breaks, and one that waits for the next session. -/
def reconnecting : List (Action ℕ Unit) :=
  openSession ++ [.enqueue 1, .recv, .send, .transmit, .deliver, .breakStream, .enqueue 2, .message]

theorem accounted_eq_enqueued_reconnecting :
    ∃ c, run step {} reconnecting = some c ∧ c.delivered = [1] ∧ c.accounted = [1, 2] := by
  have hcheck : (run step ({} : GrpcClient ℕ Unit) reconnecting).any (fun c =>
      c.delivered == [1] && !c.pc.isStopped) = true := by decide +kernel
  have hlossless : Along step Lossless ({} : GrpcClient ℕ Unit) reconnecting := by decide +kernel
  obtain ⟨c, hc, hcheck⟩ := (Option.any_eq_true _ _).mp hcheck
  rw [Bool.and_eq_true, beq_iff_eq, Bool.not_eq_true'] at hcheck
  exact ⟨c, hc, hcheck.1, (accounted_eq_enqueued_iff hc hcheck.2).mpr hlossless⟩

/-- **A record that is lost with its session**: one on the session's channel when the stream
    breaks, and one that is taken from the outbound channel when the stream is gone. -/
theorem record_lost :
    (∃ c, run step {} (openSession ++ [.enqueue 1, .recv, .send, .breakStream]) = some c ∧
      c.pc.isStopped = false ∧ c.accounted = []) ∧
    ∃ c, run step {} (openSession ++ [.breakStream, .enqueue 1, .recv, .send]) = some c ∧
      c.pc.isStopped = false ∧ c.accounted = [] := by
  have hlost : ∀ as ∈ [openSession ++ [.enqueue 1, .recv, .send, .breakStream],
      openSession ++ [.breakStream, .enqueue 1, .recv, .send]],
      (run step ({} : GrpcClient ℕ Unit) as).any (fun c =>
        !c.pc.isStopped && c.accounted == []) = true := by decide +kernel
  have hend : ∀ as : List (Action ℕ Unit), (run step {} as).any (fun c =>
      !c.pc.isStopped && c.accounted == []) = true →
      ∃ c, run step {} as = some c ∧ c.pc.isStopped = false ∧ c.accounted = [] := by
    intro as h
    obtain ⟨c, hc, hcheck⟩ := (Option.any_eq_true _ _).mp h
    rw [Bool.and_eq_true, beq_iff_eq, Bool.not_eq_true'] at hcheck
    exact ⟨c, hc, hcheck⟩
  exact ⟨hend _ (hlost _ (by simp)), hend _ (hlost _ (by simp))⟩

end GrpcClient

end Degenerate.Grpc
