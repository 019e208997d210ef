import Degenerate.Grpc.Delivery
import Mathlib.Algebra.Order.Group.Multiset
import Mathlib.Tactic.Abel

/-!
# Messages on their Way

The client passes messages both ways.  Each is at one place at a time: a channel of the
bot, the client's hand, the channel of a session, the wire.  What a session carries ends
with it, in both directions, and so does a request for the running arbs whose session
is gone.

## Main Results

- `inbound_step`, `outbound_step`: a step moves messages on, adds one, or loses those of
  `lostInbound` and `lostOutbound`
- `requests_step`: a request that is still to be made is made once
-/

namespace Degenerate.Grpc

open Degenerate.Lib

variable {μ ν : Type}

/-! ## §1 Where the messages are -/

/-- The message of the server that the client has taken and not yet passed on. -/
def ClientPc.relayed : ClientPc μ ν → List ν
  | .relaying _ _ ebo => [ebo]
  | _ => []

/-- On the wire from the server. -/
def ClientPc.incoming (pc : ClientPc μ ν) : List ν := (pc.session.map Session.incoming).getD []

/-- On the wire to the server, or on the channel of the session. -/
def ClientPc.outgoing (pc : ClientPc μ ν) : List (NetworkEbo μ) :=
  (pc.session.map fun s => s.outgoing ++ s.network).getD []

/-- The message that a step adds on the way to the bot. -/
def Action.replied : Action μ ν → List ν
  | .reply ebo => [ebo]
  | _ => []

/-- The message that a step adds on the way to the server. -/
def Action.added : Action μ ν → List (NetworkEbo μ)
  | .enqueue ebo => [.bot ebo]
  | .request => [.getRunningArbs]
  | _ => []

namespace GrpcClient

/-- The messages on their way to the bot. -/
def inbound (c : GrpcClient μ ν) : Multiset ν := c.botInbound ++ c.pc.relayed ++ c.pc.incoming

/-- The messages on their way to the server. -/
def outbound (c : GrpcClient μ ν) : Multiset (NetworkEbo μ) :=
  c.pc.outgoing ++ c.pc.hand.map NetworkEbo.bot ++ c.botOutboundRx.map NetworkEbo.bot

/-- The client's own requests that are still to be made. -/
def requests (c : GrpcClient μ ν) : ℕ := c.firstConnect.toNat + c.recovery.isSome.toNat

/-- The step ends the session. -/
def drops (c : GrpcClient μ ν) : Action μ ν → Bool
  -- the error of a send on a closed channel
  | .send => c.pc.session.any fun s => !s.up
  -- the end of the stream is read after what came over it
  | .message => c.pc.session.any fun s => !s.up && s.incoming.isEmpty
  | .relay false => true
  | _ => false

/-- What a step loses on the way to the bot. -/
def lostInbound (c : GrpcClient μ ν) (a : Action μ ν) : List ν :=
  if c.drops a then c.pc.relayed ++ c.pc.incoming else []

/-- What a step loses on the way to the server. -/
def lostOutbound (c : GrpcClient μ ν) (a : Action μ ν) : List (NetworkEbo μ) :=
  if c.drops a then c.pc.outgoing ++ c.pc.hand.map NetworkEbo.bot
  else
    match a with
    | .breakStream => c.pc.outgoing
    -- the session whose channel the task holds is gone
    | .request => if (c.recovery.bind c.recoverySession).isNone then [.getRunningArbs] else []
    | _ => []

/-- What arrives at the server in a step. -/
def arrived (c : GrpcClient μ ν) : Action μ ν → List (NetworkEbo μ)
  | .deliver => (c.pc.session.bind fun s => s.outgoing.head?).toList
  | _ => []

/-! ## §2 One step -/

theorem relayed_of_no_session {pc : ClientPc μ ν} (h : pc.session = none) : pc.relayed = [] := by
  cases pc <;> first | rfl | cases h

@[simp] theorem relayed_mapSession (f : Session μ ν → Session μ ν) (pc : ClientPc μ ν) :
    (pc.mapSession f).relayed = pc.relayed := by
  cases pc <;> rfl

/-- A change of the session that does not touch what comes from the server. -/
theorem incoming_mapSession {f : Session μ ν → Session μ ν} (hf : ∀ s, (f s).incoming = s.incoming)
    (pc : ClientPc μ ν) : (pc.mapSession f).incoming = pc.incoming := by
  have hcomp : Session.incoming ∘ f = Session.incoming := funext hf
  simp [ClientPc.incoming, Option.map_map, hcomp]

/-- A session ends with its stream only when what came over it has been read. -/
theorem incoming_of_streamEnds {c c' : GrpcClient μ ν} {t : ℕ} {s : Session μ ν}
    (hpc : c.pc = .selecting t s) (h : c.step .message = some c') (hs : c'.pc.session = none) :
    s.incoming = [] := by
  cases hin : s.incoming with
  | nil => rfl
  | cons ebo rest =>
    simp only [step, clientStep, hpc, hin, ClientPc.isStopped, Option.some_or] at h
    cases h
    cases hs

/-- A send ends the session exactly when the stream is gone. -/
theorem drops_send {c : GrpcClient μ ν} {t : ℕ} {s : Session μ ν} {ebo : μ}
    (hpc : c.pc = .sending t s ebo) : c.drops .send = !s.up := by
  simp [drops, hpc, ClientPc.session]

/-- The end of the stream ends the session, when nothing is left to be read. -/
theorem drops_message {c : GrpcClient μ ν} {t : ℕ} {s : Session μ ν}
    (hpc : c.pc = .selecting t s) : c.drops .message = (!s.up && s.incoming.isEmpty) := by
  simp [drops, hpc, ClientPc.session]

/-- The session whose stream has ended is dropped. -/
theorem drops_of_streamEnds {c : GrpcClient μ ν} {t : ℕ} {s : Session μ ν}
    (hpc : c.pc = .selecting t s) (hdown : s.up = false)
    (h : c.step .message = some (c.sessionFailed t)) : c.drops .message = true := by
  obtain ⟨retries, pc, heq, hs, -⟩ := c.sessionFailed_eq t
  have hin := incoming_of_streamEnds hpc h (by rw [heq]; exact hs)
  rw [drops_message hpc, hdown, hin]
  rfl

theorem inbound_of_no_session {c : GrpcClient μ ν} (h : c.pc.session = none) :
    c.inbound = c.botInbound := by
  simp [inbound, ClientPc.incoming, relayed_of_no_session h, h]

theorem outbound_of_no_session {c : GrpcClient μ ν} (h : c.pc.session = none)
    (hhand : c.pc.hand = []) : c.outbound = c.botOutboundRx.map NetworkEbo.bot := by
  simp [outbound, ClientPc.outgoing, hhand, h]

theorem inbound_sessionFailed (c : GrpcClient μ ν) (t : ℕ) :
    (c.sessionFailed t).inbound = c.botInbound := by
  obtain ⟨retries, pc, heq, hs, -⟩ := c.sessionFailed_eq t
  rw [heq]
  exact inbound_of_no_session hs

theorem outbound_sessionFailed (c : GrpcClient μ ν) (t : ℕ) :
    (c.sessionFailed t).outbound = c.botOutboundRx.map NetworkEbo.bot := by
  obtain ⟨retries, pc, heq, hs, hhand⟩ := c.sessionFailed_eq t
  rw [heq]
  exact outbound_of_no_session hs hhand

/-- **On the way to the bot** a step keeps every message that it does not lose. -/
theorem inbound_step {c c' : GrpcClient μ ν} {a : Action μ ν} (h : c.step a = some c')
    (hrunning : c'.pc.isStopped = false) :
    c'.inbound + c.lostInbound a = c.inbound + a.replied := by
  -- a step loses nothing, or it drops the session with all that the session holds
  have hkept : c.drops a = false → a.replied = [] → c'.inbound = c.inbound →
      c'.inbound + c.lostInbound a = c.inbound + a.replied := by
    intro hdrops hreplied hin
    simp [lostInbound, hdrops, hreplied, hin]
  have hdropped : c.drops a = true → a.replied = [] → c'.inbound = c.botInbound →
      c'.inbound + c.lostInbound a = c.inbound + a.replied := by
    intro hdrops hreplied hin
    rw [lostInbound, if_pos hdrops, hreplied, hin, inbound, List.append_assoc]
    exact (add_zero _).symm
  -- what only changes the other direction of the session
  have hmap : ∀ {f : Session μ ν → Session μ ν}, c'.botInbound = c.botInbound →
      c'.pc = c.pc.mapSession f → (∀ s, (f s).incoming = s.incoming) →
      c'.inbound = c.inbound := by
    intro f hbot hpc hf
    simp [inbound, hbot, hpc, incoming_mapSession hf]
  cases (step_moves h).2 with
  | enqueue => exact hkept rfl rfl rfl
  | closeOutbound => exact hkept rfl rfl rfl
  | cancel => exact hkept rfl rfl rfl
  | tick => exact hkept rfl rfl rfl
  -- without a session only the channel to the bot holds messages
  | attempt hpc =>
    refine hkept rfl rfl ?_
    rw [inbound_of_no_session (c := c) (by rw [hpc]; rfl)]
    apply inbound_of_no_session
    exact c.session_attempt
  | connected hpc =>
    refine hkept rfl rfl ?_
    rw [inbound_of_no_session (c := c) (by rw [hpc]; rfl)]
    exact inbound_of_no_session rfl
  | notConnected hpc =>
    refine hkept rfl rfl ?_
    rw [inbound_of_no_session (c := c) (by rw [hpc]; rfl), inbound_sessionFailed]
  | opened hpc =>
    refine hkept rfl rfl ?_
    rw [inbound_of_no_session (c := c) (by rw [hpc]; rfl)]
    simp [inbound, established, ClientPc.relayed, ClientPc.incoming, ClientPc.session]
  | notOpened hpc =>
    refine hkept rfl rfl ?_
    rw [inbound_of_no_session (c := c) (by rw [hpc]; rfl), inbound_sessionFailed]
  | returns => cases hrunning
  | recv hpc hrx =>
    exact hkept rfl rfl (by simp only [inbound, hpc]; rfl)
  | sent hpc hup =>
    refine hkept ?_ rfl (by simp only [inbound, hpc]; rfl)
    rw [drops_send hpc, hup]
    rfl
  -- a failed send drops the session, and what has arrived in it unread
  | sendFails hpc hdown =>
    refine hdropped ?_ rfl (c.inbound_sessionFailed _)
    rw [drops_send hpc, hdown]
    rfl
  -- a message goes from the stream to the client's hand
  | message hpc hin =>
    refine hkept ?_ rfl ?_
    · rw [drops_message hpc, hin, List.isEmpty_cons, Bool.and_false]
    · simp [inbound, ClientPc.relayed, ClientPc.incoming, ClientPc.session, hpc, hin]
  | streamEnds hpc hdown =>
    exact hdropped (drops_of_streamEnds hpc hdown h) rfl (c.inbound_sessionFailed _)
  -- and from there to the channel
  | relayed hpc =>
    refine hkept rfl rfl ?_
    simp [inbound, ClientPc.relayed, ClientPc.incoming, ClientPc.session, hpc]
  | relayFails hpc => exact hdropped rfl rfl (c.inbound_sessionFailed _)
  | retry hpc =>
    refine hkept rfl rfl ?_
    rw [inbound_of_no_session (c := c) (by rw [hpc]; rfl)]
    exact inbound_of_no_session rfl
  | requested => exact hkept rfl rfl (hmap rfl rfl fun _ => rfl)
  | requestFails => exact hkept rfl rfl rfl
  | transmit => exact hkept rfl rfl (hmap rfl rfl fun _ => rfl)
  | deliver => exact hkept rfl rfl (hmap rfl rfl fun _ => rfl)
  | @reply s ebo hs =>
    -- the one step that adds a message
    simp [inbound, lostInbound, drops, Action.replied, ClientPc.incoming, hs,
      ← Multiset.coe_add, add_assoc]
  | breakStream => exact hkept rfl rfl (hmap rfl rfl fun _ => rfl)

/-- What is on its way to the server when the session is changed where it is. -/
theorem outbound_mapSession {c c' : GrpcClient μ ν} {f : Session μ ν → Session μ ν}
    {s : Session μ ν} (hs : c.pc.session = some s) (hpc : c'.pc = c.pc.mapSession f)
    (hrx : c'.botOutboundRx = c.botOutboundRx) :
    c'.outbound = (f s).outgoing + (f s).network + c.pc.hand.map NetworkEbo.bot +
      c.botOutboundRx.map NetworkEbo.bot := by
  simp [outbound, ClientPc.outgoing, hpc, hs, hrx]

theorem outbound_of_session {c : GrpcClient μ ν} {s : Session μ ν} (hs : c.pc.session = some s) :
    c.outbound = s.outgoing + s.network + c.pc.hand.map NetworkEbo.bot +
      c.botOutboundRx.map NetworkEbo.bot := by
  simp [outbound, ClientPc.outgoing, hs]

/-- **On the way to the server** a step keeps every message that it does not lose or deliver. -/
theorem outbound_step {c c' : GrpcClient μ ν} {a : Action μ ν} (h : c.step a = some c')
    (hrunning : c'.pc.isStopped = false) :
    c'.outbound + c.lostOutbound a + c.arrived a = c.outbound + a.added := by
  -- a step loses nothing, or it drops the session with all that the session holds
  have hkept : c.lostOutbound a = [] → c.arrived a = [] → a.added = [] →
      c'.outbound = c.outbound →
      c'.outbound + c.lostOutbound a + c.arrived a = c.outbound + a.added := by
    intro hlost harrived hadded hout
    simp [hlost, harrived, hadded, hout]
  have hdropped : c.drops a = true → c.arrived a = [] → a.added = [] →
      c'.outbound = c.botOutboundRx.map NetworkEbo.bot →
      c'.outbound + c.lostOutbound a + c.arrived a = c.outbound + a.added := by
    intro hdrops harrived hadded hout
    have hlost : c.lostOutbound a = c.pc.outgoing ++ c.pc.hand.map NetworkEbo.bot := by
      simp only [lostOutbound, hdrops, if_true]
    rw [hlost, harrived, hadded, hout, outbound]
    simp only [Multiset.coe_nil, add_zero, ← Multiset.coe_add]
    abel
  have hmap : ∀ {f : Session μ ν → Session μ ν} {s : Session μ ν}, c.pc.session = some s →
      c'.pc = c.pc.mapSession f → c'.botOutboundRx = c.botOutboundRx → c'.outbound =
        (f s).outgoing + (f s).network + c.pc.hand.map NetworkEbo.bot +
          c.botOutboundRx.map NetworkEbo.bot := outbound_mapSession
  -- a state without a session has nothing on its way but what the bot has enqueued
  have hnone : c.pc.session = none → c.pc.hand = [] → c'.pc.session = none → c'.pc.hand = [] →
      c'.botOutboundRx = c.botOutboundRx → c'.outbound = c.outbound := by
    intro hs hhand hs' hhand' hrx
    rw [outbound_of_no_session hs hhand, outbound_of_no_session hs' hhand', hrx]
  cases (step_moves h).2 with
  -- the bot adds a message at the end of its channel
  | enqueue =>
    simp [outbound, lostOutbound, drops, arrived, Action.added, ← Multiset.coe_add, add_assoc]
  | closeOutbound => exact hkept rfl rfl rfl rfl
  | cancel => exact hkept rfl rfl rfl rfl
  | tick => exact hkept rfl rfl rfl rfl
  | attempt hpc =>
    exact hkept rfl rfl rfl (hnone (by rw [hpc]; rfl) (by rw [hpc]; rfl) c.session_attempt
      c.hand_attempt rfl)
  | connected hpc =>
    exact hkept rfl rfl rfl (hnone (by rw [hpc]; rfl) (by rw [hpc]; rfl) rfl rfl rfl)
  | notConnected hpc =>
    refine hkept rfl rfl rfl ?_
    rw [outbound_of_no_session (c := c) (by rw [hpc]; rfl) (by rw [hpc]; rfl),
      outbound_sessionFailed]
  | opened hpc =>
    refine hkept rfl rfl rfl ?_
    rw [outbound_of_no_session (c := c) (by rw [hpc]; rfl) (by rw [hpc]; rfl)]
    simp [outbound, established, ClientPc.hand, ClientPc.outgoing, ClientPc.session]
  | notOpened hpc =>
    refine hkept rfl rfl rfl ?_
    rw [outbound_of_no_session (c := c) (by rw [hpc]; rfl) (by rw [hpc]; rfl),
      outbound_sessionFailed]
  | returns => cases hrunning
  -- a message goes from the channel to the client's hand
  | recv hpc hrx =>
    refine hkept rfl rfl rfl ?_
    simp [outbound, ClientPc.outgoing, ClientPc.session, ClientPc.hand, hpc, hrx]
  -- and from there to the stream
  | sent hpc hup =>
    have hdrops : c.drops .send = false := by rw [drops_send hpc, hup]; rfl
    refine hkept (by simp [lostOutbound, hdrops]) rfl rfl ?_
    simp [outbound, ClientPc.outgoing, ClientPc.session, ClientPc.hand, hpc]
  | sendFails hpc hdown =>
    refine hdropped ?_ rfl rfl (c.outbound_sessionFailed _)
    rw [drops_send hpc, hdown]
    rfl
  | message hpc hin =>
    have hdrops : c.drops .message = false := by
      rw [drops_message hpc, hin, List.isEmpty_cons, Bool.and_false]
    refine hkept (by simp [lostOutbound, hdrops]) rfl rfl ?_
    simp [outbound, ClientPc.outgoing, ClientPc.session, ClientPc.hand, hpc]
  | streamEnds hpc hdown =>
    exact hdropped (drops_of_streamEnds hpc hdown h) rfl rfl (c.outbound_sessionFailed _)
  | relayed hpc =>
    refine hkept rfl rfl rfl ?_
    simp [outbound, ClientPc.outgoing, ClientPc.session, ClientPc.hand, hpc]
  | relayFails hpc => exact hdropped rfl rfl rfl (c.outbound_sessionFailed _)
  | retry hpc =>
    exact hkept rfl rfl rfl (hnone (by rw [hpc]; rfl) (by rw [hpc]; rfl) rfl rfl rfl)
  | @requested r s hr hs =>
    -- the request is on the channel of the session, which stands
    have hstands : ((c.recovery.bind c.recoverySession).isNone : Bool) = false := by
      simp [hr, hs]
    have hlost : c.lostOutbound .request = [] := by simp [lostOutbound, drops, hstands]
    obtain ⟨hs, -, -⟩ := recoverySession_eq_some hs
    rw [hmap hs rfl rfl, outbound_of_session hs, hlost]
    simp only [arrived, Action.added, ← Multiset.coe_add, Multiset.coe_nil, add_zero]
    abel
  | requestFails hr hs =>
    -- the request is made and lost in one step
    have hgone : ((c.recovery.bind c.recoverySession).isNone : Bool) = true := by
      simp [hr, hs]
    simp [outbound, lostOutbound, drops, hgone, arrived, Action.added]
  | transmit hs hnet =>
    refine hkept rfl rfl rfl ?_
    rw [hmap hs rfl rfl, outbound_of_session hs, hnet]
    simp only [← Multiset.coe_add, ← Multiset.cons_coe, ← Multiset.singleton_add,
      Multiset.coe_nil, add_zero]
    abel
  -- the one step that delivers
  | @deliver s ebo rest hs hout =>
    have harrived : c.arrived .deliver = [ebo] := by simp [arrived, hs, hout]
    rw [hmap hs rfl rfl, outbound_of_session hs, harrived, hout]
    simp only [lostOutbound, drops, Action.added, Bool.false_eq_true, if_false, Multiset.coe_nil,
      add_zero, ← Multiset.cons_coe, ← Multiset.singleton_add]
    abel
  | reply hs hup =>
    refine hkept rfl rfl rfl ?_
    rw [hmap hs rfl rfl, outbound_of_session hs]
  -- the two halves of the stream are lost, the message in hand is not
  | breakStream hs hup =>
    rw [hmap hs rfl rfl, outbound_of_session hs]
    simp only [lostOutbound, drops, arrived, Action.added, ClientPc.outgoing, hs, Option.map_some,
      Option.getD_some, Bool.false_eq_true, if_false, Multiset.coe_nil, add_zero, zero_add,
      ← Multiset.coe_add]
    abel

/-! ## §3 The client's own request -/

/-- A client that has not opened a session yet has none, and has not started the task that makes
    the request. -/
def NotStarted (c : GrpcClient μ ν) : Prop :=
  c.firstConnect = true → c.recovery = none ∧ c.pc.session = none

/-- **The request is made once**: a step keeps the requests that are still to be made, or makes
    one of them. -/
theorem requests_step {c c' : GrpcClient μ ν} {a : Action μ ν} (hn : c.NotStarted)
    (h : c.step a = some c') (hrunning : c'.pc.isStopped = false) : c'.NotStarted ∧
      c'.requests + a.added.countP (fun ebo => ebo.ebo?.isNone) = c.requests := by
  have hsame : c'.firstConnect = c.firstConnect → c'.recovery = c.recovery →
      (c.pc.session = none → c'.pc.session = none) →
      a.added.countP (fun ebo => ebo.ebo?.isNone) = 0 → c'.NotStarted ∧
      c'.requests + a.added.countP (fun ebo => ebo.ebo?.isNone) = c.requests := by
    intro hfirst hrec hsession hadded
    refine ⟨fun hf => ?_, ?_⟩
    · obtain ⟨hnone, hs⟩ := hn (hfirst ▸ hf)
      exact ⟨hrec.trans hnone, hsession hs⟩
    · rw [hadded, requests, requests, hfirst, hrec, Nat.add_zero]
  have hfailed : ∀ t, (c.sessionFailed t).firstConnect = c.firstConnect ∧
      (c.sessionFailed t).recovery = c.recovery ∧ (c.sessionFailed t).pc.session = none := by
    intro t
    obtain ⟨retries, pc, heq, hs, -⟩ := c.sessionFailed_eq t
    rw [heq]
    exact ⟨rfl, rfl, hs⟩
  -- a step that takes the session from one program point to another
  have hopen : ∀ {pc : ClientPc μ ν} {s : Session μ ν}, c.pc = pc → pc.session = some s →
      c.pc.session = none → c'.pc.session = none := by
    rintro pc s rfl hs hnone
    cases hnone.symm.trans hs
  have hmap : ∀ f : Session μ ν → Session μ ν, c'.pc = c.pc.mapSession f →
      c.pc.session = none → c'.pc.session = none := by
    intro f hpc hnone
    rw [hpc, ClientPc.session_mapSession, hnone]
    rfl
  cases (step_moves h).2 with
  | enqueue => exact hsame rfl rfl id rfl
  | closeOutbound => exact hsame rfl rfl id rfl
  | cancel => exact hsame rfl rfl id rfl
  | tick => exact hsame rfl rfl id rfl
  | attempt => exact hsame rfl rfl (fun _ => c.session_attempt) rfl
  | connected => exact hsame rfl rfl (fun _ => rfl) rfl
  | notConnected => exact hsame (hfailed _).1 (hfailed _).2.1 (fun _ => (hfailed _).2.2) rfl
  | opened =>
    -- the flag is cleared, and the task is there in its place
    refine ⟨fun hf => (by cases hf), ?_⟩
    cases hfirst : c.firstConnect with
    | true => simp [requests, established, Action.added, hfirst, (hn hfirst).1]
    | false => simp [requests, established, Action.added, hfirst]
  | notOpened => exact hsame (hfailed _).1 (hfailed _).2.1 (fun _ => (hfailed _).2.2) rfl
  | returns => cases hrunning
  | recv hpc => exact hsame rfl rfl (hopen hpc rfl) rfl
  | sent hpc => exact hsame rfl rfl (hopen hpc rfl) rfl
  | sendFails => exact hsame (hfailed _).1 (hfailed _).2.1 (fun _ => (hfailed _).2.2) rfl
  | message hpc => exact hsame rfl rfl (hopen hpc rfl) rfl
  | streamEnds => exact hsame (hfailed _).1 (hfailed _).2.1 (fun _ => (hfailed _).2.2) rfl
  | relayed hpc => exact hsame rfl rfl (hopen hpc rfl) rfl
  | relayFails => exact hsame (hfailed _).1 (hfailed _).2.1 (fun _ => (hfailed _).2.2) rfl
  | retry => exact hsame rfl rfl (fun _ => rfl) rfl
  | requested hr hs =>
    -- the task holds the channel of a session that stands
    obtain ⟨hs, -, -⟩ := recoverySession_eq_some hs
    refine ⟨fun hf => ?_, ?_⟩
    · exact absurd ((hn hf).1.symm.trans hr) (Option.some_ne_none _).symm
    · simp only [requests, push, Action.added, hr]
      rfl
  | requestFails hr =>
    refine ⟨fun hf => ?_, ?_⟩
    · exact absurd ((hn hf).1.symm.trans hr) (Option.some_ne_none _).symm
    · simp only [requests, Action.added, hr]
      rfl
  | transmit => exact hsame rfl rfl (hmap _ rfl) rfl
  | deliver => exact hsame rfl rfl (hmap _ rfl) rfl
  | reply => exact hsame rfl rfl (hmap _ rfl) rfl
  | breakStream => exact hsame rfl rfl (hmap _ rfl) rfl

/-- With a session and no request pending, none is still to be made. -/
theorem requests_of_session {c : GrpcClient μ ν} (hn : c.NotStarted) {s : Session μ ν}
    (hs : c.pc.session = some s) (hrec : c.recovery = none) : c.requests = 0 := by
  have hfirst : c.firstConnect = false := by
    cases hf : c.firstConnect with
    | true => cases (hn hf).2.symm.trans hs
    | false => rfl
  rw [requests, hfirst, hrec]
  rfl

end GrpcClient

end Degenerate.Grpc
