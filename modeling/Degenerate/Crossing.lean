import Degenerate.Backpressure
import Degenerate.Grpc.Delivery

/-!
# Two Tasks That Wait for Each Other

The comms task sends to the client, and the client to the comms task.  When both channels are
full and both tasks are at a send, neither takes a message, and no slot is ever freed.  One
bulk deletion of the dashboard is enough for one of the channels: the comms task reports each
arb in a message of its own.

## Main Results

- `crossing_persists`: the two tasks wait for ever
- `crossing_reachable`: how they come to wait
-/

namespace Degenerate

open Degenerate.Lib Degenerate.Platforms Degenerate.Picker Degenerate.Grpc Degenerate.Web

/-! ## §1 While they wait -/

namespace Grpc.GrpcClient

/-- A client that waits for the bot takes no branch of its own: only the recovery task may send. -/
theorem clientStep_relaying {μ ν : Type} {c c' : GrpcClient μ ν} {a : Grpc.Action μ ν} {t : ℕ}
    {s : Session μ ν} {ebo : ν} (hpc : c.pc = .relaying t s ebo) (hrelay : ∀ ok, a ≠ .relay ok)
    (h : c.clientStep a = some c') :
    a = .request ∧ ∃ f, c' = { c with recovery := none, pc := c.pc.mapSession f } := by
  unfold clientStep at h
  simp only [hpc] at h
  split at h <;> try cases h
  · simp at h
  · exact absurd rfl (hrelay _)
  · -- a relay leaves the other side of the stream free to ask
    refine ⟨rfl, ?_⟩
    rw [hpc]
    split at h
    · split at h
      · cases h
        split
        · exact ⟨_, rfl⟩
        · exact ⟨id, rfl⟩
      · cases h
    · cases h

/-- A client that waits for the bot goes on with nothing else. -/
theorem step_relaying {μ ν : Type} {c c' : GrpcClient μ ν} {a : Grpc.Action μ ν} {t : ℕ}
    {s : Session μ ν} {ebo : ν} (hpc : c.pc = .relaying t s ebo) (hrelay : ∀ ok, a ≠ .relay ok)
    (hstep : c.step a = some c') :
    (∃ s', c'.pc = .relaying t s' ebo) ∧ c'.botInbound = c.botInbound ∧
      c'.botOutboundRx = c.botOutboundRx ++ a.enqueued := by
  obtain ⟨-, hstep⟩ := Option.ite_none_left_eq_some.mp hstep
  have hmap : ∀ f, ∃ s', c.pc.mapSession f = .relaying t s' ebo := fun f => by
    rw [hpc]
    exact ⟨f s, rfl⟩
  -- what is left are the network, the environment and the clock
  have hnetwork : ∀ a : Grpc.Action μ ν, (c.clientStep a).or
      (c.pc.session.bind fun s => c.networkStep s a) = some c' → (∀ ok, a ≠ .relay ok) →
      a.enqueued = [] → (∃ s', c'.pc = .relaying t s' ebo) ∧ c'.botInbound = c.botInbound ∧
        c'.botOutboundRx = c.botOutboundRx ++ a.enqueued := by
    intro a h hrelay hnone
    rw [hnone, List.append_nil]
    rcases Option.or_eq_some_iff.mp h with h | ⟨-, h⟩
    · obtain ⟨-, f, rfl⟩ := clientStep_relaying hpc hrelay h
      exact ⟨hmap f, rfl, rfl⟩
    · obtain ⟨s', hs', h⟩ := Option.bind_eq_some_iff.mp h
      unfold networkStep at h
      split at h
      · split at h <;> cases h
        exact ⟨hmap _, rfl, rfl⟩
      · split at h <;> cases h
        exact ⟨hmap _, rfl, rfl⟩
      · split at h <;> cases h
        exact ⟨hmap _, rfl, rfl⟩
      · split at h <;> cases h
        exact ⟨hmap _, rfl, rfl⟩
      · cases h
  -- the steps of the environment leave the client where it is
  cases a with
  | enqueue e =>
    obtain ⟨-, ⟨⟩⟩ := Option.ite_none_left_eq_some.mp hstep
    exact ⟨⟨s, hpc⟩, rfl, rfl⟩
  | closeOutbound =>
    cases hstep
    exact ⟨⟨s, hpc⟩, rfl, (List.append_nil _).symm⟩
  | cancel =>
    cases hstep
    exact ⟨⟨s, hpc⟩, rfl, (List.append_nil _).symm⟩
  | tick ms =>
    obtain ⟨-, ⟨⟩⟩ := Option.ite_none_right_eq_some.mp hstep
    exact ⟨⟨s, hpc⟩, rfl, (List.append_nil _).symm⟩
  | _ => exact hnetwork _ hstep hrelay rfl

end Grpc.GrpcClient

namespace Picker.System

/-- A comms task at a send is not between messages. -/
theorem not_betweenMessages_of_commsSends {p : System} (h : p.commsSends = true) :
    p.betweenMessages = false := by
  by_contra hbetween
  obtain ⟨hpc, htodo⟩ := betweenMessages_iff.mp (by simpa using hbetween)
  simp [commsSends, hpc, htodo] at h

/-- While the comms task waits at a send, the other tasks leave alone what it has left to do, and
    nothing is sent unless the executor is at a send of its own. -/
theorem step_waiting {cfg : Config} {p q : System} {a : Picker.Action}
    (hsends : p.commsSends = true) (hcomms : ∀ c, a ≠ .comms c)
    (heffect : a = .execEffect → p.execSends = false) (h : step cfg p a = some q) :
    q.comms = p.comms ∧ q.outbox = p.outbox := by
  cases a with
  | comms c => exact absurd rfl (hcomms c)
  -- a new message is taken between two of them only
  | receive msg =>
    obtain ⟨hbetween, -⟩ := Option.ite_none_right_eq_some.mp h
    rw [not_betweenMessages_of_commsSends hsends] at hbetween
    cases hbetween
  | execReceive ans =>
    simp only [step] at h
    split at h
    · cases h
    · obtain ⟨x, -, rfl⟩ := Option.map_eq_some_iff.mp h
      exact ⟨rfl, rfl⟩
  | execEffect =>
    -- the executor's effects reach the outbox by a send, and by nothing else
    have hnosend := heffect rfl
    simp only [step] at h
    split at h
    · rename_i cid e rest hpc
      obtain ⟨x, -, rfl⟩ := Option.map_eq_some_iff.mp h
      cases e with
      | send ebo => simp [execSends, hpc] at hnosend
      | _ => exact ⟨rfl, rfl⟩
    · cases h
  | execFinish =>
    obtain ⟨x, -, rfl⟩ := Option.map_eq_some_iff.mp h
    exact ⟨rfl, rfl⟩
  | execRefresh f =>
    obtain ⟨x, -, rfl⟩ := Option.map_eq_some_iff.mp h
    exact ⟨rfl, rfl⟩
  -- the deletions and the answers of the venues change the two clients
  | delTask i ok =>
    simp only [step, taskStep] at h
    split at h
    · cases h
    · rename_i task _
      cases h
      cases task <;> exact ⟨rfl, rfl⟩
  | subscribedResponse channel sid =>
    cases h
    exact ⟨rfl, rfl⟩
  | tick ms =>
    cases h
    exact ⟨rfl, rfl⟩

end Picker.System

namespace Deployment

/-- The comms task, the two channels and the message that the client holds are as they were. -/
structure Frozen (d d' : Deployment) : Prop where
  comms : d'.bot.comms = d.bot.comms
  outbound : d'.client.botOutboundRx ++ d'.bot.outbox = d.client.botOutboundRx ++ d.bot.outbox
  inbound : d'.client.botInbound = d.client.botInbound
  client : ∃ t s s' ebo, d.client.pc = .relaying t s ebo ∧ d'.client.pc = .relaying t s' ebo

/-- A crossing stays as long as its two ends do. -/
theorem Frozen.crossed {d d' : Deployment} (h : Frozen d d') (hd : d.Crossed) : d'.Crossed := by
  obtain ⟨t, s, s', ebo, -, hpc⟩ := h.client
  have hsends : d'.bot.commsSends = d.bot.commsSends := by
    rw [System.commsSends, System.commsSends, h.comms]
  have hqueued : d'.queued = d.queued := by
    have hlength := congrArg List.length h.outbound
    simp only [List.length_append] at hlength
    rw [queued, queued]
    omega
  refine ⟨?_, ?_, ⟨t, s', ebo, hpc⟩, ?_⟩
  · rw [hsends]
    exact hd.comms
  · rw [hqueued]
    exact hd.outbound
  · rw [h.inbound]
    exact hd.inbound

/-- What happens elsewhere leaves a crossing as it is. -/
theorem Crossed.frozen_self {d d' : Deployment} (hd : d.Crossed)
    (hbot : d'.bot = d.bot) (hclient : d'.client = d.client) : Frozen d d' := by
  obtain ⟨t, s, ebo, hpc⟩ := hd.client
  refine ⟨by rw [hbot], by rw [hbot, hclient], by rw [hclient], t, s, s, ebo, hpc, ?_⟩
  rw [hclient]
  exact hpc

/-- A send on the stream does not reach beyond it. -/
theorem Crossed.frozen_streamSend {d d' : Deployment} {sid : ℕ} {ebo : ServerEbo}
    (hd : d.Crossed) (hsend : d.streamSend sid ebo = some d'.client)
    (hbot : d'.bot = d.bot) : Frozen d d' := by
  unfold streamSend at hsend
  split at hsend
  · obtain ⟨t, s, held, hpc⟩ := hd.client
    obtain ⟨⟨s', hpc'⟩, hin, hout⟩ :=
      GrpcClient.step_relaying hpc (fun ok hrelay => by cases hrelay) hsend
    refine ⟨by rw [hbot], ?_, hin, t, s, s', held, hpc, hpc'⟩
    rw [hout, hbot]
    exact congrArg (· ++ d.bot.outbox) (List.append_nil _)
  · exact hd.frozen_self hbot (Option.some.inj hsend).symm

/-- **No step resolves a crossing**. -/
theorem Crossed.frozen_step {cfg : DeploymentConfig} {d d' : Deployment} {a : Action}
    (hd : d.Crossed) (h : boundedStep cfg d a = some d') : Frozen d d' := by
  obtain ⟨t, s, held, hpc⟩ := hd.client
  obtain ⟨hfits, hstep⟩ := boundedStep_eq_some.mp h
  have hfull : ¬ d.queued < channelSlots := not_lt.mpr hd.outbound
  cases step_moves hstep with
  | @bot a bot hown hbot =>
    -- neither task of the bot finds a slot for its send
    have hcomms : ∀ c, a ≠ .comms c := by
      rintro c rfl
      simp [fits, hd.comms, hfull] at hfits
    have heffect : a = .execEffect → d.bot.execSends = false := by
      rintro rfl
      simpa [fits, hfull] using hfits
    obtain ⟨hsame, hout⟩ := System.step_waiting hd.comms hcomms heffect hbot
    refine ⟨hsame, ?_, rfl, t, s, s, held, hpc, hpc⟩
    show d.client.botOutboundRx ++ bot.outbox = _
    rw [hout]
  | receive hin hbot =>
    obtain ⟨hbetween, -⟩ := Option.ite_none_right_eq_some.mp hbot
    rw [System.not_betweenMessages_of_commsSends hd.comms] at hbetween
    cases hbetween
  | forward hout hclient =>
    -- a message moves from the outbox to the channel; the two are counted together
    obtain ⟨⟨s', hpc'⟩, hin, hrx⟩ :=
      GrpcClient.step_relaying hpc (fun ok hrelay => by cases hrelay) hclient
    refine ⟨rfl, ?_, hin, t, s, s', held, hpc, hpc'⟩
    show _ ++ _ = d.client.botOutboundRx ++ d.bot.outbox
    rw [hrx, hout, List.append_assoc]
    rfl
  | @client a client hbot hreplied hclient =>
    -- the bot is there, so a relay does not fail; its channel is full, so none succeeds
    have hrelay : ∀ ok, a ≠ .relay ok := by
      rintro ok rfl
      cases ok with
      | false => cases hfits
      | true => exact absurd (of_decide_eq_true hfits) (not_lt.mpr hd.inbound)
    obtain ⟨⟨s', hpc'⟩, hin, hrx⟩ := GrpcClient.step_relaying hpc hrelay hclient
    have hnone : a.enqueued = [] := by
      cases a with
      | enqueue ebo => exact absurd rfl (hbot ebo)
      | _ => rfl
    refine ⟨rfl, ?_, hin, t, s, s', held, hpc, hpc'⟩
    show client.botOutboundRx ++ d.bot.outbox = _
    rw [hrx, hnone, List.append_nil]
  | request hr => exact hd.frozen_self rfl rfl
  | handler hh => exact hd.frozen_self rfl rfl
  | sendCommand hcomms hsend => exact hd.frozen_streamSend hsend rfl
  | sendReply hentry hsend => exact hd.frozen_streamSend hsend rfl
  | esuReturns hgone => exact hd.frozen_self rfl rfl
  | process hp => exact hd.frozen_self rfl rfl

/-- **A crossing is for ever**: the comms task and the client wait for each other whatever
    arrives, whatever the other tasks do, and also after a cancellation or a broken stream.  No
    message leaves the two channels or comes to them. -/
theorem crossing_persists {cfg : DeploymentConfig} {d d' : Deployment} {as : List Action}
    (hd : d.Crossed) (hrun : run (boundedStep cfg) d as = some d') :
    d'.Crossed ∧ Frozen d d' := by
  have hself : Frozen d d := hd.frozen_self rfl rfl
  refine run_invariant (I := fun e => e.Crossed ∧ Frozen d e) ?_ ⟨hd, hself⟩ hrun
  rintro e a e' ⟨hcrossed, hfrozen⟩ hstep
  have hnext := hcrossed.frozen_step hstep
  refine ⟨hnext.crossed hcrossed, hnext.comms.trans hfrozen.comms,
    hnext.outbound.trans hfrozen.outbound, hnext.inbound.trans hfrozen.inbound, ?_⟩
  -- the message that the client holds is the same all along
  obtain ⟨t, s, s', ebo, hpc, hpc'⟩ := hfrozen.client
  obtain ⟨_, _, s'', _, hpc₁, hpc₂⟩ := hnext.client
  cases hpc'.symm.trans hpc₁
  exact ⟨t, s, s'', ebo, hpc, hpc₂⟩

theorem crossing_persists_cancelled :
    ({ crossedDeployment with client := { crossedDeployment.client with
      shutdown := true, now := 10000 } } : Deployment).Crossed := by
  have hrun : run (boundedStep ⟨sampleConfig, some⟩) crossedDeployment
      [.client .cancel, .client (.tick 10000)] = some { crossedDeployment with
        client := { crossedDeployment.client with shutdown := true, now := 10000 } } := rfl
  exact (crossing_persists crossed_crossedDeployment hrun).1

/-! ## §2 How they come to wait -/

/-- Between two commands: the client waits for messages in either direction, and the server has
    none to send. -/
structure Listening (d : Deployment) : Prop where
  client : ∃ t s, d.client.pc = .selecting t s ∧ s.up = true ∧ s.id = 0 ∧ s.incoming = []
  streams : 0 ∈ d.app.streams
  grpcComms : d.app.grpcComms = []
  handlers : d.app.handlers = []

/-- A deletion of the dashboard reaches the client. -/
theorem Listening.exists_message (cfg : DeploymentConfig) {d : Deployment} (h : Listening d)
    {cids : List CorrelationId} (hcids : cids ≠ []) :
    ∃ as t s arbs, .request (.bulkDeleteArbs cids) ∈ as ∧ s.up = true ∧ s.id = 0 ∧
      s.incoming = [] ∧ run (boundedStep cfg) d as = some { d with
        client := { d.client with pc := .relaying t s (.deleteRunningArbs cids) }
        app := { d.app with arbs } } := by
  obtain ⟨t, s, hpc, hup, hid, hin⟩ := h.client
  obtain ⟨id, openedAt, up, network, outgoing, incoming⟩ := s
  cases hup
  cases hid
  cases hin
  obtain ⟨bot, client, app⟩ := d
  obtain ⟨arbs, handlers, grpcComms, streams, received, sendCh⟩ := app
  cases h.grpcComms
  -- a request, the two steps of its handler, the send, and the message of the stream
  cases h.handlers
  refine ⟨[.request (.bulkDeleteArbs cids), .handler 0 true, .handler 0 true, .sendCommand 0,
    .client .message], t, ⟨0, openedAt, true, network, outgoing, []⟩, arbs.deleteArbsBulk cids,
    List.mem_cons_self, rfl, rfl, rfl, ?_⟩
  have hstreams : 0 ∈ streams := h.streams
  have hpc' : client.pc = .selecting t ⟨0, openedAt, true, network, outgoing, []⟩ := hpc
  simp [run, boundedStep, fits, step, Request.handler, hcids, App.handlerStep, Handler.step,
    App.send, hstreams, grpcCommsCapacity, streamSend, GrpcClient.stands, hpc', ClientPc.session,
    GrpcClient.step, ClientPc.isStopped, GrpcClient.clientStep, GrpcClient.networkStep, clientStep,
    ClientPc.mapSession, App.observe]

/-- The client relays a deletion, if there is a slot. -/
theorem Listening.exists_relayed (cfg : DeploymentConfig) {d : Deployment} (h : Listening d)
    {cids : List CorrelationId} (hcids : cids ≠ [])
    (hfree : d.client.botInbound.length < channelSlots) :
    ∃ as d', .request (.bulkDeleteArbs cids) ∈ as ∧ run (boundedStep cfg) d as = some d' ∧
      Listening d' ∧ d'.bot = d.bot ∧ d'.client.botOutboundRx = d.client.botOutboundRx ∧
      d'.client.botInbound = d.client.botInbound ++ [.deleteRunningArbs cids] := by
  obtain ⟨as, t, s, arbs, hmem, hup, hid, hin, hrun⟩ := h.exists_message cfg hcids
  refine ⟨as ++ [.client (.relay true)], { d with
    client := { d.client with
      pc := .selecting t s, botInbound := d.client.botInbound ++ [.deleteRunningArbs cids] }
    app := { d.app with arbs } }, List.mem_append_left _ hmem, run_append.mpr ⟨_, hrun, ?_⟩, ?_,
    rfl, rfl, rfl⟩
  · simp [run, boundedStep, fits, hfree, step, clientStep, GrpcClient.step, ClientPc.isStopped,
      GrpcClient.clientStep, App.observe]
  · exact ⟨⟨t, s, rfl, hup, hid, hin⟩, h.streams, h.grpcComms, h.handlers⟩

/-- Any number of deletions that fits is relayed, while the other tasks pause. -/
theorem Listening.exists_filled (cfg : DeploymentConfig) {d : Deployment} (h : Listening d)
    {cids : List CorrelationId} (hcids : cids ≠ []) (n : ℕ)
    (hfree : d.client.botInbound.length + n ≤ channelSlots) :
    ∃ as d', run (boundedStep cfg) d as = some d' ∧ Listening d' ∧ d'.bot = d.bot ∧
      d'.client.botOutboundRx = d.client.botOutboundRx ∧
      d'.client.botInbound = d.client.botInbound ++ List.replicate n (.deleteRunningArbs cids) := by
  induction n generalizing d with
  | zero => exact ⟨[], d, rfl, h, rfl, rfl, (List.append_nil _).symm⟩
  | succ n ih =>
    obtain ⟨as, e, -, has, he, hbot, hrx, hin⟩ := h.exists_relayed cfg hcids (by omega)
    have hroom : e.client.botInbound.length + n ≤ channelSlots := by
      rw [hin, List.length_append, List.length_singleton]
      omega
    obtain ⟨bs, d', hbs, hd', hbot', hrx', hin'⟩ := ih he hroom
    refine ⟨as ++ bs, d', run_append.mpr ⟨e, has, hbs⟩, hd', hbot'.trans hbot, hrx'.trans hrx, ?_⟩
    rw [hin', hin, List.append_assoc]
    rfl

/-- What the comms task does for a deletion. -/
def deletions (cids : List CorrelationId) : List CommsOp :=
  cids.flatMap fun cid => [.unregisterArb cid, .send { action := .deleteRunningArbs [cid] }]

/-- The comms task withdraws an arb. -/
theorem exists_withdrawn (cfg : DeploymentConfig) {d : Deployment} {cid : CorrelationId}
    {todo : List CommsOp} (hcomms : d.bot.comms = ⟨.next, .unregisterArb cid :: todo⟩) :
    ∃ a d', boundedStep cfg d a = some d' ∧ d'.bot.comms = ⟨.next, todo⟩ ∧
      d'.queued = d.queued ∧ d'.client = d.client ∧ d'.app = d.app := by
  refine ⟨.bot (.comms Choice.any), { d with bot := (d.bot.pop todo).unregisterArb cid },
    ?_, ?_, rfl, rfl, rfl⟩
  · have hfits : d.fits (.bot (.comms Choice.any)) = true := by
      simp [fits, System.commsSends, hcomms]
    rw [boundedStep, if_pos hfits]
    simp [step, Picker.Action.fromServer, System.step, System.commsStep, hcomms, System.opStep]
  · show ({ d.bot.comms with todo } : Comms) = _
    rw [hcomms]

/-- The comms task sends to the client, if there is a slot. -/
theorem exists_sent (cfg : DeploymentConfig) {d : Deployment} {ebo : ClientEbo}
    {todo : List CommsOp} (hcomms : d.bot.comms = ⟨.next, .send ebo :: todo⟩)
    (hfree : d.queued < channelSlots) :
    ∃ a d', boundedStep cfg d a = some d' ∧ d'.bot.comms = ⟨.next, todo⟩ ∧
      d'.queued = d.queued + 1 ∧ d'.client = d.client ∧ d'.app = d.app := by
  refine ⟨.bot (.comms Choice.any),
    { d with bot := { d.bot.pop todo with outbox := d.bot.outbox ++ [ebo] } }, ?_, ?_, ?_, rfl, rfl⟩
  · have hfits : d.fits (.bot (.comms Choice.any)) = true := by
      simp [fits, hfree]
    rw [boundedStep, if_pos hfits]
    simp [step, Picker.Action.fromServer, System.step, System.commsStep, hcomms, System.opStep,
      System.pop]
  · show ({ d.bot.comms with todo } : Comms) = _
    rw [hcomms]
  · simp only [queued, List.length_append, List.length_singleton]
    omega

/-- The comms task withdraws arbs and reports each of them, while there are slots. -/
theorem exists_reported (cfg : DeploymentConfig) {d : Deployment} (cids rest : List CorrelationId)
    (hcomms : d.bot.comms = ⟨.next, deletions (cids ++ rest)⟩)
    (hfree : d.queued + cids.length ≤ channelSlots) :
    ∃ as d', run (boundedStep cfg) d as = some d' ∧ d'.bot.comms = ⟨.next, deletions rest⟩ ∧
      d'.queued = d.queued + cids.length ∧ d'.client = d.client ∧ d'.app = d.app := by
  induction cids generalizing d with
  | nil => exact ⟨[], d, rfl, hcomms, rfl, rfl, rfl⟩
  | cons cid cids ih =>
    rw [List.length_cons] at hfree
    obtain ⟨a, e, ha, he, hqe, hce, hae⟩ := exists_withdrawn cfg hcomms
    obtain ⟨b, f, hb, hf, hqf, hcf, haf⟩ := exists_sent cfg he (by omega)
    obtain ⟨as, d', has, hd', hq, hc, happ⟩ := ih hf (by omega)
    refine ⟨a :: b :: as, d', run_cons.mpr ⟨e, ha, run_cons.mpr ⟨f, hb, has⟩⟩, hd', ?_,
      hc.trans (hcf.trans hce), happ.trans (haf.trans hae)⟩
    rw [hq, hqf, hqe, List.length_cons]
    omega

/-- **A way to a crossing**: from the start of the programs, with one stream and one deletion of
    more arbs than the channel has slots, and as many commands behind it as the other channel
    holds. -/
theorem crossing_reachable (cfg : DeploymentConfig) (tradeFraction minTradeSize : ℚ)
    (arbs : ArbsTable) {cids : List CorrelationId} (hmany : channelSlots < cids.length) :
    ∃ as d, run (boundedStep cfg) (start tradeFraction minTradeSize arbs) as = some d ∧
      .request (.bulkDeleteArbs cids) ∈ as ∧ d.Crossed := by
  have hcids : cids ≠ [] := List.ne_nil_of_length_pos (by omega)
  -- the stream is opened
  obtain ⟨as, d, has, hbot, hrx, hin, hd⟩ : ∃ as d,
      run (boundedStep cfg) (start tradeFraction minTradeSize arbs) as = some d ∧
        d.bot = System.init tradeFraction minTradeSize ∧ d.client.botOutboundRx = [] ∧
        d.client.botInbound = [] ∧ Listening d := by
    refine ⟨[.client .attempt, .client (.connected true), .client (.opened true)], _, rfl, rfl, rfl,
      rfl, ⟨_, _, rfl, rfl, rfl, rfl⟩, ?_, rfl, rfl⟩
    exact List.mem_cons_self ..
  -- the comms task takes the long deletion
  obtain ⟨bs, e, hdeletion, hbs, he, hebot, herx, hein⟩ :=
    hd.exists_relayed cfg hcids (by rw [hin]; decide)
  rw [hin, List.nil_append] at hein
  let f : Deployment := { e with
    bot := { e.bot with comms := ⟨.next, deletions cids⟩ }
    client := { e.client with botInbound := [] } }
  have hf : boundedStep cfg e .receive = some f := by
    have hidle : e.bot.betweenMessages = true := by
      rw [hebot, hbot]
      rfl
    show step cfg e .receive = some f
    simp only [step, hein, System.step, hidle, if_true, Option.map_some]
    rfl
  have hflisten : Listening f := ⟨he.client, he.streams, he.grpcComms, he.handlers⟩
  -- the commands behind it fill the one channel, its reports the other one
  obtain ⟨cs, g, hcs, hg, hgbot, hgrx, hgin⟩ :=
    hflisten.exists_filled cfg hcids channelSlots (Nat.zero_add _).le
  have hgcomms : g.bot.comms =
      ⟨.next, deletions (cids.take channelSlots ++ cids.drop channelSlots)⟩ := by
    rw [hgbot, List.take_append_drop]
  have hgqueued : g.queued = 0 := by
    rw [queued, hgbot, hgrx]
    show e.bot.outbox.length + e.client.botOutboundRx.length = 0
    rw [hebot, hbot, herx, hrx]
    rfl
  have htake : (cids.take channelSlots).length = channelSlots := by
    rw [List.length_take]
    omega
  obtain ⟨ds, k, hds, hk, hkqueued, hkclient, hkapp⟩ :=
    exists_reported cfg _ _ hgcomms (by rw [hgqueued, htake, Nat.zero_add])
  rw [hgqueued, htake, Nat.zero_add] at hkqueued
  -- one more report, and one more command
  obtain ⟨cid, rest, hrest⟩ := List.exists_cons_of_length_pos
    (show 0 < (cids.drop channelSlots).length by rw [List.length_drop]; omega)
  rw [hrest] at hk
  obtain ⟨a, l, hl, hlcomms, hlqueued, hlclient, hlapp⟩ := exists_withdrawn cfg hk
  have hllisten : Listening l := by
    have hclient : l.client = g.client := hlclient.trans hkclient
    have happ : l.app = g.app := hlapp.trans hkapp
    exact ⟨hclient ▸ hg.client, happ ▸ hg.streams, happ ▸ hg.grpcComms, happ ▸ hg.handlers⟩
  obtain ⟨es, t, s, arbs', -, -, -, -, hes⟩ := hllisten.exists_message cfg hcids
  refine ⟨as ++ (bs ++ (.receive :: (cs ++ (ds ++ (a :: es))))), _,
    run_append.mpr ⟨d, has, run_append.mpr ⟨e, hbs, run_cons.mpr ⟨f, hf,
      run_append.mpr ⟨g, hcs, run_append.mpr ⟨k, hds, run_cons.mpr ⟨l, hl, hes⟩⟩⟩⟩⟩⟩, ?_, ?_⟩
  · exact List.mem_append_right _ (List.mem_append_left _ hdeletion)
  refine ⟨?_, ?_, ⟨t, s, _, rfl⟩, ?_⟩
  · show l.bot.commsSends = true
    simp [System.commsSends, hlcomms]
  · show channelSlots ≤ l.queued
    rw [hlqueued, hkqueued]
  · show channelSlots ≤ l.client.botInbound.length
    rw [hlclient, hkclient, hgin, List.length_append, List.length_replicate]
    exact Nat.le_add_left ..

theorem crossing_reachable_sample :
    ∃ as d, run (boundedStep ⟨sampleConfig, some⟩) (start 1 1 ⟨[], List.nodup_nil⟩) as = some d ∧
      .request (.bulkDeleteArbs (List.replicate 1025 "x")) ∈ as ∧ d.Crossed :=
  crossing_reachable ⟨sampleConfig, some⟩ 1 1 ⟨[], List.nodup_nil⟩
    (show channelSlots < (List.replicate 1025 "x").length by
      rw [List.length_replicate]
      decide)

end Deployment

end Degenerate
