import Degenerate.Grpc.Passage
import Degenerate.Picker.PairWork
import Degenerate.Web.Dashboard
import Mathlib.Data.Multiset.Bind

/-!
# The Two Programs

The bot and the dashboard's server, joined by the stream.  The bot's comms task and its
gRPC client share two channels; the client and the `Esu` calls of the server share the
streams.  A command that an `Esu` call takes from `GrpcComms` is lost if its stream is
gone, and so is a reply.

## Layout

- §1 the state, and what a step of the client means for the server
- §2 one step
- §3 the work under way: both sides as `Ledgers`, and the events of a step
-/

namespace Degenerate

open Degenerate.Lib Degenerate.Picker Degenerate.Grpc Degenerate.Web

/-! ## §1 State -/

/-- What the two programs are configured with. -/
structure DeploymentConfig where
  picker : Picker.Config
  /-- What an arb unmarshals to after it was stored. -/
  readBack : Arb → Option Arb

/-- The two programs and the streams between them. -/
structure Deployment where
  bot : System
  client : GrpcClient ClientEbo ServerEbo := {}
  app : App

/-- The bot and the server at start-up, over the rows of an earlier run. -/
def Deployment.start (tradeFraction minTradeSize : ℚ) (arbs : ArbsTable) : Deployment where
  bot := System.init tradeFraction minTradeSize
  app := { arbs }

/-- A message of the server, as the comms task receives it. -/
def Web.ServerEbo.toComms : ServerEbo → CommsMessage
  | .crossPlatformArbDiscovery arbs => .arbDiscovery arbs
  | .confirmedAndRun cid arb => .confirmedAndRun arb cid
  | .deleteRunningArbs cids => .deleteRunningArbs cids
  | .runningArbsResponse arbs cids => .runningArbsResponse arbs cids

/-- The step takes a message that is not one of the venues. -/
def Picker.Action.fromServer : Picker.Action → Bool
  | .receive (.polymarket _) | .receive (.kalshi _) => false
  | .receive _ => true
  | _ => false

/-- The current stream of the client has the id and stands. -/
def Grpc.GrpcClient.stands (c : GrpcClient ClientEbo ServerEbo) (sid : ℕ) : Bool :=
  c.pc.session.any fun s => s.id = sid && s.up

/-- What the server sees of a step of the client: a stream is opened, a message arrives. -/
def Web.App.observe (w : App) (c : GrpcClient ClientEbo ServerEbo) :
    Grpc.Action ClientEbo ServerEbo → App
  | .opened true => { w with streams := c.sessions :: w.streams }
  | .deliver =>
      { w with
        received := w.received ++
          (c.arrived .deliver).map (((c.pc.session.map Session.id).getD 0), ·) }
  | _ => w

/-! ## §2 One step -/

/-- A step of one of the two programs, or of a stream. -/
inductive Deployment.Action where
  /-- a step of the bot's own; a message of a venue may arrive -/
  | bot (a : Picker.Action)
  /-- the comms task takes the next message of the server -/
  | receive
  /-- the next message of the bot reaches its gRPC client -/
  | forward
  /-- a step of the client or of its stream -/
  | client (a : Grpc.Action ClientEbo ServerEbo)
  | request (r : Request)
  | handler (i : ℕ) (ok : Bool)
  /-- the `Esu` call of a stream takes a command from `GrpcComms` -/
  | sendCommand (sid : ℕ)
  | sendReply (i : ℕ)
  /-- the `Esu` call of a stream that is gone notices it -/
  | esuReturns (sid : ℕ)
  | process (i : ℕ) (ok : CorrelationId → Bool)

namespace Deployment

/-- `stream.Send`: on a stream that is gone the message is lost. -/
def streamSend (d : Deployment) (sid : ℕ) (ebo : ServerEbo) :
    Option (GrpcClient ClientEbo ServerEbo) :=
  if d.client.stands sid then d.client.step (.reply ebo) else some d.client

/-- A step of the client that is not the other end of a step of someone else. -/
def clientStep (d : Deployment) : Grpc.Action ClientEbo ServerEbo → Option Deployment
  | .enqueue _ | .reply _ => none
  | a => (d.client.step a).map fun client =>
      { d with client, app := d.app.observe d.client a }

/-- One step. -/
def step (cfg : DeploymentConfig) (d : Deployment) : Action → Option Deployment
  | .bot a =>
      -- a message of the server comes through the client's channel
      if a.fromServer then none
      else (d.bot.step cfg.picker a).map fun bot => { d with bot }
  | .receive =>
      match d.client.botInbound with
      | [] => none
      | ebo :: rest => (d.bot.step cfg.picker (.receive ebo.toComms)).map fun bot =>
          { d with bot, client := { d.client with botInbound := rest } }
  | .forward =>
      match d.bot.outbox with
      | [] => none
      | ebo :: rest => (d.client.step (.enqueue ebo)).map fun client =>
          { d with client, bot := { d.bot with outbox := rest } }
  | .client a => d.clientStep a
  | .request r => r.handler.map fun h =>
      { d with app := { d.app with handlers := h :: d.app.handlers } }
  | .handler i ok => (d.app.handlerStep i ok).map fun app => { d with app }
  | .sendCommand sid =>
      if sid ∈ d.app.streams then
        match d.app.grpcComms with
        | [] => none
        -- taken from the channel before the send, which may fail
        | ebo :: rest => (d.streamSend sid ebo).map fun client =>
            { d with client, app := { d.app with grpcComms := rest } }
      else none
  | .sendReply i => (takeOldest d.app.sendCh i).bind fun entry =>
      (d.streamSend entry.1 entry.2).map fun client =>
        { d with client, app := { d.app with sendCh := d.app.sendCh.eraseIdx i } }
  | .esuReturns sid =>
      if d.client.stands sid then none
      -- the replies that are still on its `sendCh` go with the call
      else some { d with app := { d.app with
        streams := d.app.streams.filter (· ≠ sid)
        sendCh := d.app.sendCh.filter (·.1 ≠ sid) } }
  | .process i ok => (d.app.process cfg.readBack i ok).map fun app => { d with app }

/-- The outcomes of a step, one constructor for each. -/
inductive Moves (cfg : DeploymentConfig) (d : Deployment) : Action → Deployment → Prop
  | bot {a : Picker.Action} {bot : System} (hown : a.fromServer = false)
      (h : d.bot.step cfg.picker a = some bot) : Moves cfg d (.bot a) { d with bot }
  | receive {ebo : ServerEbo} {rest : List ServerEbo} {bot : System}
      (hin : d.client.botInbound = ebo :: rest)
      (h : d.bot.step cfg.picker (.receive ebo.toComms) = some bot) :
      Moves cfg d .receive { d with bot, client := { d.client with botInbound := rest } }
  | forward {ebo : ClientEbo} {rest : List ClientEbo} {client : GrpcClient ClientEbo ServerEbo}
      (hout : d.bot.outbox = ebo :: rest) (h : d.client.step (.enqueue ebo) = some client) :
      Moves cfg d .forward { d with client, bot := { d.bot with outbox := rest } }
  | client {a : Grpc.Action ClientEbo ServerEbo} {client : GrpcClient ClientEbo ServerEbo}
      (hbot : ∀ ebo, a ≠ .enqueue ebo) (hreplied : a.replied = [])
      (h : d.client.step a = some client) :
      Moves cfg d (.client a) { d with client, app := d.app.observe d.client a }
  | request {r : Request} {h : Handler} (hr : r.handler = some h) :
      Moves cfg d (.request r) { d with app := { d.app with handlers := h :: d.app.handlers } }
  | handler {i : ℕ} {ok : Bool} {app : App} (h : d.app.handlerStep i ok = some app) :
      Moves cfg d (.handler i ok) { d with app }
  | sendCommand {sid : ℕ} {ebo : ServerEbo} {rest : List ServerEbo}
      {client : GrpcClient ClientEbo ServerEbo} (hcomms : d.app.grpcComms = ebo :: rest)
      (h : d.streamSend sid ebo = some client) :
      Moves cfg d (.sendCommand sid) { d with client, app := { d.app with grpcComms := rest } }
  | sendReply {i : ℕ} {entry : ℕ × ServerEbo} {client : GrpcClient ClientEbo ServerEbo}
      (hentry : takeOldest d.app.sendCh i = some entry)
      (h : d.streamSend entry.1 entry.2 = some client) :
      Moves cfg d (.sendReply i) { d with
        client
        app := { d.app with sendCh := d.app.sendCh.eraseIdx i } }
  | esuReturns {sid : ℕ} (hgone : d.client.stands sid = false) :
      Moves cfg d (.esuReturns sid) { d with app := { d.app with
        streams := d.app.streams.filter (· ≠ sid)
        sendCh := d.app.sendCh.filter (·.1 ≠ sid) } }
  | process {i : ℕ} {ok : CorrelationId → Bool} {app : App}
      (h : d.app.process cfg.readBack i ok = some app) :
      Moves cfg d (.process i ok) { d with app }

/-- **What one step can do**. -/
theorem step_moves {cfg : DeploymentConfig} {d d' : Deployment} {a : Action}
    (h : step cfg d a = some d') : d.Moves cfg a d' := by
  cases a with
  | bot a =>
    obtain ⟨hown, h⟩ := Option.ite_none_left_eq_some.mp h
    obtain ⟨bot, hbot, rfl⟩ := Option.map_eq_some_iff.mp h
    exact .bot (by simpa using hown) hbot
  -- a message passes from the client to the bot, or from the bot to the client
  | receive =>
    simp only [step] at h
    split at h
    · cases h
    · rename_i ebo rest hin
      obtain ⟨bot, hbot, rfl⟩ := Option.map_eq_some_iff.mp h
      exact .receive hin hbot
  | forward =>
    simp only [step] at h
    split at h
    · cases h
    · rename_i ebo rest hout
      obtain ⟨client, hclient, rfl⟩ := Option.map_eq_some_iff.mp h
      exact .forward hout hclient
  | client a =>
    -- the other ends of these two are steps of the bot and of the server
    have hown : (∀ ebo, a ≠ .enqueue ebo) ∧ a.replied = [] ∧ ∃ client,
        d.client.step a = some client ∧
          { d with client, app := d.app.observe d.client a } = d' := by
      cases a with
      | enqueue _ => cases h
      | reply _ => cases h
      | _ => exact ⟨fun _ hebo => (by cases hebo), rfl, Option.map_eq_some_iff.mp h⟩
    obtain ⟨hbot, hreplied, client, hclient, rfl⟩ := hown
    exact .client hbot hreplied hclient
  -- the server: a request of the dashboard, its handler, and the two ways to a stream
  | request r =>
    obtain ⟨handler, hhandler, rfl⟩ := Option.map_eq_some_iff.mp h
    exact .request hhandler
  | handler i ok =>
    obtain ⟨app, happ, rfl⟩ := Option.map_eq_some_iff.mp h
    exact .handler happ
  | sendCommand sid =>
    obtain ⟨-, h⟩ := Option.ite_none_right_eq_some.mp h
    split at h
    · cases h
    · rename_i ebo rest hcomms
      obtain ⟨client, hclient, rfl⟩ := Option.map_eq_some_iff.mp h
      exact .sendCommand hcomms hclient
  | sendReply i =>
    obtain ⟨entry, hentry, h⟩ := Option.bind_eq_some_iff.mp h
    obtain ⟨client, hclient, rfl⟩ := Option.map_eq_some_iff.mp h
    exact .sendReply hentry hclient
  | esuReturns sid =>
    obtain ⟨hgone, ⟨⟩⟩ := Option.ite_none_left_eq_some.mp h
    exact .esuReturns (by simpa using hgone)
  | process i ok =>
    obtain ⟨app, happ, rfl⟩ := Option.map_eq_some_iff.mp h
    exact .process happ

/-! ## §3 The work under way -/

end Deployment

/-- What some messages ask for. -/
def asked {α : Type} (f : α → List CorrelationId) (s : Multiset α) : Multiset CorrelationId :=
  s.bind fun x => f x

section Asked

variable {α β : Type} (f : α → List CorrelationId)

@[simp] theorem asked_zero : asked f 0 = 0 := rfl

@[simp] theorem asked_cons (x : α) (s : Multiset α) : asked f (x ::ₘ s) = f x + asked f s :=
  Multiset.cons_bind ..

@[simp] theorem asked_add (s t : Multiset α) : asked f (s + t) = asked f s + asked f t :=
  Multiset.add_bind ..

theorem asked_coe (l : List α) : asked f l = l.flatMap f := Multiset.coe_bind ..

end Asked

namespace Web

/-- The pairs that a message of the server asks to find. -/
def ServerEbo.starts (ebo : ServerEbo) : List CorrelationId := ebo.toComms.starts

/-- The pairs that a message of the server asks to unregister. -/
def ServerEbo.stops (ebo : ServerEbo) : List CorrelationId := ebo.toComms.stops

/-- The row that a handler is about to mark as running. -/
def Handler.activations : Handler → List CorrelationId
  | .updateArbStatus cid => [cid]
  | _ => []

/-- The rows that a handler is about to delete. -/
def Handler.removals : Handler → List CorrelationId
  | .deleteRows cids => cids
  | _ => []

end Web

/-- The rows that a message to the server asks to delete. -/
def Grpc.NetworkEbo.deleted (ebo : NetworkEbo ClientEbo) : List CorrelationId :=
  (ebo.ebo?.map ClientEbo.deleted).getD []

/-- The message asks for the running arbs. -/
def Grpc.NetworkEbo.isRequest (ebo : NetworkEbo ClientEbo) : Bool := ebo.ebo?.isNone

/-- Both sides, in parts: the bot, the table, the handlers, the messages on their way to the bot
    and to the server, and the requests that the client is still to make. -/
def ledgersOf (bot : System) (arbs : ArbsTable) (handlers : Multiset Handler)
    (down : Multiset ServerEbo) (up : Multiset (NetworkEbo ClientEbo)) (requests : ℕ) :
    Ledgers CorrelationId :=
  bot.ledgers {
    held := bot.knows
    listed := arbs.ids
    active := arbs.running
    activations := asked Handler.activations handlers
    starts := asked ServerEbo.starts down
    stops := asked ServerEbo.stops down
    -- the bot asks for a removal when it has carried out the command
    removals := asked ServerEbo.stops down + asked Handler.removals handlers +
      asked NetworkEbo.deleted up
    resyncs := requests + up.countP (·.isRequest) }

namespace Deployment

/-- The messages on their way to the bot. -/
def down (d : Deployment) : Multiset ServerEbo :=
  d.app.grpcComms + d.app.sendCh.map Prod.snd + d.client.inbound

/-- The messages on their way to the server. -/
def up (d : Deployment) : Multiset (NetworkEbo ClientEbo) :=
  d.client.outbound + d.app.received.map Prod.snd

/-- Both sides of a deployment. -/
def ledgers (d : Deployment) : Ledgers CorrelationId :=
  ledgersOf d.bot d.app.arbs d.app.handlers d.down d.up d.client.requests

end Deployment

/-- The loss of some messages. -/
def lostEvents (down : List ServerEbo) (up : List (NetworkEbo ClientEbo)) :
    List (Event CorrelationId) :=
  (up.flatMap NetworkEbo.deleted).map .removalFails ++
    List.replicate (up.countP (·.isRequest)) (.resynced []) ++
    (down.flatMap ServerEbo.starts).map .startFails ++
    (down.flatMap ServerEbo.stops).map .stopLost

/-- What a step of a handler means for the pairs. -/
def Web.Handler.events (ok : Bool) : Handler → List (Event CorrelationId)
  | .sendConfirmedAndRun cid _ => if ok then [.activate cid] else []
  | .updateArbStatus cid => [if ok then .activated cid else .activationFails cid]
  | .sendDelete cids => if ok then [.remove cids] else []
  | .deleteRows cids => cids.map (Ledgers.removal fun _ => ok)
  | .sendDiscovery _ | .getArb _ => []

/-- What the processing of a message means for the pairs. -/
def Web.App.processEvents (w : App) (sid : ℕ) (ok : CorrelationId → Bool) :
    NetworkEbo ClientEbo → List (Event CorrelationId)
  | .getRunningArbs =>
      -- a reply to a stream that is gone is not sent
      [.resynced (if ok "" ∧ sid ∈ w.streams then w.arbs.runningArbsResponse.starts else [])]
  | .bot ebo =>
      match ebo.action with
      | .crossPlatformArb _ => if ok ebo.correlationId then [.listed ebo.correlationId] else []
      | .deleteRunningArbs cids => cids.map (Ledgers.removal ok)
      | .orderSubmitted _ | .excessFillSubmitted _ => []

namespace Deployment

/-- What a step means for the pairs. -/
def events (d : Deployment) : Action → List (Event CorrelationId)
  | .bot a => d.bot.events a
  | .client a => lostEvents (d.client.lostInbound a) (d.client.lostOutbound a)
  | .handler i ok => (d.app.handlers[i]?.map (Handler.events ok)).getD []
  | .sendCommand sid =>
      if d.client.stands sid then [] else lostEvents d.app.grpcComms.head?.toList []
  | .sendReply i => ((takeOldest d.app.sendCh i).map fun entry =>
      if d.client.stands entry.1 then [] else lostEvents [entry.2] []).getD []
  | .esuReturns sid => lostEvents ((d.app.sendCh.filter (·.1 = sid)).map Prod.snd) []
  | .process i ok => ((takeOldest d.app.received i).map fun entry =>
      d.app.processEvents entry.1 ok entry.2).getD []
  | .receive | .forward | .request _ => []

end Deployment

end Degenerate
