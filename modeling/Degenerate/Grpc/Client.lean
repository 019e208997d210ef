import Degenerate.Lib.TransitionSystem

/-!
# The gRPC Client

`run_grpc_client` holds one session after another with the server.  A session owns
a channel of its own between the bot's outbound channel and the stream; a task that
is started with the first session outlives it.  The client never looks into the
messages that it passes on, so they are of any type.

## Layout

- §1 sessions and the program points of the client
- §2 one step: a branch of the client, a move of the network, the clock
- §3 what one step can do

Times are in milliseconds.  A timer fires on time: the clock does not pass a deadline
while the task that sleeps could go on.
-/

namespace Degenerate.Grpc

open Degenerate.Lib

/-! ## §1 State -/

/-- `MAX_RETRIES`. -/
def maxRetries : ℕ := 30

/-- `RETRY_DELAY`. -/
def retryDelay : ℕ := 2000

/-- The delay of the request for the running arbs. -/
def recoveryDelay : ℕ := 30000

/-- A session that lasted longer than this resets the retries. -/
def stableAfter : ℕ := 60000

/-- The slots of a session's network channel. -/
def networkSlots : ℕ := 128

/-- A message on the network channel: one of the bot's, or the request of the client itself. -/
inductive NetworkEbo (μ : Type) where
  | bot (ebo : μ)
  | getRunningArbs
  deriving DecidableEq

/-- The bot's message, if it is one. -/
def NetworkEbo.ebo? {μ : Type} : NetworkEbo μ → Option μ
  | .bot ebo => some ebo
  | .getRunningArbs => none

/-- An established stream. -/
structure Session (μ ν : Type) where
  id : ℕ
  openedAt : ℕ
  /-- The stream stands; once it is broken, the receiver of the network channel is gone. -/
  up : Bool := true
  /-- `network_tx` to `network_rx`. -/
  network : List (NetworkEbo μ) := []
  /-- On the wire to the server. -/
  outgoing : List (NetworkEbo μ) := []
  /-- On the wire from the server. -/
  incoming : List ν := []
  deriving DecidableEq

/-- Where the client is, with the start of the attempt that it is in. -/
inductive ClientPc (μ ν : Type) where
  /-- the head of the loop of `run_grpc_client` -/
  | top
  | connecting (sessionStart : ℕ)
  | opening (sessionStart : ℕ)
  /-- in the `select!` of `connect_and_run_session` -/
  | selecting (sessionStart : ℕ) (s : Session μ ν)
  /-- a message of the bot is taken and waits for a slot -/
  | sending (sessionStart : ℕ) (s : Session μ ν) (ebo : μ)
  /-- a message of the server is taken and waits for the bot -/
  | relaying (sessionStart : ℕ) (s : Session μ ν) (ebo : ν)
  | retrying (wakeAt : ℕ)
  | stopped (result : Except String Unit)

/-- The task that asks for the running arbs: bound to the channel of one session. -/
structure Recovery where
  session : ℕ
  due : ℕ
  deriving DecidableEq

/-- The client with its channels, the clock and what the server has received. -/
structure GrpcClient (μ ν : Type) where
  botOutboundRx : List μ := []
  /-- All senders of the outbound channel are gone. -/
  outboundClosed : Bool := false
  /-- What went to `bot_inbound_tx`. -/
  botInbound : List ν := []
  shutdown : Bool := false
  retries : ℕ := 0
  firstConnect : Bool := true
  /-- How many streams were opened. -/
  sessions : ℕ := 0
  recovery : Option Recovery := none
  pc : ClientPc μ ν := .top
  now : ℕ := 0
  received : List (NetworkEbo μ) := []

variable {μ ν : Type}

namespace ClientPc

/-- The session of the client, from its opening to its end. -/
def session : ClientPc μ ν → Option (Session μ ν)
  | .selecting _ s => some s
  | .sending _ s _ => some s
  | .relaying _ s _ => some s
  | _ => none

/-- Change the session. -/
def mapSession (f : Session μ ν → Session μ ν) : ClientPc μ ν → ClientPc μ ν
  | .selecting t s => .selecting t (f s)
  | .sending t s ebo => .sending t (f s) ebo
  | .relaying t s ebo => .relaying t (f s) ebo
  | pc => pc

/-- The client has returned. -/
def isStopped : ClientPc μ ν → Bool
  | .stopped _ => true
  | _ => false

/-- The message of the bot that the client has taken and not yet passed on. -/
def hand : ClientPc μ ν → List μ
  | .sending _ _ ebo => [ebo]
  | _ => []

@[simp] theorem session_mapSession (f : Session μ ν → Session μ ν) (pc : ClientPc μ ν) :
    (pc.mapSession f).session = pc.session.map f := by
  cases pc <;> rfl

@[simp] theorem hand_mapSession (f : Session μ ν → Session μ ν) (pc : ClientPc μ ν) :
    (pc.mapSession f).hand = pc.hand := by
  cases pc <;> rfl

/-- A client that has returned has no session. -/
theorem session_of_isStopped {pc : ClientPc μ ν} (h : pc.isStopped = true) : pc.session = none := by
  cases pc <;> first | rfl | cases h

end ClientPc

/-! ## §2 One step -/

/-- A step of the client, of its environment or of the clock. -/
inductive Action (μ ν : Type) where
  /-- a task of the bot sends a message -/
  | enqueue (ebo : μ)
  | closeOutbound
  | cancel
  /-- the loop head -/
  | attempt
  | connected (ok : Bool)
  | opened (ok : Bool)
  /-- a `select!` takes the branch of the shutdown token -/
  | shutdown
  /-- `bot_outbound_rx.recv()` -/
  | recv
  /-- `network_tx.send` ends -/
  | send
  /-- `inbound_stream.message()` -/
  | message
  /-- `bot_inbound_tx.send` ends -/
  | relay (ok : Bool)
  /-- the retry delay is over -/
  | retry
  /-- the recovery task sends its request -/
  | request
  | transmit
  | deliver
  /-- the server sends a message -/
  | reply (ebo : ν)
  /-- the stream breaks, or the server closes it -/
  | breakStream
  | tick (ms : ℕ)

namespace GrpcClient

/-- The URL of the server, from the value of `GRPC_URL`. -/
def serverUrl (grpcUrl : Option String) : String := grpcUrl.getD "http://127.0.0.1:50051"

/-- The client at its start.  A URL that `Endpoint::from_shared` does not accept ends it before
    its first attempt; with any other it is the client `{}`. -/
def start (fromShared : String → Bool) (grpcUrl : Option String) : GrpcClient μ ν :=
  if fromShared (serverUrl grpcUrl) then {} else { pc := .stopped (.error "grpc_url invalid") }

/-- What follows a session that ended with an error. -/
def sessionFailed (c : GrpcClient μ ν) (sessionStart : ℕ) : GrpcClient μ ν :=
  let retries := if stableAfter < c.now - sessionStart then 0 else c.retries + 1
  if maxRetries ≤ retries then
    { c with retries, pc := .stopped (.error "max gRPC retries (30) reached. Aborting.") }
  else { c with retries, pc := .retrying (c.now + retryDelay) }

/-- The stream is established. -/
def established (c : GrpcClient μ ν) (sessionStart : ℕ) : GrpcClient μ ν :=
  { c with
    sessions := c.sessions + 1
    -- the one-shot flag is cleared here, not when the request is out
    firstConnect := false
    recovery := if c.firstConnect then some ⟨c.sessions, c.now + recoveryDelay⟩ else c.recovery
    pc := .selecting sessionStart { id := c.sessions, openedAt := c.now } }

/-- Put a message on the network channel of the session. -/
def push (c : GrpcClient μ ν) (ebo : NetworkEbo μ) : GrpcClient μ ν :=
  { c with pc := c.pc.mapSession fun s => { s with network := s.network ++ [ebo] } }

/-- The session whose channel the recovery task holds, if it still stands. -/
def recoverySession (c : GrpcClient μ ν) (r : Recovery) : Option (Session μ ν) :=
  c.pc.session.filter fun s => s.id = r.session && s.up

/-- The recovery task would wait for a slot of its channel. -/
def blocked (c : GrpcClient μ ν) (r : Recovery) : Bool :=
  (c.recoverySession r).any fun s => networkSlots ≤ s.network.length

/-- The clock may advance: no timer is overdue. -/
def mayTick (c : GrpcClient μ ν) (ms : ℕ) : Bool :=
  c.recovery.all fun r => c.blocked r || c.now + ms ≤ r.due

/-- The branches of the client. -/
def clientStep (c : GrpcClient μ ν) : Action μ ν → Option (GrpcClient μ ν)
  | .attempt =>
      match c.pc with
      | .top => some { c with pc := if c.shutdown then .stopped (.ok ()) else .connecting c.now }
      | _ => none
  | .connected ok =>
      match c.pc with
      | .connecting t => some (if ok then { c with pc := .opening t } else c.sessionFailed t)
      | _ => none
  | .opened ok =>
      match c.pc with
      | .opening t => some (if ok then c.established t else c.sessionFailed t)
      | _ => none
  | .shutdown =>
      if c.shutdown then
        match c.pc with
        | .selecting .. => some { c with pc := .stopped (.ok ()) }
        | .retrying _ => some { c with pc := .stopped (.ok ()) }
        | _ => none
      else none
  | .recv =>
      match c.pc, c.botOutboundRx with
      | .selecting t s, ebo :: rest => some { c with botOutboundRx := rest, pc := .sending t s ebo }
      | .selecting .., [] =>
          if c.outboundClosed then some { c with pc := .stopped (.ok ()) } else none
      | _, _ => none
  | .send =>
      match c.pc with
      | .sending t s ebo =>
          -- the message is gone with the error
          if !s.up then some (c.sessionFailed t)
          else if s.network.length < networkSlots then
            some { c with
              pc := .selecting t { s with network := s.network ++ [.bot ebo] } }
          else none
      | _ => none
  | .message =>
      match c.pc with
      | .selecting t s =>
          match s.incoming with
          | ebo :: rest => some { c with pc := .relaying t { s with incoming := rest } ebo }
          | [] => if s.up then none else some (c.sessionFailed t)
      | _ => none
  | .relay ok =>
      match c.pc with
      | .relaying t s ebo =>
          some (if ok then { c with botInbound := c.botInbound ++ [ebo], pc := .selecting t s }
            else c.sessionFailed t)
      | _ => none
  | .retry =>
      match c.pc with
      | .retrying t => if t ≤ c.now then some { c with pc := .top } else none
      | _ => none
  | .request =>
      match c.recovery with
      | some r =>
          if r.due ≤ c.now && !c.blocked r then
            let c' := { c with recovery := none }
            some (if (c.recoverySession r).isSome then c'.push .getRunningArbs else c')
          else none
      | none => none
  | _ => none

/-- The moves of the network and of the server's end of the stream. -/
def networkStep (c : GrpcClient μ ν) (s : Session μ ν) : Action μ ν → Option (GrpcClient μ ν)
  | .transmit =>
      match s.network with
      | ebo :: rest => some { c with
          pc := c.pc.mapSession fun s => { s with network := rest, outgoing := s.outgoing ++ [ebo] } }
      | [] => none
  | .deliver =>
      match s.outgoing with
      | ebo :: rest => some { c with
          received := c.received ++ [ebo]
          pc := c.pc.mapSession fun s => { s with outgoing := rest } }
      | [] => none
  | .reply ebo =>
      if s.up then some { c with
        pc := c.pc.mapSession fun s => { s with incoming := s.incoming ++ [ebo] } }
      else none
  | .breakStream =>
      if s.up then some { c with
        pc := c.pc.mapSession fun s => { s with up := false, network := [], outgoing := [] } }
      else none
  | _ => none

/-- One step.  Nothing moves once the client has returned. -/
def step (c : GrpcClient μ ν) (a : Action μ ν) : Option (GrpcClient μ ν) :=
  if c.pc.isStopped then none
  else
    match a with
    | .enqueue ebo =>
        if c.outboundClosed then none
        else some { c with botOutboundRx := c.botOutboundRx ++ [ebo] }
    | .closeOutbound => some { c with outboundClosed := true }
    | .cancel => some { c with shutdown := true }
    | .tick ms => if c.mayTick ms then some { c with now := c.now + ms } else none
    | a => (c.clientStep a).or (c.pc.session.bind fun s => c.networkStep s a)

/-! ## §3 What one step can do -/

/-- The recovery task's session is the current one, and stands. -/
theorem recoverySession_eq_some {c : GrpcClient μ ν} {r : Recovery} {s : Session μ ν}
    (h : c.recoverySession r = some s) :
    c.pc.session = some s ∧ s.id = r.session ∧ s.up = true := by
  obtain ⟨hs, hr⟩ := Option.filter_eq_some_iff.mp h
  exact ⟨hs, by simpa using hr⟩

/-- A failed session leaves everything but the retries and the program point, which has no
    session any more. -/
theorem sessionFailed_eq (c : GrpcClient μ ν) (t : ℕ) :
    ∃ retries pc, c.sessionFailed t = { c with retries, pc } ∧ pc.session = none ∧
      pc.hand = [] := by
  unfold sessionFailed
  generalize (if stableAfter < c.now - t then 0 else c.retries + 1) = retries
  show ∃ retries' pc, (if maxRetries ≤ retries then _ else _) = { c with retries := retries', pc } ∧ _
  split
  · exact ⟨retries, .stopped _, rfl, rfl, rfl⟩
  · exact ⟨retries, .retrying _, rfl, rfl, rfl⟩

/-- At the head of the loop there is no session, and none is opened there. -/
theorem session_attempt (c : GrpcClient μ ν) :
    (if c.shutdown then .stopped (.ok ()) else .connecting c.now : ClientPc μ ν).session = none := by
  split <;> rfl

theorem hand_attempt (c : GrpcClient μ ν) :
    (if c.shutdown then .stopped (.ok ()) else .connecting c.now : ClientPc μ ν).hand = [] := by
  split <;> rfl

/-- The outcomes of a step, one constructor for each. -/
inductive Moves (c : GrpcClient μ ν) : Action μ ν → GrpcClient μ ν → Prop
  | enqueue {ebo : μ} : Moves c (.enqueue ebo) { c with botOutboundRx := c.botOutboundRx ++ [ebo] }
  | closeOutbound : Moves c .closeOutbound { c with outboundClosed := true }
  | cancel : Moves c .cancel { c with shutdown := true }
  | tick {ms : ℕ} (h : c.mayTick ms) : Moves c (.tick ms) { c with now := c.now + ms }
  | attempt (h : c.pc = .top) : Moves c .attempt
      { c with pc := if c.shutdown then .stopped (.ok ()) else .connecting c.now }
  | connected {t : ℕ} (h : c.pc = .connecting t) :
      Moves c (.connected true) { c with pc := .opening t }
  | notConnected {t : ℕ} (h : c.pc = .connecting t) :
      Moves c (.connected false) (c.sessionFailed t)
  | opened {t : ℕ} (h : c.pc = .opening t) : Moves c (.opened true) (c.established t)
  | notOpened {t : ℕ} (h : c.pc = .opening t) : Moves c (.opened false) (c.sessionFailed t)
  /-- the token is cancelled, or the channel from the bot is closed -/
  | returns {a : Action μ ν} : Moves c a { c with pc := .stopped (.ok ()) }
  | recv {t : ℕ} {s : Session μ ν} {ebo : μ} {rest : List μ} (h : c.pc = .selecting t s)
      (hrx : c.botOutboundRx = ebo :: rest) :
      Moves c .recv { c with botOutboundRx := rest, pc := .sending t s ebo }
  | sent {t : ℕ} {s : Session μ ν} {ebo : μ} (h : c.pc = .sending t s ebo) (hup : s.up = true) :
      Moves c .send { c with
        pc := .selecting t { s with network := s.network ++ [.bot ebo] } }
  | sendFails {t : ℕ} {s : Session μ ν} {ebo : μ} (h : c.pc = .sending t s ebo)
      (hdown : s.up = false) : Moves c .send (c.sessionFailed t)
  | message {t : ℕ} {s : Session μ ν} {ebo : ν} {rest : List ν} (h : c.pc = .selecting t s)
      (hin : s.incoming = ebo :: rest) :
      Moves c .message { c with pc := .relaying t { s with incoming := rest } ebo }
  | streamEnds {t : ℕ} {s : Session μ ν} (h : c.pc = .selecting t s) (hdown : s.up = false) :
      Moves c .message (c.sessionFailed t)
  | relayed {t : ℕ} {s : Session μ ν} {ebo : ν} (h : c.pc = .relaying t s ebo) :
      Moves c (.relay true) { c with
        botInbound := c.botInbound ++ [ebo], pc := .selecting t s }
  | relayFails {t : ℕ} {s : Session μ ν} {ebo : ν} (h : c.pc = .relaying t s ebo) :
      Moves c (.relay false) (c.sessionFailed t)
  | retry {t : ℕ} (h : c.pc = .retrying t) (hdue : t ≤ c.now) :
      Moves c .retry { c with pc := .top }
  | requested {r : Recovery} {s : Session μ ν} (h : c.recovery = some r)
      (hs : c.recoverySession r = some s) :
      Moves c .request ({ c with recovery := none }.push .getRunningArbs)
  | requestFails {r : Recovery} (h : c.recovery = some r) (hs : c.recoverySession r = none) :
      Moves c .request { c with recovery := none }
  | transmit {s : Session μ ν} {ebo : NetworkEbo μ} {rest : List (NetworkEbo μ)}
      (hs : c.pc.session = some s) (hnet : s.network = ebo :: rest) :
      Moves c .transmit { c with
        pc := c.pc.mapSession fun s => { s with network := rest, outgoing := s.outgoing ++ [ebo] } }
  | deliver {s : Session μ ν} {ebo : NetworkEbo μ} {rest : List (NetworkEbo μ)}
      (hs : c.pc.session = some s) (hout : s.outgoing = ebo :: rest) :
      Moves c .deliver { c with
        received := c.received ++ [ebo]
        pc := c.pc.mapSession fun s => { s with outgoing := rest } }
  | reply {s : Session μ ν} {ebo : ν} (hs : c.pc.session = some s) (hup : s.up = true) :
      Moves c (.reply ebo) { c with
        pc := c.pc.mapSession fun s => { s with incoming := s.incoming ++ [ebo] } }
  | breakStream {s : Session μ ν} (hs : c.pc.session = some s) (hup : s.up = true) :
      Moves c .breakStream { c with
        pc := c.pc.mapSession fun s => { s with up := false, network := [], outgoing := [] } }

/-- The outcomes of a branch of the client. -/
theorem clientStep_moves {c c' : GrpcClient μ ν} {a : Action μ ν} (h : c.clientStep a = some c') :
    c.Moves a c' := by
  cases a with
  | attempt =>
    simp only [clientStep] at h
    split at h <;> cases h
    rename_i hpc
    exact .attempt hpc
  -- the connection and the stream: a refusal ends the session like a break of it
  | connected ok =>
    simp only [clientStep] at h
    split at h <;> cases h
    rename_i hpc
    cases ok with
    | true => exact .connected hpc
    | false => exact .notConnected hpc
  | opened ok =>
    simp only [clientStep] at h
    split at h <;> cases h
    rename_i hpc
    cases ok with
    | true => exact .opened hpc
    | false => exact .notOpened hpc
  | shutdown =>
    simp only [clientStep] at h
    split at h
    · split at h <;> cases h <;> exact .returns
    · cases h
  -- the branch of the bot's messages
  | recv =>
    simp only [clientStep] at h
    split at h
    · rename_i hpc hrx
      cases h
      exact .recv hpc hrx
    · -- the channel is empty, and perhaps closed
      split at h <;> cases h
      exact .returns
    · cases h
  | send =>
    simp only [clientStep] at h
    split at h
    · rename_i hpc
      split at h
      · rename_i hdown
        cases h
        exact .sendFails hpc (by simpa using hdown)
      · rename_i hup
        split at h <;> cases h
        exact .sent hpc (by simpa using hup)
    · cases h
  -- the branch of the server's messages
  | message =>
    simp only [clientStep] at h
    split at h
    · rename_i hpc
      split at h
      · rename_i hin
        cases h
        exact .message hpc hin
      · -- what arrived before a break is read before its end is seen
        split at h <;> cases h
        rename_i hdown
        exact .streamEnds hpc (by simpa using hdown)
    · cases h
  | relay ok =>
    simp only [clientStep] at h
    split at h <;> cases h
    rename_i hpc
    cases ok with
    | true => exact .relayed hpc
    | false => exact .relayFails hpc
  | retry =>
    simp only [clientStep] at h
    split at h
    · rename_i hpc
      split at h <;> cases h
      rename_i hdue
      exact .retry hpc hdue
    · cases h
  -- the task that asks for the running arbs, thirty seconds into the first session
  | request =>
    simp only [clientStep] at h
    split at h
    · rename_i r hr
      split at h <;> cases h
      cases hs : c.recoverySession r with
      | none => exact .requestFails hr hs
      | some s => exact .requested hr hs
    · cases h
  | _ => cases h

/-- The outcomes of a move of the network. -/
theorem networkStep_moves {c c' : GrpcClient μ ν} {s : Session μ ν} {a : Action μ ν}
    (hs : c.pc.session = some s) (h : c.networkStep s a = some c') : c.Moves a c' := by
  cases a with
  | transmit =>
    simp only [networkStep] at h
    split at h <;> cases h
    rename_i hnet
    exact .transmit hs hnet
  | deliver =>
    simp only [networkStep] at h
    split at h <;> cases h
    rename_i hout
    exact .deliver hs hout
  -- nothing more arrives on a broken stream, and it does not break again
  | reply ebo =>
    simp only [networkStep] at h
    split at h <;> cases h
    rename_i hup
    exact .reply hs hup
  | breakStream =>
    simp only [networkStep] at h
    split at h <;> cases h
    rename_i hup
    exact .breakStream hs hup
  | _ => cases h

/-- **What one step can do**, and that the client had not returned before it. -/
theorem step_moves {c c' : GrpcClient μ ν} {a : Action μ ν} (h : c.step a = some c') :
    c.pc.isStopped = false ∧ c.Moves a c' := by
  unfold step at h
  split at h
  · cases h
  · rename_i hrunning
    refine ⟨by simpa using hrunning, ?_⟩
    split at h
    -- the bot, the token and the clock
    · split at h <;> cases h
      exact .enqueue
    · cases h
      exact .closeOutbound
    · cases h
      exact .cancel
    · split at h <;> cases h
      rename_i htick
      exact .tick htick
    -- the client, and the network of its session
    · rcases Option.or_eq_some_iff.mp h with h | ⟨-, h⟩
      · exact clientStep_moves h
      · obtain ⟨s, hs, h⟩ := Option.bind_eq_some_iff.mp h
        exact networkStep_moves hs h

end GrpcClient

end Degenerate.Grpc
