import Degenerate.Picker.Discovery
import Degenerate.Platforms.Clients
import Degenerate.Lib.FlaggedQueue

/-!
# The Picker as a System of Tasks

Three kinds of tasks share the state of the picker: the comms task (one), the
executor (one), and the background unsubscribe tasks that `unregister_arb` spawns.
They interleave at every access to shared state: a lock, a channel operation, a
WebSocket send.

The comms task is a program counter `CommsPc` for the two functions that are cut at
such points (`evaluate_arb` and `find_arb`), and a list of operations `CommsOp` still
to be done for the current message.  An operation touches shared state at most once.
When the program counter is `next` and nothing is left to do, the task is *between
messages*.

## Layout

- §1 operations, program counters, the state
- §2 `evaluate_arb`, `find_arb` and the other operations, step by step
- §3 the step function over all tasks
- §4 what one step can do
-/

namespace Degenerate.Picker

open Degenerate.Lib Degenerate.Platforms

/-! ## §1 The state -/

/-- The messages that the comms task receives: from the venues and from the server. -/
inductive CommsMessage where
  | polymarket (msg : PolyMessage)
  | kalshi (msg : KalshiMessage)
  /-- `CrossPlatformArbDiscovery` and `IntraPlatformArbDiscovery` -/
  | arbDiscovery (arbs : List DiscoveredArb)
  | runningArbsResponse (confirmedAndRun : List Arb) (correlationIds : List CorrelationId)
  | confirmedAndRun (arb : Arb) (correlationId : CorrelationId)
  | deleteRunningArbs (correlationIds : List CorrelationId)

/-- An operation of the comms task. -/
inductive CommsOp (F : Type := F32) where
  | onPriceUpdate (key : MarketKey) (tob : TopOfBook F)
  | evaluateArb (cid : CorrelationId)
  /-- `MarketResolved`, for one asset -/
  | marketResolved (assetId : String)
  | marketLifecycle (event : MarketLifecycle)
  | updateCloseTime (key : MarketKey) (cid : CorrelationId) (closeTs : Option ℤ)
  | unregisterArb (cid : CorrelationId)
  | findArb (arb : Arb) (cid : CorrelationId)
  | seedTobFromHttp (leg : ArbMinifiedInfo)
  | resolveDiscovered (arb : DiscoveredArb)
  | send (ebo : ClientEbo)

/-- Where `evaluate_arb` is, after it found the arb not in flight. -/
inductive EvalPc where
  | readCooldown (cid : CorrelationId)
  | removeCooldown (cid : CorrelationId)
  | checkPrices (cid : CorrelationId)
  | trySend (req : ExecutionRequest)
  | insertInFlight (cid : CorrelationId)

/-- What an operation does to the book. -/
def CommsOp.bookMoves {F : Type} : CommsOp F → List BookOp
  | .unregisterArb cid => [.unregisterArb cid]
  | .updateCloseTime key cid closeTs => [.updateCloseTime key cid closeTs]
  | _ => []

/-- How far `evaluate_arb` is: past the in-flight test, or past the send. -/
def EvalPc.stage : EvalPc → Producer CorrelationId
  | .readCooldown cid | .removeCooldown cid | .checkPrices cid => .passed cid
  | .trySend req => .passed req.correlationId
  | .insertInFlight cid => .sent cid

/-- An `add_market_ticker` call on either client. -/
inductive AddCall where
  | kalshi (call : KalshiAdd)
  | polymarket (call : PolymarketAdd)

/-- A venue with a token. -/
abbrev Entry := Platform × String

/-- Call `add_market_ticker` for an entry. -/
def AddCall.start : Entry → AddCall
  | (.kalshi, token) => .kalshi (.check token)
  | (.polymarket, token) => .polymarket (.check token)

/-- The loop of `find_arb` over its two entries. -/
structure FindArb where
  arb : Arb
  correlationId : CorrelationId
  call : AddCall
  left : List Entry
  subscribedCount : ℕ

/-- The program counter of the comms task. -/
inductive CommsPc where
  /-- at the next operation -/
  | next
  | evaluating (e : EvalPc)
  | finding (f : FindArb)
  /-- at the call of `register_arb` -/
  | registering (w : ArbWatch)

/-- The arb that the comms task is evaluating, and how far it is. -/
def CommsPc.stage : CommsPc → Producer CorrelationId
  | .evaluating e => e.stage
  | _ => .outside

/-- The request that `evaluate_arb` is about to send. -/
def CommsPc.sending : CommsPc → Option ExecutionRequest
  | .evaluating (.trySend req) => some req
  | _ => none

theorem CommsPc.sending_eq_some {pc : CommsPc} {req : ExecutionRequest} :
    pc.sending = some req ↔ pc = .evaluating (.trySend req) := by
  cases pc with
  | evaluating e => cases e <;> simp [sending]
  | next => simp [sending]
  | finding f => simp [sending]
  | registering w => simp [sending]

/-- The comms task. -/
structure Comms (F : Type := F32) where
  pc : CommsPc := .next
  todo : List (CommsOp F) := []

/-- A background `del_market_ticker` task. -/
inductive DelTask where
  | kalshi (call : KalshiDel)
  | polymarket (call : PolymarketDel)
  deriving DecidableEq

/-- The task that is spawned for an evicted leg. -/
def DelTask.start (leg : ArbMinifiedInfo) : DelTask :=
  match leg.platform with
  | .kalshi => .kalshi (.remove leg.tokenId)
  | .polymarket => .polymarket (.filter [leg.tokenId])

/-- The whole state, with prices of type `F`. -/
structure System (F : Type := F32) where
  /-- Owned by the comms task. -/
  comms : Comms F := {}
  book : Book := Book.new
  topOfBook : PMap MarketKey (TopOfBook F) := PMap.empty
  /-- Shared by the comms task and the executor. -/
  inFlight : Finset CorrelationId := ∅
  cooldown : PMap CorrelationId ℕ := PMap.empty
  executionRx : List ExecutionRequest := []
  outbox : List ClientEbo := []
  /-- Owned by the executor. -/
  exec : Executor
  /-- Shared by the comms task and the background tasks. -/
  kalshi : KalshiClient := {}
  polymarket : PolymarketClient := {}
  spawned : List DelTask := []
  /-- The monotonic clock, in milliseconds. -/
  instant : ℕ := 0

/-- The state at start-up, with the trade fraction and the minimum trade size. -/
def System.init (tradeFraction minTradeSize : ℚ) (F : Type := F32) : System F :=
  { exec := Executor.init tradeFraction minTradeSize }

/-- What the environment decides in a step of the comms task. -/
structure Choice where
  /-- The order in which a `HashSet` is iterated. -/
  order : List CorrelationId := []
  /-- The WebSocket send succeeds. -/
  sendOk : Bool := true
  http : HttpVenue := HttpVenue.down
  markets : MarketVenue
  utcNow : ℤ := 0

/-- The order is one in which the set can be iterated. -/
def Choice.iterates (c : Choice) (set : Finset CorrelationId) : Bool :=
  c.order.Nodup && c.order.toFinset = set

/-- Where `find_arb` goes when a subscription has ended with `ok`. -/
def FindArb.advance (f : FindArb) (ok : Bool) : CommsPc :=
  let subscribedCount := f.subscribedCount + if ok then 1 else 0
  match f.left with
  | entry :: left => .finding { f with call := .start entry, left, subscribedCount }
  | [] =>
      -- dropped unless both legs subscribed
      if subscribedCount < 2 then .next
      else
        match ArbMinifiedInfoPair.tryFrom f.arb with
        | .error _ => .next
        | .ok pair => .registering ⟨f.correlationId, pair⟩

/-- Where `find_arb` goes after a step of its subscription call. -/
def FindArb.resume (f : FindArb) : Progress AddCall → CommsPc
  | .more call => .finding { f with call }
  | .done ok => f.advance ok

/-- `mpsc::channel(1_024)`. -/
def executionCapacity : ℕ := 1024

namespace System

variable {F : Type}

/-- The comms task is between messages. -/
def betweenMessages (p : System F) : Bool :=
  match p.comms with
  | ⟨.next, []⟩ => true
  | _ => false

/-- Move the comms task. -/
def goto (p : System F) (pc : CommsPc) : System F := { p with comms := { p.comms with pc } }

/-- Put operations in front of what is left to do. -/
def push (p : System F) (ops : List (CommsOp F)) : System F :=
  { p with comms := { p.comms with todo := ops ++ p.comms.todo } }

/-- Leave only `rest` to do. -/
def pop (p : System F) (rest : List (CommsOp F)) : System F :=
  { p with comms := { p.comms with todo := rest } }

/-! ## §2 The comms task -/

/-- The operations that a message asks for. -/
def opsOf [FloatOps F] (b : Book) : CommsMessage → List (CommsOp F)
  | .polymarket (.marketResolved assetIds) => assetIds.map .marketResolved
  | .polymarket msg => (polyUpdates msg).map fun u => .onPriceUpdate u.1 u.2
  | .kalshi (.tickerUpdate t) =>
      let key := makeMarketKey t.marketTicker .kalshi
      -- Kalshi sends the tickers of all markets: unwatched ones are dropped here
      if (b.registry key).isNone then []
      else ((tickerTop t).map (CommsOp.onPriceUpdate key)).toList
  | .kalshi (.marketLifecycleV2 event) => [.marketLifecycle event]
  | .kalshi .other => []
  | .arbDiscovery arbs => arbs.map .resolveDiscovered
  | .runningArbsResponse arbs cids => (arbs.zip cids).map fun a => .findArb a.1 a.2
  | .confirmedAndRun arb cid => [.findArb arb cid]
  -- each id is unregistered and acknowledged before the next one
  | .deleteRunningArbs cids =>
      cids.flatMap fun cid => [.unregisterArb cid, .send { action := .deleteRunningArbs [cid] }]

/-- One step of `evaluate_arb` after its in-flight test. -/
def evalStep [FloatOps F] (cfg : Config) (c : Choice) (p : System F) : EvalPc → System F
  | .readCooldown cid =>
      match p.cooldown cid with
      | none => p.goto (.evaluating (.checkPrices cid))
      | some cooledAt =>
          -- the entry is dropped in an access of its own, after the read lock is released
          if p.instant - cooledAt < cfg.cooldownDuration then p.goto .next
          else p.goto (.evaluating (.removeCooldown cid))
  | .removeCooldown cid =>
      { p with cooldown := p.cooldown.erase cid }.goto (.evaluating (.checkPrices cid))
  | .checkPrices cid =>
      -- the record and the two prices are owned by the comms task: one step
      match p.book.records cid with
      | none => p.goto .next
      | some w =>
          match evaluate c.utcNow cid w.arb (p.topOfBook w.arb.anchor.marketKey)
              (p.topOfBook w.arb.match.marketKey) with
          | none => p.goto .next
          | some req => p.goto (.evaluating (.trySend req))
  | .trySend req =>
      -- a full channel drops the opportunity
      if p.executionRx.length < executionCapacity then
        { p with executionRx := p.executionRx ++ [req] }.goto
          (.evaluating (.insertInFlight req.correlationId))
      else p.goto .next
  | .insertInFlight cid => { p with inFlight := insert cid p.inFlight }.goto .next

/-- One step of an `add_market_ticker` call. -/
def addStep (p : System F) (sendOk : Bool) : AddCall → System F × Progress AddCall
  | .kalshi call =>
      let r := p.kalshi.addStep sendOk call
      ({ p with kalshi := r.1 }, r.2.map .kalshi)
  | .polymarket call =>
      let r := p.polymarket.addStep sendOk call
      ({ p with polymarket := r.1 }, r.2.map .polymarket)

/-- One step of the loop of `find_arb`. -/
def findStep (c : Choice) (p : System F) (f : FindArb) : System F :=
  let r := p.addStep c.sendOk f.call
  r.1.goto (f.resume r.2)

/-- `register_arb`, followed by the two HTTP seeds. -/
def register (p : System F) (w : ArbWatch) : System F :=
  ({ p with book := p.book.registerArb w }.goto .next).push
    [.seedTobFromHttp w.arb.anchor, .seedTobFromHttp w.arb.match]

/-- What `find_arb` reads of a leg before it subscribes: platform, close time and token. -/
def findLeg (name : String) (leg : Option ArbEssentials) : Except String (Platform × ℤ × String) :=
  match leg with
  | none => .error (name ++ " missing")
  | some e =>
      match e.discovery with
      | none => .error (name ++ " discovery missing")
      | some d =>
          match d.marketInfo with
          | none => .error (name ++ " market_info missing")
          | some m =>
              match Platform.tryFrom m.platform with
              | none => .error (name ++ " platform missing")
              | some platform =>
                  match fromTimestampMillis m.closeTimeMs with
                  | none => .error (name ++ " close_time_ms missing")
                  | some closeTime => .ok (platform, closeTime, e.tokenId)

/-- `find_arb` up to its first subscription. -/
def findArb (c : Choice) (p : System F) (arb : Arb) (cid : CorrelationId) : System F :=
  match findLeg "anchor" arb.anchor, findLeg "match" arb.match with
  | .ok (anchorPlatform, anchorClose, anchorToken), .ok (matchPlatform, matchClose, matchToken) =>
      -- a pair about to close is removed, and the server told so
      if closesWithin c.utcNow oneHourMs anchorClose || closesWithin c.utcNow oneHourMs matchClose
      then p.push [.unregisterArb cid, .send { action := .deleteRunningArbs [cid] }]
      else
        p.goto (.finding {
          arb := arb
          correlationId := cid
          call := .start (anchorPlatform, anchorToken)
          left := [(matchPlatform, matchToken)]
          subscribedCount := 0 })
  | _, _ => p

/-- `unregister_arb`: the evicted legs lose their top of book and are unsubscribed in the
    background. -/
def unregisterArb (p : System F) (cid : CorrelationId) : System F :=
  let r := p.book.unregisterArb cid
  { p with
    book := r.1
    topOfBook := p.topOfBook.eraseAll (r.2.map (·.marketKey))
    spawned := p.spawned ++ r.2.map DelTask.start }

/-- The stale-update guard of `on_price_update`. -/
def accepts (p : System F) (key : MarketKey) (tob : TopOfBook F) : Bool :=
  match p.topOfBook key with
  | none => true
  | some existing => existing.tobTimestampMs < tob.tobTimestampMs

/-- What a lifecycle event asks for at one watcher of its market. -/
def lifecycleOps (event : MarketLifecycle) (cid : CorrelationId) : List (CommsOp F) :=
  if event.eventType = "close_date_updated" then
    [.updateCloseTime (makeMarketKey event.marketTicker .kalshi) cid event.closeTs]
  else if event.eventType = "determined" ∨ event.eventType = "settled" ∨
      event.eventType = "deactivated" then [.unregisterArb cid]
  else []

/-- At a watcher an event updates a close time or withdraws the pair. -/
theorem mem_lifecycleOps {event : MarketLifecycle} {cid : CorrelationId} {op : CommsOp F}
    (h : op ∈ lifecycleOps event cid) :
    (event.eventType = "close_date_updated" ∧
      op = .updateCloseTime (makeMarketKey event.marketTicker .kalshi) cid event.closeTs) ∨
    op = .unregisterArb cid := by
  unfold lifecycleOps at h
  split at h
  · exact .inl ⟨‹_›, List.mem_singleton.mp h⟩
  · split at h
    · exact .inr (List.mem_singleton.mp h)
    · cases h

/-- One operation.  It is refused when the environment's order does not fit the set that
    is iterated. -/
def opStep [FloatOps F] (cfg : Config) (c : Choice) (p : System F) : CommsOp F → Option (System F)
  | .onPriceUpdate key tob =>
      if p.accepts key tob then
        if c.iterates ((p.book.registry key).getD ∅) then
          some ({ p with topOfBook := p.topOfBook.insert key tob }.push
            (c.order.map .evaluateArb))
        else none
      else some p
  -- the in-flight test is a step of its own
  | .evaluateArb cid =>
      if cid ∈ p.inFlight then some p else some (p.goto (.evaluating (.readCooldown cid)))
  | .marketResolved assetId =>
      if c.iterates ((p.book.registry (makeMarketKey assetId .polymarket)).getD ∅) then
        some (p.push (c.order.map .unregisterArb))
      else none
  | .marketLifecycle event =>
      if c.iterates ((p.book.registry (makeMarketKey event.marketTicker .kalshi)).getD ∅) then
        some (p.push (c.order.flatMap (lifecycleOps event)))
      else none
  | .updateCloseTime key cid closeTs =>
      some { p with book := p.book.updateCloseTime key cid closeTs }
  | .unregisterArb cid => some (p.unregisterArb cid)
  | .findArb arb cid => some (findArb c p arb cid)
  | .seedTobFromHttp leg =>
      match seedTop c.http c.utcNow leg with
      | none => some p
      | some tob => some (p.push [.onPriceUpdate leg.marketKey tob])
  | .resolveDiscovered arb =>
      match resolveDiscovered cfg.generateUuidV5 c.markets c.utcNow arb with
      | none => some p
      | some ebo => some (p.push [.send ebo])
  | .send ebo => some { p with outbox := p.outbox ++ [ebo] }

/-- One step of the comms task inside a message. -/
def commsStep [FloatOps F] (cfg : Config) (c : Choice) (p : System F) : Option (System F) :=
  match p.comms.pc with
  | .evaluating e => some (evalStep cfg c p e)
  | .finding f => some (findStep c p f)
  | .registering w => some (p.register w)
  | .next =>
      match p.comms.todo with
      | [] => none
      | op :: rest => opStep cfg c (p.pop rest) op

/-! ## §3 All tasks -/

/-- One step of a `del_market_ticker` call. -/
def delStep (p : System F) (sendOk : Bool) : DelTask → System F × Progress DelTask
  | .kalshi call =>
      let r := p.kalshi.delStep sendOk call
      ({ p with kalshi := r.1 }, r.2.map .kalshi)
  | .polymarket call =>
      let r := p.polymarket.delStep sendOk call
      ({ p with polymarket := r.1 }, r.2.map .polymarket)

/-- One step of a background task; a task that ends is dropped. -/
def taskStep (p : System F) (i : ℕ) (sendOk : Bool) : Option (System F) :=
  match p.spawned[i]? with
  | none => none
  | some task =>
      let r := p.delStep sendOk task
      some { r.1 with spawned := r.2.advance r.1.spawned i }

/-- What an effect of the executor does to the shared state. -/
def applyEffect (p : System F) : ExecEffect → System F
  | .insertCooldown cid => { p with cooldown := p.cooldown.insert cid p.instant }
  | .removeInFlight cid => { p with inFlight := p.inFlight.erase cid }
  | .send ebo => { p with outbox := p.outbox ++ [ebo] }
  | _ => p

end System

/-- A step of one of the tasks, with what the environment decides in it. -/
inductive Action where
  | receive (msg : CommsMessage)
  | comms (c : Choice)
  | execReceive (ans : ExecAnswers)
  | execEffect
  | execFinish
  | execRefresh (f : BalanceTracker.Fetched)
  | delTask (i : ℕ) (sendOk : Bool)
  | subscribedResponse (channel : String) (sid : ℕ)
  | tick (ms : ℕ)

/-- The step is an effect of the executor. -/
def Action.isExecEffect : Action → Bool
  | .execEffect => true
  | _ => false

namespace System

variable {F : Type}

/-- One step of the system. -/
def step [FloatOps F] (cfg : Config) (p : System F) : Action → Option (System F)
  | .receive msg =>
      if p.betweenMessages then some { p with comms := ⟨.next, opsOf p.book msg⟩ } else none
  | .comms c => commsStep cfg c p
  | .execReceive ans =>
      match p.executionRx with
      | [] => none
      | req :: rest =>
          (p.exec.step cfg (.receive req ans)).map fun x =>
            { p with executionRx := rest, exec := x }
  | .execEffect =>
      match p.exec.pc with
      | .handling _ (e :: _) =>
          (p.exec.step cfg .effect).map fun x => { p.applyEffect e with exec := x }
      | _ => none
  | .execFinish => (p.exec.step cfg .finish).map fun x => { p with exec := x }
  | .execRefresh f => (p.exec.step cfg (.refresh f)).map fun x => { p with exec := x }
  | .delTask i sendOk => p.taskStep i sendOk
  | .subscribedResponse channel sid =>
      some { p with kalshi := p.kalshi.subscribedResponse channel sid }
  | .tick ms => some { p with instant := p.instant + ms }

/-! ## §4 What one step can do -/

/-- Two states agree on what the watch side of the system is made of. -/
structure SameWatch (p q : System F) : Prop where
  book : q.book = p.book
  kalshi : q.kalshi = p.kalshi
  polymarket : q.polymarket = p.polymarket
  spawned : q.spawned = p.spawned

/-- Two states agree on what the execution side of the system is made of. -/
structure SameExec (p q : System F) : Prop where
  inFlight : q.inFlight = p.inFlight
  executionRx : q.executionRx = p.executionRx
  exec : q.exec = p.exec

theorem pc_of_betweenMessages {p : System F} (h : p.betweenMessages = true) :
    p.comms.pc = .next := by
  unfold betweenMessages at h
  split at h
  · rename_i hcomms
    rw [hcomms]
  · cases h

theorem sameExec_goto (p : System F) (pc : CommsPc) : SameExec p (p.goto pc) := ⟨rfl, rfl, rfl⟩

/-- What a step of `evaluate_arb` writes: where it is, the cooldowns, the in-flight set and the
    channel to the executor. -/
theorem evalStep_writes [FloatOps F] (cfg : Config) (c : Choice) (p : System F) (e : EvalPc) :
    ∃ pc cooldown inFlight executionRx, evalStep cfg c p e =
      { p with comms := { p.comms with pc }, cooldown, inFlight, executionRx } := by
  cases e with
  | readCooldown cid =>
    simp only [evalStep]
    split
    · exact ⟨_, _, _, _, rfl⟩
    · split <;> exact ⟨_, _, _, _, rfl⟩
  | removeCooldown cid => exact ⟨_, _, _, _, rfl⟩
  | checkPrices cid =>
    simp only [evalStep]
    split
    · exact ⟨_, _, _, _, rfl⟩
    · split <;> exact ⟨_, _, _, _, rfl⟩
  | trySend req =>
    simp only [evalStep]
    split <;> exact ⟨_, _, _, _, rfl⟩
  | insertInFlight cid => exact ⟨_, _, _, _, rfl⟩

/-- `evaluate_arb` does not touch the watch side. -/
theorem evalStep_sameWatch [FloatOps F] (cfg : Config) (c : Choice) (p : System F) (e : EvalPc) :
    SameWatch p (evalStep cfg c p e) := by
  obtain ⟨_, _, _, _, h⟩ := evalStep_writes cfg c p e
  rw [h]
  exact ⟨rfl, rfl, rfl, rfl⟩

/-- What one step of `evaluate_arb` does to the execution side: it gives the arb up, goes
    on with it, enqueues its request, or raises its in-flight flag. -/
theorem evalStep_cases [FloatOps F] (cfg : Config) (c : Choice) (p : System F) (e : EvalPc) :
    (∃ cid, e.stage = .passed cid ∧ (evalStep cfg c p e).comms.pc = .next ∧
      SameExec p (evalStep cfg c p e)) ∨
    (∃ cid e', e.stage = .passed cid ∧ e'.stage = .passed cid ∧
      (evalStep cfg c p e).comms.pc = .evaluating e' ∧ SameExec p (evalStep cfg c p e) ∧
      ∀ req, e' = .trySend req → p.book.records cid ≠ none) ∨
    (∃ req, e = .trySend req ∧ p.executionRx.length < executionCapacity ∧
      evalStep cfg c p e = { p with executionRx := p.executionRx ++ [req] }.goto
        (.evaluating (.insertInFlight req.correlationId))) ∨
    (∃ cid, e = .insertInFlight cid ∧
      evalStep cfg c p e = { p with inFlight := insert cid p.inFlight }.goto .next) := by
  cases e with
  | readCooldown cid =>
    -- no entry, an entry that still holds, an entry that is over
    simp only [evalStep]
    split
    · exact .inr (.inl ⟨cid, .checkPrices cid, rfl, rfl, rfl, sameExec_goto ..,
        fun _ h => nomatch h⟩)
    · split
      · exact .inl ⟨cid, rfl, rfl, sameExec_goto ..⟩
      · exact .inr (.inl ⟨cid, .removeCooldown cid, rfl, rfl, rfl, sameExec_goto ..,
          fun _ h => nomatch h⟩)
  | removeCooldown cid =>
    exact .inr (.inl ⟨cid, .checkPrices cid, rfl, rfl, rfl, ⟨rfl, rfl, rfl⟩, fun _ h => nomatch h⟩)
  | checkPrices cid =>
    -- the record may be gone, and the evaluation may refuse
    simp only [evalStep]
    split
    · exact .inl ⟨cid, rfl, rfl, sameExec_goto ..⟩
    · rename_i w hw
      split
      · exact .inl ⟨cid, rfl, rfl, sameExec_goto ..⟩
      · rename_i req hreq
        refine .inr (.inl ⟨cid, .trySend req, rfl, ?_, rfl, sameExec_goto .., fun _ _ => by
          simp [hw]⟩)
        rw [EvalPc.stage, evaluate_correlationId hreq]
  | trySend req =>
    -- `try_send`: a full channel drops the request
    simp only [evalStep]
    split
    · rename_i hlen
      exact .inr (.inr (.inl ⟨req, rfl, hlen, rfl⟩))
    · exact .inl ⟨_, rfl, rfl, sameExec_goto ..⟩
  | insertInFlight cid => exact .inr (.inr (.inr ⟨cid, rfl, rfl⟩))

/-- `evaluate_arb` ends, or goes on at one of its points. -/
theorem evalStep_pc [FloatOps F] (cfg : Config) (c : Choice) (p : System F) (e : EvalPc) :
    (evalStep cfg c p e).comms.pc = .next ∨
      ∃ e', (evalStep cfg c p e).comms.pc = .evaluating e' := by
  rcases evalStep_cases cfg c p e with ⟨_, -, hpc, -⟩ | ⟨_, e', -, -, hpc, -⟩ | ⟨req, -, -, hq⟩ |
    ⟨_, -, hq⟩
  · exact .inl hpc
  · exact .inr ⟨e', hpc⟩
  · rw [hq]
    exact .inr ⟨_, rfl⟩
  · rw [hq]
    exact .inl rfl

/-- How `evaluate_arb` goes on: from the read of the cooldown to the check of the prices if there
    is no entry, or over its removal if it is over, and from the check to the send. -/
theorem evalStep_moves [FloatOps F] {cfg : Config} {c : Choice} {p : System F} {e e' : EvalPc}
    (h : (evalStep cfg c p e).comms.pc = .evaluating e') :
    (∃ cid, e = .readCooldown cid ∧ e' = .checkPrices cid ∧ p.cooldown cid = none ∧
      evalStep cfg c p e = p.goto (.evaluating e')) ∨
    (∃ cid t, e = .readCooldown cid ∧ e' = .removeCooldown cid ∧ p.cooldown cid = some t ∧
      cfg.cooldownDuration ≤ p.instant - t ∧ evalStep cfg c p e = p.goto (.evaluating e')) ∨
    (∃ cid, e = .removeCooldown cid ∧ e' = .checkPrices cid ∧
      evalStep cfg c p e = { p with cooldown := p.cooldown.erase cid }.goto (.evaluating e')) ∨
    (∃ cid w req, e = .checkPrices cid ∧ e' = .trySend req ∧ p.book.records cid = some w ∧
      evaluate c.utcNow cid w.arb (p.topOfBook w.arb.anchor.marketKey)
        (p.topOfBook w.arb.match.marketKey) = some req ∧
      evalStep cfg c p e = p.goto (.evaluating e')) ∨
    (∃ req, e = .trySend req ∧ e' = .insertInFlight req.correlationId) := by
  cases e with
  | readCooldown cid =>
    simp only [evalStep] at h ⊢
    -- without an entry the prices are next
    split at h
    · rename_i hnone
      cases h
      exact .inl ⟨cid, rfl, rfl, hnone, rfl⟩
    · -- an entry that is over is removed first
      rename_i t ht
      split at h
      · cases h
      · rename_i hover
        cases h
        exact .inr (.inl ⟨cid, t, rfl, rfl, ht, not_lt.mp hover, if_neg hover⟩)
  | removeCooldown cid =>
    cases h
    exact .inr (.inr (.inl ⟨cid, rfl, rfl, rfl⟩))
  | checkPrices cid =>
    simp only [evalStep] at h ⊢
    split at h
    · -- a record that is gone ends the evaluation
      cases h
    · rename_i w hw
      split at h
      · cases h
      · rename_i req hreq
        cases h
        exact .inr (.inr (.inr (.inl ⟨cid, w, req, rfl, rfl, hw, hreq, rfl⟩)))
  | trySend req =>
    simp only [evalStep] at h
    -- only a send that goes through is followed by the flag
    split at h
    · cases h
      exact .inr (.inr (.inr (.inr ⟨req, rfl, rfl⟩)))
    · cases h
  | insertInFlight cid => cases h

/-- The two entries that `find_arb` reads from an arb. -/
def EntriesOf (arb : Arb) (anchor «match» : Entry) : Prop :=
  ∃ anchorClose matchClose,
    findLeg "anchor" arb.anchor = .ok (anchor.1, anchorClose, anchor.2) ∧
    findLeg "match" arb.match = .ok («match».1, matchClose, «match».2)

/-- `find_arb` is at the start of its loop. -/
def FindArb.Starts (f : FindArb) (arb : Arb) (cid : CorrelationId) : Prop :=
  ∃ anchor «match», EntriesOf arb anchor «match» ∧
    f = { arb, correlationId := cid, call := .start anchor, left := [«match»],
          subscribedCount := 0 }

/-- An operation left both sides and the program counter alone. -/
structure Quiet (p q : System F) : Prop where
  watch : SameWatch p q
  exec : SameExec p q
  pc : q.comms.pc = p.comms.pc

theorem quiet_refl (p : System F) : Quiet p p :=
  ⟨⟨rfl, rfl, rfl, rfl⟩, ⟨rfl, rfl, rfl⟩, rfl⟩

theorem quiet_push (p : System F) (ops : List (CommsOp F)) : Quiet p (p.push ops) :=
  ⟨⟨rfl, rfl, rfl, rfl⟩, ⟨rfl, rfl, rfl⟩, rfl⟩

/-- What an operation does: it changes neither side, it starts `evaluate_arb` or
    `find_arb`, or it writes the book. -/
theorem opStep_cases [FloatOps F] {cfg : Config} {c : Choice} {p q : System F} {op : CommsOp F}
    (h : opStep cfg c p op = some q) :
    (Quiet p q ∧ op.bookMoves = []) ∨
    (∃ cid, op = .evaluateArb cid ∧ cid ∉ p.inFlight ∧
      q = p.goto (.evaluating (.readCooldown cid))) ∨
    (∃ arb cid f, op = .findArb arb cid ∧ FindArb.Starts f arb cid ∧ q = p.goto (.finding f)) ∨
    (∃ cid, op = .unregisterArb cid ∧ q = p.unregisterArb cid) ∨
    (∃ key cid closeTs, op = .updateCloseTime key cid closeTs ∧
      q = { p with book := p.book.updateCloseTime key cid closeTs }) := by
  cases op with
  -- an accepted price is stored, and its watchers are evaluated by later operations
  | onPriceUpdate key tob =>
    simp only [opStep] at h
    split at h
    · split at h <;> cases h
      exact .inl ⟨⟨⟨rfl, rfl, rfl, rfl⟩, ⟨rfl, rfl, rfl⟩, rfl⟩, rfl⟩
    · cases h
      exact .inl ⟨quiet_refl p, rfl⟩
  | evaluateArb cid =>
    simp only [opStep] at h
    split at h
    · -- in flight already
      cases h
      exact .inl ⟨quiet_refl p, rfl⟩
    · rename_i hcid
      cases h
      exact .inr (.inl ⟨cid, rfl, hcid, rfl⟩)
  -- an event of a market becomes operations on its watchers
  | marketResolved assetId =>
    simp only [opStep] at h
    split at h <;> cases h
    exact .inl ⟨quiet_push p _, rfl⟩
  | marketLifecycle event =>
    simp only [opStep] at h
    split at h <;> cases h
    exact .inl ⟨quiet_push p _, rfl⟩
  -- the two operations that write the book
  | updateCloseTime key cid closeTs =>
    cases h
    exact .inr (.inr (.inr (.inr ⟨key, cid, closeTs, rfl, rfl⟩)))
  | unregisterArb cid =>
    cases h
    exact .inr (.inr (.inr (.inl ⟨cid, rfl, rfl⟩)))
  | findArb arb cid =>
    simp only [opStep, findArb, Option.some.injEq] at h
    split at h
    · rename_i anchorPlatform anchorClose anchorToken matchPlatform matchClose matchToken ha hm
      split at h <;> subst h
      · -- it closes too soon: the rejection is sent by a later operation
        exact .inl ⟨quiet_push p _, rfl⟩
      · exact .inr (.inr (.inl ⟨arb, cid, _, rfl, ⟨(anchorPlatform, anchorToken),
          (matchPlatform, matchToken), ⟨anchorClose, matchClose, ha, hm⟩, rfl⟩, rfl⟩))
    · -- a leg is missing
      subst h
      exact .inl ⟨quiet_refl p, rfl⟩
  -- the lookups over HTTP: a failed one leaves everything as it was
  | seedTobFromHttp leg =>
    simp only [opStep] at h
    split at h <;> cases h
    · exact .inl ⟨quiet_refl p, rfl⟩
    · exact .inl ⟨quiet_push p _, rfl⟩
  | resolveDiscovered arb =>
    simp only [opStep] at h
    split at h <;> cases h
    · exact .inl ⟨quiet_refl p, rfl⟩
    · exact .inl ⟨quiet_push p _, rfl⟩
  | send ebo =>
    cases h
    exact .inl ⟨⟨⟨rfl, rfl, rfl, rfl⟩, ⟨rfl, rfl, rfl⟩, rfl⟩, rfl⟩

/-- No operation touches the execution side. -/
theorem opStep_sameExec [FloatOps F] {cfg : Config} {c : Choice} {p q : System F} {op : CommsOp F}
    (h : opStep cfg c p op = some q) : SameExec p q := by
  rcases opStep_cases h with ⟨h, -⟩ | ⟨_, -, -, rfl⟩ | ⟨_, _, _, -, -, rfl⟩ | ⟨_, -, rfl⟩ |
    ⟨_, _, _, -, rfl⟩
  · exact h.exec
  all_goals exact ⟨rfl, rfl, rfl⟩

/-- A subscription step changes the clients only. -/
theorem addStep_frame (p : System F) (sendOk : Bool) (call : AddCall) :
    SameExec p (p.addStep sendOk call).1 ∧ (p.addStep sendOk call).1.book = p.book ∧
      (p.addStep sendOk call).1.spawned = p.spawned := by
  cases call <;> exact ⟨⟨rfl, rfl, rfl⟩, rfl, rfl⟩

/-- A step of `find_arb` changes the clients and the program counter only. -/
theorem findStep_frame (c : Choice) (p : System F) (f : FindArb) :
    SameExec p (findStep c p f) ∧ (findStep c p f).book = p.book ∧
      (findStep c p f).spawned = p.spawned := by
  obtain ⟨hexec, hbook, hspawned⟩ := addStep_frame p c.sendOk f.call
  exact ⟨⟨hexec.inFlight, hexec.executionRx, hexec.exec⟩, hbook, hspawned⟩

/-- A step of a background task changes the clients and the list of tasks only. -/
theorem taskStep_frame {p q : System F} {i : ℕ} {sendOk : Bool}
    (h : p.taskStep i sendOk = some q) :
    SameExec p q ∧ q.book = p.book ∧ q.comms = p.comms := by
  have hdel : ∀ task, SameExec p (p.delStep sendOk task).1 ∧
      (p.delStep sendOk task).1.book = p.book ∧
      (p.delStep sendOk task).1.comms = p.comms := by
    intro task
    cases task <;> exact ⟨⟨rfl, rfl, rfl⟩, rfl, rfl⟩
  unfold taskStep at h
  split at h
  · cases h
  · rename_i task _
    obtain ⟨hexec, hbook, hcomms⟩ := hdel task
    cases h
    exact ⟨⟨hexec.inFlight, hexec.executionRx, hexec.exec⟩, hbook, hcomms⟩

/-- Effects of the executor do not reach the watch side or the channel. -/
theorem applyEffect_frame (p : System F) (e : ExecEffect) :
    SameWatch p (p.applyEffect e) ∧ (p.applyEffect e).executionRx = p.executionRx ∧
      (p.applyEffect e).comms = p.comms := by
  cases e <;> exact ⟨⟨rfl, rfl, rfl, rfl⟩, rfl, rfl⟩

/-- The release of a pair takes it out of the in-flight set, and no other effect does. -/
theorem applyEffect_inFlight (p : System F) {cid : CorrelationId} {e : ExecEffect}
    (he : e.Of cid) : (p.applyEffect e).inFlight =
      if e.isRelease then p.inFlight.erase cid else p.inFlight := by
  cases e with
  | removeInFlight c =>
    obtain rfl : c = cid := he c rfl
    rfl
  | _ => rfl

/-- The step of the comms task, by its program counter. -/
theorem commsStep_cases [FloatOps F] {cfg : Config} {c : Choice} {p q : System F}
    (h : commsStep cfg c p = some q) :
    (∃ e, p.comms.pc = .evaluating e ∧ q = evalStep cfg c p e) ∨
    (∃ f, p.comms.pc = .finding f ∧ q = findStep c p f) ∨
    (∃ w, p.comms.pc = .registering w ∧ q = p.register w) ∨
    (∃ op rest, p.comms.pc = .next ∧ p.comms.todo = op :: rest ∧
      opStep cfg c (p.pop rest) op = some q) := by
  unfold commsStep at h
  split at h
  · rename_i e he
    exact .inl ⟨e, he, (Option.some.inj h).symm⟩
  · rename_i f hf
    exact .inr (.inl ⟨f, hf, (Option.some.inj h).symm⟩)
  · rename_i w hw
    exact .inr (.inr (.inl ⟨w, hw, (Option.some.inj h).symm⟩))
  · rename_i hn
    split at h
    · cases h
    · rename_i op rest ht
      exact .inr (.inr (.inr ⟨op, rest, hn, ht, h⟩))

/-- Where `find_arb` goes from the end of a subscription: to its other entry, to the next
    operation, or to the registration of the converted arb. -/
theorem advance_cases (f : FindArb) (ok : Bool) :
    (∃ entry left, f.left = entry :: left ∧ f.advance ok = .finding { f with
      call := .start entry, left, subscribedCount := f.subscribedCount + if ok then 1 else 0 }) ∨
    (f.left = [] ∧ f.advance ok = .next) ∨
    (f.left = [] ∧ 2 ≤ (f.subscribedCount + if ok then 1 else 0) ∧
      ∃ pair, ArbMinifiedInfoPair.tryFrom f.arb = .ok pair ∧
        f.advance ok = .registering ⟨f.correlationId, pair⟩) := by
  cases hl : f.left with
  | cons entry left => exact .inl ⟨entry, left, rfl, by simp only [FindArb.advance, hl]⟩
  | nil =>
    simp only [FindArb.advance, hl]
    -- the conversion is tried only when both legs were counted
    by_cases hcount : (f.subscribedCount + if ok then 1 else 0) < 2
    · exact .inr (.inl ⟨trivial, if_pos hcount⟩)
    · rw [if_neg hcount]
      cases hpair : ArbMinifiedInfoPair.tryFrom f.arb with
      | error e => exact .inr (.inl ⟨trivial, rfl⟩)
      | ok pair => exact .inr (.inr ⟨trivial, not_lt.mp hcount, pair, rfl, rfl⟩)

/-- A message is taken only between messages. -/
theorem receive_cases [FloatOps F] {cfg : Config} {msg : CommsMessage} {p q : System F}
    (h : step cfg p (.receive msg) = some q) :
    p.comms.pc = .next ∧ q = { p with comms := ⟨.next, opsOf p.book msg⟩ } := by
  simp only [step] at h
  split at h
  · rename_i hbetween
    exact ⟨pc_of_betweenMessages hbetween, (Option.some.inj h).symm⟩
  · cases h

/-- The executor takes the oldest request. -/
theorem execReceive_cases [FloatOps F] {cfg : Config} {ans : ExecAnswers} {p q : System F}
    (h : step cfg p (.execReceive ans) = some q) :
    ∃ req rest x, p.executionRx = req :: rest ∧
      p.exec.step cfg (.receive req ans) = some x ∧
      q = { p with executionRx := rest, exec := x } := by
  simp only [step] at h
  split at h
  · cases h
  · rename_i req rest hrx
    obtain ⟨x, hx, rfl⟩ := Option.map_eq_some_iff.mp h
    exact ⟨req, rest, x, hrx, hx, rfl⟩

/-- The executor applies the next effect of its handling. -/
theorem execEffect_cases [FloatOps F] {cfg : Config} {p q : System F}
    (h : step cfg p .execEffect = some q) :
    ∃ cid e rest x, p.exec.pc = .handling cid (e :: rest) ∧ x.pc = .handling cid rest ∧
      p.exec.step cfg .effect = some x ∧ q = { p.applyEffect e with exec := x } := by
  simp only [step] at h
  split at h
  · rename_i cid e rest hpc
    obtain ⟨x, hx, rfl⟩ := Option.map_eq_some_iff.mp h
    obtain ⟨cid', e', rest', hpc', rfl⟩ := Executor.step_effect hx
    rw [hpc] at hpc'
    cases hpc'
    exact ⟨cid, e, rest, _, hpc, rfl, hx, rfl⟩
  · cases h

/-- Two states agree on what the comms task owns. -/
structure SameComms (p q : System F) : Prop where
  comms : q.comms = p.comms
  book : q.book = p.book
  topOfBook : q.topOfBook = p.topOfBook

/-- A step takes a message, is a step of the comms task, or leaves alone what that task owns. -/
theorem step_comms_cases [FloatOps F] {cfg : Config} {p q : System F} {a : Action}
    (h : step cfg p a = some q) :
    (∃ msg, a = .receive msg ∧ p.betweenMessages = true ∧
      q = { p with comms := ⟨.next, opsOf p.book msg⟩ }) ∨
    (∃ c, a = .comms c ∧ commsStep cfg c p = some q) ∨
    SameComms p q := by
  cases a with
  | receive msg =>
    simp only [step] at h
    split at h
    · rename_i hbetween
      exact .inl ⟨msg, rfl, hbetween, (Option.some.inj h).symm⟩
    · cases h
  | comms c => exact .inr (.inl ⟨c, rfl, h⟩)
  | execReceive ans =>
    obtain ⟨_, _, _, -, -, rfl⟩ := execReceive_cases h
    exact .inr (.inr ⟨rfl, rfl, rfl⟩)
  | execEffect =>
    obtain ⟨cid, e, _, _, -, -, -, rfl⟩ := execEffect_cases h
    exact .inr (.inr ⟨(applyEffect_frame p e).2.2, (applyEffect_frame p e).1.book,
      by cases e <;> rfl⟩)
  | execFinish =>
    obtain ⟨x, -, rfl⟩ := Option.map_eq_some_iff.mp h
    exact .inr (.inr ⟨rfl, rfl, rfl⟩)
  | execRefresh f =>
    obtain ⟨x, -, rfl⟩ := Option.map_eq_some_iff.mp h
    exact .inr (.inr ⟨rfl, rfl, rfl⟩)
  | delTask i sendOk =>
    -- a background task owns its client and its place in the list
    obtain ⟨-, hbook, hcomms⟩ := taskStep_frame h
    refine .inr (.inr ⟨hcomms, hbook, ?_⟩)
    simp only [step, taskStep] at h
    split at h
    · cases h
    · rename_i task _
      cases h
      cases task <;> rfl
  | subscribedResponse channel sid =>
    cases h
    exact .inr (.inr ⟨rfl, rfl, rfl⟩)
  | tick ms =>
    cases h
    exact .inr (.inr ⟨rfl, rfl, rfl⟩)

/-- The operation on the book in a step. -/
def bookMoves (p : System F) : Action → List BookOp
  | .comms _ =>
      match p.comms.pc, p.comms.todo with
      | .registering w, _ => [.registerArb w]
      | .next, op :: _ => op.bookMoves
      | _, _ => []
  | _ => []

/-- At most one operation on the book happens in a step. -/
theorem bookMoves_length (p : System F) (a : Action) :
    bookMoves p a = [] ∨ ∃ op, bookMoves p a = [op] := by
  unfold bookMoves
  split
  · split
    · exact .inr ⟨_, rfl⟩
    · rename_i op _ _ _
      cases op <;> first | exact .inl rfl | exact .inr ⟨_, rfl⟩
    · exact .inl rfl
  · exact .inl rfl

/-- **The system runs the book**: every step leaves the book alone or is an operation on it. -/
theorem step_book [FloatOps F] {cfg : Config} {p q : System F} {a : Action}
    (h : step cfg p a = some q) :
    run Book.step p.book (bookMoves p a) = some q.book := by
  cases a with
  | receive msg =>
    obtain ⟨-, rfl⟩ := receive_cases h
    rfl
  | comms c =>
    -- of the four kinds of comms steps two reach the book
    rcases commsStep_cases h with ⟨e, he, rfl⟩ | ⟨f, hf, rfl⟩ | ⟨w, hw, rfl⟩ |
      ⟨op, rest, hn, ht, hop⟩
    · simp [bookMoves, he, (evalStep_sameWatch cfg c p e).book]
    · simp [bookMoves, hf, (findStep_frame c p f).2.1]
    · simp [bookMoves, hw, run, Book.step, register, push, goto]
    · rcases opStep_cases hop with ⟨hq, hmoves⟩ | ⟨cid, rfl, -, rfl⟩ | ⟨arb, cid, f, rfl, -, rfl⟩ |
        ⟨cid, rfl, rfl⟩ | ⟨key, cid, ts, rfl, rfl⟩
      · -- operations without a move on the book
        have hbook : q.book = p.book := hq.watch.book
        simp [bookMoves, hn, ht, hmoves, hbook]
      · simp [bookMoves, CommsOp.bookMoves, hn, ht, pop, goto]
      · simp [bookMoves, CommsOp.bookMoves, hn, ht, pop, goto]
      · simp [bookMoves, CommsOp.bookMoves, hn, ht, run, Book.step, unregisterArb, pop]
      · simp [bookMoves, CommsOp.bookMoves, hn, ht, run, Book.step, pop]
  | execReceive ans =>
    obtain ⟨_, _, _, -, -, rfl⟩ := execReceive_cases h
    rfl
  | execEffect =>
    obtain ⟨cid, e, _, _, -, -, -, rfl⟩ := execEffect_cases h
    simp [bookMoves, (applyEffect_frame p e).1.book]
  | execFinish =>
    obtain ⟨x, -, rfl⟩ := Option.map_eq_some_iff.mp h
    rfl
  | execRefresh f =>
    obtain ⟨x, -, rfl⟩ := Option.map_eq_some_iff.mp h
    rfl
  | delTask i sendOk => simp [bookMoves, (taskStep_frame h).2.1]
  | subscribedResponse channel sid =>
    cases h
    rfl
  | tick ms =>
    cases h
    rfl

/-- The executor's part in a step. -/
def execMoves (p : System F) : Action → List ExecAction
  | .execReceive ans => (p.executionRx.head?.map fun req => .receive req ans).toList
  | .execEffect => [.effect]
  | .execFinish => [.finish]
  | .execRefresh f => [.refresh f]
  | _ => []

/-- The steps of the comms and of the background tasks leave the executor alone. -/
theorem commsStep_exec [FloatOps F] {cfg : Config} {c : Choice} {p q : System F}
    (h : commsStep cfg c p = some q) : q.exec = p.exec := by
  rcases commsStep_cases h with ⟨e, -, rfl⟩ | ⟨f, -, rfl⟩ | ⟨w, -, rfl⟩ | ⟨op, rest, -, -, hop⟩
  · rcases evalStep_cases cfg c p e with ⟨_, -, -, hx⟩ | ⟨_, _, -, -, -, hx, -⟩ |
      ⟨_, -, -, hq⟩ | ⟨_, -, hq⟩
    · exact hx.exec
    · exact hx.exec
    · rw [hq]; rfl
    · rw [hq]; rfl
  · exact (findStep_frame c p f).1.exec
  · rfl
  · exact (opStep_sameExec hop).exec

/-- **The system runs the executor**: its part in a step is a step of `Executor`, or none. -/
theorem step_executor [FloatOps F] {cfg : Config} {p q : System F} {a : Action}
    (h : step cfg p a = some q) :
    run (Executor.step cfg) p.exec (execMoves p a) = some q.exec := by
  cases a with
  | receive msg =>
    obtain ⟨-, rfl⟩ := receive_cases h
    rfl
  -- the comms task never touches the executor
  | comms c => simp [execMoves, commsStep_exec h]
  | execReceive ans =>
    obtain ⟨req, rest, x, hrx, hx, rfl⟩ := execReceive_cases h
    simp [execMoves, hrx, run, hx]
  | execEffect =>
    obtain ⟨cid, e, rest, x, -, -, hx, rfl⟩ := execEffect_cases h
    simp [execMoves, run, hx]
  | execFinish =>
    obtain ⟨x, hx, rfl⟩ := Option.map_eq_some_iff.mp h
    simp [execMoves, run, hx]
  | execRefresh f =>
    obtain ⟨x, hx, rfl⟩ := Option.map_eq_some_iff.mp h
    simp [execMoves, run, hx]
  | delTask i sendOk => simp [execMoves, (taskStep_frame h).1.exec]
  | subscribedResponse channel sid =>
    cases h
    rfl
  | tick ms =>
    cases h
    rfl

/-- A run of the system is, for the executor, a run of `Executor`. -/
theorem run_executor [FloatOps F] {cfg : Config} {p q : System F} {as : List Action}
    (h : run (step cfg) p as = some q) :
    run (Executor.step cfg) p.exec (trace execMoves (step cfg) p as) = some q.exec :=
  project (fun _ _ _ => step_executor) h

/-- Handlings stay orderly. -/
theorem orderly_step [FloatOps F] {cfg : Config} {p q : System F} {a : Action}
    (ho : p.exec.pc.Orderly)
    (h : step cfg p a = some q) : q.exec.pc.Orderly :=
  run_invariant (fun _ _ _ => Executor.orderly_step) ho (step_executor h)

/-- The only way from inside `find_arb` into `evaluate_arb` leads through `next`. -/
theorem resume_stage (f : FindArb) (r : Progress AddCall) : (f.resume r).stage = .outside := by
  cases r with
  | more call => rfl
  | done ok =>
    rcases advance_cases f ok with ⟨_, _, -, h⟩ | ⟨-, h⟩ | ⟨-, -, _, -, h⟩ <;>
      rw [FindArb.resume, h] <;> rfl

/-- Behind the read of the cooldown, comms gets only by a step of `evaluate_arb` itself. -/
theorem commsStep_evaluating [FloatOps F] {cfg : Config} {c : Choice} {p q : System F} {e : EvalPc}
    (h : commsStep cfg c p = some q) (hpc : q.comms.pc = .evaluating e)
    (he : ∀ cid, e ≠ .readCooldown cid) :
    ∃ e₀, p.comms.pc = .evaluating e₀ ∧ q = evalStep cfg c p e₀ := by
  rcases commsStep_cases h with ⟨e₀, he₀, rfl⟩ | ⟨f, hf, rfl⟩ | ⟨w, hw, rfl⟩ |
    ⟨op, rest, hn, -, hop⟩
  · exact ⟨e₀, he₀, rfl⟩
  · -- `find_arb` does not lead into `evaluate_arb`
    have hout : (findStep c p f).comms.pc.stage = .outside := resume_stage f _
    rw [hpc] at hout
    cases e <;> cases hout
  · cases hpc
  · -- an operation at most starts an evaluation
    have hnext : CommsPc.next ≠ .evaluating e := by simp
    rcases opStep_cases hop with ⟨hq, -⟩ | ⟨cid, -, -, rfl⟩ | ⟨arb, cid, f, -, -, rfl⟩ |
      ⟨cid, -, rfl⟩ | ⟨key, cid, ts, -, rfl⟩
    · exact absurd ((hq.pc.trans hn).symm.trans hpc) hnext
    · cases hpc
      exact absurd rfl (he cid)
    · cases hpc
    · exact absurd (hn.symm.trans hpc) hnext
    · exact absurd (hn.symm.trans hpc) hnext

/-- What a step does to the execution side, by the task that takes it. -/
theorem step_exec_cases [FloatOps F] {cfg : Config} {p q : System F} {a : Action}
    (h : step cfg p a = some q) :
    -- neither the execution side nor the stage of the evaluation changes
    (SameExec p q ∧ q.comms.pc.stage = p.comms.pc.stage ∧
      ∀ req, q.comms.pc = .evaluating (.trySend req) →
        p.comms.pc = q.comms.pc ∨ p.book.records req.correlationId ≠ none) ∨
    -- the in-flight test is passed
    (∃ cid, p.comms.pc.stage = .outside ∧ cid ∉ p.inFlight ∧ SameExec p q ∧
      q.comms.pc = .evaluating (.readCooldown cid)) ∨
    -- the arb is given up
    (∃ cid, p.comms.pc.stage = .passed cid ∧ SameExec p q ∧ q.comms.pc = .next) ∨
    -- its request is enqueued
    (∃ req, p.comms.pc = .evaluating (.trySend req) ∧ q.inFlight = p.inFlight ∧
      q.executionRx = p.executionRx ++ [req] ∧ q.exec = p.exec ∧
      q.comms.pc = .evaluating (.insertInFlight req.correlationId)) ∨
    -- its flag is raised
    (∃ cid, p.comms.pc = .evaluating (.insertInFlight cid) ∧
      q.inFlight = insert cid p.inFlight ∧ q.executionRx = p.executionRx ∧ q.exec = p.exec ∧
      q.comms.pc = .next) ∨
    -- the executor takes a request
    (∃ ans req, a = .execReceive ans ∧ p.executionRx = req :: q.executionRx ∧
      p.exec.pc = .idle ∧ q.exec.pc = p.exec.handle cfg req ans ∧ q.inFlight = p.inFlight ∧
      q.comms = p.comms) ∨
    -- the executor is at an effect
    (∃ cid e rest, a = .execEffect ∧ p.exec.pc = .handling cid (e :: rest) ∧
      q.exec.pc = .handling cid rest ∧
      (e.Of cid → q.inFlight = if e.isRelease then p.inFlight.erase cid else p.inFlight) ∧
      q.executionRx = p.executionRx ∧ q.comms = p.comms) ∨
    -- the executor is between two requests
    ((q.exec.pc = .refreshing ∨ q.exec.pc = .idle) ∧ p.exec.pc.unreleased = none ∧
      q.inFlight = p.inFlight ∧ q.executionRx = p.executionRx ∧ q.comms = p.comms) := by
  cases a with
  | receive msg =>
    obtain ⟨hpc, rfl⟩ := receive_cases h
    exact .inl ⟨⟨rfl, rfl, rfl⟩, by rw [hpc], fun _ hreq => nomatch hreq⟩
  | comms c =>
    rcases commsStep_cases h with ⟨e, he, rfl⟩ | ⟨f, hf, rfl⟩ | ⟨w, hw, rfl⟩ |
      ⟨op, rest, hn, -, hop⟩
    · rcases evalStep_cases cfg c p e with ⟨cid, hs, hpc, hx⟩ | ⟨cid, e', hs, hs', hpc, hx, hr⟩ |
        ⟨req, rfl, -, hq⟩ | ⟨cid, rfl, hq⟩
      · exact .inr (.inr (.inl ⟨cid, by rw [he]; exact hs, hx, hpc⟩))
      · refine .inl ⟨hx, by rw [hpc, he]; exact hs'.trans hs.symm, fun req hreq => .inr ?_⟩
        rw [hpc] at hreq
        obtain rfl : e' = .trySend req := by simpa using hreq
        obtain rfl : req.correlationId = cid := by simpa [EvalPc.stage] using hs'
        exact hr req rfl
      · rw [hq]
        exact .inr (.inr (.inr (.inl ⟨req, he, rfl, rfl, rfl, rfl⟩)))
      · rw [hq]
        exact .inr (.inr (.inr (.inr (.inl ⟨cid, he, rfl, rfl, rfl, rfl⟩))))
    · -- `find_arb` does not reach a send
      refine .inl ⟨(findStep_frame c p f).1, ?_, fun req hreq => ?_⟩
      · rw [hf]
        exact resume_stage f _
      · have := resume_stage f (p.addStep c.sendOk f.call).2
        have hreq' : (f.resume (p.addStep c.sendOk f.call).2) = .evaluating (.trySend req) := hreq
        rw [hreq'] at this
        cases this
    · exact .inl ⟨⟨rfl, rfl, rfl⟩, by rw [hw]; rfl, fun _ hreq => nomatch hreq⟩
    · have hx := opStep_sameExec hop
      have hsame : SameExec p q := ⟨hx.inFlight, hx.executionRx, hx.exec⟩
      rcases opStep_cases hop with ⟨hq, -⟩ | ⟨cid, -, hcid, rfl⟩ | ⟨arb, cid, f, -, -, rfl⟩ |
        ⟨cid, -, rfl⟩ | ⟨key, cid, ts, -, rfl⟩
      · have hpc : q.comms.pc = p.comms.pc := hq.pc
        exact .inl ⟨hsame, by rw [hpc], fun req hreq => .inl (hpc ▸ rfl)⟩
      · exact .inr (.inl ⟨cid, by rw [hn]; rfl, hcid, hsame, rfl⟩)
      · exact .inl ⟨hsame, by rw [hn]; rfl, fun _ hreq => nomatch hreq⟩
      · exact .inl ⟨hsame, rfl, fun req hreq => .inl rfl⟩
      · exact .inl ⟨hsame, rfl, fun req hreq => .inl rfl⟩
  | execReceive ans =>
    -- the whole handling is fixed here, its effects take place one by one
    obtain ⟨req, rest, x, hrx, hx, rfl⟩ := execReceive_cases h
    obtain ⟨hidle, rfl⟩ := Executor.step_receive hx
    exact .inr (.inr (.inr (.inr (.inr (.inl ⟨ans, req, rfl, hrx, hidle, rfl, rfl, rfl⟩)))))
  | execEffect =>
    obtain ⟨cid, e, rest, x, hpc, hpc', -, rfl⟩ := execEffect_cases h
    obtain ⟨-, hrx, hcomms⟩ := applyEffect_frame p e
    exact .inr (.inr (.inr (.inr (.inr (.inr (.inl
      ⟨cid, e, rest, rfl, hpc, hpc', applyEffect_inFlight p, hrx, hcomms⟩))))))
  | execFinish =>
    obtain ⟨x, hx, rfl⟩ := Option.map_eq_some_iff.mp h
    obtain ⟨cid, hpc, rfl⟩ := Executor.step_finish hx
    refine .inr (.inr (.inr (.inr (.inr (.inr (.inr ⟨.inl rfl, ?_, rfl, rfl, rfl⟩))))))
    -- nothing is left of the handling, its release included
    simp [hpc, ExecPc.unreleased, Releases]
  | execRefresh f =>
    obtain ⟨x, hx, rfl⟩ := Option.map_eq_some_iff.mp h
    obtain ⟨hpc, rfl⟩ := Executor.step_refresh hx
    refine .inr (.inr (.inr (.inr (.inr (.inr (.inr ⟨.inr rfl, ?_, rfl, rfl, rfl⟩))))))
    simp [hpc, ExecPc.unreleased]
  | delTask i sendOk =>
    obtain ⟨hx, -, hcomms⟩ := taskStep_frame h
    exact .inl ⟨hx, by rw [hcomms], fun req hreq => .inl (by rw [hcomms])⟩
  | subscribedResponse channel sid =>
    cases h
    exact .inl ⟨⟨rfl, rfl, rfl⟩, rfl, fun req hreq => .inl rfl⟩
  | tick ms =>
    cases h
    exact .inl ⟨⟨rfl, rfl, rfl⟩, rfl, fun req hreq => .inl rfl⟩

/-- What a step does to the watch side, by the task that takes it. -/
theorem step_watch_cases [FloatOps F] {cfg : Config} {p q : System F} {a : Action}
    (h : step cfg p a = some q) :
    -- the watch side does not change, and `find_arb` is not entered
    (SameWatch p q ∧ (q.comms.pc = p.comms.pc ∨ q.comms.pc = .next ∨
      ∃ e, q.comms.pc = .evaluating e)) ∨
    -- `find_arb` is entered
    (∃ arb cid f, FindArb.Starts f arb cid ∧ SameWatch p q ∧ q.comms.pc = .finding f) ∨
    -- `find_arb` takes a step
    (∃ c f, a = .comms c ∧ p.comms.pc = .finding f ∧ q = findStep c p f) ∨
    -- a pair is registered
    (∃ w, p.comms.pc = .registering w ∧ q = p.register w) ∨
    -- a pair is unregistered
    (∃ cid rest, p.comms.pc = .next ∧ q = (p.pop rest).unregisterArb cid) ∨
    -- a close time is updated
    (∃ key cid closeTs rest, p.comms.pc = .next ∧
      q = { p.pop rest with book := p.book.updateCloseTime key cid closeTs }) ∨
    -- a background task takes a step
    (∃ i sendOk, a = .delTask i sendOk ∧ p.taskStep i sendOk = some q) ∨
    -- a subscription id arrives
    (∃ channel sid, q = { p with kalshi := p.kalshi.subscribedResponse channel sid }) := by
  have hsame : ∀ r : System F, r.book = p.book → r.kalshi = p.kalshi →
      r.polymarket = p.polymarket → r.spawned = p.spawned → r.comms = p.comms →
      SameWatch p r ∧ (r.comms.pc = p.comms.pc ∨ r.comms.pc = .next ∨
        ∃ e, r.comms.pc = .evaluating e) :=
    fun r hb hk hp hs hc => ⟨⟨hb, hk, hp, hs⟩, .inl (by rw [hc])⟩
  cases a with
  | receive msg =>
    obtain ⟨-, rfl⟩ := receive_cases h
    exact .inl ⟨⟨rfl, rfl, rfl, rfl⟩, .inr (.inl rfl)⟩
  | comms c =>
    rcases commsStep_cases h with ⟨e, he, rfl⟩ | ⟨f, hf, rfl⟩ | ⟨w, hw, rfl⟩ |
      ⟨op, rest, hn, -, hop⟩
    · exact .inl ⟨evalStep_sameWatch cfg c p e, .inr (evalStep_pc cfg c p e)⟩
    · exact .inr (.inr (.inl ⟨c, f, rfl, hf, rfl⟩))
    · exact .inr (.inr (.inr (.inl ⟨w, hw, rfl⟩)))
    · rcases opStep_cases hop with ⟨hq, -⟩ | ⟨cid, -, -, rfl⟩ | ⟨arb, cid, f, -, hf, rfl⟩ |
        ⟨cid, -, rfl⟩ | ⟨key, cid, ts, -, rfl⟩
      · obtain ⟨hb, hk, hp, hs⟩ := hq.watch
        exact .inl ⟨⟨hb, hk, hp, hs⟩, .inl hq.pc⟩
      · exact .inl ⟨⟨rfl, rfl, rfl, rfl⟩, .inr (.inr ⟨_, rfl⟩)⟩
      · exact .inr (.inl ⟨arb, cid, f, hf, ⟨rfl, rfl, rfl, rfl⟩, rfl⟩)
      · exact .inr (.inr (.inr (.inr (.inl ⟨cid, rest, hn, rfl⟩))))
      · exact .inr (.inr (.inr (.inr (.inr (.inl ⟨key, cid, ts, rest, hn, rfl⟩)))))
  | execReceive ans =>
    obtain ⟨_, _, _, -, -, rfl⟩ := execReceive_cases h
    exact .inl (hsame _ rfl rfl rfl rfl rfl)
  | execEffect =>
    obtain ⟨cid, e, _, _, -, -, -, rfl⟩ := execEffect_cases h
    obtain ⟨⟨hb, hk, hp, hs⟩, -, hc⟩ := applyEffect_frame p e
    exact .inl (hsame _ hb hk hp hs hc)
  | execFinish =>
    obtain ⟨x, -, rfl⟩ := Option.map_eq_some_iff.mp h
    exact .inl (hsame _ rfl rfl rfl rfl rfl)
  | execRefresh f =>
    obtain ⟨x, -, rfl⟩ := Option.map_eq_some_iff.mp h
    exact .inl (hsame _ rfl rfl rfl rfl rfl)
  | delTask i sendOk =>
    exact .inr (.inr (.inr (.inr (.inr (.inr (.inl ⟨i, sendOk, rfl, h⟩))))))
  | subscribedResponse channel sid =>
    cases h
    exact .inr (.inr (.inr (.inr (.inr (.inr (.inr ⟨channel, sid, rfl⟩))))))
  | tick ms =>
    cases h
    exact .inl (hsame _ rfl rfl rfl rfl rfl)

end System

/-! ## §5 A sample pair

A Kalshi leg against a Polymarket leg, at 0.40 each, for the concrete runs below. -/

/-- The order books of the sample venues. -/
def sampleHttp : HttpVenue where
  getOrderBook _ := .ok { asks := [⟨"0.40", "50"⟩], bids := [], timestamp := "1" }
  getMarketOrderbook _ := .ok { yesDollars := none, noDollars := some [("0.60", "50")] }

/-- A confirmed leg that closes far from now. -/
def sampleLeg (platform : ℤ) (token : String) : ArbEssentials where
  discovery := some {
    marketInfo := some { marketId := token, closeTimeMs := 10 ^ 12, platform }
    leg := 0 }
  tokenId := token

/-- The confirmed arb on a Kalshi ticker and a Polymarket token. -/
def sampleArb (ticker token : String) : Arb where
  anchor := some (sampleLeg 1 ticker)
  «match» := some (sampleLeg 0 token)

/-- The watch leg of a token. -/
def watchLeg (platform : Platform) (token : String) : ArbMinifiedInfo where
  marketKey := makeMarketKey token platform
  platform := platform
  marketId := token
  tokenId := token
  leg := .left
  closeTimeMs := 10 ^ 12

/-- The sample pair of a Kalshi and a Polymarket leg. -/
def samplePair : ArbMinifiedInfoPair := ⟨watchLeg .kalshi "K", watchLeg .polymarket "11", .zero⟩

/-- A request for the sample pair, at 0.40 each and for up to fifty contracts. -/
def sampleRequest : ExecutionRequest where
  correlationId := "x"
  anchor := samplePair.anchor
  «match» := samplePair.match
  anchorWsPrice := ⟨40, 2⟩
  matchWsPrice := ⟨40, 2⟩
  anchorWsSize := ⟨50, 0⟩
  matchWsSize := ⟨50, 0⟩

/-- An optimistic configuration. -/
def sampleConfig : Config where
  generateUuidV5 := id
  optimistic := true
  cooldownDuration := 30000

/-- The same configuration with prices fetched at execution. -/
def httpConfig : Config := { sampleConfig with optimistic := false }

/-- Order endpoints that answer nothing. -/
def silentVenue : OrderVenue where
  createOrder _ := .error "unreachable"
  u256FromStr _ := none
  buildOrder _ := .error "unreachable"
  signOrder _ := .error "unreachable"
  postOrder _ := .error "unreachable"

/-- Answers to a handling whose orders, if any, are not answered. -/
def silentAnswers : ExecAnswers where
  anchorHttp := sampleHttp
  matchHttp := sampleHttp
  anchorVenue := silentVenue
  matchVenue := silentVenue
  hedgeVenue := silentVenue
  hedgeClientOrderId := ""
  messageId := ""
  orderActionAt := 0
  excessActionAt := 0
  sendOk := true

/-- A venue that reports a fill of its own for every order: a count on Kalshi, an amount in
    millionths on Polymarket. -/
def fillVenue (fillCountFp : String) (takingAmount : ℚ) : OrderVenue where
  createOrder _ := .ok ⟨"order", some fillCountFp, some "0"⟩
  u256FromStr _ := some 11
  buildOrder order := if order.size = 0 then .error "negative or zero size" else .ok ()
  signOrder _ := .ok ()
  postOrder _ := .ok ⟨true, none, takingAmount, "order"⟩

/-- Answers to a handling in which both orders are answered and the hedge is not. -/
def filledAnswers (fillCountFp : String) (takingAmount : ℚ) : ExecAnswers :=
  { silentAnswers with
    anchorVenue := fillVenue fillCountFp takingAmount
    matchVenue := fillVenue fillCountFp takingAmount }

/-- A balance refresh that finds a thousand dollars on each venue. -/
def refreshFunds : Action := .execRefresh ⟨some 100000, some 1000⟩

/-- A balance refresh that fails. -/
def refreshFails : Action := .execRefresh ⟨none, none⟩

/-- A step of the comms task that iterates a set in the given order. -/
def commsWith (order : List CorrelationId) : Action :=
  .comms { order, http := sampleHttp, markets := oneSlugVenue }

/-- A step of the comms task whose HTTP requests are not answered. -/
def commsOffline : Action := .comms { markets := oneSlugVenue }

/-- A step of the comms task that iterates nothing. -/
def commsOne : Action := commsWith []

/-- The confirmation of an arb, up to and with its registration. -/
def confirmSteps (arb : Arb) (cid : CorrelationId) : List Action :=
  .receive (.confirmedAndRun arb cid) :: List.replicate 9 commsOne

/-- A ticker message about the Kalshi leg of the sample pair, at 0.40. -/
def receiveTicker (ts : ℤ) : Action :=
  .receive (.kalshi (.tickerUpdate ⟨"K", "0.38", "0.40", "50", "50", ts, 1⟩))

/-- The HTTP seeds of both legs, up to the send of the request: the first seed finds no
    price for the other leg. -/
def seedSteps (cid : CorrelationId) : List Action :=
  [commsOne, commsWith [cid], commsOne, commsOne, commsOne,
   commsOne, commsWith [cid], commsOne, commsOne, commsOne]

end Degenerate.Picker
