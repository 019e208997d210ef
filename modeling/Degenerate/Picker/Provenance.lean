import Degenerate.Picker.PairWork

/-!
# Where the Bot's Pairs Come From

The bot invents nothing.  The arbs that it proposes to the server are discovered arbs that
the server sent, with the markets looked up, and the legs that it orders are those of an
arb that the server told it to run, however many messages, price updates, evaluations and
channel operations lie in between.  Only the close time of a leg may have changed.

What the server sent is a parameter: `Sources` says which discovered arbs were selected,
which arbs were proposed under an id, which arbs were to be run under an id, and which
endpoints answered the orders.

## Main Results

- `Traced.step`: every step of the bot keeps to the sources of the messages it receives
- `Traced.order`: so does every order that the executor is about to place
-/

namespace Degenerate.Picker

open Degenerate.Lib Degenerate.Platforms

/-! ## §1 Sources -/

/-- The two legs differ in nothing but the close time. -/
def SameLeg (a b : ArbMinifiedInfo) : Prop := { a with closeTimeMs := b.closeTimeMs } = b

theorem SameLeg.refl (a : ArbMinifiedInfo) : SameLeg a a := rfl

theorem SameLeg.trans {a b c : ArbMinifiedInfo} (hab : SameLeg a b) (hbc : SameLeg b c) :
    SameLeg a c := by
  unfold SameLeg at *
  rw [← hbc, ← hab]

/-- A `close_date_updated` event changes a leg in its close time at most. -/
theorem sameLeg_closeLeg (key : MarketKey) (ms : ℤ) (leg : ArbMinifiedInfo) :
    SameLeg leg (Book.closeLeg key ms leg) := by
  unfold Book.closeLeg SameLeg
  split <;> rfl

/-- What the messages of the server, and those to it, may be about. -/
structure Sources where
  /-- A discovered arb that the server sent. -/
  selected : DiscoveredArb → Prop
  /-- An arb that the bot may propose under the id. -/
  proposed : CorrelationId → Arb → Prop
  /-- An arb that the server told the bot to run under the id. -/
  confirmed : CorrelationId → Arb → Prop
  /-- Endpoints that answered an execution. -/
  venue : OrderVenue → Prop

/-- The next step of the comms task resolves the discovered arb. -/
def System.ResolvesHit (p : System) (d : DiscoveredArb) : Prop :=
  p.comms.pc = .next ∧ p.comms.todo.head? = some (.resolveDiscovered d)

/-- What the bot makes of a selected arb, in a step that resolves it, may be proposed. -/
def Sources.Closed (src : Sources) (uuidV5 : String → String) (p : System) (c : Choice) : Prop :=
  ∀ d ebo arb, src.selected d → p.ResolvesHit d →
    resolveDiscovered uuidV5 c.markets c.utcNow d = some ebo →
      ebo.action = .crossPlatformArb arb → src.proposed ebo.correlationId arb

/-- The endpoints of the answers. -/
def Sources.Answered (src : Sources) (ans : ExecAnswers) : Prop :=
  ∀ venue ∈ [ans.anchorVenue, ans.matchVenue, ans.hedgeVenue], src.venue venue

/-- The legs are those of an arb that was confirmed under the id. -/
def Sources.Backs (src : Sources) (cid : CorrelationId) (anchor «match» : ArbMinifiedInfo) : Prop :=
  ∃ arb pair, src.confirmed cid arb ∧ ArbMinifiedInfoPair.tryFrom arb = .ok pair ∧
    SameLeg pair.anchor anchor ∧ SameLeg pair.match «match»

/-- The leg is one of those. -/
def Sources.Holds (src : Sources) (cid : CorrelationId) (leg : ArbMinifiedInfo) : Prop :=
  ∃ anchor «match», src.Backs cid anchor «match» ∧ (leg = anchor ∨ leg = «match»)

/-- The effect is an order for the leg: a buy of `make_fak_order` for the pair, or a sell of
    `hedge_sell_order`. -/
inductive ExecEffect.OrderFor (venues : OrderVenue → Prop) (uuidV5 : String → String)
    (cid : CorrelationId) (leg : ArbMinifiedInfo) : ExecEffect → Prop
  | buy {venue : OrderVenue} (hvenue : venues venue) (size reported : ℚ) (price : Decimal) :
      OrderFor venues uuidV5 cid leg (.makeFakOrder {
        leg, price, order := Picker.makeFakOrder uuidV5 venue leg size price cid, reported })
  | hedge {venue : OrderVenue} (hvenue : venues venue) (id : String) (excess price : ℚ) :
      OrderFor venues uuidV5 cid leg
        (.hedgeSellOrder (Picker.hedgeSellOrder venue id leg excess price))

/-- The effect is an order. -/
def ExecEffect.isOrder : ExecEffect → Bool
  | .makeFakOrder _ | .hedgeSellOrder _ => true
  | _ => false

/-- The arbs that a message asks to find, with their ids. -/
def CommsMessage.found : CommsMessage → List (Arb × CorrelationId)
  | .runningArbsResponse arbs cids => arbs.zip cids
  | .confirmedAndRun arb cid => [(arb, cid)]
  | _ => []

/-- The discovered arbs that a message asks to resolve. -/
def CommsMessage.discovered : CommsMessage → List DiscoveredArb
  | .arbDiscovery arbs => arbs
  | _ => []

/-- Everything in the message comes from the sources. -/
structure CommsMessage.From (src : Sources) (msg : CommsMessage) : Prop where
  found : ∀ a ∈ msg.found, src.confirmed a.2 a.1
  discovered : ∀ d ∈ msg.discovered, src.selected d

/-! ## §2 The state -/

/-- The arb in a message to the server, if there is one, was proposed. -/
def ClientEbo.Traced (src : Sources) (ebo : ClientEbo) : Prop :=
  ∀ arb, ebo.action = .crossPlatformArb arb → src.proposed ebo.correlationId arb

/-- The operation is about what the sources have. -/
def CommsOp.Traced (src : Sources) : CommsOp → Prop
  | .findArb arb cid => src.confirmed cid arb
  | .resolveDiscovered d => src.selected d
  | .send ebo => ebo.Traced src
  | _ => True

/-- The request is for legs that are backed. -/
def ExecutionRequest.Traced (src : Sources) (req : ExecutionRequest) : Prop :=
  src.Backs req.correlationId req.anchor req.match

/-- The comms task is at an arb that the sources have. -/
def CommsPc.Traced (src : Sources) : CommsPc → Prop
  | .evaluating (.trySend req) => ExecutionRequest.Traced src req
  | .finding f => src.confirmed f.correlationId f.arb
  | .registering w => src.Backs w.correlationId w.arb.anchor w.arb.match
  | _ => True

/-- An order is for a backed leg, a message proposes nothing. -/
structure ExecEffect.Traced (src : Sources) (uuidV5 : String → String) (cid : CorrelationId)
    (e : ExecEffect) : Prop where
  order : e.isOrder = true →
    ∃ leg, src.Holds cid leg ∧ e.OrderFor src.venue uuidV5 cid leg
  message : ∀ ebo arb, e = .send ebo → ebo.action ≠ .crossPlatformArb arb

/-- What is left of a handling is about backed legs. -/
def ExecPc.Traced (src : Sources) (uuidV5 : String → String) : ExecPc → Prop
  | .handling cid effects => ∀ e ∈ effects, e.Traced src uuidV5 cid
  | _ => True

/-- Everything that the bot holds comes from the sources. -/
structure Traced (src : Sources) (uuidV5 : String → String) (p : System) : Prop where
  pc : p.comms.pc.Traced src
  todo : ∀ op ∈ p.comms.todo, op.Traced src
  records : ∀ cid w, p.book.records cid = some w → src.Backs cid w.arb.anchor w.arb.match
  queued : ∀ req ∈ p.executionRx, ExecutionRequest.Traced src req
  handling : p.exec.pc.Traced src uuidV5
  outbox : ∀ ebo ∈ p.outbox, ebo.Traced src

variable {cfg : Config} {src : Sources} {uuidV5 : String → String} {p q : System}

theorem traced_init (src : Sources) (uuidV5 : String → String) (tradeFraction minTradeSize : ℚ) :
    Traced src uuidV5 (System.init tradeFraction minTradeSize) where
  pc := trivial
  todo _ h := absurd h List.not_mem_nil
  records _ _ h := by cases h
  queued _ h := absurd h List.not_mem_nil
  handling := trivial
  outbox _ h := absurd h List.not_mem_nil

/-- The state with other operations to do, as long as these are traced. -/
theorem Traced.withComms (ht : Traced src uuidV5 p) {comms : Comms} (hpc : comms.pc.Traced src)
    (htodo : ∀ op ∈ comms.todo, op.Traced src) : Traced src uuidV5 { p with comms } :=
  { ht with pc := hpc, todo := htodo }

theorem Traced.goto (ht : Traced src uuidV5 p) {pc : CommsPc} (hpc : pc.Traced src) :
    Traced src uuidV5 (p.goto pc) :=
  ht.withComms hpc ht.todo

theorem Traced.push (ht : Traced src uuidV5 p) {ops : List CommsOp}
    (hops : ∀ op ∈ ops, op.Traced src) : Traced src uuidV5 (p.push ops) := by
  refine { ht with todo := fun op hop => ?_ }
  exact (List.mem_append.mp hop).elim (hops op) (ht.todo op)

/-- Operations that name no arb. -/
theorem Traced.pushUnregister (ht : Traced src uuidV5 p) (cids : List CorrelationId) :
    Traced src uuidV5 (p.push (cids.map .unregisterArb)) := by
  apply ht.push
  intro op hop
  obtain ⟨cid, -, rfl⟩ := List.mem_map.mp hop
  exact trivial

/-! ## §3 The comms task -/

/-- The operations of a message are about what is in the message. -/
theorem traced_opsOf (b : Book) {msg : CommsMessage} (hmsg : msg.From src) :
    ∀ op ∈ System.opsOf b msg, op.Traced src := by
  intro op hop
  cases msg with
  -- the messages of the venues name markets, not arbs
  | polymarket msg =>
    cases msg with
    | marketResolved assetIds =>
      obtain ⟨assetId, -, rfl⟩ := List.mem_map.mp hop
      exact trivial
    | _ =>
      obtain ⟨u, -, rfl⟩ := List.mem_map.mp hop
      exact trivial
  | kalshi msg =>
    cases msg with
    | tickerUpdate t =>
      simp only [System.opsOf] at hop
      split at hop
      · cases hop
      · obtain ⟨tob, -, rfl⟩ := Option.map_eq_some_iff.mp (Option.mem_toList.mp hop)
        exact trivial
    | marketLifecycleV2 event =>
      obtain rfl := List.mem_singleton.mp hop
      exact trivial
    | other => cases hop
  | arbDiscovery arbs =>
    obtain ⟨d, hd, rfl⟩ := List.mem_map.mp hop
    exact hmsg.discovered d hd
  | runningArbsResponse arbs cids =>
    obtain ⟨a, ha, rfl⟩ := List.mem_map.mp hop
    exact hmsg.found a ha
  | confirmedAndRun arb cid =>
    obtain rfl := List.mem_singleton.mp hop
    exact hmsg.found (arb, cid) (List.mem_singleton_self _)
  | deleteRunningArbs cids =>
    obtain ⟨cid, -, hop⟩ := List.mem_flatMap.mp hop
    rcases List.mem_cons.mp hop with rfl | hop
    · exact trivial
    · obtain rfl := List.mem_singleton.mp hop
      intro arb harb
      cases harb

/-- A request that `evaluate_arb` builds has the legs of the record. -/
theorem traced_evaluate (ht : Traced src uuidV5 p) {now : ℤ} {cid : CorrelationId} {w : ArbWatch}
    (hw : p.book.records cid = some w) {aTob mTob : Option TopOfBook} {req : ExecutionRequest}
    (hreq : evaluate now cid w.arb aTob mTob = some req) : ExecutionRequest.Traced src req := by
  obtain ⟨-, _, _, _, _, -, -, -, -, -, -, rfl⟩ := evaluate_eq_some hreq
  exact ht.records cid w hw

theorem Traced.evalStep (ht : Traced src uuidV5 p) (c : Choice) {e : EvalPc}
    (hpc : p.comms.pc = .evaluating e) : Traced src uuidV5 (System.evalStep cfg c p e) := by
  cases e with
  | readCooldown cid =>
    simp only [System.evalStep]
    split
    · exact ht.goto trivial
    · split <;> exact ht.goto trivial
  | removeCooldown cid => exact { ht with pc := trivial }
  | checkPrices cid =>
    simp only [System.evalStep]
    split
    -- the record is the one that the request is built from
    · exact ht.goto trivial
    · rename_i w hw
      split
      · exact ht.goto trivial
      · exact ht.goto (traced_evaluate ht hw ‹_›)
  | trySend req =>
    simp only [System.evalStep]
    split
    · -- the channel has a slot
      refine { ht with pc := trivial, queued := fun req' hreq' => ?_ }
      rcases List.mem_append.mp hreq' with h | h
      · exact ht.queued req' h
      · obtain rfl := List.mem_singleton.mp h
        have hreq := ht.pc
        rwa [hpc] at hreq
    · exact ht.goto trivial
  | insertInFlight cid => exact { ht with pc := trivial }

/-- `find_arb` goes on with its arb, and registers what the arb converts to. -/
theorem traced_advance {f : FindArb} (hf : src.confirmed f.correlationId f.arb) (ok : Bool) :
    (f.advance ok).Traced src := by
  rcases System.advance_cases f ok with ⟨_, _, -, h⟩ | ⟨-, h⟩ | ⟨-, -, pair, hpair, h⟩ <;> rw [h]
  · exact hf
  · exact trivial
  · exact ⟨f.arb, pair, hf, hpair, .refl _, .refl _⟩

theorem Traced.findStep (ht : Traced src uuidV5 p) (c : Choice) {f : FindArb}
    (hpc : p.comms.pc = .finding f) : Traced src uuidV5 (System.findStep c p f) := by
  have hf : src.confirmed f.correlationId f.arb := by
    have h := ht.pc
    rwa [hpc] at h
  have hresume : ∀ r : Progress AddCall, (f.resume r).Traced src := by
    intro r
    cases r with
    | more call => exact hf
    | done ok => exact traced_advance hf ok
  -- a step of a subscription changes the clients, which hold no arb
  unfold System.findStep
  cases f.call <;> exact { ht with pc := hresume _ }

theorem Traced.register (ht : Traced src uuidV5 p) {w : ArbWatch}
    (hpc : p.comms.pc = .registering w) : Traced src uuidV5 (p.register w) := by
  have hw : src.Backs w.correlationId w.arb.anchor w.arb.match := by
    have h := ht.pc
    rwa [hpc] at h
  have hbook : Traced src uuidV5 ({ p with book := p.book.registerArb w }.goto .next) := by
    refine { ht with pc := trivial, records := fun cid w' hw' => ?_ }
    rw [System.goto, Book.registerArb_records, PMap.insert_apply] at hw'
    split at hw'
    · rename_i hcid
      cases hw'
      rwa [hcid]
    · exact ht.records cid w' hw'
  -- the two seeds name a leg each, and no arb
  apply hbook.push
  intro op hop
  simp only [List.mem_cons, List.not_mem_nil, or_false] at hop
  rcases hop with rfl | rfl <;> exact trivial

theorem Traced.unregisterArb (ht : Traced src uuidV5 p) (cid : CorrelationId) :
    Traced src uuidV5 (p.unregisterArb cid) := by
  refine { ht with records := fun cid' w hw => ?_ }
  rw [System.unregisterArb, Book.unregisterArb_records, PMap.erase_apply] at hw
  split at hw
  · cases hw
  · exact ht.records cid' w hw

theorem Traced.updateCloseTime (ht : Traced src uuidV5 p) (key : MarketKey) (cid : CorrelationId)
    (closeTs : Option ℤ) :
    Traced src uuidV5 { p with book := p.book.updateCloseTime key cid closeTs } := by
  refine { ht with records := fun cid' w' hw' => ?_ }
  simp only [Book.updateCloseTime] at hw'
  split at hw'
  · rename_i w ts hw
    simp only [PMap.insert_apply] at hw'
    split at hw'
    · rename_i hcid
      cases hw'
      rw [hcid]
      -- the same arb backs the leg with its new close time
      obtain ⟨arb, pair, harb, hpair, ha, hm⟩ := ht.records cid w hw
      exact ⟨arb, pair, harb, hpair, ha.trans (sameLeg_closeLeg ..),
        hm.trans (sameLeg_closeLeg ..)⟩
    · exact ht.records cid' w' hw'
  · exact ht.records cid' w' hw'

/-- Every operation keeps to the sources, if the arb that it resolves does. -/
theorem Traced.opStep (ht : Traced src uuidV5 p) {c : Choice} {op : CommsOp}
    (hsrc : ∀ d ebo arb, op = .resolveDiscovered d →
      resolveDiscovered cfg.generateUuidV5 c.markets c.utcNow d = some ebo →
        ebo.action = .crossPlatformArb arb → src.proposed ebo.correlationId arb)
    (hop : op.Traced src) (h : System.opStep cfg c p op = some q) : Traced src uuidV5 q := by
  cases op with
  | onPriceUpdate key tob =>
    simp only [System.opStep] at h
    split at h
    · split at h <;> cases h
      have htob : Traced src uuidV5 { p with topOfBook := p.topOfBook.insert key tob } :=
        { ht with }
      apply htob.push
      intro op hop
      obtain ⟨cid, -, rfl⟩ := List.mem_map.mp hop
      exact trivial
    · cases h
      exact ht
  | evaluateArb cid =>
    simp only [System.opStep] at h
    split at h <;> cases h
    · exact ht
    · exact ht.goto trivial
  | marketResolved assetId =>
    simp only [System.opStep] at h
    split at h <;> cases h
    exact ht.pushUnregister _
  | marketLifecycle event =>
    simp only [System.opStep] at h
    split at h <;> cases h
    apply ht.push
    intro op hop
    obtain ⟨cid, -, hop⟩ := List.mem_flatMap.mp hop
    rcases System.mem_lifecycleOps hop with ⟨-, rfl⟩ | rfl <;> exact trivial
  | updateCloseTime key cid closeTs =>
    cases h
    exact ht.updateCloseTime key cid closeTs
  | unregisterArb cid =>
    cases h
    exact ht.unregisterArb cid
  | findArb arb cid =>
    cases h
    simp only [System.findArb]
    split
    · split
      · -- a pair about to close is withdrawn
        apply ht.push
        intro op hop
        simp only [List.mem_cons, List.not_mem_nil, or_false] at hop
        rcases hop with rfl | rfl
        · exact trivial
        · intro arb harb
          cases harb
      · exact ht.goto hop
    · exact ht
  | seedTobFromHttp leg =>
    simp only [System.opStep] at h
    split at h <;> cases h
    · exact ht
    · apply ht.push
      intro op hop
      obtain rfl := List.mem_singleton.mp hop
      exact trivial
  | resolveDiscovered d =>
    simp only [System.opStep] at h
    split at h <;> cases h
    -- a lookup that fails drops the arb; else the message is what the sources allow
    · exact ht
    · rename_i ebo hebo
      apply ht.push
      intro op' hop'
      obtain rfl := List.mem_singleton.mp hop'
      intro arb harb
      exact hsrc d ebo arb rfl hebo harb
  | send ebo =>
    cases h
    refine { ht with outbox := fun ebo' hebo' => ?_ }
    rcases List.mem_append.mp hebo' with h | h
    · exact ht.outbox ebo' h
    · obtain rfl := List.mem_singleton.mp h
      exact hop

theorem Traced.commsStep (ht : Traced src uuidV5 p) {c : Choice}
    (hsrc : src.Closed cfg.generateUuidV5 p c) (h : System.commsStep cfg c p = some q) :
    Traced src uuidV5 q := by
  rcases System.commsStep_cases h with ⟨e, he, rfl⟩ | ⟨f, hf, rfl⟩ | ⟨w, hw, rfl⟩ |
    ⟨op, rest, hpc, htodo, hop⟩
  · exact ht.evalStep c he
  · exact ht.findStep c hf
  · exact ht.register hw
  · have hops : ∀ op' ∈ op :: rest, op'.Traced src := htodo ▸ ht.todo
    have hpop : Traced src uuidV5 (p.pop rest) :=
      ht.withComms ht.pc fun op' h => hops op' (List.mem_cons_of_mem _ h)
    have hthis := hops op List.mem_cons_self
    refine hpop.opStep (fun d ebo arb hd hebo harb => ?_) hthis hop
    subst hd
    exact hsrc d ebo arb hthis ⟨hpc, by rw [htodo]; rfl⟩ hebo harb

/-! ## §4 The executor -/

/-- An order for a leg that is held. -/
theorem ExecEffect.OrderFor.traced {cid : CorrelationId} {leg : ArbMinifiedInfo} {e : ExecEffect}
    (ho : e.OrderFor src.venue uuidV5 cid leg) (hleg : src.Holds cid leg) :
    e.Traced src uuidV5 cid where
  order _ := ⟨leg, hleg, ho⟩
  message := by
    rintro ebo arb rfl
    cases ho

/-- What is neither an order nor a message. -/
theorem traced_of_quiet {cid : CorrelationId} {e : ExecEffect} (ho : e.isOrder = false)
    (hm : ∀ ebo, e ≠ .send ebo) : e.Traced src uuidV5 cid where
  order h := absurd (ho.symm.trans h) Bool.false_ne_true
  message ebo _ he := absurd he (hm ebo)

/-- A message that proposes nothing. -/
theorem traced_send {cid : CorrelationId} {ebo : ClientEbo}
    (hm : ∀ arb, ebo.action ≠ .crossPlatformArb arb) :
    (ExecEffect.send ebo).Traced src uuidV5 cid where
  order h := by cases h
  message _ arb he := by
    cases he
    exact hm arb

/-- The hedge branch sells the leg that it is given, and tells so. -/
theorem traced_hedgeEffects {cid : CorrelationId} {ans : ExecAnswers} (hans : src.Answered ans)
    (excess : ℚ) {leg : Buy} (hleg : src.Holds cid leg.leg) :
    ∀ e ∈ hedgeEffects ans excess leg, e.Traced src uuidV5 cid := by
  intro e he
  simp only [hedgeEffects] at he
  rcases List.mem_cons.mp he with rfl | he
  · exact ExecEffect.OrderFor.traced (.hedge (hans _ (by simp)) ..) hleg
  · split at he
    · cases he
    · obtain rfl := List.mem_singleton.mp he
      exact traced_send fun arb harb => by cases harb

/-- What follows the orders proposes nothing, and orders one of the legs at most. -/
theorem traced_afterFills {cid : CorrelationId} {ans : ExecAnswers} (hans : src.Answered ans)
    (req : ExecutionRequest) {anchor «match» : Buy} (ha : src.Holds cid anchor.leg)
    (hm : src.Holds cid «match».leg) :
    ∀ e ∈ (afterFills ans req anchor «match»).effects, e.Traced src uuidV5 cid := by
  intro e he
  -- whichever leg is longer, it is one of the request
  have hlonger : src.Holds cid
      (if «match».order.fill.1 < anchor.order.fill.1 then anchor else «match»).leg := by
    split
    · exact ha
    · exact hm
  simp only [afterFills] at he
  split at he
  · split at he <;> simp only [List.mem_cons, List.not_mem_nil, or_false] at he
    · rcases he with rfl | rfl <;> exact traced_of_quiet rfl fun _ h => by cases h
    · rcases he with rfl | rfl
      · exact traced_of_quiet rfl fun _ h => by cases h
      · exact traced_send fun arb harb => by cases harb
  · simp only [List.cons_append, List.mem_cons, List.mem_append, List.not_mem_nil,
      or_false] at he
    rcases he with rfl | he | rfl
    · exact traced_send fun arb harb => by cases harb
    · exact traced_hedgeEffects hans _ hlonger e he
    · exact traced_of_quiet rfl fun _ h => by cases h

/-- The orders of a handling are for the legs of its request. -/
theorem traced_handle {req : ExecutionRequest} (hreq : ExecutionRequest.Traced src req)
    (bal : BalanceTracker) {ans : ExecAnswers} (hans : src.Answered ans) :
    ∀ e ∈ (handleExecutionRequest cfg bal ans req).effects,
      e.Traced src cfg.generateUuidV5 req.correlationId := by
  intro e he
  have ha : src.Holds req.correlationId req.anchor := ⟨_, _, hreq, .inl rfl⟩
  have hm : src.Holds req.correlationId req.match := ⟨_, _, hreq, .inr rfl⟩
  simp only [handleExecutionRequest] at he
  split at he
  · -- no prices: the flag is released, and that is all
    obtain rfl := List.mem_singleton.mp he
    exact traced_of_quiet rfl fun _ h => by cases h
  · split at he
    · split at he <;> simp only [List.mem_cons, List.not_mem_nil, or_false] at he
      · rcases he with rfl | rfl <;> exact traced_of_quiet rfl fun _ h => by cases h
      · obtain rfl := he
        exact traced_of_quiet rfl fun _ h => by cases h
    · split at he
      · obtain rfl := List.mem_singleton.mp he
        exact traced_of_quiet rfl fun _ h => by cases h
      · -- two buys, the deduction, and what follows the fills
        simp only [placeOrders, List.mem_cons] at he
        rcases he with rfl | rfl | rfl | he
        · exact ExecEffect.OrderFor.traced (.buy (hans _ (by simp)) ..) ha
        · exact ExecEffect.OrderFor.traced (.buy (hans _ (by simp)) ..) hm
        · exact traced_of_quiet rfl fun _ h => by cases h
        · exact traced_afterFills hans req ha hm e he

theorem Traced.execReceive (ht : Traced src cfg.generateUuidV5 p) {ans : ExecAnswers}
    (hans : src.Answered ans) (h : System.step cfg p (.execReceive ans) = some q) :
    Traced src cfg.generateUuidV5 q := by
  obtain ⟨req, rest, x, hrx, hx, rfl⟩ := System.execReceive_cases h
  obtain ⟨-, rfl⟩ := Executor.step_receive hx
  have hqueued : ∀ req' ∈ req :: rest, ExecutionRequest.Traced src req' := hrx ▸ ht.queued
  exact { ht with
    queued := fun req' h => hqueued req' (List.mem_cons_of_mem _ h)
    handling := traced_handle (hqueued req List.mem_cons_self) p.exec.balances hans }

theorem Traced.execEffect (ht : Traced src uuidV5 p)
    (h : System.step cfg p .execEffect = some q) : Traced src uuidV5 q := by
  obtain ⟨cid, e, rest, x, hpc, hpc', -, rfl⟩ := System.execEffect_cases h
  have heffects : ∀ e' ∈ e :: rest, e'.Traced src uuidV5 cid := by
    have h := ht.handling
    rwa [hpc] at h
  have hrest : x.pc.Traced src uuidV5 := by
    rw [hpc']
    exact fun e' h => heffects e' (List.mem_cons_of_mem _ h)
  cases e with
  | send ebo =>
    refine { ht with handling := hrest, outbox := fun ebo' hebo' => ?_ }
    rcases List.mem_append.mp hebo' with h | h
    · exact ht.outbox ebo' h
    · obtain rfl := List.mem_singleton.mp h
      intro arb harb
      exact absurd harb ((heffects _ List.mem_cons_self).message _ arb rfl)
  | _ => exact { ht with handling := hrest }

/-! ## §5 All tasks -/

/-- **Every step keeps to the sources** of the messages that the bot receives. -/
theorem Traced.step (ht : Traced src cfg.generateUuidV5 p) {a : Action}
    (hmsg : ∀ msg, a = .receive msg → msg.From src)
    (hsrc : ∀ c, a = .comms c → src.Closed cfg.generateUuidV5 p c)
    (hans : ∀ ans, a = .execReceive ans → src.Answered ans) (h : System.step cfg p a = some q) :
    Traced src cfg.generateUuidV5 q := by
  cases a with
  | receive msg =>
    obtain ⟨-, rfl⟩ := System.receive_cases h
    exact ht.withComms trivial (traced_opsOf p.book (hmsg msg rfl))
  | comms c => exact ht.commsStep (hsrc c rfl) h
  | execReceive ans => exact ht.execReceive (hans ans rfl) h
  -- the executor's steps hold no more than the handling that they started with
  | execEffect => exact ht.execEffect h
  | execFinish =>
    obtain ⟨x, hx, rfl⟩ := Option.map_eq_some_iff.mp h
    obtain ⟨_, -, rfl⟩ := Executor.step_finish hx
    exact { ht with handling := trivial }
  | execRefresh f =>
    obtain ⟨x, hx, rfl⟩ := Option.map_eq_some_iff.mp h
    obtain ⟨-, rfl⟩ := Executor.step_refresh hx
    exact { ht with handling := trivial }
  -- the other tasks have no part in the pairs
  | delTask i sendOk =>
    simp only [System.step, System.taskStep] at h
    split at h
    · cases h
    · rename_i task _
      cases h
      cases task <;> exact { ht with }
  | subscribedResponse channel sid =>
    cases h
    exact { ht with }
  | tick ms =>
    cases h
    exact { ht with }

/-- **Every order** that the executor is about to place, a hedge included, is for a leg of a
    confirmed arb. -/
theorem Traced.order (ht : Traced src uuidV5 p) {cid : CorrelationId} {effects : List ExecEffect}
    (hpc : p.exec.pc = .handling cid effects) {e : ExecEffect} (he : e ∈ effects)
    (horder : e.isOrder = true) : ∃ arb pair leg, src.confirmed cid arb ∧
      ArbMinifiedInfoPair.tryFrom arb = .ok pair ∧
      (SameLeg pair.anchor leg ∨ SameLeg pair.match leg) ∧ e.OrderFor src.venue uuidV5 cid leg := by
  have h := ht.handling
  rw [hpc] at h
  obtain ⟨leg, ⟨anchor, «match», ⟨arb, pair, harb, hpair, ha, hm⟩, hleg⟩, ho⟩ :=
    (h e he).order horder
  rcases hleg with rfl | rfl
  · exact ⟨arb, pair, _, harb, hpair, .inl ha, ho⟩
  · exact ⟨arb, pair, _, harb, hpair, .inr hm, ho⟩

end Degenerate.Picker
