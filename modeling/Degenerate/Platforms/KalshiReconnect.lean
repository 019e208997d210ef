import Degenerate.Platforms.Clients
import Degenerate.Lib.TransitionSystem

/-!
# Ticker Coverage across Kalshi Reconnects

`run_kalshi` subscribes the `ticker` channel without a market filter.  `reconnect_ws`
drops the connection, copies `subscribed_assets`, and subscribes the channel again with
the copied markets only, or not at all when there are none.  Nothing else subscribes it:
`add_market_ticker` is about `orderbook_delta`.

The commands sent on the current connection are the field `sent` of the client, which
is emptied when the connection is closed and when a new one is opened.  An update of the
`ticker` subscription is refused by the venue ("Unsupported action"), so what covers a
market is a `subscribe`.

## Main Results

- `covered_iff`: what is covered while `run_kalshi` is in its loop
- `tracked_covered`: every tracked ticker is covered in every run in which, after a
  reconnect, only markets of its copy are inserted
- `added_after_reconnect`: a tracked ticker without prices
-/

namespace Degenerate.Platforms

open Degenerate.Lib

/-! ## §1 The task and its calls -/

/-- Where `run_kalshi` is; the phases from `disconnect` on are those of `reconnect_ws`. -/
inductive RunPc where
  | subscribeLifecycle
  | subscribeTicker
  /-- in the `select!` loop -/
  | loop
  | disconnect
  | resetTickerSid
  | resetOrderbookSid
  | readAssets
  | connect (assets : List String) (attempt : ℕ)
  | resubscribeLifecycle (assets : List String)
  | resubscribeTicker (assets : List String)
  | resubscribeOrderbook (assets : List String)
  | stopped
  deriving DecidableEq

/-- What is inserted into the set from here on is not copied before the loop is reached. -/
def RunPc.pastCopy : RunPc → Bool
  | .loop | .connect .. | .resubscribeLifecycle _ | .resubscribeTicker _
  | .resubscribeOrderbook _ => true
  | _ => false

/-- The task is about to call `connect`. -/
def RunPc.isConnect : RunPc → Bool
  | .connect .. => true
  | _ => false

/-- `KALSHI_WS_MAX_RECONNECT_ATTEMPTS`. -/
def kalshiWsMaxReconnectAttempts : ℕ := 5

/-- The client, the task that runs it, and the calls that are under way. -/
structure KalshiRun where
  client : KalshiClient := {}
  pc : RunPc := .subscribeLifecycle
  adds : List KalshiAdd := []
  dels : List KalshiDel := []
  /-- The markets copied at the latest reconnect; no step reads it. -/
  copied : Option (List String) := none

/-- A step, with what the environment decides in it. -/
inductive KalshiAction where
  /-- `run_kalshi` takes its next step; `ok` is the outcome of the send or of `connect`. -/
  | task (ok : Bool)
  /-- The stream ends, fails, or carries a close frame. -/
  | streamEnds
  /-- `subscribed_assets` is copied in this order. -/
  | copyAssets (order : List String)
  | subscribedResponse (channel : String) (sid : ℕ)
  | shutdown
  | callAdd (ticker : String)
  | addStep (i : ℕ) (ok : Bool)
  | callDel (ticker : String)
  | delStep (i : ℕ) (ok : Bool)

namespace KalshiRun

/-- Close the connection, or open a new one: its subscriptions are gone, or not there yet. -/
def fresh (s : KalshiRun) : KalshiRun := { s with client := { s.client with sent := [] } }

/-- Put a command on the wire, or stop the task when that fails. -/
def sendOrStop (s : KalshiRun) (ok : Bool) (cmd : KalshiCommand) (pc : RunPc) : KalshiRun :=
  if ok then { s with client := s.client.send cmd, pc } else { s with pc := .stopped }

/-- Put a command on the wire; a failure is logged. -/
def sendOrWarn (s : KalshiRun) (ok : Bool) (cmd : KalshiCommand) (pc : RunPc) : KalshiRun :=
  { s with client := if ok then s.client.send cmd else s.client, pc }

/-- The next step of `run_kalshi`. -/
def taskStep (s : KalshiRun) (ok : Bool) : Option KalshiRun :=
  match s.pc with
  | .subscribeLifecycle =>
      some (s.sendOrStop ok (.subscribe "market_lifecycle_v2" []) .subscribeTicker)
  | .subscribeTicker => some (s.sendOrStop ok (.subscribe "ticker" []) .loop)
  -- from here on `reconnect_ws`: the old connection takes its subscriptions with it
  | .disconnect => some { s.fresh with pc := .resetTickerSid }
  | .resetTickerSid =>
      some { s with client := { s.client with tickerSid := none }, pc := .resetOrderbookSid }
  | .resetOrderbookSid =>
      some { s with client := { s.client with orderbookSid := none }, pc := .readAssets }
  | .connect assets attempt =>
      if ok then some { s.fresh with pc := .resubscribeLifecycle assets }
      else if attempt < kalshiWsMaxReconnectAttempts then
        some { s with pc := .connect assets (attempt + 1) }
      else some { s with pc := .stopped }
  | .resubscribeLifecycle assets =>
      some (s.sendOrStop ok (.subscribe "market_lifecycle_v2" [])
        -- with no tracked assets neither channel is subscribed
        (if assets.isEmpty then .loop else .resubscribeTicker assets))
  -- failures of these two sends are only logged
  | .resubscribeTicker assets =>
      some (s.sendOrWarn ok (.subscribe "ticker" assets) (.resubscribeOrderbook assets))
  | .resubscribeOrderbook assets =>
      some (s.sendOrWarn ok (.subscribe "orderbook_delta" assets) .loop)
  | .loop | .readAssets | .stopped => none

/-- One step of the client. -/
def step (s : KalshiRun) : KalshiAction → Option KalshiRun
  | .task ok => s.taskStep ok
  | .streamEnds => if s.pc = .loop then some { s with pc := .disconnect } else none
  | .copyAssets order =>
      if s.pc = .readAssets ∧ order.Nodup ∧ order.toFinset = s.client.subscribedAssets then
        some { s with pc := .connect order 1, copied := some order }
      else none
  | .subscribedResponse channel sid =>
      if s.pc = .loop then some { s with client := s.client.subscribedResponse channel sid }
      else none
  | .shutdown => if s.pc = .loop then some { s.fresh with pc := .stopped } else none
  | .callAdd ticker => some { s with adds := s.adds ++ [.check ticker] }
  | .addStep i ok =>
      match s.adds[i]? with
      | none => none
      | some call =>
          let r := s.client.addStep ok call
          some { s with client := r.1, adds := r.2.advance s.adds i }
  | .callDel ticker => some { s with dels := s.dels ++ [.remove ticker] }
  | .delStep i ok =>
      match s.dels[i]? with
      | none => none
      | some call =>
          let r := s.client.delStep ok call
          some { s with client := r.1, dels := r.2.advance s.dels i }

/-! ## §2 Coverage -/

end KalshiRun

/-- The ticker that the next step of a call inserts. -/
def KalshiAdd.inserted : KalshiAdd → Option String
  | .insert t => some t
  | _ => none

/-- The markets of a `ticker` subscription; an empty list stands for all. -/
def KalshiCommand.tickerMarkets : KalshiCommand → Option (List String)
  | .subscribe "ticker" markets => some markets
  | _ => none

namespace KalshiRun

/-- The live `ticker` subscriptions. -/
def tickerSubscriptions (s : KalshiRun) : List (List String) :=
  s.client.sent.filterMap KalshiCommand.tickerMarkets

/-- A live `ticker` subscription reports the market. -/
def Covered (s : KalshiRun) (ticker : String) : Prop :=
  ∃ markets ∈ s.tickerSubscriptions, markets = [] ∨ ticker ∈ markets

/-- The `ticker` subscriptions that `run_kalshi` makes: for all markets on the first
    connection, for the copied ones, if any, on a later one. -/
def subscriptionsFor : Option (List String) → List (List String)
  | none => [[]]
  | some [] => []
  | some assets => [assets]

/-- What is subscribed and copied at each place of `run_kalshi`. -/
def AtPc (s : KalshiRun) : RunPc → Prop
  | .subscribeLifecycle | .subscribeTicker => s.tickerSubscriptions = [] ∧ s.copied = none
  | .loop => s.tickerSubscriptions = subscriptionsFor s.copied
  | .connect assets _ => s.copied = some assets
  | .resubscribeLifecycle assets => s.tickerSubscriptions = [] ∧ s.copied = some assets
  | .resubscribeTicker assets =>
      s.tickerSubscriptions = [] ∧ s.copied = some assets ∧ assets ≠ []
  | .resubscribeOrderbook assets =>
      s.tickerSubscriptions = subscriptionsFor (some assets) ∧ s.copied = some assets
  | .disconnect | .resetTickerSid | .resetOrderbookSid | .readAssets | .stopped => True

/-- No call is about to send a `ticker` subscription. -/
structure Inv (s : KalshiRun) : Prop where
  atPc : s.AtPc s.pc
  adds : ∀ t cmd, KalshiAdd.send t cmd ∈ s.adds → cmd.tickerMarkets = none

/-- A send of `run_kalshi` in the step succeeds. -/
def SendsSucceed (s : KalshiRun) : KalshiAction → Prop
  | .task ok => s.pc.isConnect = true ∨ ok = true
  | _ => True

/-- What is inserted after the copy of a reconnect was copied by it. -/
def InsertsCopied (s : KalshiRun) : KalshiAction → Prop
  | .addStep i _ => s.pc.pastCopy = true → ∀ assets ∈ s.copied,
      ∀ t ∈ s.adds[i]?.bind KalshiAdd.inserted, t ∈ assets
  | _ => True

instance (s : KalshiRun) (ticker : String) : Decidable (s.Covered ticker) :=
  inferInstanceAs (Decidable (∃ markets ∈ s.tickerSubscriptions, markets = [] ∨ ticker ∈ markets))

instance (s : KalshiRun) : ∀ a, Decidable (s.SendsSucceed a)
  | .task ok => inferInstanceAs (Decidable (s.pc.isConnect = true ∨ ok = true))
  | .streamEnds | .copyAssets _ | .subscribedResponse .. | .shutdown | .callAdd _ | .addStep ..
  | .callDel _ | .delStep .. => .isTrue trivial

instance (s : KalshiRun) : ∀ a, Decidable (s.InsertsCopied a)
  | .addStep i _ => inferInstanceAs (Decidable (s.pc.pastCopy = true → ∀ assets ∈ s.copied,
      ∀ t ∈ s.adds[i]?.bind KalshiAdd.inserted, t ∈ assets))
  | .streamEnds | .copyAssets _ | .subscribedResponse .. | .shutdown | .callAdd _ | .task _
  | .callDel _ | .delStep .. => .isTrue trivial

/-! ## §3 What a step does to the subscriptions -/

/-- A command on another channel leaves the `ticker` subscriptions alone. -/
theorem tickerSubscriptions_send {c : KalshiClient} {cmd : KalshiCommand}
    (h : cmd.tickerMarkets = none) :
    (c.send cmd).sent.filterMap KalshiCommand.tickerMarkets =
      c.sent.filterMap KalshiCommand.tickerMarkets := by
  rw [KalshiClient.send, List.filterMap_cons_none h]

/-- `add_market_ticker` touches no `ticker` subscription. -/
theorem tickerSubscriptions_addStep {c : KalshiClient} {ok : Bool} {call : KalshiAdd}
    (h : ∀ t cmd, call = .send t cmd → cmd.tickerMarkets = none) :
    (c.addStep ok call).1.sent.filterMap KalshiCommand.tickerMarkets =
      c.sent.filterMap KalshiCommand.tickerMarkets := by
  cases call with
  | check t =>
    simp only [KalshiClient.addStep]
    split <;> rfl
  | readSid t => rfl
  | send t cmd =>
    cases ok with
    | false => rfl
    | true => exact tickerSubscriptions_send (h t cmd rfl)
  | insert t => rfl

/-- `del_market_ticker` touches no `ticker` subscription. -/
theorem tickerSubscriptions_delStep (c : KalshiClient) (ok : Bool) (call : KalshiDel) :
    (c.delStep ok call).1.sent.filterMap KalshiCommand.tickerMarkets =
      c.sent.filterMap KalshiCommand.tickerMarkets := by
  cases call with
  | remove t => rfl
  | readSids t =>
    simp only [KalshiClient.delStep]
    split <;> rfl
  | sendTicker t tsid osid => cases ok <;> cases osid <;> rfl
  | sendOrderbook t osid => cases ok <;> rfl

/-- The command of `subscribe_orderbook_channel` is not about `ticker`. -/
theorem tickerMarkets_orderbookCommand (c : KalshiClient) (t : String) :
    (c.orderbookCommand t).tickerMarkets = none := by
  unfold KalshiClient.orderbookCommand
  split <;> rfl

theorem addStep_send {c : KalshiClient} {ok : Bool} {call : KalshiAdd} {t : String}
    {cmd : KalshiCommand} (h : (c.addStep ok call).2 = .more (.send t cmd)) :
    cmd.tickerMarkets = none := by
  cases call with
  | check t' =>
    simp only [KalshiClient.addStep] at h
    split at h <;> cases h
  | readSid t' =>
    cases h
    exact tickerMarkets_orderbookCommand c t
  | send t' cmd' => cases ok <;> cases h
  | insert t' => cases h

/-- A change that `AtPc` does not see. -/
theorem AtPc.congr {s s' : KalshiRun} {pc : RunPc} (h : s.AtPc pc)
    (hsubs : s'.tickerSubscriptions = s.tickerSubscriptions) (hcopied : s'.copied = s.copied) :
    s'.AtPc pc := by
  cases pc <;> simp only [AtPc, hsubs, hcopied] at h ⊢ <;> exact h

theorem inv_init : Inv {} := ⟨⟨rfl, rfl⟩, fun _ _ h => nomatch h⟩

/-- The steps of `run_kalshi` keep the invariant as long as its sends succeed. -/
theorem Inv.taskStep {s s' : KalshiRun} {ok : Bool} (hi : Inv s)
    (hs : s.SendsSucceed (.task ok)) (h : s.taskStep ok = some s') : Inv s' := by
  obtain ⟨hat, hadds⟩ := hi
  have hok : s.pc.isConnect = false → ok = true := by
    intro hconnect
    apply hs.resolve_left
    rw [hconnect]
    exact Bool.false_ne_true
  unfold KalshiRun.taskStep at h
  generalize s.pc = pc at hat h hok
  cases pc with
  | subscribeLifecycle =>
    obtain rfl := hok rfl
    cases h
    exact ⟨hat, hadds⟩
  | subscribeTicker =>
    -- the subscription without a filter
    obtain rfl := hok rfl
    cases h
    refine ⟨?_, hadds⟩
    show [] :: s.tickerSubscriptions = subscriptionsFor s.copied
    rw [hat.1, hat.2, subscriptionsFor]
  | loop => cases h
  | disconnect =>
    cases h
    exact ⟨trivial, hadds⟩
  | resetTickerSid =>
    cases h
    exact ⟨trivial, hadds⟩
  | resetOrderbookSid =>
    cases h
    exact ⟨trivial, hadds⟩
  | readAssets => cases h
  | connect assets attempt =>
    simp only at h
    split at h
    · -- nothing is subscribed on the new connection
      cases h
      exact ⟨⟨rfl, hat⟩, hadds⟩
    · split at h
      · cases h
        exact ⟨hat, hadds⟩
      · cases h
        exact ⟨trivial, hadds⟩
  | resubscribeLifecycle assets =>
    obtain rfl := hok rfl
    cases h
    refine ⟨?_, hadds⟩
    -- without tracked assets the loop is next, and nothing is subscribed
    cases assets with
    | nil =>
      show s.tickerSubscriptions = subscriptionsFor s.copied
      rw [hat.1, hat.2, subscriptionsFor]
    | cons a rest => exact ⟨hat.1, hat.2, List.cons_ne_nil a rest⟩
  | resubscribeTicker assets =>
    -- the subscription for the copied markets
    obtain rfl := hok rfl
    cases h
    refine ⟨⟨?_, hat.2.1⟩, hadds⟩
    show assets :: s.tickerSubscriptions = subscriptionsFor (some assets)
    obtain ⟨a, rest, rfl⟩ := List.exists_cons_of_ne_nil hat.2.2
    rw [hat.1, subscriptionsFor]
    exact List.cons_ne_nil a rest
  | resubscribeOrderbook assets =>
    obtain rfl := hok rfl
    cases h
    refine ⟨?_, hadds⟩
    show s.tickerSubscriptions = subscriptionsFor s.copied
    rw [hat.1, hat.2]
  | stopped => cases h

/-- Calls of `add_market_ticker` keep the invariant. -/
theorem Inv.addStep {s : KalshiRun} {i : ℕ} {ok : Bool} {call : KalshiAdd} (hi : Inv s)
    (hcall : s.adds[i]? = some call) :
    Inv { s with
      client := (s.client.addStep ok call).1
      adds := (s.client.addStep ok call).2.advance s.adds i } := by
  have hmem := List.mem_of_getElem? hcall
  refine ⟨hi.atPc.congr (tickerSubscriptions_addStep fun t cmd h => ?_) rfl, fun t cmd h => ?_⟩
  · exact hi.adds t cmd (h ▸ hmem)
  · rcases Progress.mem_advance h with h | h
    · exact hi.adds t cmd h
    · exact addStep_send h

theorem Inv.step {s s' : KalshiRun} {a : KalshiAction} (hi : Inv s) (hs : s.SendsSucceed a)
    (h : s.step a = some s') : Inv s' := by
  cases a with
  | task ok => exact hi.taskStep hs h
  | streamEnds =>
    simp only [KalshiRun.step] at h
    split at h <;> cases h
    -- between the loss and the copy nothing is to be covered
    exact ⟨trivial, hi.adds⟩
  | copyAssets order =>
    simp only [KalshiRun.step] at h
    split at h <;> cases h
    exact ⟨rfl, hi.adds⟩
  -- an answer sets an SID and sends nothing
  | subscribedResponse channel sid =>
    simp only [KalshiRun.step] at h
    split at h <;> cases h
    refine ⟨hi.atPc.congr ?_ rfl, hi.adds⟩
    rw [tickerSubscriptions, KalshiClient.sent_subscribedResponse]
    rfl
  | shutdown =>
    simp only [KalshiRun.step] at h
    split at h <;> cases h
    exact ⟨trivial, hi.adds⟩
  -- a new call is at its check
  | callAdd ticker =>
    cases h
    refine ⟨hi.atPc.congr rfl rfl, fun t cmd hmem => ?_⟩
    rcases List.mem_append.mp hmem with hmem | hmem
    · exact hi.adds t cmd hmem
    · cases List.mem_singleton.mp hmem
  | addStep i ok =>
    simp only [KalshiRun.step] at h
    split at h <;> cases h
    exact hi.addStep ‹_›
  -- a delete call never subscribes to the ticker channel
  | callDel ticker =>
    cases h
    exact ⟨hi.atPc.congr rfl rfl, hi.adds⟩
  | delStep i ok =>
    simp only [KalshiRun.step] at h
    split at h <;> cases h
    exact ⟨hi.atPc.congr (tickerSubscriptions_delStep ..) rfl, hi.adds⟩

/-- **What is covered**: in the loop, everything before the first reconnect, and afterwards
    the markets that the latest reconnect copied. -/
theorem covered_iff {as : List KalshiAction} {s : KalshiRun}
    (hsends : Along KalshiRun.step SendsSucceed {} as) (h : run KalshiRun.step {} as = some s)
    (hloop : s.pc = .loop) (ticker : String) :
    s.Covered ticker ↔ ∀ assets, s.copied = some assets → ticker ∈ assets := by
  -- the invariant says which subscriptions are live, the rest is what they cover
  have hi := run_invariant_along (fun _ _ _ hi hp ht => Inv.step hi hp ht) inv_init hsends h
  have hat := hi.atPc
  rw [hloop] at hat
  rw [Covered, hat]
  cases hcopied : s.copied with
  | none => simp [subscriptionsFor]
  | some assets => cases assets <;> simp [subscriptionsFor]

/-! ## §4 Tracked tickers -/

/-- From the copy of a reconnect on, what is tracked was copied. -/
def TracksCopied (s : KalshiRun) : Prop :=
  s.pc.pastCopy = true → ∀ assets, s.copied = some assets → ∀ t ∈ s.client.subscribedAssets,
    t ∈ assets

/-- `run_kalshi` does not change the set, and passes the copy of a reconnect at
    `copyAssets` only. -/
theorem taskStep_frame {s s' : KalshiRun} {ok : Bool} (h : s.taskStep ok = some s') :
    s'.client.subscribedAssets = s.client.subscribedAssets ∧ s'.copied = s.copied ∧
      (s'.pc.pastCopy = true → s.pc.pastCopy = true ∨ s.pc = .subscribeTicker) := by
  unfold KalshiRun.taskStep at h
  generalize s.pc = pc at h
  cases pc with
  | subscribeLifecycle =>
    cases h
    cases ok <;> exact ⟨rfl, rfl, fun h => nomatch h⟩
  | subscribeTicker =>
    cases h
    cases ok <;> exact ⟨rfl, rfl, fun _ => .inr rfl⟩
  | loop => cases h
  | disconnect =>
    cases h
    exact ⟨rfl, rfl, fun h => nomatch h⟩
  | resetTickerSid =>
    cases h
    exact ⟨rfl, rfl, fun h => nomatch h⟩
  | resetOrderbookSid =>
    cases h
    exact ⟨rfl, rfl, fun h => nomatch h⟩
  | readAssets => cases h
  | connect assets attempt =>
    -- a failed attempt stays past the copy, or stops the task
    simp only at h
    split at h
    · cases h
      exact ⟨rfl, rfl, fun _ => .inl rfl⟩
    · split at h <;> cases h <;> exact ⟨rfl, rfl, fun _ => .inl rfl⟩
  | resubscribeLifecycle assets =>
    cases h
    cases ok <;> exact ⟨rfl, rfl, fun _ => .inl rfl⟩
  | resubscribeTicker assets =>
    cases h
    cases ok <;> exact ⟨rfl, rfl, fun _ => .inl rfl⟩
  | resubscribeOrderbook assets =>
    cases h
    cases ok <;> exact ⟨rfl, rfl, fun _ => .inl rfl⟩
  | stopped => cases h

theorem TracksCopied.step {s s' : KalshiRun} {a : KalshiAction} (hi : Inv s)
    (ht : TracksCopied s) (hins : s.InsertsCopied a) (h : s.step a = some s') :
    TracksCopied s' := by
  cases a with
  | task ok =>
    obtain ⟨hset, hcopied, hpast⟩ := taskStep_frame h
    intro hpc assets hassets
    rw [hcopied] at hassets
    rw [hset]
    rcases hpast hpc with hpast | hticker
    · exact ht hpast assets hassets
    · -- nothing was copied before the first connection is in its loop
      have hat := hi.atPc
      rw [hticker] at hat
      rw [hat.2] at hassets
      cases hassets
  | streamEnds =>
    simp only [KalshiRun.step] at h
    split at h <;> cases h
    intro hpc
    cases hpc
  | copyAssets order =>
    simp only [KalshiRun.step] at h
    split at h
    · rename_i hcopy
      cases h
      intro _ assets hassets t hmem
      cases hassets
      have hmem' : t ∈ s.client.subscribedAssets := hmem
      -- the copy holds the whole set
      rw [← hcopy.2.2] at hmem'
      exact List.mem_toFinset.mp hmem'
    · cases h
  | subscribedResponse channel sid =>
    simp only [KalshiRun.step] at h
    split at h <;> cases h
    intro hpc assets hassets t hmem
    rw [KalshiClient.subscribedAssets_subscribedResponse] at hmem
    exact ht hpc assets hassets t hmem
  | shutdown =>
    simp only [KalshiRun.step] at h
    split at h <;> cases h
    intro hpc
    cases hpc
  | callAdd ticker =>
    cases h
    exact ht
  | addStep i ok =>
    simp only [KalshiRun.step] at h
    split at h
    · cases h
    · rename_i call hcall
      cases h
      intro hpc assets hassets t hmem
      -- the only new ticker is the one that the step inserts
      rcases KalshiClient.addStep_subscribedAssets hmem with hmem | hmem
      · exact ht hpc assets hassets t hmem
      · apply hins hpc assets hassets t
        rw [hcall, hmem]
        rfl
  | callDel ticker =>
    cases h
    exact ht
  | delStep i ok =>
    simp only [KalshiRun.step] at h
    split at h <;> cases h
    intro hpc assets hassets t hmem
    exact ht hpc assets hassets t (KalshiClient.delStep_subscribedAssets hmem)

/-- **Tracked tickers are covered** while `run_kalshi` is in its loop, in every run in which
    what is inserted after the copy of a reconnect was copied by it. -/
theorem tracked_covered {as : List KalshiAction} {s : KalshiRun}
    (hsends : Along KalshiRun.step SendsSucceed {} as)
    (hins : Along KalshiRun.step InsertsCopied {} as) (h : run KalshiRun.step {} as = some s)
    (hloop : s.pc = .loop) {ticker : String} (hmem : ticker ∈ s.client.subscribedAssets) :
    s.Covered ticker := by
  have htracks : Inv s ∧ TracksCopied s := by
    refine run_invariant_along (I := fun s => Inv s ∧ TracksCopied s)
      (fun s a t hi hp ht => ⟨hi.1.step hp.1 ht, TracksCopied.step hi.1 hi.2 hp.2 ht⟩)
      ⟨inv_init, fun hpc => nomatch hpc⟩ (hsends.and hins) h
  rw [covered_iff hsends h hloop]
  -- in the loop the tracked tickers are among the latest copy
  intro assets hassets
  exact htracks.2 (by rw [hloop]; rfl) assets hassets ticker hmem

/-- The start of `run_kalshi`. -/
def startSteps : List KalshiAction := [.task true, .task true]

/-- A call of `add_market_ticker` that is not disturbed. -/
def addSteps (ticker : String) : List KalshiAction :=
  .callAdd ticker :: List.replicate 4 (.addStep 0 true)

/-- The stream ends while the markets in `order` are tracked, and the second attempt to
    connect succeeds. -/
def reconnectSteps (order : List String) : List KalshiAction :=
  [.streamEnds, .task true, .task true, .task true, .copyAssets order, .task false] ++
    List.replicate (if order.isEmpty then 2 else 4) (.task true)

/-- A market that is added before a reconnect is covered after it. -/
theorem tracked_covered_sample :
    ∃ s, run KalshiRun.step {} (startSteps ++ addSteps "K" ++ reconnectSteps ["K"]) = some s ∧
      s.pc = .loop ∧ "K" ∈ s.client.subscribedAssets ∧ s.Covered "K" := by
  have hrun : (run KalshiRun.step {} (startSteps ++ addSteps "K" ++ reconnectSteps ["K"])).any
      (fun s => s.pc == .loop && decide ("K" ∈ s.client.subscribedAssets)) = true := by
    decide +kernel
  obtain ⟨s, hs, hcheck⟩ := (Option.any_eq_true _ _).mp hrun
  rw [Bool.and_eq_true, beq_iff_eq, decide_eq_true_eq] at hcheck
  refine ⟨s, hs, hcheck.1, hcheck.2, tracked_covered ?_ ?_ hs hcheck.1 hcheck.2⟩ <;>
    decide +kernel

/-- **A tracked ticker without prices**: a market that is added after a reconnect at which
    nothing was tracked; every send succeeds, and no call is under way. -/
theorem added_after_reconnect :
    ∃ s, run KalshiRun.step {} (startSteps ++ reconnectSteps [] ++ addSteps "K") = some s ∧
      Along KalshiRun.step SendsSucceed {} (startSteps ++ reconnectSteps [] ++ addSteps "K") ∧
      s.pc = .loop ∧ s.adds = [] ∧ s.dels = [] ∧ "K" ∈ s.client.subscribedAssets ∧
      ¬ s.Covered "K" := by
  have hrun : (run KalshiRun.step {} (startSteps ++ reconnectSteps [] ++ addSteps "K")).any
      (fun s => decide (s.pc = .loop ∧ s.adds = [] ∧ s.dels = [] ∧
        "K" ∈ s.client.subscribedAssets ∧ ¬ s.Covered "K")) = true := by
    decide +kernel
  obtain ⟨s, hs, hcheck⟩ := (Option.any_eq_true _ _).mp hrun
  exact ⟨s, hs, by decide +kernel, of_decide_eq_true hcheck⟩

end KalshiRun

end Degenerate.Platforms
