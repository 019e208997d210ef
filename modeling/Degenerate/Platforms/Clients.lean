import Degenerate.Models
import Mathlib.Data.Finset.Basic

/-!
# Subscription State of the Platform Clients

`add_market_ticker` and `del_market_ticker` of the two platform clients
(`platforms/kalshi.rs`, `platforms/polymarket.rs`).  Both are async functions over
a shared set `subscribed_assets`, so each is cut at its lock accesses and awaits:
a call is a *phase*, and one step of a call moves it to its next phase or ends it.

| | add | delete |
|---|---|---|
| Kalshi | check, read SID, send, insert | remove, read SIDs, send, send |
| Polymarket | check, send, insert | filter, send, remove |

The commands that a client has sent are kept in order, the newest first.
-/

namespace Degenerate.Platforms

open Degenerate

/-- How a step of a call ends: with a further phase, or with the result of the call. -/
inductive Progress (φ : Type*) where
  | more (next : φ)
  | done (ok : Bool)
  deriving DecidableEq

/-- The same progress of a call that is embedded in a larger type of phases. -/
def Progress.map {φ ψ : Type*} (f : φ → ψ) : Progress φ → Progress ψ
  | .more next => .more (f next)
  | .done ok => .done ok

theorem Progress.map_eq_more {φ ψ : Type*} {f : φ → ψ} {r : Progress φ} {y : ψ} :
    r.map f = .more y ↔ ∃ x, r = .more x ∧ f x = y := by
  cases r <;> simp [Progress.map]

/-- The running calls after a step of the `i`-th: a call that ends is dropped. -/
def Progress.advance {φ : Type*} (r : Progress φ) (calls : List φ) (i : ℕ) : List φ :=
  match r with
  | .more next => calls.set i next
  | .done _ => calls.eraseIdx i

/-- Nothing but the next phase is new. -/
theorem Progress.mem_advance {φ : Type*} {r : Progress φ} {calls : List φ} {i : ℕ} {x : φ}
    (h : x ∈ r.advance calls i) : x ∈ calls ∨ r = .more x := by
  cases r with
  | more next =>
    rcases List.mem_or_eq_of_mem_set h with h | rfl
    · exact .inl h
    · exact .inr rfl
  | done ok => exact .inl (List.mem_of_mem_eraseIdx h)

/-- Nothing but the call that took the step is lost. -/
theorem Progress.mem_advance_of_mem {φ : Type*} (r : Progress φ) {calls : List φ} {i : ℕ}
    {call x : φ} (hi : calls[i]? = some call) (hx : x ∈ calls) :
    x = call ∨ x ∈ r.advance calls i := by
  obtain ⟨hlt, rfl⟩ := List.getElem?_eq_some_iff.mp hi
  obtain ⟨j, hj, rfl⟩ := List.getElem_of_mem hx
  by_cases hij : j = i
  · subst hij
    exact .inl rfl
  · -- another call keeps its place, or moves up by one
    cases r with
    | more next =>
      refine .inr (List.mem_of_getElem (i := j) (h := by simpa [Progress.advance] using hj) ?_)
      exact List.getElem_set_ne (Ne.symm hij) _
    | done ok => exact .inr (List.mem_eraseIdx_iff_getElem.mpr ⟨j, hj, hij, rfl⟩)

theorem Progress.next_mem_advance {φ : Type*} {calls : List φ} {i : ℕ} {call next : φ}
    (hi : calls[i]? = some call) : next ∈ (Progress.more next).advance calls i := by
  obtain ⟨hlt, -⟩ := List.getElem?_eq_some_iff.mp hi
  exact List.mem_set hlt _

/-- The newest command that concerns a token: `true` for subscribe. -/
def lastCommand {γ : Type*} (effect : γ → String → Option Bool) (sent : List γ)
    (token : String) : Option Bool :=
  sent.findSome? (effect · token)

theorem lastCommand_cons {γ : Type*} (effect : γ → String → Option Bool) (c : γ)
    (sent : List γ) (token : String) :
    lastCommand effect (c :: sent) token =
      (effect c token).or (lastCommand effect sent token) := by
  cases h : effect c token <;> simp [lastCommand, h]

/-! ## §1 Kalshi -/

/-- A command on the Kalshi WebSocket. -/
inductive KalshiCommand where
  | subscribe (channel : String) (markets : List String)
  | addMarkets (sid : ℕ) (markets : List String)
  | delMarkets (sid : ℕ) (markets : List String)
  deriving DecidableEq

/-- What a command means for a ticker that it names. -/
def KalshiCommand.effect : KalshiCommand → String → Option Bool
  | .subscribe _ ms, t => if t ∈ ms then some true else none
  | .addMarkets _ ms, t => if t ∈ ms then some true else none
  | .delMarkets _ ms, t => if t ∈ ms then some false else none

/-- The shared fields of `KalshiInner`. -/
structure KalshiClient where
  subscribedAssets : Finset String := ∅
  tickerSid : Option ℕ := none
  orderbookSid : Option ℕ := none
  sent : List KalshiCommand := []
  deriving DecidableEq

namespace KalshiClient

/-- Put a command on the wire. -/
def send (c : KalshiClient) (cmd : KalshiCommand) : KalshiClient :=
  { c with sent := cmd :: c.sent }

/-- The command of `subscribe_orderbook_channel`: the first call opens the subscription,
    later calls add the market to it. -/
def orderbookCommand (c : KalshiClient) (ticker : String) : KalshiCommand :=
  match c.orderbookSid with
  | none => .subscribe "orderbook_delta" [ticker]
  | some osid => .addMarkets osid [ticker]

/-- `SubscribedResponse`: the first SID of a channel is kept, later ones are ignored. -/
def subscribedResponse (c : KalshiClient) (channel : String) (sid : ℕ) : KalshiClient :=
  if channel = "ticker" then
    -- answers to later subscriptions on the channel do not replace the SID
    if c.tickerSid.isNone then { c with tickerSid := some sid } else c
  else if channel = "orderbook_delta" then
    if c.orderbookSid.isNone then { c with orderbookSid := some sid } else c
  else c

end KalshiClient

/-- The phases of Kalshi's `add_market_ticker`. -/
inductive KalshiAdd where
  | check (ticker : String)
  | readSid (ticker : String)
  | send (ticker : String) (cmd : KalshiCommand)
  | insert (ticker : String)
  deriving DecidableEq

/-- The ticker a call is about. -/
def KalshiAdd.token : KalshiAdd → String
  | .check t | .readSid t | .send t _ | .insert t => t

/-- One step of `add_market_ticker`; `sendOk` is the outcome of the WebSocket send. -/
def KalshiClient.addStep (c : KalshiClient) (sendOk : Bool) :
    KalshiAdd → KalshiClient × Progress KalshiAdd
  -- a ticker that is already in the set is not subscribed again
  | .check t => if t ∈ c.subscribedAssets then (c, .done true) else (c, .more (.readSid t))
  | .readSid t => (c, .more (.send t (c.orderbookCommand t)))
  -- a failed send leaves the function before the insert
  | .send t cmd => if sendOk then (c.send cmd, .more (.insert t)) else (c, .done false)
  | .insert t => ({ c with subscribedAssets := insert t c.subscribedAssets }, .done true)

/-- The phases of Kalshi's `del_market_ticker`, after the SIDs were copied out. -/
inductive KalshiDel where
  | remove (ticker : String)
  | readSids (ticker : String)
  | sendTicker (ticker : String) (tsid : ℕ) (osid : Option ℕ)
  | sendOrderbook (ticker : String) (osid : ℕ)
  deriving DecidableEq

/-- The ticker a call is about. -/
def KalshiDel.token : KalshiDel → String
  | .remove t | .readSids t | .sendTicker t _ _ | .sendOrderbook t _ => t

/-- One step of `del_market_ticker`.  The set is updated first; a failed send is logged
    and the call goes on. -/
def KalshiClient.delStep (c : KalshiClient) (sendOk : Bool) :
    KalshiDel → KalshiClient × Progress KalshiDel
  | .remove t => ({ c with subscribedAssets := c.subscribedAssets.erase t }, .more (.readSids t))
  | .readSids t =>
      -- one command for each channel whose subscription has been answered
      match c.tickerSid, c.orderbookSid with
      | some tsid, osid => (c, .more (.sendTicker t tsid osid))
      | none, some osid => (c, .more (.sendOrderbook t osid))
      | none, none => (c, .done true)
  | .sendTicker t tsid osid =>
      let c' := if sendOk then c.send (.delMarkets tsid [t]) else c
      match osid with
      | some osid => (c', .more (.sendOrderbook t osid))
      | none => (c', .done true)
  | .sendOrderbook t osid =>
      (if sendOk then c.send (.delMarkets osid [t]) else c, .done true)

/-- A ticker in the set after a step was there before, or is inserted by it. -/
theorem KalshiClient.addStep_subscribedAssets {c : KalshiClient} {ok : Bool} {call : KalshiAdd}
    {t : String} (h : t ∈ (c.addStep ok call).1.subscribedAssets) :
    t ∈ c.subscribedAssets ∨ call = .insert t := by
  cases call with
  | check t' =>
    simp only [addStep] at h
    split at h <;> exact .inl h
  | readSid t' => exact .inl h
  | send t' cmd => cases ok <;> exact .inl h
  | insert t' =>
    rcases Finset.mem_insert.mp h with rfl | h
    · exact .inr rfl
    · exact .inl h

/-- Nothing is inserted by `del_market_ticker`. -/
theorem KalshiClient.delStep_subscribedAssets {c : KalshiClient} {ok : Bool} {call : KalshiDel}
    {t : String} (h : t ∈ (c.delStep ok call).1.subscribedAssets) : t ∈ c.subscribedAssets := by
  cases call with
  | remove t' => exact Finset.mem_of_mem_erase h
  | readSids t' =>
    simp only [delStep] at h
    split at h <;> exact h
  | sendTicker t' tsid osid => cases ok <;> cases osid <;> exact h
  | sendOrderbook t' osid => cases ok <;> exact h

/-- Every phase of a call is about the same ticker. -/
theorem KalshiClient.delStep_token {c : KalshiClient} {ok : Bool} {call call' : KalshiDel}
    (h : (c.delStep ok call).2 = .more call') : call'.token = call.token := by
  cases call with
  | remove t =>
    cases h
    rfl
  | readSids t =>
    simp only [delStep] at h
    split at h <;> cases h <;> rfl
  | sendTicker t tsid osid =>
    cases osid <;> cases h
    rfl
  | sendOrderbook t osid => cases h

/-- SIDs are not sent. -/
@[simp] theorem KalshiClient.sent_subscribedResponse (c : KalshiClient) (channel : String)
    (sid : ℕ) : (c.subscribedResponse channel sid).sent = c.sent := by
  unfold subscribedResponse
  split
  · split <;> rfl
  · split
    · split <;> rfl
    · rfl

@[simp] theorem KalshiClient.subscribedAssets_subscribedResponse (c : KalshiClient)
    (channel : String) (sid : ℕ) :
    (c.subscribedResponse channel sid).subscribedAssets = c.subscribedAssets := by
  unfold subscribedResponse
  split
  · split <;> rfl
  · split
    · split <;> rfl
    · rfl

/-! ## §2 Polymarket -/

/-- A dynamic subscription command on the Polymarket market channel. -/
inductive PolymarketCommand where
  | subscribe (assetIds : List String)
  | unsubscribe (assetIds : List String)
  deriving DecidableEq

/-- What a command means for an asset that it names. -/
def PolymarketCommand.effect : PolymarketCommand → String → Option Bool
  | .subscribe ids, t => if t ∈ ids then some true else none
  | .unsubscribe ids, t => if t ∈ ids then some false else none

/-- The shared fields of `PolymarketInner`. -/
structure PolymarketClient where
  subscribedAssets : Finset String := ∅
  sent : List PolymarketCommand := []
  deriving DecidableEq

/-- Put a command on the wire. -/
def PolymarketClient.send (c : PolymarketClient) (cmd : PolymarketCommand) : PolymarketClient :=
  { c with sent := cmd :: c.sent }

/-- The phases of Polymarket's `add_market_ticker`. -/
inductive PolymarketAdd where
  | check (assetId : String)
  | send (assetId : String)
  | insert (assetId : String)
  deriving DecidableEq

/-- The asset a call is about. -/
def PolymarketAdd.token : PolymarketAdd → String
  | .check t | .send t | .insert t => t

/-- One step of `add_market_ticker`. -/
def PolymarketClient.addStep (c : PolymarketClient) (sendOk : Bool) :
    PolymarketAdd → PolymarketClient × Progress PolymarketAdd
  | .check t => if t ∈ c.subscribedAssets then (c, .done true) else (c, .more (.send t))
  | .send t => if sendOk then (c.send (.subscribe [t]), .more (.insert t)) else (c, .done false)
  | .insert t => ({ c with subscribedAssets := insert t c.subscribedAssets }, .done true)

/-- The phases of Polymarket's `del_market_ticker`. -/
inductive PolymarketDel where
  | filter (assetIds : List String)
  | send (assetIds : List String)
  | remove (assetIds : List String)
  deriving DecidableEq

/-- The assets a call is about. -/
def PolymarketDel.tokens : PolymarketDel → List String
  | .filter ids | .send ids | .remove ids => ids

/-- One step of `del_market_ticker`.  The set is updated last, and only after the
    command went out. -/
def PolymarketClient.delStep (c : PolymarketClient) (sendOk : Bool) :
    PolymarketDel → PolymarketClient × Progress PolymarketDel
  | .filter ids =>
      -- nothing is sent when none of the assets is subscribed
      let ids' := ids.filter (· ∈ c.subscribedAssets)
      if ids'.isEmpty then (c, .done true) else (c, .more (.send ids'))
  | .send ids =>
      if sendOk then (c.send (.unsubscribe ids), .more (.remove ids)) else (c, .done false)
  | .remove ids =>
      ({ c with subscribedAssets := c.subscribedAssets.filter (· ∉ ids) }, .done true)

/-- No phase of a call is about further assets. -/
theorem PolymarketClient.delStep_tokens {c : PolymarketClient} {ok : Bool}
    {call call' : PolymarketDel} (h : (c.delStep ok call).2 = .more call') {t : String}
    (ht : t ∈ call'.tokens) : t ∈ call.tokens := by
  cases call with
  | filter ids =>
    simp only [delStep] at h
    split at h <;> cases h
    exact (List.mem_filter.mp ht).1
  | send ids =>
    cases ok <;> cases h
    exact ht
  | remove ids => cases h

/-! ## §3 What a client says of one token -/

/-- Whether the token is in the set, and the newest command for it. -/
@[ext]
structure TokenState where
  subscribed : Bool
  newest : Option Bool
  deriving DecidableEq

/-- The state of a ticker on Kalshi. -/
def KalshiClient.tokenState (c : KalshiClient) (t : String) : TokenState :=
  ⟨t ∈ c.subscribedAssets, lastCommand KalshiCommand.effect c.sent t⟩

/-- The state of an asset on Polymarket. -/
def PolymarketClient.tokenState (c : PolymarketClient) (t : String) : TokenState :=
  ⟨t ∈ c.subscribedAssets, lastCommand PolymarketCommand.effect c.sent t⟩

/-- The command of a call subscribes the ticker of the call and no other. -/
def KalshiAdd.Subscribes : KalshiAdd → Prop
  | .send t cmd => ∀ t', cmd.effect t' = if t' = t then some true else none
  | _ => True

theorem KalshiClient.orderbookCommand_effect (c : KalshiClient) (t t' : String) :
    (c.orderbookCommand t).effect t' = if t' = t then some true else none := by
  unfold orderbookCommand
  split <;> simp [KalshiCommand.effect]

@[simp] theorem KalshiClient.tokenState_subscribedResponse (c : KalshiClient)
    (channel : String) (sid : ℕ) (t : String) :
    (c.subscribedResponse channel sid).tokenState t = c.tokenState t := by
  simp [tokenState]

end Degenerate.Platforms
