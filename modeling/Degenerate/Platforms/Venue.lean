import Degenerate.Platforms.Clients
import Degenerate.Lib.PartialMap
import Degenerate.Lib.TransitionSystem

/-!
# The Venue behind the Kalshi Client

`add_market_ticker` and `del_market_ticker` of the Kalshi client together with the venue
that they talk to.  The venue answers each `subscribe` with a fresh SID that holds the
listed markets; `add_markets` and `del_markets` change the set of the SID they name.
Commands travel in order on one WebSocket, answers are handled in any order, and both may
be delayed for as long as one likes.

The client learns the SID of `orderbook_delta` from the first answer and ignores the later
ones.  Until then every `add_market_ticker` opens a subscription of its own.

## Main Definitions

- `Subscription`, `process`: what the venue holds, and what a command does to it
- `Session`, `Session.step`: one connection with everything that is under way on it
- `Session.Orderly`: the steps that keep client and venue together

## Main Results

- `open_process_subscribe`, `open_process_addMarkets`, `open_process_delMarkets`: the tickers
  that a command opens and closes
-/

namespace Degenerate.Platforms

open Degenerate.Lib

/-! ## §1 The Venue -/

/-- What the venue holds under a SID. -/
structure Subscription where
  sid : ℕ
  channel : String
  markets : Finset String
  deriving DecidableEq

/-- Change the markets if the SID is that of the subscription. -/
def Subscription.update (sub : Subscription) (sid : ℕ) (f : Finset String → Finset String) :
    Subscription :=
  if sub.sid = sid then { sub with markets := f sub.markets } else sub

/-- One command, processed by the venue. -/
def process (sids : ℕ ↪ ℕ) (subs : List Subscription) : KalshiCommand → List Subscription
  | .subscribe channel markets =>
      subs ++ [{ sid := sids subs.length, channel, markets := markets.toFinset }]
  | .addMarkets sid markets => subs.map (·.update sid (· ∪ markets.toFinset))
  | .delMarkets sid markets => subs.map (·.update sid (· \ markets.toFinset))

/-- The `SubscribedResponse` to a command: channel and SID. -/
def answersTo (sids : ℕ ↪ ℕ) (subs : List Subscription) : KalshiCommand → List (String × ℕ)
  | .subscribe channel _ => [(channel, sids subs.length)]
  | .addMarkets .. | .delMarkets .. => []

/-- The subscriptions to `orderbook_delta`. -/
def books (subs : List Subscription) : List Subscription :=
  subs.filter (·.channel = "orderbook_delta")

/-- Some subscription to `orderbook_delta` holds the ticker. -/
def Open (subs : List Subscription) (t : String) : Prop := ∃ b ∈ books subs, t ∈ b.markets

instance (subs : List Subscription) (t : String) : Decidable (Open subs t) :=
  inferInstanceAs (Decidable (∃ b ∈ books subs, t ∈ b.markets))

@[simp] theorem Subscription.sid_update (sub : Subscription) (sid : ℕ)
    (f : Finset String → Finset String) : (sub.update sid f).sid = sub.sid := by
  unfold update
  split <;> rfl

@[simp] theorem Subscription.channel_update (sub : Subscription) (sid : ℕ)
    (f : Finset String → Finset String) : (sub.update sid f).channel = sub.channel := by
  unfold update
  split <;> rfl

theorem Subscription.markets_update (sub : Subscription) {sid : ℕ}
    (f : Finset String → Finset String) (h : sub.sid = sid) :
    (sub.update sid f).markets = f sub.markets := by
  rw [update, if_pos h]

/-- With one subscription, the open tickers are its markets. -/
theorem open_iff_of_books {subs : List Subscription} {b : Subscription} (h : books subs = [b])
    {t : String} : Open subs t ↔ t ∈ b.markets := by
  rw [Open, h]
  exact ⟨fun ⟨b', hb', ht⟩ => List.mem_singleton.mp hb' ▸ ht,
    fun ht => ⟨b, List.mem_singleton_self b, ht⟩⟩

theorem books_append (subs subs' : List Subscription) :
    books (subs ++ subs') = books subs ++ books subs' := List.filter_append ..

/-- An update does not move a subscription to another channel. -/
theorem books_map_update (subs : List Subscription) (sid : ℕ)
    (f : Finset String → Finset String) :
    books (subs.map (·.update sid f)) = (books subs).map (·.update sid f) := by
  rw [books, books, List.filter_map]
  congr 1
  exact List.filter_congr fun sub _ => by simp

/-- A subscription on another channel. -/
theorem books_process_of_ne {sids : ℕ ↪ ℕ} {subs : List Subscription} {channel : String}
    {markets : List String} (h : channel ≠ "orderbook_delta") :
    books (process sids subs (.subscribe channel markets)) = books subs := by
  simp [process, books, h]

/-- A subscription for one ticker opens this ticker. -/
theorem open_process_subscribe {sids : ℕ ↪ ℕ} {subs : List Subscription} {t t' : String} :
    Open (process sids subs (.subscribe "orderbook_delta" [t])) t' ↔ Open subs t' ∨ t' = t := by
  simp [Open, process, books]

/-- The one subscription that there is has this SID. -/
def Sole (subs : List Subscription) (sid : ℕ) : Prop := ∃ b, books subs = [b] ∧ b.sid = sid

theorem Sole.process_update {subs : List Subscription} {sid : ℕ} (h : Sole subs sid) (sid' : ℕ)
    (f : Finset String → Finset String) : Sole (subs.map (·.update sid' f)) sid := by
  obtain ⟨b, hb, hsid⟩ := h
  refine ⟨b.update sid' f, ?_, ?_⟩
  · rw [books_map_update, hb]
    rfl
  · rw [Subscription.sid_update, hsid]

/-- `add_markets` on the one subscription opens the ticker. -/
theorem open_process_addMarkets {sids : ℕ ↪ ℕ} {subs : List Subscription} {sid : ℕ}
    (h : Sole subs sid) {t t' : String} :
    Open (process sids subs (.addMarkets sid [t])) t' ↔ Open subs t' ∨ t' = t := by
  obtain ⟨b, hb, hsid⟩ := h
  have hbooks : books (process sids subs (.addMarkets sid [t])) =
      [b.update sid (· ∪ [t].toFinset)] := by
    rw [process, books_map_update, hb]
    rfl
  have hmarkets : t' ∈ (b.update sid (· ∪ [t].toFinset)).markets ↔ t' ∈ b.markets ∨ t' = t := by
    rw [Subscription.markets_update b _ hsid, Finset.mem_union, List.mem_toFinset,
      List.mem_singleton]
  rw [open_iff_of_books hbooks, open_iff_of_books hb, hmarkets]

/-- `del_markets` on the one subscription closes the ticker. -/
theorem open_process_delMarkets {sids : ℕ ↪ ℕ} {subs : List Subscription} {sid : ℕ}
    (h : Sole subs sid) {t t' : String} :
    Open (process sids subs (.delMarkets sid [t])) t' ↔ Open subs t' ∧ t' ≠ t := by
  obtain ⟨b, hb, hsid⟩ := h
  have hbooks : books (process sids subs (.delMarkets sid [t])) =
      [b.update sid (· \ [t].toFinset)] := by
    rw [process, books_map_update, hb]
    rfl
  have hmarkets : t' ∈ (b.update sid (· \ [t].toFinset)).markets ↔ t' ∈ b.markets ∧ t' ≠ t := by
    rw [Subscription.markets_update b _ hsid, Finset.mem_sdiff, List.mem_toFinset,
      List.mem_singleton]
  rw [open_iff_of_books hbooks, open_iff_of_books hb, hmarkets]

/-- A command keeps the one subscription that there is, and adds no second one as long as it
does not open one beside it. -/
theorem sole_process {sids : ℕ ↪ ℕ} {subs : List Subscription} {cmd : KalshiCommand}
    (hopen : ∀ markets, cmd = .subscribe "orderbook_delta" markets → books subs = []) {sid : ℕ}
    (h : Sole subs sid) : Sole (process sids subs cmd) sid := by
  cases cmd with
  | subscribe channel markets =>
    by_cases hch : channel = "orderbook_delta"
    · subst hch
      obtain ⟨b, hb, -⟩ := h
      rw [hopen markets rfl] at hb
      cases hb
    · unfold Sole
      rwa [books_process_of_ne hch]
  | addMarkets sid' markets => exact h.process_update ..
  | delMarkets sid' markets => exact h.process_update ..

/-- The number of subscriptions, likewise. -/
theorem single_process {sids : ℕ ↪ ℕ} {subs : List Subscription} {cmd : KalshiCommand}
    (hopen : ∀ markets, cmd = .subscribe "orderbook_delta" markets → books subs = [])
    (h : (books subs).length ≤ 1) : (books (process sids subs cmd)).length ≤ 1 := by
  cases cmd with
  | subscribe channel markets =>
    by_cases hch : channel = "orderbook_delta"
    · subst hch
      rw [process, books_append, hopen markets rfl]
      exact le_of_eq rfl
    · rwa [books_process_of_ne hch]
  | addMarkets sid' markets => rwa [process, books_map_update, List.length_map]
  | delMarkets sid' markets => rwa [process, books_map_update, List.length_map]

/-- `del_markets` on any SID opens nothing. -/
theorem open_of_process_delMarkets {sids : ℕ ↪ ℕ} {subs : List Subscription} {sid : ℕ}
    {t t' : String} (h : Open (process sids subs (.delMarkets sid [t])) t') : Open subs t' := by
  obtain ⟨b', hb', ht'⟩ := h
  rw [process, books_map_update] at hb'
  obtain ⟨b, hb, rfl⟩ := List.mem_map.mp hb'
  refine ⟨b, hb, ?_⟩
  unfold Subscription.update at ht'
  split at ht'
  · exact (Finset.mem_sdiff.mp ht').1
  · exact ht'

/-- `del_markets` on any SID touches no other ticker. -/
theorem Open.process_delMarkets {sids : ℕ ↪ ℕ} {subs : List Subscription} {sid : ℕ}
    {t t' : String} (h : Open subs t') (hne : t' ≠ t) :
    Open (process sids subs (.delMarkets sid [t])) t' := by
  obtain ⟨b, hb, ht'⟩ := h
  refine ⟨b.update sid (· \ [t].toFinset), ?_, ?_⟩
  · rw [process, books_map_update]
    exact List.mem_map_of_mem hb
  · unfold Subscription.update
    split
    · exact Finset.mem_sdiff.mpr ⟨ht', by simpa using hne⟩
    · exact ht'

/-! ## §2 The Client and the Venue -/

/-- The two calls. -/
inductive Call where
  | add
  | del
  deriving DecidableEq

/-- One connection: the client with its calls, the commands and answers under way, and what
the venue holds. -/
structure Session where
  /-- The SIDs that the venue gives out, in order. -/
  sids : ℕ ↪ ℕ
  client : KalshiClient := {}
  /-- The channels that `run_kalshi` has still to subscribe before its loop. -/
  opening : List String := ["market_lifecycle_v2", "ticker"]
  adds : List KalshiAdd := []
  dels : List KalshiDel := []
  /-- Commands sent and not processed yet, the oldest first. -/
  wire : List KalshiCommand := []
  venue : List Subscription := []
  /-- Answers sent and not handled yet. -/
  answers : List (String × ℕ) := []
  /-- Which call for a ticker was started last; no step reads it. -/
  latest : PMap String Call := PMap.empty

/-- A step of the client, of its calls, or of the venue. -/
inductive SessionAction where
  /-- `run_kalshi` subscribes its next channel. -/
  | opens
  | callAdd (ticker : String)
  | addStep (i : ℕ) (ok : Bool)
  | callDel (ticker : String)
  | delStep (i : ℕ) (ok : Bool)
  /-- The venue processes the oldest command. -/
  | processes
  /-- The loop of `run_kalshi` handles one of the answers. -/
  | answered (i : ℕ)

namespace Session

/-- The client after a step, and what it has sent in the step. -/
def transmit (s : Session) (client : KalshiClient) : Session :=
  { s with
    client
    wire := s.wire ++
      (client.sent.take (client.sent.length - s.client.sent.length)).reverse }

/-- One step. -/
def step (s : Session) : SessionAction → Option Session
  | .opens =>
      match s.opening with
      | [] => none
      | channel :: rest =>
          some { s.transmit (s.client.send (.subscribe channel [])) with opening := rest }
  | .callAdd ticker =>
      some { s with
        adds := s.adds ++ [.check ticker]
        latest := s.latest.insert ticker .add }
  | .addStep i ok =>
      match s.adds[i]? with
      | none => none
      | some call =>
          let r := s.client.addStep ok call
          some { s.transmit r.1 with adds := r.2.advance s.adds i }
  | .callDel ticker =>
      some { s with
        dels := s.dels ++ [.remove ticker]
        latest := s.latest.insert ticker .del }
  | .delStep i ok =>
      match s.dels[i]? with
      | none => none
      | some call =>
          let r := s.client.delStep ok call
          some { s.transmit r.1 with dels := r.2.advance s.dels i }
  | .processes =>
      match s.wire with
      | [] => none
      | cmd :: rest =>
          some { s with
            wire := rest
            venue := process s.sids s.venue cmd
            answers := s.answers ++ answersTo s.sids s.venue cmd }
  | .answered i =>
      match s.opening, s.answers[i]? with
      | [], some (channel, sid) =>
          some { s with
            client := s.client.subscribedResponse channel sid
            answers := s.answers.eraseIdx i }
      | _, _ => none

/-- What the venue will hold when it has processed everything that is under way. -/
def settled (s : Session) : List Subscription := s.wire.foldl (process s.sids) s.venue

/-- All commands and answers are processed, and no call is under way. -/
structure Quiescent (s : Session) : Prop where
  adds : s.adds = []
  dels : s.dels = []
  wire : s.wire = []
  answers : s.answers = []

end Session

/-- The ticker that a delete call has taken out of the set. -/
def KalshiDel.removed : KalshiDel → Option String
  | .remove _ => none
  | .readSids t | .sendTicker t _ _ | .sendOrderbook t _ => some t

namespace Session

/-- The ticker is in the set, or its command was sent and the insert comes next. -/
def Tracked (s : Session) (t : String) : Prop :=
  t ∈ s.client.subscribedAssets ∨ .insert t ∈ s.adds

/-- A delete call has taken the ticker out of the set and is not finished. -/
def Deleting (s : Session) (t : String) : Prop := ∃ call ∈ s.dels, call.removed = some t

/-! ## §3 Orderly Steps -/

/-- The next step of an add call: a command goes out only when the ticker was not deleted
meanwhile, and opens a subscription only when there is none, or none on its way. -/
def OrderlyAdd (s : Session) : KalshiAdd → Prop
  | .send t cmd =>
      s.latest t = some .add ∧ ¬ s.Deleting t ∧
        (cmd = .subscribe "orderbook_delta" [t] → books s.settled = [])
  | .check _ | .readSid _ | .insert _ => True

/-- The next step of a delete call: not between the command of an add call for the ticker and
its insert, not before the SID of a subscription that holds the ticker is known, and with a
failed send only for a ticker that no subscription holds. -/
def OrderlyDel (s : Session) (ok : Bool) : KalshiDel → Prop
  | .remove t => .insert t ∉ s.adds
  | .readSids t => s.client.orderbookSid = none → ¬ Open s.settled t
  | .sendTicker .. => True
  | .sendOrderbook t _ => ok = false → ¬ Open s.settled t

/-- The step meets the condition of its call. -/
def Orderly (s : Session) : SessionAction → Prop
  | .addStep i ok => ok = true → ∀ call ∈ s.adds[i]?, s.OrderlyAdd call
  | .delStep i ok => ∀ call ∈ s.dels[i]?, s.OrderlyDel ok call
  | .opens | .callAdd _ | .callDel _ | .processes | .answered _ => True

end Session

end Degenerate.Platforms
