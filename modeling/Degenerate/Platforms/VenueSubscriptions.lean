import Degenerate.Platforms.Venue

/-!
# Order-Book Subscriptions of the Kalshi Client

A ticker that is tracked has to be in the recorded subscription to `orderbook_delta`, and one
that was deleted in none.  Client and venue agree on this only when nothing is under way, so
the invariants speak of what the venue will hold once it has processed everything:
`Bookkeeping` is about the subscriptions and their SIDs, `Coverage` about the tickers.

## Main Results

- `Inv.step`: what one step preserves
- `settled_subscriptions`: in every run in which the steps are `Orderly`, once everything is
  processed the tracked tickers are in the recorded subscription and a deleted one is in none
- `second_subscription`: a deleted ticker that stays subscribed
-/

namespace Degenerate.Platforms

open Degenerate.Lib

namespace Session

/-! ## §1 Commands under Way -/

theorem settled_transmit_of_sent_eq {s : Session} {c : KalshiClient}
    (h : c.sent = s.client.sent) : (s.transmit c).settled = s.settled := by
  simp [transmit, settled, h]

/-- A command that is sent will be processed after all the others. -/
theorem settled_transmit_send (s : Session) (cmd : KalshiCommand) :
    (s.transmit (s.client.send cmd)).settled = process s.sids s.settled cmd := by
  have hnew : (s.client.send cmd).sent.length - s.client.sent.length = 1 := by
    simp [KalshiClient.send]
  simp only [settled, transmit, hnew, List.foldl_append]
  rfl

/-- Processing the oldest command changes nothing about what will be held. -/
theorem settled_processes {s : Session} {cmd : KalshiCommand} {rest : List KalshiCommand}
    (h : s.wire = cmd :: rest) :
    rest.foldl (process s.sids) (process s.sids s.venue cmd) = s.settled := by
  rw [settled, h, List.foldl_cons]

/-! ## §2 The Subscriptions and Their SIDs -/

/-- The command of an add call goes to the recorded subscription, or is the first of its
channel. -/
def Addresses (s : Session) (t : String) (cmd : KalshiCommand) : Prop :=
  cmd = .subscribe "orderbook_delta" [t] ∨
    ∃ sid, cmd = .addMarkets sid [t] ∧ s.client.orderbookSid = some sid

/-- A delete call that has read an SID of `orderbook_delta` has read the recorded one. -/
def Informed (s : Session) : KalshiDel → Prop
  | .remove _ | .readSids _ | .sendTicker _ _ none => True
  | .sendTicker _ _ (some osid) | .sendOrderbook _ osid => s.client.orderbookSid = some osid

/-- There is one subscription to `orderbook_delta` at most, and its SID is the only one that
the client can come to know. -/
structure Bookkeeping (s : Session) : Prop where
  single : (books s.settled).length ≤ 1
  recorded : ∀ sid, s.client.orderbookSid = some sid → Sole s.settled sid
  answered : ∀ sid, ("orderbook_delta", sid) ∈ s.answers → Sole s.settled sid
  known : ∀ b ∈ books s.venue,
    ("orderbook_delta", b.sid) ∈ s.answers ∨ s.client.orderbookSid.isSome
  adds : ∀ t cmd, .send t cmd ∈ s.adds → s.Addresses t cmd
  dels : ∀ call ∈ s.dels, s.Informed call

/-- What is tracked is subscribed, and what is subscribed is tracked or about to be closed. -/
structure Coverage (s : Session) : Prop where
  subscribed : ∀ t, s.Tracked t → Open s.settled t
  tracked : ∀ t, Open s.settled t → s.Tracked t ∨ s.Deleting t
  apart : ∀ t, s.Deleting t → ¬ s.Tracked t
  latest : ∀ t, s.latest t = some .del → ¬ s.Tracked t ∨ .remove t ∈ s.dels
  /-- A delete call that has read no SID of `orderbook_delta` has nothing to close. -/
  quiet : ∀ t tsid, .sendTicker t tsid none ∈ s.dels → ¬ Open s.settled t

/-! ## §3 What a Step Does to the Bookkeeping -/

/-- What a delete call has read stays what is recorded. -/
theorem Informed.mono {s s' : Session} {call : KalshiDel} (h : s.Informed call)
    (hkeep : ∀ sid, s.client.orderbookSid = some sid → s'.client.orderbookSid = some sid) :
    s'.Informed call := by
  cases call with
  | remove t => trivial
  | readSids t => trivial
  | sendTicker t tsid osid =>
    cases osid with
    | none => trivial
    | some osid => exact hkeep osid h
  | sendOrderbook t osid => exact hkeep osid h

/-- A step that sends at most one command, and neither processes nor handles anything. -/
theorem Bookkeeping.frame {s s' : Session} (h : s.Bookkeeping)
    (hsettled : s'.settled = s.settled ∨ ∃ cmd, s'.settled = process s.sids s.settled cmd ∧
      ∀ markets, cmd = .subscribe "orderbook_delta" markets → books s.settled = [])
    (hvenue : s'.venue = s.venue) (hanswers : s'.answers = s.answers)
    (hsid : s'.client.orderbookSid = s.client.orderbookSid)
    (hadds : ∀ t cmd, .send t cmd ∈ s'.adds → .send t cmd ∈ s.adds ∨ s.Addresses t cmd)
    (hdels : ∀ call ∈ s'.dels, call ∈ s.dels ∨ s.Informed call) : s'.Bookkeeping := by
  -- a command opens an order book only where none is open
  have hsole : ∀ sid, Sole s.settled sid → Sole s'.settled sid := by
    intro sid hs
    rcases hsettled with heq | ⟨cmd, heq, hopen⟩
    · rwa [heq]
    · rw [heq]
      exact sole_process hopen hs
  constructor
  case single =>
    rcases hsettled with heq | ⟨cmd, heq, hopen⟩
    · rw [heq]
      exact h.single
    · rw [heq]
      exact single_process hopen h.single
  case recorded => exact fun sid hs => hsole sid (h.recorded sid (hsid ▸ hs))
  case answered => exact fun sid hs => hsole sid (h.answered sid (hanswers ▸ hs))
  case known =>
    rw [hvenue, hanswers, hsid]
    exact h.known
  case adds =>
    intro t cmd hmem
    unfold Addresses
    rw [hsid]
    exact (hadds t cmd hmem).elim (h.adds t cmd) id
  case dels =>
    intro call hmem
    exact ((hdels call hmem).elim (h.dels call) id).mono fun sid hs => hsid.trans hs

/-- The command of an add call is one that opens a subscription, or goes to a known one. -/
theorem addresses_orderbookCommand (s : Session) (t : String) :
    s.Addresses t (s.client.orderbookCommand t) := by
  unfold Addresses KalshiClient.orderbookCommand
  cases hsid : s.client.orderbookSid with
  | none => exact Or.inl rfl
  | some sid => exact Or.inr ⟨sid, rfl, rfl⟩

theorem Bookkeeping.opens {s : Session} {channel : String} {rest : List String}
    (h : s.Bookkeeping) (hch : channel ≠ "orderbook_delta") :
    Bookkeeping { s.transmit (s.client.send (.subscribe channel [])) with opening := rest } := by
  apply h.frame
  · refine Or.inr ⟨_, settled_transmit_send s _, ?_⟩
    intro markets heq
    cases heq
    exact absurd rfl hch
  · rfl
  · rfl
  · rfl
  · exact fun t cmd hmem => Or.inl hmem
  · exact fun call hmem => Or.inl hmem

/-- The next phase of an add call is no send, or one of a proper command. -/
theorem addresses_of_next {s : Session} {ok : Bool} {call : KalshiAdd} {t : String}
    {cmd : KalshiCommand} (h : (s.client.addStep ok call).2 = .more (.send t cmd)) :
    s.Addresses t cmd := by
  cases call with
  | check t' =>
    simp only [KalshiClient.addStep] at h
    split at h <;> cases h
  | readSid t' =>
    cases h
    exact s.addresses_orderbookCommand t
  | send t' cmd' => cases ok <;> cases h
  | insert t' => cases h

/-- The next phase of a delete call knows what the client knows. -/
theorem informed_of_next {s : Session} {ok : Bool} {call next : KalshiDel}
    (hcall : s.Informed call) (h : (s.client.delStep ok call).2 = .more next) :
    s.Informed next := by
  cases call with
  | remove t =>
    cases h
    trivial
  | readSids t =>
    -- at the read: the ticker SID, the order-book SID or neither is known
    simp only [KalshiClient.delStep] at h
    split at h
    · cases h
      cases hosid : s.client.orderbookSid with
      | none => trivial
      | some osid => exact hosid
    · rename_i hosid
      cases h
      exact hosid
    · cases h
  | sendTicker t tsid osid =>
    cases osid with
    | none => cases h
    | some osid =>
      cases h
      -- the first send takes the SID of the second along
      exact hcall
  | sendOrderbook t osid => cases h

/-- An add call sends its command in its `send` phase, and nothing in the others. -/
theorem settled_addStep (s : Session) (ok : Bool) (call : KalshiAdd) :
    ((s.transmit (s.client.addStep ok call).1).settled = s.settled ∧
      ∀ t cmd, ok = true → call ≠ .send t cmd) ∨
    ∃ t cmd, call = .send t cmd ∧ ok = true ∧
      (s.transmit (s.client.addStep ok call).1).settled = process s.sids s.settled cmd := by
  cases call with
  | check t =>
    refine Or.inl ⟨settled_transmit_of_sent_eq ?_, fun _ _ _ h => by cases h⟩
    simp only [KalshiClient.addStep]
    split <;> rfl
  | readSid t => exact Or.inl ⟨settled_transmit_of_sent_eq rfl, fun _ _ _ h => by cases h⟩
  | send t cmd =>
    cases ok with
    | false => exact Or.inl ⟨settled_transmit_of_sent_eq rfl, fun _ _ h _ => by cases h⟩
    | true => exact Or.inr ⟨t, cmd, rfl, rfl, settled_transmit_send s cmd⟩
  | insert t => exact Or.inl ⟨settled_transmit_of_sent_eq rfl, fun _ _ _ h => by cases h⟩

/-- A delete call sends `del_markets` for its ticker, if anything. -/
theorem settled_delStep (s : Session) (ok : Bool) (call : KalshiDel) :
    (s.transmit (s.client.delStep ok call).1).settled = s.settled ∨
      ∃ sid, (s.transmit (s.client.delStep ok call).1).settled =
        process s.sids s.settled (.delMarkets sid [call.token]) := by
  cases call with
  | remove t => exact Or.inl (settled_transmit_of_sent_eq rfl)
  | readSids t =>
    apply Or.inl
    apply settled_transmit_of_sent_eq
    simp only [KalshiClient.delStep]
    split <;> rfl
  | sendTicker t tsid osid =>
    cases ok with
    | false => cases osid <;> exact Or.inl (settled_transmit_of_sent_eq rfl)
    | true => cases osid <;> exact Or.inr ⟨tsid, settled_transmit_send s _⟩
  | sendOrderbook t osid =>
    cases ok with
    | false => exact Or.inl (settled_transmit_of_sent_eq rfl)
    | true => exact Or.inr ⟨osid, settled_transmit_send s _⟩

theorem orderbookSid_addStep (c : KalshiClient) (ok : Bool) (call : KalshiAdd) :
    (c.addStep ok call).1.orderbookSid = c.orderbookSid := by
  cases call with
  | check t =>
    simp only [KalshiClient.addStep]
    split <;> rfl
  | readSid t => rfl
  | send t cmd => cases ok <;> rfl
  | insert t => rfl

theorem orderbookSid_delStep (c : KalshiClient) (ok : Bool) (call : KalshiDel) :
    (c.delStep ok call).1.orderbookSid = c.orderbookSid := by
  cases call with
  | remove t => rfl
  | readSids t =>
    simp only [KalshiClient.delStep]
    split <;> rfl
  | sendTicker t tsid osid => cases ok <;> cases osid <;> rfl
  | sendOrderbook t osid => cases ok <;> rfl

theorem Bookkeeping.addStep {s : Session} {i : ℕ} {ok : Bool} {call : KalshiAdd}
    (h : s.Bookkeeping) (hi : s.adds[i]? = some call)
    (horderly : ok = true → s.OrderlyAdd call) :
    Bookkeeping { s.transmit (s.client.addStep ok call).1 with
      adds := (s.client.addStep ok call).2.advance s.adds i } := by
  apply h.frame
  · rcases s.settled_addStep ok call with ⟨heq, -⟩ | ⟨t, cmd, rfl, hok, heq⟩
    · exact Or.inl heq
    · refine Or.inr ⟨cmd, heq, fun markets hopens => ?_⟩
      -- the command is for the ticker of the call, and the condition is about it
      obtain ⟨-, -, hfirst⟩ := horderly hok
      apply hfirst
      rcases h.adds t cmd (List.mem_of_getElem? hi) with hsub | ⟨sid, hadd, -⟩
      · exact hsub
      · rw [hadd] at hopens
        cases hopens
  · rfl
  · rfl
  · exact orderbookSid_addStep ..
  · intro t cmd hmem
    rcases Progress.mem_advance hmem with hmem | hnext
    · exact Or.inl hmem
    · exact Or.inr (addresses_of_next hnext)
  · exact fun call hmem => Or.inl hmem

theorem Bookkeeping.delStep {s : Session} {i : ℕ} {ok : Bool} {call : KalshiDel}
    (h : s.Bookkeeping) (hi : s.dels[i]? = some call) :
    Bookkeeping { s.transmit (s.client.delStep ok call).1 with
      dels := (s.client.delStep ok call).2.advance s.dels i } := by
  apply h.frame
  · rcases s.settled_delStep ok call with heq | ⟨sid, heq⟩
    · exact Or.inl heq
    · exact Or.inr ⟨_, heq, nofun⟩
  · rfl
  · rfl
  · exact orderbookSid_delStep ..
  · exact fun t cmd hmem => Or.inl hmem
  · intro call' hmem
    rcases Progress.mem_advance hmem with hmem | hnext
    · exact Or.inl hmem
    · exact Or.inr (informed_of_next (h.dels call (List.mem_of_getElem? hi)) hnext)

/-! ## §4 Processing and Answers -/

/-- A subscription keeps its SID and its channel. -/
theorem exists_sid_process {sids : ℕ ↪ ℕ} {subs : List Subscription} (cmd : KalshiCommand)
    {b : Subscription} (hb : b ∈ books subs) :
    ∃ b' ∈ books (process sids subs cmd), b'.sid = b.sid := by
  cases cmd with
  | subscribe channel markets =>
    refine ⟨b, ?_, rfl⟩
    rw [process, books_append]
    exact List.mem_append_left _ hb
  | addMarkets sid markets =>
    refine ⟨_, ?_, b.sid_update sid (· ∪ markets.toFinset)⟩
    rw [process, books_map_update]
    exact List.mem_map_of_mem hb
  | delMarkets sid markets =>
    refine ⟨_, ?_, b.sid_update sid (· \ markets.toFinset)⟩
    rw [process, books_map_update]
    exact List.mem_map_of_mem hb

theorem exists_sid_foldl {sids : ℕ ↪ ℕ} (cmds : List KalshiCommand) {subs : List Subscription}
    {b : Subscription} (hb : b ∈ books subs) :
    ∃ b' ∈ books (cmds.foldl (process sids) subs), b'.sid = b.sid := by
  induction cmds generalizing subs b with
  | nil => exact ⟨b, hb, rfl⟩
  | cons cmd cmds ih =>
    obtain ⟨b', hb', hsid⟩ := exists_sid_process cmd hb
    obtain ⟨b'', hb'', hsid'⟩ := ih hb'
    exact ⟨b'', hb'', hsid'.trans hsid⟩

theorem sole_of_mem {subs : List Subscription} (h : (books subs).length ≤ 1) {b : Subscription}
    (hb : b ∈ books subs) : Sole subs b.sid := by
  refine ⟨b, ?_, rfl⟩
  obtain ⟨a, ha⟩ := List.length_eq_one_iff.mp
    (le_antisymm h (List.length_pos_iff.mpr (List.ne_nil_of_mem hb)))
  rw [ha] at hb ⊢
  rw [List.mem_singleton.mp hb]

/-- A subscription that is new to the venue has its answer under way. -/
theorem answered_of_process {sids : ℕ ↪ ℕ} {subs : List Subscription} {cmd : KalshiCommand}
    {b : Subscription} (hb : b ∈ books (process sids subs cmd)) :
    (∃ b' ∈ books subs, b'.sid = b.sid) ∨
      ("orderbook_delta", b.sid) ∈ answersTo sids subs cmd := by
  cases cmd with
  | subscribe channel markets =>
    rw [process, books_append] at hb
    rcases List.mem_append.mp hb with hb | hb
    · exact Or.inl ⟨b, hb, rfl⟩
    · obtain ⟨hb, hch⟩ := List.mem_filter.mp hb
      obtain rfl := List.mem_singleton.mp hb
      have hch' : channel = "orderbook_delta" := of_decide_eq_true hch
      rw [hch']
      exact Or.inr (List.mem_singleton_self _)
  | addMarkets sid markets =>
    rw [process, books_map_update] at hb
    obtain ⟨b', hb', rfl⟩ := List.mem_map.mp hb
    exact Or.inl ⟨b', hb', (b'.sid_update ..).symm⟩
  | delMarkets sid markets =>
    rw [process, books_map_update] at hb
    obtain ⟨b', hb', rfl⟩ := List.mem_map.mp hb
    exact Or.inl ⟨b', hb', (b'.sid_update ..).symm⟩

/-- An answer is about a subscription that is there. -/
theorem exists_of_answered {sids : ℕ ↪ ℕ} {subs : List Subscription} {cmd : KalshiCommand}
    {sid : ℕ} (h : ("orderbook_delta", sid) ∈ answersTo sids subs cmd) :
    ∃ b ∈ books (process sids subs cmd), b.sid = sid := by
  cases cmd with
  | subscribe channel markets =>
    cases List.mem_singleton.mp h
    refine ⟨{ sid := _, channel := "orderbook_delta", markets := markets.toFinset }, ?_, rfl⟩
    rw [process, books_append]
    exact List.mem_append_right _ (by simp [books])
  | addMarkets sid' markets => cases h
  | delMarkets sid' markets => cases h

theorem Bookkeeping.processes {s : Session} {cmd : KalshiCommand} {rest : List KalshiCommand}
    (h : s.Bookkeeping) (hw : s.wire = cmd :: rest) :
    Bookkeeping { s with
      wire := rest
      venue := process s.sids s.venue cmd
      answers := s.answers ++ answersTo s.sids s.venue cmd } := by
  have hsettled := settled_processes hw
  refine { h with single := ?_, recorded := ?_, answered := ?_, known := ?_ }
  · show (books (rest.foldl (process s.sids) (process s.sids s.venue cmd))).length ≤ 1
    rw [hsettled]
    exact h.single
  · intro sid hsid
    show Sole (rest.foldl (process s.sids) (process s.sids s.venue cmd)) sid
    rw [hsettled]
    exact h.recorded sid hsid
  · intro sid hmem
    show Sole (rest.foldl (process s.sids) (process s.sids s.venue cmd)) sid
    rw [hsettled]
    rcases List.mem_append.mp hmem with hmem | hmem
    · exact h.answered sid hmem
    · -- a new answer: the subscription is the only one
      obtain ⟨b, hb, hsid⟩ := exists_of_answered hmem
      obtain ⟨b', hb', hsid'⟩ := @exists_sid_foldl s.sids rest _ _ hb
      rw [hsettled] at hb'
      rw [← hsid, ← hsid']
      exact sole_of_mem h.single hb'
  · intro b hb
    rcases answered_of_process hb with ⟨b', hb', hsid⟩ | hmem
    · rw [← hsid]
      exact (h.known b' hb').imp_left (List.mem_append_left _)
    · exact Or.inl (List.mem_append_right _ hmem)

/-- The first SID of the channel is kept. -/
theorem orderbookSid_subscribedResponse (c : KalshiClient) (channel : String) (sid : ℕ) :
    (c.subscribedResponse channel sid).orderbookSid =
      if channel = "orderbook_delta" then c.orderbookSid.or (some sid) else c.orderbookSid := by
  unfold KalshiClient.subscribedResponse
  by_cases ht : channel = "ticker"
  · subst ht
    have hne : "ticker" ≠ "orderbook_delta" := by decide
    rw [if_pos rfl, if_neg hne]
    split <;> rfl
  · rw [if_neg ht]
    by_cases hb : channel = "orderbook_delta"
    · rw [if_pos hb, if_pos hb]
      cases hsid : c.orderbookSid with
      | none => rfl
      | some osid => simp [hsid]
    · rw [if_neg hb, if_neg hb]

theorem Bookkeeping.answeredStep {s : Session} {i : ℕ} {channel : String} {sid : ℕ}
    (h : s.Bookkeeping) (hi : s.answers[i]? = some (channel, sid)) :
    Bookkeeping { s with
      client := s.client.subscribedResponse channel sid
      answers := s.answers.eraseIdx i } := by
  have hsid := orderbookSid_subscribedResponse s.client channel sid
  -- a SID that is known stays
  have hkeep : ∀ sid', s.client.orderbookSid = some sid' →
      (s.client.subscribedResponse channel sid).orderbookSid = some sid' := by
    intro sid' hs
    rw [hsid, hs]
    split <;> rfl
  have hmem := List.mem_of_getElem? hi
  constructor
  case single => exact h.single
  case recorded =>
    intro sid' hs
    cases hold : s.client.orderbookSid with
    | some osid =>
      obtain rfl : osid = sid' := Option.some.inj ((hkeep osid hold).symm.trans hs)
      exact h.recorded osid hold
    | none =>
      -- the first answer of the channel
      have hnew : (if channel = "orderbook_delta" then some sid else none) = some sid' := by
        rw [← hs, hsid, hold]
        rfl
      split at hnew
      · rename_i hch
        obtain rfl := Option.some.inj hnew
        exact h.answered sid (hch ▸ hmem)
      · cases hnew
  case answered =>
    exact fun sid' hmem => h.answered sid' (List.mem_of_mem_eraseIdx hmem)
  case known =>
    intro b hb
    rcases h.known b hb with hans | hsome
    · rcases (Progress.done true).mem_advance_of_mem hi hans with heq | hans
      · -- this answer is handled now
        refine Or.inr ?_
        obtain ⟨rfl, -⟩ := Prod.mk.inj heq
        show (s.client.subscribedResponse _ sid).orderbookSid.isSome
        rw [hsid, if_pos rfl]
        cases s.client.orderbookSid <;> rfl
      · exact Or.inl hans
    · obtain ⟨osid, hold⟩ := Option.isSome_iff_exists.mp hsome
      exact Or.inr (Option.isSome_iff_exists.mpr ⟨osid, hkeep osid hold⟩)
  case adds =>
    intro t cmd hmem
    refine (h.adds t cmd hmem).imp_right ?_
    intro ⟨sid', hcmd, hs⟩
    exact ⟨sid', hcmd, hkeep sid' hs⟩
  case dels => exact fun call hmem => (h.dels call hmem).mono hkeep

/-! ## §5 What a Step Does to the Coverage -/

/-- A call that is neither the one that took the step nor its next phase. -/
theorem mem_advance_iff {φ : Type*} {r : Progress φ} {calls : List φ} {i : ℕ} {call x : φ}
    (hi : calls[i]? = some call) (hne : x ≠ call) :
    x ∈ r.advance calls i ↔ x ∈ calls ∨ r = .more x := by
  constructor
  · exact Progress.mem_advance
  · rintro (hx | rfl)
    · exact (r.mem_advance_of_mem hi hx).resolve_left hne
    · exact Progress.next_mem_advance hi

/-- The tickers that an add call makes tracked: the one whose command it sends. -/
theorem tracked_addStep {s : Session} {i : ℕ} {ok : Bool} {call : KalshiAdd}
    (hi : s.adds[i]? = some call) (t : String) :
    Tracked { s.transmit (s.client.addStep ok call).1 with
        adds := (s.client.addStep ok call).2.advance s.adds i } t ↔
      s.Tracked t ∨ ok = true ∧ ∃ cmd, call = .send t cmd := by
  show t ∈ (s.client.addStep ok call).1.subscribedAssets ∨
    .insert t ∈ (s.client.addStep ok call).2.advance s.adds i ↔
      (t ∈ s.client.subscribedAssets ∨ .insert t ∈ s.adds) ∨ _
  -- any phase but the insertion itself is tracked through the list of calls
  have hother : .insert t ≠ call → (.insert t ∈ (s.client.addStep ok call).2.advance s.adds i ↔
      .insert t ∈ s.adds ∨ (s.client.addStep ok call).2 = .more (.insert t)) :=
    fun hne => mem_advance_iff hi hne
  cases call with
  | check t' =>
    rw [hother (fun h => by cases h)]
    simp only [KalshiClient.addStep]
    split <;> simp
  | readSid t' =>
    rw [hother (fun h => by cases h)]
    simp [KalshiClient.addStep]
  | send t' cmd =>
    rw [hother (fun h => by cases h)]
    cases ok with
    | false => simp [KalshiClient.addStep]
    | true => simp [KalshiClient.addStep, KalshiClient.send, or_assoc, eq_comm]
  | insert t' =>
    -- the insertion moves its ticker from the calls to the set
    have hmem := List.mem_of_getElem? hi
    by_cases ht : t = t'
    · subst ht
      simp [KalshiClient.addStep, hmem]
    · rw [hother fun he => ht (KalshiAdd.insert.inj he)]
      simp [KalshiClient.addStep, ht]

/-- An add call opens the ticker whose command it sends. -/
theorem open_addStep {s : Session} {i : ℕ} {ok : Bool} {call : KalshiAdd} (hb : s.Bookkeeping)
    (hi : s.adds[i]? = some call) (t : String) :
    Open (s.transmit (s.client.addStep ok call).1).settled t ↔
      Open s.settled t ∨ ok = true ∧ ∃ cmd, call = .send t cmd := by
  rcases s.settled_addStep ok call with ⟨heq, hno⟩ | ⟨t', cmd, rfl, hok, heq⟩
  · rw [heq]
    refine (or_iff_left ?_).symm
    intro ⟨hok, cmd, hcall⟩
    exact hno t cmd hok hcall
  · have hsame : (ok = true ∧ ∃ cmd', KalshiAdd.send t' cmd = .send t cmd') ↔ t = t' := by
      simp [hok, eq_comm]
    rw [heq, hsame]
    rcases hb.adds t' cmd (List.mem_of_getElem? hi) with rfl | ⟨sid, rfl, hsid⟩
    · exact open_process_subscribe
    · exact open_process_addMarkets (hb.recorded sid hsid)

theorem Coverage.addStep {s : Session} {i : ℕ} {ok : Bool} {call : KalshiAdd}
    (h : s.Coverage) (hb : s.Bookkeeping) (hi : s.adds[i]? = some call)
    (horderly : ok = true → s.OrderlyAdd call) :
    Coverage { s.transmit (s.client.addStep ok call).1 with
      adds := (s.client.addStep ok call).2.advance s.adds i } := by
  have hopen := @open_addStep s i ok call hb hi
  have htracked := @tracked_addStep s i ok call hi
  -- the ticker that is sent was added last and is not being deleted
  have hsend : ∀ t, (ok = true ∧ ∃ cmd, call = .send t cmd) →
      s.latest t = some .add ∧ ¬ s.Deleting t := by
    intro t ⟨hok, cmd, hcall⟩
    have := horderly hok
    rw [hcall] at this
    exact ⟨this.1, this.2.1⟩
  constructor
  case subscribed =>
    intro t ht
    exact (hopen t).mpr (((htracked t).mp ht).imp_left (h.subscribed t))
  case tracked =>
    intro t ht
    rcases (hopen t).mp ht with ht | ht
    · exact (h.tracked t ht).imp_left fun htr => (htracked t).mpr (Or.inl htr)
    · exact Or.inl ((htracked t).mpr (Or.inr ht))
  case apart =>
    intro t hdel ht
    rcases (htracked t).mp ht with ht | ht
    · exact h.apart t hdel ht
    · exact (hsend t ht).2 hdel
  case latest =>
    intro t hlast
    refine (h.latest t hlast).imp_left fun hno ht => ?_
    rcases (htracked t).mp ht with ht | ht
    · exact hno ht
    · cases hlast.symm.trans (hsend t ht).1
  case quiet =>
    intro t tsid hmem ht
    rcases (hopen t).mp ht with ht | ht
    · exact h.quiet t tsid hmem ht
    · exact (hsend t ht).2 ⟨_, hmem, rfl⟩

/-! ## §6 Delete Calls -/

/-- The tickers that a delete call leaves tracked: all but the one it removes. -/
theorem tracked_delStep {s : Session} {i : ℕ} {ok : Bool} {call : KalshiDel}
    (hi : s.dels[i]? = some call) (horderly : s.OrderlyDel ok call) (t : String) :
    Tracked { s.transmit (s.client.delStep ok call).1 with
        dels := (s.client.delStep ok call).2.advance s.dels i } t ↔
      s.Tracked t ∧ call ≠ .remove t := by
  show t ∈ (s.client.delStep ok call).1.subscribedAssets ∨ .insert t ∈ s.adds ↔ _
  cases call with
  | remove t' =>
    by_cases ht : t = t'
    · subst ht
      have hno : .insert t ∉ s.adds := horderly
      simp [KalshiClient.delStep, hno]
    · simp [KalshiClient.delStep, ht, Ne.symm ht, Tracked]
  | readSids t' =>
    simp only [KalshiClient.delStep]
    split <;> simp [Tracked]
  | sendTicker t' tsid osid =>
    cases ok <;> cases osid <;> simp [KalshiClient.delStep, KalshiClient.send, Tracked]
  | sendOrderbook t' osid =>
    cases ok <;> simp [KalshiClient.delStep, KalshiClient.send, Tracked]

/-- Nothing is opened by a delete call. -/
theorem open_of_delStep {s : Session} {ok : Bool} {call : KalshiDel} {t : String}
    (h : Open (s.transmit (s.client.delStep ok call).1).settled t) : Open s.settled t := by
  rcases s.settled_delStep ok call with heq | ⟨sid, heq⟩
  · rwa [heq] at h
  · rw [heq] at h
    exact open_of_process_delMarkets h

/-- A delete call touches no other ticker. -/
theorem open_delStep_of_ne {s : Session} {ok : Bool} {call : KalshiDel} {t : String}
    (h : Open s.settled t) (hne : t ≠ call.token) :
    Open (s.transmit (s.client.delStep ok call).1).settled t := by
  rcases s.settled_delStep ok call with heq | ⟨sid, heq⟩
  · rwa [heq]
  · rw [heq]
    exact h.process_delMarkets hne

/-- When a delete call ends, or goes on without an SID to address, its ticker is closed. -/
theorem closed_delStep {s : Session} {i : ℕ} {ok : Bool} {call : KalshiDel} {t : String}
    (h : s.Coverage) (hb : s.Bookkeeping) (hi : s.dels[i]? = some call)
    (horderly : s.OrderlyDel ok call) (hcall : call.removed = some t)
    (hend : ∀ next, (s.client.delStep ok call).2 = .more next → next.removed ≠ some t) :
    ¬ Open (s.transmit (s.client.delStep ok call).1).settled t := by
  have hmem := List.mem_of_getElem? hi
  cases call with
  | remove t' => cases hcall
  | readSids t' =>
    cases hcall
    intro ht
    -- with a known order-book SID the call would go on
    have hnone : s.client.orderbookSid = none := by
      cases hosid : s.client.orderbookSid with
      | none => rfl
      | some osid =>
        cases htsid : s.client.tickerSid with
        | none =>
          refine absurd rfl (hend (.sendOrderbook t osid) ?_)
          simp only [KalshiClient.delStep, htsid, hosid]
        | some tsid =>
          refine absurd rfl (hend (.sendTicker t tsid s.client.orderbookSid) ?_)
          simp only [KalshiClient.delStep, htsid]
    exact horderly hnone (open_of_delStep ht)
  | sendTicker t' tsid osid =>
    cases hcall
    -- without an order-book SID there is nothing to close
    cases osid with
    | none => exact fun ht => h.quiet t tsid hmem (open_of_delStep ht)
    | some osid => exact absurd rfl (hend _ rfl)
  | sendOrderbook t' osid =>
    cases hcall
    -- the last command takes the ticker out of the only subscription
    cases ok with
    | false => exact fun ht => horderly rfl (open_of_delStep ht)
    | true =>
      have hsole : Sole s.settled osid := hb.recorded osid (hb.dels _ hmem)
      show ¬ Open (s.transmit (s.client.send (.delMarkets osid [t]))).settled t
      rw [settled_transmit_send, open_process_delMarkets hsole]
      exact fun ht => ht.2 rfl

/-- The tickers that are being deleted after a step of a delete call. -/
theorem deleting_of_delStep {s : Session} {i : ℕ} {ok : Bool} {call : KalshiDel}
    (hi : s.dels[i]? = some call) {t : String}
    (h : ∃ c ∈ (s.client.delStep ok call).2.advance s.dels i, c.removed = some t) :
    s.Deleting t ∨ call = .remove t := by
  obtain ⟨c, hc, hremoved⟩ := h
  rcases Progress.mem_advance hc with hc | hnext
  · exact Or.inl ⟨c, hc, hremoved⟩
  · -- the next phase is about the ticker of the call
    have htoken := KalshiClient.delStep_token hnext
    cases call with
    | remove t' =>
      cases hnext
      cases hremoved
      exact Or.inr rfl
    | readSids t' =>
      refine Or.inl ⟨_, List.mem_of_getElem? hi, ?_⟩
      cases c <;> cases hremoved <;> cases htoken <;> rfl
    | sendTicker t' tsid osid =>
      refine Or.inl ⟨_, List.mem_of_getElem? hi, ?_⟩
      cases c <;> cases hremoved <;> cases htoken <;> rfl
    | sendOrderbook t' osid => cases hnext

theorem Coverage.delStep {s : Session} {i : ℕ} {ok : Bool} {call : KalshiDel}
    (h : s.Coverage) (hb : s.Bookkeeping) (hi : s.dels[i]? = some call)
    (horderly : s.OrderlyDel ok call) :
    Coverage { s.transmit (s.client.delStep ok call).1 with
      dels := (s.client.delStep ok call).2.advance s.dels i } := by
  have hmem := List.mem_of_getElem? hi
  have htracked := tracked_delStep hi horderly
  constructor
  case subscribed =>
    intro t ht
    obtain ⟨ht, hcall⟩ := (htracked t).mp ht
    refine open_delStep_of_ne (h.subscribed t ht) fun htoken => ?_
    -- a ticker that is being deleted is not tracked
    have hdel : s.Deleting t := by
      refine ⟨call, hmem, ?_⟩
      cases call with
      | remove t' => exact absurd (congrArg KalshiDel.remove htoken.symm) hcall
      | readSids t' => exact congrArg some htoken.symm
      | sendTicker t' tsid osid => exact congrArg some htoken.symm
      | sendOrderbook t' osid => exact congrArg some htoken.symm
    exact h.apart t hdel ht
  case tracked =>
    intro t ht
    -- an open ticker is tracked or being deleted
    rcases h.tracked t (open_of_delStep ht) with htr | ⟨c, hc, hremoved⟩
    · by_cases hcall : call = .remove t
      · subst hcall
        exact Or.inr ⟨.readSids t, Progress.next_mem_advance hi, rfl⟩
      · exact Or.inl ((htracked t).mpr ⟨htr, hcall⟩)
    · rcases (s.client.delStep ok call).2.mem_advance_of_mem hi hc with rfl | hc
      · -- the call that moved ends only with its ticker closed
        by_contra hno
        refine closed_delStep h hb hi horderly hremoved (fun next hnext hr => ?_) ht
        apply hno
        refine Or.inr ⟨next, ?_, hr⟩
        show next ∈ (s.client.delStep ok c).2.advance s.dels i
        rw [hnext]
        exact Progress.next_mem_advance hi
      · exact Or.inr ⟨c, hc, hremoved⟩
  case apart =>
    intro t hdel ht
    obtain ⟨ht, hcall⟩ := (htracked t).mp ht
    exact h.apart t ((deleting_of_delStep hi hdel).resolve_right hcall) ht
  case latest =>
    -- the newest call: a deletion that is yet to remove the ticker, or has removed it
    intro t hlast
    rcases h.latest t hlast with hno | hremove
    · exact Or.inl fun ht => hno ((htracked t).mp ht).1
    · rcases (s.client.delStep ok call).2.mem_advance_of_mem hi hremove with hcall | hremove
      · exact Or.inl fun ht => ((htracked t).mp ht).2 hcall.symm
      · exact Or.inr hremove
  case quiet =>
    intro t tsid hquiet ht
    rcases Progress.mem_advance hquiet with hquiet | hnext
    · exact h.quiet t tsid hquiet (open_of_delStep ht)
    · cases call with
      | remove t' => cases hnext
      -- the call that becomes quiet found no order-book SID
      | readSids t' =>
        simp only [KalshiClient.delStep] at hnext
        split at hnext
        · injection hnext with hnext
          injection hnext with htoken _ hnone
          subst htoken
          exact horderly hnone (open_of_delStep ht)
        · cases hnext
        · cases hnext
      | sendTicker t' tsid' osid => cases osid <;> cases hnext
      | sendOrderbook t' osid => cases hnext

/-! ## §7 Runs -/

/-- The three invariants; `run_kalshi` itself subscribes no order book. -/
structure Inv (s : Session) : Prop where
  channels : ∀ channel ∈ s.opening, channel ≠ "orderbook_delta"
  bookkeeping : s.Bookkeeping
  coverage : s.Coverage

theorem inv_start (sids : ℕ ↪ ℕ) : Inv { sids } where
  channels := by
    show ∀ channel ∈ ["market_lifecycle_v2", "ticker"], channel ≠ "orderbook_delta"
    decide
  bookkeeping := ⟨Nat.zero_le 1, nofun, nofun, nofun, nofun, nofun⟩
  coverage := by
    refine ⟨fun t ht => ?_, fun t ⟨b, hb, _⟩ => ?_, fun t ⟨c, hc, _⟩ => ?_, nofun, nofun⟩
    · exact absurd ht (by simp [Tracked])
    · cases hb
    · cases hc

/-- A step after which the same tickers are tracked, being deleted and subscribed. -/
theorem Coverage.congr {s s' : Session} (h : s.Coverage)
    (htracked : ∀ t, s'.Tracked t ↔ s.Tracked t)
    (hdeleting : ∀ t, s'.Deleting t ↔ s.Deleting t)
    (hopen : ∀ t, Open s'.settled t ↔ Open s.settled t)
    (hlatest : ∀ t, s'.latest t = some .del →
      .remove t ∈ s'.dels ∨ s.latest t = some .del ∧ (.remove t ∈ s.dels → .remove t ∈ s'.dels))
    (hquiet : ∀ t tsid, .sendTicker t tsid none ∈ s'.dels → .sendTicker t tsid none ∈ s.dels) :
    s'.Coverage := by
  constructor
  case subscribed => exact fun t ht => (hopen t).mpr (h.subscribed t ((htracked t).mp ht))
  case tracked =>
    intro t ht
    rw [htracked, hdeleting]
    exact h.tracked t ((hopen t).mp ht)
  case apart =>
    intro t hdel
    rw [htracked]
    exact h.apart t ((hdeleting t).mp hdel)
  case latest =>
    intro t hlast
    rw [htracked]
    rcases hlatest t hlast with hmem | ⟨hlast, hkeep⟩
    · exact Or.inr hmem
    · exact (h.latest t hlast).imp_right hkeep
  case quiet =>
    intro t tsid hmem
    rw [hopen]
    exact h.quiet t tsid (hquiet t tsid hmem)

/-- **One step** that is orderly preserves the invariants. -/
theorem Inv.step {s s' : Session} {a : SessionAction} (h : Inv s) (horderly : s.Orderly a)
    (hs : s.step a = some s') : Inv s' := by
  obtain ⟨hch, hb, hc⟩ := h
  cases a with
  | opens =>
    simp only [Session.step] at hs
    split at hs
    · cases hs
    · rename_i channel rest hopening
      cases hs
      rw [hopening] at hch
      -- a channel opened at the start of the session is not `orderbook_delta`
      have hne := hch channel (List.mem_cons_self ..)
      refine ⟨fun c hmem => hch c (List.mem_cons_of_mem _ hmem), hb.opens hne, ?_⟩
      refine hc.congr (fun t => Iff.rfl) (fun t => Iff.rfl) (fun t => ?_)
        (fun t hlast => Or.inr ⟨hlast, id⟩) (fun t tsid hmem => hmem)
      show Open (s.transmit (s.client.send (.subscribe channel []))).settled t ↔ _
      rw [settled_transmit_send, Open, books_process_of_ne hne]
      rfl
  | callAdd ticker =>
    cases hs
    -- the new call is at its check: it has sent nothing, and is about to insert nothing
    have hsame : ∀ t, .insert t ∈ s.adds ++ [.check ticker] ↔ .insert t ∈ s.adds := by simp
    refine ⟨hch, ?_, ?_⟩
    · refine hb.frame (Or.inl rfl) rfl rfl rfl (fun t cmd hmem => ?_) (fun c hmem => Or.inl hmem)
      exact Or.inl (by simpa using hmem)
    · refine hc.congr (fun t => or_congr Iff.rfl (hsame t)) (fun t => Iff.rfl) (fun t => Iff.rfl)
        (fun t hlast => Or.inr ⟨?_, id⟩) (fun t tsid hmem => hmem)
      -- the latest call of the ticker is not a delete any more
      rcases PMap.insert_eq_some.mp hlast with ⟨-, heq⟩ | ⟨-, hlast⟩
      · cases heq
      · exact hlast
  | addStep i ok =>
    simp only [Session.step] at hs
    split at hs
    · cases hs
    · rename_i call hi
      cases hs
      have hcall : ok = true → s.OrderlyAdd call := fun hok => horderly hok call hi
      exact ⟨hch, hb.addStep hi hcall, hc.addStep hb hi hcall⟩
  | callDel ticker =>
    cases hs
    refine ⟨hch, ?_, ?_⟩
    · refine hb.frame (Or.inl rfl) rfl rfl rfl (fun t cmd hmem => Or.inl hmem) (fun c hmem => ?_)
      rcases List.mem_append.mp hmem with hmem | hmem
      · exact Or.inl hmem
      · cases List.mem_singleton.mp hmem
        exact Or.inr trivial
    -- a delete that has just been called still has to take its ticker out
    · refine hc.congr (fun t => Iff.rfl) (fun t => ?_) (fun t => Iff.rfl) (fun t hlast => ?_)
        (fun t tsid hmem => by simpa using hmem)
      · simp [Deleting, or_and_right, exists_or, KalshiDel.removed]
      · rcases PMap.insert_eq_some.mp hlast with ⟨rfl, -⟩ | ⟨-, hlast⟩
        · exact Or.inl (List.mem_append_right _ (List.mem_singleton_self _))
        · exact Or.inr ⟨hlast, List.mem_append_left _⟩
  | delStep i ok =>
    simp only [Session.step] at hs
    split at hs
    · cases hs
    · rename_i call hi
      cases hs
      have hcall : s.OrderlyDel ok call := horderly call hi
      exact ⟨hch, hb.delStep hi, hc.delStep hb hi hcall⟩
  | processes =>
    simp only [Session.step] at hs
    split at hs
    · cases hs
    · rename_i cmd rest hw
      cases hs
      refine ⟨hch, hb.processes hw, ?_⟩
      refine hc.congr (fun t => Iff.rfl) (fun t => Iff.rfl) (fun t => ?_)
        (fun t hlast => Or.inr ⟨hlast, id⟩) (fun t tsid hmem => hmem)
      -- a command that the venue takes was on its way, so the books that settle are the same
      rw [← settled_processes hw]
      rfl
  | answered i =>
    simp only [Session.step] at hs
    split at hs
    · rename_i channel sid _ hi
      cases hs
      refine ⟨hch, hb.answeredStep hi, ?_⟩
      -- an answer records a SID, and tracks nothing
      refine hc.congr (fun t => ?_) (fun t => Iff.rfl) (fun t => Iff.rfl)
        (fun t hlast => Or.inr ⟨hlast, id⟩) (fun t tsid hmem => hmem)
      rw [Tracked, KalshiClient.subscribedAssets_subscribedResponse]
      rfl
    · cases hs

/-- **Deleted tickers hold no subscription.**  In every run in which the steps are orderly, when
all commands and answers are processed: a ticker whose last call is a delete is in no
subscription to `orderbook_delta`, and a tracked ticker is in the recorded one. -/
theorem settled_subscriptions (sids : ℕ ↪ ℕ) {as : List SessionAction} {s : Session}
    (horderly : Along Session.step Orderly { sids } as)
    (hrun : run Session.step { sids } as = some s) (hq : s.Quiescent) (t : String) :
    (s.latest t = some .del →
      ∀ sub ∈ s.venue, sub.channel = "orderbook_delta" → t ∉ sub.markets) ∧
    (t ∈ s.client.subscribedAssets →
      ∃ sub ∈ s.venue, sub.channel = "orderbook_delta" ∧ t ∈ sub.markets ∧
        s.client.orderbookSid = some sub.sid) := by
  obtain ⟨-, hb, hc⟩ :=
    run_invariant_along (fun _ _ _ hi hp hs => Inv.step hi hp hs) (inv_start sids) horderly hrun
  have hsettled : s.settled = s.venue := by rw [settled, hq.wire, List.foldl_nil]
  constructor
  · intro hlast sub hsub hch hmem
    have hopen : Open s.settled t := by
      rw [hsettled]
      exact ⟨sub, List.mem_filter.mpr ⟨hsub, decide_eq_true hch⟩, hmem⟩
    -- no call is under way that could still close it
    have htracked : s.Tracked t := by
      refine (hc.tracked t hopen).resolve_right ?_
      rintro ⟨c, hcall, -⟩
      simp [hq.dels] at hcall
    rcases hc.latest t hlast with hno | hremove
    · exact hno htracked
    · simp [hq.dels] at hremove
  · intro hmem
    obtain ⟨sub, hsub, ht⟩ := hc.subscribed t (Or.inl hmem)
    rw [hsettled] at hsub
    have hknown : s.client.orderbookSid.isSome := by
      refine (hb.known sub hsub).resolve_left ?_
      simp [hq.answers]
    obtain ⟨sid, hsid⟩ := Option.isSome_iff_exists.mp hknown
    -- the recorded subscription is the only one
    obtain ⟨b, hone, hbsid⟩ := hb.recorded sid hsid
    rw [hsettled] at hone
    have hsame : sub = b := by
      rw [hone] at hsub
      exact List.mem_singleton.mp hsub
    obtain ⟨hvenue, hch⟩ := List.mem_filter.mp hsub
    exact ⟨sub, hvenue, of_decide_eq_true hch, ht, by rw [hsid, hsame, hbsid]⟩

/-! ### Two Runs -/

instance (s : Session) (t : String) : Decidable (s.Deleting t) :=
  inferInstanceAs (Decidable (∃ call ∈ s.dels, call.removed = some t))

instance (s : Session) : ∀ call, Decidable (s.OrderlyAdd call)
  | .send t cmd => inferInstanceAs (Decidable (s.latest t = some .add ∧ ¬ s.Deleting t ∧
      (cmd = .subscribe "orderbook_delta" [t] → books s.settled = [])))
  | .check _ | .readSid _ | .insert _ => .isTrue trivial

instance (s : Session) (ok : Bool) : ∀ call, Decidable (s.OrderlyDel ok call)
  | .remove t => inferInstanceAs (Decidable (.insert t ∉ s.adds))
  | .readSids t =>
      inferInstanceAs (Decidable (s.client.orderbookSid = none → ¬ Open s.settled t))
  | .sendTicker .. => .isTrue trivial
  | .sendOrderbook t _ => inferInstanceAs (Decidable (ok = false → ¬ Open s.settled t))

instance (s : Session) : ∀ a, Decidable (s.Orderly a)
  | .addStep i ok =>
      inferInstanceAs (Decidable (ok = true → ∀ call ∈ s.adds[i]?, s.OrderlyAdd call))
  | .delStep i ok => inferInstanceAs (Decidable (∀ call ∈ s.dels[i]?, s.OrderlyDel ok call))
  | .opens | .callAdd _ | .callDel _ | .processes | .answered _ => .isTrue trivial

instance (s : Session) : Decidable s.Quiescent :=
  decidable_of_iff (s.adds = [] ∧ s.dels = [] ∧ s.wire = [] ∧ s.answers = [])
    ⟨fun h => ⟨h.1, h.2.1, h.2.2.1, h.2.2.2⟩, fun h => ⟨h.adds, h.dels, h.wire, h.answers⟩⟩

/-- The SIDs `0`, `1`, `2` and so on. -/
def countingSids : ℕ ↪ ℕ := Function.Embedding.refl ℕ

/-- `run_kalshi` subscribes its two channels and has the answers. -/
def openingSteps : List SessionAction :=
  [.opens, .opens, .processes, .processes, .answered 0, .answered 0]

/-- A call of `add_market_ticker` up to its insert. -/
def addCall (ticker : String) : List SessionAction :=
  .callAdd ticker :: List.replicate 4 (.addStep 0 true)

/-- A call of `del_market_ticker` after the SIDs are known. -/
def delCall (ticker : String) : List SessionAction :=
  .callDel ticker :: List.replicate 4 (.delStep 0 true)

/-- Two markets are added, each after the answer to the one before, and the first is deleted. -/
def patientSteps : List SessionAction :=
  openingSteps ++ addCall "K1" ++ [.processes, .answered 0] ++ addCall "K2" ++ [.processes] ++
    delCall "K1" ++ [.processes, .processes]

/-- The deleted market is in no subscription, the other in the recorded one. -/
theorem settled_subscriptions_patient :
    ∃ s, run Session.step { sids := countingSids } patientSteps = some s ∧
      (∀ sub ∈ s.venue, sub.channel = "orderbook_delta" → "K1" ∉ sub.markets) ∧
      ∃ sub ∈ s.venue, sub.channel = "orderbook_delta" ∧ "K2" ∈ sub.markets ∧
        s.client.orderbookSid = some sub.sid := by
  have hrun : (run Session.step { sids := countingSids } patientSteps).any (fun s =>
      decide (s.Quiescent ∧ s.latest "K1" = some .del ∧ "K2" ∈ s.client.subscribedAssets)) =
        true := by
    decide +kernel
  obtain ⟨s, hs, hcheck⟩ := (Option.any_eq_true _ _).mp hrun
  obtain ⟨hq, hlast, hmem⟩ := of_decide_eq_true hcheck
  have horderly : Along Session.step Orderly { sids := countingSids } patientSteps := by
    decide +kernel
  exact ⟨s, hs, (settled_subscriptions countingSids horderly hs hq "K1").1 hlast,
    (settled_subscriptions countingSids horderly hs hq "K2").2 hmem⟩

/-- Two markets are added before the venue answers, and the second is deleted. -/
def hastySteps : List SessionAction :=
  openingSteps ++ addCall "K1" ++ addCall "K2" ++
    [.processes, .processes, .answered 0, .answered 0] ++
    delCall "K2" ++ [.processes, .processes]

/-- **A deleted ticker that stays subscribed**: the second market opened a subscription of its
own, whose SID is ignored, and is deleted from the first. -/
theorem second_subscription :
    ∃ s, run Session.step { sids := countingSids } hastySteps = some s ∧ s.Quiescent ∧
      s.latest "K2" = some .del ∧
      ∃ sub ∈ s.venue, sub.channel = "orderbook_delta" ∧ "K2" ∈ sub.markets := by
  have hrun : (run Session.step { sids := countingSids } hastySteps).any (fun s =>
      decide (s.Quiescent ∧ s.latest "K2" = some .del ∧
        ∃ sub ∈ s.venue, sub.channel = "orderbook_delta" ∧ "K2" ∈ sub.markets)) = true := by
    decide +kernel
  obtain ⟨s, hs, hcheck⟩ := (Option.any_eq_true _ _).mp hrun
  exact ⟨s, hs, of_decide_eq_true hcheck⟩

end Session

end Degenerate.Platforms
