import Degenerate.Picker.CommsTask
import Degenerate.Picker.TwoIndexSync

/-!
# Close Times of the Watched Legs

A watched leg keeps a close time of its own.  A `close_date_updated` event writes it into
the legs of those who watch the market at that moment; `register_arb` stores the one that
the arb brings from the database, whatever the other legs on the market carry.

What the close times should be is a matter of the history: the value of the latest event
since the market was first watched.  `CloseHistory` records it as a history variable of
the system.  The legs follow it in every run in which each registration brings the value
that is current.

## Main Results

- `close_times_follow`
- `earlier_close_time_returns`
-/

namespace Degenerate.Picker

open Degenerate.Lib

/-! ## §1 What the close times should be -/

/-- The market and the close time of an event that updates it. -/
def MarketLifecycle.closeUpdate (event : MarketLifecycle) : Option (MarketKey × ℤ) :=
  if event.eventType = "close_date_updated" then
    event.closeTs.map fun ts => (makeMarketKey event.marketTicker .kalshi, secsToMillis ts)
  else none

/-- What a run has shown of the close times. -/
structure CloseHistory where
  /-- The markets that have been watched. -/
  seen : Finset MarketKey := ∅
  /-- The close time in the latest event about a market since it was first watched. -/
  latest : PMap MarketKey ℤ := PMap.empty

/-- Take note of an event about a market. -/
def CloseHistory.note (g : CloseHistory) (event : MarketLifecycle) : CloseHistory :=
  match event.closeUpdate with
  | some (key, ms) => if key ∈ g.seen then { g with latest := g.latest.insert key ms } else g
  | none => g

/-- The history after a step. -/
def noteClose (p : System) (a : Action) (g : CloseHistory) : CloseHistory :=
  match a with
  | .receive (.kalshi (.marketLifecycleV2 event)) => g.note event
  | .comms _ =>
      match p.comms.pc with
      | .registering w => { g with seen := g.seen ∪ w.legKeys.toFinset }
      | _ => g
  | _ => g

/-- Other messages leave no trace in the history. -/
theorem noteClose_receive {p : System} {msg : CommsMessage} (g : CloseHistory)
    (hmsg : ∀ event, msg ≠ .kalshi (.marketLifecycleV2 event)) :
    noteClose p (.receive msg) g = g := by
  unfold noteClose
  split
  · rename_i event heq
    cases heq
    exact absurd rfl (hmsg event)
  · rename_i heq
    cases heq
  · rfl

/-- A registration adds its markets to the history. -/
theorem noteClose_registering {p : System} {c : Choice} {w : ArbWatch} (g : CloseHistory)
    (hpc : p.comms.pc = .registering w) :
    noteClose p (.comms c) g = { g with seen := g.seen ∪ w.legKeys.toFinset } := by
  simp only [noteClose, hpc]

/-- An operation leaves no trace in the history. -/
theorem noteClose_next {p : System} {c : Choice} (g : CloseHistory) (hpc : p.comms.pc = .next) :
    noteClose p (.comms c) g = g := by
  simp only [noteClose, hpc]

/-- Nor does a step aside. -/
theorem noteClose_aside {p q : System} {a : Action} (g : CloseHistory)
    (haside : System.Aside p a q) : noteClose p a g = g := by
  unfold noteClose
  split
  · exact absurd rfl (haside.not_receive _)
  · split
    · rename_i w hw
      exact absurd hw (haside.not_registering _ w rfl)
    · rfl
  · rfl

/-- The leg is one of the record of `cid`. -/
def Book.Registered (b : Book) (cid : CorrelationId) (leg : ArbMinifiedInfo) : Prop :=
  ∃ w, b.records cid = some w ∧ leg ∈ w.legs

/-- Two Kalshi legs on one market. -/
structure SameMarket (leg leg' : ArbMinifiedInfo) : Prop where
  kalshi : leg.platform = .kalshi
  kalshi' : leg'.platform = .kalshi
  key : leg'.marketKey = leg.marketKey

theorem SameMarket.symm {leg leg' : ArbMinifiedInfo} (h : SameMarket leg leg') :
    SameMarket leg' leg :=
  ⟨h.kalshi', h.kalshi, h.key.symm⟩

instance (leg leg' : ArbMinifiedInfo) : Decidable (SameMarket leg leg') :=
  decidable_of_iff (leg.platform = .kalshi ∧ leg'.platform = .kalshi ∧
    leg'.marketKey = leg.marketKey) ⟨fun ⟨h, h', hk⟩ => ⟨h, h', hk⟩, fun ⟨h, h', hk⟩ => ⟨h, h', hk⟩⟩

/-- The operation is on its way to update close times. -/
def CommsOp.closes : CommsOp → Bool
  | .marketLifecycle _ | .updateCloseTime _ _ _ => true
  | _ => false

namespace System

/-- The leg of the watch agrees with its own other leg and with those that are registered under
    other ids, as far as they are on its market. -/
def AgreesWithOthers (p : System) (w : ArbWatch) (leg : ArbMinifiedInfo) : Prop :=
  (∀ leg' ∈ w.legs, SameMarket leg leg' → leg'.closeTimeMs = leg.closeTimeMs) ∧
  ∀ cid ∈ (p.book.registry leg.marketKey).getD ∅, cid ≠ w.correlationId →
    ∀ old ∈ p.book.records cid, ∀ leg' ∈ old.legs, SameMarket leg leg' →
      leg'.closeTimeMs = leg.closeTimeMs

instance (p : System) (w : ArbWatch) (leg : ArbMinifiedInfo) :
    Decidable (p.AgreesWithOthers w leg) :=
  instDecidableAnd

/-- The watch brings the close time that is current for each of its Kalshi legs: that of the
    latest event about the market, or else that of the other legs on it. -/
def BringsClose (p : System) (g : CloseHistory) (w : ArbWatch) : Prop :=
  ∀ leg ∈ w.legs, leg.platform = .kalshi →
    (∀ ms ∈ g.latest leg.marketKey, leg.closeTimeMs = ms) ∧
    (g.latest leg.marketKey = none → p.AgreesWithOthers w leg)

instance (p : System) (g : CloseHistory) (w : ArbWatch) : Decidable (p.BringsClose g w) :=
  List.decidableBAll _ _

/-- A registration in the step brings current close times. -/
def RegistersCurrent (s : System × CloseHistory) : Action → Prop
  | .comms _ =>
      match s.1.comms.pc with
      | .registering w => s.1.BringsClose s.2 w
      | _ => True
  | _ => True

instance (s : System × CloseHistory) : DecidablePred (RegistersCurrent s)
  | .comms _ =>
      match h : s.1.comms.pc with
      | .registering w =>
          decidable_of_iff (s.1.BringsClose s.2 w) (by simp [RegistersCurrent, h])
      | .next | .evaluating _ | .finding _ => .isTrue (by simp [RegistersCurrent, h])
  | .receive _ | .execReceive _ | .execEffect | .execFinish | .execRefresh _ | .delTask _ _
  | .subscribedResponse _ _ | .tick _ => .isTrue trivial

/-- The close time of the leg of `cid` on the market is about to be updated. -/
def AwaitsClose (p : System) (cid : CorrelationId) (key : MarketKey) : Prop :=
  (∃ event ms, .marketLifecycle event ∈ p.comms.todo ∧ event.closeUpdate = some (key, ms)) ∨
    ∃ ts, .updateCloseTime key cid (some ts) ∈ p.comms.todo

/-! ## §2 The invariant -/

/-- The legs follow the history, but for the updates that are still to come. -/
structure FollowsClose (p : System) (g : CloseHistory) : Prop where
  watched : p.book.RecordsWatched
  seen : ∀ key, p.book.registry key ≠ none → key ∈ g.seen
  /-- An event is handled before anything else is. -/
  alone : ∀ event, .marketLifecycle event ∈ p.comms.todo →
    p.comms = ⟨.next, [.marketLifecycle event]⟩
  received : ∀ event key ms, .marketLifecycle event ∈ p.comms.todo →
    event.closeUpdate = some (key, ms) → key ∈ g.seen → g.latest key = some ms
  pending : ∀ key cid ts, .updateCloseTime key cid (some ts) ∈ p.comms.todo →
    g.latest key = some (secsToMillis ts)
  current : ∀ cid leg ms, p.book.Registered cid leg → leg.platform = .kalshi →
    g.latest leg.marketKey = some ms → leg.closeTimeMs = ms ∨ p.AwaitsClose cid leg.marketKey
  agree : ∀ cid cid' leg leg', p.book.Registered cid leg → p.book.Registered cid' leg' →
    SameMarket leg leg' → g.latest leg.marketKey = none → leg'.closeTimeMs = leg.closeTimeMs

theorem followsClose_init (fraction minSize : ℚ) : (init fraction minSize).FollowsClose {} where
  watched cid w h := by cases h
  seen key h := by exact absurd rfl h
  alone event h := by cases h
  received event key ms h := by cases h
  pending key cid ts h := by cases h
  current cid leg ms h := by
    obtain ⟨w, hw, -⟩ := h
    cases hw
  agree cid cid' leg leg' h := by
    obtain ⟨w, hw, -⟩ := h
    cases hw

/-- What keeps the book and the updates still to come keeps the invariant. -/
theorem FollowsClose.frame {p q : System} {g : CloseHistory} (hp : p.FollowsClose g)
    (hb : q.book = p.book)
    (hops : ∀ op, op.closes = true → (op ∈ q.comms.todo ↔ op ∈ p.comms.todo))
    (hcomms : ∀ event, .marketLifecycle event ∈ p.comms.todo → q.comms = p.comms) :
    q.FollowsClose g := by
  -- what is awaited is still in the queue
  have hawaits : ∀ cid key, p.AwaitsClose cid key → q.AwaitsClose cid key := by
    rintro cid key (⟨event, ms, hmem, hclose⟩ | ⟨ts, hmem⟩)
    · exact .inl ⟨event, ms, (hops _ rfl).mpr hmem, hclose⟩
    · exact .inr ⟨ts, (hops _ rfl).mpr hmem⟩
  constructor
  · exact hb ▸ hp.watched
  · exact hb ▸ hp.seen
  · intro event hmem
    have hmem' := (hops _ rfl).mp hmem
    rw [hcomms event hmem', hp.alone event hmem']
  · intro event key ms hmem
    exact hp.received event key ms ((hops _ rfl).mp hmem)
  · intro key cid ts hmem
    exact hp.pending key cid ts ((hops _ rfl).mp hmem)
  · intro cid leg ms hleg hk hlatest
    exact (hp.current cid leg ms (hb ▸ hleg) hk hlatest).imp_right (hawaits cid _)
  · intro cid cid' leg leg' hleg hleg'
    exact hp.agree cid cid' leg leg' (hb ▸ hleg) (hb ▸ hleg')

/-- An operation that waits for its turn behind another one is not an event. -/
theorem FollowsClose.not_lifecycle {p : System} {g : CloseHistory} (hp : p.FollowsClose g)
    {op : CommsOp} {rest : List CommsOp} (htodo : p.comms.todo = op :: rest)
    (hop : ∀ event, op ≠ .marketLifecycle event) (event : MarketLifecycle) :
    .marketLifecycle event ∉ p.comms.todo := by
  intro hmem
  rw [hp.alone event hmem] at htodo
  exact hop event (List.cons.inj htodo).1.symm

/-- An operation that is replaced by others of no concern to the close times. -/
theorem FollowsClose.replace {p q : System} {g : CloseHistory} (hp : p.FollowsClose g)
    {op : CommsOp} {rest ops : List CommsOp} (htodo : p.comms.todo = op :: rest)
    (hop : op.closes = false) (hops : ∀ op' ∈ ops, op'.closes = false)
    (htodo' : q.comms.todo = ops ++ rest) (hb : q.book = p.book) : q.FollowsClose g := by
  have hnone : ∀ event, .marketLifecycle event ∉ p.comms.todo :=
    hp.not_lifecycle htodo fun event heq => by rw [heq] at hop; cases hop
  refine hp.frame hb (fun op' hop' => ?_) fun event hmem => absurd hmem (hnone event)
  have hne : op' ≠ op := by
    rintro rfl
    rw [hop] at hop'
    cases hop'
  have hout : op' ∉ ops := fun hmem => by
    rw [hops op' hmem] at hop'
    cases hop'
  rw [htodo, htodo', List.mem_append, List.mem_cons]
  exact ⟨fun h => .inr (h.resolve_left hout), fun h => .inr (h.resolve_left hne)⟩

/-- An event is received. -/
theorem FollowsClose.receive {p q : System} {g : CloseHistory} (hp : p.FollowsClose g)
    {event : MarketLifecycle} (htodo : p.comms.todo = [])
    (hcomms : q.comms = ⟨.next, [.marketLifecycle event]⟩) (hb : q.book = p.book) :
    q.FollowsClose (g.note event) := by
  have hseen : (g.note event).seen = g.seen := by
    unfold CloseHistory.note
    split
    · split <;> rfl
    · rfl
  -- the event changes what is latest about its own market only
  have hlatest : ∀ key, (g.note event).latest key = g.latest key ∨
      ∃ ms, event.closeUpdate = some (key, ms) ∧ (g.note event).latest key = some ms := by
    intro key
    unfold CloseHistory.note
    split
    · rename_i key' ms hclose
      split
      · by_cases hk : key = key'
        · subst hk
          exact .inr ⟨ms, hclose, PMap.insert_self _ _ _⟩
        · exact .inl (PMap.insert_of_ne _ hk _)
      · exact .inl rfl
    · exact .inl rfl
  -- between two messages no update is awaited
  have hnone : ∀ cid key, ¬ p.AwaitsClose cid key := by
    rintro cid key (⟨_, _, hmem, -⟩ | ⟨_, hmem⟩) <;> rw [htodo] at hmem <;> cases hmem
  constructor
  · exact hb ▸ hp.watched
  · rw [hb, hseen]
    exact hp.seen
  · intro event' hmem
    rw [hcomms] at hmem ⊢
    rw [List.mem_singleton.mp hmem]
  · intro event' key ms hmem hclose hkey
    rw [hcomms, List.mem_singleton] at hmem
    cases hmem
    rw [hseen] at hkey
    simp [CloseHistory.note, hclose, hkey]
  · intro key cid ts hmem
    rw [hcomms, List.mem_singleton] at hmem
    cases hmem
  · intro cid leg ms hleg hk hms
    -- legs on the market of the event wait for their update, the others have no new time
    rcases hlatest leg.marketKey with hsame | ⟨ms', hclose, -⟩
    · rw [hsame] at hms
      exact .inl ((hp.current cid leg ms (hb ▸ hleg) hk hms).resolve_right (hnone cid _))
    · exact .inr (.inl ⟨event, ms', by rw [hcomms]; exact List.mem_singleton_self _, hclose⟩)
  · intro cid cid' leg leg' hleg hleg' hsame hms
    rcases hlatest leg.marketKey with heq | ⟨ms', -, hsome⟩
    · exact hp.agree cid cid' leg leg' (hb ▸ hleg) (hb ▸ hleg') hsame (heq ▸ hms)
    · rw [hsome] at hms
      cases hms

/-- A pair that brings current close times is registered. -/
theorem FollowsClose.register {p q : System} {g : CloseHistory} (hp : p.FollowsClose g)
    {w : ArbWatch} (hpc : p.comms.pc = .registering w) (hw : p.BringsClose g w)
    (htodo : q.comms.todo = .seedTobFromHttp w.arb.anchor :: .seedTobFromHttp w.arb.match ::
      p.comms.todo) (hb : q.book = p.book.registerArb w) :
    q.FollowsClose { g with seen := g.seen ∪ w.legKeys.toFinset } := by
  -- comms is not in `find_arb` while an event waits
  have hnone : ∀ event, .marketLifecycle event ∉ q.comms.todo := by
    intro event hmem
    rw [htodo, List.mem_cons, List.mem_cons] at hmem
    rcases hmem with hmem | hmem | hmem
    · cases hmem
    · cases hmem
    · rw [hp.alone event hmem] at hpc
      cases hpc
  have hregistered : ∀ cid leg, q.book.Registered cid leg →
      (cid = w.correlationId ∧ leg ∈ w.legs) ∨
        (cid ≠ w.correlationId ∧ p.book.Registered cid leg) := by
    rintro cid leg ⟨v, hv, hleg⟩
    rw [hb, Book.registerArb_records] at hv
    rcases PMap.insert_eq_some.mp hv with ⟨rfl, rfl⟩ | ⟨hne, hv⟩
    · exact .inl ⟨rfl, hleg⟩
    · exact .inr ⟨hne, v, hv, hleg⟩
  -- a leg of the pair against one that is registered already
  have hother : ∀ cid leg leg', leg ∈ w.legs → cid ≠ w.correlationId →
      p.book.Registered cid leg' → SameMarket leg leg' → g.latest leg.marketKey = none →
      leg'.closeTimeMs = leg.closeTimeMs := by
    rintro cid leg leg' hleg hne ⟨old, hold, hleg'⟩ hsame hlatest
    obtain ⟨-, hothers⟩ := (hw leg hleg hsame.kalshi).2 hlatest
    obtain ⟨set, hset, hmem⟩ :=
      hp.watched cid old hold leg'.marketKey (List.mem_map.mpr ⟨leg', hleg', rfl⟩)
    rw [hsame.key] at hset
    exact hothers cid (by rwa [hset]) hne old hold leg' hleg' hsame
  constructor
  · rw [hb]
    exact @Book.RecordsWatched.step _ _ (.registerArb w) hp.watched rfl
  · intro key hkey
    rw [hb, Book.registerArb_registry] at hkey
    rw [Finset.mem_union, List.mem_toFinset]
    split at hkey
    · exact .inr ‹_›
    · exact .inl (hp.seen key hkey)
  · exact fun event hmem => absurd hmem (hnone event)
  · exact fun event _ _ hmem => absurd hmem (hnone event)
  · intro key cid ts hmem
    rw [htodo, List.mem_cons, List.mem_cons] at hmem
    rcases hmem with hmem | hmem | hmem
    · cases hmem
    · cases hmem
    · exact hp.pending key cid ts hmem
  · intro cid leg ms hreg hk hms
    rcases hregistered cid leg hreg with ⟨rfl, hleg⟩ | ⟨-, hleg⟩
    · exact .inl ((hw leg hleg hk).1 ms hms)
    · rcases hp.current cid leg ms hleg hk hms with hcur | ⟨event, _, hmem, -⟩ | ⟨ts, hmem⟩
      · exact .inl hcur
      · exact absurd (by rw [htodo]; exact .tail _ (.tail _ hmem)) (hnone event)
      · exact .inr (.inr ⟨ts, by rw [htodo]; exact .tail _ (.tail _ hmem)⟩)
  · intro cid cid' leg leg' hreg hreg' hsame hlatest
    rcases hregistered cid leg hreg with ⟨rfl, hleg⟩ | ⟨hne, hleg⟩ <;>
      rcases hregistered cid' leg' hreg' with ⟨rfl, hleg'⟩ | ⟨hne', hleg'⟩
    · exact ((hw leg hleg hsame.kalshi).2 hlatest).1 leg' hleg' hsame
    · exact hother cid' leg leg' hleg hne' hleg' hsame hlatest
    · exact (hother cid leg' leg hleg' hne hleg hsame.symm (hsame.key ▸ hlatest)).symm
    · exact hp.agree cid cid' leg leg' hleg hleg' hsame hlatest

/-- What is left to do was to be done before. -/
theorem mem_todo_of_rest {p q : System} {op : CommsOp} {rest : List CommsOp}
    (htodo : p.comms.todo = op :: rest) (htodo' : q.comms.todo = rest) :
    ∀ op' ∈ q.comms.todo, op' ∈ p.comms.todo := by
  intro op' hop
  rw [htodo]
  exact .tail _ (htodo' ▸ hop)

/-- A pair is unregistered. -/
theorem FollowsClose.unregister {p q : System} {g : CloseHistory} (hp : p.FollowsClose g)
    {cid : CorrelationId} {rest : List CommsOp} (htodo : p.comms.todo = .unregisterArb cid :: rest)
    (htodo' : q.comms.todo = rest) (hb : q.book = (p.book.unregisterArb cid).1) :
    q.FollowsClose g := by
  have hnone := hp.not_lifecycle htodo (by simp)
  have hrest := mem_todo_of_rest htodo htodo'
  -- no leg is registered that was not before
  have hregistered : ∀ c leg, q.book.Registered c leg → p.book.Registered c leg := by
    rintro c leg ⟨w, hw, hleg⟩
    rw [hb, Book.unregisterArb_records] at hw
    exact ⟨w, (PMap.erase_eq_some.mp hw).2, hleg⟩
  constructor
  · rw [hb]
    exact @Book.RecordsWatched.step _ _ (.unregisterArb cid) hp.watched rfl
  · intro key hkey
    rw [hb] at hkey
    exact hp.seen key (Book.watched_of_unregisterArb hkey)
  · exact fun event hmem => absurd (hrest _ hmem) (hnone event)
  · exact fun event _ _ hmem => absurd (hrest _ hmem) (hnone event)
  · exact fun key c ts hmem => hp.pending key c ts (hrest _ hmem)
  · intro c leg ms hleg hk hms
    -- a leg that stays keeps its time, or its update ahead
    rcases hp.current c leg ms (hregistered c leg hleg) hk hms with hcur | ⟨event, _, hmem, -⟩ |
      ⟨ts, hmem⟩
    · exact .inl hcur
    · exact absurd hmem (hnone event)
    · rw [htodo, List.mem_cons] at hmem
      exact .inr (.inr ⟨ts, htodo' ▸ hmem.resolve_left (by simp)⟩)
  · exact fun c c' leg leg' hleg hleg' =>
      hp.agree c c' leg leg' (hregistered c leg hleg) (hregistered c' leg' hleg')

/-- The close time of the legs of an arb on a market is updated. -/
theorem FollowsClose.update {p q : System} {g : CloseHistory} (hp : p.FollowsClose g)
    {key : MarketKey} {cid : CorrelationId} {closeTs : Option ℤ} {rest : List CommsOp}
    (htodo : p.comms.todo = .updateCloseTime key cid closeTs :: rest)
    (htodo' : q.comms.todo = rest) (hb : q.book = p.book.updateCloseTime key cid closeTs) :
    q.FollowsClose g := by
  have hnone := hp.not_lifecycle htodo (by simp)
  have hrest := mem_todo_of_rest htodo htodo'
  -- a leg has the latest close time of its market, or is as before with its update ahead
  have hleg : ∀ c leg, q.book.Registered c leg →
      (∃ ts, g.latest leg.marketKey = some (secsToMillis ts) ∧ leg.closeTimeMs = secsToMillis ts) ∨
      (p.book.Registered c leg ∧
        (c = cid → leg.marketKey = key → closeTs = none)) := by
    rintro c leg ⟨w, hw, hl⟩
    rw [hb] at hw
    cases closeTs with
    | none =>
      rw [Book.updateCloseTime_none] at hw
      exact .inr ⟨⟨w, hw, hl⟩, fun _ _ => rfl⟩
    | some ts =>
      obtain ⟨old, hold, leg', hl', rfl⟩ := Book.updateCloseTime_leg hw hl
      by_cases hc : c = cid
      · rw [if_pos hc]
        by_cases hk : leg'.marketKey = key
        · have hlatest := hp.pending key cid ts (by rw [htodo]; exact List.mem_cons_self ..)
          exact .inl ⟨ts, by simp [Book.closeLeg, hk, hlatest], by simp [Book.closeLeg, hk]⟩
        · have hsame : Book.closeLeg key (secsToMillis ts) leg' = leg' := if_neg hk
          rw [hsame]
          exact .inr ⟨⟨old, hold, hl'⟩, fun _ heq => absurd heq hk⟩
      · rw [if_neg hc]
        exact .inr ⟨⟨old, hold, hl'⟩, fun heq => absurd heq hc⟩
  constructor
  · rw [hb]
    exact @Book.RecordsWatched.step _ _ (.updateCloseTime key cid closeTs) hp.watched rfl
  · intro k hk
    rw [hb, Book.updateCloseTime_registry] at hk
    exact hp.seen k hk
  · exact fun event hmem => absurd (hrest _ hmem) (hnone event)
  · exact fun event _ _ hmem => absurd (hrest _ hmem) (hnone event)
  · exact fun k c ts hmem => hp.pending k c ts (hrest _ hmem)
  · intro c leg ms hl hk hms
    -- the leg has been updated, or the update was for another one
    rcases hleg c leg hl with ⟨ts, hlatest, hclose⟩ | ⟨hl, hahead⟩
    · rw [hms] at hlatest
      exact .inl (hclose.trans (Option.some.inj hlatest).symm)
    · rcases hp.current c leg ms hl hk hms with hcur | ⟨event, _, hmem, -⟩ | ⟨ts, hmem⟩
      · exact .inl hcur
      · exact absurd hmem (hnone event)
      · rw [htodo, List.mem_cons] at hmem
        -- the update that has been taken was for another leg, or set no time
        rcases hmem with heq | hmem
        · cases heq
          cases hahead rfl rfl
        · exact .inr (.inr ⟨ts, htodo' ▸ hmem⟩)
  · intro c c' leg leg' hl hl' hsame hlatest
    -- legs on a market without an event agree as before, and none of them has been updated
    rcases hleg c leg hl with ⟨ts, hsome, -⟩ | ⟨hl, -⟩
    · rw [hlatest] at hsome
      cases hsome
    · rcases hleg c' leg' hl' with ⟨ts, hsome, -⟩ | ⟨hl', -⟩
      · rw [hsame.key, hlatest] at hsome
        cases hsome
      · exact hp.agree c c' leg leg' hl hl' hsame hlatest

/-- An event is handled: it asks for an update at each watcher of its market. -/
theorem FollowsClose.handle {p q : System} {g : CloseHistory} (hp : p.FollowsClose g)
    {event : MarketLifecycle} {rest : List CommsOp} {order : List CorrelationId}
    (htodo : p.comms.todo = .marketLifecycle event :: rest)
    (horder : order.toFinset =
      (p.book.registry (makeMarketKey event.marketTicker .kalshi)).getD ∅)
    (htodo' : q.comms.todo = order.flatMap (lifecycleOps event) ++ rest) (hb : q.book = p.book) :
    q.FollowsClose g := by
  have halone : p.comms.todo = [.marketLifecycle event] := by
    rw [hp.alone event (by rw [htodo]; exact List.mem_cons_self ..)]
  obtain rfl : rest = [] := by simpa [htodo] using halone
  rw [List.append_nil] at htodo'
  have hnone : ∀ event', .marketLifecycle event' ∉ q.comms.todo := by
    intro event' hmem
    rw [htodo'] at hmem
    obtain ⟨c, -, hmem⟩ := List.mem_flatMap.mp hmem
    rcases mem_lifecycleOps hmem with ⟨-, heq⟩ | heq <;> cases heq
  constructor
  · exact hb ▸ hp.watched
  · exact hb ▸ hp.seen
  · exact fun event' hmem => absurd hmem (hnone event')
  · exact fun event' _ _ hmem => absurd hmem (hnone event')
  · intro key cid ts hmem
    rw [htodo'] at hmem
    obtain ⟨c, hc, hmem⟩ := List.mem_flatMap.mp hmem
    obtain ⟨htype, heq⟩ := (mem_lifecycleOps hmem).resolve_right (by simp)
    obtain ⟨rfl, rfl, hts⟩ : key = makeMarketKey event.marketTicker .kalshi ∧ cid = c ∧
        some ts = event.closeTs := by simpa using heq
    -- a market with a watcher has been seen
    have hwatched : p.book.registry (makeMarketKey event.marketTicker .kalshi) ≠ none := by
      intro hno
      rw [hno] at horder
      have hmem' := List.mem_toFinset.mpr hc
      rw [horder] at hmem'
      cases hmem'
    have hhead : .marketLifecycle event ∈ p.comms.todo := by
      rw [htodo]
      exact List.mem_cons_self ..
    refine hp.received event _ _ hhead ?_ (hp.seen _ hwatched)
    simp [MarketLifecycle.closeUpdate, htype, ← hts]
  · intro cid leg ms hleg hk hms
    rcases hp.current cid leg ms (hb ▸ hleg) hk hms with hcur | ⟨event', ms', hmem, hclose⟩ |
      ⟨ts, hmem⟩
    · exact .inl hcur
    · -- the arb watches the market of its leg, so the event reaches it
      rw [halone, List.mem_singleton] at hmem
      cases hmem
      obtain ⟨w, hw, hl⟩ := hleg
      rw [hb] at hw
      obtain ⟨set, hset, hcid⟩ :=
        hp.watched cid w hw leg.marketKey (List.mem_map.mpr ⟨leg, hl, rfl⟩)
      unfold MarketLifecycle.closeUpdate at hclose
      split at hclose
      · rename_i htype
        obtain ⟨ts, hts, heq⟩ := Option.map_eq_some_iff.mp hclose
        rw [Prod.mk.injEq] at heq
        have hmem' : cid ∈ order := by
          rw [← List.mem_toFinset, horder, heq.1, hset]
          exact hcid
        refine .inr (.inr ⟨ts, ?_⟩)
        rw [htodo']
        refine List.mem_flatMap.mpr ⟨cid, hmem', ?_⟩
        simp [lifecycleOps, htype, hts, heq.1]
      · cases hclose
    · rw [halone, List.mem_singleton] at hmem
      cases hmem
  · exact fun cid cid' leg leg' hleg hleg' =>
      hp.agree cid cid' leg leg' (hb ▸ hleg) (hb ▸ hleg')

/-- Other messages do not touch the close times. -/
theorem opsOf_closes {b : Book} {msg : CommsMessage}
    (hmsg : ∀ event, msg ≠ .kalshi (.marketLifecycleV2 event)) :
    ∀ op ∈ opsOf b msg, op.closes = false := by
  have hmap : ∀ {α : Type} (l : List α) (f : α → CommsOp), (∀ a, (f a).closes = false) →
      ∀ op ∈ l.map f, op.closes = false := by
    intro α l f hf op hop
    obtain ⟨a, -, rfl⟩ := List.mem_map.mp hop
    exact hf a
  cases msg with
  | polymarket msg => cases msg <;> exact hmap _ _ fun _ => rfl
  | kalshi msg =>
    cases msg with
    | tickerUpdate t =>
      -- a ticker becomes one price, or nothing
      intro op hop
      simp only [opsOf] at hop
      split at hop
      · cases hop
      · obtain ⟨tob, -, rfl⟩ := Option.map_eq_some_iff.mp (Option.mem_toList.mp hop)
        rfl
    | marketLifecycleV2 event => exact absurd rfl (hmsg event)
    | other => exact fun op hop => by cases hop
  | arbDiscovery arbs => exact hmap _ _ fun _ => rfl
  | runningArbsResponse arbs cids => exact hmap _ _ fun _ => rfl
  | confirmedAndRun arb cid =>
    intro op hop
    rw [List.mem_singleton.mp hop]
    rfl
  | deleteRunningArbs cids =>
    intro op hop
    obtain ⟨cid, -, hop⟩ := List.mem_flatMap.mp hop
    simp only [List.mem_cons, List.not_mem_nil, or_false] at hop
    rcases hop with rfl | rfl <;> rfl

/-- Only an event asks for updates of close times. -/
theorem Follows.closes {p : System} {op : CommsOp} {ops : List CommsOp} (h : Follows p op ops)
    (hop : ∀ event, op ≠ .marketLifecycle event) :
    op.closes = false ∧ ∀ op' ∈ ops, op'.closes = false := by
  cases h with
  | lifecycle h => exact absurd rfl (hop _)
  | resolved h =>
    refine ⟨rfl, fun op' hop' => ?_⟩
    obtain ⟨cid, -, rfl⟩ := List.mem_map.mp hop'
    rfl
  | _ => exact ⟨rfl, by simp [CommsOp.closes]⟩

/-! ## §3 Runs -/

/-- A step aside keeps what is to be done, and an event waits. -/
theorem FollowsClose.aside {p q : System} {g : CloseHistory} {a : Action}
    (hp : p.FollowsClose g) (haside : Aside p a q) : q.FollowsClose g := by
  refine hp.frame haside.owned.book (fun op _ => by rw [haside.owned.todo]) fun event hmem => ?_
  have hcomms := hp.alone event hmem
  have hpc : q.comms.pc = .next := haside.next (by rw [hcomms])
  have htodo : q.comms.todo = p.comms.todo := haside.owned.todo
  rw [hcomms] at htodo ⊢
  rw [show q.comms = ⟨q.comms.pc, q.comms.todo⟩ from rfl, hpc, htodo]

/-- A message other than an event is received. -/
theorem FollowsClose.receive_other {p q : System} {g : CloseHistory} {msg : CommsMessage}
    (hp : p.FollowsClose g) (hmsg : ∀ event, msg ≠ .kalshi (.marketLifecycleV2 event))
    (htodo : p.comms.todo = []) (hcomms : q.comms = ⟨.next, opsOf p.book msg⟩)
    (hb : q.book = p.book) : q.FollowsClose g := by
  refine hp.frame hb (fun op hop => ?_) fun event hmem => by rw [htodo] at hmem; cases hmem
  rw [hcomms, htodo]
  refine iff_of_false (fun hmem => ?_) List.not_mem_nil
  rw [opsOf_closes hmsg op hmem] at hop
  cases hop

/-- Registrations that bring current close times keep the legs at the history. -/
theorem FollowsClose.step {cfg : Config} {p q : System} {g : CloseHistory} {a : Action}
    (hp : p.FollowsClose g) (ha : RegistersCurrent (p, g) a)
    (h : System.step cfg p a = some q) : q.FollowsClose (noteClose p a g) := by
  rcases step_owned_cases h with haside | ⟨msg, rfl, htodo, hcomms, hb, -⟩ |
    ⟨c, w, rfl, hpc, htodo, hb, -⟩ |
    ⟨c, key, tob, order, rest, rfl, hpc, htodo, -, -, htodo', hb, -⟩ |
    ⟨c, cid, rest, rfl, hpc, htodo, htodo', hb, -⟩ |
    ⟨c, key, cid, ts, rest, rfl, hpc, htodo, htodo', hb, -⟩ |
    ⟨c, op, rest, ops, rfl, hpc, htodo, hf, htodo', hb, -⟩
  · -- a step that is none of the comms task's on the book
    rw [noteClose_aside g haside]
    exact hp.aside haside
  · -- a message is received: an event about a close time, or another one
    by_cases hevent : ∃ event, msg = .kalshi (.marketLifecycleV2 event)
    · obtain ⟨event, rfl⟩ := hevent
      exact hp.receive htodo hcomms hb
    · have hmsg : ∀ event, msg ≠ .kalshi (.marketLifecycleV2 event) :=
        fun event heq => hevent ⟨event, heq⟩
      rw [noteClose_receive g hmsg]
      exact hp.receive_other hmsg htodo hcomms hb
  · -- a pair is registered
    have hbrings : p.BringsClose g w := by
      simpa only [RegistersCurrent, hpc] using ha
    rw [noteClose_registering g hpc]
    exact hp.register hpc hbrings htodo hb
  -- an operation: a price, a withdrawal, an update, or one that only asks for others
  all_goals rw [noteClose_next g hpc]
  · refine hp.replace htodo rfl (fun op hop => ?_) htodo' hb
    obtain ⟨cid, -, rfl⟩ := List.mem_map.mp hop
    rfl
  · exact hp.unregister htodo htodo' hb
  · exact hp.update htodo htodo' hb
  · by_cases hevent : ∃ event, op = .marketLifecycle event
    · obtain ⟨event, rfl⟩ := hevent
      cases hf with
      | lifecycle horder => exact hp.handle htodo horder htodo' hb
    · obtain ⟨hop, hops⟩ := hf.closes fun event heq => hevent ⟨event, heq⟩
      exact hp.replace htodo hop hops htodo' hb

/-- Every run has its history of close times, from any history it starts with. -/
theorem run_closeHistory {cfg : Config} {p q : System} {as : List Action}
    (h : run (System.step cfg) p as = some q) (g : CloseHistory) :
    ∃ g', run (withHistory noteClose (System.step cfg)) (p, g) as = some (q, g') :=
  run_withHistory.mpr h

/-- **Close times follow the venue**: in every run in which each registration brings the current
    close times, whenever the comms task is between messages, every registered Kalshi leg has
    the close time of the latest event about its market since it was first watched, if there
    was one, and that of every other leg on its market. -/
theorem close_times_follow {cfg : Config} {fraction minSize : ℚ} {as : List Action} {p : System}
    {g : CloseHistory}
    (hcurrent : Along (withHistory noteClose (System.step cfg)) RegistersCurrent
      (init fraction minSize, {}) as)
    (h : run (withHistory noteClose (System.step cfg)) (init fraction minSize, {}) as = some (p, g))
    (hbetween : p.betweenMessages = true) {cid : CorrelationId} {leg : ArbMinifiedInfo}
    (hleg : p.book.Registered cid leg) (hk : leg.platform = .kalshi) :
    (∀ ms, g.latest leg.marketKey = some ms → leg.closeTimeMs = ms) ∧
    ∀ cid' leg', p.book.Registered cid' leg' → SameMarket leg leg' →
      leg'.closeTimeMs = leg.closeTimeMs := by
  have hp : p.FollowsClose g := by
    refine run_invariant_along (I := fun s : System × CloseHistory => s.1.FollowsClose s.2)
      (fun s a t hs ha ht => ?_) (followsClose_init fraction minSize) hcurrent h
    obtain ⟨hstep, hnote⟩ := withHistory_eq_some.mp ht
    rw [hnote]
    exact hs.step ha hstep
  -- between two messages no update is ahead any more
  have hnone : ∀ cid key, ¬ p.AwaitsClose cid key := by
    have htodo := (betweenMessages_iff.mp hbetween).2
    rintro cid key (⟨_, _, hmem, -⟩ | ⟨_, hmem⟩) <;> rw [htodo] at hmem <;> cases hmem
  have hcurrent : ∀ cid leg ms, p.book.Registered cid leg → leg.platform = .kalshi →
      g.latest leg.marketKey = some ms → leg.closeTimeMs = ms :=
    fun cid leg ms hl hk hms => (hp.current cid leg ms hl hk hms).resolve_right (hnone cid _)
  refine ⟨fun ms => hcurrent cid leg ms hleg hk, fun cid' leg' hleg' hsame => ?_⟩
  cases hlatest : g.latest leg.marketKey with
  | none => exact hp.agree cid cid' leg leg' hleg hleg' hsame hlatest
  | some ms =>
    rw [hcurrent cid leg ms hleg hk hlatest,
      hcurrent cid' leg' ms hleg' hsame.kalshi' (hsame.key ▸ hlatest)]

/-- A `close_date_updated` event about the Kalshi leg of the sample pair. -/
def closeEvent (closeTs : ℤ) : Action :=
  .receive (.kalshi (.marketLifecycleV2 ⟨"K", "close_date_updated", some closeTs⟩))

/-- The sample pair is registered, and its Kalshi market closes earlier. -/
def closeSteps : List Action :=
  confirmOffline (sampleArb "K" "11") "x" ++ [closeEvent 2000000, commsWith ["x"], commsOne]

/-- The Kalshi leg of the sample pair has the close time of the event. -/
theorem close_times_follow_sample :
    ∃ p g leg, run (withHistory noteClose (System.step sampleConfig)) (init (1 / 5) 2, {})
        closeSteps = some (p, g) ∧
      p.book.Registered "x" leg ∧ leg.platform = .kalshi ∧ leg.closeTimeMs = 2000000000 := by
  have hrun : (run (withHistory noteClose (System.step sampleConfig)) (init (1 / 5) 2, {})
      closeSteps).any (fun s => s.1.betweenMessages && (s.1.book.records "x").any fun w =>
        decide (w.arb.anchor.platform = .kalshi) &&
          decide (s.2.latest w.arb.anchor.marketKey = some 2000000000)) = true := by
    decide +kernel
  have hcurrent : Along (withHistory noteClose (System.step sampleConfig)) RegistersCurrent
      (init (1 / 5) 2, {}) closeSteps := by decide +kernel
  obtain ⟨⟨p, g⟩, hp, hcheck⟩ := (Option.any_eq_true _ _).mp hrun
  simp only [Bool.and_eq_true, decide_eq_true_eq, Option.any_eq_true] at hcheck
  obtain ⟨hbetween, w, hw, hk, hlatest⟩ := hcheck
  have hleg : p.book.Registered "x" w.arb.anchor := ⟨w, hw, List.mem_cons_self ..⟩
  exact ⟨p, g, w.arb.anchor, hp, hleg, hk,
    (close_times_follow hcurrent hp hbetween hleg hk).1 _ hlatest⟩

/-! ## §4 An earlier close time -/

/-- After the event a second arb on the market is confirmed from an older snapshot. -/
def snapshotSteps : List Action :=
  closeSteps ++ .receive (.confirmedAndRun (sampleArb "K" "12") "y") :: List.replicate 6 commsOne ++
    [commsOffline, commsOffline]

/-- The first arb is confirmed once more. -/
def redeliverySteps : List Action :=
  .receive (.confirmedAndRun (sampleArb "K" "11") "x") :: List.replicate 4 commsOne ++
    [commsOffline, commsOffline]

/-- The close time that the anchor leg of an arb carries. -/
def anchorClose (s : System × CloseHistory) (cid : CorrelationId) : Option (MarketKey × ℤ) :=
  (s.1.book.records cid).map fun w => (w.arb.anchor.marketKey, w.arb.anchor.closeTimeMs)

/-- **An earlier close time returns**: the second arb on the market carries the close time from
    before the event, and so does the first one after it is delivered again. -/
theorem earlier_close_time_returns :
    ∃ s t, run (withHistory noteClose (System.step sampleConfig)) (init (1 / 5) 2, {})
        snapshotSteps = some s ∧ s.1.betweenMessages = true ∧
      s.2.latest "KALSHI:K" = some 2000000000 ∧
      anchorClose s "x" = some ("KALSHI:K", 2000000000) ∧
      anchorClose s "y" = some ("KALSHI:K", 1000000000000) ∧
      run (withHistory noteClose (System.step sampleConfig)) s redeliverySteps = some t ∧
      t.1.betweenMessages = true ∧ t.2.latest "KALSHI:K" = some 2000000000 ∧
      anchorClose t "x" = some ("KALSHI:K", 1000000000000) := by
  have hrun : (run (withHistory noteClose (System.step sampleConfig)) (init (1 / 5) 2, {})
      snapshotSteps).any (fun s => s.1.betweenMessages &&
        decide (s.2.latest "KALSHI:K" = some 2000000000) &&
        decide (anchorClose s "x" = some ("KALSHI:K", 2000000000)) &&
        decide (anchorClose s "y" = some ("KALSHI:K", 1000000000000)) &&
        (run (withHistory noteClose (System.step sampleConfig)) s redeliverySteps).any fun t =>
          t.1.betweenMessages && decide (t.2.latest "KALSHI:K" = some 2000000000) &&
          decide (anchorClose t "x" = some ("KALSHI:K", 1000000000000))) = true := by
    decide +kernel
  obtain ⟨s, hs, hcheck⟩ := (Option.any_eq_true _ _).mp hrun
  simp only [Bool.and_eq_true, decide_eq_true_eq, Option.any_eq_true] at hcheck
  obtain ⟨⟨⟨⟨hbetween, hlatest⟩, hx⟩, hy⟩, t, ht, ⟨hbetween', hlatest'⟩, hx'⟩ := hcheck
  exact ⟨s, t, hs, hbetween, hlatest, hx, hy, ht, hbetween', hlatest', hx'⟩

end System

end Degenerate.Picker
