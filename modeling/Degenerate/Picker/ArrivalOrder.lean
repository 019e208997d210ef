import Mathlib.Data.Int.ConditionallyCompleteOrder
import Degenerate.Lib.LatestEntry
import Degenerate.Picker.CommsTask

/-!
# Arrival Order of Prices

`on_price_update` drops an update whose stamp is not after the stored one, so the top of
book of a market is a register that keeps the latest of all updates.  Updates with
distinct stamps may arrive in any order, and from any source: the seeds of HTTP and the
messages of the WebSocket go through the same function.

## Main Results

- `topOfBook_run`: the entry of a market after any run that does not evict it
- `arrival_order_immaterial`: two orders of the same updates end with the same entry
-/

namespace Degenerate.Picker

open Degenerate.Lib

namespace System

/-! ## §1 One call -/

/-- The stale-update guard, as a comparison with what is stored. -/
theorem accepts_iff {p : System} {key : MarketKey} {tob : TopOfBook} :
    p.accepts key tob = true ↔
      ∀ e, p.topOfBook key = some e → e.tobTimestampMs < tob.tobTimestampMs := by
  unfold accepts
  cases p.topOfBook key <;> simp

/-- **One call** of `on_price_update` keeps the later entry, and touches no other market. -/
theorem onPriceUpdate_topOfBook {cfg : Config} {c : Choice} {p q : System} {key : MarketKey}
    {tob : TopOfBook} (h : opStep cfg c p (.onPriceUpdate key tob) = some q) :
    q.topOfBook key = keepLater TopOfBook.tobTimestampMs (p.topOfBook key) tob ∧
      ∀ k ≠ key, q.topOfBook k = p.topOfBook k := by
  simp only [opStep] at h
  split at h
  · -- a price that is accepted takes the place of an older one
    rename_i hacc
    split at h
    · cases h
      refine ⟨?_, fun k hk => PMap.insert_of_ne _ hk _⟩
      show (p.topOfBook.insert key tob) key = _
      rw [PMap.insert_self]
      cases hstored : p.topOfBook key with
      | none => rfl
      | some e => exact (if_pos (accepts_iff.mp hacc e hstored)).symm
    · cases h
  · -- a price that is not newer than the stored one is dropped
    rename_i hstale
    cases h
    refine ⟨?_, fun _ _ => rfl⟩
    rw [accepts_iff] at hstale
    push Not at hstale
    obtain ⟨e, hstored, hle⟩ := hstale
    rw [hstored]
    exact (if_neg (not_lt.mpr hle)).symm

/-- `on_price_update` takes every update in every state. -/
theorem exists_onPriceUpdate (cfg : Config) (p : System) (key : MarketKey) (tob : TopOfBook) :
    ∃ c q, opStep cfg c p (.onPriceUpdate key tob) = some q := by
  let c : Choice := { order := ((p.book.registry key).getD ∅).toList, markets := oneSlugVenue }
  have hiter : c.iterates ((p.book.registry key).getD ∅) = true := by
    simp [c, Choice.iterates, Finset.nodup_toList]
  by_cases hacc : p.accepts key tob = true
  · refine ⟨c, { p with topOfBook := p.topOfBook.insert key tob }.push (c.order.map .evaluateArb),
      ?_⟩
    simp only [opStep]
    rw [if_pos hacc, if_pos hiter]
  · refine ⟨c, p, ?_⟩
    simp only [opStep]
    rw [if_neg hacc]

/-- Calls of `on_price_update` for one market, one after the other. -/
inductive Feeds (cfg : Config) (key : MarketKey) : System → List TopOfBook → System → Prop where
  | nil (p : System) : Feeds cfg key p [] p
  | cons {p q r : System} {c : Choice} {tob : TopOfBook} {tobs : List TopOfBook}
      (call : opStep cfg c p (.onPriceUpdate key tob) = some q) (rest : Feeds cfg key q tobs r) :
      Feeds cfg key p (tob :: tobs) r

/-- The entry after some calls is the latest, and no other market is touched. -/
theorem Feeds.topOfBook {cfg : Config} {key : MarketKey} {p q : System} {tobs : List TopOfBook}
    (h : Feeds cfg key p tobs q) :
    q.topOfBook key = tobs.foldl (keepLater TopOfBook.tobTimestampMs) (p.topOfBook key) ∧
      ∀ k ≠ key, q.topOfBook k = p.topOfBook k := by
  induction h with
  | nil p => exact ⟨rfl, fun _ _ => rfl⟩
  | cons call rest ih =>
    obtain ⟨hkey, hothers⟩ := onPriceUpdate_topOfBook call
    refine ⟨?_, fun k hk => (ih.2 k hk).trans (hothers k hk)⟩
    rw [ih.1, hkey]
    rfl

/-- Any list of updates can be fed. -/
theorem exists_feeds (cfg : Config) (key : MarketKey) (p : System) (tobs : List TopOfBook) :
    ∃ q, Feeds cfg key p tobs q := by
  induction tobs generalizing p with
  | nil => exact ⟨p, .nil p⟩
  | cons tob tobs ih =>
    obtain ⟨c, q, hcall⟩ := exists_onPriceUpdate cfg p key tob
    obtain ⟨r, hrest⟩ := ih q
    exact ⟨r, .cons hcall hrest⟩

/-! ## §2 Whole runs -/

/-- The updates for a market that a step feeds to `on_price_update`. -/
def fed (key : MarketKey) (p : System) : Action → List TopOfBook
  | .comms _ =>
      match p.comms.pc, p.comms.todo with
      | .next, .onPriceUpdate k tob :: _ => if k = key then [tob] else []
      | _, _ => []
  | _ => []

/-- The step does not evict the market. -/
def KeepsMarket (key : MarketKey) (p : System) (a : Action) : Prop :=
  ∀ c cid rest, a = .comms c → p.comms.pc = .next →
    p.comms.todo = .unregisterArb cid :: rest →
      key ∉ (p.book.unregisterArb cid).2.map (·.marketKey)

/-- A step that feeds an update is a call of `on_price_update`. -/
theorem call_of_fed {cfg : Config} {p q : System} {a : Action} {key : MarketKey}
    (hfed : fed key p a ≠ []) (h : System.step cfg p a = some q) :
    ∃ c tob rest, fed key p a = [tob] ∧
      opStep cfg c (p.pop rest) (.onPriceUpdate key tob) = some q := by
  unfold fed at hfed ⊢
  split at hfed
  · rename_i c
    split at hfed
    · rename_i k tob rest hpc htodo
      split at hfed
      · rename_i hk
        subst hk
        refine ⟨c, tob, rest, by simp, ?_⟩
        simpa only [System.step, commsStep, hpc, htodo] using h
      · exact absurd rfl hfed
    · exact absurd rfl hfed
  · exact absurd rfl hfed

/-- A step that feeds nothing and does not evict the market keeps its entry. -/
theorem topOfBook_of_not_fed {cfg : Config} {p q : System} {a : Action} {key : MarketKey}
    (hfed : fed key p a = []) (hkeep : KeepsMarket key p a) (h : System.step cfg p a = some q) :
    q.topOfBook key = p.topOfBook key := by
  rcases step_owned_cases h with haside | ⟨_, -, -, -, -, htop⟩ | ⟨_, _, -, -, -, -, htop⟩ |
    ⟨c, k, tob, _, rest, rfl, hpc, htodo, -, -, -, -, htop⟩ |
    ⟨c, cid, rest, rfl, hpc, htodo, -, -, htop⟩ |
    ⟨_, _, _, _, _, -, -, -, -, -, htop⟩ | ⟨_, _, _, _, -, -, -, -, -, -, htop⟩
  · exact congrFun haside.owned.topOfBook key
  · exact congrFun htop key
  · exact congrFun htop key
  · -- the update that is stored is for another market
    have hne : key ≠ k := by
      rintro rfl
      simp [fed, hpc, htodo] at hfed
    rw [htop, PMap.insert_of_ne _ hne]
  · rw [htop, PMap.eraseAll_apply, if_neg (hkeep c cid rest rfl hpc htodo)]
  · exact congrFun htop key
  · exact congrFun htop key

/-- **One step** writes the updates that it feeds. -/
theorem topOfBook_step {cfg : Config} {p q : System} {a : Action} {key : MarketKey}
    (hkeep : KeepsMarket key p a) (h : System.step cfg p a = some q) :
    q.topOfBook key =
      (fed key p a).foldl (keepLater TopOfBook.tobTimestampMs) (p.topOfBook key) := by
  by_cases hfed : fed key p a = []
  · rw [hfed]
    exact topOfBook_of_not_fed hfed hkeep h
  · obtain ⟨c, tob, rest, hone, hcall⟩ := call_of_fed hfed h
    rw [hone]
    exact (onPriceUpdate_topOfBook hcall).1

/-- **The entry of a market after a run** that does not evict it: the latest of the first entry
    and all updates that were fed. -/
theorem topOfBook_run {cfg : Config} {p q : System} {as : List Action} {key : MarketKey}
    (hkeep : Along (System.step cfg) (KeepsMarket key) p as)
    (h : run (System.step cfg) p as = some q) :
    q.topOfBook key = ((p.topOfBook key).toList ++
      trace (fed key) (System.step cfg) p as).argmax TopOfBook.tobTimestampMs := by
  rw [← foldl_keepLater]
  refine foldl_trace_along (I := fun (s : System) g => s.topOfBook key = g) _
    (fun s a t g hs hk ht => ?_) rfl hkeep h
  rw [topOfBook_step hk ht, hs]

/-- A run that feeds these updates for the market, and does not evict it. -/
def RunFeeds (cfg : Config) (key : MarketKey) (p : System) (tobs : List TopOfBook)
    (q : System) : Prop :=
  ∃ as, Along (System.step cfg) (KeepsMarket key) p as ∧ run (System.step cfg) p as = some q ∧
    trace (fed key) (System.step cfg) p as = tobs

/-- No two of the entries have the same stamp. -/
def DistinctStamps (tobs : List TopOfBook) : Prop := (tobs.map TopOfBook.tobTimestampMs).Nodup

/-- Updates in another order leave the same latest entry. -/
theorem argmax_of_perm {stored : Option TopOfBook} {tobs tobs' : List TopOfBook}
    (hperm : tobs'.Perm tobs) (hd : DistinctStamps (stored.toList ++ tobs)) :
    (stored.toList ++ tobs').argmax TopOfBook.tobTimestampMs =
      (stored.toList ++ tobs).argmax TopOfBook.tobTimestampMs :=
  (argmax_eq_of_perm (hperm.symm.append_left _) hd).symm

/-- The first entry of a market is not later than the last. -/
theorem stamp_le_of_argmax {stored : Option TopOfBook} {tobs : List TopOfBook} {e : TopOfBook}
    (he : stored = some e) : ∃ e', (stored.toList ++ tobs).argmax TopOfBook.tobTimestampMs =
      some e' ∧ e.tobTimestampMs ≤ e'.tobTimestampMs := by
  subst he
  exact exists_argmax_ge (by simp)

/-- **The order of arrival is immaterial**: updates with distinct stamps, fed in any order,
    leave the one with the greatest stamp among them and the first entry, in consecutive
    calls as in any run of the system, whatever happens in between.  The stored stamp never
    decreases, and a call touches no other market. -/
theorem arrival_order_immaterial (cfg : Config) (key : MarketKey) {p : System}
    {tobs : List TopOfBook} (hd : DistinctStamps ((p.topOfBook key).toList ++ tobs)) :
    (∀ tobs' : List TopOfBook, tobs'.Perm tobs →
      (∃ q, Feeds cfg key p tobs' q) ∧
      (∀ q, Feeds cfg key p tobs' q →
        q.topOfBook key = ((p.topOfBook key).toList ++ tobs).argmax TopOfBook.tobTimestampMs ∧
          ∀ k ≠ key, q.topOfBook k = p.topOfBook k) ∧
      ∀ p' q, p'.topOfBook key = p.topOfBook key → RunFeeds cfg key p' tobs' q →
        q.topOfBook key = ((p.topOfBook key).toList ++ tobs).argmax TopOfBook.tobTimestampMs) ∧
    (∀ p' q tobs', Feeds cfg key p' tobs' q ∨ RunFeeds cfg key p' tobs' q →
      ∀ e, p'.topOfBook key = some e →
        ∃ e', q.topOfBook key = some e' ∧ e.tobTimestampMs ≤ e'.tobTimestampMs) ∧
    ∀ s t a, fed key s a ≠ [] → System.step cfg s a = some t →
      ∀ k ≠ key, t.topOfBook k = s.topOfBook k := by
  -- the entry at the end, in the order in which the updates were fed
  have hfeeds : ∀ {p' q : System} {tobs' : List TopOfBook}, Feeds cfg key p' tobs' q →
      q.topOfBook key =
        ((p'.topOfBook key).toList ++ tobs').argmax TopOfBook.tobTimestampMs := by
    intro p' q tobs' h
    rw [h.topOfBook.1, foldl_keepLater]
  have hruns : ∀ {p' q : System} {tobs' : List TopOfBook}, RunFeeds cfg key p' tobs' q →
      q.topOfBook key =
        ((p'.topOfBook key).toList ++ tobs').argmax TopOfBook.tobTimestampMs := by
    rintro p' q tobs' ⟨as, hkeep, hrun, rfl⟩
    exact topOfBook_run hkeep hrun
  refine ⟨fun tobs' hperm => ⟨exists_feeds cfg key p tobs', fun q hq => ?_, fun p' q hp hq => ?_⟩,
    ?_, ?_⟩
  · exact ⟨(hfeeds hq).trans (argmax_of_perm hperm hd), hq.topOfBook.2⟩
  · rw [hruns hq, hp]
    exact argmax_of_perm hperm hd
  · intro p' q tobs' h e he
    rw [h.elim hfeeds hruns]
    exact stamp_le_of_argmax he
  · intro s t a hfed hstep k hk
    obtain ⟨c, tob, rest, -, hcall⟩ := call_of_fed hfed hstep
    exact (onPriceUpdate_topOfBook hcall).2 k hk

/-- A top of book with this stamp. -/
def stampedTop (ms : ℤ) : TopOfBook where
  bestBid := .fin ⟨38, 2⟩
  bestAsk := .fin ⟨40, 2⟩
  bidSize := .zero
  askSize := .zero
  spread := .fin ⟨2, 2⟩
  tobTimestampMs := ms

/-- The second of three updates that arrive out of order stays. -/
theorem arrival_order_immaterial_sample :
    ∃ q, Feeds sampleConfig "KALSHI:K" (.init (1 / 5) 2) [stampedTop 1, stampedTop 3, stampedTop 2]
      q ∧ q.topOfBook "KALSHI:K" = some (stampedTop 3) := by
  have hd : DistinctStamps (((System.init (1 / 5) 2).topOfBook "KALSHI:K").toList ++
      [stampedTop 3, stampedTop 2, stampedTop 1]) := by
    unfold DistinctStamps
    decide
  obtain ⟨⟨q, hq⟩, hall, -⟩ := (arrival_order_immaterial sampleConfig "KALSHI:K" hd).1
    [stampedTop 1, stampedTop 3, stampedTop 2] (by decide)
  exact ⟨q, hq, (hall q hq).1.trans (by decide +kernel)⟩

end System

end Degenerate.Picker
