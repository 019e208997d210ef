import Degenerate.Picker.TwoIndexSync

/-!
# Eviction

`unregister_arb` takes a pair out of both indexes, and gives up the markets that no
other pair has a leg on: their top of book goes, and a background task unsubscribes
from each of them.  The loop runs over the two legs and changes the registry in
between, so with both legs on one market its second turn finds nothing left to do.

## Main Results

- `Book.Sync.evicted`: the evicted legs, market by market
- `evicts_exactly`: what `unregister_arb` removes, and what it leaves alone
-/

namespace Degenerate.Picker

open Degenerate.Lib

/-! ## §1 The evicted legs -/

namespace Book

/-- Nobody but `cid` watches the market `k`, which is watched. -/
def SoleWatcher (b : Book) (cid : CorrelationId) (k : MarketKey) : Prop :=
  ∃ set, b.registry k = some set ∧ set.erase cid = ∅

/-- One turn of the loop evicts its leg when nobody else watches the market. -/
theorem unwatch_evicted (b : Book) (cid : CorrelationId) (leg : ArbMinifiedInfo) :
    b.SoleWatcher cid leg.marketKey ∧ (b.unwatch cid leg).2 = [leg] ∨
      ¬ b.SoleWatcher cid leg.marketKey ∧ (b.unwatch cid leg).2 = [] := by
  unfold unwatch
  split
  · -- no set: nobody watches the key
    rename_i hnone
    refine .inr ⟨?_, rfl⟩
    rintro ⟨set, hset, -⟩
    cases hnone.symm.trans hset
  · rename_i set hset
    split
    · rename_i he
      exact .inl ⟨⟨set, hset, he⟩, rfl⟩
    · -- others watch it too
      rename_i he
      refine .inr ⟨?_, rfl⟩
      rintro ⟨set', hset', he'⟩
      cases hset.symm.trans hset'
      exact he he'

/-- After the turn for a market nobody is its sole watcher any more. -/
theorem not_soleWatcher_unwatch (b : Book) (cid : CorrelationId) (leg : ArbMinifiedInfo) :
    ¬ (b.unwatch cid leg).1.SoleWatcher cid leg.marketKey := by
  rintro ⟨set, hset, he⟩
  rw [unwatch_registry, if_pos rfl] at hset
  obtain ⟨hne, old, -, rfl⟩ := dropFrom_eq_some hset
  rw [Finset.erase_idem] at he
  exact hne he

/-- The turn for another market changes nothing about this one. -/
theorem soleWatcher_unwatch_of_ne {b : Book} {cid : CorrelationId} {leg : ArbMinifiedInfo}
    {k : MarketKey} (hk : k ≠ leg.marketKey) :
    (b.unwatch cid leg).1.SoleWatcher cid k ↔ b.SoleWatcher cid k := by
  rw [SoleWatcher, unwatch_registry, if_neg hk]
  exact Iff.rfl

/-- One turn, seen from one market: its leg is evicted from there. -/
theorem unwatch_filter_of_sole {b : Book} {cid : CorrelationId} {leg : ArbMinifiedInfo}
    {k : MarketKey} (hk : leg.marketKey = k) (h : b.SoleWatcher cid k) :
    (b.unwatch cid leg).2.filter (·.marketKey = k) = [leg] := by
  subst hk
  rcases unwatch_evicted b cid leg with ⟨-, h⟩ | ⟨hnot, -⟩
  · rw [h]
    simp
  · exact absurd h hnot

/-- One turn, seen from a market that it is not about, or that others watch. -/
theorem unwatch_filter_eq_nil {b : Book} {cid : CorrelationId} {leg : ArbMinifiedInfo}
    {k : MarketKey} (h : ¬ (leg.marketKey = k ∧ b.SoleWatcher cid k)) :
    (b.unwatch cid leg).2.filter (·.marketKey = k) = [] := by
  rcases unwatch_evicted b cid leg with ⟨hsole, hlegs⟩ | ⟨-, hlegs⟩
  · have hne : leg.marketKey ≠ k := by
      rintro rfl
      exact h ⟨rfl, hsole⟩
    rw [hlegs]
    simp [hne]
  · rw [hlegs]
    rfl

/-- **The evicted legs on one market**: one leg of the pair if the pair is its sole watcher,
    and none otherwise. -/
theorem evicted_filter {b : Book} {cid : CorrelationId} {w : ArbWatch}
    (hw : b.records cid = some w) (k : MarketKey) :
    (k ∈ w.legKeys ∧ b.SoleWatcher cid k → ∃ leg ∈ w.legs, leg.marketKey = k ∧
      (b.unregisterArb cid).2.filter (·.marketKey = k) = [leg]) ∧
    (¬ (k ∈ w.legKeys ∧ b.SoleWatcher cid k) →
      (b.unregisterArb cid).2.filter (·.marketKey = k) = []) := by
  set b₀ : Book := { b with records := b.records.erase cid } with hb₀
  have hsplit : (b.unregisterArb cid).2.filter (·.marketKey = k) =
      (b₀.unwatch cid w.arb.anchor).2.filter (·.marketKey = k) ++
      ((b₀.unwatch cid w.arb.anchor).1.unwatch cid w.arb.match).2.filter (·.marketKey = k) := by
    rw [← List.filter_append]
    simp only [unregisterArb, hw, ← hb₀]
  have hmem : k ∈ w.legKeys ↔ w.arb.anchor.marketKey = k ∨ w.arb.match.marketKey = k := by
    simp [ArbWatch.legKeys, ArbWatch.legs, eq_comm]
  have hsame : b.SoleWatcher cid k ↔ b₀.SoleWatcher cid k := Iff.rfl
  rw [hsplit, hmem, hsame]
  by_cases ha : w.arb.anchor.marketKey = k
  · -- the anchor's turn: the match's turn finds nobody watching alone
    have hsecond := not_soleWatcher_unwatch b₀ cid w.arb.anchor
    rw [ha] at hsecond
    rw [unwatch_filter_eq_nil fun h => hsecond h.2, List.append_nil]
    refine ⟨fun h => ⟨w.arb.anchor, by simp [ArbWatch.legs], ha, unwatch_filter_of_sole ha h.2⟩,
      fun hnot => unwatch_filter_eq_nil fun h => hnot ⟨.inl ha, h.2⟩⟩
  · -- the anchor's turn is about another market
    have hother : (b₀.unwatch cid w.arb.anchor).1.SoleWatcher cid k ↔ b₀.SoleWatcher cid k :=
      soleWatcher_unwatch_of_ne (Ne.symm ha)
    rw [unwatch_filter_eq_nil fun h => ha h.1, List.nil_append]
    refine ⟨fun h => ?_, fun hnot => unwatch_filter_eq_nil fun h => ?_⟩
    · have hm : w.arb.match.marketKey = k := h.1.resolve_left ha
      exact ⟨w.arb.match, by simp [ArbWatch.legs], hm,
        unwatch_filter_of_sole hm (hother.mpr h.2)⟩
    · exact hnot ⟨.inr h.1, hother.mp h.2⟩

/-! ## §2 Legs and watchers -/

/-- The pair `cid` has a leg on the market `k`. -/
def HasLeg (b : Book) (cid : CorrelationId) (k : MarketKey) : Prop :=
  ∃ w, b.records cid = some w ∧ k ∈ w.legKeys

/-- The pair `cid` is the only one with a leg on the market `k`. -/
def OnlyHasLeg (b : Book) (cid : CorrelationId) (k : MarketKey) : Prop :=
  b.HasLeg cid k ∧ ∀ c, b.HasLeg c k → c = cid

/-- The market `k` is a leg of some pair. -/
def IsLeg (b : Book) (k : MarketKey) : Prop := ∃ cid, b.HasLeg cid k

/-- In sync, the sole watcher of a market is the only pair with a leg on it. -/
theorem Sync.soleWatcher_iff {b : Book} (hb : b.Sync) {cid : CorrelationId} {k : MarketKey}
    (hk : b.HasLeg cid k) : b.SoleWatcher cid k ↔ ∀ c, b.HasLeg c k → c = cid := by
  obtain ⟨set, hset, -⟩ := (hb.watches_iff k cid).mpr hk
  -- the members of the set are the pairs with a leg on the market
  have hmem : ∀ c, c ∈ set ↔ b.HasLeg c k := by
    intro c
    refine Iff.trans ⟨fun h => ⟨set, hset, h⟩, ?_⟩ (hb.watches_iff k c)
    rintro ⟨set', hset', h⟩
    cases hset.symm.trans hset'
    exact h
  have hsole : b.SoleWatcher cid k ↔ set.erase cid = ∅ := by
    constructor
    · rintro ⟨set', hset', h⟩
      cases hset.symm.trans hset'
      exact h
    · intro h
      exact ⟨set, hset, h⟩
  rw [hsole, Finset.eq_empty_iff_forall_notMem]
  constructor
  · intro h c hc
    by_contra hne
    exact h c (Finset.mem_erase.mpr ⟨hne, (hmem c).mpr hc⟩)
  · intro h c hc
    obtain ⟨hne, hc⟩ := Finset.mem_erase.mp hc
    exact hne (h c ((hmem c).mp hc))

/-- In sync, an id without a leg on a market is not in its watcher set. -/
theorem Sync.erase_registry {b : Book} (hb : b.Sync) {cid : CorrelationId} {k : MarketKey}
    (hk : ¬ b.HasLeg cid k) : (b.registry k).map (·.erase cid) = b.registry k := by
  cases hr : b.registry k with
  | none => rfl
  | some set =>
    have hnot : cid ∉ set := fun h => hk ((hb.watches_iff k cid).mp ⟨set, hr, h⟩)
    rw [Option.map_some, Finset.erase_eq_of_notMem hnot]

/-- **The evicted legs, market by market**: in sync, a leg is evicted from the markets that no
    other pair has a leg on. -/
theorem Sync.evicted {b : Book} (hb : b.Sync) (cid : CorrelationId) (k : MarketKey) :
    (b.OnlyHasLeg cid k → ∃ w, b.records cid = some w ∧ ∃ leg ∈ w.legs, leg.marketKey = k ∧
      (b.unregisterArb cid).2.filter (·.marketKey = k) = [leg]) ∧
    (¬ b.OnlyHasLeg cid k → (b.unregisterArb cid).2.filter (·.marketKey = k) = []) := by
  cases hw : b.records cid with
  | none =>
    rw [unregisterArb_of_none hw]
    refine ⟨?_, fun _ => rfl⟩
    rintro ⟨⟨w, hw', -⟩, -⟩
    cases hw.symm.trans hw'
  | some w =>
    -- the two indexes agree on who watches the key
    have hiff : b.OnlyHasLeg cid k ↔ k ∈ w.legKeys ∧ b.SoleWatcher cid k := by
      constructor
      · rintro ⟨hleg, honly⟩
        have hsole := (hb.soleWatcher_iff hleg).mpr honly
        obtain ⟨w', hw', hk⟩ := hleg
        cases hw.symm.trans hw'
        exact ⟨hk, hsole⟩
      · rintro ⟨hk, hsole⟩
        exact ⟨⟨w, hw, hk⟩, (hb.soleWatcher_iff ⟨w, hw, hk⟩).mp hsole⟩
    obtain ⟨hone, hnone⟩ := evicted_filter hw k
    rw [hiff]
    exact ⟨fun h => ⟨w, rfl, hone h⟩, hnone⟩

/-- In sync, a market loses its set or one id of it. -/
theorem Sync.unregisterArb_registry {b : Book} (hb : b.Sync) (cid : CorrelationId)
    (k : MarketKey) :
    (b.OnlyHasLeg cid k → (b.unregisterArb cid).1.registry k = none) ∧
    (¬ b.OnlyHasLeg cid k →
      (b.unregisterArb cid).1.registry k = (b.registry k).map (·.erase cid)) := by
  by_cases hleg : b.HasLeg cid k
  · have hleg' := hleg
    obtain ⟨w, hw, hk⟩ := hleg'
    obtain ⟨set, hset, -⟩ := (hb.watches_iff k cid).mpr hleg
    rw [Book.unregisterArb_registry hw, if_pos hk, hset, dropFrom]
    constructor
    · rintro ⟨-, honly⟩
      obtain ⟨set', hset', he⟩ := (hb.soleWatcher_iff hleg).mpr honly
      cases hset.symm.trans hset'
      rw [if_pos he]
    · intro hnot
      have hne : set.erase cid ≠ ∅ := fun he =>
        hnot ⟨hleg, (hb.soleWatcher_iff hleg).mp ⟨set, hset, he⟩⟩
      rw [if_neg hne]
      rfl
  · -- neither index mentions the id on this market
    refine ⟨fun h => absurd h.1 hleg, fun _ => ?_⟩
    rw [hb.erase_registry hleg]
    cases hw : b.records cid with
    | none => rw [unregisterArb_of_none hw]
    | some w =>
      rw [Book.unregisterArb_registry hw, if_neg fun hk => hleg ⟨w, hw, hk⟩]

/-- Two books with the same indexes are equal. -/
theorem eq_of_indexes {b b' : Book} (hreg : ∀ k, b.registry k = b'.registry k)
    (hrec : ∀ c, b.records c = b'.records c) : b = b' := by
  obtain ⟨registry, records⟩ := b
  obtain ⟨registry', records'⟩ := b'
  obtain rfl : registry = registry' := funext hreg
  obtain rfl : records = records' := funext hrec
  rfl

/-- **There and back**: unregistering a pair that was just registered under a fresh id leaves
    both indexes as they were. -/
theorem Sync.unregisterArb_registerArb {b : Book} (hb : b.Sync) {w : ArbWatch}
    (hfresh : b.records w.correlationId = none) :
    ((b.registerArb w).unregisterArb w.correlationId).1 = b := by
  have hw : (b.registerArb w).records w.correlationId = some w := by
    rw [registerArb_records, PMap.insert_self]
  apply eq_of_indexes
  · intro k
    rw [Book.unregisterArb_registry hw, registerArb_registry]
    by_cases hk : k ∈ w.legKeys
    · rw [if_pos hk, if_pos hk, dropFrom]
      cases hr : b.registry k with
      | none => simp
      | some set =>
        -- a fresh id is in no set, and no set is empty
        have hnot : w.correlationId ∉ set := by
          intro h
          obtain ⟨w', hw', -⟩ := (hb.watches_iff k _).mp ⟨set, hr, h⟩
          cases hfresh.symm.trans hw'
        have hne : set ≠ ∅ := Finset.nonempty_iff_ne_empty.mp (hb.nonempty k set hr)
        rw [Option.getD_some, Finset.erase_insert hnot, if_neg hne]
    · rw [if_neg hk, if_neg hk]
  · intro c
    rw [unregisterArb_records, registerArb_records, PMap.erase_apply]
    split
    · rename_i hc
      rw [hc, hfresh]
    · rename_i hc
      rw [PMap.insert_of_ne _ hc]

end Book

/-! ## §3 The whole of `unregister_arb` -/

/-- The task of a leg calls `del_market_ticker` of the leg's venue for its token. -/
theorem DelTask.start_eq (leg : ArbMinifiedInfo) :
    start leg = if leg.platform = .kalshi then .kalshi (.remove leg.tokenId)
      else .polymarket (.filter [leg.tokenId]) := by
  unfold start
  cases leg.platform <;> rfl

namespace System

/-- One unsubscribe is spawned for each evicted leg. -/
theorem unregisterArb_spawned (p : System) (cid : CorrelationId) :
    (p.unregisterArb cid).spawned =
      p.spawned ++ (p.book.unregisterArb cid).2.map (fun leg =>
        if leg.platform = .kalshi then .kalshi (.remove leg.tokenId)
        else .polymarket (.filter [leg.tokenId])) := by
  simp only [← DelTask.start_eq]
  rfl

/-- The markets that lose their top of book are those of the evicted legs. -/
theorem unregisterArb_topOfBook {p : System} (hb : p.book.Sync) (cid : CorrelationId)
    (k : MarketKey) :
    (p.book.OnlyHasLeg cid k → (p.unregisterArb cid).topOfBook k = none) ∧
    (¬ p.book.OnlyHasLeg cid k → (p.unregisterArb cid).topOfBook k = p.topOfBook k) := by
  have htop : (p.unregisterArb cid).topOfBook k =
      if k ∈ (p.book.unregisterArb cid).2.map (·.marketKey) then none else p.topOfBook k :=
    PMap.eraseAll_apply ..
  obtain ⟨hone, hnone⟩ := hb.evicted cid k
  rw [htop]
  constructor
  · -- the market of the one leg that is evicted with this key
    intro honly
    obtain ⟨w, -, leg, -, hk, hfilter⟩ := hone honly
    apply if_pos
    have hleg : leg ∈ (p.book.unregisterArb cid).2.filter (·.marketKey = k) := by
      rw [hfilter]
      exact List.mem_singleton_self leg
    rw [← hk]
    exact List.mem_map_of_mem (List.mem_filter.mp hleg).1
  · -- no leg with this key is evicted
    intro hnot
    apply if_neg
    intro hmem
    obtain ⟨leg, hleg, hk⟩ := List.mem_map.mp hmem
    have hfilter : leg ∈ (p.book.unregisterArb cid).2.filter (·.marketKey = k) :=
      List.mem_filter.mpr ⟨hleg, by simpa using hk⟩
    rw [hnone hnot] at hfilter
    cases hfilter

/-- Nothing happens for an id without a record. -/
theorem unregisterArb_of_none {p : System} {cid : CorrelationId}
    (h : p.book.records cid = none) : p.unregisterArb cid = p := by
  simp only [unregisterArb, Book.unregisterArb_of_none h, List.map_nil, List.append_nil]
  rfl

/-- **Eviction is exact**: `unregister_arb` takes its pair's record and no other.  A market on
    which only this pair has a leg loses its watchers and its top of book, and one task
    calls `del_market_ticker` of that leg's venue for its token.  Every other market keeps
    its top of book and its other watchers, and is not unsubscribed from.  An unknown id
    changes nothing, and unregistering a fresh pair undoes its registration. -/
theorem evicts_exactly {p : System} (hb : p.book.Sync) (cid : CorrelationId) :
    (p.unregisterArb cid).book.records = p.book.records.erase cid ∧
    (∃ legs : List ArbMinifiedInfo,
      (p.unregisterArb cid).spawned = p.spawned ++ legs.map (fun leg =>
        if leg.platform = .kalshi then .kalshi (.remove leg.tokenId)
        else .polymarket (.filter [leg.tokenId])) ∧
      ∀ k,
        (p.book.OnlyHasLeg cid k →
          (p.unregisterArb cid).book.registry k = none ∧
          (p.unregisterArb cid).topOfBook k = none ∧
          ∃ w, p.book.records cid = some w ∧ ∃ leg ∈ w.legs, leg.marketKey = k ∧
            legs.filter (·.marketKey = k) = [leg]) ∧
        (¬ p.book.OnlyHasLeg cid k →
          (p.unregisterArb cid).book.registry k = (p.book.registry k).map (·.erase cid) ∧
          (p.unregisterArb cid).topOfBook k = p.topOfBook k ∧
          legs.filter (·.marketKey = k) = [])) ∧
    (p.book.records cid = none → p.unregisterArb cid = p) ∧
    ∀ w, p.book.records w.correlationId = none →
      ((p.register w).unregisterArb w.correlationId).book = p.book := by
  refine ⟨Book.unregisterArb_records p.book cid, ⟨_, p.unregisterArb_spawned cid, fun k => ?_⟩,
    unregisterArb_of_none, fun w hw => hb.unregisterArb_registerArb hw⟩
  -- the registry, the prices and the legs, each for a market of this pair alone or not
  obtain ⟨hregone, hregnone⟩ := hb.unregisterArb_registry cid k
  obtain ⟨htopone, htopnone⟩ := unregisterArb_topOfBook hb cid k
  obtain ⟨hlegone, hlegnone⟩ := hb.evicted cid k
  exact ⟨fun h => ⟨hregone h, htopone h, hlegone h⟩,
    fun h => ⟨hregnone h, htopnone h, hlegnone h⟩⟩

/-- A state in which only the sample pair is registered. -/
def onePairState : System :=
  { exec := Executor.init (1 / 5) 2
    book := Book.new.registerArb sampleWatch }

/-- The removal of the sample pair leaves no record. -/
theorem evicts_exactly_sample :
    onePairState.book.Sync ∧ (onePairState.unregisterArb "x").book.records "x" = none := by
  have hsync : onePairState.book.Sync := by
    refine (Book.sync_registerArb_iff Book.sync_new sampleWatch).mpr ?_
    intro old hold
    cases hold
  refine ⟨hsync, ?_⟩
  rw [(evicts_exactly hsync "x").1]
  exact PMap.erase_self _ _

end System

end Degenerate.Picker
