import Degenerate.Models
import Degenerate.Lib.PartialMap
import Degenerate.Lib.TransitionSystem

/-!
# The Watch Book

`PickerComms` keeps all active arb watches in two indexes:

```
registry:  MarketKey      →  {CorrelationId, …}
records:   CorrelationId  →  ArbWatch (both legs)
```

`register_arb` and `unregister_arb` write both, a `close_date_updated` event writes
a leg of a record in place.  Everything else reads.

## Main Definitions

- `Book.registerArb`, `Book.unregisterArb`, `Book.updateCloseTime`
- `Book.Watches b k cid`: `cid` is in `registry[k]`
- `BookOp`: the three operations as the actions of a transition system
-/

namespace Degenerate.Picker

open Degenerate.Lib

/-- The two indexes. -/
structure Book where
  /-- Reverse index: market to all arb ids watching it. -/
  registry : PMap MarketKey (Finset CorrelationId) := PMap.empty
  /-- Forward index: arb id to the full watch record with both legs. -/
  records : PMap CorrelationId ArbWatch := PMap.empty

namespace Book

/-! ## §1 Operations -/

/-- `Book::new`. -/
def new : Book := {}

/-- `registry.entry(key).or_insert_with(..).insert(cid)`. -/
def watch (b : Book) (key : MarketKey) (cid : CorrelationId) : Book :=
  { b with registry := b.registry.insert key (insert cid ((b.registry key).getD ∅)) }

/-- `register_arb`. -/
def registerArb (b : Book) (w : ArbWatch) : Book :=
  -- a record that is overwritten keeps its places in the registry
  let b := b.watch w.arb.anchor.marketKey w.correlationId
  let b := b.watch w.arb.match.marketKey w.correlationId
  { b with records := b.records.insert w.correlationId w }

/-- One turn of the loop of `unregister_arb`: drop `cid` from this leg's watcher set,
    and evict the leg when no other arb watches its market. -/
def unwatch (b : Book) (cid : CorrelationId) (leg : ArbMinifiedInfo) :
    Book × List ArbMinifiedInfo :=
  match b.registry leg.marketKey with
  | none => (b, [])
  | some set =>
      if set.erase cid = ∅ then
        ({ b with registry := b.registry.erase leg.marketKey }, [leg])
      else
        ({ b with registry := b.registry.insert leg.marketKey (set.erase cid) }, [])

/-- `unregister_arb` on the book, with the legs that it evicts. -/
def unregisterArb (b : Book) (cid : CorrelationId) : Book × List ArbMinifiedInfo :=
  match b.records cid with
  | none => (b, [])
  | some w =>
      let b₀ : Book := { b with records := b.records.erase cid }
      let r₁ := b₀.unwatch cid w.arb.anchor
      let r₂ := r₁.1.unwatch cid w.arb.match
      (r₂.1, r₁.2 ++ r₂.2)

/-- The leg with a new close time if it is on the market `key`. -/
def closeLeg (key : MarketKey) (ms : ℤ) (leg : ArbMinifiedInfo) : ArbMinifiedInfo :=
  if leg.marketKey = key then { leg with closeTimeMs := ms } else leg

/-- The `close_date_updated` branch for one watcher of the market `key`. -/
def updateCloseTime (b : Book) (key : MarketKey) (cid : CorrelationId)
    (closeTs : Option ℤ) : Book :=
  match b.records cid, closeTs with
  | some w, some ts =>
      let arb := { w.arb with
        anchor := closeLeg key (secsToMillis ts) w.arb.anchor
        «match» := closeLeg key (secsToMillis ts) w.arb.match }
      { b with records := b.records.insert cid { w with arb := arb } }
  | _, _ => b

/-! ## §2 What the operations do to the indexes -/

/-- `cid` is in the watcher set of `key`. -/
def Watches (b : Book) (key : MarketKey) (cid : CorrelationId) : Prop :=
  ∃ set, b.registry key = some set ∧ cid ∈ set

/-- The watcher set of a leg after `cid` is dropped from it. -/
def dropFrom (cid : CorrelationId) : Option (Finset CorrelationId) → Option (Finset CorrelationId)
  | none => none
  | some set => if set.erase cid = ∅ then none else some (set.erase cid)

/-- A set that survives the drop is what is left of one, and it is not empty. -/
theorem dropFrom_eq_some {cid : CorrelationId} {o : Option (Finset CorrelationId)}
    {set : Finset CorrelationId} (h : dropFrom cid o = some set) :
    set ≠ ∅ ∧ ∃ old, o = some old ∧ set = old.erase cid := by
  cases o with
  | none => cases h
  | some old =>
    rw [dropFrom] at h
    split at h
    · cases h
    · rename_i hne
      obtain rfl := Option.some.inj h
      exact ⟨hne, old, rfl, rfl⟩

theorem dropFrom_idem (cid : CorrelationId) (o : Option (Finset CorrelationId)) :
    dropFrom cid (dropFrom cid o) = dropFrom cid o := by
  cases o with
  | none => rfl
  | some set =>
    by_cases h : set.erase cid = ∅
    · simp [dropFrom, h]
    · simp [dropFrom, h]

@[simp] theorem registerArb_records (b : Book) (w : ArbWatch) :
    (b.registerArb w).records = b.records.insert w.correlationId w := rfl

theorem registerArb_registry (b : Book) (w : ArbWatch) (k : MarketKey) :
    (b.registerArb w).registry k =
      if k ∈ w.legKeys then some (insert w.correlationId ((b.registry k).getD ∅))
      else b.registry k := by
  simp only [registerArb, watch, PMap.insert_apply, ArbWatch.legKeys, ArbWatch.legs,
    List.map_cons, List.map_nil, List.mem_cons, List.not_mem_nil, or_false]
  by_cases ha : k = w.arb.anchor.marketKey
  · by_cases hm : k = w.arb.match.marketKey
    · simp [← ha, ← hm]
    · simp [← ha, hm]
  · by_cases hm : k = w.arb.match.marketKey
    · subst hm; simp [ha]
    · simp [ha, hm]

theorem unwatch_records (b : Book) (cid : CorrelationId) (leg : ArbMinifiedInfo) :
    (b.unwatch cid leg).1.records = b.records := by
  unfold unwatch
  split
  · rfl
  · split <;> rfl

theorem unwatch_registry (b : Book) (cid : CorrelationId) (leg : ArbMinifiedInfo)
    (k : MarketKey) :
    (b.unwatch cid leg).1.registry k =
      if k = leg.marketKey then dropFrom cid (b.registry k) else b.registry k := by
  unfold unwatch
  split
  · rename_i h
    by_cases hk : k = leg.marketKey
    · subst hk; simp [h, dropFrom]
    · simp [hk]
  · rename_i set h
    by_cases hk : k = leg.marketKey
    · subst hk
      by_cases he : set.erase cid = ∅ <;> simp [h, he, dropFrom]
    · by_cases he : set.erase cid = ∅ <;> simp [he, hk]

@[simp] theorem unregisterArb_records (b : Book) (cid : CorrelationId) :
    (b.unregisterArb cid).1.records = b.records.erase cid := by
  unfold unregisterArb
  split
  · rename_i h
    funext c
    by_cases hc : c = cid
    · subst hc; simp [h]
    · simp [hc]
  · simp [unwatch_records]

theorem unregisterArb_registry {b : Book} {cid : CorrelationId} {w : ArbWatch}
    (h : b.records cid = some w) (k : MarketKey) :
    (b.unregisterArb cid).1.registry k =
      if k ∈ w.legKeys then dropFrom cid (b.registry k) else b.registry k := by
  simp only [unregisterArb, h, unwatch_registry, ArbWatch.legKeys, ArbWatch.legs,
    List.map_cons, List.map_nil, List.mem_cons, List.not_mem_nil, or_false]
  by_cases ha : k = w.arb.anchor.marketKey
  · have hor : k = w.arb.anchor.marketKey ∨ k = w.arb.match.marketKey := .inl ha
    rw [if_pos ha, if_pos hor]
    -- both legs on one market: the second turn finds nothing left to drop
    split
    · exact dropFrom_idem cid _
    · rfl
  · rw [if_neg ha]
    by_cases hm : k = w.arb.match.marketKey
    · have hor : k = w.arb.anchor.marketKey ∨ k = w.arb.match.marketKey := .inr hm
      rw [if_pos hm, if_pos hor]
    · rw [if_neg hm, if_neg (not_or.mpr ⟨ha, hm⟩)]

/-- A market that is watched after an unregistration was watched before it. -/
theorem watched_of_unregisterArb {b : Book} {cid : CorrelationId} {k : MarketKey}
    (h : (b.unregisterArb cid).1.registry k ≠ none) : b.registry k ≠ none := by
  intro hnone
  cases hw : b.records cid with
  | none => exact h (by simpa [unregisterArb, hw] using hnone)
  | some w => exact h (by simp [unregisterArb_registry hw, hnone, dropFrom])

theorem unregisterArb_of_none {b : Book} {cid : CorrelationId} (h : b.records cid = none) :
    b.unregisterArb cid = (b, []) := by
  simp [unregisterArb, h]

/-- An evicted leg belongs to the removed record, and nobody watches its market any more. -/
theorem mem_evicted {b : Book} {cid : CorrelationId} {leg : ArbMinifiedInfo}
    (h : leg ∈ (b.unregisterArb cid).2) :
    ∃ w, b.records cid = some w ∧ leg ∈ w.legs ∧
      (b.unregisterArb cid).1.registry leg.marketKey = none := by
  -- one turn of the loop
  have hone : ∀ (b : Book) (l : ArbMinifiedInfo), leg ∈ (b.unwatch cid l).2 →
      leg = l ∧ dropFrom cid (b.registry leg.marketKey) = none := by
    intro b l hl
    unfold unwatch at hl
    split at hl
    · simp at hl
    · rename_i set hset
      split at hl
      · rename_i he
        obtain rfl : leg = l := by simpa using hl
        exact ⟨rfl, by simp [hset, dropFrom, he]⟩
      · simp at hl
  cases hw : b.records cid with
  | none => simp [unregisterArb_of_none hw] at h
  | some w =>
    refine ⟨w, rfl, ?_⟩
    simp only [unregisterArb, hw, List.mem_append] at h
    rw [unregisterArb_registry hw]
    rcases h with h | h
    · obtain ⟨rfl, hd⟩ := hone _ _ h
      refine ⟨by simp [ArbWatch.legs], ?_⟩
      rw [if_pos (by simp [ArbWatch.legKeys, ArbWatch.legs])]
      exact hd
    · -- the match leg is dropped from what the anchor leg has left
      obtain ⟨rfl, hd⟩ := hone _ _ h
      refine ⟨by simp [ArbWatch.legs], ?_⟩
      rw [if_pos (by simp [ArbWatch.legKeys, ArbWatch.legs])]
      rw [unwatch_registry] at hd
      split at hd
      · rwa [dropFrom_idem] at hd
      · exact hd

/-- A market that loses its watchers is the market of an evicted leg. -/
theorem evicted_of_unregisterArb {b : Book} {cid : CorrelationId} {k : MarketKey}
    (h : (b.unregisterArb cid).1.registry k = none) :
    b.registry k = none ∨ k ∈ (b.unregisterArb cid).2.map (·.marketKey) := by
  -- one turn of the loop
  have hone : ∀ (b : Book) (l : ArbMinifiedInfo), (b.unwatch cid l).1.registry k = none →
      b.registry k = none ∨ k ∈ (b.unwatch cid l).2.map (·.marketKey) := by
    intro b l hl
    unfold unwatch at hl ⊢
    split at hl
    · exact .inl hl
    · split at hl
      · by_cases hk : k = l.marketKey
        · rename_i he
          exact .inr (by simp [he, hk])
        · exact .inl (by simpa [hk] using hl)
      · by_cases hk : k = l.marketKey
        · simp [hk] at hl
        · exact .inl (by simpa [hk] using hl)
  cases hw : b.records cid with
  | none => exact .inl (by simpa [unregisterArb_of_none hw] using h)
  | some w =>
    simp only [unregisterArb, hw, List.map_append, List.mem_append] at h ⊢
    rcases hone _ _ h with h | h
    · exact (hone _ _ h).imp_right .inl
    · exact .inr (.inr h)

@[simp] theorem updateCloseTime_registry (b : Book) (key : MarketKey) (cid : CorrelationId)
    (ts : Option ℤ) : (b.updateCloseTime key cid ts).registry = b.registry := by
  unfold updateCloseTime
  split <;> rfl

@[simp] theorem closeLeg_marketKey (key : MarketKey) (ms : ℤ) (leg : ArbMinifiedInfo) :
    (closeLeg key ms leg).marketKey = leg.marketKey := by
  unfold closeLeg
  split <;> rfl

/-- A close-time update keeps the set of records, and the keys of their legs. -/
theorem updateCloseTime_records (b : Book) (key : MarketKey) (cid c : CorrelationId)
    (ts : Option ℤ) :
    ((b.updateCloseTime key cid ts).records c).map ArbWatch.legKeys =
      (b.records c).map ArbWatch.legKeys := by
  cases hw : b.records cid with
  | none => simp [updateCloseTime, hw]
  | some w =>
    cases ts with
    | none => simp [updateCloseTime, hw]
    | some t =>
      by_cases hc : c = cid
      · subst hc; simp [updateCloseTime, hw, ArbWatch.legKeys, ArbWatch.legs]
      · simp [updateCloseTime, hw, hc]

/-- A leg of a record after a close-time update is one from before it, with the new close time
    if it is a leg of this arb on this market. -/
theorem updateCloseTime_leg {b : Book} {key : MarketKey} {cid c : CorrelationId} {ts : ℤ}
    {w : ArbWatch} (hw : (b.updateCloseTime key cid (some ts)).records c = some w)
    {leg : ArbMinifiedInfo} (hl : leg ∈ w.legs) :
    ∃ old, b.records c = some old ∧ ∃ leg' ∈ old.legs,
      leg = if c = cid then closeLeg key (secsToMillis ts) leg' else leg' := by
  -- only the record of the id is touched, and only its legs with the key
  cases hold : b.records cid with
  | none =>
    have hne : c ≠ cid := by
      rintro rfl
      simp [updateCloseTime, hold] at hw
    exact ⟨w, by simpa [updateCloseTime, hold] using hw, leg, hl, (if_neg hne).symm⟩
  | some old =>
    simp only [updateCloseTime, hold] at hw
    rcases PMap.insert_eq_some.mp hw with ⟨rfl, rfl⟩ | ⟨hne, hw⟩
    · refine ⟨old, hold, ?_⟩
      simp only [ArbWatch.legs, List.mem_cons, List.not_mem_nil, or_false] at hl
      rcases hl with rfl | rfl
      · exact ⟨old.arb.anchor, by simp [ArbWatch.legs], (if_pos rfl).symm⟩
      · exact ⟨old.arb.match, by simp [ArbWatch.legs], (if_pos rfl).symm⟩
    · exact ⟨w, hw, leg, hl, (if_neg hne).symm⟩

theorem updateCloseTime_none (b : Book) (key : MarketKey) (cid : CorrelationId) :
    b.updateCloseTime key cid none = b := by
  unfold updateCloseTime
  split
  · rename_i h
    cases h
  · rfl

/-- A leg of a record after a close-time update has the key, the platform and the token of a
    leg of the record before it. -/
theorem updateCloseTime_legs {b : Book} {key : MarketKey} {cid c : CorrelationId}
    {ts : Option ℤ} {w : ArbWatch} (hw : (b.updateCloseTime key cid ts).records c = some w)
    {leg : ArbMinifiedInfo} (hl : leg ∈ w.legs) :
    ∃ old, b.records c = some old ∧ ∃ leg' ∈ old.legs, leg'.marketKey = leg.marketKey ∧
      leg'.platform = leg.platform ∧ leg'.tokenId = leg.tokenId := by
  cases ts with
  | none => exact ⟨w, by rwa [updateCloseTime_none] at hw, leg, hl, rfl, rfl, rfl⟩
  | some ts =>
    obtain ⟨old, hold, leg', hl', rfl⟩ := updateCloseTime_leg hw hl
    refine ⟨old, hold, leg', hl', ?_⟩
    unfold closeLeg
    split
    · split <;> exact ⟨rfl, rfl, rfl⟩
    · exact ⟨rfl, rfl, rfl⟩

theorem watches_registerArb (b : Book) (w : ArbWatch) (k : MarketKey) (c : CorrelationId) :
    (b.registerArb w).Watches k c ↔
      b.Watches k c ∨ (k ∈ w.legKeys ∧ c = w.correlationId) := by
  simp only [Watches, registerArb_registry]
  by_cases hk : k ∈ w.legKeys
  · -- a new set for an unwatched market, an insertion otherwise
    cases hr : b.registry k <;> simp [hk]
    exact or_comm
  · simp [hk]

theorem watches_unregisterArb {b : Book} {cid : CorrelationId} {w : ArbWatch}
    (h : b.records cid = some w) (k : MarketKey) (c : CorrelationId) :
    (b.unregisterArb cid).1.Watches k c ↔
      b.Watches k c ∧ ¬ (k ∈ w.legKeys ∧ c = cid) := by
  simp only [Watches, unregisterArb_registry h]
  by_cases hk : k ∈ w.legKeys
  · cases hr : b.registry k with
    | none => simp [hk, dropFrom]
    | some set =>
      by_cases he : set.erase cid = ∅
      · -- an evicted set held at most the removed id
        have hc : c ∈ set → c = cid := fun hmem => by
          by_contra hne
          have : c ∈ set.erase cid := Finset.mem_erase.mpr ⟨hne, hmem⟩
          simp [he] at this
        simp only [hk, if_true, dropFrom, he, Option.some.injEq, reduceCtorEq, false_and,
          exists_false, false_iff, true_and, not_and, not_not]
        rintro ⟨_, rfl, hmem⟩
        exact hc hmem
      · simp [hk, dropFrom, he, and_comm]
  · simp [hk]

end Book

/-! ## §3 The book as a transition system -/

/-- The operations of the comms task on the book. -/
inductive BookOp where
  | registerArb (w : ArbWatch)
  | unregisterArb (cid : CorrelationId)
  | updateCloseTime (key : MarketKey) (cid : CorrelationId) (closeTs : Option ℤ)

/-- One operation; every operation is total. -/
def Book.step (b : Book) : BookOp → Option Book
  | .registerArb w => some (b.registerArb w)
  | .unregisterArb cid => some (b.unregisterArb cid).1
  | .updateCloseTime key cid ts => some (b.updateCloseTime key cid ts)

/-! ## §4 Watched records -/

/-- The markets of a record are watched by its arb. -/
def Book.RecordsWatched (b : Book) : Prop :=
  ∀ cid w, b.records cid = some w → ∀ k ∈ w.legKeys, b.Watches k cid

/-- **Every record is watched**: no operation takes an arb with a record out of a watcher set of
    its legs. -/
theorem Book.RecordsWatched.step {b b' : Book} {op : BookOp} (hb : b.RecordsWatched)
    (h : b.step op = some b') : b'.RecordsWatched := by
  intro cid w hw k hk
  cases op with
  | registerArb v =>
    cases h
    rw [registerArb_records] at hw
    rw [watches_registerArb]
    -- the new record is watched from now on
    rcases PMap.insert_eq_some.mp hw with ⟨rfl, rfl⟩ | ⟨-, hw⟩
    · exact .inr ⟨hk, rfl⟩
    · exact .inl (hb cid w hw k hk)
  | unregisterArb c =>
    cases h
    rw [unregisterArb_records] at hw
    -- a record that stays is not the one that is taken out
    obtain ⟨hne, hw⟩ := PMap.erase_eq_some.mp hw
    cases hc : b.records c with
    | none =>
      rw [unregisterArb_of_none hc]
      exact hb cid w hw k hk
    | some v => exact (watches_unregisterArb hc k cid).mpr ⟨hb cid w hw k hk, fun h => hne h.2⟩
  | updateCloseTime key c closeTs =>
    cases h
    -- another close time leaves the market keys as they are
    have hkeys := updateCloseTime_records b key c cid closeTs
    rw [hw, Option.map_some, eq_comm, Option.map_eq_some_iff] at hkeys
    obtain ⟨old, hold, hsame⟩ := hkeys
    obtain ⟨set, hset, hmem⟩ := hb cid old hold k (hsame ▸ hk)
    exact ⟨set, by rw [updateCloseTime_registry, hset], hmem⟩

end Degenerate.Picker
