import Degenerate.Picker.System

/-!
# The Two Indexes of the Book

The registry should be the inverse of the records: `cid` is in `registry[k]` iff
`records[cid]` has `k` as the key of one of its legs, and no empty set is kept.

`unregister_arb` and the close-time updates preserve this from any state.
`register_arb` adds the id to the sets of its new legs and overwrites the record, but
does not drop the id from the sets of a record that it overwrites.  So it preserves
the invariant exactly when the old record, if there is one, has no leg that the new
one lacks.

## Main Results

- `sync_registerArb_iff`, `Sync.unregisterArb`, `Sync.updateCloseTime`
- `sync_run`: the invariant in every run of the book and of the system
- `reregistered_leg_left_behind`
-/

namespace Degenerate.Picker

open Degenerate.Lib

/-- The registry is the inverse of the records, without empty sets. -/
structure Book.Sync (b : Book) : Prop where
  watches_iff : ∀ k cid, b.Watches k cid ↔ ∃ w, b.records cid = some w ∧ k ∈ w.legKeys
  nonempty : ∀ k set, b.registry k = some set → set.Nonempty

/-- A record that the registration of `w` overwrites has no leg that `w` lacks. -/
def Book.KeepsLegs (b : Book) (w : ArbWatch) : Prop :=
  ∀ old, b.records w.correlationId = some old → ∀ k ∈ old.legKeys, k ∈ w.legKeys

/-! ## §1 What each operation preserves -/

namespace Book

theorem sync_new : Sync new where
  watches_iff k cid := by simp [Watches, new]
  nonempty k set h := by simp [new] at h

/-- **Registration** keeps the indexes in sync exactly when it leaves no leg behind. -/
theorem sync_registerArb_iff {b : Book} (hb : b.Sync) (w : ArbWatch) :
    (b.registerArb w).Sync ↔ b.KeepsLegs w := by
  constructor
  · -- a leg of the old record is still watched, so the new record must have it
    intro hs old hold k hk
    have hwatch : b.Watches k w.correlationId := (hb.watches_iff k _).mpr ⟨old, hold, hk⟩
    obtain ⟨w', hw', hk'⟩ := (hs.watches_iff k w.correlationId).mp
      ((watches_registerArb b w k _).mpr (.inl hwatch))
    obtain rfl : w = w' := by simpa using hw'
    exact hk'
  · intro hkeep
    constructor
    · intro k cid
      rw [watches_registerArb, hb.watches_iff, registerArb_records]
      by_cases hc : cid = w.correlationId
      · -- the id itself: its old places, if any, are places of the new record
        subst hc
        simp only [and_true, PMap.insert_self, Option.some.injEq, exists_eq_left']
        constructor
        · rintro (⟨old, hold, hk⟩ | hk)
          · exact hkeep old hold k hk
          · exact hk
        · exact .inr
      · simp [hc]
    · intro k set hset
      rw [registerArb_registry] at hset
      split at hset
      · obtain rfl := Option.some.inj hset
        exact ⟨_, Finset.mem_insert_self _ _⟩
      · exact hb.nonempty k set hset

theorem Sync.unregisterArb {b : Book} (hb : b.Sync) (cid : CorrelationId) :
    (b.unregisterArb cid).1.Sync := by
  cases hw : b.records cid with
  | none => rwa [unregisterArb_of_none hw]
  | some w =>
    constructor
    · intro k c
      rw [watches_unregisterArb hw, hb.watches_iff, unregisterArb_records]
      by_cases hc : c = cid
      · subst hc
        simp [hw]
      · simp [hc]
    · intro k set hset
      rw [unregisterArb_registry hw] at hset
      split at hset
      · -- a set that survives the drop is not empty
        exact Finset.nonempty_iff_ne_empty.mpr (dropFrom_eq_some hset).1
      · exact hb.nonempty k set hset

theorem Sync.updateCloseTime {b : Book} (hb : b.Sync) (key : MarketKey) (cid : CorrelationId)
    (closeTs : Option ℤ) : (b.updateCloseTime key cid closeTs).Sync := by
  have hkeys : ∀ c k, (∃ w, (b.updateCloseTime key cid closeTs).records c = some w ∧
      k ∈ w.legKeys) ↔ ∃ w, b.records c = some w ∧ k ∈ w.legKeys := by
    intro c k
    have h := updateCloseTime_records b key cid c closeTs
    have hmem : ∀ o : Option ArbWatch, (∃ w, o = some w ∧ k ∈ w.legKeys) ↔
        ∃ ks, o.map ArbWatch.legKeys = some ks ∧ k ∈ ks := by
      intro o
      cases o <;> simp
    rw [hmem, hmem, h]
  constructor
  · intro k c
    rw [hkeys, ← hb.watches_iff, Watches, Watches, updateCloseTime_registry]
  · intro k set hset
    exact hb.nonempty k set (by rwa [updateCloseTime_registry] at hset)

/-- A registration in the step leaves no leg behind. -/
def StepKeepsLegs (b : Book) (op : BookOp) : Prop := ∀ w, op = .registerArb w → b.KeepsLegs w

theorem Sync.step {b b' : Book} {op : BookOp} (hb : b.Sync) (hkeep : b.StepKeepsLegs op)
    (h : b.step op = some b') : b'.Sync := by
  cases op with
  | registerArb w =>
    cases h
    exact (sync_registerArb_iff hb w).mpr (hkeep w rfl)
  | unregisterArb cid =>
    cases h
    exact hb.unregisterArb cid
  | updateCloseTime key cid closeTs =>
    cases h
    exact hb.updateCloseTime key cid closeTs

end Book

/-! ## §2 Runs -/

namespace System

/-- A registration in the step leaves no leg behind. -/
def RegistersKeepingLegs (p : System) (a : Action) : Prop :=
  ∀ op ∈ bookMoves p a, p.book.StepKeepsLegs op

/-- **The two indexes stay in sync** in every run in which no registration of a stored id
    leaves a leg behind: for any sequence of operations on the book, and for any
    interleaving of the tasks of the system. -/
theorem sync_run (cfg : Config) (fraction minSize : ℚ) :
    (∀ (ops : List BookOp) (b : Book), Along Book.step Book.StepKeepsLegs Book.new ops →
      run Book.step Book.new ops = some b → b.Sync) ∧
    ∀ (as : List Action) (p : System),
      Along (step cfg) RegistersKeepingLegs (init fraction minSize) as →
      run (step cfg) (init fraction minSize) as = some p → p.book.Sync := by
  have hbook : ∀ (ops : List BookOp) (b b' : Book), b.Sync →
      Along Book.step Book.StepKeepsLegs b ops → run Book.step b ops = some b' → b'.Sync :=
    fun ops b b' hb hkeep h =>
      run_invariant_along (fun _ _ _ hs hk ht => hs.step hk ht) hb hkeep h
  refine ⟨fun ops b => hbook ops _ b Book.sync_new, fun as p hkeep h => ?_⟩
  -- each step of the system is at most one operation on the book
  refine run_invariant_along (I := fun s : System => s.book.Sync)
    (fun s a t hs hk ht => ?_) Book.sync_new hkeep h
  refine hbook _ _ _ hs ?_ (step_book ht)
  rcases bookMoves_length s a with hm | ⟨op, hm⟩
  · rw [hm]
    exact along_nil ..
  · rw [hm]
    exact ⟨hk op (by simp [hm]), fun _ _ => along_nil ..⟩

/-- A confirmation whose seeds find no prices. -/
def confirmOffline (arb : Arb) (cid : CorrelationId) : List Action :=
  confirmSteps arb cid ++ [commsOffline, commsOffline]

/-- A watch of the sample pair. -/
def sampleWatch : ArbWatch := ⟨"x", samplePair⟩

/-- A pair is registered twice with the same legs, and deleted. -/
theorem sync_run_sample :
    ∃ b, run Book.step Book.new
      [.registerArb sampleWatch, .registerArb sampleWatch, .unregisterArb "x"] = some b ∧
      b.Sync := by
  obtain ⟨b, hb⟩ : ∃ b, run Book.step Book.new
      [.registerArb sampleWatch, .registerArb sampleWatch, .unregisterArb "x"] = some b :=
    ⟨_, rfl⟩
  refine ⟨b, hb, (sync_run sampleConfig (1 / 5) 2).1 _ b ?_ hb⟩
  refine ⟨?_, fun b hb => ⟨?_, fun b' _ => ⟨fun _ h => (nomatch h), fun _ _ => along_nil ..⟩⟩⟩
  · rintro w - old hold
    cases hold
  · rintro w hw old hold k hk
    cases hb
    cases hw
    obtain rfl : sampleWatch = old := by simpa [sampleWatch] using hold
    exact hk

/-- The same id is confirmed twice, the second time with another Kalshi leg. -/
def reregisterSteps : List Action :=
  confirmOffline (sampleArb "K" "11") "x" ++ confirmOffline (sampleArb "L" "12") "x"

/-- **A leg left behind**: after the second confirmation the registry still sends the prices
    of the first leg to the pair, whose record has it no longer. -/
theorem reregistered_leg_left_behind :
    ∃ p, run (step sampleConfig) (init (1 / 5) 2) reregisterSteps = some p ∧
      p.betweenMessages = true ∧ p.book.Watches "KALSHI:K" "x" ∧
      ¬ ∃ w, p.book.records "x" = some w ∧ "KALSHI:K" ∈ w.legKeys := by
  have hrun : (run (step sampleConfig) (init (1 / 5) 2) reregisterSteps).any (fun p =>
      p.betweenMessages && decide ("x" ∈ (p.book.registry "KALSHI:K").getD ∅) &&
        ((p.book.records "x").map (·.legKeys) == some ["KALSHI:L", "POLYMARKET:12"])) = true := by
    decide +kernel
  obtain ⟨p, hp, hcheck⟩ := (Option.any_eq_true _ _).mp hrun
  simp only [Bool.and_eq_true, decide_eq_true_eq, beq_iff_eq] at hcheck
  obtain ⟨⟨hbetween, hmem⟩, hkeys⟩ := hcheck
  refine ⟨p, hp, hbetween, ?_, ?_⟩
  · cases hr : p.book.registry "KALSHI:K" with
    | none => simp [hr] at hmem
    | some set => exact ⟨set, hr, by simpa [hr] using hmem⟩
  · rintro ⟨w, hw, hk⟩
    rw [hw, Option.map_some, Option.some.injEq] at hkeys
    rw [hkeys] at hk
    exact absurd hk (by decide)

end System

end Degenerate.Picker
