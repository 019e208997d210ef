import Degenerate.Picker.Eviction
import Degenerate.Picker.FreshQuotes

/-!
# Resolution

A resolved Polymarket market and a Kalshi market that is determined, settled or
deactivated take the pairs with a leg on it out of the book.  The handlers go market by
market over copies of the watcher sets, while every removal changes the sets and may
give up the other market of its pair.

A state is *withdrawn from* an earlier one when pairs were unregistered in between and
nothing else happened to the book.  The relation says what is left of the top of book
without naming the removed pairs, so it is kept by one removal after the other.

## Main Results

- `WithdrawnFrom.unregisterArb`
- `resolution_exact`: what is left after a message that resolves markets
-/

namespace Degenerate.Picker

open Degenerate.Lib

/-! ## §1 After some removals -/

/-- The pairs with a leg after a removal. -/
theorem Book.hasLeg_unregisterArb {b : Book} {cid c : CorrelationId} {k : MarketKey} :
    (b.unregisterArb cid).1.HasLeg c k ↔ c ≠ cid ∧ b.HasLeg c k := by
  simp only [HasLeg, unregisterArb_records, PMap.erase_eq_some]
  constructor
  · rintro ⟨w, ⟨hne, hw⟩, hk⟩
    exact ⟨hne, w, hw, hk⟩
  · rintro ⟨hne, w, hw, hk⟩
    exact ⟨w, ⟨hne, hw⟩, hk⟩

namespace System

/-- `s` is `p` after pairs were unregistered: the markets that no pair has a leg on any more
    have lost their top of book. -/
structure WithdrawnFrom (p s : System) : Prop where
  sync : s.book.Sync
  kept : ∀ c w, s.book.records c = some w → p.book.records c = some w
  vacated : ∀ k, p.book.IsLeg k → ¬ s.book.IsLeg k → s.topOfBook k = none
  unchanged : ∀ k, (p.book.IsLeg k → s.book.IsLeg k) → s.topOfBook k = p.topOfBook k

theorem WithdrawnFrom.refl {p : System} (hp : p.book.Sync) : WithdrawnFrom p p where
  sync := hp
  kept _ _ hw := hw
  vacated _ hk hnot := absurd hk hnot
  unchanged _ _ := rfl

/-- A leg that is left was there before. -/
theorem WithdrawnFrom.hasLeg {p s : System} (h : WithdrawnFrom p s) {c : CorrelationId}
    {k : MarketKey} (hk : s.book.HasLeg c k) : p.book.HasLeg c k := by
  obtain ⟨w, hw, hmem⟩ := hk
  exact ⟨w, h.kept c w hw, hmem⟩

/-- A pair that was there is left, unless it was unregistered. -/
theorem WithdrawnFrom.kept_or_removed {p s : System} (h : WithdrawnFrom p s) {c : CorrelationId}
    {w : ArbWatch} (hw : p.book.records c = some w) :
    s.book.records c = some w ∨ s.book.records c = none := by
  cases hs : s.book.records c with
  | none => exact .inr rfl
  | some w' =>
    cases hw.symm.trans (h.kept c w' hs)
    exact .inl rfl

/-- A market without a leg has lost one exactly when it had one. -/
theorem WithdrawnFrom.lost_iff {p s : System} (h : WithdrawnFrom p s) {k : MarketKey}
    (hk : ¬ s.book.IsLeg k) :
    (∃ c w, p.book.records c = some w ∧ s.book.records c = none ∧ k ∈ w.legKeys) ↔
      p.book.IsLeg k := by
  constructor
  · rintro ⟨c, w, hw, -, hmem⟩
    exact ⟨c, w, hw, hmem⟩
  · rintro ⟨c, w, hw, hmem⟩
    refine ⟨c, w, hw, ?_, hmem⟩
    apply (h.kept_or_removed hw).resolve_left
    intro hs
    exact hk ⟨c, w, hs, hmem⟩

/-- **What is left of the top of book**: the markets that have a leg, and those that had none. -/
theorem WithdrawnFrom.topOfBook_iff {p s : System} (h : WithdrawnFrom p s) (k : MarketKey)
    (tob : TopOfBook) :
    s.topOfBook k = some tob ↔ p.topOfBook k = some tob ∧
      (s.book.IsLeg k ∨
        ¬ ∃ c w, p.book.records c = some w ∧ s.book.records c = none ∧ k ∈ w.legKeys) := by
  by_cases hs : s.book.IsLeg k
  · rw [h.unchanged k fun _ => hs]
    exact (and_iff_left (.inl hs)).symm
  · rw [h.lost_iff hs]
    by_cases hp : p.book.IsLeg k
    · -- vacated: the entry is gone
      rw [h.vacated k hp hs]
      refine iff_of_false (fun hnone => by cases hnone) ?_
      rintro ⟨-, hleg | hnot⟩
      · exact hs hleg
      · exact hnot hp
    · rw [h.unchanged k fun hleg => absurd hleg hp]
      exact (and_iff_left (.inr hp)).symm

/-- The relation reads the two indexes and the top of book only. -/
theorem WithdrawnFrom.congr {p s t : System} (h : WithdrawnFrom p s) (hbook : t.book = s.book)
    (htop : t.topOfBook = s.topOfBook) : WithdrawnFrom p t := by
  constructor
  · rw [hbook]
    exact h.sync
  · rw [hbook]
    exact h.kept
  · rw [hbook, htop]
    exact h.vacated
  · rw [hbook, htop]
    exact h.unchanged

/-- **One more removal**: the market of a leg goes exactly when it was the last one there. -/
theorem WithdrawnFrom.unregisterArb {p s : System} (h : WithdrawnFrom p s)
    (cid : CorrelationId) : WithdrawnFrom p (s.unregisterArb cid) := by
  have hleg : ∀ c k, (s.unregisterArb cid).book.HasLeg c k ↔ c ≠ cid ∧ s.book.HasLeg c k :=
    fun c k => Book.hasLeg_unregisterArb
  constructor
  · exact h.sync.unregisterArb cid
  · intro c w hw
    have hrec : (s.book.unregisterArb cid).1.records c = some w := hw
    rw [Book.unregisterArb_records] at hrec
    exact h.kept c w (PMap.erase_eq_some.mp hrec).2
  · intro k hp hnot
    obtain ⟨hone, hnone⟩ := unregisterArb_topOfBook h.sync cid k
    by_cases hs : s.book.IsLeg k
    · -- the last leg on this market was one of the removed pair
      apply hone
      have honly : ∀ c, s.book.HasLeg c k → c = cid := by
        intro c hc
        by_contra hne
        exact hnot ⟨c, (hleg c k).mpr ⟨hne, hc⟩⟩
      obtain ⟨c, hc⟩ := hs
      obtain rfl := honly c hc
      exact ⟨hc, honly⟩
    · rw [hnone fun honly => hs ⟨cid, honly.1⟩]
      exact h.vacated k hp hs
  · intro k hk
    have hnot : ¬ s.book.OnlyHasLeg cid k := by
      rintro ⟨hc, honly⟩
      obtain ⟨c, hc'⟩ := hk ⟨cid, h.hasLeg hc⟩
      obtain ⟨hne, hc'⟩ := (hleg c k).mp hc'
      exact hne (honly c hc')
    rw [(unregisterArb_topOfBook h.sync cid k).2 hnot]
    refine h.unchanged k fun hp => ?_
    obtain ⟨c, hc⟩ := hk hp
    exact ⟨c, ((hleg c k).mp hc).2⟩

/-! ## §2 Messages that resolve markets -/

end System

/-- The event ends its market. -/
def MarketLifecycle.Ends (event : MarketLifecycle) : Prop :=
  event.eventType = "determined" ∨ event.eventType = "settled" ∨ event.eventType = "deactivated"

/-- The message resolves the markets `keys`. -/
inductive Resolves : CommsMessage → List MarketKey → Prop where
  | assets (assetIds : List String) :
      Resolves (.polymarket (.marketResolved assetIds)) (assetIds.map (makeMarketKey · .polymarket))
  | ticker (event : MarketLifecycle) (h : event.Ends) :
      Resolves (.kalshi (.marketLifecycleV2 event)) [makeMarketKey event.marketTicker .kalshi]

/-- The operation is about to unregister the watchers of a market. -/
inductive CommsOp.Clears : CommsOp → MarketKey → Prop where
  | asset (assetId : String) : Clears (.marketResolved assetId) (makeMarketKey assetId .polymarket)
  | ticker (event : MarketLifecycle) (h : event.Ends) :
      Clears (.marketLifecycle event) (makeMarketKey event.marketTicker .kalshi)

namespace System

/-- An event that ends its market withdraws each watcher. -/
theorem lifecycleOps_of_ends {event : MarketLifecycle} (h : event.Ends)
    (order : List CorrelationId) :
    order.flatMap (lifecycleOps event) = order.map (.unregisterArb : _ → CommsOp) := by
  have hne : event.eventType ≠ "close_date_updated" := by
    intro heq
    rw [MarketLifecycle.Ends, heq] at h
    exact absurd h (by decide)
  have hops : lifecycleOps event = fun cid => [(.unregisterArb cid : CommsOp)] := by
    funext cid
    rw [lifecycleOps, if_neg hne]
    exact if_pos h
  rw [hops, List.map_eq_flatMap]

/-- What an operation that clears a market is replaced by. -/
theorem Follows.clears {s : System} {op : CommsOp} {ops : List CommsOp} {k : MarketKey}
    (hop : op.Clears k) (h : Follows s op ops) :
    ∃ order : List CorrelationId, order.toFinset = (s.book.registry k).getD ∅ ∧
      ops = order.map .unregisterArb := by
  cases hop with
  | asset assetId =>
    cases h with
    | resolved horder => exact ⟨_, horder, rfl⟩
  | ticker event hends =>
    cases h with
    | lifecycle horder => exact ⟨_, horder, lifecycleOps_of_ends hends _⟩

/-- The order in which a watcher set is gone through has its members. -/
theorem mem_order_iff {b : Book} {k : MarketKey} {order : List CorrelationId}
    (h : order.toFinset = (b.registry k).getD ∅) (c : CorrelationId) :
    c ∈ order ↔ b.Watches k c := by
  rw [← List.mem_toFinset, h]
  cases hr : b.registry k with
  | none => simp [Book.Watches, hr]
  | some set => simp [Book.Watches, hr]

/-! ## §3 The processing of such a message -/

/-- The pair has a leg on one of the markets. -/
def Affected (p : System) (keys : List MarketKey) (cid : CorrelationId) : Prop :=
  ∃ k ∈ keys, p.book.HasLeg cid k

/-- **The removals under way**: so far only affected pairs were removed, only affected pairs
    are going to be, and each affected pair that is left is still to be removed, either by
    itself or with the watchers of one of its markets. -/
structure Resolving (keys : List MarketKey) (p s : System) : Prop where
  next : s.comms.pc = .next
  withdrawn : WithdrawnFrom p s
  removed : ∀ c w, p.book.records c = some w → s.book.records c = none → p.Affected keys c
  todo : ∀ op ∈ s.comms.todo,
    (∃ c, op = .unregisterArb c ∧ p.Affected keys c) ∨ ∃ k ∈ keys, op.Clears k
  pending : ∀ c, s.Affected keys c → .unregisterArb c ∈ s.comms.todo ∨
    ∃ op ∈ s.comms.todo, ∃ k, op.Clears k ∧ s.book.HasLeg c k

/-- What a message that resolves markets is replaced by. -/
theorem opsOf_of_resolves {msg : CommsMessage} {keys : List MarketKey} (h : Resolves msg keys)
    (b : Book) : (∀ op ∈ opsOf b msg, ∃ k ∈ keys, op.Clears k) ∧
      ∀ k ∈ keys, ∃ op ∈ opsOf b msg, op.Clears k := by
  cases h with
  | assets assetIds =>
    constructor
    · intro op hop
      obtain ⟨assetId, hid, rfl⟩ := List.mem_map.mp hop
      exact ⟨_, List.mem_map_of_mem hid, .asset assetId⟩
    · intro k hk
      obtain ⟨assetId, hid, rfl⟩ := List.mem_map.mp hk
      exact ⟨_, List.mem_map_of_mem hid, .asset assetId⟩
  | ticker event hends =>
    constructor
    · intro op hop
      obtain rfl := List.mem_singleton.mp hop
      exact ⟨_, List.mem_singleton_self _, .ticker event hends⟩
    · intro k hk
      obtain rfl := List.mem_singleton.mp hk
      exact ⟨_, List.mem_singleton_self _, .ticker event hends⟩

/-- A message that has just been taken is under way. -/
theorem resolving_of_resolves {msg : CommsMessage} {keys : List MarketKey}
    (h : Resolves msg keys) {p : System} (hp : p.book.Sync) :
    Resolving keys p { p with comms := ⟨.next, opsOf p.book msg⟩ } := by
  obtain ⟨hops, hkeys⟩ := opsOf_of_resolves h p.book
  refine ⟨rfl, (WithdrawnFrom.refl hp).congr rfl rfl, ?_, fun op hop => .inr (hops op hop), ?_⟩
  · intro c w hw hnone
    cases hw.symm.trans hnone
  · rintro c ⟨k, hk, hleg⟩
    obtain ⟨op, hop, hclears⟩ := hkeys k hk
    exact .inr ⟨op, hop, k, hclears, hleg⟩

/-- One of the affected pairs is removed. -/
theorem Resolving.unregister {keys : List MarketKey} {p s t : System} {cid : CorrelationId}
    {rest : List CommsOp} (hs : Resolving keys p s)
    (htodo : s.comms.todo = .unregisterArb cid :: rest) (hnext : t.comms.pc = .next)
    (hrest : t.comms.todo = rest) (hbook : t.book = (s.unregisterArb cid).book)
    (htop : t.topOfBook = (s.unregisterArb cid).topOfBook) : Resolving keys p t := by
  have hops := hs.todo
  rw [htodo] at hops
  have haffected : p.Affected keys cid := by
    rcases hops _ List.mem_cons_self with ⟨c, heq, hc⟩ | ⟨k, -, hclears⟩
    · cases heq
      exact hc
    · cases hclears
  have hleg : ∀ c k, t.book.HasLeg c k ↔ c ≠ cid ∧ s.book.HasLeg c k := by
    intro c k
    rw [hbook]
    exact Book.hasLeg_unregisterArb
  refine ⟨hnext, (hs.withdrawn.unregisterArb cid).congr hbook htop, ?_, ?_, ?_⟩
  · intro c w hw hnone
    by_cases hc : c = cid
    · rw [hc]
      exact haffected
    · have hrec : (s.book.unregisterArb cid).1.records c = none := by
        rw [hbook] at hnone
        exact hnone
      rw [Book.unregisterArb_records, PMap.erase_of_ne _ hc] at hrec
      exact hs.removed c w hw hrec
  · rw [hrest]
    exact fun op hop => hops op (List.mem_cons_of_mem _ hop)
  · -- what is left to remove is not the pair that was just removed
    rintro c ⟨k, hk, hck⟩
    obtain ⟨hne, hck⟩ := (hleg c k).mp hck
    rw [hrest]
    rcases hs.pending c ⟨k, hk, hck⟩ with hmem | ⟨op, hmem, k', hclears, hck'⟩
    · rw [htodo] at hmem
      rcases List.mem_cons.mp hmem with heq | hmem
      · cases heq
        exact absurd rfl hne
      · exact .inl hmem
    · rw [htodo] at hmem
      rcases List.mem_cons.mp hmem with heq | hmem
      · rw [heq] at hclears
        cases hclears
      · exact .inr ⟨op, hmem, k', hclears, (hleg c k').mpr ⟨hne, hck'⟩⟩

/-- The watchers of one of the markets are about to be removed. -/
theorem Resolving.clear {keys : List MarketKey} {p s t : System} {op : CommsOp}
    {rest : List CommsOp} {order : List CorrelationId} {k : MarketKey}
    (hs : Resolving keys p s) (htodo : s.comms.todo = op :: rest) (hk : k ∈ keys)
    (hclears : op.Clears k) (horder : order.toFinset = (s.book.registry k).getD ∅)
    (hnext : t.comms.pc = .next) (hrest : t.comms.todo = order.map .unregisterArb ++ rest)
    (hbook : t.book = s.book) (htop : t.topOfBook = s.topOfBook) : Resolving keys p t := by
  have hmem : ∀ c, c ∈ order ↔ s.book.HasLeg c k := fun c =>
    (mem_order_iff horder c).trans (hs.withdrawn.sync.watches_iff k c)
  refine ⟨hnext, hs.withdrawn.congr hbook htop, ?_, ?_, ?_⟩
  · rw [hbook]
    exact hs.removed
  · rw [hrest]
    intro op' hop'
    rcases List.mem_append.mp hop' with hop' | hop'
    · obtain ⟨c, hc, rfl⟩ := List.mem_map.mp hop'
      exact .inl ⟨c, rfl, k, hk, hs.withdrawn.hasLeg ((hmem c).mp hc)⟩
    · exact hs.todo op' (htodo ▸ List.mem_cons_of_mem _ hop')
  · intro c hc
    rw [Affected, hbook] at hc
    rw [hrest, hbook]
    have hleft : ∀ op', op' ∈ rest → op' ∈ order.map CommsOp.unregisterArb ++ rest :=
      fun op' h => List.mem_append_right _ h
    rcases hs.pending c hc with hunreg | ⟨op', hop', k', hclears', hck'⟩
    · rw [htodo] at hunreg
      rcases List.mem_cons.mp hunreg with heq | hunreg
      · rw [← heq] at hclears
        cases hclears
      · exact .inl (hleft _ hunreg)
    · rw [htodo] at hop'
      rcases List.mem_cons.mp hop' with heq | hop'
      · -- the pairs that waited for this operation now wait for their own
        rw [heq] at hclears'
        have hkk : k' = k := by
          cases hclears <;> cases hclears' <;> rfl
        rw [hkk] at hck'
        exact .inl (List.mem_append_left _ (List.mem_map_of_mem ((hmem c).mpr hck')))
      · exact .inr ⟨op', hleft _ hop', k', hclears', hck'⟩

/-- The comms task stays between its operations. -/
theorem Resolving.next_step {cfg : Config} {keys : List MarketKey} {p s t : System} {a : Action}
    (hs : Resolving keys p s) (ha : ∀ msg, a ≠ .receive msg)
    (h : System.step cfg s a = some t) : t.comms.pc = .next := by
  rcases step_comms_cases h with ⟨msg, hmsg, -⟩ | ⟨c, -, hc⟩ | hsame
  · exact absurd hmsg (ha msg)
  · -- neither an evaluation nor a search is under way, and nothing in the queue starts one
    rcases commsStep_cases hc with ⟨e, he, -⟩ | ⟨f, hf, -⟩ | ⟨w, hw, -⟩ | ⟨op, rest, hn, htodo, hop⟩
    · cases hs.next.symm.trans he
    · cases hs.next.symm.trans hf
    · cases hs.next.symm.trans hw
    · rcases opStep_cases hop with ⟨hquiet, -⟩ | ⟨_, rfl, -⟩ | ⟨_, _, _, rfl, -⟩ | ⟨_, -, rfl⟩ |
        ⟨_, _, _, -, rfl⟩
      · exact hquiet.pc.trans hn
      · rcases hs.todo _ (htodo ▸ List.mem_cons_self) with ⟨_, heq, -⟩ | ⟨_, -, hclears⟩
        · cases heq
        · cases hclears
      · rcases hs.todo _ (htodo ▸ List.mem_cons_self) with ⟨_, heq, -⟩ | ⟨_, -, hclears⟩
        · cases heq
        · cases hclears
      · exact hn
      · exact hn
  · rw [hsame.comms]
    exact hs.next

/-- **One step** of any task keeps the removals under way. -/
theorem Resolving.step {cfg : Config} {keys : List MarketKey} {p s t : System} {a : Action}
    (hs : Resolving keys p s) (ha : ∀ msg, a ≠ .receive msg)
    (h : System.step cfg s a = some t) : Resolving keys p t := by
  -- the queue holds nothing but the removals and the clearings of these keys
  have hfirst : ∀ {op rest}, s.comms.todo = op :: rest →
      (∃ c, op = .unregisterArb c ∧ p.Affected keys c) ∨ ∃ k ∈ keys, op.Clears k := by
    intro op rest htodo
    exact hs.todo op (htodo ▸ List.mem_cons_self)
  have hnext := hs.next_step ha h
  rcases step_owned_cases h with haside | ⟨msg, hmsg, -⟩ | ⟨_, _, -, hreg, -⟩ |
    ⟨_, _, _, _, _, -, -, htodo, -⟩ | ⟨_, cid, rest, -, -, htodo, hrest, hbook, htop⟩ |
    ⟨_, _, _, _, _, -, -, htodo, -⟩ | ⟨_, op, rest, ops, -, -, htodo, hfollows, hrest, hbook, htop⟩
  · -- nothing of the book moves
    refine ⟨hnext, hs.withdrawn.congr haside.owned.book haside.owned.topOfBook,
      ?_, ?_, ?_⟩
    · rw [haside.owned.book]
      exact hs.removed
    · rw [haside.owned.todo]
      exact hs.todo
    · intro c hc
      rw [Affected, haside.owned.book] at hc
      rw [haside.owned.todo, haside.owned.book]
      exact hs.pending c hc
  · exact absurd hmsg (ha msg)
  · -- no registration is under way, and the queue starts none
    rw [hs.next] at hreg
    cases hreg
  · rcases hfirst htodo with ⟨_, heq, -⟩ | ⟨_, -, hclears⟩
    · cases heq
    · cases hclears
  · -- a removal: the ids that wait for theirs lose this one
    exact hs.unregister htodo hnext hrest hbook htop
  · rcases hfirst htodo with ⟨_, heq, -⟩ | ⟨_, -, hclears⟩
    · cases heq
    · cases hclears
  · -- another operation: only the clearing of a key can follow
    rcases hfirst htodo with ⟨_, rfl, -⟩ | ⟨k, hk, hclears⟩
    · cases hfollows
    · obtain ⟨order, horder, rfl⟩ := hfollows.clears hclears
      exact hs.clear htodo hk hclears horder hnext hrest hbook htop

/-! ## §4 To the end of the message -/

/-- The steps are steps of the comms task. -/
def CommsOnly (as : List Action) : Prop := ∀ a ∈ as, ∃ c, a = .comms c

/-- Removals that are to be done get done. -/
theorem drain_unregisters (cfg : Config) (cids : List CorrelationId) (rest : List CommsOp)
    {s : System} (hnext : s.comms.pc = .next)
    (htodo : s.comms.todo = cids.map .unregisterArb ++ rest) :
    ∃ as t, CommsOnly as ∧ run (System.step cfg) s as = some t ∧ t.comms.pc = .next ∧
      t.comms.todo = rest := by
  induction cids generalizing s with
  | nil => exact ⟨[], s, List.forall_mem_nil _, rfl, hnext, htodo⟩
  | cons cid cids ih =>
    let after := (s.pop (cids.map .unregisterArb ++ rest)).unregisterArb cid
    obtain ⟨as, t, has, hrun, ht⟩ := ih (s := after) hnext rfl
    have hstep : System.step cfg s (.comms { markets := oneSlugVenue }) = some after := by
      simp only [System.step, commsStep, hnext, htodo, List.map_cons, List.cons_append, opStep]
      rfl
    refine ⟨.comms { markets := oneSlugVenue } :: as, t, ?_, run_cons.mpr ⟨after, hstep, hrun⟩, ht⟩
    exact List.forall_mem_cons.mpr ⟨⟨_, rfl⟩, has⟩

/-- A watcher set can be gone through in some order. -/
theorem exists_iterates (set : Finset CorrelationId) :
    ∃ c : Choice, c.iterates set = true := by
  refine ⟨{ order := set.toList, markets := oneSlugVenue }, ?_⟩
  simp [Choice.iterates, Finset.nodup_toList]

/-- An operation that clears a market can be taken. -/
theorem clears_step (cfg : Config) {s : System} {op : CommsOp} {rest : List CommsOp}
    {k : MarketKey} (hclears : op.Clears k) (hnext : s.comms.pc = .next)
    (htodo : s.comms.todo = op :: rest) :
    ∃ (c : Choice) (order : List CorrelationId) (t : System),
      System.step cfg s (.comms c) = some t ∧ t.comms.pc = .next ∧
      t.comms.todo = order.map .unregisterArb ++ rest := by
  obtain ⟨c, hc⟩ := exists_iterates ((s.book.registry k).getD ∅)
  refine ⟨c, c.order, (s.pop rest).push (c.order.map .unregisterArb), ?_, hnext, rfl⟩
  cases hclears with
  | asset assetId =>
    simp only [System.step, commsStep, hnext, htodo, opStep]
    exact if_pos hc
  | ticker event hends =>
    simp only [System.step, commsStep, hnext, htodo, opStep, lifecycleOps_of_ends hends]
    exact if_pos hc

/-- The operations of a message that resolves markets can be taken one after the other. -/
theorem drain_clears (cfg : Config) (ops : List CommsOp) {s : System}
    (hops : ∀ op ∈ ops, ∃ k, op.Clears k) (hnext : s.comms.pc = .next)
    (htodo : s.comms.todo = ops) :
    ∃ as t, CommsOnly as ∧ run (System.step cfg) s as = some t ∧ t.betweenMessages = true := by
  induction ops generalizing s with
  | nil => exact ⟨[], s, List.forall_mem_nil _, rfl, betweenMessages_iff.mpr ⟨hnext, htodo⟩⟩
  | cons op rest ih =>
    rw [List.forall_mem_cons] at hops
    obtain ⟨k, hclears⟩ := hops.1
    obtain ⟨c, order, t, hstep, htnext, httodo⟩ := clears_step cfg hclears hnext htodo
    obtain ⟨as, u, has, hrun, hunext, hutodo⟩ := drain_unregisters cfg order rest htnext httodo
    obtain ⟨bs, v, hbs, hrun', hv⟩ := ih hops.2 hunext hutodo
    refine ⟨.comms c :: (as ++ bs), v, ?_, ?_, hv⟩
    · refine List.forall_mem_cons.mpr ⟨⟨c, rfl⟩, fun a ha => ?_⟩
      exact (List.mem_append.mp ha).elim (has a) (hbs a)
    · exact run_cons.mpr ⟨t, hstep, run_append.mpr ⟨u, hrun, hrun'⟩⟩

/-- A message that resolves markets is processed to its end. -/
theorem resolves_processes (cfg : Config) {p : System} (hbetween : p.betweenMessages = true)
    {msg : CommsMessage} {keys : List MarketKey} (h : Resolves msg keys) :
    ∃ q, Processes cfg p msg q := by
  have hops : ∀ op ∈ opsOf p.book msg, ∃ k, op.Clears k := by
    intro op hop
    obtain ⟨k, -, hclears⟩ := (opsOf_of_resolves h p.book).1 op hop
    exact ⟨k, hclears⟩
  let taken : System := { p with comms := ⟨.next, opsOf p.book msg⟩ }
  obtain ⟨as, q, has, hrun, hq⟩ := drain_clears cfg _ hops (s := taken) rfl rfl
  have hstep : System.step cfg p (.receive msg) = some taken := by
    simp only [System.step, hbetween, if_true, taken]
  refine ⟨q, as, ?_, run_cons.mpr ⟨taken, hstep, hrun⟩, hq⟩
  rintro a ha m rfl
  obtain ⟨c, hc⟩ := has _ ha
  cases hc

/-- **Resolution removes exactly the affected pairs**: a message that resolves markets is
    processed to its end, and whatever the other tasks do meanwhile, afterwards no pair with a
    leg on one of the markets is left, every other record is unchanged, the indexes are in
    sync, and the top of book has lost exactly the legs of removed pairs that no remaining
    pair has. -/
theorem resolution_exact (cfg : Config) {p : System} (hp : p.book.Sync)
    (hbetween : p.betweenMessages = true) {msg : CommsMessage} {keys : List MarketKey}
    (hmsg : Resolves msg keys) :
    (∃ q, Processes cfg p msg q) ∧
    ∀ q, Processes cfg p msg q →
      (∀ c w, q.book.records c = some w → ∀ k ∈ keys, k ∉ w.legKeys) ∧
      (∀ c w, (∀ k ∈ keys, k ∉ w.legKeys) →
        (q.book.records c = some w ↔ p.book.records c = some w)) ∧
      q.book.Sync ∧
      ∀ k tob, q.topOfBook k = some tob ↔ p.topOfBook k = some tob ∧
        ((∃ c w, q.book.records c = some w ∧ k ∈ w.legKeys) ∨
          ¬ ∃ c w, p.book.records c = some w ∧ q.book.records c = none ∧ k ∈ w.legKeys) := by
  refine ⟨resolves_processes cfg hbetween hmsg, ?_⟩
  rintro q ⟨as, has, hrun, hq⟩
  obtain ⟨taken, htaken, hrest⟩ := run_cons.mp hrun
  obtain ⟨-, rfl⟩ := receive_cases htaken
  have hend : Resolving keys p q :=
    run_invariant_along (P := fun _ a => ∀ msg, a ≠ .receive msg)
      (fun _ _ _ hs ha ht => hs.step ha ht) (resolving_of_resolves hmsg hp)
      (along_of_forall_mem (fun a ha _ => has a ha) _) hrest
  obtain ⟨-, hwithdrawn, hremoved, -, hpending⟩ := hend
  have htodo : q.comms.todo = [] := (betweenMessages_iff.mp hq).2
  -- nothing is left to do, so no affected pair is left
  have hclean : ∀ c w, q.book.records c = some w → ∀ k ∈ keys, k ∉ w.legKeys := by
    intro c w hw k hk hmem
    rcases hpending c ⟨k, hk, w, hw, hmem⟩ with h | ⟨op, h, -⟩
    · rw [htodo] at h
      cases h
    · rw [htodo] at h
      cases h
  refine ⟨hclean, fun c w hw => ⟨hwithdrawn.kept c w, fun hpw => ?_⟩, hwithdrawn.sync,
    hwithdrawn.topOfBook_iff⟩
  -- a pair that was removed had a leg among the keys
  apply (hwithdrawn.kept_or_removed hpw).resolve_right
  intro hqc
  obtain ⟨k, hk, w', hw', hmem⟩ := hremoved c w hpw hqc
  cases hpw.symm.trans hw'
  exact hw k hk hmem

/-- The sample pair goes when its Polymarket market is resolved. -/
theorem resolution_exact_sample :
    ∃ q, Processes sampleConfig onePairState (.polymarket (.marketResolved ["11", "11", "7"])) q ∧
      q.book.records "x" ≠ some sampleWatch := by
  have hsync : onePairState.book.Sync := by
    refine (Book.sync_registerArb_iff Book.sync_new sampleWatch).mpr ?_
    intro old hold
    cases hold
  obtain ⟨⟨q, hq⟩, hall⟩ := resolution_exact sampleConfig hsync rfl (.assets ["11", "11", "7"])
  refine ⟨q, hq, fun h => ?_⟩
  exact (hall q hq).1 "x" sampleWatch h "POLYMARKET:11" (by decide) (by decide)

end System

end Degenerate.Picker
