import Degenerate.Lib.Ranking
import Degenerate.Retention
import Degenerate.Web.Selections

/-!
# What a Hit Contains

The hits that the bot sends for review, over runs in which markets are taken in again and
points are deleted.  A hit lists the best counterparts that were stored when its market
arrived, each of them once, so the identifier that a form of the dashboard names picks one of
them.

## Main Results

- `hit_contents`: every hit of every run, and the store that it was found in
-/

namespace Degenerate.VectorStore

open Degenerate.Lib

variable {V : Type} {sv : Services V}

/-! ## §1 Scores -/

theorem le_trans_score {a b c : F32} (hab : a.le b = true) (hbc : b.le c = true) :
    a.le c = true := by
  cases a <;> cases b <;> cases c <;> simp_all [ExactFloat.le, ExactFloat.lt]
  exact hab.trans hbc

theorem le_total_score {a b : F32} (ha : a ≠ .nan) (hb : b ≠ .nan) :
    (a.le b || b.le a) = true := by
  cases a <;> cases b <;> simp_all [ExactFloat.le, ExactFloat.lt]
  exact le_total _ _

/-- A score that passes a threshold is a number. -/
theorem ne_nan_of_le {a b : F32} (h : a.le b = true) : b ≠ .nan := by
  rintro rfl
  simp [ExactFloat.le] at h

/-! ## §2 The contents of one hit -/

/-- **The contents of a hit** for `m` in a collection of points of `ns`.  The matches are
counterparts of `m` that are stored, best first, and the identifier of a match picks it.  A
stored counterpart is left out only if ten others are at least as similar. -/
structure Contents (points : List (PointStruct V)) (ns : List (Market sv.formats))
    (m : Market sv.formats) (hit : SimilarityHit) : Prop where
  anchor : hit.anchor = some m.info
  nonempty : hit.matches ≠ []
  few : hit.matches.length ≤ 10
  counterpart : ∀ c ∈ hit.matches, ∃ n ∈ ns, point sv n ∈ points ∧ Counterpart sv m n ∧
    c = ⟨sv.score (sv.embed m.questionVector) (sv.embed n.questionVector), some n.info⟩ ∧
    Web.candidateOf hit n.info.uuid = some (c, n.info)
  bestFirst : hit.matches.Pairwise fun c d => d.scored.le c.scored = true
  best : ∀ n ∈ ns, point sv n ∈ points → Counterpart sv m n →
    (∃ c ∈ hit.matches, c.marketInfo = some n.info) ∨
      hit.matches.length = 10 ∧ ∀ c ∈ hit.matches,
        (sv.score (sv.embed m.questionVector) (sv.embed n.questionVector)).le c.scored = true

/-- What a search finds for a point. -/
def found (m : Market sv.formats) (p : PointStruct V) : ScoredPoint where
  score := sv.score (sv.embed m.questionVector) p.vectors
  payload := p.payload

/-- The points that a search does not rule out. -/
def passing (points : List (PointStruct V)) (m : Market sv.formats) : List (PointStruct V) :=
  points.filter fun p => m.filter.all (·.holds p.payload) &&
    similarityScoreThreshold.le (sv.score (sv.embed m.questionVector) p.vectors)

theorem search_eq_best (points : List (PointStruct V)) (m : Market sv.formats) :
    search sv points m =
      best (fun a b => b.score.le a.score) 10 ((passing points m).map (found m)) := rfl

section Found

variable {points : List (PointStruct V)} {ns : List (Market sv.formats)} {m : Market sv.formats}

theorem mem_passing {n : Market sv.formats} :
    point sv n ∈ passing points m ↔ point sv n ∈ points ∧ Counterpart sv m n := by
  rw [passing, List.mem_filter, passes_iff]

/-- Found scores are numbers, in an order. -/
theorem score_ne_nan {r : ScoredPoint} (hr : r ∈ (passing points m).map (found m)) :
    r.score ≠ .nan := by
  obtain ⟨p, hp, rfl⟩ := List.mem_map.mp hr
  have hpasses := (List.mem_filter.mp hp).2
  rw [Bool.and_eq_true] at hpasses
  exact ne_nan_of_le hpasses.2

theorem found_order :
    (∀ a ∈ (passing points m).map (found m), ∀ b ∈ (passing points m).map (found m),
      ∀ c ∈ (passing points m).map (found m),
        b.score.le a.score = true → c.score.le b.score = true → c.score.le a.score = true) ∧
    ∀ a ∈ (passing points m).map (found m), ∀ b ∈ (passing points m).map (found m),
      (b.score.le a.score || a.score.le b.score) = true :=
  ⟨fun _ _ _ _ _ _ hab hbc => le_trans_score hbc hab,
    fun _ ha _ hb => le_total_score (score_ne_nan hb) (score_ne_nan ha)⟩

/-- The identifier of the market that a search has found. -/
def foundId (r : ScoredPoint) : Option String := r.payload.marketInfo.map (·.uuid)

/-- No market is found twice. -/
theorem nodup_foundId (hpoints : Holds ns points) :
    ((search sv points m).map foundId).Nodup := by
  rw [search_eq_best]
  apply nodup_map_best
  -- a found point keeps the identifier under which it is stored
  have hids : ((passing points m).map (found m)).map foundId =
      ((passing points m).map (·.id)).map some := by
    rw [List.map_map, List.map_map]
    apply List.map_congr_left
    intro p hp
    obtain ⟨n, -, rfl⟩ := hpoints.source p (List.mem_of_mem_filter hp)
    rfl
  rw [hids]
  apply List.Nodup.map (Option.some_injective _)
  exact hpoints.ids.sublist (List.filter_sublist.map _)

theorem mem_search {r : ScoredPoint} (hpoints : Holds ns points) (hr : r ∈ search sv points m) :
    ∃ n ∈ ns, point sv n ∈ points ∧ Counterpart sv m n ∧ r = found m (point sv n) := by
  obtain ⟨p, hp, rfl⟩ := List.mem_map.mp (mem_of_mem_best hr)
  obtain ⟨n, hn, rfl⟩ := hpoints.source p (List.mem_of_mem_filter hp)
  obtain ⟨hstored, hc⟩ := mem_passing.mp hp
  exact ⟨n, hn, hstored, hc, rfl⟩

/-- The identifier of a match picks it among all matches. -/
theorem candidateOf_found {hit : SimilarityHit} {n : Market sv.formats}
    (hmatches : hit.matches = (similarityHit m.payload (search sv points m)).matches)
    (hpoints : Holds ns points) (hn : found m (point sv n) ∈ search sv points m) :
    Web.candidateOf hit n.info.uuid =
      some (⟨(found m (point sv n)).score, some n.info⟩, n.info) := by
  rw [Web.candidateOf_eq_some, hmatches, similarityHit, List.find?_map]
  refine ⟨?_, rfl⟩
  have hkey : (fun r : ScoredPoint => (r.payload.marketInfo.any (·.uuid = n.info.uuid))) =
      fun r => decide (foundId r = foundId (found m (point sv n))) := by
    funext r
    rw [Bool.eq_iff_iff, decide_eq_true_eq, foundId, foundId]
    simp [found, point, Market.payload, Option.any_eq_true]
  -- the dashboard takes the first match with the identifier: there is only one
  have hfind := find?_of_nodup (nodup_foundId hpoints) hn
  rw [← hkey] at hfind
  show Option.map _ (List.find? (fun r : ScoredPoint =>
    (r.payload.marketInfo.any (·.uuid = n.info.uuid))) _) = _
  rw [hfind]
  rfl

theorem contents_of_hitOf {now : ℤ} {e : CrossPlatformHit} (hpoints : Holds ns points)
    (he : hitOf sv points now m = some e) : Contents points ns m e.hit := by
  obtain ⟨hsome, he⟩ := Option.ite_none_left_eq_some.mp he
  obtain rfl := Option.some.inj he
  have hmatches : (crossPlatformHit sv m.payload m.info (search sv points m) now).hit.matches =
      (search sv points m).map fun r => ⟨r.score, r.payload.marketInfo⟩ := rfl
  constructor
  · rfl
  · rw [hmatches]
    simpa using hsome
  · rw [hmatches, List.length_map]
    exact length_best_le
  · rw [hmatches]
    intro c hc
    obtain ⟨r, hr, rfl⟩ := List.mem_map.mp hc
    obtain ⟨n, hn, hstored, hcounter, rfl⟩ := mem_search hpoints hr
    exact ⟨n, hn, hstored, hcounter, rfl, candidateOf_found rfl hpoints hr⟩
  · rw [hmatches, List.pairwise_map]
    exact pairwise_best found_order.1 found_order.2
  · -- a counterpart that is not among the ten is behind all of them
    intro n hn hstored hcounter
    have hfound : found m (point sv n) ∈ (passing points m).map (found m) :=
      List.mem_map_of_mem (mem_passing.mpr ⟨hstored, hcounter⟩)
    rw [hmatches]
    by_cases hr : found m (point sv n) ∈ search sv points m
    · exact .inl ⟨_, List.mem_map_of_mem hr, rfl⟩
    · right
      obtain ⟨hfull, hbest⟩ := le_of_not_mem_best found_order.1 found_order.2 hfound hr
      refine ⟨by rwa [List.length_map], fun c hc => ?_⟩
      obtain ⟨r, hr, rfl⟩ := List.mem_map.mp hc
      exact hbest r hr

end Found

/-! ## §3 Runs -/

namespace Collection

theorem holds_deletePoints {ns : List (Market sv.formats)} {s : Collection V} (cutoff : ℤ)
    (hs : Holds ns s.discovery.points) : Holds ns (s.deletePoints cutoff).discovery.points where
  ids := hs.ids.sublist (List.filter_sublist.map _)
  source p hp := hs.source p (List.mem_of_mem_filter hp)

/-- **The collection of a run**, however often its markets arrive. -/
theorem holds_of_run {now : ℤ} {as : List (CollectionAction sv)} {s : Collection V}
    (hrun : run (step sv) (empty now) as = some s) :
    Holds (markets sv (arrived as)) s.discovery.points := by
  refine run_invariant_prefix
    (I := fun as s => Holds (markets sv (arrived as)) s.discovery.points) ?_ ?_ hrun
  · exact ⟨List.nodup_nil, fun p hp => absurd hp List.not_mem_nil⟩
  · -- only arrivals add points, and only deletions take them away
    intro as s a s' _ hs hstep
    have hsplit : arrived (as ++ [a]) = arrived as ++ arrived [a] := List.filterMap_append
    rw [hsplit]
    cases step_moves hstep with
    | arrive a hnow =>
        have hmarkets : markets sv (arrived as ++ arrived [.arrive a]) =
            markets sv (arrived as) ++ a.markets := by simp [markets, arrived]
        rw [hmarkets]
        exact hs.ingest a
    | apply c hcall hopen => simpa [arrived] using holds_deletePoints c.cutoff hs
    | applyLate i cutoff hlate => simpa [arrived] using holds_deletePoints cutoff hs
    | _ =>
        show Holds (markets sv (arrived as ++ [])) s.discovery.points
        rw [List.append_nil]
        exact hs

/-- The arrival of a market makes a hit, against the points that are there. -/
def Finds (s : Collection V) (a : CollectionAction sv) (e : CrossPlatformHit) : Prop :=
  ∃ b m, a = .arrive b ∧ m ∈ b.markets ∧ hitOf sv s.discovery.points b.now m = some e

/-- **The hits of a run** are those of its arrivals. -/
theorem mem_emitted_of_run {now : ℤ} {as : List (CollectionAction sv)} {s : Collection V}
    {e : CrossPlatformHit} (hrun : run (step sv) (empty now) as = some s) :
    e ∈ s.discovery.emitted ↔ ∃ before a after t, as = before ++ a :: after ∧
      run (step sv) (empty now) before = some t ∧ Finds t a e := by
  refine run_invariant_prefix (I := fun as s => e ∈ s.discovery.emitted ↔
    ∃ before a after t, as = before ++ a :: after ∧
      run (step sv) (empty now) before = some t ∧ Finds t a e) ?_ ?_ hrun
  · simp [empty]
  · intro as s a s' hrun hs hstep
    -- what a longer run has found is what the shorter one had, or what its last step finds
    have hlast : (∃ before b after t, as ++ [a] = before ++ b :: after ∧
        run (step sv) (empty now) before = some t ∧ Finds t b e) ↔
          (∃ before b after t, as = before ++ b :: after ∧
            run (step sv) (empty now) before = some t ∧ Finds t b e) ∨ Finds s a e := by
      constructor
      · rintro ⟨before, b, after, t, has, ht, hfinds⟩
        obtain rfl | ⟨after, b', rfl⟩ := after.eq_nil_or_concat
        · obtain ⟨rfl, hb⟩ := List.append_inj' has rfl
          obtain rfl := List.singleton_inj.mp hb
          obtain rfl := Option.some.inj (hrun.symm.trans ht)
          exact .inr hfinds
        · have has' : as ++ [a] = (before ++ b :: after) ++ [b'] := by simpa using has
          obtain ⟨rfl, -⟩ := List.append_inj' has' rfl
          exact .inl ⟨before, b, after, t, rfl, ht, hfinds⟩
      · rintro (⟨before, b, after, t, rfl, ht, hfinds⟩ | hfinds)
        · exact ⟨before, b, after ++ [a], t, by simp, ht, hfinds⟩
        · exact ⟨as, a, [], s, rfl, hrun, hfinds⟩
    rw [hlast, ← hs]
    cases step_moves hstep with
    | arrive a hnow =>
        show e ∈ (ingest sv s.discovery a).emitted ↔ _
        rw [emitted_ingest, List.mem_append, List.mem_filterMap]
        apply or_congr_right
        constructor
        · rintro ⟨m, hm, he⟩
          exact ⟨a, m, rfl, hm, he⟩
        · rintro ⟨b, m, hb, hm, he⟩
          cases hb
          exact ⟨m, hm, he⟩
    -- the cleaner sends nothing
    | _ =>
        refine (or_iff_left ?_).symm
        rintro ⟨b, m, hb, -⟩
        cases hb

/-! ## §4 Every hit of every run -/

/-- **What a hit contains**, while the store answers.  Whatever arrives, again or for the first
time, and whatever is deleted meanwhile: a hit that was sent names a market that had arrived,
under its identifiers, and has the contents for the collection of that moment.  Every market that
arrives when a counterpart is stored makes a hit. -/
theorem hit_contents {now : ℤ} {as : List (CollectionAction sv)} {s : Collection V}
    (hrun : run (step sv) (empty now) as = some s) :
    (∀ e ∈ s.discovery.emitted, ∃ before a after t, as = before ++ .arrive a :: after ∧
      run (step sv) (empty now) before = some t ∧ ∃ m ∈ a.markets,
        e.correlationId = generateUuidV5 sv.formats (m.info.uuid ++ ":" ++ m.info.marketId) ∧
        e.actionAt = a.now ∧
        Contents t.discovery.points (markets sv (arrived before)) m e.hit) ∧
    ∀ before a after t, as = before ++ .arrive a :: after →
      run (step sv) (empty now) before = some t → ∀ m ∈ a.markets,
        ∀ n, point sv n ∈ t.discovery.points → Counterpart sv m n →
          ∃ e ∈ s.discovery.emitted, e.hit.anchor = some m.info ∧ e.actionAt = a.now := by
  constructor
  · intro e he
    obtain ⟨before, a, after, t, rfl, ht, b, m, rfl, hm, hhit⟩ := (mem_emitted_of_run hrun).mp he
    refine ⟨before, b, after, t, rfl, ht, m, hm, ?_⟩
    have hcontents := contents_of_hitOf (holds_of_run ht) hhit
    obtain ⟨-, hhit⟩ := Option.ite_none_left_eq_some.mp hhit
    obtain rfl := Option.some.inj hhit
    exact ⟨rfl, rfl, hcontents⟩
  · -- a counterpart that is stored passes the search, which then is not empty
    intro before a after t has ht m hm n hstored hcounter
    have hfound : search sv t.discovery.points m ≠ [] := by
      rw [search_eq_best, ne_eq, best_eq_nil_iff, not_or]
      have hpasses := List.mem_map_of_mem (f := found m) (mem_passing.mpr ⟨hstored, hcounter⟩)
      exact ⟨by decide, List.ne_nil_of_mem hpasses⟩
    refine ⟨_, (mem_emitted_of_run hrun).mpr
      ⟨before, .arrive a, after, t, has, ht, a, m, rfl, hm, if_neg hfound⟩, rfl, rfl⟩

/-! ### A market that is taken in twice -/

/-- A restart: the backfill stores the same market again. -/
def fedTwice : List (CollectionAction fedServices) := [
  .arrive (fedBackfill 1790000000000),
  .elapse 1,
  .arrive (fedBackfill 1790000000001),
  .elapse 1]

theorem hit_contents_sample : ∃ s,
    run (step fedServices) (empty 1790000000000)
      (fedTwice ++ [.arrive (.live polymarketFed 1790000000002)]) = some s ∧
    (∃ e ∈ s.discovery.emitted, e.hit.anchor = some polymarketFed.info ∧
      e.actionAt = 1790000000002) ∧
    ∀ e ∈ s.discovery.emitted, e.hit.matches ≠ [] := by
  have hrun : (run (step fedServices) (empty 1790000000000) fedTwice).any (fun t =>
      decide (point fedServices kalshiFed ∈ t.discovery.points) &&
        (run (step fedServices) (empty 1790000000000)
          (fedTwice ++ [.arrive (.live polymarketFed 1790000000002)])).isSome) = true := by
    decide +kernel
  obtain ⟨t, ht, hcheck⟩ := (Option.any_eq_true _ _).mp hrun
  simp only [Bool.and_eq_true, decide_eq_true_eq] at hcheck
  obtain ⟨s, hs⟩ := Option.isSome_iff_exists.mp hcheck.2
  obtain ⟨hcontents, hmade⟩ := hit_contents hs
  refine ⟨s, hs, ?_, fun e he => ?_⟩
  · exact hmade fedTwice _ [] t rfl ht polymarketFed (List.mem_singleton_self _) kalshiFed
      hcheck.1 (by decide +kernel)
  · obtain ⟨_, _, _, _, _, _, _, _, _, _, h⟩ := hcontents e he
    exact h.nonempty

end Collection

end Degenerate.VectorStore
