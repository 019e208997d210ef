import Degenerate.Retention

/-!
# Resuming after Downtime

At its start the bot asks each platform for the markets that it has missed.
`get_last_insert_time` (`vector_store.rs`) finds the newest insertion of the platform's points,
and `backfill_kalshi_history` and `initial_backfill_polymarket_history` ask for the time since
then and an hour more; without a point they ask for 125 hours.

The markets that the platform lists while the bot is down come after the newest insertion, so
this window has them.  What is older than the newest insertion by more than the hour is not
asked for again, although an earlier backfill may have left it out.

## Main Results

- `resumption_covers_iff`: which listing times the window of the next start has
-/

namespace Degenerate.VectorStore

open Degenerate.Lib

/-! ## §1 The window -/

section Window

variable {V : Type}

/-- What the points of a platform carry under `FIELD_INSERTED_AT`. -/
def insertTimes (points : List (PointStruct V)) (platformName : Platform) : List ℤ :=
  (points.filter fun p => Condition.holds
      ⟨"market_info.platform", .integer (platformNumber platformName)⟩ p.payload).filterMap
    fun p => match payloadField p.payload "qdrant_inserted_at" with
      | some (.integer tsMillis) => some tsMillis
      | _ => none

/-- `get_last_insert_time`: the first point of a scroll in descending order. -/
def getLastInsertTime (points : List (PointStruct V)) (platformName : Platform) :
    Except String (Option ℤ) :=
  match (insertTimes points platformName).max? with
  | none => .ok none
  | some tsMillis =>
      match fromTimestampMillis tsMillis with
      | none => .error "invalid timestamp in vectorDB"
      | some date => .ok (some date)

/-- The `duration` of a backfill, in seconds. -/
def historySeconds (lastInsert : Option ℤ) (now : ℤ) : ℕ :=
  match lastInsert with
  -- a date in the future counts as no time at all
  | some date => (now - date).toNat / 1000 + 3600
  | none => 25 * 3600 * 5

/-- `min_created_timestamp`, and the seconds of `start_date_min`. -/
def windowStart (now : ℤ) (duration : ℕ) : ℤ := now / 1000 - duration

/-- The start of the window of `backfill_kalshi_history` and of
`initial_backfill_polymarket_history`.  The duration is computed at `askedAt`, and the requests
for a tag are made at `requestAt`. -/
def historyStart (points : List (PointStruct V)) (platformName : Platform)
    (askedAt requestAt : ℤ) : Except String ℤ := do
  let lastInsert ← getLastInsertTime points platformName
  return windowStart requestAt (historySeconds lastInsert askedAt)

end Window

variable {V : Type} {sv : Services V}

/-! ## §2 Stored insertion times -/

/-- The payload of a point tells the platform and the stamp. -/
theorem eq_of_point_eq {m n : Market sv.formats} (h : point sv m = point sv n) :
    m.platform = n.platform ∧ m.insertedAt = n.insertedAt := by
  have hinfo : m.info = n.info := Option.some.inj (congrArg (·.payload.marketInfo) h)
  refine ⟨?_, congrArg (·.payload.qdrantInsertedAt) h⟩
  rw [← platformNumber_inj, ← m.platform_eq, ← n.platform_eq, hinfo]

variable (sv) in
/-- The points are those of markets, and those of platform `p` were stamped between the epoch
and `T`. -/
def Stamped (p : Platform) (T : ℤ) (points : List (PointStruct V)) : Prop :=
  ∀ q ∈ points, ∃ m : Market sv.formats, q = point sv m ∧
    (m.platform = p → 0 ≤ m.insertedAt ∧ m.insertedAt ≤ T)

theorem Stamped.mono {p : Platform} {T T' : ℤ} {points : List (PointStruct V)}
    (hs : Stamped sv p T points) (hT : T ≤ T') : Stamped sv p T' points := by
  intro q hq
  obtain ⟨m, rfl, hm⟩ := hs q hq
  exact ⟨m, rfl, fun hp => ⟨(hm hp).1, (hm hp).2.trans hT⟩⟩

theorem Stamped.ingest {p : Platform} {T : ℤ} {st : Discovery V} {a : Arrival sv}
    (hs : Stamped sv p T st.points)
    (ha : ∀ m ∈ a.markets, m.platform = p → 0 ≤ m.insertedAt ∧ m.insertedAt ≤ T) :
    Stamped sv p T (ingest sv st a).points := by
  intro q hq
  rcases mem_of_mem_ingest hq with hq | ⟨m, hm, rfl⟩
  · exact hs q hq
  · exact ⟨m, rfl, ha m hm⟩

theorem mem_insertTimes {points : List (PointStruct V)} {p : Platform} {T : ℤ}
    (hs : Stamped sv p T points) {t : ℤ} :
    t ∈ insertTimes points p ↔
      ∃ m : Market sv.formats, m.platform = p ∧ point sv m ∈ points ∧ m.insertedAt = t := by
  have hplatform : ∀ m : Market sv.formats,
      Condition.holds ⟨"market_info.platform", .integer (platformNumber p)⟩
        (point sv m).payload = decide (m.platform = p) := by
    intro m
    simp [Condition.holds, payloadField, point, Market.payload, m.platform_eq, platformNumber_inj]
  have htime : ∀ m : Market sv.formats, payloadField (point sv m).payload "qdrant_inserted_at" =
      some (.integer m.insertedAt) := fun _ => rfl
  rw [insertTimes, List.mem_filterMap]
  constructor
  · rintro ⟨q, hq, ht⟩
    obtain ⟨hq, hp⟩ := List.mem_filter.mp hq
    obtain ⟨m, rfl, -⟩ := hs q hq
    rw [hplatform, decide_eq_true_eq] at hp
    rw [htime] at ht
    exact ⟨m, hp, hq, Option.some.inj ht⟩
  · rintro ⟨m, hp, hq, rfl⟩
    refine ⟨point sv m, List.mem_filter.mpr ⟨hq, ?_⟩, by rw [htime]⟩
    rw [hplatform, decide_eq_true_eq]
    exact hp

/-- **The newest insertion.** A platform without a point has none; else it is the latest of
the stamps of its points. -/
theorem getLastInsertTime_cases {points : List (PointStruct V)} {p : Platform} {T : ℤ}
    (hs : Stamped sv p T points) (hT : T ≤ 8210266876799999) :
    ((∀ m : Market sv.formats, m.platform = p → point sv m ∉ points) ∧
        getLastInsertTime points p = .ok none) ∨
      ∃ newest : Market sv.formats, newest.platform = p ∧ point sv newest ∈ points ∧
        newest.insertedAt ≤ T ∧
        (∀ m : Market sv.formats, m.platform = p → point sv m ∈ points →
          m.insertedAt ≤ newest.insertedAt) ∧
        getLastInsertTime points p = .ok (some newest.insertedAt) := by
  cases hmax : (insertTimes points p).max? with
  | none =>
      left
      -- no stamp at all: a point of the platform would have had one
      have hnil := List.max?_eq_none_iff.mp hmax
      refine ⟨fun m hp hm => ?_, by rw [getLastInsertTime, hmax]⟩
      have hmem := (mem_insertTimes hs).mpr ⟨m, hp, hm, rfl⟩
      rw [hnil] at hmem
      cases hmem
  | some t =>
      right
      obtain ⟨hmem, hle⟩ := List.max?_eq_some_iff.mp hmax
      obtain ⟨newest, hp, hm, rfl⟩ := (mem_insertTimes hs).mp hmem
      obtain ⟨n, hn, hstamp⟩ := hs _ hm
      obtain ⟨hplatform, hsame⟩ := eq_of_point_eq hn
      obtain ⟨hepoch, hlast⟩ := hstamp (hplatform.symm.trans hp)
      refine ⟨newest, hp, hm, by omega, fun m hp hm => ?_, ?_⟩
      · exact hle _ ((mem_insertTimes hs).mpr ⟨m, hp, hm, rfl⟩)
      · have hrange : fromTimestampMillis newest.insertedAt = some newest.insertedAt :=
          if_pos (by omega)
        simp only [getLastInsertTime, hmax, hrange]

/-! ## §3 The insertion times of a run -/

namespace Collection

/-- Every market that arrives has been stamped by then. -/
def StampedByNow : CollectionAction sv → Prop
  | .arrive a => ∀ m ∈ a.markets, 0 ≤ m.insertedAt ∧ m.insertedAt ≤ a.now
  | _ => True

/-- No market of platform `p` arrives. -/
def Without (p : Platform) : CollectionAction sv → Prop
  | .arrive a => ∀ m ∈ a.markets, m.platform ≠ p
  | _ => True

theorem stamped_deletePoints {p : Platform} {T : ℤ} {s : Collection V} (cutoff : ℤ)
    (hs : Stamped sv p T s.discovery.points) :
    Stamped sv p T (s.deletePoints cutoff).discovery.points :=
  fun q hq => hs q (List.mem_of_mem_filter hq)

/-- While the clock runs, no stamp is ahead of it. -/
theorem stamped_step {p : Platform} {s s' : Collection V} {a : CollectionAction sv}
    (hs : Stamped sv p s.now s.discovery.points) (ha : StampedByNow a)
    (hstep : s.step sv a = some s') : Stamped sv p s'.now s'.discovery.points := by
  cases step_moves hstep with
  | elapse d => exact hs.mono (by show s.now ≤ s.now + d; omega)
  | arrive a hnow => exact hs.ingest fun m hm _ => hnow ▸ ha m hm
  | start => exact hs
  | shutdown hcall => exact hs
  | tick t htick hcall hdue => exact hs
  | apply c hcall hopen => exact stamped_deletePoints c.cutoff hs
  | respond ok c hcall hok => exact hs
  | applyLate i cutoff hlate => exact stamped_deletePoints cutoff hs

/-- Without arrivals of the platform, its stamps do not get any later. -/
theorem stamped_step_without {p : Platform} {T : ℤ} {s s' : Collection V}
    {a : CollectionAction sv} (hs : Stamped sv p T s.discovery.points)
    (ha : Without p a) (hstep : s.step sv a = some s') :
    Stamped sv p T s'.discovery.points := by
  cases step_moves hstep with
  | elapse d => exact hs
  | arrive a hnow => exact hs.ingest fun m hm hp => absurd hp (ha m hm)
  | start => exact hs
  | shutdown hcall => exact hs
  | tick t htick hcall hdue => exact hs
  | apply c hcall hopen => exact stamped_deletePoints c.cutoff hs
  | respond ok c hcall hok => exact hs
  | applyLate i cutoff hlate => exact stamped_deletePoints cutoff hs

theorem now_le_of_run {s s' : Collection V} {as : List (CollectionAction sv)}
    (hrun : run (step sv) s as = some s') : s.now ≤ s'.now := by
  refine run_invariant (I := fun t => s.now ≤ t.now) ?_ le_rfl hrun
  intro t a t' ht hstep
  cases step_moves hstep with
  | elapse d => exact ht.trans (by show t.now ≤ t.now + d; omega)
  | _ => exact ht

/-! ## §4 What the next start asks for -/

/-- **Resuming.** The bot is up until `s`, and from then on no market of platform `p` arrives,
while the collection is cleaned and the other platform goes on.  The next start asks for all
that `p` has listed since `s`, or for the last 125 hours if no point of `p` is left, provided its
request is made within 3599 seconds after it has asked the collection for its newest point.  It
asks for nothing that was listed more than an hour and a second before any insertion. -/
theorem resumption_covers_iff {now askedAt requestAt : ℤ} {p : Platform} {s s' : Collection V}
    {up down : List (CollectionAction sv)}
    (hup : run (step sv) (empty now) up = some s) (hstamps : ∀ a ∈ up, StampedByNow a)
    (hdown : run (step sv) s down = some s') (hwithout : ∀ a ∈ down, Without p a)
    (hasked : s'.now ≤ askedAt) (hrequest : askedAt ≤ requestAt)
    (hsoon : requestAt ≤ askedAt + 3599000) (hrange : askedAt ≤ 8210266876799999) :
    ∃ start, historyStart s'.discovery.points p askedAt requestAt = .ok start ∧
      (∀ listedAt, s.now ≤ listedAt → (start * 1000 ≤ listedAt ↔
        (∃ m : Market sv.formats, m.platform = p ∧ point sv m ∈ s'.discovery.points) ∨
          (requestAt / 1000 - 125 * 3600) * 1000 ≤ listedAt)) ∧
      ∀ m : Market sv.formats, m.platform = p → point sv m ∈ s'.discovery.points →
        ∀ listedAt, listedAt + 3601000 ≤ m.insertedAt → listedAt < start * 1000 := by
  have hnone : Stamped sv p now (empty now : Collection V).discovery.points :=
    fun q hq => absurd hq List.not_mem_nil
  have hs : Stamped sv p s.now s.discovery.points :=
    run_invariant_along (P := fun _ a => StampedByNow a)
      (fun _ _ _ hs ha hstep => stamped_step hs ha hstep) hnone
      (along_of_forall_mem (fun a ha _ => hstamps a ha) _) hup
  have hs' : Stamped sv p s.now s'.discovery.points :=
    run_invariant_along (P := fun _ a => Without p a)
      (fun _ _ _ hs ha hstep => stamped_step_without hs ha hstep) hs
      (along_of_forall_mem (fun a ha _ => hwithout a ha) _) hdown
  have hlater := now_le_of_run hdown
  rcases getLastInsertTime_cases hs' (by omega) with ⟨hno, hget⟩ | ⟨newest, hp, hm, hle, hall, hget⟩
  -- no point of the platform is left, and the default window is asked for
  · refine ⟨windowStart requestAt (historySeconds none askedAt), ?_, ?_, ?_⟩
    · simp only [historyStart, hget]
      rfl
    · intro listedAt _
      constructor
      · exact .inr
      · rintro (⟨m, hp, hm⟩ | h)
        · exact absurd hm (hno m hp)
        · exact h
    · exact fun m hp hm => absurd hm (hno m hp)
  -- the newest stamp is from before the break, so that the window reaches behind it
  · refine ⟨windowStart requestAt (historySeconds (some newest.insertedAt) askedAt), ?_, ?_, ?_⟩
    · simp only [historyStart, hget]
      rfl
    · intro listedAt hlisted
      have hstart : windowStart requestAt (historySeconds (some newest.insertedAt) askedAt) * 1000
          ≤ newest.insertedAt := by
        simp only [windowStart, historySeconds]
        omega
      constructor
      · exact fun _ => .inl ⟨newest, hp, hm⟩
      · exact fun _ => by omega
    · intro m hp hm listedAt hlisted
      have hnewest := hall m hp hm
      simp only [windowStart, historySeconds]
      omega

/-! ### A day without Kalshi -/

/-- Up for the backfill of one market. -/
def fedUp : List (CollectionAction fedServices) :=
  [.start, .arrive (fedBackfill 1790000000500)]

/-- Down for a day; then Polymarket is the first to be back. -/
def fedDown : List (CollectionAction fedServices) :=
  [.elapse 86400000, .start, .arrive (.live polymarketFed 1790086400500)]

theorem resumption_covers_iff_sample : ∃ s s',
    run (step fedServices) (empty 1790000000500) fedUp = some s ∧
    run (step fedServices) s fedDown = some s' ∧
    ∃ start, historyStart s'.discovery.points .kalshi 1790086400600 1790086401600 = .ok start ∧
      (∀ listedAt, 1790000000500 ≤ listedAt → start * 1000 ≤ listedAt) ∧
      ∀ listedAt, listedAt + 3601000 ≤ 1790000000000 → listedAt < start * 1000 := by
  have hrun : (run (step fedServices) (empty 1790000000500) fedUp).any (fun s =>
      decide (s.now = 1790000000500) && (run (step fedServices) s fedDown).any fun s' =>
        decide (s'.now = 1790086400500 ∧ point fedServices kalshiFed ∈ s'.discovery.points)) =
      true := by decide +kernel
  obtain ⟨s, hs, hcheck⟩ := (Option.any_eq_true _ _).mp hrun
  simp only [Bool.and_eq_true, decide_eq_true_eq, Option.any_eq_true] at hcheck
  obtain ⟨hnow, s', hs', hnow', hp⟩ := hcheck
  have hasked : s'.now ≤ 1790086400600 := by omega
  have hrequest : (1790086400600 : ℤ) ≤ 1790086401600 := by omega
  obtain ⟨start, hstart, hcovers, hbefore⟩ := resumption_covers_iff (p := .kalshi) hs
    (by simp [fedUp, fedBackfill, StampedByNow, Arrival.markets, Arrival.now, kalshiFed]) hs'
    (by simp [fedDown, Without, Arrival.markets, polymarketFed]) hasked hrequest (by omega)
    (by omega)
  refine ⟨s, s', hs, hs', start, hstart, fun listedAt h => ?_, fun listedAt h => ?_⟩
  · exact (hcovers listedAt (by omega)).mpr (.inl ⟨kalshiFed, rfl, hp⟩)
  · exact hbefore kalshiFed rfl hp listedAt h

end Collection

end Degenerate.VectorStore
