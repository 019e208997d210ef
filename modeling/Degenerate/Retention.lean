import Degenerate.VectorStore
import Degenerate.Lib.TransitionSystem

/-!
# Cleaning the Vector Store

`run_delete_old_points` (`vector_store.rs`) deletes the points of the markets that closed more
than two days ago.  It does so every 24 hours, the first time a day after the start, while
markets keep arriving.  The cutoff is computed when the interval fires, Qdrant applies the
deletion some time later, and a call that fails may have been applied, or may still be.

## Main Results

- `kept_and_purged`: how long the point of a market stays after the market has closed
- `cleaning_hides_nothing`: the hits are those of a store that is never cleaned, if no market
  arrives more than two days after a counterpart, or an earlier version of itself, has closed
-/

namespace Degenerate.VectorStore

open Degenerate.Lib

/-! ## §1 The collection over time -/

/-- A `delete_points` request that has no response yet. -/
structure DeleteCall where
  cutoff : ℤ
  applied : Bool := false
  deriving DecidableEq

/-- The collection, the clock, and the task that cleans the collection. -/
structure Collection (V : Type) where
  discovery : Discovery V := {}
  now : ℤ
  /-- When the interval fires next; nothing while the task does not run. -/
  nextTick : Option ℤ := none
  call : Option DeleteCall := none
  /-- The cutoffs of calls that have failed and may still be applied. -/
  late : List ℤ := []

namespace Collection

variable {V : Type}

/-- `Duration::from_secs(24 * 60 * 60)`. -/
def cleanInterval : ℤ := 24 * 60 * 60 * 1000

/-- `ChronoDuration::days(2)`. -/
def retention : ℤ := 2 * 24 * 60 * 60 * 1000

/-- `Range { lt: Some(cutoff_ms) }` on `FIELD_CLOSE_TIME_MS`. -/
def closedBefore (cutoff : ℤ) (p : PointStruct V) : Bool :=
  match payloadField p.payload "market_info.close_time_ms" with
  | some (.integer closeTimeMs) => closeTimeMs < cutoff
  | _ => false

/-- What Qdrant does for `delete_points`. -/
def deletePoints (s : Collection V) (cutoff : ℤ) : Collection V :=
  { s with discovery.points := s.discovery.points.filter fun p => !closedBefore cutoff p }

/-- What becomes of a call whose response is not awaited any longer. -/
def abandon (s : Collection V) : Collection V :=
  let pending := s.call.filter fun c => !c.applied
  { s with call := none, late := s.late ++ (pending.map (·.cutoff)).toList }

end Collection

open Collection

variable {V : Type} (sv : Services V)

/-- A step of the collection. -/
inductive CollectionAction where
  | elapse (d : ℕ)
  | arrive (a : Arrival sv)
  /-- `run_delete_old_points` is spawned, in a new process. -/
  | start
  | shutdown
  /-- The interval fires and the request is sent. -/
  | tick
  /-- Qdrant applies the request. -/
  | apply
  /-- The call returns. -/
  | respond (ok : Bool)
  /-- Qdrant applies a request whose call has failed. -/
  | applyLate (i : ℕ)

/-- One step. -/
def Collection.step (s : Collection V) : CollectionAction sv → Option (Collection V)
  | .elapse d => some { s with now := s.now + d }
  | .arrive a =>
      if a.now = s.now then some { s with discovery := ingest sv s.discovery a } else none
  | .start => some { s.abandon with nextTick := some (s.now + cleanInterval) }
  | .shutdown => if s.call.isNone then some { s with nextTick := none } else none
  | .tick =>
      match s.nextTick, s.call with
      | some t, none =>
          -- a tick that comes late does not shift the next one
          if t ≤ s.now then
            some { s with
              nextTick := some (t + cleanInterval)
              call := some { cutoff := s.now - retention } }
          else none
      | _, _ => none
  | .apply =>
      match s.call with
      | some c =>
          if c.applied then none
          else some { s.deletePoints c.cutoff with call := some { c with applied := true } }
      | none => none
  | .respond ok =>
      match s.call with
      -- `wait(true)`: an `Ok` is returned when the deletion has been applied
      | some c => if ok && !c.applied then none else some s.abandon
      | none => none
  | .applyLate i =>
      match s.late[i]? with
      | some cutoff => some { s.deletePoints cutoff with late := s.late.eraseIdx i }
      | none => none

/-- The arrivals among several steps. -/
def arrived {sv : Services V} (as : List (CollectionAction sv)) : List (Arrival sv) :=
  as.filterMap fun
    | .arrive a => some a
    | _ => none

/-! ## §2 What a step does -/

namespace Collection

variable {sv}

/-- What a step does, guards included. -/
inductive Moves (s : Collection V) : CollectionAction sv → Collection V → Prop
  | elapse (d : ℕ) : Moves s (.elapse d) { s with now := s.now + d }
  | arrive (a : Arrival sv) (hnow : a.now = s.now) :
      Moves s (.arrive a) { s with discovery := ingest sv s.discovery a }
  | start : Moves s .start { s.abandon with nextTick := some (s.now + cleanInterval) }
  | shutdown (hcall : s.call = none) : Moves s .shutdown { s with nextTick := none }
  | tick (t : ℤ) (htick : s.nextTick = some t) (hcall : s.call = none) (hdue : t ≤ s.now) :
      Moves s .tick { s with
        nextTick := some (t + cleanInterval)
        call := some { cutoff := s.now - retention } }
  | apply (c : DeleteCall) (hcall : s.call = some c) (hopen : c.applied = false) :
      Moves s .apply { s.deletePoints c.cutoff with call := some { c with applied := true } }
  | respond (ok : Bool) (c : DeleteCall) (hcall : s.call = some c)
      (hok : ok = true → c.applied = true) : Moves s (.respond ok) s.abandon
  | applyLate (i : ℕ) (cutoff : ℤ) (hlate : cutoff ∈ s.late) :
      Moves s (.applyLate i) { s.deletePoints cutoff with late := s.late.eraseIdx i }

theorem step_moves {s s' : Collection V} {a : CollectionAction sv}
    (hstep : s.step sv a = some s') : s.Moves a s' := by
  cases a with
  | elapse d =>
      cases hstep
      exact .elapse d
  | arrive a =>
      -- an arrival reads the same clock
      simp only [step, Option.ite_none_right_eq_some, Option.some.injEq] at hstep
      obtain ⟨hnow, rfl⟩ := hstep
      exact .arrive a hnow
  | start =>
      cases hstep
      exact .start
  | shutdown =>
      simp only [step, Option.isNone_iff_eq_none, Option.ite_none_right_eq_some,
        Option.some.injEq] at hstep
      obtain ⟨hcall, rfl⟩ := hstep
      exact .shutdown hcall
  | tick =>
      -- a tick needs an interval, no call under way, and its time
      simp only [step] at hstep
      split at hstep
      · rename_i t htick hcall
        simp only [Option.ite_none_right_eq_some, Option.some.injEq] at hstep
        obtain ⟨hdue, rfl⟩ := hstep
        exact .tick t htick hcall hdue
      · cases hstep
  | apply =>
      simp only [step] at hstep
      split at hstep
      · rename_i c hcall
        -- a call is applied once
        cases hopen : c.applied with
        | true => simp [hopen] at hstep
        | false =>
            simp only [hopen, Bool.false_eq_true, if_false, Option.some.injEq] at hstep
            subst hstep
            exact .apply c hcall hopen
      · cases hstep
  | respond ok =>
      simp only [step] at hstep
      split at hstep
      · rename_i c hcall
        split at hstep
        · -- a positive answer needs an applied call
          cases hstep
        · rename_i hok
          cases hstep
          apply Moves.respond ok c hcall
          simpa using hok
      · cases hstep
  | applyLate i =>
      simp only [step] at hstep
      split at hstep
      · rename_i cutoff hlate
        cases hstep
        exact .applyLate i cutoff (List.mem_of_getElem? hlate)
      · cases hstep

/-- Only markets that closed before the cutoff are deleted. -/
theorem closedBefore_point (cutoff : ℤ) (m : Market sv.formats) :
    closedBefore cutoff (point sv m) = decide (m.info.closeTimeMs < cutoff) := by
  simp [closedBefore, point, payloadField, Market.payload]

theorem mem_deletePoints {s : Collection V} {cutoff : ℤ} {m : Market sv.formats} :
    point sv m ∈ (s.deletePoints cutoff).discovery.points ↔
      point sv m ∈ s.discovery.points ∧ cutoff ≤ m.info.closeTimeMs := by
  simp [deletePoints, closedBefore_point]

@[simp] theorem deletePoints_now (s : Collection V) (cutoff : ℤ) :
    (s.deletePoints cutoff).now = s.now := rfl

@[simp] theorem deletePoints_nextTick (s : Collection V) (cutoff : ℤ) :
    (s.deletePoints cutoff).nextTick = s.nextTick := rfl

@[simp] theorem deletePoints_late (s : Collection V) (cutoff : ℤ) :
    (s.deletePoints cutoff).late = s.late := rfl

/-- A call that is given up joins the others unless Qdrant has applied it. -/
theorem mem_late_abandon {s : Collection V} {cutoff : ℤ} :
    cutoff ∈ s.abandon.late ↔
      cutoff ∈ s.late ∨ ∃ c, s.call = some c ∧ c.applied = false ∧ c.cutoff = cutoff := by
  simp [abandon, Option.filter_eq_some_iff, and_assoc]

/-- **The clocks.** The interval is at most a day ahead, and every request that Qdrant may
apply was made at least two days after its cutoff. -/
structure Clocked (s : Collection V) : Prop where
  tick : ∀ t, s.nextTick = some t → t ≤ s.now + cleanInterval
  call : ∀ c, s.call = some c → c.cutoff + retention ≤ s.now
  running : s.call.isSome → s.nextTick.isSome
  late : ∀ cutoff ∈ s.late, cutoff + retention ≤ s.now

theorem Clocked.abandon {s : Collection V} (hs : s.Clocked) : s.abandon.Clocked where
  tick := hs.tick
  call := by simp [Collection.abandon]
  running := by simp [Collection.abandon]
  late cutoff hcutoff := by
    rcases mem_late_abandon.mp hcutoff with h | ⟨c, hc, -, rfl⟩
    · exact hs.late cutoff h
    · exact hs.call c hc

theorem Clocked.step {s s' : Collection V} {a : CollectionAction sv} (hs : s.Clocked)
    (hstep : s.step sv a = some s') : s'.Clocked := by
  cases step_moves hstep with
  | elapse d =>
      -- time only moves away from the cutoffs
      have hlater : s.now ≤ s.now + d := by omega
      constructor
      · exact fun t ht => (hs.tick t ht).trans (by show s.now + _ ≤ s.now + d + _; omega)
      · exact fun c hc => (hs.call c hc).trans hlater
      · exact hs.running
      · exact fun cutoff hcutoff => (hs.late cutoff hcutoff).trans hlater
  | arrive a hnow => exact ⟨hs.tick, hs.call, hs.running, hs.late⟩
  | start =>
      refine { hs.abandon with tick := ?_, running := ?_ }
      · -- the interval starts now
        intro t ht
        cases ht
        exact le_rfl
      · exact fun _ => rfl
  | shutdown hcall =>
      refine { hs with tick := ?_, running := ?_ }
      · exact fun t ht => by cases ht
      · intro h
        rw [hcall] at h
        cases h
  | tick t htick hcall hdue =>
      refine { hs with tick := ?_, call := ?_, running := ?_ }
      · -- the next tick is a day after this one, which is due
        intro t' ht'
        cases ht'
        show t + cleanInterval ≤ s.now + cleanInterval
        omega
      · -- and the cutoff of the new call is two days back
        intro c hc
        cases hc
        show s.now - retention + retention ≤ s.now
        omega
      · exact fun _ => rfl
  | apply c hcall hopen =>
      refine ⟨hs.tick, ?_, ?_, hs.late⟩
      · intro c' hc'
        cases hc'
        exact hs.call c hcall
      · exact fun _ => hs.running (by rw [hcall]; rfl)
  | respond ok c hcall hok => exact hs.abandon
  | applyLate i cutoff hlate =>
      exact ⟨hs.tick, hs.call, hs.running, fun c hc => hs.late c (List.mem_of_mem_eraseIdx hc)⟩

end Collection

/-! ## §3 How long a point stays -/

/-- After an insertion a point is the new one, or an old one with another identifier. -/
theorem mem_upsert {points : List (PointStruct V)} {p q : PointStruct V} :
    p ∈ upsert points q ↔ p = q ∨ p ∈ points ∧ p.id ≠ q.id := by
  unfold upsert
  split
  · rename_i hany
    rw [List.mem_map]
    constructor
    · rintro ⟨r, hr, rfl⟩
      split
      · exact .inl rfl
      · rename_i hid
        exact .inr ⟨hr, hid⟩
    · rintro (rfl | ⟨hp, hid⟩)
      · -- the new point is where the old one was
        obtain ⟨r, hr, hrid⟩ := List.any_eq_true.mp hany
        exact ⟨r, hr, if_pos (of_decide_eq_true hrid)⟩
      · exact ⟨p, hp, if_neg hid⟩
  · rename_i hany
    have hfresh : p ∈ points → p.id ≠ q.id := fun hp hid =>
      hany (List.any_eq_true.mpr ⟨p, hp, decide_eq_true hid⟩)
    rw [List.mem_append, List.mem_singleton, or_comm, and_iff_left_of_imp hfresh]

theorem mem_upsert_iff {points : List (PointStruct V)} {p q : PointStruct V}
    (hid : p.id ≠ q.id) : p ∈ upsert points q ↔ p ∈ points := by
  have hne : p ≠ q := fun h => hid (congrArg PointStruct.id h)
  rw [mem_upsert, or_iff_right hne, and_iff_left hid]

theorem mem_foldl_upsert_iff {new : List (PointStruct V)} {p : PointStruct V}
    (hids : ∀ q ∈ new, p.id ≠ q.id) :
    ∀ {points}, p ∈ new.foldl upsert points ↔ p ∈ points := by
  induction new with
  | nil => exact Iff.rfl
  | cons q new ih =>
      intro points
      rw [List.foldl_cons, ih fun r hr => hids r (List.mem_cons_of_mem q hr),
        mem_upsert_iff (hids q List.mem_cons_self)]

/-- An arrival of other markets neither adds nor removes the point of a market. -/
theorem mem_ingest_iff {sv} {st : Discovery V} {a : Arrival sv} {m : Market sv.formats}
    (hids : ∀ n ∈ a.markets, m.info.uuid ≠ n.info.uuid) :
    point sv m ∈ (ingest sv st a).points ↔ point sv m ∈ st.points := by
  cases a with
  | live n now =>
      rw [ingest, searchAndInsert_eq]
      show point sv m ∈ ite _ _ _ ↔ _
      split
      · exact Iff.rfl
      · exact mem_upsert_iff (hids n (List.mem_singleton_self n))
  | batch platform ms now single =>
      rw [ingest, multipleSearchAndInsert_eq]
      apply mem_foldl_upsert_iff
      intro q hq
      obtain ⟨n, hn, rfl⟩ := List.mem_map.mp hq
      exact hids n hn

/-- A point after an insertion was there before, or has been inserted. -/
theorem mem_of_mem_upsert {points : List (PointStruct V)} {q r : PointStruct V}
    (hq : q ∈ upsert points r) : q ∈ points ∨ q = r :=
  (mem_upsert.mp hq).symm.imp_left And.left

theorem mem_of_mem_foldl_upsert {new : List (PointStruct V)} {q : PointStruct V} :
    ∀ {points}, q ∈ new.foldl upsert points → q ∈ points ∨ q ∈ new := by
  induction new with
  | nil => exact .inl
  | cons r new ih =>
      intro points hq
      rcases ih hq with hq | hq
      · refine (mem_of_mem_upsert hq).imp_right ?_
        rintro rfl
        exact List.mem_cons_self
      · exact .inr (List.mem_cons_of_mem r hq)

/-- A point after an arrival was there before, or is that of a market that has arrived. -/
theorem mem_of_mem_ingest {sv} {st : Discovery V} {a : Arrival sv} {q : PointStruct V}
    (hq : q ∈ (ingest sv st a).points) : q ∈ st.points ∨ ∃ m ∈ a.markets, q = point sv m := by
  cases a with
  | live m now =>
      rw [ingest, searchAndInsert_eq] at hq
      change q ∈ ite _ _ _ at hq
      split at hq
      · exact .inl hq
      · exact (mem_of_mem_upsert hq).imp_right fun h => ⟨m, List.mem_singleton_self m, h⟩
  | batch platform ms now single =>
      rw [ingest, multipleSearchAndInsert_eq] at hq
      refine (mem_of_mem_foldl_upsert hq).imp_right fun h => ?_
      obtain ⟨m, hm, rfl⟩ := List.mem_map.mp h
      exact ⟨m, hm, rfl⟩

/-- Both paths add the hits of the searches that they make before they store anything. -/
theorem emitted_ingest {sv : Services V} (st : Discovery V) (a : Arrival sv) :
    (ingest sv st a).emitted =
      st.emitted ++ a.markets.filterMap (hitOf sv st.points a.now) := by
  cases a with
  | live m now =>
      rw [ingest, searchAndInsert_eq]
      simp only [Arrival.markets, Arrival.now, List.filterMap_cons, List.filterMap_nil]
      cases hitOf sv st.points now m <;> rfl
  | batch p ms now single =>
      rw [ingest, multipleSearchAndInsert_eq]
      rfl

/-- An insertion takes the place of a point with its identifier. -/
theorem ids_upsert {points : List (PointStruct V)} (q : PointStruct V)
    (hids : (points.map (·.id)).Nodup) : ((upsert points q).map (·.id)).Nodup := by
  unfold upsert
  split
  · -- the point is replaced in its place
    have hsame : (points.map fun p => if p.id = q.id then q else p).map (·.id) =
        points.map (·.id) := by
      rw [List.map_map]
      apply List.map_congr_left
      intro p _
      rw [Function.comp_apply]
      split
      · rename_i hid
        exact hid.symm
      · rfl
    rwa [hsame]
  · rename_i hnone
    rw [List.map_append, List.nodup_append]
    refine ⟨hids, List.nodup_singleton _, ?_⟩
    intro i hi j hj hij
    obtain ⟨p, hp, rfl⟩ := List.mem_map.mp hi
    obtain rfl := List.mem_singleton.mp hj
    exact hnone (List.any_eq_true.mpr ⟨p, hp, decide_eq_true hij⟩)

theorem ids_foldl_upsert {new : List (PointStruct V)} :
    ∀ {points}, (points.map (·.id)).Nodup → ((new.foldl upsert points).map (·.id)).Nodup := by
  induction new with
  | nil => exact id
  | cons q new ih => exact fun hids => ih (ids_upsert q hids)

theorem ids_ingest {sv : Services V} {st : Discovery V} (a : Arrival sv)
    (hids : (st.points.map (·.id)).Nodup) : ((ingest sv st a).points.map (·.id)).Nodup := by
  cases a with
  -- a live market is stored only if its search found something
  | live m now =>
      rw [ingest, searchAndInsert_eq]
      show (List.map _ (ite _ _ _)).Nodup
      split
      · exact hids
      · exact ids_upsert _ hids
  | batch p ms now single =>
      rw [ingest, multipleSearchAndInsert_eq]
      exact ids_foldl_upsert hids

/-- What a collection holds: points of markets, at most one under an identifier. -/
structure Holds {sv : Services V} (ns : List (Market sv.formats))
    (points : List (PointStruct V)) : Prop where
  ids : (points.map (·.id)).Nodup
  source : ∀ p ∈ points, ∃ n ∈ ns, p = point sv n

theorem Holds.ingest {sv : Services V} {st : Discovery V} {ns : List (Market sv.formats)}
    (a : Arrival sv) (hst : Holds ns st.points) :
    Holds (ns ++ a.markets) (ingest sv st a).points := by
  refine ⟨ids_ingest a hst.ids, fun p hp => ?_⟩
  rcases mem_of_mem_ingest hp with hp | ⟨m, hm, rfl⟩
  · obtain ⟨n, hn, rfl⟩ := hst.source p hp
    exact ⟨n, List.mem_append_left _ hn, rfl⟩
  · exact ⟨m, List.mem_append_right _ hm, rfl⟩

/-- **The collection without deletions.** -/
theorem holds_ingestAll {sv : Services V} (as : List (Arrival sv)) :
    Holds (markets sv as) (ingestAll sv as).points := by
  induction as using List.reverseRecOn with
  | nil => exact ⟨List.nodup_nil, fun p hp => absurd hp List.not_mem_nil⟩
  | append_singleton as a ih =>
      have hmarkets : markets sv (as ++ [a]) = markets sv as ++ a.markets := by simp [markets]
      rw [hmarkets, ingestAll_concat]
      exact ih.ingest a

namespace Collection

variable {sv}

/-- The step brings no market with the identifier of `m`. -/
def Spares (m : Market sv.formats) : CollectionAction sv → Prop
  | .arrive a => ∀ n ∈ a.markets, m.info.uuid ≠ n.info.uuid
  | _ => True

/-- **Prompt cleaning.** The task runs, its interval fires within `δ` of its time, no deletion
fails, and the calls return within `δ`. -/
def Prompt (δ : ℕ) (s : Collection V) : CollectionAction sv → Prop
  | .elapse d =>
      (∀ c ∈ s.call, s.now + d ≤ c.cutoff + retention + δ) ∧
        (s.call = none → ∃ t ∈ s.nextTick, s.now + d ≤ t + δ)
  | .respond ok => ok = true
  | .start | .shutdown => False
  | _ => True

instance (δ : ℕ) (s : Collection V) : ∀ a : CollectionAction sv, Decidable (s.Prompt δ a)
  | .elapse d => inferInstanceAs (Decidable ((∀ c ∈ s.call, s.now + d ≤ c.cutoff + retention + δ) ∧
      (s.call = none → ∃ t ∈ s.nextTick, s.now + d ≤ t + δ)))
  | .respond ok => inferInstanceAs (Decidable (ok = true))
  | .start | .shutdown => .isFalse id
  | .arrive _ | .tick | .apply | .applyLate _ => .isTrue trivial

/-- The point of `m` is there until two days after its market has closed. -/
def Kept (m : Market sv.formats) (s : Collection V) : Prop :=
  s.Clocked ∧ (point sv m ∈ s.discovery.points ∨ m.info.closeTimeMs + retention < s.now)

theorem kept_of_deletePoints {m : Market sv.formats} {s : Collection V} {cutoff : ℤ}
    (hcutoff : cutoff + retention ≤ s.now)
    (hs : point sv m ∈ s.discovery.points ∨ m.info.closeTimeMs + retention < s.now) :
    point sv m ∈ (s.deletePoints cutoff).discovery.points ∨
      m.info.closeTimeMs + retention < s.now := by
  rcases hs with hs | hs
  · rw [mem_deletePoints]
    by_cases hclosed : cutoff ≤ m.info.closeTimeMs
    · exact .inl ⟨hs, hclosed⟩
    · exact .inr (by omega)
  · exact .inr hs

theorem Kept.step {m : Market sv.formats} {s s' : Collection V} {a : CollectionAction sv}
    (hs : s.Kept m) (ha : Spares m a) (hstep : s.step sv a = some s') : s'.Kept m := by
  obtain ⟨hclocked, hpoint⟩ := hs
  refine ⟨hclocked.step hstep, ?_⟩
  cases step_moves hstep with
  | elapse d =>
      refine hpoint.imp_right fun h => h.trans_le ?_
      show s.now ≤ s.now + d
      omega
  | arrive a hnow => exact hpoint.imp_left (mem_ingest_iff ha).mpr
  | start => exact hpoint
  | shutdown hcall => exact hpoint
  | tick t htick hcall hdue => exact hpoint
  | apply c hcall hopen => exact kept_of_deletePoints (hclocked.call c hcall) hpoint
  | respond ok c hcall hok => exact hpoint
  | applyLate i cutoff hlate => exact kept_of_deletePoints (hclocked.late cutoff hlate) hpoint

/-- Where prompt cleaning stands while a point is there that has to go within a day of `T`: it
waits for the interval, or for a request that came too early to delete the point, or for the
request that deletes it. -/
def Purging (δ : ℕ) (m : Market sv.formats) (T : ℤ) (s : Collection V) : Prop :=
  point sv m ∈ s.discovery.points → ∃ t, s.nextTick = some t ∧
    match s.call with
    | none => t ≤ T + cleanInterval ∧ s.now ≤ T + cleanInterval + δ
    | some c =>
        c.cutoff + retention ≤ T ∧ t ≤ T + cleanInterval ∧ s.now ≤ T + δ ∨
          c.applied = false ∧ m.info.closeTimeMs < c.cutoff ∧
            c.cutoff + retention ≤ T + cleanInterval + δ ∧ s.now ≤ T + cleanInterval + 2 * δ

variable {δ : ℕ} {m : Market sv.formats} {T : ℤ} {s s' : Collection V}

theorem Purging.now_le (hs : s.Purging δ m T) (hp : point sv m ∈ s.discovery.points) :
    s.now ≤ T + cleanInterval + 2 * δ := by
  obtain ⟨t, -, ht⟩ := hs hp
  cases hcall : s.call with
  | none =>
      simp only [hcall] at ht
      omega
  | some c =>
      have hday : (0 : ℤ) ≤ cleanInterval := by decide
      simp only [hcall] at ht
      omega

/-- Every running task is on its way to delete the points of closed markets. -/
theorem purging_of_clocked (hs : s.Clocked) (hrunning : s.nextTick.isSome) (hT : s.now ≤ T) :
    s.Purging δ m T := by
  intro _
  obtain ⟨t, ht⟩ := Option.isSome_iff_exists.mp hrunning
  have htick := hs.tick t ht
  refine ⟨t, ht, ?_⟩
  cases hcall : s.call with
  | none =>
      have hday : (0 : ℤ) ≤ cleanInterval := by decide
      dsimp only
      omega
  | some c =>
      have hcutoff := hs.call c hcall
      dsimp only
      omega

theorem Purging.step {a : CollectionAction sv} (hT : m.info.closeTimeMs + retention ≤ T)
    (hs : s.Purging δ m T) (ha : Spares m a) (hprompt : s.Prompt δ a)
    (hstep : s.step sv a = some s') : s'.Purging δ m T := by
  intro hp
  cases step_moves hstep with
  | elapse d =>
      obtain ⟨t, ht, hphase⟩ := hs hp
      obtain ⟨hcalls, hidle⟩ := hprompt
      refine ⟨t, ht, ?_⟩
      cases hcall : s.call with
      | none =>
          obtain ⟨t', ht', hsoon⟩ := hidle hcall
          obtain rfl : t = t' := Option.some.inj (ht.symm.trans ht')
          simp only [hcall] at hphase ⊢
          omega
      | some c =>
          have hsoon := hcalls c hcall
          simp only [hcall] at hphase ⊢
          rcases hphase with hphase | ⟨hopen, hclosed, hcutoff, -⟩
          -- a call that is on its way is answered within the delay
          · exact .inl (by omega)
          · exact .inr ⟨hopen, hclosed, hcutoff, by omega⟩
  | arrive a hnow => exact hs ((mem_ingest_iff ha).mp hp)
  -- a prompt run neither starts the task again nor stops it
  | start => exact hprompt.elim
  | shutdown hcall => exact hprompt.elim
  | tick t htick hcall hdue =>
      obtain ⟨t', ht', hphase⟩ := hs hp
      obtain rfl : t = t' := Option.some.inj (htick.symm.trans ht')
      refine ⟨t + cleanInterval, rfl, ?_⟩
      simp only [hcall] at hphase
      show s.now - retention + retention ≤ T ∧ t + cleanInterval ≤ T + cleanInterval ∧
        s.now ≤ T + δ ∨ false = false ∧ m.info.closeTimeMs < s.now - retention ∧
          s.now - retention + retention ≤ T + cleanInterval + δ ∧
            s.now ≤ T + cleanInterval + 2 * δ
      -- a request made after `T` deletes the point
      by_cases hearly : s.now ≤ T
      · exact .inl (by omega)
      · exact .inr ⟨rfl, by omega, by omega, by omega⟩
  | apply c hcall hopen =>
      -- the point is still there, so that the request came too early for it
      obtain ⟨hp, hclosed⟩ := mem_deletePoints.mp hp
      obtain ⟨t, ht, hphase⟩ := hs hp
      simp only [hcall] at hphase
      refine ⟨t, ht, .inl ?_⟩
      show c.cutoff + retention ≤ T ∧ t ≤ T + cleanInterval ∧ s.now ≤ T + δ
      omega
  | respond ok c hcall hok =>
      obtain ⟨t, ht, hphase⟩ := hs hp
      have happlied := hok hprompt
      have hday : (0 : ℤ) ≤ cleanInterval := by decide
      simp only [hcall, happlied] at hphase
      refine ⟨t, ht, ?_⟩
      show t ≤ T + cleanInterval ∧ s.now ≤ T + cleanInterval + δ
      rcases hphase with hphase | ⟨hopen, -⟩
      · omega
      · cases hopen
  | applyLate i cutoff hlate => exact hs (mem_deletePoints.mp hp).1

/-! ## §4 Retention -/

/-- The collection before anything happens. -/
def empty (now : ℤ) : Collection V where
  now := now

theorem clocked_empty (now : ℤ) : (empty now : Collection V).Clocked where
  tick _ h := by cases h
  call _ h := by cases h
  running h := by cases h
  late _ h := by cases h

theorem clocked_run {now : ℤ} {as : List (CollectionAction sv)}
    (hrun : run (step sv) (empty now) as = some s) : s.Clocked :=
  run_invariant (fun _ _ _ hs hstep => hs.step hstep) (clocked_empty now) hrun

/-- **Two days, and at most three.** However arrivals, deletions, failed calls and restarts
interleave, the point of a market is not deleted before the market has been closed for two
days, while the market does not arrive again.  With prompt cleaning it is deleted within a day
after that, or after its arrival if that is later. -/
theorem kept_and_purged {now : ℤ} {before as : List (CollectionAction sv)}
    (hbefore : run (step sv) (empty now) before = some s) (hp : point sv m ∈ s.discovery.points)
    (hrun : run (step sv) s as = some s')
    (hspares : ∀ a ∈ as, Spares m a) :
    (point sv m ∉ s'.discovery.points → m.info.closeTimeMs + retention < s'.now) ∧
      (s.nextTick.isSome → Along (step sv) (fun s a => s.Prompt δ a) s as →
        point sv m ∈ s'.discovery.points →
          s'.now ≤ max s.now (m.info.closeTimeMs + retention) + cleanInterval + 2 * δ) := by
  have hclocked := clocked_run hbefore
  have hsparesAlong : Along (step sv) (fun _ a => Spares m a) s as :=
    along_of_forall_mem (fun a ha _ => hspares a ha) s
  constructor
  · -- only a deletion with a later cutoff takes the point away
    intro hgone
    have hkept : s'.Kept m := run_invariant_along (P := fun _ a => Spares m a)
      (fun _ _ _ hs ha hstep => hs.step ha hstep) ⟨hclocked, .inl hp⟩ hsparesAlong hrun
    exact hkept.2.resolve_left hgone
  · -- the ticks and the calls keep up with the clock
    intro hrunning hprompt hp'
    have hboth : Along (step sv) (fun s a => Spares m a ∧ s.Prompt δ a) s as :=
      hsparesAlong.and hprompt
    have hpurging : s'.Purging δ m (max s.now (m.info.closeTimeMs + retention)) :=
      run_invariant_along (P := fun s a => Spares m a ∧ s.Prompt δ a)
        (fun _ _ _ hs ha hstep => hs.step (le_max_right _ _) ha.1 ha.2 hstep)
        (purging_of_clocked hclocked hrunning (le_max_left _ _))
        hboth hrun
    exact hpurging.now_le hp'

/-! ### A market and its last three days -/

theorem platform_kalshiFed : ∀ m ∈ [kalshiFed], m.platform = .kalshi :=
  List.forall_mem_singleton.mpr rfl

/-- A backfill that finds one market. -/
def fedBackfill (now : ℤ) : Arrival fedServices :=
  .batch .kalshi [kalshiFed] now platform_kalshiFed

/-- The process starts just less than a day before the market closes. -/
def fedBefore : List (CollectionAction fedServices) :=
  [.start, .arrive (fedBackfill 1795996800001)]

/-- One pass of the task that deletes nothing. -/
def idlePass : List (CollectionAction fedServices) :=
  [.elapse (24 * 60 * 60 * 1000), .tick, .apply, .respond true]

/-- The third pass is half a second under way. -/
def fedCleaning : List (CollectionAction fedServices) :=
  idlePass ++ idlePass ++ [.elapse (24 * 60 * 60 * 1000), .tick, .elapse 500]

theorem kept_and_purged_sample : ∃ s s₁ s₂,
    run (step fedServices) (empty 1795996800001) fedBefore = some s ∧
    run (step fedServices) s fedCleaning = some s₁ ∧
    run (step fedServices) s (fedCleaning ++ [.apply]) = some s₂ ∧
    s₁.now ≤ max s.now (kalshiFed.info.closeTimeMs + retention) + cleanInterval + 2 * (500 : ℕ) ∧
    kalshiFed.info.closeTimeMs + retention < s₂.now := by
  have hrun : (run (step fedServices) (empty 1795996800001) fedBefore).any (fun s =>
      decide (point fedServices kalshiFed ∈ s.discovery.points ∧ s.nextTick.isSome = true ∧
        Along (step fedServices) (fun s a => s.Prompt 500 a) s fedCleaning) &&
      (run (step fedServices) s fedCleaning).any (fun s₁ =>
        decide (point fedServices kalshiFed ∈ s₁.discovery.points)) &&
      (run (step fedServices) s (fedCleaning ++ [.apply])).any fun s₂ =>
        decide (point fedServices kalshiFed ∉ s₂.discovery.points)) = true := by decide +kernel
  obtain ⟨s, hs, hcheck⟩ := (Option.any_eq_true _ _).mp hrun
  simp only [Bool.and_eq_true, decide_eq_true_eq, Option.any_eq_true] at hcheck
  obtain ⟨⟨⟨hp, hrunning, hprompt⟩, s₁, hs₁, hp₁⟩, s₂, hs₂, hp₂⟩ := hcheck
  have hspares : ∀ a ∈ fedCleaning ++ [.apply], Spares kalshiFed a := by
    simp [fedCleaning, idlePass, Spares]
  have hspares₁ : ∀ a ∈ fedCleaning, Spares kalshiFed a :=
    fun a ha => hspares a (List.mem_append_left _ ha)
  exact ⟨s, s₁, s₂, hs, hs₁, hs₂, (kept_and_purged hs hp hs₁ hspares₁).2 hrunning hprompt hp₁,
    (kept_and_purged (δ := 0) hs hp hs₂ hspares).1 hp₂⟩

end Collection

/-! ## §5 Discovery in a store that is cleaned -/

section Cleaned

variable {sv}

/-- A part of a list passes the same tests if it has all elements that pass. -/
theorem filter_eq_of_sublist {α : Type} {part all : List α} {p : α → Bool}
    (hsub : part.Sublist all) (hnodup : all.Nodup) (hpart : ∀ x ∈ all, p x = true → x ∈ part) :
    part.filter p = all.filter p := by
  apply (hsub.filter p).eq_of_length_le
  apply List.Subperm.length_le
  apply List.subperm_of_subset (hnodup.filter p)
  intro x hx
  obtain ⟨hx, hp⟩ := List.mem_filter.mp hx
  exact List.mem_filter.mpr ⟨hpart x hx hp, hp⟩

/-- A part of a collection, beside all of it: what is missing is `gone`. -/
structure Thinned (gone : PointStruct V → Prop) (part all : List (PointStruct V)) : Prop where
  sublist : part.Sublist all
  missing : ∀ p ∈ all, p ∈ part ∨ gone p

section Thinned

variable {gone : PointStruct V → Prop} {part all : List (PointStruct V)}

/-- An insertion replaces a point of both, in its place, or adds one to both. -/
theorem Thinned.upsert {q : PointStruct V} (hs : Thinned gone part all)
    (hown : ∀ p ∈ all, p.id = q.id → p ∈ part) :
    Thinned gone (upsert part q) (upsert all q) := by
  have hany : part.any (·.id = q.id) = all.any (·.id = q.id) := by
    rw [Bool.eq_iff_iff, List.any_eq_true, List.any_eq_true]
    constructor
    · rintro ⟨p, hp, hid⟩
      exact ⟨p, hs.sublist.subset hp, hid⟩
    · rintro ⟨p, hp, hid⟩
      exact ⟨p, hown p hp (of_decide_eq_true hid), hid⟩
  constructor
  · rw [VectorStore.upsert, VectorStore.upsert, hany]
    split
    · exact hs.sublist.map _
    · exact hs.sublist.append (List.Sublist.refl _)
  · intro p hp
    simp only [mem_upsert] at hp ⊢
    rcases hp with rfl | ⟨hp, hid⟩
    · exact .inl (.inl rfl)
    · exact (hs.missing p hp).imp_left fun hp => .inr ⟨hp, hid⟩

/-- The points of a batch may share identifiers, among themselves and with those that are
there. -/
theorem Thinned.foldl_upsert {new : List (PointStruct V)} :
    ∀ {part all}, Thinned gone part all → (∀ q ∈ new, ∀ p ∈ all, p.id = q.id → p ∈ part) →
      Thinned gone (new.foldl VectorStore.upsert part) (new.foldl VectorStore.upsert all) := by
  induction new with
  | nil => exact fun hs _ => hs
  | cons q new ih =>
      intro part all hs hown
      refine ih (hs.upsert (hown q List.mem_cons_self)) fun r hr p hp hid => ?_
      rw [mem_upsert] at hp ⊢
      exact hp.imp_right fun ⟨hp, hne⟩ => ⟨hown r (List.mem_cons_of_mem q hr) p hp hid, hne⟩

/-- A deletion of points that are gone. -/
theorem Thinned.filter {keeps : PointStruct V → Bool} (hs : Thinned gone part all)
    (hgone : ∀ p, keeps p = false → gone p) : Thinned gone (part.filter keeps) all where
  sublist := List.filter_sublist.trans hs.sublist
  missing p hp := by
    rcases hs.missing p hp with hp | hp
    · cases hkeeps : keeps p with
      | true => exact .inl (List.mem_filter.mpr ⟨hp, hkeeps⟩)
      | false => exact .inr (hgone p hkeeps)
    · exact .inr hp

theorem Thinned.mono {gone' : PointStruct V → Prop} (hs : Thinned gone part all)
    (hgone : ∀ p, gone p → gone' p) : Thinned gone' part all where
  sublist := hs.sublist
  missing p hp := (hs.missing p hp).imp_right (hgone p)

/-- A search does not miss points that it would not have found. -/
theorem Thinned.search_eq {ns : List (Market sv.formats)} {m : Market sv.formats}
    (hs : Thinned gone part all) (hall : Holds ns all)
    (hopen : ∀ n, point sv n ∈ all → Counterpart sv m n → ¬gone (point sv n)) :
    search sv part m = search sv all m := by
  rw [search, search, queryPoints, queryPoints,
    filter_eq_of_sublist hs.sublist (List.Nodup.of_map _ hall.ids)]
  intro p hp hpasses
  obtain ⟨n, -, rfl⟩ := hall.source p hp
  exact (hs.missing _ hp).resolve_right (hopen n hp ((passes_iff sv m n).mp hpasses))

end Thinned

/-- An arrival whose searches find the same in a part of a collection, and whose markets that
are there already have not been deleted. -/
theorem Thinned.ingest {gone : PointStruct V → Prop} {part all : Discovery V} {a : Arrival sv}
    (hs : Thinned gone part.points all.points)
    (hsearch : ∀ m ∈ a.markets, search sv part.points m = search sv all.points m)
    (hown : ∀ m ∈ a.markets, ∀ p ∈ all.points, p.id = m.info.uuid → p ∈ part.points) :
    Thinned gone (ingest sv part a).points (ingest sv all a).points := by
  cases a with
  | live m now =>
      have hm := List.mem_singleton_self m
      rw [VectorStore.ingest, VectorStore.ingest, searchAndInsert_eq, searchAndInsert_eq,
        hsearch m hm]
      show Thinned gone (ite _ _ _) (ite _ _ _)
      split
      · exact hs
      · exact hs.upsert (hown m hm)
  | batch platform ms now single =>
      rw [VectorStore.ingest, VectorStore.ingest, multipleSearchAndInsert_eq,
        multipleSearchAndInsert_eq]
      apply hs.foldl_upsert
      intro q hq
      obtain ⟨m, hm, rfl⟩ := List.mem_map.mp hq
      exact hown m hm

/-- **Timely arrivals**, in a store that is never cleaned.  No market arrives more than two
days after the close of a stored counterpart, or of the version of itself that is stored. -/
def Timely (as : List (Arrival sv)) : Prop :=
  ∀ pre a post, as = pre ++ a :: post → ∀ m ∈ a.markets,
    ∀ n, point sv n ∈ (ingestAll sv pre).points →
      Counterpart sv m n ∨ n.info.uuid = m.info.uuid →
        a.now ≤ n.info.closeTimeMs + Collection.retention

theorem Timely.of_append {as bs : List (Arrival sv)} (h : Timely (as ++ bs)) : Timely as := by
  intro pre a post has
  apply h pre a (post ++ bs)
  rw [has, List.append_assoc, List.cons_append]

/-- A collection that has been cleaned beside one that has not: what is missing was closed for
two days. -/
structure Cleaned (as : List (Arrival sv)) (s : Collection V) : Prop where
  clocked : s.Clocked
  emitted : s.discovery.emitted = (ingestAll sv as).emitted
  thinned : Thinned (fun p => Collection.closedBefore (s.now - Collection.retention) p = true)
    s.discovery.points (ingestAll sv as).points

theorem closedBefore_mono {cutoff cutoff' : ℤ} (h : cutoff ≤ cutoff') {p : PointStruct V}
    (hp : Collection.closedBefore cutoff p = true) :
    Collection.closedBefore cutoff' p = true := by
  unfold Collection.closedBefore at hp ⊢
  split at hp
  · exact decide_eq_true ((of_decide_eq_true hp).trans_le h)
  · cases hp

theorem arrived_concat (as : List (CollectionAction sv)) (a : CollectionAction sv) :
    arrived (as ++ [a]) = arrived as ++ arrived [a] := List.filterMap_append

section Frame

variable {as : List (CollectionAction sv)} {s s' : Collection V} {a : CollectionAction sv}

/-- A step in which nothing arrives and nothing is deleted. -/
theorem Cleaned.frame (hs : Cleaned (arrived as) s) (ha : arrived [a] = []) (hs' : s'.Clocked)
    (hdiscovery : s'.discovery = s.discovery) (hnow : s.now ≤ s'.now) :
    Cleaned (arrived as ++ arrived [a]) s' := by
  rw [ha, List.append_nil]
  constructor
  · exact hs'
  · exact hdiscovery ▸ hs.emitted
  · rw [hdiscovery]
    exact hs.thinned.mono fun p => closedBefore_mono (by omega)

/-- A step that deletes points. -/
theorem Cleaned.deletePoints (hs : Cleaned (arrived as) s) (ha : arrived [a] = []) {cutoff : ℤ}
    (hcutoff : cutoff + Collection.retention ≤ s.now) (hs' : s'.Clocked)
    (hdiscovery : s'.discovery = (s.deletePoints cutoff).discovery) (hnow : s'.now = s.now) :
    Cleaned (arrived as ++ arrived [a]) s' := by
  rw [ha, List.append_nil]
  constructor
  · exact hs'
  · rw [hdiscovery]
    exact hs.emitted
  · rw [hdiscovery, hnow]
    apply hs.thinned.filter
    intro p hp
    have hclosed : Collection.closedBefore cutoff p = true := by simpa using hp
    exact closedBefore_mono (by omega) hclosed

end Frame

/-- An arrival. -/
theorem Cleaned.arrive {as : List (Arrival sv)} {s : Collection V} (hs : Cleaned as s)
    {a : Arrival sv} (hnow : a.now = s.now)
    (hclocked : ({ s with discovery := ingest sv s.discovery a } : Collection V).Clocked)
    (htimely : Timely (as ++ [a])) :
    Cleaned (as ++ [a]) { s with discovery := ingest sv s.discovery a } := by
  have hall := holds_ingestAll as
  -- a counterpart or an own version that has been deleted would have closed too long ago
  have hopen : ∀ m ∈ a.markets, ∀ n, point sv n ∈ (ingestAll sv as).points →
      Counterpart sv m n ∨ n.info.uuid = m.info.uuid →
        ¬Collection.closedBefore (s.now - Collection.retention) (point sv n) = true := by
    intro m hm n hn hrelated hclosed
    rw [Collection.closedBefore_point, decide_eq_true_eq] at hclosed
    have hclose := htimely as a [] rfl m hm n hn hrelated
    omega
  have hsearch : ∀ m ∈ a.markets,
      search sv s.discovery.points m = search sv (ingestAll sv as).points m :=
    fun m hm => hs.thinned.search_eq hall fun n hn hc => hopen m hm n hn (.inl hc)
  have hown : ∀ m ∈ a.markets, ∀ p ∈ (ingestAll sv as).points, p.id = m.info.uuid →
      p ∈ s.discovery.points := by
    intro m hm p hp hid
    obtain ⟨n, -, rfl⟩ := hall.source p hp
    exact (hs.thinned.missing _ hp).resolve_right (hopen m hm n hp (.inr hid))
  constructor
  · exact hclocked
  · show (ingest sv s.discovery a).emitted = _
    have hhit : a.markets.filterMap (hitOf sv s.discovery.points a.now) =
        a.markets.filterMap (hitOf sv (ingestAll sv as).points a.now) := by
      apply List.filterMap_congr
      intro m hm
      rw [hitOf, hitOf, hsearch m hm]
    rw [ingestAll_concat, emitted_ingest, emitted_ingest, hs.emitted, hhit]
  · rw [ingestAll_concat]
    exact hs.thinned.ingest hsearch hown

/-- **Nothing is hidden.** However the task that cleans the store interleaves with the
arrivals, of new markets and of known ones, as long as these are timely: the hits are those of
a store that is never cleaned, and the store still holds all of its points whose markets have
not been closed for more than two days. -/
theorem cleaning_hides_nothing {now : ℤ} {as : List (CollectionAction sv)} {s : Collection V}
    (hrun : run (Collection.step sv) (.empty now) as = some s)
    (htimely : Timely (arrived as)) :
    s.discovery.emitted = (ingestAll sv (arrived as)).emitted ∧
      ∀ m, s.now ≤ m.info.closeTimeMs + Collection.retention →
        (point sv m ∈ s.discovery.points ↔ point sv m ∈ (ingestAll sv (arrived as)).points) := by
  have hcleaned : Timely (arrived as) → Cleaned (arrived as) s := by
    refine run_invariant_prefix
      (I := fun as s => Timely (arrived as) → Cleaned (arrived as) s) ?_ ?_ hrun
    · intro _
      exact ⟨Collection.clocked_empty now, rfl, List.Sublist.refl _, fun _ h => by cases h⟩
    · intro as s a s' _ hs hstep htimely
      -- what has arrived up to here decides what may arrive
      rw [arrived_concat] at htimely ⊢
      have hs := hs htimely.of_append
      have hclocked := hs.clocked.step hstep
      cases Collection.step_moves hstep with
      | arrive a hnow => exact hs.arrive hnow hclocked htimely
      -- apart from the deletions nothing else touches the points
      | elapse d =>
          apply hs.frame rfl hclocked rfl
          show s.now ≤ s.now + d
          omega
      | start => exact hs.frame rfl hclocked rfl le_rfl
      | shutdown hcall => exact hs.frame rfl hclocked rfl le_rfl
      | tick t htick hcall hdue => exact hs.frame rfl hclocked rfl le_rfl
      | respond ok c hcall hok => exact hs.frame rfl hclocked rfl le_rfl
      | apply c hcall hopen =>
          exact hs.deletePoints rfl (hs.clocked.call c hcall) hclocked rfl rfl
      | applyLate i cutoff hlate =>
          exact hs.deletePoints rfl (hs.clocked.late cutoff hlate) hclocked rfl rfl
  have hs := hcleaned htimely
  -- a point that the cleaned store misses closed before the cutoff of a call
  refine ⟨hs.emitted, fun m hopen => ⟨fun hp => hs.thinned.sublist.subset hp, fun hp => ?_⟩⟩
  refine (hs.thinned.missing _ hp).resolve_right ?_
  rw [Collection.closedBefore_point, decide_eq_true_eq]
  omega

/-- The market arrives again after a pass of the task, as after a restart, and its counterpart
when it has closed. -/
def fedCounterpart : List (CollectionAction fedServices) :=
  Collection.fedBefore ++ Collection.idlePass ++ [
    .arrive (Collection.fedBackfill 1796083200001),
    .arrive (.live polymarketFed 1796083200001)]

theorem cleaning_hides_nothing_sample : ∃ s,
    run (Collection.step fedServices) (.empty 1795996800001) fedCounterpart = some s ∧
    s.discovery.emitted ≠ [] ∧
    s.discovery.emitted = (ingestAll fedServices (arrived fedCounterpart)).emitted := by
  have hrun : (run (Collection.step fedServices) (.empty 1795996800001) fedCounterpart).any
      (fun s => decide (s.discovery.emitted ≠ [])) = true := by decide +kernel
  obtain ⟨s, hs, hcheck⟩ := (Option.any_eq_true _ _).mp hrun
  have htimely : Timely (arrived fedCounterpart) := by
    intro pre a post has m hm n hn _
    have hclose : ∀ n ∈ markets fedServices (arrived fedCounterpart),
        n.info.closeTimeMs = 1796083200000 := by decide +kernel
    have hnow : ∀ a ∈ arrived fedCounterpart, a.now ≤ 1796083200001 := by decide +kernel
    -- what is stored has arrived
    obtain ⟨n', hn', hpoint⟩ := (holds_ingestAll pre).source _ hn
    have hinfo : n.info = n'.info :=
      Option.some.inj (congrArg (fun p => p.payload.marketInfo) hpoint)
    rw [hinfo, hclose n' (mem_markets_of_append has (.inl hn'))]
    apply (hnow a _).trans (by decide)
    rw [has]
    exact List.mem_append_right _ List.mem_cons_self
  exact ⟨s, hs, of_decide_eq_true hcheck, (cleaning_hides_nothing hs htimely).1⟩

end Cleaned

end Degenerate.VectorStore
