import Degenerate.Web.SimilarityHits

/-!
# The Daily Cleanup of Hits

A soft-deleted hit keeps its correlation id occupied until the cleanup removes its row.  The
server runs the cleanup when it starts and on every tick of a daily ticker (`app.go`), but the
time before which it deletes is computed once, by `main`, and every run gets the same one.  So
the runs after the first remove nothing that the first one left: a hit that is deleted while
the server runs, or in the two weeks before, stays until the next start.

## Main Results

- `cleanup_purges_iff`: the runs in which every cleanup leaves no overdue hit
- `stays_run`: what the cleanups of a run never remove
- `overdue_hit_blocks`: a hit that is overdue blocks the next one of its anchor
-/

namespace Degenerate.Web

open Degenerate.Lib Degenerate.VectorStore

/-! ## §1 The server -/

/-- 24 hours, in milliseconds. -/
def dayMs : ℤ := 24 * 60 * 60 * 1000

/-- The 14 days of `AddDate(0, 0, -14)`, for a server in UTC. -/
def twoWeeksMs : ℤ := 14 * dayMs

/-- The table, the clock, and the cleanup goroutine with its ticker. -/
structure HitServer where
  table : HitTable
  now : ℤ
  /-- The argument of `CleanOldHitFromDbCron`. -/
  deleteFrom : ℤ
  nextTick : ℤ
  /-- The run before the loop is over. -/
  started : Bool := false
  /-- `ticker.C`, which holds one tick; more are dropped. -/
  pending : Bool := false

/-- A step of the clock, of a handler, or of the cleanup. -/
inductive ServerAction where
  | elapse (ms : ℕ)
  | handle (a : HitAction)
  | cleanup (dbOk : Bool)

namespace HitServer

/-- `main` starts the cleanup on the table that it finds. -/
def main (table : HitTable) (start : ℤ) : HitServer where
  table := table
  now := start
  deleteFrom := start - twoWeeksMs
  nextTick := start + dayMs

/-- The request or message is handled at the given time. -/
def handledAt (now : ℤ) : HitAction → Bool
  | .crossPlatformHit _ _ => true
  | .softDeleteHit _ t _ => t = now
  | .bulkSoftDeleteHits _ t _ => t = now
  | .submitHit _ t _ _ => t = now
  | .similarityHitsPage t => t = now
  | .deletePastHit _ t _ => t = now
  -- no handler hard-deletes
  | .cleanOldHits _ => false

/-- One step. -/
def step (s : HitServer) : ServerAction → Option HitServer
  | .elapse ms =>
      let now := s.now + ms
      some (if s.nextTick ≤ now then
        { s with
          now := now
          nextTick := s.nextTick + ((now - s.nextTick) / dayMs + 1) * dayMs
          pending := true }
      else { s with now := now })
  | .handle a =>
      if handledAt s.now a then (s.table.step a).map fun table => { s with table := table }
      else none
  | .cleanup dbOk =>
      if !s.started || s.pending then
        let table := if dbOk then s.table.hardDeleteOldSimilarityHits s.deleteFrom else s.table
        some { s with
          table := table
          started := true
          pending := s.started.not && s.pending }
      else none

end HitServer

/-! ## §2 Rows through a step -/

/-- The hit was soft-deleted before a time. -/
def SimilarityHitRow.deletedBefore (row : SimilarityHitRow) (before : ℤ) : Bool :=
  row.isDeleted && row.deletedAt.any (· < before)

/-- **A handler** removes no row: each stays as it is, or is soft-deleted at the time. -/
theorem HitTable.mem_of_handled {t t' : HitTable} {a : HitAction} {now : ℤ}
    (hat : HitServer.handledAt now a = true) (h : t.step a = some t') {row : SimilarityHitRow}
    (hrow : row ∈ t.rows) :
    ∃ row' ∈ t'.rows, row'.correlationId = row.correlationId ∧
      (row' = row ∨ row'.deletedAt = some now) := by
  -- a soft-delete keeps every row, with the time on those it names
  have hdelete : ∀ cids, ∃ row' ∈ (t.deleteSimilarityHits cids now).rows,
      row'.correlationId = row.correlationId ∧ (row' = row ∨ row'.deletedAt = some now) := by
    intro cids
    refine ⟨_, List.mem_map_of_mem hrow, ?_⟩
    split
    · exact ⟨rfl, .inr rfl⟩
    · exact ⟨rfl, .inl rfl⟩
  have hsame : row ∈ t'.rows → ∃ row' ∈ t'.rows,
      row'.correlationId = row.correlationId ∧ (row' = row ∨ row'.deletedAt = some now) :=
    fun hrow' => ⟨row, hrow', rfl, .inl rfl⟩
  cases a with
  -- an insertion adds a row, or finds the id taken
  | crossPlatformHit ebo dbOk =>
    cases h
    apply hsame
    split
    · unfold insertNewSimilarityHit
      split
      · exact hrow
      · exact List.mem_cons_of_mem _ hrow
    · exact hrow
  | softDeleteHit cid t dbOk =>
    obtain rfl := of_decide_eq_true hat
    cases h
    apply hdelete
  | bulkSoftDeleteHits cids t dbOk =>
    obtain rfl := of_decide_eq_true hat
    cases h
    apply hdelete
  | submitHit cid t queued dbOk =>
    obtain rfl := of_decide_eq_true hat
    cases h
    apply hdelete
  -- the page leaves the rows
  | similarityHitsPage t =>
    cases h
    exact hsame hrow
  | deletePastHit cid t dbOk =>
    obtain rfl := of_decide_eq_true hat
    simp only [HitTable.step] at h
    split at h
    · cases h
      -- a delete that fails leaves the rows
      cases dbOk with
      | true => exact hdelete [cid]
      | false => exact hsame hrow
    · cases h
  | cleanOldHits before => cases hat

namespace HitServer

/-- The cleanup of the server is that of the table. -/
theorem step_cleanup {s s' : HitServer} {dbOk : Bool} (h : s.step (.cleanup dbOk) = some s') :
    s'.table.rows = s.table.rows.filter (fun row => !(dbOk && row.deletedBefore s.deleteFrom)) ∧
      s'.now = s.now ∧ s'.deleteFrom = s.deleteFrom := by
  simp only [step] at h
  split at h
  · cases h
    refine ⟨?_, rfl, rfl⟩
    cases dbOk with
    | true => rfl
    | false => exact (List.filter_eq_self.mpr fun _ _ => rfl).symm
  · cases h

/-- The argument of the cleanup never changes, and the clock does not run backwards. -/
theorem step_frame {s s' : HitServer} {a : ServerAction} (h : s.step a = some s') :
    s'.deleteFrom = s.deleteFrom ∧ s.now ≤ s'.now := by
  cases a with
  | elapse ms =>
    simp only [step] at h
    split at h
    · cases h
      exact ⟨rfl, by simp⟩
    · cases h
      exact ⟨rfl, by simp⟩
  | handle a =>
    simp only [step] at h
    split at h
    · obtain ⟨table, -, rfl⟩ := Option.map_eq_some_iff.mp h
      exact ⟨rfl, le_refl _⟩
    · cases h
  | cleanup dbOk =>
    obtain ⟨-, hnow, hfrom⟩ := step_cleanup h
    exact ⟨hfrom, hnow.ge⟩

/-- **A step of the server** keeps every row that was not deleted before the one time that all
cleanups get. -/
theorem stays_step {s s' : HitServer} {a : ServerAction} (h : s.step a = some s')
    (hnow : s.deleteFrom ≤ s.now) {row : SimilarityHitRow} (hrow : row ∈ s.table.rows)
    (hkept : row.deletedBefore s.deleteFrom = false) :
    ∃ row' ∈ s'.table.rows, row'.correlationId = row.correlationId ∧
      row'.deletedBefore s'.deleteFrom = false := by
  cases a with
  | elapse ms =>
    simp only [step] at h
    split at h
    · cases h
      exact ⟨row, hrow, rfl, hkept⟩
    · cases h
      exact ⟨row, hrow, rfl, hkept⟩
  | handle a =>
    simp only [step] at h
    split at h
    · rename_i hat
      obtain ⟨table, htable, rfl⟩ := Option.map_eq_some_iff.mp h
      obtain ⟨row', hrow', hcid, rfl | hdeleted⟩ := HitTable.mem_of_handled hat htable hrow
      · exact ⟨row', hrow', hcid, hkept⟩
      · refine ⟨row', hrow', hcid, ?_⟩
        -- the row is deleted now, and the cleanups delete what was deleted before the start
        simp [SimilarityHitRow.deletedBefore, hdeleted, hnow]
    · cases h
  | cleanup dbOk =>
    obtain ⟨hrows, -, hfrom⟩ := step_cleanup h
    refine ⟨row, ?_, rfl, by rw [hfrom]; exact hkept⟩
    rw [hrows]
    refine List.mem_filter.mpr ⟨hrow, ?_⟩
    rw [hkept, Bool.and_false]
    rfl

/-! ## §3 Runs -/

/-- A cleanup leaves no hit that was soft-deleted more than two weeks ago. -/
def Purges (s : HitServer) (a : ServerAction) : Prop :=
  a = .cleanup true → ∀ s', s.step a = some s' →
    ∀ row ∈ s'.table.rows, row.deletedBefore (s.now - twoWeeksMs) = false

/-- Every hit that is overdue at a cleanup was overdue when the server started. -/
def OverdueAtStart (start : ℤ) (s : HitServer) (a : ServerAction) : Prop :=
  a = .cleanup true → (s.step a).isSome → ∀ row ∈ s.table.rows,
    row.deletedBefore (s.now - twoWeeksMs) = true → row.deletedBefore (start - twoWeeksMs) = true

/-- The step removes no hit that is not soft-deleted. -/
def KeepsLive (s : HitServer) (a : ServerAction) : Prop :=
  ∀ s', s.step a = some s' → ∀ row ∈ s.table.rows, row.isDeleted = false →
    ∃ row' ∈ s'.table.rows, row'.correlationId = row.correlationId

/-- One cleanup. -/
theorem purges_iff {start : ℤ} {s : HitServer} (hfrom : s.deleteFrom = start - twoWeeksMs)
    (a : ServerAction) : s.Purges a ↔ OverdueAtStart start s a := by
  unfold Purges OverdueAtStart
  apply imp_congr_right
  rintro rfl
  cases h : s.step (.cleanup true) with
  | none => simp
  | some s' =>
    obtain ⟨hrows, -⟩ := step_cleanup h
    simp only [Option.some.injEq, forall_eq', hrows, List.mem_filter, hfrom, Option.isSome_some,
      forall_const, and_imp]
    refine forall₂_congr fun row _ => ?_
    cases row.deletedBefore (s.now - twoWeeksMs) with
    | false => simp
    | true => simp

/-- The clock has passed the time before which the cleanups delete. -/
structure Started (start : ℤ) (s : HitServer) : Prop where
  deleteFrom : s.deleteFrom = start - twoWeeksMs
  now : s.deleteFrom ≤ s.now

theorem started_main (table : HitTable) (start : ℤ) : Started start (main table start) where
  deleteFrom := rfl
  now := by
    show start - twoWeeksMs ≤ start
    unfold twoWeeksMs dayMs
    omega

theorem Started.step {start : ℤ} {s s' : HitServer} {a : ServerAction} (hs : Started start s)
    (h : s.step a = some s') : Started start s' := by
  obtain ⟨hfrom, hnow⟩ := step_frame h
  exact ⟨hfrom.trans hs.deleteFrom, hfrom ▸ hs.now.trans hnow⟩

/-- **The daily cleanup.** In a run of any length, every cleanup leaves no hit that was
soft-deleted more than two weeks ago if and only if no hit becomes overdue after the start of
the server.  Hits that are not soft-deleted are never removed. -/
theorem cleanup_purges_iff (table : HitTable) (start : ℤ) (as : List ServerAction) :
    (Along step Purges (main table start) as ↔
      Along step (OverdueAtStart start) (main table start) as) ∧
    Along step KeepsLive (main table start) as := by
  constructor
  · exact along_congr (I := Started start) (fun s a s' hs _ h => hs.step h)
      (fun s a hs => purges_iff hs.deleteFrom a) (started_main table start)
  · refine along_of_invariant (P := fun _ _ => True) (I := Started start)
      (fun s a s' hs _ h => hs.step h) (fun s a hs _ s' h row hrow hlive => ?_)
      (started_main table start) (along_of_forall (fun _ _ => trivial) _ _)
    have hkept : row.deletedBefore s.deleteFrom = false := by
      simp [SimilarityHitRow.deletedBefore, hlive]
    obtain ⟨row', hrow', hcid, -⟩ := stays_step h hs.now hrow hkept
    exact ⟨row', hrow', hcid⟩

/-- **What the cleanups never remove.** A hit that was not soft-deleted two weeks before the
start stays until the server stops, whatever happens to it. -/
theorem stays_run {table : HitTable} {start : ℤ} {as bs : List ServerAction} {s s' : HitServer}
    (hs : run step (main table start) as = some s) (hs' : run step s bs = some s')
    {row : SimilarityHitRow} (hrow : row ∈ s.table.rows)
    (hkept : row.deletedBefore (start - twoWeeksMs) = false) :
    ∃ row' ∈ s'.table.rows, row'.correlationId = row.correlationId := by
  have hstarted : Started start s :=
    run_invariant (fun s a s' hs h => Started.step hs h) (started_main table start) hs
  let I := fun t : HitServer => Started start t ∧ ∃ row' ∈ t.table.rows,
    row'.correlationId = row.correlationId ∧ row'.deletedBefore t.deleteFrom = false
  have hI : I s' := by
    refine run_invariant (I := I) ?_ ⟨hstarted, row, hrow, rfl, hstarted.deleteFrom ▸ hkept⟩ hs'
    rintro t a t' ⟨ht, row', hrow', hcid, hkept'⟩ h
    obtain ⟨row'', hrow'', hcid', hkept''⟩ := stays_step h ht.now hrow' hkept'
    exact ⟨ht.step h, row'', hrow'', hcid'.trans hcid, hkept''⟩
  obtain ⟨-, row', hrow', hcid, -⟩ := hI
  exact ⟨row', hrow', hcid⟩

/-! ### A hit that is overdue -/

/-- A hit that a reviewer deletes on the day of the start. -/
def deletedHit : CrossPlatformHit where
  correlationId := "c23bfa0a-04ad-5227-b73f-dd5339d1137d"
  actionAt := 0
  hit := {
    anchor := some (fedInfo "b8ae8b02-059d-55af-9039-301aa49f990b" "fed-december" .polymarket)
    «matches» := [{ scored := .one, marketInfo := some kalshiFed.info }] }

/-- The server runs for fifteen days after the hit was deleted. -/
def fifteenDays : List ServerAction := [
  .cleanup true,
  .handle (.crossPlatformHit deletedHit true),
  .handle (.softDeleteHit deletedHit.correlationId 0 true),
  .elapse 1296000000]

/-- **An overdue hit blocks its anchor.** The next cleanup leaves the hit in the table, and when
the anchor is found again its hit is not listed. -/
theorem overdue_hit_blocks :
    ((run step (main {} 0) (fifteenDays ++ [.cleanup true])).any fun s =>
      s.table.rows.any (·.deletedBefore (s.now - twoWeeksMs))) = true ∧
    ¬Along step Purges (main {} 0) (fifteenDays ++ [.cleanup true]) ∧
    (run step (main {} 0) (fifteenDays ++
      [.cleanup true, .handle (.crossPlatformHit deletedHit true)])).map (·.table.reviewable) =
        some [] := by
  have hoverdue : ((run step (main {} 0) (fifteenDays ++ [.cleanup true])).any fun s =>
      s.table.rows.any (·.deletedBefore (s.now - twoWeeksMs))) = true := by decide +kernel
  refine ⟨hoverdue, fun halong => ?_, by decide +kernel⟩
  obtain ⟨s', hrun, hrow⟩ := (Option.any_eq_true _ _).mp hoverdue
  obtain ⟨row, hmem, hbefore⟩ := List.any_eq_true.mp hrow
  obtain ⟨s, hs, hlast⟩ := run_append.mp hrun
  obtain ⟨t, hstep, hnil⟩ := run_cons.mp hlast
  obtain rfl : t = s' := Option.some.inj hnil
  have hpurged := along_of_split halong hs rfl t hstep row hmem
  rw [← (step_cleanup hstep).2.1, hbefore] at hpurged
  cases hpurged

end HitServer

end Degenerate.Web
