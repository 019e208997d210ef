import Degenerate.Lib.TransitionSystem
import Degenerate.VectorStore

/-!
# The Table of Similarity Hits

The dashboard stores every hit under its correlation id, which is made from the anchor
alone.  A second hit for the same anchor is not stored, whatever it contains, and a row
that was deleted after review keeps its id occupied until the daily cleanup.

## Main Results

- `hits_reviewable_iff`: when every match of every hit can be reviewed
- `match_hidden`: a match that is never shown, and one that is shown once only
-/

namespace Degenerate.Web

open Degenerate.Lib Degenerate.VectorStore

/-! ## §1 The table and its queries -/

/-- `ArbType`. -/
inductive ArbType where
  | cross
  | intra
  deriving DecidableEq

/-- A row of `similarity_hits`. -/
structure SimilarityHitRow where
  correlationId : String
  foundAt : ℤ
  similarityHit : SimilarityHit
  arbType : ArbType
  isDeleted : Bool := false
  deletedAt : Option ℤ := none
  deriving DecidableEq

/-- The table, newest row first, and the expired hits that a page has still to delete. -/
structure HitTable where
  rows : List SimilarityHitRow := []
  pastHits : List String := []
  deriving DecidableEq

namespace HitTable

/-- `InsertNewSimilarityHit`: on a conflict of the correlation id, do nothing. -/
def insertNewSimilarityHit (t : HitTable) (row : SimilarityHitRow) : HitTable :=
  if t.rows.any (·.correlationId = row.correlationId) then t else { t with rows := row :: t.rows }

/-- `DeleteSimilarityHitsBulk`, and `DeleteSimilarityHit` for a single id. -/
def deleteSimilarityHits (t : HitTable) (correlationIds : List String) (now : ℤ) : HitTable :=
  { t with rows := t.rows.map fun row =>
      if row.correlationId ∈ correlationIds then
        { row with isDeleted := true, deletedAt := some now }
      else row }

/-- `GetSimilarityHitByCorrelationID`. -/
def getSimilarityHit (t : HitTable) (correlationId : String) : Option SimilarityHitRow :=
  t.rows.find? fun row => row.correlationId = correlationId && !row.isDeleted

/-- `GetRecentHits`. -/
def getRecentHits (t : HitTable) (arbType : ArbType) (limit : ℕ) : List SimilarityHitRow :=
  (t.rows.filter fun row => row.arbType = arbType && !row.isDeleted).take limit

/-- `HardDeleteOldSimilarityHits`. -/
def hardDeleteOldSimilarityHits (t : HitTable) (before : ℤ) : HitTable :=
  { t with rows := t.rows.filter fun row =>
      !(row.isDeleted && row.deletedAt.any (· < before)) }

/-- The anchor of a hit has closed. -/
def closed (hit : SimilarityHit) (now : ℤ) : Bool := hit.anchor.any (·.closeTimeMs < now)

end HitTable

/-! ## §2 The handlers -/

/-- A message of the bot, a request of the reviewer, or a step of a background task; a
    database error leaves the table as it is. -/
inductive HitAction where
  /-- `ProcessEbo` for a `CrossPlatformHit` -/
  | crossPlatformHit (ebo : CrossPlatformHit) (dbOk : Bool)
  /-- `softDeleteHit` -/
  | softDeleteHit (correlationId : String) (now : ℤ) (dbOk : Bool)
  /-- `bulkSoftDeleteHits` -/
  | bulkSoftDeleteHits (correlationIds : List String) (now : ℤ) (dbOk : Bool)
  /-- the submit handler: the hit becomes an arb, whose message is queued within 50 ms or not -/
  | submitHit (correlationId : String) (now : ℤ) (queued dbOk : Bool)
  /-- `similarityHitsPage` collects the expired hits -/
  | similarityHitsPage (now : ℤ)
  /-- its goroutine deletes one of them -/
  | deletePastHit (correlationId : String) (now : ℤ) (dbOk : Bool)
  /-- `CleanOldHitFromDbCron` -/
  | cleanOldHits (deleteFrom : ℤ)

namespace HitTable

/-- The ids that the step soft-deletes. -/
def deletes (t : HitTable) : HitAction → List String
  | .softDeleteHit cid _ true => [cid]
  | .bulkSoftDeleteHits cids _ true => cids
  | .submitHit cid _ true true => if (t.getSimilarityHit cid).isSome then [cid] else []
  | .deletePastHit cid _ true => [cid]
  | _ => []

/-- One step. -/
def step (t : HitTable) : HitAction → Option HitTable
  | .crossPlatformHit ebo dbOk =>
      some (if dbOk then
        t.insertNewSimilarityHit ⟨ebo.correlationId, ebo.actionAt, ebo.hit, .cross, false, none⟩
      else t)
  | .similarityHitsPage now =>
      let past := (t.getRecentHits .cross 5000).filter fun row => closed row.similarityHit now
      some { t with pastHits := t.pastHits ++ past.map (·.correlationId) }
  | .deletePastHit cid now dbOk =>
      if cid ∈ t.pastHits then
        let t' := { t with pastHits := t.pastHits.erase cid }
        some (if dbOk then t'.deleteSimilarityHits [cid] now else t')
      else none
  | .cleanOldHits deleteFrom => some (t.hardDeleteOldSimilarityHits deleteFrom)
  | .softDeleteHit cid now dbOk =>
      some (t.deleteSimilarityHits (t.deletes (.softDeleteHit cid now dbOk)) now)
  | .bulkSoftDeleteHits cids now dbOk =>
      some (t.deleteSimilarityHits (t.deletes (.bulkSoftDeleteHits cids now dbOk)) now)
  | .submitHit cid now queued dbOk =>
      some (t.deleteSimilarityHits (t.deletes (.submitHit cid now queued dbOk)) now)

end HitTable

/-! ## §3 What can be reviewed -/

/-- A candidate of a hit, by the identifiers of the anchor and of the match. -/
abbrev MatchRef := Option String × Option String

/-- The candidates of a hit. -/
def matchRefs (hit : SimilarityHit) : List MatchRef :=
  hit.matches.map fun m => (hit.anchor.map (·.uuid), m.marketInfo.map (·.uuid))

namespace HitTable

/-- The candidates that are listed in rows that are not deleted. -/
def reviewable (t : HitTable) : List MatchRef :=
  (t.rows.filter fun row => !row.isDeleted).flatMap fun row => matchRefs row.similarityHit

/-- The candidates in the rows that the step takes from the list. -/
def reviewed (t : HitTable) (a : HitAction) : List MatchRef :=
  (t.rows.filter fun row => !row.isDeleted && row.correlationId ∈ t.deletes a).flatMap fun row =>
    matchRefs row.similarityHit

/-- **Owed to the reviewer**: what has been received in a hit, and was not in a row that was
    soft-deleted since. -/
def owe (t : HitTable) (a : HitAction) (owed : List MatchRef) : List MatchRef :=
  match a with
  | .crossPlatformHit ebo _ => owed ++ matchRefs ebo.hit
  | a => owed.filter fun p => p ∉ t.reviewed a

/-- The step hides no candidate: a hit is stored, or brings nothing new. -/
def Shown (t : HitTable) : HitAction → Prop
  | .crossPlatformHit ebo dbOk =>
      (dbOk = true ∧ ∀ row ∈ t.rows, row.correlationId ≠ ebo.correlationId) ∨
        ∀ p ∈ matchRefs ebo.hit, p ∈ t.reviewable
  | _ => True

instance (t : HitTable) : (a : HitAction) → Decidable (t.Shown a)
  | .crossPlatformHit ebo dbOk => inferInstanceAs (Decidable
      ((dbOk = true ∧ ∀ row ∈ t.rows, row.correlationId ≠ ebo.correlationId) ∨
        ∀ p ∈ matchRefs ebo.hit, p ∈ t.reviewable))
  | .softDeleteHit .. | .bulkSoftDeleteHits .. | .submitHit .. | .similarityHitsPage _
  | .deletePastHit .. | .cleanOldHits _ => .isTrue trivial

theorem mem_reviewable {t : HitTable} {p : MatchRef} :
    p ∈ t.reviewable ↔
      ∃ row ∈ t.rows, row.isDeleted = false ∧ p ∈ matchRefs row.similarityHit := by
  simp [reviewable, and_assoc]

theorem mem_reviewed {t : HitTable} {a : HitAction} {p : MatchRef} :
    p ∈ t.reviewed a ↔ ∃ row ∈ t.rows, row.isDeleted = false ∧
      row.correlationId ∈ t.deletes a ∧ p ∈ matchRefs row.similarityHit := by
  simp [reviewed, and_assoc]

/-! ## §4 One step -/

/-- A new row is listed, in front of what was listed before. -/
theorem reviewable_insert {t : HitTable} {row : SimilarityHitRow} (hlive : row.isDeleted = false)
    (hnew : ∀ r ∈ t.rows, r.correlationId ≠ row.correlationId) {p : MatchRef} :
    p ∈ (t.insertNewSimilarityHit row).reviewable ↔
      p ∈ matchRefs row.similarityHit ∨ p ∈ t.reviewable := by
  have hfree : t.rows.any (·.correlationId = row.correlationId) = false := by
    simpa using hnew
  simp [insertNewSimilarityHit, hfree, mem_reviewable, hlive]

/-- A row whose id is taken is not stored. -/
theorem insert_of_conflict {t : HitTable} {row : SimilarityHitRow}
    (h : ¬ ∀ r ∈ t.rows, r.correlationId ≠ row.correlationId) :
    t.insertNewSimilarityHit row = t := by
  have htaken : t.rows.any (·.correlationId = row.correlationId) = true := by
    push Not at h
    simpa using h
  simp [insertNewSimilarityHit, htaken]

/-- An insertion takes nothing from the list. -/
theorem reviewable_subset_insert {t : HitTable} {row : SimilarityHitRow} {p : MatchRef}
    (h : p ∈ t.reviewable) : p ∈ (t.insertNewSimilarityHit row).reviewable := by
  unfold insertNewSimilarityHit
  split
  · exact h
  · rw [mem_reviewable] at h ⊢
    obtain ⟨r, hr, hp⟩ := h
    exact ⟨r, List.mem_cons_of_mem _ hr, hp⟩

/-- A soft-delete takes from the list what is in the rows that it deletes. -/
theorem reviewable_delete {t t' : HitTable} {cids : List String} {now : ℤ} {p : MatchRef}
    (hrows : t'.rows = (t.deleteSimilarityHits cids now).rows) (h : p ∈ t.reviewable)
    (hkeep : ∀ row ∈ t.rows, row.isDeleted = false → p ∈ matchRefs row.similarityHit →
      row.correlationId ∉ cids) : p ∈ t'.reviewable := by
  rw [mem_reviewable] at h ⊢
  obtain ⟨row, hrow, hlive, hp⟩ := h
  refine ⟨row, ?_, hlive, hp⟩
  rw [hrows]
  exact List.mem_map.mpr ⟨row, hrow, if_neg (hkeep row hrow hlive hp)⟩

/-- Everything owed stays reviewable through a step that hides nothing. -/
theorem reviewable_step {t t' : HitTable} {a : HitAction} {owed : List MatchRef}
    (ho : ∀ p ∈ owed, p ∈ t.reviewable) (hs : t.Shown a) (h : step t a = some t') :
    ∀ p ∈ t.owe a owed, p ∈ t'.reviewable := by
  -- a soft-delete: what is still owed was in none of its rows
  have hdelete : ∀ {t' : HitTable} {a : HitAction} {now : ℤ},
      t'.rows = (t.deleteSimilarityHits (t.deletes a) now).rows →
      ∀ p ∈ owed.filter fun p => p ∉ t.reviewed a, p ∈ t'.reviewable := by
    intro t' a now hrows p hp
    rw [List.mem_filter, decide_eq_true_eq] at hp
    refine reviewable_delete hrows (ho p hp.1) fun row hrow hlive hmem hcid => ?_
    exact hp.2 (mem_reviewed.mpr ⟨row, hrow, hlive, hcid, hmem⟩)
  have hsame : ∀ {t' : HitTable} {a : HitAction}, t'.rows = t.rows →
      ∀ p ∈ owed.filter fun p => p ∉ t.reviewed a, p ∈ t'.reviewable := by
    intro t' a hrows p hp
    rw [reviewable, hrows]
    exact ho p (List.mem_filter.mp hp).1
  cases a with
  | crossPlatformHit ebo dbOk =>
    cases h
    have hold : ∀ p ∈ t.reviewable, p ∈ (if dbOk then t.insertNewSimilarityHit
        ⟨ebo.correlationId, ebo.actionAt, ebo.hit, .cross, false, none⟩ else t).reviewable := by
      intro p hp
      split
      · exact reviewable_subset_insert hp
      · exact hp
    intro p hp
    rcases List.mem_append.mp hp with hp | hp
    · exact hold p (ho p hp)
    · rcases hs with ⟨hok, hfree⟩ | hlisted
      · rw [if_pos hok]
        exact (reviewable_insert rfl hfree).mpr (.inl hp)
      · exact hold p (hlisted p hp)
  | softDeleteHit => cases h; exact hdelete rfl
  | bulkSoftDeleteHits => cases h; exact hdelete rfl
  | submitHit => cases h; exact hdelete rfl
  | similarityHitsPage => cases h; exact hsame rfl
  | deletePastHit cid now dbOk =>
    simp only [step] at h
    split at h
    · cases h
      cases dbOk with
      | true => exact @hdelete _ (.deletePastHit cid now true) now rfl
      | false => exact hsame rfl
    · cases h
  | cleanOldHits before =>
    cases h
    intro p hp
    obtain ⟨row, hrow, hlive, hmem⟩ := mem_reviewable.mp (ho p (List.mem_filter.mp hp).1)
    -- the cleanup takes deleted rows only
    refine mem_reviewable.mpr ⟨row, List.mem_filter.mpr ⟨hrow, ?_⟩, hlive, hmem⟩
    rw [hlive]
    rfl

/-- A step after which everything owed is reviewable hides nothing. -/
theorem shown_of_reviewable {t t' : HitTable} {a : HitAction} {owed : List MatchRef}
    (h : step t a = some t') (ho : ∀ p ∈ t.owe a owed, p ∈ t'.reviewable) : t.Shown a := by
  cases a with
  | crossPlatformHit ebo dbOk =>
    cases h
    by_cases hstored : dbOk = true ∧ ∀ row ∈ t.rows, row.correlationId ≠ ebo.correlationId
    · exact .inl hstored
    · -- the hit was not stored, so its candidates were listed before
      refine .inr fun p hp => ?_
      have hp' := ho p (List.mem_append_right _ hp)
      split at hp'
      · rename_i hok
        rwa [insert_of_conflict fun hfree => hstored ⟨hok, hfree⟩] at hp'
      · exact hp'
  | _ => trivial

/-! ## §5 Runs -/

/-- The table with what is owed to the reviewer. -/
def tracked : HitTable × List MatchRef → HitAction → Option (HitTable × List MatchRef) :=
  withHistory owe step

/-- From a table on which everything owed is listed. -/
theorem reviewable_run_iff {as : List HitAction} {t : HitTable} {owed : List MatchRef}
    (ho : ∀ p ∈ owed, p ∈ t.reviewable) :
    (∀ bs cs s owed', as = bs ++ cs → run tracked (t, owed) bs = some (s, owed') →
      ∀ p ∈ owed', p ∈ s.reviewable) ↔ Along step Shown t as := by
  -- the first action decides whether what it adds is listed
  induction as generalizing t owed with
  | nil =>
    simp only [List.nil_eq_append_iff, along_nil, iff_true]
    rintro bs cs s owed' ⟨rfl, rfl⟩ hrun
    cases hrun
    exact ho
  | cons a as ih =>
    have hnext : ∀ {t'}, step t a = some t' → tracked (t, owed) a = some (t', t.owe a owed) :=
      fun h => withHistory_eq_some.mpr ⟨h, rfl⟩
    constructor
    · intro h
      refine ⟨?_, fun t' ht => ?_⟩
      · -- the run of the first action alone
        cases ht : step t a with
        | none => cases a <;> trivial
        | some t' =>
          refine shown_of_reviewable ht (h [a] as t' (t.owe a owed) rfl ?_)
          exact run_cons.mpr ⟨_, hnext ht, rfl⟩
      · -- and what is owed after it is listed, so that the rest can go on
        have ho' : ∀ p ∈ t.owe a owed, p ∈ t'.reviewable :=
          h [a] as t' _ rfl (run_cons.mpr ⟨_, hnext ht, rfl⟩)
        refine (ih ho').mp fun bs cs s owed' has hrun => ?_
        exact h (a :: bs) cs s owed' (congrArg _ has) (run_cons.mpr ⟨_, hnext ht, hrun⟩)
    · rintro ⟨hs, hrest⟩ bs cs s owed' has hrun
      cases bs with
      | nil =>
        cases hrun
        exact ho
      | cons b bs =>
        cases has
        obtain ⟨⟨t', owed₁⟩, ht, hrun⟩ := run_cons.mp hrun
        obtain ⟨ht, rfl⟩ := withHistory_eq_some.mp ht
        exact (ih (reviewable_step ho hs ht)).mpr (hrest t' ht) bs cs s owed' rfl hrun

/-- **No discovered match is hidden** exactly when every hit arrives while no row has its
    correlation id, and is stored, or while its candidates are all listed already.  Then what
    is owed to the reviewer is listed in every state. -/
theorem hits_reviewable_iff (as : List HitAction) :
    (∀ bs cs s owed, as = bs ++ cs → run tracked ({}, []) bs = some (s, owed) →
      ∀ p ∈ owed, p ∈ s.reviewable) ↔ Along step Shown {} as :=
  reviewable_run_iff fun _ h => absurd h List.not_mem_nil

end HitTable

/-! ### A market that is found again -/

/-- The services of the sample markets, with the identifiers of the hits for two of them. -/
def reviewServices : Services String where
  formats := { fedServices.formats with
    newV5 := fun s =>
      if s = "b8ae8b02-059d-55af-9039-301aa49f990b:fed-december" then
        "c23bfa0a-04ad-5227-b73f-dd5339d1137d"
      else "ed18478a-517a-53e2-9672-927c3dcb5937" }
  embed := id
  score := fedServices.score
  score_comm := fedServices.score_comm

/-- A sample market, under the services of the review. -/
def fedMarket (uuid marketId : String) (platform : Platform)
    (valid : QdrantPointData.validate reviewServices.formats (fedInfo uuid marketId platform) =
      .ok ()) : Market reviewServices.formats where
  info := fedInfo uuid marketId platform
  insertedAt := 1790000000000
  tag := .politics
  platform := platform
  valid := valid
  category_eq := rfl
  subcategory_eq := rfl
  platform_eq := rfl

theorem valid_kalshi : QdrantPointData.validate reviewServices.formats
    (fedInfo "d478be85-5596-5279-964d-eec4c7285075" "KXFED-26DEC" .kalshi) = .ok () := by
  decide +kernel

theorem valid_kalshi_cut : QdrantPointData.validate reviewServices.formats
    (fedInfo "52cbc1ca-b67e-5f08-88fb-5533f5965e3d" "KXRATECUT-26DEC" .kalshi) = .ok () := by
  decide +kernel

theorem valid_polymarket : QdrantPointData.validate reviewServices.formats
    (fedInfo "b8ae8b02-059d-55af-9039-301aa49f990b" "fed-december" .polymarket) = .ok () := by
  decide +kernel

def kalshiMarket : Market reviewServices.formats := fedMarket _ _ _ valid_kalshi

def kalshiCutMarket : Market reviewServices.formats := fedMarket _ _ _ valid_kalshi_cut

def polymarketMarket : Market reviewServices.formats := fedMarket _ _ _ valid_polymarket

/-- The batch of one market. -/
def batchOf (m : Market reviewServices.formats) (now : ℤ) : Arrival reviewServices :=
  .batch m.platform [m] now (List.forall_mem_singleton.mpr rfl)

/-- The Polymarket market arrives live and finds one market; a second one is listed on Kalshi;
    the backfill of a restart finds both. -/
def foundAgain : List (Arrival reviewServices) :=
  [batchOf kalshiMarket 0, .live polymarketMarket 1, batchOf kalshiCutMarket 2,
    batchOf polymarketMarket 3]

/-- Hits that are all stored without a database error. -/
def arrive (hits : List CrossPlatformHit) : List HitAction := hits.map (.crossPlatformHit · true)

/-- The candidate is owed in the state, and not listed. -/
def hides (p : MatchRef) (s : HitTable × List MatchRef) : Bool :=
  decide (p ∈ s.2) && !decide (p ∈ s.1.reviewable)

/-- Two equal scores keep their order. -/
theorem search_both : search reviewServices
    ([kalshiMarket, polymarketMarket, kalshiCutMarket].map (point reviewServices))
      polymarketMarket =
    [⟨.one, kalshiMarket.payload⟩, ⟨.one, kalshiCutMarket.payload⟩] := by
  -- two candidates pass the filter, both with the best score
  have hpass : [kalshiMarket, polymarketMarket, kalshiCutMarket].filter
      (Counterpart reviewServices polymarketMarket ·) = [kalshiMarket, kalshiCutMarket] := by
    have hfirst : Counterpart reviewServices polymarketMarket kalshiMarket := by decide +kernel
    have hself : ¬ Counterpart reviewServices polymarketMarket polymarketMarket := by
      decide +kernel
    have hsecond : Counterpart reviewServices polymarketMarket kalshiCutMarket := by
      decide +kernel
    simp [hfirst, hself, hsecond]
  rw [search, queryPoints, filter_points, hpass]
  have hsorted : ([⟨.one, kalshiMarket.payload⟩, ⟨.one, kalshiCutMarket.payload⟩] :
      List ScoredPoint).Pairwise fun a b => b.score.le a.score = true := by
    decide +kernel
  have hscored : ([kalshiMarket, kalshiCutMarket].map (point reviewServices)).map (fun p =>
      ({ score := reviewServices.score (reviewServices.embed polymarketMarket.questionVector)
            p.vectors, payload := p.payload } : ScoredPoint)) =
      [⟨.one, kalshiMarket.payload⟩, ⟨.one, kalshiCutMarket.payload⟩] := by
    decide +kernel
  rw [hscored, List.mergeSort_of_pairwise hsorted]
  rfl

/-- The hit of the restart, with both matches. -/
def hitAgain : CrossPlatformHit :=
  crossPlatformHit reviewServices polymarketMarket.payload polymarketMarket.info
    [⟨.one, kalshiMarket.payload⟩, ⟨.one, kalshiCutMarket.payload⟩] 3

/-- The hits of the sample arrivals: those of the first three, and the one of the restart. -/
theorem emitted_foundAgain : (ingestAll reviewServices foundAgain).emitted =
    (ingestAll reviewServices (foundAgain.take 3)).emitted ++ [hitAgain] := by
  have hpoints : (ingestAll reviewServices (foundAgain.take 3)).points =
      [kalshiMarket, polymarketMarket, kalshiCutMarket].map (point reviewServices) := by
    decide +kernel
  have hsplit : foundAgain = foundAgain.take 3 ++ [batchOf polymarketMarket 3] := rfl
  have hhit : hitOf reviewServices
      ([kalshiMarket, polymarketMarket, kalshiCutMarket].map (point reviewServices)) 3
      polymarketMarket = some hitAgain := by
    rw [hitOf, search_both]
    rfl
  conv_lhs => rw [hsplit, ingestAll_concat, batchOf, ingest, multipleSearchAndInsert_eq, hpoints]
  show _ ++ [polymarketMarket].filterMap _ = _
  rw [List.filterMap_cons, hhit]
  rfl

/-- **A match that is hidden**: the second market is never listed for its anchor, and after the
    row was deleted the first one is not listed either when it is found again. -/
theorem match_hidden :
    (∃ s owed, run HitTable.tracked ({}, [])
        (arrive (ingestAll reviewServices foundAgain).emitted) = some (s, owed) ∧
      (some polymarketMarket.info.uuid, some kalshiCutMarket.info.uuid) ∈ owed ∧
      (some polymarketMarket.info.uuid, some kalshiCutMarket.info.uuid) ∉ s.reviewable) ∧
    ∃ s owed, run HitTable.tracked ({}, [])
        (arrive ((ingestAll reviewServices foundAgain).emitted.take 1) ++
          .softDeleteHit "c23bfa0a-04ad-5227-b73f-dd5339d1137d" 2 true ::
          arrive ((ingestAll reviewServices foundAgain).emitted.drop 1)) = some (s, owed) ∧
      (some polymarketMarket.info.uuid, some kalshiMarket.info.uuid) ∈ owed ∧
      (some polymarketMarket.info.uuid, some kalshiMarket.info.uuid) ∉ s.reviewable := by
  have hend : ∀ (as : List HitAction) (p : MatchRef),
      (run HitTable.tracked ({}, []) as).any (hides p) = true →
      ∃ s owed, run HitTable.tracked ({}, []) as = some (s, owed) ∧ p ∈ owed ∧ p ∉ s.reviewable := by
    intro as p h
    obtain ⟨⟨s, owed⟩, hs, hcheck⟩ := (Option.any_eq_true _ _).mp h
    rw [hides, Bool.and_eq_true, decide_eq_true_eq, Bool.not_eq_true', decide_eq_false_iff_not]
      at hcheck
    exact ⟨s, owed, hs, hcheck⟩
  rw [emitted_foundAgain]
  exact ⟨hend _ _ (by decide +kernel), hend _ _ (by decide +kernel)⟩

end Degenerate.Web
