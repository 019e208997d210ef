import Degenerate.Web.Selections
import Degenerate.Web.SimilarityHits

/-!
# Submission of a Reviewed Hit

A submit request carries the selections of a reviewer as texts `uuid|anchor|match`.  The
handler parses them, builds the arbs, queues them for the bot and soft-deletes the hit
(`resolveHitSubmit`).  A selection that does not parse, or whose uuid the hit does not
have, is skipped, and nothing compares what is left with what was submitted.

## Main Results

- `resolveHitSubmit_step`: the handler is a step of the table of hits
- `review_kept_iff`: when a hit leaves the list only with all its selections
- `selection_lost`: a hit that leaves the list with an empty message
-/

namespace Degenerate.Web

open Degenerate.Lib

/-! ## §1 The handler -/

/-- Parse a selection, `uuid|anchor|match`.  The grammar and the range of `strconv.Atoi` are those
    of `parseI64`. -/
def parseSelection (raw : String) : Option LegMapping :=
  match (raw.toList.splitOn '|').map String.ofList with
  | [uuid, anchorLeg, matchLeg] =>
      match parseI64 anchorLeg, parseI64 matchLeg with
      | some anchorIdx, some matchIdx => some ⟨uuid, anchorIdx, matchIdx⟩
      | _, _ => none
  | _ => none

/-- What the `similarity_hit` column of a row holds. -/
inductive StoredHit where
  | empty
  | malformed (message : String)
  | hit (similarityHit : SimilarityHit)

/-- How the handler answers. -/
inductive SubmitResponse where
  | badRequest (message : String)
  | serverError (failure : Failure)
  /-- `http.StatusSeeOther`, to the list of hits -/
  | seeOther
  deriving DecidableEq

/-- What the database and the channel do during a request. -/
structure SubmitAnswers where
  column : SimilarityHitRow → StoredHit
  getError : Option String := none
  /-- There is room on `GrpcComms` within 50 ms. -/
  sent : Bool := true
  deleteError : Option String := none
  now : ℤ := 0

/-- The answer, the list queued on `GrpcComms`, and the table after the request. -/
structure Submitted where
  response : SubmitResponse
  queued : Option (List DiscoveredArb)
  hits : HitTable

/-- `GetSimilarityHitByCorrelationID`, and what its column unmarshals to. -/
def readHit (t : HitTable) (ans : SubmitAnswers) (correlationId : String) :
    Except Failure SimilarityHit :=
  match ans.getError, t.getSimilarityHit correlationId with
  | some message, _ => .error (.error message)
  | none, none => .error (.error "no rows in result set")
  | none, some row =>
      match ans.column row with
      | .empty => .error (.error "similarity_hit was empty")
      | .malformed message => .error (.error message)
      | .hit similarityHit => .ok similarityHit

/-- `resolveHitSubmit` up to its send: the arbs of the selections.  The form is `none` when it does
    not parse. -/
def selectedArbs (t : HitTable) (ans : SubmitAnswers) (correlationId : String)
    (form : Option (List String)) : Except SubmitResponse (List DiscoveredArb) :=
  if correlationId = "" then .error (.badRequest "missing url path paramter")
  else
    match form with
    | none => .error (.badRequest "failed to parse form")
    | some rawSelections =>
        if rawSelections.isEmpty then .error (.badRequest "No selections made")
        else
          -- what does not parse is logged and left out
          let mappings := rawSelections.filterMap parseSelection
          if mappings.isEmpty then .error (.badRequest "LegMapping was empty")
          else
            match readHit t ans correlationId with
            | .error failure => .error (.serverError failure)
            | .ok similarityHit =>
                match buildDiscoveredArbs similarityHit mappings with
                | .error failure => .error (.serverError failure)
                | .ok arbs => .ok arbs

/-- `resolveHitSubmit`. -/
def resolveHitSubmit (t : HitTable) (ans : SubmitAnswers) (correlationId : String)
    (form : Option (List String)) : Submitted :=
  match selectedArbs t ans correlationId form with
  | .error response => ⟨response, none, t⟩
  | .ok arbs =>
      if ans.sent then
        -- the message is out before the row is written
        match ans.deleteError with
        | none => ⟨.seeOther, some arbs, t.deleteSimilarityHits [correlationId] ans.now⟩
        | some message => ⟨.serverError (.error message), some arbs, t⟩
      else ⟨.serverError (.error "GrpcComms send timeout"), none, t⟩

/-! ## §2 What reaches the send -/

/-- The hit of a request is stored, and its column unmarshals. -/
def Stored (t : HitTable) (ans : SubmitAnswers) (correlationId : String) (hit : SimilarityHit) :
    Prop :=
  ans.getError = none ∧ ∃ row, t.getSimilarityHit correlationId = some row ∧
    ans.column row = .hit hit

/-- A request that is not refused before the send: it has an id, a selection that parses and a
    stored hit, and no selection of a known candidate has a bad leg. -/
structure Sendable (t : HitTable) (ans : SubmitAnswers) (correlationId : String)
    (form : Option (List String)) (rawSelections : List String) (hit : SimilarityHit) : Prop where
  id : correlationId ≠ ""
  form : form = some rawSelections
  parses : ∃ raw ∈ rawSelections, (parseSelection raw).isSome
  stored : Stored t ans correlationId hit
  legs : ∀ raw ∈ rawSelections, ∀ m, parseSelection raw = some m → ¬ Refused hit m

/-- The arb of a selection, if it parses and the candidate is known. -/
def selectedArb (hit : SimilarityHit) (raw : String) : Option DiscoveredArb :=
  (parseSelection raw).bind (picked hit)

theorem readHit_ok_iff {t : HitTable} {ans : SubmitAnswers} {correlationId : String}
    {hit : SimilarityHit} :
    readHit t ans correlationId = .ok hit ↔ Stored t ans correlationId hit := by
  unfold readHit Stored
  cases hget : ans.getError with
  | some message => simp
  | none =>
    cases hrow : t.getSimilarityHit correlationId with
    | none => simp
    | some row => cases hcol : ans.column row <;> simp [hcol]

/-- A request reads at most one hit. -/
theorem Stored.unique {t : HitTable} {ans : SubmitAnswers} {correlationId : String}
    {hit hit' : SimilarityHit} (h : Stored t ans correlationId hit)
    (h' : Stored t ans correlationId hit') : hit' = hit :=
  Except.ok.inj ((readHit_ok_iff.mpr h').symm.trans (readHit_ok_iff.mpr h))

/-- Some selection parses exactly when there are mappings. -/
theorem parses_iff {rawSelections : List String} :
    (∃ raw ∈ rawSelections, (parseSelection raw).isSome) ↔
      (rawSelections.filterMap parseSelection).isEmpty = false := by
  rw [Bool.eq_false_iff, Ne, List.isEmpty_iff, List.filterMap_eq_nil_iff]
  push Not
  exact exists_congr fun raw => and_congr_right fun _ => Option.isSome_iff_ne_none

/-- No mapping is refused exactly when no selection parses to a refused one. -/
theorem not_refused_iff {rawSelections : List String} {hit : SimilarityHit} :
    (∀ m ∈ rawSelections.filterMap parseSelection, ¬ Refused hit m) ↔
      ∀ raw ∈ rawSelections, ∀ m, parseSelection raw = some m → ¬ Refused hit m := by
  simp only [List.mem_filterMap]
  constructor
  · exact fun h raw hraw m hm => h m ⟨raw, hraw, hm⟩
  · rintro h m ⟨raw, hraw, hm⟩
    exact h raw hraw m hm

/-- The arbs of the mappings are those of the selections. -/
theorem filterMap_picked (hit : SimilarityHit) (rawSelections : List String) :
    (rawSelections.filterMap parseSelection).filterMap (picked hit) =
      rawSelections.filterMap (selectedArb hit) :=
  List.filterMap_filterMap

/-- **What is sent**: the arbs of the selections that parse and have a known candidate. -/
theorem selectedArbs_ok_iff {t : HitTable} {ans : SubmitAnswers} {correlationId : String}
    {form : Option (List String)} {arbs : List DiscoveredArb} :
    selectedArbs t ans correlationId form = .ok arbs ↔
      ∃ rawSelections hit, Sendable t ans correlationId form rawSelections hit ∧
        arbs = rawSelections.filterMap (selectedArb hit) := by
  constructor
  · -- each refusal of the handler is an error; what is left is the list
    intro h
    simp only [selectedArbs] at h
    split at h
    · cases h
    · rename_i hid
      split at h
      · cases h
      · rename_i raws
        split at h
        · cases h
        · split at h
          · cases h
          · rename_i hsome
            split at h
            · cases h
            · rename_i hit hread
              split at h
              · cases h
              · rename_i built hbuilt
                cases h
                obtain ⟨hnone, rfl⟩ := buildDiscoveredArbs_ok_iff.mp hbuilt
                refine ⟨raws, hit, ⟨hid, rfl, ?_, readHit_ok_iff.mp hread,
                  not_refused_iff.mp hnone⟩, filterMap_picked hit raws⟩
                -- some selection parses
                exact parses_iff.mpr (Bool.eq_false_iff.mpr hsome)
  · -- and with all of it in place nothing is refused
    rintro ⟨raws, hit, hs, rfl⟩
    have hmappings := parses_iff.mp hs.parses
    have hraws : raws.isEmpty = false := by
      obtain ⟨raw, hraw, -⟩ := hs.parses
      cases raws with
      | nil => cases hraw
      | cons => rfl
    have hbuilt := buildDiscoveredArbs_ok_iff.mpr ⟨not_refused_iff.mpr hs.legs, rfl⟩
    rw [filterMap_picked] at hbuilt
    simp only [selectedArbs, if_neg hs.id, hs.form, hraws, hmappings, Bool.false_eq_true, if_false,
      readHit_ok_iff.mpr hs.stored, hbuilt]

/-! ## §3 Keeping the review -/

/-- A stored hit is gone from the list after its soft-delete. -/
theorem deleteSimilarityHits_ne {t : HitTable} {cid : String} {now : ℤ} {row : SimilarityHitRow}
    (h : t.getSimilarityHit cid = some row) : t.deleteSimilarityHits [cid] now ≠ t := by
  intro heq
  have hrow := List.mem_of_find?_eq_some h
  have htest := List.find?_some h
  simp only [Bool.and_eq_true, decide_eq_true_eq, Bool.not_eq_true'] at htest
  -- every row of the id is deleted after it
  rw [← heq] at hrow
  obtain ⟨old, -, hold⟩ := List.mem_map.mp hrow
  split at hold
  · rw [← hold] at htest
    cases htest.2
  · rename_i hother
    rw [← hold] at htest
    exact hother (List.mem_singleton.mpr htest.1)

/-- **The review is kept**: the hit left the list, and there is a queued arb for every submitted
    selection, or nothing was queued and no row changed. -/
def ReviewKept (t : HitTable) (ans : SubmitAnswers) (correlationId : String)
    (form : Option (List String)) (r : Submitted) : Prop :=
  (∃ rawSelections hit arbs, form = some rawSelections ∧ Stored t ans correlationId hit ∧
    List.Forall₂ (fun raw arb => selectedArb hit raw = some arb) rawSelections arbs ∧
    r.queued = some arbs ∧ r.hits = t.deleteSimilarityHits [correlationId] ans.now) ∨
  (r.queued = none ∧ r.hits = t)

/-- The selection parses, and its uuid is that of a candidate. -/
def Resolvable (hit : SimilarityHit) (raw : String) : Prop :=
  ∃ m, parseSelection raw = some m ∧ (candidateOf hit m.matchUUID).isSome

/-- Related to anything, every element has an image. -/
theorem isSome_of_forall₂ {α β : Type*} {f : α → Option β} {xs : List α} {ys : List β}
    (h : List.Forall₂ (fun x y => f x = some y) xs ys) : ∀ x ∈ xs, (f x).isSome := by
  induction h with
  | nil => exact fun _ hx => absurd hx List.not_mem_nil
  | cons hxy _ ih => exact List.forall_mem_cons.mpr ⟨Option.isSome_of_mem hxy, ih⟩

/-- When every element has an image, none is left out. -/
theorem forall₂_filterMap {α β : Type*} {f : α → Option β} {xs : List α}
    (h : ∀ x ∈ xs, (f x).isSome) :
    List.Forall₂ (fun x y => f x = some y) xs (xs.filterMap f) := by
  induction xs with
  | nil => exact .nil
  | cons x xs ih =>
    obtain ⟨hx, hxs⟩ := List.forall_mem_cons.mp h
    obtain ⟨y, hy⟩ := Option.isSome_iff_exists.mp hx
    rw [List.filterMap_cons_some hy]
    exact .cons hy (ih hxs)

/-- What reaches the send becomes an arb exactly when its uuid is known. -/
theorem selectedArb_isSome_iff {hit : SimilarityHit} {raw : String}
    (hlegs : ∀ m, parseSelection raw = some m → ¬ Refused hit m) :
    (selectedArb hit raw).isSome ↔ Resolvable hit raw := by
  unfold selectedArb Resolvable
  cases hm : parseSelection raw with
  | none => simp
  | some m =>
    rw [Option.bind_some, picked]
    cases hfound : candidateOf hit m.matchUUID with
    | none => cases hit.anchor <;> simp [hfound]
    | some found =>
      -- a known uuid needs an anchor, or the mapping is refused
      cases hanchor : hit.anchor with
      | none =>
        refine absurd ⟨found, hfound, fun anchor h => ?_⟩ (hlegs m hm)
        cases hanchor.symm.trans h
      | some anchor => simp [hfound]

/-- A request that reaches the send, and finds room on the channel: the arbs are queued, and the
    hit is deleted if the statement succeeds. -/
theorem resolveHitSubmit_sent {t : HitTable} {ans : SubmitAnswers} {correlationId : String}
    {form : Option (List String)} {arbs : List DiscoveredArb}
    (hselected : selectedArbs t ans correlationId form = .ok arbs) (hsent : ans.sent = true) :
    (resolveHitSubmit t ans correlationId form).queued = some arbs ∧
      (resolveHitSubmit t ans correlationId form).hits =
        if ans.deleteError = none then t.deleteSimilarityHits [correlationId] ans.now else t := by
  simp only [resolveHitSubmit, hselected, if_pos hsent]
  cases ans.deleteError with
  | none => exact ⟨rfl, rfl⟩
  | some message => exact ⟨rfl, rfl⟩

/-- **Which submissions keep the review**: those that do not reach the send or find no room on the
    channel, and those of which every selection parses and has a known uuid, when the statement
    succeeds. -/
theorem review_kept_iff (t : HitTable) (ans : SubmitAnswers) (correlationId : String)
    (form : Option (List String)) :
    ReviewKept t ans correlationId form (resolveHitSubmit t ans correlationId form) ↔
      ∀ rawSelections hit, Sendable t ans correlationId form rawSelections hit →
        ans.sent = true →
          (∀ raw ∈ rawSelections, Resolvable hit raw) ∧ ans.deleteError = none := by
  cases hselected : selectedArbs t ans correlationId form with
  | error response =>
    -- nothing is sent
    refine iff_of_true (.inr ?_) fun rawSelections hit hs => ?_
    · simp only [resolveHitSubmit, hselected, and_self]
    · cases hselected.symm.trans (selectedArbs_ok_iff.mpr ⟨rawSelections, hit, hs, rfl⟩)
  | ok arbs =>
    obtain ⟨raws, hit, hs, rfl⟩ := selectedArbs_ok_iff.mp hselected
    have hresolvable : (∀ raw ∈ raws, (selectedArb hit raw).isSome) ↔
        ∀ raw ∈ raws, Resolvable hit raw :=
      forall₂_congr fun raw hraw => selectedArb_isSome_iff (hs.legs raw hraw)
    by_cases hsent : ans.sent = true
    · obtain ⟨hqueued, hhits⟩ := resolveHitSubmit_sent hselected hsent
      constructor
      · rintro (⟨raws', hit', arbs, hform, hstored, harbs, -, hdeleted⟩ | ⟨hnone, -⟩)
        · intro raws₁ hit₁ hs₁ _
          obtain rfl : raws₁ = raws := Option.some.inj (hs₁.form.symm.trans hs.form)
          obtain rfl : raws₁ = raws' := Option.some.inj (hs.form.symm.trans hform)
          obtain rfl : hit₁ = hit := hs.stored.unique hs₁.stored
          obtain rfl : hit₁ = hit' := hstored.unique hs.stored
          refine ⟨hresolvable.mp (isSome_of_forall₂ harbs), ?_⟩
          -- a failed statement leaves the row on the list
          by_contra hfailed
          obtain ⟨-, row, hrow, -⟩ := hs.stored
          rw [hhits, if_neg hfailed] at hdeleted
          exact deleteSimilarityHits_ne hrow hdeleted.symm
        · cases hqueued.symm.trans hnone
      · intro h
        obtain ⟨hall, hdelete⟩ := h raws hit hs hsent
        refine .inl ⟨raws, hit, _, hs.form, hs.stored, ?_, hqueued, ?_⟩
        · exact forall₂_filterMap (hresolvable.mpr hall)
        · rw [hhits, if_pos hdelete]
    · refine iff_of_true (.inr ?_) fun _ _ _ h => absurd h hsent
      simp only [resolveHitSubmit, hselected, if_neg hsent, and_self]

/-- **The handler is a step of the table**: the submit step of the hit, with the message queued or
    not. -/
theorem resolveHitSubmit_step (t : HitTable) (ans : SubmitAnswers) (correlationId : String)
    (form : Option (List String)) :
    t.step (.submitHit correlationId ans.now
      (resolveHitSubmit t ans correlationId form).queued.isSome ans.deleteError.isNone) =
        some (resolveHitSubmit t ans correlationId form).hits := by
  have hstay : t.deleteSimilarityHits [] ans.now = t := by
    simp [HitTable.deleteSimilarityHits]
  cases hselected : selectedArbs t ans correlationId form with
  | error response =>
    simp only [resolveHitSubmit, hselected, Option.isSome_none, HitTable.step, HitTable.deletes,
      hstay]
  | ok arbs =>
    -- what is sent comes from a row that is there
    obtain ⟨raws, hit, hs, -⟩ := selectedArbs_ok_iff.mp hselected
    obtain ⟨-, row, hrow, -⟩ := hs.stored
    simp only [resolveHitSubmit, hselected]
    by_cases hsent : ans.sent = true
    · rw [if_pos hsent]
      cases ans.deleteError with
      | none => simp [HitTable.step, HitTable.deletes, hrow]
      | some message => simp [HitTable.step, HitTable.deletes, hstay]
    · rw [if_neg hsent]
      simp [HitTable.step, HitTable.deletes, hstay]

/-- The table with the sample hit. -/
def hostTable : HitTable where
  rows := [⟨"h", 0, hostHit, .cross, false, none⟩]

/-- A database whose column unmarshals to what was stored. -/
def storedAnswers : SubmitAnswers where
  column row := .hit row.similarityHit

/-- **A selection is lost**: the only one names a uuid that the hit does not have; an empty list
    is queued, the hit leaves the table's list, and the reviewer is sent back to it. -/
theorem selection_lost :
    (resolveHitSubmit hostTable storedAnswers "h" (some ["gone|0|1"])).response = .seeOther ∧
      (resolveHitSubmit hostTable storedAnswers "h" (some ["gone|0|1"])).queued = some [] ∧
      (resolveHitSubmit hostTable storedAnswers "h" (some ["gone|0|1"])).hits.getRecentHits
        .cross 10 = [] ∧
      ¬ ReviewKept hostTable storedAnswers "h" (some ["gone|0|1"])
        (resolveHitSubmit hostTable storedAnswers "h" (some ["gone|0|1"])) := by
  have hqueued : (resolveHitSubmit hostTable storedAnswers "h" (some ["gone|0|1"])).queued =
      some [] := by decide +kernel
  refine ⟨by decide +kernel, hqueued, by decide +kernel, ?_⟩
  rintro (⟨raws, hit, arbs, hform, -, harbs, harbs', -⟩ | ⟨hnone, -⟩)
  · -- the list has no arb for the selection
    cases hform
    cases hqueued.symm.trans harbs'
    cases harbs
  · cases hqueued.symm.trans hnone

end Degenerate.Web
