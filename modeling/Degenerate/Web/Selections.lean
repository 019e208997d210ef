import Degenerate.Web.OutcomeLabels

/-!
# Selections of a Reviewer

`buildDiscoveredArbs` turns the legs that a reviewer picked into arbs (`server/utils.go`).
For each mapping it looks for the first candidate of the hit with the uuid, passes the
mapping over if there is none, and gives up the whole list if one of the two legs has no
outcome.

The candidates of a hit are pointers in the source.  A nil entry is treated like one
without market info, and `SimilarityHit.ofPointers` reads it as such.

## Main Results

- `buildDiscoveredArbs_ok_iff`: which lists are built, and what they hold
- `selections_built_faithfully`: the same for a hit with an anchor, by the pointers
-/

namespace Degenerate.Web

open Degenerate.Lib

/-! ## §1 One mapping -/

/-- The first candidate with the uuid, and its market. -/
def candidateOf (hit : SimilarityHit) (uuid : String) : Option (MatchCandidate × MarketInfo) :=
  hit.matches.findSome? fun c => (c.marketInfo.filter (·.uuid = uuid)).map fun info => (c, info)

/-- The index is not one of the two legs, it is beyond the outcomes of the market, or the text of
    the outcome there is a question mark. -/
def BadLeg (info : MarketInfo) (idx : ℤ) : Prop :=
  (idx ≠ 0 ∧ idx ≠ 1) ∨ ((parseOutcomes info.outcome).length : ℤ) ≤ idx ∨
    ∃ s, (parseOutcomes info.outcome)[idx.toNat]? = some s ∧
      String.ofList (shownText s.toList) = "?"

/-- The side of an arb at an index of a market. -/
def pickedSide (info : MarketInfo) (idx : ℤ) : Discovery :=
  { marketInfo := some info, leg := idx, legStr := outcomeLabel info idx }

/-- The arb of a mapping: both sides at the mapped index, and the score of the candidate. -/
def pickedArb (anchor : MarketInfo) (found : MatchCandidate × MarketInfo) (mapping : LegMapping) :
    DiscoveredArb where
  anchor := some (pickedSide anchor mapping.anchorLeg)
  «match» := some (pickedSide found.2 mapping.matchLeg)
  scored := found.1.scored

/-- A mapping with a known uuid that cannot become an arb. -/
def Refused (hit : SimilarityHit) (mapping : LegMapping) : Prop :=
  ∃ found, candidateOf hit mapping.matchUUID = some found ∧
    ∀ anchor, hit.anchor = some anchor →
      BadLeg anchor mapping.anchorLeg ∨ BadLeg found.2 mapping.matchLeg

/-- The arb that a mapping becomes, if its uuid is known. -/
def picked (hit : SimilarityHit) (mapping : LegMapping) : Option DiscoveredArb :=
  hit.anchor.bind fun anchor =>
    (candidateOf hit mapping.matchUUID).map fun found => pickedArb anchor found mapping

/-- The two tests of an index, on the label and on the leg, fail on the same indices as one. -/
theorem badLeg_iff {info : MarketInfo} {idx : ℤ} :
    BadLeg info idx ↔ outcomeLabel info idx = "?" ∨ (idx ≠ 0 ∧ idx ≠ 1) := by
  by_cases hout : idx ≠ 0 ∧ idx ≠ 1
  · exact iff_of_true (.inl hout) (.inr hout)
  · -- one of the two legs, so the label is the shown text of a piece or a question mark
    have hnonneg : 0 ≤ idx := by omega
    rw [BadLeg, or_iff_right hout, or_iff_left hout, outcomeLabel, getOutcomeByIndex,
      if_pos hnonneg]
    cases hs : (parseOutcomes info.outcome)[idx.toNat]? with
    | none =>
      have hlen := List.getElem?_eq_none_iff.mp hs
      exact iff_of_true (.inl (by omega)) rfl
    | some s =>
      obtain ⟨hlt, -⟩ := List.getElem?_eq_some_iff.mp hs
      constructor
      · rintro (hle | ⟨s', hs', htext⟩)
        · omega
        · cases hs'
          exact htext
      · exact fun htext => .inr ⟨s, rfl, htext⟩

/-- The search of the loop, and the market of what it finds. -/
theorem candidateOf_eq_some {hit : SimilarityHit} {uuid : String} {c : MatchCandidate}
    {info : MarketInfo} : candidateOf hit uuid = some (c, info) ↔
      (hit.matches.find? fun c => c.marketInfo.any (·.uuid = uuid)) = some c ∧
        c.marketInfo = some info := by
  unfold candidateOf
  induction hit.matches with
  | nil => simp
  | cons x xs ih =>
    rw [List.findSome?_cons, List.find?_cons]
    cases hx : x.marketInfo with
    | none => simpa [hx] using ih
    | some info' =>
      -- the first candidate with the uuid
      by_cases hu : info'.uuid = uuid
      · have hany : (some info').any (·.uuid = uuid) = true := by simp [hu]
        simp only [Option.filter_some, hu, decide_true, if_true, Option.map_some, hany,
          Option.some.injEq, Prod.mk.injEq]
        constructor
        · rintro ⟨rfl, rfl⟩
          exact ⟨rfl, hx⟩
        · rintro ⟨rfl, hinfo⟩
          exact ⟨rfl, Option.some.inj (hx.symm.trans hinfo)⟩
      · have hany : (some info').any (·.uuid = uuid) = false := by simp [hu]
        simpa only [Option.filter_some, hu, decide_false, Bool.false_eq_true, if_false,
          Option.map_none, hany] using ih

theorem setLeg_error {idx : ℤ} (h : idx ≠ 0 ∧ idx ≠ 1) :
    setLeg idx = .error (.error ("wrong leg: " ++ toString idx)) := by
  rw [setLeg, if_neg h.1, if_neg h.2]

theorem setLeg_self {idx : ℤ} (h : ¬ (idx ≠ 0 ∧ idx ≠ 1)) : setLeg idx = .ok idx := by
  by_cases h0 : idx = 0
  · rw [setLeg, if_pos h0, h0]
  · have h1 : idx = 1 := by omega
    rw [setLeg, if_neg h0, if_pos h1, h1]

/-- A mapping without its candidate is passed over. -/
theorem buildDiscoveredArb_unknown {hit : SimilarityHit} {mapping : LegMapping}
    (h : candidateOf hit mapping.matchUUID = none) : buildDiscoveredArb hit mapping = .ok none := by
  have hfind : (hit.matches.find? fun c => c.marketInfo.any (·.uuid = mapping.matchUUID)) =
      none := by
    by_contra hsome
    obtain ⟨c, hc⟩ := Option.ne_none_iff_exists'.mp hsome
    have hany := List.find?_some hc
    obtain ⟨info, hinfo, -⟩ := (Option.any_eq_true _ _).mp hany
    cases h.symm.trans (candidateOf_eq_some.mpr ⟨hc, hinfo⟩)
  simp only [buildDiscoveredArb, hfind]
  rfl

/-- A mapping with its candidate, on a hit with an anchor, becomes an arb unless a leg is bad. -/
theorem buildDiscoveredArb_known {hit : SimilarityHit} {mapping : LegMapping} {anchor : MarketInfo}
    {found : MatchCandidate × MarketInfo} (h : candidateOf hit mapping.matchUUID = some found)
    (hanchor : hit.anchor = some anchor) :
    (BadLeg anchor mapping.anchorLeg ∨ BadLeg found.2 mapping.matchLeg →
      ∃ message, buildDiscoveredArb hit mapping = .error (.error message)) ∧
    (¬ (BadLeg anchor mapping.anchorLeg ∨ BadLeg found.2 mapping.matchLeg) →
      buildDiscoveredArb hit mapping = .ok (some (pickedArb anchor found mapping))) := by
  obtain ⟨c, info⟩ := found
  obtain ⟨hfind, hinfo⟩ := candidateOf_eq_some.mp h
  simp only [badLeg_iff, buildDiscoveredArb, hfind, hanchor, hinfo, pure, Except.pure, throw,
    throwThe, MonadExceptOf.throw]
  by_cases ha : outcomeLabel anchor mapping.anchorLeg = "?"
  · exact ⟨fun _ => ⟨_, by rw [if_pos ha]; rfl⟩, fun hnot => absurd (.inl (.inl ha)) hnot⟩
  by_cases hm : outcomeLabel info mapping.matchLeg = "?"
  · refine ⟨fun _ => ⟨_, by rw [if_neg ha, if_pos hm]; rfl⟩, fun hnot => ?_⟩
    exact absurd (.inr (.inl hm)) hnot
  rw [if_neg ha, if_neg hm, or_iff_right ha, or_iff_right hm]
  -- both labels are there, and only the legs are left
  by_cases hout : mapping.anchorLeg ≠ 0 ∧ mapping.anchorLeg ≠ 1
  · refine ⟨fun _ => ⟨_, by rw [setLeg_error hout]; rfl⟩, fun hnot => absurd (.inl hout) hnot⟩
  by_cases hout' : mapping.matchLeg ≠ 0 ∧ mapping.matchLeg ≠ 1
  · refine ⟨fun _ => ⟨_, by rw [setLeg_self hout, setLeg_error hout']; rfl⟩, fun hnot => ?_⟩
    exact absurd (.inr hout') hnot
  · refine ⟨fun h => absurd h (not_or.mpr ⟨hout, hout'⟩), fun _ => ?_⟩
    rw [setLeg_self hout, setLeg_self hout']
    rfl

/-- A mapping with its candidate needs an anchor. -/
theorem buildDiscoveredArb_nil {hit : SimilarityHit} {mapping : LegMapping}
    {found : MatchCandidate × MarketInfo} (h : candidateOf hit mapping.matchUUID = some found)
    (hanchor : hit.anchor = none) : buildDiscoveredArb hit mapping = .error .nilPointer := by
  obtain ⟨hfind, -⟩ := candidateOf_eq_some.mp h
  simp only [buildDiscoveredArb, hfind, hanchor]
  rfl

/-- **One mapping**: it is refused, or it becomes its arb if it is known. -/
theorem buildDiscoveredArb_ok_iff {hit : SimilarityHit} {mapping : LegMapping}
    {o : Option DiscoveredArb} :
    buildDiscoveredArb hit mapping = .ok o ↔ ¬ Refused hit mapping ∧ o = picked hit mapping := by
  -- the candidate is unknown, the anchor is nil, or both are there
  cases hfound : candidateOf hit mapping.matchUUID with
  | none =>
    have hnot : ¬ Refused hit mapping := by
      rintro ⟨found, h, -⟩
      cases hfound.symm.trans h
    have hnone : picked hit mapping = none := by
      rw [picked, hfound]
      cases hit.anchor <;> rfl
    rw [buildDiscoveredArb_unknown hfound, hnone, Except.ok.injEq]
    exact ⟨fun h => ⟨hnot, h.symm⟩, fun h => h.2.symm⟩
  | some found =>
    cases hanchor : hit.anchor with
    | none =>
      have hrefused : Refused hit mapping := by
        refine ⟨found, hfound, fun anchor h => ?_⟩
        cases hanchor.symm.trans h
      rw [buildDiscoveredArb_nil hfound hanchor]
      exact ⟨fun h => (by cases h), fun h => absurd hrefused h.1⟩
    | some anchor =>
      -- with both there, a bad leg is refused
      have hrefused : Refused hit mapping ↔
          BadLeg anchor mapping.anchorLeg ∨ BadLeg found.2 mapping.matchLeg := by
        constructor
        · rintro ⟨found', h, hbad⟩
          obtain rfl := Option.some.inj (hfound.symm.trans h)
          exact hbad anchor hanchor
        · intro hbad
          refine ⟨found, hfound, fun anchor' h => ?_⟩
          obtain rfl := Option.some.inj (hanchor.symm.trans h)
          exact hbad
      have hpicked : picked hit mapping = some (pickedArb anchor found mapping) := by
        rw [picked, hanchor, hfound]
        rfl
      obtain ⟨herror, hok⟩ := buildDiscoveredArb_known hfound hanchor
      rw [hrefused, hpicked]
      constructor
      · intro h
        by_cases hbad : BadLeg anchor mapping.anchorLeg ∨ BadLeg found.2 mapping.matchLeg
        · obtain ⟨_, herr⟩ := herror hbad
          cases herr.symm.trans h
        · exact ⟨hbad, Except.ok.inj (h.symm.trans (hok hbad))⟩
      · rintro ⟨hbad, rfl⟩
        exact hok hbad

/-! ## §2 All mappings -/

/-- **Which lists are built**: none of the mappings is refused, and each known one becomes its
    arb, in the order of the mappings. -/
theorem buildDiscoveredArbs_ok_iff {hit : SimilarityHit} {mappings : List LegMapping}
    {arbs : List DiscoveredArb} : buildDiscoveredArbs hit mappings = .ok arbs ↔
      (∀ m ∈ mappings, ¬ Refused hit m) ∧ arbs = mappings.filterMap (picked hit) := by
  induction mappings generalizing arbs with
  | nil =>
    rw [buildDiscoveredArbs, Except.ok.injEq]
    exact ⟨fun h => ⟨fun _ hm => absurd hm List.not_mem_nil, h.symm⟩, fun h => h.2.symm⟩
  | cons mapping mappings ih =>
    have hcons : (mapping :: mappings).filterMap (picked hit) =
        (picked hit mapping).toList ++ mappings.filterMap (picked hit) := by
      cases hp : picked hit mapping <;> simp [hp]
    rw [hcons, List.forall_mem_cons]
    constructor
    · -- the first error ends the list
      intro h
      obtain ⟨first, hfirst, h⟩ := bind_eq_ok.mp h
      obtain ⟨rest, hrest, h⟩ := bind_eq_ok.mp h
      obtain ⟨hhead, rfl⟩ := buildDiscoveredArb_ok_iff.mp hfirst
      obtain ⟨htail, rfl⟩ := ih.mp hrest
      cases h
      exact ⟨⟨hhead, htail⟩, rfl⟩
    · rintro ⟨⟨hhead, htail⟩, rfl⟩
      refine bind_eq_ok.mpr ⟨_, buildDiscoveredArb_ok_iff.mpr ⟨hhead, rfl⟩, ?_⟩
      exact bind_eq_ok.mpr ⟨_, ih.mpr ⟨htail, rfl⟩, rfl⟩

/-- A list that is not built, of a hit with an anchor, ends with a message. -/
theorem buildDiscoveredArbs_error {hit : SimilarityHit} {mappings : List LegMapping} {e : Failure}
    (hanchor : hit.anchor ≠ none) (h : buildDiscoveredArbs hit mappings = .error e) :
    ∃ message, e = .error message := by
  induction mappings with
  | nil => cases h
  | cons mapping mappings ih =>
    -- the error is that of this mapping, or of a later one
    cases hfirst : buildDiscoveredArb hit mapping with
    | ok first =>
      cases hrest : buildDiscoveredArbs hit mappings with
      | ok rest =>
        rw [buildDiscoveredArbs, hfirst, hrest] at h
        cases h
      | error e' =>
        rw [buildDiscoveredArbs, hfirst, hrest] at h
        cases h
        exact ih hrest
    | error e' =>
      rw [buildDiscoveredArbs, hfirst] at h
      cases h
      obtain ⟨anchor, hanchor⟩ := Option.ne_none_iff_exists'.mp hanchor
      cases hfound : candidateOf hit mapping.matchUUID with
      | none => cases hfirst.symm.trans (buildDiscoveredArb_unknown hfound)
      | some found =>
        obtain ⟨herror, hok⟩ := buildDiscoveredArb_known hfound hanchor
        by_cases hbad : BadLeg anchor mapping.anchorLeg ∨ BadLeg found.2 mapping.matchLeg
        · obtain ⟨message, hmessage⟩ := herror hbad
          exact ⟨message, Except.error.inj (hfirst.symm.trans hmessage)⟩
        · cases hfirst.symm.trans (hok hbad)

/-! ## §3 Nil entries -/

/-- The first entry that is there and has market info with the uuid. -/
def firstCandidate (pointers : List (Option MatchCandidate)) (uuid : String) :
    Option (MatchCandidate × MarketInfo) :=
  pointers.findSome? fun pointer => pointer.bind fun c =>
    (c.marketInfo.filter (·.uuid = uuid)).map fun info => (c, info)

/-- A hit with these entries, where a nil entry is one without market info. -/
def SimilarityHit.ofPointers (anchor : Option MarketInfo)
    (pointers : List (Option MatchCandidate)) : SimilarityHit where
  anchor := anchor
  «matches» := pointers.map fun pointer => pointer.getD { marketInfo := none }

theorem candidateOf_ofPointers (anchor : Option MarketInfo)
    (pointers : List (Option MatchCandidate)) (uuid : String) :
    candidateOf (SimilarityHit.ofPointers anchor pointers) uuid = firstCandidate pointers uuid := by
  simp only [candidateOf, SimilarityHit.ofPointers, firstCandidate]
  induction pointers with
  | nil => rfl
  | cons pointer pointers ih =>
    rw [List.map_cons, List.findSome?_cons, List.findSome?_cons, ih]
    cases pointer <;> rfl

/-- **Selections are built faithfully**, for every hit with an anchor and every list of mappings:
    the server ends with an error exactly when some mapping with a known uuid has a bad leg, and
    otherwise has one arb for each mapping with a known uuid, in order, with both sides taken at
    the mapped index. -/
theorem selections_built_faithfully (anchor : MarketInfo)
    (pointers : List (Option MatchCandidate)) (mappings : List LegMapping) :
    ((∃ message, buildDiscoveredArbs (SimilarityHit.ofPointers (some anchor) pointers) mappings =
        .error (.error message)) ↔
      ∃ m ∈ mappings, ∃ found, firstCandidate pointers m.matchUUID = some found ∧
        (BadLeg anchor m.anchorLeg ∨ BadLeg found.2 m.matchLeg)) ∧
    ((∀ message, buildDiscoveredArbs (SimilarityHit.ofPointers (some anchor) pointers) mappings ≠
        .error (.error message)) →
      buildDiscoveredArbs (SimilarityHit.ofPointers (some anchor) pointers) mappings =
        .ok (mappings.filterMap fun m =>
          (firstCandidate pointers m.matchUUID).map fun found => pickedArb anchor found m)) := by
  have hanchor : (SimilarityHit.ofPointers (some anchor) pointers).anchor ≠ none :=
    Option.some_ne_none anchor
  have hpicked : picked (SimilarityHit.ofPointers (some anchor) pointers) =
      fun m => (firstCandidate pointers m.matchUUID).map fun found => pickedArb anchor found m := by
    funext m
    rw [← candidateOf_ofPointers (some anchor)]
    rfl
  have hrefused : ∀ m, Refused (SimilarityHit.ofPointers (some anchor) pointers) m ↔
      ∃ found, firstCandidate pointers m.matchUUID = some found ∧
        (BadLeg anchor m.anchorLeg ∨ BadLeg found.2 m.matchLeg) := by
    intro m
    rw [Refused, candidateOf_ofPointers]
    constructor
    · rintro ⟨found, hfound, hbad⟩
      exact ⟨found, hfound, hbad anchor rfl⟩
    · rintro ⟨found, hfound, hbad⟩
      refine ⟨found, hfound, fun anchor' h => ?_⟩
      cases h
      exact hbad
  simp only [← hrefused, ← hpicked]
  cases hbuilt : buildDiscoveredArbs (SimilarityHit.ofPointers (some anchor) pointers) mappings with
  | ok arbs =>
    obtain ⟨hnone, rfl⟩ := buildDiscoveredArbs_ok_iff.mp hbuilt
    refine ⟨iff_of_false ?_ ?_, fun _ => rfl⟩
    · rintro ⟨message, h⟩
      cases h
    · rintro ⟨m, hm, hbad⟩
      exact hnone m hm hbad
  | error e =>
    obtain ⟨message, rfl⟩ := buildDiscoveredArbs_error hanchor hbuilt
    refine ⟨iff_of_true ⟨message, rfl⟩ ?_, fun hnot => absurd rfl (hnot message)⟩
    -- a list without a refused mapping would have been built
    by_contra hnone
    push Not at hnone
    cases hbuilt.symm.trans (buildDiscoveredArbs_ok_iff.mpr ⟨hnone, rfl⟩)

end Degenerate.Web
