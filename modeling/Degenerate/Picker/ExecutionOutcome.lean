import Degenerate.Picker.Cooldown

/-!
# The Outcome of One Execution

`handle_execution_request` has seven exits, and the venues can fail or fill
anything at each call.  What it attempts is nevertheless fixed by three facts:
whether it goes ahead, which size it buys, and which leg filled more.

## Main Results

- `handleExecutionRequest_outcome`: the buys, the hedge and the release of every
  handling, and what the handling leaves alone
-/

namespace Degenerate.Picker

/-! ## §1 What a handling attempts -/

/-- The handler goes ahead with an order of `size` for each leg. -/
structure GoesAhead (cfg : Config) (bal : BalanceTracker) (ans : ExecAnswers)
    (req : ExecutionRequest) (m : Metrics) (size : ℚ) : Prop where
  metrics : executionMetrics cfg.optimistic ans req = .ok m
  positive : 0 < m.totalCost
  worth : m.totalCost ≤ 985 / 1000
  sized : m.executionSize bal = some size

/-- The hedge sell that an effect attempts. -/
def ExecEffect.hedge : ExecEffect → Option (Placed Hedge)
  | .hedgeSellOrder hedge => some hedge
  | _ => none

/-- The hedge sells of a handling. -/
def Handled.hedges (h : Handled) : List (Placed Hedge) := h.effects.filterMap ExecEffect.hedge

theorem mem_hedges {h : Handled} {hedge : Placed Hedge} :
    hedge ∈ h.hedges ↔ .hedgeSellOrder hedge ∈ h.effects := by
  rw [Handled.hedges, List.mem_filterMap]
  constructor
  · rintro ⟨e, he, heq⟩
    cases e <;> cases heq
    exact he
  · intro h
    exact ⟨_, h, rfl⟩

/-- The hedge sell of a leg that filled more than the other by `excess`. -/
def hedgeOf (ans : ExecAnswers) (excess : ℚ) (leg : Buy) : Placed Hedge :=
  hedgeSellOrder ans.hedgeVenue ans.hedgeClientOrderId leg.leg excess
    (leg.price.toRat + 2 / 100)

/-- The leg that filled more. -/
def longerLeg (anchor «match» : Buy) : Buy :=
  if «match».order.fill.1 < anchor.order.fill.1 then anchor else «match»

/-- By how much it filled more. -/
def excessFill (anchor «match» : Buy) : ℚ := |anchor.order.fill.1 - «match».order.fill.1|

/-- The hedge sells that two accounted fills call for. -/
def hedgesFor (ans : ExecAnswers) (anchor «match» : Buy) : List (Placed Hedge) :=
  if anchor.order.fill.1 = «match».order.fill.1 then []
  else [hedgeOf ans (excessFill anchor «match») (longerLeg anchor «match»)]

/-- The cost is in the band exactly when it is positive and at most 0.985. -/
theorem outOfBand_eq_false_iff {m : Metrics} :
    m.outOfBand = false ↔ 0 < m.totalCost ∧ m.totalCost ≤ 985 / 1000 := by
  simp [Metrics.outOfBand]

/-- A request goes ahead with at most one set of metrics and one size. -/
theorem GoesAhead.unique {cfg : Config} {bal : BalanceTracker} {ans : ExecAnswers}
    {req : ExecutionRequest} {m m' : Metrics} {size size' : ℚ}
    (h : GoesAhead cfg bal ans req m size) (h' : GoesAhead cfg bal ans req m' size') :
    m = m' ∧ size = size' := by
  have hm : m = m' := Except.ok.inj (h.metrics.symm.trans h'.metrics)
  subst hm
  exact ⟨rfl, Option.some.inj (h.sized.symm.trans h'.sized)⟩

/-- A handling that goes ahead places the orders. -/
theorem handleExecutionRequest_goesAhead {cfg : Config} {bal : BalanceTracker}
    {ans : ExecAnswers} {req : ExecutionRequest} {m : Metrics} {size : ℚ}
    (h : GoesAhead cfg bal ans req m size) :
    handleExecutionRequest cfg bal ans req = placeOrders cfg ans req m size := by
  have hband : m.outOfBand = false := outOfBand_eq_false_iff.mpr ⟨h.positive, h.worth⟩
  simp only [handleExecutionRequest, h.metrics, hband, h.sized, Bool.false_eq_true, if_false]

/-- A hedge branch attempts the hedge of its leg, once. -/
theorem hedgeEffects_hedges (ans : ExecAnswers) (excess : ℚ) (leg : Buy) :
    (hedgeEffects ans excess leg).filterMap ExecEffect.hedge = [hedgeOf ans excess leg] := by
  unfold hedgeEffects
  simp only
  split <;> rfl

/-- After the fills: the hedge that they call for, and no other. -/
theorem afterFills_hedges (ans : ExecAnswers) (req : ExecutionRequest) (anchor «match» : Buy) :
    (afterFills ans req anchor «match»).hedges = hedgesFor ans anchor «match» := by
  unfold Handled.hedges afterFills hedgesFor
  simp only
  split
  · split <;> rfl
  · rw [List.filterMap_append, List.filterMap_cons_none rfl, hedgeEffects_hedges]
    rfl

/-- The hedges of placed orders are those that their fills call for. -/
theorem placeOrders_hedges (cfg : Config) (ans : ExecAnswers) (req : ExecutionRequest)
    (m : Metrics) (size : ℚ) : (placeOrders cfg ans req m size).hedges =
      hedgesFor ans
        (buyLeg cfg ans.anchorVenue req.correlationId req.anchor size m.anchorPrice)
        (buyLeg cfg ans.matchVenue req.correlationId req.match size m.matchPrice) :=
  afterFills_hedges ans req _ _

/-- Equal fills call for no hedge. -/
theorem hedgesFor_of_eq {ans : ExecAnswers} {anchor «match» : Buy}
    (h : anchor.order.fill.1 = «match».order.fill.1) : hedgesFor ans anchor «match» = [] :=
  if_pos h

/-- A larger fill of the anchor is hedged there. -/
theorem hedgesFor_of_gt {ans : ExecAnswers} {anchor «match» : Buy}
    (h : «match».order.fill.1 < anchor.order.fill.1) : hedgesFor ans anchor «match» =
      [hedgeOf ans (anchor.order.fill.1 - «match».order.fill.1) anchor] := by
  simp only [hedgesFor, excessFill, longerLeg, if_neg h.ne', if_pos h, abs_of_pos (sub_pos.mpr h)]

/-- A larger fill of the match is hedged there. -/
theorem hedgesFor_of_lt {ans : ExecAnswers} {anchor «match» : Buy}
    (h : anchor.order.fill.1 < «match».order.fill.1) : hedgesFor ans anchor «match» =
      [hedgeOf ans («match».order.fill.1 - anchor.order.fill.1) «match»] := by
  simp only [hedgesFor, excessFill, longerLeg, if_neg h.ne, if_neg h.not_gt,
    abs_of_neg (sub_neg.mpr h), neg_sub]

/-- A handling that does not go ahead releases the flag, after a cooldown or without one. -/
theorem effects_of_not_goesAhead {cfg : Config} {bal : BalanceTracker} {ans : ExecAnswers}
    {req : ExecutionRequest} (h : ∀ m size, ¬ GoesAhead cfg bal ans req m size) :
    (handleExecutionRequest cfg bal ans req).effects = [.removeInFlight req.correlationId] ∨
      (handleExecutionRequest cfg bal ans req).effects =
        [.insertCooldown req.correlationId, .removeInFlight req.correlationId] := by
  rcases handleExecutionRequest_cases cfg bal ans req with he | he |
    ⟨m, size, hm, hband, hsize, -⟩
  · exact .inl he
  · exact .inr he
  · obtain ⟨hpos, hworth⟩ := outOfBand_eq_false_iff.mp hband
    exact absurd ⟨hm, hpos, hworth, hsize⟩ (h m size)

/-- A handling that does not go ahead attempts nothing. -/
theorem quiet_of_not_goesAhead {cfg : Config} {bal : BalanceTracker} {ans : ExecAnswers}
    {req : ExecutionRequest} (h : ∀ m size, ¬ GoesAhead cfg bal ans req m size) :
    (handleExecutionRequest cfg bal ans req).orders = [] ∧
      (handleExecutionRequest cfg bal ans req).hedges = [] := by
  unfold Handled.orders Handled.hedges
  rcases effects_of_not_goesAhead h with he | he
  · rw [he]
    exact ⟨rfl, rfl⟩
  · rw [he]
    exact ⟨rfl, rfl⟩

/-! ## §2 What a handling releases and leaves alone -/

/-- The flag of the pair is released exactly once, and no cooldown is recorded afterwards. -/
def ReleasesOnce (cid : CorrelationId) (effects : List ExecEffect) : Prop :=
  ∃ pre post, effects = pre ++ .removeInFlight cid :: post ∧
    (∀ e ∈ pre, e.isRelease = false) ∧ ∀ e ∈ post, e.isRelease = false ∧ e.cools = false

/-- Without a release ahead no cooldown is recorded. -/
theorem CoolsFirst.no_cools {effects : List ExecEffect} (h : CoolsFirst effects)
    (hr : ¬ Releases effects) : ∀ e ∈ effects, e.cools = false := by
  induction effects with
  | nil => simp
  | cons e rest ih =>
    rw [releases_cons, not_or] at hr
    have he : e.cools = false := by
      by_contra hcool
      exact hr.2 (h.2 (by simpa using hcool))
    exact List.forall_mem_cons.mpr ⟨he, ih h.1 hr.2⟩

/-- Orderly effects of one pair that release and cool down first release once. -/
theorem releasesOnce_of_orderly {cid : CorrelationId} {effects : List ExecEffect}
    (ho : Orderly effects) (hown : ∀ e ∈ effects, e.Of cid) (hr : Releases effects)
    (hc : CoolsFirst effects) : ReleasesOnce cid effects := by
  induction effects with
  | nil => obtain ⟨e, he, -⟩ := hr; cases he
  | cons e rest ih =>
    rw [List.forall_mem_cons] at hown
    by_cases he : e.isRelease = true
    · -- the one release: nothing behind it releases or cools
      have hrest : ¬ Releases rest := ho.2.1 he
      refine ⟨[], rest, by rw [hown.1.isRelease_iff.mp he]; rfl, by simp, fun e' he' => ⟨?_, ?_⟩⟩
      · by_contra hrel
        exact hrest ⟨e', he', by simpa using hrel⟩
      · exact hc.1.no_cools hrest e' he'
    · have hrest : Releases rest := (releases_cons.mp hr).resolve_left he
      obtain ⟨pre, post, rfl, hpre, hpost⟩ := ih ho.1 hown.2 hrest hc.1
      exact ⟨e :: pre, post, rfl, List.forall_mem_cons.mpr ⟨by simpa using he, hpre⟩, hpost⟩

/-- Every handling releases its request's pair once. -/
theorem handleExecutionRequest_releasesOnce (cfg : Config) (bal : BalanceTracker)
    (ans : ExecAnswers) (req : ExecutionRequest) :
    ReleasesOnce req.correlationId (handleExecutionRequest cfg bal ans req).effects := by
  obtain ⟨ho, hr, -⟩ := handleExecutionRequest_shape cfg bal ans req
  exact releasesOnce_of_orderly ho (handleExecutionRequest_own cfg bal ans req) hr
    (handleExecutionRequest_coolsFirst cfg bal ans req)

/-- An effect reaches the flag and the cooldown of its own pair only. -/
theorem applyEffect_others (p : System) {cid : CorrelationId} {e : ExecEffect} (he : e.Of cid)
    {other : CorrelationId} (hne : other ≠ cid) :
    (other ∈ (p.applyEffect e).inFlight ↔ other ∈ p.inFlight) ∧
      (p.applyEffect e).cooldown other = p.cooldown other := by
  cases e with
  | insertCooldown c =>
    obtain rfl : c = cid := he c rfl
    exact ⟨Iff.rfl, Lib.PMap.insert_of_ne _ hne _⟩
  | removeInFlight c =>
    obtain rfl : c = cid := he c rfl
    exact ⟨by simp [System.applyEffect, hne], rfl⟩
  | _ => exact ⟨Iff.rfl, rfl⟩

/-- Effects of a handling, one after another. -/
def System.applyEffects (p : System) (effects : List ExecEffect) : System :=
  effects.foldl (fun p e => p.applyEffect e) p

/-- An effect that is no release keeps the in-flight set. -/
theorem applyEffect_inFlight_of_not_release (p : System) {e : ExecEffect}
    (he : e.isRelease = false) : (p.applyEffect e).inFlight = p.inFlight := by
  cases e with
  | removeInFlight c => cases he
  | _ => rfl

/-- Effects without a release keep the in-flight set. -/
theorem applyEffects_inFlight {effects : List ExecEffect}
    (h : ∀ e ∈ effects, e.isRelease = false) (p : System) :
    (p.applyEffects effects).inFlight = p.inFlight := by
  induction effects generalizing p with
  | nil => rfl
  | cons e rest ih =>
    rw [List.forall_mem_cons] at h
    show ((p.applyEffect e).applyEffects rest).inFlight = _
    rw [ih h.2, applyEffect_inFlight_of_not_release p h.1]

/-- One release among the effects takes the pair out of the in-flight set. -/
theorem ReleasesOnce.inFlight {cid : CorrelationId} {effects : List ExecEffect}
    (h : ReleasesOnce cid effects) (p : System) :
    (p.applyEffects effects).inFlight = p.inFlight.erase cid := by
  obtain ⟨pre, post, rfl, hpre, hpost⟩ := h
  have hsplit : p.applyEffects (pre ++ .removeInFlight cid :: post) =
      ((p.applyEffects pre).applyEffect (.removeInFlight cid)).applyEffects post := by
    simp only [System.applyEffects, List.foldl_append, List.foldl_cons]
  rw [hsplit, applyEffects_inFlight fun e he => (hpost e he).1]
  exact congrArg (·.erase cid) (applyEffects_inFlight hpre p)

/-! ## §3 The outcome -/

/-- **End-to-end effect of one execution**: both legs are bought for one size or none is, the
    leg with the larger fill is hedged exactly when the fills differ, and every exit releases
    the pair's flag once, after any cooldown, and touches no other pair. -/
theorem handleExecutionRequest_outcome (cfg : Config) (bal : BalanceTracker)
    (ans : ExecAnswers) (req : ExecutionRequest) :
    ((∀ m size, ¬ GoesAhead cfg bal ans req m size) ∧
        (handleExecutionRequest cfg bal ans req).orders = [] ∧
        (handleExecutionRequest cfg bal ans req).hedges = [] ∨
      ∃ m size, GoesAhead cfg bal ans req m size ∧ ∃ anchor other : Buy,
        anchor = buyLeg cfg ans.anchorVenue req.correlationId req.anchor size m.anchorPrice ∧
        other = buyLeg cfg ans.matchVenue req.correlationId req.match size m.matchPrice ∧
        (handleExecutionRequest cfg bal ans req).orders = [anchor, other] ∧
        (anchor.order.fill.1 = other.order.fill.1 →
          (handleExecutionRequest cfg bal ans req).hedges = []) ∧
        (other.order.fill.1 < anchor.order.fill.1 →
          (handleExecutionRequest cfg bal ans req).hedges =
            [hedgeOf ans (anchor.order.fill.1 - other.order.fill.1) anchor]) ∧
        (anchor.order.fill.1 < other.order.fill.1 →
          (handleExecutionRequest cfg bal ans req).hedges =
            [hedgeOf ans (other.order.fill.1 - anchor.order.fill.1) other])) ∧
    ReleasesOnce req.correlationId (handleExecutionRequest cfg bal ans req).effects ∧
    (∀ p : System, (p.applyEffects (handleExecutionRequest cfg bal ans req).effects).inFlight =
      p.inFlight.erase req.correlationId) ∧
    ∀ (p : System), ∀ e ∈ (handleExecutionRequest cfg bal ans req).effects,
      ∀ other ≠ req.correlationId,
        (other ∈ (p.applyEffect e).inFlight ↔ other ∈ p.inFlight) ∧
        (p.applyEffect e).cooldown other = p.cooldown other := by
  have honce := handleExecutionRequest_releasesOnce cfg bal ans req
  refine ⟨?_, honce, fun p => honce.inFlight p, fun p e he other hne =>
    applyEffect_others p (handleExecutionRequest_own cfg bal ans req e he) hne⟩
  -- either the checks are passed, for one size, or nothing is ordered
  by_cases hgo : ∃ m size, GoesAhead cfg bal ans req m size
  · obtain ⟨m, size, hgo⟩ := hgo
    right
    refine ⟨m, size, hgo, _, _, rfl, rfl, ?_⟩
    rw [handleExecutionRequest_goesAhead hgo, placeOrders_hedges]
    exact ⟨placeOrders_orders cfg ans req m size, hedgesFor_of_eq, hedgesFor_of_gt,
      hedgesFor_of_lt⟩
  · left
    push Not at hgo
    obtain ⟨horders, hhedges⟩ := quiet_of_not_goesAhead hgo
    exact ⟨hgo, horders, hhedges⟩

end Degenerate.Picker
