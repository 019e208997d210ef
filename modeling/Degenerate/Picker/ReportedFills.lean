import Degenerate.Picker.ExecutionModes
import Degenerate.Picker.ExecutionOutcome

/-!
# Reported Fills

A buy that has reached its venue is real, whatever the code makes of the answer.  The
executor reads the answer through a chain of fallible conversions, and an order whose
answer is not read to the end counts as filled with zero.  The remainder of a Kalshi
order is converted although nothing but the log uses it.

## Main Results

- `fills_kept_iff`: the fill that is accounted for is the one that the venue reports, unless
  Kalshi reports a fill next to a remainder that is missing or malformed
- `reported_fill_lost`: such an answer, and the hedge that sells the other leg
-/

namespace Degenerate.Picker

open Degenerate.Lib

/-! ## §1 What an answer reports -/

/-- The filled count of an accepted order, when its text is a number. -/
def KalshiOrder.filled (order : KalshiOrder) : Option Decimal :=
  order.fillCountFp.bind Decimal.fromStr

/-- The remaining count of an accepted order, when its text is a number. -/
def KalshiOrder.remaining (order : KalshiOrder) : Option Decimal :=
  order.remainingCountFp.bind Decimal.fromStr

/-- The answer reports a fill next to a remainder that is missing or malformed. -/
def KalshiOrder.HidesFill (order : KalshiOrder) : Prop :=
  order.remaining = none ∧ ∃ f, order.filled = some f ∧ f.toRat ≠ 0

/-- The order went out to Kalshi, and the answer hides its fill. -/
def OrderVenue.HidesFill (venue : OrderVenue) (sent : Option SentOrder) : Prop :=
  ∃ req order, sent = some (.kalshi req) ∧ venue.createOrder req = .ok order ∧ order.HidesFill

/-- The fill accounted for a buy is the reported one, and it is zero only if no fill is
    reported. -/
structure Buy.FillKept (buy : Buy) : Prop where
  accounted : buy.order.fill.1 = buy.reported
  zero : buy.order.fill.1 = 0 → buy.reported = 0

theorem optStrToDecimalStrict_eq_ok {o : Option String} {d : Decimal} :
    optStrToDecimalStrict o = .ok d ↔ o.bind Decimal.fromStr = some d := by
  refine ⟨optStrToDecimalStrict_ok, fun h => ?_⟩
  obtain ⟨text, rfl, hd⟩ := Option.bind_eq_some_iff.mp h
  simp only [optStrToDecimalStrict, strToDecimal, hd]

/-- An accepted order whose remainder is read counts with its reported fill. -/
theorem fill_of_remaining {order : KalshiOrder} {r : Decimal} (h : order.remaining = some r)
    (sent : Option SentOrder) :
    (⟨sent, kalshiFill (.ok order)⟩ : Placed Fill).fill.1 =
      (order.filled.map Decimal.toRat).getD 0 := by
  have hr : optStrToDecimalStrict order.remainingCountFp = .ok r :=
    optStrToDecimalStrict_eq_ok.mpr h
  cases hf : optStrToDecimalStrict order.fillCountFp with
  | ok f =>
    have hfilled : order.filled = some f := optStrToDecimalStrict_eq_ok.mp hf
    simp only [kalshiFill, hf, hr, hfilled, Placed.fill]
    rfl
  | error e =>
    -- an unreadable fill is not reported either
    have hfilled : order.filled = none := by
      apply Option.eq_none_iff_forall_ne_some.mpr
      intro f hsome
      cases hf.symm.trans (optStrToDecimalStrict_eq_ok.mpr hsome)
    simp only [kalshiFill, hf, hfilled, Placed.fill]
    rfl

/-- An accepted order whose remainder is not read counts as nothing. -/
theorem fill_of_not_remaining {order : KalshiOrder} (h : order.remaining = none)
    (sent : Option SentOrder) : (⟨sent, kalshiFill (.ok order)⟩ : Placed Fill).fill.1 = 0 := by
  cases hk : kalshiFill (.ok order) with
  | error e => rfl
  | ok f =>
    -- a fill that is read comes with a remainder that is read
    obtain ⟨_, -, hk⟩ := bind_eq_ok.mp hk
    obtain ⟨r, hr, -⟩ := bind_eq_ok.mp hk
    cases h.symm.trans (optStrToDecimalStrict_eq_ok.mp hr)

/-- A Kalshi order counts with the reported fill exactly when its answer does not hide it. -/
theorem kalshi_fillKept_iff {venue : OrderVenue} {req : CreateOrderRequest} {leg : ArbMinifiedInfo}
    {price : Decimal} :
    (⟨leg, price, ⟨some (.kalshi req), kalshiFill (venue.createOrder req)⟩,
        venueFill venue (some (.kalshi req))⟩ : Buy).FillKept ↔
      ¬ venue.HidesFill (some (.kalshi req)) := by
  cases hanswer : venue.createOrder req with
  | error e =>
    -- a refused order is reported by nobody
    refine iff_of_true ⟨?_, fun _ => ?_⟩ ?_
    · simp only [Placed.fill, kalshiFill, venueFill, hanswer]
    · simp only [venueFill, hanswer]
    · rintro ⟨_, order, ⟨⟩, horder, -⟩
      cases hanswer.symm.trans horder
  | ok order =>
    have hreported : venueFill venue (some (.kalshi req)) =
        (order.filled.map Decimal.toRat).getD 0 := by
      simp only [venueFill, hanswer, KalshiOrder.filled]
    have hhides : venue.HidesFill (some (.kalshi req)) ↔ order.HidesFill := by
      constructor
      · rintro ⟨_, order', ⟨⟩, horder, h⟩
        cases hanswer.symm.trans horder
        exact h
      · intro h
        exact ⟨req, order, rfl, hanswer, h⟩
    rw [hhides]
    cases hr : order.remaining with
    | some r =>
      have hfill := fill_of_remaining hr (some (.kalshi req))
      refine iff_of_true ⟨hfill.trans hreported.symm, fun hzero => ?_⟩ fun h => ?_
      · show venueFill venue (some (.kalshi req)) = 0
        rw [hreported, ← hfill]
        exact hzero
      · cases hr.symm.trans h.1
    | none =>
      have hfill := fill_of_not_remaining hr (some (.kalshi req))
      constructor
      · rintro hkept ⟨-, f, hf, hne⟩
        have hzero : venueFill venue (some (.kalshi req)) = 0 := hkept.zero hfill
        rw [hreported, hf] at hzero
        exact hne hzero
      · intro hnot
        -- what is reported next to it is zero or unreadable
        have hzero : (order.filled.map Decimal.toRat).getD 0 = 0 := by
          cases hf : order.filled with
          | none => rfl
          | some f =>
            by_contra hne
            exact hnot ⟨hr, f, hf, hne⟩
        exact ⟨hfill.trans (hreported.trans hzero).symm, fun _ => hreported.trans hzero⟩

/-! ## §2 One leg -/

/-- An order that was not sent is accounted for and reported as zero. -/
theorem fillKept_unsent (venue : OrderVenue) (leg : ArbMinifiedInfo) (price : Decimal)
    (e : String) : (⟨leg, price, .unsent e, venueFill venue none⟩ : Buy).FillKept :=
  ⟨rfl, fun _ => rfl⟩

/-- Polymarket's answer is read whole: what it reports is what counts. -/
theorem polymarket_fillKept (venue : OrderVenue) (leg : ArbMinifiedInfo) (price : Decimal)
    (order : LimitOrder) (size : ℚ) :
    (⟨leg, price, ⟨some (.polymarket order), polyFill size (venue.postOrder order)⟩,
      venueFill venue (some (.polymarket order))⟩ : Buy).FillKept := by
  have haccounted : (⟨some (.polymarket order), polyFill size (venue.postOrder order)⟩ :
      Placed Fill).fill.1 = venueFill venue (some (.polymarket order)) := by
    cases hanswer : venue.postOrder order with
    | error e => simp only [Placed.fill, polyFill, venueFill, hanswer]
    | ok response =>
      simp only [Placed.fill, polyFill, venueFill, hanswer]
      by_cases hs : response.success <;> simp [hs]
  exact ⟨haccounted, fun h => haccounted.symm.trans h⟩

/-- **One leg**: whatever its venue, size and price, a buy keeps its fill unless Kalshi's
    answer hides it. -/
theorem buyLeg_fillKept_iff (cfg : Config) (venue : OrderVenue) (cid : CorrelationId)
    (leg : ArbMinifiedInfo) (size : ℚ) (price : Decimal) :
    (buyLeg cfg venue cid leg size price).FillKept ↔
      ¬ venue.HidesFill (buyLeg cfg venue cid leg size price).order.sent := by
  -- what was not sent hides nothing
  have hunsent : ∀ e : String, ¬ venue.HidesFill (Placed.unsent e : Placed Fill).sent := by
    rintro e ⟨req, order, hsent, -⟩
    cases hsent
  cases hp : leg.platform with
  | kalshi =>
    simp only [buyLeg, makeFakOrder, hp]
    rcases makeKalshiFak_cases cfg.generateUuidV5 venue leg size price cid with ⟨e, h⟩ |
      ⟨cents, n, -, -, -, h⟩
    · rw [h]
      exact iff_of_true (fillKept_unsent venue leg price e) (hunsent e)
    · rw [h]
      exact kalshi_fillKept_iff
  -- Polymarket's answer is read whole or is an error
  | polymarket =>
    simp only [buyLeg, makeFakOrder, hp]
    rcases submitLimitOrder_cases venue leg.tokenId
      (fun token => ⟨token, roundDp size 2, roundDp price.toRat 2, .buy, .fak⟩)
      "error creating polymarket order" (polyFill size) with ⟨e, h⟩ | ⟨token, -, h⟩
    · rw [h]
      exact iff_of_true (fillKept_unsent venue leg price e) (hunsent e)
    · rw [h]
      refine iff_of_true (polymarket_fillKept venue leg price _ size) ?_
      rintro ⟨req, order, hsent, -⟩
      cases hsent

/-- The same for one answer: a readable fill counts when it is zero or the remainder is
    readable too. -/
theorem FillKept.accounted_iff {cfg : Config} {venue : OrderVenue} {cid : CorrelationId}
    {leg : ArbMinifiedInfo} {size : ℚ} {price : Decimal} {req : CreateOrderRequest}
    {order : KalshiOrder} {f : Decimal}
    (hsent : (buyLeg cfg venue cid leg size price).order.sent = some (.kalshi req))
    (hanswer : venue.createOrder req = .ok order) (hf : order.filled = some f) :
    (buyLeg cfg venue cid leg size price).order.fill.1 = f.toRat ↔
      f.toRat = 0 ∨ order.remaining.isSome := by
  -- the answer hides its fill when the remainder is missing and the fill is not zero
  have hreported : (buyLeg cfg venue cid leg size price).reported = f.toRat := by
    show venueFill venue (buyLeg cfg venue cid leg size price).order.sent = f.toRat
    rw [hsent]
    simp only [venueFill, hanswer]
    exact congrArg (fun o => (o.map Decimal.toRat).getD 0) hf
  have hkept := buyLeg_fillKept_iff cfg venue cid leg size price
  rw [hsent] at hkept
  have hhides : venue.HidesFill (some (.kalshi req)) ↔ order.remaining = none ∧ f.toRat ≠ 0 := by
    constructor
    · rintro ⟨_, order', ⟨⟩, horder, hnone, f', hf', hne⟩
      cases hanswer.symm.trans horder
      cases hf.symm.trans hf'
      exact ⟨hnone, hne⟩
    · rintro ⟨hnone, hne⟩
      exact ⟨req, order, rfl, hanswer, hnone, f, hf, hne⟩
  rw [hhides] at hkept
  constructor
  · -- a hidden fill is read as zero, which it is not
    intro haccounted
    by_contra hnot
    push Not at hnot
    obtain ⟨hne, hnone⟩ := hnot
    refine hkept.mp ⟨haccounted.trans hreported.symm, fun hzero => ?_⟩
      ⟨by simpa using hnone, hne⟩
    exact absurd (haccounted.symm.trans hzero) hne
  · intro h
    have hnot : ¬ (order.remaining = none ∧ f.toRat ≠ 0) := by
      rintro ⟨hnone, hne⟩
      rcases h with h | h
      · exact hne h
      · simp [hnone] at h
    exact (hkept.mpr hnot).accounted.trans hreported

/-! ## §3 One handling -/

/-- **Reported fills are kept** exactly when Kalshi's answer does not hide them: each leg of
    every handling that places orders is accounted for with its reported fill, and when this
    holds for both legs the hedge sells what the reports say was bought in excess. -/
theorem fills_kept_iff {cfg : Config} {bal : BalanceTracker} {ans : ExecAnswers}
    {req : ExecutionRequest} {m : Metrics} {size : ℚ} (h : GoesAhead cfg bal ans req m size) :
    ∃ anchor other : Buy,
      (handleExecutionRequest cfg bal ans req).orders = [anchor, other] ∧
      anchor.leg = req.anchor ∧ other.leg = req.match ∧
      (anchor.FillKept ↔ ¬ ans.anchorVenue.HidesFill anchor.order.sent) ∧
      (other.FillKept ↔ ¬ ans.matchVenue.HidesFill other.order.sent) ∧
      (∀ order sent f, anchor.order.sent = some (.kalshi sent) →
        ans.anchorVenue.createOrder sent = .ok order → order.filled = some f →
        (anchor.order.fill.1 = f.toRat ↔ f.toRat = 0 ∨ order.remaining.isSome)) ∧
      (∀ order sent f, other.order.sent = some (.kalshi sent) →
        ans.matchVenue.createOrder sent = .ok order → order.filled = some f →
        (other.order.fill.1 = f.toRat ↔ f.toRat = 0 ∨ order.remaining.isSome)) ∧
      (anchor.FillKept → other.FillKept →
        (anchor.reported = other.reported →
          (handleExecutionRequest cfg bal ans req).hedges = []) ∧
        (other.reported < anchor.reported →
          (handleExecutionRequest cfg bal ans req).hedges =
            [hedgeOf ans (anchor.reported - other.reported) anchor]) ∧
        (anchor.reported < other.reported →
          (handleExecutionRequest cfg bal ans req).hedges =
            [hedgeOf ans (other.reported - anchor.reported) other])) := by
  rw [handleExecutionRequest_goesAhead h, placeOrders_hedges]
  refine ⟨_, _, placeOrders_orders cfg ans req m size, rfl, rfl,
    buyLeg_fillKept_iff cfg ans.anchorVenue _ _ _ _, buyLeg_fillKept_iff cfg ans.matchVenue _ _ _ _,
    fun _ _ _ hsent hanswer hf => FillKept.accounted_iff hsent hanswer hf,
    fun _ _ _ hsent hanswer hf => FillKept.accounted_iff hsent hanswer hf, ?_⟩
  -- with both fills kept, the excess of the accounts is that of the reports
  intro hanchor hother
  rw [← hanchor.accounted, ← hother.accounted]
  exact ⟨hedgesFor_of_eq, hedgesFor_of_gt, hedgesFor_of_lt⟩

/-- A venue whose answers leave the remaining count out. -/
def noRemainderVenue (fillCountFp : String) : OrderVenue :=
  { fillVenue fillCountFp 50000000 with
    createOrder := fun _ => .ok ⟨"order", some fillCountFp, none⟩ }

/-- Both legs are bought whole, and Kalshi leaves the remaining count out. -/
def noRemainderAnswers : ExecAnswers :=
  { filledAnswers "50.00" 50000000 with
    anchorVenue := noRemainderVenue "50.00"
    hedgeVenue := fillVenue "0" 0 }

/-- The sample pair, bought whole on both venues by orders whose answers are complete. -/
theorem fills_kept_sample :
    ∃ anchor other : Buy,
      (handleExecutionRequest sampleConfig sampleFunds (filledAnswers "50.00" 50000000)
        sampleRequest).orders = [anchor, other] ∧ anchor.FillKept ∧ other.FillKept := by
  have hgo : GoesAhead sampleConfig sampleFunds (filledAnswers "50.00" 50000000) sampleRequest
      ⟨⟨40, 2⟩, ⟨50, 0⟩, ⟨40, 2⟩, ⟨50, 0⟩⟩ 50 :=
    ⟨rfl, by decide +kernel, by decide +kernel, by decide +kernel⟩
  obtain ⟨anchor, other, horders, -, -, hanchor, hother, -⟩ := fills_kept_iff hgo
  have hread : ∀ sent, ¬ (fillVenue "50.00" 50000000).HidesFill sent := by
    rintro sent ⟨req, order, -, ⟨⟩, hnone, -⟩
    exact absurd hnone (by decide)
  exact ⟨anchor, other, horders, hanchor.mpr (hread _), hother.mpr (hread _)⟩

/-- **A reported fill is lost**: both legs are bought whole, the remaining count of the Kalshi
    leg is missing, and the executor sells all of the other leg. -/
theorem reported_fill_lost :
    ∃ anchor other hedge,
      (handleExecutionRequest sampleConfig sampleFunds noRemainderAnswers sampleRequest).orders =
        [anchor, other] ∧
      anchor.reported = 50 ∧ other.reported = 50 ∧ anchor.order.fill.1 = 0 ∧
      (handleExecutionRequest sampleConfig sampleFunds noRemainderAnswers sampleRequest).hedges =
        [hedge] ∧
      hedge.sent = some (.polymarket ⟨11, 50, 42 / 100, .sell, .gtc⟩) := by
  have horders : (handleExecutionRequest sampleConfig sampleFunds noRemainderAnswers
      sampleRequest).orders.map (fun buy => (buy.reported, buy.order.fill.1)) =
        [(50, 0), (50, 50)] := by decide +kernel
  have hhedges : (handleExecutionRequest sampleConfig sampleFunds noRemainderAnswers
      sampleRequest).hedges.map Placed.sent =
        [some (.polymarket ⟨11, 50, 42 / 100, .sell, .gtc⟩)] := by decide +kernel
  obtain ⟨anchor, rest, horders, hanchor, hrest⟩ := List.map_eq_cons_iff.mp horders
  obtain ⟨other, rest, rfl, hother, hnil⟩ := List.map_eq_cons_iff.mp hrest
  obtain ⟨hedge, rest', hhedges, hsent, hnil'⟩ := List.map_eq_cons_iff.mp hhedges
  rw [List.map_eq_nil_iff] at hnil hnil'
  subst hnil hnil'
  exact ⟨anchor, other, hedge, horders, congrArg Prod.fst hanchor, congrArg Prod.fst hother,
    congrArg Prod.snd hanchor, hhedges, hsent⟩

end Degenerate.Picker
