import Degenerate.Picker.Cooldown

/-!
# Failed Executions

An execution has failed unless both legs were filled by the same amount.  Some exits of
`handle_execution_request` record a cooldown before they release the in-flight flag:
the one at a cost of a dollar or more, and the one without any fill.  The others release
the flag only: no usable prices, a cost out of the band but below a dollar, no trade
size, and unequal fills, whether or not the hedge goes through.

A pair that is sent has no cooldown entry, since `evaluate_arb` has just found none or
removed an expired one.  So a handling that records nothing releases a pair that is not
on cooldown at all.

## Main Results

- `coolingExit_iff`: the exits, by what the venues answer
- `failed_execution_rests_iff`: which failed executions release the pair on cooldown
- `hedged_pair_sent_again`
-/

namespace Degenerate.Picker

open Degenerate.Lib

/-! ## §1 The exits -/

/-- The execution ends with both legs filled by the same amount, not zero. -/
def Handled.FilledAlike (h : Handled) : Prop :=
  ∃ anchor «match», h.orders = [anchor, «match»] ∧
    anchor.order.fill.1 = «match».order.fill.1 ∧ anchor.order.fill.1 ≠ 0

/-- A cooldown is recorded, and the flag released after that. -/
def CoolsDown (effects : List ExecEffect) : Prop :=
  ∃ pre cid post, effects = pre ++ .insertCooldown cid :: post ∧ Releases post

/-- The prices are there, and either they cost a dollar or more, or they are in the band, a
    trade size is found, and both venues fill the same amount, possibly zero. -/
def CoolingExit (cfg : Config) (bal : BalanceTracker) (ans : ExecAnswers)
    (req : ExecutionRequest) : Prop :=
  ∃ m, executionMetrics cfg.optimistic ans req = .ok m ∧
    (1 ≤ m.totalCost ∨ m.outOfBand = false ∧ ∃ size, m.executionSize bal = some size ∧
      (buyLeg cfg ans.anchorVenue req.correlationId req.anchor size m.anchorPrice).order.fill.1 =
        (buyLeg cfg ans.matchVenue req.correlationId req.match size m.matchPrice).order.fill.1)

instance (h : Handled) : Decidable h.FilledAlike :=
  match ho : h.orders with
  | [] => .isFalse (by simp [Handled.FilledAlike, ho])
  | [_] => .isFalse (by simp [Handled.FilledAlike, ho])
  | [anchor, «match»] =>
      decidable_of_iff
        (anchor.order.fill.1 = «match».order.fill.1 ∧ anchor.order.fill.1 ≠ 0)
        (by simp [Handled.FilledAlike, ho])
  | _ :: _ :: _ :: _ => .isFalse (by simp [Handled.FilledAlike, ho])

instance (cfg : Config) (bal : BalanceTracker) (ans : ExecAnswers) (req : ExecutionRequest) :
    Decidable (CoolingExit cfg bal ans req) :=
  match hm : executionMetrics cfg.optimistic ans req with
  | .error _ => .isFalse (by simp [CoolingExit, hm])
  | .ok m =>
      match hs : m.executionSize bal with
      | none => decidable_of_iff (1 ≤ m.totalCost) (by simp [CoolingExit, hm, hs])
      | some size =>
          decidable_of_iff (1 ≤ m.totalCost ∨ m.outOfBand = false ∧
            (buyLeg cfg ans.anchorVenue req.correlationId req.anchor size
                m.anchorPrice).order.fill.1 =
              (buyLeg cfg ans.matchVenue req.correlationId req.match size
                m.matchPrice).order.fill.1)
            (by simp [CoolingExit, hm, hs])

theorem not_coolsDown {effects : List ExecEffect} (h : ∀ e ∈ effects, e.cools = false) :
    ¬ CoolsDown effects := by
  rintro ⟨pre, cid, post, rfl, -⟩
  have hcool := h (.insertCooldown cid) (by simp)
  cases hcool

theorem coolsDown_missed (pre : List ExecEffect) (cid : CorrelationId) :
    CoolsDown (pre ++ [.insertCooldown cid, .removeInFlight cid]) :=
  ⟨pre, cid, [.removeInFlight cid], rfl, by simp [Releases, ExecEffect.isRelease]⟩

/-- A cost of a dollar or more is out of the band. -/
theorem outOfBand_of_gone {m : Metrics} (h : 1 ≤ m.totalCost) : m.outOfBand = true := by
  have hband : 985 / 1000 < m.totalCost := lt_of_lt_of_le (by norm_num) h
  simp [Metrics.outOfBand, hband]

/-- After the fills: the pair is filled alike or cooled down exactly when the fills agree. -/
theorem placeOrders_exit (cfg : Config) (ans : ExecAnswers) (req : ExecutionRequest)
    (m : Metrics) (size : ℚ) :
    (placeOrders cfg ans req m size).FilledAlike ∨
        CoolsDown (placeOrders cfg ans req m size).effects ↔
      (buyLeg cfg ans.anchorVenue req.correlationId req.anchor size m.anchorPrice).order.fill.1 =
        (buyLeg cfg ans.matchVenue req.correlationId req.match size m.matchPrice).order.fill.1 := by
  have horders := placeOrders_orders cfg ans req m size
  have heffects : ∃ d, (placeOrders cfg ans req m size).effects =
      .makeFakOrder (buyLeg cfg ans.anchorVenue req.correlationId req.anchor size m.anchorPrice) ::
        .makeFakOrder (buyLeg cfg ans.matchVenue req.correlationId req.match size m.matchPrice) ::
          .deductFill req.anchor.platform m.anchorPrice.toRat req.match.platform
            m.matchPrice.toRat d ::
            (afterFills ans req
              (buyLeg cfg ans.anchorVenue req.correlationId req.anchor size m.anchorPrice)
              (buyLeg cfg ans.matchVenue req.correlationId req.match size m.matchPrice)).effects :=
    ⟨_, rfl⟩
  generalize buyLeg cfg ans.anchorVenue req.correlationId req.anchor size m.anchorPrice = anchor
    at horders heffects ⊢
  generalize buyLeg cfg ans.matchVenue req.correlationId req.match size m.matchPrice = other
    at horders heffects ⊢
  obtain ⟨d, heffects⟩ := heffects
  constructor
  · rintro (⟨a, b, hab, heq, -⟩ | hcool)
    · rw [horders] at hab
      cases hab
      exact heq
    · -- a legged pair is hedged, and not cooled down
      by_contra hne
      refine not_coolsDown (fun e he => ?_) (heffects ▸ hcool)
      obtain ⟨hedge, ebos, hh⟩ := hedgeEffects_eq ans |anchor.order.fill.1 - other.order.fill.1|
        (if other.order.fill.1 < anchor.order.fill.1 then anchor else other)
      simp only [afterFills, if_neg hne, hh, List.cons_append, List.mem_cons, List.mem_append,
        List.mem_map, List.not_mem_nil, or_false] at he
      rcases he with rfl | rfl | rfl | rfl | rfl | ⟨_, -, rfl⟩ | rfl <;> rfl
  · intro heq
    by_cases hzero : anchor.order.fill.1 = 0
    · right
      rw [heffects]
      simp only [afterFills, if_pos heq, if_pos hzero]
      exact coolsDown_missed [_, _, _] req.correlationId
    · exact .inl ⟨anchor, other, horders, heq, hzero⟩

/-- An exit without orders is not filled alike. -/
theorem not_filledAlike {h : Handled} (horders : h.orders = []) : ¬ h.FilledAlike := by
  rintro ⟨a, b, hab, -⟩
  rw [horders] at hab
  cases hab

/-- **The exits**: a handling fills both legs alike or cools the pair down exactly at the
    cooling exits. -/
theorem coolingExit_iff (cfg : Config) (bal : BalanceTracker) (ans : ExecAnswers)
    (req : ExecutionRequest) :
    (handleExecutionRequest cfg bal ans req).FilledAlike ∨
        CoolsDown (handleExecutionRequest cfg bal ans req).effects ↔
      CoolingExit cfg bal ans req := by
  -- an exit before the band is checked has placed nothing and records nothing
  have hskip : ∀ r, ¬ (Handled.FilledAlike ⟨[.removeInFlight req.correlationId], r⟩ ∨
      CoolsDown [.removeInFlight req.correlationId]) := by
    rintro r (hfill | hcool)
    · exact not_filledAlike rfl hfill
    · exact not_coolsDown (by simp [ExecEffect.cools]) hcool
  unfold handleExecutionRequest CoolingExit
  cases hm : executionMetrics cfg.optimistic ans req with
  | error e => simpa using hskip (.error e)
  | ok m =>
    simp only [Except.ok.injEq, exists_eq_left']
    -- the total has risen to a dollar: the one early exit that cools down
    by_cases hgone : 1 ≤ m.totalCost
    · simp only [outOfBand_of_gone hgone, if_true, hgone, true_or, iff_true]
      exact .inr (coolsDown_missed [] req.correlationId)
    · simp only [hgone, if_false, false_or]
      cases hband : m.outOfBand with
      | true => simpa using hskip (.ok ())
      | false =>
        cases hsize : m.executionSize bal with
        | none => simpa using hskip (.ok ())
        | some size => simpa using placeOrders_exit cfg ans req m size

/-- A handling that does not cool down records nothing before it releases. -/
theorem release_uncooled {effects : List ExecEffect} (hr : Releases effects)
    (hno : ¬ CoolsDown effects) :
    ∃ pre e post, effects = pre ++ e :: post ∧ e.isRelease ∧ ∀ e ∈ pre, e.cools = false := by
  obtain ⟨e, he, hrel⟩ := hr
  obtain ⟨pre, post, rfl⟩ := List.append_of_mem he
  refine ⟨pre, e, post, rfl, hrel, fun e' he' => ?_⟩
  by_contra hcool
  obtain ⟨front, back, rfl⟩ := List.append_of_mem he'
  cases e' with
  | insertCooldown cid =>
    exact hno ⟨front, cid, back ++ e :: post, by simp, e, by simp, hrel⟩
  | _ => exact hcool rfl

namespace System

/-! ## §2 A pair that is sent has no cooldown entry -/

/-- The pair that `evaluate_arb` is at, once it has found no entry or removed one. -/
def cleared : CommsPc → Option CorrelationId
  | .evaluating (.checkPrices cid) => some cid
  | .evaluating (.trySend req) => some req.correlationId
  | _ => none

theorem pastCooldown_of_cleared {pc : CommsPc} {cid : CorrelationId} (h : cleared pc = some cid) :
    pastCooldown pc = some cid := by
  cases pc with
  | evaluating e => cases e <;> cases h <;> rfl
  | next => cases h
  | finding f => cases h
  | registering w => cases h

/-- The pair that is about to be sent, and the queued ones, have no cooldown entry. -/
structure Unrested (p : System) : Prop where
  sending : ∀ cid, cleared p.comms.pc = some cid → p.cooldown cid = none
  queued : ∀ req ∈ p.executionRx, p.cooldown req.correlationId = none

/-- A pair without an entry gets one only from the executor's record. -/
theorem cooldown_none_step {cfg : Config} {p q : System} {a : Action} {cid : CorrelationId}
    (h : step cfg p a = some q) (hnone : p.cooldown cid = none)
    (hexec : ∀ c rest, p.exec.pc ≠ .handling c (.insertCooldown cid :: rest)) :
    q.cooldown cid = none := by
  rcases step_cooldown_cases h with ⟨hsame, -⟩ | ⟨_, c, -, -, herase, -⟩ |
    ⟨handled, c, rest, -, hpc, hinsert, -⟩
  · rw [hsame, hnone]
  · rw [herase]
    by_cases hc : cid = c
    · subst hc
      exact PMap.erase_self _ _
    · rw [PMap.erase_of_ne _ hc, hnone]
  · have hne : cid ≠ c := by
      rintro rfl
      exact hexec handled rest hpc
    rw [hinsert, PMap.insert_of_ne _ hne, hnone]

/-- `evaluate_arb` is cleared for a pair by a step that leaves it without an entry. -/
theorem step_cleared {cfg : Config} {p q : System} {a : Action} {cid : CorrelationId}
    (h : step cfg p a = some q) (hq : cleared q.comms.pc = some cid) :
    cleared p.comms.pc = some cid ∨ q.cooldown cid = none := by
  rcases step_comms_cases h with ⟨msg, -, -, rfl⟩ | ⟨c, -, hc⟩ | hsame
  · -- a message starts no evaluation
    cases hq
  · obtain ⟨e, hpc, he⟩ := evaluating_of_pastCooldown (pastCooldown_of_cleared hq)
    obtain ⟨e₀, hp, rfl⟩ := commsStep_evaluating hc hpc he
    rw [hpc] at hq
    rcases evalStep_moves hpc with ⟨c', rfl, rfl, hnone, hgoto⟩ | ⟨c', t, rfl, rfl, -⟩ |
      ⟨c', rfl, rfl, herase⟩ | ⟨c', w, req, rfl, rfl, -, hreq, -⟩ | ⟨req, rfl, rfl⟩
    · -- it found no entry, or removed the one that was over
      cases hq
      refine .inr ?_
      rw [hgoto]
      exact hnone
    · cases hq
    · cases hq
      refine .inr ?_
      rw [herase]
      exact PMap.erase_self _ _
    · -- it was cleared before, and goes on with the request
      cases hq
      refine .inl ?_
      rw [hp, evaluate_correlationId hreq]
      rfl
    · cases hq
  · exact .inl (by rwa [← hsame.comms])

theorem unrested_init (fraction minSize : ℚ) : (init fraction minSize).Unrested where
  sending cid h := by cases h
  queued req h := by cases h

theorem Unrested.step {cfg : Config} {p q : System} {a : Action} (hp : p.Sound)
    (hu : p.Unrested) (h : System.step cfg p a = some q) : q.Unrested := by
  have hsending : ∀ cid, cleared p.comms.pc = some cid → q.cooldown cid = none :=
    fun cid hcid => cooldown_none_step h (hu.sending cid hcid) fun _ _ hpc =>
      hp.not_passed (hp.unreleased_of_cools hpc)
        (stage_of_pastCooldown (pastCooldown_of_cleared hcid))
  have hqueued : ∀ req ∈ p.executionRx, q.cooldown req.correlationId = none :=
    fun req hreq => cooldown_none_step h (hu.queued req hreq) fun _ _ hpc =>
      not_queued_of_unreleased hp.inv (hp.unreleased_of_cools hpc) req hreq rfl
  constructor
  · intro cid hcid
    exact (step_cleared h hcid).elim (hsending cid) id
  · intro req hreq
    rcases mem_executionRx_step h hreq with hreq | ⟨-, hpc, -⟩
    · exact hqueued req hreq
    · -- the request that is sent was cleared
      exact hsending _ (by rw [hpc]; rfl)

theorem unrested_run {cfg : Config} {fraction minSize : ℚ} {as : List Action} {p : System}
    (h : Lib.run (System.step cfg) (init fraction minSize) as = some p) : p.Sound ∧ p.Unrested :=
  run_invariant (I := fun s => s.Sound ∧ s.Unrested)
    (fun _ _ _ hs ht => ⟨hs.1.step ht, hs.2.step hs.1 ht⟩)
    ⟨sound_init fraction minSize, unrested_init fraction minSize⟩ h

/-! ## §3 From the receipt to the release -/

/-- The executor handles a request for `cid` that it took at `t₀`: until the flag is released
    the cooldown is still to be recorded, or it is stored. -/
def HandlingRest (cfg : Config) (cid : CorrelationId) (t₀ : ℕ) (s : System) : Prop :=
  t₀ ≤ s.instant ∧ ∃ effects, s.exec.pc = .handling cid effects ∧
    (Releases effects → CoolsDown effects ∨
      ∃ t, t₀ ≤ t ∧ s.cooldown cid = some t ∧ Resting cfg cid t s)

/-- What is left to cool down after an effect that records nothing. -/
theorem coolsDown_tail {e : ExecEffect} {rest : List ExecEffect} (he : e.cools = false)
    (h : CoolsDown (e :: rest)) : CoolsDown rest := by
  obtain ⟨pre, cid, post, heq, hr⟩ := h
  cases pre with
  | nil =>
    cases heq
    cases he
  | cons e' pre =>
    cases heq
    exact ⟨pre, cid, post, rfl, hr⟩

/-- Nobody but the executor touches the entry of a pair while its flag is held. -/
theorem entry_held {cfg : Config} {p q : System} {a : Action} {cid : CorrelationId} {t : ℕ}
    (hp : p.Sound) (hun : p.exec.pc.unreleased = some cid) (ht : p.cooldown cid = some t)
    (hexec : a = .execEffect → ∀ c rest, p.exec.pc ≠ .handling c (.insertCooldown cid :: rest))
    (h : System.step cfg p a = some q) : q.cooldown cid = some t := by
  rcases step_cooldown_cases h with ⟨hsame, -⟩ | ⟨_, c, -, hpc, herase, -⟩ |
    ⟨handled, c, rest, ha, hpc, hinsert, -⟩
  · rw [hsame, ht]
  · have hne : cid ≠ c := by
      rintro rfl
      exact hp.not_passed hun (by rw [hpc]; rfl)
    rw [herase, PMap.erase_of_ne _ hne, ht]
  · have hne : cid ≠ c := by
      rintro rfl
      exact hexec ha handled rest hpc
    rw [hinsert, PMap.insert_of_ne _ hne, ht]

/-- A handling that is not finished goes on as it is, or takes its next effect. -/
theorem handling_step {cfg : Config} {p q : System} {a : Action} {cid : CorrelationId}
    {effects : List ExecEffect} (hpc : p.exec.pc = .handling cid effects) (ha : a ≠ .execFinish)
    (h : System.step cfg p a = some q) :
    (a ≠ .execEffect ∧ q.exec.pc = .handling cid effects) ∨
    ∃ e rest, a = .execEffect ∧ effects = e :: rest ∧ q.exec.pc = .handling cid rest := by
  have hexec := step_executor h
  -- an effect is taken off the list; any other step leaves the executor where it is
  cases a with
  | execReceive ans =>
    obtain ⟨req, rest, x, -, hx, -⟩ := execReceive_cases h
    rw [(Executor.step_receive hx).1] at hpc
    cases hpc
  | execEffect =>
    obtain ⟨c, e, rest, x, hpc', hx, -, rfl⟩ := execEffect_cases h
    rw [hpc] at hpc'
    cases hpc'
    exact .inr ⟨e, rest, rfl, rfl, hx⟩
  | execFinish => exact absurd rfl ha
  | execRefresh f =>
    obtain ⟨x, hx, -⟩ := Option.map_eq_some_iff.mp h
    rw [(Executor.step_refresh hx).1] at hpc
    cases hpc
  | _ =>
    refine .inl ⟨by simp, ?_⟩
    rw [← hpc, Option.some.inj hexec]

theorem HandlingRest.step {cfg : Config} {p q : System} {a : Action} {cid : CorrelationId}
    {t₀ : ℕ} (hp : p.Sound) (hh : HandlingRest cfg cid t₀ p) (ha : a ≠ .execFinish)
    (h : System.step cfg p a = some q) : HandlingRest cfg cid t₀ q := by
  obtain ⟨hpast, effects, hpc, hrest⟩ := hh
  have hclock := instant_le_step h
  have hun : Releases effects → p.exec.pc.unreleased = some cid := by
    intro hr
    rw [hpc]
    exact if_pos hr
  refine ⟨hpast.trans hclock, ?_⟩
  rcases handling_step hpc ha h with ⟨hne, hq⟩ | ⟨e, rest, rfl, rfl, hq⟩
  · refine ⟨effects, hq, fun hr => ?_⟩
    rcases hrest hr with hcool | ⟨t, hle, ht, hresting⟩
    · exact .inl hcool
    · have ht' := entry_held hp (hun hr) ht (fun heq => absurd heq hne) h
      exact .inr ⟨t, hle, ht', hresting.step h⟩
  · refine ⟨rest, hq, fun hr => ?_⟩
    have hr' : Releases (e :: rest) := releases_cons.mpr (.inr hr)
    cases he : e.cools with
    | true =>
      -- the record itself
      cases e with
      | insertCooldown c =>
        have horderly := hp.orderly
        rw [hpc] at horderly
        obtain rfl : c = cid := horderly.2 _ (List.mem_cons_self ..) c rfl
        have hresting := resting_of_cools hp hpc h
        obtain ⟨c, e', rest', x, hpc', -, -, rfl⟩ := execEffect_cases h
        rw [hpc] at hpc'
        cases hpc'
        exact .inr ⟨p.instant, hpast, PMap.insert_self _ _ _, hresting⟩
      | _ => cases he
    | false =>
      rcases hrest hr' with hcool | ⟨t, hle, ht, hresting⟩
      · exact .inl (coolsDown_tail he hcool)
      · have hother : ∀ c rest, p.exec.pc ≠ .handling c (.insertCooldown cid :: rest) := by
          intro c rest' heq
          rw [hpc] at heq
          cases heq
          cases he
        exact .inr ⟨t, hle, entry_held hp (hun hr') ht (fun _ => hother) h, hresting.step h⟩

/-- The effects before the release take place without any other step in between. -/
theorem run_effects (cfg : Config) {cid : CorrelationId} {pre rest : List ExecEffect} {p : System}
    (hpc : p.exec.pc = .handling cid (pre ++ rest)) (hpre : ∀ e ∈ pre, e.cools = false) :
    ∃ r, run (System.step cfg) p (List.replicate pre.length .execEffect) = some r ∧
      r.exec.pc = .handling cid rest ∧ r.cooldown = p.cooldown := by
  induction pre generalizing p with
  | nil => exact ⟨p, rfl, hpc, rfl⟩
  | cons e pre ih =>
    have hstep : System.step cfg p .execEffect = some { p.applyEffect e with
        exec := ⟨e.onBalances p.exec.balances, .handling cid (pre ++ rest)⟩ } := by
      simp [System.step, hpc, Executor.step]
    obtain ⟨r, hr, hpcr, hcool⟩ := ih (p := { p.applyEffect e with
      exec := ⟨e.onBalances p.exec.balances, .handling cid (pre ++ rest)⟩ }) rfl
      fun e' he' => hpre e' (List.mem_cons_of_mem _ he')
    refine ⟨r, run_cons.mpr ⟨_, hstep, hr⟩, hpcr, hcool.trans ?_⟩
    cases e with
    | insertCooldown c => cases hpre (.insertCooldown c) (List.mem_cons_self ..)
    | _ => rfl

/-! ## §4 Failed executions -/

/-- When the request that is taken now is released, the pair is on a cooldown recorded since,
    and until that is over no request for it is enqueued. -/
def RestsOnRelease (cfg : Config) (p : System) (ans : ExecAnswers) (req : ExecutionRequest) :
    Prop :=
  ∀ q bs r, step cfg p (.execReceive ans) = some q → (∀ b ∈ bs, b ≠ .execFinish) →
    run (step cfg) q bs = some r → r.Releasing req.correlationId →
    ∃ t, p.instant ≤ t ∧ r.cooldown req.correlationId = some t ∧
      ∀ cs u a s req', run (step cfg) r cs = some u → step cfg u a = some s →
        s.executionRx = u.executionRx ++ [req'] → req'.correlationId = req.correlationId →
        t + cfg.cooldownDuration ≤ u.instant

/-- A handling that cools down releases a pair at rest. -/
theorem rests_of_coolsDown {cfg : Config} {p : System} {ans : ExecAnswers}
    {req : ExecutionRequest} (hp : p.Sound) (hreq : p.Receives req)
    (hcool : CoolsDown (handleExecutionRequest cfg p.exec.balances ans req).effects) :
    RestsOnRelease cfg p ans req := by
  intro q bs r hq hbs hr hrel
  obtain ⟨req', rest, x, hrx, hx, rfl⟩ := execReceive_cases hq
  obtain rfl : req' = req := by simpa [hrx] using hreq.2
  obtain ⟨-, rfl⟩ := Executor.step_receive hx
  have hstart : HandlingRest cfg req'.correlationId p.instant
      { p with executionRx := rest, exec := { p.exec with pc := p.exec.handle cfg req' ans } } :=
    ⟨le_rfl, _, rfl, fun _ => .inl hcool⟩
  have hinv := run_invariant_along (P := fun _ a => a ≠ .execFinish)
    (I := fun s => s.Sound ∧ HandlingRest cfg req'.correlationId p.instant s)
    (fun _ _ _ hs ha ht => ⟨hs.1.step ht, hs.2.step hs.1 ha ht⟩) ⟨hp.step hq, hstart⟩
    (along_of_forall_mem (fun b hb _ => hbs b hb) _) hr
  obtain ⟨hsound, -, effects, hpc, hrest⟩ := hinv
  obtain ⟨c, rest', hpc'⟩ := hrel
  rw [hpc] at hpc'
  cases hpc'
  have horderly := hsound.orderly
  rw [hpc] at horderly
  rcases hrest (releases_cons.mpr (.inl rfl)) with hcool' | ⟨t, hle, ht, hresting⟩
  · -- a record still to come would have a second release after it
    obtain ⟨pre, _, post, rfl, e', he', hrel'⟩ := coolsDown_tail rfl hcool'
    exact absurd ⟨e', by simp [he'], hrel'⟩ (horderly.1.2.1 rfl)
  · exact ⟨t, hle, ht, fun cs u a s req'' hu hs hrx hid =>
      (hresting.run hu).not_enqueued hs hrx hid⟩

/-- A handling that records nothing releases a pair that has no cooldown entry at all. -/
theorem not_rests_of_not_coolsDown {cfg : Config} {p : System} {ans : ExecAnswers}
    {req : ExecutionRequest} (hu : p.Unrested) (hreq : p.Receives req)
    (hno : ¬ CoolsDown (handleExecutionRequest cfg p.exec.balances ans req).effects) :
    ¬ RestsOnRelease cfg p ans req := by
  intro hrests
  obtain ⟨-, hreleases, -⟩ := handleExecutionRequest_shape cfg p.exec.balances ans req
  obtain ⟨pre, e, post, heffects, he, hpre⟩ := release_uncooled hreleases hno
  have hown : e.Of req.correlationId :=
    handleExecutionRequest_own cfg p.exec.balances ans req e (by simp [heffects])
  obtain rfl := hown.isRelease_iff.mp he
  obtain ⟨rest, hrx⟩ : ∃ rest, p.executionRx = req :: rest := by
    cases hrx : p.executionRx with
    | nil => simp [Receives, hrx] at hreq
    | cons req' rest => exact ⟨rest, by simpa [Receives, hrx] using hreq.2⟩
  have hq : step cfg p (.execReceive ans) = some { p with
      executionRx := rest, exec := { p.exec with pc := p.exec.handle cfg req ans } } := by
    simp [step, hrx, Executor.step, hreq.1]
  have hpc : p.exec.handle cfg req ans =
      .handling req.correlationId (pre ++ .removeInFlight req.correlationId :: post) := by
    rw [Executor.handle, heffects]
  obtain ⟨r, hr, hpcr, hcool⟩ := run_effects cfg (p := { p with
    executionRx := rest, exec := { p.exec with pc := p.exec.handle cfg req ans } }) hpc hpre
  obtain ⟨t, -, ht, -⟩ := hrests _ _ r hq (fun b hb => by
    rw [List.eq_of_mem_replicate hb]
    simp) hr ⟨_, post, hpcr⟩
  -- the entry would be one that the send has found
  have hnone : p.cooldown req.correlationId = none := hu.queued req (by simp [hrx])
  rw [hcool, hnone] at ht
  cases ht

/-- **Failed executions rest** exactly at the cooling exits: for every request that the executor
    takes in a reachable state, and every answer of the venues, an execution that does not fill
    both legs alike releases the pair on a cooldown that is respected, if and only if the
    handling leaves by a cooling exit. -/
theorem failed_execution_rests_iff {cfg : Config} {fraction minSize : ℚ} {as : List Action}
    {p : System} (h : run (step cfg) (init fraction minSize) as = some p)
    {req : ExecutionRequest} (hreq : p.Receives req) (ans : ExecAnswers) :
    (¬ (handleExecutionRequest cfg p.exec.balances ans req).FilledAlike →
        RestsOnRelease cfg p ans req) ↔
      CoolingExit cfg p.exec.balances ans req := by
  obtain ⟨hp, hu⟩ := unrested_run h
  rw [← coolingExit_iff, or_iff_not_imp_left]
  constructor
  · intro hrests hfill
    by_contra hno
    exact not_rests_of_not_coolsDown hu hreq hno (hrests hfill)
  · intro hcool hfill
    exact rests_of_coolsDown hp hreq (hcool hfill)

/-- The sample request is at the executor. -/
def receivedSteps : List Action := flaggedSteps ++ [refreshFunds]

/-- Both orders of the sample request are unanswered, and the pair rests. -/
theorem failed_execution_rests_sample :
    ∃ p req, run (step httpConfig) (init (1 / 5) 2) receivedSteps = some p ∧ p.Receives req ∧
      ¬ (handleExecutionRequest httpConfig p.exec.balances silentAnswers req).FilledAlike ∧
      RestsOnRelease httpConfig p silentAnswers req := by
  have hrun : (run (step httpConfig) (init (1 / 5) 2) receivedSteps).any (fun p =>
      p.exec.pc.isIdle && p.executionRx.head?.any fun req =>
        decide (CoolingExit httpConfig p.exec.balances silentAnswers req) &&
        decide (¬ (handleExecutionRequest httpConfig p.exec.balances silentAnswers
          req).FilledAlike)) = true := by decide +kernel
  obtain ⟨p, hp, hcheck⟩ := (Option.any_eq_true _ _).mp hrun
  rw [Bool.and_eq_true, Option.any_eq_true] at hcheck
  obtain ⟨hidle, req, hhead, hexit⟩ := hcheck
  rw [Bool.and_eq_true, decide_eq_true_eq, decide_eq_true_eq] at hexit
  have hreq : p.Receives req := ⟨ExecPc.isIdle_iff.mp hidle, hhead⟩
  exact ⟨p, req, hp, hreq, hexit.2,
    (failed_execution_rests_iff hp hreq silentAnswers).mpr hexit.1 hexit.2⟩

/-- Fifty contracts are filled on Kalshi and none on Polymarket; the excess is hedged, the flag
    released, and a ticker message leads up to the next send, all within one millisecond. -/
def hedgedSteps : List Action :=
  .execReceive (filledAnswers "50.00" 0) :: List.replicate 6 .execEffect ++
    [.execFinish, refreshFunds, receiveTicker 1, commsWith ["x"], commsOne, commsOne, commsOne]

/-- **A hedged pair is sent again** at once. -/
theorem hedged_pair_sent_again :
    ∃ p req q req', run (step httpConfig) (init (1 / 5) 2) receivedSteps = some p ∧
      p.Receives req ∧
      ¬ (handleExecutionRequest httpConfig p.exec.balances (filledAnswers "50.00" 0)
        req).FilledAlike ∧
      run (step httpConfig) p hedgedSteps = some q ∧ q.Enqueues req' ∧
      req'.correlationId = req.correlationId ∧ q.instant = p.instant := by
  have hrun : (run (step httpConfig) (init (1 / 5) 2) receivedSteps).any (fun p =>
      p.exec.pc.isIdle && p.executionRx.head?.any fun req =>
        decide (¬ (handleExecutionRequest httpConfig p.exec.balances (filledAnswers "50.00" 0)
          req).FilledAlike) &&
        (run (step httpConfig) p hedgedSteps).any fun q =>
          q.comms.pc.sending.any fun req' =>
            decide (q.executionRx.length < executionCapacity) &&
            decide (req'.correlationId = req.correlationId) &&
            decide (q.instant = p.instant)) = true := by
    decide +kernel
  -- the run stops at the receipt, then at the send of the next request
  obtain ⟨p, hp, hcheck⟩ := (Option.any_eq_true _ _).mp hrun
  rw [Bool.and_eq_true, Option.any_eq_true] at hcheck
  obtain ⟨hidle, req, hhead, hexit⟩ := hcheck
  rw [Bool.and_eq_true, decide_eq_true_eq, Option.any_eq_true] at hexit
  obtain ⟨hfill, q, hq, hsends⟩ := hexit
  obtain ⟨req', hreq', hsend⟩ := (Option.any_eq_true _ _).mp hsends
  have hpc := CommsPc.sending_eq_some.mp hreq'
  simp only [Bool.and_eq_true, decide_eq_true_eq] at hsend
  obtain ⟨⟨hroom, hid⟩, hinst⟩ := hsend
  exact ⟨p, req, q, req', hp, ⟨ExecPc.isIdle_iff.mp hidle, hhead⟩, hfill, hq, ⟨hpc, hroom⟩,
    hid, hinst⟩

end System

end Degenerate.Picker
