import Degenerate.Picker.InFlight

/-!
# Cooldowns

The executor records a cooldown for a pair while it still holds the pair's in-flight
flag, and releases the flag afterwards.  `evaluate_arb` tests the flag first and reads
the cooldown second, so by the time it reads the entry nobody can write it any more:

- a pair is not sent before its cooldown is over, in every interleaving;
- an entry that was found expired is still the same when it is removed.

## Main Results

- `cooldown_respected`
-/

namespace Degenerate.Picker

open Degenerate.Lib

/-! ## §1 The executor records before it releases -/

/-- The effect records a cooldown. -/
def ExecEffect.cools : ExecEffect → Bool
  | .insertCooldown _ => true
  | _ => false

/-- Every cooldown is recorded while the release is still to come. -/
def CoolsFirst : List ExecEffect → Prop
  | [] => True
  | e :: rest => CoolsFirst rest ∧ (e.cools → Releases rest)

/-- Effects that record no cooldown. -/
theorem coolsFirst_of_none {effects : List ExecEffect} (h : ∀ e ∈ effects, e.cools = false) :
    CoolsFirst effects := by
  induction effects with
  | nil => trivial
  | cons e rest ih =>
    refine ⟨ih fun e' he' => h e' (List.mem_cons_of_mem _ he'), fun he => ?_⟩
    rw [h e (List.mem_cons_self ..)] at he
    cases he

/-- Only the exit without any fill records a cooldown after the orders. -/
theorem afterFills_cools (ans : ExecAnswers) (req : ExecutionRequest) (anchor «match» : Buy) :
    (afterFills ans req anchor «match»).effects =
        [.insertCooldown req.correlationId, .removeInFlight req.correlationId] ∨
      ∀ e ∈ (afterFills ans req anchor «match»).effects, e.cools = false := by
  rcases afterFills_cases ans req anchor «match» with h | ⟨ebo, h⟩ | ⟨ebo, hedge, ebos, h⟩
  · exact .inl h
  · refine .inr fun e he => ?_
    rw [h] at he
    simp only [List.mem_cons, List.not_mem_nil, or_false] at he
    rcases he with rfl | rfl <;> rfl
  · refine .inr fun e he => ?_
    rw [h] at he
    simp only [List.cons_append, List.mem_cons, List.mem_append, List.mem_map, List.not_mem_nil,
      or_false] at he
    rcases he with rfl | rfl | ⟨_, -, rfl⟩ | rfl <;> rfl

/-- **Recorded, then released**: in every handling. -/
theorem handleExecutionRequest_coolsFirst (cfg : Config) (bal : BalanceTracker)
    (ans : ExecAnswers) (req : ExecutionRequest) :
    CoolsFirst (handleExecutionRequest cfg bal ans req).effects := by
  -- both failing exits insert the cooldown before the flag goes
  have hmissed : CoolsFirst [.insertCooldown req.correlationId,
      .removeInFlight req.correlationId] := by
    simp [CoolsFirst, Releases, ExecEffect.cools, ExecEffect.isRelease]
  rcases handleExecutionRequest_cases cfg bal ans req with h | h | ⟨m, size, -, -, -, h⟩
  · rw [h]
    simp [CoolsFirst, ExecEffect.cools]
  · rw [h]
    exact hmissed
  · have hrest : CoolsFirst (afterFills ans req
        (buyLeg cfg ans.anchorVenue req.correlationId req.anchor size m.anchorPrice)
        (buyLeg cfg ans.matchVenue req.correlationId req.match size m.matchPrice)).effects := by
      rcases afterFills_cools ans req _ _ with hcool | hnone
      · rw [hcool]
        exact hmissed
      · exact coolsFirst_of_none hnone
    rw [h]
    simpa [placeOrders, CoolsFirst, ExecEffect.cools] using hrest

/-- The remaining effects of a handling record before they release. -/
def ExecPc.CoolsFirst : ExecPc → Prop
  | .handling _ effects => Picker.CoolsFirst effects
  | _ => True

/-- The record of a cooldown that the executor is about to make, and what it does afterwards. -/
def ExecPc.recording : ExecPc → Option (CorrelationId × List ExecEffect)
  | .handling _ (.insertCooldown cid :: rest) => some (cid, rest)
  | _ => none

theorem ExecPc.recording_eq_some {pc : ExecPc} {cid : CorrelationId} {rest : List ExecEffect} :
    pc.recording = some (cid, rest) ↔ ∃ c, pc = .handling c (.insertCooldown cid :: rest) := by
  unfold recording
  split
  · simp
  · rename_i hno
    refine ⟨fun h => (by cases h), ?_⟩
    rintro ⟨c, rfl⟩
    exact absurd rfl (hno c cid rest)

theorem Executor.coolsFirst_step {cfg : Config} {x x' : Executor} {a : ExecAction}
    (hc : x.pc.CoolsFirst) (h : x.step cfg a = some x') : x'.pc.CoolsFirst := by
  rcases step_cases h with ⟨req, ans, -, -, rfl⟩ | ⟨cid, e, rest, -, hpc, rfl⟩ | ⟨cid, -, -, rfl⟩ |
    ⟨f, -, -, rfl⟩
  · exact handleExecutionRequest_coolsFirst cfg x.balances ans req
  · rw [hpc] at hc
    exact hc.1
  · trivial
  · trivial

/-- An executor that records a cooldown still holds the flag of the pair. -/
theorem ExecPc.unreleased_of_cools {c cid : CorrelationId} {rest : List ExecEffect}
    (ho : (ExecPc.handling c (.insertCooldown cid :: rest)).Orderly)
    (hc : (ExecPc.handling c (.insertCooldown cid :: rest)).CoolsFirst) :
    (ExecPc.handling c (.insertCooldown cid :: rest)).unreleased = some cid := by
  obtain rfl : cid = c := ho.2 _ (List.mem_cons_self ..) cid rfl
  exact if_pos (releases_cons.mpr (.inr (hc.2 rfl)))

namespace System

/-- What holds of every reachable state: the order of the effects, and the flagged queue. -/
structure Sound (p : System) : Prop where
  orderly : p.exec.pc.Orderly
  coolsFirst : p.exec.pc.CoolsFirst
  inv : p.queue.Inv

theorem sound_init (fraction minSize : ℚ) : (init fraction minSize).Sound :=
  ⟨(inv_init fraction minSize).1, trivial, (inv_init fraction minSize).2⟩

theorem Sound.run {cfg : Config} {p q : System} {as : List Action} (hp : p.Sound)
    (h : Lib.run (step cfg) p as = some q) : q.Sound := by
  obtain ⟨ho, hi⟩ := queue_inv_run ⟨hp.orderly, hp.inv⟩ h
  exact ⟨ho, run_invariant (fun _ _ _ => Executor.coolsFirst_step) hp.coolsFirst
    (run_executor h), hi⟩

theorem Sound.step {cfg : Config} {p q : System} {a : Action} (hp : p.Sound)
    (h : System.step cfg p a = some q) : q.Sound :=
  hp.run (run_cons.mpr ⟨q, h, run_nil _ q⟩)

/-- The pair of a cooldown that is about to be recorded is not released yet. -/
theorem Sound.unreleased_of_cools {p : System} (hp : p.Sound) {c cid : CorrelationId}
    {rest : List ExecEffect} (hpc : p.exec.pc = .handling c (.insertCooldown cid :: rest)) :
    p.exec.pc.unreleased = some cid := by
  have ho := hp.orderly
  have hc := hp.coolsFirst
  rw [hpc] at ho hc ⊢
  exact ExecPc.unreleased_of_cools ho hc

/-- Comms is not inside `evaluate_arb` for a pair whose flag the executor holds, before the
    send. -/
theorem Sound.not_passed {p : System} (hp : p.Sound) {cid : CorrelationId}
    (hun : p.exec.pc.unreleased = some cid) : p.comms.pc.stage ≠ .passed cid := by
  intro hs
  have hfresh := hp.inv.fresh cid hs
  simp [FlaggedQueue.outstanding, queue, hun] at hfresh

/-! ## §2 What a step does to the cooldowns -/

/-- The pair that `evaluate_arb` is at, once it has read the cooldown and not sent yet. -/
def pastCooldown : CommsPc → Option CorrelationId
  | .evaluating (.removeCooldown cid) => some cid
  | .evaluating (.checkPrices cid) => some cid
  | .evaluating (.trySend req) => some req.correlationId
  | _ => none

/-- Past the cooldown, comms is inside `evaluate_arb`, behind the read of the entry. -/
theorem evaluating_of_pastCooldown {pc : CommsPc} {cid : CorrelationId}
    (h : pastCooldown pc = some cid) :
    ∃ e, pc = .evaluating e ∧ ∀ cid, e ≠ .readCooldown cid := by
  cases pc with
  | evaluating e =>
    refine ⟨e, rfl, ?_⟩
    rintro c rfl
    cases h
  | next => cases h
  | finding f => cases h
  | registering w => cases h

theorem stage_of_pastCooldown {pc : CommsPc} {cid : CorrelationId}
    (h : pastCooldown pc = some cid) : pc.stage = .passed cid := by
  obtain ⟨e, rfl, -⟩ := evaluating_of_pastCooldown h
  cases e <;> cases h <;> rfl

/-- The cooldown of `cid`, as the clock stands, does not hold the pair back. -/
def Expired (cfg : Config) (p : System) (cid : CorrelationId) : Prop :=
  ∀ t, p.cooldown cid = some t → cfg.cooldownDuration ≤ p.instant - t

/-- No operation touches the cooldowns or the clock. -/
theorem opStep_clock {cfg : Config} {c : Choice} {p q : System} {op : CommsOp}
    (h : opStep cfg c p op = some q) : q.cooldown = p.cooldown ∧ q.instant = p.instant := by
  cases op with
  -- prices, lookups and sends write other parts of the state
  | onPriceUpdate key tob =>
    simp only [opStep] at h
    split at h
    · split at h
      · cases h; exact ⟨rfl, rfl⟩
      · cases h
    · cases h; exact ⟨rfl, rfl⟩
  | evaluateArb cid =>
    simp only [opStep] at h
    split at h <;> cases h <;> exact ⟨rfl, rfl⟩
  | marketResolved assetId =>
    simp only [opStep] at h
    split at h
    · cases h; exact ⟨rfl, rfl⟩
    · cases h
  | marketLifecycle event =>
    simp only [opStep] at h
    split at h
    · cases h; exact ⟨rfl, rfl⟩
    · cases h
  -- the operations on the book
  | updateCloseTime key cid closeTs => cases h; exact ⟨rfl, rfl⟩
  | unregisterArb cid => cases h; exact ⟨rfl, rfl⟩
  | findArb arb cid =>
    cases h
    simp only [findArb]
    split
    · split <;> exact ⟨rfl, rfl⟩
    · exact ⟨rfl, rfl⟩
  | seedTobFromHttp leg =>
    simp only [opStep] at h
    split at h <;> cases h <;> exact ⟨rfl, rfl⟩
  | resolveDiscovered arb =>
    simp only [opStep] at h
    split at h <;> cases h <;> exact ⟨rfl, rfl⟩
  | send ebo => cases h; exact ⟨rfl, rfl⟩

/-- What a step does to the map of cooldowns and to the clock: nothing but let time pass, the
    removal by comms, or the record of the executor. -/
theorem step_cooldown_cases {cfg : Config} {p q : System} {a : Action}
    (h : step cfg p a = some q) :
    (q.cooldown = p.cooldown ∧ p.instant ≤ q.instant) ∨
    (∃ c cid, a = .comms c ∧ p.comms.pc = .evaluating (.removeCooldown cid) ∧
      q.cooldown = p.cooldown.erase cid ∧ q.instant = p.instant) ∨
    (∃ c cid rest, a = .execEffect ∧ p.exec.pc = .handling c (.insertCooldown cid :: rest) ∧
      q.cooldown = p.cooldown.insert cid p.instant ∧ q.instant = p.instant) := by
  cases a with
  | receive msg =>
    obtain ⟨-, rfl⟩ := receive_cases h
    exact .inl ⟨rfl, le_rfl⟩
  | comms c =>
    -- of the comms task only `evaluate_arb` removes an entry
    rcases commsStep_cases h with ⟨e, he, rfl⟩ | ⟨f, hf, rfl⟩ | ⟨w, hw, rfl⟩ |
      ⟨op, rest, -, -, hop⟩
    · cases e with
      | readCooldown cid =>
        simp only [evalStep]
        split
        · exact .inl ⟨rfl, le_rfl⟩
        · split <;> exact .inl ⟨rfl, le_rfl⟩
      | removeCooldown cid => exact .inr (.inl ⟨c, cid, rfl, he, rfl, rfl⟩)
      | checkPrices cid =>
        simp only [evalStep]
        split
        · exact .inl ⟨rfl, le_rfl⟩
        · split <;> exact .inl ⟨rfl, le_rfl⟩
      | trySend req =>
        simp only [evalStep]
        split <;> exact .inl ⟨rfl, le_rfl⟩
      | insertInFlight cid => exact .inl ⟨rfl, le_rfl⟩
    · cases hcall : f.call <;> exact .inl (by simp [findStep, addStep, hcall, goto])
    · exact .inl ⟨rfl, le_rfl⟩
    · obtain ⟨hcool, hinst⟩ := opStep_clock hop
      exact .inl ⟨hcool, hinst.ge⟩
  -- of the executor only the record writes one
  | execReceive ans =>
    obtain ⟨_, _, _, -, -, rfl⟩ := execReceive_cases h
    exact .inl ⟨rfl, le_rfl⟩
  | execEffect =>
    obtain ⟨c, e, rest, x, hpc, -, -, rfl⟩ := execEffect_cases h
    cases e with
    | insertCooldown cid => exact .inr (.inr ⟨c, cid, rest, rfl, hpc, rfl, rfl⟩)
    | _ => exact .inl ⟨rfl, le_rfl⟩
  | execFinish =>
    obtain ⟨x, -, rfl⟩ := Option.map_eq_some_iff.mp h
    exact .inl ⟨rfl, le_rfl⟩
  | execRefresh f =>
    obtain ⟨x, -, rfl⟩ := Option.map_eq_some_iff.mp h
    exact .inl ⟨rfl, le_rfl⟩
  -- the other tasks have neither the map nor the clock
  | delTask i sendOk =>
    simp only [step, taskStep] at h
    split at h
    · cases h
    · rename_i task _
      cases h
      cases task <;> exact .inl ⟨rfl, le_rfl⟩
  | subscribedResponse channel sid =>
    cases h
    exact .inl ⟨rfl, le_rfl⟩
  | tick ms =>
    cases h
    exact .inl ⟨rfl, Nat.le_add_right _ _⟩

/-- `evaluate_arb` gets past the cooldown of a pair only if it reads none, or one that is over. -/
theorem step_pastCooldown {cfg : Config} {p q : System} {a : Action} {cid : CorrelationId}
    (h : step cfg p a = some q) (hq : pastCooldown q.comms.pc = some cid) :
    pastCooldown p.comms.pc = some cid ∨
      (p.comms.pc = .evaluating (.readCooldown cid) ∧ p.Expired cfg cid ∧
        q.cooldown = p.cooldown ∧ q.instant = p.instant) := by
  rcases step_comms_cases h with ⟨msg, -, -, rfl⟩ | ⟨c, -, hc⟩ | hsame
  · cases hq
  · obtain ⟨e, hpc, he⟩ := evaluating_of_pastCooldown hq
    obtain ⟨e₀, hp, rfl⟩ := commsStep_evaluating hc hpc he
    rw [hpc] at hq
    rcases evalStep_moves hpc with ⟨c', rfl, rfl, hnone, hgoto⟩ |
      ⟨c', t, rfl, rfl, ht, hover, hgoto⟩ | ⟨c', rfl, rfl, -⟩ | ⟨c', w, req, rfl, rfl, -, hreq, -⟩ |
      ⟨req, rfl, rfl⟩
    · cases hq
      rw [hgoto]
      refine .inr ⟨hp, fun t ht => ?_, rfl, rfl⟩
      rw [hnone] at ht
      cases ht
    · -- the entry was read, and is over
      cases hq
      rw [hgoto]
      refine .inr ⟨hp, fun t' ht' => ?_, rfl, rfl⟩
      obtain rfl : t = t' := Option.some.inj (ht.symm.trans ht')
      exact hover
    · cases hq
      exact .inl (by rw [hp]; rfl)
    · cases hq
      refine .inl ?_
      rw [hp, evaluate_correlationId hreq]
      rfl
    · cases hq
  · exact .inl (by rwa [← hsame.comms])

/-- Time does not run backwards. -/
theorem instant_le_step {cfg : Config} {p q : System} {a : Action} (h : step cfg p a = some q) :
    p.instant ≤ q.instant := by
  rcases step_cooldown_cases h with ⟨-, hle⟩ | ⟨_, _, -, -, -, he⟩ | ⟨_, _, _, -, -, -, he⟩
  · exact hle
  · exact he.ge
  · exact he.ge

/-! ## §3 A recorded cooldown is respected -/

/-- A cooldown for `cid` was recorded at `t₀`: until it is over, an entry at least as new is
    stored, and comms is not past it. -/
structure Resting (cfg : Config) (cid : CorrelationId) (t₀ : ℕ) (p : System) : Prop where
  past : t₀ ≤ p.instant
  entry : p.instant < t₀ + cfg.cooldownDuration → ∃ t, p.cooldown cid = some t ∧ t₀ ≤ t
  held : p.instant < t₀ + cfg.cooldownDuration → pastCooldown p.comms.pc ≠ some cid

/-- The record of a cooldown starts the rest. -/
theorem resting_of_cools {cfg : Config} {p q : System} (hp : p.Sound) {c cid : CorrelationId}
    {rest : List ExecEffect} (hpc : p.exec.pc = .handling c (.insertCooldown cid :: rest))
    (h : step cfg p .execEffect = some q) : Resting cfg cid p.instant q := by
  obtain ⟨_, e, rest', x, hpc', -, -, rfl⟩ := execEffect_cases h
  rw [hpc] at hpc'
  cases hpc'
  have hun : p.exec.pc.unreleased = some cid := hp.unreleased_of_cools hpc
  -- the executor holds the flag, so comms is not inside `evaluate_arb` for the pair
  exact ⟨le_rfl, fun _ => ⟨p.instant, PMap.insert_self _ _ _, le_rfl⟩,
    fun _ hpast => hp.not_passed hun (stage_of_pastCooldown hpast)⟩

theorem Resting.step {cfg : Config} {p q : System} {a : Action} {cid : CorrelationId} {t₀ : ℕ}
    (hr : Resting cfg cid t₀ p) (h : step cfg p a = some q) : Resting cfg cid t₀ q := by
  have hclock := instant_le_step h
  refine ⟨hr.past.trans hclock, fun hlt => ?_, fun hlt hpast => ?_⟩
  · obtain ⟨t, ht, hle⟩ := hr.entry (hclock.trans_lt hlt)
    rcases step_cooldown_cases h with ⟨hsame, -⟩ | ⟨_, c, -, hpc, herase, -⟩ |
      ⟨_, c, _, -, -, hinsert, -⟩
    · exact ⟨t, by rw [hsame, ht], hle⟩
    · -- comms removes the entry of another pair
      have hne : cid ≠ c := by
        rintro rfl
        exact hr.held (hclock.trans_lt hlt) (by rw [hpc]; rfl)
      exact ⟨t, by rw [herase, PMap.erase_of_ne _ hne, ht], hle⟩
    · by_cases hc : cid = c
      · subst hc
        exact ⟨p.instant, by rw [hinsert, PMap.insert_self], hr.past⟩
      · exact ⟨t, by rw [hinsert, PMap.insert_of_ne _ hc, ht], hle⟩
  · rcases step_pastCooldown h hpast with hold | ⟨-, hover, -, hinst⟩
    · exact hr.held (hclock.trans_lt hlt) hold
    · -- the entry that comms has read is not over
      obtain ⟨t, ht, hle⟩ := hr.entry (hclock.trans_lt hlt)
      have := hover t ht
      have := hr.past
      omega

theorem Resting.run {cfg : Config} {p q : System} {as : List Action} {cid : CorrelationId}
    {t₀ : ℕ} (hr : Resting cfg cid t₀ p) (h : Lib.run (System.step cfg) p as = some q) :
    Resting cfg cid t₀ q :=
  run_invariant (fun _ _ _ hs ht => hs.step ht) hr h

/-- A pair at rest is not sent before its cooldown is over. -/
theorem Resting.not_enqueued {cfg : Config} {p q : System} {a : Action} {cid : CorrelationId}
    {t₀ : ℕ} (hr : Resting cfg cid t₀ p) (h : System.step cfg p a = some q)
    {req : ExecutionRequest} (hrx : q.executionRx = p.executionRx ++ [req])
    (hid : req.correlationId = cid) : t₀ + cfg.cooldownDuration ≤ p.instant := by
  by_contra hlt
  refine hr.held (not_le.mp hlt) ?_
  rw [(enqueue_cases h hrx).2.1, ← hid]
  rfl

/-- From the read of an expired entry to its removal nobody else writes it. -/
theorem removal_undisturbed {cfg : Config} {p q r : System} {c : Choice} {as : List Action}
    {cid : CorrelationId} (hp : p.Sound) (hpc : p.comms.pc = .evaluating (.readCooldown cid))
    (hstep : step cfg p (.comms c) = some q)
    (hremove : q.comms.pc = .evaluating (.removeCooldown cid))
    (hother : ∀ a ∈ as, ∀ c, a ≠ .comms c) (hrun : run (step cfg) q as = some r) :
    r.cooldown cid = p.cooldown cid := by
  have hq : q.cooldown = p.cooldown := by
    have hremoving : pastCooldown q.comms.pc = some cid := by
      rw [hremove]
      rfl
    rcases step_pastCooldown hstep hremoving with hpast | ⟨-, -, hsame, -⟩
    · rw [hpc] at hpast
      cases hpast
    · exact hsame
  have hsound : q.Sound := hp.step hstep
  have hinv : r.Sound ∧ r.comms.pc = .evaluating (.removeCooldown cid) ∧
      r.cooldown cid = p.cooldown cid := by
    refine run_invariant_along (P := fun _ a => ∀ c, a ≠ .comms c) (I := fun s : System =>
      s.Sound ∧ s.comms.pc = .evaluating (.removeCooldown cid) ∧ s.cooldown cid = p.cooldown cid)
      (fun s a t hs ha ht => ?_) ⟨hsound, hremove, by rw [hq]⟩
      (along_of_forall_mem (fun a ha _ => hother a ha) q) hrun
    obtain ⟨hsnd, hs, hcool⟩ := hs
    refine ⟨hsnd.step ht, ?_, ?_⟩
    · rcases step_comms_cases ht with ⟨_, -, hbetween, -⟩ | ⟨c, rfl, -⟩ | hsame
      · rw [pc_of_betweenMessages hbetween] at hs
        cases hs
      · exact absurd rfl (ha c)
      · rw [hsame.comms, hs]
    · rcases step_cooldown_cases ht with ⟨hsame, -⟩ | ⟨c, _, rfl, -, -, -⟩ |
        ⟨_, c, rest, -, hex, hinsert, -⟩
      · rw [hsame, hcool]
      · exact absurd rfl (ha c)
      · -- the executor would hold the flag of a pair that comms found without one
        have hne : cid ≠ c := by
          rintro rfl
          exact hsnd.not_passed (hsnd.unreleased_of_cools hex) (by rw [hs]; rfl)
        rw [hinsert, PMap.insert_of_ne _ hne, hcool]
  exact hinv.2.2

/-- **Cooldowns are respected** in every interleaving: from the record of a cooldown for `cid`
    at `t` no request for `cid` is enqueued before `t + cooldown_duration`; and the entry that
    `evaluate_arb` removes is the expired one that it has read. -/
theorem cooldown_respected {cfg : Config} {fraction minSize : ℚ} {as : List Action} {p : System}
    (h : run (step cfg) (init fraction minSize) as = some p) (cid : CorrelationId) :
    (∀ c rest q bs r a s req, p.exec.pc = .handling c (.insertCooldown cid :: rest) →
      step cfg p .execEffect = some q → run (step cfg) q bs = some r →
      step cfg r a = some s → s.executionRx = r.executionRx ++ [req] →
      req.correlationId = cid → p.instant + cfg.cooldownDuration ≤ r.instant) ∧
    (∀ c q bs r, p.comms.pc = .evaluating (.readCooldown cid) →
      step cfg p (.comms c) = some q → q.comms.pc = .evaluating (.removeCooldown cid) →
      (∀ a ∈ bs, ∀ c, a ≠ .comms c) → run (step cfg) q bs = some r →
      r.cooldown cid = p.cooldown cid ∧ p.Expired cfg cid) := by
  have hp : p.Sound := (sound_init fraction minSize).run h
  constructor
  · intro c rest q bs r a s req hpc hq hr hs hrx hid
    exact ((resting_of_cools hp hpc hq).run hr).not_enqueued hs hrx hid
  · intro c q bs r hpc hq hremove hother hr
    refine ⟨removal_undisturbed hp hpc hq hremove hother hr, ?_⟩
    have hremoving : pastCooldown q.comms.pc = some cid := by
      rw [hremove]
      rfl
    rcases step_pastCooldown hq hremoving with hpast | ⟨-, hover, -, -⟩
    · rw [hpc] at hpast
      cases hpast
    · exact hover

/-- The sample request is taken, and missed on both venues, up to the record of the cooldown. -/
def missedSteps : List Action :=
  flaggedSteps ++ [refreshFunds, .execReceive silentAnswers, .execEffect, .execEffect, .execEffect]

/-- The flag is released, the cooldown passes, and a ticker message leads up to the next send. -/
def restedSteps : List Action :=
  [.execEffect, .execFinish, refreshFunds, .tick 30000, receiveTicker 1, commsWith ["x"],
    commsOne, commsOne, commsOne, commsOne]

/-- The sample pair is sent again no sooner than thirty seconds after the record. -/
theorem cooldown_respected_sample :
    ∃ p q r s, run (step httpConfig) (init (1 / 5) 2) missedSteps = some p ∧
      step httpConfig p .execEffect = some q ∧ run (step httpConfig) q restedSteps = some r ∧
      step httpConfig r commsOne = some s ∧
      (∃ req, s.executionRx = r.executionRx ++ [req] ∧ req.correlationId = "x") ∧
      p.instant + 30000 ≤ r.instant := by
  have hrun : (run (step httpConfig) (init (1 / 5) 2) missedSteps).any (fun p =>
      p.exec.pc.recording.any fun recorded =>
        decide (recorded.1 = "x") &&
        (run (step httpConfig) p (.execEffect :: restedSteps)).any fun r =>
          r.comms.pc.sending.any fun req =>
            decide (req.correlationId = "x") &&
            decide (r.executionRx.length < executionCapacity)) = true := by
    decide +kernel
  -- the run stops at the record, goes on for thirty seconds, and stops again at the send
  obtain ⟨p, hp, hcheck⟩ := (Option.any_eq_true _ _).mp hrun
  obtain ⟨recorded, hrecorded, hcheck⟩ := (Option.any_eq_true _ _).mp hcheck
  rw [Bool.and_eq_true, decide_eq_true_eq] at hcheck
  obtain ⟨handled, hpc⟩ := ExecPc.recording_eq_some.mp hrecorded
  rw [hcheck.1] at hpc
  obtain ⟨r, hr, hsends⟩ := (Option.any_eq_true _ _).mp hcheck.2
  obtain ⟨q, hq, hr⟩ := run_cons.mp hr
  obtain ⟨req, hreq, hsend⟩ := (Option.any_eq_true _ _).mp hsends
  have hrpc := CommsPc.sending_eq_some.mp hreq
  rw [Bool.and_eq_true, decide_eq_true_eq, decide_eq_true_eq] at hsend
  have hs : step httpConfig r commsOne = some ({ r with
      executionRx := r.executionRx ++ [req] }.goto
        (.evaluating (.insertInFlight req.correlationId))) := by
    simp only [step, commsOne, commsWith, commsStep, hrpc, evalStep, if_pos hsend.2]
  refine ⟨p, q, r, _, hp, hq, hr, hs, ⟨req, rfl, hsend.1⟩, ?_⟩
  exact (cooldown_respected hp "x").1 handled recorded.2 q restedSteps r commsOne _ req hpc hq hr hs rfl
    hsend.1

end System

end Degenerate.Picker
