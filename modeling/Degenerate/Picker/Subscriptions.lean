import Degenerate.Picker.TwoIndexSync

/-!
# Subscriptions of the Watched Legs

`unregister_arb` hands the unsubscription of an evicted leg to a background task, and
`find_arb` may want the same leg again before that task has run.  `add_market_ticker`
then either finds the token still in `subscribed_assets` and skips it, or sends its
subscription ahead of the task's unsubscription.

An `add_market_ticker` call *decides* at its look into the set, when that finds the
token, and at its send.  When no background task concerns the token at that point, the
token stays subscribed for as long as it is watched.

## Main Results

- `watched_legs_subscribed`: in every run in which each call decides undisturbed
- `watched_leg_unsubscribed`: a watched leg that the venue no longer reports
-/

namespace Degenerate.Picker

open Degenerate.Lib Degenerate.Platforms

/-! ## §1 Calls and background tasks, by token -/

/-- The entry of a leg. -/
def legEntry (leg : ArbMinifiedInfo) : Entry := (leg.platform, leg.tokenId)

/-- The entry that a call is about. -/
def AddCall.entry : AddCall → Entry
  | .kalshi call => (.kalshi, call.token)
  | .polymarket call => (.polymarket, call.token)

@[simp] theorem AddCall.entry_start (e : Entry) : (AddCall.start e).entry = e := by
  obtain ⟨_ | _, t⟩ := e <;> rfl

/-- The call has sent its subscription and is about to insert the token. -/
def AddCall.inserts : AddCall → Bool
  | .kalshi (.insert _) | .polymarket (.insert _) => true
  | _ => false

/-- The command of the call subscribes its token and no other. -/
def AddCall.Subscribes : AddCall → Prop
  | .kalshi call => call.Subscribes
  | .polymarket _ => True

/-- The background task is about the token. -/
def DelTask.concerns : DelTask → Entry → Bool
  | .kalshi call, (.kalshi, t) => call.token = t
  | .polymarket call, (.polymarket, t) => t ∈ call.tokens
  | _, _ => false

/-- The next step of the task takes the token out of the set. -/
def DelTask.Removes : DelTask → Entry → Prop
  | .polymarket (.remove ids), (.polymarket, t) => t ∈ ids
  | _, _ => False

/-- The task has taken the token out of the set and goes on. -/
def DelTask.Removed : DelTask → Entry → Prop
  | .kalshi (.readSids t), e | .kalshi (.sendTicker t _ _), e
  | .kalshi (.sendOrderbook t _), e => e = (.kalshi, t)
  | _, _ => False

theorem DelTask.Removed.concerns {task : DelTask} {e : Entry} (h : task.Removed e) :
    task.concerns e = true := by
  unfold DelTask.Removed at h
  split at h
  · subst h
    simp [DelTask.concerns, KalshiDel.token]
  · subst h
    simp [DelTask.concerns, KalshiDel.token]
  · subst h
    simp [DelTask.concerns, KalshiDel.token]
  · exact h.elim

theorem DelTask.Removes.concerns {task : DelTask} {e : Entry} (h : task.Removes e) :
    task.concerns e = true := by
  unfold DelTask.Removes at h
  split at h
  · exact decide_eq_true h
  · exact h.elim

theorem DelTask.not_removed_start (leg : ArbMinifiedInfo) (e : Entry) :
    ¬ (DelTask.start leg).Removed e := by
  unfold DelTask.start
  split <;> exact id

theorem DelTask.concerns_start {leg : ArbMinifiedInfo} {e : Entry}
    (h : (DelTask.start leg).concerns e = true) : legEntry leg = e := by
  obtain ⟨platform, t⟩ := e
  unfold DelTask.start at h
  split at h
  · rename_i hp
    cases platform with
    | polymarket => simp [DelTask.concerns] at h
    | kalshi =>
      have ht : leg.tokenId = t := of_decide_eq_true h
      rw [legEntry, hp, ht]
  · rename_i hp
    cases platform with
    | polymarket =>
      have ht : t = leg.tokenId := List.mem_singleton.mp (of_decide_eq_true h)
      rw [legEntry, hp, ht]
    | kalshi => simp [DelTask.concerns] at h

namespace System

/-- What the client of its venue says of a token. -/
def tokenState (p : System) : Entry → TokenState
  | (.kalshi, t) => p.kalshi.tokenState t
  | (.polymarket, t) => p.polymarket.tokenState t

/-- No background task concerns the token. -/
def idle (p : System) (e : Entry) : Bool := p.spawned.all fun task => !task.concerns e

/-- The call takes its token for subscribed in its next step: it finds it in the set, or it
    sends the subscription. -/
def decides (p : System) : AddCall → Bool
  | .kalshi (.check t) => t ∈ p.kalshi.subscribedAssets
  | .polymarket (.check t) => t ∈ p.polymarket.subscribedAssets
  | .kalshi (.send ..) | .polymarket (.send _) => true
  | _ => false

/-- The call of `find_arb` that decides in the step. -/
def deciding (p : System) : Action → Option AddCall
  | .comms _ =>
      match p.comms.pc with
      | .finding f => if p.decides f.call then some f.call else none
      | _ => none
  | _ => none

/-- No background task concerns the token of a call that decides in the step. -/
def DecidesUndisturbed (p : System) (a : Action) : Prop :=
  ∀ call ∈ p.deciding a, p.idle call.entry = true

instance (p : System) (a : Action) : Decidable (p.DecidesUndisturbed a) :=
  inferInstanceAs (Decidable (∀ call ∈ p.deciding a, p.idle call.entry = true))

/-! ## §2 What the steps of the calls do to a token -/

theorem idle_iff {p : System} {e : Entry} :
    p.idle e = true ↔ ∀ task ∈ p.spawned, task.concerns e = false := by
  simp [idle]

theorem not_concerns_of_idle {p : System} {e : Entry} (h : p.idle e = true) {task : DelTask}
    (htask : task ∈ p.spawned) : ¬ task.concerns e = true := by
  rw [idle_iff.mp h task htask]
  exact Bool.false_ne_true

/-- A step of `add_market_ticker` touches its own token only. -/
theorem addStep_other {p : System} {ok : Bool} {call : AddCall} (hcall : call.Subscribes)
    {e : Entry} (he : e ≠ call.entry) : (p.addStep ok call).1.tokenState e = p.tokenState e := by
  obtain ⟨platform, t⟩ := e
  cases call with
  | kalshi call =>
    cases platform with
    | polymarket => rfl
    | kalshi =>
      have ht : t ≠ call.token := fun h => he (by rw [h]; rfl)
      cases call with
      | check t' =>
        simp only [addStep, KalshiClient.addStep]
        split <;> rfl
      | readSid t' => rfl
      | send t' cmd =>
        simp only [KalshiAdd.token] at ht
        have hnone : cmd.effect t = none := by rw [hcall t, if_neg ht]
        cases ok with
        | false => rfl
        | true =>
          simp [addStep, KalshiClient.addStep, tokenState, KalshiClient.tokenState,
            KalshiClient.send, lastCommand_cons, hnone]
      | insert t' =>
        simp only [KalshiAdd.token] at ht
        simp [addStep, KalshiClient.addStep, tokenState, KalshiClient.tokenState, ht]
  | polymarket call =>
    cases platform with
    | kalshi => rfl
    | polymarket =>
      have ht : t ≠ call.token := fun h => he (by rw [h]; rfl)
      cases call with
      | check t' =>
        simp only [addStep, PolymarketClient.addStep]
        split <;> rfl
      | send t' =>
        simp only [PolymarketAdd.token] at ht
        cases ok with
        | false => rfl
        | true =>
          simp [addStep, PolymarketClient.addStep, tokenState, PolymarketClient.tokenState,
            PolymarketClient.send, lastCommand_cons, PolymarketCommand.effect, ht]
      | insert t' =>
        simp only [PolymarketAdd.token] at ht
        simp [addStep, PolymarketClient.addStep, tokenState, PolymarketClient.tokenState, ht]

/-- What a step of `add_market_ticker` does to its own token: the call ends on a token that it
    finds in the set, goes on or gives up without a change, sends, or inserts. -/
theorem addStep_own (p : System) (ok : Bool) {call : AddCall} (hcall : call.Subscribes) :
    ((p.addStep ok call).1.tokenState call.entry = p.tokenState call.entry ∧
      p.decides call = true ∧ (p.tokenState call.entry).subscribed = true ∧
      (p.addStep ok call).2 = .done true) ∨
    ((p.addStep ok call).1.tokenState call.entry = p.tokenState call.entry ∧
      ((p.addStep ok call).2 = .done false ∨ ∃ call', (p.addStep ok call).2 = .more call' ∧
        call'.entry = call.entry ∧ call'.Subscribes ∧ call'.inserts = false)) ∨
    ((p.addStep ok call).1.tokenState call.entry =
        ⟨(p.tokenState call.entry).subscribed, some true⟩ ∧ p.decides call = true ∧
      ∃ call', (p.addStep ok call).2 = .more call' ∧ call'.entry = call.entry ∧
        call'.Subscribes ∧ call'.inserts = true) ∨
    ((p.addStep ok call).1.tokenState call.entry = ⟨true, (p.tokenState call.entry).newest⟩ ∧
      call.inserts = true ∧ (p.addStep ok call).2 = .done true) := by
  cases call with
  | kalshi call =>
    cases call with
    | check t =>
      -- on Kalshi: found in the set, or on to the SID
      by_cases ht : t ∈ p.kalshi.subscribedAssets
      · left
        simp [addStep, KalshiClient.addStep, ht, decides, tokenState, AddCall.entry,
          KalshiAdd.token, KalshiClient.tokenState, Progress.map]
      · refine .inr (.inl ⟨?_, .inr ⟨.kalshi (.readSid t), ?_, rfl, trivial, rfl⟩⟩)
        · simp [addStep, KalshiClient.addStep, ht, tokenState, AddCall.entry]
        · simp [addStep, KalshiClient.addStep, ht, Progress.map]
    | readSid t =>
      exact .inr (.inl ⟨rfl, .inr ⟨_, rfl, rfl, p.kalshi.orderbookCommand_effect t, rfl⟩⟩)
    | send t cmd =>
      -- a failed send ends the call, a sent subscribe is the newest command
      cases ok with
      | false => exact .inr (.inl ⟨rfl, .inl rfl⟩)
      | true =>
        refine .inr (.inr (.inl ⟨?_, rfl, .kalshi (.insert t), rfl, rfl, trivial, rfl⟩))
        have hsome : cmd.effect t = some true := by rw [hcall t, if_pos rfl]
        simp [addStep, KalshiClient.addStep, tokenState, KalshiClient.tokenState,
          KalshiClient.send, lastCommand_cons, AddCall.entry, KalshiAdd.token, hsome]
    | insert t =>
      refine .inr (.inr (.inr ⟨?_, rfl, rfl⟩))
      simp [addStep, KalshiClient.addStep, tokenState, KalshiClient.tokenState, AddCall.entry,
        KalshiAdd.token]
  | polymarket call =>
    cases call with
    | check t =>
      -- on Polymarket the send follows the check
      by_cases ht : t ∈ p.polymarket.subscribedAssets
      · left
        simp [addStep, PolymarketClient.addStep, ht, decides, tokenState, AddCall.entry,
          PolymarketAdd.token, PolymarketClient.tokenState, Progress.map]
      · refine .inr (.inl ⟨?_, .inr ⟨.polymarket (.send t), ?_, rfl, trivial, rfl⟩⟩)
        · simp [addStep, PolymarketClient.addStep, ht, tokenState, AddCall.entry]
        · simp [addStep, PolymarketClient.addStep, ht, Progress.map]
    | send t =>
      cases ok with
      | false => exact .inr (.inl ⟨rfl, .inl rfl⟩)
      | true =>
        refine .inr (.inr (.inl ⟨?_, rfl, .polymarket (.insert t), rfl, rfl, trivial, rfl⟩))
        simp [addStep, PolymarketClient.addStep, tokenState, PolymarketClient.tokenState,
          PolymarketClient.send, lastCommand_cons, AddCall.entry, PolymarketAdd.token,
          PolymarketCommand.effect]
    | insert t =>
      refine .inr (.inr (.inr ⟨?_, rfl, rfl⟩))
      simp [addStep, PolymarketClient.addStep, tokenState, PolymarketClient.tokenState,
        AddCall.entry, PolymarketAdd.token]

/-- A step of `del_market_ticker` touches its own tokens only. -/
theorem delStep_other (p : System) (ok : Bool) {task : DelTask} {e : Entry}
    (he : task.concerns e = false) : (p.delStep ok task).1.tokenState e = p.tokenState e := by
  obtain ⟨platform, t⟩ := e
  cases task with
  | kalshi call =>
    cases platform with
    | polymarket => rfl
    | kalshi =>
      -- another ticker than the one of the call
      have ht : call.token ≠ t := of_decide_eq_false he
      cases call with
      | remove t' =>
        simp only [KalshiDel.token] at ht
        simp [delStep, KalshiClient.delStep, tokenState, KalshiClient.tokenState, ht.symm]
      | readSids t' =>
        simp only [delStep, KalshiClient.delStep]
        split <;> rfl
      | sendTicker t' tsid osid =>
        simp only [KalshiDel.token] at ht
        -- whichever SIDs are known, what is sent concerns the one ticker
        cases osid <;> cases ok <;>
          simp [delStep, KalshiClient.delStep, tokenState, KalshiClient.tokenState,
            KalshiClient.send, lastCommand_cons, KalshiCommand.effect, ht.symm]
      | sendOrderbook t' osid =>
        simp only [KalshiDel.token] at ht
        cases ok <;>
          simp [delStep, KalshiClient.delStep, tokenState, KalshiClient.tokenState,
            KalshiClient.send, lastCommand_cons, KalshiCommand.effect, ht.symm]
  | polymarket call =>
    cases platform with
    | kalshi => rfl
    | polymarket =>
      -- not among the tokens of the call
      have ht : t ∉ call.tokens := of_decide_eq_false he
      cases call with
      | filter ids =>
        simp only [delStep, PolymarketClient.delStep]
        split <;> rfl
      | send ids =>
        simp only [PolymarketDel.tokens] at ht
        cases ok <;>
          simp [delStep, PolymarketClient.delStep, tokenState, PolymarketClient.tokenState,
            PolymarketClient.send, lastCommand_cons, PolymarketCommand.effect, ht]
      | remove ids =>
        simp only [PolymarketDel.tokens] at ht
        simp [delStep, PolymarketClient.delStep, tokenState, PolymarketClient.tokenState, ht]

/-- The next phase of `del_market_ticker` is about no further token. -/
theorem delStep_concerns {p : System} {ok : Bool} {task task' : DelTask}
    (h : (p.delStep ok task).2 = .more task') {e : Entry} (he : task'.concerns e = true) :
    task.concerns e = true := by
  obtain ⟨platform, t⟩ := e
  cases task with
  | kalshi call =>
    obtain ⟨call', hcall, rfl⟩ := Progress.map_eq_more.mp h
    cases platform with
    | polymarket => cases he
    | kalshi =>
      have ht : call'.token = t := of_decide_eq_true he
      exact decide_eq_true ((KalshiClient.delStep_token hcall).symm.trans ht)
  | polymarket call =>
    obtain ⟨call', hcall, rfl⟩ := Progress.map_eq_more.mp h
    cases platform with
    | kalshi => cases he
    | polymarket =>
      exact decide_eq_true (PolymarketClient.delStep_tokens hcall (of_decide_eq_true he))

/-- What a step of `del_market_ticker` does to the set and to the newest command of a token
    that it leaves in the set. -/
theorem delStep_subscribed {p : System} {ok : Bool} {task : DelTask} {e : Entry}
    (hrem : task.Removed e → (p.tokenState e).subscribed = false)
    (h : ((p.delStep ok task).1.tokenState e).subscribed = true) :
    (p.tokenState e).subscribed = true ∧ ¬ task.Removes e ∧
      (∀ task', (p.delStep ok task).2 = .more task' → ¬ task'.Removed e) ∧
      (((p.delStep ok task).1.tokenState e).newest = (p.tokenState e).newest ∨
        ∃ task', (p.delStep ok task).2 = .more task' ∧ task'.Removes e) := by
  by_cases he : task.concerns e = true
  · obtain ⟨platform, t⟩ := e
    cases task with
    | kalshi call =>
      cases platform with
      | polymarket => cases he
      | kalshi =>
        -- the set has lost the ticker before anything is sent
        exfalso
        have ht : call.token = t := of_decide_eq_true he
        have hmem : t ∈ (p.kalshi.delStep ok call).1.subscribedAssets := of_decide_eq_true h
        have hold : (p.tokenState (.kalshi, t)).subscribed = true :=
          decide_eq_true (KalshiClient.delStep_subscribedAssets hmem)
        have hnot : ¬ DelTask.Removed (.kalshi call) (.kalshi, t) := fun hr =>
          Bool.false_ne_true ((hrem hr).symm.trans hold)
        subst ht
        cases call with
        | remove t' => simp [KalshiClient.delStep, KalshiDel.token] at hmem
        | readSids t' => exact hnot rfl
        | sendTicker t' tsid osid => exact hnot rfl
        | sendOrderbook t' osid => exact hnot rfl
    | polymarket call =>
      cases platform with
      | kalshi => cases he
      | polymarket =>
        have hnot : ∀ task', (p.delStep ok (.polymarket call)).2 = .more task' →
            ¬ task'.Removed (.polymarket, t) := by
          intro task' ht
          obtain ⟨call', -, rfl⟩ := Progress.map_eq_more.mp ht
          exact id
        have ht : t ∈ call.tokens := of_decide_eq_true he
        cases call with
        | filter ids =>
          have hsame : (p.delStep ok (.polymarket (.filter ids))).1 = p := by
            simp only [delStep, PolymarketClient.delStep]
            split <;> rfl
          rw [hsame] at h ⊢
          exact ⟨h, id, hnot, .inl rfl⟩
        | send ids =>
          cases ok with
          | false => exact ⟨h, id, hnot, .inl rfl⟩
          | true => exact ⟨h, id, hnot, .inr ⟨_, rfl, ht⟩⟩
        | remove ids =>
          simp only [PolymarketDel.tokens] at ht
          simp [delStep, PolymarketClient.delStep, tokenState, PolymarketClient.tokenState, ht]
            at h
  · -- a token that is not the concern of the task
    have hstate := delStep_other p ok (Bool.eq_false_of_not_eq_true he)
    rw [hstate] at h ⊢
    refine ⟨h, fun hr => he hr.concerns, fun task' ht hr => ?_, .inl rfl⟩
    exact he (delStep_concerns ht hr.concerns)

/-- A step of a background task, and what becomes of the list of tasks. -/
theorem taskStep_cases {p q : System} {i : ℕ} {ok : Bool} (h : p.taskStep i ok = some q) :
    ∃ task ∈ p.spawned, q.tokenState = (p.delStep ok task).1.tokenState ∧
      (∀ x ∈ q.spawned, x ∈ p.spawned ∨ (p.delStep ok task).2 = .more x) ∧
      (∀ x ∈ p.spawned, x = task ∨ x ∈ q.spawned) ∧
      ∀ x, (p.delStep ok task).2 = .more x → x ∈ q.spawned := by
  have hspawned : ∀ task, (p.delStep ok task).1.spawned = p.spawned := by
    intro task
    cases task <;> rfl
  -- the task that moved is the one at the index; the others keep their places
  unfold taskStep at h
  split at h
  · cases h
  · rename_i task htask
    cases h
    refine ⟨task, List.mem_of_getElem? htask, rfl, fun x hx => ?_, fun x hx => ?_,
      fun x hx => ?_⟩
    · exact hspawned task ▸ Progress.mem_advance hx
    · refine Progress.mem_advance_of_mem _ ?_ (hspawned task ▸ hx)
      rw [hspawned]
      exact htask
    · show x ∈ (p.delStep ok task).2.advance (p.delStep ok task).1.spawned i
      rw [hx]
      have hget : (p.delStep ok task).1.spawned[i]? = some task := by
        rw [hspawned]
        exact htask
      exact Progress.next_mem_advance hget

/-! ## §3 The tokens in the sets -/

/-- A token that is in a set and concerns no background task was last subscribed. -/
structure TokensInv (p : System) : Prop where
  newest : ∀ e, (p.tokenState e).subscribed = true → (p.tokenState e).newest = some true ∨
    ∃ task ∈ p.spawned, task.Removes e
  removed : ∀ task ∈ p.spawned, ∀ e, task.Removed e → (p.tokenState e).subscribed = false

theorem TokensInv.newest_of_idle {p : System} (hi : TokensInv p) {e : Entry}
    (hidle : p.idle e = true) (he : (p.tokenState e).subscribed = true) :
    (p.tokenState e).newest = some true := by
  rcases hi.newest e he with h | ⟨task, hmem, hr⟩
  · exact h
  · exact absurd hr.concerns (not_concerns_of_idle hidle hmem)

theorem tokensInv_init (fraction minSize : ℚ) : TokensInv (init fraction minSize) := by
  refine ⟨fun e he => ?_, fun task h => (nomatch h)⟩
  obtain ⟨_ | _, t⟩ := e <;> cases he

/-- The invariant depends on the clients and on the list of tasks only. -/
theorem TokensInv.congr {p q : System} (hi : TokensInv p) (hstate : q.tokenState = p.tokenState)
    (hspawned : q.spawned = p.spawned) : TokensInv q := by
  constructor
  · intro e he
    rw [hstate] at he ⊢
    rw [hspawned]
    exact hi.newest e he
  · intro task htask e hr
    rw [hspawned] at htask
    rw [hstate]
    exact hi.removed task htask e hr

/-- What `find_arb` knows of its current call. -/
structure CallInv (p : System) (call : AddCall) : Prop where
  subscribes : call.Subscribes
  inserts : call.inserts = true →
    p.idle call.entry = true ∧ (p.tokenState call.entry).newest = some true

theorem callInv_start (p : System) (e : Entry) : CallInv p (.start e) := by
  obtain ⟨_ | _, t⟩ := e <;> exact ⟨trivial, fun h => nomatch h⟩

theorem TokensInv.addStep {p : System} {ok : Bool} {call : AddCall} (hi : TokensInv p)
    (hc : CallInv p call) : TokensInv (p.addStep ok call).1 := by
  have hspawned := (addStep_frame p ok call).2.2
  -- both fields, token by token and over the tasks of the state before the step
  suffices hown : ∀ e, (((p.addStep ok call).1.tokenState e).subscribed = true →
        ((p.addStep ok call).1.tokenState e).newest = some true ∨
          ∃ task ∈ p.spawned, task.Removes e) ∧
      ∀ task ∈ p.spawned, task.Removed e →
        ((p.addStep ok call).1.tokenState e).subscribed = false by
    constructor
    · intro e
      rw [hspawned]
      exact (hown e).1
    · intro task htask e
      rw [hspawned] at htask
      exact (hown e).2 task htask
  intro e
  by_cases hsame : (p.addStep ok call).1.tokenState e = p.tokenState e
  · rw [hsame]
    exact ⟨hi.newest e, fun task htask => hi.removed task htask e⟩
  · -- the call has sent for its own token, or inserted it
    have he : e = call.entry := by
      by_contra he
      exact hsame (addStep_other hc.subscribes he)
    subst he
    rcases addStep_own p ok hc.subscribes with ⟨h, -⟩ | ⟨h, -⟩ | ⟨h, -⟩ | ⟨h, hins, -⟩
    · exact absurd h hsame
    · exact absurd h hsame
    · rw [h]
      exact ⟨fun _ => .inl rfl, fun task htask => hi.removed task htask _⟩
    · obtain ⟨hidle, hnew⟩ := hc.inserts hins
      rw [h]
      refine ⟨fun _ => .inl hnew, fun task htask hr => ?_⟩
      exact absurd hr.concerns (not_concerns_of_idle hidle htask)

theorem TokensInv.taskStep {p q : System} {i : ℕ} {ok : Bool} (hi : TokensInv p)
    (h : p.taskStep i ok = some q) : TokensInv q := by
  obtain ⟨task, htask, hstate, hnew, hold, hnext⟩ := taskStep_cases h
  have hdel : ∀ e, (q.tokenState e).subscribed = true → _ := fun e he =>
    delStep_subscribed (hi.removed task htask e) (by rwa [hstate] at he)
  constructor
  · intro e he
    -- the newest command changes only at the send of a Polymarket task, which then removes
    obtain ⟨hsub, hnot, -, hn | ⟨task', htask', hr⟩⟩ := hdel e he
    · rw [hstate, hn]
      rcases hi.newest e hsub with hs | ⟨x, hx, hr⟩
      · exact .inl hs
      · rcases hold x hx with rfl | hx
        · exact absurd hr hnot
        · exact .inr ⟨x, hx, hr⟩
    · exact .inr ⟨task', hnext task' htask', hr⟩
  · intro x hx e hr
    by_contra hsub
    obtain ⟨hsub', -, hnot, -⟩ := hdel e (Bool.eq_true_of_not_eq_false hsub)
    rcases hnew x hx with hx | hx
    · exact Bool.false_ne_true ((hi.removed x hx e hr).symm.trans hsub')
    · exact hnot x hx hr

/-- Tasks that are at their start may be added. -/
theorem TokensInv.spawn {p q : System} {legs : List ArbMinifiedInfo} (hi : TokensInv p)
    (hstate : q.tokenState = p.tokenState)
    (hspawned : q.spawned = p.spawned ++ legs.map DelTask.start) : TokensInv q := by
  constructor
  · intro e he
    rw [hstate] at he ⊢
    rcases hi.newest e he with h | ⟨task, htask, hr⟩
    · exact .inl h
    · exact .inr ⟨task, by rw [hspawned]; exact List.mem_append_left _ htask, hr⟩
  · intro task htask e hr
    rw [hspawned, List.mem_append, List.mem_map] at htask
    rw [hstate]
    rcases htask with htask | ⟨leg, -, rfl⟩
    · exact hi.removed task htask e hr
    · exact absurd hr (DelTask.not_removed_start leg e)

/-! ## §4 Held tokens -/

/-- The token is subscribed, and nothing is under way that would change it. -/
structure Held (p : System) (e : Entry) : Prop where
  state : p.tokenState e = ⟨true, some true⟩
  idle : p.idle e = true

/-- Tokens that no background task concerns stay so, and keep their state. -/
def KeepsIdle (p q : System) : Prop :=
  ∀ e, p.idle e = true → q.idle e = true ∧ q.tokenState e = p.tokenState e

theorem keepsIdle_of_eq {p q : System} (hstate : q.tokenState = p.tokenState)
    (hspawned : q.spawned = p.spawned) : KeepsIdle p q := by
  intro e he
  rw [idle, hspawned, hstate]
  exact ⟨he, rfl⟩

/-- Background tasks leave the other tokens alone. -/
theorem keepsIdle_taskStep {p q : System} {i : ℕ} {ok : Bool}
    (h : p.taskStep i ok = some q) : KeepsIdle p q := by
  obtain ⟨task, htask, hstate, hnew, -, -⟩ := taskStep_cases h
  intro e he
  have hidle := idle_iff.mp he
  refine ⟨idle_iff.mpr fun x hx => ?_, ?_⟩
  · rcases hnew x hx with hx | hx
    · exact hidle x hx
    · by_contra hc
      have hconcerns := delStep_concerns hx (Bool.eq_true_of_not_eq_false hc)
      exact not_concerns_of_idle he htask hconcerns
  · rw [hstate, delStep_other _ _ (hidle task htask)]

theorem Held.mono {p q : System} {e : Entry} (hh : Held p e) (hk : KeepsIdle p q) : Held q e := by
  obtain ⟨hidle, hstate⟩ := hk e hh.idle
  exact ⟨hstate.trans hh.state, hidle⟩

theorem CallInv.mono {p q : System} {call : AddCall} (hc : CallInv p call)
    (hk : KeepsIdle p q) : CallInv q call := by
  refine ⟨hc.subscribes, fun hins => ?_⟩
  obtain ⟨hidle, hnew⟩ := hc.inserts hins
  obtain ⟨hidle', hstate⟩ := hk _ hidle
  exact ⟨hidle', by rw [hstate]; exact hnew⟩

theorem Held.addStep {p : System} {ok : Bool} {call : AddCall} {e : Entry} (hh : Held p e)
    (hc : CallInv p call) : Held (p.addStep ok call).1 e := by
  refine ⟨?_, by rw [System.idle, (addStep_frame p ok call).2.2]; exact hh.idle⟩
  by_cases he : e = call.entry
  · subst he
    rcases addStep_own p ok hc.subscribes with ⟨h, -⟩ | ⟨h, -⟩ | ⟨h, -⟩ | ⟨h, -⟩ <;>
      rw [h, hh.state]
  · rw [addStep_other hc.subscribes he, hh.state]

/-- Where an undisturbed step of a call leads: on, to a failure, or to a held token. -/
theorem CallInv.addStep {p : System} {ok : Bool} {call : AddCall} (hi : TokensInv p)
    (hc : CallInv p call) (hq : p.decides call = true → p.idle call.entry = true) :
    (∃ call', (p.addStep ok call).2 = .more call' ∧ call'.entry = call.entry ∧
      CallInv (p.addStep ok call).1 call') ∨
    (p.addStep ok call).2 = .done false ∨
    ((p.addStep ok call).2 = .done true ∧ Held (p.addStep ok call).1 call.entry) := by
  have hidle : (p.addStep ok call).1.idle call.entry = p.idle call.entry := by
    rw [idle, idle, (addStep_frame p ok call).2.2]
  rcases addStep_own p ok hc.subscribes with ⟨h, hd, hsub, hr⟩ | ⟨-, hr⟩ |
    ⟨h, hd, call', hr, hentry, hs, -⟩ | ⟨h, hins, hr⟩
  · -- found in the set: without a task on it, it was last subscribed
    refine .inr (.inr ⟨hr, ?_, by rw [hidle]; exact hq hd⟩)
    exact h.trans (TokenState.ext hsub (hi.newest_of_idle (hq hd) hsub))
  · rcases hr with hr | ⟨call', hr, hentry, hs, hins⟩
    · exact .inr (.inl hr)
    · exact .inl ⟨call', hr, hentry, hs, fun h => by rw [hins] at h; cases h⟩
  · -- sent: the subscription is the newest command from here on
    refine .inl ⟨call', hr, hentry, hs, fun _ => ?_⟩
    rw [hentry, hidle, h]
    exact ⟨hq hd, rfl⟩
  · obtain ⟨hidle', hnew⟩ := hc.inserts hins
    refine .inr (.inr ⟨hr, ?_, by rw [hidle]; exact hidle'⟩)
    rw [h, hnew]

/-! ## §5 The invariant of the watch side -/

/-- `find_arb` is at its first entry, or at its second and holds the first one if it has
    counted it. -/
structure FindInv (p : System) (f : FindArb) : Prop where
  call : CallInv p f.call
  entries : ∃ anchor «match», EntriesOf f.arb anchor «match» ∧
    ((f.call.entry = anchor ∧ f.left = [«match»] ∧ f.subscribedCount = 0) ∨
      (f.call.entry = «match» ∧ f.left = [] ∧ f.subscribedCount ≤ 1 ∧
        (f.subscribedCount = 1 → Held p anchor)))

/-- Every leg of a record is indexed under its own key and held; so is every leg that is
    about to be registered, apart from the index. -/
structure WatchInv (p : System) : Prop where
  tokens : TokensInv p
  legs : ∀ cid w, p.book.records cid = some w → ∀ leg ∈ w.legs,
    leg.WellKeyed ∧ p.book.Watches leg.marketKey cid ∧ Held p (legEntry leg)
  finding : ∀ f, p.comms.pc = .finding f → FindInv p f
  registering : ∀ w, p.comms.pc = .registering w → ∀ leg ∈ w.legs,
    leg.WellKeyed ∧ Held p (legEntry leg)

theorem watchInv_init (fraction minSize : ℚ) : WatchInv (init fraction minSize) where
  tokens := tokensInv_init fraction minSize
  legs _ _ h := nomatch h
  finding _ h := nomatch h
  registering _ h := nomatch h

theorem SameWatch.tokenState {p q : System} (h : SameWatch p q) : q.tokenState = p.tokenState := by
  funext ⟨platform, t⟩
  cases platform
  · exact congrArg (PolymarketClient.tokenState · t) h.polymarket
  · exact congrArg (KalshiClient.tokenState · t) h.kalshi

theorem FindInv.mono {p q : System} {f : FindArb} (hf : FindInv p f) (hk : KeepsIdle p q) :
    FindInv q f := by
  obtain ⟨hcall, anchor, «match», hentries, hat⟩ := hf
  refine ⟨hcall.mono hk, anchor, «match», hentries, ?_⟩
  rcases hat with hat | ⟨he, hl, hle, hheld⟩
  · exact .inl hat
  · exact .inr ⟨he, hl, hle, fun h => (hheld h).mono hk⟩

/-- The legs of the records, when the book stays and held tokens stay held. -/
theorem WatchInv.legs_mono {p q : System} (hi : WatchInv p) (hbook : q.book = p.book)
    (hheld : ∀ e, Held p e → Held q e) : ∀ cid w, q.book.records cid = some w → ∀ leg ∈ w.legs,
      leg.WellKeyed ∧ q.book.Watches leg.marketKey cid ∧ Held q (legEntry leg) := by
  intro cid w hw leg hl
  rw [hbook] at hw ⊢
  obtain ⟨hk, hwatch, hh⟩ := hi.legs cid w hw leg hl
  exact ⟨hk, hwatch, hheld _ hh⟩

/-- A step that leaves the book and the tokens alone, and does not enter `find_arb`. -/
theorem WatchInv.mono {p q : System} (hi : WatchInv p) (htokens : TokensInv q)
    (hk : KeepsIdle p q) (hbook : q.book = p.book)
    (hpc : q.comms.pc = p.comms.pc ∨ q.comms.pc = .next ∨ ∃ e, q.comms.pc = .evaluating e) :
    WatchInv q := by
  have hheld : ∀ e, Held p e → Held q e := fun e hh => hh.mono hk
  refine ⟨htokens, hi.legs_mono hbook hheld, fun f hf => ?_, fun w hw leg hl => ?_⟩
  · -- a search goes on as before, or is over
    rcases hpc with hpc | hpc | ⟨e, hpc⟩
    · exact (hi.finding f (hpc ▸ hf)).mono hk
    · rw [hpc] at hf
      cases hf
    · rw [hpc] at hf
      cases hf
  · rcases hpc with hpc | hpc | ⟨e, hpc⟩
    · obtain ⟨hkey, hh⟩ := hi.registering w (hpc ▸ hw) leg hl
      exact ⟨hkey, hheld _ hh⟩
    · rw [hpc] at hw
      cases hw
    · rw [hpc] at hw
      cases hw

/-- A leg that the conversion of an arb yields is on the entry that `find_arb` read. -/
theorem entry_of_tryFrom {name : String} {o : Option ArbEssentials} {e : ArbEssentials}
    {entry : Entry} {closeTime : ℤ} {leg : ArbMinifiedInfo}
    (hread : findLeg name o = .ok (entry.1, closeTime, entry.2)) (ho : o = some e)
    (h : ArbMinifiedInfo.tryFrom e = .ok leg) : legEntry leg = entry ∧ leg.WellKeyed := by
  obtain ⟨d, m, hd, hm, hplatform, htoken, hkeyed⟩ := ArbMinifiedInfo.tryFrom_ok h
  subst ho
  simp only [findLeg, hd, hm, hplatform] at hread
  split at hread
  · cases hread
  · rw [Except.ok.injEq, Prod.mk.injEq, Prod.mk.injEq] at hread
    refine ⟨?_, hkeyed⟩
    rw [legEntry, htoken, hread.1, hread.2.2]

section FindArb

variable {p r : System} {f : FindArb} {ok : Bool} (hf : FindInv p f)

include hf

/-- The call of `find_arb` goes on. -/
theorem FindInv.continues {call : AddCall} (hheld : ∀ e, Held p e → Held r e)
    (hentry : call.entry = f.call.entry) (hcall : CallInv r call) :
    FindInv r { f with call } := by
  obtain ⟨-, anchor, «match», hentries, hat⟩ := hf
  refine ⟨hcall, anchor, «match», hentries, ?_⟩
  rcases hat with ⟨he, hl, h0⟩ | ⟨he, hl, hle, hanchor⟩
  · exact .inl ⟨hentry.trans he, hl, h0⟩
  · exact .inr ⟨hentry.trans he, hl, hle, fun h => hheld _ (hanchor h)⟩

/-- `find_arb` turns from its first entry to the second one. -/
theorem FindInv.turns {entry : Entry} {left : List Entry} (hl : f.left = entry :: left)
    (hok : ok = true → Held r f.call.entry) :
    FindInv r { f with
      call := .start entry, left, subscribedCount := f.subscribedCount + if ok then 1 else 0 } := by
  obtain ⟨-, anchor, «match», hentries, hat⟩ := hf
  -- the second candidate follows the first
  rcases hat with ⟨he, hl', h0⟩ | ⟨-, hl', -⟩
  · rw [hl] at hl'
    cases hl'
    refine ⟨callInv_start r _, anchor, entry, hentries,
      .inr ⟨AddCall.entry_start _, rfl, ?_, fun h => ?_⟩⟩
    · rw [h0]
      cases ok <;> simp
    · rw [h0] at h
      cases ok with
      | false => cases h
      | true => exact he ▸ hok rfl
  · rw [hl] at hl'
    cases hl'

/-- When both entries are counted, the legs of the pair are held. -/
theorem FindInv.counted {pair : ArbMinifiedInfoPair} (hheld : ∀ e, Held p e → Held r e)
    (hok : ok = true → Held r f.call.entry) (hl : f.left = [])
    (hcount : 2 ≤ f.subscribedCount + if ok then 1 else 0)
    (hpair : ArbMinifiedInfoPair.tryFrom f.arb = .ok pair) :
    ∀ leg ∈ [pair.anchor, pair.match], leg.WellKeyed ∧ Held r (legEntry leg) := by
  obtain ⟨-, anchor, «match», hentries, hat⟩ := hf
  rcases hat with ⟨-, hl', -⟩ | ⟨he, -, hle, hanchor⟩
  · rw [hl] at hl'
    cases hl'
  -- so the second call has succeeded as well as the first one
  have htrue : ok = true := by
    cases ok with
    | true => rfl
    | false => simp at hcount; omega
  subst htrue
  have hone : f.subscribedCount = 1 := by
    simp at hcount
    omega
  obtain ⟨anchorClose, matchClose, hra, hrm⟩ := hentries
  obtain ⟨a, m, ha, hm, hla, hlm⟩ := ArbMinifiedInfoPair.tryFrom_ok hpair
  intro leg hleg
  simp only [List.mem_cons, List.not_mem_nil, or_false] at hleg
  rcases hleg with rfl | rfl
  · obtain ⟨hentry, hkeyed⟩ := entry_of_tryFrom hra ha hla
    exact ⟨hkeyed, hentry ▸ hheld _ (hanchor hone)⟩
  · obtain ⟨hentry, hkeyed⟩ := entry_of_tryFrom hrm hm hlm
    exact ⟨hkeyed, hentry ▸ he ▸ hok rfl⟩

/-- A step of `find_arb`, once the step of its call is understood. -/
theorem FindInv.step (hheld : ∀ e, Held p e → Held r e) {progress : Progress AddCall}
    (hprogress : (∃ call', progress = .more call' ∧ call'.entry = f.call.entry ∧ CallInv r call') ∨
      progress = .done false ∨ (progress = .done true ∧ Held r f.call.entry)) :
    (∀ f', f.resume progress = .finding f' → FindInv r f') ∧
    ∀ w, f.resume progress = .registering w → ∀ leg ∈ w.legs,
      leg.WellKeyed ∧ Held r (legEntry leg) := by
  -- the call goes on, or it ends and the loop turns
  rcases hprogress with ⟨call', rfl, hentry, hcall⟩ | hdone
  · refine ⟨fun f' h => ?_, fun w h => by cases h⟩
    cases h
    exact hf.continues hheld hentry hcall
  · obtain ⟨ok, rfl, hok⟩ : ∃ ok, progress = .done ok ∧ (ok = true → Held r f.call.entry) := by
      rcases hdone with rfl | ⟨rfl, h⟩
      · exact ⟨false, rfl, fun h => absurd h Bool.false_ne_true⟩
      · exact ⟨true, rfl, fun _ => h⟩
    rw [FindArb.resume]
    -- another candidate, none left, or a pair that is complete
    rcases advance_cases f ok with ⟨entry, left, hl, h⟩ | ⟨hl, h⟩ | ⟨hl, hcount, pair, hpair, h⟩
    · rw [h]
      refine ⟨fun f' hf' => ?_, fun w hw => by cases hw⟩
      cases hf'
      exact hf.turns hl hok
    · rw [h]
      exact ⟨fun f' hf' => (by cases hf'), fun w hw => (by cases hw)⟩
    · rw [h]
      refine ⟨fun f' hf' => (by cases hf'), fun w hw leg hleg => ?_⟩
      cases hw
      exact hf.counted hheld hok hl hcount hpair leg hleg

end FindArb

theorem WatchInv.findStep {p : System} {c : Choice} {f : FindArb} (hi : WatchInv p)
    (hpc : p.comms.pc = .finding f)
    (hq : p.decides f.call = true → p.idle f.call.entry = true) : WatchInv (findStep c p f) := by
  have hf := hi.finding f hpc
  have hbook := (findStep_frame c p f).2.1
  have hheld : ∀ e, Held p e → Held (p.addStep c.sendOk f.call).1 e := fun e h => h.addStep hf.call
  have hgoto : KeepsIdle (p.addStep c.sendOk f.call).1 (System.findStep c p f) :=
    keepsIdle_of_eq rfl rfl
  obtain ⟨hnext, hreg⟩ := hf.step hheld (hf.call.addStep hi.tokens hq)
  refine ⟨(hi.tokens.addStep hf.call).congr rfl rfl,
    hi.legs_mono hbook fun e hh => (hheld e hh).mono hgoto, fun f' h => ?_, fun w h leg hl => ?_⟩
  · exact (hnext f' h).mono hgoto
  · obtain ⟨hk, hh⟩ := hreg w h leg hl
    exact ⟨hk, hh.mono hgoto⟩

theorem WatchInv.register {p : System} {w : ArbWatch} (hi : WatchInv p)
    (hpc : p.comms.pc = .registering w) : WatchInv (p.register w) := by
  refine ⟨hi.tokens.congr rfl rfl, fun cid w' hw leg hl => ?_, fun _ h => (nomatch h),
    fun _ h => (nomatch h)⟩
  have hrec : (p.book.records.insert w.correlationId w) cid = some w' := hw
  have hkeep : KeepsIdle p (p.register w) := keepsIdle_of_eq rfl rfl
  show leg.WellKeyed ∧ (p.book.registerArb w).Watches leg.marketKey cid ∧ _
  rw [Book.watches_registerArb]
  rcases PMap.insert_eq_some.mp hrec with ⟨rfl, rfl⟩ | ⟨-, hold⟩
  · obtain ⟨hk, hheld⟩ := hi.registering w hpc leg hl
    exact ⟨hk, .inr ⟨List.mem_map_of_mem hl, rfl⟩, hheld.mono hkeep⟩
  · obtain ⟨hk, hwatch, hheld⟩ := hi.legs cid w' hold leg hl
    exact ⟨hk, .inl hwatch, hheld.mono hkeep⟩

theorem WatchInv.unregisterArb {p : System} {cid : CorrelationId} {rest : List CommsOp}
    (hi : WatchInv p) (hpc : p.comms.pc = .next) : WatchInv ((p.pop rest).unregisterArb cid) := by
  have hpc' : ((p.pop rest).unregisterArb cid).comms.pc = .next := hpc
  refine ⟨hi.tokens.spawn rfl rfl, fun c w hw leg hl => ?_, fun _ h => ?_, fun _ h => ?_⟩
  · have hrec : (p.book.unregisterArb cid).1.records c = some w := hw
    rw [Book.unregisterArb_records] at hrec
    obtain ⟨hne, hold⟩ := PMap.erase_eq_some.mp hrec
    obtain ⟨hk, hwatch, hheld⟩ := hi.legs c w hold leg hl
    have hwatch' : (p.book.unregisterArb cid).1.Watches leg.marketKey c := by
      cases hcid : p.book.records cid with
      | none => rwa [Book.unregisterArb_of_none hcid]
      | some w' => exact (Book.watches_unregisterArb hcid _ _).mpr ⟨hwatch, fun h => hne h.2⟩
    refine ⟨hk, hwatch', hheld.state, idle_iff.mpr fun task htask => ?_⟩
    have hspawned : task ∈ p.spawned ++ (p.book.unregisterArb cid).2.map DelTask.start := htask
    rw [List.mem_append, List.mem_map] at hspawned
    rcases hspawned with htask | ⟨leg', hleg', rfl⟩
    · exact idle_iff.mp hheld.idle task htask
    · -- an evicted leg has no watcher left, so it is not a leg of this record
      by_contra hc
      have hentry := DelTask.concerns_start (Bool.eq_true_of_not_eq_false hc)
      obtain ⟨w', hw', hleg, hnone⟩ := Book.mem_evicted hleg'
      have hkey : leg'.marketKey = leg.marketKey := by
        rw [(hi.legs cid w' hw' leg' hleg).1, hk]
        simp only [legEntry, Prod.mk.injEq] at hentry
        rw [hentry.1, hentry.2]
      obtain ⟨set, hset, -⟩ := hwatch'
      rw [← hkey, hnone] at hset
      cases hset
  · rw [hpc'] at h
    cases h
  · rw [hpc'] at h
    cases h

theorem WatchInv.updateCloseTime {p q : System} {key : MarketKey} {cid : CorrelationId}
    {closeTs : Option ℤ} {rest : List CommsOp} (hi : WatchInv p) (hpc : p.comms.pc = .next)
    (hq : q = { p.pop rest with book := p.book.updateCloseTime key cid closeTs }) :
    WatchInv q := by
  subst hq
  refine ⟨hi.tokens.congr rfl rfl, fun c w hw leg hl => ?_, fun f h => ?_, fun w h => ?_⟩
  · -- a leg keeps its key, its platform and its token
    obtain ⟨old, hold, leg', hl', hkey, hplatform, htoken⟩ := Book.updateCloseTime_legs hw hl
    obtain ⟨hk, hwatch, hheld⟩ := hi.legs c old hold leg' hl'
    refine ⟨?_, ?_, ?_⟩
    · rw [ArbMinifiedInfo.WellKeyed, ← hkey, ← hplatform, ← htoken]
      exact hk
    · rw [← hkey, Book.Watches]
      show ∃ set, (p.book.updateCloseTime key cid closeTs).registry _ = _ ∧ _
      rw [Book.updateCloseTime_registry]
      exact hwatch
    · rw [legEntry, ← hplatform, ← htoken]
      exact hheld.mono (keepsIdle_of_eq rfl rfl)
  · have h' : p.comms.pc = .finding f := h
    rw [hpc] at h'
    cases h'
  · have h' : p.comms.pc = .registering w := h
    rw [hpc] at h'
    cases h'

theorem WatchInv.taskStep {p q : System} {i : ℕ} {ok : Bool} (hi : WatchInv p)
    (h : p.taskStep i ok = some q) : WatchInv q := by
  obtain ⟨-, hbook, hcomms⟩ := taskStep_frame h
  exact hi.mono (hi.tokens.taskStep h) (keepsIdle_taskStep h) hbook (.inl (by rw [hcomms]))

/-- **One step**: every task keeps the invariant, if the calls decide undisturbed. -/
theorem WatchInv.step {cfg : Config} {p q : System} {a : Action} (hi : WatchInv p)
    (hq : p.DecidesUndisturbed a) (h : step cfg p a = some q) : WatchInv q := by
  rcases step_watch_cases h with ⟨hsame, hpc⟩ | ⟨arb, cid, f, hstarts, hsame, hpc⟩ |
    ⟨c, f, rfl, hpc, rfl⟩ | ⟨w, hpc, rfl⟩ | ⟨cid, rest, hpc, rfl⟩ |
    ⟨key, cid, closeTs, rest, hpc, hq'⟩ | ⟨i, ok, rfl, htask⟩ | ⟨channel, sid, rfl⟩
  · have hstate := hsame.tokenState
    exact hi.mono (hi.tokens.congr hstate hsame.spawned) (keepsIdle_of_eq hstate hsame.spawned)
      hsame.book hpc
  · -- `find_arb` starts with its first entry, and knows nothing yet
    obtain ⟨anchor, «match», hentries, rfl⟩ := hstarts
    have hstate := hsame.tokenState
    have hkeep := keepsIdle_of_eq hstate hsame.spawned
    refine ⟨hi.tokens.congr hstate hsame.spawned,
      hi.legs_mono hsame.book fun e hh => hh.mono hkeep, fun f hf => ?_, fun w hw => ?_⟩
    · rw [hpc] at hf
      cases hf
      exact ⟨callInv_start q anchor, anchor, «match», hentries,
        .inl ⟨AddCall.entry_start anchor, rfl, rfl⟩⟩
    · rw [hpc] at hw
      cases hw
  · refine hi.findStep hpc fun hd => hq f.call ?_
    simp [deciding, hpc, hd]
  · exact hi.register hpc
  · exact hi.unregisterArb hpc
  · exact hi.updateCloseTime hpc hq'
  · exact hi.taskStep htask
  · have hstate : System.tokenState { p with kalshi := p.kalshi.subscribedResponse channel sid } =
        p.tokenState := by
      funext entry
      obtain ⟨platform, t⟩ := entry
      cases platform with
      | polymarket => rfl
      | kalshi => exact p.kalshi.tokenState_subscribedResponse channel sid t
    exact hi.mono (hi.tokens.congr hstate rfl) (keepsIdle_of_eq hstate rfl) rfl (.inl rfl)

/-! ## §6 Runs -/

/-- **Watched legs stay subscribed** in every run in which no `add_market_ticker` decides
    while a background task concerns its token: in every state, each leg of each registered
    arb is in its client's set, and the newest command for it is a subscription. -/
theorem watched_legs_subscribed {cfg : Config} {fraction minSize : ℚ} {as : List Action}
    {p : System} (hq : Along (step cfg) DecidesUndisturbed (init fraction minSize) as)
    (h : run (step cfg) (init fraction minSize) as = some p) {cid : CorrelationId} {w : ArbWatch}
    (hw : p.book.records cid = some w) {leg : ArbMinifiedInfo} (hleg : leg ∈ w.legs) :
    (p.tokenState (legEntry leg)).subscribed = true ∧
      (p.tokenState (legEntry leg)).newest = some true := by
  have hi := run_invariant_along (fun _ _ _ hs hp ht => WatchInv.step hs hp ht)
    (watchInv_init fraction minSize) hq h
  rw [(hi.legs cid w hw leg hleg).2.2.state]
  exact ⟨rfl, rfl⟩

/-- The server asks for the deletion of a pair. -/
def deleteSteps (cid : CorrelationId) : List Action :=
  [.receive (.deleteRunningArbs [cid]), commsOne, commsOne]

/-- The sample pair is deleted, its legs are unsubscribed, and it is confirmed again. -/
def resubscribeSteps : List Action :=
  confirmOffline (sampleArb "K" "11") "x" ++ deleteSteps "x" ++
    List.replicate 5 (.delTask 0 true) ++ confirmOffline (sampleArb "K" "11") "y"

/-- With the background tasks out of the way, the legs of the second confirmation stay
    subscribed. -/
theorem watched_legs_subscribed_sample :
    ∃ p w, run (step sampleConfig) (init (1 / 5) 2) resubscribeSteps = some p ∧
      p.book.records "y" = some w ∧ ∀ leg ∈ w.legs,
        (p.tokenState (legEntry leg)).subscribed = true ∧
          (p.tokenState (legEntry leg)).newest = some true := by
  have hrun : (run (step sampleConfig) (init (1 / 5) 2) resubscribeSteps).any
      (fun p => (p.book.records "y").isSome) = true := by decide +kernel
  have hq : Along (step sampleConfig) DecidesUndisturbed (init (1 / 5) 2) resubscribeSteps := by
    decide +kernel
  obtain ⟨p, hp, hsome⟩ := (Option.any_eq_true _ _).mp hrun
  obtain ⟨w, hw⟩ := Option.isSome_iff_exists.mp hsome
  exact ⟨p, w, hp, hw, fun leg hleg => watched_legs_subscribed hq hp hw hleg⟩

/-- The sample pair is deleted and confirmed again, and only then its legs are
    unsubscribed. -/
def overtakenSteps : List Action :=
  confirmSteps (sampleArb "K" "11") "x" ++ seedSteps "x" ++ [commsOne, commsOne] ++
    deleteSteps "x" ++
    .receive (.confirmedAndRun (sampleArb "K" "11") "y") :: List.replicate 4 commsOne ++
    seedSteps "y" ++ [commsOne, commsOne] ++ List.replicate 5 (.delTask 0 true)

/-- **A watched leg without a subscription**: every venue call succeeds, nothing is pending, and
    the legs of a registered arb are in no set. -/
theorem watched_leg_unsubscribed :
    ∃ p w, run (step sampleConfig) (init (1 / 5) 2) overtakenSteps = some p ∧
      p.betweenMessages = true ∧ p.spawned = [] ∧ p.book.records "y" = some w ∧
      ∀ leg ∈ w.legs, (p.tokenState (legEntry leg)).subscribed = false := by
  have hrun : (run (step sampleConfig) (init (1 / 5) 2) overtakenSteps).any (fun p =>
      p.betweenMessages && p.spawned.isEmpty && (p.book.records "y").any fun w =>
        w.legs.all fun leg => !(p.tokenState (legEntry leg)).subscribed) = true := by
    decide +kernel
  obtain ⟨p, hp, hcheck⟩ := (Option.any_eq_true _ _).mp hrun
  simp only [Bool.and_eq_true, List.isEmpty_iff] at hcheck
  obtain ⟨⟨hbetween, hspawned⟩, hrec⟩ := hcheck
  obtain ⟨w, hw, hall⟩ := (Option.any_eq_true _ _).mp hrec
  refine ⟨p, w, hp, hbetween, hspawned, hw, fun leg hleg => ?_⟩
  simpa using List.all_eq_true.mp hall leg hleg

end System

end Degenerate.Picker
