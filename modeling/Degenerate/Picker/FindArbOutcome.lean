import Degenerate.Picker.Subscriptions

/-!
# The Outcome of `find_arb`

`find_arb` subscribes its two legs one after the other, and only then asks whether both
subscriptions succeeded and whether the arb converts to a pair.  What it has subscribed
by then stays subscribed, also when the arb is dropped.

A run of `find_arb` is followed from its operation to the program counter `next`.
Between its steps the other tasks may move, apart from the background tasks, which
unsubscribe tokens themselves.

## Main Results

- `Finding.step`: where each step of `find_arb` leads
- `whole_or_nothing_iff`: when `find_arb` registers the whole pair or changes nothing
- `leg_left_subscribed`: one leg of a dropped arb stays subscribed
-/

namespace Degenerate.Picker

open Degenerate.Lib Degenerate.Platforms

/-! ## §1 One subscription -/

/-- The call is past its look into the set, and did not find its token there. -/
def AddCall.looked : AddCall → Bool
  | .kalshi (.check _) | .polymarket (.check _) => false
  | _ => true

/-- The steps that are left to a call, at most. -/
def AddCall.stepsLeft : AddCall → ℕ
  | .kalshi (.check _) => 4
  | .kalshi (.readSid _) | .polymarket (.check _) => 3
  | .kalshi (.send ..) | .polymarket (.send _) => 2
  | .kalshi (.insert _) | .polymarket (.insert _) => 1

theorem AddCall.stepsLeft_pos (call : AddCall) : 0 < call.stepsLeft := by
  cases call with
  | kalshi call => cases call <;> exact Nat.succ_pos _
  | polymarket call => cases call <;> exact Nat.succ_pos _

namespace System

/-- The token is in the set of its client. -/
def Subscribed (p : System) (e : Entry) : Prop := (p.tokenState e).subscribed = true

instance (p : System) (e : Entry) : Decidable (p.Subscribed e) :=
  inferInstanceAs (Decidable (_ = true))

/-- The tokens of `S`, and the entry of a subscription if it succeeds. -/
def After (S : Entry → Prop) (e : Entry) (ok : Bool) (e' : Entry) : Prop :=
  S e' ∨ e' = e ∧ ok = true

/-- A call for an entry, whose send succeeds or not, while the tokens of `S` are subscribed. -/
structure Calling (S : Entry → Prop) (e : Entry) (ok : Bool) (p : System) (call : AddCall) :
    Prop where
  entry : call.entry = e
  subscribes : call.Subscribes
  same : ∀ e', p.Subscribed e' ↔ S e'
  looked : call.looked = true → ¬ S e
  inserts : call.inserts = true → ok = true

theorem subscribed_kalshi {p : System} {t : String} :
    p.Subscribed (.kalshi, t) ↔ t ∈ p.kalshi.subscribedAssets := decide_eq_true_iff

theorem subscribed_polymarket {p : System} {t : String} :
    p.Subscribed (.polymarket, t) ↔ t ∈ p.polymarket.subscribedAssets := decide_eq_true_iff

theorem calling_start {S : Entry → Prop} {ok : Bool} {p : System} (e : Entry)
    (h : ∀ e', p.Subscribed e' ↔ S e') : Calling S e ok p (.start e) := by
  obtain ⟨_ | _, t⟩ := e <;>
    exact ⟨rfl, trivial, h, fun hl => absurd hl Bool.false_ne_true,
      fun hi => absurd hi Bool.false_ne_true⟩

theorem stepsLeft_start (e : Entry) : (AddCall.start e).stepsLeft ≤ 4 := by
  obtain ⟨_ | _, t⟩ := e
  · show 3 ≤ 4
    decide
  · show 4 ≤ 4
    decide

/-- Where a step of a call leads: the call goes on with the sets unchanged, or it ends, with
    success exactly when its token was in the set or its send succeeds. -/
def Leads (S : Entry → Prop) (e : Entry) (ok : Bool) (call : AddCall)
    (r : System × Progress AddCall) : Prop :=
  (∃ call', r.2 = .more call' ∧ call'.stepsLeft < call.stepsLeft ∧ Calling S e ok r.1 call') ∨
  (∃ done, r.2 = .done done ∧ (done = true ↔ S e ∨ ok = true) ∧
    ∀ e', r.1.Subscribed e' ↔ After S e ok e')

section Calling

variable {S : Entry → Prop} {e : Entry} {ok : Bool} {p r : System} {call call' : AddCall}
variable (h : Calling S e ok p call)

include h

/-- The call goes on. -/
theorem Calling.goes_on (hentry : call'.entry = call.entry) (hsubscribes : call'.Subscribes)
    (hstate : ∀ e', r.Subscribed e' ↔ p.Subscribed e') (hnot : ¬ S e)
    (hinserts : call'.inserts = true → ok = true) (hlt : call'.stepsLeft < call.stepsLeft) :
    Leads S e ok call (r, .more call') :=
  .inl ⟨call', rfl, hlt, hentry.trans h.entry, hsubscribes,
    fun e' => (hstate e').trans (h.same e'), fun _ => hnot, hinserts⟩

/-- The call finds its token in the set. -/
theorem Calling.found (hin : S e) : Leads S e ok call (p, .done true) := by
  refine .inr ⟨true, rfl, iff_of_true rfl (.inl hin), fun e' => ?_⟩
  rw [h.same]
  constructor
  · exact .inl
  · rintro (h' | ⟨rfl, -⟩)
    · exact h'
    · exact hin

/-- The send of the call fails. -/
theorem Calling.failed (hnot : ¬ S e) (hok : ok = false) :
    Leads S e ok call (p, .done false) := by
  subst hok
  refine .inr ⟨false, rfl, by simp [hnot], fun e' => ?_⟩
  rw [h.same]
  simp [After]

/-- The call inserts its token. -/
theorem Calling.inserted (hok : ok = true)
    (hstate : ∀ e', r.Subscribed e' ↔ e' = call.entry ∨ p.Subscribed e') :
    Leads S e ok call (r, .done true) := by
  refine .inr ⟨true, rfl, iff_of_true rfl (.inr hok), fun e' => ?_⟩
  show r.Subscribed e' ↔ S e' ∨ e' = e ∧ ok = true
  rw [hstate, h.entry, h.same]
  simp only [hok, and_true]
  exact or_comm

end Calling

/-- **One step of a subscription.** -/
theorem Calling.step {S : Entry → Prop} {e : Entry} {ok : Bool} {p : System} {call : AddCall}
    (h : Calling S e ok p call) : Leads S e ok call (p.addStep ok call) := by
  -- the entry of the call is subscribed as it was when the call started
  have hin : S e ↔ p.Subscribed call.entry := by
    rw [h.same, h.entry]
  cases call with
  | kalshi call =>
    cases call with
    -- the check: the leg is subscribed already, or the call goes on
    | check t =>
      have hin' : S e ↔ t ∈ p.kalshi.subscribedAssets := hin.trans subscribed_kalshi
      simp only [addStep, KalshiClient.addStep]
      split
      · rename_i ht
        exact h.found (hin'.mpr ht)
      · rename_i ht
        exact h.goes_on rfl trivial (fun _ => Iff.rfl) (fun hs => ht (hin'.mp hs))
          (fun hi => absurd hi Bool.false_ne_true) (Nat.lt_succ_self 3)
    -- the SID decides which command is sent, not whether one is
    | readSid t =>
      exact h.goes_on rfl (p.kalshi.orderbookCommand_effect t) (fun _ => Iff.rfl) (h.looked rfl)
        (fun hi => absurd hi Bool.false_ne_true) (Nat.lt_succ_self 2)
    -- a failed send ends the call without an insert
    | send t cmd =>
      cases ok with
      | false => exact h.failed (h.looked rfl) rfl
      | true =>
        refine h.goes_on rfl trivial (fun e' => ?_) (h.looked rfl) (fun _ => rfl)
          (Nat.lt_succ_self 1)
        obtain ⟨_ | _, t'⟩ := e' <;> exact Iff.rfl
    -- the insert subscribes the leg and no other
    | insert t =>
      refine h.inserted (h.inserts rfl) fun e' => ?_
      obtain ⟨_ | _, t'⟩ := e'
      · simp [subscribed_polymarket, AddCall.entry]
      · simp [subscribed_kalshi, KalshiClient.addStep, AddCall.entry, KalshiAdd.token]
  -- Polymarket has no SID to look up
  | polymarket call =>
    cases call with
    | check t =>
      have hin' : S e ↔ t ∈ p.polymarket.subscribedAssets := hin.trans subscribed_polymarket
      simp only [addStep, PolymarketClient.addStep]
      split
      · rename_i ht
        exact h.found (hin'.mpr ht)
      · rename_i ht
        exact h.goes_on rfl trivial (fun _ => Iff.rfl) (fun hs => ht (hin'.mp hs))
          (fun hi => absurd hi Bool.false_ne_true) (Nat.lt_succ_self 2)
    | send t =>
      cases ok with
      | false => exact h.failed (h.looked rfl) rfl
      | true =>
        refine h.goes_on rfl trivial (fun e' => ?_) (h.looked rfl) (fun _ => rfl)
          (Nat.lt_succ_self 1)
        obtain ⟨_ | _, t'⟩ := e' <;> exact Iff.rfl
    | insert t =>
      refine h.inserted (h.inserts rfl) fun e' => ?_
      obtain ⟨_ | _, t'⟩ := e'
      · simp [subscribed_polymarket, PolymarketClient.addStep, AddCall.entry, PolymarketAdd.token]
      · simp [subscribed_kalshi, AddCall.entry]

/-! ## §2 A run of `find_arb` -/

/-- The step is one of `find_arb` whose send succeeds as given for its leg, or one of another task
    that does not touch the sets of the clients. -/
def alone (anchorOk matchOk : Bool) (p : System) : Action → Bool
  | .comms c =>
      match p.comms.pc with
      | .next => false
      | .finding f => c.sendOk == if f.left.isEmpty then matchOk else anchorOk
      | _ => true
  | .receive _ | .delTask .. => false
  | _ => true

/-- The close times that `find_arb` reads are both readable, and one is within the hour. -/
def ClosesWithinHour (now : ℤ) (arb : Arb) : Prop :=
  ∃ a m, findLeg "anchor" arb.anchor = .ok a ∧ findLeg "match" arb.match = .ok m ∧
    (closesWithin now oneHourMs a.2.1 || closesWithin now oneHourMs m.2.1) = true

/-- `find_arb` runs from its operation to its end, with other tasks in between. -/
def FindArbRuns (cfg : Config) (c : Choice) (anchorOk matchOk : Bool) (p q : System) : Prop :=
  ∃ t as, step cfg p (.comms c) = some t ∧
    Along (step cfg) (fun s a => alone anchorOk matchOk s a = true) t as ∧
    run (step cfg) t as = some q ∧ q.comms.pc = .next

/-- The steps that are left to `find_arb`, at most. -/
def findArbLeft (p : System) : ℕ :=
  match p.comms.pc with
  | .finding f => f.call.stepsLeft + 5 * f.left.length + 1
  | .registering _ => 1
  | _ => 0

section FindArbRun

variable (arb : Arb) (cid : CorrelationId) (anchor «match» : Entry) (anchorOk matchOk : Bool)
variable (S : Entry → Prop) (b : Book)

/-- The tokens that are subscribed when both calls have ended. -/
def AfterBoth (e : Entry) : Prop := After (After S anchor anchorOk) «match» matchOk e

/-- Both calls succeed. -/
def BothSucceed : Prop :=
  (S anchor ∨ anchorOk = true) ∧ (After S anchor anchorOk «match» ∨ matchOk = true)

/-- Where `find_arb` is, on an arb with these two entries. -/
inductive Finding : System → Prop where
  | first {p call} (hpc : p.comms.pc = .finding ⟨arb, cid, call, [«match»], 0⟩)
      (hbook : p.book = b) (hcall : Calling S anchor anchorOk p call) : Finding p
  | second {p call} {done : Bool}
      (hpc : p.comms.pc = .finding ⟨arb, cid, call, [], if done then 1 else 0⟩)
      (hbook : p.book = b) (hdone : done = true ↔ S anchor ∨ anchorOk = true)
      (hcall : Calling (After S anchor anchorOk) «match» matchOk p call) : Finding p
  | registering {p pair} (hpc : p.comms.pc = .registering ⟨cid, pair⟩) (hbook : p.book = b)
      (hpair : ArbMinifiedInfoPair.tryFrom arb = .ok pair)
      (hboth : BothSucceed anchor «match» anchorOk matchOk S)
      (hsame : ∀ e, p.Subscribed e ↔ AfterBoth anchor «match» anchorOk matchOk S e) : Finding p
  | registered {p pair} (hpc : p.comms.pc = .next) (hbook : p.book = b.registerArb ⟨cid, pair⟩)
      (hpair : ArbMinifiedInfoPair.tryFrom arb = .ok pair)
      (hboth : BothSucceed anchor «match» anchorOk matchOk S)
      (hsame : ∀ e, p.Subscribed e ↔ AfterBoth anchor «match» anchorOk matchOk S e) : Finding p
  | dropped {p} (hpc : p.comms.pc = .next) (hbook : p.book = b)
      (hnot : BothSucceed anchor «match» anchorOk matchOk S →
        ∀ pair, ArbMinifiedInfoPair.tryFrom arb ≠ .ok pair)
      (hsame : ∀ e, p.Subscribed e ↔ AfterBoth anchor «match» anchorOk matchOk S e) : Finding p

variable {arb cid anchor «match» anchorOk matchOk S b}

/-- A step of another task leaves alone what `find_arb` is about. -/
theorem aside_of_alone {cfg : Config} {p q : System} {a : Action}
    (halone : alone anchorOk matchOk p a = true) (h : step cfg p a = some q)
    (ha : ∀ c, a ≠ .comms c) :
    q.comms = p.comms ∧ q.book = p.book ∧ q.tokenState = p.tokenState := by
  cases a with
  | receive msg => cases halone
  | comms c => exact absurd rfl (ha c)
  | execReceive ans =>
    -- the executor's own steps
    obtain ⟨_, _, _, -, -, rfl⟩ := execReceive_cases h
    exact ⟨rfl, rfl, rfl⟩
  | execEffect =>
    obtain ⟨cid, e, _, _, -, -, -, rfl⟩ := execEffect_cases h
    obtain ⟨hwatch, -, hcomms⟩ := applyEffect_frame p e
    exact ⟨hcomms, hwatch.book, hwatch.tokenState⟩
  | execFinish =>
    obtain ⟨x, -, rfl⟩ := Option.map_eq_some_iff.mp h
    exact ⟨rfl, rfl, rfl⟩
  | execRefresh f =>
    obtain ⟨x, -, rfl⟩ := Option.map_eq_some_iff.mp h
    exact ⟨rfl, rfl, rfl⟩
  | delTask i ok => cases halone
  | subscribedResponse channel sid =>
    -- a SID is recorded, the sets stay
    cases h
    refine ⟨rfl, rfl, ?_⟩
    funext entry
    obtain ⟨_ | _, t⟩ := entry
    · rfl
    · exact p.kalshi.tokenState_subscribedResponse channel sid t
  | tick ms =>
    cases h
    exact ⟨rfl, rfl, rfl⟩

theorem Calling.congr {e : Entry} {ok : Bool} {p q : System} {call : AddCall}
    (h : Calling S e ok p call) (hstate : q.tokenState = p.tokenState) :
    Calling S e ok q call := by
  refine ⟨h.entry, h.subscribes, fun e' => ?_, h.looked, h.inserts⟩
  rw [Subscribed, hstate]
  exact h.same e'

theorem Finding.congr {p q : System} (h : Finding arb cid anchor «match» anchorOk matchOk S b p)
    (hcomms : q.comms = p.comms) (hbook : q.book = p.book) (hstate : q.tokenState = p.tokenState) :
    Finding arb cid anchor «match» anchorOk matchOk S b q := by
  have hsubs : ∀ e, q.Subscribed e ↔ p.Subscribed e := by
    intro e
    rw [Subscribed, hstate]
    exact Iff.rfl
  cases h with
  | first hpc hb hcall => exact .first (hcomms ▸ hpc) (hbook.trans hb) (hcall.congr hstate)
  | second hpc hb hdone hcall =>
    exact .second (hcomms ▸ hpc) (hbook.trans hb) hdone (hcall.congr hstate)
  | registering hpc hb hpair hboth hsame =>
    exact .registering (hcomms ▸ hpc) (hbook.trans hb) hpair hboth
      fun e => (hsubs e).trans (hsame e)
  | registered hpc hb hpair hboth hsame =>
    exact .registered (hcomms ▸ hpc) (hbook.trans hb) hpair hboth
      fun e => (hsubs e).trans (hsame e)
  | dropped hpc hb hnot hsame =>
    exact .dropped (hcomms ▸ hpc) (hbook.trans hb) hnot fun e => (hsubs e).trans (hsame e)

/-- A step of the loop, by where the step of its call leads. -/
theorem findStep_of_leads {S' : Entry → Prop} {e : Entry} {ok : Bool} {c : Choice} {p : System}
    {f : FindArb} (hok : c.sendOk = ok) (hcall : Calling S' e ok p f.call) :
    (∃ call', (findStep c p f).comms.pc = .finding { f with call := call' } ∧
      call'.stepsLeft < f.call.stepsLeft ∧ Calling S' e ok (findStep c p f) call') ∨
    (∃ done, (findStep c p f).comms.pc = f.advance done ∧ (done = true ↔ S' e ∨ ok = true) ∧
      ∀ e', (findStep c p f).Subscribed e' ↔ After S' e ok e') := by
  subst hok
  rcases hcall.step with ⟨call', hmore, hlt, hcall'⟩ | ⟨done, hdone, hiff, hsame⟩
  · refine .inl ⟨call', ?_, hlt, hcall'.congr rfl⟩
    show f.resume (p.addStep c.sendOk f.call).2 = _
    rw [hmore, FindArb.resume]
  · refine .inr ⟨done, ?_, hiff, hsame⟩
    show f.resume (p.addStep c.sendOk f.call).2 = _
    rw [hdone, FindArb.resume]

/-- **One step**: `find_arb` goes from its first leg to its second and from there to its end,
    and every step of its own decreases what is left. -/
theorem Finding.own_step (cfg : Config) {c : Choice} {p : System}
    (h : Finding arb cid anchor «match» anchorOk matchOk S b p)
    (halone : alone anchorOk matchOk p (.comms c) = true) :
    ∃ q, step cfg p (.comms c) = some q ∧
      Finding arb cid anchor «match» anchorOk matchOk S b q ∧ q.findArbLeft < p.findArbLeft := by
  cases h with
  | @first call hpc hbook hcall =>
    have hsend : c.sendOk = anchorOk := by
      simpa only [alone, hpc, List.isEmpty_cons, Bool.false_eq_true, if_false, beq_iff_eq]
        using halone
    refine ⟨findStep c p ⟨arb, cid, call, [«match»], 0⟩, by simp only [step, commsStep, hpc], ?_⟩
    have hbook' := (findStep_frame c p ⟨arb, cid, call, [«match»], 0⟩).2.1.trans hbook
    -- a step of the first subscription, or its end and the start of the second
    rcases findStep_of_leads (f := ⟨arb, cid, call, [«match»], 0⟩) hsend hcall with
      ⟨call', hpc', hlt, hcall'⟩ | ⟨done, hpc', hdone, hsame⟩
    · refine ⟨.first hpc' hbook' hcall', ?_⟩
      simpa only [findArbLeft, hpc', hpc, Nat.add_lt_add_iff_right] using hlt
    · have hpc'' : (findStep c p ⟨arb, cid, call, [«match»], 0⟩).comms.pc =
          .finding ⟨arb, cid, .start «match», [], if done then 1 else 0⟩ := by
        rw [hpc', FindArb.advance, Nat.zero_add]
      refine ⟨.second hpc'' hbook' hdone (calling_start «match» hsame), ?_⟩
      have hstart := stepsLeft_start «match»
      simp only [findArbLeft, hpc'', hpc, List.length_nil, List.length_singleton]
      omega
  | @second call done hpc hbook hdone hcall =>
    have hsend : c.sendOk = matchOk := by
      simpa only [alone, hpc, List.isEmpty_nil, if_true, beq_iff_eq] using halone
    refine ⟨findStep c p ⟨arb, cid, call, [], if done then 1 else 0⟩,
      by simp only [step, commsStep, hpc], ?_⟩
    have hbook' := (findStep_frame c p ⟨arb, cid, call, [], if done then 1 else 0⟩).2.1.trans hbook
    -- a step of the second subscription, or its end
    rcases findStep_of_leads (f := ⟨arb, cid, call, [], if done then 1 else 0⟩) hsend hcall with
      ⟨call', hpc', hlt, hcall'⟩ | ⟨done', hpc', hdone', hsame⟩
    · refine ⟨.second hpc' hbook' hdone hcall', ?_⟩
      simpa only [findArbLeft, hpc', hpc, Nat.add_lt_add_iff_right] using hlt
    · have hboth : BothSucceed anchor «match» anchorOk matchOk S ↔ done = true ∧ done' = true := by
        rw [hdone, hdone']
        exact Iff.rfl
      rcases advance_cases ⟨arb, cid, call, [], if done then 1 else 0⟩ done' with
        ⟨_, _, hleft, -⟩ | ⟨-, hadv⟩ | ⟨-, hcount, pair, hpair, hadv⟩
      · cases hleft
      · -- dropped: a leg is missing, or the arb does not convert
        have hpc'' := hpc'.trans hadv
        refine ⟨.dropped hpc'' hbook' (fun hb pair hpair => ?_) hsame, ?_⟩
        · obtain ⟨rfl, rfl⟩ := hboth.mp hb
          simp [FindArb.advance, hpair] at hadv
        · simp only [findArbLeft, hpc'', hpc]
          exact Nat.succ_pos _
      · have hpc'' := hpc'.trans hadv
        -- two successes were counted
        have htrue : done = true ∧ done' = true := by
          cases done <;> cases done' <;> simp at hcount ⊢
        refine ⟨.registering hpc'' hbook' hpair (hboth.mpr htrue) hsame, ?_⟩
        have hleft : 0 < call.stepsLeft := call.stepsLeft_pos
        simp only [findArbLeft, hpc'', hpc, List.length_nil]
        omega
  | @registering pair hpc hbook hpair hboth hsame =>
    refine ⟨p.register ⟨cid, pair⟩, by simp only [step, commsStep, hpc],
      .registered rfl ?_ hpair hboth hsame, ?_⟩
    · rw [← hbook]
      rfl
    · simp only [findArbLeft, hpc]
      exact Nat.zero_lt_one
  -- at its end it takes no step of its own
  | registered hpc => simp only [alone, hpc] at halone; cases halone
  | dropped hpc => simp only [alone, hpc] at halone; cases halone

/-- **Any step** that may be taken keeps `find_arb` on its way. -/
theorem Finding.step {cfg : Config} {p q : System} {a : Action}
    (h : Finding arb cid anchor «match» anchorOk matchOk S b p)
    (halone : alone anchorOk matchOk p a = true) (hstep : System.step cfg p a = some q) :
    Finding arb cid anchor «match» anchorOk matchOk S b q := by
  by_cases ha : ∃ c, a = .comms c
  · obtain ⟨c, rfl⟩ := ha
    obtain ⟨q', hq', hfinding, -⟩ := h.own_step cfg halone
    obtain rfl : q' = q := Option.some.inj (hq'.symm.trans hstep)
    exact hfinding
  · push Not at ha
    obtain ⟨hcomms, hbook, hstate⟩ := aside_of_alone halone hstep ha
    exact h.congr hcomms hbook hstate

/-- A choice under which the next send of `find_arb` succeeds as given. -/
theorem exists_alone {p : System} (h : Finding arb cid anchor «match» anchorOk matchOk S b p)
    (hleft : p.findArbLeft ≠ 0) (c : Choice) :
    ∃ c', alone anchorOk matchOk p (.comms c') = true := by
  cases h with
  | first hpc => exact ⟨{ c with sendOk := anchorOk }, by simp [alone, hpc]⟩
  | second hpc => exact ⟨{ c with sendOk := matchOk }, by simp [alone, hpc]⟩
  | registering hpc => exact ⟨c, by simp [alone, hpc]⟩
  | registered hpc => exact absurd (by simp [findArbLeft, hpc]) hleft
  | dropped hpc => exact absurd (by simp [findArbLeft, hpc]) hleft

/-- `find_arb` ends. -/
theorem Finding.ends (cfg : Config) (c : Choice) {p : System}
    (h : Finding arb cid anchor «match» anchorOk matchOk S b p) :
    ∃ as q, Along (System.step cfg) (fun s a => alone anchorOk matchOk s a = true) p as ∧
      run (System.step cfg) p as = some q ∧ q.comms.pc = .next := by
  have hprogress : ∀ s, Finding arb cid anchor «match» anchorOk matchOk S b s →
      s.findArbLeft ≠ 0 → ∃ a t, alone anchorOk matchOk s a = true ∧
        System.step cfg s a = some t ∧ Finding arb cid anchor «match» anchorOk matchOk S b t ∧
        t.findArbLeft < s.findArbLeft := by
    intro s hs hleft
    obtain ⟨c', halone⟩ := exists_alone hs hleft c
    obtain ⟨t, ht, hfinding, hlt⟩ := hs.own_step cfg halone
    exact ⟨.comms c', t, halone, ht, hfinding, hlt⟩
  -- each step of the call comes closer to its end
  obtain ⟨as, q, halong, hrun, hfinding, hzero⟩ := exists_run_of_measure findArbLeft hprogress h
  refine ⟨as, q, halong, hrun, ?_⟩
  cases hfinding with
  | first hpc => simp [findArbLeft, hpc] at hzero
  | second hpc => simp [findArbLeft, hpc] at hzero
  | registering hpc => simp [findArbLeft, hpc] at hzero
  | registered hpc => exact hpc
  | dropped hpc => exact hpc

end FindArbRun

/-- The first step of `find_arb`: at its first leg, or done with an arb that it cannot read. -/
theorem findArb_starts {cfg : Config} {c : Choice} {p t : System} {arb : Arb}
    {cid : CorrelationId} {rest : List CommsOp} (hpc : p.comms.pc = .next)
    (htodo : p.comms.todo = .findArb arb cid :: rest) (hopen : ¬ ClosesWithinHour c.utcNow arb)
    (h : step cfg p (.comms c) = some t) :
    (∃ anchor «match», EntriesOf arb anchor «match» ∧ ∀ anchorOk matchOk,
      Finding arb cid anchor «match» anchorOk matchOk p.Subscribed p.book t) ∨
    ((∀ anchor «match», ¬ EntriesOf arb anchor «match») ∧ t = p.pop rest) := by
  have ht : t = findArb c (p.pop rest) arb cid := by
    simp only [step, commsStep, hpc, htodo, opStep, Option.some.injEq] at h
    exact h.symm
  subst ht
  unfold findArb
  split
  · -- both legs have an entry, and neither closes too soon
    rename_i anchorPlatform anchorClose anchorToken matchPlatform matchClose matchToken ha hm
    split
    · rename_i hclose
      exact absurd ⟨_, _, ha, hm, hclose⟩ hopen
    · refine .inl ⟨(anchorPlatform, anchorToken), (matchPlatform, matchToken),
        ⟨anchorClose, matchClose, ha, hm⟩, fun anchorOk matchOk => ?_⟩
      exact .first rfl rfl (calling_start _ fun _ => Iff.rfl)
  · rename_i hnot
    refine .inr ⟨fun anchor «match» hentries => ?_, rfl⟩
    obtain ⟨_, _, ha, hm⟩ := hentries
    exact hnot _ _ _ _ _ _ ha hm

/-! ## §3 Whole or nothing -/

/-- The arb is registered and both its legs are subscribed, or the book and the sets of the
    clients are what they were. -/
def WholeOrNothing (arb : Arb) (cid : CorrelationId) (p q : System) : Prop :=
  (∃ pair, ArbMinifiedInfoPair.tryFrom arb = .ok pair ∧ q.book = p.book.registerArb ⟨cid, pair⟩ ∧
    q.Subscribed (legEntry pair.anchor) ∧ q.Subscribed (legEntry pair.match)) ∨
  (q.book = p.book ∧ q.kalshi.subscribedAssets = p.kalshi.subscribedAssets ∧
    q.polymarket.subscribedAssets = p.polymarket.subscribedAssets)

/-- Nothing is newly subscribed, or both subscriptions succeed and the arb converts; or its two
    legs are one entry, and it is registered already as it stands. -/
def SettlesWhole (arb : Arb) (cid : CorrelationId) (anchorOk matchOk : Bool) (p : System) : Prop :=
  ∀ anchor «match», EntriesOf arb anchor «match» →
    ((anchorOk = true → p.Subscribed anchor) ∧ (matchOk = true → p.Subscribed «match»)) ∨
    ∃ pair, ArbMinifiedInfoPair.tryFrom arb = .ok pair ∧
      (BothSucceed anchor «match» anchorOk matchOk p.Subscribed ∨
        anchor = «match» ∧ matchOk = true ∧ p.book.registerArb ⟨cid, pair⟩ = p.book)

/-- An arb has one pair of entries. -/
theorem EntriesOf.unique {arb : Arb} {anchor anchor' «match» match' : Entry}
    (h : EntriesOf arb anchor «match») (h' : EntriesOf arb anchor' match') :
    anchor' = anchor ∧ match' = «match» := by
  obtain ⟨_, _, ha, hm⟩ := h
  obtain ⟨_, _, ha', hm'⟩ := h'
  have hanchor := ha.symm.trans ha'
  have hmatch := hm.symm.trans hm'
  simp only [Except.ok.injEq, Prod.mk.injEq] at hanchor hmatch
  exact ⟨Prod.ext hanchor.1.symm hanchor.2.2.symm, Prod.ext hmatch.1.symm hmatch.2.2.symm⟩

/-- A converted arb has its legs on the entries that `find_arb` read. -/
theorem legEntries_of_tryFrom {arb : Arb} {anchor «match» : Entry} {pair : ArbMinifiedInfoPair}
    (hentries : EntriesOf arb anchor «match») (h : ArbMinifiedInfoPair.tryFrom arb = .ok pair) :
    legEntry pair.anchor = anchor ∧ legEntry pair.match = «match» := by
  obtain ⟨_, _, hra, hrm⟩ := hentries
  obtain ⟨a, m, ha, hm, hla, hlm⟩ := ArbMinifiedInfoPair.tryFrom_ok h
  exact ⟨(entry_of_tryFrom hra ha hla).1, (entry_of_tryFrom hrm hm hlm).1⟩

/-- The sets are unchanged exactly when the same tokens are subscribed. -/
theorem sets_eq_iff {p q : System} :
    (q.kalshi.subscribedAssets = p.kalshi.subscribedAssets ∧
      q.polymarket.subscribedAssets = p.polymarket.subscribedAssets) ↔
    ∀ e, q.Subscribed e ↔ p.Subscribed e := by
  constructor
  · rintro ⟨hk, hp⟩ ⟨_ | _, t⟩
    · rw [subscribed_polymarket, subscribed_polymarket, hp]
    · rw [subscribed_kalshi, subscribed_kalshi, hk]
  · intro h
    constructor
    · ext t
      exact subscribed_kalshi.symm.trans ((h (.kalshi, t)).trans subscribed_kalshi)
    · ext t
      exact subscribed_polymarket.symm.trans ((h (.polymarket, t)).trans subscribed_polymarket)

section Settled

variable {arb : Arb} {cid : CorrelationId} {anchor «match» : Entry} {anchorOk matchOk : Bool}
variable {p q : System}

/-- Both calls leave the tokens alone exactly when neither sends for a new one. -/
theorem afterBoth_iff_self {S : Entry → Prop} :
    (∀ e, AfterBoth anchor «match» anchorOk matchOk S e ↔ S e) ↔
      (anchorOk = true → S anchor) ∧ (matchOk = true → S «match») := by
  constructor
  · intro h
    exact ⟨fun hok => (h anchor).mp (.inl (.inr ⟨rfl, hok⟩)),
      fun hok => (h «match»).mp (.inr ⟨rfl, hok⟩)⟩
  · rintro ⟨hanchor, hmatch⟩ e
    constructor
    · rintro ((h | ⟨rfl, hok⟩) | ⟨rfl, hok⟩)
      · exact h
      · exact hanchor hok
      · exact hmatch hok
    · exact fun h => .inl (.inl h)

/-- Both entries are subscribed in the end exactly when both calls succeed, or the one entry of
    both is subscribed by the second call. -/
theorem afterBoth_entries_iff {S : Entry → Prop} :
    (AfterBoth anchor «match» anchorOk matchOk S anchor ∧
      AfterBoth anchor «match» anchorOk matchOk S «match») ↔
    BothSucceed anchor «match» anchorOk matchOk S ∨ anchor = «match» ∧ matchOk = true := by
  have hanchor : After S anchor anchorOk anchor ↔ S anchor ∨ anchorOk = true := by
    simp [After]
  have hmatch : AfterBoth anchor «match» anchorOk matchOk S «match» ↔
      After S anchor anchorOk «match» ∨ matchOk = true := by
    simp [AfterBoth, After]
  rw [hmatch]
  show (After S anchor anchorOk anchor ∨ anchor = «match» ∧ matchOk = true) ∧ _ ↔ _
  rw [hanchor, BothSucceed]
  constructor
  · rintro ⟨h | h, h'⟩
    · exact .inl ⟨h, h'⟩
    · exact .inr h
  · rintro (h | h)
    · exact ⟨.inl h.1, h.2⟩
    · exact ⟨.inr h, .inr h.2⟩

/-- The end of `find_arb` is whole or nothing exactly when the arb settles whole. -/
theorem Finding.whole_iff (hentries : EntriesOf arb anchor «match»)
    (h : Finding arb cid anchor «match» anchorOk matchOk p.Subscribed p.book q)
    (hpc : q.comms.pc = .next) :
    WholeOrNothing arb cid p q ↔
      ((anchorOk = true → p.Subscribed anchor) ∧ (matchOk = true → p.Subscribed «match»)) ∨
      ∃ pair, ArbMinifiedInfoPair.tryFrom arb = .ok pair ∧
        (BothSucceed anchor «match» anchorOk matchOk p.Subscribed ∨
          anchor = «match» ∧ matchOk = true ∧ p.book.registerArb ⟨cid, pair⟩ = p.book) := by
  have hwhole : ∀ {pair}, ArbMinifiedInfoPair.tryFrom arb = .ok pair →
      (∀ e, q.Subscribed e ↔ AfterBoth anchor «match» anchorOk matchOk p.Subscribed e) →
      (q.Subscribed (legEntry pair.anchor) ∧ q.Subscribed (legEntry pair.match) ↔
        BothSucceed anchor «match» anchorOk matchOk p.Subscribed ∨
          anchor = «match» ∧ matchOk = true) := by
    intro pair hpair hsame
    obtain ⟨ha, hm⟩ := legEntries_of_tryFrom hentries hpair
    rw [ha, hm, hsame, hsame]
    exact afterBoth_entries_iff
  cases h with
  | first hpc' => cases hpc.symm.trans hpc'
  | second hpc' => cases hpc.symm.trans hpc'
  | registering hpc' => cases hpc.symm.trans hpc'
  | @registered pair _ hbook hpair hboth hsame =>
    refine iff_of_true (.inl ⟨pair, hpair, hbook, ?_⟩) (.inr ⟨pair, hpair, .inl hboth⟩)
    exact (hwhole hpair hsame).mpr (.inl hboth)
  | dropped _ hbook hnot hsame =>
    have hsets : (q.kalshi.subscribedAssets = p.kalshi.subscribedAssets ∧
        q.polymarket.subscribedAssets = p.polymarket.subscribedAssets) ↔
        (anchorOk = true → p.Subscribed anchor) ∧ (matchOk = true → p.Subscribed «match») := by
      rw [sets_eq_iff, ← afterBoth_iff_self]
      exact forall_congr' fun e => by rw [hsame]
    rw [WholeOrNothing, hsets]
    constructor
    · rintro (⟨pair, hpair, hreg, hlegs⟩ | ⟨-, h⟩)
      · -- the book was not written, so the arb was registered before
        refine .inr ⟨pair, hpair, ?_⟩
        rcases (hwhole hpair hsame).mp hlegs with hboth | ⟨heq, hok⟩
        · exact .inl hboth
        · exact .inr ⟨heq, hok, hreg.symm.trans hbook⟩
      · exact .inl h
    · rintro (h | ⟨pair, hpair, hboth | ⟨heq, hok, hreg⟩⟩)
      · exact .inr ⟨hbook, h⟩
      · exact absurd hpair (hnot hboth pair)
      · exact .inl ⟨pair, hpair, hbook.trans hreg.symm,
          (hwhole hpair hsame).mpr (.inr ⟨heq, hok⟩)⟩

/-- No token is lost on the way. -/
theorem Finding.keeps {S : Entry → Prop} {b : Book}
    (h : Finding arb cid anchor «match» anchorOk matchOk S b q) {e : Entry} (he : S e) :
    q.Subscribed e := by
  cases h with
  | first _ _ hcall => exact (hcall.same e).mpr he
  | second _ _ _ hcall => exact (hcall.same e).mpr (.inl he)
  | registering _ _ _ _ hsame => exact (hsame e).mpr (.inl (.inl he))
  | registered _ _ _ _ hsame => exact (hsame e).mpr (.inl (.inl he))
  | dropped _ _ _ hsame => exact (hsame e).mpr (.inl (.inl he))

end Settled

/-- **Whole or nothing**: for every message, all outcomes of the two sends and all steps of the
    executor, the clock and the sockets in between, `find_arb` ends, and it registers the whole
    pair or changes nothing exactly when the arb settles whole.  A token that was subscribed
    before stays so.  No background task moves during the call: it would take tokens out of
    the sets itself. -/
theorem whole_or_nothing_iff (cfg : Config) {c : Choice} {p : System} {arb : Arb}
    {cid : CorrelationId} {rest : List CommsOp} (anchorOk matchOk : Bool)
    (hpc : p.comms.pc = .next) (htodo : p.comms.todo = .findArb arb cid :: rest)
    (hopen : ¬ ClosesWithinHour c.utcNow arb) :
    (∃ q, FindArbRuns cfg c anchorOk matchOk p q) ∧
    ∀ q, FindArbRuns cfg c anchorOk matchOk p q →
      (WholeOrNothing arb cid p q ↔ SettlesWhole arb cid anchorOk matchOk p) ∧
      ∀ e, p.Subscribed e → q.Subscribed e := by
  have hfirst : step cfg p (.comms c) = some (findArb c (p.pop rest) arb cid) := by
    simp only [step, commsStep, hpc, htodo, opStep]
  rcases findArb_starts hpc htodo hopen hfirst with ⟨anchor, «match», hentries, hstart⟩ |
    ⟨hnot, hdone⟩
  · refine ⟨?_, ?_⟩
    · obtain ⟨as, q, halong, hrun, hend⟩ := (hstart anchorOk matchOk).ends cfg c
      exact ⟨q, _, as, hfirst, halong, hrun, hend⟩
    · rintro q ⟨t, as, ht, halong, hrun, hend⟩
      obtain rfl := Option.some.inj (hfirst.symm.trans ht)
      have hq := run_invariant_along (fun _ _ _ hs ha hstep => Finding.step hs ha hstep)
        (hstart anchorOk matchOk) halong hrun
      refine ⟨(hq.whole_iff hentries hend).trans ?_, fun e he => hq.keeps he⟩
      constructor
      · intro h anchor' match' hentries'
        obtain ⟨rfl, rfl⟩ := hentries.unique hentries'
        exact h
      · exact fun h => h anchor «match» hentries
  · -- the arb is given up before any subscription
    rw [hdone] at hfirst
    refine ⟨⟨p.pop rest, _, [], hfirst, along_nil .., rfl, hpc⟩, ?_⟩
    rintro q ⟨t, as, ht, halong, hrun, -⟩
    obtain rfl := Option.some.inj (hfirst.symm.trans ht)
    have hstart : (p.pop rest).comms.pc = .next ∧ (p.pop rest).book = p.book ∧
        (p.pop rest).tokenState = p.tokenState := ⟨hpc, rfl, rfl⟩
    have hq : q.comms.pc = .next ∧ q.book = p.book ∧ q.tokenState = p.tokenState := by
      refine run_invariant_along (I := fun s : System => s.comms.pc = .next ∧ s.book = p.book ∧
        s.tokenState = p.tokenState) (fun s a s' hs ha hstep => ?_) hstart halong hrun
      obtain ⟨hs, hb, hstate⟩ := hs
      have hother : ∀ c', a ≠ .comms c' := by
        rintro c' rfl
        simp [alone, hs] at ha
      obtain ⟨hcomms, hbook, hstate'⟩ := aside_of_alone ha hstep hother
      exact ⟨hcomms ▸ hs, hbook.trans hb, hstate'.trans hstate⟩
    have hsubs : ∀ e, q.Subscribed e ↔ p.Subscribed e := by
      intro e
      rw [Subscribed, hq.2.2]
      exact Iff.rfl
    refine ⟨iff_of_true (.inr ⟨hq.2.1, sets_eq_iff.mpr hsubs⟩) ?_, fun e => (hsubs e).mpr⟩
    exact fun anchor «match» h => absurd h (hnot anchor «match»)

/-- The sample pair is confirmed, and nothing else has happened. -/
def confirmedState : System :=
  { init (1 / 5) 2 with comms := ⟨.next, [.findArb (sampleArb "K" "11") "x"]⟩ }

/-- A step of the comms task whose send succeeds or not. -/
def commsSend (sendOk : Bool) : Choice := { markets := oneSlugVenue, sendOk }

/-- The steps of `find_arb` after its first, with a failure of the second send. -/
def oneLegSteps : List Action :=
  List.replicate 4 (.comms (commsSend true)) ++ List.replicate 2 (.comms (commsSend false))

/-- At the start of time the sample pair does not close within the hour. -/
theorem sampleArb_open (c : Choice) (h : c.utcNow = 0) :
    ¬ ClosesWithinHour c.utcNow (sampleArb "K" "11") := by
  rintro ⟨a, m, ha, hm, hclose⟩
  cases ha
  cases hm
  rw [h] at hclose
  revert hclose
  decide +kernel

/-- With both sends successful, the sample pair is registered whole. -/
theorem whole_or_nothing_sample :
    ∃ q, FindArbRuns sampleConfig (commsSend true) true true confirmedState q ∧
      WholeOrNothing (sampleArb "K" "11") "x" confirmedState q := by
  obtain ⟨⟨q, hq⟩, hall⟩ := whole_or_nothing_iff sampleConfig (c := commsSend true)
    (p := confirmedState) true true rfl rfl (sampleArb_open _ rfl)
  refine ⟨q, hq, (hall q hq).1.mpr fun anchor «match» _ => .inr ⟨samplePair, ?_, ?_⟩⟩
  · decide +kernel
  · exact .inl ⟨.inr rfl, .inr rfl⟩

/-- **A leg is left subscribed**: the subscription of the Kalshi leg succeeds and that of the
    Polymarket leg fails, so the arb is dropped; the Kalshi ticker stays in the set. -/
theorem leg_left_subscribed :
    ∃ q, step sampleConfig (init (1 / 5) 2)
        (.receive (.confirmedAndRun (sampleArb "K" "11") "x")) = some confirmedState ∧
      FindArbRuns sampleConfig (commsSend true) true false confirmedState q ∧
      ¬ WholeOrNothing (sampleArb "K" "11") "x" confirmedState q ∧
      q.book.records "x" = none ∧ ¬ confirmedState.Subscribed (.kalshi, "K") ∧
      q.Subscribed (.kalshi, "K") := by
  obtain ⟨t, ht⟩ : ∃ t, step sampleConfig confirmedState (.comms (commsSend true)) = some t :=
    ⟨_, rfl⟩
  have htail : ((step sampleConfig confirmedState (.comms (commsSend true))).any fun t =>
      decide (Along (step sampleConfig) (fun s a => alone true false s a = true) t oneLegSteps) &&
      (run (step sampleConfig) t oneLegSteps).any fun q =>
        (q.book.records "x").isNone && decide (q.Subscribed (.kalshi, "K")) &&
          q.betweenMessages) = true := by
    decide +kernel
  rw [ht, Option.any_some, Bool.and_eq_true, decide_eq_true_eq] at htail
  obtain ⟨halong, hrun⟩ := htail
  obtain ⟨q, hq, hcheck⟩ := (Option.any_eq_true _ _).mp hrun
  rw [Bool.and_eq_true, Bool.and_eq_true, Option.isNone_iff_eq_none, decide_eq_true_eq] at hcheck
  obtain ⟨⟨hrecord, hsub⟩, hbetween⟩ := hcheck
  have hnew : ¬ confirmedState.Subscribed (.kalshi, "K") := by decide +kernel
  refine ⟨q, rfl, ⟨t, oneLegSteps, ht, halong, hq, pc_of_betweenMessages hbetween⟩, ?_,
    hrecord, hnew, hsub⟩
  rintro (⟨pair, -, hbook, -⟩ | ⟨-, hsets⟩)
  · -- a registered arb has a record
    have hnone : (confirmedState.book.records.insert "x" ⟨"x", pair⟩) "x" = none := by
      rw [hbook] at hrecord
      exact hrecord
    rw [PMap.insert_self] at hnone
    cases hnone
  · exact hnew ((sets_eq_iff.mp hsets (.kalshi, "K")).mp hsub)

end System

end Degenerate.Picker
