import Degenerate.Picker.System

/-!
# What the Comms Task Owns

Three things are written by the comms task alone: the list of operations still to do,
the book, and the top of book.  Every step of the system leaves them as they are, or is
one of a few moves, which `step_owned_cases` lists.  The invariants on prices and close
times are case analyses of that list.

## Main Results

- `step_owned_cases`
-/

namespace Degenerate.Picker

open Degenerate.Lib

namespace System

variable {F : Type}

/-! ## §1 The moves -/

/-- Two states agree on what the comms task owns, but for its program counter. -/
structure SameOwned (p q : System F) : Prop where
  todo : q.comms.todo = p.comms.todo
  book : q.book = p.book
  topOfBook : q.topOfBook = p.topOfBook

/-- The operations by which an operation is replaced that writes neither the book nor the top
    of book. -/
inductive Follows [FloatOps F] (p : System F) : CommsOp F → List (CommsOp F) → Prop where
  | stale {key tob} (h : p.accepts key tob = false) : Follows p (.onPriceUpdate key tob) []
  | evaluated {cid} : Follows p (.evaluateArb cid) []
  | resolved {assetId} {order : List CorrelationId} (h : order.toFinset =
      (p.book.registry (makeMarketKey assetId .polymarket)).getD ∅) :
      Follows p (.marketResolved assetId) (order.map .unregisterArb)
  | lifecycle {event : MarketLifecycle} {order : List CorrelationId} (h : order.toFinset =
      (p.book.registry (makeMarketKey event.marketTicker .kalshi)).getD ∅) :
      Follows p (.marketLifecycle event) (order.flatMap (lifecycleOps event))
  /-- refused, or on to the subscriptions -/
  | found {arb cid} : Follows p (.findArb arb cid) []
  | closing {arb cid} : Follows p (.findArb arb cid)
      [.unregisterArb cid, .send { action := .deleteRunningArbs [cid] }]
  | unseeded {leg} : Follows p (.seedTobFromHttp leg) []
  | seeded {leg : ArbMinifiedInfo} {http now tob} (h : seedTop http now leg = some tob) :
      Follows p (.seedTobFromHttp leg) [.onPriceUpdate leg.marketKey tob]
  | undiscovered {arb} : Follows p (.resolveDiscovered arb) []
  | discovered {arb ebo} : Follows p (.resolveDiscovered arb) [.send ebo]
  | sent {ebo} : Follows p (.send ebo) []

theorem betweenMessages_iff {p : System F} :
    p.betweenMessages = true ↔ p.comms.pc = .next ∧ p.comms.todo = [] := by
  unfold betweenMessages
  constructor
  · intro h
    split at h
    · rename_i hcomms
      rw [hcomms]
      exact ⟨rfl, rfl⟩
    · cases h
  · rintro ⟨hpc, htodo⟩
    have hcomms : p.comms = ⟨.next, []⟩ := by rw [← hpc, ← htodo]
    rw [hcomms]

theorem evalStep_sameOwned [FloatOps F] (cfg : Config) (c : Choice) (p : System F) (e : EvalPc) :
    SameOwned p (evalStep cfg c p e) := by
  obtain ⟨_, _, _, _, h⟩ := evalStep_writes cfg c p e
  rw [h]
  exact ⟨rfl, rfl, rfl⟩

theorem findStep_sameOwned (c : Choice) (p : System F) (f : FindArb) :
    SameOwned p (findStep c p f) := by
  cases hcall : f.call <;>
    exact ⟨by simp [findStep, addStep, hcall, goto], by simp [findStep, addStep, hcall, goto],
      by simp [findStep, addStep, hcall, goto]⟩

/-- What one operation does. -/
theorem opStep_owned [FloatOps F] {cfg : Config} {c : Choice} {p q : System F} {op : CommsOp F}
    (h : opStep cfg c p op = some q) :
    -- a price is stored, and the watchers of the market are to be evaluated
    (∃ key tob order, op = .onPriceUpdate key tob ∧ p.accepts key tob = true ∧
      List.toFinset order = (p.book.registry key).getD ∅ ∧
      q.comms.todo = order.map .evaluateArb ++ p.comms.todo ∧ q.book = p.book ∧
      q.topOfBook = p.topOfBook.insert key tob) ∨
    -- a pair is unregistered
    (∃ cid, op = .unregisterArb cid ∧ q = p.unregisterArb cid) ∨
    -- a close time is updated
    (∃ key cid closeTs, op = .updateCloseTime key cid closeTs ∧
      q = { p with book := p.book.updateCloseTime key cid closeTs }) ∨
    -- the operation is replaced by others
    (∃ ops, Follows p op ops ∧ q.comms.todo = ops ++ p.comms.todo ∧ q.book = p.book ∧
      q.topOfBook = p.topOfBook) := by
  have hset : ∀ set, c.iterates set = true → c.order.toFinset = set := by
    intro set hi
    simp only [Choice.iterates, Bool.and_eq_true, decide_eq_true_eq] at hi
    exact hi.2
  cases op with
  | onPriceUpdate key tob =>
    simp only [opStep] at h
    split at h
    · rename_i hacc
      split at h
      · rename_i hi
        cases h
        exact .inl ⟨key, tob, c.order, rfl, hacc, hset _ hi, rfl, rfl, rfl⟩
      · cases h
    · rename_i hacc
      cases h
      exact .inr (.inr (.inr ⟨[], .stale (by simpa using hacc), rfl, rfl, rfl⟩))
  | evaluateArb cid =>
    simp only [opStep] at h
    split at h <;> cases h <;> exact .inr (.inr (.inr ⟨[], .evaluated, rfl, rfl, rfl⟩))
  | marketResolved assetId =>
    simp only [opStep] at h
    split at h
    · rename_i hi
      cases h
      exact .inr (.inr (.inr ⟨_, .resolved (hset _ hi), rfl, rfl, rfl⟩))
    · cases h
  | marketLifecycle event =>
    simp only [opStep] at h
    split at h
    · rename_i hi
      cases h
      exact .inr (.inr (.inr ⟨_, .lifecycle (hset _ hi), rfl, rfl, rfl⟩))
    · cases h
  | updateCloseTime key cid closeTs =>
    cases h
    exact .inr (.inr (.inl ⟨key, cid, closeTs, rfl, rfl⟩))
  | unregisterArb cid =>
    cases h
    exact .inr (.inl ⟨cid, rfl, rfl⟩)
  | findArb arb cid =>
    simp only [opStep, findArb, Option.some.injEq] at h
    split at h
    · split at h
      · subst h
        exact .inr (.inr (.inr ⟨_, .closing, rfl, rfl, rfl⟩))
      · subst h
        exact .inr (.inr (.inr ⟨[], .found, rfl, rfl, rfl⟩))
    · subst h
      exact .inr (.inr (.inr ⟨[], .found, rfl, rfl, rfl⟩))
  | seedTobFromHttp leg =>
    simp only [opStep] at h
    split at h
    · cases h
      exact .inr (.inr (.inr ⟨[], .unseeded, rfl, rfl, rfl⟩))
    · rename_i tob htob
      cases h
      exact .inr (.inr (.inr ⟨_, .seeded htob, rfl, rfl, rfl⟩))
  | resolveDiscovered arb =>
    simp only [opStep] at h
    split at h
    · cases h
      exact .inr (.inr (.inr ⟨[], .undiscovered, rfl, rfl, rfl⟩))
    · cases h
      exact .inr (.inr (.inr ⟨_, .discovered, rfl, rfl, rfl⟩))
  | send ebo =>
    cases h
    exact .inr (.inr (.inr ⟨[], .sent, rfl, rfl, rfl⟩))

/-- The step is one of another task, or inside `evaluate_arb` or `find_arb`, and leaves alone what
    the comms task owns. -/
structure Aside (p : System F) (a : Action) (q : System F) : Prop where
  owned : SameOwned p q
  next : p.comms.pc = .next → q.comms.pc = .next
  not_receive : ∀ msg, a ≠ .receive msg
  not_registering : ∀ c w, a = .comms c → p.comms.pc ≠ .registering w

/-- **What a step does to what the comms task owns**: nothing, or one of these moves. -/
theorem step_owned_cases [FloatOps F] {cfg : Config} {p q : System F} {a : Action}
    (h : step cfg p a = some q) :
    Aside p a q ∨
    -- a message is taken
    (∃ msg, a = .receive msg ∧ p.comms.todo = [] ∧ q.comms = ⟨.next, opsOf p.book msg⟩ ∧
      q.book = p.book ∧ q.topOfBook = p.topOfBook) ∨
    -- a pair is registered, and its legs are to be seeded
    (∃ c w, a = .comms c ∧ p.comms.pc = .registering w ∧
      q.comms.todo = .seedTobFromHttp w.arb.anchor :: .seedTobFromHttp w.arb.match ::
        p.comms.todo ∧ q.book = p.book.registerArb w ∧ q.topOfBook = p.topOfBook) ∨
    -- a price is stored, and the watchers of the market are to be evaluated
    (∃ c key tob order rest, a = .comms c ∧ p.comms.pc = .next ∧
      p.comms.todo = .onPriceUpdate key tob :: rest ∧ p.accepts key tob = true ∧
      List.toFinset order = (p.book.registry key).getD ∅ ∧
      q.comms.todo = order.map .evaluateArb ++ rest ∧ q.book = p.book ∧
      q.topOfBook = p.topOfBook.insert key tob) ∨
    -- a pair is unregistered
    (∃ c cid rest, a = .comms c ∧ p.comms.pc = .next ∧
      p.comms.todo = .unregisterArb cid :: rest ∧ q.comms.todo = rest ∧
      q.book = (p.book.unregisterArb cid).1 ∧
      q.topOfBook =
        p.topOfBook.eraseAll ((p.book.unregisterArb cid).2.map (·.marketKey))) ∨
    -- a close time is updated
    (∃ c key cid closeTs rest, a = .comms c ∧ p.comms.pc = .next ∧
      p.comms.todo = .updateCloseTime key cid closeTs :: rest ∧ q.comms.todo = rest ∧
      q.book = p.book.updateCloseTime key cid closeTs ∧ q.topOfBook = p.topOfBook) ∨
    -- an operation is replaced by others
    (∃ c op rest ops, a = .comms c ∧ p.comms.pc = .next ∧ p.comms.todo = op :: rest ∧
      Follows p op ops ∧ q.comms.todo = ops ++ rest ∧ q.book = p.book ∧
      q.topOfBook = p.topOfBook) := by
  cases a with
  | receive msg =>
    simp only [step] at h
    split at h
    · rename_i hbetween
      cases h
      exact .inr (.inl ⟨msg, rfl, (betweenMessages_iff.mp hbetween).2, rfl, rfl, rfl⟩)
    · cases h
  | comms c =>
    rcases commsStep_cases h with ⟨e, he, rfl⟩ | ⟨f, hf, rfl⟩ | ⟨w, hw, rfl⟩ |
      ⟨op, rest, hn, ht, hop⟩
    · refine .inl ⟨evalStep_sameOwned cfg c p e, fun hn => ?_, (by simp), fun _ w _ => by simp [he]⟩
      rw [he] at hn
      cases hn
    · refine .inl ⟨findStep_sameOwned c p f, fun hn => ?_, (by simp), fun _ w _ => by simp [hf]⟩
      rw [hf] at hn
      cases hn
    · exact .inr (.inr (.inl ⟨c, w, rfl, hw, rfl, rfl, rfl⟩))
    · rcases opStep_owned hop with ⟨key, tob, order, rfl, hacc, hset, htodo, hb, htop⟩ |
        ⟨cid, rfl, rfl⟩ | ⟨key, cid, closeTs, rfl, rfl⟩ | ⟨ops, hf, htodo, hb, htop⟩
      · exact .inr (.inr (.inr (.inl
          ⟨c, key, tob, order, rest, rfl, hn, ht, hacc, hset, htodo, hb, htop⟩)))
      · exact .inr (.inr (.inr (.inr (.inl ⟨c, cid, rest, rfl, hn, ht, rfl, rfl, rfl⟩))))
      · exact .inr (.inr (.inr (.inr (.inr (.inl
          ⟨c, key, cid, closeTs, rest, rfl, hn, ht, rfl, rfl, rfl⟩)))))
      · refine .inr (.inr (.inr (.inr (.inr (.inr
          ⟨c, op, rest, ops, rfl, hn, ht, ?_, htodo, hb, htop⟩)))))
        cases hf <;> constructor <;> assumption
  | _ =>
    rcases step_comms_cases h with ⟨_, heq, -⟩ | ⟨_, heq, -⟩ | hsame
    · cases heq
    · cases heq
    · refine .inl ⟨⟨by rw [hsame.comms], hsame.book, hsame.topOfBook⟩, fun hn => ?_, (by simp),
        (by simp)⟩
      rw [hsame.comms, hn]

/-! ## §2 Stored prices -/

/-- An entry comes from the update that stored it. -/
theorem stored_of_step [FloatOps F] {cfg : Config} {p q : System F} {a : Action} {key : MarketKey}
    {tob : TopOfBook F} (h : step cfg p a = some q) (hp : p.topOfBook key ≠ some tob)
    (hq : q.topOfBook key = some tob) :
    ∃ c order rest, a = .comms c ∧ p.comms.pc = .next ∧
      p.comms.todo = .onPriceUpdate key tob :: rest ∧ p.accepts key tob = true ∧
      List.toFinset order = (p.book.registry key).getD ∅ ∧
      q.comms.todo = order.map .evaluateArb ++ rest ∧ q.book = p.book := by
  rcases step_owned_cases h with hsame | ⟨_, -, -, -, -, htop⟩ | ⟨_, _, -, -, -, -, htop⟩ |
    ⟨c, key', tob', order, rest, ha, hpc, htodo, hacc, hset, htodo', hb, htop⟩ |
    ⟨_, _, _, -, -, -, -, -, htop⟩ | ⟨_, _, _, _, _, -, -, -, -, -, htop⟩ |
    ⟨_, _, _, _, -, -, -, -, -, -, htop⟩
  · exact absurd (hsame.owned.topOfBook ▸ hq) hp
  · exact absurd (htop ▸ hq) hp
  · exact absurd (htop ▸ hq) hp
  · -- of all the steps only a price that is accepted stores one
    rw [htop] at hq
    rcases PMap.insert_eq_some.mp hq with ⟨rfl, rfl⟩ | ⟨-, hold⟩
    · exact ⟨c, order, rest, ha, hpc, htodo, hacc, hset, htodo', hb⟩
    · exact absurd hold hp
  · rw [htop, PMap.eraseAll_apply] at hq
    split at hq
    · cases hq
    · exact absurd hq hp
  · exact absurd (htop ▸ hq) hp
  · exact absurd (htop ▸ hq) hp

end System

end Degenerate.Picker
