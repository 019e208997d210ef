import Degenerate.Picker.CommsTask
import Degenerate.Picker.InFlight
import Degenerate.Picker.TwoIndexSync

/-!
# Evaluations of the Registered Pairs

`evaluate_arb` is called for the watchers of a market when a price for it is stored, and
at no other moment.  So a pair that is registered when the later of its two prices is
stored has been evaluated at both.  A pair that is registered with both prices already
there waits for the next accepted price: its seeds may fail, or be older than what is
stored.

## Main Results

- `evaluated_or_registered_since`
- `registered_unevaluated`
-/

namespace Degenerate.Picker

open Degenerate.Lib

namespace System

/-! ## §1 Two moments of a run -/

/-- Two states have the same entries for the legs of a pair. -/
def SameEntries (w : ArbWatch) (p q : System) : Prop :=
  ∀ k ∈ w.legKeys, q.topOfBook k = p.topOfBook k

/-- On its way to `p` the run has passed the arb to `evaluate_arb`, when it was registered on the
    markets of `w` with the entries that stand in `p`. -/
def EvaluatedAt (cfg : Config) (start : System) (as : List Action) (p : System)
    (cid : CorrelationId) (w : ArbWatch) : Prop :=
  ∃ as₁ c as₂ r rest w', as = as₁ ++ .comms c :: as₂ ∧ run (step cfg) start as₁ = some r ∧
    r.comms.pc = .next ∧ r.comms.todo = .evaluateArb cid :: rest ∧
    r.book.records cid = some w' ∧ w'.legKeys = w.legKeys ∧ SameEntries w r p

/-- On its way to `p` the run has registered the arb on the markets of `w`, with the entries that
    stand in `p` and have not changed since. -/
def RegisteredSince (cfg : Config) (start : System) (as : List Action) (p : System)
    (cid : CorrelationId) (w : ArbWatch) : Prop :=
  ∃ as₁ c as₂ r v, as = as₁ ++ .comms c :: as₂ ∧ run (step cfg) start as₁ = some r ∧
    r.comms.pc = .registering v ∧ v.correlationId = cid ∧ v.legKeys = w.legKeys ∧
    Along (step cfg) (fun s _ => SameEntries w s p) r (.comms c :: as₂)

/-- Entries that a step keeps, on the markets of two watches alike. -/
theorem EvaluatedAt.extend {cfg : Config} {start p q : System} {as : List Action} {a : Action}
    {cid : CorrelationId} {w w' : ArbWatch} (he : EvaluatedAt cfg start as p cid w)
    (hkeys : w'.legKeys = w.legKeys) (hsame : SameEntries w p q) :
    EvaluatedAt cfg start (as ++ [a]) q cid w' := by
  obtain ⟨as₁, c, as₂, r, rest, v, rfl, hr, hpc, htodo, hv, hvkeys, hentries⟩ := he
  refine ⟨as₁, c, as₂ ++ [a], r, rest, v, by simp, hr, hpc, htodo, hv, hvkeys.trans hkeys.symm,
    fun k hk => ?_⟩
  rw [hkeys] at hk
  rw [hsame k hk, hentries k hk]

theorem RegisteredSince.extend {cfg : Config} {start p q : System} {as : List Action} {a : Action}
    {cid : CorrelationId} {w w' : ArbWatch} (hr : RegisteredSince cfg start as p cid w)
    (hrun : run (step cfg) start as = some p) (hkeys : w'.legKeys = w.legKeys)
    (hsame : SameEntries w p q) : RegisteredSince cfg start (as ++ [a]) q cid w' := by
  obtain ⟨as₁, c, as₂, r, v, rfl, hr, hpc, hcid, hvkeys, hentries⟩ := hr
  -- the same entries on the way to `q` as on the way to `p`
  have hmove : ∀ s, SameEntries w s p → SameEntries w' s q := by
    intro s hs k hk
    rw [hkeys] at hk
    rw [hsame k hk, hs k hk]
  refine ⟨as₁, c, as₂ ++ [a], r, v, by simp, hr, hpc, hcid, hvkeys.trans hkeys.symm, ?_⟩
  rw [← List.cons_append]
  refine along_append.mpr ⟨along_mono (fun s _ => hmove s) hentries, fun t ht => ?_⟩
  -- the last step starts from `p`
  obtain ⟨r', hr', hrest⟩ := run_append.mp hrun
  obtain rfl : r = r' := Option.some.inj (hr.symm.trans hr')
  obtain rfl : t = p := Option.some.inj (ht.symm.trans hrest)
  exact ⟨hmove t fun _ _ => rfl, fun _ _ => along_nil ..⟩

/-! ## §2 The invariant -/

/-- Every record with both entries has been evaluated at them, has been registered at them, or
    is about to be evaluated. -/
structure Covered (cfg : Config) (start : System) (as : List Action) (p : System) : Prop where
  watched : p.book.RecordsWatched
  covered : ∀ cid w, p.book.records cid = some w → (∀ k ∈ w.legKeys, p.topOfBook k ≠ none) →
    EvaluatedAt cfg start as p cid w ∨ RegisteredSince cfg start as p cid w ∨
      .evaluateArb cid ∈ p.comms.todo

/-- What is known of a pair whose entries a step keeps: it has been evaluated or registered at
    them still, or it was about to be evaluated. -/
theorem Covered.carry {cfg : Config} {start p q : System} {as : List Action} (a : Action)
    (hc : Covered cfg start as p) (hrun : run (step cfg) start as = some p)
    {cid : CorrelationId} {old w : ArbWatch} (hold : p.book.records cid = some old)
    (hkeys : w.legKeys = old.legKeys) (hsame : SameEntries old p q)
    (hsome : ∀ k ∈ w.legKeys, q.topOfBook k ≠ none) :
    EvaluatedAt cfg start (as ++ [a]) q cid w ∨ RegisteredSince cfg start (as ++ [a]) q cid w ∨
      .evaluateArb cid ∈ p.comms.todo := by
  have hsome' : ∀ k ∈ old.legKeys, p.topOfBook k ≠ none := by
    intro k hk
    rw [← hsame k hk]
    exact hsome k (hkeys ▸ hk)
  rcases hc.covered cid old hold hsome' with he | hr | hpend
  · exact .inl (he.extend hkeys hsame)
  · exact .inr (.inl (hr.extend hrun hkeys hsame))
  · exact .inr (.inr hpend)

/-- What keeps records, entries and the evaluations still to come keeps the invariant. -/
theorem Covered.frame {cfg : Config} {start p q : System} {as : List Action} {a : Action}
    (hc : Covered cfg start as p) (hrun : run (step cfg) start as = some p)
    (hwatched : q.book.RecordsWatched)
    (hkeep : ∀ cid w, q.book.records cid = some w → (∀ k ∈ w.legKeys, q.topOfBook k ≠ none) →
      ∃ old, p.book.records cid = some old ∧ w.legKeys = old.legKeys ∧ SameEntries old p q ∧
        (.evaluateArb cid ∈ p.comms.todo → .evaluateArb cid ∈ q.comms.todo)) :
    Covered cfg start (as ++ [a]) q := by
  refine ⟨hwatched, fun cid w hw hsome => ?_⟩
  obtain ⟨old, hold, hkeys, hsame, htodo⟩ := hkeep cid w hw hsome
  exact (hc.carry a hrun hold hkeys hsame hsome).imp_right (Or.imp_right htodo)

theorem covered_init (cfg : Config) (fraction minSize : ℚ) :
    Covered cfg (init fraction minSize) [] (init fraction minSize) where
  watched cid w h := by cases h
  covered cid w h := by cases h

/-- An operation that is not the one that is taken is still to be done. -/
theorem mem_of_ne_head {op op' : CommsOp} {rest : List CommsOp} (hne : op' ≠ op)
    (h : op' ∈ op :: rest) : op' ∈ rest :=
  (List.mem_cons.mp h).resolve_left hne

/-- Prices that a step leaves alone are the same entries for every pair. -/
theorem sameEntries_of_eq {p q : System} (htop : q.topOfBook = p.topOfBook) (w : ArbWatch) :
    SameEntries w p q := by
  intro k _
  rw [htop]

section Steps

variable {cfg : Config} {start p q : System} {as : List Action} {c : Choice}
  (hrun : run (System.step cfg) start as = some p) (hc : Covered cfg start as p)
include hrun hc

/-- The pair that is registered now has been registered at the present entries. -/
theorem Covered.register {v : ArbWatch} (hpc : p.comms.pc = .registering v)
    (htodo : ∀ op ∈ p.comms.todo, op ∈ q.comms.todo) (hb : q.book = p.book.registerArb v)
    (htop : q.topOfBook = p.topOfBook) : Covered cfg start (as ++ [.comms c]) q := by
  have hwatched : q.book.RecordsWatched := by
    rw [hb]
    exact @Book.RecordsWatched.step _ _ (.registerArb v) hc.watched rfl
  refine ⟨hwatched, fun cid w hw hsome => ?_⟩
  have hsame := sameEntries_of_eq htop w
  by_cases hcid : cid = v.correlationId
  · rw [hb, Book.registerArb_records, hcid, PMap.insert_self] at hw
    obtain rfl : v = w := Option.some.inj hw
    exact .inr (.inl ⟨as, c, [], p, v, rfl, hrun, hpc, hcid.symm, rfl, hsame,
      fun _ _ => along_nil ..⟩)
  · -- the others are as before
    rw [hb, Book.registerArb_records, PMap.insert_of_ne _ hcid] at hw
    exact (hc.carry _ hrun hw rfl hsame hsome).imp_right (Or.imp_right (htodo _))

/-- An accepted price queues the evaluation of the arbs on its market. -/
theorem Covered.price {key : MarketKey} {tob : TopOfBook} {order : List CorrelationId}
    {rest : List CommsOp} (htodo : p.comms.todo = .onPriceUpdate key tob :: rest)
    (horder : order.toFinset = (p.book.registry key).getD ∅)
    (htodo' : q.comms.todo = order.map .evaluateArb ++ rest) (hb : q.book = p.book)
    (htop : q.topOfBook = p.topOfBook.insert key tob) :
    Covered cfg start (as ++ [.comms c]) q := by
  refine ⟨hb ▸ hc.watched, fun cid w hw hsome => ?_⟩
  rw [hb] at hw
  by_cases hkey : key ∈ w.legKeys
  · -- the arb watches the market, so it is evaluated next
    obtain ⟨set, hset, hmem⟩ := hc.watched cid w hw key hkey
    refine .inr (.inr ?_)
    rw [htodo', List.mem_append]
    refine .inl (List.mem_map.mpr ⟨cid, ?_, rfl⟩)
    rw [← List.mem_toFinset, horder, hset]
    exact hmem
  · have hother : SameEntries w p q := by
      intro k hk
      have hne : k ≠ key := by
        rintro rfl
        exact hkey hk
      rw [htop, PMap.insert_of_ne _ hne]
    refine (hc.carry _ hrun hw rfl hother hsome).imp_right (Or.imp_right fun hpend => ?_)
    rw [htodo] at hpend
    rw [htodo', List.mem_append]
    exact .inr (mem_of_ne_head (by simp) hpend)

/-- A withdrawn pair takes prices with it, but none of a pair that stays. -/
theorem Covered.unregister {cid₀ : CorrelationId} {rest : List CommsOp}
    (htodo : p.comms.todo = .unregisterArb cid₀ :: rest) (htodo' : q.comms.todo = rest)
    (hb : q.book = (p.book.unregisterArb cid₀).1)
    (htop : q.topOfBook =
      p.topOfBook.eraseAll ((p.book.unregisterArb cid₀).2.map (·.marketKey))) :
    Covered cfg start (as ++ [.comms c]) q := by
  have hwatched : q.book.RecordsWatched := by
    rw [hb]
    exact @Book.RecordsWatched.step _ _ (.unregisterArb cid₀) hc.watched rfl
  refine hc.frame hrun hwatched fun cid w hw hsome => ?_
  rw [hb, Book.unregisterArb_records] at hw
  refine ⟨w, (PMap.erase_eq_some.mp hw).2, rfl, fun k hk => ?_, fun hmem => ?_⟩
  · -- an entry that is still there was not evicted
    have hpresent := hsome k hk
    rw [htop, PMap.eraseAll_apply] at hpresent ⊢
    split at hpresent
    · exact absurd rfl hpresent
    · rename_i hout
      rw [if_neg hout]
  · rw [htodo] at hmem
    rw [htodo']
    exact mem_of_ne_head (by simp) hmem

/-- A new close time leaves every pair on its markets. -/
theorem Covered.update {key : MarketKey} {cid₀ : CorrelationId} {closeTs : Option ℤ}
    {rest : List CommsOp} (htodo : p.comms.todo = .updateCloseTime key cid₀ closeTs :: rest)
    (htodo' : q.comms.todo = rest) (hb : q.book = p.book.updateCloseTime key cid₀ closeTs)
    (htop : q.topOfBook = p.topOfBook) : Covered cfg start (as ++ [.comms c]) q := by
  have hwatched : q.book.RecordsWatched := by
    rw [hb]
    exact @Book.RecordsWatched.step _ _ (.updateCloseTime key cid₀ closeTs) hc.watched rfl
  refine hc.frame hrun hwatched fun cid w hw _ => ?_
  have hkeys := Book.updateCloseTime_records p.book key cid₀ cid closeTs
  rw [hb] at hw
  rw [hw, Option.map_some, eq_comm, Option.map_eq_some_iff] at hkeys
  obtain ⟨old, hold, hkeys⟩ := hkeys
  refine ⟨old, hold, hkeys.symm, sameEntries_of_eq htop old, fun hmem => ?_⟩
  rw [htodo] at hmem
  rw [htodo']
  exact mem_of_ne_head (by simp) hmem

/-- Of the other operations only an evaluation takes a pair off the list, and it evaluates it. -/
theorem Covered.other {op : CommsOp} {rest ops : List CommsOp} (hpc : p.comms.pc = .next)
    (htodo : p.comms.todo = op :: rest) (htodo' : q.comms.todo = ops ++ rest)
    (hb : q.book = p.book) (htop : q.topOfBook = p.topOfBook) :
    Covered cfg start (as ++ [.comms c]) q := by
  refine ⟨hb ▸ hc.watched, fun cid w hw hsome => ?_⟩
  have hsame := sameEntries_of_eq htop w
  rw [hb] at hw
  by_cases hop : op = .evaluateArb cid
  · -- this is the evaluation that was ahead
    subst hop
    exact .inl ⟨as, c, [], p, rest, w, rfl, hrun, hpc, htodo, hw, rfl, hsame⟩
  · refine (hc.carry _ hrun hw rfl hsame hsome).imp_right (Or.imp_right fun hpend => ?_)
    rw [htodo] at hpend
    rw [htodo', List.mem_append]
    exact .inr (mem_of_ne_head (Ne.symm hop) hpend)

/-- **Every step keeps the pairs covered.** -/
theorem Covered.step {a : Action} (h : System.step cfg p a = some q) :
    Covered cfg start (as ++ [a]) q := by
  rcases step_owned_cases h with haside | ⟨msg, rfl, htodo, hcomms, hb, htop⟩ |
    ⟨c, v, rfl, hpc, htodo, hb, htop⟩ |
    ⟨c, key, tob, order, rest, rfl, hpc, htodo, hacc, horder, htodo', hb, htop⟩ |
    ⟨c, cid₀, rest, rfl, hpc, htodo, htodo', hb, htop⟩ |
    ⟨c, key, cid₀, closeTs, rest, rfl, hpc, htodo, htodo', hb, htop⟩ |
    ⟨c, op, rest, ops, rfl, hpc, htodo, hf, htodo', hb, htop⟩
  · obtain ⟨htodo, hb, htop⟩ := haside.owned
    exact hc.frame hrun (hb ▸ hc.watched) fun cid w hw _ =>
      ⟨w, hb ▸ hw, rfl, sameEntries_of_eq htop w, fun hmem => htodo ▸ hmem⟩
  · -- a message is only taken when nothing is left to do
    refine hc.frame hrun (hb ▸ hc.watched) fun cid w hw _ =>
      ⟨w, hb ▸ hw, rfl, sameEntries_of_eq htop w, fun hmem => ?_⟩
    rw [htodo] at hmem
    cases hmem
  · refine hc.register hrun hpc (fun op hmem => ?_) hb htop
    rw [htodo]
    exact .tail _ (.tail _ hmem)
  · exact hc.price hrun htodo horder htodo' hb htop
  · exact hc.unregister hrun htodo htodo' hb htop
  · exact hc.update hrun htodo htodo' hb htop
  · exact hc.other hrun hpc htodo htodo' hb htop

end Steps

/-! ## §3 Between messages -/

/-- **No pair is left unevaluated** unless it was registered at both prices: in every run,
    whenever the comms task is between messages, a registered arb with an entry for each leg
    has been passed to `evaluate_arb` when it was registered and both entries had their present
    values, or it has been registered when both had them, and they have not changed since. -/
theorem evaluated_or_registered_since {cfg : Config} {fraction minSize : ℚ} {as : List Action}
    {p : System} (h : run (System.step cfg) (init fraction minSize) as = some p)
    (hbetween : p.betweenMessages = true) {cid : CorrelationId} {w : ArbWatch}
    (hw : p.book.records cid = some w) (hsome : ∀ k ∈ w.legKeys, p.topOfBook k ≠ none) :
    EvaluatedAt cfg (init fraction minSize) as p cid w ∨
      RegisteredSince cfg (init fraction minSize) as p cid w := by
  have hc : Covered cfg (init fraction minSize) as p :=
    run_invariant_prefix (covered_init cfg fraction minSize)
      (fun _ _ _ _ hrun hs ht => hs.step hrun ht) h
  rcases hc.covered cid w hw hsome with he | hr | hpend
  · exact .inl he
  · exact .inr hr
  · rw [(betweenMessages_iff.mp hbetween).2] at hpend
    cases hpend

/-- The seeded sample pair has been evaluated, or was registered at its prices. -/
theorem evaluated_or_registered_sample :
    ∃ p w, run (System.step sampleConfig) (init (1 / 5) 2) flaggedSteps = some p ∧
      p.book.records "x" = some w ∧
      (EvaluatedAt sampleConfig (init (1 / 5) 2) flaggedSteps p "x" w ∨
        RegisteredSince sampleConfig (init (1 / 5) 2) flaggedSteps p "x" w) := by
  have hrun : (run (System.step sampleConfig) (init (1 / 5) 2) flaggedSteps).any (fun p =>
      p.betweenMessages && (p.book.records "x").any fun w =>
        decide (∀ k ∈ w.legKeys, p.topOfBook k ≠ none)) = true := by decide +kernel
  obtain ⟨p, hp, hcheck⟩ := (Option.any_eq_true _ _).mp hrun
  rw [Bool.and_eq_true, Option.any_eq_true] at hcheck
  obtain ⟨hbetween, w, hw, hsome⟩ := hcheck
  exact ⟨p, w, hp, hw, evaluated_or_registered_since hp hbetween hw (of_decide_eq_true hsome)⟩

/-- The sample pair is registered and seeded under one id, and registered under another one
    while the order books do not answer. -/
def secondIdSteps : List Action :=
  flaggedSteps ++ .receive (.confirmedAndRun (sampleArb "K" "11") "y") ::
    List.replicate 4 commsOne ++ [commsOffline, commsOffline]

/-- The next operation of the comms task is not an evaluation of the arb. -/
def notEvaluating (cid : CorrelationId) (p : System) : Bool :=
  match p.comms.todo with
  | .evaluateArb c :: _ => c ≠ cid
  | _ => true

/-- **A pair that is registered and not evaluated**, with an entry for each leg. -/
theorem registered_unevaluated :
    ∃ p w, run (System.step sampleConfig) (init (1 / 5) 2) secondIdSteps = some p ∧
      p.betweenMessages = true ∧ p.book.records "y" = some w ∧
      (∀ k ∈ w.legKeys, p.topOfBook k ≠ none) ∧
      ¬ EvaluatedAt sampleConfig (init (1 / 5) 2) secondIdSteps p "y" w := by
  have hrun : (run (System.step sampleConfig) (init (1 / 5) 2) secondIdSteps).any (fun p =>
      p.betweenMessages && (p.book.records "y").any fun w =>
        decide (∀ k ∈ w.legKeys, p.topOfBook k ≠ none)) = true := by decide +kernel
  have hnever : Along (System.step sampleConfig) (fun p _ => notEvaluating "y" p = true)
      (init (1 / 5) 2) secondIdSteps := by decide +kernel
  obtain ⟨p, hp, hcheck⟩ := (Option.any_eq_true _ _).mp hrun
  rw [Bool.and_eq_true, Option.any_eq_true] at hcheck
  obtain ⟨hbetween, w, hw, hsome⟩ := hcheck
  refine ⟨p, w, hp, hbetween, hw, of_decide_eq_true hsome, ?_⟩
  rintro ⟨as₁, c, as₂, r, rest, w', heq, hr, -, htodo, -⟩
  rw [heq] at hnever
  have hno := along_of_split (P := fun p _ => notEvaluating "y" p = true) hnever hr
  simp [notEvaluating, htodo] at hno

end System

end Degenerate.Picker
