import Degenerate.Lib.TransitionSystem
import Mathlib.Data.Finset.Basic
import Mathlib.Data.Multiset.AddSub

/-!
# A Set that is Kept Twice

A registry lists keys and marks some of them as active.  A worker holds keys.  Both
sets change, on orders and notices that take their time, and that can get lost.  Who
activates a key orders the worker to start it and marks the entry afterwards; who
removes a key orders the worker to stop it, and removes the entry, which the worker
asks for once more when it has stopped.

## Main Definitions

- `Ledgers`: both sides, and what is under way between them
- `Event`: what can happen to a key; `Ledgers.step`: what it changes
- `Ledgers.Settled`: nothing is left undone that nobody will do
- `Ledgers.Careful`: the event leaves nothing undone

## Main Results

- `settled_step_iff`: a careful event, and no other one, keeps the ledgers settled
- `agree_iff_settled`: with nothing under way, settled ledgers are those that agree
-/

namespace Degenerate.Lib

variable {κ : Type*}

/-! ## §1 Both sides -/

/-- What the worker and the registry keep, and what is still to come. -/
structure Ledgers (κ : Type*) where
  /-- The worker's keys. -/
  held : κ → Bool
  /-- The registry's entries, and those of them that are marked. -/
  listed : Finset κ
  active : Finset κ
  /-- Marks that are still to be set. -/
  activations : Multiset κ
  /-- Orders to the worker, or decisions of its own, that it has not carried out. -/
  starts : Multiset κ
  stops : Multiset κ
  /-- Removals of entries, by the registry or because the worker will ask for them. -/
  removals : Multiset κ
  /-- How many requests for all the active keys the worker has still to make, or to be
      answered. -/
  resyncs : ℕ

/-- What can happen. -/
inductive Event (κ : Type*) where
  /-- the worker is ordered to start, the mark is to follow -/
  | activate (k : κ)
  | activated (k : κ)
  | activationFails (k : κ)
  /-- the worker is ordered to stop, the removals are to follow -/
  | remove (ks : List κ)
  | removed (k : κ)
  | removalFails (k : κ)
  /-- an order to stop does not reach the worker -/
  | stopLost (k : κ)
  /-- an order to start does not reach the worker, or is dropped by it -/
  | startFails (k : κ)
  /-- the worker stops instead, and will ask for a removal -/
  | startRefused (k : κ)
  | started (k : κ)
  /-- the worker decides to stop -/
  | stop (ks : List κ)
  | stopped (k : κ)
  | listed (k : κ)
  /-- a request is answered with these keys -/
  | resynced (ks : List κ)

/-- The key of an event about one key. -/
def Event.key? : Event κ → Option κ
  | .activate k | .activated k | .activationFails k | .removed k | .removalFails k
  | .stopLost k | .startFails k | .startRefused k | .started k | .stopped k | .listed k => some k
  | .remove _ | .stop _ | .resynced _ => none

namespace Ledgers

variable [DecidableEq κ]

/-- The keys that are active, or about to be. -/
def going (s : Ledgers κ) : Finset κ := s.active ∪ s.listed.filter (· ∈ s.activations)

theorem mem_going {s : Ledgers κ} {k : κ} :
    k ∈ s.going ↔ k ∈ s.active ∨ (k ∈ s.listed ∧ k ∈ s.activations) := by
  simp [going]

/-- The event can happen: what it ends is under way. -/
def Enabled (s : Ledgers κ) : Event κ → Prop
  | .activated k | .activationFails k => k ∈ s.activations
  | .removed k | .removalFails k => k ∈ s.removals
  | .stopLost k => k ∈ s.stops ∧ k ∈ s.removals
  | .startFails k | .startRefused k | .started k => k ∈ s.starts
  | .stopped k => k ∈ s.stops
  | .resynced _ => 0 < s.resyncs
  | _ => True

instance (s : Ledgers κ) : (e : Event κ) → Decidable (s.Enabled e)
  | .activated k | .activationFails k => inferInstanceAs (Decidable (k ∈ s.activations))
  | .removed k | .removalFails k => inferInstanceAs (Decidable (k ∈ s.removals))
  | .stopLost k => inferInstanceAs (Decidable (k ∈ s.stops ∧ k ∈ s.removals))
  | .startFails k | .startRefused k | .started k => inferInstanceAs (Decidable (k ∈ s.starts))
  | .stopped k => inferInstanceAs (Decidable (k ∈ s.stops))
  | .resynced _ => inferInstanceAs (Decidable (0 < s.resyncs))
  | .activate _ | .remove _ | .stop _ | .listed _ => .isTrue trivial

/-- What an event changes. -/
def apply (s : Ledgers κ) : Event κ → Ledgers κ
  | .activate k => { s with starts := k ::ₘ s.starts, activations := k ::ₘ s.activations }
  | .activated k =>
      { s with
        activations := s.activations.erase k
        active := if k ∈ s.listed then insert k s.active else s.active }
  | .activationFails k => { s with activations := s.activations.erase k }
  -- twice: the registry's own removal, and the one that the worker asks for
  | .remove ks => { s with stops := s.stops + ks, removals := s.removals + (ks + ks) }
  | .removed k =>
      { s with
        listed := s.listed.erase k
        active := s.active.erase k
        removals := s.removals.erase k }
  | .removalFails k => { s with removals := s.removals.erase k }
  -- the worker will not ask for the removal either
  | .stopLost k => { s with stops := s.stops.erase k, removals := s.removals.erase k }
  | .startFails k => { s with starts := s.starts.erase k }
  | .startRefused k =>
      { s with
        starts := s.starts.erase k
        stops := k ::ₘ s.stops
        removals := k ::ₘ s.removals }
  | .started k => { s with starts := s.starts.erase k, held := Function.update s.held k true }
  | .stop ks => { s with stops := s.stops + ks }
  | .stopped k => { s with stops := s.stops.erase k, held := Function.update s.held k false }
  | .listed k => { s with listed := insert k s.listed }
  | .resynced ks => { s with resyncs := s.resyncs - 1, starts := s.starts + ks }

/-- One event. -/
def step (s : Ledgers κ) (e : Event κ) : Option (Ledgers κ) :=
  if s.Enabled e then some (s.apply e) else none

theorem step_eq_some {s s' : Ledgers κ} {e : Event κ} :
    s.step e = some s' ↔ s.Enabled e ∧ s.apply e = s' := by
  simp [step]

/-! ## §2 What is left undone -/

/-- If the key is going, the worker holds it, or something is still to come for it. -/
def Attended (s : Ledgers κ) (k : κ) : Prop :=
  k ∈ s.going → s.held k ∨ k ∈ s.starts ∨ k ∈ s.removals ∨ 0 < s.resyncs

/-- If the worker holds the key, it will stop it, or the key is going and stays listed. -/
def Backed (s : Ledgers κ) (k : κ) : Prop :=
  s.held k → k ∈ s.stops ∨ (k ∈ s.going ∧ k ∉ s.removals)

/-- Nothing is left undone that nobody will do. -/
def Settled (s : Ledgers κ) : Prop := ∀ k, s.Attended k ∧ s.Backed k

/-- The event leaves nothing undone: what fails, or is dropped, has been done already, or
    is still to be done by something else. -/
def Careful (s : Ledgers κ) : Event κ → Prop
  | .activationFails k =>
      s.held k → k ∈ s.stops ∨ k ∈ s.active ∨ k ∈ s.activations.erase k
  | .removalFails k =>
      k ∈ s.going → s.held k ∨ k ∈ s.starts ∨ k ∈ s.removals.erase k ∨ 0 < s.resyncs
  | .stopLost k =>
      (k ∈ s.going → s.held k ∨ k ∈ s.starts ∨ k ∈ s.removals.erase k ∨ 0 < s.resyncs) ∧
      (s.held k → k ∈ s.stops.erase k ∨ (k ∈ s.going ∧ k ∉ s.removals.erase k))
  | .startFails k =>
      k ∈ s.going → s.held k ∨ k ∈ s.starts.erase k ∨ k ∈ s.removals ∨ 0 < s.resyncs
  -- the worker takes on only what stays listed, or what it is going to stop again
  | .started k => k ∈ s.stops ∨ (k ∈ s.going ∧ k ∉ s.removals)
  | .stopped k => k ∈ s.going → k ∈ s.starts ∨ k ∈ s.removals ∨ 0 < s.resyncs
  | .listed k =>
      k ∈ s.activations → s.held k ∨ k ∈ s.starts ∨ k ∈ s.removals ∨ 0 < s.resyncs
  | .resynced ks =>
      ∀ k ∈ s.going, s.held k ∨ k ∈ s.starts ∨ k ∈ ks ∨ k ∈ s.removals ∨ 1 < s.resyncs
  | _ => True

instance (s : Ledgers κ) : (e : Event κ) → Decidable (s.Careful e)
  | .activationFails k => inferInstanceAs (Decidable
      (s.held k → k ∈ s.stops ∨ k ∈ s.active ∨ k ∈ s.activations.erase k))
  | .removalFails k => inferInstanceAs (Decidable
      (k ∈ s.going → s.held k ∨ k ∈ s.starts ∨ k ∈ s.removals.erase k ∨ 0 < s.resyncs))
  | .stopLost k => inferInstanceAs (Decidable
      ((k ∈ s.going → s.held k ∨ k ∈ s.starts ∨ k ∈ s.removals.erase k ∨ 0 < s.resyncs) ∧
      (s.held k → k ∈ s.stops.erase k ∨ (k ∈ s.going ∧ k ∉ s.removals.erase k))))
  | .startFails k => inferInstanceAs (Decidable
      (k ∈ s.going → s.held k ∨ k ∈ s.starts.erase k ∨ k ∈ s.removals ∨ 0 < s.resyncs))
  | .started k => inferInstanceAs (Decidable (k ∈ s.stops ∨ (k ∈ s.going ∧ k ∉ s.removals)))
  | .stopped k => inferInstanceAs (Decidable
      (k ∈ s.going → k ∈ s.starts ∨ k ∈ s.removals ∨ 0 < s.resyncs))
  | .listed k => inferInstanceAs (Decidable
      (k ∈ s.activations → s.held k ∨ k ∈ s.starts ∨ k ∈ s.removals ∨ 0 < s.resyncs))
  | .resynced ks => inferInstanceAs (Decidable
      (∀ k ∈ s.going, s.held k ∨ k ∈ s.starts ∨ k ∈ ks ∨ k ∈ s.removals ∨ 1 < s.resyncs))
  | .activate _ | .activated _ | .remove _ | .removed _ | .startRefused _ | .stop _ =>
      .isTrue trivial

/-! ## §3 One event -/

/-- Two ledgers say the same about a key. -/
structure SameAt (s t : Ledgers κ) (k : κ) : Prop where
  held : t.held k = s.held k
  going : k ∈ t.going ↔ k ∈ s.going
  starts : k ∈ t.starts ↔ k ∈ s.starts
  stops : k ∈ t.stops ↔ k ∈ s.stops
  removals : k ∈ t.removals ↔ k ∈ s.removals
  resyncs : t.resyncs = s.resyncs

theorem SameAt.attended {s t : Ledgers κ} {k : κ} (h : SameAt s t k) :
    t.Attended k ↔ s.Attended k := by
  simp only [Attended, h.held, h.going, h.starts, h.removals, h.resyncs]

theorem SameAt.backed {s t : Ledgers κ} {k : κ} (h : SameAt s t k) : t.Backed k ↔ s.Backed k := by
  simp only [Backed, h.held, h.going, h.stops, h.removals]

/-- An event about one key leaves the others alone. -/
theorem sameAt_apply (s : Ledgers κ) {e : Event κ} {k k' : κ} (hkey : e.key? = some k)
    (hne : k' ≠ k) : SameAt s (s.apply e) k' := by
  have herase : ∀ m : Multiset κ, k' ∈ m.erase k ↔ k' ∈ m := fun m =>
    Multiset.mem_erase_of_ne hne
  have hactive : k' ∈ (if k ∈ s.listed then insert k s.active else s.active) ↔ k' ∈ s.active := by
    split <;> simp [hne]
  cases e <;> cases hkey <;> constructor <;> simp [apply, mem_going, hne, herase, hactive]

/-- After an event about one key it is for that key to be settled. -/
theorem settled_apply_iff {s : Ledgers κ} {e : Event κ} {k : κ} (hs : s.Settled)
    (hkey : e.key? = some k) :
    (s.apply e).Settled ↔ (s.apply e).Attended k ∧ (s.apply e).Backed k := by
  refine ⟨fun h => h k, fun hk k' => ?_⟩
  -- the other keys were settled before, and the event leaves them alone
  by_cases hne : k' = k
  · rw [hne]
    exact hk
  · have hsame := s.sameAt_apply hkey hne
    exact ⟨hsame.attended.mpr (hs k').1, hsame.backed.mpr (hs k').2⟩

/-- What an event makes of its key. -/
theorem attended_and_backed_apply {s : Ledgers κ} {e : Event κ} {k : κ} (hs : s.Settled)
    (hen : s.Enabled e) (hkey : e.key? = some k) :
    (s.apply e).Attended k ∧ (s.apply e).Backed k ↔ s.Careful e := by
  obtain ⟨hattended, hbacked⟩ := hs k
  simp only [Attended, Backed, mem_going] at hattended hbacked
  cases e <;> cases hkey <;> simp only [Enabled] at hen <;>
    simp only [Attended, Backed, Careful, apply, mem_going]
  -- a mark takes the place of its activation, so that the key is going as before; an entry goes
  -- only where it was to be removed, and then a key that is held has an order to stop
  all_goals grind

/-- **One event**: it keeps the ledgers settled exactly if it is careful. -/
theorem settled_step_iff {s s' : Ledgers κ} {e : Event κ} (hs : s.Settled)
    (h : s.step e = some s') : s'.Settled ↔ s.Careful e := by
  obtain ⟨hen, rfl⟩ := step_eq_some.mp h
  cases hkey : e.key? with
  | some k => rw [settled_apply_iff hs hkey, attended_and_backed_apply hs hen hkey]
  | none =>
    cases e with
    | remove ks =>
      -- what is taken out has an order to remove it, and counts as going
      refine iff_of_true (fun k => ?_) trivial
      obtain ⟨ha, hb⟩ := hs k
      simp only [Attended, Backed, apply, mem_going, Multiset.mem_add, Multiset.mem_coe] at *
      grind
    | stop ks =>
      -- more orders to stop keep what is going on going
      refine iff_of_true (fun k => ⟨(hs k).1, fun hheld => ?_⟩) trivial
      exact ((hs k).2 hheld).imp_left fun hstop => Multiset.mem_add.mpr (.inl hstop)
    | resynced ks =>
      -- the one pass that ends: it leaves only those keys attended that it starts
      have hpos : 0 < s.resyncs - 1 ↔ 1 < s.resyncs := Nat.sub_pos_iff_lt
      have hmem : ∀ k, k ∈ s.starts + ks ↔ k ∈ s.starts ∨ k ∈ ks := fun k => by simp
      have hiff : ∀ k, (s.held k ∨ k ∈ s.starts + ks ∨ k ∈ s.removals ∨ 0 < s.resyncs - 1) ↔
          s.held k ∨ k ∈ s.starts ∨ k ∈ ks ∨ k ∈ s.removals ∨ 1 < s.resyncs := by
        intro k
        rw [hmem, hpos, or_assoc]
      constructor
      · intro h k hk
        exact (hiff k).mp ((h k).1 hk)
      · intro hc k
        exact ⟨fun hk => (hiff k).mpr (hc k hk), (hs k).2⟩
    | _ => cases hkey

/-! ## §4 Events about several keys -/

/-- A removal that is carried out or fails. -/
def removal (ok : κ → Bool) (k : κ) : Event κ := if ok k then .removed k else .removalFails k

/-- The entries that are left when some keys are removed, where that succeeds. -/
def without (entries : Finset κ) (ok : κ → Bool) (ks : List κ) : Finset κ :=
  entries.filter fun k => ¬ (k ∈ ks ∧ ok k)

theorem without_cons_of_ok (entries : Finset κ) {ok : κ → Bool} {k : κ} (ks : List κ)
    (h : ok k = true) : without (entries.erase k) ok ks = without entries ok (k :: ks) := by
  ext k'
  by_cases hk : k' = k <;> simp [without, hk, h]

theorem without_cons_of_not_ok (entries : Finset κ) {ok : κ → Bool} {k : κ} (ks : List κ)
    (h : ok k = false) : without entries ok ks = without entries ok (k :: ks) := by
  ext k'
  by_cases hk : k' = k <;> simp [without, hk, h]

/-- Removals are carried out, or fail, one by one. -/
theorem run_removals (s : Ledgers κ) (ok : κ → Bool) (ks : List κ) (r : Multiset κ) :
    run step { s with removals := ks + r } (ks.map (removal ok)) = some { s with
      listed := without s.listed ok ks
      active := without s.active ok ks
      removals := r } := by
  induction ks generalizing s with
  | nil => simp [without]
  | cons k ks ih =>
    have hcons : (↑(k :: ks) + r : Multiset κ) = k ::ₘ (↑ks + r) := by
      rw [← Multiset.cons_coe, Multiset.cons_add]
    rw [List.map_cons, run_cons, hcons]
    cases hok : ok k with
    -- the row goes, and with it the pair
    | true =>
      refine ⟨{ s with
        listed := s.listed.erase k, active := s.active.erase k, removals := ks + r }, ?_, ?_⟩
      · simp [removal, hok, step, Enabled, apply]
      · rw [← without_cons_of_ok _ _ hok, ← without_cons_of_ok _ _ hok]
        exact ih { s with listed := s.listed.erase k, active := s.active.erase k }
    -- the row stays, and only the request is used up
    | false =>
      refine ⟨{ s with removals := ks + r }, ?_, ?_⟩
      · simp [removal, hok, step, Enabled, apply]
      · rw [← without_cons_of_not_ok _ _ hok, ← without_cons_of_not_ok _ _ hok]
        exact ih s

/-- Orders to start fail. -/
theorem run_startFails (s : Ledgers κ) (ks : List κ) (r : Multiset κ) :
    run step { s with starts := ks + r } (ks.map .startFails) = some { s with starts := r } := by
  induction ks with
  | nil => simp
  | cons k ks ih =>
    have hfirst : step { s with starts := ↑(k :: ks) + r } (.startFails k) =
        some { s with starts := ↑ks + r } := by
      rw [← Multiset.cons_coe, Multiset.cons_add]
      simp [step, Enabled, apply]
    exact run_cons.mpr ⟨_, hfirst, ih⟩

/-- Orders to stop are lost. -/
theorem run_stopLost (s : Ledgers κ) (ks : List κ) (r r' : Multiset κ) :
    run step { s with stops := ks + r, removals := ks + r' } (ks.map .stopLost) =
      some { s with stops := r, removals := r' } := by
  induction ks with
  | nil => simp
  | cons k ks ih =>
    have hfirst : step { s with stops := ↑(k :: ks) + r, removals := ↑(k :: ks) + r' }
        (.stopLost k) = some { s with stops := ↑ks + r, removals := ↑ks + r' } := by
      rw [← Multiset.cons_coe, Multiset.cons_add, Multiset.cons_add]
      simp [step, Enabled, apply]
    exact run_cons.mpr ⟨_, hfirst, ih⟩

/-- Removals fail. -/
theorem run_removalFails (s : Ledgers κ) (ks : List κ) (r : Multiset κ) :
    run step { s with removals := ks + r } (ks.map .removalFails) =
      some { s with removals := r } := by
  induction ks with
  | nil => simp
  | cons k ks ih =>
    have hfirst : step { s with removals := ↑(k :: ks) + r } (.removalFails k) =
        some { s with removals := ↑ks + r } := by
      rw [← Multiset.cons_coe, Multiset.cons_add]
      simp [step, Enabled, apply]
    exact run_cons.mpr ⟨_, hfirst, ih⟩

/-- Requests are answered with nothing. -/
theorem run_resynced (s : Ledgers κ) (n r : ℕ) :
    run step { s with resyncs := n + r } (List.replicate n (.resynced [])) =
      some { s with resyncs := r } := by
  induction n with
  | zero => simp
  | succ n ih =>
    have hfirst : step { s with resyncs := n + 1 + r } (.resynced []) =
        some { s with resyncs := n + r } := by
      have hpred : n + 1 + r - 1 = n + r := by omega
      simp [step, Enabled, apply, hpred]
    exact run_cons.mpr ⟨_, hfirst, ih⟩

/-- **Losses**: of requests to remove, of requests for all the keys, and of orders to start and
    to stop. -/
theorem run_losses (s : Ledgers κ) (removals starts stops : List κ) (n : ℕ) :
    run step { s with
      starts := starts + s.starts
      stops := stops + s.stops
      removals := removals + (stops + s.removals)
      resyncs := n + s.resyncs }
      (removals.map .removalFails ++ List.replicate n (.resynced []) ++ starts.map .startFails ++
        stops.map .stopLost) = some s := by
  -- each kind of loss takes its own part of the debts
  have hremovals := run_removalFails { s with
    starts := starts + s.starts, stops := stops + s.stops, resyncs := n + s.resyncs }
    removals (stops + s.removals)
  have hresyncs := run_resynced { s with
    starts := starts + s.starts, stops := stops + s.stops, removals := stops + s.removals }
    n s.resyncs
  have hstarts := run_startFails { s with
    stops := stops + s.stops, removals := stops + s.removals } starts s.starts
  have hstops := run_stopLost s stops s.stops s.removals
  refine run_append.mpr ⟨_, run_append.mpr ⟨_, run_append.mpr ⟨_, hremovals, hresyncs⟩, hstarts⟩,
    hstops⟩

/-! ## §5 Runs -/

/-- **A run of careful events** keeps the ledgers settled. -/
theorem settled_run {s s' : Ledgers κ} {es : List (Event κ)} (hs : s.Settled)
    (hc : Along step Careful s es) (hrun : run step s es = some s') : s'.Settled :=
  run_invariant_along (fun _ _ _ hs hc h => (settled_step_iff hs h).mpr hc) hs hc hrun

/-- Nothing is under way. -/
structure Quiet (s : Ledgers κ) : Prop where
  activations : s.activations = 0
  starts : s.starts = 0
  stops : s.stops = 0
  removals : s.removals = 0
  resyncs : s.resyncs = 0

/-- **Agreement**: with nothing under way, the ledgers are settled exactly if the worker holds the
    active keys and no other ones. -/
theorem agree_iff_settled {s : Ledgers κ} (hq : s.Quiet) :
    (∀ k, s.held k ↔ k ∈ s.active) ↔ s.Settled := by
  have hgoing : ∀ k, k ∈ s.going ↔ k ∈ s.active := fun k => by simp [mem_going, hq.activations]
  constructor
  · intro h k
    refine ⟨fun hk => .inl ?_, fun hk => .inr ⟨?_, ?_⟩⟩
    · exact (h k).mpr ((hgoing k).mp hk)
    · exact (hgoing k).mpr ((h k).mp hk)
    · simp [hq.removals]
  · intro hs k
    obtain ⟨hattended, hbacked⟩ := hs k
    constructor
    · intro hk
      -- there is no order to stop it
      have hgo := (hbacked hk).resolve_left (by simp [hq.stops])
      exact (hgoing k).mp hgo.1
    · intro hk
      refine (hattended ((hgoing k).mpr hk)).resolve_right ?_
      simp [hq.starts, hq.removals, hq.resyncs]

end Ledgers

end Degenerate.Lib
