import Degenerate.Lib.TransitionSystem
import Mathlib.Logic.Hydra

/-!
# Work That Gets Less

The work of a system is a multiset of pieces with ranks.  A step that does a piece may bring
up any number of lower ones, and may drop others.  Such steps cannot go on for ever: each of
them is a move of the hydra game, followed by moves that bring up nothing.

## Main Results

- `wellFounded_lessens`
- `exists_not_step`: no order of the steps goes on for ever
-/

namespace Degenerate.Lib

/-! ## §1 Less work -/

/-- Work that is dropped is done in moves that bring up nothing. -/
theorem transGen_cutExpand_of_drop {κ : Type*} {r : κ → κ → Prop} {s' s : Multiset κ}
    (dropped : Multiset κ)
    (h : Relation.CutExpand r (s' + dropped) s) :
    Relation.TransGen (Relation.CutExpand r) s' s := by
  induction dropped using Multiset.induction generalizing s' with
  | empty => exact .single (by simpa using h)
  | cons a dropped ih =>
    have hcut : Relation.CutExpand r s' (s' + {a}) :=
      ⟨0, a, fun _ h => absurd h (Multiset.notMem_zero _), by rw [add_zero]⟩
    apply Relation.TransGen.head hcut
    apply ih
    rwa [add_assoc, Multiset.singleton_add]

variable {ι : Type*} [Preorder ι]

/-- A piece of work is done; lower pieces may be brought up, and others dropped. -/
def Lessens (s' s : Multiset ι) : Prop :=
  ∃ (rank : ι) (dropped brought : Multiset ι),
    (∀ r ∈ brought, r < rank) ∧ s' + rank ::ₘ dropped = s + brought

theorem Lessens.add_left {s' s : Multiset ι} (h : Lessens s' s) (u : Multiset ι) :
    Lessens (u + s') (u + s) := by
  obtain ⟨rank, dropped, brought, hlt, heq⟩ := h
  refine ⟨rank, dropped, brought, hlt, ?_⟩
  rw [add_assoc, heq, add_assoc]

theorem Lessens.add_right {s' s : Multiset ι} (h : Lessens s' s) (u : Multiset ι) :
    Lessens (s' + u) (s + u) := by
  rw [add_comm s', add_comm s]
  exact h.add_left u

/-- **Work runs out**. -/
theorem wellFounded_lessens [WellFoundedLT ι] :
    WellFounded (Lessens : Multiset ι → Multiset ι → Prop) := by
  have hwf : WellFounded (Relation.TransGen (Relation.CutExpand fun a b : ι => a < b)) :=
    wellFounded_lt.cutExpand.transGen
  refine Subrelation.wf ?_ hwf
  rintro s' s ⟨rank, dropped, brought, hlt, heq⟩
  apply transGen_cutExpand_of_drop dropped
  refine ⟨brought, rank, hlt, ?_⟩
  rw [← heq, add_assoc, ← Multiset.singleton_add, add_comm dropped]

/-! ## §2 Steps that lessen the work -/

section Steps

variable {σ α : Type*} {step : σ → α → Option σ} {own : α → Prop} {work : σ → Multiset ι}
  [WellFoundedLT ι]

theorem wellFounded_of_lessens
    (h : ∀ s a s', own a → step s a = some s' → Lessens (work s') (work s)) :
    WellFounded fun s' s => ∃ a, own a ∧ step s a = some s' := by
  refine Subrelation.wf ?_ (InvImage.wf work wellFounded_lessens)
  rintro s' s ⟨a, hown, hstep⟩
  exact h s a s' hown hstep

/-- **No order of the steps goes on for ever**. -/
theorem exists_not_step
    (h : ∀ s a s', own a → step s a = some s' → Lessens (work s') (work s)) (ss : ℕ → σ) :
    ∃ n, ∀ a, own a → step (ss n) a ≠ some (ss (n + 1)) := by
  obtain ⟨-, ⟨n, rfl⟩, hmin⟩ := (wellFounded_of_lessens h).has_min (Set.range ss) ⟨_, 0, rfl⟩
  refine ⟨n, fun a hown hstep => ?_⟩
  exact hmin _ ⟨n + 1, rfl⟩ ⟨a, hown, hstep⟩

end Steps

end Degenerate.Lib
