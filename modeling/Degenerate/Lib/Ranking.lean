import Mathlib.Data.List.Nodup

/-!
# The Best of a List

The first `k` elements of a sorted list.  The order is a test that may be total on the
elements of the list alone, as is the comparison of scores where some value is no number.

## Main Results

- `pairwise_best`, `le_of_not_mem_best`: the best come in order, and what is left out is not
  better than any of them
- `find?_of_nodup`: an element is found by a key that is unique
-/

namespace Degenerate.Lib

variable {α : Type*} {le : α → α → Bool}

/-- The first `k` of a sorted list. -/
def best (le : α → α → Bool) (k : ℕ) (l : List α) : List α := (l.mergeSort le).take k

section Members

variable {k : ℕ} {l : List α}

theorem mem_of_mem_best {x : α} (hx : x ∈ best le k l) : x ∈ l :=
  List.mem_mergeSort.mp (List.mem_of_mem_take hx)

theorem length_best_le : (best le k l).length ≤ k := List.length_take_le _ _

theorem best_eq_nil_iff : best le k l = [] ↔ k = 0 ∨ l = [] := by
  have hnil : l.mergeSort le = [] ↔ l = [] := by
    rw [← List.length_eq_zero_iff, List.length_mergeSort, List.length_eq_zero_iff]
  rw [best, List.take_eq_nil_iff, hnil]

/-- What is distinct stays distinct. -/
theorem nodup_map_best {β : Type*} {f : α → β} (h : (l.map f).Nodup) :
    ((best le k l).map f).Nodup := by
  have hsorted : ((l.mergeSort le).map f).Nodup :=
    ((List.mergeSort_perm l le).map f).nodup_iff.mpr h
  exact hsorted.sublist ((List.take_sublist _ _).map f)

end Members

/-! ## The order -/

section Order

variable {k : ℕ} {l : List α}
  (trans : ∀ a ∈ l, ∀ b ∈ l, ∀ c ∈ l, le a b → le b c → le a c)
  (total : ∀ a ∈ l, ∀ b ∈ l, le a b || le b a)
include trans total

/-- The sorted list is in order if the test is an order on its elements. -/
theorem pairwise_mergeSort_of_mem : (l.mergeSort le).Pairwise (le · ·) := by
  -- sort the elements together with the proofs that they are in the list
  have hmap : (l.attach.mergeSort fun a b => le a b).map Subtype.val = l.mergeSort le := by
    rw [List.map_mergeSort (s := le) (fun _ _ _ _ => rfl), List.attach_map_subtype_val]
  rw [← hmap, List.pairwise_map]
  apply List.pairwise_mergeSort
  · exact fun a b c => trans a a.2 b b.2 c c.2
  · exact fun a b => total a a.2 b b.2

theorem pairwise_best : (best le k l).Pairwise (le · ·) :=
  (pairwise_mergeSort_of_mem trans total).sublist (List.take_sublist _ _)

/-- What is left out is left out for want of room, and is not better than any of the best. -/
theorem le_of_not_mem_best {x : α} (hx : x ∈ l) (hout : x ∉ best le k l) :
    (best le k l).length = k ∧ ∀ y ∈ best le k l, le y x := by
  have hmem : x ∈ (l.mergeSort le).drop k := by
    have hsorted : x ∈ l.mergeSort le := List.mem_mergeSort.mpr hx
    rw [← List.take_append_drop k (l.mergeSort le), List.mem_append] at hsorted
    exact hsorted.resolve_left hout
  have hlong : k < (l.mergeSort le).length := by
    have hpos := List.length_pos_of_mem hmem
    rw [List.length_drop] at hpos
    omega
  refine ⟨List.length_take_of_le (Nat.le_of_lt hlong), fun y hy => ?_⟩
  have hsorted := pairwise_mergeSort_of_mem trans total
  rw [← List.take_append_drop k (l.mergeSort le)] at hsorted
  exact (List.pairwise_append.mp hsorted).2.2 y hy x hmem

end Order

/-! ## Keys -/

/-- With distinct keys, the first element with the key of `x` is `x`. -/
theorem find?_of_nodup {β : Type*} [DecidableEq β] {f : α → β} {l : List α} {x : α}
    (hnodup : (l.map f).Nodup) (hx : x ∈ l) : l.find? (fun y => f y = f x) = some x := by
  induction l with
  | nil => cases hx
  | cons y l ih =>
      rw [List.map_cons, List.nodup_cons] at hnodup
      rw [List.find?_cons]
      rcases List.mem_cons.mp hx with rfl | hx
      · simp
      · have hne : f y ≠ f x := fun h => hnodup.1 (h ▸ List.mem_map_of_mem hx)
        simpa [hne] using ih hnodup.2 hx

end Degenerate.Lib
