import Mathlib.Data.List.MinMax
import Mathlib.Data.List.Nodup

/-!
# The Latest Entry

A register that keeps, of all the entries written to it, one with the greatest stamp:
a write whose stamp is not greater than the stored one is dropped.  What is stored at
the end is `List.argmax` of everything written, so when no two stamps are equal the
order of the writes does not matter.

## Main Results

- `foldl_keepLater`: the register after a list of writes
- `argmax_eq_of_perm`: with distinct stamps the order does not matter
- `exists_argmax_ge`: the stored stamp never decreases
-/

namespace Degenerate.Lib

variable {α τ : Type*} [LinearOrder τ]

/-- Write an entry, unless the stored one has the same or a later stamp. -/
def keepLater (stamp : α → τ) (stored : Option α) (entry : α) : Option α :=
  match stored with
  | none => some entry
  | some old => if stamp old < stamp entry then some entry else some old

/-- **The latest of all**: a list of writes leaves the entry with the greatest stamp. -/
theorem foldl_keepLater (stamp : α → τ) (stored : Option α) (entries : List α) :
    entries.foldl (keepLater stamp) stored = (stored.toList ++ entries).argmax stamp := by
  induction entries using List.reverseRecOn with
  | nil => cases stored <;> rfl
  | append_singleton entries entry ih =>
    rw [List.foldl_concat, ih, ← List.append_assoc, List.argmax_concat]
    cases (stored.toList ++ entries).argmax stamp <;> rfl

/-- **Order does not matter**: of entries with distinct stamps one is the latest. -/
theorem argmax_eq_of_perm {stamp : α → τ} {entries entries' : List α}
    (h : entries.Perm entries') (hd : (entries.map stamp).Nodup) :
    entries.argmax stamp = entries'.argmax stamp := by
  cases hm : entries.argmax stamp with
  | none =>
    rw [List.argmax_eq_none] at hm
    subst hm
    rw [h.symm.eq_nil]
    rfl
  | some m =>
    cases hm' : entries'.argmax stamp with
    | none =>
      rw [List.argmax_eq_none] at hm'
      subst hm'
      rw [h.eq_nil] at hm
      cases hm
    | some m' =>
      -- each is at least as late as the other
      have hmem : m ∈ entries := List.argmax_mem hm
      have hmem' : m' ∈ entries := h.mem_iff.mpr (List.argmax_mem hm')
      have hle : stamp m' ≤ stamp m := List.le_of_mem_argmax hmem' hm
      have hle' : stamp m ≤ stamp m' := List.le_of_mem_argmax (h.mem_iff.mp hmem) hm'
      rw [List.inj_on_of_nodup_map hd hmem hmem' (le_antisymm hle' hle)]

/-- The stored stamp never decreases. -/
theorem exists_argmax_ge {stamp : α → τ} {entries : List α} {entry : α}
    (h : entry ∈ entries) : ∃ m, entries.argmax stamp = some m ∧ stamp entry ≤ stamp m := by
  cases hm : entries.argmax stamp with
  | none =>
    rw [List.argmax_eq_none] at hm
    subst hm
    cases h
  | some m => exact ⟨m, rfl, List.le_of_mem_argmax h hm⟩

end Degenerate.Lib
