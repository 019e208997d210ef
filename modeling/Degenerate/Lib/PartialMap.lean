import Mathlib.Logic.Function.Basic
import Mathlib.Data.Finset.Basic

/-!
# Partial Maps

A `HashMap` of the modelled program is used through `get`, `insert` and `remove`
only, and its iteration order is never observed.  A function into `Option` has
exactly these operations, extensional equality, and evaluates on closed keys.

## Architecture

- `PMap κ ν`: the map, with `PMap.empty`, `PMap.insert`, `PMap.erase`
- `PMap.eraseAll`: removal of a list of keys
- `PMap.ofEntries`: the table of a list of entries
- `@[simp]` lookup lemmas for each operation at the touched key and elsewhere
-/

namespace Degenerate.Lib

/-- A finite or infinite map from `κ` to `ν`; `none` means "absent". -/
abbrev PMap (κ ν : Type*) := κ → Option ν

namespace PMap

variable {κ ν : Type*}

/-- The map with no entry. -/
def empty : PMap κ ν := fun _ => none

@[simp] theorem empty_apply (k : κ) : (empty : PMap κ ν) k = none := rfl

variable [DecidableEq κ]

/-- Store `v` under `k`, replacing an earlier entry. -/
def insert (m : PMap κ ν) (k : κ) (v : ν) : PMap κ ν := Function.update m k (some v)

/-- Drop the entry of `k`, if any. -/
def erase (m : PMap κ ν) (k : κ) : PMap κ ν := Function.update m k none

/-- Drop the entries of all the keys of a list. -/
def eraseAll (m : PMap κ ν) (ks : List κ) : PMap κ ν := ks.foldl erase m

theorem insert_apply (m : PMap κ ν) (k k' : κ) (v : ν) :
    m.insert k v k' = if k' = k then some v else m k' := by
  simp [insert, Function.update_apply]

theorem erase_apply (m : PMap κ ν) (k k' : κ) :
    m.erase k k' = if k' = k then none else m k' := by
  simp [erase, Function.update_apply]

@[simp] theorem insert_self (m : PMap κ ν) (k : κ) (v : ν) : m.insert k v k = some v := by
  simp [insert_apply]

@[simp] theorem insert_of_ne (m : PMap κ ν) {k k' : κ} (h : k' ≠ k) (v : ν) :
    m.insert k v k' = m k' := by
  simp [insert_apply, h]

@[simp] theorem erase_self (m : PMap κ ν) (k : κ) : m.erase k k = none := by
  simp [erase_apply]

@[simp] theorem erase_of_ne (m : PMap κ ν) {k k' : κ} (h : k' ≠ k) :
    m.erase k k' = m k' := by
  simp [erase_apply, h]

theorem eraseAll_apply (m : PMap κ ν) (ks : List κ) (k : κ) :
    m.eraseAll ks k = if k ∈ ks then none else m k := by
  induction ks generalizing m with
  | nil => simp [eraseAll]
  | cons k' ks ih =>
    rw [eraseAll, List.foldl_cons, ← eraseAll, ih, erase_apply]
    by_cases h : k = k' <;> simp [h]

/-- An entry that survives an `erase` was there before, under another key. -/
theorem erase_eq_some {m : PMap κ ν} {k k' : κ} {v : ν} :
    m.erase k k' = some v ↔ k' ≠ k ∧ m k' = some v := by
  by_cases h : k' = k <;> simp [h]

/-- An entry after an `insert` is the new one or an old one under another key. -/
theorem insert_eq_some {m : PMap κ ν} {k k' : κ} {v w : ν} :
    m.insert k v k' = some w ↔ (k' = k ∧ v = w) ∨ (k' ≠ k ∧ m k' = some w) := by
  by_cases h : k' = k <;> simp [h]

/-- The entries of a list inserted one after the other, so that of two values under one
key the later one stays. -/
def ofEntries (entries : List (κ × ν)) : PMap κ ν :=
  entries.foldl (fun m entry => m.insert entry.1 entry.2) empty

/-- A table built from distinct keys holds exactly its entries. -/
theorem ofEntries_eq_some {entries : List (κ × ν)} (hd : (entries.map Prod.fst).Nodup)
    {k : κ} {v : ν} : ofEntries entries k = some v ↔ (k, v) ∈ entries := by
  induction entries using List.reverseRecOn with
  | nil => simp [ofEntries]
  | append_singleton entries entry ih =>
    -- the last entry has a key of its own
    rw [List.map_append, List.nodup_append] at hd
    obtain ⟨hd, -, hnew⟩ := hd
    have hlast : ofEntries (entries ++ [entry]) = (ofEntries entries).insert entry.1 entry.2 := by
      simp [ofEntries]
    rw [hlast, insert_eq_some, ih hd, List.mem_append, List.mem_singleton, or_comm]
    apply or_congr
    · show k ≠ entry.1 ∧ (k, v) ∈ entries ↔ (k, v) ∈ entries
      refine and_iff_right_of_imp fun hmem => ?_
      exact hnew k (List.mem_map_of_mem hmem) entry.1 (by simp)
    · constructor
      · intro ⟨hk, hv⟩
        rw [hk, ← hv]
      · intro h
        exact ⟨congrArg Prod.fst h, (congrArg Prod.snd h).symm⟩

end PMap

end Degenerate.Lib
