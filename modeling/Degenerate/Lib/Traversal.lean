import Mathlib.Data.List.Forall2

/-!
# Fallible Traversals and Parallel Lists

A list of items that are converted one after the other, where the first item that fails ends
the work.  The traversal succeeds exactly when every item does, and its results then stand
beside the items in their order.

Several lists that belong together by position are one list of rows, provided that none of
them ends before the first one.

## Main Results

- `mapM_eq_ok_iff`: the results of a traversal that succeeds
- `mapM_isOk_iff`: when it does
- `exists_rows`: the rows of three parallel lists
-/

namespace Degenerate.Lib

/-! ## §1 Traversals -/

section Traversal

variable {ε α β : Type}

/-- An outcome other than an error is a result. -/
theorem isOk_iff_ne_error {x : Except ε α} : (∃ a, x = .ok a) ↔ ∀ e, x ≠ .error e := by
  cases x with
  | error e => simp
  | ok a => simp

/-- What an outcome without its error is. -/
theorem toOption_eq_some_iff {x : Except ε α} {a : α} : x.toOption = some a ↔ x = .ok a := by
  cases x with
  | error e => simp [Except.toOption]
  | ok b => simp [Except.toOption]

/-- A step that cannot fail does not decide whether a computation succeeds. -/
theorem bind_pure_isOk_iff {x : Except ε α} {f : α → β} :
    (∃ b, (x >>= fun a => pure (f a)) = .ok b) ↔ ∃ a, x = .ok a := by
  cases x with
  | error e => simp [bind, Except.bind]
  | ok a => simp [bind, Except.bind, pure, Except.pure]

/-- The first item of a traversal is converted before the others. -/
theorem mapM_cons_eq_ok_iff {f : α → Except ε β} {x : α} {xs : List α} {zs : List β} :
    (x :: xs).mapM f = .ok zs ↔ ∃ y ys, f x = .ok y ∧ xs.mapM f = .ok ys ∧ zs = y :: ys := by
  rw [List.mapM_cons]
  cases hx : f x with
  | error e => simp [bind, Except.bind]
  | ok y =>
    cases hxs : xs.mapM f with
    | error e => simp [bind, Except.bind]
    | ok ys => simp [bind, Except.bind, pure, Except.pure, eq_comm]

/-- **The results of a traversal.** They belong to the items in order. -/
theorem mapM_eq_ok_iff {f : α → Except ε β} {xs : List α} {ys : List β} :
    xs.mapM f = .ok ys ↔ List.Forall₂ (fun x y => f x = .ok y) xs ys := by
  induction xs generalizing ys with
  | nil =>
    rw [List.forall₂_nil_left_iff, List.mapM_nil]
    simp [pure, Except.pure, eq_comm]
  | cons x xs ih =>
    rw [mapM_cons_eq_ok_iff, List.forall₂_cons_left_iff]
    simp only [ih]

/-- A traversal succeeds exactly when every item does. -/
theorem mapM_isOk_iff {f : α → Except ε β} {xs : List α} :
    (∃ ys, xs.mapM f = .ok ys) ↔ ∀ x ∈ xs, ∃ y, f x = .ok y := by
  induction xs with
  | nil =>
    refine iff_of_true ⟨[], ?_⟩ ?_
    · exact List.mapM_nil
    · intro x hx
      exact absurd hx List.not_mem_nil
  | cons x xs ih =>
    rw [List.forall_mem_cons, ← ih]
    simp only [mapM_cons_eq_ok_iff]
    constructor
    · rintro ⟨_, y, ys, hx, hxs, -⟩
      exact ⟨⟨y, hx⟩, ys, hxs⟩
    · rintro ⟨⟨y, hx⟩, ys, hxs⟩
      exact ⟨_, y, ys, hx, hxs, rfl⟩

/-- A traversal in which no item fails. -/
theorem mapM_eq_ok_map {f : α → Except ε β} {g : α → β} {xs : List α}
    (h : ∀ x ∈ xs, f x = .ok (g x)) : xs.mapM f = .ok (xs.map g) := by
  rw [mapM_eq_ok_iff, List.forall₂_map_right_iff, List.forall₂_same]
  exact h

end Traversal

/-! ## §2 Parallel lists -/

section Parallel

variable {α β γ : Type*}

/-- **The rows of parallel lists.** A list that is as long as a second one and not longer than
a third one is a column of a table whose other columns they are. -/
theorem exists_rows {xs : List α} {ys : List β} {zs : List γ} (hys : xs.length ≤ ys.length)
    (hzs : xs.length = zs.length) :
    ∃ rows : List (α × β × γ), rows.map (·.1) = xs ∧ rows.map (·.2.1) = ys.take xs.length ∧
      rows.map (·.2.2) = zs ∧ xs.zip ys = rows.map fun r => (r.1, r.2.1) := by
  induction xs generalizing ys zs with
  | nil =>
    obtain rfl := List.eq_nil_of_length_eq_zero hzs.symm
    exact ⟨[], rfl, rfl, rfl, rfl⟩
  | cons x xs ih =>
    -- neither of the other lists is shorter
    have hpos : 0 < (x :: xs).length := Nat.succ_pos _
    have hposy : 0 < ys.length := Nat.lt_of_lt_of_le hpos hys
    have hposz : 0 < zs.length := Nat.lt_of_lt_of_eq hpos hzs
    obtain ⟨y, ys, rfl⟩ := List.exists_cons_of_length_pos hposy
    obtain ⟨z, zs, rfl⟩ := List.exists_cons_of_length_pos hposz
    obtain ⟨rows, hx, hy, hz, hzip⟩ := ih (Nat.le_of_succ_le_succ hys) (Nat.succ.inj hzs)
    refine ⟨(x, y, z) :: rows, ?_, ?_, ?_, ?_⟩
    · rw [List.map_cons, hx]
    · rw [List.map_cons, hy]
      rfl
    · rw [List.map_cons, hz]
    · rw [List.zip_cons_cons, List.map_cons, hzip]

/-- Items that have no counterpart in a first list have none in a longer list either. -/
theorem map_snd_zip_zip {xs : List α} {ys : List β} {zs : List γ} (h : zs.length ≤ xs.length) :
    ((xs.zip ys).map (·.2)).zip zs = ys.zip zs := by
  induction zs generalizing xs ys with
  | nil => rw [List.zip_nil_right, List.zip_nil_right]
  | cons z zs ih =>
    have hpos : 0 < xs.length := Nat.lt_of_lt_of_le (Nat.succ_pos _) h
    obtain ⟨x, xs, rfl⟩ := List.exists_cons_of_length_pos hpos
    cases ys with
    | nil => rfl
    | cons y ys =>
      rw [List.zip_cons_cons, List.map_cons, List.zip_cons_cons, List.zip_cons_cons,
        ih (Nat.le_of_succ_le_succ h)]

end Parallel

end Degenerate.Lib
