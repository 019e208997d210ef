import Mathlib.Data.List.Induction

/-!
# The First Item of Each Key

A scan over a stream of items that remembers the keys it has met and keeps an item only
when its key is new.  Whatever the pages the stream comes in, the scan keeps exactly the
items that are the first ones of their key.

## Main Results

- `mem_scan_container`: an item is kept iff it is the first one of the stream with its key
- `filter_scan_container`: of each key, one item is kept
-/

namespace Degenerate.Lib

/-! ## §1 The Scan -/

/-- What a scan has kept, and the keys it has met. -/
structure FirstScan (α κ : Type*) where
  container : List α := []
  seen : List κ := []

namespace FirstScan

variable {α κ : Type*} [DecidableEq κ] (key : α → κ)

/-- One item: kept when its key is new. -/
def offer (s : FirstScan α κ) (a : α) : FirstScan α κ :=
  if key a ∈ s.seen then s
  else { container := s.container ++ [a], seen := key a :: s.seen }

/-- The items of a list, in order. -/
def offerAll (s : FirstScan α κ) (xs : List α) : FirstScan α κ := xs.foldl (offer key) s

@[simp] theorem offerAll_nil (s : FirstScan α κ) : s.offerAll key [] = s := rfl

theorem offerAll_append (s : FirstScan α κ) (xs ys : List α) :
    s.offerAll key (xs ++ ys) = (s.offerAll key xs).offerAll key ys :=
  List.foldl_append

theorem offerAll_flatMap {β : Type*} (f : β → List α) (bs : List β) (s : FirstScan α κ) :
    bs.foldl (fun s b => s.offerAll key (f b)) s = s.offerAll key (bs.flatMap f) :=
  List.foldl_flatMap.symm

/-! ## §2 What Is Kept -/

/-- The item `a` is the first one of `xs` that has its key. -/
def IsFirst (xs : List α) (a : α) : Prop := xs.find? (fun b => key b = key a) = some a

instance [DecidableEq α] (xs : List α) (a : α) : Decidable (IsFirst key xs a) :=
  inferInstanceAs (Decidable (_ = _))

/-- Behind a list without the key of `a`, only `a` itself can come first. -/
theorem isFirst_append_singleton {xs : List α} {x a : α} :
    IsFirst key (xs ++ [x]) a ↔
      IsFirst key xs a ∨ (a = x ∧ ∀ b ∈ xs, key b ≠ key x) := by
  unfold IsFirst
  rw [List.find?_append, Option.or_eq_some_iff, List.find?_eq_none]
  refine or_congr_right ?_
  constructor
  · intro ⟨hnone, hx⟩
    have hax : a = x := by
      have := List.mem_of_find?_eq_some hx
      simpa using this
    subst hax
    exact ⟨rfl, fun b hb => by simpa using hnone b hb⟩
  · intro ⟨hax, hnew⟩
    subst hax
    exact ⟨fun b hb => by simpa using hnew b hb, by simp⟩

/-- The keys met are the keys of the stream. -/
theorem mem_offerAll_seen (xs : List α) {k : κ} :
    k ∈ (offerAll key {} xs).seen ↔ ∃ b ∈ xs, key b = k := by
  induction xs using List.reverseRecOn with
  | nil => simp
  | append_singleton xs x ih =>
    rw [offerAll_append]
    show k ∈ (offer key _ x).seen ↔ _
    unfold offer
    split
    · -- `x` is not kept; its key is one of those met before
      rename_i hseen
      have hold : key x = k → k ∈ (offerAll key {} xs).seen := fun h => h ▸ hseen
      rw [ih] at hold ⊢
      simp only [List.mem_append, List.mem_singleton, or_and_right, exists_or, exists_eq_left]
      exact (or_iff_left_of_imp hold).symm
    · simp [ih, or_comm, eq_comm, or_and_right, exists_or]

/-- **A scan keeps the first item of each key, and nothing else.** -/
theorem mem_scan_container (xs : List α) {a : α} :
    a ∈ (offerAll key {} xs).container ↔ IsFirst key xs a := by
  induction xs using List.reverseRecOn with
  | nil => simp [IsFirst]
  | append_singleton xs x ih =>
    rw [offerAll_append, isFirst_append_singleton, ← ih]
    show a ∈ (offer key _ x).container ↔ _
    unfold offer
    split
    · -- a key that has been seen adds nothing
      rename_i hseen
      obtain ⟨b, hb, hkey⟩ := (mem_offerAll_seen key xs).mp hseen
      refine (or_iff_left ?_).symm
      exact fun h => h.2 b hb hkey
    · -- a new key adds its element
      rename_i hseen
      have hnew : ∀ b ∈ xs, key b ≠ key x := fun b hb hkey =>
        hseen ((mem_offerAll_seen key xs).mpr ⟨b, hb, hkey⟩)
      have hfirst : (a = x ∧ ∀ b ∈ xs, key b ≠ key x) ↔ a = x := and_iff_left hnew
      rw [hfirst]
      simp

/-- **A scan keeps one item of each key it meets**: the first one. -/
theorem filter_scan_container (xs : List α) (k : κ) :
    (offerAll key {} xs).container.filter (fun a => key a = k) =
      (xs.find? fun a => key a = k).toList := by
  induction xs using List.reverseRecOn with
  | nil => rfl
  | append_singleton xs x ih =>
    rw [offerAll_append, List.find?_append]
    show (offer key _ x).container.filter _ = _
    unfold offer
    split
    · -- the key of `x` was met before
      rename_i hseen
      rw [ih]
      by_cases hk : key x = k
      · obtain ⟨b, hb, hkey⟩ := (mem_offerAll_seen key xs).mp hseen
        have hfound : (xs.find? fun a => key a = k).isSome = true := by
          rw [List.find?_isSome]
          exact ⟨b, hb, decide_eq_true (hkey.trans hk)⟩
        obtain ⟨a, ha⟩ := Option.isSome_iff_exists.mp hfound
        rw [ha]
        rfl
      · rw [List.find?_singleton, if_neg (by simpa using hk), Option.or_none]
    · rename_i hseen
      have hnew : ∀ b ∈ xs, key b ≠ key x := fun b hb hkey =>
        hseen ((mem_offerAll_seen key xs).mpr ⟨b, hb, hkey⟩)
      rw [List.filter_append, ih]
      by_cases hk : key x = k
      · have hnone : (xs.find? fun a => key a = k) = none := by
          rw [List.find?_eq_none]
          intro b hb
          simpa [← hk] using hnew b hb
        rw [hnone, List.find?_singleton, if_pos (by simpa using hk),
          List.filter_cons_of_pos (by simpa using hk)]
        rfl
      · rw [List.find?_singleton, if_neg (by simpa using hk), Option.or_none,
          List.filter_cons_of_neg (by simpa using hk), List.filter_nil, List.append_nil]

end FirstScan

end Degenerate.Lib
