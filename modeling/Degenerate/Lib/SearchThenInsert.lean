import Mathlib.Data.List.Induction
import Mathlib.Data.List.Nodup

/-!
# Search, then Insert

An index that grows while items arrive in turns.  Every item first searches what is
stored for its partners under a relation; then the items of the turn are stored.  A batch
stores all of its items, a single item is stored only if its search found a partner.

A pair is found when its later item searches, provided that the earlier one was stored.
So the index finds all pairs exactly when no single item that was turned away has a
partner still to come (`complete_iff`).

## Main Results

- `mem_stored_iff`: which items are stored
- `complete_iff`: when every pair is found
-/

namespace Degenerate.Lib

variable {α : Type*}

/-! ## §1 Turns -/

/-- One turn: a batch, or a single item that is stored only if it has a partner. -/
inductive Turn (α : Type*) where
  | batch (xs : List α)
  | single (x : α)

/-- The items that arrive in a turn. -/
def Turn.items : Turn α → List α
  | .batch xs => xs
  | .single x => [x]

/-- The items of several turns, in order of arrival. -/
def arrivals (ts : List (Turn α)) : List α := ts.flatMap Turn.items

section Index

variable (R : α → α → Prop) [DecidableRel R]

/-- The index after a turn. -/
def Turn.store (s : List α) : Turn α → List α
  | .batch xs => s ++ xs
  | .single x => if ∃ y ∈ s, R x y then s ++ [x] else s

/-- The index after several turns, from the empty one. -/
def stored (ts : List (Turn α)) : List α := ts.foldl (Turn.store R) []

/-- The search of `x`, in its turn, finds `y`. -/
def Finds (ts : List (Turn α)) (x y : α) : Prop :=
  ∃ pre t post, ts = pre ++ t :: post ∧ x ∈ t.items ∧ y ∈ stored R pre ∧ R x y

/-- No single item that finds nothing has a partner in a later turn. -/
def NoneTurnedAway (ts : List (Turn α)) : Prop :=
  ∀ pre x post, ts = pre ++ .single x :: post → (∀ y ∈ stored R pre, ¬R x y) →
    ∀ y ∈ arrivals post, ¬R x y

/-! ## §2 What is stored -/

@[simp] theorem stored_nil : stored R [] = [] := rfl

@[simp] theorem stored_concat (ts : List (Turn α)) (t : Turn α) :
    stored R (ts ++ [t]) = t.store R (stored R ts) := by
  simp [stored]

@[simp] theorem arrivals_append (ts us : List (Turn α)) :
    arrivals (ts ++ us) = arrivals ts ++ arrivals us := List.flatMap_append

@[simp] theorem arrivals_cons (t : Turn α) (ts : List (Turn α)) :
    arrivals (t :: ts) = t.items ++ arrivals ts := List.flatMap_cons

/-- A turn adds the new items or nothing. -/
theorem store_sublist {s s' : List α} (h : s.Sublist s') (t : Turn α) :
    (t.store R s).Sublist (s' ++ t.items) := by
  cases t with
  | batch xs => exact h.append (List.Sublist.refl xs)
  | single x =>
    rw [Turn.store]
    split
    · exact h.append (List.Sublist.refl [x])
    · exact h.trans (List.sublist_append_left _ _)

/-- What is stored has arrived, and in that order. -/
theorem stored_sublist (ts : List (Turn α)) : (stored R ts).Sublist (arrivals ts) := by
  induction ts using List.reverseRecOn with
  | nil => exact List.Sublist.refl _
  | append_singleton ts t ih =>
    rw [stored_concat, arrivals_append]
    simpa [arrivals] using store_sublist R ih t

/-- **What is stored.** An item is stored if it came in a batch or found a partner. -/
theorem mem_stored_iff {ts : List (Turn α)} {y : α} :
    y ∈ stored R ts ↔ ∃ pre t post, ts = pre ++ t :: post ∧ y ∈ t.items ∧
      (t = .single y → ∃ z ∈ stored R pre, R y z) := by
  induction ts using List.reverseRecOn with
  | nil => simp
  | append_singleton ts t ih =>
    -- an item is stored before the last turn, or by it
    have hstep : y ∈ t.store R (stored R ts) ↔ y ∈ stored R ts ∨
        y ∈ t.items ∧ (t = .single y → ∃ z ∈ stored R ts, R y z) := by
      cases t with
      | batch xs => simp [Turn.store, Turn.items]
      | single x =>
        rw [Turn.store, Turn.items, List.mem_singleton]
        split
        · rename_i hx
          rw [List.mem_append, List.mem_singleton]
          refine or_congr Iff.rfl ⟨?_, And.left⟩
          rintro rfl
          exact ⟨rfl, fun _ => hx⟩
        · rename_i hx
          refine ⟨Or.inl, ?_⟩
          rintro (hy | ⟨rfl, hy⟩)
          · exact hy
          · exact absurd (hy rfl) hx
    rw [stored_concat, hstep, ih]
    constructor
    · rintro (⟨pre, t', post, rfl, hy, hsingle⟩ | ⟨hy, hsingle⟩)
      · exact ⟨pre, t', post ++ [t], by simp, hy, hsingle⟩
      · exact ⟨ts, t, [], rfl, hy, hsingle⟩
    · rintro ⟨pre, t', post, heq, hy, hsingle⟩
      obtain rfl | ⟨post, t'', rfl⟩ := post.eq_nil_or_concat
      · obtain ⟨rfl, ht⟩ := List.append_inj' heq rfl
        obtain rfl := List.singleton_inj.mp ht
        exact .inr ⟨hy, hsingle⟩
      · have heq' : ts ++ [t] = (pre ++ t' :: post) ++ [t''] := by simpa using heq
        obtain ⟨rfl, -⟩ := List.append_inj' heq' rfl
        exact .inl ⟨pre, t', post, rfl, hy, hsingle⟩

/-! ## §3 Turns of an item -/

/-- An item that arrives once arrives in one turn. -/
theorem turn_unique {x : α} {t t' : Turn α} {post post' : List (Turn α)} :
    ∀ {pre pre'}, (arrivals (pre ++ t :: post)).Nodup → pre ++ t :: post = pre' ++ t' :: post' →
      x ∈ t.items → x ∈ t'.items → pre = pre' ∧ t = t' ∧ post = post' := by
  intro pre
  induction pre with
  | nil =>
    intro pre' hnodup heq hx hx'
    cases pre' with
    | nil =>
      injection heq with ht hpost
      exact ⟨rfl, ht, hpost⟩
    | cons u pre' =>
      injection heq with ht hpost
      -- the item would arrive again in a later turn
      have hlater : x ∈ arrivals post := by simp [hpost, hx']
      simp only [List.nil_append, arrivals_cons, List.nodup_append] at hnodup
      exact absurd rfl (hnodup.2.2 x hx x hlater)
  | cons u pre ih =>
    intro pre' hnodup heq hx hx'
    have hnodup' := hnodup
    simp only [List.cons_append, arrivals_cons, List.nodup_append] at hnodup'
    cases pre' with
    | nil =>
      injection heq with ht hpost
      -- and here in an earlier one
      have hlater : x ∈ arrivals (pre ++ t :: post) := by simp [hx]
      exact absurd rfl (hnodup'.2.2 x (ht ▸ hx') x hlater)
    | cons u' pre' =>
      injection heq with ht hpost
      obtain ⟨rfl, h⟩ := ih hnodup'.2.1 hpost hx hx'
      exact ⟨by rw [ht], h⟩

/-- Two arrivals share a turn, or one comes in an earlier turn than the other. -/
theorem turns_of_mem {ts : List (Turn α)} {x y : α} (hx : x ∈ arrivals ts)
    (hy : y ∈ arrivals ts) :
    (∃ t ∈ ts, x ∈ t.items ∧ y ∈ t.items) ∨
      (∃ pre t post, ts = pre ++ t :: post ∧ x ∈ t.items ∧ y ∈ arrivals post) ∨
      ∃ pre t post, ts = pre ++ t :: post ∧ y ∈ t.items ∧ x ∈ arrivals post := by
  induction ts with
  | nil => exact absurd hx List.not_mem_nil
  | cons t ts ih =>
    rcases List.mem_append.mp hx with hxt | hxs <;> rcases List.mem_append.mp hy with hyt | hys
    · exact .inl ⟨t, List.mem_cons_self, hxt, hyt⟩
    · exact .inr (.inl ⟨[], t, ts, rfl, hxt, hys⟩)
    · exact .inr (.inr ⟨[], t, ts, rfl, hyt, hxs⟩)
    · obtain ⟨t', ht', h⟩ | ⟨pre, t', post, rfl, h⟩ | ⟨pre, t', post, rfl, h⟩ := ih hxs hys
      · exact .inl ⟨t', List.mem_cons_of_mem _ ht', h⟩
      · exact .inr (.inl ⟨t :: pre, t', post, rfl, h⟩)
      · exact .inr (.inr ⟨t :: pre, t', post, rfl, h⟩)

/-! ## §4 Completeness -/

/-- An item that is not turned away is found by every later partner. -/
theorem finds_of_earlier {ts pre post : List (Turn α)} {t : Turn α} {x y : α}
    (hsymm : ∀ x y, R x y → R y x) (hts : ts = pre ++ t :: post) (hx : x ∈ t.items)
    (hy : y ∈ arrivals post) (hxy : R x y) (hnone : NoneTurnedAway R ts) : Finds R ts y x := by
  obtain ⟨t', ht', hy'⟩ := List.mem_flatMap.mp hy
  obtain ⟨mid, post', rfl⟩ := List.append_of_mem ht'
  refine ⟨pre ++ t :: mid, t', post', by simp [hts], hy', ?_, hsymm _ _ hxy⟩
  refine (mem_stored_iff R).mpr ⟨pre, t, mid, rfl, hx, ?_⟩
  rintro rfl
  by_contra hno
  have hnone' := hnone pre x _ hts (fun z hz hxz => hno ⟨z, hz, hxz⟩)
  exact hnone' y hy hxy

/-- **Completeness.** For a symmetric relation that holds within no turn, and items that
arrive once, every pair is found if and only if no item was turned away too early. -/
theorem complete_iff {ts : List (Turn α)} (hsymm : ∀ x y, R x y → R y x)
    (hapart : ∀ t ∈ ts, ∀ x ∈ t.items, ∀ y ∈ t.items, ¬R x y) (hnodup : (arrivals ts).Nodup) :
    (∀ x ∈ arrivals ts, ∀ y ∈ arrivals ts, R x y → Finds R ts x y ∨ Finds R ts y x) ↔
      NoneTurnedAway R ts := by
  constructor
  · intro hall pre x post hts hnone y hy hxy
    have hx : x ∈ arrivals ts := by simp [hts, Turn.items]
    have hy' : y ∈ arrivals ts := by simp [hts, hy]
    have hself : x ∈ (Turn.single x).items := List.mem_singleton_self x
    rw [hts] at hnodup
    rcases hall x hx y hy' hxy with ⟨pre', t', post', hts', hx', hstored, -⟩ |
      ⟨pre', t', post', hts', -, hstored, -⟩
    · -- `x` searches in its own turn, where nothing is found
      obtain ⟨rfl, -⟩ := turn_unique hnodup (hts.symm.trans hts') hself hx'
      exact hnone y hstored hxy
    · -- `x` can only be stored in its own turn, and was turned away there
      obtain ⟨pre'', t'', post'', rfl, hx'', hsingle⟩ := (mem_stored_iff R).mp hstored
      have heq := hts.symm.trans hts'
      rw [List.append_assoc, List.cons_append] at heq
      obtain ⟨rfl, rfl, -⟩ := turn_unique hnodup heq hself hx''
      obtain ⟨z, hz, hxz⟩ := hsingle rfl
      exact hnone z hz hxz
  · intro hnone x hx y hy hxy
    obtain ⟨t, ht, hxt, hyt⟩ | ⟨pre, t, post, hts, hxt, hys⟩ | ⟨pre, t, post, hts, hyt, hxs⟩ :=
      turns_of_mem hx hy
    · exact absurd hxy (hapart t ht x hxt y hyt)
    · exact .inr (finds_of_earlier R hsymm hts hxt hys hxy hnone)
    · exact .inl (finds_of_earlier R hsymm hts hyt hxs (hsymm _ _ hxy) hnone)

end Index

end Degenerate.Lib
