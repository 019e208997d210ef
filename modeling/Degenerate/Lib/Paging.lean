import Mathlib.Data.List.Forall2
import Mathlib.Data.Nat.Basic

/-!
# Retries and Paged Listings

A listing is read page by page: what stands on a page tells the request for the next one, and
the last page has none.  An attempt at a page can fail, and some failures are worth another
attempt.  When a page cannot be had at all, the reader stops in front of it.

## Main Results

- `retry_attempts`: a page is had when one of a bounded number of attempts succeeds
- `getElem?_read`: a reader has the pages in front of the first one that it cannot have
- `isSome_read_iff`: a reader returns exactly when it comes to a last page, or to one that it
  cannot have
-/

namespace Degenerate.Lib

/-! ## §1 Retries -/

section Retry

variable {ε π : Type*} (retryable : ε → Bool)

/-- At most `left` attempts, the first one being number `n`; an error that is not retryable
    ends them. -/
def retryFrom (attempt : ℕ → Except ε π) : ℕ → ℕ → Option π
  | 0, _ => none
  | left + 1, n =>
    match attempt n with
    | .ok page => some page
    | .error e => if retryable e then retryFrom attempt left (n + 1) else none

/-- At most `maxRetries` attempts. -/
def retry (maxRetries : ℕ) (attempt : ℕ → Except ε π) : Option π :=
  retryFrom retryable attempt maxRetries 0

/-- What is had is the answer to one of the attempts, behind failures worth another one. -/
theorem retryFrom_eq_some_iff (attempt : ℕ → Except ε π) (left n : ℕ) {p : π} :
    retryFrom retryable attempt left n = some p ↔
      ∃ m < left, attempt (n + m) = .ok p ∧
        ∀ j < m, ∃ e, attempt (n + j) = .error e ∧ retryable e = true := by
  induction left generalizing n with
  | zero => simp [retryFrom]
  | succ left ih =>
    -- the first attempt is the one, or it fails and the rest decides
    have hshift : ∀ m, attempt (n + (m + 1)) = attempt (n + 1 + m) := by
      intro m
      rw [Nat.add_right_comm n 1 m, Nat.add_assoc]
    rw [Nat.exists_lt_succ_left]
    simp only [Nat.forall_lt_succ_left, Nat.add_zero, hshift]
    unfold retryFrom
    cases hn : attempt n with
    | ok page => simp
    | error e =>
      by_cases he : retryable e = true
      · simp [he, ih]
      · simp [he]

/-- Some attempt does not fail, and those before it fail in a way that is worth another one. -/
def Obtainable (maxRetries : ℕ) (failure : ℕ → Option ε) : Prop :=
  ∃ n < maxRetries, failure n = none ∧ ∀ m < n, (failure m).any retryable = true

instance (maxRetries : ℕ) (failure : ℕ → Option ε) :
    Decidable (Obtainable retryable maxRetries failure) :=
  inferInstanceAs (Decidable (∃ n < maxRetries, _))

/-- Attempts with one page behind every success. -/
def attempts (page : π) (failure : ℕ → Option ε) (n : ℕ) : Except ε π :=
  match failure n with
  | some e => .error e
  | none => .ok page

theorem attempts_eq_ok_iff {page p : π} {failure : ℕ → Option ε} {n : ℕ} :
    attempts page failure n = .ok p ↔ failure n = none ∧ page = p := by
  unfold attempts
  cases failure n with
  | none => simp
  | some e => simp

theorem attempts_eq_error_iff {page : π} {failure : ℕ → Option ε} {n : ℕ} {e : ε} :
    attempts page failure n = .error e ↔ failure n = some e := by
  unfold attempts
  cases failure n with
  | none => simp
  | some e => simp

/-- **A page is had** exactly when it is obtainable. -/
theorem retry_attempts (maxRetries : ℕ) (page : π) (failure : ℕ → Option ε) :
    retry retryable maxRetries (attempts page failure) =
      if Obtainable retryable maxRetries failure then some page else none := by
  -- the answer is the page, after failures that may be retried
  have hiff : ∀ p, retry retryable maxRetries (attempts page failure) = some p ↔
      Obtainable retryable maxRetries failure ∧ page = p := by
    intro p
    unfold retry Obtainable
    rw [retryFrom_eq_some_iff]
    simp only [attempts_eq_ok_iff, attempts_eq_error_iff, Nat.zero_add, Option.any_eq_true]
    constructor
    · rintro ⟨n, hn, ⟨hnone, rfl⟩, hfails⟩
      exact ⟨⟨n, hn, hnone, hfails⟩, rfl⟩
    · rintro ⟨⟨n, hn, hnone, hfails⟩, rfl⟩
      exact ⟨n, hn, ⟨hnone, rfl⟩, hfails⟩
  split
  · rename_i h
    exact (hiff page).mpr ⟨h, rfl⟩
  · rename_i h
    apply Option.eq_none_iff_forall_ne_some.mpr
    intro p hp
    exact h ((hiff p).mp hp).1

end Retry

/-! ## §2 Listings -/

/-- A listing: the page that answers the request for page number `k`, and the request for the
    page behind it. -/
structure Listing (ρ π : Type*) where
  page : ℕ → ρ → π
  next : ρ → π → Option ρ

namespace Listing

variable {ρ π : Type*} (l : Listing ρ π)

/-- The request that is `j` pages behind the request `req` for page number `k`, if the listing
    goes on as far as that. -/
def requestAt (k : ℕ) (req : ρ) : ℕ → Option ρ
  | 0 => some req
  | j + 1 => (l.next req (l.page k req)).bind fun req' => requestAt (k + 1) req' j

/-- The page that is `j` pages behind it. -/
def pageAt (k : ℕ) (req : ρ) (j : ℕ) : Option π := (l.requestAt k req j).map (l.page (k + j))

/-- Read page by page; `obtainable` says which pages can be had. -/
def read (obtainable : ℕ → ρ → Bool) : ℕ → ℕ → ρ → Option (List π)
  | 0, _, _ => none
  | fuel + 1, k, req =>
    if obtainable k req then
      match l.next req (l.page k req) with
      | none => some [l.page k req]
      | some req' => (read obtainable fuel (k + 1) req').map (l.page k req :: ·)
    else some []

variable (obtainable : ℕ → ρ → Bool)

theorem read_of_not_obtainable {fuel k : ℕ} {req : ρ} (h : ¬ obtainable k req = true) :
    l.read obtainable (fuel + 1) k req = some [] := by
  rw [read, if_neg h]

theorem read_of_last {fuel k : ℕ} {req : ρ} (h : obtainable k req = true)
    (hnext : l.next req (l.page k req) = none) :
    l.read obtainable (fuel + 1) k req = some [l.page k req] := by
  rw [read, if_pos h, hnext]

theorem read_of_next {fuel k : ℕ} {req req' : ρ} (h : obtainable k req = true)
    (hnext : l.next req (l.page k req) = some req') :
    l.read obtainable (fuel + 1) k req =
      (l.read obtainable fuel (k + 1) req').map (l.page k req :: ·) := by
  rw [read, if_pos h, hnext]

/-- The pages up to the one that is `j` pages behind can be had. -/
def Reaches (k : ℕ) (req : ρ) (j : ℕ) : Prop :=
  ∀ i ≤ j, ∀ r ∈ l.requestAt k req i, obtainable (k + i) r = true

theorem requestAt_succ {k : ℕ} {req req' : ρ} (h : l.next req (l.page k req) = some req')
    (j : ℕ) : l.requestAt k req (j + 1) = l.requestAt (k + 1) req' j := by
  rw [requestAt, h]
  rfl

theorem requestAt_succ_of_last {k : ℕ} {req : ρ} (h : l.next req (l.page k req) = none)
    (j : ℕ) : l.requestAt k req (j + 1) = none := by
  rw [requestAt, h]
  rfl

theorem pageAt_succ {k : ℕ} {req req' : ρ} (h : l.next req (l.page k req) = some req')
    (j : ℕ) : l.pageAt k req (j + 1) = l.pageAt (k + 1) req' j := by
  unfold pageAt
  rw [l.requestAt_succ h, Nat.add_right_comm k 1 j, Nat.add_assoc]

/-- A reader gets past a page when it gets this one and, from the next request on, the others. -/
theorem reaches_succ {k : ℕ} {req req' : ρ} (h : l.next req (l.page k req) = some req')
    (j : ℕ) : l.Reaches obtainable k req (j + 1) ↔
      obtainable k req = true ∧ l.Reaches obtainable (k + 1) req' j := by
  unfold Reaches
  constructor
  · intro hreaches
    -- the later requests are those of the next page
    refine ⟨hreaches 0 (Nat.zero_le _) req rfl, ?_⟩
    intro i hi r hr
    rw [Nat.add_right_comm k 1 i, Nat.add_assoc]
    apply hreaches (i + 1) (Nat.succ_le_succ hi) r
    rwa [l.requestAt_succ h]
  · rintro ⟨hfirst, hreaches⟩ i hi r hr
    cases i with
    | zero =>
      cases hr
      exact hfirst
    | succ i =>
      rw [l.requestAt_succ h] at hr
      rw [← Nat.add_assoc, Nat.add_right_comm k i 1]
      exact hreaches i (Nat.le_of_succ_le_succ hi) r hr

/-- **What a reader has**: the pages of the listing in front of the first one that cannot be
    had. -/
theorem getElem?_read {fuel k : ℕ} {req : ρ} {pages : List π}
    (h : l.read obtainable fuel k req = some pages) (j : ℕ) (p : π) :
    pages[j]? = some p ↔ l.pageAt k req j = some p ∧ l.Reaches obtainable k req j := by
  induction fuel generalizing k req pages j with
  | zero => cases h
  | succ fuel ih =>
    by_cases hfirst : obtainable k req = true
    · -- the first page is there; the others are those behind the next request
      have hzero : l.Reaches obtainable k req 0 := by
        intro i hi r hr
        obtain rfl := Nat.le_zero.mp hi
        cases hr
        exact hfirst
      cases hnext : l.next req (l.page k req) with
      | none =>
        rw [l.read_of_last obtainable hfirst hnext] at h
        cases h
        cases j with
        | zero => exact (and_iff_left hzero).symm
        | succ j =>
          apply iff_of_false
          · intro h
            cases h
          · rintro ⟨hpage, -⟩
            rw [pageAt, l.requestAt_succ_of_last hnext] at hpage
            cases hpage
      | some req' =>
        rw [l.read_of_next obtainable hfirst hnext] at h
        obtain ⟨rest, hrest, rfl⟩ := Option.map_eq_some_iff.mp h
        cases j with
        | zero => exact (and_iff_left hzero).symm
        | succ j =>
          rw [List.getElem?_cons_succ, ih hrest, l.pageAt_succ hnext,
            l.reaches_succ obtainable hnext, and_iff_right hfirst]
    · rw [l.read_of_not_obtainable obtainable hfirst] at h
      cases h
      apply iff_of_false
      · intro h
        cases h
      · -- no page lies in front of the first one
        rintro ⟨-, hreaches⟩
        exact hfirst (hreaches 0 (Nat.zero_le _) req rfl)

/-- The reader stops at the page that is `j` pages behind: it cannot be had, or it is the last
    one. -/
def StopsAt (k : ℕ) (req : ρ) (j : ℕ) : Prop :=
  ∃ r, l.requestAt k req j = some r ∧
    (obtainable (k + j) r = false ∨ l.requestAt k req (j + 1) = none)

/-- **A reader returns** exactly when it stops at a page. -/
theorem isSome_read_iff (fuel k : ℕ) (req : ρ) :
    (l.read obtainable fuel k req).isSome = true ↔ ∃ j < fuel, l.StopsAt obtainable k req j := by
  induction fuel generalizing k req with
  | zero =>
    apply iff_of_false
    · intro h
      cases h
    · rintro ⟨j, hj, -⟩
      omega
  | succ fuel ih =>
    by_cases hfirst : obtainable k req = true
    · cases hnext : l.next req (l.page k req) with
      | none =>
        rw [l.read_of_last obtainable hfirst hnext]
        apply iff_of_true rfl
        exact ⟨0, Nat.succ_pos _, req, rfl, .inr (l.requestAt_succ_of_last hnext 0)⟩
      | some req' =>
        rw [l.read_of_next obtainable hfirst hnext, Option.isSome_map, ih]
        have hshift : ∀ j, l.StopsAt obtainable k req (j + 1) ↔
            l.StopsAt obtainable (k + 1) req' j := by
          intro j
          unfold StopsAt
          rw [l.requestAt_succ hnext, l.requestAt_succ hnext, Nat.add_right_comm k 1 j,
            Nat.add_assoc]
        constructor
        · rintro ⟨j, hj, hstops⟩
          exact ⟨j + 1, Nat.succ_lt_succ hj, (hshift j).mpr hstops⟩
        · rintro ⟨j, hj, hstops⟩
          cases j with
          | zero =>
            -- the first page can be had, and it is not the last one
            obtain ⟨r, hr, hfails | hlast⟩ := hstops
            · cases hr
              exact absurd hfirst (ne_true_of_eq_false hfails)
            · rw [l.requestAt_succ hnext] at hlast
              cases hlast
          | succ j => exact ⟨j, Nat.lt_of_succ_lt_succ hj, (hshift j).mp hstops⟩
    · rw [l.read_of_not_obtainable obtainable hfirst]
      apply iff_of_true rfl
      exact ⟨0, Nat.succ_pos _, req, rfl, .inl (Bool.eq_false_iff.mpr hfirst)⟩

/-- The listing has the item on a page, and the reader gets as far as that. -/
def Reads {μ : Type*} (items : π → List μ) (req : ρ) (m : μ) : Prop :=
  ∃ j p, l.pageAt 0 req j = some p ∧ l.Reaches obtainable 0 req j ∧ m ∈ items p

/-- The items that a reader has. -/
theorem mem_read_iff {μ : Type*} (items : π → List μ) {fuel : ℕ} {req : ρ} {pages : List π}
    (h : l.read obtainable fuel 0 req = some pages) (m : μ) :
    m ∈ pages.flatMap items ↔ l.Reads obtainable items req m := by
  rw [List.mem_flatMap]
  constructor
  · rintro ⟨p, hp, hm⟩
    obtain ⟨j, hj⟩ := List.mem_iff_getElem?.mp hp
    obtain ⟨hpage, hreaches⟩ := (l.getElem?_read obtainable h j p).mp hj
    exact ⟨j, p, hpage, hreaches, hm⟩
  · rintro ⟨j, p, hpage, hreaches, hm⟩
    have hj := (l.getElem?_read obtainable h j p).mpr ⟨hpage, hreaches⟩
    exact ⟨p, List.mem_of_getElem? hj, hm⟩

end Listing

/-! ## §3 Several Listings -/

section Several

variable {β γ σ : Type*} {f : β → Option γ} {g : σ → γ → σ}

/-- What several readings add up to. -/
theorem foldlM_map_eq_some {bs : List β} {s s' : σ}
    (h : bs.foldlM (fun s b => (f b).map (g s)) s = some s') :
    ∃ cs, List.Forall₂ (fun b c => f b = some c) bs cs ∧ s' = cs.foldl g s := by
  induction bs generalizing s with
  | nil =>
    cases h
    exact ⟨[], .nil, rfl⟩
  | cons b bs ih =>
    rw [List.foldlM_cons] at h
    obtain ⟨t, ht, hrest⟩ := Option.bind_eq_some_iff.mp h
    obtain ⟨c, hc, rfl⟩ := Option.map_eq_some_iff.mp ht
    obtain ⟨cs, hcs, rfl⟩ := ih hrest
    exact ⟨c :: cs, .cons hc hcs, rfl⟩

/-- Several readings return when each of them does. -/
theorem isSome_foldlM_map_iff (bs : List β) (s : σ) :
    (bs.foldlM (fun s b => (f b).map (g s)) s).isSome = true ↔
      ∀ b ∈ bs, (f b).isSome = true := by
  induction bs generalizing s with
  | nil => exact iff_of_true rfl (List.forall_mem_nil _)
  | cons b bs ih =>
    rw [List.foldlM_cons, List.forall_mem_cons]
    cases hb : f b with
    | none =>
      apply iff_of_false
      · intro h
        cases h
      · rintro ⟨h, -⟩
        cases h
    | some c => exact (ih (g s c)).trans (and_iff_right rfl).symm

/-- The items of several readings, one reading after the other. -/
theorem mem_flatMap_forall₂ {μ : Type*} {P : β → μ → Prop} {items : γ → List μ} {bs : List β}
    {cs : List γ} (h : List.Forall₂ (fun b c => ∀ m, m ∈ items c ↔ P b m) bs cs) (m : μ) :
    m ∈ cs.flatMap items ↔ ∃ b ∈ bs, P b m := by
  induction h with
  | nil => simp
  | cons hbc _ ih =>
    rw [List.flatMap_cons, List.mem_append, ih, hbc, List.exists_mem_cons_iff]

end Several

end Degenerate.Lib
