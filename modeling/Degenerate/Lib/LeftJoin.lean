import Mathlib.Data.List.Nodup
import Mathlib.Data.List.Perm.Basic

/-!
# Left Joins on a Unique Key

A table whose key column is unique refuses a row with a key that it has already.  A left
join on the keys of two tables puts each row of the left one beside every row of the right
one that has its key, and beside nothing when there is none.  When the rows of both tables
come from entries with distinct keys, the join puts each entry together again.

## Main Results

- `UniqueTable.rows_insertAll`: rows with distinct keys are all accepted
- `leftJoin_perm`: the order of the rows does not matter
- `leftJoin_filterMap`: the two halves of an entry are joined, and no others
-/

namespace Degenerate.Lib

variable {α β κ ε : Type*} [DecidableEq κ]

/-! ## §1 Tables -/

/-- The rows of a table in the order of their insertion, with a unique key. -/
structure UniqueTable (α : Type*) {κ : Type*} (key : α → κ) where
  rows : List α
  unique : (rows.map key).Nodup

namespace UniqueTable

variable {key : α → κ}

/-- A table without rows. -/
def empty : UniqueTable α key := ⟨[], List.nodup_nil⟩

omit [DecidableEq κ] in
theorem nodup_append_row {rows : List α} {row : α} (h : (rows.map key).Nodup)
    (hnew : key row ∉ rows.map key) : ((rows ++ [row]).map key).Nodup := by
  rw [List.map_append, List.map_singleton, ← List.concat_eq_append]
  exact List.Nodup.concat hnew h

/-- Insert a row, unless its key is there already. -/
def insert (t : UniqueTable α key) (row : α) : Option (UniqueTable α key) :=
  if h : key row ∈ t.rows.map key then none
  else some ⟨t.rows ++ [row], nodup_append_row t.unique h⟩

/-- Insert rows one after another; a row that is refused changes nothing. -/
def insertAll (t : UniqueTable α key) (xs : List α) : UniqueTable α key :=
  xs.foldl (fun t row => (t.insert row).getD t) t

theorem rows_insert {t t' : UniqueTable α key} {row : α} (h : t.insert row = some t') :
    t'.rows = t.rows ++ [row] := by
  unfold insert at h
  split at h
  · cases h
  · cases h
    rfl

/-- A row with a new key is accepted. -/
theorem insert_isSome {t : UniqueTable α key} {row : α} (h : key row ∉ t.rows.map key) :
    (t.insert row).isSome := by
  unfold insert
  rw [dif_neg h]
  rfl

/-- **Rows with distinct keys are all accepted.** -/
theorem rows_insertAll {t : UniqueTable α key} {xs : List α}
    (h : ((t.rows ++ xs).map key).Nodup) : (t.insertAll xs).rows = t.rows ++ xs := by
  induction xs generalizing t with
  | nil => rw [List.append_nil]; rfl
  | cons row xs ih =>
    -- the key of the first row is new, so it is inserted at the end
    have hnew : key row ∉ t.rows.map key := by
      rw [List.map_append, List.map_cons] at h
      intro hmem
      exact (List.nodup_append.mp h).2.2 _ hmem _ List.mem_cons_self rfl
    obtain ⟨t', ht'⟩ := Option.isSome_iff_exists.mp (insert_isSome hnew)
    have hrows := rows_insert ht'
    have hsplit : t.rows ++ row :: xs = t'.rows ++ xs := by
      rw [hrows, List.append_assoc]
      rfl
    rw [hsplit] at h ⊢
    rw [← ih h]
    show (xs.foldl _ ((t.insert row).getD t)).rows = _
    rw [ht']
    rfl

end UniqueTable

/-! ## §2 Joins -/

/-- What a left row is put beside: its partners, or nothing. -/
def partners : List β → List (Option β)
  | [] => [none]
  | y :: ys => (y :: ys).map some

@[simp] theorem partners_toList (o : Option β) : partners o.toList = [o] := by
  cases o <;> rfl

theorem partners_perm {ys ys' : List β} (h : ys.Perm ys') :
    (partners ys).Perm (partners ys') := by
  cases ys with
  | nil =>
    rw [List.nil_perm.mp h]
  | cons y ys =>
    cases ys' with
    | nil => exact absurd h.length_eq (by simp)
    | cons y' ys' => exact h.map some

/-- The left join of two tables on their keys. -/
def leftJoin (f : α → κ) (g : β → κ) (xs : List α) (ys : List β) : List (α × Option β) :=
  xs.flatMap fun x => (partners (ys.filter fun y => g y = f x)).map (x, ·)

variable {f : α → κ} {g : β → κ}

/-- **Joins of tables with the same rows have the same rows.** -/
theorem leftJoin_perm {xs xs' : List α} {ys ys' : List β} (hx : xs.Perm xs')
    (hy : ys.Perm ys') : (leftJoin f g xs ys).Perm (leftJoin f g xs' ys') := by
  apply List.Perm.flatMap hx
  intro x _
  exact (partners_perm (hy.filter _)).map _

/-! ## §3 Entries -/

section Entries

variable {key : ε → κ} {left : ε → Option α} {right : ε → Option β}

/-- Entries without a half can be left out. -/
theorem filterMap_filter_of_none {p : ε → Bool} (h : ∀ e, p e = false → left e = none)
    (es : List ε) : (es.filter p).filterMap left = es.filterMap left := by
  rw [List.filterMap_filter]
  apply List.filterMap_congr
  intro e _
  cases hp : p e with
  | true => rfl
  | false => exact (h e hp).symm

omit [DecidableEq κ] in
/-- The keys of one half of the entries are keys of entries. -/
theorem map_filterMap_sublist {es : List ε}
    (hleft : ∀ e ∈ es, ∀ x, left e = some x → f x = key e) :
    ((es.filterMap left).map f).Sublist (es.map key) := by
  induction es with
  | nil => exact List.nil_sublist _
  | cons e es ih =>
    have hrest := ih fun e h => hleft e (List.mem_cons_of_mem _ h)
    cases hl : left e with
    | none =>
      rw [List.filterMap_cons_none hl]
      exact hrest.cons _
    | some x =>
      rw [List.filterMap_cons_some hl, List.map_cons, hleft e List.mem_cons_self x hl]
      exact hrest.cons_cons _

/-- The rows with the key of an entry are its own. -/
theorem filter_filterMap_right {es : List ε} (hkey : (es.map key).Nodup)
    (hright : ∀ e ∈ es, ∀ y, right e = some y → g y = key e) {e : ε} (he : e ∈ es) :
    (es.filterMap right).filter (fun y => g y = key e) = (right e).toList := by
  induction es with
  | nil => cases he
  | cons e' es ih =>
    rw [List.map_cons, List.nodup_cons] at hkey
    have hhead := hright e' List.mem_cons_self
    have htail : ∀ e ∈ es, ∀ y, right e = some y → g y = key e := fun e h =>
      hright e (List.mem_cons_of_mem _ h)
    rcases List.mem_cons.mp he with rfl | he
    · -- the other entries have other keys
      have hothers : (es.filterMap right).filter (fun y => g y = key e) = [] := by
        rw [List.filter_eq_nil_iff]
        intro y hy
        obtain ⟨e', he', hy⟩ := List.mem_filterMap.mp hy
        have hne : g y ≠ key e := by
          rw [htail e' he' y hy]
          intro heq
          exact hkey.1 (heq ▸ List.mem_map_of_mem he')
        simpa using hne
      cases hr : right e with
      | none => rw [List.filterMap_cons_none hr, hothers]; rfl
      | some y =>
        rw [List.filterMap_cons_some hr, List.filter_cons_of_pos (by simpa using hhead y hr),
          hothers]
        rfl
    · have hne : key e' ≠ key e := fun heq => hkey.1 (heq ▸ List.mem_map_of_mem he)
      rw [← ih hkey.2 htail he]
      cases hr : right e' with
      | none => rw [List.filterMap_cons_none hr]
      | some y =>
        rw [List.filterMap_cons_some hr, List.filter_cons_of_neg]
        simpa [hhead y hr] using hne

/-- **The join of the halves of entries with distinct keys** has one row for each entry with a
    left half, beside the right half of the same entry. -/
theorem leftJoin_filterMap {es : List ε} (hkey : (es.map key).Nodup)
    (hleft : ∀ e ∈ es, ∀ x, left e = some x → f x = key e)
    (hright : ∀ e ∈ es, ∀ y, right e = some y → g y = key e) :
    leftJoin f g (es.filterMap left) (es.filterMap right) =
      es.filterMap fun e => (left e).map (·, right e) := by
  -- the induction is on the entries of the left table only
  have hsub : ∀ ds : List ε, ds ⊆ es →
      leftJoin f g (ds.filterMap left) (es.filterMap right) =
        ds.filterMap fun e => (left e).map (·, right e) := by
    intro ds
    induction ds with
    | nil => exact fun _ => rfl
    | cons e ds ih =>
      intro hds
      rw [List.cons_subset] at hds
      have hrest := ih hds.2
      cases hl : left e with
      | none =>
        rw [List.filterMap_cons_none hl, List.filterMap_cons_none (by rw [hl]; rfl), hrest]
      | some x =>
        rw [List.filterMap_cons_some hl, List.filterMap_cons_some (by rw [hl]; rfl), ← hrest]
        unfold leftJoin
        rw [List.flatMap_cons, hleft e hds.1 x hl, filter_filterMap_right hkey hright hds.1,
          partners_toList]
        rfl
  exact hsub es (List.Subset.refl es)

end Entries

end Degenerate.Lib
