import Mathlib.Data.List.DropRight

/-!
# Delimited Text

Lists over any alphabet read as fields between separators, with padding around each
field.  A writer joins fields and puts an opening and a closing text around the whole;
a reader splits at the separator and trims each piece.  The reader gets the writer's
fields back when no field holds a separator, with the opening still on the first and
the closing still on the last (`splitOn_enclosed`).

## Main Results

- `trimBy_padded`: trimming removes the padding of a field and nothing else
- `splitOn_enclosed`: the pieces of an enclosed join
- `notMem_of_mem_splitOn`: no piece holds a separator
- `flatMap_eq_map_iff`: a coding with no empty code word spells a text letter by letter
  only if it spells each letter so
-/

namespace Degenerate.Lib

variable {α β : Type*}

/-! ## §1 Trimming -/

section Trimming

variable (p : α → Bool)

/-- Drop what satisfies `p` at both ends. -/
def trimBy (l : List α) : List α := (l.dropWhile p).rdropWhile p

/-- What is not padding survives trimming, and nothing is added. -/
theorem mem_trimBy_iff {l : List α} {x : α} (hx : p x = false) : x ∈ trimBy p l ↔ x ∈ l := by
  have hleft : x ∈ l.dropWhile p ↔ x ∈ l := by
    conv_rhs => rw [← List.takeWhile_append_dropWhile (p := p) (l := l), List.mem_append]
    have hno : x ∉ l.takeWhile p := fun h => by simp [List.mem_takeWhile_imp h] at hx
    simp [hno]
  have hright : x ∈ (l.dropWhile p).rdropWhile p ↔ x ∈ l.dropWhile p := by
    conv_rhs =>
      rw [← List.rdropWhile_append_rtakeWhile (p := p) (l := l.dropWhile p), List.mem_append]
    have hno : x ∉ (l.dropWhile p).rtakeWhile p := fun h => by
      simp [List.mem_rtakeWhile_imp h] at hx
    simp [hno]
  exact hright.trans hleft

/-- A field that starts and ends outside the padding is what trimming leaves of it. -/
theorem trimBy_padded {a b m : List α} {c d : α} (ha : ∀ x ∈ a, p x = true)
    (hb : ∀ x ∈ b, p x = true) (hc : p c = false) (hd : p d = false) :
    trimBy p (a ++ (c :: m ++ d :: b)) = c :: m ++ [d] := by
  have hb' : ∀ x ∈ b.reverse, p x = true := fun x hx => hb x (List.mem_reverse.mp hx)
  rw [trimBy, List.dropWhile_append_of_pos ha, List.cons_append, List.dropWhile_cons_of_neg
    (by simp [hc]), List.rdropWhile]
  simp [List.dropWhile_append_of_pos hb', List.dropWhile_cons_of_neg, hd]

end Trimming

/-! ## §2 Fields -/

section Fields

/-- Filtering a join filters the separator and the fields. -/
theorem filter_intercalate (q : α → Bool) (sep : List α) (ls : List (List α)) :
    (sep.intercalate ls).filter q = (sep.filter q).intercalate (ls.map (·.filter q)) := by
  induction ls with
  | nil => rfl
  | cons l ls ih =>
    cases ls with
    | nil => simp
    | cons l' ls =>
      rw [List.intercalate_cons_cons, List.filter_append, List.filter_append, ih]
      simp [List.intercalate_cons_cons]

/-- Put `op` before the first field and `cl` after the last. -/
def enclose (op cl : List α) : List (List α) → List (List α)
  | [] => []
  | [l] => [op ++ l ++ cl]
  | l :: l' :: ls => (op ++ l) :: enclose [] cl (l' :: ls)

theorem enclose_ne_nil {op cl : List α} {ls : List (List α)} (h : ls ≠ []) :
    enclose op cl ls ≠ [] := by
  match ls with
  | [_] => simp [enclose]
  | _ :: _ :: _ => simp [enclose]

/-- Joining enclosed fields encloses the join. -/
theorem intercalate_enclose (sep : List α) {cl : List α} {ls : List (List α)} (h : ls ≠ []) :
    ∀ op, sep.intercalate (enclose op cl ls) = op ++ sep.intercalate ls ++ cl := by
  induction ls with
  | nil => exact absurd rfl h
  | cons l ls ih =>
    intro op
    cases ls with
    | nil => simp [enclose]
    | cons l' ls =>
      have hne : l' :: ls ≠ [] := List.cons_ne_nil _ _
      rw [enclose, List.intercalate_cons_of_ne_nil (enclose_ne_nil hne), ih hne,
        List.intercalate_cons_cons]
      simp

/-- A field of an enclosed list is the field at that position, with the opening if it is
the first and the closing if it is the last. -/
theorem getElem?_enclose {cl : List α} {ls : List (List α)} :
    ∀ {op i}, (enclose op cl ls)[i]? = ls[i]?.map fun l =>
      (if i = 0 then op else []) ++ l ++ if i + 1 = ls.length then cl else [] := by
  induction ls with
  | nil => simp [enclose]
  | cons l ls ih =>
    intro op i
    cases ls with
    | nil => cases i <;> simp [enclose]
    | cons l' ls =>
      cases i with
      | zero => simp [enclose]
      | succ i => simp [enclose, ih]

/-- What stands in an enclosed field stands in the opening, in a field or in the closing. -/
theorem mem_of_mem_enclose {cl : List α} {ls : List (List α)} {x : α} :
    ∀ {op f}, f ∈ enclose op cl ls → x ∈ f → x ∈ op ∨ (∃ l ∈ ls, x ∈ l) ∨ x ∈ cl := by
  induction ls with
  | nil => simp [enclose]
  | cons l ls ih =>
    intro op f hf hx
    cases ls with
    -- the last piece carries both ends
    | nil =>
      obtain rfl : f = op ++ l ++ cl := by simpa [enclose] using hf
      simpa [or_assoc] using hx
    | cons l' ls =>
      -- the first piece carries the opening, the rest is enclosed without one
      rcases List.mem_cons.mp hf with rfl | hf
      · rcases List.mem_append.mp hx with hx | hx
        · exact .inl hx
        · exact .inr (.inl ⟨l, List.mem_cons_self, hx⟩)
      · obtain h | ⟨k, hk, hx⟩ | h := ih hf hx
        · exact absurd h List.not_mem_nil
        · exact .inr (.inl ⟨k, List.mem_cons_of_mem _ hk, hx⟩)
        · exact .inr (.inr h)

variable [DecidableEq α]

/-- **Reading an enclosed join.** The pieces are the fields, with the opening and the
closing still on the first and the last. -/
theorem splitOn_enclosed {x : α} {op cl : List α} {ls : List (List α)} (hne : ls ≠ [])
    (hop : x ∉ op) (hls : ∀ l ∈ ls, x ∉ l) (hcl : x ∉ cl) :
    (op ++ [x].intercalate ls ++ cl).splitOn x = enclose op cl ls := by
  rw [← intercalate_enclose [x] hne]
  apply List.splitOn_intercalate x _ (enclose_ne_nil hne)
  intro f hf hx
  obtain h | ⟨l, hl, h⟩ | h := mem_of_mem_enclose hf hx
  · exact hop h
  · exact hls l hl h
  · exact hcl h

/-- No piece holds a separator. -/
theorem notMem_of_mem_splitOn {x : α} {xs l : List α} (h : l ∈ xs.splitOn x) : x ∉ l := by
  induction xs generalizing l with
  | nil =>
    obtain rfl : l = [] := by simpa using h
    exact List.not_mem_nil
  | cons y ys ih =>
    rw [List.splitOn_cons_eq_if_modifyHead] at h
    split at h
    · rcases List.mem_cons.mp h with rfl | h
      · exact List.not_mem_nil
      · exact ih h
    · rename_i hy
      -- the first piece of the rest grows by `y`, which is no separator
      obtain ⟨p, ps, hps⟩ := List.exists_cons_of_ne_nil (List.splitOn_ne_nil x ys)
      rw [hps, List.modifyHead_cons] at h
      rcases List.mem_cons.mp h with rfl | h
      · intro hx
        rcases List.mem_cons.mp hx with rfl | hx
        · exact hy (by simp)
        · exact ih (hps ▸ List.mem_cons_self) hx
      · exact ih (hps ▸ List.mem_cons_of_mem _ h)

end Fields

/-! ## §3 Codings -/

section Codings

variable {f : α → List β} {g : α → β} {l : List α}

/-- Codes that are not empty lengthen a text. -/
theorem length_le_length_flatMap (hf : ∀ x ∈ l, f x ≠ []) : l.length ≤ (l.flatMap f).length := by
  induction l with
  | nil => simp
  | cons x l ih =>
    have hx := List.length_pos_iff.mpr (hf x List.mem_cons_self)
    have hl := ih fun y hy => hf y (List.mem_cons_of_mem _ hy)
    simp only [List.flatMap_cons, List.length_append, List.length_cons]
    omega

/-- **Letter by letter.** A text coded without empty codes reads as the letters `g` gives
if and only if each code is that one letter. -/
theorem flatMap_eq_map_iff (hf : ∀ x ∈ l, f x ≠ []) :
    l.flatMap f = l.map g ↔ ∀ x ∈ l, f x = [g x] := by
  induction l with
  | nil => simp
  | cons x l ih =>
    have hl : ∀ y ∈ l, f y ≠ [] := fun y hy => hf y (List.mem_cons_of_mem _ hy)
    obtain ⟨b, bs, hx⟩ := List.exists_cons_of_ne_nil (hf x List.mem_cons_self)
    rw [List.forall_mem_cons, ← ih hl, List.flatMap_cons, List.map_cons, hx, List.cons_append,
      List.cons.injEq, List.cons.injEq]
    constructor
    · rintro ⟨hb, h⟩
      -- the codes of the rest are as many letters as the rest has, so nothing is left of this one
      have hlen := congrArg List.length h
      have hle := length_le_length_flatMap hl
      simp only [List.length_append, List.length_map] at hlen
      have hbs : bs = [] := List.length_eq_zero_iff.mp (by omega)
      exact ⟨⟨hb, hbs⟩, by simpa [hbs] using h⟩
    · rintro ⟨⟨hb, hbs⟩, h⟩
      exact ⟨hb, by simpa [hbs] using h⟩

end Codings

end Degenerate.Lib
