import Mathlib.Data.List.Basic

/-!
# JSON Arrays of Strings

The texts of a JSON array whose elements are strings, with everything the grammar leaves
to the writer: blanks around tokens, and for each character whether it stands for itself,
behind a backslash, or as one or two `\u` units.

A value of `JsonStrings` is such a text together with its reading; a character that may
not stand unescaped, or an escape that names no character, cannot be built.
-/

namespace Degenerate.Lib

/-! ## §1 Characters -/

/-- The value of a hexadecimal digit. -/
def hexDigit (c : Char) : Option ℕ :=
  if '0' ≤ c ∧ c ≤ '9' then some (c.toNat - 48)
  else if 'a' ≤ c ∧ c ≤ 'f' then some (c.toNat - 87)
  else if 'A' ≤ c ∧ c ≤ 'F' then some (c.toNat - 55)
  else none

/-- The value of the four digits of a `\u` unit. -/
def hexUnit : List Char → Option ℕ
  | [a, b, c, d] =>
    match hexDigit a, hexDigit b, hexDigit c, hexDigit d with
    | some a, some b, some c, some d => some (4096 * a + 256 * b + 16 * c + d)
    | _, _, _, _ => none
  | _ => none

/-- The character behind a backslash and a letter. -/
def shortEscape : Char → Option Char
  | '"' => some '"'
  | '\\' => some '\\'
  | '/' => some '/'
  | 'b' => some '\x08'
  | 'f' => some '\x0c'
  | 'n' => some '\n'
  | 'r' => some '\x0d'
  | 't' => some '\t'
  | _ => none

/-- `c` is the character of the surrogates `u` and `v`. -/
def IsSurrogatePair (u v : ℕ) (c : Char) : Prop :=
  0xD800 ≤ u ∧ u < 0xDC00 ∧ 0xDC00 ≤ v ∧ v < 0xE000 ∧
    c.toNat = 0x10000 + (u - 0xD800) * 0x400 + (v - 0xDC00)

/-- A character that may stand for itself. -/
def isPlain (c : Char) : Bool := 0x20 ≤ c.toNat && c != '"' && c != '\\'

/-- A character of a string with its spelling. -/
inductive Spelled where
  | plain (c : Char) (legal : isPlain c = true)
  | short (e c : Char) (legal : shortEscape e = some c)
  | unit (ds : List Char) (c : Char) (legal : hexUnit ds = some c.toNat)
  | pair (hi lo : List Char) (u v : ℕ) (c : Char) (hiLegal : hexUnit hi = some u)
      (loLegal : hexUnit lo = some v) (legal : IsSurrogatePair u v c)

/-- The character. -/
def Spelled.value : Spelled → Char
  | .plain c _ => c
  | .short _ c _ => c
  | .unit _ c _ => c
  | .pair _ _ _ _ c _ _ _ => c

/-- The spelling. -/
def Spelled.text : Spelled → List Char
  | .plain c _ => [c]
  | .short e _ _ => ['\\', e]
  | .unit ds _ _ => '\\' :: 'u' :: ds
  | .pair hi lo _ _ _ _ _ _ => '\\' :: 'u' :: hi ++ '\\' :: 'u' :: lo

/-! ## §2 Strings and arrays -/

/-- A blank between tokens. -/
def IsJsonBlank (c : Char) : Prop := c = ' ' ∨ c = '\t' ∨ c = '\n' ∨ c = '\x0d'

theorem isJsonBlank_of_mem_nil : ∀ c ∈ ([] : List Char), IsJsonBlank c :=
  fun _ h => absurd h List.not_mem_nil

/-- A string of an array, with the blanks around it. -/
structure JsonString where
  before : List Char := []
  chars : List Spelled
  after : List Char := []
  before_blank : ∀ c ∈ before, IsJsonBlank c := by exact isJsonBlank_of_mem_nil
  after_blank : ∀ c ∈ after, IsJsonBlank c := by exact isJsonBlank_of_mem_nil

/-- A string without escapes. -/
def JsonString.plain (cs : List Char) (legal : cs.all isPlain = true) : JsonString where
  chars := cs.attach.map fun c => .plain c.1 (List.all_eq_true.mp legal c.1 c.2)

/-- The name that a string spells. -/
def JsonString.value (s : JsonString) : List Char := s.chars.map Spelled.value

/-- The text of a string. -/
def JsonString.text (s : JsonString) : List Char :=
  s.before ++ ('"' :: s.chars.flatMap Spelled.text ++ '"' :: s.after)

/-- An array of strings, with the blanks around it and, if it is empty, inside it. -/
structure JsonStrings where
  before : List Char := []
  gap : List Char := []
  items : List JsonString
  after : List Char := []
  before_blank : ∀ c ∈ before, IsJsonBlank c := by exact isJsonBlank_of_mem_nil
  gap_blank : ∀ c ∈ gap, IsJsonBlank c := by exact isJsonBlank_of_mem_nil
  after_blank : ∀ c ∈ after, IsJsonBlank c := by exact isJsonBlank_of_mem_nil

/-- The text of an array. -/
def JsonStrings.text (a : JsonStrings) : List Char :=
  a.before ++ '[' :: (if a.items = [] then a.gap else [','].intercalate (a.items.map (·.text))) ++
    ']' :: a.after

/-! ## §3 What escapes are made of -/

/-- A backslash may not stand for itself. -/
theorem ne_backslash_of_isPlain {c : Char} (h : isPlain c = true) : c ≠ '\\' := by
  rintro rfl
  exact absurd h (by decide)

/-- The letters that stand for themselves behind a backslash. -/
theorem shortEscape_self_iff {e : Char} :
    shortEscape e = some e ↔ e = '"' ∨ e = '\\' ∨ e = '/' := by
  constructor
  · intro h
    unfold shortEscape at h
    split at h
    · exact .inl rfl
    · exact .inr (.inl rfl)
    · exact .inr (.inr rfl)
    all_goals exact absurd h (by simp)
  · rintro (rfl | rfl | rfl) <;> rfl

/-- The digits of a unit are hexadecimal. -/
theorem isSome_hexDigit_of_hexUnit {ds : List Char} {n : ℕ} (h : hexUnit ds = some n) :
    ∀ c ∈ ds, (hexDigit c).isSome := by
  unfold hexUnit at h
  split at h
  · split at h
    · rename_i ha hb hc hd
      simp [ha, hb, hc, hd]
    · cases h
  · cases h

/-- A unit has four digits. -/
theorem length_of_hexUnit {ds : List Char} {n : ℕ} (h : hexUnit ds = some n) :
    ds.length = 4 := by
  unfold hexUnit at h
  split at h
  · rfl
  · cases h

end Degenerate.Lib
