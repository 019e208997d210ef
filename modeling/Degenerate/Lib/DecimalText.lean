import Degenerate.Lib.Decimal
import Mathlib.Data.List.TakeWhile

/-!
# Decimal Numbers as Text

Printing and parsing of decimals.  The printer writes all decimal places, so the
text determines the representation and not only the value: parsing is a left
inverse of printing (`Decimal.fromStr_display`), and printing is injective.

The parser accepts an optional sign and decimal digits with at most one point.
Digit separators and exponents are left out: `rust_decimal` accepts underscores after
a digit (`1_000.5`), this parser refuses them.
-/

namespace Degenerate.Lib

namespace Decimal

/-! ## §1 Printing -/

/-- The digits of the absolute value, padded so that one stands before the places. -/
def digits (d : Decimal) : List Char :=
  let ds := Nat.toDigits 10 d.mantissa.natAbs
  List.replicate (d.scale + 1 - ds.length) '0' ++ ds

/-- The integer part of the text. -/
def intDigits (d : Decimal) : List Char := d.digits.take (d.digits.length - d.scale)

/-- The places of the text. -/
def fracDigits (d : Decimal) : List Char := d.digits.drop (d.digits.length - d.scale)

/-- The unsigned text. -/
def body (d : Decimal) : List Char :=
  d.intDigits ++ if d.scale = 0 then [] else '.' :: d.fracDigits

/-- The text of a decimal, as its characters. -/
def displayChars (d : Decimal) : List Char :=
  if d.mantissa < 0 then '-' :: d.body else d.body

/-- The text of a decimal. -/
def display (d : Decimal) : String := String.ofList d.displayChars

/-! ## §2 Parsing -/

/-- Unsigned digits with at most one point: the mantissa and the number of places. -/
def parseBody (cs : List Char) : Option (ℕ × ℕ) :=
  let int := cs.takeWhile (· != '.')
  let frac := (cs.dropWhile (· != '.')).tail
  if (int ++ frac).all Char.isDigit && !(int ++ frac).isEmpty then
    some (Nat.ofDigitChars 10 (int ++ frac) 0, frac.length)
  else none

/-- A leading sign (`true` for minus) and the rest. -/
def splitSign : List Char → Bool × List Char
  | '-' :: cs => (true, cs)
  | '+' :: cs => (false, cs)
  | cs => (false, cs)

/-- The decimal with the given sign and parsed body. -/
def ofParts (neg : Bool) (p : ℕ × ℕ) : Decimal :=
  ⟨if neg then -(p.1 : ℤ) else p.1, p.2⟩

/-- Parse a decimal from its characters. -/
def fromChars (cs : List Char) : Option Decimal :=
  (parseBody (splitSign cs).2).map (ofParts (splitSign cs).1)

/-- Parse a decimal.  The underscores that `rust_decimal` accepts between digits are left out:
    a text that has one is refused here. -/
def fromStr (s : String) : Option Decimal := fromChars s.toList

/-! ## §3 Round trip -/

theorem isDigit_of_mem_digits {d : Decimal} {c : Char} (h : c ∈ d.digits) : c.isDigit := by
  rcases List.mem_append.mp h with h | h
  · rw [List.eq_of_mem_replicate h]
    decide
  · exact Nat.isDigit_of_mem_toDigits (by decide) (by decide) h

theorem ofDigitChars_digits (d : Decimal) :
    Nat.ofDigitChars 10 d.digits 0 = d.mantissa.natAbs := by
  simp [digits, Nat.ofDigitChars_append]

theorem scale_lt_length_digits (d : Decimal) : d.scale < d.digits.length := by
  simp only [digits, List.length_append, List.length_replicate]
  omega

theorem intDigits_append_fracDigits (d : Decimal) :
    d.intDigits ++ d.fracDigits = d.digits :=
  List.take_append_drop _ _

theorem length_fracDigits (d : Decimal) : d.fracDigits.length = d.scale := by
  have := d.scale_lt_length_digits
  simp only [fracDigits, List.length_drop]
  omega

theorem isDigit_of_mem_intDigits {d : Decimal} {c : Char} (h : c ∈ d.intDigits) : c.isDigit :=
  isDigit_of_mem_digits (List.mem_of_mem_take h)

theorem isDigit_of_mem_fracDigits {d : Decimal} {c : Char} (h : c ∈ d.fracDigits) : c.isDigit :=
  isDigit_of_mem_digits (List.mem_of_mem_drop h)

theorem digit_ne_point {c : Char} (h : c.isDigit) : (c != '.') = true := by
  rw [bne_iff_ne]
  rintro rfl
  exact absurd h (by decide)

/-- Cutting the text at its point gives back the two groups of digits. -/
theorem takeWhile_body (d : Decimal) :
    d.body.takeWhile (· != '.') = d.intDigits ∧
      (d.body.dropWhile (· != '.')).tail = d.fracDigits := by
  have hint : ∀ c ∈ d.intDigits, (c != '.') = true :=
    fun c hc => digit_ne_point (isDigit_of_mem_intDigits hc)
  by_cases hs : d.scale = 0
  · have hfrac : d.fracDigits = [] := List.eq_nil_of_length_eq_zero (by rw [length_fracDigits, hs])
    simp only [body, hs, if_true, List.append_nil, hfrac]
    exact ⟨List.takeWhile_eq_self_iff.mpr hint, by rw [List.dropWhile_eq_nil_iff.mpr hint]; rfl⟩
  · simp only [body, hs, if_false]
    rw [List.takeWhile_append_of_pos hint, List.dropWhile_append_of_pos hint]
    simp

theorem parseBody_body (d : Decimal) :
    parseBody d.body = some (d.mantissa.natAbs, d.scale) := by
  obtain ⟨hint, hfrac⟩ := d.takeWhile_body
  have hall : d.digits.all Char.isDigit = true :=
    List.all_eq_true.mpr fun c hc => isDigit_of_mem_digits hc
  have hne : d.digits.isEmpty = false := by
    rw [List.isEmpty_eq_false_iff, ← List.length_pos_iff]
    exact Nat.lt_of_le_of_lt (Nat.zero_le _) d.scale_lt_length_digits
  simp only [parseBody, hint, hfrac, intDigits_append_fracDigits, hall, hne, Bool.not_false,
    Bool.and_self, if_true, ofDigitChars_digits, length_fracDigits]

/-- The unsigned text starts with a digit. -/
theorem body_eq_cons (d : Decimal) : ∃ c cs, d.body = c :: cs ∧ c.isDigit := by
  have hlen : 0 < d.intDigits.length := by
    have := d.scale_lt_length_digits
    simp only [intDigits, List.length_take]
    omega
  obtain ⟨c, cs, hcs⟩ := List.exists_cons_of_length_pos hlen
  refine ⟨c, _, by rw [body, hcs, List.cons_append], isDigit_of_mem_intDigits (d := d) ?_⟩
  rw [hcs]
  exact List.mem_cons_self ..

theorem splitSign_of_isDigit {c : Char} (cs : List Char) (h : c.isDigit) :
    splitSign (c :: cs) = (false, c :: cs) := by
  unfold splitSign
  split
  · rename_i heq
    rw [(List.cons.inj heq).1] at h
    exact absurd h (by decide)
  · rename_i heq
    rw [(List.cons.inj heq).1] at h
    exact absurd h (by decide)
  · rfl

theorem splitSign_displayChars (d : Decimal) :
    splitSign d.displayChars = (decide (d.mantissa < 0), d.body) := by
  by_cases hm : d.mantissa < 0
  · simp [displayChars, hm, splitSign]
  · -- a digit in front is not taken for a sign
    obtain ⟨c, cs, hbody, hdig⟩ := d.body_eq_cons
    simp [displayChars, hm, hbody, splitSign_of_isDigit cs hdig]

theorem ofParts_natAbs (d : Decimal) :
    ofParts (decide (d.mantissa < 0)) (d.mantissa.natAbs, d.scale) = d := by
  obtain ⟨m, s⟩ := d
  simp only [ofParts, decide_eq_true_eq, mk.injEq, and_true]
  split <;> omega

/-- **Round trip**: parsing the text of a decimal gives the decimal back. -/
@[simp] theorem fromStr_display (d : Decimal) : fromStr d.display = some d := by
  simp only [fromStr, display, String.toList_ofList, fromChars, splitSign_displayChars,
    parseBody_body, Option.map_some, ofParts_natAbs]

/-- Distinct representations have distinct texts. -/
theorem display_injective : Function.Injective display := by
  intro a b h
  have : fromStr a.display = fromStr b.display := by rw [h]
  simpa using this

example : display ⟨-5, 2⟩ = "-0.05" := by decide
example : fromStr "+12.50" = some ⟨1250, 2⟩ := by decide

/-- The characters of a text are digits, the point and the minus sign. -/
theorem mem_displayChars {d : Decimal} {c : Char} (h : c ∈ d.displayChars) :
    c.isDigit ∨ c = '.' ∨ c = '-' := by
  have hbody : ∀ c ∈ d.body, c.isDigit ∨ c = '.' ∨ c = '-' := by
    intro c hc
    rcases List.mem_append.mp hc with hc | hc
    · exact .inl (isDigit_of_mem_intDigits hc)
    · split at hc
      · simp at hc
      · rcases List.mem_cons.mp hc with hc | hc
        · exact .inr (.inl hc)
        · exact .inl (isDigit_of_mem_fracDigits hc)
  unfold displayChars at h
  split at h
  · rcases List.mem_cons.mp h with h | h
    · exact .inr (.inr h)
    · exact hbody c h
  · exact hbody c h

/-- No text of a decimal contains the separator `:`. -/
theorem colon_notMem_display (d : Decimal) : ':' ∉ d.display.toList := by
  intro h
  rw [display, String.toList_ofList] at h
  rcases mem_displayChars h with h | h | h
  · exact absurd h (by decide)
  · exact absurd h (by decide)
  · exact absurd h (by decide)

end Decimal

/-! ## §4 Separated fields -/

/-- No text of a natural number contains the separator `:`. -/
theorem colon_notMem_toString (n : ℕ) : ':' ∉ (toString n).toList := by
  intro h
  rw [Nat.toString_eq_repr, Nat.toList_repr] at h
  exact absurd (Nat.isDigit_of_mem_toDigits (by decide) (by decide) h) (by decide)

/-- Distinct numbers have distinct texts. -/
theorem toString_nat_injective : Function.Injective (toString : ℕ → String) := by
  intro a b h
  have hdigits : Nat.toDigits 10 a = Nat.toDigits 10 b := by
    simpa [Nat.toString_eq_repr, Nat.toList_repr] using congrArg String.toList h
  have hvalue : Nat.ofDigitChars 10 (Nat.toDigits 10 a) 0 =
      Nat.ofDigitChars 10 (Nat.toDigits 10 b) 0 := by rw [hdigits]
  simpa using hvalue

/-- The last field of a text is found by its separator when it does not contain it. -/
theorem append_colon_inj {a b a' b' : String} (hb : ':' ∉ b.toList) (hb' : ':' ∉ b'.toList) :
    a ++ ":" ++ b = a' ++ ":" ++ b' ↔ a = a' ∧ b = b' := by
  constructor
  · intro h
    have hl : a.toList ++ ':' :: b.toList = a'.toList ++ ':' :: b'.toList := by
      simpa [String.toList_append] using congrArg String.toList h
    -- one first field extends the other; a proper extension would put the separator in a
    -- last field
    rw [List.append_eq_append_iff] at hl
    rcases hl with ⟨c, ha, hc⟩ | ⟨c, ha, hc⟩
    · cases c with
      | nil =>
        simp only [List.append_nil, List.nil_append, List.cons.injEq, true_and] at ha hc
        exact ⟨String.toList_inj.mp ha.symm, String.toList_inj.mp hc⟩
      | cons x c =>
        rw [List.cons_append, List.cons.injEq] at hc
        exact absurd (hc.2 ▸ List.mem_append_right c (List.mem_cons_self ..)) hb
    · cases c with
      | nil =>
        simp only [List.append_nil, List.nil_append, List.cons.injEq, true_and] at ha hc
        exact ⟨String.toList_inj.mp ha, String.toList_inj.mp hc.symm⟩
      | cons x c =>
        rw [List.cons_append, List.cons.injEq] at hc
        exact absurd (hc.2 ▸ List.mem_append_right c (List.mem_cons_self ..)) hb'
  · rintro ⟨rfl, rfl⟩
    rfl

end Degenerate.Lib
