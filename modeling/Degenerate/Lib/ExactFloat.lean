import Degenerate.Lib.DecimalText
import Mathlib.Data.List.TakeWhile

/-!
# Floating-Point Numbers without Rounding

`ExactFloat` has the special values of IEEE arithmetic (infinities, not-a-number)
and, for finite values, exact decimals: a program's prices are compared and added
as the numbers they spell, and rounding to binary digits is not modelled.

## Main Definitions

- `ExactFloat.add`, `ExactFloat.sub`, `ExactFloat.lt`: arithmetic and comparison
- `ExactFloat.parse`: the text grammar (`inf`, `infinity`, `nan`, decimals with an
  optional exponent)
- `ExactFloat.toDecimal`: conversion to a decimal, refused for the special values
-/

namespace Degenerate.Lib

/-- A floating-point number with exact finite values. -/
inductive ExactFloat where
  | fin (d : Decimal)
  | posInf
  | negInf
  | nan
  deriving DecidableEq, Repr

namespace ExactFloat

/-- The positive zero. -/
def zero : ExactFloat := .fin (.ofInt 0)

/-- One. -/
def one : ExactFloat := .fin (.ofInt 1)

/-- Change of sign. -/
protected def neg : ExactFloat → ExactFloat
  | .fin d => .fin ⟨-d.mantissa, d.scale⟩
  | .posInf => .negInf
  | .negInf => .posInf
  | .nan => .nan

/-- Addition; opposite infinities have no sum. -/
protected def add : ExactFloat → ExactFloat → ExactFloat
  | .fin a, .fin b => .fin (a + b)
  | .nan, _ => .nan
  | _, .nan => .nan
  | .posInf, .negInf => .nan
  | .negInf, .posInf => .nan
  | .posInf, _ => .posInf
  | _, .posInf => .posInf
  | .negInf, _ => .negInf
  | _, .negInf => .negInf

/-- Subtraction. -/
protected def sub : ExactFloat → ExactFloat → ExactFloat
  | .fin a, .fin b => .fin (a - b)
  | a, b => a.add b.neg

/-- The order; not-a-number is not below or above anything. -/
def lt : ExactFloat → ExactFloat → Bool
  | .fin a, .fin b => a.toRat < b.toRat
  | .negInf, .fin _ => true
  | .negInf, .posInf => true
  | .fin _, .posInf => true
  | _, _ => false

/-- The order with equality; not-a-number is not at most anything. -/
def le (a b : ExactFloat) : Bool := a != .nan && b != .nan && !b.lt a

instance : Add ExactFloat := ⟨ExactFloat.add⟩
instance : Sub ExactFloat := ⟨ExactFloat.sub⟩

/-- Conversion to a decimal without superfluous places. -/
def toDecimal : ExactFloat → Option Decimal
  | .fin d => some d.normalize
  | _ => none

/-! ## Text -/

/-- Multiply by a power of ten. -/
def shift (d : Decimal) : ℤ → Decimal
  | .ofNat n => if n ≤ d.scale then ⟨d.mantissa, d.scale - n⟩
      else ⟨d.mantissa * 10 ^ (n - d.scale), 0⟩
  | .negSucc n => ⟨d.mantissa, d.scale + n + 1⟩

/-- The exponent after the letter `e`: an optional sign and digits. -/
def parseExponent (cs : List Char) : Option ℤ :=
  let (neg, ds) := Decimal.splitSign cs
  if ds.all Char.isDigit && !ds.isEmpty then
    let n : ℤ := Nat.ofDigitChars 10 ds 0
    some (if neg then -n else n)
  else none

/-- Parse a number from its characters. -/
def parseChars (cs : List Char) : Option ExactFloat :=
  let (neg, body) := Decimal.splitSign cs
  let word := String.ofList (body.map Char.toLower)
  if word = "inf" ∨ word = "infinity" then some (if neg then .negInf else .posInf)
  else if word = "nan" then some .nan
  else
    let isE := fun c => c == 'e' || c == 'E'
    let mant := (Decimal.parseBody (body.takeWhile (!isE ·))).map (Decimal.ofParts neg)
    match body.dropWhile (!isE ·) with
    | [] => mant.map .fin
    | _ :: ex => mant.bind fun d => (parseExponent ex).map fun e => .fin (shift d e)

/-- Parse a number. -/
def parse (s : String) : Option ExactFloat := parseChars s.toList

@[simp] theorem fin_add_fin (a b : Decimal) :
    (ExactFloat.fin a + ExactFloat.fin b) = .fin (a + b) := rfl

@[simp] theorem fin_sub_fin (a b : Decimal) :
    (ExactFloat.fin a - ExactFloat.fin b) = .fin (a - b) := rfl

/-! ## Decimal texts -/

/-- An unsigned decimal consists of digits and a point. -/
theorem isDigit_or_point_of_parseBody {cs : List Char} {p : ℕ × ℕ}
    (h : Decimal.parseBody cs = some p) : ∀ c ∈ cs, c.isDigit ∨ c = '.' := by
  simp only [Decimal.parseBody] at h
  split at h
  · rename_i hall
    rw [Bool.and_eq_true, List.all_eq_true] at hall
    intro c hc
    rw [← List.takeWhile_append_dropWhile (p := (· != '.')) (l := cs), List.mem_append] at hc
    rcases hc with hc | hc
    · exact .inl (hall.1 c (List.mem_append_left _ hc))
    · -- behind the digits, the point comes first
      cases hrest : cs.dropWhile (· != '.') with
      | nil =>
        rw [hrest] at hc
        cases hc
      | cons x rest =>
        rw [hrest] at hc
        rcases List.mem_cons.mp hc with rfl | hc
        · have hx := List.head_dropWhile_not (· != '.') (by rw [hrest]; exact List.cons_ne_nil _ _)
          simp only [hrest, List.head_cons] at hx
          exact .inr (by simpa using hx)
        · exact .inl (hall.1 c (List.mem_append_right _ (by rw [hrest]; exact hc)))
  · cases h

/-- Digits and points are no letters. -/
theorem toLower_of_digit_or_point {c : Char} (h : c.isDigit ∨ c = '.') : c.toLower = c := by
  unfold Char.toLower
  apply dif_neg
  rintro ⟨hlow, -⟩
  rcases h with h | rfl
  · simp only [Char.isDigit, Bool.and_eq_true, decide_eq_true_eq] at h
    exact absurd (UInt32.le_trans hlow h.2) (by decide)
  · exact absurd hlow (by decide)

/-- Digits and points spell no word and hold no exponent. -/
theorem parseChars_of_digits {cs : List Char}
    (h : ∀ c ∈ (Decimal.splitSign cs).2, c.isDigit ∨ c = '.') :
    parseChars cs = (Decimal.fromChars cs).map .fin := by
  have hlower : (Decimal.splitSign cs).2.map Char.toLower = (Decimal.splitSign cs).2 := by
    conv_rhs => rw [← List.map_id (Decimal.splitSign cs).2]
    exact List.map_congr_left fun c hc => toLower_of_digit_or_point (h c hc)
  -- no word of letters is read
  have hword : ∀ w : String, (∃ c ∈ w.toList, ¬ (c.isDigit ∨ c = '.')) →
      String.ofList ((Decimal.splitSign cs).2.map Char.toLower) ≠ w := by
    rintro w ⟨c, hc, hnot⟩ rfl
    rw [hlower, String.toList_ofList] at hc
    exact hnot (h c hc)
  -- and no exponent
  have hmantissa : ∀ c ∈ (Decimal.splitSign cs).2, (!(c == 'e' || c == 'E')) = true := by
    intro c hc
    rcases h c hc with hd | rfl
    · by_contra he
      simp only [Bool.not_eq_true, Bool.not_eq_false', Bool.or_eq_true, beq_iff_eq] at he
      rcases he with rfl | rfl <;> exact absurd hd (by decide)
    · decide
  have hinf := hword "inf" ⟨'i', by decide, by decide⟩
  have hinfinity := hword "infinity" ⟨'i', by decide, by decide⟩
  have hnan := hword "nan" ⟨'n', by decide, by decide⟩
  simp only [parseChars, hinf, hinfinity, hnan, or_self, if_false,
    List.takeWhile_eq_self_iff.mpr hmantissa, List.dropWhile_eq_nil_iff.mpr hmantissa]
  rfl

/-- **A decimal text is a float text** of the same number. -/
theorem parse_of_fromStr {s : String} {d : Decimal} (h : Decimal.fromStr s = some d) :
    parse s = some (.fin d) := by
  obtain ⟨p, hp, -⟩ := Option.map_eq_some_iff.mp h
  show parseChars s.toList = some (.fin d)
  rw [parseChars_of_digits (isDigit_or_point_of_parseBody hp)]
  exact Option.map_eq_some_iff.mpr ⟨d, h, rfl⟩

example : parse "-1.5e2" = some (.fin ⟨-150, 0⟩) := by decide
example : parse "1.2.3" = none := by decide

end ExactFloat

end Degenerate.Lib
