import Degenerate.Lib.ExactFloat

/-!
# Floating-Point Arithmetic

The operations that a program asks of its floating-point numbers, so that one model of
the program can be read with exact numbers and with the numbers of the machine.

## Main Definitions

- `FloatOps`: reading a text, literals, sum, difference, order, conversion to a decimal
- the exact numbers of `Lib.ExactFloat`, which are meant when nothing else is said
- `Binary32`: IEEE single precision, where each operation rounds
- `Binary32.Same`: equal as numbers
-/

namespace Degenerate.Lib

/-- The operations on a type of floating-point numbers. -/
class FloatOps (F : Type) extends Add F, Sub F where
  /-- A text is read as the number nearest to what it spells. -/
  parse : String → Option F
  zero : F
  one : F
  /-- The literal of a decimal. -/
  ofDecimal : Decimal → F
  lt : F → F → Bool
  toDecimal : F → Option Decimal

/-! ## §1 Exact numbers -/

@[default_instance]
instance : FloatOps ExactFloat where
  parse := ExactFloat.parse
  zero := .zero
  one := .one
  ofDecimal := .fin
  lt := ExactFloat.lt
  toDecimal := ExactFloat.toDecimal

section Exact

@[simp] theorem FloatOps.parse_exact (s : String) :
    (FloatOps.parse s : Option ExactFloat) = ExactFloat.parse s := rfl

@[simp] theorem FloatOps.zero_exact : (FloatOps.zero : ExactFloat) = .zero := rfl

@[simp] theorem FloatOps.one_exact : (FloatOps.one : ExactFloat) = .one := rfl

@[simp] theorem FloatOps.ofDecimal_exact (d : Decimal) :
    (FloatOps.ofDecimal d : ExactFloat) = .fin d := rfl

@[simp] theorem FloatOps.lt_exact (a b : ExactFloat) : FloatOps.lt a b = a.lt b := rfl

@[simp] theorem FloatOps.toDecimal_exact (a : ExactFloat) :
    FloatOps.toDecimal a = a.toDecimal := rfl

end Exact

/-! ## §2 Single precision -/

/-- The single-precision number nearest to a decimal.  A zero gets no sign, which no sum,
    difference or comparison shows. -/
def roundDecimal (d : Decimal) : Float32 :=
  let x := Float32.ofScientific d.mantissa.natAbs true d.scale
  if d.mantissa < 0 then -x else x

/-- The single-precision number nearest to an exact one. -/
def ExactFloat.round : ExactFloat → Float32
  | .fin d => roundDecimal d
  | .posInf => 1 / 0
  | .negInf => -1 / 0
  | .nan => 0 / 0

/-- A single-precision number.  How it is converted to a decimal is left to a library. -/
structure Binary32 (fromF32 : Float32 → Option Decimal) where
  val : Float32
  deriving DecidableEq

namespace Binary32

variable {fromF32 : Float32 → Option Decimal}

instance : FloatOps (Binary32 fromF32) where
  add a b := ⟨a.val + b.val⟩
  sub a b := ⟨a.val - b.val⟩
  parse s := (ExactFloat.parse s).map fun x => ⟨x.round⟩
  zero := ⟨0⟩
  one := ⟨1⟩
  ofDecimal d := ⟨roundDecimal d⟩
  lt a b := a.val < b.val
  toDecimal a := fromF32 a.val

/-- Equal as numbers: the two zeros are equal, and not-a-number is the same as itself. -/
def Same (a b : Binary32 fromF32) : Prop := a = b ∨ (a.val == b.val) = true

instance (a b : Binary32 fromF32) : Decidable (a.Same b) :=
  inferInstanceAs (Decidable (_ ∨ _))

theorem Same.refl (a : Binary32 fromF32) : a.Same a := .inl rfl

end Binary32

/-- Texts with other digits can spell one number, and a difference of two texts need not be
    the number that its exact value spells. -/
example : roundDecimal ⟨40, 2⟩ = roundDecimal ⟨4, 1⟩ ∧
    ((roundDecimal ⟨1, 0⟩ - roundDecimal ⟨6, 1⟩) == roundDecimal ⟨4, 1⟩) = false := by
  decide +kernel

end Degenerate.Lib
