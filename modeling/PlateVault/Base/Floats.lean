import Mathlib.Order.Defs.LinearOrder
import PlateVault.Base.Basic

/-!
# Floating point

The values and operations of `f64` come from outside the repository: a `Floats` gives them. A value
is its bits, and nothing is assumed of the arithmetic.
-/

namespace PlateVault

/-- What the model uses of `f64`. `totalOrder` is that of `total_cmp`; `le` and `gt` are `<=` and
`>`, which no NaN takes part in. -/
structure Floats where
  F64 : Type
  totalOrder : LinearOrder F64
  isNan : F64 → Bool
  isFinite : F64 → Bool
  isZero : F64 → Bool
  le : F64 → F64 → Bool
  gt : F64 → F64 → Bool
  literal : Int → F64
  add : F64 → F64 → F64
  sub : F64 → F64 → F64
  mul : F64 → F64 → F64
  div : F64 → F64 → F64
  mulAdd : F64 → F64 → F64 → F64
  remEuclid : F64 → F64 → F64
  min : F64 → F64 → F64
  max : F64 → F64 → F64
  /-- The nearest whole number. -/
  round : F64 → F64
  display : F64 → Text
  le_numbers : ∀ a b, le a b = true → isNan a = false ∧ isNan b = false
  le_or_gt : ∀ a b, isNan a = false → isNan b = false → le a b = true ∨ gt a b = true

namespace Floats

instance (F : Floats) : LinearOrder F.F64 := F.totalOrder

variable (F : Floats)

/-- IEEE `<`. -/
def lt (a b : F.F64) : Bool := F.gt b a

/-- IEEE `>=`. -/
def ge (a b : F.F64) : Bool := F.le b a

/-- Numbers in thousandths: a fixed-point arithmetic to run the model on. -/
abbrev thousandths : Floats where
  F64 := Int
  totalOrder := inferInstance
  isNan _ := false
  isFinite _ := true
  isZero a := a = 0
  le a b := a ≤ b
  gt a b := b < a
  literal n := 1000 * n
  add a b := a + b
  sub a b := a - b
  mul a b := a * b / 1000
  div a b := a * 1000 / b
  mulAdd a b c := a * b / 1000 + c
  remEuclid a b := a % b
  min a b := Min.min a b
  max a b := Max.max a b
  round a := (a + 500) / 1000 * 1000
  display a := (Int.repr a).toList
  le_numbers _ _ _ := ⟨rfl, rfl⟩
  le_or_gt a b _ _ := by
    rcases lt_or_ge b a with h | h
    · exact .inr (by simpa using h)
    · exact .inl (by simpa using h)

end Floats

end PlateVault
