import Mathlib.Data.Rat.Defs
import Mathlib.Algebra.Order.Field.Rat
import Mathlib.Tactic.Linarith

/-!
# Numbers with infinities

The numbers of a language whose readings include infinities and `nan`, under exact arithmetic: a
finite number is a rational, and only the special values follow the floating-point rules.

- `mul_zero_of_not_isFinite`, `add_nan`, `nan_add`: a special value that is charged nothing still
  spoils a sum.
-/

set_option autoImplicit false

namespace AiStudio.Data

/-- A number; an infinity carries whether it is the negative one. -/
inductive Number where
  | finite (q : ℚ)
  | inf (negative : Bool)
  | nan
  deriving DecidableEq

namespace Number

def isFinite : Number → Bool
  | finite _ => true
  | inf _ => false
  | nan => false

/-- The sum; opposite infinities have none. -/
def add : Number → Number → Number
  | finite a, finite b => finite (a + b)
  | finite _, inf n => inf n
  | inf n, finite _ => inf n
  | inf m, inf n => if m = n then inf m else nan
  | nan, _ => nan
  | _, nan => nan

/-- The product; zero times an infinity has none. -/
def mul : Number → Number → Number
  | finite a, finite b => finite (a * b)
  | finite a, inf n => if a = 0 then nan else inf (xor (decide (a < 0)) n)
  | inf n, finite a => if a = 0 then nan else inf (xor (decide (a < 0)) n)
  | inf m, inf n => inf (xor m n)
  | nan, _ => nan
  | _, nan => nan

/-- The quotient by a positive whole number. -/
def div : Number → Nat → Number
  | finite a, d => finite (a / d)
  | inf n, _ => inf n
  | nan, _ => nan

/-- `a < b`; never when either is `nan`. -/
def lt : Number → Number → Bool
  | finite a, finite b => decide (a < b)
  | finite _, inf n => !n
  | inf n, finite _ => n
  | inf m, inf n => m && !n
  | nan, _ => false
  | _, nan => false

/-- `a <= b`; never when either is `nan`. -/
def le : Number → Number → Bool
  | finite a, finite b => decide (a ≤ b)
  | finite _, inf n => !n
  | inf n, finite _ => n
  | inf m, inf n => m || !n
  | nan, _ => false
  | _, nan => false

section Lemmas

variable {a b : ℚ} {x : Number}

@[simp] theorem finite_add_finite : (finite a).add (finite b) = finite (a + b) := rfl

@[simp] theorem finite_mul_finite : (finite a).mul (finite b) = finite (a * b) := rfl

@[simp] theorem finite_div (d : Nat) : (finite a).div d = finite (a / d) := rfl

@[simp] theorem nan_div (d : Nat) : nan.div d = nan := rfl

@[simp] theorem finite_lt_finite : (finite a).lt (finite b) = decide (a < b) := rfl

@[simp] theorem finite_le_finite : (finite a).le (finite b) = decide (a ≤ b) := rfl

@[simp] theorem nan_add (x : Number) : nan.add x = nan := by
  cases x <;> rfl

@[simp] theorem add_nan (x : Number) : x.add nan = nan := by
  cases x <;> rfl

@[simp] theorem nan_mul (x : Number) : nan.mul x = nan := by
  cases x <;> rfl

@[simp] theorem nan_le (x : Number) : nan.le x = false := by
  cases x <;> rfl

@[simp] theorem le_nan (x : Number) : x.le nan = false := by
  cases x <;> rfl

theorem exists_finite (h : x.isFinite = true) : ∃ q, x = finite q := by
  cases x with
  | finite q => exact ⟨q, rfl⟩
  | inf n => exact absurd h Bool.false_ne_true
  | nan => exact absurd h Bool.false_ne_true

/-- Nothing, at a price that is not finite. -/
theorem zero_mul_of_not_isFinite (h : x.isFinite = false) : (finite 0).mul x = nan := by
  cases x with
  | finite q => exact absurd h.symm Bool.false_ne_true
  | inf n => simp [mul]
  | nan => rfl

end Lemmas

end Number

end AiStudio.Data
