import Mathlib.Algebra.Order.Floor.Defs
import Mathlib.Algebra.Order.Field.Rat
import Mathlib.Data.Nat.Sqrt
import Mathlib.Data.Rat.Floor
import Mathlib.Tactic.Common
import Mathlib.Algebra.Order.Group.Abs

/-! The operations of `f64`, with nothing assumed about them, so that what is proved over
them holds of IEEE arithmetic too. -/

/-- Equality of the type is equality of bits; `lt`, `le` and `eq` are the comparisons. -/
class FloatOps (F : Type*) extends Add F, Sub F, Mul F, Div F, Neg F where
  /-- The number that a decimal literal of the source stands for. -/
  lit : ℚ → F
  ofInt : Int → F
  negInfinity : F
  lt : F → F → Bool
  le : F → F → Bool
  eq : F → F → Bool
  isFinite : F → Bool
  max : F → F → F
  min : F → F → F
  abs : F → F
  floor : F → F
  sqrt : F → F
  /-- `as usize`: toward zero, and no further than the type goes. -/
  toUsize : F → Nat

namespace FloatOps

variable {F : Type*} [FloatOps F]

/-- `f64::clamp`. -/
def clamp (x lower upper : F) : F :=
  if lt x lower then lower else if lt upper x then upper else x

def sum : List F → F
  | [] => lit 0
  | x :: xs => xs.foldl (· + ·) x

def isPositive (x : F) : Bool := isFinite x && lt (lit 0) x

/-- The elementary functions, whose last digit the platform decides. -/
class Elementary (F : Type*) [FloatOps F] where
  exp : F → F
  ln : F → F
  powf : F → F → F
  powi : F → Int → F

/-- What IEEE comparison and `f64::max` promise, for the proofs that rest on it. -/
class Ordered (F : Type*) [FloatOps F] : Prop where
  not_le_of_lt : ∀ x y : F, lt x y = true → le y x = false
  max_choice : ∀ x y : F, isFinite x = true → isFinite y = true → max x y = x ∨ max x y = y

/-- The rational that a finite number stands for, and `f64::total_cmp`, which tells apart the two
zeros and orders everything else by its value. -/
class Valued (F : Type*) [FloatOps F] where
  value : F → ℚ
  totalCmp : F → F → Ordering
  trans : Std.TransCmp totalCmp
  lawful : Std.LawfulEqCmp totalCmp
  zero_finite : isFinite (lit 0 : F) = true
  value_zero : value (lit 0) = 0
  le_iff : ∀ x y : F, isFinite x = true → isFinite y = true →
    (le x y = true ↔ value x ≤ value y)
  eq_iff : ∀ x y : F, isFinite x = true → isFinite y = true →
    (eq x y = true ↔ value x = value y)
  totalCmp_of_lt : ∀ x y : F, isFinite x = true → isFinite y = true → value x < value y →
    totalCmp x y = .lt

end FloatOps

/-- Exact numbers. The square root is rounded down; no number stands for infinity, and the
least Sharpe ratio that anyone reports takes its place. -/
instance : FloatOps ℚ where
  lit x := x
  ofInt x := x
  negInfinity := -1000000
  lt x y := decide (x < y)
  le x y := decide (x ≤ y)
  eq x y := decide (x = y)
  isFinite _ := true
  max := Max.max
  min := Min.min
  abs x := if x < 0 then -x else x
  floor x := (⌊x⌋ : ℤ)
  sqrt x := (Nat.sqrt (x.num.toNat * x.den) : ℚ) / x.den
  toUsize x := Min.min ⌊x⌋.toNat (2 ^ 64 - 1)

instance : FloatOps.Ordered ℚ where
  not_le_of_lt x y h := by
    have hlt : x < y := of_decide_eq_true h
    exact decide_eq_false (not_le.mpr hlt)
  max_choice x y _ _ := max_choice x y

instance : FloatOps.Valued ℚ where
  value x := x
  totalCmp := compare
  trans := inferInstance
  lawful := inferInstance
  zero_finite := rfl
  value_zero := rfl
  le_iff _ _ _ _ := decide_eq_true_iff
  eq_iff _ _ _ _ := decide_eq_true_iff
  totalCmp_of_lt _ _ _ _ h := compare_lt_iff_lt.mpr h

/-! The operations of `FloatOps` on exact numbers, in the words of the ordered field. -/

namespace Neoethos

open FloatOps (lit lt le isFinite)

variable (x y : ℚ)

@[simp] theorem lt_rat : lt x y = decide (x < y) := rfl

@[simp] theorem le_rat : le x y = decide (x ≤ y) := rfl

@[simp] theorem eq_rat : FloatOps.eq x y = decide (x = y) := rfl

@[simp] theorem lit_rat : (lit x : ℚ) = x := rfl

@[simp] theorem isFinite_rat : isFinite x = true := rfl

theorem isPositive_rat : FloatOps.isPositive x = true ↔ 0 < x := by
  unfold FloatOps.isPositive
  simp

@[simp] theorem max_rat : FloatOps.max x y = max x y := rfl

@[simp] theorem min_rat : FloatOps.min x y = min x y := rfl

theorem abs_rat : FloatOps.abs x = |x| := by
  by_cases hneg : x < 0
  · rw [abs_of_neg hneg]
    exact if_pos hneg
  · rw [abs_of_nonneg (not_lt.mp hneg)]
    exact if_neg hneg

theorem sum_rat (xs : List ℚ) : FloatOps.sum xs = xs.sum := by
  cases xs with
  | nil => rfl
  | cons x xs =>
    have hfold : ∀ acc : ℚ, xs.foldl (· + ·) acc = acc + xs.sum := by
      induction xs with
      | nil => exact fun acc => (add_zero acc).symm
      | cons y ys ih =>
        intro acc
        rw [List.foldl_cons, ih, List.sum_cons, add_assoc]
    exact (hfold x).trans List.sum_cons.symm

end Neoethos
