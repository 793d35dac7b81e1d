import Neoethos.FloatOps
import Mathlib.Algebra.Order.Group.Abs
import Mathlib.Algebra.Order.Ring.Abs
import Mathlib.Data.Rat.Cast.Order

/-! `f64` without rounding: the numbers of an ordered field, the two infinities and NaN. -/

namespace Neoethos

/-- An operation that has no exact result gives `nan`. -/
inductive ExactNumber (K : Type*)
  | number (x : K)
  | infinite (negative : Bool)
  | nan
  deriving DecidableEq

/-- The functions whose results have to be rounded. Only the sign of a root is known. -/
class ExactFunctions (K : Type*) [Zero K] [LE K] where
  sqrt : K → K
  sqrt_nonneg : ∀ x, 0 ≤ x → 0 ≤ sqrt x
  floor : K → K
  toUsize : K → Nat
  exp : K → K
  ln : K → K
  powf : K → K → K
  powi : K → Int → K

class ExactRoots (K : Type*) [Zero K] [LE K] [LT K] extends ExactFunctions K where
  sqrt_pos : ∀ x, 0 < x → 0 < sqrt x

namespace ExactNumber

variable {K : Type*}

def map (f : K → K) : ExactNumber K → ExactNumber K
  | number x => number (f x)
  | _ => nan

def map₂ (f : K → K → K) : ExactNumber K → ExactNumber K → ExactNumber K
  | number x, number y => number (f x y)
  | _, _ => nan

def divide [Zero K] [Div K] [DecidableEq K] : ExactNumber K → ExactNumber K → ExactNumber K
  | number x, number y => if y = 0 then nan else number (x / y)
  | _, _ => nan

def less [LT K] [DecidableLT K] : ExactNumber K → ExactNumber K → Bool
  | number x, number y => decide (x < y)
  | infinite true, number _ => true
  | number _, infinite false => true
  | infinite true, infinite false => true
  | _, _ => false

def same [DecidableEq K] : ExactNumber K → ExactNumber K → Bool
  | nan, _ => false
  | x, y => decide (x = y)

def number? : ExactNumber K → Option K
  | number x => some x
  | _ => none

end ExactNumber

open ExactNumber (number nan)

section Instances

variable {K : Type*} [Field K] [LinearOrder K] [ExactFunctions K]

instance : FloatOps (ExactNumber K) where
  add := .map₂ (· + ·)
  sub := .map₂ (· - ·)
  mul := .map₂ (· * ·)
  div := .divide
  neg := .map (- ·)
  lit x := number x
  ofInt x := number x
  negInfinity := .infinite true
  lt := ExactNumber.less
  le x y := x.less y || x.same y
  eq := ExactNumber.same
  isFinite x := x.number?.isSome
  max := .map₂ max
  min := .map₂ min
  abs := .map fun x => max x (-x)
  floor := .map ExactFunctions.floor
  sqrt
    | number x => if x < 0 then nan else number (ExactFunctions.sqrt x)
    | _ => nan
  toUsize
    | number x => ExactFunctions.toUsize x
    | _ => 0

instance : FloatOps.Elementary (ExactNumber K) where
  exp := .map ExactFunctions.exp
  ln
    | number x => if x ≤ 0 then nan else number (ExactFunctions.ln x)
    | _ => nan
  powf := .map₂ ExactFunctions.powf
  powi x n := x.map (ExactFunctions.powi · n)

end Instances

namespace ExactNumber

section Rules

variable {K : Type*} [Field K] [LinearOrder K] [ExactFunctions K] (x y : K)

open FloatOps (lit ofInt lt le eq isFinite)

@[simp] theorem add_number : (number x + number y : ExactNumber K) = number (x + y) := rfl

@[simp] theorem sub_number : (number x - number y : ExactNumber K) = number (x - y) := rfl

@[simp] theorem mul_number : (number x * number y : ExactNumber K) = number (x * y) := rfl

@[simp] theorem neg_number : (-number x : ExactNumber K) = number (-x) := rfl

theorem div_number (h : y ≠ 0) : (number x / number y : ExactNumber K) = number (x / y) :=
  if_neg h

@[simp] theorem lit_number (q : ℚ) : (lit q : ExactNumber K) = number (q : K) := rfl

@[simp] theorem ofInt_number (n : Int) : (ofInt n : ExactNumber K) = number (n : K) := rfl

@[simp] theorem lt_number : lt (number x) (number y) = decide (x < y) := rfl

@[simp] theorem le_number : le (number x) (number y) = decide (x ≤ y) := by
  have hle : (decide (x < y) || decide (number x = number y)) = decide (x ≤ y) := by
    rw [Bool.eq_iff_iff, Bool.or_eq_true, decide_eq_true_eq, decide_eq_true_eq, decide_eq_true_eq,
      ExactNumber.number.injEq]
    exact le_iff_lt_or_eq.symm
  exact hle

@[simp] theorem eq_number : eq (number x) (number y) = decide (x = y) := by
  have heq : decide (number x = number y) = decide (x = y) := by
    rw [Bool.eq_iff_iff, decide_eq_true_eq, decide_eq_true_eq, ExactNumber.number.injEq]
  exact heq

@[simp] theorem isFinite_number : isFinite (number x) = true := rfl

theorem isFinite_iff (v : ExactNumber K) : isFinite v = true ↔ ∃ x, v = number x := by
  cases v with
  | number x => exact ⟨fun _ => ⟨x, rfl⟩, fun _ => rfl⟩
  | infinite negative => exact ⟨fun h => (Bool.noConfusion h), fun ⟨x, h⟩ => by cases h⟩
  | nan => exact ⟨fun h => (Bool.noConfusion h), fun ⟨x, h⟩ => by cases h⟩

@[simp] theorem max_number : FloatOps.max (number x) (number y) = number (max x y) := rfl

@[simp] theorem min_number : FloatOps.min (number x) (number y) = number (min x y) := rfl

@[simp] theorem abs_number : FloatOps.abs (number x) = number |x| := rfl

theorem sqrt_number (h : 0 ≤ x) : FloatOps.sqrt (number x) = number (ExactFunctions.sqrt x) :=
  if_neg (not_lt.mpr h)

theorem ln_number (h : 0 < x) :
    FloatOps.Elementary.ln (number x) = number (ExactFunctions.ln x) :=
  if_neg (not_le.mpr h)

@[simp] theorem negInfinity_lt : lt FloatOps.negInfinity (number x) = true := rfl

theorem clamp_number (lower upper : K) (h : lower ≤ upper) :
    FloatOps.clamp (number x) (number lower) (number upper) =
      number (max lower (min x upper)) := by
  unfold FloatOps.clamp
  simp only [lt_number, decide_eq_true_eq]
  split
  next hlow => rw [max_eq_left ((min_le_left x upper).trans hlow.le)]
  next hlow =>
    split
    next hup => rw [min_eq_right hup.le, max_eq_right h]
    next hup => rw [min_eq_left (not_lt.mp hup), max_eq_right (not_lt.mp hlow)]

theorem foldl_add_number (xs : List K) (acc : K) :
    (xs.map number).foldl (· + ·) (number acc) = number (acc + xs.sum) := by
  induction xs generalizing acc with
  | nil => rw [List.sum_nil, add_zero]; rfl
  | cons y ys ih => rw [List.map_cons, List.foldl_cons, add_number, ih, List.sum_cons, add_assoc]

theorem sum_number (xs : List K) : FloatOps.sum (xs.map number) = number xs.sum := by
  cases xs with
  | nil =>
    have hzero : (lit 0 : ExactNumber K) = number 0 := by rw [lit_number, Rat.cast_zero]
    exact hzero
  | cons y ys =>
    have hfold := foldl_add_number ys y
    rw [List.sum_cons]
    exact hfold

end Rules

end ExactNumber

/-- Roots rounded down to the denominator, and the tangents of the other functions. -/
instance : ExactRoots ℚ where
  sqrt x := (Nat.sqrt (x.num.toNat * x.den) : ℚ) / x.den
  sqrt_nonneg _ _ := div_nonneg (Nat.cast_nonneg _) (Nat.cast_nonneg _)
  sqrt_pos x h := by
    have hnum : 0 < x.num.toNat := by have := Rat.num_pos.mpr h; omega
    have hroot := Nat.sqrt_pos.mpr (Nat.mul_pos hnum x.den_pos)
    exact div_pos (Nat.cast_pos.mpr hroot) (Nat.cast_pos.mpr x.den_pos)
  floor x := (⌊x⌋ : ℤ)
  toUsize x := min ⌊x⌋.toNat (2 ^ 64 - 1)
  exp x := 1 + x
  ln x := x - 1
  powf x y := 1 + (x - 1) * y
  powi x n := x ^ n

end Neoethos
