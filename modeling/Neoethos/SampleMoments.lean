import Mathlib.Algebra.BigOperators.Group.List.Lemmas
import Mathlib.Algebra.Order.BigOperators.Group.List
import Mathlib.Algebra.Order.Field.Basic
import Mathlib.Tactic.FieldSimp
import Mathlib.Tactic.Linarith
import Mathlib.Tactic.Ring

/-! Mean and variance of a list of numbers, and the variance by the sums of two powers. -/

namespace SampleMoments

variable {K : Type*} [Field K]

def mean (xs : List K) : K := xs.sum / xs.length

def variance (xs : List K) : K := (xs.map fun x => (x - mean xs) ^ 2).sum / xs.length

def Constant {α : Type*} (xs : List α) : Prop := ∀ x ∈ xs, ∀ y ∈ xs, x = y

instance {α : Type*} [DecidableEq α] (xs : List α) : Decidable (Constant xs) :=
  inferInstanceAs (Decidable (∀ x ∈ xs, ∀ y ∈ xs, x = y))

theorem cast_length_ne_zero [CharZero K] {α : Type*} {xs : List α} (h : xs ≠ []) :
    (xs.length : K) ≠ 0 := by
  rw [Nat.cast_ne_zero, ne_eq, List.length_eq_zero_iff]
  exact h

theorem sum_squares_about (xs : List K) (m : K) :
    (xs.map fun x => (x - m) ^ 2).sum =
      (xs.map fun x => x * x).sum - 2 * m * xs.sum + xs.length * (m * m) := by
  induction xs with
  | nil => simp
  | cons x xs ih =>
    simp only [List.map_cons, List.sum_cons, List.length_cons, Nat.cast_succ, ih]
    ring

theorem variance_of_sums [CharZero K] {xs : List K} (h : xs ≠ []) :
    variance xs = (xs.map fun x => x * x).sum / xs.length - mean xs * mean xs := by
  have hlength : (xs.length : K) ≠ 0 := cast_length_ne_zero h
  unfold variance
  rw [sum_squares_about]
  unfold mean
  field_simp
  ring

section Ordered

variable [LinearOrder K] [IsStrictOrderedRing K] {xs : List K}

theorem sum_squares_nonneg (xs : List K) (m : K) : 0 ≤ (xs.map fun x => (x - m) ^ 2).sum := by
  apply List.sum_nonneg
  intro y hy
  obtain ⟨x, -, rfl⟩ := List.mem_map.mp hy
  exact sq_nonneg _

theorem variance_nonneg (xs : List K) : 0 ≤ variance xs :=
  div_nonneg (sum_squares_nonneg xs _) (Nat.cast_nonneg _)

theorem sum_squares_eq_zero_iff (xs : List K) (m : K) :
    (xs.map fun x => (x - m) ^ 2).sum = 0 ↔ ∀ x ∈ xs, x = m := by
  induction xs with
  | nil => simp
  | cons x xs ih =>
    rw [List.map_cons, List.sum_cons, List.forall_mem_cons, ← ih]
    have hhead := sq_nonneg (x - m)
    have htail := sum_squares_nonneg xs m
    constructor
    · intro hsum
      have hx : (x - m) ^ 2 = 0 := by linarith
      exact ⟨sub_eq_zero.mp (pow_eq_zero_iff two_ne_zero |>.mp hx), by linarith⟩
    · rintro ⟨rfl, hzero⟩
      rw [hzero, sub_self]
      simp

theorem mean_of_forall_eq {m : K} (hne : xs ≠ []) (h : ∀ x ∈ xs, x = m) : mean xs = m := by
  have hlength : (xs.length : K) ≠ 0 := cast_length_ne_zero hne
  unfold mean
  rw [List.eq_replicate_of_mem h, List.sum_replicate, List.length_replicate, nsmul_eq_mul]
  exact mul_div_cancel_left₀ m hlength

theorem variance_eq_zero_iff (hne : xs ≠ []) : variance xs = 0 ↔ Constant xs := by
  have hlength : (xs.length : K) ≠ 0 := cast_length_ne_zero hne
  unfold variance
  rw [div_eq_zero_iff, or_iff_left hlength, sum_squares_eq_zero_iff]
  constructor
  · intro h x hx y hy
    rw [h x hx, h y hy]
  · intro h x hx
    exact (mean_of_forall_eq hne fun y hy => h y hy x hx).symm

end Ordered

end SampleMoments
