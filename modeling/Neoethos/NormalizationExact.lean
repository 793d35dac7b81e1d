import Mathlib.Algebra.Order.BigOperators.Group.List
import Neoethos.ExactFloats
import Neoethos.NormalizationFit

namespace Neoethos

open Fallible (refuse require bind_ok_iff check_ok_iff mapError_ok_iff refuse_ok_iff require_ok_iff
  mapM_ok_iff)
open ExactNumber (number nan)

namespace ExactNumber

/-- The kind of a number, in the order of `f64::total_cmp`. -/
def kind : ExactNumber ℚ → Nat
  | infinite true => 0
  | number _ => 1
  | infinite false => 2
  | nan => 3

def part (x : ExactNumber ℚ) : ℚ := x.number?.getD 0

def order : ExactNumber ℚ → ExactNumber ℚ → Ordering :=
  compareLex (compareOn kind) (compareOn part)

instance : Std.TransCmp order :=
  inferInstanceAs (Std.TransCmp (compareLex (compareOn kind) (compareOn part)))

theorem eq_of_kind_of_part {x y : ExactNumber ℚ} (hkind : x.kind = y.kind)
    (hpart : x.part = y.part) : x = y := by
  cases x with
  | number x =>
    cases y with
    | number y => exact congrArg number hpart
    | infinite negative => cases negative <;> cases hkind
    | nan => cases hkind
  | infinite negative =>
    cases y with
    | number y => cases negative <;> cases hkind
    | infinite other => cases negative <;> cases other <;> first | rfl | cases hkind
    | nan => cases negative <;> cases hkind
  | nan =>
    cases y with
    | number y => cases hkind
    | infinite negative => cases negative <;> cases hkind
    | nan => rfl

instance : Std.LawfulEqCmp order where
  eq_of_compare h := by
    obtain ⟨hkind, hpart⟩ := compareLex_eq_eq.mp h
    exact eq_of_kind_of_part (compare_eq_iff_eq.mp hkind) (compare_eq_iff_eq.mp hpart)

theorem order_number (x y : ℚ) : order (number x) (number y) = compare x y := by
  unfold order compareLex
  have hkind : compareOn kind (number x) (number y) = .eq := rfl
  rw [hkind]
  rfl

end ExactNumber

variable [ExactFunctions ℚ]

instance : FloatOps.Valued (ExactNumber ℚ) where
  value := ExactNumber.part
  totalCmp := ExactNumber.order
  trans := inferInstance
  lawful := inferInstance
  zero_finite := rfl
  value_zero := by simp [ExactNumber.part, ExactNumber.number?]
  le_iff x y hx hy := by
    obtain ⟨x, rfl⟩ := (ExactNumber.isFinite_iff x).mp hx
    obtain ⟨y, rfl⟩ := (ExactNumber.isFinite_iff y).mp hy
    simp [ExactNumber.part, ExactNumber.number?]
  eq_iff x y hx hy := by
    obtain ⟨x, rfl⟩ := (ExactNumber.isFinite_iff x).mp hx
    obtain ⟨y, rfl⟩ := (ExactNumber.isFinite_iff y).mp hy
    simp [ExactNumber.part, ExactNumber.number?]
  totalCmp_of_lt x y hx hy h := by
    obtain ⟨x, rfl⟩ := (ExactNumber.isFinite_iff x).mp hx
    obtain ⟨y, rfl⟩ := (ExactNumber.isFinite_iff y).mp hy
    rw [ExactNumber.order_number]
    exact compare_lt_iff_lt.mpr h

theorem exact_identity (value : ExactNumber ℚ) (h : FloatOps.isFinite value = true) :
    (value - FloatOps.lit 0) / FloatOps.lit 1 = value := by
  obtain ⟨x, rfl⟩ := (ExactNumber.isFinite_iff value).mp h
  rw [ExactNumber.lit_number, ExactNumber.lit_number, ExactNumber.sub_number,
    ExactNumber.div_number _ _ (by norm_num)]
  simp

theorem exact_clip (value : ExactNumber ℚ) (h : FloatOps.isFinite value = true) :
    FloatOps.isFinite (clip value) = true := by
  obtain ⟨x, rfl⟩ := (ExactNumber.isFinite_iff value).mp h
  unfold clip Z_CLIP_F64
  rw [ExactNumber.lit_number, ExactNumber.neg_number,
    ExactNumber.clamp_number _ _ _ (by norm_num)]
  rfl

theorem numbers_of_finite {values : List (ExactNumber ℚ)}
    (h : ∀ value ∈ values, FloatOps.isFinite value = true) :
    ∃ xs : List ℚ, values = xs.map number := by
  induction values with
  | nil => exact ⟨[], rfl⟩
  | cons value values ih =>
    obtain ⟨hvalue, hvalues⟩ := List.forall_mem_cons.mp h
    obtain ⟨x, rfl⟩ := (ExactNumber.isFinite_iff value).mp hvalue
    obtain ⟨xs, rfl⟩ := ih hvalues
    exact ⟨x :: xs, rfl⟩

theorem sort_numbers (xs : List ℚ) (le : ExactNumber ℚ → ExactNumber ℚ → Bool) :
    ∃ ys : List ℚ, (xs.map number).insertionSort (fun a b => le a b) = ys.map number ∧
      ys.length = xs.length := by
  have hfinite : ∀ value ∈ (xs.map number).insertionSort (fun a b => le a b),
      FloatOps.isFinite value = true := by
    intro value hvalue
    obtain ⟨x, -, rfl⟩ := List.mem_map.mp ((List.mem_insertionSort _).mp hvalue)
    rfl
  obtain ⟨ys, hys⟩ := numbers_of_finite hfinite
  have hlength := congrArg List.length hys
  rw [List.length_insertionSort, List.length_map, List.length_map] at hlength
  exact ⟨ys, hys, hlength.symm⟩

theorem median_number (xs : List ℚ) : ∃ m, medianSortedF64 (xs.map number) = number m := by
  have hat : ∀ index : Nat, ∃ x : ℚ,
      (xs.map number)[index]?.getD (FloatOps.lit 0 : ExactNumber ℚ) = number x := by
    intro index
    rw [List.getElem?_map]
    cases xs[index]? with
    | none => exact ⟨_, rfl⟩
    | some x => exact ⟨x, rfl⟩
  unfold medianSortedF64
  dsimp only
  split
  next =>
    obtain ⟨x, hx⟩ := hat ((xs.map number).length / 2 - 1)
    obtain ⟨y, hy⟩ := hat ((xs.map number).length / 2)
    rw [hx, hy, ExactNumber.lit_number, ExactNumber.mul_number, ExactNumber.mul_number,
      ExactNumber.add_number]
    exact ⟨_, rfl⟩
  next => exact hat _

theorem maxAbs_number (xs : List ℚ) (acc : ℚ) : ∃ m,
    (xs.map number).foldl (fun acc value => FloatOps.max acc (FloatOps.abs value)) (number acc) =
      number m := by
  induction xs generalizing acc with
  | nil => exact ⟨acc, rfl⟩
  | cons x xs ih =>
    rw [List.map_cons, List.foldl_cons, ExactNumber.abs_number, ExactNumber.max_number]
    exact ih _

theorem mad_number (ys : List ℚ) (center : ExactNumber ℚ) (hcenter : ∃ m, center = number m)
    (le : ExactNumber ℚ → ExactNumber ℚ → Bool) : ∃ mad, medianSortedF64
      (((ys.map number).map fun value => FloatOps.abs (value - center)).insertionSort
        fun a b => le a b) * MAD_TO_SIGMA_F64 = number mad := by
  obtain ⟨m, rfl⟩ := hcenter
  have hdeviations : (ys.map number).map (fun value => FloatOps.abs (value - number m)) =
      (ys.map fun y => |y - m|).map number := by
    rw [List.map_map, List.map_map]
    rfl
  obtain ⟨zs, hsorted, -⟩ := sort_numbers (ys.map fun y => |y - m|) le
  obtain ⟨mad, hmad⟩ := median_number zs
  unfold MAD_TO_SIGMA_F64
  rw [hdeviations, hsorted, hmad, ExactNumber.lit_number, ExactNumber.mul_number]
  exact ⟨_, rfl⟩

/-- The floor of the scale is above zero, whatever the values are. -/
theorem scaleFloor_number (ys : List ℚ) : ∃ floor, 0 < floor ∧
    FloatOps.lit 32 * F64_EPSILON * FloatOps.max ((ys.map number).foldl
      (fun acc value => FloatOps.max acc (FloatOps.abs value)) (FloatOps.lit 0))
        (FloatOps.lit 1) = number floor := by
  obtain ⟨maxAbs, hmaxAbs⟩ := maxAbs_number ys ((0 : ℚ) : ℚ)
  unfold F64_EPSILON
  simp only [ExactNumber.lit_number, hmaxAbs, ExactNumber.mul_number, ExactNumber.max_number,
    Rat.cast_id]
  exact ⟨_, mul_pos (by norm_num) (lt_max_of_lt_right one_pos), rfl⟩

/-- The deviation that takes the place of a scale that is too small. -/
theorem deviation_number {ys : List ℚ} (hys : ys ≠ []) : ∃ root, 0 ≤ root ∧
    FloatOps.sqrt (FloatOps.sum ((ys.map number).map fun value =>
      (value - FloatOps.sum (ys.map number) / FloatOps.ofInt (ys.map number).length) *
        (value - FloatOps.sum (ys.map number) / FloatOps.ofInt (ys.map number).length)) /
          FloatOps.ofInt (ys.map number).length) = number root := by
  have hcount : (0 : ℚ) < ys.length := Nat.cast_pos.mpr (List.length_pos_of_ne_nil hys)
  have hofInt : (FloatOps.ofInt (ys.length : Int) : ExactNumber ℚ) = number (ys.length : ℚ) := by
    rw [ExactNumber.ofInt_number, Int.cast_natCast]
  rw [ExactNumber.sum_number, List.length_map, hofInt, ExactNumber.div_number _ _ hcount.ne']
  generalize ys.sum / (ys.length : ℚ) = mean
  have hsquares : (ys.map number).map (fun value => (value - number mean) * (value - number mean)) =
      (ys.map fun y => (y - mean) * (y - mean)).map number := by
    rw [List.map_map, List.map_map]
    rfl
  have hvariance : 0 ≤ (ys.map fun y => (y - mean) * (y - mean)).sum / (ys.length : ℚ) := by
    refine div_nonneg (List.sum_nonneg fun square hsquare => ?_) hcount.le
    obtain ⟨y, -, rfl⟩ := List.mem_map.mp hsquare
    exact mul_self_nonneg _
  rw [hsquares, ExactNumber.sum_number, ExactNumber.div_number _ _ hcount.ne',
    ExactNumber.sqrt_number _ hvariance]
  exact ⟨_, ExactFunctions.sqrt_nonneg _ hvariance, rfl⟩

/-- The location and the scale of a fit are numbers, and the scale of a live one is positive. -/
theorem robustFit_exact (trainingRows : RowRange) {xs : List ℚ} (hxs : xs ≠ []) :
    ∃ median scale, (robustFit trainingRows (xs.map number)).median = number median ∧
      (robustFit trainingRows (xs.map number)).scale = number scale ∧ 0 ≤ scale ∧
      ((robustFit trainingRows (xs.map number)).degenerate = false → 0 < scale) := by
  unfold robustFit
  dsimp only
  obtain ⟨ys, hsorted, hlength⟩ := sort_numbers xs
    fun a b => (FloatOps.Valued.totalCmp a b).isLE
  have hys : ys ≠ [] := by
    rintro rfl
    exact hxs (List.length_eq_zero_iff.mp hlength.symm)
  simp only [hsorted]
  obtain ⟨median, hmedian⟩ := median_number ys
  obtain ⟨mad, hmad⟩ := mad_number ys (medianSortedF64 (ys.map number)) ⟨median, hmedian⟩
    fun a b => (FloatOps.Valued.totalCmp a b).isLE
  obtain ⟨floor, hpositive, hfloor⟩ := scaleFloor_number ys
  obtain ⟨root, hroot, hdeviation⟩ := deviation_number hys
  simp only [hmad, hfloor, hdeviation, ExactNumber.lt_number, decide_eq_true_eq]
  rw [hmedian]
  split
  next habove =>
    have hscale : 0 < mad := hpositive.trans habove
    exact ⟨median, mad, rfl, rfl, hscale.le, fun _ => hscale⟩
  next =>
    refine ⟨median, root, rfl, rfl, hroot, fun hlive => ?_⟩
    rw [ExactNumber.isFinite_number, ExactNumber.le_number] at hlive
    simp only [Bool.not_true, Bool.false_or, decide_eq_false_iff_not, not_le] at hlive
    exact hpositive.trans hlive

theorem robustFit_cells (trainingRows : RowRange) (values : List (ExactNumber ℚ)) :
    (robustFit trainingRows values).trainingRows = trainingRows ∧
      (robustFit trainingRows values).validTrainingCells = values.length :=
  ⟨rfl, List.length_insertionSort _ _⟩

theorem FitOf.validateSearchFit_ok {quiet : ExactNumber ℚ}
    {column left : FeatureColumnF64 (ExactNumber ℚ)} {trainingRows : RowRange}
    {fit : RobustNormalizationFitF64 (ExactNumber ℚ)}
    (h : FitOf quiet column trainingRows fit left) :
    validateSearchFit column.name fit = .ok () := by
  have hfit := h.fitted
  generalize htraining : trainingRows.of column.cells = training at hfit
  have hcount : training.countP (·.validity.isValid) ≤ trainingRows.length := by
    rw [← htraining]
    exact List.countP_le_length.trans (RowRange.length_of_le trainingRows column.cells)
  have hsupported : 0 < training.countP (·.validity.isValid) := by
    obtain ⟨cell, hcell, hvalid⟩ := h.supported
    rw [htraining] at hcell
    exact List.countP_pos_iff.mpr ⟨cell, hcell, hvalid⟩
  have hordered := h.ordered
  unfold searchFit at hfit
  unfold validateSearchFit
  rw [check_ok_iff, check_ok_iff, refuse_ok_iff, refuse_ok_iff, not_not, Bool.not_eq_false]
  cases hname : smcGateDomain column.name with
  | some domain =>
    rw [hname] at hfit
    rw [hfit]
    refine ⟨⟨hordered, hsupported, hcount⟩, ?_, ?_⟩
    · simp [isNan]
    · rw [Option.isSome_some, if_pos rfl, refuse_ok_iff]
      simp
  | none =>
    rw [hname] at hfit
    have hfinite : ∀ value ∈ (training.filter (·.validity.isValid)).map (·.value),
        FloatOps.isFinite value = true := by
      intro value hvalue
      obtain ⟨cell, hcell, rfl⟩ := List.mem_map.mp hvalue
      obtain ⟨hcell, hvalid⟩ := List.mem_filter.mp hcell
      rw [← htraining] at hcell
      exact h.finite cell hcell hvalid
    obtain ⟨xs, hxs⟩ := numbers_of_finite hfinite
    have hlength : xs.length = training.countP (·.validity.isValid) := by
      have hmap := congrArg List.length hxs
      rw [List.length_map, List.length_map, ← List.countP_eq_length_filter] at hmap
      exact hmap.symm
    have hne : xs ≠ [] := by
      rintro rfl
      rw [← hlength] at hsupported
      exact absurd hsupported (lt_irrefl 0)
    obtain ⟨median, scale, hmedian, hscale, hnonneg, hlive⟩ := robustFit_exact trainingRows hne
    obtain ⟨hrows, hcells⟩ := robustFit_cells trainingRows (xs.map number)
    rw [List.length_map, hlength] at hcells
    rw [hfit, hxs]
    refine ⟨?_, ?_, rfl⟩
    · rw [hrows, hcells]
      exact ⟨hordered, hsupported, hcount⟩
    · rw [hmedian, hscale]
      cases hdegenerate : (robustFit trainingRows (xs.map number)).degenerate with
      | true => simp [isNan, hnonneg]
      | false => simp [isNan, hnonneg, hlive hdegenerate]

end Neoethos
