import Neoethos.CscvRefines

namespace Neoethos

open FloatOps (lit ofInt lt le eq isFinite)
open ExactNumber (number)
open SampleMoments (mean variance Constant)
open Selection (pick Within)

variable {K : Type*} [Field K] [LinearOrder K]

section Sums

variable [ExactFunctions K]

theorem lit_zero : (lit 0 : ExactNumber K) = number 0 := by
  rw [ExactNumber.lit_number, Rat.cast_zero]

def squares (xs : List K) : List K := xs.map fun x => x * x

theorem foldl_moments (xs : List K) (a b : K) :
    (xs.map number).foldl (fun (s, q) v => (s + v, q + v * v)) (number a, number b) =
      (number (a + xs.sum), number (b + (squares xs).sum)) := by
  unfold squares
  induction xs generalizing a b with
  | nil => simp
  | cons x xs ih =>
    rw [List.map_cons, List.foldl_cons]
    dsimp only
    rw [ExactNumber.add_number, ExactNumber.mul_number, ExactNumber.add_number, ih, List.sum_cons,
      List.map_cons, List.sum_cons, add_assoc, add_assoc]

variable {periods groups : Nat} {xs : List K}

def groupMoments (periods groups : Nat) (xs : List K) (g : Nat) : K × K :=
  ((pick (groupMonths periods groups g) xs).sum,
    (squares (pick (groupMonths periods groups g) xs)).sum)

theorem groupSums_number (row : DecodedTrialRow (ExactNumber K))
    (h : row.returns = xs.map number) : groupSums (groupBounds periods groups) row =
      (List.range groups).map fun g =>
        (number (groupMoments periods groups xs g).1,
          number (groupMoments periods groups xs g).2) := by
  unfold groupSums
  rw [groupBounds_eq, List.map_map]
  apply List.map_congr_left
  intro g _
  have hmonths : ((xs.map number).drop (groupStart periods groups g)).take
      (groupStart periods groups (g + 1) - groupStart periods groups g) =
      (pick (groupMonths periods groups g) xs).map number := by
    rw [← Selection.pick_range', Selection.pick_map]
    rfl
  rw [Function.comp_apply, h]
  dsimp only
  rw [hmonths, lit_zero, foldl_moments, zero_add, zero_add]
  rfl

def halfMoments (periods groups : Nat) (xs : List K) (gs : List Nat) : K × K :=
  ((pick (monthsIn periods groups gs) xs).sum,
    (squares (pick (monthsIn periods groups gs) xs)).sum)

omit [LinearOrder K] [ExactFunctions K] in
theorem halfMoments_cons (g : Nat) (gs : List Nat) :
    halfMoments periods groups xs (g :: gs) =
      ((groupMoments periods groups xs g).1 + (halfMoments periods groups xs gs).1,
        (groupMoments periods groups xs g).2 + (halfMoments periods groups xs gs).2) := by
  unfold halfMoments groupMoments monthsIn squares
  rw [List.flatMap_cons, Selection.pick_append, List.map_append, List.sum_append, List.sum_append]

theorem foldl_halves (periods groups : Nat) (xs : List K) (chosen gs : List Nat) (a b c d : K) :
    gs.foldl (fun (isS, isQ, oosS, oosQ) g =>
      if g ∈ chosen then
        (isS + number (groupMoments periods groups xs g).1,
          isQ + number (groupMoments periods groups xs g).2, oosS, oosQ)
      else
        (isS, isQ, oosS + number (groupMoments periods groups xs g).1,
          oosQ + number (groupMoments periods groups xs g).2))
      (number a, number b, number c, number d) =
    (number (a + (halfMoments periods groups xs (gs.filter (· ∈ chosen))).1),
      number (b + (halfMoments periods groups xs (gs.filter (· ∈ chosen))).2),
      number (c + (halfMoments periods groups xs (gs.filter (· ∉ chosen))).1),
      number (d + (halfMoments periods groups xs (gs.filter (· ∉ chosen))).2)) := by
  induction gs generalizing a b c d with
  | nil =>
    have hnil : halfMoments periods groups xs [] = (0, 0) := rfl
    simp [hnil]
  | cons g gs ih =>
    rw [List.foldl_cons]
    dsimp only
    by_cases hg : g ∈ chosen
    · rw [if_pos hg, ExactNumber.add_number, ExactNumber.add_number, ih,
        List.filter_cons_of_pos (by simpa using hg), List.filter_cons_of_neg (by simpa using hg),
        halfMoments_cons, add_assoc, add_assoc]
    · rw [if_neg hg, ExactNumber.add_number, ExactNumber.add_number, ih,
        List.filter_cons_of_neg (by simpa using hg), List.filter_cons_of_pos (by simpa using hg),
        halfMoments_cons, add_assoc, add_assoc]

theorem zipIdx_map_range {α : Type*} (f : Nat → α) (n : Nat) :
    ((List.range n).map f).zipIdx = (List.range n).map fun g => (f g, g) := by
  apply List.ext_getElem
  · simp
  · intro i hi hi'
    simp

end Sums

section Performance

variable [ExactRoots K]

theorem standIn_number : (CONSTANT_SERIES_PERFORMANCE : ExactNumber K) =
    number 1000000000000 := by
  unfold CONSTANT_SERIES_PERFORMANCE
  rw [ExactNumber.lit_number]
  norm_num

variable [IsStrictOrderedRing K]

theorem pooledPerformance_number {xs : List K} (hne : xs ≠ []) :
    pooledPerformance (number xs.sum) (number (squares xs).sum) (number (xs.length : K)) =
      number (samplePerformance xs) := by
  have hlength : (0 : K) < xs.length := by
    rw [Nat.cast_pos]
    exact List.length_pos_iff.mpr hne
  have hvariance : (squares xs).sum / xs.length - mean xs * mean xs = variance xs :=
    (SampleMoments.variance_of_sums hne).symm
  have hnonneg := SampleMoments.variance_nonneg xs
  unfold pooledPerformance samplePerformance
  rw [lit_zero, ExactNumber.le_number, if_neg (by simpa using hne),
    ExactNumber.div_number _ _ hlength.ne', ExactNumber.div_number _ _ hlength.ne']
  dsimp only
  have hmean : xs.sum / xs.length = mean xs := rfl
  rw [ExactNumber.mul_number, ExactNumber.sub_number, hmean, hvariance, ExactNumber.le_number,
    ExactNumber.lt_number, ExactNumber.lt_number, ExactNumber.isFinite_number, Bool.not_true,
    Bool.or_false, standIn_number]
  simp only [decide_eq_true_eq]
  by_cases hzero : variance xs = 0
  · rw [if_pos hzero.le, if_pos hzero]
    split
    next => rfl
    next =>
      split
      next => rfl
      next => rfl
  · have hpos := lt_of_le_of_ne hnonneg (Ne.symm hzero)
    rw [if_neg (not_le.mpr hpos), if_neg hzero, ExactNumber.sqrt_number _ hnonneg]
    exact ExactNumber.div_number _ _ (ExactRoots.sqrt_pos _ hpos).ne'

end Performance

section Counts

variable [ExactFunctions K] {periods groups : Nat}

theorem groupSizes_number (periods groups : Nat) :
    (((groupBounds periods groups).map fun b => b.2 - b.1).map fun n : Nat =>
      (ofInt (n : Int) : ExactNumber K)) =
      (List.range groups).map fun g => number ((groupMonths periods groups g).length : K) := by
  rw [groupBounds_eq, List.map_map, List.map_map]
  apply List.map_congr_left
  intro g _
  simp [groupMonths]

theorem foldl_sizes (periods groups : Nat) (gs : List Nat) (a : Nat) :
    gs.foldl (fun acc g => acc + number ((groupMonths periods groups g).length : K))
      (number (a : K)) = number ((a + (monthsIn periods groups gs).length : Nat) : K) := by
  unfold monthsIn
  induction gs generalizing a with
  | nil => simp
  | cons g gs ih =>
    rw [List.foldl_cons, ExactNumber.add_number, ← Nat.cast_add, ih, List.flatMap_cons,
      List.length_append, Nat.add_assoc]

theorem isCount_number {chosen : List Nat} (hchosen : ∀ g ∈ chosen, g < groups) :
    chosen.foldl (fun acc g => acc + (((List.range groups).map fun g =>
      number ((groupMonths periods groups g).length : K))[g]?).getD (lit 0)) (lit 0) =
      number ((monthsIn periods groups chosen).length : K) := by
  have hfold := foldl_sizes (K := K) periods groups chosen 0
  rw [Nat.zero_add, Nat.cast_zero] at hfold
  rw [← hfold, lit_zero]
  apply List.foldl_ext
  intro acc g hg
  rw [List.getElem?_map, List.getElem?_range (hchosen g hg)]
  rfl

theorem oosCount_number (chosen : List Nat) :
    (((List.range groups).map fun g =>
        number ((groupMonths periods groups g).length : K)).zipIdx.foldl
      (fun acc (n, g) => if g ∈ chosen then acc else acc + n) (lit 0)) =
      number ((monthsIn periods groups ((List.range groups).filter (· ∉ chosen))).length : K) := by
  have hfold := foldl_sizes (K := K) periods groups
    ((List.range groups).filter (· ∉ chosen)) 0
  rw [Nat.zero_add, Nat.cast_zero] at hfold
  rw [← hfold, lit_zero, zipIdx_map_range, List.foldl_map, List.foldl_filter]
  apply List.foldl_ext
  intro acc g _
  dsimp only
  by_cases hg : g ∈ chosen
  · rw [if_pos hg, if_neg (by simpa using hg)]
  · rw [if_neg hg, if_pos (by simpa using hg)]

end Counts

section Split

variable [ExactRoots K] [IsStrictOrderedRing K] {periods groups : Nat} {xs : List K}
  {chosen : List Nat}

theorem pooledPerformance_months {gs : List Nat}
    (hgroups : 0 < groups) (hgs : ∀ g ∈ gs, g < groups) (hne : gs ≠ [])
    (hlong : 0 < periods / groups) (hlength : periods ≤ xs.length) :
    pooledPerformance (number (halfMoments periods groups xs gs).1)
        (number (halfMoments periods groups xs gs).2)
        (number ((monthsIn periods groups gs).length : K)) =
      number (samplePerformance (pick (monthsIn periods groups gs) xs)) := by
  have hwithin := within_monthsIn hgroups hgs hlength
  have hcount := Selection.length_pick hwithin
  have hsample : pick (monthsIn periods groups gs) xs ≠ [] := by
    intro hnil
    rw [hnil, List.length_nil] at hcount
    exact monthsIn_ne_nil hne hlong (List.length_eq_zero_iff.mp hcount.symm)
  have hpooled := pooledPerformance_number hsample
  rw [hcount] at hpooled
  exact hpooled

theorem splitPerformance_number (row : DecodedTrialRow (ExactNumber K))
    (h : row.returns = xs.map number) (hgroups : 0 < groups) (hlong : 0 < periods / groups)
    (hlength : periods ≤ xs.length)
    (hin : (List.range groups).filter (· ∈ chosen) = chosen) (hinne : chosen ≠ [])
    (hoosne : (List.range groups).filter (· ∉ chosen) ≠ []) :
    splitPerformance (groupSums (groupBounds periods groups) row) chosen
        (number ((monthsIn periods groups chosen).length : K))
        (number ((monthsIn periods groups
          ((List.range groups).filter (· ∉ chosen))).length : K)) =
      (number (samplePerformance (pick (monthsIn periods groups chosen) xs)),
        number (samplePerformance (pick
          (monthsIn periods groups ((List.range groups).filter (· ∉ chosen))) xs))) := by
  have hfold := foldl_halves periods groups xs chosen
    (List.range groups) 0 0 0 0
  rw [hin, zero_add, zero_add, zero_add, zero_add] at hfold
  have hbelow : ∀ g ∈ chosen, g < groups := by
    intro g hg
    rw [← hin] at hg
    exact List.mem_range.mp (List.mem_filter.mp hg).1
  unfold splitPerformance
  rw [groupSums_number row h, zipIdx_map_range, List.foldl_map, lit_zero]
  dsimp only
  rw [hfold]
  dsimp only
  rw [pooledPerformance_months hgroups hbelow hinne hlong hlength,
    pooledPerformance_months hgroups
      (fun g hg => List.mem_range.mp (List.mem_filter.mp hg).1) hoosne hlong hlength]

end Split

section Champion

/-- An entry that no entry exceeds and that every earlier one falls short of. -/
structure IsFirstBest (ps : List K) (index : Nat) (p : K) : Prop where
  at_ : ps[index]? = some p
  le : ∀ q ∈ ps, q ≤ p
  lt : ∀ j < index, ∀ q, ps[j]? = some q → q < p

omit [Field K] in
theorem IsFirstBest.bestIndex_eq {ps : List K} {index : Nat} {p : K}
    (h : IsFirstBest ps index p) : bestIndex ps = index := by
  obtain ⟨hlt, heq⟩ := List.getElem?_eq_some_iff.mp h.at_
  unfold bestIndex
  rw [List.findIdx_eq hlt]
  refine ⟨?_, ?_⟩
  · rw [heq]
    exact decide_eq_true h.le
  · intro j hj
    have hless := h.lt j hj _ (List.getElem?_eq_getElem (by omega))
    apply decide_eq_false
    intro hall
    exact absurd (hall p (List.mem_of_getElem? h.at_)) (not_le.mpr hless)

omit [Field K] in
theorem IsFirstBest.append {ps : List K} {index : Nat} {p q : K} (h : IsFirstBest ps index p) :
    if p < q then IsFirstBest (ps ++ [q]) ps.length q else IsFirstBest (ps ++ [q]) index p := by
  obtain ⟨hlt, -⟩ := List.getElem?_eq_some_iff.mp h.at_
  split
  next hless =>
    refine ⟨List.getElem?_concat_length, ?_, ?_⟩
    · intro r hr
      rcases List.mem_append.mp hr with hr | hr
      · exact (h.le r hr).trans hless.le
      · rw [List.mem_singleton.mp hr]
    · intro j hj r hr
      rw [List.getElem?_append_left hj] at hr
      exact (h.le r (List.mem_of_getElem? hr)).trans_lt hless
  next hless =>
    refine ⟨by rw [List.getElem?_append_left hlt]; exact h.at_, ?_, ?_⟩
    · intro r hr
      rcases List.mem_append.mp hr with hr | hr
      · exact h.le r hr
      · rw [List.mem_singleton.mp hr]
        exact not_lt.mp hless
    · intro j hj r hr
      rw [List.getElem?_append_left (by omega)] at hr
      exact h.lt j hj r hr

variable [ExactFunctions K]

/-- Performances in sample and out of sample, as the sweep holds them. -/
def asNumbers (ps : List (K × K)) : List (ExactNumber K × ExactNumber K) :=
  ps.map fun r => (number r.1, number r.2)

theorem championOf_fold (ps : List (K × K)) (hne : ps ≠ []) :
    ∃ index p, IsFirstBest (ps.map Prod.fst) index p ∧
      (asNumbers ps).zipIdx.foldl (fun (champion, best) ((ip, _), t) =>
        if lt best ip then (t, ip) else (champion, best)) (0, FloatOps.negInfinity) =
        (index, number p) := by
  induction ps using List.reverseRecOn with
  | nil => exact absurd rfl hne
  | append_singleton ps r ih =>
    have hlength : (asNumbers ps).length = ps.length := List.length_map _
    have hstep : (asNumbers (ps ++ [r])).zipIdx =
        (asNumbers ps).zipIdx ++ [((number r.1, number r.2), ps.length)] := by
      unfold asNumbers
      rw [List.map_append, List.zipIdx_append, List.length_map, Nat.zero_add]
      rfl
    rw [hstep, List.foldl_append, List.map_append]
    rcases ps.eq_nil_or_concat' with rfl | ⟨front, last, hcons⟩
    · refine ⟨0, r.1, ⟨rfl, ?_, ?_⟩, rfl⟩
      · intro q hq
        rw [List.mem_singleton.mp hq]
      · intro j hj
        omega
    · obtain ⟨index, p, hbest, hfold⟩ := ih (by rw [hcons]; simp)
      have hnext := hbest.append (q := r.1)
      rw [hfold, List.foldl_cons, List.foldl_nil]
      dsimp only
      rw [ExactNumber.lt_number]
      by_cases hless : p < r.1
      · rw [if_pos hless, List.length_map] at hnext
        exact ⟨ps.length, r.1, hnext, if_pos (decide_eq_true hless)⟩
      · rw [if_neg hless] at hnext
        exact ⟨index, p, hnext, if_neg (by simpa using hless)⟩

theorem championOf_number {ps : List (K × K)} (hne : ps ≠ []) :
    championOf (asNumbers ps) = bestIndex (ps.map Prod.fst) := by
  obtain ⟨index, p, hbest, hfold⟩ := championOf_fold ps hne
  unfold championOf
  rw [hfold, hbest.bestIndex_eq]

theorem bestIndex_lt {ps : List K} (hne : ps ≠ []) : bestIndex ps < ps.length := by
  obtain ⟨index, p, hbest, -⟩ := championOf_fold (ps.map fun p => (p, p)) (by simpa using hne)
  have hfirst : (ps.map fun p => (p, p)).map Prod.fst = ps := by
    rw [List.map_map]
    exact List.map_id ps
  rw [hfirst] at hbest
  rw [hbest.bestIndex_eq]
  exact (List.getElem?_eq_some_iff.mp hbest.at_).1

end Champion

section Rank

variable [ExactRoots K] [IsStrictOrderedRing K]

theorem filter_zipIdx_ne {α : Type*} (xs : List α) (start index : Nat) :
    ((xs.zipIdx start).filter fun r => r.2 ≠ start + index).map (·.1) = xs.eraseIdx index := by
  induction xs generalizing start index with
  | nil => rfl
  | cons x xs ih =>
    rw [List.zipIdx_cons]
    cases index with
    | zero =>
      rw [List.filter_cons_of_neg (by simp), List.eraseIdx_cons_zero]
      have hall : ((xs.zipIdx (start + 1)).filter fun r => r.2 ≠ start + 0) =
          xs.zipIdx (start + 1) := by
        apply List.filter_eq_self.mpr
        intro r hr
        have hle := List.le_snd_of_mem_zipIdx hr
        simp only [ne_eq, decide_not, Bool.not_eq_true', decide_eq_false_iff_not]
        omega
      rw [hall, List.zipIdx_map_fst]
    | succ index =>
      rw [List.filter_cons_of_pos (by simp), List.eraseIdx_cons_succ, List.map_cons]
      have hshift : start + (index + 1) = start + 1 + index := by omega
      rw [hshift, ih]

omit [IsStrictOrderedRing K] in
theorem countP_below (others : List K) (p : K) :
    (others.map number).countP (fun q => lt q (number p)) = others.countP (· < p) := by
  rw [List.countP_map]
  rfl

omit [IsStrictOrderedRing K] in
theorem countP_equal (others : List K) (p : K) :
    (others.map number).countP (fun q => !lt q (number p) && eq q (number p)) =
      others.countP (· = p) := by
  rw [List.countP_map]
  apply List.countP_congr
  intro q _
  simp only [Function.comp_apply, ExactNumber.lt_number, ExactNumber.eq_number, Bool.and_eq_true,
    Bool.not_eq_true', decide_eq_false_iff_not, decide_eq_true_eq]
  refine ⟨fun h => h.2, fun h => ⟨?_, h⟩⟩
  rw [h]
  exact lt_irrefl p

theorem rank_number (ops : List K) (index : Nat) :
    ((lit 1 : ExactNumber K) +
        ofInt (((ops.eraseIdx index).map number).countP fun q => lt q (number (ops.getD index 0))) +
        lit 0.5 * ofInt (((ops.eraseIdx index).map number).countP fun q =>
          !lt q (number (ops.getD index 0)) && eq q (number (ops.getD index 0)))) /
      (ofInt ops.length + lit 1) = number (relativeRank ops index) := by
  have hpos : ((ops.length : Nat) : K) + 1 ≠ 0 := Nat.cast_add_one_ne_zero ops.length
  rw [countP_below, countP_equal]
  simp only [ExactNumber.lit_number, ExactNumber.ofInt_number, Int.cast_natCast, Rat.cast_one,
    ExactNumber.add_number, ExactNumber.mul_number]
  rw [ExactNumber.div_number _ _ hpos]
  unfold relativeRank
  have hhalf : ((0.5 : ℚ) : K) = 1 / 2 := by norm_num
  rw [hhalf, one_div_mul_eq_div, Nat.cast_ofNat]

theorem guardedRank_number (omega : K) :
    FloatOps.clamp (number omega) (lit 0.000000000001) (lit 1 - lit 0.000000000001) =
      number (guardedRank omega) := by
  have hlow : ((0.000000000001 : ℚ) : K) = 1 / 1000000000000 := by norm_num
  have hle : (1 / 1000000000000 : K) ≤ 1 - 1 / 1000000000000 := by norm_num
  rw [ExactNumber.lit_number, ExactNumber.lit_number, ExactNumber.sub_number, hlow, Rat.cast_one,
    ExactNumber.clamp_number _ _ _ hle]
  rfl

/-- What a sweep over performances finds: the champion's rank, and whether its performance is as
large as the stand-in. -/
theorem rankOf_number {ps : List (K × K)} (hne : ps ≠ []) :
    (let performances := asNumbers ps
    let champion := championOf performances
    let cp := (performances[champion]?).elim (lit 0) Prod.snd
    let others := (performances.zipIdx.filter fun r => r.2 ≠ champion).map fun r => r.1.2
    let below := others.countP fun p => lt p cp
    let equal := others.countP fun p => !lt p cp && eq p cp
    let rank : ExactNumber K := lit 1 + ofInt below + lit 0.5 * ofInt equal
    let omega := rank / (ofInt ps.length + lit 1)
    (FloatOps.clamp omega (lit 0.000000000001) (lit 1 - lit 0.000000000001),
      le CONSTANT_SERIES_PERFORMANCE (FloatOps.abs cp))) =
    (number (guardedRank (relativeRank (ps.map Prod.snd) (bestIndex (ps.map Prod.fst)))),
      decide (1000000000000 ≤ |(ps.map Prod.snd).getD (bestIndex (ps.map Prod.fst)) 0|)) := by
  dsimp only
  rw [championOf_number hne]
  generalize bestIndex (ps.map Prod.fst) = index
  have hcp : ((asNumbers ps)[index]?).elim (lit 0) Prod.snd =
      number ((ps.map Prod.snd).getD index 0) := by
    unfold asNumbers
    rw [List.getElem?_map, List.getD_eq_getElem?_getD, List.getElem?_map]
    cases ps[index]? with
    | none => exact lit_zero
    | some r => rfl
  have hothers : ((asNumbers ps).zipIdx.filter fun r => r.2 ≠ index).map (fun r => r.1.2) =
      ((ps.map Prod.snd).eraseIdx index).map number := by
    have herase := filter_zipIdx_ne (asNumbers ps) 0 index
    rw [Nat.zero_add] at herase
    have hsnd : ((asNumbers ps).eraseIdx index).map Prod.snd =
        ((ps.map Prod.snd).eraseIdx index).map number := by
      unfold asNumbers
      rw [List.eraseIdx_map, List.eraseIdx_map, List.map_map, List.map_map]
      rfl
    rw [← hsnd, ← herase, List.map_map]
    rfl
  have hrank := rank_number (ps.map Prod.snd) index
  rw [List.length_map] at hrank
  rw [hcp, hothers, hrank, guardedRank_number, standIn_number, ExactNumber.abs_number,
    ExactNumber.le_number]

end Rank

end Neoethos
