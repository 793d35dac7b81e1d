import Neoethos.CscvSweep
import Mathlib.Algebra.Group.Nat.Even
import Mathlib.Algebra.BigOperators.Group.Finset.Piecewise
import Mathlib.Order.Bounds.Defs

namespace Neoethos

open Finset (powersetCard)
open FloatOps (lit ofInt lt le eq isFinite)
open ExactNumber (number)
open SampleMoments (mean variance Constant)
open Selection (pick Within)

section Choice

theorem foldl_binomial (n : Nat) (k : Nat) (hk : k ≤ n) :
    (List.range k).foldl (fun acc i => acc * (n - i) / (i + 1)) 1 = n.choose k := by
  induction k with
  | zero => rw [Nat.choose_zero_right]; rfl
  | succ k ih =>
    rw [List.range_succ, List.foldl_append, ih (by omega), List.foldl_cons, List.foldl_nil,
      ← Nat.choose_succ_right_eq]
    exact Nat.mul_div_cancel _ (Nat.succ_pos k)

theorem binomial_eq_choose (n k : Nat) : binomial n k = n.choose k := by
  unfold binomial
  split
  next hlt => rw [Nat.choose_eq_zero_of_lt hlt]
  next hle =>
    rw [foldl_binomial n _ (by omega)]
    rcases Nat.le_total k (n - k) with hk | hk
    · rw [Nat.min_eq_left hk]
    · rw [Nat.min_eq_right hk]
      exact Nat.choose_symm (by omega)

/-- A group count that the sweep can take: its groups are long enough, and the work fits. -/
structure FitsBudget (periods nTrials groups : Nat) : Prop where
  even : Even groups
  least : MIN_CSCV_GROUPS ≤ groups
  greatest : groups ≤ MAX_CSCV_GROUPS
  long : MIN_PERIODS_PER_GROUP ≤ periods / groups
  work : groups.choose (groups / 2) * nTrials * groups ≤ CSCV_WORK_BUDGET

def IsChosen (periods nTrials groups : Nat) : Prop :=
  IsGreatest {S | FitsBudget periods nTrials S} groups ∨
    (∀ S, ¬FitsBudget periods nTrials S) ∧ groups = MIN_CSCV_GROUPS

theorem mem_groupCounts {S : Nat} (heven : Even S) (hleast : MIN_CSCV_GROUPS ≤ S)
    (hgreatest : S ≤ MAX_CSCV_GROUPS) : S ∈ [16, 14, 12, 10, 8] := by
  unfold MIN_CSCV_GROUPS at hleast
  unfold MAX_CSCV_GROUPS at hgreatest
  obtain ⟨m, rfl⟩ := heven
  have hm : m = 4 ∨ m = 5 ∨ m = 6 ∨ m = 7 ∨ m = 8 := by omega
  rcases hm with rfl | rfl | rfl | rfl | rfl <;> decide

theorem find?_greatest {p : Nat → Bool} {xs : List Nat} (hdesc : xs.Pairwise (· > ·)) {x : Nat}
    (h : xs.find? p = some x) : ∀ y ∈ xs, p y = true → y ≤ x := by
  induction xs with
  | nil => cases h
  | cons z zs ih =>
    obtain ⟨hhead, htail⟩ := List.pairwise_cons.mp hdesc
    intro y hy hp
    by_cases hz : p z = true
    · rw [List.find?_cons_of_pos hz] at h
      obtain rfl := Option.some.inj h
      rcases List.mem_cons.mp hy with rfl | hy
      · exact le_rfl
      · exact (hhead y hy).le
    · rw [List.find?_cons_of_neg hz] at h
      rcases List.mem_cons.mp hy with rfl | hy
      · exact absurd hp hz
      · exact ih htail h y hy hp

theorem fitsBudget_iff {periods nTrials S : Nat} (h : S ∈ [16, 14, 12, 10, 8]) :
    FitsBudget periods nTrials S ↔ (MIN_PERIODS_PER_GROUP ≤ periods / S &&
      binomial S (S / 2) * nTrials * S ≤ CSCV_WORK_BUDGET) = true := by
  have hrange : Even S ∧ MIN_CSCV_GROUPS ≤ S ∧ S ≤ MAX_CSCV_GROUPS := by
    revert S
    decide
  rw [Bool.and_eq_true, decide_eq_true_eq, decide_eq_true_eq, binomial_eq_choose]
  constructor
  · exact fun hfits => ⟨hfits.long, hfits.work⟩
  · exact fun ⟨hlong, hwork⟩ => ⟨hrange.1, hrange.2.1, hrange.2.2, hlong, hwork⟩

theorem chooseGroups_chosen {periods nTrials : Nat} :
    IsChosen periods nTrials ((chooseGroups periods nTrials).getD
      (MIN_CSCV_GROUPS, binomial MIN_CSCV_GROUPS (MIN_CSCV_GROUPS / 2))).1 := by
  unfold chooseGroups
  cases hfind : [16, 14, 12, 10, 8].find? fun groups =>
      MIN_PERIODS_PER_GROUP ≤ periods / groups &&
        binomial groups (groups / 2) * nTrials * groups ≤ CSCV_WORK_BUDGET with
  | some S =>
    left
    have hmem := List.mem_of_find?_eq_some hfind
    have hfits := List.find?_some hfind
    refine ⟨(fitsBudget_iff hmem).mpr hfits, ?_⟩
    intro S' hfits
    have hmem' := mem_groupCounts hfits.even hfits.least hfits.greatest
    exact find?_greatest (by decide) hfind S' hmem' ((fitsBudget_iff hmem').mp hfits)
  | none =>
    right
    refine ⟨?_, rfl⟩
    intro S hfits
    have hmem := mem_groupCounts hfits.even hfits.least hfits.greatest
    exact List.find?_eq_none.mp hfind S hmem ((fitsBudget_iff hmem).mp hfits)

end Choice

section Splits

variable {K : Type*} [Field K] [LinearOrder K] [ExactRoots K] [IsStrictOrderedRing K]
  {periods groups : Nat}

omit [IsStrictOrderedRing K] in
theorem splitChampion_lt {series : List (List K)} (hne : series ≠ []) (periods groups : Nat)
    (chosen : Finset Nat) : splitChampion series periods groups chosen < series.length := by
  have hperformances : performancesOver series (monthsOf periods groups chosen) ≠ [] := by
    unfold performancesOver
    simpa using hne
  have hlt := bestIndex_lt hperformances
  unfold performancesOver at hlt
  rw [List.length_map] at hlt
  exact hlt

/-- The performances of all trials in the two halves of a split. -/
def splitPairs (series : List (List K)) (inMonths outMonths : List Nat) : List (K × K) :=
  series.map fun xs => (samplePerformance (pick inMonths xs), samplePerformance (pick outMonths xs))

theorem splitPerformances_number {rows : List (DecodedTrialRow (ExactNumber K))}
    {series : List (List K)} (hrows : rows.map (·.returns) = series.map (·.map number))
    (hgrid : ∀ row ∈ rows, periods ≤ row.returns.length) (hlong : 0 < periods / groups)
    (hgroups : 0 < groups) {chosen : List Nat}
    (hin : (List.range groups).filter (· ∈ chosen) = chosen) (hinne : chosen ≠ [])
    (hoosne : (List.range groups).filter (· ∉ chosen) ≠ []) :
    (rows.map (groupSums (groupBounds periods groups))).map (fun s => splitPerformance s chosen
        (number ((monthsIn periods groups chosen).length : K))
        (number ((monthsIn periods groups
          ((List.range groups).filter (· ∉ chosen))).length : K))) =
      asNumbers (splitPairs series (monthsIn periods groups chosen)
        (monthsIn periods groups ((List.range groups).filter (· ∉ chosen)))) := by
  induction rows generalizing series with
  | nil =>
    have hnil : series = [] := by
      cases series with
      | nil => rfl
      | cons xs rest => cases hrows
    rw [hnil]
    rfl
  | cons row rows ih =>
    cases series with
    | nil => cases hrows
    | cons xs series =>
      rw [List.map_cons, List.map_cons, List.cons.injEq] at hrows
      have hlength : periods ≤ xs.length := by
        have hrow := hgrid row List.mem_cons_self
        rw [hrows.1, List.length_map] at hrow
        exact hrow
      have htail := ih hrows.2 fun other hother => hgrid other (List.mem_cons_of_mem _ hother)
      rw [List.map_cons, List.map_cons, htail,
        splitPerformance_number row hrows.1 hgroups hlong hlength hin hinne hoosne]
      rfl

/-- One split of the sweep is the split of the definition. -/
theorem splitRank_number {matrix : DecodedTrialMatrix (ExactNumber K)}
    (hgrid : ∀ row ∈ matrix.rows.filter usableRow, periods ≤ row.returns.length)
    (hlong : 0 < periods / groups) (hne : rankedSeries matrix ≠ []) {chosen : List Nat}
    (hchosen : IsCombination groups (groups / 2) chosen) (hgroups : 2 ≤ groups) :
    splitRank (((groupBounds periods groups).map fun b => b.2 - b.1).map fun n : Nat =>
        (ofInt (n : Int) : ExactNumber K))
      ((matrix.rows.filter usableRow).map (groupSums (groupBounds periods groups))) chosen =
    (number (guardedRank (championRank (rankedSeries matrix) periods groups chosen.toFinset)),
      countedDegenerate (rankedSeries matrix) periods groups chosen.toFinset) := by
  have hin : (List.range groups).filter (· ∈ chosen) = chosen := by
    have hfilter := hchosen.filter_eq
    simp only [List.mem_toFinset] at hfilter
    exact hfilter
  have hinne : chosen ≠ [] := by
    rw [ne_eq, ← List.length_eq_zero_iff, hchosen.length]
    omega
  have hoosne : (List.range groups).filter (· ∉ chosen) ≠ [] := by
    have hsplit := List.length_eq_length_filter_add (l := List.range groups) (· ∈ chosen)
    rw [hin, hchosen.length, List.length_range] at hsplit
    intro hnil
    have hnot : (List.range groups).filter (fun g => !decide (g ∈ chosen)) = [] := by
      simpa using hnil
    rw [hnot, List.length_nil] at hsplit
    omega
  have hpairs := splitPerformances_number (usable_returns matrix) hgrid hlong (by omega) hin hinne
    hoosne
  have hinMonths : monthsIn periods groups chosen = monthsOf periods groups chosen.toFinset := by
    unfold monthsOf
    rw [hchosen.filter_eq]
    rfl
  have houtMonths : monthsIn periods groups ((List.range groups).filter (· ∉ chosen)) =
      outOfSample periods groups chosen.toFinset := by
    unfold outOfSample monthsOf monthsIn
    congr 1
    apply List.filter_congr
    intro g hg
    simp [List.mem_range.mp hg]
  have hpairsne : splitPairs (rankedSeries matrix)
      (monthsIn periods groups chosen)
      (monthsIn periods groups ((List.range groups).filter (· ∉ chosen))) ≠ [] := by
    unfold splitPairs
    simpa using hne
  have hrank := rankOf_number hpairsne
  have hcount : ((matrix.rows.filter usableRow).map
      (groupSums (groupBounds periods groups))).length = (splitPairs (rankedSeries matrix)
        (monthsIn periods groups chosen)
        (monthsIn periods groups ((List.range groups).filter (· ∉ chosen)))).length := by
    unfold splitPairs
    rw [List.length_map, List.length_map, length_usable]
  unfold splitRank
  dsimp only at hrank ⊢
  rw [groupSizes_number, isCount_number hchosen.below, oosCount_number, hpairs, hcount, hrank]
  have hfst : (splitPairs (rankedSeries matrix) (monthsIn periods groups chosen)
      (monthsIn periods groups ((List.range groups).filter (· ∉ chosen)))).map Prod.fst =
      performancesOver (rankedSeries matrix) (monthsOf periods groups chosen.toFinset) := by
    unfold splitPairs performancesOver
    rw [List.map_map, hinMonths]
    rfl
  have hsnd : (splitPairs (rankedSeries matrix) (monthsIn periods groups chosen)
      (monthsIn periods groups ((List.range groups).filter (· ∉ chosen)))).map Prod.snd =
      performancesOver (rankedSeries matrix) (outOfSample periods groups chosen.toFinset) := by
    unfold splitPairs performancesOver
    rw [List.map_map, houtMonths]
    rfl
  have hchampion := splitChampion_lt hne periods groups chosen.toFinset
  have hperformance : (performancesOver (rankedSeries matrix)
      (outOfSample periods groups chosen.toFinset)).getD
        (splitChampion (rankedSeries matrix) periods groups chosen.toFinset) 0 =
      samplePerformance (championSeries (rankedSeries matrix) periods groups chosen.toFinset) := by
    unfold performancesOver championSeries
    rw [List.getD_eq_getElem?_getD, List.getElem?_map, List.getD_eq_getElem?_getD,
      List.getElem?_eq_getElem hchampion]
    rfl
  unfold countedDegenerate championRank
  rw [hfst, hsnd, ← hperformance]
  rfl

end Splits

section Degenerate

variable {K : Type*} [Field K] [LinearOrder K] [ExactRoots K] [IsStrictOrderedRing K]

/-- The stand-in is counted for a constant sample, unless it is all zero. -/
theorem standIn_le_iff {xs : List K} (hne : xs ≠ []) :
    1000000000000 ≤ |samplePerformance xs| ↔
      (Constant xs ∧ ¬∀ x ∈ xs, x = 0) ∨
      (¬Constant xs ∧ 1000000000000 ≤ |mean xs / ExactFunctions.sqrt (variance xs)|) := by
  unfold samplePerformance
  by_cases hconstant : Constant xs
  · rw [if_pos ((SampleMoments.variance_eq_zero_iff hne).mpr hconstant)]
    have hmean : ∀ x ∈ xs, mean xs = x := fun x hx =>
      SampleMoments.mean_of_forall_eq hne fun y hy => hconstant y hy x hx
    have hzero : (∀ x ∈ xs, x = 0) ↔ mean xs = 0 := by
      constructor
      · exact fun hall => SampleMoments.mean_of_forall_eq hne hall
      · exact fun hm x hx => (hmean x hx).symm.trans hm
    have hbig : |(1000000000000 : K)| = 1000000000000 := abs_of_nonneg (by norm_num)
    simp only [hconstant, true_and, not_true_eq_false, false_and, or_false, hzero]
    rcases lt_trichotomy (mean xs) 0 with hneg | hnull | hpos
    · rw [if_neg (not_lt.mpr hneg.le), if_pos hneg, abs_neg, hbig]
      exact ⟨fun _ => hneg.ne, fun _ => le_rfl⟩
    · rw [hnull, if_neg (lt_irrefl 0), if_neg (lt_irrefl 0), abs_zero]
      exact ⟨fun h => absurd h (by norm_num), fun h => absurd rfl h⟩
    · rw [if_pos hpos, hbig]
      exact ⟨fun _ => hpos.ne', fun _ => le_rfl⟩
  · rw [if_neg (mt (SampleMoments.variance_eq_zero_iff hne).mp hconstant)]
    simp only [hconstant, false_and, not_false_eq_true, true_and, false_or]

variable {series : List (List K)} {periods groups : Nat}

omit [IsStrictOrderedRing K] in
theorem championSeries_ne_nil (hseries : ∀ xs ∈ series, periods ≤ xs.length) (hne : series ≠ [])
    (hlong : 0 < periods / groups) (hgroups : 2 ≤ groups) {chosen : Finset Nat}
    (hchosen : chosen ∈ halves groups) : championSeries series periods groups chosen ≠ [] := by
  obtain ⟨hsub, hcard⟩ := Finset.mem_powersetCard.mp hchosen
  obtain ⟨g, hg, hout⟩ : ∃ g ∈ Finset.range groups, g ∉ chosen := by
    apply Finset.exists_mem_notMem_of_card_lt_card
    rw [hcard, Finset.card_range]
    omega
  have hmonths : outOfSample periods groups chosen ≠ [] := by
    have hkept : (List.range groups).filter (· ∈ Finset.range groups \ chosen) ≠ [] := by
      apply List.ne_nil_of_mem (a := g)
      rw [List.mem_filter]
      exact ⟨List.mem_range.mpr (Finset.mem_range.mp hg),
        decide_eq_true (Finset.mem_sdiff.mpr ⟨hg, hout⟩)⟩
    exact monthsIn_ne_nil hkept hlong
  have hchampion := splitChampion_lt hne periods groups chosen
  have hrow := hseries _ (List.getElem_mem hchampion)
  have hwithin : Within (outOfSample periods groups chosen)
      (series[splitChampion series periods groups chosen]).length :=
    within_monthsIn (by omega) (fun g hg => List.mem_range.mp (List.mem_filter.mp hg).1) hrow
  have hcount := Selection.length_pick hwithin
  intro hnil
  unfold championSeries at hnil
  rw [List.getD_eq_getElem?_getD, List.getElem?_eq_getElem hchampion, Option.getD_some] at hnil
  rw [hnil, List.length_nil] at hcount
  exact hmonths (List.length_eq_zero_iff.mp hcount.symm)

/-- What the counter misses and what it counts beside the constant samples. -/
theorem degenerate_balance (hseries : ∀ xs ∈ series, periods ≤ xs.length) (hne : series ≠ [])
    (hlong : 0 < periods / groups) (hgroups : 2 ≤ groups) :
    ((halves groups).filter fun chosen =>
        countedDegenerate series periods groups chosen = true).card +
      silentSplits series periods groups =
    constantSplits series periods groups + inflatedSplits series periods groups := by
  unfold silentSplits constantSplits inflatedSplits
  simp only [Finset.card_filter]
  rw [← Finset.sum_add_distrib, ← Finset.sum_add_distrib]
  apply Finset.sum_congr rfl
  intro chosen hchosen
  have hxs := championSeries_ne_nil hseries hne hlong hgroups hchosen
  have hcounted := standIn_le_iff hxs
  have hzero : (∀ x ∈ championSeries series periods groups chosen, x = 0) →
      Constant (championSeries series periods groups chosen) := by
    intro hall x hx y hy
    rw [hall x hx, hall y hy]
  unfold countedDegenerate
  simp only [decide_eq_true_eq, hcounted]
  by_cases hconstant : Constant (championSeries series periods groups chosen)
  · by_cases hall : ∀ x ∈ championSeries series periods groups chosen, x = 0
    · simp only [hconstant, not_true_eq_false, false_and, or_false, true_and, if_pos hall, if_true,
        if_false]
      rw [if_neg (not_not.mpr hall)]
    · simp only [hconstant, not_true_eq_false, false_and, or_false, true_and, if_neg hall, if_true,
        if_false]
      rw [if_pos hall]
  · have hnot : ¬∀ x ∈ championSeries series periods groups chosen, x = 0 := mt hzero hconstant
    simp only [hconstant, false_and, false_or, not_false_eq_true, true_and, if_neg hnot, if_false]
    omega

end Degenerate

end Neoethos
