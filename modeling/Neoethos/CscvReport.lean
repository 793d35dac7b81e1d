import Neoethos.CscvEquality

namespace Neoethos

open Finset (powersetCard)
open FloatOps (lit ofInt lt le eq isFinite)
open ExactNumber (number)
open SampleMoments (Constant)

section Fields

variable {F : Type*} [FloatOps F] [FloatOps.Elementary F] {matrix : DecodedTrialMatrix F}
  {report : PboReport F}

def sweptSplits (matrix : DecodedTrialMatrix F) (groups : Nat) : List (F × Bool) :=
  (combinations groups (groups / 2)).map
    (splitRank (((groupBounds matrix.periods groups).map fun b => b.2 - b.1).map fun n : Nat =>
        ofInt (n : Int))
      ((matrix.rows.filter usableRow).map (groupSums (groupBounds matrix.periods groups))))

def sweptLogits (matrix : DecodedTrialMatrix F) (groups : Nat) : List F :=
  ((sweptSplits matrix groups).map Prod.fst).map fun omega =>
    FloatOps.Elementary.ln (omega / (lit 1 - omega))

/-- What an accepted matrix has, and what its report says. -/
structure Reported (matrix : DecodedTrialMatrix F) (report : PboReport F) : Prop where
  periods : MIN_PERIODS_FOR_PBO ≤ matrix.periods
  trials : MIN_TRIALS_FOR_PBO ≤ (matrix.rows.filter usableRow).length
  groups : report.groups = ((chooseGroups matrix.periods
    (matrix.rows.filter usableRow).length).getD
      (MIN_CSCV_GROUPS, binomial MIN_CSCV_GROUPS (MIN_CSCV_GROUPS / 2))).1
  ranked : report.trialsRanked = (matrix.rows.filter usableRow).length
  combinations : report.combinations = (sweptLogits matrix report.groups).length
  pbo : report.pbo = ofInt ((sweptLogits matrix report.groups).countP fun lambda =>
    le lambda (lit 0)) / ofInt (sweptLogits matrix report.groups).length
  meanLogit : report.meanLogit = FloatOps.sum (sweptLogits matrix report.groups) /
    ofInt (sweptLogits matrix report.groups).length
  degenerate : report.degenerateOosEvaluations =
    (sweptSplits matrix report.groups).countP Prod.snd

omit [FloatOps.Elementary F] in
theorem map_cast_eq (sizes : List Nat) :
    ((do let n ← sizes; pure (n : Int)).map ofInt : List F) =
      sizes.map fun n : Nat => ofInt (n : Int) := by
  rw [List.bind_eq_flatMap, List.map_flatMap]
  exact List.flatMap_pure_eq_map _ _

theorem pboCscv_reported (h : pboCscv matrix = .ok report) : Reported matrix report := by
  unfold pboCscv at h
  dsimp only at h
  rw [map_cast_eq] at h
  split at h
  next => cases h
  next hperiods =>
    split at h
    next => cases h
    next htrials =>
      split at h
      next => cases h
      next =>
        split at h
        next => cases h
        next =>
          cases h
          exact ⟨not_lt.mp hperiods, not_lt.mp htrials, rfl, rfl, rfl, rfl, rfl, rfl⟩

end Fields

section Equality

variable {K : Type*} [Field K] [LinearOrder K] [ExactRoots K] [IsStrictOrderedRing K]

/-- The grid is no longer than a ranked row, so that the slices of the sweep are in range. -/
def CoversGrid (matrix : DecodedTrialMatrix (ExactNumber K)) : Prop :=
  ∀ row ∈ matrix.rows, usableRow row = true → matrix.periods ≤ row.returns.length

/-- The report is that of the definition, up to the count of degenerate splits. -/
structure IsCscvReport (matrix : DecodedTrialMatrix (ExactNumber K))
    (report : PboReport (ExactNumber K)) : Prop where
  chosen : IsChosen matrix.periods (rankedSeries matrix).length report.groups
  tiled : (List.range report.groups).flatMap (groupMonths matrix.periods report.groups) =
    List.range matrix.periods
  even : ∀ g g', (groupMonths matrix.periods report.groups g).length ≤
    (groupMonths matrix.periods report.groups g').length + 1
  trialsRanked : report.trialsRanked = (rankedSeries matrix).length
  combinations : report.combinations = report.groups.choose (report.groups / 2)
  pbo : report.pbo = number (directPbo (rankedSeries matrix) matrix.periods report.groups)
  meanLogit : report.meanLogit =
    number (directMeanLogit (rankedSeries matrix) matrix.periods report.groups)
  unguarded : (rankedSeries matrix).length < 10 ^ 12 → ∀ chosen,
    guardedRank (championRank (rankedSeries matrix) matrix.periods report.groups chosen) =
      championRank (rankedSeries matrix) matrix.periods report.groups chosen

omit [ExactRoots K] in
theorem logit_number [ExactFunctions K] (omega : K) :
    FloatOps.Elementary.ln (number (guardedRank omega) / (lit 1 - number (guardedRank omega))) =
      number (logit (guardedRank omega)) := by
  have hlow : (0 : K) < 1 / 1000000000000 := by norm_num
  have hpos : 0 < guardedRank omega := hlow.trans_le (le_max_left _ _)
  have hle : (1 / 1000000000000 : K) ≤ 1 - 1 / 1000000000000 := by norm_num
  have hbelow : guardedRank omega < 1 :=
    (max_le hle (min_le_right _ _)).trans_lt (sub_lt_self 1 hlow)
  have hrest : 0 < 1 - guardedRank omega := sub_pos.mpr hbelow
  rw [ExactNumber.lit_number, Rat.cast_one, ExactNumber.sub_number,
    ExactNumber.div_number _ _ hrest.ne', ExactNumber.ln_number _ (div_pos hpos hrest)]
  rfl

variable {matrix : DecodedTrialMatrix (ExactNumber K)} {report : PboReport (ExactNumber K)}

theorem sweptSplits_number (hgrid : CoversGrid matrix) {groups : Nat}
    (hlong : 0 < matrix.periods / groups) (hne : rankedSeries matrix ≠ []) (hgroups : 2 ≤ groups) :
    sweptSplits matrix groups = (combinations groups (groups / 2)).map fun chosen =>
      (number (guardedRank
          (championRank (rankedSeries matrix) matrix.periods groups chosen.toFinset)),
        countedDegenerate (rankedSeries matrix) matrix.periods groups chosen.toFinset) := by
  have hvisits := combinations_visits (n := groups) (k := groups / 2) (by omega) (by omega)
  have hrows : ∀ row ∈ matrix.rows.filter usableRow, matrix.periods ≤ row.returns.length := by
    intro row hrow
    obtain ⟨hmem, husable⟩ := List.mem_filter.mp hrow
    exact hgrid row hmem husable
  unfold sweptSplits
  apply List.map_congr_left
  intro chosen hchosen
  exact splitRank_number hrows hlong hne (hvisits.valid chosen hchosen) hgroups

theorem sweptLogits_number (hgrid : CoversGrid matrix) {groups : Nat}
    (hlong : 0 < matrix.periods / groups) (hne : rankedSeries matrix ≠ []) (hgroups : 2 ≤ groups) :
    sweptLogits matrix groups = ((combinations groups (groups / 2)).map fun chosen =>
      splitLogit (rankedSeries matrix) matrix.periods groups chosen.toFinset).map number := by
  unfold sweptLogits
  rw [sweptSplits_number hgrid hlong hne hgroups, List.map_map, List.map_map, List.map_map]
  apply List.map_congr_left
  intro chosen _
  exact logit_number _

omit [IsStrictOrderedRing K] in
theorem rankedSeries_covered (hgrid : CoversGrid matrix) :
    ∀ xs ∈ rankedSeries matrix, matrix.periods ≤ xs.length := by
  intro xs hxs
  have hmem : xs.map number ∈ (matrix.rows.filter usableRow).map (·.returns) := by
    rw [usable_returns]
    exact List.mem_map_of_mem hxs
  obtain ⟨row, hrow, heq⟩ := List.mem_map.mp hmem
  obtain ⟨hrow, husable⟩ := List.mem_filter.mp hrow
  have hlength := hgrid row hrow husable
  rw [heq, List.length_map] at hlength
  exact hlength

omit [ExactRoots K] in
/-- With fewer trials than the guard's step has parts, no rank comes near an end. -/
theorem guardedRank_relativeRank {ps : List K} (hfew : ps.length < 10 ^ 12) {index : Nat}
    (hindex : index < ps.length) :
    guardedRank (relativeRank ps index) = relativeRank ps index := by
  have hpos : (0 : K) < ps.length + 1 := Nat.cast_add_one_pos ps.length
  have hothers : (ps.eraseIdx index).length + 1 = ps.length := by
    rw [List.length_eraseIdx_of_lt hindex]
    omega
  unfold relativeRank
  rw [Nat.cast_ofNat]
  dsimp only
  generalize hp : ps.getD index 0 = p
  have hsplit : (ps.eraseIdx index).countP (· < p) + (ps.eraseIdx index).countP (· = p) ≤
      (ps.eraseIdx index).length := by
    rw [List.length_eq_countP_add_countP (· < p)]
    apply Nat.add_le_add_left
    apply List.countP_mono_left
    intro q _ hq
    simp only [decide_eq_true_eq] at hq
    simp [hq]
  generalize (ps.eraseIdx index).countP (· < p) = below at hsplit ⊢
  generalize (ps.eraseIdx index).countP (· = p) = equal at hsplit ⊢
  have hbelow : (0 : K) ≤ below := Nat.cast_nonneg below
  have hequal : (0 : K) ≤ equal := Nat.cast_nonneg equal
  have hsum : (below : K) + equal + 1 ≤ ps.length := by
    rw [← hothers]
    exact_mod_cast Nat.succ_le_succ hsplit
  have hmany : (ps.length : K) + 1 ≤ 1000000000000 := by
    have hle : ps.length + 1 ≤ 1000000000000 := by omega
    exact_mod_cast hle
  have hlow : (1 / 1000000000000 : K) ≤ (1 + below + equal / 2) / (ps.length + 1) := by
    rw [div_le_div_iff₀ (by norm_num) hpos]
    linarith
  have hup : (1 + below + equal / 2) / (ps.length + 1) ≤ (1 - 1 / 1000000000000 : K) := by
    rw [div_le_iff₀ hpos]
    linarith
  unfold guardedRank
  rw [min_eq_left hup, max_eq_right hlow]

theorem IsChosen.bounds {periods nTrials groups : Nat} (h : IsChosen periods nTrials groups)
    (hperiods : MIN_PERIODS_FOR_PBO ≤ periods) : 2 ≤ groups ∧ 0 < periods / groups := by
  unfold MIN_PERIODS_FOR_PBO MIN_CSCV_GROUPS MIN_PERIODS_PER_GROUP at hperiods
  rcases h with ⟨hfits, -⟩ | ⟨-, rfl⟩
  · have hleast := hfits.least
    have hlong := hfits.long
    unfold MIN_CSCV_GROUPS at hleast
    unfold MIN_PERIODS_PER_GROUP at hlong
    exact ⟨by omega, Nat.lt_of_lt_of_le Nat.zero_lt_two hlong⟩
  · unfold MIN_CSCV_GROUPS
    omega

/-- The sweep computes the statistic as it is defined; its count of constant champions is right
where the silent ones that it misses are as many as the inflated ones that it counts. -/
theorem pboCscv_direct (hgrid : CoversGrid matrix) (h : pboCscv matrix = .ok report) :
    IsCscvReport matrix report ∧
    (report.degenerateOosEvaluations =
        constantSplits (rankedSeries matrix) matrix.periods report.groups ↔
      silentSplits (rankedSeries matrix) matrix.periods report.groups =
        inflatedSplits (rankedSeries matrix) matrix.periods report.groups) := by
  have hreported := pboCscv_reported h
  have hchosen : IsChosen matrix.periods (rankedSeries matrix).length report.groups := by
    rw [hreported.groups, ← length_usable]
    exact chooseGroups_chosen
  obtain ⟨hgroups, hlong⟩ := hchosen.bounds hreported.periods
  have hne : rankedSeries matrix ≠ [] := by
    have htrials := hreported.trials
    rw [length_usable] at htrials
    intro hnil
    rw [hnil, List.length_nil] at htrials
    exact absurd htrials (by decide)
  have hlogits := sweptLogits_number hgrid hlong hne hgroups
  have hsplits := sweptSplits_number hgrid hlong hne hgroups
  have hhalf : 0 < report.groups / 2 := by omega
  have hhalf' : report.groups / 2 ≤ report.groups := by omega
  have hlength : (sweptLogits matrix report.groups).length =
      report.groups.choose (report.groups / 2) := by
    rw [hlogits, List.length_map, List.length_map, length_combinations hhalf hhalf']
  have hsplitsPos : ((report.groups.choose (report.groups / 2) : Nat) : K) ≠ 0 := by
    rw [Nat.cast_ne_zero]
    exact (Nat.choose_pos hhalf').ne'
  refine ⟨⟨hchosen, groups_tile (by omega), groupMonths_even _ _, ?_, ?_, ?_, ?_, ?_⟩, ?_⟩
  · rw [hreported.ranked, length_usable]
  · rw [hreported.combinations, hlength]
  · rw [hreported.pbo, hlength, hlogits, List.countP_map, List.countP_map, ExactNumber.ofInt_number,
      ExactNumber.ofInt_number, Int.cast_natCast, Int.cast_natCast,
      ExactNumber.div_number _ _ hsplitsPos]
    have hbelow : ((fun lambda : ExactNumber K => le lambda (lit 0)) ∘ number) =
        fun lambda => decide (lambda ≤ 0) := by
      funext lambda
      rw [Function.comp_apply, lit_zero, ExactNumber.le_number]
    have hcount := countP_combinations hhalf hhalf' fun chosen => decide
      (splitLogit (rankedSeries matrix) matrix.periods report.groups chosen ≤ 0)
    simp only [decide_eq_true_eq] at hcount
    unfold directPbo halves
    rw [hbelow, ← hcount]
    rfl
  · rw [hreported.meanLogit, hlength, hlogits, ExactNumber.sum_number, ExactNumber.ofInt_number,
      Int.cast_natCast, ExactNumber.div_number _ _ hsplitsPos,
      sum_combinations hhalf hhalf' (splitLogit (rankedSeries matrix) matrix.periods report.groups)]
    rfl
  · intro hfew chosen
    have hindex := splitChampion_lt hne matrix.periods report.groups chosen
    unfold championRank performancesOver
    exact guardedRank_relativeRank (by rw [List.length_map]; exact hfew)
      (by rw [List.length_map]; exact hindex)
  · have hbalance := degenerate_balance (rankedSeries_covered hgrid) hne hlong hgroups
    have hcounted : report.degenerateOosEvaluations =
        (combinations report.groups (report.groups / 2)).countP fun chosen =>
          countedDegenerate (rankedSeries matrix) matrix.periods report.groups
            chosen.toFinset := by
      rw [hreported.degenerate, hsplits, List.countP_map]
      rfl
    rw [hcounted, countP_combinations hhalf hhalf' (countedDegenerate (rankedSeries matrix)
      matrix.periods report.groups)]
    unfold halves at hbalance
    omega

/-- One trial gains in the first two months and then rests; the others lose in every month. -/
def restingMatrix : DecodedTrialMatrix (ExactNumber ℚ) where
  version := 1
  flags := 0
  initialBalance := number 10000
  periodKeys := List.replicate 16 0
  rows := ⟨0, "rests", ([3, 1] ++ List.replicate 14 0).map number⟩ ::
    List.replicate 9 ⟨1, "loses", ((List.range 8).flatMap fun _ => [-1, -2]).map number⟩
  headerTrials := 10
  truncatedTailBytes := 0

theorem restingMatrix_covered : CoversGrid restingMatrix := by
  unfold CoversGrid
  decide +kernel

theorem restingMatrix_reported : ∃ report, pboCscv restingMatrix = .ok report ∧
    report.groups = 8 ∧ report.degenerateOosEvaluations = 0 := by
  have hrun : (pboCscv restingMatrix).toOption.map (fun report =>
      (report.groups, report.degenerateOosEvaluations)) = some (8, 0) := by decide +kernel
  cases h : pboCscv restingMatrix with
  | error refusal => rw [h] at hrun; cases hrun
  | ok report =>
    rw [h] at hrun
    have hfields := Option.some.inj hrun
    rw [Prod.mk.injEq] at hfields
    exact ⟨report, rfl, hfields⟩

/-- The champion that rests out of sample is not counted in any of its splits. -/
theorem resting_champion_uncounted : ∃ (matrix : DecodedTrialMatrix (ExactNumber ℚ))
    (report : PboReport (ExactNumber ℚ)), CoversGrid matrix ∧ pboCscv matrix = .ok report ∧
      report.degenerateOosEvaluations = 0 ∧
      constantSplits (rankedSeries matrix) matrix.periods report.groups = 35 := by
  obtain ⟨report, hreport, hgroups, hdegenerate⟩ := restingMatrix_reported
  refine ⟨restingMatrix, report, restingMatrix_covered, hreport, hdegenerate, ?_⟩
  rw [hgroups]
  decide +kernel

theorem restingMatrix_direct : ∃ report, pboCscv restingMatrix = .ok report ∧
    IsCscvReport restingMatrix report ∧
    (report.degenerateOosEvaluations =
        constantSplits (rankedSeries restingMatrix) restingMatrix.periods report.groups ↔
      silentSplits (rankedSeries restingMatrix) restingMatrix.periods report.groups =
        inflatedSplits (rankedSeries restingMatrix) restingMatrix.periods report.groups) := by
  obtain ⟨report, hreport, -⟩ := restingMatrix_reported
  exact ⟨report, hreport, pboCscv_direct restingMatrix_covered hreport⟩

end Equality

end Neoethos
