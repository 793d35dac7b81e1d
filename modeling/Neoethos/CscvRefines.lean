import Neoethos.CscvSplits
import Neoethos.ExactFloats
import Neoethos.ListIndex
import Neoethos.SampleMoments

namespace Neoethos

open Finset (powersetCard range)
open SampleMoments (mean variance Constant)
open Selection (pick Within)
open FloatOps (lit ofInt lt le eq isFinite)
open ExactNumber (number)

section Groups

/-- The first groups take a month more, as far as there are any over. -/
def groupStart (periods groups g : Nat) : Nat :=
  g * (periods / groups) + min g (periods % groups)

def groupMonths (periods groups g : Nat) : List Nat :=
  List.range' (groupStart periods groups g)
    (groupStart periods groups (g + 1) - groupStart periods groups g)

def monthsOf (periods groups : Nat) (chosen : Finset Nat) : List Nat :=
  ((List.range groups).filter (· ∈ chosen)).flatMap (groupMonths periods groups)

end Groups

section Definition

variable {K : Type*} [Field K] [LinearOrder K] [ExactFunctions K]

def samplePerformance (xs : List K) : K :=
  if variance xs = 0 then
    if 0 < mean xs then 1000000000000 else if mean xs < 0 then -1000000000000 else 0
  else mean xs / ExactFunctions.sqrt (variance xs)

def rankedRow (row : DecodedTrialRow (ExactNumber K)) : Option (List K) :=
  (row.returns.mapM ExactNumber.number?).filter fun xs => ¬Constant xs

def rankedSeries (matrix : DecodedTrialMatrix (ExactNumber K)) : List (List K) :=
  matrix.rows.filterMap rankedRow

def bestIndex (performances : List K) : Nat :=
  performances.findIdx fun p => ∀ q ∈ performances, q ≤ p

/-- The mid-rank from the worst on, over one more than there are. -/
def relativeRank (performances : List K) (index : Nat) : K :=
  let p := performances.getD index 0
  let others := performances.eraseIdx index
  (1 + others.countP (· < p) + others.countP (· = p) / (2 : ℕ)) / (performances.length + 1)

/-- A rank stays off the ends of the unit interval by the least step that is used. -/
def guardedRank (omega : K) : K :=
  max (1 / 1000000000000) (min omega (1 - 1 / 1000000000000))

def logit (omega : K) : K := ExactFunctions.ln (omega / (1 - omega))

variable (series : List (List K)) (periods groups : Nat) (chosen : Finset Nat)

def performancesOver (months : List Nat) : List K :=
  series.map fun xs => samplePerformance (pick months xs)

def splitChampion : Nat := bestIndex (performancesOver series (monthsOf periods groups chosen))

def outOfSample : List Nat := monthsOf periods groups (range groups \ chosen)

def championRank : K :=
  relativeRank (performancesOver series (outOfSample periods groups chosen))
    (splitChampion series periods groups chosen)

def splitLogit : K := logit (guardedRank (championRank series periods groups chosen))

def championSeries : List K :=
  pick (outOfSample periods groups chosen)
    (series.getD (splitChampion series periods groups chosen) [])

def halves : Finset (Finset Nat) := powersetCard (groups / 2) (range groups)

def directPbo : K :=
  ((halves groups).filter fun chosen => splitLogit series periods groups chosen ≤ 0).card /
    groups.choose (groups / 2)

def directMeanLogit : K :=
  (∑ chosen ∈ halves groups, splitLogit series periods groups chosen) /
    groups.choose (groups / 2)

/-- The splits whose champion earned the same in every month out of sample. -/
def constantSplits : Nat :=
  ((halves groups).filter fun chosen =>
    Constant (championSeries series periods groups chosen)).card

def silentSplits : Nat :=
  ((halves groups).filter fun chosen =>
    ∀ x ∈ championSeries series periods groups chosen, x = 0).card

/-- The splits whose champion's performance out of sample is a real one, yet no smaller than the
stand-in. -/
def inflatedSplits : Nat :=
  ((halves groups).filter fun chosen =>
    let xs := championSeries series periods groups chosen
    ¬Constant xs ∧ 1000000000000 ≤ |mean xs / ExactFunctions.sqrt (variance xs)|).card

def countedDegenerate : Bool :=
  decide (1000000000000 ≤ |samplePerformance (championSeries series periods groups chosen)|)

end Definition

section Groups

variable {periods groups : Nat}

theorem groupStart_succ (periods groups g : Nat) : groupStart periods groups (g + 1) =
    groupStart periods groups g +
      (periods / groups + if g < periods % groups then 1 else 0) := by
  unfold groupStart
  rw [Nat.succ_mul]
  split <;> omega

theorem groupStart_zero (periods groups : Nat) : groupStart periods groups 0 = 0 := by
  unfold groupStart
  rw [Nat.zero_mul, Nat.zero_min]

theorem groupStart_last (hgroups : 0 < groups) : groupStart periods groups groups = periods := by
  unfold groupStart
  have hrest := Nat.mod_lt periods hgroups
  rw [Nat.min_eq_right hrest.le]
  exact Nat.div_add_mod periods groups

theorem groupStart_mono (periods groups : Nat) : Monotone (groupStart periods groups) := by
  apply monotone_nat_of_le_succ
  intro g
  rw [groupStart_succ]
  exact Nat.le_add_right _ _

theorem groupBounds_eq (periods groups : Nat) : groupBounds periods groups =
    (List.range groups).map fun g =>
      (groupStart periods groups g, groupStart periods groups (g + 1)) := by
  have hfold : ∀ n, (List.range n).foldl (fun acc g =>
      let len := periods / groups + if g < periods % groups then 1 else 0
      (acc.1 ++ [(acc.2, acc.2 + len)], acc.2 + len)) (([] : List (Nat × Nat)), 0) =
      ((List.range n).map fun g => (groupStart periods groups g, groupStart periods groups (g + 1)),
        groupStart periods groups n) := by
    intro n
    induction n with
    | zero => rw [groupStart_zero]; rfl
    | succ n ih =>
      rw [List.range_succ, List.foldl_append, ih, List.map_append, List.foldl_cons, List.foldl_nil,
        groupStart_succ]
      simp only [List.map_cons, List.map_nil, groupStart_succ]
  exact congrArg Prod.fst (hfold groups)

theorem length_groupMonths (periods groups g : Nat) : (groupMonths periods groups g).length =
    periods / groups + if g < periods % groups then 1 else 0 := by
  unfold groupMonths
  rw [List.length_range', groupStart_succ]
  exact Nat.add_sub_cancel_left _ _

theorem groups_tile (hgroups : 0 < groups) :
    (List.range groups).flatMap (groupMonths periods groups) = List.range periods := by
  have hfront : ∀ n, (List.range n).flatMap (groupMonths periods groups) =
      List.range (groupStart periods groups n) := by
    intro n
    induction n with
    | zero => rw [groupStart_zero]; rfl
    | succ n ih =>
      have hle := groupStart_mono periods groups (Nat.le_succ n)
      rw [List.range_succ, List.flatMap_append, ih, List.flatMap_cons, List.flatMap_nil,
        List.append_nil, List.range_eq_range', List.range_eq_range']
      unfold groupMonths
      have happend := @List.range'_append_1 0 (groupStart periods groups n)
        (groupStart periods groups (n + 1) - groupStart periods groups n)
      rw [Nat.zero_add, Nat.add_sub_cancel' hle] at happend
      exact happend
  rw [hfront, groupStart_last hgroups]

theorem groupMonths_even (periods groups g g' : Nat) :
    (groupMonths periods groups g).length ≤ (groupMonths periods groups g').length + 1 := by
  rw [length_groupMonths, length_groupMonths]
  split <;> omega

def monthsIn (periods groups : Nat) (gs : List Nat) : List Nat :=
  gs.flatMap (groupMonths periods groups)

theorem within_monthsIn {gs : List Nat} {length : Nat} (hgroups : 0 < groups)
    (hgs : ∀ g ∈ gs, g < groups) (hlength : periods ≤ length) :
    Within (monthsIn periods groups gs) length := by
  intro month hmonth
  obtain ⟨g, hg, hmonth⟩ := List.mem_flatMap.mp hmonth
  have hmem : month ∈ List.range periods := by
    rw [← groups_tile hgroups]
    exact List.mem_flatMap.mpr ⟨g, List.mem_range.mpr (hgs g hg), hmonth⟩
  have hlt := List.mem_range.mp hmem
  omega

theorem monthsIn_ne_nil {gs : List Nat} (hne : gs ≠ []) (hlong : 0 < periods / groups) :
    monthsIn periods groups gs ≠ [] := by
  obtain ⟨g, rest, rfl⟩ := List.exists_cons_of_ne_nil hne
  intro hnil
  have hlength := congrArg List.length hnil
  unfold monthsIn at hlength
  rw [List.flatMap_cons, List.length_append, length_groupMonths, List.length_nil] at hlength
  omega

theorem IsCombination.filter_eq {n k : Nat} {xs : List Nat} (h : IsCombination n k xs) :
    ((List.range n).filter fun g => g ∈ xs.toFinset) = xs := by
  apply increasing_ext (List.pairwise_lt_range.sublist List.filter_sublist) h.increasing
  intro x
  rw [List.mem_filter, List.mem_range, decide_eq_true_eq, List.mem_toFinset]
  exact ⟨fun hx => hx.2, fun hx => ⟨h.below x hx, hx⟩⟩

end Groups

section Rows

variable {K : Type*} [Field K] [LinearOrder K] [ExactFunctions K]

omit [Field K] [LinearOrder K] [ExactFunctions K] in
theorem mapM_number?_iff (vs : List (ExactNumber K)) (xs : List K) :
    vs.mapM ExactNumber.number? = some xs ↔ vs = xs.map number := by
  induction vs generalizing xs with
  | nil => cases xs <;> simp
  | cons v vs ih =>
    cases v with
    | number x =>
      rw [List.mapM_cons]
      cases hvs : vs.mapM ExactNumber.number? with
      | none =>
        have hnot : ∀ ys : List K, vs ≠ ys.map number := by
          intro ys heq
          rw [(ih ys).mpr heq] at hvs
          cases hvs
        cases xs with
        | nil => simp [ExactNumber.number?]
        | cons y ys => simp [ExactNumber.number?, hnot ys]
      | some ys =>
        have heq := (ih ys).mp hvs
        cases xs with
        | nil => simp [ExactNumber.number?]
        | cons z zs =>
          simp only [ExactNumber.number?, Option.pure_def, Option.bind_eq_bind, Option.bind_some,
            Option.some.injEq, List.cons.injEq, List.map_cons, ExactNumber.number.injEq, heq]
          refine and_congr_right fun _ => ?_
          exact (List.map_injective_iff.mpr fun a b => ExactNumber.number.inj).eq_iff.symm
    | infinite negative => cases xs <;> simp [ExactNumber.number?]
    | nan => cases xs <;> simp [ExactNumber.number?]

theorem constant_iff_neighbours {α : Type*} (xs : List α) :
    (∀ w ∈ xs.zip xs.tail, w.1 = w.2) ↔ Constant xs := by
  induction xs with
  | nil => simp [Constant]
  | cons x xs ih =>
    cases xs with
    | nil => simp [Constant]
    | cons y ys =>
      rw [List.tail_cons, List.zip_cons_cons, List.forall_mem_cons]
      rw [List.tail_cons] at ih
      rw [ih]
      constructor
      · rintro ⟨hxy, hconstant⟩ a ha b hb
        have hall : ∀ c ∈ x :: y :: ys, c = y := by
          intro c hc
          rcases List.mem_cons.mp hc with rfl | hc
          · exact hxy
          · exact hconstant c hc y List.mem_cons_self
        rw [hall a ha, hall b hb]
      · intro hconstant
        refine ⟨hconstant x List.mem_cons_self y (by simp), ?_⟩
        intro a ha b hb
        exact hconstant a (List.mem_cons_of_mem _ ha) b (List.mem_cons_of_mem _ hb)

theorem usableRow_number (row : DecodedTrialRow (ExactNumber K)) {xs : List K}
    (h : row.returns = xs.map number) : usableRow row = !decide (Constant xs) := by
  unfold usableRow
  rw [h, Bool.eq_iff_iff, Bool.and_eq_true, List.all_eq_true, List.any_eq_true,
    Bool.not_eq_true', decide_eq_false_iff_not, ← constant_iff_neighbours, ← List.map_tail,
    List.zip_map]
  constructor
  · rintro ⟨-, w, hw, hne⟩ hall
    obtain ⟨⟨a, b⟩, hab, rfl⟩ := List.mem_map.mp hw
    have hsame : a = b := hall _ hab
    simp [hsame] at hne
  · intro hnot
    push Not at hnot
    obtain ⟨⟨a, b⟩, hab, hne⟩ := hnot
    refine ⟨?_, (number a, number b), List.mem_map.mpr ⟨(a, b), hab, rfl⟩, ?_⟩
    · intro v hv
      obtain ⟨x, -, rfl⟩ := List.mem_map.mp hv
      rfl
    · rw [ExactNumber.eq_number, decide_eq_false hne]
      rfl

omit [Field K] [LinearOrder K] [ExactFunctions K] in
theorem exists_numbers {vs : List (ExactNumber K)} (h : ∀ v ∈ vs, ∃ x, v = number x) :
    ∃ xs : List K, vs = xs.map number := by
  induction vs with
  | nil => exact ⟨[], rfl⟩
  | cons v vs ih =>
    obtain ⟨x, rfl⟩ := h v List.mem_cons_self
    obtain ⟨xs, rfl⟩ := ih fun w hw => h w (List.mem_cons_of_mem _ hw)
    exact ⟨x :: xs, rfl⟩

theorem usableRow_iff (row : DecodedTrialRow (ExactNumber K)) : usableRow row = true ↔
    ∃ xs, row.returns = xs.map number ∧ ¬Constant xs := by
  constructor
  · intro husable
    have hfinite : ∀ v ∈ row.returns, ∃ x, v = number x := by
      intro v hv
      unfold usableRow at husable
      exact (ExactNumber.isFinite_iff v).mp
        (List.all_eq_true.mp (Bool.and_eq_true_iff.mp husable).1 v hv)
    obtain ⟨xs, hxs⟩ := exists_numbers hfinite
    rw [usableRow_number row hxs, Bool.not_eq_true', decide_eq_false_iff_not] at husable
    exact ⟨xs, hxs, husable⟩
  · rintro ⟨xs, hxs, hnot⟩
    rw [usableRow_number row hxs, decide_eq_false hnot]
    rfl

/-- The rows that are ranked are those that the filter keeps. -/
theorem usable_returns (matrix : DecodedTrialMatrix (ExactNumber K)) :
    (matrix.rows.filter usableRow).map (·.returns) = (rankedSeries matrix).map (·.map number) := by
  unfold rankedSeries
  induction matrix.rows with
  | nil => rfl
  | cons row rows ih =>
    cases husable : usableRow row with
    | true =>
      obtain ⟨xs, hxs, hnot⟩ := (usableRow_iff row).mp husable
      have hkept : rankedRow row = some xs := by
        unfold rankedRow
        rw [(mapM_number?_iff _ _).mpr hxs]
        exact Option.filter_eq_some_iff.mpr ⟨rfl, decide_eq_true hnot⟩
      rw [List.filter_cons_of_pos husable, List.filterMap_cons_some hkept, List.map_cons,
        List.map_cons, ih, hxs]
    | false =>
      have hdropped : rankedRow row = none := by
        refine Option.filter_eq_none_iff.mpr fun xs hxs => ?_
        intro hnot
        rw [(usableRow_iff row).mpr ⟨xs, (mapM_number?_iff _ _).mp hxs, of_decide_eq_true hnot⟩]
          at husable
        cases husable
      rw [List.filter_cons_of_neg (by rw [husable]; exact Bool.false_ne_true),
        List.filterMap_cons_none hdropped, ih]

theorem length_usable (matrix : DecodedTrialMatrix (ExactNumber K)) :
    (matrix.rows.filter usableRow).length = (rankedSeries matrix).length := by
  have hlength := congrArg List.length (usable_returns matrix)
  rw [List.length_map, List.length_map] at hlength
  exact hlength

end Rows

end Neoethos
