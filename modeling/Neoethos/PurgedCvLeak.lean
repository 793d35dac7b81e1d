import Mathlib.Data.List.Sort
import Neoethos.PurgedCv

namespace Neoethos

namespace CombinatorialPurgedCV

section Choice

variable {n s k purge embargo : Nat} {chosen : List Nat}

theorem chosen_pairwise (hsub : chosen.Sublist (List.range s)) : chosen.Pairwise (· < ·) :=
  List.pairwise_lt_range.sublist hsub

theorem filter_chosen (hsub : chosen.Sublist (List.range s)) :
    (List.range s).filter (· ∈ chosen) = chosen := by
  refine (List.pairwise_lt_range.sublist List.filter_sublist).eq_of_mem_iff (chosen_pairwise hsub) ?_
  intro t
  simp only [List.mem_filter, List.mem_range, decide_eq_true_eq, and_iff_right_iff_imp]
  intro ht
  exact List.mem_range.mp (hsub.subset ht)

theorem testIdx_eq (hsub : chosen.Sublist (List.range s)) :
    testIdx n s chosen = chosen.flatMap fun t => indices (group n s t) := by
  rw [testIdx, filter_chosen hsub]

theorem indices_pairwise (range : Nat × Nat) : (indices range).Pairwise (· < ·) :=
  List.pairwise_lt_range'

theorem pairwise_flatMap_groups {gs : List Nat} {part : Nat → List Nat}
    (hgs : gs.Sublist (List.range s)) (hpart : ∀ g, (part g).Pairwise (· < ·))
    (hmem : ∀ g, ∀ i ∈ part g, i ∈ indices (group n s g)) : (gs.flatMap part).Pairwise (· < ·) := by
  rw [List.pairwise_flatMap]
  constructor
  · intro g _
    exact hpart g
  · refine (chosen_pairwise hgs).imp_of_mem ?_
    intro g t _ ht hlt i hi j hj
    have hi := mem_indices.mp (hmem g i hi)
    have hj := mem_indices.mp (hmem t j hj)
    have hle := group_le (n := n) hlt (List.mem_range.mp (hgs.subset ht))
    omega

theorem testIdx_pairwise : (testIdx n s chosen).Pairwise (· < ·) :=
  pairwise_flatMap_groups List.filter_sublist (fun _ => indices_pairwise _) fun _ _ hi => hi

theorem trainIdx_pairwise : (trainIdx n s purge embargo chosen).Pairwise (· < ·) := by
  apply pairwise_flatMap_groups List.filter_sublist
  · intro g
    simp only
    split
    next => exact indices_pairwise _
    next => exact .nil
  · intro g i hi
    simp only at hi
    split at hi
    next => exact (mem_validRange.mp hi).1
    next => simp at hi

theorem trainIdx_disjoint_testIdx :
    (trainIdx n s purge embargo chosen).Disjoint (testIdx n s chosen) := by
  intro i htrain htest
  obtain ⟨g, hg, hout, hig, -⟩ := mem_trainIdx.mp htrain
  obtain ⟨t, ht, hin, hit⟩ := mem_testIdx.mp htest
  exact hout (group_unique hg ht hig hit ▸ hin)

end Choice

section Zones

variable {n s purge embargo i g t : Nat} {chosen : List Nat}

/-- What is cut off stands in the zone of the test group. -/
theorem CutsOff.inZone (h : CutsOff n s purge embargo t g i) (hi : i ∈ indices (group n s g)) :
    InZone n s purge embargo t i := by
  rw [mem_indices] at hi
  unfold CutsOff at h
  unfold InZone
  simp only at h ⊢
  omega

/-- A sample of a zone is cut off, or its whole group is swallowed. -/
theorem InZone.cutsOff_or_swallows (h : InZone n s purge embargo t i) (hm : 0 < n / s)
    (hi : i ∈ indices (group n s g)) (hg : g < s) (ht : t < s) (hne : g ≠ t) :
    CutsOff n s purge embargo t g i ∨ Swallows n s purge embargo t g := by
  have hbounds := group_lt hm ht
  rw [mem_indices] at hi
  unfold InZone at h
  unfold CutsOff Swallows
  simp only at h ⊢
  obtain hlt | hgt := Nat.lt_or_gt_of_ne hne
  · have hle := group_le (n := n) hlt ht
    omega
  · have hle := group_le (n := n) hgt hg
    omega

theorem Swallows.inZone (h : Swallows n s purge embargo t g) (hi : i ∈ indices (group n s g)) :
    InZone n s purge embargo t i := by
  rw [mem_indices] at hi
  unfold Swallows at h
  unfold InZone
  simp only at h ⊢
  omega

/-- The training samples are the right ones exactly when every swallowed group is cut off whole. -/
theorem trainIdx_exact_iff (hs : 0 < s) (hm : 0 < n / s) (hsub : chosen.Sublist (List.range s)) :
    (∀ i, i ∈ trainIdx n s purge embargo chosen ↔ i < n ∧ i ∉ testIdx n s chosen ∧
        ∀ t ∈ chosen, ¬InZone n s purge embargo t i) ↔
      ∀ g < s, g ∉ chosen → (∃ t ∈ chosen, Swallows n s purge embargo t g) →
        ∀ i ∈ indices (group n s g), ∃ t ∈ chosen, CutsOff n s purge embargo t g i := by
  constructor
  · intro hexact g hg hout hswallowed i hi
    obtain ⟨t, ht, hswallows⟩ := hswallowed
    by_contra hkept
    push Not at hkept
    have htrain := mem_trainIdx.mpr ⟨g, hg, hout, hi, hkept⟩
    exact ((hexact i).mp htrain).2.2 t ht (hswallows.inZone hi)
  · intro hcut i
    constructor
    · intro htrain
      obtain ⟨g, hg, hout, hi, hkept⟩ := mem_trainIdx.mp htrain
      have hin := mem_indices.mp hi
      have hle := group_le_samples (n := n) hg
      refine ⟨by omega, trainIdx_disjoint_testIdx htrain, ?_⟩
      intro t ht hzone
      have hne : g ≠ t := fun heq => hout (heq ▸ ht)
      have hts := List.mem_range.mp (hsub.subset ht)
      obtain hcutsOff | hswallows := hzone.cutsOff_or_swallows hm hi hg hts hne
      · exact hkept t ht hcutsOff
      · obtain ⟨t', ht', hcutsOff⟩ := hcut g hg hout ⟨t, ht, hswallows⟩ i hi
        exact hkept t' ht' hcutsOff
    · intro h
      obtain ⟨hin, htest, hzone⟩ := h
      obtain ⟨g, hg, hi⟩ := exists_group hs hm hin
      refine mem_trainIdx.mpr ⟨g, hg, ?_, hi, ?_⟩
      · intro hmem
        exact htest (mem_testIdx.mpr ⟨g, hg, hmem, hi⟩)
      · intro t ht hcutsOff
        exact hzone t ht (hcutsOff.inZone hi)

end Zones

section Pairs

variable {F : Type*} [FloatOps F] {cv : CombinatorialPurgedCV F} {n : Nat}

/-- A choice of test groups for which no swallowed training group is kept. -/
def Clean (n s purge embargo : Nat) (chosen : List Nat) : Prop :=
  ∀ g < s, g ∉ chosen → (∃ t ∈ chosen, Swallows n s purge embargo t g) →
    ∀ i ∈ indices (group n s g), ∃ t ∈ chosen, CutsOff n s purge embargo t g i

theorem mem_split {train test : List Nat} :
    (train, test) ∈ cv.split n ↔
      2 ≤ cv.nSplits ∧ 0 < n / cv.nSplits ∧
      ∃ chosen : List Nat, chosen.Sublist (List.range cv.nSplits) ∧ chosen.length = cv.nTestGroups ∧
        test = testIdx n cv.nSplits chosen ∧
        train = trainIdx n cv.nSplits (cv.purgeSize n) (cv.embargoSize n) chosen ∧
        test ≠ [] ∧ train ≠ [] := by
  unfold split splitWith
  by_cases hs : 2 ≤ cv.nSplits
  · by_cases hm : 0 < n / cv.nSplits
    · have hn : n ≠ 0 := by
        rintro rfl
        simp at hm
      rw [if_neg (by omega), if_neg hm.ne']
      simp only [List.mem_filterMap, mem_combinationsOf, and_assoc, hs, hm, true_and]
      apply exists_congr
      intro chosen
      apply and_congr_right
      intro _
      apply and_congr_right
      intro _
      constructor
      · intro h
        split at h
        next hne =>
          obtain ⟨rfl, rfl⟩ := Prod.mk.inj (Option.some.inj h)
          simpa using hne
        next => cases h
      · intro h
        obtain ⟨rfl, rfl, htest, htrain⟩ := h
        rw [if_pos]
        simpa using ⟨htest, htrain⟩
    · have hzero := Nat.eq_zero_of_not_pos hm
      simp [hzero]
  · have hlt : cv.nSplits < 2 := by omega
    simp [hlt]

/-- The choice of test groups can be read off the test samples. -/
theorem mem_of_testIdx_eq {n s t : Nat} {chosen chosen' : List Nat} (hm : 0 < n / s) (ht : t < s)
    (hmem : t ∈ chosen) (heq : testIdx n s chosen = testIdx n s chosen') : t ∈ chosen' := by
  have hfirst : (group n s t).1 ∈ indices (group n s t) := mem_indices.mpr ⟨le_rfl, group_lt hm ht⟩
  have htest := mem_testIdx.mpr ⟨t, ht, hmem, hfirst⟩
  rw [heq] at htest
  obtain ⟨t', ht', hmem', hfirst'⟩ := mem_testIdx.mp htest
  exact group_unique ht ht' hfirst hfirst' ▸ hmem'

theorem testIdx_injective {n s : Nat} {chosen chosen' : List Nat} (hm : 0 < n / s)
    (hsub : chosen.Sublist (List.range s)) (hsub' : chosen'.Sublist (List.range s))
    (heq : testIdx n s chosen = testIdx n s chosen') : chosen = chosen' := by
  refine (chosen_pairwise hsub).eq_of_mem_iff (chosen_pairwise hsub') ?_
  intro t
  constructor
  · intro ht
    exact mem_of_testIdx_eq hm (List.mem_range.mp (hsub.subset ht)) ht heq
  · intro ht
    exact mem_of_testIdx_eq hm (List.mem_range.mp (hsub'.subset ht)) ht heq.symm

theorem leavesNoLeak_iff_clean (hs : 2 ≤ cv.nSplits) (hm : 0 < n / cv.nSplits) :
    cv.LeavesNoLeak n ↔ ∀ chosen : List Nat, chosen.Sublist (List.range cv.nSplits) →
      chosen.length = cv.nTestGroups →
        Clean n cv.nSplits (cv.purgeSize n) (cv.embargoSize n) chosen := by
  constructor
  · intro hno chosen hsub hlength g hg hout hswallowed i hi
    by_contra hkept
    push Not at hkept
    have htrain := mem_trainIdx.mpr ⟨g, hg, hout, hi, hkept⟩
    obtain ⟨t, ht, hswallows⟩ := hswallowed
    have hts := List.mem_range.mp (hsub.subset ht)
    have htest := mem_testIdx.mpr ⟨t, hts, ht, mem_indices.mpr ⟨le_rfl, group_lt hm hts⟩⟩
    have hpair := mem_split.mpr ⟨hs, hm, chosen, hsub, hlength, rfl, rfl, List.ne_nil_of_mem htest,
      List.ne_nil_of_mem htrain⟩
    obtain ⟨-, -, -, chosen', hsub', -, heq, hexact⟩ := hno _ _ hpair
    rw [← testIdx_eq hsub'] at heq
    obtain rfl := testIdx_injective hm hsub hsub' heq
    exact ((hexact i).mp htrain).2.2 t ht (hswallows.inZone hi)
  · intro hclean train test hpair
    obtain ⟨-, -, chosen, hsub, hlength, rfl, rfl, -, -⟩ := mem_split.mp hpair
    exact ⟨trainIdx_pairwise, testIdx_pairwise, trainIdx_disjoint_testIdx, chosen, hsub, hlength,
      testIdx_eq hsub, (trainIdx_exact_iff (by omega) hm hsub).mpr (hclean chosen hsub hlength)⟩

end Pairs

end CombinatorialPurgedCV

end Neoethos
