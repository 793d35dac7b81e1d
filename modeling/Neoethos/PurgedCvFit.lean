import Mathlib.Data.Finset.Card
import Mathlib.Data.Finset.Range
import Neoethos.PurgedCvLeak

namespace Neoethos

namespace CombinatorialPurgedCV

variable {n s k purge embargo g t i m : Nat}

theorem mul_step (h : g < t) : g * m + m ≤ t * m := by
  rw [← Nat.succ_mul]
  exact Nat.mul_le_mul_right m h

theorem group_of_lt (hg : g + 1 < s) : group n s g = (g * (n / s), g * (n / s) + n / s) := by
  have hne : g ≠ s - 1 := by omega
  simp only [group, hne, if_false, Nat.succ_mul]

theorem group_last (hg : g + 1 = s) : group n s g = (g * (n / s), n) := by
  have heq : g = s - 1 := by omega
  simp only [group, heq, if_true]

theorem last_le (hg : g + 1 = s) : g * (n / s) + n / s ≤ n := by
  have hle : s * (n / s) ≤ n := Nat.mul_div_le n s
  rwa [← hg, Nat.succ_mul, hg] at hle

theorem before_iff (hm : 0 < n / s) (hg : g < s) (ht : t < s) :
    (group n s g).2 ≤ (group n s t).1 ↔ g < t := by
  constructor
  · intro hle
    by_contra hge
    have hstart : (group n s t).1 ≤ (group n s g).1 := Nat.mul_le_mul_right _ (not_lt.mp hge)
    have hsize := group_lt hm hg
    omega
  · intro hlt
    exact group_le hlt ht

theorem swallows_iff (hm : 0 < n / s) (hg : g < s) (ht : t < s) :
    Swallows n s purge embargo t g ↔
      (g < t ∧ t * (n / s) - purge < g * (n / s)) ∨
      (t < g ∧ (group n s g).2 < t * (n / s) + n / s + embargo) := by
  unfold Swallows
  simp only [before_iff hm hg ht, before_iff hm ht hg]
  apply or_congr_right
  apply and_congr_right
  intro hlt
  rw [group_of_lt (by omega : t + 1 < s)]

theorem cutsOff_iff (hm : 0 < n / s) (hg : g < s) (ht : t < s) :
    CutsOff n s purge embargo t g i ↔
      (g < t ∧ g * (n / s) ≤ t * (n / s) - purge ∧ t * (n / s) - purge ≤ i) ∨
      (t < g ∧ t * (n / s) + n / s + embargo ≤ (group n s g).2 ∧
        i < t * (n / s) + n / s + embargo) := by
  unfold CutsOff
  simp only [before_iff hm hg ht, before_iff hm ht hg]
  apply or_congr_right
  apply and_congr_right
  intro hlt
  rw [group_of_lt (by omega : t + 1 < s)]

theorem le_group_snd (hg : g < s) : g * (n / s) + n / s ≤ (group n s g).2 := by
  by_cases hlast : g + 1 = s
  · rw [group_last hlast]
    exact last_le hlast
  · rw [group_of_lt (by omega)]

theorem clean_of_le {chosen : List Nat} (hm : 0 < n / s) (hsub : chosen.Sublist (List.range s))
    (hpurge : purge ≤ n / s) (hembargo : embargo ≤ n / s) : Clean n s purge embargo chosen := by
  intro g hg _ hswallowed
  obtain ⟨t, ht, hswallows⟩ := hswallowed
  have hsize := le_group_snd (n := n) hg
  obtain ⟨hlt, hreach⟩ | ⟨hlt, hreach⟩ :=
    (swallows_iff hm hg (List.mem_range.mp (hsub.subset ht))).mp hswallows
  · have hstep := mul_step (m := n / s) hlt
    omega
  · have hstep := mul_step (m := n / s) hlt
    omega

/-- A choice of any length that holds one group and keeps two others out. -/
theorem exists_choice {x y : Nat} (hk : 1 ≤ k) (hks : k + 2 ≤ s) (hx : x < s) (hxg : x ≠ g)
    (hxy : x ≠ y) : ∃ chosen : List Nat, chosen.Sublist (List.range s) ∧ chosen.length = k ∧
      x ∈ chosen ∧ g ∉ chosen ∧ y ∉ chosen := by
  have hsub : ({x} : Finset Nat) ⊆ Finset.range s \ {g, y} := by
    simp [hx, hxg, hxy]
  have hcard : k ≤ (Finset.range s \ {g, y}).card := by
    have hle := Finset.le_card_sdiff {g, y} (Finset.range s)
    have htwo : ({g, y} : Finset Nat).card ≤ 2 := Finset.card_le_two
    rw [Finset.card_range] at hle
    omega
  obtain ⟨u, hxu, hus, huk⟩ := Finset.exists_subsuperset_card_eq hsub (by simpa using hk) hcard
  have hmem : ∀ t, t ∈ (List.range s).filter (· ∈ u) ↔ t ∈ u := by
    intro t
    simp only [List.mem_filter, List.mem_range, decide_eq_true_eq, and_iff_right_iff_imp]
    intro ht
    exact Finset.mem_range.mp (Finset.mem_sdiff.mp (hus ht)).1
  refine ⟨(List.range s).filter (· ∈ u), List.filter_sublist, ?_, ?_, ?_, ?_⟩
  · rw [← huk, ← List.toFinset_card_of_nodup (List.nodup_range.filter _)]
    congr 1
    ext t
    rw [List.mem_toFinset, hmem]
  · rw [hmem]
    exact hxu (Finset.mem_singleton_self x)
  · rw [hmem]
    intro hg
    simpa using (Finset.mem_sdiff.mp (hus hg)).2
  · rw [hmem]
    intro hy
    simpa using (Finset.mem_sdiff.mp (hus hy)).2

/-- One multiple of a length stands in a window of that length. -/
theorem mul_unique {a b c d : Nat} (ha : c < a * m + d) (ha' : a * m + d ≤ c + m) (hb : c < b * m + d)
    (hb' : b * m + d ≤ c + m) : a = b := by
  obtain hlt | heq | hgt := lt_trichotomy a b
  · have hstep := mul_step (m := m) hlt
    omega
  · exact heq
  · have hstep := mul_step (m := m) hgt
    omega

/-- With two groups to spare, a group can be left whole: its neighbour is chosen, and the one group
whose zone ends inside it is not. -/
theorem exists_uncut {x : Nat} (hk : 1 ≤ k) (hks : k + 2 ≤ s) (hg : g < s) (hx : x < s)
    (hxg : x ≠ g) {p : Nat → Prop} (hxp : ¬p x) (hunique : ∀ a b, p a → p b → a = b)
    (hcut : ∀ t < s, CutsOff n s purge embargo t g i → p t) (hi : i ∈ indices (group n s g))
    (hswallows : Swallows n s purge embargo x g) :
    ∃ chosen : List Nat, chosen.Sublist (List.range s) ∧ chosen.length = k ∧
      ¬Clean n s purge embargo chosen := by
  obtain ⟨y, hxy, hy⟩ : ∃ y, x ≠ y ∧ ∀ t, p t → t = y := by
    by_cases hsome : ∃ y, p y
    · obtain ⟨y, hy⟩ := hsome
      refine ⟨y, ?_, fun t ht => hunique t y ht hy⟩
      rintro rfl
      exact hxp hy
    · push Not at hsome
      exact ⟨g, hxg, fun t ht => absurd ht (hsome t)⟩
  obtain ⟨chosen, hsub, hlength, hin, hout, hyout⟩ := exists_choice hk hks hx hxg hxy
  refine ⟨chosen, hsub, hlength, ?_⟩
  intro hclean
  obtain ⟨t, ht, hcutsOff⟩ := hclean g hg hout ⟨x, hin, hswallows⟩ i hi
  exact hyout (hy t (hcut t (List.mem_range.mp (hsub.subset ht)) hcutsOff) ▸ ht)

/-- A longer purge swallows the last group but one, from the last. -/
theorem exists_not_clean_of_purge (embargo : Nat) (hm : 0 < n / s) (hk : 1 ≤ k) (hks : k + 2 ≤ s)
    (hlong : n / s < purge) : ∃ chosen : List Nat, chosen.Sublist (List.range s) ∧
      chosen.length = k ∧ ¬Clean n s purge embargo chosen := by
  obtain ⟨g, rfl⟩ : ∃ g, s = g + 2 := ⟨s - 2, by omega⟩
  have hgroup := group_of_lt (n := n) (by omega : g + 1 < g + 2)
  have hpos : 0 < g * (n / (g + 2)) := Nat.mul_pos (by omega) hm
  have hnext : (g + 1) * (n / (g + 2)) = g * (n / (g + 2)) + n / (g + 2) := Nat.succ_mul _ _
  -- the embargo that ends inside the group
  let p : Nat → Prop := fun t => t < g ∧ g * (n / (g + 2)) < (t + 1) * (n / (g + 2)) + embargo ∧
    (t + 1) * (n / (g + 2)) + embargo ≤ g * (n / (g + 2)) + n / (g + 2)
  have hunique : ∀ a b, p a → p b → a = b := by
    intro a b ha hb
    have heq := mul_unique ha.2.1 ha.2.2 hb.2.1 hb.2.2
    omega
  have hcut : ∀ t < g + 2, CutsOff n (g + 2) purge embargo t g (g * (n / (g + 2))) → p t := by
    intro t ht hcutsOff
    obtain ⟨hlt, hlow, -⟩ | ⟨hlt, hend, hreach⟩ := (cutsOff_iff hm (by omega) ht).mp hcutsOff
    · obtain rfl : t = g + 1 := by omega
      omega
    · rw [hgroup] at hend
      rw [← Nat.succ_mul] at hend hreach
      exact ⟨hlt, hreach, hend⟩
  have hin : g * (n / (g + 2)) ∈ indices (group n (g + 2) g) := by
    rw [mem_indices, hgroup]
    exact ⟨le_rfl, by omega⟩
  have hswallows : Swallows n (g + 2) purge embargo (g + 1) g :=
    (swallows_iff hm (by omega) (by omega)).mpr (.inl ⟨by omega, by omega⟩)
  exact exists_uncut hk hks (by omega) (by omega) (by omega) (fun hp => by omega) hunique hcut hin
    hswallows

theorem exists_not_clean_of_embargo (purge : Nat) (hm : 0 < n / s) (hk : 1 ≤ k) (hks : k + 2 ≤ s)
    (hlong : n / s < embargo) : ∃ chosen : List Nat, chosen.Sublist (List.range s) ∧
      chosen.length = k ∧ ¬Clean n s purge embargo chosen := by
  have hgroup := group_of_lt (n := n) (by omega : 1 + 1 < s)
  rw [Nat.one_mul] at hgroup
  -- the purge that ends inside the group
  let p : Nat → Prop := fun t => 1 < t ∧ n / s + purge ≤ t * (n / s) ∧
    t * (n / s) < n / s + n / s + purge
  have hunique : ∀ a b, p a → p b → a = b := by
    intro a b ha hb
    obtain ⟨-, halow, hahigh⟩ := ha
    obtain ⟨-, hblow, hbhigh⟩ := hb
    exact mul_unique (m := n / s) (c := n / s + purge - 1) (d := 0) (by omega) (by omega) (by omega) (by omega)
  have hcut : ∀ t < s, CutsOff n s purge embargo t 1 (n / s + n / s - 1) → p t := by
    intro t ht hcutsOff
    obtain ⟨hlt, hlow, hhigh⟩ | ⟨hlt, hend, -⟩ := (cutsOff_iff hm (by omega) ht).mp hcutsOff
    · refine ⟨hlt, by omega, by omega⟩
    · obtain rfl : t = 0 := by omega
      rw [hgroup] at hend
      omega
  have hin : n / s + n / s - 1 ∈ indices (group n s 1) := by
    rw [mem_indices, hgroup]
    exact ⟨by omega, by omega⟩
  have hswallows : Swallows n s purge embargo 0 1 := by
    refine (swallows_iff hm (by omega) (by omega)).mpr (.inr ⟨by omega, ?_⟩)
    rw [hgroup]
    omega
  exact exists_uncut hk hks (by omega) (by omega) (by omega) (fun hp => by omega) hunique hcut hin
    hswallows

/-- With two groups to spare, every choice is clean exactly when the zones fit into a group. -/
theorem all_clean_iff_fit (hm : 0 < n / s) (hk : 1 ≤ k) (hks : k + 2 ≤ s) :
    (∀ chosen : List Nat, chosen.Sublist (List.range s) → chosen.length = k →
      Clean n s purge embargo chosen) ↔ purge ≤ n / s ∧ embargo ≤ n / s := by
  constructor
  · intro hclean
    constructor
    · by_contra hlong
      obtain ⟨chosen, hsub, hlength, hnot⟩ :=
        exists_not_clean_of_purge embargo hm hk hks (not_le.mp hlong)
      exact hnot (hclean chosen hsub hlength)
    · by_contra hlong
      obtain ⟨chosen, hsub, hlength, hnot⟩ :=
        exists_not_clean_of_embargo purge hm hk hks (not_le.mp hlong)
      exact hnot (hclean chosen hsub hlength)
  · intro hfit chosen hsub _
    exact clean_of_le hm hsub hfit.1 hfit.2

section SingleTrainingGroup

/-- The only training group is not swallowed, or it is cut off whole. -/
def CleanAt (n s purge embargo g : Nat) : Prop :=
  (∃ t < s, t ≠ g ∧ Swallows n s purge embargo t g) →
    ∀ i ∈ indices (group n s g), ∃ t < s, t ≠ g ∧ CutsOff n s purge embargo t g i

theorem mem_all_but_one {chosen : List Nat} (hsub : chosen.Sublist (List.range s))
    (hlength : chosen.length + 1 = s) (hg : g < s) (hout : g ∉ chosen) (t : Nat) :
    t ∈ chosen ↔ t < s ∧ t ≠ g := by
  have hother : chosen.toFinset = (Finset.range s).erase g := by
    apply Finset.eq_of_subset_of_card_le
    · intro t ht
      rw [List.mem_toFinset] at ht
      rw [Finset.mem_erase, Finset.mem_range]
      exact ⟨fun heq => hout (heq ▸ ht), List.mem_range.mp (hsub.subset ht)⟩
    · rw [Finset.card_erase_of_mem (Finset.mem_range.mpr hg), Finset.card_range,
        List.toFinset_card_of_nodup (List.nodup_range.sublist hsub)]
      omega
  rw [← List.mem_toFinset, hother, Finset.mem_erase, Finset.mem_range, and_comm]

theorem all_clean_iff_cleanAt (hk : k + 1 = s) :
    (∀ chosen : List Nat, chosen.Sublist (List.range s) → chosen.length = k →
      Clean n s purge embargo chosen) ↔ ∀ g < s, CleanAt n s purge embargo g := by
  constructor
  · intro hclean g hg
    have hmem : ∀ t, t ∈ (List.range s).filter (· ≠ g) ↔ t < s ∧ t ≠ g := by
      intro t
      simp
    have hlength : ((List.range s).filter (· ≠ g)).length = k := by
      rw [← List.toFinset_card_of_nodup (List.nodup_range.filter _)]
      have herase : ((List.range s).filter (· ≠ g)).toFinset = (Finset.range s).erase g := by
        ext t
        rw [List.mem_toFinset, hmem, Finset.mem_erase, Finset.mem_range, and_comm]
      rw [herase, Finset.card_erase_of_mem (Finset.mem_range.mpr hg), Finset.card_range]
      omega
    have hthis := hclean _ List.filter_sublist hlength g hg (by simp)
    unfold CleanAt
    simpa only [hmem, and_assoc] using hthis
  · intro hclean chosen hsub hlength g hg hout
    have hmem := mem_all_but_one hsub (by omega) hg hout
    have hthis := hclean g hg
    unfold CleanAt at hthis
    simpa only [hmem, and_assoc] using hthis

theorem cleanAt_zero (hm : 0 < n / s) (hs : 0 < s) : CleanAt n s purge embargo 0 := by
  intro hswallowed
  obtain ⟨t, ht, -, hswallows⟩ := hswallowed
  have hnot := (swallows_iff hm hs ht).mp hswallows
  omega

theorem cleanAt_last_iff (hm : 0 < n / s) (hg : g + 1 = s) (hpos : 0 < g) :
    CleanAt n s purge embargo g ↔
      embargo ≤ n - g * (n / s) ∨ ∃ t < g, (t + 1) * (n / s) + embargo = n := by
  have hgroup := group_last (n := n) hg
  have hsize := last_le (n := n) hg
  have hswallows : ∀ t < s, t ≠ g →
      (Swallows n s purge embargo t g ↔ n < (t + 1) * (n / s) + embargo) := by
    intro t ht hne
    rw [swallows_iff hm (by omega) ht, hgroup, Nat.succ_mul]
    omega
  have hcutsOff : ∀ i, ∀ t < s, t ≠ g → (CutsOff n s purge embargo t g i ↔
      (t + 1) * (n / s) + embargo ≤ n ∧ i < (t + 1) * (n / s) + embargo) := by
    intro i t ht hne
    rw [cutsOff_iff hm (by omega) ht, hgroup, Nat.succ_mul]
    omega
  constructor
  · intro hclean
    by_contra hnot
    push Not at hnot
    obtain ⟨hlong, hnone⟩ := hnot
    have hprev : (g - 1 + 1) * (n / s) = g * (n / s) := by rw [Nat.sub_add_cancel hpos]
    have hswallowed := (hswallows (g - 1) (by omega) (by omega)).mpr (by omega)
    have hin : n - 1 ∈ indices (group n s g) := by
      rw [mem_indices, hgroup]
      exact ⟨by omega, by omega⟩
    obtain ⟨t, ht, hne, hcut⟩ := hclean ⟨g - 1, by omega, by omega, hswallowed⟩ _ hin
    have hreach := (hcutsOff _ t ht hne).mp hcut
    exact hnone t (by omega) (by omega)
  · intro hfit hswallowed i hi
    obtain ⟨t, ht, hne, hswallow⟩ := hswallowed
    rw [hswallows t ht hne] at hswallow
    rw [mem_indices, hgroup] at hi
    obtain hshort | ⟨t', ht', hend⟩ := hfit
    · have hstep : (t + 1) * (n / s) ≤ g * (n / s) := Nat.mul_le_mul_right _ (by omega)
      omega
    · refine ⟨t', by omega, by omega, (hcutsOff i t' (by omega) (by omega)).mpr ?_⟩
      exact ⟨hend.le, by omega⟩

section Middle

variable (hm : 0 < n / s) (hpos : 0 < g) (hg : g + 1 < s)
include hm hpos hg

theorem swallows_middle_iff (ht : t < s) : Swallows n s purge embargo t g ↔
    (g < t ∧ t * (n / s) < g * (n / s) + purge) ∨ (t < g ∧ g * (n / s) < t * (n / s) + embargo) := by
  have hstart : 0 < g * (n / s) := Nat.mul_pos hpos hm
  rw [swallows_iff hm (by omega) ht, group_of_lt hg]
  omega

theorem cutsOff_middle_iff (ht : t < s) : CutsOff n s purge embargo t g i ↔
    (g < t ∧ g * (n / s) + purge ≤ t * (n / s) ∧ t * (n / s) ≤ i + purge) ∨
    (t < g ∧ t * (n / s) + embargo ≤ g * (n / s) ∧ i < t * (n / s) + n / s + embargo) := by
  have hstart : 0 < g * (n / s) := Nat.mul_pos hpos hm
  rw [cutsOff_iff hm (by omega) ht, group_of_lt hg]
  omega

omit hm hpos in
theorem mem_middle_iff : i ∈ indices (group n s g) ↔
    g * (n / s) ≤ i ∧ i < g * (n / s) + n / s := by
  rw [mem_indices, group_of_lt hg]

/-- A purge that ends at the start of the group cuts it off whole. -/
theorem cleanAt_of_purge (ht : t < s) (hlt : g < t) (hend : t * (n / s) = g * (n / s) + purge) :
    CleanAt n s purge embargo g := by
  intro _ i hi
  rw [mem_middle_iff hg] at hi
  exact ⟨t, ht, by omega, (cutsOff_middle_iff hm hpos hg ht).mpr (.inl ⟨hlt, by omega, by omega⟩)⟩

theorem cleanAt_of_embargo (hlt : t < g) (hend : t * (n / s) + embargo = g * (n / s)) :
    CleanAt n s purge embargo g := by
  intro _ i hi
  rw [mem_middle_iff hg] at hi
  exact ⟨t, by omega, by omega,
    (cutsOff_middle_iff hm hpos hg (by omega)).mpr (.inr ⟨hlt, by omega, by omega⟩)⟩

theorem cleanAt_of_le (hpurge : purge ≤ n / s) (hembargo : embargo ≤ n / s) :
    CleanAt n s purge embargo g := by
  intro hswallowed
  obtain ⟨t, ht, -, hswallows⟩ := hswallowed
  obtain ⟨hlt, hreach⟩ | ⟨hlt, hreach⟩ := (swallows_middle_iff hm hpos hg ht).mp hswallows
  · have hstep := mul_step (m := n / s) hlt
    omega
  · have hstep := mul_step (m := n / s) hlt
    omega

/-- A zone longer than a group swallows it from a neighbour. -/
theorem exists_swallows (hlong : n / s < purge ∨ n / s < embargo) :
    ∃ t < s, t ≠ g ∧ Swallows n s purge embargo t g := by
  have hnext : (g + 1) * (n / s) = g * (n / s) + n / s := Nat.succ_mul _ _
  have hprev : g * (n / s) = (g - 1) * (n / s) + n / s := by
    rw [← Nat.succ_mul, Nat.succ_eq_add_one, Nat.sub_add_cancel hpos]
  obtain hlong | hlong := hlong
  · exact ⟨g + 1, hg, by omega,
      (swallows_middle_iff hm hpos hg hg).mpr (.inl ⟨by omega, by omega⟩)⟩
  · exact ⟨g - 1, by omega, by omega,
      (swallows_middle_iff hm hpos hg (by omega)).mpr (.inr ⟨by omega, by omega⟩)⟩

theorem CleanAt.first_cut (h : CleanAt n s purge embargo g)
    (hlong : n / s < purge ∨ n / s < embargo) :
    (∃ t < s, g < t ∧ t * (n / s) = g * (n / s) + purge) ∨
      ∃ t < g, t * (n / s) + embargo ≤ g * (n / s) ∧ g * (n / s) < t * (n / s) + n / s + embargo := by
  obtain ⟨t, ht, -, hcut⟩ := h (exists_swallows hm hpos hg hlong) (g * (n / s))
    ((mem_middle_iff hg).mpr ⟨le_rfl, by omega⟩)
  obtain ⟨hlt, hlow, hhigh⟩ | ⟨hlt, hend, hreach⟩ := (cutsOff_middle_iff hm hpos hg ht).mp hcut
  · exact .inl ⟨t, ht, hlt, by omega⟩
  · exact .inr ⟨t, hlt, hend, hreach⟩

theorem CleanAt.last_cut (h : CleanAt n s purge embargo g)
    (hlong : n / s < purge ∨ n / s < embargo) :
    (∃ t < s, g < t ∧ g * (n / s) + purge ≤ t * (n / s) ∧
        t * (n / s) < g * (n / s) + n / s + purge) ∨
      ∃ t < g, t * (n / s) + embargo = g * (n / s) := by
  obtain ⟨t, ht, -, hcut⟩ := h (exists_swallows hm hpos hg hlong) (g * (n / s) + n / s - 1)
    ((mem_middle_iff hg).mpr ⟨by omega, by omega⟩)
  obtain ⟨hlt, hlow, hhigh⟩ | ⟨hlt, hend, hreach⟩ := (cutsOff_middle_iff hm hpos hg ht).mp hcut
  · exact .inl ⟨t, ht, hlt, hlow, by omega⟩
  · exact .inr ⟨t, hlt, by omega⟩

end Middle

theorem all_cleanAt_middle_iff (hm : 0 < n / s) (hs : 3 ≤ s) :
    (∀ g, 0 < g → g + 1 < s → CleanAt n s purge embargo g) ↔
      (purge ≤ n / s ∧ embargo ≤ n / s) ∨ purge = n / s ∨ embargo = n / s ∨
        (0 < purge ∧ 0 < embargo ∧ n / s ∣ purge ∧ n / s ∣ embargo ∧
          purge + embargo ≤ s * (n / s)) := by
  constructor
  · intro hclean
    by_contra hnot
    push Not at hnot
    obtain ⟨hlong, hpurge, hembargo, hdvd⟩ := hnot
    have hlong : n / s < purge ∨ n / s < embargo := by
      by_cases hle : purge ≤ n / s
      · exact .inr (hlong hle)
      · exact .inl (not_le.mp hle)
    have hsecond := (hclean 1 (by omega) (by omega)).first_cut hm (by omega) (by omega) hlong
    have hlast := (hclean (s - 2) (by omega) (by omega)).last_cut hm (by omega) (by omega) hlong
    rw [Nat.one_mul] at hsecond
    -- the last group but one is cut off from an earlier one
    have hmultiple : n / s < purge → ∃ q, 0 < q ∧ q + 2 ≤ s ∧ embargo = q * (n / s) := by
      intro hlongPurge
      obtain ⟨t, ht, hlt, hreach, -⟩ | ⟨t, ht, hend⟩ := hlast
      · obtain rfl : t = s - 2 + 1 := by omega
        rw [Nat.succ_mul] at hreach
        omega
      · refine ⟨s - 2 - t, by omega, by omega, ?_⟩
        rw [Nat.sub_mul]
        omega
    clear hlast
    obtain ⟨t, ht, hlt, hend⟩ | ⟨t, ht, hend, hreach⟩ := hsecond
    · have hstep := mul_step (m := n / s) hlt
      have hlongPurge : n / s < purge := by omega
      obtain ⟨q, hqpos, hq, rfl⟩ := hmultiple hlongPurge
      obtain ⟨p, rfl⟩ : ∃ p, t = p + 1 := ⟨t - 1, by omega⟩
      have hpurgeEq : purge = p * (n / s) := by
        rw [Nat.succ_mul] at hend
        omega
      subst hpurgeEq
      have hexceeds := hdvd (by omega) (Nat.mul_pos hqpos hm) (Nat.dvd_mul_left _ _) (Nat.dvd_mul_left _ _)
      rw [← Nat.add_mul] at hexceeds
      have hsum := Nat.lt_of_mul_lt_mul_right hexceeds
      obtain ⟨t, ht, -, heq⟩ | ⟨t, ht, hend, hreach⟩ :=
        (hclean (s - p) (by omega) (by omega)).first_cut hm (by omega) (by omega) hlong
      · rw [← Nat.add_mul] at heq
        have heq := Nat.eq_of_mul_eq_mul_right hm heq
        omega
      · rw [← Nat.add_mul] at hend
        rw [← Nat.succ_mul, ← Nat.add_mul] at hreach
        have hend := Nat.le_of_mul_le_mul_right hend hm
        have hreach := Nat.lt_of_mul_lt_mul_right hreach
        omega
    · obtain rfl : t = 0 := by omega
      have hlongPurge : n / s < purge := by omega
      obtain ⟨q, hqpos, hq, rfl⟩ := hmultiple hlongPurge
      have hle : n / s ≤ q * (n / s) := Nat.le_mul_of_pos_left _ hqpos
      omega
  · intro hfit g hpos hg
    obtain ⟨hpurge, hembargo⟩ | rfl | rfl | ⟨hpurge, hembargo, ⟨p, rfl⟩, ⟨q, rfl⟩, hsum⟩ := hfit
    · exact cleanAt_of_le hm hpos hg hpurge hembargo
    · exact cleanAt_of_purge hm hpos hg hg (Nat.lt_succ_self g) (Nat.succ_mul _ _)
    · refine cleanAt_of_embargo (t := g - 1) hm hpos hg (by omega) ?_
      rw [← Nat.succ_mul, Nat.succ_eq_add_one, Nat.sub_add_cancel hpos]
    · have hp : 0 < p := Nat.pos_of_mul_pos_left hpurge
      have hq : 0 < q := Nat.pos_of_mul_pos_left hembargo
      rw [← Nat.mul_add, Nat.mul_comm] at hsum
      have hsum := Nat.le_of_mul_le_mul_right hsum hm
      by_cases hnext : g + p < s
      · refine cleanAt_of_purge hm hpos hg hnext (by omega) ?_
        rw [Nat.add_mul, Nat.mul_comm (n / s)]
      · refine cleanAt_of_embargo (t := g - q) hm hpos hg (by omega) ?_
        rw [Nat.mul_comm (n / s), ← Nat.add_mul, Nat.sub_add_cancel (by omega)]

end SingleTrainingGroup

/-- The sizes for which no pair leaks. With two groups to spare, no zone may be longer than a group.
With one to spare, a longer zone is harmless where it ends exactly at the far end of a group. -/
def ZonesFit (n s k purge embargo : Nat) : Prop :=
  n / s = 0 ∨ s < 2 ∨ k = 0 ∨ s ≤ k ∨
  (k + 2 ≤ s ∧ purge ≤ n / s ∧ embargo ≤ n / s) ∨
  (k + 1 = s ∧ (embargo ≤ n - k * (n / s) ∨ ∃ t < k, (t + 1) * (n / s) + embargo = n) ∧
    (s = 2 ∨ (purge ≤ n / s ∧ embargo ≤ n / s) ∨ purge = n / s ∨ embargo = n / s ∨
      (0 < purge ∧ 0 < embargo ∧ n / s ∣ purge ∧ n / s ∣ embargo ∧
        purge + embargo ≤ s * (n / s))))

theorem all_clean_iff_single (hm : 0 < n / s) (hk : 1 ≤ k) (hks : k + 1 = s) :
    (∀ chosen : List Nat, chosen.Sublist (List.range s) → chosen.length = k →
      Clean n s purge embargo chosen) ↔
    (embargo ≤ n - k * (n / s) ∨ ∃ t < k, (t + 1) * (n / s) + embargo = n) ∧
      (s = 2 ∨ (purge ≤ n / s ∧ embargo ≤ n / s) ∨ purge = n / s ∨ embargo = n / s ∨
        (0 < purge ∧ 0 < embargo ∧ n / s ∣ purge ∧ n / s ∣ embargo ∧
          purge + embargo ≤ s * (n / s))) := by
  have hgroups : (∀ g < s, CleanAt n s purge embargo g) ↔
      CleanAt n s purge embargo k ∧ ∀ g, 0 < g → g + 1 < s → CleanAt n s purge embargo g := by
    constructor
    · intro hclean
      exact ⟨hclean k (by omega), fun g _ hg => hclean g (by omega)⟩
    · intro hclean g hg
      obtain rfl | hpos := Nat.eq_zero_or_pos g
      · exact cleanAt_zero hm hg
      · obtain hlt | heq := Nat.lt_or_eq_of_le (by omega : g ≤ k)
        · exact hclean.2 g hpos (by omega)
        · exact heq ▸ hclean.1
  rw [all_clean_iff_cleanAt hks, hgroups, cleanAt_last_iff hm hks (by omega)]
  apply and_congr_right
  intro _
  obtain rfl | hs := Nat.lt_or_eq_of_le (by omega : 2 ≤ s) |>.symm
  · simp only [true_or, iff_true]
    intro g hpos hg
    omega
  · rw [all_cleanAt_middle_iff hm hs, or_iff_right (by omega : ¬s = 2)]

variable {F : Type*} [FloatOps F] (cv : CombinatorialPurgedCV F) (nSamples : Nat)

/-- For every number of samples, groups and test groups, and for every purge and embargo: no pair
leaks exactly where the zones fit. -/
theorem leavesNoLeak_iff : cv.LeavesNoLeak nSamples ↔
    ZonesFit nSamples cv.nSplits cv.nTestGroups (cv.purgeSize nSamples) (cv.embargoSize nSamples) := by
  by_cases hreturns : 2 ≤ cv.nSplits ∧ 0 < nSamples / cv.nSplits
  · obtain ⟨hs, hm⟩ := hreturns
    rw [leavesNoLeak_iff_clean hs hm, ZonesFit, or_iff_right hm.ne', or_iff_right (by omega)]
    obtain hk | hk := Nat.eq_zero_or_pos cv.nTestGroups
    · simp only [hk, true_or, iff_true]
      intro chosen _ hlength g _ _ hswallowed
      obtain ⟨t, ht, -⟩ := hswallowed
      simp [List.length_eq_zero_iff.mp hlength] at ht
    · rw [or_iff_right hk.ne']
      obtain hall | hspare := Nat.lt_or_ge cv.nTestGroups cv.nSplits |>.symm
      · simp only [hall, true_or, iff_true]
        intro chosen hsub hlength g hg hout
        have heq := hsub.eq_of_length_le (by rw [List.length_range, hlength]; exact hall)
        exact absurd (heq ▸ List.mem_range.mpr hg) hout
      · rw [or_iff_right (by omega)]
        obtain hone | htwo := Nat.lt_or_eq_of_le (by omega : cv.nTestGroups + 1 ≤ cv.nSplits) |>.symm
        · have hfew : ¬cv.nTestGroups + 2 ≤ cv.nSplits := by omega
          rw [all_clean_iff_single hm hk hone]
          simp only [hfew, hone, false_and, false_or, true_and]
        · have hmany : cv.nTestGroups + 1 ≠ cv.nSplits := by omega
          have htwo : cv.nTestGroups + 2 ≤ cv.nSplits := by omega
          rw [all_clean_iff_fit hm hk htwo]
          simp only [hmany, htwo, false_and, or_false, true_and]
  · have hnone : ∀ train test, (train, test) ∉ cv.split nSamples := by
      intro train test hpair
      obtain ⟨hs, hm, -⟩ := mem_split.mp hpair
      exact hreturns ⟨hs, hm⟩
    have hfit : ZonesFit nSamples cv.nSplits cv.nTestGroups (cv.purgeSize nSamples)
        (cv.embargoSize nSamples) := by
      by_cases hs : 2 ≤ cv.nSplits
      · exact .inl (Nat.eq_zero_of_not_pos fun hm => hreturns ⟨hs, hm⟩)
      · exact .inr (.inl (by omega))
    simp only [hfit, iff_true]
    intro train test hpair
    exact absurd hpair (hnone train test)

def sampleLongPurge : CombinatorialPurgedCV ℚ := ⟨5, 1, 0, 3 / 10⟩

/-- The third group is the test group; the second one stands in its purge and is kept. -/
theorem sampleLongPurge_leaks :
    sampleLongPurge.purgeSize 10 = 3 ∧ ([0, 2, 3, 6, 7, 8, 9], [4, 5]) ∈ sampleLongPurge.split 10 ∧
      ¬sampleLongPurge.LeavesNoLeak 10 := by
  have hpair : ([0, 2, 3, 6, 7, 8, 9], [4, 5]) ∈ sampleLongPurge.split 10 := by decide +kernel
  refine ⟨by decide +kernel, hpair, ?_⟩
  intro hno
  obtain ⟨-, -, -, chosen, hsub, hlength, htest, hexact⟩ := hno _ _ hpair
  obtain ⟨t, rfl⟩ := List.length_eq_one_iff.mp hlength
  have hthird : t = 2 := by
    have hbound : t < 5 := List.mem_range.mp (hsub.subset (List.mem_singleton_self t))
    have hfour : 4 ∈ indices (group 10 5 t) := by
      have hmem : 4 ∈ [4, 5] := by decide
      rw [htest, List.flatMap_singleton] at hmem
      exact hmem
    exact group_unique hbound (by decide) hfour (by decide)
  have hkept := ((hexact 3).mp (by decide)).2.2 t (List.mem_singleton_self t)
  rw [hthird] at hkept
  apply hkept
  show (4 ≤ 3 + sampleLongPurge.purgeSize 10 ∧ 3 < 4) ∨ _
  exact .inl (by decide +kernel)

end CombinatorialPurgedCV

end Neoethos
