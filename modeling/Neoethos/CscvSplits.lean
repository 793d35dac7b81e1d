import Neoethos.Cscv
import Mathlib.Data.Finset.Powerset
import Mathlib.Data.Finset.Sort
import Mathlib.Algebra.BigOperators.Group.Finset.Basic

namespace Neoethos

def entry (xs : List Nat) (i : Nat) : Nat := (xs[i]?).getD 0

theorem entry_of_length_le {xs : List Nat} {i : Nat} (h : xs.length ≤ i) : entry xs i = 0 := by
  unfold entry
  rw [List.getElem?_eq_none_iff.mpr h, Option.getD_none]

theorem eq_of_entries {xs ys : List Nat} (hlength : xs.length = ys.length)
    (h : ∀ i, entry xs i = entry ys i) : xs = ys := by
  apply List.ext_getElem hlength
  intro i hx hy
  have hi := h i
  simp only [entry, List.getElem?_eq_getElem hx, List.getElem?_eq_getElem hy,
    Option.getD_some] at hi
  exact hi

theorem increasing_ext {xs ys : List Nat} (hx : xs.Pairwise (· < ·)) (hy : ys.Pairwise (· < ·))
    (h : ∀ x, x ∈ xs ↔ x ∈ ys) : xs = ys := by
  have hperm := (List.perm_ext_iff_of_nodup (hx.imp Nat.ne_of_lt) (hy.imp Nat.ne_of_lt)).mpr h
  have hx' : xs.Pairwise (· ≤ ·) := hx.imp Nat.le_of_lt
  exact hperm.eq_of_pairwise' hx' (hy.imp Nat.le_of_lt)

/-- `k` numbers below `n`, in increasing order. -/
structure IsCombination (n k : Nat) (xs : List Nat) : Prop where
  length : xs.length = k
  increasing : xs.Pairwise (· < ·)
  below : ∀ x ∈ xs, x < n

def ComesBefore (xs ys : List Nat) : Prop :=
  ∃ i, (∀ j < i, entry xs j = entry ys j) ∧ entry xs i < entry ys i

theorem ComesBefore.trans {xs ys zs : List Nat} (h₁ : ComesBefore xs ys) (h₂ : ComesBefore ys zs) :
    ComesBefore xs zs := by
  obtain ⟨i, hi, hlt⟩ := h₁
  obtain ⟨j, hj, hlt'⟩ := h₂
  rcases lt_trichotomy i j with hij | rfl | hji
  · exact ⟨i, fun l hl => (hi l hl).trans (hj l (by omega)), by have := hj i hij; omega⟩
  · exact ⟨i, fun l hl => (hi l hl).trans (hj l hl), by omega⟩
  · exact ⟨j, fun l hl => (hi l (by omega)).trans (hj l hl), by have := hi j hji; omega⟩

theorem ComesBefore.ne {xs ys : List Nat} (h : ComesBefore xs ys) : xs ≠ ys := by
  obtain ⟨i, -, hlt⟩ := h
  rintro rfl
  exact lt_irrefl _ hlt

theorem comesBefore_or {xs ys : List Nat} (hlength : xs.length = ys.length) :
    xs = ys ∨ ComesBefore xs ys ∨ ComesBefore ys xs := by
  by_cases hall : ∀ i, entry xs i = entry ys i
  · exact .inl (eq_of_entries hlength hall)
  · obtain ⟨i, hne, hleast⟩ := Nat.findX (not_forall.mp hall)
    have hsame : ∀ j < i, entry xs j = entry ys j := fun j hj => not_not.mp (hleast j hj)
    rcases Nat.lt_or_gt_of_ne hne with hlt | hgt
    · exact .inr (.inl ⟨i, hsame, hlt⟩)
    · exact .inr (.inr ⟨i, fun j hj => (hsame j hj).symm, hgt⟩)

namespace IsCombination

variable {n k : Nat} {xs ys : List Nat}

theorem entry_mem (h : IsCombination n k xs) {i : Nat} (hi : i < k) : entry xs i ∈ xs := by
  have hlt : i < xs.length := by rw [h.length]; exact hi
  unfold entry
  rw [List.getElem?_eq_getElem hlt, Option.getD_some]
  exact List.getElem_mem hlt

theorem entry_lt (h : IsCombination n k xs) {i j : Nat} (hij : i < j) (hj : j < k) :
    entry xs i < entry xs j := by
  have hjx : j < xs.length := by rw [h.length]; exact hj
  have hix : i < xs.length := by omega
  have hlt := List.pairwise_iff_getElem.mp h.increasing i j hix hjx hij
  unfold entry
  rw [List.getElem?_eq_getElem hix, List.getElem?_eq_getElem hjx]
  exact hlt

theorem spread (h : IsCombination n k xs) {i : Nat} (d : Nat) (hd : i + d < k) :
    entry xs i + d ≤ entry xs (i + d) := by
  induction d with
  | zero => exact le_rfl
  | succ d ih =>
    have hprev := ih (by omega)
    have hstep := h.entry_lt (by omega : i + d < i + (d + 1)) hd
    omega

theorem entry_le (h : IsCombination n k xs) {i : Nat} (hi : i < k) : entry xs i + k ≤ i + n := by
  have hspread := h.spread (k - 1 - i) (by omega : i + (k - 1 - i) < k)
  have hbelow := h.below _ (h.entry_mem (by omega : i + (k - 1 - i) < k))
  omega

theorem le_entry (h : IsCombination n k xs) {i : Nat} (hi : i < k) : i ≤ entry xs i := by
  have hspread := h.spread i (by omega : 0 + i < k)
  rw [Nat.zero_add] at hspread
  omega

end IsCombination

theorem isCombination_range {n k : Nat} (h : k ≤ n) : IsCombination n k (List.range k) where
  length := List.length_range
  increasing := List.pairwise_lt_range
  below := fun x hx => by have := List.mem_range.mp hx; omega

section Next

theorem find?_reverse_range {k : Nat} {p : Nat → Bool} :
    (∃ i < k, (List.range k).reverse.find? p = some i ∧ p i = true ∧
      ∀ j, i < j → j < k → p j = false) ∨
    ((List.range k).reverse.find? p = none ∧ ∀ j < k, p j = false) := by
  induction k with
  | zero => exact .inr ⟨rfl, fun j hj => absurd hj (Nat.not_lt_zero j)⟩
  | succ k ih =>
    rw [List.range_succ, List.reverse_append, List.reverse_singleton, List.singleton_append]
    cases hp : p k with
    | true =>
      refine .inl ⟨k, Nat.lt_succ_self k, List.find?_cons_of_pos hp, hp, ?_⟩
      intro j hkj hjk
      omega
    | false =>
      have hskip : (k :: (List.range k).reverse).find? p = (List.range k).reverse.find? p :=
        List.find?_cons_of_neg (by simp [hp])
      have hlast : ∀ j, j < k + 1 → j < k ∨ j = k := fun j hj => by omega
      rw [hskip]
      rcases ih with ⟨i, hi, hfind, hpi, hbehind⟩ | ⟨hfind, hnone⟩
      · refine .inl ⟨i, by omega, hfind, hpi, ?_⟩
        intro j hij hj
        rcases hlast j hj with hjk | rfl
        · exact hbehind j hij hjk
        · exact hp
      · refine .inr ⟨hfind, ?_⟩
        intro j hj
        rcases hlast j hj with hjk | rfl
        · exact hnone j hjk
        · exact hp

variable {n k : Nat} {idx next xs : List Nat}

/-- What the loop does to its index list: the last index that is not at its end moves on. -/
theorem nextCombination_cases (h : IsCombination n k idx) :
    (nextCombination n k idx = none ∧ ∀ j < k, entry idx j + k = j + n) ∨
    ∃ i < k, nextCombination n k idx =
        some (idx.take i ++ List.range' (entry idx i + 1) (k - i)) ∧
      entry idx i + k < i + n ∧ ∀ j, i < j → j < k → entry idx j + k = j + n := by
  have hat : ∀ j, j < k → (decide ((idx[j]?).getD 0 ≠ j + n - k) = false ↔
      entry idx j + k = j + n) := by
    intro j hj
    have hle := h.entry_le hj
    simp only [entry, ne_eq, decide_not, Bool.not_eq_false', decide_eq_true_eq] at hle ⊢
    omega
  unfold nextCombination
  rcases find?_reverse_range (k := k) (p := fun i => decide ((idx[i]?).getD 0 ≠ i + n - k)) with
    ⟨i, hi, hfind, hmoves, hbehind⟩ | ⟨hfind, hnone⟩
  · right
    refine ⟨i, hi, by rw [hfind]; rfl, ?_, fun j hij hj => (hat j hj).mp (hbehind j hij hj)⟩
    have hle := h.entry_le hi
    have hne : ¬entry idx i + k = i + n := by
      intro heq
      rw [(hat i hi).mpr heq] at hmoves
      cases hmoves
    omega
  · left
    exact ⟨by rw [hfind]; rfl, fun j hj => (hat j hj).mp (hnone j hj)⟩

theorem entry_moved {i : Nat} (hlength : idx.length = k) (hi : i < k) (j : Nat) :
    entry (idx.take i ++ List.range' (entry idx i + 1) (k - i)) j =
      if j < i then entry idx j else if j < k then entry idx i + 1 + (j - i) else 0 := by
  have htake : (idx.take i).length = i := by rw [List.length_take]; omega
  by_cases hji : j < i
  · rw [if_pos hji]
    unfold entry
    rw [List.getElem?_append_left (by rw [htake]; exact hji), List.getElem?_take_of_lt hji]
  · rw [if_neg hji]
    unfold entry
    rw [List.getElem?_append_right (by rw [htake]; omega), htake]
    by_cases hjk : j < k
    · rw [if_pos hjk, List.getElem?_range' (by omega), Option.getD_some]
      omega
    · rw [if_neg hjk, List.getElem?_eq_none_iff.mpr (by rw [List.length_range']; omega),
        Option.getD_none]

theorem isCombination_moved {i : Nat} (h : IsCombination n k idx) (hi : i < k)
    (hroom : entry idx i + k < i + n) :
    IsCombination n k (idx.take i ++ List.range' (entry idx i + 1) (k - i)) := by
  have hlength := h.length
  refine ⟨?_, ?_, ?_⟩
  · rw [List.length_append, List.length_take, List.length_range']
    omega
  · refine List.pairwise_append.mpr ⟨h.increasing.sublist (List.take_sublist i idx),
      List.pairwise_lt_range', ?_⟩
    intro x hx y hy
    obtain ⟨j, hj, rfl⟩ := List.mem_iff_getElem.mp hx
    rw [List.length_take] at hj
    have hji : j < i := by omega
    have hlt := h.entry_lt hji hi
    have hentry : entry idx j = (idx.take i)[j] := by
      unfold entry
      rw [List.getElem_take, List.getElem?_eq_getElem (by omega), Option.getD_some]
    have hyge := (List.mem_range'_1.mp hy).1
    omega
  · intro x hx
    rcases List.mem_append.mp hx with hx | hx
    · exact h.below x (List.mem_of_mem_take hx)
    · have hbounds := List.mem_range'_1.mp hx
      omega

/-- A step goes to the combination that comes next, with none between. -/
theorem nextCombination_spec (h : IsCombination n k idx)
    (hnext : nextCombination n k idx = some next) :
    IsCombination n k next ∧ ComesBefore idx next ∧
      ∀ xs, IsCombination n k xs → ComesBefore idx xs → xs = next ∨ ComesBefore next xs := by
  rcases nextCombination_cases h with ⟨hnone, -⟩ | ⟨i, hi, hmoved, hroom, hbehind⟩
  · rw [hnone] at hnext
    cases hnext
  · obtain rfl := Option.some.inj (hnext.symm.trans hmoved)
    have hentry := entry_moved h.length hi
    have hvalid := isCombination_moved h hi hroom
    refine ⟨hvalid, ⟨i, ?_, ?_⟩, ?_⟩
    · intro j hj
      rw [hentry, if_pos hj]
    · rw [hentry, if_neg (lt_irrefl i), if_pos hi]
      omega
    · intro xs hxs hbefore
      rcases comesBefore_or (hxs.length.trans hvalid.length.symm) with heq | hearlier | hgoal
      · exact .inl heq
      · -- An `xs` between the two agrees with both before `i`, and is no smaller behind it.
        exfalso
        obtain ⟨p, hsame, hlt⟩ := hbefore
        obtain ⟨q, hsame', hlt'⟩ := hearlier
        have hpk : p < k := by
          by_contra hpk
          have hend : xs.length ≤ p := by rw [hxs.length]; omega
          rw [entry_of_length_le hend] at hlt
          omega
        have hpi : p ≤ i := by
          by_contra hpi
          have hend := hbehind p (by omega) hpk
          have hle := hxs.entry_le hpk
          omega
        have hqk : q < k := by
          by_contra hqk
          rw [hentry, if_neg (by omega), if_neg (by omega)] at hlt'
          omega
        have hpq : q = p ∨ q < p ∨ p < q := by omega
        rcases hpq with rfl | hqp | hpq
        · rw [hentry] at hlt'
          split at hlt'
          · omega
          · have hqi : q = i := by omega
            subst hqi
            omega
        · have hfirst := hsame q hqp
          rw [hentry, if_pos (by omega)] at hlt'
          omega
        · have hagree := hsame' p hpq
          rw [hentry] at hagree
          have hpi' : p = i := by
            by_contra hne
            rw [if_pos (by omega)] at hagree
            omega
          subst hpi'
          rw [if_neg (lt_irrefl p), if_pos hpk] at hagree
          rw [hentry, if_neg (by omega), if_pos hqk] at hlt'
          have hspread := hxs.spread (q - p) (by omega : p + (q - p) < k)
          rw [show p + (q - p) = q by omega] at hspread
          omega
      · exact .inr hgoal

theorem no_combination_behind_last (h : IsCombination n k idx)
    (hnone : nextCombination n k idx = none) (hxs : IsCombination n k xs) :
    ¬ComesBefore idx xs := by
  rcases nextCombination_cases h with ⟨-, hlast⟩ | ⟨i, hi, hmoved, -⟩
  · rintro ⟨p, -, hlt⟩
    by_cases hpk : p < k
    · have hend := hlast p hpk
      have hle := hxs.entry_le hpk
      omega
    · have hend : xs.length ≤ p := by rw [hxs.length]; omega
      rw [entry_of_length_le hend] at hlt
      omega
  · rw [hnone] at hmoved
    cases hmoved

end Next

section Run

variable {n k : Nat}

/-- What a run of the loop from a combination on has visited. -/
structure Visits (n k rounds : Nat) (idx : List Nat) (visited : List (List Nat)) : Prop where
  valid : ∀ xs ∈ visited, IsCombination n k xs
  behind : ∀ xs ∈ visited, xs = idx ∨ ComesBefore idx xs
  ordered : visited.Pairwise ComesBefore
  complete : visited.length = rounds ∨
    ∀ xs, IsCombination n k xs → xs = idx ∨ ComesBefore idx xs → xs ∈ visited

theorem combinationsFrom_visits (rounds : Nat) {idx : List Nat} (h : IsCombination n k idx) :
    Visits n k rounds idx (combinationsFrom n k rounds idx) := by
  induction rounds generalizing idx with
  | zero =>
    exact ⟨fun xs hxs => absurd hxs List.not_mem_nil, fun xs hxs => absurd hxs List.not_mem_nil,
      .nil, .inl rfl⟩
  | succ rounds ih =>
    unfold combinationsFrom
    cases hnext : nextCombination n k idx with
    | none =>
      refine ⟨?_, ?_, List.pairwise_singleton _ _, .inr ?_⟩
      · intro xs hxs
        rw [List.mem_singleton.mp hxs]
        exact h
      · exact fun xs hxs => .inl (List.mem_singleton.mp hxs)
      · intro xs hvalid hbehind
        rcases hbehind with rfl | hbehind
        · exact List.mem_singleton.mpr rfl
        · exact absurd hbehind (no_combination_behind_last h hnext hvalid)
    | some next =>
      obtain ⟨hvalid, hstep, hbetween⟩ := nextCombination_spec h hnext
      have htail := ih hvalid
      have hlater : ∀ xs ∈ combinationsFrom n k rounds next, ComesBefore idx xs := by
        intro xs hxs
        rcases htail.behind xs hxs with rfl | hbehind
        · exact hstep
        · exact hstep.trans hbehind
      refine ⟨?_, ?_, List.pairwise_cons.mpr ⟨hlater, htail.ordered⟩, ?_⟩
      · intro xs hxs
        rcases List.mem_cons.mp hxs with rfl | hxs
        · exact h
        · exact htail.valid xs hxs
      · intro xs hxs
        rcases List.mem_cons.mp hxs with rfl | hxs
        · exact .inl rfl
        · exact .inr (hlater xs hxs)
      · rcases htail.complete with hlength | hcomplete
        · exact .inl (by rw [List.length_cons, hlength])
        · right
          intro xs hxs hbehind
          rcases hbehind with rfl | hbehind
          · exact List.mem_cons_self
          · exact List.mem_cons_of_mem _ (hcomplete xs hxs (hbetween xs hxs hbehind))

end Run

section Sets

open Finset (powersetCard range)

variable {n k : Nat} {xs ys : List Nat}

theorem IsCombination.toFinset_mem (h : IsCombination n k xs) :
    xs.toFinset ∈ powersetCard k (range n) := by
  refine Finset.mem_powersetCard.mpr ⟨?_, ?_⟩
  · intro x hx
    exact Finset.mem_range.mpr (h.below x (List.mem_toFinset.mp hx))
  · rw [List.toFinset_card_of_nodup (h.increasing.imp Nat.ne_of_lt), h.length]

theorem IsCombination.sort_toFinset (h : IsCombination n k xs) : xs.toFinset.sort = xs := by
  apply increasing_ext (Finset.sortedLT_sort xs.toFinset).pairwise h.increasing
  intro x
  rw [Finset.mem_sort, List.mem_toFinset]

theorem isCombination_sort {s : Finset Nat} (h : s ∈ powersetCard k (range n)) :
    IsCombination n k s.sort := by
  obtain ⟨hsub, hcard⟩ := Finset.mem_powersetCard.mp h
  refine ⟨by rw [Finset.length_sort, hcard], (Finset.sortedLT_sort s).pairwise, ?_⟩
  intro x hx
  exact Finset.mem_range.mp (hsub ((Finset.mem_sort _).mp hx))

theorem range_first (h : IsCombination n k xs) : xs = List.range k ∨
    ComesBefore (List.range k) xs := by
  have hrange : ∀ i < k, entry (List.range k) i = i := by
    intro i hi
    unfold entry
    rw [List.getElem?_range hi, Option.getD_some]
  have hlength : xs.length = (List.range k).length := by rw [h.length, List.length_range]
  rcases comesBefore_or hlength with heq | hbefore | hafter
  · exact .inl heq
  · obtain ⟨i, -, hlt⟩ := hbefore
    by_cases hi : i < k
    · have hle := h.le_entry hi
      rw [hrange i hi] at hlt
      omega
    · have hend : (List.range k).length ≤ i := by rw [List.length_range]; omega
      rw [entry_of_length_le hend] at hlt
      omega
  · exact .inr hafter

def splitSets (n k : Nat) : List (Finset Nat) := (combinations n k).map List.toFinset

theorem combinations_visits (hk : 0 < k) (hkn : k ≤ n) :
    Visits n k (n.choose k) (List.range k) (combinations n k) := by
  unfold combinations
  rw [if_neg (by omega)]
  exact combinationsFrom_visits _ (isCombination_range hkn)

theorem splitSets_nodup (hk : 0 < k) (hkn : k ≤ n) : (splitSets n k).Nodup := by
  have hvisits := combinations_visits hk hkn
  refine List.Nodup.map_on ?_ (hvisits.ordered.imp ComesBefore.ne)
  intro xs hxs ys hys heq
  rw [← (hvisits.valid xs hxs).sort_toFinset, ← (hvisits.valid ys hys).sort_toFinset, heq]

theorem splitSets_toFinset (hk : 0 < k) (hkn : k ≤ n) :
    (splitSets n k).toFinset = powersetCard k (range n) := by
  have hvisits := combinations_visits hk hkn
  have hsub : (splitSets n k).toFinset ⊆ powersetCard k (range n) := by
    intro s hs
    obtain ⟨xs, hxs, rfl⟩ := List.mem_map.mp (List.mem_toFinset.mp hs)
    exact (hvisits.valid xs hxs).toFinset_mem
  rcases hvisits.complete with hlength | hcomplete
  · -- There are as many visits as there are sets.
    apply Finset.eq_of_subset_of_card_le hsub
    rw [List.toFinset_card_of_nodup (splitSets_nodup hk hkn), Finset.card_powersetCard,
      Finset.card_range, splitSets, List.length_map, hlength]
  · apply hsub.antisymm
    intro s hs
    have hvalid := isCombination_sort hs
    rw [List.mem_toFinset]
    exact List.mem_map.mpr ⟨s.sort, hcomplete _ hvalid (range_first hvalid),
      Finset.sort_toFinset s (· ≤ ·)⟩

theorem length_combinations (hk : 0 < k) (hkn : k ≤ n) :
    (combinations n k).length = n.choose k := by
  have hcard := congrArg Finset.card (splitSets_toFinset hk hkn)
  rw [List.toFinset_card_of_nodup (splitSets_nodup hk hkn), Finset.card_powersetCard,
    Finset.card_range, splitSets, List.length_map] at hcard
  exact hcard

/-- What is summed over the splits of the loop is summed over the sets. -/
theorem sum_combinations {M : Type*} [AddCommMonoid M] (hk : 0 < k) (hkn : k ≤ n)
    (f : Finset Nat → M) :
    ((combinations n k).map fun xs => f xs.toFinset).sum = ∑ s ∈ powersetCard k (range n), f s := by
  rw [← splitSets_toFinset hk hkn, List.sum_toFinset f (splitSets_nodup hk hkn), splitSets,
    List.map_map]
  rfl

theorem countP_combinations (hk : 0 < k) (hkn : k ≤ n) (p : Finset Nat → Bool) :
    (combinations n k).countP (fun xs => p xs.toFinset) =
      ((powersetCard k (range n)).filter fun s => p s = true).card := by
  rw [← splitSets_toFinset hk hkn, ← List.toFinset_filter,
    List.toFinset_card_of_nodup ((splitSets_nodup hk hkn).filter _), ← List.countP_eq_length_filter,
    splitSets, List.countP_map]
  rfl

end Sets

end Neoethos
