import Neoethos.CscvEquality

/-! `for_each_combination` with the loops of the source, and `binomial` in 128 bits. -/

namespace Neoethos

section Loop

/-- The indices behind `i`, each one more than the index before it. -/
def resetTail (k i : Nat) (idx : List Nat) : List Nat :=
  (List.range' (i + 1) (k - (i + 1))).foldl
    (fun idx j => idx.set j (entry idx (j - 1) + 1)) idx

/-- The inner loop, below an index: the last index that is not at its own limit moves on. -/
def advance (n k : Nat) : Nat → List Nat → Option (List Nat)
  | 0, _ => none
  | i + 1, idx =>
    if entry idx i ≠ i + n - k then some (resetTail k i (idx.set i (entry idx i + 1)))
    else advance n k i idx

variable {σ : Type*}

/-- The outer loop on the state that `f` changes; `none` where the fuel runs out. -/
def callLoop (n k : Nat) (f : σ → List Nat → σ) : Nat → List Nat → σ → Option σ
  | 0, _, _ => none
  | fuel + 1, idx, s =>
    match advance n k k idx with
    | none => some (f s idx)
    | some next => callLoop n k f fuel next (f s idx)

def forEachCombination (n k : Nat) (f : σ → List Nat → σ) (fuel : Nat) (s : σ) : Option σ :=
  if k = 0 ∨ n < k then some s else callLoop n k f fuel (List.range k) s

end Loop

section Step

variable {n k : Nat} {idx : List Nat}

theorem entry_set {xs : List Nat} {j v : Nat} (hj : j < xs.length) (p : Nat) :
    entry (xs.set j v) p = if p = j then v else entry xs p := by
  unfold entry
  rw [List.getElem?_set]
  by_cases hpj : p = j
  · subst hpj
    rw [if_pos rfl, if_pos rfl, if_pos hj, Option.getD_some]
  · rw [if_neg (Ne.symm hpj), if_neg hpj]

theorem entry_resetTail {i : Nat} (steps : Nat)
    (hsteps : i + steps < idx.length) :
    let reset := (List.range' (i + 1) steps).foldl
      (fun idx j => idx.set j (entry idx (j - 1) + 1)) idx
    reset.length = idx.length ∧ ∀ p, entry reset p =
      if i < p ∧ p ≤ i + steps then entry idx i + (p - i) else entry idx p := by
  induction steps with
  | zero =>
    refine ⟨rfl, fun p => ?_⟩
    rw [if_neg (by omega)]
    rfl
  | succ steps ih =>
    obtain ⟨hlength, hentry⟩ := ih (by omega)
    rw [List.range'_1_concat, List.foldl_append, List.foldl_cons, List.foldl_nil]
    generalize (List.range' (i + 1) steps).foldl
      (fun idx j => idx.set j (entry idx (j - 1) + 1)) idx = reset at hlength hentry
    refine ⟨by rw [List.length_set, hlength], fun p => ?_⟩
    rw [entry_set (by omega), hentry, hentry]
    have hbefore : i + 1 + steps - 1 = i + steps := by omega
    rw [hbefore]
    by_cases hlast : p = i + 1 + steps
    · rw [if_pos hlast]
      by_cases hfirst : steps = 0
      · subst hfirst
        rw [if_neg (by omega), if_pos (by omega), Nat.add_zero i]
        omega
      · rw [if_pos (by omega), if_pos (by omega)]
        omega
    · rw [if_neg hlast]
      by_cases hinside : i < p ∧ p ≤ i + steps
      · rw [if_pos hinside, if_pos (by omega)]
      · rw [if_neg hinside, if_neg (by omega)]

theorem resetTail_eq {i : Nat} (hlength : idx.length = k) (hi : i < k) :
    resetTail k i (idx.set i (entry idx i + 1)) =
      idx.take i ++ List.range' (entry idx i + 1) (k - i) := by
  have hset : (idx.set i (entry idx i + 1)).length = k := by rw [List.length_set, hlength]
  obtain ⟨hreset, hentry⟩ := entry_resetTail (k - (i + 1))
    (by rw [hset]; omega : i + (k - (i + 1)) < (idx.set i (entry idx i + 1)).length)
  refine eq_of_entries ?_ fun p => ?_
  · unfold resetTail
    rw [hreset, hset, List.length_append, List.length_take, List.length_range']
    omega
  · unfold resetTail
    rw [hentry, entry_set (by omega), entry_set (by omega), entry_moved hlength hi, if_pos rfl]
    have hp : p < i ∨ p = i ∨ i < p ∧ p < k ∨ k ≤ p := by omega
    rcases hp with hp | rfl | ⟨hlow, hhigh⟩ | hp
    · rw [if_neg (by omega), if_neg (by omega), if_pos hp]
    · rw [if_neg (by omega), if_pos rfl, if_neg (by omega), if_pos hi]
      omega
    · rw [if_pos (by omega), if_neg (by omega), if_pos hhigh]
    · rw [if_neg (by omega), if_neg (by omega), if_neg (by omega), if_neg (by omega)]
      exact entry_of_length_le (by omega)

theorem advance_eq_find (hlength : idx.length = k) (i : Nat) (hi : i ≤ k) :
    advance n k i idx =
      ((List.range i).reverse.find? fun i => (idx[i]?).getD 0 ≠ i + n - k).map fun i =>
        idx.take i ++ List.range' ((idx[i]?).getD 0 + 1) (k - i) := by
  induction i with
  | zero => rfl
  | succ i ih =>
    unfold advance
    rw [List.range_succ, List.reverse_append, List.reverse_singleton, List.singleton_append]
    split
    next hmoves =>
      rw [List.find?_cons_of_pos (by simpa [entry] using hmoves), resetTail_eq hlength (by omega)]
      rfl
    next hlimit =>
      rw [List.find?_cons_of_neg (by simpa [entry] using hlimit)]
      exact ih (by omega)

theorem advance_eq_next (hlength : idx.length = k) :
    advance n k k idx = nextCombination n k idx :=
  advance_eq_find hlength k le_rfl

end Step

section Calls

open Finset (powersetCard range)

variable {n k : Nat} {σ : Type*} {f : σ → List Nat → σ}

/-- The loop comes to its end, when it visits fewer lists than it has fuel for. -/
theorem callLoop_eq (fuel : Nat) {idx : List Nat} {s : σ} (h : IsCombination n k idx)
    (hfuel : (combinationsFrom n k fuel idx).length < fuel) :
    callLoop n k f fuel idx s = some ((combinationsFrom n k fuel idx).foldl f s) := by
  induction fuel generalizing idx s with
  | zero => exact absurd hfuel (Nat.not_lt_zero _)
  | succ fuel ih =>
    unfold callLoop
    unfold combinationsFrom at hfuel ⊢
    rw [advance_eq_next h.length]
    cases hnext : nextCombination n k idx with
    | none => rfl
    | some next =>
      rw [hnext] at hfuel
      dsimp only at hfuel ⊢
      rw [List.length_cons] at hfuel
      rw [List.foldl_cons]
      exact ih (nextCombination_spec h hnext).1 (by omega)

theorem Visits.nodup {rounds : Nat} {idx : List Nat} {visited : List (List Nat)}
    (h : Visits n k rounds idx visited) : visited.Nodup :=
  h.ordered.imp ComesBefore.ne

theorem Visits.length_le {rounds : Nat} {idx : List Nat} {visited : List (List Nat)}
    (h : Visits n k rounds idx visited) : visited.length ≤ n.choose k := by
  have hnodup : (visited.map List.toFinset).Nodup := by
    refine List.Nodup.map_on ?_ h.nodup
    intro xs hxs ys hys heq
    rw [← (h.valid xs hxs).sort_toFinset, ← (h.valid ys hys).sort_toFinset, heq]
  have hsub : (visited.map List.toFinset).toFinset ⊆ powersetCard k (range n) := by
    intro s hs
    obtain ⟨xs, hxs, rfl⟩ := List.mem_map.mp (List.mem_toFinset.mp hs)
    exact (h.valid xs hxs).toFinset_mem
  have hcard := Finset.card_le_card hsub
  rw [List.toFinset_card_of_nodup hnodup, List.length_map, Finset.card_powersetCard,
    Finset.card_range] at hcard
  exact hcard

theorem combinationsFrom_take (rounds more : Nat) (idx : List Nat) :
    (combinationsFrom n k (rounds + more) idx).take rounds = combinationsFrom n k rounds idx := by
  induction rounds generalizing idx with
  | zero => rfl
  | succ rounds ih =>
    rw [Nat.succ_add]
    unfold combinationsFrom
    rw [List.take_succ_cons]
    cases nextCombination n k idx with
    | none => rw [List.take_nil]
    | some next => exact congrArg (idx :: ·) (ih next)

/-- With more fuel than there are sets, the loop makes its calls and ends. -/
theorem forEachCombination_eq (hk : 0 < k) (hkn : k ≤ n) {fuel : Nat} (hfuel : n.choose k < fuel)
    (s : σ) : forEachCombination n k f fuel s = some ((combinations n k).foldl f s) := by
  have hvisits := combinationsFrom_visits fuel (isCombination_range hkn)
  have hlength := hvisits.length_le
  have hsame : combinationsFrom n k fuel (List.range k) = combinations n k := by
    unfold combinations
    rw [if_neg (by omega)]
    obtain ⟨more, rfl⟩ := Nat.exists_eq_add_of_le hfuel.le
    rw [← combinationsFrom_take (n.choose k) more, List.take_of_length_le hlength]
  unfold forEachCombination
  rw [if_neg (by omega), callLoop_eq fuel (isCombination_range hkn) (by omega), hsame]

theorem mem_combinations (hk : 0 < k) (hkn : k ≤ n) {xs : List Nat} :
    xs ∈ combinations n k ↔ IsCombination n k xs := by
  have hvisits := combinations_visits hk hkn
  constructor
  · exact hvisits.valid xs
  · intro h
    have hset : xs.toFinset ∈ (splitSets n k).toFinset := by
      rw [splitSets_toFinset hk hkn]
      exact h.toFinset_mem
    obtain ⟨ys, hys, heq⟩ := List.mem_map.mp (List.mem_toFinset.mp hset)
    rw [← h.sort_toFinset, ← heq, (hvisits.valid ys hys).sort_toFinset]
    exact hys

theorem ComesBefore.lt {xs ys : List Nat} (h : ComesBefore xs ys)
    (hlength : xs.length = ys.length) : xs < ys := by
  obtain ⟨i, hsame, hlt⟩ := h
  have hy : i < ys.length := by
    by_contra hend
    rw [entry_of_length_le (not_lt.mp hend)] at hlt
    exact Nat.not_lt_zero _ hlt
  have hx : i < xs.length := by rw [hlength]; exact hy
  refine List.lt_iff_exists.mpr (.inr ⟨i, hx, hy, ?_, ?_⟩)
  · intro j hj
    have hentry := hsame j hj
    unfold entry at hentry
    rw [List.getElem?_eq_getElem (by omega), List.getElem?_eq_getElem (by omega)] at hentry
    exact hentry
  · unfold entry at hlt
    rw [List.getElem?_eq_getElem hx, List.getElem?_eq_getElem hy] at hlt
    exact hlt

end Calls

section Binomial

def binomialBefore (n i : Nat) : Nat :=
  (List.range i).foldl (fun acc i => acc * (n - i) / (i + 1)) 1

/-- `binomial` where an overflow of the product stops it. -/
def binomialU128 (n k : Nat) : Option Nat :=
  if n < k then some 0
  else (List.range (min k (n - k))).foldlM (fun acc i =>
    if acc * (n - i) < 2 ^ 128 then some (acc * (n - i) / (i + 1)) else none) 1

variable {n k : Nat}

theorem binomialBefore_eq {i : Nat} (hi : i ≤ n) : binomialBefore n i = n.choose i :=
  foldl_binomial n i hi

theorem binomial_divides {i : Nat} (hi : i ≤ n) : i + 1 ∣ binomialBefore n i * (n - i) := by
  rw [binomialBefore_eq hi, ← Nat.choose_succ_right_eq]
  exact Dvd.intro_left _ rfl

theorem foldlM_u128 (steps : Nat) (value : Nat) :
    (List.range steps).foldlM (fun acc i =>
        if acc * (n - i) < 2 ^ 128 then some (acc * (n - i) / (i + 1)) else none) 1 = some value ↔
      value = binomialBefore n steps ∧
        ∀ i < steps, binomialBefore n i * (n - i) < 2 ^ 128 := by
  induction steps generalizing value with
  | zero =>
    constructor
    · intro h
      exact ⟨(Option.some.inj h).symm, fun i hi => absurd hi (Nat.not_lt_zero i)⟩
    · rintro ⟨rfl, -⟩
      rfl
  | succ steps ih =>
    have hbefore : binomialBefore n (steps + 1) =
        binomialBefore n steps * (n - steps) / (steps + 1) := by
      unfold binomialBefore
      rw [List.range_succ, List.foldl_append]
      rfl
    rw [List.range_succ, List.foldlM_append, Option.bind_eq_bind, Option.bind_eq_some_iff]
    constructor
    · rintro ⟨acc, hacc, hlast⟩
      obtain ⟨rfl, hfits⟩ := (ih acc).mp hacc
      rw [List.foldlM_cons] at hlast
      obtain ⟨next, hnext, hlast⟩ := Option.bind_eq_some_iff.mp hlast
      obtain rfl := Option.some.inj hlast
      split at hnext
      next hroom =>
        refine ⟨by rw [hbefore]; exact (Option.some.inj hnext).symm, fun i hi => ?_⟩
        rcases Nat.lt_succ_iff_lt_or_eq.mp hi with hi | rfl
        · exact hfits i hi
        · exact hroom
      next => cases hnext
    · rintro ⟨rfl, hfits⟩
      refine ⟨binomialBefore n steps, (ih _).mpr ⟨rfl, fun i hi => hfits i (by omega)⟩, ?_⟩
      rw [List.foldlM_cons, if_pos (hfits steps (Nat.lt_succ_self steps)), ← hbefore]
      rfl

/-- In 128 bits the formula gives the same number, where its products fit. -/
theorem binomialU128_eq_some_iff (hkn : k ≤ n) (value : Nat) :
    binomialU128 n k = some value ↔ value = binomial n k ∧
      ∀ i < min k (n - k), binomialBefore n i * (n - i) < 2 ^ 128 := by
  unfold binomialU128 binomial
  rw [if_neg (by omega), if_neg (by omega)]
  exact foldlM_u128 (min k (n - k)) value

end Binomial

/-- Every combination is visited, in order and once, and there are as many as `binomial` says. -/
theorem forEachCombination_complete {n k : Nat} (hk : 1 ≤ k) (hkn : k ≤ n) :
    ∃ calls : List (List Nat),
      (∀ (σ : Type) (f : σ → List Nat → σ) (s : σ) (fuel : Nat), binomial n k < fuel →
        forEachCombination n k f fuel s = some (calls.foldl f s)) ∧
      (∀ xs, calls.count xs = 1 ↔ IsCombination n k xs) ∧
      (∀ xs ∈ calls, IsCombination n k xs) ∧
      calls.Pairwise (· < ·) ∧
      calls.length = binomial n k ∧
      (∀ i < min k (n - k), i + 1 ∣ binomialBefore n i * (n - i)) ∧
      ∀ value, binomialU128 n k = some value ↔ value = binomial n k ∧
        ∀ i < min k (n - k), binomialBefore n i * (n - i) < 2 ^ 128 := by
  have hvisits := combinations_visits hk hkn
  refine ⟨combinations n k, ?_, ?_, hvisits.valid, ?_, ?_, ?_, binomialU128_eq_some_iff hkn⟩
  · intro σ f s fuel hfuel
    rw [binomial_eq_choose] at hfuel
    exact forEachCombination_eq hk hkn hfuel s
  · intro xs
    rw [← mem_combinations hk hkn]
    constructor
    · intro hcount
      exact List.count_pos_iff.mp (by omega)
    · exact List.count_eq_one_of_mem hvisits.nodup
  · refine hvisits.ordered.imp_of_mem ?_
    intro xs ys hxs hys hbefore
    exact hbefore.lt ((hvisits.valid xs hxs).length.trans (hvisits.valid ys hys).length.symm)
  · rw [binomial_eq_choose]
    exact length_combinations hk hkn
  · exact fun i hi => binomial_divides (by omega)

theorem forEachCombination_complete_five_two : ∃ calls : List (List Nat),
    (∀ (σ : Type) (f : σ → List Nat → σ) (s : σ) (fuel : Nat), binomial 5 2 < fuel →
      forEachCombination 5 2 f fuel s = some (calls.foldl f s)) ∧ calls.length = 10 := by
  obtain ⟨calls, hcalls, -, -, -, hlength, -⟩ :=
    forEachCombination_complete (show 1 ≤ 2 by decide) (show 2 ≤ 5 by decide)
  exact ⟨calls, hcalls, hlength⟩

end Neoethos
