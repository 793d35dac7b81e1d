import Mathlib.Algebra.Order.Group.Abs
import Mathlib.Data.List.Sort
import Mathlib.Data.List.Pairwise
import Mathlib.Tactic.Linarith
import Neoethos.FeatureIndex
import Neoethos.FloatOps

/-! `Gene::normalize` of `strategy_gene.rs`: the form that every gene of the search is brought
to. -/

namespace Neoethos

namespace Gene

open FloatOps (lit lt le isFinite)

section Code

variable {F : Type*} [FloatOps F]

/-- One step of the merge: a term adds its weight to the last one of the same index. -/
def mergeTerm (merged : List (Nat × F)) (term : Nat × F) : List (Nat × F) :=
  match merged.getLast? with
  | some last =>
    if last.1 = term.1 then merged.dropLast ++ [(last.1, last.2 + term.2)]
    else merged ++ [term]
  | none => [term]

def sortTerms (terms : List (Nat × F)) : List (Nat × F) :=
  terms.mergeSort fun a b => a.1 ≤ b.1

/-- The terms of a gene, with an index of the table and a finite weight each. -/
def terms (g : Gene F) (nIndicators : Nat) : List (Nat × F) :=
  let indices := if g.indices = [] then [0] else g.indices
  let weights := if g.weights.length = indices.length then g.weights
    else List.replicate indices.length (lit 1)
  (indices.zip weights).map fun (idx, weight) =>
    (idx % nIndicators, if isFinite weight then weight else lit 0)

def weighs (weight : F) : Bool :=
  lt (lit (1 / 1000000)) (FloatOps.abs weight)

def normalizedTerms (g : Gene F) (nIndicators : Nat) : List (Nat × F) :=
  let merged := (sortTerms (g.terms nIndicators)).foldl mergeTerm []
  let kept := if 1 < merged.length then merged.filter fun term => weighs term.2 else merged
  let kept := match kept with
    | [] => [(0, lit 1)]
    | kept => kept
  sortTerms kept

def normalizedWeight (weight : F) : F :=
  if isFinite weight && weighs weight then FloatOps.clamp weight (lit (-5)) (lit 5) else lit 1

def normalizedThresholds (long short : F) : F × F :=
  let long := if isFinite long then long else lit (1 / 4)
  let short := if isFinite short then short else lit (-1 / 4)
  if le long short then
    let mid := (long + short) * lit (1 / 2)
    (mid + lit (1 / 20), mid - lit (1 / 20))
  else (long, short)

/-- `normalize`, with `min_indicators` 1 as at every call: one term is there without padding. -/
def normalize (g : Gene F) (nIndicators : Nat) : Gene F :=
  let nIndicators := max nIndicators 1
  let kept := g.normalizedTerms nIndicators
  let thresholds := normalizedThresholds g.longThreshold g.shortThreshold
  { g with
    indices := kept.map Prod.fst
    weights := kept.map fun term => normalizedWeight term.2
    longThreshold := thresholds.1
    shortThreshold := thresholds.2
    tpPips := if !isFinite g.tpPips || le g.tpPips (lit 0) then lit 40 else g.tpPips
    slPips := if !isFinite g.slPips || le g.slPips (lit 0) then lit 20 else g.slPips
    stopVolMult :=
      if !isFinite g.stopVolMult || lt g.stopVolMult (lit 0) then lit 0 else g.stopVolMult }

end Code

/-- A gene that the evaluator can run: different indicators of the table in order, weights that
count and stay in their range, an upper threshold above the lower one, and exits of positive
size. -/
structure WellFormed (nIndicators : Nat) (g : Gene ℚ) : Prop where
  terms : g.indices.length = g.weights.length
  nonempty : g.indices ≠ []
  sorted : g.indices.Pairwise (· < ·)
  inRange : ∀ idx ∈ g.indices, idx < nIndicators
  weights : ∀ weight ∈ g.weights, 1 / 1000000 < |weight| ∧ |weight| ≤ 5
  thresholds : g.shortThreshold < g.longThreshold
  target : 0 < g.tpPips
  stop : 0 < g.slPips
  multiplier : 0 ≤ g.stopVolMult

section Terms

variable {F : Type*}

def Merged (terms : List (Nat × F)) : Prop :=
  terms.Pairwise fun a b => a.1 < b.1

theorem sortTerms_sorted (terms : List (Nat × F)) :
    (sortTerms terms).Pairwise fun a b => a.1 ≤ b.1 := by
  have hsorted := @List.pairwise_mergeSort _ (fun a b : Nat × F => decide (a.1 ≤ b.1))
    (fun a b c hab hbc => by simpa using le_trans (by simpa using hab) (by simpa using hbc))
    (fun a b => by simpa using le_total a.1 b.1) terms
  exact hsorted.imp fun hab => by simpa using hab

theorem sortTerms_of_merged {terms : List (Nat × F)} (h : Merged terms) :
    sortTerms terms = terms :=
  List.mergeSort_of_pairwise (h.imp fun hab => decide_eq_true (Nat.le_of_lt hab))

variable [FloatOps F]

theorem mergeTerm_merged {merged : List (Nat × F)} {term : Nat × F} (h : Merged merged)
    (hle : ∀ a ∈ merged, a.1 ≤ term.1) :
    Merged (mergeTerm merged term) ∧ mergeTerm merged term ≠ [] ∧
      ∀ a ∈ mergeTerm merged term, a.1 ≤ term.1 ∧ (a.1 = term.1 ∨ ∃ b ∈ merged, b.1 = a.1) := by
  induction merged using List.reverseRecOn with
  | nil =>
    refine ⟨List.pairwise_singleton _ _, List.cons_ne_nil _ _, fun a ha => ?_⟩
    obtain rfl := List.mem_singleton.mp ha
    exact ⟨le_refl _, .inl rfl⟩
  | append_singleton front last ih =>
    have hlast := hle last (List.mem_append_right front List.mem_cons_self)
    obtain ⟨hfront, -, hbelow⟩ := List.pairwise_append.mp h
    unfold mergeTerm
    rw [List.getLast?_concat]
    simp only
    split
    next hsame =>
      rw [List.dropLast_concat]
      refine ⟨List.pairwise_append.mpr ⟨hfront, List.pairwise_singleton _ _, ?_⟩, by simp,
        fun a ha => ?_⟩
      · intro a ha b hb
        obtain rfl := List.mem_singleton.mp hb
        exact hbelow a ha last List.mem_cons_self
      · rcases List.mem_append.mp ha with hearlier | hnew
        · have hmem := List.mem_append_left [last] hearlier
          exact ⟨hle a hmem, .inr ⟨a, hmem, rfl⟩⟩
        · obtain rfl := List.mem_singleton.mp hnew
          exact ⟨hlast, .inl hsame⟩
    next hother =>
      have hless : last.1 < term.1 := lt_of_le_of_ne hlast hother
      refine ⟨List.pairwise_append.mpr ⟨h, List.pairwise_singleton _ _, ?_⟩, by simp,
        fun a ha => ?_⟩
      · intro a ha b hb
        obtain rfl := List.mem_singleton.mp hb
        rcases List.mem_append.mp ha with hearlier | heq
        · exact (hbelow a hearlier last List.mem_cons_self).trans hless
        · obtain rfl := List.mem_singleton.mp heq
          exact hless
      · rcases List.mem_append.mp ha with hearlier | hnew
        · exact ⟨hle a hearlier, .inr ⟨a, hearlier, rfl⟩⟩
        · obtain rfl := List.mem_singleton.mp hnew
          exact ⟨le_refl _, .inl rfl⟩

theorem foldl_mergeTerm_merged {terms merged : List (Nat × F)} (h : Merged merged)
    (hsorted : terms.Pairwise fun a b => a.1 ≤ b.1)
    (hle : ∀ a ∈ merged, ∀ b ∈ terms, a.1 ≤ b.1) :
    Merged (terms.foldl mergeTerm merged) ∧
      (terms ≠ [] → terms.foldl mergeTerm merged ≠ []) ∧
      ∀ a ∈ terms.foldl mergeTerm merged, ∃ b ∈ merged ++ terms, b.1 = a.1 := by
  induction terms generalizing merged with
  | nil => exact ⟨h, fun hne => absurd rfl hne, fun a ha => ⟨a, by simpa using ha, rfl⟩⟩
  | cons term rest ih =>
    obtain ⟨hfirst, hrest⟩ := List.pairwise_cons.mp hsorted
    obtain ⟨hmerged, hne, hfrom⟩ :=
      mergeTerm_merged h fun a ha => hle a ha term List.mem_cons_self
    obtain ⟨hall, hkept, hsource⟩ := ih hmerged hrest fun a ha b hb =>
      (hfrom a ha).1.trans (hfirst b hb)
    refine ⟨hall, fun _ => ?_, fun a ha => ?_⟩
    · by_cases hnil : rest = []
      · subst hnil
        exact hne
      · exact hkept hnil
    · obtain ⟨b, hb, heq⟩ := hsource a ha
      rcases List.mem_append.mp hb with hold | hlater
      · rcases (hfrom b hold).2 with hterm | ⟨c, hc, hcb⟩
        · exact ⟨term, by simp, hterm.symm.trans heq⟩
        · exact ⟨c, List.mem_append_left _ hc, hcb.trans heq⟩
      · exact ⟨b, by simp [hlater], heq⟩

theorem foldl_mergeTerm_of_merged {terms merged : List (Nat × F)} (h : Merged (merged ++ terms)) :
    terms.foldl mergeTerm merged = merged ++ terms := by
  induction terms generalizing merged with
  | nil => exact (List.append_nil merged).symm
  | cons term rest ih =>
    have hstep : mergeTerm merged term = merged ++ [term] := by
      unfold mergeTerm
      cases hlast : merged.getLast? with
      | none =>
        obtain rfl := List.getLast?_eq_none_iff.mp hlast
        rfl
      | some last =>
        have hmem := List.mem_of_getLast? hlast
        have hless := (List.pairwise_append.mp h).2.2 last hmem term List.mem_cons_self
        exact if_neg (Nat.ne_of_lt hless)
    rw [List.foldl_cons, hstep, ih (by simpa using h), List.append_assoc, List.singleton_append]

/-- What the terms come to: in order, one for each index, all of the table. -/
theorem normalizedTerms_spec (g : Gene F) {nIndicators : Nat} (hn : 0 < nIndicators) :
    Merged (g.normalizedTerms nIndicators) ∧ g.normalizedTerms nIndicators ≠ [] ∧
      ∀ term ∈ g.normalizedTerms nIndicators, term.1 < nIndicators := by
  obtain ⟨hmerged, -, hsource⟩ := foldl_mergeTerm_merged
    (List.Pairwise.nil : Merged ([] : List (Nat × F))) (sortTerms_sorted (g.terms nIndicators)) (by simp)
  have hrange : ∀ term ∈ (sortTerms (g.terms nIndicators)).foldl mergeTerm [],
      term.1 < nIndicators := by
    intro term hterm
    obtain ⟨source, hmem, heq⟩ := hsource term hterm
    have hsorted : source ∈ g.terms nIndicators := by
      rw [List.nil_append] at hmem
      exact List.mem_mergeSort.mp hmem
    obtain ⟨raw, -, rfl⟩ := List.mem_map.mp hsorted
    rw [← heq]
    exact Nat.mod_lt _ hn
  obtain ⟨kept, hkept⟩ : ∃ kept, (if 1 < ((sortTerms (g.terms nIndicators)).foldl mergeTerm
      []).length then ((sortTerms (g.terms nIndicators)).foldl mergeTerm []).filter
        fun term => weighs term.2 else (sortTerms (g.terms nIndicators)).foldl mergeTerm []) =
      kept := ⟨_, rfl⟩
  have hsub : kept.Sublist ((sortTerms (g.terms nIndicators)).foldl mergeTerm []) := by
    rw [← hkept]
    split
    next => exact List.filter_sublist
    next => exact List.Sublist.refl _
  unfold normalizedTerms
  simp only [hkept]
  cases kept with
  | nil =>
    refine ⟨?_, ?_, ?_⟩
    · exact (sortTerms_of_merged (List.pairwise_singleton _ ((0, lit 1) : Nat × F))).symm ▸
        List.pairwise_singleton _ _
    · simp [sortTerms]
    · intro term hterm
      obtain rfl := List.mem_singleton.mp (List.mem_mergeSort.mp hterm)
      exact hn
  | cons first rest =>
    have hkeptMerged : Merged (first :: rest) := List.Pairwise.sublist hsub hmerged
    simp only [sortTerms_of_merged hkeptMerged]
    exact ⟨hkeptMerged, List.cons_ne_nil _ _, fun term hterm => hrange term (hsub.subset hterm)⟩

end Terms

section Exact

variable {nIndicators : Nat} {g : Gene ℚ}

theorem weighs_iff (weight : ℚ) : weighs weight = true ↔ 1 / 1000000 < |weight| := by
  unfold weighs
  rw [abs_rat, lit_rat, lt_rat, decide_eq_true_iff]

theorem normalizedWeight_spec (weight : ℚ) :
    1 / 1000000 < |normalizedWeight weight| ∧ |normalizedWeight weight| ≤ 5 := by
  unfold normalizedWeight FloatOps.clamp
  simp only [isFinite_rat, Bool.true_and, weighs_iff, lt_rat, lit_rat, decide_eq_true_eq]
  split
  next hweighs =>
    split
    next => norm_num
    next hlow =>
      split
      next => norm_num
      next hhigh => exact ⟨hweighs, abs_le.mpr ⟨by linarith, by linarith⟩⟩
  next => norm_num

theorem normalizedWeight_of_range {weight : ℚ} (hlow : 1 / 1000000 < |weight|)
    (hhigh : |weight| ≤ 5) : normalizedWeight weight = weight := by
  obtain ⟨hfrom, hto⟩ := abs_le.mp hhigh
  unfold normalizedWeight FloatOps.clamp
  rw [isFinite_rat, Bool.true_and, if_pos ((weighs_iff weight).mpr hlow)]
  simp only [lt_rat, lit_rat, decide_eq_true_eq]
  rw [if_neg (not_lt.mpr hfrom), if_neg (not_lt.mpr hto)]

theorem normalizedThresholds_spec (long short : ℚ) :
    (normalizedThresholds long short).2 < (normalizedThresholds long short).1 := by
  unfold normalizedThresholds
  simp only [isFinite_rat, ↓reduceIte, le_rat, lit_rat, decide_eq_true_eq]
  split
  next => linarith
  next hlt => exact not_le.mp hlt

theorem normalizedThresholds_of_lt {long short : ℚ} (h : short < long) :
    normalizedThresholds long short = (long, short) := by
  unfold normalizedThresholds
  simp only [isFinite_rat, ↓reduceIte, le_rat, decide_eq_true_eq]
  exact if_neg (not_le.mpr h)

theorem normalize_wellFormed (g : Gene ℚ) (nIndicators : Nat) :
    (g.normalize nIndicators).WellFormed (max nIndicators 1) := by
  obtain ⟨hmerged, hne, hrange⟩ :=
    normalizedTerms_spec g (Nat.lt_of_lt_of_le Nat.zero_lt_one (Nat.le_max_right nIndicators 1))
  constructor
  case terms => simp [normalize]
  case nonempty => simpa [normalize] using hne
  case sorted => exact List.pairwise_map.mpr hmerged
  case inRange =>
    intro idx hidx
    obtain ⟨term, hterm, rfl⟩ := List.mem_map.mp hidx
    exact hrange term hterm
  case weights =>
    intro weight hweight
    obtain ⟨term, -, rfl⟩ := List.mem_map.mp hweight
    exact normalizedWeight_spec term.2
  case thresholds => exact normalizedThresholds_spec _ _
  case target =>
    change (0 : ℚ) < if _ then lit 40 else g.tpPips
    split
    next => norm_num
    next hpositive => simpa using hpositive
  case stop =>
    change (0 : ℚ) < if _ then lit 20 else g.slPips
    split
    next => norm_num
    next hpositive => simpa using hpositive
  case multiplier =>
    change (0 : ℚ) ≤ if _ then lit 0 else g.stopVolMult
    split
    next => exact le_refl _
    next hpositive => simpa using hpositive

theorem WellFormed.terms_eq (h : g.WellFormed nIndicators) :
    g.terms nIndicators = g.indices.zip g.weights := by
  have hindices : (if g.indices = [] then [0] else g.indices) = g.indices := if_neg h.nonempty
  unfold Gene.terms
  simp only [hindices, if_pos h.terms.symm, isFinite_rat, ↓reduceIte]
  have hsame : ∀ term ∈ g.indices.zip g.weights, (term.1 % nIndicators, term.2) = id term :=
    fun term hterm => by
      have hmem := List.of_mem_zip hterm
      exact Prod.ext (Nat.mod_eq_of_lt (h.inRange _ hmem.1)) rfl
  rw [List.map_congr_left hsame, List.map_id]

theorem WellFormed.merged (h : g.WellFormed nIndicators) :
    Merged (g.indices.zip g.weights) := by
  have hfst : (g.indices.zip g.weights).map Prod.fst = g.indices :=
    List.map_fst_zip (Nat.le_of_eq h.terms)
  exact List.pairwise_map.mp (hfst.symm ▸ h.sorted)

theorem WellFormed.normalizedTerms_eq (h : g.WellFormed nIndicators) :
    g.normalizedTerms nIndicators = g.indices.zip g.weights := by
  have hmerged := h.merged
  have hkept : (g.indices.zip g.weights).filter (fun term => weighs term.2) =
      g.indices.zip g.weights :=
    List.filter_eq_self.mpr fun term hterm =>
      (weighs_iff term.2).mpr (h.weights _ (List.of_mem_zip hterm).2).1
  have hfold : (g.indices.zip g.weights).foldl mergeTerm [] = g.indices.zip g.weights :=
    foldl_mergeTerm_of_merged hmerged
  unfold normalizedTerms
  simp only [h.terms_eq, sortTerms_of_merged hmerged, hfold, hkept, ite_self]
  cases hzip : g.indices.zip g.weights with
  | nil =>
    have hempty : g.indices = [] := by
      have hlength := congrArg List.length hzip
      rw [List.length_zip, h.terms, Nat.min_self, List.length_nil] at hlength
      exact List.eq_nil_of_length_eq_zero (h.terms.trans hlength)
    exact absurd hempty h.nonempty
  | cons first rest =>
    rw [hzip] at hmerged
    exact sortTerms_of_merged hmerged

/-- A gene that is well formed is in its normal form. -/
theorem WellFormed.normalize_eq (h : g.WellFormed nIndicators) :
    g.normalize nIndicators = g := by
  have hpositive : max nIndicators 1 = nIndicators := by
    obtain ⟨idx, hidx⟩ := List.exists_mem_of_ne_nil _ h.nonempty
    have hlt := h.inRange idx hidx
    omega
  have hindices : (g.indices.zip g.weights).map Prod.fst = g.indices :=
    List.map_fst_zip (Nat.le_of_eq h.terms)
  have hweights : (g.indices.zip g.weights).map (fun term => normalizedWeight term.2) =
      g.weights := by
    have hsame : ∀ term ∈ g.indices.zip g.weights, normalizedWeight term.2 = term.2 :=
      fun term hterm => by
        obtain ⟨hlow, hhigh⟩ := h.weights _ (List.of_mem_zip hterm).2
        exact normalizedWeight_of_range hlow hhigh
    rw [List.map_congr_left hsame]
    exact List.map_snd_zip (Nat.le_of_eq h.terms.symm)
  unfold normalize
  simp only [hpositive, h.normalizedTerms_eq, hindices, hweights,
    normalizedThresholds_of_lt h.thresholds]
  simp [not_le.mpr h.target, not_le.mpr h.stop, not_lt.mpr h.multiplier]

theorem normalize_max (g : Gene ℚ) (nIndicators : Nat) :
    g.normalize (max nIndicators 1) = g.normalize nIndicators := by
  have hmax : max (max nIndicators 1) 1 = max nIndicators 1 := max_eq_left (Nat.le_max_right _ 1)
  unfold normalize
  rw [hmax]

/-- Whatever a gene holds, normalizing it once gives a gene that the evaluator can run, and
normalizing it again changes nothing. -/
theorem normalize_normal_form (g : Gene ℚ) (nIndicators : Nat) :
    (g.normalize nIndicators).WellFormed (max nIndicators 1) ∧
      (g.normalize nIndicators).normalize nIndicators = g.normalize nIndicators := by
  have hformed := g.normalize_wellFormed nIndicators
  have hsame := hformed.normalize_eq
  rw [normalize_max] at hsame
  exact ⟨hformed, hsame⟩

end Exact

end Gene

end Neoethos
