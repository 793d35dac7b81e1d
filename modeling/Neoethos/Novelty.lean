import Mathlib.Algebra.Order.Field.Basic
import Mathlib.Data.Finset.Card
import Mathlib.Data.List.Sort
import Mathlib.Tactic.Linarith
import Neoethos.FloatOps

/-! The novelty of the genes of a generation, `exact_sparse_jaccard_knn_novelty_v1` of
`search_engine.rs`: how far a gene's indicators are from those of its nearest neighbours. -/

namespace Neoethos

namespace Genetic

open FloatOps (lit)

section Chunks

variable {α : Type}

/-- `chunks_mut`: pieces of one length, and what is left; the fuel is the length of the list. -/
def chunks (size : Nat) : Nat → List α → List (List α)
  | 0, _ => []
  | _ + 1, [] => []
  | fuel + 1, xs => xs.take size :: chunks size fuel (xs.drop size)

variable {size fuel : Nat} {xs : List α}

theorem chunks_length_le : ∀ chunk ∈ chunks size fuel xs, chunk.length ≤ size := by
  induction fuel generalizing xs with
  | zero => exact fun _ hchunk => absurd hchunk List.not_mem_nil
  | succ fuel ih =>
    cases xs with
    | nil => exact fun _ hchunk => absurd hchunk List.not_mem_nil
    | cons x rest =>
      refine List.forall_mem_cons.mpr ⟨?_, ih⟩
      rw [List.length_take]
      exact Nat.min_le_left _ _

theorem chunks_flatten (hsize : 0 < size) (hfuel : xs.length ≤ fuel) :
    (chunks size fuel xs).flatten = xs := by
  induction fuel generalizing xs with
  | zero => exact (List.length_eq_zero_iff.mp (Nat.le_zero.mp hfuel)).symm
  | succ fuel ih =>
    cases xs with
    | nil => rfl
    | cons x rest =>
      have hrest : ((x :: rest).drop size).length ≤ fuel := by
        rw [List.length_drop]
        rw [List.length_cons] at hfuel ⊢
        omega
      unfold chunks
      rw [List.flatten_cons, ih hrest, List.take_append_drop]

end Chunks

/-- The indicators of a gene, each once, in the order in which its `HashSet` is walked. -/
structure Signature where
  features : List Nat
  nodup : features.Nodup

def Signature.empty : Signature :=
  ⟨[], List.nodup_nil⟩

section Code

variable (sets : List Signature)

def signatureAt (candidate : Nat) : Signature :=
  sets.getD candidate .empty

def postings (feature : Nat) : List Nat :=
  (List.range sets.length).filter fun candidate => feature ∈ (signatureAt sets candidate).features

/-- The counters of the intersections, and the candidates whose counter was raised. -/
abbrev Overlaps := (Nat → Nat) × List Nat

def touch (candidate : Nat) (overlaps : Overlaps) (other : Nat) : Overlaps :=
  if other = candidate then overlaps
  else
    (Function.update overlaps.1 other (overlaps.1 other + 1),
      if overlaps.1 other = 0 then overlaps.2 ++ [other] else overlaps.2)

def overlaps (intersections : Nat → Nat) (candidate : Nat) (features : List Nat) : Overlaps :=
  features.foldl (fun overlaps feature => (postings sets feature).foldl (touch candidate) overlaps)
    (intersections, [])

variable {F : Type} [FloatOps F] [FloatOps.Valued F]

def sortDistances (distances : List F) : List F :=
  distances.mergeSort fun a b => (FloatOps.Valued.totalCmp a b).isLE

omit [FloatOps.Valued F] in
/-- The counters of the touched candidates go back to zero, and each was a distance. -/
def drain (signature : List Nat) : (Nat → Nat) → List Nat → (Nat → Nat) × List F
  | intersections, [] => (intersections, [])
  | intersections, other :: touched =>
    let intersection := intersections other
    let union := signature.length + (signatureAt sets other).features.length - intersection
    let rest := drain signature (Function.update intersections other 0) touched
    (rest.1, (lit 1 - FloatOps.ofInt intersection / FloatOps.ofInt union) :: rest.2)

/-- One candidate's value, and the counters that it leaves to the next one.
`select_nth_unstable_by` leaves the nearest of the distances first. -/
def candidateNovelty (neighbors : Nat) (intersections : Nat → Nat) (candidate : Nat) :
    (Nat → Nat) × F :=
  let signature := (signatureAt sets candidate).features
  if signature = [] then
    let emptySignatures := sets.countP fun s => s.features = []
    let zeroDistanceNeighbors := min (emptySignatures - 1) neighbors
    (intersections,
      FloatOps.ofInt (neighbors - zeroDistanceNeighbors : Nat) / FloatOps.ofInt neighbors)
  else
    let (intersections, touched) := overlaps sets intersections candidate signature
    let (intersections, distances) := drain sets signature intersections touched
    let distances := (sortDistances distances).take neighbors
    let disjointNeighbors := neighbors - distances.length
    (intersections,
      (FloatOps.sum distances + FloatOps.ofInt disjointNeighbors) / FloatOps.ofInt neighbors)

/-- The candidates of a chunk, one after the other on the same counters. -/
def chunkNovelty (neighbors : Nat) : (Nat → Nat) → List Nat → List F
  | _, [] => []
  | intersections, candidate :: rest =>
    let (intersections, value) := candidateNovelty sets neighbors intersections candidate
    value :: chunkNovelty neighbors intersections rest

/-- `workers` is the number of threads of the pool. -/
def exactSparseJaccardKnnNovelty (workers requestedNeighbors : Nat) : List F :=
  let population := sets.length
  if population ≤ 1 then List.replicate population (lit 0)
  else
    let neighbors := min requestedNeighbors (population - 1)
    if neighbors = 0 then List.replicate population (lit 0)
    else
      let workers := max workers 1
      let chunkSize := (population + workers - 1) / workers
      (chunks chunkSize population (List.range population)).flatMap
        (chunkNovelty sets neighbors fun _ => 0)

end Code

def jaccardDistance (a b : Finset Nat) : ℚ :=
  if a ∪ b = ∅ then 0 else 1 - ((a ∩ b).card : ℚ) / ((a ∪ b).card : ℚ)

def nearestMean (neighbors : Nat) (distances : List ℚ) : ℚ :=
  ((distances.mergeSort (· ≤ ·)).take neighbors).sum / neighbors

section Sums

theorem sortDistances_rat (xs : List ℚ) : sortDistances xs = xs.mergeSort (· ≤ ·) := by
  unfold sortDistances
  congr 1
  funext a b
  change (compare a b).isLE = decide (a ≤ b)
  rw [Bool.eq_iff_iff, decide_eq_true_iff, ← Ordering.ne_gt_iff_isLE]
  exact compare_le_iff_le

/-- The nearest of a list whose upper end is one value. -/
theorem nearest_sum {all low : List ℚ} {top : ℚ} {m neighbors : Nat}
    (hperm : all.Perm (low ++ List.replicate m top)) (htop : ∀ x ∈ low, x ≤ top)
    (hroom : neighbors ≤ low.length + m) :
    ((all.mergeSort (· ≤ ·)).take neighbors).sum =
      ((low.mergeSort (· ≤ ·)).take neighbors).sum + (neighbors - low.length : Nat) * top := by
  have hsorted : (low.mergeSort (· ≤ ·) ++ List.replicate m top).Pairwise (· ≤ ·) := by
    refine List.pairwise_append.mpr ⟨List.pairwise_mergeSort' (· ≤ ·) low, ?_, fun x hx y hy => ?_⟩
    · exact List.pairwise_replicate.mpr (.inr le_rfl)
    · exact (List.eq_of_mem_replicate hy) ▸ htop x (List.mem_mergeSort.mp hx)
  have hall : all.mergeSort (· ≤ ·) = low.mergeSort (· ≤ ·) ++ List.replicate m top := by
    refine List.Perm.eq_of_pairwise ?_ (List.pairwise_mergeSort' (· ≤ ·) all) hsorted ?_
    · exact fun a b _ _ hab hba => le_antisymm hab hba
    · exact (List.mergeSort_perm _ _).trans
        (hperm.trans ((List.mergeSort_perm _ _).symm.append_right _))
  have hlength : (low.mergeSort (· ≤ ·)).length = low.length := List.length_mergeSort _
  rw [hall, List.take_append, List.sum_append, hlength, List.take_replicate, List.sum_replicate,
    Nat.min_eq_left (by omega), nsmul_eq_mul]

end Sums

section Overlap

variable {sets : List Signature}

def Touched (overlaps : Overlaps) : Prop :=
  overlaps.2.Nodup ∧ ∀ other, other ∈ overlaps.2 ↔ 0 < overlaps.1 other

theorem Touched.touch {overlaps : Overlaps} (h : Touched overlaps) (candidate other : Nat) :
    Touched (touch candidate overlaps other) := by
  obtain ⟨hnodup, hmem⟩ := h
  unfold Genetic.touch
  split
  next => exact ⟨hnodup, hmem⟩
  next =>
    split
    next hzero =>
      have hnew : other ∉ overlaps.2 := fun hin => absurd ((hmem other).mp hin) (by omega)
      refine ⟨List.nodup_append.mpr ⟨hnodup, List.nodup_singleton other, ?_⟩, fun o => ?_⟩
      · rintro a ha b hb rfl
        exact hnew (List.mem_singleton.mp hb ▸ ha)
      · by_cases hsame : o = other
        · subst hsame
          simp
        · simp [hsame, hmem o]
    next hsome =>
      refine ⟨hnodup, fun o => ?_⟩
      by_cases hsame : o = other
      · subst hsame
        simp only [Function.update_self]
        exact ⟨fun _ => Nat.succ_pos _, fun _ => (hmem o).mpr (Nat.pos_of_ne_zero hsome)⟩
      · simp [hsame, hmem o]

theorem touch_counter (candidate : Nat) (overlaps : Overlaps) (other o : Nat) :
    (touch candidate overlaps other).1 o =
      overlaps.1 o + if o = other ∧ o ≠ candidate then 1 else 0 := by
  unfold touch
  split
  next hsame =>
    have hnot : ¬(o = other ∧ o ≠ candidate) := fun h => h.2 (h.1.trans hsame)
    rw [if_neg hnot, Nat.add_zero]
  next hother =>
    change Function.update overlaps.1 other (overlaps.1 other + 1) o = _
    by_cases hsame : o = other
    · subst hsame
      have hboth : o = o ∧ o ≠ candidate := ⟨rfl, hother⟩
      rw [if_pos hboth, Function.update_self]
    · have hnot : ¬(o = other ∧ o ≠ candidate) := fun h => hsame h.1
      rw [if_neg hnot, Function.update_of_ne hsame, Nat.add_zero]

/-- A feature raises the counter of each other candidate that has it, once. -/
theorem foldl_touch (candidate : Nat) {overlaps : Overlaps} {others : List Nat}
    (h : Touched overlaps) (hnodup : others.Nodup) :
    Touched (others.foldl (touch candidate) overlaps) ∧
      ∀ o, (others.foldl (touch candidate) overlaps).1 o =
        overlaps.1 o + if o ∈ others ∧ o ≠ candidate then 1 else 0 := by
  induction others generalizing overlaps with
  | nil => exact ⟨h, fun o => by simp⟩
  | cons other others ih =>
    obtain ⟨hnew, hrest⟩ := List.nodup_cons.mp hnodup
    obtain ⟨htouched, hcount⟩ := ih (h.touch candidate other) hrest
    refine ⟨htouched, fun o => ?_⟩
    rw [List.foldl_cons, hcount, touch_counter]
    by_cases hsame : o = other
    · subst hsame
      simp [hnew]
    · simp [hsame]

theorem mem_postings {feature o : Nat} :
    o ∈ postings sets feature ↔ feature ∈ (signatureAt sets o).features := by
  unfold postings
  rw [List.mem_filter, List.mem_range, decide_eq_true_iff]
  refine and_iff_right_of_imp fun hin => ?_
  by_contra hout
  unfold signatureAt at hin
  rw [List.getD_eq_getElem?_getD, List.getElem?_eq_none (not_lt.mp hout)] at hin
  exact absurd hin List.not_mem_nil

/-- The counters of a candidate: how many of the features the others have. -/
theorem overlaps_spec (sets : List Signature) (candidate : Nat) (features : List Nat) :
    Touched (overlaps sets (fun _ => 0) candidate features) ∧
      ∀ o, (overlaps sets (fun _ => 0) candidate features).1 o =
        if o = candidate then 0
        else features.countP fun feature => feature ∈ (signatureAt sets o).features := by
  unfold overlaps
  induction features using List.reverseRecOn with
  | nil => exact ⟨⟨List.nodup_nil, fun o => by simp⟩, fun o => by simp⟩
  | append_singleton features feature ih =>
    obtain ⟨htouched, hcount⟩ := ih
    have hnodup : (postings sets feature).Nodup := List.nodup_range.filter _
    obtain ⟨hnext, hmore⟩ := foldl_touch candidate htouched hnodup
    rw [List.foldl_append, List.foldl_cons, List.foldl_nil]
    refine ⟨hnext, fun o => ?_⟩
    rw [hmore, hcount, List.countP_append, List.countP_singleton]
    by_cases hsame : o = candidate
    · simp [hsame]
    · simp [hsame, mem_postings]

theorem drain_distances (sets : List Signature) (signature : List Nat) {intersections : Nat → Nat}
    {touched : List Nat} (h : touched.Nodup) :
    (drain sets signature intersections touched : (Nat → Nat) × List ℚ).2 =
      touched.map fun other => lit 1 - FloatOps.ofInt (intersections other : Nat) /
        FloatOps.ofInt (signature.length + (signatureAt sets other).features.length -
          intersections other : Nat) := by
  induction touched generalizing intersections with
  | nil => rfl
  | cons other touched ih =>
    obtain ⟨hnew, hrest⟩ := List.nodup_cons.mp h
    unfold drain
    simp only
    rw [ih hrest, List.map_cons]
    congr 1
    refine List.map_congr_left fun o ho => ?_
    have hne : o ≠ other := fun hsame => hnew (hsame ▸ ho)
    rw [Function.update_of_ne hne]

/-- The counters that were raised are reset, and no others were. -/
theorem drain_counters (sets : List Signature) (signature : List Nat) {intersections : Nat → Nat}
    {touched : List Nat} (h : ∀ other, 0 < intersections other → other ∈ touched) :
    (drain sets signature intersections touched : (Nat → Nat) × List ℚ).1 = fun _ => 0 := by
  induction touched generalizing intersections with
  | nil => exact funext fun other => Nat.eq_zero_of_not_pos fun hpos => nomatch h other hpos
  | cons other touched ih =>
    unfold drain
    refine ih fun o ho => ?_
    by_cases hsame : o = other
    · rw [hsame, Function.update_self] at ho
      exact absurd ho (Nat.lt_irrefl 0)
    · rw [Function.update_of_ne hsame] at ho
      exact (List.mem_cons.mp (h o ho)).resolve_left hsame

variable (a b : Signature)

theorem card_inter :
    (a.features.toFinset ∩ b.features.toFinset).card =
      a.features.countP fun feature => feature ∈ b.features := by
  have hset : a.features.toFinset ∩ b.features.toFinset =
      (a.features.filter fun feature => feature ∈ b.features).toFinset := by
    ext feature
    simp
  rw [hset, List.toFinset_card_of_nodup (a.nodup.filter _), List.countP_eq_length_filter]

theorem card_union :
    (a.features.toFinset ∪ b.features.toFinset).card =
      a.features.length + b.features.length -
        a.features.countP fun feature => feature ∈ b.features := by
  rw [Finset.card_union, card_inter, List.toFinset_card_of_nodup a.nodup,
    List.toFinset_card_of_nodup b.nodup]

variable {a b}

theorem jaccardDistance_of_overlap (h : a.features ≠ []) :
    jaccardDistance a.features.toFinset b.features.toFinset =
      1 - ((a.features.countP fun feature => feature ∈ b.features : Nat) : ℚ) /
        ((a.features.length + b.features.length -
          a.features.countP fun feature => feature ∈ b.features : Nat) : ℚ) := by
  have hsome : a.features.toFinset ∪ b.features.toFinset ≠ ∅ := by
    simp [h]
  unfold jaccardDistance
  rw [if_neg hsome, card_inter, card_union]

theorem jaccardDistance_le : jaccardDistance a.features.toFinset b.features.toFinset ≤ 1 := by
  unfold jaccardDistance
  split
  next => exact zero_le_one
  next =>
    have hratio : (0 : ℚ) ≤ ((a.features.toFinset ∩ b.features.toFinset).card : ℚ) /
        ((a.features.toFinset ∪ b.features.toFinset).card : ℚ) := by positivity
    linarith

end Overlap

section Equality

variable (sets : List Signature)

def others (candidate : Nat) : List Nat :=
  (List.range sets.length).filter fun other => other ≠ candidate

def distanceTo (candidate other : Nat) : ℚ :=
  jaccardDistance (signatureAt sets candidate).features.toFinset
    (signatureAt sets other).features.toFinset

/-- The mean distance of every candidate to its nearest others, each compared with each. -/
def exactKnnNovelty (requestedNeighbors : Nat) : List ℚ :=
  (List.range sets.length).map fun candidate =>
    nearestMean (min requestedNeighbors (sets.length - 1))
      ((others sets candidate).map (distanceTo sets candidate))

variable {sets} {candidate neighbors : Nat}

theorem others_perm (h : candidate < sets.length) :
    (List.range sets.length).Perm (candidate :: others sets candidate) := by
  have hmem : candidate ∈ List.range sets.length := List.mem_range.mpr h
  have herase : (List.range sets.length).erase candidate = others sets candidate := by
    rw [List.Nodup.erase_eq_filter List.nodup_range]
    exact List.filter_congr fun other _ => Bool.eq_iff_iff.mpr (by simp)
  exact herase ▸ List.perm_cons_erase hmem

theorem others_length (h : candidate < sets.length) :
    (others sets candidate).length = sets.length - 1 := by
  have hlength := (others_perm h).length_eq
  rw [List.length_range, List.length_cons] at hlength
  omega

theorem map_signatureAt : (List.range sets.length).map (signatureAt sets) = sets := by
  refine List.ext_getElem (by simp) fun i hi hi' => ?_
  rw [List.getElem_map, List.getElem_range]
  unfold signatureAt
  rw [List.getD_eq_getElem?_getD, List.getElem?_eq_getElem hi', Option.getD_some]

theorem countP_others {p : Signature → Bool} (h : candidate < sets.length)
    (hp : p (signatureAt sets candidate) = true) :
    sets.countP p - 1 = ((others sets candidate).filter fun o => p (signatureAt sets o)).length := by
  have hall : sets.countP p = (List.range sets.length).countP fun o => p (signatureAt sets o) := by
    have hmap : (List.range sets.length).map (signatureAt sets) = sets := map_signatureAt
    have hcount := congrArg (List.countP p) hmap
    rw [List.countP_map] at hcount
    exact hcount.symm
  have hfirst : (candidate :: others sets candidate).countP (fun o => p (signatureAt sets o)) =
      (others sets candidate).countP (fun o => p (signatureAt sets o)) + 1 :=
    List.countP_cons_of_pos hp
  rw [hall, (others_perm h).countP_eq, hfirst, List.countP_eq_length_filter]
  omega

/-- The others in two groups, one of them at distance one. -/
theorem distances_perm {p : Nat → Bool}
    (hfar : ∀ o ∈ others sets candidate, p o = false → distanceTo sets candidate o = 1) :
    ∃ m, ((others sets candidate).map (distanceTo sets candidate)).Perm
        (((others sets candidate).filter p).map (distanceTo sets candidate) ++
          List.replicate m 1) ∧
      ((others sets candidate).filter p).length + m = (others sets candidate).length := by
  refine ⟨((others sets candidate).filter fun o => !p o).length, ?_, ?_⟩
  · have hrest : ((others sets candidate).filter fun o => !p o).map (distanceTo sets candidate) =
        List.replicate ((others sets candidate).filter fun o => !p o).length 1 := by
      refine List.eq_replicate_iff.mpr ⟨List.length_map _, fun x hx => ?_⟩
      obtain ⟨o, ho, rfl⟩ := List.mem_map.mp hx
      obtain ⟨hmem, hnot⟩ := List.mem_filter.mp ho
      exact hfar o hmem (by simpa using hnot)
    rw [← hrest, ← List.map_append]
    exact (List.filter_append_perm p (others sets candidate)).symm.map _
  · have hlength := (List.filter_append_perm p (others sets candidate)).length_eq
    rwa [List.length_append] at hlength

theorem candidateNovelty_of_empty (h : candidate < sets.length)
    (hneighbors : neighbors ≤ sets.length - 1)
    (hempty : (signatureAt sets candidate).features = []) :
    candidateNovelty sets neighbors (fun _ => 0) candidate =
      (fun _ => 0,
        nearestMean neighbors ((others sets candidate).map (distanceTo sets candidate))) := by
  have hdistance (o : Nat) : distanceTo sets candidate o =
      if (signatureAt sets o).features = [] then 0 else 1 := by
    unfold distanceTo jaccardDistance
    rw [hempty]
    simp
  have hfar : ∀ o ∈ others sets candidate,
      (fun o => decide ((signatureAt sets o).features = [])) o = false →
        distanceTo sets candidate o = 1 := by
    intro o _ hsome
    rw [hdistance, if_neg (of_decide_eq_false hsome)]
  obtain ⟨m, hperm, hlength⟩ := distances_perm hfar
  have hcount := countP_others (p := fun s => s.features = []) h (decide_eq_true hempty)
  obtain ⟨near, hnear⟩ : ∃ near, ((others sets candidate).filter
      fun o => (signatureAt sets o).features = []) = near := ⟨_, rfl⟩
  rw [hnear] at hperm hlength hcount
  have hzero : near.map (distanceTo sets candidate) = List.replicate near.length 0 := by
    refine List.eq_replicate_iff.mpr ⟨List.length_map _, fun x hx => ?_⟩
    obtain ⟨o, ho, rfl⟩ := List.mem_map.mp hx
    rw [← hnear] at ho
    rw [hdistance, if_pos (of_decide_eq_true (List.mem_filter.mp ho).2)]
  rw [hzero] at hperm
  have hroom : neighbors ≤ (List.replicate near.length (0 : ℚ)).length + m := by
    rw [List.length_replicate, hlength, others_length h]
    exact hneighbors
  have hsum := nearest_sum hperm
    (fun x hx => (List.eq_of_mem_replicate hx).trans_le zero_le_one) hroom
  have hnone : (((List.replicate near.length (0 : ℚ)).mergeSort (· ≤ ·)).take neighbors).sum = 0 :=
    List.sum_eq_zero fun x hx =>
      List.eq_of_mem_replicate (List.mem_mergeSort.mp (List.mem_of_mem_take hx))
  have hfew : neighbors - min near.length neighbors = neighbors - near.length := by omega
  unfold candidateNovelty nearestMean
  rw [if_pos hempty, hsum, hnone, zero_add, mul_one, List.length_replicate]
  simp only [hcount, hfew]
  rfl

theorem touched_perm {features : List Nat} :
    (overlaps sets (fun _ => 0) candidate features).2.Perm
      ((others sets candidate).filter fun o =>
        0 < (overlaps sets (fun _ => 0) candidate features).1 o) := by
  obtain ⟨⟨hnodup, hmem⟩, hcounter⟩ := overlaps_spec sets candidate features
  refine (List.perm_ext_iff_of_nodup hnodup
    ((List.nodup_range.filter _).filter _)).mpr fun o => ?_
  rw [hmem, List.mem_filter, decide_eq_true_iff]
  refine ⟨fun hpos => ⟨?_, hpos⟩, fun ho => ho.2⟩
  rw [hcounter] at hpos
  split at hpos
  next => exact absurd hpos (Nat.lt_irrefl 0)
  next hne =>
    refine List.mem_filter.mpr ⟨List.mem_range.mpr ?_, decide_eq_true hne⟩
    obtain ⟨feature, -, hfeature⟩ := List.countP_pos_iff.mp hpos
    have hpost := mem_postings.mpr (of_decide_eq_true hfeature)
    exact List.mem_range.mp (List.mem_filter.mp hpost).1

theorem candidateNovelty_of_some (h : candidate < sets.length)
    (hneighbors : neighbors ≤ sets.length - 1)
    (hsome : (signatureAt sets candidate).features ≠ []) :
    candidateNovelty sets neighbors (fun _ => 0) candidate =
      (fun _ => 0,
        nearestMean neighbors ((others sets candidate).map (distanceTo sets candidate))) := by
  obtain ⟨⟨hnodup, hmem⟩, hcounter⟩ :=
    overlaps_spec sets candidate (signatureAt sets candidate).features
  obtain ⟨counted, hcounted⟩ : ∃ counted, overlaps sets (fun _ => 0) candidate
      (signatureAt sets candidate).features = counted := ⟨_, rfl⟩
  rw [hcounted] at hnodup hmem hcounter
  have hother : ∀ o ∈ others sets candidate, o ≠ candidate := fun o ho =>
    of_decide_eq_true (List.mem_filter.mp ho).2
  have hdistance : ∀ o, o ≠ candidate → distanceTo sets candidate o =
      1 - ((counted.1 o : Nat) : ℚ) / (((signatureAt sets candidate).features.length +
        (signatureAt sets o).features.length - counted.1 o : Nat) : ℚ) := by
    intro o ho
    rw [hcounter, if_neg ho]
    exact jaccardDistance_of_overlap hsome
  have hfar : ∀ o ∈ others sets candidate, (fun o => decide (0 < counted.1 o)) o = false →
      distanceTo sets candidate o = 1 := by
    intro o ho hnone
    have hzero : counted.1 o = 0 := Nat.eq_zero_of_not_pos (of_decide_eq_false hnone)
    rw [hdistance o (hother o ho), hzero, Nat.cast_zero, zero_div, sub_zero]
  obtain ⟨m, hperm, hlength⟩ := distances_perm hfar
  have htouched : counted.2.Perm ((others sets candidate).filter fun o => 0 < counted.1 o) :=
    hcounted ▸ touched_perm
  have hperm := hperm.trans ((htouched.symm.map _).append_right _)
  have hlength := htouched.length_eq ▸ hlength
  have hroom : neighbors ≤ (counted.2.map (distanceTo sets candidate)).length + m := by
    rw [List.length_map, hlength, others_length h]
    exact hneighbors
  have hsum := nearest_sum hperm
    (fun x hx => by
      obtain ⟨o, -, rfl⟩ := List.mem_map.mp hx
      exact jaccardDistance_le) hroom
  have hcode : counted.2.map (fun o => (lit 1 - FloatOps.ofInt (counted.1 o : Nat) /
      FloatOps.ofInt ((signatureAt sets candidate).features.length +
        (signatureAt sets o).features.length - counted.1 o : Nat) : ℚ)) =
      counted.2.map (distanceTo sets candidate) := by
    refine List.map_congr_left fun o ho => (hdistance o ?_).symm
    exact hother o (List.mem_filter.mp (htouched.subset ho)).1
  have hfew : neighbors - ((counted.2.map (distanceTo sets candidate)).mergeSort
      (· ≤ ·) |>.take neighbors).length =
      neighbors - (counted.2.map (distanceTo sets candidate)).length := by
    rw [List.length_take, List.length_mergeSort]
    omega
  have hreset : (drain sets (signatureAt sets candidate).features counted.1 counted.2 :
      (Nat → Nat) × List ℚ) = (fun _ => 0, counted.2.map (distanceTo sets candidate)) :=
    Prod.ext (drain_counters _ _ fun other => (hmem other).mpr)
      ((drain_distances _ _ hnodup).trans hcode)
  unfold candidateNovelty nearestMean
  rw [if_neg hsome, hsum, mul_one]
  simp only [hcounted, hreset, sortDistances_rat, hfew, sum_rat]
  rfl

/-- A candidate finds the counters of its chunk at zero, and leaves them there. -/
theorem chunkNovelty_eq (hneighbors : neighbors ≤ sets.length - 1) {candidates : List Nat}
    (h : ∀ candidate ∈ candidates, candidate < sets.length) :
    chunkNovelty sets neighbors (fun _ => 0) candidates = candidates.map fun candidate =>
      nearestMean neighbors ((others sets candidate).map (distanceTo sets candidate)) := by
  induction candidates with
  | nil => rfl
  | cons candidate rest ih =>
    obtain ⟨hfirst, hrest⟩ := List.forall_mem_cons.mp h
    have hvalue : candidateNovelty sets neighbors (fun _ => 0) candidate = (fun _ => 0,
        nearestMean neighbors ((others sets candidate).map (distanceTo sets candidate))) := by
      by_cases hempty : (signatureAt sets candidate).features = []
      · exact candidateNovelty_of_empty hfirst hneighbors hempty
      · exact candidateNovelty_of_some hfirst hneighbors hempty
    unfold chunkNovelty
    simp only [hvalue]
    rw [ih hrest, List.map_cons]

/-- The inverted index, its counters shared by the candidates of a chunk, gives every candidate what
comparing it with each of the others would. -/
theorem chunks_novelty (hneighbors : neighbors ≤ sets.length - 1) {size : Nat} (hsize : 0 < size) :
    (chunks size sets.length (List.range sets.length)).flatMap
        (chunkNovelty sets neighbors fun _ => 0) =
      (List.range sets.length).map fun candidate =>
        nearestMean neighbors ((others sets candidate).map (distanceTo sets candidate)) := by
  obtain ⟨pieces, hpieces⟩ : ∃ pieces,
      chunks size sets.length (List.range sets.length) = pieces := ⟨_, rfl⟩
  have hall : pieces.flatten = List.range sets.length :=
    hpieces ▸ chunks_flatten hsize List.length_range.le
  rw [hpieces, ← hall, List.map_flatten, List.flatMap]
  congr 1
  refine List.map_congr_left fun piece hpiece => chunkNovelty_eq hneighbors fun candidate hmem => ?_
  exact List.mem_range.mp (hall ▸ List.mem_flatten_of_mem hpiece hmem)

theorem chunkSize_pos {population : Nat} (h : 0 < population) (workers : Nat) :
    0 < (population + max workers 1 - 1) / max workers 1 :=
  Nat.div_pos (by omega) (by omega)

theorem exactSparseJaccardKnnNovelty_length (workers requestedNeighbors : Nat) :
    (exactSparseJaccardKnnNovelty sets workers requestedNeighbors : List ℚ).length =
      sets.length := by
  unfold exactSparseJaccardKnnNovelty
  simp only
  split
  next => exact List.length_replicate
  next hmany =>
    split
    next => exact List.length_replicate
    next =>
      rw [chunks_novelty (Nat.min_le_right _ _) (chunkSize_pos (by omega) workers),
        List.length_map, List.length_range]

/-- However many threads share the work, every candidate gets what comparing it with each of the
others would give. -/
theorem exactSparseJaccardKnnNovelty_eq (workers requestedNeighbors : Nat) :
    exactSparseJaccardKnnNovelty sets workers requestedNeighbors =
      exactKnnNovelty sets requestedNeighbors := by
  have hnone (candidate : Nat) : nearestMean 0
      ((others sets candidate).map (distanceTo sets candidate)) = 0 := by
    unfold nearestMean
    simp
  have hzero (h : min requestedNeighbors (sets.length - 1) = 0) :
      exactKnnNovelty sets requestedNeighbors = List.replicate sets.length 0 := by
    unfold exactKnnNovelty
    rw [h]
    refine List.eq_replicate_iff.mpr ⟨by simp, fun x hx => ?_⟩
    obtain ⟨candidate, -, rfl⟩ := List.mem_map.mp hx
    exact hnone candidate
  unfold exactSparseJaccardKnnNovelty
  simp only
  split
  next hfew => exact (hzero (by omega)).symm
  next hmany =>
    split
    next hask => exact (hzero hask).symm
    next => exact chunks_novelty (Nat.min_le_right _ _) (chunkSize_pos (by omega) workers)

end Equality

end Genetic

end Neoethos
