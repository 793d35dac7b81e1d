import Mathlib.Algebra.Order.BigOperators.Group.List
import Mathlib.Data.List.Sort
import Neoethos.FloatOps
import Neoethos.RandomDraws

/-! The selection of parents and survivors, `evolution_math.rs`. -/

namespace Neoethos

namespace Genetic

open FloatOps (lit lt le isFinite)
open RandomDraws

/-- The random stream of a search, with what `rand` documents of it. A uniform stream comes to
every value. -/
class SearchRng (R : Type) (F : outParam Type) where
  range : Nat → StateM R Nat
  rangeF : F → F → StateM R F
  rangeInclusive : F → F → StateM R F
  bool : F → StateM R Bool
  sample : Nat → Nat → StateM R (List Nat)
  range_lt : ∀ n, 0 < n → ∀ rng, (range n rng).1 < n
  sample_spec : ∀ length amount, amount ≤ length → ∀ rng,
    (sample length amount rng).1.length = amount ∧ (sample length amount rng).1.Nodup ∧
      ∀ i ∈ (sample length amount rng).1, i < length
  range_fair : ∀ (rng : R) (n k : Nat), k < n →
    ∃ m, (range n ((fun rng => (range n rng).2)^[m] rng)).1 = k

section Draws

variable {R F : Type} [SearchRng R F]

/-- `random_range` of the numbers below a bound. -/
def drawRange (n : Nat) : Draw R Nat :=
  if 0 < n then ofStream (SearchRng.range (F := F) n) else crash

/-- `rand::seq::index::sample`. -/
def drawSample (length amount : Nat) : Draw R (List Nat) :=
  if amount ≤ length then ofStream (SearchRng.sample (F := F) length amount) else crash

theorem drawRange_lt {n : Nat} (h : 0 < n) :
    Always (drawRange (F := F) n : Draw R Nat) (· < n) := by
  unfold drawRange
  rw [if_pos h]
  exact .ofStream (SearchRng.range_lt n h)

theorem drawSample_spec {length amount : Nat} (h : amount ≤ length) :
    Always (drawSample (F := F) length amount : Draw R (List Nat)) fun drawn =>
      drawn.length = amount ∧ drawn.Nodup ∧ ∀ i ∈ drawn, i < length := by
  unfold drawSample
  rw [if_pos h]
  exact .ofStream (SearchRng.sample_spec length amount h)

variable [FloatOps F]

/-- `random_range` of the numbers between two bounds. -/
def drawRangeF (lower upper : F) : Draw R F :=
  if lt lower upper then ofStream (SearchRng.rangeF lower upper) else crash

def drawInclusive (lower upper : F) : Draw R F :=
  if le lower upper then ofStream (SearchRng.rangeInclusive lower upper) else crash

/-- `random_bool`. -/
def drawBool (probability : F) : Draw R Bool :=
  if le (lit 0) probability && le probability (lit 1) then ofStream (SearchRng.bool probability)
  else crash

theorem drawRangeF_always {lower upper : F} (h : lt lower upper = true) :
    Always (drawRangeF lower upper : Draw R F) fun _ => True := by
  unfold drawRangeF
  rw [if_pos h]
  exact .ofStream fun _ => trivial

theorem drawInclusive_always {lower upper : F} (h : le lower upper = true) :
    Always (drawInclusive lower upper : Draw R F) fun _ => True := by
  unfold drawInclusive
  rw [if_pos h]
  exact .ofStream fun _ => trivial

theorem drawBool_always {probability : F} (hlow : le (lit 0) probability = true)
    (hhigh : le probability (lit 1) = true) :
    Always (drawBool probability : Draw R Bool) fun _ => True := by
  unfold drawBool
  rw [if_pos (Bool.and_eq_true_iff.mpr ⟨hlow, hhigh⟩)]
  exact .ofStream fun _ => trivial

end Draws

inductive ParentSelectionPolicy
  | uniform
  | rankWeighted
  | softmax
  | tournament
  deriving DecidableEq

inductive SurvivorSelectionPolicy
  | elitist
  | rankWeighted
  | tournament
  | generational
  deriving DecidableEq

section Code

variable {R F : Type} [FloatOps F]

def rankWeights (count : Nat) : List F :=
  (List.range count).map fun (rank : Nat) =>
    FloatOps.max (FloatOps.ofInt (max count 1 : Nat) - FloatOps.ofInt (rank : Int)) (lit 1)

def softmaxWeights [FloatOps.Elementary F] (scores : List F) (candidates : List Nat)
    (temperature : F) : Draw R (List F) :=
  let temperature := FloatOps.max temperature (lit (1 / 1000000))
  let maxScore := (candidates.filterMap (scores[·]?)).foldl FloatOps.max FloatOps.negInfinity
  if !isFinite maxScore then return List.replicate candidates.length (lit 1)
  else candidates.mapM fun idx => do
    let score ← indexed scores idx
    let centered := (score - maxScore) / temperature
    return if isFinite centered then
      FloatOps.max (FloatOps.Elementary.exp centered) (lit (1 / 1000000000000))
    else lit 1

def drawableWeight (weight : F) : F :=
  if FloatOps.isPositive weight then weight else lit 0

/-- The place where the weights, taken off a target one by one, cover it. -/
def weightedOffset : List F → F → Nat → Nat
  | [], _, idx => idx - 1
  | weight :: rest, target, idx =>
    if le target (drawableWeight weight) then idx
    else weightedOffset rest (target - drawableWeight weight) (idx + 1)

def drawWeightedOffset [SearchRng R F] (weights : List F) : Draw R Nat := do
  let total := (weights.filter FloatOps.isPositive).foldl (· + ·) (lit 0)
  if le total (lit 0) then return 0
  let target ← drawRangeF (lit 0) total
  return weightedOffset weights target 0

/-- The loop of `rank_offset_for_target`, with a bound on its turns. -/
def rankSearch (n : Nat) (target : F) : Nat → Nat → Nat → Nat
  | 0, low, _ => low
  | turns + 1, low, high =>
    if low < high then
      let middle := low + (high - low) / 2
      let terms := middle + 1
      let cumulative := FloatOps.ofInt (terms * (2 * n - terms + 1) / 2 : Nat)
      if le target cumulative then rankSearch n target turns low middle
      else rankSearch n target turns (middle + 1) high
    else low

def rankOffsetForTarget (count : Nat) (target : F) : Nat :=
  rankSearch count target count 0 (count - 1)

def selectParentIndex [FloatOps.Elementary F] [SearchRng R F] (scores : List F)
    (candidates : List Nat) (policy : ParentSelectionPolicy) (tournamentSize : Nat)
    (temperature : F) : Draw R Nat := do
  if candidates = [] then return 0
  let draw : Draw R Nat := do
    let offset ← drawRange (F := F) candidates.length
    indexed candidates offset
  match policy with
  | .uniform => draw
  | .tournament =>
    let score (idx : Nat) := scores.getD idx FloatOps.negInfinity
    let winner ← draw
    repeatM (fun winner => do
      let candidate ← draw
      return if lt (score winner) (score candidate) then candidate else winner)
      (min (max tournamentSize 2) candidates.length - 1) winner
  | .rankWeighted =>
    let count := candidates.length
    if count ≤ 2 ^ 26 then
      let target ← drawRangeF (lit 0) (FloatOps.ofInt (count * (count + 1) / 2 : Nat))
      indexed candidates (rankOffsetForTarget count target)
    else
      let offset ← drawWeightedOffset (rankWeights count)
      indexed candidates offset
  | .softmax =>
    let weights ← softmaxWeights scores candidates temperature
    let offset ← drawWeightedOffset weights
    indexed candidates offset

/-- The loop of `select_survivor_indices`. The available ids are sorted, so that the binary
search for a drawn one finds its place. -/
def drawSurvivors [FloatOps.Elementary F] [SearchRng R F] (scores : List F)
    (policy : ParentSelectionPolicy) (tournamentSize : Nat) (temperature : F) :
    Nat → List Nat → Draw R (List Nat)
  | 0, _ => return []
  | requested + 1, available => do
    if available = [] then return []
    let idx ← selectParentIndex scores available policy tournamentSize temperature
    match available.idxOf? idx with
    | none => crash
    | some offset =>
      let rest ← drawSurvivors scores policy tournamentSize temperature requested
        (available.eraseIdx offset)
      return idx :: rest

def selectSurvivorIndices [FloatOps.Elementary F] [SearchRng R F] (scores : List F)
    (survivorCount : Nat) (policy : SurvivorSelectionPolicy) (temperature : F)
    (tournamentSize : Nat) : Draw R (List Nat) := do
  let requested := min survivorCount scores.length
  if requested = 0 then return []
  let drawn (policy : ParentSelectionPolicy) : Draw R (List Nat) := do
    let selected ← drawSurvivors scores policy tournamentSize temperature requested
      (List.range scores.length)
    return selected.mergeSort fun a b => a ≤ b
  match policy with
  | .elitist => return List.range requested
  | .generational => return []
  | .rankWeighted => drawn .rankWeighted
  | .tournament => drawn .tournament

end Code

section Members

variable {R F : Type} [FloatOps F]

theorem weightedOffset_lt (weights : List F) (target : F) (idx : Nat) (h : weights ≠ []) :
    idx ≤ weightedOffset weights target idx ∧
      weightedOffset weights target idx < idx + weights.length := by
  induction weights generalizing target idx with
  | nil => exact absurd rfl h
  | cons weight rest ih =>
    unfold weightedOffset
    split
    next => exact ⟨le_refl _, by simp⟩
    next =>
      cases rest with
      | nil =>
        unfold weightedOffset
        simp
      | cons second others =>
        have hrest := ih (target - drawableWeight weight) (idx + 1) (List.cons_ne_nil _ _)
        rw [List.length_cons]
        omega

theorem rankSearch_mem (n : Nat) (target : F) (turns : Nat) {low high : Nat} (h : low ≤ high) :
    low ≤ rankSearch n target turns low high ∧ rankSearch n target turns low high ≤ high := by
  induction turns generalizing low high with
  | zero => exact ⟨le_refl _, h⟩
  | succ turns ih =>
    unfold rankSearch
    split
    next hless =>
      simp only
      split
      next =>
        have hleft := @ih low (low + (high - low) / 2) (by omega)
        omega
      next =>
        have hright := @ih (low + (high - low) / 2 + 1) high (by omega)
        omega
    next => exact ⟨le_refl _, h⟩

end Members

section Exact

def cumulative (weights : List ℚ) (terms : Nat) : ℚ :=
  (weights.take terms).sum

/-- A place covers a target if the weights up to it do and those before it do not; the last place
covers what is left. -/
structure Covers (weights : List ℚ) (target : ℚ) (offset : Nat) : Prop where
  lt : offset < weights.length
  before : ∀ earlier < offset, cumulative weights (earlier + 1) < target
  here : target ≤ cumulative weights (offset + 1) ∨ offset = weights.length - 1

theorem Covers.unique {weights : List ℚ} {target : ℚ} {offset offset' : Nat}
    (h : Covers weights target offset) (h' : Covers weights target offset') :
    offset = offset' := by
  have hnot {a b : Nat} (ha : Covers weights target a) (hb : Covers weights target b) :
      ¬ a < b := by
    intro hless
    have hbefore := hb.before a hless
    rcases ha.here with hcovered | hlast
    · exact absurd hcovered (not_le.mpr hbefore)
    · have hlt := hb.lt
      omega
  exact Nat.le_antisymm (Nat.le_of_not_lt (hnot h' h)) (Nat.le_of_not_lt (hnot h h'))

theorem drawableWeight_of_nonneg {weight : ℚ} (h : 0 ≤ weight) :
    drawableWeight weight = weight := by
  unfold drawableWeight
  split
  next => rfl
  next hnot =>
    rw [isPositive_rat] at hnot
    exact (le_antisymm (not_lt.mp hnot) h).symm

theorem weightedOffset_covers {weights : List ℚ} (hne : weights ≠ [])
    (hnonneg : ∀ weight ∈ weights, 0 ≤ weight) (target : ℚ) (idx : Nat) :
    ∃ offset, weightedOffset weights target idx = idx + offset ∧
      Covers weights target offset := by
  induction weights generalizing target idx with
  | nil => exact absurd rfl hne
  | cons weight rest ih =>
    have hweight := drawableWeight_of_nonneg (hnonneg weight List.mem_cons_self)
    have hfirst : cumulative (weight :: rest) 1 = weight := by simp [cumulative]
    unfold weightedOffset
    rw [hweight]
    by_cases hcovered : target ≤ weight
    · rw [if_pos (by simpa using hcovered)]
      exact ⟨0, rfl, Nat.zero_lt_succ _, fun _ h => absurd h (Nat.not_lt_zero _),
        .inl (hfirst.symm ▸ hcovered)⟩
    · rw [if_neg (by simpa using hcovered)]
      have hbeyond : weight < target := not_le.mp hcovered
      by_cases hlast : rest = []
      · subst hlast
        refine ⟨0, ?_, Nat.zero_lt_one, fun _ h => absurd h (Nat.not_lt_zero _), .inr rfl⟩
        unfold weightedOffset
        omega
      · obtain ⟨offset, hoffset, hcovers⟩ := ih hlast
          (fun w hw => hnonneg w (List.mem_cons_of_mem weight hw)) (target - weight) (idx + 1)
        have hcumulative (terms : Nat) : cumulative (weight :: rest) (terms + 1) =
            weight + cumulative rest terms := by simp [cumulative]
        refine ⟨offset + 1, by rw [hoffset]; omega, Nat.succ_lt_succ hcovers.lt,
          fun earlier hearlier => ?_, ?_⟩
        · cases earlier with
          | zero => rwa [hfirst]
          | succ earlier =>
            have hbefore := hcovers.before earlier (by omega)
            rw [hcumulative]
            linarith
        · rcases hcovers.here with hhere | hend
          · refine .inl ?_
            rw [hcumulative]
            linarith
          · refine .inr ?_
            have hlt := hcovers.lt
            rw [List.length_cons]
            omega

/-- The triangular sum of the search is the sum of the weights of the ranks. -/
theorem cumulative_rankWeights {count terms : Nat} (h : terms ≤ count) :
    cumulative (rankWeights count) terms = (terms * (2 * count - terms + 1) / 2 : Nat) := by
  have hdouble : ∀ t ≤ count, 2 * cumulative (rankWeights count) t =
      (t * (2 * count - t + 1) : ℚ) := by
    intro t
    induction t with
    | zero => intro _; simp [cumulative]
    | succ t ih =>
      intro ht
      have hweight : (rankWeights count : List ℚ)[t]? = some ((count : ℚ) - t) := by
        have hone : (1 : ℚ) ≤ count - t := by
          have hcast : ((t + 1 : Nat) : ℚ) ≤ count := Nat.cast_le.mpr ht
          push_cast at hcast
          linarith
        have hmax : max count 1 = count := max_eq_left (by omega)
        unfold rankWeights
        rw [List.getElem?_map, List.getElem?_range (by omega), Option.map_some, hmax]
        exact congrArg some (max_eq_left hone)
      have hstep : cumulative (rankWeights count) (t + 1) =
          cumulative (rankWeights count) t + (count - t) := by
        unfold cumulative
        rw [List.take_add_one, hweight, Option.toList_some, List.sum_append, List.sum_singleton]
      rw [hstep, mul_add, ih (by omega)]
      push_cast
      ring
  have hpair : 2 * (terms * (2 * count - terms + 1) / 2) = terms * (2 * count - terms + 1) := by
    refine Nat.mul_div_cancel' ?_
    rcases Nat.even_or_odd terms with heven | hodd
    · exact (even_iff_two_dvd.mp heven).mul_right _
    · refine Dvd.dvd.mul_left (even_iff_two_dvd.mp ?_) _
      rw [Nat.even_add_one, Nat.not_even_iff_odd, Nat.odd_sub (by omega)]
      exact ⟨fun h => absurd (even_two_mul count) (Nat.not_even_iff_odd.mpr h),
        fun h => absurd hodd (Nat.not_odd_iff_even.mpr h)⟩
  have hcast : (2 : ℚ) * ((terms * (2 * count - terms + 1) / 2 : Nat) : ℚ) =
      terms * (2 * count - terms + 1) := by
    have hnat := congrArg (Nat.cast : Nat → ℚ) hpair
    rw [Nat.cast_mul, Nat.cast_mul, Nat.cast_add, Nat.cast_sub (by omega), Nat.cast_mul] at hnat
    exact_mod_cast hnat
  have hall := hdouble terms h
  linarith

theorem ofInt_natCast (n : Nat) : (FloatOps.ofInt (n : Int) : ℚ) = n :=
  Int.cast_natCast n

theorem rankWeights_length (count : Nat) : (rankWeights count : List ℚ).length = count :=
  (List.length_map _).trans List.length_range

theorem rankWeights_pos {count : Nat} : ∀ weight ∈ (rankWeights count : List ℚ), 0 < weight := by
  intro weight hweight
  obtain ⟨rank, -, rfl⟩ := List.mem_map.mp hweight
  exact lt_of_lt_of_le zero_lt_one (le_max_right _ _)

theorem cumulative_mono {weights : List ℚ} (h : ∀ weight ∈ weights, 0 ≤ weight) {terms more : Nat}
    (hle : terms ≤ more) : cumulative weights terms ≤ cumulative weights more := by
  obtain ⟨rest, rfl⟩ := Nat.exists_eq_add_of_le hle
  unfold cumulative
  rw [List.take_add, List.sum_append]
  have hrest : 0 ≤ ((weights.drop terms).take rest).sum :=
    List.sum_nonneg fun weight hweight => h weight (List.mem_of_mem_drop (List.mem_of_mem_take hweight))
  linarith

/-- The halving finds it too: what is before the lower end does not cover the target, and the
upper end does. -/
theorem rankSearch_covers {count : Nat} {target : ℚ} (turns : Nat) {low high : Nat}
    (hle : low ≤ high) (hhigh : high < count) (hturns : high - low ≤ turns)
    (hbefore : ∀ earlier < low, cumulative (rankWeights count) (earlier + 1) < target)
    (hhere : target ≤ cumulative (rankWeights count) (high + 1) ∨ high = count - 1) :
    Covers (rankWeights count) target (rankSearch count target turns low high) := by
  induction turns generalizing low high with
  | zero =>
    obtain rfl : low = high := by omega
    exact ⟨by rwa [rankWeights_length], hbefore, by rwa [rankWeights_length]⟩
  | succ turns ih =>
    unfold rankSearch
    split
    next hless =>
      obtain ⟨middle, hmiddle⟩ : ∃ middle, low + (high - low) / 2 = middle := ⟨_, rfl⟩
      have hsum : cumulative (rankWeights count) (middle + 1) =
          ((middle + 1) * (2 * count - (middle + 1) + 1) / 2 : Nat) :=
        cumulative_rankWeights (by omega)
      simp only [hmiddle]
      split
      next hcovered =>
        have hright : target ≤ cumulative (rankWeights count) (middle + 1) := by
          rw [hsum, ← ofInt_natCast]
          exact of_decide_eq_true hcovered
        exact ih (by omega) (by omega) (by omega) hbefore (.inl hright)
      next hbeyond =>
        have hleft : cumulative (rankWeights count) (middle + 1) < target := by
          rw [hsum, ← ofInt_natCast]
          simpa only [le_rat, decide_eq_true_eq, not_le] using hbeyond
        refine ih (by omega) hhigh (by omega) (fun earlier hearlier => ?_) hhere
        exact (cumulative_mono (fun weight hweight => (rankWeights_pos weight hweight).le)
          (by omega)).trans_lt hleft
    next hend =>
      obtain rfl : low = high := by omega
      exact ⟨by rwa [rankWeights_length], hbefore, by rwa [rankWeights_length]⟩

theorem rankOffsetForTarget_eq {count : Nat} (h : 0 < count) (target : ℚ) :
    rankOffsetForTarget count target = weightedOffset (rankWeights count) target 0 := by
  have hne : (rankWeights count : List ℚ) ≠ [] :=
    List.ne_nil_of_length_pos ((rankWeights_length count).symm ▸ h)
  obtain ⟨offset, hoffset, hcovers⟩ := weightedOffset_covers hne
    (fun weight hweight => (rankWeights_pos weight hweight).le) target 0
  have hsearch : Covers (rankWeights count) target (rankOffsetForTarget count target) :=
    rankSearch_covers count (Nat.zero_le _) (by omega) (by omega)
      (fun _ h => absurd h (Nat.not_lt_zero _)) (.inr rfl)
  rw [hoffset, Nat.zero_add]
  exact hsearch.unique hcovers

theorem rankWeights_total (count : Nat) :
    ((rankWeights count).filter FloatOps.isPositive).foldl (· + ·) (0 : ℚ) =
      ((count * (count + 1) / 2 : Nat) : ℚ) := by
  have hall : (rankWeights count : List ℚ).filter FloatOps.isPositive = rankWeights count :=
    List.filter_eq_self.mpr fun weight hweight =>
      (isPositive_rat weight).mpr (rankWeights_pos weight hweight)
  have hsum := cumulative_rankWeights (Nat.le_refl count)
  unfold cumulative at hsum
  rw [List.take_of_length_le (rankWeights_length count).le] at hsum
  have htwice : 2 * count - count + 1 = count + 1 := by omega
  rw [hall, ← List.sum_eq_foldl, hsum, htwice]

theorem triangle_pos {count : Nat} (h : 0 < count) :
    (0 : ℚ) < ((count * (count + 1) / 2 : Nat) : ℚ) := by
  have htwo : 2 ≤ count * (count + 1) := Nat.mul_le_mul h (Nat.succ_le_succ h)
  rw [Nat.cast_pos]
  omega

/-- The closed form of the rank selection is the general weighted draw: it takes the same number
from the stream and chooses the same candidate. -/
theorem rankWeighted_eq_weighted {R : Type} [FloatOps.Elementary ℚ] [SearchRng R ℚ]
    (scores : List ℚ) (candidates : List Nat) (tournamentSize : Nat) (temperature : ℚ) :
    (selectParentIndex scores candidates .rankWeighted tournamentSize temperature : Draw R Nat) =
      if candidates = [] then pure 0
      else drawWeightedOffset (rankWeights candidates.length : List ℚ) >>= indexed candidates := by
  unfold selectParentIndex
  by_cases hempty : candidates = []
  · subst hempty
    rfl
  · rw [if_neg hempty, if_neg hempty]
    have hcount := List.length_pos_of_ne_nil hempty
    simp only
    split
    next =>
      have htotal := rankWeights_total candidates.length
      have hpositive := not_le.mpr (triangle_pos hcount)
      unfold drawWeightedOffset
      simp only [lit_rat, htotal, le_rat, decide_eq_true_eq, if_neg hpositive, ofInt_natCast,
        rankOffsetForTarget_eq hcount, bind_assoc, pure_bind]
    next => rfl

section Members

variable {R : Type} [SearchRng R ℚ]

theorem drawWeightedOffset_lt {weights : List ℚ} (h : weights ≠ []) :
    Always (drawWeightedOffset weights : Draw R Nat) (· < weights.length) := by
  unfold drawWeightedOffset
  refine .ite (fun _ => .pure (List.length_pos_of_ne_nil h)) fun htotal => ?_
  refine .bind (drawRangeF_always ?_) fun target _ => .pure ?_
  · simpa only [lt_rat, le_rat, decide_eq_true_eq, not_le] using htotal
  · have hlt := (weightedOffset_lt weights target 0 h).2
    rwa [Nat.zero_add] at hlt

theorem rankOffsetForTarget_lt {count : Nat} (h : 0 < count) (target : ℚ) :
    rankOffsetForTarget count target < count := by
  have hhigh := (rankSearch_mem count target count (Nat.zero_le (count - 1))).2
  change rankSearch _ _ _ _ _ < _
  omega

variable [FloatOps.Elementary ℚ]

omit [SearchRng R ℚ] in
/-- A weight for each candidate; none of them is past the scores. -/
theorem softmaxWeights_always (scores : List ℚ) {candidates : List Nat}
    (h : ∀ idx ∈ candidates, idx < scores.length) (temperature : ℚ) :
    Always (softmaxWeights scores candidates temperature : Draw R (List ℚ))
      (·.length = candidates.length) := by
  unfold softmaxWeights
  refine .ite (fun _ => .pure List.length_replicate) fun _ => ?_
  refine .imp (.mapM (P := fun _ => True) fun idx hidx => ?_) fun weights hweights => hweights.1
  exact .bind (.indexed (P := fun _ => True) (h idx hidx) fun _ _ => trivial)
    fun _ _ => .pure trivial

theorem selectParentIndex_mem (scores : List ℚ) {candidates : List Nat} (h : candidates ≠ [])
    (hscores : ∀ idx ∈ candidates, idx < scores.length) (policy : ParentSelectionPolicy)
    (tournamentSize : Nat) (temperature : ℚ) :
    Always (selectParentIndex scores candidates policy tournamentSize temperature : Draw R Nat)
      (· ∈ candidates) := by
  have hlength := List.length_pos_of_ne_nil h
  have hmem {offset : Nat} (hoffset : offset < candidates.length) :
      Always (indexed candidates offset : Draw R Nat) (· ∈ candidates) :=
    .indexed hoffset fun _ hidx => hidx
  have hdraw : Always (do
      let offset ← drawRange (F := ℚ) candidates.length
      indexed candidates offset : Draw R Nat) (· ∈ candidates) :=
    .bind (drawRange_lt hlength) fun offset hoffset => hmem hoffset
  have hweighted {weights : List ℚ} (hweights : weights.length = candidates.length) : Always (do
      let offset ← drawWeightedOffset weights
      indexed candidates offset : Draw R Nat) (· ∈ candidates) := by
    have hne : weights ≠ [] := List.ne_nil_of_length_pos (hweights ▸ hlength)
    exact .bind (drawWeightedOffset_lt hne) fun offset hoffset => hmem (hweights ▸ hoffset)
  cases policy with
  | uniform =>
    unfold selectParentIndex
    rw [if_neg h]
    exact hdraw
  | tournament =>
    unfold selectParentIndex
    rw [if_neg h]
    refine .bind hdraw fun winner hwinner => ?_
    refine .repeatM (fun current hcurrent => ?_) _ hwinner
    refine .bind hdraw fun candidate hcandidate => .pure ?_
    split
    next => exact hcandidate
    next => exact hcurrent
  | rankWeighted =>
    unfold selectParentIndex
    rw [if_neg h]
    refine .ite (fun _ => ?_) fun _ => hweighted (rankWeights_length candidates.length)
    refine .bind (drawRangeF_always ?_) fun target _ => hmem ?_
    · rw [ofInt_natCast]
      exact decide_eq_true (triangle_pos hlength)
    · exact rankOffsetForTarget_lt hlength target
  | softmax =>
    unfold selectParentIndex
    rw [if_neg h]
    exact .bind (softmaxWeights_always scores hscores temperature)
      fun weights hweights => hweighted hweights

/-- What the draw of the survivors keeps: the available ids stay in order, so that a drawn one
is found among them, and it is not drawn again. -/
theorem drawSurvivors_spec (scores : List ℚ) (policy : ParentSelectionPolicy)
    (tournamentSize : Nat) (temperature : ℚ) (requested : Nat) {available : List Nat}
    (hscores : ∀ idx ∈ available, idx < scores.length) (hsorted : available.Pairwise (· < ·))
    (hrequested : requested ≤ available.length) :
    Always (drawSurvivors scores policy tournamentSize temperature requested available :
      Draw R (List Nat)) fun selected =>
        selected.length = requested ∧ selected.Nodup ∧ selected ⊆ available := by
  induction requested generalizing available with
  | zero => exact .pure ⟨rfl, List.nodup_nil, List.nil_subset _⟩
  | succ requested ih =>
    have hne : available ≠ [] := by
      rintro rfl
      exact absurd hrequested (Nat.not_succ_le_zero _)
    unfold drawSurvivors
    rw [if_neg hne]
    refine .bind (selectParentIndex_mem scores hne hscores policy tournamentSize temperature)
      fun idx hidx => ?_
    obtain ⟨offset, hoffset⟩ := Option.isSome_iff_exists.mp (List.isSome_idxOf?.mpr hidx)
    simp only [hoffset]
    obtain ⟨hlt, hget, -⟩ := List.idxOf?_eq_some_iff.mp hoffset
    have hlength : (available.eraseIdx offset).length + 1 = available.length := by
      rw [List.length_eraseIdx_of_lt hlt]
      omega
    refine .bind (ih (fun idx hidx => hscores idx (List.mem_of_mem_eraseIdx hidx))
      (hsorted.sublist (List.eraseIdx_sublist _ _)) (by omega)) ?_
    rintro selected ⟨hcount, hnodup, hsubset⟩
    refine .pure ⟨congrArg (· + 1) hcount, ?_, ?_⟩
    · refine List.nodup_cons.mpr ⟨fun hagain => ?_, hnodup⟩
      obtain ⟨i, hi, hother, hat⟩ := List.mem_eraseIdx_iff_getElem.mp (hsubset hagain)
      have hdistinct : available.Nodup := hsorted.imp Nat.ne_of_lt
      exact hother ((List.Nodup.getElem_inj_iff hdistinct).mp (hat.trans hget.symm))
    · intro x hx
      rcases List.mem_cons.mp hx with rfl | hlater
      · exact hidx
      · exact List.mem_of_mem_eraseIdx (hsubset hlater)

/-- Whatever the stream holds, the survivors of a generation are as many different members of it
as were asked for, in order. -/
theorem selectSurvivorIndices_spec (scores : List ℚ) (survivorCount : Nat)
    (policy : SurvivorSelectionPolicy) (temperature : ℚ) (tournamentSize : Nat) :
    Always (selectSurvivorIndices scores survivorCount policy temperature tournamentSize :
      Draw R (List Nat)) fun selected =>
        selected.Pairwise (· < ·) ∧ (∀ idx ∈ selected, idx < scores.length) ∧
        selected.length =
          if policy = .generational then 0 else min survivorCount scores.length := by
  unfold selectSurvivorIndices
  refine .ite (fun hnone => .pure ⟨.nil, by simp, by simp [hnone]⟩) fun _ => ?_
  have hdrawn (parents : ParentSelectionPolicy) : Always (do
      let selected ← drawSurvivors scores parents tournamentSize temperature
        (min survivorCount scores.length) (List.range scores.length)
      return selected.mergeSort fun a b => a ≤ b : Draw R (List Nat))
      fun selected => selected.Pairwise (· < ·) ∧ (∀ idx ∈ selected, idx < scores.length) ∧
        selected.length = min survivorCount scores.length := by
    refine .bind (drawSurvivors_spec scores parents tournamentSize temperature
      (min survivorCount scores.length) (fun idx hidx => List.mem_range.mp hidx)
      List.pairwise_lt_range ?_) ?_
    · rw [List.length_range]
      exact Nat.min_le_right _ _
    · rintro selected ⟨hcount, hnodup, hsubset⟩
      refine .pure ⟨?_, fun idx hidx => ?_, ?_⟩
      · have hle : (selected.mergeSort fun a b => a ≤ b).Pairwise (· ≤ ·) :=
          List.pairwise_mergeSort' (· ≤ ·) selected
        have hdistinct : (selected.mergeSort fun a b => a ≤ b).Nodup :=
          (List.mergeSort_perm _ _).nodup_iff.mpr hnodup
        exact hle.imp₂ (fun a b hab hne => lt_of_le_of_ne hab hne) hdistinct
      · exact List.mem_range.mp (hsubset (List.mem_mergeSort.mp hidx))
      · exact (List.length_mergeSort _).trans hcount
  cases policy with
  | elitist =>
    exact .pure ⟨List.pairwise_lt_range,
      fun idx hidx => (List.mem_range.mp hidx).trans_le (Nat.min_le_right _ _), List.length_range⟩
  | generational => exact .pure ⟨.nil, by simp, rfl⟩
  | rankWeighted => exact hdrawn .rankWeighted
  | tournament => exact hdrawn .tournament

end Members

end Exact

end Genetic

end Neoethos
