import Mathlib.Data.Nat.Choose.Basic
import Neoethos.TrialMatrix
import Neoethos.FloatOps

namespace Neoethos

open FloatOps (lit ofInt lt le eq isFinite)

def MIN_CSCV_GROUPS : Nat := 8

def MAX_CSCV_GROUPS : Nat := 16

def MIN_PERIODS_PER_GROUP : Nat := 2

def MIN_PERIODS_FOR_PBO : Nat := MIN_CSCV_GROUPS * MIN_PERIODS_PER_GROUP

def MIN_TRIALS_FOR_PBO : Nat := 10

def CSCV_WORK_BUDGET : Nat := 64000000

def binomial (n k : Nat) : Nat :=
  if n < k then 0
  else (List.range (min k (n - k))).foldl (fun acc i => acc * (n - i) / (i + 1)) 1

section Combinations

/-- The next index list in lexicographic order: the last index that can move on does, and those
behind it follow closely. -/
def nextCombination (n k : Nat) (idx : List Nat) : Option (List Nat) :=
  ((List.range k).reverse.find? fun i => (idx[i]?).getD 0 ≠ i + n - k).map fun i =>
    idx.take i ++ List.range' ((idx[i]?).getD 0 + 1) (k - i)

/-- The lists that the loop visits, until there is no next one or the rounds run out. -/
def combinationsFrom (n k : Nat) : Nat → List Nat → List (List Nat)
  | 0, _ => []
  | rounds + 1, idx =>
    idx :: match nextCombination n k idx with
      | none => []
      | some next => combinationsFrom n k rounds next

/-- What `for_each_combination` calls its function on. There are `n.choose k` rounds. -/
def combinations (n k : Nat) : List (List Nat) :=
  if k = 0 ∨ n < k then [] else combinationsFrom n k (n.choose k) (List.range k)

end Combinations

/-- Contiguous groups of nearly equal size, each with its first period and the one behind it. -/
def groupBounds (periods groups : Nat) : List (Nat × Nat) :=
  ((List.range groups).foldl (fun (out, start) g =>
    let len := periods / groups + if g < periods % groups then 1 else 0
    (out ++ [(start, start + len)], start + len)) ([], 0)).1

/-- `group_choice_reason`, by the numbers that it shows. -/
structure GroupChoiceReason where
  combinations : Nat
  trials : Nat
  groups : Nat
  deriving DecidableEq

inductive PboAssumption
  | contiguousGroups (combinations groups periods smallest largest : Nat)
  | ranked (trials excluded : Nat)
  | pooledMoments
  | tiesToLowest
  | bottomHalf
  | medianCountsBelow
  | oneGrid (trials : Nat)
  deriving DecidableEq

inductive PboRefusal
  | tooFewPeriods (periods : Nat)
  | tooFewTrials (usable excluded rows : Nat)
  | groupsTooShort (periods : Nat)
  | noSplits (groups : Nat)
  deriving DecidableEq

structure PboReport (F : Type*) where
  pbo : F
  combinations : Nat
  groups : Nat
  groupChoiceReason : GroupChoiceReason
  periods : Nat
  smallestGroupPeriods : Nat
  largestGroupPeriods : Nat
  trialsRanked : Nat
  trialsExcludedConstant : Nat
  degenerateOosEvaluations : Nat
  meanLogit : F
  medianRelativeRank : F
  assumptions : List PboAssumption

section Cscv

variable {F : Type*} [FloatOps F]

def CONSTANT_SERIES_PERFORMANCE : F := lit 1000000000000

def pooledPerformance (sum sumsq count : F) : F :=
  if le count (lit 0) then
    lit 0
  else
    let mean := sum / count
    let var := sumsq / count - mean * mean
    if le var (lit 0) || !isFinite var then
      if lt (lit 0) mean then CONSTANT_SERIES_PERFORMANCE
      else if lt mean (lit 0) then -CONSTANT_SERIES_PERFORMANCE
      else lit 0
    else
      mean / FloatOps.sqrt var

def usableRow (row : DecodedTrialRow F) : Bool :=
  row.returns.all (isFinite ·) && (row.returns.zip row.returns.tail).any fun w => !eq w.1 w.2

/-- The sums of a trial's returns and of their squares, group by group. -/
def groupSums (bounds : List (Nat × Nat)) (row : DecodedTrialRow F) : List (F × F) :=
  bounds.map fun (first, behind) =>
    ((row.returns.drop first).take (behind - first)).foldl
      (fun (s, q) v => (s + v, q + v * v)) (lit 0, lit 0)

/-- In-sample and out-of-sample performance of one trial, for the groups that are in sample. -/
def splitPerformance (sums : List (F × F)) (chosen : List Nat) (isCount oosCount : F) : F × F :=
  let (isS, isQ, oosS, oosQ) := sums.zipIdx.foldl (fun (isS, isQ, oosS, oosQ) ((s, q), g) =>
    if g ∈ chosen then (isS + s, isQ + q, oosS, oosQ) else (isS, isQ, oosS + s, oosQ + q))
    (lit 0, lit 0, lit 0, lit 0)
  (pooledPerformance isS isQ isCount, pooledPerformance oosS oosQ oosCount)

def championOf (performances : List (F × F)) : Nat :=
  (performances.zipIdx.foldl (fun (champion, best) ((ip, _), t) =>
    if lt best ip then (t, ip) else (champion, best)) (0, FloatOps.negInfinity)).1

/-- What one split adds: the relative rank of its champion out of sample, and whether that
performance is the stand-in. -/
def splitRank (groupSizes : List F) (sums : List (List (F × F))) (chosen : List Nat) : F × Bool :=
  let isCount := chosen.foldl (fun acc g => acc + (groupSizes[g]?).getD (lit 0)) (lit 0)
  let oosCount := groupSizes.zipIdx.foldl
    (fun acc (n, g) => if g ∈ chosen then acc else acc + n) (lit 0)
  let performances := sums.map fun s => splitPerformance s chosen isCount oosCount
  let champion := championOf performances
  let cp := (performances[champion]?).elim (lit 0) Prod.snd
  let others := (performances.zipIdx.filter fun r => r.2 ≠ champion).map fun r => r.1.2
  let below := others.countP fun p => lt p cp
  let equal := others.countP fun p => !lt p cp && eq p cp
  let rank : F := lit 1 + ofInt below + lit 0.5 * ofInt equal
  let omega := rank / (ofInt sums.length + lit 1)
  (FloatOps.clamp omega (lit 0.000000000001) (lit 1 - lit 0.000000000001),
    le CONSTANT_SERIES_PERFORMANCE (FloatOps.abs cp))

/-- The largest even group count whose groups are long enough and whose sweep fits the budget,
with its number of splits. -/
def chooseGroups (periods nTrials : Nat) : Option (Nat × Nat) :=
  ([16, 14, 12, 10, 8].find? fun groups =>
    MIN_PERIODS_PER_GROUP ≤ periods / groups &&
      binomial groups (groups / 2) * nTrials * groups ≤ CSCV_WORK_BUDGET).map fun groups =>
    (groups, binomial groups (groups / 2))

variable [FloatOps.Elementary F]

def pboCscv (matrix : DecodedTrialMatrix F) : Except PboRefusal (PboReport F) :=
  let periods := matrix.periods
  if periods < MIN_PERIODS_FOR_PBO then
    .error (.tooFewPeriods periods)
  else
    let usable := matrix.rows.filter usableRow
    let excluded := matrix.rows.length - usable.length
    let nTrials := usable.length
    if nTrials < MIN_TRIALS_FOR_PBO then
      .error (.tooFewTrials nTrials excluded matrix.rows.length)
    else if chooseGroups periods nTrials = none ∧
        periods / MIN_CSCV_GROUPS < MIN_PERIODS_PER_GROUP then
      .error (.groupsTooShort periods)
    else
      -- The least group count stands in where none fits the budget.
      let (groups, planned) := (chooseGroups periods nTrials).getD
        (MIN_CSCV_GROUPS, binomial MIN_CSCV_GROUPS (MIN_CSCV_GROUPS / 2))
      let bounds := groupBounds periods groups
      let sizes : List Nat := bounds.map fun b => b.2 - b.1
      let smallest := sizes.min?.getD 0
      let largest := sizes.max?.getD 0
      let groupSizes : List F := sizes.map fun n => ofInt (n : Int)
      let sums := usable.map (groupSums bounds)
      let splits := (combinations groups (groups / 2)).map (splitRank groupSizes sums)
      let ranks := splits.map Prod.fst
      let logits := ranks.map fun omega => FloatOps.Elementary.ln (omega / (lit 1 - omega))
      if logits = [] then
        .error (.noSplits groups)
      else
        let belowMedian := logits.countP fun lambda => le lambda (lit 0)
        let sorted := ranks.mergeSort fun a b => !lt b a
        .ok {
          pbo := ofInt belowMedian / ofInt logits.length
          combinations := logits.length
          groups
          groupChoiceReason := ⟨planned, nTrials, groups⟩
          periods
          smallestGroupPeriods := smallest
          largestGroupPeriods := largest
          trialsRanked := nTrials
          trialsExcludedConstant := excluded
          degenerateOosEvaluations := splits.countP Prod.snd
          meanLogit := FloatOps.sum logits / ofInt logits.length
          medianRelativeRank := (sorted[sorted.length / 2]?).getD (lit 0)
          assumptions := [.contiguousGroups planned groups periods smallest largest,
            .ranked nTrials excluded, .pooledMoments, .tiesToLowest, .bottomHalf,
            .medianCountsBelow, .oneGrid nTrials] }

end Cscv

end Neoethos
