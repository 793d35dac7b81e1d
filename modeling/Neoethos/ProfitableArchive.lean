import Neoethos.FloatOps
import Mathlib.Tactic.Common

/-! The bounded archive of profitable observations, `profitable_archive.rs`. -/

namespace Neoethos

open FloatOps (lit le isFinite)

/-- One entry of the archive: the gene, its metrics and when its identity was admitted. -/
structure ArchiveObservation (G F : Type*) where
  gene : G
  metrics : Vector F 11
  sequence : Nat

/-- The place of an observation in the retention order. -/
structure ArchiveRank (F : Type*) where
  net : F
  sequence : Nat
  slot : Nat

inductive ArchiveOffer
  | inserted
  | replacedWorst
  | improvedDuplicate
  | rejectedDuplicate
  | rejectedCapacity
  | rejectedNonFinite
  | rejectedNoTrades
  deriving DecidableEq

def ArchiveOffer.isRejected : ArchiveOffer → Bool
  | .inserted | .replacedWorst | .improvedDuplicate => false
  | .rejectedDuplicate | .rejectedCapacity | .rejectedNonFinite | .rejectedNoTrades => true

/-- How a call of `offer` can end without an outcome: the error it returns, the `expect` of the
worst rank and the indexing of a slot. -/
inductive OfferFailure
  | sequenceOverflow
  | noRetainedRank
  | slotOutOfBounds
  deriving DecidableEq

section Ranks

variable {F : Type*} [FloatOps F] [FloatOps.Valued F]

namespace ArchiveRank

/-- `ArchiveRank::new`: the two zeros become one. -/
def new (net : F) (sequence slot : Nat) : ArchiveRank F :=
  ⟨if FloatOps.eq net (lit 0) then lit 0 else net, sequence, slot⟩

def cmp : ArchiveRank F → ArchiveRank F → Ordering :=
  compareLex (fun a b => FloatOps.Valued.totalCmp a.net b.net)
    (compareLex (fun a b => compare b.sequence a.sequence) (fun a b => compare a.slot b.slot))

instance : Std.TransCmp (cmp : ArchiveRank F → ArchiveRank F → Ordering) :=
  have : Std.TransCmp (fun a b : ArchiveRank F => FloatOps.Valued.totalCmp a.net b.net) :=
    { eq_swap := FloatOps.Valued.trans.eq_swap
      isLE_trans := FloatOps.Valued.trans.isLE_trans }
  have : Std.TransCmp (fun a b : ArchiveRank F => compare b.sequence a.sequence) :=
    { eq_swap := Std.OrientedCmp.eq_swap
      isLE_trans := fun hab hbc => Std.TransCmp.isLE_trans hbc hab }
  have : Std.TransCmp (fun a b : ArchiveRank F => compare a.slot b.slot) :=
    { eq_swap := Std.OrientedCmp.eq_swap
      isLE_trans := Std.TransCmp.isLE_trans }
  inferInstanceAs (Std.TransCmp (compareLex _ (compareLex _ _)))

instance : Std.LawfulEqCmp (cmp : ArchiveRank F → ArchiveRank F → Ordering) where
  compare_self := by
    intro a
    have hnet := FloatOps.Valued.lawful.compare_self (a := a.net)
    simp [cmp, compareLex, hnet]
  eq_of_compare := by
    intro a b h
    simp only [cmp, compareLex, Ordering.then_eq_eq] at h
    obtain ⟨hnet, hsequence, hslot⟩ := h
    have hnet := FloatOps.Valued.lawful.eq_of_compare hnet
    have hsequence := Std.LawfulEqCmp.eq_of_compare hsequence
    have hslot := Std.LawfulEqCmp.eq_of_compare hslot
    cases a
    cases b
    simp_all

theorem new_finite {net : F} (h : isFinite net = true) (sequence slot : Nat) :
    isFinite (new net sequence slot).net = true := by
  unfold new
  split
  next => exact FloatOps.Valued.zero_finite
  next => exact h

theorem value_new {net : F} (h : isFinite net = true) (sequence slot : Nat) :
    FloatOps.Valued.value (new net sequence slot).net = FloatOps.Valued.value net := by
  unfold new
  split
  next heq =>
    have hzero := (FloatOps.Valued.eq_iff net (lit 0) h FloatOps.Valued.zero_finite).mp heq
    exact hzero.symm
  next => rfl

theorem value_le_of_cmp {a b : ArchiveRank F} (ha : isFinite a.net = true)
    (hb : isFinite b.net = true) (h : (cmp a b).isLE = true) :
    FloatOps.Valued.value a.net ≤ FloatOps.Valued.value b.net := by
  by_contra hlt
  have hcmp := FloatOps.Valued.totalCmp_of_lt b.net a.net hb ha (not_le.mp hlt)
  have hgt : cmp b a = .lt := by simp [cmp, compareLex, hcmp]
  have hswap : cmp a b = .gt := Std.OrientedCmp.gt_iff_lt.mpr hgt
  rw [hswap] at h
  simp at h

end ArchiveRank

end Ranks

/-- `ranks` is the `BTreeSet`; `positions` reads the `HashMap` from keys to slots. -/
structure BoundedProfitableArchive (G F K : Type*) [FloatOps F] [FloatOps.Valued F] where
  capacity : Nat
  observations : List (ArchiveObservation G F)
  positions : K → Option Nat
  ranks : Std.TreeSet (ArchiveRank F) ArchiveRank.cmp
  nextSequence : Nat

namespace BoundedProfitableArchive

variable {G F K : Type*} [FloatOps F] [FloatOps.Valued F] [DecidableEq K]

omit [DecidableEq K] in
def new (capacity : Nat) : BoundedProfitableArchive G F K :=
  ⟨capacity, [], fun _ => none, ∅, 0⟩

/-- `ranks.first()`. -/
def worstRank (a : BoundedProfitableArchive G F K) : Option (ArchiveRank F) :=
  a.ranks.toList.head?

omit [DecidableEq K] in
theorem worstRank_eq_none {a : BoundedProfitableArchive G F K} (h : a.worstRank = none) :
    a.ranks.size = 0 := by
  rw [← Std.TreeSet.length_toList]
  exact List.length_eq_zero_iff.mpr (List.head?_eq_none_iff.mp h)

omit [DecidableEq K] in
theorem worstRank_spec {a : BoundedProfitableArchive G F K} {worst : ArchiveRank F}
    (h : a.worstRank = some worst) :
    worst ∈ a.ranks ∧ ∀ r ∈ a.ranks, (ArchiveRank.cmp worst r).isLE = true := by
  obtain ⟨rest, hlist⟩ := List.head?_eq_some_iff.mp h
  have hmem : ∀ r, r ∈ a.ranks ↔ r = worst ∨ r ∈ rest := by
    intro r
    rw [← Std.TreeSet.mem_toList, hlist, List.mem_cons]
  have hordered := Std.TreeSet.ordered_toList (t := a.ranks)
  rw [hlist, List.pairwise_cons] at hordered
  refine ⟨(hmem worst).mpr (.inl rfl), ?_⟩
  intro r hr
  obtain rfl | hr := (hmem r).mp hr
  · exact Std.ReflCmp.isLE_rfl
  · rw [hordered.1 r hr]
    rfl

/-- The metrics that must be finite: `metrics[0]`, `[1]`, `[5]` and `[8]`. -/
def finiteMetrics (metrics : Vector F 11) : Bool :=
  isFinite metrics[0] && isFinite metrics[1] && isFinite metrics[5] && isFinite metrics[8]

/-- An identity that is retained: a better observation takes the whole slot. -/
def offerDuplicate (a : BoundedProfitableArchive G F K) (gene : G) (metrics : Vector F 11)
    (slot : Nat) : Except OfferFailure (ArchiveOffer × BoundedProfitableArchive G F K) :=
  match a.observations[slot]? with
  | none => .error .slotOutOfBounds
  | some incumbent =>
    if le metrics[0] incumbent.metrics[0] then
      .ok (.rejectedDuplicate, a)
    else
      .ok (.improvedDuplicate,
        { a with
          observations := a.observations.set slot ⟨gene, metrics, incumbent.sequence⟩
          ranks := (a.ranks.erase (.new incumbent.metrics[0] incumbent.sequence slot)).insert
            (.new metrics[0] incumbent.sequence slot) })

/-- The slot of the worst observation passes to the new one, and the old key is forgotten. -/
def replaceWorst (a : BoundedProfitableArchive G F K) (key : G → K) (gene : G)
    (metrics : Vector F 11) (worst : ArchiveRank F) :
    Except OfferFailure (ArchiveOffer × BoundedProfitableArchive G F K) :=
  match a.observations[worst.slot]? with
  | none => .error .slotOutOfBounds
  | some previous =>
    .ok (.replacedWorst,
      { a with
        observations := a.observations.set worst.slot ⟨gene, metrics, a.nextSequence⟩
        positions := Function.update (Function.update a.positions (key previous.gene) none)
          (key gene) (some worst.slot)
        ranks := (a.ranks.erase worst).insert (.new metrics[0] a.nextSequence worst.slot)
        nextSequence := a.nextSequence + 1 })

def append (a : BoundedProfitableArchive G F K) (key : G → K) (gene : G)
    (metrics : Vector F 11) : BoundedProfitableArchive G F K :=
  { a with
    observations := a.observations ++ [⟨gene, metrics, a.nextSequence⟩]
    positions := Function.update a.positions (key gene) (some a.observations.length)
    ranks := a.ranks.insert (.new metrics[0] a.nextSequence a.observations.length)
    nextSequence := a.nextSequence + 1 }

def offerNew (a : BoundedProfitableArchive G F K) (key : G → K) (gene : G)
    (metrics : Vector F 11) :
    Except OfferFailure (ArchiveOffer × BoundedProfitableArchive G F K) :=
  if a.observations.length = a.capacity then
    match a.worstRank with
    | none => .error .noRetainedRank
    | some worst =>
      if le metrics[0] worst.net then
        .ok (.rejectedCapacity, a)
      else if 2 ^ 64 ≤ a.nextSequence + 1 then
        .error .sequenceOverflow
      else
        a.replaceWorst key gene metrics worst
  else if 2 ^ 64 ≤ a.nextSequence + 1 then
    .error .sequenceOverflow
  else
    .ok (.inserted, a.append key gene metrics)

def offer (a : BoundedProfitableArchive G F K) (key : G → K) (gene : G) (metrics : Vector F 11) :
    Except OfferFailure (ArchiveOffer × BoundedProfitableArchive G F K) :=
  if !finiteMetrics metrics then
    .ok (.rejectedNonFinite, a)
  else if le metrics[8] (lit 0) then
    .ok (.rejectedNoTrades, a)
  else if a.capacity = 0 then
    .ok (.rejectedCapacity, a)
  else
    match a.positions (key gene) with
    | some slot => a.offerDuplicate gene metrics slot
    | none => a.offerNew key gene metrics

def qualifies (metrics : Vector F 11) : Bool := finiteMetrics metrics && !le metrics[8] (lit 0)

inductive OfferStep (a : BoundedProfitableArchive G F K) (key : G → K) (gene : G)
    (metrics : Vector F 11) : ArchiveOffer → BoundedProfitableArchive G F K → Prop
  | unqualified {outcome} (hq : qualifies metrics = false) (hr : outcome.isRejected = true) :
      OfferStep a key gene metrics outcome a
  | noCapacity (hq : qualifies metrics = true) (hcapacity : a.capacity = 0) :
      OfferStep a key gene metrics .rejectedCapacity a
  | rejectedDuplicate {slot incumbent} (hq : qualifies metrics = true)
      (hposition : a.positions (key gene) = some slot)
      (hget : a.observations[slot]? = some incumbent)
      (hle : le metrics[0] incumbent.metrics[0] = true) :
      OfferStep a key gene metrics .rejectedDuplicate a
  | improvedDuplicate {slot incumbent} (hq : qualifies metrics = true)
      (hposition : a.positions (key gene) = some slot)
      (hget : a.observations[slot]? = some incumbent)
      (hle : ¬le metrics[0] incumbent.metrics[0] = true) :
      OfferStep a key gene metrics .improvedDuplicate
        { a with
          observations := a.observations.set slot ⟨gene, metrics, incumbent.sequence⟩
          ranks := (a.ranks.erase (.new incumbent.metrics[0] incumbent.sequence slot)).insert
            (.new metrics[0] incumbent.sequence slot) }
  | rejectedCapacity {worst} (hq : qualifies metrics = true)
      (hposition : a.positions (key gene) = none)
      (hfull : a.observations.length = a.capacity) (hworst : a.worstRank = some worst)
      (hle : le metrics[0] worst.net = true) :
      OfferStep a key gene metrics .rejectedCapacity a
  | replacedWorst {worst previous} (hq : qualifies metrics = true)
      (hposition : a.positions (key gene) = none)
      (hfull : a.observations.length = a.capacity) (hworst : a.worstRank = some worst)
      (hle : ¬le metrics[0] worst.net = true)
      (hget : a.observations[worst.slot]? = some previous) :
      OfferStep a key gene metrics .replacedWorst
        { a with
          observations := a.observations.set worst.slot ⟨gene, metrics, a.nextSequence⟩
          positions := Function.update (Function.update a.positions (key previous.gene) none)
            (key gene) (some worst.slot)
          ranks := (a.ranks.erase worst).insert (.new metrics[0] a.nextSequence worst.slot)
          nextSequence := a.nextSequence + 1 }
  | inserted (hq : qualifies metrics = true) (hposition : a.positions (key gene) = none)
      (hroom : a.observations.length ≠ a.capacity) :
      OfferStep a key gene metrics .inserted (a.append key gene metrics)

theorem offerStep_of_offer {a a' : BoundedProfitableArchive G F K} {key : G → K} {gene : G}
    {metrics : Vector F 11} {outcome : ArchiveOffer}
    (h : a.offer key gene metrics = .ok (outcome, a')) :
    OfferStep a key gene metrics outcome a' := by
  unfold offer at h
  split at h
  next hfinite =>
    cases h
    rw [Bool.not_eq_true'] at hfinite
    exact .unqualified (by simp [qualifies, hfinite]) rfl
  next hfinite =>
    split at h
    next htrades =>
      cases h
      exact .unqualified (by simp [qualifies, htrades]) rfl
    next htrades =>
      have hq : qualifies metrics = true := by
        simp only [Bool.not_eq_true', Bool.not_eq_false] at hfinite
        simp [qualifies, hfinite, htrades]
      split at h
      next hcapacity =>
        cases h
        exact .noCapacity hq hcapacity
      next =>
        split at h
        next slot hposition =>
          unfold offerDuplicate at h
          split at h
          next => simp at h
          next incumbent hget =>
            split at h
            next hle =>
              cases h
              exact .rejectedDuplicate hq hposition hget hle
            next hle =>
              cases h
              exact .improvedDuplicate hq hposition hget hle
        next hposition =>
          unfold offerNew at h
          split at h
          next hfull =>
            split at h
            next => simp at h
            next worst hworst =>
              split at h
              next hle =>
                cases h
                exact .rejectedCapacity hq hposition hfull hworst hle
              next hle =>
                split at h
                next => simp at h
                next =>
                  unfold replaceWorst at h
                  split at h
                  next => simp at h
                  next previous hget =>
                    cases h
                    exact .replacedWorst hq hposition hfull hworst hle hget
          next hroom =>
            split at h
            next => simp at h
            next =>
              cases h
              exact .inserted hq hposition hroom

theorem OfferStep.rejected {a a' : BoundedProfitableArchive G F K} {key : G → K} {gene : G}
    {metrics : Vector F 11} {outcome : ArchiveOffer} (h : OfferStep a key gene metrics outcome a')
    (hr : outcome.isRejected = true) : a' = a := by
  cases h with
  | unqualified => rfl
  | noCapacity => rfl
  | rejectedDuplicate => rfl
  | rejectedCapacity => rfl
  | improvedDuplicate | replacedWorst | inserted => simp [ArchiveOffer.isRejected] at hr

end BoundedProfitableArchive

section Observations

variable {G F : Type*} [FloatOps F] [FloatOps.Valued F]

def ArchiveObservation.rank (o : ArchiveObservation G F) (slot : Nat) : ArchiveRank F :=
  .new o.metrics[0] o.sequence slot

/-- The net profit of an observation, `metrics[0]`, as a number. -/
def netProfit (metrics : Vector F 11) : ℚ := FloatOps.Valued.value metrics[0]

namespace BoundedProfitableArchive

omit [FloatOps.Valued F] in
theorem finite_of_qualifies {metrics : Vector F 11} (h : qualifies metrics = true) :
    isFinite metrics[0] = true := by
  simp only [qualifies, finiteMetrics, Bool.and_eq_true] at h
  exact h.1.1.1.1

theorem le_iff_netProfit {m m' : Vector F 11} (h : qualifies m = true)
    (h' : qualifies m' = true) : le m[0] m'[0] = true ↔ netProfit m ≤ netProfit m' :=
  FloatOps.Valued.le_iff _ _ (finite_of_qualifies h) (finite_of_qualifies h')

end BoundedProfitableArchive

end Observations

end Neoethos
