import Mathlib.Order.Nat
import Mathlib.Tactic.IntervalCases
import Neoethos.Genes
import Neoethos.ParentSelection

/-! What makes the genes of a generation: random genes, crossover and mutation of
`evolution_math.rs`, and the flags of `smc_indicators.rs`. -/

namespace Neoethos

namespace Genetic

open FloatOps (lit lt le isFinite)
open RandomDraws

structure SmcSearchConfig (F : Type) where
  forceRatio : F
  minFlags : Nat
  pOb : F
  pFvg : F
  pLiq : F
  pPremium : F
  pInducement : F
  pMtf : F
  pBos : F
  pChoch : F
  pEqh : F
  pEql : F
  pDisplacement : F

structure GeneStopBoundsOverrides (F : Type) where
  atrScaled : Bool
  slMinAtr : F
  slMaxAtr : F
  rrMin : F
  rrMax : F
  slMinPips : F
  slMaxPips : F
  tpMinPips : F
  tpMaxPips : F

/-- `ResolvedGeneStopBounds`, without the scale it was derived from. -/
structure GeneStopBounds (F : Type) where
  slMinPips : F
  slMaxPips : F
  tpMinPips : F
  tpMaxPips : F
  rrMin : F
  rrMax : F

/-- What a run reads of the process while it makes genes: the threshold ladder, the stop band and
the flags. -/
structure BreedingConfig (F : Type) where
  nIndicators : Nat
  maxIndicators : Nat
  ladder : Vector F 6
  bounds : GeneStopBounds F
  smc : SmcSearchConfig F

section Settings

variable {F : Type} [FloatOps F]

/-- `SmcSearchConfig::from_settings`, of the settings and their `force_enabled`. -/
def SmcSearchConfig.fromSettings (c : SmcSearchConfig F) (forceEnabled : Bool) :
    SmcSearchConfig F :=
  let share (p : F) := FloatOps.clamp p (lit 0) (lit 1)
  { forceRatio := if forceEnabled then share c.forceRatio else lit 0
    minFlags := if forceEnabled then c.minFlags else 0
    pOb := share c.pOb
    pFvg := share c.pFvg
    pLiq := share c.pLiq
    pPremium := share c.pPremium
    pInducement := share c.pInducement
    pMtf := share c.pMtf
    pBos := share c.pBos
    pChoch := share c.pChoch
    pEqh := share c.pEqh
    pEql := share c.pEql
    pDisplacement := share c.pDisplacement }

namespace GeneStopBoundsOverrides

protected def default : GeneStopBoundsOverrides F where
  atrScaled := true
  slMinAtr := lit 1
  slMaxAtr := lit 4
  rrMin := lit (3 / 2)
  rrMax := lit 4
  slMinPips := lit 6
  slMaxPips := lit 20
  tpMinPips := lit 12
  tpMaxPips := lit 45

def pos (value fallback : F) : F :=
  if FloatOps.isPositive value then value else fallback

def fromSettings (c : GeneStopBoundsOverrides F) : GeneStopBoundsOverrides F :=
  let d : GeneStopBoundsOverrides F := .default
  let slMinAtr := pos c.slMinAtr d.slMinAtr
  let slMinPips := pos c.slMinPips d.slMinPips
  let tpMinPips := pos c.tpMinPips d.tpMinPips
  let rrMin := pos c.rrMin d.rrMin
  { atrScaled := c.atrScaled
    slMinAtr
    slMaxAtr := FloatOps.max (pos c.slMaxAtr d.slMaxAtr) slMinAtr
    rrMin
    rrMax := FloatOps.max (pos c.rrMax d.rrMax) rrMin
    slMinPips
    slMaxPips := FloatOps.max (pos c.slMaxPips d.slMaxPips) slMinPips
    tpMinPips
    tpMaxPips := FloatOps.max (pos c.tpMaxPips d.tpMaxPips) tpMinPips }

end GeneStopBoundsOverrides

/-- `install_gene_stop_atr_scale`. -/
def installGeneStopAtrScale (atrPips : F) : Option F :=
  if FloatOps.isPositive atrPips then some atrPips else none

def currentGeneStopBounds (cfg : GeneStopBoundsOverrides F) (installed : Option F) :
    GeneStopBounds F :=
  match if cfg.atrScaled then installed else none with
  | some atrPips =>
    let slMin := FloatOps.max (cfg.slMinAtr * atrPips) (lit (1 / 1000000))
    let slMax := FloatOps.max (cfg.slMaxAtr * atrPips) slMin
    { slMinPips := slMin
      slMaxPips := slMax
      tpMinPips := slMin * cfg.rrMin
      tpMaxPips := slMax * cfg.rrMax
      rrMin := cfg.rrMin
      rrMax := cfg.rrMax }
  | none =>
    { slMinPips := cfg.slMinPips
      slMaxPips := cfg.slMaxPips
      tpMinPips := cfg.tpMinPips
      tpMaxPips := cfg.tpMaxPips
      rrMin := cfg.rrMin
      rrMax := cfg.rrMax }

/-- `adaptive_stops_enabled`. -/
def adaptiveStopsEnabled : Bool :=
  true

end Settings

section Flags

variable {R F : Type}

/-- `smc_structural_flag_count` counts these. -/
def structuralFlags (g : Gene F) : List Bool :=
  [g.useOb, g.useFvg, g.useLiqSweep, g.usePremiumDiscount, g.useInducement, g.useBos, g.useChoch,
    g.useEqh, g.useEql, g.useDisplacement]

def smcStructuralFlagCount (g : Gene F) : Nat :=
  (structuralFlags g).count true

def raiseFlag (g : Gene F) : Nat → Gene F
  | 0 => { g with useOb := true }
  | 1 => { g with useFvg := true }
  | 2 => { g with useLiqSweep := true }
  | 3 => { g with usePremiumDiscount := true }
  | 4 => { g with useInducement := true }
  | 5 => { g with useBos := true }
  | 6 => { g with useChoch := true }
  | 7 => { g with useEqh := true }
  | 8 => { g with useEql := true }
  | _ => { g with useDisplacement := true }

theorem structuralFlags_raiseFlag (g : Gene F) {k : Nat} (h : k < 10) :
    structuralFlags (raiseFlag g k) = (structuralFlags g).set k true := by
  interval_cases k <;> rfl

theorem raiseFlag_of_set {g : Gene F} {k : Nat} (h : k < 10)
    (hset : (structuralFlags g)[k]? = some true) : raiseFlag g k = g := by
  interval_cases k <;> · cases g; simp_all [raiseFlag, structuralFlags]

theorem count_raiseFlag {g : Gene F} {k : Nat} (h : k < 10)
    (hunset : (structuralFlags g)[k]? = some false) :
    smcStructuralFlagCount (raiseFlag g k) = smcStructuralFlagCount g + 1 := by
  unfold smcStructuralFlagCount
  rw [structuralFlags_raiseFlag g h]
  obtain ⟨hlt, hget⟩ := List.getElem?_eq_some_iff.mp hunset
  rw [List.count_set hlt, hget]
  simp

variable [SearchRng R F]

def raiseTurn (g : Gene F) : StateM R (Gene F) := do
  let k ← SearchRng.range 10
  return raiseFlag g k

def afterFlags (rng : R) (m : Nat) : R :=
  (fun rng => (SearchRng.range (F := F) 10 rng).2)^[m] rng

theorem repeatM_raiseTurn_of_set {g : Gene F} (m : Nat) (rng : R)
    (h : ∀ i < m, (structuralFlags g)[(SearchRng.range (F := F) 10
      (afterFlags (F := F) rng i)).1]? = some true) :
    repeatM raiseTurn m g rng = (g, afterFlags (F := F) rng m) := by
  induction m generalizing rng with
  | zero => rfl
  | succ m ih =>
    have hlt := SearchRng.range_lt (F := F) 10 (by decide) rng
    have hfirst : raiseFlag g (SearchRng.range (F := F) 10 rng).1 = g :=
      raiseFlag_of_set hlt (h 0 (Nat.succ_pos m))
    have hrest := ih (SearchRng.range (F := F) 10 rng).2 fun i hi => h (i + 1) (Nat.succ_lt_succ hi)
    change repeatM raiseTurn m (raiseFlag g (SearchRng.range (F := F) 10 rng).1)
      (SearchRng.range (F := F) 10 rng).2 = _
    rw [hfirst, hrest]
    rfl

/-- The loop ends: a uniform stream comes to a flag that is not raised yet. -/
theorem raiseFlags_ends {need : Nat} (hneed : need ≤ 10) (g : Gene F) (rng : R) :
    ∃ m, need ≤ smcStructuralFlagCount (repeatM raiseTurn m g rng).1 := by
  induction hleft : need - smcStructuralFlagCount g generalizing g rng with
  | zero => exact ⟨0, by change need ≤ smcStructuralFlagCount g; omega⟩
  | succ left ih =>
    have hmissing : ∃ k < 10, (structuralFlags g)[k]? = some false := by
      by_contra hnone
      push Not at hnone
      have hall : ∀ flag ∈ structuralFlags g, true = flag := by
        intro flag hflag
        obtain ⟨k, hk, rfl⟩ := List.mem_iff_getElem.mp hflag
        have hother := hnone k hk
        rw [List.getElem?_eq_getElem hk] at hother
        simpa using hother
      have hcount : smcStructuralFlagCount g = 10 := List.count_eq_length.mpr hall
      omega
    obtain ⟨k, hk, hunset⟩ := hmissing
    have hhit : ∃ m, (structuralFlags g)[(SearchRng.range (F := F) 10
        (afterFlags (F := F) rng m)).1]? = some false := by
      obtain ⟨m, hm⟩ := SearchRng.range_fair (F := F) rng 10 k hk
      exact ⟨m, by rw [afterFlags, hm]; exact hunset⟩
    obtain ⟨m, hfirst, hbefore⟩ : ∃ m, (structuralFlags g)[(SearchRng.range (F := F) 10
        (afterFlags (F := F) rng m)).1]? = some false ∧ ∀ i < m, (structuralFlags g)[
          (SearchRng.range (F := F) 10 (afterFlags (F := F) rng i)).1]? ≠ some false :=
      ⟨Nat.find hhit, Nat.find_spec hhit, fun i hi => Nat.find_min hhit hi⟩
    have hset : ∀ i < m, (structuralFlags g)[(SearchRng.range (F := F) 10
        (afterFlags (F := F) rng i)).1]? = some true := by
      intro i hi
      have hlt : (SearchRng.range (F := F) 10 (afterFlags (F := F) rng i)).1 <
        (structuralFlags g).length := SearchRng.range_lt (F := F) 10 (by decide) _
      have hother := hbefore i hi
      rw [List.getElem?_eq_getElem hlt] at hother ⊢
      simpa using hother
    have hsame := repeatM_raiseTurn_of_set m rng hset
    obtain ⟨drawn, hdrawn⟩ : ∃ drawn, SearchRng.range (F := F) 10 (afterFlags (F := F) rng m) =
      drawn := ⟨_, rfl⟩
    rw [hdrawn] at hfirst
    have hlt : drawn.1 < 10 := hdrawn ▸ SearchRng.range_lt (F := F) 10 (by decide) _
    have hmore := count_raiseFlag hlt hfirst
    obtain ⟨m', hm'⟩ := ih (raiseFlag g drawn.1) drawn.2 (by omega)
    refine ⟨m + (m' + 1), ?_⟩
    rw [repeatM_add, hsame]
    change need ≤ smcStructuralFlagCount (repeatM raiseTurn m' (raiseFlag g
      (SearchRng.range (F := F) 10 (afterFlags (F := F) rng m)).1)
      (SearchRng.range (F := F) 10 (afterFlags (F := F) rng m)).2).1
    rw [hdrawn]
    exact hm'

/-- The loop of `enforce_min_structural_smc_flags`: it stops at the first turn that finds enough
flags. -/
def raiseFlags (g : Gene F) (need : Nat) : StateM R (Gene F) := fun rng =>
  repeatM raiseTurn (Nat.find (raiseFlags_ends (Nat.min_le_right need 10) g rng)) g rng

variable [FloatOps F]

def enforceMinStructuralSmcFlags (g : Gene F) (cfg : SmcSearchConfig F) : Draw R (Gene F) := do
  let need := min cfg.minFlags 10
  if need = 0 then return g
  let g ← ofStream (raiseFlags g need)
  if g.mtfConfirmation then return g
  let confirm ← drawBool (FloatOps.max cfg.pMtf (lit (1 / 2)))
  return if confirm then { g with mtfConfirmation := true } else g

def randomizeSmcFlags (g : Gene F) (cfg : SmcSearchConfig F) : Draw R (Gene F) := do
  let useOb ← drawBool cfg.pOb
  let useFvg ← drawBool cfg.pFvg
  let useLiqSweep ← drawBool cfg.pLiq
  let usePremiumDiscount ← drawBool cfg.pPremium
  let useInducement ← drawBool cfg.pInducement
  let mtfConfirmation ← drawBool cfg.pMtf
  let useBos ← drawBool cfg.pBos
  let useChoch ← drawBool cfg.pChoch
  let useEqh ← drawBool cfg.pEqh
  let useEql ← drawBool cfg.pEql
  let useDisplacement ← drawBool cfg.pDisplacement
  return { g with useOb, useFvg, useLiqSweep, usePremiumDiscount, useInducement, mtfConfirmation,
                  useBos, useChoch, useEqh, useEql, useDisplacement }

end Flags

section Genes

variable {R F : Type} [FloatOps F] [SearchRng R F]

/-- `f64::clamp` panics on bounds out of order. -/
def drawClamp (x lower upper : F) : Draw R F :=
  if le lower upper then return FloatOps.clamp x lower upper else crash

def randomCoarseWeight : Draw R F := do
  let level ← drawRange (F := F) 5
  let weight ← indexed [lit (1 / 5), lit (2 / 5), lit (3 / 5), lit (4 / 5), lit 1] level
  let negative ← drawBool (lit 1 / lit 3 : F)
  return if negative then -weight else weight

def randomCoarseThreshold (cfg : BreedingConfig F) : Draw R F := do
  let level ← drawRange (F := F) 6
  indexed cfg.ladder.toList level

/-- `mid_pair`. -/
def GeneStopBounds.midPair (bounds : GeneStopBounds F) : Draw R (F × F) := do
  let sl := lit (1 / 2) * (bounds.slMinPips + bounds.slMaxPips)
  let rr := lit (1 / 2) * (bounds.rrMin + bounds.rrMax)
  let tp ← drawClamp (sl * rr) bounds.tpMinPips bounds.tpMaxPips
  return (sl, tp)

def effectiveAdaptiveRewardRisk (stopPips targetPips fallback : F) : F :=
  if FloatOps.isPositive stopPips && FloatOps.isPositive targetPips &&
      FloatOps.isPositive (targetPips / stopPips) then targetPips / stopPips
  else if FloatOps.isPositive fallback then fallback
  else lit 2

def drawStrategyId (generation : Nat) : Draw R String := do
  let id ← drawRange (F := F) 1000000
  return s!"gene_{id}_{generation}"

def drawTerms (cfg : BreedingConfig F) : Draw R (List Nat × List F) := do
  let most := max (min cfg.maxIndicators (max cfg.nIndicators 1)) 1
  let offset ← drawRange (F := F) most
  let indices ← drawSample (F := F) (max cfg.nIndicators 1) (offset + 1)
  let weights ← (List.range (offset + 1)).mapM fun _ => randomCoarseWeight
  return (indices, weights)

def drawStops (bounds : GeneStopBounds F) : Draw R (F × F) := do
  let middle ← drawBool (lit (1 / 5) : F)
  if middle then bounds.midPair
  else
    let sl ← drawInclusive bounds.slMinPips bounds.slMaxPips
    let rr ← drawInclusive bounds.rrMin bounds.rrMax
    let tp ← drawClamp (sl * rr) bounds.tpMinPips bounds.tpMaxPips
    return (sl, tp)

def newRandomGene (cfg : BreedingConfig F) (generation : Nat) : Draw R (Gene F) := do
  let (indices, weights) ← drawTerms cfg
  let longThreshold ← randomCoarseThreshold cfg
  let threshold ← randomCoarseThreshold cfg
  let (slPips, tpPips) ← drawStops cfg.bounds
  let stopVolMult ←
    (if adaptiveStopsEnabled then drawInclusive (lit (1 / 2)) (lit 3 : F) else pure (lit 0))
  let strategyId ← drawStrategyId (F := F) generation
  let gene : Gene F :=
    { indices, weights, longThreshold
      shortThreshold := -threshold
      fitness := lit 0, sharpeRatio := lit 0, winRate := lit 0, maxDrawdown := lit 0
      profitFactor := lit 0, expectancy := lit 0, tradesCount := 0, generation, strategyId
      useOb := false, useFvg := false, useLiqSweep := false, mtfConfirmation := true
      usePremiumDiscount := false, useInducement := false, useBos := false, useChoch := false
      useEqh := false, useEql := false, useDisplacement := false
      tpPips, slPips
      slicePassRate := lit 0, consistency := lit 0
      stopVolMult }
  let gene ← randomizeSmcFlags gene cfg.smc
  let gene ← enforceMinStructuralSmcFlags gene cfg.smc
  return gene.normalize cfg.nIndicators

def resetGeneMetrics (g : Gene F) : Gene F :=
  { g with
    fitness := lit 0, sharpeRatio := lit 0, winRate := lit 0, maxDrawdown := lit 0
    profitFactor := lit 0, expectancy := lit 0, tradesCount := 0, slicePassRate := lit 0
    consistency := lit 0 }

def inherit {α : Type} (a b : α) : Draw R α := do
  let fromFirst ← drawBool (lit (1 / 2) : F)
  return if fromFirst then a else b

/-- The first half of one parent's terms and the second half of the other's. -/
def crossedTerms (a b : Gene F) : List Nat × List F :=
  let splitA := a.indices.length / 2
  let splitB := b.indices.length / 2
  let indices := a.indices.take splitA ++ b.indices.drop splitB
  let weights := a.weights.take splitA ++ b.weights.drop splitB
  if indices = [] then ([a.indices.headD 0], weights ++ [a.weights.headD (lit 1)])
  else (indices, weights)

/-- `crossover`. A slice panics where the weights are too few. -/
def crossover (a b : Gene F) (generation : Nat) : Draw R (Gene F) :=
  if a.weights.length < a.indices.length / 2 ∨ b.weights.length < b.indices.length / 2 then crash
  else do
    let strategyId ← drawStrategyId (F := F) generation
    let longThreshold ← inherit (F := F) a.longThreshold b.longThreshold
    let shortThreshold ← inherit (F := F) a.shortThreshold b.shortThreshold
    let useOb ← inherit (F := F) a.useOb b.useOb
    let useFvg ← inherit (F := F) a.useFvg b.useFvg
    let useLiqSweep ← inherit (F := F) a.useLiqSweep b.useLiqSweep
    let mtfConfirmation ← inherit (F := F) a.mtfConfirmation b.mtfConfirmation
    let usePremiumDiscount ← inherit (F := F) a.usePremiumDiscount b.usePremiumDiscount
    let useInducement ← inherit (F := F) a.useInducement b.useInducement
    let useBos ← inherit (F := F) a.useBos b.useBos
    let useChoch ← inherit (F := F) a.useChoch b.useChoch
    let useEqh ← inherit (F := F) a.useEqh b.useEqh
    let useEql ← inherit (F := F) a.useEql b.useEql
    let useDisplacement ← inherit (F := F) a.useDisplacement b.useDisplacement
    -- stop and target are one trait
    let stops ← inherit (F := F) (a.slPips, a.tpPips) (b.slPips, b.tpPips)
    let stopVolMult ← inherit (F := F) a.stopVolMult b.stopVolMult
    return { resetGeneMetrics a with
      indices := (crossedTerms a b).1
      weights := (crossedTerms a b).2
      strategyId, generation, longThreshold, shortThreshold, useOb, useFvg, useLiqSweep,
      mtfConfirmation, usePremiumDiscount, useInducement, useBos, useChoch, useEqh, useEql,
      useDisplacement
      slPips := stops.1
      tpPips := stops.2
      stopVolMult }

def mutationRate (stagnantGenerations : Nat) : Nat × F :=
  if 10 < stagnantGenerations then (3, lit (3 / 2))
  else if 5 < stagnantGenerations then (2, lit (6 / 5))
  else if stagnantGenerations = 0 then (1, lit (1 / 2))
  else (1, lit 1)

/-- One indicator is exchanged or reweighted. A weight is missing where the gene is not in normal
form. -/
def tweakTerm (cfg : BreedingConfig F) (intensity : F) (g : Gene F) : Draw R (Gene F) := do
  let idx ← drawRange (F := F) g.indices.length
  let exchange ← drawBool (FloatOps.clamp (lit (3 / 5) * intensity) (lit 0) (lit 1))
  let indices ← (if exchange then do
      let indicator ← drawRange (F := F) (max cfg.nIndicators 1)
      pure (g.indices.set idx indicator)
    else pure g.indices)
  let flip ← drawBool (lit (1 / 4) : F)
  match g.weights[idx]? with
  | none => crash
  | some weight =>
    let weight ← (if flip then pure (-weight) else randomCoarseWeight)
    return { g with indices := indices, weights := g.weights.set idx weight }

def mutateTerms (cfg : BreedingConfig F) (intensity : F) (g : Gene F) : Draw R (Gene F) := do
  let tweak ←
    (if g.indices = [] then pure false
    else if lt intensity (lit 1) then pure true
    else drawBool (FloatOps.clamp (lit (1 / 2) / intensity) (lit 0) (lit 1)))
  if tweak then tweakTerm cfg intensity g
  else
    let (indices, weights) ← drawTerms cfg
    return { g with indices := indices, weights := weights }

def mutateStops (bounds : GeneStopBounds F) (intensity : F) (g : Gene F) : Draw R (Gene F) := do
  let range := lit (1 / 5) * intensity
  let factor : Draw R F := drawRangeF (lit 1 - range) (lit 1 + range)
  if lt (lit 0) g.stopVolMult then
    let multiplier ← factor
    let stopVolMult := FloatOps.clamp (g.stopVolMult * multiplier) (lit (3 / 10)) (lit 4)
    let stop ← (if FloatOps.isPositive g.slPips then
        drawClamp g.slPips bounds.slMinPips bounds.slMaxPips
      else do
        let middle ← bounds.midPair
        pure middle.1)
    let current := effectiveAdaptiveRewardRisk g.slPips g.tpPips
      (lit (1 / 2) * (bounds.rrMin + bounds.rrMax))
    let change ← factor
    let rewardRisk ← drawClamp (current * change) bounds.rrMin bounds.rrMax
    return { g with stopVolMult := stopVolMult, slPips := stop, tpPips := stop * rewardRisk }
  else
    let tpChange ← factor
    let tpPips ← drawClamp (g.tpPips * tpChange) bounds.tpMinPips bounds.tpMaxPips
    let slChange ← factor
    let slPips ← drawClamp (g.slPips * slChange) bounds.slMinPips bounds.slMaxPips
    return { g with tpPips := tpPips, slPips := slPips }

def mutateOnce (cfg : BreedingConfig F) (intensity : F) (g : Gene F) : Draw R (Gene F) := do
  match ← drawRange (F := F) 4 with
  | 0 => mutateTerms cfg intensity g
  | 1 =>
    let longThreshold ← randomCoarseThreshold cfg
    let threshold ← randomCoarseThreshold cfg
    return { g with longThreshold := longThreshold, shortThreshold := -threshold }
  | 2 => mutateStops cfg.bounds intensity g
  | _ =>
    let flags ← (if le (lit 1) intensity then pure true else drawBool (lit (3 / 10) : F))
    if flags then randomizeSmcFlags g cfg.smc else return g

def mutate (cfg : BreedingConfig F) (g : Gene F) (generation stagnantGenerations : Nat) :
    Draw R (Gene F) := do
  let rate := mutationRate stagnantGenerations
  let g ← repeatM (mutateOnce cfg rate.2) rate.1 g
  let enforce ← drawBool (lit (1 / 4) * rate.2)
  let g ← (if enforce then enforceMinStructuralSmcFlags g cfg.smc else pure g)
  let strategyId ← drawStrategyId (F := F) generation
  return (resetGeneMetrics { g with strategyId := strategyId, generation := generation }).normalize
    cfg.nIndicators

end Genes

section Form

variable {F : Type}

/-- What `WellFormed` reads of a gene. -/
def form (g : Gene F) : List Nat × List F × F × F × F × F × F :=
  (g.indices, g.weights, g.longThreshold, g.shortThreshold, g.tpPips, g.slPips, g.stopVolMult)

theorem form_raiseFlag (g : Gene F) (k : Nat) : form (raiseFlag g k) = form g := by
  unfold raiseFlag
  split <;> rfl

def Paired (g : Gene F) : Prop :=
  g.indices.length = g.weights.length

theorem Paired.of_form {g g' : Gene F} (h : Paired g) (hform : form g' = form g) : Paired g' := by
  unfold form at hform
  simp only [Prod.mk.injEq] at hform
  obtain ⟨hindices, hweights, -⟩ := hform
  unfold Paired
  rw [hindices, hweights]
  exact h

end Form

section Exact

variable {R : Type} {cfg : BreedingConfig ℚ}

theorem WellFormed.of_form {n : Nat} {g g' : Gene ℚ} (h : g.WellFormed n)
    (hform : form g' = form g) : g'.WellFormed n := by
  unfold form at hform
  simp only [Prod.mk.injEq] at hform
  obtain ⟨hindices, hweights, hlong, hshort, htp, hsl, hmult⟩ := hform
  constructor
  case terms => exact hindices ▸ hweights ▸ h.terms
  case nonempty => exact hindices ▸ h.nonempty
  case sorted => exact hindices ▸ h.sorted
  case inRange => exact hindices ▸ h.inRange
  case weights => exact hweights ▸ h.weights
  case thresholds => exact hlong ▸ hshort ▸ h.thresholds
  case target => exact htp ▸ h.target
  case stop => exact hsl ▸ h.stop
  case multiplier => exact hmult ▸ h.multiplier

/-- A band that `clamp` and `random_range` take. -/
structure GeneStopBounds.Ordered (bounds : GeneStopBounds ℚ) : Prop where
  stop : bounds.slMinPips ≤ bounds.slMaxPips
  target : bounds.tpMinPips ≤ bounds.tpMaxPips
  ratio : bounds.rrMin ≤ bounds.rrMax

def SmcSearchConfig.probabilities (cfg : SmcSearchConfig ℚ) : List ℚ :=
  [cfg.pOb, cfg.pFvg, cfg.pLiq, cfg.pPremium, cfg.pInducement, cfg.pMtf, cfg.pBos, cfg.pChoch,
    cfg.pEqh, cfg.pEql, cfg.pDisplacement]

/-- What the repairs of the settings give the draws. -/
structure BreedingConfig.Usable (cfg : BreedingConfig ℚ) : Prop where
  bounds : cfg.bounds.Ordered
  flags : ∀ p ∈ cfg.smc.probabilities, 0 ≤ p ∧ p ≤ 1

theorem clamp_mem (x : ℚ) {lower upper : ℚ} (h : lower ≤ upper) :
    lower ≤ FloatOps.clamp x lower upper ∧ FloatOps.clamp x lower upper ≤ upper := by
  unfold FloatOps.clamp
  simp only [lt_rat, decide_eq_true_eq]
  split
  next => exact ⟨le_rfl, h⟩
  next hlow =>
    split
    next => exact ⟨h, le_rfl⟩
    next hhigh => exact ⟨not_lt.mp hlow, not_lt.mp hhigh⟩

theorem clamp_share (p : ℚ) :
    0 ≤ FloatOps.clamp p (lit 0) (lit 1) ∧ FloatOps.clamp p (lit 0) (lit 1) ≤ 1 :=
  clamp_mem p zero_le_one

theorem probabilities_fromSettings (c : SmcSearchConfig ℚ) (forceEnabled : Bool) :
    ∀ p ∈ (c.fromSettings forceEnabled).probabilities, 0 ≤ p ∧ p ≤ 1 := by
  have hmap : (c.fromSettings forceEnabled).probabilities =
      c.probabilities.map fun p => FloatOps.clamp p (lit 0) (lit 1) := rfl
  rw [hmap]
  intro p hp
  obtain ⟨q, -, rfl⟩ := List.mem_map.mp hp
  exact clamp_share q

theorem pos_pos {value fallback : ℚ} (h : 0 < fallback) :
    0 < GeneStopBoundsOverrides.pos value fallback := by
  unfold GeneStopBoundsOverrides.pos
  split
  next hvalue => exact (isPositive_rat value).mp hvalue
  next => exact h

/-- However the settings are written and whatever scale is installed, the band is in order. -/
theorem currentGeneStopBounds_ordered (c : GeneStopBoundsOverrides ℚ) (installed : Option ℚ) :
    (currentGeneStopBounds c.fromSettings installed).Ordered := by
  have hratio : c.fromSettings.rrMin ≤ c.fromSettings.rrMax := le_max_right _ _
  have hratioPos : 0 < c.fromSettings.rrMin := pos_pos (by norm_num [GeneStopBoundsOverrides.default])
  unfold currentGeneStopBounds
  split
  next atrPips _ =>
    obtain ⟨slMin, hslMin⟩ : ∃ slMin, FloatOps.max (c.fromSettings.slMinAtr * atrPips)
        (lit (1 / 1000000)) = slMin := ⟨_, rfl⟩
    obtain ⟨slMax, hslMax⟩ : ∃ slMax, FloatOps.max (c.fromSettings.slMaxAtr * atrPips) slMin =
        slMax := ⟨_, rfl⟩
    have hpos : 0 < slMin := by
      rw [← hslMin]
      exact lt_of_lt_of_le (by norm_num) (le_max_right _ _)
    have hstop : slMin ≤ slMax := hslMax ▸ le_max_right _ _
    simp only [hslMin, hslMax]
    exact ⟨hstop, mul_le_mul hstop hratio hratioPos.le (hpos.le.trans hstop), hratio⟩
  next => exact ⟨le_max_right _ _, le_max_right _ _, hratio⟩

theorem drawClamp_mem (x : ℚ) {lower upper : ℚ} (h : lower ≤ upper) :
    Always (drawClamp x lower upper : Draw R ℚ) fun y => lower ≤ y ∧ y ≤ upper := by
  have hle : le lower upper = true := decide_eq_true h
  unfold drawClamp
  rw [if_pos hle]
  exact .pure (clamp_mem x h)

theorem drawClamp_le (x : ℚ) {lower upper : ℚ} (h : lower ≤ upper) :
    Always (drawClamp x lower upper : Draw R ℚ) fun _ => True :=
  .imp (drawClamp_mem x h) fun _ _ => trivial

theorem midPair_always {bounds : GeneStopBounds ℚ} (h : bounds.Ordered) :
    Always (bounds.midPair : Draw R (ℚ × ℚ)) fun _ => True :=
  .bind (drawClamp_le _ h.target) fun _ _ => .pure trivial

variable [SearchRng R ℚ]

theorem drawBool_share {p : ℚ} (h : 0 ≤ p ∧ p ≤ 1) :
    Always (drawBool p : Draw R Bool) fun _ => True :=
  drawBool_always (decide_eq_true h.1) (decide_eq_true h.2)

theorem drawInclusive_le {lower upper : ℚ} (h : lower ≤ upper) :
    Always (drawInclusive lower upper : Draw R ℚ) fun _ => True :=
  drawInclusive_always (decide_eq_true h)

theorem randomizeSmcFlags_always (g : Gene ℚ) {smc : SmcSearchConfig ℚ}
    (h : ∀ p ∈ smc.probabilities, 0 ≤ p ∧ p ≤ 1) :
    Always (randomizeSmcFlags g smc : Draw R (Gene ℚ)) fun g' => form g' = form g := by
  simp only [SmcSearchConfig.probabilities, List.forall_mem_cons] at h
  obtain ⟨hOb, hFvg, hLiq, hPremium, hInducement, hMtf, hBos, hChoch, hEqh, hEql, hDisplacement,
    -⟩ := h
  exact .bind (drawBool_share hOb) fun _ _ => .bind (drawBool_share hFvg) fun _ _ =>
    .bind (drawBool_share hLiq) fun _ _ => .bind (drawBool_share hPremium) fun _ _ =>
    .bind (drawBool_share hInducement) fun _ _ => .bind (drawBool_share hMtf) fun _ _ =>
    .bind (drawBool_share hBos) fun _ _ => .bind (drawBool_share hChoch) fun _ _ =>
    .bind (drawBool_share hEqh) fun _ _ => .bind (drawBool_share hEql) fun _ _ =>
    .bind (drawBool_share hDisplacement) fun _ _ => .pure rfl

theorem form_repeatM_raiseTurn (m : Nat) (g : Gene ℚ) (rng : R) :
    form (repeatM raiseTurn m g rng).1 = form g := by
  induction m generalizing g rng with
  | zero => rfl
  | succ m ih =>
    have hrest := ih (raiseFlag g (SearchRng.range (F := ℚ) 10 rng).1)
      (SearchRng.range (F := ℚ) 10 rng).2
    exact hrest.trans (form_raiseFlag g _)

theorem raiseFlags_always (g : Gene ℚ) {need : Nat} (hneed : need ≤ 10) :
    Always (ofStream (raiseFlags g need) : Draw R (Gene ℚ)) fun g' =>
      form g' = form g ∧ need ≤ smcStructuralFlagCount g' := by
  refine .ofStream fun rng => ⟨form_repeatM_raiseTurn _ g rng, ?_⟩
  have hends := Nat.find_spec (raiseFlags_ends (Nat.min_le_right need 10) g rng)
  exact (Nat.min_eq_left hneed).symm.trans_le hends

/-- Enough flags are raised, and nothing else of the gene's form changes. -/
theorem enforceMinStructuralSmcFlags_always (g : Gene ℚ) {smc : SmcSearchConfig ℚ}
    (h : ∀ p ∈ smc.probabilities, 0 ≤ p ∧ p ≤ 1) :
    Always (enforceMinStructuralSmcFlags g smc : Draw R (Gene ℚ)) fun g' =>
      form g' = form g ∧ min smc.minFlags 10 ≤ smcStructuralFlagCount g' := by
  have hmtf : 0 ≤ smc.pMtf ∧ smc.pMtf ≤ 1 := h _ (by simp [SmcSearchConfig.probabilities])
  have hconfirm : 0 ≤ FloatOps.max smc.pMtf (lit (1 / 2)) ∧
      FloatOps.max smc.pMtf (lit (1 / 2)) ≤ 1 :=
    ⟨hmtf.1.trans (le_max_left _ _), max_le hmtf.2 (by norm_num)⟩
  unfold enforceMinStructuralSmcFlags
  refine .ite (fun hnone => .pure ⟨rfl, hnone ▸ Nat.zero_le _⟩) fun _ => ?_
  refine .bind (raiseFlags_always g (Nat.min_le_right _ _)) fun raised hraised => ?_
  refine .ite (fun _ => .pure hraised) fun _ => ?_
  refine .bind (drawBool_share hconfirm) fun confirm _ => .pure ?_
  split
  next => exact hraised
  next => exact hraised

theorem randomCoarseWeight_always : Always (randomCoarseWeight : Draw R ℚ) fun _ => True :=
  .bind (drawRange_lt (by decide)) fun _ hlevel =>
    .bind (P := fun _ => True) (.indexed hlevel fun _ _ => trivial) fun _ _ =>
      .bind (drawBool_share (by norm_num)) fun _ _ => .pure trivial

/-- The terms of a random gene: different indicators of the table, with a weight each. -/
theorem drawTerms_always (cfg : BreedingConfig ℚ) :
    Always (drawTerms cfg : Draw R (List Nat × List ℚ)) fun terms =>
      terms.1.length = terms.2.length := by
  unfold drawTerms
  refine .bind (drawRange_lt (by omega)) fun offset hoffset => ?_
  refine .bind (drawSample_spec (by omega)) fun indices hindices => ?_
  refine .bind (.mapM fun _ _ => randomCoarseWeight_always) fun weights hweights => .pure ?_
  exact hindices.1.trans (hweights.1.trans List.length_range).symm

theorem randomCoarseThreshold_always (cfg : BreedingConfig ℚ) :
    Always (randomCoarseThreshold cfg : Draw R ℚ) fun _ => True :=
  .bind (drawRange_lt (by decide)) fun _ hlevel =>
    .indexed (by rwa [Vector.length_toList]) fun _ _ => trivial

theorem drawStrategyId_always (generation : Nat) :
    Always (drawStrategyId (F := ℚ) generation : Draw R String) fun _ => True :=
  .bind (drawRange_lt (by decide)) fun _ _ => .pure trivial

theorem drawStops_always {bounds : GeneStopBounds ℚ} (h : bounds.Ordered) :
    Always (drawStops bounds : Draw R (ℚ × ℚ)) fun _ => True := by
  unfold drawStops
  refine .bind (drawBool_share (by norm_num)) fun middle _ => ?_
  refine .ite (fun _ => midPair_always h) fun _ => ?_
  exact .bind (drawInclusive_le h.stop) fun _ _ => .bind (drawInclusive_le h.ratio) fun _ _ =>
    .bind (drawClamp_le _ h.target) fun _ _ => .pure trivial

/-- A random gene is well formed and carries the flags that the settings ask for. -/
theorem newRandomGene_always (h : cfg.Usable) (generation : Nat) :
    Always (newRandomGene cfg generation : Draw R (Gene ℚ)) fun g =>
      g.WellFormed (max cfg.nIndicators 1) ∧ min cfg.smc.minFlags 10 ≤ smcStructuralFlagCount g := by
  have hmult : Always (if adaptiveStopsEnabled then drawInclusive (lit (1 / 2)) (lit 3 : ℚ)
      else Pure.pure (lit 0) : Draw R ℚ) fun _ => True :=
    .ite (fun _ => drawInclusive_le (by norm_num)) fun _ => .pure trivial
  unfold newRandomGene
  refine .bind (drawTerms_always cfg) fun terms _ => ?_
  refine .bind (randomCoarseThreshold_always cfg) fun longThreshold _ => ?_
  refine .bind (randomCoarseThreshold_always cfg) fun threshold _ => ?_
  refine .bind (drawStops_always h.bounds) fun stops _ => ?_
  refine .bind hmult fun stopVolMult _ => ?_
  refine .bind (drawStrategyId_always generation) fun strategyId _ => ?_
  refine .bind (randomizeSmcFlags_always _ h.flags) fun randomized _ => ?_
  refine .bind (enforceMinStructuralSmcFlags_always randomized h.flags) fun g hg => .pure ?_
  exact ⟨g.normalize_wellFormed cfg.nIndicators, hg.2⟩

theorem crossedTerms_paired {a b : Gene ℚ} (ha : Paired a) (hb : Paired b) :
    (crossedTerms a b).1.length = (crossedTerms a b).2.length := by
  have hlength : (a.indices.take (a.indices.length / 2) ++
      b.indices.drop (b.indices.length / 2)).length =
        (a.weights.take (a.indices.length / 2) ++ b.weights.drop (b.indices.length / 2)).length := by
    unfold Paired at ha hb
    rw [List.length_append, List.length_append, List.length_take, List.length_take,
      List.length_drop, List.length_drop, ← ha, ← hb]
  unfold crossedTerms
  simp only
  split
  next hnone =>
    rw [hnone] at hlength
    rw [List.length_append, ← hlength]
    rfl
  next => exact hlength

/-- The child of two genes with paired terms has paired terms. -/
theorem crossover_always {a b : Gene ℚ} (ha : Paired a) (hb : Paired b) (generation : Nat) :
    Always (crossover a b generation : Draw R (Gene ℚ)) Paired := by
  have hsplit : ¬(a.weights.length < a.indices.length / 2 ∨
      b.weights.length < b.indices.length / 2) := by
    unfold Paired at ha hb
    omega
  have hinherit {α : Type} (x y : α) : Always (inherit (F := ℚ) x y : Draw R α) fun _ => True :=
    .bind (drawBool_share (by norm_num)) fun _ _ => .pure trivial
  unfold crossover
  rw [if_neg hsplit]
  -- the eleven flags, the thresholds and the exits come from either parent
  exact .bind (drawStrategyId_always generation) fun _ _ => .bind (hinherit _ _) fun _ _ =>
    .bind (hinherit _ _) fun _ _ => .bind (hinherit _ _) fun _ _ => .bind (hinherit _ _) fun _ _ =>
    .bind (hinherit _ _) fun _ _ => .bind (hinherit _ _) fun _ _ => .bind (hinherit _ _) fun _ _ =>
    .bind (hinherit _ _) fun _ _ => .bind (hinherit _ _) fun _ _ => .bind (hinherit _ _) fun _ _ =>
    .bind (hinherit _ _) fun _ _ => .bind (hinherit _ _) fun _ _ => .bind (hinherit _ _) fun _ _ =>
    .bind (hinherit _ _) fun _ _ => .bind (hinherit _ _) fun _ _ =>
    .pure (crossedTerms_paired ha hb)

theorem mutationRate_mem (stagnantGenerations : Nat) :
    1 / 2 ≤ (mutationRate stagnantGenerations : Nat × ℚ).2 ∧
      (mutationRate stagnantGenerations : Nat × ℚ).2 ≤ 3 / 2 := by
  unfold mutationRate
  split
  next => norm_num
  next =>
    split
    next => norm_num
    next => split <;> norm_num

theorem tweakTerm_always (cfg : BreedingConfig ℚ) (intensity : ℚ) {g : Gene ℚ} (h : Paired g)
    (hsome : g.indices ≠ []) : Always (tweakTerm cfg intensity g : Draw R (Gene ℚ)) Paired := by
  have hexchange (idx : Nat) (exchange : Bool) : Always (if exchange then do
      let indicator ← drawRange (F := ℚ) (max cfg.nIndicators 1)
      Pure.pure (g.indices.set idx indicator)
    else Pure.pure g.indices : Draw R (List Nat)) fun indices =>
      indices.length = g.indices.length :=
    .ite (fun _ => .bind (drawRange_lt (by omega)) fun _ _ => .pure List.length_set)
      fun _ => .pure rfl
  unfold tweakTerm
  refine .bind (drawRange_lt (List.length_pos_of_ne_nil hsome)) fun idx hidx => ?_
  refine .bind (drawBool_share (clamp_share _)) fun exchange _ => ?_
  refine .bind (hexchange idx exchange) fun indices hindices => ?_
  refine .bind (drawBool_share (by norm_num)) fun flip _ => ?_
  have hlt : idx < g.weights.length := h ▸ hidx
  rw [List.getElem?_eq_getElem hlt]
  have hweight : Always (if flip then Pure.pure (-g.weights[idx]) else randomCoarseWeight :
      Draw R ℚ) fun _ => True := .ite (fun _ => .pure trivial) fun _ => randomCoarseWeight_always
  refine .bind hweight fun weight _ => .pure ?_
  exact hindices.trans (h.trans List.length_set.symm)

theorem mutateTerms_always (cfg : BreedingConfig ℚ) (intensity : ℚ) {g : Gene ℚ} (h : Paired g) :
    Always (mutateTerms cfg intensity g : Draw R (Gene ℚ)) Paired := by
  have htweak : Always (if g.indices = [] then Pure.pure false
      else if lt intensity (lit 1) then Pure.pure true
      else drawBool (FloatOps.clamp (lit (1 / 2) / intensity) (lit 0) (lit 1)) : Draw R Bool)
      fun tweak => tweak = true → g.indices ≠ [] :=
    .ite (fun _ => .pure fun hfalse => absurd hfalse Bool.false_ne_true) fun hsome =>
      .ite (fun _ => .pure fun _ => hsome) fun _ =>
        .imp (drawBool_share (clamp_share _)) fun _ _ _ => hsome
  unfold mutateTerms
  refine .bind htweak fun tweak hsome => ?_
  refine .ite (fun hyes => tweakTerm_always cfg intensity h (hsome hyes)) fun _ => ?_
  exact .bind (drawTerms_always cfg) fun terms hterms => .pure hterms

theorem mutateStops_always {bounds : GeneStopBounds ℚ} (hbounds : bounds.Ordered) {intensity : ℚ}
    (hintensity : 0 < intensity) {g : Gene ℚ} (h : Paired g) :
    Always (mutateStops bounds intensity g : Draw R (Gene ℚ)) Paired := by
  have hfactor : Always (drawRangeF (lit 1 - lit (1 / 5) * intensity)
      (lit 1 + lit (1 / 5) * intensity) : Draw R ℚ) fun _ => True := by
    refine drawRangeF_always ?_
    simp only [lt_rat, lit_rat, decide_eq_true_eq]
    linarith
  have hstop : Always (if FloatOps.isPositive g.slPips then
        drawClamp g.slPips bounds.slMinPips bounds.slMaxPips
      else do
        let middle ← bounds.midPair
        Pure.pure middle.1 : Draw R ℚ) fun _ => True :=
    .ite (fun _ => drawClamp_le _ hbounds.stop) fun _ =>
      .bind (midPair_always hbounds) fun _ _ => .pure trivial
  unfold mutateStops
  refine .ite (fun _ => ?_) fun _ => ?_
  · exact .bind hfactor fun _ _ => .bind hstop fun _ _ => .bind hfactor fun _ _ =>
      .bind (drawClamp_le _ hbounds.ratio) fun _ _ => .pure h
  · exact .bind hfactor fun _ _ => .bind (drawClamp_le _ hbounds.target) fun _ _ =>
      .bind hfactor fun _ _ => .bind (drawClamp_le _ hbounds.stop) fun _ _ => .pure h

theorem mutateOnce_always (h : cfg.Usable) {intensity : ℚ} (hintensity : 0 < intensity)
    {g : Gene ℚ} (hg : Paired g) :
    Always (mutateOnce cfg intensity g : Draw R (Gene ℚ)) Paired := by
  have hflags : Always (if le (lit 1) intensity then Pure.pure true
      else drawBool (lit (3 / 10) : ℚ) : Draw R Bool) fun _ => True :=
    .ite (fun _ => .pure trivial) fun _ => drawBool_share (by norm_num)
  unfold mutateOnce
  refine .bind (drawRange_lt (by decide)) fun kind _ => ?_
  split
  next => exact mutateTerms_always cfg intensity hg
  next =>
    exact .bind (randomCoarseThreshold_always cfg) fun _ _ =>
      .bind (randomCoarseThreshold_always cfg) fun _ _ => .pure hg
  next => exact mutateStops_always h.bounds hintensity hg
  next =>
    refine .bind hflags fun flags _ => .ite (fun _ => ?_) fun _ => .pure hg
    exact .imp (randomizeSmcFlags_always g h.flags) fun g' hform => hg.of_form hform

/-- A mutation of a gene with paired terms gives a well-formed one. -/
theorem mutate_always (h : cfg.Usable) {g : Gene ℚ} (hg : Paired g)
    (generation stagnantGenerations : Nat) :
    Always (mutate cfg g generation stagnantGenerations : Draw R (Gene ℚ)) fun g' =>
      g'.WellFormed (max cfg.nIndicators 1) := by
  obtain ⟨hlow, hhigh⟩ := mutationRate_mem stagnantGenerations
  have hpositive : 0 < (mutationRate stagnantGenerations : Nat × ℚ).2 := by linarith
  have henforce : 0 ≤ lit (1 / 4) * (mutationRate stagnantGenerations : Nat × ℚ).2 ∧
      lit (1 / 4) * (mutationRate stagnantGenerations : Nat × ℚ).2 ≤ 1 := by
    simp only [lit_rat]
    constructor <;> linarith
  unfold mutate
  refine .bind (.repeatM (fun g' hg' => mutateOnce_always h hpositive hg') _ hg)
    fun mutated _ => ?_
  refine .bind (drawBool_share henforce) fun enforce _ => ?_
  have hflags : Always (if enforce then enforceMinStructuralSmcFlags mutated cfg.smc
      else Pure.pure mutated : Draw R (Gene ℚ)) fun _ => True :=
    .ite (fun _ => .imp (enforceMinStructuralSmcFlags_always mutated h.flags) fun _ _ => trivial)
      fun _ => .pure trivial
  refine .bind hflags fun flagged _ => .bind (drawStrategyId_always generation) fun _ _ => .pure ?_
  exact Gene.normalize_wellFormed _ cfg.nIndicators

end Exact

end Genetic

end Neoethos
