import Mathlib.Data.Finset.Card
import Mathlib.Tactic.Common
import Neoethos.Breeding

/-! The candidates of a generation before they are evaluated: those that start from a template,
`seed_templates.rs`, those that were seen before, `evolution_math.rs`, and the share of them that
must carry a flag, `smc_indicators.rs`. -/

namespace Neoethos

namespace Genetic

open FloatOps (lit)
open RandomDraws

def usizeMax : Nat :=
  2 ^ 64 - 1

structure SeenSignatureMemory where
  all : Finset UInt64
  order : List UInt64
  maxEntries : Nat

namespace SeenSignatureMemory

def new (maxEntries : Nat) : SeenSignatureMemory :=
  ⟨∅, [], maxEntries⟩

def evict (maxEntries : Nat) : List UInt64 → Finset UInt64 → List UInt64 × Finset UInt64
  | [], all => ([], all)
  | old :: order, all =>
    if maxEntries < all.card then evict maxEntries order (all.erase old) else (old :: order, all)

def insertInMemory (memory : SeenSignatureMemory) (sig : UInt64) : Bool × SeenSignatureMemory :=
  if sig ∈ memory.all then (false, memory)
  else
    let order := memory.order ++ [sig]
    let all := insert sig memory.all
    if memory.maxEntries = usizeMax then (true, { memory with all := all, order := order })
    else
      let kept := evict memory.maxEntries order all
      (true, { memory with all := kept.2, order := kept.1 })

def insertAll : SeenSignatureMemory → List UInt64 → List UInt64 × SeenSignatureMemory
  | memory, [] => ([], memory)
  | memory, sig :: sigs =>
    let first := memory.insertInMemory sig
    let rest := insertAll first.2 sigs
    (if first.1 then sig :: rest.1 else rest.1, rest.2)

def window (maxEntries : Nat) (accepted : List UInt64) : List UInt64 :=
  if maxEntries = usizeMax then accepted else accepted.drop (accepted.length - maxEntries)

/-- An accepted signature comes again only after at least as many others as the memory holds. -/
def Spaced (maxEntries : Nat) (accepted : List UInt64) : Prop :=
  ∀ i j sig, accepted[i]? = some sig → accepted[j]? = some sig → i < j →
    maxEntries ≠ usizeMax ∧ maxEntries < j - i

/-- What the memory is after it accepted these signatures. -/
structure Holds (accepted : List UInt64) (memory : SeenSignatureMemory) : Prop where
  order : memory.order = window memory.maxEntries accepted
  all : memory.all = memory.order.toFinset
  nodup : memory.order.Nodup
  spaced : Spaced memory.maxEntries accepted

theorem evict_eq (maxEntries : Nat) {order : List UInt64} (h : order.Nodup) :
    evict maxEntries order order.toFinset =
      (order.drop (order.length - maxEntries), (order.drop (order.length - maxEntries)).toFinset) := by
  induction order with
  | nil => simp [evict]
  | cons old order ih =>
    obtain ⟨hnew, hrest⟩ := List.nodup_cons.mp h
    have hcard : (old :: order).toFinset.card = order.length + 1 := List.toFinset_card_of_nodup h
    unfold evict
    rw [hcard, List.length_cons]
    split
    next hfull =>
      have herase : (old :: order).toFinset.erase old = order.toFinset := by
        rw [List.toFinset_cons, Finset.erase_insert (by simpa using hnew)]
      have hdrop : order.length + 1 - maxEntries = order.length - maxEntries + 1 := by omega
      rw [herase, ih hrest, hdrop, List.drop_succ_cons]
    next hroom =>
      have hdrop : order.length + 1 - maxEntries = 0 := by omega
      rw [hdrop, List.drop_zero]

theorem window_append (maxEntries : Nat) (accepted : List UInt64) (sig : UInt64)
    (h : maxEntries ≠ usizeMax) :
    (window maxEntries accepted ++ [sig]).drop
        ((window maxEntries accepted ++ [sig]).length - maxEntries) =
      window maxEntries (accepted ++ [sig]) := by
  unfold window
  rw [if_neg h, if_neg h]
  have hsplit : accepted.drop (accepted.length - maxEntries) ++ [sig] =
      (accepted ++ [sig]).drop (accepted.length - maxEntries) :=
    (List.drop_append_of_le_length (Nat.sub_le _ _)).symm
  rw [hsplit, List.drop_drop, List.length_drop, List.length_append, List.length_singleton]
  congr 1
  omega

theorem Spaced.append {maxEntries : Nat} {accepted : List UInt64} {sig : UInt64}
    (h : Spaced maxEntries accepted) (hnew : sig ∉ window maxEntries accepted) :
    Spaced maxEntries (accepted ++ [sig]) := by
  intro i j other hi hj hless
  obtain ⟨hjlt, -⟩ := List.getElem?_eq_some_iff.mp hj
  rw [List.length_append, List.length_singleton] at hjlt
  have hi : accepted[i]? = some other := by
    rwa [List.getElem?_append_left (by omega)] at hi
  by_cases hold : j < accepted.length
  · rw [List.getElem?_append_left hold] at hj
    exact h i j other hi hj hless
  · obtain rfl : j = accepted.length := by omega
    obtain rfl : sig = other := by simpa using hj
    unfold window at hnew
    split at hnew
    next => exact absurd (List.mem_of_getElem? hi) hnew
    next hbounded =>
      refine ⟨hbounded, ?_⟩
      by_contra hnear
      refine hnew (List.mem_of_getElem? (i := i - (accepted.length - maxEntries)) ?_)
      rw [List.getElem?_drop]
      have hplace : accepted.length - maxEntries + (i - (accepted.length - maxEntries)) = i := by
        omega
      rw [hplace]
      exact hi

variable {accepted : List UInt64} {memory : SeenSignatureMemory}

theorem Holds.new (maxEntries : Nat) : Holds [] (new maxEntries) where
  order := by
    unfold window
    split
    next => rfl
    next => exact List.drop_nil.symm
  all := rfl
  nodup := List.nodup_nil
  spaced := fun _ _ _ hi => by simp at hi

theorem Holds.mem_all (h : Holds accepted memory) (sig : UInt64) :
    sig ∈ memory.all ↔ sig ∈ window memory.maxEntries accepted := by
  rw [h.all, List.mem_toFinset, h.order]

/-- A signature is refused if the window has it; otherwise it is accepted. -/
theorem Holds.insertInMemory (h : Holds accepted memory) (sig : UInt64) :
    (sig ∈ window memory.maxEntries accepted ∧ memory.insertInMemory sig = (false, memory)) ∨
      (sig ∉ window memory.maxEntries accepted ∧ (memory.insertInMemory sig).1 = true ∧
        (memory.insertInMemory sig).2.maxEntries = memory.maxEntries ∧
        Holds (accepted ++ [sig]) (memory.insertInMemory sig).2) := by
  unfold SeenSignatureMemory.insertInMemory
  split
  next hseen => exact .inl ⟨(h.mem_all sig).mp hseen, rfl⟩
  next hnew =>
    have hwindow := fun hin => hnew ((h.mem_all sig).mpr hin)
    have hspaced := h.spaced.append hwindow
    have horder : sig ∉ memory.order := fun hin => hwindow (h.order ▸ hin)
    have hnodup : (memory.order ++ [sig]).Nodup :=
      List.nodup_append.mpr ⟨h.nodup, List.nodup_singleton sig, fun a ha b hb hab =>
        horder ((List.mem_singleton.mp hb) ▸ hab ▸ ha)⟩
    have hall : insert sig memory.all = (memory.order ++ [sig]).toFinset := by
      rw [h.all, List.toFinset_append, List.toFinset_cons, List.toFinset_nil, Finset.union_comm]
      rfl
    refine .inr ⟨hwindow, ?_⟩
    split
    next hunbounded =>
      refine ⟨rfl, rfl, ?_, hall, hnodup, hspaced⟩
      have hbefore := h.order
      unfold window at hbefore ⊢
      rw [if_pos hunbounded] at hbefore ⊢
      exact congrArg (· ++ [sig]) hbefore
    next hbounded =>
      have hkept := evict_eq memory.maxEntries hnodup
      simp only [hall, hkept]
      refine ⟨trivial, trivial, ?_, rfl, hnodup.sublist (List.drop_sublist _ _), hspaced⟩
      change (memory.order ++ [sig]).drop _ = _
      rw [h.order, window_append memory.maxEntries accepted sig hbounded]

theorem Holds.insertAll (h : Holds accepted memory) (sigs : List UInt64) :
    Holds (accepted ++ (memory.insertAll sigs).1) (memory.insertAll sigs).2 ∧
      (memory.insertAll sigs).2.maxEntries = memory.maxEntries := by
  induction sigs generalizing accepted memory with
  | nil => exact ⟨(List.append_nil accepted).symm ▸ h, rfl⟩
  | cons sig sigs ih =>
    unfold SeenSignatureMemory.insertAll
    rcases h.insertInMemory sig with ⟨-, hsame⟩ | ⟨-, htrue, hmax, hnext⟩
    · simp only [hsame]
      exact ih h
    · simp only [htrue, if_true]
      obtain ⟨hall, hkept⟩ := ih hnext
      rw [List.append_assoc, List.singleton_append] at hall
      exact ⟨hall, hkept.trans hmax⟩

/-- After any signatures, those that were accepted last are the ones the memory goes by: it keeps
each of them once, refuses exactly them, and accepts a signature again only after at least as many
others as it can hold. -/
theorem remembers_window (maxEntries : Nat) (sigs : List UInt64) :
    ((new maxEntries).insertAll sigs).2.order =
        window maxEntries ((new maxEntries).insertAll sigs).1 ∧
      ((new maxEntries).insertAll sigs).2.order.Nodup ∧
      Spaced maxEntries ((new maxEntries).insertAll sigs).1 ∧
      ∀ sig, (((new maxEntries).insertAll sigs).2.insertInMemory sig).1 = false ↔
        sig ∈ window maxEntries ((new maxEntries).insertAll sigs).1 := by
  obtain ⟨hholds, hmax⟩ := (Holds.new maxEntries).insertAll sigs
  obtain ⟨outcome, houtcome⟩ : ∃ outcome, (new maxEntries).insertAll sigs = outcome := ⟨_, rfl⟩
  rw [List.nil_append, houtcome] at hholds
  rw [houtcome] at hmax ⊢
  obtain rfl : outcome.2.maxEntries = maxEntries := hmax
  refine ⟨hholds.order, hholds.nodup, hholds.spaced, fun sig => ?_⟩
  rcases hholds.insertInMemory sig with ⟨hin, hsame⟩ | ⟨hout, htrue, -⟩
  · rw [hsame]
    exact iff_of_true rfl hin
  · rw [htrue]
    exact iff_of_false (by decide) hout

end SeenSignatureMemory

section Code

variable {R F : Type} [FloatOps F] [SearchRng R F]

/-- The loop that draws other genes for one that was seen, until one is new. -/
def retryUnique (cfg : BreedingConfig F) (signature : Gene F → UInt64) (generation : Nat)
    (candidate : Gene F) : Nat → SeenSignatureMemory → Draw R (Gene F × SeenSignatureMemory)
  | 0, seen => return (candidate, seen)
  | attempts + 1, seen => do
    let drawn ← newRandomGene cfg generation
    let probe := drawn.normalize cfg.nIndicators
    let inserted := seen.insertInMemory (signature probe)
    if inserted.1 then return (probe, inserted.2)
    else retryUnique cfg signature generation candidate attempts inserted.2

def uniqueCandidateOrRetry (cfg : BreedingConfig F) (signature : Gene F → UInt64)
    (generation maxAttempts : Nat) (candidate : Gene F) (seen : SeenSignatureMemory) :
    Draw R (Gene F × SeenSignatureMemory) :=
  let candidate := candidate.normalize cfg.nIndicators
  let inserted := seen.insertInMemory (signature candidate)
  if inserted.1 then return (candidate, inserted.2)
  else retryUnique cfg signature generation candidate (max maxAttempts 1) inserted.2

/-- `(len × force_ratio).ceil()`, the genes that must carry a flag. -/
def smcRatioTarget (cfg : SmcSearchConfig F) (count : Nat) : Nat :=
  FloatOps.toUsize (-FloatOps.floor (-(FloatOps.ofInt count * cfg.forceRatio)))

/-- The loop of `enforce_population_smc_ratio`. -/
def enforceUntil (cfg : SmcSearchConfig F) (target : Nat) : Nat → List (Gene F) →
    Draw R (List (Gene F))
  | _, [] => return []
  | active, g :: genes =>
    if target ≤ active then return g :: genes
    else if 0 < smcStructuralFlagCount g then do
      let rest ← enforceUntil cfg target active genes
      return g :: rest
    else do
      let raised ← enforceMinStructuralSmcFlags g cfg
      let rest ← enforceUntil cfg target (active + 1) genes
      return raised :: rest

def flagged (genes : List (Gene F)) : Nat :=
  genes.countP fun g => 0 < smcStructuralFlagCount g

def enforcePopulationSmcRatio (cfg : SmcSearchConfig F) (genes : List (Gene F)) :
    Draw R (List (Gene F)) :=
  enforceUntil cfg (smcRatioTarget cfg genes.length) (flagged genes) genes

/-- One slot of a template: the indicator it asks for on a timeframe, and its weight. -/
structure RoleSpec (F : Type) where
  tf : String
  primary : String
  family : String
  weight : F

structure Template (F : Type) where
  name : String
  longThreshold : F
  shortThreshold : F
  roles : List (RoleSpec F)
  smcFlags : Vector Bool 11

def templates : List (Template F) :=
  [{ name := "trend_pullback"
     longThreshold := lit (1 / 5)
     shortThreshold := lit (-1 / 5)
     roles := [⟨"d1", "ema_50", "ema", lit (1 / 4)⟩,
       ⟨"h4", "ema_21", "ema", lit (1 / 5)⟩,
       ⟨"h1", "ema_50", "ema", lit (1 / 5)⟩,
       ⟨"m15", "rsi", "rsi", lit (1 / 5)⟩,
       ⟨"m5", "vwap", "ma", lit (3 / 20)⟩]
     smcFlags := #v[false, false, false, true, false, false,
       false, false, false, false, false] },
   { name := "mean_reversion"
     longThreshold := lit (1 / 4)
     shortThreshold := lit (-1 / 4)
     roles := [⟨"d1", "atr", "atr", lit (3 / 20)⟩,
       ⟨"h4", "bbands", "bollinger", lit (1 / 4)⟩,
       ⟨"h1", "rsi", "rsi", lit (1 / 4)⟩,
       ⟨"m15", "rsi", "rsi", lit (1 / 5)⟩,
       ⟨"m5", "cci", "cci", lit (3 / 20)⟩]
     smcFlags := #v[false, false, true, true, true, false,
       false, false, false, false, false] },
   { name := "breakout"
     longThreshold := lit (3 / 10)
     shortThreshold := lit (-3 / 10)
     roles := [⟨"d1", "atr", "atr", lit (-1 / 5)⟩,
       ⟨"h4", "donchian", "donchian", lit (1 / 5)⟩,
       ⟨"h1", "obv", "volume", lit (1 / 5)⟩,
       ⟨"m15", "donchian", "donchian", lit (1 / 5)⟩,
       ⟨"m5", "atr", "atr", lit (1 / 5)⟩]
     smcFlags := #v[true, false, false, true, false, false,
       true, false, false, false, true] },
   { name := "momentum"
     longThreshold := lit (1 / 5)
     shortThreshold := lit (-1 / 5)
     roles := [⟨"d1", "ema_20", "ema", lit (1 / 5)⟩,
       ⟨"h4", "macd", "macd", lit (1 / 5)⟩,
       ⟨"h1", "macd", "macd", lit (1 / 5)⟩,
       ⟨"m15", "adx", "adx", lit (1 / 5)⟩,
       ⟨"m5", "ema_8", "ema", lit (1 / 5)⟩]
     smcFlags := #v[false, false, false, true, false, false,
       true, false, false, false, false] },
   { name := "counter_trend"
     longThreshold := lit (1 / 4)
     shortThreshold := lit (-1 / 4)
     roles := [⟨"d1", "ema_200", "ema", lit (-1 / 4)⟩,
       ⟨"h4", "ema_50", "ema", lit (-1 / 5)⟩,
       ⟨"h1", "rsi", "rsi", lit (1 / 5)⟩,
       ⟨"m15", "rsi", "rsi", lit (1 / 5)⟩,
       ⟨"m5", "stoch", "stoch", lit (3 / 20)⟩]
     smcFlags := #v[false, true, false, true, false, false,
       false, true, false, false, false] }]

def variantsPerTemplate : Nat :=
  10

/-- The names of the table, and `to_lowercase`. -/
structure FeatureNames where
  names : List String
  toLowercase : String → String

def findFeature (features : FeatureNames) (tf primary : String) : Option Nat :=
  features.names.findIdx? fun name =>
    let lower := features.toLowercase name
    (tf = "" ∨ tf.toList <:+: lower.toList) ∧ primary.toList <:+: lower.toList

def resolveRole (features : FeatureNames) (role : RoleSpec F) : Option Nat :=
  (findFeature features role.tf role.primary).or (findFeature features role.tf role.family)

/-- The terms of a template's variant: the roles that are found, each indicator once. -/
def variantTerms (features : FeatureNames) (nFeatures variant : Nat) (roles : List (RoleSpec F)) :
    List (Nat × F) :=
  roles.foldl (fun terms role =>
    match resolveRole features role with
    | some idx =>
      if idx < nFeatures ∧ idx ∉ terms.map Prod.fst then
        terms ++ [(idx, role.weight * (lit (9 / 10) + FloatOps.ofInt variant * lit (1 / 50)))]
      else terms
    | none => terms) []

def buildVariant (features : FeatureNames) (nFeatures : Nat) (template : Template F)
    (variant : Nat) : Draw R (Option (Gene F)) := do
  let terms := variantTerms features nFeatures variant template.roles
  if terms.length < 2 then return none
  let scale := [lit (2 / 25), lit (3 / 20), lit (11 / 50), lit (3 / 10)].getD (variant % 4) (lit 0) /
    lit (1 / 4)
  let flip ← (if 0 < variant ∧ variant % 3 = 0 then do
      let flip ← drawRange (F := F) 11
      pure (some flip)
    else pure none)
  let flags := match flip with
    | some flip => template.smcFlags.setIfInBounds flip (!(template.smcFlags[flip]?.getD false))
    | none => template.smcFlags
  let flag (k : Nat) : Bool := flags[k]?.getD false
  let id ← drawRange (F := F) 1000000
  let gene : Gene F :=
    { indices := terms.map Prod.fst
      weights := terms.map Prod.snd
      longThreshold := template.longThreshold * scale
      shortThreshold := template.shortThreshold * scale
      fitness := lit 0, sharpeRatio := lit 0, winRate := lit 0, maxDrawdown := lit 0
      profitFactor := lit 0, expectancy := lit 0, tradesCount := 0, generation := 0
      strategyId := "seed_" ++ template.name ++ "_v" ++ toString variant ++ "_" ++ toString id
      useOb := flag 0, useFvg := flag 1, useLiqSweep := flag 2, mtfConfirmation := flag 3
      usePremiumDiscount := flag 4, useInducement := flag 5, useBos := flag 6
      useChoch := flag 7, useEqh := flag 8, useEql := flag 9, useDisplacement := flag 10
      tpPips := if variant % 2 = 0 then lit 30 else lit 50
      slPips := if variant % 2 = 0 then lit 15 else lit 20
      slicePassRate := lit 0, consistency := lit 0, stopVolMult := lit 0 }
  return some (gene.normalize (max nFeatures 1))

/-- The loops of `seed_professional_templates`, over the variants of one template after another. -/
def seedFrom (features : FeatureNames) (nFeatures : Nat) :
    List (Template F × Nat) → Nat → Draw R (List (Gene F))
  | [], _ => return []
  | _ :: _, 0 => return []
  | pair :: pairs, count + 1 => do
    let built ← buildVariant features nFeatures pair.1 pair.2
    match built with
    | some g => do
      let rest ← seedFrom features nFeatures pairs count
      return g :: rest
    | none => seedFrom features nFeatures pairs (count + 1)

def seedProfessionalTemplates (features : FeatureNames) (nFeatures count : Nat) :
    Draw R (List (Gene F)) :=
  if count = 0 ∨ nFeatures = 0 then return []
  else seedFrom features nFeatures
    (templates.flatMap fun template =>
      (List.range variantsPerTemplate).map fun variant => (template, variant)) count

end Code

section Exact

variable {R : Type} [SearchRng R ℚ] {cfg : BreedingConfig ℚ}

theorem retryUnique_always (h : cfg.Usable) (signature : Gene ℚ → UInt64) (generation : Nat)
    {candidate : Gene ℚ} (hcandidate : candidate.WellFormed (max cfg.nIndicators 1))
    (attempts : Nat) (seen : SeenSignatureMemory) :
    Always (retryUnique cfg signature generation candidate attempts seen :
      Draw R (Gene ℚ × SeenSignatureMemory)) fun out =>
        out.1.WellFormed (max cfg.nIndicators 1) ∧
          (0 < cfg.smc.minFlags → 0 < smcStructuralFlagCount candidate →
            0 < smcStructuralFlagCount out.1) := by
  induction attempts generalizing seen with
  | zero => exact .pure ⟨hcandidate, fun _ hflag => hflag⟩
  | succ attempts ih =>
    unfold retryUnique
    refine .bind (newRandomGene_always h generation) fun drawn hdrawn => ?_
    refine .ite (fun _ => .pure ⟨drawn.normalize_wellFormed cfg.nIndicators, fun hmin _ => ?_⟩)
      fun _ => ih _
    exact (show 0 < min cfg.smc.minFlags 10 by omega).trans_le hdrawn.2

/-- What comes of a candidate is well formed, and carries a flag where the candidate did. -/
theorem uniqueCandidateOrRetry_always (h : cfg.Usable) (signature : Gene ℚ → UInt64)
    (generation maxAttempts : Nat) (candidate : Gene ℚ) (seen : SeenSignatureMemory) :
    Always (uniqueCandidateOrRetry cfg signature generation maxAttempts candidate seen :
      Draw R (Gene ℚ × SeenSignatureMemory)) fun out =>
        out.1.WellFormed (max cfg.nIndicators 1) ∧
          (0 < cfg.smc.minFlags → 0 < smcStructuralFlagCount candidate →
            0 < smcStructuralFlagCount out.1) := by
  have hnormal := candidate.normalize_wellFormed cfg.nIndicators
  unfold uniqueCandidateOrRetry
  exact .ite (fun _ => .pure ⟨hnormal, fun _ hflag => hflag⟩)
    fun _ => retryUnique_always h signature generation hnormal _ _

theorem flagged_cons (g : Gene ℚ) (genes : List (Gene ℚ)) :
    flagged (g :: genes) = flagged genes + if 0 < smcStructuralFlagCount g then 1 else 0 := by
  unfold flagged
  rw [List.countP_cons]
  simp only [decide_eq_true_eq]

/-- As many genes carry a flag as are asked for, unless the list ends; their forms are kept. -/
theorem enforceUntil_always {smc : SmcSearchConfig ℚ}
    (h : ∀ p ∈ smc.probabilities, 0 ≤ p ∧ p ≤ 1) {n : Nat} (target active : Nat)
    {genes : List (Gene ℚ)} (hgenes : ∀ g ∈ genes, g.WellFormed n) :
    Always (enforceUntil smc target active genes : Draw R (List (Gene ℚ))) fun out =>
      out.length = genes.length ∧ (∀ g ∈ out, g.WellFormed n) ∧
        (0 < smc.minFlags → min (flagged genes + (target - active)) genes.length ≤ flagged out) := by
  induction genes generalizing active with
  | nil => exact .pure ⟨rfl, hgenes, fun _ => Nat.min_le_right _ _⟩
  | cons g genes ih =>
    obtain ⟨hg, hrest⟩ := List.forall_mem_cons.mp hgenes
    unfold enforceUntil
    refine .ite (fun henough => .pure ⟨rfl, hgenes, fun _ => ?_⟩) fun hmore => ?_
    · have hnone : target - active = 0 := Nat.sub_eq_zero_of_le henough
      rw [hnone, Nat.add_zero]
      exact Nat.min_le_left _ _
    refine .ite (fun hflag => ?_) fun hnoflag => ?_
    · refine .bind (ih active hrest) fun rest hout => .pure ?_
      obtain ⟨hlength, hformed, hcount⟩ := hout
      refine ⟨congrArg (· + 1) hlength, List.forall_mem_cons.mpr ⟨hg, hformed⟩, fun hmin => ?_⟩
      have hcount := hcount hmin
      rw [flagged_cons, flagged_cons, if_pos hflag, List.length_cons]
      omega
    · refine .bind (enforceMinStructuralSmcFlags_always g h) fun raised hraised => ?_
      refine .bind (ih (active + 1) hrest) fun rest hout => .pure ?_
      obtain ⟨hlength, hformed, hcount⟩ := hout
      refine ⟨congrArg (· + 1) hlength,
        List.forall_mem_cons.mpr ⟨WellFormed.of_form hg hraised.1, hformed⟩, fun hmin => ?_⟩
      have hcount := hcount hmin
      have hflag : 0 < smcStructuralFlagCount raised := by
        have henough := hraised.2
        omega
      rw [flagged_cons, flagged_cons, if_neg hnoflag, if_pos hflag, List.length_cons]
      omega

theorem enforcePopulationSmcRatio_always {smc : SmcSearchConfig ℚ}
    (h : ∀ p ∈ smc.probabilities, 0 ≤ p ∧ p ≤ 1) {n : Nat} {genes : List (Gene ℚ)}
    (hgenes : ∀ g ∈ genes, g.WellFormed n) :
    Always (enforcePopulationSmcRatio smc genes : Draw R (List (Gene ℚ))) fun out =>
      out.length = genes.length ∧ (∀ g ∈ out, g.WellFormed n) ∧
        (0 < smc.minFlags →
          min (smcRatioTarget smc genes.length) genes.length ≤ flagged out) := by
  refine .imp (enforceUntil_always h _ _ hgenes) fun out hout => ⟨hout.1, hout.2.1, fun hmin => ?_⟩
  have hcount := hout.2.2 hmin
  omega

theorem buildVariant_always (features : FeatureNames) (nFeatures : Nat) (template : Template ℚ)
    (variant : Nat) :
    Always (buildVariant features nFeatures template variant : Draw R (Option (Gene ℚ)))
      fun built => ∀ g ∈ built, g.WellFormed (max nFeatures 1) := by
  have hflip : Always (if 0 < variant ∧ variant % 3 = 0 then do
      let flip ← drawRange (F := ℚ) 11
      Pure.pure (some flip)
    else Pure.pure none : Draw R (Option Nat)) fun _ => True :=
    .ite (fun _ => .bind (drawRange_lt (by decide)) fun _ _ => .pure trivial) fun _ => .pure trivial
  unfold buildVariant
  refine .ite (fun _ => .pure (by simp)) fun _ => ?_
  refine .bind hflip fun flip _ => .bind (drawRange_lt (by decide)) fun id _ => .pure ?_
  intro g hg
  obtain rfl := Option.mem_some.mp hg
  rw [Gene.normalize_max]
  exact Gene.normalize_wellFormed _ nFeatures

theorem seedFrom_always (features : FeatureNames) (nFeatures : Nat)
    (pairs : List (Template ℚ × Nat)) (count : Nat) :
    Always (seedFrom features nFeatures pairs count : Draw R (List (Gene ℚ))) fun out =>
      out.length ≤ count ∧ ∀ g ∈ out, g.WellFormed (max nFeatures 1) := by
  induction pairs generalizing count with
  | nil => exact .pure ⟨Nat.zero_le _, by simp⟩
  | cons pair pairs ih =>
    cases count with
    | zero => exact .pure ⟨Nat.le_refl _, by simp⟩
    | succ count =>
      unfold seedFrom
      refine .bind (buildVariant_always features nFeatures pair.1 pair.2) fun built hbuilt => ?_
      cases built with
      | none => exact ih (count + 1)
      | some g =>
        refine .bind (ih count) fun rest hrest => .pure ?_
        exact ⟨Nat.succ_le_succ hrest.1, List.forall_mem_cons.mpr ⟨hbuilt g rfl, hrest.2⟩⟩

theorem seedProfessionalTemplates_always (features : FeatureNames) (nFeatures count : Nat) :
    Always (seedProfessionalTemplates features nFeatures count : Draw R (List (Gene ℚ)))
      fun out => out.length ≤ count ∧ ∀ g ∈ out, g.WellFormed (max nFeatures 1) := by
  unfold seedProfessionalTemplates
  exact .ite (fun _ => .pure ⟨Nat.zero_le _, by simp⟩) fun _ => seedFrom_always _ _ _ _

end Exact

end Genetic

end Neoethos
