import Neoethos.FinalGate

/-! The generations of a genetic search, `evolve_search_with_generation_evaluator_v1` of
`search_engine.rs`. The evaluator, the objective, the clock and what cancels a run are the
caller's. -/

namespace Neoethos

namespace Genetic

open FloatOps (lit lt le isFinite)
open RandomDraws

structure SmcGateOverrides (F : Type) where
  start : F
  finish : F
  curve : F
  stagnationStep : F

structure SelectionPolicyOverrides (F : Type) where
  parent : ParentSelectionPolicy
  survivor : SurvivorSelectionPolicy
  immigrantRatio : F
  survivorFraction : F
  temperature : F

/-- `GeneticSearchRuntimeOverrides`, as far as the generations read it. -/
structure GeneticSearchRuntimeOverrides (F : Type) where
  noveltyWeight : F
  noveltyNeighbors : Nat
  stagnationPatience : Nat
  convergencePatience : Nat
  minImprovement : F
  tournamentSizeOverride : Option Nat
  seenRetryAttempts : Nat
  smcGate : SmcGateOverrides F
  archiveScoring : ArchiveScoringOverrides F
  archiveCapOverride : Option Nat
  selection : SelectionPolicyOverrides F

structure EvolutionSearchPolicy (F : Type) where
  survivorFraction : F
  immigrantFraction : F
  parentSelection : ParentSelectionPolicy
  survivorSelection : SurvivorSelectionPolicy
  selectionTemperature : F
  tournamentSize : Nat

structure RiskyGrowthGoal (F : Type) where
  startBalance : F
  targetBalance : F
  horizonDays : F

/-- What the wall clock says at the end of a generation. -/
structure Clock where
  overBudget : Bool
  floorReached : Bool
  flat : Bool

/-- A search and everything it is given. `signature` is `gene_signature_hash`, `objective` the
fitness that the evaluation config selects, `workers` the number of threads of the pool, and
`processRng` the generator of the process. The calls of the evaluator are numbered, and so are the
questions whether the run is cancelled. -/
structure SearchSetup (R F : Type) where
  features : FeatureNames
  population : Nat
  generations : Nat
  maxIndicators : Nat
  ladder : Vector F 6
  stopBounds : GeneStopBoundsOverrides F
  atrPips : F
  smc : SmcSearchConfig F
  forceEnabled : Bool
  overrides : GeneticSearchRuntimeOverrides F
  growthGoal : Option (RiskyGrowthGoal F)
  growthObjective : Bool
  evaluationSpanDays : F
  initialEquity : F
  signature : Gene F → UInt64
  objective : Vector F 11 → F
  evaluate : Nat → F → List (Gene F) → Except String (List (Vector F 11))
  cancelled : Nat → Bool
  clock : Nat → Clock
  workers : Nat
  processRng : Nat → R

/-- What a search carries from one generation to the next. -/
structure Search (F : Type) [FloatOps F] [FloatOps.Valued F] where
  genes : List (Gene F)
  seen : SeenSignatureMemory
  bestScoreSeen : F
  stagnantGens : Nat
  archive : GeneArchive F
  evaluationSlots : Nat

/-- A run as the evaluator sees it, and how it ended. -/
structure Run (F : Type) where
  generations : List (Evaluated F)
  replays : List (Evaluated F)
  ending : Ending F

section Policies

variable {F : Type} [FloatOps F]

def SmcGateOverrides.resolved (gate : SmcGateOverrides F) : SmcGateOverrides F :=
  { gate with
    curve := if isFinite gate.curve && le (lit (1 / 10)) gate.curve then gate.curve
      else lit (1 / 10)
    stagnationStep := if isFinite gate.stagnationStep && le (lit 0) gate.stagnationStep then
      gate.stagnationStep else lit 0 }

def SelectionPolicyOverrides.resolved (s : SelectionPolicyOverrides F) :
    SelectionPolicyOverrides F :=
  { s with
    immigrantRatio := if isFinite s.immigrantRatio then
      FloatOps.clamp s.immigrantRatio (lit 0) (lit (19 / 20)) else lit (1 / 4)
    survivorFraction := if isFinite s.survivorFraction then
      FloatOps.clamp s.survivorFraction (lit 0) (lit (19 / 20)) else lit (1 / 10)
    temperature := if isFinite s.temperature then FloatOps.max s.temperature (lit (1 / 1000))
      else lit (3 / 4) }

def EvolutionSearchPolicy.new (s : SelectionPolicyOverrides F) (tournamentSize : Nat) :
    EvolutionSearchPolicy F where
  survivorFraction := FloatOps.clamp s.survivorFraction (lit 0) (lit (19 / 20))
  immigrantFraction := FloatOps.clamp s.immigrantRatio (lit 0) (lit (19 / 20))
  parentSelection := s.parent
  survivorSelection := s.survivor
  selectionTemperature := FloatOps.max s.temperature (lit (1 / 1000))
  tournamentSize := max tournamentSize 2

namespace GeneticSearchRuntimeOverrides

variable (o : GeneticSearchRuntimeOverrides F)

def effectiveTournamentSize (population : Nat) : Nat :=
  max (o.tournamentSizeOverride.getD (max (population / 12) 3)) 2

def effectiveMinImprovement : F :=
  if isFinite o.minImprovement && le (lit 0) o.minImprovement then o.minImprovement
  else lit (1 / 1000000000000)

omit [FloatOps F] in
def effectiveArchiveCap (population generations : Nat) : Nat :=
  let derived := min (population * max generations 1 % 2 ^ 64) 50000
  min (max (o.archiveCapOverride.getD derived) population) 200000

def searchPolicy (population : Nat) : EvolutionSearchPolicy F :=
  .new o.selection.resolved (o.effectiveTournamentSize population)

end GeneticSearchRuntimeOverrides

/-- `f64::round` of a number not below zero, `as usize`. -/
def roundToUsize (x : F) : Nat :=
  let floor := FloatOps.floor x
  FloatOps.toUsize (if le (lit (1 / 2)) (x - floor) then floor + lit 1 else floor)

/-- `validate` of the growth goal. -/
def RiskyGrowthGoal.validate [FloatOps.Elementary F] (goal : RiskyGrowthGoal F) :
    Except String Unit :=
  let pace := FloatOps.Elementary.ln goal.targetBalance - FloatOps.Elementary.ln goal.startBalance
  if !isFinite goal.startBalance || le goal.startBalance (lit 0) ||
      !isFinite goal.targetBalance || le goal.targetBalance goal.startBalance ||
      !isFinite goal.horizonDays || le goal.horizonDays (lit 0) ||
      !isFinite pace || le pace (lit 0) then
    .error "growth goal requires finite positive capital/deadline and target > start"
  else .ok ()

def ranksBefore (a b : Scored F) : Bool :=
  lt b.score a.score || (!lt a.score b.score && a.idx ≤ b.idx)

variable [FloatOps.Valued F]

/-- The scores, with a share of how far a gene's indicators are from those of the others. -/
def blendNovelty (workers : Nat) (weight : F) (neighbors : Nat) (scored : List (Scored F)) :
    List (Scored F) :=
  if lt (lit 0) weight && 1 < scored.length then
    let sets : List Signature := scored.map fun s => ⟨s.gene.indices.dedup, List.nodup_dedup _⟩
    let novelty : List F := exactSparseJaccardKnnNovelty sets workers neighbors
    let finite := (scored.map Scored.score).filter isFinite
    let minFit := finite.foldl FloatOps.min (-FloatOps.negInfinity)
    let maxFit := finite.foldl FloatOps.max FloatOps.negInfinity
    let fitRange := FloatOps.max (maxFit - minFit) (lit (1 / 1000000000))
    let maxNovelty := FloatOps.max (novelty.foldl FloatOps.max (lit 0)) (lit (1 / 1000000000))
    scored.zipWith (fun s value =>
      if isFinite s.score then
        { s with score := (lit 1 - weight) * ((s.score - minFit) / fitRange) +
          weight * (value / maxNovelty) }
      else s) novelty
  else scored

end Policies

namespace SearchSetup

section Code

variable {R F : Type} [FloatOps F] (setup : SearchSetup R F)

def breeding : BreedingConfig F where
  nIndicators := setup.features.names.length
  maxIndicators := setup.maxIndicators
  ladder := setup.ladder
  bounds := currentGeneStopBounds setup.stopBounds.fromSettings
    (installGeneStopAtrScale setup.atrPips)
  smc := setup.smc.fromSettings setup.forceEnabled

def policy : EvolutionSearchPolicy F :=
  setup.overrides.searchPolicy setup.population

def stagnationPatience : Nat :=
  max setup.overrides.stagnationPatience 1

def gateLow : F :=
  FloatOps.min setup.overrides.smcGate.start setup.overrides.smcGate.finish

def gateHigh : F :=
  FloatOps.max setup.overrides.smcGate.start setup.overrides.smcGate.finish

def gateThreshold [FloatOps.Elementary F] (generation stagnantGens : Nat) : Draw R F :=
  let gate := setup.overrides.smcGate.resolved
  let progress : F := FloatOps.ofInt generation /
    FloatOps.max (FloatOps.ofInt (setup.generations - 1 : Nat)) (lit 1)
  let annealed := gate.start + (gate.finish - gate.start) *
    FloatOps.Elementary.powf progress gate.curve
  let now :=
    if setup.stagnationPatience ≤ stagnantGens then
      let relaxed := annealed - gate.stagnationStep * FloatOps.ofInt stagnantGens
      let absoluteFloor := setup.gateLow - lit 1
      if lt relaxed absoluteFloor then absoluteFloor else relaxed
    else annealed
  drawClamp now setup.gateLow setup.gateHigh

/-- What a goal asks of the run that is to reach it. -/
def checkGrowthGoal [FloatOps.Elementary F] : Except String Unit :=
  match setup.growthGoal with
  | none => .ok ()
  | some goal =>
    goal.validate >>= fun _ =>
      if !setup.growthObjective then .error "goal-pace objective requires Risky growth mode"
      else if !(isFinite setup.evaluationSpanDays && lt (lit 0) setup.evaluationSpanDays &&
          isFinite setup.initialEquity && lt (lit 0) setup.initialEquity) then
        .error "goal-pace objective requires actual positive evaluation span and starting balance"
      else .ok ()

variable [FloatOps.Valued F]

def rank (genes : List (Gene F)) (metrics : List (Vector F 11)) :
    List (Scored F) :=
  let measured := genes.zipWith (applyMetrics setup.objective) metrics
  let scored := (measured.zip metrics).mapIdx fun idx (gene, m) =>
    (⟨gene.fitness, idx, gene, m⟩ : Scored F)
  (blendNovelty setup.workers setup.overrides.noveltyWeight setup.overrides.noveltyNeighbors
    scored).mergeSort ranksBefore

/-- Whether the top score got better, and since how many generations it has not. -/
def track (search : Search F) (scored : List (Scored F)) : Search F :=
  let topScore := (scored.head?.map Scored.score).getD FloatOps.negInfinity
  if lt (search.bestScoreSeen + setup.overrides.effectiveMinImprovement) topScore then
    { search with bestScoreSeen := topScore, stagnantGens := 0 }
  else { search with stagnantGens := search.stagnantGens + 1 }

omit [FloatOps.Valued F] in
def ends (generation stagnantGens : Nat) : Bool :=
  let clock := setup.clock generation
  let patience := setup.overrides.convergencePatience
  (decide (0 < patience) && clock.floorReached && (decide (patience ≤ stagnantGens) || clock.flat)) ||
    clock.overBudget || generation + 1 == setup.generations

variable [SearchRng R F]

/-- The next generation as far as it is there, with the signatures that were seen. -/
abbrev Brood (F : Type) := List (Gene F) × SeenSignatureMemory

def pushUnique (generation : Nat) (candidate : Gene F) (brood : Brood F) : Draw R (Brood F) := do
  let out ← uniqueCandidateOrRetry setup.breeding setup.signature generation
    (max setup.overrides.seenRetryAttempts 1) candidate brood.2
  return (brood.1 ++ [out.1], out.2)

def pushAll (generation : Nat) : List (Gene F) → Brood F → Draw R (Brood F)
  | [], brood => return brood
  | g :: genes, brood => do
    let brood ← setup.pushUnique generation g brood
    pushAll generation genes brood

def generateRandomGenes (count generation : Nat) : Draw R (List (Gene F)) :=
  (List.range count).mapM fun _ => newRandomGene setup.breeding generation

/-- Genes from the templates, and random ones for the room that these leave. -/
def seededGenes (seedCount count generation : Nat) : Draw R (List (Gene F)) := do
  let seeds ← seedProfessionalTemplates setup.features setup.breeding.nIndicators seedCount
  let random ← setup.generateRandomGenes (count - seeds.length) generation
  return seeds ++ random

def initialSearch (seen : SeenSignatureMemory) : Draw R (Search F) := do
  let genes ← setup.seededGenes (min (setup.population / 10) 50) setup.population 0
  let genes ← onStream (setup.processRng 0) (enforcePopulationSmcRatio setup.breeding.smc genes)
  let brood ← setup.pushAll 0 genes ([], seen)
  return ⟨brood.1, brood.2, FloatOps.negInfinity, 0,
    .new (setup.overrides.effectiveArchiveCap setup.population setup.generations), 0⟩

/-- How many of a generation survive it. `usize::clamp` panics on bounds out of order. -/
def survivorCount (stagnantGens scoredCount : Nat) : Draw R Nat :=
  let fraction := if setup.stagnationPatience ≤ stagnantGens then
      FloatOps.clamp (setup.policy.survivorFraction * lit (3 / 4)) (lit 0) (lit (1 / 2))
    else setup.policy.survivorFraction
  let count := roundToUsize (FloatOps.ofInt setup.population * fraction)
  match setup.policy.survivorSelection with
  | .generational => return 0
  | _ => if 2 ≤ scoredCount then return min (max count 2) scoredCount else crash

def geneAt (scored : List (Scored F)) (idx : Nat) : Draw R (Gene F) := do
  let s ← indexed scored idx
  return s.gene

def rescueGenes (generation : Nat) (scored : List (Scored F)) : Draw R (List (Gene F)) :=
  let zeroTrade := scored.countP fun s => s.gene.tradesCount < 1
  if scored.length < zeroTrade * 2 then
    setup.seededGenes (setup.population / 4) (setup.population / 4) generation
  else return []

def immigrantCount (stagnantGens : Nat) (taken rescued : Nat) : Nat :=
  let ratio := if setup.stagnationPatience ≤ stagnantGens then
      FloatOps.max setup.policy.immigrantFraction (lit (1 / 2))
    else setup.policy.immigrantFraction
  min (roundToUsize (FloatOps.ofInt setup.population * ratio)) (setup.population - taken - rescued)

def pushImmigrant (generation : Nat) (brood : Brood F) : Draw R (Brood F) := do
  let immigrant ← newRandomGene setup.breeding generation
  setup.pushUnique generation immigrant brood

def pushRescued (generation : Nat) : List (Gene F) → Brood F → Draw R (Brood F)
  | [], brood => return brood
  | g :: genes, brood =>
    if setup.population ≤ brood.1.length then return brood
    else do
      let brood ← setup.pushUnique generation g brood
      pushRescued generation genes brood

variable [FloatOps.Elementary F]

def drawParent (scored : List (Scored F)) : Draw R Nat :=
  selectParentIndex (scored.map Scored.score) (List.range scored.length)
    setup.policy.parentSelection setup.policy.tournamentSize setup.policy.selectionTemperature

/-- A second parent, drawn again a few times while it is the first. -/
def otherParent (scored : List (Scored F)) (first : Nat) : Nat → Nat → Draw R Nat
  | 0, second => return second
  | retries + 1, second =>
    if second = first then do
      let again ← setup.drawParent scored
      otherParent scored first retries again
    else return second

def pushChild (generation stagnantGens : Nat) (scored : List (Scored F)) (brood : Brood F) :
    Draw R (Brood F) := do
  let first ← setup.drawParent scored
  let second ← setup.drawParent scored
  let second ← setup.otherParent scored first (if 1 < scored.length then 4 else 0) second
  let a ← geneAt scored first
  let b ← geneAt scored second
  let crossed ← crossover a b generation
  let mutated ← mutate setup.breeding crossed generation stagnantGens
  setup.pushUnique generation mutated brood

def survivorGenes (scored : List (Scored F)) (count : Nat) : Draw R (List (Gene F)) := do
  let survivors ← selectSurvivorIndices (scored.map Scored.score) count
    setup.policy.survivorSelection setup.policy.selectionTemperature setup.policy.tournamentSize
  survivors.mapM (geneAt scored)

/-- The next generation: survivors, immigrants, rescued genes, and children in what room is left.
Each turn of the last loop adds one. -/
def breed (generation : Nat) (scored : List (Scored F)) (search : Search F) :
    Draw R (Search F) := do
  let count ← setup.survivorCount search.stagnantGens scored.length
  let next ← setup.survivorGenes scored count
  let rescued ← setup.rescueGenes (generation + 1) scored
  let immigrants := setup.immigrantCount search.stagnantGens next.length rescued.length
  let brood ← repeatM (setup.pushImmigrant (generation + 1)) immigrants (next, search.seen)
  let brood ← setup.pushRescued (generation + 1) rescued brood
  let brood ← repeatM (setup.pushChild (generation + 1) search.stagnantGens scored)
    (setup.population - brood.1.length) brood
  let genes ← onStream (setup.processRng (generation + 1))
    (enforcePopulationSmcRatio setup.breeding.smc brood.1)
  return { search with genes := genes, seen := brood.2 }

/-- The replay at the end, under the gate of the last generation. -/
def finalReplay (gate : F) : FinalReplay F :=
  ⟨gate, setup.objective, setup.evaluate, setup.cancelled⟩

variable [DecidableEq F]

def evolve : Nat → Nat → Search F → Draw R (Run F)
  | 0, _, _ => crash
  | remaining + 1, generation, search =>
    if setup.cancelled generation then return ⟨[], [], .cancelled⟩
    else do
      let gate ← setup.gateThreshold generation search.stagnantGens
      let call : Evaluated F := ⟨gate, search.genes⟩
      match setup.evaluate generation gate search.genes with
      | .error reason => return ⟨[call], [], .failed reason⟩
      | .ok metrics =>
        if metrics.length ≠ search.genes.length then
          return ⟨[call], [], .failed s!"generation evaluator returned {metrics.length} metric rows for {search.genes.length} candidates"⟩
        else if 2 ^ 64 ≤ search.evaluationSlots + search.genes.length then
          return ⟨[call], [], .failed "GA evaluation-slot count overflow"⟩
        else do
          let scored := setup.rank search.genes metrics
          let search := setup.track search scored
          match ← archiveGeneration setup.overrides.archiveScoring scored search.archive with
          | .error reason => return ⟨[call], [], .failed reason⟩
          | .ok archive =>
            let slots := search.evaluationSlots + search.genes.length
            if setup.ends generation search.stagnantGens then do
              let out ← (setup.finalReplay gate).finish setup.population slots (generation + 1)
                (generation + 1) archive scored
              return ⟨[call], out.1, out.2⟩
            else do
              let next ← setup.breed generation scored
                { search with archive := archive, evaluationSlots := slots }
              let rest ← evolve remaining (generation + 1) next
              return { rest with generations := call :: rest.generations }

def evolveSearch (seen : SeenSignatureMemory) : Draw R (Run F) :=
  let weight := setup.overrides.noveltyWeight
  if setup.population = 0 then return ⟨[], [], .refused "population must be > 0"⟩
  else if setup.features.names = [] then
    return ⟨[], [], .refused "resident search feature schema must not be empty"⟩
  else match setup.checkGrowthGoal with
  | .error reason => return ⟨[], [], .refused reason⟩
  | .ok _ => do
    let gate ← drawClamp setup.overrides.smcGate.start setup.gateLow setup.gateHigh
    let search ← setup.initialSearch seen
    if !(isFinite weight && le (lit 0) weight && le weight (lit 1)) then
      return ⟨[], [], .refused "novelty_weight must be finite and inside 0..=1"⟩
    else if lt (lit 0) weight && setup.overrides.noveltyNeighbors == 0 then
      return ⟨[], [], .refused
        "novelty_neighbors must be greater than zero when novelty scoring is enabled"⟩
    else if setup.generations = 0 then
      let call : Evaluated F := ⟨gate, search.genes⟩
      match setup.evaluate 0 gate search.genes with
      | .error reason => return ⟨[call], [], .failed reason⟩
      | .ok metrics =>
        if metrics.length ≠ search.genes.length then
          return ⟨[call], [],
            .failed "generation evaluator metric count differs from population"⟩
        else
          let measured := search.genes.zipWith (applyMetrics setup.objective) metrics
          return ⟨[call], [], .finished ⟨measured.zip metrics, gate⟩⟩
    else setup.evolve setup.generations 0 search

end Code

section Exact

variable {R : Type} (setup : SearchSetup R ℚ)

theorem breeding_usable : setup.breeding.Usable where
  bounds := currentGeneStopBounds_ordered setup.stopBounds _
  flags := probabilities_fromSettings setup.smc setup.forceEnabled

theorem gateLow_le (setup : SearchSetup R ℚ) : setup.gateLow ≤ setup.gateHigh :=
  (min_le_left _ _).trans (le_max_left _ _)

/-- Genes of the search: as many as these, all of them well formed. -/
def Formed (count : Nat) (genes : List (Gene ℚ)) : Prop :=
  genes.length = count ∧ ∀ g ∈ genes, g.WellFormed (max setup.breeding.nIndicators 1)

variable {setup}

theorem Formed.append {count count' : Nat} {genes genes' : List (Gene ℚ)}
    (h : setup.Formed count genes) (h' : setup.Formed count' genes') :
    setup.Formed (count + count') (genes ++ genes') :=
  ⟨by rw [List.length_append, h.1, h'.1], List.forall_mem_append.mpr ⟨h.2, h'.2⟩⟩

theorem map_zipWith_of_fst {α β γ δ : Type} {f : α → β → γ} {g : γ → δ} {g' : α → δ}
    (hfst : ∀ a b, g (f a b) = g' a) {as : List α} {bs : List β} (h : as.length ≤ bs.length) :
    (as.zipWith f bs).map g = as.map g' := by
  induction as generalizing bs with
  | nil => rfl
  | cons a as ih =>
    cases bs with
    | nil => exact absurd h (Nat.not_succ_le_zero _)
    | cons b bs =>
      rw [List.zipWith_cons_cons, List.map_cons, List.map_cons, hfst,
        ih (Nat.le_of_succ_le_succ h)]

theorem blendNovelty_genes (workers : Nat) (weight : ℚ) (neighbors : Nat)
    (scored : List (Scored ℚ)) :
    (blendNovelty workers weight neighbors scored).map Scored.gene = scored.map Scored.gene := by
  unfold blendNovelty
  split
  next =>
    refine map_zipWith_of_fst (fun s value => ?_) ?_
    · split <;> rfl
    · rw [exactSparseJaccardKnnNovelty_length, List.length_map]
  next => rfl

theorem form_applyMetrics (objective : Vector ℚ 11 → ℚ) (g : Gene ℚ) (m : Vector ℚ 11) :
    form (applyMetrics objective g m) = form g :=
  rfl

/-- The ranked generation is the evaluated one, in another order and with its metrics. -/
theorem rank_formed {genes : List (Gene ℚ)} {count : Nat} (h : setup.Formed count genes)
    {metrics : List (Vector ℚ 11)} (hmetrics : metrics.length = genes.length) :
    setup.Formed count ((setup.rank genes metrics).map Scored.gene) := by
  obtain ⟨measured, hmeasured⟩ : ∃ measured, genes.zipWith (applyMetrics setup.objective) metrics =
      measured := ⟨_, rfl⟩
  have hforms : measured.map form = genes.map form := by
    rw [← hmeasured]
    exact map_zipWith_of_fst (form_applyMetrics _) hmetrics.ge
  have hmeasures : metrics.length = measured.length := by
    rw [← hmeasured, List.length_zipWith, hmetrics, Nat.min_self]
  have hgenes : ((measured.zip metrics).mapIdx fun idx (gene, m) =>
      (⟨gene.fitness, idx, gene, m⟩ : Scored ℚ)).map Scored.gene = measured := by
    refine List.ext_getElem (by simp [hmeasures]) fun i hi hi' => ?_
    simp
  have hperm : ((setup.rank genes metrics).map Scored.gene).Perm measured := by
    unfold rank
    simp only [hmeasured]
    have hblend := blendNovelty_genes setup.workers setup.overrides.noveltyWeight
      setup.overrides.noveltyNeighbors
      ((measured.zip metrics).mapIdx fun idx (gene, m) =>
        (⟨gene.fitness, idx, gene, m⟩ : Scored ℚ))
    rw [hgenes] at hblend
    exact ((List.mergeSort_perm _ _).map _).trans (List.Perm.of_eq hblend)
  have hlength : measured.length = count := by
    have hsame := congrArg List.length hforms
    rw [List.length_map, List.length_map] at hsame
    exact hsame.trans h.1
  refine ⟨hperm.length_eq.trans hlength, fun g hg => ?_⟩
  obtain ⟨source, hsource, hform⟩ := List.mem_map.mp
    (hforms ▸ List.mem_map_of_mem (f := form) (hperm.subset hg))
  exact WellFormed.of_form (h.2 source hsource) hform.symm

variable (setup) in
theorem track_archive (search : Search ℚ) (scored : List (Scored ℚ)) :
    (setup.track search scored).archive = search.archive := by
  unfold track
  simp only
  split <;> rfl

theorem geneAt_always {scored : List (Scored ℚ)} {count : Nat}
    (h : setup.Formed count (scored.map Scored.gene)) {idx : Nat} (hidx : idx < scored.length) :
    Always (geneAt scored idx : Draw R (Gene ℚ)) fun g =>
      g.WellFormed (max setup.breeding.nIndicators 1) := by
  unfold geneAt
  exact .bind (.indexed hidx fun s hs => h.2 _ (List.mem_map_of_mem hs)) fun s hs => .pure hs

theorem survivorCount_always (stagnantGens : Nat) {scoredCount : Nat}
    (h : 2 ≤ scoredCount ∨ setup.overrides.selection.survivor = .generational) :
    Always (setup.survivorCount stagnantGens scoredCount : Draw R Nat) fun _ => True := by
  have hpolicy : setup.policy.survivorSelection = setup.overrides.selection.survivor := rfl
  unfold survivorCount
  simp only
  split
  next => exact .pure trivial
  next hother =>
    have htwo : 2 ≤ scoredCount := h.resolve_right fun hgen => hother (hpolicy.trans hgen)
    rw [if_pos htwo]
    exact .pure trivial

theorem gateThreshold_always [FloatOps.Elementary ℚ] (generation stagnantGens : Nat) :
    Always (setup.gateThreshold generation stagnantGens : Draw R ℚ) fun gate =>
      setup.gateLow ≤ gate ∧ gate ≤ setup.gateHigh :=
  drawClamp_mem _ setup.gateLow_le

variable [SearchRng R ℚ]

theorem pushUnique_always (generation : Nat) (candidate : Gene ℚ) {count : Nat} {brood : Brood ℚ}
    (h : setup.Formed count brood.1) :
    Always (setup.pushUnique generation candidate brood : Draw R (Brood ℚ)) fun out =>
      setup.Formed (count + 1) out.1 ∧
        (0 < setup.breeding.smc.minFlags → flagged brood.1 +
          (if 0 < smcStructuralFlagCount candidate then 1 else 0) ≤ flagged out.1) := by
  unfold pushUnique
  refine .bind (uniqueCandidateOrRetry_always setup.breeding_usable _ _ _ candidate brood.2)
    fun out hout => .pure ⟨h.append ⟨rfl, by simpa using hout.1⟩, fun hmin => ?_⟩
  have hsplit : flagged (brood.1 ++ [out.1]) = flagged brood.1 + flagged [out.1] :=
    List.countP_append
  rw [hsplit, flagged_cons]
  split
  next hflag =>
    rw [if_pos (hout.2 hmin hflag)]
    omega
  next => omega

theorem pushAll_always (generation : Nat) {genes : List (Gene ℚ)} {count : Nat}
    {brood : Brood ℚ} (h : setup.Formed count brood.1) :
    Always (setup.pushAll generation genes brood : Draw R (Brood ℚ)) fun out =>
      setup.Formed (count + genes.length) out.1 ∧
        (0 < setup.breeding.smc.minFlags → flagged brood.1 + flagged genes ≤ flagged out.1) := by
  induction genes generalizing count brood with
  | nil => exact .pure ⟨h, fun _ => Nat.le_refl _⟩
  | cons g genes ih =>
    unfold pushAll
    refine .bind (pushUnique_always generation g h) fun next hnext => ?_
    refine .imp (ih hnext.1) fun out hout => ⟨?_, fun hmin => ?_⟩
    · rw [List.length_cons, Nat.add_comm genes.length, ← Nat.add_assoc]
      exact hout.1
    · have hfirst := hnext.2 hmin
      have hrest := hout.2 hmin
      rw [flagged_cons]
      omega

theorem generateRandomGenes_always (count generation : Nat) :
    Always (setup.generateRandomGenes count generation : Draw R (List (Gene ℚ)))
      (setup.Formed count) := by
  unfold generateRandomGenes
  refine .imp (.mapM fun _ _ => newRandomGene_always setup.breeding_usable generation)
    fun genes hgenes => ⟨hgenes.1.trans List.length_range, fun g hg => (hgenes.2 g hg).1⟩

theorem seededGenes_always {seedCount count : Nat} (h : seedCount ≤ count) (generation : Nat) :
    Always (setup.seededGenes seedCount count generation : Draw R (List (Gene ℚ)))
      (setup.Formed count) := by
  unfold seededGenes
  refine .bind (seedProfessionalTemplates_always _ _ seedCount) fun seeds hseeds => ?_
  refine .bind (generateRandomGenes_always _ generation) fun random hrandom => .pure ?_
  have hall := (show setup.Formed seeds.length seeds from ⟨rfl, hseeds.2⟩).append hrandom
  rwa [Nat.add_sub_of_le (hseeds.1.trans h)] at hall

variable (setup) in
/-- What the genes of every evaluated generation are: as many as the population, each in the form
that the evaluator runs, and enough of them with a flag. -/
structure Populated (genes : List (Gene ℚ)) : Prop where
  formed : setup.Formed setup.population genes
  flags : 0 < setup.breeding.smc.minFlags →
    min (smcRatioTarget setup.breeding.smc setup.population) setup.population ≤ flagged genes

theorem initialSearch_always (seen : SeenSignatureMemory) :
    Always (setup.initialSearch seen : Draw R (Search ℚ)) fun search =>
      setup.Populated search.genes ∧ search.archive =
        .new (setup.overrides.effectiveArchiveCap setup.population setup.generations) := by
  unfold initialSearch
  refine .bind (seededGenes_always (by omega) 0) fun genes hgenes => ?_
  refine .bind (.onStream (enforcePopulationSmcRatio_always setup.breeding_usable.flags hgenes.2) _)
    fun enforced henforced => ?_
  obtain ⟨hlength, hformed, hflags⟩ := henforced
  rw [hgenes.1] at hlength hflags
  have hnone : setup.Formed 0 (([], seen) : Brood ℚ).1 := ⟨rfl, by simp⟩
  refine .bind (pushAll_always 0 hnone) fun brood hbrood => .pure ⟨⟨?_, ?_⟩, rfl⟩
  · have hall := hbrood.1
    rwa [Nat.zero_add, hlength] at hall
  · intro hmin
    have hcount := hbrood.2 hmin
    have hkept := hflags hmin
    change min _ _ ≤ flagged brood.1
    change flagged ([] : List (Gene ℚ)) + _ ≤ _ at hcount
    omega

theorem pushImmigrant_always (generation : Nat) {brood : Brood ℚ} {taken : Nat}
    (h : setup.Formed taken brood.1) :
    Always (setup.pushImmigrant generation brood : Draw R (Brood ℚ)) fun out =>
      setup.Formed (taken + 1) out.1 :=
  .bind (newRandomGene_always setup.breeding_usable generation) fun g _ =>
    .imp (pushUnique_always generation g h) fun _ hout => hout.1

theorem pushRescued_always (generation : Nat) {genes : List (Gene ℚ)} {brood : Brood ℚ}
    {taken : Nat} (h : setup.Formed taken brood.1) (hroom : taken ≤ setup.population) :
    Always (setup.pushRescued generation genes brood : Draw R (Brood ℚ)) fun out =>
      ∃ more ≤ setup.population, setup.Formed more out.1 := by
  induction genes generalizing taken brood with
  | nil => exact .pure ⟨taken, hroom, h⟩
  | cons g genes ih =>
    unfold pushRescued
    refine .ite (fun _ => .pure ⟨taken, hroom, h⟩) fun hmore => ?_
    rw [h.1] at hmore
    exact .bind (pushUnique_always generation g h) fun next hnext => ih hnext.1 (by omega)

theorem rescueGenes_always (generation : Nat) (scored : List (Scored ℚ)) :
    Always (setup.rescueGenes generation scored : Draw R (List (Gene ℚ))) fun _ => True := by
  unfold rescueGenes
  exact .ite (fun _ => .imp (seededGenes_always (Nat.le_refl _) generation) fun _ _ => trivial)
    fun _ => .pure trivial

variable [FloatOps.Elementary ℚ]

theorem drawParent_always {scored : List (Scored ℚ)} (h : 0 < scored.length) :
    Always (setup.drawParent scored : Draw R Nat) (· < scored.length) := by
  have hsome : List.range scored.length ≠ [] := by
    rw [Ne, List.range_eq_nil]
    omega
  have hscores : ∀ idx ∈ List.range scored.length, idx < (scored.map Scored.score).length :=
    fun idx hidx => by rwa [List.length_map, ← List.mem_range]
  exact .imp (selectParentIndex_mem _ hsome hscores _ _ _) fun idx hidx => List.mem_range.mp hidx

theorem otherParent_always {scored : List (Scored ℚ)} (h : 0 < scored.length) (first retries : Nat)
    {second : Nat} (hsecond : second < scored.length) :
    Always (setup.otherParent scored first retries second : Draw R Nat) (· < scored.length) := by
  induction retries generalizing second with
  | zero => exact .pure hsecond
  | succ retries ih =>
    unfold otherParent
    exact .ite (fun _ => .bind (drawParent_always h) fun again hagain => ih hagain)
      fun _ => .pure hsecond

theorem pushChild_always (generation stagnantGens : Nat) {scored : List (Scored ℚ)}
    {count : Nat} (hscored : setup.Formed count (scored.map Scored.gene))
    (hsome : 0 < scored.length) {brood : Brood ℚ} {taken : Nat} (h : setup.Formed taken brood.1) :
    Always (setup.pushChild generation stagnantGens scored brood : Draw R (Brood ℚ)) fun out =>
      setup.Formed (taken + 1) out.1 := by
  unfold pushChild
  refine .bind (drawParent_always hsome) fun first hfirst => ?_
  refine .bind (drawParent_always hsome) fun second hsecond => ?_
  refine .bind (otherParent_always hsome first _ hsecond) fun other hother => ?_
  refine .bind (geneAt_always hscored hfirst) fun a ha => ?_
  refine .bind (geneAt_always hscored hother) fun b hb => ?_
  refine .bind (crossover_always ha.terms hb.terms generation) fun crossed hcrossed => ?_
  refine .bind (mutate_always setup.breeding_usable hcrossed generation stagnantGens)
    fun mutated _ => ?_
  exact .imp (pushUnique_always generation mutated h) fun out hout => hout.1

theorem survivorGenes_always {scored : List (Scored ℚ)} {all : Nat}
    (hscored : setup.Formed all (scored.map Scored.gene)) (count : Nat) :
    Always (setup.survivorGenes scored count : Draw R (List (Gene ℚ))) fun next =>
      ∃ taken ≤ all, setup.Formed taken next := by
  have hlength : (scored.map Scored.score).length = all := by
    rw [List.length_map, ← hscored.1, List.length_map]
  unfold survivorGenes
  refine .bind (selectSurvivorIndices_spec _ count _ _ _) fun survivors hsurvivors => ?_
  obtain ⟨-, hbound, hcount⟩ := hsurvivors
  refine .imp (.mapM fun idx hidx => geneAt_always hscored ?_) fun next hnext => ?_
  · have hlt := hbound idx hidx
    rwa [List.length_map] at hlt
  · refine ⟨survivors.length, ?_, hnext⟩
    rw [hcount, hlength]
    split
    next => exact Nat.zero_le _
    next => exact Nat.min_le_right _ _

/-- What `clamp` and the draw of a parent ask of the size of a generation. -/
def Breedable (setup : SearchSetup R ℚ) : Prop :=
  2 ≤ setup.population ∨
    (0 < setup.population ∧ setup.overrides.selection.survivor = .generational)

/-- A generation bred from a well-formed one is as large and well formed; breeding leaves the
archive alone. -/
theorem breed_always (generation : Nat) {scored : List (Scored ℚ)}
    (hscored : setup.Formed setup.population (scored.map Scored.gene)) (search : Search ℚ)
    (h : setup.Breedable) :
    Always (setup.breed generation scored search : Draw R (Search ℚ)) fun next =>
      setup.Populated next.genes ∧ next.archive = search.archive := by
  have hlength : scored.length = setup.population := by
    rw [← hscored.1, List.length_map]
  have hsome : 0 < scored.length := by
    rcases h with htwo | ⟨hone, -⟩ <;> omega
  have hclamp : 2 ≤ scored.length ∨ setup.overrides.selection.survivor = .generational :=
    hlength ▸ h.imp_right And.right
  unfold breed
  refine .bind (survivorCount_always _ hclamp) fun count _ => ?_
  refine .bind (survivorGenes_always hscored count) fun next hnext => ?_
  obtain ⟨taken, htaken, hnext⟩ := hnext
  refine .bind (rescueGenes_always (generation + 1) scored) fun rescued _ => ?_
  obtain ⟨immigrants, himmigrants⟩ : ∃ immigrants, setup.immigrantCount search.stagnantGens
      next.length rescued.length = immigrants := ⟨_, rfl⟩
  have hroom : taken + immigrants ≤ setup.population := by
    have hfew : immigrants ≤ setup.population - next.length - rescued.length :=
      himmigrants ▸ Nat.min_le_right _ _
    rw [hnext.1] at hfew
    omega
  simp only [himmigrants]
  refine .bind (.repeatM_count (P := fun k brood => setup.Formed k brood.1)
    (fun k brood hbrood => pushImmigrant_always (generation + 1) hbrood) immigrants hnext)
    fun brood hbrood => ?_
  refine .bind (pushRescued_always (generation + 1) hbrood hroom) fun brood hbrood => ?_
  obtain ⟨more, hmore, hbrood⟩ := hbrood
  refine .bind (.repeatM_count (P := fun k brood => setup.Formed k brood.1)
    (fun k brood hbrood => pushChild_always (generation + 1) search.stagnantGens hscored hsome
      hbrood) (setup.population - brood.1.length) hbrood) fun brood' hfull => ?_
  have hpopulation : more + (setup.population - brood.1.length) = setup.population := by
    rw [hbrood.1]
    omega
  rw [hpopulation] at hfull
  refine .bind (.onStream (enforcePopulationSmcRatio_always setup.breeding_usable.flags hfull.2) _)
    fun genes hgenes => .pure ⟨⟨⟨hgenes.1.trans hfull.1, hgenes.2.1⟩, fun hmin => ?_⟩, rfl⟩
  have hflags := hgenes.2.2 hmin
  rwa [hfull.1] at hflags

variable (setup) in
structure Admissible (call : Evaluated ℚ) : Prop where
  genes : setup.Populated call.genes
  gateLow : setup.gateLow ≤ call.gate
  gateHigh : call.gate ≤ setup.gateHigh

/-- What the evaluator is asked in a run: the generations, and after the last of them the genes
that the search hands over, under the gate that generation had. -/
structure Sound (setup : SearchSetup R ℚ) (bound : Nat) (run : Run ℚ) : Prop where
  few : run.generations.length ≤ bound
  generations : ∀ call ∈ run.generations, setup.Admissible call
  replays : run.replays = [] ∨ ∃ last, run.generations.getLast? = some last ∧
    FinalReplay.Replayed (Gene.WellFormed (max setup.breeding.nIndicators 1)) setup.population
      (setup.overrides.effectiveArchiveCap setup.population setup.generations) last.gate run.replays

omit [SearchRng R ℚ] [FloatOps.Elementary ℚ] in
theorem sound_none (bound : Nat) (ending : Ending ℚ) : setup.Sound bound ⟨[], [], ending⟩ :=
  ⟨Nat.zero_le _, fun _ hcall => absurd hcall List.not_mem_nil, .inl rfl⟩

omit [SearchRng R ℚ] [FloatOps.Elementary ℚ] in
theorem sound_one {call : Evaluated ℚ} (hcall : setup.Admissible call) {bound : Nat}
    (hbound : 0 < bound) (ending : Ending ℚ) : setup.Sound bound ⟨[call], [], ending⟩ :=
  ⟨hbound, fun _ h => List.mem_singleton.mp h ▸ hcall, .inl rfl⟩

omit [SearchRng R ℚ] [FloatOps.Elementary ℚ] in
theorem Sound.cons {bound : Nat} {run : Run ℚ} (h : setup.Sound bound run) {call : Evaluated ℚ}
    (hcall : setup.Admissible call) :
    setup.Sound (bound + 1) { run with generations := call :: run.generations } := by
  refine ⟨Nat.succ_le_succ h.few, List.forall_mem_cons.mpr ⟨hcall, h.generations⟩, ?_⟩
  refine h.replays.imp id fun ⟨last, hlast, hreplays⟩ => ⟨last, ?_, hreplays⟩
  rw [List.getLast?_cons, hlast, Option.getD_some]

/-- The generations that are left never panic: the last one ends the run. -/
theorem evolve_always (h : setup.Breedable) (remaining generation : Nat) {search : Search ℚ}
    (hgenes : setup.Populated search.genes)
    (harchive : Archived (Gene.WellFormed (max setup.breeding.nIndicators 1))
      (setup.overrides.effectiveArchiveCap setup.population setup.generations) search.archive)
    (hsome : 0 < remaining) (hleft : generation + remaining = setup.generations) :
    Always (setup.evolve remaining generation search : Draw R (Run ℚ)) (setup.Sound remaining) := by
  induction remaining generalizing generation search with
  | zero => exact absurd hsome (Nat.lt_irrefl 0)
  | succ remaining ih =>
    unfold evolve
    refine .ite (fun _ => .pure (sound_none _ _)) fun _ => ?_
    refine .bind (gateThreshold_always generation search.stagnantGens) fun gate hgate => ?_
    have hcall : setup.Admissible ⟨gate, search.genes⟩ := ⟨hgenes, hgate.1, hgate.2⟩
    have hone := sound_one hcall hsome
    simp only
    cases hevaluated : setup.evaluate generation gate search.genes with
    | error reason => exact .pure (hone _)
    | ok metrics =>
      refine .ite (fun _ => .pure (hone _)) fun hmetrics => .ite (fun _ => .pure (hone _)) fun _ => ?_
      have hscored := rank_formed hgenes.formed (not_not.mp hmetrics)
      have hgenes' : ∀ s ∈ setup.rank search.genes metrics,
          s.gene.WellFormed (max setup.breeding.nIndicators 1) :=
        fun s hs => hscored.2 _ (List.mem_map_of_mem hs)
      have hkept := (setup.track_archive search (setup.rank search.genes metrics)).symm ▸ harchive
      refine .bind (archiveGeneration_always _ hgenes' hkept) fun archived harchived => ?_
      cases archived with
      | error reason => exact .pure (hone _)
      | ok archive =>
        have harchived := harchived archive rfl
        refine .ite (fun _ => ?_) fun hmore => ?_
        · refine .bind (FinalReplay.finish_always harchived hgenes' (by simpa using hscored.1) _ _ _)
            fun out hout => .pure ⟨hsome, ?_, .inr ⟨_, rfl, hout⟩⟩
          exact fun call h => List.mem_singleton.mp h ▸ hcall
        · have hlast : 0 < remaining := by
            by_contra hnone
            have hend : (generation + 1 == setup.generations) = true := by
              rw [beq_iff_eq]
              omega
            refine hmore ?_
            unfold ends
            simp only [hend, Bool.or_true]
          refine .bind (breed_always generation hscored _ h) fun next hnext => ?_
          exact .bind (ih (generation + 1) hnext.1 (hnext.2 ▸ harchived) hlast (by omega))
            fun rest hrest => .pure (hrest.cons hcall)

/-- A search of one gene that keeps survivors panics when it breeds: the clamp of their number asks
for two. -/
theorem breed_single (generation : Nat) {scored : List (Scored ℚ)} (search : Search ℚ) (rng : R)
    (hone : scored.length = 1) (hkeep : setup.overrides.selection.survivor ≠ .generational) :
    setup.breed generation scored search rng = none := by
  have hpolicy : setup.policy.survivorSelection ≠ .generational := hkeep
  have hcount : setup.survivorCount search.stagnantGens scored.length rng = none := by
    unfold survivorCount
    simp only
    split
    next htwo => omega
    next => rfl
  unfold breed
  calc _ = (setup.survivorCount search.stagnantGens scored.length rng).bind _ := rfl
    _ = none := by rw [hcount, Option.bind_none]

/-- Whatever the settings, the evaluator, the clock and the random streams are, a search never
panics. Every generation that is evaluated is whole, well formed and, where flags are asked for,
flagged, under a gate between the two that are configured; what is evaluated after the last is well
formed too, under the gate of the last and in waves no larger than a generation. -/
theorem evolveSearch_sound (setup : SearchSetup R ℚ) (seen : SeenSignatureMemory)
    (h : setup.population = 1 → setup.overrides.selection.survivor = .generational) :
    Always (setup.evolveSearch seen : Draw R (Run ℚ)) (setup.Sound (max setup.generations 1)) := by
  unfold evolveSearch
  simp only
  refine .ite (fun _ => .pure (sound_none _ _)) fun hpopulation => ?_
  refine .ite (fun _ => .pure (sound_none _ _)) fun _ => ?_
  have hbreedable : setup.Breedable := by
    by_cases hone : setup.population = 1
    · exact .inr ⟨Nat.pos_of_ne_zero hpopulation, h hone⟩
    · exact .inl (by omega)
  cases setup.checkGrowthGoal with
  | error reason => exact .pure (sound_none _ _)
  | ok _ =>
    refine .bind (drawClamp_mem _ setup.gateLow_le) fun gate hgate => ?_
    refine .bind (initialSearch_always seen) fun search hsearch => ?_
    refine .ite (fun _ => .pure (sound_none _ _)) fun _ => ?_
    refine .ite (fun _ => .pure (sound_none _ _)) fun _ => ?_
    have hpopulated : setup.Populated search.genes := hsearch.1
    have hone := sound_one (⟨hpopulated, hgate.1, hgate.2⟩ : setup.Admissible ⟨gate, search.genes⟩)
      (Nat.le_max_right setup.generations 1)
    refine .ite (fun _ => ?_) fun hsome => ?_
    · cases hevaluated : setup.evaluate 0 gate search.genes with
      | error reason => exact .pure (hone _)
      | ok metrics => exact .ite (fun _ => .pure (hone _)) fun _ => .pure (hone _)
    · rw [Nat.max_eq_left (Nat.pos_of_ne_zero hsome)]
      have harchive := archived_new (Gene.WellFormed (max setup.breeding.nIndicators 1))
        (setup.overrides.effectiveArchiveCap setup.population setup.generations)
      exact evolve_always hbreedable setup.generations 0 hpopulated (hsearch.2 ▸ harchive)
        (Nat.pos_of_ne_zero hsome) (Nat.zero_add _)

end Exact

structure CountingStream where
  drawn : Nat

instance : SearchRng CountingStream ℚ where
  range n rng := (rng.drawn % n, ⟨rng.drawn + 1⟩)
  rangeF lower _ rng := (lower, ⟨rng.drawn + 1⟩)
  rangeInclusive lower _ rng := (lower, ⟨rng.drawn + 1⟩)
  bool _ rng := (rng.drawn % 2 == 0, ⟨rng.drawn + 1⟩)
  sample _ amount rng := (List.range amount, ⟨rng.drawn + 1⟩)
  range_lt n h rng := Nat.mod_lt _ h
  sample_spec length amount h rng :=
    ⟨List.length_range, List.nodup_range, fun i hi => (List.mem_range.mp hi).trans_le h⟩
  range_fair rng n k h := by
    have hiterate : ∀ m, (fun rng : CountingStream =>
        (⟨rng.drawn + 1⟩ : CountingStream))^[m] rng = ⟨rng.drawn + m⟩ := by
      intro m
      induction m with
      | zero => rfl
      | succ m ih => rw [Function.iterate_succ_apply', ih]; rfl
    refine ⟨n - rng.drawn % n + k, ?_⟩
    change ((fun rng : CountingStream => (⟨rng.drawn + 1⟩ : CountingStream))^[
      n - rng.drawn % n + k] rng).drawn % n = k
    rw [hiterate]
    have hmod := Nat.mod_lt rng.drawn (Nat.zero_lt_of_lt h)
    have hsum : rng.drawn + (n - rng.drawn % n + k) = k + n * (rng.drawn / n + 1) := by
      have hdiv := Nat.mod_add_div rng.drawn n
      rw [Nat.mul_add, Nat.mul_one]
      omega
    change (rng.drawn + (n - rng.drawn % n + k)) % n = k
    rw [hsum, Nat.add_mul_mod_self_left, Nat.mod_eq_of_lt h]

@[reducible]
def linearFunctions : FloatOps.Elementary ℚ :=
  ⟨fun x => 1 + x, fun x => x - 1, fun x _ => x, fun x _ => x⟩

def smallSetup : SearchSetup CountingStream ℚ where
  features := ⟨["d1_ema_50", "h4_ema_21", "h1_rsi"], id⟩
  population := 12
  generations := 3
  maxIndicators := 2
  ladder := #v[1 / 10, 1 / 5, 7 / 20, 1 / 2, 7 / 10, 9 / 10]
  stopBounds := .default
  atrPips := 12
  smc := ⟨3 / 10, 1, 1 / 2, 1 / 2, 1 / 2, 1 / 2, 1 / 2, 17 / 20, 1 / 2, 1 / 2, 1 / 2, 1 / 2, 1 / 2⟩
  forceEnabled := true
  overrides := ⟨1 / 4, 3, 2, 250, 0, none, 16, ⟨3 / 4, 1 / 2, 1, 1 / 100⟩, ⟨"net", 0, 1, 0⟩, none,
    ⟨.rankWeighted, .rankWeighted, 1 / 4, 1 / 10, 3 / 4⟩⟩
  growthGoal := some ⟨100, 1000, 90⟩
  growthObjective := true
  evaluationSpanDays := 365
  initialEquity := 100
  signature g := g.tradesCount.toUInt64
  objective m := metricAt m 0
  evaluate _ _ genes := .ok (genes.map fun _ => Vector.replicate 11 1)
  cancelled _ := false
  clock _ := ⟨false, false, false⟩
  workers := 4
  processRng generation := ⟨generation⟩

theorem smallSetup_sound :
    letI := linearFunctions
    Always (smallSetup.evolveSearch (.new 100)) (smallSetup.Sound 3) :=
  letI := linearFunctions
  evolveSearch_sound smallSetup (.new 100) fun h => absurd h (by decide)

end SearchSetup

end Genetic

end Neoethos
