import Mathlib.Data.Fintype.Basic
import Mathlib.Data.Fintype.Pi
import Mathlib.Order.Basic

/-! The space of the autoresearch proposals: `space.rs`, `objective.rs` and `proposal.rs`, without
their texts. -/

namespace Neoethos

namespace Autoresearch

inductive RequiredKnob
  | streamingStartCursor
  | stampGaSeed
  | labelHorizon
  | fitnessTable
  | costEdgeScoring
  | conditioningSet
  | inMarketFitness
  | tStatObjective
  | portfolioObjective
  deriving DecidableEq

/-- What the compiled search can express, knob by knob. -/
structure Capabilities where
  available : RequiredKnob → Bool

inductive FactorId
  | population
  | generations
  | geneWidth
  | prefilterWidth
  | prefilterInsampleFrac
  | baseTimeframe
  | higherLanes
  | streamingBatches
  | workingSetCursor
  | candidateCount
  | portfolioShape
  deriving DecidableEq

inductive CursorPolicy
  | start
  | resumed
  | randomOffset
  deriving DecidableEq

def baseTimeframeLevels : List String := ["M5", "M15", "M30", "H1"]

def higherLaneLevels : List (List String) := [[], ["H1"], ["H1", "H4"], ["H1", "D1"]]

def cursorLevels : List CursorPolicy := [.start, .resumed, .randomOffset]

namespace FactorId

/-- `FactorId::ALL`. -/
def all : List FactorId :=
  [population, generations, geneWidth, prefilterWidth, prefilterInsampleFrac, baseTimeframe,
    higherLanes, streamingBatches, workingSetCursor, candidateCount, portfolioShape]

def arity : FactorId → Nat
  | population => 4
  | generations => 4
  | geneWidth => 3
  | prefilterWidth => 4
  | prefilterInsampleFrac => 3
  | baseTimeframe => baseTimeframeLevels.length
  | higherLanes => higherLaneLevels.length
  | streamingBatches => 4
  | workingSetCursor => cursorLevels.length
  | candidateCount => 3
  | portfolioShape => 3

def levelRequires (f : FactorId) (level : Nat) : Option RequiredKnob :=
  match f with
  | workingSetCursor =>
    match cursorLevels[level]? with
    | some .start | none => none
    | some _ => some .streamingStartCursor
  | _ => none

def levelAvailable (f : FactorId) (caps : Capabilities) (level : Nat) : Bool :=
  match f.levelRequires level with
  | none => true
  | some knob => caps.available knob

theorem mem_all (f : FactorId) : f ∈ all := by
  cases f <;> simp [all]

instance : Fintype FactorId := Fintype.ofList all mem_all

theorem zero_available (f : FactorId) (caps : Capabilities) :
    0 < f.arity ∧ f.levelAvailable caps 0 = true := by
  cases f <;> exact ⟨by decide, rfl⟩

end FactorId

inductive SpaceError
  | levelOutOfRange (factor : FactorId) (level arity : Nat)
  | levelUnavailable (factor : FactorId) (level : Nat) (knob : RequiredKnob)
  | unknownTimeframe (label : String)
  | laneHorizonConflict (lane : String) (laneBarsInBase horizonBars : Nat)
  | spaceEnumerated (slot drawn ofSearches consecutiveCollisions : Nat)
  deriving DecidableEq

structure SearchConfigDelta where
  levels : FactorId → Nat
  deriving DecidableEq

namespace SearchConfigDelta

/-- The first factor whose level the space or the build does not have. -/
def check (caps : Capabilities) (levels : FactorId → Nat) : List FactorId → Option SpaceError
  | [] => none
  | f :: rest =>
    if f.arity ≤ levels f then some (.levelOutOfRange f (levels f) f.arity)
    else match f.levelRequires (levels f) with
      | some knob =>
        if caps.available knob then check caps levels rest
        else some (.levelUnavailable f (levels f) knob)
      | none => check caps levels rest

def new (levels : FactorId → Nat) (caps : Capabilities) : Except SpaceError SearchConfigDelta :=
  match check caps levels FactorId.all with
  | some e => .error e
  | none => .ok ⟨levels⟩

def level (d : SearchConfigDelta) (f : FactorId) : Nat := d.levels f

def withLevel (d : SearchConfigDelta) (f : FactorId) (level : Nat) (caps : Capabilities) :
    Except SpaceError SearchConfigDelta :=
  new (Function.update d.levels f level) caps

def differingFactors (d other : SearchConfigDelta) : List FactorId :=
  FactorId.all.filter fun f => d.levels f ≠ other.levels f

def baseTimeframe (d : SearchConfigDelta) : String :=
  baseTimeframeLevels.getD (d.level .baseTimeframe) ""

def higherLanes (d : SearchConfigDelta) : List String :=
  higherLaneLevels.getD (d.level .higherLanes) []

/-- What `new` checks. -/
def Expressible (caps : Capabilities) (d : SearchConfigDelta) : Prop :=
  ∀ f, d.levels f < f.arity ∧ f.levelAvailable caps (d.levels f) = true

theorem check_eq_none_iff (caps : Capabilities) (levels : FactorId → Nat) (fs : List FactorId) :
    check caps levels fs = none ↔
      ∀ f ∈ fs, levels f < f.arity ∧ f.levelAvailable caps (levels f) = true := by
  induction fs with
  | nil => simp [check]
  | cons f rest ih =>
    rw [List.forall_mem_cons, ← ih, check, FactorId.levelAvailable]
    by_cases harity : f.arity ≤ levels f
    · simp [harity]
    · rw [if_neg harity]
      cases hknob : f.levelRequires (levels f) with
      | none => simp [not_le.mp harity]
      | some knob =>
        by_cases havailable : caps.available knob = true
        · simp [havailable, not_le.mp harity]
        · simp [havailable]

theorem new_of_expressible {caps : Capabilities} {levels : FactorId → Nat}
    (h : Expressible caps ⟨levels⟩) : new levels caps = .ok ⟨levels⟩ := by
  have hnone := (check_eq_none_iff caps levels FactorId.all).mpr fun f _ => h f
  simp only [new, hnone]

theorem Expressible.withLevel {caps : Capabilities} {d : SearchConfigDelta} {f : FactorId}
    {level : Nat} (h : Expressible caps d) (harity : level < f.arity)
    (havailable : f.levelAvailable caps level = true) :
    d.withLevel f level caps = .ok ⟨Function.update d.levels f level⟩ ∧
      Expressible caps ⟨Function.update d.levels f level⟩ := by
  have hupdated : Expressible caps ⟨Function.update d.levels f level⟩ := by
    intro g
    by_cases hg : g = f
    · subst hg
      simp only [Function.update_self]
      exact ⟨harity, havailable⟩
    · simp only [Function.update_of_ne hg]
      exact h g
  exact ⟨new_of_expressible hupdated, hupdated⟩

end SearchConfigDelta

/-- `CANONICAL_TIMEFRAMES`, found without regard to case. -/
def timeframeMinutes (label : String) : Option Nat :=
  ([("M1", 1), ("M3", 3), ("M5", 5), ("M15", 15), ("M30", 30), ("H1", 60), ("H4", 240),
    ("D1", 1440)].find? fun e : String × Nat => e.1.toLower = label.toLower).map (·.2)

/-- The lanes that are longer than the label horizon, in the order they are checked. -/
def laneHorizonConflict (baseTimeframe : String) (lanes : List String) (horizonBars : Nat) :
    Except SpaceError Unit :=
  match timeframeMinutes baseTimeframe with
  | none => .error (.unknownTimeframe baseTimeframe)
  | some baseMin => lanes.forM fun lane =>
    match timeframeMinutes lane with
    | none => .error (.unknownTimeframe lane)
    | some laneMin =>
      let laneBars := (laneMin + max baseMin 1 - 1) / max baseMin 1
      if horizonBars % 2 ^ 32 < laneBars then
        .error (.laneHorizonConflict lane laneBars horizonBars)
      else .ok ()

inductive ScenarioKind
  | risky
  | propFirm
  deriving DecidableEq

inductive ObjectiveVariant
  | b0ScoringTable
  | b1Selectivity
  | b2Conditional
  | b3CostElastic
  | b4LabelHorizon
  | b5TerminalWealth
  | b6MonthlyConsistency
  | b7Significance
  | b8Portfolio
  deriving DecidableEq

def b4HorizonLevels : List Nat := [35, 120, 480, 1440]

inductive VariantExclusion
  | missingKnob (knob : RequiredKnob)
  | wrongScenario (requires session : ScenarioKind)
  deriving DecidableEq

namespace ObjectiveVariant

/-- `ObjectiveVariant::ALL`. -/
def all : List ObjectiveVariant :=
  [b0ScoringTable, b1Selectivity, b2Conditional, b3CostElastic, b4LabelHorizon, b5TerminalWealth,
    b6MonthlyConsistency, b7Significance, b8Portfolio]

def index : ObjectiveVariant → Nat
  | b0ScoringTable => 0
  | b1Selectivity => 1
  | b2Conditional => 2
  | b3CostElastic => 3
  | b4LabelHorizon => 4
  | b5TerminalWealth => 5
  | b6MonthlyConsistency => 6
  | b7Significance => 7
  | b8Portfolio => 8

def scenario : ObjectiveVariant → Option ScenarioKind
  | b5TerminalWealth => some .risky
  | b6MonthlyConsistency => some .propFirm
  | _ => none

/-- `Expression::varies_the_objective`. -/
def variesTheObjective : ObjectiveVariant → Bool
  | b5TerminalWealth | b6MonthlyConsistency => false
  | _ => true

def requires : ObjectiveVariant → List RequiredKnob
  | b0ScoringTable => [.fitnessTable]
  | b2Conditional => [.conditioningSet]
  | b3CostElastic => [.costEdgeScoring]
  | b4LabelHorizon => [.labelHorizon]
  | b7Significance => [.tStatObjective]
  | b8Portfolio => [.portfolioObjective]
  | b1Selectivity | b5TerminalWealth | b6MonthlyConsistency => []

def paramCount : ObjectiveVariant → Nat
  | b0ScoringTable => 4
  | b1Selectivity => 3
  | b2Conditional => 5
  | b4LabelHorizon => b4HorizonLevels.length
  | _ => 1

def maxDrawsPerSession : ObjectiveVariant → Option Nat
  | b0ScoringTable => some 1
  | _ => none

def exclusionReason (v : ObjectiveVariant) (caps : Capabilities) (session : ScenarioKind) :
    Option VariantExclusion :=
  match v.scenario with
  | some s => if s ≠ session then some (.wrongScenario s session) else missing v.requires
  | none => missing v.requires
where
  missing : List RequiredKnob → Option VariantExclusion
    | [] => none
    | knob :: rest => if caps.available knob then missing rest else some (.missingKnob knob)

def drawable (v : ObjectiveVariant) (caps : Capabilities) (session : ScenarioKind) : Bool :=
  match v.scenario with
  | some s => s = session && v.requires.all caps.available
  | none => v.requires.all caps.available

theorem exclusionReason_eq_none {v : ObjectiveVariant} {caps : Capabilities}
    {session : ScenarioKind} (h : v.drawable caps session = true) :
    v.exclusionReason caps session = none := by
  have hmissing : ∀ knobs : List RequiredKnob, knobs.all caps.available = true →
      exclusionReason.missing caps knobs = none := by
    intro knobs
    induction knobs with
    | nil => exact fun _ => rfl
    | cons knob rest ih =>
      intro hall
      obtain ⟨hknob, hrest⟩ := Bool.and_eq_true_iff.mp (List.all_cons ▸ hall)
      rw [exclusionReason.missing, if_pos hknob, ih hrest]
  unfold drawable at h
  unfold exclusionReason
  cases hscenario : v.scenario with
  | none =>
    rw [hscenario] at h
    exact hmissing _ h
  | some s =>
    rw [hscenario] at h
    obtain ⟨hsame, hall⟩ := Bool.and_eq_true_iff.mp h
    simp only
    rw [if_neg (not_not.mpr (of_decide_eq_true hsame))]
    exact hmissing _ hall

end ObjectiveVariant

inductive RefusalDim
  | expectancySignificance
  | winRateFloor
  | payoffFloor
  | candidatePboCap
  deriving DecidableEq

namespace RefusalDim

def all : List RefusalDim :=
  [expectancySignificance, winRateFloor, payoffFloor, candidatePboCap]

def arity : RefusalDim → Nat := fun _ => 3

theorem mem_all (d : RefusalDim) : d ∈ all := by
  cases d <;> simp [all]

instance : Fintype RefusalDim := Fintype.ofList all mem_all

end RefusalDim

inductive ObjectiveError
  | refusalLevelOutOfRange (dim : RefusalDim) (level arity : Nat)
  | paramOutOfRange (variant : ObjectiveVariant) (param arity : Nat)
  | variantNotDrawable (variant : ObjectiveVariant) (reason : VariantExclusion)
  | allVariantsCapped (drawable : List ObjectiveVariant)
  deriving DecidableEq

structure RefusalLevels where
  levels : RefusalDim → Nat
  deriving DecidableEq

namespace RefusalLevels

def new (levels : RefusalDim → Nat) : Except ObjectiveError RefusalLevels :=
  match RefusalDim.all.find? fun d => d.arity ≤ levels d with
  | some d => .error (.refusalLevelOutOfRange d (levels d) d.arity)
  | none => .ok ⟨levels⟩

def permissive : RefusalLevels := ⟨fun _ => 0⟩

theorem new_of_lt {levels : RefusalDim → Nat} (h : ∀ d, levels d < d.arity) :
    new levels = .ok ⟨levels⟩ := by
  have hnone : RefusalDim.all.find? (fun d => d.arity ≤ levels d) = none := by
    rw [List.find?_eq_none]
    intro d _
    simpa using h d
  simp only [new, hnone]

end RefusalLevels

structure ObjectiveChoice where
  variant : ObjectiveVariant
  param : Nat
  refusals : RefusalLevels
  deriving DecidableEq

namespace ObjectiveChoice

def new (variant : ObjectiveVariant) (param : Nat) (refusals : RefusalLevels)
    (caps : Capabilities) (scenario : ScenarioKind) : Except ObjectiveError ObjectiveChoice :=
  match variant.exclusionReason caps scenario with
  | some reason => .error (.variantNotDrawable variant reason)
  | none =>
    if variant.paramCount ≤ param then .error (.paramOutOfRange variant param variant.paramCount)
    else .ok ⟨variant, param, refusals⟩

def labelHorizonBars (choice : ObjectiveChoice) (baselineHold : Nat) : Nat :=
  match choice.variant with
  | .b4LabelHorizon => b4HorizonLevels.getD choice.param 0
  | _ => if 0 < baselineHold then baselineHold else 35

theorem new_of_drawable {variant : ObjectiveVariant} {param : Nat} {refusals : RefusalLevels}
    {caps : Capabilities} {scenario : ScenarioKind} (hdrawable : variant.drawable caps scenario)
    (hparam : param < variant.paramCount) :
    new variant param refusals caps scenario = .ok ⟨variant, param, refusals⟩ := by
  have hnone := ObjectiveVariant.exclusionReason_eq_none hdrawable
  simp only [new, hnone, if_neg (not_le.mpr hparam)]

end ObjectiveChoice

/-- `carries_the_axis`. -/
def carriesTheAxis (variants : List ObjectiveVariant) : Bool :=
  variants.any fun v => v.variesTheObjective && v.maxDrawsPerSession.isNone

/-- `axis_b_live_check`, without the report of what is excluded. -/
def axisBLiveCheck (caps : Capabilities) (scenario : ScenarioKind) :
    Option (List ObjectiveVariant) :=
  let drawable := ObjectiveVariant.all.filter fun v => v.drawable caps scenario
  if carriesTheAxis drawable then some drawable else none

inductive ProposalOrigin
  | posterior
  | explorationFloor
  | coverageDebt
  | external (note : String)
  deriving DecidableEq

structure Proposal where
  parent : Option Nat
  axisA : SearchConfigDelta
  axisB : ObjectiveChoice
  replicateSeed : BitVec 64
  origin : ProposalOrigin
  slot : Nat
  configHash : String
  deriving DecidableEq

structure ProposalKey where
  axisA : FactorId → Nat
  variant : ObjectiveVariant
  param : Nat
  refusals : RefusalDim → Nat
  replicateSeed : BitVec 64
  deriving DecidableEq

structure CellKey where
  axisA : FactorId → Nat
  variant : ObjectiveVariant
  param : Nat
  refusals : RefusalDim → Nat
  deriving DecidableEq

def Proposal.key (p : Proposal) : ProposalKey :=
  ⟨p.axisA.levels, p.axisB.variant, p.axisB.param, p.axisB.refusals.levels, p.replicateSeed⟩

def CellKey.of (p : Proposal) : CellKey :=
  ⟨p.axisA.levels, p.axisB.variant, p.axisB.param, p.axisB.refusals.levels⟩

inductive ProposalRefused
  | space (e : SpaceError)
  | objective (e : ObjectiveError)
  | laneHorizon (detail : String)
  | payoffFloorUnreachable (detail : String)
  | invalidPayoffInputs (detail : String)
  | moneyPath (violations : List (String × String × String))
  | appliedValueMismatch (field expected actual : String)
  | duplicate (firstSeen : Nat)
  | cellReplicatesExhausted (replicates : Nat)
  deriving DecidableEq

/-- The counters of the census, without its named examples. -/
structure ProposerCensus where
  proposalsDrawn : Nat
  duplicatesRefused : Nat
  cellReplicatesExhausted : Nat
  payoffFloorUnreachable : Nat
  invalidPayoffInputs : Nat
  laneHorizonRefused : Nat
  moneyPathRefused : Nat
  appliedValueMismatch : Nat
  spaceRefused : Nat
  objectiveRefused : Nat
  trustRegionReverted : Nat
  constraintResampled : Nat
  stampCollisions : Nat
  coverageDebtForced : Nat
  uniformCollisions : Nat
  deriving DecidableEq

namespace ProposerCensus

def empty : ProposerCensus := ⟨0, 0, 0, 0, 0, 0, 0, 0, 0, 0, 0, 0, 0, 0, 0⟩

def recordRefusal (census : ProposerCensus) : ProposalRefused → ProposerCensus
  | .space _ => { census with spaceRefused := census.spaceRefused + 1 }
  | .objective _ => { census with objectiveRefused := census.objectiveRefused + 1 }
  | .laneHorizon _ => { census with laneHorizonRefused := census.laneHorizonRefused + 1 }
  | .payoffFloorUnreachable _ =>
    { census with payoffFloorUnreachable := census.payoffFloorUnreachable + 1 }
  | .invalidPayoffInputs _ =>
    { census with invalidPayoffInputs := census.invalidPayoffInputs + 1 }
  | .moneyPath _ => { census with moneyPathRefused := census.moneyPathRefused + 1 }
  | .appliedValueMismatch .. =>
    { census with appliedValueMismatch := census.appliedValueMismatch + 1 }
  | .duplicate _ => { census with duplicatesRefused := census.duplicatesRefused + 1 }
  | .cellReplicatesExhausted _ =>
    { census with cellReplicatesExhausted := census.cellReplicatesExhausted + 1 }

end ProposerCensus

/-- `proposal::build`. -/
def buildProposal (axisA : SearchConfigDelta) (variant : ObjectiveVariant) (param : Nat)
    (refusals : RefusalLevels) (replicateSeed : BitVec 64) (origin : ProposalOrigin) (slot : Nat)
    (parent : Option Nat) (caps : Capabilities) (scenario : ScenarioKind) :
    Except ProposalRefused Proposal :=
  match ObjectiveChoice.new variant param refusals caps scenario with
  | .error e => .error (.objective e)
  | .ok axisB => .ok ⟨parent, axisA, axisB, replicateSeed, origin, slot, ""⟩

end Autoresearch

end Neoethos
