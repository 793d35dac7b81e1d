import Neoethos.Fallible
import Neoethos.FloatOps
import Neoethos.SearchSpace

/-! The autoresearch proposer, `proposer.rs`: the draw of one proposal and of one sweep. -/

namespace Neoethos

namespace Autoresearch

open FloatOps (lit lt)

def sweepSearches : Nat := 100

def explorationFloor : Nat := 25

def maxDeltaFactors : Nat := 3

def bMinDraws : Nat := 3

def proposerRetries : Nat := 64

def maxReplicatesPerCell : Nat := 3

/-- The random stream of a sweep: uniform draws below a bound, and draws from a Beta. -/
class Sampler (R : Type*) (F : outParam (Type*)) where
  range : R → Nat → Nat × R
  beta : R → F → F → F × R
  range_lt : ∀ (rng : R) (n : Nat), 0 < n → (range rng n).1 < n

/-- What the posterior keeps evidence about, under the labels of the source. -/
inductive Arm
  | factor (f : FactorId) (level : Nat)
  | refusal (d : RefusalDim) (level : Nat)
  | objective (v : ObjectiveVariant)

/-- `ParentReference`. -/
structure ParentReference where
  sweep : Nat
  axisA : SearchConfigDelta

/-- What a draw reads of the session: the Beta parameters, the sweeps that covered each objective,
the parent and the hashes of earlier configurations. -/
structure SessionView (F : Type*) where
  evidence : Arm → F × F
  coverage : ObjectiveVariant → Nat
  parent : Option ParentReference
  hasConfigHash : String → Bool

structure Proposer where
  caps : Capabilities
  scenario : ScenarioKind
  sessionSeed : BitVec 64
  drawableVariants : List ObjectiveVariant
  replicates : CellKey → Nat
  keys : ProposalKey → Option Nat
  b0Drawn : Nat

/-- The records of a sweep: a draw, the intent, the outcome (`SweepCompleted`, `SweepFailed` and
`SweepAbandoned` take the open sweep alike), and those that only note the number of their sweep. -/
inductive SweepRecord
  | proposalDrawn (sweep slot : Nat) (proposal : Proposal)
  | sweepStarted (sweep : Nat)
  | sweepEnded (sweep : Nat)
  | noted (sweep : Nat)

/-- What the session folds of them, `session.rs`. -/
structure SweepFold where
  sweeps : List Nat
  openSweep : Option Nat
  proposals : Nat → Option (List Proposal)
  highestSweep : Nat

namespace SweepFold

def empty : SweepFold := ⟨[], none, fun _ => none, 0⟩

def noteSweep (session : SweepFold) (sweep : Nat) : SweepFold :=
  { session with highestSweep := max session.highestSweep sweep }

/-- A slot past the end fills the gap with copies of its proposal. -/
def putSlot (slots : List Proposal) (slot : Nat) (p : Proposal) : List Proposal :=
  (slots ++ List.replicate (slot + 1 - slots.length) p).set slot p

/-- One fold step; `none` where it bails. -/
def apply (session : SweepFold) : SweepRecord → Option SweepFold
  | .proposalDrawn sweep slot p =>
    let session := session.noteSweep sweep
    let slots := putSlot ((session.proposals sweep).getD []) slot p
    some { session with proposals := Function.update session.proposals sweep (some slots) }
  | .sweepStarted sweep =>
    if session.openSweep.isSome then none
    else some { session.noteSweep sweep with openSweep := some sweep }
  | .sweepEnded sweep =>
    if session.openSweep = some sweep then
      some { session with sweeps := session.sweeps ++ [sweep], openSweep := none }
    else none
  | .noted sweep => some (session.noteSweep sweep)

def applyAll (session : SweepFold) (records : List SweepRecord) : Option SweepFold :=
  records.foldlM apply session

def nextSweep (session : SweepFold) : Nat := session.highestSweep + 1

def started (session : SweepFold) : List Nat := session.sweeps ++ session.openSweep.toList

def remembered (session : SweepFold) : List (Nat × Proposal) :=
  session.started.flatMap fun sweep => ((session.proposals sweep).getD []).map (sweep, ·)

end SweepFold

section Sampling

variable {R F : Type*} [FloatOps F] [Sampler R F]

/-- One candidate of `argmax_sampled`, against the best so far. -/
def argmaxStep (params : Nat → F × F) (best : Nat × F × R) (l : Nat) : Nat × F × R :=
  let (theta, rng) := Sampler.beta best.2.2 (params l).1 (params l).2
  if lt best.2.1 theta then (l, theta, rng) else (best.1, best.2.1, rng)

/-- `argmax_sampled`: a Thompson step, with ties to the earlier level. -/
def argmaxSampled (rng : R) (levels : List Nat) (params : Nat → F × F) : Nat × R :=
  let out := levels.foldl (argmaxStep params) (levels.headD 0, FloatOps.negInfinity, rng)
  (out.1, out.2.2)

def drawLevel (uniform : Bool) (params : Nat → F × F) (available : List Nat) (rng : R) : Nat × R :=
  if uniform then
    let (i, rng) := Sampler.range rng available.length
    (available.getD i 0, rng)
  else argmaxSampled rng available params

def drawEach {α : Type*} [DecidableEq α] (draw : α → R → Nat × R) : List α → R → (α → Nat) × R
  | [], rng => (fun _ => 0, rng)
  | a :: rest, rng =>
    let (level, rng) := draw a rng
    let (levels, rng) := drawEach draw rest rng
    (Function.update levels a level, rng)

end Sampling

def FactorId.availableLevels (f : FactorId) (caps : Capabilities) : List Nat :=
  (List.range f.arity).filter (f.levelAvailable caps)

section TrustRegion

variable {F : Type*} [FloatOps F]

/-- How far apart the evidence puts the drawn level and that of the parent. -/
def posteriorGap (evidence : Arm → F × F) (axisA parent : SearchConfigDelta) (f : FactorId) : F :=
  let mean (level : Nat) :=
    (evidence (.factor f level)).1 / ((evidence (.factor f level)).1 +
      (evidence (.factor f level)).2)
  FloatOps.abs (mean (axisA.level f) - mean (parent.level f))

def revertFactors (caps : Capabilities) (parent : SearchConfigDelta) :
    List FactorId → SearchConfigDelta → ProposerCensus →
      Except ProposalRefused SearchConfigDelta × ProposerCensus
  | [], axisA, census => (.ok axisA, census)
  | f :: rest, axisA, census =>
    match axisA.withLevel f (parent.level f) caps with
    | .error e => (.error (.space e), census)
    | .ok axisA => revertFactors caps parent rest axisA
        { census with trustRegionReverted := census.trustRegionReverted + 1 }

/-- `apply_trust_region`: the factors that the evidence is least sure about go back first. -/
def applyTrustRegion (axisA parent : SearchConfigDelta) (caps : Capabilities)
    (evidence : Arm → F × F) (census : ProposerCensus) :
    Except ProposalRefused SearchConfigDelta × ProposerCensus :=
  let differing := axisA.differingFactors parent
  if differing.length ≤ maxDeltaFactors then (.ok axisA, census)
  else
    let sorted := differing.mergeSort fun a b =>
      !lt (posteriorGap evidence axisA parent b) (posteriorGap evidence axisA parent a)
    revertFactors caps parent (sorted.take (differing.length - maxDeltaFactors)) axisA census

end TrustRegion

namespace Proposer

def remember (me : Proposer) (p : Proposal) (sweep : Nat) : Proposer :=
  { me with
    replicates := Function.update me.replicates (CellKey.of p) (me.replicates (CellKey.of p) + 1)
    keys := Function.update me.keys p.key (some ((me.keys p.key).getD sweep))
    b0Drawn := if p.axisB.variant = .b0ScoringTable then me.b0Drawn + 1 else me.b0Drawn }

def rememberAll (me : Proposer) (drawn : List (Nat × Proposal)) : Proposer :=
  drawn.foldl (fun me (sweep, p) => me.remember p sweep) me

def blank (caps : Capabilities) (scenario : ScenarioKind) (sessionSeed : BitVec 64)
    (drawable : List ObjectiveVariant) : Proposer where
  caps := caps
  scenario := scenario
  sessionSeed := sessionSeed
  drawableVariants := drawable
  replicates _ := 0
  keys _ := none
  b0Drawn := 0

/-- `restore`: the identities of the sweeps that were started, and no other draw. -/
def restore (caps : Capabilities) (scenario : ScenarioKind) (sessionSeed : BitVec 64)
    (session : SweepFold) : Option Proposer :=
  (axisBLiveCheck caps scenario).map fun drawable =>
    (blank caps scenario sessionSeed drawable).rememberAll session.remembered

def reload (me : Proposer) (session : SweepFold) : Proposer :=
  Proposer.rememberAll { me with replicates := fun _ => 0, keys := fun _ => none, b0Drawn := 0 }
    session.remembered

variable (me : Proposer)

def horizonOf (variant : ObjectiveVariant) (param : Nat) : Except ProposalRefused Nat :=
  match ObjectiveChoice.new variant param .permissive me.caps me.scenario with
  | .error e => .error (.objective e)
  | .ok choice => .ok (choice.labelHorizonBars 0)

def fits (axisA : SearchConfigDelta) (horizon : Nat) : Bool :=
  (laneHorizonConflict axisA.baseTimeframe axisA.higherLanes horizon).isOk

def repairHorizon (axisA : SearchConfigDelta) (variant : ObjectiveVariant) :
    List Nat → Except ProposalRefused (Option Nat)
  | [] => .ok none
  | p :: rest => do
    let horizon ← me.horizonOf variant p
    if fits axisA horizon then .ok (some p) else repairHorizon axisA variant rest

def repairLanes (axisA : SearchConfigDelta) (horizon : Nat) :
    List Nat → Except ProposalRefused SearchConfigDelta
  | [] => .ok axisA
  | l :: rest =>
    match axisA.withLevel .higherLanes l me.caps with
    | .error e => .error (.space e)
    | .ok candidate => if fits candidate horizon then .ok candidate
        else repairLanes axisA horizon rest

def repair (axisA : SearchConfigDelta) (variant : ObjectiveVariant) (param horizon : Nat) :
    Except ProposalRefused (SearchConfigDelta × Nat) := do
  let raised ← if variant = .b4LabelHorizon then
      me.repairHorizon axisA variant (List.range variant.paramCount).reverse
    else .ok none
  match raised with
  | some param => .ok (axisA, param)
  | none =>
    let axisA ← me.repairLanes axisA horizon (List.range FactorId.higherLanes.arity).reverse
    .ok (axisA, param)

/-- The lane and horizon rule of `draw_one`, and whether it had to repair the draw. -/
def pairLanes (axisA : SearchConfigDelta) (variant : ObjectiveVariant) (param : Nat) :
    Except ProposalRefused (SearchConfigDelta × Nat) × Bool :=
  match me.horizonOf variant param with
  | .error e => (.error e, false)
  | .ok horizon =>
    if fits axisA horizon then (.ok (axisA, param), false)
    else (me.repair axisA variant param horizon, true)

def pool : List ObjectiveVariant :=
  me.drawableVariants.filter fun v =>
    match v.maxDrawsPerSession with
    | some cap => me.b0Drawn < cap
    | none => true

variable {R F : Type*} [FloatOps F] [Sampler R F]

def drawVariant (view : SessionView F) (forceUniform : Bool)
    (forcedVariant : Option ObjectiveVariant) (rng : R) :
    Except ProposalRefused ObjectiveVariant × R :=
  match forcedVariant with
  | some v => (.ok v, rng)
  | none =>
    match me.pool with
    | [] => (.error (.objective (.allVariantsCapped me.drawableVariants)), rng)
    | v :: rest =>
      let (i, rng) := drawLevel forceUniform
        (fun i => view.evidence (.objective ((v :: rest).getD i v)))
        (List.range (v :: rest).length) rng
      (.ok ((v :: rest).getD i v), rng)

def trustRegion (view : SessionView F) (forceUniform : Bool) (axisA : SearchConfigDelta)
    (census : ProposerCensus) : Except ProposalRefused SearchConfigDelta × ProposerCensus :=
  match forceUniform, view.parent with
  | false, some parent => applyTrustRegion axisA parent.axisA me.caps view.evidence census
  | _, _ => (.ok axisA, census)

/-- The end of `draw_one`: the refusal vector, and the proposal itself. -/
def drawRefusals (view : SessionView F) (slot : Nat) (forceUniform : Bool)
    (forcedVariant : Option ObjectiveVariant) (axisA : SearchConfigDelta)
    (variant : ObjectiveVariant) (param : Nat) (rng : R) : Except ProposalRefused Proposal × R :=
  let (levels, rng) := drawEach (fun d => drawLevel forceUniform
    (fun l => view.evidence (.refusal d l)) (List.range d.arity)) RefusalDim.all rng
  match RefusalLevels.new levels with
  | .error e => (.error (.objective e), rng)
  | .ok refusals =>
    let origin := if forceUniform then ProposalOrigin.explorationFloor
      else if forcedVariant.isSome then .coverageDebt else .posterior
    let parent := if forceUniform then none else view.parent.map (·.sweep)
    (buildProposal axisA variant param refusals 0 origin slot parent me.caps me.scenario, rng)

/-- `draw_one`. The census keeps what it counted when the draw is refused. -/
def drawOne (view : SessionView F) (slot : Nat) (forceUniform : Bool)
    (forcedVariant : Option ObjectiveVariant) (rng : R) (census : ProposerCensus) :
    Except ProposalRefused Proposal × R × ProposerCensus :=
  let (levels, rng) := drawEach (fun f => drawLevel forceUniform
    (fun l => view.evidence (.factor f l)) (f.availableLevels me.caps)) FactorId.all rng
  match SearchConfigDelta.new levels me.caps with
  | .error e => (.error (.space e), rng, census)
  | .ok axisA =>
    match me.trustRegion view forceUniform axisA census with
    | (.error e, census) => (.error e, rng, census)
    | (.ok axisA, census) =>
      match me.drawVariant view forceUniform forcedVariant rng with
      | (.error e, rng) => (.error e, rng, census)
      | (.ok variant, rng) =>
        let (param, rng) := Sampler.range rng variant.paramCount
        let (paired, resampled) := me.pairLanes axisA variant param
        let census := { census with
          constraintResampled := census.constraintResampled + resampled.toNat }
        match paired with
        | .error e => (.error e, rng, census)
        | .ok (axisA, param) =>
          let (drawn, rng) := me.drawRefusals view slot forceUniform forcedVariant axisA variant
            param rng
          (drawn, rng, census)

end Proposer

/-- The step of `replicate_seed`. -/
def eat (h b : BitVec 64) : BitVec 64 := (h ^^^ b) * 0x1000000001b3#64

/-- `replicate_seed`: FNV over the session, the cell and the number of the replicate. -/
def replicateSeed (sessionSeed : BitVec 64) (cell : CellKey) (replicate : Nat) : BitVec 64 :=
  let h := eat 0xcbf29ce484222325#64 sessionSeed
  let h := FactorId.all.foldl (fun h f => eat h (BitVec.ofNat 64 (cell.axisA f))) h
  let h := eat h (BitVec.ofNat 64 cell.variant.index)
  let h := eat h (BitVec.ofNat 64 cell.param)
  let h := RefusalDim.all.foldl (fun h d => eat h (BitVec.ofNat 64 (cell.refusals d))) h
  eat h (BitVec.ofNat 64 replicate)

/-- `PayoffCeilingInputs`. -/
structure PayoffCeilingInputs (F : Type*) where
  slMinPips : F
  slMaxPips : F
  tpMinPips : F
  tpMaxPips : F
  initializerRrMax : F
  initializerRrMin : F
  atrPips : Option F
  costPipsRoundTrip : F
  trailingBeTriggerR : F
  trailingGiveBackR : F
  trailingMinLockPips : F

inductive PayoffRefused (F : Type*)
  | notFinite (name : String) (value : F)
  | stopClamp (min max : F)
  | takeProfitClamp (min max : F)
  | initializerBand (min max : F)
  | atrPips (value : F)
  | costPipsRoundTrip (value : F)
  | trailing (beTrigger giveBack minLock : F)
  | configuredFloor (value : F)

section Payoff

variable {F : Type*} [FloatOps F]

def finite (name : String) (value : F) : Except (PayoffRefused F) PUnit :=
  Fallible.refuse (FloatOps.isFinite value = false) (.notFinite name value)

/-- A band of the payoff inputs is not `0 < min <= max`. -/
def badBand (min max : F) : Bool :=
  FloatOps.le min (lit 0) || FloatOps.le max (lit 0) || lt max min

def checkAtrPips (atrPips : Option F) : Except (PayoffRefused F) PUnit :=
  match atrPips with
  | some atrPips => do
    finite "atr_pips" atrPips
    Fallible.refuse (FloatOps.le atrPips (lit 0)) (.atrPips atrPips)
  | none => .ok ⟨⟩

/-- `max_achievable_payoff`: its refusals, and the ceiling that it enforces. -/
def maxAchievablePayoff (inputs : PayoffCeilingInputs F) : Except (PayoffRefused F) F := do
  finite "sl_min_pips" inputs.slMinPips
  finite "sl_max_pips" inputs.slMaxPips
  finite "tp_min_pips" inputs.tpMinPips
  finite "tp_max_pips" inputs.tpMaxPips
  finite "initializer_rr_min" inputs.initializerRrMin
  finite "initializer_rr_max" inputs.initializerRrMax
  finite "cost_pips_round_trip" inputs.costPipsRoundTrip
  finite "trailing_be_trigger_r" inputs.trailingBeTriggerR
  finite "trailing_give_back_r" inputs.trailingGiveBackR
  finite "trailing_min_lock_pips" inputs.trailingMinLockPips
  Fallible.refuse (badBand inputs.slMinPips inputs.slMaxPips)
    (.stopClamp inputs.slMinPips inputs.slMaxPips)
  Fallible.refuse (badBand inputs.tpMinPips inputs.tpMaxPips)
    (.takeProfitClamp inputs.tpMinPips inputs.tpMaxPips)
  Fallible.refuse (badBand inputs.initializerRrMin inputs.initializerRrMax)
    (.initializerBand inputs.initializerRrMin inputs.initializerRrMax)
  checkAtrPips inputs.atrPips
  Fallible.refuse (lt inputs.costPipsRoundTrip (lit 0))
    (.costPipsRoundTrip inputs.costPipsRoundTrip)
  Fallible.refuse (lt inputs.trailingBeTriggerR (lit 0) || lt inputs.trailingGiveBackR (lit 0) ||
      lt inputs.trailingMinLockPips (lit 0))
    (.trailing inputs.trailingBeTriggerR inputs.trailingGiveBackR inputs.trailingMinLockPips)
  let denom := inputs.slMinPips + inputs.costPipsRoundTrip
  let numer := inputs.tpMaxPips - inputs.costPipsRoundTrip
  return if FloatOps.le numer (lit 0) then lit 0 else numer / denom

/-- `assert_payoff_floor_reachable`: no finite floor is refused. -/
def assertPayoffFloorReachable (configuredFloor : F) (inputs : PayoffCeilingInputs F) :
    Except (PayoffRefused F) F := do
  let ceiling ← maxAchievablePayoff inputs
  Fallible.refuse (FloatOps.isFinite configuredFloor = false) (.configuredFloor configuredFloor)
  return ceiling

end Payoff

/-- What a draw resolves of the configuration before it samples. -/
structure PayoffSettings (F : Type*) where
  minPayoffRatio : F
  inputs : PayoffCeilingInputs F

structure DuplicateDraw where
  slot : Nat
  configHash : String
  firstSeenSweep : Nat
  deriving DecidableEq

structure RefusedDraw where
  slot : Nat
  configHash : String
  reason : ProposalRefused
  deriving DecidableEq

structure DrawnSweep where
  proposals : List Proposal
  duplicates : List DuplicateDraw
  refused : List RefusedDraw
  exhausted : Bool
  slotsAbandoned : Nat
  census : ProposerCensus
  deriving DecidableEq

namespace DrawnSweep

def empty : DrawnSweep := ⟨[], [], [], false, 0, .empty⟩

def refuse (out : DrawnSweep) (slot : Nat) (configHash : String) (reason : ProposalRefused) :
    DrawnSweep :=
  { out with
    census := out.census.recordRefusal reason
    refused := out.refused ++ [⟨slot, configHash, reason⟩] }

/-- `record_identity_refusal`. -/
def recordIdentityRefusal (out : DrawnSweep) (slot : Nat) (configHash : String)
    (reason : ProposalRefused) (firstSeen : Option Nat) : DrawnSweep :=
  match firstSeen with
  | some firstSeenSweep =>
    { out with
      census := out.census.recordRefusal reason
      duplicates := out.duplicates ++ [⟨slot, configHash, firstSeenSweep⟩] }
  | none => out.refuse slot configHash reason

/-- `abandon_remaining_slots`: one record for every slot that is never drawn. -/
def abandonRemainingSlots (out : DrawnSweep) (fromSlot consecutiveCollisions : Nat) :
    DrawnSweep :=
  let drawn := out.proposals.length
  (List.range' fromSlot (sweepSearches - fromSlot)).foldl
    (fun out abandoned => out.refuse abandoned ""
      (.space (.spaceEnumerated abandoned drawn sweepSearches consecutiveCollisions)))
    { out with
      exhausted := true
      slotsAbandoned := sweepSearches - fromSlot }

end DrawnSweep

/-- A sweep while it is drawn. The coverage debt is kept with the most owed first. -/
structure SweepState (R : Type*) where
  me : Proposer
  rng : R
  out : DrawnSweep
  debt : List ObjectiveVariant

/-- What one turn of the loop of a slot comes to. -/
inductive Attempt (R : Type*)
  | drawn (s : SweepState R)
  | again (s : SweepState R) (attempt consecutive : Nat)
  | enumerated (s : SweepState R)
  | bail (s : SweepState R) (slot attempts : Nat)

namespace Proposer

/-- `coverage_debt`. -/
def coverageDebt (me : Proposer) (coverage : ObjectiveVariant → Nat) : List ObjectiveVariant :=
  (me.drawableVariants.filter fun v =>
    v.maxDrawsPerSession.isNone && coverage v < bMinDraws).mergeSort fun a b =>
      coverage a < coverage b || (coverage a = coverage b && a.index ≤ b.index)

end Proposer

namespace SweepState

variable {R F : Type*} [FloatOps F] [Sampler R F]

/-- A refused draw costs one attempt; the last one ends the sweep. -/
def refused (s : SweepState R) (slot attempt consecutive : Nat) (reason : ProposalRefused) :
    Attempt R :=
  let s := { s with out := s.out.refuse slot "" reason }
  if proposerRetries ≤ attempt + 1 then .bail s slot (attempt + 1)
  else .again s (attempt + 1) consecutive

/-- An identity that is taken: uniform draws that collide in a row enumerate the space. -/
def collided (s : SweepState R) (slot attempt consecutive : Nat) (forceUniform : Bool)
    (candidate : Proposal) (replicate : Nat) (firstSeen : Option Nat) : Attempt R :=
  let reason := match firstSeen with
    | some firstSeen => ProposalRefused.duplicate firstSeen
    | none => .cellReplicatesExhausted replicate
  let out := s.out.recordIdentityRefusal slot candidate.configHash reason firstSeen
  if forceUniform then
    let out := { out with
      census := { out.census with uniformCollisions := out.census.uniformCollisions + 1 } }
    if proposerRetries ≤ consecutive + 1 then
      .enumerated { s with out := out.abandonRemainingSlots slot (consecutive + 1) }
    else .again { s with out := out } (attempt + 1) (consecutive + 1)
  else .again { s with out := out } (attempt + 1) consecutive

def accepted (s : SweepState R) (view : SessionView F) (sweep : Nat) (candidate : Proposal) :
    SweepState R :=
  let census := s.out.census
  let census := if view.hasConfigHash candidate.configHash then
    { census with stampCollisions := census.stampCollisions + 1 } else census
  let owed := candidate.origin = .coverageDebt
  let census := if owed then
    { census with coverageDebtForced := census.coverageDebtForced + 1 } else census
  { s with
    me := s.me.remember candidate sweep
    debt := if owed then s.debt.tail else s.debt
    out := { s.out with
      census := { census with proposalsDrawn := census.proposalsDrawn + 1 }
      proposals := s.out.proposals ++ [candidate] } }

/-- The end of a turn: the stamp of a candidate, which is that of its resolved configuration, and
its identity. -/
def settle (stamp : Proposal → Except ProposalRefused String) (view : SessionView F)
    (sweep slot : Nat) (s : SweepState R) (attempt consecutive : Nat) (forceUniform : Bool)
    (candidate : Proposal) : Attempt R :=
  let replicate := s.me.replicates (CellKey.of candidate)
  let candidate := { candidate with
    replicateSeed := replicateSeed s.me.sessionSeed (CellKey.of candidate) replicate }
  match stamp candidate with
  | .error reason => s.refused slot attempt consecutive reason
  | .ok configHash =>
    let candidate := { candidate with configHash := configHash }
    let firstSeen := s.me.keys candidate.key
    if firstSeen.isSome || maxReplicatesPerCell ≤ replicate then
      s.collided slot attempt consecutive forceUniform candidate replicate firstSeen
    else .drawn (s.accepted view sweep candidate)

def attempt (stamp : Proposal → Except ProposalRefused String) (view : SessionView F)
    (sweep slot : Nat) (s : SweepState R) (attempt consecutive : Nat) : Attempt R :=
  let forceUniform := slot < explorationFloor || proposerRetries ≤ attempt
  let forcedVariant := if forceUniform || 0 < attempt then none else s.debt.head?
  match s.me.drawOne view slot forceUniform forcedVariant s.rng s.out.census with
  | (.error reason, rng, census) =>
    { s with rng := rng, out := { s.out with census := census } }.refused slot attempt consecutive
      reason
  | (.ok candidate, rng, census) =>
    { s with rng := rng, out := { s.out with census := census } }.settle stamp view sweep slot
      attempt consecutive forceUniform candidate

def drawSlot (stamp : Proposal → Except ProposalRefused String) (view : SessionView F)
    (sweep slot : Nat) : Nat → SweepState R → Nat → Nat → Option (Attempt R)
  | 0, _, _, _ => none
  | fuel + 1, s, n, consecutive =>
    match s.attempt stamp view sweep slot n consecutive with
    | .again s n consecutive => drawSlot stamp view sweep slot fuel s n consecutive
    | ended => some ended

/-- How a sweep ends: with its proposals, with the slot that could not be drawn, or before the
first slot because its payoff inputs are refused. -/
inductive Drawn (R F : Type*)
  | sweep (s : SweepState R)
  | failed (s : SweepState R) (slot attempts : Nat)
  | unpriced (reason : PayoffRefused F)

def drawSlots (stamp : Proposal → Except ProposalRefused String) (view : SessionView F)
    (sweep : Nat) : List Nat → SweepState R → Option (Drawn R F)
  | [], s => some (.sweep s)
  | slot :: rest, s =>
    match drawSlot stamp view sweep slot (2 * proposerRetries) s 0 0 with
    | some (.drawn s) => drawSlots stamp view sweep rest s
    | some (.enumerated s) => some (.sweep s)
    | some (.bail s slot attempts) => some (.failed s slot attempts)
    | _ => none

end SweepState

/-- `draw_sweep`. The ceiling that the check of the payoff inputs returns is kept for show. -/
def Proposer.drawSweep {R F : Type*} [FloatOps F] [Sampler R F] (me : Proposer)
    (payoff : PayoffSettings F) (stamp : Proposal → Except ProposalRefused String)
    (view : SessionView F) (sweep : Nat) (rng : R) : Option (SweepState.Drawn R F) :=
  match assertPayoffFloorReachable payoff.minPayoffRatio payoff.inputs with
  | .error reason => some (.unpriced reason)
  | .ok _ =>
    SweepState.drawSlots stamp view sweep (List.range sweepSearches)
      ⟨me, rng, .empty, me.coverageDebt view.coverage⟩

/-- `journal_draw`. That the slots are dense, which it asserts, is `Accounted.slots`. -/
def journalDraw (sweep : Nat) (drawn : DrawnSweep) : List SweepRecord :=
  drawn.duplicates.map (fun _ => .noted sweep) ++ drawn.refused.map (fun _ => .noted sweep) ++
    drawn.proposals.map fun p => .proposalDrawn sweep p.slot p

end Autoresearch

end Neoethos
