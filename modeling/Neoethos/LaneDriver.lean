import Neoethos.LaneRecords

-- The ring is the kernel's. The lane calls the operations of `f64` by name.
set_option linter.overlappingInstances false

namespace Neoethos

open Fallible (refuse)
open FloatOps (lit le isFinite isPositive)

variable {P L : Type} [Ring P] [LinearOrder P] [FloatOps P]

namespace SignalQuoteLane

variable (sha256 : HashPayload P → String) (lane : SignalQuoteLane P)
  (binding : QuoteValidatedResearchReplayBinding) (policy : QuoteValidatedResearchReplayPolicy P)

/-- The checks of a row: its identity, its signal, its place in time and its prices. -/
def validateRow (timeframe : CanonicalTimeframe) (duration : Int) (row : Int × Nat) :
    Except LaneError Unit := do
  let (signal, index) := row
  let window := binding.replayScope.lockedEvaluationWindow
  let bar ← context (lane.bars.get index) "quote signal lane has incomplete OHLC columns"
  ensure (bar.symbol = binding.symbolName ∧ bar.tf = timeframe.asStr)
    s!"quote signal lane changes its captured symbol or timeframe at row {index}"
  ensure (-1 ≤ signal ∧ signal ≤ 1) s!"invalid strategy direction at row {index}"
  ensure (0 ≤ bar.ts ∧ bar.ts % duration = 0 ∧
      ((bar.closeAt duration).any (· ≤ window.toUnixMsExclusive)) = true ∧
      (index = 0 ∨ ((lane.bars.get (index - 1)).any fun previous =>
        (previous.closeAt duration).any (· ≤ bar.ts)) = true))
    s!"quote signal lane has unordered, overlapping or unaligned bars at row {index}"
  ensure ([bar.o, bar.h, bar.l, bar.c].all isPositive = true ∧ le bar.l bar.o = true ∧
      le bar.l bar.c = true ∧ le bar.o bar.h = true ∧ le bar.c bar.h = true)
    s!"quote signal lane has invalid OHLC at row {index}"

def confidencesMatch : Bool :=
  lane.confidences.all fun values =>
    values.length = lane.signals.length &&
      values.all fun value => isFinite value && le (lit 0) value && le value (lit 1)

def trailingMatches : Bool :=
  lane.trailing.all fun trailing =>
    FloatOps.eq trailing.pipSize lane.pipSize &&
      (TrailingPolicy.new trailing.beTriggerR trailing.stopMultiplier trailing.minLockPips
        trailing.pipSize).isSome

/-- `validate`: the duration of the lane's bars. -/
def validate : Except LaneError Int := do
  fromKernel (binding.validateReplayPolicy sha256 policy)
  ensure (2 ≤ lane.bars.len ∧ lane.bars.len = lane.signals.length)
    "quote signal lane needs matching closed bars and signals"
  ensure (lane.confidencesMatch = true) "quote signal lane needs finite aligned gene confidence"
  ensure (lane.bars.columnsMatch = true) "quote signal lane has mismatched OHLC column lengths"
  ensure (lane.entryBrackets.isSome = true ∨ FloatOps.eq lane.gene.stopVolMult (lit 0) = true)
    "fixed-stop quote lane cannot replace adaptive per-bar strategy brackets"
  ensure ([lane.pipSize, lane.gene.slPips, lane.gene.tpPips].all isPositive = true)
    "quote signal lane requires explicit finite positive pip size and gene SL/TP"
  ensure (FloatOps.eq lane.pipSize policy.latencySlippage.pipSize = true)
    "strategy and captured quote policy have different pip sizes"
  ensure (lane.trailingMatches = true)
    "quote signal lane has invalid or mismatched trailing geometry"
  let first ← context (lane.bars.get 0) "quote signal lane has incomplete OHLC columns"
  let timeframe ← context (CanonicalTimeframe.fromStr first.tf)
    s!"invalid canonical timeframe: {repr first.tf}"
  let duration ← context timeframe.fixedDurationMs
    "calendar timeframes require an explicit broker calendar; no invented bar close"
  let window := binding.replayScope.lockedEvaluationWindow
  ensure (first.ts = window.fromUnixMsInclusive ∧
      (lane.bars.get (lane.bars.len - 1)).bind (·.closeAt duration) =
        some window.toUnixMsExclusive)
    "quote signal lane must cover the exact locked bar window"
  forM lane.signals.zipIdx (lane.validateRow binding timeframe duration)
  return duration

/-- The signal of a bar, where it is one: eligible, directional and with a bracket. -/
def signalAt (index : Nat) (bar : QuoteBar P) : Option (Signal P) := do
  guard (lane.entryEligibility.all fun eligible => eligible index)
  let dir ← match lane.signals[index]? with
    | some 1 => some Direction.long
    | some (-1) => some Direction.short
    | _ => none
  let (slPips, tpPips) ← match lane.entryBrackets with
    | some resolve => resolve index
    | none => some (lane.gene.slPips, lane.gene.tpPips)
  let confidence := (lane.confidences.bind (·[index]?)).getD (lit 0)
  return ⟨bar.symbol, dir, confidence, .strategy, slPips, tpPips⟩

end SignalQuoteLane

def researchDirection : Direction → Except LaneError ResearchPositionDirection
  | .long => .ok .long
  | .short => .ok .short
  | .flat => .error (.lane "flat signal cannot own an entry decision")

/-- The decision with its stop and its target around an entry price. -/
def bracketDecision (engine : DecisionEngine P) (signal : Signal P) (bar : QuoteBar P)
    (duration : Int) (entryPrice : P) :
    Except LaneError (CanonicalBarSignalResearchDecision P × P × P × DecisionEngine P) :=
  match engine.intent signal [] entryPrice with
  | (some (.open _ _ _ (some stop) (some target) _), engine) => do
    let direction ← researchDirection signal.dir
    let closeAt ← context (bar.closeAt duration) "bar close overflow"
    let decision ← fromKernel
      (CanonicalBarSignalResearchDecision.new bar.ts closeAt direction stop target)
    return (decision, stop, target, engine)
  | _ => .error (.lane "directional strategy signal did not produce its own bracket")

section Plan

variable (lane : SignalQuoteLane P) (duration : Int) (signal : Signal P)
  (entry : ResearchEntryPreview P) (entryIndex : Nat) (stop : P)

/-- The loop over the closed bars of a position: each that tightens the stop adds a threshold. -/
def trailingThresholds (trailing : TrailingPolicy P) : Option P → List Nat →
    Except LaneError (List (ClosedCanonicalBarTrailingThreshold P))
  | _, [] => .ok []
  | trailStop, trailIndex :: rest => do
    let source ← context (lane.bars.get trailIndex) "trailing index belongs to validated bars"
    let closeAt ← context (source.closeAt duration) "trailing bar close overflow"
    let (high, low) ← if trailIndex = entryIndex then fromKernel (entry.bidExtremaBefore closeAt)
      else .ok (source.h, source.l)
    match trailing.nextStopPrice entry.modeledEntryPrice stop signal.dir high low trailStop with
    | none => trailingThresholds trailing trailStop rest
    | some nextStop =>
      let threshold ← fromKernel (ClosedCanonicalBarTrailingThreshold.new source.ts closeAt
        (if signal.dir = .long then .long else .short) nextStop)
      let thresholds ← trailingThresholds trailing (some nextStop) rest
      return threshold :: thresholds

/-- The trailing schedule of a position, up to the end of its holding time. -/
def trailingSchedule (lastHold : Nat) :
    Except LaneError (List (ClosedCanonicalBarTrailingThreshold P)) :=
  match lane.trailing with
  | none => .ok []
  | some trailing => trailingThresholds lane duration signal entry entryIndex stop trailing none
      (List.range' entryIndex (min lastHold lane.bars.len - entryIndex))

/-- The index of the bar that ends the holding time; without a limit, the end of the bars. -/
def lastHoldIndex : Except LaneError Nat :=
  if lane.maxHoldBars = 0 then .ok lane.bars.len
  else if 2 ^ 64 ≤ entryIndex + (lane.maxHoldBars - 1) then
    .error (.lane "max-hold index overflow")
  else .ok (entryIndex + (lane.maxHoldBars - 1))

variable (sha256 : HashPayload P → String) (binding : QuoteValidatedResearchReplayBinding)
  (policy : QuoteValidatedResearchReplayPolicy P)

/-- The plan of an entry: its brackets are moved to the modeled entry price, and it gets its
trailing schedule and its timer. -/
def enteredPlan (engine : DecisionEngine P) (bar : QuoteBar P) :
    Except LaneError (QuoteValidatedResearchReplayPlan P × DecisionEngine P) := do
  let partition := lane.bars.partitionAt entry.timestampUnixMs
  refuse (partition = 0) (.lane "modeled entry precedes the locked bars")
  let entryIndex := partition - 1
  let entryBar ← context (lane.bars.get entryIndex) "entry index belongs to validated bars"
  let entryBarEnd ← context (entryBar.closeAt duration) "entry bar close overflow"
  ensure (entry.timestampUnixMs < entryBarEnd)
    "modeled entry falls in a canonical bar gap; cannot invent a holding clock"
  let (decision, stop, _, engine) ←
    bracketDecision engine signal bar duration entry.modeledEntryPrice
  let lastHold ← lastHoldIndex lane entryIndex
  let thresholds ← trailingSchedule lane duration signal entry entryIndex stop lastHold
  let plan ← fromKernel (QuoteValidatedResearchReplayPlan.new sha256 binding policy [decision]
    thresholds)
  match lane.bars.get lastHold with
  | none => return (plan, engine)
  | some exitBar =>
    let closeAt ← context (exitBar.closeAt duration) "time exit close overflow"
    let timeExit ← fromKernel (ClosedCanonicalBarTimeExit.new exitBar.ts closeAt)
    let plan ← fromKernel (plan.withTimeExit sha256 timeExit)
    return (plan, engine)

end Plan

/-- What one replayed decision leaves: its bar, its final plan and its ledger. -/
structure LaneStep (P L : Type) where
  decisionBarIndex : Nat
  plan : QuoteValidatedResearchReplayPlan P
  ledger : L

section Drive

variable [LaneLedger P L] (sha256 : HashPayload P → String) (lane : SignalQuoteLane P)
  (binding : QuoteValidatedResearchReplayBinding) (policy : QuoteValidatedResearchReplayPolicy P)
  (preview : QuoteValidatedResearchReplayPlan P →
    Except LaneError (Option (ResearchEntryPreview P)))
  (replay : QuoteValidatedResearchReplayPlan P → Except LaneError L)

/-- The final plan of a signal: as decided, or as previewed at its entry. -/
def finalPlan (duration : Int) (engine : DecisionEngine P) (signal : Signal P) (bar : QuoteBar P) :
    Except LaneError (QuoteValidatedResearchReplayPlan P × DecisionEngine P) := do
  let (decision, _, _, engine) ← bracketDecision engine signal bar duration bar.c
  let plan ← fromKernel (QuoteValidatedResearchReplayPlan.new sha256 binding policy [decision] [])
  match ← preview plan with
  | none => return (plan, engine)
  | some entry => enteredPlan lane duration signal entry sha256 binding policy engine bar

/-- Until when a ledger occupies the lane; an open position has no end. -/
def occupiedUntil (ledger : L) : Except LaneError (Option Int) :=
  match LaneLedger.positions ledger, LaneLedger.nonEntries ledger with
  | [position], [] => .ok (position.exitReference.map (·.timestampUnixMs))
  | [], [unavailable] => .ok (some unavailable.deadlineUnixMs)
  | _, _ => .error (.lane "quote kernel must return exactly one position or non-entry per decision")

def driveFrom (duration : Int) : DecisionEngine P → Option Int → List Nat →
    Except LaneError (List (LaneStep P L))
  | _, _, [] => .ok []
  | engine, occupied, index :: rest => do
    let bar ← context (lane.bars.get index) "all lane rows were validated"
    let decisionAt ← context (bar.closeAt duration) "bar close overflow"
    if binding.replayScope.lockedEvaluationWindow.toUnixMsExclusive ≤ decisionAt then .ok []
    else if (occupied.any (decisionAt ≤ ·)) = true then driveFrom duration engine occupied rest
    else match lane.signalAt index bar with
      | none => driveFrom duration engine occupied rest
      | some signal =>
        let (plan, engine) ← finalPlan sha256 lane binding policy preview duration engine signal bar
        let ledger ← replay plan
        match ← occupiedUntil ledger with
        | none => return [⟨index, plan, ledger⟩]
        | some completed =>
          let steps ← driveFrom duration engine (some completed) rest
          return ⟨index, plan, ledger⟩ :: steps

def laneSteps : Except LaneError (List (LaneStep P L)) := do
  let duration ← lane.validate sha256 binding policy
  driveFrom sha256 lane binding policy preview replay duration
    (DecisionEngine.new (DecisionConfig.geneParity lane.pipSize)) none (List.range lane.bars.len)

/-- `drive_borrowed_lane`. -/
def driveBorrowedLane : Except LaneError (List (Nat × L)) :=
  (laneSteps sha256 lane binding policy preview replay).map
    (·.map fun step => (step.decisionBarIndex, step.ledger))

end Drive

section Sealed

variable {sha256 : HashPayload P → String} (lane : SignalQuoteLane P)
  (binding : QuoteValidatedResearchReplayBinding) (policy : QuoteValidatedResearchReplayPolicy P)
  (evidence : SealedHistoricalBidAskQuoteReplayEvidence sha256)

/-- The steps of the lane on a sealed snapshot, with the preview and the replay of the kernel. -/
def sealedLaneSteps :
    Except LaneError (List (LaneStep P (SealedHistoricalQuoteValidatedResearchLedger P))) :=
  laneSteps sha256 lane binding policy
    (fun plan => fromKernel (previewSealedQuoteValidatedResearchEntry sha256 plan evidence))
    (fun plan => fromKernel (replaySealedQuoteValidatedResearch plan evidence))

/-- `drive_borrowed_lane` on a sealed snapshot. -/
def driveSealedLane :
    Except LaneError (List (Nat × SealedHistoricalQuoteValidatedResearchLedger P)) :=
  driveBorrowedLane sha256 lane binding policy
    (fun plan => fromKernel (previewSealedQuoteValidatedResearchEntry sha256 plan evidence))
    (fun plan => fromKernel (replaySealedQuoteValidatedResearch plan evidence))

end Sealed

end Neoethos
