import Neoethos.FeatureIndex
import Neoethos.PositionManager
import Neoethos.ReplayKernel
import Neoethos.TrendbarPage

/-! The records of `quote_signal_replay.rs`, a signal lane over the quote kernel. The lane's own
prices come from the operations of `f64`; those of the kernel are exact. -/

namespace Neoethos

open Fallible (refuse require)

/-- An error of the kernel, or a text of the lane. -/
inductive LaneError
  | replay (error : ReplayError)
  | lane (message : String)
  deriving DecidableEq

/-- The lane's `ensure!`. -/
def ensure (good : Prop) [Decidable good] (message : String) : Except LaneError Unit :=
  refuse (¬good) (.lane message)

/-- The `?` on a result of the kernel. -/
def fromKernel {α : Type} (x : Except ReplayError α) : Except LaneError α := x.mapError .replay

/-- `Option::context`. -/
def context {α : Type} (x : Option α) (message : String) : Except LaneError α :=
  require x (.lane message)

structure QuoteBar (P : Type) where
  symbol : String
  tf : String
  ts : Int
  o : P
  h : P
  l : P
  c : P

/-- `bar.ts.checked_add(duration)`. -/
def QuoteBar.closeAt {P : Type} (bar : QuoteBar P) (duration : Int) : Option Int :=
  I64.checkedAdd bar.ts duration

structure Ohlcv (P : Type) where
  open_ : List P
  high : List P
  low : List P
  close : List P

inductive QuoteBars (P : Type)
  | live (bars : List (LiveBar P))
  | canonical (ohlcv : Ohlcv P) (timestamps : List Int) (symbol timeframe : String)

namespace QuoteBars

variable {P : Type}

def len : QuoteBars P → Nat
  | live bars => bars.length
  | canonical _ timestamps _ _ => timestamps.length

def get : QuoteBars P → Nat → Option (QuoteBar P)
  | live bars, index => do
    let bar ← bars[index]?
    return ⟨bar.symbol, bar.tf, bar.ts, bar.o, bar.h, bar.l, bar.c⟩
  | canonical ohlcv timestamps symbol timeframe, index => do
    let ts ← timestamps[index]?
    let o ← ohlcv.open_[index]?
    let h ← ohlcv.high[index]?
    let l ← ohlcv.low[index]?
    let c ← ohlcv.close[index]?
    return ⟨symbol, timeframe, ts, o, h, l, c⟩

def partitionAt : QuoteBars P → Int → Nat
  | live bars, timestamp => Slice.partitionPoint (fun bar => bar.ts ≤ timestamp) bars
  | canonical _ timestamps _ _, timestamp =>
    Slice.partitionPoint (fun ts => ts ≤ timestamp) timestamps

/-- The four columns of a canonical series are as long as its timestamps. -/
def columnsMatch : QuoteBars P → Bool
  | live _ => true
  | canonical ohlcv timestamps _ _ =>
    [ohlcv.open_.length, ohlcv.high.length, ohlcv.low.length, ohlcv.close.length].all
      (· = timestamps.length)

end QuoteBars

/-- `BorrowedSignalQuoteLane`; a signal is an `i8`. -/
structure SignalQuoteLane (P : Type) where
  bars : QuoteBars P
  signals : List Int
  confidences : Option (List P)
  entryEligibility : Option (Nat → Bool)
  entryBrackets : Option (Nat → Option (P × P))
  gene : Gene P
  pipSize : P
  maxHoldBars : Nat
  trailing : Option (TrailingPolicy P)

/-- `QuoteValidatedResearchEntryPreviewV1`. -/
structure ResearchEntryPreview (P : Type) where
  evidence : CompleteBidAskQuoteReplayEvidence P
  selected : SelectedEntryBook P
  direction : ResearchPositionDirection
  sameTimestampOrder : Option SameTimestampCrossSideOrder
  modeledEntryPrice : P

/-- What the lane reads of the ledger that a replay returns. -/
class LaneLedger (P : outParam Type) (L : Type) where
  positions : L → List (QuoteValidatedResearchPosition P)
  nonEntries : L → List QuoteValidatedResearchNonEntry

instance {P : Type} : LaneLedger P (SealedHistoricalQuoteValidatedResearchLedger P) where
  positions ledger := ledger.ledger.positions
  nonEntries ledger := ledger.ledger.entryUnavailable

section Preview

variable {P : Type}

namespace ResearchEntryPreview

def timestampUnixMs (preview : ResearchEntryPreview P) : Int :=
  preview.selected.entryQuote.timestampUnixMs

/-- A quote of the entry's own timestamp that the entry came after. -/
def beforeEntry (preview : ResearchEntryPreview P) (quote : ExactHistoricalQuote P) : Bool :=
  quote.timestampUnixMs = preview.timestampUnixMs && match preview.direction with
    | .short => quote.sourceOrdinal.key < preview.selected.entryQuote.sourceOrdinal.key
    | .long => preview.sameTimestampOrder = some .bidBeforeAsk

def bidExtremaBefore [FloatOps P] (preview : ResearchEntryPreview P) (closedBarEndUnixMs : Int) :
    Except ReplayError (P × P) := do
  let locked := preview.evidence.binding.replayScope.lockedEvaluationWindow
  refuseIf (closedBarEndUnixMs ≤ preview.timestampUnixMs ∨
      locked.toUnixMsExclusive < closedBarEndUnixMs) .invalidWindow
    "entry-bar extrema require a later closed boundary inside the locked window"
  let quotes := preview.evidence.bid.quoteRecords
  let first := Slice.partitionPoint
    (fun quote => quote.timestampUnixMs < preview.timestampUnixMs) quotes
  let after := Slice.partitionPoint (fun quote => quote.timestampUnixMs < closedBarEndUnixMs) quotes
  let seed := preview.selected.bidQuote.price
  return ((quotes.take after).drop first).foldl (fun (high, low) quote =>
    if preview.beforeEntry quote then (high, low)
    else (FloatOps.max high quote.price, FloatOps.min low quote.price)) (seed, seed)

end ResearchEntryPreview

variable [Ring P] [LinearOrder P] (sha256 : HashPayload P → String)

/-- `preview_entry_with_evidence_v1`. -/
def previewEntryWithEvidence (plan : QuoteValidatedResearchReplayPlan P)
    (evidence : CompleteBidAskQuoteReplayEvidence P) :
    Except ReplayError (Option (ResearchEntryPreview P)) := do
  plan.validate sha256
  refuseIf (plan.binding ≠ evidence.binding) .bindingMismatch
    "entry preview and quote snapshot have different exact bindings"
  let decision ← plan.soleDecision
  match ← selectEntry decision evidence plan.policy with
  | .unavailable _ => return none
  | .available selected =>
    let modeledEntryPrice ← modeledPrice selected.entryQuote.price decision.direction true
      plan.policy.latencySlippage
    return some ⟨evidence, selected, decision.direction,
      plan.policy.reviewedSameTimestampMergeRule.map (·.sideOrder), modeledEntryPrice⟩

def previewSealedQuoteValidatedResearchEntry (plan : QuoteValidatedResearchReplayPlan P)
    (evidence : SealedHistoricalBidAskQuoteReplayEvidence sha256) :
    Except ReplayError (Option (ResearchEntryPreview P)) :=
  previewEntryWithEvidence sha256 plan evidence.evidence

end Preview

variable {P : Type} [Ring P] [LinearOrder P]

namespace QuoteValidatedResearchReplayPlan

variable (sha256 : HashPayload P → String)

def new (binding : QuoteValidatedResearchReplayBinding)
    (policy : QuoteValidatedResearchReplayPolicy P)
    (decisions : List (CanonicalBarSignalResearchDecision P))
    (trailingThresholds : List (ClosedCanonicalBarTrailingThreshold P)) :
    Except ReplayError (QuoteValidatedResearchReplayPlan P) := do
  let plan : QuoteValidatedResearchReplayPlan P :=
    ⟨binding, policy, decisions, trailingThresholds, none⟩
  plan.validate sha256
  return plan

def withTimeExit (plan : QuoteValidatedResearchReplayPlan P) (timeExit : ClosedCanonicalBarTimeExit) :
    Except ReplayError (QuoteValidatedResearchReplayPlan P) := do
  let plan := { plan with timeExit := some timeExit }
  plan.validate sha256
  return plan

end QuoteValidatedResearchReplayPlan

def CanonicalBarSignalResearchDecision.new (signalBarOpenUnixMs nextCanonicalBarOpenUnixMs : Int)
    (direction : ResearchPositionDirection) (stopPrice targetPrice : P) :
    Except ReplayError (CanonicalBarSignalResearchDecision P) := do
  let decision : CanonicalBarSignalResearchDecision P :=
    ⟨signalBarOpenUnixMs, nextCanonicalBarOpenUnixMs, direction, stopPrice, targetPrice⟩
  decision.validate
  return decision

def ClosedCanonicalBarTrailingThreshold.new (sourceBarOpenUnixMs effectiveAtNextBarOpenUnixMs : Int)
    (direction : ResearchPositionDirection) (thresholdPrice : P) :
    Except ReplayError (ClosedCanonicalBarTrailingThreshold P) := do
  let threshold : ClosedCanonicalBarTrailingThreshold P :=
    ⟨sourceBarOpenUnixMs, effectiveAtNextBarOpenUnixMs, direction, thresholdPrice⟩
  threshold.validate
  return threshold

def ClosedCanonicalBarTimeExit.new (sourceBarOpenUnixMs effectiveAtNextBarOpenUnixMs : Int) :
    Except ReplayError ClosedCanonicalBarTimeExit := do
  let exit : ClosedCanonicalBarTimeExit := ⟨sourceBarOpenUnixMs, effectiveAtNextBarOpenUnixMs⟩
  exit.validate
  return exit

end Neoethos
