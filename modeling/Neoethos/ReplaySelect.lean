import Neoethos.PartitionPoint
import Neoethos.ReplayContract

namespace Neoethos

open Slice (partitionPoint)

variable {P : Type} [Ring P] [LinearOrder P]

def ResearchPositionDirection.entrySide : ResearchPositionDirection → QuoteSide
  | .long => .ask
  | .short => .bid

def ResearchPositionDirection.exitSide : ResearchPositionDirection → QuoteSide
  | .long => .bid
  | .short => .ask

def CompleteBidAskQuoteReplayEvidence.quotes (evidence : CompleteBidAskQuoteReplayEvidence P) :
    QuoteSide → List (ExactHistoricalQuote P)
  | .bid => evidence.bid.quoteRecords
  | .ask => evidence.ask.quoteRecords

structure SelectedEntryBook (P : Type) where
  entryQuote : ExactHistoricalQuote P
  bidQuote : ExactHistoricalQuote P
  askQuote : ExactHistoricalQuote P
  deriving DecidableEq

inductive EntrySelection (P : Type)
  | available (entry : SelectedEntryBook P)
  | unavailable (nonEntry : QuoteValidatedResearchNonEntry)
  deriving DecidableEq

def sidePrecedes (first second : QuoteSide) : SameTimestampCrossSideOrder → Bool
  | .bidBeforeAsk => first = .bid && second = .ask
  | .askBeforeBid => first = .ask && second = .bid

/-- The last source-ordered update of the opposite side that the entry sees. -/
def latestBookQuoteAtEntry (oppositeSide entrySide : QuoteSide) (quotes : List (ExactHistoricalQuote P))
    (candidateTimestampUnixMs : Int) (policy : QuoteValidatedResearchReplayPolicy P) :
    Except ReplayError (Option (ExactHistoricalQuote P)) :=
  let firstAt := partitionPoint (fun quote => quote.timestampUnixMs < candidateTimestampUnixMs) quotes
  let afterAt := partitionPoint (fun quote => quote.timestampUnixMs ≤ candidateTimestampUnixMs) quotes
  let before := Slice.before quotes firstAt
  if firstAt = afterAt then .ok before
  else
    match policy.reviewedSameTimestampMergeRule with
    | some rule =>
      if sidePrecedes oppositeSide entrySide rule.sideOrder then .ok (Slice.before quotes afterAt)
      else .ok before
    | none => .error ⟨.ambiguousSameTimestampCrossSideOutcome,
        "unreviewed same-timestamp opposite-side update makes the entry book ambiguous"⟩

def nonEntry (decision : CanonicalBarSignalResearchDecision P) (deadline : Int)
    (sawStaleCandidate : Bool) : QuoteValidatedResearchNonEntry :=
  ⟨decision.nextCanonicalBarOpenUnixMs, deadline,
    if sawStaleCandidate then .staleSynchronizedBook else .noEligibleQuoteWithinEntryWait⟩

/-- The book of an entry at `candidate`, refused when it is crossed. -/
def entryBookAt (direction : ResearchPositionDirection) (candidate bookQuote : ExactHistoricalQuote P) :
    Except ReplayError (SelectedEntryBook P) := do
  let (bidQuote, askQuote) := match direction with
    | .long => (bookQuote, candidate)
    | .short => (candidate, bookQuote)
  refuseIf (askQuote.price < bidQuote.price) .crossedSynchronizedBook
    "synchronized entry evidence has Bid above Ask"
  return ⟨candidate, bidQuote, askQuote⟩

/-- The opposite quote that a candidate may enter against, if it is not stale. -/
def freshBookQuote (policy : QuoteValidatedResearchReplayPolicy P) (candidate : ExactHistoricalQuote P)
    (bookQuote : Option (ExactHistoricalQuote P)) : Option (ExactHistoricalQuote P) :=
  bookQuote.filter fun bookQuote =>
    candidate.timestampUnixMs - bookQuote.timestampUnixMs ≤ policy.maxQuoteStalenessMs

/-- The candidate loop of `select_entry`. -/
def selectEntryFrom (decision : CanonicalBarSignalResearchDecision P)
    (policy : QuoteValidatedResearchReplayPolicy P) (oppositeQuotes : List (ExactHistoricalQuote P))
    (deadline : Int) :
    Bool → List (ExactHistoricalQuote P) → Except ReplayError (EntrySelection P)
  | sawStaleCandidate, [] => .ok (.unavailable (nonEntry decision deadline sawStaleCandidate))
  | sawStaleCandidate, candidate :: candidates =>
    if deadline < candidate.timestampUnixMs then
      .ok (.unavailable (nonEntry decision deadline sawStaleCandidate))
    else do
      let bookQuote ← latestBookQuoteAtEntry decision.direction.exitSide decision.direction.entrySide
        oppositeQuotes candidate.timestampUnixMs policy
      match freshBookQuote policy candidate bookQuote with
      | some bookQuote =>
        let entry ← entryBookAt decision.direction candidate bookQuote
        return .available entry
      | none => selectEntryFrom decision policy oppositeQuotes deadline true candidates

def selectEntry (decision : CanonicalBarSignalResearchDecision P)
    (evidence : CompleteBidAskQuoteReplayEvidence P) (policy : QuoteValidatedResearchReplayPolicy P) :
    Except ReplayError (EntrySelection P) := do
  let entryQuotes := evidence.quotes decision.direction.entrySide
  let oppositeQuotes := evidence.quotes decision.direction.exitSide
  let eligibleAt ← okOrElse
    (I64.checkedAdd decision.nextCanonicalBarOpenUnixMs policy.latencySlippage.entryLatencyMs)
    .invalidPolicy "entry latency overflows the decision timestamp"
  let deadline ← okOrElse
    (I64.checkedAdd decision.nextCanonicalBarOpenUnixMs policy.maxEntryWaitMs)
    .invalidPolicy "entry wait overflows the decision timestamp"
  let firstEligible := partitionPoint (fun quote => quote.timestampUnixMs < eligibleAt) entryQuotes
  selectEntryFrom decision policy oppositeQuotes deadline false (entryQuotes.drop firstEligible)

def effectiveStopPrice (decision : CanonicalBarSignalResearchDecision P)
    (thresholds : List (ClosedCanonicalBarTrailingThreshold P)) (timestampUnixMs : Int) :
    P × QuoteValidatedResearchExitReason :=
  let effectiveCount := partitionPoint
    (fun threshold => threshold.effectiveAtNextBarOpenUnixMs ≤ timestampUnixMs) thresholds
  match (Slice.before thresholds effectiveCount).filter fun threshold =>
      match decision.direction with
      | .long => decision.stopPrice < threshold.thresholdPrice
      | .short => threshold.thresholdPrice < decision.stopPrice with
  | some threshold => (threshold.thresholdPrice, .trailingStop)
  | none => (decision.stopPrice, .stop)

def thresholdReason (decision : CanonicalBarSignalResearchDecision P)
    (thresholds : List (ClosedCanonicalBarTrailingThreshold P)) (quote : ExactHistoricalQuote P) :
    Option QuoteValidatedResearchExitReason :=
  let (stopPrice, stopReason) := effectiveStopPrice decision thresholds quote.timestampUnixMs
  match decision.direction with
  | .long =>
    if quote.price ≤ stopPrice then some stopReason
    else if decision.targetPrice ≤ quote.price then some .target
    else none
  | .short =>
    if stopPrice ≤ quote.price then some stopReason
    else if quote.price ≤ decision.targetPrice then some .target
    else none

def sameTimestampExitOccursAfterEntry (entrySide exitSide : QuoteSide)
    (policy : QuoteValidatedResearchReplayPolicy P) : Option Bool :=
  policy.reviewedSameTimestampMergeRule.map fun rule => sidePrecedes entrySide exitSide rule.sideOrder

def selectExitReference (exitQuotes : List (ExactHistoricalQuote P)) (firstIndex : Nat)
    (triggerAtUnixMs : Int) (reason : QuoteValidatedResearchExitReason)
    (policy : QuoteValidatedResearchReplayPolicy P) :
    Except ReplayError (Option (ExactHistoricalQuote P × QuoteValidatedResearchExitReason)) := do
  let eligibleAt ← okOrElse (I64.checkedAdd triggerAtUnixMs policy.latencySlippage.exitLatencyMs)
    .invalidPolicy "exit latency overflows the trigger timestamp"
  let deadline ← okOrElse (I64.checkedAdd triggerAtUnixMs policy.maxExitWaitMs)
    .invalidPolicy "exit wait overflows the trigger timestamp"
  let afterTrigger := exitQuotes.drop firstIndex
  let executionIndex := partitionPoint (fun quote => quote.timestampUnixMs < eligibleAt) afterTrigger
  let reference ← okOrElse
    (afterTrigger[executionIndex]?.filter fun quote => quote.timestampUnixMs ≤ deadline)
    .exitReferenceUnavailable
    "complete quote evidence has no exit reference within the explicit wait"
  return some (reference, reason)

/-- The body of the trigger loop: the time and the reason that `triggerQuote` sets off, if any. A
timer that a later quote has passed goes off at its own time. -/
def exitTrigger (decision : CanonicalBarSignalResearchDecision P) (entryQuote : ExactHistoricalQuote P)
    (policy : QuoteValidatedResearchReplayPolicy P)
    (thresholds : List (ClosedCanonicalBarTrailingThreshold P)) (timerAt : Option Int)
    (triggerQuote : ExactHistoricalQuote P) :
    Except ReplayError (Option (Int × QuoteValidatedResearchExitReason)) :=
  match timerAt.filter fun timer => timer < triggerQuote.timestampUnixMs with
  | some timer => .ok (some (timer, .maxHold))
  | none =>
    let priceReason := thresholdReason decision thresholds triggerQuote
    let reason := priceReason.or
      (if timerAt = some triggerQuote.timestampUnixMs then some .maxHold else none)
    let triggered := reason.map fun reason => (triggerQuote.timestampUnixMs, reason)
    if priceReason.isSome ∧ triggerQuote.timestampUnixMs = entryQuote.timestampUnixMs then
      match sameTimestampExitOccursAfterEntry decision.direction.entrySide decision.direction.exitSide
          policy with
      | some true => .ok triggered
      | some false => .ok none
      | none => .error ⟨.ambiguousSameTimestampCrossSideOutcome,
          "same-timestamp side order changes the modeled position outcome"⟩
    else .ok triggered

/-- The trigger loop of `select_exit`; `triggerIndex` is where the remaining quotes start. -/
def selectExitFrom (decision : CanonicalBarSignalResearchDecision P) (entryQuote : ExactHistoricalQuote P)
    (policy : QuoteValidatedResearchReplayPolicy P)
    (thresholds : List (ClosedCanonicalBarTrailingThreshold P)) (timerAt : Option Int)
    (exitQuotes : List (ExactHistoricalQuote P)) :
    Nat → List (ExactHistoricalQuote P) →
      Except ReplayError (Option (ExactHistoricalQuote P × QuoteValidatedResearchExitReason))
  | _, [] =>
    match timerAt with
    | some timer => selectExitReference exitQuotes exitQuotes.length timer .maxHold policy
    | none => .ok none
  | triggerIndex, triggerQuote :: triggerQuotes => do
    match ← exitTrigger decision entryQuote policy thresholds timerAt triggerQuote with
    | some (triggerAt, reason) =>
      selectExitReference exitQuotes triggerIndex triggerAt reason policy
    | none =>
      selectExitFrom decision entryQuote policy thresholds timerAt exitQuotes (triggerIndex + 1)
        triggerQuotes

def selectExit (decision : CanonicalBarSignalResearchDecision P) (entryQuote : ExactHistoricalQuote P)
    (evidence : CompleteBidAskQuoteReplayEvidence P) (policy : QuoteValidatedResearchReplayPolicy P)
    (thresholds : List (ClosedCanonicalBarTrailingThreshold P))
    (timeExit : Option ClosedCanonicalBarTimeExit) :
    Except ReplayError (Option (ExactHistoricalQuote P × QuoteValidatedResearchExitReason)) := do
  let exitQuotes := evidence.quotes decision.direction.exitSide
  let timerAt := timeExit.map (·.effectiveAtNextBarOpenUnixMs)
  refuseIf (timerAt.any fun timer => timer ≤ entryQuote.timestampUnixMs) .invalidDecision
    "max-hold trigger does not follow the modeled entry"
  let firstPossibleTrigger := partitionPoint
    (fun quote => quote.timestampUnixMs < entryQuote.timestampUnixMs) exitQuotes
  selectExitFrom decision entryQuote policy thresholds timerAt exitQuotes firstPossibleTrigger
    (exitQuotes.drop firstPossibleTrigger)

end Neoethos
