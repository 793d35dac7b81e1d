import Mathlib.Data.Prod.Lex
import Mathlib.Order.Lex
import Neoethos.I64

/-! The records of the quote-validated research replay. A price is an element of `P`, on which
arithmetic is exact, so the source's checks for finite numbers always pass. -/

namespace Neoethos

inductive ReplayErrorCode
  | invalidContract
  | invalidSha256
  | invalidWindow
  | invalidQuote
  | invalidQuoteOrder
  | invalidPolicy
  | invalidDecision
  | missingZeroRowWindowProof
  | incompleteCoverage
  | artifactDigestMismatch
  | bindingMismatch
  | requiredCoverageWindowMismatch
  | ambiguousSameTimestampCrossSideOutcome
  | crossedSynchronizedBook
  | modeledEntryOutsideDecisionBounds
  | exitReferenceUnavailable
  | overlappingDecisionWindow
  | openPositionBeforeNextDecision
  deriving DecidableEq

structure ReplayError where
  code : ReplayErrorCode
  detail : String
  deriving DecidableEq

inductive QuoteSide
  | bid
  | ask
  deriving DecidableEq

structure ExactQuoteSourceOrdinal where
  requestChunkIndex : Nat
  responsePageIndex : Nat
  rowIndex : Nat
  deriving DecidableEq

def ExactQuoteSourceOrdinal.key (o : ExactQuoteSourceOrdinal) : ℕ ×ₗ ℕ ×ₗ ℕ :=
  toLex (o.requestChunkIndex, toLex (o.responsePageIndex, o.rowIndex))

structure ExactHistoricalQuote (P : Type) where
  timestampUnixMs : Int
  price : P
  sourceOrdinal : ExactQuoteSourceOrdinal
  deriving DecidableEq

def ExactHistoricalQuote.key {P : Type} (q : ExactHistoricalQuote P) : ℤ ×ₗ ℕ ×ₗ ℕ ×ₗ ℕ :=
  toLex (q.timestampUnixMs, q.sourceOrdinal.key)

structure LockedFinalistOosReplayScope where
  lockedEvaluationWindow : EvidenceWindow
  requiredQuoteCoverageWindow : EvidenceWindow
  seedPaddingMs : Int
  exitPaddingMs : Int
  deriving DecidableEq

structure ReviewedQuoteReplayRuleIdentity where
  identitySha256 : String
  reviewRecordSha256 : String
  protocolEvidenceSha256 : String
  brokerObservationSha256 : String
  deriving DecidableEq

structure ReplayBindingPayload where
  canonicalSearchInputReceiptSha256 : String
  canonicalSignalPlanSha256 : String
  accountId : Int
  symbolId : Int
  symbolName : String
  replayScope : LockedFinalistOosReplayScope
  quoteEvidenceManifestSha256 : String
  deriving DecidableEq

structure QuoteValidatedResearchReplayBinding extends ReplayBindingPayload where
  reviewedReplayRule : ReviewedQuoteReplayRuleIdentity
  identitySha256 : String
  deriving DecidableEq

structure ExactZeroRowQuoteWindowProof where
  side : QuoteSide
  accountId : Int
  symbolId : Int
  requestedWindow : EvidenceWindow
  rawResponseSha256 : String
  decodedRecordsSha256 : String
  rowCount : Nat
  responseHasMore : Bool
  deriving DecidableEq

structure QuoteSideCoveragePayload (P : Type) where
  side : QuoteSide
  accountId : Int
  symbolId : Int
  requestedWindow : EvidenceWindow
  rawResponseSha256 : String
  decodedRecordsSha256 : String
  quoteRecords : List (ExactHistoricalQuote P)
  terminalResponseHasMore : Bool
  zeroRowProof : Option ExactZeroRowQuoteWindowProof
  deriving DecidableEq

structure CompleteQuoteSideCoverage (P : Type) extends QuoteSideCoveragePayload P where
  contentSha256 : String
  deriving DecidableEq

structure CompleteBidAskQuoteReplayEvidence (P : Type) where
  binding : QuoteValidatedResearchReplayBinding
  bid : CompleteQuoteSideCoverage P
  ask : CompleteQuoteSideCoverage P
  contentSha256 : String
  deriving DecidableEq

inductive ResearchPositionDirection
  | long
  | short
  deriving DecidableEq

structure CanonicalBarSignalResearchDecision (P : Type) where
  signalBarOpenUnixMs : Int
  nextCanonicalBarOpenUnixMs : Int
  direction : ResearchPositionDirection
  stopPrice : P
  targetPrice : P
  deriving DecidableEq

structure ClosedCanonicalBarTrailingThreshold (P : Type) where
  sourceBarOpenUnixMs : Int
  effectiveAtNextBarOpenUnixMs : Int
  direction : ResearchPositionDirection
  thresholdPrice : P
  deriving DecidableEq

structure LatencySlippagePayload (P : Type) where
  policyVersion : String
  entryLatencyMs : Int
  exitLatencyMs : Int
  slippagePipsPerFill : P
  pipSize : P
  deriving DecidableEq

structure VersionedLatencySlippagePolicy (P : Type) extends LatencySlippagePayload P where
  identitySha256 : String
  deriving DecidableEq

inductive SameTimestampCrossSideOrder
  | bidBeforeAsk
  | askBeforeBid
  deriving DecidableEq

structure ReviewedSameTimestampMergeRule where
  reviewedReplayRule : ReviewedQuoteReplayRuleIdentity
  sideOrder : SameTimestampCrossSideOrder
  deriving DecidableEq

structure QuoteValidatedResearchReplayPolicy (P : Type) where
  maxEntryWaitMs : Int
  maxQuoteStalenessMs : Int
  maxExitWaitMs : Int
  latencySlippage : VersionedLatencySlippagePolicy P
  reviewedSameTimestampMergeRule : Option ReviewedSameTimestampMergeRule
  identitySha256 : String
  deriving DecidableEq

structure ClosedCanonicalBarTimeExit where
  sourceBarOpenUnixMs : Int
  effectiveAtNextBarOpenUnixMs : Int
  deriving DecidableEq

structure QuoteValidatedResearchReplayPlan (P : Type) where
  binding : QuoteValidatedResearchReplayBinding
  policy : QuoteValidatedResearchReplayPolicy P
  decisions : List (CanonicalBarSignalResearchDecision P)
  trailingThresholds : List (ClosedCanonicalBarTrailingThreshold P)
  timeExit : Option ClosedCanonicalBarTimeExit
  deriving DecidableEq

inductive QuoteValidatedResearchExitReason
  | stop
  | target
  | trailingStop
  | maxHold
  deriving DecidableEq

inductive QuoteValidatedResearchNonEntryReason
  | noEligibleQuoteWithinEntryWait
  | staleSynchronizedBook
  deriving DecidableEq

inductive QuoteValidatedResearchPromotionEligibility
  | notPromotionEligible
  deriving DecidableEq

inductive QuoteValidatedResearchAuthority
  | unverifiedCallerSuppliedQuotes
  | historicalBidAskQuotesOnly
  deriving DecidableEq

structure QuoteValidatedPriceReference (P : Type) where
  side : QuoteSide
  timestampUnixMs : Int
  price : P
  deriving DecidableEq

def QuoteValidatedPriceReference.fromQuote {P : Type} (side : QuoteSide)
    (quote : ExactHistoricalQuote P) : QuoteValidatedPriceReference P :=
  ⟨side, quote.timestampUnixMs, quote.price⟩

structure QuoteValidatedEntryBook (P : Type) where
  bidReference : QuoteValidatedPriceReference P
  askReference : QuoteValidatedPriceReference P
  deriving DecidableEq

structure QuoteValidatedResearchPosition (P : Type) where
  direction : ResearchPositionDirection
  entryBook : QuoteValidatedEntryBook P
  entryReference : QuoteValidatedPriceReference P
  exitReference : Option (QuoteValidatedPriceReference P)
  exitReason : Option QuoteValidatedResearchExitReason
  modeledEntryPrice : P
  modeledExitPrice : Option P
  slippagePipsCharged : P
  additionalSpreadPipsCharged : P
  deriving DecidableEq

structure QuoteValidatedResearchNonEntry where
  decisionAtUnixMs : Int
  deadlineUnixMs : Int
  reason : QuoteValidatedResearchNonEntryReason
  deriving DecidableEq

/-- What the source hashes: each constructor is one domain label, its arguments are the payload
that is encoded behind the label. -/
inductive HashPayload (P : Type)
  | quoteReplayRule (reviewRecord protocolEvidence brokerObservation : String)
  | quoteReplayBinding (payload : ReplayBindingPayload) (reviewedReplayRule : String)
  | completeQuoteSideCoverage (payload : QuoteSideCoveragePayload P)
  | completeBidAskQuoteEvidence (binding bid ask : String)
  | latencySlippagePolicy (payload : LatencySlippagePayload P)
  | quoteValidatedReplayPolicy (maxEntryWaitMs maxQuoteStalenessMs maxExitWaitMs : Int)
      (latencySlippage : String) (mergeRule : Option ReviewedSameTimestampMergeRule)
  | executedDecisionPlan (plan : QuoteValidatedResearchReplayPlan P)
  | researchLedger (binding evidence policy : String)
      (positions : List (QuoteValidatedResearchPosition P))
      (entryUnavailable : List QuoteValidatedResearchNonEntry)
      (authority : QuoteValidatedResearchAuthority) (acquisitionLinkManifest : Option String)
      (promotionEligibility : QuoteValidatedResearchPromotionEligibility)
  deriving DecidableEq

structure QuoteValidatedResearchReplayReceipt where
  canonicalSearchInputReceiptSha256 : String
  canonicalSignalPlanSha256 : String
  accountId : Int
  symbolId : Int
  symbolName : String
  lockedEvaluationWindow : EvidenceWindow
  requiredQuoteCoverageWindow : EvidenceWindow
  seedPaddingMs : Int
  exitPaddingMs : Int
  reviewedReplayRuleIdentitySha256 : String
  quoteEvidenceManifestSha256 : String
  latencySlippagePolicySha256 : String
  replayPolicySha256 : String
  authority : QuoteValidatedResearchAuthority
  historicalAcquisitionLinkManifestSha256 : Option String
  ledgerSha256 : String
  deriving DecidableEq

structure QuoteValidatedResearchLedger (P : Type) where
  receipt : QuoteValidatedResearchReplayReceipt
  positions : List (QuoteValidatedResearchPosition P)
  entryUnavailable : List QuoteValidatedResearchNonEntry
  authority : QuoteValidatedResearchAuthority
  promotionEligibility : QuoteValidatedResearchPromotionEligibility
  deriving DecidableEq

end Neoethos
