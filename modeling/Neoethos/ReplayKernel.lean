import Mathlib
import Neoethos.ReplaySelect

namespace Neoethos

variable {P : Type} [Ring P] [LinearOrder P]

def modeledPrice (referencePrice : P) (direction : ResearchPositionDirection) (isEntry : Bool)
    (assumptions : VersionedLatencySlippagePolicy P) : Except ReplayError P := do
  let adjustment := assumptions.slippagePipsPerFill * assumptions.pipSize
  let adverseSign : P := match direction, isEntry with
    | .long, true | .short, false => 1
    | .short, true | .long, false => -1
  let modeled := referencePrice + adverseSign * adjustment
  refuseIf (modeled ≤ 0) .invalidPolicy "modeled latency/slippage price is not finite and positive"
  return modeled

def modeledEntryWithinBounds (decision : CanonicalBarSignalResearchDecision P)
    (modeledEntryPrice : P) : Bool :=
  match decision.direction with
  | .long => decision.stopPrice < modeledEntryPrice && modeledEntryPrice < decision.targetPrice
  | .short => modeledEntryPrice < decision.stopPrice && decision.targetPrice < modeledEntryPrice

/-- The exit half of a position: reference, reason, modeled price and slippage of the position. -/
def modeledExit (decision : CanonicalBarSignalResearchDecision P)
    (assumptions : VersionedLatencySlippagePolicy P) :
    Option (ExactHistoricalQuote P × QuoteValidatedResearchExitReason) →
      Except ReplayError (Option (QuoteValidatedPriceReference P) ×
        Option QuoteValidatedResearchExitReason × Option P × P)
  | some (exitQuote, exitReason) => do
    let exitReference := QuoteValidatedPriceReference.fromQuote decision.direction.exitSide exitQuote
    let modeledExitPrice ← modeledPrice exitReference.price decision.direction false assumptions
    return (some exitReference, some exitReason, some modeledExitPrice,
      assumptions.slippagePipsPerFill * 2)
  | none => .ok (none, none, none, assumptions.slippagePipsPerFill)

/-- The position of one available entry, in the loop of `replay_with_authority_v1`. -/
def replayPosition (plan : QuoteValidatedResearchReplayPlan P)
    (evidence : CompleteBidAskQuoteReplayEvidence P) (decision : CanonicalBarSignalResearchDecision P)
    (selectedEntry : SelectedEntryBook P) : Except ReplayError (QuoteValidatedResearchPosition P) := do
  let entryBook : QuoteValidatedEntryBook P :=
    ⟨.fromQuote .bid selectedEntry.bidQuote, .fromQuote .ask selectedEntry.askQuote⟩
  let entryReference :=
    QuoteValidatedPriceReference.fromQuote decision.direction.entrySide selectedEntry.entryQuote
  let modeledEntryPrice ← modeledPrice entryReference.price decision.direction true
    plan.policy.latencySlippage
  refuseIf (¬modeledEntryWithinBounds decision modeledEntryPrice) .modeledEntryOutsideDecisionBounds
    "modeled entry is not strictly inside the decision stop-target interval"
  let selectedExit ← selectExit decision selectedEntry.entryQuote evidence plan.policy
    plan.trailingThresholds plan.timeExit
  let (exitReference, exitReason, modeledExitPrice, slippagePipsCharged) ←
    modeledExit decision plan.policy.latencySlippage selectedExit
  return ⟨decision.direction, entryBook, entryReference, exitReference, exitReason,
    modeledEntryPrice, modeledExitPrice, slippagePipsCharged, 0⟩

/-- The decision loop of `replay_with_authority_v1` with its two result vectors. -/
def replayDecisions (plan : QuoteValidatedResearchReplayPlan P)
    (evidence : CompleteBidAskQuoteReplayEvidence P)
    (positions : List (QuoteValidatedResearchPosition P))
    (entryUnavailable : List QuoteValidatedResearchNonEntry) :
    List (CanonicalBarSignalResearchDecision P) →
      Except ReplayError
        (List (QuoteValidatedResearchPosition P) × List QuoteValidatedResearchNonEntry)
  | [] => .ok (positions, entryUnavailable)
  | decision :: decisions => do
    match ← selectEntry decision evidence plan.policy with
    | .available selectedEntry =>
      let position ← replayPosition plan evidence decision selectedEntry
      replayDecisions plan evidence (positions ++ [position]) entryUnavailable decisions
    | .unavailable unavailable =>
      replayDecisions plan evidence positions (entryUnavailable ++ [unavailable]) decisions

variable (sha256 : HashPayload P → String)

def validateAuthority : QuoteValidatedResearchAuthority → Option String → Except ReplayError Unit
  | .historicalBidAskQuotesOnly, some digest =>
    validateDigest "historical acquisition link manifest" digest
  | .unverifiedCallerSuppliedQuotes, none => .ok ()
  | _, _ => .error ⟨.bindingMismatch,
      "quote replay authority differs from its sealed acquisition-link evidence"⟩

def replayWithAuthority (plan : QuoteValidatedResearchReplayPlan P)
    (evidence : CompleteBidAskQuoteReplayEvidence P) (authority : QuoteValidatedResearchAuthority)
    (historicalAcquisitionLinkManifestSha256 : Option String) :
    Except ReplayError (QuoteValidatedResearchLedger P) := do
  plan.validate sha256
  validateAuthority authority historicalAcquisitionLinkManifestSha256
  refuseIf (plan.binding ≠ evidence.binding) .bindingMismatch
    "replay plan and complete quote evidence have different exact bindings"
  let (positions, entryUnavailable) ← replayDecisions plan evidence [] [] plan.decisions
  let scope := plan.binding.replayScope
  let ledgerSha256 := sha256 (.researchLedger plan.binding.identitySha256 evidence.contentSha256
    plan.policy.identitySha256 positions entryUnavailable authority
    historicalAcquisitionLinkManifestSha256 .notPromotionEligible)
  let receipt : QuoteValidatedResearchReplayReceipt :=
    { canonicalSearchInputReceiptSha256 := plan.binding.canonicalSearchInputReceiptSha256
      canonicalSignalPlanSha256 := plan.binding.canonicalSignalPlanSha256
      accountId := plan.binding.accountId
      symbolId := plan.binding.symbolId
      symbolName := plan.binding.symbolName
      lockedEvaluationWindow := scope.lockedEvaluationWindow
      requiredQuoteCoverageWindow := scope.requiredQuoteCoverageWindow
      seedPaddingMs := scope.seedPaddingMs
      exitPaddingMs := scope.exitPaddingMs
      reviewedReplayRuleIdentitySha256 := plan.binding.reviewedReplayRule.identitySha256
      quoteEvidenceManifestSha256 := plan.binding.quoteEvidenceManifestSha256
      latencySlippagePolicySha256 := plan.policy.latencySlippage.identitySha256
      replayPolicySha256 := plan.policy.identitySha256
      authority
      historicalAcquisitionLinkManifestSha256
      ledgerSha256 }
  return ⟨receipt, positions, entryUnavailable, authority, .notPromotionEligible⟩

/-- `replay_quote_validated_research_v1`: quotes that a caller supplies are checked first. -/
def replayQuoteValidatedResearch (plan : QuoteValidatedResearchReplayPlan P)
    (evidence : CompleteBidAskQuoteReplayEvidence P) :
    Except ReplayError (QuoteValidatedResearchLedger P) := do
  plan.validate sha256
  evidence.validate sha256
  replayWithAuthority sha256 plan evidence .unverifiedCallerSuppliedQuotes none

/-- The opaque seal: its evidence has passed the checks of `CompleteBidAskQuoteReplayEvidenceV1::new`. -/
structure SealedHistoricalBidAskQuoteReplayEvidence where
  evidence : CompleteBidAskQuoteReplayEvidence P
  acquisitionLinkManifestSha256 : String
  complete : evidence.validatePayload sha256 = .ok ()

structure SealedHistoricalQuoteValidatedResearchLedger (P : Type) where
  ledger : QuoteValidatedResearchLedger P
  executedDecision : CanonicalBarSignalResearchDecision P
  executedTimeExit : Option ClosedCanonicalBarTimeExit
  executedPlanSha256 : String
  deriving DecidableEq

def QuoteValidatedResearchReplayPlan.identitySha256 (plan : QuoteValidatedResearchReplayPlan P) :
    Except ReplayError String := do
  plan.validate sha256
  return sha256 (.executedDecisionPlan plan)

variable {sha256}

def replaySealedQuoteValidatedResearch (plan : QuoteValidatedResearchReplayPlan P)
    (evidence : SealedHistoricalBidAskQuoteReplayEvidence sha256) :
    Except ReplayError (SealedHistoricalQuoteValidatedResearchLedger P) := do
  let ledger ← replayWithAuthority sha256 plan evidence.evidence .historicalBidAskQuotesOnly
    (some evidence.acquisitionLinkManifestSha256)
  let executedDecision ← plan.soleDecision
  let executedPlanSha256 ← plan.identitySha256 sha256
  return ⟨ledger, executedDecision, plan.timeExit, executedPlanSha256⟩

/-- When the previous replay of a lane was over: its exit, or the deadline of its entry. -/
def completedAt (previous : SealedHistoricalQuoteValidatedResearchLedger P) : Except ReplayError Int :=
  match previous.ledger.positions, previous.ledger.entryUnavailable with
  | [position], [] => do
    let exitReference ← okOrElse position.exitReference .openPositionBeforeNextDecision
      "previous modeled position is still open before the next decision"
    return exitReference.timestampUnixMs
  | [], [unavailable] => .ok unavailable.deadlineUnixMs
  | _, _ => .error ⟨.invalidDecision,
      "previous replay did not produce exactly one decision outcome"⟩

/-- The lane check in front of each replay; the first plan has no previous ledger. -/
def admitNextDecision (ledgers : List (SealedHistoricalQuoteValidatedResearchLedger P))
    (plan : QuoteValidatedResearchReplayPlan P) : Except ReplayError Unit :=
  match ledgers.getLast? with
  | none => .ok ()
  | some previous => do
    let completed ← completedAt previous
    let decision ← plan.soleDecision
    refuseIf (decision.nextCanonicalBarOpenUnixMs ≤ completed) .overlappingDecisionWindow
      "next decision overlaps the prior position or pending entry, or has ambiguous same-time order"

def replaySealedFrom (evidence : SealedHistoricalBidAskQuoteReplayEvidence sha256)
    (ledgers : List (SealedHistoricalQuoteValidatedResearchLedger P)) :
    List (QuoteValidatedResearchReplayPlan P) →
      Except ReplayError (List (SealedHistoricalQuoteValidatedResearchLedger P))
  | [] => .ok ledgers
  | plan :: plans => do
    admitNextDecision ledgers plan
    let ledger ← replaySealedQuoteValidatedResearch plan evidence
    replaySealedFrom evidence (ledgers ++ [ledger]) plans

def replaySealedQuoteValidatedDecisionSequence (plans : List (QuoteValidatedResearchReplayPlan P))
    (evidence : SealedHistoricalBidAskQuoteReplayEvidence sha256) :
    Except ReplayError (List (SealedHistoricalQuoteValidatedResearchLedger P)) := do
  QuoteValidatedResearchReplayPlan.validateOrderedSequence sha256 plans
  replaySealedFrom evidence [] plans

end Neoethos
