import Mathlib.Algebra.Ring.Defs
import Neoethos.Fallible
import Neoethos.ReplayRecords

/-! What the replay accepts: the checks of `execution_replay_v1.rs`, in the order of the source.
The hash function is a parameter, `sha256`. -/

namespace Neoethos

def refuseIf (bad : Prop) [Decidable bad] (code : ReplayErrorCode) (detail : String) :
    Except ReplayError Unit :=
  if bad then .error ⟨code, detail⟩ else .ok ()

@[simp] theorem refuseIf_ok {bad : Prop} [Decidable bad] {code : ReplayErrorCode} {detail : String} :
    refuseIf bad code detail = .ok () ↔ ¬bad := by
  unfold refuseIf
  split <;> simp [*]

/-- `Option::ok_or_else` with a replay error. -/
def okOrElse {α : Type} (x : Option α) (code : ReplayErrorCode) (detail : String) :
    Except ReplayError α :=
  match x with
  | some a => .ok a
  | none => .error ⟨code, detail⟩

@[simp] theorem okOrElse_ok {α : Type} {x : Option α} {code : ReplayErrorCode} {detail : String}
    {a : α} : okOrElse x code detail = .ok a ↔ x = some a := by
  cases x <;> simp [okOrElse]

def isWhiteSpace (c : Char) : Bool :=
  (0x9 ≤ c.toNat && c.toNat ≤ 0xd) || (0x2000 ≤ c.toNat && c.toNat ≤ 0x200a) ||
    [0x20, 0x85, 0xa0, 0x1680, 0x2028, 0x2029, 0x202f, 0x205f, 0x3000].contains c.toNat

def trimIsEmpty (text : String) : Bool := text.toList.all isWhiteSpace

def isLowercaseHexByte (byte : UInt8) : Bool :=
  (0x30 ≤ byte.toNat && byte.toNat ≤ 0x39) || (0x61 ≤ byte.toNat && byte.toNat ≤ 0x66)

/-- `validate_sha256_hex`; the error is the text that the contract error displays. -/
def validateSha256Hex (field value : String) : Except String Unit :=
  let bytes := value.toUTF8.data.toList
  if bytes.length ≠ 64 ∨ ¬bytes.all isLowercaseHexByte then
    .error s!"broker financial truth contract: {field} must be exactly 64 lowercase hexadecimal characters"
  else .ok ()

def validateDigest (label digest : String) : Except ReplayError Unit :=
  (validateSha256Hex label digest).mapError (⟨.invalidSha256, ·⟩)

variable {P : Type} [Ring P] [LinearOrder P] (sha256 : HashPayload P → String)

def ReviewedQuoteReplayRuleIdentity.new (reviewRecord protocolEvidence brokerObservation : String) :
    Except String ReviewedQuoteReplayRuleIdentity := do
  validateSha256Hex "replay-rule review record" reviewRecord
  validateSha256Hex "replay-rule protocol evidence" protocolEvidence
  validateSha256Hex "replay-rule broker observation evidence" brokerObservation
  return ⟨sha256 (.quoteReplayRule reviewRecord protocolEvidence brokerObservation), reviewRecord,
    protocolEvidence, brokerObservation⟩

def ReviewedQuoteReplayRuleIdentity.validateExact (rule : ReviewedQuoteReplayRuleIdentity) :
    Except String Unit := do
  let recomputed ← ReviewedQuoteReplayRuleIdentity.new sha256 rule.reviewRecordSha256
    rule.protocolEvidenceSha256 rule.brokerObservationSha256
  if recomputed.identitySha256 ≠ rule.identitySha256 then
    .error "broker financial truth contract: reviewed quote replay-rule identity does not match its exact inputs"
  else .ok ()

def ExactHistoricalQuote.validate (quote : ExactHistoricalQuote P) : Except ReplayError Unit :=
  refuseIf (quote.timestampUnixMs < 0 ∨ quote.price ≤ 0) .invalidQuote
    "historical quote timestamp and price must be finite positive values"

def LockedFinalistOosReplayScope.new (locked : EvidenceWindow) (seedPaddingMs exitPaddingMs : Int) :
    Except ReplayError LockedFinalistOosReplayScope := do
  refuseIf (seedPaddingMs < 0 ∨ exitPaddingMs < 0) .invalidWindow
    "seed and exit padding must be non-negative"
  let lower ← okOrElse (I64.checkedSub locked.fromUnixMsInclusive seedPaddingMs) .invalidWindow
    "seed padding underflows the quote coverage window"
  let upper ← okOrElse (I64.checkedAdd locked.toUnixMsExclusive exitPaddingMs) .invalidWindow
    "exit padding overflows the quote coverage window"
  let required ← (EvidenceWindow.new lower upper).mapError fun (low, high) =>
    ⟨.invalidWindow,
      s!"broker financial truth contract: invalid half-open evidence window [{low}, {high})"⟩
  return ⟨locked, required, seedPaddingMs, exitPaddingMs⟩

def LockedFinalistOosReplayScope.validate (scope : LockedFinalistOosReplayScope) :
    Except ReplayError Unit := do
  let recomputed ← LockedFinalistOosReplayScope.new scope.lockedEvaluationWindow scope.seedPaddingMs
    scope.exitPaddingMs
  refuseIf (recomputed.requiredQuoteCoverageWindow ≠ scope.requiredQuoteCoverageWindow)
    .requiredCoverageWindowMismatch
    "stored quote coverage window does not match the locked window and padding"

namespace QuoteValidatedResearchReplayBinding

def recomputedIdentitySha256 (binding : QuoteValidatedResearchReplayBinding) : String :=
  sha256 (.quoteReplayBinding binding.toReplayBindingPayload binding.reviewedReplayRule.identitySha256)

def validatePayload (binding : QuoteValidatedResearchReplayBinding) : Except ReplayError Unit := do
  validateDigest "canonical search input receipt" binding.canonicalSearchInputReceiptSha256
  validateDigest "canonical signal plan" binding.canonicalSignalPlanSha256
  validateDigest "quote evidence manifest" binding.quoteEvidenceManifestSha256
  refuseIf (binding.accountId ≤ 0 ∨ binding.symbolId ≤ 0 ∨ trimIsEmpty binding.symbolName)
    .invalidContract "account, symbol id and symbol name must be explicit"
  binding.replayScope.validate
  (binding.reviewedReplayRule.validateExact sha256).mapError (⟨.invalidContract, ·⟩)

def validate (binding : QuoteValidatedResearchReplayBinding) : Except ReplayError Unit := do
  binding.validatePayload sha256
  validateDigest "quote replay binding identity" binding.identitySha256
  refuseIf (binding.recomputedIdentitySha256 sha256 ≠ binding.identitySha256) .bindingMismatch
    "quote replay binding identity does not match its exact fields"

end QuoteValidatedResearchReplayBinding

def ExactZeroRowQuoteWindowProof.validate (proof : ExactZeroRowQuoteWindowProof) :
    Except ReplayError Unit := do
  refuseIf proof.responseHasMore .incompleteCoverage
    "zero-row response still reports more broker history"
  refuseIf (proof.rowCount ≠ 0) .invalidContract "zero-row proof has a non-zero row count"
  refuseIf (proof.accountId ≤ 0 ∨ proof.symbolId ≤ 0) .invalidContract
    "zero-row proof has no exact account or symbol"
  validateDigest "zero-row raw response" proof.rawResponseSha256
  validateDigest "zero-row decoded records" proof.decodedRecordsSha256

namespace QuoteSideCoveragePayload

-- An empty side must carry the broker's own proof that the window has no rows.
def validateZeroRowProof (coverage : QuoteSideCoveragePayload P) : Except ReplayError Unit :=
  if coverage.quoteRecords.isEmpty then do
    let proof ← okOrElse coverage.zeroRowProof .missingZeroRowWindowProof
      "empty quote coverage has no terminal zero-row broker proof"
    proof.validate
    refuseIf (proof.side ≠ coverage.side ∨ proof.accountId ≠ coverage.accountId ∨
        proof.symbolId ≠ coverage.symbolId ∨ proof.requestedWindow ≠ coverage.requestedWindow ∨
        proof.rawResponseSha256 ≠ coverage.rawResponseSha256 ∨
        proof.decodedRecordsSha256 ≠ coverage.decodedRecordsSha256) .bindingMismatch
      "zero-row proof does not match its quote-side coverage"
  else
    refuseIf coverage.zeroRowProof.isSome .invalidContract
      "non-empty quote coverage cannot carry a zero-row proof"

def validatePayload (coverage : QuoteSideCoveragePayload P) : Except ReplayError Unit := do
  refuseIf coverage.terminalResponseHasMore .incompleteCoverage
    "terminal quote response still reports more history"
  refuseIf (coverage.accountId ≤ 0 ∨ coverage.symbolId ≤ 0) .invalidContract
    "quote coverage has no exact account or symbol"
  validateDigest "raw quote response" coverage.rawResponseSha256
  validateDigest "decoded quote records" coverage.decodedRecordsSha256
  coverage.validateZeroRowProof
  forM coverage.quoteRecords fun quote => do
    quote.validate
    refuseIf (quote.timestampUnixMs < coverage.requestedWindow.fromUnixMsInclusive ∨
        coverage.requestedWindow.toUnixMsExclusive ≤ quote.timestampUnixMs) .invalidQuote
      "quote falls outside its declared complete coverage window"
  Fallible.forPairs (fun previous current =>
    refuseIf (current.key ≤ previous.key) .invalidQuoteOrder
      "quote records are not strictly ordered by timestamp and source ordinal")
    coverage.quoteRecords

end QuoteSideCoveragePayload

namespace CompleteQuoteSideCoverage

def recomputedContentSha256 (coverage : CompleteQuoteSideCoverage P) : String :=
  sha256 (.completeQuoteSideCoverage coverage.toQuoteSideCoveragePayload)

def validate (coverage : CompleteQuoteSideCoverage P) : Except ReplayError Unit := do
  coverage.validatePayload
  validateDigest "quote-side content" coverage.contentSha256
  refuseIf (coverage.recomputedContentSha256 sha256 ≠ coverage.contentSha256)
    .artifactDigestMismatch "quote-side content does not match its sealed digest"

def new (payload : QuoteSideCoveragePayload P) : Except ReplayError (CompleteQuoteSideCoverage P) := do
  payload.validatePayload
  return ⟨payload, sha256 (.completeQuoteSideCoverage payload)⟩

end CompleteQuoteSideCoverage

namespace CompleteBidAskQuoteReplayEvidence

def recomputedContentSha256 (evidence : CompleteBidAskQuoteReplayEvidence P) : String :=
  sha256 (.completeBidAskQuoteEvidence evidence.binding.identitySha256 evidence.bid.contentSha256
    evidence.ask.contentSha256)

def validateSide (binding : QuoteValidatedResearchReplayBinding)
    (coverage : CompleteQuoteSideCoverage P) : Except ReplayError Unit := do
  refuseIf (coverage.accountId ≠ binding.accountId ∨ coverage.symbolId ≠ binding.symbolId)
    .bindingMismatch "quote-side account or symbol differs from the replay binding"
  refuseIf (coverage.requestedWindow ≠ binding.replayScope.requiredQuoteCoverageWindow)
    (if coverage.requestedWindow = binding.replayScope.lockedEvaluationWindow then
      .requiredCoverageWindowMismatch else .bindingMismatch)
    "quote-side coverage is not the complete locked window with padding"

def validatePayload (evidence : CompleteBidAskQuoteReplayEvidence P) : Except ReplayError Unit := do
  evidence.binding.validate sha256
  evidence.bid.validate sha256
  evidence.ask.validate sha256
  refuseIf (evidence.bid.side ≠ .bid ∨ evidence.ask.side ≠ .ask) .bindingMismatch
    "complete quote evidence must contain exact Bid then Ask sides"
  validateSide evidence.binding evidence.bid
  validateSide evidence.binding evidence.ask

def validate (evidence : CompleteBidAskQuoteReplayEvidence P) : Except ReplayError Unit := do
  evidence.validatePayload sha256
  validateDigest "complete Bid/Ask quote evidence" evidence.contentSha256
  refuseIf (evidence.recomputedContentSha256 sha256 ≠ evidence.contentSha256)
    .artifactDigestMismatch "complete Bid/Ask quote evidence does not match its sealed digest"

def new (binding : QuoteValidatedResearchReplayBinding) (bid ask : CompleteQuoteSideCoverage P) :
    Except ReplayError (CompleteBidAskQuoteReplayEvidence P) := do
  let evidence : CompleteBidAskQuoteReplayEvidence P := ⟨binding, bid, ask, ""⟩
  evidence.validatePayload sha256
  return { evidence with contentSha256 := evidence.recomputedContentSha256 sha256 }

end CompleteBidAskQuoteReplayEvidence

def CanonicalBarSignalResearchDecision.thresholdsAreOrdered
    (decision : CanonicalBarSignalResearchDecision P) : Bool :=
  match decision.direction with
  | .long => decision.stopPrice < decision.targetPrice
  | .short => decision.targetPrice < decision.stopPrice

def CanonicalBarSignalResearchDecision.validate (decision : CanonicalBarSignalResearchDecision P) :
    Except ReplayError Unit := do
  refuseIf (decision.signalBarOpenUnixMs < 0 ∨
      decision.nextCanonicalBarOpenUnixMs ≤ decision.signalBarOpenUnixMs ∨
      decision.stopPrice ≤ 0 ∨ decision.targetPrice ≤ 0) .invalidDecision
    "canonical-bar decision has invalid time or price fields"
  refuseIf (¬decision.thresholdsAreOrdered) .invalidDecision
    "stop and target are inconsistent with research position direction"

def ClosedCanonicalBarTrailingThreshold.validate (threshold : ClosedCanonicalBarTrailingThreshold P) :
    Except ReplayError Unit :=
  refuseIf (threshold.sourceBarOpenUnixMs < 0 ∨
      threshold.effectiveAtNextBarOpenUnixMs ≤ threshold.sourceBarOpenUnixMs ∨
      threshold.thresholdPrice ≤ 0) .invalidDecision
    "closed-bar trailing threshold has invalid causal fields"

def VersionedLatencySlippagePolicy.validate (policy : VersionedLatencySlippagePolicy P) :
    Except ReplayError Unit := do
  refuseIf (trimIsEmpty policy.policyVersion ∨ policy.entryLatencyMs < 0 ∨ policy.exitLatencyMs < 0 ∨
      policy.slippagePipsPerFill < 0 ∨ policy.pipSize ≤ 0) .invalidPolicy
    "versioned latency/slippage policy has invalid fields"
  validateDigest "latency/slippage policy identity" policy.identitySha256
  refuseIf (sha256 (.latencySlippagePolicy policy.toLatencySlippagePayload) ≠ policy.identitySha256)
    .artifactDigestMismatch "latency/slippage policy identity does not match its fields"

def ReviewedSameTimestampMergeRule.validate (rule : ReviewedSameTimestampMergeRule) :
    Except ReplayError Unit :=
  (rule.reviewedReplayRule.validateExact sha256).mapError (⟨.invalidPolicy, ·⟩)

namespace QuoteValidatedResearchReplayPolicy

def recomputedIdentitySha256 (policy : QuoteValidatedResearchReplayPolicy P) : String :=
  sha256 (.quoteValidatedReplayPolicy policy.maxEntryWaitMs policy.maxQuoteStalenessMs
    policy.maxExitWaitMs policy.latencySlippage.identitySha256 policy.reviewedSameTimestampMergeRule)

def validate (policy : QuoteValidatedResearchReplayPolicy P) : Except ReplayError Unit := do
  refuseIf (policy.maxEntryWaitMs ≤ 0 ∨ policy.maxQuoteStalenessMs < 0 ∨ policy.maxExitWaitMs ≤ 0)
    .invalidPolicy "wait limits must be positive and staleness must be non-negative"
  policy.latencySlippage.validate sha256
  forM policy.reviewedSameTimestampMergeRule.toList fun rule => rule.validate sha256
  validateDigest "quote replay policy identity" policy.identitySha256
  refuseIf (policy.recomputedIdentitySha256 sha256 ≠ policy.identitySha256) .artifactDigestMismatch
    "quote replay policy identity does not match its exact fields"

end QuoteValidatedResearchReplayPolicy

/-- `validate_replay_policy_v1`: the exact binding, the policy, and the evidence padding. -/
def QuoteValidatedResearchReplayBinding.validateReplayPolicy
    (binding : QuoteValidatedResearchReplayBinding) (policy : QuoteValidatedResearchReplayPolicy P) :
    Except ReplayError Unit := do
  binding.validate sha256
  policy.validate sha256
  refuseIf (policy.reviewedSameTimestampMergeRule.any fun rule =>
      rule.reviewedReplayRule.identitySha256 ≠ binding.reviewedReplayRule.identitySha256)
    .bindingMismatch "same-timestamp merge rule is not bound to the reviewed replay rule"
  refuseIf (binding.replayScope.seedPaddingMs < policy.maxQuoteStalenessMs)
    .requiredCoverageWindowMismatch
    "seed padding is shorter than the synchronized-book staleness horizon"
  let requiredExitPadding ← okOrElse
    (I64.checkedAdd policy.latencySlippage.exitLatencyMs policy.maxExitWaitMs) .invalidPolicy
    "exit latency and wait overflow the required padding"
  refuseIf (binding.replayScope.exitPaddingMs < requiredExitPadding)
    .requiredCoverageWindowMismatch "exit padding is shorter than the modeled exit horizon"

def ClosedCanonicalBarTimeExit.validate (exit : ClosedCanonicalBarTimeExit) :
    Except ReplayError Unit :=
  refuseIf (exit.sourceBarOpenUnixMs < 0 ∨
      exit.effectiveAtNextBarOpenUnixMs ≤ exit.sourceBarOpenUnixMs) .invalidDecision
    "time exit must follow its own closed canonical bar"

namespace QuoteValidatedResearchReplayPlan

def refuseLooseningSchedule (latestLongThreshold latestShortThreshold : Option P) :
    List (ClosedCanonicalBarTrailingThreshold P) → Except ReplayError Unit
  | [] => .ok ()
  | threshold :: thresholds => do
    let price := threshold.thresholdPrice
    match threshold.direction with
    | .long =>
      refuseIf (latestLongThreshold.any fun previous => price < previous) .invalidDecision
        "closed-bar trailing schedule loosens a prior threshold"
      refuseLooseningSchedule (some price) latestShortThreshold thresholds
    | .short =>
      refuseIf (latestShortThreshold.any fun previous => previous < price) .invalidDecision
        "closed-bar trailing schedule loosens a prior threshold"
      refuseLooseningSchedule latestLongThreshold (some price) thresholds

def validateDecision (locked : EvidenceWindow) (decision : CanonicalBarSignalResearchDecision P) :
    Except ReplayError Unit := do
  decision.validate
  refuseIf (decision.signalBarOpenUnixMs < locked.fromUnixMsInclusive ∨
      locked.toUnixMsExclusive ≤ decision.nextCanonicalBarOpenUnixMs) .invalidDecision
    "canonical-bar decision is outside the locked evaluation window"

def validateTimeExit (locked : EvidenceWindow) (decision : CanonicalBarSignalResearchDecision P)
    (exit : ClosedCanonicalBarTimeExit) : Except ReplayError Unit := do
  exit.validate
  refuseIf (exit.sourceBarOpenUnixMs < decision.nextCanonicalBarOpenUnixMs ∨
      locked.toUnixMsExclusive < exit.effectiveAtNextBarOpenUnixMs) .invalidDecision
    "time exit is outside the sole position's locked canonical-bar ownership"

def validateThreshold (scope : LockedFinalistOosReplayScope)
    (decision : CanonicalBarSignalResearchDecision P)
    (threshold : ClosedCanonicalBarTrailingThreshold P) : Except ReplayError Unit := do
  threshold.validate
  refuseIf (threshold.sourceBarOpenUnixMs < scope.lockedEvaluationWindow.fromUnixMsInclusive ∨
      scope.requiredQuoteCoverageWindow.toUnixMsExclusive ≤ threshold.effectiveAtNextBarOpenUnixMs ∨
      threshold.direction ≠ decision.direction ∨
      threshold.effectiveAtNextBarOpenUnixMs < decision.nextCanonicalBarOpenUnixMs) .invalidDecision
    "closed-bar trailing threshold is outside the sole decision's causal ownership"

/-- `plan.decisions[0]`. It is read behind the check that there is exactly one decision, so the
error cannot come from here. -/
def soleDecision (plan : QuoteValidatedResearchReplayPlan P) :
    Except ReplayError (CanonicalBarSignalResearchDecision P) :=
  okOrElse plan.decisions.head? .invalidDecision
    "V1 quote replay requires exactly one canonical-bar decision"

def validate (plan : QuoteValidatedResearchReplayPlan P) : Except ReplayError Unit := do
  plan.binding.validateReplayPolicy sha256 plan.policy
  refuseIf (plan.decisions.length ≠ 1) .invalidDecision
    "V1 quote replay requires exactly one canonical-bar decision"
  let scope := plan.binding.replayScope
  forM plan.decisions (validateDecision scope.lockedEvaluationWindow)
  let soleDecision ← plan.soleDecision
  forM plan.timeExit.toList (validateTimeExit scope.lockedEvaluationWindow soleDecision)
  forM plan.trailingThresholds (validateThreshold scope soleDecision)
  Fallible.forPairs (fun (first second : ClosedCanonicalBarTrailingThreshold P) =>
    refuseIf (second.effectiveAtNextBarOpenUnixMs ≤ first.effectiveAtNextBarOpenUnixMs)
      .invalidDecision "closed-bar trailing thresholds are not strictly time ordered")
    plan.trailingThresholds
  refuseLooseningSchedule none none plan.trailingThresholds

/-- The loop of `validate_ordered_sequence`. -/
def validateOrdered (first : QuoteValidatedResearchReplayPlan P) (previousDecisionAt : Option Int) :
    List (QuoteValidatedResearchReplayPlan P) → Except ReplayError Unit
  | [] => .ok ()
  | plan :: plans => do
    plan.validate sha256
    refuseIf (plan.binding ≠ first.binding) .bindingMismatch
      "decision sequence changes its exact replay binding"
    refuseIf (plan.policy ≠ first.policy) .invalidPolicy
      "decision sequence changes its fixed execution policy"
    let decision ← plan.soleDecision
    let decisionAt := decision.nextCanonicalBarOpenUnixMs
    refuseIf (previousDecisionAt.any fun previous => decisionAt ≤ previous) .invalidDecision
      "canonical-bar decision sequence is not strictly time ordered"
    validateOrdered first (some decisionAt) plans

def validateOrderedSequence (plans : List (QuoteValidatedResearchReplayPlan P)) :
    Except ReplayError Unit := do
  let first ← okOrElse plans.head? .invalidDecision "quote replay decision sequence is empty"
  validateOrdered sha256 first none plans

end QuoteValidatedResearchReplayPlan

end Neoethos
