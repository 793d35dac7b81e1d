import Mathlib.Data.List.Pairwise
import Neoethos.ReplayKernel

namespace Neoethos

open Fallible

variable {P : Type} {sha256 : HashPayload P → String}

structure LockedFinalistOosReplayScope.Padded (scope : LockedFinalistOosReplayScope) : Prop where
  seed : 0 ≤ scope.seedPaddingMs
  exit : 0 ≤ scope.exitPaddingMs
  lower : scope.requiredQuoteCoverageWindow.fromUnixMsInclusive =
    scope.lockedEvaluationWindow.fromUnixMsInclusive - scope.seedPaddingMs
  upper : scope.requiredQuoteCoverageWindow.toUnixMsExclusive =
    scope.lockedEvaluationWindow.toUnixMsExclusive + scope.exitPaddingMs

theorem LockedFinalistOosReplayScope.padded_of_validate {scope : LockedFinalistOosReplayScope}
    (h : scope.validate = .ok ()) : scope.Padded := by
  obtain ⟨recomputed, hnew, hsame⟩ := bind_ok_iff.mp h
  obtain ⟨hpadding, hnew⟩ := check_ok_iff.mp hnew
  obtain ⟨lower, hlower, hnew⟩ := bind_ok_iff.mp hnew
  obtain ⟨upper, hupper, hnew⟩ := bind_ok_iff.mp hnew
  obtain ⟨required, hrequired, hscope⟩ := bind_ok_iff.mp hnew
  obtain ⟨-, rfl⟩ := I64.checkedSub_eq_some.mp (okOrElse_ok.mp hlower)
  obtain ⟨-, rfl⟩ := I64.checkedAdd_eq_some.mp (okOrElse_ok.mp hupper)
  obtain ⟨hfrom, hto⟩ := EvidenceWindow.new_ok.mp (mapError_ok_iff.mp hrequired)
  have hsame := refuseIf_ok.mp hsame
  have hpadding := refuseIf_ok.mp hpadding
  cases hscope
  simp only [ne_eq, not_not] at hsame
  exact ⟨by omega, by omega, by rw [← hsame, hfrom], by rw [← hsame, hto]⟩

/-- What `validate_replay_policy_v1` guarantees about durations and padding. -/
structure QuoteValidatedResearchReplayPolicy.Bounded (policy : QuoteValidatedResearchReplayPolicy P)
    (scope : LockedFinalistOosReplayScope) : Prop where
  entryWait : 0 < policy.maxEntryWaitMs
  staleness : 0 ≤ policy.maxQuoteStalenessMs
  exitWait : 0 < policy.maxExitWaitMs
  entryLatency : 0 ≤ policy.latencySlippage.entryLatencyMs
  exitLatency : 0 ≤ policy.latencySlippage.exitLatencyMs
  seedPadding : policy.maxQuoteStalenessMs ≤ scope.seedPaddingMs
  exitPadding : policy.latencySlippage.exitLatencyMs + policy.maxExitWaitMs ≤ scope.exitPaddingMs

theorem QuoteValidatedResearchReplayBinding.padded_of_validate
    {binding : QuoteValidatedResearchReplayBinding} (h : binding.validate sha256 = .ok ()) :
    binding.replayScope.Padded := by
  obtain ⟨hpayload, -⟩ := check_ok_iff.mp h
  obtain ⟨-, hpayload⟩ := check_ok_iff.mp hpayload
  obtain ⟨-, hpayload⟩ := check_ok_iff.mp hpayload
  obtain ⟨-, hpayload⟩ := check_ok_iff.mp hpayload
  obtain ⟨-, hpayload⟩ := check_ok_iff.mp hpayload
  obtain ⟨hscope, -⟩ := check_ok_iff.mp hpayload
  exact LockedFinalistOosReplayScope.padded_of_validate hscope

namespace QuoteValidatedResearchReplayPlan

structure Accepted (plan : QuoteValidatedResearchReplayPlan P)
    (decision : CanonicalBarSignalResearchDecision P) : Prop where
  sole : plan.decisions = [decision]
  padded : plan.binding.replayScope.Padded
  bounded : plan.policy.Bounded plan.binding.replayScope
  signal : plan.binding.replayScope.lockedEvaluationWindow.fromUnixMsInclusive ≤
    decision.signalBarOpenUnixMs
  decided : decision.signalBarOpenUnixMs < decision.nextCanonicalBarOpenUnixMs
  locked : decision.nextCanonicalBarOpenUnixMs <
    plan.binding.replayScope.lockedEvaluationWindow.toUnixMsExclusive
  timer : ∀ exit ∈ plan.timeExit,
    decision.nextCanonicalBarOpenUnixMs < exit.effectiveAtNextBarOpenUnixMs ∧
      exit.effectiveAtNextBarOpenUnixMs ≤
        plan.binding.replayScope.lockedEvaluationWindow.toUnixMsExclusive

theorem validateTimeExit_ok {locked : EvidenceWindow} {decision : CanonicalBarSignalResearchDecision P}
    {exit : ClosedCanonicalBarTimeExit} (h : validateTimeExit locked decision exit = .ok ()) :
    decision.nextCanonicalBarOpenUnixMs < exit.effectiveAtNextBarOpenUnixMs ∧
      exit.effectiveAtNextBarOpenUnixMs ≤ locked.toUnixMsExclusive := by
  obtain ⟨hfields, hwindow⟩ := check_ok_iff.mp h
  have hwindow := refuseIf_ok.mp hwindow
  have hfields := refuseIf_ok.mp hfields
  omega

end QuoteValidatedResearchReplayPlan

variable {quotes : List (ExactHistoricalQuote P)}

theorem ascending_of_ordered (h : quotes.Pairwise fun a b => a.key < b.key) :
    quotes.Pairwise fun a b => a.timestampUnixMs ≤ b.timestampUnixMs := by
  refine h.imp ?_
  intro a b hab
  obtain hlt | ⟨heq, -⟩ := Prod.Lex.toLex_lt_toLex.mp hab
  · exact le_of_lt hlt
  · exact le_of_eq heq

section Ascending

variable (h : quotes.Pairwise fun a b => a.timestampUnixMs ≤ b.timestampUnixMs)
include h

theorem partitioned_lt_of_ascending (t : Int) :
    Slice.Partitioned (fun quote => quote.timestampUnixMs < t) quotes := by
  refine h.imp ?_
  intro a b hab hb
  simp only [decide_eq_true_eq] at hb ⊢
  omega

theorem partitioned_le_of_ascending (t : Int) :
    Slice.Partitioned (fun quote => quote.timestampUnixMs ≤ t) quotes := by
  refine h.imp ?_
  intro a b hab hb
  simp only [decide_eq_true_eq] at hb ⊢
  omega

end Ascending

/-- The quotes of one side: strictly ordered, and inside the window that was asked for. -/
structure QuotesInOrder (window : EvidenceWindow) (quotes : List (ExactHistoricalQuote P)) : Prop where
  ordered : quotes.Pairwise fun a b => a.key < b.key
  inside : ∀ quote ∈ quotes, window.fromUnixMsInclusive ≤ quote.timestampUnixMs ∧
    quote.timestampUnixMs < window.toUnixMsExclusive

namespace QuotesInOrder

variable {window : EvidenceWindow} {quotes : List (ExactHistoricalQuote P)}

theorem ascending (h : QuotesInOrder window quotes) :
    quotes.Pairwise fun a b => a.timestampUnixMs ≤ b.timestampUnixMs :=
  ascending_of_ordered h.ordered

theorem partitioned_lt (h : QuotesInOrder window quotes) (t : Int) :
    Slice.Partitioned (fun quote => quote.timestampUnixMs < t) quotes :=
  partitioned_lt_of_ascending h.ascending t

theorem partitioned_le (h : QuotesInOrder window quotes) (t : Int) :
    Slice.Partitioned (fun quote => quote.timestampUnixMs ≤ t) quotes :=
  partitioned_le_of_ascending h.ascending t

theorem sublist (h : QuotesInOrder window quotes) {part : List (ExactHistoricalQuote P)}
    (hpart : part.Sublist quotes) : QuotesInOrder window part :=
  ⟨h.ordered.sublist hpart, fun quote hquote => h.inside quote (hpart.subset hquote)⟩

end QuotesInOrder

variable [Ring P] [LinearOrder P]

theorem QuoteValidatedResearchReplayBinding.bounded_of_validateReplayPolicy
    {binding : QuoteValidatedResearchReplayBinding} {policy : QuoteValidatedResearchReplayPolicy P}
    (h : binding.validateReplayPolicy sha256 policy = .ok ()) :
    binding.replayScope.Padded ∧ policy.Bounded binding.replayScope := by
  obtain ⟨hbinding, h⟩ := check_ok_iff.mp h
  obtain ⟨hpolicy, h⟩ := check_ok_iff.mp h
  obtain ⟨-, h⟩ := check_ok_iff.mp h
  obtain ⟨hseed, h⟩ := check_ok_iff.mp h
  obtain ⟨padding, hpadding, hexit⟩ := bind_ok_iff.mp h
  obtain ⟨hwaits, hpolicy⟩ := check_ok_iff.mp hpolicy
  obtain ⟨hlatency, -⟩ := check_ok_iff.mp hpolicy
  obtain ⟨hfields, -⟩ := check_ok_iff.mp hlatency
  obtain ⟨-, rfl⟩ := I64.checkedAdd_eq_some.mp (okOrElse_ok.mp hpadding)
  have hseed := refuseIf_ok.mp hseed
  have hexit := refuseIf_ok.mp hexit
  have hwaits := refuseIf_ok.mp hwaits
  have hfields := refuseIf_ok.mp hfields
  simp only [not_or, not_le, not_lt] at hwaits hfields
  obtain ⟨hentryWait, hstaleness, hexitWait⟩ := hwaits
  obtain ⟨-, hentryLatency, hexitLatency, -⟩ := hfields
  exact ⟨padded_of_validate hbinding, hentryWait, hstaleness, hexitWait, hentryLatency, hexitLatency,
    by omega, by omega⟩

namespace QuoteValidatedResearchReplayPlan

theorem validateDecision_ok {locked : EvidenceWindow} {decision : CanonicalBarSignalResearchDecision P}
    (h : validateDecision locked decision = .ok ()) :
    locked.fromUnixMsInclusive ≤ decision.signalBarOpenUnixMs ∧
      decision.signalBarOpenUnixMs < decision.nextCanonicalBarOpenUnixMs ∧
      decision.nextCanonicalBarOpenUnixMs < locked.toUnixMsExclusive := by
  obtain ⟨hdecision, hwindow⟩ := check_ok_iff.mp h
  obtain ⟨hfields, -⟩ := check_ok_iff.mp hdecision
  have hwindow := refuseIf_ok.mp hwindow
  have hfields := refuseIf_ok.mp hfields
  simp only [not_or, not_le, not_lt] at hwindow hfields
  exact ⟨hwindow.1, hfields.2.1, hwindow.2⟩

theorem accepted_of_validate {plan : QuoteValidatedResearchReplayPlan P}
    (h : plan.validate sha256 = .ok ()) : ∃ decision, plan.Accepted decision := by
  obtain ⟨hpolicy, h⟩ := check_ok_iff.mp h
  obtain ⟨hlength, h⟩ := check_ok_iff.mp h
  obtain ⟨hdecisions, h⟩ := check_ok_iff.mp h
  obtain ⟨decision, hsole, h⟩ := bind_ok_iff.mp h
  obtain ⟨htimer, -⟩ := check_ok_iff.mp h
  have hlength := refuseIf_ok.mp hlength
  simp only [ne_eq, not_not] at hlength
  obtain ⟨only, honly⟩ := List.length_eq_one_iff.mp hlength
  have hhead := okOrElse_ok.mp hsole
  rw [honly] at hhead
  cases hhead
  obtain ⟨hpadded, hbounded⟩ :=
    QuoteValidatedResearchReplayBinding.bounded_of_validateReplayPolicy hpolicy
  have hmem : decision ∈ plan.decisions := by simp [honly]
  obtain ⟨hsignal, hdecided, hlocked⟩ := validateDecision_ok (forM_ok_iff.mp hdecisions _ hmem)
  refine ⟨decision, honly, hpadded, hbounded, hsignal, hdecided, hlocked, ?_⟩
  intro exit hexit
  have hmem : exit ∈ plan.timeExit.toList := Option.mem_toList.mpr hexit
  exact validateTimeExit_ok (forM_ok_iff.mp htimer _ hmem)

end QuoteValidatedResearchReplayPlan

theorem CompleteQuoteSideCoverage.inOrder_of_validate {coverage : CompleteQuoteSideCoverage P}
    (h : coverage.validate sha256 = .ok ()) :
    QuotesInOrder coverage.requestedWindow coverage.quoteRecords := by
  obtain ⟨hpayload, -⟩ := check_ok_iff.mp h
  obtain ⟨-, hpayload⟩ := check_ok_iff.mp hpayload
  obtain ⟨-, hpayload⟩ := check_ok_iff.mp hpayload
  obtain ⟨-, hpayload⟩ := check_ok_iff.mp hpayload
  obtain ⟨-, hpayload⟩ := check_ok_iff.mp hpayload
  obtain ⟨-, hpayload⟩ := check_ok_iff.mp hpayload
  obtain ⟨hquotes, hpairs⟩ := check_ok_iff.mp hpayload
  have hchain := forPairs_ok_iff.mp hpairs
  simp only [refuseIf_ok, not_le] at hchain
  have htrans : IsTrans (ExactHistoricalQuote P) fun a b => a.key < b.key := ⟨fun _ _ _ => lt_trans⟩
  refine ⟨List.isChain_iff_pairwise.mp hchain, ?_⟩
  intro quote hquote
  obtain ⟨-, hwindow⟩ := check_ok_iff.mp (forM_ok_iff.mp hquotes quote hquote)
  have hwindow := refuseIf_ok.mp hwindow
  omega

theorem CompleteBidAskQuoteReplayEvidence.inOrder_of_validatePayload
    {evidence : CompleteBidAskQuoteReplayEvidence P}
    (h : evidence.validatePayload sha256 = .ok ()) (side : QuoteSide) :
    QuotesInOrder evidence.binding.replayScope.requiredQuoteCoverageWindow (evidence.quotes side) := by
  obtain ⟨-, h⟩ := check_ok_iff.mp h
  obtain ⟨hbid, h⟩ := check_ok_iff.mp h
  obtain ⟨hask, h⟩ := check_ok_iff.mp h
  obtain ⟨-, h⟩ := check_ok_iff.mp h
  obtain ⟨hbidSide, haskSide⟩ := check_ok_iff.mp h
  have hwindow : ∀ {coverage : CompleteQuoteSideCoverage P},
      CompleteBidAskQuoteReplayEvidence.validateSide evidence.binding coverage = .ok () →
        coverage.requestedWindow = evidence.binding.replayScope.requiredQuoteCoverageWindow := by
    intro coverage hside
    obtain ⟨-, hside⟩ := check_ok_iff.mp hside
    simpa using refuseIf_ok.mp hside
  cases side with
  | bid =>
    rw [← hwindow hbidSide]
    exact CompleteQuoteSideCoverage.inOrder_of_validate hbid
  | ask =>
    rw [← hwindow haskSide]
    exact CompleteQuoteSideCoverage.inOrder_of_validate hask

theorem CompleteBidAskQuoteReplayEvidence.new_complete
    {binding : QuoteValidatedResearchReplayBinding} {bid ask : CompleteQuoteSideCoverage P}
    {evidence : CompleteBidAskQuoteReplayEvidence P}
    (h : CompleteBidAskQuoteReplayEvidence.new sha256 binding bid ask = .ok evidence) :
    evidence.validatePayload sha256 = .ok () := by
  obtain ⟨hpayload, h⟩ := check_ok_iff.mp h
  cases h
  exact hpayload

structure StructurallyVerifiedQuoteReplayRow (P : Type) where
  requestChunkIndex : Nat
  responsePageIndex : Nat
  rowIndex : Nat
  timestampUnixMs : Int
  price : P

structure StructurallyVerifiedQuoteSideReplay (P : Type) where
  side : QuoteSide
  accountId : Int
  symbolId : Int
  requestedWindow : EvidenceWindow
  rawResponseSha256 : String
  decodedRecordsSha256 : String
  quoteRecords : List (StructurallyVerifiedQuoteReplayRow P)

structure StructurallyVerifiedPrimaryBidAskQuoteReplay (P : Type) where
  symbolName : String
  reviewedReplayRuleIdentitySha256 : String
  bid : StructurallyVerifiedQuoteSideReplay P
  ask : StructurallyVerifiedQuoteSideReplay P

def ExactHistoricalQuote.new (timestampUnixMs : Int) (price : P)
    (sourceOrdinal : ExactQuoteSourceOrdinal) : Except ReplayError (ExactHistoricalQuote P) := do
  let quote : ExactHistoricalQuote P := ⟨timestampUnixMs, price, sourceOrdinal⟩
  quote.validate
  return quote

variable (sha256)

def completeSideFromStructuralIngress (side : StructurallyVerifiedQuoteSideReplay P) :
    Except ReplayError (CompleteQuoteSideCoverage P) := do
  let quoteRecords ← side.quoteRecords.mapM fun row =>
    ExactHistoricalQuote.new row.timestampUnixMs row.price
      ⟨row.requestChunkIndex, row.responsePageIndex, row.rowIndex⟩
  CompleteQuoteSideCoverage.new sha256 ⟨side.side, side.accountId, side.symbolId,
    side.requestedWindow, side.rawResponseSha256, side.decodedRecordsSha256, quoteRecords, false,
    none⟩

/-- The only way to a seal: the evidence comes from the checked constructor. -/
def sealStructurallyVerifiedPrimaryReplay (primary : StructurallyVerifiedPrimaryBidAskQuoteReplay P)
    (expectedReplayBinding : QuoteValidatedResearchReplayBinding)
    (acquisitionLinkManifestSha256 : String) :
    Except ReplayError (SealedHistoricalBidAskQuoteReplayEvidence sha256) := do
  refuseIf (primary.symbolName ≠ expectedReplayBinding.symbolName ∨
      primary.reviewedReplayRuleIdentitySha256 ≠
        expectedReplayBinding.reviewedReplayRule.identitySha256) .bindingMismatch
    "verified primary quotes differ from the expected symbol or reviewed replay rule"
  let bid ← completeSideFromStructuralIngress sha256 primary.bid
  let ask ← completeSideFromStructuralIngress sha256 primary.ask
  match h : CompleteBidAskQuoteReplayEvidence.new sha256 expectedReplayBinding bid ask with
  | .ok evidence => return ⟨evidence, acquisitionLinkManifestSha256,
      CompleteBidAskQuoteReplayEvidence.new_complete h⟩
  | .error error => .error error

end Neoethos
