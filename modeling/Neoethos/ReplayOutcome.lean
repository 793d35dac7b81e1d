import Mathlib.Algebra.Order.Ring.Rat
import Neoethos.ReplaySearch

namespace Neoethos

open Fallible

variable {P : Type} [Ring P] [LinearOrder P] {plan : QuoteValidatedResearchReplayPlan P}
  {evidence : CompleteBidAskQuoteReplayEvidence P} {decision : CanonicalBarSignalResearchDecision P}
  {entry : SelectedEntryBook P} {position : QuoteValidatedResearchPosition P}

theorem modeledExit_ok {assumptions : VersionedLatencySlippagePolicy P}
    {exit : Option (ExactHistoricalQuote P × QuoteValidatedResearchExitReason)}
    {exitReference : Option (QuoteValidatedPriceReference P)}
    {modeled : Option QuoteValidatedResearchExitReason × Option P × P}
    (h : modeledExit decision assumptions exit = .ok (exitReference, modeled)) :
    exitReference = exit.map fun found => .fromQuote decision.direction.exitSide found.1 := by
  cases exit with
  | none =>
    cases h
    rfl
  | some found =>
    obtain ⟨price, -, h⟩ := bind_ok_iff.mp h
    cases h
    rfl

/-- The references of a position come from its entry and from the exit search. -/
theorem replayPosition_ok (h : replayPosition plan evidence decision entry = .ok position) :
    position.entryReference = .fromQuote decision.direction.entrySide entry.entryQuote ∧
    ∃ exit, selectExit decision entry.entryQuote evidence plan.policy plan.trailingThresholds
        plan.timeExit = .ok exit ∧
      position.exitReference = exit.map fun found => .fromQuote decision.direction.exitSide found.1 := by
  obtain ⟨modeledEntryPrice, -, h⟩ := bind_ok_iff.mp h
  obtain ⟨-, h⟩ := check_ok_iff.mp h
  obtain ⟨exit, hexit, h⟩ := bind_ok_iff.mp h
  obtain ⟨⟨exitReference, modeled⟩, hmodeled, h⟩ := bind_ok_iff.mp h
  cases h
  exact ⟨rfl, exit, hexit, modeledExit_ok hmodeled⟩

/-- The two ways in which the replay of one decision ends. -/
inductive DecisionOutcome (plan : QuoteValidatedResearchReplayPlan P)
    (evidence : CompleteBidAskQuoteReplayEvidence P) (decision : CanonicalBarSignalResearchDecision P) :
    List (QuoteValidatedResearchPosition P) → List QuoteValidatedResearchNonEntry → Prop
  | entered {entry : SelectedEntryBook P} {position : QuoteValidatedResearchPosition P}
      (hentry : selectEntry decision evidence plan.policy = .ok (.available entry))
      (hposition : replayPosition plan evidence decision entry = .ok position) :
      DecisionOutcome plan evidence decision [position] []
  | notEntered {unavailable : QuoteValidatedResearchNonEntry}
      (hentry : selectEntry decision evidence plan.policy = .ok (.unavailable unavailable)) :
      DecisionOutcome plan evidence decision [] [unavailable]

theorem replayDecisions_ok_iff {positions : List (QuoteValidatedResearchPosition P)}
    {entryUnavailable : List QuoteValidatedResearchNonEntry} :
    replayDecisions plan evidence [] [] [decision] = .ok (positions, entryUnavailable) ↔
      DecisionOutcome plan evidence decision positions entryUnavailable := by
  rw [replayDecisions, bind_ok_iff]
  constructor
  · intro h
    obtain ⟨selection, hentry, h⟩ := h
    cases selection with
    | available entry =>
      obtain ⟨position, hposition, h⟩ := bind_ok_iff.mp h
      cases h
      exact .entered hentry hposition
    | unavailable unavailable =>
      cases h
      exact .notEntered hentry
  · intro h
    cases h with
    | entered hentry hposition =>
      refine ⟨_, hentry, ?_⟩
      exact bind_ok_iff.mpr ⟨_, hposition, rfl⟩
    | notEntered hentry => exact ⟨_, hentry, rfl⟩

theorem replayWithAuthority_ok_iff {sha256 : HashPayload P → String}
    {authority : QuoteValidatedResearchAuthority} {manifest : Option String}
    {positions : List (QuoteValidatedResearchPosition P)}
    {entryUnavailable : List QuoteValidatedResearchNonEntry} :
    (∃ ledger, replayWithAuthority sha256 plan evidence authority manifest = .ok ledger ∧
        ledger.positions = positions ∧ ledger.entryUnavailable = entryUnavailable) ↔
      plan.validate sha256 = .ok () ∧ validateAuthority authority manifest = .ok () ∧
      plan.binding = evidence.binding ∧
      ∃ decision, plan.Accepted decision ∧
        DecisionOutcome plan evidence decision positions entryUnavailable := by
  constructor
  · intro h
    obtain ⟨ledger, h, rfl, rfl⟩ := h
    obtain ⟨hplan, h⟩ := check_ok_iff.mp h
    obtain ⟨hauthority, h⟩ := check_ok_iff.mp h
    obtain ⟨hbinding, h⟩ := check_ok_iff.mp h
    obtain ⟨⟨positions, entryUnavailable⟩, hdecisions, h⟩ := bind_ok_iff.mp h
    obtain ⟨decision, haccepted⟩ := QuoteValidatedResearchReplayPlan.accepted_of_validate hplan
    cases h
    rw [haccepted.sole] at hdecisions
    exact ⟨hplan, hauthority, by simpa using refuseIf_ok.mp hbinding, decision, haccepted,
      replayDecisions_ok_iff.mp hdecisions⟩
  · intro h
    obtain ⟨hplan, hauthority, hbinding, decision, haccepted, houtcome⟩ := h
    have hdecisions := replayDecisions_ok_iff.mpr houtcome
    rw [← haccepted.sole] at hdecisions
    unfold replayWithAuthority
    simp only [hplan, hauthority, hbinding, hdecisions, refuseIf, ne_eq, not_true_eq_false, if_false]
    exact ⟨_, rfl, rfl, rfl⟩

/-- The entry point for quotes of a caller checks the evidence before it replays. -/
theorem replayQuoteValidatedResearch_ok_iff {sha256 : HashPayload P → String}
    {ledger : QuoteValidatedResearchLedger P} :
    replayQuoteValidatedResearch sha256 plan evidence = .ok ledger ↔
      evidence.validate sha256 = .ok () ∧
      replayWithAuthority sha256 plan evidence .unverifiedCallerSuppliedQuotes none = .ok ledger := by
  unfold replayQuoteValidatedResearch
  rw [check_ok_iff, check_ok_iff]
  apply and_iff_right_of_imp
  intro h
  exact (check_ok_iff.mp h.2).1

section UsdJpy

def hexDigest (c : Char) : String := String.ofList (List.replicate 64 c)

def usdJpyRule : ReviewedQuoteReplayRuleIdentity :=
  ⟨"79179e92ae18464e89809aeb3f7d9c032fd05543bf8b3b2f9271acf5f1a31939", hexDigest '1', hexDigest '2',
    hexDigest '3'⟩

def usdJpyCoverage : EvidenceWindow := ⟨900, 2100, by decide, by decide, by decide⟩

def usdJpyBinding : QuoteValidatedResearchReplayBinding where
  canonicalSearchInputReceiptSha256 := hexDigest 'a'
  canonicalSignalPlanSha256 := hexDigest 'b'
  accountId := 7
  symbolId := 4
  symbolName := "USDJPY"
  replayScope := ⟨⟨1000, 2000, by decide, by decide, by decide⟩, usdJpyCoverage, 100, 100⟩
  quoteEvidenceManifestSha256 := hexDigest 'c'
  reviewedReplayRule := usdJpyRule
  identitySha256 := "ae79be322d384d9eab7c15140f3fe3614f0496f3536b9398a87270a4df16c7ea"

def usdJpyPolicy : QuoteValidatedResearchReplayPolicy ℚ where
  maxEntryWaitMs := 500
  maxQuoteStalenessMs := 50
  maxExitWaitMs := 100
  latencySlippage := ⟨⟨"latency-v1", 10, 0, 1 / 2, 1 / 64⟩,
    "44edfc10f770fb449e0979df73bfe5aa0e614b42785edac50aa43ad3eb8975ee"⟩
  reviewedSameTimestampMergeRule := none
  identitySha256 := "3d3998da8c73fab8ff337a7296379d2b776057c8729b82bc6aeaa9ca4fb83205"

/-- A long position decided at `decisionAt`, fifty milliseconds behind its signal. -/
def usdJpyPlan (decisionAt : Int) (timeExit : Option ClosedCanonicalBarTimeExit) :
    QuoteValidatedResearchReplayPlan ℚ :=
  ⟨usdJpyBinding, usdJpyPolicy, [⟨decisionAt - 50, decisionAt, .long, 149, 151⟩], [], timeExit⟩

def usdJpySide (side : QuoteSide) (rows : List (Int × ℚ)) (contentSha256 : String) :
    CompleteQuoteSideCoverage ℚ :=
  ⟨⟨side, 7, 4, usdJpyCoverage, hexDigest 'd', hexDigest 'e',
    rows.zipIdx.map fun ((timestamp, price), row) => ⟨timestamp, price, 0, 0, row⟩, false, none⟩,
    contentSha256⟩

def usdJpyEvidence : CompleteBidAskQuoteReplayEvidence ℚ where
  binding := usdJpyBinding
  bid := usdJpySide .bid [(1100, 150), (1200, 605 / 4), (1305, 150), (1400, 297 / 2)]
    "00760e02d18c34f0c484c00e44d0cc637b71c6f56358f0af5ec8d68d724a7913"
  ask := usdJpySide .ask [(1110, 1201 / 8), (1310, 1201 / 8)]
    "44ea81be2649c84c46e9ae44c9c348e1abccd297428afa522c80099b4f18381f"
  contentSha256 := "ca9adccf0082cbab48420e12a30c4863fe84d28c603092c086cc7bf8567e6eab"

/-- The same quotes, of which the broker has lost those behind the first exit. -/
def usdJpyPastEvidence : CompleteBidAskQuoteReplayEvidence ℚ where
  binding := usdJpyBinding
  bid := usdJpySide .bid [(1100, 150), (1200, 605 / 4)]
    "0273bf5fb92005f4d50a5b3f911abc4939aa7baee71a66136316f9892b7e2ec7"
  ask := usdJpySide .ask [(1110, 1201 / 8)]
    "e8bb753016898ff5e903be81f7a47cea2e9ab336c7af3be2e9ca4138ec111d21"
  contentSha256 := "9f352f062474ef6f52dfd49dae49379f3c9c8d049ae4ae068681a498107741c4"

/-- The position of the decision at 1100: it enters at 1110 and reaches its target at 1200. -/
def usdJpyPosition : QuoteValidatedResearchPosition ℚ where
  direction := .long
  entryBook := ⟨⟨.bid, 1100, 150⟩, ⟨.ask, 1110, 1201 / 8⟩⟩
  entryReference := ⟨.ask, 1110, 1201 / 8⟩
  exitReference := some ⟨.bid, 1200, 605 / 4⟩
  exitReason := some .target
  modeledEntryPrice := 19217 / 128
  modeledExitPrice := some (19359 / 128)
  slippagePipsCharged := 1
  additionalSpreadPipsCharged := 0

def usdJpySha256 : HashPayload ℚ → String
  | .quoteReplayRule .. => usdJpyRule.identitySha256
  | .quoteReplayBinding .. => usdJpyBinding.identitySha256
  | .latencySlippagePolicy .. => usdJpyPolicy.latencySlippage.identitySha256
  | .quoteValidatedReplayPolicy .. => usdJpyPolicy.identitySha256
  | .completeQuoteSideCoverage payload =>
    match payload.side, payload.quoteRecords.length with
    | .bid, 4 => usdJpyEvidence.bid.contentSha256
    | .bid, _ => usdJpyPastEvidence.bid.contentSha256
    | .ask, 2 => usdJpyEvidence.ask.contentSha256
    | .ask, _ => usdJpyPastEvidence.ask.contentSha256
  | .completeBidAskQuoteEvidence _ bid _ =>
    if bid = usdJpyEvidence.bid.contentSha256 then usdJpyEvidence.contentSha256
    else usdJpyPastEvidence.contentSha256
  | .executedDecisionPlan plan =>
    if plan = usdJpyPlan 1100 none then
      "e70a98b4be26c74571e43fb6fb149ec7339d127ab130df6e7b901c72d0b75151"
    else "e1f4bc72a8c4dfc49f9b6ec1cdc68649b20819aae6c705c2fa8eb90c295362b2"
  | .researchLedger _ evidence _ positions entryUnavailable authority _ _ =>
    match authority, positions.map (·.entryReference.timestampUnixMs) with
    | .unverifiedCallerSuppliedQuotes, [] =>
      if entryUnavailable.map (·.decisionAtUnixMs) = [1900] then
        "d0b2ab7a6531c170a91d5d42fa8c11e32a581d4e6786bf409d0fc7e039b304d6"
      else "40f4050ccacaf6f75df37cdc023892e145e06bd31a037e0dd85b3272c40dc3f9"
    | .unverifiedCallerSuppliedQuotes, _ :: _ =>
      if evidence = usdJpyEvidence.contentSha256 then
        "d9c32b6d00740dcad9893f9760811b1e79e02618a72af5aab01e5ebaf93992de"
      else "3bf550490ffe265772113d138d6c052fdece6416fb4f844862613aa7e94ed030"
    | .historicalBidAskQuotesOnly, entries =>
      if entries = [1110] then "2516e121c9cc8718c20b392efb3bb443a1ff63127daf96276fdb99e45a98eb17"
      else "cb45dea1ccec515dddfbd5312e0154d9945788abc57bcd96d0f1bab62b816ba1"

def usdJpySealed : SealedHistoricalBidAskQuoteReplayEvidence usdJpySha256 :=
  ⟨usdJpyEvidence, hexDigest 'f', by decide +kernel⟩

end UsdJpy

end Neoethos
