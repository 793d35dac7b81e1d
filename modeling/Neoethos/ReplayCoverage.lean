import Neoethos.ReplayOutcome

namespace Neoethos

variable {P : Type}

def EvidenceWindow.times (window : EvidenceWindow) : Set Int :=
  Set.Ico window.fromUnixMsInclusive window.toUnixMsExclusive

namespace QuoteValidatedResearchReplayPolicy

variable (policy : QuoteValidatedResearchReplayPolicy P)

def entryWindow (decisionAt : Int) : Set Int :=
  Set.Icc (decisionAt + policy.latencySlippage.entryLatencyMs) (decisionAt + policy.maxEntryWaitMs)

/-- Where the exit of a timer is searched; every such search is anchored at the timer itself. -/
def maxHoldWindow (timerAt : Int) : Set Int :=
  Set.Icc (timerAt + policy.latencySlippage.exitLatencyMs) (timerAt + policy.maxExitWaitMs)

/-- Where the opposite side is searched for the book of a candidate. -/
def stalenessHorizon (candidateAt : Int) : Set Int :=
  Set.Icc (candidateAt - policy.maxQuoteStalenessMs) candidateAt

end QuoteValidatedResearchReplayPolicy

theorem Icc_subset_times_iff {window : EvidenceWindow} {lower upper : Int}
    (hlower : window.fromUnixMsInclusive ≤ lower) :
    Set.Icc lower upper ⊆ window.times ↔ upper < lower ∨ upper < window.toUnixMsExclusive := by
  unfold EvidenceWindow.times
  obtain hempty | hle := lt_or_ge upper lower
  · rw [Set.Icc_eq_empty (not_le.mpr hempty)]
    simp [hempty]
  · rw [Set.Icc_subset_Ico_iff hle]
    constructor
    · intro h
      exact .inr h.2
    · intro h
      exact ⟨hlower, by omega⟩

namespace QuoteValidatedResearchReplayPlan.Accepted

variable {plan : QuoteValidatedResearchReplayPlan P} {decision : CanonicalBarSignalResearchDecision P}

theorem coverage_le_decision (h : plan.Accepted decision) :
    plan.binding.replayScope.requiredQuoteCoverageWindow.fromUnixMsInclusive +
      plan.policy.maxQuoteStalenessMs < decision.nextCanonicalBarOpenUnixMs := by
  have hseed := h.bounded.seedPadding
  have hlower := h.padded.lower
  have hsignal := h.signal
  have hdecided := h.decided
  omega

/-- The entry wait is not part of the padding check: it may outlast the evidence. -/
theorem entryWindow_covered_iff (h : plan.Accepted decision) :
    plan.policy.entryWindow decision.nextCanonicalBarOpenUnixMs ⊆
        plan.binding.replayScope.requiredQuoteCoverageWindow.times ↔
      plan.policy.maxEntryWaitMs < plan.policy.latencySlippage.entryLatencyMs ∨
      decision.nextCanonicalBarOpenUnixMs + plan.policy.maxEntryWaitMs <
        plan.binding.replayScope.lockedEvaluationWindow.toUnixMsExclusive +
          plan.binding.replayScope.exitPaddingMs := by
  have hfrom := h.coverage_le_decision
  have hstaleness := h.bounded.staleness
  have hlatency := h.bounded.entryLatency
  have hupper := h.padded.upper
  unfold QuoteValidatedResearchReplayPolicy.entryWindow
  rw [Icc_subset_times_iff (by omega), hupper]
  omega

/-- The padding check leaves one gap: a timer at the end of the locked window whose exit wait ends
at the excluded end of the evidence. -/
theorem maxHoldWindow_covered_iff (h : plan.Accepted decision) {exit : ClosedCanonicalBarTimeExit}
    (hexit : exit ∈ plan.timeExit) :
    plan.policy.maxHoldWindow exit.effectiveAtNextBarOpenUnixMs ⊆
        plan.binding.replayScope.requiredQuoteCoverageWindow.times ↔
      ¬(exit.effectiveAtNextBarOpenUnixMs =
          plan.binding.replayScope.lockedEvaluationWindow.toUnixMsExclusive ∧
        plan.policy.latencySlippage.exitLatencyMs = 0 ∧
        plan.binding.replayScope.exitPaddingMs = plan.policy.maxExitWaitMs) := by
  have hfrom := h.coverage_le_decision
  have hstaleness := h.bounded.staleness
  have hwait := h.bounded.exitWait
  have hlatency := h.bounded.exitLatency
  have hpadding := h.bounded.exitPadding
  have hupper := h.padded.upper
  obtain ⟨hafter, hlocked⟩ := h.timer exit hexit
  unfold QuoteValidatedResearchReplayPolicy.maxHoldWindow
  rw [Icc_subset_times_iff (by omega), hupper]
  omega

/-- The seed padding covers the book of every candidate behind the decision. -/
theorem stalenessHorizon_covered (h : plan.Accepted decision) {candidateAt : Int}
    (hafter : decision.nextCanonicalBarOpenUnixMs ≤ candidateAt)
    (hinside : candidateAt <
      plan.binding.replayScope.requiredQuoteCoverageWindow.toUnixMsExclusive) :
    plan.policy.stalenessHorizon candidateAt ⊆
      plan.binding.replayScope.requiredQuoteCoverageWindow.times := by
  have hfrom := h.coverage_le_decision
  have hstaleness := h.bounded.staleness
  unfold QuoteValidatedResearchReplayPolicy.stalenessHorizon
  exact (Icc_subset_times_iff (by omega)).mpr (.inr hinside)

end QuoteValidatedResearchReplayPlan.Accepted

variable [Ring P] [LinearOrder P] {sha256 : HashPayload P → String}
  {plan : QuoteValidatedResearchReplayPlan P} {evidence : CompleteBidAskQuoteReplayEvidence P}
  {authority : QuoteValidatedResearchAuthority} {manifest : Option String}
  {ledger : QuoteValidatedResearchLedger P}

/-- For every accepted replay: exactly when a missing entry was searched inside the evidence, exactly
when a timer's exit is, and that the book of a candidate always is. -/
theorem negative_verdicts_covered_iff (hcomplete : evidence.validatePayload sha256 = .ok ())
    (hreplay : replayWithAuthority sha256 plan evidence authority manifest = .ok ledger) :
    ∃ decision, plan.decisions = [decision] ∧
      (∀ unavailable ∈ ledger.entryUnavailable,
        unavailable.deadlineUnixMs =
            decision.nextCanonicalBarOpenUnixMs + plan.policy.maxEntryWaitMs ∧
        (plan.policy.entryWindow decision.nextCanonicalBarOpenUnixMs ⊆
            evidence.binding.replayScope.requiredQuoteCoverageWindow.times ↔
          plan.policy.maxEntryWaitMs < plan.policy.latencySlippage.entryLatencyMs ∨
          decision.nextCanonicalBarOpenUnixMs + plan.policy.maxEntryWaitMs <
            plan.binding.replayScope.lockedEvaluationWindow.toUnixMsExclusive +
              plan.binding.replayScope.exitPaddingMs)) ∧
      (∀ exit ∈ plan.timeExit,
        (plan.policy.maxHoldWindow exit.effectiveAtNextBarOpenUnixMs ⊆
            evidence.binding.replayScope.requiredQuoteCoverageWindow.times ↔
          ¬(exit.effectiveAtNextBarOpenUnixMs =
              plan.binding.replayScope.lockedEvaluationWindow.toUnixMsExclusive ∧
            plan.policy.latencySlippage.exitLatencyMs = 0 ∧
            plan.binding.replayScope.exitPaddingMs = plan.policy.maxExitWaitMs))) ∧
      (∀ candidate ∈ evidence.quotes decision.direction.entrySide,
        decision.nextCanonicalBarOpenUnixMs + plan.policy.latencySlippage.entryLatencyMs ≤
            candidate.timestampUnixMs →
        plan.policy.stalenessHorizon candidate.timestampUnixMs ⊆
          evidence.binding.replayScope.requiredQuoteCoverageWindow.times) := by
  obtain ⟨-, -, hbinding, decision, haccepted, houtcome⟩ :=
    replayWithAuthority_ok_iff.mp ⟨ledger, hreplay, rfl, rfl⟩
  have hquotes := CompleteBidAskQuoteReplayEvidence.inOrder_of_validatePayload hcomplete
  rw [← hbinding] at hquotes ⊢
  refine ⟨decision, haccepted.sole, ?_, ?_, ?_⟩
  · intro unavailable hunavailable
    refine ⟨?_, haccepted.entryWindow_covered_iff⟩
    generalize ledger.positions = positions, ledger.entryUnavailable = entryUnavailable at *
    cases houtcome with
    | entered => cases hunavailable
    | notEntered hentry =>
      cases List.mem_singleton.mp hunavailable
      exact selectEntry_unavailable (hquotes _) hentry
  · intro exit hexit
    exact haccepted.maxHoldWindow_covered_iff hexit
  · intro candidate hcandidate hafter
    have hlatency := haccepted.bounded.entryLatency
    exact haccepted.stalenessHorizon_covered (by omega) ((hquotes _).inside candidate hcandidate).2

/-- No entry for the decision at 1500, and the evidence covers its whole wait and its timer. -/
theorem negative_verdicts_covered_at_1500 :
    ∃ ledger, replayWithAuthority usdJpySha256 (usdJpyPlan 1500 (some ⟨1500, 1900⟩)) usdJpyEvidence
        .unverifiedCallerSuppliedQuotes none = .ok ledger ∧
      ledger.entryUnavailable = [⟨1500, 2000, .noEligibleQuoteWithinEntryWait⟩] ∧
      usdJpyPolicy.entryWindow 1500 ⊆ usdJpyCoverage.times ∧
      usdJpyPolicy.maxHoldWindow 1900 ⊆ usdJpyCoverage.times := by
  obtain ⟨ledger, hreplay, hledger⟩ := Fallible.exists_ok_of_any
    (x := replayWithAuthority usdJpySha256 (usdJpyPlan 1500 (some ⟨1500, 1900⟩)) usdJpyEvidence
      .unverifiedCallerSuppliedQuotes none)
    (p := fun ledger =>
      ledger.entryUnavailable = [⟨1500, 2000, .noEligibleQuoteWithinEntryWait⟩])
    (by decide +kernel)
  have hunavailable := of_decide_eq_true hledger
  have hcomplete : usdJpyEvidence.validatePayload usdJpySha256 = .ok () := by decide +kernel
  obtain ⟨decision, hsole, hentry, htimer, -⟩ := negative_verdicts_covered_iff hcomplete hreplay
  cases hsole
  rw [hunavailable] at hentry
  obtain ⟨-, hentryWindow⟩ := hentry _ (List.mem_singleton_self _)
  exact ⟨ledger, hreplay, hunavailable, hentryWindow.mpr (by decide), (htimer _ rfl).mpr (by decide)⟩

/-- The decision at 1900 waits for an entry until 2400, but the evidence ends at 2100. -/
theorem entry_verdict_outlasts_evidence :
    usdJpyEvidence.validate usdJpySha256 = .ok () ∧
    ∃ ledger, replayWithAuthority usdJpySha256 (usdJpyPlan 1900 none) usdJpyEvidence
        .unverifiedCallerSuppliedQuotes none = .ok ledger ∧
      ledger.entryUnavailable = [⟨1900, 2400, .noEligibleQuoteWithinEntryWait⟩] ∧
      ¬usdJpyPolicy.entryWindow 1900 ⊆
        usdJpyEvidence.binding.replayScope.requiredQuoteCoverageWindow.times := by
  obtain ⟨ledger, hreplay, hledger⟩ := Fallible.exists_ok_of_any
    (x := replayWithAuthority usdJpySha256 (usdJpyPlan 1900 none) usdJpyEvidence
      .unverifiedCallerSuppliedQuotes none)
    (p := fun ledger =>
      ledger.entryUnavailable = [⟨1900, 2400, .noEligibleQuoteWithinEntryWait⟩])
    (by decide +kernel)
  refine ⟨by decide +kernel, ledger, hreplay, of_decide_eq_true hledger, ?_⟩
  intro hcovered
  have hlate : (2400 : Int) ∈ usdJpyPolicy.entryWindow 1900 := ⟨by decide, by decide⟩
  have hinside : (2400 : Int) < 2100 := (hcovered hlate).2
  omega

end Neoethos
