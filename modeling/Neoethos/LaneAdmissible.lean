import Neoethos.LaneRefinement
import Neoethos.LaneSchedule
import Neoethos.ReplayExtrema

set_option linter.overlappingInstances false

namespace Neoethos

open Fallible (bind_ok_iff bind_error_iff check_ok_iff forM_ok_iff forPairs_ok_iff)

section Selection

variable {decision recentred : CanonicalBarSignalResearchDecision ℚ}
  {policy : QuoteValidatedResearchReplayPolicy ℚ}

theorem selectEntryFrom_recentred (hdirection : recentred.direction = decision.direction)
    (hnext : recentred.nextCanonicalBarOpenUnixMs = decision.nextCanonicalBarOpenUnixMs)
    (oppositeQuotes : List (ExactHistoricalQuote ℚ)) (deadline : Int) (sawStaleCandidate : Bool)
    (candidates : List (ExactHistoricalQuote ℚ)) :
    selectEntryFrom recentred policy oppositeQuotes deadline sawStaleCandidate candidates =
      selectEntryFrom decision policy oppositeQuotes deadline sawStaleCandidate candidates := by
  induction candidates generalizing sawStaleCandidate with
  | nil => simp only [selectEntryFrom, nonEntry, hnext]
  | cons candidate candidates ih => simp only [selectEntryFrom, nonEntry, hdirection, hnext, ih]

theorem selectEntry_recentred (hdirection : recentred.direction = decision.direction)
    (hnext : recentred.nextCanonicalBarOpenUnixMs = decision.nextCanonicalBarOpenUnixMs)
    (evidence : CompleteBidAskQuoteReplayEvidence ℚ) :
    selectEntry recentred evidence policy = selectEntry decision evidence policy := by
  unfold selectEntry
  simp only [hdirection, hnext, selectEntryFrom_recentred hdirection hnext]

end Selection

section Errors

variable {decision : CanonicalBarSignalResearchDecision ℚ} {entryQuote : ExactHistoricalQuote ℚ}
  {evidence : CompleteBidAskQuoteReplayEvidence ℚ}
  {policy : QuoteValidatedResearchReplayPolicy ℚ}
  {thresholds : List (ClosedCanonicalBarTrailingThreshold ℚ)}
  {timeExit : Option ClosedCanonicalBarTimeExit} {error : ReplayError}

/-- What can still go wrong behind an entry: an ambiguous order of the sides, a modeled price or a
latency out of range, and no quote to leave by. -/
def ReplayErrorCode.BehindEntry (code : ReplayErrorCode) : Prop :=
  code = .ambiguousSameTimestampCrossSideOutcome ∨ code = .invalidPolicy ∨
    code = .exitReferenceUnavailable

theorem refuseIf_error {bad : Prop} [Decidable bad] {code : ReplayErrorCode} {detail : String}
    (h : refuseIf bad code detail = .error error) : bad ∧ error = ⟨code, detail⟩ := by
  unfold refuseIf at h
  split at h
  next hbad => exact ⟨hbad, (Except.error.inj h).symm⟩
  next => cases h

theorem okOrElse_error {α : Type} {x : Option α} {code : ReplayErrorCode} {detail : String}
    (h : okOrElse x code detail = .error error) : error = ⟨code, detail⟩ := by
  cases x with
  | none => exact (Except.error.inj h).symm
  | some a => cases h

theorem modeledPrice_error {referencePrice : ℚ} {direction : ResearchPositionDirection}
    {isEntry : Bool} {assumptions : VersionedLatencySlippagePolicy ℚ}
    (h : modeledPrice referencePrice direction isEntry assumptions = .error error) :
    error.code.BehindEntry := by
  obtain h | ⟨_, _, h⟩ := bind_error_iff.mp h
  · rw [(refuseIf_error h).2]
    exact .inr (.inl rfl)
  · cases h

theorem modeledExit_error {assumptions : VersionedLatencySlippagePolicy ℚ}
    {selectedExit : Option (ExactHistoricalQuote ℚ × QuoteValidatedResearchExitReason)}
    (h : modeledExit decision assumptions selectedExit = .error error) :
    error.code.BehindEntry := by
  cases selectedExit with
  | none => cases h
  | some selected =>
    obtain h | ⟨_, _, h⟩ := bind_error_iff.mp h
    · exact modeledPrice_error h
    · cases h

theorem exitTrigger_error {timerAt : Option Int} {quote : ExactHistoricalQuote ℚ}
    (h : exitTrigger decision entryQuote policy thresholds timerAt quote = .error error) :
    error.code.BehindEntry := by
  unfold exitTrigger at h
  split at h
  next => cases h
  next =>
    dsimp only at h
    split at h
    next =>
      split at h
      next => cases h
      next => cases h
      next =>
        rw [← Except.error.inj h]
        exact .inl rfl
    next => cases h

theorem selectExitReference_error {quotes : List (ExactHistoricalQuote ℚ)} {firstIndex : Nat}
    {triggerAt : Int} {reason : QuoteValidatedResearchExitReason}
    (h : selectExitReference quotes firstIndex triggerAt reason policy = .error error) :
    error.code.BehindEntry := by
  obtain h | ⟨_, _, h⟩ := bind_error_iff.mp h
  · rw [okOrElse_error h]
    exact .inr (.inl rfl)
  · obtain h | ⟨_, _, h⟩ := bind_error_iff.mp h
    · rw [okOrElse_error h]
      exact .inr (.inl rfl)
    · obtain h | ⟨_, _, h⟩ := bind_error_iff.mp h
      · rw [okOrElse_error h]
        exact .inr (.inr rfl)
      · cases h

theorem selectExitFrom_error {timerAt : Option Int} {triggerIndex : Nat}
    {quotes triggers : List (ExactHistoricalQuote ℚ)}
    (h : selectExitFrom decision entryQuote policy thresholds timerAt quotes triggerIndex triggers =
      .error error) : error.code.BehindEntry := by
  induction triggers generalizing triggerIndex with
  | nil =>
    cases timerAt with
    | none => cases h
    | some timer => exact selectExitReference_error h
  | cons quote triggers ih =>
    obtain h | ⟨triggered, _, h⟩ := bind_error_iff.mp h
    · exact exitTrigger_error h
    · cases triggered with
      | none => exact ih h
      | some triggered => exact selectExitReference_error h

/-- An exit search whose timer lies behind the entry does not complain about the timer. -/
theorem selectExit_error
    (htimer : ∀ exit ∈ timeExit,
      entryQuote.timestampUnixMs < exit.effectiveAtNextBarOpenUnixMs)
    (h : selectExit decision entryQuote evidence policy thresholds timeExit = .error error) :
    error.code.BehindEntry := by
  obtain h | ⟨_, _, h⟩ := bind_error_iff.mp h
  · obtain ⟨hearly, _⟩ := refuseIf_error h
    obtain ⟨timer, hmapped, hle⟩ := (Option.any_eq_true _ _).mp hearly
    obtain ⟨exit, hexit, rfl⟩ := Option.map_eq_some_iff.mp hmapped
    have hlt := htimer exit hexit
    have hle := of_decide_eq_true hle
    omega
  · exact selectExitFrom_error h

end Errors

section Replay

variable {sha256 : HashPayload ℚ → String}
  {evidence : SealedHistoricalBidAskQuoteReplayEvidence sha256}
  {plan : QuoteValidatedResearchReplayPlan ℚ} {decision : CanonicalBarSignalResearchDecision ℚ}
  {selected : SelectedEntryBook ℚ} {modeledEntryPrice : ℚ} {error : ReplayError}

theorem replayPosition_error
    (hprice : modeledPrice selected.entryQuote.price decision.direction true
      plan.policy.latencySlippage = .ok modeledEntryPrice)
    (hbounds : modeledEntryWithinBounds decision modeledEntryPrice = true)
    (htimer : ∀ exit ∈ plan.timeExit,
      selected.entryQuote.timestampUnixMs < exit.effectiveAtNextBarOpenUnixMs)
    (h : replayPosition plan evidence.evidence decision selected = .error error) :
    error.code.BehindEntry := by
  obtain h | ⟨price, hmodeled, h⟩ := bind_error_iff.mp h
  · exact modeledPrice_error h
  · obtain rfl := Except.ok.inj (hmodeled.symm.trans hprice)
    obtain h | ⟨_, _, h⟩ := bind_error_iff.mp h
    · exact absurd hbounds (refuseIf_error h).1
    · obtain h | ⟨_, _, h⟩ := bind_error_iff.mp h
      · exact selectExit_error htimer h
      · obtain h | ⟨_, _, h⟩ := bind_error_iff.mp h
        · exact modeledExit_error h
        · cases h

theorem validateDigest_error {label digest : String}
    (h : validateDigest label digest = .error error) : error.code = .invalidSha256 := by
  unfold validateDigest at h
  cases hhex : validateSha256Hex label digest with
  | error message =>
    rw [hhex] at h
    rw [← Except.error.inj h]
  | ok _ =>
    rw [hhex] at h
    cases h

/-- The replay of a valid plan fails behind its entry or on the digest of the quote acquisition. -/
theorem replaySealed_error (hvalid : plan.validate sha256 = .ok ())
    (hbinding : plan.binding = evidence.evidence.binding) (hsole : plan.decisions = [decision])
    (hentry : selectEntry decision evidence.evidence plan.policy = .ok (.available selected))
    (hprice : modeledPrice selected.entryQuote.price decision.direction true
      plan.policy.latencySlippage = .ok modeledEntryPrice)
    (hbounds : modeledEntryWithinBounds decision modeledEntryPrice = true)
    (htimer : ∀ exit ∈ plan.timeExit,
      selected.entryQuote.timestampUnixMs < exit.effectiveAtNextBarOpenUnixMs)
    (h : replaySealedQuoteValidatedResearch plan evidence = .error error) :
    error.code.BehindEntry ∨ error.code = .invalidSha256 := by
  obtain h | ⟨ledger, _, h⟩ := bind_error_iff.mp h
  · obtain h | ⟨_, _, h⟩ := bind_error_iff.mp h
    · rw [hvalid] at h
      cases h
    obtain h | ⟨_, _, h⟩ := bind_error_iff.mp h
    · exact .inr (validateDigest_error h)
    obtain h | ⟨_, _, h⟩ := bind_error_iff.mp h
    · exact absurd hbinding (refuseIf_error h).1
    obtain h | ⟨_, _, h⟩ := bind_error_iff.mp h
    · rw [hsole, replayDecisions, hentry] at h
      rw [Fallible.ok_bind] at h
      obtain h | ⟨_, _, h⟩ := bind_error_iff.mp h
      · exact .inl (replayPosition_error hprice hbounds htimer h)
      · cases h
    · cases h
  · obtain h | ⟨_, _, h⟩ := bind_error_iff.mp h
    · unfold QuoteValidatedResearchReplayPlan.soleDecision at h
      rw [hsole] at h
      cases h
    obtain h | ⟨_, _, h⟩ := bind_error_iff.mp h
    · obtain h | ⟨_, _, h⟩ := bind_error_iff.mp h
      · rw [hvalid] at h
        cases h
      · cases h
    · cases h

end Replay

section Plan

variable {sha256 : HashPayload ℚ → String} {lane : SignalQuoteLane ℚ}
  {binding : QuoteValidatedResearchReplayBinding} {policy : QuoteValidatedResearchReplayPolicy ℚ}
  {duration : Int} {decision : CanonicalBarSignalResearchDecision ℚ}
  {thresholds : List (ClosedCanonicalBarTrailingThreshold ℚ)}
  {timeExit : Option ClosedCanonicalBarTimeExit}

theorem refuseLooseningSchedule_of_schedule {direction : ResearchPositionDirection}
    {latestLong latestShort : Option ℚ}
    (hdirection : ∀ threshold ∈ thresholds, threshold.direction = direction)
    (hpairs : thresholds.Pairwise fun first second =>
      direction.NoLooser first.thresholdPrice second.thresholdPrice)
    (hlatest : ∀ latest ∈ (match direction with | .long => latestLong | .short => latestShort),
      ∀ threshold ∈ thresholds, direction.NoLooser latest threshold.thresholdPrice) :
    QuoteValidatedResearchReplayPlan.refuseLooseningSchedule latestLong latestShort thresholds =
      .ok () := by
  induction thresholds generalizing latestLong latestShort with
  | nil => rfl
  | cons threshold rest ih =>
    have hhead := hdirection threshold List.mem_cons_self
    have hrest := fun other hother => hdirection other (List.mem_cons_of_mem _ hother)
    obtain ⟨hfirst, hpairs⟩ := List.pairwise_cons.mp hpairs
    unfold QuoteValidatedResearchReplayPlan.refuseLooseningSchedule
    simp only [hhead]
    cases direction with
    | long =>
      refine check_ok_iff.mpr ⟨refuseIf_ok.mpr ?_, ?_⟩
      · intro hany
        obtain ⟨previous, hprevious, hlooser⟩ := (Option.any_eq_true _ _).mp hany
        have hle := hlatest previous hprevious threshold List.mem_cons_self
        exact absurd (of_decide_eq_true hlooser) (not_lt.mpr hle)
      · apply ih hrest hpairs
        intro latest hsome other hother
        obtain rfl := Option.some.inj hsome
        exact hfirst other hother
    | short =>
      refine check_ok_iff.mpr ⟨refuseIf_ok.mpr ?_, ?_⟩
      · intro hany
        obtain ⟨previous, hprevious, hlooser⟩ := (Option.any_eq_true _ _).mp hany
        have hle := hlatest previous hprevious threshold List.mem_cons_self
        exact absurd (of_decide_eq_true hlooser) (not_lt.mpr hle)
      · apply ih hrest hpairs
        intro latest hsome other hother
        obtain rfl := Option.some.inj hsome
        exact hfirst other hother

/-- A decision of the lane's window, with a schedule of its own bars and a timer inside the window,
is an admissible plan. -/
theorem plan_valid (h : lane.Accepted sha256 binding policy duration)
    (hdecision : QuoteValidatedResearchReplayPlan.validateDecision
      binding.replayScope.lockedEvaluationWindow decision = .ok ())
    {start : Nat}
    (hstart : ∀ index ≥ start, ∀ bar, lane.bars.get index = some bar →
      decision.nextCanonicalBarOpenUnixMs ≤ bar.ts)
    (hratchet : Ratchet lane duration decision.direction start none thresholds)
    (htimer : ∀ exit ∈ timeExit, ∃ index ≥ start, ∃ bar, lane.bars.get index = some bar ∧
      exit = ⟨bar.ts, bar.ts + duration⟩) :
    QuoteValidatedResearchReplayPlan.validate sha256
      ⟨binding, policy, [decision], thresholds, timeExit⟩ = .ok () := by
  have hpos := h.duration_pos
  refine check_ok_iff.mpr ⟨h.policyAccepted, ?_⟩
  refine check_ok_iff.mpr ⟨refuseIf_ok.mpr (by simp), ?_⟩
  refine check_ok_iff.mpr ⟨forM_ok_iff.mpr (by simpa using hdecision), ?_⟩
  refine bind_ok_iff.mpr ⟨decision, okOrElse_ok.mpr rfl, ?_⟩
  refine check_ok_iff.mpr ⟨forM_ok_iff.mpr ?_, ?_⟩
  · intro exit hexit
    obtain ⟨index, hindex, bar, hbar, rfl⟩ := htimer exit (Option.mem_toList.mp hexit)
    have hclosed := h.closed_of_get hbar
    have hnonneg := hclosed.nonneg
    have hinside := hclosed.inside
    have hafter := hstart index hindex bar hbar
    refine check_ok_iff.mpr ⟨refuseIf_ok.mpr ?_, refuseIf_ok.mpr ?_⟩
    · dsimp only
      omega
    · dsimp only
      omega
  refine check_ok_iff.mpr ⟨forM_ok_iff.mpr ?_, ?_⟩
  · intro threshold hmem
    obtain ⟨hdirection, hpositive, index, bar, hindex, hbar, hsource, heffective⟩ :=
      hratchet.owned threshold hmem
    have hclosed := h.closed_of_get hbar
    have hnonneg := hclosed.nonneg
    have hinside := hclosed.inside
    have hafter := hstart index hindex bar hbar
    have hopens := h.opens_in_window hbar
    have hbehind := h.quotes_behind
    refine check_ok_iff.mpr ⟨refuseIf_ok.mpr ?_, refuseIf_ok.mpr ?_⟩
    · simp only [not_or, not_lt, not_le]
      exact ⟨by omega, by omega, hpositive⟩
    · simp only [not_or, not_lt, not_le, not_not, ne_eq]
      exact ⟨by omega, by omega, hdirection, by omega⟩
  refine check_ok_iff.mpr ⟨forPairs_ok_iff.mpr ?_, ?_⟩
  · simp only [refuseIf_ok, not_le]
    exact hratchet.schedule.timeOrdered.isChain
  · apply refuseLooseningSchedule_of_schedule
      (fun threshold hmem => (hratchet.owned threshold hmem).1) hratchet.schedule.neverLoosens
    intro latest hlatest
    split at hlatest <;> cases hlatest

end Plan

section Entered

variable {sha256 : HashPayload ℚ → String} {lane : SignalQuoteLane ℚ}
  {binding : QuoteValidatedResearchReplayBinding} {policy : QuoteValidatedResearchReplayPolicy ℚ}
  {duration : Int} {signal : Signal ℚ} {bar entryBar : QuoteBar ℚ} {engine : DecisionEngine ℚ}
  {entry : ResearchEntryPreview ℚ} {entryIndex index : Nat} {stop target : ℚ}

theorem signalAt_directed (h : lane.signalAt index bar = some signal) : signal.dir ≠ .flat := by
  obtain ⟨_, _, h⟩ := Option.bind_eq_some_iff.mp h
  have hsignal : ∃ dir ≠ Direction.flat, signal.dir = dir := by
    dsimp only at h
    split at h
    next =>
      split at h
      next =>
        obtain ⟨dir, hdir, h⟩ := Option.bind_eq_some_iff.mp h
        obtain rfl := Option.some.inj hdir
        obtain ⟨_, _, h⟩ := Option.bind_eq_some_iff.mp h
        exact ⟨.long, Direction.noConfusion, by rw [← Option.some.inj h]⟩
      next => exact ⟨.long, Direction.noConfusion, by rw [← Option.some.inj h]⟩
    next =>
      split at h
      next =>
        obtain ⟨dir, hdir, h⟩ := Option.bind_eq_some_iff.mp h
        obtain rfl := Option.some.inj hdir
        obtain ⟨_, _, h⟩ := Option.bind_eq_some_iff.mp h
        exact ⟨.short, Direction.noConfusion, by rw [← Option.some.inj h]⟩
      next => exact ⟨.short, Direction.noConfusion, by rw [← Option.some.inj h]⟩
    next => cases h
  obtain ⟨dir, hdir, rfl⟩ := hsignal
  exact hdir

theorem decided_of_bracketDecision {decision : CanonicalBarSignalResearchDecision ℚ}
    {between : DecisionEngine ℚ} {mark : ℚ}
    (hcfg : engine.cfg = DecisionConfig.geneParity lane.pipSize) (hmark : 0 < mark)
    (hdir : signal.dir ≠ .flat)
    (h : bracketDecision engine signal bar duration mark = .ok (decision, stop, target, between)) :
    decision.direction = signal.dir.research ∧ decision.signalBarOpenUnixMs = bar.ts ∧
      between.cfg = engine.cfg := by
  obtain ⟨own, far, hbracket, _, hsame⟩ := bracket_around signal hcfg hmark hdir
  unfold bracketDecision at h
  rw [intent_of_bracket hdir hbracket] at h
  obtain ⟨direction, hdirection, h⟩ := bind_ok_iff.mp h
  obtain ⟨closeAt, _, h⟩ := bind_ok_iff.mp h
  obtain ⟨built, hbuilt, h⟩ := bind_ok_iff.mp h
  obtain ⟨_, hbuilt⟩ := check_ok_iff.mp (fromKernel_ok_iff.mp hbuilt)
  obtain ⟨hdecision, hrest⟩ := Prod.mk.inj (Except.ok.inj h)
  obtain ⟨_, hrest⟩ := Prod.mk.inj hrest
  obtain ⟨_, hbetween⟩ := Prod.mk.inj hrest
  rw [← hdecision, ← Except.ok.inj hbuilt, ← hbetween]
  refine ⟨?_, rfl, hsame⟩
  cases hcase : signal.dir with
  | long =>
    rw [hcase] at hdirection
    exact (Except.ok.inj hdirection).symm
  | short =>
    rw [hcase] at hdirection
    exact (Except.ok.inj hdirection).symm
  | flat => exact absurd hcase hdir

theorem modeledPrice_pos {referencePrice modeled : ℚ} {direction : ResearchPositionDirection}
    {isEntry : Bool} {assumptions : VersionedLatencySlippagePolicy ℚ}
    (h : modeledPrice referencePrice direction isEntry assumptions = .ok modeled) :
    0 < modeled := by
  obtain ⟨hpositive, h⟩ := check_ok_iff.mp h
  obtain rfl := Except.ok.inj h
  exact not_le.mp (refuseIf_ok.mp hpositive)

theorem withinBounds_of_around {mark : ℚ} {signalBarOpen nextBarOpen : Int}
    (h : signal.dir.Around stop mark target) :
    modeledEntryWithinBounds ⟨signalBarOpen, nextBarOpen, signal.dir.research, stop, target⟩ mark =
      true := by
  cases hcase : signal.dir with
  | long =>
    rw [hcase] at h
    exact Bool.and_eq_true_iff.mpr ⟨decide_eq_true h.1, decide_eq_true h.2⟩
  | short =>
    rw [hcase] at h
    exact Bool.and_eq_true_iff.mpr ⟨decide_eq_true h.2, decide_eq_true h.1⟩
  | flat =>
    rw [hcase] at h
    exact h.elim

/-- Every price that the trailing stop of the position asks for is positive. -/
def TrailingPositive (lane : SignalQuoteLane ℚ) (duration : Int) (signal : Signal ℚ)
    (entry : ResearchEntryPreview ℚ) (entryIndex : Nat) (stop : ℚ) : Prop :=
  ∀ trailing ∈ lane.trailing, ∀ lastHold, lastHoldIndex lane entryIndex = .ok lastHold →
    ∀ price ∈ trailingPrices lane duration signal entry entryIndex stop trailing none
      (List.range' entryIndex (min lastHold lane.bars.len - entryIndex)), 0 < price

theorem trailingSchedule_of_positive (h : lane.Accepted sha256 binding policy duration)
    (hentry : entry.Inside lane binding duration entryIndex entryBar) (hdir : signal.dir ≠ .flat)
    {lastHold : Nat} (hlast : lastHoldIndex lane entryIndex = .ok lastHold)
    (hpositive : TrailingPositive lane duration signal entry entryIndex stop) :
    ∃ thresholds, trailingSchedule lane duration signal entry entryIndex stop lastHold =
        .ok thresholds ∧
      Ratchet lane duration signal.dir.research entryIndex none thresholds := by
  unfold trailingSchedule
  cases htrailing : lane.trailing with
  | none =>
    refine ⟨[], rfl, ?_, ⟨List.Pairwise.nil, List.Pairwise.nil⟩, ?_⟩
    · intro threshold hmem
      exact absurd hmem List.not_mem_nil
    · intro previous hprevious
      cases hprevious
  | some trailing =>
    have hinside := QuoteBars.lt_len_of_get hentry.bar
    exact trailingThresholds_of_positive h hentry hdir (by omega)
      (hpositive trailing htrailing lastHold hlast)

theorem lastHoldIndex_cases (lane : SignalQuoteLane ℚ) (entryIndex : Nat) :
    (lastHoldIndex lane entryIndex = .error (.lane "max-hold index overflow") ∧
        2 ^ 64 ≤ entryIndex + (lane.maxHoldBars - 1)) ∨
      ∃ lastHold, lastHoldIndex lane entryIndex = .ok lastHold ∧
        (lastHold = lane.bars.len ∨ entryIndex ≤ lastHold) := by
  unfold lastHoldIndex
  split
  next => exact .inr ⟨_, rfl, .inl rfl⟩
  next =>
    split
    next hlarge => exact .inl ⟨rfl, hlarge⟩
    next => exact .inr ⟨_, rfl, .inr (by omega)⟩

/-- What the kernel makes of the plan of an entered position: it accepts it, with a schedule that
lies in time and in the window and never loosens and a timer of the position's own bars; it enters
on the previewed quote at the previewed price, inside the bracket; and it never fails for the
bracket or for the timer. -/
structure AdmissiblePlan (sha256 : HashPayload ℚ → String)
    (evidence : SealedHistoricalBidAskQuoteReplayEvidence sha256) (entry : ResearchEntryPreview ℚ)
    (plan : QuoteValidatedResearchReplayPlan ℚ) (decision : CanonicalBarSignalResearchDecision ℚ) :
    Prop where
  sole : plan.decisions = [decision]
  valid : plan.validate sha256 = .ok ()
  schedule : TrailingSchedule decision.direction plan.trailingThresholds
  covered : ∀ threshold ∈ plan.trailingThresholds,
    decision.nextCanonicalBarOpenUnixMs ≤ threshold.sourceBarOpenUnixMs ∧
      threshold.effectiveAtNextBarOpenUnixMs ≤
        plan.binding.replayScope.lockedEvaluationWindow.toUnixMsExclusive
  timer : ∀ exit ∈ plan.timeExit,
    decision.nextCanonicalBarOpenUnixMs ≤ exit.sourceBarOpenUnixMs ∧
      entry.timestampUnixMs < exit.effectiveAtNextBarOpenUnixMs ∧
      exit.effectiveAtNextBarOpenUnixMs ≤
        plan.binding.replayScope.lockedEvaluationWindow.toUnixMsExclusive
  entered : selectEntry decision evidence.evidence plan.policy = .ok (.available entry.selected)
  priced : modeledPrice entry.selected.entryQuote.price decision.direction true
    plan.policy.latencySlippage = .ok entry.modeledEntryPrice
  bounded : modeledEntryWithinBounds decision entry.modeledEntryPrice = true
  replays : ∀ error, replaySealedQuoteValidatedResearch plan evidence = .error error →
    error.code ≠ .modeledEntryOutsideDecisionBounds ∧ error.code ≠ .invalidDecision

variable {evidence : SealedHistoricalBidAskQuoteReplayEvidence sha256}
  {decision recentred : CanonicalBarSignalResearchDecision ℚ}
  {thresholds : List (ClosedCanonicalBarTrailingThreshold ℚ)}
  {timeExit : Option ClosedCanonicalBarTimeExit}

theorem admissible_of_parts (h : lane.Accepted sha256 binding policy duration)
    (hbinding : binding = evidence.evidence.binding)
    (hentry : entry.Inside lane binding duration entryIndex entryBar)
    (hselected : selectEntry recentred evidence.evidence policy = .ok (.available entry.selected))
    (hprice : modeledPrice entry.selected.entryQuote.price recentred.direction true
      policy.latencySlippage = .ok entry.modeledEntryPrice)
    (hbounds : modeledEntryWithinBounds recentred entry.modeledEntryPrice = true)
    (hdecision : QuoteValidatedResearchReplayPlan.validateDecision
      binding.replayScope.lockedEvaluationWindow recentred = .ok ())
    (hstart : ∀ index ≥ entryIndex, ∀ bar, lane.bars.get index = some bar →
      recentred.nextCanonicalBarOpenUnixMs ≤ bar.ts)
    (hratchet : Ratchet lane duration recentred.direction entryIndex none thresholds)
    (htimer : ∀ exit ∈ timeExit, ∃ index ≥ entryIndex, ∃ bar, lane.bars.get index = some bar ∧
      exit = ⟨bar.ts, bar.ts + duration⟩) :
    AdmissiblePlan sha256 evidence entry ⟨binding, policy, [recentred], thresholds, timeExit⟩
      recentred := by
  have hvalid := plan_valid h hdecision hstart hratchet htimer
  have hafter (exit) (hexit : exit ∈ timeExit) :
      recentred.nextCanonicalBarOpenUnixMs ≤ exit.sourceBarOpenUnixMs ∧
        entry.timestampUnixMs < exit.effectiveAtNextBarOpenUnixMs ∧
        exit.effectiveAtNextBarOpenUnixMs ≤
          binding.replayScope.lockedEvaluationWindow.toUnixMsExclusive := by
    obtain ⟨index, hindex, bar, hbar, rfl⟩ := htimer exit hexit
    have hopen := hentry.open_
    have hinside := (h.closed_of_get hbar).inside
    have hpos := h.duration_pos
    refine ⟨hstart index hindex bar hbar, ?_, hinside⟩
    show entry.timestampUnixMs < bar.ts + duration
    by_cases hsame : entryIndex = index
    · subst hsame
      obtain rfl := Option.some.inj (hentry.bar.symm.trans hbar)
      exact hopen
    · have hfollows := h.follows (by omega : entryIndex < index) hentry.bar hbar
      omega
  exact
    { sole := rfl
      valid := hvalid
      schedule := hratchet.schedule
      covered := by
        intro threshold hmem
        obtain ⟨_, _, index, bar, hindex, hbar, hsource, heffective⟩ :=
          hratchet.owned threshold hmem
        have hinside := (h.closed_of_get hbar).inside
        have hopens := hstart index hindex bar hbar
        rw [hsource, heffective]
        exact ⟨hopens, hinside⟩
      timer := hafter
      entered := hselected
      priced := hprice
      bounded := hbounds
      replays := by
        intro error herror
        have hcode := replaySealed_error hvalid hbinding rfl hselected hprice hbounds
          (fun exit hexit => (hafter exit hexit).2.1) herror
        unfold ReplayErrorCode.BehindEntry at hcode
        obtain (hcode | hcode | hcode) | hcode := hcode <;> rw [hcode] <;>
          exact ⟨ReplayErrorCode.noConfusion, ReplayErrorCode.noConfusion⟩ }

def kernelPreview (evidence : SealedHistoricalBidAskQuoteReplayEvidence sha256)
    (plan : QuoteValidatedResearchReplayPlan ℚ) :
    Except LaneError (Option (ResearchEntryPreview ℚ)) :=
  fromKernel (previewSealedQuoteValidatedResearchEntry sha256 plan evidence)

/-- The last step of `enteredPlan`: the timer, if the holding time ends inside the bars. -/
def timedPlan (lane : SignalQuoteLane ℚ) (duration : Int) (sha256 : HashPayload ℚ → String)
    (lastHold : Nat) (plan : QuoteValidatedResearchReplayPlan ℚ) :
    Except LaneError (QuoteValidatedResearchReplayPlan ℚ) :=
  match lane.bars.get lastHold with
  | none => .ok plan
  | some exitBar => do
    let closeAt ← context (exitBar.closeAt duration) "time exit close overflow"
    let timeExit ← fromKernel (ClosedCanonicalBarTimeExit.new exitBar.ts closeAt)
    fromKernel (plan.withTimeExit sha256 timeExit)

theorem enteredPlan_of_steps {entryBarEnd : Int} {lastHold : Nat} {between : DecisionEngine ℚ}
    {plan final : QuoteValidatedResearchReplayPlan ℚ}
    (hpartition : lane.bars.partitionAt entry.timestampUnixMs = entryIndex + 1)
    (hentryBar : lane.bars.get entryIndex = some entryBar)
    (hcloses : entryBar.closeAt duration = some entryBarEnd)
    (hopen : entry.timestampUnixMs < entryBarEnd)
    (hbracketed : bracketDecision engine signal bar duration entry.modeledEntryPrice =
      .ok (recentred, stop, target, between))
    (hlast : lastHoldIndex lane entryIndex = .ok lastHold)
    (hschedule : trailingSchedule lane duration signal entry entryIndex stop lastHold =
      .ok thresholds)
    (hplan : QuoteValidatedResearchReplayPlan.new sha256 binding policy [recentred] thresholds =
      .ok plan)
    (htimed : timedPlan lane duration sha256 lastHold plan = .ok final) :
    enteredPlan lane duration signal entry sha256 binding policy engine bar =
      .ok (final, between) := by
  unfold enteredPlan
  rw [hpartition]
  simp only [Nat.add_sub_cancel]
  refine check_ok_iff.mpr ⟨Fallible.refuse_ok_iff.mpr (Nat.succ_ne_zero entryIndex), ?_⟩
  refine bind_ok_iff.mpr ⟨entryBar, context_ok_iff.mpr hentryBar, ?_⟩
  refine bind_ok_iff.mpr ⟨entryBarEnd, context_ok_iff.mpr hcloses, ?_⟩
  refine check_ok_iff.mpr ⟨ensure_ok_iff.mpr hopen, ?_⟩
  refine bind_ok_iff.mpr ⟨_, hbracketed, ?_⟩
  refine bind_ok_iff.mpr ⟨lastHold, hlast, ?_⟩
  refine bind_ok_iff.mpr ⟨thresholds, hschedule, ?_⟩
  refine bind_ok_iff.mpr ⟨plan, fromKernel_ok_iff.mpr hplan, ?_⟩
  unfold timedPlan at htimed
  cases hexitBar : lane.bars.get lastHold with
  | none =>
    simp only [hexitBar] at htimed ⊢
    rw [Except.ok.inj htimed]
    rfl
  | some exitBar =>
    simp only [hexitBar] at htimed ⊢
    obtain ⟨closeAt, hclose, htimed⟩ := bind_ok_iff.mp htimed
    obtain ⟨timeExit, hexit, htimed⟩ := bind_ok_iff.mp htimed
    refine bind_ok_iff.mpr ⟨closeAt, hclose, bind_ok_iff.mpr ⟨timeExit, hexit, ?_⟩⟩
    exact bind_ok_iff.mpr ⟨final, htimed, rfl⟩

/-- A plan that is valid with every timer of its own bars gets one. -/
theorem timedPlan_of_valid (h : lane.Accepted sha256 binding policy duration) {lastHold : Nat}
    (hhold : lastHold = lane.bars.len ∨ entryIndex ≤ lastHold)
    (plan : QuoteValidatedResearchReplayPlan ℚ) (hplain : plan.timeExit = none)
    (hvalid : ∀ timeExit : Option ClosedCanonicalBarTimeExit,
      (∀ exit ∈ timeExit, ∃ later ≥ entryIndex, ∃ row, lane.bars.get later = some row ∧
        exit = ⟨row.ts, row.ts + duration⟩) →
      AdmissiblePlan sha256 evidence entry { plan with timeExit := timeExit } recentred) :
    ∃ final, timedPlan lane duration sha256 lastHold plan = .ok final ∧
      AdmissiblePlan sha256 evidence entry final recentred := by
  unfold timedPlan
  cases hexit : lane.bars.get lastHold with
  | none =>
    have hadmissible := hvalid none (fun _ hmem => absurd hmem (Option.not_mem_none _))
    rw [← hplain] at hadmissible
    exact ⟨plan, rfl, hadmissible⟩
  | some exitBar =>
    have hclosed := h.closed_of_get hexit
    have hnonneg := hclosed.nonneg
    have hpos := h.duration_pos
    have hlater : entryIndex ≤ lastHold := by
      obtain hlen | hlater := hhold
      · have hlt := QuoteBars.lt_len_of_get hexit
        omega
      · exact hlater
    have htimed := hvalid (some ⟨exitBar.ts, exitBar.ts + duration⟩) (by
      intro exit hmem
      obtain rfl := Option.some.inj hmem
      exact ⟨lastHold, hlater, exitBar, hexit, rfl⟩)
    refine ⟨_, bind_ok_iff.mpr ⟨_, context_ok_iff.mpr hclosed.closes, bind_ok_iff.mpr
      ⟨⟨exitBar.ts, exitBar.ts + duration⟩,
        fromKernel_ok_iff.mpr (check_ok_iff.mpr ⟨refuseIf_ok.mpr ?_, rfl⟩),
        fromKernel_ok_iff.mpr (check_ok_iff.mpr ⟨htimed.valid, rfl⟩)⟩⟩, htimed⟩
    dsimp only
    omega

theorem enteredPlan_of_positive (h : lane.Accepted sha256 binding policy duration)
    (hbinding : binding = evidence.evidence.binding)
    (hentry : entry.Inside lane binding duration entryIndex entryBar)
    (hbar : lane.bars.get index = some bar) (hdir : signal.dir ≠ .flat)
    (hcfg : engine.cfg = DecisionConfig.geneParity lane.pipSize)
    (hafter : bar.ts + duration ≤ entry.timestampUnixMs)
    (hlocked : bar.ts + duration < binding.replayScope.lockedEvaluationWindow.toUnixMsExclusive)
    (hselected : selectEntry ⟨bar.ts, bar.ts + duration, signal.dir.research, stop, target⟩
      evidence.evidence policy = .ok (.available entry.selected))
    (hprice : modeledPrice entry.selected.entryQuote.price signal.dir.research true
      policy.latencySlippage = .ok entry.modeledEntryPrice)
    (hbracket : (engine.bracket signal signal.dir entry.modeledEntryPrice).1 = some (stop, target))
    (hstop : 0 < stop) (htarget : 0 < target)
    (htrailing : TrailingPositive lane duration signal entry entryIndex stop) {lastHold : Nat}
    (hlast : lastHoldIndex lane entryIndex = .ok lastHold)
    (hhold : lastHold = lane.bars.len ∨ entryIndex ≤ lastHold) :
    ∃ final engine', enteredPlan lane duration signal entry sha256 binding policy engine bar =
        .ok (final, engine') ∧ engine'.cfg = engine.cfg ∧
      AdmissiblePlan sha256 evidence entry final
        ⟨bar.ts, bar.ts + duration, signal.dir.research, stop, target⟩ := by
  have hclosed := h.closed_of_get hbar
  have hentryClosed := h.closed_of_get hentry.bar
  have hmark := modeledPrice_pos hprice
  have hpos := h.duration_pos
  have hnonneg := hclosed.nonneg
  obtain ⟨own, far, hown, haround, hsame⟩ := bracket_around signal hcfg hmark hdir
  obtain ⟨rfl, rfl⟩ := Prod.mk.inj (Option.some.inj (hown.symm.trans hbracket))
  have hopens : bar.ts + duration ≤ entryBar.ts :=
    h.opens_after_close hbar hentry.bar hafter hentry.open_
  have hstart (later : Nat) (hlater : later ≥ entryIndex) (row : QuoteBar ℚ)
      (hrow : lane.bars.get later = some row) : bar.ts + duration ≤ row.ts := by
    by_cases hsameBar : entryIndex = later
    · subst hsameBar
      obtain rfl := Option.some.inj (hentry.bar.symm.trans hrow)
      exact hopens
    · have hfollows := h.follows (by omega : entryIndex < later) hentry.bar hrow
      omega
  have hdecision : QuoteValidatedResearchReplayPlan.validateDecision
      binding.replayScope.lockedEvaluationWindow
      ⟨bar.ts, bar.ts + duration, signal.dir.research, own, far⟩ = .ok () := by
    have hfrom := h.opens_in_window hbar
    refine check_ok_iff.mpr ⟨decision_valid hnonneg (by omega) hstop htarget haround,
      refuseIf_ok.mpr ?_⟩
    dsimp only
    omega
  obtain ⟨thresholds, hschedule, hratchet⟩ :=
    trailingSchedule_of_positive h hentry hdir hlast htrailing
  have hadmissible (timeExit : Option ClosedCanonicalBarTimeExit)
      (htimer : ∀ exit ∈ timeExit, ∃ later ≥ entryIndex, ∃ row, lane.bars.get later = some row ∧
        exit = ⟨row.ts, row.ts + duration⟩) :=
    admissible_of_parts h hbinding hentry hselected hprice (withinBounds_of_around haround)
      hdecision hstart hratchet htimer
  have hplain := hadmissible none (fun _ hexit => absurd hexit (Option.not_mem_none _))
  have hpartition := h.partitionAt_eq hentry.bar hentry.opened hentry.open_
  have hbracketed := bracketDecision_of_bracket hdir hbracket haround hstop htarget hnonneg hpos
    hclosed.closes
  have hplan : QuoteValidatedResearchReplayPlan.new sha256 binding policy
      [⟨bar.ts, bar.ts + duration, signal.dir.research, own, far⟩] thresholds =
      .ok ⟨binding, policy, [⟨bar.ts, bar.ts + duration, signal.dir.research, own, far⟩],
        thresholds, none⟩ := check_ok_iff.mpr ⟨hplain.valid, rfl⟩
  obtain ⟨final, htimed, hfinal⟩ := timedPlan_of_valid h hhold ⟨binding, policy,
    [⟨bar.ts, bar.ts + duration, signal.dir.research, own, far⟩], thresholds, none⟩ rfl hadmissible
  exact ⟨final, _, enteredPlan_of_steps hpartition hentry.bar hentryClosed.closes hentry.open_
    hbracketed hlast hschedule hplan htimed, hsame, hfinal⟩

theorem enteredPlan_of_overflow {entryBarEnd : Int} {between : DecisionEngine ℚ}
    {error : LaneError} (hpartition : lane.bars.partitionAt entry.timestampUnixMs = entryIndex + 1)
    (hentryBar : lane.bars.get entryIndex = some entryBar)
    (hcloses : entryBar.closeAt duration = some entryBarEnd)
    (hopen : entry.timestampUnixMs < entryBarEnd)
    (hbracketed : bracketDecision engine signal bar duration entry.modeledEntryPrice =
      .ok (recentred, stop, target, between))
    (hlast : lastHoldIndex lane entryIndex = .error error) :
    enteredPlan lane duration signal entry sha256 binding policy engine bar = .error error := by
  unfold enteredPlan
  rw [hpartition]
  simp only [Nat.add_sub_cancel]
  refine bind_error_iff.mpr (.inr ⟨_, Fallible.refuse_ok_iff.mpr (Nat.succ_ne_zero entryIndex), ?_⟩)
  refine bind_error_iff.mpr (.inr ⟨entryBar, context_ok_iff.mpr hentryBar, ?_⟩)
  refine bind_error_iff.mpr (.inr ⟨entryBarEnd, context_ok_iff.mpr hcloses, ?_⟩)
  refine bind_error_iff.mpr (.inr ⟨_, ensure_ok_iff.mpr hopen, ?_⟩)
  refine bind_error_iff.mpr (.inr ⟨_, hbracketed, ?_⟩)
  exact bind_error_iff.mpr (.inl hlast)

end Entered

/-- The plans that the lane driver builds are admissible. A signal of an accepted lane is decided
and previewed, and the entry lies inside a bar; as long as the stop and the target around the
modeled entry price and the prices of its trailing stop are positive, the lane goes on to a plan
that the kernel accepts and that enters as previewed. The one other outcome is a holding time whose
last index the machine cannot represent, for which no plan is built. -/
theorem lane_plans_admissible (sha256 : HashPayload ℚ → String) (lane : SignalQuoteLane ℚ)
    (binding : QuoteValidatedResearchReplayBinding) (policy : QuoteValidatedResearchReplayPolicy ℚ)
    (evidence : SealedHistoricalBidAskQuoteReplayEvidence sha256) (duration : Int)
    (hlane : lane.validate sha256 binding policy = .ok duration)
    (engine : DecisionEngine ℚ) (hengine : engine.cfg = DecisionConfig.geneParity lane.pipSize)
    (index : Nat) (bar : QuoteBar ℚ) (hbar : lane.bars.get index = some bar)
    (signal : Signal ℚ) (hsignal : lane.signalAt index bar = some signal)
    (decision : CanonicalBarSignalResearchDecision ℚ) (firstStop firstTarget : ℚ)
    (between : DecisionEngine ℚ)
    (hdecided : bracketDecision engine signal bar duration bar.c =
      .ok (decision, firstStop, firstTarget, between))
    (plan : QuoteValidatedResearchReplayPlan ℚ)
    (hplan : QuoteValidatedResearchReplayPlan.new sha256 binding policy [decision] [] = .ok plan)
    (entry : ResearchEntryPreview ℚ) (hpreview : kernelPreview evidence plan = .ok (some entry))
    (entryIndex : Nat) (entryBar : QuoteBar ℚ)
    (hentryBar : lane.bars.get entryIndex = some entryBar)
    (hopened : entryBar.ts ≤ entry.timestampUnixMs)
    (hopen : entry.timestampUnixMs < entryBar.ts + duration) (stop target : ℚ)
    (hbracket : (between.bracket signal signal.dir entry.modeledEntryPrice).1 = some (stop, target))
    (hstop : 0 < stop) (htarget : 0 < target)
    (htrailing : TrailingPositive lane duration signal entry entryIndex stop) :
    (∃ final engine', finalPlan sha256 lane binding policy (kernelPreview evidence) duration engine
        signal bar = .ok (final, engine') ∧
      engine'.cfg = DecisionConfig.geneParity lane.pipSize ∧
      AdmissiblePlan sha256 evidence entry final
        ⟨bar.ts, bar.ts + duration, signal.dir.research, stop, target⟩) ∨
    (2 ^ 64 ≤ entryIndex + (lane.maxHoldBars - 1) ∧
      finalPlan sha256 lane binding policy (kernelPreview evidence) duration engine signal bar =
        .error (.lane "max-hold index overflow")) := by
  have haccepted := SignalQuoteLane.accepted_of_validate hlane
  have hclosed := haccepted.closed_of_get hbar
  have hentryClosed := haccepted.closed_of_get hentryBar
  have hdir := signalAt_directed hsignal
  obtain ⟨hdirection, hsignalBar, hsameEngine⟩ :=
    decided_of_bracketDecision hengine hclosed.close_pos hdir hdecided
  have hnext : decision.nextCanonicalBarOpenUnixMs = bar.ts + duration :=
    closeAt_eq_some (bracketDecision_ok hdecided)
  have hnew := hplan
  obtain ⟨hvalid, hmade⟩ := check_ok_iff.mp hnew
  obtain rfl := Except.ok.inj hmade
  obtain ⟨_, hbinding, sole, hsole, selected, modeledEntryPrice, hselected, hprice, hentry⟩ :=
    previewEntry_some_iff.mp (fromKernel_ok_iff.mp hpreview)
  obtain rfl := Option.some.inj hsole
  have hsame : selected = entry.selected := by rw [hentry]
  have hmodeled : modeledEntryPrice = entry.modeledEntryPrice := by rw [hentry]
  have hwithin : entry.evidence = evidence.evidence := by rw [hentry]
  rw [hsame] at hselected hprice
  rw [hmodeled, hdirection] at hprice
  -- the entry comes behind the decision's bar
  have haccepted' := QuoteValidatedResearchReplayPlan.accepted_of_validate hvalid
  obtain ⟨owned, hplanAccepted⟩ := haccepted'
  obtain rfl := (List.cons.inj hplanAccepted.sole).1
  have hquotes := CompleteBidAskQuoteReplayEvidence.inOrder_of_validatePayload evidence.complete
  obtain ⟨_, _, hfrom⟩ := (selectEntry_ok_iff (hquotes _)).mp hselected
  obtain ⟨hcandidate, _⟩ := selectEntryFrom_available hfrom
  have heligible := of_decide_eq_true (List.mem_filter.mp hcandidate).2
  have hlatency := hplanAccepted.bounded.entryLatency
  have hafter : bar.ts + duration ≤ entry.timestampUnixMs := by
    show bar.ts + duration ≤ entry.selected.entryQuote.timestampUnixMs
    have hlatency : 0 ≤ policy.latencySlippage.entryLatencyMs := hlatency
    omega
  have hlocked : bar.ts + duration <
      binding.replayScope.lockedEvaluationWindow.toUnixMsExclusive := hnext ▸ hplanAccepted.locked
  have hinside : entry.Inside lane binding duration entryIndex entryBar :=
    ⟨by rw [hwithin]; exact hbinding.symm, hentryBar, hopened, hopen⟩
  have hrecentred : selectEntry ⟨bar.ts, bar.ts + duration, signal.dir.research, stop, target⟩
      evidence.evidence policy = .ok (.available entry.selected) := by
    rw [selectEntry_recentred hdirection.symm hnext.symm]
    exact hselected
  have hcfg : between.cfg = DecisionConfig.geneParity lane.pipSize := hsameEngine.trans hengine
  have hfinal : finalPlan sha256 lane binding policy (kernelPreview evidence) duration engine signal
      bar = enteredPlan lane duration signal entry sha256 binding policy between bar := by
    unfold finalPlan
    rw [hdecided, Fallible.ok_bind]
    dsimp only
    rw [fromKernel_ok_iff.mpr hplan, Fallible.ok_bind, hpreview, Fallible.ok_bind]
  rw [hfinal]
  obtain ⟨hoverflow, hlarge⟩ | ⟨lastHold, hlast, hhold⟩ := lastHoldIndex_cases lane entryIndex
  · right
    obtain ⟨own, far, hown, haround, _⟩ := bracket_around signal hcfg
      (modeledPrice_pos hprice) hdir
    obtain ⟨rfl, rfl⟩ := Prod.mk.inj (Option.some.inj (hown.symm.trans hbracket))
    have hbracketed := bracketDecision_of_bracket hdir hbracket haround hstop htarget hclosed.nonneg
      haccepted.duration_pos hclosed.closes
    exact ⟨hlarge, enteredPlan_of_overflow (haccepted.partitionAt_eq hentryBar hopened hopen)
      hentryBar hentryClosed.closes hopen hbracketed hoverflow⟩
  · left
    obtain ⟨final, engine', hentered, hkept, hadmissible⟩ := enteredPlan_of_positive haccepted
      hbinding hinside hbar hdir hcfg hafter hlocked hrecentred hprice hbracket hstop htarget
      htrailing hlast hhold
    exact ⟨final, engine', hentered, hkept.trans hcfg, hadmissible⟩

section MinuteLane

/-- The sample lane with a rise in its third bar, a trailing stop, and a holding time of three. -/
def trailingLane : SignalQuoteLane ℚ :=
  { minuteLane with
    bars := .live ([(60000, 150), (120000, 150), (180000, 151), (240000, 150), (300000, 150)].map
      fun (ts, high) => ⟨"USDJPY", "M1", 150, high, 150, 150, ts⟩)
    maxHoldBars := 3
    trailing := some ⟨1 / 4, 1 / 4, 0, 1 / 64⟩ }

def trailingSignal : Signal ℚ := ⟨"USDJPY", .long, 0, .strategy, 64, 64⟩

def trailingEngine : DecisionEngine ℚ := .new (.geneParity (1 / 64))

def trailingBar (ts : Int) : QuoteBar ℚ := ⟨"USDJPY", "M1", ts, 150, 150, 150, 150⟩

def trailingPlan : QuoteValidatedResearchReplayPlan ℚ :=
  ⟨minuteBinding, usdJpyPolicy, [⟨60000, 120000, .long, 149, 151⟩], [], none⟩

/-- What the run needs of the preview: the entry, and the one price of its trailing stop. -/
def trailingPreview (entry : ResearchEntryPreview ℚ) : Bool :=
  entry.timestampUnixMs = 120010 && entry.modeledEntryPrice = 19217 / 128 &&
    trailingPrices trailingLane 60000 trailingSignal entry 1 (19089 / 128)
      ⟨1 / 4, 1 / 4, 0, 1 / 64⟩ none [1, 2] = [603 / 4]

theorem trailingPreview_found :
    (kernelPreview minuteSealed trailingPlan).toOption.any (·.any trailingPreview) = true := by
  decide +kernel

theorem trailingLane_admissible :
    ∃ entry final engine', finalPlan minuteSha256 trailingLane minuteBinding usdJpyPolicy
        (kernelPreview minuteSealed) 60000 trailingEngine trailingSignal (trailingBar 60000) =
        .ok (final, engine') ∧
      AdmissiblePlan minuteSha256 minuteSealed entry final
        ⟨60000, 120000, .long, 19089 / 128, 19345 / 128⟩ := by
  obtain ⟨preview, hpreview, hfound⟩ := Fallible.exists_ok_of_any trailingPreview_found
  obtain ⟨entry, rfl, hentry⟩ := (Option.any_eq_true _ _).mp hfound
  obtain ⟨hentry, hprices⟩ := Bool.and_eq_true_iff.mp hentry
  obtain ⟨htime, hprice⟩ := Bool.and_eq_true_iff.mp hentry
  have htime : entry.timestampUnixMs = 120010 := of_decide_eq_true htime
  have hprice : entry.modeledEntryPrice = 19217 / 128 := of_decide_eq_true hprice
  have hprices := of_decide_eq_true hprices
  have hbracket : (trailingEngine.bracket trailingSignal .long 150).1 = some (149, 151) := by
    decide +kernel
  have hdecided : bracketDecision trailingEngine trailingSignal (trailingBar 60000) 60000 150 =
      .ok (⟨60000, 60000 + 60000, .long, 149, 151⟩, 149, 151,
        (trailingEngine.bracket trailingSignal .long 150).2) :=
    bracketDecision_of_bracket Direction.noConfusion hbracket
      (show (149 : ℚ) < 150 ∧ (150 : ℚ) < 151 by norm_num) (by norm_num) (by norm_num) (by decide)
      (by decide) (by decide)
  obtain ⟨final, engine', hfinal, _, hadmissible⟩ | ⟨hlarge, _⟩ :=
    lane_plans_admissible minuteSha256 trailingLane minuteBinding usdJpyPolicy minuteSealed 60000
      (by decide +kernel) trailingEngine rfl 0 (trailingBar 60000) rfl trailingSignal rfl
      ⟨60000, 120000, .long, 149, 151⟩ 149 151 _ hdecided trailingPlan
      (Fallible.check_ok_iff.mpr ⟨by decide +kernel, rfl⟩) entry hpreview 1 (trailingBar 120000) rfl
      (by rw [htime]; decide) (by rw [htime]; decide) (19089 / 128) (19345 / 128)
      (by rw [hprice]; decide +kernel) (by norm_num) (by norm_num) (by
        intro trailing htrailing lastHold hlast price hmem
        obtain rfl := Option.some.inj htrailing
        obtain rfl := Except.ok.inj hlast
        have hmem : price ∈ [(603 / 4 : ℚ)] := hprices ▸ hmem
        rw [List.mem_singleton.mp hmem]
        norm_num)
  · exact ⟨entry, final, engine', hfinal, hadmissible⟩
  · exact absurd hlarge (by decide)

end MinuteLane

end Neoethos
