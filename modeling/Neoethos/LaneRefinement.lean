import Neoethos.LanePlans

set_option linter.overlappingInstances false

namespace Neoethos

open Fallible (bind_ok_iff map_ok_iff)

variable {P : Type} [Ring P] [LinearOrder P]

section Runs

variable {sha256 : HashPayload P → String}
  {evidence : SealedHistoricalBidAskQuoteReplayEvidence sha256}
  {binding : QuoteValidatedResearchReplayBinding} {policy : QuoteValidatedResearchReplayPolicy P}

/-- The step replayed its plan, whose decision came after the lane was free. -/
structure LaneStep.Admitted (evidence : SealedHistoricalBidAskQuoteReplayEvidence sha256)
    (binding : QuoteValidatedResearchReplayBinding) (policy : QuoteValidatedResearchReplayPolicy P)
    (occupied : Option Int) (lower : Nat)
    (step : LaneStep P (SealedHistoricalQuoteValidatedResearchLedger P)) (decisionAt : Int) :
    Prop where
  index : lower ≤ step.decisionBarIndex
  decides : step.plan.DecidesAt binding policy decisionAt
  replayed : replaySealedQuoteValidatedResearch step.plan evidence = .ok step.ledger
  free : ∀ busy ∈ occupied, busy < decisionAt

/-- The steps of a lane from a bar on. After an open position there are none. -/
inductive LaneRun (evidence : SealedHistoricalBidAskQuoteReplayEvidence sha256)
    (binding : QuoteValidatedResearchReplayBinding) (policy : QuoteValidatedResearchReplayPolicy P) :
    Option Int → Nat → List (LaneStep P (SealedHistoricalQuoteValidatedResearchLedger P)) → Prop
  | done {occupied : Option Int} {lower : Nat} : LaneRun evidence binding policy occupied lower []
  | terminal {occupied : Option Int} {lower : Nat}
      {step : LaneStep P (SealedHistoricalQuoteValidatedResearchLedger P)} {decisionAt : Int} :
    step.Admitted evidence binding policy occupied lower decisionAt →
    LaneRun evidence binding policy occupied lower [step]
  | next {occupied : Option Int} {lower : Nat}
      {step : LaneStep P (SealedHistoricalQuoteValidatedResearchLedger P)} {decisionAt completed : Int}
      {rest : List (LaneStep P (SealedHistoricalQuoteValidatedResearchLedger P))} :
    step.Admitted evidence binding policy occupied lower decisionAt →
    completedAt step.ledger = .ok completed →
    LaneRun evidence binding policy (some completed) (step.decisionBarIndex + 1) rest →
    LaneRun evidence binding policy occupied lower (step :: rest)

/-- A run from a later bar on is a run from an earlier one on. -/
theorem LaneRun.mono {occupied : Option Int} {lower lower' : Nat}
    {steps : List (LaneStep P (SealedHistoricalQuoteValidatedResearchLedger P))}
    (h : LaneRun evidence binding policy occupied lower' steps) (hle : lower ≤ lower') :
    LaneRun evidence binding policy occupied lower steps := by
  cases h with
  | done => exact .done
  | terminal hstep =>
    exact .terminal ⟨hle.trans hstep.index, hstep.decides, hstep.replayed, hstep.free⟩
  | next hstep hcompleted hrest =>
    exact .next ⟨hle.trans hstep.index, hstep.decides, hstep.replayed, hstep.free⟩ hcompleted hrest

theorem laneRun_of_driveFrom [FloatOps P] {lane : SignalQuoteLane P}
    {preview : QuoteValidatedResearchReplayPlan P →
      Except LaneError (Option (ResearchEntryPreview P))}
    {duration : Int} {engine : DecisionEngine P} {occupied : Option Int} {lower count : Nat}
    {steps : List (LaneStep P (SealedHistoricalQuoteValidatedResearchLedger P))}
    (h : driveFrom sha256 lane binding policy preview
      (fun plan => fromKernel (replaySealedQuoteValidatedResearch plan evidence)) duration engine
      occupied (List.range' lower count) = .ok steps) :
    LaneRun evidence binding policy occupied lower steps := by
  induction count generalizing engine occupied lower steps with
  | zero =>
    obtain rfl := Except.ok.inj h
    exact .done
  | succ count ih =>
    rw [List.range'_succ] at h
    unfold driveFrom at h
    obtain ⟨bar, -, h⟩ := bind_ok_iff.mp h
    obtain ⟨decisionAt, hclose, h⟩ := bind_ok_iff.mp h
    split at h
    next =>
      obtain rfl := Except.ok.inj h
      exact .done
    next =>
      split at h
      next => exact (ih h).mono (by omega)
      next hfree =>
        split at h
        next => exact (ih h).mono (by omega)
        next signal _ =>
          obtain ⟨⟨plan, engine'⟩, hplan, h⟩ := bind_ok_iff.mp h
          obtain ⟨ledger, hledger, h⟩ := bind_ok_iff.mp h
          obtain ⟨busy, hbusy, h⟩ := bind_ok_iff.mp h
          have hadmitted : LaneStep.Admitted evidence binding policy occupied lower
              ⟨lower, plan, ledger⟩ decisionAt := by
            refine ⟨le_refl _, finalPlan_ok (context_ok_iff.mp hclose) hplan,
              fromKernel_ok_iff.mp hledger, ?_⟩
            intro busy hbusy
            obtain rfl := Option.mem_def.mp hbusy
            simpa using hfree
          cases busy with
          | none =>
            obtain rfl := Except.ok.inj h
            exact .terminal hadmitted
          | some completed =>
            obtain ⟨rest, hrest, h⟩ := bind_ok_iff.mp h
            obtain rfl := Except.ok.inj h
            exact .next hadmitted (completedAt_of_occupiedUntil hbusy) (ih hrest)

variable {occupied : Option Int} {lower : Nat}
  {steps : List (LaneStep P (SealedHistoricalQuoteValidatedResearchLedger P))}

theorem LaneStep.Admitted.decision_le_completed {decisionAt completed : Int}
    {step : LaneStep P (SealedHistoricalQuoteValidatedResearchLedger P)}
    (h : step.Admitted evidence binding policy occupied lower decisionAt)
    (hcompleted : completedAt step.ledger = .ok completed) : decisionAt ≤ completed := by
  obtain ⟨decision, hsole, rfl⟩ := h.decides.sole
  exact (replaySealed_afterDecision h.replayed hsole).completed (completedAt_ok hcompleted)

theorem LaneStep.Admitted.ordered {decisionAt : Int} {previousDecisionAt : Option Int}
    {first : QuoteValidatedResearchReplayPlan P} {plans : List (QuoteValidatedResearchReplayPlan P)}
    {step : LaneStep P (SealedHistoricalQuoteValidatedResearchLedger P)}
    (h : step.Admitted evidence binding policy occupied lower decisionAt)
    (hbinding : first.binding = binding) (hpolicy : first.policy = policy)
    (hprevious : ∀ previous ∈ previousDecisionAt, previous < decisionAt) :
    QuoteValidatedResearchReplayPlan.validateOrdered sha256 first previousDecisionAt
        (step.plan :: plans) =
      QuoteValidatedResearchReplayPlan.validateOrdered sha256 first (some decisionAt) plans := by
  obtain ⟨decision, hsole, rfl⟩ := h.decides.sole
  have hvalid := validate_of_replaySealed h.replayed
  have hlate : ¬(previousDecisionAt.any
      fun previous => decision.nextCanonicalBarOpenUnixMs ≤ previous) = true := by
    cases previousDecisionAt with
    | none => simp
    | some previous => simpa using hprevious previous rfl
  conv_lhs => unfold QuoteValidatedResearchReplayPlan.validateOrdered
  simp [hvalid, h.decides.binding, h.decides.policy, hbinding, hpolicy, hsole, hlate, refuseIf,
    QuoteValidatedResearchReplayPlan.soleDecision, okOrElse, bind, Except.bind]

theorem LaneRun.ordered {previousDecisionAt : Option Int}
    {first : QuoteValidatedResearchReplayPlan P}
    (h : LaneRun evidence binding policy occupied lower steps)
    (hbinding : first.binding = binding) (hpolicy : first.policy = policy)
    (hprevious : ∀ previous ∈ previousDecisionAt, ∃ busy ∈ occupied, previous ≤ busy) :
    QuoteValidatedResearchReplayPlan.validateOrdered sha256 first previousDecisionAt
      (steps.map (·.plan)) = .ok () := by
  have hlater {occupied : Option Int} {previousDecisionAt : Option Int} {decisionAt : Int}
      (hfree : ∀ busy ∈ occupied, busy < decisionAt)
      (hprevious : ∀ previous ∈ previousDecisionAt, ∃ busy ∈ occupied, previous ≤ busy) :
      ∀ previous ∈ previousDecisionAt, previous < decisionAt := by
    intro previous hmem
    obtain ⟨busy, hbusy, hle⟩ := hprevious previous hmem
    have := hfree busy hbusy
    omega
  induction h generalizing previousDecisionAt with
  | done => rfl
  | terminal hstep =>
    rw [List.map_singleton, hstep.ordered hbinding hpolicy (hlater hstep.free hprevious)]
    rfl
  | next hstep hcompleted hrest ih =>
    rw [List.map_cons, hstep.ordered hbinding hpolicy (hlater hstep.free hprevious)]
    refine ih ?_
    intro previous hmem
    obtain rfl := Option.some.inj hmem
    exact ⟨_, rfl, hstep.decision_le_completed hcompleted⟩

theorem LaneStep.Admitted.admitted {decisionAt : Int}
    {ledgers : List (SealedHistoricalQuoteValidatedResearchLedger P)}
    {step : LaneStep P (SealedHistoricalQuoteValidatedResearchLedger P)}
    (h : step.Admitted evidence binding policy occupied lower decisionAt)
    (hlast : ∀ previous ∈ ledgers.getLast?, ∃ busy ∈ occupied, completedAt previous = .ok busy) :
    admitNextDecision ledgers step.plan = .ok () := by
  unfold admitNextDecision
  cases hledgers : ledgers.getLast? with
  | none => rfl
  | some previous =>
    obtain ⟨busy, hbusy, hcompleted⟩ := hlast previous hledgers
    obtain ⟨decision, hsole, rfl⟩ := h.decides.sole
    have hlt := not_le.mpr (h.free busy hbusy)
    simp [hcompleted, hsole, hlt, QuoteValidatedResearchReplayPlan.soleDecision, okOrElse,
      refuseIf, bind, Except.bind]

theorem LaneRun.replayed {ledgers : List (SealedHistoricalQuoteValidatedResearchLedger P)}
    (h : LaneRun evidence binding policy occupied lower steps)
    (hlast : ∀ previous ∈ ledgers.getLast?, ∃ busy ∈ occupied, completedAt previous = .ok busy) :
    replaySealedFrom evidence ledgers (steps.map (·.plan)) =
      .ok (ledgers ++ steps.map (·.ledger)) := by
  induction h generalizing ledgers with
  | done => simp [replaySealedFrom]
  | terminal hstep =>
    simp [replaySealedFrom, hstep.admitted hlast, hstep.replayed, bind, Except.bind]
  | @next occupied lower step decisionAt completed rest hstep hcompleted hrest ih =>
    have hnext : ∀ previous ∈ (ledgers ++ [step.ledger]).getLast?,
        ∃ busy ∈ some completed, completedAt previous = .ok busy := by
      intro previous hmem
      rw [List.getLast?_concat] at hmem
      obtain rfl := Option.some.inj hmem
      exact ⟨completed, rfl, hcompleted⟩
    have hrestReplayed := ih hnext
    simp [replaySealedFrom, hstep.admitted hlast, hstep.replayed, hrestReplayed, bind, Except.bind]

theorem LaneRun.index_ge (h : LaneRun evidence binding policy occupied lower steps) :
    ∀ step ∈ steps, lower ≤ step.decisionBarIndex := by
  induction h with
  | done => simp
  | terminal hstep => simpa using hstep.index
  | next hstep hcompleted hrest ih =>
    intro later hlater
    have hindex := hstep.index
    rcases List.mem_cons.mp hlater with rfl | hlater
    · exact hindex
    · have := ih later hlater
      omega

theorem LaneRun.indices_ascend (h : LaneRun evidence binding policy occupied lower steps) :
    (steps.map (·.decisionBarIndex)).Pairwise (· < ·) := by
  induction h with
  | done => exact List.Pairwise.nil
  | terminal hstep => exact List.pairwise_singleton _ _
  | next hstep hcompleted hrest ih =>
    refine List.pairwise_cons.mpr ⟨?_, ih⟩
    intro index hindex
    obtain ⟨later, hlater, rfl⟩ := List.mem_map.mp hindex
    exact hrest.index_ge later hlater

/-- A lane with an outcome is a sequence that the kernel accepts and replays alike. -/
theorem LaneRun.sequence (h : LaneRun evidence binding policy none lower steps)
    (hne : steps ≠ []) :
    QuoteValidatedResearchReplayPlan.validateOrderedSequence sha256 (steps.map (·.plan)) = .ok () ∧
      replaySealedQuoteValidatedDecisionSequence (steps.map (·.plan)) evidence =
        .ok (steps.map (·.ledger)) := by
  have hordered : QuoteValidatedResearchReplayPlan.validateOrderedSequence sha256
      (steps.map (·.plan)) = .ok () := by
    obtain ⟨first, rest, rfl⟩ := List.exists_cons_of_ne_nil hne
    have hfirst : first.plan.binding = binding ∧ first.plan.policy = policy := by
      cases h with
      | terminal hstep => exact ⟨hstep.decides.binding, hstep.decides.policy⟩
      | next hstep hcompleted hrest => exact ⟨hstep.decides.binding, hstep.decides.policy⟩
    have hnone : ∀ previous ∈ (none : Option Int), ∃ busy ∈ (none : Option Int), previous ≤ busy :=
      fun _ hprevious => (Option.not_mem_none _ hprevious).elim
    exact h.ordered hfirst.1 hfirst.2 hnone
  refine ⟨hordered, ?_⟩
  have hreplayed : replaySealedFrom evidence [] (steps.map (·.plan)) =
      .ok ([] ++ steps.map (·.ledger)) := h.replayed (by simp)
  unfold replaySealedQuoteValidatedDecisionSequence
  rw [hordered]
  exact hreplayed

end Runs

/-- What the lane driver replays is one decision sequence of the kernel: the final plans are an
ordered sequence, and replaying it returns the lane's own ledgers. So the lane never holds two
positions at once, only its last outcome may be open, and its decision bars ascend. -/
theorem lane_driver_refines_kernel [FloatOps P] (sha256 : HashPayload P → String)
    (lane : SignalQuoteLane P) (binding : QuoteValidatedResearchReplayBinding)
    (policy : QuoteValidatedResearchReplayPolicy P)
    (evidence : SealedHistoricalBidAskQuoteReplayEvidence sha256)
    (outcomes : List (Nat × SealedHistoricalQuoteValidatedResearchLedger P))
    (h : driveSealedLane lane binding policy evidence = .ok outcomes) (hne : outcomes ≠ []) :
    ∃ steps, sealedLaneSteps lane binding policy evidence = .ok steps ∧
      outcomes = steps.map (fun step => (step.decisionBarIndex, step.ledger)) ∧
      QuoteValidatedResearchReplayPlan.validateOrderedSequence sha256 (steps.map (·.plan)) =
        .ok () ∧
      replaySealedQuoteValidatedDecisionSequence (steps.map (·.plan)) evidence =
        .ok (outcomes.map (·.2)) ∧
      (outcomes.map (·.1)).Pairwise (· < ·) ∧
      (∀ ledger ∈ (outcomes.map (·.2)).dropLast,
        ∃ completed, ledger.ledger.CompletedAt completed) ∧
      ((outcomes.map (·.2)).flatMap fun ledger => ledger.ledger.positions).Pairwise fun p q =>
        Disjoint p.holdingInterval q.holdingInterval := by
  unfold driveSealedLane driveBorrowedLane at h
  obtain ⟨steps, hsteps, rfl⟩ := map_ok_iff.mp h
  obtain ⟨duration, -, hdrive⟩ := bind_ok_iff.mp hsteps
  rw [List.range_eq_range'] at hdrive
  have hrun := laneRun_of_driveFrom hdrive
  obtain ⟨hordered, hreplayed⟩ := hrun.sequence (by simpa using hne)
  have hledgers : (steps.map fun step => (step.decisionBarIndex, step.ledger)).map (·.2) =
      steps.map (·.ledger) := by simp
  have hindices : (steps.map fun step => (step.decisionBarIndex, step.ledger)).map (·.1) =
      steps.map (·.decisionBarIndex) := by simp
  rw [hledgers, hindices]
  exact ⟨steps, hsteps, rfl, hordered, hreplayed, hrun.indices_ascend,
    decisionSequence_completed hreplayed, decisionSequence_disjoint hreplayed⟩

section MinuteLane

def minuteCoverage : EvidenceWindow := ⟨59900, 360100, by decide, by decide, by decide⟩

def minuteBinding : QuoteValidatedResearchReplayBinding :=
  { usdJpyBinding with
    replayScope := ⟨⟨60000, 360000, by decide, by decide, by decide⟩, minuteCoverage, 100, 100⟩
    identitySha256 := "c91494d98f3574ac77bed8de86b3cf83e920535ecdf5364f39db1a94a0a93c1c" }

def minuteSide (side : QuoteSide) (rows : List (Int × ℚ)) (contentSha256 : String) :
    CompleteQuoteSideCoverage ℚ :=
  { usdJpySide side rows contentSha256 with requestedWindow := minuteCoverage }

def minuteEvidence : CompleteBidAskQuoteReplayEvidence ℚ where
  binding := minuteBinding
  bid := minuteSide .bid [(120000, 150), (190000, 605 / 4), (240005, 150)]
    "9e8ac09405aaf3dd09b47ce98b20918484c03d24b1951b5b09423ecaa93a15a7"
  ask := minuteSide .ask [(120010, 1201 / 8), (240010, 1201 / 8)]
    "83dfd40172fb0a4e3ee6bafcad130f017be341e57070739e5d25b0c6570851cb"
  contentSha256 := "70596a6c64ec864c1b925f4c2f729cfe997cf6a2f02c67d25740894040f6ecc1"

def minuteSha256 : HashPayload ℚ → String
  | .quoteReplayRule .. => usdJpyRule.identitySha256
  | .quoteReplayBinding .. => minuteBinding.identitySha256
  | .latencySlippagePolicy .. => usdJpyPolicy.latencySlippage.identitySha256
  | .quoteValidatedReplayPolicy .. => usdJpyPolicy.identitySha256
  | .completeQuoteSideCoverage payload =>
    if payload.side = .bid then minuteEvidence.bid.contentSha256
    else minuteEvidence.ask.contentSha256
  | .completeBidAskQuoteEvidence .. => minuteEvidence.contentSha256
  | .executedDecisionPlan plan =>
    if plan.decisions.map (·.signalBarOpenUnixMs) = [60000] then
      "7f853c86b4b020756f0f3959950d022dc7d5f85505f0a904406500c088acb736"
    else "aded087c0a88fe244e4ada363184c2fbc048170a48fc3fcc91217a0d01a9837c"
  | .researchLedger _ _ _ positions .. =>
    if positions.map (·.entryReference.timestampUnixMs) = [120010] then
      "24b18e279a7256c4be6d4dc73d53703cf461331838a0bff732934e3a4b36ee07"
    else "740bc772736a58a7a549fe4c23d1fe737a8959d8492080ff57a6adf81695b614"

def minuteSealed : SealedHistoricalBidAskQuoteReplayEvidence minuteSha256 :=
  ⟨minuteEvidence, hexDigest 'f', by decide +kernel⟩

def minuteGene : Gene ℚ where
  indices := []
  weights := []
  longThreshold := 0
  shortThreshold := 0
  fitness := 0
  sharpeRatio := 0
  winRate := 0
  maxDrawdown := 0
  profitFactor := 0
  expectancy := 0
  tradesCount := 0
  generation := 0
  strategyId := ""
  useOb := false
  useFvg := false
  useLiqSweep := false
  mtfConfirmation := false
  usePremiumDiscount := false
  useInducement := false
  useBos := false
  useChoch := false
  useEqh := false
  useEql := false
  useDisplacement := false
  tpPips := 64
  slPips := 64
  slicePassRate := 0
  consistency := 0
  stopVolMult := 0

/-- Signals on the first three bars. The second comes while the first position is held. -/
def minuteLane : SignalQuoteLane ℚ where
  bars := .live ([60000, 120000, 180000, 240000, 300000].map fun ts =>
    ⟨"USDJPY", "M1", 150, 150, 150, 150, ts⟩)
  signals := [1, 1, 1, 0, 0]
  confidences := none
  entryEligibility := none
  entryBrackets := none
  gene := minuteGene
  pipSize := 1 / 64
  maxHoldBars := 0
  trailing := none

theorem minuteLane_succeeds :
    (driveSealedLane minuteLane minuteBinding usdJpyPolicy minuteSealed).toOption.any
      (fun outcomes => outcomes.map (·.1) = [0, 2]) = true := by
  decide +kernel

theorem minuteLane_refines_kernel :
    ∃ outcomes plans,
      driveSealedLane minuteLane minuteBinding usdJpyPolicy minuteSealed = .ok outcomes ∧
      outcomes.map (·.1) = [0, 2] ∧
      replaySealedQuoteValidatedDecisionSequence plans minuteSealed = .ok (outcomes.map (·.2)) := by
  obtain ⟨outcomes, hdrive, hindices⟩ := Fallible.exists_ok_of_any minuteLane_succeeds
  have htwo : outcomes.map (·.1) = [0, 2] := of_decide_eq_true hindices
  have hne : outcomes ≠ [] := by
    intro hnil
    simp [hnil] at htwo
  obtain ⟨steps, -, -, -, hreplayed, -⟩ := lane_driver_refines_kernel minuteSha256 minuteLane
    minuteBinding usdJpyPolicy minuteSealed outcomes hdrive hne
  exact ⟨outcomes, steps.map (·.plan), hdrive, htwo, hreplayed⟩

end MinuteLane

end Neoethos
