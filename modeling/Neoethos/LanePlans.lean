import Neoethos.LaneDriver
import Neoethos.ReplayLane

set_option linter.overlappingInstances false

namespace Neoethos

open Fallible (bind_ok_iff check_ok_iff map_ok_iff mapError_ok_iff require_ok_iff refuse_ok_iff)

variable {P : Type} [Ring P] [LinearOrder P]

@[simp] theorem fromKernel_ok_iff {α : Type} {x : Except ReplayError α} {a : α} :
    fromKernel x = .ok a ↔ x = .ok a :=
  mapError_ok_iff

@[simp] theorem context_ok_iff {α : Type} {x : Option α} {message : String} {a : α} :
    context x message = .ok a ↔ x = some a :=
  require_ok_iff

section Kernel

variable {sha256 : HashPayload P → String}
  {evidence : SealedHistoricalBidAskQuoteReplayEvidence sha256}
  {plan : QuoteValidatedResearchReplayPlan P}
  {ledger : SealedHistoricalQuoteValidatedResearchLedger P}

theorem validate_of_replaySealed
    (h : replaySealedQuoteValidatedResearch plan evidence = .ok ledger) :
    plan.validate sha256 = .ok () := by
  unfold replaySealedQuoteValidatedResearch at h
  obtain ⟨replayed, hreplay, -⟩ := bind_ok_iff.mp h
  unfold replayWithAuthority at hreplay
  exact (check_ok_iff.mp hreplay).1

omit [Ring P] [LinearOrder P] in
theorem completedAt_of_occupiedUntil {completed : Int}
    (h : occupiedUntil ledger = .ok (some completed)) : completedAt ledger = .ok completed := by
  unfold occupiedUntil at h
  simp only [LaneLedger.positions, LaneLedger.nonEntries] at h
  split at h
  next position hpositions hnone =>
    obtain ⟨exit, hexit, rfl⟩ := Option.map_eq_some_iff.mp (Except.ok.inj h)
    unfold completedAt
    rw [hpositions, hnone]
    simp [hexit, okOrElse]
  next unavailable hnone hunavailable =>
    obtain rfl := Option.some.inj (Except.ok.inj h)
    unfold completedAt
    rw [hnone, hunavailable]
  next => cases h

end Kernel

section Plans

variable {binding : QuoteValidatedResearchReplayBinding}
  {policy : QuoteValidatedResearchReplayPolicy P} {plan : QuoteValidatedResearchReplayPlan P}

/-- The plan is about one decision at the given time, under the lane's binding and policy. -/
structure QuoteValidatedResearchReplayPlan.DecidesAt (plan : QuoteValidatedResearchReplayPlan P)
    (binding : QuoteValidatedResearchReplayBinding) (policy : QuoteValidatedResearchReplayPolicy P)
    (decisionAt : Int) : Prop where
  binding : plan.binding = binding
  policy : plan.policy = policy
  sole : ∃ decision, plan.decisions = [decision] ∧
    decision.nextCanonicalBarOpenUnixMs = decisionAt

variable {sha256 : HashPayload P → String}

theorem decidesAt_of_new {decision : CanonicalBarSignalResearchDecision P}
    {thresholds : List (ClosedCanonicalBarTrailingThreshold P)}
    (h : QuoteValidatedResearchReplayPlan.new sha256 binding policy [decision] thresholds =
      .ok plan) : plan.DecidesAt binding policy decision.nextCanonicalBarOpenUnixMs := by
  unfold QuoteValidatedResearchReplayPlan.new at h
  obtain ⟨-, h⟩ := check_ok_iff.mp h
  obtain rfl := Except.ok.inj h
  exact ⟨rfl, rfl, decision, rfl, rfl⟩

theorem decidesAt_of_withTimeExit {timed : QuoteValidatedResearchReplayPlan P}
    {timeExit : ClosedCanonicalBarTimeExit} {decisionAt : Int}
    (h : plan.withTimeExit sha256 timeExit = .ok timed)
    (hplan : plan.DecidesAt binding policy decisionAt) :
    timed.DecidesAt binding policy decisionAt := by
  unfold QuoteValidatedResearchReplayPlan.withTimeExit at h
  obtain ⟨-, h⟩ := check_ok_iff.mp h
  obtain rfl := Except.ok.inj h
  exact ⟨hplan.binding, hplan.policy, hplan.sole⟩

variable [FloatOps P]

theorem bracketDecision_ok {engine engine' : DecisionEngine P} {signal : Signal P}
    {bar : QuoteBar P} {duration : Int} {entryPrice stop target : P}
    {decision : CanonicalBarSignalResearchDecision P}
    (h : bracketDecision engine signal bar duration entryPrice =
      .ok (decision, stop, target, engine')) :
    bar.closeAt duration = some decision.nextCanonicalBarOpenUnixMs := by
  unfold bracketDecision at h
  split at h
  next =>
    obtain ⟨direction, -, h⟩ := bind_ok_iff.mp h
    obtain ⟨closeAt, hclose, h⟩ := bind_ok_iff.mp h
    obtain ⟨built, hbuilt, h⟩ := bind_ok_iff.mp h
    obtain ⟨rfl, -⟩ := Prod.mk.inj (Except.ok.inj h)
    have hdecision := fromKernel_ok_iff.mp hbuilt
    unfold CanonicalBarSignalResearchDecision.new at hdecision
    obtain ⟨-, hdecision⟩ := check_ok_iff.mp hdecision
    obtain rfl := Except.ok.inj hdecision
    exact context_ok_iff.mp hclose
  next => cases h

theorem enteredPlan_ok {lane : SignalQuoteLane P} {duration decisionAt : Int} {signal : Signal P}
    {entry : ResearchEntryPreview P} {engine engine' : DecisionEngine P} {bar : QuoteBar P}
    (hclose : bar.closeAt duration = some decisionAt)
    (h : enteredPlan lane duration signal entry sha256 binding policy engine bar =
      .ok (plan, engine')) : plan.DecidesAt binding policy decisionAt := by
  unfold enteredPlan at h
  obtain ⟨-, h⟩ := check_ok_iff.mp h
  obtain ⟨entryBar, -, h⟩ := bind_ok_iff.mp h
  obtain ⟨entryBarEnd, -, h⟩ := bind_ok_iff.mp h
  obtain ⟨-, h⟩ := check_ok_iff.mp h
  obtain ⟨⟨decision, stop, target, between⟩, hdecision, h⟩ := bind_ok_iff.mp h
  obtain ⟨lastHold, -, h⟩ := bind_ok_iff.mp h
  obtain ⟨thresholds, -, h⟩ := bind_ok_iff.mp h
  obtain ⟨armed, harmed, h⟩ := bind_ok_iff.mp h
  have hdecides := decidesAt_of_new (fromKernel_ok_iff.mp harmed)
  obtain rfl := Option.some.inj ((bracketDecision_ok hdecision).symm.trans hclose)
  split at h
  next =>
    obtain ⟨rfl, -⟩ := Prod.mk.inj (Except.ok.inj h)
    exact hdecides
  next =>
    obtain ⟨closeAt, -, h⟩ := bind_ok_iff.mp h
    obtain ⟨timeExit, -, h⟩ := bind_ok_iff.mp h
    obtain ⟨timed, htimed, h⟩ := bind_ok_iff.mp h
    obtain ⟨rfl, -⟩ := Prod.mk.inj (Except.ok.inj h)
    exact decidesAt_of_withTimeExit (fromKernel_ok_iff.mp htimed) hdecides

/-- Previewed or not, the final plan decides at the close of the signal's bar. -/
theorem finalPlan_ok {lane : SignalQuoteLane P} {duration decisionAt : Int} {signal : Signal P}
    {preview : QuoteValidatedResearchReplayPlan P →
      Except LaneError (Option (ResearchEntryPreview P))}
    {engine engine' : DecisionEngine P} {bar : QuoteBar P}
    (hclose : bar.closeAt duration = some decisionAt)
    (h : finalPlan sha256 lane binding policy preview duration engine signal bar =
      .ok (plan, engine')) : plan.DecidesAt binding policy decisionAt := by
  unfold finalPlan at h
  obtain ⟨⟨decision, stop, target, between⟩, hdecision, h⟩ := bind_ok_iff.mp h
  obtain ⟨decided, hdecided, h⟩ := bind_ok_iff.mp h
  obtain ⟨previewed, -, h⟩ := bind_ok_iff.mp h
  split at h
  next =>
    obtain ⟨rfl, -⟩ := Prod.mk.inj (Except.ok.inj h)
    obtain rfl := Option.some.inj ((bracketDecision_ok hdecision).symm.trans hclose)
    exact decidesAt_of_new (fromKernel_ok_iff.mp hdecided)
  next entry => exact enteredPlan_ok hclose h

end Plans

end Neoethos
