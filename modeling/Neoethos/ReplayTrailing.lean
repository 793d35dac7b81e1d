import Mathlib.Data.List.Induction
import Neoethos.ReplayEntry

namespace Neoethos

open Fallible

variable {P : Type} [LinearOrder P]

def ResearchPositionDirection.NoLooser : ResearchPositionDirection → P → P → Prop
  | .long, first, second => first ≤ second
  | .short, first, second => second ≤ first

def ResearchPositionDirection.Tightens : ResearchPositionDirection → P → P → Prop
  | .long, first, second => first < second
  | .short, first, second => second < first

instance (direction : ResearchPositionDirection) (first second : P) :
    Decidable (direction.Tightens first second) :=
  match direction with
  | .long => inferInstanceAs (Decidable (first < second))
  | .short => inferInstanceAs (Decidable (second < first))

namespace ResearchPositionDirection

variable {direction : ResearchPositionDirection} {first second third : P}

theorem NoLooser.refl : direction.NoLooser first first := by
  cases direction with
  | long => exact le_refl first
  | short => exact le_refl first

theorem NoLooser.trans (h : direction.NoLooser first second)
    (h' : direction.NoLooser second third) : direction.NoLooser first third := by
  cases direction with
  | long => exact le_trans h h'
  | short => exact le_trans h' h

theorem Tightens.noLooser (h : direction.Tightens first second) :
    direction.NoLooser first second := by
  cases direction with
  | long => exact le_of_lt h
  | short => exact le_of_lt h

theorem NoLooser.tightens_of_tightens (h : direction.NoLooser second third)
    (h' : direction.Tightens first second) : direction.Tightens first third := by
  cases direction with
  | long => exact lt_of_lt_of_le h' h
  | short => exact lt_of_le_of_lt h h'

theorem NoLooser.eq_of_not_tightens (h : direction.NoLooser first second)
    (h' : ¬direction.Tightens first second) : second = first := by
  cases direction with
  | long => exact (lt_or_eq_of_le h).elim (fun hlt => absurd hlt h') Eq.symm
  | short => exact (lt_or_eq_of_le h).elim (fun hlt => absurd hlt h') id

end ResearchPositionDirection

def trailStop (direction : ResearchPositionDirection)
    (stop : P × QuoteValidatedResearchExitReason)
    (threshold : ClosedCanonicalBarTrailingThreshold P) : P × QuoteValidatedResearchExitReason :=
  if direction.Tightens stop.1 threshold.thresholdPrice then
    (threshold.thresholdPrice, .trailingStop)
  else stop

/-- Every threshold that is effective at the time, one after the other, over the initial stop. -/
def foldedStopPrice (decision : CanonicalBarSignalResearchDecision P)
    (thresholds : List (ClosedCanonicalBarTrailingThreshold P)) (timestampUnixMs : Int) :
    P × QuoteValidatedResearchExitReason :=
  (thresholds.filter fun threshold =>
    threshold.effectiveAtNextBarOpenUnixMs ≤ timestampUnixMs).foldl
      (trailStop decision.direction) (decision.stopPrice, .stop)

/-- A schedule of one direction: later thresholds are effective later and are no looser. -/
structure TrailingSchedule (direction : ResearchPositionDirection)
    (thresholds : List (ClosedCanonicalBarTrailingThreshold P)) : Prop where
  timeOrdered : thresholds.Pairwise fun first second =>
    first.effectiveAtNextBarOpenUnixMs < second.effectiveAtNextBarOpenUnixMs
  neverLoosens : thresholds.Pairwise fun first second =>
    direction.NoLooser first.thresholdPrice second.thresholdPrice

variable {direction : ResearchPositionDirection}
  {thresholds : List (ClosedCanonicalBarTrailingThreshold P)}

/-- The fold over a schedule that never loosens is its last threshold, if that one tightens. -/
theorem foldl_trailStop (stop : P × QuoteValidatedResearchExitReason)
    (h : thresholds.Pairwise fun first second =>
      direction.NoLooser first.thresholdPrice second.thresholdPrice) :
    thresholds.foldl (trailStop direction) stop =
      match thresholds.getLast?.filter fun threshold =>
          direction.Tightens stop.1 threshold.thresholdPrice with
      | some threshold => (threshold.thresholdPrice, .trailingStop)
      | none => stop := by
  induction thresholds using List.reverseRecOn with
  | nil => rfl
  | append_singleton earlier threshold ih =>
    rw [List.pairwise_append] at h
    obtain ⟨hearlier, -, hlast⟩ := h
    rw [List.foldl_append, List.foldl_cons, List.foldl_nil, ih hearlier,
      List.getLast?_append_of_ne_nil _ (List.cons_ne_nil _ _), List.getLast?_singleton]
    cases hbefore : earlier.getLast? with
    | none =>
      simp only [Option.filter_none, Option.filter_some, trailStop]
      split
      next htight => simp [htight]
      next htight => simp [htight]
    | some previous =>
      have hkept := hlast previous (List.mem_of_getLast? hbefore) threshold (by simp)
      by_cases hprevious : direction.Tightens stop.1 previous.thresholdPrice
      · have htight := hkept.tightens_of_tightens hprevious
        simp only [Option.filter_some, hprevious, htight, decide_true, if_true, trailStop]
        split
        next => rfl
        next hsame => rw [hkept.eq_of_not_tightens hsame]
      · simp only [Option.filter_some, hprevious, decide_false, Bool.false_eq_true, if_false,
          trailStop]
        split
        next htight => simp [htight]
        next htight => simp [htight]

theorem noLooser_foldl (thresholds : List (ClosedCanonicalBarTrailingThreshold P))
    (stop : P × QuoteValidatedResearchExitReason) :
    direction.NoLooser stop.1 (thresholds.foldl (trailStop direction) stop).1 := by
  induction thresholds generalizing stop with
  | nil => exact .refl
  | cons threshold thresholds ih =>
    refine ResearchPositionDirection.NoLooser.trans ?_ (ih _)
    unfold trailStop
    split
    next htight => exact htight.noLooser
    next => exact .refl

theorem TrailingSchedule.partitioned (h : TrailingSchedule direction thresholds) (t : Int) :
    Slice.Partitioned (fun threshold => threshold.effectiveAtNextBarOpenUnixMs ≤ t)
      thresholds := by
  refine h.timeOrdered.imp ?_
  intro first second hlt hsecond
  rw [decide_eq_true_eq] at hsecond ⊢
  omega

theorem effectiveStopPrice_eq_fold {decision : CanonicalBarSignalResearchDecision P}
    (h : TrailingSchedule decision.direction thresholds) (t : Int) :
    effectiveStopPrice decision thresholds t = foldedStopPrice decision thresholds t := by
  have hpart := h.partitioned t
  have hfold := foldl_trailStop (decision.stopPrice, .stop) (h.neverLoosens.sublist
    (List.filter_sublist (p := fun threshold =>
      decide (threshold.effectiveAtNextBarOpenUnixMs ≤ t))))
  rw [foldedStopPrice, hfold, effectiveStopPrice, Slice.partitionPoint_eq hpart,
    Slice.before_length_filter hpart]
  cases hdirection : decision.direction <;> rfl

theorem TrailingSchedule.folded_mono {decision : CanonicalBarSignalResearchDecision P}
    (h : TrailingSchedule decision.direction thresholds) {t t' : Int} (ht : t ≤ t') :
    decision.direction.NoLooser (foldedStopPrice decision thresholds t).1
      (foldedStopPrice decision thresholds t').1 := by
  have hsplit := Slice.Partitioned.split (((h.partitioned t).sublist
    (List.filter_sublist (p := fun threshold =>
      decide (threshold.effectiveAtNextBarOpenUnixMs ≤ t')))))
  have hfront : (thresholds.filter fun threshold =>
        decide (threshold.effectiveAtNextBarOpenUnixMs ≤ t')).filter
          (fun threshold => decide (threshold.effectiveAtNextBarOpenUnixMs ≤ t)) =
      thresholds.filter fun threshold =>
        decide (threshold.effectiveAtNextBarOpenUnixMs ≤ t) := by
    rw [List.filter_filter]
    apply List.filter_congr
    intro threshold _
    rw [Bool.and_eq_left_iff_imp, decide_eq_true_eq, decide_eq_true_eq]
    intro heffective
    omega
  rw [hfront] at hsplit
  rw [foldedStopPrice, foldedStopPrice, ← hsplit, List.foldl_append]
  exact noLooser_foldl _ _

/-- The check of the schedule, from the last threshold of its direction. -/
theorem refuseLooseningSchedule_ok {latestLong latestShort : Option P}
    (hdirection : ∀ threshold ∈ thresholds, threshold.direction = direction)
    (h : QuoteValidatedResearchReplayPlan.refuseLooseningSchedule latestLong latestShort thresholds =
      .ok ()) :
    (∀ latest ∈ (match direction with | .long => latestLong | .short => latestShort),
      ∀ threshold ∈ thresholds, direction.NoLooser latest threshold.thresholdPrice) ∧
    thresholds.Pairwise fun first second =>
      direction.NoLooser first.thresholdPrice second.thresholdPrice := by
  induction thresholds generalizing latestLong latestShort with
  | nil => exact ⟨(fun _ _ _ hmem => nomatch hmem), List.Pairwise.nil⟩
  | cons threshold rest ih =>
    have hhead := hdirection threshold List.mem_cons_self
    have hrest := fun other hother => hdirection other (List.mem_cons_of_mem _ hother)
    unfold QuoteValidatedResearchReplayPlan.refuseLooseningSchedule at h
    cases direction with
    | long =>
      simp only [hhead] at h
      obtain ⟨hkeeps, hafter⟩ := check_ok_iff.mp h
      obtain ⟨hfirst, hpairs⟩ := ih hrest hafter
      have hfirst := hfirst threshold.thresholdPrice rfl
      refine ⟨?_, List.pairwise_cons.mpr ⟨hfirst, hpairs⟩⟩
      intro latest hlatest other hother
      have hnot := refuseIf_ok.mp hkeeps
      have hlatest : latestLong = some latest := hlatest
      rw [hlatest, Option.any_some, decide_eq_true_eq, not_lt] at hnot
      rcases List.mem_cons.mp hother with rfl | hother
      · exact hnot
      · exact le_trans hnot (hfirst other hother)
    | short =>
      simp only [hhead] at h
      obtain ⟨hkeeps, hafter⟩ := check_ok_iff.mp h
      obtain ⟨hfirst, hpairs⟩ := ih hrest hafter
      have hfirst := hfirst threshold.thresholdPrice rfl
      refine ⟨?_, List.pairwise_cons.mpr ⟨hfirst, hpairs⟩⟩
      intro latest hlatest other hother
      have hnot := refuseIf_ok.mp hkeeps
      have hlatest : latestShort = some latest := hlatest
      rw [hlatest, Option.any_some, decide_eq_true_eq, not_lt] at hnot
      rcases List.mem_cons.mp hother with rfl | hother
      · exact hnot
      · exact le_trans (hfirst other hother) hnot

section Plans

variable [Ring P] {sha256 : HashPayload P → String} {plan : QuoteValidatedResearchReplayPlan P}

theorem QuoteValidatedResearchReplayPlan.Accepted.owned
    {decision : CanonicalBarSignalResearchDecision P} (haccepted : plan.Accepted decision)
    (h : plan.validate sha256 = .ok ()) :
    (∀ threshold ∈ plan.trailingThresholds,
      QuoteValidatedResearchReplayPlan.validateThreshold plan.binding.replayScope decision threshold =
        .ok ()) ∧
      TrailingSchedule decision.direction plan.trailingThresholds := by
  obtain ⟨-, h⟩ := check_ok_iff.mp h
  obtain ⟨-, h⟩ := check_ok_iff.mp h
  obtain ⟨-, h⟩ := check_ok_iff.mp h
  obtain ⟨sole, hsole, h⟩ := bind_ok_iff.mp h
  obtain ⟨-, h⟩ := check_ok_iff.mp h
  obtain ⟨hthresholds, h⟩ := check_ok_iff.mp h
  obtain ⟨hordered, hloosening⟩ := check_ok_iff.mp h
  have hhead := okOrElse_ok.mp hsole
  rw [haccepted.sole] at hhead
  obtain rfl := Option.some.inj hhead
  have hthresholds := forM_ok_iff.mp hthresholds
  have hdirection (threshold) (hmem : threshold ∈ plan.trailingThresholds) :
      threshold.direction = decision.direction := by
    obtain ⟨-, howned⟩ := check_ok_iff.mp (hthresholds threshold hmem)
    have howned := refuseIf_ok.mp howned
    simp only [not_or, not_not, ne_eq] at howned
    exact howned.2.2.1
  have hchain := forPairs_ok_iff.mp hordered
  simp only [refuseIf_ok, not_le] at hchain
  have htrans : IsTrans (ClosedCanonicalBarTrailingThreshold P) fun first second =>
      first.effectiveAtNextBarOpenUnixMs < second.effectiveAtNextBarOpenUnixMs :=
    ⟨fun _ _ _ => lt_trans⟩
  exact ⟨hthresholds, List.isChain_iff_pairwise.mp hchain,
    (refuseLooseningSchedule_ok hdirection hloosening).2⟩

/-- The last effective threshold is the whole fold, and the stop only tightens with time. -/
theorem effectiveStopPrice_validated (h : plan.validate sha256 = .ok ()) :
    ∃ decision, plan.decisions = [decision] ∧
      (∀ t, effectiveStopPrice decision plan.trailingThresholds t =
        foldedStopPrice decision plan.trailingThresholds t) ∧
      (∀ t t', t ≤ t' → decision.direction.NoLooser
        (effectiveStopPrice decision plan.trailingThresholds t).1
        (effectiveStopPrice decision plan.trailingThresholds t').1) ∧
      ∀ t, decision.direction.NoLooser decision.stopPrice
        (effectiveStopPrice decision plan.trailingThresholds t).1 := by
  obtain ⟨decision, haccepted⟩ := QuoteValidatedResearchReplayPlan.accepted_of_validate h
  obtain ⟨-, hschedule⟩ := haccepted.owned h
  have hfold := effectiveStopPrice_eq_fold hschedule
  refine ⟨decision, haccepted.sole, hfold, ?_, ?_⟩
  · intro t t' ht
    rw [hfold, hfold]
    exact hschedule.folded_mono ht
  · intro t
    rw [hfold]
    exact noLooser_foldl _ (decision.stopPrice, .stop)

end Plans

section UsdJpy

/-- A trailing stop that is first looser than the decision's own, then tighter. -/
def usdJpyTrailingPlan : QuoteValidatedResearchReplayPlan ℚ :=
  { usdJpyPlan 1100 none with
    trailingThresholds := [⟨1100, 1200, .long, 148⟩, ⟨1200, 1300, .long, 299 / 2⟩] }

theorem usdJpyTrailing_effectiveStop :
    effectiveStopPrice usdJpyDecision usdJpyTrailingPlan.trailingThresholds 1250 = (149, .stop) ∧
    effectiveStopPrice usdJpyDecision usdJpyTrailingPlan.trailingThresholds 1300 =
        (299 / 2, .trailingStop) ∧
      foldedStopPrice usdJpyDecision usdJpyTrailingPlan.trailingThresholds 1300 =
        (299 / 2, .trailingStop) := by
  have hplan : usdJpyTrailingPlan.validate usdJpySha256 = .ok () := by decide +kernel
  obtain ⟨decision, hsole, hfold, -, -⟩ := effectiveStopPrice_validated hplan
  obtain rfl : usdJpyDecision = decision := List.singleton_inj.mp hsole
  refine ⟨by decide +kernel, by decide +kernel, ?_⟩
  rw [← hfold]
  decide +kernel

end UsdJpy

end Neoethos
