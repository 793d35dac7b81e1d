import Neoethos.LaneBars
import Neoethos.ReplayTrailing

set_option linter.overlappingInstances false

namespace Neoethos

open Fallible (bind_ok_iff check_ok_iff)

section Bracket

def Direction.Around : Direction → ℚ → ℚ → ℚ → Prop
  | .long, stop, mark, target => stop < mark ∧ mark < target
  | .short, stop, mark, target => target < mark ∧ mark < stop
  | .flat, _, _, _ => False

def Direction.research (dir : Direction) : ResearchPositionDirection :=
  if dir = .long then .long else .short

variable {engine : DecisionEngine ℚ} {signal : Signal ℚ} {mark pipSize : ℚ}

theorem distances_pos (signal : Signal ℚ)
    (hcfg : engine.cfg = DecisionConfig.geneParity pipSize) (hmark : 0 < mark) :
    0 < (engine.distances signal mark).1.1 ∧ 0 < (engine.distances signal mark).1.2 ∧
      (engine.distances signal mark).2.cfg = engine.cfg := by
  unfold DecisionEngine.distances
  split
  next hown =>
    obtain ⟨hpip, hstop⟩ := Bool.and_eq_true_iff.mp hown
    have hpip : 0 < engine.cfg.pipSize := of_decide_eq_true hpip
    have hstop : 0 < signal.slPips := (isPositive_rat _).mp hstop
    have hwidth : 0 < signal.slPips * engine.cfg.pipSize := mul_pos hstop hpip
    refine ⟨hwidth, ?_, rfl⟩
    dsimp only
    split
    next htarget =>
      have htarget : 0 < signal.tpPips := (isPositive_rat _).mp htarget
      exact mul_pos htarget hpip
    next =>
      rw [hcfg]
      exact mul_pos (hcfg ▸ hwidth) (by show (0 : ℚ) < 2; norm_num)
  next =>
    rw [hcfg]
    have hstop : 0 < mark * (DecisionConfig.geneParity pipSize).stopFrac :=
      mul_pos hmark (by show (0 : ℚ) < 5 / 1000; norm_num)
    refine ⟨hstop, ?_, rfl⟩
    exact mul_pos hstop (by show (0 : ℚ) < 2; norm_num)

/-- Around a positive price there is always a bracket, the strategy's own or the synthetic one. -/
theorem bracket_around (signal : Signal ℚ)
    (hcfg : engine.cfg = DecisionConfig.geneParity pipSize) (hmark : 0 < mark)
    (hdir : signal.dir ≠ .flat) :
    ∃ stop target, (engine.bracket signal signal.dir mark).1 = some (stop, target) ∧
      signal.dir.Around stop mark target ∧
      (engine.bracket signal signal.dir mark).2.cfg = engine.cfg := by
  obtain ⟨hstop, htarget, hsame⟩ := distances_pos signal hcfg hmark
  have hpositive : ¬FloatOps.le mark (FloatOps.lit 0) = true := by simpa using hmark
  unfold DecisionEngine.bracket
  rw [if_neg hpositive]
  cases hcase : signal.dir with
  | long => exact ⟨_, _, rfl, ⟨sub_lt_self _ hstop, lt_add_of_pos_right _ htarget⟩, hsame⟩
  | short => exact ⟨_, _, rfl, ⟨sub_lt_self _ htarget, lt_add_of_pos_right _ hstop⟩, hsame⟩
  | flat => exact absurd hcase hdir

theorem intent_of_bracket {stop target : ℚ} (hdir : signal.dir ≠ .flat)
    (h : (engine.bracket signal signal.dir mark).1 = some (stop, target)) :
    engine.intent signal [] mark =
      (some (.open signal.symbol signal.dir
        ((engine.bracket signal signal.dir mark).2.size signal.confidence) (some stop) (some target)
        signal.source), (engine.bracket signal signal.dir mark).2) := by
  unfold DecisionEngine.intent
  rw [List.find?_nil]
  cases hcase : signal.dir with
  | long =>
    rw [hcase] at h
    dsimp only
    rw [h]
    rfl
  | short =>
    rw [hcase] at h
    dsimp only
    rw [h]
    rfl
  | flat => exact absurd hcase hdir

variable {stop target : ℚ} {bar : QuoteBar ℚ} {duration : Int}

theorem decision_valid {signalBarOpen nextBarOpen : Int} (hsignal : 0 ≤ signalBarOpen)
    (hnext : signalBarOpen < nextBarOpen) (hstop : 0 < stop) (htarget : 0 < target)
    (haround : signal.dir.Around stop mark target) :
    CanonicalBarSignalResearchDecision.validate
      ⟨signalBarOpen, nextBarOpen, signal.dir.research, stop, target⟩ = .ok () := by
  refine check_ok_iff.mpr ⟨refuseIf_ok.mpr ?_, refuseIf_ok.mpr ?_⟩
  · simp only [not_or, not_lt, not_le]
    exact ⟨hsignal, hnext, hstop, htarget⟩
  · rw [not_not]
    cases hcase : signal.dir with
    | long =>
      rw [hcase] at haround
      exact decide_eq_true (haround.1.trans haround.2)
    | short =>
      rw [hcase] at haround
      exact decide_eq_true (haround.1.trans haround.2)
    | flat =>
      rw [hcase] at haround
      exact haround.elim

/-- A bracket of positive prices becomes the decision of its bar. -/
theorem bracketDecision_of_bracket (hdir : signal.dir ≠ .flat)
    (hbracket : (engine.bracket signal signal.dir mark).1 = some (stop, target))
    (haround : signal.dir.Around stop mark target) (hstop : 0 < stop) (htarget : 0 < target)
    (hnonneg : 0 ≤ bar.ts) (hduration : 0 < duration)
    (hcloses : bar.closeAt duration = some (bar.ts + duration)) :
    bracketDecision engine signal bar duration mark =
      .ok (⟨bar.ts, bar.ts + duration, signal.dir.research, stop, target⟩, stop, target,
        (engine.bracket signal signal.dir mark).2) := by
  have hvalid := decision_valid hnonneg (by omega : bar.ts < bar.ts + duration) hstop htarget
    haround
  have hresearch : researchDirection signal.dir = .ok signal.dir.research := by
    cases hcase : signal.dir with
    | long => rfl
    | short => rfl
    | flat => exact absurd hcase hdir
  unfold bracketDecision
  rw [intent_of_bracket hdir hbracket]
  dsimp only
  rw [hresearch, hcloses]
  refine bind_ok_iff.mpr ⟨_, rfl, bind_ok_iff.mpr ⟨_, rfl, bind_ok_iff.mpr ⟨_, ?_, rfl⟩⟩⟩
  exact fromKernel_ok_iff.mpr (check_ok_iff.mpr ⟨hvalid, rfl⟩)

end Bracket

section Trailing

variable (lane : SignalQuoteLane ℚ) (duration : Int) (signal : Signal ℚ)
  (entry : ResearchEntryPreview ℚ) (entryIndex : Nat) (stop : ℚ) (trailing : TrailingPolicy ℚ)

/-- The high and the low that the trailing stop reads off a bar. -/
def trailingExtremes (index : Nat) : Option (ℚ × ℚ) := do
  let source ← lane.bars.get index
  let closeAt ← source.closeAt duration
  if index = entryIndex then (entry.bidExtremaBefore closeAt).toOption
  else some (source.h, source.l)

/-- The prices that a position's stop is moved to over the given bars. -/
def trailingPrices : Option ℚ → List Nat → List ℚ
  | _, [] => []
  | trailStop, index :: rest =>
    match (trailingExtremes lane duration entry entryIndex index).bind fun (high, low) =>
        trailing.nextStopPrice entry.modeledEntryPrice stop signal.dir high low trailStop with
    | none => trailingPrices trailStop rest
    | some nextStop => nextStop :: trailingPrices (some nextStop) rest

variable {lane duration signal entry entryIndex stop trailing}

theorem nextStopPrice_tightens {high low current next : ℚ} (hdir : signal.dir ≠ .flat)
    (h : trailing.nextStopPrice entry.modeledEntryPrice stop signal.dir high low (some current) =
      some next) : signal.dir.research.Tightens current next := by
  unfold TrailingPolicy.nextStopPrice at h
  cases hcase : signal.dir with
  | long =>
    simp only [hcase] at h
    have hlt : FloatOps.lt current next = true := by grind
    exact of_decide_eq_true hlt
  | short =>
    simp only [hcase] at h
    have hlt : FloatOps.lt next current = true := by grind
    exact of_decide_eq_true hlt
  | flat => exact absurd hcase hdir

variable {sha256 : HashPayload ℚ → String} {binding : QuoteValidatedResearchReplayBinding}
  {policy : QuoteValidatedResearchReplayPolicy ℚ} {entryBar bar : QuoteBar ℚ}

/-- The entry lies inside a bar of the lane. -/
structure ResearchEntryPreview.Inside (entry : ResearchEntryPreview ℚ) (lane : SignalQuoteLane ℚ)
    (binding : QuoteValidatedResearchReplayBinding) (duration : Int) (entryIndex : Nat)
    (entryBar : QuoteBar ℚ) : Prop where
  bound : entry.evidence.binding = binding
  bar : lane.bars.get entryIndex = some entryBar
  opened : entryBar.ts ≤ entry.timestampUnixMs
  open_ : entry.timestampUnixMs < entryBar.ts + duration

/-- The extremes of a bar from the entry on can always be read. -/
theorem extremes_ok (h : lane.Accepted sha256 binding policy duration)
    (hentry : entry.Inside lane binding duration entryIndex entryBar) {index : Nat}
    (hbar : lane.bars.get index = some bar) :
    ∃ extremes, trailingExtremes lane duration entry entryIndex index = some extremes ∧
      (if index = entryIndex then fromKernel (entry.bidExtremaBefore (bar.ts + duration))
        else .ok (bar.h, bar.l)) = .ok extremes := by
  have hclosed := h.closed_of_get hbar
  unfold trailingExtremes
  rw [hbar]
  show ∃ extremes, (bar.closeAt duration).bind _ = _ ∧ _
  rw [hclosed.closes]
  by_cases hindex : index = entryIndex
  · have hsame : entryBar = bar := by
      rw [hindex] at hbar
      exact Option.some.inj (hentry.bar.symm.trans hbar)
    have hopen := hentry.open_
    have hinside := hclosed.inside
    have hreads : ¬(bar.ts + duration ≤ entry.timestampUnixMs ∨
        entry.evidence.binding.replayScope.lockedEvaluationWindow.toUnixMsExclusive <
          bar.ts + duration) := by
      rw [hentry.bound, ← hsame]
      rw [← hsame] at hinside
      omega
    simp only [hindex, if_true]
    show ∃ extremes, (entry.bidExtremaBefore (bar.ts + duration)).toOption = _ ∧ _
    unfold ResearchEntryPreview.bidExtremaBefore refuseIf
    simp only [hreads, if_false]
    exact ⟨_, rfl, rfl⟩
  · simp only [hindex, if_false]
    exact ⟨_, rfl, rfl⟩

/-- A schedule of thresholds that bars from `start` on have set, no looser than before. -/
structure Ratchet (lane : SignalQuoteLane ℚ) (duration : Int)
    (direction : ResearchPositionDirection) (start : Nat) (trailStop : Option ℚ)
    (thresholds : List (ClosedCanonicalBarTrailingThreshold ℚ)) : Prop where
  owned : ∀ threshold ∈ thresholds, threshold.direction = direction ∧
    0 < threshold.thresholdPrice ∧ ∃ index bar, start ≤ index ∧ lane.bars.get index = some bar ∧
      threshold.sourceBarOpenUnixMs = bar.ts ∧
      threshold.effectiveAtNextBarOpenUnixMs = bar.ts + duration
  schedule : TrailingSchedule direction thresholds
  noLooser : ∀ previous ∈ trailStop, ∀ threshold ∈ thresholds,
    direction.NoLooser previous threshold.thresholdPrice

theorem Ratchet.later {direction : ResearchPositionDirection} {start later : Nat}
    {trailStop : Option ℚ} {thresholds : List (ClosedCanonicalBarTrailingThreshold ℚ)}
    (h : Ratchet lane duration direction later trailStop thresholds) (hle : start ≤ later) :
    Ratchet lane duration direction start trailStop thresholds := by
  refine ⟨?_, h.schedule, h.noLooser⟩
  intro threshold hmem
  obtain ⟨hdirection, hpositive, index, bar, hindex, hbar⟩ := h.owned threshold hmem
  exact ⟨hdirection, hpositive, index, bar, hle.trans hindex, hbar⟩

/-- A bar that moves the stop puts its threshold in front. -/
theorem Ratchet.cons (h : lane.Accepted sha256 binding policy duration) {start : Nat}
    (hbar : lane.bars.get start = some bar) {trailStop : Option ℚ} {next : ℚ}
    {direction : ResearchPositionDirection}
    {thresholds : List (ClosedCanonicalBarTrailingThreshold ℚ)} (hpositive : 0 < next)
    (htightens : ∀ previous ∈ trailStop, direction.Tightens previous next)
    (hrest : Ratchet lane duration direction (start + 1) (some next) thresholds) :
    Ratchet lane duration direction start trailStop
      (⟨bar.ts, bar.ts + duration, direction, next⟩ :: thresholds) := by
  refine ⟨?_, ⟨?_, ?_⟩, ?_⟩
  · intro threshold hmem
    obtain rfl | hmem := List.mem_cons.mp hmem
    · exact ⟨rfl, hpositive, start, bar, le_refl start, hbar, rfl, rfl⟩
    · exact (hrest.later (Nat.le_succ start)).owned threshold hmem
  · refine List.pairwise_cons.mpr ⟨?_, hrest.schedule.timeOrdered⟩
    intro threshold hmem
    obtain ⟨_, _, index, row, hindex, hrow, _, heffective⟩ := hrest.owned threshold hmem
    have hfollows := h.follows (by omega : start < index) hbar hrow
    have hpos := h.duration_pos
    show bar.ts + duration < threshold.effectiveAtNextBarOpenUnixMs
    omega
  · exact List.pairwise_cons.mpr ⟨hrest.noLooser next rfl, hrest.schedule.neverLoosens⟩
  · intro previous hprevious threshold hmem
    have hfirst := (htightens previous hprevious).noLooser
    obtain rfl | hmem := List.mem_cons.mp hmem
    · exact hfirst
    · exact hfirst.trans (hrest.noLooser next rfl threshold hmem)

/-- One turn of the loop, over a bar whose extremes can be read. -/
theorem trailingThresholds_cons {index : Nat} {rest : List Nat} {trailStop : Option ℚ}
    {high low : ℚ} (hbar : lane.bars.get index = some bar)
    (hcloses : bar.closeAt duration = some (bar.ts + duration))
    (hread : (if index = entryIndex then fromKernel (entry.bidExtremaBefore (bar.ts + duration))
      else .ok (bar.h, bar.l)) = .ok (high, low)) :
    trailingThresholds lane duration signal entry entryIndex stop trailing trailStop
        (index :: rest) =
      match trailing.nextStopPrice entry.modeledEntryPrice stop signal.dir high low trailStop with
      | none =>
        trailingThresholds lane duration signal entry entryIndex stop trailing trailStop rest
      | some nextStop => do
        let threshold ← fromKernel (ClosedCanonicalBarTrailingThreshold.new bar.ts
          (bar.ts + duration) signal.dir.research nextStop)
        let thresholds ← trailingThresholds lane duration signal entry entryIndex stop trailing
          (some nextStop) rest
        return threshold :: thresholds := by
  have hcontext : context (bar.closeAt duration) "trailing bar close overflow" =
      .ok (bar.ts + duration) := context_ok_iff.mpr hcloses
  conv_lhs => unfold trailingThresholds
  rw [hbar]
  show (context (bar.closeAt duration) _ >>= _) = _
  rw [hcontext, Fallible.ok_bind]
  by_cases hindex : index = entryIndex
  · simp only [hindex, if_true] at hread ⊢
    rw [hread, Fallible.ok_bind]
    cases trailing.nextStopPrice entry.modeledEntryPrice stop signal.dir high low trailStop <;>
      rfl
  · simp only [hindex, if_false] at hread ⊢
    obtain ⟨rfl, rfl⟩ := Prod.mk.inj (Except.ok.inj hread)
    rw [Fallible.ok_bind]
    cases trailing.nextStopPrice entry.modeledEntryPrice stop signal.dir bar.h bar.l trailStop <;>
      rfl

/-- The loop over the bars of a position builds a schedule, as long as its prices are positive. -/
theorem trailingThresholds_of_positive (h : lane.Accepted sha256 binding policy duration)
    (hentry : entry.Inside lane binding duration entryIndex entryBar) (hdir : signal.dir ≠ .flat)
    {start count : Nat} (hlen : start + count ≤ lane.bars.len) {trailStop : Option ℚ}
    (hpositive : ∀ price ∈ trailingPrices lane duration signal entry entryIndex stop trailing
      trailStop (List.range' start count), 0 < price) :
    ∃ thresholds, trailingThresholds lane duration signal entry entryIndex stop trailing trailStop
        (List.range' start count) = .ok thresholds ∧
      Ratchet lane duration signal.dir.research start trailStop thresholds := by
  induction count generalizing start trailStop with
  | zero =>
    refine ⟨[], rfl, ?_, ⟨List.Pairwise.nil, List.Pairwise.nil⟩, ?_⟩
    · intro threshold hmem
      exact absurd hmem List.not_mem_nil
    · intro previous _ threshold hmem
      exact absurd hmem List.not_mem_nil
  | succ count ih =>
    obtain ⟨bar, hbar, hclosed⟩ := h.closed start (by omega)
    obtain ⟨⟨high, low⟩, hextremes, hread⟩ := extremes_ok h hentry hbar
    rw [List.range'_succ] at hpositive ⊢
    unfold trailingPrices at hpositive
    rw [hextremes, Option.bind_some] at hpositive
    rw [trailingThresholds_cons hbar hclosed.closes hread]
    dsimp only at hpositive
    cases hnext : trailing.nextStopPrice entry.modeledEntryPrice stop signal.dir high low
        trailStop with
    | none =>
      rw [hnext] at hpositive
      obtain ⟨thresholds, hbuilt, hratchet⟩ := ih (by omega) hpositive
      exact ⟨thresholds, hbuilt, hratchet.later (Nat.le_succ start)⟩
    | some next =>
      rw [hnext] at hpositive
      obtain ⟨hprice, hpositive⟩ := List.forall_mem_cons.mp hpositive
      obtain ⟨thresholds, hbuilt, hratchet⟩ := ih (by omega) hpositive
      have htightens (previous : ℚ) (hprevious : previous ∈ trailStop) :
          signal.dir.research.Tightens previous next := by
        rw [Option.mem_def.mp hprevious] at hnext
        exact nextStopPrice_tightens hdir hnext
      have hpos := h.duration_pos
      have hnonneg := hclosed.nonneg
      refine ⟨_, ?_, hratchet.cons h hbar hprice htightens⟩
      refine bind_ok_iff.mpr ⟨_, fromKernel_ok_iff.mpr (check_ok_iff.mpr ⟨refuseIf_ok.mpr ?_, rfl⟩),
        bind_ok_iff.mpr ⟨thresholds, hbuilt, rfl⟩⟩
      simp only [not_or, not_lt, not_le]
      exact ⟨hnonneg, by omega, hprice⟩

end Trailing

end Neoethos
