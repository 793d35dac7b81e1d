import Mathlib.Tactic.Linarith
import Neoethos.FloatOps
import Neoethos.LanePlans
import Neoethos.ReplayAccepted

/-! The bars of a lane that `validate` accepted. -/

set_option linter.overlappingInstances false

namespace Neoethos

open Fallible (bind_ok_iff check_ok_iff forM_ok_iff refuse_ok_iff)

@[simp] theorem ensure_ok_iff {good : Prop} [Decidable good] {message : String} :
    ensure good message = .ok () ↔ good := by
  unfold ensure
  rw [refuse_ok_iff, not_not]

namespace QuoteBars

variable {P : Type} {bars : QuoteBars P} {index : Nat} {bar : QuoteBar P}

def openings : QuoteBars P → List Int
  | live bars => bars.map (·.ts)
  | canonical _ timestamps _ _ => timestamps

theorem openings_length : bars.openings.length = bars.len := by
  cases bars with
  | live bars => exact List.length_map _
  | canonical ohlcv timestamps symbol timeframe => rfl

theorem openings_of_get (h : bars.get index = some bar) : bars.openings[index]? = some bar.ts := by
  cases bars with
  | live bars =>
    obtain ⟨row, hrow, hbar⟩ := Option.bind_eq_some_iff.mp h
    obtain rfl := Option.some.inj hbar
    show (bars.map (·.ts))[index]? = _
    rw [List.getElem?_map, hrow]
    rfl
  | canonical ohlcv timestamps symbol timeframe =>
    obtain ⟨ts, hts, h⟩ := Option.bind_eq_some_iff.mp h
    obtain ⟨o, _, h⟩ := Option.bind_eq_some_iff.mp h
    obtain ⟨high, _, h⟩ := Option.bind_eq_some_iff.mp h
    obtain ⟨low, _, h⟩ := Option.bind_eq_some_iff.mp h
    obtain ⟨c, _, h⟩ := Option.bind_eq_some_iff.mp h
    obtain rfl := Option.some.inj h
    exact hts

theorem lt_len_of_get (h : bars.get index = some bar) : index < bars.len := by
  obtain ⟨hlt, _⟩ := List.getElem?_eq_some_iff.mp (openings_of_get h)
  rw [openings_length] at hlt
  exact hlt

theorem partitionAt_eq (timestamp : Int) :
    bars.partitionAt timestamp = Slice.partitionPoint (· ≤ timestamp) bars.openings := by
  cases bars with
  | live bars =>
    exact (Slice.partitionPoint_map (fun bar : LiveBar P => bar.ts) bars
      fun ts => decide (ts ≤ timestamp)).symm
  | canonical ohlcv timestamps symbol timeframe => rfl

/-- In bars that follow each other, the partition point of a time inside a bar is right behind
that bar. -/
theorem partitionAt_inside {timestamp duration : Int} (hsorted : bars.openings.Pairwise (· < ·))
    (hbar : bars.get index = some bar) (hfrom : bar.ts ≤ timestamp)
    (hto : timestamp < bar.ts + duration)
    (hnext : ∀ next, bars.openings[index + 1]? = some next → bar.ts + duration ≤ next) :
    bars.partitionAt timestamp = index + 1 := by
  have hpartitioned : Slice.Partitioned (fun ts => decide (ts ≤ timestamp)) bars.openings := by
    refine hsorted.imp ?_
    intro a b hab hb
    have hle : b ≤ timestamp := of_decide_eq_true hb
    exact decide_eq_true (by omega)
  have hcount := fun i => Slice.any_getElem?_iff hpartitioned (i := i)
  have hat := (hcount index).mp (by rw [openings_of_get hbar]; exact decide_eq_true hfrom)
  have hbehind : ¬index + 1 < (bars.openings.filter fun ts => decide (ts ≤ timestamp)).length := by
    intro hlt
    obtain ⟨next, hget, hle⟩ := (Option.any_eq_true _ _).mp ((hcount (index + 1)).mpr hlt)
    have hclose := hnext next hget
    have hle : next ≤ timestamp := of_decide_eq_true hle
    omega
  rw [partitionAt_eq, Slice.partitionPoint_eq hpartitioned]
  omega

end QuoteBars

variable {sha256 : HashPayload ℚ → String} {lane : SignalQuoteLane ℚ}
  {binding : QuoteValidatedResearchReplayBinding} {policy : QuoteValidatedResearchReplayPolicy ℚ}
  {duration : Int}

/-- A bar of an accepted lane: it has closed inside the locked window. -/
structure QuoteBar.Closed (bar : QuoteBar ℚ) (window : EvidenceWindow) (duration : Int) : Prop where
  nonneg : 0 ≤ bar.ts
  aligned : bar.ts % duration = 0
  closes : bar.closeAt duration = some (bar.ts + duration)
  inside : bar.ts + duration ≤ window.toUnixMsExclusive
  close_pos : 0 < bar.c

/-- What `validate` says of a lane. -/
structure SignalQuoteLane.Accepted (lane : SignalQuoteLane ℚ) (sha256 : HashPayload ℚ → String)
    (binding : QuoteValidatedResearchReplayBinding) (policy : QuoteValidatedResearchReplayPolicy ℚ)
    (duration : Int) : Prop where
  policyAccepted : binding.validateReplayPolicy sha256 policy = .ok ()
  duration_pos : 0 < duration
  pip_pos : 0 < lane.pipSize
  closed : ∀ index < lane.bars.len, ∃ bar, lane.bars.get index = some bar ∧
    bar.Closed binding.replayScope.lockedEvaluationWindow duration
  first : ∃ bar, lane.bars.get 0 = some bar ∧
    bar.ts = binding.replayScope.lockedEvaluationWindow.fromUnixMsInclusive
  next : ∀ index bar following, lane.bars.get index = some bar →
    lane.bars.get (index + 1) = some following → bar.ts + duration ≤ following.ts

theorem CanonicalTimeframe.fixedDuration_pos {timeframe : CanonicalTimeframe}
    (h : timeframe.fixedDurationMs = some duration) : 0 < duration := by
  cases timeframe <;> simp [fixedDurationMs] at h <;> omega

theorem closeAt_eq_some {bar : QuoteBar ℚ} {closeAt : Int}
    (h : bar.closeAt duration = some closeAt) : closeAt = bar.ts + duration :=
  (I64.checkedAdd_eq_some.mp h).2

theorem SignalQuoteLane.validateRow_ok {timeframe : CanonicalTimeframe} {signal : Int} {index : Nat}
    (h : lane.validateRow binding timeframe duration (signal, index) = .ok ()) :
    ∃ bar, lane.bars.get index = some bar ∧
      bar.Closed binding.replayScope.lockedEvaluationWindow duration ∧
      (index = 0 ∨ ∃ previous, lane.bars.get (index - 1) = some previous ∧
        previous.ts + duration ≤ bar.ts) := by
  obtain ⟨bar, hbar, h⟩ := bind_ok_iff.mp h
  obtain ⟨_, h⟩ := check_ok_iff.mp h
  obtain ⟨_, h⟩ := check_ok_iff.mp h
  obtain ⟨htime, h⟩ := check_ok_iff.mp h
  obtain ⟨hnonneg, haligned, hclose, hprevious⟩ := ensure_ok_iff.mp htime
  obtain ⟨hpositive, _⟩ := ensure_ok_iff.mp h
  obtain ⟨closeAt, hcloses, hinside⟩ := (Option.any_eq_true _ _).mp hclose
  obtain rfl := closeAt_eq_some hcloses
  have hclosePrice : FloatOps.isPositive bar.c = true :=
    List.all_eq_true.mp hpositive bar.c (by simp)
  refine ⟨bar, context_ok_iff.mp hbar,
    ⟨hnonneg, haligned, hcloses, of_decide_eq_true hinside, ?_⟩, ?_⟩
  · exact (isPositive_rat _).mp hclosePrice
  · refine hprevious.imp_right ?_
    intro hany
    obtain ⟨previous, hget, hends⟩ := (Option.any_eq_true _ _).mp hany
    obtain ⟨previousEnd, hpreviousEnd, hle⟩ := (Option.any_eq_true _ _).mp hends
    obtain rfl := closeAt_eq_some hpreviousEnd
    exact ⟨previous, hget, of_decide_eq_true hle⟩

theorem SignalQuoteLane.accepted_of_validate
    (h : lane.validate sha256 binding policy = .ok duration) :
    lane.Accepted sha256 binding policy duration := by
  obtain ⟨hpolicy, h⟩ := check_ok_iff.mp h
  obtain ⟨hlen, h⟩ := check_ok_iff.mp h
  obtain ⟨_, h⟩ := check_ok_iff.mp h
  obtain ⟨_, h⟩ := check_ok_iff.mp h
  obtain ⟨_, h⟩ := check_ok_iff.mp h
  obtain ⟨hpositive, h⟩ := check_ok_iff.mp h
  obtain ⟨_, h⟩ := check_ok_iff.mp h
  obtain ⟨_, h⟩ := check_ok_iff.mp h
  obtain ⟨first, hfirst, h⟩ := bind_ok_iff.mp h
  obtain ⟨timeframe, htimeframe, h⟩ := bind_ok_iff.mp h
  obtain ⟨_, hduration, h⟩ := bind_ok_iff.mp h
  obtain ⟨hwindow, h⟩ := check_ok_iff.mp h
  obtain ⟨hrows, h⟩ := check_ok_iff.mp h
  obtain rfl := Except.ok.inj h
  obtain ⟨_, hsignals⟩ := ensure_ok_iff.mp hlen
  have hpip : FloatOps.isPositive lane.pipSize = true :=
    List.all_eq_true.mp (ensure_ok_iff.mp hpositive) lane.pipSize (by simp)
  have hrow (index : Nat) (hindex : index < lane.bars.len) := by
    have hsignal := List.getElem?_eq_getElem (hsignals ▸ hindex : index < lane.signals.length)
    exact SignalQuoteLane.validateRow_ok
      (forM_ok_iff.mp hrows _ (List.mk_mem_zipIdx_iff_getElem?.mpr hsignal))
  exact
    { policyAccepted := fromKernel_ok_iff.mp hpolicy
      duration_pos := CanonicalTimeframe.fixedDuration_pos (context_ok_iff.mp hduration)
      pip_pos := (isPositive_rat _).mp hpip
      closed := fun index hindex => (hrow index hindex).imp fun bar hbar => ⟨hbar.1, hbar.2.1⟩
      first := ⟨first, context_ok_iff.mp hfirst, (ensure_ok_iff.mp hwindow).1⟩
      next := by
        intro index bar following hbar hfollowing
        obtain ⟨row, hget, _, hstep⟩ := hrow (index + 1) (QuoteBars.lt_len_of_get hfollowing)
        obtain rfl := Option.some.inj (hget.symm.trans hfollowing)
        obtain hzero | ⟨previous, hprevious, hle⟩ := hstep
        · omega
        · obtain rfl := Option.some.inj (hprevious.symm.trans hbar)
          exact hle }

namespace SignalQuoteLane.Accepted

variable {index later : Nat} {bar laterBar : QuoteBar ℚ}

theorem closed_of_get (h : lane.Accepted sha256 binding policy duration)
    (hbar : lane.bars.get index = some bar) :
    bar.Closed binding.replayScope.lockedEvaluationWindow duration := by
  obtain ⟨row, hrow, hclosed⟩ := h.closed index (QuoteBars.lt_len_of_get hbar)
  obtain rfl := Option.some.inj (hrow.symm.trans hbar)
  exact hclosed

/-- A later bar opens when an earlier one has closed, or after that. -/
theorem follows (h : lane.Accepted sha256 binding policy duration) (hlater : index < later)
    (hbar : lane.bars.get index = some bar) (hlaterBar : lane.bars.get later = some laterBar) :
    bar.ts + duration ≤ laterBar.ts := by
  induction later generalizing laterBar with
  | zero => omega
  | succ last ih =>
    by_cases hlast : index = last
    · subst hlast
      exact h.next index bar laterBar hbar hlaterBar
    · have hlen := QuoteBars.lt_len_of_get hlaterBar
      obtain ⟨before, hbefore, _⟩ := h.closed last (by omega)
      have hfirst := ih (by omega) hbefore
      have hsecond := h.next last before laterBar hbefore hlaterBar
      have hpos := h.duration_pos
      omega

theorem opens_in_window (h : lane.Accepted sha256 binding policy duration)
    (hbar : lane.bars.get index = some bar) :
    binding.replayScope.lockedEvaluationWindow.fromUnixMsInclusive ≤ bar.ts := by
  obtain ⟨first, hfirst, hopens⟩ := h.first
  by_cases hzero : index = 0
  · subst hzero
    obtain rfl := Option.some.inj (hfirst.symm.trans hbar)
    omega
  · have hfollows := h.follows (by omega : 0 < index) hfirst hbar
    have hpos := h.duration_pos
    omega

theorem exists_bar (h : lane.Accepted sha256 binding policy duration) {ts : Int}
    (hts : lane.bars.openings[index]? = some ts) :
    ∃ bar, lane.bars.get index = some bar ∧ bar.ts = ts := by
  obtain ⟨hlt, _⟩ := List.getElem?_eq_some_iff.mp hts
  rw [QuoteBars.openings_length] at hlt
  obtain ⟨bar, hbar, _⟩ := h.closed index hlt
  have hopening := QuoteBars.openings_of_get hbar
  exact ⟨bar, hbar, Option.some.inj (hopening.symm.trans hts)⟩

theorem openings_sorted (h : lane.Accepted sha256 binding policy duration) :
    lane.bars.openings.Pairwise (· < ·) := by
  rw [List.pairwise_iff_getElem]
  intro i j hi hj hij
  obtain ⟨first, hfirst, hfirstTs⟩ := h.exists_bar (List.getElem?_eq_getElem hi)
  obtain ⟨second, hsecond, hsecondTs⟩ := h.exists_bar (List.getElem?_eq_getElem hj)
  have hfollows := h.follows hij hfirst hsecond
  have hpos := h.duration_pos
  omega

theorem partitionAt_eq (h : lane.Accepted sha256 binding policy duration)
    (hbar : lane.bars.get index = some bar) {timestamp : Int} (hfrom : bar.ts ≤ timestamp)
    (hto : timestamp < bar.ts + duration) : lane.bars.partitionAt timestamp = index + 1 := by
  apply QuoteBars.partitionAt_inside h.openings_sorted hbar hfrom hto
  intro next hnext
  obtain ⟨following, hfollowing, rfl⟩ := h.exists_bar hnext
  exact h.next index bar following hbar hfollowing

/-- Bars are aligned, so the bar of a time after a close opens no earlier than that close. -/
theorem opens_after_close (h : lane.Accepted sha256 binding policy duration)
    (hbar : lane.bars.get index = some bar) {entryIndex : Nat} {entryBar : QuoteBar ℚ}
    (hentry : lane.bars.get entryIndex = some entryBar) {timestamp : Int}
    (hafter : bar.ts + duration ≤ timestamp) (hto : timestamp < entryBar.ts + duration) :
    bar.ts + duration ≤ entryBar.ts := by
  by_cases hindex : index < entryIndex
  · exact h.follows hindex hbar hentry
  · exfalso
    by_cases hsame : index = entryIndex
    · subst hsame
      obtain rfl := Option.some.inj (hbar.symm.trans hentry)
      omega
    · have hfollows := h.follows (by omega : entryIndex < index) hentry hbar
      have hpos := h.duration_pos
      omega

/-- The quotes that are asked for go on behind the locked window. -/
theorem quotes_behind (h : lane.Accepted sha256 binding policy duration) :
    binding.replayScope.lockedEvaluationWindow.toUnixMsExclusive <
      binding.replayScope.requiredQuoteCoverageWindow.toUnixMsExclusive := by
  obtain ⟨hpadded, hbounded⟩ :=
    QuoteValidatedResearchReplayBinding.bounded_of_validateReplayPolicy h.policyAccepted
  have hupper := hpadded.upper
  have hexit := hbounded.exitPadding
  have hwait := hbounded.exitWait
  have hlatency := hbounded.exitLatency
  omega

end SignalQuoteLane.Accepted

end Neoethos
