import Neoethos.EvaluatorCausality

namespace Neoethos

open FloatOps (lit lt le isFinite)

variable {F : Type*}

def NettedTape.firstBars (tape : NettedTape F) (n : Nat) : NettedTape F where
  slPips := tape.slPips.take n
  tpPips := tape.tpPips.take n
  mlMultipliers := tape.mlMultipliers.take n
  lotGrid := tape.lotGrid
  monthCapacity := tape.monthCapacity

/-- The same call on the first `n` bars. -/
def EvalInput.firstBars (inp : EvalInput F) (n : Nat) : EvalInput F where
  close := inp.close.take n
  high := inp.high.take n
  low := inp.low.take n
  signals := inp.signals.take n
  confidences := inp.confidences.take n
  monthIdx := inp.monthIdx.take n
  dayIdx := inp.dayIdx.take n
  timestamps := inp.timestamps.take n
  settings := { inp.settings with
    adaptiveBasePips := inp.settings.adaptiveBasePips.map (·.take n) }
  netted := inp.netted.map (·.firstBars n)

namespace EvalInput

theorem aligned_firstBars {inp : EvalInput F} (h : inp.Aligned) (n : Nat) :
    (inp.firstBars n).Aligned := by
  unfold firstBars Aligned
  rcases h with hnil | hlen
  · left
    simp [hnil]
  · right
    simp [hlen]

theorem getElem?_firstBars {α : Type*} (xs : List α) {i k : Nat} (h : i ≤ k) :
    (xs.take (k + 1))[i]? = xs[i]? :=
  List.getElem?_take_of_lt (Nat.lt_succ_of_le h)

theorem agree_firstBars (inp : EvalInput F) (k : Nat) : Agree k inp (inp.firstBars (k + 1)) where
  close := fun _ => getElem?_firstBars _
  high := fun _ => getElem?_firstBars _
  low := fun _ => getElem?_firstBars _
  monthIdx := fun _ => getElem?_firstBars _
  dayIdx := fun _ => getElem?_firstBars _
  timestamps := fun _ => getElem?_firstBars _
  signals := fun _ hj => getElem?_firstBars _ hj.le
  confidences := fun _ hj => getElem?_firstBars _ hj.le
  scalars := rfl
  adaptive := by simp [firstBars]
  bases := by
    intro j hj
    unfold firstBars
    cases inp.settings.adaptiveBasePips with
    | none => rfl
    | some bases => exact getElem?_firstBars bases hj.le
  tape := by
    unfold firstBars
    cases inp.netted with
    | none => exact Option.Rel.none
    | some tape =>
      refine Option.Rel.some ⟨rfl, rfl, fun j hj => ⟨?_, ?_, ?_⟩⟩
      · exact getElem?_firstBars tape.slPips hj.le
      · exact getElem?_firstBars tape.tpPips hj.le
      · exact getElem?_firstBars tape.mlMultipliers hj.le

section Congruence

variable [FloatOps F] {k : Nat} {a b : EvalInput F}

theorem Agree.managePosition_eq (h : Agree k a b) (hf : SameFlags a b) {i : Nat} (hi : i ≤ k)
    {s : EvalState F} (hs : s.entryIdx ≤ i) (initialEquity high low close : F)
    (sessionClose : Bool) :
    b.managePosition initialEquity i s high low close sessionClose =
      a.managePosition initialEquity i s high low close sessionClose := by
  have hfloat : s.floatPosition b.settings b.pip high low =
      s.floatPosition a.settings a.pip high low := by
    rw [h.pip_eq, h.scalars]
    rfl
  have hexit : protectiveExit s.inPos s.entryPx s.posSlPips s.posTpPips s.trailPx high low close
        (i - s.entryIdx.toNat) b.pip b.settings =
      protectiveExit s.inPos s.entryPx s.posSlPips s.posTpPips s.trailPx high low close
        (i - s.entryIdx.toNat) a.pip a.settings := by
    rw [h.pip_eq, h.scalars]
    rfl
  have hentry : (s.floatPosition a.settings a.pip high low).entryIdx = s.entryIdx :=
    congrArg Prod.fst (s.kept_floatPosition a.settings a.pip high low)
  have hclose (trailPx exitPx : F) :
      b.closeTrade initialEquity i
          { s.floatPosition a.settings a.pip high low with trailPx := trailPx } exitPx =
        a.closeTrade initialEquity i
          { s.floatPosition a.settings a.pip high low with trailPx := trailPx } exitPx :=
    h.closeTrade_eq hf hi (by rw [hentry]; exact hs) initialEquity exitPx
  unfold managePosition
  rw [hfloat, hexit]
  dsimp only
  rw [hclose]
  simp only [hclose]

theorem Agree.step_eq (h : Agree k a b) (hf : SameFlags a b) {i : Nat} (hpos : 0 < i) (hi : i ≤ k)
    {s : EvalState F} (hs : s.entryIdx ≤ i) (initialEquity : F) (monthCapacity : Nat) :
    b.step initialEquity monthCapacity i s = a.step initialEquity monthCapacity i s := by
  have hkill : b.settings.killZonesEnabled = a.settings.killZonesEnabled := by rw [h.scalars]
  have htrack (t : EvalState F) (high low : F) : t.trackExcursion b.settings b.pip high low =
      t.trackExcursion a.settings a.pip high low := by
    rw [h.pip_eq, h.scalars]
    rfl
  have hentry (high low : F) :
      ((((s.rollMonth monthCapacity a.monthIdx[i]?).rollDay a.dayIdx[i]?).trackExcursion
        a.settings a.pip high low).entryIdx : Int) ≤ i := by
    have hrolled := (s.advance_rollMonth monthCapacity a.monthIdx[i]? i).trans
      (EvalState.advance_of_kept (EvalState.kept_rollDay _ a.dayIdx[i]?))
    rcases hrolled.entry with he | he
    · exact he.trans_le hs
    · exact he.le
  unfold step
  rw [h.timestampAt_eq hi, hf.useTimestamps, hkill, h.monthIdx i hi, h.dayIdx i hi, h.close i hi,
    h.high i hi, h.low i hi, h.gapExit_eq hf hi]
  simp only [h.tryEnter_eq hf hpos hi, htrack, h.closeTrade_eq hf hi (hentry _ _),
    h.managePosition_eq hf hi (hentry _ _)]

theorem Agree.runBars_eq (h : Agree k a b) (hf : SameFlags a b) (initialEquity : F)
    (monthCapacity : Nat) {i count : Nat} (hpos : 0 < i) (hi : i + count ≤ k + 1)
    {s : EvalState F} (hs : s.entryIdx ≤ i) :
    b.runBars initialEquity monthCapacity i count s =
      a.runBars initialEquity monthCapacity i count s := by
  induction count generalizing i s with
  | zero => rfl
  | succ count ih =>
    unfold runBars
    rw [h.step_eq hf hpos (by omega) hs]
    cases hstep : a.step initialEquity monthCapacity i s with
    | none => rfl
    | some out =>
      obtain ⟨next, event⟩ := out
      have hnext : next.entryIdx ≤ (i + 1 : Nat) := by
        rcases (step_advance hstep).entry with he | he <;> omega
      dsimp only
      rw [ih (by omega) (by omega) hnext]

end Congruence

section Runs

variable [FloatOps F] {initialEquity : F} {monthCapacity : Nat} {inp : EvalInput F}

theorem runBars_succ {i count : Nat} {s last : EvalState F} {events : List (Nat × BarEvent F)}
    (h : inp.runBars initialEquity monthCapacity i (count + 1) s = some (last, events)) :
    ∃ next event rest, inp.step initialEquity monthCapacity i s = some (next, event) ∧
      inp.runBars initialEquity monthCapacity (i + 1) count next = some (last, rest) ∧
      events = event.toList.map (i, ·) ++ rest := by
  unfold runBars at h
  cases hstep : inp.step initialEquity monthCapacity i s with
  | none => simp [hstep] at h
  | some out =>
    obtain ⟨next, event⟩ := out
    cases hrest : inp.runBars initialEquity monthCapacity (i + 1) count next with
    | none => simp [hstep, hrest] at h
    | some out =>
      obtain ⟨last', rest⟩ := out
      simp only [hstep, hrest, Option.some.injEq, Prod.mk.injEq] at h
      obtain ⟨rfl, rfl⟩ := h
      exact ⟨next, event, rest, rfl, hrest, rfl⟩

theorem runBars_add {m n i : Nat} {s last : EvalState F} {events : List (Nat × BarEvent F)}
    (h : inp.runBars initialEquity monthCapacity i (m + n) s = some (last, events)) :
    ∃ mid head tail, inp.runBars initialEquity monthCapacity i m s = some (mid, head) ∧
      inp.runBars initialEquity monthCapacity (i + m) n mid = some (last, tail) ∧
      events = head ++ tail := by
  induction m generalizing i s events with
  | zero =>
    rw [Nat.zero_add] at h
    exact ⟨s, [], events, rfl, h, rfl⟩
  | succ m ih =>
    rw [Nat.succ_add] at h
    obtain ⟨next, event, rest, hstep, hrest, rfl⟩ := runBars_succ h
    obtain ⟨mid, head, tail, hhead, htail, rfl⟩ := ih hrest
    refine ⟨mid, event.toList.map (i, ·) ++ head, tail, ?_, ?_, (List.append_assoc _ _ _).symm⟩
    · unfold runBars
      simp only [hstep, hhead]
    · rw [show i + (m + 1) = i + 1 + m by omega]
      exact htail

theorem runBars_bars {i count : Nat} {s last : EvalState F} {events : List (Nat × BarEvent F)}
    (h : inp.runBars initialEquity monthCapacity i count s = some (last, events)) :
    ∀ e ∈ events, i ≤ e.1 ∧ e.1 < i + count := by
  induction count generalizing i s events with
  | zero =>
    have hnil : ([] : List (Nat × BarEvent F)) = events := (Prod.mk.inj (Option.some.inj h)).2
    subst hnil
    simp
  | succ count ih =>
    obtain ⟨next, event, rest, -, hrest, rfl⟩ := runBars_succ h
    intro e he
    rcases List.mem_append.mp he with hnow | hlater
    · obtain ⟨x, -, rfl⟩ := List.mem_map.mp hnow
      dsimp only
      omega
    · have := ih hrest e hlater
      omega

theorem runBars_months {i count : Nat} {s last : EvalState F} {events : List (Nat × BarEvent F)}
    (h : inp.runBars initialEquity monthCapacity i count s = some (last, events)) :
    s.monthPtr ≤ last.monthPtr ∧ last.monthlyPnls.length = s.monthlyPnls.length ∧
      last.monthStartEquities.length = s.monthStartEquities.length := by
  induction count generalizing i s events with
  | zero =>
    have hlast : s = last := (Prod.mk.inj (Option.some.inj h)).1
    subst hlast
    exact ⟨le_refl _, rfl, rfl⟩
  | succ count ih =>
    obtain ⟨next, event, rest, hstep, hrest, rfl⟩ := runBars_succ h
    have hnow := step_advance hstep
    obtain ⟨hmonth, hpnls, hstarts⟩ := ih hrest
    exact ⟨hnow.month.trans hmonth, hpnls.trans hnow.pnls, hstarts.trans hnow.starts⟩

end Runs

end EvalInput

section Evaluation

variable [FloatOps F] {runtime : BacktestRuntime F}

omit [FloatOps F] in
theorem EvalState.completedMonths_isSome_iff {s : EvalState F} {monthCapacity : Nat}
    (hpnls : s.monthlyPnls.length = monthCapacity)
    (hstarts : s.monthStartEquities.length = monthCapacity) :
    (s.completedMonths monthCapacity).isSome = true ↔ s.monthPtr < 0 ∨ 0 < monthCapacity := by
  unfold completedMonths
  rw [hpnls, hstarts]
  by_cases hmonth : 0 ≤ s.monthPtr
  · rw [if_pos hmonth]
    dsimp only
    split
    next hlimit =>
      have hroom : s.monthPtr < 0 ∨ 0 < monthCapacity := by omega
      simp [hroom]
    next hlimit =>
      have hfull : ¬(s.monthPtr < 0 ∨ 0 < monthCapacity) := by omega
      simp [hfull]
  · rw [if_neg hmonth]
    have hroom : s.monthPtr < 0 ∨ 0 < monthCapacity := by omega
    simp [hroom]

theorem EvalState.rawMetrics_isSome_iff {s : EvalState F} {initialEquity : F} {monthCapacity : Nat}
    (hpnls : s.monthlyPnls.length = monthCapacity)
    (hstarts : s.monthStartEquities.length = monthCapacity) :
    (s.rawMetrics initialEquity monthCapacity).isSome = true ↔
      s.monthPtr < 0 ∨ 0 < monthCapacity := by
  have hkept : (if s.lastDay ≠ -1 then s.finalizeDailyDrawdownSegment else s).kept = s.kept := by
    split
    next => exact s.kept_finalize
    next => rfl
  unfold kept at hkept
  simp only [Prod.mk.injEq] at hkept
  obtain ⟨-, hptr, hp, hs⟩ := hkept
  unfold rawMetrics
  rw [Option.isSome_map, completedMonths_isSome_iff (hp.trans hpnls) (hs.trans hstarts), hptr]

theorem evaluate_inv {inp : EvalInput F} {r : EvalResult F} (hclose : inp.close ≠ [])
    (h : evaluateStrategyWithLedger runtime inp = some r) :
    validConversionFeeRate inp.settings.pnlConversionFeeRate = true ∧
      ∃ last, inp.runBars (inp.settings.initialEquity runtime) (inp.monthCapacity runtime) 1
          (inp.close.length - 1) (EvalState.start inp.settings
            (inp.settings.initialEquity runtime) (inp.monthCapacity runtime)) =
          some (last, r.events) ∧
        (last.rawMetrics (inp.settings.initialEquity runtime)
          (inp.monthCapacity runtime)).isSome = true := by
  unfold evaluateStrategyWithLedger at h
  rw [if_neg hclose] at h
  split at h
  next => cases h
  next hfee =>
    dsimp only at h
    split at h
    next => cases h
    next last events hrun =>
      obtain ⟨raw, hraw, rfl⟩ := Option.map_eq_some_iff.mp h
      exact ⟨by simpa using hfee, last, hrun, by simp [hraw]⟩

theorem evaluate_nil {inp : EvalInput F} (hclose : inp.close = []) :
    evaluateStrategyWithLedger runtime inp =
      if validConversionFeeRate inp.settings.pnlConversionFeeRate = false then none
      else some ⟨EvalMetrics.zero, [], none⟩ := by
  unfold evaluateStrategyWithLedger
  rw [if_pos hclose]

theorem events_nil {inp : EvalInput F} {r : EvalResult F} (hclose : inp.close = [])
    (h : evaluateStrategyWithLedger runtime inp = some r) : r.events = [] := by
  rw [evaluate_nil hclose] at h
  split at h
  next => cases h
  next =>
    obtain rfl := Option.some.inj h
    rfl

theorem evaluate_of_run {inp : EvalInput F} {last : EvalState F}
    {events : List (Nat × BarEvent F)} (hclose : inp.close ≠ [])
    (hfee : validConversionFeeRate inp.settings.pnlConversionFeeRate = true)
    (hrun : inp.runBars (inp.settings.initialEquity runtime) (inp.monthCapacity runtime) 1
      (inp.close.length - 1) (EvalState.start inp.settings
        (inp.settings.initialEquity runtime) (inp.monthCapacity runtime)) = some (last, events))
    (hraw : (last.rawMetrics (inp.settings.initialEquity runtime)
      (inp.monthCapacity runtime)).isSome = true) :
    ∃ r, evaluateStrategyWithLedger runtime inp = some r ∧ r.events = events := by
  obtain ⟨raw, hraw⟩ := Option.isSome_iff_exists.mp hraw
  unfold evaluateStrategyWithLedger
  rw [if_neg (by simp [hfee]), if_neg hclose]
  dsimp only
  rw [hrun]
  dsimp only
  rw [hraw]
  exact ⟨_, rfl, rfl⟩

namespace EvalInput

/-- The events up to bar `k` are those of the run over the bars up to `k`. -/
theorem events_up_to {inp : EvalInput F} {r : EvalResult F} (hclose : inp.close ≠ []) (k : Nat)
    (h : evaluateStrategyWithLedger runtime inp = some r) :
    ∃ mid, inp.runBars (inp.settings.initialEquity runtime) (inp.monthCapacity runtime) 1
        (min k (inp.close.length - 1)) (EvalState.start inp.settings
          (inp.settings.initialEquity runtime) (inp.monthCapacity runtime)) =
        some (mid, r.events.filter (·.1 ≤ k)) ∧
      (mid.rawMetrics (inp.settings.initialEquity runtime)
        (inp.monthCapacity runtime)).isSome = true := by
  obtain ⟨-, last, hrun, hraw⟩ := evaluate_inv hclose h
  have hlen : inp.close.length - 1 = min k (inp.close.length - 1) +
      (inp.close.length - 1 - min k (inp.close.length - 1)) := by omega
  rw [hlen] at hrun
  obtain ⟨mid, head, tail, hhead, htail, hevents⟩ := runBars_add hrun
  have hupTo : head.filter (·.1 ≤ k) = head := by
    rw [List.filter_eq_self]
    intro e he
    have hbar := runBars_bars hhead e he
    simp only [decide_eq_true_eq]
    omega
  have hpast : tail.filter (·.1 ≤ k) = [] := by
    rw [List.filter_eq_nil_iff]
    intro e he
    have hbar := runBars_bars htail e he
    simp only [decide_eq_true_eq]
    omega
  refine ⟨mid, ?_, ?_⟩
  · rw [hevents, List.filter_append, hupTo, hpast, List.append_nil]
    exact hhead
  · -- the months only grow, so the shorter run has room for its own
    obtain ⟨-, hpnls, hstarts⟩ := runBars_months hhead
    obtain ⟨hptr, hpnls', hstarts'⟩ := runBars_months htail
    have hroom (x : F) : (List.replicate (inp.monthCapacity runtime) x).length =
        inp.monthCapacity runtime := List.length_replicate
    have hp := hpnls.trans (hroom _)
    have hs := hstarts.trans (hroom _)
    rw [EvalState.rawMetrics_isSome_iff (hpnls'.trans hp) (hstarts'.trans hs)] at hraw
    rw [EvalState.rawMetrics_isSome_iff hp hs]
    omega

omit [FloatOps F] in
theorem Agree.initialEquity_eq {k : Nat} {a b : EvalInput F} (h : Agree k a b) :
    b.settings.initialEquity runtime = a.settings.initialEquity runtime := by
  rw [h.scalars]
  rfl

omit [FloatOps F] in
theorem Agree.monthCapacity_eq {k : Nat} {a b : EvalInput F} (h : Agree k a b) :
    b.monthCapacity runtime = a.monthCapacity runtime := by
  unfold monthCapacity
  rcases h.tape_cases with ⟨ha, hb⟩ | ⟨s, t, ha, hb, -, hcapacity, -⟩
  · rw [ha, hb]
  · rw [ha, hb]
    exact hcapacity

theorem Agree.start_eq {k : Nat} {a b : EvalInput F} (h : Agree k a b) (initialEquity : F)
    (monthCapacity : Nat) : EvalState.start b.settings initialEquity monthCapacity =
      EvalState.start a.settings initialEquity monthCapacity := by
  rw [h.scalars]
  rfl

/-- The run over the bars up to `k`, from the start. -/
theorem Agree.startRun_eq {k : Nat} {a b : EvalInput F} (h : Agree k a b) (ha : a.Aligned)
    (hb : b.Aligned) {m : Nat} (hm : m ≤ k) :
    b.runBars (b.settings.initialEquity runtime) (b.monthCapacity runtime) 1 m
        (EvalState.start b.settings (b.settings.initialEquity runtime) (b.monthCapacity runtime)) =
      a.runBars (a.settings.initialEquity runtime) (a.monthCapacity runtime) 1 m
        (EvalState.start a.settings (a.settings.initialEquity runtime)
          (a.monthCapacity runtime)) := by
  rw [h.initialEquity_eq, h.monthCapacity_eq, h.start_eq]
  by_cases hzero : m = 0
  · subst hzero
    rfl
  · have hflags : SameFlags a b := ⟨h.useTimestamps_eq ha hb, h.useRiskSizing_eq (by omega)⟩
    exact h.runBars_eq hflags _ _ Nat.one_pos (by omega) (show (-1 : Int) ≤ 1 by omega)

omit [FloatOps F] in
theorem Agree.lt_length_iff {k : Nat} {a b : EvalInput F} (h : Agree k a b) {i : Nat} (hi : i ≤ k) :
    i < b.close.length ↔ i < a.close.length := by
  have hnone : b.close.length ≤ i ↔ a.close.length ≤ i := by
    rw [← List.getElem?_eq_none_iff, h.close i hi, List.getElem?_eq_none_iff]
  omega

omit [FloatOps F] in
/-- Both inputs have the same number of bars up to `k`. -/
theorem Agree.bars_eq {k : Nat} {a b : EvalInput F} (h : Agree k a b) :
    min k (b.close.length - 1) = min k (a.close.length - 1) := by
  by_cases hlast : k < a.close.length
  · have hlast' := (h.lt_length_iff (le_refl k)).mpr hlast
    omega
  · have hle : b.close.length ≤ k := by
      have := h.lt_length_iff (le_refl k)
      omega
    have hb := h.lt_length_iff hle
    have ha := h.lt_length_iff (show a.close.length ≤ k by omega)
    omega

theorem Agree.events_eq {k : Nat} {a b : EvalInput F} (h : Agree k a b) (ha : a.Aligned)
    (hb : b.Aligned) {r r' : EvalResult F} (hr : evaluateStrategyWithLedger runtime a = some r)
    (hr' : evaluateStrategyWithLedger runtime b = some r') :
    r'.events.filter (·.1 ≤ k) = r.events.filter (·.1 ≤ k) := by
  have hempty := h.lt_length_iff (Nat.zero_le k)
  by_cases hnil : a.close = []
  · have hnil' : b.close = [] := by
      rw [hnil] at hempty
      simpa using hempty
    rw [events_nil hnil hr, events_nil hnil' hr']
  · have hnil' : b.close ≠ [] := by
      rw [← List.length_pos_iff, hempty, List.length_pos_iff]
      exact hnil
    obtain ⟨mid, hrun, -⟩ := events_up_to hnil k hr
    obtain ⟨mid', hrun', -⟩ := events_up_to hnil' k hr'
    rw [h.bars_eq, h.startRun_eq ha hb (Nat.min_le_left _ _), hrun] at hrun'
    exact (Prod.mk.inj (Option.some.inj hrun')).2.symm

theorem events_firstBars {inp : EvalInput F} (haligned : inp.Aligned) (k : Nat) {r : EvalResult F}
    (h : evaluateStrategyWithLedger runtime inp = some r) :
    ∃ r', evaluateStrategyWithLedger runtime (inp.firstBars (k + 1)) = some r' ∧
      r'.events = r.events.filter (·.1 ≤ k) := by
  have hagree := inp.agree_firstBars k
  by_cases hnil : inp.close = []
  · have hnil' : (inp.firstBars (k + 1)).close = [] := by simp [firstBars, hnil]
    have hr := h
    rw [evaluate_nil hnil] at hr
    refine ⟨r, ?_, ?_⟩
    · rw [evaluate_nil hnil']
      exact hr
    · rw [events_nil hnil h]
      rfl
  · have hnil' : (inp.firstBars (k + 1)).close ≠ [] := by simp [firstBars, hnil]
    have hlen : (inp.firstBars (k + 1)).close.length - 1 = min k (inp.close.length - 1) := by
      simp only [firstBars, List.length_take]
      omega
    obtain ⟨hfee, -⟩ := evaluate_inv hnil h
    obtain ⟨mid, hrun, hraw⟩ := events_up_to hnil k h
    rw [← hagree.startRun_eq haligned (aligned_firstBars haligned _) (Nat.min_le_left _ _),
      ← hlen] at hrun
    rw [← hagree.initialEquity_eq, ← hagree.monthCapacity_eq] at hraw
    exact evaluate_of_run hnil' hfee hrun hraw

end EvalInput

end Evaluation

theorem filterMap_up_to {α β : Type*} {f : Nat × α → Option (Nat × β)}
    (hf : ∀ e x, f e = some x → x.1 = e.1) (events : List (Nat × α)) (k : Nat) :
    (events.filterMap f).filter (·.1 ≤ k) = (events.filter (·.1 ≤ k)).filterMap f := by
  rw [List.filter_filterMap, List.filterMap_filter]
  refine congrArg (List.filterMap · events) (funext fun e => ?_)
  cases he : f e with
  | none => simp
  | some x => simp [Option.filter, hf e x he]

/-- The result without what happened after bar `k`. -/
def EvalResult.upTo (r : EvalResult F) (k : Nat) : EvalResult F :=
  { r with events := r.events.filter (·.1 ≤ k) }

theorem EvalResult.trades_upTo (r : EvalResult F) (k : Nat) :
    (r.upTo k).trades = r.trades.filter (·.1 ≤ k) := by
  unfold trades upTo
  rw [filterMap_up_to]
  intro e x hx
  obtain ⟨trade, -, rfl⟩ := Option.map_eq_some_iff.mp hx
  rfl

theorem EvalResult.entries_upTo (r : EvalResult F) (k : Nat) :
    (r.upTo k).entries = r.entries.filter (·.1 ≤ k) := by
  unfold entries upTo
  rw [filterMap_up_to]
  intro e x hx
  obtain ⟨bar, event⟩ := e
  cases event with
  | opened fill =>
    obtain rfl := Option.some.inj hx
    rfl
  | closed trade => cases hx

theorem EvalResult.trades_entries_of_events {r r' : EvalResult F} (h : r'.events = r.events) :
    r'.trades = r.trades ∧ r'.entries = r.entries := by
  unfold trades entries
  rw [h]
  exact ⟨rfl, rfl⟩

theorem evaluator_prefix_causal [FloatOps F] (runtime : BacktestRuntime F) (inp : EvalInput F)
    (haligned : inp.Aligned) (k : Nat) :
    (∀ r, evaluateStrategyWithLedger runtime inp = some r →
      ∃ r', evaluateStrategyWithLedger runtime (inp.firstBars (k + 1)) = some r' ∧
        r'.trades = r.trades.filter (·.1 ≤ k) ∧ r'.entries = r.entries.filter (·.1 ≤ k)) ∧
    ∀ other : EvalInput F, other.Aligned → EvalInput.Agree k inp other →
      ∀ r r', evaluateStrategyWithLedger runtime inp = some r →
        evaluateStrategyWithLedger runtime other = some r' →
        r'.trades.filter (·.1 ≤ k) = r.trades.filter (·.1 ≤ k) ∧
          r'.entries.filter (·.1 ≤ k) = r.entries.filter (·.1 ≤ k) := by
  refine ⟨fun r hr => ?_, fun other hother hagree r r' hr hr' => ?_⟩
  · obtain ⟨r', hr', hevents⟩ := EvalInput.events_firstBars haligned k hr
    rw [← r.trades_upTo, ← r.entries_upTo]
    exact ⟨r', hr', EvalResult.trades_entries_of_events hevents⟩
  · have hevents := hagree.events_eq haligned hother hr hr'
    rw [← r.trades_upTo, ← r.entries_upTo, ← r'.trades_upTo, ← r'.entries_upTo]
    exact EvalResult.trades_entries_of_events hevents

def sampleSettings : BacktestSettings ℚ where
  initialEquityOverride := some 1000
  slPips := 10
  tpPips := 20
  maxHoldBars := 0
  maxTradesPerDay := 0
  gapThresholdMs := 0
  trailingEnabled := false
  trailingAtrMultiplier := 1
  trailingBeTriggerR := 1
  trailingMinLockPips := 0
  pipValue := 1
  spreadPips := 0
  commissionPerTrade := 0
  pipValuePerLot := 1
  killZonesEnabled := false
  sessionSpreadProfile := none
  swapLongPipsPerDay := 0
  swapShortPipsPerDay := 0
  pnlConversionFeeRate := 0
  riskBasedSizing := false
  riskPerTradeMin := 0
  riskPerTradeMax := 0
  highQualityConfidence := 0
  adaptiveBasePips := none
  adaptiveVolMult := 1
  adaptiveRr := 2

/-- Two trades: the first closed at its target on bar 2, the second at its stop on bar 4. -/
def sampleBars : EvalInput ℚ where
  close := [100, 100, 130, 100, 80]
  high := [101, 101, 131, 101, 99]
  low := [99, 99, 100, 99, 79]
  signals := [1, 0, 1, 0, 0]
  confidences := []
  monthIdx := [0, 0, 0, 0, 0]
  dayIdx := [0, 0, 0, 0, 0]
  timestamps := [1000, 2000, 3000, 4000, 5000]
  settings := sampleSettings
  netted := none

theorem sampleBars_prefix_causal :
    (evaluateStrategyWithLedger ⟨1000, 12⟩ sampleBars).map (fun r =>
        (r.trades.map (·.1), r.entries.map (·.1))) = some ([2, 4], [1, 3]) ∧
      sampleBars.Aligned ∧
      ∀ r, evaluateStrategyWithLedger ⟨1000, 12⟩ sampleBars = some r →
        ∃ r', evaluateStrategyWithLedger ⟨1000, 12⟩ (sampleBars.firstBars 4) = some r' ∧
          r'.trades = r.trades.filter (·.1 ≤ 3) ∧ r'.entries = r.entries.filter (·.1 ≤ 3) :=
  ⟨by decide +kernel, Or.inr rfl,
    (evaluator_prefix_causal ⟨1000, 12⟩ sampleBars (Or.inr rfl) 3).1⟩

end Neoethos
