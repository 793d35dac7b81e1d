import Neoethos.EvaluatorWatch

namespace Neoethos

open Drawdown (Mark Watch Segment maxDrop settled)

structure EquityDay where
  key : Int
  start : ℚ
  marks : List (Mark ℚ)

namespace EquityDay

def add : List EquityDay → EquityBar → List EquityDay
  | [], bar => [⟨bar.day, bar.equity, bar.marks⟩]
  | day :: days, bar =>
    if bar.day = day.key then { day with marks := day.marks ++ bar.marks } :: days
    else ⟨bar.day, bar.equity, bar.marks⟩ :: day :: days

/-- The largest drop of the day. Of a day with the key `-1`, which marks that there is none yet,
only what lies in front of its last new peak counts. -/
def drop (day : EquityDay) : ℚ :=
  maxDrop day.start (if day.key = -1 then settled day.start day.marks else day.marks)

def worst (days : List EquityDay) : ℚ := (days.map drop).foldr max 0

end EquityDay

def equityDays (bars : List EquityBar) : List EquityDay := bars.foldl EquityDay.add []

section Runs

variable {inp : EvalInput ℚ} {initialEquity : ℚ} {monthCapacity i : Nat} {s next : EvalState ℚ}
  {event : Option (BarEvent ℚ)} {bars : List EquityBar}

def EquityBar.Positive (bar : EquityBar) : Prop :=
  0 < bar.equity ∧ ∀ mark ∈ bar.marks, 0 < mark.value

/-- A bar with a position has a high and a low, or the step fails. -/
theorem step_prices (held : s.inPos ≠ 0)
    (h : inp.step initialEquity monthCapacity i s = some (next, event)) :
    ∃ hi lo, inp.high[i]? = some hi ∧ inp.low[i]? = some lo := by
  unfold EvalInput.step at h
  dsimp only at h
  split at h
  next => cases h
  next =>
    split at h
    next hfree => exact absurd hfree held
    next =>
      split at h
      next hi lo hhigh hlow => exact ⟨hi, lo, hhigh, hlow⟩
      next => cases h

/-- The realized equity changes only at an exit, which is a mark. -/
theorem step_equity (h : inp.step initialEquity monthCapacity i s = some (next, event)) :
    next.equity = s.equity ∨ Mark.peak next.equity ∈ inp.barMarks i s next := by
  have hbooks := EvalInput.step_books h
  have hside := EvalState.roll_inPos s.books monthCapacity inp.monthIdx[i]? inp.dayIdx[i]?
  have hkept : (s.books.roll monthCapacity inp.monthIdx[i]? inp.dayIdx[i]?).equity = s.equity := by
    unfold EvalBooks.roll EvalBooks.rollMonth EvalBooks.rollDay
    split_ifs <;> rfl
  have hequity : next.books.equity = next.equity := rfl
  have hflat : next.books.inPos = next.inPos := rfl
  generalize next.books = books at hbooks hequity hflat
  cases hbooks with
  | idle => exact .inl (hequity.symm.trans hkept)
  | opened => exact .inl (hequity.symm.trans hkept)
  | closed trade held =>
    right
    rw [hside] at held
    obtain ⟨hi, lo, hhigh, hlow⟩ := step_prices held h
    have hheld : ¬s.inPos = 0 := held
    have hzero : next.inPos = 0 := hflat.symm
    unfold EvalInput.barMarks
    rw [hhigh, hlow]
    simp only [if_neg hheld, if_pos hzero]
    apply List.mem_append_right
    exact List.mem_cons_self

theorem step_lastDay (h : inp.step initialEquity monthCapacity i s = some (next, event)) :
    next.lastDay = inp.dayIdx[i]?.getD s.lastDay := by
  have hbooks := EvalInput.step_books h
  have hroll := (roll_day s.books monthCapacity inp.monthIdx[i]? inp.dayIdx[i]?).1
  have hlast : next.books.lastDay = next.lastDay := rfl
  rw [← hlast]
  generalize next.books = books at hbooks
  cases hbooks with
  | idle => exact hroll
  | opened => exact hroll
  | closed => exact hroll

def equityMarks (bars : List EquityBar) : List (Mark ℚ) := bars.flatMap EquityBar.marks

/-- The day that the evaluator is in: the stretch of its marks, behind the worst day so far. -/
def DayHolds (initialEquity : ℚ) (s : EvalState ℚ) : List EquityDay → Prop
  | [] => s.lastDay = -1 ∧ s.equity = initialEquity ∧
      s.watch.stretch = Segment.start initialEquity 0
  | day :: days => s.lastDay = day.key ∧ 0 < day.start ∧
      s.watch.stretch =
        day.marks.foldl Segment.mark (Segment.start day.start (EquityDay.worst days))

structure Watched (inp : EvalInput ℚ) (initialEquity : ℚ) (i : Nat) (s : EvalState ℚ)
    (bars : List EquityBar) : Prop where
  key : s.lastDay = calendarKey inp.dayIdx (i - 1)
  started : 0 < i
  initial : 0 < initialEquity
  peak : s.watch.peak = Drawdown.peakOf initialEquity (equityMarks bars)
  worst : s.watch.worst = maxDrop initialEquity (equityMarks bars)
  equity : s.equity ≤ s.watch.peak
  within : s.watch.Within
  day : DayHolds initialEquity s (equityDays bars)

theorem EquityDay.worst_nonneg (days : List EquityDay) : 0 ≤ EquityDay.worst days := by
  induction days with
  | nil => exact le_refl 0
  | cons day days ih => exact ih.trans (le_max_right _ _)

/-- What the evaluator would report now is the worst of the days. -/
theorem DayHolds.closed {days : List EquityDay} (h : DayHolds initialEquity s days) :
    (if s.lastDay = -1 then s.watch.stretch.done else s.watch.stretch.total) =
      EquityDay.worst days := by
  cases days with
  | nil =>
    obtain ⟨hkey, -, hstretch⟩ := h
    rw [hkey, if_pos rfl, hstretch]
    rfl
  | cons day past =>
    obtain ⟨hkey, hstart, hstretch⟩ := h
    obtain ⟨htotal, hdone⟩ := Segment.foldl_start hstart (EquityDay.worst_nonneg past) day.marks
    rw [hkey, hstretch, htotal, hdone]
    change _ = max day.drop (EquityDay.worst past)
    rw [max_comm day.drop, EquityDay.drop]
    by_cases hmark : day.key = -1
    · rw [if_pos hmark, if_pos hmark]
    · rw [if_neg hmark, if_neg hmark]

/-- The day of a bar behind the calendar, before its marks. -/
theorem DayHolds.roll {days : List EquityDay} (h : DayHolds initialEquity s days)
    (bar : EquityBar) (hequity : bar.equity = s.equity)
    (hpositive : 0 < bar.equity) :
    ∃ day past, EquityDay.add days bar = day :: past ∧ day.key = bar.day ∧ 0 < day.start ∧
      ∃ front, day.marks = front ++ bar.marks ∧
      front.foldl Segment.mark (Segment.start day.start (EquityDay.worst past)) =
        if bar.day = s.lastDay then s.watch.stretch
        else Segment.start s.equity
          (if s.lastDay = -1 then s.watch.stretch.done else s.watch.stretch.total) := by
  have hclosed := h.closed
  cases days with
  | nil =>
    obtain ⟨hkey, hstart, hstretch⟩ := h
    refine ⟨⟨bar.day, bar.equity, bar.marks⟩, [], rfl, rfl, hpositive, [], rfl, ?_⟩
    rw [hclosed, hstretch, ← hstart, ← hequity]
    split <;> rfl
  | cons day past =>
    obtain ⟨hkey, hstart, hstretch⟩ := h
    by_cases hsame : bar.day = day.key
    · refine ⟨{ day with marks := day.marks ++ bar.marks }, past, if_pos hsame, hsame.symm,
        hstart, day.marks, rfl, ?_⟩
      rw [if_pos (hsame.trans hkey.symm), hstretch]
    · refine ⟨⟨bar.day, bar.equity, bar.marks⟩, day :: past, if_neg hsame, rfl, hpositive, [],
        rfl, ?_⟩
      have hnew : ¬bar.day = s.lastDay := fun heq => hsame (heq.trans hkey)
      rw [if_neg hnew, hclosed, hequity]
      rfl

theorem Watched.step (h : Watched inp initialEquity i s bars)
    (hpositive : (inp.equityBar i s next).Positive)
    (hstep : inp.step initialEquity monthCapacity i s = some (next, event)) :
    Watched inp initialEquity (i + 1) next (bars ++ [inp.equityBar i s next]) := by
  have hkey : inp.dayIdx[i]?.getD s.lastDay = calendarKey inp.dayIdx i := by
    obtain ⟨before, rfl⟩ : ∃ before, i = before + 1 := ⟨i - 1, by have := h.started; omega⟩
    rw [h.key, Nat.add_sub_cancel]
    rfl
  -- The calendar: the day of the bar is open, and its marks come next.
  obtain ⟨day, past, hadd, hday, hstart, front, hmarks, hfront⟩ :=
    h.day.roll (inp.equityBar i s next) rfl hpositive.1
  have hrolled : ((s.rollMonth monthCapacity inp.monthIdx[i]?).rollDay inp.dayIdx[i]?).watch =
      { s.watch with
        stretch := front.foldl Segment.mark (Segment.start day.start (EquityDay.worst past)) } := by
    rw [watch_roll h.within.valid, hkey, hfront]
    change _ = Watch.mk _ _ (if calendarKey inp.dayIdx i = s.lastDay then _ else _)
    split <;> rfl
  have hrolledWithin : ((s.rollMonth monthCapacity inp.monthIdx[i]?).rollDay
      inp.dayIdx[i]?).watch.Within := by
    have htop : 0 < s.equity := hpositive.1
    have hnonneg : 0 ≤ s.watch.stretch.total := h.within.valid.done.trans (le_max_left _ _)
    have hdone : s.watch.stretch.done ≤ s.watch.stretch.total := le_max_left _ _
    rw [hrolled, hfront]
    split
    next => exact h.within
    next =>
      generalize hold : (if s.lastDay = -1 then s.watch.stretch.done
        else s.watch.stretch.total) = old
      have hbounds : 0 ≤ old ∧ old ≤ s.watch.worst := by
        rw [← hold]
        split
        next => exact ⟨h.within.valid.done, hdone.trans h.within.total⟩
        next => exact ⟨hnonneg, h.within.total⟩
      refine ⟨⟨htop, le_refl _, hbounds.1⟩, h.equity, ?_⟩
      change max old (Drawdown.drop s.equity s.equity) ≤ s.watch.worst
      rw [Drawdown.drop_self]
      exact max_le hbounds.2 (hbounds.1.trans hbounds.2)
  have hrolledPositive : ((s.rollMonth monthCapacity inp.monthIdx[i]?).rollDay
      inp.dayIdx[i]?).watch.Positive := by
    refine ⟨?_, hrolledWithin.valid⟩
    rw [hrolled]
    change 0 < s.watch.peak
    rw [h.peak]
    exact h.initial.trans_le (Drawdown.le_peakOf _ _).1
  have hwatch := EvalInput.step_watch hrolledPositive hstep
  rw [hrolled] at hrolledWithin hwatch
  have hmore : equityMarks (bars ++ [inp.equityBar i s next]) =
      equityMarks bars ++ inp.barMarks i s next := by
    unfold equityMarks
    rw [List.flatMap_append, List.flatMap_singleton]
    rfl
  have hseen := Watch.foldl { s.watch with
    stretch := front.foldl Segment.mark (Segment.start day.start (EquityDay.worst past)) }
    (inp.barMarks i s next)
  rw [← hwatch] at hseen
  have hpeak : next.watch.peak =
      Drawdown.peakOf initialEquity (equityMarks (bars ++ [inp.equityBar i s next])) := by
    rw [hseen.1, hmore, Drawdown.peakOf_append, ← h.peak]
  refine ⟨?_, Nat.succ_pos i, h.initial, hpeak, ?_, ?_, ?_, ?_⟩
  · rw [Nat.add_sub_cancel, ← hkey]
    exact step_lastDay hstep
  · have hworst : 0 ≤ s.watch.worst := by
      rw [h.worst]
      exact Drawdown.maxDrop_nonneg _ _
    rw [hwatch, Watch.worst_foldl (by exact hworst), hmore, Drawdown.maxDrop_append, ← h.worst,
      ← h.peak]
  · have hold : s.watch.peak ≤ next.watch.peak := by
      rw [hseen.1]
      exact (Drawdown.le_peakOf _ _).1
    rcases step_equity hstep with hsame | hexit
    · rw [hsame]
      exact h.equity.trans hold
    · rw [hseen.1]
      exact (Drawdown.le_peakOf _ _).2 next.equity hexit
  · rw [hwatch]
    exact hrolledWithin.foldl hpositive.2
  · rw [equityDays, List.foldl_append]
    change DayHolds initialEquity next (EquityDay.add (equityDays bars) (inp.equityBar i s next))
    rw [hadd]
    refine ⟨?_, hstart, ?_⟩
    · rw [hday, step_lastDay hstep]
      exact hkey
    · rw [hseen.2, hmarks, List.foldl_append]
      rfl

theorem Watched.run {count : Nat} {last : EvalState ℚ} {events : List (Nat × BarEvent ℚ)}
    (h : Watched inp initialEquity i s bars)
    (hpositive : ∀ bar ∈ inp.equityBars initialEquity monthCapacity i count s, bar.Positive)
    (hrun : inp.runBars initialEquity monthCapacity i count s = some (last, events)) :
    Watched inp initialEquity (i + count) last
      (bars ++ inp.equityBars initialEquity monthCapacity i count s) := by
  induction count generalizing i s bars events with
  | zero =>
    obtain ⟨rfl, -⟩ := Prod.mk.inj (Option.some.inj hrun)
    rw [EvalInput.equityBars, List.append_nil]
    exact h
  | succ count ih =>
    unfold EvalInput.runBars at hrun
    unfold EvalInput.equityBars at hpositive ⊢
    split at hrun
    next => cases hrun
    next next event hstep =>
      rw [hstep] at hpositive ⊢
      split at hrun
      next => cases hrun
      next final later hlater =>
        obtain ⟨rfl, -⟩ := Prod.mk.inj (Option.some.inj hrun)
        have hnow := h.step (hpositive _ List.mem_cons_self) hstep
        have hrest := ih hnow (fun bar hbar => hpositive bar (List.mem_cons_of_mem _ hbar)) hlater
        have hcount : i + 1 + count = i + (count + 1) := by omega
        rw [hcount, List.append_assoc] at hrest
        exact hrest

end Runs

def EvalInput.equityPath (runtime : BacktestRuntime ℚ) (inp : EvalInput ℚ) : List EquityBar :=
  inp.equityBars (inp.settings.initialEquity runtime) (inp.monthCapacity runtime) 1
    (inp.close.length - 1)
    (EvalState.start inp.settings (inp.settings.initialEquity runtime) (inp.monthCapacity runtime))

/-- Behind a positive equity path, the drawdown is the largest drop from the running maximum, the
daily drawdown is that of the worst day, and no day is worse than the whole path. -/
theorem evaluator_drawdowns (runtime : BacktestRuntime ℚ) (inp : EvalInput ℚ) (r : EvalResult ℚ)
    (h : evaluateStrategyWithLedger runtime inp = some r)
    (hinitial : 0 < inp.settings.initialEquity runtime)
    (hpositive : ∀ bar ∈ inp.equityPath runtime, bar.Positive) :
    IsGreatest (insert 0 {d | ∃ front x back,
        equityMarks (inp.equityPath runtime) = front ++ Mark.trough x :: back ∧
          Drawdown.drop (Drawdown.peakOf (inp.settings.initialEquity runtime) front) x = d})
      r.metrics.maxDd ∧
    r.metrics.maxDailyDd = EquityDay.worst (equityDays (inp.equityPath runtime)) ∧
    r.metrics.maxDailyDd ≤ r.metrics.maxDd := by
  obtain ⟨last, hrun, -, -, hdd, hdaily⟩ := evaluate_metrics h
  have hstart : Watched inp (inp.settings.initialEquity runtime) 1
      (EvalState.start inp.settings (inp.settings.initialEquity runtime)
        (inp.monthCapacity runtime)) [] := by
    have hstretch : (EvalState.start inp.settings (inp.settings.initialEquity runtime)
        (inp.monthCapacity runtime)).watch.stretch =
        Segment.start (inp.settings.initialEquity runtime) 0 :=
      congrArg (Segment.mk _ · _) (min_self _)
    refine ⟨rfl, Nat.one_pos, hinitial, rfl, rfl, le_refl _, ⟨?_, ?_, ?_⟩, rfl, rfl, hstretch⟩
    · rw [hstretch]
      exact ⟨hinitial, le_refl _, le_refl 0⟩
    · exact le_refl _
    · rw [hstretch, Segment.total]
      change max 0 (Drawdown.drop (inp.settings.initialEquity runtime) _) ≤ (0 : ℚ)
      rw [Segment.start, Drawdown.drop_self, max_self]
  have hlast := hstart.run hpositive hrun
  rw [List.nil_append] at hlast
  change Watched inp _ _ last (inp.equityPath runtime) at hlast
  have hworst : last.maxDd = maxDrop _ (equityMarks (inp.equityPath runtime)) := hlast.worst
  rw [hdd, hworst]
  refine ⟨Drawdown.isGreatest_maxDrop _ _, ?_, ?_⟩
  · rw [hdaily]
    rw [← hlast.day.closed, finalize_eq hlast.within.valid]
    split <;> rfl
  · rw [hdaily, ← hworst]
    have htotal := hlast.within.total
    have hdone : last.maxDailyDd ≤ last.watch.stretch.total := le_max_left _ _
    rw [finalize_eq hlast.within.valid]
    split
    next => exact hdone.trans htotal
    next => exact htotal

theorem sampleBars_drawdowns :
    ∃ r, evaluateStrategyWithLedger ⟨1000, 12⟩ sampleBars = some r ∧
      r.metrics.maxDailyDd = EquityDay.worst (equityDays (sampleBars.equityPath ⟨1000, 12⟩)) ∧
      r.metrics.maxDailyDd ≤ r.metrics.maxDd := by
  have hfinished : (evaluateStrategyWithLedger ⟨1000, 12⟩ sampleBars).isSome = true := by
    decide +kernel
  have hpositive : ∀ bar ∈ sampleBars.equityPath ⟨1000, 12⟩, bar.Positive := by
    unfold EquityBar.Positive
    decide +kernel
  obtain ⟨r, hr⟩ := Option.isSome_iff_exists.mp hfinished
  obtain ⟨-, hdaily, hle⟩ :=
    evaluator_drawdowns ⟨1000, 12⟩ sampleBars r hr (by decide +kernel) hpositive
  exact ⟨r, hr, hdaily, hle⟩

/-- Every value of a path, with the realized equity at the start of each day. -/
def observations : Option Int → List EquityBar → List ℚ
  | _, [] => []
  | day, bar :: bars =>
    (if day = some bar.day then [] else [bar.equity]) ++ bar.marks.map Mark.value ++
      observations (some bar.day) bars

/-- The largest drop of a path that may peak and drop at each of its values. -/
def largestDrop (top : ℚ) (values : List ℚ) : ℚ :=
  maxDrop top (values.flatMap fun x => [.peak x, .trough x])

def sampleCarried : EvalInput ℚ :=
  { sampleBars with
    close := [100, 100, 112, 115]
    high := [101, 101, 115, 118]
    low := [99, 99, 110, 112]
    signals := [1, 0, 0, 0]
    dayIdx := [0, 0, 0, 1]
    monthIdx := [0, 0, 0, 0]
    timestamps := [1000, 2000, 3000, 4000] }

/-- The realized equity at the start of the second day is no drop for the evaluator. -/
theorem sampleCarried_unobserved :
    ∃ r, evaluateStrategyWithLedger ⟨1000, 12⟩ sampleCarried = some r ∧
      (∀ bar ∈ sampleCarried.equityPath ⟨1000, 12⟩, bar.Positive) ∧
      r.metrics.maxDd < largestDrop 1000 (observations none (sampleCarried.equityPath ⟨1000, 12⟩))
      := by
  have hdd : (evaluateStrategyWithLedger ⟨1000, 12⟩ sampleCarried).map (fun r =>
      r.metrics.maxDd) = some (6 / 1018) := by
    decide +kernel
  obtain ⟨r, hr, hmax⟩ := Option.map_eq_some_iff.mp hdd
  have hpath : largestDrop 1000 (observations none (sampleCarried.equityPath ⟨1000, 12⟩)) =
      15 / 1015 := by
    decide +kernel
  refine ⟨r, hr, ?_, ?_⟩
  · unfold EquityBar.Positive
    decide +kernel
  · rw [hmax, hpath]
    norm_num

end Neoethos
