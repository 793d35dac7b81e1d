import Neoethos.Drawdown
import Neoethos.EvaluatorAccounts

namespace Neoethos

open FloatOps (lit lt le)
open Drawdown (Mark Watch Segment)

/-- What one bar shows of the equity: the realized equity it starts with, and its marks. -/
structure EquityBar where
  day : Int
  equity : ℚ
  marks : List (Mark ℚ)

namespace EvalState

/-- The result of the open position at its best price of a bar. -/
def bestFloat (s : EvalState ℚ) (settings : BacktestSettings ℚ) (pip hi lo : ℚ) : ℚ :=
  s.posLots * (if s.inPos = 1 then (hi - s.entryPx) / pip * settings.pipValuePerLot
    else (s.entryPx - lo) / pip * settings.pipValuePerLot)

def worstFloat (s : EvalState ℚ) (settings : BacktestSettings ℚ) (pip hi lo : ℚ) : ℚ :=
  s.posLots * (if s.inPos = 1 then (lo - s.entryPx) / pip * settings.pipValuePerLot
    else (s.entryPx - hi) / pip * settings.pipValuePerLot)

/-- A possible peak of the equity and of the day, and then a low: how the loop takes in the best and
the worst float of a bar, and the equity behind an exit. -/
def observe (s : EvalState ℚ) (high low : ℚ) : EvalState ℚ :=
  let peaked := if lt s.peakEquity high then { s with peakEquity := high } else s
  let daily :=
    if lt peaked.dayPeak high then
      { peaked.finalizeDailyDrawdownSegment with dayPeak := high, dayLow := low }
    else if lt low peaked.dayLow then { peaked with dayLow := low }
    else peaked
  daily.noteDrawdown low

def watch (s : EvalState ℚ) : Watch ℚ :=
  ⟨s.peakEquity, s.maxDd, ⟨s.dayPeak, min s.dayPeak s.dayLow, s.maxDailyDd⟩⟩

end EvalState

namespace EvalInput

/-- The equity that the evaluator observes on a bar, between the states before and behind it: the
best and the worst float of a position, unless the bar ends it at a gap, and its exit. -/
def barMarks (inp : EvalInput ℚ) (i : Nat) (s next : EvalState ℚ) : List (Mark ℚ) :=
  match inp.high[i]?, inp.low[i]? with
  | some hi, some lo =>
    if s.inPos = 0 then []
    else
      (if inp.gapExit i then []
        else [.peak (s.equity + s.bestFloat inp.settings inp.pip hi lo),
          .trough (s.equity + s.worstFloat inp.settings inp.pip hi lo)]) ++
      if next.inPos = 0 then [.peak next.equity, .trough next.equity] else []
  | _, _ => []

def equityBar (inp : EvalInput ℚ) (i : Nat) (s next : EvalState ℚ) : EquityBar :=
  ⟨calendarKey inp.dayIdx i, s.equity, inp.barMarks i s next⟩

/-- The bars of a run from bar `i` on. -/
def equityBars (initialEquity : ℚ) (monthCapacity : Nat) (inp : EvalInput ℚ) :
    Nat → Nat → EvalState ℚ → List EquityBar
  | _, 0, _ => []
  | i, count + 1, s =>
    match inp.step initialEquity monthCapacity i s with
    | none => []
    | some (next, _) =>
      inp.equityBar i s next :: equityBars initialEquity monthCapacity inp (i + 1) count next

end EvalInput

section Watched

variable {s : EvalState ℚ}

/-- The peak of the day is positive, so that its drop is measured. -/
theorem finalize_eq (h : s.watch.stretch.Valid) :
    s.finalizeDailyDrawdownSegment = { s with maxDailyDd := s.watch.stretch.total } := by
  have hpeak : 0 < s.dayPeak := h.positive
  have hdone : 0 ≤ s.maxDailyDd := h.done
  have htotal : s.watch.stretch.total =
      max s.maxDailyDd ((s.dayPeak - s.dayLow) / s.dayPeak) := by
    change max s.maxDailyDd (Drawdown.drop s.dayPeak (min s.dayPeak s.dayLow)) = _
    rw [Drawdown.drop_min hpeak, Drawdown.drop_self, ← max_assoc, max_eq_left hdone]
    rfl
  rw [htotal]
  unfold EvalState.finalizeDailyDrawdownSegment
  have hpositive : lt (lit 0) s.dayPeak = true := by simpa using hpeak
  rw [if_pos hpositive]
  by_cases hlarger : s.maxDailyDd < (s.dayPeak - s.dayLow) / s.dayPeak
  · simp [hlarger, max_eq_right hlarger.le]
  · simp [hlarger, max_eq_left (not_lt.mp hlarger)]

theorem watch_markDay (h : s.watch.stretch.Valid) (high low : ℚ) :
    (if lt s.dayPeak high = true then
        { s.finalizeDailyDrawdownSegment with dayPeak := high, dayLow := low }
      else if lt low s.dayLow = true then { s with dayLow := low } else s).watch =
      { s.watch with
        stretch := (s.watch.stretch.mark (.peak high)).mark (.trough low) } := by
  rw [finalize_eq h]
  by_cases hnew : s.dayPeak < high
  · have hpeak : s.watch.stretch.peak < high := hnew
    simp only [lt_rat, hnew, hpeak, decide_true, if_true, Segment.mark]
    rfl
  · have hpeak : ¬s.watch.stretch.peak < high := hnew
    simp only [lt_rat, hnew, hpeak, decide_false, Bool.false_eq_true, if_false, Segment.mark]
    by_cases hlow : low < s.dayLow
    · have hmin : min (min s.dayPeak s.dayLow) low = min s.dayPeak low := by
        rw [min_assoc, min_eq_right hlow.le]
      simp only [hlow, decide_true, if_true, EvalState.watch, hmin]
    · have hmin : min (min s.dayPeak s.dayLow) low = min s.dayPeak s.dayLow := by
        rw [min_assoc, min_eq_left (not_lt.mp hlow)]
      simp only [hlow, decide_false, Bool.false_eq_true, if_false, EvalState.watch, hmin]

theorem watch_noteDrawdown (hpeak : 0 < s.peakEquity) (equity : ℚ) :
    (s.noteDrawdown equity).watch =
      { s.watch with worst := max s.watch.worst (Drawdown.drop s.watch.peak equity) } := by
  unfold EvalState.noteDrawdown
  have hpositive : lt (lit 0) s.peakEquity = true := by simpa using hpeak
  simp only [hpositive, if_true]
  by_cases hlarger : s.maxDd < (s.peakEquity - equity) / s.peakEquity
  · have hmax : max s.maxDd ((s.peakEquity - equity) / s.peakEquity) =
        (s.peakEquity - equity) / s.peakEquity := max_eq_right hlarger.le
    simp only [lt_rat, hlarger, decide_true, if_true, EvalState.watch, Drawdown.drop, hmax]
  · have hmax : max s.maxDd ((s.peakEquity - equity) / s.peakEquity) = s.maxDd :=
      max_eq_left (not_lt.mp hlarger)
    simp only [lt_rat, hlarger, decide_false, Bool.false_eq_true, if_false, EvalState.watch,
      Drawdown.drop, hmax]

theorem watch_observe (h : s.watch.Positive) (high low : ℚ) :
    (s.observe high low).watch = [Mark.peak high, Mark.trough low].foldl Watch.mark s.watch := by
  have hequity : 0 < s.peakEquity := h.peak
  have hpeaked : (if lt s.peakEquity high = true then { s with peakEquity := high } else s) =
      { s with peakEquity := max s.peakEquity high } := by
    by_cases hnew : s.peakEquity < high
    · simp only [lt_rat, hnew, decide_true, if_true, max_eq_right hnew.le]
    · simp only [lt_rat, hnew, decide_false, Bool.false_eq_true, if_false,
        max_eq_left (not_lt.mp hnew)]
  unfold EvalState.observe
  rw [hpeaked]
  have hvalid : { s with peakEquity := max s.peakEquity high }.watch.stretch.Valid := h.stretch
  have hday := watch_markDay hvalid high low
  dsimp only at hday ⊢
  generalize (if lt s.dayPeak high = true then _ else _ : EvalState ℚ) = daily at hday ⊢
  have htop : daily.peakEquity = max s.peakEquity high := congrArg Watch.peak hday
  have hpositive : 0 < daily.peakEquity := by
    rw [htop]
    exact hequity.trans_le (le_max_left _ _)
  rw [watch_noteDrawdown hpositive, hday]
  rfl

theorem floatPosition_eq (settings : BacktestSettings ℚ) (pip hi lo : ℚ) :
    s.floatPosition settings pip hi lo =
      s.observe (s.equity + s.bestFloat settings pip hi lo)
        (s.equity + s.worstFloat settings pip hi lo) := rfl

theorem watch_bookTrade (h : s.watch.Positive) (pnl : ℚ) :
    (EvalInput.bookTrade s pnl).watch =
      [Mark.peak (s.equity + pnl), Mark.trough (s.equity + pnl)].foldl Watch.mark s.watch := by
  have hbooked : ∃ booked : EvalState ℚ, booked.watch = s.watch ∧
      EvalInput.bookTrade s pnl = booked.observe (s.equity + pnl) (s.equity + pnl) := by
    refine ⟨{ s with
      equity := s.equity + pnl
      currentMonthPnl := s.currentMonthPnl + pnl
      tradeCount := s.tradeCount + 1
      wins := if lt (lit 0) pnl then s.wins + 1 else s.wins
      grossProfit := if lt (lit 0) pnl then s.grossProfit + pnl else s.grossProfit
      grossLoss := if lt (lit 0) pnl then s.grossLoss else s.grossLoss + FloatOps.abs pnl
      inPos := 0 }, rfl, ?_⟩
    have hpeaked (booked : EvalState ℚ) (equity : ℚ) :
        (if lt booked.peakEquity equity then { booked with peakEquity := equity } else booked) =
          { booked with
            peakEquity := if lt booked.peakEquity equity then equity else booked.peakEquity } := by
      split <;> rfl
    rw [EvalState.observe, hpeaked]
    rfl
  obtain ⟨booked, hwatch, heq⟩ := hbooked
  rw [heq, watch_observe (hwatch ▸ h), hwatch]

/-- A new day starts at the realized equity, and closes the one before it if that has a key. -/
theorem watch_rollDay (h : s.watch.stretch.Valid) (day : Option Int) :
    (s.rollDay day).watch =
      if day.getD s.lastDay = s.lastDay then s.watch
      else
        { s.watch with
          stretch := Segment.start s.equity
            (if s.lastDay = -1 then s.watch.stretch.done else s.watch.stretch.total) } := by
  unfold EvalState.rollDay
  rw [finalize_eq h]
  by_cases hsame : day.getD s.lastDay = s.lastDay
  · rw [if_pos hsame, if_neg (not_not.mpr hsame)]
  · rw [if_neg hsame, if_pos hsame]
    by_cases hmark : s.lastDay = -1
    · simp only [hmark, ne_eq, not_true_eq_false, if_false, if_true, EvalState.watch,
        Segment.start, min_self]
    · simp only [hmark, ne_eq, not_false_eq_true, if_false, if_true, EvalState.watch,
        Segment.start, min_self]

theorem rollMonth_eq (s : EvalState ℚ) (monthCapacity : Nat) (month : Option Int) :
    ∃ pnl months ptr key starts equity, s.rollMonth monthCapacity month =
      { s with
        currentMonthPnl := pnl
        monthlyPnls := months
        monthPtr := ptr
        lastMonth := key
        monthStartEquities := starts
        currentMonthStartEquity := equity } := by
  unfold EvalState.rollMonth
  dsimp only
  split
  next =>
    split
    next => split <;> exact ⟨_, _, _, _, _, _, rfl⟩
    next => exact ⟨_, _, _, _, _, _, rfl⟩
  next => exact ⟨_, _, _, _, _, _, rfl⟩

/-- The calendar of a bar starts a new day, or leaves all watched values. -/
theorem watch_roll (h : s.watch.stretch.Valid) (monthCapacity : Nat) (month day : Option Int) :
    ((s.rollMonth monthCapacity month).rollDay day).watch =
      if day.getD s.lastDay = s.lastDay then s.watch
      else
        { s.watch with
          stretch := Segment.start s.equity
            (if s.lastDay = -1 then s.watch.stretch.done else s.watch.stretch.total) } := by
  obtain ⟨_, _, _, _, _, _, heq⟩ := rollMonth_eq s monthCapacity month
  rw [heq]
  exact watch_rollDay (by exact h) day

end Watched

namespace EvalState

def held (s : EvalState ℚ) : Int × ℚ × ℚ × ℚ := (s.inPos, s.entryPx, s.posLots, s.equity)

theorem held_roll (s : EvalState ℚ) (monthCapacity : Nat) (month day : Option Int) :
    ((s.rollMonth monthCapacity month).rollDay day).held = s.held := by
  have hdrawdown : IgnoresDrawdown held := fun _ _ _ _ => rfl
  have hmonth : (s.rollMonth monthCapacity month).held = s.held := by
    obtain ⟨_, _, _, _, _, _, heq⟩ := rollMonth_eq s monthCapacity month
    rw [heq]
    rfl
  rw [← hmonth]
  generalize s.rollMonth monthCapacity month = rolled
  unfold rollDay
  dsimp only
  split
  next =>
    split
    next => exact hdrawdown.finalize rolled
    next => rfl
  next => rfl

end EvalState

namespace EvalInput

variable {inp : EvalInput ℚ} {initialEquity : ℚ} {monthCapacity i : Nat} {s next : EvalState ℚ}
  {event : Option (BarEvent ℚ)}

theorem closeTrade_watch {exitPx : ℚ} (hpos : s.watch.Positive)
    (h : inp.closeTrade initialEquity i s exitPx = some (next, event)) :
    next.inPos = 0 ∧
      next.watch = [Mark.peak next.equity, Mark.trough next.equity].foldl Watch.mark s.watch := by
  obtain ⟨⟨entryTsMs, exitTsMs, pnl⟩, -, heq⟩ := Option.map_eq_some_iff.mp h
  obtain ⟨rfl, -⟩ := Prod.mk.inj heq
  have hbooks := EvalState.books_bookTrade s pnl
  have hequity : (bookTrade s pnl).equity = s.equity + pnl := congrArg EvalBooks.equity hbooks
  rw [hequity]
  exact ⟨congrArg EvalBooks.inPos hbooks, watch_bookTrade hpos pnl⟩

theorem managePosition_watch {hi lo close : ℚ} {sessionClose : Bool} (hpos : s.watch.Positive)
    (hheld : s.inPos ≠ 0)
    (h : inp.managePosition initialEquity i s hi lo close sessionClose = some (next, event)) :
    next.watch = ([Mark.peak (s.equity + s.bestFloat inp.settings inp.pip hi lo),
        Mark.trough (s.equity + s.worstFloat inp.settings inp.pip hi lo)] ++
      if next.inPos = 0 then [Mark.peak next.equity, Mark.trough next.equity]
      else []).foldl Watch.mark s.watch := by
  have hfloat := watch_observe hpos (s.equity + s.bestFloat inp.settings inp.pip hi lo)
    (s.equity + s.worstFloat inp.settings inp.pip hi lo)
  rw [← floatPosition_eq] at hfloat
  rw [List.foldl_append, ← hfloat]
  have hopen : (s.floatPosition inp.settings inp.pip hi lo).inPos ≠ 0 := by
    have hbooks := congrArg EvalBooks.inPos
      (EvalState.books_floatPosition s inp.settings inp.pip hi lo)
    rw [show (s.floatPosition inp.settings inp.pip hi lo).inPos = s.inPos from hbooks]
    exact hheld
  have hfloated : (s.floatPosition inp.settings inp.pip hi lo).watch.Positive := by
    rw [hfloat]
    exact hpos.foldl _
  unfold managePosition at h
  dsimp only at h
  generalize s.floatPosition inp.settings inp.pip hi lo = floated at h hopen hfloated ⊢
  have hclose {trailPx exitPx : ℚ}
      (hclosed : inp.closeTrade initialEquity i { floated with trailPx := trailPx } exitPx =
        some (next, event)) :
      next.watch = (if next.inPos = 0 then [Mark.peak next.equity, Mark.trough next.equity]
        else []).foldl Watch.mark floated.watch := by
    obtain ⟨hflat, hwatch⟩ :=
      closeTrade_watch (s := { floated with trailPx := trailPx }) hfloated hclosed
    rw [if_pos hflat]
    exact hwatch
  split at h
  next => exact hclose h
  next =>
    split at h
    next => exact hclose h
    next =>
      obtain ⟨rfl, -⟩ := Prod.mk.inj (Option.some.inj h)
      rw [if_neg hopen]
      rfl

/-- After the calendar, a bar takes in its marks and nothing else. -/
theorem step_watch
    (hpos : ((s.rollMonth monthCapacity inp.monthIdx[i]?).rollDay inp.dayIdx[i]?).watch.Positive)
    (h : inp.step initialEquity monthCapacity i s = some (next, event)) :
    next.watch = (inp.barMarks i s next).foldl Watch.mark
      ((s.rollMonth monthCapacity inp.monthIdx[i]?).rollDay inp.dayIdx[i]?).watch := by
  have hkept := s.held_roll monthCapacity inp.monthIdx[i]? inp.dayIdx[i]?
  unfold step at h
  dsimp only at h
  generalize (s.rollMonth monthCapacity inp.monthIdx[i]?).rollDay inp.dayIdx[i]? = rolled
    at h hpos hkept ⊢
  obtain ⟨hside, hentry, hlots, hequity⟩ : rolled.inPos = s.inPos ∧ rolled.entryPx = s.entryPx ∧
      rolled.posLots = s.posLots ∧ rolled.equity = s.equity := by
    unfold EvalState.held at hkept
    simpa only [Prod.mk.injEq] using hkept
  unfold barMarks
  split at h
  next => cases h
  next =>
    split at h
    next hfree =>
      have hmarks : (match inp.high[i]?, inp.low[i]? with
          | some hi, some lo => if s.inPos = 0 then []
            else (if inp.gapExit i then []
              else [Mark.peak (s.equity + s.bestFloat inp.settings inp.pip hi lo),
                Mark.trough (s.equity + s.worstFloat inp.settings inp.pip hi lo)]) ++
              if next.inPos = 0 then [Mark.peak next.equity, Mark.trough next.equity] else []
          | _, _ => ([] : List (Mark ℚ))) = [] := by
        split
        next => rw [if_pos hfree]
        next => rfl
      rw [hmarks]
      rcases tryEnter_cases h with ⟨_, rfl⟩ | ⟨_, _, _, _, _, rfl⟩
      · rfl
      · rfl
    next hheld =>
      split at h
      next hi lo hhigh hlow =>
        simp only [hhigh, hlow, if_neg hheld]
        have htracked : (rolled.trackExcursion inp.settings inp.pip hi lo).watch = rolled.watch :=
          rfl
        rw [← htracked] at hpos ⊢
        split at h
        next hgap =>
          obtain ⟨hflat, hwatch⟩ := closeTrade_watch hpos h
          rw [if_pos hgap, if_pos hflat]
          exact hwatch
        next hgap =>
          have hopen : (rolled.trackExcursion inp.settings inp.pip hi lo).inPos ≠ 0 := by
            rw [show (rolled.trackExcursion inp.settings inp.pip hi lo).inPos = _ from hside]
            exact hheld
          have hwatch := managePosition_watch hpos hopen h
          have hbest : (rolled.trackExcursion inp.settings inp.pip hi lo).equity +
              (rolled.trackExcursion inp.settings inp.pip hi lo).bestFloat inp.settings inp.pip
                hi lo = s.equity + s.bestFloat inp.settings inp.pip hi lo := by
            change rolled.equity + rolled.posLots * (if rolled.inPos = 1 then
              (hi - rolled.entryPx) / inp.pip * inp.settings.pipValuePerLot else
              (rolled.entryPx - lo) / inp.pip * inp.settings.pipValuePerLot) = _
            rw [hside, hentry, hlots, hequity]
            rfl
          have hworst : (rolled.trackExcursion inp.settings inp.pip hi lo).equity +
              (rolled.trackExcursion inp.settings inp.pip hi lo).worstFloat inp.settings inp.pip
                hi lo = s.equity + s.worstFloat inp.settings inp.pip hi lo := by
            change rolled.equity + rolled.posLots * (if rolled.inPos = 1 then
              (lo - rolled.entryPx) / inp.pip * inp.settings.pipValuePerLot else
              (rolled.entryPx - hi) / inp.pip * inp.settings.pipValuePerLot) = _
            rw [hside, hentry, hlots, hequity]
            rfl
          rw [hbest, hworst] at hwatch
          rw [if_neg hgap]
          exact hwatch
      next => cases h

end EvalInput

end Neoethos
