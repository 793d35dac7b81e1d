import Neoethos.EvaluatorPrefix

namespace Neoethos

open FloatOps (lit lt le)

variable {F : Type*} [FloatOps F]

namespace EvalState

/-- The state without what only the calendar metrics read: the months and the daily drawdown. -/
def trading (s : EvalState F) : EvalState F :=
  { s with
    lastMonth := -1
    currentMonthPnl := lit 0
    monthlyPnls := []
    monthPtr := -1
    monthStartEquities := []
    currentMonthStartEquity := lit 0
    lastDay := -1
    dayPeak := lit 0
    dayLow := lit 0
    maxDailyDd := lit 0 }

/-- The last day that was seen, and how many months are complete. -/
def marks (s : EvalState F) : Int × Int × Int := (s.lastDay, s.lastMonth, s.monthPtr)

/-- A part of the state that the drawdown of the day does not touch. -/
def IgnoresDrawdown {α : Type*} (part : EvalState F → α) : Prop :=
  ∀ (s : EvalState F) (dayPeak dayLow maxDailyDd : F),
    part { s with dayPeak := dayPeak, dayLow := dayLow, maxDailyDd := maxDailyDd } = part s

theorem ignoresDrawdown_trading : IgnoresDrawdown (trading : EvalState F → EvalState F) :=
  fun _ _ _ _ => rfl

omit [FloatOps F] in
theorem ignoresDrawdown_marks : IgnoresDrawdown (marks : EvalState F → Int × Int × Int) :=
  fun _ _ _ _ => rfl

theorem IgnoresDrawdown.finalize {α : Type*} {part : EvalState F → α} (h : IgnoresDrawdown part)
    (s : EvalState F) : part s.finalizeDailyDrawdownSegment = part s := by
  unfold finalizeDailyDrawdownSegment
  split
  next =>
    dsimp only
    split
    next => exact h s s.dayPeak s.dayLow _
    next => rfl
  next => rfl

theorem IgnoresDrawdown.markDay {α : Type*} {part : EvalState F → α} (h : IgnoresDrawdown part)
    (s : EvalState F) (high low : F) :
    part (if lt s.dayPeak high = true then
        { s.finalizeDailyDrawdownSegment with dayPeak := high, dayLow := low }
      else if lt low s.dayLow = true then { s with dayLow := low } else s) = part s := by
  split
  next =>
    exact (h s.finalizeDailyDrawdownSegment high low
      s.finalizeDailyDrawdownSegment.maxDailyDd).trans (h.finalize s)
  next =>
    split
    next => exact h s s.dayPeak low s.maxDailyDd
    next => rfl

theorem trading_rollMonth (s : EvalState F) (monthCapacity : Nat) (month : Option Int) :
    (s.rollMonth monthCapacity month).trading = s.trading := by
  unfold rollMonth
  dsimp only
  split
  next =>
    split
    next => split <;> rfl
    next => rfl
  next => rfl

theorem lastDay_rollMonth (s : EvalState F) (monthCapacity : Nat) (month : Option Int) :
    (s.rollMonth monthCapacity month).lastDay = s.lastDay := by
  unfold rollMonth
  dsimp only
  split
  next =>
    split
    next => split <;> rfl
    next => rfl
  next => rfl

theorem lastDay_rollDay (s : EvalState F) (day : Option Int) :
    (s.rollDay day).lastDay = day.getD s.lastDay := by
  unfold rollDay
  dsimp only
  split
  next => rfl
  next hsame => exact (not_not.mp hsame).symm

theorem trading_rollDay (s : EvalState F) (day : Option Int) :
    (s.rollDay day).trading =
      if day.getD s.lastDay ≠ s.lastDay then { s.trading with dayTradeCount := 0 }
      else s.trading := by
  unfold rollDay
  dsimp only
  split
  next =>
    have hfinished : (if s.lastDay ≠ -1 then s.finalizeDailyDrawdownSegment else s).trading =
        s.trading := by
      split
      next => exact ignoresDrawdown_trading.finalize s
      next => rfl
    rw [← hfinished]
    rfl
  next => rfl

theorem trading_noteDrawdown (s : EvalState F) (equity : F) :
    (s.noteDrawdown equity).trading = s.trading.noteDrawdown equity := by
  have hset (drawdown : F) :
      (if lt s.maxDd drawdown = true then { s with maxDd := drawdown } else s).trading =
        if lt s.maxDd drawdown = true then { s.trading with maxDd := drawdown } else s.trading := by
    split <;> rfl
  exact hset _

theorem marks_noteDrawdown (s : EvalState F) (equity : F) :
    (s.noteDrawdown equity).marks = s.marks := by
  have hset (drawdown : F) :
      (if lt s.maxDd drawdown = true then { s with maxDd := drawdown } else s).marks = s.marks := by
    split <;> rfl
  exact hset _

/-- The drawdown is noted the same way whatever the day did before. -/
theorem trading_markDay_noteDrawdown (s : EvalState F) (high low equity : F) :
    ((if lt s.dayPeak high = true then
        { s.finalizeDailyDrawdownSegment with dayPeak := high, dayLow := low }
      else if lt low s.dayLow = true then { s with dayLow := low } else s).noteDrawdown
        equity).trading = s.trading.noteDrawdown equity := by
  rw [trading_noteDrawdown, ignoresDrawdown_trading.markDay]

theorem trading_floatPosition (s : EvalState F) (settings : BacktestSettings F) (pip hi lo : F) :
    (s.floatPosition settings pip hi lo).trading =
      (s.trading.floatPosition settings pip hi lo).trading := by
  have hpeak (high low : F) :
      ((if lt s.peakEquity high = true then { s with peakEquity := high } else s).trading).noteDrawdown
          low =
        ((if lt s.peakEquity high = true then
          { s.trading with peakEquity := high } else s.trading).trading).noteDrawdown low := by
    split <;> rfl
  exact (trading_markDay_noteDrawdown _ _ _ _).trans
    ((hpeak _ _).trans (trading_markDay_noteDrawdown _ _ _ _).symm)

theorem marks_floatPosition (s : EvalState F) (settings : BacktestSettings F) (pip hi lo : F) :
    (s.floatPosition settings pip hi lo).marks = s.marks := by
  have hpeak (high : F) :
      (if lt s.peakEquity high = true then { s with peakEquity := high } else s).marks =
        s.marks := by
    split <;> rfl
  exact (marks_noteDrawdown _ _).trans ((ignoresDrawdown_marks.markDay _ _ _).trans (hpeak _))

theorem trading_trackExcursion (s : EvalState F) (settings : BacktestSettings F) (pip hi lo : F) :
    (s.trackExcursion settings pip hi lo).trading = s.trading.trackExcursion settings pip hi lo :=
  rfl

theorem marks_trackExcursion (s : EvalState F) (settings : BacktestSettings F) (pip hi lo : F) :
    (s.trackExcursion settings pip hi lo).marks = s.marks := rfl

theorem trading_bookTrade (s : EvalState F) (pnl : F) :
    (EvalInput.bookTrade s pnl).trading = (EvalInput.bookTrade s.trading pnl).trading := by
  have hbooked : (EvalInput.bookTrade s pnl).trading = _ := trading_markDay_noteDrawdown _ _ _ _
  have hbooked' : (EvalInput.bookTrade s.trading pnl).trading = _ :=
    trading_markDay_noteDrawdown _ _ _ _
  exact hbooked.trans hbooked'.symm

theorem marks_bookTrade (s : EvalState F) (pnl : F) :
    (EvalInput.bookTrade s pnl).marks = s.marks :=
  (marks_noteDrawdown _ _).trans (ignoresDrawdown_marks.markDay _ _ _)

end EvalState

def traded (outcome : Option (EvalState F × Option (BarEvent F))) :
    Option (EvalState F × Option (BarEvent F)) :=
  outcome.map fun (s, event) => (s.trading, event)

namespace EvalInput

variable {inp : EvalInput F} {initialEquity : F} {monthCapacity i : Nat}

theorem traded_closeTrade (s : EvalState F) (exitPx : F) :
    traded (inp.closeTrade initialEquity i s exitPx) =
      traded (inp.closeTrade initialEquity i s.trading exitPx) := by
  unfold traded closeTrade
  rw [Option.map_map, Option.map_map]
  refine Option.map_congr fun out _ => ?_
  exact Prod.ext (EvalState.trading_bookTrade s _) rfl

theorem traded_managePosition (s : EvalState F) (hi lo close : F) (sessionClose : Bool) :
    traded (inp.managePosition initialEquity i s hi lo close sessionClose) =
      traded (inp.managePosition initialEquity i s.trading hi lo close sessionClose) := by
  have hfloat := s.trading_floatPosition inp.settings inp.pip hi lo
  have htrail (trailPx : F) :
      { s.floatPosition inp.settings inp.pip hi lo with trailPx := trailPx }.trading =
        { s.trading.floatPosition inp.settings inp.pip hi lo with trailPx := trailPx }.trading :=
    congrArg (fun t : EvalState F => { t with trailPx := trailPx }) hfloat
  unfold managePosition
  dsimp only
  have hexit : protectiveExit s.trading.inPos s.trading.entryPx s.trading.posSlPips
      s.trading.posTpPips s.trading.trailPx hi lo close (i - s.trading.entryIdx.toNat) inp.pip
      inp.settings = protectiveExit s.inPos s.entryPx s.posSlPips s.posTpPips s.trailPx hi lo close
      (i - s.entryIdx.toNat) inp.pip inp.settings := rfl
  rw [hexit]
  split
  next =>
    rw [traded_closeTrade, htrail, ← traded_closeTrade]
  next =>
    split
    next => rw [traded_closeTrade, htrail, ← traded_closeTrade]
    next => exact congrArg (fun t => some (t, none)) (htrail _)

theorem traded_tryEnter (s : EvalState F) (close : F) (blocked : Bool) :
    traded (inp.tryEnter i s close blocked) = traded (inp.tryEnter i s.trading close blocked) := by
  unfold tryEnter
  dsimp only [EvalState.trading]
  cases inp.signals[i - 1]? with
  | none => rfl
  | some signal =>
    dsimp only
    by_cases hidle : signal = 0 ∨ blocked = true
    · rw [if_pos hidle, if_pos hidle]
      rfl
    · rw [if_neg hidle, if_neg hidle]
      by_cases hfull : 0 < inp.settings.maxTradesPerDay ∧
        inp.settings.maxTradesPerDay ≤ s.dayTradeCount
      · simp only [hfull, and_self, if_true]
        rfl
      · simp only [hfull, if_false]
        split
        next => rfl
        next => rfl
        next entrySl entryTp sizeMultiplier _ =>
          by_cases hzero : FloatOps.eq sizeMultiplier (lit 0) = true
          · rw [if_pos hzero, if_pos hzero]
            rfl
          · rw [if_neg hzero, if_neg hzero]
            split <;> rfl

theorem marks_closeTrade {s next : EvalState F} {event : Option (BarEvent F)} {exitPx : F}
    (h : inp.closeTrade initialEquity i s exitPx = some (next, event)) : next.marks = s.marks := by
  obtain ⟨out, -, heq⟩ := Option.map_eq_some_iff.mp h
  obtain ⟨rfl, -⟩ := Prod.mk.inj heq
  exact s.marks_bookTrade _

theorem marks_managePosition {s next : EvalState F} {event : Option (BarEvent F)} {hi lo close : F}
    {sessionClose : Bool}
    (h : inp.managePosition initialEquity i s hi lo close sessionClose = some (next, event)) :
    next.marks = s.marks := by
  unfold managePosition at h
  dsimp only at h
  have hfloat := s.marks_floatPosition inp.settings inp.pip hi lo
  split at h
  next => exact (marks_closeTrade h).trans hfloat
  next =>
    split at h
    next => exact (marks_closeTrade h).trans hfloat
    next =>
      obtain ⟨rfl, -⟩ := Prod.mk.inj (Option.some.inj h)
      exact hfloat

theorem marks_tryEnter {s next : EvalState F} {event : Option (BarEvent F)} {close : F}
    {blocked : Bool} (h : inp.tryEnter i s close blocked = some (next, event)) :
    next.marks = s.marks := by
  rcases tryEnter_cases h with ⟨_, rfl⟩ | ⟨_, _, _, _, _, rfl⟩
  · rfl
  · rfl

theorem marks_step {s next : EvalState F} {event : Option (BarEvent F)}
    (h : inp.step initialEquity monthCapacity i s = some (next, event)) :
    next.marks = ((s.rollMonth monthCapacity inp.monthIdx[i]?).rollDay inp.dayIdx[i]?).marks := by
  unfold step at h
  dsimp only at h
  split at h
  next => cases h
  next =>
    split at h
    next => exact marks_tryEnter h
    next =>
      split at h
      next =>
        split at h
        next => exact (marks_closeTrade h).trans (EvalState.marks_trackExcursion _ _ _ _ _)
        next => exact (marks_managePosition h).trans (EvalState.marks_trackExcursion _ _ _ _ _)
      next => cases h

def withCalendar (inp : EvalInput F) (months days : List Int) : EvalInput F :=
  { inp with monthIdx := months, dayIdx := days }

/-- The two states trade alike, and the two calendars will see the next change of day together. -/
structure SameTrading (days days' : List Int) (s t : EvalState F) : Prop where
  trading : s.trading = t.trading
  day : s.dayTradeCount = 0 ∨
    ∃ j : Nat, days[j]? = some s.lastDay ∧ days'[j]? = some t.lastDay

def SameDays (days days' : List Int) : Prop :=
  ∀ i j : Nat, days[i]? = days[j]? ↔ days'[i]? = days'[j]?

variable {days' months : List Int} {s t : EvalState F}

theorem SameTrading.rolled (h : SameTrading inp.dayIdx days' s t)
    (hdays : SameDays inp.dayIdx days') {day day' : Int} (hday : inp.dayIdx[i]? = some day)
    (hday' : days'[i]? = some day') :
    ((s.rollMonth monthCapacity inp.monthIdx[i]?).rollDay inp.dayIdx[i]?).trading =
      ((t.rollMonth monthCapacity months[i]?).rollDay days'[i]?).trading := by
  rw [EvalState.trading_rollDay, EvalState.trading_rollDay, EvalState.lastDay_rollMonth,
    EvalState.lastDay_rollMonth, EvalState.trading_rollMonth, EvalState.trading_rollMonth, hday,
    hday', Option.getD_some, Option.getD_some, ← h.trading]
  rcases h.day with hzero | ⟨j, hj, hj'⟩
  · have hcount : { s.trading with dayTradeCount := 0 } = s.trading := by
      rw [← hzero]
      rfl
    rw [hcount, ite_self, ite_self]
  · have hsame : day = s.lastDay ↔ day' = t.lastDay := by
      have := hdays i j
      rw [hday, hday', hj, hj', Option.some_inj, Option.some_inj] at this
      exact this
    by_cases heq : day = s.lastDay
    · rw [if_neg (not_not.mpr heq), if_neg (not_not.mpr (hsame.mp heq))]
    · rw [if_pos heq, if_pos (fun h' => heq (hsame.mpr h'))]

def barStep (initialEquity : F) (inp : EvalInput F) (i : Nat) (s : EvalState F) :
    Option (EvalState F × Option (BarEvent F)) :=
  let (sessionClose, blocked) := weekendSessionPolicy (inp.timestampAt i)
    (inp.settings.killZonesEnabled && inp.useTimestamps)
  match inp.close[i]? with
  | none => none
  | some close =>
    if s.inPos = 0 then inp.tryEnter i s close blocked
    else match inp.high[i]?, inp.low[i]? with
      | some hi, some lo =>
        let tracked := s.trackExcursion inp.settings inp.pip hi lo
        if inp.gapExit i then inp.closeTrade initialEquity i tracked close
        else inp.managePosition initialEquity i tracked hi lo close sessionClose
      | _, _ => none

theorem step_eq_barStep (s : EvalState F) :
    inp.step initialEquity monthCapacity i s = inp.barStep initialEquity i
      ((s.rollMonth monthCapacity inp.monthIdx[i]?).rollDay inp.dayIdx[i]?) := by
  have hpos : ((s.rollMonth monthCapacity inp.monthIdx[i]?).rollDay inp.dayIdx[i]?).inPos =
      s.inPos := by
    have htrading := EvalState.trading_rollDay (s.rollMonth monthCapacity inp.monthIdx[i]?)
      inp.dayIdx[i]?
    rw [EvalState.trading_rollMonth] at htrading
    have hrolled : ((s.rollMonth monthCapacity inp.monthIdx[i]?).rollDay
        inp.dayIdx[i]?).trading.inPos = s.inPos := by
      rw [htrading]
      split <;> rfl
    exact hrolled
  unfold step barStep
  dsimp only
  -- rolling the month and the day keeps the position, so both sides branch alike
  exact hpos ▸ rfl

/-- What a bar trades depends on the state without its calendar. -/
theorem traded_barStep {u v : EvalState F} (h : u.trading = v.trading) :
    traded (inp.barStep initialEquity i u) = traded (inp.barStep initialEquity i v) := by
  have hpos : u.trading.inPos = v.trading.inPos := by rw [h]
  have hflat : u.inPos = v.inPos := hpos
  have htracked (hi lo : F) : (u.trackExcursion inp.settings inp.pip hi lo).trading =
      (v.trackExcursion inp.settings inp.pip hi lo).trading := by
    rw [EvalState.trading_trackExcursion, EvalState.trading_trackExcursion, h]
  unfold barStep
  dsimp only
  rw [hflat]
  split
  next => rfl
  next =>
    by_cases hopen : v.inPos = 0
    · rw [if_pos hopen, if_pos hopen, traded_tryEnter, h, ← traded_tryEnter]
    · rw [if_neg hopen, if_neg hopen]
      split
      next =>
        split
        next => rw [traded_closeTrade, htracked, ← traded_closeTrade]
        next => rw [traded_managePosition, htracked, ← traded_managePosition]
      next => rfl

theorem SameTrading.step_eq (h : SameTrading inp.dayIdx days' s t)
    (hdays : SameDays inp.dayIdx days') {day day' : Int} (hday : inp.dayIdx[i]? = some day)
    (hday' : days'[i]? = some day') :
    traded (inp.step initialEquity monthCapacity i s) =
      traded ((inp.withCalendar months days').step initialEquity monthCapacity i t) := by
  rw [step_eq_barStep, step_eq_barStep]
  exact traded_barStep (h.rolled hdays hday hday')

theorem lastDay_step {next : EvalState F} {event : Option (BarEvent F)} {day : Int}
    (h : inp.step initialEquity monthCapacity i s = some (next, event))
    (hday : inp.dayIdx[i]? = some day) : next.lastDay = day := by
  have hmarks := congrArg Prod.fst (marks_step h)
  have hlast : next.lastDay =
      ((s.rollMonth monthCapacity inp.monthIdx[i]?).rollDay inp.dayIdx[i]?).lastDay := hmarks
  rw [hlast, EvalState.lastDay_rollDay, hday, Option.getD_some]

/-- A run under the two calendars does the same on every bar. -/
theorem SameTrading.runBars_eq {count : Nat} {last : EvalState F} {events : List (Nat × BarEvent F)}
    (h : SameTrading inp.dayIdx days' s t) (hdays : SameDays inp.dayIdx days')
    (hlength : i + count ≤ inp.dayIdx.length) (hlength' : i + count ≤ days'.length)
    (hrun : inp.runBars initialEquity monthCapacity i count s = some (last, events)) :
    ∃ last', (inp.withCalendar months days').runBars initialEquity monthCapacity i count t =
      some (last', events) := by
  induction count generalizing i s t events with
  | zero =>
    obtain ⟨-, rfl⟩ := Prod.mk.inj (Option.some.inj hrun)
    exact ⟨t, rfl⟩
  | succ count ih =>
    obtain ⟨next, event, rest, hstep, hrest, rfl⟩ := runBars_succ hrun
    obtain ⟨day, hday⟩ : ∃ day, inp.dayIdx[i]? = some day :=
      ⟨_, List.getElem?_eq_getElem (by omega)⟩
    obtain ⟨day', hday'⟩ : ∃ day', days'[i]? = some day' :=
      ⟨_, List.getElem?_eq_getElem (by omega)⟩
    have hsteps : traded (inp.step initialEquity monthCapacity i s) =
        traded ((inp.withCalendar months days').step initialEquity monthCapacity i t) :=
      h.step_eq hdays hday hday'
    rw [hstep] at hsteps
    obtain ⟨⟨next', event'⟩, hstep', hsame⟩ := Option.map_eq_some_iff.mp hsteps.symm
    obtain ⟨htrading, rfl⟩ := Prod.mk.inj hsame
    have hnext : SameTrading inp.dayIdx days' next next' := by
      refine ⟨htrading.symm, Or.inr ⟨i, ?_, ?_⟩⟩
      · rw [lastDay_step hstep hday]
        exact hday
      · rw [lastDay_step hstep' hday']
        exact hday'
    obtain ⟨last', hrest'⟩ := ih hnext (by omega) (by omega) hrest
    refine ⟨last', ?_⟩
    unfold runBars
    rw [hstep']
    dsimp only
    rw [hrest']

theorem monthPtr_runBars {count : Nat} {last : EvalState F} {events : List (Nat × BarEvent F)}
    (hmonths : inp.monthIdx = [])
    (h : inp.runBars initialEquity monthCapacity i count s = some (last, events)) :
    last.monthPtr = s.monthPtr := by
  induction count generalizing i s events with
  | zero =>
    obtain ⟨rfl, -⟩ := Prod.mk.inj (Option.some.inj h)
    rfl
  | succ count ih =>
    obtain ⟨next, event, rest, hstep, hrest, -⟩ := runBars_succ h
    have hmarks : next.monthPtr =
        ((s.rollMonth monthCapacity inp.monthIdx[i]?).rollDay inp.dayIdx[i]?).monthPtr :=
      congrArg (fun m => m.2.2) (marks_step hstep)
    have hday (u : EvalState F) : (u.rollDay inp.dayIdx[i]?).monthPtr = u.monthPtr :=
      congrArg (fun k => k.2.1) (EvalState.kept_rollDay u inp.dayIdx[i]?)
    have hmonth : s.rollMonth monthCapacity inp.monthIdx[i]? = s := by
      simp [EvalState.rollMonth, hmonths]
    rw [ih hrest, hmarks, hday, hmonth]

/-- The replay of the same bars without months, and with another day index that changes at the
same places, makes the same trades. -/
theorem evaluate_withCalendar {runtime : BacktestRuntime F} {r : EvalResult F}
    (hclose : inp.close ≠ []) (hdays : SameDays inp.dayIdx days')
    (hlength : inp.dayIdx.length = inp.close.length) (hlength' : days'.length = inp.close.length)
    (h : evaluateStrategyWithLedger runtime inp = some r) :
    ∃ r', evaluateStrategyWithLedger runtime (inp.withCalendar [] days') = some r' ∧
      r'.trades = r.trades := by
  obtain ⟨hfee, last, hrun, -⟩ := evaluate_inv hclose h
  have hbars : 0 < inp.close.length := List.length_pos_iff.mpr hclose
  have hstart (u : EvalState F) (hzero : u.dayTradeCount = 0) : SameTrading inp.dayIdx days' u u :=
    ⟨rfl, Or.inl hzero⟩
  obtain ⟨last', hrun'⟩ : ∃ last', (inp.withCalendar [] days').runBars
      (inp.settings.initialEquity runtime) (inp.monthCapacity runtime) 1 (inp.close.length - 1)
      (EvalState.start inp.settings (inp.settings.initialEquity runtime)
        (inp.monthCapacity runtime)) = some (last', r.events) :=
    (hstart _ rfl).runBars_eq hdays (by omega) (by omega) hrun
  obtain ⟨-, hpnls, hstarts⟩ := runBars_months hrun'
  have hptr : last'.monthPtr = -1 := monthPtr_runBars rfl hrun'
  have hmetrics : (last'.rawMetrics (inp.settings.initialEquity runtime)
      (inp.monthCapacity runtime)).isSome = true := by
    refine (EvalState.rawMetrics_isSome_iff ?_ ?_).mpr (Or.inl (by omega))
    · rw [hpnls]
      exact List.length_replicate
    · rw [hstarts]
      exact List.length_replicate
  have hcalendar : (inp.withCalendar [] days').close ≠ [] := hclose
  obtain ⟨r', hr', hevents⟩ := evaluate_of_run hcalendar hfee hrun' hmetrics
  refine ⟨r', hr', ?_⟩
  unfold EvalResult.trades
  rw [hevents]

end EvalInput

end Neoethos
