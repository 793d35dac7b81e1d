import Neoethos.Evaluator

/-! The end of `evaluate_strategy_with_ledger_core`: the eleven metrics. -/

namespace Neoethos

open FloatOps (lit lt le isFinite)

variable {F : Type*} [FloatOps F]

/-- `INVALID_MONTHLY_RETURN_SHARPE_V1`. -/
def invalidMonthlyReturnSharpe : F := FloatOps.negInfinity

/-- The first loop of `completed_month_return_sharpe_v1`; `none` is the rejection. -/
def sumPeriodReturns : F → List (F × F) → Option F
  | sum, [] => some sum
  | sum, (pnl, startEquity) :: rest =>
    if isFinite pnl = false ∨ isFinite startEquity = false ∨ le startEquity (lit 0) = true then none
    else if isFinite (pnl / startEquity) = false then none
    else if isFinite (sum + pnl / startEquity) = false then none
    else sumPeriodReturns (sum + pnl / startEquity) rest

def sumSquaredDeviations (mean : F) : F → List (F × F) → Option F
  | sum, [] => some sum
  | sum, (pnl, startEquity) :: rest =>
    let deviation := pnl / startEquity - mean
    let squared := deviation * deviation
    if isFinite squared = false then none
    else if isFinite (sum + squared) = false then none
    else sumSquaredDeviations mean (sum + squared) rest

def completedMonthReturnSharpe (monthlyPnls monthStartEquities : List F) : F :=
  if monthlyPnls.length ≠ monthStartEquities.length then invalidMonthlyReturnSharpe
  else
    let months := monthlyPnls.zip monthStartEquities
    match sumPeriodReturns (lit 0) months with
    | none => invalidMonthlyReturnSharpe
    | some sum =>
      if monthlyPnls.length < 2 then lit 0
      else
        let mean := sum / FloatOps.ofInt monthlyPnls.length
        if isFinite mean = false then invalidMonthlyReturnSharpe
        else match sumSquaredDeviations mean (lit 0) months with
          | none => invalidMonthlyReturnSharpe
          | some squared =>
            let stddev := FloatOps.sqrt (squared / FloatOps.ofInt (monthlyPnls.length - 1))
            if isFinite stddev = false then invalidMonthlyReturnSharpe
            else if le stddev (lit 0) then lit 0
            else
              let sharpe := mean / stddev * lit 3.4641
              if isFinite sharpe then sharpe else invalidMonthlyReturnSharpe

def sanitizeSharpe (sharpe : F) : F :=
  if FloatOps.eq sharpe invalidMonthlyReturnSharpe || isFinite sharpe then sharpe else lit 0

/-- `stddev_sample`. -/
def stddevSample (values : List F) (mean : F) : F :=
  if values.length < 2 then lit 0
  else
    let squares := values.map fun v => (v - mean) * (v - mean)
    FloatOps.sqrt (FloatOps.max (FloatOps.sum squares / FloatOps.ofInt (values.length - 1)) (lit 0))

/-- `mean_std`, with the check that `eval.rs` puts around it. -/
def meanStd (values : List F) : F × F :=
  let finite := values.filter (isFinite ·)
  if values.length < 2 ∨ finite.length < 2 then (lit 0, lit 0)
  else
    let mean := FloatOps.sum finite / FloatOps.ofInt finite.length
    let std := stddevSample finite mean
    if isFinite mean = false ∨ isFinite std = false then (lit 0, lit 0) else (mean, std)

/-- `MONTHLY_RETURN_TARGET`. -/
def monthlyReturnTarget : F := lit 0.04

def monthlyTargetHitRate (months : List (F × F)) : F :=
  let counted := months.filter fun (_, base) => lt (lit 0) base
  let hit := counted.filter fun (pnl, base) => le monthlyReturnTarget (pnl / base)
  if 0 < counted.length then FloatOps.ofInt hit.length / FloatOps.ofInt counted.length else lit 0

structure EvalMetrics (F : Type*) where
  netProfit : F
  sharpe : F
  peakEquity : F
  maxDd : F
  winRate : F
  pf : F
  expectancy : F
  monthlyTargetHitRate : F
  tradeCount : F
  consistency : F
  maxDailyDd : F
  deriving DecidableEq

def EvalMetrics.zero : EvalMetrics F :=
  ⟨lit 0, lit 0, lit 0, lit 0, lit 0, lit 0, lit 0, lit 0, lit 0, lit 0, lit 0⟩

def sanitize (x : F) : F := if isFinite x then x else lit 0

/-- The completed months that fit into the capacity; a capacity of zero with a completed month
is an index out of range. -/
def EvalState.completedMonths (s : EvalState F) (monthCapacity : Nat) : Option (List F × List F) :=
  if 0 ≤ s.monthPtr then
    let limit := (min s.monthPtr (monthCapacity - 1 : Nat)).toNat
    if limit < s.monthlyPnls.length ∧ limit < s.monthStartEquities.length then
      some (s.monthlyPnls.take (limit + 1), s.monthStartEquities.take (limit + 1))
    else none
  else some ([], [])

/-- The metrics before the scrub of the numbers that are not finite. -/
def EvalState.rawMetrics (s : EvalState F) (initialEquity : F) (monthCapacity : Nat) :
    Option (EvalMetrics F) :=
  let s := if s.lastDay ≠ -1 then s.finalizeDailyDrawdownSegment else s
  (s.completedMonths monthCapacity).map fun (pnls, starts) =>
    let netProfit := s.equity - initialEquity
    let trades : F := FloatOps.ofInt s.tradeCount
    let winRate := if 0 < s.tradeCount then FloatOps.ofInt s.wins / trades else lit 0
    let pf := if lt (lit 0) s.grossLoss then s.grossProfit / s.grossLoss
      else if lt (lit 0) s.grossProfit then lit 10 else lit 0
    let expectancy := if 0 < s.tradeCount then netProfit / trades else lit 0
    let (avg, std) := if 0 ≤ s.monthPtr then meanStd pnls else (lit 0, lit 0)
    let sharpe := if 0 ≤ s.monthPtr then completedMonthReturnSharpe pnls starts else lit 0
    let consistency := if lt (lit 0) std then FloatOps.clamp (avg / std) (lit 0) (lit 1)
      else if lt (lit 0) avg && decide (pnls.length < 2) then lit 1 else lit 0
    let hitRate := if 0 ≤ s.monthPtr then monthlyTargetHitRate (pnls.zip starts) else lit 0
    { netProfit := netProfit
      sharpe := sharpe
      peakEquity := s.peakEquity
      maxDd := s.maxDd
      winRate := winRate
      pf := pf
      expectancy := expectancy
      monthlyTargetHitRate := hitRate
      tradeCount := trades
      consistency := consistency
      maxDailyDd := s.maxDailyDd }

def EvalMetrics.sanitized (m : EvalMetrics F) : EvalMetrics F where
  netProfit := sanitize m.netProfit
  sharpe := sanitizeSharpe m.sharpe
  peakEquity := sanitize m.peakEquity
  maxDd := sanitize m.maxDd
  winRate := sanitize m.winRate
  pf := sanitize m.pf
  expectancy := sanitize m.expectancy
  monthlyTargetHitRate := sanitize m.monthlyTargetHitRate
  tradeCount := m.tradeCount
  consistency := sanitize m.consistency
  maxDailyDd := sanitize m.maxDailyDd

/-- Some metric is not finite; the hit rate is not among those that are looked at. -/
def EvalMetrics.nonfinite (m : EvalMetrics F) : Bool :=
  [m.netProfit, m.sharpe, m.peakEquity, m.maxDd, m.winRate, m.pf, m.expectancy, m.consistency,
    m.maxDailyDd].any (!isFinite ·)

/-- `TerminalBarPositionV1`, a position still open after the last bar. -/
structure TerminalBarPosition (F : Type*) where
  direction : Int
  entryBarIndex : Nat
  entryTimestampMs : Int
  modeledEntryPrice : F
  lots : F
  stopPips : F
  targetPips : F
  activeTrailingStopPrice : Option F
  markTimestampMs : Int
  markClosePrice : F
  grossUnrealizedAccount : F
  pendingRoundTripCommissionAccount : F
  markedEquityBeforePendingCosts : F

def EvalInput.terminalOpen (inp : EvalInput F) (s : EvalState F) : Option (TerminalBarPosition F) :=
  match inp.close.getLast? with
  | none => none
  | some mark =>
    if s.inPos = 0 then none
    else
      let gross := FloatOps.ofInt s.inPos * (mark - s.entryPx) / inp.pip *
        inp.settings.pipValuePerLot * s.posLots
      some {
        direction := s.inPos
        entryBarIndex := s.entryIdx.toNat
        entryTimestampMs := inp.timestampAt s.entryIdx.toNat
        modeledEntryPrice := s.entryPx
        lots := s.posLots
        stopPips := s.posSlPips
        targetPips := s.posTpPips
        activeTrailingStopPrice := if lt (lit 0) s.trailPx then some s.trailPx else none
        markTimestampMs := inp.timestampAt (inp.close.length - 1)
        markClosePrice := mark
        grossUnrealizedAccount := gross
        pendingRoundTripCommissionAccount := inp.settings.commissionPerTrade * s.posLots
        markedEquityBeforePendingCosts := s.equity + gross }

/-- What the evaluator writes back into a netted core state. -/
structure NettedOutcome (F : Type*) where
  belowMinEntries : Nat
  endingRealizedBalance : F
  terminalOpen : Option (TerminalBarPosition F)
  nonfiniteMetrics : Bool

def EvalState.start (settings : BacktestSettings F) (initialEquity : F) (monthCapacity : Nat) :
    EvalState F where
  posLots := lit 1
  posSlPips := settings.slPips
  posTpPips := settings.tpPips
  equity := initialEquity
  peakEquity := initialEquity
  maxDd := lit 0
  tradeCount := 0
  wins := 0
  grossProfit := lit 0
  grossLoss := lit 0
  lastMonth := -1
  currentMonthPnl := lit 0
  monthlyPnls := List.replicate monthCapacity (lit 0)
  monthPtr := -1
  monthStartEquities := List.replicate monthCapacity initialEquity
  currentMonthStartEquity := initialEquity
  lastDay := -1
  dayPeak := initialEquity
  dayLow := initialEquity
  maxDailyDd := lit 0
  dayTradeCount := 0
  inPos := 0
  entryPx := lit 0
  entryIdx := -1
  trailPx := lit 0
  mfeMoney := lit 0
  maeMoney := lit 0
  belowMinEntries := 0

/-- What the evaluator returns: the metrics, and what every bar did, the trades among it. -/
structure EvalResult (F : Type*) where
  metrics : EvalMetrics F
  events : List (Nat × BarEvent F)
  netted : Option (NettedOutcome F)

def BarEvent.trade? : BarEvent F → Option (Trade F)
  | .opened _ => none
  | .closed trade => some trade

def EvalResult.trades (r : EvalResult F) : List (Nat × Trade F) :=
  r.events.filterMap fun (bar, event) => event.trade?.map (bar, ·)

def EvalResult.entries (r : EvalResult F) : List (Nat × EntryFill F) :=
  r.events.filterMap fun (bar, event) => match event with
    | .opened fill => some (bar, fill)
    | .closed _ => none

def EvalInput.monthCapacity (runtime : BacktestRuntime F) (inp : EvalInput F) : Nat :=
  match inp.netted with
  | some tape => tape.monthCapacity
  | none => runtime.monthCapacity

/-- `evaluate_strategy_with_ledger_core`; `none` is a panic. -/
def evaluateStrategyWithLedger (runtime : BacktestRuntime F) (inp : EvalInput F) :
    Option (EvalResult F) :=
  if validConversionFeeRate inp.settings.pnlConversionFeeRate = false then none
  else if inp.close = [] then some ⟨EvalMetrics.zero, [], none⟩
  else
    let initialEquity := inp.settings.initialEquity runtime
    let monthCapacity := inp.monthCapacity runtime
    match inp.runBars initialEquity monthCapacity 1 (inp.close.length - 1)
        (EvalState.start inp.settings initialEquity monthCapacity) with
    | none => none
    | some (last, events) =>
      (last.rawMetrics initialEquity monthCapacity).map fun raw =>
        ⟨raw.sanitized, events, inp.netted.map fun _ =>
          ⟨last.belowMinEntries, last.equity, inp.terminalOpen last, raw.nonfinite⟩⟩

end Neoethos
