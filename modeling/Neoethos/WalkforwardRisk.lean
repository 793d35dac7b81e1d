import Neoethos.EvaluatorMetrics

/-! What the walk-forward of `validation.rs` measures on the trades of one window. -/

namespace Neoethos

open FloatOps (lit lt le isFinite isPositive)

/-- The date of a timestamp in milliseconds, as `chrono` gives it for UTC: year, month and day,
where the timestamp has one. -/
structure UtcCalendar where
  date : Int → Option (Int × Int × Int)
  month_day : ∀ ts year month day, date ts = some (year, month, day) →
    1 ≤ month ∧ month ≤ 12 ∧ 1 ≤ day ∧ day ≤ 31
  same_day : ∀ ts ts', (date ts).isSome → (date ts').isSome →
    (date ts = date ts' ↔ ts / 86400000 = ts' / 86400000)

/-- `calendar_day_key_ms`. -/
def UtcCalendar.calendarDayKeyMs (calendar : UtcCalendar) (tsMs : Int) : Option Int :=
  (calendar.date tsMs).map fun (year, month, day) => year * 10000 + month * 100 + day

structure WalkforwardSplitResult (F : Type*) where
  split : Nat
  trades : Nat
  pnl : F
  winRate : F
  maxDd : F
  maxConsecLosses : Nat
  dailyMinDd : F
  maxDailyLoss : F
  dailyLossBreach : Bool
  consistencyViolation : Bool
  tradeLimitViolation : Bool
  minTradingDaysOk : Bool
  dailyReturns : List F
  maxDailyDdPct : F
  propCompliant : Bool
  deriving DecidableEq

structure WalkforwardSummary (F : Type*) where
  walkForwardSplits : Nat
  avgPnl : F
  avgWinRate : F
  avgMaxDd : F
  avgMaxConsecLosses : F
  avgDailyMinDd : F
  avgMaxDailyLoss : F
  anyDailyLossBreach : Bool
  anyConsistencyViolation : Bool
  anyTradeLimitViolation : Bool
  allMinTradingDaysOk : Bool
  splits : List (WalkforwardSplitResult F)
  deriving DecidableEq

structure WalkforwardRiskDiagnostics (F : Type*) where
  maxConsecLosses : Nat
  dailyMinDd : F
  maxDailyLoss : F
  dailyLossBreach : Bool
  consistencyViolation : Bool
  tradeLimitViolation : Bool
  minTradingDaysOk : Bool
  dailyReturns : List F
  maxDailyDdPct : F
  propCompliant : Bool

structure WalkforwardRiskLimits (F : Type*) where
  maxDailyLossPct : F
  maxDailyProfitPct : F
  minTradingDays : Nat
  maxTradesPerDay : Nat
  initialBalance : F

/-- One day of `daily_pnl` and `daily_trade_counts`, in the order of their offsets. -/
structure DayBucket (F : Type*) where
  day : Int
  pnl : F
  tradeCount : Nat

variable {F : Type*} [FloatOps F]

def WalkforwardRiskDiagnostics.default : WalkforwardRiskDiagnostics F :=
  ⟨0, lit 0, lit 0, false, false, false, false, [], lit 0, false⟩

def normalizedPctThreshold (value : F) : F :=
  if isFinite value = false ∨ le value (lit 0) = true then lit 0
  else if lt (lit 1) value then value / lit 100
  else value

/-- A bucket for each day of the index, in the order in which the days first appear. -/
def dayBuckets (days : List Int) : List (DayBucket F) :=
  days.foldl (fun buckets day =>
    if buckets.any (·.day = day) then buckets else buckets ++ [⟨day, lit 0, 0⟩]) []

/-- Books a trade on its day; a day without a bucket gets one at the end. -/
def bookOnDay (day : Int) (pnl : F) : List (DayBucket F) → List (DayBucket F)
  | [] => [⟨day, lit 0 + pnl, 1⟩]
  | bucket :: rest =>
    if bucket.day = day then
      { bucket with pnl := bucket.pnl + pnl, tradeCount := bucket.tradeCount + 1 } :: rest
    else bucket :: bookOnDay day pnl rest

/-- The day of a trade. A raw time below a hundred million is a day key already. -/
def exitDay (calendar : UtcCalendar) (trade : Trade F) : Int :=
  let raw := trade.exitTime.getD trade.entryTime
  if 100000000 ≤ raw then (calendar.calendarDayKeyMs raw).getD raw else raw

/-- The longest row of losses, and the row that is still running. -/
def lossRows (trades : List (Trade F)) : Nat × Nat :=
  trades.foldl (fun (longest, current) trade =>
    if lt trade.pnl (lit 0) then (max longest (current + 1), current + 1)
    else if lt (lit 0) trade.pnl then (longest, 0)
    else (longest, current)) (0, 0)

/-- `walkforward_risk_diagnostics_from_trades`. -/
def walkforwardRiskDiagnosticsFromTrades (calendar : UtcCalendar) (limits : WalkforwardRiskLimits F)
    (trades : List (Trade F)) (days : List Int) (evaluatorMaxDailyDd : F) :
    WalkforwardRiskDiagnostics F :=
  if days.isEmpty then WalkforwardRiskDiagnostics.default
  else
    let initialBalance :=
      if isPositive limits.initialBalance then limits.initialBalance else lit 100000
    let buckets := trades.foldl (fun buckets trade =>
      bookOnDay (exitDay calendar trade) trade.pnl buckets) (dayBuckets days)
    let dailyPnl := buckets.map (·.pnl)
    let dailyReturns := dailyPnl.map (· / initialBalance)
    let dailyMinReturn := dailyReturns.foldl FloatOps.min (lit 0)
    let closedTradeDailyLoss :=
      ((dailyReturns.filter (lt · (lit 0))).map FloatOps.abs).foldl FloatOps.max (lit 0)
    let evaluatorMaxDailyDd :=
      if isFinite evaluatorMaxDailyDd then FloatOps.max evaluatorMaxDailyDd (lit 0) else lit 0
    let maxDailyLoss := FloatOps.max closedTradeDailyLoss evaluatorMaxDailyDd
    let maxDailyLossLimit := normalizedPctThreshold limits.maxDailyLossPct
    let dailyLossBreach := lt (lit 0) maxDailyLossLimit && le maxDailyLossLimit maxDailyLoss
    let profitConsistencyLimit := normalizedPctThreshold limits.maxDailyProfitPct
    let totalPositiveDailyPnl := FloatOps.sum (dailyPnl.filter (lt (lit 0) ·))
    let largestPositiveDailyPnl := dailyPnl.foldl FloatOps.max (lit 0)
    -- `f64::EPSILON`
    let largestProfitShare :=
      if lt (lit (1 / 2 ^ 52)) totalPositiveDailyPnl then
        largestPositiveDailyPnl / totalPositiveDailyPnl
      else lit 0
    let consistencyViolation :=
      lt (lit 0) profitConsistencyLimit && lt profitConsistencyLimit largestProfitShare
    let tradeLimitViolation := decide (0 < limits.maxTradesPerDay) &&
      buckets.any (limits.maxTradesPerDay < ·.tradeCount)
    let tradingDays := buckets.countP (0 < ·.tradeCount)
    let minTradingDaysOk : Bool := limits.minTradingDays = 0 ∨ limits.minTradingDays ≤ tradingDays
    { maxConsecLosses := (lossRows trades).1
      dailyMinDd := FloatOps.min dailyMinReturn (-evaluatorMaxDailyDd)
      maxDailyLoss := maxDailyLoss
      dailyLossBreach := dailyLossBreach
      consistencyViolation := consistencyViolation
      tradeLimitViolation := tradeLimitViolation
      minTradingDaysOk := minTradingDaysOk
      dailyReturns := dailyReturns
      maxDailyDdPct := maxDailyLoss
      propCompliant :=
        !dailyLossBreach && !consistencyViolation && !tradeLimitViolation && minTradingDaysOk }

/-- The result of split `i` from its metrics and its diagnostics. -/
def splitResult (i : Nat) (metrics : EvalMetrics F) (risk : WalkforwardRiskDiagnostics F) :
    WalkforwardSplitResult F where
  split := i + 1
  trades := FloatOps.toUsize metrics.tradeCount
  pnl := metrics.netProfit
  winRate := metrics.winRate
  maxDd := metrics.maxDd
  maxConsecLosses := risk.maxConsecLosses
  dailyMinDd := risk.dailyMinDd
  maxDailyLoss := risk.maxDailyLoss
  dailyLossBreach := risk.dailyLossBreach
  consistencyViolation := risk.consistencyViolation
  tradeLimitViolation := risk.tradeLimitViolation
  minTradingDaysOk := risk.minTradingDaysOk
  dailyReturns := risk.dailyReturns
  maxDailyDdPct := risk.maxDailyDdPct
  propCompliant := risk.propCompliant

/-- `summarize_walkforward_splits`. -/
def summarizeWalkforwardSplits (splits : List (WalkforwardSplitResult F)) : WalkforwardSummary F :=
  if splits.isEmpty then
    ⟨0, lit 0, lit 0, lit 0, lit 0, lit 0, lit 0, false, false, false, false, []⟩
  else
    let average (value : WalkforwardSplitResult F → F) : F :=
      FloatOps.sum (splits.map value) / FloatOps.ofInt splits.length
    { walkForwardSplits := splits.length
      avgPnl := average (·.pnl)
      avgWinRate := average (·.winRate)
      avgMaxDd := average (·.maxDd)
      avgMaxConsecLosses := average fun r => FloatOps.ofInt r.maxConsecLosses
      avgDailyMinDd := average (·.dailyMinDd)
      avgMaxDailyLoss := average (·.maxDailyLoss)
      anyDailyLossBreach := splits.any (·.dailyLossBreach)
      anyConsistencyViolation := splits.any (·.consistencyViolation)
      anyTradeLimitViolation := splits.any (·.tradeLimitViolation)
      allMinTradingDaysOk := splits.all (·.minTradingDaysOk)
      splits := splits }

end Neoethos
