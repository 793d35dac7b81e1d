import Neoethos.RiskPolicy

/-! The prop-firm risk manager of `risk.rs`: entry gate, size clamp and checkpoint. -/

namespace Neoethos

open FloatOps (lit lt le isFinite)

variable {F : Type*} [FloatOps F]

structure ClosedTrade (F : Type*) where
  entryTimeSec : Nat
  exitTimeSec : Nat
  pnl : F
  size : F
  direction : Option Int
  deriving DecidableEq

structure RevengeTradeDetector (F : Type*) where
  recentTrades : List (ClosedTrade F)
  maxTradesTracked : Nat
  deriving DecidableEq

/-- `REVENGE_TRADES_TRACKED`. -/
def revengeTradesTracked : Nat := 10

namespace RevengeTradeDetector

/-- `RevengeTradeDetector::new`. -/
def empty : RevengeTradeDetector F := ⟨[], revengeTradesTracked⟩

def recordTrade (d : RevengeTradeDetector F) (trade : ClosedTrade F) : RevengeTradeDetector F :=
  let trades := d.recentTrades ++ [trade]
  { d with recentTrades := if d.maxTradesTracked < trades.length then trades.tail else trades }

def isLoss (trade : ClosedTrade F) : Bool := lt trade.pnl (lit 0)

/-- Minutes from one second of the clock to another, none when it lies earlier. -/
def minutesBetween (fromSec toSec : Nat) : F :=
  FloatOps.ofInt ((toSec - fromSec : Nat) : Int) / lit 60

/-- The hours in which `REVENGE_TOLERATED_HOURS_UTC` forgives a losing streak. -/
def toleratedHour (hour : Nat) : Bool := (7 ≤ hour && hour < 9) || (13 ≤ hour && hour < 15)

/-- Three losses or more at the end of the window, counted over five trades. -/
def losingStreak (d : RevengeTradeDetector F) : Bool :=
  3 ≤ ((d.recentTrades.reverse.take 5).takeWhile isLoss).length

/-- The last of three trades is larger than one and a half times the mean of the two before it,
straight after a loss. -/
def sizeEscalation (first prev last : ClosedTrade F) : Bool :=
  let meanPrev := (lit 0 + first.size + prev.size) / FloatOps.ofInt 2
  lt (lit 0) meanPrev && lt (lit (3 / 2) * meanPrev) last.size && isLoss prev

def sameDirectionLosses (first prev last : ClosedTrade F) : Bool :=
  first.direction.isSome && first.direction = prev.direction && prev.direction = last.direction &&
    isLoss last && isLoss prev

def sameDirectionTooSoon (prev last : ClosedTrade F) : Bool :=
  lt (minutesBetween prev.exitTimeSec last.entryTimeSec : F) (lit 30) && isLoss last &&
    isLoss prev && last.direction.isSome && last.direction = prev.direction

def isRevengeTrading (d : RevengeTradeDetector F) (currentTimeSec currentHour : Nat) : Bool :=
  match d.recentTrades.reverse with
  | last :: prev :: rest =>
    (lt (minutesBetween last.exitTimeSec currentTimeSec : F) (lit 15) && isLoss last) ||
      (d.losingStreak && !toleratedHour currentHour) ||
      (match rest with
        | first :: _ => sizeEscalation first prev last || sameDirectionLosses first prev last
        | [] => false) ||
      sameDirectionTooSoon prev last
  | _ => false

end RevengeTradeDetector

structure TradeGateInput (F : Type*) where
  balance : F
  equity : F
  confidence : Option F
  currentTimeSec : Nat
  currentHour : Nat
  entriesToday : Nat
  openPositions : Nat
  deriving DecidableEq

structure PositionSizingInput (F : Type*) where
  equity : F
  baseRiskPct : F
  deriving DecidableEq

/-- A `TradeGateRefusal`, with the numbers that its `detail` prints. -/
inductive TradeGateRefusal (F : Type*)
  | accountSnapshotUnresolvable (balance equity : F)
  | challengeTargetReached (targetPct : F)
  | monthlyProfitTarget (targetPct : F)
  | breakerLatched
  | revengeTrading
  | totalDrawdownLimit (totalDd limit : F)
  | recoveryHalt (totalDd limit : F)
  | recoveryMaxTradesPerDay (totalDd limit : F) (cap entriesToday : Nat)
  | dailyDrawdownLimit (dailyDd limit : F)
  | minConfidenceThreshold (confidence : F) (phase : String) (floor : F)
  deriving DecidableEq

def TradeGateRefusal.rule : TradeGateRefusal F → String
  | .accountSnapshotUnresolvable _ _ => "risk.account_snapshot_unresolvable"
  | .challengeTargetReached _ => "risk.challenge_target_reached"
  | .monthlyProfitTarget _ => "risk.monthly_profit_target_pct"
  | .breakerLatched => "risk.total_drawdown_limit"
  | .revengeTrading => "risk.revenge_trading"
  | .totalDrawdownLimit _ _ => "risk.total_drawdown_limit"
  | .recoveryHalt _ _ => "risk.recovery_halt"
  | .recoveryMaxTradesPerDay _ _ _ _ => "risk.recovery_max_trades_per_day"
  | .dailyDrawdownLimit _ _ => "risk.daily_drawdown_limit"
  | .minConfidenceThreshold _ _ _ => "risk.challenge_phase.min_confidence_threshold"

structure RiskManager (F : Type*) extends RiskPolicy F where
  initialBalance : F
  challengeStartEquity : F
  totalPeakEquity : F
  dayStartBalance : F
  monthStartBalance : F
  lastSessionDateId : Option Nat
  lastMonthId : Option Nat
  circuitBreakerTriggered : Bool
  recoveryMode : Bool
  monthlyTargetHit : Bool
  challengeTargetHit : Bool
  revengeDetector : RevengeTradeDetector F
  deriving DecidableEq

namespace RiskManager

def fromSettings (settings : RiskSettings F) (liveBalance liveEquity : F) :
    Except (FromSettingsError F) (RiskManager F) :=
  (settings.check liveBalance liveEquity).map fun _ =>
    { settings.policy with
      initialBalance := settings.anchor liveBalance
      challengeStartEquity :=
        if settings.challengeMode then settings.anchor liveBalance else lit 0
      totalPeakEquity := FloatOps.max liveEquity (settings.anchor liveBalance)
      dayStartBalance := liveBalance
      monthStartBalance := liveBalance
      lastSessionDateId := none
      lastMonthId := none
      circuitBreakerTriggered := false
      recoveryMode := false
      monthlyTargetHit := false
      challengeTargetHit := false
      revengeDetector := .empty }

/-- The daily loss and the total drawdown, as fractions of their anchors. -/
def drawdownState (m : RiskManager F) (equity : F) : F × F :=
  let dailyLossPct :=
    if lt (lit 0) m.initialBalance then (m.dayStartBalance - equity) / m.initialBalance else lit 0
  let totalDdPct :=
    if lt (lit 0) m.challengeStartEquity then
      (m.challengeStartEquity - equity) / m.challengeStartEquity
    else if lt (lit 0) m.totalPeakEquity then
      (m.totalPeakEquity - equity) / m.totalPeakEquity
    else
      lit 0
  (FloatOps.max dailyLossPct (lit 0), FloatOps.max totalDdPct (lit 0))

def updateRecoveryState (m : RiskManager F) (equity : F) : RiskManager F :=
  if !m.recoveryModeEnabled then
    { m with recoveryMode := false }
  else if le m.initialBalance (lit 0) then
    m
  else
    let dailyDdPct := (m.drawdownState equity).1
    if le m.dailyDdWarningPct dailyDdPct then
      { m with recoveryMode := true }
    else if m.recoveryMode &&
        (le (m.dayStartBalance - m.initialBalance * lit (5 / 1000)) equity ||
          le dailyDdPct (m.dailyDdWarningPct / lit 2)) then
      { m with recoveryMode := false }
    else
      m

def onEquityUpdate (m : RiskManager F) (equity : F) : RiskManager F :=
  if notPositive equity then
    m
  else if lt m.totalPeakEquity equity then
    { m with totalPeakEquity := equity }.updateRecoveryState equity
  else
    m.updateRecoveryState equity

def rollDay (m : RiskManager F) (dateId : Nat) (balance : F) : RiskManager F :=
  if m.lastSessionDateId ≠ some dateId then
    { m with dayStartBalance := balance, lastSessionDateId := some dateId }
  else
    m

def rollMonth (m : RiskManager F) (monthId : Nat) (balance : F) : RiskManager F :=
  if m.lastMonthId ≠ some monthId then
    { m with monthStartBalance := balance, monthlyTargetHit := false, lastMonthId := some monthId }
  else
    m

def rollPeriods (m : RiskManager F) (dateId monthId : Nat) (balance equity : F) :
    RiskManager F :=
  if notPositive balance || notPositive equity then
    m
  else
    ((m.rollDay dateId balance).rollMonth monthId balance).onEquityUpdate equity

def recordClosedTrade (m : RiskManager F) (trade : ClosedTrade F) : RiskManager F :=
  { m with revengeDetector := m.revengeDetector.recordTrade trade }

/-- The balance of a flat account has reached a target that is set. -/
def reachesTarget (start targetPct : F) (input : TradeGateInput F) : Bool :=
  lt (lit 0) start && lt (lit 0) targetPct && input.openPositions = 0 &&
    le targetPct ((input.balance - start) / start)

/-- The profit-target flags of the gate: one of the challenge, one of the month. -/
def noteTargets (m : RiskManager F) (input : TradeGateInput F) : RiskManager F :=
  if m.challengeMode then
    if reachesTarget m.challengeStartEquity m.challengeTargetReturnPct input then
      { m with challengeTargetHit := true }
    else
      m
  else
    if reachesTarget m.monthStartBalance m.monthlyProfitTargetPct input then
      { m with monthlyTargetHit := true }
    else
      m

/-- The part of the gate from `drawdown_state` on. -/
def checkDrawdown (m : RiskManager F) (input : TradeGateInput F) :
    RiskManager F × Except (TradeGateRefusal F) Unit :=
  let (dailyDd, totalDd) := m.drawdownState input.equity
  -- The hard total cap first: it latches, and so does the recovery halt.
  if le m.maxTotalLossPct totalDd then
    ({ m with circuitBreakerTriggered := true },
      .error (.totalDrawdownLimit totalDd m.maxTotalLossPct))
  else if m.recoveryModeEnabled && le m.runtime.recoveryHaltDrawdownPct totalDd then
    ({ m with circuitBreakerTriggered := true },
      .error (.recoveryHalt totalDd m.runtime.recoveryHaltDrawdownPct))
  else if m.recoveryModeEnabled && le m.runtime.recoveryTopStrategyDrawdownPct totalDd &&
      m.runtime.recoveryMaxTradesPerDay ≤ input.entriesToday then
    (m, .error (.recoveryMaxTradesPerDay totalDd m.runtime.recoveryTopStrategyDrawdownPct
      m.runtime.recoveryMaxTradesPerDay input.entriesToday))
  else if le m.dailyDdStopTradingPct dailyDd then
    (m, .error (.dailyDrawdownLimit dailyDd m.dailyDdStopTradingPct))
  else
    match input.confidence with
    | none => (m, .ok ())
    | some confidence =>
      if lt confidence m.minConfidenceThreshold then
        (m, .error (.minConfidenceThreshold confidence m.challengePhase m.minConfidenceThreshold))
      else
        (m, .ok ())

def checkTradeAllowed (m : RiskManager F) (input : TradeGateInput F) :
    RiskManager F × Except (TradeGateRefusal F) Unit :=
  if notPositive input.balance || notPositive input.equity then
    (m, .error (.accountSnapshotUnresolvable input.balance input.equity))
  else
    let m := (m.onEquityUpdate input.equity).noteTargets input
    if m.challengeMode && m.challengeTargetHit then
      (m, .error (.challengeTargetReached m.challengeTargetReturnPct))
    else if !m.challengeMode && m.monthlyTargetHit then
      (m, .error (.monthlyProfitTarget m.monthlyProfitTargetPct))
    else if m.circuitBreakerTriggered then
      (m, .error .breakerLatched)
    else if m.revengeDetector.isRevengeTrading input.currentTimeSec input.currentHour then
      (m, .error .revengeTrading)
    else
      m.checkDrawdown input

/-- The taper of `calculate_position_size` below the first recovery band. -/
def totalDdTaper (riskPct totalDdPct maxTotalLoss : F) : F :=
  if lt (lit 0) totalDdPct then
    riskPct * FloatOps.max (lit 1 - totalDdPct / maxTotalLoss) (lit (30 / 100))
  else
    riskPct

def calculatePositionSize (m : RiskManager F) (input : PositionSizingInput F) : F :=
  let currentCap :=
    if m.recoveryModeEnabled && m.recoveryMode then
      m.maxRiskPerTrade * m.runtime.recoveryModeRiskMultiplier
    else
      m.maxRiskPerTrade
  let capped := FloatOps.min input.baseRiskPct currentCap
  let (dailyDd, totalDdPct) := m.drawdownState input.equity
  let ddFrac := dailyDd / FloatOps.max m.dailyDdStopTradingPct (lit (1 / 10 ^ 9))
  let riskPct :=
    if le (lit (75 / 100)) ddFrac then capped * lit (35 / 100)
    else if le (lit (50 / 100)) ddFrac then capped * lit (60 / 100)
    else capped
  let maxTotalLoss := FloatOps.max m.maxTotalLossPct (lit (1 / 10 ^ 6))
  if le maxTotalLoss totalDdPct then
    lit 0
  else if m.recoveryModeEnabled && le m.runtime.recoveryHaltDrawdownPct totalDdPct then
    lit 0
  else
    let sized :=
      if !m.recoveryModeEnabled then
        totalDdTaper riskPct totalDdPct maxTotalLoss
      else if le m.runtime.recoveryTopStrategyDrawdownPct totalDdPct then
        riskPct * m.runtime.recoveryModeRiskMultiplier
      else if le m.runtime.recoveryMinSharpeDrawdownPct totalDdPct then
        riskPct * m.runtime.defensiveModeRiskMultiplier
      else if le m.runtime.recoveryTopThreeDrawdownPct totalDdPct then
        riskPct * m.runtime.cautionModeRiskMultiplier
      else
        totalDdTaper riskPct totalDdPct maxTotalLoss
    FloatOps.clamp sized (lit 0) m.maxRiskPerTrade

end RiskManager

structure RiskManagerCheckpointV1 (F : Type*) where
  schemaVersion : Nat
  initialBalance : F
  challengeStartEquity : F
  totalPeakEquity : F
  dayStartBalance : F
  monthStartBalance : F
  lastSessionDateId : Option Nat
  lastMonthId : Option Nat
  circuitBreakerTriggered : Bool
  recoveryMode : Bool
  monthlyTargetHit : Bool
  challengeTargetHit : Bool
  recentClosedTrades : List (ClosedTrade F)
  deriving DecidableEq

/-- `RISK_MANAGER_CHECKPOINT_SCHEMA_V1`. -/
def riskManagerCheckpointSchemaV1 : Nat := 1

/-- The errors of `restore_checkpoint_v1`, with what each one names. -/
inductive RestoreError (F : Type*)
  | schemaVersion (got : Nat)
  | anchor (persistedInitial persistedChallenge currentInitial currentChallenge : F)
  | notPositive (name : String) (got : F)
  | zeroIdentity
  | tooManyTrades (got : Nat)
  | invalidTrade (trade : ClosedTrade F)
  deriving DecidableEq

def ClosedTrade.valid (trade : ClosedTrade F) : Bool :=
  trade.entryTimeSec ≤ trade.exitTimeSec && isFinite trade.pnl && isFinite trade.size &&
    !lt trade.size (lit 0) &&
    (trade.direction = none || trade.direction = some (-1) || trade.direction = some 1)

namespace RiskManager

def checkpointV1 (m : RiskManager F) : RiskManagerCheckpointV1 F where
  schemaVersion := riskManagerCheckpointSchemaV1
  initialBalance := m.initialBalance
  challengeStartEquity := m.challengeStartEquity
  totalPeakEquity := m.totalPeakEquity
  dayStartBalance := m.dayStartBalance
  monthStartBalance := m.monthStartBalance
  lastSessionDateId := m.lastSessionDateId
  lastMonthId := m.lastMonthId
  circuitBreakerTriggered := m.circuitBreakerTriggered
  recoveryMode := m.recoveryMode
  monthlyTargetHit := m.monthlyTargetHit
  challengeTargetHit := m.challengeTargetHit
  recentClosedTrades := m.revengeDetector.recentTrades

variable [DecidableEq F]

/-- The refusals of `restore_checkpoint_v1`, in its order. The anchors are compared bit for bit. -/
def restoreChecks (m : RiskManager F) (checkpoint : RiskManagerCheckpointV1 F) :
    Except (RestoreError F) Unit := do
  Fallible.refuse (checkpoint.schemaVersion ≠ riskManagerCheckpointSchemaV1)
    (.schemaVersion checkpoint.schemaVersion)
  Fallible.refuse (checkpoint.initialBalance ≠ m.initialBalance ∨
      checkpoint.challengeStartEquity ≠ m.challengeStartEquity)
    (.anchor checkpoint.initialBalance checkpoint.challengeStartEquity m.initialBalance
      m.challengeStartEquity)
  forM [("total_peak_equity", checkpoint.totalPeakEquity),
      ("day_start_balance", checkpoint.dayStartBalance),
      ("month_start_balance", checkpoint.monthStartBalance)] fun (name, value) =>
    Fallible.refuse (notPositive value = true) (.notPositive name value)
  Fallible.refuse (checkpoint.lastSessionDateId = some 0 ∨ checkpoint.lastMonthId = some 0)
    .zeroIdentity
  Fallible.refuse (revengeTradesTracked < checkpoint.recentClosedTrades.length)
    (.tooManyTrades checkpoint.recentClosedTrades.length)
  forM checkpoint.recentClosedTrades fun trade =>
    Fallible.refuse (trade.valid = false) (.invalidTrade trade)

/-- The window is rebuilt by pushing the trades of the checkpoint one after the other. -/
def restoreCheckpointV1 (m : RiskManager F) (checkpoint : RiskManagerCheckpointV1 F) :
    RiskManager F × Except (RestoreError F) Unit :=
  match m.restoreChecks checkpoint with
  | .error e => (m, .error e)
  | .ok () =>
    ({ m with
        totalPeakEquity := checkpoint.totalPeakEquity
        dayStartBalance := checkpoint.dayStartBalance
        monthStartBalance := checkpoint.monthStartBalance
        lastSessionDateId := checkpoint.lastSessionDateId
        lastMonthId := checkpoint.lastMonthId
        circuitBreakerTriggered := checkpoint.circuitBreakerTriggered
        recoveryMode := checkpoint.recoveryMode
        monthlyTargetHit := checkpoint.monthlyTargetHit
        challengeTargetHit := checkpoint.challengeTargetHit
        revengeDetector := checkpoint.recentClosedTrades.foldl .recordTrade .empty },
      .ok ())

end RiskManager

end Neoethos
