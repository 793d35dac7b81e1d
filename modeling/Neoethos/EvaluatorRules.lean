import Neoethos.FloatOps

/-! The rules of the strategy evaluator of `eval.rs` that look at one bar or one trade. A
`none` of a computation that returns a number is a panic of the source. -/

namespace Neoethos

open FloatOps (lit lt le isFinite isPositive)

structure SessionSpreadProfile (F : Type*) where
  asianPips : F
  overlapPips : F
  lateNyPips : F

/-- `utc_hour_of_day`. -/
def utcHourOfDay (timestampMs : Int) : Int := timestampMs / 1000 / 3600 % 24

def SessionSpreadProfile.spreadPipsAt {F : Type*} (profile : SessionSpreadProfile F)
    (timestampMs : Int) : F :=
  let hour := utcHourOfDay timestampMs
  if 7 ≤ hour ∧ hour < 16 then profile.overlapPips
  else if 16 ≤ hour ∧ hour < 22 then profile.lateNyPips
  else profile.asianPips

/-- `BacktestSettings`. -/
structure BacktestSettings (F : Type*) where
  initialEquityOverride : Option F
  slPips : F
  tpPips : F
  maxHoldBars : Nat
  maxTradesPerDay : Nat
  gapThresholdMs : Int
  trailingEnabled : Bool
  trailingAtrMultiplier : F
  trailingBeTriggerR : F
  trailingMinLockPips : F
  pipValue : F
  spreadPips : F
  commissionPerTrade : F
  pipValuePerLot : F
  killZonesEnabled : Bool
  sessionSpreadProfile : Option (SessionSpreadProfile F)
  swapLongPipsPerDay : F
  swapShortPipsPerDay : F
  pnlConversionFeeRate : F
  riskBasedSizing : Bool
  riskPerTradeMin : F
  riskPerTradeMax : F
  highQualityConfidence : F
  adaptiveBasePips : Option (List F)
  adaptiveVolMult : F
  adaptiveRr : F

/-- `BacktestRuntimeOverrides`, the defaults of the process. -/
structure BacktestRuntime (F : Type*) where
  initialEquity : F
  monthCapacity : Nat

variable {F : Type*}

def BacktestSettings.initialEquity (settings : BacktestSettings F) (runtime : BacktestRuntime F) :
    F :=
  settings.initialEquityOverride.getD runtime.initialEquity

variable [FloatOps F]

/-- `validate_conversion_fee_rate_v1`. -/
def validConversionFeeRate (rate : F) : Bool :=
  isFinite rate && le (lit 0) rate && lt rate (lit 1)

/-- `debit_research_conversion_fee`. -/
def debitResearchConversionFee (pnlWithCarry priceGross rate : F) : Option F :=
  if validConversionFeeRate rate = false then none
  else if FloatOps.eq rate (lit 0) then some pnlWithCarry
  else if isFinite priceGross = false then none
  else
    let net := pnlWithCarry - FloatOps.abs priceGross * rate
    if isFinite net then some net else none

def overnightDays (entryTsMs exitTsMs : Int) : F :=
  if entryTsMs < exitTsMs ∧ 0 < entryTsMs then
    FloatOps.ofInt (exitTsMs - entryTsMs) / lit 86400000
  else lit 0

def BacktestSettings.swapPipsPerDay (settings : BacktestSettings F) (inPos : Int) : F :=
  if inPos = 1 then settings.swapLongPipsPerDay else settings.swapShortPipsPerDay

def applyCarryAndFee (pnlAfterCosts priceGross : F) (inPos entryTsMs exitTsMs : Int)
    (settings : BacktestSettings F) : Option F :=
  let swapCredit := settings.swapPipsPerDay inPos * overnightDays entryTsMs exitTsMs *
    settings.pipValuePerLot
  debitResearchConversionFee (pnlAfterCosts + swapCredit) priceGross settings.pnlConversionFeeRate

def applyCarryAndFeeScaled (pnlAfterCosts priceGross posLots : F) (inPos entryTsMs exitTsMs : Int)
    (settings : BacktestSettings F) : Option F :=
  if FloatOps.eq posLots (lit 1) then
    applyCarryAndFee pnlAfterCosts priceGross inPos entryTsMs exitTsMs settings
  else
    let swapCredit := settings.swapPipsPerDay inPos * overnightDays entryTsMs exitTsMs *
      settings.pipValuePerLot * posLots
    debitResearchConversionFee (pnlAfterCosts + swapCredit) priceGross
      settings.pnlConversionFeeRate

def effectiveAdaptiveRewardRisk (stopPips targetPips fallback : F) : F :=
  if isPositive stopPips && isPositive targetPips && isPositive (targetPips / stopPips) then
    targetPips / stopPips
  else if isPositive fallback then fallback
  else lit 2

def resolveEntryStopTargetPips (slPips tpPips volMult : F) (adaptiveBase : Option F)
    (adaptiveSeriesEnabled : Bool) (rewardRiskFallback : F) : Option (F × F) :=
  if lt (lit 0) volMult && adaptiveSeriesEnabled then
    match adaptiveBase with
    | none => none
    | some distance =>
      let sl := volMult * distance
      let tp := effectiveAdaptiveRewardRisk slPips tpPips rewardRiskFallback * sl
      if isPositive sl && isPositive tp then some (sl, tp) else none
  else some (slPips, tpPips)

/-- `entry_sl_tp_pips`; here `none` means that no entry is taken. -/
def entrySlTpPips (settings : BacktestSettings F) (i : Nat) : Option (F × F) :=
  resolveEntryStopTargetPips settings.slPips settings.tpPips settings.adaptiveVolMult
    (settings.adaptiveBasePips.bind (·[i]?)) settings.adaptiveBasePips.isSome settings.adaptiveRr

def riskBasedPosLots (conf equity effSlPips : F) (settings : BacktestSettings F) : F :=
  let conf := FloatOps.clamp conf (lit 0) (lit 1)
  let confScale :=
    if isPositive settings.highQualityConfidence then
      FloatOps.min (conf / settings.highQualityConfidence) (lit 1)
    else lit 1
  let riskPct := settings.riskPerTradeMin +
    (settings.riskPerTradeMax - settings.riskPerTradeMin) * confScale
  let denom := effSlPips * settings.pipValuePerLot
  let posLots :=
    if isPositive equity && isPositive effSlPips && isPositive settings.pipValuePerLot &&
        isPositive denom then
      riskPct * equity / denom
    else lit 0
  if isFinite posLots then FloatOps.clamp posLots (lit 0) (lit 100) else lit 0

/-- Which of its returns `protective_exit_price` took. -/
inductive ExitKind
  | stop
  | target
  | timeStop
  deriving DecidableEq

/-- The deadline at the end of `protective_exit_price`. -/
def maxHoldExit (settings : BacktestSettings F) (barsHeld : Nat) (close : F) :
    Option (ExitKind × F) :=
  if 0 < settings.maxHoldBars ∧ settings.maxHoldBars ≤ barsHeld then some (.timeStop, close)
  else none

/-- `protective_exit_price`: the price of an exit, with the kind of return, and the trail that
the bar leaves. A trail of zero is not set. -/
def protectiveExit (side : Int) (entryPx slPips tpPips trailPx hi lo close : F) (barsHeld : Nat)
    (pip : F) (settings : BacktestSettings F) : Option (ExitKind × F) × F :=
  if side = 1 then
    let fixed := entryPx - slPips * pip
    let tp := entryPx + tpPips * pip
    let sl := if settings.trailingEnabled && lt (lit 0) trailPx && lt fixed trailPx then trailPx
      else fixed
    if le lo sl then (some (.stop, sl), trailPx)
    else if le tp hi then (some (.target, tp), trailPx)
    else
      let armed := settings.trailingEnabled &&
        le (settings.trailingBeTriggerR * slPips * pip) (hi - entryPx)
      let locked := entryPx + settings.trailingMinLockPips * pip
      let candidate :=
        FloatOps.max (hi - settings.trailingAtrMultiplier * slPips * pip) locked
      let trail :=
        if armed && (FloatOps.eq trailPx (lit 0) || lt trailPx candidate) then candidate
        else trailPx
      (maxHoldExit settings barsHeld close, trail)
  else
    let fixed := entryPx + slPips * pip
    let tp := entryPx - tpPips * pip
    let sl := if settings.trailingEnabled && lt (lit 0) trailPx && lt trailPx fixed then trailPx
      else fixed
    if le sl hi then (some (.stop, sl), trailPx)
    else if le lo tp then (some (.target, tp), trailPx)
    else
      let armed := settings.trailingEnabled &&
        le (settings.trailingBeTriggerR * slPips * pip) (entryPx - lo)
      let locked := entryPx - settings.trailingMinLockPips * pip
      let candidate :=
        FloatOps.min (lo + settings.trailingAtrMultiplier * slPips * pip) locked
      let trail :=
        if armed && (FloatOps.eq trailPx (lit 0) || lt candidate trailPx) then candidate
        else trailPx
      (maxHoldExit settings barsHeld close, trail)

/-- `weekend_session_policy`: close at the end of the bar, and block entries. -/
def weekendSessionPolicy (timestampMs : Int) (enabled : Bool) : Bool × Bool :=
  if enabled = false ∨ timestampMs ≤ 0 then (false, false)
  else
    let minutes := timestampMs / 60000 % 1440
    let weekday := (timestampMs / 86400000 + 4) % 7
    let friday : Bool := weekday = 5 ∧ 20 * 60 ≤ minutes
    let monday : Bool := weekday = 1 ∧ minutes < 30
    (friday, friday || monday)

/-- `BarReplayLotGridV1`. -/
structure LotGrid (F : Type*) where
  minLots : F
  maxLots : F
  lotStep : F

def LotGrid.normalizeDown (grid : LotGrid F) (requested : F) : Option F :=
  let capped := FloatOps.min requested grid.maxLots
  let value := FloatOps.floor (capped / grid.lotStep) * grid.lotStep
  if isPositive requested && isFinite value && le grid.minLots value && le value capped then
    some value
  else none

end Neoethos
