import Neoethos.EvaluatorRules
import Neoethos.I64

/-! `evaluate_strategy_with_ledger_core` of `eval.rs`, with the trades recorded. -/

namespace Neoethos

open FloatOps (lit lt le isFinite)

/-- `Trade` of `quality.rs`. -/
structure Trade (F : Type*) where
  entryTime : Int
  exitTime : Option Int
  pnl : F
  pnlPct : Option F
  durationHours : Option F
  mfe : F
  mae : F
  rMultiple : F
  deriving DecidableEq

/-- `NettedBarDecisionTapeV1` beside the signals and confidences, the lot grid and the month
capacity of the core state. -/
structure NettedTape (F : Type*) where
  slPips : List F
  tpPips : List F
  mlMultipliers : List F
  lotGrid : Option (LotGrid F)
  monthCapacity : Nat

structure EvalInput (F : Type*) where
  close : List F
  high : List F
  low : List F
  signals : List Int
  confidences : List F
  monthIdx : List Int
  dayIdx : List Int
  timestamps : List Int
  settings : BacktestSettings F
  netted : Option (NettedTape F)

structure EvalState (F : Type*) where
  posLots : F
  posSlPips : F
  posTpPips : F
  equity : F
  peakEquity : F
  maxDd : F
  tradeCount : Nat
  wins : Nat
  grossProfit : F
  grossLoss : F
  lastMonth : Int
  currentMonthPnl : F
  monthlyPnls : List F
  monthPtr : Int
  monthStartEquities : List F
  currentMonthStartEquity : F
  lastDay : Int
  dayPeak : F
  dayLow : F
  maxDailyDd : F
  dayTradeCount : Nat
  inPos : Int
  entryPx : F
  entryIdx : Int
  trailPx : F
  mfeMoney : F
  maeMoney : F
  belowMinEntries : Nat

structure EntryFill (F : Type*) where
  side : Int
  entryPx : F
  slPips : F
  tpPips : F
  lots : F
  deriving DecidableEq

inductive BarEvent (F : Type*)
  | opened (fill : EntryFill F)
  | closed (trade : Trade F)
  deriving DecidableEq

/-- The difference of two `i64` as the release build computes it. -/
def wrappingSub (a b : Int) : Int := (a - b + 2 ^ 63) % 2 ^ 64 - 2 ^ 63

variable {F : Type*} [FloatOps F]

namespace EvalInput

def useTimestamps (inp : EvalInput F) : Bool :=
  !inp.timestamps.isEmpty && inp.timestamps.length == inp.close.length

def useRiskSizing (inp : EvalInput F) : Bool :=
  inp.settings.riskBasedSizing && !inp.confidences.isEmpty

def pip (inp : EvalInput F) : F :=
  if lt (FloatOps.abs inp.settings.pipValue) (lit 1e-12) then lit 1e-12 else inp.settings.pipValue

def timestampAt (inp : EvalInput F) (i : Nat) : Int := inp.timestamps[i]?.getD 0

/-- The half spread of bar `i`, in price and in money. -/
def halfSpread (inp : EvalInput F) (i : Nat) : F × F :=
  let spread := match inp.settings.sessionSpreadProfile with
    | some profile =>
      if inp.useTimestamps && decide (0 < inp.timestampAt i) then
        profile.spreadPipsAt (inp.timestampAt i)
      else inp.settings.spreadPips
    | none => inp.settings.spreadPips
  (spread * lit 0.5 * inp.pip, spread * lit 0.5 * inp.settings.pipValuePerLot)

end EvalInput

namespace EvalState

/-- `finalize_daily_drawdown_segment`. -/
def finalizeDailyDrawdownSegment (s : EvalState F) : EvalState F :=
  if lt (lit 0) s.dayPeak then
    let drawdown := (s.dayPeak - s.dayLow) / s.dayPeak
    if lt s.maxDailyDd drawdown then { s with maxDailyDd := drawdown } else s
  else s

def rollMonth (s : EvalState F) (monthCapacity : Nat) (month : Option Int) : EvalState F :=
  let value := month.getD s.lastMonth
  if value ≠ s.lastMonth then
    let stored : EvalState F :=
      if s.lastMonth ≠ -1 then
        let ptr := s.monthPtr + 1
        if ptr < monthCapacity then
          { s with
            monthPtr := ptr
            monthlyPnls := s.monthlyPnls.set ptr.toNat s.currentMonthPnl
            monthStartEquities := s.monthStartEquities.set ptr.toNat s.currentMonthStartEquity }
        else { s with monthPtr := ptr }
      else s
    { stored with
      currentMonthPnl := lit 0
      currentMonthStartEquity := s.equity
      lastMonth := value }
  else s

def rollDay (s : EvalState F) (day : Option Int) : EvalState F :=
  let value := day.getD s.lastDay
  if value ≠ s.lastDay then
    let finished := if s.lastDay ≠ -1 then s.finalizeDailyDrawdownSegment else s
    { finished with lastDay := value, dayPeak := s.equity, dayLow := s.equity, dayTradeCount := 0 }
  else s

/-- The best and worst price of the bar for the position, in money. -/
def trackExcursion (s : EvalState F) (settings : BacktestSettings F) (pip hi lo : F) :
    EvalState F :=
  let favorable := if s.inPos = 1 then hi - s.entryPx else s.entryPx - lo
  let adverse := if s.inPos = 1 then s.entryPx - lo else hi - s.entryPx
  { s with
    mfeMoney :=
      FloatOps.max s.mfeMoney (favorable / pip * settings.pipValuePerLot * s.posLots)
    maeMoney :=
      FloatOps.max s.maeMoney (adverse / pip * settings.pipValuePerLot * s.posLots) }

def noteDrawdown (s : EvalState F) (equity : F) : EvalState F :=
  let drawdown :=
    if lt (lit 0) s.peakEquity then (s.peakEquity - equity) / s.peakEquity else lit 0
  if lt s.maxDd drawdown then { s with maxDd := drawdown } else s

/-- The peaks and lows that the open position floats through on a bar. -/
def floatPosition (s : EvalState F) (settings : BacktestSettings F) (pip hi lo : F) :
    EvalState F :=
  let worst := s.posLots * (if s.inPos = 1 then (lo - s.entryPx) / pip * settings.pipValuePerLot
    else (s.entryPx - hi) / pip * settings.pipValuePerLot)
  let best := s.posLots * (if s.inPos = 1 then (hi - s.entryPx) / pip * settings.pipValuePerLot
    else (s.entryPx - lo) / pip * settings.pipValuePerLot)
  let peaked :=
    if lt s.peakEquity (s.equity + best) then { s with peakEquity := s.equity + best } else s
  let daily :=
    if lt peaked.dayPeak (s.equity + best) then
      { peaked.finalizeDailyDrawdownSegment with
        dayPeak := s.equity + best, dayLow := s.equity + worst }
    else if lt (s.equity + worst) peaked.dayLow then { peaked with dayLow := s.equity + worst }
    else peaked
  daily.noteDrawdown (s.equity + worst)

end EvalState

namespace EvalInput

/-- The result of closing the position at a price, with its costs. -/
def closedPnl (inp : EvalInput F) (i : Nat) (s : EvalState F) (exitPx : F) :
    Option (Int × Int × F) :=
  let halfSpreadCost := (inp.halfSpread i).2
  let move := if s.inPos = 1 then exitPx - s.entryPx else s.entryPx - exitPx
  let gross := move / inp.pip * inp.settings.pipValuePerLot
  let priceGross := gross * s.posLots - halfSpreadCost * s.posLots
  let pnl := gross * s.posLots - (inp.settings.commissionPerTrade + halfSpreadCost) * s.posLots
  let entryTsMs :=
    if inp.useTimestamps && decide (0 ≤ s.entryIdx) then inp.timestampAt s.entryIdx.toNat else 0
  let exitTsMs := if inp.useTimestamps then inp.timestampAt i else 0
  (applyCarryAndFeeScaled pnl priceGross s.posLots s.inPos entryTsMs exitTsMs inp.settings).map
    fun net => (entryTsMs, exitTsMs, net)

/-- `record_closed_cpu_trade`. -/
def closedTrade (initialEquity : F) (inp : EvalInput F) (s : EvalState F)
    (entryTime exitTime : Int) (pnl : F) : Trade F where
  entryTime := entryTime
  exitTime := some exitTime
  pnl := pnl
  pnlPct := some (pnl / initialEquity)
  durationHours :=
    if entryTime ≤ exitTime then
      some (FloatOps.ofInt (wrappingSub exitTime entryTime) / lit 3600000)
    else none
  mfe := s.mfeMoney
  mae := s.maeMoney
  rMultiple := pnl / FloatOps.max (s.posSlPips * inp.settings.pipValuePerLot * s.posLots) (lit 1e-9)

def bookTrade (s : EvalState F) (pnl : F) : EvalState F :=
  let equity := s.equity + pnl
  let won := lt (lit 0) pnl
  let booked := { s with
    equity := equity
    currentMonthPnl := s.currentMonthPnl + pnl
    tradeCount := s.tradeCount + 1
    wins := if won then s.wins + 1 else s.wins
    grossProfit := if won then s.grossProfit + pnl else s.grossProfit
    grossLoss := if won then s.grossLoss else s.grossLoss + FloatOps.abs pnl
    inPos := 0
    peakEquity := if lt s.peakEquity equity then equity else s.peakEquity }
  let daily :=
    if lt booked.dayPeak equity then
      { booked.finalizeDailyDrawdownSegment with dayPeak := equity, dayLow := equity }
    else if lt equity booked.dayLow then { booked with dayLow := equity }
    else booked
  daily.noteDrawdown equity

def closeTrade (initialEquity : F) (inp : EvalInput F) (i : Nat) (s : EvalState F) (exitPx : F) :
    Option (EvalState F × Option (BarEvent F)) :=
  (inp.closedPnl i s exitPx).map fun (entryTsMs, exitTsMs, pnl) =>
    (bookTrade s pnl, some (.closed (inp.closedTrade initialEquity s entryTsMs exitTsMs pnl)))

/-- A gap in the bar times at least as long as the threshold. -/
def gapExit (inp : EvalInput F) (i : Nat) : Bool :=
  inp.useTimestamps && decide (0 < inp.settings.gapThresholdMs) &&
    decide (inp.timestampAt (i - 1) < inp.timestampAt i) &&
    decide (inp.settings.gapThresholdMs ≤
      wrappingSub (inp.timestampAt i) (inp.timestampAt (i - 1)))

/-- The stop, target and size multiplier of an entry decided at bar `j`: `none` is an index
out of range, `some none` is no entry. -/
def entryGeometry (inp : EvalInput F) (j : Nat) : Option (Option (F × F × F)) :=
  match inp.netted with
  | some tape =>
    match tape.slPips[j]?, tape.tpPips[j]?, tape.mlMultipliers[j]? with
    | some sl, some tp, some multiplier => some (some (sl, tp, multiplier))
    | _, _, _ => none
  | none => some ((entrySlTpPips inp.settings j).map fun (sl, tp) => (sl, tp, lit 1))

/-- The lots of an entry, and whether the lot grid refused them. -/
def entryLots (inp : EvalInput F) (j : Nat) (equity entrySl sizeMultiplier : F) :
    Option F × Bool :=
  let lots :=
    if inp.useRiskSizing then
      riskBasedPosLots (inp.confidences[j]?.getD (lit 1)) equity entrySl inp.settings
    else lit 1
  match inp.netted with
  | none => (if le lots (lit 0) then none else some lots, false)
  | some tape =>
    let lots := lots * sizeMultiplier
    if le lots (lit 0) then (none, false)
    else match tape.lotGrid with
      | none => (some lots, false)
      | some grid => match grid.normalizeDown lots with
        | none => (none, true)
        | some lots => (if le lots (lit 0) then none else some lots, false)

/-- The entry arm: the signal of the bar before, filled at the close of bar `i`. -/
def tryEnter (inp : EvalInput F) (i : Nat) (s : EvalState F) (close : F) (blocked : Bool) :
    Option (EvalState F × Option (BarEvent F)) :=
  match inp.signals[i - 1]? with
  | none => none
  | some signal =>
    if signal = 0 ∨ blocked = true then some (s, none)
    else if 0 < inp.settings.maxTradesPerDay ∧ inp.settings.maxTradesPerDay ≤ s.dayTradeCount then
      some (s, none)
    else match inp.entryGeometry (i - 1) with
      | none => none
      | some none => some (s, none)
      | some (some (entrySl, entryTp, sizeMultiplier)) =>
        if FloatOps.eq sizeMultiplier (lit 0) then some (s, none)
        else match inp.entryLots (i - 1) s.equity entrySl sizeMultiplier with
          | (none, refused) =>
            some ({ s with
              belowMinEntries := if refused then s.belowMinEntries + 1 else s.belowMinEntries },
              none)
          | (some lots, _) =>
            let entryPx := close + FloatOps.ofInt signal * (inp.halfSpread i).1
            some ({ s with
              inPos := signal
              entryPx := entryPx
              entryIdx := i
              trailPx := lit 0
              mfeMoney := lit 0
              maeMoney := lit 0
              dayTradeCount := s.dayTradeCount + 1
              posSlPips := entrySl
              posTpPips := entryTp
              posLots := lots },
              some (.opened ⟨signal, entryPx, entrySl, entryTp, lots⟩))

/-- The position arm after the gap check: drawdown, then the protective exit or the close of
the session. -/
def managePosition (initialEquity : F) (inp : EvalInput F) (i : Nat) (s : EvalState F)
    (hi lo close : F) (sessionClose : Bool) : Option (EvalState F × Option (BarEvent F)) :=
  let floated := s.floatPosition inp.settings inp.pip hi lo
  let (exit, trailPx) := protectiveExit s.inPos s.entryPx s.posSlPips s.posTpPips s.trailPx hi lo
    close (i - s.entryIdx.toNat) inp.pip inp.settings
  let trailed := { floated with trailPx := trailPx }
  match exit with
  | some (_, price) => inp.closeTrade initialEquity i trailed price
  | none =>
    if sessionClose then inp.closeTrade initialEquity i trailed close else some (trailed, none)

/-- The body of the loop at bar `i`. -/
def step (initialEquity : F) (monthCapacity : Nat) (inp : EvalInput F) (i : Nat)
    (s : EvalState F) : Option (EvalState F × Option (BarEvent F)) :=
  let (sessionClose, blocked) := weekendSessionPolicy (inp.timestampAt i)
    (inp.settings.killZonesEnabled && inp.useTimestamps)
  let rolled := (s.rollMonth monthCapacity inp.monthIdx[i]?).rollDay inp.dayIdx[i]?
  match inp.close[i]? with
  | none => none
  | some close =>
    if s.inPos = 0 then inp.tryEnter i rolled close blocked
    else match inp.high[i]?, inp.low[i]? with
      | some hi, some lo =>
        let tracked := rolled.trackExcursion inp.settings inp.pip hi lo
        if inp.gapExit i then inp.closeTrade initialEquity i tracked close
        else inp.managePosition initialEquity i tracked hi lo close sessionClose
      | _, _ => none

/-- The loop from bar `i` on over `count` bars, with what each bar did. -/
def runBars (initialEquity : F) (monthCapacity : Nat) (inp : EvalInput F) :
    Nat → Nat → EvalState F → Option (EvalState F × List (Nat × BarEvent F))
  | _, 0, s => some (s, [])
  | i, count + 1, s =>
    match inp.step initialEquity monthCapacity i s with
    | none => none
    | some (next, event) =>
      match runBars initialEquity monthCapacity inp (i + 1) count next with
      | none => none
      | some (last, events) => some (last, event.toList.map (i, ·) ++ events)

end EvalInput

end Neoethos
