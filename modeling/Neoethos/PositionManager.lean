import Neoethos.FloatOps

/-! The replay's open positions, `position.rs`, with the trailing geometry of `trailing.rs`. -/

namespace Neoethos

open FloatOps (lit lt le isFinite isPositive)

inductive Direction
  | long
  | short
  | flat
  deriving DecidableEq

def Direction.sign {F : Type*} [FloatOps F] : Direction → F
  | .long => lit 1
  | .short => -lit 1
  | .flat => lit 0

inductive SignalSource
  | strategy
  | ensemble
  | blend
  deriving DecidableEq

inductive CloseReason
  | stopLoss
  | takeProfit
  | signal
  | maxHold
  | manual
  deriving DecidableEq

structure LiveBar (F : Type*) where
  symbol : String
  tf : String
  o : F
  h : F
  l : F
  c : F
  ts : Int

inductive TradeIntent (F : Type*)
  | open (symbol : String) (dir : Direction) (volume : F) (sl tp : Option F)
      (source : SignalSource)
  | close (positionId : String) (volume : Option F) (reason : CloseReason)
  | amend (positionId : String) (newSl newTp : Option F)
  | cancel (orderId : String)
  deriving DecidableEq

inductive ExecStatus
  | filled
  | rejected
  | pending
  deriving DecidableEq

structure ExecReport (F : Type*) where
  status : ExecStatus
  fillPrice : Option F
  positionId : Option String

structure TrailingPolicy (F : Type*) where
  beTriggerR : F
  stopMultiplier : F
  minLockPips : F
  pipSize : F

structure Position (F : Type*) where
  id : String
  symbol : String
  dir : Direction
  volume : F
  entryPrice : F
  sl : Option F
  tp : Option F
  source : SignalSource
  openedAtBar : Nat
  trailPx : Option F

structure PositionManager (F : Type*) where
  openPositions : List (Position F)
  nextId : Nat
  realizedPnl : F
  openedCount : Nat
  closedCount : Nat
  currentBar : Nat
  maxHoldBars : Option Nat
  maxHoldExits : Nat
  trailing : Option (TrailingPolicy F)

variable {F : Type*} [FloatOps F]

namespace TrailingPolicy

def new (beTriggerR stopMultiplier minLockPips pipSize : F) : Option (TrailingPolicy F) :=
  if isPositive beTriggerR = false ∨ isPositive stopMultiplier = false ∨
      isPositive pipSize = false ∨ isFinite minLockPips = false ∨ lt minLockPips (lit 0) = true then
    none
  else some ⟨beTriggerR, stopMultiplier, minLockPips, pipSize⟩

/-- The level that the extreme of a bar asks for, once it has moved far enough. -/
def candidate (policy : TrailingPolicy F) (entry stopDist : F) (direction : Direction)
    (high low : F) : Option F :=
  let trigger := policy.beTriggerR * stopDist
  let lock := policy.minLockPips * policy.pipSize
  match direction with
  | .long =>
    if lt (high - entry) trigger then none
    else some (FloatOps.max (high - policy.stopMultiplier * stopDist) (entry + lock))
  | .short =>
    if lt (entry - low) trigger then none
    else some (FloatOps.min (low + policy.stopMultiplier * stopDist) (entry - lock))
  | .flat => none

def nextStopPrice (policy : TrailingPolicy F) (entry originalStop : F) (direction : Direction)
    (high low : F) (current : Option F) : Option F :=
  let stopDist := FloatOps.abs (entry - originalStop)
  if isFinite stopDist = false ∨ le stopDist (lit 0) = true then none
  else match policy.candidate entry stopDist direction high low with
    | none => none
    | some level =>
      if isFinite level = false then none
      else
        let better := match current, direction with
          | none, _ => true
          | some previous, .long => lt previous level
          | some previous, .short => lt level previous
          | some _, .flat => false
        if better then some level else none

end TrailingPolicy

namespace Position

def effectiveSl (p : Position F) : Option F :=
  match p.sl, p.trailPx with
  | some sl, some trail =>
    if isFinite trail then
      some (match p.dir with
        | .long => FloatOps.max sl trail
        | .short => FloatOps.min sl trail
        | .flat => sl)
    else some sl
  | sl, _ => sl

def exitHit (p : Position F) (bar : LiveBar F) : Option (CloseReason × F) :=
  let crossed (hit : F → Bool) (reason : CloseReason) (level : Option F) :=
    (level.filter hit).map (reason, ·)
  match p.dir with
  | .long =>
    (crossed (le bar.l) .stopLoss p.effectiveSl).or (crossed (le · bar.h) .takeProfit p.tp)
  | .short =>
    (crossed (le · bar.h) .stopLoss p.effectiveSl).or (crossed (le bar.l) .takeProfit p.tp)
  | .flat => none

def ratchetTrail (p : Position F) (bar : LiveBar F) (policy : TrailingPolicy F) : Position F :=
  match p.sl with
  | none => p
  | some sl =>
    match policy.nextStopPrice p.entryPrice sl p.dir bar.h bar.l p.trailPx with
    | none => p
    | some level => { p with trailPx := some level }

def timeStop (p : Position F) (maxHold : Option Nat) (currentBar : Nat) (bar : LiveBar F) :
    Option (CloseReason × F) :=
  match maxHold with
  | none => none
  | some limit => if limit ≤ currentBar - p.openedAtBar then some (.maxHold, bar.c) else none

end Position

namespace PositionManager

def setBar (mgr : PositionManager F) (barIndex : Nat) : PositionManager F :=
  { mgr with currentBar := barIndex }

/-- The body of the loop of `manage_on_bar`: the position as it is left, and its close. -/
def manageOne (mgr : PositionManager F) (bar : LiveBar F) (p : Position F) :
    Position F × Option (CloseReason × F) :=
  match (p.exitHit bar).or (p.timeStop mgr.maxHoldBars mgr.currentBar bar) with
  | some exit => (p, some exit)
  | none => (match mgr.trailing with
    | none => p
    | some policy => p.ratchetTrail bar policy, none)

theorem manageOne_trail (mgr : PositionManager F) (bar : LiveBar F) (p : Position F) :
    ∃ trailPx, (mgr.manageOne bar p).1 = { p with trailPx := trailPx } := by
  unfold manageOne
  split
  next => exact ⟨p.trailPx, rfl⟩
  next =>
    cases mgr.trailing with
    | none => exact ⟨p.trailPx, rfl⟩
    | some policy =>
      dsimp only
      unfold Position.ratchetTrail
      split
      next => exact ⟨p.trailPx, rfl⟩
      next =>
        split
        next => exact ⟨p.trailPx, rfl⟩
        next level _ => exact ⟨some level, rfl⟩

/-- `manage_on_bar`. -/
def manageOnBar (mgr : PositionManager F) (bar : LiveBar F) :
    PositionManager F × List (TradeIntent F × F) :=
  let managed := mgr.openPositions.map fun p =>
    if p.symbol = bar.symbol then mgr.manageOne bar p else (p, none)
  let closes := managed.filterMap fun (p, exit) =>
    exit.map fun (reason, price) => (TradeIntent.close p.id none reason, price)
  let timedOut := managed.countP fun (_, exit) => exit.any (·.1 = .maxHold)
  ({ mgr with
      openPositions := managed.map (·.1)
      maxHoldExits := mgr.maxHoldExits + timedOut }, closes)

/-- The first position with an id, changed or, where the change gives none, removed. -/
def update (id : String) (change : Position F → Option (Position F)) :
    List (Position F) → List (Position F)
  | [] => []
  | p :: rest =>
    if p.id = id then (change p).toList ++ rest else p :: update id change rest

/-- `apply`: an executed intent reaches the books. -/
def apply (mgr : PositionManager F) (intent : TradeIntent F) (report : ExecReport F) :
    PositionManager F :=
  if report.status ≠ .filled then mgr
  else match intent with
    | .open symbol dir volume sl tp source =>
      let allocated := report.positionId.isNone
      let id := report.positionId.getD s!"sim-{mgr.nextId + 1}"
      { mgr with
        nextId := if allocated then mgr.nextId + 1 else mgr.nextId
        openPositions := mgr.openPositions ++ [{
          id := id
          symbol := symbol
          dir := dir
          volume := volume
          entryPrice := report.fillPrice.getD (lit 0)
          sl := sl
          tp := tp
          source := source
          openedAtBar := mgr.currentBar
          trailPx := none }]
        openedCount := mgr.openedCount + 1 }
    | .close positionId volume _ =>
      match mgr.openPositions.find? (·.id = positionId) with
      | none => mgr
      | some p =>
        let fill := report.fillPrice.getD p.entryPrice
        let closeVol := FloatOps.min (volume.getD p.volume) p.volume
        let whole := volume.isNone || le p.volume closeVol
        { mgr with
          realizedPnl := mgr.realizedPnl + (fill - p.entryPrice) * p.dir.sign * closeVol
          openPositions := update positionId (fun p =>
            if whole then none else some { p with volume := p.volume - closeVol })
            mgr.openPositions
          closedCount := if whole then mgr.closedCount + 1 else mgr.closedCount }
    | .amend positionId newSl newTp =>
      { mgr with
        openPositions := update positionId (fun p =>
          some { p with sl := newSl.or p.sl, tp := newTp.or p.tp }) mgr.openPositions }
    | .cancel _ => mgr

end PositionManager

/-! `decision.rs`: from a signal and the open positions to one intent. -/

structure Signal (F : Type*) where
  symbol : String
  dir : Direction
  confidence : F
  source : SignalSource
  slPips : F
  tpPips : F

structure DecisionConfig (F : Type*) where
  baseVolume : F
  minVolume : F
  stopFrac : F
  tpRMultiple : F
  pipSize : F
  closeOnFlatSignal : Bool
  closeOnOppositeSignal : Bool

/-- The latch only says whether the synthetic bracket was announced. -/
structure DecisionEngine (F : Type*) where
  cfg : DecisionConfig F
  syntheticBracketWarned : Bool

namespace DecisionConfig

def default : DecisionConfig F where
  baseVolume := lit 1
  minVolume := lit (1 / 100)
  stopFrac := lit (5 / 1000)
  tpRMultiple := lit 2
  pipSize := lit 0
  closeOnFlatSignal := true
  closeOnOppositeSignal := true

def geneParity (pipSize : F) : DecisionConfig F :=
  { default with
    pipSize := pipSize
    closeOnFlatSignal := false
    closeOnOppositeSignal := false }

end DecisionConfig

namespace DecisionEngine

def new (cfg : DecisionConfig F) : DecisionEngine F := ⟨cfg, false⟩

def size (engine : DecisionEngine F) (confidence : F) : F :=
  FloatOps.max (engine.cfg.baseVolume * FloatOps.clamp confidence (lit 0) (lit 1))
    engine.cfg.minVolume

/-- The distances of the stop and the target: the strategy's own, or the synthetic ones. -/
def distances (engine : DecisionEngine F) (signal : Signal F) (mark : F) :
    (F × F) × DecisionEngine F :=
  if lt (lit 0) engine.cfg.pipSize && isPositive signal.slPips then
    let stop := signal.slPips * engine.cfg.pipSize
    let target := if isPositive signal.tpPips then signal.tpPips * engine.cfg.pipSize
      else stop * engine.cfg.tpRMultiple
    ((stop, target), engine)
  else
    let stop := mark * engine.cfg.stopFrac
    ((stop, stop * engine.cfg.tpRMultiple), { engine with syntheticBracketWarned := true })

def bracket (engine : DecisionEngine F) (signal : Signal F) (dir : Direction) (mark : F) :
    Option (F × F) × DecisionEngine F :=
  if le mark (lit 0) then (none, engine)
  else
    let ((stop, target), engine) := engine.distances signal mark
    (match dir with
      | .long => some (mark - stop, mark + target)
      | .short => some (mark + stop, mark - target)
      | .flat => none, engine)

/-- `intent`: the position of the symbol that was opened first decides. -/
def intent (engine : DecisionEngine F) (signal : Signal F) (openPositions : List (Position F))
    (mark : F) : Option (TradeIntent F) × DecisionEngine F :=
  match signal.dir, openPositions.find? (·.symbol = signal.symbol) with
  | .flat, some p =>
    (if engine.cfg.closeOnFlatSignal then some (.close p.id none .signal) else none, engine)
  | .flat, none => (none, engine)
  | dir, none =>
    let (bracket, engine) := engine.bracket signal dir mark
    (bracket.map fun (sl, tp) => .open signal.symbol dir (engine.size signal.confidence)
      (some sl) (some tp) signal.source, engine)
  | dir, some p =>
    (if p.dir ≠ dir ∧ engine.cfg.closeOnOppositeSignal = true then
      some (.close p.id none .signal) else none, engine)

end DecisionEngine

end Neoethos
