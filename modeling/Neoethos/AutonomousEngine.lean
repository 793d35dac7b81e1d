import Neoethos.MockExecution
import Neoethos.TrendbarRows

/-! The trading loop of `engine.rs`, over the seams of `contracts.rs`, with `replay.rs`. -/

namespace Neoethos

open FloatOps (lit lt le)

inductive StrategySource
  | gene (id : String)
  | ensemble (dir : String)
  | blend (geneId ensembleDir : String)
  deriving DecidableEq

inductive TradeMode
  | propFirm
  | risky
  deriving DecidableEq

structure PortfolioEntry where
  symbol : String
  baseTf : String
  higherTfs : List String
  source : StrategySource
  mode : TradeMode
  deriving DecidableEq

inductive Trader.KillSwitchTier
  | dailyLoss
  | maxDrawdown
  | equityFloor
  | exposureCap
  deriving DecidableEq

structure AccountSnapshot (F : Type*) where
  equity : F
  balance : F
  openPositions : Nat
  realizedPnl : F

/-- `entry_for` of the registry: the first entry of the symbol and the timeframe. -/
def entryFor (registry : List PortfolioEntry) (symbol baseTf : String) : Option PortfolioEntry :=
  registry.find? fun e => e.symbol = symbol ∧ asciiLower e.baseTf = asciiLower baseTf

class SignalEngine (S : Type*) (F : outParam (Type*)) where
  evaluate : S → PortfolioEntry → List (LiveBar F) → Signal F × S

class RiskGate (R : Type*) (F : outParam (Type*)) where
  check : R → TradeIntent F → AccountSnapshot F → Except Trader.KillSwitchTier Unit

/-- An execution that fails gives no report; the adapter may have changed all the same. -/
class ExecutionAdapter (E : Type*) (F : outParam (Type*)) where
  execute : E → TradeIntent F → F → E × Option (ExecReport F)
  chargedCosts : E → F

structure EngineConfig (F : Type*) where
  startingBalance : F
  windowCap : Nat
  costs : ReplayCostModel F
  maxHoldBars : Option Nat
  trailing : Option (TrailingPolicy F)

structure EngineStats (F : Type*) where
  barsProcessed : Nat
  signalsEvaluated : Nat
  intentsEmitted : Nat
  intentsExecuted : Nat
  intentsBlocked : Nat
  positionsOpened : Nat
  positionsClosed : Nat
  openPositions : Nat
  realizedPnl : F
  equity : F
  commissionPaid : F
  maxHoldExits : Nat

structure AutonomousEngine (S R E F : Type*) where
  registry : List PortfolioEntry
  signal : S
  risk : R
  exec : E
  decision : DecisionEngine F
  positions : PositionManager F
  cfg : EngineConfig F
  windows : String × String → List (LiveBar F)
  marks : String → Option F
  account : AccountSnapshot F
  bars : Nat
  signals : Nat
  intents : Nat
  executed : Nat
  blocked : Nat

section Seams

variable {F : Type*} [FloatOps F]

instance : ExecutionAdapter (MockExecutionAdapter F) F where
  execute adapter intent mark := ((adapter.execute intent mark).1, (adapter.execute intent mark).2)
  chargedCosts adapter := adapter.commissionCharged

/-- `PermissiveRiskGate`. -/
structure PermissiveRiskGate (F : Type*) where

instance : RiskGate (PermissiveRiskGate F) F where
  check _ _ _ := .ok ()

structure MaxOpenPositionsGate (F : Type*) where
  maxOpen : Nat

instance : RiskGate (MaxOpenPositionsGate F) F where
  check gate intent account :=
    match intent with
    | .open .. => if gate.maxOpen ≤ account.openPositions then .error .exposureCap else .ok ()
    | _ => .ok ()

/-- `MomentumStubSignal`. -/
structure MomentumStubSignal (F : Type*) where
  lookback : Nat
  confidence : F

def MomentumStubSignal.new (lookback : Nat) : MomentumStubSignal F :=
  ⟨max lookback 1, lit (6 / 10)⟩

def MomentumStubSignal.direction (stub : MomentumStubSignal F) (window : List (LiveBar F)) :
    Direction :=
  match window[window.length - 1]?, window[window.length - 1 - stub.lookback]? with
  | some last, some prev =>
    if window.length ≤ stub.lookback then .flat
    else if lt prev.c last.c then .long
    else if lt last.c prev.c then .short
    else .flat
  | _, _ => .flat

instance : SignalEngine (MomentumStubSignal F) F where
  evaluate stub entry window :=
    ({ symbol := entry.symbol
       dir := stub.direction window
       confidence := stub.confidence
       source := .strategy
       slPips := lit 0
       tpPips := lit 0 }, stub)

end Seams

namespace PositionManager

variable {F : Type*} [FloatOps F]

def new : PositionManager F := ⟨[], 0, lit 0, 0, 0, 0, none, 0, none⟩

/-- `unrealized_total`: a symbol with no mark contributes nothing. -/
def unrealizedTotal (mgr : PositionManager F) (mark : String → Option F) : F :=
  FloatOps.sum (mgr.openPositions.filterMap fun p =>
    (mark p.symbol).map fun px => (px - p.entryPrice) * p.dir.sign * p.volume)

def positionsFor (mgr : PositionManager F) (symbol : String) : List (Position F) :=
  mgr.openPositions.filter (·.symbol = symbol)

end PositionManager

namespace AutonomousEngine

variable {S R E F : Type*} [FloatOps F] [SignalEngine S F] [RiskGate R F] [ExecutionAdapter E F]

def new (registry : List PortfolioEntry) (signal : S) (risk : R) (exec : E)
    (decision : DecisionEngine F) (cfg : EngineConfig F) : AutonomousEngine S R E F where
  registry := registry
  signal := signal
  risk := risk
  exec := exec
  decision := decision
  positions := { PositionManager.new with
    maxHoldBars := cfg.maxHoldBars
    trailing := cfg.trailing }
  cfg := cfg
  windows := fun _ => []
  marks := fun _ => none
  account := ⟨cfg.startingBalance, cfg.startingBalance, 0, lit 0⟩
  bars := 0
  signals := 0
  intents := 0
  executed := 0
  blocked := 0

def stats (engine : AutonomousEngine S R E F) : EngineStats F where
  barsProcessed := engine.bars
  signalsEvaluated := engine.signals
  intentsEmitted := engine.intents
  intentsExecuted := engine.executed
  intentsBlocked := engine.blocked
  positionsOpened := engine.positions.openedCount
  positionsClosed := engine.positions.closedCount
  openPositions := engine.positions.openPositions.length
  realizedPnl := engine.positions.realizedPnl - ExecutionAdapter.chargedCosts engine.exec
  equity := engine.account.equity
  commissionPaid := ExecutionAdapter.chargedCosts engine.exec
  maxHoldExits := engine.positions.maxHoldExits

def refreshAccount (engine : AutonomousEngine S R E F) : AutonomousEngine S R E F :=
  let unreal := engine.positions.unrealizedTotal engine.marks
  let realized := engine.positions.realizedPnl - ExecutionAdapter.chargedCosts engine.exec
  let balance := engine.cfg.startingBalance + realized
  { engine with
    account := ⟨balance + unreal, balance, engine.positions.openPositions.length, realized⟩ }

def executeIntent (engine : AutonomousEngine S R E F) (intent : TradeIntent F) (mark : F) :
    AutonomousEngine S R E F :=
  match ExecutionAdapter.execute engine.exec intent mark with
  | (exec, some report) =>
    { engine with
      intents := engine.intents + 1
      exec := exec
      executed := if report.status = .filled then engine.executed + 1 else engine.executed
      positions := engine.positions.apply intent report }
  | (exec, none) => { engine with intents := engine.intents + 1, exec := exec }

def executeAll (engine : AutonomousEngine S R E F) (managed : List (TradeIntent F × F)) :
    AutonomousEngine S R E F :=
  managed.foldl (fun engine (intent, price) => executeIntent engine intent price) engine

/-- The start of `on_bar`: the bar is counted and kept, before any fill. -/
def observe (engine : AutonomousEngine S R E F) (bar : LiveBar F) : AutonomousEngine S R E F :=
  let bars := engine.bars + 1
  let buf := engine.windows (bar.symbol, bar.tf) ++ [bar]
  { engine with
    bars := bars
    positions := engine.positions.setBar bars
    marks := Function.update engine.marks bar.symbol (some bar.c)
    windows := Function.update engine.windows (bar.symbol, bar.tf)
      (buf.drop (buf.length - engine.cfg.windowCap)) }

/-- The first part of `on_bar`: the exits of the open positions. -/
def manage (engine : AutonomousEngine S R E F) (bar : LiveBar F) : AutonomousEngine S R E F :=
  let (positions, managed) := engine.positions.manageOnBar bar
  (executeAll { engine with positions := positions } managed).refreshAccount

def executeDecided (engine : AutonomousEngine S R E F) (decided : Option (TradeIntent F))
    (mark : F) : AutonomousEngine S R E F :=
  match decided with
  | none => engine
  | some intent =>
    match RiskGate.check engine.risk intent engine.account with
    | .ok () => engine.executeIntent intent mark
    | .error _ => { engine with blocked := engine.blocked + 1 }

/-- The second part of `on_bar`: on a base bar, from the signal to the execution. -/
def actOnSignal (engine : AutonomousEngine S R E F) (bar : LiveBar F) :
    AutonomousEngine S R E F :=
  match entryFor engine.registry bar.symbol bar.tf with
  | none => engine
  | some entry =>
    let (signal, source) :=
      SignalEngine.evaluate engine.signal entry (engine.windows (bar.symbol, bar.tf))
    let (decided, decision) :=
      engine.decision.intent signal (engine.positions.positionsFor bar.symbol) bar.c
    let evaluated := { engine with
      signals := engine.signals + 1
      signal := source
      decision := decision }
    (evaluated.executeDecided decided bar.c).refreshAccount

def onBar (engine : AutonomousEngine S R E F) (bar : LiveBar F) : AutonomousEngine S R E F :=
  ((engine.observe bar).manage bar).actOnSignal bar

/-- `replay`, without the closing `stats`. -/
def replay (engine : AutonomousEngine S R E F) (bars : List (LiveBar F)) :
    AutonomousEngine S R E F :=
  bars.foldl onBar engine

end AutonomousEngine

end Neoethos
