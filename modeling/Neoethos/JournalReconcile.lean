import Neoethos.BrokerPartition
import Neoethos.JournalStore

namespace Neoethos

namespace JournalReconcile

open JournalStore

/-- What the journal reads of a deal of the broker. -/
structure CTraderDealSnapshot (F : Type) where
  dealId : Int
  positionId : Int
  symbolId : Int
  tradeSide : String
  filledVolume : F
  executionTimestampMs : Int
  executionPrice : Option F
  entryPrice : Option F
  grossProfit : Option F
  fee : Option F
  swap : Option F
  componentSumAccountCurrency : Option F
  balanceAfter : Option F
  deriving DecidableEq

structure OpenPosition where
  positionId : Int
  openTimestampMs : Option Int

structure CTraderAccountRuntimeSnapshot (F : Type) where
  accountId : Int
  positions : List OpenPosition
  recentDeals : List (CTraderDealSnapshot F)
  balance : F
  unrealizedPnl : F

/-- The version that `new_schema_version` stamps on a row. -/
def SCHEMA_VERSION : Nat := 2

section Rows

variable {F : Type} [FloatOps F]

/-- The earliest deal of each position; an open position's own time takes its place. -/
def positionOpenTimes (runtime : CTraderAccountRuntimeSnapshot F) : Table Int Int :=
  let opened : Table Int Int := runtime.recentDeals.foldl (fun opened deal =>
    match opened.lookup deal.positionId with
    | some first => opened.insert deal.positionId (min first deal.executionTimestampMs)
    | none => opened.insert deal.positionId deal.executionTimestampMs) ∅
  runtime.positions.foldl (fun opened position =>
    match position.openTimestampMs with
    | some ts => opened.insert position.positionId ts
    | none => opened) opened

/-- The broker's name of the symbol; while the catalog is empty there is none. -/
def dealSymbol (names : Table Int String) (d : CTraderDealSnapshot F) : Option String :=
  match names.lookup d.symbolId with
  | some n => some n
  | none => if names.entries.isEmpty then none else some ("#" ++ toString d.symbolId)

/-- The side of the position, that a deal closes by trading the opposite one. -/
def positionSide (tradeSide : String) : String :=
  match (trim tradeSide).map Char.toUpper with
  | "BUY" => "SELL"
  | "SELL" => "BUY"
  | _ => tradeSide

/-- The lots of a volume in base units; `contractSize` is what the metadata of a symbol has. -/
def dealLots (contractSize : String → Option F) (symbol : String) (filledVolume : F) : Option F :=
  (((contractSize symbol).filter FloatOps.isPositive).map fun size => filledVolume / size).filter
    FloatOps.isPositive

def closedTradeFromDeal (contractSize : String → Option F) (recordedAtUnixMs : Int)
    (d : CTraderDealSnapshot F) (names : Table Int String) (accountId environment : String)
    (openedAt : Table Int Int) : Option (JournalStore.ClosedTrade F) := do
  let net ← d.componentSumAccountCurrency
  let grossProfit ← d.grossProfit
  let commission ← d.fee
  let swap ← d.swap
  let symbol ← dealSymbol names d
  let lots ← dealLots contractSize symbol d.filledVolume
  return {
    schemaVersion := SCHEMA_VERSION
    recordedAtUnixMs
    positionId := d.positionId
    symbol
    side := positionSide d.tradeSide
    lots
    accountId := some accountId
    environment := some environment
    entryTsMs := (openedAt.lookup d.positionId).filter fun ts => ts < d.executionTimestampMs
    entryPrice := d.entryPrice
    exitTsMs := some d.executionTimestampMs
    exitPrice := d.executionPrice
    grossProfit
    commission
    swap
    netProfit := net
    balanceAfter := d.balanceAfter }

end Rows

structure ReconcileCounts where
  recorded : Nat
  alreadyPresent : Nat
  writeFailed : Nat
  openingFills : Nat
  incompleteBrokerFinancials : Nat
  deferredColdCatalog : Nat

structure EquitySample (F : Type) where
  tsMs : Int
  balance : F
  equity : F
  accountId : Option String
  environment : Option String

/-- What the machine answers while one deal is taken: the clock, and how the write ends. -/
structure DealAnswers where
  nowUnixMs : Int
  write : LineAppend

/-- One call, with what it reads besides the journal. -/
structure ReconcileCall (F : Type) where
  granted : Bool
  configured : Bool
  runtime : CTraderAccountRuntimeSnapshot F
  names : Table Int String
  environment : String
  answers : Nat → DealAnswers
  sampledAtUnixMs : Int

structure ReconcileState where
  counts : ReconcileCounts
  journal : TradeJournal

section Reconcile

variable {F : Type} [FloatOps F] (codec : RowCodec F) (contractSize : String → Option F)

def ReconcileCall.closedTrade (call : ReconcileCall F) (deal : CTraderDealSnapshot F)
    (index : Nat) : Option (JournalStore.ClosedTrade F) :=
  closedTradeFromDeal contractSize (call.answers index).nowUnixMs deal call.names
    (toString call.runtime.accountId) call.environment (positionOpenTimes call.runtime)

def reconcileDeal (call : ReconcileCall F) (state : ReconcileState)
    (indexed : CTraderDealSnapshot F × Nat) : ReconcileState :=
  let (deal, index) := indexed
  let counts := state.counts
  if deal.componentSumAccountCurrency.isNone then
    { state with counts := { counts with openingFills := counts.openingFills + 1 } }
  else if deal.grossProfit.isNone || deal.fee.isNone || deal.swap.isNone then
    { state with counts :=
        { counts with incompleteBrokerFinancials := counts.incompleteBrokerFinancials + 1 } }
  else
    match call.closedTrade contractSize deal index with
    | none =>
      { state with counts := { counts with deferredColdCatalog := counts.deferredColdCatalog + 1 } }
    | some trade =>
      match recordClosedTrade codec state.journal trade (call.answers index).write with
      | (.ok true, journal) => ⟨{ counts with recorded := counts.recorded + 1 }, journal⟩
      | (.ok false, journal) =>
        ⟨{ counts with alreadyPresent := counts.alreadyPresent + 1 }, journal⟩
      | (.error _, journal) => ⟨{ counts with writeFailed := counts.writeFailed + 1 }, journal⟩

/-- The counts and the journal after a call, and the equity sample that it appends. -/
def reconcileBestEffort (journal : TradeJournal) (call : ReconcileCall F) :
    ReconcileState × Option (EquitySample F) :=
  let untouched : ReconcileState := ⟨⟨0, 0, 0, 0, 0, 0⟩, journal⟩
  if !call.granted || !call.configured then (untouched, none)
  else
    let state := call.runtime.recentDeals.zipIdx.foldl (reconcileDeal codec contractSize call)
      untouched
    let sample :=
      if state.counts.recorded = 0 then none
      else some {
        tsMs := call.sampledAtUnixMs
        balance := call.runtime.balance
        equity := call.runtime.balance + call.runtime.unrealizedPnl
        accountId := some (toString call.runtime.accountId)
        environment := some call.environment }
    (state, sample)

def reconcileAll (journal : TradeJournal) (calls : List (ReconcileCall F)) : TradeJournal :=
  calls.foldl (fun journal call => (reconcileBestEffort codec contractSize journal call).1.journal)
    journal

end Reconcile

end JournalReconcile

end Neoethos
