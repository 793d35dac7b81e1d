import Neoethos.BrokerPartition
import Neoethos.FloatOps

/-! The money state of the engine, `engine_money_v2.rs`. -/

namespace Neoethos

open Fallible (refuse require)

inductive EngineMoneyErrorCode
  | invalidLots
  | invalidPrice
  | invalidTimestamp
  | invalidIdentity
  | invalidPosition
  | invalidMoney
  | missingPosition
  | exceedsRemainingLots
  | missingEconomicsLedger
  | currencyMismatch
  | economicsLedgerMismatch
  | unsupportedSchemaVersion
  deriving DecidableEq

structure EngineMoneyError where
  code : EngineMoneyErrorCode
  detail : String
  deriving DecidableEq

/-- `ExecutionEconomicsArtifactClassV1` has this one value. -/
inductive ArtifactClass
  | researchOnly
  deriving DecidableEq

/-- `ExecutionEconomicsPromotionEligibilityV1` has this one value. -/
inductive PromotionEligibility
  | notPromotionEligible
  deriving DecidableEq

inductive FillSide
  | entry
  | exit
  deriving DecidableEq

structure AccountMoney (F : Type*) where
  currency : String
  amount : F
  deriving DecidableEq

variable {F : Type} [FloatOps F]

/-- `AccountMoneyV1::new` as a partial constructor. It refuses some amounts, those that are
not finite among them. -/
structure MoneyConstructor (F : Type) [FloatOps F] where
  refusal : String → F → Option String
  finite : ∀ currency amount, refusal currency amount = none → FloatOps.isFinite amount = true

def MoneyConstructor.new (c : MoneyConstructor F) (currency : String) (amount : F) :
    Except String (AccountMoney F) :=
  match c.refusal currency amount with
  | some text => .error text
  | none => .ok ⟨currency, amount⟩

def accountMoney (c : MoneyConstructor F) (accountCurrency : String) (amount : F) :
    Except EngineMoneyError (AccountMoney F) :=
  (c.new accountCurrency amount).mapError fun error =>
    ⟨.invalidMoney, s!"cannot construct typed account money: {error}"⟩

def validateSha256 (label value : String) : Except EngineMoneyError Unit :=
  refuse (value.utf8ByteSize ≠ 64 ∨ ¬value.toUTF8.data.toList.all isLowercaseHexByte)
    ⟨.invalidIdentity, s!"{label} must be exactly 64 lowercase hexadecimal characters"⟩

def validatePositionText (label value : String) : Except EngineMoneyError Unit :=
  refuse (trim value = "" ∨ trim value ≠ value)
    ⟨.invalidPosition, s!"{label} must be non-empty and already trimmed"⟩

def validateMoneyCurrency (label : String) (money : AccountMoney F) (accountCurrency : String) :
    Except EngineMoneyError Unit := do
  refuse (money.currency ≠ accountCurrency)
    ⟨.currencyMismatch, s!"{label} currency differs from the engine account currency"⟩
  refuse (FloatOps.isFinite money.amount = false)
    ⟨.invalidMoney, s!"{label} amount must be finite"⟩

/-- `StandardLotsV1::validate`. -/
def validateStandardLots (lots : F) : Except EngineMoneyError Unit :=
  refuse (FloatOps.isFinite lots = false ∨ FloatOps.le lots (FloatOps.lit 0) = true)
    ⟨.invalidLots, "standard lots must be finite and strictly positive"⟩

/-- `ExecutionPriceV1::validate`. -/
def validateExecutionPrice (price : F) : Except EngineMoneyError Unit :=
  refuse (FloatOps.isFinite price = false ∨ FloatOps.le price (FloatOps.lit 0) = true)
    ⟨.invalidPrice, "execution price must be finite and strictly positive"⟩

/-- What `ExecutionEconomicsViewV2` shows of a ledger. -/
structure ExecutionEconomicsView (F : Type) where
  accountCurrency : String
  symbol : String
  filledLots : F
  modeledEntryPrice : F
  modeledExitPrice : F
  entryFillTimestampUnixMs : Int
  exitFillTimestampUnixMs : Int
  entryFillIdentitySha256 : String
  exitFillIdentitySha256 : String
  ledgerSha256 : String
  entryCommissionAccountCurrency : AccountMoney F
  exitCommissionAccountCurrency : AccountMoney F
  netPnlAccountCurrency : AccountMoney F
  artifactClass : ArtifactClass
  promotionEligibility : PromotionEligibility

structure FilledExecutionReport (F : Type) where
  schemaVersion : Nat
  fillIdentitySha256 : String
  positionId : String
  symbol : String
  fillSide : FillSide
  actualFilledLots : F
  fillPrice : F
  filledAtUnixMs : Int
  executionEconomicsLedgerSha256 : String

/-- `ENGINE_MONEY_SCHEMA_VERSION_V2`. -/
def engineMoneySchemaVersion : Nat := 2

def FilledExecutionReport.validateAgainstView [DecidableEq F] (report : FilledExecutionReport F)
    (ledger : ExecutionEconomicsView F) : Except EngineMoneyError Unit := do
  refuse (report.schemaVersion ≠ engineMoneySchemaVersion)
    ⟨.unsupportedSchemaVersion, "filled execution report is not schema V2"⟩
  validateSha256 "fill identity" report.fillIdentitySha256
  validateSha256 "execution economics ledger" report.executionEconomicsLedgerSha256
  validatePositionText "position id" report.positionId
  validatePositionText "symbol" report.symbol
  validateStandardLots report.actualFilledLots
  validateExecutionPrice report.fillPrice
  refuse (report.filledAtUnixMs ≤ 0)
    ⟨.invalidTimestamp, "fill timestamp must be strictly positive"⟩
  refuse (report.executionEconomicsLedgerSha256 ≠ ledger.ledgerSha256 ∨
      report.symbol ≠ ledger.symbol ∨ report.actualFilledLots ≠ ledger.filledLots)
    ⟨.economicsLedgerMismatch, "fill report does not match its exact execution economics ledger"⟩
  let (identity, price, timestamp) := match report.fillSide with
    | .entry =>
      (ledger.entryFillIdentitySha256, ledger.modeledEntryPrice, ledger.entryFillTimestampUnixMs)
    | .exit =>
      (ledger.exitFillIdentitySha256, ledger.modeledExitPrice, ledger.exitFillTimestampUnixMs)
  refuse (report.fillIdentitySha256 ≠ identity ∨ report.fillPrice ≠ price ∨
      report.filledAtUnixMs ≠ timestamp)
    ⟨.economicsLedgerMismatch,
      "fill identity, price or timestamp differs from the sealed-ledger economics"⟩

inductive MoneyUnavailableReason
  | missingMark
  | missingConversionEvidence
  deriving DecidableEq

inductive MoneyAvailability (F : Type)
  | available (money : AccountMoney F)
  | unavailable (reason : MoneyUnavailableReason)
  deriving DecidableEq

def MoneyAvailability.validateForCurrency (accountCurrency : String) :
    MoneyAvailability F → Except EngineMoneyError Unit
  | .available money => validateMoneyCurrency "available money" money accountCurrency
  | .unavailable _ => .ok ()

/-- The equity: the balance and the unrealized result, when there is one. -/
def MoneyAvailability.addTo (c : MoneyConstructor F) (accountCurrency : String) (balance : F) :
    MoneyAvailability F → Except EngineMoneyError (MoneyAvailability F)
  | .available unrealized =>
    (accountMoney c accountCurrency (balance + unrealized.amount)).map .available
  | .unavailable reason => .ok (.unavailable reason)

structure EngineMoneyStats (F : Type) where
  schemaVersion : Nat
  accountCurrency : String
  quoteExecutionEconomicsLedgerSha256 : String
  realizedPnlAccountCurrency : AccountMoney F
  unrealizedPnlAccountCurrency : MoneyAvailability F
  balanceAccountCurrency : AccountMoney F
  equityAccountCurrency : MoneyAvailability F
  entryCommissionAccountCurrency : AccountMoney F
  exitCommissionAccountCurrency : AccountMoney F
  artifactClass : ArtifactClass
  promotionEligibility : PromotionEligibility
  deriving DecidableEq

def EngineMoneyStats.validate (stats : EngineMoneyStats F) : Except EngineMoneyError Unit := do
  refuse (stats.schemaVersion ≠ engineMoneySchemaVersion)
    ⟨.unsupportedSchemaVersion, "engine money stats are not schema V2"⟩
  validateSha256 "quote execution economics ledger" stats.quoteExecutionEconomicsLedgerSha256
  validateMoneyCurrency "realized PnL" stats.realizedPnlAccountCurrency stats.accountCurrency
  validateMoneyCurrency "balance" stats.balanceAccountCurrency stats.accountCurrency
  validateMoneyCurrency "entry commission" stats.entryCommissionAccountCurrency
    stats.accountCurrency
  validateMoneyCurrency "exit commission" stats.exitCommissionAccountCurrency stats.accountCurrency
  stats.unrealizedPnlAccountCurrency.validateForCurrency stats.accountCurrency
  stats.equityAccountCurrency.validateForCurrency stats.accountCurrency
  refuse (stats.artifactClass ≠ .researchOnly ∨
      stats.promotionEligibility ≠ .notPromotionEligible)
    ⟨.economicsLedgerMismatch,
      "engine money V2 must remain research-only and not promotion eligible"⟩

structure MoneyPosition (F : Type) where
  positionId : String
  symbol : String
  remainingLots : F
  deriving DecidableEq

@[ext] structure EngineMoneyState (F : Type) where
  accountCurrency : String
  openingBalanceAccountCurrency : AccountMoney F
  realizedPnlAccountCurrency : AccountMoney F
  entryCommissionAccountCurrency : AccountMoney F
  exitCommissionAccountCurrency : AccountMoney F
  positions : List (MoneyPosition F)
  latestExecutionEconomicsLedgerSha256 : Option String
  deriving DecidableEq

namespace EngineMoneyState

def new (c : MoneyConstructor F) (openingBalance : AccountMoney F) :
    Except EngineMoneyError (EngineMoneyState F) := do
  let accountCurrency := openingBalance.currency
  validateMoneyCurrency "opening balance" openingBalance accountCurrency
  let realized ← accountMoney c accountCurrency (FloatOps.lit 0)
  let entryCommission ← accountMoney c accountCurrency (FloatOps.lit 0)
  let exitCommission ← accountMoney c accountCurrency (FloatOps.lit 0)
  return ⟨accountCurrency, openingBalance, realized, entryCommission, exitCommission, [], none⟩

def statsWithUnrealized (c : MoneyConstructor F) (state : EngineMoneyState F)
    (unrealized : MoneyAvailability F) : Except EngineMoneyError (EngineMoneyStats F) := do
  unrealized.validateForCurrency state.accountCurrency
  let ledgerSha256 ← require state.latestExecutionEconomicsLedgerSha256
    ⟨.missingEconomicsLedger, "money stats require at least one paired execution economics ledger"⟩
  let balance ← accountMoney c state.accountCurrency
    (state.openingBalanceAccountCurrency.amount + state.realizedPnlAccountCurrency.amount)
  let equity ← unrealized.addTo c state.accountCurrency balance.amount
  let stats : EngineMoneyStats F := {
    schemaVersion := engineMoneySchemaVersion
    accountCurrency := state.accountCurrency
    quoteExecutionEconomicsLedgerSha256 := ledgerSha256
    realizedPnlAccountCurrency := state.realizedPnlAccountCurrency
    unrealizedPnlAccountCurrency := unrealized
    balanceAccountCurrency := balance
    equityAccountCurrency := equity
    entryCommissionAccountCurrency := state.entryCommissionAccountCurrency
    exitCommissionAccountCurrency := state.exitCommissionAccountCurrency
    artifactClass := .researchOnly
    promotionEligibility := .notPromotionEligible }
  stats.validate
  return stats

def statsWithoutMark (c : MoneyConstructor F) (state : EngineMoneyState F) :
    Except EngineMoneyError (EngineMoneyStats F) :=
  state.statsWithUnrealized c (.unavailable .missingMark)

/-- The checks that `apply_filled_execution_view_v2` makes before it looks at the positions. -/
def checkFill [DecidableEq F] (state : EngineMoneyState F) (report : FilledExecutionReport F)
    (ledger : ExecutionEconomicsView F) : Except EngineMoneyError Unit := do
  report.validateAgainstView ledger
  refuse (ledger.artifactClass ≠ .researchOnly ∨
      ledger.promotionEligibility ≠ .notPromotionEligible)
    ⟨.economicsLedgerMismatch, "trader money V2 accepts only research-only broker economics"⟩
  refuse (ledger.accountCurrency ≠ state.accountCurrency)
    ⟨.currencyMismatch, "execution economics account currency differs from trader state"⟩
  refuse (report.actualFilledLots ≠ ledger.filledLots)
    ⟨.economicsLedgerMismatch, "actual filled lots differ from the paired economics ledger"⟩
  refuse (report.executionEconomicsLedgerSha256 ≠ ledger.ledgerSha256)
    ⟨.economicsLedgerMismatch, "filled report and economics ledger identities differ"⟩
  validateMoneyCurrency "entry commission account currency" ledger.entryCommissionAccountCurrency
    state.accountCurrency
  validateMoneyCurrency "exit commission account currency" ledger.exitCommissionAccountCurrency
    state.accountCurrency
  validateMoneyCurrency "net PnL account currency" ledger.netPnlAccountCurrency
    state.accountCurrency

/-- The entry arm: the state it writes, or the error it returns before it writes. -/
def applyEntry (c : MoneyConstructor F) (state : EngineMoneyState F)
    (report : FilledExecutionReport F) (ledger : ExecutionEconomicsView F) :
    Except EngineMoneyError (EngineMoneyState F) := do
  let existing := state.positions.findIdx? (·.positionId == report.positionId)
  let position := existing.bind fun index => state.positions[index]?
  refuse (position.any (·.symbol != report.symbol) = true)
    ⟨.invalidPosition, "partial entry symbol differs from the open money position"⟩
  let remainingLots := match position with
    | some position => position.remainingLots + report.actualFilledLots
    | none => report.actualFilledLots
  refuse (FloatOps.isFinite remainingLots = false)
    ⟨.invalidLots, "remaining lots overflow after applying the entry fill"⟩
  let nextEntryCommission ← accountMoney c state.accountCurrency
    (state.entryCommissionAccountCurrency.amount + ledger.entryCommissionAccountCurrency.amount)
  let nextRealized ← accountMoney c state.accountCurrency
    (state.realizedPnlAccountCurrency.amount - ledger.entryCommissionAccountCurrency.amount)
  return { state with
    positions := match existing with
      | some index => state.positions.modify index fun p => { p with remainingLots := remainingLots }
      | none => state.positions ++ [⟨report.positionId, report.symbol, remainingLots⟩]
    entryCommissionAccountCurrency := nextEntryCommission
    realizedPnlAccountCurrency := nextRealized }

def applyExit [DecidableEq F] (c : MoneyConstructor F) (state : EngineMoneyState F)
    (report : FilledExecutionReport F) (ledger : ExecutionEconomicsView F) :
    Except EngineMoneyError (EngineMoneyState F) := do
  let index ← require (state.positions.findIdx? (·.positionId == report.positionId))
    ⟨.missingPosition, "exit fill has no matching open money position"⟩
  let position ← require state.positions[index]?
    ⟨.missingPosition, "exit fill has no matching open money position"⟩
  refuse (position.symbol ≠ report.symbol)
    ⟨.invalidPosition, "exit fill symbol differs from the open money position"⟩
  refuse (FloatOps.lt position.remainingLots report.actualFilledLots = true)
    ⟨.exceedsRemainingLots, "exit fill exceeds the position's remaining standard lots"⟩
  let remainingLots :=
    if report.actualFilledLots = position.remainingLots then FloatOps.lit 0
    else position.remainingLots - report.actualFilledLots
  let nextRealized ← accountMoney c state.accountCurrency
    (state.realizedPnlAccountCurrency.amount + ledger.netPnlAccountCurrency.amount +
      ledger.entryCommissionAccountCurrency.amount)
  let nextExitCommission ← accountMoney c state.accountCurrency
    (state.exitCommissionAccountCurrency.amount + ledger.exitCommissionAccountCurrency.amount)
  return { state with
    positions :=
      if FloatOps.eq remainingLots (FloatOps.lit 0) then state.positions.eraseIdx index
      else state.positions.modify index fun p => { p with remainingLots := remainingLots }
    realizedPnlAccountCurrency := nextRealized
    exitCommissionAccountCurrency := nextExitCommission }

def applySide [DecidableEq F] (c : MoneyConstructor F) (state : EngineMoneyState F)
    (report : FilledExecutionReport F) (ledger : ExecutionEconomicsView F) :
    Except EngineMoneyError (EngineMoneyState F) :=
  match report.fillSide with
  | .entry => state.applyEntry c report ledger
  | .exit => state.applyExit c report ledger

def commitFill [DecidableEq F] (c : MoneyConstructor F) (state : EngineMoneyState F)
    (report : FilledExecutionReport F) (ledger : ExecutionEconomicsView F) :
    Except EngineMoneyError (EngineMoneyState F) := do
  state.checkFill report ledger
  let next ← state.applySide c report ledger
  return { next with latestExecutionEconomicsLedgerSha256 := some ledger.ledgerSha256 }

end EngineMoneyState

/-- `apply_filled_execution_v2`: what it returns and the state it leaves. The writes come
before the statistics, which may fail. -/
def applyFilledExecution [DecidableEq F] (c : MoneyConstructor F) (state : EngineMoneyState F)
    (report : FilledExecutionReport F) (ledger : ExecutionEconomicsView F) :
    Except EngineMoneyError (EngineMoneyStats F) × EngineMoneyState F :=
  match state.commitFill c report ledger with
  | .error error => (.error error, state)
  | .ok next => (next.statsWithoutMark c, next)

end Neoethos
