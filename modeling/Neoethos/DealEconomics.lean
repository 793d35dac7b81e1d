import Neoethos.BrokerPartition
import Neoethos.Fallible
import Neoethos.FloatOps
import Neoethos.I64
import Neoethos.LittleEndian
import Neoethos.Session

namespace Neoethos

namespace DealEconomics

def MAX_EXACT_BROKER_VOLUME : Int := 2 ^ 53 - 1

inductive MoneyErrorCode
  | invalidEnvironment
  | invalidCurrency
  | invalidMoneyDigits
  | invalidFilledVolume
  | filledVolumeMismatch
  | invalidContract
  | invalidMoney
  | missingGrossProfit
  | missingCommission
  | missingSwap
  | fillIdentityMismatch
  | duplicateDeal
  | unverifiedFill
  | alreadyFinalized
  deriving DecidableEq

structure MoneyError where
  code : MoneyErrorCode
  detail : String
  deriving DecidableEq

inductive BrokerPnlConversionFee
  | charged (rawScaledSigned : Int)
  | notApplied
  deriving DecidableEq

def BrokerPnlConversionFee.rawScaledSigned : BrokerPnlConversionFee → Int
  | .charged raw => raw
  | .notApplied => 0

def BrokerPnlConversionFee.wireTag : BrokerPnlConversionFee → UInt8
  | .charged _ => 1
  | .notApplied => 0

structure AccountMoney (F : Type) where
  currency : String
  amount : F

structure BrokerSymbolVolumeScaleEvidence where
  environment : String
  accountId : Int
  symbolId : Int
  symbolName : String
  lotSizeRawCentiUnits : Int
  volumeScaleIdentitySha256 : String

structure BrokerDealWireSnapshot (F : Type) where
  environment : String
  accountId : Int
  dealId : Int
  orderId : Int
  positionId : Int
  symbolId : Int
  symbolName : String
  dealStatus : String
  tradeSide : String
  filledVolumeRawCentiUnits : Int
  executionTimestampMs : Int
  executionPrice : Option F
  entryPrice : Option F
  moneyDigits : Option Nat
  grossProfitRawScaled : Option Int
  commissionRawScaledSigned : Option Int
  swapRawScaledSigned : Option Int
  pnlConversionFee : BrokerPnlConversionFee

/-- Only the builder makes one, of a positive volume and of money that fits. -/
structure BrokerDealMoneyEvidence (F : Type) where
  environment : String
  accountId : Int
  dealId : Int
  orderId : Int
  positionId : Int
  symbolId : Int
  symbolName : String
  tradeSide : String
  filledVolumeRawCentiUnits : Int
  contractUnitsPerLot : F
  actualFilledLots : F
  executionTimestampMs : Int
  executionPrice : F
  entryPrice : F
  moneyDigits : Nat
  grossProfitRawScaled : Int
  commissionRawScaledSigned : Int
  swapRawScaledSigned : Int
  componentSumRawScaled : Int
  grossProfitAccountCurrency : AccountMoney F
  commissionAccountCurrencySigned : AccountMoney F
  swapAccountCurrencySigned : AccountMoney F
  pnlConversionFeeState : BrokerPnlConversionFee
  pnlConversionFeeAccountCurrencySigned : AccountMoney F
  componentSumAccountCurrency : AccountMoney F
  volumeScaleIdentitySha256 : String
  dealIdentitySha256 : String
  volume_pos : 0 < filledVolumeRawCentiUnits
  component_inRange : I64.InRange componentSumRawScaled

def BrokerDealMoneyEvidence.accountCurrency {F : Type} (fill : BrokerDealMoneyEvidence F) :
    String :=
  fill.componentSumAccountCurrency.currency

def componentSum (gross commission swap fee : Int) : Option Int := do
  let sum ← I64.checkedAdd gross commission
  let sum ← I64.checkedAdd sum swap
  I64.checkedAdd sum fee

theorem componentSum_eq_some {gross commission swap fee sum : Int}
    (h : componentSum gross commission swap fee = some sum) :
    I64.InRange sum ∧ sum = gross + commission + swap + fee := by
  unfold componentSum at h
  simp only [Option.bind_eq_bind, Option.bind_eq_some_iff, I64.checkedAdd_eq_some] at h
  obtain ⟨_, ⟨-, rfl⟩, _, ⟨-, rfl⟩, hrange, rfl⟩ := h
  exact ⟨hrange, rfl⟩

def bigEndian (value : Int) : List UInt8 :=
  (LittleEndian.encode 8 (value % 2 ^ 64).toNat).reverse

def appendString (value : String) : List UInt8 :=
  bigEndian value.utf8ByteSize ++ value.toUTF8.data.toList

/-- The digest of the build, and the bits of its numbers. -/
structure DealDigest (F : Type) where
  sha256 : List UInt8 → String
  toBits : F → UInt64

section Build

variable {F : Type} [FloatOps F] [FloatOps.Elementary F] (digest : DealDigest F)

def DealDigest.appendOptionalF64 (digest : DealDigest F) : Option F → List UInt8
  | some value => 1 :: bigEndian (digest.toBits value).toNat
  | none => [0]

def dealIdentitySha256 (deal : BrokerDealWireSnapshot F) (accountCurrency : String)
    (moneyDigits : Nat) (gross commission swap : Int) (volumeScaleIdentitySha256 : String) :
    String :=
  let payload :=
    appendString deal.environment ++ bigEndian deal.accountId ++ bigEndian deal.dealId ++
      bigEndian deal.orderId ++ bigEndian deal.positionId ++ bigEndian deal.symbolId ++
      appendString deal.symbolName ++ appendString deal.dealStatus ++
      appendString deal.tradeSide ++ bigEndian deal.filledVolumeRawCentiUnits ++
      bigEndian deal.executionTimestampMs ++ digest.appendOptionalF64 deal.executionPrice ++
      digest.appendOptionalF64 deal.entryPrice ++ (LittleEndian.encode 4 moneyDigits).reverse ++
      bigEndian gross ++ bigEndian commission ++ bigEndian swap ++
      [deal.pnlConversionFee.wireTag] ++ bigEndian deal.pnlConversionFee.rawScaledSigned ++
      appendString accountCurrency ++ appendString volumeScaleIdentitySha256
  digest.sha256 ("neoethos-broker-deal-money-evidence-v1\n".toUTF8.data.toList ++ payload)

def ensure (good : Bool) (code : MoneyErrorCode) (detail : String) : Except MoneyError Unit :=
  if good then .ok () else .error ⟨code, detail⟩

def requireSome {α : Type} (value : Option α) (code : MoneyErrorCode) (detail : String) :
    Except MoneyError α :=
  match value with
  | some a => .ok a
  | none => .error ⟨code, detail⟩

def isCurrency (value : String) : Bool :=
  value.utf8ByteSize = 3 && value.toUTF8.data.toList.all fun byte => 0x41 ≤ byte && byte ≤ 0x5a

def accountMoney (currency : String) (amount : F) : Except MoneyError (AccountMoney F) := do
  ensure (isCurrency currency) .invalidMoney
    "execution economics V1: money currency must be exactly three uppercase ASCII letters"
  ensure (FloatOps.isFinite amount) .invalidMoney
    "execution economics V1: account-money amount must be finite"
  return ⟨currency, amount⟩

def requiredPositivePrice (label : String) (value : Option F) : Except MoneyError F :=
  requireSome (value.filter FloatOps.isPositive) .fillIdentityMismatch
    (label ++ " is missing, non-finite, or non-positive")

def brokerLotsFromWireVolume (volumeRawCentiUnits lotSizeRawCentiUnits : Int) :
    Except MoneyError F := do
  ensure (0 ≤ volumeRawCentiUnits && volumeRawCentiUnits ≤ MAX_EXACT_BROKER_VOLUME)
    .invalidFilledVolume
    "broker volume must be a nonnegative, exactly representable centi-unit integer"
  ensure (1 ≤ lotSizeRawCentiUnits && lotSizeRawCentiUnits ≤ MAX_EXACT_BROKER_VOLUME)
    .invalidContract
    "broker lotSize must be a positive, exactly representable centi-unit integer"
  return FloatOps.ofInt volumeRawCentiUnits / FloatOps.ofInt lotSizeRawCentiUnits

def buildBrokerDealMoneyEvidence (deal : BrokerDealWireSnapshot F)
    (volumeScale : BrokerSymbolVolumeScaleEvidence) (accountCurrency : String) :
    Except MoneyError (BrokerDealMoneyEvidence F) := do
  ensure (deal.environment = "demo" || deal.environment = "live") .invalidEnvironment
    "environment must be the canonical lowercase value `demo` or `live`"
  ensure (isCurrency accountCurrency) .invalidCurrency
    "account currency must be exactly three uppercase ASCII letters"
  ensure (deal.environment = volumeScale.environment && deal.accountId = volumeScale.accountId &&
      deal.symbolId = volumeScale.symbolId && deal.symbolName = volumeScale.symbolName)
    .fillIdentityMismatch
    "deal environment/account/symbol identity differs from exact broker volume scale"
  ensure (0 < deal.dealId && 0 < deal.orderId && 0 < deal.positionId &&
      0 < deal.executionTimestampMs && deal.dealStatus = "FILLED" &&
      (deal.tradeSide = "BUY" || deal.tradeSide = "SELL")) .fillIdentityMismatch
    "deal identifiers, status, side, or timestamp are invalid"
  if hvolume : 0 < deal.filledVolumeRawCentiUnits then do
    let moneyDigits ← requireSome deal.moneyDigits .invalidMoneyDigits
      "closing deal omitted its wire moneyDigits"
    ensure (moneyDigits ≤ 10) .invalidMoneyDigits
      "closing deal moneyDigits is outside the supported [0, 10] range"
    let gross ← requireSome deal.grossProfitRawScaled .missingGrossProfit
      "closing deal omitted gross profit"
    let commission ← requireSome deal.commissionRawScaledSigned .missingCommission
      "closing deal omitted commission"
    let swap ← requireSome deal.swapRawScaledSigned .missingSwap "closing deal omitted swap"
    let fee := deal.pnlConversionFee.rawScaledSigned
    match hsum : componentSum gross commission swap fee with
    | none => .error ⟨.invalidMoney, "signed broker money components overflow i64"⟩
    | some sum => do
      let executionPrice ← requiredPositivePrice "execution price" deal.executionPrice
      let entryPrice ← requiredPositivePrice "entry price" deal.entryPrice
      let divisor : F := FloatOps.Elementary.powi (FloatOps.lit 10) moneyDigits
      let contractUnitsPerLot : F :=
        FloatOps.ofInt volumeScale.lotSizeRawCentiUnits / FloatOps.lit 100
      let actualFilledLots ← brokerLotsFromWireVolume deal.filledVolumeRawCentiUnits
        volumeScale.lotSizeRawCentiUnits
      ensure (FloatOps.isPositive contractUnitsPerLot && FloatOps.isPositive actualFilledLots)
        .invalidFilledVolume
        "broker lotSize cannot resolve a finite positive actual fill in standard lots"
      return {
        environment := deal.environment
        accountId := deal.accountId
        dealId := deal.dealId
        orderId := deal.orderId
        positionId := deal.positionId
        symbolId := deal.symbolId
        symbolName := deal.symbolName
        tradeSide := deal.tradeSide
        filledVolumeRawCentiUnits := deal.filledVolumeRawCentiUnits
        contractUnitsPerLot
        actualFilledLots
        executionTimestampMs := deal.executionTimestampMs
        executionPrice
        entryPrice
        moneyDigits
        grossProfitRawScaled := gross
        commissionRawScaledSigned := commission
        swapRawScaledSigned := swap
        componentSumRawScaled := sum
        grossProfitAccountCurrency :=
          ← accountMoney accountCurrency (FloatOps.ofInt gross / divisor)
        commissionAccountCurrencySigned :=
          ← accountMoney accountCurrency (FloatOps.ofInt commission / divisor)
        swapAccountCurrencySigned :=
          ← accountMoney accountCurrency (FloatOps.ofInt swap / divisor)
        pnlConversionFeeState := deal.pnlConversionFee
        pnlConversionFeeAccountCurrencySigned :=
          ← accountMoney accountCurrency (FloatOps.ofInt fee / divisor)
        componentSumAccountCurrency :=
          ← accountMoney accountCurrency (FloatOps.ofInt sum / divisor)
        volumeScaleIdentitySha256 := volumeScale.volumeScaleIdentitySha256
        dealIdentitySha256 := dealIdentitySha256 digest deal accountCurrency moneyDigits gross
          commission swap volumeScale.volumeScaleIdentitySha256
        volume_pos := hvolume
        component_inRange := (componentSum_eq_some hsum).1 }
  else .error ⟨.invalidFilledVolume,
    "broker filled volume must be a positive raw centi-unit integer"⟩

theorem requireSome_ok_iff {α : Type} {value : Option α} {code : MoneyErrorCode} {detail : String}
    {a : α} : requireSome value code detail = .ok a ↔ value = some a := by
  cases value with
  | none => simp [requireSome]
  | some b => simp [requireSome]

open Fallible in
/-- The evidence of a deal has its volume and the exact sum of its money components. -/
theorem buildBrokerDealMoneyEvidence_ok {deal : BrokerDealWireSnapshot F}
    {volumeScale : BrokerSymbolVolumeScaleEvidence} {accountCurrency : String}
    {fill : BrokerDealMoneyEvidence F}
    (h : buildBrokerDealMoneyEvidence digest deal volumeScale accountCurrency = .ok fill) :
    fill.dealId = deal.dealId ∧ fill.filledVolumeRawCentiUnits = deal.filledVolumeRawCentiUnits ∧
      ∃ gross commission swap, deal.grossProfitRawScaled = some gross ∧
        deal.commissionRawScaledSigned = some commission ∧
        deal.swapRawScaledSigned = some swap ∧ fill.componentSumRawScaled =
          gross + commission + swap + deal.pnlConversionFee.rawScaledSigned := by
  unfold buildBrokerDealMoneyEvidence at h
  simp only [check_ok_iff] at h
  obtain ⟨-, -, -, -, h⟩ := h
  split at h
  next =>
    simp only [bind_ok_iff, requireSome_ok_iff] at h
    obtain ⟨_, -, _, -, gross, hgross, commission, hcommission, swap, hswap, h⟩ := h
    split at h
    next => cases h
    next sum hsum =>
      simp only [bind_ok_iff] at h
      obtain ⟨_, -, _, -, _, -, _, -, _, -, _, -, _, -, _, -, _, -, h⟩ := h
      obtain rfl := Except.ok.inj h
      exact ⟨rfl, rfl, gross, commission, swap, hgross, hcommission, hswap,
        (componentSum_eq_some hsum).2⟩
  next => cases h

end Build

inductive BrokerDealObservation
  | added
  | duplicate
  deriving DecidableEq

structure BrokerClosedPositionMoney (F : Type) where
  positionId : Int
  accountCurrency : String
  dealCount : Nat
  filledVolumeRawCentiUnits : Int
  moneyDigits : Nat
  componentSumRawScaled : Int
  actualFilledLots : F
  componentSumAccountCurrency : AccountMoney F

structure BrokerPositionMoneyAccumulator (F : Type) where
  environment : String
  accountId : Int
  positionId : Int
  symbolId : Int
  symbolName : String
  accountCurrency : String
  volumeScaleIdentitySha256 : String
  seenDealIds : Table Int String
  filledVolumeRawCentiUnits : Int
  moneyDigits : Nat
  componentSumRawScaled : Int
  actualFilledLots : F
  hasUnverifiedFill : Bool
  finalized : Bool

namespace BrokerPositionMoneyAccumulator

variable {F : Type} [FloatOps F]

def new (seed : BrokerDealMoneyEvidence F) : BrokerPositionMoneyAccumulator F where
  environment := seed.environment
  accountId := seed.accountId
  positionId := seed.positionId
  symbolId := seed.symbolId
  symbolName := seed.symbolName
  accountCurrency := seed.accountCurrency
  volumeScaleIdentitySha256 := seed.volumeScaleIdentitySha256
  seenDealIds := ∅
  filledVolumeRawCentiUnits := 0
  moneyDigits := seed.moneyDigits
  componentSumRawScaled := 0
  actualFilledLots := FloatOps.lit 0
  hasUnverifiedFill := false
  finalized := false

def Matches (self : BrokerPositionMoneyAccumulator F) (fill : BrokerDealMoneyEvidence F) : Prop :=
  fill.environment = self.environment ∧ fill.accountId = self.accountId ∧
    fill.positionId = self.positionId ∧ fill.symbolId = self.symbolId ∧
    fill.symbolName = self.symbolName ∧ fill.accountCurrency = self.accountCurrency ∧
    fill.volumeScaleIdentitySha256 = self.volumeScaleIdentitySha256 ∧
    fill.moneyDigits = self.moneyDigits

instance (self : BrokerPositionMoneyAccumulator F) (fill : BrokerDealMoneyEvidence F) :
    Decidable (self.Matches fill) :=
  inferInstanceAs (Decidable (_ ∧ _))

def observeFill (self : BrokerPositionMoneyAccumulator F) (fill : BrokerDealMoneyEvidence F) :
    Except MoneyError BrokerDealObservation × BrokerPositionMoneyAccumulator F :=
  if self.finalized then
    (.error ⟨.alreadyFinalized, "cannot append a fill after position money finalized"⟩, self)
  else if ¬self.Matches fill then
    (.error ⟨.fillIdentityMismatch,
      "partial-close fill identity differs from its position accumulator"⟩, self)
  else
    match self.seenDealIds.lookup fill.dealId with
    | some identity =>
      if identity = fill.dealIdentitySha256 then (.ok .duplicate, self)
      else (.error ⟨.duplicateDeal,
        "one broker deal id was observed with two different evidence identities"⟩, self)
    | none =>
      match I64.checkedAdd self.filledVolumeRawCentiUnits fill.filledVolumeRawCentiUnits with
      | none => (.error ⟨.invalidFilledVolume,
        "partial-close raw filled-volume sum overflowed i64"⟩, self)
      | some nextVolume =>
        let nextLots := self.actualFilledLots + fill.actualFilledLots
        match I64.checkedAdd self.componentSumRawScaled fill.componentSumRawScaled with
        | none => (.error ⟨.invalidMoney,
          "partial-close raw money-component sum overflowed i64"⟩, self)
        | some nextSum =>
          if !FloatOps.isFinite nextLots then
            (.error ⟨.invalidMoney, "partial-close accumulator overflowed finite lots"⟩, self)
          else
            (.ok .added, { self with
              seenDealIds := self.seenDealIds.insert fill.dealId fill.dealIdentitySha256
              filledVolumeRawCentiUnits := nextVolume
              actualFilledLots := nextLots
              componentSumRawScaled := nextSum })

def refuseUnverifiedFill (self : BrokerPositionMoneyAccumulator F) :
    BrokerPositionMoneyAccumulator F :=
  { self with hasUnverifiedFill := true }

def verifyCompleteFilledVolume (self : BrokerPositionMoneyAccumulator F) (expected : Int) :
    Except MoneyError Unit :=
  ensure (0 < expected && self.filledVolumeRawCentiUnits = expected) .filledVolumeMismatch
    ("verified closing fills total " ++ toString self.filledVolumeRawCentiUnits ++
      " raw centi-units; exact entry fill was " ++ toString expected)

def finalizeIfPositionClosed [FloatOps.Elementary F] (self : BrokerPositionMoneyAccumulator F)
    (positionStillOpen : Bool) :
    Except MoneyError (Option (BrokerClosedPositionMoney F)) × BrokerPositionMoneyAccumulator F :=
  if positionStillOpen then (.ok none, self)
  else if self.finalized then
    (.error ⟨.alreadyFinalized, "position money was already finalized"⟩, self)
  else if self.hasUnverifiedFill || self.seenDealIds.entries.isEmpty then
    (.error ⟨.unverifiedFill,
      "a flat broker position has missing or unverified close-fill money"⟩, self)
  else
    match accountMoney self.accountCurrency (FloatOps.ofInt self.componentSumRawScaled /
        FloatOps.Elementary.powi (FloatOps.lit 10) self.moneyDigits) with
    | .error e => (.error e, self)
    | .ok money =>
      (.ok (some {
        positionId := self.positionId
        accountCurrency := self.accountCurrency
        dealCount := self.seenDealIds.entries.length
        filledVolumeRawCentiUnits := self.filledVolumeRawCentiUnits
        moneyDigits := self.moneyDigits
        componentSumRawScaled := self.componentSumRawScaled
        actualFilledLots := self.actualFilledLots
        componentSumAccountCurrency := money }), { self with finalized := true })

end BrokerPositionMoneyAccumulator

end DealEconomics

end Neoethos
