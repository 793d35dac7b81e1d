import Mathlib.Data.List.Sort
import Neoethos.DatasetReceipt

/-! `CanonicalTrendbarAcquisitionPlanV1`: the grid of broker generations that one acquisition
collects, and the identities of its cells. -/

namespace Neoethos

open Fallible (refuse require)

/-- `DatasetIdentityError`, with the data of its texts. -/
inductive DatasetIdentityError
  | emptyText (field : String)
  | longText (field : String) (bytes : Nat)
  | controlText (field : String)
  | notBarOpen (convention : BarTimestampConvention)
  | accountId
  | symbolId
  | pathLength (bytes : Nat)
  | notDecoded (message : String)
  deriving DecidableEq

def validateIdentityText (field value : String) : Except DatasetIdentityError Unit := do
  refuse (trim value = "") (.emptyText field)
  refuse (value.utf8ByteSize > 128) (.longText field value.utf8ByteSize)
  refuse (value.toList.any isControl = true) (.controlText field)

/-- `encoded_base32hex_len`. -/
def encodedBase32HexLength (bytes : Nat) : Nat := (bytes * 8 + 4) / 5

def CanonicalDatasetScope.validate : CanonicalDatasetScope → Except DatasetIdentityError Unit
  | .external sourceNamespace => validateIdentityText "external source namespace" sourceNamespace
  | .cTrader _ server accountId symbolId => do
    validateIdentityText "cTrader server" server
    refuse (accountId ≤ 0) .accountId
    refuse (symbolId ≤ 0) .symbolId

namespace CanonicalDatasetIdentity

def validate (identity : CanonicalDatasetIdentity) : Except DatasetIdentityError Unit := do
  validateIdentityText "symbol name" identity.symbolName
  refuse (identity.barTimestampConvention ≠ .barOpen)
    (.notBarOpen identity.barTimestampConvention)
  identity.scope.validate
  let pathLength := 3 + encodedBase32HexLength identity.canonicalBytes.length
  refuse (pathLength > 240) (.pathLength pathLength)

def ctrader (environment : CTraderEnvironment) (server : String) (accountId symbolId : Int)
    (symbolName : String) (timeframe : CanonicalTimeframe)
    (barTimestampConvention : BarTimestampConvention) :
    Except DatasetIdentityError CanonicalDatasetIdentity := do
  let identity : CanonicalDatasetIdentity :=
    ⟨.cTrader environment server accountId symbolId, symbolName, timeframe,
      barTimestampConvention⟩
  identity.validate
  return identity

end CanonicalDatasetIdentity

/-- The errors of the acquisition authority; each carries what its text shows. -/
inductive AcquisitionError
  | symbolIdNotPositive
  | symbolName (name : String)
  | server
  | accountId
  | lowerBound
  | upperBound
  | symbolCount
  | timeframeSet
  | repeatedSymbol
  | symbolOrder
  | timeframeOrder
  | oversizedJson
  | encoding (message : String)
  | decoding (message : String)
  | unsupportedSchema (schema : String) (version : Nat)
  | pagingPolicy
  | environment (value : String)
  | timeframe (value : String)
  | planNotInCanonicalOrder
  | notCanonicalJson
  | identity (error : DatasetIdentityError)
  | identityRoundTrip
  | generationId (value : String)
  | manifestBinding
  | receipt (schema : String) (version : Nat)
  | missingContent
  | oversizedContent
  | notWritten
  | collision
  | contentChanged
  | digestDiffers
  | planIdentityDiffers
  | planNotReopened
  | otherPlan
  | extraCells
  | outsidePlan
  | cellIdentity
  | cellNotOpened (message : String)
  | cellProvenance
  | otherPreviousPlan
  | notExtending
  | incomplete
  | noAnchor
  | noDirectTimeframes
  | otherSeries (timeframe anchor : CanonicalTimeframe)
  | repeatedTimeframe (timeframe : CanonicalTimeframe)
  | seriesOrder
  | anchorDiffers
  | noExactAnchor
  | noSeries
  | matrixDiffers
  deriving DecidableEq

structure CanonicalTrendbarSymbol where
  symbolId : Int
  symbolName : String
  deriving DecidableEq

namespace CanonicalTrendbarSymbol

def validate (symbol : CanonicalTrendbarSymbol) : Except AcquisitionError Unit := do
  refuse (symbol.symbolId ≤ 0) .symbolIdNotPositive
  refuse (trim symbol.symbolName = "" ∨ symbol.symbolName.utf8ByteSize > 64 ∨
    symbol.symbolName.toList.any isControl = true) (.symbolName symbol.symbolName)

def new (symbolId : Int) (symbolName : String) :
    Except AcquisitionError CanonicalTrendbarSymbol := do
  let symbol : CanonicalTrendbarSymbol := ⟨symbolId, symbolName⟩
  symbol.validate
  return symbol

def Precedes (left right : CanonicalTrendbarSymbol) : Prop :=
  left.symbolName < right.symbolName ∨
    left.symbolName = right.symbolName ∧ left.symbolId < right.symbolId

instance (left right : CanonicalTrendbarSymbol) : Decidable (left.Precedes right) :=
  inferInstanceAs (Decidable (_ ∨ _))

end CanonicalTrendbarSymbol

def CanonicalTimeframe.rank (timeframe : CanonicalTimeframe) : Nat := timeframe.identityTag.toNat

def CTraderEnvironment.asStr : CTraderEnvironment → String
  | .live => "live"
  | .demo => "demo"

def parseEnvironment (value : String) : Except AcquisitionError CTraderEnvironment :=
  if value = "demo" then .ok .demo
  else if value = "live" then .ok .live
  else .error (.environment value)

structure CanonicalTrendbarAcquisitionPlan where
  environment : CTraderEnvironment
  server : String
  accountId : Int
  fromMs : Int
  toMsExclusive : Int
  symbols : List CanonicalTrendbarSymbol
  timeframes : List CanonicalTimeframe
  deriving DecidableEq

structure CanonicalTrendbarAcquisitionPlanWire where
  schema : String
  version : Nat
  environment : String
  server : String
  accountId : Int
  fromMs : Int
  toMsExclusive : Int
  pagingPolicyId : String
  symbols : List CanonicalTrendbarSymbol
  timeframes : List String
  deriving DecidableEq

def CANONICAL_TRENDBAR_SERIES_FROM_MS : Int := 1451606400000

def CANONICAL_TRENDBAR_PAGING_POLICY : String := "ctrader.trendbars.oldest-exclusive.has-more.v1"

def PLAN_SCHEMA : String := "neoethos.canonical-trendbar-acquisition-plan.v1"

def CONTRACT_VERSION : Nat := 1

def MAX_AUTHORITY_BYTES : Nat := 32 * 1024 * 1024

def MAX_SYMBOLS : Nat := 512

/-- A byte of an endpoint: a lower case letter, a digit, a point or a hyphen. -/
def isServerByte (byte : UInt8) : Bool :=
  (97 ≤ byte && byte ≤ 122) || (48 ≤ byte && byte ≤ 57) || byte == 46 || byte == 45

/-- The loop of `validate` over the symbols, with the ids and names seen and the symbol before. -/
def checkSymbols : List Int → List String → Option CanonicalTrendbarSymbol →
    List CanonicalTrendbarSymbol → Except AcquisitionError Unit
  | _, _, _, [] => .ok ()
  | symbolIds, symbolNames, previousSymbol, symbol :: symbols => do
    symbol.validate
    refuse (symbol.symbolId ∈ symbolIds ∨ symbol.symbolName ∈ symbolNames) .repeatedSymbol
    refuse (∃ previous ∈ previousSymbol, ¬previous.Precedes symbol) .symbolOrder
    checkSymbols (symbol.symbolId :: symbolIds) (symbol.symbolName :: symbolNames) (some symbol)
      symbols

def checkTimeframes : Option CanonicalTimeframe → List CanonicalTimeframe →
    Except AcquisitionError Unit
  | _, [] => .ok ()
  | previousTimeframe, timeframe :: timeframes => do
    refuse (∃ previous ∈ previousTimeframe, timeframe.rank ≤ previous.rank) .timeframeOrder
    checkTimeframes (some timeframe) timeframes

namespace CanonicalTrendbarAcquisitionPlan

def validate (plan : CanonicalTrendbarAcquisitionPlan) : Except AcquisitionError Unit := do
  refuse (plan.server = "" ∨ plan.server.utf8ByteSize > 255 ∨
    (utf8 plan.server).all isServerByte = false) .server
  refuse (plan.accountId ≤ 0) .accountId
  refuse (plan.fromMs ≠ CANONICAL_TRENDBAR_SERIES_FROM_MS) .lowerBound
  refuse (plan.toMsExclusive ≤ plan.fromMs) .upperBound
  refuse (plan.symbols = [] ∨ plan.symbols.length > MAX_SYMBOLS) .symbolCount
  refuse (plan.timeframes = [] ∨ plan.timeframes.length > CanonicalTimeframe.all.length)
    .timeframeSet
  checkSymbols [] [] none plan.symbols
  checkTimeframes none plan.timeframes

def new (environment : CTraderEnvironment) (server : String)
    (accountId fromMs toMsExclusive : Int) (symbols : List CanonicalTrendbarSymbol)
    (timeframes : List CanonicalTimeframe) :
    Except AcquisitionError CanonicalTrendbarAcquisitionPlan := do
  let plan : CanonicalTrendbarAcquisitionPlan :=
    ⟨environment, server, accountId, fromMs, toMsExclusive,
      symbols.insertionSort fun left right => ¬right.Precedes left,
      timeframes.insertionSort fun left right => left.rank ≤ right.rank⟩
  plan.validate
  return plan

def cellCount (plan : CanonicalTrendbarAcquisitionPlan) : Nat :=
  plan.symbols.length * plan.timeframes.length

def toWire (plan : CanonicalTrendbarAcquisitionPlan) : CanonicalTrendbarAcquisitionPlanWire :=
  ⟨PLAN_SCHEMA, CONTRACT_VERSION, plan.environment.asStr, plan.server, plan.accountId, plan.fromMs,
    plan.toMsExclusive, CANONICAL_TRENDBAR_PAGING_POLICY, plan.symbols,
    plan.timeframes.map CanonicalTimeframe.asStr⟩

def expectedCell (plan : CanonicalTrendbarAcquisitionPlan) (index : Nat) :
    Option (CanonicalTrendbarSymbol × CanonicalTimeframe) :=
  if plan.timeframes = [] then none
  else do
    let symbol ← plan.symbols[index / plan.timeframes.length]?
    let timeframe ← plan.timeframes[index % plan.timeframes.length]?
    return (symbol, timeframe)

def expectedIdentity (plan : CanonicalTrendbarAcquisitionPlan) (symbol : CanonicalTrendbarSymbol)
    (timeframe : CanonicalTimeframe) : Except AcquisitionError CanonicalDatasetIdentity :=
  (CanonicalDatasetIdentity.ctrader plan.environment plan.server plan.accountId symbol.symbolId
    symbol.symbolName timeframe .barOpen).mapError .identity

def grid (plan : CanonicalTrendbarAcquisitionPlan) :
    List (CanonicalTrendbarSymbol × CanonicalTimeframe) :=
  plan.symbols.flatMap fun symbol => plan.timeframes.map (symbol, ·)

end CanonicalTrendbarAcquisitionPlan

end Neoethos
