import Neoethos.BrokerPartition
import Neoethos.Journal
import Neoethos.TrendbarPage

namespace Neoethos

open Fallible

inductive CTraderEnvironment
  | live
  | demo
  deriving DecidableEq

def CTraderEnvironment.tag : CTraderEnvironment → UInt8
  | .live => 1
  | .demo => 2

def CanonicalTimeframe.identityTag : CanonicalTimeframe → UInt8
  | .m1 => 1
  | .m2 => 2
  | .m3 => 3
  | .m4 => 4
  | .m5 => 5
  | .m10 => 6
  | .m15 => 7
  | .m30 => 8
  | .h1 => 9
  | .h4 => 10
  | .h12 => 11
  | .d1 => 12
  | .w1 => 13
  | .mn1 => 14

inductive BarTimestampConvention
  | barOpen
  | barClose
  | barEnd
  | unknown
  deriving DecidableEq

def BarTimestampConvention.identityTag : BarTimestampConvention → UInt8
  | .barOpen => 1
  | .barClose => 2
  | .barEnd => 3
  | .unknown => 4

inductive CanonicalDatasetScope
  | external (sourceNamespace : String)
  | cTrader (environment : CTraderEnvironment) (server : String) (accountId symbolId : Int)
  deriving DecidableEq

structure CanonicalDatasetIdentity where
  scope : CanonicalDatasetScope
  symbolName : String
  timeframe : CanonicalTimeframe
  barTimestampConvention : BarTimestampConvention
  deriving DecidableEq

/-- `to_be_bytes` of a number of so many bytes. -/
def bigEndian (width n : Nat) : List UInt8 :=
  (LittleEndian.encode width n).reverse

def pushText (value : String) : List UInt8 :=
  bigEndian 4 value.utf8ByteSize ++ utf8 value

def CanonicalDatasetIdentity.canonicalBytes (identity : CanonicalDatasetIdentity) : List UInt8 :=
  utf8 "neoethos.canonical-dataset-identity.v1\x00" ++ bigEndian 2 1 ++
    (match identity.scope with
      | .external sourceNamespace => 1 :: pushText sourceNamespace
      | .cTrader environment server accountId symbolId =>
        2 :: environment.tag :: pushText server ++ bigEndian 8 (accountId % 2 ^ 64).toNat ++
          bigEndian 8 (symbolId % 2 ^ 64).toNat) ++
    pushText identity.symbolName ++
    [identity.timeframe.identityTag, identity.barTimestampConvention.identityTag]

/-- `ALPHABET` at the lowest five bits. -/
def base32HexDigit (value : Nat) : Char :=
  let index := value % 32
  if index < 10 then Char.ofNat ('0'.toNat + index) else Char.ofNat ('a'.toNat + (index - 10))

/-- The digits of the highest of so many bits, five at a time. -/
def base32HexDigits (accumulator : Nat) : Nat → List Char
  | bits + 5 => base32HexDigit (accumulator >>> bits) :: base32HexDigits accumulator bits
  | _ => []

/-- The loop over the bytes, with the bits that are not encoded yet; the last digit is filled up
with zeros. -/
def encodeBase32HexFrom : Nat → Nat → List UInt8 → List Char
  | accumulator, bits, [] =>
    if 0 < bits then [base32HexDigit (accumulator <<< (5 - bits))] else []
  | accumulator, bits, byte :: bytes =>
    let accumulator := (accumulator <<< 8 ||| byte.toNat) % 2 ^ 32
    base32HexDigits accumulator (bits + 8) ++
      encodeBase32HexFrom accumulator ((bits + 8) % 5) bytes

def encodeBase32HexLower (bytes : List UInt8) : String :=
  String.ofList (encodeBase32HexFrom 0 0 bytes)

def CanonicalDatasetIdentity.toPathComponent (identity : CanonicalDatasetIdentity) : String :=
  "d1-" ++ encodeBase32HexLower identity.canonicalBytes

structure OosWindow where
  startMs : Int
  endMs : Int
  deriving DecidableEq

structure InSampleWindow where
  startMs : Int
  endExclusiveMs : Int
  deriving DecidableEq

structure DirectTimeframeReceipt where
  datasetIdentity : CanonicalDatasetIdentity
  manifestSchemaId : String
  manifestSha256 : List UInt8
  generationId : String
  vortexSha256 : List UInt8
  rowCount : Nat
  timestampStartMs : Int
  timestampEndMs : Int
  deriving DecidableEq

structure DatasetReceipt where
  schema : String
  anchorIdentity : CanonicalDatasetIdentity
  directTimeframes : List DirectTimeframeReceipt
  inSampleWindow : InSampleWindow
  oosWindow : OosWindow
  deriving DecidableEq

inductive ReceiptError
  | emptyManifestSchemaId
  | emptyGenerationId
  | noRows (identity : String)
  | invertedBounds (identity : String)
  | foreignSchema (schema : String)
  | emptyInSampleWindow
  | cutoffDiffers (endExclusiveMs oosStartMs : Int)
  | invertedOosWindow
  | noDirectTimeframes
  | outsideAnchorSeries (identity anchor : String)
  | repeatedTimeframe (timeframe : CanonicalTimeframe)
  | notInCanonicalOrder
  | noAnchorArtifact
  | outsideAnchorGeneration
  deriving DecidableEq

def DATASET_RECEIPT_SCHEMA : String := "neoethos.autoresearch.dataset-receipt.v1"

def DirectTimeframeReceipt.validate (direct : DirectTimeframeReceipt) : Except ReceiptError Unit := do
  refuse (trim direct.manifestSchemaId = "") .emptyManifestSchemaId
  refuse (trim direct.generationId = "") .emptyGenerationId
  refuse (direct.rowCount = 0) (.noRows direct.datasetIdentity.toPathComponent)
  refuse (¬direct.timestampStartMs ≤ direct.timestampEndMs)
    (.invertedBounds direct.datasetIdentity.toPathComponent)

/-- The loop over the direct timeframes, with the timeframes that it has seen, the encoding of the
one before and the anchor's artifact if it went by. -/
def DatasetReceipt.validateDirect (anchor : CanonicalDatasetIdentity) :
    List DirectTimeframeReceipt → List CanonicalTimeframe → Option String →
      Option DirectTimeframeReceipt → Except ReceiptError (Option DirectTimeframeReceipt)
  | [], _, _, anchorArtifact => .ok anchorArtifact
  | direct :: rest, seen, previous, anchorArtifact => do
    direct.validate
    let identity := direct.datasetIdentity
    let encoded := identity.toPathComponent
    refuse (¬(identity.scope = anchor.scope ∧ identity.symbolName = anchor.symbolName ∧
      identity.barTimestampConvention = anchor.barTimestampConvention))
      (.outsideAnchorSeries encoded anchor.toPathComponent)
    refuse (identity.timeframe ∈ seen) (.repeatedTimeframe identity.timeframe)
    refuse (∃ before ∈ previous, ¬before < encoded) .notInCanonicalOrder
    validateDirect anchor rest (identity.timeframe :: seen) (some encoded)
      (if identity = anchor then some direct else anchorArtifact)

def DatasetReceipt.validate (receipt : DatasetReceipt) : Except ReceiptError Unit := do
  refuse (receipt.schema ≠ DATASET_RECEIPT_SCHEMA) (.foreignSchema receipt.schema)
  refuse (¬receipt.inSampleWindow.startMs < receipt.inSampleWindow.endExclusiveMs)
    .emptyInSampleWindow
  refuse (receipt.inSampleWindow.endExclusiveMs ≠ receipt.oosWindow.startMs)
    (.cutoffDiffers receipt.inSampleWindow.endExclusiveMs receipt.oosWindow.startMs)
  refuse (¬receipt.oosWindow.startMs ≤ receipt.oosWindow.endMs) .invertedOosWindow
  refuse (receipt.directTimeframes = []) .noDirectTimeframes
  let found ← validateDirect receipt.anchorIdentity receipt.directTimeframes [] none none
  let anchorArtifact ← require found .noAnchorArtifact
  refuse (¬(anchorArtifact.timestampStartMs ≤ receipt.inSampleWindow.startMs ∧
    receipt.oosWindow.endMs ≤ anchorArtifact.timestampEndMs)) .outsideAnchorGeneration

end Neoethos
