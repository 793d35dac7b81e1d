import Mathlib.Logic.Function.Basic
import Neoethos.AcquisitionPlan

/-! `CanonicalTrendbarAcquisitionStoreV1`: plans, checkpoints and matrices as immutable files that
are named by the digest of their content. -/

namespace Neoethos

open Fallible (refuse require)

structure SelectedDatasetGeneration where
  identity : CanonicalDatasetIdentity
  generationId : String
  manifestBindingSha256 : String
  deriving DecidableEq

structure SelectedDatasetGenerationWire where
  schema : String
  version : Nat
  datasetIdentity : String
  generationId : String
  manifestBindingSha256 : String
  deriving DecidableEq

structure CanonicalTrendbarAcquisitionCell where
  selectedGeneration : SelectedDatasetGeneration
  deriving DecidableEq

structure CanonicalDatasetSeriesReceipt where
  anchor : SelectedDatasetGeneration
  directTimeframes : List SelectedDatasetGeneration
  deriving DecidableEq

structure CanonicalDatasetSeriesReceiptWire where
  schema : String
  version : Nat
  anchor : SelectedDatasetGenerationWire
  directTimeframes : List SelectedDatasetGenerationWire
  deriving DecidableEq

/-- `D` is the type of the digests, the strings that `validate_sha256` accepts. -/
structure CanonicalTrendbarAcquisitionCheckpoint (D : Type) where
  planSha256 : D
  previousCheckpointSha256 : Option D
  completedCells : List CanonicalTrendbarAcquisitionCell
  deriving DecidableEq

structure CanonicalTrendbarAcquisitionCheckpointWire (D : Type) where
  schema : String
  version : Nat
  planSha256 : D
  previousCheckpointSha256 : Option D
  completedCells : List SelectedDatasetGenerationWire
  deriving DecidableEq

structure CanonicalTrendbarMatrix (D : Type) where
  planSha256 : D
  checkpointSha256 : D
  series : List CanonicalDatasetSeriesReceipt
  deriving DecidableEq

structure CanonicalTrendbarMatrixWire (D : Type) where
  schema : String
  version : Nat
  planSha256 : D
  checkpointSha256 : D
  series : List CanonicalDatasetSeriesReceiptWire
  deriving DecidableEq

inductive ContentKind
  | plan
  | checkpoint
  | matrix
  deriving DecidableEq

def ContentKind.receiptSchema : ContentKind → String
  | .plan => "neoethos.canonical-trendbar-plan-receipt.v1"
  | .checkpoint => "neoethos.canonical-trendbar-checkpoint-receipt.v1"
  | .matrix => "neoethos.canonical-trendbar-matrix-receipt.v1"

def ContentKind.hashDomain : ContentKind → List UInt8
  | .plan => utf8 "neoethos.canonical-trendbar-plan.v1\x00"
  | .checkpoint => utf8 "neoethos.canonical-trendbar-checkpoint.v1\x00"
  | .matrix => utf8 "neoethos.canonical-trendbar-matrix.v1\x00"

structure ContentReceipt (D : Type) where
  schema : String
  version : Nat
  sha256 : D
  deriving DecidableEq

def ContentReceipt.validate {D : Type} (kind : ContentKind) (receipt : ContentReceipt D) :
    Except AcquisitionError Unit :=
  refuse (receipt.schema ≠ kind.receiptSchema ∨ receipt.version ≠ CONTRACT_VERSION)
    (.receipt receipt.schema receipt.version)

/-- The `new` of the receipts. -/
def ContentReceipt.of {D : Type} (kind : ContentKind) (sha256 : D) : ContentReceipt D :=
  ⟨kind.receiptSchema, CONTRACT_VERSION, sha256⟩

/-- SHA-256, the JSON of the three documents, and the decoder of the paths of identities. -/
structure AcquisitionCodec (D : Type) where
  sha256 : List UInt8 → D
  encodePlan : CanonicalTrendbarAcquisitionPlanWire → Except String (List UInt8)
  decodePlan : List UInt8 → Except String CanonicalTrendbarAcquisitionPlanWire
  encodeCheckpoint : CanonicalTrendbarAcquisitionCheckpointWire D → Except String (List UInt8)
  decodeCheckpoint : List UInt8 → Except String (CanonicalTrendbarAcquisitionCheckpointWire D)
  encodeMatrix : CanonicalTrendbarMatrixWire D → Except String (List UInt8)
  decodeMatrix : List UInt8 → Except String (CanonicalTrendbarMatrixWire D)
  fromPathComponent : String → Except DatasetIdentityError CanonicalDatasetIdentity

def SELECTED_GENERATION_SCHEMA : String := "neoethos.selected-dataset-generation.v1"

def DATASET_SERIES_RECEIPT_SCHEMA : String := "neoethos.canonical-dataset-series-receipt.v1"

def CHECKPOINT_SCHEMA : String := "neoethos.canonical-trendbar-acquisition-checkpoint.v1"

def MATRIX_SCHEMA : String := "neoethos.canonical-trendbar-matrix.v1"

def isLowercaseHex64 (value : String) : Bool :=
  (utf8 value).length == 64 && (utf8 value).all isLowercaseHexByte

def isGenerationId (value : String) : Bool :=
  (("g1-".toList.isPrefixOf? value.toList).bind ".vortex".toList.isSuffixOf?).any fun hash =>
    isLowercaseHex64 (String.ofList hash)

section Documents

variable {D : Type} (codec : AcquisitionCodec D)

/-- `domain_sha256`. -/
def domainSha256 (kind : ContentKind) (bytes : List UInt8) : D :=
  codec.sha256 (kind.hashDomain ++ bytes)

def ensureBounded (bytes : List UInt8) : Except AcquisitionError Unit :=
  refuse (bytes.length > MAX_AUTHORITY_BYTES) .oversizedJson

namespace SelectedDatasetGeneration

def validate (receipt : SelectedDatasetGeneration) : Except AcquisitionError Unit := do
  let decoded ← (codec.fromPathComponent receipt.identity.toPathComponent).mapError .identity
  refuse (decoded ≠ receipt.identity) .identityRoundTrip
  refuse (isGenerationId receipt.generationId = false) (.generationId receipt.generationId)
  refuse (isLowercaseHex64 receipt.manifestBindingSha256 = false) .manifestBinding

def new (identity : CanonicalDatasetIdentity) (generationId manifestBindingSha256 : String) :
    Except AcquisitionError SelectedDatasetGeneration := do
  let receipt : SelectedDatasetGeneration := ⟨identity, generationId, manifestBindingSha256⟩
  receipt.validate codec
  return receipt

def serialize (receipt : SelectedDatasetGeneration) :
    Except AcquisitionError SelectedDatasetGenerationWire := do
  receipt.validate codec
  return ⟨SELECTED_GENERATION_SCHEMA, 1, receipt.identity.toPathComponent, receipt.generationId,
    receipt.manifestBindingSha256⟩

def deserialize (wire : SelectedDatasetGenerationWire) :
    Except AcquisitionError SelectedDatasetGeneration := do
  refuse (wire.schema ≠ SELECTED_GENERATION_SCHEMA ∨ wire.version ≠ 1)
    (.unsupportedSchema wire.schema wire.version)
  let identity ← (codec.fromPathComponent wire.datasetIdentity).mapError .identity
  new codec identity wire.generationId wire.manifestBindingSha256

end SelectedDatasetGeneration

def CanonicalTrendbarAcquisitionCell.new (selectedGeneration : SelectedDatasetGeneration) :
    Except AcquisitionError CanonicalTrendbarAcquisitionCell := do
  selectedGeneration.validate codec
  return ⟨selectedGeneration⟩

namespace CanonicalDatasetSeriesReceipt

/-- The loop of `validate`, with the timeframes seen, the one before and whether the anchor went
by. -/
def checkDirect (anchor : SelectedDatasetGeneration) : List CanonicalTimeframe →
    Option CanonicalTimeframe → Bool → List SelectedDatasetGeneration → Except AcquisitionError Bool
  | _, _, containsExactAnchor, [] => .ok containsExactAnchor
  | seen, previous, containsExactAnchor, direct :: rest => do
    direct.validate codec
    let identity := direct.identity
    refuse (¬(identity.scope = anchor.identity.scope ∧
      identity.symbolName = anchor.identity.symbolName ∧
      identity.barTimestampConvention = anchor.identity.barTimestampConvention))
      (.otherSeries identity.timeframe anchor.identity.timeframe)
    refuse (identity.timeframe ∈ seen) (.repeatedTimeframe identity.timeframe)
    refuse (∃ before ∈ previous, identity.timeframe.rank ≤ before.rank) .seriesOrder
    refuse (identity = anchor.identity ∧ direct ≠ anchor) .anchorDiffers
    checkDirect anchor (identity.timeframe :: seen) (some identity.timeframe)
      (containsExactAnchor || identity = anchor.identity) rest

def validate (receipt : CanonicalDatasetSeriesReceipt) : Except AcquisitionError Unit := do
  receipt.anchor.validate codec
  refuse (receipt.directTimeframes = []) .noDirectTimeframes
  let containsExactAnchor ← checkDirect codec receipt.anchor [] none false receipt.directTimeframes
  refuse (containsExactAnchor = false) .noExactAnchor

def new (anchor : SelectedDatasetGeneration) (directTimeframes : List SelectedDatasetGeneration) :
    Except AcquisitionError CanonicalDatasetSeriesReceipt := do
  let receipt : CanonicalDatasetSeriesReceipt :=
    ⟨anchor, directTimeframes.insertionSort fun left right =>
      left.identity.timeframe.rank ≤ right.identity.timeframe.rank⟩
  receipt.validate codec
  return receipt

def serialize (receipt : CanonicalDatasetSeriesReceipt) :
    Except AcquisitionError CanonicalDatasetSeriesReceiptWire := do
  receipt.validate codec
  let anchor ← receipt.anchor.serialize codec
  let directTimeframes ← receipt.directTimeframes.mapM (·.serialize codec)
  return ⟨DATASET_SERIES_RECEIPT_SCHEMA, 1, anchor, directTimeframes⟩

def deserialize (wire : CanonicalDatasetSeriesReceiptWire) :
    Except AcquisitionError CanonicalDatasetSeriesReceipt := do
  let anchor ← SelectedDatasetGeneration.deserialize codec wire.anchor
  let originalOrder ← wire.directTimeframes.mapM (SelectedDatasetGeneration.deserialize codec)
  refuse (wire.schema ≠ DATASET_SERIES_RECEIPT_SCHEMA ∨ wire.version ≠ 1)
    (.unsupportedSchema wire.schema wire.version)
  let receipt ← new codec anchor originalOrder
  refuse (receipt.directTimeframes ≠ originalOrder) .seriesOrder
  return receipt

end CanonicalDatasetSeriesReceipt

namespace CanonicalTrendbarAcquisitionPlan

def toJsonBytes (plan : CanonicalTrendbarAcquisitionPlan) :
    Except AcquisitionError (List UInt8) := do
  plan.validate
  (codec.encodePlan plan.toWire).mapError .encoding

def fromJsonBytes (bytes : List UInt8) :
    Except AcquisitionError CanonicalTrendbarAcquisitionPlan := do
  ensureBounded bytes
  let wire ← (codec.decodePlan bytes).mapError .decoding
  refuse (wire.schema ≠ PLAN_SCHEMA ∨ wire.version ≠ CONTRACT_VERSION)
    (.unsupportedSchema wire.schema wire.version)
  refuse (wire.pagingPolicyId ≠ CANONICAL_TRENDBAR_PAGING_POLICY) .pagingPolicy
  let environment ← parseEnvironment wire.environment
  let originalTimeframes ← wire.timeframes.mapM fun value =>
    require (CanonicalTimeframe.fromStr value) (.timeframe value)
  let plan ← new environment wire.server wire.accountId wire.fromMs wire.toMsExclusive wire.symbols
    originalTimeframes
  refuse (plan.symbols ≠ wire.symbols ∨ plan.timeframes ≠ originalTimeframes)
    .planNotInCanonicalOrder
  let encoded ← plan.toJsonBytes codec
  refuse (encoded ≠ bytes) .notCanonicalJson
  return plan

def identitySha256 (plan : CanonicalTrendbarAcquisitionPlan) : Except AcquisitionError D := do
  let bytes ← plan.toJsonBytes codec
  return domainSha256 codec .plan bytes

end CanonicalTrendbarAcquisitionPlan

namespace CanonicalTrendbarAcquisitionCheckpoint

def validateBasic (checkpoint : CanonicalTrendbarAcquisitionCheckpoint D) :
    Except AcquisitionError Unit :=
  forM checkpoint.completedCells fun cell => cell.selectedGeneration.validate codec

def new (planSha256 : D) (previousCheckpointSha256 : Option D)
    (completedCells : List CanonicalTrendbarAcquisitionCell) :
    Except AcquisitionError (CanonicalTrendbarAcquisitionCheckpoint D) := do
  let checkpoint : CanonicalTrendbarAcquisitionCheckpoint D :=
    ⟨planSha256, previousCheckpointSha256, completedCells⟩
  checkpoint.validateBasic codec
  return checkpoint

def toJsonBytes (checkpoint : CanonicalTrendbarAcquisitionCheckpoint D) :
    Except AcquisitionError (List UInt8) := do
  checkpoint.validateBasic codec
  let completedCells ← checkpoint.completedCells.mapM fun cell =>
    cell.selectedGeneration.serialize codec
  (codec.encodeCheckpoint ⟨CHECKPOINT_SCHEMA, CONTRACT_VERSION, checkpoint.planSha256,
    checkpoint.previousCheckpointSha256, completedCells⟩).mapError .encoding

def fromJsonBytes (bytes : List UInt8) :
    Except AcquisitionError (CanonicalTrendbarAcquisitionCheckpoint D) := do
  ensureBounded bytes
  let wire ← (codec.decodeCheckpoint bytes).mapError .decoding
  let completedCells ← wire.completedCells.mapM fun cell =>
    (SelectedDatasetGeneration.deserialize codec cell).map CanonicalTrendbarAcquisitionCell.mk
  refuse (wire.schema ≠ CHECKPOINT_SCHEMA ∨ wire.version ≠ CONTRACT_VERSION)
    (.unsupportedSchema wire.schema wire.version)
  let checkpoint ← new codec wire.planSha256 wire.previousCheckpointSha256 completedCells
  let encoded ← checkpoint.toJsonBytes codec
  refuse (encoded ≠ bytes) .notCanonicalJson
  return checkpoint

def nextCell [DecidableEq D] (checkpoint : CanonicalTrendbarAcquisitionCheckpoint D)
    (plan : CanonicalTrendbarAcquisitionPlan) :
    Except AcquisitionError (Option (CanonicalTrendbarSymbol × CanonicalTimeframe)) := do
  let identity ← plan.identitySha256 codec
  refuse (identity ≠ checkpoint.planSha256) .otherPlan
  return plan.expectedCell checkpoint.completedCells.length

end CanonicalTrendbarAcquisitionCheckpoint

namespace CanonicalTrendbarMatrix

def validateBasic (matrix : CanonicalTrendbarMatrix D) : Except AcquisitionError Unit := do
  refuse (matrix.series = []) .noSeries
  forM matrix.series fun series => series.validate codec

def new (planSha256 checkpointSha256 : D) (series : List CanonicalDatasetSeriesReceipt) :
    Except AcquisitionError (CanonicalTrendbarMatrix D) := do
  let matrix : CanonicalTrendbarMatrix D := ⟨planSha256, checkpointSha256, series⟩
  matrix.validateBasic codec
  return matrix

def toJsonBytes (matrix : CanonicalTrendbarMatrix D) : Except AcquisitionError (List UInt8) := do
  matrix.validateBasic codec
  let series ← matrix.series.mapM (·.serialize codec)
  (codec.encodeMatrix ⟨MATRIX_SCHEMA, CONTRACT_VERSION, matrix.planSha256, matrix.checkpointSha256,
    series⟩).mapError .encoding

def fromJsonBytes (bytes : List UInt8) : Except AcquisitionError (CanonicalTrendbarMatrix D) := do
  ensureBounded bytes
  let wire ← (codec.decodeMatrix bytes).mapError .decoding
  let series ← wire.series.mapM (CanonicalDatasetSeriesReceipt.deserialize codec)
  refuse (wire.schema ≠ MATRIX_SCHEMA ∨ wire.version ≠ CONTRACT_VERSION)
    (.unsupportedSchema wire.schema wire.version)
  let matrix ← new codec wire.planSha256 wire.checkpointSha256 series
  let encoded ← matrix.toJsonBytes codec
  refuse (encoded ≠ bytes) .notCanonicalJson
  return matrix

end CanonicalTrendbarMatrix

end Documents

/-- What `open_exact_dataset_generation` and the provenance of its manifest show. -/
structure OpenedGeneration where
  datasetIdentity : CanonicalDatasetIdentity
  requestedRangeMs : Int × Int
  provenanceRowCount : Nat
  rowCount : Nat
  deriving DecidableEq

abbrev DataRoot := SelectedDatasetGeneration → Except String OpenedGeneration

def validateCompletedCell (dataRoot : DataRoot) (plan : CanonicalTrendbarAcquisitionPlan)
    (symbol : CanonicalTrendbarSymbol) (timeframe : CanonicalTimeframe)
    (cell : CanonicalTrendbarAcquisitionCell) : Except AcquisitionError Unit := do
  let expectedIdentity ← plan.expectedIdentity symbol timeframe
  refuse (cell.selectedGeneration.identity ≠ expectedIdentity) .cellIdentity
  let opened ← (dataRoot cell.selectedGeneration).mapError .cellNotOpened
  refuse (opened.datasetIdentity ≠ expectedIdentity ∨
    opened.requestedRangeMs ≠ (plan.fromMs, plan.toMsExclusive) ∨
    opened.provenanceRowCount ≠ opened.rowCount) .cellProvenance

/-- The files of the root, by the prefix and the digest in their names. -/
abbrev AcquisitionStore (D : Type) := ContentKind × D → Option (List UInt8)

section Store

variable {D : Type} [DecidableEq D] (codec : AcquisitionCodec D)

def readContent (store : AcquisitionStore D) (kind : ContentKind) (sha256 : D) :
    Except AcquisitionError (List UInt8) := do
  let bytes ← require (store (kind, sha256)) .missingContent
  refuse (bytes.length > MAX_AUTHORITY_BYTES) .oversizedContent
  return bytes

/-- `publish_content`; `writes` says whether the file system lets the staged file be written and
renamed. -/
def publishContent (writes : Bool) (store : AcquisitionStore D) (kind : ContentKind) (sha256 : D)
    (bytes : List UInt8) : AcquisitionStore D × Except AcquisitionError Unit :=
  match store (kind, sha256) with
  | some _ => (store, do
      let present ← readContent store kind sha256
      refuse (present ≠ bytes) .collision)
  | none =>
    if writes then
      let written := Function.update store (kind, sha256) (some bytes)
      (written, do
        let present ← readContent written kind sha256
        refuse (present ≠ bytes) .contentChanged)
    else (store, .error .notWritten)

def openPlan (store : AcquisitionStore D) (receipt : ContentReceipt D) :
    Except AcquisitionError CanonicalTrendbarAcquisitionPlan := do
  receipt.validate .plan
  let bytes ← readContent store .plan receipt.sha256
  refuse (domainSha256 codec .plan bytes ≠ receipt.sha256) .digestDiffers
  let plan ← CanonicalTrendbarAcquisitionPlan.fromJsonBytes codec bytes
  let identity ← plan.identitySha256 codec
  refuse (identity ≠ receipt.sha256) .planIdentityDiffers
  return plan

def readCheckpoint (store : AcquisitionStore D) (sha256 : D) :
    Except AcquisitionError (CanonicalTrendbarAcquisitionCheckpoint D) := do
  let bytes ← readContent store .checkpoint sha256
  refuse (domainSha256 codec .checkpoint bytes ≠ sha256) .digestDiffers
  CanonicalTrendbarAcquisitionCheckpoint.fromJsonBytes codec bytes

/-- The part of `validate_checkpoint` on the exact predecessor. -/
def checkPredecessor (store : AcquisitionStore D) (planReceipt : ContentReceipt D)
    (checkpoint : CanonicalTrendbarAcquisitionCheckpoint D) : Except AcquisitionError Unit :=
  match checkpoint.previousCheckpointSha256 with
  | none => .ok ()
  | some previousSha256 => do
    let previous ← readCheckpoint codec store previousSha256
    refuse (previous.planSha256 ≠ planReceipt.sha256) .otherPreviousPlan
    refuse (checkpoint.completedCells.length ≤ previous.completedCells.length ∨
      ¬previous.completedCells <+: checkpoint.completedCells) .notExtending

def validateCheckpoint (dataRoot : DataRoot) (store : AcquisitionStore D)
    (planReceipt : ContentReceipt D) (plan : CanonicalTrendbarAcquisitionPlan)
    (checkpoint : CanonicalTrendbarAcquisitionCheckpoint D) : Except AcquisitionError Unit := do
  refuse (checkpoint.planSha256 ≠ planReceipt.sha256) .otherPlan
  refuse (checkpoint.completedCells.length > plan.cellCount) .extraCells
  forM checkpoint.completedCells.zipIdx fun (cell, index) => do
    let (symbol, timeframe) ← require (plan.expectedCell index) .outsidePlan
    validateCompletedCell dataRoot plan symbol timeframe cell
  checkPredecessor codec store planReceipt checkpoint

def openCheckpoint (dataRoot : DataRoot) (store : AcquisitionStore D)
    (planReceipt receipt : ContentReceipt D) :
    Except AcquisitionError (CanonicalTrendbarAcquisitionCheckpoint D) := do
  receipt.validate .checkpoint
  let plan ← openPlan codec store planReceipt
  let checkpoint ← readCheckpoint codec store receipt.sha256
  validateCheckpoint codec dataRoot store planReceipt plan checkpoint
  return checkpoint

def buildSeries (plan : CanonicalTrendbarAcquisitionPlan)
    (checkpoint : CanonicalTrendbarAcquisitionCheckpoint D) (symbolIndex : Nat) :
    Except AcquisitionError CanonicalDatasetSeriesReceipt := do
  let start := symbolIndex * plan.timeframes.length
  let direct := ((checkpoint.completedCells.drop start).take plan.timeframes.length).map
    (·.selectedGeneration)
  let anchor ← require direct.head? .noAnchor
  CanonicalDatasetSeriesReceipt.new codec anchor direct

def buildMatrix (planReceipt checkpointReceipt : ContentReceipt D)
    (plan : CanonicalTrendbarAcquisitionPlan)
    (checkpoint : CanonicalTrendbarAcquisitionCheckpoint D) :
    Except AcquisitionError (CanonicalTrendbarMatrix D) := do
  refuse (checkpoint.completedCells.length ≠ plan.cellCount) .incomplete
  let series ← (List.range plan.symbols.length).mapM (buildSeries codec plan checkpoint)
  CanonicalTrendbarMatrix.new codec planReceipt.sha256 checkpointReceipt.sha256 series

def openMatrix (dataRoot : DataRoot) (store : AcquisitionStore D)
    (planReceipt receipt : ContentReceipt D) :
    Except AcquisitionError (CanonicalTrendbarMatrix D) := do
  receipt.validate .matrix
  let bytes ← readContent store .matrix receipt.sha256
  refuse (domainSha256 codec .matrix bytes ≠ receipt.sha256) .digestDiffers
  let matrix ← CanonicalTrendbarMatrix.fromJsonBytes codec bytes
  refuse (matrix.planSha256 ≠ planReceipt.sha256) .otherPlan
  let checkpointReceipt := ContentReceipt.of .checkpoint matrix.checkpointSha256
  let plan ← openPlan codec store planReceipt
  let checkpoint ← openCheckpoint codec dataRoot store planReceipt checkpointReceipt
  let expected ← buildMatrix codec planReceipt checkpointReceipt plan checkpoint
  refuse (matrix ≠ expected) .matrixDiffers
  return matrix

/-- What the three publications share: a document is prepared, written under its digest and
reopened. -/
def publishDocument (writes : Bool) (kind : ContentKind)
    (prepare : Except AcquisitionError (List UInt8))
    (reopen : AcquisitionStore D → ContentReceipt D → Except AcquisitionError Unit)
    (store : AcquisitionStore D) :
    AcquisitionStore D × Except AcquisitionError (ContentReceipt D) :=
  match prepare with
  | .error error => (store, .error error)
  | .ok bytes =>
    let receipt := ContentReceipt.of kind (domainSha256 codec kind bytes)
    let (store, published) := publishContent writes store kind receipt.sha256 bytes
    (store, do
      published
      reopen store receipt
      return receipt)

def publishPlan (writes : Bool) (store : AcquisitionStore D)
    (plan : CanonicalTrendbarAcquisitionPlan) :
    AcquisitionStore D × Except AcquisitionError (ContentReceipt D) :=
  publishDocument codec writes .plan (plan.toJsonBytes codec) (fun store receipt => do
    let reopened ← openPlan codec store receipt
    refuse (reopened ≠ plan) .planNotReopened) store

/-- `publish_checkpoint`; the data root may change between the check and the reopening. -/
def publishCheckpoint (writes : Bool) (before after : DataRoot) (store : AcquisitionStore D)
    (planReceipt : ContentReceipt D) (previous : Option (ContentReceipt D))
    (completedCells : List CanonicalTrendbarAcquisitionCell) :
    AcquisitionStore D × Except AcquisitionError (ContentReceipt D) :=
  publishDocument codec writes .checkpoint (do
    let plan ← openPlan codec store planReceipt
    let checkpoint ← CanonicalTrendbarAcquisitionCheckpoint.new codec planReceipt.sha256
      (previous.map (·.sha256)) completedCells
    validateCheckpoint codec before store planReceipt plan checkpoint
    checkpoint.toJsonBytes codec) (fun store receipt => do
    let _ ← openCheckpoint codec after store planReceipt receipt) store

def publishMatrix (writes : Bool) (before after : DataRoot) (store : AcquisitionStore D)
    (planReceipt checkpointReceipt : ContentReceipt D) :
    AcquisitionStore D × Except AcquisitionError (ContentReceipt D) :=
  publishDocument codec writes .matrix (do
    let plan ← openPlan codec store planReceipt
    let checkpoint ← openCheckpoint codec before store planReceipt checkpointReceipt
    let matrix ← buildMatrix codec planReceipt checkpointReceipt plan checkpoint
    matrix.toJsonBytes codec) (fun store receipt => do
    let _ ← openMatrix codec after store planReceipt receipt) store

/-- A call, with what the file system and the data root answer to it. -/
inductive AcquisitionCall (D : Type)
  | publishPlan (writes : Bool) (plan : CanonicalTrendbarAcquisitionPlan)
  | publishCheckpoint (writes : Bool) (before after : DataRoot) (planReceipt : ContentReceipt D)
    (previous : Option (ContentReceipt D)) (completedCells : List CanonicalTrendbarAcquisitionCell)
  | publishMatrix (writes : Bool) (before after : DataRoot)
    (planReceipt checkpointReceipt : ContentReceipt D)

def AcquisitionCall.run (store : AcquisitionStore D) :
    AcquisitionCall D → AcquisitionStore D × Except AcquisitionError (ContentReceipt D)
  | publishPlan writes plan => Neoethos.publishPlan codec writes store plan
  | publishCheckpoint writes before after planReceipt previous completedCells =>
    Neoethos.publishCheckpoint codec writes before after store planReceipt previous completedCells
  | publishMatrix writes before after planReceipt checkpointReceipt =>
    Neoethos.publishMatrix codec writes before after store planReceipt checkpointReceipt

def runAcquisition (calls : List (AcquisitionCall D)) : AcquisitionStore D :=
  calls.foldl (fun store call => (call.run codec store).1) fun _ => none

end Store

end Neoethos
