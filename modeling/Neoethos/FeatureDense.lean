import Neoethos.FeatureSteps

namespace Neoethos

open Fallible (refuse require bind_ok_iff check_ok_iff mapError_ok_iff refuse_ok_iff require_ok_iff
  mapM_ok_iff)
open Selection (pick Within)

def U64_MAX : Nat := 2 ^ 64 - 1

def ISIZE_MAX : Nat := 2 ^ 63 - 1

inductive DenseWindowError (F : Type)
  | frame (error : FeatureFrameError F)
  | cellCount
  | valueCapacity
  | byteCount
  | fixedBytes
  | columnBytes
  | batchBytes
  | projectionRefused (rows minimum budget available : Nat)
  | destinationRefused (rows columns needed available : Nat)
  | reservation
  | shape
  | panicked
  | unfinished

def denseWindowDestinationLayout {F : Type} (rows columns : Nat) :
    Except (DenseWindowError F) (Nat × Nat) := do
  let cells := rows * columns
  refuse (USIZE_MAX < cells) .cellCount
  let valueBytes := cells * 8
  refuse (USIZE_MAX < valueBytes ∨ ISIZE_MAX < valueBytes) .valueCapacity
  refuse (USIZE_MAX < cells + valueBytes) .byteCount
  return (cells, cells + valueBytes)

structure AdaptiveFeatureProjectionPlan where
  columnsPerBatch : Nat
  concurrentBatches : Nat
  budgetBytes : Nat
  estimatedBytesPerBatch : Nat
  deriving DecidableEq

def FEATURE_PROJECTION_MAX_BUDGET_BYTES : Nat := 2 * 1024 * 1024 * 1024

def FEATURE_PROJECTION_BYTES_PER_ROW_FIXED : Nat := 16

def FEATURE_PROJECTION_BYTES_PER_CELL : Nat := 16

def FEATURE_PROJECTION_BATCH_OVERHEAD_BYTES : Nat := 1024 * 1024

def adaptiveFeatureProjectionPlanForAvailableMemory {F : Type}
    (rowCount columnCount requestedConcurrency availableMemoryBytes : Nat) :
    Except (DenseWindowError F) AdaptiveFeatureProjectionPlan :=
  if columnCount = 0 then .ok ⟨0, 0, 0, 0⟩
  else do
    let budgetBytes := min (availableMemoryBytes / 3) FEATURE_PROJECTION_MAX_BUDGET_BYTES
    let fixedBytes := rowCount * FEATURE_PROJECTION_BYTES_PER_ROW_FIXED +
      FEATURE_PROJECTION_BATCH_OVERHEAD_BYTES
    refuse (U64_MAX < fixedBytes) .fixedBytes
    refuse (U64_MAX < rowCount * FEATURE_PROJECTION_BYTES_PER_CELL) .columnBytes
    let bytesPerColumn := max (rowCount * FEATURE_PROJECTION_BYTES_PER_CELL) 1
    let minimumBatchBytes := fixedBytes + bytesPerColumn
    refuse (U64_MAX < minimumBatchBytes) .batchBytes
    refuse (budgetBytes < minimumBatchBytes)
      (.projectionRefused rowCount minimumBatchBytes budgetBytes availableMemoryBytes)
    let requestedConcurrency := min (max requestedConcurrency 1) columnCount
    let concurrentBatches := min requestedConcurrency (budgetBytes / minimumBatchBytes)
    let perBatchBudget := budgetBytes / concurrentBatches
    let columnsPerBatch := min ((perBatchBudget - fixedBytes) / bytesPerColumn)
      ((columnCount + concurrentBatches - 1) / concurrentBatches)
    return ⟨columnsPerBatch, concurrentBatches, budgetBytes,
      fixedBytes + bytesPerColumn * columnsPerBatch⟩

theorem adaptivePlan_positive {F : Type} {rows columns workers available : Nat}
    {plan : AdaptiveFeatureProjectionPlan} (hcolumns : 0 < columns)
    (h : adaptiveFeatureProjectionPlanForAvailableMemory (F := F) rows columns workers available =
      .ok plan) : 0 < plan.columnsPerBatch ∧ 0 < plan.concurrentBatches := by
  unfold adaptiveFeatureProjectionPlanForAvailableMemory at h
  rw [if_neg (by omega)] at h
  rw [check_ok_iff, check_ok_iff, check_ok_iff, check_ok_iff] at h
  obtain ⟨-, -, -, hbudget, h⟩ := h
  obtain rfl := Except.ok.inj h
  rw [refuse_ok_iff, not_lt] at hbudget
  dsimp only
  generalize min (available / 3) FEATURE_PROJECTION_MAX_BUDGET_BYTES = budget at hbudget ⊢
  generalize rows * FEATURE_PROJECTION_BYTES_PER_ROW_FIXED +
    FEATURE_PROJECTION_BATCH_OVERHEAD_BYTES = fixed at hbudget ⊢
  have hcolumn : 0 < max (rows * FEATURE_PROJECTION_BYTES_PER_CELL) 1 := by omega
  generalize max (rows * FEATURE_PROJECTION_BYTES_PER_CELL) 1 = perColumn at hbudget hcolumn ⊢
  have haffordable : 0 < budget / (fixed + perColumn) := Nat.div_pos hbudget (by omega)
  have hconcurrent : 0 < min (min (max workers 1) columns) (budget / (fixed + perColumn)) := by
    omega
  have hfits : min (min (max workers 1) columns) (budget / (fixed + perColumn)) ≤
      budget / (fixed + perColumn) := Nat.min_le_right _ _
  generalize min (min (max workers 1) columns) (budget / (fixed + perColumn)) = concurrent at *
  -- What each batch may take still holds the smallest one.
  have hbatch : fixed + perColumn ≤ budget / concurrent := by
    rw [Nat.le_div_iff_mul_le hconcurrent, Nat.mul_comm]
    exact (Nat.le_div_iff_mul_le (by omega)).mp hfits
  have hwidth : 0 < (budget / concurrent - fixed) / perColumn := Nat.div_pos (by omega) hcolumn
  have huseful : 0 < (columns + concurrent - 1) / concurrent :=
    Nat.div_pos (by omega) hconcurrent
  exact ⟨by omega, hconcurrent⟩

structure FeatureDenseMatrixF64 (F : Type) where
  rows : Nat
  columns : Nat
  values : List F
  validity : List FeatureCellValidity
  deriving DecidableEq

def FeatureDenseMatrixF64.fromShapeVec {F : Type} (rows columns : Nat)
    (cells : List (FeatureCellF64 F)) : Except (DenseWindowError F) (FeatureDenseMatrixF64 F) := do
  refuse (cells.length ≠ rows * columns) .shape
  return ⟨rows, columns, cells.map (·.value), cells.map (·.validity)⟩

/-- What the machine has left: its workers, the headroom at each reading, and which reservations
it grants. -/
structure DenseHost where
  workers : Nat
  headroom : Nat → Nat
  reserves : Nat → Bool

/-- The chunks of a width, with their indices; the fuel is the length of the list. -/
def parChunks {α : Type} (width : Nat) : Nat → Nat → List α → List (Nat × List α)
  | 0, _, _ => []
  | fuel + 1, index, items =>
    if items = [] then []
    else (index, items.take width) :: parChunks width fuel (index + 1) (items.drop width)

def writeCells {α : Type} : List α → Nat → List α → Option (List α)
  | destination, _, [] => some destination
  | destination, index, cell :: cells =>
    if index < destination.length then writeCells (destination.set index cell) (index + 1) cells
    else none

section Waves

variable {F A : Type}

def VortexFeatureBatch.cellsAt (row : Nat) (batch : VortexFeatureBatch F) :
    Option (List (FeatureCellF64 F)) :=
  batch.columns.mapM fun column => column.cells[row]?

def writeBatch (row : Nat) (destination : List (FeatureCellF64 F))
    (projected : Nat × VortexFeatureBatch F) : Option (List (FeatureCellF64 F)) := do
  let cells ← projected.2.cellsAt row
  writeCells destination projected.1 cells

def writeRow (projected : List (Nat × VortexFeatureBatch F)) (row : Nat)
    (destination : List (FeatureCellF64 F)) : Option (List (FeatureCellF64 F)) :=
  projected.foldlM (writeBatch row) destination

def writeWave (projected : List (Nat × VortexFeatureBatch F))
    (destination : List (List (FeatureCellF64 F))) : Option (List (List (FeatureCellF64 F))) :=
  destination.zipIdx.mapM fun (line, row) => writeRow projected row line

variable [FloatOps F] (nan : F)

namespace FeatureFrame

def projectWave (frame : FeatureFrame F A) (range : RowRange) (firstColumn waveEnd width : Nat) :
    Except (DenseWindowError F) (List (Nat × VortexFeatureBatch F)) := do
  refuse (width = 0) .panicked
  let selected := RowRange.of ⟨firstColumn, waveEnd⟩ frame.allColumns
  (parChunks width selected.length 0 selected).mapM fun (batchIndex, columns) => do
    let batch ← (frame.projectColumns nan columns range).mapError .frame
    return (firstColumn + batchIndex * width, batch)

/-- The waves from a column on; each but the last is planned on a headroom of its own. -/
def denseWaves (frame : FeatureFrame F A) (range : RowRange) (host : DenseHost) :
    Nat → Nat → Nat → AdaptiveFeatureProjectionPlan → List (List (FeatureCellF64 F)) →
    Except (DenseWindowError F) (List (List (FeatureCellF64 F)))
  | 0, _, firstColumn, _, destination => do
    refuse (firstColumn < frame.nFeatures) .unfinished
    return destination
  | fuel + 1, reading, firstColumn, plan, destination =>
    if firstColumn < frame.nFeatures then do
      let waveEnd := min (firstColumn + plan.columnsPerBatch * plan.concurrentBatches)
        frame.nFeatures
      let projected ← frame.projectWave nan range firstColumn waveEnd plan.columnsPerBatch
      let destination ← require (writeWave projected destination) .panicked
      let plan ← (if waveEnd < frame.nFeatures then
          adaptiveFeatureProjectionPlanForAvailableMemory range.length
            (frame.nFeatures - waveEnd) host.workers (host.headroom reading)
        else .ok plan)
      frame.denseWaves range host fuel (reading + 1) waveEnd plan destination
    else .ok destination

def denseWindow (frame : FeatureFrame F A) (host : DenseHost) (start stop : Nat) :
    Except (DenseWindowError F) (FeatureDenseMatrixF64 F) := do
  let range : RowRange := ⟨start, stop⟩
  (frame.validateProjection frame.allColumns range).mapError .frame
  let rows := stop - start
  let (_, destinationBytes) ← denseWindowDestinationLayout rows frame.nFeatures
  if rows = 0 then FeatureDenseMatrixF64.fromShapeVec 0 frame.nFeatures []
  else do
    let available := host.headroom 0
    refuse (available < destinationBytes)
      (.destinationRefused rows frame.nFeatures destinationBytes available)
    let plan ← adaptiveFeatureProjectionPlanForAvailableMemory rows frame.nFeatures host.workers
      (available - destinationBytes)
    refuse (host.reserves 0 = false) .reservation
    refuse (host.reserves 1 = false) .reservation
    let empty := List.replicate rows
      (List.replicate frame.nFeatures ⟨nan, .alignmentMissing⟩)
    let destination ← frame.denseWaves nan range host frame.nFeatures 1 0 plan empty
    FeatureDenseMatrixF64.fromShapeVec rows frame.nFeatures destination.flatten

end FeatureFrame

end Waves

end Neoethos
