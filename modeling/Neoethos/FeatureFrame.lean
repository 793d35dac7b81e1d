import Neoethos.Normalization

/-! `features.rs`: feature frames in memory, and the lazy row and column views over them. -/

namespace Neoethos

open Fallible (refuse require)

def USIZE_MAX : Nat := 2 ^ 64 - 1

/-- The source rows of a frame: a run from its origin on, or one id for each row. -/
inductive FeatureFrameRowIds
  | contiguous (origin : Nat)
  | explicit (ids : List Nat)
  deriving DecidableEq

inductive FeatureFrameError (F : Type)
  | timestamps (error : TimestampError)
  | noColumns
  | schemaDiffers
  | provenanceDiffers
  | rowReceiptOverflow
  | rowReceiptCount (ids rows : Nat)
  | rowReceiptOrder
  | columnCount
  | columnName (index : Nat)
  | columnRows (name : String) (length rows : Nat)
  | indexedReceipt
  | fitCount
  | normalizedTwice
  | rangeOutside (range : RowRange) (rows : Nat)
  | viewRowCount
  | columnOutside (column : Nat)
  | duplicateColumn (column : Nat)
  | emptyProjection
  | rawUnavailable
  | column (error : AlignmentError)
  | normalization (error : NormalizationError F)
  | emptyWindow
  | emptySelection
  | rowOutside (row rows : Nat)
  | rowOrder
  | timestampReceipt
  | columnReceipt
  | notRaw
  | missingColumn (name : String)
  | invalidPlan
  | panicked
  deriving DecidableEq

/-- The sealed plan and provenance of a frame, and what the frame asks of them. -/
structure FeatureAuthority (F A : Type) where
  finalOutputs : A → List String
  /-- The provenance is one of the plan. -/
  agrees : A → Bool
  /-- A node of the plan is a normalization. -/
  normalizes : A → Bool
  /-- The plan with other final outputs, and its provenance. -/
  select : A → List String → Option A
  /-- The plan with the normalization node of the state, and its provenance. -/
  normalized : A → SearchNormalizationFittedState F → Option A

structure FeatureFrameHead (F A : Type) where
  timestamps : List Int
  names : List String
  authority : A
  rowIds : FeatureFrameRowIds
  normalizationFittedState : Option (SearchNormalizationFittedState F)

inductive FeatureFrame (F A : Type)
  | inMemory (head : FeatureFrameHead F A) (columns : List (FeatureColumnF64 F))
  | view (head : FeatureFrameHead F A) (parent : FeatureFrame F A) (columnIndices : List Nat)
    (rowRange : RowRange) (normalization : Option (List (RobustNormalizationFitF64 F)))
    (rowIndices : Option (List Nat))

structure VortexFeatureBatch (F : Type) where
  timestamps : List Int
  rowIds : List Nat
  columns : List (FeatureColumnF64 F)
  deriving DecidableEq

def VortexFeatureBatch.extend {F : Type} (output source : VortexFeatureBatch F) :
    VortexFeatureBatch F where
  timestamps := output.timestamps ++ source.timestamps
  rowIds := output.rowIds ++ source.rowIds
  columns := List.zipWith (fun destination column => { destination with
    values := destination.values ++ column.values
    validity := destination.validity ++ column.validity }) output.columns source.columns

/-- The maximal runs of consecutive rows, as the readers of a row selection form them. -/
def runsFrom (start last : Nat) : List Nat → List RowRange
  | [] => [⟨start, last + 1⟩]
  | row :: rows =>
    if row = last + 1 then runsFrom start row rows
    else ⟨start, last + 1⟩ :: runsFrom row row rows

def consecutiveRuns : List Nat → List RowRange
  | [] => []
  | row :: rows => runsFrom row row rows

def isStrictlyIncreasing : List Nat → Bool
  | first :: second :: rows => first < second && isStrictlyIncreasing (second :: rows)
  | _ => true

namespace FeatureFrame

variable {F A : Type}

def head : FeatureFrame F A → FeatureFrameHead F A
  | inMemory head _ => head
  | view head _ _ _ _ _ => head

def isView : FeatureFrame F A → Bool
  | inMemory _ _ => false
  | view _ _ _ _ _ _ => true

def timestamps (frame : FeatureFrame F A) : List Int := frame.head.timestamps

def names (frame : FeatureFrame F A) : List String := frame.head.names

def nSamples (frame : FeatureFrame F A) : Nat := frame.timestamps.length

def nFeatures (frame : FeatureFrame F A) : Nat := frame.names.length

def allColumns (frame : FeatureFrame F A) : List Nat := List.range frame.nFeatures

def allRows (frame : FeatureFrame F A) : RowRange := ⟨0, frame.nSamples⟩

/-- The loop of `validate_projection`, with the columns that it has seen. -/
def checkColumns (features : Nat) : List Nat → List Nat → Except (FeatureFrameError F) Unit
  | _, [] => .ok ()
  | seen, column :: columns => do
    refuse (features ≤ column) (.columnOutside column)
    refuse (column ∈ seen) (.duplicateColumn column)
    checkColumns features (column :: seen) columns

def validateProjection (frame : FeatureFrame F A) (columns : List Nat) (range : RowRange) :
    Except (FeatureFrameError F) Unit := do
  refuse (columns = []) .emptyProjection
  refuse (¬(range.start ≤ range.stop ∧ range.stop ≤ frame.nSamples))
    (.rangeOutside range frame.nSamples)
  checkColumns frame.nFeatures [] columns

def rowIdsForRange (frame : FeatureFrame F A) (range : RowRange) :
    Except (FeatureFrameError F) (List Nat) :=
  match frame.head.rowIds with
  | .contiguous origin =>
    (List.range' range.start range.length).mapM fun row => do
      refuse (USIZE_MAX < origin + row) .rowReceiptOverflow
      return origin + row
  | .explicit ids => .ok (range.of ids)

def rowIdsForWindow (frame : FeatureFrame F A) (range : RowRange) :
    Except (FeatureFrameError F) FeatureFrameRowIds :=
  match frame.head.rowIds with
  | .contiguous origin => do
    refuse (USIZE_MAX < origin + range.start) .rowReceiptOverflow
    return .contiguous (origin + range.start)
  | .explicit ids => .ok (.explicit (range.of ids))

def checkRowIds (rows : Nat) : FeatureFrameRowIds → Except (FeatureFrameError F) Unit
  | .contiguous origin => refuse (USIZE_MAX < origin + rows) .rowReceiptOverflow
  | .explicit ids => do
    refuse (ids.length ≠ rows) (.rowReceiptCount ids.length rows)
    refuse (isStrictlyIncreasing ids = false) .rowReceiptOrder

def checkBacking (rows : Nat) : Nat → List String → List (FeatureColumnF64 F) →
    Except (FeatureFrameError F) Unit
  | index, name :: names, column :: columns => do
    refuse (column.name ≠ name) (.columnName index)
    refuse (column.values.length ≠ rows) (.columnRows column.name column.values.length rows)
    checkBacking rows (index + 1) names columns
  | _, _, _ => .ok ()

/-- The column map of a view, against the names of the view and of its parent. -/
def checkColumnMap (parentNames : List String) : List Nat → Nat → List String → List Nat →
    Except (FeatureFrameError F) Unit
  | seen, logical, name :: names, physical :: columns => do
    refuse (parentNames.length ≤ physical) (.columnOutside physical)
    refuse (physical ∈ seen) (.duplicateColumn physical)
    refuse (parentNames[physical]? ≠ some name) (.columnName logical)
    checkColumnMap parentNames (physical :: seen) (logical + 1) names columns
  | _, _, _, _ => .ok ()

def checkRowIndices (rows parentRows : Nat) : Option (List Nat) →
    Except (FeatureFrameError F) Unit
  | some indices => refuse (¬(indices.length = rows ∧ isStrictlyIncreasing indices = true ∧
      indices.getLast?.any (· < parentRows) = true)) .indexedReceipt
  | none => .ok ()

def checkFits (names : List String) (parent : FeatureFrame F A) :
    Option (List (RobustNormalizationFitF64 F)) → Except (FeatureFrameError F) Unit
  | some fits => do
    refuse (fits.length ≠ names.length) .fitCount
    refuse parent.head.normalizationFittedState.isSome .normalizedTwice
  | none => .ok ()

def validateBacking (frame : FeatureFrame F A) : Except (FeatureFrameError F) Unit := do
  checkRowIds frame.nSamples frame.head.rowIds
  match frame with
  | inMemory head columns =>
    refuse (columns.length ≠ head.names.length) .columnCount
    checkBacking head.timestamps.length 0 head.names columns
  | view head parent columnIndices rowRange normalization rowIndices =>
    checkRowIndices head.timestamps.length parent.nSamples rowIndices
    checkFits head.names parent normalization
    refuse (¬(rowRange.start ≤ rowRange.stop ∧ rowRange.stop ≤ parent.nSamples))
      (.rangeOutside rowRange parent.nSamples)
    refuse (rowRange.length ≠ head.timestamps.length) .viewRowCount
    refuse (columnIndices.length ≠ head.names.length) .columnCount
    checkColumnMap parent.names [] 0 head.names columnIndices

section Projection

variable [FloatOps F] (nan : F)

def newColumn (name : String) (values : List F) (validity : List FeatureCellValidity) :
    Except (FeatureFrameError F) (FeatureColumnF64 F) :=
  (FeatureColumnF64.new nan name values validity).mapError .column

def projectColumn (columns : List (FeatureColumnF64 F)) (range : RowRange) (index : Nat) :
    Except (FeatureFrameError F) (FeatureColumnF64 F) := do
  let column ← require columns[index]? .panicked
  newColumn nan column.name (range.of column.values) (range.of column.validity)

/-- The fits of a normalized view, each for the column under its logical index. -/
def applyFits (fits : List (RobustNormalizationFitF64 F)) (logical : List Nat)
    (columns : List (FeatureColumnF64 F)) :
    Except (FeatureFrameError F) (List (FeatureColumnF64 F)) :=
  (logical.zip columns).mapM fun (index, column) => do
    let fit ← require fits[index]? .panicked
    (applySearchNormalizationFit nan column fit).mapError .normalization

def projectColumnsMode (applyNormalization : Bool) : FeatureFrame F A → List Nat → RowRange →
    Except (FeatureFrameError F) (VortexFeatureBatch F)
  | inMemory head columns, columnIndices, rowRange => do
    validateProjection (inMemory head columns) columnIndices rowRange
    refuse (¬(applyNormalization = true ∨ head.normalizationFittedState = none)) .rawUnavailable
    let selected ← columnIndices.mapM (projectColumn nan columns rowRange)
    let rowIds ← rowIdsForRange (inMemory head columns) rowRange
    return ⟨rowRange.of head.timestamps, rowIds, selected⟩
  | view head parent viewColumns viewRows normalization rowIndices, columnIndices, rowRange => do
    validateProjection (view head parent viewColumns viewRows normalization rowIndices)
      columnIndices rowRange
    let physicalColumns ← columnIndices.mapM fun column => require viewColumns[column]? .panicked
    let batch ← match rowIndices with
      | some indices => do
        let columns ← physicalColumns.mapM fun column => do
          let name ← require parent.names[column]? .panicked
          newColumn nan name [] []
        let sources ← (consecutiveRuns (rowRange.of indices)).mapM fun run =>
          projectColumnsMode applyNormalization parent physicalColumns run
        pure (sources.foldl VortexFeatureBatch.extend ⟨[], [], columns⟩)
      | none =>
        projectColumnsMode applyNormalization parent physicalColumns
          ⟨viewRows.start + rowRange.start, viewRows.start + rowRange.stop⟩
    match normalization with
    | some fits =>
      if applyNormalization then do
        let columns ← applyFits nan fits columnIndices batch.columns
        return { batch with columns := columns }
      else return batch
    | none => return batch

def projectColumns (frame : FeatureFrame F A) (columnIndices : List Nat) (rowRange : RowRange) :
    Except (FeatureFrameError F) (VortexFeatureBatch F) :=
  frame.projectColumnsMode nan true columnIndices rowRange

/-- The original column of a name, as far as its raw values are still there. -/
def rawModelColumn (frame : FeatureFrame F A) (name : String) :
    Except (FeatureFrameError F) (FeatureColumnF64 F) := do
  let index ← require (frame.names.findIdx? (· = name)) (.missingColumn name)
  let batch ← frame.projectColumnsMode nan false [index] frame.allRows
  require batch.columns[0]? .panicked

end Projection

section Build

variable (authority : FeatureAuthority F A)

/-- `build_with_authority`. -/
def buildWithAuthority (frame : FeatureFrame F A) :
    Except (FeatureFrameError F) (FeatureFrame F A) := do
  (validateCanonicalMillisecondTimestamps frame.timestamps).mapError .timestamps
  refuse (frame.names = []) .noColumns
  refuse (frame.names ≠ authority.finalOutputs frame.head.authority) .schemaDiffers
  refuse (authority.agrees frame.head.authority = false) .provenanceDiffers
  validateBacking frame
  return frame

def fromColumns (timestamps : List Int) (columns : List (FeatureColumnF64 F)) (plan : A) :
    Except (FeatureFrameError F) (FeatureFrame F A) :=
  buildWithAuthority authority
    (inMemory ⟨timestamps, columns.map (·.name), plan, .contiguous 0, none⟩ columns)

def sharedView (frame : FeatureFrame F A) : Except (FeatureFrameError F) (FeatureFrame F A) :=
  buildWithAuthority authority
    (view frame.head frame frame.allColumns frame.allRows none none)

def sharedRowWindow (frame : FeatureFrame F A) (rows : RowRange) :
    Except (FeatureFrameError F) (FeatureFrame F A) := do
  refuse (¬(rows.start < rows.stop ∧ rows.stop ≤ frame.nSamples)) .emptyWindow
  refuse (frame.names ≠ authority.finalOutputs frame.head.authority) .schemaDiffers
  let timestamps := rows.of frame.timestamps
  (validateCanonicalMillisecondTimestamps timestamps).mapError .timestamps
  let rowIds ← frame.rowIdsForWindow rows
  let window := view { frame.head with timestamps := timestamps, rowIds := rowIds } frame
    frame.allColumns rows none none
  validateBacking window
  return window

def rowIdsForRows (frame : FeatureFrame F A) (rows : List Nat) :
    Except (FeatureFrameError F) (List Nat) :=
  rows.mapM fun row =>
    match frame.head.rowIds with
    | .contiguous origin => do
      refuse (USIZE_MAX < origin + row) .rowReceiptOverflow
      return origin + row
    | .explicit ids => require ids[row]? .panicked

def sharedSelectRows (frame : FeatureFrame F A) (indices : List Nat) :
    Except (FeatureFrameError F) (FeatureFrame F A) := do
  refuse (¬(indices ≠ [] ∧ isStrictlyIncreasing indices = true ∧
    indices.getLast?.any (· < frame.nSamples) = true)) .rowOrder
  let rowIds ← frame.rowIdsForRows indices
  let timestamps ← indices.mapM fun row => require frame.timestamps[row]? .panicked
  buildWithAuthority authority
    (view { frame.head with timestamps := timestamps, rowIds := .explicit rowIds } frame
      frame.allColumns ⟨0, indices.length⟩ none (some indices))

def lastIndex? (names : List String) (name : String) : Option Nat :=
  ((names.zipIdx.filter fun entry => entry.1 = name).getLast?).map (·.2)

def withFittedNormalization [FloatOps F] (frame : FeatureFrame F A)
    (state : SearchNormalizationFittedState F) :
    Except (FeatureFrameError F) (FeatureFrame F A) := do
  refuse (frame.head.normalizationFittedState.isSome ∨
    authority.normalizes frame.head.authority = true) .notRaw
  state.validate.mapError .normalization
  let columns ← state.columnNames.mapM fun name =>
    require (lastIndex? frame.names name) (.missingColumn name)
  let plan ← require (authority.normalized frame.head.authority state) .invalidPlan
  buildWithAuthority authority
    (view { frame.head with
        names := state.columnNames
        authority := plan
        normalizationFittedState := some state }
      frame columns frame.allRows (some state.fits) none)

def selectColumns (frame : FeatureFrame F A) (columnIndices : List Nat) :
    Except (FeatureFrameError F) (FeatureFrame F A) := do
  validateProjection frame columnIndices frame.allRows
  if frame.isView ∧ columnIndices = frame.allColumns then do
    refuse (frame.names ≠ authority.finalOutputs frame.head.authority) .schemaDiffers
    (validateCanonicalMillisecondTimestamps frame.timestamps).mapError .timestamps
    validateBacking frame
    return frame
  else do
    let names ← columnIndices.mapM fun column => require frame.names[column]? .panicked
    let plan ← require (authority.select frame.head.authority names) .invalidPlan
    buildWithAuthority authority
      (view { frame.head with names := names, authority := plan } frame columnIndices
        frame.allRows none none)

section Materialize

variable [FloatOps F] (nan : F)

def selectRun (frame : FeatureFrame F A) (run : RowRange) :
    Except (FeatureFrameError F) (VortexFeatureBatch F) := do
  let batch ← frame.projectColumns nan frame.allColumns run
  refuse (batch.timestamps ≠ run.of frame.timestamps) .timestampReceipt
  refuse (batch.columns.length ≠ frame.nFeatures) .columnReceipt
  return batch

def selectRows (frame : FeatureFrame F A) (rowIndices : List Nat) :
    Except (FeatureFrameError F) (FeatureFrame F A) := do
  refuse (rowIndices = []) .emptySelection
  forM rowIndices fun row => refuse (frame.nSamples ≤ row) (.rowOutside row frame.nSamples)
  refuse (isStrictlyIncreasing rowIndices = false) .rowOrder
  let runs ← (consecutiveRuns rowIndices).mapM (frame.selectRun nan)
  let selected := runs.foldl VortexFeatureBatch.extend
    ⟨[], [], frame.names.map fun name => ⟨name, [], []⟩⟩
  let columns ← selected.columns.mapM fun column =>
    newColumn nan column.name column.values column.validity
  buildWithAuthority authority
    (inMemory { frame.head with
        timestamps := selected.timestamps
        rowIds := .explicit selected.rowIds } columns)

/-- The rows from one to another, as far as the frame has them. -/
def clampRows (frame : FeatureFrame F A) (start stop : Nat) : RowRange :=
  let start := min start frame.nSamples
  ⟨start, max (min stop frame.nSamples) start⟩

def rowSlice (frame : FeatureFrame F A) (start stop : Nat) :
    Except (FeatureFrameError F) (FeatureFrame F A) := do
  let batch ← frame.projectColumns nan frame.allColumns (frame.clampRows start stop)
  buildWithAuthority authority
    (inMemory { frame.head with
        timestamps := batch.timestamps
        rowIds := .explicit batch.rowIds } batch.columns)

end Materialize

def rowWindow (frame : FeatureFrame F A) (start stop : Nat) :
    Except (FeatureFrameError F) (FeatureFrame F A) := do
  let rows := frame.clampRows start stop
  let rowIds ← frame.rowIdsForWindow rows
  buildWithAuthority authority
    (view { frame.head with timestamps := rows.of frame.timestamps, rowIds := rowIds } frame
      frame.allColumns rows none none)

end Build

end FeatureFrame

structure BoundFeatureColumnProjection (F A : Type) where
  source : FeatureFrame F A
  columnIndices : List Nat
  plan : A

section Bound

variable {F A : Type} (authority : FeatureAuthority F A)

def FeatureFrame.bindColumnProjection (frame : FeatureFrame F A) (columnIndices : List Nat) :
    Except (FeatureFrameError F) (BoundFeatureColumnProjection F A) := do
  refuse (frame.names ≠ authority.finalOutputs frame.head.authority) .schemaDiffers
  frame.validateBacking
  frame.validateProjection columnIndices frame.allRows
  if columnIndices = frame.allColumns then return ⟨frame, columnIndices, frame.head.authority⟩
  else do
    let names ← columnIndices.mapM fun column => require frame.names[column]? .panicked
    let plan ← require (authority.select frame.head.authority names) .invalidPlan
    return ⟨frame, columnIndices, plan⟩

def BoundFeatureColumnProjection.rowWindow (bound : BoundFeatureColumnProjection F A)
    (rows : RowRange) : Except (FeatureFrameError F) (FeatureFrame F A) := do
  refuse (¬(rows.start < rows.stop ∧ rows.stop ≤ bound.source.nSamples)) .emptyWindow
  let timestamps := rows.of bound.source.timestamps
  (validateCanonicalMillisecondTimestamps timestamps).mapError .timestamps
  let rowIds ← bound.source.rowIdsForWindow rows
  let window := FeatureFrame.view { bound.source.head with
      timestamps := timestamps
      names := authority.finalOutputs bound.plan
      authority := bound.plan
      rowIds := rowIds } bound.source bound.columnIndices rows none none
  window.validateBacking
  return window

end Bound

end Neoethos
