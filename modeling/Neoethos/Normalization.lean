import Mathlib.Data.List.Sort
import Neoethos.FeatureAlignment
import Neoethos.TrendbarPage

/-! `normalization.rs`: the fit of a feature column on its training rows, and its replay. -/

namespace Neoethos

open Fallible (refuse require)

inductive SmcGateDomain
  | binary
  | signedState
  | signedContinuous
  deriving DecidableEq

/-- `str::split_once` on a character. -/
def splitOnce (separator : Char) (text : String) : Option (String × String) :=
  match text.toList.span (· ≠ separator) with
  | (front, _ :: back) => some (String.ofList front, String.ofList back)
  | (_, []) => none

/-- The gate inputs of the SMC producer, and their direct copies of a higher timeframe. -/
def smcGateDomain (name : String) : Option SmcGateDomain := do
  let canonical := (name.map Char.toLower).map fun c => if c = '-' ∨ c = ' ' then '_' else c
  let base ←
    if canonical.startsWith "smc_" then some canonical
    else do
      let (timeframe, feature) ← splitOnce '_' canonical
      let _ ← CanonicalTimeframe.fromStr (timeframe.map Char.toUpper)
      some feature
  if base ∈ ["smc_eqh", "smc_eql"] then some .binary
  else if base ∈ ["smc_trend_bias", "smc_trend"] then some .signedContinuous
  else if base ∈ ["smc_ob", "smc_fvg", "smc_liq_sweep", "smc_liq", "smc_pd_array", "smc_premium",
    "smc_inducement", "smc_bos", "smc_mss", "smc_choch", "smc_displacement"] then some .signedState
  else none

structure RowRange where
  start : Nat
  stop : Nat
  deriving DecidableEq

def RowRange.length (rows : RowRange) : Nat := rows.stop - rows.start

def RowRange.of {α : Type*} (rows : RowRange) (xs : List α) : List α :=
  (xs.drop rows.start).take rows.length

structure RobustNormalizationFitF64 (F : Type) where
  trainingRows : RowRange
  median : F
  scale : F
  validTrainingCells : Nat
  degenerate : Bool
  deriving DecidableEq

structure FeatureCellF64 (F : Type) where
  value : F
  validity : FeatureCellValidity
  deriving DecidableEq

inductive NormalizationError (F : Type)
  | rangeOutside (name : String) (trainingRows : RowRange) (length : Nat)
  | invalidState (name : String) (row : Nat) (value : F)
  | noValidCells (name : String) (trainingRows : RowRange)
  | validNotFinite (name : String) (row : Nat)
  | unsupportedSemantics
  | fitCount
  | duplicateOrEmptyName
  | invalidScope (name : String)
  | invalidLocation (name : String)
  | notIdentity (name : String)
  | differentRange (name : String)
  | emptyProjection
  | duplicateProjection (name : String)
  | noFit (name : String)
  | columnLength
  | rawNotFinite (name : String)
  | rawState (name : String) (value : F)
  deriving DecidableEq

section Cells

variable {F : Type}

/-- The cells of a column, whose values and validity are of one length. -/
def FeatureColumnF64.cells (column : FeatureColumnF64 F) : List (FeatureCellF64 F) :=
  List.zipWith FeatureCellF64.mk column.values column.validity

def FeatureColumnF64.withCells (column : FeatureColumnF64 F) (cells : List (FeatureCellF64 F)) :
    FeatureColumnF64 F :=
  { column with values := cells.map (·.value), validity := cells.map (·.validity) }

end Cells

section Fit

variable {F : Type} [FloatOps F]

def Z_CLIP_F64 : F := FloatOps.lit 10

def MAD_TO_SIGMA_F64 : F := FloatOps.lit (14826 / 10000)

/-- `f64::EPSILON`. -/
def F64_EPSILON : F := FloatOps.lit (1 / 2 ^ 52)

def clip (value : F) : F := FloatOps.clamp value (-Z_CLIP_F64) Z_CLIP_F64

def SmcGateDomain.contains (domain : SmcGateDomain) (value : F) : Bool :=
  match domain with
  | .binary => FloatOps.eq value (FloatOps.lit 0) || FloatOps.eq value (FloatOps.lit 1)
  | .signedState => FloatOps.eq value (FloatOps.lit (-1)) || FloatOps.eq value (FloatOps.lit 0) ||
      FloatOps.eq value (FloatOps.lit 1)
  | .signedContinuous => true

/-- The first loop of `normalize_search_feature_column_f64`: every valid cell is a raw state; the
valid ones of the training rows are counted. -/
def countGateCells (name : String) (domain : SmcGateDomain) (trainingRows : RowRange) :
    Nat → List (FeatureCellF64 F) → Except (NormalizationError F) Nat
  | _, [] => .ok 0
  | row, cell :: cells =>
    if cell.validity.isValid then do
      refuse ((FloatOps.isFinite cell.value && domain.contains cell.value) = false)
        (.invalidState name row cell.value)
      let count ← countGateCells name domain trainingRows (row + 1) cells
      return if trainingRows.start ≤ row ∧ row < trainingRows.stop then count + 1 else count
    else countGateCells name domain trainingRows (row + 1) cells

def trainingValues (name : String) :
    Nat → List (FeatureCellF64 F) → Except (NormalizationError F) (List F)
  | _, [] => .ok []
  | row, cell :: cells =>
    if cell.validity.isValid then do
      refuse (FloatOps.isFinite cell.value = false) (.validNotFinite name row)
      let values ← trainingValues name (row + 1) cells
      return cell.value :: values
    else trainingValues name (row + 1) cells

def medianSortedF64 (sorted : List F) : F :=
  let mid := sorted.length / 2
  let at_ (index : Nat) : F := sorted[index]?.getD (FloatOps.lit 0)
  if sorted.length % 2 = 0 then
    at_ (mid - 1) * FloatOps.lit (1 / 2) + at_ mid * FloatOps.lit (1 / 2)
  else at_ mid

/-- The median and the scale of the values, and whether they are constant. -/
def robustFit [FloatOps.Valued F] (trainingRows : RowRange) (values : List F) :
    RobustNormalizationFitF64 F :=
  let sorted (xs : List F) := xs.insertionSort fun a b => (FloatOps.Valued.totalCmp a b).isLE
  let trainingValues := sorted values
  let median := medianSortedF64 trainingValues
  let deviations := sorted (trainingValues.map fun value => FloatOps.abs (value - median))
  let madScale := medianSortedF64 deviations * MAD_TO_SIGMA_F64
  let maxAbs := trainingValues.foldl (fun acc value => FloatOps.max acc (FloatOps.abs value))
    (FloatOps.lit 0)
  let scaleFloor := FloatOps.lit 32 * F64_EPSILON * FloatOps.max maxAbs (FloatOps.lit 1)
  let count : F := FloatOps.ofInt trainingValues.length
  let scale :=
    if FloatOps.lt scaleFloor madScale then madScale
    else
      let mean := FloatOps.sum trainingValues / count
      FloatOps.sqrt (FloatOps.sum (trainingValues.map fun value =>
        let delta := value - mean
        delta * delta) / count)
  { trainingRows
    median
    scale
    validTrainingCells := trainingValues.length
    degenerate := !FloatOps.isFinite scale || FloatOps.le scale scaleFloor }

variable (nan : F)

def normalizeFeatureColumnF64 [FloatOps.Valued F] (column : FeatureColumnF64 F)
    (trainingRows : RowRange) :
    Except (NormalizationError F) (RobustNormalizationFitF64 F × FeatureColumnF64 F) := do
  refuse (trainingRows.stop ≤ trainingRows.start ∨ column.values.length < trainingRows.stop)
    (.rangeOutside column.name trainingRows column.values.length)
  let values ← trainingValues column.name trainingRows.start (trainingRows.of column.cells)
  refuse (values = []) (.noValidCells column.name trainingRows)
  let fit := robustFit trainingRows values
  let cells :=
    if fit.degenerate then
      column.cells.map fun cell =>
        if cell.validity.isValid then ⟨nan, .degenerate⟩ else cell
    else
      column.cells.map fun cell =>
        if !cell.validity.isValid then ⟨nan, cell.validity⟩
        else
          let normalized := (cell.value - fit.median) / fit.scale
          if FloatOps.isFinite normalized then ⟨clip normalized, cell.validity⟩
          else ⟨nan, .nonFinite⟩
  return (fit, column.withCells cells)

def normalizeSearchFeatureColumnF64 [FloatOps.Valued F] (column : FeatureColumnF64 F)
    (trainingRows : RowRange) :
    Except (NormalizationError F) (RobustNormalizationFitF64 F × FeatureColumnF64 F) :=
  match smcGateDomain column.name with
  | none => normalizeFeatureColumnF64 nan column trainingRows
  | some domain => do
    refuse (trainingRows.stop ≤ trainingRows.start ∨ column.values.length < trainingRows.stop)
      (.rangeOutside column.name trainingRows column.values.length)
    let validTrainingCells ← countGateCells column.name domain trainingRows 0 column.cells
    refuse (validTrainingCells = 0) (.noValidCells column.name trainingRows)
    let cells := column.cells.map fun cell =>
      if cell.validity.isValid then ⟨clip cell.value, cell.validity⟩ else ⟨nan, cell.validity⟩
    let fit := {
      trainingRows
      median := FloatOps.lit 0
      scale := FloatOps.lit 1
      validTrainingCells
      degenerate := false }
    return (fit, column.withCells cells)

end Fit

section Replay

variable {F : Type} [FloatOps F]

/-- `f64::is_nan`. -/
def isNan (value : F) : Bool := !FloatOps.eq value value

def validateSearchFit (name : String) (fit : RobustNormalizationFitF64 F) :
    Except (NormalizationError F) Unit := do
  refuse (¬(fit.trainingRows.start < fit.trainingRows.stop ∧ 0 < fit.validTrainingCells ∧
    fit.validTrainingCells ≤ fit.trainingRows.length)) (.invalidScope name)
  refuse ((FloatOps.isFinite fit.median && !isNan fit.scale &&
    FloatOps.le (FloatOps.lit 0) fit.scale && (fit.degenerate ||
      (FloatOps.isFinite fit.scale && FloatOps.lt (FloatOps.lit 0) fit.scale))) = false)
    (.invalidLocation name)
  if (smcGateDomain name).isSome then
    refuse ((FloatOps.eq fit.median (FloatOps.lit 0) && FloatOps.eq fit.scale (FloatOps.lit 1) &&
      !fit.degenerate) = false) (.notIdentity name)

def validateRawSearchCell (name : String) (cell : FeatureCellF64 F) :
    Except (NormalizationError F) Unit :=
  if !cell.validity.isValid then .ok ()
  else do
    refuse (FloatOps.isFinite cell.value = false) (.rawNotFinite name)
    refuse ((smcGateDomain name).all (fun domain => domain.contains cell.value) = false)
      (.rawState name cell.value)

variable (nan : F)

def transformFittedCell (fit : RobustNormalizationFitF64 F) (cell : FeatureCellF64 F) :
    FeatureCellF64 F :=
  if !cell.validity.isValid then ⟨nan, cell.validity⟩
  else if fit.degenerate then ⟨nan, .degenerate⟩
  else
    let normalized := (cell.value - fit.median) / fit.scale
    if FloatOps.isFinite normalized then ⟨clip normalized, cell.validity⟩
    else ⟨nan, .nonFinite⟩

def applyFittedColumnValues (fit : RobustNormalizationFitF64 F) (column : FeatureColumnF64 F) :
    FeatureColumnF64 F :=
  column.withCells (column.cells.map (transformFittedCell nan fit))

def validateRawColumn (column : FeatureColumnF64 F) : Except (NormalizationError F) Unit := do
  refuse (column.values.length ≠ column.validity.length) .columnLength
  forM column.cells (validateRawSearchCell column.name)

def applySearchNormalizationFit (column : FeatureColumnF64 F)
    (fit : RobustNormalizationFitF64 F) :
    Except (NormalizationError F) (FeatureColumnF64 F) := do
  validateSearchFit column.name fit
  validateRawColumn column
  return applyFittedColumnValues nan fit column

end Replay

def SEARCH_NORMALIZATION_POLICY_VERSION : Nat := 3

def NORMALIZATION_TRANSFORM_SEMANTIC_VERSION : Nat := 2

structure SearchNormalizationFittedState (F : Type) where
  policyVersion : Nat
  transformSemanticVersion : Nat
  columnNames : List String
  fits : List (RobustNormalizationFitF64 F)
  deriving DecidableEq

namespace SearchNormalizationFittedState

variable {F : Type} [FloatOps F]

/-- The loop of `validate`, with the names that it has seen. -/
def validateFits (trainingRows : RowRange) :
    List String → List (String × RobustNormalizationFitF64 F) → Except (NormalizationError F) Unit
  | _, [] => .ok ()
  | seen, (name, fit) :: rest => do
    refuse (name = "" ∨ name ∈ seen) .duplicateOrEmptyName
    validateSearchFit name fit
    refuse (fit.trainingRows ≠ trainingRows) (.differentRange name)
    validateFits trainingRows (name :: seen) rest

def validate (state : SearchNormalizationFittedState F) : Except (NormalizationError F) Unit := do
  refuse (¬(state.policyVersion = SEARCH_NORMALIZATION_POLICY_VERSION ∧
    state.transformSemanticVersion = NORMALIZATION_TRANSFORM_SEMANTIC_VERSION))
    .unsupportedSemantics
  match state.fits with
  | [] => .error .fitCount
  | first :: _ => do
    refuse (state.columnNames = [] ∨ state.columnNames.length ≠ state.fits.length) .fitCount
    validateFits first.trainingRows [] (state.columnNames.zip state.fits)

def new (columnNames : List String) (fits : List (RobustNormalizationFitF64 F)) :
    Except (NormalizationError F) (SearchNormalizationFittedState F) := do
  let state := ⟨SEARCH_NORMALIZATION_POLICY_VERSION, NORMALIZATION_TRANSFORM_SEMANTIC_VERSION,
    columnNames, fits⟩
  validate state
  return state

def fit? (state : SearchNormalizationFittedState F) (name : String) :
    Option (RobustNormalizationFitF64 F) :=
  (state.columnNames.zip state.fits).lookup name

def checkProjection (fitted : List String) : List String → List String →
    Except (NormalizationError F) Unit
  | _, [] => .ok ()
  | selected, name :: names => do
    refuse (name ∈ selected) (.duplicateProjection name)
    refuse (name ∉ fitted) (.noFit name)
    checkProjection fitted (name :: selected) names

def validateFeatureNames (state : SearchNormalizationFittedState F) (names : List String) :
    Except (NormalizationError F) Unit := do
  state.validate
  refuse (names = []) .emptyProjection
  checkProjection state.columnNames [] names

variable (nan : F)

/-- The columns after the fits of their names; every column is checked before any is replaced. -/
def applyColumns (state : SearchNormalizationFittedState F) (columns : List (FeatureColumnF64 F)) :
    Except (NormalizationError F) (List (FeatureColumnF64 F)) := do
  state.validateFeatureNames (columns.map (·.name))
  forM columns validateRawColumn
  columns.mapM fun column => do
    let fit ← require (state.fit? column.name) (.noFit column.name)
    return applyFittedColumnValues nan fit column

def transformValue (state : SearchNormalizationFittedState F) (name : String)
    (cell : FeatureCellF64 F) : Except (NormalizationError F) (FeatureCellF64 F) := do
  state.validate
  let fit ← require (state.fit? name) (.noFit name)
  validateRawSearchCell name cell
  return transformFittedCell nan fit cell

end SearchNormalizationFittedState

end Neoethos
