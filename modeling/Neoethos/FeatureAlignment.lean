import Neoethos.Fallible
import Neoethos.FloatOps
import Neoethos.I64

/-! `align_feature_columns_at_explicit_availability_ms_with_freshness` and its two public callers:
the columns of a slower timeframe on the time grid of a faster one. -/

namespace Neoethos

open Fallible (refuse require)

inductive FeatureCellValidity
  | valid
  | warmup
  | missingInput
  | gap
  | stale
  | zeroDenominator
  | degenerate
  | nonFinite
  | computeFailure
  | alignmentMissing
  deriving DecidableEq

def FeatureCellValidity.isValid (validity : FeatureCellValidity) : Bool := validity = .valid

inductive TimestampError
  | empty
  | outOfRange (index : Nat) (value : Int)
  | notIncreasing (value previous : Int)
  deriving DecidableEq

/-- The refusals of the alignment, with the data of their texts. `panicked` is an index out of the
bounds of a column that its caller has built by hand. -/
inductive AlignmentError
  | negativeLag
  | availabilityOverflow (row : Nat) (timestamp availabilityLagMs : Int)
  | negativeMaxAge
  | invalidBase (error : TimestampError)
  | invalidFeature (error : TimestampError)
  | scheduleLength (scheduled rows : Nat)
  | resumesAfterUnevidenced (row : Nat)
  | availableBeforeOpen (row : Nat)
  | availabilityNotAscending (row : Nat)
  | columnLength (name : String) (length rows : Nat)
  | duplicateColumn (name : String)
  | ageOverflow (baseRow : Nat) (baseTimestamp availableMs : Int)
  | spanOverflow (row : Nat) (availableMs openMs : Int)
  | emptyName
  | validityLength (name : String) (values validity : Nat)
  | validNotFinite (name : String) (row : Nat)
  | panicked
  deriving DecidableEq

structure FeatureColumnF64 (F : Type) where
  name : String
  values : List F
  validity : List FeatureCellValidity
  deriving DecidableEq

section Columns

variable {F : Type} [FloatOps F] (nan : F)

/-- The loop of `FeatureColumnF64::new`: an invalid cell gets the canonical NaN. -/
def canonicalCells (name : String) :
    Nat → List F → List FeatureCellValidity → Except AlignmentError (List F)
  | row, value :: values, validity :: rest => do
    if validity.isValid then
      refuse (FloatOps.isFinite value = false) (.validNotFinite name row)
      let cells ← canonicalCells name (row + 1) values rest
      return value :: cells
    else
      let cells ← canonicalCells name (row + 1) values rest
      return nan :: cells
  | _, values, _ => .ok values

def FeatureColumnF64.new (name : String) (values : List F) (validity : List FeatureCellValidity) :
    Except AlignmentError (FeatureColumnF64 F) := do
  refuse (name = "") .emptyName
  refuse (values.length ≠ validity.length)
    (.validityLength name values.length validity.length)
  let values ← canonicalCells nan name 0 values validity
  return ⟨name, values, validity⟩

end Columns

def minCanonicalMarketTimestampMs : Int := 946684800000

def maxCanonicalMarketTimestampMs : Int := 32503680000000

def validateMonotonicTimestamps : List Int → Except TimestampError Unit
  | first :: second :: values => do
    refuse (second ≤ first) (.notIncreasing second first)
    validateMonotonicTimestamps (second :: values)
  | _ => .ok ()

def validateCanonicalMillisecondTimestamps (values : List Int) : Except TimestampError Unit := do
  refuse (values = []) .empty
  forM values.zipIdx fun (value, index) =>
    refuse (¬(minCanonicalMarketTimestampMs ≤ value ∧ value ≤ maxCanonicalMarketTimestampMs))
      (.outOfRange index value)
  validateMonotonicTimestamps values

inductive AlignmentFreshness
  | fixed (maxAgeMs : Option Int)
  | observedSourceSpan

def checkMaxAge : AlignmentFreshness → Except AlignmentError Unit
  | .fixed (some maxAgeMs) => refuse (maxAgeMs < 0) .negativeMaxAge
  | _ => .ok ()

/-- The check of the schedule, with the last availability and whether a row had none. -/
def checkSchedule : Nat → Option Int → Bool → List (Int × Option Int) → Except AlignmentError Unit
  | _, _, _, [] => .ok ()
  | row, previousAvailable, unavailableTailStarted, (openMs, some availableMs) :: rest => do
    refuse (unavailableTailStarted = true) (.resumesAfterUnevidenced row)
    refuse (availableMs < openMs) (.availableBeforeOpen row)
    refuse (previousAvailable.any (availableMs ≤ ·) = true) (.availabilityNotAscending row)
    checkSchedule (row + 1) (some availableMs) unavailableTailStarted rest
  | row, previousAvailable, _, (_, none) :: rest =>
    checkSchedule (row + 1) previousAvailable true rest

def checkColumns {F : Type} (rows : Nat) :
    List String → List (FeatureColumnF64 F) → Except AlignmentError Unit
  | _, [] => .ok ()
  | names, column :: columns => do
    refuse (column.values.length ≠ rows) (.columnLength column.name column.values.length rows)
    refuse (column.name ∈ names) (.duplicateColumn column.name)
    checkColumns rows (column.name :: names) columns

/-- The cursor's inner loop over the rest of the schedule: the cursor, and the last row that it
passed. -/
def advanceCursor (baseTimestamp : Int) : Nat → Option Nat → List (Option Int) → Nat × Option Nat
  | featureCursor, lastAvailableRow, some availableMs :: rest =>
    if availableMs ≤ baseTimestamp then
      advanceCursor baseTimestamp (featureCursor + 1) (some featureCursor) rest
    else (featureCursor, lastAvailableRow)
  | featureCursor, lastAvailableRow, _ => (featureCursor, lastAvailableRow)

/-- What a base row shows in every column: its initial cells, stale cells, or those of a row. -/
inductive AlignedRow
  | alignmentMissing
  | stale
  | source (featureRow : Nat)
  deriving DecidableEq

section Loop

variable (featureOpenMs : List Int) (availableAtMs : List (Option Int)) (forwardFill : Bool)
  (freshness : AlignmentFreshness)

def alignRow (baseRow : Nat) (baseTimestamp : Int) :
    Option Nat → Except AlignmentError AlignedRow
  | none => .ok .alignmentMissing
  | some featureRow => do
    let availableMs ← require availableAtMs[featureRow]?.join .panicked
    let age ← require (I64.checkedSub baseTimestamp availableMs)
      (.ageOverflow baseRow baseTimestamp availableMs)
    if age ≠ 0 ∧ forwardFill = false then return .alignmentMissing
    else
      let maxAgeMs ← match freshness with
        | .fixed maxAgeMs => .ok maxAgeMs
        | .observedSourceSpan => do
          let openMs ← require featureOpenMs[featureRow]? .panicked
          let span ← require (I64.checkedSub availableMs openMs)
            (.spanOverflow featureRow availableMs openMs)
          .ok (some span)
      if maxAgeMs.any (· < age) = true then return .stale else return .source featureRow

/-- The loop over the base grid, with the cursor and the last available row. -/
def alignRows (featureCursor : Nat) (lastAvailableRow : Option Nat) (baseRow : Nat) :
    List Int → Except AlignmentError (List AlignedRow)
  | [] => .ok []
  | baseTimestamp :: baseMs => do
    let (featureCursor, lastAvailableRow) := advanceCursor baseTimestamp featureCursor
      lastAvailableRow (availableAtMs.drop featureCursor)
    let row ← alignRow featureOpenMs availableAtMs forwardFill freshness baseRow baseTimestamp
      lastAvailableRow
    let rows ← alignRows featureCursor lastAvailableRow (baseRow + 1) baseMs
    return row :: rows

end Loop

section Output

variable {F : Type} [FloatOps F] (nan : F)

/-- The cell that the loop writes for a base row into the output of a column. -/
def alignedCell (source : FeatureColumnF64 F) : AlignedRow →
    Except AlignmentError (F × FeatureCellValidity)
  | .alignmentMissing => .ok (nan, .alignmentMissing)
  | .stale => .ok (nan, .stale)
  | .source featureRow => do
    let reason ← require source.validity[featureRow]? .panicked
    if reason.isValid then
      let value ← require source.values[featureRow]? .panicked
      return (value, reason)
    else return (nan, reason)

def alignedColumn (rows : List AlignedRow) (source : FeatureColumnF64 F) :
    Except AlignmentError (FeatureColumnF64 F) := do
  let cells ← rows.mapM (alignedCell nan source)
  FeatureColumnF64.new nan source.name (cells.map (·.1)) (cells.map (·.2))

/-- `align_feature_columns_at_explicit_availability_ms_with_freshness`. The cells that the source
writes into its preallocated columns are appended here, row by row. -/
def alignFeatureColumnsAtExplicitAvailabilityMsWithFreshness (baseMs featureOpenMs : List Int)
    (availableAtMs : List (Option Int)) (featureColumns : List (FeatureColumnF64 F))
    (forwardFill : Bool) (freshness : AlignmentFreshness) :
    Except AlignmentError (List (FeatureColumnF64 F)) := do
  checkMaxAge freshness
  (validateCanonicalMillisecondTimestamps baseMs).mapError .invalidBase
  (validateCanonicalMillisecondTimestamps featureOpenMs).mapError .invalidFeature
  refuse (availableAtMs.length ≠ featureOpenMs.length)
    (.scheduleLength availableAtMs.length featureOpenMs.length)
  checkSchedule 0 none false (featureOpenMs.zip availableAtMs)
  checkColumns featureOpenMs.length [] featureColumns
  let rows ← alignRows featureOpenMs availableAtMs forwardFill freshness 0 none 0 baseMs
  featureColumns.mapM (alignedColumn nan rows)

def alignFeatureColumnsAtExplicitAvailabilityMs (baseMs featureOpenMs : List Int)
    (availableAtMs : List (Option Int)) (featureColumns : List (FeatureColumnF64 F))
    (forwardFill : Bool) (maxAgeMs : Option Int) :
    Except AlignmentError (List (FeatureColumnF64 F)) :=
  alignFeatureColumnsAtExplicitAvailabilityMsWithFreshness nan baseMs featureOpenMs availableAtMs
    featureColumns forwardFill (.fixed maxAgeMs)

/-- `align_feature_columns_by_ms`: a row is observed a fixed time after it opened. -/
def alignFeatureColumnsByMs (baseMs featureMs : List Int)
    (featureColumns : List (FeatureColumnF64 F)) (forwardFill : Bool) (maxAgeMs : Option Int)
    (availabilityLagMs : Int) : Except AlignmentError (List (FeatureColumnF64 F)) := do
  refuse (availabilityLagMs < 0) .negativeLag
  let availableAt ← featureMs.zipIdx.mapM fun (timestamp, row) =>
    (require (I64.checkedAdd timestamp availabilityLagMs)
      (.availabilityOverflow row timestamp availabilityLagMs)).map some
  alignFeatureColumnsAtExplicitAvailabilityMs nan baseMs featureMs availableAt featureColumns
    forwardFill maxAgeMs

/-- `align_calendar_feature_columns_by_observed_next_open_ms`: a row is observed when the next one
opens, and the last one never is. -/
def alignCalendarFeatureColumnsByObservedNextOpenMs (baseMs featureOpenMs : List Int)
    (featureColumns : List (FeatureColumnF64 F)) (forwardFill : Bool) :
    Except AlignmentError (List (FeatureColumnF64 F)) :=
  let availableAtMs := (featureOpenMs.drop 1).map some ++
    (if featureOpenMs = [] then [] else [none])
  alignFeatureColumnsAtExplicitAvailabilityMsWithFreshness nan baseMs featureOpenMs availableAtMs
    featureColumns forwardFill .observedSourceSpan

end Output

end Neoethos
