import Neoethos.Fallible
import Neoethos.FloatOps
import Neoethos.I64

/-! One page of trendbars in `service.rs`: its order, its columns and the reverse spool. -/

namespace Neoethos

open Fallible (refuse require)

inductive CanonicalTimeframe
  | m1 | m2 | m3 | m4 | m5 | m10 | m15 | m30 | h1 | h4 | h12 | d1 | w1 | mn1
  deriving DecidableEq

namespace CanonicalTimeframe

def fixedDurationMs : CanonicalTimeframe → Option Int
  | m1 => some 60000
  | m2 => some (2 * 60000)
  | m3 => some (3 * 60000)
  | m4 => some (4 * 60000)
  | m5 => some (5 * 60000)
  | m10 => some (10 * 60000)
  | m15 => some (15 * 60000)
  | m30 => some (30 * 60000)
  | h1 => some (60 * 60000)
  | h4 => some (240 * 60000)
  | h12 => some (720 * 60000)
  | d1 | w1 | mn1 => none

/-- How long before a request the bar that contains its start may have opened. -/
def maximumOverlapMs (timeframe : CanonicalTimeframe) : Int :=
  timeframe.fixedDurationMs.getD (match timeframe with
    | d1 => 24 * 60 * 60 * 1000
    | w1 => 7 * 24 * 60 * 60 * 1000
    | _ => 31 * 24 * 60 * 60 * 1000)

def all : List CanonicalTimeframe :=
  [m1, m2, m3, m4, m5, m10, m15, m30, h1, h4, h12, d1, w1, mn1]

def asStr : CanonicalTimeframe → String
  | m1 => "M1"
  | m2 => "M2"
  | m3 => "M3"
  | m4 => "M4"
  | m5 => "M5"
  | m10 => "M10"
  | m15 => "M15"
  | m30 => "M30"
  | h1 => "H1"
  | h4 => "H4"
  | h12 => "H12"
  | d1 => "D1"
  | w1 => "W1"
  | mn1 => "MN1"

def fromStr (value : String) : Option CanonicalTimeframe :=
  all.find? fun timeframe => timeframe.asStr = value

end CanonicalTimeframe

structure HistoricalBar (F : Type) where
  timestampMs : Int
  open_ : F
  high : F
  low : F
  close : F
  volume : Option Int
  deriving DecidableEq

/-- The errors of a capture; each carries what its text shows. -/
inductive HistoryError (F : Type)
  | cancelled
  | session (message : String)
  | invalidRange (fromMs toMs : Int)
  | rangeOutsideProtocol
  | emptySymbol
  | otherSymbol (resolved requested : String)
  | rejectedIdentity (message : String)
  | chunkWidthOverflow
  | wireBound (toMs : Int)
  | pageLimit
  | pageIdentityChanged
  | emptyPageWithMore (fromMs toMs : Int)
  | pageTooLong (rows : Nat)
  | ambiguousBars (row : Nat) (left right : HistoricalBar F)
  | descendingBars (row : Nat) (left right : HistoricalBar F)
  | emptySpoolPage
  | leadingBars (count : Nat)
  | leadingBarTooOld (timestampMs fromMs : Int)
  | noBarInside (fromMs toMs : Int)
  | barOutside (row : Nat) (timestampMs fromMs toMs : Int)
  | invalidPrice (timestampMs : Int)
  | negativeVolume (volume timestampMs : Int)
  | volumePresenceChanged (row : Nat)
  | overlappingChunks (lastMs : Int)
  | rowCountOverflow
  | spoolPageLimit
  | spoolRows (rows : Nat)
  | spoolVolumeChanged
  | noOlderCursor (fromMs toMs : Int)
  | stoppedEarly (cursorMs fromMs : Int)
  | noBars (fromMs toMs : Int)
  | publication (message : String)

/-- `CanonicalOhlcvChunk`: the columns of a page. A page without volume has no such column. -/
structure CanonicalOhlcvChunk (F : Type) where
  timestampMs : List Int
  open_ : List F
  high : List F
  low : List F
  close : List F
  volume : Option (List Int)
  deriving DecidableEq

/-- `MAX_HISTORICAL_PAGES`, `MAX_HISTORICAL_LOGICAL_CHUNKS` and
`BROKER_TRENDBARS_PER_CHUNK_LIMIT`. -/
def maxHistoricalPages : Nat := 20000

def maxHistoricalLogicalChunks : Int := 20000

def brokerTrendbarsPerChunkLimit : Nat := 5000

variable {F : Type}

section Order

variable [DecidableEq F]

/-- The loop of `normalize_broker_bar_order` after the bar `previous` was kept. Two bars are
bit identical when they are equal. -/
def normalizeFrom (row : Nat) (previous : HistoricalBar F) :
    List (HistoricalBar F) → Except (HistoryError F) (List (HistoricalBar F))
  | [] => .ok []
  | bar :: rest =>
    if previous.timestampMs < bar.timestampMs then
      (normalizeFrom (row + 1) bar rest).map (bar :: ·)
    else if bar.timestampMs = previous.timestampMs ∧ previous = bar then
      normalizeFrom (row + 1) previous rest
    else if bar.timestampMs = previous.timestampMs then .error (.ambiguousBars row previous bar)
    else .error (.descendingBars row previous bar)

def normalizeBrokerBarOrder :
    List (HistoricalBar F) → Except (HistoryError F) (List (HistoricalBar F))
  | [] => .ok []
  | bar :: rest => (normalizeFrom 1 bar rest).map (bar :: ·)

end Order

section Columns

variable [FloatOps F]

/-- The checks of `historical_bars_into_chunk` on one row inside the request. -/
def checkBarRow (leadingOutside row : Nat) (carriesVolume : Bool) (fromMs toMs : Int)
    (bar : HistoricalBar F) : Except (HistoryError F) Unit := do
  refuse (toMs ≤ bar.timestampMs)
    (.barOutside (row + leadingOutside) bar.timestampMs fromMs toMs)
  refuse (([bar.open_, bar.high, bar.low, bar.close].any fun value =>
      !FloatOps.isFinite value || FloatOps.le value (FloatOps.lit 0)) = true)
    (.invalidPrice bar.timestampMs)
  match carriesVolume, bar.volume with
  | true, some value => refuse (value < 0) (.negativeVolume value bar.timestampMs)
  | false, none => .ok ()
  | _, _ => .error (.volumePresenceChanged row)

def checkBarRows (leadingOutside : Nat) (carriesVolume : Bool) (fromMs toMs : Int) :
    Nat → List (HistoricalBar F) → Except (HistoryError F) Unit
  | _, [] => .ok ()
  | row, bar :: rest => do
    checkBarRow leadingOutside row carriesVolume fromMs toMs bar
    checkBarRows leadingOutside carriesVolume fromMs toMs (row + 1) rest

def columnsOf (carriesVolume : Bool) (bars : List (HistoricalBar F)) : CanonicalOhlcvChunk F where
  timestampMs := bars.map (·.timestampMs)
  open_ := bars.map (·.open_)
  high := bars.map (·.high)
  low := bars.map (·.low)
  close := bars.map (·.close)
  volume := if carriesVolume then some (bars.filterMap (·.volume)) else none

/-- A bar that opened before the request may only be the one that contains its start. -/
def checkLeadingBars (timeframe : CanonicalTimeframe) (fromMs : Int) :
    List (HistoricalBar F) → Except (HistoryError F) Unit
  | [] => .ok ()
  | bar :: more => do
    refuse ((bar :: more).length ≠ 1) (.leadingBars (bar :: more).length)
    refuse (fromMs - bar.timestampMs ≤ 0 ∨ timeframe.maximumOverlapMs < fromMs - bar.timestampMs)
      (.leadingBarTooOld bar.timestampMs fromMs)

/-- `historical_bars_into_chunk`; the leading bar is left out. -/
def historicalBarsIntoChunk (timeframe : CanonicalTimeframe) (fromMs toMs : Int)
    (bars : List (HistoricalBar F)) : Except (HistoryError F) (CanonicalOhlcvChunk F) := do
  refuse (bars.isEmpty = true) .emptySpoolPage
  let leading := bars.takeWhile (·.timestampMs < fromMs)
  checkLeadingBars timeframe fromMs leading
  let inRange := bars.drop leading.length
  let first ← require inRange.head? (.noBarInside fromMs toMs)
  checkBarRows leading.length first.volume.isSome fromMs toMs 0 inRange
  .ok (columnsOf first.volume.isSome inRange)

end Columns

/-- `CanonicalOhlcvReverseSpool`, with the page that was pushed last at the front. Writing and
reading back a page is taken to be lossless. -/
structure ReverseSpool (F : Type) where
  pages : List (CanonicalOhlcvChunk F)
  earliestPushedTimestampMs : Option Int
  volumeKind : Option Bool

/-- `push_latest`, under the limits that the capture creates the spool with. -/
def ReverseSpool.pushLatest (spool : ReverseSpool F) (chunk : CanonicalOhlcvChunk F) :
    Except (HistoryError F) (ReverseSpool F) := do
  refuse (maxHistoricalPages ≤ spool.pages.length) .spoolPageLimit
  let first ← require chunk.timestampMs.head? (.spoolRows 0)
  let last ← require chunk.timestampMs.getLast? (.spoolRows 0)
  refuse (brokerTrendbarsPerChunkLimit < chunk.timestampMs.length)
    (.spoolRows chunk.timestampMs.length)
  refuse ((spool.earliestPushedTimestampMs.any (· ≤ last)) = true) (.overlappingChunks last)
  refuse ((spool.volumeKind.any (· != chunk.volume.isSome)) = true) .spoolVolumeChanged
  .ok ⟨chunk :: spool.pages, some first, some (spool.volumeKind.getD chunk.volume.isSome)⟩

/-- `into_oldest_first`: the pages come back from the last push to the first. -/
def ReverseSpool.intoOldestFirst (spool : ReverseSpool F) : List (CanonicalOhlcvChunk F) :=
  spool.pages

end Neoethos
