import Mathlib.Data.Finset.Basic
import Neoethos.Journal
import Neoethos.Session

namespace Neoethos

namespace JournalStore

structure ClosedTrade (F : Type) where
  schemaVersion : Nat
  recordedAtUnixMs : Int
  positionId : Int
  symbol : String
  side : String
  lots : F
  accountId : Option String
  environment : Option String
  entryTsMs : Option Int
  entryPrice : Option F
  exitTsMs : Option Int
  exitPrice : Option F
  grossProfit : F
  commission : F
  swap : F
  netProfit : F
  balanceAfter : Option F
  deriving DecidableEq

def ClosedTrade.effectiveTsMs {F : Type} (trade : ClosedTrade F) : Int :=
  trade.exitTsMs.getD trade.recordedAtUnixMs

/-- What `serde_json` does for a row. -/
structure RowCodec (F : Type) where
  toText : ClosedTrade F → Except String String
  fromText : String → Except String (ClosedTrade F)

/-- How `append_line` ends: the line and its newline are written, or the call fails when so many
of their bytes are in the file. -/
inductive LineAppend
  | whole
  | stopped (written : Nat)
  deriving DecidableEq

def appendLine (disk : List UInt8) (line : String) : LineAppend → List UInt8 × Bool
  | .whole => (disk ++ utf8 (line.push '\n'), true)
  | .stopped written => (disk ++ (utf8 (line.push '\n')).take written, false)

section Codec

variable {F : Type} (codec : RowCodec F)

/-- A line of the file: blank and malformed lines are passed over. -/
def readRow (line : String) : Option (ClosedTrade F) :=
  if trim line = "" then none else (codec.fromText (trim line)).toOption

/-- `read_jsonl`; a missing file and one that is not UTF-8 read as empty. -/
def readJsonl (disk : List UInt8) : List (ClosedTrade F) :=
  match fromUtf8 disk with
  | some text => (textLines text).filterMap (readRow codec)
  | none => []

/-- The file of a data directory, and what the process remembers of it. -/
structure TradeJournal where
  disk : List UInt8
  seen : Option (Finset Int)

/-- The set of the directory, read from the file when the process asks for it first. -/
def TradeJournal.seenPositions (journal : TradeJournal) : Finset Int :=
  journal.seen.getD ((readJsonl codec journal.disk).map (·.positionId)).toFinset

inductive RecordError
  | notSerialised (detail : String)
  | notAppended
  deriving DecidableEq

/-- `record_closed_trade`: the position is remembered before the row is written. -/
def recordClosedTrade (journal : TradeJournal) (trade : ClosedTrade F) (write : LineAppend) :
    Except RecordError Bool × TradeJournal :=
  let set := journal.seenPositions codec
  if trade.positionId ∈ set then (.ok false, { journal with seen := some set })
  else
    let seen := some (insert trade.positionId set)
    match codec.toText trade with
    | .error detail => (.error (.notSerialised detail), { journal with seen := seen })
    | .ok line =>
      match appendLine journal.disk line write with
      | (disk, true) => (.ok true, ⟨disk, seen⟩)
      | (disk, false) => (.error .notAppended, ⟨disk, seen⟩)

/-- The rows of a list of rows by position; of two rows the later one is kept. -/
def byPosition (rows : List (ClosedTrade F)) : Table Int (ClosedTrade F) :=
  rows.foldl (fun table row => table.insert row.positionId row) ∅

def queryClosedTrades (disk : List UInt8) (fromMs toMs : Option Int) : List (ClosedTrade F) :=
  let rows := (byPosition (readJsonl codec disk)).entries.map fun entry => entry.2
  let rows := rows.filter fun row =>
    (fromMs.all fun lower => lower ≤ row.effectiveTsMs) &&
      toMs.all fun upper => row.effectiveTsMs < upper
  rows.mergeSort fun a b => a.effectiveTsMs ≤ b.effectiveTsMs

end Codec

end JournalStore

end Neoethos
