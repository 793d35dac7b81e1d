import Neoethos.BrokerPartition
import Neoethos.Delimited
import Neoethos.Machine
import Neoethos.TrialMatrix

namespace Neoethos

open Fallible

def JOURNAL_SCHEMA : String := "neoethos.autoresearch.journal.v2"

structure JournalLine (R : Type) where
  schema : String
  seq : Nat
  atMs : Int
  record : R

/-- What `serde_json` does for a line: `to_string`, `from_str` of the envelope, which keeps the
schema only, and `from_str` of the whole line. -/
structure LineCodec (R : Type) where
  toText : JournalLine R → Except String String
  envelope : String → Except String String
  fromText : String → Except String (JournalLine R)

inductive JournalError
  | invalidUtf8
  | unreadableLine (line : Nat) (detail : String)
  | foreignSchema (line : Nat) (schema : String)
  | unreadablePayload (line : Nat) (detail : String)
  | notSerialised (detail : String)
  | rawNewline
  | notWritten
  deriving DecidableEq

structure ReplayReport where
  linesRead : Nat
  truncatedTailBytes : Nat
  deriving DecidableEq

structure Journal (R : Type) where
  records : List R
  nextSeq : Nat
  replay : ReplayReport
  deriving DecidableEq

/-- `str::as_bytes`. -/
def utf8 (text : String) : List UInt8 :=
  text.toUTF8.data.toList

def stripCarriageReturn (line : List Char) : List Char :=
  if line.getLast? = some '\r' then line.dropLast else line

/-- `str::lines`: a last line that no newline closes keeps its carriage return, and is no line when
it is empty. -/
def textLines (text : String) : List String :=
  let pieces := text.toList.splitOn '\n'
  (pieces.dropLast.map fun line => String.ofList (stripCarriageReturn line)) ++
    ((pieces.getLast?.filter fun line => !line.isEmpty).map String.ofList).toList

section Codec

variable {R : Type} (codec : LineCodec R)

/-- One turn of the loop over the lines; a blank line is passed over. -/
def readLine (index : Nat) (line : String) : Except JournalError (Option R) :=
  if trim line = "" then .ok none
  else do
    let schema ← (codec.envelope line).mapError (.unreadableLine (index + 1))
    refuse (schema ≠ JOURNAL_SCHEMA) (.foreignSchema (index + 1) schema)
    let parsed ← (codec.fromText line).mapError (.unreadablePayload (index + 1))
    return some parsed.record

def replayLines (complete : List UInt8) : Except JournalError (List R) := do
  let text ← match fromUtf8 complete with
    | some text => .ok text
    | none => .error .invalidUtf8
  let rows ← (textLines text).zipIdx.mapM fun (line, index) => readLine codec index line
  return rows.reduceOption

/-- `Journal::open`, with what it leaves on the disk. The tail is cut off before a line is read. -/
def Journal.openFile (disk : Option (List UInt8)) :
    Except JournalError (Journal R) × List UInt8 :=
  match disk with
  | none => (.ok ⟨[], 0, ⟨0, 0⟩⟩, [])
  | some bytes =>
    let completeLen := Delimited.completeLen 10 bytes
    let complete := bytes.take completeLen
    ((replayLines codec complete).map fun records =>
        ⟨records, records.length, ⟨records.length, bytes.length - completeLen⟩⟩,
      complete)

/-- How the writing of a line ends: it is written and synced, or the call fails or the process dies
when so many of its bytes are on the disk. -/
inductive LineWrite
  | synced
  | stopped (written : Nat)
  deriving DecidableEq

def Journal.encodeLine (journal : Journal R) (record : R) (atMs : Int) :
    Except JournalError (List UInt8) := do
  let encoded ← (codec.toText ⟨JOURNAL_SCHEMA, journal.nextSeq, atMs, record⟩).mapError .notSerialised
  refuse ('\n' ∈ encoded.toList) .rawNewline
  return utf8 (encoded.push '\n')

def Journal.append (journal : Journal R) (disk : List UInt8) (record : R) (atMs : Int)
    (write : LineWrite) : Except JournalError (Journal R) × List UInt8 :=
  match journal.encodeLine codec record atMs with
  | .error e => (.error e, disk)
  | .ok line =>
    match write with
    | .synced =>
      (.ok { journal with nextSeq := journal.nextSeq + 1, records := journal.records ++ [record] },
        disk ++ line)
    | .stopped written => (.error .notWritten, disk ++ line.take written)

/-- The disk and the one process, if any, that has the journal open. -/
structure JournalWorld (R : Type) where
  disk : Option (List UInt8)
  writer : Option (Journal R)

inductive JournalAction (R : Type)
  | opens
  | appends (record : R) (atMs : Int) (write : LineWrite)
  | closes

/-- What an action reports. A cut append says whether the whole line reached the disk, and how many
bytes of it did. -/
inductive JournalEvent (R : Type)
  | opened (journal : Journal R)
  | refused (error : JournalError)
  | appended (record : R)
  | cut (record : R) (whole : Bool) (bytes : Nat)
  | closed
  deriving DecidableEq

def Journal.cutEvent (journal : Journal R) (record : R) (atMs : Int) (write : LineWrite) :
    JournalEvent R :=
  match journal.encodeLine codec record atMs, write with
  | .ok line, .stopped written =>
    .cut record (decide (line.length ≤ written)) (min written line.length)
  | _, _ => .cut record false 0

/-- A process opens the journal, appends, and goes at its own end or at the first append that does
not succeed. -/
def journalNext (world : JournalWorld R) :
    JournalAction R → Option (JournalEvent R × JournalWorld R)
  | .opens =>
    match world.writer with
    | some _ => none
    | none =>
      match Journal.openFile codec world.disk with
      | (.ok journal, disk) => some (.opened journal, ⟨some disk, some journal⟩)
      | (.error e, disk) => some (.refused e, ⟨some disk, none⟩)
  | .appends record atMs write =>
    match world.writer with
    | none => none
    | some journal =>
      match journal.append codec (world.disk.getD []) record atMs write with
      | (.ok journal', disk) => some (.appended record, ⟨some disk, some journal'⟩)
      | (.error _, disk) =>
        some (journal.cutEvent codec record atMs write, ⟨some disk, none⟩)
  | .closes => world.writer.map fun _ => (.closed, ⟨world.disk, none⟩)

def journalMachine : Machine (JournalWorld R) (JournalAction R) (JournalEvent R) where
  start := ⟨none, none⟩
  next := journalNext codec

end Codec

section History

variable {R : Type}

/-- The record, if any, whose complete line a step put on the disk. -/
def JournalEvent.written : JournalEvent R → Option R
  | .appended record => some record
  | .cut record true _ => some record
  | _ => none

def writtenRecords (events : List (JournalEvent R)) : List R :=
  events.filterMap JournalEvent.written

def JournalEvent.leftover (before : Nat) : JournalEvent R → Nat
  | .opened _ => 0
  | .refused _ => 0
  | .appended _ => before
  | .cut _ true _ => before
  | .cut _ false bytes => before + bytes
  | .closed => before

def leftoverBytes (events : List (JournalEvent R)) : Nat :=
  events.foldl JournalEvent.leftover 0

def AtLineBoundary (disk : List UInt8) : Prop :=
  disk = [] ∨ disk.getLast? = some 10

end History

end Neoethos
