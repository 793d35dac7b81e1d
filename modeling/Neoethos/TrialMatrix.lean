import Neoethos.LittleEndian

/-! The trial matrix as `trial_returns.rs` writes it. A 64-bit float is its bits. -/

namespace Neoethos

def TRIAL_RETURNS_MAGIC : List UInt8 := "NEOTRIAL".toUTF8.data.toList

def HEADER_BYTES : Nat := 40

structure TrialReturnRow where
  candidateIndex : UInt64
  strategyId : String
  returns : List UInt64
  deriving DecidableEq

structure TrialReturnMatrix where
  periodKeys : List Int64
  initialBalance : UInt64
  deriving DecidableEq

/-- The numbers of the fixed header, and the period grid. A count is written as a `u32`. -/
def encodeHeader (periodKeys : List Int64) (initialBalance : UInt64) (trials : Nat) :
    List UInt8 :=
  TRIAL_RETURNS_MAGIC ++
    LittleEndian.encode 4 1 ++
    LittleEndian.encode 4 trials ++
    LittleEndian.encode 4 periodKeys.length ++
    LittleEndian.encode 4 1 ++
    LittleEndian.encode 8 initialBalance.toNat ++
    LittleEndian.encode 8 0 ++
    periodKeys.flatMap fun key => LittleEndian.encode 8 key.toUInt64.toNat

namespace TrialReturnRow

def idBytes (row : TrialReturnRow) : List UInt8 := row.strategyId.toUTF8.data.toList

/-- The bytes of the id that a `u16` length can name. -/
def idLen (row : TrialReturnRow) : Nat := min row.idBytes.length (2 ^ 16 - 1)

def padded (row : TrialReturnRow) (periods : Nat) : List UInt64 :=
  (List.range periods).map fun i => (row.returns[i]?).getD 0

def encode (row : TrialReturnRow) (periods : Nat) : List UInt8 :=
  LittleEndian.encode 2 row.idLen ++
    row.idBytes.take row.idLen ++
    LittleEndian.encode 8 row.candidateIndex.toNat ++
    (row.padded periods).flatMap fun v => LittleEndian.encode 8 v.toNat

end TrialReturnRow

def encodeRows (rows : List TrialReturnRow) (periods : Nat) : List UInt8 :=
  rows.flatMap (·.encode periods)

def TrialReturnMatrix.encode (matrix : TrialReturnMatrix) (rows : List TrialReturnRow) :
    List UInt8 :=
  encodeHeader matrix.periodKeys matrix.initialBalance rows.length ++
    encodeRows rows matrix.periodKeys.length

/-! The trial matrix as `deflated.rs` reads it. -/

structure DecodedTrialRow (V : Type*) where
  candidateIndex : UInt64
  strategyId : String
  returns : List V
  deriving DecidableEq

structure DecodedTrialMatrix (V : Type*) where
  version : Nat
  flags : Nat
  initialBalance : V
  periodKeys : List Int64
  rows : List (DecodedTrialRow V)
  headerTrials : Nat
  truncatedTailBytes : Nat
  deriving DecidableEq

namespace DecodedTrialMatrix

variable {V : Type*}

def periods (m : DecodedTrialMatrix V) : Nat := m.periodKeys.length

def trials (m : DecodedTrialMatrix V) : Nat := m.rows.length

def isTruncated (m : DecodedTrialMatrix V) : Bool :=
  0 < m.truncatedTailBytes || m.headerTrials ≠ m.rows.length

end DecodedTrialMatrix

inductive DecodeError
  | tooShortForHeader (bytes : Nat)
  | badMagic (found : List UInt8)
  | unsupportedVersion (version : Nat)
  | truncatedPeriodGrid (periods bytes : Nat)
  | truncatedRow (row : Nat)
  | badStrategyId (row : Nat)
  | emptyPeriodGrid
  deriving DecidableEq

/-- `str::from_utf8`. -/
def fromUtf8 (bytes : List UInt8) : Option String :=
  String.fromUTF8? ⟨bytes.toArray⟩

def leU64s (bytes : List UInt8) (start count : Nat) : List UInt64 :=
  (List.range count).map fun i => .ofNat (LittleEndian.read bytes (start + i * 8) 8)

namespace DecodedTrialMatrix

/-- The loop over the rows: the rows that were read, and where the cursor stopped. A partial
row ends the loop. -/
def decodeRows (bytes : List UInt8) (periods cursor : Nat) (rows : List (DecodedTrialRow UInt64)) :
    Except DecodeError (List (DecodedTrialRow UInt64) × Nat) :=
  if cursor = bytes.length then
    .ok (rows, cursor)
  else if bytes.length < cursor + 2 then
    .ok (rows, cursor)
  else
    let idLen := LittleEndian.read bytes cursor 2
    let idStart := cursor + 2
    let idxStart := idStart + idLen
    let returnsStart := idxStart + 8
    let rowEnd := returnsStart + periods * 8
    if bytes.length < rowEnd then
      .ok (rows, cursor)
    else
      match fromUtf8 (LittleEndian.slice bytes idStart idxStart) with
      | none => .error (.badStrategyId rows.length)
      | some strategyId =>
        let row := {
          candidateIndex := .ofNat (LittleEndian.read bytes idxStart 8)
          strategyId := strategyId
          returns := leU64s bytes returnsStart periods }
        decodeRows bytes periods rowEnd (rows ++ [row])
termination_by bytes.length - cursor

def decode (bytes : List UInt8) : Except DecodeError (DecodedTrialMatrix UInt64) :=
  if bytes.length < HEADER_BYTES then
    .error (.tooShortForHeader bytes.length)
  else if bytes.take 8 ≠ TRIAL_RETURNS_MAGIC then
    .error (.badMagic (bytes.take 8))
  else
    let version := LittleEndian.read bytes 8 4
    if version ≠ 1 then
      .error (.unsupportedVersion version)
    else
      let headerTrials := LittleEndian.read bytes 12 4
      let periods := LittleEndian.read bytes 16 4
      let flags := LittleEndian.read bytes 20 4
      let initialBalance := .ofNat (LittleEndian.read bytes 24 8)
      if periods = 0 then
        .error .emptyPeriodGrid
      else
        let gridEnd := HEADER_BYTES + periods * 8
        if bytes.length < gridEnd then
          .error (.truncatedPeriodGrid periods bytes.length)
        else
          let periodKeys := (leU64s bytes HEADER_BYTES periods).map UInt64.toInt64
          match decodeRows bytes periods gridEnd [] with
          | .error e => .error e
          | .ok (rows, cursor) =>
            let truncatedTailBytes := bytes.length - cursor
            if 0 < truncatedTailBytes ∧ rows = [] ∧ 0 < headerTrials then
              .error (.truncatedRow 0)
            else
              .ok { version, flags, initialBalance, periodKeys, rows, headerTrials,
                    truncatedTailBytes }

end DecodedTrialMatrix

/-! `TrialReturnsWriter`: the trial matrix written chunk by chunk, under a budget of the disk. -/

structure OpenFile where
  bytes : List UInt8
  position : Nat
  deriving DecidableEq

namespace OpenFile

/-- The bytes at the position are replaced, and the file grows when they reach beyond its end. -/
def overwrite (file : OpenFile) (data : List UInt8) : OpenFile :=
  ⟨file.bytes.take file.position ++ data ++ file.bytes.drop (file.position + data.length),
    file.position + data.length⟩

/-- `write_all`; a failing one has written so many bytes. -/
def writeAll (file : OpenFile) (data : List UInt8) : Option Nat → OpenFile × Bool
  | none => (file.overwrite data, true)
  | some written => (file.overwrite (data.take written), false)

end OpenFile

/-- `DISK_SHARE_DIVISOR`, `PROBE_FAILED_BUDGET_BYTES`, `ASSUMED_STRATEGY_ID_BYTES` and
`HEADER_TRIALS_OFFSET`. -/
def DISK_SHARE_DIVISOR : Nat := 200

def PROBE_FAILED_BUDGET_BYTES : Nat := 32 * 1024 * 1024

def ASSUMED_STRATEGY_ID_BYTES : Nat := 32

def HEADER_TRIALS_OFFSET : Nat := 12

def rowBytes (strategyIdLen periodCount : Nat) : Nat := 2 + strategyIdLen + 8 + 8 * periodCount

def rowsWithinBudget (budgetBytes periodCount meanRowBytes : Nat) : Nat :=
  let fixed := HEADER_BYTES + 8 * periodCount
  if budgetBytes ≤ fixed ∨ meanRowBytes = 0 then 0 else (budgetBytes - fixed) / meanRowBytes

def retentionStride (total keep : Nat) : Nat :=
  if keep = 0 ∨ total = 0 then 1
  else if total ≤ keep then 1
  else (total + keep - 1) / keep

/-- A row as the screen offers it, with the field that is not written. -/
structure OfferedTrialRow extends TrialReturnRow where
  tradesOutsideGrid : Nat
  deriving DecidableEq

structure TrialReturnsWriter where
  file : OpenFile
  periodKeys : List Int64
  initialBalance : UInt64
  stride : Nat
  budget : Nat
  diskAvailable : Nat
  budgetSource : String
  meanRowBytes : Nat
  expectedTrials : Nat
  offered : Nat
  written : Nat
  bytesWritten : Nat
  outsideWritten : Nat
  outsideOffered : Nat
  deriving DecidableEq

namespace TrialReturnsWriter

/-- `open`, with what the probe of the file system says, up to the first flush. -/
def opened (available : Option Nat) (periodKeys : List Int64) (initialBalance : UInt64)
    (expectedTrials : Nat) : TrialReturnsWriter :=
  let periods := periodKeys.length
  let (diskAvailable, budget, budgetSource) := match available with
    | some available => (available, available / DISK_SHARE_DIVISOR, "filesystem_probe")
    | none => (0, PROBE_FAILED_BUDGET_BYTES, "probe_failed_conservative_default")
  let meanRowBytes := rowBytes ASSUMED_STRATEGY_ID_BYTES periods
  let capacity := rowsWithinBudget budget periods meanRowBytes
  let stride := retentionStride expectedTrials capacity
  let header := encodeHeader periodKeys initialBalance 0
  { file := ⟨header, header.length⟩
    periodKeys := periodKeys
    initialBalance := initialBalance
    stride := stride
    budget := budget
    diskAvailable := diskAvailable
    budgetSource := budgetSource
    meanRowBytes := meanRowBytes
    expectedTrials := expectedTrials
    offered := 0
    written := 0
    bytesWritten := header.length
    outsideWritten := 0
    outsideOffered := 0 }

/-- The body of the loop over the rows of a chunk: the counters, and the bytes to be written. -/
def offer (state : TrialReturnsWriter × List UInt8) (row : OfferedTrialRow) :
    TrialReturnsWriter × List UInt8 :=
  let (w, buf) := state
  let keep := w.stride ≤ 1 || w.offered % w.stride == 0
  let w := { w with
    offered := w.offered + 1
    outsideOffered := w.outsideOffered + row.tradesOutsideGrid }
  if keep then
    ({ w with
        written := w.written + 1
        outsideWritten := w.outsideWritten + row.tradesOutsideGrid },
      buf ++ row.toTrialReturnRow.encode w.periodKeys.length)
  else (w, buf)

def patchTrialCount (w : TrialReturnsWriter) (fails : Option Nat) : TrialReturnsWriter × Bool :=
  let streamEnd := w.file.position
  let sought : OpenFile := { w.file with position := HEADER_TRIALS_OFFSET }
  match sought.writeAll (LittleEndian.encode 4 w.written) fails with
  | (file, false) => ({ w with file := file }, false)
  | (file, true) => ({ w with file := { file with position := streamEnd } }, true)

/-- `append`; `rowsFail` and `countFail` say where the two writes fail, if they do. -/
def append (w : TrialReturnsWriter) (rows : List OfferedTrialRow)
    (rowsFail countFail : Option Nat) : TrialReturnsWriter × Bool :=
  let (w, buf) := rows.foldl offer (w, [])
  if buf = [] then (w, true)
  else match w.file.writeAll buf rowsFail with
    | (file, false) => ({ w with file := file }, false)
    | (file, true) => patchTrialCount
        { w with file := file, bytesWritten := w.bytesWritten + buf.length } countFail

def appendAll (w : TrialReturnsWriter) (chunks : List (List OfferedTrialRow)) :
    TrialReturnsWriter :=
  chunks.foldl (fun w rows => (w.append rows none none).1) w

end TrialReturnsWriter

/-- The rows at the indices `0, stride, 2 * stride, …`. -/
def everyNth (stride : Nat) (rows : List OfferedTrialRow) : List OfferedTrialRow :=
  (rows.zipIdx.filter fun (_, index) => index % stride = 0).map (·.1)

end Neoethos
