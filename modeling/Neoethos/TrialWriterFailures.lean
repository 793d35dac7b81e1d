import Neoethos.TrialRetention

namespace Neoethos

open DecodedTrialMatrix (ReadsWhole ReadBack decode readsWhole decode_counted length_encodeHeader)

/-- A call of `append`, with where its two writes fail. -/
structure AppendCall where
  rows : List OfferedTrialRow
  rowsFail : Option Nat
  countFail : Option Nat

namespace TrialReturnsWriter

variable {w : TrialReturnsWriter} {rows : List OfferedTrialRow} {call : AppendCall}

def keptBytes (w : TrialReturnsWriter) (rows : List OfferedTrialRow) : List UInt8 :=
  encodeRows (asWritten (keptFrom w.stride w.offered rows)) w.periodKeys.length

def runCall (w : TrialReturnsWriter) (call : AppendCall) : TrialReturnsWriter × Bool :=
  w.append call.rows call.rowsFail call.countFail

def runCalls (w : TrialReturnsWriter) (calls : List AppendCall) : TrialReturnsWriter :=
  calls.foldl (fun w call => (w.runCall call).1) w

/-- A write of rows that fails has written all of them, and the count is written. -/
def Intact (w : TrialReturnsWriter) (call : AppendCall) : Prop :=
  (∀ written ∈ call.rowsFail, (w.keptBytes call.rows).length ≤ written) ∧ call.countFail = none

def RunIntact (w : TrialReturnsWriter) : List AppendCall → Prop
  | [] => True
  | call :: calls => w.Intact call ∧ (w.runCall call).1.RunIntact calls

/-- The file is the header, with some count, and all the rows that were kept. -/
structure Grown (w : TrialReturnsWriter) (rows : List OfferedTrialRow) : Prop where
  stride : 0 < w.stride
  offered : w.offered = rows.length
  written : w.written = (everyNth w.stride rows).length
  bytes : ∃ count, w.file.bytes = encodeHeader w.periodKeys w.initialBalance count ++
    encodeRows (asWritten (everyNth w.stride rows)) w.periodKeys.length
  position : w.file.position = w.file.bytes.length

def Counted (w : TrialReturnsWriter) (rows : List OfferedTrialRow) : Prop :=
  w.file.bytes = encodeHeader w.periodKeys w.initialBalance w.written ++
    encodeRows (asWritten (everyNth w.stride rows)) w.periodKeys.length

theorem Grown.runCall (h : w.Grown rows) (hintact : w.Intact call) :
    (w.runCall call).1.Grown (rows ++ call.rows) ∧
      ((w.runCall call).2 = true → keptFrom w.stride w.offered call.rows ≠ [] →
        (w.runCall call).1.Counted (rows ++ call.rows)) := by
  obtain ⟨hstride, hoffered, hwritten, ⟨count, hbytes⟩, hposition⟩ := h
  obtain ⟨hrows, hcount⟩ := hintact
  have hkept : everyNth w.stride (rows ++ call.rows) =
      everyNth w.stride rows ++ keptFrom w.stride w.offered call.rows := by
    rw [hoffered]
    exact everyNth_append
  have hlength : w.offered + call.rows.length = (rows ++ call.rows).length := by
    rw [List.length_append, hoffered]
  have hnumber : w.written + (keptFrom w.stride w.offered call.rows).length =
      (everyNth w.stride (rows ++ call.rows)).length := by
    rw [hkept, List.length_append, hwritten]
  unfold TrialReturnsWriter.runCall append
  rw [foldl_offer hstride, List.nil_append, hcount]
  dsimp only
  by_cases hempty : keptFrom w.stride w.offered call.rows = []
  · rw [if_pos (encodeRows_eq_nil.mpr (asWritten_eq_nil.mpr hempty))]
    refine ⟨⟨hstride, hlength, hnumber, ⟨count, ?_⟩, hposition⟩, fun _ hsome => absurd hempty hsome⟩
    rw [show ((w.counted call.rows).stride) = w.stride from rfl, hkept, hempty, List.append_nil]
    exact hbytes
  · rw [if_neg fun hnil => hempty (asWritten_eq_nil.mp (encodeRows_eq_nil.mp hnil))]
    have hend : (w.counted call.rows).file.position = (w.counted call.rows).file.bytes.length :=
      hposition
    have hall : w.file.bytes ++ encodeRows (asWritten (keptFrom w.stride w.offered call.rows))
        w.periodKeys.length = encodeHeader w.periodKeys w.initialBalance count ++
          encodeRows (asWritten (everyNth w.stride (rows ++ call.rows))) w.periodKeys.length := by
      rw [hbytes, hkept, List.append_assoc, asWritten, asWritten, asWritten, List.map_append,
        encodeRows_append]
    cases hfail : call.rowsFail with
    | some written =>
      have htaken : (encodeRows (asWritten (keptFrom w.stride w.offered call.rows))
          w.periodKeys.length).take written = encodeRows (asWritten (keptFrom w.stride w.offered
            call.rows)) w.periodKeys.length := List.take_of_length_le (hrows written hfail)
      unfold OpenFile.writeAll
      dsimp only
      rw [htaken, OpenFile.overwrite_end hend]
      refine ⟨⟨hstride, hlength, hnumber, ⟨count, hall⟩, ?_⟩, fun hok => by cases hok⟩
      exact (List.length_append).symm
    | none =>
      unfold OpenFile.writeAll
      dsimp only
      rw [OpenFile.overwrite_end hend]
      unfold patchTrialCount OpenFile.writeAll
      dsimp only
      rw [show (w.counted call.rows).file.bytes = w.file.bytes from rfl, hall, overwrite_count]
      refine ⟨⟨hstride, hlength, hnumber, ⟨_, rfl⟩, ?_⟩, fun _ _ => rfl⟩
      have hbefore := congrArg List.length hall
      dsimp only
      rw [List.length_append, List.length_append, length_encodeHeader] at hbefore
      rw [List.length_append, length_encodeHeader]
      exact hbefore

/-- No call changes what was fixed when the file was opened. -/
theorem runCall_frame (hstride : 0 < w.stride) (call : AppendCall) :
    (w.runCall call).1.stride = w.stride ∧ (w.runCall call).1.periodKeys = w.periodKeys ∧
      (w.runCall call).1.initialBalance = w.initialBalance := by
  unfold TrialReturnsWriter.runCall append
  rw [foldl_offer hstride]
  dsimp only
  split
  next => exact ⟨rfl, rfl, rfl⟩
  next =>
    cases call.rowsFail with
    | some written => exact ⟨rfl, rfl, rfl⟩
    | none =>
      cases call.countFail with
      | some written => exact ⟨rfl, rfl, rfl⟩
      | none => exact ⟨rfl, rfl, rfl⟩

theorem runCalls_frame (hstride : 0 < w.stride) (calls : List AppendCall) :
    (w.runCalls calls).stride = w.stride ∧ (w.runCalls calls).periodKeys = w.periodKeys ∧
      (w.runCalls calls).initialBalance = w.initialBalance := by
  induction calls generalizing w with
  | nil => exact ⟨rfl, rfl, rfl⟩
  | cons call calls ih =>
    obtain ⟨hsame, hkeys, hbalance⟩ := w.runCall_frame hstride call
    obtain ⟨hsame', hkeys', hbalance'⟩ :=
      ih (w := (w.runCall call).1) (by rw [hsame]; exact hstride)
    exact ⟨hsame'.trans hsame, hkeys'.trans hkeys, hbalance'.trans hbalance⟩

theorem Grown.runCalls (h : w.Grown rows) {calls : List AppendCall} (hintact : w.RunIntact calls) :
    (w.runCalls calls).Grown (rows ++ calls.flatMap (·.rows)) := by
  induction calls generalizing w rows with
  | nil => simpa [TrialReturnsWriter.runCalls] using h
  | cons call calls ih =>
    obtain ⟨hcall, hrest⟩ := hintact
    rw [List.flatMap_cons, ← List.append_assoc]
    exact ih (h.runCall hcall).1 hrest

theorem runIntact_append {calls : List AppendCall} :
    w.RunIntact (calls ++ [call]) ↔ w.RunIntact calls ∧ (w.runCalls calls).Intact call := by
  induction calls generalizing w with
  | nil => simp [RunIntact, runCalls]
  | cons first calls ih =>
    show w.Intact first ∧ (w.runCall first).1.RunIntact (calls ++ [call]) ↔
      (w.Intact first ∧ (w.runCall first).1.RunIntact calls) ∧
        ((w.runCall first).1.runCalls calls).Intact call
    rw [ih, and_assoc]

theorem grown_opened (available : Option Nat) (periodKeys : List Int64) (initialBalance : UInt64)
    (expectedTrials : Nat) :
    (opened available periodKeys initialBalance expectedTrials).Grown [] := by
  have hafter := after_nil available periodKeys initialBalance expectedTrials
  refine ⟨?_, ?_, ?_, ⟨0, ?_⟩, ?_⟩
  · rw [stride_opened]
    exact retentionStride_pos _ _
  · rw [← hafter]
    rfl
  · rw [← hafter]
    rfl
  · rw [← hafter]
    rfl
  · rw [← hafter]
    rfl

end TrialReturnsWriter

/-- The file decodes to exactly the written rows, the kept ones in their order. -/
def HoldsWritten (w : TrialReturnsWriter) (kept : List TrialReturnRow) : Prop :=
  ∃ m, decode w.file.bytes = .ok m ∧ ReadBack ⟨w.periodKeys, w.initialBalance⟩ kept m ∧
    m.rows.length = w.written ∧ m.headerTrials = w.written ∧ m.truncatedTailBytes = 0

/-- While every failed write of rows has written all of them and every count is written, a call
that returns `Ok` and keeps a row leaves the matrix of all the kept rows. -/
theorem append_leaves_written (available : Option Nat) (periodKeys : List Int64)
    (initialBalance : UInt64) (expectedTrials : Nat) (calls : List AppendCall) (call : AppendCall)
    (kept : List OfferedTrialRow) (hkept : kept = everyNth (TrialReturnsWriter.opened available
      periodKeys initialBalance expectedTrials).stride ((calls ++ [call]).flatMap (·.rows)))
    (hgrid : periodKeys ≠ []) (hperiods : periodKeys.length < 2 ^ 32)
    (hcount : kept.length < 2 ^ 32)
    (hids : ∀ row ∈ kept, 65535 < row.strategyId.utf8ByteSize →
      (⟨65535⟩ : String.Pos.Raw).IsValid row.strategyId)
    (hintact : (TrialReturnsWriter.opened available periodKeys initialBalance
      expectedTrials).RunIntact (calls ++ [call]))
    (hok : (((TrialReturnsWriter.opened available periodKeys initialBalance
      expectedTrials).runCalls calls).runCall call).2 = true)
    (hsome : ((TrialReturnsWriter.opened available periodKeys initialBalance
      expectedTrials).runCalls calls).keptBytes call.rows ≠ []) :
    HoldsWritten ((TrialReturnsWriter.opened available periodKeys initialBalance
      expectedTrials).runCalls (calls ++ [call])) (kept.map (·.toTrialReturnRow)) := by
  have hgrown := TrialReturnsWriter.grown_opened available periodKeys initialBalance expectedTrials
  have hkeys : (TrialReturnsWriter.opened available periodKeys initialBalance
      expectedTrials).periodKeys = periodKeys := by
    cases available <;> rfl
  generalize TrialReturnsWriter.opened available periodKeys initialBalance expectedTrials = writer
    at *
  subst hkeys hkept
  obtain ⟨hcalls, hcall⟩ := TrialReturnsWriter.runIntact_append.mp hintact
  have hbefore := hgrown.runCalls hcalls
  rw [List.nil_append] at hbefore
  have hframe := TrialReturnsWriter.runCalls_frame hgrown.stride calls
  obtain ⟨hafter, hcounted⟩ := hbefore.runCall hcall
  have hcounted := hcounted hok fun hnil => hsome (encodeRows_eq_nil.mpr
    (TrialReturnsWriter.asWritten_eq_nil.mpr hnil))
  have hcallFrame := TrialReturnsWriter.runCall_frame hbefore.stride call
  have hrun : writer.runCalls (calls ++ [call]) = ((writer.runCalls calls).runCall call).1 :=
    List.foldl_concat ..
  have hoffered : calls.flatMap (·.rows) ++ call.rows = (calls ++ [call]).flatMap (·.rows) := by
    rw [List.flatMap_append, List.flatMap_cons, List.flatMap_nil, List.append_nil]
  rw [← hrun] at hafter hcounted hcallFrame
  rw [hoffered] at hafter hcounted
  have hstride := hcallFrame.1.trans hframe.1
  have hwritten := hafter.written
  unfold TrialReturnsWriter.Counted at hcounted
  rw [hstride] at hwritten hcounted
  have hkeys := hcallFrame.2.1.trans hframe.2.1
  have hwhole : ReadsWhole ⟨(writer.runCalls (calls ++ [call])).periodKeys,
      (writer.runCalls (calls ++ [call])).initialBalance⟩
      ((everyNth writer.stride ((calls ++ [call]).flatMap (·.rows))).map
        (·.toTrialReturnRow)) := by
    apply readsWhole
    · rw [hkeys]
      exact hgrid
    · rw [hkeys]
      exact hperiods
    · rw [List.length_map]
      exact hcount
    · intro row hmem
      obtain ⟨offered, hoffered, rfl⟩ := List.mem_map.mp hmem
      exact offered.toTrialReturnRow.keptId_isSome_iff.mpr (hids offered hoffered)
  obtain ⟨m, hdecode, hback, hheader, htail⟩ := hwhole
  rw [List.length_map, ← hwritten] at hheader
  refine ⟨m, ?_, hback, ?_, hheader, htail⟩
  · rw [hcounted, hwritten, ← List.length_map (f := (·.toTrialReturnRow))]
    exact hdecode
  · rw [← hback.rows.length_eq, List.length_map, hwritten]

def sampleOfferedRow : OfferedTrialRow := ⟨⟨7, "s1", [0x3f847ae147ae147b]⟩, 0⟩

theorem append_after_late_failure :
    HoldsWritten ((TrialReturnsWriter.opened none [24313] 0 2).runCalls
      ([⟨[sampleOfferedRow], some 1000, none⟩] ++ [⟨[sampleOfferedRow], none, none⟩]))
      ([sampleOfferedRow, sampleOfferedRow].map (·.toTrialReturnRow)) := by
  apply append_leaves_written
  · decide +kernel
  · decide
  · decide
  · decide
  · decide +kernel
  · refine ⟨⟨?_, rfl⟩, ⟨?_, rfl⟩, trivial⟩
    · decide +kernel
    · decide +kernel
  · decide +kernel
  · decide +kernel

/-- The first write of rows fails before its first byte, and the call is repeated. -/
theorem failed_append_leaves_fewer : ¬∀ (available : Option Nat) (periodKeys : List Int64)
    (initialBalance : UInt64) (expectedTrials : Nat) (calls : List AppendCall) (call : AppendCall)
    (kept : List OfferedTrialRow), kept = everyNth (TrialReturnsWriter.opened available periodKeys
      initialBalance expectedTrials).stride ((calls ++ [call]).flatMap (·.rows)) →
    periodKeys ≠ [] → periodKeys.length < 2 ^ 32 → kept.length < 2 ^ 32 →
    (((TrialReturnsWriter.opened available periodKeys initialBalance
      expectedTrials).runCalls calls).runCall call).2 = true →
    ((TrialReturnsWriter.opened available periodKeys initialBalance
      expectedTrials).runCalls calls).keptBytes call.rows ≠ [] →
    HoldsWritten ((TrialReturnsWriter.opened available periodKeys initialBalance
      expectedTrials).runCalls (calls ++ [call])) (kept.map (·.toTrialReturnRow)) := by
  intro hall
  have hholds := hall none [24313] 0 2 [⟨[sampleOfferedRow], some 0, none⟩]
    ⟨[sampleOfferedRow], none, none⟩ [sampleOfferedRow, sampleOfferedRow] (by decide +kernel)
    (by decide) (by decide) (by decide) (by decide +kernel) (by decide +kernel)
  have hbytes : ((TrialReturnsWriter.opened none [24313] 0 2).runCalls
      ([⟨[sampleOfferedRow], some 0, none⟩] ++
        [⟨[sampleOfferedRow], none, none⟩])).file.bytes =
      encodeHeader [24313] 0 2 ++ encodeRows [sampleOfferedRow.toTrialReturnRow] 1 := by
    decide +kernel
  obtain ⟨m, hdecode, hback, _⟩ := hholds
  have hone := @decode_counted ⟨[24313], 0⟩ [sampleOfferedRow.toTrialReturnRow] (by decide)
    (by decide) 2 (by decide) (by decide +kernel)
  obtain ⟨read, hread, hshort, _⟩ := hone
  dsimp only [List.length_cons, List.length_nil] at hread
  rw [hbytes, hread] at hdecode
  have hsame : read = m := Except.ok.inj hdecode
  rw [hsame] at hshort
  have hlengths := hback.rows.length_eq.trans hshort.rows.length_eq.symm
  exact absurd hlengths (by decide)

end Neoethos
