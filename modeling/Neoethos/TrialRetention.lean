import Mathlib.Data.List.Induction
import Neoethos.TrialMatrix
import Neoethos.TrialMatrixFormat

namespace Neoethos

open DecodedTrialMatrix (length_encodeHeader length_magic)

section Stride

variable {stride : Nat} {rows later : List OfferedTrialRow}

def keptFrom (stride offered : Nat) (rows : List OfferedTrialRow) : List OfferedTrialRow :=
  ((rows.zipIdx offered).filter fun (_, index) => index % stride = 0).map (·.1)

theorem keptFrom_cons (offered : Nat) (row : OfferedTrialRow) :
    keptFrom stride offered (row :: rows) = if offered % stride = 0 then
      row :: keptFrom stride (offered + 1) rows else keptFrom stride (offered + 1) rows := by
  unfold keptFrom
  rw [List.zipIdx_cons, List.filter_cons]
  by_cases hkeep : offered % stride = 0
  · simp [hkeep]
  · simp [hkeep]

theorem everyNth_append : everyNth stride (rows ++ later) =
    everyNth stride rows ++ keptFrom stride rows.length later := by
  unfold everyNth keptFrom
  rw [List.zipIdx_append, List.filter_append, List.map_append, Nat.zero_add]

theorem mem_of_mem_everyNth {row : OfferedTrialRow} (h : row ∈ everyNth stride rows) :
    row ∈ rows := by
  obtain ⟨entry, hentry, rfl⟩ := List.mem_map.mp h
  obtain ⟨value, index⟩ := entry
  exact (List.mem_zipIdx' (List.mem_filter.mp hentry).1).2 ▸ List.getElem_mem _

/-- The kept rows are as many as the strides that were begun. -/
theorem length_everyNth (hstride : 0 < stride) :
    (everyNth stride rows).length = (rows.length + stride - 1) / stride := by
  induction rows using List.reverseRecOn with
  | nil =>
    rw [List.length_nil, Nat.zero_add, Nat.div_eq_of_lt (by omega)]
    rfl
  | append_singleton rows row ih =>
    have hsplit := Nat.div_add_mod rows.length stride
    have hrest := Nat.mod_lt rows.length hstride
    rw [everyNth_append, List.length_append, ih, keptFrom_cons, List.length_append,
      List.length_singleton]
    generalize rows.length / stride = strides at hsplit
    generalize rows.length % stride = rest at hsplit hrest
    rw [← hsplit]
    have hnext : (stride * strides + rest + 1 + stride - 1) / stride = strides + 1 := by
      rw [show stride * strides + rest + 1 + stride - 1 = stride * (strides + 1) + rest by
        rw [Nat.mul_add]; omega, Nat.mul_add_div hstride, Nat.div_eq_of_lt hrest]
    rw [hnext]
    by_cases hzero : rest = 0
    · have hsame : (stride * strides + rest + stride - 1) / stride = strides := by
        rw [show stride * strides + rest + stride - 1 = stride * strides + (stride - 1) by omega,
          Nat.mul_add_div hstride, Nat.div_eq_of_lt (by omega)]
        rfl
      rw [hsame, if_pos hzero, keptFrom, List.zipIdx_nil]
      rfl
    · have hsame : (stride * strides + rest + stride - 1) / stride = strides + 1 := by
        rw [show stride * strides + rest + stride - 1 = stride * (strides + 1) + (rest - 1) by
          rw [Nat.mul_add]; omega, Nat.mul_add_div hstride, Nat.div_eq_of_lt (by omega)]
      rw [hsame, if_neg hzero, keptFrom, List.zipIdx_nil]
      rfl

theorem retentionStride_pos (total keep : Nat) : 0 < retentionStride total keep := by
  unfold retentionStride
  split
  next => exact Nat.one_pos
  next hnot =>
    split
    next => exact Nat.one_pos
    next hmore => exact Nat.div_pos (by omega) (by omega)

/-- The stride keeps no more rows than it should, unless it should keep none. -/
theorem length_everyNth_le {total keep : Nat} (hkeep : 0 < keep) (hrows : rows.length ≤ total) :
    (everyNth (retentionStride total keep) rows).length ≤ keep := by
  have hpos := retentionStride_pos total keep
  rw [length_everyNth hpos]
  have hcover : total ≤ retentionStride total keep * keep := by
    unfold retentionStride
    split
    next hnone => omega
    next =>
      split
      next hfits => omega
      next hmore =>
        have hceil := Nat.lt_mul_div_succ (total - 1) hkeep
        have hsucc : (total + keep - 1) / keep = (total - 1) / keep + 1 := by
          rw [show total + keep - 1 = total - 1 + keep by omega, Nat.add_div_right _ hkeep]
        rw [hsucc, Nat.mul_comm]
        omega
  generalize retentionStride total keep = stride at hpos hcover
  apply Nat.le_of_lt_succ
  rw [Nat.div_lt_iff_lt_mul hpos, Nat.succ_mul, Nat.mul_comm keep]
  omega

end Stride

section File

theorem OpenFile.overwrite_end {file : OpenFile} (h : file.position = file.bytes.length)
    (data : List UInt8) :
    file.overwrite data = ⟨file.bytes ++ data, file.bytes.length + data.length⟩ := by
  unfold OpenFile.overwrite
  rw [h, List.take_length, List.drop_of_length_le (Nat.le_add_right _ _), List.append_nil]

theorem overwrite_count (periodKeys : List Int64) (initialBalance : UInt64) (trials count : Nat)
    (rest : List UInt8) :
    (⟨encodeHeader periodKeys initialBalance trials ++ rest, HEADER_TRIALS_OFFSET⟩ :
      OpenFile).overwrite (LittleEndian.encode 4 count) =
      ⟨encodeHeader periodKeys initialBalance count ++ rest, HEADER_TRIALS_OFFSET + 4⟩ := by
  have hfront : (TRIAL_RETURNS_MAGIC ++ LittleEndian.encode 4 1).length = HEADER_TRIALS_OFFSET := by
    rw [List.length_append, length_magic, LittleEndian.length_encode]
    rfl
  have hsplit : ∃ back, ∀ n, encodeHeader periodKeys initialBalance n ++ rest =
      (TRIAL_RETURNS_MAGIC ++ LittleEndian.encode 4 1) ++ (LittleEndian.encode 4 n ++ back) := by
    refine ⟨LittleEndian.encode 4 periodKeys.length ++ LittleEndian.encode 4 1 ++
      LittleEndian.encode 8 initialBalance.toNat ++ LittleEndian.encode 8 0 ++
      (periodKeys.flatMap fun key => LittleEndian.encode 8 key.toUInt64.toNat) ++ rest, ?_⟩
    intro n
    unfold encodeHeader
    simp only [List.append_assoc]
  obtain ⟨back, hback⟩ := hsplit
  unfold OpenFile.overwrite
  dsimp only
  rw [hback, hback, ← hfront, List.take_left, ← List.drop_drop, List.drop_left,
    LittleEndian.length_encode, ← List.append_assoc]
  rw [show ((LittleEndian.encode 4 trials ++ back).drop 4) = back from
    List.drop_left' (LittleEndian.length_encode 4 trials)]

theorem encodeRows_append (rows later : List TrialReturnRow) (periods : Nat) :
    encodeRows (rows ++ later) periods = encodeRows rows periods ++ encodeRows later periods :=
  List.flatMap_append

theorem encodeRows_eq_nil {rows : List TrialReturnRow} {periods : Nat} :
    encodeRows rows periods = [] ↔ rows = [] := by
  cases rows with
  | nil => simp [encodeRows]
  | cons row rows =>
    have hlength := row.length_encode periods
    constructor
    · intro h
      have hnil : row.encode periods = [] := (List.append_eq_nil_iff.mp h).1
      rw [hnil, List.length_nil] at hlength
      omega
    · intro h
      cases h

end File

namespace TrialReturnsWriter

variable {w : TrialReturnsWriter} {rows later : List OfferedTrialRow}

def asWritten (rows : List OfferedTrialRow) : List TrialReturnRow := rows.map (·.toTrialReturnRow)

theorem asWritten_eq_nil : asWritten rows = [] ↔ rows = [] := List.map_eq_nil_iff

theorem length_asWritten : (asWritten rows).length = rows.length := List.length_map _

def counted (w : TrialReturnsWriter) (rows : List OfferedTrialRow) : TrialReturnsWriter :=
  { w with
    offered := w.offered + rows.length
    written := w.written + (keptFrom w.stride w.offered rows).length
    outsideOffered := w.outsideOffered + (rows.map (·.tradesOutsideGrid)).sum
    outsideWritten := w.outsideWritten +
      ((keptFrom w.stride w.offered rows).map (·.tradesOutsideGrid)).sum }

theorem offer_eq (hstride : 0 < w.stride) (buf : List UInt8) (row : OfferedTrialRow) :
    offer (w, buf) row = if w.offered % w.stride = 0 then
      ({ w with
          offered := w.offered + 1
          outsideOffered := w.outsideOffered + row.tradesOutsideGrid
          written := w.written + 1
          outsideWritten := w.outsideWritten + row.tradesOutsideGrid },
        buf ++ row.toTrialReturnRow.encode w.periodKeys.length)
    else ({ w with
        offered := w.offered + 1
        outsideOffered := w.outsideOffered + row.tradesOutsideGrid }, buf) := by
  unfold offer
  dsimp only
  by_cases hkeep : w.offered % w.stride = 0
  · rw [if_pos hkeep, if_pos (by simp [hkeep])]
  · have hmany : ¬w.stride ≤ 1 := by
      intro hone
      rw [show w.stride = 1 by omega, Nat.mod_one] at hkeep
      exact hkeep rfl
    rw [if_neg hkeep, if_neg (by simp [hkeep, hmany])]

theorem foldl_offer (hstride : 0 < w.stride) (buf : List UInt8) :
    rows.foldl offer (w, buf) = (w.counted rows, buf ++
      encodeRows (asWritten (keptFrom w.stride w.offered rows)) w.periodKeys.length) := by
  induction rows generalizing w buf with
  | nil => simp [counted, keptFrom, asWritten, encodeRows]
  | cons row rows ih =>
    rw [List.foldl_cons, offer_eq hstride]
    by_cases hkeep : w.offered % w.stride = 0
    · rw [if_pos hkeep, ih (by exact hstride)]
      unfold counted
      dsimp only
      rw [keptFrom_cons, if_pos hkeep]
      simp only [List.length_cons, List.map_cons, List.sum_cons, asWritten, encodeRows,
        List.flatMap_cons, List.append_assoc, Nat.add_assoc, Nat.add_comm 1]
    · rw [if_neg hkeep, ih (by exact hstride)]
      unfold counted
      dsimp only
      rw [keptFrom_cons, if_neg hkeep]
      simp only [List.length_cons, List.map_cons, List.sum_cons, Nat.add_assoc, Nat.add_comm 1]

def after (w : TrialReturnsWriter) (rows : List OfferedTrialRow) : TrialReturnsWriter :=
  let kept := everyNth w.stride rows
  let bytes := encodeHeader w.periodKeys w.initialBalance kept.length ++
    encodeRows (asWritten kept) w.periodKeys.length
  { w with
    file := ⟨bytes, bytes.length⟩
    offered := rows.length
    written := kept.length
    bytesWritten := bytes.length
    outsideOffered := (rows.map (·.tradesOutsideGrid)).sum
    outsideWritten := (kept.map (·.tradesOutsideGrid)).sum }

theorem append_after (hstride : 0 < w.stride) :
    (w.after rows).append later none none = (w.after (rows ++ later), true) := by
  have hkept : everyNth w.stride (rows ++ later) =
      everyNth w.stride rows ++ keptFrom w.stride rows.length later := everyNth_append
  unfold append
  rw [foldl_offer (by exact hstride)]
  dsimp only
  rw [show (w.after rows).stride = w.stride from rfl, show (w.after rows).offered = rows.length
    from rfl, List.nil_append]
  by_cases hempty : keptFrom w.stride rows.length later = []
  · rw [if_pos (encodeRows_eq_nil.mpr (asWritten_eq_nil.mpr hempty))]
    unfold counted after
    dsimp only
    rw [hkept, hempty]
    simp only [List.append_nil, List.length_append, List.map_append, List.sum_append,
      List.length_nil, List.map_nil, List.sum_nil, Nat.add_zero]
  · rw [if_neg fun hnil => hempty (asWritten_eq_nil.mp (encodeRows_eq_nil.mp hnil))]
    unfold OpenFile.writeAll
    dsimp only
    rw [OpenFile.overwrite_end rfl]
    unfold patchTrialCount OpenFile.writeAll
    dsimp only
    unfold counted after
    dsimp only
    rw [List.append_assoc, overwrite_count, hkept]
    simp only [asWritten, List.length_append, List.map_append, List.sum_append, encodeRows_append,
      length_encodeHeader, Nat.add_assoc]

theorem after_nil (available : Option Nat) (periodKeys : List Int64) (initialBalance : UInt64)
    (expectedTrials : Nat) : (opened available periodKeys initialBalance expectedTrials).after [] =
      opened available periodKeys initialBalance expectedTrials := by
  unfold after
  simp only [everyNth, List.zipIdx_nil, List.filter_nil, List.map_nil, asWritten, encodeRows,
    List.flatMap_nil, List.append_nil, List.length_nil, List.sum_nil]
  cases available <;> rfl

theorem appendAll_after (hstride : 0 < w.stride) (chunks : List (List OfferedTrialRow)) :
    (w.after rows).appendAll chunks = w.after (rows ++ chunks.flatten) := by
  induction chunks generalizing rows with
  | nil => simp [appendAll]
  | cons chunk chunks ih =>
    show appendAll ((w.after rows).append chunk none none).1 chunks = _
    rw [append_after hstride, ih, List.flatten_cons, List.append_assoc]

theorem stride_opened (available : Option Nat) (periodKeys : List Int64) (initialBalance : UInt64)
    (expectedTrials : Nat) :
    (opened available periodKeys initialBalance expectedTrials).stride =
      retentionStride expectedTrials (rowsWithinBudget
        (opened available periodKeys initialBalance expectedTrials).budget periodKeys.length
        (rowBytes ASSUMED_STRATEGY_ID_BYTES periodKeys.length)) := by
  cases available <;> rfl

theorem stride_opened_pos (available : Option Nat) (periodKeys : List Int64)
    (initialBalance : UInt64) (expectedTrials : Nat) :
    0 < (opened available periodKeys initialBalance expectedTrials).stride := by
  rw [stride_opened]
  exact retentionStride_pos _ _

/-- However the rows come in chunks, a new writer keeps what it would keep of them in one. -/
theorem appendAll_opened (available : Option Nat) (periodKeys : List Int64)
    (initialBalance : UInt64) (expectedTrials : Nat) (chunks : List (List OfferedTrialRow)) :
    (opened available periodKeys initialBalance expectedTrials).appendAll chunks =
      (opened available periodKeys initialBalance expectedTrials).after chunks.flatten := by
  have hpos := stride_opened_pos available periodKeys initialBalance expectedTrials
  rw [← after_nil, appendAll_after hpos, List.nil_append, after_nil]

end TrialReturnsWriter

section Budget

variable {budget periods : Nat} {rows : List TrialReturnRow}

/-- The capacity is not zero when the disk can take the header, the grid and one row. -/
theorem rowsWithinBudget_pos :
    0 < rowsWithinBudget budget periods (rowBytes ASSUMED_STRATEGY_ID_BYTES periods) ↔
      HEADER_BYTES + 8 * periods + rowBytes ASSUMED_STRATEGY_ID_BYTES periods ≤ budget := by
  have hrow : 0 < rowBytes ASSUMED_STRATEGY_ID_BYTES periods := by
    unfold rowBytes
    omega
  unfold rowsWithinBudget
  dsimp only
  split
  next hsmall => omega
  next hlarge =>
    rw [Nat.div_pos_iff]
    omega

theorem rowsWithinBudget_mul_le (budget periods : Nat) :
    rowsWithinBudget budget periods (rowBytes ASSUMED_STRATEGY_ID_BYTES periods) *
      rowBytes ASSUMED_STRATEGY_ID_BYTES periods ≤ budget - (HEADER_BYTES + 8 * periods) := by
  unfold rowsWithinBudget
  dsimp only
  split
  next => rw [Nat.zero_mul]; exact Nat.zero_le _
  next => exact Nat.div_mul_le_self _ _

theorem length_encodeRows_le (periods : Nat)
    (hids : ∀ row ∈ rows, row.idBytes.length ≤ ASSUMED_STRATEGY_ID_BYTES) :
    (encodeRows rows periods).length ≤
      rows.length * rowBytes ASSUMED_STRATEGY_ID_BYTES periods := by
  induction rows with
  | nil => simp [encodeRows]
  | cons row rows ih =>
    obtain ⟨hid, hids⟩ := List.forall_mem_cons.mp hids
    have hrest := ih hids
    have hlength := row.length_encode periods
    have hcut : row.idLen ≤ row.idBytes.length := Nat.min_le_left _ _
    rw [List.length_cons, Nat.succ_mul]
    show (row.encode periods ++ encodeRows rows periods).length ≤ _
    rw [List.length_append, hlength]
    unfold rowBytes at hrest ⊢
    omega

end Budget

/-- What an opened writer makes of the rows that are offered to it. -/
structure RetentionHolds (writer : TrialReturnsWriter) (chunks : List (List OfferedTrialRow)) :
    Prop where
  concatenated : writer.appendAll chunks = writer.appendAll [chunks.flatten]
  file : (writer.appendAll chunks).file.bytes =
    encodeHeader writer.periodKeys writer.initialBalance
      (everyNth writer.stride chunks.flatten).length ++
    encodeRows ((everyNth writer.stride chunks.flatten).map (·.toTrialReturnRow))
      writer.periodKeys.length
  offered : (writer.appendAll chunks).offered = chunks.flatten.length
  written : (writer.appendAll chunks).written = (everyNth writer.stride chunks.flatten).length
  outsideOffered : (writer.appendAll chunks).outsideOffered =
    (chunks.flatten.map (·.tradesOutsideGrid)).sum
  outsideWritten : (writer.appendAll chunks).outsideWritten =
    ((everyNth writer.stride chunks.flatten).map (·.tradesOutsideGrid)).sum
  withinBudget : chunks.flatten.length ≤ writer.expectedTrials →
    (everyNth writer.stride chunks.flatten).length ≤
      rowsWithinBudget writer.budget writer.periodKeys.length writer.meanRowBytes
  fileSize : chunks.flatten.length ≤ writer.expectedTrials →
    (∀ row ∈ chunks.flatten, row.idBytes.length ≤ ASSUMED_STRATEGY_ID_BYTES) →
    (writer.appendAll chunks).file.bytes.length ≤
      writer.budget + (HEADER_BYTES + 8 * writer.periodKeys.length)

/-- The budget is kept exactly when it can take the header, the grid and one row; a smaller one
keeps every row, so that it holds only of nothing, or of more rows than were expected. -/
theorem retention_holds_iff (available : Option Nat) (periodKeys : List Int64)
    (initialBalance : UInt64) (expectedTrials : Nat) (chunks : List (List OfferedTrialRow)) :
    RetentionHolds (.opened available periodKeys initialBalance expectedTrials) chunks ↔
      HEADER_BYTES + 8 * periodKeys.length +
          rowBytes ASSUMED_STRATEGY_ID_BYTES periodKeys.length ≤
        (match available with
          | some available => available / DISK_SHARE_DIVISOR
          | none => PROBE_FAILED_BUDGET_BYTES) ∨
      chunks.flatten = [] ∨ expectedTrials < chunks.flatten.length := by
  have hbudget : (TrialReturnsWriter.opened available periodKeys initialBalance
      expectedTrials).budget = (match available with
        | some available => available / DISK_SHARE_DIVISOR
        | none => PROBE_FAILED_BUDGET_BYTES) := by
    cases available <;> rfl
  have hkeys : (TrialReturnsWriter.opened available periodKeys initialBalance
      expectedTrials).periodKeys = periodKeys := by
    cases available <;> rfl
  have hmean : (TrialReturnsWriter.opened available periodKeys initialBalance
      expectedTrials).meanRowBytes = rowBytes ASSUMED_STRATEGY_ID_BYTES periodKeys.length := by
    cases available <;> rfl
  have hexpected : (TrialReturnsWriter.opened available periodKeys initialBalance
      expectedTrials).expectedTrials = expectedTrials := by
    cases available <;> rfl
  have hstride := TrialReturnsWriter.stride_opened available periodKeys initialBalance
    expectedTrials
  have hpos := TrialReturnsWriter.stride_opened_pos available periodKeys initialBalance
    expectedTrials
  have hrun := TrialReturnsWriter.appendAll_opened available periodKeys initialBalance
    expectedTrials
  rw [← hbudget]
  generalize TrialReturnsWriter.opened available periodKeys initialBalance expectedTrials = writer
    at *
  subst hkeys hexpected
  rw [← rowsWithinBudget_pos, ← hmean]
  have hbytes : (writer.appendAll chunks).file.bytes.length =
      HEADER_BYTES + writer.periodKeys.length * 8 +
        (encodeRows (TrialReturnsWriter.asWritten (everyNth writer.stride chunks.flatten))
          writer.periodKeys.length).length := by
    rw [hrun]
    show (_ ++ _ : List UInt8).length = _
    rw [List.length_append, length_encodeHeader]
  have hwithin (hcond : 0 < rowsWithinBudget writer.budget writer.periodKeys.length
      writer.meanRowBytes ∨ chunks.flatten = [] ∨
        writer.expectedTrials < chunks.flatten.length)
      (hoffered : chunks.flatten.length ≤ writer.expectedTrials) :
      (everyNth writer.stride chunks.flatten).length ≤
        rowsWithinBudget writer.budget writer.periodKeys.length writer.meanRowBytes := by
    obtain hroom | hnone | hmore := hcond
    · rw [hstride, ← hmean]
      exact length_everyNth_le hroom hoffered
    · rw [hnone]
      exact Nat.zero_le _
    · omega
  constructor
  · intro h
    by_contra hnot
    rw [not_or, not_or, Nat.not_lt, Nat.not_lt] at hnot
    obtain ⟨hnone, hrows, hoffered⟩ := hnot
    have hkept := h.withinBudget hoffered
    have hpositive : 0 < (everyNth writer.stride chunks.flatten).length := by
      rw [length_everyNth hpos]
      have hlength := List.length_pos_iff.mpr hrows
      exact Nat.div_pos (by omega) hpos
    omega
  · intro hcond
    refine ⟨?_, ?_, ?_, ?_, ?_, ?_, hwithin hcond, ?_⟩
    · rw [hrun, hrun, List.flatten_cons, List.flatten_nil, List.append_nil]
    · rw [hrun]
      rfl
    · rw [hrun]
      rfl
    · rw [hrun]
      rfl
    · rw [hrun]
      rfl
    · rw [hrun]
      rfl
    · intro hoffered hids
      have hkept := hwithin hcond hoffered
      rw [hmean] at hkept
      have hrows : (encodeRows (TrialReturnsWriter.asWritten
          (everyNth writer.stride chunks.flatten)) writer.periodKeys.length).length ≤
          (everyNth writer.stride chunks.flatten).length *
            rowBytes ASSUMED_STRATEGY_ID_BYTES writer.periodKeys.length := by
        rw [← TrialReturnsWriter.length_asWritten]
        apply length_encodeRows_le
        intro row hmem
        obtain ⟨offered, hoffered, rfl⟩ := List.mem_map.mp hmem
        exact hids offered (mem_of_mem_everyNth hoffered)
      have hroom := Nat.mul_le_mul_right
        (rowBytes ASSUMED_STRATEGY_ID_BYTES writer.periodKeys.length) hkept
      have hfits := rowsWithinBudget_mul_le writer.budget writer.periodKeys.length
      rw [hbytes]
      omega

/-- On a disk with 10000 bytes left, whose share takes the header but no row, a row is kept. -/
theorem nearly_full_disk_keeps_row : ¬∀ (available : Option Nat) (periodKeys : List Int64)
    (initialBalance : UInt64) (expectedTrials : Nat) (chunks : List (List OfferedTrialRow)),
    RetentionHolds (.opened available periodKeys initialBalance expectedTrials) chunks := by
  intro hall
  have hkept := (hall (some 10000) [24313] 0 1 [[⟨⟨7, "s1", [0]⟩, 0⟩]]).withinBudget (by decide)
  exact absurd hkept (by decide)

end Neoethos
