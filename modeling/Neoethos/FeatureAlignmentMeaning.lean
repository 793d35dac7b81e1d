import Neoethos.FeatureAlignment
import Neoethos.PartitionPoint

namespace Neoethos

open Fallible (bind_ok_iff check_ok_iff refuse_ok_iff require_ok_iff mapM_ok_iff)

section Observation

variable (availableAt : Nat → Option Int) (maxAge : Nat → Option Int) (forwardFill : Bool)
  (rows : Nat) (t : Int)

/-- The last source row that is available at a time, and since when. -/
def lastObserved : Option (Nat × Int) :=
  ((List.range rows).filterMap fun row =>
    ((availableAt row).filter (· ≤ t)).map (row, ·)).getLast?

def observedRow : AlignedRow :=
  match lastObserved availableAt rows t with
  | none => .alignmentMissing
  | some (row, available) =>
    if forwardFill = false ∧ available ≠ t then .alignmentMissing
    else if (maxAge row).any (· < t - available) = true then .stale
    else .source row

end Observation

section Schedule

variable {availableAtMs : List (Option Int)} {featureOpenMs : List Int}

def Scheduled (availableAtMs : List (Option Int)) : Prop :=
  availableAtMs.Pairwise fun a b => ∀ y ∈ b, ∃ x ∈ a, x < y

theorem checkSchedule_ok {row : Nat} {previousAvailable : Option Int} {tail : Bool}
    {schedule : List (Int × Option Int)}
    (h : checkSchedule row previousAvailable tail schedule = .ok ()) :
    Scheduled (schedule.map (·.2)) ∧
      (∀ entry ∈ schedule, ∀ available ∈ entry.2, tail = false ∧
        ∀ previous ∈ previousAvailable, previous < available) := by
  induction schedule generalizing row previousAvailable tail with
  | nil => exact ⟨List.Pairwise.nil, fun _ hmem => absurd hmem List.not_mem_nil⟩
  | cons entry rest ih =>
    obtain ⟨openMs, available⟩ := entry
    cases available with
    | none =>
      obtain ⟨hpairs, hbehind⟩ := ih h
      refine ⟨List.pairwise_cons.mpr ⟨?_, hpairs⟩, ?_⟩
      · intro b hb y hy
        obtain ⟨entry, hentry, rfl⟩ := List.mem_map.mp hb
        obtain ⟨hnever, _⟩ := hbehind entry hentry y hy
        exact absurd hnever (by decide)
      · intro entry hentry available havailable
        obtain rfl | hentry := List.mem_cons.mp hentry
        · cases havailable
        · obtain ⟨hnever, _⟩ := hbehind entry hentry available havailable
          exact absurd hnever (by decide)
    | some available =>
      obtain ⟨hresumes, h⟩ := check_ok_iff.mp h
      obtain ⟨_, h⟩ := check_ok_iff.mp h
      obtain ⟨hascends, h⟩ := check_ok_iff.mp h
      obtain ⟨hpairs, hbehind⟩ := ih h
      have htail : tail = false := by simpa using refuse_ok_iff.mp hresumes
      have hafter (previous : Int) (hprevious : previous ∈ previousAvailable) :
          previous < available := by
        have hnot := refuse_ok_iff.mp hascends
        rw [Option.mem_def.mp hprevious] at hnot
        simpa using hnot
      refine ⟨List.pairwise_cons.mpr ⟨?_, hpairs⟩, ?_⟩
      · intro b hb y hy
        obtain ⟨entry, hentry, rfl⟩ := List.mem_map.mp hb
        exact ⟨available, rfl, (hbehind entry hentry y hy).2 available rfl⟩
      · intro entry hentry later hlater
        obtain rfl | hentry := List.mem_cons.mp hentry
        · obtain rfl := Option.some.inj hlater
          exact ⟨htail, hafter⟩
        · refine ⟨htail, ?_⟩
          intro previous hprevious
          have hfirst := hafter previous hprevious
          have hsecond := (hbehind entry hentry later hlater).2 available rfl
          omega

theorem Scheduled.partitioned (h : Scheduled availableAtMs) (t : Int) :
    Slice.Partitioned (fun available => available.any (· ≤ t)) availableAtMs := by
  refine h.imp ?_
  intro a b hab hb
  obtain ⟨y, hy, hle⟩ := (Option.any_eq_true _ _).mp hb
  obtain ⟨x, hx, hlt⟩ := hab y hy
  have hle : y ≤ t := of_decide_eq_true hle
  exact (Option.any_eq_true _ _).mpr ⟨x, hx, decide_eq_true (by omega)⟩

def availableCount (availableAtMs : List (Option Int)) (t : Int) : Nat :=
  (availableAtMs.filter fun available => available.any (· ≤ t)).length

theorem available_iff (h : Scheduled availableAtMs) {row : Nat} {t : Int} :
    (∃ available, availableAtMs[row]?.join = some available ∧ available ≤ t) ↔
      row < availableCount availableAtMs t := by
  unfold availableCount
  rw [← Slice.any_getElem?_iff (h.partitioned t)]
  constructor
  · intro hex
    obtain ⟨available, hget, hle⟩ := hex
    rw [Option.join_eq_some_iff.mp hget]
    exact decide_eq_true hle
  · intro hany
    obtain ⟨entry, hentry, hle⟩ := (Option.any_eq_true _ _).mp hany
    obtain ⟨available, rfl, hle⟩ := (Option.any_eq_true _ _).mp hle
    exact ⟨available, Option.join_eq_some_iff.mpr hentry, of_decide_eq_true hle⟩

/-- The last value of a function that is defined on the front of a range only. -/
theorem getLast?_filterMap_range {α : Type*} {f : Nat → Option α} {count rows : Nat}
    (hcount : count ≤ rows) (hfront : ∀ row < count, (f row).isSome = true)
    (hbehind : ∀ row, count ≤ row → f row = none) :
    ((List.range rows).filterMap f).getLast? = if count = 0 then none else f (count - 1) := by
  induction rows with
  | zero =>
    have hzero : count = 0 := by omega
    simp [hzero]
  | succ rows ih =>
    rw [List.range_succ, List.filterMap_append]
    by_cases hlast : count = rows + 1
    · obtain ⟨a, ha⟩ := Option.isSome_iff_exists.mp (hfront rows (by omega))
      simp [hlast, ha]
    · simp [hbehind rows (by omega), ih (by omega)]

/-- The last observed row is the last one of the available front. -/
theorem lastObserved_eq (h : Scheduled availableAtMs) (t : Int) :
    lastObserved (fun row => availableAtMs[row]?.join) availableAtMs.length t =
      if availableCount availableAtMs t = 0 then none
      else (availableAtMs[availableCount availableAtMs t - 1]?.join).map
        (availableCount availableAtMs t - 1, ·) := by
  have hrow (row : Nat) : (((availableAtMs[row]?.join).filter (· ≤ t)).map (row, ·)) =
      if row < availableCount availableAtMs t then (availableAtMs[row]?.join).map (row, ·)
      else none := by
    split
    next hlt =>
      obtain ⟨available, hget, hle⟩ := (available_iff h).mpr hlt
      rw [hget]
      simp [hle]
    next hnot =>
      cases hget : availableAtMs[row]?.join with
      | none => rfl
      | some available =>
        have hlate : ¬available ≤ t := fun hle => hnot ((available_iff h).mp ⟨available, hget, hle⟩)
        simpa using hlate
  have hcount : availableCount availableAtMs t ≤ availableAtMs.length := List.length_filter_le _ _
  unfold lastObserved
  rw [getLast?_filterMap_range hcount]
  · split
    next => rfl
    next hpos => rw [hrow, if_pos (by omega)]
  · intro row hlt
    obtain ⟨available, hget, _⟩ := (available_iff h).mpr hlt
    rw [hrow, if_pos hlt, hget]
    rfl
  · intro row hle
    rw [hrow, if_neg (by omega)]

end Schedule

section Cursor

variable {availableAtMs : List (Option Int)} {featureOpenMs : List Int} {forwardFill : Bool}
  {freshness : AlignmentFreshness}

theorem advanceCursor_eq (t : Int) (featureCursor : Nat) (lastAvailableRow : Option Nat)
    (rest : List (Option Int)) :
    advanceCursor t featureCursor lastAvailableRow rest =
      (featureCursor + (rest.takeWhile fun available => available.any (· ≤ t)).length,
        if (rest.takeWhile fun available => available.any (· ≤ t)).length = 0 then lastAvailableRow
        else some (featureCursor +
          (rest.takeWhile fun available => available.any (· ≤ t)).length - 1)) := by
  induction rest generalizing featureCursor lastAvailableRow with
  | nil => simp [advanceCursor]
  | cons available rest ih =>
    cases available with
    | none => simp [advanceCursor]
    | some available =>
      by_cases hle : available ≤ t
      · simp only [advanceCursor, hle, if_true, ih, List.takeWhile_cons, Option.any_some,
          decide_true, List.length_cons]
        generalize (rest.takeWhile fun available => available.any (· ≤ t)).length = passed
        by_cases hzero : passed = 0
        · simp [hzero]
        · have hlast : featureCursor + 1 + passed - 1 = featureCursor + (passed + 1) - 1 := by omega
          simp [hzero, hlast]
          omega
      · simp [advanceCursor, hle]

def rowBefore (cursor : Nat) : Option Nat := if cursor = 0 then none else some (cursor - 1)

theorem takeWhile_drop_length (h : Scheduled availableAtMs) {t : Int} {cursor : Nat}
    (hcursor : cursor ≤ availableCount availableAtMs t) :
    ((availableAtMs.drop cursor).takeWhile fun available => available.any (· ≤ t)).length =
      availableCount availableAtMs t - cursor := by
  have hsplit := (h.partitioned t).split
  have hdrop : availableAtMs.drop cursor =
      (availableAtMs.filter fun available => available.any (· ≤ t)).drop cursor ++
        availableAtMs.filter fun available => !available.any (· ≤ t) := by
    conv_lhs => rw [← hsplit]
    exact List.drop_append_of_le_length hcursor
  have hfront : ∀ available ∈ (availableAtMs.filter fun available => available.any (· ≤ t)).drop
      cursor, (available.any (· ≤ t)) = true :=
    fun available hmem => (List.mem_filter.mp (List.mem_of_mem_drop hmem)).2
  have hbehind : (availableAtMs.filter fun available => !available.any (· ≤ t)).takeWhile
      (fun available => available.any (· ≤ t)) = [] := by
    cases hlist : availableAtMs.filter fun available => !available.any (· ≤ t) with
    | nil => rfl
    | cons available rest =>
      have hmem : available ∈ availableAtMs.filter fun available => !available.any (· ≤ t) := by
        rw [hlist]
        exact List.mem_cons_self
      have hnot := (List.mem_filter.mp hmem).2
      simp only [Bool.not_eq_true'] at hnot
      simp [hnot]
  rw [hdrop, List.takeWhile_append_of_pos hfront, hbehind, List.append_nil, List.length_drop]
  rfl

/-- At the next base time the cursor stands behind the rows that are available then. -/
theorem advanceCursor_spec (h : Scheduled availableAtMs) {t : Int} {cursor : Nat}
    (hcursor : cursor ≤ availableCount availableAtMs t) :
    advanceCursor t cursor (rowBefore cursor) (availableAtMs.drop cursor) =
      (availableCount availableAtMs t, rowBefore (availableCount availableAtMs t)) := by
  rw [advanceCursor_eq, takeWhile_drop_length h hcursor]
  have hsum : cursor + (availableCount availableAtMs t - cursor) =
      availableCount availableAtMs t := by
    omega
  rw [hsum]
  by_cases hsame : availableCount availableAtMs t - cursor = 0
  · have hequal : cursor = availableCount availableAtMs t := by omega
    rw [if_pos hsame, ← hequal]
  · unfold rowBefore
    rw [if_neg hsame, if_neg (by omega)]

theorem availableCount_mono {t t' : Int} (ht : t ≤ t') :
    availableCount availableAtMs t ≤ availableCount availableAtMs t' := by
  unfold availableCount
  apply List.Sublist.length_le
  apply List.monotone_filter_right
  intro available hany
  obtain ⟨x, hx, hle⟩ := (Option.any_eq_true _ _).mp hany
  have hle : x ≤ t := of_decide_eq_true hle
  exact (Option.any_eq_true _ _).mpr ⟨x, hx, decide_eq_true (by omega)⟩

def AlignmentFreshness.maxAge (freshness : AlignmentFreshness) (featureOpenMs : List Int)
    (availableAtMs : List (Option Int)) (row : Nat) : Option Int :=
  match freshness with
  | .fixed maxAgeMs => maxAgeMs
  | .observedSourceSpan => do
    let available ← availableAtMs[row]?.join
    let openMs ← featureOpenMs[row]?
    return available - openMs

theorem alignRow_ok (h : Scheduled availableAtMs) {baseRow : Nat} {t : Int} {row : AlignedRow}
    (halign : alignRow featureOpenMs availableAtMs forwardFill freshness baseRow t
      (rowBefore (availableCount availableAtMs t)) = .ok row) :
    row = observedRow (fun row => availableAtMs[row]?.join)
      (freshness.maxAge featureOpenMs availableAtMs) forwardFill availableAtMs.length t := by
  unfold observedRow
  rw [lastObserved_eq h]
  unfold rowBefore at halign
  split at halign
  next hzero =>
    rw [if_pos hzero]
    exact (Except.ok.inj halign).symm
  next hpos =>
    rw [if_neg hpos]
    obtain ⟨available, hget, _⟩ := (available_iff h).mpr
      (by omega : availableCount availableAtMs t - 1 < availableCount availableAtMs t)
    obtain ⟨_, havailable, halign⟩ := bind_ok_iff.mp halign
    obtain rfl := Option.some.inj (hget.symm.trans (require_ok_iff.mp havailable))
    obtain ⟨age, hage, halign⟩ := bind_ok_iff.mp halign
    obtain ⟨_, rfl⟩ := I64.checkedSub_eq_some.mp (require_ok_iff.mp hage)
    rw [hget]
    dsimp only [Option.map_some]
    by_cases hexact : forwardFill = false ∧ available ≠ t
    · obtain ⟨hfill, hlate⟩ := hexact
      rw [if_pos ⟨by omega, hfill⟩] at halign
      rw [if_pos ⟨hfill, hlate⟩]
      exact (Except.ok.inj halign).symm
    · have hcurrent : ¬(t - available ≠ 0 ∧ forwardFill = false) := by
        intro hboth
        exact hexact ⟨hboth.2, by omega⟩
      rw [if_neg hcurrent] at halign
      rw [if_neg hexact]
      unfold AlignmentFreshness.maxAge
      cases freshness with
      | fixed maxAgeMs =>
        dsimp only at halign ⊢
        rw [Fallible.ok_bind] at halign
        split at halign
        next hstale =>
          rw [if_pos hstale]
          exact (Except.ok.inj halign).symm
        next hfresh =>
          rw [if_neg hfresh]
          exact (Except.ok.inj halign).symm
      | observedSourceSpan =>
        dsimp only at halign ⊢
        obtain ⟨openMs, hopen, halign⟩ := bind_ok_iff.mp halign
        obtain ⟨span, hspan, halign⟩ := bind_ok_iff.mp halign
        obtain ⟨_, rfl⟩ := I64.checkedSub_eq_some.mp (require_ok_iff.mp hspan)
        rw [hget, require_ok_iff.mp hopen]
        show _ = if (some (available - openMs)).any _ = true then _ else _
        rw [Fallible.ok_bind] at halign
        split at halign
        next hstale =>
          rw [if_pos hstale]
          exact (Except.ok.inj halign).symm
        next hfresh =>
          rw [if_neg hfresh]
          exact (Except.ok.inj halign).symm

/-- The loop over an ascending base grid shows the observed rows of its times. -/
theorem alignRows_ok (h : Scheduled availableAtMs) {baseMs : List Int}
    (hbase : baseMs.Pairwise (· < ·)) {cursor baseRow : Nat} {rows : List AlignedRow}
    (hcursor : ∀ t ∈ baseMs, cursor ≤ availableCount availableAtMs t)
    (halign : alignRows featureOpenMs availableAtMs forwardFill freshness cursor (rowBefore cursor)
      baseRow baseMs = .ok rows) :
    rows = baseMs.map (observedRow (fun row => availableAtMs[row]?.join)
      (freshness.maxAge featureOpenMs availableAtMs) forwardFill availableAtMs.length) := by
  induction baseMs generalizing cursor baseRow rows with
  | nil => exact (Except.ok.inj halign).symm
  | cons t baseMs ih =>
    obtain ⟨hlater, hbase⟩ := List.pairwise_cons.mp hbase
    unfold alignRows at halign
    rw [advanceCursor_spec h (hcursor t List.mem_cons_self)] at halign
    obtain ⟨row, hrow, halign⟩ := bind_ok_iff.mp halign
    obtain ⟨rest, hrest, halign⟩ := bind_ok_iff.mp halign
    obtain rfl := Except.ok.inj halign
    have hnext : ∀ t' ∈ baseMs, availableCount availableAtMs t ≤ availableCount availableAtMs t' :=
      fun t' ht' => availableCount_mono (hlater t' ht').le
    rw [List.map_cons, alignRow_ok h hrow, ih hbase hnext hrest]

end Cursor

section Output

variable {F : Type} [FloatOps F] {nan : F}

def FeatureColumnF64.cell (column : FeatureColumnF64 F) (row : Nat) :
    Option (F × FeatureCellValidity) := do
  let value ← column.values[row]?
  let validity ← column.validity[row]?
  return (value, validity)

def FeatureColumnF64.maskedCell (nan : F) (column : FeatureColumnF64 F) (row : Nat) :
    Option (F × FeatureCellValidity) :=
  (column.cell row).map fun (value, validity) => (if validity.isValid then value else nan, validity)

def FeatureColumnF64.shown (nan : F) (column : FeatureColumnF64 F) :
    AlignedRow → Option (F × FeatureCellValidity)
  | .alignmentMissing => some (nan, .alignmentMissing)
  | .stale => some (nan, .stale)
  | .source row => column.maskedCell nan row

theorem canonicalCells_ok {name : String} {row : Nat} {values cells : List F}
    {validity : List FeatureCellValidity} (hlength : values.length = validity.length)
    (h : canonicalCells nan name row values validity = .ok cells) :
    cells = (values.zip validity).map fun (value, validity) =>
      if validity.isValid then value else nan := by
  induction values generalizing row validity cells with
  | nil => exact (Except.ok.inj h).symm
  | cons value values ih =>
    cases validity with
    | nil => cases hlength
    | cons first validity =>
      have hlength : values.length = validity.length := Nat.succ.inj hlength
      unfold canonicalCells at h
      split at h
      next hvalid =>
        obtain ⟨_, h⟩ := check_ok_iff.mp h
        obtain ⟨rest, hrest, h⟩ := bind_ok_iff.mp h
        obtain rfl := Except.ok.inj h
        rw [List.zip_cons_cons, List.map_cons, ih hlength hrest]
        simp [hvalid]
      next hinvalid =>
        obtain ⟨rest, hrest, h⟩ := bind_ok_iff.mp h
        obtain rfl := Except.ok.inj h
        rw [List.zip_cons_cons, List.map_cons, ih hlength hrest]
        simp [hinvalid]

theorem FeatureColumnF64.new_ok {name : String} {cells : List (F × FeatureCellValidity)}
    {column : FeatureColumnF64 F} (hmasked : ∀ cell ∈ cells, cell.2.isValid = false → cell.1 = nan)
    (h : FeatureColumnF64.new nan name (cells.map (·.1)) (cells.map (·.2)) = .ok column) :
    column.name = name ∧ column.values = cells.map (·.1) ∧ column.validity = cells.map (·.2) := by
  obtain ⟨_, h⟩ := check_ok_iff.mp h
  obtain ⟨_, h⟩ := check_ok_iff.mp h
  obtain ⟨values, hvalues, h⟩ := bind_ok_iff.mp h
  obtain rfl := Except.ok.inj h
  have hlength : (cells.map (·.1)).length = (cells.map (·.2)).length := by simp
  refine ⟨rfl, ?_, rfl⟩
  show values = _
  rw [canonicalCells_ok hlength hvalues, List.zip_map', List.map_map]
  apply List.map_congr_left
  intro cell hcell
  show (if cell.2.isValid = true then cell.1 else nan) = cell.1
  split
  next => rfl
  next hinvalid => exact (hmasked cell hcell (by simpa using hinvalid)).symm

omit [FloatOps F] in
theorem alignedCell_ok {source : FeatureColumnF64 F} {row : AlignedRow}
    {cell : F × FeatureCellValidity}
    (hrow : ∀ featureRow, row = .source featureRow → featureRow < source.values.length)
    (h : alignedCell nan source row = .ok cell) :
    source.shown nan row = some cell ∧ (cell.2.isValid = false → cell.1 = nan) := by
  cases row with
  | alignmentMissing =>
    obtain rfl := Except.ok.inj h
    exact ⟨rfl, fun _ => rfl⟩
  | stale =>
    obtain rfl := Except.ok.inj h
    exact ⟨rfl, fun _ => rfl⟩
  | source featureRow =>
    obtain ⟨reason, hreason, h⟩ := bind_ok_iff.mp h
    have hreason := require_ok_iff.mp hreason
    have hvalue := List.getElem?_eq_getElem (hrow featureRow rfl)
    show source.maskedCell nan featureRow = some cell ∧ _
    unfold FeatureColumnF64.maskedCell FeatureColumnF64.cell
    rw [hvalue, hreason]
    split at h
    next hvalid =>
      obtain ⟨value, hread, h⟩ := bind_ok_iff.mp h
      obtain rfl := Except.ok.inj h
      obtain rfl := Option.some.inj (hvalue.symm.trans (require_ok_iff.mp hread))
      refine ⟨?_, fun hinvalid => absurd hvalid (by simp [hinvalid])⟩
      show some (if reason.isValid = true then _ else nan, reason) = _
      rw [if_pos hvalid]
    next hinvalid =>
      obtain rfl := Except.ok.inj h
      refine ⟨?_, fun _ => rfl⟩
      show some (if reason.isValid = true then _ else nan, reason) = _
      rw [if_neg hinvalid]

omit [FloatOps F] in
theorem alignedCells_ok {source : FeatureColumnF64 F} {rows : List AlignedRow}
    {cells : List (F × FeatureCellValidity)}
    (hrows : ∀ featureRow, .source featureRow ∈ rows → featureRow < source.values.length)
    (h : List.Forall₂ (fun row cell => alignedCell nan source row = .ok cell) rows cells) :
    rows.map (source.shown nan) = cells.map some ∧
      ∀ cell ∈ cells, cell.2.isValid = false → cell.1 = nan := by
  induction h with
  | nil => exact ⟨rfl, fun _ hmem => absurd hmem List.not_mem_nil⟩
  | @cons row cell rows cells hcell _ ih =>
    obtain ⟨hmaps, hmasked⟩ :=
      ih fun featureRow hmem => hrows featureRow (List.mem_cons_of_mem _ hmem)
    obtain ⟨hfirst, hfirstMasked⟩ := alignedCell_ok
      (fun featureRow heq => hrows featureRow (heq ▸ List.mem_cons_self)) hcell
    exact ⟨by rw [List.map_cons, List.map_cons, hmaps, hfirst],
      List.forall_mem_cons.mpr ⟨hfirstMasked, hmasked⟩⟩

/-- An output column shows the rows of the loop, in their order. -/
theorem alignedColumn_ok {source column : FeatureColumnF64 F} {rows : List AlignedRow}
    (hrows : ∀ featureRow, .source featureRow ∈ rows → featureRow < source.values.length)
    (h : alignedColumn nan rows source = .ok column) :
    column.name = source.name ∧
      ∀ i, column.cell i = (rows[i]?).bind (source.shown nan) := by
  obtain ⟨cells, hcells, h⟩ := bind_ok_iff.mp h
  obtain ⟨hmaps, hmasked⟩ := alignedCells_ok hrows (mapM_ok_iff.mp hcells)
  obtain ⟨hname, hvalues, hvalidity⟩ := FeatureColumnF64.new_ok hmasked h
  refine ⟨hname, ?_⟩
  intro i
  have hget : (rows.map (source.shown nan))[i]? = (cells.map some)[i]? := by rw [hmaps]
  rw [List.getElem?_map, List.getElem?_map] at hget
  unfold FeatureColumnF64.cell
  rw [hvalues, hvalidity, List.getElem?_map, List.getElem?_map]
  cases hrow : rows[i]? with
  | none =>
    rw [hrow] at hget
    cases hcell : cells[i]? with
    | none => rfl
    | some cell =>
      rw [hcell] at hget
      cases hget
  | some row =>
    rw [hrow] at hget
    cases hcell : cells[i]? with
    | none =>
      rw [hcell] at hget
      cases hget
    | some cell =>
      rw [hcell] at hget
      exact (Option.some.inj hget).symm

end Output

end Neoethos
