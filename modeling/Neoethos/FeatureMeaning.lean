import Neoethos.FeatureFitted

namespace Neoethos

open Fallible (refuse require bind_ok_iff check_ok_iff mapError_ok_iff refuse_ok_iff require_ok_iff
  mapM_ok_iff)
open Selection (pick Within)

variable {F A : Type} [FloatOps F] {nan : F}

namespace FeatureFrame

/-- A frame shows one table, and its raw projections, where there are any, another. -/
structure Means (nan : F) (frame : FeatureFrame F A) (table raw : FeatureTable F) : Prop where
  samples : frame.nSamples = table.nRows
  names : frame.names = table.names
  rectangular : table.Rectangular
  named : ∀ name ∈ table.names, name ≠ ""
  clean : ∀ column ∈ table.columns, ∀ cell, some cell ∈ column.cells → CleanCell nan cell
  rawSamples : raw.nRows = table.nRows
  rawNames : raw.names = table.names
  rawRectangular : raw.Rectangular
  reads : Reads nan true frame table
  serves : Serves nan frame table
  readsRaw : Reads nan false frame raw
  unfitted : frame.head.normalizationFittedState = none → raw = table

section InMemory

variable {head : FeatureFrameHead F A} {columns : List (FeatureColumnF64 F)}

omit [FloatOps F] in
theorem table_names (hnames : columns.map (·.name) = head.names) :
    (table head columns).names = head.names := by
  unfold FeatureTable.names table
  rw [List.map_map, ← hnames]
  rfl

/-- A frame in memory, whose columns their constructor made, means its own table. -/
theorem inMemory_means (hbacking : validateBacking (inMemory head columns) = .ok ())
    (hclean : ∀ column ∈ columns, CleanColumn nan column) {raw : FeatureTable F}
    (hrawSamples : raw.nRows = head.timestamps.length) (hrawNames : raw.names = head.names)
    (hrawRectangular : raw.Rectangular)
    (hunfitted : head.normalizationFittedState = none → raw = table head columns) :
    Means nan (inMemory head columns) (table head columns) raw := by
  have hchecks := hbacking
  unfold validateBacking at hchecks
  dsimp only at hchecks
  simp only [check_ok_iff, refuse_ok_iff, not_not] at hchecks
  obtain ⟨hids, hcount, hnames⟩ := hchecks
  obtain ⟨hnames, hrows⟩ := checkBacking_ok hcount hnames
  have htable := table_names hnames
  refine {
    samples := rfl
    names := htable.symm
    rectangular := ⟨checkRowIds_length hids, ?_⟩
    named := ?_
    clean := ?_
    rawSamples := hrawSamples
    rawNames := hrawNames.trans htable.symm
    rawRectangular := hrawRectangular
    reads := ?_
    serves := ?_
    readsRaw := ?_
    unfitted := hunfitted }
  · intro column hcolumn
    obtain ⟨source, hsource, rfl⟩ := List.mem_map.mp hcolumn
    have hlength := (hclean source hsource).length
    have hrow := hrows source hsource
    unfold FeatureColumnF64.toTable FeatureColumnF64.cells
    rw [List.length_map, List.length_zipWith, hrow]
    rw [hrow] at hlength
    rw [← hlength, Nat.min_self]
    rfl
  · intro name hname
    rw [htable, ← hnames] at hname
    obtain ⟨source, hsource, rfl⟩ := List.mem_map.mp hname
    exact (hclean source hsource).name
  · intro column hcolumn cell hcell
    obtain ⟨source, hsource, rfl⟩ := List.mem_map.mp hcolumn
    obtain ⟨shown, hshown, heq⟩ := List.mem_map.mp hcell
    obtain rfl := Option.some.inj heq
    exact (hclean source hsource).cells shown hshown
  · intro selected range batch hproject
    obtain ⟨shown, hshown, hread⟩ := inMemory_project true hbacking hclean
      (projectable_of_ok hproject) (.inl rfl)
    rw [hproject] at hshown
    rw [Except.ok.inj hshown]
    exact hread
  · intro selected range batch hprojectable hread
    obtain ⟨shown, hshown, hread'⟩ := inMemory_project true hbacking hclean hprojectable
      (.inl rfl)
    rw [hread] at hread'
    rw [Option.some.inj hread']
    exact hshown
  · intro selected range batch hproject
    have hprojectable := projectable_of_ok hproject
    cases hstate : head.normalizationFittedState with
    | none =>
      obtain ⟨shown, hshown, hread⟩ := inMemory_project false hbacking hclean
        hprojectable (.inr hstate)
      rw [hproject] at hshown
      rw [Except.ok.inj hshown, hunfitted hstate]
      exact hread
    | some state =>
      -- A normalized frame in memory has nothing raw to show.
      rw [projectColumnsMode, check_ok_iff, check_ok_iff, refuse_ok_iff, hstate] at hproject
      simp at hproject

end InMemory

section Views

variable {head : FeatureFrameHead F A} {parent : FeatureFrame F A} {physical : List Nat}
  {viewRows : RowRange} {indices : Option (List Nat)} {table raw : FeatureTable F}

omit [FloatOps F] in
theorem names_selected (rows physical : List Nat) (table : FeatureTable F) :
    ((table.selectColumns physical).selectRows rows).names = pick physical table.names := by
  unfold FeatureTable.names FeatureTable.selectRows FeatureTable.selectColumns
  rw [List.map_map, Selection.pick_map]
  rfl

omit [FloatOps F] in
theorem nRows_selected {rows : List Nat} (physical : List Nat) {table : FeatureTable F}
    (hrows : Within rows table.nRows) :
    ((table.selectColumns physical).selectRows rows).nRows = rows.length :=
  Selection.length_pick hrows

theorem Means.view (hmeans : Means nan parent table raw)
    (h : ViewMaps head parent physical viewRows indices)
    (hstate : head.normalizationFittedState = parent.head.normalizationFittedState) :
    Means nan (.view head parent physical viewRows none indices)
      ((table.selectColumns physical).selectRows (viewRowList viewRows indices))
      ((raw.selectColumns physical).selectRows (viewRowList viewRows indices)) := by
  have hrows := h.rowList_within
  rw [hmeans.samples] at hrows
  have hrawRows : Within (viewRowList viewRows indices) raw.nRows := by
    rw [hmeans.rawSamples]
    exact hrows
  have hnames : pick physical table.names = head.names := by
    rw [← hmeans.names]
    exact h.names
  refine {
    samples := ?_
    names := ?_
    rectangular := FeatureTable.selectRows_rectangular
      (FeatureTable.selectColumns_rectangular hmeans.rectangular physical) hrows
    named := ?_
    clean := ?_
    rawSamples := ?_
    rawNames := ?_
    rawRectangular := FeatureTable.selectRows_rectangular
      (FeatureTable.selectColumns_rectangular hmeans.rawRectangular physical) hrawRows
    reads := view_reads h hmeans.rectangular hmeans.samples hmeans.names hmeans.reads (.inl rfl)
    serves := view_serves h hmeans.rectangular hmeans.samples hmeans.names hmeans.named
      hmeans.serves
    readsRaw := view_reads h hmeans.rawRectangular (hmeans.samples.trans hmeans.rawSamples.symm)
      (hmeans.names.trans hmeans.rawNames.symm) hmeans.readsRaw (.inl rfl)
    unfitted := ?_ }
  · rw [nRows_selected physical hrows, h.length_rowList]
    rfl
  · rw [names_selected]
    exact hnames.symm
  · intro name hname
    rw [names_selected] at hname
    exact hmeans.named name (Selection.mem_of_mem_pick hname)
  · intro column hcolumn cell hcell
    obtain ⟨source, hsource, rfl⟩ := List.mem_map.mp hcolumn
    exact hmeans.clean source (Selection.mem_of_mem_pick hsource) cell
      (Selection.mem_of_mem_pick hcell)
  · rw [nRows_selected physical hrows, nRows_selected physical hrawRows]
  · rw [names_selected, names_selected, hmeans.rawNames]
  · intro hnone
    rw [hmeans.unfitted (hstate ▸ hnone)]

end Views

section Fitted

theorem transformFittedCell_clean
    (hclip : ∀ value : F, FloatOps.isFinite value = true → FloatOps.isFinite (clip value) = true)
    (fit : RobustNormalizationFitF64 F) (cell : FeatureCellF64 F) :
    CleanCell nan (transformFittedCell nan fit cell) := by
  unfold transformFittedCell
  split
  next hinvalid =>
    refine ⟨fun hvalid => ?_, fun _ => rfl⟩
    rw [Bool.not_eq_true'] at hinvalid
    rw [hinvalid] at hvalid
    cases hvalid
  next hvalid =>
    split
    next => exact ⟨fun h => (Bool.false_ne_true h).elim, fun _ => rfl⟩
    next =>
      dsimp only
      split
      next hfinite =>
        refine ⟨fun _ => hclip _ hfinite, fun h => ?_⟩
        rw [h] at hvalid
        exact absurd rfl hvalid
      next => exact ⟨fun h => (Bool.false_ne_true h).elim, fun _ => rfl⟩

variable {head : FeatureFrameHead F A} {parent : FeatureFrame F A} {physical : List Nat}
  {viewRows : RowRange} {indices : Option (List Nat)} {table raw : FeatureTable F}
  {fits : List (RobustNormalizationFitF64 F)}

theorem map_name_fitted {columns : List (TableColumn F)}
    (hlength : fits.length = columns.length) :
    (List.zipWith (TableColumn.fitted nan) fits columns).map (·.name) = columns.map (·.name) := by
  induction fits generalizing columns with
  | nil =>
    rw [List.length_eq_zero_iff.mp hlength.symm]
    rfl
  | cons fit fits ih =>
    cases columns with
    | nil => cases hlength
    | cons column columns =>
      rw [List.zipWith_cons_cons, List.map_cons, List.map_cons, ih (Nat.succ.inj hlength)]
      rfl

theorem names_fitColumns (hcount : fits.length = physical.length)
    (hphysical : Within physical table.columns.length) :
    (table.fitColumns nan fits physical).names = pick physical table.names := by
  have hlength : fits.length = (pick physical table.columns).length := by
    rw [Selection.length_pick hphysical, hcount]
  unfold FeatureTable.names FeatureTable.fitColumns
  rw [map_name_fitted hlength, Selection.pick_map]

/-- A view with fits means the fitted table; the raw one is only selected. -/
theorem Means.fittedView
    (hclip : ∀ value : F, FloatOps.isFinite value = true → FloatOps.isFinite (clip value) = true)
    (hmeans : Means nan parent table raw) (h : ViewMaps head parent physical viewRows indices)
    (hcount : fits.length = physical.length) (horder : FitsInOrder fits physical table.columns)
    (hstate : head.normalizationFittedState.isSome = true) :
    Means nan (.view head parent physical viewRows (some fits) indices)
      ((table.fitColumns nan fits physical).selectRows (viewRowList viewRows indices))
      ((raw.selectColumns physical).selectRows (viewRowList viewRows indices)) := by
  have hrows := h.rowList_within
  rw [hmeans.samples] at hrows
  have hrawRows : Within (viewRowList viewRows indices) raw.nRows := by
    rw [hmeans.rawSamples]
    exact hrows
  have hphysical := h.columns
  rw [nFeatures_eq hmeans.names] at hphysical
  have hnames : ((table.fitColumns nan fits physical).selectRows
      (viewRowList viewRows indices)).names = pick physical table.names := by
    rw [← names_fitColumns (F := F) hcount hphysical]
    unfold FeatureTable.names FeatureTable.selectRows
    rw [List.map_map]
    rfl
  refine {
    samples := ?_
    names := ?_
    rectangular := FeatureTable.selectRows_rectangular
      (FeatureTable.fitColumns_rectangular hmeans.rectangular) hrows
    named := ?_
    clean := ?_
    rawSamples := ?_
    rawNames := ?_
    rawRectangular := FeatureTable.selectRows_rectangular
      (FeatureTable.selectColumns_rectangular hmeans.rawRectangular physical) hrawRows
    reads := fittedView_reads h hmeans.rectangular hmeans.samples hmeans.names hcount horder
      hmeans.reads
    serves := fittedView_serves h hmeans.rectangular hmeans.samples hmeans.names hmeans.named
      hcount horder hmeans.serves
    readsRaw := view_reads h hmeans.rawRectangular (hmeans.samples.trans hmeans.rawSamples.symm)
      (hmeans.names.trans hmeans.rawNames.symm) hmeans.readsRaw (.inr rfl)
    unfitted := ?_ }
  · have hlength : ((table.fitColumns nan fits physical).selectRows
        (viewRowList viewRows indices)).nRows = (viewRowList viewRows indices).length :=
      Selection.length_pick hrows
    rw [hlength, h.length_rowList]
    rfl
  · rw [hnames, ← hmeans.names]
    exact h.names.symm
  · intro name hname
    rw [hnames] at hname
    exact hmeans.named name (Selection.mem_of_mem_pick hname)
  · intro column hcolumn cell hcell
    obtain ⟨source, hsource, rfl⟩ := List.mem_map.mp hcolumn
    obtain ⟨origin, -, fit, rfl⟩ := FeatureTable.mem_fitColumns hsource
    obtain ⟨before, -, hfitted⟩ := List.mem_map.mp (Selection.mem_of_mem_pick hcell)
    obtain ⟨shown, -, hcell⟩ := Option.bind_eq_some_iff.mp hfitted
    obtain ⟨-, rfl⟩ := fitCell_eq_some_iff.mp hcell
    exact transformFittedCell_clean hclip fit shown
  · rw [nRows_selected physical hrawRows]
    exact (Selection.length_pick hrows).symm
  · rw [names_selected, hnames, hmeans.rawNames]
  · intro hnone
    have hnone' : head.normalizationFittedState = none := hnone
    rw [hnone'] at hstate
    cases hstate

end Fitted

end FeatureFrame

/-- The operations that a caller makes of one frame another. -/
inductive FrameOp (F : Type)
  | sharedView
  | sharedRowWindow (rows : RowRange)
  | rowWindow (start stop : Nat)
  | rowSlice (start stop : Nat)
  | sharedSelectRows (indices : List Nat)
  | selectRows (indices : List Nat)
  | selectColumns (columns : List Nat)
  | boundWindow (columns : List Nat) (rows : RowRange)
  | fitted (state : SearchNormalizationFittedState F)

namespace FrameOp

def run (authority : FeatureAuthority F A) (nan : F) :
    FrameOp F → FeatureFrame F A → Except (FeatureFrameError F) (FeatureFrame F A)
  | sharedView, frame => frame.sharedView authority
  | sharedRowWindow rows, frame => frame.sharedRowWindow authority rows
  | rowWindow start stop, frame => frame.rowWindow authority start stop
  | rowSlice start stop, frame => frame.rowSlice authority nan start stop
  | sharedSelectRows indices, frame => frame.sharedSelectRows authority indices
  | selectRows indices, frame => frame.selectRows authority nan indices
  | selectColumns columns, frame => frame.selectColumns authority columns
  | boundWindow columns rows, frame => do
    let bound ← frame.bindColumnProjection authority columns
    bound.rowWindow authority rows
  | fitted state, frame => frame.withFittedNormalization authority state

/-- The rows from one to another, as far as a table has them. -/
def between (start stop rows : Nat) : List Nat :=
  List.range' (min start rows) (min stop rows - min start rows)

def onTable (nan : F) : FrameOp F → FeatureTable F → FeatureTable F
  | sharedView, table => table
  | sharedRowWindow rows, table => table.selectRows rows.rows
  | rowWindow start stop, table | rowSlice start stop, table =>
    table.selectRows (between start stop table.nRows)
  | sharedSelectRows indices, table | selectRows indices, table => table.selectRows indices
  | selectColumns columns, table => table.selectColumns columns
  | boundWindow columns rows, table => (table.selectColumns columns).selectRows rows.rows
  | fitted state, table => table.normalize nan state

def onRaw (nan : F) : FrameOp F → FeatureTable F → FeatureTable F
  | fitted state, table => table.selectColumns (table.fittedColumns state)
  | op, table => op.onTable nan table

end FrameOp

namespace FeatureFrame

variable {authority : FeatureAuthority F A} {nan : F} {frame next : FeatureFrame F A}
  {table raw : FeatureTable F}

omit [FloatOps F] in
theorem buildWithAuthority_ok (h : buildWithAuthority authority frame = .ok next) :
    next = frame ∧ validateBacking frame = .ok () := by
  unfold buildWithAuthority at h
  rw [check_ok_iff, check_ok_iff, check_ok_iff, check_ok_iff, check_ok_iff] at h
  exact ⟨(Except.ok.inj h.2.2.2.2.2).symm, h.2.2.2.2.1⟩

section Whole

omit [FloatOps F]

theorem selectColumns_all (table : FeatureTable F) :
    table.selectColumns (List.range table.columns.length) = table := by
  unfold FeatureTable.selectColumns
  rw [Selection.pick_range]

theorem selectRows_all (h : table.Rectangular) :
    table.selectRows (List.range' 0 table.nRows) = table := by
  have hall : ∀ {α : Type} (xs : List α), xs.length = table.nRows →
      pick (List.range' 0 table.nRows) xs = xs := by
    intro α xs hlength
    rw [← hlength, ← List.range_eq_range', Selection.pick_range]
  have hcolumns : table.columns.map (·.select (List.range' 0 table.nRows)) = table.columns := by
    rw [List.map_congr_left (g := id), List.map_id]
    intro column hcolumn
    unfold TableColumn.select
    rw [hall _ (h.columns column hcolumn)]
    rfl
  unfold FeatureTable.selectRows
  rw [hall _ rfl, hall _ h.rowIds, hcolumns]

theorem allRows_rows (frame : FeatureFrame F A) :
    frame.allRows.rows = List.range' 0 frame.nSamples := rfl

end Whole

theorem Means.rowView (hmeans : Means nan frame table raw) {head : FeatureFrameHead F A}
    {viewRows : RowRange} {indices : Option (List Nat)}
    (hbacking : validateBacking (.view head frame frame.allColumns viewRows none indices) =
      .ok ())
    (hstate : head.normalizationFittedState = frame.head.normalizationFittedState) :
    Means nan (.view head frame frame.allColumns viewRows none indices)
      (table.selectRows (viewRowList viewRows indices))
      (raw.selectRows (viewRowList viewRows indices)) := by
  have hview := hmeans.view (ViewMaps.of_validateBacking hbacking) hstate
  have hall : frame.allColumns = List.range table.columns.length := by
    unfold FeatureFrame.allColumns
    rw [nFeatures_eq hmeans.names]
  have hrawAll : frame.allColumns = List.range raw.columns.length := by
    unfold FeatureFrame.allColumns
    rw [nFeatures_eq (hmeans.names.trans hmeans.rawNames.symm)]
  have htable : table.selectColumns frame.allColumns = table := by
    rw [hall, selectColumns_all]
  have hraw : raw.selectColumns frame.allColumns = raw := by
    rw [hrawAll, selectColumns_all]
  rw [htable, hraw] at hview
  exact hview

theorem Means.allRows (hmeans : Means nan frame table raw) :
    viewRowList frame.allRows none = List.range' 0 table.nRows := by
  rw [← hmeans.samples]
  rfl

theorem Means.columnView (hmeans : Means nan frame table raw) {head : FeatureFrameHead F A}
    {columns : List Nat}
    (hbacking : validateBacking (.view head frame columns frame.allRows none none) = .ok ())
    (hstate : head.normalizationFittedState = frame.head.normalizationFittedState) :
    Means nan (.view head frame columns frame.allRows none none) (table.selectColumns columns)
      (raw.selectColumns columns) := by
  have hview := hmeans.view (ViewMaps.of_validateBacking hbacking) hstate
  have htable : (table.selectColumns columns).selectRows (List.range' 0 table.nRows) =
      table.selectColumns columns :=
    selectRows_all (FeatureTable.selectColumns_rectangular hmeans.rectangular columns)
  have hraw : (raw.selectColumns columns).selectRows (List.range' 0 table.nRows) =
      raw.selectColumns columns := by
    rw [← hmeans.rawSamples]
    exact selectRows_all (FeatureTable.selectColumns_rectangular hmeans.rawRectangular columns)
  rw [hmeans.allRows, htable, hraw] at hview
  exact hview

end FeatureFrame

end Neoethos
