import Neoethos.FeatureMeaning

namespace Neoethos

open Fallible (refuse require bind_ok_iff check_ok_iff mapError_ok_iff refuse_ok_iff require_ok_iff
  mapM_ok_iff)
open Selection (pick Within)

variable {F A : Type} [FloatOps F]

section Materialize

variable {nan : F}

omit [FloatOps F] in
theorem TableColumn.read_toTable {column : TableColumn F} {rows : List Nat}
    {out : FeatureColumnF64 F} (h : column.read rows = some out) :
    out.toTable = column.select rows := by
  unfold TableColumn.read at h
  obtain ⟨cells, hcells, rfl⟩ := Option.map_eq_some_iff.mp h
  have hshown : (⟨column.name, cells.map (·.value), cells.map (·.validity)⟩ :
      FeatureColumnF64 F).cells = cells :=
    FeatureColumnF64.cells_withCells ⟨column.name, [], []⟩ cells
  unfold FeatureColumnF64.toTable TableColumn.select
  rw [hshown, eq_map_of_mapM_id hcells]

theorem TableColumn.read_clean {column : TableColumn F} {rows : List Nat}
    {out : FeatureColumnF64 F} (h : column.read rows = some out) (hname : column.name ≠ "")
    (hclean : ∀ cell, some cell ∈ column.cells → CleanCell nan cell) : CleanColumn nan out := by
  have htable := TableColumn.read_toTable h
  unfold TableColumn.read at h
  obtain ⟨cells, hcells, rfl⟩ := Option.map_eq_some_iff.mp h
  refine ⟨hname, by simp, ?_⟩
  intro cell hcell
  apply hclean
  have hmem : some cell ∈ (column.select rows).cells := by
    rw [← htable]
    exact List.mem_map_of_mem hcell
  exact Selection.mem_of_mem_pick hmem

omit [FloatOps F] in
/-- All columns of some rows, as they are read, are the table of those rows. -/
theorem FeatureTable.read_all {table : FeatureTable F} {rows : List Nat}
    {batch : VortexFeatureBatch F}
    (h : table.read (List.range table.columns.length) rows = some batch) :
    table.selectRows rows =
      ⟨batch.timestamps, batch.rowIds, batch.columns.map (·.toTable)⟩ := by
  unfold FeatureTable.read at h
  rw [Selection.pick_range] at h
  obtain ⟨columns, hcolumns, rfl⟩ := Option.map_eq_some_iff.mp h
  have hmap : columns.map (·.toTable) = table.columns.map (·.select rows) :=
    forall₂_map_eq ((forall₂_of_mapM_some hcolumns).imp fun _ _ => TableColumn.read_toTable)
  unfold FeatureTable.selectRows
  rw [hmap]

theorem FeatureFrame.Means.read_clean {A : Type} {frame : FeatureFrame F A}
    {table raw : FeatureTable F} (hmeans : frame.Means nan table raw) {rows : List Nat}
    {batch : VortexFeatureBatch F}
    (h : table.read (List.range table.columns.length) rows = some batch) :
    ∀ column ∈ batch.columns, CleanColumn nan column := by
  unfold FeatureTable.read at h
  rw [Selection.pick_range] at h
  obtain ⟨columns, hcolumns, rfl⟩ := Option.map_eq_some_iff.mp h
  intro out hout
  obtain ⟨column, hcolumn, hread⟩ := forall₂_exists_left (forall₂_of_mapM_some hcolumns) hout
  exact TableColumn.read_clean hread
    (hmeans.named _ (List.mem_map_of_mem hcolumn)) (hmeans.clean column hcolumn)

end Materialize

namespace FeatureFrame

variable {authority : FeatureAuthority F A} {nan : F} {frame next : FeatureFrame F A}
  {table raw : FeatureTable F}

/-- A frame whose rows were read into memory means those rows. -/
theorem Means.materialized (hmeans : Means nan frame table raw) {rows : List Nat}
    (hrows : Within rows table.nRows) {batch : VortexFeatureBatch F}
    (hread : table.read (List.range table.columns.length) rows = some batch)
    (hbacking : validateBacking (inMemory { frame.head with
      timestamps := batch.timestamps
      rowIds := .explicit batch.rowIds } batch.columns) = .ok ()) :
    Means nan (inMemory { frame.head with
        timestamps := batch.timestamps
        rowIds := .explicit batch.rowIds } batch.columns)
      (table.selectRows rows) (raw.selectRows rows) := by
  have hall := FeatureTable.read_all hread
  have htimestamps : batch.timestamps = pick rows table.timestamps :=
    (congrArg FeatureTable.timestamps hall).symm
  have hrawRows : Within rows raw.nRows := by
    rw [hmeans.rawSamples]
    exact hrows
  have hselected : ∀ t : FeatureTable F, (t.selectRows rows).names = t.names := by
    intro t
    unfold FeatureTable.names FeatureTable.selectRows
    rw [List.map_map]
    rfl
  rw [hall]
  refine inMemory_means hbacking (hmeans.read_clean hread) ?_ ?_
    (FeatureTable.selectRows_rectangular hmeans.rawRectangular hrawRows) ?_
  · rw [htimestamps, Selection.length_pick hrows]
    exact Selection.length_pick hrawRows
  · rw [hselected, hmeans.rawNames, ← hmeans.names]
    rfl
  · intro hnone
    rw [hmeans.unfitted hnone, hall]
    rfl

/-- Every column of some rows is read where the frame's own columns are projected. -/
theorem Means.reads_all (hmeans : Means nan frame table raw) {range : RowRange}
    {batch : VortexFeatureBatch F}
    (h : frame.projectColumns nan frame.allColumns range = .ok batch) :
    table.read (List.range table.columns.length) range.rows = some batch := by
  have hread := hmeans.reads _ _ _ h
  unfold FeatureFrame.allColumns at hread
  rw [nFeatures_eq hmeans.names] at hread
  exact hread

omit [FloatOps F] in
theorem clampRows_rows (frame : FeatureFrame F A) (start stop : Nat) :
    (frame.clampRows start stop).rows = FrameOp.between start stop frame.nSamples := by
  unfold clampRows RowRange.rows RowRange.length FrameOp.between
  dsimp only
  congr 1
  omega

theorem between_within (start stop rows : Nat) : Within (FrameOp.between start stop rows) rows := by
  apply Selection.within_range'
  omega

theorem sharedView_means (hmeans : Means nan frame table raw)
    (h : frame.sharedView authority = .ok next) : Means nan next table raw := by
  obtain ⟨rfl, hbacking⟩ := buildWithAuthority_ok h
  have hview := hmeans.rowView hbacking rfl
  rw [hmeans.allRows, selectRows_all hmeans.rectangular, ← hmeans.rawSamples,
    selectRows_all hmeans.rawRectangular] at hview
  exact hview

theorem sharedRowWindow_means (hmeans : Means nan frame table raw) {rows : RowRange}
    (h : frame.sharedRowWindow authority rows = .ok next) :
    Means nan next (table.selectRows rows.rows) (raw.selectRows rows.rows) := by
  unfold sharedRowWindow at h
  dsimp only at h
  rw [check_ok_iff, check_ok_iff, check_ok_iff] at h
  obtain ⟨-, -, -, h⟩ := h
  obtain ⟨rowIds, -, h⟩ := bind_ok_iff.mp h
  obtain ⟨hbacking, h⟩ := check_ok_iff.mp h
  obtain rfl := Except.ok.inj h
  exact hmeans.rowView hbacking rfl

theorem rowWindow_means (hmeans : Means nan frame table raw) {start stop : Nat}
    (h : frame.rowWindow authority start stop = .ok next) :
    Means nan next (table.selectRows (FrameOp.between start stop table.nRows))
      (raw.selectRows (FrameOp.between start stop raw.nRows)) := by
  unfold rowWindow at h
  obtain ⟨rowIds, -, h⟩ := bind_ok_iff.mp h
  obtain ⟨rfl, hbacking⟩ := buildWithAuthority_ok h
  have hview := hmeans.rowView hbacking rfl
  have hrows : viewRowList (frame.clampRows start stop) none =
      FrameOp.between start stop table.nRows := by
    rw [← hmeans.samples]
    exact clampRows_rows frame start stop
  rw [hrows] at hview
  rw [hmeans.rawSamples]
  exact hview

theorem rowSlice_means (hmeans : Means nan frame table raw) {start stop : Nat}
    (h : frame.rowSlice authority nan start stop = .ok next) :
    Means nan next (table.selectRows (FrameOp.between start stop table.nRows))
      (raw.selectRows (FrameOp.between start stop raw.nRows)) := by
  unfold rowSlice at h
  obtain ⟨batch, hbatch, h⟩ := bind_ok_iff.mp h
  obtain ⟨rfl, hbacking⟩ := buildWithAuthority_ok h
  have hread := hmeans.reads_all hbatch
  rw [clampRows_rows, hmeans.samples] at hread
  rw [hmeans.rawSamples]
  exact hmeans.materialized (between_within start stop table.nRows) hread hbacking

theorem sharedSelectRows_means (hmeans : Means nan frame table raw) {indices : List Nat}
    (h : frame.sharedSelectRows authority indices = .ok next) :
    Means nan next (table.selectRows indices) (raw.selectRows indices) := by
  unfold sharedSelectRows at h
  obtain ⟨-, h⟩ := check_ok_iff.mp h
  obtain ⟨rowIds, -, h⟩ := bind_ok_iff.mp h
  obtain ⟨timestamps, -, h⟩ := bind_ok_iff.mp h
  obtain ⟨rfl, hbacking⟩ := buildWithAuthority_ok h
  exact hmeans.rowView hbacking rfl

theorem selectRows_means (hmeans : Means nan frame table raw) {indices : List Nat}
    (h : frame.selectRows authority nan indices = .ok next) :
    Means nan next (table.selectRows indices) (raw.selectRows indices) := by
  unfold selectRows at h
  obtain ⟨-, h⟩ := check_ok_iff.mp h
  obtain ⟨hrows, h⟩ := check_ok_iff.mp h
  obtain ⟨-, h⟩ := check_ok_iff.mp h
  obtain ⟨sources, hsources, h⟩ := bind_ok_iff.mp h
  obtain ⟨columns, hcolumns, h⟩ := bind_ok_iff.mp h
  have hwithin : Within indices table.nRows := by
    intro row hrow
    have hcheck := Fallible.forM_ok_iff.mp hrows row hrow
    rw [refuse_ok_iff, hmeans.samples] at hcheck
    exact not_le.mp hcheck
  have hruns : (consecutiveRuns indices).mapM
      (fun run => table.read (List.range table.columns.length) run.rows) = some sources := by
    refine mapM_some_of_ok (fun run batch hrun => ?_) hsources
    unfold selectRun at hrun
    obtain ⟨shown, hshown, hrun⟩ := bind_ok_iff.mp hrun
    obtain ⟨-, hrun⟩ := check_ok_iff.mp hrun
    obtain ⟨-, hrun⟩ := check_ok_iff.mp hrun
    obtain rfl := Except.ok.inj hrun
    exact hmeans.reads_all hshown
  have hfirst : table.read (List.range table.columns.length) [] =
      some ⟨[], [], frame.names.map fun name => ⟨name, [], []⟩⟩ := by
    rw [FeatureTable.read_nil, Selection.pick_range, hmeans.names]
    unfold FeatureTable.names
    rw [List.map_map]
    rfl
  have hread := (table.read_foldl _ (consecutiveRuns indices) hfirst).mpr ⟨sources, hruns, rfl⟩
  rw [consecutiveRuns_rows, List.nil_append] at hread
  generalize sources.foldl VortexFeatureBatch.extend
    ⟨[], [], frame.names.map fun name => ⟨name, [], []⟩⟩ = selected at hread hcolumns h
  have hclean := hmeans.read_clean hread
  have hsame : columns = selected.columns := by
    have hnew := Fallible.mapM_eq_map (f := fun column : FeatureColumnF64 F =>
      newColumn nan column.name column.values column.validity) (g := id) fun column hcolumn =>
        mapError_ok_iff.mpr (hclean column hcolumn).new_eq
    rw [List.map_id, hcolumns] at hnew
    exact Except.ok.inj hnew
  obtain ⟨rfl, hbacking⟩ := buildWithAuthority_ok h
  rw [hsame] at hbacking ⊢
  exact hmeans.materialized hwithin hread hbacking

theorem selectColumns_means (hmeans : Means nan frame table raw) {columns : List Nat}
    (h : frame.selectColumns authority columns = .ok next) :
    Means nan next (table.selectColumns columns) (raw.selectColumns columns) := by
  unfold selectColumns at h
  obtain ⟨-, h⟩ := check_ok_iff.mp h
  split at h
  next hall =>
    -- A view under all its columns is handed back as it is.
    rw [check_ok_iff, check_ok_iff, check_ok_iff] at h
    obtain rfl := Except.ok.inj h.2.2.2
    obtain ⟨-, rfl⟩ := hall
    have htable : frame.allColumns = List.range table.columns.length := by
      unfold allColumns
      rw [nFeatures_eq hmeans.names]
    have hraw : frame.allColumns = List.range raw.columns.length := by
      unfold allColumns
      rw [nFeatures_eq (hmeans.names.trans hmeans.rawNames.symm)]
    have htable' := selectColumns_all table
    have hraw' := selectColumns_all raw
    rw [← htable] at htable'
    rw [← hraw] at hraw'
    rw [htable', hraw']
    exact hmeans
  next =>
    obtain ⟨names, -, h⟩ := bind_ok_iff.mp h
    obtain ⟨plan, -, h⟩ := bind_ok_iff.mp h
    obtain ⟨rfl, hbacking⟩ := buildWithAuthority_ok h
    exact hmeans.columnView hbacking rfl

omit [FloatOps F] in
theorem bindColumnProjection_ok {columns : List Nat} {bound : BoundFeatureColumnProjection F A}
    (h : frame.bindColumnProjection authority columns = .ok bound) :
    bound.source = frame ∧ bound.columnIndices = columns := by
  unfold bindColumnProjection at h
  rw [check_ok_iff, check_ok_iff, check_ok_iff] at h
  obtain ⟨-, -, -, h⟩ := h
  split at h
  next =>
    obtain rfl := Except.ok.inj h
    exact ⟨rfl, rfl⟩
  next =>
    obtain ⟨names, -, h⟩ := bind_ok_iff.mp h
    obtain ⟨plan, -, h⟩ := bind_ok_iff.mp h
    obtain rfl := Except.ok.inj h
    exact ⟨rfl, rfl⟩

theorem boundWindow_means (hmeans : Means nan frame table raw)
    {bound : BoundFeatureColumnProjection F A} (hsource : bound.source = frame) {rows : RowRange}
    (h : bound.rowWindow authority rows = .ok next) :
    Means nan next ((table.selectColumns bound.columnIndices).selectRows rows.rows)
      ((raw.selectColumns bound.columnIndices).selectRows rows.rows) := by
  unfold BoundFeatureColumnProjection.rowWindow at h
  rw [hsource] at h
  dsimp only at h
  rw [check_ok_iff, check_ok_iff] at h
  obtain ⟨-, -, h⟩ := h
  obtain ⟨rowIds, -, h⟩ := bind_ok_iff.mp h
  obtain ⟨hbacking, h⟩ := check_ok_iff.mp h
  obtain rfl := Except.ok.inj h
  exact hmeans.view (ViewMaps.of_validateBacking hbacking) rfl

end FeatureFrame

namespace SearchNormalizationFittedState

theorem validateFits_ok {trainingRows : RowRange} {seen : List String}
    {entries : List (String × RobustNormalizationFitF64 F)}
    (h : validateFits trainingRows seen entries = .ok ()) :
    ∀ entry ∈ entries, validateSearchFit entry.1 entry.2 = .ok () := by
  induction entries generalizing seen with
  | nil => exact fun _ hentry => absurd hentry List.not_mem_nil
  | cons entry entries ih =>
    unfold validateFits at h
    rw [check_ok_iff, check_ok_iff, check_ok_iff] at h
    obtain ⟨-, hfit, -, hrest⟩ := h
    exact List.forall_mem_cons.mpr ⟨hfit, ih hrest⟩

theorem validate_ok {state : SearchNormalizationFittedState F} (h : state.validate = .ok ()) :
    state.columnNames.length = state.fits.length ∧
      ∀ entry ∈ state.columnNames.zip state.fits, validateSearchFit entry.1 entry.2 = .ok () := by
  unfold validate at h
  obtain ⟨-, h⟩ := check_ok_iff.mp h
  split at h
  next => cases h
  next first rest hfits =>
    obtain ⟨hcount, h⟩ := check_ok_iff.mp h
    rw [refuse_ok_iff, not_or, not_not] at hcount
    exact ⟨hcount.2, validateFits_ok h⟩

end SearchNormalizationFittedState

theorem filterMap_of_mapM_require {ε α β : Type} {f : α → Option β} {e : α → ε} {xs : List α}
    {ys : List β} (h : (xs.mapM fun x => require (f x) (e x)) = .ok ys) : xs.filterMap f = ys := by
  have hall := mapM_ok_iff.mp h
  clear h
  induction hall with
  | nil => rfl
  | cons hhead _ ih => rw [List.filterMap_cons_some (require_ok_iff.mp hhead), ih]

namespace FeatureFrame

variable {authority : FeatureAuthority F A} {nan : F} {frame next : FeatureFrame F A}
  {table raw : FeatureTable F}

/-- The fits of a state are in order for the columns that its view takes. -/
theorem fitsInOrder (hmeans : Means nan frame table raw)
    {state : SearchNormalizationFittedState F} (hvalid : state.validate = .ok ())
    {physical : List Nat} (hphysical : Within physical frame.names.length)
    (hnames : pick physical frame.names = state.columnNames) :
    FitsInOrder state.fits physical table.columns := by
  obtain ⟨-, hfits⟩ := SearchNormalizationFittedState.validate_ok hvalid
  intro index column fit found hfit hcolumn hfound
  have hname : state.columnNames[index]? = some found.name := by
    rw [← hnames, Selection.getElem?_pick hphysical, hcolumn, hmeans.names]
    unfold FeatureTable.names
    rw [Option.bind_some, List.getElem?_map, hfound]
    rfl
  have hentry : (found.name, fit) ∈ state.columnNames.zip state.fits := by
    apply List.mem_of_getElem? (i := index)
    rw [List.getElem?_zip_eq_some]
    exact ⟨hname, hfit⟩
  exact hfits _ hentry

/-- The view of a fitted state, with the columns that it takes. -/
theorem withFittedNormalization_ok {state : SearchNormalizationFittedState F}
    (h : frame.withFittedNormalization authority state = .ok next) :
    ∃ columns plan, state.validate = .ok () ∧
      state.columnNames.filterMap (lastIndex? frame.names) = columns ∧
      validateBacking next = .ok () ∧
      next = view { frame.head with
          names := state.columnNames
          authority := plan
          normalizationFittedState := some state }
        frame columns frame.allRows (some state.fits) none := by
  unfold withFittedNormalization at h
  obtain ⟨-, h⟩ := check_ok_iff.mp h
  obtain ⟨hvalid, h⟩ := check_ok_iff.mp h
  obtain ⟨columns, hcolumns, h⟩ := bind_ok_iff.mp h
  obtain ⟨plan, -, h⟩ := bind_ok_iff.mp h
  obtain ⟨rfl, hbacking⟩ := buildWithAuthority_ok h
  exact ⟨columns, plan, mapError_ok_iff.mp hvalid, filterMap_of_mapM_require hcolumns, hbacking,
    rfl⟩

theorem fitted_means
    (hclip : ∀ value : F, FloatOps.isFinite value = true → FloatOps.isFinite (clip value) = true)
    (hmeans : Means nan frame table raw) {state : SearchNormalizationFittedState F}
    (h : frame.withFittedNormalization authority state = .ok next) :
    Means nan next (table.normalize nan state)
      (raw.selectColumns (raw.fittedColumns state)) := by
  obtain ⟨columns, plan, hvalid, hfitted, hbacking, rfl⟩ := withFittedNormalization_ok h
  have hmaps := ViewMaps.of_validateBacking hbacking
  have htable : table.fittedColumns state = columns := by
    unfold FeatureTable.fittedColumns
    rw [← hmeans.names, hfitted]
  have hraw : raw.fittedColumns state = columns := by
    unfold FeatureTable.fittedColumns
    rw [hmeans.rawNames, ← hmeans.names, hfitted]
  have hcount : state.fits.length = columns.length := by
    rw [hmaps.length_physical]
    exact (SearchNormalizationFittedState.validate_ok hvalid).1.symm
  have horder := fitsInOrder hmeans hvalid hmaps.columns hmaps.names
  have hview := hmeans.fittedView hclip hmaps hcount horder rfl
  have hfittedRectangular : (table.fitColumns nan state.fits columns).Rectangular :=
    FeatureTable.fitColumns_rectangular hmeans.rectangular
  have hselected := selectRows_all hfittedRectangular
  have hselectedRaw := selectRows_all
    (FeatureTable.selectColumns_rectangular hmeans.rawRectangular columns)
  unfold FeatureTable.normalize
  rw [htable, hraw]
  rw [hmeans.allRows] at hview
  have htableRows : (table.fitColumns nan state.fits columns).nRows = table.nRows := rfl
  have hrawRows : (raw.selectColumns columns).nRows = table.nRows := hmeans.rawSamples
  rw [htableRows] at hselected
  rw [hrawRows] at hselectedRaw
  rw [hselected, hselectedRaw] at hview
  exact hview

/-- One operation takes a frame that means a table to one that means the changed table. -/
theorem step_means
    (hclip : ∀ value : F, FloatOps.isFinite value = true → FloatOps.isFinite (clip value) = true)
    (hmeans : Means nan frame table raw) {op : FrameOp F}
    (h : op.run authority nan frame = .ok next) :
    Means nan next (op.onTable nan table) (op.onRaw nan raw) := by
  cases op with
  | sharedView => exact sharedView_means hmeans h
  | sharedRowWindow rows => exact sharedRowWindow_means hmeans h
  | rowWindow start stop => exact rowWindow_means hmeans h
  | rowSlice start stop => exact rowSlice_means hmeans h
  | sharedSelectRows indices => exact sharedSelectRows_means hmeans h
  | selectRows indices => exact selectRows_means hmeans h
  | selectColumns columns => exact selectColumns_means hmeans h
  | boundWindow columns rows =>
    obtain ⟨bound, hbound, hnext⟩ := bind_ok_iff.mp h
    obtain ⟨hsource, rfl⟩ := bindColumnProjection_ok hbound
    exact boundWindow_means hmeans hsource hnext
  | fitted state => exact fitted_means hclip hmeans h

/-- The frame after some operations, each of them on the one before. -/
def runOps (authority : FeatureAuthority F A) (nan : F) (ops : List (FrameOp F))
    (frame : FeatureFrame F A) : Except (FeatureFrameError F) (FeatureFrame F A) :=
  ops.foldlM (fun frame op => op.run authority nan frame) frame

/-- What is left of a table after the same operations on it. -/
def tableAfter (nan : F) (ops : List (FrameOp F)) (table : FeatureTable F) : FeatureTable F :=
  ops.foldl (fun table op => op.onTable nan table) table

def rawAfter (nan : F) (ops : List (FrameOp F)) (table : FeatureTable F) : FeatureTable F :=
  ops.foldl (fun table op => op.onRaw nan table) table

theorem runOps_means
    (hclip : ∀ value : F, FloatOps.isFinite value = true → FloatOps.isFinite (clip value) = true)
    (hmeans : Means nan frame table raw) {ops : List (FrameOp F)}
    (h : runOps authority nan ops frame = .ok next) :
    Means nan next (tableAfter nan ops table) (rawAfter nan ops raw) := by
  unfold runOps at h
  unfold tableAfter rawAfter
  induction ops generalizing frame table raw with
  | nil =>
    obtain rfl := Except.ok.inj h
    exact hmeans
  | cons op ops ih =>
    obtain ⟨middle, hop, h⟩ := Fallible.foldlM_cons_ok_iff.mp h
    exact ih (step_means hclip hmeans hop) h

end FeatureFrame

end Neoethos
