import Neoethos.FeatureSelections

namespace Neoethos

open Fallible (refuse require bind_ok_iff check_ok_iff mapError_ok_iff refuse_ok_iff require_ok_iff
  mapM_ok_iff forM_ok_iff)
open Selection (pick Within)

variable {F A : Type} [FloatOps F] {nan : F}

section Column

theorem toOption_eq_some_iff {ε α : Type} {x : Except ε α} {a : α} :
    x.toOption = some a ↔ x = .ok a := by
  cases x with
  | error e => simp [Except.toOption]
  | ok b => simp [Except.toOption]

theorem fitCell_eq_some_iff {name : String} {fit : RobustNormalizationFitF64 F}
    {cell out : FeatureCellF64 F} : TableColumn.fitCell nan name fit cell = some out ↔
      validateRawSearchCell name cell = .ok () ∧ out = transformFittedCell nan fit cell := by
  unfold TableColumn.fitCell
  rw [Option.map_eq_some_iff]
  constructor
  · rintro ⟨_, hvalid, rfl⟩
    exact ⟨toOption_eq_some_iff.mp hvalid, rfl⟩
  · rintro ⟨hvalid, rfl⟩
    exact ⟨(), toOption_eq_some_iff.mpr hvalid, rfl⟩

theorem mapM_fitCell {name : String} {fit : RobustNormalizationFitF64 F}
    (cells : List (Option (FeatureCellF64 F))) (out : List (FeatureCellF64 F)) :
    (cells.map fun cell => cell.bind (TableColumn.fitCell nan name fit)).mapM id = some out ↔
      ∃ raw, cells.mapM id = some raw ∧ (∀ cell ∈ raw, validateRawSearchCell name cell = .ok ()) ∧
        out = raw.map (transformFittedCell nan fit) := by
  induction cells generalizing out with
  | nil =>
    constructor
    · intro h
      exact ⟨[], rfl, fun _ hcell => absurd hcell List.not_mem_nil, (Option.some.inj h).symm⟩
    · rintro ⟨raw, hraw, -, rfl⟩
      obtain rfl := Option.some.inj hraw
      rfl
  | cons cell cells ih =>
    rw [List.map_cons, List.mapM_cons, List.mapM_cons]
    simp only [Option.bind_eq_bind, Option.bind_eq_some_iff, Option.pure_def, Option.some.injEq, ih,
      id_eq]
    constructor
    · rintro ⟨fitted, ⟨raw, rfl, hfitted⟩, _, ⟨raws, hraws, hvalid, rfl⟩, rfl⟩
      obtain ⟨hcell, rfl⟩ := fitCell_eq_some_iff.mp hfitted
      exact ⟨raw :: raws, ⟨raw, rfl, raws, hraws, rfl⟩, List.forall_mem_cons.mpr ⟨hcell, hvalid⟩,
        rfl⟩
    · rintro ⟨_, ⟨raw, rfl, raws, hraws, rfl⟩, hvalid, rfl⟩
      obtain ⟨hcell, hvalid⟩ := List.forall_mem_cons.mp hvalid
      exact ⟨_, ⟨raw, rfl, fitCell_eq_some_iff.mpr ⟨hcell, rfl⟩⟩, _, ⟨raws, hraws, hvalid, rfl⟩,
        rfl⟩

/-- A frozen fit on one column, where the fit itself is in order. -/
theorem applySearchNormalizationFit_ok_iff {column out : FeatureColumnF64 F}
    {fit : RobustNormalizationFitF64 F} (hfit : validateSearchFit column.name fit = .ok ()) :
    applySearchNormalizationFit nan column fit = .ok out ↔
      column.values.length = column.validity.length ∧
      (∀ cell ∈ column.cells, validateRawSearchCell column.name cell = .ok ()) ∧
      out = column.withCells (column.cells.map (transformFittedCell nan fit)) := by
  unfold applySearchNormalizationFit validateRawColumn
  rw [hfit, Fallible.ok_bind, check_ok_iff, check_ok_iff, refuse_ok_iff, not_not, forM_ok_iff,
    and_assoc]
  have hout : (pure (applyFittedColumnValues nan fit column) :
      Except (NormalizationError F) (FeatureColumnF64 F)) = .ok out ↔
        out = applyFittedColumnValues nan fit column :=
    ⟨fun h => (Except.ok.inj h).symm, fun h => congrArg Except.ok h.symm⟩
  rw [hout]
  rfl

/-- A fitted column of a table shows what the fit makes of the rows that are read. -/
theorem TableColumn.read_fitted {column : TableColumn F} {fit : RobustNormalizationFitF64 F}
    (hfit : validateSearchFit column.name fit = .ok ()) (rows : List Nat)
    (out : FeatureColumnF64 F) : (column.fitted nan fit).read rows = some out ↔
      ∃ raw, column.read rows = some raw ∧ applySearchNormalizationFit nan raw fit = .ok out := by
  unfold TableColumn.read TableColumn.fitted
  dsimp only
  rw [Selection.pick_map, Option.map_eq_some_iff]
  simp only [Option.map_eq_some_iff, mapM_fitCell]
  have hraw : ∀ cells : List (FeatureCellF64 F),
      (⟨column.name, cells.map (·.value), cells.map (·.validity)⟩ : FeatureColumnF64 F).cells =
        cells := fun cells =>
    FeatureColumnF64.cells_withCells ⟨column.name, [], []⟩ cells
  constructor
  · rintro ⟨_, ⟨cells, hcells, hvalid, rfl⟩, rfl⟩
    refine ⟨_, ⟨cells, hcells, rfl⟩, ?_⟩
    rw [applySearchNormalizationFit_ok_iff hfit, hraw]
    exact ⟨by simp, hvalid, rfl⟩
  · rintro ⟨_, ⟨cells, hcells, rfl⟩, happly⟩
    rw [applySearchNormalizationFit_ok_iff hfit, hraw] at happly
    obtain ⟨-, hvalid, rfl⟩ := happly
    exact ⟨_, ⟨cells, hcells, hvalid, rfl⟩, rfl⟩

end Column

section Columns

variable {fits : List (RobustNormalizationFitF64 F)} {physical : List Nat}
  {tableColumns : List (TableColumn F)}

theorem getElem?_fitted (hphysical : Within physical tableColumns.length) (index : Nat) :
    (List.zipWith (TableColumn.fitted nan) fits (pick physical tableColumns))[index]? =
      (fits[index]?).bind fun fit => (physical[index]?).bind fun column =>
        (tableColumns[column]?).map (TableColumn.fitted nan fit) := by
  rw [List.getElem?_zipWith, Selection.getElem?_pick hphysical]
  cases fits[index]? with
  | none => rfl
  | some fit =>
    cases physical[index]? with
    | none => rfl
    | some column =>
      cases hfound : tableColumns[column]? with
      | none => simp only [Option.bind_some, hfound, Option.map_none]
      | some found => simp only [Option.bind_some, hfound, Option.map_some]

/-- The fits that a view keeps, each in order for the column that it is for. -/
def FitsInOrder (fits : List (RobustNormalizationFitF64 F)) (physical : List Nat)
    (tableColumns : List (TableColumn F)) : Prop :=
  ∀ (index column : Nat) (fit : RobustNormalizationFitF64 F) (found : TableColumn F),
    fits[index]? = some fit → physical[index]? = some column →
      tableColumns[column]? = some found → validateSearchFit found.name fit = .ok ()

theorem applyFits_cons_ok_iff {index : Nat} {columns : List Nat}
    {raw : FeatureColumnF64 F} {raws out : List (FeatureColumnF64 F)} :
    FeatureFrame.applyFits nan fits (index :: columns) (raw :: raws) = .ok out ↔
      ∃ fit shown rest, fits[index]? = some fit ∧
        applySearchNormalizationFit nan raw fit = .ok shown ∧
        FeatureFrame.applyFits nan fits columns raws = .ok rest ∧ out = shown :: rest := by
  unfold FeatureFrame.applyFits
  rw [List.zip_cons_cons, List.mapM_cons]
  simp only [bind_ok_iff, require_ok_iff, mapError_ok_iff, pure, Except.pure, Except.ok.injEq]
  constructor
  · rintro ⟨shown, ⟨fit, hfit, hshown⟩, rest, hrest, rfl⟩
    exact ⟨fit, shown, rest, hfit, hshown, hrest, rfl⟩
  · rintro ⟨fit, shown, rest, hfit, hshown, hrest, rfl⟩
    exact ⟨shown, ⟨fit, hfit, hshown⟩, rest, hrest, rfl⟩

theorem mapM_read_fitted (hphysical : Within physical tableColumns.length)
    (hcount : fits.length = physical.length) (horder : FitsInOrder fits physical tableColumns)
    {columns : List Nat} (hcolumns : Within columns physical.length) (rows : List Nat)
    (out : List (FeatureColumnF64 F)) :
    (pick columns (List.zipWith (TableColumn.fitted nan) fits
        (pick physical tableColumns))).mapM (TableColumn.read rows) = some out ↔
      ∃ raws, (pick (pick columns physical) tableColumns).mapM (TableColumn.read rows) =
          some raws ∧ FeatureFrame.applyFits nan fits columns raws = .ok out := by
  induction columns generalizing out with
  | nil =>
    constructor
    · intro h
      exact ⟨[], rfl, congrArg Except.ok (Option.some.inj h)⟩
    · rintro ⟨raws, hraws, happly⟩
      obtain rfl := Option.some.inj hraws
      exact congrArg some (Except.ok.inj happly)
  | cons index columns ih =>
    obtain ⟨hindex, hrest⟩ := Selection.within_cons.mp hcolumns
    obtain ⟨column, hcolumn⟩ := hcolumns.exists_getElem?
    obtain ⟨fit, hfit⟩ : ∃ fit, fits[index]? = some fit := by
      rw [← hcount] at hindex
      exact ⟨fits[index], List.getElem?_eq_getElem hindex⟩
    obtain ⟨found, hfound⟩ : ∃ found, tableColumns[column]? = some found := by
      have hlt := hphysical column (List.mem_of_getElem? hcolumn)
      exact ⟨tableColumns[column], List.getElem?_eq_getElem hlt⟩
    have hfitted : (List.zipWith (TableColumn.fitted nan) fits
        (pick physical tableColumns))[index]? = some (found.fitted nan fit) := by
      rw [getElem?_fitted hphysical, hfit, hcolumn]
      dsimp only [Option.bind_some]
      rw [hfound]
      rfl
    have hread := @TableColumn.read_fitted _ _ nan found fit
      (horder index column fit found hfit hcolumn hfound) rows
    rw [Selection.pick_cons_of_lt hfitted, Selection.pick_cons_of_lt hcolumn,
      Selection.pick_cons_of_lt hfound, List.mapM_cons, List.mapM_cons]
    simp only [Option.bind_eq_bind, Option.bind_eq_some_iff, Option.pure_def, Option.some.injEq,
      hread, ih hrest]
    constructor
    · rintro ⟨shown, ⟨raw, hraw, happly⟩, rest, ⟨raws, hraws, happlies⟩, rfl⟩
      exact ⟨raw :: raws, ⟨raw, hraw, raws, hraws, rfl⟩,
        applyFits_cons_ok_iff.mpr ⟨fit, shown, rest, hfit, happly, happlies, rfl⟩⟩
    · rintro ⟨_, ⟨raw, hraw, raws, hraws, rfl⟩, happly⟩
      obtain ⟨fit', shown, rest, hfit', hshown, hshownRest, rfl⟩ := applyFits_cons_ok_iff.mp happly
      obtain rfl := Option.some.inj (hfit'.symm.trans hfit)
      exact ⟨shown, ⟨raw, hraw, hshown⟩, rest, ⟨raws, hraws, hshownRest⟩, rfl⟩

end Columns

namespace FeatureTable

variable {fits : List (RobustNormalizationFitF64 F)} {physical : List Nat} {table : FeatureTable F}

theorem mem_fitColumns {column : TableColumn F}
    (h : column ∈ (table.fitColumns nan fits physical).columns) :
    ∃ source ∈ table.columns, ∃ fit, column = source.fitted nan fit := by
  obtain ⟨index, hindex⟩ := List.mem_iff_getElem?.mp h
  unfold fitColumns at hindex
  rw [List.getElem?_zipWith] at hindex
  split at hindex
  next fit source hfit hsource =>
    exact ⟨source, Selection.mem_of_mem_pick (List.mem_of_getElem? hsource), fit,
      (Option.some.inj hindex).symm⟩
  next => cases hindex

theorem fitColumns_rectangular (h : table.Rectangular) :
    (table.fitColumns nan fits physical).Rectangular := by
  refine ⟨h.rowIds, ?_⟩
  intro column hcolumn
  obtain ⟨source, hsource, fit, rfl⟩ := mem_fitColumns hcolumn
  unfold TableColumn.fitted
  rw [List.length_map]
  exact h.columns source hsource

theorem read_fitColumns (hphysical : Within physical table.columns.length)
    (hcount : fits.length = physical.length) (horder : FitsInOrder fits physical table.columns)
    {columns : List Nat} (hcolumns : Within columns physical.length) (rows : List Nat)
    (out : VortexFeatureBatch F) :
    (table.fitColumns nan fits physical).read columns rows = some out ↔
      ∃ raw, table.read (pick columns physical) rows = some raw ∧
        ∃ shown, FeatureFrame.applyFits nan fits columns raw.columns = .ok shown ∧
          out = { raw with columns := shown } := by
  unfold FeatureTable.read fitColumns
  simp only [Option.map_eq_some_iff, mapM_read_fitted hphysical hcount horder hcolumns]
  constructor
  · rintro ⟨shown, ⟨raws, hraws, happly⟩, rfl⟩
    exact ⟨_, ⟨raws, hraws, rfl⟩, shown, happly, rfl⟩
  · rintro ⟨_, ⟨raws, hraws, rfl⟩, shown, happly, rfl⟩
    exact ⟨shown, ⟨raws, hraws, happly⟩, rfl⟩

end FeatureTable

namespace FeatureFrame

variable {head : FeatureFrameHead F A} {parent : FeatureFrame F A} {physical : List Nat}
  {viewRows : RowRange} {indices : Option (List Nat)} {table : FeatureTable F}
  {fits : List (RobustNormalizationFitF64 F)}

theorem fittedView_reads (h : ViewMaps head parent physical viewRows indices)
    (hrectangular : table.Rectangular) (hsamples : parent.nSamples = table.nRows)
    (hnames : parent.names = table.names) (hcount : fits.length = physical.length)
    (horder : FitsInOrder fits physical table.columns) (hreads : Reads nan true parent table) :
    Reads nan true (view head parent physical viewRows (some fits) indices)
      ((table.fitColumns nan fits physical).selectRows (viewRowList viewRows indices)) := by
  intro columns range batch hproject
  have hprojectable := projectable_of_ok hproject
  have hfeatures := nFeatures_eq hnames
  have hphysical := h.columns
  have hrows := h.rowList_within
  rw [hfeatures] at hphysical
  rw [hsamples] at hrows
  rw [project_view h hprojectable] at hproject
  obtain ⟨raw, hraw, hproject⟩ := bind_ok_iff.mp hproject
  dsimp only at hproject
  rw [if_pos rfl] at hproject
  obtain ⟨shown, hshown, hproject⟩ := bind_ok_iff.mp hproject
  obtain rfl := Except.ok.inj hproject
  have hread := parentBatch_reads h hnames hreads hprojectable hraw
  rw [FeatureTable.read_selectRows (FeatureTable.fitColumns_rectangular hrectangular) hrows,
    FeatureTable.read_fitColumns hphysical hcount horder (h.within hprojectable)]
  exact ⟨raw, hread, shown, hshown, rfl⟩

theorem fittedView_serves (h : ViewMaps head parent physical viewRows indices)
    (hrectangular : table.Rectangular) (hsamples : parent.nSamples = table.nRows)
    (hnames : parent.names = table.names) (hnamed : ∀ name ∈ table.names, name ≠ "")
    (hcount : fits.length = physical.length) (horder : FitsInOrder fits physical table.columns)
    (hserves : Serves nan parent table) :
    Serves nan (view head parent physical viewRows (some fits) indices)
      ((table.fitColumns nan fits physical).selectRows (viewRowList viewRows indices)) := by
  intro columns range batch hprojectable hread
  have hfeatures := nFeatures_eq hnames
  have hphysical := h.columns
  have hrows := h.rowList_within
  rw [hfeatures] at hphysical
  rw [hsamples] at hrows
  rw [FeatureTable.read_selectRows (FeatureTable.fitColumns_rectangular hrectangular) hrows,
    FeatureTable.read_fitColumns hphysical hcount horder (h.within hprojectable)] at hread
  obtain ⟨raw, hraw, shown, hshown, rfl⟩ := hread
  rw [project_view h hprojectable, parentBatch_serves h hnames hnamed hserves hprojectable hraw,
    Fallible.ok_bind]
  dsimp only
  rw [if_pos rfl, hshown]
  rfl

end FeatureFrame

end Neoethos
