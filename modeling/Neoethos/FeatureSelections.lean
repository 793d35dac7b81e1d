import Neoethos.FeatureViews
import Mathlib.Data.List.Nodup

namespace Neoethos

open Fallible (refuse require bind_ok_iff check_ok_iff mapError_ok_iff refuse_ok_iff require_ok_iff
  mapM_ok_iff)
open Selection (pick Within)

section Runs

theorem runsFrom_rows {start last : Nat} (h : start ≤ last) (rows : List Nat) :
    (runsFrom start last rows).flatMap RowRange.rows =
      List.range' start (last + 1 - start) ++ rows := by
  induction rows generalizing start last with
  | nil => rfl
  | cons row rows ih =>
    unfold runsFrom
    split
    next hnext =>
      rw [ih (by omega), hnext, show last + 1 + 1 - start = (last + 1 - start) + 1 by omega,
        List.range'_concat, List.append_assoc, Nat.one_mul,
        show start + (last + 1 - start) = last + 1 by omega]
      rfl
    next =>
      rw [List.flatMap_cons, ih le_rfl, Nat.add_sub_cancel_left]
      rfl

theorem consecutiveRuns_rows (rows : List Nat) :
    (consecutiveRuns rows).flatMap RowRange.rows = rows := by
  cases rows with
  | nil => rfl
  | cons row rows =>
    unfold consecutiveRuns
    rw [runsFrom_rows le_rfl, Nat.add_sub_cancel_left]
    rfl

theorem runsFrom_bounds {start last length : Nat} (h : start ≤ last) (hlast : last < length)
    {rows : List Nat} (hrows : Within rows length) :
    ∀ run ∈ runsFrom start last rows, run.start ≤ run.stop ∧ run.stop ≤ length := by
  induction rows generalizing start last with
  | nil =>
    intro run hrun
    obtain rfl := List.mem_singleton.mp hrun
    exact ⟨by dsimp only; omega, hlast⟩
  | cons row rows ih =>
    obtain ⟨hrow, hrest⟩ := Selection.within_cons.mp hrows
    unfold runsFrom
    split
    next hnext => exact ih (by omega) hrow hrest
    next =>
      intro run hrun
      rcases List.mem_cons.mp hrun with rfl | hrun
      · exact ⟨by dsimp only; omega, hlast⟩
      · exact ih le_rfl hrow hrest run hrun

theorem consecutiveRuns_bounds {length : Nat} {rows : List Nat} (hrows : Within rows length) :
    ∀ run ∈ consecutiveRuns rows, run.start ≤ run.stop ∧ run.stop ≤ length := by
  cases rows with
  | nil => exact fun _ hrun => absurd hrun List.not_mem_nil
  | cons row rows =>
    obtain ⟨hrow, hrest⟩ := Selection.within_cons.mp hrows
    exact runsFrom_bounds le_rfl hrow hrest

end Runs

theorem mapM_require {ε α : Type} {e : ε} {indices : List Nat} {xs : List α}
    (hwithin : Within indices xs.length) :
    (indices.mapM fun index => require xs[index]? e) = .ok (pick indices xs) := by
  induction indices with
  | nil => rfl
  | cons index indices ih =>
    obtain ⟨x, hx⟩ := hwithin.exists_getElem?
    rw [List.mapM_cons, ih hwithin.tail, Selection.pick_cons_of_lt hx, hx]
    rfl

theorem map_getD_pick {α : Type} {indices : List Nat} {xs : List α} (default : α)
    (hwithin : Within indices xs.length) :
    (indices.map fun index => (xs[index]?).getD default) = pick indices xs := by
  induction indices with
  | nil => rfl
  | cons index indices ih =>
    obtain ⟨x, hx⟩ := hwithin.exists_getElem?
    rw [List.map_cons, ih hwithin.tail, Selection.pick_cons_of_lt hx, hx, Option.getD_some]

theorem mapM_some_of_ok {ε α β : Type} {f : α → Except ε β} {g : α → Option β} {xs : List α}
    {ys : List β} (h : ∀ x y, f x = .ok y → g x = some y) (hxs : xs.mapM f = .ok ys) :
    xs.mapM g = some ys := by
  have hall := mapM_ok_iff.mp hxs
  induction hall with
  | nil => rfl
  | cons hhead htail ih =>
    rw [List.mapM_cons, h _ _ hhead, ih (mapM_ok_iff.mpr htail)]
    rfl

theorem mapM_ok_of_some {ε α β : Type} {f : α → Except ε β} {g : α → Option β} {xs : List α}
    {ys : List β} (h : ∀ x ∈ xs, ∀ y, g x = some y → f x = .ok y) (hxs : xs.mapM g = some ys) :
    xs.mapM f = .ok ys := by
  induction xs generalizing ys with
  | nil =>
    obtain rfl := Option.some.inj hxs
    rfl
  | cons x xs ih =>
    rw [List.forall_mem_cons] at h
    rw [List.mapM_cons] at hxs
    simp only [Option.bind_eq_bind, Option.bind_eq_some_iff, Option.pure_def,
      Option.some.injEq] at hxs
    obtain ⟨y, hy, rest, hrest, rfl⟩ := hxs
    rw [List.mapM_cons, h.1 y hy, ih h.2 hrest]
    rfl

theorem pick_nodup {indices xs : List Nat} (hxs : xs.Nodup) (hwithin : Within indices xs.length)
    (hindices : indices.Nodup) : (pick indices xs).Nodup := by
  induction indices with
  | nil => exact List.nodup_nil
  | cons index indices ih =>
    obtain ⟨hout, hrest⟩ := List.nodup_cons.mp hindices
    obtain ⟨x, hx⟩ := hwithin.exists_getElem?
    rw [Selection.pick_cons_of_lt hx, List.nodup_cons]
    refine ⟨?_, ih hwithin.tail hrest⟩
    intro hmem
    obtain ⟨other, hother, hx'⟩ := List.mem_filterMap.mp hmem
    obtain ⟨hlt, heq⟩ := List.getElem?_eq_some_iff.mp hx
    obtain ⟨hlt', heq'⟩ := List.getElem?_eq_some_iff.mp hx'
    have hsame := (List.Nodup.getElem_inj_iff hxs).mp (heq.trans heq'.symm)
    rw [hsame] at hout
    exact hout hother

namespace FeatureFrame

variable {F A : Type}

theorem nFeatures_eq {frame : FeatureFrame F A} {table : FeatureTable F}
    (hnames : frame.names = table.names) : frame.nFeatures = table.columns.length := by
  unfold FeatureFrame.nFeatures
  rw [hnames]
  exact List.length_map _

def viewRowList (viewRows : RowRange) (indices : Option (List Nat)) : List Nat :=
  indices.getD viewRows.rows

section Maps

variable {head : FeatureFrameHead F A} {parent : FeatureFrame F A} {physical : List Nat}
  {viewRows : RowRange} {indices : Option (List Nat)}
  {fits : Option (List (RobustNormalizationFitF64 F))}

theorem ViewMaps.length_physical (h : ViewMaps head parent physical viewRows indices) :
    physical.length = head.names.length := by
  rw [← h.names, Selection.length_pick h.columns]

theorem ViewMaps.rowList_within (h : ViewMaps head parent physical viewRows indices) :
    Within (viewRowList viewRows indices) parent.nSamples := by
  cases indices with
  | none =>
    have hordered := h.ordered
    have hrows := h.rows
    exact Selection.within_range' (by unfold RowRange.length; omega)
  | some rows => exact (h.selected rows rfl).2

theorem ViewMaps.length_rowList (h : ViewMaps head parent physical viewRows indices) :
    (viewRowList viewRows indices).length = head.timestamps.length := by
  cases indices with
  | none =>
    rw [← h.length]
    exact List.length_range'
  | some rows => exact (h.selected rows rfl).1

/-- A projection of a view, in the columns and rows of its parent. -/
theorem ViewMaps.within (h : ViewMaps head parent physical viewRows indices) {columns : List Nat}
    {range : RowRange}
    (hprojectable : (view head parent physical viewRows fits indices).Projectable columns range) :
    Within columns physical.length := by
  rw [h.length_physical]
  exact hprojectable.within

theorem ViewMaps.rows_within (h : ViewMaps head parent physical viewRows indices)
    {columns : List Nat} {range : RowRange}
    (hprojectable : (view head parent physical viewRows fits indices).Projectable columns range) :
    Within range.rows (viewRowList viewRows indices).length := by
  rw [h.length_rowList]
  have hordered := hprojectable.ordered
  have hrows : range.stop ≤ head.timestamps.length := hprojectable.rows
  exact Selection.within_range' (by unfold RowRange.length; omega)

theorem ViewMaps.projectable (h : ViewMaps head parent physical viewRows indices)
    {columns : List Nat} {range run : RowRange}
    (hprojectable : (view head parent physical viewRows fits indices).Projectable columns range)
    (hordered : run.start ≤ run.stop) (hrun : run.stop ≤ parent.nSamples) :
    parent.Projectable (pick columns physical) run := by
  have hwithin := h.within hprojectable
  refine ⟨?_, hordered, hrun, h.columns.pick, pick_nodup h.nodup hwithin hprojectable.nodup⟩
  intro hnil
  have hlength := Selection.length_pick hwithin
  rw [hnil] at hlength
  exact hprojectable.nonempty (List.length_eq_zero_iff.mp hlength.symm)

/-- Reading the selected table is reading the table under the maps. -/
theorem ViewMaps.read (h : ViewMaps head parent physical viewRows indices)
    {table : FeatureTable F} (hrectangular : table.Rectangular)
    (hsamples : parent.nSamples = table.nRows) (hfeatures : parent.nFeatures = table.columns.length)
    (columns rows : List Nat) :
    ((table.selectColumns physical).selectRows (viewRowList viewRows indices)).read columns rows =
      table.read (pick columns physical) (pick rows (viewRowList viewRows indices)) := by
  have hrows := h.rowList_within
  have hcolumns := h.columns
  rw [hsamples] at hrows
  rw [hfeatures] at hcolumns
  rw [FeatureTable.read_selectRows (FeatureTable.selectColumns_rectangular hrectangular physical)
    hrows, FeatureTable.read_selectColumns hcolumns]

end Maps

section Views

variable [FloatOps F] {nan : F} {apply : Bool} {head : FeatureFrameHead F A}
  {parent : FeatureFrame F A} {physical : List Nat} {viewRows : RowRange}
  {indices : Option (List Nat)}

/-- The rows that a view reads from its parent: one range, or the runs of its list. -/
def parentBatch (nan : F) (apply : Bool) (parent : FeatureFrame F A) (viewRows : RowRange)
    (columns : List Nat) (range : RowRange) :
    Option (List Nat) → Except (FeatureFrameError F) (VortexFeatureBatch F)
  | some indices => do
    let names ← columns.mapM fun column => do
      let name ← require parent.names[column]? .panicked
      newColumn nan name [] []
    let sources ← (consecutiveRuns (range.of indices)).mapM fun run =>
      projectColumnsMode nan apply parent columns run
    pure (sources.foldl VortexFeatureBatch.extend ⟨[], [], names⟩)
  | none =>
    projectColumnsMode nan apply parent columns
      ⟨viewRows.start + range.start, viewRows.start + range.stop⟩

theorem project_view (h : ViewMaps head parent physical viewRows indices)
    {fits : Option (List (RobustNormalizationFitF64 F))} {columns : List Nat} {range : RowRange}
    (hprojectable : (view head parent physical viewRows fits indices).Projectable columns range) :
    projectColumnsMode nan apply (view head parent physical viewRows fits indices) columns range =
      (parentBatch nan apply parent viewRows (pick columns physical) range indices >>= fun batch =>
        match fits with
        | some fits =>
          if apply then do
            let columns ← applyFits nan fits columns batch.columns
            return { batch with columns := columns }
          else return batch
        | none => return batch) := by
  have hvalid := validateProjection_ok_iff.mpr hprojectable
  rw [projectColumnsMode, hvalid, Fallible.ok_bind, mapM_require (h.within hprojectable),
    Fallible.ok_bind]
  cases indices with
  | none => rfl
  | some indices =>
    unfold parentBatch
    cases fits with
    | none => simp
    | some fits => simp [bind_assoc]

omit [FloatOps F] in
theorem shifted_rows (h : ViewMaps head parent physical viewRows none) {columns : List Nat}
    {range : RowRange} {fits : Option (List (RobustNormalizationFitF64 F))}
    (hprojectable : (view head parent physical viewRows fits none).Projectable columns range) :
    pick range.rows (viewRowList viewRows none) =
      (RowRange.mk (viewRows.start + range.start) (viewRows.start + range.stop)).rows := by
  have hwithin := h.rows_within hprojectable
  have hlist : viewRowList viewRows none = viewRows.rows := rfl
  rw [hlist] at hwithin ⊢
  unfold RowRange.rows at hwithin ⊢
  rw [List.length_range'] at hwithin
  rw [Selection.pick_of_range' hwithin, List.map_add_range']
  unfold RowRange.length
  rw [Nat.add_sub_add_left]

/-- A view that shows the parent's rows through a list or a range, on a table that the parent
reads. -/
theorem parentBatch_reads (h : ViewMaps head parent physical viewRows indices)
    {table : FeatureTable F} (hnames : parent.names = table.names)
    (hreads : Reads nan apply parent table) {columns : List Nat} {range : RowRange}
    {fits : Option (List (RobustNormalizationFitF64 F))}
    (hprojectable : (view head parent physical viewRows fits indices).Projectable columns range)
    {batch : VortexFeatureBatch F}
    (hbatch : parentBatch nan apply parent viewRows (pick columns physical) range indices =
      .ok batch) :
    table.read (pick columns physical) (pick range.rows (viewRowList viewRows indices)) =
      some batch := by
  cases indices with
  | none =>
    rw [shifted_rows h hprojectable]
    exact hreads _ _ _ hbatch
  | some rows =>
    have hlist : viewRowList viewRows (some rows) = rows := rfl
    rw [hlist, RowRange.pick_rows]
    unfold parentBatch at hbatch
    obtain ⟨names, hnamed, hbatch⟩ := bind_ok_iff.mp hbatch
    obtain ⟨sources, hsources, hbatch⟩ := bind_ok_iff.mp hbatch
    obtain rfl := Except.ok.inj hbatch
    have hruns : (consecutiveRuns (range.of rows)).mapM
        (fun run => table.read (pick columns physical) run.rows) = some sources :=
      mapM_some_of_ok (fun run batch hrun => hreads _ _ _ hrun) hsources
    have hempty : names = (pick (pick columns physical) table.columns).map
        fun column => ⟨column.name, [], []⟩ := by
      have hwithin : Within (pick columns physical) parent.names.length := h.columns.pick
      have heach := Fallible.eq_map_of_mapM_ok (g := fun column : Nat =>
        (⟨(parent.names[column]?).getD "", [], []⟩ : FeatureColumnF64 F)) (fun column out hout => by
          obtain ⟨name, hname, hnew⟩ := bind_ok_iff.mp hout
          obtain ⟨-, hnew⟩ := check_ok_iff.mp (mapError_ok_iff.mp hnew)
          obtain ⟨-, hnew⟩ := check_ok_iff.mp hnew
          obtain rfl := Except.ok.inj hnew
          rw [require_ok_iff.mp hname, Option.getD_some]) hnamed
      have hmap : ((pick columns physical).map fun column : Nat =>
          (⟨(parent.names[column]?).getD "", [], []⟩ : FeatureColumnF64 F)) =
          (pick (pick columns physical) parent.names).map fun name => ⟨name, [], []⟩ := by
        rw [← map_getD_pick "" hwithin, List.map_map]
        rfl
      rw [heach, hmap, hnames]
      unfold FeatureTable.names
      rw [Selection.pick_map, List.map_map]
      rfl
    have hread := (table.read_foldl (pick columns physical) (consecutiveRuns (range.of rows))
      (table.read_nil (pick columns physical))).mpr ⟨sources, hruns, rfl⟩
    rw [consecutiveRuns_rows, List.nil_append, ← hempty] at hread
    exact hread

theorem parentBatch_serves (h : ViewMaps head parent physical viewRows indices)
    {table : FeatureTable F} (hnames : parent.names = table.names)
    (hnamed : ∀ name ∈ table.names, name ≠ "") (hserves : Serves nan parent table)
    {columns : List Nat} {range : RowRange} {fits : Option (List (RobustNormalizationFitF64 F))}
    (hprojectable : (view head parent physical viewRows fits indices).Projectable columns range)
    {batch : VortexFeatureBatch F}
    (hread : table.read (pick columns physical)
      (pick range.rows (viewRowList viewRows indices)) = some batch) :
    parentBatch nan true parent viewRows (pick columns physical) range indices = .ok batch := by
  cases indices with
  | none =>
    rw [shifted_rows h hprojectable] at hread
    have hordered := hprojectable.ordered
    have hrows : range.stop ≤ head.timestamps.length := hprojectable.rows
    have hviewRows := h.rows
    have hviewOrdered := h.ordered
    have hlength := h.length
    unfold RowRange.length at hlength
    exact hserves _ _ _ (h.projectable hprojectable (Nat.add_le_add_left hordered _)
      (by dsimp only; omega)) hread
  | some rows =>
    have hlist : viewRowList viewRows (some rows) = rows := rfl
    rw [hlist, RowRange.pick_rows] at hread
    have hwithin : Within (pick columns physical) parent.names.length := h.columns.pick
    have hempty : ((pick columns physical).mapM fun column => do
        let name ← require parent.names[column]? (.panicked : FeatureFrameError F)
        newColumn nan name [] []) =
        .ok ((pick (pick columns physical) parent.names).map fun name => ⟨name, [], []⟩) := by
      apply mapM_pick hwithin
      intro name hname
      have hclean : CleanColumn nan (⟨name, [], []⟩ : FeatureColumnF64 F) :=
        ⟨hnamed name (hnames ▸ hname), rfl, fun _ hcell => absurd hcell List.not_mem_nil⟩
      exact mapError_ok_iff.mpr hclean.new_eq
    have hfirst : ((pick (pick columns physical) parent.names).map fun name =>
        (⟨name, [], []⟩ : FeatureColumnF64 F)) =
        (pick (pick columns physical) table.columns).map fun column => ⟨column.name, [], []⟩ := by
      rw [hnames]
      unfold FeatureTable.names
      rw [Selection.pick_map, List.map_map]
      rfl
    have hall := (table.read_foldl (pick columns physical) (consecutiveRuns (range.of rows))
      (table.read_nil (pick columns physical))).mp (by
        rw [consecutiveRuns_rows]
        exact hread)
    obtain ⟨sources, hsources, rfl⟩ := hall
    have hselected : Within (range.of rows) parent.nSamples := by
      rw [← RowRange.pick_rows]
      exact (h.selected rows rfl).2.pick
    have hruns := mapM_ok_of_some (f := fun run : RowRange =>
      projectColumnsMode nan true parent (pick columns physical) run) (fun run hrun out hout => by
        obtain ⟨hordered, hstop⟩ := consecutiveRuns_bounds hselected run hrun
        exact hserves _ _ _ (h.projectable hprojectable hordered hstop) hout) hsources
    unfold parentBatch
    dsimp only
    rw [hempty, Fallible.ok_bind, hruns, Fallible.ok_bind, hfirst]
    rfl

/-- A view shows the selected table, where it has no fits or they are not asked for. -/
theorem view_reads (h : ViewMaps head parent physical viewRows indices) {table : FeatureTable F}
    (hrectangular : table.Rectangular) (hsamples : parent.nSamples = table.nRows)
    (hnames : parent.names = table.names) (hreads : Reads nan apply parent table)
    {fits : Option (List (RobustNormalizationFitF64 F))} (hfits : fits = none ∨ apply = false) :
    Reads nan apply (view head parent physical viewRows fits indices)
      ((table.selectColumns physical).selectRows (viewRowList viewRows indices)) := by
  intro columns range batch hproject
  have hprojectable := projectable_of_ok hproject
  have hfeatures := nFeatures_eq hnames
  rw [project_view h hprojectable] at hproject
  obtain ⟨shown, hshown, hproject⟩ := bind_ok_iff.mp hproject
  have hsame : shown = batch := by
    rcases hfits with rfl | rfl
    · exact Except.ok.inj hproject
    · cases fits with
      | none => exact Except.ok.inj hproject
      | some fits => exact Except.ok.inj hproject
  rw [h.read hrectangular hsamples hfeatures, ← hsame]
  exact parentBatch_reads h hnames hreads hprojectable hshown

theorem view_serves (h : ViewMaps head parent physical viewRows indices) {table : FeatureTable F}
    (hrectangular : table.Rectangular) (hsamples : parent.nSamples = table.nRows)
    (hnames : parent.names = table.names) (hnamed : ∀ name ∈ table.names, name ≠ "")
    (hserves : Serves nan parent table) :
    Serves nan (view head parent physical viewRows none indices)
      ((table.selectColumns physical).selectRows (viewRowList viewRows indices)) := by
  intro columns range batch hprojectable hread
  have hfeatures := nFeatures_eq hnames
  rw [h.read hrectangular hsamples hfeatures] at hread
  rw [project_view h hprojectable, parentBatch_serves h hnames hnamed hserves hprojectable hread]
  rfl

end Views

end FeatureFrame

end Neoethos
