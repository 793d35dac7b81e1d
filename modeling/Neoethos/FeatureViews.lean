import Neoethos.FeatureTable
import Neoethos.FeatureAlignmentMeaning

namespace Neoethos

open Fallible (refuse require bind_ok_iff check_ok_iff mapError_ok_iff refuse_ok_iff require_ok_iff
  mapM_ok_iff)
open Selection (pick Within)

namespace FeatureFrame

variable {F A : Type}

section Checks

/-- Columns and a range that a frame lets be projected. -/
structure Projectable (frame : FeatureFrame F A) (columns : List Nat) (range : RowRange) :
    Prop where
  nonempty : columns ≠ []
  ordered : range.start ≤ range.stop
  rows : range.stop ≤ frame.nSamples
  within : Within columns frame.nFeatures
  nodup : columns.Nodup

theorem checkColumns_ok_iff {features : Nat} {seen columns : List Nat} :
    checkColumns (F := F) features seen columns = .ok () ↔
      Within columns features ∧ (∀ column ∈ columns, column ∉ seen) ∧ columns.Nodup := by
  induction columns generalizing seen with
  | nil => simp [checkColumns, Within]
  | cons column columns ih =>
    unfold checkColumns
    rw [check_ok_iff, refuse_ok_iff, check_ok_iff, refuse_ok_iff, ih, List.nodup_cons,
      Selection.within_cons, List.forall_mem_cons]
    simp only [List.mem_cons, not_or, not_le]
    constructor
    · rintro ⟨hlt, hnew, hwithin, hrest, hnodup⟩
      exact ⟨⟨hlt, hwithin⟩, ⟨hnew, fun c hc => (hrest c hc).2⟩,
        fun hmem => (hrest column hmem).1 rfl, hnodup⟩
    · rintro ⟨⟨hlt, hwithin⟩, ⟨hnew, hrest⟩, hout, hnodup⟩
      refine ⟨hlt, hnew, hwithin, fun c hc => ⟨?_, hrest c hc⟩, hnodup⟩
      rintro rfl
      exact hout hc

theorem validateProjection_ok_iff {frame : FeatureFrame F A} {columns : List Nat}
    {range : RowRange} :
    frame.validateProjection columns range = .ok () ↔ frame.Projectable columns range := by
  unfold validateProjection
  rw [check_ok_iff, refuse_ok_iff, check_ok_iff, refuse_ok_iff, checkColumns_ok_iff, not_not]
  constructor
  · rintro ⟨hne, ⟨hordered, hrows⟩, hwithin, -, hnodup⟩
    exact ⟨hne, hordered, hrows, hwithin, hnodup⟩
  · intro h
    exact ⟨h.nonempty, ⟨h.ordered, h.rows⟩, h.within, fun _ _ => List.not_mem_nil, h.nodup⟩

theorem isStrictlyIncreasing_iff {rows : List Nat} :
    isStrictlyIncreasing rows = true ↔ rows.Pairwise (· < ·) := by
  rw [← List.isChain_iff_pairwise]
  induction rows with
  | nil => simp [isStrictlyIncreasing]
  | cons row rows ih =>
    cases rows with
    | nil => simp [isStrictlyIncreasing]
    | cons next rows =>
      unfold isStrictlyIncreasing
      rw [Bool.and_eq_true, decide_eq_true_eq, ih, List.isChain_cons_cons]

theorem within_of_last {rows : List Nat} {length : Nat} (hincreasing : rows.Pairwise (· < ·))
    (hlast : rows.getLast?.any (· < length) = true) : Within rows length := by
  intro row hrow
  obtain ⟨front, last, rfl⟩ := (List.eq_nil_or_concat' rows).resolve_left
    (List.ne_nil_of_mem hrow)
  rw [List.getLast?_concat] at hlast
  have hlt : last < length := by simpa using hlast
  rcases List.mem_append.mp hrow with hrow | hrow
  · have hbefore := (List.pairwise_append.mp hincreasing).2.2 row hrow last (by simp)
    omega
  · rw [List.mem_singleton.mp hrow]
    exact hlt

/-- The column map of a view leads to columns of the parent under the view's names. -/
theorem checkColumnMap_ok {parentNames names : List String} {seen columns : List Nat}
    {logical : Nat} (hlength : columns.length = names.length)
    (h : checkColumnMap (F := F) parentNames seen logical names columns = .ok ()) :
    Within columns parentNames.length ∧ (∀ column ∈ columns, column ∉ seen) ∧ columns.Nodup ∧
      pick columns parentNames = names := by
  induction columns generalizing names seen logical with
  | nil =>
    have hnil : names = [] := List.length_eq_zero_iff.mp hlength.symm
    rw [hnil]
    exact ⟨fun _ hc => absurd hc List.not_mem_nil, fun _ hc => absurd hc List.not_mem_nil,
      List.nodup_nil, rfl⟩
  | cons column columns ih =>
    cases names with
    | nil => cases hlength
    | cons name names =>
      unfold checkColumnMap at h
      rw [check_ok_iff, refuse_ok_iff, check_ok_iff, refuse_ok_iff, check_ok_iff,
        refuse_ok_iff] at h
      obtain ⟨hlt, hnew, hname, hrest⟩ := h
      obtain ⟨hwithin, houtside, hnodup, hpick⟩ := ih (Nat.succ.inj hlength) hrest
      refine ⟨?_, ?_, ?_, ?_⟩
      · intro c hc
        rcases List.mem_cons.mp hc with rfl | hc
        · exact not_le.mp hlt
        · exact hwithin c hc
      · intro c hc
        rcases List.mem_cons.mp hc with rfl | hc
        · exact hnew
        · exact fun hmem => houtside c hc (List.mem_cons_of_mem _ hmem)
      · exact List.nodup_cons.mpr ⟨fun hmem => houtside column hmem List.mem_cons_self, hnodup⟩
      · rw [Selection.pick_cons_of_lt (not_not.mp hname), hpick]

/-- What the checks of a view leave of its maps. -/
structure ViewMaps (head : FeatureFrameHead F A) (parent : FeatureFrame F A)
    (physical : List Nat) (range : RowRange) (indices : Option (List Nat)) : Prop where
  columns : Within physical parent.nFeatures
  nodup : physical.Nodup
  names : pick physical parent.names = head.names
  ordered : range.start ≤ range.stop
  rows : range.stop ≤ parent.nSamples
  length : range.length = head.timestamps.length
  selected : ∀ rows, indices = some rows →
    rows.length = head.timestamps.length ∧ Within rows parent.nSamples

theorem ViewMaps.of_validateBacking {head : FeatureFrameHead F A} {parent : FeatureFrame F A}
    {columns : List Nat} {range : RowRange} {fits : Option (List (RobustNormalizationFitF64 F))}
    {indices : Option (List Nat)}
    (h : validateBacking (view head parent columns range fits indices) = .ok ()) :
    ViewMaps head parent columns range indices := by
  unfold validateBacking at h
  dsimp only at h
  simp only [check_ok_iff, refuse_ok_iff, not_not] at h
  obtain ⟨-, hindices, -, ⟨hordered, hrows⟩, hlength, hcount, hmap⟩ := h
  obtain ⟨hwithin, -, hnodup, hnames⟩ := checkColumnMap_ok hcount hmap
  refine ⟨hwithin, hnodup, hnames, hordered, hrows, hlength, ?_⟩
  rintro rows rfl
  unfold checkRowIndices at hindices
  rw [refuse_ok_iff, not_not] at hindices
  obtain ⟨hrowCount, hincreasing, hlast⟩ := hindices
  exact ⟨hrowCount, within_of_last (isStrictlyIncreasing_iff.mp hincreasing) hlast⟩

end Checks

end FeatureFrame

section Clean

variable {F : Type} [FloatOps F] {nan : F}

/-- A valid cell is finite, and an invalid one holds the canonical NaN. -/
def CleanCell (nan : F) (cell : FeatureCellF64 F) : Prop :=
  (cell.validity.isValid = true → FloatOps.isFinite cell.value = true) ∧
    (cell.validity.isValid = false → cell.value = nan)

structure CleanColumn (nan : F) (column : FeatureColumnF64 F) : Prop where
  name : column.name ≠ ""
  length : column.values.length = column.validity.length
  cells : ∀ cell ∈ column.cells, CleanCell nan cell

theorem canonicalCells_clean {name : String} {row : Nat} {values : List F}
    {validity : List FeatureCellValidity}
    (h : ∀ cell ∈ List.zipWith FeatureCellF64.mk values validity, CleanCell nan cell) :
    canonicalCells nan name row values validity = .ok values := by
  induction values generalizing row validity with
  | nil => rfl
  | cons value values ih =>
    cases validity with
    | nil => rfl
    | cons first validity =>
      rw [List.zipWith_cons_cons, List.forall_mem_cons] at h
      obtain ⟨⟨hfinite, hnan⟩, hrest⟩ := h
      unfold canonicalCells
      rw [ih hrest]
      cases hvalid : first.isValid with
      | true =>
        have hvalue := hfinite hvalid
        simp only [if_true]
        rw [check_ok_iff, refuse_ok_iff]
        exact ⟨by simpa using hvalue, rfl⟩
      | false =>
        have hvalue := hnan hvalid
        dsimp only at hvalue
        rw [hvalue]
        rfl

theorem CleanColumn.new_eq {column : FeatureColumnF64 F} (h : CleanColumn nan column) :
    FeatureColumnF64.new nan column.name column.values column.validity = .ok column := by
  unfold FeatureColumnF64.new
  rw [check_ok_iff, refuse_ok_iff, check_ok_iff, refuse_ok_iff]
  refine ⟨h.name, not_not.mpr h.length, ?_⟩
  rw [canonicalCells_clean h.cells]
  rfl

theorem canonicalCells_clean_of_ok {name : String} {row : Nat} {values cells : List F}
    {validity : List FeatureCellValidity} (hlength : values.length = validity.length)
    (h : canonicalCells nan name row values validity = .ok cells) :
    cells.length = validity.length ∧
      ∀ cell ∈ List.zipWith FeatureCellF64.mk cells validity, CleanCell nan cell := by
  induction values generalizing row validity cells with
  | nil =>
    obtain rfl := Except.ok.inj h
    exact ⟨hlength, fun cell hcell => by simp at hcell⟩
  | cons value values ih =>
    cases validity with
    | nil => cases hlength
    | cons first validity =>
      have hlength : values.length = validity.length := Nat.succ.inj hlength
      unfold canonicalCells at h
      split at h
      next hvalid =>
        obtain ⟨hfinite, h⟩ := check_ok_iff.mp h
        obtain ⟨rest, hrest, h⟩ := bind_ok_iff.mp h
        obtain rfl := Except.ok.inj h
        obtain ⟨hcount, hclean⟩ := ih hlength hrest
        rw [refuse_ok_iff] at hfinite
        refine ⟨congrArg (· + 1) hcount, ?_⟩
        rw [List.zipWith_cons_cons, List.forall_mem_cons]
        refine ⟨⟨fun _ => by simpa using hfinite, fun hinvalid => ?_⟩, hclean⟩
        rw [hvalid] at hinvalid
        cases hinvalid
      next hinvalid =>
        obtain ⟨rest, hrest, h⟩ := bind_ok_iff.mp h
        obtain rfl := Except.ok.inj h
        obtain ⟨hcount, hclean⟩ := ih hlength hrest
        refine ⟨congrArg (· + 1) hcount, ?_⟩
        rw [List.zipWith_cons_cons, List.forall_mem_cons]
        exact ⟨⟨fun hvalid => absurd hvalid hinvalid, fun _ => rfl⟩, hclean⟩

theorem CleanColumn.of_new {name : String} {values : List F} {validity : List FeatureCellValidity}
    {column : FeatureColumnF64 F} (h : FeatureColumnF64.new nan name values validity = .ok column) :
    CleanColumn nan column ∧ column.name = name := by
  obtain ⟨hname, h⟩ := check_ok_iff.mp h
  obtain ⟨hlength, h⟩ := check_ok_iff.mp h
  obtain ⟨cells, hcells, h⟩ := bind_ok_iff.mp h
  obtain rfl := Except.ok.inj h
  rw [refuse_ok_iff, not_not] at hlength
  obtain ⟨hcount, hclean⟩ := canonicalCells_clean_of_ok hlength hcells
  exact ⟨⟨refuse_ok_iff.mp hname, hcount, hclean⟩, rfl⟩

omit [FloatOps F] in
theorem FeatureColumnF64.map_cells {column : FeatureColumnF64 F}
    (h : column.values.length = column.validity.length) :
    column.cells.map (·.value) = column.values ∧
      column.cells.map (·.validity) = column.validity := by
  unfold FeatureColumnF64.cells
  rw [List.map_zipWith, List.map_zipWith]
  constructor
  · apply List.ext_getElem
    · simp [h]
    · intro i hi hi'
      simp
  · apply List.ext_getElem
    · simp [h]
    · intro i hi hi'
      simp

def FeatureColumnF64.pickRows (rows : List Nat) (column : FeatureColumnF64 F) :
    FeatureColumnF64 F :=
  ⟨column.name, pick rows column.values, pick rows column.validity⟩

omit [FloatOps F] in
theorem FeatureColumnF64.pickRows_eq {column : FeatureColumnF64 F}
    (h : column.values.length = column.validity.length) (rows : List Nat) :
    column.pickRows rows = column.withCells (pick rows column.cells) := by
  obtain ⟨hvalues, hvalidity⟩ := FeatureColumnF64.map_cells h
  unfold FeatureColumnF64.pickRows FeatureColumnF64.withCells
  rw [← Selection.pick_map, ← Selection.pick_map, hvalues, hvalidity]

omit [FloatOps F] in
theorem FeatureColumnF64.cells_withCells (column : FeatureColumnF64 F)
    (cells : List (FeatureCellF64 F)) : (column.withCells cells).cells = cells := by
  unfold FeatureColumnF64.withCells FeatureColumnF64.cells
  dsimp only
  induction cells with
  | nil => rfl
  | cons cell cells ih => rw [List.map_cons, List.map_cons, List.zipWith_cons_cons, ih]

theorem CleanColumn.pickRows {column : FeatureColumnF64 F} (h : CleanColumn nan column)
    (rows : List Nat) : CleanColumn nan (column.pickRows rows) := by
  rw [FeatureColumnF64.pickRows_eq h.length]
  refine ⟨h.name, ?_, ?_⟩
  · unfold FeatureColumnF64.withCells
    rw [List.length_map, List.length_map]
  · intro cell hcell
    rw [FeatureColumnF64.cells_withCells] at hcell
    exact h.cells cell (Selection.mem_of_mem_pick hcell)

def FeatureColumnF64.toTable (column : FeatureColumnF64 F) : TableColumn F :=
  ⟨column.name, column.cells.map some⟩

theorem mapM_id_some {α : Type} (xs : List α) : (xs.map some).mapM id = some xs := by
  have hsome : ∀ x ∈ xs, (id ∘ some) x = some (id x) := fun _ _ => rfl
  rw [List.mapM_map, mapM_some_map hsome, List.map_id]

omit [FloatOps F] in
theorem FeatureColumnF64.read_toTable {column : FeatureColumnF64 F}
    (h : column.values.length = column.validity.length) (rows : List Nat) :
    column.toTable.read rows = some (column.pickRows rows) := by
  unfold TableColumn.read FeatureColumnF64.toTable
  dsimp only
  rw [Selection.pick_map, mapM_id_some, FeatureColumnF64.pickRows_eq h]
  rfl

end Clean

theorem mapM_pick {ε α β : Type} {e : ε} {f : α → Except ε β} {g : α → β} {indices : List Nat}
    {xs : List α} (hwithin : Within indices xs.length) (h : ∀ x ∈ xs, f x = .ok (g x)) :
    (indices.mapM fun index => require xs[index]? e >>= f) = .ok ((pick indices xs).map g) := by
  induction indices with
  | nil => rfl
  | cons index indices ih =>
    obtain ⟨x, hx⟩ := hwithin.exists_getElem?
    rw [List.mapM_cons, ih hwithin.tail, Selection.pick_cons_of_lt hx, hx, List.map_cons]
    show (f x >>= _) = _
    rw [h x (List.mem_of_getElem? hx)]
    rfl

def FeatureFrameRowIds.ids (rows : Nat) : FeatureFrameRowIds → List Nat
  | .contiguous origin => List.range' origin rows
  | .explicit ids => ids

namespace FeatureFrame

variable {F A : Type}

theorem checkRowIds_length {rows : Nat} {rowIds : FeatureFrameRowIds}
    (h : checkRowIds (F := F) rows rowIds = .ok ()) : (rowIds.ids rows).length = rows := by
  cases rowIds with
  | contiguous origin => exact List.length_range'
  | explicit ids =>
    unfold checkRowIds at h
    rw [check_ok_iff, refuse_ok_iff, not_not] at h
    exact h.1

theorem rowIdsForRange_ok {frame : FeatureFrame F A} {range : RowRange}
    (hcheck : checkRowIds (F := F) frame.nSamples frame.head.rowIds = .ok ())
    (hordered : range.start ≤ range.stop) (hrows : range.stop ≤ frame.nSamples) :
    frame.rowIdsForRange range = .ok (pick range.rows (frame.head.rowIds.ids frame.nSamples)) := by
  unfold rowIdsForRange
  cases hids : frame.head.rowIds with
  | explicit ids =>
    rw [RowRange.pick_rows]
    rfl
  | contiguous origin =>
    rw [hids] at hcheck
    unfold checkRowIds at hcheck
    rw [refuse_ok_iff, not_lt] at hcheck
    have hwithin : Within range.rows frame.nSamples := Selection.within_range' (by
      unfold RowRange.length
      omega)
    unfold FeatureFrameRowIds.ids
    rw [Selection.pick_of_range' hwithin]
    apply Fallible.mapM_eq_map
    intro row hrow
    have hlt := hwithin row hrow
    rw [check_ok_iff, refuse_ok_iff]
    exact ⟨by omega, rfl⟩

def table (head : FeatureFrameHead F A) (columns : List (FeatureColumnF64 F)) : FeatureTable F where
  timestamps := head.timestamps
  rowIds := head.rowIds.ids head.timestamps.length
  columns := columns.map (·.toTable)

theorem checkBacking_ok {rows index : Nat} {names : List String}
    {columns : List (FeatureColumnF64 F)} (hlength : columns.length = names.length)
    (h : checkBacking rows index names columns = .ok ()) :
    columns.map (·.name) = names ∧ ∀ column ∈ columns, column.values.length = rows := by
  induction names generalizing index columns with
  | nil =>
    rw [List.length_eq_zero_iff.mp hlength]
    exact ⟨rfl, fun _ hc => absurd hc List.not_mem_nil⟩
  | cons name names ih =>
    cases columns with
    | nil => cases hlength
    | cons column columns =>
      unfold checkBacking at h
      simp only [check_ok_iff, refuse_ok_iff, not_not] at h
      obtain ⟨hname, hcolumn, hrest⟩ := h
      obtain ⟨hnames, hcolumns⟩ := ih (Nat.succ.inj hlength) hrest
      rw [List.map_cons, hname, hnames, List.forall_mem_cons]
      exact ⟨rfl, hcolumn, hcolumns⟩

section Reading

variable [FloatOps F] (nan : F)

def Reads (apply : Bool) (frame : FeatureFrame F A) (table : FeatureTable F) : Prop :=
  ∀ columns range batch, frame.projectColumnsMode nan apply columns range = .ok batch →
    table.read columns range.rows = some batch

def Serves (frame : FeatureFrame F A) (table : FeatureTable F) : Prop :=
  ∀ columns range batch, frame.Projectable columns range →
    table.read columns range.rows = some batch →
    frame.projectColumnsMode nan true columns range = .ok batch

variable {nan} {apply : Bool} {frame parent : FeatureFrame F A} {head : FeatureFrameHead F A}
  {columns : List (FeatureColumnF64 F)}

theorem projectable_of_ok {selected : List Nat} {range : RowRange} {batch : VortexFeatureBatch F}
    (h : frame.projectColumnsMode nan apply selected range = .ok batch) :
    frame.Projectable selected range := by
  rw [← validateProjection_ok_iff]
  cases frame with
  | inMemory head columns =>
    rw [projectColumnsMode] at h
    exact (check_ok_iff.mp h).1
  | view head parent viewColumns viewRows normalization rowIndices =>
    rw [projectColumnsMode] at h
    exact (check_ok_iff.mp h).1

theorem inMemory_project (apply : Bool) {selected : List Nat} {range : RowRange}
    (hbacking : validateBacking (inMemory head columns) = .ok ())
    (hclean : ∀ column ∈ columns, CleanColumn nan column)
    (hprojectable : (inMemory head columns).Projectable selected range)
    (hraw : apply = true ∨ head.normalizationFittedState = none) :
    ∃ batch, (inMemory head columns).projectColumnsMode nan apply selected range = .ok batch ∧
      (table head columns).read selected range.rows = some batch := by
  unfold validateBacking at hbacking
  dsimp only at hbacking
  simp only [check_ok_iff, refuse_ok_iff, not_not] at hbacking
  obtain ⟨hids, hcount, hnames⟩ := hbacking
  obtain ⟨hnames, hrows⟩ := checkBacking_ok hcount hnames
  have hwithin : Within selected columns.length := by
    rw [hcount]
    exact hprojectable.within
  have hselected : selected.mapM (projectColumn nan columns range) =
      .ok ((pick selected columns).map (·.pickRows range.rows)) := by
    apply mapM_pick hwithin
    intro column hcolumn
    have hnew := ((hclean column hcolumn).pickRows range.rows).new_eq
    unfold newColumn
    rw [← RowRange.pick_rows, ← RowRange.pick_rows, mapError_ok_iff]
    exact hnew
  have hread : (pick selected (table head columns).columns).mapM (TableColumn.read range.rows) =
      some ((pick selected columns).map (·.pickRows range.rows)) := by
    unfold table
    dsimp only
    rw [Selection.pick_map, List.mapM_map]
    apply mapM_some_map
    intro column hcolumn
    exact FeatureColumnF64.read_toTable (hclean column (Selection.mem_of_mem_pick hcolumn)).length _
  refine ⟨⟨range.of head.timestamps, pick range.rows (head.rowIds.ids head.timestamps.length),
    (pick selected columns).map (·.pickRows range.rows)⟩, ?_, ?_⟩
  · rw [projectColumnsMode, check_ok_iff, validateProjection_ok_iff, check_ok_iff, refuse_ok_iff,
      not_not, hselected,
      rowIdsForRange_ok hids hprojectable.ordered hprojectable.rows]
    exact ⟨hprojectable, hraw, rfl⟩
  · unfold FeatureTable.read
    rw [hread, ← RowRange.pick_rows]
    rfl

end Reading

end FeatureFrame

end Neoethos
