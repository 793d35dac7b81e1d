import Neoethos.FeatureFrame
import Neoethos.ListIndex

namespace Neoethos

open Selection (pick Within)

/-- A column of a table; there is no cell where the fit of the column refuses the raw one. -/
structure TableColumn (F : Type) where
  name : String
  cells : List (Option (FeatureCellF64 F))

structure FeatureTable (F : Type) where
  timestamps : List Int
  rowIds : List Nat
  columns : List (TableColumn F)

def RowRange.rows (range : RowRange) : List Nat := List.range' range.start range.length

theorem RowRange.pick_rows {α : Type*} (range : RowRange) (xs : List α) :
    pick range.rows xs = range.of xs :=
  Selection.pick_range' range.start range.length xs

namespace TableColumn

variable {F : Type}

def select (rows : List Nat) (column : TableColumn F) : TableColumn F :=
  { column with cells := pick rows column.cells }

def read (rows : List Nat) (column : TableColumn F) : Option (FeatureColumnF64 F) :=
  ((pick rows column.cells).mapM id).map fun cells =>
    ⟨column.name, cells.map (·.value), cells.map (·.validity)⟩

def fitCell [FloatOps F] (nan : F) (name : String) (fit : RobustNormalizationFitF64 F)
    (cell : FeatureCellF64 F) : Option (FeatureCellF64 F) :=
  (validateRawSearchCell name cell).toOption.map fun _ => transformFittedCell nan fit cell

def fitted [FloatOps F] (nan : F) (fit : RobustNormalizationFitF64 F) (column : TableColumn F) :
    TableColumn F :=
  { column with cells := column.cells.map fun cell => cell.bind (fitCell nan column.name fit) }

end TableColumn

namespace FeatureTable

variable {F : Type}

def names (table : FeatureTable F) : List String := table.columns.map (·.name)

def nRows (table : FeatureTable F) : Nat := table.timestamps.length

def selectRows (rows : List Nat) (table : FeatureTable F) : FeatureTable F where
  timestamps := pick rows table.timestamps
  rowIds := pick rows table.rowIds
  columns := table.columns.map (·.select rows)

def selectColumns (columns : List Nat) (table : FeatureTable F) : FeatureTable F :=
  { table with columns := pick columns table.columns }

/-- Where the columns of a fitted state are, each under the last column of its name. -/
def fittedColumns (state : SearchNormalizationFittedState F) (table : FeatureTable F) : List Nat :=
  state.columnNames.filterMap (FeatureFrame.lastIndex? table.names)

def fitColumns [FloatOps F] (nan : F) (fits : List (RobustNormalizationFitF64 F))
    (physical : List Nat) (table : FeatureTable F) : FeatureTable F :=
  { table with
    columns := List.zipWith (TableColumn.fitted nan) fits (pick physical table.columns) }

def normalize [FloatOps F] (nan : F) (state : SearchNormalizationFittedState F)
    (table : FeatureTable F) : FeatureTable F :=
  table.fitColumns nan state.fits (table.fittedColumns state)

def read (columns rows : List Nat) (table : FeatureTable F) : Option (VortexFeatureBatch F) :=
  ((pick columns table.columns).mapM (TableColumn.read rows)).map fun columns =>
    ⟨pick rows table.timestamps, pick rows table.rowIds, columns⟩

structure Rectangular (table : FeatureTable F) : Prop where
  rowIds : table.rowIds.length = table.nRows
  columns : ∀ column ∈ table.columns, column.cells.length = table.nRows

variable {table : FeatureTable F}

theorem selectRows_rectangular (h : table.Rectangular) {rows : List Nat}
    (hrows : Within rows table.nRows) : (table.selectRows rows).Rectangular := by
  have htimestamps : (table.selectRows rows).nRows = rows.length := Selection.length_pick hrows
  refine ⟨?_, ?_⟩
  · rw [htimestamps]
    exact Selection.length_pick (by rw [h.rowIds]; exact hrows)
  · intro column hcolumn
    obtain ⟨source, hsource, rfl⟩ := List.mem_map.mp hcolumn
    rw [htimestamps]
    exact Selection.length_pick (by rw [h.columns source hsource]; exact hrows)

theorem selectColumns_rectangular (h : table.Rectangular) (columns : List Nat) :
    (table.selectColumns columns).Rectangular :=
  ⟨h.rowIds, fun column hcolumn => h.columns column (Selection.mem_of_mem_pick hcolumn)⟩

theorem read_selectColumns {others : List Nat} (h : Within others table.columns.length)
    (columns rows : List Nat) :
    (table.selectColumns others).read columns rows = table.read (pick columns others) rows := by
  unfold read selectColumns
  rw [Selection.pick_pick h]

theorem read_selectRows (h : table.Rectangular) {others : List Nat}
    (hothers : Within others table.nRows) (columns rows : List Nat) :
    (table.selectRows others).read columns rows = table.read columns (pick rows others) := by
  have hcolumns : ∀ column ∈ pick columns table.columns,
      (column.select others).read rows = column.read (pick rows others) := by
    intro column hcolumn
    have hwithin : Within others column.cells.length := by
      rw [h.columns column (Selection.mem_of_mem_pick hcolumn)]
      exact hothers
    unfold TableColumn.read TableColumn.select
    rw [Selection.pick_pick hwithin]
  have hids : Within others table.rowIds.length := by rw [h.rowIds]; exact hothers
  unfold read selectRows
  dsimp only
  rw [Selection.pick_map, Selection.pick_pick hothers, Selection.pick_pick hids]
  congr 1
  generalize pick columns table.columns = picked at hcolumns ⊢
  induction picked with
  | nil => rfl
  | cons column rest ih =>
    rw [List.map_cons, List.mapM_cons, List.mapM_cons, hcolumns column List.mem_cons_self,
      ih fun other hother => hcolumns other (List.mem_cons_of_mem _ hother)]

end FeatureTable

section Append

variable {F : Type}

def FeatureColumnF64.extend (destination column : FeatureColumnF64 F) : FeatureColumnF64 F :=
  { destination with
    values := destination.values ++ column.values
    validity := destination.validity ++ column.validity }

theorem mapM_some_map {α β : Type} {f : α → Option β} {g : α → β} {xs : List α}
    (h : ∀ x ∈ xs, f x = some (g x)) : xs.mapM f = some (xs.map g) := by
  induction xs with
  | nil => rfl
  | cons x xs ih =>
    rw [List.forall_mem_cons] at h
    rw [List.mapM_cons, h.1, ih h.2]
    rfl

theorem forall₂_of_mapM_some {α β : Type} {f : α → Option β} {xs : List α} {ys : List β}
    (h : xs.mapM f = some ys) : List.Forall₂ (fun x y => f x = some y) xs ys := by
  induction xs generalizing ys with
  | nil =>
    obtain rfl := Option.some.inj h
    exact .nil
  | cons x xs ih =>
    rw [List.mapM_cons] at h
    simp only [Option.bind_eq_bind, Option.bind_eq_some_iff, Option.pure_def,
      Option.some.injEq] at h
    obtain ⟨y, hy, rest, hrest, rfl⟩ := h
    exact .cons hy (ih hrest)

theorem forall₂_map_eq {α β γ : Type} {f : α → γ} {g : β → γ} {xs : List α} {ys : List β}
    (h : List.Forall₂ (fun x y => g y = f x) xs ys) : ys.map g = xs.map f := by
  induction h with
  | nil => rfl
  | cons hhead _ ih => exact congrArg₂ List.cons hhead ih

theorem forall₂_exists_left {α β : Type} {R : α → β → Prop} {xs : List α} {ys : List β}
    (h : List.Forall₂ R xs ys) {y : β} (hy : y ∈ ys) : ∃ x ∈ xs, R x y := by
  induction h with
  | nil => cases hy
  | cons hhead _ ih =>
    rcases List.mem_cons.mp hy with rfl | hy
    · exact ⟨_, List.mem_cons_self, hhead⟩
    · obtain ⟨x, hx, hxy⟩ := ih hy
      exact ⟨x, List.mem_cons_of_mem _ hx, hxy⟩

theorem eq_map_of_mapM_id {α : Type} {xs : List (Option α)} {ys : List α}
    (h : xs.mapM id = some ys) : xs = ys.map some := by
  have hall := forall₂_of_mapM_some h
  clear h
  induction hall with
  | nil => rfl
  | cons hhead _ ih => exact congrArg₂ List.cons hhead ih

theorem mapM_id_append {α : Type} (xs ys : List (Option α)) (zs : List α) :
    (xs ++ ys).mapM id = some zs ↔
      ∃ front back, xs.mapM id = some front ∧ ys.mapM id = some back ∧ zs = front ++ back := by
  rw [List.mapM_append]
  simp only [Option.bind_eq_bind, Option.bind_eq_some_iff, Option.pure_def, Option.some.injEq]
  constructor
  · rintro ⟨front, hfront, back, hback, rfl⟩
    exact ⟨front, back, hfront, hback, rfl⟩
  · rintro ⟨front, back, hfront, hback, rfl⟩
    exact ⟨front, hfront, back, hback, rfl⟩

theorem TableColumn.read_append (column : TableColumn F) (rows others : List Nat)
    (out : FeatureColumnF64 F) : column.read (rows ++ others) = some out ↔
      ∃ front back, column.read rows = some front ∧ column.read others = some back ∧
        out = front.extend back := by
  unfold TableColumn.read
  simp only [Option.map_eq_some_iff, Selection.pick_append, mapM_id_append]
  constructor
  · rintro ⟨_, ⟨front, back, hfront, hback, rfl⟩, rfl⟩
    refine ⟨_, _, ⟨front, hfront, rfl⟩, ⟨back, hback, rfl⟩, ?_⟩
    unfold FeatureColumnF64.extend
    rw [List.map_append, List.map_append]
  · rintro ⟨_, _, ⟨front, hfront, rfl⟩, ⟨back, hback, rfl⟩, rfl⟩
    refine ⟨_, ⟨front, back, hfront, hback, rfl⟩, ?_⟩
    unfold FeatureColumnF64.extend
    rw [List.map_append, List.map_append]

theorem mapM_read_append (columns : List (TableColumn F)) (rows others : List Nat)
    (out : List (FeatureColumnF64 F)) :
    columns.mapM (TableColumn.read (rows ++ others)) = some out ↔
      ∃ front back, columns.mapM (TableColumn.read rows) = some front ∧
        columns.mapM (TableColumn.read others) = some back ∧
        out = List.zipWith FeatureColumnF64.extend front back := by
  induction columns generalizing out with
  | nil => simp [eq_comm]
  | cons column columns ih =>
    simp only [List.mapM_cons, Option.bind_eq_bind, Option.bind_eq_some_iff, Option.pure_def,
      Option.some.injEq, TableColumn.read_append, ih]
    constructor
    · rintro ⟨_, ⟨front, back, hfront, hback, rfl⟩, _, ⟨fronts, backs, hfronts, hbacks, rfl⟩, rfl⟩
      exact ⟨front :: fronts, back :: backs, ⟨front, hfront, fronts, hfronts, rfl⟩,
        ⟨back, hback, backs, hbacks, rfl⟩, rfl⟩
    · rintro ⟨_, _, ⟨front, hfront, fronts, hfronts, rfl⟩, ⟨back, hback, backs, hbacks, rfl⟩, rfl⟩
      exact ⟨_, ⟨front, back, hfront, hback, rfl⟩, _, ⟨fronts, backs, hfronts, hbacks, rfl⟩, rfl⟩

theorem FeatureTable.read_append (table : FeatureTable F) (columns rows others : List Nat)
    (out : VortexFeatureBatch F) : table.read columns (rows ++ others) = some out ↔
      ∃ front back, table.read columns rows = some front ∧ table.read columns others = some back ∧
        out = front.extend back := by
  unfold FeatureTable.read
  simp only [Option.map_eq_some_iff, Selection.pick_append, mapM_read_append]
  constructor
  · rintro ⟨_, ⟨front, back, hfront, hback, rfl⟩, rfl⟩
    exact ⟨_, _, ⟨front, hfront, rfl⟩, ⟨back, hback, rfl⟩, rfl⟩
  · rintro ⟨_, _, ⟨front, hfront, rfl⟩, ⟨back, hback, rfl⟩, rfl⟩
    exact ⟨_, ⟨front, back, hfront, hback, rfl⟩, rfl⟩

theorem FeatureTable.read_nil (table : FeatureTable F) (columns : List Nat) :
    table.read columns [] =
      some ⟨[], [], (pick columns table.columns).map fun column => ⟨column.name, [], []⟩⟩ := by
  unfold FeatureTable.read
  have hread : ∀ column ∈ pick columns table.columns,
      column.read [] = some ⟨column.name, [], []⟩ := fun _ _ => rfl
  rw [mapM_some_map hread]
  rfl

/-- The runs of a reader put together what it would read at once. -/
theorem FeatureTable.read_foldl (table : FeatureTable F) (columns : List Nat)
    (runs : List RowRange) {rows : List Nat} {first out : VortexFeatureBatch F}
    (hfirst : table.read columns rows = some first) :
    table.read columns (rows ++ runs.flatMap RowRange.rows) = some out ↔
      ∃ batches, runs.mapM (fun run => table.read columns run.rows) = some batches ∧
        out = batches.foldl VortexFeatureBatch.extend first := by
  induction runs generalizing rows first with
  | nil =>
    rw [List.flatMap_nil, List.append_nil, hfirst]
    simp [eq_comm]
  | cons run runs ih =>
    rw [List.flatMap_cons, ← List.append_assoc, List.mapM_cons]
    simp only [Option.bind_eq_bind, Option.bind_eq_some_iff, Option.pure_def, Option.some.injEq]
    cases hrun : table.read columns run.rows with
    | none =>
      have hnone : ∀ others b, table.read columns ((rows ++ run.rows) ++ others) ≠ some b := by
        intro others b hb
        obtain ⟨_, _, hfront, -⟩ := (table.read_append columns _ others b).mp hb
        obtain ⟨_, _, -, hback, -⟩ := (table.read_append columns rows run.rows _).mp hfront
        rw [hrun] at hback
        cases hback
      constructor
      · intro h
        exact absurd h (hnone _ out)
      · rintro ⟨_, ⟨_, habsurd, -⟩, -⟩
        cases habsurd
    | some batch =>
      have hnext : table.read columns (rows ++ run.rows) = some (first.extend batch) :=
        (table.read_append columns rows run.rows _).mpr ⟨first, batch, hfirst, hrun, rfl⟩
      rw [ih hnext]
      constructor
      · rintro ⟨batches, hbatches, rfl⟩
        exact ⟨_, ⟨batch, rfl, batches, hbatches, rfl⟩, rfl⟩
      · rintro ⟨_, ⟨_, hbatch, batches, hbatches, rfl⟩, rfl⟩
        obtain rfl := Option.some.inj hbatch
        exact ⟨batches, hbatches, rfl⟩

end Append

end Neoethos
