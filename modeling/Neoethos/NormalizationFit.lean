import Neoethos.FeatureFitted

namespace Neoethos

open Fallible (refuse require bind_ok_iff check_ok_iff mapError_ok_iff refuse_ok_iff require_ok_iff
  mapM_ok_iff)

variable {F : Type} [FloatOps F] {nan : F}

section Training

omit [FloatOps F] in
theorem RowRange.length_of_le {α : Type*} (rows : RowRange) (xs : List α) :
    (rows.of xs).length ≤ rows.length := by
  unfold RowRange.of
  rw [List.length_take]
  exact min_le_left _ _

theorem mem_of_mem_range {α : Type*} {rows : RowRange} {xs : List α} {x : α} (h : x ∈ rows.of xs) :
    x ∈ xs := List.mem_of_mem_drop (List.mem_of_mem_take h)

theorem trainingValues_ok {name : String} {row : Nat} {cells : List (FeatureCellF64 F)}
    {values : List F} (h : trainingValues name row cells = .ok values) :
    values = (cells.filter (·.validity.isValid)).map (·.value) ∧
      ∀ value ∈ values, FloatOps.isFinite value = true := by
  induction cells generalizing row values with
  | nil =>
    obtain rfl := Except.ok.inj h
    exact ⟨rfl, fun _ hvalue => absurd hvalue List.not_mem_nil⟩
  | cons cell cells ih =>
    unfold trainingValues at h
    split at h
    next hvalid =>
      obtain ⟨hfinite, h⟩ := check_ok_iff.mp h
      obtain ⟨rest, hrest, h⟩ := bind_ok_iff.mp h
      obtain rfl := Except.ok.inj h
      obtain ⟨hvalues, hall⟩ := ih hrest
      rw [refuse_ok_iff, Bool.not_eq_false] at hfinite
      rw [List.filter_cons, if_pos hvalid, List.map_cons, ← hvalues]
      exact ⟨rfl, List.forall_mem_cons.mpr ⟨hfinite, hall⟩⟩
    next hinvalid =>
      rw [List.filter_cons, if_neg hinvalid]
      exact ih h

def isTrainingCell (trainingRows : RowRange) (entry : FeatureCellF64 F × Nat) : Bool :=
  entry.1.validity.isValid &&
    decide (trainingRows.start ≤ entry.2 ∧ entry.2 < trainingRows.stop)

theorem countGateCells_ok {name : String} {domain : SmcGateDomain} {trainingRows : RowRange}
    {row count : Nat} {cells : List (FeatureCellF64 F)}
    (h : countGateCells name domain trainingRows row cells = .ok count) :
    count = (cells.zipIdx row).countP (isTrainingCell trainingRows) ∧
      ∀ cell ∈ cells, cell.validity.isValid = true →
        (FloatOps.isFinite cell.value && domain.contains cell.value) = true := by
  induction cells generalizing row count with
  | nil =>
    obtain rfl := Except.ok.inj h
    exact ⟨rfl, fun _ hcell => absurd hcell List.not_mem_nil⟩
  | cons cell cells ih =>
    unfold countGateCells at h
    rw [List.zipIdx_cons]
    split at h
    next hvalid =>
      obtain ⟨hstate, h⟩ := check_ok_iff.mp h
      obtain ⟨rest, hrest, h⟩ := bind_ok_iff.mp h
      obtain ⟨hcount, hall⟩ := ih hrest
      rw [refuse_ok_iff, Bool.not_eq_false] at hstate
      refine ⟨?_, List.forall_mem_cons.mpr ⟨fun _ => hstate, hall⟩⟩
      split at h
      next hrow =>
        obtain rfl := Except.ok.inj h
        rw [List.countP_cons_of_pos (by simpa [isTrainingCell, hvalid] using hrow), hcount]
      next hrow =>
        obtain rfl := Except.ok.inj h
        rw [List.countP_cons_of_neg (by simpa [isTrainingCell, hvalid] using hrow), hcount]
    next hinvalid =>
      obtain ⟨hcount, hall⟩ := ih h
      rw [List.countP_cons_of_neg (by simp [isTrainingCell, hinvalid])]
      exact ⟨hcount, List.forall_mem_cons.mpr ⟨fun hvalid => absurd hvalid hinvalid, hall⟩⟩

theorem range_split {α : Type*} (rows : RowRange) (xs : List α)
    (hordered : rows.start ≤ rows.stop) :
    xs = xs.take rows.start ++ rows.of xs ++ xs.drop rows.stop := by
  have hdrop : xs.drop rows.start = rows.of xs ++ xs.drop rows.stop := by
    have hsplit := (List.take_append_drop rows.length (xs.drop rows.start)).symm
    rw [List.drop_drop] at hsplit
    have hstop : rows.start + rows.length = rows.stop := by
      unfold RowRange.length
      omega
    rw [hstop] at hsplit
    exact hsplit
  rw [List.append_assoc, ← hdrop, List.take_append_drop]

omit [FloatOps F] in
theorem countP_isTrainingCell_eq_zero {trainingRows : RowRange} {start : Nat}
    {cells : List (FeatureCellF64 F)}
    (h : start + cells.length ≤ trainingRows.start ∨ trainingRows.stop ≤ start) :
    (cells.zipIdx start).countP (isTrainingCell trainingRows) = 0 := by
  rw [List.countP_eq_zero]
  rintro ⟨cell, row⟩ hentry hcell
  obtain ⟨hlow, hhigh, -⟩ := List.mem_zipIdx hentry
  simp only [isTrainingCell, Bool.and_eq_true, decide_eq_true_eq] at hcell
  omega

omit [FloatOps F] in
theorem countP_isTrainingCell_inside {trainingRows : RowRange} {start : Nat}
    {cells : List (FeatureCellF64 F)} (hstart : trainingRows.start ≤ start)
    (hstop : start + cells.length ≤ trainingRows.stop) :
    (cells.zipIdx start).countP (isTrainingCell trainingRows) =
      cells.countP (·.validity.isValid) := by
  have hfst : cells.countP (·.validity.isValid) =
      (cells.zipIdx start).countP fun entry => entry.1.validity.isValid := by
    conv_lhs => rw [← List.zipIdx_map_fst start cells]
    rw [List.countP_map]
    rfl
  rw [hfst]
  apply List.countP_congr
  rintro ⟨cell, row⟩ hentry
  obtain ⟨hlow, hhigh, -⟩ := List.mem_zipIdx hentry
  have hrow : trainingRows.start ≤ row ∧ row < trainingRows.stop := by omega
  simp [isTrainingCell, hrow]

omit [FloatOps F] in
/-- The count of a gate goes over the training rows alone. -/
theorem countP_training {trainingRows : RowRange} {cells : List (FeatureCellF64 F)}
    (hordered : trainingRows.start ≤ trainingRows.stop)
    (hstop : trainingRows.stop ≤ cells.length) :
    (cells.zipIdx 0).countP (isTrainingCell trainingRows) =
      (trainingRows.of cells).countP (·.validity.isValid) := by
  have hfront : (cells.take trainingRows.start).length = trainingRows.start := by
    rw [List.length_take]
    omega
  have hinside : (trainingRows.of cells).length = trainingRows.length := by
    unfold RowRange.of
    rw [List.length_take, List.length_drop]
    unfold RowRange.length
    omega
  unfold RowRange.length at hinside
  conv_lhs => rw [range_split trainingRows cells hordered]
  rw [List.zipIdx_append, List.zipIdx_append, List.countP_append, List.countP_append,
    countP_isTrainingCell_eq_zero (by omega), countP_isTrainingCell_inside (by omega) (by omega),
    countP_isTrainingCell_eq_zero (by rw [List.length_append]; omega), Nat.zero_add,
    Nat.add_zero]

end Training

section Fitted

variable [FloatOps.Valued F]

def searchFit (name : String) (trainingRows : RowRange) (cells : List (FeatureCellF64 F)) :
    RobustNormalizationFitF64 F :=
  match smcGateDomain name with
  | none => robustFit trainingRows ((cells.filter (·.validity.isValid)).map (·.value))
  | some _ => {
      trainingRows
      median := FloatOps.lit 0
      scale := FloatOps.lit 1
      validTrainingCells := cells.countP (·.validity.isValid)
      degenerate := false }

omit [FloatOps.Valued F] in
def gateCell (nan : F) (cell : FeatureCellF64 F) : FeatureCellF64 F :=
  if cell.validity.isValid then ⟨clip cell.value, cell.validity⟩ else ⟨nan, cell.validity⟩

/-- What is left of a cell: under no gate an invalid cell of a constant column stays as it is. -/
def leftCell (nan : F) (name : String) (fit : RobustNormalizationFitF64 F)
    (cell : FeatureCellF64 F) : FeatureCellF64 F :=
  if (smcGateDomain name).isSome then gateCell nan cell
  else if fit.degenerate ∧ !cell.validity.isValid then cell
  else transformFittedCell nan fit cell

/-- What a fit that succeeds says of its column. -/
structure FitOf (nan : F) (column : FeatureColumnF64 F) (trainingRows : RowRange)
    (fit : RobustNormalizationFitF64 F) (left : FeatureColumnF64 F) : Prop where
  ordered : trainingRows.start < trainingRows.stop
  stop : trainingRows.stop ≤ column.values.length
  supported : ∃ cell ∈ trainingRows.of column.cells, cell.validity.isValid = true
  fitted : fit = searchFit column.name trainingRows (trainingRows.of column.cells)
  states : ∀ domain, smcGateDomain column.name = some domain → ∀ cell ∈ column.cells,
    cell.validity.isValid = true →
      (FloatOps.isFinite cell.value && domain.contains cell.value) = true
  finite : ∀ cell ∈ trainingRows.of column.cells, cell.validity.isValid = true →
    FloatOps.isFinite cell.value = true
  leaves : left = column.withCells (column.cells.map (leftCell nan column.name fit))

theorem normalizeFeatureColumn_ok {column left : FeatureColumnF64 F} {trainingRows : RowRange}
    {fit : RobustNormalizationFitF64 F} (hname : smcGateDomain column.name = none)
    (h : normalizeFeatureColumnF64 nan column trainingRows = .ok (fit, left)) :
    FitOf nan column trainingRows fit left := by
  unfold normalizeFeatureColumnF64 at h
  obtain ⟨hrange, h⟩ := check_ok_iff.mp h
  obtain ⟨values, hvalues, h⟩ := bind_ok_iff.mp h
  obtain ⟨hsome, h⟩ := check_ok_iff.mp h
  rw [refuse_ok_iff, not_or, not_le, not_lt] at hrange
  rw [refuse_ok_iff] at hsome
  obtain ⟨hfit, hleft⟩ := Prod.mk.inj (Except.ok.inj h)
  obtain ⟨hvalues, hfinite⟩ := trainingValues_ok hvalues
  refine ⟨hrange.1, hrange.2, ?_, ?_, ?_, ?_, ?_⟩
  · by_contra hnone
    apply hsome
    rw [hvalues, List.map_eq_nil_iff, List.filter_eq_nil_iff]
    intro cell hcell hvalid
    exact hnone ⟨cell, hcell, hvalid⟩
  · unfold searchFit
    rw [hname, ← hvalues]
    exact hfit.symm
  · intro domain hdomain
    rw [hname] at hdomain
    cases hdomain
  · intro cell hcell hvalid
    apply hfinite
    rw [hvalues]
    exact List.mem_map_of_mem (List.mem_filter.mpr ⟨hcell, hvalid⟩)
  · rw [← hleft, hfit]
    congr 1
    unfold leftCell
    rw [hname]
    split
    next hdegenerate =>
      apply List.map_congr_left
      intro cell _
      unfold transformFittedCell
      cases hvalid : cell.validity.isValid with
      | true => simp [hdegenerate]
      | false => simp [hdegenerate]
    next hscale =>
      apply List.map_congr_left
      intro cell _
      unfold transformFittedCell
      simp [hscale]

theorem normalizeSearch_ok {column left : FeatureColumnF64 F} {trainingRows : RowRange}
    {fit : RobustNormalizationFitF64 F}
    (h : normalizeSearchFeatureColumnF64 nan column trainingRows = .ok (fit, left))
    (hlength : column.values.length = column.validity.length) :
    FitOf nan column trainingRows fit left := by
  unfold normalizeSearchFeatureColumnF64 at h
  split at h
  next hname => exact normalizeFeatureColumn_ok hname h
  next domain hdomain =>
    obtain ⟨hrange, h⟩ := check_ok_iff.mp h
    obtain ⟨count, hcount, h⟩ := bind_ok_iff.mp h
    obtain ⟨hsome, h⟩ := check_ok_iff.mp h
    rw [refuse_ok_iff, not_or, not_le, not_lt] at hrange
    rw [refuse_ok_iff] at hsome
    obtain ⟨hfit, hleft⟩ := Prod.mk.inj (Except.ok.inj h)
    obtain ⟨hcount, hstates⟩ := countGateCells_ok hcount
    have hcells : column.cells.length = column.values.length := by
      unfold FeatureColumnF64.cells
      rw [List.length_zipWith, ← hlength, Nat.min_self]
    have htraining := countP_training hrange.1.le (by rw [hcells]; exact hrange.2)
    rw [htraining] at hcount
    refine ⟨hrange.1, hrange.2, ?_, ?_, ?_, ?_, ?_⟩
    · rw [hcount] at hsome
      obtain ⟨cell, hcell, hvalid⟩ := List.countP_pos_iff.mp (Nat.pos_of_ne_zero hsome)
      exact ⟨cell, hcell, hvalid⟩
    · unfold searchFit
      rw [hdomain, ← hcount]
      exact hfit.symm
    · intro other hother cell hcell hvalid
      rw [hdomain] at hother
      obtain rfl := Option.some.inj hother
      exact hstates cell hcell hvalid
    · intro cell hcell hvalid
      have hstate := hstates cell (mem_of_mem_range hcell) hvalid
      exact (Bool.and_eq_true_iff.mp hstate).1
    · rw [← hleft]
      unfold leftCell
      rw [hdomain]
      rfl

namespace FitOf

variable {column other left left' : FeatureColumnF64 F} {trainingRows : RowRange}
  {fit fit' : RobustNormalizationFitF64 F}

theorem unique (h : FitOf nan column trainingRows fit left)
    (h' : FitOf nan other trainingRows fit' left') (hname : other.name = column.name)
    (htraining : trainingRows.of other.cells = trainingRows.of column.cells) : fit' = fit := by
  rw [h.fitted, h'.fitted, hname, htraining]

theorem gate (h : FitOf nan column trainingRows fit left)
    (hgate : (smcGateDomain column.name).isSome = true) :
    fit.median = FloatOps.lit 0 ∧ fit.scale = FloatOps.lit 1 ∧ fit.degenerate = false := by
  obtain ⟨domain, hdomain⟩ := Option.isSome_iff_exists.mp hgate
  have hfit := h.fitted
  unfold searchFit at hfit
  rw [hdomain] at hfit
  rw [hfit]
  exact ⟨rfl, rfl, rfl⟩

/-- Under the identity a gate is left as the replay of its fit leaves it. -/
theorem leftCell_eq (h : FitOf nan column trainingRows fit left)
    (hclean : CleanColumn nan column)
    (hidentity : ∀ value : F, FloatOps.isFinite value = true →
      (value - FloatOps.lit 0) / FloatOps.lit 1 = value)
    {cell : FeatureCellF64 F} (hcell : cell ∈ column.cells) :
    leftCell nan column.name fit cell = transformFittedCell nan fit cell := by
  obtain ⟨hfinite, hnan⟩ := hclean.cells cell hcell
  unfold leftCell
  split
  next hgate =>
    obtain ⟨hmedian, hscale, hdegenerate⟩ := h.gate hgate
    unfold gateCell transformFittedCell
    cases hvalid : cell.validity.isValid with
    | true =>
      have hvalue := hfinite hvalid
      simp [hdegenerate, hmedian, hscale, hidentity _ hvalue, hvalue]
    | false => simp
  next =>
    split
    next hkept =>
      have hinvalid : cell.validity.isValid = false := by simpa using hkept.2
      unfold transformFittedCell
      rw [hinvalid, ← hnan hinvalid]
      rfl
    next => rfl

theorem validateRawSearchCell_ok (h : FitOf nan column trainingRows fit left)
    (hclean : CleanColumn nan column) {cell : FeatureCellF64 F} (hcell : cell ∈ column.cells) :
    validateRawSearchCell column.name cell = .ok () := by
  unfold validateRawSearchCell
  cases hvalid : cell.validity.isValid with
  | false => rfl
  | true =>
    have hfinite := (hclean.cells cell hcell).1 hvalid
    have hdomain : (smcGateDomain column.name).all
        (fun domain => domain.contains cell.value) = true := by
      cases hname : smcGateDomain column.name with
      | none => rfl
      | some domain =>
        have hstate := h.states domain hname cell hcell hvalid
        exact (Bool.and_eq_true_iff.mp hstate).2
    rw [if_neg (by simp), check_ok_iff, refuse_ok_iff, refuse_ok_iff, hfinite, hdomain]
    exact ⟨Bool.noConfusion, Bool.noConfusion⟩

/-- The frozen fit makes of the raw column what fitting it left behind. -/
theorem replays (h : FitOf nan column trainingRows fit left) (hclean : CleanColumn nan column)
    (hidentity : ∀ value : F, FloatOps.isFinite value = true →
      (value - FloatOps.lit 0) / FloatOps.lit 1 = value)
    (hvalid : validateSearchFit column.name fit = .ok ()) :
    applySearchNormalizationFit nan column fit = .ok left := by
  rw [applySearchNormalizationFit_ok_iff hvalid]
  refine ⟨hclean.length, fun cell hcell => h.validateRawSearchCell_ok hclean hcell, ?_⟩
  rw [h.leaves]
  congr 1
  exact List.map_congr_left fun cell hcell => h.leftCell_eq hclean hidentity hcell

theorem cells_left (h : FitOf nan column trainingRows fit left) (hclean : CleanColumn nan column)
    (hidentity : ∀ value : F, FloatOps.isFinite value = true →
      (value - FloatOps.lit 0) / FloatOps.lit 1 = value) :
    left.cells = column.cells.map (transformFittedCell nan fit) := by
  rw [h.leaves, FeatureColumnF64.cells_withCells]
  exact List.map_congr_left fun cell hcell => h.leftCell_eq hclean hidentity hcell

/-- And so does every saved state that holds the fit under the name, cell by cell. -/
theorem transforms (h : FitOf nan column trainingRows fit left) (hclean : CleanColumn nan column)
    (hidentity : ∀ value : F, FloatOps.isFinite value = true →
      (value - FloatOps.lit 0) / FloatOps.lit 1 = value)
    {state : SearchNormalizationFittedState F} (hstate : state.validate = .ok ())
    (hfit : state.fit? column.name = some fit) {row : Nat} {cell : FeatureCellF64 F}
    (hcell : column.cells[row]? = some cell) :
    ∃ out, left.cells[row]? = some out ∧
      state.transformValue nan column.name cell = .ok out := by
  refine ⟨transformFittedCell nan fit cell, ?_, ?_⟩
  · rw [h.cells_left hclean hidentity, List.getElem?_map, hcell]
    rfl
  · unfold SearchNormalizationFittedState.transformValue
    rw [hstate, hfit, h.validateRawSearchCell_ok hclean (List.mem_of_getElem? hcell)]
    rfl

/-- And so does the loop over columns, for every column whose fit it holds. -/
theorem applied (h : FitOf nan column trainingRows fit left) (hclean : CleanColumn nan column)
    (hidentity : ∀ value : F, FloatOps.isFinite value = true →
      (value - FloatOps.lit 0) / FloatOps.lit 1 = value)
    {state : SearchNormalizationFittedState F} (hfit : state.fit? column.name = some fit)
    {columns out : List (FeatureColumnF64 F)} (happly : state.applyColumns nan columns = .ok out)
    {index : Nat} (hcolumn : columns[index]? = some column) : out[index]? = some left := by
  obtain ⟨-, happly⟩ := check_ok_iff.mp happly
  obtain ⟨-, happly⟩ := check_ok_iff.mp happly
  have hcolumns := mapM_ok_iff.mp happly
  obtain ⟨hlt, rfl⟩ := List.getElem?_eq_some_iff.mp hcolumn
  have hout : index < out.length := hcolumns.length_eq ▸ hlt
  have hreplaced := hcolumns.get hlt hout
  rw [List.get_eq_getElem, hfit] at hreplaced
  rw [List.getElem?_eq_getElem hout]
  refine congrArg some ((Except.ok.inj hreplaced).symm.trans ?_)
  rw [applyFittedColumnValues, h.leaves]
  congr 1
  exact List.map_congr_left fun cell hcell => (h.leftCell_eq hclean hidentity hcell).symm

end FitOf

end Fitted

end Neoethos
