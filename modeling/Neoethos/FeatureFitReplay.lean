import Neoethos.FeatureDense
import Neoethos.FeatureDenseCells
import Neoethos.NormalizationExact
import Neoethos.NormalizationFit

/-! `FeatureFrame::fit_normalization`: the columns of a raw frame are fitted a few at a time, as
many as the workers and the memory that is left allow. -/

namespace Neoethos

open Fallible (refuse require bind_ok_iff check_ok_iff mapError_ok_iff refuse_ok_iff require_ok_iff
  mapM_ok_iff Never never_ok never_refuse never_require never_mapError never_mapM)
open Selection (pick Within)

inductive FitNormalizationError (F : Type)
  | frame (error : FeatureFrameError F)
  | normalization (error : NormalizationError F)
  | notRaw
  | rangeOutside
  | cancelled
  | scratch
  | panicked
  | unfinished
  deriving DecidableEq

def HIGHER_TIMEFRAME_SYSTEM_RESERVE_BYTES : Nat := 2 * 1024 * 1024 * 1024

/-- `higher_timeframe_parallel_budget_bytes`, with nothing kept for a cube in memory. -/
def higherTimeframeParallelBudgetBytes (availableBytes : Nat) : Nat :=
  min ((availableBytes - HIGHER_TIMEFRAME_SYSTEM_RESERVE_BYTES) * 2) U64_MAX / 3

/-- Where the control of a build is asked whether to go on. -/
inductive FitCheckpoint
  | wave (start : Nat)
  | before (column : Nat)
  | after (column : Nat)

/-- The workers, the headroom at each reading, and where the control stops the build. -/
structure FitHost where
  workers : Nat
  headroom : Nat → Nat
  stops : FitCheckpoint → Bool

namespace FeatureFrame

variable {F A : Type} [FloatOps F] [FloatOps.Valued F] (nan : F)

def fitWorkers (host : FitHost) (trainingRows : RowRange) (left reading : Nat) : Nat :=
  let perWorker := min (trainingRows.length * 64) U64_MAX
  let budget := higherTimeframeParallelBudgetBytes (host.headroom reading)
  min (min host.workers left) (budget / max perWorker 1)

/-- The fit of one column, unless it has no support in the training rows. -/
def fitColumn (frame : FeatureFrame F A) (trainingRows : RowRange) (dropUnsupported : Bool)
    (host : FitHost) (index : Nat) :
    Except (FitNormalizationError F) (Option (String × RobustNormalizationFitF64 F)) := do
  refuse (host.stops (.before index) = true) .cancelled
  let projected ← (frame.projectColumns nan [index] trainingRows).mapError .frame
  let column ← require projected.columns[0]? .panicked
  if (!column.validity.any (·.isValid)) && dropUnsupported then return none
  else do
    let (fit, _) ←
      (normalizeSearchFeatureColumnF64 nan column ⟨0, column.values.length⟩).mapError
        .normalization
    refuse (host.stops (.after index) = true) .cancelled
    let name ← require frame.names[index]? .panicked
    return some (name, { fit with trainingRows })

def fitBatches (frame : FeatureFrame F A) (trainingRows : RowRange) (dropUnsupported : Bool)
    (host : FitHost) : Nat → Nat → Nat → List (String × RobustNormalizationFitF64 F) →
    Except (FitNormalizationError F) (List (String × RobustNormalizationFitF64 F))
  | 0, _, start, fitted => do
    refuse (start < frame.nFeatures) .unfinished
    return fitted
  | fuel + 1, reading, start, fitted =>
    if start < frame.nFeatures then do
      refuse (host.stops (.wave start) = true) .cancelled
      let workers := fitWorkers host trainingRows (frame.nFeatures - start) reading
      refuse (workers = 0) .scratch
      let batch ← (List.range' start workers).mapM
        (frame.fitColumn nan trainingRows dropUnsupported host)
      frame.fitBatches trainingRows dropUnsupported host fuel (reading + 1) (start + workers)
        (fitted ++ batch.filterMap id)
    else return fitted

def fitNormalization (frame : FeatureFrame F A) (trainingRows : RowRange)
    (dropUnsupported : Bool) (host : FitHost) :
    Except (FitNormalizationError F) (SearchNormalizationFittedState F) := do
  refuse frame.head.normalizationFittedState.isSome .notRaw
  refuse (¬(trainingRows.start < trainingRows.stop ∧ trainingRows.stop ≤ frame.nSamples))
    .rangeOutside
  let fitted ← frame.fitBatches nan trainingRows dropUnsupported host frame.nFeatures 0 0 []
  (SearchNormalizationFittedState.new (fitted.map (·.1)) (fitted.map (·.2))).mapError
    .normalization

end FeatureFrame

variable {F A : Type} [FloatOps F] {authority : FeatureAuthority F A} {nan : F}

namespace FeatureFrame

variable {frame next : FeatureFrame F A} {table raw : FeatureTable F}

section Names

def NamedByPlan (authority : FeatureAuthority F A) (frame : FeatureFrame F A) : Prop :=
  frame.names = authority.finalOutputs frame.head.authority

omit [FloatOps F] in
theorem buildWithAuthority_named (h : buildWithAuthority authority frame = .ok next) :
    NamedByPlan authority next := by
  obtain ⟨rfl, -⟩ := buildWithAuthority_ok h
  unfold buildWithAuthority at h
  rw [check_ok_iff, check_ok_iff, check_ok_iff, refuse_ok_iff, refuse_ok_iff, not_not] at h
  exact h.2.2.1

theorem step_named {op : FrameOp F} (h : op.run authority nan frame = .ok next) :
    NamedByPlan authority next := by
  cases op with
  | sharedView => exact buildWithAuthority_named h
  | sharedRowWindow rows =>
    obtain ⟨-, h⟩ := check_ok_iff.mp h
    obtain ⟨hnames, h⟩ := check_ok_iff.mp h
    obtain ⟨-, h⟩ := check_ok_iff.mp h
    obtain ⟨rowIds, -, h⟩ := bind_ok_iff.mp h
    obtain ⟨-, h⟩ := check_ok_iff.mp h
    obtain rfl := Except.ok.inj h
    rw [refuse_ok_iff, not_not] at hnames
    exact hnames
  | rowWindow start stop =>
    obtain ⟨rowIds, -, h⟩ := bind_ok_iff.mp h
    exact buildWithAuthority_named h
  | rowSlice start stop =>
    obtain ⟨batch, -, h⟩ := bind_ok_iff.mp h
    exact buildWithAuthority_named h
  | sharedSelectRows indices =>
    obtain ⟨-, h⟩ := check_ok_iff.mp h
    obtain ⟨rowIds, -, h⟩ := bind_ok_iff.mp h
    obtain ⟨timestamps, -, h⟩ := bind_ok_iff.mp h
    exact buildWithAuthority_named h
  | selectRows indices =>
    obtain ⟨-, h⟩ := check_ok_iff.mp h
    obtain ⟨-, h⟩ := check_ok_iff.mp h
    obtain ⟨-, h⟩ := check_ok_iff.mp h
    obtain ⟨sources, -, h⟩ := bind_ok_iff.mp h
    obtain ⟨columns, -, h⟩ := bind_ok_iff.mp h
    exact buildWithAuthority_named h
  | selectColumns columns =>
    obtain ⟨-, h⟩ := check_ok_iff.mp h
    split at h
    next =>
      obtain ⟨hnames, h⟩ := check_ok_iff.mp h
      obtain ⟨-, h⟩ := check_ok_iff.mp h
      obtain ⟨-, h⟩ := check_ok_iff.mp h
      obtain rfl := Except.ok.inj h
      rw [refuse_ok_iff, not_not] at hnames
      exact hnames
    next =>
      obtain ⟨names, -, h⟩ := bind_ok_iff.mp h
      obtain ⟨plan, -, h⟩ := bind_ok_iff.mp h
      exact buildWithAuthority_named h
  | boundWindow columns rows =>
    obtain ⟨bound, -, h⟩ := bind_ok_iff.mp h
    obtain ⟨-, h⟩ := check_ok_iff.mp h
    obtain ⟨-, h⟩ := check_ok_iff.mp h
    obtain ⟨rowIds, -, h⟩ := bind_ok_iff.mp h
    obtain ⟨-, h⟩ := check_ok_iff.mp h
    obtain rfl := Except.ok.inj h
    rfl
  | fitted state =>
    obtain ⟨-, h⟩ := check_ok_iff.mp h
    obtain ⟨-, h⟩ := check_ok_iff.mp h
    obtain ⟨columns, -, h⟩ := bind_ok_iff.mp h
    obtain ⟨plan, -, h⟩ := bind_ok_iff.mp h
    exact buildWithAuthority_named h

theorem runOps_named (hframe : NamedByPlan authority frame) {ops : List (FrameOp F)}
    (h : runOps authority nan ops frame = .ok next) : NamedByPlan authority next := by
  unfold runOps at h
  induction ops generalizing frame with
  | nil =>
    obtain rfl := Except.ok.inj h
    exact hframe
  | cons op ops ih =>
    obtain ⟨middle, hop, h⟩ := Fallible.foldlM_cons_ok_iff.mp h
    exact ih (step_named hop) h

end Names

section Batches

variable [FloatOps.Valued F] {trainingRows : RowRange} {dropUnsupported : Bool} {host : FitHost}

/-- However the columns are put into batches, each of them is fitted once and in order. -/
theorem fitBatches_ok (fuel : Nat) {reading start : Nat}
    {fitted out : List (String × RobustNormalizationFitF64 F)} (hstart : start ≤ frame.nFeatures)
    (h : frame.fitBatches nan trainingRows dropUnsupported host fuel reading start fitted =
      .ok out) :
    ∃ results, (List.range' start (frame.nFeatures - start)).mapM
        (frame.fitColumn nan trainingRows dropUnsupported host) = .ok results ∧
      out = fitted ++ results.filterMap id := by
  have hdone : ∀ {start : Nat}, start ≤ frame.nFeatures → ¬start < frame.nFeatures →
      (List.range' start (frame.nFeatures - start)).mapM
        (frame.fitColumn nan trainingRows dropUnsupported host) = .ok [] := by
    intro start hle hge
    have hnone : frame.nFeatures - start = 0 := by omega
    rw [hnone]
    rfl
  induction fuel generalizing reading start fitted with
  | zero =>
    obtain ⟨hend, h⟩ := check_ok_iff.mp h
    obtain rfl := Except.ok.inj h
    exact ⟨[], hdone hstart (refuse_ok_iff.mp hend), by simp⟩
  | succ fuel ih =>
    unfold fitBatches at h
    split at h
    next hmore =>
      obtain ⟨-, h⟩ := check_ok_iff.mp h
      obtain ⟨hworkers, h⟩ := check_ok_iff.mp h
      obtain ⟨batch, hbatch, h⟩ := bind_ok_iff.mp h
      have hfits : fitWorkers host trainingRows (frame.nFeatures - start) reading ≤
          frame.nFeatures - start := by
        unfold fitWorkers
        exact (min_le_left _ _).trans (min_le_right _ _)
      generalize fitWorkers host trainingRows (frame.nFeatures - start) reading = workers
        at hworkers hbatch hfits h
      obtain ⟨results, hresults, rfl⟩ := ih (by omega) h
      have hsplit : List.range' start (frame.nFeatures - start) =
          List.range' start workers ++
            List.range' (start + workers) (frame.nFeatures - (start + workers)) := by
        rw [List.range'_append_1]
        congr 1
        omega
      refine ⟨batch ++ results, ?_, ?_⟩
      · rw [hsplit]
        exact Fallible.mapM_append_ok hbatch hresults
      · rw [List.filterMap_append, List.append_assoc]
    next hless =>
      obtain rfl := Except.ok.inj h
      exact ⟨[], hdone hstart hless, by simp⟩

theorem fitBatches_finishes (fuel : Nat) {reading start : Nat}
    {fitted : List (String × RobustNormalizationFitF64 F)}
    (hfuel : frame.nFeatures - start ≤ fuel) : Never .unfinished
      (frame.fitBatches nan trainingRows dropUnsupported host fuel reading start fitted) := by
  have hcolumn : ∀ index, Never .unfinished
      (frame.fitColumn nan trainingRows dropUnsupported host index) := by
    intro index
    unfold fitColumn
    refine (never_refuse (by simp)).bind fun _ _ => ?_
    refine (never_mapError fun error => by simp).bind fun projected _ => ?_
    refine (never_require (by simp)).bind fun column _ => ?_
    split
    next => exact never_ok _
    next =>
      refine (never_mapError fun error => by simp).bind fun _ _ => ?_
      refine (never_refuse (by simp)).bind fun _ _ => ?_
      exact (never_require (by simp)).bind fun _ _ => never_ok _
  induction fuel generalizing reading start fitted with
  | zero =>
    unfold fitBatches
    have hdone : refuse (start < frame.nFeatures) FitNormalizationError.unfinished =
        (.ok () : Except (FitNormalizationError F) Unit) := refuse_ok_iff.mpr (by omega)
    rw [hdone]
    exact never_ok _
  | succ fuel ih =>
    unfold fitBatches
    split
    next hmore =>
      refine (never_refuse (by simp)).bind fun _ _ => ?_
      refine (never_refuse (by simp)).bind fun _ hworkers => ?_
      rw [refuse_ok_iff] at hworkers
      exact (never_mapM hcolumn).bind fun _ _ => ih (by omega)
    next => exact never_ok _

end Batches

section Training

omit [FloatOps F] in
theorem cells_of_read {column : TableColumn F} {rows : List Nat} {out : FeatureColumnF64 F}
    (h : column.read rows = some out) :
    out.name = column.name ∧ pick rows column.cells = out.cells.map some := by
  have htable := TableColumn.read_toTable h
  unfold FeatureColumnF64.toTable TableColumn.select at htable
  exact ⟨congrArg TableColumn.name htable, (congrArg TableColumn.cells htable).symm⟩

omit [FloatOps F] in
/-- Some rows of a column are those rows of its cells. -/
theorem read_rows_of_whole {column : TableColumn F} {rowCount : Nat}
    {whole part : FeatureColumnF64 F} {range : RowRange} (hrows : column.cells.length = rowCount)
    (hwhole : column.read (List.range' 0 rowCount) = some whole)
    (hpart : column.read range.rows = some part) :
    part.name = whole.name ∧ part.cells = range.of whole.cells := by
  obtain ⟨hname, hcells⟩ := cells_of_read hwhole
  obtain ⟨hname', hcells'⟩ := cells_of_read hpart
  rw [← List.range_eq_range', ← hrows, Selection.pick_range] at hcells
  rw [hcells, Selection.pick_map, RowRange.pick_rows] at hcells'
  have hsome := List.map_injective_iff.mpr (Option.some_injective (FeatureCellF64 F))
  exact ⟨hname'.trans hname.symm, (hsome hcells').symm⟩

variable [FloatOps.Valued F] {trainingRows : RowRange} {dropUnsupported : Bool} {host : FitHost}

omit [FloatOps F] in
theorem of_whole {α : Type*} (xs : List α) : RowRange.of ⟨0, xs.length⟩ xs = xs := by
  unfold RowRange.of RowRange.length
  exact List.take_length

theorem searchFit_relabel (name : String) (rows others : RowRange)
    (cells : List (FeatureCellF64 F)) :
    { searchFit name rows cells with trainingRows := others } = searchFit name others cells := by
  unfold searchFit
  cases smcGateDomain name with
  | none => rfl
  | some domain => rfl

/-- The frame fits a column on its training rows as the whole column would be fitted. -/
theorem fitColumn_eq (hmeans : Means nan frame table raw) {index : Nat}
    {whole : VortexFeatureBatch F} {column left : FeatureColumnF64 F}
    {fit : RobustNormalizationFitF64 F}
    (hwhole : frame.projectColumns nan [index] frame.allRows = .ok whole)
    (hcolumn : whole.columns = [column]) (hfit : FitOf nan column trainingRows fit left)
    {result : Option (String × RobustNormalizationFitF64 F)}
    (h : frame.fitColumn nan trainingRows dropUnsupported host index = .ok result) :
    result = some (column.name, fit) := by
  have hlt : index < table.columns.length := by
    rw [← nFeatures_eq hmeans.names]
    exact (projectable_of_ok hwhole).within index (List.mem_singleton_self index)
  have hread := hmeans.reads _ _ _ hwhole
  rw [allRows_rows, hmeans.samples] at hread
  obtain ⟨source, shown, hsource, hshown, rfl⟩ := read_single hlt hread
  obtain rfl : shown = column := List.singleton_inj.mp hcolumn
  have hmem := List.mem_of_getElem? hsource
  unfold fitColumn at h
  obtain ⟨-, h⟩ := check_ok_iff.mp h
  obtain ⟨projected, hprojected, h⟩ := bind_ok_iff.mp h
  obtain ⟨part, hpart, h⟩ := bind_ok_iff.mp h
  obtain ⟨other, part', hother, hpartRead, rfl⟩ :=
    read_single hlt (hmeans.reads _ _ _ (mapError_ok_iff.mp hprojected))
  obtain rfl := Option.some.inj (require_ok_iff.mp hpart)
  obtain rfl := Option.some.inj (hsource.symm.trans hother)
  obtain ⟨hname, hcells⟩ := read_rows_of_whole (hmeans.rectangular.columns source hmem) hshown
    hpartRead
  have hclean := TableColumn.read_clean hpartRead
    (hmeans.named _ (List.mem_map_of_mem hmem)) (hmeans.clean source hmem)
  have hsupported : part'.validity.any (·.isValid) = true := by
    obtain ⟨cell, hcell, hvalid⟩ := hfit.supported
    rw [← hcells] at hcell
    rw [← (FeatureColumnF64.map_cells hclean.length).2, List.any_map, List.any_eq_true]
    exact ⟨cell, hcell, hvalid⟩
  rw [hsupported] at h
  obtain ⟨fitted, hfitted, h⟩ := bind_ok_iff.mp h
  obtain ⟨-, h⟩ := check_ok_iff.mp h
  obtain ⟨name, hframeName, h⟩ := bind_ok_iff.mp h
  obtain rfl := Except.ok.inj h
  obtain ⟨fit', left'⟩ := fitted
  have hpartFit := (normalizeSearch_ok (mapError_ok_iff.mp hfitted) hclean.length).fitted
  have hlength : part'.values.length = part'.cells.length := by
    unfold FeatureColumnF64.cells
    rw [List.length_zipWith, ← hclean.length, Nat.min_self]
  rw [hlength, of_whole, hname, hcells] at hpartFit
  have hsourceName : name = shown.name := by
    have hnames := require_ok_iff.mp hframeName
    rw [hmeans.names] at hnames
    unfold FeatureTable.names at hnames
    rw [List.getElem?_map, hsource] at hnames
    rw [← Option.some.inj hnames, (cells_of_read hshown).1]
  dsimp only
  rw [hsourceName, hpartFit, searchFit_relabel, ← hfit.fitted]

end Training

section State

theorem validateFits_nodup {trainingRows : RowRange} {seen : List String}
    {entries : List (String × RobustNormalizationFitF64 F)}
    (h : SearchNormalizationFittedState.validateFits trainingRows seen entries = .ok ()) :
    (entries.map (·.1)).Nodup ∧ ∀ name ∈ entries.map (·.1), name ∉ seen := by
  induction entries generalizing seen with
  | nil => exact ⟨List.nodup_nil, fun _ hname => absurd hname List.not_mem_nil⟩
  | cons entry entries ih =>
    unfold SearchNormalizationFittedState.validateFits at h
    rw [check_ok_iff, check_ok_iff, check_ok_iff, refuse_ok_iff, not_or] at h
    obtain ⟨⟨-, hfresh⟩, -, -, hrest⟩ := h
    obtain ⟨hnodup, hseen⟩ := ih hrest
    rw [List.map_cons, List.nodup_cons, List.forall_mem_cons]
    refine ⟨⟨fun hmem => hseen _ hmem List.mem_cons_self, hnodup⟩, hfresh, ?_⟩
    exact fun name hname hmem => hseen name hname (List.mem_cons_of_mem _ hmem)

theorem validate_nodup {state : SearchNormalizationFittedState F} (h : state.validate = .ok ()) :
    state.columnNames.Nodup := by
  have hcount := (SearchNormalizationFittedState.validate_ok h).1
  unfold SearchNormalizationFittedState.validate at h
  obtain ⟨-, h⟩ := check_ok_iff.mp h
  split at h
  next => cases h
  next first rest hfits =>
    obtain ⟨-, h⟩ := check_ok_iff.mp h
    have hnodup := (validateFits_nodup h).1
    rw [List.map_fst_zip hcount.le] at hnodup
    exact hnodup

omit [FloatOps F] in
theorem lookup_of_mem {entries : List (String × RobustNormalizationFitF64 F)} {name : String}
    {fit : RobustNormalizationFitF64 F} (hnodup : (entries.map (·.1)).Nodup)
    (hmem : (name, fit) ∈ entries) : entries.lookup name = some fit := by
  induction entries with
  | nil => cases hmem
  | cons entry entries ih =>
    rw [List.map_cons, List.nodup_cons] at hnodup
    obtain ⟨other, stored⟩ := entry
    rcases List.mem_cons.mp hmem with heq | hrest
    · rw [← heq]
      exact List.lookup_cons_self
    · have hne : (name == other) = false := by
        rw [beq_eq_false_iff_ne]
        rintro rfl
        exact hnodup.1 (List.mem_map.mpr ⟨_, hrest, rfl⟩)
      rw [List.lookup_cons, hne]
      exact ih hnodup.2 hrest

variable [FloatOps.Valued F] {trainingRows : RowRange} {dropUnsupported : Bool} {host : FitHost}

/-- A frame that could be fitted stores the fit of each of its columns under the column's name. -/
theorem fitNormalization_stores (hmeans : Means nan frame table raw) {index : Nat}
    {whole : VortexFeatureBatch F} {column left : FeatureColumnF64 F}
    {fit : RobustNormalizationFitF64 F}
    (hwhole : frame.projectColumns nan [index] frame.allRows = .ok whole)
    (hcolumn : whole.columns = [column]) (hfit : FitOf nan column trainingRows fit left)
    {state : SearchNormalizationFittedState F}
    (h : frame.fitNormalization nan trainingRows dropUnsupported host = .ok state) :
    state.validate = .ok () ∧ (column.name, fit) ∈ state.columnNames.zip state.fits := by
  unfold fitNormalization at h
  obtain ⟨-, h⟩ := check_ok_iff.mp h
  obtain ⟨-, h⟩ := check_ok_iff.mp h
  obtain ⟨entries, hentries, h⟩ := bind_ok_iff.mp h
  obtain ⟨hvalid, h⟩ := check_ok_iff.mp (mapError_ok_iff.mp h)
  obtain rfl := Except.ok.inj h
  refine ⟨hvalid, ?_⟩
  obtain ⟨results, hresults, rfl⟩ := fitBatches_ok _ (Nat.zero_le _) hentries
  have hlt : index < frame.nFeatures :=
    (projectable_of_ok hwhole).within index (List.mem_singleton_self index)
  have hall := mapM_ok_iff.mp hresults
  have hindex : index ∈ List.range' 0 (frame.nFeatures - 0) := by
    rw [List.mem_range'_1]
    omega
  obtain ⟨result, hmem, hresult⟩ := forall₂_exists_left (R := fun result index =>
    frame.fitColumn nan trainingRows dropUnsupported host index = .ok result) hall.flip hindex
  obtain rfl := fitColumn_eq hmeans hwhole hcolumn hfit hresult
  have hentry : (column.name, fit) ∈ results.filterMap id :=
    List.mem_filterMap.mpr ⟨_, hmem, rfl⟩
  rw [List.nil_append]
  have hzip : ((results.filterMap id).map (·.1)).zip ((results.filterMap id).map (·.2)) =
      results.filterMap id := by
    rw [List.zip_map', List.map_id'']
    exact fun entry => rfl
  rw [hzip]
  exact hentry

end State

section View

theorem eq_of_getElem?_of_nodup {α : Type*} {xs : List α} (hnodup : xs.Nodup) {i j : Nat} {x : α}
    (hi : xs[i]? = some x) (hj : xs[j]? = some x) : i = j := by
  obtain ⟨hi', hx⟩ := List.getElem?_eq_some_iff.mp hi
  obtain ⟨hj', hy⟩ := List.getElem?_eq_some_iff.mp hj
  exact (hnodup.getElem_inj_iff).mp (hx.trans hy.symm)

/-- The view of a state shows what the stored fit of a column makes of the whole column. -/
theorem fittedView_shows
    (hclip : ∀ value : F, FloatOps.isFinite value = true → FloatOps.isFinite (clip value) = true)
    (hmeans : Means nan frame table raw) (hnames : frame.names.Nodup) {index : Nat}
    {whole : VortexFeatureBatch F} {column left : FeatureColumnF64 F}
    {fit : RobustNormalizationFitF64 F}
    (hwhole : frame.projectColumns nan [index] frame.allRows = .ok whole)
    (hcolumn : whole.columns = [column])
    (hreplays : applySearchNormalizationFit nan column fit = .ok left)
    {state : SearchNormalizationFittedState F}
    (hstored : (column.name, fit) ∈ state.columnNames.zip state.fits)
    (hview : frame.withFittedNormalization authority state = .ok next) :
    ∃ place shown, next.names[place]? = some column.name ∧
      next.projectColumns nan [place] next.allRows = .ok shown ∧ shown.columns = [left] := by
  have hlt : index < table.columns.length := by
    rw [← nFeatures_eq hmeans.names]
    exact (projectable_of_ok hwhole).within index (List.mem_singleton_self index)
  have hread := hmeans.reads _ _ _ hwhole
  rw [allRows_rows, hmeans.samples] at hread
  obtain ⟨source, shown, hsource, hshown, rfl⟩ := read_single hlt hread
  obtain rfl : shown = column := List.singleton_inj.mp hcolumn
  have hsourceName := (cells_of_read hshown).1
  have hnext := fitted_means hclip hmeans hview
  obtain ⟨columns, plan, hvalid, hfitted, hbacking, rfl⟩ := withFittedNormalization_ok hview
  have hmaps := ViewMaps.of_validateBacking hbacking
  have hphysical := hmaps.columns
  rw [nFeatures_eq hmeans.names] at hphysical
  obtain ⟨place, hplace⟩ := List.mem_iff_getElem?.mp hstored
  obtain ⟨hname, hfit⟩ := List.getElem?_zip_eq_some.mp hplace
  -- The view takes the column from where the frame has it: names are distinct.
  have hcolumns : columns[place]? = some index := by
    have hviewNames : pick columns frame.names = state.columnNames := hmaps.names
    rw [← hviewNames, Selection.getElem?_pick hmaps.columns] at hname
    obtain ⟨found, hfound, hfoundName⟩ := Option.bind_eq_some_iff.mp hname
    have hindexName : frame.names[index]? = some shown.name := by
      rw [hmeans.names]
      unfold FeatureTable.names
      rw [List.getElem?_map, hsource, hsourceName]
      rfl
    rw [hfound, eq_of_getElem?_of_nodup hnames hfoundName hindexName]
  have htable : table.normalize nan state = table.fitColumns nan state.fits columns := by
    unfold FeatureTable.normalize FeatureTable.fittedColumns
    rw [← hmeans.names, hfitted]
  have hentry : (table.normalize nan state).columns[place]? = some (source.fitted nan fit) := by
    rw [htable]
    unfold FeatureTable.fitColumns
    rw [getElem?_fitted hphysical, hfit, Option.bind_some, hcolumns, Option.bind_some, hsource]
    rfl
  have hvalidFit : validateSearchFit source.name fit = .ok () := by
    rw [← hsourceName]
    exact (SearchNormalizationFittedState.validate_ok hvalid).2 _ hstored
  have hleft := (TableColumn.read_fitted hvalidFit _ left).mpr ⟨shown, hshown, hreplays⟩
  obtain ⟨batch, hbatch, hbatchColumns⟩ : ∃ batch, (table.normalize nan state).read [place]
      (List.range' 0 table.nRows) = some batch ∧ batch.columns = [left] := by
    unfold FeatureTable.read
    rw [Selection.pick_cons_of_lt hentry]
    show ∃ batch, Option.map _ (List.mapM _ [source.fitted nan fit]) = some batch ∧ _
    rw [List.mapM_cons, hleft]
    exact ⟨_, rfl, rfl⟩
  have hwithin : place < state.columnNames.length := (List.getElem?_eq_some_iff.mp hname).1
  refine ⟨place, batch, hname, hnext.serves _ _ _ ?_ ?_, hbatchColumns⟩
  · exact ⟨List.cons_ne_nil _ _, Nat.zero_le _, le_rfl,
      fun other hother => by rw [List.mem_singleton.mp hother]; exact hwithin,
      List.nodup_singleton place⟩
  · rw [allRows_rows, hnext.samples]
    exact hbatch

end View

end FeatureFrame

section Exact

variable [ExactFunctions ℚ] {quiet : ExactNumber ℚ}

theorem new_single {column left : FeatureColumnF64 (ExactNumber ℚ)} {trainingRows : RowRange}
    {fit : RobustNormalizationFitF64 (ExactNumber ℚ)}
    (hfit : FitOf quiet column trainingRows fit left) (hname : column.name ≠ "") :
    SearchNormalizationFittedState.new [column.name] [fit] = .ok ⟨3, 2, [column.name], [fit]⟩ := by
  have hvalid := hfit.validateSearchFit_ok
  unfold SearchNormalizationFittedState.new SearchNormalizationFittedState.validate
  simp only [SEARCH_NORMALIZATION_POLICY_VERSION, NORMALIZATION_TRANSFORM_SEMANTIC_VERSION,
    check_ok_iff, refuse_ok_iff, List.zip_cons_cons, List.zip_nil_right,
    SearchNormalizationFittedState.validateFits, hvalid]
  simp [hname, pure, Except.pure]

/-- A fit rests on the training rows alone, and every replay of it gives what it left behind. -/
theorem normalization_fit_replays {name : String} {values : List (ExactNumber ℚ)}
    {validity : List FeatureCellValidity} {column left : FeatureColumnF64 (ExactNumber ℚ)}
    {trainingRows : RowRange} {fit : RobustNormalizationFitF64 (ExactNumber ℚ)}
    (hcolumn : FeatureColumnF64.new quiet name values validity = .ok column)
    (hfit : normalizeSearchFeatureColumnF64 quiet column trainingRows = .ok (fit, left)) :
    (∀ values' validity' other fit' left',
      FeatureColumnF64.new quiet name values' validity' = .ok other →
      trainingRows.of other.cells = trainingRows.of column.cells →
      normalizeSearchFeatureColumnF64 quiet other trainingRows = .ok (fit', left') →
      fit' = fit) ∧
    applySearchNormalizationFit quiet column fit = .ok left ∧
    left.cells.length = column.cells.length ∧
    SearchNormalizationFittedState.new [name] [fit] = .ok ⟨3, 2, [name], [fit]⟩ ∧
    (∀ state : SearchNormalizationFittedState (ExactNumber ℚ), state.validate = .ok () →
      state.fit? name = some fit → ∀ (row : Nat) cell, column.cells[row]? = some cell →
        ∃ out, left.cells[row]? = some out ∧ state.transformValue quiet name cell = .ok out) ∧
    ∀ (A : Type) (authority : FeatureAuthority (ExactNumber ℚ) A)
      (head : FeatureFrameHead (ExactNumber ℚ) A)
      (columns : List (FeatureColumnF64 (ExactNumber ℚ))) (ops : List (FrameOp (ExactNumber ℚ)))
      (frame : FeatureFrame (ExactNumber ℚ) A),
      (∀ plan, (authority.finalOutputs plan).Nodup) →
      FeatureFrame.InMemory authority quiet head columns →
      FeatureFrame.runOps authority quiet ops (.inMemory head columns) = .ok frame →
      ∀ index whole, frame.projectColumns quiet [index] frame.allRows = .ok whole →
      whole.columns = [column] →
      ∀ dropUnsupported host state,
        frame.fitNormalization quiet trainingRows dropUnsupported host = .ok state →
        state.fit? name = some fit ∧ state.validate = .ok () ∧
        ∀ view, frame.withFittedNormalization authority state = .ok view →
          ∃ place shown, view.names[place]? = some name ∧
            view.projectColumns quiet [place] view.allRows = .ok shown ∧
            shown.columns = [left] := by
  obtain ⟨hclean, rfl⟩ := CleanColumn.of_new hcolumn
  have hfitOf := normalizeSearch_ok hfit hclean.length
  have hreplays := hfitOf.replays hclean exact_identity hfitOf.validateSearchFit_ok
  refine ⟨?_, hreplays, ?_, new_single hfitOf hclean.name, ?_, ?_⟩
  · intro values' validity' other fit' left' hother htraining hfit'
    obtain ⟨hclean', hname⟩ := CleanColumn.of_new hother
    exact hfitOf.unique (normalizeSearch_ok hfit' hclean'.length) hname htraining
  · rw [hfitOf.cells_left hclean exact_identity, List.length_map]
  · intro state hstate hstored row cell hcell
    exact hfitOf.transforms hclean exact_identity hstate hstored hcell
  · intro A authority head columns ops frame hplans hmemory hruns index whole hwhole hsame
      dropUnsupported host state hstate
    have hmeans := FeatureFrame.runOps_means exact_clip hmemory.means hruns
    have hnames : frame.names.Nodup := by
      rw [FeatureFrame.runOps_named (FeatureFrame.buildWithAuthority_named hmemory.built) hruns]
      exact hplans _
    obtain ⟨hvalid, hstored⟩ :=
      FeatureFrame.fitNormalization_stores hmeans hwhole hsame hfitOf hstate
    have hnodup : ((state.columnNames.zip state.fits).map (·.1)).Nodup := by
      rw [List.map_fst_zip (SearchNormalizationFittedState.validate_ok hvalid).1.le]
      exact FeatureFrame.validate_nodup hvalid
    refine ⟨FeatureFrame.lookup_of_mem hnodup hstored, hvalid, fun view hview => ?_⟩
    exact FeatureFrame.fittedView_shows exact_clip hmeans hnames hwhole hsame hreplays hstored
      hview

end Exact

section Sample

def distinctAuthority (F : Type) : FeatureAuthority F {names : List String // names.Nodup} where
  finalOutputs plan := plan.val
  agrees _ := true
  normalizes _ := false
  select _ names := if h : names.Nodup then some ⟨names, h⟩ else none
  normalized _ state :=
    if h : state.columnNames.Nodup then some ⟨state.columnNames, h⟩ else none

def gateColumn : FeatureColumnF64 (ExactNumber ℚ) :=
  ⟨"smc_ob", [.number 1, .nan, .number (-1)], [.valid, .warmup, .valid]⟩

def returnColumn : FeatureColumnF64 (ExactNumber ℚ) :=
  ⟨"log_return", [.number 1, .number 3, .number 4], [.valid, .valid, .valid]⟩

def gateFit : RobustNormalizationFitF64 (ExactNumber ℚ) :=
  ⟨⟨0, 2⟩, .number 0, .number 1, 1, false⟩

def returnFit : RobustNormalizationFitF64 (ExactNumber ℚ) :=
  ⟨⟨0, 2⟩, .number 2, MAD_TO_SIGMA_F64, 2, false⟩

def normalizedReturns : FeatureColumnF64 (ExactNumber ℚ) :=
  ⟨"log_return", [.number (-1) / MAD_TO_SIGMA_F64, .number 1 / MAD_TO_SIGMA_F64,
    .number 2 / MAD_TO_SIGMA_F64], [.valid, .valid, .valid]⟩

def gateHead : FeatureFrameHead (ExactNumber ℚ) {names : List String // names.Nodup} :=
  ⟨[1600000060000, 1600000120000, 1600000180000], ["smc_ob", "log_return"],
    ⟨["smc_ob", "log_return"], by decide⟩, .contiguous 0, none⟩

def gateFrame : FeatureFrame (ExactNumber ℚ) {names : List String // names.Nodup} :=
  .inMemory gateHead [gateColumn, returnColumn]

def gateHost : FitHost := ⟨2, fun _ => 2 ^ 40, fun _ => false⟩

def gateState : SearchNormalizationFittedState (ExactNumber ℚ) :=
  ⟨3, 2, ["smc_ob", "log_return"], [gateFit, returnFit]⟩

theorem gateFrame_inMemory : FeatureFrame.InMemory (distinctAuthority (ExactNumber ℚ))
    .nan gateHead [gateColumn, returnColumn] := by
  have hbuilt : ((FeatureFrame.fromColumns (distinctAuthority (ExactNumber ℚ))
      gateHead.timestamps [gateColumn, returnColumn] gateHead.authority).toOption.isSome) =
        true := by decide +kernel
  have hnew : ∀ column ∈ [gateColumn, returnColumn], FeatureColumnF64.new .nan column.name
      column.values column.validity = .ok column := by decide +kernel
  cases hbuild : FeatureFrame.fromColumns (distinctAuthority (ExactNumber ℚ))
      gateHead.timestamps [gateColumn, returnColumn] gateHead.authority with
  | error error =>
    rw [hbuild] at hbuilt
    cases hbuilt
  | ok frame =>
    exact FeatureFrame.fromColumns_inMemory hbuild fun column hcolumn =>
      ⟨column.values, column.validity, hnew column hcolumn⟩

theorem gate_fit_replays : gateFrame.fitNormalization .nan ⟨0, 2⟩ true gateHost = .ok gateState ∧
    gateState.fit? "smc_ob" = some gateFit ∧ gateState.fit? "log_return" = some returnFit ∧
    ∃ view, gateFrame.withFittedNormalization (distinctAuthority (ExactNumber ℚ)) gateState =
        .ok view ∧
      (∃ place shown, view.names[place]? = some "smc_ob" ∧
        view.projectColumns .nan [place] view.allRows = .ok shown ∧
        shown.columns = [gateColumn]) ∧
      ∃ place shown, view.names[place]? = some "log_return" ∧
        view.projectColumns .nan [place] view.allRows = .ok shown ∧
        shown.columns = [normalizedReturns] := by
  have hgate : normalizeSearchFeatureColumnF64 .nan gateColumn ⟨0, 2⟩ =
      .ok (gateFit, gateColumn) := by decide +kernel
  have hreturn : normalizeSearchFeatureColumnF64 .nan returnColumn ⟨0, 2⟩ =
      .ok (returnFit, normalizedReturns) := by decide +kernel
  have hwhole (index : Nat) (column : FeatureColumnF64 (ExactNumber ℚ))
      (hcolumn : (index, column) ∈ [(0, gateColumn), (1, returnColumn)]) :
      gateFrame.projectColumns .nan [index] gateFrame.allRows =
        .ok ⟨[1600000060000, 1600000120000, 1600000180000], [0, 1, 2], [column]⟩ := by
    have hall : ∀ entry ∈ [(0, gateColumn), (1, returnColumn)],
        gateFrame.projectColumns .nan [entry.1] gateFrame.allRows =
          .ok ⟨[1600000060000, 1600000120000, 1600000180000], [0, 1, 2], [entry.2]⟩ := by
      decide +kernel
    exact hall _ hcolumn
  have hstate : gateFrame.fitNormalization .nan ⟨0, 2⟩ true gateHost = .ok gateState := by
    decide +kernel
  have hview : ((gateFrame.withFittedNormalization (distinctAuthority (ExactNumber ℚ))
      gateState).toOption.isSome) = true := by decide +kernel
  obtain ⟨_, _, hgateNew⟩ := gateFrame_inMemory.2 gateColumn (by simp)
  obtain ⟨_, _, hreturnNew⟩ := gateFrame_inMemory.2 returnColumn (by simp)
  obtain ⟨-, -, -, -, -, hframe⟩ := normalization_fit_replays hgateNew hgate
  obtain ⟨hstored, -, hshows⟩ := hframe _ (distinctAuthority (ExactNumber ℚ)) gateHead _ []
    gateFrame (fun plan => plan.property) gateFrame_inMemory rfl 0 _ (hwhole 0 _ (by simp)) rfl
    true gateHost _ hstate
  obtain ⟨-, -, -, -, -, hframe⟩ := normalization_fit_replays hreturnNew hreturn
  obtain ⟨hstored', -, hshows'⟩ := hframe _ (distinctAuthority (ExactNumber ℚ)) gateHead _ []
    gateFrame (fun plan => plan.property) gateFrame_inMemory rfl 1 _ (hwhole 1 _ (by simp)) rfl
    true gateHost _ hstate
  cases hopened : gateFrame.withFittedNormalization (distinctAuthority (ExactNumber ℚ))
      gateState with
  | error error =>
    rw [hopened] at hview
    cases hview
  | ok view => exact ⟨hstate, hstored, hstored', view, rfl, hshows view hopened,
      hshows' view hopened⟩

end Sample

end Neoethos
