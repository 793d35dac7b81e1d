import Neoethos.FeatureDense

namespace Neoethos

open Fallible (refuse require bind_ok_iff check_ok_iff mapError_ok_iff refuse_ok_iff require_ok_iff
  mapM_ok_iff)
open Selection (pick Within)

theorem writeCells_eq {α : Type} {destination cells out : List α} {index : Nat}
    (h : writeCells destination index cells = some out) :
    out.length = destination.length ∧
      (index ≤ destination.length →
        index + cells.length ≤ destination.length ∧
        out.take (index + cells.length) = destination.take index ++ cells) := by
  induction cells generalizing destination index with
  | nil =>
    obtain rfl := Option.some.inj h
    exact ⟨rfl, fun hindex => ⟨hindex, by simp⟩⟩
  | cons cell cells ih =>
    unfold writeCells at h
    split at h
    next hindex =>
      obtain ⟨hlength, hcells⟩ := ih h
      rw [List.length_set] at hlength hcells
      refine ⟨hlength, fun _ => ?_⟩
      obtain ⟨hroom, htake⟩ := hcells hindex
      have hshift : index + (cell :: cells).length = index + 1 + cells.length := by
        rw [List.length_cons]
        omega
      have hset : (destination.set index cell).take (index + 1) =
          destination.take index ++ [cell] := by
        rw [List.take_add_one, List.getElem?_set_self hindex, List.take_set_of_le le_rfl]
        rfl
      rw [hshift, htake, hset, List.append_assoc]
      exact ⟨hroom, rfl⟩
    next => cases h

section Columns

variable {F : Type}

def VortexFeatureBatch.beside (output source : VortexFeatureBatch F) : VortexFeatureBatch F :=
  { output with columns := output.columns ++ source.columns }

theorem mapM_append_some {α β : Type} {f : α → Option β} {xs ys : List α} {front back : List β}
    (hfront : xs.mapM f = some front) (hback : ys.mapM f = some back) :
    (xs ++ ys).mapM f = some (front ++ back) := by
  rw [List.mapM_append, hfront, hback]
  rfl

theorem FeatureTable.read_beside {table : FeatureTable F} {columns others rows : List Nat}
    {front back : VortexFeatureBatch F} (hfront : table.read columns rows = some front)
    (hback : table.read others rows = some back) :
    table.read (columns ++ others) rows = some (front.beside back) := by
  unfold FeatureTable.read at hfront hback ⊢
  obtain ⟨first, hfirst, rfl⟩ := Option.map_eq_some_iff.mp hfront
  obtain ⟨second, hsecond, rfl⟩ := Option.map_eq_some_iff.mp hback
  rw [Selection.pick_append, mapM_append_some hfirst hsecond]
  rfl

theorem VortexFeatureBatch.cellsAt_beside {front back : VortexFeatureBatch F} {row : Nat}
    {first second : List (FeatureCellF64 F)} (hfront : front.cellsAt row = some first)
    (hback : back.cellsAt row = some second) :
    (front.beside back).cellsAt row = some (first ++ second) :=
  mapM_append_some hfront hback

theorem length_of_mapM_some {α β : Type} {f : α → Option β} {xs : List α} {ys : List β}
    (h : xs.mapM f = some ys) : ys.length = xs.length :=
  (forall₂_of_mapM_some h).length_eq.symm

theorem FeatureTable.length_read {table : FeatureTable F} {columns rows : List Nat}
    {batch : VortexFeatureBatch F} (hwithin : Within columns table.columns.length)
    (h : table.read columns rows = some batch) : batch.columns.length = columns.length := by
  unfold FeatureTable.read at h
  obtain ⟨shown, hshown, rfl⟩ := Option.map_eq_some_iff.mp h
  rw [← Selection.length_pick hwithin]
  exact length_of_mapM_some hshown

end Columns

section Rows

variable {F : Type} {table : FeatureTable F} {rows : List Nat} {row : Nat}

/-- The cells of the first columns, in one row, are in a line of the destination. -/
structure Shows (table : FeatureTable F) (rows : List Nat) (row count : Nat)
    (line : List (FeatureCellF64 F)) : Prop where
  width : line.length = table.columns.length
  cells : ∃ batch, table.read (List.range count) rows = some batch ∧
    batch.cellsAt row = some (line.take count)

theorem range_append_range' (count width : Nat) :
    List.range count ++ List.range' count width = List.range (count + width) := by
  have happend : List.range' 0 count ++ List.range' (0 + count) width =
      List.range' 0 (count + width) := List.range'_append_1
  rw [Nat.zero_add] at happend
  rw [List.range_eq_range', List.range_eq_range']
  exact happend

theorem writeBatch_shows {count width : Nat} {line out : List (FeatureCellF64 F)}
    {batch : VortexFeatureBatch F} (hshows : Shows table rows row count line)
    (hcount : count + width ≤ table.columns.length)
    (hread : table.read (List.range' count width) rows = some batch)
    (h : writeBatch row line (count, batch) = some out) :
    Shows table rows row (count + width) out := by
  obtain ⟨cells, hcells, hwrite⟩ := Option.bind_eq_some_iff.mp h
  obtain ⟨hlength, htake⟩ := writeCells_eq hwrite
  obtain ⟨before, hbefore, hline⟩ := hshows.cells
  have hwidth : cells.length = width := by
    unfold VortexFeatureBatch.cellsAt at hcells
    rw [length_of_mapM_some hcells,
      FeatureTable.length_read (Selection.within_range' hcount) hread, List.length_range']
  obtain ⟨-, htake⟩ := htake (by rw [hshows.width]; omega)
  rw [hwidth] at htake
  refine ⟨hlength.trans hshows.width, before.beside batch, ?_, ?_⟩
  · rw [← range_append_range']
    exact FeatureTable.read_beside hbefore hread
  · rw [htake]
    exact VortexFeatureBatch.cellsAt_beside hline hcells

def Projects (table : FeatureTable F) (rows : List Nat) (first width : Nat)
    (chunks : List (Nat × List Nat)) (projected : List (Nat × VortexFeatureBatch F)) : Prop :=
  List.Forall₂ (fun chunk batch => batch.1 = first + chunk.1 * width ∧
    table.read chunk.2 rows = some batch.2) chunks projected

theorem writeRow_shows {first width : Nat} (hwidth : 0 < width) (fuel : Nat)
    {index count : Nat} {line out : List (FeatureCellF64 F)}
    {projected : List (Nat × VortexFeatureBatch F)} (hfuel : count ≤ fuel)
    (hshows : Shows table rows row (first + index * width) line)
    (hcount : first + index * width + count ≤ table.columns.length)
    (hprojects : Projects table rows first width
      (parChunks width fuel index (List.range' (first + index * width) count)) projected)
    (h : writeRow projected row line = some out) :
    Shows table rows row (first + index * width + count) out := by
  induction fuel generalizing index count line projected with
  | zero =>
    obtain rfl := Nat.le_zero.mp hfuel
    cases hprojects
    obtain rfl := Option.some.inj h
    exact hshows
  | succ fuel ih =>
    unfold parChunks at hprojects
    split at hprojects
    next hempty =>
      rw [List.range'_eq_nil_iff] at hempty
      subst hempty
      cases hprojects
      obtain rfl := Option.some.inj h
      exact hshows
    next hsome =>
      rw [List.range'_eq_nil_iff] at hsome
      rcases hprojects with _ | ⟨⟨hoffset, hread⟩, hrest⟩
      rename_i batch batches
      obtain ⟨offset, batch⟩ := batch
      dsimp only at hoffset hread
      subst hoffset
      unfold writeRow at h
      rw [List.foldlM_cons] at h
      obtain ⟨middle, hmiddle, h⟩ := Option.bind_eq_some_iff.mp h
      rw [List.drop_range', Nat.mul_one] at hrest
      rcases le_total count width with hlast | hfull
      · -- The last chunk of the wave leaves no column for another one.
        rw [List.take_range'_of_length_le hlast] at hread
        have hnone : count - width = 0 := by omega
        rw [hnone, List.range'_zero] at hrest
        have hstop : parChunks width fuel (index + 1) ([] : List Nat) = [] := by
          cases fuel with
          | zero => rfl
          | succ fuel => rfl
        rw [hstop] at hrest
        cases hrest
        obtain rfl := Option.some.inj h
        exact writeBatch_shows hshows hcount hread hmiddle
      · rw [List.take_range'_of_length_ge hfull] at hread
        have hnext : first + (index + 1) * width = first + index * width + width := by
          rw [Nat.add_mul, Nat.one_mul, Nat.add_assoc]
        have hshows' := writeBatch_shows hshows (by omega) hread hmiddle
        rw [← hnext] at hshows' hrest
        have hdone := ih (by omega) hshows' (by omega) hrest h
        have hsum : first + (index + 1) * width + (count - width) =
            first + index * width + count := by omega
        rw [hsum] at hdone
        exact hdone

end Rows

theorem zipIdx_mapM_some {α β : Type} {f : α × Nat → Option β} {xs : List α} {ys : List β}
    {start : Nat} (h : (xs.zipIdx start).mapM f = some ys) :
    ys.length = xs.length ∧ ∀ index y, ys[index]? = some y →
      ∃ x, xs[index]? = some x ∧ f (x, start + index) = some y := by
  induction xs generalizing start ys with
  | nil =>
    obtain rfl := Option.some.inj h
    exact ⟨rfl, fun index y hy => by simp at hy⟩
  | cons x xs ih =>
    rw [List.zipIdx_cons, List.mapM_cons] at h
    simp only [Option.bind_eq_bind, Option.bind_eq_some_iff, Option.pure_def,
      Option.some.injEq] at h
    obtain ⟨first, hfirst, rest, hrest, rfl⟩ := h
    obtain ⟨hlength, hall⟩ := ih hrest
    refine ⟨congrArg (· + 1) hlength, ?_⟩
    intro index y hy
    cases index with
    | zero =>
      obtain rfl := Option.some.inj hy
      exact ⟨x, rfl, hfirst⟩
    | succ index =>
      obtain ⟨source, hsource, hy⟩ := hall index y hy
      exact ⟨source, hsource, by rw [← hy]; congr 2; omega⟩

theorem filterMap_of_mapM_some {α β : Type} {f : α → Option β} {xs : List α} {ys : List β}
    (h : xs.mapM f = some ys) : xs.filterMap f = ys := by
  have hall := forall₂_of_mapM_some h
  clear h
  induction hall with
  | nil => rfl
  | cons hhead _ ih => rw [List.filterMap_cons_some hhead, ih]

def VortexFeatureBatch.lines {F : Type} (rows : Nat) (batch : VortexFeatureBatch F) :
    List (List (FeatureCellF64 F)) :=
  (List.range rows).map fun row => batch.columns.filterMap fun column => column.cells[row]?

def VortexFeatureBatch.dense {F : Type} (rows columns : Nat) (batch : VortexFeatureBatch F) :
    FeatureDenseMatrixF64 F :=
  ⟨rows, columns, (batch.lines rows).flatten.map (·.value),
    (batch.lines rows).flatten.map (·.validity)⟩

namespace FeatureFrame

variable {F A : Type} [FloatOps F] {nan : F} {frame : FeatureFrame F A}
  {table raw : FeatureTable F} {range : RowRange}

theorem projectWave_projects (hmeans : Means nan frame table raw)
    {first waveEnd width : Nat} (hstop : waveEnd ≤ frame.nFeatures)
    {projected : List (Nat × VortexFeatureBatch F)}
    (h : frame.projectWave nan range first waveEnd width = .ok projected) :
    0 < width ∧ Projects table range.rows first width
      (parChunks width (waveEnd - first) 0 (List.range' first (waveEnd - first))) projected := by
  unfold projectWave at h
  obtain ⟨hwidth, h⟩ := check_ok_iff.mp h
  rw [refuse_ok_iff] at hwidth
  have hselected : RowRange.of ⟨first, waveEnd⟩ frame.allColumns =
      List.range' first (waveEnd - first) := by
    have hwithin : Within (RowRange.rows ⟨first, waveEnd⟩) frame.nFeatures := by
      intro index hindex
      have hlt := List.mem_range'_1.mp hindex
      have hlength : RowRange.length ⟨first, waveEnd⟩ = waveEnd - first := rfl
      rw [hlength] at hlt
      dsimp only at hlt
      omega
    unfold allColumns
    rw [← RowRange.pick_rows, List.range_eq_range', Selection.pick_of_range' hwithin]
    simp [RowRange.rows, RowRange.length]
  dsimp only at h
  rw [hselected, List.length_range'] at h
  refine ⟨Nat.pos_of_ne_zero hwidth, ?_⟩
  refine (mapM_ok_iff.mp h).imp ?_
  intro chunk batch hbatch
  obtain ⟨shown, hshown, hbatch⟩ := bind_ok_iff.mp hbatch
  obtain rfl := Except.ok.inj hbatch
  exact ⟨rfl, hmeans.reads _ _ _ (mapError_ok_iff.mp hshown)⟩

omit [FloatOps F] in
theorem writeWave_shows {first waveEnd width : Nat} (hwidth : 0 < width)
    (hfirst : first ≤ waveEnd) (hstop : waveEnd ≤ table.columns.length)
    {projected : List (Nat × VortexFeatureBatch F)}
    (hprojects : Projects table range.rows first width
      (parChunks width (waveEnd - first) 0 (List.range' first (waveEnd - first))) projected)
    {destination out : List (List (FeatureCellF64 F))}
    (hshows : ∀ row line, destination[row]? = some line → Shows table range.rows row first line)
    (h : writeWave projected destination = some out) :
    out.length = destination.length ∧
      ∀ row line, out[row]? = some line → Shows table range.rows row waveEnd line := by
  obtain ⟨hlength, hall⟩ := zipIdx_mapM_some h
  refine ⟨hlength, ?_⟩
  intro row line hline
  obtain ⟨before, hbefore, hwrite⟩ := hall row line hline
  rw [Nat.zero_add] at hwrite
  have hzero : first + 0 * width = first := by omega
  have hbefore' : Shows table range.rows row (first + 0 * width) before := by
    rw [hzero]
    exact hshows row before hbefore
  have hdone := writeRow_shows hwidth (waveEnd - first) le_rfl hbefore' (by omega)
    (by rw [hzero]; exact hprojects) hwrite
  have hsum : first + 0 * width + (waveEnd - first) = waveEnd := by omega
  rw [hsum] at hdone
  exact hdone

theorem denseWaves_shows (hmeans : Means nan frame table raw) {host : DenseHost} (fuel : Nat)
    {reading first : Nat} {plan : AdaptiveFeatureProjectionPlan}
    {destination out : List (List (FeatureCellF64 F))} (hfirst : first ≤ frame.nFeatures)
    (hshows : ∀ row line, destination[row]? = some line → Shows table range.rows row first line)
    (h : frame.denseWaves nan range host fuel reading first plan destination = .ok out) :
    out.length = destination.length ∧
      ∀ row line, out[row]? = some line → Shows table range.rows row frame.nFeatures line := by
  induction fuel generalizing reading first plan destination with
  | zero =>
    obtain ⟨hdone, h⟩ := check_ok_iff.mp h
    obtain rfl := Except.ok.inj h
    rw [refuse_ok_iff] at hdone
    obtain rfl : first = frame.nFeatures := by omega
    exact ⟨rfl, hshows⟩
  | succ fuel ih =>
    unfold denseWaves at h
    split at h
    next hmore =>
      dsimp only at h
      generalize hend : min (first + plan.columnsPerBatch * plan.concurrentBatches)
        frame.nFeatures = waveEnd at h
      have hadvance : first ≤ waveEnd ∧ waveEnd ≤ frame.nFeatures := by omega
      obtain ⟨projected, hprojected, h⟩ := bind_ok_iff.mp h
      obtain ⟨written, hwritten, h⟩ := bind_ok_iff.mp h
      obtain ⟨plan', -, h⟩ := bind_ok_iff.mp h
      obtain ⟨hwidth, hprojects⟩ := projectWave_projects hmeans hadvance.2 hprojected
      obtain ⟨hlength, hshows'⟩ := writeWave_shows hwidth hadvance.1
        (by rw [← nFeatures_eq hmeans.names]; exact hadvance.2) hprojects hshows
        (require_ok_iff.mp hwritten)
      obtain ⟨hlength', hout⟩ := ih hadvance.2 hshows' h
      exact ⟨hlength'.trans hlength, hout⟩
    next hdone =>
      obtain rfl := Except.ok.inj h
      obtain rfl : first = frame.nFeatures := by omega
      exact ⟨rfl, hshows⟩

omit [FloatOps F] in
theorem shows_empty (value : FeatureCellF64 F) (row : Nat) :
    Shows table range.rows row 0 (List.replicate table.columns.length value) :=
  ⟨List.length_replicate, ⟨_, rfl, rfl⟩⟩

/-- A dense window holds what its table has, row after row. -/
theorem denseWindow_dense (hmeans : Means nan frame table raw) {host : DenseHost}
    {start stop : Nat} {matrix : FeatureDenseMatrixF64 F}
    (h : frame.denseWindow nan host start stop = .ok matrix) :
    ∃ batch, table.read (List.range frame.nFeatures) (RowRange.rows ⟨start, stop⟩) = some batch ∧
      matrix = batch.dense (stop - start) frame.nFeatures := by
  unfold denseWindow at h
  obtain ⟨-, h⟩ := check_ok_iff.mp h
  obtain ⟨layout, -, h⟩ := bind_ok_iff.mp h
  dsimp only at h
  split at h
  next hempty =>
    obtain ⟨-, h⟩ := check_ok_iff.mp h
    obtain rfl := Except.ok.inj h
    have hrows : RowRange.rows ⟨start, stop⟩ = [] := by
      unfold RowRange.rows RowRange.length
      rw [hempty, List.range'_zero]
    rw [hrows, FeatureTable.read_nil]
    refine ⟨_, rfl, ?_⟩
    rw [hempty]
    rfl
  next hsome =>
    obtain ⟨-, h⟩ := check_ok_iff.mp h
    obtain ⟨plan, -, h⟩ := bind_ok_iff.mp h
    obtain ⟨-, h⟩ := check_ok_iff.mp h
    obtain ⟨-, h⟩ := check_ok_iff.mp h
    obtain ⟨destination, hdestination, h⟩ := bind_ok_iff.mp h
    obtain ⟨-, h⟩ := check_ok_iff.mp h
    obtain rfl := Except.ok.inj h
    have hfeatures := nFeatures_eq hmeans.names
    have hstart : ∀ row line, (List.replicate (stop - start) (List.replicate frame.nFeatures
        (⟨nan, .alignmentMissing⟩ : FeatureCellF64 F)))[row]? = some line →
        Shows table (RowRange.rows ⟨start, stop⟩) row 0 line := by
      intro row line hline
      have hmem := List.mem_of_getElem? hline
      rw [List.eq_of_mem_replicate hmem, hfeatures]
      exact shows_empty _ row
    obtain ⟨hlength, hshows⟩ := denseWaves_shows hmeans _ (Nat.zero_le _) hstart hdestination
    rw [List.length_replicate] at hlength
    obtain ⟨first, hfirst⟩ : ∃ line, destination[0]? = some line :=
      ⟨_, List.getElem?_eq_getElem (by omega)⟩
    obtain ⟨-, batch, hbatch, -⟩ := hshows 0 first hfirst
    refine ⟨batch, hbatch, ?_⟩
    have hlines : destination = batch.lines (stop - start) := by
      apply List.ext_getElem?
      intro row
      unfold VortexFeatureBatch.lines
      rw [List.getElem?_map]
      rcases lt_or_ge row (stop - start) with hlt | hge
      · obtain ⟨line, hline⟩ : ∃ line, destination[row]? = some line :=
          ⟨_, List.getElem?_eq_getElem (by omega)⟩
        obtain ⟨hwidth, shown, hshown, hcells⟩ := hshows row line hline
        rw [hbatch] at hshown
        obtain rfl := Option.some.inj hshown
        rw [hfeatures, ← hwidth, List.take_length] at hcells
        rw [hline, List.getElem?_range hlt, Option.map_some]
        exact congrArg some (filterMap_of_mapM_some hcells).symm
      · rw [List.getElem?_eq_none (by omega),
          List.getElem?_eq_none (by rw [List.length_range]; exact hge)]
        rfl
    rw [hlines]
    rfl

open Fallible (Never never_ok never_refuse never_require never_mapError never_mapM)

omit [FloatOps F]

theorem plan_finishes (rows columns workers available : Nat) :
    Never .unfinished (adaptiveFeatureProjectionPlanForAvailableMemory (F := F) rows columns workers
      available) := by
  unfold adaptiveFeatureProjectionPlanForAvailableMemory
  split
  next => exact never_ok _
  next =>
    refine (never_refuse (by simp)).bind fun _ _ => ?_
    refine (never_refuse (by simp)).bind fun _ _ => ?_
    refine (never_refuse (by simp)).bind fun _ _ => ?_
    refine (never_refuse (by simp)).bind fun _ _ => ?_
    exact never_ok _

theorem projectWave_finishes [FloatOps F] (first waveEnd width : Nat) :
    Never .unfinished (frame.projectWave nan range first waveEnd width) := by
  unfold projectWave
  refine (never_refuse (by simp)).bind fun _ _ => never_mapM fun chunk => ?_
  exact (never_mapError fun error => by simp).bind fun _ _ => never_ok _

theorem denseWaves_finishes [FloatOps F] {host : DenseHost} (fuel : Nat) {reading first : Nat}
    {plan : AdaptiveFeatureProjectionPlan} {destination : List (List (FeatureCellF64 F))}
    (hfuel : frame.nFeatures - first ≤ fuel)
    (hplan : first < frame.nFeatures → 0 < plan.columnsPerBatch * plan.concurrentBatches) :
    Never .unfinished
      (frame.denseWaves nan range host fuel reading first plan destination) := by
  induction fuel generalizing reading first plan destination with
  | zero =>
    unfold denseWaves
    have hdone : refuse (first < frame.nFeatures) DenseWindowError.unfinished =
        (.ok () : Except (DenseWindowError F) Unit) := refuse_ok_iff.mpr (by omega)
    rw [hdone]
    exact never_ok _
  | succ fuel ih =>
    unfold denseWaves
    split
    next hmore =>
      have hstep := hplan hmore
      refine (projectWave_finishes _ _ _).bind fun projected _ => ?_
      refine (never_require (by simp)).bind fun written _ => ?_
      refine Never.bind ?_ fun next hnext => ih (by omega) fun hless => ?_
      · split
        next => exact plan_finishes _ _ _ _
        next => exact never_ok _
      · rw [if_pos hless] at hnext
        obtain ⟨hwidth, hbatches⟩ := adaptivePlan_positive (by omega) hnext
        exact Nat.mul_pos hwidth hbatches
    next => exact never_ok _

/-- A dense window is done after as many waves as there are columns. -/
theorem denseWindow_finishes [FloatOps F] (host : DenseHost) (start stop : Nat) :
    Never .unfinished (frame.denseWindow nan host start stop) := by
  have hlayout : Never .unfinished (denseWindowDestinationLayout (F := F) (stop - start)
      frame.nFeatures) := by
    unfold denseWindowDestinationLayout
    refine (never_refuse (by simp)).bind fun _ _ => ?_
    refine (never_refuse (by simp)).bind fun _ _ => ?_
    refine (never_refuse (by simp)).bind fun _ _ => ?_
    exact never_ok _
  have hshape : ∀ rows cells, Never .unfinished (FeatureDenseMatrixF64.fromShapeVec (F := F) rows
      frame.nFeatures cells) :=
    fun _ _ => (never_refuse (by simp)).bind fun _ _ => never_ok _
  unfold denseWindow
  refine (never_mapError fun error => by simp).bind fun _ _ => hlayout.bind fun _ _ => ?_
  dsimp only
  split
  next => exact hshape _ _
  next =>
    refine (never_refuse (by simp)).bind fun _ _ => ?_
    refine (plan_finishes _ _ _ _).bind fun plan hplan => ?_
    refine (never_refuse (by simp)).bind fun _ _ => ?_
    refine (never_refuse (by simp)).bind fun _ _ => ?_
    refine Never.bind ?_ fun _ _ => hshape _ _
    apply denseWaves_finishes _ (by omega)
    intro hmore
    obtain ⟨hwidth, hbatches⟩ := adaptivePlan_positive hmore hplan
    exact Nat.mul_pos hwidth hbatches

end FeatureFrame

namespace FeatureFrame

variable {F A : Type} [FloatOps F] {authority : FeatureAuthority F A} {nan : F}
  {frame : FeatureFrame F A} {table raw : FeatureTable F}

theorem Means.projectColumns_iff (hmeans : Means nan frame table raw) {columns : List Nat}
    {range : RowRange} {batch : VortexFeatureBatch F} :
    frame.projectColumns nan columns range = .ok batch ↔
      frame.validateProjection columns range = .ok () ∧
        table.read columns range.rows = some batch := by
  rw [validateProjection_ok_iff]
  constructor
  · intro h
    exact ⟨projectable_of_ok h, hmeans.reads _ _ _ h⟩
  · rintro ⟨hprojectable, hread⟩
    exact hmeans.serves _ _ _ hprojectable hread

omit [FloatOps F] in
theorem read_single {index : Nat} {rows : List Nat} {batch : VortexFeatureBatch F}
    (hindex : index < table.columns.length) (h : table.read [index] rows = some batch) :
    ∃ source column, table.columns[index]? = some source ∧ source.read rows = some column ∧
      batch = ⟨pick rows table.timestamps, pick rows table.rowIds, [column]⟩ := by
  unfold FeatureTable.read at h
  rw [Selection.pick_cons_of_lt (List.getElem?_eq_getElem hindex)] at h
  obtain ⟨shown, hshown, rfl⟩ := Option.map_eq_some_iff.mp h
  have hcolumns := forall₂_of_mapM_some hshown
  rcases hcolumns with _ | ⟨hhead, hrest⟩
  cases hrest
  exact ⟨_, _, List.getElem?_eq_getElem hindex, hhead, rfl⟩

theorem Means.rawModelColumn_reads (hmeans : Means nan frame table raw) {name : String}
    {column : FeatureColumnF64 F} (h : frame.rawModelColumn nan name = .ok column) :
    ∃ index source, frame.names.findIdx? (· = name) = some index ∧
      raw.columns[index]? = some source ∧
      source.read (List.range' 0 raw.nRows) = some column := by
  unfold rawModelColumn at h
  obtain ⟨index, hindex, h⟩ := bind_ok_iff.mp h
  obtain ⟨batch, hbatch, h⟩ := bind_ok_iff.mp h
  have hread := hmeans.readsRaw _ _ _ hbatch
  have hlt : index < raw.columns.length := by
    rw [← nFeatures_eq (hmeans.names.trans hmeans.rawNames.symm)]
    exact (projectable_of_ok hbatch).within index (List.mem_singleton_self index)
  rw [allRows_rows, hmeans.samples, ← hmeans.rawSamples] at hread
  obtain ⟨source, shown, hsource, hshown, rfl⟩ := read_single hlt hread
  obtain rfl := Option.some.inj (require_ok_iff.mp h)
  exact ⟨index, source, require_ok_iff.mp hindex, hsource, hshown⟩

/-- A frame in memory, under its authority and with columns of their constructor. -/
structure InMemory (authority : FeatureAuthority F A) (nan : F) (head : FeatureFrameHead F A)
    (columns : List (FeatureColumnF64 F)) : Prop where
  built : buildWithAuthority authority (inMemory head columns) = .ok (inMemory head columns)
  columns : ∀ column ∈ columns, ∃ values validity,
    FeatureColumnF64.new nan column.name values validity = .ok column

theorem fromColumns_inMemory {timestamps : List Int} {columns : List (FeatureColumnF64 F)} {plan : A}
    (h : fromColumns authority timestamps columns plan = .ok frame)
    (hcolumns : ∀ column ∈ columns, ∃ values validity,
      FeatureColumnF64.new nan column.name values validity = .ok column) :
    InMemory authority nan ⟨timestamps, columns.map (·.name), plan, .contiguous 0, none⟩ columns := by
  obtain ⟨rfl, -⟩ := buildWithAuthority_ok h
  exact ⟨h, hcolumns⟩

theorem InMemory.means {head : FeatureFrameHead F A} {columns : List (FeatureColumnF64 F)}
    (h : InMemory authority nan head columns) :
    Means nan (inMemory head columns) (FeatureFrame.table head columns)
      (FeatureFrame.table head columns) := by
  obtain ⟨-, hbacking⟩ := buildWithAuthority_ok h.built
  have hclean : ∀ column ∈ columns, CleanColumn nan column := by
    intro column hcolumn
    obtain ⟨values, validity, hnew⟩ := h.columns column hcolumn
    exact (CleanColumn.of_new hnew).1
  have hchecks := hbacking
  unfold validateBacking at hchecks
  dsimp only at hchecks
  simp only [check_ok_iff, Fallible.refuse_ok_iff, not_not] at hchecks
  obtain ⟨hids, hcount, hnames⟩ := hchecks
  obtain ⟨hnames, hrows⟩ := checkBacking_ok hcount hnames
  refine inMemory_means hbacking hclean rfl (table_names hnames)
    ⟨checkRowIds_length hids, ?_⟩ fun _ => rfl
  intro column hcolumn
  obtain ⟨source, hsource, rfl⟩ := List.mem_map.mp hcolumn
  have hlength := (hclean source hsource).length
  unfold FeatureColumnF64.toTable FeatureColumnF64.cells
  rw [List.length_map, List.length_zipWith, ← hlength, Nat.min_self]
  exact hrows source hsource

/-- Whatever is done to a frame in memory, its readers get what is left of its table. -/
theorem frame_views_mean
    (hclip : ∀ value : F, FloatOps.isFinite value = true → FloatOps.isFinite (clip value) = true)
    {head : FeatureFrameHead F A} {columns : List (FeatureColumnF64 F)}
    (hmemory : InMemory authority nan head columns) {ops : List (FrameOp F)}
    (hruns : runOps authority nan ops (inMemory head columns) = .ok frame) :
    (∀ selected range batch, frame.projectColumns nan selected range = .ok batch ↔
      frame.validateProjection selected range = .ok () ∧
        (tableAfter nan ops (FeatureFrame.table head columns)).read selected range.rows =
          some batch) ∧
    (∀ host start stop matrix, frame.denseWindow nan host start stop = .ok matrix →
      ∃ batch, (tableAfter nan ops (FeatureFrame.table head columns)).read
          (List.range frame.nFeatures) (RowRange.rows ⟨start, stop⟩) = some batch ∧
        matrix = batch.dense (stop - start) frame.nFeatures) ∧
    ∀ name column, frame.rawModelColumn nan name = .ok column →
      ∃ index source, frame.names.findIdx? (· = name) = some index ∧
        (rawAfter nan ops (FeatureFrame.table head columns)).columns[index]? = some source ∧
        source.read (List.range' 0 frame.nSamples) = some column := by
  have hmeans := runOps_means hclip hmemory.means hruns
  refine ⟨fun selected range batch => hmeans.projectColumns_iff, fun host start stop matrix h =>
    denseWindow_dense hmeans h, fun name column h => ?_⟩
  have hraw := hmeans.rawModelColumn_reads h
  rw [hmeans.rawSamples, ← hmeans.samples] at hraw
  exact hraw

def listAuthority : FeatureAuthority ℚ (List String) where
  finalOutputs plan := plan
  agrees _ := true
  normalizes _ := false
  select _ names := some names
  normalized _ state := some state.columnNames

def sampleFrameHead : FeatureFrameHead ℚ (List String) :=
  ⟨[1600000060000, 1600000120000, 1600000180000], ["close", "volume"], ["close", "volume"],
    .contiguous 7, none⟩

def sampleFrameColumns : List (FeatureColumnF64 ℚ) :=
  [⟨"close", [1, 0, 5], [.valid, .warmup, .valid]⟩,
    ⟨"volume", [4, 6, 8], [.valid, .valid, .valid]⟩]

def sampleFrameOps : List (FrameOp ℚ) :=
  [.fitted ⟨3, 2, ["volume", "close"],
      [⟨⟨0, 3⟩, 6, 2, 3, false⟩, ⟨⟨0, 3⟩, 3, 4, 2, false⟩]⟩,
    .sharedSelectRows [0, 2], .selectColumns [1]]

def sampleFrameBatch : VortexFeatureBatch ℚ :=
  ⟨[1600000060000, 1600000180000], [7, 9], [⟨"close", [-1/2, 1/2], [.valid, .valid]⟩]⟩

theorem sampleFrame_inMemory : InMemory listAuthority 0 sampleFrameHead sampleFrameColumns := by
  have hbuilt : ((buildWithAuthority listAuthority
      (inMemory sampleFrameHead sampleFrameColumns)).toOption.isSome) = true := by decide +kernel
  cases hbuild : buildWithAuthority listAuthority (inMemory sampleFrameHead sampleFrameColumns) with
  | error error =>
    rw [hbuild] at hbuilt
    cases hbuilt
  | ok next =>
    obtain ⟨rfl, -⟩ := buildWithAuthority_ok hbuild
    refine ⟨hbuild, ?_⟩
    intro column hcolumn
    have hnew : ∀ column ∈ sampleFrameColumns, FeatureColumnF64.new 0 column.name column.values
        column.validity = .ok column := by decide +kernel
    exact ⟨column.values, column.validity, hnew column hcolumn⟩

theorem sampleFrame_views_mean : ∃ frame,
    runOps listAuthority 0 sampleFrameOps (inMemory sampleFrameHead sampleFrameColumns) =
      .ok frame ∧
    (frame.projectColumns 0 [0] ⟨0, 2⟩ = .ok sampleFrameBatch ↔
      frame.validateProjection [0] ⟨0, 2⟩ = .ok () ∧
        (tableAfter 0 sampleFrameOps (FeatureFrame.table sampleFrameHead sampleFrameColumns)).read
            [0] [0, 1] = some sampleFrameBatch) := by
  have hruns : ((runOps listAuthority 0 sampleFrameOps
      (inMemory sampleFrameHead sampleFrameColumns)).toOption.isSome) = true := by decide +kernel
  cases hrun : runOps listAuthority 0 sampleFrameOps
      (inMemory sampleFrameHead sampleFrameColumns) with
  | error error =>
    rw [hrun] at hruns
    cases hruns
  | ok frame =>
    exact ⟨frame, rfl, (frame_views_mean (fun _ _ => rfl) sampleFrame_inMemory hrun).1 [0] ⟨0, 2⟩ _⟩

example : ((runOps listAuthority 0 sampleFrameOps
      (inMemory sampleFrameHead sampleFrameColumns)).toOption.bind fun frame =>
        (frame.projectColumns 0 [0] ⟨0, 2⟩).toOption) =
    some sampleFrameBatch := by
  decide +kernel

end FeatureFrame

end Neoethos
