import Neoethos.AcquisitionStore

namespace Neoethos

open Fallible (bind_ok_iff check_ok_iff refuse_ok_iff require_ok_iff mapM_ok_iff mapError_ok_iff
  map_ok_iff forM_ok_iff)

section Grid

variable {α β : Type*} {xs : List α} {ys : List β}

/-- The flat index of a grid cell is its row times the width plus its column. -/
theorem getElem?_pairs (hys : ys ≠ []) (i : Nat) :
    (xs.flatMap fun x => ys.map (x, ·))[i]? = (xs[i / ys.length]?).bind fun x =>
      (ys[i % ys.length]?).map (x, ·) := by
  have hpos : 0 < ys.length := List.length_pos_iff.mpr hys
  induction xs generalizing i with
  | nil => rfl
  | cons x xs ih =>
    rw [List.flatMap_cons]
    by_cases hi : i < ys.length
    · rw [List.getElem?_append_left (by simpa using hi), List.getElem?_map, Nat.div_eq_of_lt hi,
        Nat.mod_eq_of_lt hi]
      rfl
    · have hle : ys.length ≤ i := by omega
      rw [List.getElem?_append_right (by simpa using hle), List.length_map, ih,
        ← Nat.mod_eq_sub_mod hle, Nat.div_eq_sub_div hpos hle]
      rfl

theorem length_pairs : (xs.flatMap fun x => ys.map (x, ·)).length = xs.length * ys.length := by
  induction xs with
  | nil => simp
  | cons x xs ih =>
    rw [List.flatMap_cons, List.length_append, ih, List.length_map, List.length_cons]
    ring

end Grid

namespace CanonicalTrendbarAcquisitionPlan

variable {plan : CanonicalTrendbarAcquisitionPlan}

theorem expectedCell_eq (index : Nat) : plan.expectedCell index = plan.grid[index]? := by
  unfold expectedCell grid
  split
  next hempty => simp [hempty]
  next hsome =>
    rw [getElem?_pairs hsome]
    cases plan.symbols[index / plan.timeframes.length]? with
    | none => rfl
    | some symbol => cases plan.timeframes[index % plan.timeframes.length]? <;> rfl

theorem length_grid : plan.grid.length = plan.cellCount := length_pairs

theorem grid_getElem? {symbolIndex i : Nat} (hi : i < plan.timeframes.length) :
    plan.grid[symbolIndex * plan.timeframes.length + i]? =
      (plan.symbols[symbolIndex]?).map (·, plan.timeframes[i]) := by
  have hne : plan.timeframes ≠ [] := List.length_pos_iff.mp (by omega)
  unfold grid
  rw [getElem?_pairs hne, Nat.mul_comm, Nat.mul_add_div (by omega), Nat.div_eq_of_lt hi,
    Nat.mul_add_mod, Nat.mod_eq_of_lt hi, List.getElem?_eq_getElem hi]
  cases plan.symbols[symbolIndex + 0]? <;> rfl

theorem checkTimeframes_ok {previous : Option CanonicalTimeframe}
    {timeframes : List CanonicalTimeframe} (h : checkTimeframes previous timeframes = .ok ()) :
    timeframes.Pairwise (·.rank < ·.rank) ∧
      ∀ timeframe ∈ timeframes, ∀ before ∈ previous, before.rank < timeframe.rank := by
  induction timeframes generalizing previous with
  | nil => exact ⟨List.Pairwise.nil, fun _ hmem => absurd hmem List.not_mem_nil⟩
  | cons first rest ih =>
    obtain ⟨horder, h⟩ := check_ok_iff.mp h
    obtain ⟨hrest, hbehind⟩ := ih h
    have horder := refuse_ok_iff.mp horder
    have hfirst (before : CanonicalTimeframe) (hbefore : before ∈ previous) :
        before.rank < first.rank := by
      by_contra hnot
      exact horder ⟨before, hbefore, by omega⟩
    refine ⟨List.pairwise_cons.mpr ⟨fun later hlater => hbehind later hlater first rfl, hrest⟩, ?_⟩
    intro timeframe hmem before hbefore
    obtain rfl | hmem := List.mem_cons.mp hmem
    · exact hfirst before hbefore
    · exact (hfirst before hbefore).trans (hbehind timeframe hmem first rfl)

theorem validate_ok (h : plan.validate = .ok ()) :
    plan.symbols ≠ [] ∧ plan.timeframes ≠ [] ∧ plan.timeframes.Pairwise (·.rank < ·.rank) := by
  obtain ⟨_, h⟩ := check_ok_iff.mp h
  obtain ⟨_, h⟩ := check_ok_iff.mp h
  obtain ⟨_, h⟩ := check_ok_iff.mp h
  obtain ⟨_, h⟩ := check_ok_iff.mp h
  obtain ⟨hsymbols, h⟩ := check_ok_iff.mp h
  obtain ⟨htimeframes, h⟩ := check_ok_iff.mp h
  obtain ⟨_, h⟩ := check_ok_iff.mp h
  have hsymbols := refuse_ok_iff.mp hsymbols
  have htimeframes := refuse_ok_iff.mp htimeframes
  exact ⟨fun hempty => hsymbols (.inl hempty), fun hempty => htimeframes (.inl hempty),
    (checkTimeframes_ok h).1⟩

theorem expectedIdentity_ok {symbol : CanonicalTrendbarSymbol} {timeframe : CanonicalTimeframe}
    {identity : CanonicalDatasetIdentity}
    (h : plan.expectedIdentity symbol timeframe = .ok identity) :
    identity = ⟨.cTrader plan.environment plan.server plan.accountId symbol.symbolId,
      symbol.symbolName, timeframe, .barOpen⟩ := by
  obtain ⟨_, h⟩ := check_ok_iff.mp (mapError_ok_iff.mp h)
  exact (Except.ok.inj h).symm

end CanonicalTrendbarAcquisitionPlan

section Cells

variable {D : Type} [DecidableEq D] {codec : AcquisitionCodec D} {dataRoot : DataRoot}
  {store : AcquisitionStore D} {planReceipt : ContentReceipt D}
  {plan : CanonicalTrendbarAcquisitionPlan} {cells : List CanonicalTrendbarAcquisitionCell}

def FillsGrid (plan : CanonicalTrendbarAcquisitionPlan)
    (cells : List CanonicalTrendbarAcquisitionCell) : Prop :=
  List.Forall₂ (fun (symbol, timeframe) cell =>
    plan.expectedIdentity symbol timeframe = .ok cell.selectedGeneration.identity)
    (plan.grid.take cells.length) cells

theorem FillsGrid.getElem (h : FillsGrid plan cells) {i : Nat}
    {cell : CanonicalTrendbarAcquisitionCell} (hcell : cells[i]? = some cell) :
    ∃ symbol timeframe, plan.grid[i]? = some (symbol, timeframe) ∧
      plan.expectedIdentity symbol timeframe = .ok cell.selectedGeneration.identity := by
  obtain ⟨hi, rfl⟩ := List.getElem?_eq_some_iff.mp hcell
  have hgrid : i < (plan.grid.take cells.length).length := by rw [h.length_eq]; exact hi
  refine ⟨_, _, ?_, List.Forall₂.get h hgrid hi⟩
  rw [List.get_eq_getElem, List.getElem_take]
  exact List.getElem?_eq_getElem _

theorem fillsGrid_of_get (hlength : cells.length ≤ plan.cellCount)
    (h : ∀ (i : Nat) (cell : CanonicalTrendbarAcquisitionCell), cells[i]? = some cell →
      ∃ symbol timeframe,
      plan.grid[i]? = some (symbol, timeframe) ∧
        plan.expectedIdentity symbol timeframe = .ok cell.selectedGeneration.identity) :
    FillsGrid plan cells := by
  have hgrid : plan.grid.length = plan.cellCount := CanonicalTrendbarAcquisitionPlan.length_grid
  refine List.forall₂_iff_get.mpr ⟨by rw [List.length_take]; omega, ?_⟩
  intro i _ hi
  obtain ⟨symbol, timeframe, hplace, hidentity⟩ := h i cells[i] (List.getElem?_eq_getElem hi)
  have hget : (plan.grid.take cells.length).get ⟨i, by rw [List.length_take]; omega⟩ =
      (symbol, timeframe) := by
    rw [List.get_eq_getElem, List.getElem_take]
    exact (List.getElem?_eq_some_iff.mp hplace).2
  rw [hget]
  exact hidentity

theorem validateCompletedCell_ok {symbol : CanonicalTrendbarSymbol}
    {timeframe : CanonicalTimeframe} {cell : CanonicalTrendbarAcquisitionCell}
    (h : validateCompletedCell dataRoot plan symbol timeframe cell = .ok ()) :
    plan.expectedIdentity symbol timeframe = .ok cell.selectedGeneration.identity := by
  obtain ⟨identity, hidentity, h⟩ := bind_ok_iff.mp h
  obtain ⟨hsame, _⟩ := check_ok_iff.mp h
  rw [hidentity, not_not.mp (refuse_ok_iff.mp hsame)]

theorem validateCheckpoint_ok {checkpoint : CanonicalTrendbarAcquisitionCheckpoint D}
    (h : validateCheckpoint codec dataRoot store planReceipt plan checkpoint = .ok ()) :
    checkpoint.planSha256 = planReceipt.sha256 ∧
      checkpoint.completedCells.length ≤ plan.cellCount ∧
      FillsGrid plan checkpoint.completedCells ∧
      checkPredecessor codec store planReceipt checkpoint = .ok () := by
  obtain ⟨hplan, h⟩ := check_ok_iff.mp h
  obtain ⟨hlength, h⟩ := check_ok_iff.mp h
  obtain ⟨hcells, hpredecessor⟩ := check_ok_iff.mp h
  have hlength : checkpoint.completedCells.length ≤ plan.cellCount :=
    not_lt.mp (refuse_ok_iff.mp hlength)
  refine ⟨not_not.mp (refuse_ok_iff.mp hplan), hlength, fillsGrid_of_get hlength ?_, hpredecessor⟩
  intro i cell hcell
  have hmem : (cell, i) ∈ checkpoint.completedCells.zipIdx :=
    List.mem_zipIdx_iff_getElem?.mpr hcell
  obtain ⟨⟨symbol, timeframe⟩, hplace, hvalid⟩ := bind_ok_iff.mp (forM_ok_iff.mp hcells _ hmem)
  rw [CanonicalTrendbarAcquisitionPlan.expectedCell_eq] at hplace
  exact ⟨symbol, timeframe, require_ok_iff.mp hplace, validateCompletedCell_ok hvalid⟩

end Cells

/-- JSON reads back what it wrote, and no two contents share a digest. -/
structure AcquisitionCodec.Lawful {D : Type} (codec : AcquisitionCodec D) : Prop where
  sha256_injective : Function.Injective codec.sha256
  plan : ∀ wire bytes, codec.encodePlan wire = .ok bytes → codec.decodePlan bytes = .ok wire
  checkpoint : ∀ wire bytes, codec.encodeCheckpoint wire = .ok bytes →
    codec.decodeCheckpoint bytes = .ok wire
  matrix : ∀ wire bytes, codec.encodeMatrix wire = .ok bytes → codec.decodeMatrix bytes = .ok wire

section Documents

variable {D : Type} {codec : AcquisitionCodec D}

namespace SelectedDatasetGeneration

theorem deserialize_of_serialize {receipt : SelectedDatasetGeneration}
    {wire : SelectedDatasetGenerationWire} (h : receipt.serialize codec = .ok wire) :
    deserialize codec wire = .ok receipt := by
  obtain ⟨hvalid, h⟩ := check_ok_iff.mp h
  obtain rfl := Except.ok.inj h
  obtain ⟨decoded, hdecoded, hrest⟩ := bind_ok_iff.mp hvalid
  obtain ⟨hsame, _⟩ := check_ok_iff.mp hrest
  obtain rfl := not_not.mp (refuse_ok_iff.mp hsame)
  refine check_ok_iff.mpr ⟨refuse_ok_iff.mpr (by simp), bind_ok_iff.mpr ⟨_, hdecoded, ?_⟩⟩
  exact check_ok_iff.mpr ⟨hvalid, rfl⟩

end SelectedDatasetGeneration

namespace CanonicalDatasetSeriesReceipt

variable {anchor : SelectedDatasetGeneration} {direct : List SelectedDatasetGeneration}

theorem ascending_of_checkDirect {seen : List CanonicalTimeframe}
    {previous : Option CanonicalTimeframe} {contains found : Bool}
    (h : checkDirect codec anchor seen previous contains direct = .ok found) :
    direct.Pairwise (fun left right =>
      left.identity.timeframe.rank < right.identity.timeframe.rank) ∧
      ∀ receipt ∈ direct, ∀ before ∈ previous, before.rank < receipt.identity.timeframe.rank := by
  induction direct generalizing seen previous contains with
  | nil => exact ⟨List.Pairwise.nil, fun _ hmem => absurd hmem List.not_mem_nil⟩
  | cons first rest ih =>
    obtain ⟨_, h⟩ := check_ok_iff.mp h
    obtain ⟨_, h⟩ := check_ok_iff.mp h
    obtain ⟨_, h⟩ := check_ok_iff.mp h
    obtain ⟨horder, h⟩ := check_ok_iff.mp h
    obtain ⟨_, h⟩ := check_ok_iff.mp h
    obtain ⟨hrest, hbehind⟩ := ih h
    have horder := refuse_ok_iff.mp horder
    have hfirst (before : CanonicalTimeframe) (hbefore : before ∈ previous) :
        before.rank < first.identity.timeframe.rank := by
      by_contra hnot
      exact horder ⟨before, hbefore, by omega⟩
    refine ⟨List.pairwise_cons.mpr ⟨fun later hlater => hbehind later hlater _ rfl, hrest⟩, ?_⟩
    intro receipt hmem before hbefore
    obtain rfl | hmem := List.mem_cons.mp hmem
    · exact hfirst before hbefore
    · exact (hfirst before hbefore).trans (hbehind receipt hmem _ rfl)

/-- Nothing is refused of ascending generations of the anchor's own series. -/
theorem checkDirect_of_ascending {seen : List CanonicalTimeframe}
    {previous : Option CanonicalTimeframe} {contains : Bool}
    (hvalid : ∀ receipt ∈ direct, receipt.validate codec = .ok ())
    (hseries : ∀ receipt ∈ direct, receipt.identity.scope = anchor.identity.scope ∧
      receipt.identity.symbolName = anchor.identity.symbolName ∧
      receipt.identity.barTimestampConvention = anchor.identity.barTimestampConvention)
    (hseen : ∀ receipt ∈ direct, receipt.identity.timeframe ∉ seen)
    (hbehind : ∀ receipt ∈ direct, ∀ before ∈ previous,
      before.rank < receipt.identity.timeframe.rank)
    (horder : direct.Pairwise fun left right =>
      left.identity.timeframe.rank < right.identity.timeframe.rank)
    (hanchor : ∀ receipt ∈ direct, receipt.identity = anchor.identity → receipt = anchor) :
    checkDirect codec anchor seen previous contains direct =
      .ok (contains || direct.any fun receipt => decide (receipt.identity = anchor.identity)) := by
  induction direct generalizing seen previous contains with
  | nil => simp [checkDirect]
  | cons first rest ih =>
    obtain ⟨hlater, horder⟩ := List.pairwise_cons.mp horder
    obtain ⟨hvalid, hvalids⟩ := List.forall_mem_cons.mp hvalid
    obtain ⟨hsame, hsames⟩ := List.forall_mem_cons.mp hseries
    obtain ⟨hnew, hnews⟩ := List.forall_mem_cons.mp hseen
    obtain ⟨hfirst, _⟩ := List.forall_mem_cons.mp hbehind
    obtain ⟨hexact, hexacts⟩ := List.forall_mem_cons.mp hanchor
    rw [List.any_cons, ← Bool.or_assoc]
    refine check_ok_iff.mpr ⟨hvalid, check_ok_iff.mpr ⟨refuse_ok_iff.mpr (not_not.mpr hsame), ?_⟩⟩
    refine check_ok_iff.mpr ⟨refuse_ok_iff.mpr hnew, check_ok_iff.mpr ⟨refuse_ok_iff.mpr ?_, ?_⟩⟩
    · intro hout
      obtain ⟨before, hbefore, hle⟩ := hout
      have hlt := hfirst before hbefore
      omega
    · refine check_ok_iff.mpr ⟨refuse_ok_iff.mpr fun hboth => hboth.2 (hexact hboth.1), ?_⟩
      apply ih hvalids hsames _ _ horder hexacts
      · intro receipt hmem hin
        obtain heq | hin := List.mem_cons.mp hin
        · have hlt := hlater receipt hmem
          rw [heq] at hlt
          omega
        · exact hnews receipt hmem hin
      · intro receipt hmem before hbefore
        obtain rfl := Option.some.inj hbefore
        exact hlater receipt hmem

theorem new_of_ascending
    (horder : direct.Pairwise fun left right =>
      left.identity.timeframe.rank < right.identity.timeframe.rank)
    (hvalid : (⟨anchor, direct⟩ : CanonicalDatasetSeriesReceipt).validate codec = .ok ()) :
    new codec anchor direct = .ok ⟨anchor, direct⟩ := by
  have hsorted : direct.insertionSort (fun left right =>
      left.identity.timeframe.rank ≤ right.identity.timeframe.rank) = direct :=
    (horder.imp fun hlt => hlt.le).insertionSort_eq
  unfold new
  rw [hsorted]
  exact check_ok_iff.mpr ⟨hvalid, rfl⟩

theorem validate_of_ascending {rest : List SelectedDatasetGeneration}
    {scope : CanonicalDatasetScope} {name : String} {convention : BarTimestampConvention}
    (horder : (anchor :: rest).Pairwise fun left right =>
      left.identity.timeframe.rank < right.identity.timeframe.rank)
    (hvalid : ∀ receipt ∈ anchor :: rest, receipt.validate codec = .ok ())
    (hseries : ∀ receipt ∈ anchor :: rest, receipt.identity.scope = scope ∧
      receipt.identity.symbolName = name ∧
      receipt.identity.barTimestampConvention = convention) :
    (⟨anchor, anchor :: rest⟩ : CanonicalDatasetSeriesReceipt).validate codec = .ok () := by
  obtain ⟨hscope, hname, hconvention⟩ := hseries anchor List.mem_cons_self
  have hfound : checkDirect codec anchor [] none false (anchor :: rest) =
      .ok (false || (anchor :: rest).any fun receipt =>
        decide (receipt.identity = anchor.identity)) := by
    apply checkDirect_of_ascending hvalid
    · intro receipt hmem
      rw [hscope, hname, hconvention]
      exact hseries receipt hmem
    · exact fun _ _ => List.not_mem_nil
    · exact fun _ _ _ hnone => absurd hnone (Option.not_mem_none _)
    · exact horder
    · intro receipt hmem hsame
      obtain rfl | hmem := List.mem_cons.mp hmem
      · rfl
      · have hlt := List.rel_of_pairwise_cons horder hmem
        rw [hsame] at hlt
        omega
  refine check_ok_iff.mpr ⟨hvalid anchor List.mem_cons_self, ?_⟩
  refine check_ok_iff.mpr ⟨refuse_ok_iff.mpr (List.cons_ne_nil _ _), ?_⟩
  exact bind_ok_iff.mpr ⟨_, hfound, refuse_ok_iff.mpr (by simp)⟩

theorem ascending_of_validate {receipt : CanonicalDatasetSeriesReceipt}
    (h : receipt.validate codec = .ok ()) : receipt.directTimeframes.Pairwise fun left right =>
      left.identity.timeframe.rank < right.identity.timeframe.rank := by
  obtain ⟨_, h⟩ := check_ok_iff.mp h
  obtain ⟨_, h⟩ := check_ok_iff.mp h
  obtain ⟨found, hfound, _⟩ := bind_ok_iff.mp h
  exact (ascending_of_checkDirect hfound).1

theorem deserialize_of_serialize {receipt : CanonicalDatasetSeriesReceipt}
    {wire : CanonicalDatasetSeriesReceiptWire} (h : receipt.serialize codec = .ok wire) :
    deserialize codec wire = .ok receipt := by
  obtain ⟨hvalid, h⟩ := check_ok_iff.mp h
  obtain ⟨anchorWire, hanchor, h⟩ := bind_ok_iff.mp h
  obtain ⟨directWires, hdirect, h⟩ := bind_ok_iff.mp h
  obtain rfl := Except.ok.inj h
  have horder := ascending_of_validate hvalid
  have hanchor := SelectedDatasetGeneration.deserialize_of_serialize hanchor
  have hdirect := Fallible.mapM_inverse
    (fun _ _ => SelectedDatasetGeneration.deserialize_of_serialize) hdirect
  refine bind_ok_iff.mpr ⟨_, hanchor, bind_ok_iff.mpr ⟨_, hdirect, ?_⟩⟩
  refine check_ok_iff.mpr ⟨refuse_ok_iff.mpr (by simp), bind_ok_iff.mpr ⟨receipt, ?_, ?_⟩⟩
  · exact new_of_ascending horder hvalid
  · exact check_ok_iff.mpr ⟨refuse_ok_iff.mpr (by simp), rfl⟩

end CanonicalDatasetSeriesReceipt

end Documents

section Matrix

variable {D : Type} {codec : AcquisitionCodec D} {plan : CanonicalTrendbarAcquisitionPlan}
  {cells : List CanonicalTrendbarAcquisitionCell} {symbolIndex : Nat}
  {symbol : CanonicalTrendbarSymbol}

def symbolCells (plan : CanonicalTrendbarAcquisitionPlan)
    (cells : List CanonicalTrendbarAcquisitionCell) (symbolIndex : Nat) :
    List SelectedDatasetGeneration :=
  ((cells.drop (symbolIndex * plan.timeframes.length)).take plan.timeframes.length).map
    (·.selectedGeneration)

/-- A series holds exactly the cells of a symbol, in timeframe order. -/
structure SeriesOf (plan : CanonicalTrendbarAcquisitionPlan)
    (cells : List CanonicalTrendbarAcquisitionCell) (symbolIndex : Nat)
    (symbol : CanonicalTrendbarSymbol) (series : CanonicalDatasetSeriesReceipt) : Prop where
  direct : series.directTimeframes = symbolCells plan cells symbolIndex
  anchor : series.directTimeframes.head? = some series.anchor
  identities : List.Forall₂ (fun timeframe generation =>
    plan.expectedIdentity symbol timeframe = .ok generation.identity) plan.timeframes
    series.directTimeframes

/-- The series of a matrix are those of the plan's symbols, one by one. -/
structure MatrixOf (plan : CanonicalTrendbarAcquisitionPlan)
    (cells : List CanonicalTrendbarAcquisitionCell) (matrix : CanonicalTrendbarMatrix D) :
    Prop where
  length : matrix.series.length = plan.symbols.length
  series : ∀ (symbolIndex : Nat) (symbol : CanonicalTrendbarSymbol),
    plan.symbols[symbolIndex]? = some symbol →
    ∃ series, matrix.series[symbolIndex]? = some series ∧
      SeriesOf plan cells symbolIndex symbol series

theorem symbolCells_identities (hfills : FillsGrid plan cells)
    (hcomplete : cells.length = plan.cellCount)
    (hsymbol : plan.symbols[symbolIndex]? = some symbol) :
    List.Forall₂ (fun timeframe generation =>
      plan.expectedIdentity symbol timeframe = .ok generation.identity) plan.timeframes
      (symbolCells plan cells symbolIndex) := by
  obtain ⟨hindex, _⟩ := List.getElem?_eq_some_iff.mp hsymbol
  have hroom : symbolIndex * plan.timeframes.length + plan.timeframes.length ≤ cells.length := by
    rw [hcomplete]
    calc symbolIndex * plan.timeframes.length + plan.timeframes.length
        = (symbolIndex + 1) * plan.timeframes.length := by ring
      _ ≤ plan.symbols.length * plan.timeframes.length := Nat.mul_le_mul_right _ hindex
  have hlength : (symbolCells plan cells symbolIndex).length = plan.timeframes.length := by
    unfold symbolCells
    rw [List.length_map, List.length_take, List.length_drop]
    omega
  refine List.forall₂_iff_get.mpr ⟨hlength.symm, ?_⟩
  intro i hi hdirect
  have hinside : symbolIndex * plan.timeframes.length + i < cells.length := by omega
  obtain ⟨found, timeframe, hplace, hidentity⟩ :=
    hfills.getElem (List.getElem?_eq_getElem hinside)
  rw [CanonicalTrendbarAcquisitionPlan.grid_getElem? hi, hsymbol] at hplace
  obtain ⟨rfl, rfl⟩ := Prod.mk.inj (Option.some.inj hplace)
  rw [List.get_eq_getElem, List.get_eq_getElem]
  unfold symbolCells
  rw [List.getElem_map, List.getElem_take, List.getElem_drop]
  exact hidentity

theorem timeframes_of_identities {timeframes : List CanonicalTimeframe}
    {direct : List SelectedDatasetGeneration}
    (h : List.Forall₂ (fun timeframe generation =>
      plan.expectedIdentity symbol timeframe = .ok generation.identity) timeframes direct) :
    direct.map (·.identity.timeframe) = timeframes ∧ ∀ generation ∈ direct,
      generation.identity.scope = .cTrader plan.environment plan.server plan.accountId
        symbol.symbolId ∧ generation.identity.symbolName = symbol.symbolName ∧
        generation.identity.barTimestampConvention = .barOpen := by
  induction h with
  | nil => exact ⟨rfl, fun _ hmem => absurd hmem List.not_mem_nil⟩
  | cons hhead _ ih =>
    have hidentity := CanonicalTrendbarAcquisitionPlan.expectedIdentity_ok hhead
    refine ⟨by rw [List.map_cons, ih.1, hidentity], List.forall_mem_cons.mpr ⟨?_, ih.2⟩⟩
    rw [hidentity]
    exact ⟨rfl, rfl, rfl⟩

theorem buildSeries_of_complete {checkpoint : CanonicalTrendbarAcquisitionCheckpoint D}
    (hplan : plan.validate = .ok ()) (hfills : FillsGrid plan checkpoint.completedCells)
    (hvalid : checkpoint.validateBasic codec = .ok ())
    (hcomplete : checkpoint.completedCells.length = plan.cellCount)
    (hsymbol : plan.symbols[symbolIndex]? = some symbol) :
    ∃ series, buildSeries codec plan checkpoint symbolIndex = .ok series ∧
      series.validate codec = .ok () ∧
      SeriesOf plan checkpoint.completedCells symbolIndex symbol series := by
  obtain ⟨_, htimeframes, horder⟩ := CanonicalTrendbarAcquisitionPlan.validate_ok hplan
  have hidentities := symbolCells_identities hfills hcomplete hsymbol
  have hvalids : ∀ generation ∈ symbolCells plan checkpoint.completedCells symbolIndex,
      generation.validate codec = .ok () := by
    intro generation hmem
    obtain ⟨cell, hcell, rfl⟩ := List.mem_map.mp hmem
    exact forM_ok_iff.mp hvalid cell (List.mem_of_mem_drop (List.mem_of_mem_take hcell))
  obtain ⟨hnames, hplaces⟩ := timeframes_of_identities hidentities
  have hne : symbolCells plan checkpoint.completedCells symbolIndex ≠ [] := by
    intro hempty
    rw [hempty] at hnames
    exact htimeframes hnames.symm
  obtain ⟨anchor, rest, hcells⟩ := List.exists_cons_of_ne_nil hne
  have hascending : (symbolCells plan checkpoint.completedCells symbolIndex).Pairwise
      fun left right => left.identity.timeframe.rank < right.identity.timeframe.rank := by
    rw [← hnames] at horder
    refine (List.pairwise_map.mp horder).imp ?_
    intro _ _ hlt
    exact hlt
  rw [hcells] at hascending hvalids hplaces hidentities
  have hseries := CanonicalDatasetSeriesReceipt.validate_of_ascending hascending hvalids hplaces
  refine ⟨⟨anchor, anchor :: rest⟩, ?_, hseries, ⟨hcells.symm, rfl, hidentities⟩⟩
  unfold buildSeries
  change (Fallible.require (symbolCells plan checkpoint.completedCells symbolIndex).head?
    AcquisitionError.noAnchor >>= fun anchor => CanonicalDatasetSeriesReceipt.new codec anchor
      (symbolCells plan checkpoint.completedCells symbolIndex)) = _
  rw [hcells]
  exact CanonicalDatasetSeriesReceipt.new_of_ascending hascending hseries

theorem buildMatrix_of_complete [DecidableEq D] {planReceipt checkpointReceipt : ContentReceipt D}
    {checkpoint : CanonicalTrendbarAcquisitionCheckpoint D}
    (hplan : plan.validate = .ok ()) (hfills : FillsGrid plan checkpoint.completedCells)
    (hvalid : checkpoint.validateBasic codec = .ok ())
    (hcomplete : checkpoint.completedCells.length = plan.cellCount) :
    ∃ matrix, buildMatrix codec planReceipt checkpointReceipt plan checkpoint = .ok matrix ∧
      MatrixOf plan checkpoint.completedCells matrix := by
  have hbuilt (symbolIndex : Nat) (hmem : symbolIndex ∈ List.range plan.symbols.length) :
      ∃ series, buildSeries codec plan checkpoint symbolIndex = .ok series := by
    have hget := List.getElem?_eq_getElem (List.mem_range.mp hmem)
    obtain ⟨series, hseries, _⟩ := buildSeries_of_complete hplan hfills hvalid hcomplete hget
    exact ⟨series, hseries⟩
  obtain ⟨series, hseries⟩ := Fallible.exists_mapM_ok_iff.mpr hbuilt
  have hall := mapM_ok_iff.mp hseries
  have hlength : series.length = plan.symbols.length := by
    rw [← hall.length_eq, List.length_range]
  have hplace (symbolIndex : Nat) (symbol : CanonicalTrendbarSymbol)
      (hsymbol : plan.symbols[symbolIndex]? = some symbol) :
      ∃ found, series[symbolIndex]? = some found ∧ found.validate codec = .ok () ∧
        SeriesOf plan checkpoint.completedCells symbolIndex symbol found := by
    obtain ⟨hindex, _⟩ := List.getElem?_eq_some_iff.mp hsymbol
    obtain ⟨found, hfound, hok, hof⟩ :=
      buildSeries_of_complete hplan hfills hvalid hcomplete hsymbol
    have hget := List.Forall₂.get hall (by simpa using hindex) (by omega)
    rw [List.get_eq_getElem, List.get_eq_getElem, List.getElem_range, hfound] at hget
    exact ⟨found, by rw [List.getElem?_eq_getElem (by omega), Except.ok.inj hget], hok, hof⟩
  obtain ⟨hsymbols, _, _⟩ := CanonicalTrendbarAcquisitionPlan.validate_ok hplan
  refine ⟨⟨planReceipt.sha256, checkpointReceipt.sha256, series⟩, ?_, ⟨hlength, ?_⟩⟩
  · refine check_ok_iff.mpr ⟨refuse_ok_iff.mpr (not_not.mpr hcomplete),
      bind_ok_iff.mpr ⟨series, hseries, check_ok_iff.mpr ⟨check_ok_iff.mpr ⟨?_, ?_⟩, rfl⟩⟩⟩
    · refine refuse_ok_iff.mpr fun hempty => hsymbols (List.length_eq_zero_iff.mp ?_)
      rw [← hlength, show series = [] from hempty, List.length_nil]
    · refine forM_ok_iff.mpr fun found hmem => ?_
      have hmem : found ∈ series := hmem
      obtain ⟨symbolIndex, hindex, rfl⟩ := List.getElem_of_mem hmem
      obtain ⟨other, hother, hok, _⟩ := hplace symbolIndex _
        (List.getElem?_eq_getElem (by omega : symbolIndex < plan.symbols.length))
      rw [List.getElem?_eq_getElem hindex] at hother
      rw [Option.some.inj hother]
      exact hok
  · intro symbolIndex symbol hsymbol
    obtain ⟨found, hfound, _, hof⟩ := hplace symbolIndex symbol hsymbol
    exact ⟨found, hfound, hof⟩

theorem buildMatrix_ok [DecidableEq D] {planReceipt checkpointReceipt : ContentReceipt D}
    {checkpoint : CanonicalTrendbarAcquisitionCheckpoint D} {matrix : CanonicalTrendbarMatrix D}
    (h : buildMatrix codec planReceipt checkpointReceipt plan checkpoint = .ok matrix) :
    checkpoint.completedCells.length = plan.cellCount ∧
      matrix.planSha256 = planReceipt.sha256 ∧
      matrix.checkpointSha256 = checkpointReceipt.sha256 := by
  obtain ⟨hcomplete, h⟩ := check_ok_iff.mp h
  obtain ⟨series, _, h⟩ := bind_ok_iff.mp h
  obtain ⟨_, h⟩ := check_ok_iff.mp h
  obtain rfl := Except.ok.inj h
  exact ⟨not_not.mp (refuse_ok_iff.mp hcomplete), rfl, rfl⟩

end Matrix

section Documents

variable {D : Type} {codec : AcquisitionCodec D}

theorem CTraderEnvironment.asStr_injective : Function.Injective CTraderEnvironment.asStr := by
  intro left right h
  cases left <;> cases right <;> first | rfl | exact absurd h (by decide)

theorem CanonicalTimeframe.fromStr_asStr (timeframe : CanonicalTimeframe) :
    fromStr timeframe.asStr = some timeframe := by
  cases timeframe <;> rfl

theorem CanonicalTimeframe.asStr_injective : Function.Injective asStr := by
  intro left right h
  have hread := congrArg fromStr h
  rw [fromStr_asStr, fromStr_asStr] at hread
  exact Option.some.inj hread

namespace CanonicalTrendbarAcquisitionPlan

theorem fromJsonBytes_ok {plan : CanonicalTrendbarAcquisitionPlan} {bytes : List UInt8}
    (h : fromJsonBytes codec bytes = .ok plan) : plan.toJsonBytes codec = .ok bytes := by
  obtain ⟨_, h⟩ := check_ok_iff.mp h
  obtain ⟨wire, _, h⟩ := bind_ok_iff.mp h
  obtain ⟨_, h⟩ := check_ok_iff.mp h
  obtain ⟨_, h⟩ := check_ok_iff.mp h
  obtain ⟨_, _, h⟩ := bind_ok_iff.mp h
  obtain ⟨_, _, h⟩ := bind_ok_iff.mp h
  obtain ⟨_, _, h⟩ := bind_ok_iff.mp h
  obtain ⟨_, h⟩ := check_ok_iff.mp h
  obtain ⟨encoded, hencoded, h⟩ := bind_ok_iff.mp h
  obtain ⟨hsame, h⟩ := check_ok_iff.mp h
  obtain rfl := Except.ok.inj h
  rw [hencoded, not_not.mp (refuse_ok_iff.mp hsame)]

theorem toJsonBytes_injective (hlawful : codec.Lawful)
    {plan plan' : CanonicalTrendbarAcquisitionPlan} {bytes : List UInt8}
    (h : plan.toJsonBytes codec = .ok bytes) (h' : plan'.toJsonBytes codec = .ok bytes) :
    plan = plan' := by
  obtain ⟨_, h⟩ := check_ok_iff.mp h
  obtain ⟨_, h'⟩ := check_ok_iff.mp h'
  have hread := hlawful.plan _ _ (mapError_ok_iff.mp h)
  rw [hlawful.plan _ _ (mapError_ok_iff.mp h')] at hread
  obtain ⟨environment, server, accountId, fromMs, toMsExclusive, symbols, timeframes⟩ := plan
  obtain ⟨environment', server', accountId', fromMs', toMsExclusive', symbols', timeframes'⟩ :=
    plan'
  simp only [toWire, Except.ok.injEq, CanonicalTrendbarAcquisitionPlanWire.mk.injEq] at hread
  obtain ⟨_, _, henvironment, rfl, rfl, rfl, rfl, _, rfl, htimeframes⟩ := hread
  rw [CTraderEnvironment.asStr_injective henvironment,
    List.map_injective_iff.mpr CanonicalTimeframe.asStr_injective htimeframes]

end CanonicalTrendbarAcquisitionPlan

namespace CanonicalTrendbarAcquisitionCheckpoint

theorem fromJsonBytes_ok {checkpoint : CanonicalTrendbarAcquisitionCheckpoint D}
    {bytes : List UInt8} (h : fromJsonBytes codec bytes = .ok checkpoint) :
    checkpoint.toJsonBytes codec = .ok bytes := by
  obtain ⟨_, h⟩ := check_ok_iff.mp h
  obtain ⟨wire, _, h⟩ := bind_ok_iff.mp h
  obtain ⟨_, _, h⟩ := bind_ok_iff.mp h
  obtain ⟨_, h⟩ := check_ok_iff.mp h
  obtain ⟨_, _, h⟩ := bind_ok_iff.mp h
  obtain ⟨encoded, hencoded, h⟩ := bind_ok_iff.mp h
  obtain ⟨hsame, h⟩ := check_ok_iff.mp h
  obtain rfl := Except.ok.inj h
  rw [hencoded, not_not.mp (refuse_ok_iff.mp hsame)]

theorem toJsonBytes_injective (hlawful : codec.Lawful)
    {checkpoint checkpoint' : CanonicalTrendbarAcquisitionCheckpoint D} {bytes : List UInt8}
    (h : checkpoint.toJsonBytes codec = .ok bytes)
    (h' : checkpoint'.toJsonBytes codec = .ok bytes) : checkpoint = checkpoint' := by
  obtain ⟨_, h⟩ := check_ok_iff.mp h
  obtain ⟨wires, hwires, h⟩ := bind_ok_iff.mp h
  obtain ⟨_, h'⟩ := check_ok_iff.mp h'
  obtain ⟨wires', hwires', h'⟩ := bind_ok_iff.mp h'
  have hread := hlawful.checkpoint _ _ (mapError_ok_iff.mp h)
  rw [hlawful.checkpoint _ _ (mapError_ok_iff.mp h')] at hread
  simp only [Except.ok.injEq, CanonicalTrendbarAcquisitionCheckpointWire.mk.injEq] at hread
  obtain ⟨_, _, hplan, hprevious, rfl⟩ := hread
  have hinverse (cell : CanonicalTrendbarAcquisitionCell) (wire : SelectedDatasetGenerationWire)
      (hwire : cell.selectedGeneration.serialize codec = .ok wire) :
      (SelectedDatasetGeneration.deserialize codec wire).map CanonicalTrendbarAcquisitionCell.mk =
        .ok cell := by
    rw [SelectedDatasetGeneration.deserialize_of_serialize hwire]
    rfl
  have hcells := Fallible.mapM_inverse hinverse hwires
  rw [Fallible.mapM_inverse hinverse hwires'] at hcells
  obtain ⟨planSha256, previous, cells⟩ := checkpoint
  obtain ⟨planSha256', previous', cells'⟩ := checkpoint'
  rw [show planSha256' = planSha256 from hplan, show previous' = previous from hprevious,
    show cells' = cells from Except.ok.inj hcells]

end CanonicalTrendbarAcquisitionCheckpoint

namespace CanonicalTrendbarMatrix

theorem fromJsonBytes_ok {matrix : CanonicalTrendbarMatrix D} {bytes : List UInt8}
    (h : fromJsonBytes codec bytes = .ok matrix) : matrix.toJsonBytes codec = .ok bytes := by
  obtain ⟨_, h⟩ := check_ok_iff.mp h
  obtain ⟨wire, _, h⟩ := bind_ok_iff.mp h
  obtain ⟨_, _, h⟩ := bind_ok_iff.mp h
  obtain ⟨_, h⟩ := check_ok_iff.mp h
  obtain ⟨_, _, h⟩ := bind_ok_iff.mp h
  obtain ⟨encoded, hencoded, h⟩ := bind_ok_iff.mp h
  obtain ⟨hsame, h⟩ := check_ok_iff.mp h
  obtain rfl := Except.ok.inj h
  rw [hencoded, not_not.mp (refuse_ok_iff.mp hsame)]

/-- A matrix that is written within the size limit is read back. -/
theorem fromJsonBytes_of_toJsonBytes (hlawful : codec.Lawful) {matrix : CanonicalTrendbarMatrix D}
    {bytes : List UInt8} (h : matrix.toJsonBytes codec = .ok bytes)
    (hbounded : bytes.length ≤ MAX_AUTHORITY_BYTES) :
    fromJsonBytes codec bytes = .ok matrix := by
  obtain ⟨hvalid, hrest⟩ := check_ok_iff.mp h
  obtain ⟨wires, hwires, hencoded⟩ := bind_ok_iff.mp hrest
  have hread := hlawful.matrix _ _ (mapError_ok_iff.mp hencoded)
  have hseries := Fallible.mapM_inverse
    (fun _ _ => CanonicalDatasetSeriesReceipt.deserialize_of_serialize) hwires
  refine check_ok_iff.mpr ⟨refuse_ok_iff.mpr (not_lt.mpr hbounded), ?_⟩
  refine bind_ok_iff.mpr ⟨_, mapError_ok_iff.mpr hread, bind_ok_iff.mpr ⟨_, hseries, ?_⟩⟩
  refine check_ok_iff.mpr ⟨refuse_ok_iff.mpr (by simp), ?_⟩
  refine bind_ok_iff.mpr ⟨matrix, check_ok_iff.mpr ⟨hvalid, rfl⟩, ?_⟩
  exact bind_ok_iff.mpr ⟨bytes, h, check_ok_iff.mpr ⟨refuse_ok_iff.mpr (by simp), rfl⟩⟩

theorem toJsonBytes_injective (hlawful : codec.Lawful) {matrix matrix' : CanonicalTrendbarMatrix D}
    {bytes : List UInt8} (h : matrix.toJsonBytes codec = .ok bytes)
    (h' : matrix'.toJsonBytes codec = .ok bytes)
    (hbounded : bytes.length ≤ MAX_AUTHORITY_BYTES) : matrix = matrix' := by
  have hread := fromJsonBytes_of_toJsonBytes hlawful h hbounded
  rw [fromJsonBytes_of_toJsonBytes hlawful h' hbounded] at hread
  exact (Except.ok.inj hread).symm

end CanonicalTrendbarMatrix

end Documents

end Neoethos
