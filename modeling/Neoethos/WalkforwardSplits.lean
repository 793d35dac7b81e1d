import Neoethos.WalkforwardWindow

namespace Neoethos

open Fallible (bind_ok_iff check_ok_iff map_ok_iff mapM_ok_iff refuse_ok_iff)

variable {F : Type} [FloatOps F] {world : WalkforwardWorld F}

namespace WalkforwardInput

variable {input : WalkforwardInput F} {gene : WalkforwardGene F}

/-- Every split has enough rows to train on and enough to test on. -/
def SplitsQualify (input : WalkforwardInput F) : Prop :=
  input.trainRows + input.embargoBars < input.window ∧ 40 ≤ input.trainRows ∧
    40 ≤ input.window - (input.trainRows + input.embargoBars)

def SeriesValid (input : WalkforwardInput F) : Prop :=
  input.LengthsMatch ∧ input.nSplits ≠ 0 ∧ input.trainRatioOk = true

def GeneValid (world : WalkforwardWorld F) (input : WalkforwardInput F) (gene : WalkforwardGene F) :
    Prop :=
  gene.signals.length = input.close.length ∧
    validateSizingConfidences world.runtime input.close.length gene.confidences gene.settings =
      .ok ⟨⟩ ∧
    input.balanceMatches world gene.settings = true

omit [FloatOps F] in
theorem windowEnd_eq {i : Nat} (hwindow : 80 ≤ input.window) (hi : i < input.nSplits) :
    input.windowEnd i = i * input.window + input.window := by
  have hfloor : input.window = input.close.length / input.nSplits := by
    unfold window at hwindow ⊢
    omega
  have hrows : input.nSplits * input.window ≤ input.close.length := by
    rw [hfloor]
    exact Nat.mul_div_le _ _
  have hsplit : (i + 1) * input.window ≤ input.nSplits * input.window :=
    Nat.mul_le_mul_right _ hi
  unfold windowEnd
  rw [Nat.min_eq_left (by omega), Nat.succ_mul]

theorem splitOutcome_of_qualify {i : Nat} (hwindow : 80 ≤ input.window) (hi : i < input.nSplits)
    (h : input.SplitsQualify) :
    input.splitOutcome world gene i = (input.evaluateSplit world gene i).map some := by
  obtain ⟨hroom, htrain, htest⟩ := h
  unfold splitOutcome
  rw [windowEnd_eq hwindow hi, if_neg]
  unfold testStart trainEnd
  omega

theorem splitOutcome_of_not_qualify {i : Nat} (hwindow : 80 ≤ input.window)
    (hi : i < input.nSplits) (h : ¬input.SplitsQualify) :
    input.splitOutcome world gene i = .ok none := by
  unfold SplitsQualify at h
  unfold splitOutcome
  rw [windowEnd_eq hwindow hi, if_pos]
  unfold testStart trainEnd
  omega

theorem splitResults_of_qualify {results : List (WalkforwardSplitResult F)}
    (hwindow : 80 ≤ input.window) (h : input.SplitsQualify) :
    input.splitResults world gene = .ok results ↔
      (List.range input.nSplits).mapM (input.evaluateSplit world gene) = .ok results := by
  have hsame : (List.range input.nSplits).mapM (input.splitOutcome world gene) =
      (List.range input.nSplits).mapM fun i => (input.evaluateSplit world gene i).map some := by
    refine Fallible.mapM_congr ?_
    intro i hi
    exact splitOutcome_of_qualify hwindow (List.mem_range.mp hi) h
  unfold splitResults
  rw [if_neg (by omega), hsame, map_ok_iff]
  constructor
  · intro hok
    obtain ⟨outcomes, houtcomes, rfl⟩ := hok
    obtain ⟨splits, hsplits, rfl⟩ := Fallible.mapM_map_ok_iff.mp houtcomes
    rw [hsplits, List.filterMap_map]
    congr 1
    exact List.filterMap_some.symm
  · intro hok
    refine ⟨results.map some, Fallible.mapM_map_ok_iff.mpr ⟨results, hok, rfl⟩, ?_⟩
    rw [List.filterMap_map]
    exact List.filterMap_some

theorem splitResults_of_not_qualify (h : ¬(80 ≤ input.window ∧ input.SplitsQualify)) :
    input.splitResults world gene = .ok [] := by
  unfold splitResults
  by_cases hwindow : input.window < 80
  · rw [if_pos hwindow]
  · have hnone : (List.range input.nSplits).mapM (input.splitOutcome world gene) =
        .ok ((List.range input.nSplits).map fun _ => none) := by
      rw [mapM_ok_iff, List.forall₂_map_right_iff, List.forall₂_same]
      intro i hi
      refine splitOutcome_of_not_qualify (by omega) (List.mem_range.mp hi) ?_
      intro hqualify
      exact h ⟨by omega, hqualify⟩
    rw [if_neg hwindow, hnone]
    simp [Except.map]

theorem evaluateSplit_split {i : Nat} {result : WalkforwardSplitResult F}
    (h : input.evaluateSplit world gene i = .ok result) : result.split = i + 1 := by
  rw [evaluateSplit_eq, map_ok_iff] at h
  obtain ⟨row, -, rfl⟩ := h
  rfl

/-- The results come in the order of the splits, so sorting them changes nothing. -/
theorem mergeSort_splits {results : List (WalkforwardSplitResult F)}
    (h : (List.range input.nSplits).mapM (input.evaluateSplit world gene) = .ok results) :
    (results.mergeSort fun a b => a.split ≤ b.split) = results := by
  have hsplits : (List.range input.nSplits).map (· + 1) = results.map (·.split) := by
    rw [← List.forall₂_eq_eq_eq, List.forall₂_map_left_iff, List.forall₂_map_right_iff]
    exact (mapM_ok_iff.mp h).imp fun i result hresult => (evaluateSplit_split hresult).symm
  refine List.mergeSort_of_pairwise ?_
  have hsorted : (results.map (·.split)).Pairwise (· ≤ ·) := by
    rw [← hsplits, List.pairwise_map]
    exact List.pairwise_lt_range.imp (by omega)
  rw [List.pairwise_map] at hsorted
  exact hsorted.imp fun hle => by simpa using hle

end WalkforwardInput

open WalkforwardInput

variable {input : WalkforwardInput F}

theorem embargoedWalkforwardBacktestCore_ok_iff {gene : WalkforwardGene F}
    {summary : WalkforwardSummary F} :
    embargoedWalkforwardBacktestCore world input gene = .ok summary ↔
      input.SeriesValid ∧ input.GeneValid world gene ∧
      ∃ results, input.splitResults world gene = .ok results ∧
        summarizeWalkforwardSplits (results.mergeSort fun a b => a.split ≤ b.split) = summary := by
  unfold embargoedWalkforwardBacktestCore SeriesValid GeneValid
  rw [check_ok_iff, refuse_ok_iff, check_ok_iff, check_ok_iff, refuse_ok_iff, check_ok_iff,
    refuse_ok_iff, check_ok_iff, refuse_ok_iff, bind_ok_iff]
  simp only [pure, Except.pure, Except.ok.injEq, not_not, Bool.not_eq_false]
  constructor
  · intro h
    obtain ⟨⟨hlengths, hsignals⟩, hsizing, hbalance, hsplits, hratio, hresults⟩ := h
    exact ⟨⟨hlengths, hsplits, hratio⟩, ⟨hsignals, hsizing, hbalance⟩, hresults⟩
  · intro h
    obtain ⟨⟨hlengths, hsplits, hratio⟩, ⟨hsignals, hsizing, hbalance⟩, hresults⟩ := h
    exact ⟨⟨hlengths, hsignals⟩, hsizing, hbalance, hsplits, hratio, hresults⟩

theorem walkforwardBacktestCore_of_not_qualify {gene : WalkforwardGene F}
    {summary : WalkforwardSummary F} (h : ¬(80 ≤ input.window ∧ input.SplitsQualify)) :
    embargoedWalkforwardBacktestCore world input gene = .ok summary ↔
      (input.SeriesValid ∧ input.GeneValid world gene) ∧ summarizeWalkforwardSplits [] = summary := by
  rw [embargoedWalkforwardBacktestCore_ok_iff, splitResults_of_not_qualify h, and_assoc]
  simp

theorem walkforwardBacktestCore_of_qualify {gene : WalkforwardGene F}
    {summary : WalkforwardSummary F} (hwindow : 80 ≤ input.window) (h : input.SplitsQualify) :
    embargoedWalkforwardBacktestCore world input gene = .ok summary ↔
      (input.SeriesValid ∧ input.GeneValid world gene) ∧
      ∃ splits, (List.range input.nSplits).mapM (input.evaluateSplit world gene) = .ok splits ∧
        summarizeWalkforwardSplits splits = summary := by
  simp only [embargoedWalkforwardBacktestCore_ok_iff, splitResults_of_qualify hwindow h, and_assoc]
  constructor
  · intro hok
    obtain ⟨hseries, hgene, splits, hsplits, rfl⟩ := hok
    exact ⟨hseries, hgene, splits, hsplits, by rw [mergeSort_splits hsplits]⟩
  · intro hok
    obtain ⟨hseries, hgene, splits, hsplits, rfl⟩ := hok
    exact ⟨hseries, hgene, splits, hsplits, by rw [mergeSort_splits hsplits]⟩

variable {genes : List (WalkforwardGene F)} {adaptivePip : F} {run : PopulationRun F}

/-- After the splits `done`, each gene has its results of these splits. -/
def Columns (world : WalkforwardWorld F) (input : WalkforwardInput F)
    (genes : List (WalkforwardGene F)) (done : List Nat)
    (perGene : List (List (WalkforwardSplitResult F))) : Prop :=
  List.Forall₂ (fun gene splits => done.mapM (input.evaluateSplit world gene) = .ok splits)
    genes perGene

variable {done : List Nat} {perGene : List (List (WalkforwardSplitResult F))}

theorem columns_nil :
    Columns world input genes [] (List.replicate genes.length []) := by
  unfold Columns
  induction genes with
  | nil => exact List.Forall₂.nil
  | cons gene genes ih => exact List.Forall₂.cons rfl ih

theorem Columns.pushSplit {i : Nat} {row : List (WalkforwardSplitResult F)}
    (h : Columns world input genes done perGene)
    (hrow : genes.mapM (input.evaluateSplit world · i) = .ok row) :
    Columns world input genes (done ++ [i]) (WalkforwardPopulationInput.pushSplit perGene row) := by
  have hresults := mapM_ok_iff.mp hrow
  clear hrow
  unfold Columns at *
  induction h generalizing row with
  | nil =>
    cases hresults
    exact List.Forall₂.nil
  | @cons gene splits genes perGene hsplits hrest ih =>
    cases hresults with
    | cons hresult hresults =>
      refine List.Forall₂.cons (Fallible.mapM_append_ok hsplits ?_) (ih hresults)
      exact mapM_ok_iff.mpr (List.Forall₂.cons hresult List.Forall₂.nil)

theorem Columns.pushSplits {is : List Nat} {rows : List (List (WalkforwardSplitResult F))}
    (h : Columns world input genes done perGene)
    (hrows : List.Forall₂ (fun i row => genes.mapM (input.evaluateSplit world · i) = .ok row)
      is rows) :
    Columns world input genes (done ++ is)
      (rows.foldl WalkforwardPopulationInput.pushSplit perGene) := by
  induction hrows generalizing done perGene with
  | nil =>
    rw [List.append_nil]
    exact h
  | @cons i row is rows hrow hrest ih =>
    rw [List.append_cons]
    exact ih (h.pushSplit hrow)

/-- The admission grants at least one window, the pool has a thread, and nobody cancels. -/
structure Undisturbed (run : PopulationRun F) : Prop where
  admission : ∀ call rows remaining, ∃ width, run.admission call rows remaining = .ok width ∧
    0 < width
  threads : 0 < run.currentNumThreads
  cancel : ∀ point, run.checkCancel point = .ok ⟨⟩

theorem Undisturbed.batchWidth {input : WalkforwardPopulationInput F} {signals : List (List Int)}
    {next : Nat} (hrun : Undisturbed run) (hnext : next < input.nSplits) :
    ∃ width, input.batchWidth signals run next = .ok width ∧ 0 < width ∧
      next + width ≤ input.nSplits := by
  have hthreads := hrun.threads
  unfold WalkforwardPopulationInput.batchWidth
  by_cases hparallel : run.parallelCpuWindows = true
  · obtain ⟨width, hwidth, hpos⟩ := hrun.admission next
      ((input.window - input.testOffset) * signals.length) (input.nSplits - next)
    refine ⟨min (min width run.currentNumThreads) (input.nSplits - next), ?_, by omega, by omega⟩
    simp only [hparallel, if_true]
    exact map_ok_iff.mpr ⟨width, hwidth, rfl⟩
  · refine ⟨1, ?_, by omega, by omega⟩
    simp [hparallel]

/-- One round of the loop: a batch of some width, and the rest. -/
theorem Undisturbed.runBatches_step {input : WalkforwardPopulationInput F} {next : Nat}
    (hrun : Undisturbed run) (world : WalkforwardWorld F) (signals : List (List Int))
    (hnext : next < input.nSplits) (perGene : List (List (WalkforwardSplitResult F))) :
    ∃ width, 0 < width ∧ next + width ≤ input.nSplits ∧
      input.runBatches world signals run next perGene =
        ((List.range' next width).mapM (input.evaluateWindow world signals run) >>=
          fun completed => input.runBatches world signals run (next + width)
            (completed.foldl WalkforwardPopulationInput.pushSplit perGene)) := by
  obtain ⟨width, hwidth, hpos, hbound⟩ : ∃ width, input.batchWidth signals run next = .ok width ∧
      0 < width ∧ next + width ≤ input.nSplits := hrun.batchWidth hnext
  refine ⟨width, hpos, hbound, ?_⟩
  conv => lhs; unfold WalkforwardPopulationInput.runBatches
  simp only [hnext, if_true, hrun.cancel, hwidth, hpos, dif_pos]
  cases (List.range' next width).mapM (input.evaluateWindow world signals run) with
  | error e => rfl
  | ok completed => rfl

theorem runBatches_done {input : WalkforwardPopulationInput F} {signals : List (List Int)}
    {next : Nat} (hdone : ¬next < input.nSplits) :
    input.runBatches world signals run next perGene = .ok perGene := by
  unfold WalkforwardPopulationInput.runBatches
  rw [if_neg hdone]

/-- The loop ends with the results of all splits, where every window agrees with its genes. -/
theorem Undisturbed.columns_of_runBatches {next : Nat}
    {out : List (List (WalkforwardSplitResult F))} (hrun : Undisturbed run)
    (hwindows : ∀ i < input.nSplits, ∀ row, (input.population genes adaptivePip).evaluateWindow
      world (genes.map (·.signals)) run i = .ok row →
        genes.mapM (input.evaluateSplit world · i) = .ok row)
    (hnext : next ≤ input.nSplits) (hcolumns : Columns world input genes (List.range next) perGene)
    (h : (input.population genes adaptivePip).runBatches world (genes.map (·.signals)) run next
      perGene = .ok out) :
    Columns world input genes (List.range input.nSplits) out := by
  induction hleft : input.nSplits - next using Nat.strong_induction_on
    generalizing next perGene with
  | _ left ih =>
    by_cases hmore : next < (input.population genes adaptivePip).nSplits
    · obtain ⟨width, hpos, hbound, hstep⟩ := hrun.runBatches_step world (genes.map (·.signals)) hmore perGene
      change next + width ≤ input.nSplits at hbound
      rw [hstep, bind_ok_iff] at h
      obtain ⟨completed, hcompleted, hrest⟩ := h
      have hrows : List.Forall₂ (fun i row => genes.mapM (input.evaluateSplit world · i) = .ok row)
          (List.range' next width) completed := by
        refine List.forall₂_iff_get.mpr ⟨(mapM_ok_iff.mp hcompleted).length_eq, ?_⟩
        intro k hk hk'
        refine hwindows _ ?_ _ ((mapM_ok_iff.mp hcompleted).get hk hk')
        have hk' : k < width := by simpa using hk
        simp only [List.get_eq_getElem, List.getElem_range']
        omega
      have hnew := hcolumns.pushSplits hrows
      have hsplits : List.range next ++ List.range' next width = List.range (next + width) := by
        have happend := @List.range'_append_1 0 next width
        rw [Nat.zero_add] at happend
        rw [List.range_eq_range', List.range_eq_range', happend]
      rw [hsplits] at hnew
      exact ih _ (by omega) hbound hnew hrest rfl
    · rw [runBatches_done hmore] at h
      cases h
      have hlast : next = input.nSplits := Nat.le_antisymm hnext (Nat.le_of_not_lt hmore)
      rw [← hlast]
      exact hcolumns

theorem Undisturbed.exists_runBatches {input : WalkforwardPopulationInput F}
    {signals : List (List Int)} {next : Nat} (hrun : Undisturbed run)
    (hwindows : ∀ i < input.nSplits, ∃ row, input.evaluateWindow world signals run i = .ok row) :
    ∃ out, input.runBatches world signals run next perGene = .ok out := by
  induction hleft : input.nSplits - next using Nat.strong_induction_on
    generalizing next perGene with
  | _ left ih =>
    by_cases hmore : next < input.nSplits
    · obtain ⟨width, hpos, hbound, hstep⟩ := hrun.runBatches_step world signals hmore perGene
      obtain ⟨completed, hcompleted⟩ : ∃ completed,
          (List.range' next width).mapM (input.evaluateWindow world signals run) =
            .ok completed := by
        refine Fallible.exists_mapM_ok_iff.mpr ?_
        intro i hi
        have hbounds := List.mem_range'_1.mp hi
        exact hwindows i (by omega)
      obtain ⟨out, hout⟩ := ih (input.nSplits - (next + width)) (by omega) rfl
      rw [hstep]
      exact ⟨out, bind_ok_iff.mpr ⟨completed, hcompleted, hout⟩⟩
    · exact ⟨perGene, runBatches_done hmore⟩

end Neoethos
