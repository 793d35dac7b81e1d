import Neoethos.WalkforwardSplits

namespace Neoethos

open Fallible (bind_ok_iff check_ok_iff forM_ok_iff mapM_ok_iff refuse_ok_iff)
open FloatOps (isPositive)
open WalkforwardInput

variable {F : Type} [FloatOps F] {world : WalkforwardWorld F} {input : WalkforwardInput F}
  {genes : List (WalkforwardGene F)} {adaptivePip : F} {run : PopulationRun F}

theorem forall₂_const {α β : Type*} {P : α → Prop} {c : β} {xs : List α} {ys : List β} :
    List.Forall₂ (fun x y => P x ∧ c = y) xs ys ↔
      (∀ x ∈ xs, P x) ∧ List.replicate xs.length c = ys := by
  induction xs generalizing ys with
  | nil => simp [eq_comm]
  | cons x xs ih =>
    rw [List.forall₂_cons_left_iff, List.forall_mem_cons, List.length_cons, List.replicate_succ]
    simp only [ih]
    constructor
    · intro h
      obtain ⟨_, _, ⟨hx, rfl⟩, ⟨hxs, rfl⟩, rfl⟩ := h
      exact ⟨⟨hx, hxs⟩, rfl⟩
    · intro h
      obtain ⟨⟨hx, hxs⟩, rfl⟩ := h
      exact ⟨c, _, ⟨hx, rfl⟩, ⟨hxs, rfl⟩, rfl⟩

theorem forall₂_map_exists {α β γ : Type*} {P : α → Prop} {R : α → γ → Prop} {g : γ → β}
    {xs : List α} {ys : List β} :
    List.Forall₂ (fun x y => P x ∧ ∃ z, R x z ∧ g z = y) xs ys ↔
      (∀ x ∈ xs, P x) ∧ ∃ zs, List.Forall₂ R xs zs ∧ zs.map g = ys := by
  induction xs generalizing ys with
  | nil => simp [eq_comm]
  | cons x xs ih =>
    simp only [List.forall₂_cons_left_iff, List.forall_mem_cons, ih]
    constructor
    · intro h
      obtain ⟨_, _, ⟨hx, z, hz, rfl⟩, ⟨hxs, zs, hzs, rfl⟩, rfl⟩ := h
      exact ⟨⟨hx, hxs⟩, z :: zs, ⟨z, zs, hz, hzs, rfl⟩, rfl⟩
    · intro h
      obtain ⟨⟨hx, hxs⟩, _, ⟨z, zs, hz, hzs, rfl⟩, rfl⟩ := h
      exact ⟨g z, zs.map g, ⟨hx, z, hz, rfl⟩, ⟨hxs, zs, hzs, rfl⟩, rfl⟩

theorem validate_population_ok_iff :
    (input.population genes adaptivePip).validate world (genes.map (·.signals)) = .ok ⟨⟩ ↔
      input.SeriesValid ∧ ∀ gene ∈ genes, input.GeneValid world gene := by
  unfold WalkforwardPopulationInput.validate SeriesValid GeneValid
  rw [check_ok_iff, refuse_ok_iff, check_ok_iff, refuse_ok_iff, check_ok_iff, refuse_ok_iff,
    check_ok_iff, forM_ok_iff, check_ok_iff, forM_ok_iff, check_ok_iff, refuse_ok_iff,
    refuse_ok_iff]
  have hpairs : (input.population genes adaptivePip).confidencesPerGene.zip
      (input.population genes adaptivePip).geneSettings =
      genes.map fun gene => (gene.confidences, gene.settings) := List.zip_map'
  have hsignals : (∀ x ∈ (genes.map (·.signals)).zipIdx, x.1.length = input.close.length) ↔
      ∀ gene ∈ genes, gene.signals.length = input.close.length := by
    constructor
    · intro h gene hgene
      obtain ⟨k, hk⟩ := List.mem_iff_getElem?.mp (List.mem_map_of_mem (f := (·.signals)) hgene)
      exact h (gene.signals, k) (List.mk_mem_zipIdx_iff_getElem?.mpr hk)
    · intro h x hx
      obtain ⟨gene, hgene, hsame⟩ := List.mem_map.mp (List.fst_mem_of_mem_zipIdx hx)
      rw [← hsame]
      exact h gene hgene
  rw [hpairs, List.forall_mem_map]
  simp only [check_ok_iff, refuse_ok_iff, not_not, Bool.not_eq_false]
  constructor
  · intro h
    obtain ⟨hlengths, -, -, hsizing, hlist, hsplits, hratio⟩ := h
    refine ⟨⟨hlengths, hsplits, hratio⟩, ?_⟩
    intro gene hgene
    exact ⟨hsignals.mp hlist gene hgene, hsizing gene hgene⟩
  · intro h
    obtain ⟨⟨hlengths, hsplits, hratio⟩, hgenes⟩ := h
    refine ⟨hlengths, List.length_map _ |>.trans (List.length_map _).symm,
      List.length_map _ |>.trans (List.length_map _).symm, ?_, ?_, hsplits, hratio⟩
    · intro gene hgene
      exact (hgenes gene hgene).2
    · exact hsignals.mpr fun gene hgene => (hgenes gene hgene).1

theorem population_of_empty {summaries : List (WalkforwardSummary F)} :
    embargoedWalkforwardPopulationWithAdmission world (input.population [] adaptivePip) [] run =
        .ok summaries ↔
      input.SeriesValid ∧ [] = summaries := by
  have hvalid : (input.population [] adaptivePip).validate world [] = .ok ⟨⟩ ↔
      input.SeriesValid := by
    refine (validate_population_ok_iff : _ ↔ input.SeriesValid ∧ ∀ gene ∈ [], _).trans ?_
    simp
  unfold embargoedWalkforwardPopulationWithAdmission
  rw [check_ok_iff, hvalid]
  simp [pure, Except.pure]

theorem population_of_short {summaries : List (WalkforwardSummary F)}
    (hshort : input.window < 80) :
    embargoedWalkforwardPopulationWithAdmission world (input.population genes adaptivePip)
        (genes.map (·.signals)) run = .ok summaries ↔
      (input.SeriesValid ∧ ∀ gene ∈ genes, input.GeneValid world gene) ∧
      List.replicate genes.length (summarizeWalkforwardSplits []) = summaries := by
  unfold embargoedWalkforwardPopulationWithAdmission
  rw [check_ok_iff, validate_population_ok_iff, List.length_map]
  refine and_congr_right ?_
  intro hvalid
  have hwindow : (input.population genes adaptivePip).window < 80 := hshort
  cases genes with
  | nil => simp [pure, Except.pure]
  | cons gene genes => simp [pure, Except.pure, hwindow]

/-- The population call on longer windows, behind the checks of the pip and of the offset. -/
theorem population_of_long {summaries : List (WalkforwardSummary F)} (hmany : genes ≠ [])
    (hwindow : 80 ≤ input.window) (hoffset : input.trainRows + input.embargoBars < 2 ^ 64)
    (hcharge : (input.window - (input.trainRows + input.embargoBars)) * genes.length < 2 ^ 64) :
    embargoedWalkforwardPopulationWithAdmission world (input.population genes adaptivePip)
        (genes.map (·.signals)) run = .ok summaries ↔
      (input.SeriesValid ∧ ∀ gene ∈ genes, input.GeneValid world gene) ∧
      ((∃ gene ∈ genes, gene.isAdaptive = true) → isPositive adaptivePip = true) ∧
      (¬input.SplitsQualify ∧
          List.replicate genes.length (summarizeWalkforwardSplits []) = summaries ∨
        input.SplitsQualify ∧ ∃ perGene, (input.population genes adaptivePip).runBatches world
          (genes.map (·.signals)) run 0 (List.replicate genes.length []) = .ok perGene ∧
          perGene.map summarizeWalkforwardSplits = summaries) := by
  unfold embargoedWalkforwardPopulationWithAdmission
  rw [check_ok_iff, validate_population_ok_iff, List.length_map, anyAdaptive_population]
  refine and_congr_right ?_
  intro hvalid
  have hlong : ¬(input.population genes adaptivePip).window < 80 := Nat.not_lt.mpr hwindow
  have hfits : ¬2 ^ 64 ≤ (input.population genes adaptivePip).trainRows +
      (input.population genes adaptivePip).embargoBars := Nat.not_le.mpr hoffset
  have hpip : (¬((genes.any (·.isAdaptive)) = true ∧
        isPositive (input.population genes adaptivePip).adaptivePip = false)) ↔
      ((∃ gene ∈ genes, gene.isAdaptive = true) → isPositive adaptivePip = true) := by
    show ¬(_ ∧ isPositive adaptivePip = false) ↔ _
    simp only [List.any_eq_true, not_and, Bool.not_eq_false]
  rw [if_neg (by simpa using hmany), if_neg hlong, check_ok_iff, refuse_ok_iff, check_ok_iff,
    refuse_ok_iff, hpip]
  refine and_congr_right ?_
  intro haccepted
  by_cases hqualify : input.SplitsQualify
  · have hroom : ¬((input.population genes adaptivePip).window ≤
          (input.population genes adaptivePip).testOffset ∨
        (input.population genes adaptivePip).trainRows < 40 ∨
        (input.population genes adaptivePip).window -
          (input.population genes adaptivePip).testOffset < 40) := by
      show ¬(input.window ≤ input.trainRows + input.embargoBars ∨ input.trainRows < 40 ∨
        input.window - (input.trainRows + input.embargoBars) < 40)
      unfold SplitsQualify at hqualify
      omega
    have hcharged : ¬(run.parallelCpuWindows = true ∧
        2 ^ 64 ≤ ((input.population genes adaptivePip).window -
          (input.population genes adaptivePip).testOffset) * genes.length) :=
      fun h => absurd hcharge (Nat.not_lt.mpr h.2)
    rw [if_neg hroom, check_ok_iff, refuse_ok_iff, bind_ok_iff]
    simp only [hfits, hcharged, hqualify, not_false_eq_true, not_true_eq_false, true_and,
      false_and, false_or, pure, Except.pure, Except.ok.injEq]
  · have hnone : (input.population genes adaptivePip).window ≤
          (input.population genes adaptivePip).testOffset ∨
        (input.population genes adaptivePip).trainRows < 40 ∨
        (input.population genes adaptivePip).window -
          (input.population genes adaptivePip).testOffset < 40 := by
      show input.window ≤ input.trainRows + input.embargoBars ∨ input.trainRows < 40 ∨
        input.window - (input.trainRows + input.embargoBars) < 40
      unfold SplitsQualify at hqualify
      omega
    rw [if_pos hnone]
    simp only [hfits, hqualify, not_false_eq_true, true_and, false_and, or_false, pure, Except.pure,
      Except.ok.injEq]

section Parity

variable {suppliesTrades : Bool}
  (hdays : input.timestamps.map world.calendar.calendarDayKeyMs = input.days.map some)
  (hpip : ∀ gene ∈ genes, gene.isAdaptive = true → gene.settings.pipValue = adaptivePip)
  (hmetrics : run.metricsFn = input.cpuWindow world genes suppliesTrades) (hrun : Undisturbed run)

include hdays hpip hmetrics hrun

theorem population_window_ok_iff {i : Nat} {row : List (WalkforwardSplitResult F)}
    (hseries : input.SeriesValid) (hwindow : 80 ≤ input.window) (hqualify : input.SplitsQualify)
    (hi : i < input.nSplits) :
    (input.population genes adaptivePip).evaluateWindow world (genes.map (·.signals)) run i =
        .ok row ↔
      genes.mapM (input.evaluateSplit world · i) = .ok row := by
  obtain ⟨⟨-, -, -, -, hlength, -⟩, -, -⟩ := hseries
  obtain ⟨-, -, htest⟩ := hqualify
  have hend := windowEnd_eq hwindow hi
  have hbound : input.windowEnd i ≤ input.close.length := Nat.min_le_right _ _
  have hrows : input.testStart i < input.windowEnd i := by
    rw [hend]
    unfold testStart trainEnd
    omega
  refine evaluateWindow_ok_iff hrun.cancel hmetrics hpip hdays ?_ ?_
  · refine List.ne_nil_of_length_pos ?_
    rw [length_slice hbound]
    omega
  · refine List.ne_nil_of_length_pos ?_
    rw [length_slice (by omega)]
    omega

theorem runBatches_ok_iff {perGene : List (List (WalkforwardSplitResult F))}
    (hseries : input.SeriesValid) (hwindow : 80 ≤ input.window) (hqualify : input.SplitsQualify) :
    (input.population genes adaptivePip).runBatches world (genes.map (·.signals)) run 0
        (List.replicate genes.length []) = .ok perGene ↔
      Columns world input genes (List.range input.nSplits) perGene := by
  have hwindows (i : Nat) (hi : i < input.nSplits) (row : List (WalkforwardSplitResult F)) :
      (input.population genes adaptivePip).evaluateWindow world (genes.map (·.signals)) run i =
        .ok row ↔ genes.mapM (input.evaluateSplit world · i) = .ok row :=
    population_window_ok_iff hdays hpip hmetrics hrun hseries hwindow hqualify hi
  have hsound (out : List (List (WalkforwardSplitResult F)))
      (h : (input.population genes adaptivePip).runBatches world (genes.map (·.signals)) run 0
        (List.replicate genes.length []) = .ok out) :
      Columns world input genes (List.range input.nSplits) out :=
    hrun.columns_of_runBatches (fun i hi row => (hwindows i hi row).mp) (Nat.zero_le _)
      columns_nil h
  constructor
  · exact hsound perGene
  · intro h
    have hsplit (gene : WalkforwardGene F) (hgene : gene ∈ genes) (i : Nat)
        (hi : i < input.nSplits) : ∃ result, input.evaluateSplit world gene i = .ok result := by
      obtain ⟨columns, hcolumns⟩ : ∃ columns,
          (List.range input.nSplits).mapM (input.evaluateSplit world gene) = .ok columns := by
        obtain ⟨k, hk, rfl⟩ := List.mem_iff_getElem.mp hgene
        exact ⟨_, h.get hk (h.length_eq ▸ hk)⟩
      exact Fallible.exists_mapM_ok_iff.mp ⟨columns, hcolumns⟩ i (List.mem_range.mpr hi)
    have hevaluated (i : Nat) (hi : i < (input.population genes adaptivePip).nSplits) :
        ∃ row, (input.population genes adaptivePip).evaluateWindow world (genes.map (·.signals))
          run i = .ok row := by
      obtain ⟨row, hrow⟩ := Fallible.exists_mapM_ok_iff.mpr fun gene hgene =>
        hsplit gene hgene i hi
      exact ⟨row, (hwindows i hi row).mpr hrow⟩
    obtain ⟨out, hout⟩ : ∃ out, (input.population genes adaptivePip).runBatches world
        (genes.map (·.signals)) run 0 (List.replicate genes.length []) = .ok out :=
      hrun.exists_runBatches hevaluated
    rw [hout, Fallible.forall₂_ok_unique (hsound out hout) h]

/-- The population call returns exactly the summaries of the genes alone. It refuses a pip that no
adaptive gene could be scaled by as soon as the windows are long enough, where a gene alone meets
its pip only in a split that qualifies. -/
theorem population_walkforward_eq_single {summaries : List (WalkforwardSummary F)}
    (hoffset : ∀ i < input.nSplits, input.testStart i < 2 ^ 64)
    (hcharge : (input.window - (input.trainRows + input.embargoBars)) * genes.length < 2 ^ 64) :
    embargoedWalkforwardPopulationWithAdmission world (input.population genes adaptivePip)
        (genes.map (·.signals)) run = .ok summaries ↔
      input.SeriesValid ∧
      (80 ≤ input.window → (∃ gene ∈ genes, gene.isAdaptive = true) →
        isPositive adaptivePip = true) ∧
      List.Forall₂ (fun gene summary =>
        embargoedWalkforwardBacktestCore world input gene = .ok summary) genes summaries := by
  by_cases hempty : genes = []
  · subst hempty
    rw [List.map_nil, population_of_empty, List.forall₂_nil_left_iff, eq_comm]
    simp
  by_cases hwindow : 80 ≤ input.window
  · have hsplits : 0 < input.nSplits := by
      refine Nat.pos_of_ne_zero ?_
      intro hzero
      simp [window, hzero] at hwindow
    have hfits : input.trainRows + input.embargoBars < 2 ^ 64 := by
      have hfirst := hoffset 0 hsplits
      unfold testStart trainEnd at hfirst
      omega
    rw [population_of_long hempty hwindow hfits hcharge]
    by_cases hqualify : input.SplitsQualify
    · simp only [walkforwardBacktestCore_of_qualify hwindow hqualify, forall₂_map_exists]
      constructor
      · intro h
        obtain ⟨⟨hseries, hgenes⟩, haccepted, hnone | ⟨-, perGene, hbatches, hsummaries⟩⟩ := h
        · exact absurd hqualify hnone.1
        · exact ⟨hseries, fun _ => haccepted, fun gene hgene => ⟨hseries, hgenes gene hgene⟩,
            perGene, (runBatches_ok_iff hdays hpip hmetrics hrun hseries hwindow hqualify).mp
              hbatches, hsummaries⟩
      · intro h
        obtain ⟨hseries, haccepted, hgenes, perGene, hcolumns, hsummaries⟩ := h
        exact ⟨⟨hseries, fun gene hgene => (hgenes gene hgene).2⟩, haccepted hwindow,
          Or.inr ⟨hqualify, perGene, (runBatches_ok_iff hdays hpip hmetrics hrun hseries hwindow
            hqualify).mpr hcolumns, hsummaries⟩⟩
    · have hnone : ¬(80 ≤ input.window ∧ input.SplitsQualify) := fun h => hqualify h.2
      simp only [walkforwardBacktestCore_of_not_qualify hnone, forall₂_const]
      constructor
      · intro h
        obtain ⟨⟨hseries, hgenes⟩, haccepted, ⟨-, hsummaries⟩ | hsome⟩ := h
        · exact ⟨hseries, fun _ => haccepted, fun gene hgene => ⟨hseries, hgenes gene hgene⟩,
            hsummaries⟩
        · exact absurd hsome.1 hqualify
      · intro h
        obtain ⟨hseries, haccepted, hgenes, hsummaries⟩ := h
        exact ⟨⟨hseries, fun gene hgene => (hgenes gene hgene).2⟩, haccepted hwindow,
          Or.inl ⟨hqualify, hsummaries⟩⟩
  · have hnone : ¬(80 ≤ input.window ∧ input.SplitsQualify) := fun h => hwindow h.1
    simp only [population_of_short (Nat.not_le.mp hwindow),
      walkforwardBacktestCore_of_not_qualify hnone, forall₂_const]
    constructor
    · intro h
      obtain ⟨⟨hseries, hgenes⟩, hsummaries⟩ := h
      exact ⟨hseries, fun h => absurd h hwindow, fun gene hgene => ⟨hseries, hgenes gene hgene⟩,
        hsummaries⟩
    · intro h
      obtain ⟨hseries, -, hgenes, hsummaries⟩ := h
      exact ⟨⟨hseries, fun gene hgene => (hgenes gene hgene).2⟩, hsummaries⟩

end Parity

def januaryCalendar : UtcCalendar where
  date ts := if 0 ≤ ts ∧ ts < 2678400000 then some (1970, 1, ts / 86400000 + 1) else none
  month_day := by
    intro ts year month day h
    split at h
    next hts =>
      simp only [Option.some.injEq, Prod.mk.injEq] at h
      omega
    next => cases h
  same_day := by
    intro ts ts' h h'
    split at h
    next hts =>
      split at h'
      next hts' =>
        rw [if_pos hts, if_pos hts']
        simp
      next => cases h'
    next => cases h

def sampleWorld : WalkforwardWorld ℚ where
  runtime := ⟨1000, 12⟩
  calendar := januaryCalendar
  stopDistances _ _ close := .error (.tooShort close.length 101)

def sampleSeries (trainRatio : ℚ) : WalkforwardInput ℚ where
  maxDailyLossPct := 5
  maxDailyProfitPct := 0
  minTradingDays := 1
  maxTradesPerDay := 0
  initialBalance := 1000
  close := (List.range 80).map fun i => if i % 5 = 4 then 80 else 100
  high := (List.range 80).map fun i => if i % 5 = 2 then 131 else 101
  low := (List.range 80).map fun i => if i % 5 = 4 then 79 else 99
  months := List.replicate 80 197001
  days := List.replicate 80 19700101
  timestamps := (List.range 80).map fun i => (i : Int) * 60000
  trainRatio := trainRatio
  nSplits := 1
  embargoBars := 0

def sampleBuyer (pip adaptiveVolMult : ℚ) : WalkforwardGene ℚ where
  signals := (List.range 80).map fun i => if i % 5 = 0 then 1 else 0
  confidences := []
  settings := { sampleSettings with pipValue := pip, adaptiveVolMult := adaptiveVolMult }

def sampleBuyers : List (WalkforwardGene ℚ) := [sampleBuyer 1 1, sampleBuyer 1 0]

def sampleRun (input : WalkforwardInput ℚ) (genes : List (WalkforwardGene ℚ)) : PopulationRun ℚ where
  parallelCpuWindows := true
  metricsFn := input.cpuWindow sampleWorld genes false
  admission _ _ _ := .ok 3
  checkCancel _ := .ok ⟨⟩
  currentNumThreads := 4

theorem sampleRun_undisturbed (input : WalkforwardInput ℚ) (genes : List (WalkforwardGene ℚ)) :
    Undisturbed (sampleRun input genes) where
  admission _ _ _ := ⟨3, rfl, by decide⟩
  threads := Nat.succ_pos 3
  cancel _ := rfl

theorem sampleSeries_valid {trainRatio : ℚ} (h : (sampleSeries trainRatio).trainRatioOk = true) :
    (sampleSeries trainRatio).SeriesValid := by
  refine ⟨?_, Nat.one_ne_zero, h⟩
  unfold LengthsMatch sampleSeries
  simp

theorem sampleBuyer_valid (trainRatio pip adaptiveVolMult : ℚ) :
    (sampleSeries trainRatio).GeneValid sampleWorld (sampleBuyer pip adaptiveVolMult) := by
  refine ⟨?_, rfl, rfl⟩
  unfold sampleBuyer sampleSeries
  simp

theorem sampleBuyer_summary {adaptiveVolMult : ℚ}
    (h : ((sampleSeries (1 / 2)).evaluateSplit sampleWorld (sampleBuyer 1 adaptiveVolMult)
      0).toOption.any (·.trades = 8) = true) :
    ∃ summary, embargoedWalkforwardBacktestCore sampleWorld (sampleSeries (1 / 2))
      (sampleBuyer 1 adaptiveVolMult) = .ok summary := by
  obtain ⟨split, hsplit, -⟩ := Fallible.exists_ok_of_any h
  refine ⟨_, (walkforwardBacktestCore_of_qualify (by decide +kernel) ?_).mpr
    ⟨⟨sampleSeries_valid (by decide +kernel), sampleBuyer_valid _ _ _⟩, [split], ?_, rfl⟩⟩
  · unfold SplitsQualify
    decide +kernel
  · exact mapM_ok_iff.mpr (List.Forall₂.cons hsplit List.Forall₂.nil)

/-- Two buyers, one of them adaptive, that make eight trades each. -/
theorem sampleBuyers_eq_single :
    ∃ first second,
      embargoedWalkforwardBacktestCore sampleWorld (sampleSeries (1 / 2)) (sampleBuyer 1 1) =
        .ok first ∧
      embargoedWalkforwardBacktestCore sampleWorld (sampleSeries (1 / 2)) (sampleBuyer 1 0) =
        .ok second ∧
      embargoedWalkforwardPopulationWithAdmission sampleWorld
        ((sampleSeries (1 / 2)).population sampleBuyers 1) (sampleBuyers.map (·.signals))
        (sampleRun (sampleSeries (1 / 2)) sampleBuyers) = .ok [first, second] := by
  obtain ⟨first, hfirst⟩ : ∃ summary, embargoedWalkforwardBacktestCore sampleWorld
      (sampleSeries (1 / 2)) (sampleBuyer 1 1) = .ok summary :=
    sampleBuyer_summary (by decide +kernel)
  obtain ⟨second, hsecond⟩ : ∃ summary, embargoedWalkforwardBacktestCore sampleWorld
      (sampleSeries (1 / 2)) (sampleBuyer 1 0) = .ok summary :=
    sampleBuyer_summary (by decide +kernel)
  refine ⟨first, second, hfirst, hsecond, ?_⟩
  refine (population_walkforward_eq_single (by decide +kernel) (by decide +kernel) rfl
    (sampleRun_undisturbed _ _) (by decide +kernel) (by decide +kernel)).mpr
    ⟨sampleSeries_valid (by decide +kernel), fun _ _ => by decide +kernel, ?_⟩
  exact List.Forall₂.cons hfirst (List.Forall₂.cons hsecond List.Forall₂.nil)

/-- An adaptive gene with a pip of zero, where no split qualifies: alone it has the empty summary,
and the population call refuses it. -/
theorem population_refuses_unused_pip :
    (sampleSeries (99 / 100)).timestamps.map sampleWorld.calendar.calendarDayKeyMs =
        (sampleSeries (99 / 100)).days.map some ∧
      embargoedWalkforwardBacktestCore sampleWorld (sampleSeries (99 / 100)) (sampleBuyer 0 1) =
        .ok (summarizeWalkforwardSplits []) ∧
      ∀ summaries, embargoedWalkforwardPopulationWithAdmission sampleWorld
        ((sampleSeries (99 / 100)).population [sampleBuyer 0 1] 0) [(sampleBuyer 0 1).signals]
        (sampleRun (sampleSeries (99 / 100)) [sampleBuyer 0 1]) ≠ .ok summaries := by
  refine ⟨by decide +kernel, ?_, ?_⟩
  · refine (walkforwardBacktestCore_of_not_qualify ?_).mpr
      ⟨⟨sampleSeries_valid (by decide +kernel), sampleBuyer_valid _ _ _⟩, rfl⟩
    unfold SplitsQualify
    decide +kernel
  · intro summaries h
    obtain ⟨-, haccepted, -⟩ := (population_of_long (List.cons_ne_nil _ _) (by decide +kernel)
      (by decide +kernel) (by decide +kernel)).mp h
    have hpositive : isPositive (0 : ℚ) = true :=
      haccepted ⟨sampleBuyer 0 1, List.mem_cons_self, by decide +kernel⟩
    revert hpositive
    decide +kernel

end Neoethos
