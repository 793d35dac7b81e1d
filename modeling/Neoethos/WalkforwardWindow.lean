import Neoethos.SimulatedTrades
import Neoethos.Walkforward

namespace Neoethos

open Fallible (bind_ok_iff check_ok_iff map_ok_iff mapM_ok_iff refuse_ok_iff require_ok_iff)
open FloatOps (lit lt isPositive)

namespace UtcCalendar

variable {calendar : UtcCalendar}

theorem calendarDayKeyMs_eq_iff {ts ts' key key' : Int}
    (h : calendar.calendarDayKeyMs ts = some key)
    (h' : calendar.calendarDayKeyMs ts' = some key') :
    key = key' ↔ ts / 86400000 = ts' / 86400000 := by
  obtain ⟨⟨year, month, day⟩, hdate, rfl⟩ := Option.map_eq_some_iff.mp h
  obtain ⟨⟨year', month', day'⟩, hdate', rfl⟩ := Option.map_eq_some_iff.mp h'
  have hsame := calendar.same_day ts ts' (by simp [hdate]) (by simp [hdate'])
  rw [← hsame, hdate, hdate']
  constructor
  · intro hkey
    change year * 10000 + month * 100 + day = year' * 10000 + month' * 100 + day' at hkey
    -- the month and the day fill four digits, so the key can be read back
    have hmonth := calendar.month_day ts year month day hdate
    have hmonth' := calendar.month_day ts' year' month' day' hdate'
    have hyears : year = year' := by omega
    have hmonths : month = month' := by omega
    have hdays : day = day' := by omega
    rw [hyears, hmonths, hdays]
  · intro hdates
    cases hdates
    rfl

/-- The day keys of a series change where the days of the epoch do. -/
theorem sameDays {timestamps days : List Int}
    (h : timestamps.map calendar.calendarDayKeyMs = days.map some) :
    EvalInput.SameDays days (timestamps.map (· / 86400000)) := by
  intro i j
  have hkey (k : Nat) : (timestamps[k]?).map calendar.calendarDayKeyMs = (days[k]?).map some := by
    rw [← List.getElem?_map, ← List.getElem?_map, h]
  have hi := hkey i
  have hj := hkey j
  rw [List.getElem?_map, List.getElem?_map]
  cases hti : timestamps[i]? with
  | none =>
    have hdi : days[i]? = none := by simpa [hti] using hi.symm
    cases htj : timestamps[j]? with
    | none =>
      have hdj : days[j]? = none := by simpa [htj] using hj.symm
      simp [hdi, hdj]
    | some tj =>
      obtain ⟨dj, hdj, hkeyj⟩ : ∃ d, days[j]? = some d ∧ some d = calendar.calendarDayKeyMs tj := by
        simpa [htj] using hj.symm
      simp [hdi, hdj]
  | some ti =>
    obtain ⟨di, hdi, hkeyi⟩ : ∃ d, days[i]? = some d ∧ some d = calendar.calendarDayKeyMs ti := by
      simpa [hti] using hi.symm
    cases htj : timestamps[j]? with
    | none =>
      have hdj : days[j]? = none := by simpa [htj] using hj.symm
      simp [hdi, hdj]
    | some tj =>
      obtain ⟨dj, hdj, hkeyj⟩ : ∃ d, days[j]? = some d ∧ some d = calendar.calendarDayKeyMs tj := by
        simpa [htj] using hj.symm
      rw [hdi, hdj]
      simpa using calendarDayKeyMs_eq_iff hkeyi.symm hkeyj.symm

end UtcCalendar

section Slice

variable {α β : Type*} {xs : List α} {ys : List β} {start stop : Nat}

theorem map_slice (f : α → β) : (slice xs start stop).map f = slice (xs.map f) start stop := by
  simp [slice, List.map_drop, List.map_take]

theorem length_slice (h : stop ≤ xs.length) : (slice xs start stop).length = stop - start := by
  simp [slice, h]

end Slice

variable {F : Type} [FloatOps F] {world : WalkforwardWorld F}

theorem evaluateWithConfidenceAndLedger_ok_iff {runtime : BacktestRuntime F} {inp : EvalInput F}
    {metrics : EvalMetrics F} {trades : List (Trade F)} :
    evaluateWithConfidenceAndLedger runtime inp = .ok (metrics, trades) ↔
      ¬(inp.high.length ≠ inp.close.length ∨ inp.low.length ≠ inp.close.length ∨
        inp.signals.length ≠ inp.close.length ∨ inp.timestamps.length ≠ inp.close.length ∨
        inp.dayIdx.length ≠ inp.close.length ∨
        (inp.monthIdx ≠ [] ∧ inp.monthIdx.length ≠ inp.close.length)) ∧
      validateSizingConfidences runtime inp.close.length inp.confidences inp.settings = .ok ⟨⟩ ∧
      ∃ result, evaluateStrategyWithLedger runtime inp = some result ∧ result.metrics = metrics ∧
        result.trades.map (·.2) = trades := by
  unfold evaluateWithConfidenceAndLedger
  rw [check_ok_iff, refuse_ok_iff, check_ok_iff]
  simp only [bind_ok_iff, require_ok_iff, pure, Except.pure, Except.ok.injEq, Prod.mk.injEq]

theorem simulateTrades_of_evaluate {runtime : BacktestRuntime F} {inp : EvalInput F}
    {metrics : EvalMetrics F} {trades : List (Trade F)} {calendar : UtcCalendar}
    (hclose : inp.close ≠ [])
    (hdays : inp.timestamps.map calendar.calendarDayKeyMs = inp.dayIdx.map some)
    (h : evaluateWithConfidenceAndLedger runtime inp = .ok (metrics, trades)) :
    simulateTradesWithConfidence runtime inp = .ok trades := by
  obtain ⟨hlengths, hsizing, result, hresult, -, htrades⟩ :=
    evaluateWithConfidenceAndLedger_ok_iff.mp h
  push Not at hlengths
  obtain ⟨hhigh, hlow, hsignals, htimes, hindex, -⟩ := hlengths
  obtain ⟨result', hresult', hsame⟩ := EvalInput.evaluate_withCalendar hclose
    (UtcCalendar.sameDays hdays) hindex (by simp [htimes]) hresult
  have hsimulated : evaluateWithConfidenceAndLedger runtime
      { inp with monthIdx := [], dayIdx := inp.timestamps.map (· / 86400000) } =
      .ok (result'.metrics, trades) := by
    refine evaluateWithConfidenceAndLedger_ok_iff.mpr ⟨?_, hsizing, result', hresult', rfl, ?_⟩
    · simp [hhigh, hlow, hsignals, htimes]
    · rw [hsame, htrades]
  exact bind_ok_iff.mpr ⟨_, hsimulated, rfl⟩

theorem WalkforwardWorld.settingsForWalkforwardWindow_ok {settings window : BacktestSettings F}
    {high low close : List F}
    (h : world.settingsForWalkforwardWindow settings high low close = .ok window) :
    (lt (lit 0) settings.adaptiveVolMult = true ∧
      ∃ base, world.windowBase high low close settings.pipValue = .ok base ∧
        window = { settings with adaptiveBasePips := base }) ∨
    (lt (lit 0) settings.adaptiveVolMult = false ∧ window = settings) := by
  unfold settingsForWalkforwardWindow at h
  split at h
  next hadaptive =>
    obtain ⟨base, hbase, hwindow⟩ := bind_ok_iff.mp h
    cases hwindow
    exact Or.inl ⟨hadaptive, base, hbase, rfl⟩
  next hfixed =>
    cases h
    exact Or.inr ⟨by simpa using hfixed, rfl⟩

def WalkforwardGene.isAdaptive (gene : WalkforwardGene F) : Bool :=
  lt (lit 0) gene.settings.adaptiveVolMult

namespace WalkforwardInput

variable {input : WalkforwardInput F} {genes : List (WalkforwardGene F)} {adaptivePip : F}

def population (input : WalkforwardInput F) (genes : List (WalkforwardGene F)) (adaptivePip : F) :
    WalkforwardPopulationInput F :=
  { input with
    geneSettings := genes.map (·.settings)
    confidencesPerGene := genes.map (·.confidences)
    adaptivePip := adaptivePip }

/-- The provider that evaluates each gene on the CPU, with or without the trade lists. -/
def cpuWindow (world : WalkforwardWorld F) (input : WalkforwardInput F)
    (genes : List (WalkforwardGene F)) (suppliesTrades : Bool) (start stop : Nat) :
    Except (WalkforwardError F) (WindowEvaluation F) :=
  (genes.mapM (input.evaluateGeneWindow world · start stop)).map fun rows =>
    ⟨rows.map (·.1), if suppliesTrades then some (rows.map (·.2)) else none⟩

omit [FloatOps F] in
theorem genes_population :
    (input.population genes adaptivePip).genes (genes.map (·.signals)) = genes := by
  unfold WalkforwardPopulationInput.genes population
  induction genes with
  | nil => rfl
  | cons gene genes ih => simpa using ih

theorem anyAdaptive_population :
    (input.population genes adaptivePip).anyAdaptive = genes.any (·.isAdaptive) := by
  unfold WalkforwardPopulationInput.anyAdaptive population
  rw [List.any_map]
  rfl

/-- The result of split `i` from what the evaluator returned. -/
def splitOf (world : WalkforwardWorld F) (input : WalkforwardInput F) (i : Nat)
    (row : EvalMetrics F × List (Trade F)) : WalkforwardSplitResult F :=
  splitResult i row.1 (input.diagnostics world row.2 (input.testStart i) (input.windowEnd i) row.1)

theorem evaluateSplit_eq (gene : WalkforwardGene F) (i : Nat) :
    input.evaluateSplit world gene i =
      (input.evaluateGeneWindow world gene (input.testStart i) (input.windowEnd i)).map
        (input.splitOf world i) := by
  unfold evaluateSplit
  cases input.evaluateGeneWindow world gene (input.testStart i) (input.windowEnd i) with
  | error e => rfl
  | ok row => rfl

/-- A gene's diagnostics over a second simulation are those over the trades of its evaluation. -/
theorem geneDiagnostics_simulated {gene : WalkforwardGene F} {base : Option (List F)}
    {start stop : Nat} {row : EvalMetrics F × List (Trade F)}
    (hclose : slice input.close start stop ≠ []) (hindex : slice input.days start stop ≠ [])
    (hdays : input.timestamps.map world.calendar.calendarDayKeyMs = input.days.map some)
    (hbase : gene.isAdaptive = true → world.windowBase (slice input.high start stop)
      (slice input.low start stop) (slice input.close start stop) gene.settings.pipValue = .ok base)
    (h : input.evaluateGeneWindow world gene start stop = .ok row) :
    (input.population genes adaptivePip).geneDiagnostics world gene base none start stop row.1 =
      .ok (input.diagnostics world row.2 start stop row.1) := by
  obtain ⟨settings, hsettings, hrow⟩ := bind_ok_iff.mp h
  have hsame : WalkforwardPopulationInput.diagnosticSettings gene.settings base = settings := by
    unfold WalkforwardPopulationInput.diagnosticSettings
    rcases world.settingsForWalkforwardWindow_ok hsettings with
      ⟨hadaptive, base', hbase', rfl⟩ | ⟨hfixed, rfl⟩
    · rw [if_pos hadaptive, Except.ok.inj ((hbase hadaptive).symm.trans hbase')]
    · rw [if_neg (by simp [hfixed])]
  have hkeys : (slice input.timestamps start stop).map world.calendar.calendarDayKeyMs =
      (slice input.days start stop).map some := by
    rw [map_slice, map_slice, hdays]
  have hsimulated : simulateTradesWithConfidence world.runtime
      (input.evalInput gene settings start stop) = .ok row.2 :=
    simulateTrades_of_evaluate hclose hkeys hrow
  unfold WalkforwardPopulationInput.geneDiagnostics
  rw [hsame]
  have hfull : ¬((slice input.close start stop).isEmpty = true ∨
      (slice input.days start stop).isEmpty = true) := by
    simp [hclose, hindex]
  exact (if_neg hfull).trans (map_ok_iff.mpr ⟨row.2, hsimulated, rfl⟩)

/-- All adaptive genes of the call have one base on a window, where each of them has one. -/
theorem exists_populationWindowBase {i : Nat}
    (hpip : ∀ gene ∈ genes, gene.isAdaptive = true → gene.settings.pipValue = adaptivePip)
    (hgenes : ∀ gene ∈ genes, ∃ row,
      input.evaluateGeneWindow world gene (input.testStart i) (input.windowEnd i) = .ok row) :
    ∃ base, (input.population genes adaptivePip).populationWindowBase world i none = .ok base ∧
      ∀ gene ∈ genes, gene.isAdaptive = true →
        world.windowBase (slice input.high (input.testStart i) (input.windowEnd i))
          (slice input.low (input.testStart i) (input.windowEnd i))
          (slice input.close (input.testStart i) (input.windowEnd i)) gene.settings.pipValue =
            .ok base := by
  unfold WalkforwardPopulationInput.populationWindowBase
  rw [anyAdaptive_population]
  by_cases hany : ∃ gene ∈ genes, gene.isAdaptive = true
  · obtain ⟨gene, hgene, hadaptive⟩ := hany
    obtain ⟨row, hrow⟩ := hgenes gene hgene
    obtain ⟨settings, hsettings, -⟩ := bind_ok_iff.mp hrow
    have hadaptive' : lt (lit 0) gene.settings.adaptiveVolMult = true := hadaptive
    rcases world.settingsForWalkforwardWindow_ok hsettings with
      ⟨-, base, hbase, -⟩ | ⟨hfixed, -⟩
    · rw [hpip gene hgene hadaptive] at hbase
      refine ⟨base, ?_, ?_⟩
      · rw [if_pos (by simpa using ⟨gene, hgene, hadaptive⟩)]
        exact hbase
      · intro other hother hadaptive
        rw [hpip other hother hadaptive]
        exact hbase
    · rw [hadaptive'] at hfixed
      cases hfixed
  · refine ⟨none, ?_, ?_⟩
    · rw [if_neg (by simpa using hany)]
    · intro gene hgene hadaptive
      exact absurd ⟨gene, hgene, hadaptive⟩ hany

variable {run : PopulationRun F}

theorem evaluateGenes_ok {input : WalkforwardPopulationInput F} {base : Option (List F)}
    {i g : Nat} {rows : List (EvalMetrics F × List (Trade F))} {suppliesTrades : Bool}
    (hcancel : ∀ point, run.checkCancel point = .ok ⟨⟩)
    (hrisk : List.Forall₂ (fun gene row => input.geneDiagnostics world gene base
      (if suppliesTrades then some row.2 else none) (input.testStart i) (input.windowEnd i) row.1 =
        .ok (input.diagnostics world row.2 (input.testStart i) (input.windowEnd i) row.1))
      genes rows) :
    input.evaluateGenes world run base i g genes (rows.map (·.1))
      (if suppliesTrades then some (rows.map (·.2)) else none) =
        .ok (rows.map (input.splitOf world i)) := by
  induction hrisk generalizing g with
  | nil => rfl
  | @cons gene row genes rows hgene hrest ih =>
    refine check_ok_iff.mpr ⟨hcancel _, bind_ok_iff.mpr ⟨_, ?_, bind_ok_iff.mpr ⟨_, ?_, rfl⟩⟩⟩
    · cases suppliesTrades with
      | true => exact hgene
      | false => exact hgene
    · cases suppliesTrades with
      | true => exact ih
      | false => exact ih

/-- A window of the population call, once every gene has its row. -/
theorem evaluateWindow_of_rows {i : Nat} {rows : List (EvalMetrics F × List (Trade F))}
    {suppliesTrades : Bool} (hcancel : ∀ point, run.checkCancel point = .ok ⟨⟩)
    (hmetrics : run.metricsFn = input.cpuWindow world genes suppliesTrades)
    (hpip : ∀ gene ∈ genes, gene.isAdaptive = true → gene.settings.pipValue = adaptivePip)
    (hdays : input.timestamps.map world.calendar.calendarDayKeyMs = input.days.map some)
    (hclose : slice input.close (input.testStart i) (input.windowEnd i) ≠ [])
    (hindex : slice input.days (input.testStart i) (input.windowEnd i) ≠ [])
    (hrows : genes.mapM (input.evaluateGeneWindow world · (input.testStart i) (input.windowEnd i)) =
      .ok rows) :
    (input.population genes adaptivePip).evaluateWindow world (genes.map (·.signals)) run i =
      .ok (rows.map (input.splitOf world i)) := by
  have hforall := mapM_ok_iff.mp hrows
  have hlength : rows.length = genes.length := hforall.length_eq.symm
  have hprovider : run.metricsFn (input.testStart i) (input.windowEnd i) =
      .ok ⟨rows.map (·.1), if suppliesTrades then some (rows.map (·.2)) else none⟩ := by
    rw [hmetrics]
    exact map_ok_iff.mpr ⟨rows, hrows, rfl⟩
  obtain ⟨base, hbase, hshared⟩ : ∃ base,
      (input.population genes adaptivePip).populationWindowBase world i
        (if suppliesTrades then some (rows.map (·.2)) else none) = .ok base ∧
      List.Forall₂ (fun gene row =>
        (input.population genes adaptivePip).geneDiagnostics world gene base
          (if suppliesTrades then some row.2 else none) (input.testStart i) (input.windowEnd i)
          row.1 = .ok (input.diagnostics world row.2 (input.testStart i) (input.windowEnd i) row.1))
        genes rows := by
    cases suppliesTrades with
    | true =>
      refine ⟨none, if_neg (by simp), ?_⟩
      exact hforall.imp fun gene row hrow => rfl
    | false =>
      have hgenes := Fallible.exists_mapM_ok_iff.mp ⟨rows, hrows⟩
      obtain ⟨base, hbase, hshared⟩ := exists_populationWindowBase hpip hgenes
      refine ⟨base, hbase, ?_⟩
      refine List.forall₂_iff_get.mpr ⟨hlength.symm, ?_⟩
      intro k hk hk'
      exact geneDiagnostics_simulated hclose hindex hdays
        (hshared _ (List.get_mem genes ⟨k, hk⟩)) (hforall.get hk hk')
  refine check_ok_iff.mpr ⟨hcancel _, bind_ok_iff.mpr ⟨_, hprovider, ?_⟩⟩
  refine check_ok_iff.mpr ⟨hcancel _, check_ok_iff.mpr ⟨?_, check_ok_iff.mpr ⟨?_, ?_⟩⟩⟩
  · simp [hlength]
  · cases suppliesTrades with
    | true => simp [hlength]
    | false => simp
  · refine bind_ok_iff.mpr ⟨base, hbase, ?_⟩
    rw [genes_population]
    exact evaluateGenes_ok hcancel hshared

/-- A window of the population call holds the split of each gene, in the order of the genes. -/
theorem evaluateWindow_ok_iff {i : Nat} {splits : List (WalkforwardSplitResult F)}
    {suppliesTrades : Bool} (hcancel : ∀ point, run.checkCancel point = .ok ⟨⟩)
    (hmetrics : run.metricsFn = input.cpuWindow world genes suppliesTrades)
    (hpip : ∀ gene ∈ genes, gene.isAdaptive = true → gene.settings.pipValue = adaptivePip)
    (hdays : input.timestamps.map world.calendar.calendarDayKeyMs = input.days.map some)
    (hclose : slice input.close (input.testStart i) (input.windowEnd i) ≠ [])
    (hindex : slice input.days (input.testStart i) (input.windowEnd i) ≠ []) :
    (input.population genes adaptivePip).evaluateWindow world (genes.map (·.signals)) run i =
        .ok splits ↔
      genes.mapM (input.evaluateSplit world · i) = .ok splits := by
  simp only [evaluateSplit_eq, Fallible.mapM_map_ok_iff]
  constructor
  · intro h
    obtain ⟨-, hchecked⟩ := check_ok_iff.mp h
    obtain ⟨window, hwindow, -⟩ := bind_ok_iff.mp hchecked
    have hprovider : input.cpuWindow world genes suppliesTrades (input.testStart i)
        (input.windowEnd i) = .ok window := by
      rw [← hmetrics]
      exact hwindow
    obtain ⟨rows, hrows, -⟩ := map_ok_iff.mp hprovider
    have hsplits := evaluateWindow_of_rows hcancel hmetrics hpip hdays hclose hindex hrows
    exact ⟨rows, hrows, Except.ok.inj (hsplits.symm.trans h)⟩
  · intro h
    obtain ⟨rows, hrows, rfl⟩ := h
    exact evaluateWindow_of_rows hcancel hmetrics hpip hdays hclose hindex hrows

end WalkforwardInput

end Neoethos
