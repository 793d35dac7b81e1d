import Neoethos.Fallible
import Neoethos.WalkforwardRisk

/-! The embargoed walk-forward of one gene, `embargoed_walkforward_backtest_core`. -/

namespace Neoethos

open Fallible (refuse require)
open FloatOps (lit lt le isFinite isPositive)

inductive StopDistanceError (F : Type)
  | tooShort (bars needed : Nat)
  | tailCapExceeded (bars cap : Nat)
  | invalidScalar (name : String) (value : F)
  | invalidSettings (detail : String)
  | degenerate (median : F)

/-- The refusals of `validate_sizing_confidences`. -/
inductive SizingError
  | conversionFeeRate
  | initialEquity
  | confidenceLength (confidences bars : Nat) (riskBasedSizing : Bool)
  | confidenceRange
  | riskFractions

inductive WalkforwardError (F : Type)
  | lengthMismatch
  | sizing (error : SizingError)
  | balance
  | zeroSplits
  | trainRatio
  | replayLength
  | adaptiveBase (error : StopDistanceError F)
  | geneSettings (settings genes : Nat)
  | confidenceCount
  | signalLength (gene signals bars : Nat)
  | adaptivePip (pip : F)
  | embargoOverflow
  | allocationOverflow
  | metricRows (split rows genes : Nat)
  | tradeLists (split : Nat)
  | zeroWidth
  | admission (message : String)
  | cancelled
  | panicked

/-- What the walk-forward reads besides its arguments: the process defaults, the calendar, and
the stop distances that the adaptive base is scaled from. -/
structure WalkforwardWorld (F : Type) where
  runtime : BacktestRuntime F
  calendar : UtcCalendar
  stopDistances : List F → List F → List F → Except (StopDistanceError F) (List F)

/-- The arguments that do not depend on the gene. -/
structure WalkforwardInput (F : Type) extends WalkforwardRiskLimits F where
  close : List F
  high : List F
  low : List F
  months : List Int
  days : List Int
  timestamps : List Int
  trainRatio : F
  nSplits : Nat
  embargoBars : Nat

structure WalkforwardGene (F : Type) where
  signals : List Int
  confidences : List F
  settings : BacktestSettings F

/-- `&xs[start..stop]`. -/
def slice {α : Type*} (xs : List α) (start stop : Nat) : List α := (xs.take stop).drop start

variable {F : Type} [FloatOps F]

def validateSizingConfidences (runtime : BacktestRuntime F) (bars : Nat) (confidences : List F)
    (settings : BacktestSettings F) : Except (WalkforwardError F) Unit := do
  refuse (validConversionFeeRate settings.pnlConversionFeeRate = false) (.sizing .conversionFeeRate)
  refuse (isPositive (settings.initialEquity runtime) = false) (.sizing .initialEquity)
  refuse ((confidences ≠ [] ∨ settings.riskBasedSizing = true) ∧ confidences.length ≠ bars)
    (.sizing (.confidenceLength confidences.length bars settings.riskBasedSizing))
  refuse ((confidences.any fun value =>
      !isFinite value || !(le (lit 0) value && le value (lit 1))) = true)
    (.sizing .confidenceRange)
  refuse (settings.riskBasedSizing = true ∧
      (isFinite settings.riskPerTradeMin = false ∨ isFinite settings.riskPerTradeMax = false ∨
        lt settings.riskPerTradeMin (lit 0) = true ∨
        lt settings.riskPerTradeMax settings.riskPerTradeMin = true ∨
        lt (lit 1) settings.riskPerTradeMax = true ∨
        isFinite settings.highQualityConfidence = false ∨
        (le (lit 0) settings.highQualityConfidence &&
          le settings.highQualityConfidence (lit 1)) = false ∨
        FloatOps.eq settings.highQualityConfidence (lit 0) = true))
    (.sizing .riskFractions)

/-- `evaluate_strategy_with_confidence_and_ledger_core`: the metrics and the trades. -/
def evaluateWithConfidenceAndLedger (runtime : BacktestRuntime F) (inp : EvalInput F) :
    Except (WalkforwardError F) (EvalMetrics F × List (Trade F)) := do
  let bars := inp.close.length
  refuse (inp.high.length ≠ bars ∨ inp.low.length ≠ bars ∨ inp.signals.length ≠ bars ∨
      inp.timestamps.length ≠ bars ∨ inp.dayIdx.length ≠ bars ∨
      (inp.monthIdx ≠ [] ∧ inp.monthIdx.length ≠ bars)) .replayLength
  validateSizingConfidences runtime bars inp.confidences inp.settings
  let result ← require (evaluateStrategyWithLedger runtime inp) .panicked
  return (result.metrics, result.trades.map (·.2))

/-- `simulate_trades_with_confidence_core`: no months, and the days are those of the epoch. -/
def simulateTradesWithConfidence (runtime : BacktestRuntime F) (inp : EvalInput F) :
    Except (WalkforwardError F) (List (Trade F)) := do
  let days := inp.timestamps.map (· / 86400000)
  let (_, trades) ← evaluateWithConfidenceAndLedger runtime
    { inp with monthIdx := [], dayIdx := days }
  return trades

namespace WalkforwardWorld

variable (world : WalkforwardWorld F)

/-- `adaptive_base_pips_series`; the pip is checked before anything else. -/
def adaptiveBasePipsSeries (high low close : List F) (pipSize : F) :
    Except (StopDistanceError F) (List F) :=
  if isPositive pipSize = false then .error (.invalidScalar "pip_size" pipSize)
  else (world.stopDistances high low close).map (·.map (· / pipSize))

/-- The base of a window. A window that is too short has none, and any other error is fatal. -/
def windowBase (high low close : List F) (pipSize : F) :
    Except (WalkforwardError F) (Option (List F)) :=
  match world.adaptiveBasePipsSeries high low close pipSize with
  | .ok base => .ok (some base)
  | .error (.tooShort _ _) => .ok none
  | .error error => .error (.adaptiveBase error)

def settingsForWalkforwardWindow (settings : BacktestSettings F) (high low close : List F) :
    Except (WalkforwardError F) (BacktestSettings F) := do
  if lt (lit 0) settings.adaptiveVolMult then
    let base ← world.windowBase high low close settings.pipValue
    return { settings with adaptiveBasePips := base }
  else return settings

end WalkforwardWorld

namespace WalkforwardInput

variable (world : WalkforwardWorld F) (input : WalkforwardInput F)

def window : Nat := max (input.close.length / input.nSplits) 1

def trainRows : Nat := FloatOps.toUsize (FloatOps.ofInt input.window * input.trainRatio)

def windowEnd (i : Nat) : Nat := min ((i + 1) * input.window) input.close.length

def trainEnd (i : Nat) : Nat := i * input.window + input.trainRows

def testStart (i : Nat) : Nat := input.trainEnd i + input.embargoBars

/-- The arguments of the evaluator on the rows `[start, stop)`. -/
def evalInput (gene : WalkforwardGene F) (settings : BacktestSettings F) (start stop : Nat) :
    EvalInput F where
  close := slice input.close start stop
  high := slice input.high start stop
  low := slice input.low start stop
  signals := slice gene.signals start stop
  confidences := if gene.confidences.isEmpty then [] else slice gene.confidences start stop
  monthIdx := slice input.months start stop
  dayIdx := slice input.days start stop
  timestamps := slice input.timestamps start stop
  settings := settings
  netted := none

/-- One gene on one window: its metrics and its trades, under the window's adaptive base. -/
def evaluateGeneWindow (gene : WalkforwardGene F) (start stop : Nat) :
    Except (WalkforwardError F) (EvalMetrics F × List (Trade F)) := do
  let settings ← world.settingsForWalkforwardWindow gene.settings (slice input.high start stop)
    (slice input.low start stop) (slice input.close start stop)
  evaluateWithConfidenceAndLedger world.runtime (input.evalInput gene settings start stop)

def diagnostics (trades : List (Trade F)) (start stop : Nat) (metrics : EvalMetrics F) :
    WalkforwardRiskDiagnostics F :=
  walkforwardRiskDiagnosticsFromTrades world.calendar input.toWalkforwardRiskLimits trades
    (slice input.days start stop) metrics.maxDailyDd

def evaluateSplit (gene : WalkforwardGene F) (i : Nat) :
    Except (WalkforwardError F) (WalkforwardSplitResult F) := do
  let (metrics, trades) ← input.evaluateGeneWindow world gene (input.testStart i) (input.windowEnd i)
  return splitResult i metrics
    (input.diagnostics world trades (input.testStart i) (input.windowEnd i) metrics)

/-- The closure of the parallel loop; a split that does not qualify has no result. -/
def splitOutcome (gene : WalkforwardGene F) (i : Nat) :
    Except (WalkforwardError F) (Option (WalkforwardSplitResult F)) :=
  if input.windowEnd i ≤ input.testStart i ∨ input.trainEnd i - i * input.window < 40 ∨
      input.windowEnd i - input.testStart i < 40 then .ok none
  else (input.evaluateSplit world gene i).map some

def LengthsMatch : Prop :=
  input.close.length ≠ 0 ∧ input.high.length = input.close.length ∧
    input.low.length = input.close.length ∧ input.months.length = input.close.length ∧
    input.days.length = input.close.length ∧ input.timestamps.length = input.close.length

instance : Decidable input.LengthsMatch := by
  unfold LengthsMatch
  infer_instance

def trainRatioOk : Bool :=
  isFinite input.trainRatio && le (lit 0) input.trainRatio && lt input.trainRatio (lit 1)

def balanceMatches (settings : BacktestSettings F) : Bool :=
  isPositive input.initialBalance &&
    FloatOps.eq input.initialBalance (settings.initialEquity world.runtime)

/-- The results of the splits of one gene, in the order of the splits. -/
def splitResults (gene : WalkforwardGene F) :
    Except (WalkforwardError F) (List (WalkforwardSplitResult F)) :=
  if input.window < 80 then .ok []
  else ((List.range input.nSplits).mapM (input.splitOutcome world gene)).map
    (·.filterMap fun outcome => outcome)

end WalkforwardInput

/-- `embargoed_walkforward_backtest_core`. -/
def embargoedWalkforwardBacktestCore (world : WalkforwardWorld F) (input : WalkforwardInput F)
    (gene : WalkforwardGene F) : Except (WalkforwardError F) (WalkforwardSummary F) := do
  refuse (¬(input.LengthsMatch ∧ gene.signals.length = input.close.length)) .lengthMismatch
  validateSizingConfidences world.runtime input.close.length gene.confidences gene.settings
  refuse (input.balanceMatches world gene.settings = false) .balance
  refuse (input.nSplits = 0) .zeroSplits
  refuse (input.trainRatioOk = false) .trainRatio
  let results ← input.splitResults world gene
  return summarizeWalkforwardSplits (results.mergeSort fun a b => a.split ≤ b.split)

/-! The walk-forward of a population, `embargoed_walkforward_population_with_admission`: the
windows are walked once, and each evaluates all genes. -/

/-- What a provider returns for one window: a row of metrics for each gene, and the trade lists
where it has them. -/
structure WindowEvaluation (F : Type) where
  metrics : List (EvalMetrics F)
  trades : Option (List (List (Trade F)))

structure WalkforwardPopulationInput (F : Type) extends WalkforwardInput F where
  geneSettings : List (BacktestSettings F)
  confidencesPerGene : List (List F)
  adaptivePip : F

/-- The places where the run asks whether it was cancelled. Each comes up at most once. -/
inductive CancelPoint
  | batch (nextSplit : Nat)
  | window (split : Nat)
  | evaluated (split : Nat)
  | gene (split gene : Nat)
  | batchDone (nextSplit : Nat)

/-- The parameters of a run. An admission sees the rows and the splits that remain; which call it
is, the first argument says. -/
structure PopulationRun (F : Type) where
  parallelCpuWindows : Bool
  metricsFn : Nat → Nat → Except (WalkforwardError F) (WindowEvaluation F)
  admission : Nat → Nat → Nat → Except (WalkforwardError F) Nat
  checkCancel : CancelPoint → Except (WalkforwardError F) Unit
  currentNumThreads : Nat

variable (world : WalkforwardWorld F)

namespace WalkforwardPopulationInput

variable (input : WalkforwardPopulationInput F) (signalsPerGene : List (List Int))

/-- The genes, once the three lists are known to have one length. -/
def genes : List (WalkforwardGene F) :=
  List.zipWith (fun signals (confidences, settings) => ⟨signals, confidences, settings⟩)
    signalsPerGene (input.confidencesPerGene.zip input.geneSettings)

def anyAdaptive : Bool := input.geneSettings.any fun settings => lt (lit 0) settings.adaptiveVolMult

def testOffset : Nat := input.trainRows + input.embargoBars

def validate : Except (WalkforwardError F) Unit := do
  refuse (¬input.LengthsMatch) .lengthMismatch
  refuse (input.geneSettings.length ≠ signalsPerGene.length)
    (.geneSettings input.geneSettings.length signalsPerGene.length)
  refuse (input.confidencesPerGene.length ≠ signalsPerGene.length) .confidenceCount
  forM (input.confidencesPerGene.zip input.geneSettings) fun (confidences, settings) => do
    validateSizingConfidences world.runtime input.close.length confidences settings
    refuse (input.balanceMatches world settings = false) .balance
  forM signalsPerGene.zipIdx fun (signals, gene) =>
    refuse (signals.length ≠ input.close.length)
      (.signalLength gene signals.length input.close.length)
  refuse (input.nSplits = 0) .zeroSplits
  refuse (input.trainRatioOk = false) .trainRatio

def diagnosticSettings (settings : BacktestSettings F) (base : Option (List F)) :
    BacktestSettings F :=
  if lt (lit 0) settings.adaptiveVolMult then { settings with adaptiveBasePips := base }
  else settings

/-- The diagnostics of one gene: over the provider's trades, or over a simulation. -/
def geneDiagnostics (gene : WalkforwardGene F) (base : Option (List F))
    (trades : Option (List (Trade F))) (start stop : Nat) (metrics : EvalMetrics F) :
    Except (WalkforwardError F) (WalkforwardRiskDiagnostics F) :=
  match trades with
  | some trades => .ok (input.diagnostics world trades start stop metrics)
  | none =>
    if (slice input.close start stop).isEmpty ∨ (slice input.days start stop).isEmpty then
      .ok WalkforwardRiskDiagnostics.default
    else (simulateTradesWithConfidence world.runtime
        (input.evalInput gene (diagnosticSettings gene.settings base) start stop)).map
      (input.diagnostics world · start stop metrics)

variable (run : PopulationRun F)

/-- The loop over the genes of window `i`, from gene `g` on. -/
def evaluateGenes (base : Option (List F)) (i : Nat) : Nat → List (WalkforwardGene F) →
    List (EvalMetrics F) → Option (List (List (Trade F))) →
    Except (WalkforwardError F) (List (WalkforwardSplitResult F))
  | g, gene :: genes, metrics :: rows, trades => do
    run.checkCancel (.gene i g)
    let risk ← input.geneDiagnostics world gene base (trades.bind (·.head?)) (input.testStart i)
      (input.windowEnd i) metrics
    let results ← evaluateGenes base i (g + 1) genes rows (trades.map (·.tail))
    return splitResult i metrics risk :: results
  | _, _, _, _ => .ok []

/-- The base of window `i`, where a simulation will need it. -/
def populationWindowBase (i : Nat) (trades : Option (List (List (Trade F)))) :
    Except (WalkforwardError F) (Option (List F)) :=
  if input.anyAdaptive && trades.isNone then
    world.windowBase (slice input.high (input.testStart i) (input.windowEnd i))
      (slice input.low (input.testStart i) (input.windowEnd i))
      (slice input.close (input.testStart i) (input.windowEnd i)) input.adaptivePip
  else .ok none

/-- The closure `evaluate_window`. -/
def evaluateWindow (i : Nat) : Except (WalkforwardError F) (List (WalkforwardSplitResult F)) := do
  let nGenes := signalsPerGene.length
  run.checkCancel (.window i)
  let window ← run.metricsFn (input.testStart i) (input.windowEnd i)
  run.checkCancel (.evaluated i)
  refuse (window.metrics.length ≠ nGenes) (.metricRows (i + 1) window.metrics.length nGenes)
  refuse ((window.trades.any (·.length ≠ nGenes)) = true) (.tradeLists (i + 1))
  let base ← input.populationWindowBase world i window.trades
  input.evaluateGenes world run base i 0 (input.genes signalsPerGene) window.metrics window.trades

/-- The width of the batch that starts at `nextSplit`. -/
def batchWidth (nextSplit : Nat) : Except (WalkforwardError F) Nat :=
  let remaining := input.nSplits - nextSplit
  if run.parallelCpuWindows then
    (run.admission nextSplit ((input.window - input.testOffset) * signalsPerGene.length) remaining).map
      fun width => min (min width run.currentNumThreads) remaining
  else .ok 1

/-- Adds the results of one split to the splits of their genes. -/
def pushSplit (perGene : List (List (WalkforwardSplitResult F)))
    (results : List (WalkforwardSplitResult F)) : List (List (WalkforwardSplitResult F)) :=
  List.zipWith (fun splits result => splits ++ [result]) perGene results

/-- The loop over the batches. The windows of a batch may finish in any order; their results are
read in the order of the splits, and so are their errors. -/
def runBatches (nextSplit : Nat) (perGene : List (List (WalkforwardSplitResult F))) :
    Except (WalkforwardError F) (List (List (WalkforwardSplitResult F))) :=
  if nextSplit < input.nSplits then
    match run.checkCancel (.batch nextSplit), input.batchWidth signalsPerGene run nextSplit with
    | .error e, _ => .error e
    | .ok _, .error e => .error e
    | .ok _, .ok width =>
      if _hwidth : 0 < width then
        match (List.range' nextSplit width).mapM
            (input.evaluateWindow world signalsPerGene run) with
        | .error e => .error e
        | .ok completed =>
          match run.checkCancel (.batchDone nextSplit) with
          | .error e => .error e
          | .ok _ => runBatches (nextSplit + width) (completed.foldl pushSplit perGene)
      else .error .zeroWidth
  else .ok perGene
termination_by input.nSplits - nextSplit

end WalkforwardPopulationInput

/-- `embargoed_walkforward_population_with_admission`. -/
def embargoedWalkforwardPopulationWithAdmission (input : WalkforwardPopulationInput F)
    (signalsPerGene : List (List Int)) (run : PopulationRun F) :
    Except (WalkforwardError F) (List (WalkforwardSummary F)) := do
  let nGenes := signalsPerGene.length
  input.validate world signalsPerGene
  if nGenes = 0 then return []
  else if input.window < 80 then
    return List.replicate nGenes (summarizeWalkforwardSplits [])
  else do
    refuse (input.anyAdaptive = true ∧ isPositive input.adaptivePip = false)
      (.adaptivePip input.adaptivePip)
    refuse (2 ^ 64 ≤ input.trainRows + input.embargoBars) .embargoOverflow
    if input.window ≤ input.testOffset ∨ input.trainRows < 40 ∨
        input.window - input.testOffset < 40 then
      return List.replicate nGenes (summarizeWalkforwardSplits [])
    else do
      refuse (run.parallelCpuWindows = true ∧
        2 ^ 64 ≤ (input.window - input.testOffset) * nGenes) .allocationOverflow
      let perGene ← input.runBatches world signalsPerGene run 0 (List.replicate nGenes [])
      return perGene.map summarizeWalkforwardSplits

end Neoethos
