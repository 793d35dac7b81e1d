import Neoethos.FloatOps
import Neoethos.TrialMatrix

namespace Neoethos

open FloatOps (lit ofInt lt le isFinite)

variable {F : Type*} [FloatOps F] [FloatOps.Elementary F]

/-- A polynomial in the order of evaluation of the source, highest coefficient first. -/
def horner (x : F) : List F → F
  | [] => lit 0
  | c :: cs => cs.foldl (fun acc c => acc * x + c) c

def erf (x : F) : F :=
  let sign : F := if lt x (lit 0) then lit (-1) else lit 1
  let x := FloatOps.abs x
  let t := lit 1 / (lit 1 + lit 0.3275911 * x)
  let y := lit 1 -
    ((((lit 1.061405429 * t - lit 1.453152027) * t + lit 1.421413741) * t - lit 0.284496736) * t +
      lit 0.254829592) * t * FloatOps.Elementary.exp (-x * x)
  sign * y

def normalCdf (z : F) : F :=
  if isFinite z then lit 0.5 * (lit 1 + erf (z / lit 1.41421356237309504880168872420969808))
  else if lt (lit 0) z then lit 1
  else lit 0

def acklamA : List F := [lit (-39.69683028665376), lit 220.9460984245205,
  lit (-275.9285104469687), lit 138.3577518672690, lit (-30.66479806614716),
  lit 2.506628277459239]

def acklamB : List F := [lit (-54.47609879822406), lit 161.5858368580409,
  lit (-155.6989798598866), lit 66.80131188771972, lit (-13.28068155288572)]

def acklamC : List F := [lit (-0.007784894002430293), lit (-0.3223964580411365),
  lit (-2.400758277161838), lit (-2.549732539343734), lit 4.374664141464968,
  lit 2.938163982698783]

def acklamD : List F := [lit 0.007784695709041462, lit 0.3224671290700398,
  lit 2.445134137142996, lit 3.754408661907416]

def normalPpf (p : F) : Option F :=
  if isFinite p && lt (lit 0) p && lt p (lit 1) then
    let pLow : F := lit 0.02425
    let pHigh : F := lit 1 - pLow
    let x :=
      if lt p pLow then
        let q := FloatOps.sqrt (lit (-2) * FloatOps.Elementary.ln p)
        horner q acklamC / horner q (acklamD ++ [lit 1])
      else if le p pHigh then
        let q := p - lit 0.5
        let r := q * q
        horner r acklamA * q / horner r (acklamB ++ [lit 1])
      else
        let q := FloatOps.sqrt (lit (-2) * FloatOps.Elementary.ln (lit 1 - p))
        let tail := -horner q acklamC
        tail / horner q (acklamD ++ [lit 1])
    if isFinite x then some x else none
  else
    none

def moments (xs : List F) : Option (F × F × F × F) :=
  if xs.length < 4 || xs.any (!isFinite ·) then
    none
  else
    let nf : F := ofInt xs.length
    let mean := FloatOps.sum xs / nf
    let power (f : F → F) : F := xs.foldl (fun acc x => acc + f (x - mean)) (lit 0) / nf
    let m2 := power fun d => d * d
    let m3 := power fun d => d * d * d
    let m4 := power fun d => d * d * (d * d)
    if le m2 (lit 0) || !isFinite m2 then
      none
    else
      let sdSample := FloatOps.sqrt (m2 * nf / (nf - lit 1))
      let skew := m3 / FloatOps.Elementary.powf m2 (lit 1.5)
      let kurt := m4 / (m2 * m2)
      if [mean, sdSample, skew, kurt].all (isFinite ·) then some (mean, sdSample, skew, kurt)
      else none

def perPeriodSharpe (xs : List F) : Option F :=
  if xs.length < 2 || xs.any (!isFinite ·) then
    none
  else
    let nf : F := ofInt xs.length
    let mean := FloatOps.sum xs / nf
    let var := FloatOps.sum (xs.map fun x => (x - mean) * (x - mean)) / (nf - lit 1)
    if le var (lit 0) || !isFinite var then
      none
    else
      let sr := mean / FloatOps.sqrt var
      if isFinite sr then some sr else none

def MIN_PERIODS_FOR_DSR : Nat := 24

def MIN_TRIALS_FOR_DSR : Nat := 10

inductive TrialsNSource
  | rows (rows : Nat)
  | offered (trialsOffered rows : Nat)
  | redeflated (trialsN was : Nat)
  deriving DecidableEq

/-- The sentences of a report, with the numbers that they show. -/
inductive DsrAssumption (F : Type*)
  | honestDenominator (trialsN : Nat) (source : TrialsNSource)
  | calendarMonths (periods : Nat)
  | zeroBenchmark
  | crossTrialVariance (variance : F) (trialsWithSharpe : Nat)
  | probabilityNotSharpe
  | closedForms
  | independentDraws
  | redeflated (was trialsN : Nat) (srStarMoved dsrMoved : F)

/-- The refusals, with the numbers that their texts show. -/
inductive SharpeRefusal (F : Type*)
  | tooFewPeriods (periods : Nat)
  | tooFewTrials (rows : Nat)
  | tooFewSharpes (computable rows : Nat)
  | noSharpe
  | degenerateChampion (strategyId : String)
  | zeroVariance (trials : Nat)
  | quantiles (trialsN : Nat)
  | infiniteMaximum
  | varianceTerm (denomSq skew kurt rawSr : F)
  | infiniteRatio

structure DeflatedSharpeReport (F : Type*) where
  trialsN : Nat
  trialsNSource : TrialsNSource
  trialsWithSharpe : Nat
  periods : Nat
  periodUnit : String
  championStrategyId : String
  championCandidateIndex : UInt64
  rawSharpePerPeriod : F
  rawSharpeAnnualised : F
  skewness : F
  kurtosis : F
  sharpeVarianceAcrossTrials : F
  expectedMaxSharpePerPeriod : F
  expectedMaxSharpeAnnualised : F
  excessOverExpectedMaxPerPeriod : F
  deflatedSharpeRatio : F
  assumptions : List (DsrAssumption F)

section Deflation

variable {F : Type*} [FloatOps F] [FloatOps.Elementary F]

/-- `√12`, the step from a month to a year. -/
def annualisation : F := FloatOps.sqrt (lit 12)

def EULER_MASCHERONI : F := lit 0.5772156649015329

def expectedMaxSharpe (sharpeVarianceAcrossTrials : F) (trialsN : Nat) :
    Except (SharpeRefusal F) F :=
  let n : F := ofInt trialsN
  match normalPpf (lit 1 - lit 1 / n),
      normalPpf (lit 1 - lit 1 / (n * lit 2.71828182845904523536028747135266250)) with
  | some q1, some q2 =>
    let srStar := FloatOps.sqrt sharpeVarianceAcrossTrials *
      ((lit 1 - EULER_MASCHERONI) * q1 + EULER_MASCHERONI * q2)
    if isFinite srStar then .ok srStar else .error .infiniteMaximum
  | _, _ => .error (.quantiles trialsN)

def dsrFromMoments (rawSr srStar skew kurt : F) (periods : Nat) : Except (SharpeRefusal F) F :=
  let t : F := ofInt periods
  let denomSq := lit 1 - skew * rawSr + (kurt - lit 1) / lit 4 * rawSr * rawSr
  if le denomSq (lit 0) || !isFinite denomSq then
    .error (.varianceTerm denomSq skew kurt rawSr)
  else
    let z := (rawSr - srStar) * FloatOps.sqrt (t - lit 1) / FloatOps.sqrt denomSq
    let dsr := normalCdf z
    if isFinite dsr then .ok dsr else .error .infiniteRatio

/-- The two steps that rest on the trial count: `SR*`, and the ratio against it. -/
def deflate (rawSr variance skew kurt : F) (periods trialsN : Nat) :
    Except (SharpeRefusal F) (F × F) := do
  let srStar ← expectedMaxSharpe variance trialsN
  let dsr ← dsrFromMoments rawSr srStar skew kurt periods
  pure (srStar, dsr)

def redeflateSharpe (report : DeflatedSharpeReport F) (trialsOffered : Nat) :
    Except (SharpeRefusal F) (DeflatedSharpeReport F) :=
  let trialsN := max trialsOffered report.trialsN
  if trialsN = report.trialsN then
    .ok report
  else do
    let (srStar, dsr) ← deflate report.rawSharpePerPeriod report.sharpeVarianceAcrossTrials
      report.skewness report.kurtosis report.periods trialsN
    pure { report with
      trialsN := trialsN
      trialsNSource := .redeflated trialsN report.trialsN
      expectedMaxSharpePerPeriod := srStar
      expectedMaxSharpeAnnualised := srStar * annualisation
      excessOverExpectedMaxPerPeriod := report.rawSharpePerPeriod - srStar
      deflatedSharpeRatio := dsr
      assumptions := report.assumptions ++ [.redeflated report.trialsN trialsN
        (srStar - report.expectedMaxSharpePerPeriod) (dsr - report.deflatedSharpeRatio)] }

/-- The Sharpe ratios of the rows that have one, and the first row with the best. -/
def collectSharpes (rows : List (DecodedTrialRow F)) :
    List F × Option (DecodedTrialRow F × F) :=
  rows.foldl (fun (sharpes, best) row =>
    match perPeriodSharpe row.returns with
    | none => (sharpes, best)
    | some sr =>
      (sharpes ++ [sr], if best.all (fun b => lt b.2 sr) then some (row, sr) else best))
    ([], none)

/-- The champion, its moments and the variance of the Sharpe ratios across the trials. -/
structure ChampionStatistics (F : Type*) where
  champion : DecodedTrialRow F
  rawSr : F
  skew : F
  kurt : F
  variance : F
  trialsWithSharpe : Nat

/-- What `deflated_sharpe` computes before the trial count enters. -/
def championStatistics (matrix : DecodedTrialMatrix F) :
    Except (SharpeRefusal F) (ChampionStatistics F) :=
  let rows := matrix.trials
  if matrix.periods < MIN_PERIODS_FOR_DSR then
    .error (.tooFewPeriods matrix.periods)
  else if rows < MIN_TRIALS_FOR_DSR then
    .error (.tooFewTrials rows)
  else
    let (sharpes, best) := collectSharpes matrix.rows
    if sharpes.length < MIN_TRIALS_FOR_DSR then
      .error (.tooFewSharpes sharpes.length rows)
    else
      match best with
      | none => .error .noSharpe
      | some (champion, rawSr) =>
        match moments champion.returns with
        | none => .error (.degenerateChampion champion.strategyId)
        | some (_, _, skew, kurt) =>
          let nf : F := ofInt sharpes.length
          let srMean := FloatOps.sum sharpes / nf
          let srVar := FloatOps.sum
            (sharpes.map fun s => FloatOps.Elementary.powi (s - srMean) 2) / (nf - lit 1)
          if le srVar (lit 0) || !isFinite srVar then
            .error (.zeroVariance sharpes.length)
          else
            .ok ⟨champion, rawSr, skew, kurt, srVar, sharpes.length⟩

def deflatedSharpe (matrix : DecodedTrialMatrix F) (trialsOffered : Nat) :
    Except (SharpeRefusal F) (DeflatedSharpeReport F) := do
  let c ← championStatistics matrix
  let rows := matrix.trials
  let periods := matrix.periods
  let (trialsN, trialsNSource) :=
    if rows < trialsOffered then (trialsOffered, TrialsNSource.offered trialsOffered rows)
    else (rows, TrialsNSource.rows rows)
  let (srStar, dsr) ← deflate c.rawSr c.variance c.skew c.kurt periods trialsN
  pure {
    trialsN
    trialsNSource
    trialsWithSharpe := c.trialsWithSharpe
    periods
    periodUnit := "calendar_month"
    championStrategyId := c.champion.strategyId
    championCandidateIndex := c.champion.candidateIndex
    rawSharpePerPeriod := c.rawSr
    rawSharpeAnnualised := c.rawSr * annualisation
    skewness := c.skew
    kurtosis := c.kurt
    sharpeVarianceAcrossTrials := c.variance
    expectedMaxSharpePerPeriod := srStar
    expectedMaxSharpeAnnualised := srStar * annualisation
    excessOverExpectedMaxPerPeriod := c.rawSr - srStar
    deflatedSharpeRatio := dsr
    assumptions := [.honestDenominator trialsN trialsNSource, .calendarMonths periods,
      .zeroBenchmark, .crossTrialVariance c.variance c.trialsWithSharpe, .probabilityNotSharpe,
      .closedForms, .independentDraws] }

end Deflation

end Neoethos
