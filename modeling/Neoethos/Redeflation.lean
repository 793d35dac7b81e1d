import Mathlib.Data.List.Induction
import Neoethos.Cscv
import Neoethos.DeflatedSharpe

namespace Neoethos

/-- A refusal as the report shows it; a later one names the counts it was raised between. -/
inductive ReportRefusal (F : Type*)
  | refused (refusal : SharpeRefusal F)
  | whileRedeflating (refusal : SharpeRefusal F) (was now : Nat)

/-- The notes of a report, with the numbers that they show. -/
inductive StatisticsNote
  | killedMidWrite (rows headerTrials truncatedTailBytes : Nat)
  | subsampled (trialsOffered rows : Nat)
  | unitFlagUnset
  | redeflated (now was : Nat)
  deriving DecidableEq

structure TrialStatisticsReport (F : Type*) where
  schema : String
  matrixRows : Nat
  trialsOffered : Nat
  matrixPeriods : Nat
  matrixTruncated : Bool
  deflatedSharpe : Option (DeflatedSharpeReport F)
  deflatedSharpeRefusal : Option (ReportRefusal F)
  pbo : Option (PboReport F)
  pboRefusal : Option PboRefusal
  notes : List StatisticsNote

def TRIAL_STATISTICS_SCHEMA : String := "neoethos.trial_statistics.v1"

section Report

variable {F : Type*} [FloatOps F] [FloatOps.Elementary F]

def analyseMatrix (matrix : DecodedTrialMatrix F) (trialsOffered : Nat) :
    TrialStatisticsReport F :=
  let sharpe := Neoethos.deflatedSharpe matrix trialsOffered
  let pbo := pboCscv matrix
  { schema := TRIAL_STATISTICS_SCHEMA
    matrixRows := matrix.rows.length
    trialsOffered
    matrixPeriods := matrix.periods
    matrixTruncated := matrix.isTruncated
    deflatedSharpe := sharpe.toOption
    deflatedSharpeRefusal :=
      match sharpe with
      | .ok _ => none
      | .error e => some (.refused e)
    pbo := pbo.toOption
    pboRefusal :=
      match pbo with
      | .ok _ => none
      | .error e => some e
    notes :=
      (if matrix.isTruncated then [.killedMidWrite matrix.rows.length matrix.headerTrials
        matrix.truncatedTailBytes] else []) ++
      (if matrix.rows.length < trialsOffered then [.subsampled trialsOffered matrix.rows.length]
        else []) ++
      (if matrix.flags % 2 = 0 then [.unitFlagUnset] else []) }

def TrialStatisticsReport.redeflatedAgainst (report : TrialStatisticsReport F)
    (trialsOffered : Nat) : TrialStatisticsReport F :=
  let was := report.trialsOffered
  let now := max trialsOffered was
  if now = was then
    { report with trialsOffered := now }
  else
    let notes := report.notes ++ [.redeflated now was]
    match report.deflatedSharpe with
    | none => { report with trialsOffered := now, notes }
    | some d =>
      match redeflateSharpe d now with
      | .ok redeflated =>
        { report with
          trialsOffered := now
          deflatedSharpe := some redeflated
          deflatedSharpeRefusal := none
          notes }
      | .error refusal =>
        { report with
          trialsOffered := now
          deflatedSharpe := none
          deflatedSharpeRefusal := some (.whileRedeflating refusal d.trialsN now)
          notes }

end Report

section Numbers

variable {F : Type*}

def DeflatedSharpeReport.withoutTexts (d : DeflatedSharpeReport F) : DeflatedSharpeReport F :=
  { d with trialsNSource := .rows 0, assumptions := [] }

/-- The numbers of the deflated Sharpe ratio, where the report has one. -/
def TrialStatisticsReport.sharpeNumbers (r : TrialStatisticsReport F) :
    Option (DeflatedSharpeReport F) :=
  r.deflatedSharpe.map (·.withoutTexts)

structure SameFrame (r r' : TrialStatisticsReport F) : Prop where
  schema : r.schema = r'.schema
  matrixRows : r.matrixRows = r'.matrixRows
  matrixPeriods : r.matrixPeriods = r'.matrixPeriods
  matrixTruncated : r.matrixTruncated = r'.matrixTruncated
  pbo : r.pbo = r'.pbo
  pboRefusal : r.pboRefusal = r'.pboRefusal

/-- The same value, in all its numbers, or a refusal in both. -/
structure SameSharpe (r r' : TrialStatisticsReport F) : Prop where
  value : r.sharpeNumbers = r'.sharpeNumbers
  refusal : r.deflatedSharpeRefusal.isSome = r'.deflatedSharpeRefusal.isSome

namespace TrialStatisticsReport

variable {r r' : TrialStatisticsReport F}

def Consistent (r : TrialStatisticsReport F) : Prop :=
  r.deflatedSharpeRefusal.isSome = r.deflatedSharpe.isNone

theorem sharpeNumbers_eq_none : r.sharpeNumbers = none ↔ r.deflatedSharpe = none := by
  simp [sharpeNumbers]

theorem sameSharpe_iff (h : r.Consistent) (h' : r'.Consistent) :
    SameSharpe r r' ↔ r.sharpeNumbers = r'.sharpeNumbers := by
  refine ⟨SameSharpe.value, fun hvalue => ⟨hvalue, ?_⟩⟩
  have hnone : r.deflatedSharpe.isNone = r'.deflatedSharpe.isNone := by
    have := congrArg Option.isNone hvalue
    simpa [sharpeNumbers] using this
  rw [h, h', hnone]

end TrialStatisticsReport

end Numbers

variable {F : Type*} [FloatOps F] [FloatOps.Elementary F]

section Sharpe

def DeflatedSharpeReport.withDeflation (d : DeflatedSharpeReport F) (trialsN : Nat)
    (p : F × F) : DeflatedSharpeReport F :=
  { d.withoutTexts with
    trialsN := trialsN
    expectedMaxSharpePerPeriod := p.1
    expectedMaxSharpeAnnualised := p.1 * annualisation
    excessOverExpectedMaxPerPeriod := d.rawSharpePerPeriod - p.1
    deflatedSharpeRatio := p.2 }

def DeflatedSharpeReport.deflateAt (d : DeflatedSharpeReport F) (trialsN : Nat) :
    Except (SharpeRefusal F) (F × F) :=
  deflate d.rawSharpePerPeriod d.sharpeVarianceAcrossTrials d.skewness d.kurtosis d.periods
    trialsN

def DeflatedSharpeReport.redeflated (d : DeflatedSharpeReport F) (trialsOffered : Nat) :
    Option (DeflatedSharpeReport F) :=
  (redeflateSharpe d trialsOffered).toOption.map (·.withoutTexts)

namespace DeflatedSharpeReport

variable {d d' : DeflatedSharpeReport F} {b c : Nat}

theorem redeflated_of_le (h : b ≤ d.trialsN) : d.redeflated b = some d.withoutTexts := by
  have hmax : max b d.trialsN = d.trialsN := Nat.max_eq_right h
  simp only [redeflated, redeflateSharpe, hmax, if_true]
  rfl

theorem redeflated_of_lt (h : d.trialsN < b) :
    d.redeflated b = (d.deflateAt b).toOption.map (d.withDeflation b) := by
  have hmax : max b d.trialsN = b := Nat.max_eq_left (Nat.le_of_lt h)
  have hmoved : ¬b = d.trialsN := by omega
  simp only [redeflated, redeflateSharpe, hmax, if_neg hmoved]
  show (Except.toOption ((d.deflateAt b).bind _)).map _ = _
  cases d.deflateAt b with
  | error e => rfl
  | ok p => rfl

theorem redeflated_withoutTexts (d : DeflatedSharpeReport F) (b : Nat) :
    d.withoutTexts.redeflated b = d.redeflated b := by
  by_cases h : b ≤ d.trialsN
  · have h' : b ≤ d.withoutTexts.trialsN := h
    rw [redeflated_of_le h, redeflated_of_le h']
    rfl
  · have h' : d.withoutTexts.trialsN < b := Nat.lt_of_not_le h
    rw [redeflated_of_lt (Nat.lt_of_not_le h), redeflated_of_lt h']
    rfl

theorem redeflated_redeflated (h : d.redeflated b = some d') (hbc : b ≤ c) :
    d'.redeflated c = d.redeflated c := by
  by_cases hb : b ≤ d.trialsN
  · rw [redeflated_of_le hb] at h
    rw [← Option.some.inj h, redeflated_withoutTexts]
  · have hb : d.trialsN < b := Nat.lt_of_not_le hb
    have hc : d.trialsN < c := Nat.lt_of_lt_of_le hb hbc
    have hagain := h
    rw [redeflated_of_lt hb] at h
    obtain ⟨p, _, rfl⟩ := Option.map_eq_some_iff.mp h
    have htrials : (d.withDeflation b p).trialsN = b := rfl
    by_cases hcb : c ≤ b
    · obtain rfl : b = c := Nat.le_antisymm hbc hcb
      rw [redeflated_of_le (by rw [htrials]), hagain]
      rfl
    · rw [redeflated_of_lt (by rw [htrials]; omega), redeflated_of_lt hc]
      rfl

end DeflatedSharpeReport

end Sharpe

namespace TrialStatisticsReport

variable {r : TrialStatisticsReport F} {b c : Nat}

theorem trialsOffered_redeflatedAgainst (r : TrialStatisticsReport F) (b : Nat) :
    (r.redeflatedAgainst b).trialsOffered = max b r.trialsOffered := by
  unfold redeflatedAgainst
  simp only
  split
  next => rfl
  next =>
    split
    next => rfl
    next => split <;> rfl

theorem sameFrame_redeflatedAgainst (r : TrialStatisticsReport F) (b : Nat) :
    SameFrame (r.redeflatedAgainst b) r := by
  unfold redeflatedAgainst
  simp only
  split
  next => exact ⟨rfl, rfl, rfl, rfl, rfl, rfl⟩
  next =>
    split
    next => exact ⟨rfl, rfl, rfl, rfl, rfl, rfl⟩
    next => split <;> exact ⟨rfl, rfl, rfl, rfl, rfl, rfl⟩

theorem Consistent.redeflatedAgainst (h : r.Consistent) (b : Nat) :
    (r.redeflatedAgainst b).Consistent := by
  unfold TrialStatisticsReport.redeflatedAgainst
  simp only
  split
  next => exact h
  next =>
    split
    next hnone =>
      unfold Consistent at h ⊢
      simpa [hnone] using h
    next => split <;> rfl

theorem sharpeNumbers_redeflatedAgainst (r : TrialStatisticsReport F) (b : Nat) :
    (r.redeflatedAgainst b).sharpeNumbers =
      if b ≤ r.trialsOffered then r.sharpeNumbers
      else r.sharpeNumbers.bind (·.redeflated b) := by
  unfold TrialStatisticsReport.redeflatedAgainst
  simp only
  by_cases hb : b ≤ r.trialsOffered
  · rw [if_pos (Nat.max_eq_right hb), if_pos hb]
    rfl
  · have hmax : max b r.trialsOffered = b := by omega
    rw [hmax, if_neg (by omega), if_neg hb]
    cases hd : r.deflatedSharpe with
    | none => simp [sharpeNumbers, hd]
    | some d =>
      have hnumbers : r.sharpeNumbers = some d.withoutTexts := by simp [sharpeNumbers, hd]
      rw [hnumbers, Option.bind_some, DeflatedSharpeReport.redeflated_withoutTexts]
      simp only
      unfold DeflatedSharpeReport.redeflated
      cases redeflateSharpe d b with
      | error e => rfl
      | ok d' => rfl

theorem redeflatedAgainst_none (h : r.deflatedSharpe = none) (b : Nat) :
    (r.redeflatedAgainst b).deflatedSharpe = none := by
  rw [← sharpeNumbers_eq_none, sharpeNumbers_redeflatedAgainst, sharpeNumbers_eq_none.mpr h]
  simp

/-- Where the first count does not refuse, two re-deflations are one. -/
theorem sharpeNumbers_twice (h : (r.redeflatedAgainst b).deflatedSharpe ≠ none) :
    ((r.redeflatedAgainst b).redeflatedAgainst c).sharpeNumbers =
      (r.redeflatedAgainst (max b c)).sharpeNumbers := by
  have hsome := mt sharpeNumbers_eq_none.mp h
  simp only [sharpeNumbers_redeflatedAgainst, trialsOffered_redeflatedAgainst] at hsome ⊢
  by_cases hb : b ≤ r.trialsOffered
  · rw [if_pos hb, Nat.max_eq_right hb]
    by_cases hc : c ≤ r.trialsOffered
    · rw [if_pos hc, if_pos (Nat.max_le.mpr ⟨hb, hc⟩)]
    · have hmax : max b c = c := by omega
      rw [if_neg hc, hmax, if_neg hc]
  · rw [if_neg hb] at hsome ⊢
    have hmax : max b r.trialsOffered = b := by omega
    rw [hmax]
    by_cases hc : c ≤ b
    · rw [if_pos hc, Nat.max_eq_left hc, if_neg hb]
    · have hmax' : max b c = c := by omega
      rw [if_neg hc, hmax', if_neg (by omega)]
      obtain ⟨d', hd'⟩ := Option.ne_none_iff_exists'.mp hsome
      obtain ⟨d, hd, hredeflated⟩ := Option.bind_eq_some_iff.mp hd'
      rw [hd', hd, Option.bind_some, Option.bind_some]
      exact DeflatedSharpeReport.redeflated_redeflated hredeflated (by omega)

def largest (bs : List Nat) : Nat := bs.foldl max 0

theorem largest_snoc (bs : List Nat) (b : Nat) : largest (bs ++ [b]) = max (largest bs) b := by
  simp [largest, List.foldl_append]

theorem foldl_trialsOffered (r : TrialStatisticsReport F) (bs : List Nat) :
    (bs.foldl TrialStatisticsReport.redeflatedAgainst r).trialsOffered =
      max (largest bs) r.trialsOffered := by
  induction bs using List.reverseRecOn with
  | nil => simp [largest]
  | append_singleton bs b ih =>
    rw [List.foldl_append, List.foldl_cons, List.foldl_nil, trialsOffered_redeflatedAgainst, ih,
      largest_snoc]
    omega

theorem foldl_sameFrame (r : TrialStatisticsReport F) (bs : List Nat) :
    SameFrame (bs.foldl TrialStatisticsReport.redeflatedAgainst r) r := by
  induction bs using List.reverseRecOn with
  | nil => exact ⟨rfl, rfl, rfl, rfl, rfl, rfl⟩
  | append_singleton bs b ih =>
    rw [List.foldl_append, List.foldl_cons, List.foldl_nil]
    have hlast := sameFrame_redeflatedAgainst
      (bs.foldl TrialStatisticsReport.redeflatedAgainst r) b
    exact ⟨hlast.schema.trans ih.schema, hlast.matrixRows.trans ih.matrixRows,
      hlast.matrixPeriods.trans ih.matrixPeriods, hlast.matrixTruncated.trans ih.matrixTruncated,
      hlast.pbo.trans ih.pbo, hlast.pboRefusal.trans ih.pboRefusal⟩

theorem Consistent.foldl (h : r.Consistent) (bs : List Nat) :
    (bs.foldl TrialStatisticsReport.redeflatedAgainst r).Consistent := by
  induction bs using List.reverseRecOn with
  | nil => exact h
  | append_singleton bs b ih =>
    rw [List.foldl_append, List.foldl_cons, List.foldl_nil]
    exact ih.redeflatedAgainst b

/-- The count at which a report stands when it has been re-deflated against the first counts
refuses, for some of them. -/
def RefusesOnTheWay (r : TrialStatisticsReport F) (bs : List Nat) : Prop :=
  ∃ front, front <+: bs ∧ (r.redeflatedAgainst (largest front)).deflatedSharpe = none

/-- One count after another is the largest at once, until a count refuses. -/
theorem foldl_redeflatedAgainst (r : TrialStatisticsReport F) (bs : List Nat) :
    ¬RefusesOnTheWay r bs ∧
        (bs.foldl TrialStatisticsReport.redeflatedAgainst r).sharpeNumbers =
          (r.redeflatedAgainst (largest bs)).sharpeNumbers ∨
      RefusesOnTheWay r bs ∧
        (bs.foldl TrialStatisticsReport.redeflatedAgainst r).deflatedSharpe = none := by
  induction bs using List.reverseRecOn with
  | nil =>
    have hzero : (r.redeflatedAgainst (largest [])).sharpeNumbers = r.sharpeNumbers := by
      rw [sharpeNumbers_redeflatedAgainst, largest, List.foldl_nil, if_pos (Nat.zero_le _)]
    by_cases hnone : r.deflatedSharpe = none
    · refine .inr ⟨⟨[], List.prefix_refl _, ?_⟩, hnone⟩
      rw [← sharpeNumbers_eq_none, hzero, sharpeNumbers_eq_none]
      exact hnone
    · refine .inl ⟨?_, hzero.symm⟩
      rintro ⟨front, hfront, hrefuses⟩
      rw [List.prefix_nil.mp hfront, ← sharpeNumbers_eq_none, hzero, sharpeNumbers_eq_none]
        at hrefuses
      exact hnone hrefuses
  | append_singleton bs b ih =>
    rw [List.foldl_append, List.foldl_cons, List.foldl_nil]
    obtain ⟨hvalues, hnumbers⟩ | ⟨⟨front, hfront, hrefuses⟩, hnone⟩ := ih
    · have hvalue : (r.redeflatedAgainst (largest bs)).deflatedSharpe ≠ none :=
        fun hnone => hvalues ⟨bs, List.prefix_refl _, hnone⟩
      have htwice := sharpeNumbers_twice (c := b) hvalue
      have hnext : ((bs.foldl TrialStatisticsReport.redeflatedAgainst r).redeflatedAgainst
          b).sharpeNumbers = (r.redeflatedAgainst (largest (bs ++ [b]))).sharpeNumbers := by
        rw [largest_snoc, ← htwice, sharpeNumbers_redeflatedAgainst,
          sharpeNumbers_redeflatedAgainst (r.redeflatedAgainst _), hnumbers, foldl_trialsOffered,
          trialsOffered_redeflatedAgainst]
      by_cases hnone : (r.redeflatedAgainst (largest (bs ++ [b]))).deflatedSharpe = none
      · refine .inr ⟨⟨bs ++ [b], List.prefix_refl _, hnone⟩, ?_⟩
        rw [← sharpeNumbers_eq_none, hnext, sharpeNumbers_eq_none]
        exact hnone
      · refine .inl ⟨?_, hnext⟩
        rintro ⟨front, hfront, hrefuses⟩
        obtain rfl | hfront := List.prefix_concat_iff.mp hfront
        · exact hnone hrefuses
        · exact hvalues ⟨front, hfront, hrefuses⟩
    · refine .inr ⟨⟨front, hfront.trans (List.prefix_append _ _), hrefuses⟩, ?_⟩
      exact redeflatedAgainst_none hnone b

theorem sameSharpe_foldl_iff (h : r.Consistent) (bs : List Nat) :
    SameSharpe (bs.foldl TrialStatisticsReport.redeflatedAgainst r)
        (r.redeflatedAgainst (largest bs)) ↔
      (RefusesOnTheWay r bs → (r.redeflatedAgainst (largest bs)).deflatedSharpe = none) := by
  rw [sameSharpe_iff (h.foldl bs) (h.redeflatedAgainst _)]
  obtain ⟨hvalues, hnumbers⟩ | ⟨hrefuses, hnone⟩ := foldl_redeflatedAgainst r bs
  · exact ⟨fun _ hrefuses => absurd hrefuses hvalues, fun _ => hnumbers⟩
  · rw [sharpeNumbers_eq_none.mpr hnone, eq_comm, sharpeNumbers_eq_none]
    exact ⟨fun h _ => h, fun h => h hrefuses⟩

end TrialStatisticsReport

section Analysis

/-- The numbers of a report at a trial count, from what the matrix gives. -/
def ChampionStatistics.reportAt (s : ChampionStatistics F) (periods trialsN : Nat)
    (p : F × F) : DeflatedSharpeReport F where
  trialsN := trialsN
  trialsNSource := .rows 0
  trialsWithSharpe := s.trialsWithSharpe
  periods := periods
  periodUnit := "calendar_month"
  championStrategyId := s.champion.strategyId
  championCandidateIndex := s.champion.candidateIndex
  rawSharpePerPeriod := s.rawSr
  rawSharpeAnnualised := s.rawSr * annualisation
  skewness := s.skew
  kurtosis := s.kurt
  sharpeVarianceAcrossTrials := s.variance
  expectedMaxSharpePerPeriod := p.1
  expectedMaxSharpeAnnualised := p.1 * annualisation
  excessOverExpectedMaxPerPeriod := s.rawSr - p.1
  deflatedSharpeRatio := p.2
  assumptions := []

/-- The honest count enters an analysis in the deflation steps alone. -/
theorem deflatedSharpe_numbers (m : DecodedTrialMatrix F) (a : Nat) :
    (deflatedSharpe m a).toOption.map (·.withoutTexts) =
      (championStatistics m).toOption.bind fun s =>
        (deflate s.rawSr s.variance s.skew s.kurt m.periods (max a m.trials)).toOption.map
          (s.reportAt m.periods (max a m.trials)) := by
  unfold deflatedSharpe
  cases championStatistics m with
  | error e => rfl
  | ok s =>
    by_cases ha : m.trials < a
    · have hmax : max a m.trials = a := by omega
      simp only [bind, Except.bind, if_pos ha, hmax, Except.toOption, Option.bind_some]
      cases deflate s.rawSr s.variance s.skew s.kurt m.periods a with
      | error e => rfl
      | ok p => rfl
    · have hmax : max a m.trials = m.trials := by omega
      simp only [bind, Except.bind, if_neg ha, hmax, Except.toOption, Option.bind_some]
      cases deflate s.rawSr s.variance s.skew s.kurt m.periods m.trials with
      | error e => rfl
      | ok p => rfl

/-- A value deflated at one count, and again at a larger one, is the value at the larger one. -/
theorem redeflated_analysis {m : DecodedTrialMatrix F} {a b : Nat} {d : DeflatedSharpeReport F}
    (h : (deflatedSharpe m a).toOption.map (·.withoutTexts) = some d) (hab : a < b) :
    d.redeflated b = (deflatedSharpe m b).toOption.map (·.withoutTexts) := by
  have hb := deflatedSharpe_numbers m b
  rw [deflatedSharpe_numbers] at h
  obtain ⟨s, hs, h⟩ := Option.bind_eq_some_iff.mp h
  obtain ⟨p, hp, rfl⟩ := Option.map_eq_some_iff.mp h
  rw [hb, hs, Option.bind_some]
  by_cases hrows : b ≤ m.trials
  · have hN : max b m.trials = max a m.trials := by omega
    have hle : b ≤ (s.reportAt m.periods (max a m.trials) p).trialsN := by
      show b ≤ max a m.trials
      omega
    rw [hN, hp, DeflatedSharpeReport.redeflated_of_le hle]
    rfl
  · have hN : max b m.trials = b := by omega
    have hlt : (s.reportAt m.periods (max a m.trials) p).trialsN < b := by
      show max a m.trials < b
      omega
    rw [hN, DeflatedSharpeReport.redeflated_of_lt hlt]
    rfl

theorem sharpeNumbers_analyseMatrix (m : DecodedTrialMatrix F) (a : Nat) :
    (analyseMatrix m a).sharpeNumbers = (deflatedSharpe m a).toOption.map (·.withoutTexts) :=
  rfl

theorem consistent_analyseMatrix (m : DecodedTrialMatrix F) (a : Nat) :
    (analyseMatrix m a).Consistent := by
  unfold TrialStatisticsReport.Consistent analyseMatrix
  cases deflatedSharpe m a with
  | error e => rfl
  | ok d => rfl

/-- The re-deflated numbers are those of the analysis at the larger count, or the refusal of the
first analysis. -/
theorem sharpeNumbers_redeflated_analysis (m : DecodedTrialMatrix F) (a b : Nat)
    (h : (analyseMatrix m a).deflatedSharpe ≠ none) :
    ((analyseMatrix m a).redeflatedAgainst b).sharpeNumbers =
      (analyseMatrix m (max a b)).sharpeNumbers := by
  have hoffered : (analyseMatrix m a).trialsOffered = a := rfl
  rw [TrialStatisticsReport.sharpeNumbers_redeflatedAgainst, hoffered]
  by_cases hb : b ≤ a
  · rw [if_pos hb, Nat.max_eq_left hb]
  · have hmax : max a b = b := by omega
    obtain ⟨d, hd⟩ := Option.ne_none_iff_exists'.mp
      (mt TrialStatisticsReport.sharpeNumbers_eq_none.mp h)
    rw [if_neg hb, hmax, hd, Option.bind_some, sharpeNumbers_analyseMatrix]
    rw [sharpeNumbers_analyseMatrix] at hd
    exact redeflated_analysis hd (by omega)

/-- Re-deflating an analysis, once or one count after another, is the analysis at the largest
count, unless a smaller count refuses where the largest would not; then the refusal stays. -/
theorem redeflation_is_reanalysis (m : DecodedTrialMatrix F) (a b : Nat) (bs : List Nat) :
    ((analyseMatrix m a).redeflatedAgainst b).trialsOffered =
        (analyseMatrix m (max a b)).trialsOffered ∧
    SameFrame ((analyseMatrix m a).redeflatedAgainst b) (analyseMatrix m (max a b)) ∧
    (SameSharpe ((analyseMatrix m a).redeflatedAgainst b) (analyseMatrix m (max a b)) ↔
      ((analyseMatrix m a).deflatedSharpe = none →
        (analyseMatrix m (max a b)).deflatedSharpe = none)) ∧
    ((analyseMatrix m a).deflatedSharpe = none →
      ((analyseMatrix m a).redeflatedAgainst b).deflatedSharpe = none) ∧
    (bs.foldl TrialStatisticsReport.redeflatedAgainst (analyseMatrix m a)).trialsOffered =
        ((analyseMatrix m a).redeflatedAgainst (bs.foldl max 0)).trialsOffered ∧
    SameFrame (bs.foldl TrialStatisticsReport.redeflatedAgainst (analyseMatrix m a))
        ((analyseMatrix m a).redeflatedAgainst (bs.foldl max 0)) ∧
    (SameSharpe (bs.foldl TrialStatisticsReport.redeflatedAgainst (analyseMatrix m a))
        ((analyseMatrix m a).redeflatedAgainst (bs.foldl max 0)) ↔
      ((∃ front, front <+: bs ∧
          ((analyseMatrix m a).redeflatedAgainst (front.foldl max 0)).deflatedSharpe = none) →
        ((analyseMatrix m a).redeflatedAgainst (bs.foldl max 0)).deflatedSharpe = none)) := by
  have hconsistent := consistent_analyseMatrix m a
  have hoffered := (analyseMatrix m a).foldl_trialsOffered bs
  refine ⟨?_, ?_, ?_, ?_, ?_, ?_, (analyseMatrix m a).sameSharpe_foldl_iff hconsistent bs⟩
  · rw [TrialStatisticsReport.trialsOffered_redeflatedAgainst]
    exact Nat.max_comm b a
  · have honce := TrialStatisticsReport.sameFrame_redeflatedAgainst (analyseMatrix m a) b
    exact ⟨honce.schema, honce.matrixRows, honce.matrixPeriods, honce.matrixTruncated, honce.pbo,
      honce.pboRefusal⟩
  · rw [TrialStatisticsReport.sameSharpe_iff (hconsistent.redeflatedAgainst b)
      (consistent_analyseMatrix m _)]
    by_cases hnone : (analyseMatrix m a).deflatedSharpe = none
    · have hkept := TrialStatisticsReport.redeflatedAgainst_none hnone b
      rw [TrialStatisticsReport.sharpeNumbers_eq_none.mpr hkept, eq_comm,
        TrialStatisticsReport.sharpeNumbers_eq_none]
      exact ⟨fun h _ => h, fun h => h hnone⟩
    · have hsame := sharpeNumbers_redeflated_analysis m a b hnone
      exact ⟨fun _ h => absurd h hnone, fun _ => hsame⟩
  · intro hnone
    exact TrialStatisticsReport.redeflatedAgainst_none hnone b
  · rw [hoffered, TrialStatisticsReport.trialsOffered_redeflatedAgainst]
    rfl
  · have hfold := (analyseMatrix m a).foldl_sameFrame bs
    have honce := TrialStatisticsReport.sameFrame_redeflatedAgainst (analyseMatrix m a)
      (bs.foldl max 0)
    exact ⟨hfold.schema.trans honce.schema.symm, hfold.matrixRows.trans honce.matrixRows.symm,
      hfold.matrixPeriods.trans honce.matrixPeriods.symm,
      hfold.matrixTruncated.trans honce.matrixTruncated.symm, hfold.pbo.trans honce.pbo.symm,
      hfold.pboRefusal.trans honce.pboRefusal.symm⟩

end Analysis

/-- Exact numbers of which one passes for infinite, with elementary functions of no account. -/
def CoarseFloat := ℚ

instance : FloatOps CoarseFloat :=
  let exact : FloatOps ℚ := inferInstance
  { exact with
    isFinite := fun x : ℚ => decide (x ≠ 9 / 10)
    sqrt := fun x : ℚ => x }

instance : FloatOps.Elementary CoarseFloat where
  exp x := x
  ln x := x
  powf x _ := x
  powi x _ := x * x

/-- Ten trials over two years, with one month that tells them apart. -/
def sampleTrialMatrix : DecodedTrialMatrix CoarseFloat where
  version := 1
  flags := 1
  initialBalance := (10000 : ℚ)
  periodKeys := List.replicate 24 0
  rows := (List.range 10).map fun i =>
    ⟨.ofNat i, "", (List.range 24).map fun j => (if j = 0 then ((i : ℚ) + 2 : ℚ) else 1 : ℚ)⟩
  headerTrials := 10
  truncatedTailBytes := 0

/-- At ten trials the quantile is refused, at twenty it is not. -/
theorem redeflation_keeps_refusal : ¬∀ (F : Type) [FloatOps F] [FloatOps.Elementary F]
    (m : DecodedTrialMatrix F) (a b : Nat),
    SameSharpe ((analyseMatrix m a).redeflatedAgainst b) (analyseMatrix m (max a b)) := by
  intro hall
  have hvalue := (hall CoarseFloat sampleTrialMatrix 0 20).value
  have hfirst : (analyseMatrix sampleTrialMatrix 0).deflatedSharpe.isSome = false := by
    decide +kernel
  have hsecond : (analyseMatrix sampleTrialMatrix (max 0 20)).deflatedSharpe.isSome = true := by
    decide +kernel
  have hkept := TrialStatisticsReport.redeflatedAgainst_none (Option.isSome_eq_false_iff.mp hfirst
    |> Option.isNone_iff_eq_none.mp) 20
  rw [TrialStatisticsReport.sharpeNumbers_eq_none.mpr hkept, eq_comm,
    TrialStatisticsReport.sharpeNumbers_eq_none] at hvalue
  rw [hvalue] at hsecond
  simp at hsecond

end Neoethos
