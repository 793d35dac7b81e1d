import Mathlib.Tactic.Linarith
import Mathlib.Tactic.NormNum
import Neoethos.FloatOps
import Neoethos.RiskLatch

namespace Neoethos

open FloatOps (lit lt le)

namespace RiskManager

variable {m : RiskManager ℚ}

/-- What the sizing reads of the policy, as the constructor leaves it. -/
structure Sizable (m : RiskManager ℚ) : Prop where
  total : 0 < m.maxTotalLossPct
  daily : 0 < m.dailyDdStopTradingPct
  risk : 0 < m.maxRiskPerTrade
  runtime : m.runtime = .forPreset m.preset

/-- The recovery bands of the runtime defaults, which all presets share. -/
structure Bands (d : PropFirmRuntimeDefaults ℚ) : Prop where
  topThree : d.recoveryTopThreeDrawdownPct = 2 / 100
  minSharpe : d.recoveryMinSharpeDrawdownPct = 3 / 100
  topStrategy : d.recoveryTopStrategyDrawdownPct = 4 / 100
  halt : d.recoveryHaltDrawdownPct = 5 / 100
  caution : d.cautionModeRiskMultiplier = 75 / 100
  defensive : d.defensiveModeRiskMultiplier = 50 / 100
  recovery : d.recoveryModeRiskMultiplier = 25 / 100

theorem bands_forPreset (preset : PropFirmPreset) : Bands (.forPreset preset) := by
  cases preset <;> exact ⟨rfl, rfl, rfl, rfl, rfl, rfl, rfl⟩

theorem Sizable.bands (h : m.Sizable) : Bands m.runtime := by
  rw [h.runtime]
  exact bands_forPreset m.preset

def sizingLimit (m : RiskManager ℚ) : ℚ := max m.maxTotalLossPct (1 / 10 ^ 6)

def riskCap (m : RiskManager ℚ) : ℚ :=
  if m.recoveryModeEnabled && m.recoveryMode then
    m.maxRiskPerTrade * m.runtime.recoveryModeRiskMultiplier
  else m.maxRiskPerTrade

def budgetFactor (m : RiskManager ℚ) (dailyDd : ℚ) : ℚ :=
  let ddFrac := dailyDd / max m.dailyDdStopTradingPct (1 / 10 ^ 9)
  if 75 / 100 ≤ ddFrac then 35 / 100 else if 50 / 100 ≤ ddFrac then 60 / 100 else 1

def taperFactor (m : RiskManager ℚ) (totalDd : ℚ) : ℚ :=
  if 0 < totalDd then max (1 - totalDd / m.sizingLimit) (30 / 100) else 1

def bandFactor (m : RiskManager ℚ) (totalDd : ℚ) : ℚ :=
  if m.runtime.recoveryTopStrategyDrawdownPct ≤ totalDd then m.runtime.recoveryModeRiskMultiplier
  else if m.runtime.recoveryMinSharpeDrawdownPct ≤ totalDd then
    m.runtime.defensiveModeRiskMultiplier
  else m.runtime.cautionModeRiskMultiplier

def NoSize (m : RiskManager ℚ) (totalDd : ℚ) : Prop :=
  m.sizingLimit ≤ totalDd ∨
    m.recoveryModeEnabled = true ∧ m.runtime.recoveryHaltDrawdownPct ≤ totalDd

instance (m : RiskManager ℚ) (totalDd : ℚ) : Decidable (m.NoSize totalDd) :=
  inferInstanceAs (Decidable (_ ∨ _ ∧ _))

/-- The recovery bands are armed and the first of them is reached. -/
def InBand (m : RiskManager ℚ) (totalDd : ℚ) : Prop :=
  m.recoveryModeEnabled = true ∧ m.runtime.recoveryTopThreeDrawdownPct ≤ totalDd

instance (m : RiskManager ℚ) (totalDd : ℚ) : Decidable (m.InBand totalDd) :=
  inferInstanceAs (Decidable (_ ∧ _))

def totalFactor (m : RiskManager ℚ) (totalDd : ℚ) : ℚ :=
  if m.NoSize totalDd then 0
  else if m.InBand totalDd then m.bandFactor totalDd
  else m.taperFactor totalDd

section Factors

variable {x y : ℚ}

theorem tier_antitone {threshold low : ℚ} {f : ℚ → ℚ} (hlow : ∀ z, low ≤ f z)
    (hf : ∀ {x y}, x ≤ y → f y ≤ f x) (h : x ≤ y) :
    (if threshold ≤ y then low else f y) ≤ if threshold ≤ x then low else f x := by
  by_cases hx : threshold ≤ x
  · rw [if_pos hx, if_pos (hx.trans h)]
  · rw [if_neg hx]
    split
    next => exact hlow x
    next => exact hf h

theorem budgetFactor_mem (m : RiskManager ℚ) (dailyDd : ℚ) :
    0 < m.budgetFactor dailyDd ∧ m.budgetFactor dailyDd ≤ 1 := by
  unfold budgetFactor
  dsimp only
  split_ifs <;> norm_num

theorem budgetFactor_antitone (m : RiskManager ℚ) (h : x ≤ y) :
    m.budgetFactor y ≤ m.budgetFactor x := by
  have hpos : (0 : ℚ) < max m.dailyDdStopTradingPct (1 / 10 ^ 9) :=
    lt_max_of_lt_right (by norm_num)
  have hfrac := div_le_div_of_nonneg_right h hpos.le
  unfold budgetFactor
  refine tier_antitone (f := fun z => if 50 / 100 ≤ z then 60 / 100 else 1) ?_ ?_ hfrac
  · intro z
    split <;> norm_num
  · exact tier_antitone (f := fun _ => 1) (fun _ => by norm_num) fun _ => le_refl 1

theorem sizingLimit_pos (m : RiskManager ℚ) : 0 < m.sizingLimit :=
  lt_max_of_lt_right (by norm_num)

theorem taperFactor_mem (m : RiskManager ℚ) (totalDd : ℚ) :
    0 < m.taperFactor totalDd ∧ m.taperFactor totalDd ≤ 1 := by
  unfold taperFactor
  split
  next hpos =>
    have hquotient : 0 < totalDd / m.sizingLimit := div_pos hpos m.sizingLimit_pos
    exact ⟨lt_max_of_lt_right (by norm_num), max_le (by linarith) (by norm_num)⟩
  next => norm_num

theorem taperFactor_antitone (m : RiskManager ℚ) (h : x ≤ y) :
    m.taperFactor y ≤ m.taperFactor x := by
  by_cases hx : 0 < x
  · have hquotient := div_le_div_of_nonneg_right h m.sizingLimit_pos.le
    unfold taperFactor
    rw [if_pos hx, if_pos (hx.trans_le h)]
    exact max_le_max_right _ (by linarith)
  · have hone : m.taperFactor x = 1 := if_neg hx
    rw [hone]
    exact (m.taperFactor_mem y).2

theorem bandFactor_mem (h : Bands m.runtime) (totalDd : ℚ) :
    0 < m.bandFactor totalDd ∧ m.bandFactor totalDd ≤ 1 := by
  unfold bandFactor
  rw [h.recovery, h.defensive, h.caution]
  split_ifs <;> norm_num

theorem bandFactor_antitone (hbands : Bands m.runtime) (h : x ≤ y) :
    m.bandFactor y ≤ m.bandFactor x := by
  unfold bandFactor
  rw [hbands.recovery, hbands.defensive, hbands.caution]
  refine tier_antitone (f := fun z =>
    if m.runtime.recoveryMinSharpeDrawdownPct ≤ z then 50 / 100 else 75 / 100) ?_ ?_ h
  · intro z
    split <;> norm_num
  · exact tier_antitone (f := fun _ => 75 / 100) (fun _ => by norm_num) fun _ => le_refl _

theorem totalFactor_mem (h : Bands m.runtime) (totalDd : ℚ) :
    0 ≤ m.totalFactor totalDd ∧ m.totalFactor totalDd ≤ 1 := by
  unfold totalFactor
  split
  next => norm_num
  next =>
    split
    next => exact ⟨(bandFactor_mem h totalDd).1.le, (bandFactor_mem h totalDd).2⟩
    next => exact ⟨(m.taperFactor_mem totalDd).1.le, (m.taperFactor_mem totalDd).2⟩

/-- The taper in front of the first band is below the multiplier of a band behind it. -/
def BandAboveTaper (m : RiskManager ℚ) (deep shallow : ℚ) : Prop :=
  m.InBand deep ∧ ¬m.InBand shallow ∧ ¬m.NoSize deep ∧
    m.taperFactor shallow < m.bandFactor deep

theorem totalFactor_antitone (hbands : Bands m.runtime) (h : x ≤ y)
    (hjump : ¬m.BandAboveTaper y x) :
    m.totalFactor y ≤ m.totalFactor x := by
  by_cases hnone : m.NoSize y
  · have hzero : m.totalFactor y = 0 := if_pos hnone
    rw [hzero]
    exact (totalFactor_mem hbands x).1
  · have hnone' : ¬m.NoSize x := fun hx =>
      hnone (hx.imp (le_trans · h) (And.imp_right (le_trans · h)))
    unfold totalFactor
    rw [if_neg hnone, if_neg hnone']
    by_cases hdeep : m.InBand y
    · rw [if_pos hdeep]
      by_cases hshallow : m.InBand x
      · rw [if_pos hshallow]
        exact bandFactor_antitone hbands h
      · rw [if_neg hshallow]
        exact not_lt.mp fun hlt => hjump ⟨hdeep, hshallow, hnone, hlt⟩
    · have hshallow : ¬m.InBand x := fun hx => hdeep ⟨hx.1, hx.2.trans h⟩
      rw [if_neg hdeep, if_neg hshallow]
      exact m.taperFactor_antitone h

theorem riskCap_mem (h : m.Sizable) : 0 < m.riskCap ∧ m.riskCap ≤ m.maxRiskPerTrade := by
  have hrisk := h.risk
  unfold riskCap
  rw [h.bands.recovery]
  split
  next => exact ⟨by linarith, by linarith⟩
  next => exact ⟨hrisk, le_refl _⟩

theorem totalDdTaper_eq (riskPct totalDd : ℚ) :
    totalDdTaper riskPct totalDd m.sizingLimit = riskPct * m.taperFactor totalDd := by
  unfold totalDdTaper taperFactor
  by_cases hpos : 0 < totalDd
  · rw [if_pos hpos, if_pos (by simpa using hpos)]
    rfl
  · rw [if_neg hpos, if_neg (by simpa using hpos), mul_one]

theorem clamp_of_mem {x upper : ℚ} (hx : 0 ≤ x) (hupper : x ≤ upper) :
    FloatOps.clamp x (lit 0) upper = x := by
  unfold FloatOps.clamp
  rw [if_neg (by simpa using hx), if_neg (by simpa using hupper)]

/-- The size is a product: the base under its cap, the daily budget, and the total drawdown. -/
theorem size_eq (h : m.Sizable) (equity : ℚ) {base : ℚ} (hbase : 0 ≤ base) :
    m.calculatePositionSize ⟨equity, base⟩ =
      min base m.riskCap * m.budgetFactor (m.drawdownState equity).1 *
        m.totalFactor (m.drawdownState equity).2 := by
  obtain ⟨hcap, hcapMax⟩ := riskCap_mem h
  generalize hdd : m.drawdownState equity = dd
  obtain ⟨daily, total⟩ := dd
  obtain ⟨hbudget, hbudgetOne⟩ := m.budgetFactor_mem daily
  generalize hrisk : min base m.riskCap * m.budgetFactor daily = risk
  have hmin : 0 ≤ min base m.riskCap := le_min hbase hcap.le
  have hriskMem : 0 ≤ risk ∧ risk ≤ m.maxRiskPerTrade := by
    rw [← hrisk]
    refine ⟨mul_nonneg hmin hbudget.le, ?_⟩
    calc min base m.riskCap * m.budgetFactor daily ≤ min base m.riskCap :=
          mul_le_of_le_one_right hmin hbudgetOne
      _ ≤ m.maxRiskPerTrade := (min_le_right _ _).trans hcapMax
  have hclamp {factor : ℚ} (hfactor : 0 < factor ∧ factor ≤ 1) :
      FloatOps.clamp (risk * factor) (lit 0) m.maxRiskPerTrade = risk * factor :=
    clamp_of_mem (mul_nonneg hriskMem.1 hfactor.1.le)
      ((mul_le_of_le_one_right hriskMem.1 hfactor.2).trans hriskMem.2)
  have hbudgeted : (if le (lit (75 / 100)) (daily / max m.dailyDdStopTradingPct (1 / 10 ^ 9)) then
      min base m.riskCap * lit (35 / 100)
      else if le (lit (50 / 100)) (daily / max m.dailyDdStopTradingPct (1 / 10 ^ 9)) then
        min base m.riskCap * lit (60 / 100)
      else min base m.riskCap) = risk := by
    rw [← hrisk]
    unfold budgetFactor
    simp only [le_rat, lit_rat, decide_eq_true_eq]
    split
    next => rfl
    next =>
      split
      next => rfl
      next => rw [mul_one]
  have htotal : m.calculatePositionSize ⟨equity, base⟩ =
      if le m.sizingLimit total then lit 0
      else if m.recoveryModeEnabled && le m.runtime.recoveryHaltDrawdownPct total then lit 0
      else FloatOps.clamp
        (if !m.recoveryModeEnabled then totalDdTaper risk total m.sizingLimit
        else if le m.runtime.recoveryTopStrategyDrawdownPct total then
          risk * m.runtime.recoveryModeRiskMultiplier
        else if le m.runtime.recoveryMinSharpeDrawdownPct total then
          risk * m.runtime.defensiveModeRiskMultiplier
        else if le m.runtime.recoveryTopThreeDrawdownPct total then
          risk * m.runtime.cautionModeRiskMultiplier
        else totalDdTaper risk total m.sizingLimit) (lit 0) m.maxRiskPerTrade := by
    rw [← hbudgeted]
    unfold calculatePositionSize
    rw [hdd]
    rfl
  have htaper := hclamp (m.taperFactor_mem total)
  rw [← totalDdTaper_eq] at htaper
  rw [htotal]
  unfold totalFactor
  by_cases hlimit : m.sizingLimit ≤ total
  · rw [if_pos (by simpa using hlimit), if_pos (.inl hlimit), mul_zero]
    rfl
  · rw [if_neg (by simpa using hlimit)]
    cases hmode : m.recoveryModeEnabled with
    | false =>
      have hsize : ¬m.NoSize total := by simp [NoSize, hlimit, hmode]
      have hband : ¬m.InBand total := by simp [InBand, hmode]
      rw [if_neg hsize, if_neg hband, ← totalDdTaper_eq]
      exact htaper
    | true =>
      by_cases hhalt : m.runtime.recoveryHaltDrawdownPct ≤ total
      · rw [if_pos (by simpa using hhalt), if_pos (.inr ⟨hmode, hhalt⟩), mul_zero]
        rfl
      · have hsize : ¬m.NoSize total := by simp [NoSize, hlimit, hhalt]
        rw [if_neg (by simpa using hhalt), if_neg hsize]
        by_cases hband : m.InBand total
        · have hfirst := hband.2
          rw [if_pos hband, ← hclamp (bandFactor_mem h.bands total)]
          unfold bandFactor
          simp only [Bool.not_true, Bool.false_eq_true, if_false, le_rat, decide_eq_true_eq,
            if_pos hfirst, mul_ite]
        · have hnone {threshold : ℚ} (hle : 2 / 100 ≤ threshold) : ¬threshold ≤ total :=
            fun hover => hband ⟨hmode, h.bands.topThree.trans_le (hle.trans hover)⟩
          have htop : ¬m.runtime.recoveryTopStrategyDrawdownPct ≤ total :=
            hnone (by rw [h.bands.topStrategy]; norm_num)
          have hsharpe : ¬m.runtime.recoveryMinSharpeDrawdownPct ≤ total :=
            hnone (by rw [h.bands.minSharpe]; norm_num)
          have hthree : ¬m.runtime.recoveryTopThreeDrawdownPct ≤ total :=
            hnone h.bands.topThree.ge
          rw [if_neg hband, ← totalDdTaper_eq]
          refine Eq.trans ?_ htaper
          simp only [Bool.not_true, Bool.false_eq_true, if_false, le_rat, decide_eq_true_eq,
            if_neg htop, if_neg hsharpe, if_neg hthree]

end Factors

section Equity

variable {e e' : ℚ}

theorem drawdownState_antitone (m : RiskManager ℚ) (h : e ≤ e') :
    (m.drawdownState e').1 ≤ (m.drawdownState e).1 ∧
      (m.drawdownState e').2 ≤ (m.drawdownState e).2 := by
  have hfraction {start anchor : ℚ} (hanchor : 0 < anchor) :
      (start - e') / anchor ≤ (start - e) / anchor :=
    div_le_div_of_nonneg_right (by linarith) hanchor.le
  unfold drawdownState
  simp only [lt_rat, lit_rat, decide_eq_true_eq, max_rat]
  constructor
  · apply max_le_max_right
    split
    next hpos => exact hfraction hpos
    next => exact le_refl _
  · apply max_le_max_right
    split
    next hpos => exact hfraction hpos
    next =>
      split
      next hpos => exact hfraction hpos
      next => exact le_refl _

/-- The gate raises the peak first, which leaves the drawdown at the same equity. -/
theorem drawdown_gateState (hm : m.Anchored) {m' : RiskManager ℚ}
    (hstart : m'.challengeStartEquity = m.challengeStartEquity)
    (hpeak : m'.totalPeakEquity = max m.totalPeakEquity e) :
    (m'.drawdownState e).2 = (m.drawdownState e).2 := by
  have hpos : 0 < m.totalPeakEquity := hm.peak
  have hmax : 0 < max m.totalPeakEquity e := lt_max_of_lt_left hpos
  unfold drawdownState
  simp only [lt_rat, lit_rat, decide_eq_true_eq, max_rat, hstart, hpeak, if_pos hpos, if_pos hmax]
  split
  next => rfl
  next =>
    by_cases hnew : m.totalPeakEquity ≤ e
    · have hfall : (m.totalPeakEquity - e) / m.totalPeakEquity ≤ 0 :=
        div_nonpos_of_nonpos_of_nonneg (by linarith) hpos.le
      rw [max_eq_right hnew, sub_self, zero_div, max_self, max_eq_right hfall]
    · rw [max_eq_left (not_le.mp hnew).le]

end Equity

section Gate

variable {input : TradeGateInput ℚ}

/-- The total drawdown stands at one of the two limits that latch the breaker. -/
def AtLatch (m : RiskManager ℚ) (totalDd : ℚ) : Prop :=
  m.maxTotalLossPct ≤ totalDd ∨
    m.recoveryModeEnabled = true ∧ m.runtime.recoveryHaltDrawdownPct ≤ totalDd

theorem checkDrawdown_latched (hopen : m.circuitBreakerTriggered = false)
    (h : (m.checkDrawdown input).1.circuitBreakerTriggered = true) :
    m.AtLatch (m.drawdownState input.equity).2 := by
  unfold checkDrawdown at h
  simp only at h
  split at h
  next hlimit => exact .inl (of_decide_eq_true hlimit)
  next =>
    split at h
    next hhalt =>
      obtain ⟨hmode, hreached⟩ := Bool.and_eq_true_iff.mp hhalt
      exact .inr ⟨hmode, of_decide_eq_true hreached⟩
    next =>
      have hkept (hsame : m.circuitBreakerTriggered = true) :
          m.AtLatch (m.drawdownState input.equity).2 :=
        absurd (hopen.symm.trans hsame) Bool.false_ne_true
      split at h
      next => exact hkept h
      next =>
        split at h
        next => exact hkept h
        next =>
          split at h
          next => exact hkept h
          next =>
            split at h
            next => exact hkept h
            next => exact hkept h

/-- The gate compares the drawdown at the equity, and writes the breaker nowhere else. -/
theorem gate_cases (hm : m.Anchored) (hopen : m.circuitBreakerTriggered = false) :
    ((m.checkTradeAllowed input).1.circuitBreakerTriggered = true →
      m.AtLatch (m.drawdownState input.equity).2) ∧
    ((m.checkTradeAllowed input).2 = .ok () →
      ¬m.AtLatch (m.drawdownState input.equity).2) := by
  obtain ⟨peak, recovery, monthly, challenge, hpeak, -, -, hstate⟩ := m.gateState_cases input
  unfold checkTradeAllowed
  split
  next => exact ⟨fun h => absurd (hopen.symm.trans h) (by simp), fun h => by cases h⟩
  next hvalid =>
    have hequity : 0 < input.equity := by
      rw [Bool.not_eq_true, Bool.or_eq_false_iff] at hvalid
      exact notPositive_eq_false_iff.mp hvalid.2
    rw [m.onEquityUpdate_peak hequity] at hpeak
    generalize (m.onEquityUpdate input.equity).noteTargets input = gate at hstate ⊢
    have hgateOpen : gate.circuitBreakerTriggered = false := by
      rw [hstate]
      exact hopen
    have hsame : (gate.drawdownState input.equity).2 = (m.drawdownState input.equity).2 := by
      rw [hstate]
      exact drawdown_gateState hm rfl hpeak.symm
    have hlatch : gate.AtLatch (gate.drawdownState input.equity).2 =
        m.AtLatch (m.drawdownState input.equity).2 := by
      rw [hsame, hstate]
      rfl
    have hrefused (refusal : TradeGateRefusal ℚ) :
        (gate.circuitBreakerTriggered = true → m.AtLatch (m.drawdownState input.equity).2) ∧
        (Except.error refusal = .ok () → ¬m.AtLatch (m.drawdownState input.equity).2) :=
      ⟨fun h => absurd (hgateOpen.symm.trans h) Bool.false_ne_true, fun h => by cases h⟩
    rw [← hlatch] at hrefused ⊢
    dsimp only
    split
    next => exact hrefused _
    next =>
      split
      next => exact hrefused _
      next =>
        split
        next => exact hrefused _
        next =>
          split
          next => exact hrefused _
          next =>
            refine ⟨checkDrawdown_latched hgateOpen, ?_⟩
            intro hadmitted hreached
            have hstopped := (gate.checkDrawdown_breach input hreached).2
            rw [hadmitted] at hstopped
            cases hstopped

end Gate

section Reachable

theorem fromSettings_sizable {settings : RiskSettings ℚ} {balance equity : ℚ}
    (h : fromSettings settings balance equity = .ok m) : m.Sizable := by
  obtain ⟨_, hcheck, rfl⟩ := Fallible.map_ok_iff.mp h
  have hfraction {x : ℚ} (hx : ¬notFraction x = true) : 0 < x := by
    simp only [notFraction, Bool.or_eq_true, not_or] at hx
    simpa using hx.1.2
  unfold RiskSettings.check at hcheck
  simp only [Fallible.check_ok_iff, Fallible.refuse_ok_iff] at hcheck
  obtain ⟨-, -, htotal, hdaily, hrisk, -⟩ := hcheck
  exact ⟨hfraction htotal, hfraction hdaily, hfraction hrisk, rfl⟩

theorem Sizable.kept (h : m.Sizable) {m' : RiskManager ℚ} (hkeeps : m.Keeps m') :
    m'.Sizable := by
  obtain ⟨hpolicy, -⟩ := hkeeps
  exact ⟨by rw [hpolicy]; exact h.total, by rw [hpolicy]; exact h.daily,
    by rw [hpolicy]; exact h.risk, by rw [hpolicy]; exact h.runtime⟩

theorem next_keeps {account m' : RiskManager ℚ} {a : RiskAct} {e : RiskEvent}
    (h : account.machine.next m a = some (e, m')) : m.Keeps m' := by
  cases a with
  | call op =>
    obtain ⟨-, rfl⟩ := Prod.mk.inj (Option.some.inj h)
    exact m.perform_keeps op
  | restart settings balance equity =>
    simp only [machine] at h
    split at h
    next => simp at h
    next fresh hfresh =>
      split at h
      next hpolicy =>
        split at h
        next => simp at h
        next restored hrestore =>
          obtain ⟨-, rfl⟩ := Prod.mk.inj (Option.some.inj h)
          exact restoreCheckpointV1_keeps hpolicy hrestore
      next => simp at h

theorem reachable_sizable {settings : RiskSettings ℚ} {balance equity : ℚ}
    (hstart : fromSettings settings balance equity = .ok m) {es : List RiskEvent}
    {m' : RiskManager ℚ} (hrun : m.machine.Run es m') : m'.Sizable ∧ m'.Anchored := by
  refine Machine.Run.state_invariant (I := fun m => m.Sizable ∧ m.Anchored)
    ⟨fromSettings_sizable hstart, fromSettings_anchored hstart⟩ ?_ hrun
  intro s a e s' hs hnext
  have hkeeps := next_keeps hnext
  exact ⟨hs.1.kept hkeeps, hkeeps.anchored hs.2⟩

/-- The bands start where the limit already stops, or the taper in front of them stays above. -/
theorem not_bandAboveTaper (h : m.Sizable)
    (hlimit : m.recoveryModeEnabled = false ∨ m.maxTotalLossPct ≤ 2 / 100 ∨
      8 / 100 ≤ m.maxTotalLossPct) (deep shallow : ℚ) : ¬m.BandAboveTaper deep shallow := by
  rintro ⟨⟨hmode, hdeep⟩, hshallow, hsize, hjump⟩
  rw [h.bands.topThree] at hdeep
  have hbelow : shallow < 2 / 100 := by
    by_contra hreached
    exact hshallow ⟨hmode, h.bands.topThree.trans_le (not_lt.mp hreached)⟩
  rcases hlimit with hoff | hlow | hhigh
  · rw [hmode] at hoff
    cases hoff
  · apply hsize
    left
    exact max_le (hlow.trans hdeep) (le_trans (by norm_num) hdeep)
  · have hlimit : 8 / 100 ≤ m.sizingLimit := hhigh.trans (le_max_left _ _)
    have hband : m.bandFactor deep ≤ 75 / 100 := by
      unfold bandFactor
      rw [h.bands.recovery, h.bands.defensive, h.bands.caution]
      split_ifs <;> norm_num
    have htaper : 75 / 100 ≤ m.taperFactor shallow := by
      unfold taperFactor
      split
      next hpos =>
        have hquotient : shallow / m.sizingLimit ≤ 1 / 4 := by
          rw [div_le_iff₀ m.sizingLimit_pos]
          linarith
        exact le_max_of_le_left (by linarith)
      next => norm_num
    linarith

end Reachable

/-- In every reachable state the size lies between zero and the base and the cap, it is zero where
the gate latches and positive where the gate admits, and a deeper equity allows no larger size
unless a recovery band follows a taper that is already below its multiplier. -/
theorem risk_sizing (settings : RiskSettings ℚ) (balance equity : ℚ) (m : RiskManager ℚ)
    (hstart : fromSettings settings balance equity = .ok m) (es : List RiskEvent)
    (m' : RiskManager ℚ) (hrun : m.machine.Run es m') (base : ℚ) (hbase : 0 ≤ base) :
    (∀ e, 0 ≤ m'.calculatePositionSize ⟨e, base⟩ ∧
      m'.calculatePositionSize ⟨e, base⟩ ≤ min base m'.maxRiskPerTrade) ∧
    (∀ input, m'.circuitBreakerTriggered = false →
      (m'.checkTradeAllowed input).1.circuitBreakerTriggered = true →
      1 / 10 ^ 6 ≤ (m'.drawdownState input.equity).2 →
      m'.calculatePositionSize ⟨input.equity, base⟩ = 0) ∧
    (∀ input, (m'.checkTradeAllowed input).2 = .ok () → 0 < base →
      0 < m'.calculatePositionSize ⟨input.equity, base⟩) ∧
    (∀ e e', e ≤ e' →
      ¬m'.BandAboveTaper (m'.drawdownState e).2 (m'.drawdownState e').2 →
      m'.calculatePositionSize ⟨e, base⟩ ≤ m'.calculatePositionSize ⟨e', base⟩) ∧
    (m'.recoveryModeEnabled = false ∨ m'.maxTotalLossPct ≤ 2 / 100 ∨
        8 / 100 ≤ m'.maxTotalLossPct →
      ∀ e e', e ≤ e' →
        m'.calculatePositionSize ⟨e, base⟩ ≤ m'.calculatePositionSize ⟨e', base⟩) := by
  obtain ⟨hsizable, hanchored⟩ := reachable_sizable hstart hrun
  obtain ⟨hcap, hcapMax⟩ := riskCap_mem hsizable
  have hmin : 0 ≤ min base m'.riskCap := le_min hbase hcap.le
  have hmono {e e' : ℚ} (h : e ≤ e')
      (hjump : ¬m'.BandAboveTaper (m'.drawdownState e).2 (m'.drawdownState e').2) :
      m'.calculatePositionSize ⟨e, base⟩ ≤ m'.calculatePositionSize ⟨e', base⟩ := by
    obtain ⟨hdaily, htotal⟩ := m'.drawdownState_antitone h
    rw [size_eq hsizable e hbase, size_eq hsizable e' hbase]
    have hbudget := m'.budgetFactor_antitone hdaily
    have hfactor := totalFactor_antitone hsizable.bands htotal hjump
    exact mul_le_mul (mul_le_mul_of_nonneg_left hbudget hmin) hfactor
      (totalFactor_mem hsizable.bands _).1 (mul_nonneg hmin (m'.budgetFactor_mem _).1.le)
  refine ⟨?_, ?_, ?_, fun e e' h hjump => hmono h hjump, ?_⟩
  · intro e
    obtain ⟨hbudget, hbudgetOne⟩ := m'.budgetFactor_mem (m'.drawdownState e).1
    obtain ⟨hfactor, hfactorOne⟩ := totalFactor_mem hsizable.bands (m'.drawdownState e).2
    rw [size_eq hsizable e hbase]
    have hbudgeted := mul_nonneg hmin hbudget.le
    refine ⟨mul_nonneg hbudgeted hfactor, ?_⟩
    calc _ ≤ min base m'.riskCap * m'.budgetFactor (m'.drawdownState e).1 :=
          mul_le_of_le_one_right hbudgeted hfactorOne
      _ ≤ min base m'.riskCap := mul_le_of_le_one_right hmin hbudgetOne
      _ ≤ min base m'.maxRiskPerTrade := min_le_min_left base hcapMax
  · intro input hopen hlatched htiny
    have hlatch := (gate_cases hanchored hopen).1 hlatched
    have hnone : m'.NoSize (m'.drawdownState input.equity).2 :=
      hlatch.imp_left fun hlimit => max_le hlimit htiny
    rw [size_eq hsizable input.equity hbase, totalFactor, if_pos hnone, mul_zero]
  · intro input hadmitted hpos
    have hopen : m'.circuitBreakerTriggered = false := by
      by_contra hbreaker
      have hstopped := (Stopped.gate (.inl (Bool.eq_true_of_not_eq_false hbreaker)) input).2
      rw [hadmitted] at hstopped
      cases hstopped
    have hlatch := (gate_cases hanchored hopen).2 hadmitted
    have hsome : ¬m'.NoSize (m'.drawdownState input.equity).2 := fun hnone =>
      hlatch (hnone.imp_left fun hlimit => (le_max_left _ _).trans hlimit)
    have hfactor : 0 < m'.totalFactor (m'.drawdownState input.equity).2 := by
      unfold totalFactor
      rw [if_neg hsome]
      split
      next => exact (bandFactor_mem hsizable.bands _).1
      next => exact (m'.taperFactor_mem _).1
    rw [size_eq hsizable input.equity hbase]
    exact mul_pos (mul_pos (lt_min hpos hcap) (m'.budgetFactor_mem _).1) hfactor
  · intro hlimit e e' h
    exact hmono h (not_bandAboveTaper hsizable hlimit _ _)

theorem sampleRiskSettings_sizing :
    ∃ m, fromSettings sampleRiskSettings 10000 10000 = .ok m ∧
      ∀ e e', e ≤ e' → m.calculatePositionSize ⟨e, 1 / 100⟩ ≤
        m.calculatePositionSize ⟨e', 1 / 100⟩ := by
  have hbuilt : (fromSettings sampleRiskSettings 10000 10000).toOption.any
      (fun m => m.recoveryModeEnabled = false) := by
    decide +kernel
  obtain ⟨m, hstart, hoff⟩ := Fallible.exists_ok_of_any hbuilt
  obtain ⟨-, -, -, -, hmono⟩ := risk_sizing sampleRiskSettings 10000 10000 m hstart [] m
    Machine.Run.start (1 / 100) (by norm_num)
  exact ⟨m, hstart, hmono (.inl (of_decide_eq_true hoff))⟩

/-- An account of ten thousand with a total limit of four percent and the recovery bands. -/
def sampleBandSettings : RiskSettings ℚ :=
  { sampleRiskSettings with totalDrawdownLimit := 4 / 100, recoveryModeEnabled := true }

/-- The same with a total limit below what the sizing divides by. -/
def sampleTinySettings : RiskSettings ℚ :=
  { sampleRiskSettings with totalDrawdownLimit := 1 / 10 ^ 7 }

/-- The first recovery band allows more than the taper in front of it, and under the tiny limit the
gate latches where the sizing still allows a size. -/
theorem band_allows_more :
    (∃ m, fromSettings sampleBandSettings 10000 10000 = .ok m ∧
      m.calculatePositionSize ⟨9801, 1 / 100⟩ < m.calculatePositionSize ⟨9800, 1 / 100⟩) ∧
    ∃ m, fromSettings sampleTinySettings 10000 10000 = .ok m ∧
      m.circuitBreakerTriggered = false ∧
      (m.checkTradeAllowed ⟨10000, 9999995 / 1000, none, 300, 10, 0, 0⟩).1.circuitBreakerTriggered =
        true ∧
      0 < m.calculatePositionSize ⟨9999995 / 1000, 1 / 100⟩ := by
  constructor
  · have hlarger : (fromSettings sampleBandSettings 10000 10000).toOption.any (fun m =>
        m.calculatePositionSize ⟨9801, 1 / 100⟩ < m.calculatePositionSize ⟨9800, 1 / 100⟩) := by
      decide +kernel
    obtain ⟨m, hstart, hless⟩ := Fallible.exists_ok_of_any hlarger
    exact ⟨m, hstart, of_decide_eq_true hless⟩
  · have htiny : (fromSettings sampleTinySettings 10000 10000).toOption.any (fun m =>
        m.circuitBreakerTriggered = false ∧
        (m.checkTradeAllowed
          ⟨10000, 9999995 / 1000, none, 300, 10, 0, 0⟩).1.circuitBreakerTriggered = true ∧
        0 < m.calculatePositionSize ⟨9999995 / 1000, 1 / 100⟩) := by
      decide +kernel
    obtain ⟨m, hstart, hlatched⟩ := Fallible.exists_ok_of_any htiny
    exact ⟨m, hstart, of_decide_eq_true hlatched⟩

end RiskManager

end Neoethos
