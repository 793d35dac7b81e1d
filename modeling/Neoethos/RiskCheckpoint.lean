import Neoethos.RiskManager

namespace Neoethos

open FloatOps (lit lt le isFinite isPositive)

variable {F : Type*} [FloatOps F]

namespace RiskManager

theorem updateRecoveryState_cases (m : RiskManager F) (equity : F) :
    ∃ recovery, m.updateRecoveryState equity = { m with recoveryMode := recovery } := by
  unfold updateRecoveryState
  split
  next => exact ⟨false, rfl⟩
  next =>
    split
    next => exact ⟨m.recoveryMode, rfl⟩
    next =>
      simp only
      split
      next => exact ⟨true, rfl⟩
      next =>
        split
        next => exact ⟨false, rfl⟩
        next => exact ⟨m.recoveryMode, rfl⟩

theorem onEquityUpdate_cases (m : RiskManager F) (equity : F) :
    ∃ peak recovery, (peak = m.totalPeakEquity ∨ notPositive peak = false) ∧
      m.onEquityUpdate equity =
        { m with totalPeakEquity := peak, recoveryMode := recovery } := by
  unfold onEquityUpdate
  split
  next => exact ⟨m.totalPeakEquity, m.recoveryMode, .inl rfl, rfl⟩
  next hpositive =>
    split
    next =>
      obtain ⟨recovery, h⟩ :=
        updateRecoveryState_cases { m with totalPeakEquity := equity } equity
      exact ⟨equity, recovery, .inr (by simpa using hpositive), h⟩
    next =>
      obtain ⟨recovery, h⟩ := m.updateRecoveryState_cases equity
      exact ⟨m.totalPeakEquity, recovery, .inl rfl, h⟩

theorem noteTargets_cases (m : RiskManager F) (input : TradeGateInput F) :
    ∃ monthly challenge, (m.challengeTargetHit = true → challenge = true) ∧
      m.noteTargets input =
        { m with monthlyTargetHit := monthly, challengeTargetHit := challenge } := by
  unfold noteTargets
  split
  next =>
    split
    next => exact ⟨m.monthlyTargetHit, true, fun _ => rfl, rfl⟩
    next => exact ⟨m.monthlyTargetHit, m.challengeTargetHit, id, rfl⟩
  next =>
    split
    next => exact ⟨true, m.challengeTargetHit, id, rfl⟩
    next => exact ⟨m.monthlyTargetHit, m.challengeTargetHit, id, rfl⟩

theorem checkDrawdown_cases (m : RiskManager F) (input : TradeGateInput F) :
    ∃ latch, (m.circuitBreakerTriggered = true → latch = true) ∧
      (m.checkDrawdown input).1 = { m with circuitBreakerTriggered := latch } := by
  unfold checkDrawdown
  simp only
  split
  next => exact ⟨true, fun _ => rfl, rfl⟩
  next =>
    split
    next => exact ⟨true, fun _ => rfl, rfl⟩
    next =>
      refine ⟨m.circuitBreakerTriggered, id, ?_⟩
      split
      next => rfl
      next =>
        split
        next => rfl
        next =>
          split
          next => rfl
          next =>
            split
            next => rfl
            next => rfl

/-- What the gate writes, whether it admits the entry or not. -/
theorem checkTradeAllowed_cases (m : RiskManager F) (input : TradeGateInput F) :
    ∃ peak recovery monthly challenge latch,
      (peak = m.totalPeakEquity ∨ notPositive peak = false) ∧
      (m.challengeTargetHit = true → challenge = true) ∧
      (m.circuitBreakerTriggered = true → latch = true) ∧
      (m.checkTradeAllowed input).1 =
        { m with
          totalPeakEquity := peak, recoveryMode := recovery, monthlyTargetHit := monthly,
          challengeTargetHit := challenge, circuitBreakerTriggered := latch } := by
  unfold checkTradeAllowed
  split
  next =>
    exact ⟨m.totalPeakEquity, m.recoveryMode, m.monthlyTargetHit, m.challengeTargetHit,
      m.circuitBreakerTriggered, .inl rfl, id, id, rfl⟩
  next =>
    obtain ⟨peak, recovery, hpeak, hupdate⟩ := m.onEquityUpdate_cases input.equity
    obtain ⟨monthly, challenge, hchallenge, htargets⟩ :=
      noteTargets_cases (m.onEquityUpdate input.equity) input
    rw [hupdate] at hchallenge htargets
    rw [hupdate]
    simp only [htargets]
    refine ⟨peak, recovery, monthly, challenge, ?_⟩
    split
    next => exact ⟨m.circuitBreakerTriggered, hpeak, hchallenge, id, rfl⟩
    next =>
      split
      next => exact ⟨m.circuitBreakerTriggered, hpeak, hchallenge, id, rfl⟩
      next =>
        split
        next => exact ⟨m.circuitBreakerTriggered, hpeak, hchallenge, id, rfl⟩
        next =>
          split
          next => exact ⟨m.circuitBreakerTriggered, hpeak, hchallenge, id, rfl⟩
          next =>
            obtain ⟨latch, hlatch, h⟩ := checkDrawdown_cases
              { m with
                totalPeakEquity := peak, recoveryMode := recovery, monthlyTargetHit := monthly,
                challengeTargetHit := challenge } input
            exact ⟨latch, hpeak, hchallenge, hlatch, h⟩

end RiskManager

/-- The calls that the account's owner makes on its manager. -/
inductive RiskOp (F : Type*)
  | rollPeriods (dateId monthId : Nat) (balance equity : F)
  | onEquityUpdate (equity : F)
  | recordClosedTrade (trade : ClosedTrade F)
  | checkTradeAllowed (input : TradeGateInput F)
  | calculatePositionSize (input : PositionSizingInput F)
  | checkpointV1

inductive RiskReply (F : Type*)
  | done
  | gate (result : Except (TradeGateRefusal F) Unit)
  | size (riskPct : F)
  | checkpoint (checkpoint : RiskManagerCheckpointV1 F)

/-- Period ids that are not zero and closed trades that are well formed. -/
def RiskOp.Admissible : RiskOp F → Prop
  | .rollPeriods dateId monthId _ _ => dateId ≠ 0 ∧ monthId ≠ 0
  | .recordClosedTrade trade => trade.valid = true
  | _ => True

namespace RiskManager

def perform (m : RiskManager F) : RiskOp F → RiskManager F × RiskReply F
  | .rollPeriods dateId monthId balance equity =>
    (m.rollPeriods dateId monthId balance equity, .done)
  | .onEquityUpdate equity => (m.onEquityUpdate equity, .done)
  | .recordClosedTrade trade => (m.recordClosedTrade trade, .done)
  | .checkTradeAllowed input =>
    ((m.checkTradeAllowed input).1, .gate (m.checkTradeAllowed input).2)
  | .calculatePositionSize input => (m, .size (m.calculatePositionSize input))
  | .checkpointV1 => (m, .checkpoint m.checkpointV1)

def after (m : RiskManager F) : List (RiskOp F) → RiskManager F
  | [] => m
  | op :: ops => (m.perform op).1.after ops

def replies (m : RiskManager F) : List (RiskOp F) → List (RiskReply F)
  | [] => []
  | op :: ops => (m.perform op).2 :: (m.perform op).1.replies ops

/-- What makes a checkpoint of the manager fit a manager that is built from the settings again. -/
structure Restorable (settings : RiskSettings F) (m : RiskManager F) : Prop where
  policy : m.toRiskPolicy = settings.policy
  initial : m.initialBalance = settings.initialBalance
  challenge : m.challengeStartEquity =
    if settings.challengeMode then settings.initialBalance else lit 0
  peak : notPositive m.totalPeakEquity = false
  day : notPositive m.dayStartBalance = false
  month : notPositive m.monthStartBalance = false
  dateId : m.lastSessionDateId ≠ some 0
  monthId : m.lastMonthId ≠ some 0
  tracked : m.revengeDetector.maxTradesTracked = revengeTradesTracked
  window : m.revengeDetector.recentTrades.length ≤ revengeTradesTracked
  trades : ∀ trade ∈ m.revengeDetector.recentTrades, trade.valid = true

theorem anchor_of_declared {settings : RiskSettings F}
    (hdeclared : isPositive settings.initialBalance = true) (liveBalance : F) :
    settings.anchor liveBalance = settings.initialBalance := by
  unfold RiskSettings.anchor
  exact if_pos hdeclared

theorem fromSettings_restorable [FloatOps.Ordered F] {settings : RiskSettings F}
    {balance equity : F} {m : RiskManager F}
    (hdeclared : isPositive settings.initialBalance = true)
    (h : fromSettings settings balance equity = .ok m) : m.Restorable settings := by
  obtain ⟨_, hcheck, rfl⟩ := Fallible.map_ok_iff.mp h
  obtain ⟨hbalance, hequity⟩ := RiskSettings.check_ok_positive hcheck
  have hanchor := anchor_of_declared hdeclared balance
  obtain ⟨hfinite, hpositive⟩ := Bool.and_eq_true_iff.mp hdeclared
  have hdeclared' : notPositive settings.initialBalance = false := by
    simp [notPositive, hfinite, FloatOps.Ordered.not_le_of_lt _ _ hpositive]
  have hfinite' : isFinite equity = true := by
    simp only [notPositive, Bool.or_eq_false_iff, Bool.not_eq_false'] at hequity
    exact hequity.1
  refine ⟨rfl, hanchor, by simp only [hanchor], ?_, hbalance, hbalance, by simp, by simp, rfl,
    by simp [RevengeTradeDetector.empty], by simp [RevengeTradeDetector.empty]⟩
  simp only [hanchor]
  obtain hmax | hmax := FloatOps.Ordered.max_choice equity settings.initialBalance hfinite' hfinite
  · rw [hmax]
    exact hequity
  · rw [hmax]
    exact hdeclared'

namespace Restorable

variable {settings : RiskSettings F} {m : RiskManager F}

theorem onEquityUpdate (hm : m.Restorable settings) (equity : F) :
    (m.onEquityUpdate equity).Restorable settings := by
  obtain ⟨peak, recovery, hpeak, h⟩ := m.onEquityUpdate_cases equity
  rw [h]
  refine { hm with peak := ?_ }
  obtain rfl | hpeak := hpeak
  · exact hm.peak
  · exact hpeak

theorem rollDay (hm : m.Restorable settings) {dateId : Nat} {balance : F} (hid : dateId ≠ 0)
    (hbalance : notPositive balance = false) : (m.rollDay dateId balance).Restorable settings := by
  unfold RiskManager.rollDay
  split
  next => exact { hm with day := hbalance, dateId := by simpa using hid }
  next => exact hm

theorem rollMonth (hm : m.Restorable settings) {monthId : Nat} {balance : F} (hid : monthId ≠ 0)
    (hbalance : notPositive balance = false) :
    (m.rollMonth monthId balance).Restorable settings := by
  unfold RiskManager.rollMonth
  split
  next => exact { hm with month := hbalance, monthId := by simpa using hid }
  next => exact hm

theorem rollPeriods (hm : m.Restorable settings) {dateId monthId : Nat} (hdate : dateId ≠ 0)
    (hmonth : monthId ≠ 0) (balance equity : F) :
    (m.rollPeriods dateId monthId balance equity).Restorable settings := by
  unfold RiskManager.rollPeriods
  split
  next => exact hm
  next hpositive =>
    simp only [Bool.or_eq_true, not_or, Bool.not_eq_true] at hpositive
    exact ((hm.rollDay hdate hpositive.1).rollMonth hmonth hpositive.1).onEquityUpdate equity

theorem recordClosedTrade (hm : m.Restorable settings) {trade : ClosedTrade F}
    (htrade : trade.valid = true) : (m.recordClosedTrade trade).Restorable settings := by
  have hall : ∀ t ∈ m.revengeDetector.recentTrades ++ [trade], t.valid = true := by
    intro t ht
    obtain ht | ht := List.mem_append.mp ht
    · exact hm.trades t ht
    · rw [List.mem_singleton.mp ht]
      exact htrade
  have hwindow := hm.window
  have htracked := hm.tracked
  refine { hm with window := ?_, trades := ?_ }
  · simp only [RiskManager.recordClosedTrade, RevengeTradeDetector.recordTrade]
    split
    next => simpa using hwindow
    next hlen => omega
  · simp only [RiskManager.recordClosedTrade, RevengeTradeDetector.recordTrade]
    split
    next =>
      intro t ht
      exact hall t (List.mem_of_mem_tail ht)
    next => exact hall

theorem checkTradeAllowed (hm : m.Restorable settings) (input : TradeGateInput F) :
    (m.checkTradeAllowed input).1.Restorable settings := by
  obtain ⟨peak, recovery, monthly, challenge, latch, hpeak, _, _, h⟩ :=
    m.checkTradeAllowed_cases input
  rw [h]
  refine { hm with peak := ?_ }
  obtain rfl | hpeak := hpeak
  · exact hm.peak
  · exact hpeak

theorem perform (hm : m.Restorable settings) {op : RiskOp F} (hop : op.Admissible) :
    (m.perform op).1.Restorable settings := by
  cases op with
  | rollPeriods dateId monthId balance equity => exact hm.rollPeriods hop.1 hop.2 balance equity
  | onEquityUpdate equity => exact hm.onEquityUpdate equity
  | recordClosedTrade trade => exact hm.recordClosedTrade hop
  | checkTradeAllowed input => exact hm.checkTradeAllowed input
  | calculatePositionSize input => exact hm
  | checkpointV1 => exact hm

theorem after (hm : m.Restorable settings) {ops : List (RiskOp F)}
    (hops : ∀ op ∈ ops, op.Admissible) : (m.after ops).Restorable settings := by
  induction ops generalizing m with
  | nil => exact hm
  | cons op ops ih =>
    obtain ⟨hop, hops⟩ := List.forall_mem_cons.mp hops
    exact ih (hm.perform hop) hops

end Restorable

omit [FloatOps F] in
/-- Pushing no more trades than the window holds drops none of them. -/
theorem foldl_recordTrade {d : RevengeTradeDetector F} {trades : List (ClosedTrade F)}
    (h : d.recentTrades.length + trades.length ≤ d.maxTradesTracked) :
    trades.foldl .recordTrade d = { d with recentTrades := d.recentTrades ++ trades } := by
  induction trades generalizing d with
  | nil => simp
  | cons trade trades ih =>
    simp only [List.length_cons] at h
    have hpush : d.recordTrade trade = { d with recentTrades := d.recentTrades ++ [trade] } := by
      have hlen : ¬d.maxTradesTracked < (d.recentTrades ++ [trade]).length := by
        simp only [List.length_append, List.length_singleton]
        omega
      simp only [RevengeTradeDetector.recordTrade, if_neg hlen]
    rw [List.foldl_cons, hpush, ih]
    · simp
    · simp only [List.length_append, List.length_singleton]
      omega

omit [FloatOps F] in
theorem restore_window (d : RevengeTradeDetector F)
    (htracked : d.maxTradesTracked = revengeTradesTracked)
    (hwindow : d.recentTrades.length ≤ revengeTradesTracked) :
    d.recentTrades.foldl .recordTrade .empty = d := by
  rw [foldl_recordTrade (by simpa [RevengeTradeDetector.empty] using hwindow)]
  cases d
  simp_all [RevengeTradeDetector.empty]

section Restore

variable [DecidableEq F]

theorem restoreCheckpointV1_error {m : RiskManager F} {checkpoint : RiskManagerCheckpointV1 F}
    {e : RestoreError F} (h : (m.restoreCheckpointV1 checkpoint).2 = .error e) :
    (m.restoreCheckpointV1 checkpoint).1 = m := by
  unfold restoreCheckpointV1 at h ⊢
  split
  next => rfl
  next hchecks =>
    rw [hchecks] at h
    simp at h

theorem Restorable.restoreChecks_ok {settings : RiskSettings F} {m fresh : RiskManager F}
    (hm : m.Restorable settings) (hfresh : fresh.Restorable settings) :
    fresh.restoreChecks m.checkpointV1 = .ok () := by
  unfold restoreChecks
  simp only [Fallible.check_ok_iff, Fallible.refuse_ok_iff, Fallible.forM_ok_iff]
  refine ⟨by simp [checkpointV1], ?_, ?_, ?_, ?_, ?_⟩
  · simp only [checkpointV1, hm.initial, hfresh.initial, hm.challenge, hfresh.challenge]
    simp
  · simp [checkpointV1, hm.peak, hm.day, hm.month]
  · simp [checkpointV1, hm.dateId, hm.monthId]
  · have hwindow := hm.window
    simp only [checkpointV1]
    omega
  · intro trade htrade
    simp [hm.trades trade htrade]

/-- A manager built again from the settings takes over every field of the old one. -/
theorem Restorable.restoreCheckpointV1 {settings : RiskSettings F} {m fresh : RiskManager F}
    (hm : m.Restorable settings) (hfresh : fresh.Restorable settings) :
    fresh.restoreCheckpointV1 m.checkpointV1 = (m, .ok ()) := by
  unfold RiskManager.restoreCheckpointV1
  rw [hm.restoreChecks_ok hfresh]
  have hpolicy : fresh.toRiskPolicy = m.toRiskPolicy := hfresh.policy.trans hm.policy.symm
  have hinitial : fresh.initialBalance = m.initialBalance := hfresh.initial.trans hm.initial.symm
  have hchallenge : fresh.challengeStartEquity = m.challengeStartEquity :=
    hfresh.challenge.trans hm.challenge.symm
  have hwindow := restore_window m.revengeDetector hm.tracked hm.window
  simp only [checkpointV1, hpolicy, hinitial, hchallenge, hwindow]

/-- The manager that a restart puts in the place of the old one cannot be told from it, and a
restore that is refused changes nothing. -/
theorem restart_transparent [FloatOps.Ordered F] (settings : RiskSettings F)
    (hdeclared : isPositive settings.initialBalance = true) :
    (∀ (balance equity : F) (m : RiskManager F) (ops : List (RiskOp F)) (balance' equity' : F),
      fromSettings settings balance equity = .ok m → (∀ op ∈ ops, op.Admissible) →
      notPositive balance' = false → notPositive equity' = false →
      ∃ fresh restored, fromSettings settings balance' equity' = .ok fresh ∧
        fresh.restoreCheckpointV1 (m.after ops).checkpointV1 = (restored, .ok ()) ∧
        ∀ later, restored.replies later = (m.after ops).replies later) ∧
    ∀ (target : RiskManager F) (checkpoint : RiskManagerCheckpointV1 F) (e : RestoreError F),
      (target.restoreCheckpointV1 checkpoint).2 = .error e →
        (target.restoreCheckpointV1 checkpoint).1 = target := by
  refine ⟨?_, fun target checkpoint e h => restoreCheckpointV1_error h⟩
  intro balance equity m ops balance' equity' hstart hops hbalance hequity
  have hm := (fromSettings_restorable hdeclared hstart).after hops
  obtain ⟨_, hcheck, _⟩ := Fallible.map_ok_iff.mp hstart
  have hcheck' := RiskSettings.check_ok_of_ok hcheck hbalance hequity
  have hfresh : fromSettings settings balance' equity' = .ok _ :=
    Fallible.map_ok_iff.mpr ⟨(), hcheck', rfl⟩
  exact ⟨_, m.after ops, hfresh,
    hm.restoreCheckpointV1 (fromSettings_restorable hdeclared hfresh), fun later => rfl⟩

end Restore

/-- A funded account of ten thousand, with no monthly target and the recovery rules off. -/
def sampleRiskSettings : RiskSettings ℚ where
  preset := .ftmo
  challengePhase := "funded"
  challengeMode := false
  recoveryModeEnabled := false
  totalDrawdownLimit := 1 / 10
  dailyDrawdownLimit := 1 / 20
  maxRiskPerTrade := 3 / 100
  propFirmMaxRiskPerTrade := none
  monthlyProfitTargetPct := 0
  initialBalance := 10000

/-- A losing trade after the day has begun, then a gate call. -/
def sampleRiskOps : List (RiskOp ℚ) :=
  [.rollPeriods 20260810 202608 10000 10000, .recordClosedTrade ⟨100, 160, -250, 1, some 1⟩,
    .checkTradeAllowed ⟨9750, 9700, none, 200, 8, 1, 1⟩]

theorem sampleRiskSettings_restart : ∃ m fresh restored : RiskManager ℚ,
    fromSettings sampleRiskSettings 10000 10000 = .ok m ∧
    fromSettings sampleRiskSettings 9750 9700 = .ok fresh ∧
    fresh.restoreCheckpointV1 (m.after sampleRiskOps).checkpointV1 = (restored, .ok ()) ∧
    ∀ later, restored.replies later = (m.after sampleRiskOps).replies later := by
  have hstart : (fromSettings sampleRiskSettings 10000 10000).toOption.any (fun _ => true) := by
    decide +kernel
  obtain ⟨m, hm, _⟩ := Fallible.exists_ok_of_any hstart
  have hops : ∀ op ∈ sampleRiskOps, op.Admissible := by
    simp [sampleRiskOps, RiskOp.Admissible]
    decide
  obtain ⟨fresh, restored, h⟩ := (restart_transparent sampleRiskSettings (by decide)).1
    10000 10000 m sampleRiskOps 9750 9700 hm hops (by decide) (by decide)
  exact ⟨m, fresh, restored, hm, h⟩

end RiskManager

end Neoethos
