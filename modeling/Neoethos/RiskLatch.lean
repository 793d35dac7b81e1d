import Neoethos.ListIndex
import Neoethos.Machine
import Neoethos.RiskCheckpoint

namespace Neoethos

open FloatOps (lit lt le isFinite isPositive)

/-- What happens to the risk state of one account: a call on the manager, or a new process that
builds the manager again and restores its checkpoint. -/
inductive RiskAct
  | call (op : RiskOp ℚ)
  | restart (settings : RiskSettings ℚ) (balance equity : ℚ)

/-- A gate call, with whether its snapshot breached and whether it was refused; or another step. -/
inductive RiskEvent
  | gate (breached refused : Bool)
  | other
  deriving DecidableEq

namespace RiskManager

/-- The total drawdown that a gate call measures: against the fixed start of a challenge, else
against the peak as it is after the update. -/
def totalDrawdown (m : RiskManager ℚ) (equity : ℚ) : ℚ :=
  if m.challengeMode then
    (m.challengeStartEquity - equity) / m.challengeStartEquity
  else
    (max m.totalPeakEquity equity - equity) / max m.totalPeakEquity equity

/-- A valid snapshot at or above the total limit, or the recovery halt while it is armed. -/
def Breaches (m : RiskManager ℚ) (input : TradeGateInput ℚ) : Prop :=
  0 < input.balance ∧ 0 < input.equity ∧
    (m.maxTotalLossPct ≤ m.totalDrawdown input.equity ∨
      m.recoveryModeEnabled = true ∧
        m.runtime.recoveryHaltDrawdownPct ≤ m.totalDrawdown input.equity)

instance (m : RiskManager ℚ) (input : TradeGateInput ℚ) : Decidable (m.Breaches input) :=
  inferInstanceAs (Decidable (_ ∧ _ ∧ (_ ∨ _ ∧ _)))

def targetStops (m : RiskManager ℚ) (input : TradeGateInput ℚ) : Bool :=
  if m.challengeMode then
    m.challengeTargetHit ||
      reachesTarget m.challengeStartEquity m.challengeTargetReturnPct input
  else
    m.monthlyTargetHit || reachesTarget m.monthStartBalance m.monthlyProfitTargetPct input

def revengeStops (m : RiskManager ℚ) (input : TradeGateInput ℚ) : Bool :=
  m.revengeDetector.isRevengeTrading input.currentTimeSec input.currentHour

/-- An earlier rule of the gate refuses that may admit again later: the target of the month, or
the revenge detector where no challenge target refuses before it. -/
def passingRefusal (m : RiskManager ℚ) (input : TradeGateInput ℚ) : Bool :=
  if m.challengeMode then
    !m.targetStops input && m.revengeStops input
  else
    m.targetStops input || m.revengeStops input

/-- A breach that finds the breaker open meets no rule that refuses before the drawdown is read
and may admit again. -/
def LatchReached (m : RiskManager ℚ) : RiskAct → Prop
  | .call (.checkTradeAllowed input) =>
    m.Breaches input → m.circuitBreakerTriggered = false →
      m.passingRefusal input = false
  | _ => True

def callEvent (m : RiskManager ℚ) : RiskOp ℚ → RiskEvent
  | .checkTradeAllowed input =>
    .gate (m.Breaches input) (m.checkTradeAllowed input).2.isOk.not
  | _ => .other

def machine (m : RiskManager ℚ) : Machine (RiskManager ℚ) RiskAct RiskEvent where
  start := m
  next m
    | .call op => some (m.callEvent op, (m.perform op).1)
    | .restart settings balance equity =>
      match fromSettings settings balance equity with
      | .error _ => none
      | .ok fresh =>
        if fresh.toRiskPolicy = m.toRiskPolicy then
          match fresh.restoreCheckpointV1 m.checkpointV1 with
          | (_, .error _) => none
          | (restored, .ok ()) => some (.other, restored)
        else
          none

/-- From a breach on, the breaching call included, the gate admits nothing. -/
def BreachIsPermanent (es : List RiskEvent) : Prop :=
  ∀ (i j : Nat) (refused breached : Bool), i ≤ j → es[i]? = some (RiskEvent.gate true refused) →
    es[j]? ≠ some (RiskEvent.gate breached false)

theorem notPositive_eq_false_iff {x : ℚ} : notPositive x = false ↔ 0 < x := by
  simp [notPositive, isFinite, le, lit]

structure Anchored (m : RiskManager ℚ) : Prop where
  challenge : m.challengeMode = true → 0 < m.challengeStartEquity
  trailing : m.challengeMode = false → m.challengeStartEquity = 0
  peak : 0 < m.totalPeakEquity
  limit : 0 < m.maxTotalLossPct
  halt : 0 < m.runtime.recoveryHaltDrawdownPct

theorem anchor_pos (settings : RiskSettings ℚ) {liveBalance : ℚ} (h : 0 < liveBalance) :
    0 < settings.anchor liveBalance := by
  unfold RiskSettings.anchor
  split
  next hdeclared =>
    obtain ⟨_, hlt⟩ := Bool.and_eq_true_iff.mp hdeclared
    exact of_decide_eq_true hlt
  next => exact h

theorem recoveryHaltDrawdownPct_pos (preset : PropFirmPreset) :
    (0 : ℚ) < (PropFirmRuntimeDefaults.forPreset preset).recoveryHaltDrawdownPct := by
  cases preset <;> exact show (0 : ℚ) < 5 / 100 by norm_num

theorem fromSettings_anchored {settings : RiskSettings ℚ} {balance equity : ℚ}
    {m : RiskManager ℚ} (h : fromSettings settings balance equity = .ok m) : m.Anchored := by
  obtain ⟨_, hcheck, rfl⟩ := Fallible.map_ok_iff.mp h
  obtain ⟨hbalance, hequity⟩ := RiskSettings.check_ok_positive hcheck
  rw [notPositive_eq_false_iff] at hbalance hequity
  have hanchor := anchor_pos settings hbalance
  have hlimit : 0 < settings.totalDrawdownLimit := by
    unfold RiskSettings.check at hcheck
    simp only [Fallible.check_ok_iff, Fallible.refuse_ok_iff] at hcheck
    obtain ⟨_, _, hlimit, _⟩ := hcheck
    simp only [notFraction, Bool.or_eq_true, not_or] at hlimit
    have hle := hlimit.1.2
    simpa [le, lit] using hle
  exact ⟨fun hmode => hanchor.trans_eq (if_pos hmode).symm,
    fun hmode => if_neg (Bool.eq_false_iff.mp hmode), lt_max_of_lt_left hequity, hlimit,
    recoveryHaltDrawdownPct_pos _⟩

theorem onEquityUpdate_peak (m : RiskManager ℚ) {equity : ℚ} (h : 0 < equity) :
    (m.onEquityUpdate equity).totalPeakEquity = max m.totalPeakEquity equity := by
  have hpositive : ¬notPositive equity = true := by
    rw [Bool.not_eq_true, notPositive_eq_false_iff]
    exact h
  unfold onEquityUpdate
  rw [if_neg hpositive]
  split
  next hlt =>
    obtain ⟨recovery, hrecovery⟩ :=
      updateRecoveryState_cases { m with totalPeakEquity := equity } equity
    have hlt' : m.totalPeakEquity < equity := of_decide_eq_true hlt
    rw [hrecovery, max_eq_right hlt'.le]
  next hlt =>
    obtain ⟨recovery, hrecovery⟩ := m.updateRecoveryState_cases equity
    have hlt' : ¬m.totalPeakEquity < equity := by simpa [lt] using hlt
    rw [hrecovery, max_eq_left (not_lt.mp hlt')]

/-- The drawdown that the gate compares is at a positive limit exactly when the measured one is. -/
theorem Anchored.limit_le_iff {m : RiskManager ℚ} (hm : m.Anchored) {m' : RiskManager ℚ}
    {equity limit : ℚ}
    (hstart : m'.challengeStartEquity = m.challengeStartEquity)
    (hpeak : m'.totalPeakEquity = max m.totalPeakEquity equity) (hlimit : 0 < limit) :
    limit ≤ (m'.drawdownState equity).2 ↔ limit ≤ m.totalDrawdown equity := by
  have hmax : (m'.drawdownState equity).2 = max (m.totalDrawdown equity) 0 := by
    unfold drawdownState totalDrawdown
    simp only [hstart, hpeak]
    cases hchallenge : m.challengeMode with
    | true =>
      have hpos := hm.challenge hchallenge
      have hlt : lt (lit 0) m.challengeStartEquity = true := decide_eq_true hpos
      simp only [hlt, if_true]
      rfl
    | false =>
      have hzero := hm.trailing hchallenge
      have hnot : ¬lt (lit 0) m.challengeStartEquity = true := by
        simp [lt, lit, hzero]
      have hpos : lt (lit 0) (max m.totalPeakEquity equity) = true :=
        decide_eq_true (lt_max_of_lt_left hm.peak)
      rw [if_neg hnot, if_pos hpos]
      rfl
  rw [hmax, le_max_iff]
  constructor
  · rintro (h | h)
    · exact h
    · exact absurd hlimit (not_lt.mpr h)
  · exact Or.inl

def Stopped (m : RiskManager ℚ) : Prop :=
  m.circuitBreakerTriggered = true ∨ m.challengeMode = true ∧ m.challengeTargetHit = true

theorem gateState_cases (m : RiskManager ℚ) (input : TradeGateInput ℚ) :
    ∃ peak recovery monthly challenge,
      (m.onEquityUpdate input.equity).totalPeakEquity = peak ∧
      (if m.challengeMode then challenge else monthly) = m.targetStops input ∧
      (m.challengeTargetHit = true → challenge = true) ∧
      (m.onEquityUpdate input.equity).noteTargets input =
        { m with
          totalPeakEquity := peak, recoveryMode := recovery, monthlyTargetHit := monthly,
          challengeTargetHit := challenge } := by
  obtain ⟨peak, recovery, _, hupdate⟩ := m.onEquityUpdate_cases input.equity
  rw [hupdate]
  unfold noteTargets targetStops
  split
  next =>
    split
    next hreach =>
      exact ⟨peak, recovery, m.monthlyTargetHit, true, rfl, by simp only [hreach, Bool.or_true],
        fun _ => rfl, rfl⟩
    next hreach =>
      refine ⟨peak, recovery, m.monthlyTargetHit, m.challengeTargetHit, rfl, ?_, id, rfl⟩
      rw [Bool.not_eq_true] at hreach
      simp only [hreach, Bool.or_false]
  next =>
    split
    next hreach =>
      exact ⟨peak, recovery, true, m.challengeTargetHit, rfl, by simp only [hreach, Bool.or_true],
        id, rfl⟩
    next hreach =>
      refine ⟨peak, recovery, m.monthlyTargetHit, m.challengeTargetHit, rfl, ?_, id, rfl⟩
      rw [Bool.not_eq_true] at hreach
      simp only [hreach, Bool.or_false]

theorem Stopped.gate {m : RiskManager ℚ} (hs : m.Stopped) (input : TradeGateInput ℚ) :
    (m.checkTradeAllowed input).1.Stopped ∧ (m.checkTradeAllowed input).2.isOk = false := by
  constructor
  · obtain ⟨peak, recovery, monthly, challenge, latch, _, hchallenge, hlatch, h⟩ :=
      m.checkTradeAllowed_cases input
    rw [h]
    obtain hbreaker | ⟨hmode, hhit⟩ := hs
    · exact .inl (hlatch hbreaker)
    · exact .inr ⟨hmode, hchallenge hhit⟩
  · obtain ⟨peak, recovery, monthly, challenge, _, _, hchallenge, hstate⟩ :=
      m.gateState_cases input
    unfold checkTradeAllowed
    rw [hstate]
    split
    next => rfl
    next =>
      simp only
      split
      next => rfl
      next htarget =>
        split
        next => rfl
        next =>
          split
          next => rfl
          next hbreaker =>
            obtain hopen | ⟨hmode, hhit⟩ := hs
            · exact absurd hopen hbreaker
            · exact absurd (by rw [hmode, hchallenge hhit]; rfl) htarget

theorem checkDrawdown_breach (m : RiskManager ℚ) (input : TradeGateInput ℚ)
    (h : m.maxTotalLossPct ≤ (m.drawdownState input.equity).2 ∨ m.recoveryModeEnabled = true ∧
      m.runtime.recoveryHaltDrawdownPct ≤ (m.drawdownState input.equity).2) :
    (m.checkDrawdown input).1.circuitBreakerTriggered = true ∧
      (m.checkDrawdown input).2.isOk = false := by
  unfold checkDrawdown
  simp only
  split
  next => exact ⟨rfl, rfl⟩
  next hlimit =>
    split
    next => exact ⟨rfl, rfl⟩
    next hhalt =>
      obtain h | ⟨hrecovery, h⟩ := h
      · exact absurd (decide_eq_true h) hlimit
      · exact absurd (by rw [hrecovery, Bool.true_and]; exact decide_eq_true h) hhalt

/-- A breach stops the account, unless a rule that may admit again has refused before. -/
theorem Anchored.gate_of_breach {m : RiskManager ℚ} (hm : m.Anchored) {input : TradeGateInput ℚ}
    (hbreach : m.Breaches input)
    (hlatch : m.circuitBreakerTriggered = false → m.passingRefusal input = false) :
    (m.checkTradeAllowed input).1.Stopped ∧ (m.checkTradeAllowed input).2.isOk = false := by
  by_cases hbreaker : m.circuitBreakerTriggered = true
  · exact Stopped.gate (.inl hbreaker) input
  · obtain ⟨hbalance, hequity, hdrawdown⟩ := hbreach
    have hpassing := hlatch (Bool.eq_false_iff.mpr hbreaker)
    obtain ⟨peak, recovery, monthly, challenge, hpeak, hstops, _, hstate⟩ :=
      m.gateState_cases input
    rw [m.onEquityUpdate_peak hequity] at hpeak
    have hvalid : ¬(notPositive input.balance || notPositive input.equity) = true := by
      rw [notPositive_eq_false_iff.mpr hbalance, notPositive_eq_false_iff.mpr hequity]
      simp
    unfold checkTradeAllowed
    rw [if_neg hvalid, hstate]
    unfold passingRefusal at hpassing
    simp only [if_neg hbreaker]
    split
    next htarget => exact ⟨.inr (Bool.and_eq_true_iff.mp htarget), rfl⟩
    next htarget =>
      split
      next hmonthly =>
        obtain ⟨hmode, hhit⟩ := Bool.and_eq_true_iff.mp hmonthly
        rw [Bool.not_eq_true'] at hmode
        simp only [hmode, Bool.false_eq_true, if_false] at hpassing hstops
        rw [← hstops, hhit] at hpassing
        simp at hpassing
      next =>
        split
        next hrevenge =>
          have hrevenge' : m.revengeStops input = true := hrevenge
          cases hmode : m.challengeMode with
          | true =>
            simp only [hmode, if_true] at hpassing hstops
            rw [hmode, Bool.true_and, hstops, Bool.not_eq_true] at htarget
            simp [htarget, hrevenge'] at hpassing
          | false => simp [hmode, hrevenge'] at hpassing
        next =>
          have hlimit : ∀ limit, 0 < limit → limit ≤ m.totalDrawdown input.equity →
              limit ≤ (({ m with
                totalPeakEquity := peak, recoveryMode := recovery, monthlyTargetHit := monthly,
                challengeTargetHit := challenge } : RiskManager ℚ).drawdownState input.equity).2 :=
            fun limit hpos h => Iff.mpr (hm.limit_le_iff (by rfl) (by rw [← hpeak]) hpos) h
          obtain ⟨hlatched, hrefused⟩ := checkDrawdown_breach { m with
            totalPeakEquity := peak, recoveryMode := recovery, monthlyTargetHit := monthly,
            challengeTargetHit := challenge } input (by
              obtain h | ⟨hrecovery, h⟩ := hdrawdown
              · exact .inl (hlimit _ hm.limit h)
              · exact .inr ⟨hrecovery, hlimit _ hm.halt h⟩)
          exact ⟨.inl hlatched, hrefused⟩

/-- The new manager keeps the policy and the challenge anchor, a peak above zero and the flags that
stop the account. -/
def Keeps (m m' : RiskManager ℚ) : Prop :=
  m'.toRiskPolicy = m.toRiskPolicy ∧ m'.challengeStartEquity = m.challengeStartEquity ∧
    (0 < m.totalPeakEquity → 0 < m'.totalPeakEquity) ∧ (m.Stopped → m'.Stopped)

theorem Keeps.anchored {m m' : RiskManager ℚ} (h : m.Keeps m') (hm : m.Anchored) :
    m'.Anchored := by
  obtain ⟨hpolicy, hstart, hpeak, _⟩ := h
  exact ⟨by rw [hpolicy, hstart]; exact hm.challenge, by rw [hpolicy, hstart]; exact hm.trailing,
    hpeak hm.peak, by rw [hpolicy]; exact hm.limit, by rw [hpolicy]; exact hm.halt⟩

theorem onEquityUpdate_keeps (m : RiskManager ℚ) (equity : ℚ) :
    m.Keeps (m.onEquityUpdate equity) := by
  obtain ⟨peak, recovery, hpeak, h⟩ := m.onEquityUpdate_cases equity
  rw [h]
  refine ⟨rfl, rfl, fun hpos => ?_, id⟩
  obtain rfl | hpeak := hpeak
  · exact hpos
  · exact notPositive_eq_false_iff.mp hpeak

theorem rollPeriods_keeps (m : RiskManager ℚ) (dateId monthId : Nat) (balance equity : ℚ) :
    m.Keeps (m.rollPeriods dateId monthId balance equity) := by
  unfold rollPeriods
  split
  next => exact ⟨rfl, rfl, id, id⟩
  next =>
    have hday : m.Keeps (m.rollDay dateId balance) := by
      unfold rollDay
      split
      next => exact ⟨rfl, rfl, id, id⟩
      next => exact ⟨rfl, rfl, id, id⟩
    have hmonth : (m.rollDay dateId balance).Keeps
        ((m.rollDay dateId balance).rollMonth monthId balance) := by
      unfold rollMonth
      split
      next => exact ⟨rfl, rfl, id, id⟩
      next => exact ⟨rfl, rfl, id, id⟩
    have hequity :=
      onEquityUpdate_keeps ((m.rollDay dateId balance).rollMonth monthId balance) equity
    exact ⟨hequity.1.trans (hmonth.1.trans hday.1),
      hequity.2.1.trans (hmonth.2.1.trans hday.2.1),
      fun h => hequity.2.2.1 (hmonth.2.2.1 (hday.2.2.1 h)),
      fun h => hequity.2.2.2 (hmonth.2.2.2 (hday.2.2.2 h))⟩

theorem checkTradeAllowed_keeps (m : RiskManager ℚ) (input : TradeGateInput ℚ) :
    m.Keeps (m.checkTradeAllowed input).1 := by
  have hstopped := fun hs : m.Stopped => (hs.gate input).1
  obtain ⟨peak, recovery, monthly, challenge, latch, hpeak, _, _, h⟩ :=
    m.checkTradeAllowed_cases input
  rw [h] at hstopped ⊢
  refine ⟨rfl, rfl, fun hpos => ?_, hstopped⟩
  obtain rfl | hpeak := hpeak
  · exact hpos
  · exact notPositive_eq_false_iff.mp hpeak

theorem perform_keeps (m : RiskManager ℚ) (op : RiskOp ℚ) : m.Keeps (m.perform op).1 := by
  cases op with
  | rollPeriods dateId monthId balance equity =>
    exact m.rollPeriods_keeps dateId monthId balance equity
  | onEquityUpdate equity => exact m.onEquityUpdate_keeps equity
  | recordClosedTrade trade => exact ⟨rfl, rfl, id, id⟩
  | checkTradeAllowed input => exact m.checkTradeAllowed_keeps input
  | calculatePositionSize input => exact ⟨rfl, rfl, id, id⟩
  | checkpointV1 => exact ⟨rfl, rfl, id, id⟩

/-- A restore takes the flags from the checkpoint, and only where the anchors agree. -/
theorem restoreCheckpointV1_keeps {m fresh restored : RiskManager ℚ}
    (hpolicy : fresh.toRiskPolicy = m.toRiskPolicy)
    (h : fresh.restoreCheckpointV1 m.checkpointV1 = (restored, .ok ())) : m.Keeps restored := by
  unfold restoreCheckpointV1 at h
  split at h
  next => simp at h
  next hchecks =>
    obtain ⟨rfl, _⟩ := Prod.mk.inj h
    unfold restoreChecks at hchecks
    simp only [Fallible.check_ok_iff, Fallible.refuse_ok_iff, not_or, not_not] at hchecks
    obtain ⟨_, ⟨_, hstart⟩, _⟩ := hchecks
    refine ⟨hpolicy, hstart.symm, id, ?_⟩
    unfold Stopped
    simp only [hpolicy]
    exact id

/-- What holds of the account after a history: its anchors, and the end of all admission once a
snapshot has breached. -/
structure LatchInvariant (es : List RiskEvent) (m : RiskManager ℚ) : Prop where
  anchored : m.Anchored
  stopped : ∀ refused, RiskEvent.gate true refused ∈ es → m.Stopped
  permanent : BreachIsPermanent es

/-- A step after which the account is stopped if it was or has just breached, and that admits
nothing in either case. -/
theorem LatchInvariant.snoc {es : List RiskEvent} {m m' : RiskManager ℚ} {e : RiskEvent}
    (hi : LatchInvariant es m) (hkeeps : m.Keeps m')
    (hstopped : m.Stopped → ∀ breached, e ≠ .gate breached false)
    (hbreach : ∀ refused, e = .gate true refused → refused = true ∧ m'.Stopped) :
    LatchInvariant (es ++ [e]) m' := by
  refine ⟨hkeeps.anchored hi.anchored, ?_, ?_⟩
  · intro refused hmem
    obtain hmem | hmem := List.mem_append.mp hmem
    · exact hkeeps.2.2.2 (hi.stopped refused hmem)
    · exact (hbreach refused (List.mem_singleton.mp hmem).symm).2
  · intro i j refused breached hij hbreached hadmitted
    obtain hold | ⟨hlast, hnew⟩ := ListIndex.getElem?_snoc_iff.mp hadmitted
    · obtain hbreached | ⟨hend, _⟩ := ListIndex.getElem?_snoc_iff.mp hbreached
      · exact hi.permanent i j refused breached hij hbreached hold
      · have hlt := (List.getElem?_eq_some_iff.mp hold).1
        omega
    · obtain hbreached | ⟨_, hsame⟩ := ListIndex.getElem?_snoc_iff.mp hbreached
      · exact hstopped (hi.stopped refused (List.mem_of_getElem? hbreached)) breached hnew
      · have hrefused := (hbreach refused hsame).1
        rw [hnew] at hsame
        cases hsame
        simp at hrefused

theorem LatchInvariant.next {account : RiskManager ℚ} {es : List RiskEvent} {m m' : RiskManager ℚ}
    {a : RiskAct} {e : RiskEvent} (hi : LatchInvariant es m) (ha : m.LatchReached a)
    (h : account.machine.next m a = some (e, m')) : LatchInvariant (es ++ [e]) m' := by
  cases a with
  | call op =>
    obtain ⟨rfl, rfl⟩ := Prod.mk.inj (Option.some.inj h)
    have hkeeps := m.perform_keeps op
    cases op with
    | checkTradeAllowed input =>
      refine hi.snoc hkeeps ?_ ?_
      · intro hs breached he
        have hrefused := (hs.gate input).2
        simp only [callEvent, RiskEvent.gate.injEq] at he
        rw [hrefused] at he
        simp at he
      · intro refused he
        simp only [callEvent, RiskEvent.gate.injEq] at he
        have hbreach : m.Breaches input := of_decide_eq_true he.1
        obtain ⟨hstopped, hrefused⟩ := hi.anchored.gate_of_breach hbreach (ha hbreach)
        rw [hrefused] at he
        exact ⟨he.2.symm, hstopped⟩
    | rollPeriods | onEquityUpdate | recordClosedTrade | calculatePositionSize | checkpointV1 =>
      exact hi.snoc hkeeps (fun _ _ => by simp [callEvent]) (fun _ => by simp [callEvent])
  | restart settings balance equity =>
    simp only [machine] at h
    split at h
    next => simp at h
    next fresh hfresh =>
      split at h
      next hpolicy =>
        split at h
        next => simp at h
        next restored hrestore =>
          obtain ⟨rfl, rfl⟩ := Prod.mk.inj (Option.some.inj h)
          exact hi.snoc (restoreCheckpointV1_keeps hpolicy hrestore) (fun _ _ => by simp)
            (fun _ => by simp)
      next => simp at h

/-- A total-drawdown breach is permanent in every run in which no breach that finds the breaker
open is refused first by the target of the month or by the revenge detector. -/
theorem breach_permanent_of_latchReached (settings : RiskSettings ℚ) (balance equity : ℚ)
    (m : RiskManager ℚ) (hstart : fromSettings settings balance equity = .ok m)
    (es : List RiskEvent) (m' : RiskManager ℚ) (hrun : m.machine.RunUnder LatchReached es m') :
    BreachIsPermanent es := by
  have hinitial : LatchInvariant [] m :=
    ⟨fromSettings_anchored hstart, by simp, by simp [BreachIsPermanent]⟩
  have hi := Machine.RunUnder.invariant (I := LatchInvariant) hinitial
    (fun _ _ _ _ _ hi ha hn => hi.next ha hn) hrun
  exact hi.permanent

instance (m : RiskManager ℚ) (a : RiskAct) : Decidable (m.LatchReached a) :=
  match a with
  | .call (.checkTradeAllowed _) => inferInstanceAs (Decidable (_ → _ → _))
  | .call (.rollPeriods _ _ _ _) => .isTrue trivial
  | .call (.onEquityUpdate _) => .isTrue trivial
  | .call (.recordClosedTrade _) => .isTrue trivial
  | .call (.calculatePositionSize _) => .isTrue trivial
  | .call .checkpointV1 => .isTrue trivial
  | .restart _ _ _ => .isTrue trivial

/-- A breach, a new process, and a recovery that the gate still refuses. -/
def sampleLatchedBreach : List RiskAct :=
  [.call (.rollPeriods 20260810 202608 10000 10000),
    .call (.checkTradeAllowed ⟨8000, 8000, none, 300, 10, 2, 0⟩),
    .restart sampleRiskSettings 8000 8000,
    .call (.checkTradeAllowed ⟨10000, 10000, none, 9000, 10, 3, 0⟩)]

theorem sampleLatchedBreach_permanent : ∃ (m m' : RiskManager ℚ) (es : List RiskEvent),
    fromSettings sampleRiskSettings 10000 10000 = .ok m ∧ m.machine.RunUnder LatchReached es m' ∧
      es = [.other, .gate true true, .other, .gate false true] ∧ BreachIsPermanent es := by
  have hrun : (fromSettings sampleRiskSettings 10000 10000).toOption.any (fun m =>
      ((m.machine.restrict LatchReached).exec [] m sampleLatchedBreach).any fun r =>
        r.1 = [.other, .gate true true, .other, .gate false true]) := by
    decide +kernel
  obtain ⟨m, hstart, hexec⟩ := Fallible.exists_ok_of_any hrun
  obtain ⟨es, m', hrun, hes⟩ := Machine.run_of_exec_start (M := m.machine.restrict LatchReached)
    sampleLatchedBreach
    (fun es _ => es = [.other, .gate true true, .other, .gate false true]) hexec
  have hunder := Machine.runUnder_of_restrict hrun
  exact ⟨m, m', es, hstart, hunder, of_decide_eq_true hes,
    breach_permanent_of_latchReached sampleRiskSettings 10000 10000 m hstart es m' hunder⟩

/-- Two losses, a breach that the revenge detector refuses, a winning trade and a recovery. -/
def sampleUnlatchedBreach : List RiskAct :=
  [.call (.recordClosedTrade ⟨100, 160, -250, 1, none⟩),
    .call (.recordClosedTrade ⟨200, 260, -250, 1, none⟩),
    .call (.checkTradeAllowed ⟨8000, 8000, none, 300, 10, 2, 0⟩),
    .call (.recordClosedTrade ⟨5000, 6000, 2000, 1, none⟩),
    .call (.checkTradeAllowed ⟨10000, 10000, none, 9000, 10, 3, 0⟩)]

theorem breach_not_permanent : ¬∀ (settings : RiskSettings ℚ) (balance equity : ℚ)
    (m : RiskManager ℚ), fromSettings settings balance equity = .ok m →
    ∀ es m', m.machine.Run es m' → BreachIsPermanent es := by
  intro hall
  have hrun : (fromSettings sampleRiskSettings 10000 10000).toOption.any (fun m =>
      (m.machine.exec [] m sampleUnlatchedBreach).any fun r =>
        r.1 = [.other, .other, .gate true true, .other, .gate false false]) := by
    decide +kernel
  obtain ⟨m, hstart, hexec⟩ := Fallible.exists_ok_of_any hrun
  obtain ⟨es, m', hrun, hes⟩ := Machine.run_of_exec_start (M := m.machine)
    sampleUnlatchedBreach
    (fun es _ => es = [.other, .other, .gate true true, .other, .gate false false]) hexec
  rw [of_decide_eq_true hes] at hrun
  exact hall sampleRiskSettings 10000 10000 m hstart _ m' hrun 2 4 true false (by omega) rfl rfl

end RiskManager

end Neoethos
