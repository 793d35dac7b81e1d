import Neoethos.BrokerPartition
import Neoethos.FloatOps

/-! The limits of the prop-firm gate, `prop_firm.rs` and the policy part of `risk.rs`. -/

namespace Neoethos

open FloatOps (lit lt le isFinite)

variable {F : Type*} [FloatOps F]

inductive PropFirmPreset
  | ftmo
  | myForexFunds
  | fundedNext
  | the5ers
  | none
  deriving DecidableEq

/-- `PropFirmConstraints::for_preset(preset).challenge_profit_target_pct as f64`: the table holds
single-precision numbers, and widening keeps what they were rounded to. -/
def challengeProfitTargetPct : PropFirmPreset → F
  | .ftmo => lit (13421773 / 2 ^ 27)
  | .myForexFunds => lit (5368709 / 2 ^ 26)
  | .fundedNext => lit (5368709 / 2 ^ 26)
  | .the5ers => lit (16106127 / 2 ^ 28)
  | .none => lit 0

/-- The fields of `PropFirmRuntimeDefaults` that the manager reads. -/
structure PropFirmRuntimeDefaults (F : Type*) where
  dailyDdWarningPct : F
  dailyDdStopTradingPct : F
  recoveryHaltDrawdownPct : F
  recoveryTopStrategyDrawdownPct : F
  recoveryMinSharpeDrawdownPct : F
  recoveryTopThreeDrawdownPct : F
  recoveryMaxTradesPerDay : Nat
  recoveryModeRiskMultiplier : F
  defensiveModeRiskMultiplier : F
  cautionModeRiskMultiplier : F
  deriving DecidableEq

namespace PropFirmRuntimeDefaults

def ftmoStandard : PropFirmRuntimeDefaults F where
  dailyDdWarningPct := lit (35 / 1000)
  dailyDdStopTradingPct := lit (40 / 1000)
  recoveryHaltDrawdownPct := lit (5 / 100)
  recoveryTopStrategyDrawdownPct := lit (4 / 100)
  recoveryMinSharpeDrawdownPct := lit (3 / 100)
  recoveryTopThreeDrawdownPct := lit (2 / 100)
  recoveryMaxTradesPerDay := 2
  recoveryModeRiskMultiplier := lit (25 / 100)
  defensiveModeRiskMultiplier := lit (50 / 100)
  cautionModeRiskMultiplier := lit (75 / 100)

def the5ersTighterDailyDd : PropFirmRuntimeDefaults F :=
  { ftmoStandard with
    dailyDdWarningPct := lit (28 / 1000), dailyDdStopTradingPct := lit (32 / 1000) }

def noneOwnMoney : PropFirmRuntimeDefaults F :=
  { ftmoStandard with
    dailyDdWarningPct := lit (7 / 100), dailyDdStopTradingPct := lit (8 / 100) }

def forPreset : PropFirmPreset → PropFirmRuntimeDefaults F
  | .ftmo | .myForexFunds | .fundedNext => ftmoStandard
  | .the5ers => the5ersTighterDailyDd
  | .none => noneOwnMoney

end PropFirmRuntimeDefaults

/-- The fields of `PropFirmPhaseRiskDefaults` that the manager reads. -/
structure PropFirmPhaseRiskDefaults (F : Type*) where
  maxRiskPerTrade : F
  minConfidenceThreshold : F

namespace PropFirmPhaseRiskDefaults

def ftmoPhase1 : PropFirmPhaseRiskDefaults F := ⟨lit (50 / 10000), lit (66 / 100)⟩

def ftmoPhase2 : PropFirmPhaseRiskDefaults F := ⟨lit (40 / 10000), lit (68 / 100)⟩

def ftmoFunded : PropFirmPhaseRiskDefaults F := ⟨lit (50 / 10000), lit (65 / 100)⟩

def the5ersPhase1 : PropFirmPhaseRiskDefaults F := ⟨lit (35 / 10000), lit (70 / 100)⟩

def noneOwnMoney : PropFirmPhaseRiskDefaults F := ⟨lit (100 / 10000), lit (55 / 100)⟩

end PropFirmPhaseRiskDefaults

/-- `challenge_phase.trim().to_ascii_lowercase()`. -/
def normalizedPhase (challengePhase : String) : String :=
  (trim challengePhase).map Char.toLower

def PropFirmPhaseRiskDefaults.forPreset (preset : PropFirmPreset) (challengePhase : String) :
    PropFirmPhaseRiskDefaults F :=
  match preset with
  | .ftmo | .myForexFunds | .fundedNext =>
    match normalizedPhase challengePhase with
    | "phase_1" | "phase1" | "p1" => ftmoPhase1
    | "phase_2" | "phase2" | "p2" => ftmoPhase2
    | "funded" => ftmoFunded
    | _ => ftmoPhase1
  | .the5ers => the5ersPhase1
  | .none => noneOwnMoney

/-- The fields of `settings.risk` that `RiskManager::from_settings` reads. -/
structure RiskSettings (F : Type*) where
  preset : PropFirmPreset
  challengePhase : String
  challengeMode : Bool
  recoveryModeEnabled : Bool
  totalDrawdownLimit : F
  dailyDrawdownLimit : F
  maxRiskPerTrade : F
  propFirmMaxRiskPerTrade : Option F
  monthlyProfitTargetPct : F
  initialBalance : F

/-- The fields of `RiskManager` that are never mutated after construction. -/
structure RiskPolicy (F : Type*) where
  preset : PropFirmPreset
  challengePhase : String
  challengeMode : Bool
  recoveryModeEnabled : Bool
  runtime : PropFirmRuntimeDefaults F
  maxTotalLossPct : F
  dailyDdStopTradingPct : F
  dailyDdWarningPct : F
  maxRiskPerTrade : F
  operatorMaxRiskPerTrade : F
  phaseMaxRiskPerTrade : F
  minConfidenceThreshold : F
  monthlyProfitTargetPct : F
  challengeTargetReturnPct : F
  deriving DecidableEq

/-- The errors of `from_settings`, with the number that each one names. -/
inductive FromSettingsError (F : Type*)
  | liveBalance (got : F)
  | liveEquity (got : F)
  | totalDrawdownLimit (got : F)
  | dailyDrawdownLimit (got : F)
  | maxRiskPerTrade (got : F)
  | monthlyProfitTargetPct (got : F)
  deriving DecidableEq

/-- A number that the checks refuse: not finite, or not above zero. -/
def notPositive (x : F) : Bool := !isFinite x || le x (lit 0)

/-- A number that is no fraction in `(0, 1]`. -/
def notFraction (x : F) : Bool := !isFinite x || le x (lit 0) || lt (lit 1) x

namespace RiskSettings

variable (settings : RiskSettings F)

def dailyDdWarningPct : F :=
  let runtime : PropFirmRuntimeDefaults F := .forPreset settings.preset
  if lt (lit 0) runtime.dailyDdStopTradingPct then
    settings.dailyDrawdownLimit * (runtime.dailyDdWarningPct / runtime.dailyDdStopTradingPct)
  else
    settings.dailyDrawdownLimit

def operatorMaxRiskPerTrade : F :=
  (settings.propFirmMaxRiskPerTrade.filter fun v => isFinite v && lt (lit 0) v).getD
    settings.maxRiskPerTrade

def challengeTargetReturnPct : F :=
  match normalizedPhase settings.challengePhase with
  | "phase_2" | "phase2" | "p2" => challengeProfitTargetPct settings.preset / lit 2
  | "funded" => lit 0
  | _ => challengeProfitTargetPct settings.preset

/-- The policy of the manager that `from_settings` returns. -/
def policy : RiskPolicy F :=
  let phase : PropFirmPhaseRiskDefaults F := .forPreset settings.preset settings.challengePhase
  { preset := settings.preset
    challengePhase := settings.challengePhase
    challengeMode := settings.challengeMode
    recoveryModeEnabled := settings.recoveryModeEnabled
    runtime := .forPreset settings.preset
    maxTotalLossPct := settings.totalDrawdownLimit
    dailyDdStopTradingPct := settings.dailyDrawdownLimit
    dailyDdWarningPct := settings.dailyDdWarningPct
    maxRiskPerTrade := settings.operatorMaxRiskPerTrade
    operatorMaxRiskPerTrade := settings.operatorMaxRiskPerTrade
    phaseMaxRiskPerTrade := phase.maxRiskPerTrade
    minConfidenceThreshold := phase.minConfidenceThreshold
    monthlyProfitTargetPct := settings.monthlyProfitTargetPct
    challengeTargetReturnPct := settings.challengeTargetReturnPct }

def anchor (liveBalance : F) : F :=
  if isFinite settings.initialBalance && lt (lit 0) settings.initialBalance then
    settings.initialBalance
  else
    liveBalance

/-- The checks of `from_settings`, in its order. -/
def check (liveBalance liveEquity : F) : Except (FromSettingsError F) Unit := do
  Fallible.refuse (notPositive liveBalance = true) (.liveBalance liveBalance)
  Fallible.refuse (notPositive liveEquity = true) (.liveEquity liveEquity)
  Fallible.refuse (notFraction settings.totalDrawdownLimit = true)
    (.totalDrawdownLimit settings.totalDrawdownLimit)
  Fallible.refuse (notFraction settings.dailyDrawdownLimit = true)
    (.dailyDrawdownLimit settings.dailyDrawdownLimit)
  Fallible.refuse (notFraction settings.operatorMaxRiskPerTrade = true)
    (.maxRiskPerTrade settings.operatorMaxRiskPerTrade)
  Fallible.refuse ((!isFinite settings.monthlyProfitTargetPct ||
      !(le (lit 0) settings.monthlyProfitTargetPct && le settings.monthlyProfitTargetPct (lit 1))) =
        true)
    (.monthlyProfitTargetPct settings.monthlyProfitTargetPct)

/-- The settings pass the checks at every pair of positive numbers, or at none. -/
theorem check_ok_of_ok {settings : RiskSettings F} {balance equity balance' equity' : F}
    (h : settings.check balance equity = .ok ()) (hbalance : notPositive balance' = false)
    (hequity : notPositive equity' = false) : settings.check balance' equity' = .ok () := by
  unfold check at h ⊢
  simp only [Fallible.check_ok_iff, Fallible.refuse_ok_iff] at h ⊢
  obtain ⟨_, _, hrest⟩ := h
  exact ⟨by simp [hbalance], by simp [hequity], hrest⟩

theorem check_ok_positive {settings : RiskSettings F} {balance equity : F}
    (h : settings.check balance equity = .ok ()) :
    notPositive balance = false ∧ notPositive equity = false := by
  unfold check at h
  simp only [Fallible.check_ok_iff, Fallible.refuse_ok_iff, Bool.not_eq_true] at h
  exact ⟨h.1, h.2.1⟩

end RiskSettings

end Neoethos
