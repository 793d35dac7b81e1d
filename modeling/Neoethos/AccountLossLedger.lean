import Mathlib.Algebra.Order.BigOperators.Group.Finset
import Mathlib.Data.Rat.BigOperators
import Neoethos.FloatOps
import Neoethos.Machine

/-! `RiskyModeManager`, with the loss ledgers that its kill switch reads, and the engines of an
account, which share the journal of the account. -/

namespace Neoethos

structure RiskyStage (F : Type) where
  stageIdx : Nat
  bankrollLowerUsd : F
  bankrollUpperUsd : F
  dailyLossCapFraction : F
  weeklyDrawdownCapFraction : F

structure RiskyModeConfig (F : Type) where
  stages : List (RiskyStage F)
  monthlyLossCapFraction : F
  presendSanityCeilingFraction : F
  stages_pos : 0 < stages.length

inductive KillSwitchTier
  | perTrade
  | perDay
  | perWeek
  | perStage
  | perMonth
  | preSendSanity
  deriving DecidableEq

/-- The index of a stage, which the source keeps in a byte. -/
abbrev StageIdx {F : Type} (config : RiskyModeConfig F) := Fin config.stages.length

def StageIdx.asByte {F : Type} {config : RiskyModeConfig F} (i : Nat)
    (h : i < config.stages.length) : StageIdx config :=
  ⟨i % 256, (Nat.mod_le i 256).trans_lt h⟩

section Manager

variable {F : Type} [FloatOps F]

def locateStageIdx (config : RiskyModeConfig F) (bankrollUsd : F) : StageIdx config :=
  if FloatOps.lt bankrollUsd (config.stages.get ⟨0, config.stages_pos⟩).bankrollLowerUsd then
    ⟨0, config.stages_pos⟩
  else
    match h : config.stages.findIdx? fun stage =>
        FloatOps.le stage.bankrollLowerUsd bankrollUsd &&
          FloatOps.lt bankrollUsd stage.bankrollUpperUsd with
    | some i => StageIdx.asByte i (List.findIdx?_eq_some_iff_getElem.mp h).1
    | none => StageIdx.asByte (config.stages.length - 1)
        (Nat.sub_lt config.stages_pos Nat.one_pos)

structure RiskyModeManager (F : Type) where
  config : RiskyModeConfig F
  currentStageIdx : StageIdx config
  /-- Only ever advances. -/
  highWaterStageIdx : StageIdx config
  currentBankrollUsd : F
  dailyLossAccumulatedUsd : F
  weeklyLossAccumulatedUsd : F
  monthlyLossAccumulatedUsd : F
  consecutiveLosses : Nat

namespace RiskyModeManager

def currentStage (m : RiskyModeManager F) : RiskyStage F := m.config.stages.get m.currentStageIdx

def isPositiveFinite (x : F) : Bool := FloatOps.isFinite x && !FloatOps.le x (FloatOps.lit 0)

def checkTradeAllowed (m : RiskyModeManager F) (sizeUsd proposedSlPips proposedTpPips : F) :
    Except KillSwitchTier Unit := do
  if !isPositiveFinite proposedSlPips || !isPositiveFinite proposedTpPips then
    throw .perTrade
  if FloatOps.le (m.currentBankrollUsd * m.config.presendSanityCeilingFraction) sizeUsd then
    throw .preSendSanity
  let stage := m.currentStage
  if FloatOps.le (stage.dailyLossCapFraction * m.currentBankrollUsd)
      m.dailyLossAccumulatedUsd then
    throw .perDay
  if FloatOps.le (stage.weeklyDrawdownCapFraction * m.currentBankrollUsd)
      m.weeklyLossAccumulatedUsd then
    throw .perWeek
  -- A retreat is measured against the stage below the highest one that was ever reached.
  if 0 < m.highWaterStageIdx.val then
    let prev := m.config.stages.get ⟨m.highWaterStageIdx - 1,
      (Nat.sub_le _ 1).trans_lt m.highWaterStageIdx.isLt⟩
    if FloatOps.lt m.currentBankrollUsd prev.bankrollLowerUsd then
      throw .perStage
  if FloatOps.le (m.config.monthlyLossCapFraction * m.currentBankrollUsd)
      m.monthlyLossAccumulatedUsd then
    throw .perMonth

def atBankroll (m : RiskyModeManager F) (bankrollUsd : F) : RiskyModeManager F :=
  let stageIdx := locateStageIdx m.config bankrollUsd
  { m with
    currentBankrollUsd := bankrollUsd
    currentStageIdx := stageIdx
    highWaterStageIdx :=
      if m.highWaterStageIdx.val < stageIdx.val then stageIdx else m.highWaterStageIdx }

def syncBankroll (m : RiskyModeManager F) (bankrollUsd : F) : RiskyModeManager F :=
  if !isPositiveFinite bankrollUsd then m else m.atBankroll bankrollUsd

def raiseSlot (slot v : F) : F :=
  if FloatOps.isFinite v && FloatOps.lt slot v then v else slot

def raisePeriodLosses (m : RiskyModeManager F) (dayUsd weekUsd monthUsd : F) :
    RiskyModeManager F :=
  { m with
    dailyLossAccumulatedUsd := raiseSlot m.dailyLossAccumulatedUsd dayUsd
    weeklyLossAccumulatedUsd := raiseSlot m.weeklyLossAccumulatedUsd weekUsd
    monthlyLossAccumulatedUsd := raiseSlot m.monthlyLossAccumulatedUsd monthUsd }

def bookPnl (m : RiskyModeManager F) (pnlUsd : F) : RiskyModeManager F :=
  if FloatOps.lt pnlUsd (FloatOps.lit 0) then
    let loss := -pnlUsd
    { m with
      dailyLossAccumulatedUsd := m.dailyLossAccumulatedUsd + loss
      weeklyLossAccumulatedUsd := m.weeklyLossAccumulatedUsd + loss
      monthlyLossAccumulatedUsd := m.monthlyLossAccumulatedUsd + loss
      consecutiveLosses := min (m.consecutiveLosses + 1) (2 ^ 32 - 1) }
  else { m with consecutiveLosses := 0 }

def recordTradeOutcome (m : RiskyModeManager F) (pnlUsd : F) : RiskyModeManager F :=
  if !FloatOps.isFinite pnlUsd then m
  else (m.bookPnl pnlUsd).atBankroll
    (FloatOps.max (m.currentBankrollUsd + pnlUsd) (FloatOps.lit 0))

def resetDailyAccumulator (m : RiskyModeManager F) : RiskyModeManager F :=
  { m with dailyLossAccumulatedUsd := FloatOps.lit 0 }

end RiskyModeManager

end Manager

namespace RiskyModeManager

def lossOfTrade (pnl : ℚ) : ℚ := max 0 (-pnl)

theorem lossOfTrade_nonneg (pnl : ℚ) : 0 ≤ lossOfTrade pnl := le_max_left _ _

theorem lossOfTrade_pos {pnl : ℚ} : 0 < lossOfTrade pnl ↔ pnl < 0 := by
  unfold lossOfTrade
  rw [lt_max_iff]
  constructor
  · intro h
    obtain h | h := h
    · exact absurd h (lt_irrefl 0)
    · linarith
  · intro h
    exact .inr (by linarith)

variable (m : RiskyModeManager ℚ)

theorem daily_recordTradeOutcome (pnl : ℚ) :
    (m.recordTradeOutcome pnl).dailyLossAccumulatedUsd =
      m.dailyLossAccumulatedUsd + lossOfTrade pnl := by
  have hbook : (m.recordTradeOutcome pnl).dailyLossAccumulatedUsd =
      (m.bookPnl pnl).dailyLossAccumulatedUsd := rfl
  rw [hbook]
  unfold bookPnl lossOfTrade
  simp only [lt_rat, lit_rat, decide_eq_true_eq]
  split
  next hloss => rw [max_eq_right (by linarith)]
  next hwin => rw [max_eq_left (by linarith), add_zero]

theorem daily_raisePeriodLosses (dayUsd weekUsd monthUsd : ℚ) :
    (m.raisePeriodLosses dayUsd weekUsd monthUsd).dailyLossAccumulatedUsd =
      max m.dailyLossAccumulatedUsd dayUsd := by
  unfold raisePeriodLosses raiseSlot
  simp only [lt_rat, isFinite_rat, Bool.true_and, decide_eq_true_eq]
  split
  next hraise => exact (max_eq_right hraise.le).symm
  next hkeep => exact (max_eq_left (not_lt.mp hkeep)).symm

theorem daily_syncBankroll (bankrollUsd : ℚ) :
    (m.syncBankroll bankrollUsd).dailyLossAccumulatedUsd = m.dailyLossAccumulatedUsd := by
  unfold syncBankroll
  split
  next => rfl
  next => rfl

end RiskyModeManager

open RiskyModeManager (lossOfTrade lossOfTrade_nonneg lossOfTrade_pos)

/-- What is fixed: the engine of every trade, and what it made. -/
structure AccountTrades (E T : Type) where
  owner : T → E
  pnl : T → ℚ

/-- One period of an account. `seen` is the journal as an engine read it last. -/
structure LossWorld (E T : Type) where
  managers : E → RiskyModeManager ℚ
  happened : Finset T
  journal : Finset T
  booked : E → Finset T
  seen : E → Finset T

inductive LossAction (E T : Type)
  | happens (t : T)
  | books (t : T)
  | journals (t : T)
  | raises (e : E) (weekUsd monthUsd : ℚ)
  | syncs (e : E) (bankrollUsd : ℚ)
  deriving DecidableEq

section World

variable {E T : Type} [DecidableEq E] [DecidableEq T]

def AccountTrades.total (trades : AccountTrades E T) (ts : Finset T) : ℚ :=
  ∑ t ∈ ts, lossOfTrade (trades.pnl t)

namespace LossWorld

def start (managers : E → RiskyModeManager ℚ) : LossWorld E T where
  managers e := (managers e).resetDailyAccumulator
  happened := ∅
  journal := ∅
  booked _ := ∅
  seen _ := ∅

/-- A trade happens once, and is booked by its own engine and received by the journal once,
in any order. -/
def next (trades : AccountTrades E T) (s : LossWorld E T) :
    LossAction E T → Option (LossAction E T × LossWorld E T)
  | .happens t =>
    if t ∈ s.happened then none
    else some (.happens t, { s with happened := insert t s.happened })
  | .books t =>
    let e := trades.owner t
    if t ∈ s.happened ∧ t ∉ s.booked e then
      some (.books t, { s with
        managers := Function.update s.managers e ((s.managers e).recordTradeOutcome (trades.pnl t))
        booked := Function.update s.booked e (insert t (s.booked e)) })
    else none
  | .journals t =>
    if t ∈ s.happened ∧ t ∉ s.journal then
      some (.journals t, { s with journal := insert t s.journal })
    else none
  | .raises e weekUsd monthUsd =>
    some (.raises e weekUsd monthUsd, { s with
      managers := Function.update s.managers e
        ((s.managers e).raisePeriodLosses (trades.total s.journal) weekUsd monthUsd)
      seen := Function.update s.seen e s.journal })
  | .syncs e bankrollUsd =>
    some (.syncs e bankrollUsd, { s with
      managers := Function.update s.managers e ((s.managers e).syncBankroll bankrollUsd) })

end LossWorld

def lossMachine (trades : AccountTrades E T) (managers : E → RiskyModeManager ℚ) :
    Machine (LossWorld E T) (LossAction E T) (LossAction E T) where
  start := LossWorld.start managers
  next := LossWorld.next trades

namespace LossWorld

def daily (s : LossWorld E T) (e : E) : ℚ := (s.managers e).dailyLossAccumulatedUsd

/-- Every manager has at least the losses it knows of, and at most those that happened. -/
def Bounded (trades : AccountTrades E T) (s : LossWorld E T) : Prop :=
  ∀ e, trades.total (s.booked e ∪ s.seen e) ≤ s.daily e ∧ s.daily e ≤ trades.total s.happened

/-- Every loss that a manager knows of is counted, and counted once. -/
def CountedOnce (trades : AccountTrades E T) (s : LossWorld E T) : Prop :=
  ∀ e, s.daily e = trades.total (s.booked e ∪ s.seen e)

/-- No losing trade is booked that the engine has already read in the journal, and the journal is
read only with the engine's losing trades in it, or with no losing trade in it that the engine does
not know. -/
def MergesSafely (trades : AccountTrades E T) (s : LossWorld E T) : LossAction E T → Prop
  | .books t => trades.pnl t < 0 → t ∉ s.seen (trades.owner t)
  | .raises e _ _ => (∀ t ∈ s.booked e, trades.pnl t < 0 → t ∈ s.journal) ∨
      ∀ t ∈ s.journal, trades.pnl t < 0 → t ∈ s.booked e ∪ s.seen e
  | _ => True

structure WellFormed (s : LossWorld E T) : Prop where
  seen : ∀ e, s.seen e ⊆ s.journal
  journal : s.journal ⊆ s.happened
  booked : ∀ e, s.booked e ⊆ s.happened

end LossWorld

namespace AccountTrades

variable {trades : AccountTrades E T} {ts us : Finset T} {t : T}

omit [DecidableEq E] [DecidableEq T] in
theorem total_mono (h : ts ⊆ us) : trades.total ts ≤ trades.total us :=
  Finset.sum_le_sum_of_subset_of_nonneg h fun _ _ _ => lossOfTrade_nonneg _

omit [DecidableEq E] in
theorem total_insert (h : t ∉ ts) :
    trades.total (insert t ts) = trades.total ts + lossOfTrade (trades.pnl t) := by
  unfold total
  rw [Finset.sum_insert h, add_comm]

omit [DecidableEq E] in
/-- The total of a larger set is the same only when no loss is missing. -/
theorem total_union_eq_iff :
    trades.total us = trades.total (ts ∪ us) ↔ ∀ t ∈ ts, trades.pnl t < 0 → t ∈ us := by
  constructor
  · intro heq t ht hloss
    by_contra hmissing
    have hinsert : trades.total (insert t us) ≤ trades.total (ts ∪ us) := by
      apply total_mono
      exact Finset.insert_subset (Finset.mem_union_left _ ht) Finset.subset_union_right
    rw [total_insert hmissing, ← heq] at hinsert
    have hpos := lossOfTrade_pos.mpr hloss
    linarith
  · intro hall
    apply Finset.sum_subset Finset.subset_union_right
    intro t ht hmissing
    obtain ht | ht := Finset.mem_union.mp ht
    · by_contra hne
      have hloss := lossOfTrade_pos.mp ((lossOfTrade_nonneg _).lt_of_ne (Ne.symm hne))
      exact hmissing (hall t ht hloss)
    · exact absurd ht hmissing

end AccountTrades

namespace LossWorld

variable {trades : AccountTrades E T} {s s' : LossWorld E T} {a event : LossAction E T}
  {managers : E → RiskyModeManager ℚ}

omit [DecidableEq E] in
/-- Only one engine's ledger has to be looked at when the others are as before. -/
theorem countedOnce_iff_at (hcount : s.CountedOnce trades) (e : E)
    (hothers : ∀ other, other ≠ e → s'.daily other = s.daily other ∧
      s'.booked other = s.booked other ∧ s'.seen other = s.seen other) :
    s'.CountedOnce trades ↔ s'.daily e = trades.total (s'.booked e ∪ s'.seen e) := by
  constructor
  · intro h
    exact h e
  · intro h other
    by_cases hsame : other = e
    · rw [hsame]
      exact h
    · obtain ⟨hdaily, hbooked, hseen⟩ := hothers other hsame
      rw [hdaily, hbooked, hseen]
      exact hcount other

/-- A booking adds a loss to the ledger, and it is new unless the engine has read of it. -/
theorem books_countedOnce_iff {t : T} (hcount : s.CountedOnce trades)
    (h : next trades s (.books t) = some (event, s')) :
    s'.CountedOnce trades ↔ s.MergesSafely trades (.books t) := by
  unfold next at h
  dsimp only at h
  split at h
  next hbooks =>
    obtain ⟨_, rfl⟩ := Prod.mk.inj (Option.some.inj h)
    obtain ⟨_, hnew⟩ := hbooks
    rw [countedOnce_iff_at hcount (trades.owner t)]
    · unfold daily
      dsimp only
      rw [Function.update_self, Function.update_self,
        RiskyModeManager.daily_recordTradeOutcome, Finset.insert_union]
      have hbefore : (s.managers (trades.owner t)).dailyLossAccumulatedUsd =
          trades.total (s.booked (trades.owner t) ∪ s.seen (trades.owner t)) :=
        hcount (trades.owner t)
      rw [hbefore]
      by_cases hseen : t ∈ s.seen (trades.owner t)
      · rw [Finset.insert_eq_of_mem (Finset.mem_union_right _ hseen)]
        have hzero : lossOfTrade (trades.pnl t) = 0 ↔ ¬trades.pnl t < 0 := by
          rw [← lossOfTrade_pos, not_lt]
          constructor
          · intro heq
            exact heq.le
          · intro hle
            exact le_antisymm hle (lossOfTrade_nonneg _)
        rw [add_eq_left, hzero]
        constructor
        · intro hwin hloss
          exact absurd hloss hwin
        · intro hsafe hloss
          exact hsafe hloss hseen
      · rw [AccountTrades.total_insert]
        · constructor
          · intro _ _
            exact hseen
          · intro _
            rfl
        · intro hmem
          obtain hmem | hmem := Finset.mem_union.mp hmem
          · exact hnew hmem
          · exact hseen hmem
    · intro other hother
      unfold daily
      dsimp only
      rw [Function.update_of_ne hother, Function.update_of_ne hother]
      exact ⟨rfl, rfl, rfl⟩
  next => cases h

/-- The larger of the ledger and the journal counts both only when one of them has all. -/
theorem raises_countedOnce_iff {e : E} {weekUsd monthUsd : ℚ} (hwell : s.WellFormed)
    (hcount : s.CountedOnce trades)
    (h : next trades s (.raises e weekUsd monthUsd) = some (event, s')) :
    s'.CountedOnce trades ↔ s.MergesSafely trades (.raises e weekUsd monthUsd) := by
  obtain ⟨_, rfl⟩ := Prod.mk.inj (Option.some.inj h)
  have hbefore : s.daily e = trades.total (s.booked e ∪ s.seen e) := hcount e
  have hgrows : s.daily e ≤ trades.total (s.booked e ∪ s.journal) := by
    rw [hbefore]
    exact AccountTrades.total_mono (Finset.union_subset_union_right (hwell.seen e))
  have hpart : trades.total s.journal ≤ trades.total (s.booked e ∪ s.journal) :=
    AccountTrades.total_mono Finset.subset_union_right
  rw [countedOnce_iff_at hcount e]
  · have hdaily : daily { s with
        managers := Function.update s.managers e
          ((s.managers e).raisePeriodLosses (trades.total s.journal) weekUsd monthUsd)
        seen := Function.update s.seen e s.journal } e =
          max (s.daily e) (trades.total s.journal) := by
      unfold daily
      dsimp only
      rw [Function.update_self, RiskyModeManager.daily_raisePeriodLosses]
    rw [hdaily]
    dsimp only
    rw [Function.update_self]
    have hall : s.journal ∪ (s.booked e ∪ s.seen e) = s.booked e ∪ s.journal := by
      rw [Finset.union_comm, Finset.union_assoc, Finset.union_eq_right.mpr (hwell.seen e)]
    have hknown : s.daily e = trades.total (s.booked e ∪ s.journal) ↔
        ∀ t ∈ s.journal, trades.pnl t < 0 → t ∈ s.booked e ∪ s.seen e := by
      rw [hbefore, ← hall]
      exact AccountTrades.total_union_eq_iff
    show _ ↔ (∀ t ∈ s.booked e, trades.pnl t < 0 → t ∈ s.journal) ∨
      ∀ t ∈ s.journal, trades.pnl t < 0 → t ∈ s.booked e ∪ s.seen e
    rw [← AccountTrades.total_union_eq_iff, ← hknown]
    constructor
    · intro heq
      obtain hle | hle := le_total (s.daily e) (trades.total s.journal)
      · rw [max_eq_right hle] at heq
        exact .inl heq
      · rw [max_eq_left hle] at heq
        exact .inr heq
    · intro hsafe
      apply le_antisymm (max_le hgrows hpart)
      obtain heq | heq := hsafe
      · exact heq.ge.trans (le_max_right _ _)
      · exact heq.ge.trans (le_max_left _ _)
  · intro other hother
    unfold daily
    dsimp only
    rw [Function.update_of_ne hother, Function.update_of_ne hother]
    exact ⟨rfl, rfl, rfl⟩

/-- A step leaves every loss counted once exactly when it merges safely. -/
theorem next_countedOnce_iff (hwell : s.WellFormed) (hcount : s.CountedOnce trades)
    (h : next trades s a = some (event, s')) :
    s'.CountedOnce trades ↔ s.MergesSafely trades a := by
  cases a with
  | books t => exact books_countedOnce_iff hcount h
  | raises e weekUsd monthUsd => exact raises_countedOnce_iff hwell hcount h
  | happens t =>
    unfold next at h
    dsimp only at h
    split at h
    next => cases h
    next =>
      obtain ⟨_, rfl⟩ := Prod.mk.inj (Option.some.inj h)
      exact iff_of_true hcount trivial
  | journals t =>
    unfold next at h
    dsimp only at h
    split at h
    next =>
      obtain ⟨_, rfl⟩ := Prod.mk.inj (Option.some.inj h)
      exact iff_of_true hcount trivial
    next => cases h
  | syncs e bankrollUsd =>
    obtain ⟨_, rfl⟩ := Prod.mk.inj (Option.some.inj h)
    rw [countedOnce_iff_at hcount e]
    · unfold daily
      dsimp only
      rw [Function.update_self, RiskyModeManager.daily_syncBankroll]
      exact iff_of_true (hcount e) trivial
    · intro other hother
      unfold daily
      dsimp only
      rw [Function.update_of_ne hother]
      exact ⟨rfl, rfl, rfl⟩

omit [DecidableEq E] [DecidableEq T] in
theorem wellFormed_start (managers : E → RiskyModeManager ℚ) :
    (start managers : LossWorld E T).WellFormed :=
  ⟨fun _ => Finset.Subset.refl _, Finset.Subset.refl _, fun _ => Finset.Subset.refl _⟩

omit [DecidableEq E] in
theorem countedOnce_start (trades : AccountTrades E T) (managers : E → RiskyModeManager ℚ) :
    (start managers : LossWorld E T).CountedOnce trades := fun _ => rfl

theorem WellFormed.next (hwell : s.WellFormed) (h : next trades s a = some (event, s')) :
    s'.WellFormed := by
  obtain ⟨hseen, hjournal, hbooked⟩ := hwell
  cases a with
  | happens t =>
    unfold LossWorld.next at h
    dsimp only at h
    split at h
    next => cases h
    next =>
      obtain ⟨_, rfl⟩ := Prod.mk.inj (Option.some.inj h)
      exact ⟨hseen, hjournal.trans (Finset.subset_insert _ _),
        fun e => (hbooked e).trans (Finset.subset_insert _ _)⟩
  | books t =>
    unfold LossWorld.next at h
    dsimp only at h
    split at h
    next hbooks =>
      obtain ⟨_, rfl⟩ := Prod.mk.inj (Option.some.inj h)
      refine ⟨hseen, hjournal, fun e => ?_⟩
      by_cases hsame : e = trades.owner t
      · rw [hsame]
        dsimp only
        rw [Function.update_self]
        exact Finset.insert_subset hbooks.1 (hbooked _)
      · dsimp only
        rw [Function.update_of_ne hsame]
        exact hbooked e
    next => cases h
  | journals t =>
    unfold LossWorld.next at h
    dsimp only at h
    split at h
    next hreceives =>
      obtain ⟨_, rfl⟩ := Prod.mk.inj (Option.some.inj h)
      exact ⟨fun e => (hseen e).trans (Finset.subset_insert _ _),
        Finset.insert_subset hreceives.1 hjournal, hbooked⟩
    next => cases h
  | raises e weekUsd monthUsd =>
    obtain ⟨_, rfl⟩ := Prod.mk.inj (Option.some.inj h)
    refine ⟨fun other => ?_, hjournal, hbooked⟩
    by_cases hsame : other = e
    · rw [hsame]
      dsimp only
      rw [Function.update_self]
    · dsimp only
      rw [Function.update_of_ne hsame]
      exact hseen other
  | syncs e bankrollUsd =>
    obtain ⟨_, rfl⟩ := Prod.mk.inj (Option.some.inj h)
    exact ⟨hseen, hjournal, hbooked⟩

omit [DecidableEq E] in
theorem CountedOnce.bounded (hwell : s.WellFormed) (hcount : s.CountedOnce trades) :
    s.Bounded trades := by
  intro e
  rw [hcount e]
  refine ⟨le_refl _, AccountTrades.total_mono ?_⟩
  exact Finset.union_subset (hwell.booked e) ((hwell.seen e).trans hwell.journal)

/-- The step leaves a state in which every loss is counted once. -/
def StaysCounted (trades : AccountTrades E T) (s : LossWorld E T) (a : LossAction E T) : Prop :=
  ∀ event s', next trades s a = some (event, s') → s'.CountedOnce trades

/-- Both conditions keep every loss counted once, and each follows from the other there. -/
theorem runUnder_mergesSafely_iff (trades : AccountTrades E T)
    (managers : E → RiskyModeManager ℚ) (es : List (LossAction E T)) (s : LossWorld E T) :
    ((lossMachine trades managers).RunUnder (MergesSafely trades) es s ↔
        (lossMachine trades managers).RunUnder (StaysCounted trades) es s) ∧
      ((lossMachine trades managers).RunUnder (MergesSafely trades) es s →
        s.WellFormed ∧ s.CountedOnce trades) := by
  have hstart : (lossMachine trades managers).start.WellFormed ∧
      (lossMachine trades managers).start.CountedOnce trades :=
    ⟨wellFormed_start managers, countedOnce_start trades managers⟩
  have hsafe (h : (lossMachine trades managers).RunUnder (MergesSafely trades) es s) :
      (lossMachine trades managers).RunUnder (StaysCounted trades) es s ∧
        s.WellFormed ∧ s.CountedOnce trades := by
    refine h.imp (I := fun s => s.WellFormed ∧ s.CountedOnce trades) hstart ?_
    intro s a event s' hinv hmerges hnext
    obtain ⟨hwell, hcount⟩ := hinv
    have hcount' := (next_countedOnce_iff hwell hcount hnext).mpr hmerges
    refine ⟨⟨hwell.next hnext, hcount'⟩, ?_⟩
    intro event' other hother
    exact (next_countedOnce_iff hwell hcount hother).mpr hmerges
  refine ⟨⟨fun h => (hsafe h).1, fun h => ?_⟩, fun h => (hsafe h).2⟩
  refine (h.imp (I := fun s => s.WellFormed ∧ s.CountedOnce trades) hstart ?_).1
  intro s a event s' hinv hstays hnext
  obtain ⟨hwell, hcount⟩ := hinv
  have hcount' := hstays event s' hnext
  exact ⟨⟨hwell.next hnext, hcount'⟩, (next_countedOnce_iff hwell hcount hnext).mp hcount'⟩

end LossWorld

/-- A run counts every loss once in all its states if and only if all its merges are safe, and
then every manager's ledger is between the losses it knows of and those that happened. -/
theorem loss_ledger_counts_once_iff (trades : AccountTrades E T)
    (managers : E → RiskyModeManager ℚ) (es : List (LossAction E T)) (s : LossWorld E T) :
    ((lossMachine trades managers).RunUnder (LossWorld.MergesSafely trades) es s ↔
        (lossMachine trades managers).RunUnder (LossWorld.StaysCounted trades) es s) ∧
      ((lossMachine trades managers).RunUnder (LossWorld.MergesSafely trades) es s →
        s.Bounded trades ∧ s.CountedOnce trades) := by
  obtain ⟨hiff, hcounted⟩ := LossWorld.runUnder_mergesSafely_iff trades managers es s
  refine ⟨hiff, fun h => ?_⟩
  obtain ⟨hwell, hcount⟩ := hcounted h
  exact ⟨hcount.bounded hwell, hcount⟩

end World

/-- A trade of one engine that lost ten, and a trade of another that lost eight. -/
def sampleLossTrades : AccountTrades Bool Bool := ⟨id, fun t => if t then -10 else -8⟩

def sampleRiskyConfig : RiskyModeConfig ℚ :=
  ⟨[⟨0, 20, 40, 4 / 5, 19 / 20⟩], 99 / 100, 11 / 20, by decide⟩

def sampleRiskyManager : RiskyModeManager ℚ :=
  ⟨sampleRiskyConfig, ⟨0, by decide⟩, ⟨0, by decide⟩, 20, 0, 0, 0, 0⟩

instance (trades : AccountTrades Bool Bool) (s : LossWorld Bool Bool) (a : LossAction Bool Bool) :
    Decidable (s.MergesSafely trades a) :=
  match a with
  | .books t => inferInstanceAs (Decidable (trades.pnl t < 0 → t ∉ s.seen (trades.owner t)))
  | .raises e _ _ => inferInstanceAs (Decidable
      ((∀ t ∈ s.booked e, trades.pnl t < 0 → t ∈ s.journal) ∨
        ∀ t ∈ s.journal, trades.pnl t < 0 → t ∈ s.booked e ∪ s.seen e))
  | .happens _ | .journals _ | .syncs _ _ => inferInstanceAs (Decidable True)

/-- The first engine reads the journal before its trade is in it, and again when both are. -/
theorem sampleLosses_counted : ∃ s : LossWorld Bool Bool,
    s.daily true = 18 ∧ s.daily false = 18 ∧ s.Bounded sampleLossTrades ∧
      s.CountedOnce sampleLossTrades := by
  let machine := (lossMachine sampleLossTrades fun _ => sampleRiskyManager).restrict
    (LossWorld.MergesSafely sampleLossTrades)
  let reached (_ : List (LossAction Bool Bool)) (s : LossWorld Bool Bool) : Bool :=
    decide (s.daily true = 18 ∧ s.daily false = 18)
  have hexec : (machine.exec [] machine.start
      [.happens true, .books true, .raises true 0 0, .journals true, .happens false, .books false,
        .journals false, .raises true 0 0, .raises false 0 0]).any
      (fun r => reached r.1 r.2) = true := by
    decide +kernel
  obtain ⟨es, s, hrun, hreached⟩ := Machine.run_of_exec_start _ reached hexec
  obtain ⟨htrue, hfalse⟩ := of_decide_eq_true hreached
  have hunder : (lossMachine sampleLossTrades fun _ => sampleRiskyManager).RunUnder
      (LossWorld.MergesSafely sampleLossTrades) es s := Machine.runUnder_of_restrict hrun
  exact ⟨s, htrue, hfalse, (loss_ledger_counts_once_iff _ _ es s).2 hunder⟩

/-- The first engine has booked its trade and reads a journal that has only the other one. -/
theorem overlapping_losses_forgotten : ¬∀ (trades : AccountTrades Bool Bool)
    (managers : Bool → RiskyModeManager ℚ) (es : List (LossAction Bool Bool))
    (s : LossWorld Bool Bool), (lossMachine trades managers).Run es s → s.Bounded trades := by
  intro hall
  obtain ⟨es, s, hrun, hlow⟩ := Machine.run_of_exec_start
    (M := lossMachine sampleLossTrades fun _ => sampleRiskyManager)
    [.happens true, .books true, .happens false, .journals false, .raises true 0 0]
    (fun _ s => s.daily true < sampleLossTrades.total (s.booked true ∪ s.seen true))
    (by decide +kernel)
  have hbound := (hall _ _ es s hrun true).1
  exact absurd hbound (not_le.mpr (of_decide_eq_true hlow))

/-- The journal has the trade of an engine before the engine books it: it is counted twice. -/
example : ((lossMachine sampleLossTrades fun _ => sampleRiskyManager).exec []
    (LossWorld.start fun _ => sampleRiskyManager)
    [.happens true, .journals true, .raises true 0 0, .books true]).map
      (fun r => (r.2.daily true, sampleLossTrades.total r.2.happened)) = some (20, 10) := by
  decide +kernel

end Neoethos
