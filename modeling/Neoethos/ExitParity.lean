import Neoethos.EvaluatorRules
import Neoethos.FloatOps
import Neoethos.PositionManager
import Mathlib.Tactic.Linarith

namespace Neoethos

open FloatOps (lit lt le isFinite isPositive)

/-- How a position ends over a run of bars: closed on a bar, or open behind a stop. -/
inductive Followed
  | closed (bar : Nat) (reason : CloseReason) (price : ℚ)
  | stillOpen (stop : Option ℚ)
  deriving DecidableEq

def ExitKind.reason : ExitKind → CloseReason
  | .stop => .stopLoss
  | .target => .takeProfit
  | .timeStop => .maxHold

/-- The entry that both engines are given. The distances are in price. -/
structure BracketedEntry where
  dir : Direction
  entryPx : ℚ
  slPips : ℚ
  tpPips : ℚ
  pip : ℚ
  directed : dir ≠ .flat
  entry_pos : 0 < entryPx
  stop_pos : 0 < slPips * pip
  target_pos : 0 < tpPips * pip

namespace BracketedEntry

variable (entry : BracketedEntry)

def side : Int :=
  match entry.dir with
  | .long => 1
  | .short => -1
  | .flat => 0

def stopLevel : ℚ :=
  match entry.dir with
  | .long => entry.entryPx - entry.slPips * entry.pip
  | _ => entry.entryPx + entry.slPips * entry.pip

def targetLevel : ℚ :=
  match entry.dir with
  | .long => entry.entryPx + entry.tpPips * entry.pip
  | _ => entry.entryPx - entry.tpPips * entry.pip

/-- The stop that `protective_exit_price` checks a bar against. -/
def evaluatorStop (settings : BacktestSettings ℚ) (trailPx : ℚ) : ℚ :=
  match entry.dir with
  | .long => if settings.trailingEnabled = true ∧ 0 < trailPx ∧ entry.stopLevel < trailPx then
      trailPx else entry.stopLevel
  | _ => if settings.trailingEnabled = true ∧ 0 < trailPx ∧ trailPx < entry.stopLevel then
      trailPx else entry.stopLevel

def stopHit (bar : LiveBar ℚ) (level : ℚ) : Bool :=
  match entry.dir with
  | .long => decide (bar.l ≤ level)
  | _ => decide (level ≤ bar.h)

def targetHit (bar : LiveBar ℚ) (level : ℚ) : Bool :=
  match entry.dir with
  | .long => decide (level ≤ bar.h)
  | _ => decide (bar.l ≤ level)

def favourable (bar : LiveBar ℚ) : ℚ :=
  match entry.dir with
  | .long => bar.h - entry.entryPx
  | _ => entry.entryPx - bar.l

def candidate (settings : BacktestSettings ℚ) (bar : LiveBar ℚ) : ℚ :=
  match entry.dir with
  | .long => max (bar.h - settings.trailingAtrMultiplier * (entry.slPips * entry.pip))
      (entry.entryPx + settings.trailingMinLockPips * entry.pip)
  | _ => min (bar.l + settings.trailingAtrMultiplier * (entry.slPips * entry.pip))
      (entry.entryPx - settings.trailingMinLockPips * entry.pip)

def better (level trailPx : ℚ) : Bool :=
  match entry.dir with
  | .long => decide (trailPx < level)
  | _ => decide (level < trailPx)

def evaluatorTrail (settings : BacktestSettings ℚ) (trailPx : ℚ) (bar : LiveBar ℚ) : ℚ :=
  if settings.trailingEnabled = true ∧
      settings.trailingBeTriggerR * (entry.slPips * entry.pip) ≤ entry.favourable bar ∧
      (trailPx = 0 ∨ entry.better (entry.candidate settings bar) trailPx = true) then
    entry.candidate settings bar
  else trailPx

/-- `protective_exit_price` for either side. -/
theorem protectiveExit_eq (settings : BacktestSettings ℚ) (trailPx : ℚ) (bar : LiveBar ℚ)
    (barsHeld : Nat) :
    protectiveExit entry.side entry.entryPx entry.slPips entry.tpPips trailPx bar.h bar.l bar.c
        barsHeld entry.pip settings =
      if entry.stopHit bar (entry.evaluatorStop settings trailPx) then
        (some (.stop, entry.evaluatorStop settings trailPx), trailPx)
      else if entry.targetHit bar entry.targetLevel then
        (some (.target, entry.targetLevel), trailPx)
      else (maxHoldExit settings barsHeld bar.c, entry.evaluatorTrail settings trailPx bar) := by
  have hdirected := entry.directed
  unfold protectiveExit stopHit targetHit evaluatorTrail favourable candidate better evaluatorStop
    stopLevel targetLevel side
  cases hdir : entry.dir with
  | long => simp [mul_assoc, and_assoc]
  | short => simp [mul_assoc, and_assoc]
  | flat => exact absurd hdir hdirected

/-- The evaluator bar by bar, the `n`-th bar after the entry first. -/
def followEvaluator (settings : BacktestSettings ℚ) : ℚ → Nat → List (LiveBar ℚ) → Followed
  | trailPx, _, [] => .stillOpen (some (entry.evaluatorStop settings trailPx))
  | trailPx, n, bar :: bars =>
    match protectiveExit entry.side entry.entryPx entry.slPips entry.tpPips trailPx bar.h bar.l
        bar.c n entry.pip settings with
    | (some (kind, price), _) => .closed n kind.reason price
    | (none, trailPx) => followEvaluator settings trailPx (n + 1) bars

end BracketedEntry

/-- The settings of the evaluator and the policies of the replay say the same. -/
structure SameRules (entry : BracketedEntry) (settings : BacktestSettings ℚ)
    (maxHold : Option Nat) (trailing : Option (TrailingPolicy ℚ)) : Prop where
  hold : maxHold = if settings.maxHoldBars = 0 then none else some settings.maxHoldBars
  off : trailing = none → settings.trailingEnabled = false
  on : ∀ policy, trailing = some policy →
    settings.trailingEnabled = true ∧
    TrailingPolicy.new policy.beTriggerR policy.stopMultiplier policy.minLockPips policy.pipSize =
      some policy ∧
    policy.beTriggerR = settings.trailingBeTriggerR ∧
    policy.stopMultiplier = settings.trailingAtrMultiplier ∧
    policy.minLockPips * policy.pipSize = settings.trailingMinLockPips * entry.pip ∧
    settings.trailingMinLockPips * entry.pip < entry.entryPx

/-- The position of the replay is the entry of the evaluator, behind the same trail. -/
structure SamePosition (entry : BracketedEntry) (settings : BacktestSettings ℚ) (trailPx : ℚ)
    (p : Position ℚ) : Prop where
  dir : p.dir = entry.dir
  entryPrice : p.entryPrice = entry.entryPx
  sl : p.sl = some entry.stopLevel
  tp : p.tp = some entry.targetLevel
  trail : (p.trailPx = none ∧ trailPx = 0) ∨
    (p.trailPx = some trailPx ∧ 0 < trailPx ∧ settings.trailingEnabled = true)

theorem TrailingPolicy.pos_of_new {policy : TrailingPolicy ℚ}
    (h : TrailingPolicy.new policy.beTriggerR policy.stopMultiplier policy.minLockPips
      policy.pipSize = some policy) :
    0 < policy.beTriggerR ∧ 0 < policy.stopMultiplier ∧ 0 < policy.pipSize ∧
      0 ≤ policy.minLockPips := by
  unfold TrailingPolicy.new at h
  split at h
  next => cases h
  next hvalid =>
    simp only [isPositive, isFinite_rat, lt_rat, lit_rat, Bool.true_and, decide_eq_false_iff_not,
      decide_eq_true_eq, not_or, not_lt, Bool.true_eq_false, not_false_eq_true, true_and] at hvalid
    obtain ⟨htrigger, hmultiplier, hpip, hlock⟩ := hvalid
    exact ⟨not_le.mp htrigger, not_le.mp hmultiplier, not_le.mp hpip, hlock⟩

namespace SamePosition

variable {entry : BracketedEntry} {settings : BacktestSettings ℚ} {trailPx : ℚ} {p : Position ℚ}
  {maxHold : Option Nat}

theorem effectiveSl_eq (h : SamePosition entry settings trailPx p) :
    p.effectiveSl = some (entry.evaluatorStop settings trailPx) := by
  unfold Position.effectiveSl BracketedEntry.evaluatorStop
  rw [h.sl, h.dir]
  rcases h.trail with ⟨htrail, rfl⟩ | ⟨htrail, hpos, hon⟩
  · rw [htrail]
    cases entry.dir <;> simp
  · rw [htrail]
    cases hdir : entry.dir with
    | long =>
      by_cases hlt : entry.stopLevel < trailPx
      · simp [hon, hpos, hlt, hlt.le]
      · simp [hlt, not_lt.mp hlt]
    | short =>
      by_cases hlt : trailPx < entry.stopLevel
      · simp [hon, hpos, hlt, hlt.le]
      · simp [hlt, not_lt.mp hlt]
    | flat => exact absurd hdir entry.directed

theorem timeStop_eq (bar : LiveBar ℚ) (currentBar : Nat) :
    p.timeStop (if settings.maxHoldBars = 0 then none else some settings.maxHoldBars) currentBar
        bar =
      (maxHoldExit settings (currentBar - p.openedAtBar) bar.c).map fun (kind, price) =>
        (kind.reason, price) := by
  unfold Position.timeStop maxHoldExit
  by_cases hzero : settings.maxHoldBars = 0
  · simp [hzero]
  · have hpos : 0 < settings.maxHoldBars := Nat.pos_of_ne_zero hzero
    by_cases hlimit : settings.maxHoldBars ≤ currentBar - p.openedAtBar
    · simp [hzero, hpos, hlimit, ExitKind.reason]
    · simp [hzero, hlimit]

theorem exitHit_eq (h : SamePosition entry settings trailPx p) (bar : LiveBar ℚ) :
    p.exitHit bar =
      if entry.stopHit bar (entry.evaluatorStop settings trailPx) then
        some (.stopLoss, entry.evaluatorStop settings trailPx)
      else if entry.targetHit bar entry.targetLevel then some (.takeProfit, entry.targetLevel)
      else none := by
  unfold Position.exitHit BracketedEntry.stopHit BracketedEntry.targetHit
  rw [h.effectiveSl_eq, h.tp, h.dir]
  cases hdir : entry.dir with
  | long =>
    by_cases hstop : bar.l ≤ entry.evaluatorStop settings trailPx
    · simp [Option.filter, hstop]
    · by_cases htarget : entry.targetLevel ≤ bar.h <;> simp [Option.filter, hstop, htarget]
  | short =>
    by_cases hstop : entry.evaluatorStop settings trailPx ≤ bar.h
    · simp [Option.filter, hstop]
    · by_cases htarget : bar.l ≤ entry.targetLevel <;> simp [Option.filter, hstop, htarget]
  | flat => exact absurd hdir entry.directed

/-- The distance that the replay reads off the stop is that of the entry. -/
theorem stopDist_eq : |entry.entryPx - entry.stopLevel| = entry.slPips * entry.pip := by
  unfold BracketedEntry.stopLevel
  have hpos := entry.stop_pos
  cases entry.dir with
  | long => rw [sub_sub_cancel, abs_of_pos hpos]
  | short => rw [sub_add_cancel_left, abs_neg, abs_of_pos hpos]
  | flat => rw [sub_add_cancel_left, abs_neg, abs_of_pos hpos]

/-- A trail is a price above zero, so that zero can stand for no trail. -/
theorem candidate_pos {policy : TrailingPolicy ℚ}
    (hrules : SameRules entry settings maxHold (some policy)) {bar : LiveBar ℚ} (hlow : 0 < bar.l) :
    0 < entry.candidate settings bar := by
  obtain ⟨-, hvalid, -, hmultiplier, hlock, hroom⟩ := hrules.on policy rfl
  obtain ⟨-, hmult, hpip, hlockPips⟩ := TrailingPolicy.pos_of_new hvalid
  have hentry := entry.entry_pos
  have hstop := entry.stop_pos
  have hnonneg : 0 ≤ settings.trailingMinLockPips * entry.pip := by
    rw [← hlock]
    exact mul_nonneg hlockPips hpip.le
  have hwidth : 0 < settings.trailingAtrMultiplier * (entry.slPips * entry.pip) := by
    rw [← hmultiplier]
    exact mul_pos hmult hstop
  unfold BracketedEntry.candidate
  cases entry.dir with
  | long => exact lt_max_of_lt_right (by linarith)
  | short => exact lt_min (by linarith) (by linarith)
  | flat => exact lt_min (by linarith) (by linarith)

theorem policyCandidate_eq {policy : TrailingPolicy ℚ}
    (hrules : SameRules entry settings maxHold (some policy)) (bar : LiveBar ℚ) :
    policy.candidate entry.entryPx (entry.slPips * entry.pip) entry.dir bar.h bar.l =
      if settings.trailingBeTriggerR * (entry.slPips * entry.pip) ≤ entry.favourable bar then
        some (entry.candidate settings bar)
      else none := by
  obtain ⟨-, -, htrigger, hmultiplier, hlock, -⟩ := hrules.on policy rfl
  unfold TrailingPolicy.candidate BracketedEntry.favourable BracketedEntry.candidate
  rw [htrigger, hmultiplier, hlock]
  cases hdir : entry.dir with
  | long =>
    simp only [lt_rat, decide_eq_true_eq, max_rat, ← not_le, ite_not]
  | short =>
    simp only [lt_rat, decide_eq_true_eq, min_rat, ← not_le, ite_not]
  | flat => exact absurd hdir entry.directed

theorem nextStopPrice_eq (h : SamePosition entry settings trailPx p) {policy : TrailingPolicy ℚ}
    (hrules : SameRules entry settings maxHold (some policy)) (bar : LiveBar ℚ) :
    policy.nextStopPrice p.entryPrice entry.stopLevel p.dir bar.h bar.l p.trailPx =
      if settings.trailingBeTriggerR * (entry.slPips * entry.pip) ≤ entry.favourable bar ∧
          (trailPx = 0 ∨ entry.better (entry.candidate settings bar) trailPx = true) then
        some (entry.candidate settings bar)
      else none := by
  have hstop := entry.stop_pos
  unfold TrailingPolicy.nextStopPrice
  rw [h.entryPrice, h.dir, abs_rat, stopDist_eq]
  dsimp only
  rw [policyCandidate_eq hrules, if_neg (by simp [hstop])]
  by_cases harmed :
      settings.trailingBeTriggerR * (entry.slPips * entry.pip) ≤ entry.favourable bar
  · rcases h.trail with ⟨htrail, hzero⟩ | ⟨htrail, hpos, -⟩
    · simp [harmed, htrail, hzero]
    · unfold BracketedEntry.better
      cases hdir : entry.dir with
      | long => simp [harmed, htrail, hpos.ne']
      | short => simp [harmed, htrail, hpos.ne']
      | flat => exact absurd hdir entry.directed
  · simp [harmed]

/-- A bar that closes nothing leaves both trails where they were or moves both alike. -/
theorem ratchet (h : SamePosition entry settings trailPx p) {policy : TrailingPolicy ℚ}
    (hrules : SameRules entry settings maxHold (some policy)) {bar : LiveBar ℚ} (hlow : 0 < bar.l) :
    SamePosition entry settings (entry.evaluatorTrail settings trailPx bar)
      (p.ratchetTrail bar policy) := by
  have hon := (hrules.on policy rfl).1
  unfold Position.ratchetTrail BracketedEntry.evaluatorTrail
  rw [h.sl]
  dsimp only
  rw [h.nextStopPrice_eq hrules]
  by_cases hmoved :
      settings.trailingBeTriggerR * (entry.slPips * entry.pip) ≤ entry.favourable bar ∧
        (trailPx = 0 ∨ entry.better (entry.candidate settings bar) trailPx = true)
  · rw [if_pos hmoved, if_pos ⟨hon, hmoved⟩]
    exact ⟨h.dir, h.entryPrice, rfl, h.tp, Or.inr ⟨rfl, candidate_pos hrules hlow, hon⟩⟩
  · rw [if_neg hmoved, if_neg (fun hboth => hmoved hboth.2)]
    exact h

/-- One bar: the replay closes the position as the evaluator does, or keeps it as the
evaluator does. -/
theorem manageOne_eq (h : SamePosition entry settings trailPx p) {mgr : PositionManager ℚ}
    (hrules : SameRules entry settings mgr.maxHoldBars mgr.trailing) {bar : LiveBar ℚ}
    (hlow : 0 < bar.l) {n : Nat} (hheld : mgr.currentBar - p.openedAtBar = n)
    {exit : Option (ExitKind × ℚ)} {trail : ℚ}
    (hexit : protectiveExit entry.side entry.entryPx entry.slPips entry.tpPips trailPx bar.h bar.l
      bar.c n entry.pip settings = (exit, trail)) :
    (mgr.manageOne bar p).2 = exit.map (fun (kind, price) => (kind.reason, price)) ∧
      (exit = none → SamePosition entry settings trail (mgr.manageOne bar p).1) := by
  rw [entry.protectiveExit_eq] at hexit
  unfold PositionManager.manageOne
  rw [h.exitHit_eq, hrules.hold, timeStop_eq, hheld]
  split at hexit
  next hstop =>
    obtain ⟨rfl, rfl⟩ := Prod.mk.inj hexit
    simp [hstop, ExitKind.reason]
  next hstop =>
    split at hexit
    next htarget =>
      obtain ⟨rfl, rfl⟩ := Prod.mk.inj hexit
      simp [hstop, htarget, ExitKind.reason]
    next htarget =>
      obtain ⟨rfl, rfl⟩ := Prod.mk.inj hexit
      cases hhold : maxHoldExit settings n bar.c with
      | some exit => simp [hstop, htarget]
      | none =>
        simp only [hstop, htarget, Bool.false_eq_true, if_false, Option.map_none, Option.or_none]
        refine ⟨trivial, fun _ => ?_⟩
        cases htrailing : mgr.trailing with
        | none =>
          have hoff := hrules.off htrailing
          rw [BracketedEntry.evaluatorTrail, if_neg (by simp [hoff])]
          exact h
        | some policy =>
          rw [htrailing] at hrules
          exact h.ratchet hrules hlow

end SamePosition

end Neoethos
