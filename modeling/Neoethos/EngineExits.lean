import Neoethos.EngineBooks

namespace Neoethos

open FloatOps (lit lt le)

/-- The stop of a later state of a position is no looser than that of an earlier one. -/
def Position.NoLooser (q p : Position ℚ) : Prop :=
  ∀ stop, q.effectiveSl = some stop → ∃ stop', p.effectiveSl = some stop' ∧
    (q.dir = .long → stop ≤ stop') ∧ (q.dir = .short → stop' ≤ stop)

/-- Nothing of a position has changed but its trail, which may have tightened the stop. -/
structure Position.Tightened (q p : Position ℚ) : Prop where
  same : ∃ trailPx, p = { q with trailPx := trailPx }
  stop : q.NoLooser p

namespace Position

theorem Tightened.refl (q : Position ℚ) : q.Tightened q :=
  ⟨⟨q.trailPx, rfl⟩, fun stop hstop => ⟨stop, hstop, fun _ => le_refl _, fun _ => le_refl _⟩⟩

theorem Tightened.trans {p q r : Position ℚ} (h : p.Tightened q) (h' : q.Tightened r) :
    p.Tightened r := by
  obtain ⟨⟨t, rfl⟩, hstop⟩ := h
  obtain ⟨⟨t', rfl⟩, hstop'⟩ := h'
  refine ⟨⟨t', rfl⟩, fun stop heq => ?_⟩
  obtain ⟨stop₁, heq₁, hlong₁, hshort₁⟩ := hstop stop heq
  obtain ⟨stop₂, heq₂, hlong₂, hshort₂⟩ := hstop' stop₁ heq₁
  exact ⟨stop₂, heq₂, fun hdir => (hlong₁ hdir).trans (hlong₂ hdir),
    fun hdir => (hshort₂ hdir).trans (hshort₁ hdir)⟩

/-- The next level of a trail is past the one it had. -/
theorem nextStopPrice_better {policy : TrailingPolicy ℚ} {entry stop high low level : ℚ}
    {dir : Direction} {current : Option ℚ}
    (h : policy.nextStopPrice entry stop dir high low current = some level) :
    ∀ previous, current = some previous →
      (dir = .long → previous < level) ∧ (dir = .short → level < previous) := by
  rintro previous rfl
  unfold TrailingPolicy.nextStopPrice at h
  simp only at h
  split at h
  next => cases h
  next =>
    split at h
    next => cases h
    next candidate _ =>
      split at h
      next => cases h
      next =>
        obtain ⟨hbetter, hlevel⟩ := Option.ite_none_right_eq_some.mp h
        obtain rfl := Option.some.inj hlevel
        constructor
        · rintro rfl
          simpa using hbetter
        · rintro rfl
          simpa using hbetter

theorem effectiveSl_some (q : Position ℚ) {sl : ℚ} (h : q.sl = some sl) :
    q.effectiveSl = some (match q.trailPx, q.dir with
      | some trail, .long => max sl trail
      | some trail, .short => min sl trail
      | _, _ => sl) := by
  unfold effectiveSl
  rw [h]
  cases q.trailPx with
  | none => rfl
  | some trail =>
    cases q.dir with
    | long => simp
    | short => simp
    | flat => simp

theorem ratchetTrail_tightened (q : Position ℚ) (bar : LiveBar ℚ) (policy : TrailingPolicy ℚ) :
    q.Tightened (q.ratchetTrail bar policy) := by
  unfold ratchetTrail
  split
  next => exact .refl q
  next sl hsl =>
    split
    next => exact .refl q
    next level hlevel =>
      refine ⟨⟨some level, rfl⟩, fun stop hstop => ?_⟩
      have hbetter := nextStopPrice_better hlevel
      rw [effectiveSl_some q hsl, Option.some.injEq] at hstop
      refine ⟨_, effectiveSl_some { q with trailPx := some level } hsl, ?_, ?_⟩
      · intro hdir
        rw [← hstop]
        simp only [hdir]
        cases htrail : q.trailPx with
        | none => exact le_max_left sl level
        | some trail => exact max_le_max_left sl ((hbetter trail htrail).1 hdir).le
      · intro hdir
        rw [← hstop]
        simp only [hdir]
        cases htrail : q.trailPx with
        | none => exact min_le_left sl level
        | some trail => exact min_le_min_left sl ((hbetter trail htrail).2 hdir).le

/-- A bar closes nothing when it stays on the right side of the stop and of the target. -/
theorem exitHit_eq_none_iff (p : Position ℚ) (bar : LiveBar ℚ) :
    p.exitHit bar = none ↔
      (∀ stop, p.effectiveSl = some stop →
        (p.dir = .long → stop < bar.l) ∧ (p.dir = .short → bar.h < stop)) ∧
      ∀ target, p.tp = some target →
        (p.dir = .long → bar.h < target) ∧ (p.dir = .short → target < bar.l) := by
  unfold exitHit
  cases hdir : p.dir with
  | flat => simp
  | long => cases p.effectiveSl <;> cases p.tp <;> simp [Option.filter_some, ite_eq_right_iff]
  | short => cases p.effectiveSl <;> cases p.tp <;> simp [Option.filter_some, ite_eq_right_iff]

/-- A bar that leaves the tighter stop alone leaves the looser one alone. -/
theorem exitHit_none_of_tightened {q p : Position ℚ} (h : q.Tightened p) {bar : LiveBar ℚ}
    (hp : p.exitHit bar = none) : q.exitHit bar = none := by
  obtain ⟨⟨trailPx, rfl⟩, htight⟩ := h
  obtain ⟨hstop, htarget⟩ := (exitHit_eq_none_iff _ bar).mp hp
  refine (exitHit_eq_none_iff q bar).mpr ⟨fun stop heq => ?_, htarget⟩
  obtain ⟨stop', heq', hlong, hshort⟩ := htight stop heq
  obtain ⟨hbelow, habove⟩ := hstop stop' heq'
  exact ⟨fun hdir => (hlong hdir).trans_lt (hbelow hdir),
    fun hdir => (habove hdir).trans_le (hshort hdir)⟩

end Position

theorem mem_eraseP_id {positions : List (Position ℚ)} {id : String} {p : Position ℚ}
    (hunique : (positions.map (·.id)).Nodup) (h : p ∈ positions.eraseP (·.id = id)) :
    p ∈ positions ∧ p.id ≠ id := by
  induction positions with
  | nil => cases h
  | cons q rest ih =>
    obtain ⟨hq, hrest⟩ := List.nodup_cons.mp hunique
    by_cases hid : q.id = id
    · rw [List.eraseP_cons_of_pos (by simpa using hid)] at h
      refine ⟨List.mem_cons_of_mem q h, ?_⟩
      rintro hsame
      exact hq (List.mem_map.mpr ⟨p, h, hsame.trans hid.symm⟩)
    · rw [List.eraseP_cons_of_neg (by simpa using hid)] at h
      rcases List.mem_cons.mp h with rfl | hlater
      · exact ⟨List.mem_cons_self, hid⟩
      · obtain ⟨hmem, hother⟩ := ih hrest hlater
        exact ⟨List.mem_cons_of_mem q hmem, hother⟩

namespace AutonomousEngine

variable {S R : Type*}

/-- The ids of the open positions are old ones of the adapter and different. -/
structure Issued (engine : AutonomousEngine S R (MockExecutionAdapter ℚ) ℚ) : Prop where
  fresh : ∀ p ∈ engine.positions.openPositions,
    ∃ n ≤ engine.exec.nextId, p.id = mockPositionId n
  unique : (engine.positions.openPositions.map (·.id)).Nodup

section Steps

variable {engine : AutonomousEngine S R (MockExecutionAdapter ℚ) ℚ}

theorem executeIntent_mock (intent : TradeIntent ℚ) (mark : ℚ) :
    engine.executeIntent intent mark = { engine with
      intents := engine.intents + 1
      exec := (engine.exec.execute intent mark).1
      executed :=
        if (engine.exec.execute intent mark).2.status = .filled then engine.executed + 1
        else engine.executed
      positions := engine.positions.apply intent (engine.exec.execute intent mark).2 } :=
  rfl

/-- A whole exit takes the position with the id, if there is one. -/
theorem executeIntent_erases (id : String) (reason : CloseReason) (mark : ℚ) :
    (engine.executeIntent (.close id none reason) mark).positions.openPositions =
      engine.positions.openPositions.eraseP (·.id = id) := by
  rw [executeIntent_mock]
  cases hfind : engine.positions.openPositions.find? (·.id = id) with
  | none =>
    simp only [PositionManager.apply_close_missing hfind]
    refine (List.eraseP_of_forall_not ?_).symm
    simpa using List.find?_eq_none.mp hfind
  | some p =>
    have hfilled : (engine.exec.execute (.close id none reason) mark).2.status = .filled := rfl
    simp only [Mirrors.apply_closeAll _ hfilled hfind]

/-- What the exits of a bar leave: the policies, the ids that were issued, and the positions that
none of them is about. -/
theorem executeAll_erases {exits : List (TradeIntent ℚ × ℚ)}
    (hcloses : ∀ exit ∈ exits, ∃ id reason, exit.1 = .close id none reason)
    (h : Issued engine) :
    Issued (engine.executeAll exits) ∧
      (engine.executeAll exits).exec.nextId = engine.exec.nextId ∧
      ∀ p ∈ (engine.executeAll exits).positions.openPositions,
        p ∈ engine.positions.openPositions ∧
          ∀ reason price, (.close p.id none reason, price) ∉ exits := by
  induction exits generalizing engine with
  | nil => exact ⟨h, rfl, fun p hp => ⟨hp, fun _ _ => List.not_mem_nil⟩⟩
  | cons exit exits ih =>
    obtain ⟨intent, mark⟩ := exit
    obtain ⟨id, reason, rfl⟩ := hcloses _ List.mem_cons_self
    have herases := @executeIntent_erases _ _ engine id reason mark
    have hstep : Issued (engine.executeIntent (.close id none reason) mark) := by
      constructor
      case fresh =>
        intro p hp
        rw [herases] at hp
        exact h.fresh p (List.mem_of_mem_eraseP hp)
      case unique =>
        rw [herases]
        exact h.unique.sublist (List.eraseP_sublist.map _)
    obtain ⟨hissued, hnext, hkept⟩ := ih (fun x hx => hcloses x (List.mem_cons_of_mem _ hx)) hstep
    refine ⟨hissued, hnext, fun p hp => ?_⟩
    obtain ⟨hmem, hspared⟩ := hkept p hp
    rw [herases] at hmem
    obtain ⟨hold, hother⟩ := mem_eraseP_id h.unique hmem
    refine ⟨hold, fun reason' price hexit => ?_⟩
    rcases List.mem_cons.mp hexit with hfirst | hlater
    · simp only [Prod.mk.injEq, TradeIntent.close.injEq] at hfirst
      exact hother hfirst.1.1
    · exact hspared reason' price hlater

/-- How a position comes through a bar: untouched, within its time, and with a stop that is no
looser. A bar of another symbol leaves it alone. -/
structure Survives (maxHold : Option Nat) (currentBar : Nat) (bar : LiveBar ℚ)
    (q p : Position ℚ) : Prop where
  tightened : q.Tightened p
  untouched : q.symbol = bar.symbol → q.exitHit bar = none
  inTime : q.symbol = bar.symbol → ∀ limit, maxHold = some limit →
    currentBar - q.openedAtBar < limit

theorem manageOne_survives {mgr : PositionManager ℚ} {bar : LiveBar ℚ} {q : Position ℚ}
    (h : (mgr.manageOne bar q).2 = none) :
    q.Tightened (mgr.manageOne bar q).1 ∧ q.exitHit bar = none ∧
      ∀ limit, mgr.maxHoldBars = some limit → mgr.currentBar - q.openedAtBar < limit := by
  unfold PositionManager.manageOne at h ⊢
  cases hexit : (q.exitHit bar).or (q.timeStop mgr.maxHoldBars mgr.currentBar bar) with
  | some exit =>
    rw [hexit] at h
    cases h
  | none =>
    obtain ⟨hhit, htime⟩ := Option.or_eq_none_iff.mp hexit
    refine ⟨?_, hhit, fun limit hlimit => ?_⟩
    · simp only
      cases mgr.trailing with
      | none => exact .refl q
      | some policy => exact q.ratchetTrail_tightened bar policy
    · unfold Position.timeStop at htime
      rw [hlimit] at htime
      by_contra hlate
      simp only [if_pos (not_lt.mp hlate)] at htime
      cases htime

theorem manage_survives (h : Issued engine) (bar : LiveBar ℚ) :
    Issued (engine.manage bar) ∧ (engine.manage bar).exec.nextId = engine.exec.nextId ∧
      ∀ p ∈ (engine.manage bar).positions.openPositions, ∃ q ∈ engine.positions.openPositions,
        Survives engine.positions.maxHoldBars engine.positions.currentBar bar q p := by
  let managed : AutonomousEngine S R (MockExecutionAdapter ℚ) ℚ :=
    { engine with positions := (engine.positions.manageOnBar bar).1 }
  have hids : managed.positions.openPositions.map (·.id) =
      engine.positions.openPositions.map (·.id) := by
    have htrades := congrArg (List.map OpenTrade.id)
      (engine.positions.manageOnBar_trades bar 0)
    rw [List.map_map, List.map_map] at htrades
    exact htrades
  have hmanaged : Issued managed := by
    constructor
    case fresh =>
      intro p hp
      have hid := List.mem_map_of_mem (f := (·.id)) hp
      rw [hids] at hid
      obtain ⟨q, hq, hsame⟩ := List.mem_map.mp hid
      rw [← hsame]
      exact h.fresh q hq
    case unique =>
      rw [hids]
      exact h.unique
  obtain ⟨hissued, hnext, hkept⟩ := executeAll_erases
    (fun exit hexit => PositionManager.manageOnBar_closes hexit) hmanaged
  refine ⟨⟨hissued.fresh, hissued.unique⟩, hnext, fun p hp => ?_⟩
  obtain ⟨hmem, hspared⟩ := hkept p hp
  obtain ⟨⟨p', exit⟩, hpair, rfl⟩ := List.mem_map.mp hmem
  obtain ⟨q, hq, hone⟩ := List.mem_map.mp hpair
  refine ⟨q, hq, ?_⟩
  by_cases hsymbol : q.symbol = bar.symbol
  · rw [if_pos hsymbol] at hone
    cases exit with
    | some exit =>
      refine absurd (List.mem_filterMap.mpr ⟨(p', some exit), hpair, ?_⟩)
        (hspared exit.1 exit.2)
      rfl
    | none =>
      obtain ⟨htight, hhit, htime⟩ := manageOne_survives (congrArg Prod.snd hone)
      rw [hone] at htight
      exact ⟨htight, fun _ => hhit, fun _ => htime⟩
  · rw [if_neg hsymbol] at hone
    obtain ⟨rfl, -⟩ := Prod.mk.inj hone
    exact ⟨.refl q, fun hsame => absurd hsame hsymbol, fun hsame => absurd hsame hsymbol⟩

end Steps

end AutonomousEngine

theorem PositionManager.apply_maxHoldBars (mgr : PositionManager ℚ) (intent : TradeIntent ℚ)
    (report : ExecReport ℚ) : (mgr.apply intent report).maxHoldBars = mgr.maxHoldBars := by
  by_cases hfilled : report.status = .filled
  case neg => exact congrArg maxHoldBars (show mgr.apply intent report = mgr from if_pos hfilled)
  have hnot : ¬report.status ≠ .filled := not_not.mpr hfilled
  cases intent with
  | «open» symbol dir volume sl tp source => simp only [apply, if_neg hnot]
  | close id lots reason =>
    cases hfind : mgr.openPositions.find? (·.id = id) with
    | none => rw [apply_close_missing hfind]
    | some p => simp only [apply, if_neg hnot, hfind]
  | amend id newSl newTp => simp only [apply, if_neg hnot]
  | cancel orderId => simp only [apply, if_neg hnot]

namespace AutonomousEngine

variable {S R : Type*}

theorem executeAll_policy (engine : AutonomousEngine S R (MockExecutionAdapter ℚ) ℚ)
    (exits : List (TradeIntent ℚ × ℚ)) :
    (engine.executeAll exits).bars = engine.bars ∧
      (engine.executeAll exits).positions.maxHoldBars = engine.positions.maxHoldBars := by
  induction exits generalizing engine with
  | nil => exact ⟨rfl, rfl⟩
  | cons exit exits ih =>
    obtain ⟨hbars, hpolicy⟩ := ih (engine.executeIntent exit.1 exit.2)
    exact ⟨hbars, hpolicy.trans (engine.positions.apply_maxHoldBars exit.1 _)⟩

/-- From one state to a later one on the same bar: what is open was open, or has a new id. -/
structure Extends (before after : AutonomousEngine S R (MockExecutionAdapter ℚ) ℚ) : Prop where
  issued : Issued after
  nextId : before.exec.nextId ≤ after.exec.nextId
  bars : after.bars = before.bars
  policy : after.positions.maxHoldBars = before.positions.maxHoldBars
  comesFrom : ∀ p ∈ after.positions.openPositions,
    (∃ n, before.exec.nextId < n ∧ p.id = mockPositionId n) ∨ p ∈ before.positions.openPositions

theorem executeIntent_extends {engine : AutonomousEngine S R (MockExecutionAdapter ℚ) ℚ}
    (h : Issued engine) {intent : TradeIntent ℚ} (mark : ℚ)
    (htrade : (∃ symbol dir volume sl tp source, intent = .open symbol dir volume sl tp source) ∨
      ∃ id reason, intent = .close id none reason) :
    Extends engine (engine.executeIntent intent mark) := by
  have hpolicy := engine.positions.apply_maxHoldBars intent (engine.exec.execute intent mark).2
  rcases htrade with ⟨symbol, dir, volume, sl, tp, source, rfl⟩ | ⟨id, reason, rfl⟩
  · have hnew (p : Position ℚ) (hp : p ∈ (engine.executeIntent
        (.open symbol dir volume sl tp source) mark).positions.openPositions) :
        p ∈ engine.positions.openPositions ∨ p.id = mockPositionId (engine.exec.nextId + 1) := by
      rcases List.mem_append.mp hp with hold | hlast
      · exact .inl hold
      · exact .inr (List.mem_singleton.mp hlast ▸ rfl)
    constructor
    case nextId => exact Nat.le_succ _
    case bars => rfl
    case policy => exact hpolicy
    case comesFrom =>
      intro p hp
      exact (hnew p hp).symm.imp_left fun hid => ⟨_, Nat.lt_succ_self _, hid⟩
    case issued =>
      constructor
      case fresh =>
        intro p hp
        rcases hnew p hp with hold | hid
        · obtain ⟨n, hn, hid⟩ := h.fresh p hold
          exact ⟨n, Nat.le_succ_of_le hn, hid⟩
        · exact ⟨_, le_refl _, hid⟩
      case unique =>
        rw [executeIntent_mock]
        change (List.map (fun p : Position ℚ => p.id) (_ ++ [_])).Nodup
        rw [List.map_append]
        refine h.unique.append (List.nodup_singleton _) (List.disjoint_singleton.mpr ?_)
        intro hmem
        obtain ⟨p, hp, hid⟩ := List.mem_map.mp hmem
        obtain ⟨n, hn, hissued⟩ := h.fresh p hp
        have hsame : n = engine.exec.nextId + 1 := mockPositionId_inj (hissued.symm.trans hid)
        omega
  · obtain ⟨hissued, hnext, hkept⟩ := executeAll_erases
      (List.forall_mem_singleton.mpr ⟨id, reason, rfl⟩ :
        ∀ exit ∈ [((.close id none reason : TradeIntent ℚ), mark)], _) h
    exact ⟨hissued, hnext.ge, rfl, hpolicy, fun p hp => .inr (hkept p hp).1⟩

/-- An id of an open position is no id that is given later. -/
theorem Issued.not_later {engine : AutonomousEngine S R (MockExecutionAdapter ℚ) ℚ}
    (h : Issued engine) {q : Position ℚ}
    (hq : q ∈ engine.positions.openPositions) {n : Nat} (hn : engine.exec.nextId < n) :
    q.id ≠ mockPositionId n := by
  intro hid
  obtain ⟨m, hm, hissued⟩ := h.fresh q hq
  have hsame : m = n := mockPositionId_inj (hissued.symm.trans hid)
  omega

theorem new_issued (registry : List PortfolioEntry) (signal : S) (risk : R)
    (decision : DecisionEngine ℚ) (cfg : EngineConfig ℚ) :
    Issued (new registry signal risk (MockExecutionAdapter.withCosts cfg.costs) decision cfg) :=
  ⟨fun _ hp => absurd hp List.not_mem_nil, List.nodup_nil⟩

variable [SignalEngine S ℚ] [RiskGate R ℚ]
  {engine : AutonomousEngine S R (MockExecutionAdapter ℚ) ℚ}

theorem actOnSignal_extends (h : Issued engine) (bar : LiveBar ℚ) :
    Extends engine (engine.actOnSignal bar) := by
  have hrefl (engine' : AutonomousEngine S R (MockExecutionAdapter ℚ) ℚ)
      (hpositions : engine'.positions = engine.positions) (hexec : engine'.exec = engine.exec)
      (hbars : engine'.bars = engine.bars) : Extends engine engine' := by
    constructor
    case issued => exact ⟨by rw [hpositions, hexec]; exact h.fresh, by rw [hpositions]; exact h.unique⟩
    case nextId => rw [hexec]
    case bars => exact hbars
    case policy => rw [hpositions]
    case comesFrom =>
      intro p hp
      rw [hpositions] at hp
      exact .inr hp
  cases hentry : entryFor engine.registry bar.symbol bar.tf with
  | none =>
    simp only [actOnSignal, hentry]
    exact hrefl engine rfl rfl rfl
  | some entry =>
    simp only [actOnSignal, hentry]
    generalize SignalEngine.evaluate engine.signal entry
      (engine.windows (bar.symbol, bar.tf)) = answer
    obtain ⟨signal, source⟩ := answer
    generalize hdecision : engine.decision.intent signal
      (engine.positions.positionsFor bar.symbol) bar.c = decision
    obtain ⟨decided, policy⟩ := decision
    cases decided with
    | none => exact hrefl _ rfl rfl rfl
    | some intent =>
      cases hcheck : RiskGate.check engine.risk intent engine.account with
      | error tier =>
        simp only [executeDecided, hcheck]
        exact hrefl _ rfl rfl rfl
      | ok passed =>
        simp only [executeDecided, hcheck]
        have htrade := DecisionEngine.intent_cases (congrArg Prod.fst hdecision)
        have hkind : (∃ symbol dir volume sl tp source,
            intent = .open symbol dir volume sl tp source) ∨
            ∃ id reason, intent = .close id none reason := by
          rcases htrade with ⟨sl, tp, hopen, -⟩ | ⟨p, -, -, hclose⟩
          · exact .inl ⟨_, _, _, _, _, _, hopen⟩
          · exact .inr ⟨_, _, hclose⟩
        have hdecided : Issued { engine with
            signals := engine.signals + 1, signal := source, decision := policy } :=
          ⟨h.fresh, h.unique⟩
        obtain ⟨hissued, hnext, hbars, hpolicy, hfrom⟩ :=
          executeIntent_extends hdecided bar.c hkind
        exact ⟨⟨hissued.fresh, hissued.unique⟩, hnext, hbars, hpolicy, hfrom⟩

/-- One bar: an open position came through it, or was opened on it under a new id. -/
structure Follows (maxHold : Option Nat) (bar : LiveBar ℚ)
    (before after : AutonomousEngine S R (MockExecutionAdapter ℚ) ℚ) : Prop where
  issued : Issued after
  nextId : before.exec.nextId ≤ after.exec.nextId
  bars : after.bars = before.bars + 1
  policy : after.positions.maxHoldBars = maxHold
  comesFrom : ∀ p ∈ after.positions.openPositions,
    (∃ n, before.exec.nextId < n ∧ p.id = mockPositionId n) ∨
      ∃ q ∈ before.positions.openPositions, Survives maxHold after.bars bar q p

theorem onBar_follows (h : Issued engine) (bar : LiveBar ℚ) :
    Follows engine.positions.maxHoldBars bar engine (engine.onBar bar) := by
  have hobserved : Issued (engine.observe bar) := ⟨h.fresh, h.unique⟩
  obtain ⟨hmanaged, hnext, hkept⟩ := manage_survives hobserved bar
  obtain ⟨hbars, hpolicy⟩ := executeAll_policy
    { engine.observe bar with
      positions := ((engine.observe bar).positions.manageOnBar bar).1 }
    ((engine.observe bar).positions.manageOnBar bar).2
  obtain ⟨hissued, hnext', hbars', hpolicy', hfrom⟩ := actOnSignal_extends hmanaged bar
  have hcount : (engine.onBar bar).bars = engine.bars + 1 := hbars'.trans hbars
  constructor
  case issued => exact hissued
  case nextId => exact hnext ▸ hnext'
  case bars => exact hcount
  case policy => exact hpolicy'.trans hpolicy
  case comesFrom =>
    intro p hp
    rcases hfrom p hp with ⟨n, hn, hid⟩ | hheld
    · exact .inl ⟨n, hnext ▸ hn, hid⟩
    · obtain ⟨q, hq, hsurvives⟩ := hkept p hheld
      refine .inr ⟨q, hq, ?_⟩
      rw [hcount]
      exact hsurvives

/-- What is open after a run was open before it, or has an id of the run. -/
theorem replay_comesFrom (h : Issued engine) {bars : List (LiveBar ℚ)} {p : Position ℚ}
    (hp : p ∈ (engine.replay bars).positions.openPositions) :
    (∃ n, engine.exec.nextId < n ∧ p.id = mockPositionId n) ∨
      ∃ q ∈ engine.positions.openPositions, q.id = p.id := by
  induction bars generalizing engine with
  | nil => exact .inr ⟨p, hp, rfl⟩
  | cons bar bars ih =>
    obtain ⟨hissued, hnext, -, -, hfrom⟩ := onBar_follows h bar
    rcases ih hissued hp with ⟨n, hn, hid⟩ | ⟨q, hq, hid⟩
    · exact .inl ⟨n, hnext.trans_lt hn, hid⟩
    · rcases hfrom q hq with ⟨n, hn, hnew⟩ | ⟨q', hq', hsurvives⟩
      · exact .inl ⟨n, hn, hid ▸ hnew⟩
      · obtain ⟨trailPx, rfl⟩ := hsurvives.tightened.same
        exact .inr ⟨q', hq', hid⟩

/-- Over a run of bars: a position that is still open is the earlier one with its id, and every bar
of its symbol since has left it alone. -/
theorem replay_follows (h : Issued engine) {bars : List (LiveBar ℚ)} {q p : Position ℚ}
    (hq : q ∈ engine.positions.openPositions)
    (hp : p ∈ (engine.replay bars).positions.openPositions) (hid : p.id = q.id) :
    q.Tightened p ∧ ∀ k bar, bars[k]? = some bar →
      ∃ r ∈ (engine.replay (bars.take k)).positions.openPositions, q.Tightened r ∧ r.Tightened p ∧
        (q.symbol = bar.symbol → r.exitHit bar = none ∧
          ∀ limit, engine.positions.maxHoldBars = some limit →
            engine.bars + k + 1 - q.openedAtBar < limit) := by
  induction bars generalizing engine q with
  | nil =>
    obtain rfl := List.inj_on_of_nodup_map h.unique hp hq hid
    exact ⟨.refl p, fun k bar hbar => by simp at hbar⟩
  | cons bar bars ih =>
    obtain ⟨hissued, hnext, hbars, hpolicy, hfrom⟩ := onBar_follows h bar
    -- The position was open after the first bar, since its id is older than those of the rest.
    obtain ⟨q₁, hq₁, hid₁⟩ : ∃ q₁ ∈ (engine.onBar bar).positions.openPositions, q₁.id = p.id := by
      rcases replay_comesFrom hissued hp with ⟨n, hn, hnew⟩ | hold
      · exact absurd (hid ▸ hnew) (h.not_later hq (hnext.trans_lt hn))
      · exact hold
    obtain ⟨q', hq', hsurvives⟩ : ∃ q' ∈ engine.positions.openPositions,
        Survives engine.positions.maxHoldBars (engine.onBar bar).bars bar q' q₁ := by
      rcases hfrom q₁ hq₁ with ⟨n, hn, hnew⟩ | hold
      · exact absurd (hid ▸ hid₁ ▸ hnew) (h.not_later hq hn)
      · exact hold
    have hsame : q'.id = q.id := by
      obtain ⟨trailPx, rfl⟩ := hsurvives.tightened.same
      exact hid₁.trans hid
    obtain rfl := List.inj_on_of_nodup_map h.unique hq' hq hsame
    obtain ⟨htight, hlater⟩ := ih hissued hq₁ hp hid₁.symm
    refine ⟨hsurvives.tightened.trans htight, fun k later hbar => ?_⟩
    cases k with
    | zero =>
      obtain rfl := Option.some.inj hbar
      rw [hbars] at hsurvives
      exact ⟨q', hq, .refl q', hsurvives.tightened.trans htight,
        fun hsymbol => ⟨hsurvives.untouched hsymbol, hsurvives.inTime hsymbol⟩⟩
    | succ k =>
      obtain ⟨r, hr, hqr, hrp, hquiet⟩ := hlater k later hbar
      refine ⟨r, hr, hsurvives.tightened.trans hqr, hrp, fun hsymbol => ?_⟩
      obtain ⟨trailPx, hq₁eq⟩ := hsurvives.tightened.same
      obtain ⟨hhit, htime⟩ := hquiet (by rw [hq₁eq]; exact hsymbol)
      refine ⟨hhit, fun limit hlimit => ?_⟩
      have hlate := htime limit (hpolicy.trans hlimit)
      rw [hbars, hq₁eq] at hlate
      simp only at hlate
      omega

theorem replay_issued (h : Issued engine) (bars : List (LiveBar ℚ)) :
    Issued (engine.replay bars) ∧ (engine.replay bars).bars = engine.bars + bars.length ∧
      (engine.replay bars).positions.maxHoldBars = engine.positions.maxHoldBars := by
  induction bars generalizing engine with
  | nil => exact ⟨h, rfl, rfl⟩
  | cons bar bars ih =>
    obtain ⟨hissued, -, hbars, hpolicy, -⟩ := onBar_follows h bar
    obtain ⟨hrest, hcount, hheld⟩ := ih hissued
    refine ⟨hrest, hcount.trans ?_, hheld.trans hpolicy⟩
    rw [hbars, List.length_cons]
    omega

end AutonomousEngine

/-- In every replay, whatever decides and gates its entries: a position that is open at two moments
has its entry, its lots and its target unchanged and a stop that is no looser; it was open before
every bar in between, and no bar of its symbol reached its target or the stop it had by then, or
came when its time was up. -/
theorem replay_open_position_untouched {S R : Type*} [SignalEngine S ℚ] [RiskGate R ℚ]
    (registry : List PortfolioEntry) (signal : S) (risk : R) (decision : DecisionEngine ℚ)
    (cfg : EngineConfig ℚ) (front rest : List (LiveBar ℚ)) :
    let start := AutonomousEngine.new registry signal risk
      (MockExecutionAdapter.withCosts cfg.costs) decision cfg
    ∀ q ∈ (start.replay front).positions.openPositions,
      ∀ p ∈ (start.replay (front ++ rest)).positions.openPositions, p.id = q.id →
        (∃ trailPx, p = { q with trailPx := trailPx }) ∧ q.NoLooser p ∧
          ∀ k bar, rest[k]? = some bar →
            ∃ r ∈ (start.replay (front ++ rest.take k)).positions.openPositions,
              (∃ trailPx, r = { q with trailPx := trailPx }) ∧ q.NoLooser r ∧ r.NoLooser p ∧
                (bar.symbol = q.symbol →
                  r.exitHit bar = none ∧ q.exitHit bar = none ∧
                    ∀ limit, cfg.maxHoldBars = some limit →
                      front.length + k + 1 - q.openedAtBar < limit) := by
  intro start q hq p hp hid
  obtain ⟨hissued, hbars, hpolicy⟩ := AutonomousEngine.replay_issued
    (AutonomousEngine.new_issued registry signal risk decision cfg) front
  have happend (later : List (LiveBar ℚ)) :
      start.replay (front ++ later) = (start.replay front).replay later := List.foldl_append
  rw [happend] at hp
  obtain ⟨⟨hsame, hstop⟩, huntouched⟩ := AutonomousEngine.replay_follows hissued hq hp hid
  refine ⟨hsame, hstop, fun k bar hbar => ?_⟩
  obtain ⟨r, hr, hqr, hrp, hquiet⟩ := huntouched k bar hbar
  refine ⟨r, happend _ ▸ hr, hqr.same, hqr.stop, hrp.stop, fun hsymbol => ?_⟩
  obtain ⟨hhit, htime⟩ := hquiet hsymbol.symm
  refine ⟨hhit, Position.exitHit_none_of_tightened hqr hhit, fun limit hlimit => ?_⟩
  have hlate := htime limit (hpolicy.trans hlimit)
  have hcount : (start.replay front).bars = front.length := hbars.trans (Nat.zero_add _)
  rw [hcount] at hlate
  exact hlate

def quietBars : List (LiveBar ℚ) :=
  [sampleQuoteBar "EURUSD" (102 + 2 / 1000), sampleQuoteBar "EURUSD" (102 + 4 / 1000)]

def trailingEngineConfig : EngineConfig ℚ :=
  { sampleEngineConfig with trailing := some ⟨1 / 1000, 1 / 1000, 0, 1 / 100⟩ }

def quietEngine (rest : List (LiveBar ℚ)) :
    AutonomousEngine (MomentumStubSignal ℚ) (PermissiveRiskGate ℚ) (MockExecutionAdapter ℚ) ℚ :=
  (AutonomousEngine.new [sampleWatch] (.new 1) ⟨⟩ (.withCosts trailingEngineConfig.costs)
    (.new .default) trailingEngineConfig).replay (fallingBars.take 2 ++ rest)

/-- The long trade that two quiet bars leave open, with a stop that follows the price: the second
stays clear of the stop that the first one left. -/
theorem quietBar_leaves_position :
    ∃ q ∈ (quietEngine []).positions.openPositions,
      ∃ p ∈ (quietEngine quietBars).positions.openPositions, p.id = q.id ∧ q.NoLooser p ∧
        ∃ r ∈ (quietEngine (quietBars.take 1)).positions.openPositions,
          r.id = q.id ∧ r.trailPx = some (102 + 495 / 1000000) ∧
            r.exitHit (sampleQuoteBar "EURUSD" (102 + 4 / 1000)) = none := by
  have h := replay_open_position_untouched [sampleWatch]
    (MomentumStubSignal.new 1 : MomentumStubSignal ℚ) (⟨⟩ : PermissiveRiskGate ℚ) (.new .default)
    trailingEngineConfig (fallingBars.take 2) quietBars
  have hearly : (quietEngine []).positions.openPositions.map (fun p => (p.id, p.symbol)) =
      [("mock-pos-1", "EURUSD")] := by
    decide +kernel
  have hbetween : ∀ r ∈ (quietEngine (quietBars.take 1)).positions.openPositions,
      r.trailPx = some (102 + 495 / 1000000) := by
    decide +kernel
  have hlate : (quietEngine quietBars).positions.openPositions.map (·.id) = ["mock-pos-1"] := by
    decide +kernel
  obtain ⟨q, hq, hqid⟩ :=
    List.mem_map.mp (hearly ▸ List.mem_singleton_self ("mock-pos-1", "EURUSD"))
  obtain ⟨hqid, hqsymbol⟩ := Prod.mk.inj hqid
  obtain ⟨p, hp, hpid⟩ := List.mem_map.mp (hlate ▸ List.mem_singleton_self "mock-pos-1")
  have hid : p.id = q.id := hpid.trans hqid.symm
  obtain ⟨-, hstop, huntouched⟩ := h q hq p hp hid
  obtain ⟨r, hr, ⟨trailPx, hsame⟩, -, -, hquiet⟩ := huntouched 1 _ rfl
  exact ⟨q, hq, p, hp, hid, hstop, r, hr, by rw [hsame], hbetween r hr, (hquiet hqsymbol.symm).1⟩

end Neoethos
