import Mathlib.Tactic.LinearCombination
import Neoethos.EngineDiscipline

namespace Neoethos

open FloatOps (lit lt le)

/-- An execution that also keeps what it was asked for, and at which marks. -/
structure Recorded (E F : Type*) where
  inner : E
  log : List (TradeIntent F × F)

instance {E F : Type*} [ExecutionAdapter E F] : ExecutionAdapter (Recorded E F) F where
  execute recorded intent mark :=
    let (inner, report) := ExecutionAdapter.execute recorded.inner intent mark
    (⟨inner, recorded.log ++ [(intent, mark)]⟩, report)
  chargedCosts recorded := ExecutionAdapter.chargedCosts recorded.inner

namespace AutonomousEngine

section Recording

variable {S R E F : Type*}

def plain (engine : AutonomousEngine S R (Recorded E F) F) : AutonomousEngine S R E F :=
  { engine with exec := engine.exec.inner }

variable [FloatOps F] [ExecutionAdapter E F] {engine : AutonomousEngine S R (Recorded E F) F}

theorem plain_executeIntent (intent : TradeIntent F) (mark : F) :
    (engine.executeIntent intent mark).plain = engine.plain.executeIntent intent mark := by
  cases hanswer : ExecutionAdapter.execute engine.exec.inner intent mark with
  | mk exec answer =>
    have hrecorded : ExecutionAdapter.execute engine.exec intent mark =
        (⟨exec, engine.exec.log ++ [(intent, mark)]⟩, answer) :=
      congrArg (fun out : E × Option (ExecReport F) =>
        ((⟨out.1, engine.exec.log ++ [(intent, mark)]⟩ : Recorded E F), out.2)) hanswer
    cases answer with
    | none => simp only [executeIntent, plain, hrecorded, hanswer]
    | some report => simp only [executeIntent, plain, hrecorded, hanswer]

theorem plain_executeAll (exits : List (TradeIntent F × F)) :
    (engine.executeAll exits).plain = engine.plain.executeAll exits := by
  induction exits generalizing engine with
  | nil => rfl
  | cons exit exits ih =>
    obtain ⟨intent, price⟩ := exit
    refine (@ih (engine.executeIntent intent price)).trans ?_
    rw [plain_executeIntent]
    rfl

theorem plain_manage (bar : LiveBar F) : (engine.manage bar).plain = engine.plain.manage bar := by
  obtain ⟨kept, hkept⟩ : ∃ kept : AutonomousEngine S R (Recorded E F) F,
    { engine with positions := (engine.positions.manageOnBar bar).1 } = kept := ⟨_, rfl⟩
  have h := @plain_executeAll _ _ _ _ _ _ kept (engine.positions.manageOnBar bar).2
  rw [← hkept] at h
  exact congrArg refreshAccount h

variable [RiskGate R F]

theorem plain_executeDecided (decided : Option (TradeIntent F)) (mark : F) :
    (engine.executeDecided decided mark).plain = engine.plain.executeDecided decided mark := by
  cases decided with
  | none => rfl
  | some intent =>
    unfold executeDecided
    simp only
    cases hcheck : RiskGate.check engine.risk intent engine.account with
    | ok passed =>
      have hplain : RiskGate.check engine.plain.risk intent engine.plain.account = .ok passed :=
        hcheck
      simp only [hplain]
      exact plain_executeIntent intent mark
    | error tier =>
      have hplain : RiskGate.check engine.plain.risk intent engine.plain.account = .error tier :=
        hcheck
      simp only [hplain]
      rfl

variable [SignalEngine S F]

theorem plain_actOnSignal (bar : LiveBar F) :
    (engine.actOnSignal bar).plain = engine.plain.actOnSignal bar := by
  cases hentry : entryFor engine.registry bar.symbol bar.tf with
  | none =>
    have hplain : entryFor engine.plain.registry bar.symbol bar.tf = none := hentry
    simp only [actOnSignal, hentry, hplain]
  | some entry =>
    have hplain : entryFor engine.plain.registry bar.symbol bar.tf = some entry := hentry
    simp only [actOnSignal, hentry, hplain]
    exact congrArg refreshAccount (plain_executeDecided _ bar.c)

theorem plain_replay (bars : List (LiveBar F)) :
    (engine.replay bars).plain = engine.plain.replay bars := by
  induction bars generalizing engine with
  | nil => rfl
  | cons bar bars ih =>
    refine (@ih (engine.onBar bar)).trans (congrArg (replay · bars) ?_)
    unfold onBar
    rw [plain_actOnSignal, plain_manage]
    rfl

end Recording

end AutonomousEngine

namespace PositionManager

theorem update_none_eq_eraseP {F : Type*} (id : String) (positions : List (Position F)) :
    update id (fun _ => none) positions = positions.eraseP (·.id = id) := by
  induction positions with
  | nil => rfl
  | cons p rest ih =>
    unfold update
    by_cases hid : p.id = id
    · rw [if_pos hid, List.eraseP_cons_of_pos (by simpa using hid)]
      rfl
    · rw [if_neg hid, List.eraseP_cons_of_neg (by simpa using hid), ih]

end PositionManager

/-- An open trade without its costs: the entry is at the mark. -/
structure OpenTrade where
  id : String
  symbol : String
  dir : Direction
  volume : ℚ
  entryMark : ℚ

/-- The trade behind a position whose fill was adverse by so much. -/
def Position.trade (adverse : ℚ) (p : Position ℚ) : OpenTrade :=
  ⟨p.id, p.symbol, p.dir, p.volume, p.entryPrice - p.dir.sign * adverse⟩

theorem Direction.sign_mul_self {dir : Direction} (h : dir ≠ .flat) :
    (dir.sign : ℚ) * dir.sign = 1 := by
  cases dir with
  | long => norm_num [sign]
  | short => norm_num [sign]
  | flat => exact absurd rfl h

def costlessBooks (log : List (TradeIntent ℚ × ℚ)) : ReplayBooks :=
  (ReplayBooks.start ⟨0, 0, 0⟩ PositionManager.new).run log

theorem costlessBooks_append (log : List (TradeIntent ℚ × ℚ)) (x : TradeIntent ℚ × ℚ) :
    costlessBooks (log ++ [x]) = (costlessBooks log).step x :=
  List.foldl_append.trans rfl

/-- The books of the replay beside the costless ones: the same trades at the same marks, each leg
dearer by its costs. -/
structure Mirrors (costs : ReplayCostModel ℚ) (exec : MockExecutionAdapter ℚ)
    (mgr : PositionManager ℚ) (g : ReplayBooks) : Prop where
  priced : exec.costs = costs
  issued : exec.nextId = g.adapter.nextId
  legs : exec.openLegs = g.adapter.openLegs
  held : g.Held
  free : g.adapter.costs = ⟨0, 0, 0⟩
  trades : mgr.openPositions.map (Position.trade costs.adverse) =
    g.manager.openPositions.map (Position.trade 0)
  realized : mgr.realizedPnl = g.manager.realizedPnl - 2 * costs.adverse * g.closed
  charged : exec.commissionCharged = costs.commissionPerLot * (g.opened + g.closed)
  volume : g.opened = g.closed + g.manager.openVolume
  sides : ∀ p ∈ g.manager.openPositions, p.dir ≠ .flat ∧ 0 ≤ p.volume

namespace Mirrors

variable {costs : ReplayCostModel ℚ} {exec : MockExecutionAdapter ℚ} {mgr : PositionManager ℚ}
  {g : ReplayBooks}

theorem of_trades (h : Mirrors costs exec mgr g) {mgr' : PositionManager ℚ}
    (htrades : mgr'.openPositions.map (Position.trade costs.adverse) =
      mgr.openPositions.map (Position.trade costs.adverse))
    (hrealized : mgr'.realizedPnl = mgr.realizedPnl) : Mirrors costs exec mgr' g :=
  { h with
    trades := htrades.trans h.trades
    realized := hrealized.trans h.realized }

theorem adverse (h : Mirrors costs exec mgr g) : g.adapter.costs.adverse = 0 := by
  rw [h.free]
  exact add_zero 0

theorem step_open (h : Mirrors costs exec mgr g) (symbol : String) {dir : Direction} {volume : ℚ}
    (sl tp : Option ℚ) (source : SignalSource) (hdir : dir ≠ .flat) (hvolume : 0 ≤ volume)
    (mark : ℚ) :
    let intent : TradeIntent ℚ := .open symbol dir volume sl tp source
    Mirrors costs (exec.execute intent mark).1
      (mgr.apply intent (exec.execute intent mark).2) (g.step (intent, mark)) := by
  intro intent
  have hin : g.InStep intent := .inr (congrArg ReplayCostModel.commissionPerLot h.free)
  have hparts : ReplayBooks.PartialPositive intent := trivial
  have hagree := (h.held.step_iff mark hparts).mpr hin
  have hgross : (g.step (intent, mark)).manager.openPositions = g.manager.openPositions ++
      [⟨mockPositionId (g.adapter.nextId + 1), symbol, dir, volume,
        mark + dir.sign * g.adapter.costs.adverse, sl, tp, source, g.manager.currentBar, none⟩] :=
    rfl
  constructor
  case priced => exact h.priced
  case issued => exact congrArg (· + 1) h.issued
  case legs =>
    change exec.openLegs ++ [⟨mockPositionId (exec.nextId + 1), dir.sign, volume⟩] =
      g.adapter.openLegs ++ [⟨mockPositionId (g.adapter.nextId + 1), dir.sign, volume⟩]
    rw [h.legs, h.issued]
  case held => exact h.held.step hagree hin
  case free => exact h.free
  case trades =>
    change (mgr.openPositions ++ [(⟨mockPositionId (exec.nextId + 1), symbol, dir, volume,
      mark + dir.sign * exec.costs.adverse, sl, tp, source, mgr.currentBar, none⟩ :
        Position ℚ)]).map _ = _
    rw [hgross, List.map_append, List.map_append, h.trades, h.issued, h.priced, h.adverse]
    simp [Position.trade]
  case realized =>
    change mgr.realizedPnl = g.manager.realizedPnl - 2 * costs.adverse * (g.closed + 0)
    rw [add_zero]
    exact h.realized
  case charged =>
    change exec.commissionCharged + exec.costs.commissionPerLot * FloatOps.abs volume =
      costs.commissionPerLot * (g.opened + volume + (g.closed + 0))
    rw [h.charged, h.priced, abs_rat, abs_of_nonneg hvolume]
    ring
  case volume =>
    change g.opened + volume = g.closed + 0 + ((g.step (intent, mark)).manager.openPositions.map
      (·.volume)).sum
    rw [hgross, h.volume, List.map_append, List.sum_append]
    simp only [PositionManager.openVolume, List.map_cons, List.map_nil, List.sum_singleton]
    ring
  case sides =>
    intro p hp
    rw [hgross] at hp
    rcases List.mem_append.mp hp with hold | hnew
    · exact h.sides p hold
    · obtain rfl := List.mem_singleton.mp hnew
      exact ⟨hdir, hvolume⟩

/-- The position of the books and the costless one, with an id. -/
theorem find? (h : Mirrors costs exec mgr g) (id : String) :
    (mgr.openPositions.find? (·.id = id)).map (Position.trade costs.adverse) =
      (g.manager.openPositions.find? (·.id = id)).map (Position.trade 0) := by
  have hmap (adverse : ℚ) (positions : List (Position ℚ)) :
      (positions.map (Position.trade adverse)).find? (·.id = id) =
        (positions.find? (·.id = id)).map (Position.trade adverse) := by
    rw [List.find?_map]
    rfl
  rw [← hmap, ← hmap, h.trades]

theorem erase (h : Mirrors costs exec mgr g) (id : String) :
    (mgr.openPositions.eraseP (·.id = id)).map (Position.trade costs.adverse) =
      (g.manager.openPositions.eraseP (·.id = id)).map (Position.trade 0) := by
  have hmap (adverse : ℚ) (positions : List (Position ℚ)) :
      (positions.map (Position.trade adverse)).eraseP (·.id = id) =
        (positions.eraseP (·.id = id)).map (Position.trade adverse) := by
    rw [List.eraseP_map]
    rfl
  rw [← hmap, ← hmap, h.trades]

theorem apply_closeAll {mgr : PositionManager ℚ} {p : Position ℚ} {id : String}
    (report : ExecReport ℚ) (hfilled : report.status = .filled)
    (hfind : mgr.openPositions.find? (·.id = id) = some p) (reason : CloseReason) :
    mgr.apply (.close id none reason) report = { mgr with
      realizedPnl := mgr.realizedPnl +
        (report.fillPrice.getD p.entryPrice - p.entryPrice) * p.dir.sign * p.volume
      openPositions := mgr.openPositions.eraseP (·.id = id)
      closedCount := mgr.closedCount + 1 } := by
  have hvolume : FloatOps.min ((none : Option ℚ).getD p.volume) p.volume = p.volume := min_self _
  have hwhole : ((none : Option ℚ).isNone || FloatOps.le p.volume p.volume) = true := rfl
  rw [PositionManager.apply_close_found hfilled hfind hvolume hwhole]
  simp only [↓reduceIte, PositionManager.update_none_eq_eraseP]

theorem sum_eraseP {positions : List (Position ℚ)} {q : Position ℚ} {id : String}
    (hfind : positions.find? (·.id = id) = some q) :
    (positions.map (·.volume)).sum =
      q.volume + ((positions.eraseP (·.id = id)).map (·.volume)).sum := by
  obtain ⟨hid, front, back, rfl, hfront⟩ := List.find?_eq_some_iff_append.mp hfind
  have herase : (q :: back).eraseP (·.id = id) = back := List.eraseP_cons_of_pos hid
  rw [List.eraseP_append_right _ (fun p hp => by simpa using hfront p hp), herase]
  simp only [List.map_append, List.map_cons, List.sum_append, List.sum_cons]
  ring

/-- What the adapter does with a whole exit from a trade that the costless books hold. -/
theorem execute_close (h : Mirrors costs exec mgr g) (id : String) (reason : CloseReason)
    (mark : ℚ) :
    let leg := ((g.manager.openPositions.find? (·.id = id)).map ReplayBooks.leg).getD ⟨id, 0, 0⟩
    exec.execute (.close id none reason) mark =
      ({ exec with
          openLegs := exec.openLegs.filter (·.id ≠ id)
          commissionCharged := exec.commissionCharged + costs.commissionPerLot * |leg.volume| },
        ⟨.filled, some (mark - leg.sign * costs.adverse), some id⟩) := by
  have hleg : exec.openLegs.find? (·.id = id) =
      (g.manager.openPositions.find? (·.id = id)).map ReplayBooks.leg := by
    rw [h.legs]
    exact ReplayBooks.find?_legs h.held.agree id
  intro leg
  rw [← abs_rat, ← h.priced]
  simp only [leg, ← hleg]
  rfl

/-- What the costless books do with a whole exit from a trade that they hold. -/
theorem close_found (h : Mirrors costs exec mgr g) {id : String} {q : Position ℚ}
    (hfind : g.manager.openPositions.find? (·.id = id) = some q) (reason : CloseReason)
    (mark : ℚ) :
    (g.step (.close id none reason, mark)).manager = { g.manager with
      realizedPnl := g.manager.realizedPnl + (mark - q.entryPrice) * q.dir.sign * q.volume
      openPositions := g.manager.openPositions.eraseP (·.id = id)
      closedCount := g.manager.closedCount + 1 } ∧
      (g.step (.close id none reason, mark)).closed = g.closed + q.volume := by
  have hleg : g.adapter.openLegs.find? (·.id = id) = some (ReplayBooks.leg q) := by
    rw [ReplayBooks.find?_legs h.held.agree id, hfind]
    rfl
  have hfill : (g.adapter.execute (.close id none reason) mark).2.fillPrice = some mark := by
    simp only [MockExecutionAdapter.execute, hleg, h.adverse, mul_zero, sub_zero]
  have hmanager : (g.step (.close id none reason, mark)).manager = { g.manager with
      realizedPnl := g.manager.realizedPnl + (mark - q.entryPrice) * q.dir.sign * q.volume
      openPositions := g.manager.openPositions.eraseP (·.id = id)
      closedCount := g.manager.closedCount + 1 } := by
    refine (apply_closeAll (g.adapter.execute (.close id none reason) mark).2 rfl hfind
      reason).trans ?_
    rw [hfill]
    rfl
  refine ⟨hmanager, ?_⟩
  change g.closed + (g.manager.openVolume -
    (g.step (.close id none reason, mark)).manager.openVolume) = _
  rw [hmanager]
  unfold PositionManager.openVolume
  rw [sum_eraseP hfind]
  ring

theorem step_close_missing (h : Mirrors costs exec mgr g) {id : String} (reason : CloseReason)
    (mark : ℚ) (hgross : g.manager.openPositions.find? (·.id = id) = none)
    (hheld : (g.step (.close id none reason, mark)).Held) :
    Mirrors costs (exec.execute (.close id none reason) mark).1
      (mgr.apply (.close id none reason) (exec.execute (.close id none reason) mark).2)
      (g.step (.close id none reason, mark)) := by
  have hexec := h.execute_close id reason mark
  have hfind := h.find? id
  rw [hgross] at hexec hfind
  have hnone : mgr.openPositions.find? (·.id = id) = none := Option.map_eq_none_iff.mp hfind
  have hopen : ∀ p ∈ g.manager.openPositions, p.id ≠ id := by
    simpa using List.find?_eq_none.mp hgross
  have hopened : (g.step (.close id none reason, mark)).opened = g.opened := add_zero g.opened
  obtain ⟨hmanager, hclosed⟩ := ReplayBooks.close_unknown mark hopen none reason
  rw [PositionManager.apply_close_missing hnone, hexec]
  constructor
  case priced => exact h.priced
  case issued => exact h.issued
  case legs => exact congrArg (List.filter (fun leg : OpenLeg ℚ => leg.id ≠ id)) h.legs
  case held => exact hheld
  case free => exact h.free
  case trades => rw [hmanager]; exact h.trades
  case realized => rw [hmanager, hclosed]; exact h.realized
  case charged =>
    rw [hopened, hclosed]
    simp [h.charged]
  case volume => rw [hopened, hclosed, hmanager]; exact h.volume
  case sides => rw [hmanager]; exact h.sides

theorem step_close_found (h : Mirrors costs exec mgr g) {id : String} {q : Position ℚ}
    (reason : CloseReason) (mark : ℚ)
    (hgross : g.manager.openPositions.find? (·.id = id) = some q)
    (hheld : (g.step (.close id none reason, mark)).Held) :
    Mirrors costs (exec.execute (.close id none reason) mark).1
      (mgr.apply (.close id none reason) (exec.execute (.close id none reason) mark).2)
      (g.step (.close id none reason, mark)) := by
  have hexec := h.execute_close id reason mark
  have hfind := h.find? id
  rw [hgross] at hexec hfind
  obtain ⟨p, hp, htrade⟩ := Option.map_eq_some_iff.mp hfind
  obtain ⟨hdir, hvolume⟩ := h.sides q (List.mem_of_find?_eq_some hgross)
  obtain ⟨hmanager, hclosed⟩ := h.close_found hgross reason mark
  have hopened : (g.step (.close id none reason, mark)).opened = g.opened := add_zero g.opened
  have hentry : p.entryPrice - p.dir.sign * costs.adverse = q.entryPrice - q.dir.sign * 0 :=
    congrArg OpenTrade.entryMark htrade
  have hside : p.dir = q.dir := congrArg OpenTrade.dir htrade
  have hlots : p.volume = q.volume := congrArg OpenTrade.volume htrade
  rw [hside] at hentry
  rw [hexec, apply_closeAll _ rfl hp]
  constructor
  case priced => exact h.priced
  case issued => exact h.issued
  case legs => exact congrArg (List.filter (fun leg : OpenLeg ℚ => leg.id ≠ id)) h.legs
  case held => exact hheld
  case free => exact h.free
  case trades => rw [hmanager]; exact h.erase id
  case realized =>
    rw [hmanager, hclosed]
    simp only [h.realized, hside, hlots]
    change _ + (mark - q.dir.sign * costs.adverse - p.entryPrice) * _ * _ = _
    -- Both fills of the exit are adverse, and a side squared is one.
    linear_combination (-2 * costs.adverse * q.volume) * Direction.sign_mul_self hdir -
      q.dir.sign * q.volume * hentry
  case charged =>
    rw [hopened, hclosed]
    change exec.commissionCharged + costs.commissionPerLot * |q.volume| = _
    rw [h.charged, abs_of_nonneg hvolume]
    ring
  case volume =>
    rw [hopened, hclosed, h.volume, hmanager]
    unfold PositionManager.openVolume
    rw [sum_eraseP hgross]
    ring
  case sides =>
    rw [hmanager]
    exact fun p hp => h.sides p (List.mem_of_mem_eraseP hp)

theorem step_close (h : Mirrors costs exec mgr g) (id : String) (reason : CloseReason) (mark : ℚ) :
    let intent : TradeIntent ℚ := .close id none reason
    Mirrors costs (exec.execute intent mark).1
      (mgr.apply intent (exec.execute intent mark).2) (g.step (intent, mark)) := by
  intro intent
  have hparts : ReplayBooks.PartialPositive intent := trivial
  have hin : g.InStep intent := trivial
  have hheld := h.held.step ((h.held.step_iff mark hparts).mpr hin) hin
  cases hgross : g.manager.openPositions.find? (·.id = id) with
  | none => exact h.step_close_missing reason mark hgross hheld
  | some q => exact h.step_close_found reason mark hgross hheld

end Mirrors

theorem DecisionEngine.intent_cfg {F : Type*} [FloatOps F] (engine : DecisionEngine F)
    (signal : Signal F) (held : List (Position F)) (mark : F) :
    (engine.intent signal held mark).2.cfg = engine.cfg := by
  unfold intent
  split
  next => rfl
  next => rfl
  next => exact engine.bracket_cfg signal _ mark
  next => rfl

theorem DecisionEngine.size_nonneg {engine : DecisionEngine ℚ} (h : 0 ≤ engine.cfg.minVolume)
    (confidence : ℚ) : 0 ≤ engine.size confidence :=
  h.trans (le_max_right _ _)

theorem PositionManager.manageOnBar_trades (mgr : PositionManager ℚ) (bar : LiveBar ℚ)
    (adverse : ℚ) :
    (mgr.manageOnBar bar).1.openPositions.map (Position.trade adverse) =
      mgr.openPositions.map (Position.trade adverse) := by
  unfold manageOnBar
  simp only [List.map_map]
  refine List.map_congr_left fun p _ => ?_
  simp only [Function.comp]
  split
  next =>
    obtain ⟨trailPx, htrail⟩ := mgr.manageOne_trail bar p
    rw [htrail]
    rfl
  next => rfl

namespace AutonomousEngine

variable {S R : Type*}

/-- What a replay with a record keeps about its money. -/
structure Costed (costs : ReplayCostModel ℚ) (startingBalance : ℚ)
    (engine : AutonomousEngine S R (Recorded (MockExecutionAdapter ℚ) ℚ) ℚ) : Prop where
  mirrors : Mirrors costs engine.exec.inner engine.positions (costlessBooks engine.exec.log)
  marked : ∀ p ∈ engine.positions.openPositions, (engine.marks p.symbol).isSome
  policy : 0 ≤ engine.decision.cfg.minVolume
  balance : engine.cfg.startingBalance = startingBalance

def Refreshed (engine : AutonomousEngine S R (Recorded (MockExecutionAdapter ℚ) ℚ) ℚ) : Prop :=
  engine.account.equity = engine.cfg.startingBalance +
    (engine.positions.realizedPnl - engine.exec.inner.commissionCharged) +
    engine.positions.unrealizedTotal engine.marks

section

variable {costs : ReplayCostModel ℚ} {startingBalance : ℚ}
  {engine : AutonomousEngine S R (Recorded (MockExecutionAdapter ℚ) ℚ) ℚ}

theorem executeIntent_exec (intent : TradeIntent ℚ) (mark : ℚ) :
    engine.executeIntent intent mark = { engine with
      intents := engine.intents + 1
      exec := ⟨(engine.exec.inner.execute intent mark).1, engine.exec.log ++ [(intent, mark)]⟩
      executed :=
        if (engine.exec.inner.execute intent mark).2.status = .filled then engine.executed + 1
        else engine.executed
      positions := engine.positions.apply intent (engine.exec.inner.execute intent mark).2 } :=
  rfl

theorem executeAll_marks (exits : List (TradeIntent ℚ × ℚ)) :
    (engine.executeAll exits).marks = engine.marks := by
  induction exits generalizing engine with
  | nil => rfl
  | cons exit exits ih => exact ih.trans rfl

theorem executeIntent_closed (h : Costed costs startingBalance engine) (id : String)
    (reason : CloseReason) (mark : ℚ) :
    Costed costs startingBalance (engine.executeIntent (.close id none reason) mark) := by
  have hmirrors := h.mirrors.step_close id reason mark
  have hsymbols := (engine.positions.apply_close_shrinks id none reason
    (engine.exec.inner.execute (.close id none reason) mark).2).symbols
  rw [executeIntent_exec]
  constructor
  case mirrors =>
    rw [costlessBooks_append]
    exact hmirrors
  case marked =>
    intro p hp
    obtain ⟨q, hq, hsame⟩ := List.mem_map.mp (hsymbols.subset (List.mem_map_of_mem hp))
    rw [← hsame]
    exact h.marked q hq
  case policy => exact h.policy
  case balance => exact h.balance

theorem executeAll_closed {exits : List (TradeIntent ℚ × ℚ)}
    (hcloses : ∀ exit ∈ exits, ∃ id reason, exit.1 = .close id none reason)
    (h : Costed costs startingBalance engine) :
    Costed costs startingBalance (engine.executeAll exits) := by
  induction exits generalizing engine with
  | nil => exact h
  | cons exit exits ih =>
    obtain ⟨intent, price⟩ := exit
    obtain ⟨id, reason, rfl⟩ := hcloses _ List.mem_cons_self
    exact ih (fun x hx => hcloses x (List.mem_cons_of_mem _ hx))
      (executeIntent_closed h id reason price)

theorem executeIntent_opened (h : Costed costs startingBalance engine) {symbol : String}
    {dir : Direction} {volume : ℚ} {sl tp : Option ℚ} {source : SignalSource} (mark : ℚ)
    (hdir : dir ≠ .flat) (hvolume : 0 ≤ volume) (hmarked : (engine.marks symbol).isSome) :
    Costed costs startingBalance
      (engine.executeIntent (.open symbol dir volume sl tp source) mark) := by
  have hmirrors := h.mirrors.step_open symbol sl tp source hdir hvolume mark
  rw [executeIntent_exec]
  constructor
  case mirrors =>
    rw [costlessBooks_append]
    exact hmirrors
  case marked =>
    intro p hp
    rcases List.mem_append.mp hp with hold | hnew
    · exact h.marked p hold
    · obtain rfl := List.mem_singleton.mp hnew
      exact hmarked
  case policy => exact h.policy
  case balance => exact h.balance

theorem new_costed (registry : List PortfolioEntry) (signal : S) (risk : R)
    (decision : DecisionEngine ℚ) (cfg : EngineConfig ℚ) (hpolicy : 0 ≤ decision.cfg.minVolume) :
    Costed cfg.costs cfg.startingBalance (new registry signal risk
      (⟨.withCosts cfg.costs, []⟩ : Recorded (MockExecutionAdapter ℚ) ℚ) decision cfg) := by
  constructor
  case mirrors =>
    constructor
    case priced => rfl
    case issued => rfl
    case legs => rfl
    case held => exact ReplayBooks.Held.start ⟨0, 0, 0⟩ rfl
    case free => rfl
    case trades => rfl
    case realized =>
      change (0 : ℚ) = 0 - 2 * cfg.costs.adverse * 0
      ring
    case charged =>
      change (0 : ℚ) = cfg.costs.commissionPerLot * (0 + 0)
      ring
    case volume =>
      change (0 : ℚ) = 0 + 0
      ring
    case sides => exact fun p hp => absurd hp List.not_mem_nil
  case marked => exact fun p hp => absurd hp List.not_mem_nil
  case policy => exact hpolicy
  case balance => rfl

theorem new_refreshed (registry : List PortfolioEntry) (signal : S) (risk : R)
    (decision : DecisionEngine ℚ) (cfg : EngineConfig ℚ) :
    Refreshed (new registry signal risk
      (⟨.withCosts cfg.costs, []⟩ : Recorded (MockExecutionAdapter ℚ) ℚ) decision cfg) := by
  change cfg.startingBalance = cfg.startingBalance + (0 - 0) + 0
  ring

theorem observe_costed (h : Costed costs startingBalance engine) (bar : LiveBar ℚ) :
    Costed costs startingBalance (engine.observe bar) := by
  constructor
  case mirrors => exact h.mirrors.of_trades rfl rfl
  case marked =>
    intro p hp
    change (Function.update engine.marks bar.symbol (some bar.c) p.symbol).isSome = true
    by_cases hsymbol : p.symbol = bar.symbol
    · rw [hsymbol, Function.update_self]
      rfl
    · rw [Function.update_of_ne hsymbol]
      exact h.marked p hp
  case policy => exact h.policy
  case balance => exact h.balance

theorem manage_costed (h : Costed costs startingBalance engine) (bar : LiveBar ℚ) :
    Costed costs startingBalance (engine.manage bar) ∧ Refreshed (engine.manage bar) := by
  have hmanaged : Costed costs startingBalance
      { engine with positions := (engine.positions.manageOnBar bar).1 } := by
    constructor
    case mirrors =>
      exact h.mirrors.of_trades (engine.positions.manageOnBar_trades bar costs.adverse) rfl
    case marked =>
      intro p hp
      have hsymbol := List.mem_map_of_mem (f := (·.symbol)) hp
      rw [engine.positions.manageOnBar_symbols] at hsymbol
      obtain ⟨q, hq, hsame⟩ := List.mem_map.mp hsymbol
      rw [← hsame]
      exact h.marked q hq
    case policy => exact h.policy
    case balance => exact h.balance
  obtain ⟨hmirrors, hmarked, hpolicy, hbalance⟩ := executeAll_closed
    (fun exit hexit => PositionManager.manageOnBar_closes hexit) hmanaged
  exact ⟨⟨hmirrors, hmarked, hpolicy, hbalance⟩, rfl⟩

end

variable [SignalEngine S ℚ] [RiskGate R ℚ]
  {costs : ReplayCostModel ℚ} {startingBalance : ℚ}
  {engine : AutonomousEngine S R (Recorded (MockExecutionAdapter ℚ) ℚ) ℚ}

theorem actOnSignal_costed (hown : OwnSymbols S) (h : Costed costs startingBalance engine)
    (hfresh : Refreshed engine) (bar : LiveBar ℚ) (hmark : (engine.marks bar.symbol).isSome) :
    Costed costs startingBalance (engine.actOnSignal bar) ∧ Refreshed (engine.actOnSignal bar) := by
  unfold actOnSignal
  cases hentry : entryFor engine.registry bar.symbol bar.tf with
  | none => exact ⟨h, hfresh⟩
  | some entry =>
    have hsymbol : entry.symbol = bar.symbol := by
      have hfound := List.find?_some hentry
      exact (of_decide_eq_true hfound).1
    simp only
    generalize hsignal : SignalEngine.evaluate engine.signal entry
      (engine.windows (bar.symbol, bar.tf)) = answer
    obtain ⟨signal, source⟩ := answer
    have hown := hown engine.signal entry (engine.windows (bar.symbol, bar.tf))
    rw [hsignal] at hown
    generalize hdecision : engine.decision.intent signal
      (engine.positions.positionsFor bar.symbol) bar.c = decision
    obtain ⟨decided, policy⟩ := decision
    have hpolicy : policy.cfg = engine.decision.cfg := by
      rw [← engine.decision.intent_cfg signal (engine.positions.positionsFor bar.symbol) bar.c,
        hdecision]
    have hevaluated : Costed costs startingBalance { engine with
        signals := engine.signals + 1, signal := source, decision := policy } :=
      ⟨h.mirrors, h.marked, hpolicy ▸ h.policy, h.balance⟩
    refine ⟨?_, rfl⟩
    have hdecided : Costed costs startingBalance (executeDecided { engine with
        signals := engine.signals + 1, signal := source, decision := policy } decided bar.c) := by
      unfold executeDecided
      cases decided with
      | none => exact hevaluated
      | some intent =>
        simp only
        cases hcheck : RiskGate.check engine.risk intent engine.account with
        | error tier =>
          exact ⟨hevaluated.mirrors, hevaluated.marked, hevaluated.policy, hevaluated.balance⟩
        | ok passed =>
          rcases DecisionEngine.intent_cases (congrArg Prod.fst hdecision) with
            ⟨sl, tp, rfl, hdir, -⟩ | ⟨p, -, -, rfl⟩
          · refine executeIntent_opened hevaluated bar.c hdir
              (DecisionEngine.size_nonneg h.policy signal.confidence) ?_
            rw [hown, hsymbol]
            exact hmark
          · exact executeIntent_closed hevaluated p.id .signal bar.c
    exact ⟨hdecided.mirrors, hdecided.marked, hdecided.policy, hdecided.balance⟩

theorem onBar_costed (hown : OwnSymbols S) (h : Costed costs startingBalance engine)
    (bar : LiveBar ℚ) :
    Costed costs startingBalance (engine.onBar bar) ∧ Refreshed (engine.onBar bar) := by
  obtain ⟨hmanaged, hfresh⟩ := manage_costed (observe_costed h bar) bar
  refine actOnSignal_costed hown hmanaged hfresh bar ?_
  change ((executeAll _ _).marks bar.symbol).isSome = true
  rw [executeAll_marks]
  change (Function.update engine.marks bar.symbol (some bar.c) bar.symbol).isSome = true
  rw [Function.update_self]
  rfl

theorem replay_costed (hown : OwnSymbols S) (h : Costed costs startingBalance engine)
    (hfresh : Refreshed engine) (bars : List (LiveBar ℚ)) :
    Costed costs startingBalance (engine.replay bars) ∧ Refreshed (engine.replay bars) := by
  induction bars generalizing engine with
  | nil => exact ⟨h, hfresh⟩
  | cons bar bars ih =>
    obtain ⟨hbar, hbarFresh⟩ := onBar_costed hown h bar
    exact ih hbar hbarFresh

end AutonomousEngine

def OpenTrade.value (mark : String → Option ℚ) (t : OpenTrade) : ℚ :=
  ((mark t.symbol).getD 0 - t.entryMark) * t.dir.sign * t.volume

theorem unrealized_eq_value {positions : List (Position ℚ)} {mark : String → Option ℚ}
    (hmarked : ∀ p ∈ positions, (mark p.symbol).isSome) (hsides : ∀ p ∈ positions, p.dir ≠ .flat)
    (adverse : ℚ) :
    (positions.filterMap fun p =>
        (mark p.symbol).map fun px => (px - p.entryPrice) * p.dir.sign * p.volume).sum =
      ((positions.map (Position.trade adverse)).map (OpenTrade.value mark)).sum -
        adverse * ((positions.map (Position.trade adverse)).map (·.volume)).sum := by
  induction positions with
  | nil => simp
  | cons p rest ih =>
    obtain ⟨px, hpx⟩ := Option.isSome_iff_exists.mp (hmarked p List.mem_cons_self)
    have hrest := ih (fun q hq => hmarked q (List.mem_cons_of_mem p hq))
      (fun q hq => hsides q (List.mem_cons_of_mem p hq))
    have hsquare := Direction.sign_mul_self (hsides p List.mem_cons_self)
    have hvalue : (px - p.entryPrice) * p.dir.sign * p.volume =
        (p.trade adverse).value mark - adverse * p.volume := by
      change _ = ((mark p.symbol).getD 0 - (p.entryPrice - p.dir.sign * adverse)) * p.dir.sign *
        p.volume - adverse * p.volume
      rw [hpx, Option.getD_some]
      linear_combination -adverse * p.volume * hsquare
    simp only [List.filterMap_cons, hpx, Option.map_some, List.map_cons, List.sum_cons]
    rw [hrest, hvalue]
    change _ = (p.trade adverse).value mark + _ - adverse * (p.volume + _)
    ring

namespace Mirrors

variable {costs : ReplayCostModel ℚ} {exec : MockExecutionAdapter ℚ} {mgr : PositionManager ℚ}
  {g : ReplayBooks} {mark : String → Option ℚ}

/-- The open trades are worth what they are worth without costs, less one adverse fill each. -/
theorem unrealized (h : Mirrors costs exec mgr g)
    (hmarked : ∀ p ∈ mgr.openPositions, (mark p.symbol).isSome) :
    mgr.unrealizedTotal mark =
      g.manager.unrealizedTotal mark - costs.adverse * g.manager.openVolume := by
  have hshared {P : String → Direction → Prop}
      (hp : ∀ p ∈ mgr.openPositions, P p.symbol p.dir) :
      ∀ q ∈ g.manager.openPositions, P q.symbol q.dir := by
    intro q hq
    have htrade := List.mem_map_of_mem (f := Position.trade 0) hq
    rw [← h.trades] at htrade
    obtain ⟨p, hmem, heq⟩ := List.mem_map.mp htrade
    have hsymbol : p.symbol = q.symbol := congrArg OpenTrade.symbol heq
    have hdir : p.dir = q.dir := congrArg OpenTrade.dir heq
    exact hsymbol ▸ hdir ▸ hp p hmem
  have hsides : ∀ p ∈ mgr.openPositions, p.dir ≠ .flat := by
    intro p hp
    have htrade := List.mem_map_of_mem (f := Position.trade costs.adverse) hp
    rw [h.trades] at htrade
    obtain ⟨q, hmem, heq⟩ := List.mem_map.mp htrade
    have hdir : q.dir = p.dir := congrArg OpenTrade.dir heq
    exact hdir ▸ (h.sides q hmem).1
  have hgross := hshared (P := fun symbol _ => (mark symbol).isSome) hmarked
  unfold PositionManager.unrealizedTotal
  rw [sum_rat, sum_rat, unrealized_eq_value hmarked hsides costs.adverse,
    unrealized_eq_value hgross (fun q hq => (h.sides q hq).1) 0, h.trades, zero_mul, sub_zero]
  have hvolume : (g.manager.openPositions.map (Position.trade 0)).map (·.volume) =
      g.manager.openPositions.map (·.volume) := by
    rw [List.map_map]
    rfl
  rw [hvolume]
  rfl

end Mirrors

/-- The account of a replay is that of the same intents executed at their marks, less the adverse
fill and the commission of every lot that was opened and of every lot that was closed. -/
theorem replay_equity_eq_costless {S R : Type*} [SignalEngine S ℚ] [RiskGate R ℚ]
    (hown : OwnSymbols S) (registry : List PortfolioEntry) (signal : S) (risk : R)
    (decision : DecisionEngine ℚ) (cfg : EngineConfig ℚ) (hpolicy : 0 ≤ decision.cfg.minVolume)
    (bars : List (LiveBar ℚ)) :
    let engine := (AutonomousEngine.new registry signal risk
      (MockExecutionAdapter.withCosts cfg.costs) decision cfg).replay bars
    let recorded := (AutonomousEngine.new registry signal risk
      (⟨.withCosts cfg.costs, []⟩ : Recorded (MockExecutionAdapter ℚ) ℚ) decision cfg).replay bars
    let gross := costlessBooks recorded.exec.log
    engine.stats.equity = cfg.startingBalance +
        (gross.manager.realizedPnl + gross.manager.unrealizedTotal engine.marks) -
        (cfg.costs.adverse + cfg.costs.commissionPerLot) * (gross.opened + gross.closed) ∧
      engine.stats.commissionPaid = cfg.costs.commissionPerLot * (gross.opened + gross.closed) ∧
      engine.stats.realizedPnl = gross.manager.realizedPnl - 2 * cfg.costs.adverse * gross.closed -
        cfg.costs.commissionPerLot * (gross.opened + gross.closed) := by
  intro engine recorded gross
  have hplain : recorded.plain = engine := AutonomousEngine.plain_replay bars
  obtain ⟨⟨hmirrors, hmarked, -, hbalance⟩, hrefreshed⟩ := AutonomousEngine.replay_costed hown
    (AutonomousEngine.new_costed registry signal risk decision cfg hpolicy)
    (AutonomousEngine.new_refreshed registry signal risk decision cfg) bars
  have hunrealized := hmirrors.unrealized hmarked
  have hvolume : gross.manager.openVolume = gross.opened - gross.closed := by
    rw [hmirrors.volume]
    ring
  have hcommission : recorded.stats.commissionPaid =
      cfg.costs.commissionPerLot * (gross.opened + gross.closed) := hmirrors.charged
  have hrealized : recorded.positions.realizedPnl =
      gross.manager.realizedPnl - 2 * cfg.costs.adverse * gross.closed := hmirrors.realized
  rw [← hplain]
  refine ⟨?_, hcommission, ?_⟩
  · change recorded.account.equity = cfg.startingBalance +
      (gross.manager.realizedPnl + gross.manager.unrealizedTotal recorded.marks) - _
    rw [hrefreshed, hbalance, hunrealized, hrealized, hvolume]
    change _ + (_ - recorded.stats.commissionPaid) + _ = _
    rw [hcommission]
    ring
  · change recorded.positions.realizedPnl - recorded.stats.commissionPaid = _
    rw [hrealized, hcommission]

def costedStart {E : Type} (exec : E) :
    AutonomousEngine (MomentumStubSignal ℚ) (PermissiveRiskGate ℚ) E ℚ :=
  .new [sampleWatch] (.new 1) ⟨⟩ exec (.new .default) sampleEngineConfig

def fallingBars : List (LiveBar ℚ) :=
  [sampleQuoteBar "EURUSD" 100, sampleQuoteBar "EURUSD" 101, sampleQuoteBar "EURUSD" 99]

/-- One long trade that is stopped out: its lots pay the commission twice. -/
theorem stoppedReplay_equity :
    let engine := (costedStart (MockExecutionAdapter.withCosts sampleEngineConfig.costs)).replay fallingBars
    let recorded := (costedStart
      (⟨.withCosts sampleEngineConfig.costs, []⟩ : Recorded (MockExecutionAdapter ℚ) ℚ)).replay fallingBars
    let gross := costlessBooks recorded.exec.log
    engine.stats.positionsClosed = 1 ∧
      engine.stats.equity = 10000 +
          (gross.manager.realizedPnl + gross.manager.unrealizedTotal engine.marks) -
        (1 + 0 + 7) * (gross.opened + gross.closed) := by
  intro engine recorded gross
  refine ⟨by decide +kernel, ?_⟩
  have hpolicy : 0 ≤ (DecisionEngine.new (.default : DecisionConfig ℚ)).cfg.minVolume := by
    decide +kernel
  exact (replay_equity_eq_costless MomentumStubSignal.ownSymbols [sampleWatch] (.new 1)
    (⟨⟩ : PermissiveRiskGate ℚ) (.new .default) sampleEngineConfig hpolicy fallingBars).1

end Neoethos
