import Mathlib.Data.List.Nodup
import Neoethos.AutonomousEngine

namespace Neoethos

open FloatOps (lit lt le)

namespace PositionManager

section Update

variable {F : Type*} {id : String} {change : Position F → Option (Position F)}

/-- The change of an open position takes it away or keeps its symbol. -/
theorem update_symbols (hchange : ∀ p q, change p = some q → q.symbol = p.symbol)
    (positions : List (Position F)) :
    ((update id change positions).map (·.symbol)).Sublist (positions.map (·.symbol)) := by
  induction positions with
  | nil => exact List.Sublist.refl _
  | cons p rest ih =>
    unfold update
    split
    next =>
      cases hq : change p with
      | none => exact List.sublist_cons_self _ _
      | some q =>
        rw [Option.toList_some, List.singleton_append, List.map_cons, List.map_cons,
          hchange p q hq]
    next => exact ih.cons_cons _

theorem length_update_some (hchange : ∀ p, (change p).isSome) (positions : List (Position F)) :
    (update id change positions).length = positions.length := by
  induction positions with
  | nil => rfl
  | cons p rest ih =>
    unfold update
    split
    next =>
      obtain ⟨q, hq⟩ := Option.isSome_iff_exists.mp (hchange p)
      rw [hq, Option.toList_some, List.singleton_append, List.length_cons, List.length_cons]
    next => rw [List.length_cons, List.length_cons, ih]

theorem length_update_none {positions : List (Position F)}
    (hfound : positions.find? (·.id = id) ≠ none) :
    (update id (fun _ => none) positions).length + 1 = positions.length := by
  induction positions with
  | nil => exact absurd rfl hfound
  | cons p rest ih =>
    unfold update
    split
    next => rfl
    next hne =>
      rw [List.find?_cons_of_neg (by simpa using hne)] at hfound
      rw [List.length_cons, List.length_cons, ih hfound]

/-- What an exit does to the books: the symbols can only get fewer, and what is gone is counted. -/
structure Shrinks (mgr mgr' : PositionManager F) : Prop where
  symbols : (mgr'.openPositions.map (·.symbol)).Sublist (mgr.openPositions.map (·.symbol))
  total : mgr'.closedCount + mgr'.openPositions.length =
    mgr.closedCount + mgr.openPositions.length
  opened : mgr'.openedCount = mgr.openedCount
  closed : mgr'.closedCount ≤ mgr.closedCount + 1

theorem Shrinks.refl (mgr : PositionManager F) : mgr.Shrinks mgr :=
  ⟨List.Sublist.refl _, rfl, rfl, Nat.le_succ _⟩

end Update

variable {F : Type*} [FloatOps F]

/-- An exit that is filled takes the first position with the id, as a whole or in part. -/
theorem apply_close_found {mgr : PositionManager F} {positionId : String} {lots : Option F}
    {report : ExecReport F} {p : Position F} {closeVol : F} {whole : Bool}
    (hfilled : report.status = .filled)
    (hfind : mgr.openPositions.find? (·.id = positionId) = some p)
    (hvol : FloatOps.min (lots.getD p.volume) p.volume = closeVol)
    (hwhole : (lots.isNone || le p.volume closeVol) = whole) (reason : CloseReason) :
    mgr.apply (.close positionId lots reason) report =
      { mgr with
        realizedPnl := mgr.realizedPnl +
          (report.fillPrice.getD p.entryPrice - p.entryPrice) * p.dir.sign * closeVol
        openPositions := update positionId (fun p =>
          if whole then none else some { p with volume := p.volume - closeVol }) mgr.openPositions
        closedCount := if whole then mgr.closedCount + 1 else mgr.closedCount } := by
  subst hvol hwhole
  unfold apply
  rw [if_neg (not_not.mpr hfilled)]
  simp only [hfind]

theorem apply_close_missing {mgr : PositionManager F} {positionId : String} {lots : Option F}
    (hfind : mgr.openPositions.find? (·.id = positionId) = none) (reason : CloseReason)
    (report : ExecReport F) : mgr.apply (.close positionId lots reason) report = mgr := by
  unfold apply
  split
  next => rfl
  next => simp only [hfind]

theorem apply_close_shrinks (mgr : PositionManager F) (positionId : String) (lots : Option F)
    (reason : CloseReason) (report : ExecReport F) :
    mgr.Shrinks (mgr.apply (.close positionId lots reason) report) := by
  by_cases hfilled : report.status = .filled
  case neg =>
    have hsame : mgr.apply (.close positionId lots reason) report = mgr := if_pos hfilled
    rw [hsame]
    exact .refl mgr
  cases hfind : mgr.openPositions.find? (·.id = positionId) with
  | none =>
    rw [apply_close_missing hfind]
    exact .refl mgr
  | some p =>
    obtain ⟨closeVol, hvol⟩ : ∃ v, FloatOps.min (lots.getD p.volume) p.volume = v := ⟨_, rfl⟩
    cases hwhole : (lots.isNone || le p.volume closeVol) with
    | true =>
      rw [apply_close_found hfilled hfind hvol hwhole]
      have hfound : mgr.openPositions.find? (·.id = positionId) ≠ none := by simp [hfind]
      have hlength := length_update_none hfound
      refine ⟨update_symbols (by simp) mgr.openPositions, ?_, rfl, le_refl _⟩
      change mgr.closedCount + 1 + _ = _
      simp only [↓reduceIte]
      omega
    | false =>
      rw [apply_close_found hfilled hfind hvol hwhole]
      have hlength : (update positionId (fun q =>
          some { q with volume := q.volume - closeVol }) mgr.openPositions).length =
          mgr.openPositions.length := length_update_some (fun q => rfl) mgr.openPositions
      refine ⟨update_symbols (fun q r hr => ?_) mgr.openPositions,
        congrArg (mgr.closedCount + ·) hlength, rfl, Nat.le_succ _⟩
      rw [← Option.some.inj hr]

theorem manageOne_symbol (mgr : PositionManager F) (bar : LiveBar F) (p : Position F) :
    (mgr.manageOne bar p).1.symbol = p.symbol := by
  unfold manageOne
  split
  next => rfl
  next =>
    cases mgr.trailing with
    | none => rfl
    | some policy =>
      dsimp only
      unfold Position.ratchetTrail
      split
      next => rfl
      next =>
        split
        next => rfl
        next => rfl

/-- The exits of a bar are decided before any of them is executed. -/
theorem manageOnBar_symbols (mgr : PositionManager F) (bar : LiveBar F) :
    (mgr.manageOnBar bar).1.openPositions.map (·.symbol) = mgr.openPositions.map (·.symbol) := by
  unfold manageOnBar
  simp only [List.map_map]
  refine List.map_congr_left fun p _ => ?_
  simp only [Function.comp]
  split
  next => exact mgr.manageOne_symbol bar p
  next => rfl

theorem manageOnBar_closes {mgr : PositionManager F} {bar : LiveBar F}
    {intent : TradeIntent F} {price : F} (h : (intent, price) ∈ (mgr.manageOnBar bar).2) :
    ∃ id reason, intent = .close id none reason := by
  unfold manageOnBar at h
  obtain ⟨⟨p, exit⟩, -, hexit⟩ := List.mem_filterMap.mp h
  obtain ⟨⟨reason, level⟩, -, heq⟩ := Option.map_eq_some_iff.mp hexit
  exact ⟨p.id, reason, (Prod.mk.inj heq).1.symm⟩

end PositionManager

theorem DecisionEngine.bracket_cfg {F : Type*} [FloatOps F] (engine : DecisionEngine F)
    (signal : Signal F) (dir : Direction) (mark : F) :
    (engine.bracket signal dir mark).2.cfg = engine.cfg := by
  have hdistances : (engine.distances signal mark).2.cfg = engine.cfg := by
    unfold distances
    split
    next => rfl
    next => rfl
  unfold bracket
  split
  next => rfl
  next => exact hdistances

theorem DecisionEngine.size_bracket {F : Type*} [FloatOps F] (engine : DecisionEngine F)
    (signal : Signal F) (dir : Direction) (mark confidence : F) :
    (engine.bracket signal dir mark).2.size confidence = engine.size confidence := by
  unfold size
  rw [bracket_cfg]

/-- What the decision engine can ask for: an entry into a symbol that is not held, on the side of
the signal, or the whole exit from the first position of the symbol. -/
theorem DecisionEngine.intent_cases {F : Type*} [FloatOps F] {engine : DecisionEngine F} {signal : Signal F}
    {held : List (Position F)} {mark : F} {intent : TradeIntent F}
    (h : (engine.intent signal held mark).1 = some intent) :
    (∃ sl tp, intent = .open signal.symbol signal.dir (engine.size signal.confidence) sl tp
        signal.source ∧ signal.dir ≠ .flat ∧ ∀ p ∈ held, p.symbol ≠ signal.symbol) ∨
      ∃ p ∈ held, p.symbol = signal.symbol ∧ intent = .close p.id none .signal := by
  cases hfind : held.find? (·.symbol = signal.symbol) with
  | some p =>
    have hheld : p ∈ held := List.mem_of_find?_eq_some hfind
    have hsymbol : p.symbol = signal.symbol := by simpa using List.find?_some hfind
    refine .inr ⟨p, hheld, hsymbol, ?_⟩
    unfold DecisionEngine.intent at h
    rw [hfind] at h
    cases hdir : signal.dir with
    | flat =>
      rw [hdir] at h
      exact (Option.some.inj (Option.ite_none_right_eq_some.mp h).2).symm
    | long =>
      rw [hdir] at h
      exact (Option.some.inj (Option.ite_none_right_eq_some.mp h).2).symm
    | short =>
      rw [hdir] at h
      exact (Option.some.inj (Option.ite_none_right_eq_some.mp h).2).symm
  | none =>
    have hnone : ∀ p ∈ held, p.symbol ≠ signal.symbol := by
      simpa using List.find?_eq_none.mp hfind
    left
    unfold DecisionEngine.intent at h
    rw [hfind] at h
    have hside : signal.dir ≠ .flat := by
      intro hflat
      rw [hflat] at h
      cases h
    cases hdir : signal.dir with
    | flat => exact absurd hdir hside
    | long =>
      rw [hdir] at h
      obtain ⟨⟨sl, tp⟩, -, heq⟩ := Option.map_eq_some_iff.mp h
      refine ⟨some sl, some tp, ?_, by simp, hnone⟩
      rw [← heq, ← engine.size_bracket signal .long mark]
    | short =>
      rw [hdir] at h
      obtain ⟨⟨sl, tp⟩, -, heq⟩ := Option.map_eq_some_iff.mp h
      refine ⟨some sl, some tp, ?_, by simp, hnone⟩
      rw [← heq, ← engine.size_bracket signal .short mark]

/-- A gate that lets no entry through while so many positions are open. -/
def Caps {R F : Type*} [RiskGate R F] (risk : R) (cap : Nat) : Prop :=
  ∀ symbol dir (volume : F) sl tp source (account : AccountSnapshot F),
    cap ≤ account.openPositions →
      RiskGate.check risk (.open symbol dir volume sl tp source) account ≠ .ok ()

theorem MaxOpenPositionsGate.caps {F : Type*} (gate : MaxOpenPositionsGate F) :
    Caps gate gate.maxOpen := by
  intro symbol dir volume sl tp source account hfull
  have hrefused : RiskGate.check gate (.open symbol dir volume sl tp source) account =
      .error .exposureCap := if_pos hfull
  rw [hrefused]
  simp

def OwnSymbols (S : Type*) {F : Type*} [SignalEngine S F] : Prop :=
  ∀ (s : S) (entry : PortfolioEntry) (window : List (LiveBar F)),
    (SignalEngine.evaluate s entry window).1.symbol = entry.symbol

namespace AutonomousEngine

section Discipline

variable {S R E F : Type*} [RiskGate R F]

structure Disciplined (risk : R) (engine : AutonomousEngine S R E F) : Prop where
  gate : engine.risk = risk
  symbols : (engine.positions.openPositions.map (·.symbol)).Nodup
  counts : engine.positions.openedCount =
    engine.positions.closedCount + engine.positions.openPositions.length
  filled : engine.positions.openedCount + engine.positions.closedCount ≤ engine.executed
  emitted : engine.executed ≤ engine.intents
  entries : engine.positions.openedCount + engine.blocked ≤ engine.signals
  capped : ∀ cap, Caps risk cap → engine.positions.openPositions.length ≤ cap

/-- The books can only have got smaller, and every counter that moved has moved up. -/
theorem Disciplined.of_shrinks {risk : R} {engine engine' : AutonomousEngine S R E F} (h : Disciplined risk engine)
    (hshrinks : engine.positions.Shrinks engine'.positions)
    (hexecuted : engine.executed + engine'.positions.closedCount ≤
      engine'.executed + engine.positions.closedCount)
    (hintents : engine'.executed + engine.intents ≤ engine'.intents + engine.executed)
    (hsignals : engine'.blocked + engine.signals ≤ engine'.signals + engine.blocked)
    (hrisk : engine'.risk = engine.risk) : Disciplined risk engine' := by
  obtain ⟨hgate, hsymbols, hcounts, hfilled, hemitted, hentries, hcapped⟩ := h
  obtain ⟨hfewer, htotal, hopened, -⟩ := hshrinks
  have hlength := hfewer.length_le
  rw [List.length_map, List.length_map] at hlength
  constructor
  case gate => exact hrisk.trans hgate
  case symbols => exact hsymbols.sublist hfewer
  case capped => exact fun cap hcaps => hlength.trans (hcapped cap hcaps)
  all_goals omega

variable {risk : R}

theorem observe_disciplined {engine : AutonomousEngine S R E F} (h : Disciplined risk engine) (bar : LiveBar F) :
    Disciplined risk (engine.observe bar) :=
  h.of_shrinks ⟨List.Sublist.refl _, rfl, rfl, Nat.le_succ _⟩ (le_refl _) (Nat.add_comm _ _).le
    (Nat.add_comm _ _).le rfl

theorem new_disciplined [FloatOps F] (registry : List PortfolioEntry) (signal : S) (risk : R) (exec : E)
    (decision : DecisionEngine F) (cfg : EngineConfig F) :
    Disciplined risk (new registry signal risk exec decision cfg) := by
  constructor
  case gate => rfl
  case symbols => exact List.nodup_nil
  case counts => rfl
  case filled => exact le_refl 0
  case emitted => exact le_refl 0
  case entries => exact le_refl 0
  case capped => exact fun cap _ => Nat.zero_le cap

end Discipline

variable {S R E F : Type*} [FloatOps F]

section Execution

variable [ExecutionAdapter E F]

/-- An intent that is executed reaches the books when its report says that it was filled. -/
theorem executeIntent_cases (engine : AutonomousEngine S R E F) (intent : TradeIntent F)
    (mark : F) :
    ∃ exec executed positions,
      engine.executeIntent intent mark = { engine with
        intents := engine.intents + 1
        exec := exec
        executed := executed
        positions := positions } ∧
      (executed = engine.executed ∧ positions = engine.positions ∨
        executed = engine.executed + 1 ∧
          ∃ report, report.status = .filled ∧ positions = engine.positions.apply intent report) := by
  cases hanswer : ExecutionAdapter.execute engine.exec intent mark with
  | mk exec answer =>
    cases answer with
    | none =>
      refine ⟨exec, engine.executed, engine.positions, ?_, .inl ⟨rfl, rfl⟩⟩
      simp only [executeIntent, hanswer]
    | some report =>
      by_cases hfilled : report.status = .filled
      · refine ⟨exec, engine.executed + 1, engine.positions.apply intent report, ?_,
          .inr ⟨rfl, report, hfilled, rfl⟩⟩
        simp only [executeIntent, hanswer, if_pos hfilled]
      · refine ⟨exec, engine.executed, engine.positions.apply intent report, ?_,
          .inl ⟨rfl, if_pos hfilled⟩⟩
        simp only [executeIntent, hanswer, if_neg hfilled]

variable [RiskGate R F] {risk : R} {engine : AutonomousEngine S R E F}

theorem executeIntent_close (h : Disciplined risk engine) (id : String) (reason : CloseReason)
    (mark : F) : Disciplined risk (engine.executeIntent (.close id none reason) mark) := by
  obtain ⟨exec, executed, positions, hengine, hbooks⟩ :=
    engine.executeIntent_cases (.close id none reason) mark
  rw [hengine]
  rcases hbooks with ⟨rfl, rfl⟩ | ⟨rfl, report, -, rfl⟩
  · exact h.of_shrinks (.refl _) (le_refl _) (by simp only; omega) (by simp only; omega) rfl
  · have hshrinks := engine.positions.apply_close_shrinks id none reason report
    have hclosed := hshrinks.closed
    exact h.of_shrinks hshrinks (by simp only; omega) (by simp only; omega)
      (by simp only; omega) rfl

theorem executeAll_closes {exits : List (TradeIntent F × F)}
    (hcloses : ∀ exit ∈ exits, ∃ id reason, exit.1 = .close id none reason)
    (h : Disciplined risk engine) : Disciplined risk (engine.executeAll exits) := by
  induction exits generalizing engine with
  | nil => exact h
  | cons exit exits ih =>
    obtain ⟨intent, price⟩ := exit
    obtain ⟨id, reason, rfl⟩ := hcloses _ List.mem_cons_self
    exact ih (fun x hx => hcloses x (List.mem_cons_of_mem _ hx))
      (executeIntent_close h id reason price)

theorem refreshAccount_disciplined (h : Disciplined risk engine) :
    Disciplined risk engine.refreshAccount :=
  h.of_shrinks (.refl _) (le_refl _) (Nat.add_comm _ _).le (Nat.add_comm _ _).le rfl

theorem manage_disciplined (h : Disciplined risk engine) (bar : LiveBar F) :
    Disciplined risk (engine.manage bar) := by
  have hmanaged : Disciplined risk
      { engine with positions := (engine.positions.manageOnBar bar).1 } := by
    refine h.of_shrinks ⟨?_, ?_, rfl, Nat.le_succ _⟩ (le_refl _) (Nat.add_comm _ _).le
      (Nat.add_comm _ _).le rfl
    · rw [PositionManager.manageOnBar_symbols]
    · have hlength := congrArg List.length (engine.positions.manageOnBar_symbols bar)
      rw [List.length_map, List.length_map] at hlength
      exact congrArg (engine.positions.closedCount + ·) hlength
  exact refreshAccount_disciplined (executeAll_closes
    (fun exit hexit => PositionManager.manageOnBar_closes hexit) hmanaged)

/-- An entry into a symbol that is not held keeps the discipline: the signal that it came from
makes room for it, and a gate with a cap has seen how many positions are open. -/
theorem executeIntent_open (h : Disciplined risk engine) {symbol : String} {dir : Direction} {volume : F}
    {sl tp : Option F} {source : SignalSource} (mark : F)
    (hfree : ∀ p ∈ engine.positions.openPositions, p.symbol ≠ symbol)
    (hroom : engine.positions.openedCount + engine.blocked < engine.signals)
    (hcap : ∀ cap, Caps risk cap → engine.positions.openPositions.length < cap) :
    Disciplined risk (engine.executeIntent (.open symbol dir volume sl tp source) mark) := by
  obtain ⟨exec, executed, positions, hengine, hbooks⟩ :=
    engine.executeIntent_cases (.open symbol dir volume sl tp source) mark
  rw [hengine]
  rcases hbooks with ⟨rfl, rfl⟩ | ⟨rfl, report, hfilled, rfl⟩
  · exact h.of_shrinks (.refl _) (le_refl _) (by simp only; omega) (by simp only; omega) rfl
  · obtain ⟨hgate, hsymbols, hcounts, hfill, hemitted, -, -⟩ := h
    have hnot : ¬report.status ≠ .filled := not_not.mpr hfilled
    constructor
    case gate => exact hgate
    case symbols =>
      simp only [PositionManager.apply, if_neg hnot, List.map_append, List.map_cons, List.map_nil]
      refine hsymbols.append (List.nodup_singleton symbol) (List.disjoint_singleton.mpr ?_)
      intro hmem
      obtain ⟨p, hp, hsymbol⟩ := List.mem_map.mp hmem
      exact hfree p hp hsymbol
    case capped =>
      intro cap hcaps
      simp only [PositionManager.apply, if_neg hnot, List.length_append, List.length_singleton]
      exact hcap cap hcaps
    all_goals
      simp only [PositionManager.apply, if_neg hnot, List.length_append, List.length_singleton]
      omega

end Execution

variable [SignalEngine S F] [RiskGate R F] [ExecutionAdapter E F]
variable {risk : R} {engine : AutonomousEngine S R E F}

theorem actOnSignal_disciplined (hown : OwnSymbols S) (h : Disciplined risk engine)
    (haccount : engine.account.openPositions = engine.positions.openPositions.length)
    (bar : LiveBar F) : Disciplined risk (engine.actOnSignal bar) := by
  unfold actOnSignal
  cases hentry : entryFor engine.registry bar.symbol bar.tf with
  | none => exact h
  | some entry =>
    have hsymbol : entry.symbol = bar.symbol := by
      have hfound := List.find?_some hentry
      exact (of_decide_eq_true hfound).1
    simp only
    apply refreshAccount_disciplined
    generalize hsignal : SignalEngine.evaluate engine.signal entry
      (engine.windows (bar.symbol, bar.tf)) = answer
    obtain ⟨signal, source⟩ := answer
    have hown := hown engine.signal entry (engine.windows (bar.symbol, bar.tf))
    rw [hsignal] at hown
    generalize hdecision : engine.decision.intent signal
      (engine.positions.positionsFor bar.symbol) bar.c = decision
    obtain ⟨decided, policy⟩ := decision
    have hevaluated : Disciplined risk { engine with
        signals := engine.signals + 1, signal := source, decision := policy } :=
      h.of_shrinks (.refl _) (le_refl _) (Nat.add_comm _ _).le (by simp only; omega) rfl
    unfold executeDecided
    cases decided with
    | none => exact hevaluated
    | some intent =>
      simp only
      cases hcheck : RiskGate.check engine.risk intent engine.account with
      | error tier =>
        exact h.of_shrinks (.refl _) (le_refl _) (Nat.add_comm _ _).le (by simp only; omega) rfl
      | ok passed =>
        rcases DecisionEngine.intent_cases (congrArg Prod.fst hdecision) with
          ⟨sl, tp, rfl, -, hfree⟩ | ⟨p, -, -, rfl⟩
        · have hentries := h.entries
          refine executeIntent_open hevaluated bar.c ?_ (by simp only; omega) ?_
          · intro p hp hsame
            refine hfree p (List.mem_filter.mpr ⟨hp, ?_⟩) hsame
            rw [decide_eq_true_iff, hsame, hown, hsymbol]
          · intro cap hcaps
            by_contra hfull
            rw [h.gate] at hcheck
            exact hcaps _ _ _ _ _ _ engine.account (haccount ▸ not_lt.mp hfull) hcheck
        · exact executeIntent_close hevaluated p.id .signal bar.c

theorem onBar_disciplined (hown : OwnSymbols S) (h : Disciplined risk engine) (bar : LiveBar F) :
    Disciplined risk (engine.onBar bar) :=
  actOnSignal_disciplined hown (manage_disciplined (observe_disciplined h bar) bar) rfl bar

theorem replay_disciplined (hown : OwnSymbols S) (h : Disciplined risk engine)
    (bars : List (LiveBar F)) : Disciplined risk (engine.replay bars) := by
  induction bars generalizing engine with
  | nil => exact h
  | cons bar bars ih => exact ih (onBar_disciplined hown h bar)

end AutonomousEngine

/-- Whatever the signals for a symbol, the gate and the execution do, a replay never holds a symbol
twice, its counters add up, and a gate with a cap keeps its cap. -/
theorem replay_keeps_discipline {S R E F : Type*} [FloatOps F] [SignalEngine S F] [RiskGate R F]
    [ExecutionAdapter E F] (hown : OwnSymbols S) (registry : List PortfolioEntry) (signal : S)
    (risk : R) (exec : E) (decision : DecisionEngine F) (cfg : EngineConfig F)
    (bars : List (LiveBar F)) :
    let engine := (AutonomousEngine.new registry signal risk exec decision cfg).replay bars
    (engine.positions.openPositions.map (·.symbol)).Nodup ∧
      engine.stats.positionsOpened = engine.stats.positionsClosed + engine.stats.openPositions ∧
      engine.stats.positionsOpened + engine.stats.positionsClosed ≤ engine.stats.intentsExecuted ∧
      engine.stats.intentsExecuted ≤ engine.stats.intentsEmitted ∧
      engine.stats.positionsOpened + engine.stats.intentsBlocked ≤ engine.stats.signalsEvaluated ∧
      ∀ cap, Caps risk cap → engine.stats.openPositions ≤ cap := by
  have h : AutonomousEngine.Disciplined risk
      ((AutonomousEngine.new registry signal risk exec decision cfg).replay bars) :=
    AutonomousEngine.replay_disciplined hown
      (AutonomousEngine.new_disciplined registry signal risk exec decision cfg) bars
  exact ⟨h.symbols, h.counts, h.filled, h.emitted, h.entries, h.capped⟩

def sampleWatch : PortfolioEntry :=
  ⟨"EURUSD", "M1", ["H1"], .gene "stub", .propFirm⟩

def sampleEngineConfig : EngineConfig ℚ := ⟨10000, 2, ⟨1, 0, 7⟩, some 3, none⟩

def sampleQuoteBar (symbol : String) (close : ℚ) : LiveBar ℚ :=
  ⟨symbol, "m1", close, close, close, close, 0⟩

theorem MomentumStubSignal.ownSymbols {F : Type*} [FloatOps F] :
    OwnSymbols (MomentumStubSignal F) := fun _ _ _ => rfl

def cappedEngine :
    AutonomousEngine (MomentumStubSignal ℚ) (MaxOpenPositionsGate ℚ) (MockExecutionAdapter ℚ) ℚ :=
  .new [sampleWatch, { sampleWatch with symbol := "GBPUSD" }] (.new 1) ⟨1⟩
    (.withCosts sampleEngineConfig.costs) (.new .default) sampleEngineConfig

def risingBars : List (LiveBar ℚ) :=
  [sampleQuoteBar "EURUSD" 100, sampleQuoteBar "GBPUSD" 100, sampleQuoteBar "EURUSD" 101,
    sampleQuoteBar "GBPUSD" 101]

/-- Two rising symbols under a cap of one position: the second entry is blocked. -/
theorem cappedReplay_keeps_discipline :
    (cappedEngine.replay risingBars).stats.intentsBlocked = 1 ∧
      (cappedEngine.replay risingBars).stats.openPositions ≤ 1 := by
  refine ⟨by decide +kernel, ?_⟩
  have h := replay_keeps_discipline MomentumStubSignal.ownSymbols cappedEngine.registry
    cappedEngine.signal cappedEngine.risk cappedEngine.exec cappedEngine.decision
    sampleEngineConfig risingBars
  exact h.2.2.2.2.2 1 (MaxOpenPositionsGate.caps cappedEngine.risk)

end Neoethos
