import Neoethos.ExitParity

namespace Neoethos

open FloatOps (lit lt le)

/-- A bar of the position's symbol, and the intents that are executed after it. -/
structure ReplayBar where
  bar : LiveBar ℚ
  executed : List (TradeIntent ℚ × ExecReport ℚ)

/-- The close that `manage_on_bar` asks for one position. -/
def closeOf (id : String) : List (TradeIntent ℚ × ℚ) → Option (CloseReason × ℚ)
  | [] => none
  | (.close positionId _ reason, price) :: rest =>
    if positionId = id then some (reason, price) else closeOf id rest
  | _ :: rest => closeOf id rest

def PositionManager.applyAll (mgr : PositionManager ℚ)
    (executed : List (TradeIntent ℚ × ExecReport ℚ)) : PositionManager ℚ :=
  executed.foldl (fun mgr x => mgr.apply x.1 x.2) mgr

/-- The replay bar by bar, from a position opened on bar `e`, as `on_bar` drives it. -/
def PositionManager.follow (id : String) (e : Nat) :
    PositionManager ℚ → Nat → List ReplayBar → Followed
  | mgr, _, [] => .stillOpen ((mgr.openPositions.find? (·.id = id)).bind (·.effectiveSl))
  | mgr, n, next :: rest =>
    let (managed, closes) := (mgr.setBar (e + n)).manageOnBar next.bar
    match closeOf id closes with
    | some (reason, price) => .closed n reason price
    | none =>
      follow id e (managed.applyAll next.executed) (n + 1) rest

def spares (id : String) : TradeIntent ℚ × ExecReport ℚ → Prop
  | (.open .., report) => report.positionId ≠ some id
  | (.close positionId .., _) => positionId ≠ id
  | (.amend positionId .., _) => positionId ≠ id
  | (.cancel _, _) => True

namespace PositionManager

variable {mgr : PositionManager ℚ} {id : String}

structure Holds (id : String) (p : Position ℚ) (mgr : PositionManager ℚ) : Prop where
  only : mgr.openPositions.filter (·.id = id) = [p]
  fresh : ∀ k, mgr.nextId < k → id ≠ s!"sim-{k}"

/-- What `manage_on_bar` does with each position of the books. -/
def managed (mgr : PositionManager ℚ) (bar : LiveBar ℚ) (p : Position ℚ) :
    Position ℚ × Option (CloseReason × ℚ) :=
  if p.symbol = bar.symbol then mgr.manageOne bar p else (p, none)

theorem managed_id (bar : LiveBar ℚ) (p : Position ℚ) : (mgr.managed bar p).1.id = p.id := by
  unfold managed
  split
  next =>
    obtain ⟨trailPx, htrail⟩ := mgr.manageOne_trail bar p
    rw [htrail]
  next => rfl

theorem filter_managed (bar : LiveBar ℚ) (positions : List (Position ℚ)) :
    ((positions.map (mgr.managed bar)).map (·.1)).filter (·.id = id) =
      (positions.filter (·.id = id)).map fun p => (mgr.managed bar p).1 := by
  rw [List.map_map, List.filter_map]
  refine congrArg (List.map _) (List.filter_congr fun p _ => ?_)
  simp only [Function.comp, managed_id]

theorem closeOf_managed (bar : LiveBar ℚ) (positions : List (Position ℚ)) :
    closeOf id ((positions.map (mgr.managed bar)).filterMap fun (p, exit) =>
        exit.map fun (reason, price) => (TradeIntent.close p.id none reason, price)) =
      ((positions.filter (·.id = id)).filterMap fun p => (mgr.managed bar p).2).head? := by
  induction positions with
  | nil => rfl
  | cons p rest ih =>
    have hid := mgr.managed_id bar p
    by_cases hp : p.id = id
    · cases hexit : (mgr.managed bar p).2 with
      | none => simpa [hp, hexit] using ih
      | some exit => simp [hp, hexit, hid, closeOf]
    · cases hexit : (mgr.managed bar p).2 with
      | none => simpa [hp, hexit] using ih
      | some exit => simpa [hp, hexit, hid, closeOf] using ih

theorem update_filter {change : Position ℚ → Option (Position ℚ)}
    (hchange : ∀ p q, change p = some q → q.id = p.id) {other : String} (hne : other ≠ id)
    (positions : List (Position ℚ)) :
    (update other change positions).filter (·.id = id) = positions.filter (·.id = id) := by
  induction positions with
  | nil => rfl
  | cons p rest ih =>
    unfold update
    by_cases hp : p.id = other
    · have hpid : p.id ≠ id := by
        rw [hp]
        exact hne
      rw [if_pos hp, List.filter_append, List.filter_cons_of_neg (by simpa using hpid)]
      cases hq : change p with
      | none => rfl
      | some q =>
        have hqid : q.id ≠ id := by
          rw [hchange p q hq]
          exact hpid
        simp [hqid]
    · rw [if_neg hp, List.filter_cons, List.filter_cons, ih]

/-- An intent about another position leaves this one, and the policies. -/
theorem apply_spares {p : Position ℚ} (h : Holds id p mgr) {intent : TradeIntent ℚ}
    {report : ExecReport ℚ} (hspares : spares id (intent, report)) :
    Holds id p (mgr.apply intent report) ∧
      (mgr.apply intent report).maxHoldBars = mgr.maxHoldBars ∧
      (mgr.apply intent report).trailing = mgr.trailing := by
  unfold apply
  split
  next => exact ⟨h, rfl, rfl⟩
  next =>
    cases intent with
    | «open» symbol dir volume sl tp source =>
      refine ⟨⟨?_, ?_⟩, rfl, rfl⟩
      · dsimp only
        rw [List.filter_append, h.only]
        have hid : report.positionId.getD s!"sim-{mgr.nextId + 1}" ≠ id := by
          cases hreport : report.positionId with
          | none => exact (h.fresh _ (Nat.lt_succ_self _)).symm
          | some other =>
            intro hother
            exact hspares (hreport.trans (congrArg some hother))
        rw [List.filter_cons_of_neg (by simpa only [decide_eq_true_eq] using hid)]
        rfl
      · intro k hk
        refine h.fresh k (lt_of_le_of_lt ?_ hk)
        dsimp only
        split <;> omega
    | close positionId volume reason =>
      dsimp only
      split
      next => exact ⟨h, rfl, rfl⟩
      next p' _ =>
        refine ⟨⟨?_, h.fresh⟩, rfl, rfl⟩
        refine (update_filter (fun q r hr => ?_) hspares _).trans h.only
        split at hr
        next => cases hr
        next =>
          obtain rfl := Option.some.inj hr
          rfl
    | amend positionId newSl newTp =>
      refine ⟨⟨?_, h.fresh⟩, rfl, rfl⟩
      refine (update_filter (fun q r hr => ?_) hspares _).trans h.only
      obtain rfl := Option.some.inj hr
      rfl
    | cancel orderId => exact ⟨h, rfl, rfl⟩

theorem applyAll_spares {p : Position ℚ} {executed : List (TradeIntent ℚ × ExecReport ℚ)}
    (h : Holds id p mgr) (hspares : ∀ x ∈ executed, spares id x) :
    Holds id p (mgr.applyAll executed) ∧
      (mgr.applyAll executed).maxHoldBars = mgr.maxHoldBars ∧
      (mgr.applyAll executed).trailing = mgr.trailing := by
  induction executed generalizing mgr with
  | nil => exact ⟨h, rfl, rfl⟩
  | cons first rest ih =>
    obtain ⟨hnow, hhold, htrailing⟩ := apply_spares h (hspares first List.mem_cons_self)
    obtain ⟨hlast, hhold', htrailing'⟩ := ih hnow fun x hx => hspares x (List.mem_cons_of_mem _ hx)
    exact ⟨hlast, hhold'.trans hhold, htrailing'.trans htrailing⟩

theorem manageOnBar_holds {p : Position ℚ} (h : Holds id p mgr) {bar : LiveBar ℚ}
    (hsymbol : bar.symbol = p.symbol) :
    closeOf id (mgr.manageOnBar bar).2 = (mgr.manageOne bar p).2 ∧
      Holds id (mgr.manageOne bar p).1 (mgr.manageOnBar bar).1 := by
  have hmanaged : mgr.managed bar p = mgr.manageOne bar p := if_pos hsymbol.symm
  refine ⟨?_, ?_, h.fresh⟩
  · refine (closeOf_managed bar mgr.openPositions).trans ?_
    rw [h.only, List.filterMap_cons, hmanaged]
    cases (mgr.manageOne bar p).2 with
    | none => rfl
    | some exit => rfl
  · refine (filter_managed bar mgr.openPositions).trans ?_
    rw [h.only, List.map_cons, hmanaged]
    rfl

/-- The replay and the evaluator from a bar on which they agree. -/
theorem follow_eq {entry : BracketedEntry} {settings : BacktestSettings ℚ} {e n : Nat}
    {trailPx : ℚ} {p : Position ℚ} {bars : List ReplayBar}
    (hsame : SamePosition entry settings trailPx p)
    (hrules : SameRules entry settings mgr.maxHoldBars mgr.trailing) (hholds : Holds id p mgr)
    (hopened : p.openedAtBar = e)
    (hbars : ∀ b ∈ bars, b.bar.symbol = p.symbol ∧ 0 < b.bar.l ∧ ∀ x ∈ b.executed, spares id x) :
    mgr.follow id e n bars = entry.followEvaluator settings trailPx n (bars.map (·.bar)) := by
  induction bars generalizing mgr p trailPx n with
  | nil =>
    unfold follow BracketedEntry.followEvaluator
    rw [← List.head?_filter, hholds.only]
    exact congrArg Followed.stillOpen hsame.effectiveSl_eq
  | cons next rest ih =>
    obtain ⟨hsymbol, hlow, hspares⟩ := hbars next List.mem_cons_self
    have hnow : Holds id p (mgr.setBar (e + n)) := ⟨hholds.only, hholds.fresh⟩
    have hrulesNow : SameRules entry settings (mgr.setBar (e + n)).maxHoldBars
        (mgr.setBar (e + n)).trailing := hrules
    have hheld : (mgr.setBar (e + n)).currentBar - p.openedAtBar = n := by
      rw [hopened]
      exact Nat.add_sub_cancel_left e n
    obtain ⟨hcloseOf, hafter⟩ := manageOnBar_holds hnow hsymbol
    cases hexit : protectiveExit entry.side entry.entryPx entry.slPips entry.tpPips trailPx
      next.bar.h next.bar.l next.bar.c n entry.pip settings with
    | mk exit trail =>
      obtain ⟨hclose, hkept⟩ := hsame.manageOne_eq hrulesNow hlow hheld hexit
      rw [List.map_cons]
      unfold follow BracketedEntry.followEvaluator
      dsimp only
      rw [hcloseOf, hclose, hexit]
      cases exit with
      | some exit => rfl
      | none =>
        obtain ⟨trailPx', hfst⟩ := (mgr.setBar (e + n)).manageOne_trail next.bar p
        obtain ⟨hholds', hhold', htrailing'⟩ := applyAll_spares hafter hspares
        refine ih (hkept rfl) ?_ hholds' ?_ ?_
        · rw [hhold', htrailing']
          exact hrulesNow
        · rw [hfst]
          exact hopened
        · rw [hfst]
          exact fun b hb => hbars b (List.mem_cons_of_mem _ hb)

end PositionManager

/-- The two exit engines close a position on the same bar, at the same price and for the same
reason, or both keep it behind the same stop. -/
theorem exit_engines_agree (entry : BracketedEntry) (settings : BacktestSettings ℚ)
    (mgr : PositionManager ℚ) (p : Position ℚ) (bars : List ReplayBar)
    (hrules : SameRules entry settings mgr.maxHoldBars mgr.trailing)
    (hposition : SamePosition entry settings 0 p) (hholds : PositionManager.Holds p.id p mgr)
    (hbars : ∀ b ∈ bars, b.bar.symbol = p.symbol ∧ 0 < b.bar.h ∧ 0 < b.bar.l ∧ 0 < b.bar.c ∧
      ∀ x ∈ b.executed, spares p.id x) :
    mgr.follow p.id p.openedAtBar 1 bars =
      entry.followEvaluator settings 0 1 (bars.map (·.bar)) := by
  refine PositionManager.follow_eq hposition hrules hholds rfl fun b hb => ?_
  obtain ⟨hsymbol, -, hlow, -, hspares⟩ := hbars b hb
  exact ⟨hsymbol, hlow, hspares⟩

/-- A long entry at 100 with its stop at 90 and its target at 200. -/
def sampleEntry : BracketedEntry where
  dir := .long
  entryPx := 100
  slPips := 10
  tpPips := 100
  pip := 1
  directed := by decide
  entry_pos := by decide +kernel
  stop_pos := by decide +kernel
  target_pos := by decide +kernel

def sampleTrailing : BacktestSettings ℚ where
  initialEquityOverride := none
  slPips := 10
  tpPips := 100
  maxHoldBars := 5
  maxTradesPerDay := 0
  gapThresholdMs := 0
  trailingEnabled := true
  trailingAtrMultiplier := 1
  trailingBeTriggerR := 1
  trailingMinLockPips := 2
  pipValue := 1
  spreadPips := 0
  commissionPerTrade := 0
  pipValuePerLot := 1
  killZonesEnabled := false
  sessionSpreadProfile := none
  swapLongPipsPerDay := 0
  swapShortPipsPerDay := 0
  pnlConversionFeeRate := 0
  riskBasedSizing := false
  riskPerTradeMin := 0
  riskPerTradeMax := 0
  highQualityConfidence := 0
  adaptiveBasePips := none
  adaptiveVolMult := 1
  adaptiveRr := 2

def samplePosition : Position ℚ where
  id := "mock-1"
  symbol := "EURUSD"
  dir := .long
  volume := 1
  entryPrice := 100
  sl := some 90
  tp := some 200
  source := .strategy
  openedAtBar := 7
  trailPx := none

def sampleManager : PositionManager ℚ where
  openPositions := [samplePosition]
  nextId := 0
  realizedPnl := 0
  openedCount := 1
  closedCount := 0
  currentBar := 7
  maxHoldBars := some 5
  maxHoldExits := 0
  trailing := some ⟨1, 1, 2, 1⟩

/-- The first bar moves the trail to 105, the second comes back to it. -/
def sampleReplay : List ReplayBar :=
  [⟨⟨"EURUSD", "M1", 100, 115, 99, 110, 60000⟩,
      [(.open "EURUSD" .short 1 none none .blend, ⟨.filled, some 110, none⟩)]⟩,
    ⟨⟨"EURUSD", "M1", 110, 111, 104, 106, 120000⟩, []⟩]

theorem sampleReplay_agrees :
    sampleManager.follow "mock-1" 7 1 sampleReplay = .closed 2 .stopLoss 105 ∧
      sampleManager.follow "mock-1" 7 1 sampleReplay =
        sampleEntry.followEvaluator sampleTrailing 0 1 (sampleReplay.map (·.bar)) := by
  refine ⟨by decide +kernel, ?_⟩
  refine exit_engines_agree sampleEntry sampleTrailing sampleManager samplePosition sampleReplay
    ?_ ?_ ?_ ?_
  · refine ⟨rfl, fun hnone => (Option.some_ne_none _ hnone).elim, ?_⟩
    intro policy hpolicy
    obtain rfl := Option.some.inj hpolicy
    exact ⟨rfl, rfl, rfl, rfl, by decide +kernel, by decide +kernel⟩
  · exact ⟨rfl, rfl, by decide +kernel, by decide +kernel, Or.inl ⟨rfl, rfl⟩⟩
  · refine ⟨rfl, ?_⟩
    intro k _ hid
    have hfirst := congrArg (fun name : String => name.toList.head?) hid
    simp [samplePosition, show toString "sim-" = "sim-" from rfl] at hfirst
  · intro b hb
    simp only [sampleReplay, List.mem_cons, List.not_mem_nil, or_false] at hb
    rcases hb with rfl | rfl
    · refine ⟨rfl, by decide +kernel, by decide +kernel, by decide +kernel, ?_⟩
      intro x hx
      obtain rfl := List.mem_singleton.mp hx
      exact (Option.some_ne_none _).symm
    · exact ⟨rfl, by decide +kernel, by decide +kernel, by decide +kernel, by simp⟩

end Neoethos
