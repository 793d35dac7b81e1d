import Neoethos.SimulatedTrades

namespace Neoethos

open FloatOps (lit lt le)

variable {F : Type*}

/-- The books of the loop: the realized money, the trades, the calendar and the position. -/
structure EvalBooks (F : Type*) where
  equity : F
  tradeCount : Nat
  wins : Nat
  grossProfit : F
  grossLoss : F
  lastMonth : Int
  currentMonthPnl : F
  monthlyPnls : List F
  monthPtr : Int
  lastDay : Int
  dayTradeCount : Nat
  inPos : Int
  entryIdx : Int

def EvalState.books (s : EvalState F) : EvalBooks F where
  equity := s.equity
  tradeCount := s.tradeCount
  wins := s.wins
  grossProfit := s.grossProfit
  grossLoss := s.grossLoss
  lastMonth := s.lastMonth
  currentMonthPnl := s.currentMonthPnl
  monthlyPnls := s.monthlyPnls
  monthPtr := s.monthPtr
  lastDay := s.lastDay
  dayTradeCount := s.dayTradeCount
  inPos := s.inPos
  entryIdx := s.entryIdx

namespace EvalBooks

variable [FloatOps F]

/-- A new month stores the one before it, unless that is the mark for no month. -/
def rollMonth (b : EvalBooks F) (monthCapacity : Nat) (month : Int) : EvalBooks F :=
  if month = b.lastMonth then b
  else if b.lastMonth = -1 then { b with currentMonthPnl := lit 0, lastMonth := month }
  else
    { b with
      currentMonthPnl := lit 0
      lastMonth := month
      monthPtr := b.monthPtr + 1
      monthlyPnls :=
        if b.monthPtr + 1 < monthCapacity then
          b.monthlyPnls.set (b.monthPtr + 1).toNat b.currentMonthPnl
        else b.monthlyPnls }

def rollDay (b : EvalBooks F) (day : Int) : EvalBooks F :=
  if day = b.lastDay then b else { b with lastDay := day, dayTradeCount := 0 }

/-- The calendar of a bar. A series that ends early goes on with its last key. -/
def roll (b : EvalBooks F) (monthCapacity : Nat) (month day : Option Int) : EvalBooks F :=
  (b.rollMonth monthCapacity (month.getD b.lastMonth)).rollDay (day.getD b.lastDay)

def enter (b : EvalBooks F) (side : Int) (i : Nat) : EvalBooks F :=
  { b with inPos := side, entryIdx := i, dayTradeCount := b.dayTradeCount + 1 }

def book (b : EvalBooks F) (pnl : F) : EvalBooks F :=
  { b with
    equity := b.equity + pnl
    currentMonthPnl := b.currentMonthPnl + pnl
    tradeCount := b.tradeCount + 1
    wins := if lt (lit 0) pnl then b.wins + 1 else b.wins
    grossProfit := if lt (lit 0) pnl then b.grossProfit + pnl else b.grossProfit
    grossLoss := if lt (lit 0) pnl then b.grossLoss else b.grossLoss + FloatOps.abs pnl
    inPos := 0 }

end EvalBooks

namespace EvalState

variable [FloatOps F] (s : EvalState F)

omit [FloatOps F] in
theorem ignoresDrawdown_books : IgnoresDrawdown (books : EvalState F → EvalBooks F) :=
  fun _ _ _ _ => rfl

theorem books_noteDrawdown (equity : F) : (s.noteDrawdown equity).books = s.books := by
  have hset (drawdown : F) :
      (if lt s.maxDd drawdown = true then { s with maxDd := drawdown } else s).books = s.books := by
    split <;> rfl
  exact hset _

theorem books_floatPosition (settings : BacktestSettings F) (pip hi lo : F) :
    (s.floatPosition settings pip hi lo).books = s.books := by
  have hpeak (high : F) :
      (if lt s.peakEquity high = true then { s with peakEquity := high } else s).books =
        s.books := by
    split <;> rfl
  exact (books_noteDrawdown _ _).trans ((ignoresDrawdown_books.markDay _ _ _).trans (hpeak _))

theorem books_bookTrade (pnl : F) : (EvalInput.bookTrade s pnl).books = s.books.book pnl :=
  (books_noteDrawdown _ _).trans (ignoresDrawdown_books.markDay _ _ _)

theorem books_rollMonth (monthCapacity : Nat) (month : Option Int) :
    (s.rollMonth monthCapacity month).books =
      s.books.rollMonth monthCapacity (month.getD s.lastMonth) := by
  unfold rollMonth EvalBooks.rollMonth
  by_cases hsame : month.getD s.lastMonth = s.lastMonth
  · have hbooks : month.getD s.lastMonth = s.books.lastMonth := hsame
    rw [if_pos hbooks, if_neg (not_not.mpr hsame)]
  · have hbooks : ¬month.getD s.lastMonth = s.books.lastMonth := hsame
    rw [if_neg hbooks, if_pos hsame]
    by_cases hmark : s.lastMonth = -1
    · have hnone : s.books.lastMonth = -1 := hmark
      simp only [hmark, hnone, ne_eq, not_true_eq_false, if_false, if_true]
      rfl
    · have hnone : ¬s.books.lastMonth = -1 := hmark
      simp only [hmark, hnone, ne_eq, not_false_eq_true, if_true, if_false]
      by_cases hroom : s.monthPtr + 1 < monthCapacity
      · have hspace : s.books.monthPtr + 1 < monthCapacity := hroom
        rw [if_pos hroom, if_pos hspace]
        rfl
      · have hspace : ¬s.books.monthPtr + 1 < monthCapacity := hroom
        rw [if_neg hroom, if_neg hspace]
        rfl

theorem books_rollDay (day : Option Int) :
    (s.rollDay day).books = s.books.rollDay (day.getD s.lastDay) := by
  unfold rollDay EvalBooks.rollDay
  by_cases hsame : day.getD s.lastDay = s.lastDay
  · have hbooks : day.getD s.lastDay = s.books.lastDay := hsame
    rw [if_pos hbooks, if_neg (not_not.mpr hsame)]
  · have hbooks : ¬day.getD s.lastDay = s.books.lastDay := hsame
    rw [if_neg hbooks, if_pos hsame]
    have hfinished : (if s.lastDay ≠ -1 then s.finalizeDailyDrawdownSegment else s).books =
        s.books := by
      split
      next => exact ignoresDrawdown_books.finalize s
      next => rfl
    rw [← hfinished]
    rfl

theorem books_roll (monthCapacity : Nat) (month day : Option Int) :
    ((s.rollMonth monthCapacity month).rollDay day).books =
      s.books.roll monthCapacity month day := by
  have hday : (s.rollMonth monthCapacity month).lastDay = s.books.lastDay := by
    have hmonth := s.books_rollMonth monthCapacity month
    have hkept (b : EvalBooks F) (key : Int) :
        (b.rollMonth monthCapacity key).lastDay = b.lastDay := by
      unfold EvalBooks.rollMonth
      split
      next => rfl
      next => split <;> rfl
    rw [← hkept s.books (month.getD s.lastMonth), ← hmonth]
    rfl
  rw [books_rollDay, books_rollMonth, hday]
  rfl

theorem roll_inPos (b : EvalBooks F) (monthCapacity : Nat) (month day : Option Int) :
    (b.roll monthCapacity month day).inPos = b.inPos := by
  unfold EvalBooks.roll EvalBooks.rollMonth EvalBooks.rollDay
  split_ifs <;> rfl

end EvalState

namespace EvalInput

variable [FloatOps F] {initialEquity : F} {monthCapacity i : Nat} {inp : EvalInput F}
  {s next : EvalState F} {event : Option (BarEvent F)}

def entryTime (inp : EvalInput F) (entryIdx : Int) : Int :=
  if inp.useTimestamps && decide (0 ≤ entryIdx) then inp.timestampAt entryIdx.toNat else 0

def exitTime (inp : EvalInput F) (i : Nat) : Int :=
  if inp.useTimestamps then inp.timestampAt i else 0

/-- What a bar does to the books after the calendar: nothing, one entry, or one exit. -/
inductive BooksStep (inp : EvalInput F) (i : Nat) (b : EvalBooks F) :
    EvalBooks F → Option (BarEvent F) → Prop
  | idle : BooksStep inp i b b none
  | opened (fill : EntryFill F) (free : b.inPos = 0) (side : fill.side ≠ 0)
      (limit : 0 < inp.settings.maxTradesPerDay → b.dayTradeCount < inp.settings.maxTradesPerDay) :
      BooksStep inp i b (b.enter fill.side i) (some (.opened fill))
  | closed (trade : Trade F) (held : b.inPos ≠ 0)
      (entered : trade.entryTime = inp.entryTime b.entryIdx)
      (exited : trade.exitTime = some (inp.exitTime i)) :
      BooksStep inp i b (b.book trade.pnl) (some (.closed trade))

theorem closeTrade_books {exitPx : F} (held : s.inPos ≠ 0)
    (h : inp.closeTrade initialEquity i s exitPx = some (next, event)) :
    BooksStep inp i s.books next.books event := by
  obtain ⟨⟨entryTsMs, exitTsMs, pnl⟩, hpnl, heq⟩ := Option.map_eq_some_iff.mp h
  obtain ⟨rfl, rfl⟩ := Prod.mk.inj heq
  obtain ⟨net, -, hnet⟩ := Option.map_eq_some_iff.mp hpnl
  obtain ⟨hentry, hexit⟩ := Prod.mk.inj hnet
  obtain ⟨rfl, rfl⟩ := Prod.mk.inj hexit
  rw [EvalState.books_bookTrade]
  exact BooksStep.closed (inp.closedTrade initialEquity s entryTsMs (inp.exitTime i) net) held
    hentry.symm rfl

theorem managePosition_books {hi lo close : F} {sessionClose : Bool} (held : s.inPos ≠ 0)
    (h : inp.managePosition initialEquity i s hi lo close sessionClose = some (next, event)) :
    BooksStep inp i s.books next.books event := by
  have hfloat := s.books_floatPosition inp.settings inp.pip hi lo
  have hheld : (s.floatPosition inp.settings inp.pip hi lo).inPos ≠ 0 := by
    have hpos : (s.floatPosition inp.settings inp.pip hi lo).inPos = s.inPos :=
      congrArg EvalBooks.inPos hfloat
    rw [hpos]
    exact held
  unfold managePosition at h
  dsimp only at h
  rw [← hfloat]
  generalize s.floatPosition inp.settings inp.pip hi lo = floated at h hheld ⊢
  have hclose {trailPx exitPx : F}
      (hclosed : inp.closeTrade initialEquity i { floated with trailPx := trailPx } exitPx =
        some (next, event)) : BooksStep inp i floated.books next.books event :=
    closeTrade_books (s := { floated with trailPx := trailPx }) hheld hclosed
  split at h
  next => exact hclose h
  next =>
    split at h
    next => exact hclose h
    next =>
      obtain ⟨rfl, rfl⟩ := Prod.mk.inj (Option.some.inj h)
      exact BooksStep.idle

theorem tryEnter_books {close : F} {blocked : Bool} (hfree : s.inPos = 0)
    (h : inp.tryEnter i s close blocked = some (next, event)) :
    BooksStep inp i s.books next.books event := by
  unfold tryEnter at h
  split at h
  next => cases h
  next signal _ =>
    split at h
    next =>
      cases h
      exact BooksStep.idle
    next hsignal =>
      split at h
      next =>
        cases h
        exact BooksStep.idle
      next hlimit =>
        split at h
        next => cases h
        next =>
          cases h
          exact BooksStep.idle
        next entrySl entryTp sizeMultiplier _ =>
          split at h
          next =>
            cases h
            exact BooksStep.idle
          next =>
            split at h
            next =>
              cases h
              exact BooksStep.idle
            next lots _ _ =>
              cases h
              exact BooksStep.opened ⟨signal, close + FloatOps.ofInt signal * (inp.halfSpread i).1,
                entrySl, entryTp, lots⟩ hfree (fun hzero => hsignal (.inl hzero))
                fun hmax => not_le.mp fun hfull => hlimit ⟨hmax, hfull⟩

theorem step_books (h : inp.step initialEquity monthCapacity i s = some (next, event)) :
    BooksStep inp i (s.books.roll monthCapacity inp.monthIdx[i]? inp.dayIdx[i]?) next.books
      event := by
  have hroll := s.books_roll monthCapacity inp.monthIdx[i]? inp.dayIdx[i]?
  have hkept := EvalState.roll_inPos s.books monthCapacity inp.monthIdx[i]? inp.dayIdx[i]?
  rw [← hroll] at hkept ⊢
  unfold step at h
  dsimp only at h
  generalize (s.rollMonth monthCapacity inp.monthIdx[i]?).rollDay inp.dayIdx[i]? = rolled
    at h hkept ⊢
  have hpos : rolled.inPos = s.inPos := hkept
  split at h
  next => cases h
  next =>
    split at h
    next hfree => exact tryEnter_books (hpos.trans hfree) h
    next hheld =>
      rw [← hpos] at hheld
      split at h
      next hi lo _ _ =>
        have htracked : (rolled.trackExcursion inp.settings inp.pip hi lo).inPos ≠ 0 := hheld
        have hbooks : (rolled.trackExcursion inp.settings inp.pip hi lo).books = rolled.books := rfl
        rw [← hbooks]
        split at h
        next => exact closeTrade_books htracked h
        next => exact managePosition_books htracked h
      next => cases h

/-- What every bar keeps of the state and of the events so far, a whole run keeps. -/
theorem runBars_rule {C : Nat → EvalState F → List (Nat × BarEvent F) → Prop}
    (hstep : ∀ {i s past next event}, C i s past →
      inp.step initialEquity monthCapacity i s = some (next, event) →
      C (i + 1) next (past ++ event.toList.map (i, ·)))
    {i count : Nat} {s last : EvalState F} {past events : List (Nat × BarEvent F)}
    (hstart : C i s past)
    (h : inp.runBars initialEquity monthCapacity i count s = some (last, events)) :
    C (i + count) last (past ++ events) := by
  induction count generalizing i s past events with
  | zero =>
    obtain ⟨rfl, rfl⟩ := Prod.mk.inj (Option.some.inj h)
    rw [List.append_nil]
    exact hstart
  | succ count ih =>
    obtain ⟨next, event, rest, hnow, hrest, rfl⟩ := runBars_succ h
    have hlast := ih (hstep hstart hnow) hrest
    rw [List.append_assoc] at hlast
    rw [show i + (count + 1) = i + 1 + count by omega]
    exact hlast

end EvalInput

end Neoethos
