import Neoethos.EvaluatorSteps
import Neoethos.FloatOps
import Mathlib.Tactic.Linarith

namespace Neoethos

open FloatOps (lit lt le)

variable {F : Type*}

/-- A recorded trade with the bars it was entered and closed on. -/
structure TradeSpan (F : Type*) where
  entryBar : Nat
  fill : EntryFill F
  exitBar : Nat
  trade : Trade F

def TradeSpan.events (span : TradeSpan F) : List (Nat × BarEvent F) :=
  [(span.entryBar, .opened span.fill), (span.exitBar, .closed span.trade)]

/-- Trades one after the other, and at the end perhaps an entry that is still open. -/
def spanEvents (spans : List (TradeSpan F)) (opened : Option (Nat × EntryFill F)) :
    List (Nat × BarEvent F) :=
  spans.flatMap TradeSpan.events ++ opened.toList.map fun (bar, fill) => (bar, .opened fill)

def BarEvent.isEntry : BarEvent F → Bool
  | .opened _ => true
  | .closed _ => false

def tradePnls (events : List (Nat × BarEvent F)) : List F :=
  events.filterMap fun (_, event) => event.trade?.map (·.pnl)

/-- How many entries the bars from `a` to `b` have. -/
def entriesBetween (events : List (Nat × BarEvent F)) (a b : Nat) : Nat :=
  events.countP fun (bar, event) => event.isEntry && decide (a ≤ bar) && decide (bar ≤ b)

/-- The key that the evaluator holds for a bar, `-1` before the first bar: a series that ends
early goes on with its last key. -/
def calendarKey (keys : List Int) : Nat → Int
  | 0 => -1
  | i + 1 => keys[i + 1]?.getD (calendarKey keys i)

/-- The results of the trades closed on bars without a month, whose key is `-1`. -/
def monthlessPnls (inp : EvalInput F) (events : List (Nat × BarEvent F)) : List F :=
  tradePnls (events.filter fun (bar, _) => calendarKey inp.monthIdx bar = -1)

section Spans

/-- The events are trades without overlap, and the open entry is the position that is held. -/
structure Spans [FloatOps F] (inp : EvalInput F) (i : Nat) (b : EvalBooks F)
    (past : List (Nat × BarEvent F)) (spans : List (TradeSpan F))
    (opened : Option (Nat × EntryFill F)) : Prop where
  split : past = spanEvents spans opened
  held : opened.map (fun (bar, _) => (bar : Int)) = if b.inPos = 0 then none else some b.entryIdx
  times : ∀ span ∈ spans, span.trade.entryTime = inp.entryTime span.entryBar ∧
    span.trade.exitTime = some (inp.exitTime span.exitBar)
  ordered : past.Pairwise fun e e' => e.1 < e'.1
  below : ∀ e ∈ past, e.1 < i

variable [FloatOps F] {inp : EvalInput F} {i : Nat} {b b' : EvalBooks F}
  {past : List (Nat × BarEvent F)} {event : Option (BarEvent F)}

omit [FloatOps F] in
theorem ordered_next (hordered : past.Pairwise fun e e' => e.1 < e'.1)
    (hbelow : ∀ e ∈ past, e.1 < i) :
    (past ++ event.toList.map (i, ·)).Pairwise (fun e e' => e.1 < e'.1) ∧
      ∀ e ∈ past ++ event.toList.map (i, ·), e.1 < i + 1 := by
  cases event with
  | none =>
    simp only [Option.toList_none, List.map_nil, List.append_nil]
    exact ⟨hordered, fun e he => (hbelow e he).trans (Nat.lt_succ_self i)⟩
  | some event =>
    simp only [Option.toList_some, List.map_cons, List.map_nil]
    constructor
    · rw [List.pairwise_append]
      refine ⟨hordered, List.pairwise_singleton _ _, ?_⟩
      intro e he e' he'
      rw [List.mem_singleton.mp he']
      exact hbelow e he
    · intro e he
      rcases List.mem_append.mp he with he | he
      · exact (hbelow e he).trans (Nat.lt_succ_self i)
      · rw [List.mem_singleton.mp he]
        exact Nat.lt_succ_self i

theorem Spans.roll {spans : List (TradeSpan F)} {opened : Option (Nat × EntryFill F)}
    (h : Spans inp i b past spans opened) (monthCapacity : Nat) (month day : Option Int) :
    Spans inp i (b.roll monthCapacity month day) past spans opened := by
  have hentry : (b.roll monthCapacity month day).entryIdx = b.entryIdx := by
    unfold EvalBooks.roll EvalBooks.rollMonth EvalBooks.rollDay
    split_ifs <;> rfl
  refine ⟨h.split, ?_, h.times, h.ordered, h.below⟩
  rw [EvalState.roll_inPos, hentry]
  exact h.held

theorem Spans.step {spans : List (TradeSpan F)} {opened : Option (Nat × EntryFill F)}
    (h : Spans inp i b past spans opened) (hstep : inp.BooksStep i b b' event) :
    ∃ spans opened, Spans inp (i + 1) b' (past ++ event.toList.map (i, ·)) spans opened := by
  obtain ⟨hordered, hbelow⟩ := @ordered_next F i past event h.ordered h.below
  have hheld := h.held
  cases hstep with
  | idle => exact ⟨spans, opened, by simpa using h.split, hheld, h.times, hordered, hbelow⟩
  | opened fill free side limit =>
    rw [if_pos free, Option.map_eq_none_iff] at hheld
    refine ⟨spans, some (i, fill), ?_, ?_, h.times, hordered, hbelow⟩
    · rw [h.split, hheld]
      simp [spanEvents]
    · rw [if_neg (show ¬(b.enter fill.side i).inPos = 0 from side)]
      rfl
  | closed trade held entered exited =>
    rw [if_neg held] at hheld
    obtain ⟨⟨entryBar, fill⟩, hopened, hentry⟩ := Option.map_eq_some_iff.mp hheld
    refine ⟨spans ++ [⟨entryBar, fill, i, trade⟩], none, ?_, ?_, ?_, hordered, hbelow⟩
    · rw [h.split, hopened]
      simp [spanEvents, TradeSpan.events]
    · rw [if_pos (show (b.book trade.pnl).inPos = 0 from rfl)]
      rfl
    · intro span hspan
      rcases List.mem_append.mp hspan with hspan | hspan
      · exact h.times span hspan
      · rw [List.mem_singleton.mp hspan]
        exact ⟨by rw [entered, ← hentry], exited⟩

end Spans

section Money

/-- The realized money and the counters are those of the trades. -/
structure Booked (initialEquity : ℚ) (b : EvalBooks ℚ) (past : List (Nat × BarEvent ℚ)) : Prop where
  equity : b.equity = initialEquity + (tradePnls past).sum
  trades : b.tradeCount = (tradePnls past).length
  wins : b.wins = (tradePnls past).countP (0 < ·)
  gross : b.grossProfit - b.grossLoss = (tradePnls past).sum

variable {inp : EvalInput ℚ} {i : Nat} {b b' : EvalBooks ℚ} {past : List (Nat × BarEvent ℚ)}
  {event : Option (BarEvent ℚ)} {initialEquity : ℚ}

theorem Booked.roll (h : Booked initialEquity b past) (monthCapacity : Nat)
    (month day : Option Int) : Booked initialEquity (b.roll monthCapacity month day) past := by
  have hkept : (b.roll monthCapacity month day).equity = b.equity ∧
      (b.roll monthCapacity month day).tradeCount = b.tradeCount ∧
      (b.roll monthCapacity month day).wins = b.wins ∧
      (b.roll monthCapacity month day).grossProfit = b.grossProfit ∧
      (b.roll monthCapacity month day).grossLoss = b.grossLoss := by
    unfold EvalBooks.roll EvalBooks.rollMonth EvalBooks.rollDay
    split_ifs <;> exact ⟨rfl, rfl, rfl, rfl, rfl⟩
  obtain ⟨hequity, htrades, hwins, hprofit, hloss⟩ := hkept
  exact ⟨hequity.trans h.equity, htrades.trans h.trades, hwins.trans h.wins,
    by rw [hprofit, hloss, h.gross]⟩

theorem tradePnls_append (events later : List (Nat × BarEvent F)) :
    tradePnls (events ++ later) = tradePnls events ++ tradePnls later :=
  List.filterMap_append

theorem Booked.step (h : Booked initialEquity b past) (hstep : inp.BooksStep i b b' event) :
    Booked initialEquity b' (past ++ event.toList.map (i, ·)) := by
  cases hstep with
  | idle =>
    rw [Option.toList_none, List.map_nil, List.append_nil]
    exact h
  | opened fill free side limit =>
    have hnone : tradePnls [(i, BarEvent.opened fill)] = [] := rfl
    have hsame : tradePnls (past ++ (some (BarEvent.opened fill)).toList.map (i, ·)) =
        tradePnls past := by
      rw [tradePnls_append, Option.toList_some, List.map_singleton, hnone, List.append_nil]
    exact ⟨hsame ▸ h.equity, hsame ▸ h.trades, hsame ▸ h.wins, hsame ▸ h.gross⟩
  | closed trade held entered exited =>
    have hone : tradePnls [(i, BarEvent.closed trade)] = [trade.pnl] := rfl
    have hnext : tradePnls (past ++ (some (BarEvent.closed trade)).toList.map (i, ·)) =
        tradePnls past ++ [trade.pnl] := by
      rw [tradePnls_append, Option.toList_some, List.map_singleton, hone]
    by_cases hwon : 0 < trade.pnl
    · have hwins : lt (lit 0) trade.pnl = true := by simpa using hwon
      refine ⟨?_, ?_, ?_, ?_⟩
      · rw [hnext, List.sum_append, List.sum_singleton, ← add_assoc, ← h.equity]
        rfl
      · rw [hnext, List.length_append, ← h.trades]
        rfl
      · rw [hnext, List.countP_append, ← h.wins]
        simp [EvalBooks.book, hwon]
      · rw [hnext, List.sum_append, List.sum_singleton, ← h.gross]
        simp only [EvalBooks.book, hwins, if_true]
        ring
    · have hlost : lt (lit 0) trade.pnl = false := by simpa using hwon
      have habs : FloatOps.abs trade.pnl = -trade.pnl := by
        rw [abs_rat, abs_of_nonpos (not_lt.mp hwon)]
      refine ⟨?_, ?_, ?_, ?_⟩
      · rw [hnext, List.sum_append, List.sum_singleton, ← add_assoc, ← h.equity]
        rfl
      · rw [hnext, List.length_append, ← h.trades]
        rfl
      · rw [hnext, List.countP_append, ← h.wins]
        simp [EvalBooks.book, hwon]
      · rw [hnext, List.sum_append, List.sum_singleton, ← h.gross]
        simp only [EvalBooks.book, hlost, Bool.false_eq_true, if_false, habs]
        ring

end Money

section Days

/-- The entries of each stretch of bars with one day key stay within the limit. -/
structure DayLimits [FloatOps F] (inp : EvalInput F) (i : Nat) (b : EvalBooks F)
    (past : List (Nat × BarEvent F)) : Prop where
  started : 0 < i
  day : b.lastDay = calendarKey inp.dayIdx (i - 1)
  below : ∀ e ∈ past, e.1 < i
  limit : 0 < inp.settings.maxTradesPerDay → ∀ first last, last < i →
    (∀ l, first ≤ l → l ≤ last → calendarKey inp.dayIdx l = calendarKey inp.dayIdx last) →
      entriesBetween past first last ≤ inp.settings.maxTradesPerDay
  today : ∀ first < i,
    (∀ l, first ≤ l → l < i → calendarKey inp.dayIdx l = calendarKey inp.dayIdx (i - 1)) →
      entriesBetween past first (i - 1) ≤ b.dayTradeCount
  room : 0 < inp.settings.maxTradesPerDay → b.dayTradeCount ≤ inp.settings.maxTradesPerDay

section Counts

variable {i : Nat} {past : List (Nat × BarEvent F)} {event : Option (BarEvent F)}

theorem entriesBetween_append (events later : List (Nat × BarEvent F)) (first last : Nat) :
    entriesBetween (events ++ later) first last =
      entriesBetween events first last + entriesBetween later first last :=
  List.countP_append

theorem entriesBetween_later {first last : Nat} (hlast : last < i) :
    entriesBetween (event.toList.map (i, ·)) first last = 0 := by
  unfold entriesBetween
  rw [List.countP_eq_zero]
  intro e he
  obtain ⟨x, -, rfl⟩ := List.mem_map.mp he
  have hnot : ¬i ≤ last := by omega
  simp [hnot]

theorem entriesBetween_before {first last : Nat} (hbelow : ∀ e ∈ past, e.1 < i)
    (hfirst : i ≤ first) : entriesBetween past first last = 0 := by
  unfold entriesBetween
  rw [List.countP_eq_zero]
  intro e he
  have hlt := hbelow e he
  have hnot : ¬first ≤ e.1 := by omega
  simp [hnot]

theorem entriesBetween_last {first last : Nat} (hbelow : ∀ e ∈ past, e.1 < i)
    (hlast : i ≤ last + 1) :
    entriesBetween past first last = entriesBetween past first (i - 1) := by
  unfold entriesBetween
  apply List.countP_congr
  intro e he
  have hlt := hbelow e he
  have hiff : e.1 ≤ last ↔ e.1 ≤ i - 1 := by omega
  simp [hiff]

end Counts

variable [FloatOps F] {inp : EvalInput F} {i : Nat} {b b' : EvalBooks F}
  {past : List (Nat × BarEvent F)} {event : Option (BarEvent F)}

theorem roll_day (b : EvalBooks F) (monthCapacity : Nat) (month day : Option Int) :
    (b.roll monthCapacity month day).lastDay = day.getD b.lastDay ∧
      (b.roll monthCapacity month day).dayTradeCount =
        if day.getD b.lastDay = b.lastDay then b.dayTradeCount else 0 := by
  have hmonth : (b.rollMonth monthCapacity (month.getD b.lastMonth)).lastDay = b.lastDay ∧
      (b.rollMonth monthCapacity (month.getD b.lastMonth)).dayTradeCount = b.dayTradeCount := by
    unfold EvalBooks.rollMonth
    split_ifs <;> exact ⟨rfl, rfl⟩
  unfold EvalBooks.roll EvalBooks.rollDay
  rw [hmonth.1]
  split
  next hsame => exact ⟨hmonth.1.trans hsame.symm, hmonth.2⟩
  next => exact ⟨rfl, rfl⟩

/-- An entry counts for its day, and the day has room for it. -/
theorem dayTradeCount_step (hstep : inp.BooksStep i b b' event) (first last : Nat) :
    b.dayTradeCount + entriesBetween (event.toList.map (i, ·)) first last ≤ b'.dayTradeCount ∧
      ((0 < inp.settings.maxTradesPerDay → b.dayTradeCount ≤ inp.settings.maxTradesPerDay) →
        0 < inp.settings.maxTradesPerDay → b'.dayTradeCount ≤ inp.settings.maxTradesPerDay) ∧
      b'.lastDay = b.lastDay := by
  cases hstep with
  | idle => exact ⟨le_refl _, id, rfl⟩
  | opened fill free side limit =>
    have hone : entriesBetween ((some (BarEvent.opened fill)).toList.map (i, ·)) first last ≤ 1 :=
      List.countP_le_length
    have hcount : (b.enter fill.side i).dayTradeCount = b.dayTradeCount + 1 := rfl
    refine ⟨by omega, ?_, rfl⟩
    intro _ hmax
    have hroom := limit hmax
    omega
  | closed trade held entered exited => exact ⟨le_refl _, id, rfl⟩

theorem DayLimits.step (h : DayLimits inp i b past) {monthCapacity : Nat} {month : Option Int}
    (hstep : inp.BooksStep i (b.roll monthCapacity month inp.dayIdx[i]?) b' event)
    (hbelow : ∀ e ∈ past ++ event.toList.map (i, ·), e.1 < i + 1) :
    DayLimits inp (i + 1) b' (past ++ event.toList.map (i, ·)) := by
  have hpos := h.started
  have hkey : calendarKey inp.dayIdx i =
      inp.dayIdx[i]?.getD (calendarKey inp.dayIdx (i - 1)) := by
    obtain ⟨k, rfl⟩ : ∃ k, i = k + 1 := ⟨i - 1, by omega⟩
    rfl
  obtain ⟨hday, hcount⟩ := roll_day b monthCapacity month inp.dayIdx[i]?
  rw [h.day, ← hkey] at hday hcount
  have hroom : 0 < inp.settings.maxTradesPerDay →
      (b.roll monthCapacity month inp.dayIdx[i]?).dayTradeCount ≤ inp.settings.maxTradesPerDay := by
    intro hmax
    have hold := h.room hmax
    rw [hcount]
    split
    next => exact hold
    next => exact Nat.zero_le _
  have htoday : ∀ first < i + 1,
      (∀ l, first ≤ l → l < i + 1 → calendarKey inp.dayIdx l = calendarKey inp.dayIdx i) →
        entriesBetween (past ++ event.toList.map (i, ·)) first i ≤ b'.dayTradeCount := by
    intro first hfirst hsame
    obtain ⟨hadded, -, -⟩ := dayTradeCount_step hstep first i
    rw [entriesBetween_append]
    suffices hpast : entriesBetween past first i ≤
        (b.roll monthCapacity month inp.dayIdx[i]?).dayTradeCount by omega
    by_cases hnow : first = i
    · rw [entriesBetween_before h.below hnow.ge]
      exact Nat.zero_le _
    · have hprevious := hsame (i - 1) (by omega) (by omega)
      have hstretch := h.today first (by omega) fun l hl hli => by
        rw [hsame l hl (by omega), hprevious]
      rw [entriesBetween_last h.below (by omega), hcount, if_pos hprevious.symm]
      exact hstretch
  obtain ⟨-, hfull, hlast⟩ := dayTradeCount_step hstep 0 0
  refine ⟨Nat.succ_pos i, hlast.trans hday, hbelow, ?_, htoday, hfull hroom⟩
  intro hmax first last hlt hsame
  by_cases hnow : last = i
  · have hcounted := hfull hroom hmax
    by_cases hempty : i < first
    · rw [entriesBetween_before hbelow hempty]
      exact Nat.zero_le _
    · have hstretch := htoday first (by omega) fun l hl hli => by
        rw [hsame l hl (by omega), hnow]
      rw [hnow]
      omega
  · have hbefore : last < i := by omega
    rw [entriesBetween_append, entriesBetween_later hbefore, Nat.add_zero]
    exact h.limit hmax first last hbefore hsame

end Days

section Months

/-- The stored months, the current one and the trades without a month hold all realized money. -/
structure MonthsHold (inp : EvalInput ℚ) (initialEquity : ℚ) (monthCapacity i : Nat)
    (b : EvalBooks ℚ) (past : List (Nat × BarEvent ℚ)) : Prop where
  month : b.lastMonth = calendarKey inp.monthIdx (i - 1)
  started : -1 ≤ b.monthPtr
  capacity : b.monthlyPnls.length = monthCapacity
  money : b.monthPtr < monthCapacity →
    initialEquity + (b.monthlyPnls.take (b.monthPtr + 1).toNat).sum +
      (if b.lastMonth = -1 then 0 else b.currentMonthPnl) + (monthlessPnls inp past).sum = b.equity

variable {inp : EvalInput ℚ} {i : Nat} {b b' : EvalBooks ℚ} {past : List (Nat × BarEvent ℚ)}
  {event : Option (BarEvent ℚ)} {initialEquity : ℚ} {monthCapacity : Nat}

theorem sum_take_set (months : List ℚ) (k : Nat) (hk : k < months.length) (pnl : ℚ) :
    ((months.set k pnl).take (k + 1)).sum = (months.take k).sum + pnl := by
  have hlast : (months.set k pnl)[k]? = some pnl := by
    rw [List.getElem?_set_self hk]
  rw [List.take_add_one, hlast, List.take_set_of_le (le_refl k)]
  simp

/-- A new month moves the money of the old one, and leaves the total. -/
theorem MonthsHold.roll (h : MonthsHold inp initialEquity monthCapacity i b past) (hpos : 0 < i)
    (day : Option Int) :
    MonthsHold inp initialEquity monthCapacity (i + 1)
      (b.roll monthCapacity inp.monthIdx[i]? day) past := by
  have hkey : calendarKey inp.monthIdx i =
      inp.monthIdx[i]?.getD (calendarKey inp.monthIdx (i - 1)) := by
    obtain ⟨k, rfl⟩ : ∃ k, i = k + 1 := ⟨i - 1, by omega⟩
    rfl
  suffices hmonths : MonthsHold inp initialEquity monthCapacity (i + 1)
      (b.rollMonth monthCapacity (calendarKey inp.monthIdx i)) past by
    unfold EvalBooks.roll EvalBooks.rollDay
    rw [h.month, ← hkey]
    split
    next => exact hmonths
    next => exact ⟨hmonths.month, hmonths.started, hmonths.capacity, hmonths.money⟩
  unfold EvalBooks.rollMonth
  split
  next hsame => exact ⟨hsame.symm, h.started, h.capacity, h.money⟩
  next hnew =>
    split
    next hmark =>
      refine ⟨rfl, h.started, h.capacity, ?_⟩
      intro hroom
      have hmoney := h.money hroom
      rw [if_pos hmark] at hmoney
      have hnone : calendarKey inp.monthIdx i ≠ -1 := by
        rw [← hmark]
        exact hnew
      rw [if_neg hnone]
      exact hmoney
    next hmark =>
      have hstarted := h.started
      refine ⟨rfl, by dsimp only; omega, ?_, ?_⟩
      · dsimp only
        split
        next => rw [List.length_set, h.capacity]
        next => exact h.capacity
      · intro hroom
        dsimp only at hroom ⊢
        have hmoney := h.money (by omega)
        rw [if_neg hmark] at hmoney
        have hindex : (b.monthPtr + 1 + 1).toNat = (b.monthPtr + 1).toNat + 1 := by omega
        have hlength := h.capacity
        rw [if_pos hroom, hindex, sum_take_set _ _ (by omega)]
        have hzero : (if calendarKey inp.monthIdx i = -1 then (0 : ℚ) else lit 0) = 0 := by
          split <;> rfl
        rw [hzero]
        linarith

theorem monthlessPnls_append (events later : List (Nat × BarEvent F)) (inp : EvalInput F) :
    monthlessPnls inp (events ++ later) = monthlessPnls inp events ++ monthlessPnls inp later := by
  rw [monthlessPnls, List.filter_append, tradePnls_append]
  rfl

theorem MonthsHold.step (h : MonthsHold inp initialEquity monthCapacity (i + 1) b past)
    (hstep : inp.BooksStep i b b' event) :
    MonthsHold inp initialEquity monthCapacity (i + 1) b' (past ++ event.toList.map (i, ·)) := by
  cases hstep with
  | idle =>
    rw [Option.toList_none, List.map_nil, List.append_nil]
    exact h
  | opened fill free side limit =>
    have hnone : monthlessPnls inp ((some (BarEvent.opened fill)).toList.map (i, ·)) = [] := by
      simp only [monthlessPnls, Option.toList_some, List.map_singleton, List.filter_singleton]
      cases decide (calendarKey inp.monthIdx i = -1) <;> rfl
    refine ⟨h.month, h.started, h.capacity, ?_⟩
    rw [monthlessPnls_append, hnone, List.append_nil]
    exact h.money
  | closed trade held entered exited =>
    refine ⟨h.month, h.started, h.capacity, ?_⟩
    intro hroom
    have hmoney := h.money hroom
    have hmonth : b.lastMonth = calendarKey inp.monthIdx i := h.month
    rw [monthlessPnls_append, List.sum_append]
    by_cases hmark : b.lastMonth = -1
    · have hone : monthlessPnls inp ((some (BarEvent.closed trade)).toList.map (i, ·)) =
          [trade.pnl] := by
        simp only [monthlessPnls, Option.toList_some, List.map_singleton, List.filter_singleton,
          ← hmonth, hmark]
        rfl
      rw [if_pos hmark] at hmoney
      rw [hone, List.sum_singleton, if_pos (show (b.book trade.pnl).lastMonth = -1 from hmark)]
      change initialEquity + (b.monthlyPnls.take (b.monthPtr + 1).toNat).sum + 0 + _ =
        b.equity + trade.pnl
      rw [← hmoney]
      ring
    · have hnone : monthlessPnls inp ((some (BarEvent.closed trade)).toList.map (i, ·)) = [] := by
        simp only [monthlessPnls, Option.toList_some, List.map_singleton, List.filter_singleton,
          ← hmonth, hmark]
        rfl
      rw [if_neg hmark] at hmoney
      rw [hnone, List.sum_nil, if_neg (show ¬(b.book trade.pnl).lastMonth = -1 from hmark)]
      change initialEquity + (b.monthlyPnls.take (b.monthPtr + 1).toNat).sum +
        (b.currentMonthPnl + trade.pnl) + _ = b.equity + trade.pnl
      rw [← hmoney]
      ring

end Months

section Accounts

/-- What the books of a finished run say of the events it recorded. -/
structure EvalAccounts (inp : EvalInput ℚ) (monthCapacity : Nat) (r : EvalResult ℚ)
    (last : EvalState ℚ) : Prop where
  spans : ∃ (spans : List (TradeSpan ℚ)) (opened : Option (Nat × EntryFill ℚ)),
    r.events = spanEvents spans opened ∧
    r.trades = spans.map (fun span => (span.exitBar, span.trade)) ∧
    (∀ span ∈ spans, span.entryBar < span.exitBar ∧
      span.trade.entryTime = inp.entryTime span.entryBar ∧
      span.trade.exitTime = some (inp.exitTime span.exitBar)) ∧
    spans.Pairwise fun earlier later => earlier.exitBar < later.entryBar
  tradeCount : r.metrics.tradeCount = r.trades.length
  netProfit : r.metrics.netProfit = (r.trades.map (·.2.pnl)).sum
  gross : last.grossProfit - last.grossLoss = r.metrics.netProfit
  wins : last.wins = r.trades.countP fun trade => 0 < trade.2.pnl
  perDay : 0 < inp.settings.maxTradesPerDay → ∀ first final, final < inp.close.length →
    (∀ bar, first ≤ bar → bar ≤ final →
      calendarKey inp.dayIdx bar = calendarKey inp.dayIdx final) →
    (r.entries.filter fun entry => first ≤ entry.1 ∧ entry.1 ≤ final).length ≤
      inp.settings.maxTradesPerDay
  months : last.monthPtr < monthCapacity →
    (last.monthlyPnls.take (last.monthPtr + 1).toNat).sum +
      (if calendarKey inp.monthIdx (inp.close.length - 1) = -1 then 0 else last.currentMonthPnl) +
      ((r.trades.filter fun trade => calendarKey inp.monthIdx trade.1 = -1).map (·.2.pnl)).sum =
        r.metrics.netProfit

variable {inp : EvalInput ℚ} {initialEquity : ℚ} {monthCapacity i : Nat}

/-- All the books of the loop, behind a bar. -/
structure BooksHold (inp : EvalInput ℚ) (initialEquity : ℚ) (monthCapacity i : Nat)
    (s : EvalState ℚ) (past : List (Nat × BarEvent ℚ)) : Prop where
  spans : ∃ spans opened, Spans inp i s.books past spans opened
  booked : Booked initialEquity s.books past
  days : DayLimits inp i s.books past
  months : MonthsHold inp initialEquity monthCapacity i s.books past

theorem BooksHold.start (inp : EvalInput ℚ) (initialEquity : ℚ) (monthCapacity : Nat) :
    BooksHold inp initialEquity monthCapacity 1
      (EvalState.start inp.settings initialEquity monthCapacity) [] where
  spans := ⟨[], none, rfl, rfl, by simp, List.Pairwise.nil, by simp⟩
  booked := ⟨(add_zero _).symm, rfl, rfl, sub_self _⟩
  days := ⟨Nat.one_pos, rfl, by simp, fun _ _ _ _ _ => Nat.zero_le _, fun _ _ _ => le_refl 0,
    fun _ => Nat.zero_le _⟩
  months := by
    refine ⟨rfl, le_refl _, List.length_replicate, ?_⟩
    intro _
    change initialEquity + 0 + 0 + 0 = initialEquity
    ring

theorem BooksHold.step {s next : EvalState ℚ} {past : List (Nat × BarEvent ℚ)}
    {event : Option (BarEvent ℚ)} (h : BooksHold inp initialEquity monthCapacity i s past)
    (hstep : inp.step initialEquity monthCapacity i s = some (next, event)) :
    BooksHold inp initialEquity monthCapacity (i + 1) next (past ++ event.toList.map (i, ·)) := by
  have hbooks := EvalInput.step_books hstep
  obtain ⟨spans, opened, hspans⟩ := h.spans
  obtain ⟨-, hbelow⟩ := @ordered_next ℚ i past event hspans.ordered hspans.below
  exact ⟨(hspans.roll _ _ _).step hbooks, (h.booked.roll _ _ _).step hbooks,
    h.days.step hbooks hbelow, (h.months.roll h.days.started _).step hbooks⟩

theorem tradePnls_eq (r : EvalResult F) : r.trades.map (·.2.pnl) = tradePnls r.events := by
  unfold EvalResult.trades tradePnls
  rw [List.map_filterMap]
  apply List.filterMap_congr
  intro e _
  rw [Option.map_map]
  rfl

theorem monthlessPnls_eq (r : EvalResult F) (inp : EvalInput F) :
    (r.trades.filter fun trade => calendarKey inp.monthIdx trade.1 = -1).map (·.2.pnl) =
      monthlessPnls inp r.events := by
  unfold EvalResult.trades monthlessPnls tradePnls
  induction r.events with
  | nil => rfl
  | cons e events ih =>
    obtain ⟨bar, event⟩ := e
    by_cases hmark : calendarKey inp.monthIdx bar = -1
    · cases event with
      | opened fill => simpa [BarEvent.trade?, hmark] using ih
      | closed trade => simpa [BarEvent.trade?, hmark] using ih
    · cases event with
      | opened fill => simpa [BarEvent.trade?, hmark] using ih
      | closed trade => simpa [BarEvent.trade?, hmark] using ih

theorem entriesBetween_eq (r : EvalResult F) (first final : Nat) :
    (r.entries.filter fun entry => first ≤ entry.1 ∧ entry.1 ≤ final).length =
      entriesBetween r.events first final := by
  unfold EvalResult.entries entriesBetween
  induction r.events with
  | nil => rfl
  | cons e events ih =>
    obtain ⟨bar, event⟩ := e
    cases event with
    | opened fill =>
      by_cases hin : first ≤ bar ∧ bar ≤ final
      · simpa [BarEvent.isEntry, hin] using ih
      · have hout : ¬(decide (first ≤ bar) && decide (bar ≤ final)) = true := by simpa using hin
        simpa [BarEvent.isEntry, hin] using ih
    | closed trade => simpa [BarEvent.isEntry] using ih

/-- The trades of well-formed events, in the order of their bars. -/
theorem trades_of_spans {spans : List (TradeSpan F)} {opened : Option (Nat × EntryFill F)}
    (hordered : (spanEvents spans opened).Pairwise fun e e' => e.1 < e'.1) :
    (∀ span ∈ spans, span.entryBar < span.exitBar) ∧
      spans.Pairwise fun earlier later => earlier.exitBar < later.entryBar := by
  induction spans with
  | nil => exact ⟨by simp, List.Pairwise.nil⟩
  | cons span spans ih =>
    rw [spanEvents, List.flatMap_cons, List.append_assoc] at hordered
    obtain ⟨hown, hrest, hcross⟩ := List.pairwise_append.mp hordered
    obtain ⟨hbars, hspans⟩ := ih hrest
    constructor
    · intro other hother
      rcases List.mem_cons.mp hother with rfl | hother
      · exact (List.pairwise_cons.mp hown).1 _ List.mem_cons_self
      · exact hbars other hother
    · rw [List.pairwise_cons]
      refine ⟨?_, hspans⟩
      intro later hlater
      refine hcross (span.exitBar, .closed span.trade) (by simp [TradeSpan.events])
        (later.entryBar, .opened later.fill) ?_
      apply List.mem_append_left
      rw [List.mem_flatMap]
      exact ⟨later, hlater, by simp [TradeSpan.events]⟩

theorem filterMap_spans (spans : List (TradeSpan F)) (opened : Option (Nat × EntryFill F)) :
    (spanEvents spans opened).filterMap
        (fun (bar, event) => event.trade?.map fun trade => (bar, trade)) =
      spans.map fun span => (span.exitBar, span.trade) := by
  induction spans with
  | nil => cases opened <;> rfl
  | cons span spans ih =>
    rw [spanEvents, List.flatMap_cons, List.append_assoc, List.filterMap_append]
    exact congrArg _ ih

/-- The metrics of a run that finished, from its last state. -/
theorem evaluate_metrics {runtime : BacktestRuntime ℚ} {r : EvalResult ℚ}
    (h : evaluateStrategyWithLedger runtime inp = some r) :
    ∃ last, inp.runBars (inp.settings.initialEquity runtime) (inp.monthCapacity runtime) 1
        (inp.close.length - 1) (EvalState.start inp.settings (inp.settings.initialEquity runtime)
          (inp.monthCapacity runtime)) = some (last, r.events) ∧
      r.metrics.netProfit = last.equity - inp.settings.initialEquity runtime ∧
      r.metrics.tradeCount = last.tradeCount ∧ r.metrics.maxDd = last.maxDd ∧
      r.metrics.maxDailyDd = (if last.lastDay = -1 then last
        else last.finalizeDailyDrawdownSegment).maxDailyDd := by
  by_cases hclose : inp.close = []
  · rw [evaluate_nil hclose] at h
    split at h
    next => cases h
    next =>
      obtain rfl := Option.some.inj h
      rw [hclose]
      exact ⟨_, rfl, (sub_self _).symm, rfl, rfl, rfl⟩
  · unfold evaluateStrategyWithLedger at h
    rw [if_neg hclose] at h
    split at h
    next => cases h
    next hfee =>
      dsimp only at h
      split at h
      next => cases h
      next last events hrun =>
        obtain ⟨raw, hraw, rfl⟩ := Option.map_eq_some_iff.mp h
        obtain ⟨months, -, rfl⟩ := Option.map_eq_some_iff.mp hraw
        have hfinished : (if last.lastDay ≠ -1 then last.finalizeDailyDrawdownSegment
            else last).books = last.books := by
          split
          next => exact EvalState.ignoresDrawdown_books.finalize last
          next => rfl
        refine ⟨last, hrun, ?_, ?_, ?_, ?_⟩
        · rw [← show _ = last.equity from congrArg EvalBooks.equity hfinished]
          rfl
        · rw [← show _ = last.tradeCount from congrArg EvalBooks.tradeCount hfinished]
          rfl
        · have hkept : (if last.lastDay ≠ -1 then last.finalizeDailyDrawdownSegment
              else last).maxDd = last.maxDd := by
            have hignores : EvalState.IgnoresDrawdown fun s : EvalState ℚ => s.maxDd :=
              fun _ _ _ _ => rfl
            split
            next => exact hignores.finalize last
            next => rfl
          rw [← hkept]
          rfl
        · have hkept : (if last.lastDay ≠ -1 then last.finalizeDailyDrawdownSegment
              else last).maxDailyDd = (if last.lastDay = -1 then last
                else last.finalizeDailyDrawdownSegment).maxDailyDd := by
            rw [ite_not]
          rw [← hkept]
          rfl

/-- Every finished evaluation keeps its books: the trades do not overlap, the metrics are sums over
them, the days keep their limit, and the months hold the whole profit. -/
theorem evaluator_accounts (runtime : BacktestRuntime ℚ) (inp : EvalInput ℚ) (r : EvalResult ℚ)
    (h : evaluateStrategyWithLedger runtime inp = some r) :
    ∃ last, inp.runBars (inp.settings.initialEquity runtime) (inp.monthCapacity runtime) 1
        (inp.close.length - 1) (EvalState.start inp.settings (inp.settings.initialEquity runtime)
          (inp.monthCapacity runtime)) = some (last, r.events) ∧
      EvalAccounts inp (inp.monthCapacity runtime) r last := by
  obtain ⟨last, hrun, hprofit, hcount, -, -⟩ := evaluate_metrics h
  have hhold := EvalInput.runBars_rule BooksHold.step (BooksHold.start inp _ _) hrun
  rw [List.nil_append] at hhold
  obtain ⟨spans, opened, hspans⟩ := hhold.spans
  have hordered := hspans.ordered
  rw [hspans.split] at hordered
  obtain ⟨hbars, hsequence⟩ := trades_of_spans hordered
  have htrades : r.trades = spans.map fun span => (span.exitBar, span.trade) := by
    rw [EvalResult.trades, hspans.split]
    exact filterMap_spans spans opened
  have hnet : r.metrics.netProfit = (tradePnls r.events).sum := by
    rw [hprofit, show last.equity = _ from hhold.booked.equity]
    ring
  have hpnls := tradePnls_eq r
  refine ⟨last, hrun, ⟨spans, opened, hspans.split, htrades, ?_, hsequence⟩, ?_, ?_, ?_, ?_, ?_,
    ?_⟩
  · intro span hspan
    exact ⟨hbars span hspan, hspans.times span hspan⟩
  · rw [hcount, show last.tradeCount = _ from hhold.booked.trades, ← hpnls, List.length_map]
  · rw [hnet, hpnls]
  · rw [hnet]
    exact hhold.booked.gross
  · rw [show last.wins = _ from hhold.booked.wins, ← hpnls, List.countP_map]
    rfl
  · intro hmax first final hfinal hsame
    rw [entriesBetween_eq]
    exact hhold.days.limit hmax first final (by omega) hsame
  · intro hroom
    have hmoney := hhold.months.money hroom
    have hmonth : last.books.lastMonth = calendarKey inp.monthIdx (inp.close.length - 1) := by
      rw [hhold.months.month, Nat.add_sub_cancel_left]
    rw [hmonth, show last.books.equity = _ from hhold.booked.equity] at hmoney
    rw [monthlessPnls_eq, hnet]
    change _ + (last.monthlyPnls.take (last.monthPtr + 1).toNat).sum +
      (if _ then 0 else last.currentMonthPnl) + _ = _ at hmoney
    linarith

theorem sampleBars_accounts :
    ∃ r, evaluateStrategyWithLedger ⟨1000, 12⟩ sampleBars = some r ∧
      ∃ last, sampleBars.runBars 1000 12 1 4 (EvalState.start sampleSettings 1000 12) =
          some (last, r.events) ∧
        EvalAccounts sampleBars 12 r last := by
  have hfinished : (evaluateStrategyWithLedger ⟨1000, 12⟩ sampleBars).isSome = true := by
    decide +kernel
  obtain ⟨r, hr⟩ := Option.isSome_iff_exists.mp hfinished
  exact ⟨r, hr, evaluator_accounts ⟨1000, 12⟩ sampleBars r hr⟩

/-- The sample bars with the key `-1` on the bar of the first exit. -/
def sampleMarkedMonth : EvalInput ℚ := { sampleBars with monthIdx := [5, 5, -1, 5, 5] }

/-- The profit of a month with that key is stored nowhere, though its bars come behind a roll. -/
theorem sampleMarkedMonth_lost :
    ∃ r last, evaluateStrategyWithLedger ⟨1000, 12⟩ sampleMarkedMonth = some r ∧
      sampleMarkedMonth.runBars 1000 12 1 4 (EvalState.start sampleSettings 1000 12) =
        some (last, r.events) ∧
      last.monthPtr < 12 ∧
      (last.monthlyPnls.take (last.monthPtr + 1).toNat).sum + last.currentMonthPnl +
        ((r.trades.filter fun trade => (List.range (trade.1 + 1)).all fun bar =>
          calendarKey sampleMarkedMonth.monthIdx bar = -1).map (·.2.pnl)).sum ≠
        r.metrics.netProfit := by
  have hfinished : (evaluateStrategyWithLedger ⟨1000, 12⟩ sampleMarkedMonth).isSome = true := by
    decide +kernel
  obtain ⟨r, hr⟩ := Option.isSome_iff_exists.mp hfinished
  obtain ⟨last, hrun, -⟩ := evaluate_metrics hr
  have hprofit : (evaluateStrategyWithLedger ⟨1000, 12⟩ sampleMarkedMonth).map (fun r =>
      (r.metrics.netProfit, ((r.trades.filter fun trade => (List.range (trade.1 + 1)).all fun bar =>
        calendarKey sampleMarkedMonth.monthIdx bar = -1).map (·.2.pnl)).sum)) = some (10, 0) := by
    decide +kernel
  have hmonths : (sampleMarkedMonth.runBars 1000 12 1 4
      (EvalState.start sampleSettings 1000 12)).map (fun out => (out.1.monthPtr,
        (out.1.monthlyPnls.take (out.1.monthPtr + 1).toNat).sum, out.1.currentMonthPnl)) =
      some (0, 0, -10) := by
    decide +kernel
  change sampleMarkedMonth.runBars 1000 12 1 4 (EvalState.start sampleSettings 1000 12) = _ at hrun
  rw [hr, Option.map_some, Option.some.injEq, Prod.mk.injEq] at hprofit
  rw [hrun, Option.map_some, Option.some.injEq, Prod.mk.injEq, Prod.mk.injEq] at hmonths
  obtain ⟨hnet, hbefore⟩ := hprofit
  obtain ⟨hptr, hstored, hcurrent⟩ := hmonths
  refine ⟨r, last, hr, hrun, by rw [hptr]; decide, ?_⟩
  rw [hnet, hbefore, hstored, hcurrent]
  decide +kernel

end Accounts

end Neoethos
