import Neoethos.EvaluatorMetrics

namespace Neoethos

open FloatOps (lit lt le isFinite)

variable {F : Type*}

namespace EvalInput

/-- Every caller that records trades passes one timestamp for each bar, or none at all. -/
def Aligned (inp : EvalInput F) : Prop :=
  inp.timestamps = [] ∨ inp.timestamps.length = inp.close.length

/-- Two inputs with the same bars up to `k`, the same decisions before `k`, and the same
settings. -/
structure Agree (k : Nat) (a b : EvalInput F) : Prop where
  close : ∀ i ≤ k, b.close[i]? = a.close[i]?
  high : ∀ i ≤ k, b.high[i]? = a.high[i]?
  low : ∀ i ≤ k, b.low[i]? = a.low[i]?
  monthIdx : ∀ i ≤ k, b.monthIdx[i]? = a.monthIdx[i]?
  dayIdx : ∀ i ≤ k, b.dayIdx[i]? = a.dayIdx[i]?
  timestamps : ∀ i ≤ k, b.timestamps[i]? = a.timestamps[i]?
  signals : ∀ j < k, b.signals[j]? = a.signals[j]?
  confidences : ∀ j < k, b.confidences[j]? = a.confidences[j]?
  scalars : b.settings = { a.settings with adaptiveBasePips := b.settings.adaptiveBasePips }
  adaptive : b.settings.adaptiveBasePips.isSome = a.settings.adaptiveBasePips.isSome
  bases : ∀ j < k, b.settings.adaptiveBasePips.bind (·[j]?) = a.settings.adaptiveBasePips.bind (·[j]?)
  tape : Option.Rel (fun s t : NettedTape F => t.lotGrid = s.lotGrid ∧
    t.monthCapacity = s.monthCapacity ∧ ∀ j < k, t.slPips[j]? = s.slPips[j]? ∧
      t.tpPips[j]? = s.tpPips[j]? ∧ t.mlMultipliers[j]? = s.mlMultipliers[j]?) a.netted b.netted

/-- The two inputs also take the same branch where the evaluator looks at a whole series. -/
structure SameFlags (a b : EvalInput F) : Prop where
  useTimestamps : b.useTimestamps = a.useTimestamps
  useRiskSizing : b.useRiskSizing = a.useRiskSizing

theorem Agree.tape_cases {k : Nat} {a b : EvalInput F} (h : Agree k a b) :
    (a.netted = none ∧ b.netted = none) ∨ ∃ s t, a.netted = some s ∧ b.netted = some t ∧
      t.lotGrid = s.lotGrid ∧ t.monthCapacity = s.monthCapacity ∧
      ∀ j < k, t.slPips[j]? = s.slPips[j]? ∧ t.tpPips[j]? = s.tpPips[j]? ∧
        t.mlMultipliers[j]? = s.mlMultipliers[j]? := by
  have ht := h.tape
  cases ha : a.netted with
  | none =>
    rw [ha] at ht
    cases hb : b.netted with
    | none => exact Or.inl ⟨rfl, rfl⟩
    | some t =>
      rw [hb] at ht
      cases ht
  | some s =>
    rw [ha] at ht
    cases hb : b.netted with
    | none =>
      rw [hb] at ht
      cases ht
    | some t =>
      rw [hb] at ht
      cases ht with
      | some hst => exact Or.inr ⟨s, t, rfl, rfl, hst⟩

theorem Agree.useTimestamps_eq {k : Nat} {a b : EvalInput F} (h : Agree k a b) (ha : a.Aligned)
    (hb : b.Aligned) :
    b.useTimestamps = a.useTimestamps := by
  have hzero := h.timestamps 0 (Nat.zero_le k)
  unfold useTimestamps
  cases hat : a.timestamps with
  | nil =>
    rw [hat] at hzero
    have hbt : b.timestamps = [] := by simpa using hzero
    simp [hbt]
  | cons t ts =>
    rw [hat] at hzero
    have hbne : b.timestamps ≠ [] := by
      intro hnil
      simp [hnil] at hzero
    have hlen := ha.resolve_left (by simp [hat])
    rw [hat] at hlen
    have hlenb := hb.resolve_left hbne
    simp [hbne, hlen, hlenb]

theorem Agree.useRiskSizing_eq {k : Nat} {a b : EvalInput F} (h : Agree k a b) (hk : 0 < k) :
    b.useRiskSizing = a.useRiskSizing := by
  have hzero := h.confidences 0 hk
  unfold useRiskSizing
  rw [h.scalars]
  cases ha : a.confidences with
  | nil =>
    rw [ha] at hzero
    have hb : b.confidences = [] := by simpa using hzero
    rw [hb]
  | cons c cs =>
    rw [ha] at hzero
    cases hb : b.confidences with
    | nil => simp [hb] at hzero
    | cons d ds => rfl

section Congruence

variable {k : Nat} {a b : EvalInput F}

theorem Agree.timestampAt_eq (h : Agree k a b) {i : Nat} (hi : i ≤ k) :
    b.timestampAt i = a.timestampAt i := by
  unfold timestampAt
  rw [h.timestamps i hi]

variable [FloatOps F]

theorem Agree.pip_eq (h : Agree k a b) : b.pip = a.pip := by
  unfold pip
  rw [h.scalars]

theorem Agree.halfSpread_eq (h : Agree k a b) (hf : SameFlags a b) {i : Nat} (hi : i ≤ k) :
    b.halfSpread i = a.halfSpread i := by
  unfold halfSpread
  rw [h.pip_eq, h.timestampAt_eq hi, hf.useTimestamps, h.scalars]

omit [FloatOps F] in
theorem Agree.gapExit_eq (h : Agree k a b) (hf : SameFlags a b) {i : Nat} (hi : i ≤ k) :
    b.gapExit i = a.gapExit i := by
  unfold gapExit
  rw [h.timestampAt_eq hi, h.timestampAt_eq (Nat.le_trans (Nat.sub_le i 1) hi), hf.useTimestamps,
    h.scalars]

theorem Agree.closedPnl_eq (h : Agree k a b) (hf : SameFlags a b) {i : Nat} (hi : i ≤ k)
    {s : EvalState F} (hs : s.entryIdx ≤ i) (exitPx : F) :
    b.closedPnl i s exitPx = a.closedPnl i s exitPx := by
  have hentry : s.entryIdx.toNat ≤ k := by omega
  unfold closedPnl
  rw [h.halfSpread_eq hf hi, h.pip_eq, h.timestampAt_eq hi, h.timestampAt_eq hentry,
    hf.useTimestamps, h.scalars]
  rfl

theorem Agree.closedTrade_eq (h : Agree k a b) (initialEquity : F) (s : EvalState F)
    (entryTime exitTime : Int) (pnl : F) :
    b.closedTrade initialEquity s entryTime exitTime pnl =
      a.closedTrade initialEquity s entryTime exitTime pnl := by
  unfold closedTrade
  rw [h.scalars]

theorem Agree.closeTrade_eq (h : Agree k a b) (hf : SameFlags a b) {i : Nat} (hi : i ≤ k)
    {s : EvalState F} (hs : s.entryIdx ≤ i) (initialEquity exitPx : F) :
    b.closeTrade initialEquity i s exitPx = a.closeTrade initialEquity i s exitPx := by
  unfold closeTrade
  rw [h.closedPnl_eq hf hi hs]
  simp only [h.closedTrade_eq]

theorem Agree.entryGeometry_eq (h : Agree k a b) {j : Nat} (hj : j < k) :
    b.entryGeometry j = a.entryGeometry j := by
  unfold entryGeometry
  rcases h.tape_cases with ⟨ha, hb⟩ | ⟨s, t, ha, hb, -, -, hcells⟩
  · have he : entrySlTpPips b.settings j = entrySlTpPips a.settings j := by
      unfold entrySlTpPips
      rw [h.bases j hj, h.adaptive, h.scalars]
    rw [ha, hb, he]
  · obtain ⟨hsl, htp, hml⟩ := hcells j hj
    rw [ha, hb]
    simp only [hsl, htp, hml]

theorem Agree.entryLots_eq (h : Agree k a b) (hf : SameFlags a b) {j : Nat} (hj : j < k)
    (equity entrySl sizeMultiplier : F) :
    b.entryLots j equity entrySl sizeMultiplier = a.entryLots j equity entrySl sizeMultiplier := by
  have hlots : riskBasedPosLots (b.confidences[j]?.getD (lit 1)) equity entrySl b.settings =
      riskBasedPosLots (a.confidences[j]?.getD (lit 1)) equity entrySl a.settings := by
    rw [h.confidences j hj, h.scalars]
    rfl
  unfold entryLots
  rw [hf.useRiskSizing, hlots]
  rcases h.tape_cases with ⟨ha, hb⟩ | ⟨s, t, ha, hb, hgrid, -, -⟩
  · rw [ha, hb]
  · rw [ha, hb]
    simp only [hgrid]

theorem Agree.tryEnter_eq (h : Agree k a b) (hf : SameFlags a b) {i : Nat} (hpos : 0 < i)
    (hi : i ≤ k) (s : EvalState F) (close : F) (blocked : Bool) :
    b.tryEnter i s close blocked = a.tryEnter i s close blocked := by
  have hj : i - 1 < k := by omega
  unfold tryEnter
  rw [h.signals _ hj, h.entryGeometry_eq hj, h.halfSpread_eq hf hi]
  simp only [h.entryLots_eq hf hj]
  rw [h.scalars]

end Congruence

end EvalInput

namespace EvalState

variable [FloatOps F]

/-- What the congruence and the metrics need to know of a step: the entry bar, the number of
completed months and the room for them. -/
def kept (s : EvalState F) : Int × Int × Nat × Nat :=
  (s.entryIdx, s.monthPtr, s.monthlyPnls.length, s.monthStartEquities.length)

theorem kept_finalize (s : EvalState F) : s.finalizeDailyDrawdownSegment.kept = s.kept := by
  unfold finalizeDailyDrawdownSegment
  by_cases hp : lt (lit 0) s.dayPeak = true
  · by_cases hd : lt s.maxDailyDd ((s.dayPeak - s.dayLow) / s.dayPeak) = true
    · simp only [hp, hd, if_true]
      rfl
    · simp only [hp, hd, if_true]
      rfl
  · rw [if_neg hp]

theorem kept_rollDay (s : EvalState F) (day : Option Int) : (s.rollDay day).kept = s.kept := by
  unfold rollDay
  by_cases hv : day.getD s.lastDay = s.lastDay
  · simp only [hv, ne_eq, not_true_eq_false, if_false]
  · by_cases hd : s.lastDay = -1
    · simp only [hd, ne_eq, not_true_eq_false, if_false]
      split <;> rfl
    · simp only [hv, hd, ne_eq, not_false_eq_true, if_true]
      exact s.kept_finalize

theorem kept_noteDrawdown (s : EvalState F) (equity : F) :
    (s.noteDrawdown equity).kept = s.kept := by
  have hset (drawdown : F) :
      (if lt s.maxDd drawdown = true then { s with maxDd := drawdown } else s).kept = s.kept := by
    split <;> rfl
  exact hset _

/-- A new peak of the day ends the segment before it. -/
theorem kept_markDay (s : EvalState F) (high low : F) :
    (if lt s.dayPeak high = true then
        { s.finalizeDailyDrawdownSegment with dayPeak := high, dayLow := low }
      else if lt low s.dayLow = true then { s with dayLow := low } else s).kept = s.kept := by
  split
  next => exact s.kept_finalize
  next => split <;> rfl

theorem kept_floatPosition (s : EvalState F) (settings : BacktestSettings F) (pip hi lo : F) :
    (s.floatPosition settings pip hi lo).kept = s.kept := by
  have hpeak (high : F) :
      (if lt s.peakEquity high = true then { s with peakEquity := high } else s).kept = s.kept := by
    split <;> rfl
  exact (kept_noteDrawdown _ _).trans ((kept_markDay _ _ _).trans (hpeak _))

theorem kept_bookTrade (s : EvalState F) (pnl : F) : (EvalInput.bookTrade s pnl).kept = s.kept :=
  (kept_noteDrawdown _ _).trans (kept_markDay _ _ _)

theorem kept_trackExcursion (s : EvalState F) (settings : BacktestSettings F) (pip hi lo : F) :
    (s.trackExcursion settings pip hi lo).kept = s.kept := rfl

/-- What a step may do to those four: open a position at bar `i`, and count a month. -/
structure Advance (i : Nat) (s next : EvalState F) : Prop where
  entry : next.entryIdx = s.entryIdx ∨ next.entryIdx = i
  month : s.monthPtr ≤ next.monthPtr
  pnls : next.monthlyPnls.length = s.monthlyPnls.length
  starts : next.monthStartEquities.length = s.monthStartEquities.length

omit [FloatOps F] in
theorem Advance.trans {i : Nat} {s t u : EvalState F} (h : Advance i s t) (h' : Advance i t u) :
    Advance i s u where
  entry := by
    rcases h'.entry with he | he
    · rw [he]
      exact h.entry
    · exact Or.inr he
  month := h.month.trans h'.month
  pnls := h'.pnls.trans h.pnls
  starts := h'.starts.trans h.starts

omit [FloatOps F] in
theorem advance_of_kept {i : Nat} {s next : EvalState F} (h : next.kept = s.kept) :
    Advance i s next := by
  unfold kept at h
  simp only [Prod.mk.injEq] at h
  obtain ⟨hentry, hmonth, hpnls, hstarts⟩ := h
  exact ⟨Or.inl hentry, le_of_eq hmonth.symm, hpnls, hstarts⟩

theorem advance_rollMonth (s : EvalState F) (monthCapacity : Nat) (month : Option Int) (i : Nat) :
    Advance i s (s.rollMonth monthCapacity month) := by
  unfold rollMonth
  by_cases hv : month.getD s.lastMonth = s.lastMonth
  · simp only [hv, ne_eq, not_true_eq_false, if_false]
    exact advance_of_kept rfl
  · by_cases hm : s.lastMonth = -1
    · simp only [hm, ne_eq, not_true_eq_false, if_false]
      split <;> exact advance_of_kept rfl
    · simp only [hv, hm, ne_eq, not_false_eq_true, if_true]
      split
      next => exact ⟨Or.inl rfl, by dsimp only; omega, List.length_set, List.length_set⟩
      next => exact ⟨Or.inl rfl, by dsimp only; omega, rfl, rfl⟩

end EvalState

namespace EvalInput

variable [FloatOps F] {initialEquity : F} {monthCapacity i : Nat} {inp : EvalInput F}
  {s next : EvalState F} {event : Option (BarEvent F)}

theorem closeTrade_kept {exitPx : F}
    (h : inp.closeTrade initialEquity i s exitPx = some (next, event)) : next.kept = s.kept := by
  obtain ⟨⟨entryTsMs, exitTsMs, pnl⟩, -, heq⟩ := Option.map_eq_some_iff.mp h
  obtain ⟨rfl, rfl⟩ := Prod.mk.inj heq
  exact s.kept_bookTrade pnl

theorem managePosition_kept {hi lo close : F} {sessionClose : Bool}
    (h : inp.managePosition initialEquity i s hi lo close sessionClose = some (next, event)) :
    next.kept = s.kept := by
  unfold managePosition at h
  dsimp only at h
  have hfloat := s.kept_floatPosition inp.settings inp.pip hi lo
  split at h
  next => exact (closeTrade_kept h).trans hfloat
  next =>
    split at h
    next => exact (closeTrade_kept h).trans hfloat
    next =>
      obtain ⟨rfl, -⟩ := Prod.mk.inj (Option.some.inj h)
      exact hfloat

/-- What the entry arm does to the state: it counts a refused entry, or opens a position. -/
theorem tryEnter_cases {close : F} {blocked : Bool}
    (h : inp.tryEnter i s close blocked = some (next, event)) :
    (∃ belowMinEntries, next = { s with belowMinEntries := belowMinEntries }) ∨
      ∃ side entryPx posSlPips posTpPips posLots, next = { s with
        inPos := side
        entryPx := entryPx
        entryIdx := i
        trailPx := lit 0
        mfeMoney := lit 0
        maeMoney := lit 0
        dayTradeCount := s.dayTradeCount + 1
        posSlPips := posSlPips
        posTpPips := posTpPips
        posLots := posLots } := by
  have hidle {x : EvalState F × Option (BarEvent F)} (hsame : some (s, none) = some x) :
      ∃ belowMinEntries, x.1 = { s with belowMinEntries := belowMinEntries } := by
    obtain rfl := Option.some.inj hsame
    exact ⟨s.belowMinEntries, rfl⟩
  unfold tryEnter at h
  split at h
  next => cases h
  next signal _ =>
    split at h
    next => exact Or.inl (hidle h)
    next =>
      split at h
      next => exact Or.inl (hidle h)
      next =>
        split at h
        next => cases h
        next => exact Or.inl (hidle h)
        next =>
          split at h
          next => exact Or.inl (hidle h)
          next =>
            split at h
            next =>
              obtain ⟨rfl, -⟩ := Prod.mk.inj (Option.some.inj h)
              exact Or.inl ⟨_, rfl⟩
            next =>
              obtain ⟨rfl, -⟩ := Prod.mk.inj (Option.some.inj h)
              exact Or.inr ⟨_, _, _, _, _, rfl⟩

theorem tryEnter_advance {close : F} {blocked : Bool}
    (h : inp.tryEnter i s close blocked = some (next, event)) : EvalState.Advance i s next := by
  rcases tryEnter_cases h with ⟨_, rfl⟩ | ⟨_, _, _, _, _, rfl⟩
  · exact EvalState.advance_of_kept rfl
  · exact ⟨Or.inr rfl, le_refl _, rfl, rfl⟩

theorem step_advance (h : inp.step initialEquity monthCapacity i s = some (next, event)) :
    EvalState.Advance i s next := by
  unfold step at h
  dsimp only at h
  have hrolled := (s.advance_rollMonth monthCapacity inp.monthIdx[i]? i).trans
    (EvalState.advance_of_kept (EvalState.kept_rollDay _ inp.dayIdx[i]?))
  split at h
  next => cases h
  next =>
    split at h
    next => exact hrolled.trans (tryEnter_advance h)
    next =>
      split at h
      next =>
        split at h
        next =>
          have hkept := (closeTrade_kept h).trans (EvalState.kept_trackExcursion _ _ _ _ _)
          exact hrolled.trans (EvalState.advance_of_kept hkept)
        next =>
          have hkept := (managePosition_kept h).trans (EvalState.kept_trackExcursion _ _ _ _ _)
          exact hrolled.trans (EvalState.advance_of_kept hkept)
      next => cases h

end EvalInput

end Neoethos
