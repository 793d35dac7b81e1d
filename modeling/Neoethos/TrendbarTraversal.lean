import Neoethos.CaptureLoop
import Neoethos.TrendbarRows

namespace Neoethos

variable {σ F : Type}

theorem AcceptedPage.dropWhile_eq {cursorFrom subpageTo pageFirst : Int} {t t' : Traversal F}
    {bars : List (HistoricalBar F)}
    (h : AcceptedPage cursorFrom subpageTo t t' pageFirst bars) (hcursor : cursorFrom < pageFirst) :
    bars.dropWhile (·.timestampMs < cursorFrom) = bars ∧ pageFirst < subpageTo := by
  obtain ⟨first, hfirst, rfl⟩ := Option.map_eq_some_iff.mp h.first
  cases bars with
  | nil => cases hfirst
  | cons bar rest =>
    obtain rfl := Option.some.inj hfirst
    have hkept : (bar :: rest).dropWhile (·.timestampMs < cursorFrom) = bar :: rest :=
      List.dropWhile_cons_of_neg (by simpa using hcursor.le)
    refine ⟨hkept, ?_⟩
    have hinside := h.inside
    rw [hkept] at hinside
    exact (hinside bar List.mem_cons_self).2

/-- The traversal holds bars of the request, strictly ascending. -/
structure Traversal.Sound (fromMs toMs : Int) (t : Traversal F) : Prop where
  rows : ∃ rows, t.Holds rows ∧ Chronological rows ∧
    ∀ bar ∈ rows, fromMs ≤ bar.timestampMs ∧ bar.timestampMs < toMs

theorem AcceptedPage.sound {fromMs toMs cursorFrom subpageTo pageFirst : Int}
    {t t' : Traversal F} {bars : List (HistoricalBar F)}
    (h : AcceptedPage cursorFrom subpageTo t t' pageFirst bars) (ht : t.Sound fromMs toMs)
    (hfrom : fromMs ≤ cursorFrom) (hto : subpageTo ≤ toMs) : t'.Sound fromMs toMs := by
  obtain ⟨rows, hholds, hrows, hinside⟩ := ht.rows
  have hkept : Chronological (bars.dropWhile (·.timestampMs < cursorFrom)) :=
    h.chronological.sublist (List.dropWhile_sublist _)
  refine ⟨_, h.holds rows hholds, List.pairwise_append.mpr ⟨hkept, hrows, ?_⟩, ?_⟩
  · intro bar hbar row hrow
    cases rows with
    | nil => cases hrow
    | cons first rest =>
      have hfirst := h.older _ hholds bar hbar first rfl
      rcases List.mem_cons.mp hrow with rfl | hmem
      · exact hfirst
      · exact hfirst.trans ((List.pairwise_cons.mp hrows).1 row hmem)
  · intro bar hbar
    rcases List.mem_append.mp hbar with hmem | hmem
    · have hbounds := h.inside bar hmem
      omega
    · exact hinside bar hmem

section Runs

variable [DecidableEq F] [FloatOps F] {session : HistoricalSession σ F}
  {timeframe : CanonicalTimeframe}

/-- The pages of a logical chunk from an exclusive upper bound down. -/
inductive SubpageRun (session : HistoricalSession σ F) (timeframe : CanonicalTimeframe)
    (cursorFrom : Int) : Int → Traversal F → σ → Traversal F → σ → Prop
  | empty {subpageTo : Int} {t : Traversal F} {state state' : σ} {page : HistoricalPage F} :
    session.nextPage state ⟨timeframe, cursorFrom, subpageTo - 1⟩ = .ok (page, state') →
    page.bars = [] → page.hasMore = false →
    SubpageRun session timeframe cursorFrom subpageTo t state t state'
  | last {subpageTo pageFirst : Int} {t t' : Traversal F} {state state' : σ}
      {page : HistoricalPage F} {bars : List (HistoricalBar F)} :
    session.nextPage state ⟨timeframe, cursorFrom, subpageTo - 1⟩ = .ok (page, state') →
    normalizeBrokerBarOrder page.bars = .ok bars →
    AcceptedPage cursorFrom subpageTo t t' pageFirst bars →
    page.hasMore = false →
    SubpageRun session timeframe cursorFrom subpageTo t state t' state'
  | more {subpageTo pageFirst : Int} {t t' t'' : Traversal F} {state state' state'' : σ}
      {page : HistoricalPage F} {bars : List (HistoricalBar F)} :
    session.nextPage state ⟨timeframe, cursorFrom, subpageTo - 1⟩ = .ok (page, state') →
    normalizeBrokerBarOrder page.bars = .ok bars →
    AcceptedPage cursorFrom subpageTo t t' pageFirst bars →
    page.hasMore = true → cursorFrom < pageFirst →
    SubpageRun session timeframe cursorFrom pageFirst t' state' t'' state'' →
    SubpageRun session timeframe cursorFrom subpageTo t state t'' state''

theorem subpageRun_of_capture {cursorFrom pageTo subpageTo : Int} {pagesLeft pagesLeft' : Nat}
    {t t' : Traversal F} {state state' : σ}
    (h : captureSubpages session timeframe cursorFrom pageTo pagesLeft subpageTo t state =
      .ok (pagesLeft', t', state')) :
    SubpageRun session timeframe cursorFrom subpageTo t state t' state' := by
  induction pagesLeft generalizing subpageTo t state with
  | zero => cases h
  | succ pagesLeft ih =>
    unfold captureSubpages at h
    cases hwire : ctraderInclusiveWireToMs (F := F) subpageTo with
    | error e => simp [hwire] at h
    | ok wireTo =>
      have hwireTo : wireTo = subpageTo - 1 := by
        unfold ctraderInclusiveWireToMs at hwire
        split at hwire
        next => cases hwire
        next wire hsub =>
          obtain rfl := Except.ok.inj hwire
          exact (I64.checkedSub_eq_some.mp hsub).2
      subst hwireTo
      cases hpage : session.nextPage state ⟨timeframe, cursorFrom, subpageTo - 1⟩ with
      | error e => simp [hwire, hpage] at h
      | ok out =>
        obtain ⟨page, between⟩ := out
        simp only [hwire, hpage] at h
        split at h
        next => cases h
        next =>
          split at h
          next => cases h
          next =>
            split at h
            next hempty =>
              split at h
              next => cases h
              next hmore =>
                obtain ⟨rfl, rfl, rfl⟩ : _ ∧ _ ∧ _ := by simpa using h
                exact .empty hpage (by simpa using hempty) (by simpa using hmore)
            next =>
              cases haccept : acceptPage timeframe cursorFrom subpageTo t page.bars with
              | error e => simp [haccept] at h
              | ok out =>
                obtain ⟨mid, pageFirst⟩ := out
                obtain ⟨bars, hnormal, haccepted⟩ := acceptPage_ok haccept
                simp only [haccept] at h
                split at h
                next hlast =>
                  obtain ⟨rfl, rfl, rfl⟩ : _ ∧ _ ∧ _ := by simpa using h
                  exact .last hpage hnormal haccepted hlast
                next hmore =>
                  split at h
                  next => cases h
                  next hcursor =>
                    exact .more hpage hnormal haccepted (by simpa using hmore)
                      (not_le.mp hcursor) (ih h)

omit [FloatOps F] in
theorem SubpageRun.sound {fromMs toMs cursorFrom subpageTo : Int} {t t' : Traversal F}
    {state state' : σ}
    (h : SubpageRun session timeframe cursorFrom subpageTo t state t' state')
    (ht : t.Sound fromMs toMs) (hfrom : fromMs ≤ cursorFrom) (hto : subpageTo ≤ toMs) :
    t'.Sound fromMs toMs := by
  induction h with
  | empty => exact ht
  | last hpage hnormal haccepted hlast => exact haccepted.sound ht hfrom hto
  | more hpage hnormal haccepted hmore hcursor hrest ih =>
    have hbound := (haccepted.dropWhile_eq hcursor).2
    exact ih (haccepted.sound ht hfrom hto) (by omega)

omit [DecidableEq F] [FloatOps F] in
theorem chunkLowerBound_bounds {chunkMs : Option Int} {fromMs cursorTo : Int}
    (hwidth : ∀ width ∈ chunkMs, 0 ≤ width) (hfrom : 0 ≤ fromMs) (hcursor : fromMs < cursorTo) :
    fromMs ≤ chunkLowerBound chunkMs fromMs cursorTo ∧
      chunkLowerBound chunkMs fromMs cursorTo ≤ cursorTo := by
  unfold chunkLowerBound
  cases chunkMs with
  | none => exact ⟨le_refl _, hcursor.le⟩
  | some width =>
    have hpos := hwidth width rfl
    unfold I64.saturatingSub I64.minValue
    unfold I64.maxValue at *
    dsimp only
    omega

/-- The chunks from an exclusive upper bound down: each is a run over its pages. -/
inductive ChunkRun (session : HistoricalSession σ F) (timeframe : CanonicalTimeframe)
    (fromMs : Int) : Int → Traversal F → σ → Int → Traversal F → σ → Prop
  | stop {cursorTo : Int} {t : Traversal F} {state : σ} :
    ChunkRun session timeframe fromMs cursorTo t state cursorTo t state
  | chunk {cursorTo cursorFrom reached : Int} {t t' t'' : Traversal F}
      {state state' state'' : σ} :
    fromMs ≤ cursorFrom → cursorFrom ≤ cursorTo →
    SubpageRun session timeframe cursorFrom cursorTo t state t' state' →
    ChunkRun session timeframe fromMs cursorFrom t' state' reached t'' state'' →
    ChunkRun session timeframe fromMs cursorTo t state reached t'' state''

theorem chunkRun_of_capture {chunkMs : Option Int} {fromMs cursorTo reached : Int}
    {chunksLeft pagesLeft : Nat} {t t' : Traversal F} {state state' : σ}
    (hwidth : ∀ width ∈ chunkMs, 0 ≤ width) (hfrom : 0 ≤ fromMs)
    (h : captureLogicalChunks session timeframe chunkMs fromMs chunksLeft pagesLeft cursorTo t
      state = .ok (reached, t', state')) :
    ChunkRun session timeframe fromMs cursorTo t state reached t' state' := by
  induction chunksLeft generalizing pagesLeft cursorTo t state with
  | zero =>
    obtain ⟨rfl, rfl, rfl⟩ : _ ∧ _ ∧ _ := by simpa [captureLogicalChunks] using h
    exact .stop
  | succ chunksLeft ih =>
    unfold captureLogicalChunks at h
    by_cases hcursor : fromMs < cursorTo
    · rw [if_pos hcursor] at h
      obtain ⟨hlower, hupper⟩ := chunkLowerBound_bounds hwidth hfrom hcursor
      cases hpages : captureSubpages session timeframe (chunkLowerBound chunkMs fromMs cursorTo)
        cursorTo pagesLeft cursorTo t state with
      | error e => simp [hpages] at h
      | ok out =>
        obtain ⟨left, mid, between⟩ := out
        simp only [hpages] at h
        exact .chunk hlower hupper (subpageRun_of_capture hpages) (ih h)
    · rw [if_neg hcursor] at h
      obtain ⟨rfl, rfl, rfl⟩ : _ ∧ _ ∧ _ := by simpa using h
      exact .stop

omit [FloatOps F] in
theorem ChunkRun.sound {fromMs toMs cursorTo reached : Int} {t t' : Traversal F}
    {state state' : σ} (h : ChunkRun session timeframe fromMs cursorTo t state reached t' state')
    (ht : t.Sound fromMs toMs) (hto : cursorTo ≤ toMs) : t'.Sound fromMs toMs := by
  induction h with
  | stop => exact ht
  | chunk hfrom hle hpages hrest ih => exact ih (hpages.sound ht hfrom hto) (by omega)

end Runs

end Neoethos
