import Neoethos.TrendbarTraversal

namespace Neoethos

variable {σ F : Type}

/-- Each bar of the first list, in order, one or more times. -/
inductive Repeated {α : Type} : List α → List α → Prop
  | nil : Repeated [] []
  | cons {x : α} {xs raw : List α} (n : Nat) :
    Repeated xs raw → Repeated (x :: xs) (List.replicate (n + 1) x ++ raw)

/-- The bars that open in `[lower, upper)`. -/
def barsInside (bars : List (HistoricalBar F)) (lower upper : Int) : List (HistoricalBar F) :=
  bars.filter fun bar => lower ≤ bar.timestampMs ∧ bar.timestampMs < upper

/-- The newest bars of the range, each perhaps repeated, perhaps after the bar that contains the
start of the range; more exactly when older bars of the range were left out. -/
structure HonestAnswer (bars : List (HistoricalBar F)) (lower upper : Int)
    (page : HistoricalPage F) : Prop where
  answer : ∃ (k : Nat) (leading : List (HistoricalBar F)), 1 ≤ k ∧ leading.length ≤ 1 ∧
    (∀ bar ∈ leading, bar.timestampMs < lower) ∧
    Repeated (leading ++ Pagination.newest k (barsInside bars lower upper)) page.bars ∧
    (page.hasMore = true ↔ k < (barsInside bars lower upper).length)

/-- A session of a broker that holds the bars of each timeframe. The wire bound is inclusive. -/
def HonestSession (session : HistoricalSession σ F)
    (bars : CanonicalTimeframe → List (HistoricalBar F)) : Prop :=
  (∀ timeframe, Chronological (bars timeframe)) ∧
    ∀ state request page state', session.nextPage state request = .ok (page, state') →
      HonestAnswer (bars request.timeframe) request.fromTimestampMs
        (request.toTimestampMs + 1) page

section Normalize

variable [DecidableEq F]

theorem normalizeFrom_replicate (row n : Nat) (previous : HistoricalBar F)
    (raw : List (HistoricalBar F)) :
    normalizeFrom row previous (List.replicate n previous ++ raw) =
      normalizeFrom (row + n) previous raw := by
  induction n generalizing row with
  | zero => rfl
  | succ n ih =>
    rw [List.replicate_succ, List.cons_append]
    conv_lhs => unfold normalizeFrom
    rw [if_neg (lt_irrefl _), if_pos ⟨rfl, rfl⟩, ih, show row + 1 + n = row + (n + 1) by omega]

theorem normalizeFrom_repeated {row : Nat} {previous : HistoricalBar F}
    {bars raw : List (HistoricalBar F)} (h : Repeated bars raw)
    (hchronological : Chronological (previous :: bars)) :
    normalizeFrom row previous raw = .ok bars := by
  induction h generalizing row previous with
  | nil => rfl
  | @cons bar bars raw n hrest ih =>
    obtain ⟨hfirst, htail⟩ := List.pairwise_cons.mp hchronological
    rw [List.replicate_succ, List.cons_append]
    unfold normalizeFrom
    rw [if_pos (hfirst bar List.mem_cons_self), normalizeFrom_replicate, ih htail]
    rfl

theorem normalize_repeated {bars raw : List (HistoricalBar F)} (h : Repeated bars raw)
    (hchronological : Chronological bars) : normalizeBrokerBarOrder raw = .ok bars := by
  cases h with
  | nil => rfl
  | cons n hrest =>
    rw [List.replicate_succ, List.cons_append]
    unfold normalizeBrokerBarOrder
    dsimp only
    rw [normalizeFrom_replicate, normalizeFrom_repeated hrest hchronological]
    rfl

end Normalize

section Ranges

variable {bars : List (HistoricalBar F)} {lower mid upper : Int}

theorem mem_barsInside {bar : HistoricalBar F} :
    bar ∈ barsInside bars lower upper ↔
      bar ∈ bars ∧ lower ≤ bar.timestampMs ∧ bar.timestampMs < upper := by
  simp [barsInside]

theorem chronological_barsInside (h : Chronological bars) (lower upper : Int) :
    Chronological (barsInside bars lower upper) :=
  h.sublist List.filter_sublist

/-- The ranges below and above a bound make up the whole range. -/
theorem barsInside_append (h : Chronological bars) (hlower : lower ≤ mid) (hupper : mid ≤ upper) :
    barsInside bars lower mid ++ barsInside bars mid upper = barsInside bars lower upper := by
  have hsorted : Pagination.Sorted HistoricalBar.timestampMs bars := h.imp fun hlt => hlt.le
  let broker : HonestBroker (HistoricalBar F) HistoricalBar.timestampMs :=
    ⟨bars, hsorted, 1, Nat.one_pos⟩
  exact (broker.range_append hlower hupper).symm

/-- Where a page was cut, it holds the range from its first bar on. -/
theorem barsInside_of_cut (h : Chronological bars) {front page : List (HistoricalBar F)}
    {first : HistoricalBar F} (hsplit : barsInside bars lower upper = front ++ first :: page) :
    barsInside bars first.timestampMs upper = first :: page := by
  have hinside := chronological_barsInside h lower upper
  rw [hsplit] at hinside
  obtain ⟨hfront, hpage, hcross⟩ := List.pairwise_append.mp hinside
  have hmem : first ∈ barsInside bars lower upper := by simp [hsplit]
  have hbounds := (mem_barsInside.mp hmem).2
  have hfilter : barsInside bars first.timestampMs upper =
      (barsInside bars lower upper).filter (first.timestampMs ≤ ·.timestampMs) := by
    unfold barsInside
    rw [List.filter_filter]
    refine List.filter_congr fun bar _ => Bool.eq_iff_iff.mpr ?_
    simp only [Bool.and_eq_true, decide_eq_true_eq]
    omega
  rw [hfilter, hsplit, List.filter_append]
  have hnone : front.filter (first.timestampMs ≤ ·.timestampMs) = [] := by
    refine List.filter_eq_nil_iff.mpr fun bar hbar => ?_
    have := hcross bar hbar first List.mem_cons_self
    simpa using this
  have hall : (first :: page).filter (first.timestampMs ≤ ·.timestampMs) = first :: page := by
    refine List.filter_eq_self.mpr fun bar hbar => ?_
    rcases List.mem_cons.mp hbar with rfl | hlater
    · simp
    · simpa using ((List.pairwise_cons.mp hpage).1 bar hlater).le
  rw [hnone, hall, List.nil_append]

end Ranges

section Answers

variable {bars : List (HistoricalBar F)} {lower upper : Int}
  {page : HistoricalPage F}

theorem chronological_answer (h : Chronological bars) {leading : List (HistoricalBar F)}
    (hone : leading.length ≤ 1) (hleading : ∀ bar ∈ leading, bar.timestampMs < lower) (k : Nat) :
    Chronological (leading ++ Pagination.newest k (barsInside bars lower upper)) := by
  have hnewest : Chronological (Pagination.newest k (barsInside bars lower upper)) :=
    (chronological_barsInside h lower upper).sublist (List.drop_sublist _ _)
  refine List.pairwise_append.mpr ⟨?_, hnewest, ?_⟩
  · cases leading with
    | nil => exact List.Pairwise.nil
    | cons bar rest =>
      have hnil : rest = [] := List.length_eq_zero_iff.mp (by simpa using hone)
      rw [hnil]
      exact List.pairwise_singleton _ _
  · intro bar hbar later hlater
    have hlower := (mem_barsInside.mp (List.mem_of_mem_drop hlater)).2.1
    have hbefore := hleading bar hbar
    omega

theorem dropWhile_answer {leading : List (HistoricalBar F)}
    (hleading : ∀ bar ∈ leading, bar.timestampMs < lower) (k : Nat) :
    (leading ++ Pagination.newest k (barsInside bars lower upper)).dropWhile
        (·.timestampMs < lower) =
      Pagination.newest k (barsInside bars lower upper) := by
  induction leading with
  | nil =>
    rw [List.nil_append]
    cases hnewest : Pagination.newest k (barsInside bars lower upper) with
    | nil => rfl
    | cons first rest =>
      have hmem : first ∈ Pagination.newest k (barsInside bars lower upper) := by simp [hnewest]
      have hlower := (mem_barsInside.mp (List.mem_of_mem_drop hmem)).2.1
      exact List.dropWhile_cons_of_neg (by simpa using hlower)
  | cons bar rest ih =>
    obtain ⟨hbar, hrest⟩ := List.forall_mem_cons.mp hleading
    rw [List.cons_append, List.dropWhile_cons_of_pos (by simpa using hbar)]
    exact ih hrest

theorem HonestAnswer.empty (h : HonestAnswer bars lower upper page) (hempty : page.bars = []) :
    barsInside bars lower upper = [] := by
  obtain ⟨k, leading, hk, -, -, hrepeated, -⟩ := h.answer
  rw [hempty] at hrepeated
  have hnil : leading ++ Pagination.newest k (barsInside bars lower upper) = [] := by
    generalize hanswer : leading ++ Pagination.newest k (barsInside bars lower upper) = answer
      at hrepeated
    cases hrepeated with
    | nil => rfl
  have hnewest := (List.append_eq_nil_iff.mp hnil).2
  unfold Pagination.newest at hnewest
  have hlength := List.drop_eq_nil_iff.mp hnewest
  exact List.length_eq_zero_iff.mp (by omega)

variable [DecidableEq F]

theorem HonestAnswer.normalized (h : HonestAnswer bars lower upper page) (hbars : Chronological bars)
    {normal : List (HistoricalBar F)} (hnormal : normalizeBrokerBarOrder page.bars = .ok normal) :
    ∃ (k : Nat) (leading : List (HistoricalBar F)), 1 ≤ k ∧
      (∀ bar ∈ leading, bar.timestampMs < lower) ∧
      normal = leading ++ Pagination.newest k (barsInside bars lower upper) ∧
      (page.hasMore = true ↔ k < (barsInside bars lower upper).length) := by
  obtain ⟨k, leading, hk, hone, hleading, hrepeated, hmore⟩ := h.answer
  refine ⟨k, leading, hk, hleading, ?_, hmore⟩
  have heq := normalize_repeated hrepeated (chronological_answer hbars hone hleading k)
  exact Except.ok.inj (hnormal.symm.trans heq)

/-- The last page of a logical chunk holds the rest of its range. -/
theorem HonestAnswer.last (h : HonestAnswer bars lower upper page) (hbars : Chronological bars)
    {normal : List (HistoricalBar F)} (hnormal : normalizeBrokerBarOrder page.bars = .ok normal)
    (hlast : page.hasMore = false) :
    normal.dropWhile (·.timestampMs < lower) = barsInside bars lower upper := by
  obtain ⟨k, leading, -, hleading, rfl, hmore⟩ := h.normalized hbars hnormal
  have hall : (barsInside bars lower upper).length ≤ k := by
    rw [hlast] at hmore
    simpa using hmore
  rw [dropWhile_answer hleading, Pagination.newest_short hall]

/-- Any other page holds the range from its first bar on. -/
theorem HonestAnswer.more (h : HonestAnswer bars lower upper page) (hbars : Chronological bars)
    {normal : List (HistoricalBar F)} (hnormal : normalizeBrokerBarOrder page.bars = .ok normal)
    (hmore : page.hasMore = true) {pageFirst : Int}
    (hfirst : normal.head?.map (·.timestampMs) = some pageFirst) (hcursor : lower < pageFirst) :
    normal.dropWhile (·.timestampMs < lower) = barsInside bars pageFirst upper := by
  obtain ⟨k, leading, hk, hleading, rfl, hlong⟩ := h.normalized hbars hnormal
  obtain ⟨front, first, rest, hsplit, -, -, hnewest⟩ :=
    Pagination.newest_long hk (hlong.mp hmore)
  rw [dropWhile_answer hleading, hnewest]
  have hnone : leading = [] := by
    cases leading with
    | nil => rfl
    | cons bar others =>
      have hbar := hleading bar List.mem_cons_self
      have heq : bar.timestampMs = pageFirst := by simpa using hfirst
      omega
  rw [hnone, List.nil_append, hnewest] at hfirst
  have heq : first.timestampMs = pageFirst := by simpa using hfirst
  rw [← heq]
  exact (barsInside_of_cut hbars hsplit).symm

end Answers

section Runs

variable [DecidableEq F] {session : HistoricalSession σ F} {timeframe : CanonicalTimeframe}
  {bars : CanonicalTimeframe → List (HistoricalBar F)} {toMs : Int} {t t' : Traversal F}
  {state state' : σ}

theorem SubpageRun.honest (hhonest : HonestSession session bars) {cursorFrom subpageTo : Int}
    (h : SubpageRun session timeframe cursorFrom subpageTo t state t' state')
    (ht : t.Holds (barsInside (bars timeframe) subpageTo toMs))
    (hfrom : cursorFrom ≤ subpageTo) (hto : subpageTo ≤ toMs) :
    t'.Holds (barsInside (bars timeframe) cursorFrom toMs) := by
  have hbars := hhonest.1 timeframe
  have hanswer {state state' : σ} {subpageTo : Int} {page : HistoricalPage F}
      (hpage : session.nextPage state ⟨timeframe, cursorFrom, subpageTo - 1⟩ = .ok (page, state')) :
      HonestAnswer (bars timeframe) cursorFrom subpageTo page := by
    have hanswer := hhonest.2 _ _ _ _ hpage
    simpa using hanswer
  induction h with
  | empty hpage hempty hlast =>
    have hnone := (hanswer hpage).empty hempty
    have happend := barsInside_append hbars hfrom hto
    rw [hnone, List.nil_append] at happend
    rw [← happend]
    exact ht
  | last hpage hnormal haccepted hlast =>
    have hholds := haccepted.holds _ ht
    rw [(hanswer hpage).last hbars hnormal hlast, barsInside_append hbars hfrom hto] at hholds
    exact hholds
  | more hpage hnormal haccepted hmore hcursor hrest ih =>
    have hbound := (haccepted.dropWhile_eq hcursor).2
    have hholds := haccepted.holds _ ht
    rw [(hanswer hpage).more hbars hnormal hmore haccepted.first hcursor,
      barsInside_append hbars hbound.le hto] at hholds
    exact ih hholds hcursor.le (by omega)

theorem ChunkRun.honest (hhonest : HonestSession session bars) {fromMs cursorTo reached : Int}
    (h : ChunkRun session timeframe fromMs cursorTo t state reached t' state')
    (ht : t.Holds (barsInside (bars timeframe) cursorTo toMs)) (hto : cursorTo ≤ toMs) :
    t'.Holds (barsInside (bars timeframe) reached toMs) := by
  induction h with
  | stop => exact ht
  | chunk hfrom hle hpages hrest ih =>
    exact ih (hpages.honest hhonest ht hle hto) (by omega)

theorem ChunkRun.reached_ge {fromMs cursorTo reached : Int}
    (h : ChunkRun session timeframe fromMs cursorTo t state reached t' state')
    (hcursor : fromMs ≤ cursorTo) : fromMs ≤ reached := by
  induction h with
  | stop => exact hcursor
  | chunk hfrom hle hpages hrest ih => exact ih hfrom

end Runs

/-- The stream hands on these bars, oldest chunk first, with their count and bounds. -/
structure BrokerTrendbarStream.Publishes (stream : BrokerTrendbarStream F)
    (rows : List (HistoricalBar F)) : Prop where
  chunks : ∃ pages, List.Forall₂ CanonicalOhlcvChunk.Columns stream.chunks pages ∧
    pages.flatten = rows
  count : stream.rowCount = rows.length
  first : rows.head?.map (·.timestampMs) = some stream.returnedFromMs
  last : rows.getLast?.map (·.timestampMs) = some stream.returnedToMs

section Capture

theorem timeframeChunkMs_nonneg {timeframe : CanonicalTimeframe} {chunkMs : Option Int}
    (h : timeframeChunkMs (F := F) timeframe = .ok chunkMs) : ∀ width ∈ chunkMs, 0 ≤ width := by
  intro width hwidth
  obtain rfl := Option.mem_def.mp hwidth
  cases timeframe <;>
    simp [timeframeChunkMs, CanonicalTimeframe.fixedDurationMs, I64.InRange, I64.minValue,
      I64.maxValue] at h <;> omega

variable [DecidableEq F] [FloatOps F]

theorem captureWithSession_ok {session : HistoricalSession σ F} {publisher : CapturePublisher F}
    {request : HistoricalCaptureRequest} {state : σ} {stream : BrokerTrendbarStream F}
    (h : captureWithSession session publisher request state = .ok stream) :
    request.fromMs < request.toMs ∧ ∃ (t : Traversal F) (state' : σ),
      ChunkRun session request.timeframe request.fromMs request.toMs Traversal.start state
        request.fromMs t state' ∧
      ∀ rows, t.Holds rows → stream.Publishes rows := by
  unfold captureWithSession at h
  obtain ⟨-, h⟩ := Fallible.check_ok_iff.mp h
  obtain ⟨hrange, h⟩ := Fallible.check_ok_iff.mp h
  obtain ⟨hprotocol, h⟩ := Fallible.check_ok_iff.mp h
  obtain ⟨-, h⟩ := Fallible.check_ok_iff.mp h
  obtain ⟨-, h⟩ := Fallible.check_ok_iff.mp h
  obtain ⟨-, h⟩ := Fallible.check_ok_iff.mp h
  obtain ⟨chunkMs, hchunkMs, h⟩ := Fallible.bind_ok_iff.mp h
  obtain ⟨⟨reached, t, state'⟩, hchunks, h⟩ := Fallible.bind_ok_iff.mp h
  obtain ⟨hreached, h⟩ := Fallible.check_ok_iff.mp h
  obtain ⟨hcount, h⟩ := Fallible.check_ok_iff.mp h
  obtain ⟨returnedFromMs, hfirst, h⟩ := Fallible.bind_ok_iff.mp h
  obtain ⟨returnedToMs, hlast, h⟩ := Fallible.bind_ok_iff.mp h
  obtain ⟨-, h⟩ := Fallible.check_ok_iff.mp h
  obtain ⟨-, h⟩ := Fallible.check_ok_iff.mp h
  obtain rfl := Except.ok.inj h
  have hlt := not_le.mp (Fallible.refuse_ok_iff.mp hrange)
  have hnonneg : 0 ≤ request.fromMs := by
    have := Fallible.refuse_ok_iff.mp hprotocol
    omega
  have hrun := chunkRun_of_capture (timeframeChunkMs_nonneg hchunkMs) hnonneg hchunks
  have heq : reached = request.fromMs :=
    le_antisymm (not_lt.mp (Fallible.refuse_ok_iff.mp hreached)) (hrun.reached_ge hlt.le)
  subst heq
  refine ⟨hlt, t, state', hrun, fun rows hrows => ⟨hrows.pages, hrows.count, ?_, ?_⟩⟩
  · rw [← hrows.first]
    exact Fallible.require_ok_iff.mp hfirst
  · rw [← hrows.last]
    exact Fallible.require_ok_iff.mp hlast

/-- Whatever the session answers, what is published is strictly ascending and inside the
request; against a broker that holds bars, it is exactly the broker's bars of the request. -/
theorem trendbar_traversal_complete (session : HistoricalSession σ F)
    (publisher : CapturePublisher F) (request : HistoricalCaptureRequest) (state : σ)
    (stream : BrokerTrendbarStream F)
    (h : captureWithSession session publisher request state = .ok stream) :
    (∃ rows, stream.Publishes rows ∧ Chronological rows ∧
      ∀ bar ∈ rows, request.fromMs ≤ bar.timestampMs ∧ bar.timestampMs < request.toMs) ∧
    ∀ bars, HonestSession session bars →
      stream.Publishes (barsInside (bars request.timeframe) request.fromMs request.toMs) ∧
        Chronological (barsInside (bars request.timeframe) request.fromMs request.toMs) := by
  obtain ⟨hlt, t, state', hrun, hpublishes⟩ := captureWithSession_ok h
  refine ⟨?_, fun bars hhonest => ⟨hpublishes _ ?_, ?_⟩⟩
  · have hstart : (Traversal.start : Traversal F).Sound request.fromMs request.toMs :=
      ⟨[], Traversal.holds_start, List.Pairwise.nil, by simp⟩
    obtain ⟨rows, hholds, hrows, hinside⟩ := (hrun.sound hstart (le_refl _)).rows
    exact ⟨rows, hpublishes rows hholds, hrows, hinside⟩
  · refine hrun.honest hhonest ?_ (le_refl _)
    have hnone : barsInside (bars request.timeframe) request.toMs request.toMs = [] := by
      refine List.filter_eq_nil_iff.mpr fun bar _ => ?_
      simp only [decide_eq_true_eq]
      omega
    rw [hnone]
    exact Traversal.holds_start
  · exact chronological_barsInside (hhonest.1 _) _ _

end Capture

section Sample

def sampleTrendbars : List (HistoricalBar ℚ) :=
  [1, 2, 3, 4, 5].map fun k => ⟨60000 * k, 1, 2, 1, 2, some k⟩

def sampleBarSession : HistoricalSession Unit ℚ where
  symbolId := 1
  symbolName := "EURUSD"
  nextPage _ request :=
    let inside := barsInside sampleTrendbars request.fromTimestampMs (request.toTimestampMs + 1)
    .ok (⟨1, request.timeframe, Pagination.newest 2 inside, decide (2 < inside.length)⟩, ())
  isCancelled _ := false

def sampleBarPublisher : CapturePublisher ℚ where
  validateIdentity _ := .ok ()
  publish _ := .ok ()

def sampleBarRequest : HistoricalCaptureRequest :=
  ⟨"eurusd", none, .m1, 60000, 300000⟩

theorem Repeated.refl {α : Type} (xs : List α) : Repeated xs xs := by
  induction xs with
  | nil => exact Repeated.nil
  | cons x xs ih => exact Repeated.cons 0 ih

theorem sampleBarSession_honest : HonestSession sampleBarSession fun _ => sampleTrendbars := by
  have hchronological : Chronological sampleTrendbars := by
    simp [Chronological, Pagination.Distinct, sampleTrendbars]
  refine ⟨fun _ => hchronological, fun _ request page _ h => ?_⟩
  simp only [sampleBarSession, Except.ok.injEq, Prod.mk.injEq] at h
  obtain ⟨rfl, -⟩ := h
  refine ⟨2, [], by omega, by simp, by simp, ?_, by simp⟩
  exact Repeated.refl _

theorem sampleBars_published :
    (captureWithSession sampleBarSession sampleBarPublisher sampleBarRequest ()).toOption.any
      (fun stream => stream.rowCount = 4) = true := by
  decide +kernel

theorem sampleBars_complete :
    ∃ stream, captureWithSession sampleBarSession sampleBarPublisher sampleBarRequest () =
        .ok stream ∧
      stream.rowCount = 4 ∧ stream.Publishes (barsInside sampleTrendbars 60000 300000) := by
  obtain ⟨stream, hcapture, hcount⟩ := Fallible.exists_ok_of_any sampleBars_published
  have hcomplete := trendbar_traversal_complete sampleBarSession sampleBarPublisher
    sampleBarRequest () stream hcapture
  have hpublishes := (hcomplete.2 _ sampleBarSession_honest).1
  exact ⟨stream, hcapture, by simpa using hcount, hpublishes⟩

end Sample

end Neoethos
