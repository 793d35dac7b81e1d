import Neoethos.BrokerPartition
import Neoethos.Pagination
import Neoethos.TrendbarPage

/-! `capture_with_session_and_publication_hook` of `service.rs`. -/

namespace Neoethos

open Fallible (refuse require)

variable {σ F : Type}

structure HistoricalPageRequest where
  timeframe : CanonicalTimeframe
  fromTimestampMs : Int
  toTimestampMs : Int

structure HistoricalPage (F : Type) where
  symbolId : Int
  timeframe : CanonicalTimeframe
  bars : List (HistoricalBar F)
  hasMore : Bool

/-- A session answers a request with a page or fails; its state also says whether the fetch
was cancelled meanwhile. -/
structure HistoricalSession (σ F : Type) where
  symbolId : Int
  symbolName : String
  nextPage : σ → HistoricalPageRequest → Except (HistoryError F) (HistoricalPage F × σ)
  isCancelled : σ → Bool

/-- The symbol of the selected generation, where there is one, goes before the asserted one. -/
structure HistoricalCaptureRequest where
  symbol : String
  selectedSymbolName : Option String
  timeframe : CanonicalTimeframe
  fromMs : Int
  toMs : Int

/-- `BrokerTrendbarStreamRequest`: what is handed to the publication. -/
structure BrokerTrendbarStream (F : Type) where
  requestedFromMs : Int
  requestedToMs : Int
  returnedFromMs : Int
  returnedToMs : Int
  rowCount : Nat
  chunks : List (CanonicalOhlcvChunk F)

/-- The parts of the capture that are not about the bars: the identity of the dataset and the
publication. Both may refuse. -/
structure CapturePublisher (F : Type) where
  validateIdentity : HistoricalCaptureRequest → Except (HistoryError F) Unit
  publish : BrokerTrendbarStream F → Except (HistoryError F) Unit

/-- `CTRADER_MAX_TIMESTAMP_MS`. -/
def ctraderMaxTimestampMs : Int := 2147483646000

def timeframeChunkMs (timeframe : CanonicalTimeframe) : Except (HistoryError F) (Option Int) :=
  if timeframe = .d1 then .ok (some (4000 * 86400000))
  else match timeframe.fixedDurationMs with
    | none => .ok none
    | some duration =>
      if I64.InRange (duration * 4320) then .ok (some (duration * 4320))
      else .error .chunkWidthOverflow

/-- `ctrader_inclusive_wire_to_ms`. -/
def ctraderInclusiveWireToMs (toMs : Int) : Except (HistoryError F) Int :=
  match I64.checkedSub toMs 1 with
  | none => .error (.wireBound toMs)
  | some wire => .ok wire

/-- The variables of the traversal that are about the accepted bars. -/
structure Traversal (F : Type) where
  spool : ReverseSpool F
  newerChunkFirstMs : Option Int
  returnedFromMs : Option Int
  returnedToMs : Option Int
  rowCount : Nat

def Traversal.start : Traversal F := ⟨⟨[], none, none⟩, none, none, none, 0⟩

section Loops

variable [DecidableEq F] [FloatOps F] (session : HistoricalSession σ F)
  (timeframe : CanonicalTimeframe)

/-- The rest of the loop body once the page is known to hold bars: the traversal after it and
the first timestamp of the page. -/
def acceptPage (cursorFrom subpageTo : Int) (t : Traversal F) (bars : List (HistoricalBar F)) :
    Except (HistoryError F) (Traversal F × Int) := do
  Fallible.refuse (brokerTrendbarsPerChunkLimit < bars.length) (.pageTooLong bars.length)
  let bars ← normalizeBrokerBarOrder bars
  let pageFirst ← Fallible.require bars.head? .emptySpoolPage
  let chunk ← historicalBarsIntoChunk timeframe cursorFrom subpageTo bars
  let chunkFirst ← Fallible.require chunk.timestampMs.head? .emptySpoolPage
  let chunkLast ← Fallible.require chunk.timestampMs.getLast? .emptySpoolPage
  Fallible.refuse ((t.newerChunkFirstMs.any (· ≤ chunkLast)) = true) (.overlappingChunks chunkLast)
  Fallible.refuse (2 ^ 64 ≤ t.rowCount + chunk.timestampMs.length) .rowCountOverflow
  let spool ← t.spool.pushLatest chunk
  .ok (⟨spool, some chunkFirst, some chunkFirst, some (t.returnedToMs.getD chunkLast),
    t.rowCount + chunk.timestampMs.length⟩, pageFirst.timestampMs)

/-- The inner loop over the pages of a logical chunk; `pagesLeft` is what `page_count` leaves
of `MAX_HISTORICAL_PAGES`. -/
def captureSubpages (cursorFrom pageTo : Int) : Nat → Int → Traversal F → σ →
    Except (HistoryError F) (Nat × Traversal F × σ)
  | 0, _, _, _ => .error .pageLimit
  | pagesLeft + 1, subpageTo, t, state =>
    match ctraderInclusiveWireToMs subpageTo with
    | .error e => .error e
    | .ok wireTo =>
      match session.nextPage state ⟨timeframe, cursorFrom, wireTo⟩ with
      | .error e => .error e
      | .ok (page, state) =>
        if session.isCancelled state then .error .cancelled
        else if page.symbolId ≠ session.symbolId ∨ page.timeframe ≠ timeframe then
          .error .pageIdentityChanged
        else if page.bars.isEmpty then
          if page.hasMore then .error (.emptyPageWithMore cursorFrom subpageTo)
          else .ok (pagesLeft, t, state)
        else match acceptPage timeframe cursorFrom subpageTo t page.bars with
          | .error e => .error e
          | .ok (t, pageFirst) =>
            if page.hasMore = false then .ok (pagesLeft, t, state)
            else if pageFirst ≤ cursorFrom then .error (.noOlderCursor cursorFrom pageTo)
            else captureSubpages cursorFrom pageTo pagesLeft pageFirst t state

/-- The lower bound of the logical chunk that ends at `cursorTo`. -/
def chunkLowerBound (chunkMs : Option Int) (fromMs cursorTo : Int) : Int :=
  match chunkMs with
  | some width => max (I64.saturatingSub cursorTo width) fromMs
  | none => fromMs

/-- The outer loop over the logical chunks; `chunksLeft` is what `chunk_count` leaves of the
bound. -/
def captureLogicalChunks (chunkMs : Option Int) (fromMs : Int) : Nat → Nat → Int → Traversal F →
    σ → Except (HistoryError F) (Int × Traversal F × σ)
  | 0, _, cursorTo, t, state => .ok (cursorTo, t, state)
  | chunksLeft + 1, pagesLeft, cursorTo, t, state =>
    if fromMs < cursorTo then
      let cursorFrom := chunkLowerBound chunkMs fromMs cursorTo
      match captureSubpages session timeframe cursorFrom cursorTo pagesLeft cursorTo t state with
      | .error e => .error e
      | .ok (pagesLeft, t, state) =>
        captureLogicalChunks chunkMs fromMs chunksLeft pagesLeft cursorFrom t state
    else .ok (cursorTo, t, state)

def maxLogicalChunks (chunkMs : Option Int) (spanMs : Int) : Nat :=
  let needed := match chunkMs with
    | none => 1
    | some width => (I64.saturatingSub (spanMs + width) 1) / width + 2
  (max 1 (min needed maxHistoricalLogicalChunks)).toNat

def asciiLower (text : String) : String := String.ofList (text.toList.map Char.toLower)

/-- `capture_with_session_and_publication_hook`: what it published, if it did. -/
def captureWithSession (publisher : CapturePublisher F) (request : HistoricalCaptureRequest)
    (state : σ) : Except (HistoryError F) (BrokerTrendbarStream F) := do
  Fallible.refuse (session.isCancelled state = true) .cancelled
  Fallible.refuse (request.toMs ≤ request.fromMs) (.invalidRange request.fromMs request.toMs)
  Fallible.refuse (request.fromMs < 0 ∨ ctraderMaxTimestampMs < request.toMs) .rangeOutsideProtocol
  Fallible.refuse (trim request.symbol = "") .emptySymbol
  let requestedSymbol := request.selectedSymbolName.getD (trim request.symbol)
  Fallible.refuse (asciiLower session.symbolName ≠ asciiLower requestedSymbol)
    (.otherSymbol session.symbolName requestedSymbol)
  publisher.validateIdentity request
  let chunkMs ← timeframeChunkMs request.timeframe
  let (cursorTo, t, state) ← captureLogicalChunks session request.timeframe chunkMs request.fromMs
    (maxLogicalChunks chunkMs (request.toMs - request.fromMs)) maxHistoricalPages request.toMs
    Traversal.start state
  Fallible.refuse (request.fromMs < cursorTo) (.stoppedEarly cursorTo request.fromMs)
  Fallible.refuse (t.rowCount = 0) (.noBars request.fromMs request.toMs)
  let returnedFromMs ← Fallible.require t.returnedFromMs (.noBars request.fromMs request.toMs)
  let returnedToMs ← Fallible.require t.returnedToMs (.noBars request.fromMs request.toMs)
  Fallible.refuse (session.isCancelled state = true) .cancelled
  let stream : BrokerTrendbarStream F := ⟨request.fromMs, request.toMs, returnedFromMs,
    returnedToMs, t.rowCount, t.spool.intoOldestFirst⟩
  publisher.publish stream
  .ok stream

end Loops

def Chronological (bars : List (HistoricalBar F)) : Prop :=
  Pagination.Distinct HistoricalBar.timestampMs bars

/-- The columns are those of the bars, row by row. -/
structure CanonicalOhlcvChunk.Columns (chunk : CanonicalOhlcvChunk F)
    (bars : List (HistoricalBar F)) : Prop where
  timestampMs : chunk.timestampMs = bars.map (·.timestampMs)
  open_ : chunk.open_ = bars.map (·.open_)
  high : chunk.high = bars.map (·.high)
  low : chunk.low = bars.map (·.low)
  close : chunk.close = bars.map (·.close)
  volume : bars.map (·.volume) = match chunk.volume with
    | some values => values.map some
    | none => List.replicate bars.length none

section Order

variable [DecidableEq F]

theorem chronological_of_normalizeFrom {row : Nat} {previous : HistoricalBar F}
    {bars kept : List (HistoricalBar F)} (h : normalizeFrom row previous bars = .ok kept) :
    Chronological (previous :: kept) := by
  induction bars generalizing row previous kept with
  | nil =>
    obtain rfl := Except.ok.inj h
    exact List.pairwise_singleton _ _
  | cons bar rest ih =>
    unfold normalizeFrom at h
    split at h
    next hlater =>
      obtain ⟨later, hrest, rfl⟩ := Fallible.map_ok_iff.mp h
      have htail := ih hrest
      refine List.pairwise_cons.mpr ⟨?_, htail⟩
      intro x hx
      rcases List.mem_cons.mp hx with rfl | hx
      · exact hlater
      · exact hlater.trans ((List.pairwise_cons.mp htail).1 x hx)
    next =>
      split at h
      next => exact ih h
      next => split at h <;> cases h

theorem chronological_of_normalize {bars kept : List (HistoricalBar F)}
    (h : normalizeBrokerBarOrder bars = .ok kept) : Chronological kept := by
  cases bars with
  | nil =>
    obtain rfl := Except.ok.inj h
    exact List.Pairwise.nil
  | cons bar rest =>
    obtain ⟨later, hrest, rfl⟩ := Fallible.map_ok_iff.mp h
    exact chronological_of_normalizeFrom hrest

end Order

section Columns

variable [FloatOps F]

theorem checkBarRow_ok {leadingOutside row : Nat} {carriesVolume : Bool} {fromMs toMs : Int}
    {bar : HistoricalBar F}
    (h : checkBarRow leadingOutside row carriesVolume fromMs toMs bar = .ok ()) :
    bar.timestampMs < toMs ∧ bar.volume.isSome = carriesVolume := by
  unfold checkBarRow at h
  obtain ⟨hinside, hrest⟩ := Fallible.check_ok_iff.mp h
  obtain ⟨-, hvolume⟩ := Fallible.check_ok_iff.mp hrest
  refine ⟨not_le.mp (Fallible.refuse_ok_iff.mp hinside), ?_⟩
  cases carriesVolume with
  | true =>
    cases hv : bar.volume with
    | none => simp [hv] at hvolume
    | some value => rfl
  | false =>
    cases hv : bar.volume with
    | none => rfl
    | some value => simp [hv] at hvolume

theorem checkBarRows_ok {leadingOutside row : Nat} {carriesVolume : Bool} {fromMs toMs : Int}
    {bars : List (HistoricalBar F)}
    (h : checkBarRows leadingOutside carriesVolume fromMs toMs row bars = .ok ()) :
    ∀ bar ∈ bars, bar.timestampMs < toMs ∧ bar.volume.isSome = carriesVolume := by
  induction bars generalizing row with
  | nil => simp
  | cons bar rest ih =>
    unfold checkBarRows at h
    obtain ⟨hbar, hrest⟩ := Fallible.check_ok_iff.mp h
    exact List.forall_mem_cons.mpr ⟨checkBarRow_ok hbar, ih hrest⟩

omit [FloatOps F] in
theorem columnsOf_columns {carriesVolume : Bool} {bars : List (HistoricalBar F)}
    (h : ∀ bar ∈ bars, bar.volume.isSome = carriesVolume) :
    (columnsOf carriesVolume bars).Columns bars := by
  refine ⟨rfl, rfl, rfl, rfl, rfl, ?_⟩
  cases carriesVolume with
  | true =>
    dsimp only [columnsOf, if_true]
    induction bars with
    | nil => rfl
    | cons bar rest ih =>
      obtain ⟨hbar, hrest⟩ := List.forall_mem_cons.mp h
      obtain ⟨value, hvalue⟩ := Option.isSome_iff_exists.mp hbar
      simp [hvalue, ih hrest]
  | false =>
    dsimp only [columnsOf]
    refine List.eq_replicate_iff.mpr ⟨List.length_map _, ?_⟩
    intro volume hvolume
    obtain ⟨bar, hbar, rfl⟩ := List.mem_map.mp hvolume
    exact Option.isSome_eq_false_iff.mp (h bar hbar) |> Option.isNone_iff_eq_none.mp

omit [FloatOps F] in
theorem drop_takeWhile_length {α : Type*} (p : α → Bool) (l : List α) :
    l.drop (l.takeWhile p).length = l.dropWhile p := by
  have hsplit : l.takeWhile p ++ l.dropWhile p = l := List.takeWhile_append_dropWhile
  calc l.drop (l.takeWhile p).length
      = (l.takeWhile p ++ l.dropWhile p).drop (l.takeWhile p).length := by rw [hsplit]
    _ = l.dropWhile p := List.drop_left

omit [FloatOps F] in
/-- In a chronological list the bars before a bound are all at the front. -/
theorem le_of_mem_dropWhile {fromMs : Int} {bars : List (HistoricalBar F)}
    (h : Chronological bars) {bar : HistoricalBar F}
    (hbar : bar ∈ bars.dropWhile (·.timestampMs < fromMs)) : fromMs ≤ bar.timestampMs := by
  induction bars with
  | nil => cases hbar
  | cons first rest ih =>
    obtain ⟨hfirst, hrest⟩ := List.pairwise_cons.mp h
    by_cases hlt : first.timestampMs < fromMs
    · rw [List.dropWhile_cons_of_pos (by simpa using hlt)] at hbar
      exact ih hrest hbar
    · rw [List.dropWhile_cons_of_neg (by simpa using hlt)] at hbar
      rcases List.mem_cons.mp hbar with rfl | hmem
      · exact not_lt.mp hlt
      · exact (not_lt.mp hlt).trans (hfirst bar hmem).le

/-- The bars that opened before the request are left out of the chunk. -/
theorem historicalBarsIntoChunk_ok {timeframe : CanonicalTimeframe} {fromMs toMs : Int}
    {bars : List (HistoricalBar F)} {chunk : CanonicalOhlcvChunk F}
    (h : historicalBarsIntoChunk timeframe fromMs toMs bars = .ok chunk)
    (hchronological : Chronological bars) :
    bars.dropWhile (·.timestampMs < fromMs) ≠ [] ∧
      (∀ bar ∈ bars.dropWhile (·.timestampMs < fromMs),
        fromMs ≤ bar.timestampMs ∧ bar.timestampMs < toMs) ∧
      chunk.Columns (bars.dropWhile (·.timestampMs < fromMs)) := by
  unfold historicalBarsIntoChunk at h
  obtain ⟨-, hleading⟩ := Fallible.check_ok_iff.mp h
  obtain ⟨-, hinside⟩ := Fallible.check_ok_iff.mp hleading
  rw [drop_takeWhile_length] at hinside
  obtain ⟨first, hfirst, hrows⟩ := Fallible.bind_ok_iff.mp hinside
  obtain ⟨hcheck, hchunk⟩ := Fallible.check_ok_iff.mp hrows
  obtain rfl := Except.ok.inj hchunk
  have hgood := checkBarRows_ok hcheck
  refine ⟨?_, fun bar hbar => ⟨le_of_mem_dropWhile hchronological hbar, (hgood bar hbar).1⟩,
    columnsOf_columns fun bar hbar => (hgood bar hbar).2⟩
  intro hnil
  rw [hnil] at hfirst
  cases hfirst

end Columns

/-- The traversal holds these bars, oldest first, in its pages. -/
structure Traversal.Holds (t : Traversal F) (rows : List (HistoricalBar F)) : Prop where
  pages : ∃ pages, List.Forall₂ CanonicalOhlcvChunk.Columns t.spool.pages pages ∧
    pages.flatten = rows
  count : t.rowCount = rows.length
  first : t.returnedFromMs = rows.head?.map (·.timestampMs)
  newer : t.newerChunkFirstMs = rows.head?.map (·.timestampMs)
  last : t.returnedToMs = rows.getLast?.map (·.timestampMs)

theorem Traversal.holds_start : (Traversal.start : Traversal F).Holds [] :=
  ⟨⟨[], List.Forall₂.nil, rfl⟩, rfl, rfl, rfl, rfl⟩

/-- The bars of an accepted page, without those before the request. -/
structure AcceptedPage (cursorFrom subpageTo : Int) (t t' : Traversal F) (pageFirst : Int)
    (bars : List (HistoricalBar F)) : Prop where
  chronological : Chronological bars
  first : bars.head?.map (·.timestampMs) = some pageFirst
  nonempty : bars.dropWhile (·.timestampMs < cursorFrom) ≠ []
  inside : ∀ bar ∈ bars.dropWhile (·.timestampMs < cursorFrom),
    cursorFrom ≤ bar.timestampMs ∧ bar.timestampMs < subpageTo
  older : ∀ rows, t.Holds rows → ∀ bar ∈ bars.dropWhile (·.timestampMs < cursorFrom),
    ∀ row ∈ rows.head?, bar.timestampMs < row.timestampMs
  holds : ∀ rows, t.Holds rows →
    t'.Holds (bars.dropWhile (·.timestampMs < cursorFrom) ++ rows)

theorem le_getLast_of_chronological {bars : List (HistoricalBar F)} (h : Chronological bars)
    {bar last : HistoricalBar F} (hbar : bar ∈ bars) (hlast : bars.getLast? = some last) :
    bar.timestampMs ≤ last.timestampMs := by
  obtain ⟨front, rfl⟩ := List.getLast?_eq_some_iff.mp hlast
  rcases List.mem_append.mp hbar with hmem | hmem
  · exact ((List.pairwise_append.mp h).2.2 bar hmem last (by simp)).le
  · rw [List.mem_singleton.mp hmem]

theorem pushLatest_pages {spool spool' : ReverseSpool F} {chunk : CanonicalOhlcvChunk F}
    (h : spool.pushLatest chunk = .ok spool') : spool'.pages = chunk :: spool.pages := by
  unfold ReverseSpool.pushLatest at h
  obtain ⟨-, h⟩ := Fallible.check_ok_iff.mp h
  obtain ⟨first, -, h⟩ := Fallible.bind_ok_iff.mp h
  obtain ⟨last, -, h⟩ := Fallible.bind_ok_iff.mp h
  obtain ⟨-, h⟩ := Fallible.check_ok_iff.mp h
  obtain ⟨-, h⟩ := Fallible.check_ok_iff.mp h
  obtain ⟨-, h⟩ := Fallible.check_ok_iff.mp h
  obtain rfl := Except.ok.inj h
  rfl

/-- What the push of a chunk does to the bars that the traversal holds. -/
theorem Traversal.Holds.push {t : Traversal F} {rows kept : List (HistoricalBar F)}
    (h : t.Holds rows) {spool : ReverseSpool F} {chunk : CanonicalOhlcvChunk F}
    (hcolumns : chunk.Columns kept) (hpush : t.spool.pushLatest chunk = .ok spool)
    {chunkFirst chunkLast : Int} (hfirst : kept.head?.map (·.timestampMs) = some chunkFirst)
    (hlast : kept.getLast?.map (·.timestampMs) = some chunkLast) :
    (⟨spool, some chunkFirst, some chunkFirst, some (t.returnedToMs.getD chunkLast),
      t.rowCount + chunk.timestampMs.length⟩ : Traversal F).Holds (kept ++ rows) := by
  have hhead : (kept ++ rows).head?.map (·.timestampMs) = some chunkFirst := by
    cases kept with
    | nil => cases hfirst
    | cons bar rest => exact hfirst
  refine ⟨?_, ?_, hhead.symm, hhead.symm, ?_⟩
  · obtain ⟨pages, hpages, hflat⟩ := h.pages
    refine ⟨kept :: pages, ?_, ?_⟩
    · dsimp only
      rw [pushLatest_pages hpush]
      exact List.Forall₂.cons hcolumns hpages
    · rw [List.flatten_cons, hflat]
  · dsimp only
    rw [h.count, hcolumns.timestampMs, List.length_map, List.length_append]
    omega
  · dsimp only
    rw [h.last]
    cases hrows : rows.getLast? with
    | none =>
      have hnil : rows = [] := List.getLast?_eq_none_iff.mp hrows
      rw [hnil, List.append_nil, hlast]
      rfl
    | some last =>
      rw [List.getLast?_append, hrows]
      rfl

section Accept

variable [DecidableEq F] [FloatOps F]

theorem acceptPage_ok {timeframe : CanonicalTimeframe} {cursorFrom subpageTo pageFirst : Int}
    {t t' : Traversal F} {raw : List (HistoricalBar F)}
    (h : acceptPage timeframe cursorFrom subpageTo t raw = .ok (t', pageFirst)) :
    ∃ bars, normalizeBrokerBarOrder raw = .ok bars ∧
      AcceptedPage cursorFrom subpageTo t t' pageFirst bars := by
  unfold acceptPage at h
  obtain ⟨-, h⟩ := Fallible.check_ok_iff.mp h
  obtain ⟨bars, hnormal, h⟩ := Fallible.bind_ok_iff.mp h
  obtain ⟨first, hfirst, h⟩ := Fallible.bind_ok_iff.mp h
  obtain ⟨chunk, hchunk, h⟩ := Fallible.bind_ok_iff.mp h
  obtain ⟨chunkFirst, hchunkFirst, h⟩ := Fallible.bind_ok_iff.mp h
  obtain ⟨chunkLast, hchunkLast, h⟩ := Fallible.bind_ok_iff.mp h
  obtain ⟨hoverlap, h⟩ := Fallible.check_ok_iff.mp h
  obtain ⟨-, h⟩ := Fallible.check_ok_iff.mp h
  obtain ⟨spool, hpush, h⟩ := Fallible.bind_ok_iff.mp h
  obtain ⟨rfl, rfl⟩ := Prod.mk.inj (Except.ok.inj h)
  have hchronological := chronological_of_normalize hnormal
  obtain ⟨hne, hinside, hcolumns⟩ := historicalBarsIntoChunk_ok hchunk hchronological
  have hkept : Chronological (bars.dropWhile (·.timestampMs < cursorFrom)) :=
    hchronological.sublist (List.dropWhile_sublist _)
  have hhead : (bars.dropWhile (·.timestampMs < cursorFrom)).head?.map (·.timestampMs) =
      some chunkFirst := by
    rw [← List.head?_map, ← hcolumns.timestampMs]
    exact Fallible.require_ok_iff.mp hchunkFirst
  have htail : (bars.dropWhile (·.timestampMs < cursorFrom)).getLast?.map (·.timestampMs) =
      some chunkLast := by
    rw [← List.getLast?_map, ← hcolumns.timestampMs]
    exact Fallible.require_ok_iff.mp hchunkLast
  refine ⟨bars, hnormal, hchronological, ?_, hne, hinside, ?_, ?_⟩
  · rw [Fallible.require_ok_iff.mp hfirst]
    rfl
  · intro rows hrows bar hbar row hrow
    obtain ⟨last, hlast, rfl⟩ := Option.map_eq_some_iff.mp htail
    have hle := le_getLast_of_chronological hkept hbar hlast
    have hnewer := Fallible.refuse_ok_iff.mp hoverlap
    rw [hrows.newer, Option.mem_def.mp hrow] at hnewer
    simp only [Option.map_some, Option.any_some, decide_eq_true_eq, not_le] at hnewer
    omega
  · intro rows hrows
    exact hrows.push hcolumns hpush hhead htail

end Accept

end Neoethos
