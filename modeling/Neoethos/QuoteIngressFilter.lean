import Mathlib.Data.List.Sort
import Neoethos.QuoteIngress

namespace Neoethos

open Fallible

section Pages

variable {P : Type} (fromJson : String → Except String TickEnvelope)
  (convertPrice : Int → Int → P) (validPrice : P → Bool) (quote : ExactQuoteSideEvidence)
  (accountId digits : Int)

/-- A raw row is about its page, and so is the response that it retains. -/
structure RawPageMatches (raw : RawTickPageRow) (page : ExactBrokerRequestPage) : Prop where
  manifest : ¬DiffersFromManifest quote accountId raw page
  envelope : ∃ wire ticks, fromJson raw.rawResponseJson = .ok wire ∧
    decodeTickWire (convertPrice digits) validPrice wire.payload.tickData = .ok ticks ∧
    ¬DiffersFromEnvelope accountId raw wire ticks

def pageReplay (raw : RawTickPageRow) : List (DecodedCTraderTick P) :=
  match fromJson raw.rawResponseJson with
  | .ok wire => ((decodeTickWire (convertPrice digits) validPrice wire.payload.tickData).toOption).getD []
  | .error _ => []

/-- The row of the decoded table for tick number `rowIndex` of a page. -/
def decodedRow (raw : RawTickPageRow) (tick : DecodedCTraderTick P) (rowIndex : Nat) : DecodedTickRow P :=
  ⟨raw.chunkSequence, raw.pageSequenceInChunk, rowIndex, accountId, quote.symbolId,
    quoteSideCode quote.side, tick.timestampMs, tick.price⟩

def pageRows (raw : RawTickPageRow) : List (DecodedTickRow P) :=
  (pageReplay fromJson convertPrice validPrice digits raw).zipIdx.map fun (tick, rowIndex) =>
    decodedRow quote accountId raw tick rowIndex

end Pages

section Loop

variable {P : Type} {fromJson : String → Except String TickEnvelope}
  {debugText : String → String} {convertPrice : Int → Int → P} {validPrice : P → Bool}
  {quote : ExactQuoteSideEvidence} {accountId digits : Int} {raw : RawTickPageRow}
  {page : ExactBrokerRequestPage} {decodedRows : List (DecodedTickRow P)}

theorem pageReplay_eq {wire : TickEnvelope} {ticks : List (DecodedCTraderTick P)}
    (hwire : fromJson raw.rawResponseJson = .ok wire)
    (hticks : decodeTickWire (convertPrice digits) validPrice wire.payload.tickData = .ok ticks) :
    pageReplay fromJson convertPrice validPrice digits raw = ticks := by
  rw [pageReplay, hwire]
  simp only [hticks, Except.toOption, Option.getD_some]

theorem length_pageRows : (pageRows fromJson convertPrice validPrice quote accountId digits raw).length =
    (pageReplay fromJson convertPrice validPrice digits raw).length := by
  simp [pageRows]

variable [DecidableEq P]

/-- The row check compares a part of the table with the numbered replay. -/
theorem checkPageRows_ok {rows : List (DecodedTickRow P)} {ticks : List (DecodedCTraderTick P)}
    {rowIndex : Nat} (hlength : rows.length = ticks.length) :
    checkPageRows quote accountId raw rowIndex (rows.zip ticks) = .ok () ↔
      rows = (ticks.zipIdx rowIndex).map fun (tick, rowIndex) =>
        decodedRow quote accountId raw tick rowIndex := by
  induction rows generalizing ticks rowIndex with
  | nil =>
    have hnone : ticks = [] := List.length_eq_zero_iff.mp hlength.symm
    simp [hnone, checkPageRows]
  | cons row rows ih =>
    cases ticks with
    | nil => simp at hlength
    | cons tick ticks =>
      have hrest : rows.length = ticks.length := by simpa using hlength
      rw [List.zip_cons_cons, checkPageRows, check_ok_iff, refuse_ok_iff, ih hrest, List.zipIdx_cons,
        List.map_cons, List.cons.injEq]
      apply and_congr_left
      intro _
      obtain ⟨chunk, pageSequence, rowSequence, account, symbol, side, timestamp, price⟩ := row
      simp only [decodedRow, DecodedTickRow.mk.injEq, ne_eq, not_or, not_not]

/-- One page is accepted when it matches and its rows end the part of the table that remains. -/
theorem consumePages_cons {remaining r : Nat} (hremaining : remaining ≤ decodedRows.length)
    {rest : List (RawTickPageRow × ExactBrokerRequestPage)} :
    consumePages fromJson debugText convertPrice validPrice quote accountId decodedRows digits remaining
        ((raw, page) :: rest) = .ok r ↔
      RawPageMatches fromJson convertPrice validPrice quote accountId digits raw page ∧
      ∃ start ≤ remaining,
        decodedRows.take remaining = decodedRows.take start ++
          pageRows fromJson convertPrice validPrice quote accountId digits raw ∧
        consumePages fromJson debugText convertPrice validPrice quote accountId decodedRows digits start
          rest = .ok r := by
  rw [consumePages, check_ok_iff, refuse_ok_iff]
  simp only [bind_ok_iff (α := TickEnvelope), bind_ok_iff (α := List (DecodedCTraderTick P)),
    check_ok_iff, refuse_ok_iff, parseTickEnvelope, decodePage, mapError_ok_iff, not_lt]
  have htake : ∀ start ≤ remaining, decodedRows.take remaining = decodedRows.take start ++
      (decodedRows.drop start).take (remaining - start) := by
    intro start hstart
    rw [← List.take_add, Nat.add_sub_cancel' hstart]
  constructor
  · intro h
    obtain ⟨hmanifest, wire, hwire, ticks, hticks, henvelope, hlength, hrows, hrest⟩ := h
    have hreplay := pageReplay_eq hwire hticks
    refine ⟨⟨hmanifest, wire, ticks, hwire, hticks, henvelope⟩, remaining - ticks.length,
      Nat.sub_le _ _, ?_, hrest⟩
    rw [checkPageRows_ok (by simp only [List.length_take, List.length_drop]; omega)] at hrows
    rw [htake _ (Nat.sub_le _ _), hrows, pageRows, hreplay]
  · intro h
    obtain ⟨⟨hmanifest, wire, ticks, hwire, hticks, henvelope⟩, start, hstart, hsplit, hrest⟩ := h
    have hreplay := pageReplay_eq hwire hticks
    have hlength := congrArg List.length hsplit
    rw [List.length_append, length_pageRows, hreplay, List.length_take_of_le hremaining,
      List.length_take_of_le (hstart.trans hremaining)] at hlength
    have hpart : remaining - ticks.length = start := by omega
    refine ⟨hmanifest, wire, hwire, ticks, hticks, henvelope, by omega, ?_, ?_⟩
    · rw [hpart, checkPageRows_ok (by simp only [List.length_take, List.length_drop]; omega)]
      rw [htake start hstart] at hsplit
      rw [List.append_cancel_left hsplit, pageRows, hreplay]
    · rw [hpart]
      exact hrest

/-- The page loop is accepted when all pages match and their rows, oldest page first, end the part
of the table that it starts from. -/
theorem consumePages_ok {zs : List (RawTickPageRow × ExactBrokerRequestPage)} {remaining r : Nat}
    (hremaining : remaining ≤ decodedRows.length) :
    consumePages fromJson debugText convertPrice validPrice quote accountId decodedRows digits remaining
        zs = .ok r ↔
      (∀ z ∈ zs, RawPageMatches fromJson convertPrice validPrice quote accountId digits z.1 z.2) ∧
      r ≤ remaining ∧ decodedRows.take remaining = decodedRows.take r ++
        zs.reverse.flatMap fun z => pageRows fromJson convertPrice validPrice quote accountId digits z.1 := by
  induction zs generalizing remaining with
  | nil =>
    simp only [consumePages, Except.ok.injEq, List.not_mem_nil, false_implies, implies_true, true_and,
      List.reverse_nil, List.flatMap_nil, List.append_nil]
    constructor
    · rintro rfl
      exact ⟨le_rfl, rfl⟩
    · intro h
      have hlength := congrArg List.length h.2
      rw [List.length_take_of_le hremaining, List.length_take_of_le (h.1.trans hremaining)] at hlength
      exact hlength
  | cons z rest ih =>
    obtain ⟨raw, page⟩ := z
    rw [consumePages_cons hremaining, List.forall_mem_cons, List.reverse_cons, List.flatMap_append,
      List.flatMap_singleton]
    dsimp only
    constructor
    · intro h
      obtain ⟨hmatches, start, hstart, hsplit, hrest⟩ := h
      obtain ⟨hall, hle, htail⟩ := (ih (hstart.trans hremaining)).mp hrest
      refine ⟨⟨hmatches, hall⟩, hle.trans hstart, ?_⟩
      rw [hsplit, htail, List.append_assoc]
    · intro h
      obtain ⟨⟨hmatches, hall⟩, hle, hsplit⟩ := h
      rw [← List.append_assoc] at hsplit
      have hlength := congrArg List.length hsplit
      rw [List.length_append, List.length_take_of_le hremaining] at hlength
      have hstart : (decodedRows.take r ++ rest.reverse.flatMap fun z =>
          pageRows fromJson convertPrice validPrice quote accountId digits z.1) =
            decodedRows.take (remaining - (pageRows fromJson convertPrice validPrice quote accountId
              digits raw).length) := by
        have hprefix := congrArg (List.take (remaining - (pageRows fromJson convertPrice validPrice quote
          accountId digits raw).length)) hsplit
        rw [List.take_take, Nat.min_eq_left (Nat.sub_le _ _), List.take_left' (by omega)] at hprefix
        exact hprefix.symm
      refine ⟨hmatches, _, Nat.sub_le _ _, ?_, (ih ((Nat.sub_le _ _).trans hremaining)).mpr
        ⟨hall, ?_, hstart.symm⟩⟩
      · rw [← hstart]
        exact hsplit
      · have hshort := congrArg List.length hstart
        rw [List.length_append, List.length_take_of_le (hle.trans hremaining), List.length_take] at hshort
        omega

end Loop

section Ordinals

def ExactBrokerRequestPage.ordinals (page : ExactBrokerRequestPage) : Nat × Nat :=
  (page.chunkSequence, page.pageSequenceInChunk)

/-- The pages of a chunk carry its sequence number and are numbered in order. -/
theorem ordinals_of_validatePagesFrom {chunk : ExactBrokerRequestChunk} {pageIndex : Nat}
    {before : Option ExactBrokerRequestPage} {seen : List String} {pages : List ExactBrokerRequestPage}
    (h : chunk.validatePagesFrom pageIndex before seen pages = .ok ()) :
    (∀ page ∈ pages, page.chunkSequence = chunk.chunkSequence ∧
        pageIndex ≤ page.pageSequenceInChunk) ∧
      pages.Pairwise fun p q => p.pageSequenceInChunk < q.pageSequenceInChunk := by
  induction pages generalizing pageIndex before seen with
  | nil => simp
  | cons page older ih =>
    unfold ExactBrokerRequestChunk.validatePagesFrom at h
    simp only [check_ok_iff, refuse_ok_iff] at h
    obtain ⟨-, hnumbers, -, hrest⟩ := h
    push Not at hnumbers
    obtain ⟨hchunk, hpage, -⟩ := hnumbers
    obtain ⟨hall, hordered⟩ := ih hrest
    constructor
    · intro other hother
      obtain rfl | hother := List.mem_cons.mp hother
      · exact ⟨hchunk, hpage.ge⟩
      · obtain ⟨hsame, hle⟩ := hall other hother
        exact ⟨hsame, by omega⟩
    · refine List.pairwise_cons.mpr ⟨?_, hordered⟩
      intro other hother
      have hle := (hall other hother).2
      omega

theorem ordinals_of_validatePartitionFrom {completeWindow : RequestedWindow} {maximumSpanMs : Option Int}
    {pageContract : PageContract} {chunkIndex : Nat} {before : Option ExactBrokerRequestChunk}
    {seen : List String} {chunks : List ExactBrokerRequestChunk}
    (h : validatePartitionFrom completeWindow maximumSpanMs pageContract chunkIndex before seen chunks =
      .ok ()) :
    (∀ page ∈ chunks.flatMap (·.pagesNewestFirst), chunkIndex ≤ page.chunkSequence) ∧
      (chunks.flatMap (·.pagesNewestFirst)).Pairwise fun p q => p.ordinals ≠ q.ordinals := by
  induction chunks generalizing chunkIndex before seen with
  | nil => simp
  | cons chunk older ih =>
    obtain ⟨hpages, -, seen', -, hrest⟩ := validatePartitionFrom_cons h
    unfold validatePartitionFrom at h
    have hchunk : chunk.chunkSequence = chunkIndex := by
      obtain ⟨-, h⟩ := check_ok_iff.mp h
      exact not_not.mp (refuse_ok_iff.mp (check_ok_iff.mp h).1)
    unfold ExactBrokerRequestChunk.validatePages at hpages
    simp only [check_ok_iff] at hpages
    obtain ⟨hsame, hordered⟩ := ordinals_of_validatePagesFrom hpages.2.2.1
    obtain ⟨hlater, hdistinct⟩ := ih hrest
    rw [List.flatMap_cons]
    constructor
    · intro page hpage
      obtain hpage | hpage := List.mem_append.mp hpage
      · rw [(hsame page hpage).1, hchunk]
      · exact (Nat.le_succ _).trans (hlater page hpage)
    · refine List.pairwise_append.mpr ⟨hordered.imp ?_, hdistinct, ?_⟩
      · intro p q hlt heq
        exact absurd (congrArg Prod.snd heq) hlt.ne
      · intro p hp q hq heq
        have hle := hlater q hq
        have hfirst : p.chunkSequence = q.chunkSequence := congrArg Prod.fst heq
        rw [(hsame p hp).1, hchunk] at hfirst
        omega

/-- The pages of an accepted manifest: no two have the same ordinals, and the older of two pages only
has events before those of the newer one. -/
theorem ExactQuoteSideEvidence.pages_apart {quote : ExactQuoteSideEvidence}
    (h : validateQuotePartition quote.requestedWindow quote.requestChunksNewestFirst = .ok ()) :
    quote.pages.Pairwise fun newer older => newer.ordinals ≠ older.ordinals ∧
      ∀ s t, older.MayHaveEventAt s → newer.MayHaveEventAt t → s < t := by
  have hchronological := (tilesCompleteWindow_of_validatePartition h).chronological
  have hpages : quote.pages.reverse =
      quote.requestChunksNewestFirst.reverse.flatMap fun c => c.pagesNewestFirst.reverse := by
    rw [ExactQuoteSideEvidence.pages, List.reverse_flatMap]
    rfl
  rw [← hpages] at hchronological
  have hreverse := List.pairwise_reverse.mp hchronological
  unfold validateQuotePartition validatePartition at h
  simp only [check_ok_iff] at h
  exact (ordinals_of_validatePartitionFrom h.2.2.1).2.and hreverse

end Ordinals

section Zip

variable {α β : Type*} {R : α → β → Prop} {as : List α} {bs : List β} {a : α} {b : β}

theorem exists_zip_of_mem_left (h : List.Forall₂ R as bs) (ha : a ∈ as) :
    ∃ b, (a, b) ∈ as.zip bs ∧ R a b := by
  induction h with
  | nil => simp at ha
  | cons hab _ ih =>
    obtain rfl | ha := List.mem_cons.mp ha
    · exact ⟨_, List.mem_cons_self, hab⟩
    · obtain ⟨b, hmem, hr⟩ := ih ha
      exact ⟨b, List.mem_cons_of_mem _ hmem, hr⟩

theorem exists_zip_of_mem_right (h : List.Forall₂ R as bs) (hb : b ∈ bs) :
    ∃ a, (a, b) ∈ as.zip bs ∧ R a b := by
  induction h with
  | nil => simp at hb
  | cons hab _ ih =>
    obtain rfl | hb := List.mem_cons.mp hb
    · exact ⟨_, List.mem_cons_self, hab⟩
    · obtain ⟨a, hmem, hr⟩ := ih hb
      exact ⟨a, List.mem_cons_of_mem _ hmem, hr⟩

end Zip

section Table

variable {P : Type} {fromJson : String → Except String TickEnvelope}
  {debugText : String → String} {convertPrice : Int → Int → P} {validPrice : P → Bool}
  {quote : ExactQuoteSideEvidence} {accountId digits : Int} {raw : RawTickPageRow}
  {page : ExactBrokerRequestPage} {rawRows : List RawTickPageRow} {decodedRows : List (DecodedTickRow P)}

theorem decodeTickWire_ascending {convertPrice : Int → P} {rows : List TickWireRow}
    {ticks : List (DecodedCTraderTick P)}
    (h : decodeTickWire convertPrice validPrice rows = .ok ticks) :
    ticks.Pairwise fun a b => a.timestampMs < b.timestampMs := by
  obtain ⟨-, outs, hdecode, rfl⟩ := decodeTickWire_ok.mp h
  obtain ⟨hweak, hnonzero⟩ := RowsDecode.page_strict_iff.mp hdecode
  have hchain := strictlyAscending_iff.mp (hweak.ascending_iff.mpr hnonzero)
  exact List.pairwise_map.mp (List.isChain_iff_pairwise.mp hchain)

namespace RawPageMatches

variable (h : RawPageMatches fromJson convertPrice validPrice quote accountId digits raw page)
include h

theorem ordinals : page.ordinals = (raw.chunkSequence, raw.pageSequenceInChunk) := by
  have hmanifest := h.manifest
  unfold DiffersFromManifest at hmanifest
  push Not at hmanifest
  rw [ExactBrokerRequestPage.ordinals, hmanifest.1, hmanifest.2.1]

theorem ascending : (pageReplay fromJson convertPrice validPrice digits raw).Pairwise fun a b =>
    a.timestampMs < b.timestampMs := by
  obtain ⟨wire, ticks, hwire, hticks, -⟩ := h.envelope
  rw [pageReplay_eq hwire hticks]
  exact decodeTickWire_ascending hticks

/-- The ticks of a page lie between its first and its last event. -/
theorem mayHaveEventAt {tick : DecodedCTraderTick P}
    (htick : tick ∈ pageReplay fromJson convertPrice validPrice digits raw) :
    page.MayHaveEventAt tick.timestampMs := by
  have hascending := h.ascending
  obtain ⟨wire, ticks, hwire, hticks, henvelope⟩ := h.envelope
  have hmanifest := h.manifest
  unfold DiffersFromManifest at hmanifest
  unfold DiffersFromEnvelope at henvelope
  push Not at hmanifest henvelope
  obtain ⟨-, -, -, -, -, -, -, -, -, -, hfirst, hlast, -⟩ := hmanifest
  obtain ⟨-, -, -, -, -, hhead, hback⟩ := henvelope
  rw [pageReplay_eq hwire hticks] at htick hascending
  refine ⟨raw.firstTick, hfirst.symm, raw.lastTick, hlast.symm, ?_, ?_⟩
  · obtain ⟨first, hfirst, hfirstTime⟩ := Option.map_eq_some_iff.mp hhead
    obtain ⟨rest, rfl⟩ := List.head?_eq_some_iff.mp hfirst
    rw [← hfirstTime]
    obtain rfl | hrest := List.mem_cons.mp htick
    · exact le_rfl
    · exact ((List.pairwise_cons.mp hascending).1 tick hrest).le
  · obtain ⟨last, hlast, hlastTime⟩ := Option.map_eq_some_iff.mp hback
    obtain ⟨front, rfl⟩ := List.getLast?_eq_some_iff.mp hlast
    rw [← hlastTime]
    obtain hfront | hlast := List.mem_append.mp htick
    · exact ((List.pairwise_append.mp hascending).2.2 tick hfront last (List.mem_singleton_self last)).le
    · rw [List.mem_singleton.mp hlast]

end RawPageMatches

theorem mem_pageRows {row : DecodedTickRow P}
    (h : row ∈ pageRows fromJson convertPrice validPrice quote accountId digits raw) :
    (row.chunkSequence, row.pageSequenceInChunk) = (raw.chunkSequence, raw.pageSequenceInChunk) ∧
      ∃ tick ∈ pageReplay fromJson convertPrice validPrice digits raw, row.timestampMs = tick.timestampMs := by
  obtain ⟨⟨tick, rowIndex⟩, hmem, rfl⟩ := List.mem_map.mp h
  exact ⟨rfl, tick, (List.mem_zipIdx' hmem).2 ▸ List.getElem_mem _, rfl⟩

theorem pageRows_ascending
    (h : RawPageMatches fromJson convertPrice validPrice quote accountId digits raw page) :
    (pageRows fromJson convertPrice validPrice quote accountId digits raw).Pairwise fun a b =>
      a.timestampMs < b.timestampMs := by
  have hticks := List.pairwise_map (f := DecodedCTraderTick.timestampMs) (R := (· < ·)) |>.mpr h.ascending
  have htimes : (pageRows fromJson convertPrice validPrice quote accountId digits raw).map
      (·.timestampMs) = (pageReplay fromJson convertPrice validPrice digits raw).map (·.timestampMs) := by
    rw [pageRows, List.map_map]
    show List.map (DecodedCTraderTick.timestampMs ∘ Prod.fst) _ = _
    rw [← List.map_map, List.zipIdx_map_fst]
  rw [← htimes] at hticks
  exact List.pairwise_map.mp hticks

/-- The raw rows of accepted pages, newest first, keep the pages apart. -/
theorem rawRows_apart {pages : List ExactBrokerRequestPage}
    (hpages : pages.Pairwise fun newer older => newer.ordinals ≠ older.ordinals ∧
      ∀ s t, older.MayHaveEventAt s → newer.MayHaveEventAt t → s < t)
    (hraw : List.Forall₂ (RawPageMatches fromJson convertPrice validPrice quote accountId digits)
      rawRows pages) :
    rawRows.Pairwise fun newer older =>
      (newer.chunkSequence, newer.pageSequenceInChunk) ≠ (older.chunkSequence, older.pageSequenceInChunk) ∧
      ∀ a ∈ pageRows fromJson convertPrice validPrice quote accountId digits older,
        ∀ b ∈ pageRows fromJson convertPrice validPrice quote accountId digits newer,
          a.timestampMs < b.timestampMs := by
  induction hraw with
  | nil => exact .nil
  | @cons raw page rawRows pages hmatch hrest ih =>
    obtain ⟨hfirst, hpages⟩ := List.pairwise_cons.mp hpages
    refine List.pairwise_cons.mpr ⟨?_, ih hpages⟩
    intro older holder
    obtain ⟨olderPage, hz, holderMatch⟩ := exists_zip_of_mem_left hrest holder
    obtain ⟨hordinals, hbefore⟩ := hfirst olderPage (List.of_mem_zip hz).2
    constructor
    · rw [← hmatch.ordinals, ← holderMatch.ordinals]
      exact hordinals
    · intro a ha b hb
      obtain ⟨-, tick, htick, haTime⟩ := mem_pageRows ha
      obtain ⟨-, tick', htick', hbTime⟩ := mem_pageRows hb
      rw [haTime, hbTime]
      exact hbefore _ _ (holderMatch.mayHaveEventAt htick) (hmatch.mayHaveEventAt htick')

variable (fromJson convertPrice validPrice quote accountId) in
/-- The filter by page: (a) the raw rows are those of the pages, (b) the rows with the ordinals of a
page are its replay, (c) every row belongs to a page, (d) the times ascend. -/
structure FilteredPerPage (rawRows : List RawTickPageRow) (decodedRows : List (DecodedTickRow P))
    (digits : Int) : Prop where
  raw : List.Forall₂ (RawPageMatches fromJson convertPrice validPrice quote accountId digits) rawRows
    quote.pages
  rows : ∀ z ∈ rawRows.zip quote.pages,
    decodedRows.filter (fun row => (row.chunkSequence, row.pageSequenceInChunk) = z.2.ordinals) =
      pageRows fromJson convertPrice validPrice quote accountId digits z.1
  bound : ∀ row ∈ decodedRows, ∃ page ∈ quote.pages,
    (row.chunkSequence, row.pageSequenceInChunk) = page.ordinals
  ascending : decodedRows.Pairwise fun a b => a.timestampMs < b.timestampMs

variable (fromJson convertPrice validPrice quote accountId) in
/-- The table is the replays one behind the other, oldest page first. -/
structure ConcatenatedPages (rawRows : List RawTickPageRow) (decodedRows : List (DecodedTickRow P))
    (digits : Int) : Prop where
  raw : List.Forall₂ (RawPageMatches fromJson convertPrice validPrice quote accountId digits) rawRows
    quote.pages
  rows : decodedRows = rawRows.reverse.flatMap
    (pageRows fromJson convertPrice validPrice quote accountId digits)

section Manifest

variable
  (hmanifest : validateQuotePartition quote.requestedWindow quote.requestChunksNewestFirst = .ok ())
include hmanifest

theorem ConcatenatedPages.ascending (h : ConcatenatedPages fromJson convertPrice validPrice quote
    accountId rawRows decodedRows digits) :
    decodedRows.Pairwise fun a b => a.timestampMs < b.timestampMs := by
  rw [h.rows, List.pairwise_flatMap]
  constructor
  · intro raw hraw
    obtain ⟨page, -, hmatch⟩ := exists_zip_of_mem_left h.raw (List.mem_reverse.mp hraw)
    exact pageRows_ascending hmatch
  · rw [List.pairwise_reverse]
    refine (rawRows_apart (ExactQuoteSideEvidence.pages_apart hmanifest) h.raw).imp ?_
    intro newer older hapart a ha b hb
    exact hapart.2 a ha b hb

theorem filter_pageRows {z : RawTickPageRow × ExactBrokerRequestPage}
    (hraw : List.Forall₂ (RawPageMatches fromJson convertPrice validPrice quote accountId digits)
      rawRows quote.pages) (hz : z ∈ rawRows.zip quote.pages) :
    (rawRows.reverse.flatMap (pageRows fromJson convertPrice validPrice quote accountId digits)).filter
        (fun row => (row.chunkSequence, row.pageSequenceInChunk) = z.2.ordinals) =
      pageRows fromJson convertPrice validPrice quote accountId digits z.1 := by
  have hmatch := List.forall₂_zip hraw hz
  have hapart := (rawRows_apart (ExactQuoteSideEvidence.pages_apart hmanifest) hraw).imp
    fun {a b} h => h.1
  obtain ⟨front, back, hsplit⟩ := List.append_of_mem (List.of_mem_zip hz).1
  rw [hsplit] at hapart ⊢
  obtain ⟨-, hback, hfront⟩ := List.pairwise_append.mp hapart
  have hothers : ∀ raws : List RawTickPageRow, (∀ raw ∈ raws,
      (raw.chunkSequence, raw.pageSequenceInChunk) ≠ (z.1.chunkSequence, z.1.pageSequenceInChunk)) →
      (raws.flatMap (pageRows fromJson convertPrice validPrice quote accountId digits)).filter
        (fun row => (row.chunkSequence, row.pageSequenceInChunk) = z.2.ordinals) = [] := by
    intro raws hraws
    rw [List.filter_eq_nil_iff]
    intro row hrow
    obtain ⟨raw, hmem, hrow⟩ := List.mem_flatMap.mp hrow
    rw [(mem_pageRows hrow).1, hmatch.ordinals]
    simpa using hraws raw hmem
  have hself : (pageRows fromJson convertPrice validPrice quote accountId digits z.1).filter
      (fun row => (row.chunkSequence, row.pageSequenceInChunk) = z.2.ordinals) =
        pageRows fromJson convertPrice validPrice quote accountId digits z.1 := by
    rw [List.filter_eq_self]
    intro row hrow
    rw [(mem_pageRows hrow).1, hmatch.ordinals]
    simp
  rw [List.reverse_append, List.reverse_cons, List.flatMap_append, List.flatMap_append,
    List.flatMap_singleton, List.filter_append, List.filter_append, hself, hothers, hothers]
  · simp
  · intro raw hmem
    exact hfront raw (List.mem_reverse.mp hmem) z.1 List.mem_cons_self
  · intro raw hmem
    exact ((List.pairwise_cons.mp hback).1 raw (List.mem_reverse.mp hmem)).symm

theorem filteredPerPage_iff : FilteredPerPage fromJson convertPrice validPrice quote accountId rawRows
      decodedRows digits ↔
    ConcatenatedPages fromJson convertPrice validPrice quote accountId rawRows decodedRows digits := by
  constructor
  · intro h
    refine ⟨h.raw, ?_⟩
    have hconcatenated : ConcatenatedPages fromJson convertPrice validPrice quote accountId rawRows
        (rawRows.reverse.flatMap (pageRows fromJson convertPrice validPrice quote accountId digits))
        digits := ⟨h.raw, rfl⟩
    have hirrefl : Std.Irrefl fun a b : DecodedTickRow P => a.timestampMs < b.timestampMs :=
      ⟨fun _ => lt_irrefl _⟩
    have hasymm : Std.Asymm fun a b : DecodedTickRow P => a.timestampMs < b.timestampMs :=
      ⟨fun _ _ => lt_asymm⟩
    refine h.ascending.eq_of_mem_iff (hconcatenated.ascending hmanifest) ?_
    intro row
    simp only [List.mem_flatMap, List.mem_reverse]
    constructor
    · intro hrow
      obtain ⟨page, hpage, hordinals⟩ := h.bound row hrow
      obtain ⟨raw, hz, -⟩ := exists_zip_of_mem_right h.raw hpage
      refine ⟨raw, (List.of_mem_zip hz).1, ?_⟩
      rw [← h.rows _ hz, List.mem_filter]
      exact ⟨hrow, by simpa using hordinals⟩
    · intro hrow
      obtain ⟨raw, hraw, hrow⟩ := hrow
      obtain ⟨page, hz, -⟩ := exists_zip_of_mem_left h.raw hraw
      rw [← h.rows _ hz] at hrow
      exact (List.mem_filter.mp hrow).1
  · intro h
    refine ⟨h.raw, ?_, ?_, h.ascending hmanifest⟩
    · intro z hz
      rw [h.rows]
      exact filter_pageRows hmanifest h.raw hz
    · intro row hrow
      rw [h.rows] at hrow
      obtain ⟨raw, hraw, hrow⟩ := List.mem_flatMap.mp hrow
      obtain ⟨page, hz, hmatch⟩ := exists_zip_of_mem_left h.raw (List.mem_reverse.mp hraw)
      refine ⟨page, (List.of_mem_zip hz).2, ?_⟩
      rw [(mem_pageRows hrow).1]
      exact hmatch.ordinals.symm

end Manifest

variable [DecidableEq P]

/-- The check accepts exactly the concatenation of the pages, in ascending order. -/
theorem validateQuoteSide_ok {symbolDigits : Option Int} :
    validateQuoteSide fromJson debugText convertPrice validPrice quote accountId rawRows decodedRows
        symbolDigits = .ok () ↔
      ∃ digits ∈ symbolDigits,
        ConcatenatedPages fromJson convertPrice validPrice quote accountId rawRows decodedRows digits ∧
        decodedRows.Pairwise fun a b => a.timestampMs < b.timestampMs := by
  unfold validateQuoteSide
  rw [bind_ok_iff]
  apply exists_congr
  intro digits
  rw [require_ok_iff, Option.mem_def]
  apply and_congr_right
  intro _
  rw [check_ok_iff, refuse_ok_iff, bind_ok_iff]
  simp only [refuse_ok_iff, consumePages_ok le_rfl, List.take_length, not_or, not_not]
  have htrans : IsTrans (DecodedTickRow P) fun a b => a.timestampMs < b.timestampMs :=
    ⟨fun _ _ _ => lt_trans⟩
  rw [List.isChain_iff_pairwise]
  constructor
  · intro h
    obtain ⟨hlength, _, ⟨hall, -, hrows⟩, rfl, hascending⟩ := h
    refine ⟨⟨List.forall₂_iff_zip.mpr ⟨hlength, fun {a b} hz => hall (a, b) hz⟩, ?_⟩, hascending⟩
    rw [List.take_zero, List.nil_append] at hrows
    rw [hrows, ← List.flatMap_map Prod.fst, List.map_reverse, List.map_fst_zip hlength.le]
  · intro h
    obtain ⟨⟨hraw, hrows⟩, hascending⟩ := h
    obtain ⟨hlength, hall⟩ := List.forall₂_iff_zip.mp hraw
    refine ⟨hlength, 0, ⟨fun z hz => hall hz, Nat.zero_le _, ?_⟩, rfl, hascending⟩
    rw [List.take_zero, List.nil_append, ← List.flatMap_map Prod.fst, List.map_reverse,
      List.map_fst_zip hlength.le]
    exact hrows

/-- For every accepted manifest and all tables, taking the pages off the end of the decoded table
decides the same as the filter by page, which is that the table is the pages one behind the other. -/
theorem validateQuoteSide_iff_filter {symbolDigits : Option Int}
    (hmanifest : validateQuotePartition quote.requestedWindow quote.requestChunksNewestFirst = .ok ()) :
    (validateQuoteSide fromJson debugText convertPrice validPrice quote accountId rawRows decodedRows
        symbolDigits = .ok () ↔
      ∃ digits ∈ symbolDigits,
        FilteredPerPage fromJson convertPrice validPrice quote accountId rawRows decodedRows digits) ∧
    (validateQuoteSide fromJson debugText convertPrice validPrice quote accountId rawRows decodedRows
        symbolDigits = .ok () ↔
      ∃ digits ∈ symbolDigits,
        ConcatenatedPages fromJson convertPrice validPrice quote accountId rawRows decodedRows
          digits) := by
  have hconcatenated : validateQuoteSide fromJson debugText convertPrice validPrice quote accountId
      rawRows decodedRows symbolDigits = .ok () ↔ ∃ digits ∈ symbolDigits,
        ConcatenatedPages fromJson convertPrice validPrice quote accountId rawRows decodedRows
          digits := by
    rw [validateQuoteSide_ok]
    apply exists_congr
    intro digits
    apply and_congr_right
    intro _
    exact and_iff_left_of_imp fun h => h.ascending hmanifest
  refine ⟨?_, hconcatenated⟩
  simp only [filteredPerPage_iff hmanifest]
  exact hconcatenated

end Table

section Sample

def sampleEnvelopes : List (String × TickEnvelope) :=
  [("\x7b\"clientMsgId\":\"q-0\",\"payloadType\":2146" ++
      ",\"payload\":\x7b\"ctidTraderAccountId\":7,\"hasMore\":true,\"tickData\":[" ++
      "\x7b\"timestamp\":99,\"tick\":110003\x7d,\x7b\"timestamp\":-9,\"tick\":-1\x7d" ++
      ",\x7b\"timestamp\":-10,\"tick\":-1\x7d]\x7d\x7d",
      ⟨"q-0", 2146, 7, true, [⟨99, 110003⟩, ⟨-9, -1⟩, ⟨-10, -1⟩]⟩),
    ("\x7b\"clientMsgId\":\"q-1\",\"payloadType\":2146" ++
      ",\"payload\":\x7b\"ctidTraderAccountId\":7,\"hasMore\":false,\"tickData\":[" ++
      "\x7b\"timestamp\":79,\"tick\":110000\x7d,\x7b\"timestamp\":-19,\"tick\":1\x7d]\x7d\x7d",
      ⟨"q-1", 2146, 7, false, [⟨79, 110000⟩, ⟨-19, 1⟩]⟩),
    ("\x7b\"clientMsgId\":\"q-2\",\"payloadType\":2146" ++
      ",\"payload\":\x7b\"ctidTraderAccountId\":7,\"hasMore\":false,\"tickData\":[" ++
      "\x7b\"timestamp\":20,\"tick\":109990\x7d]\x7d\x7d",
      ⟨"q-2", 2146, 7, false, [⟨20, 109990⟩]⟩)]

def sampleFromJson (text : String) : Except String TickEnvelope :=
  match sampleEnvelopes.find? fun envelope => envelope.1 = text with
  | some envelope => .ok envelope.2
  | none => .error "expected value at line 1 column 1"

def sampleQuoteSide : ExactQuoteSideEvidence := ⟨.bid, 4, sampleWindow 10 100, samplePartition⟩

def sampleRawRows : List RawTickPageRow :=
  [⟨0, 0, 7, 4, 0, "q-0", 50, 100, 50, 100, 80, 99, 3, 1, (sampleEnvelopes[0]?.map Prod.fst).getD ""⟩,
    ⟨0, 1, 7, 4, 0, "q-1", 50, 100, 50, 80, 60, 79, 2, 0, (sampleEnvelopes[1]?.map Prod.fst).getD ""⟩,
    ⟨1, 0, 7, 4, 0, "q-2", 10, 50, 10, 50, 20, 20, 1, 0, (sampleEnvelopes[2]?.map Prod.fst).getD ""⟩]

def sampleDecodedRows : List (DecodedTickRow ℚ) :=
  [⟨1, 0, 0, 7, 4, 0, 20, 109990 / 100000⟩, ⟨0, 1, 0, 7, 4, 0, 60, 110001 / 100000⟩,
    ⟨0, 1, 1, 7, 4, 0, 79, 110000 / 100000⟩, ⟨0, 0, 0, 7, 4, 0, 80, 110001 / 100000⟩,
    ⟨0, 0, 1, 7, 4, 0, 90, 110002 / 100000⟩, ⟨0, 0, 2, 7, 4, 0, 99, 110003 / 100000⟩]

/-- The sample table passes the filter by page, and fails it when two of its rows change places. -/
theorem sampleDecodedRows_filtered :
    (∃ digits ∈ some 5, FilteredPerPage sampleFromJson (fun _ => fiveDigitPrice) (0 < ·) sampleQuoteSide 7
        sampleRawRows sampleDecodedRows digits) ∧
      ¬∃ digits ∈ some 5, FilteredPerPage sampleFromJson (fun _ => fiveDigitPrice) (0 < ·)
        sampleQuoteSide 7 sampleRawRows sampleDecodedRows.reverse digits := by
  have hmanifest : validateQuotePartition sampleQuoteSide.requestedWindow
      sampleQuoteSide.requestChunksNewestFirst = .ok () := by decide +kernel
  have hfilter (rows : List (DecodedTickRow ℚ)) : validateQuoteSide sampleFromJson String.quote
      (fun _ => fiveDigitPrice) (0 < ·) sampleQuoteSide 7 sampleRawRows rows (some 5) = .ok () ↔
        ∃ digits ∈ some 5, FilteredPerPage sampleFromJson (fun _ => fiveDigitPrice) (0 < ·)
          sampleQuoteSide 7 sampleRawRows rows digits :=
    (validateQuoteSide_iff_filter hmanifest).1
  constructor
  · exact (hfilter sampleDecodedRows).mp (by decide +kernel)
  · exact mt (hfilter sampleDecodedRows.reverse).mpr (by decide +kernel)

end Sample

end Neoethos
