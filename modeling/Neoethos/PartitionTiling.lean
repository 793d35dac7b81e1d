import Neoethos.BrokerPartition
import Neoethos.Tiling

namespace Neoethos

open Tiling (Tiles)

def RequestedWindow.interval (w : RequestedWindow) : Int × Int :=
  (w.fromUnixMsInclusive, w.toUnixMsExclusive)

/-- The times a page speaks for, newest page first: from its first event on, or from the
start of the chunk for the terminal page, up to the bound of its request. -/
def pageIntervals (chunkFrom : Int) : List ExactBrokerRequestPage → List (Int × Int)
  | [] => []
  | [page] => [(chunkFrom, page.requestedWindow.toUnixMsExclusive)]
  | page :: older =>
    (page.firstEventUnixMs.getD chunkFrom, page.requestedWindow.toUnixMsExclusive) ::
      pageIntervals chunkFrom older

def ExactBrokerRequestChunk.intervals (chunk : ExactBrokerRequestChunk) : List (Int × Int) :=
  pageIntervals chunk.requestedWindow.fromUnixMsInclusive chunk.pagesNewestFirst

/-- A page retains the first and the last of its event times; the others lie between them. -/
def ExactBrokerRequestPage.MayHaveEventAt (page : ExactBrokerRequestPage) (t : Int) : Prop :=
  ∃ first ∈ page.firstEventUnixMs, ∃ last ∈ page.lastEventUnixMs, first ≤ t ∧ t ≤ last

def WithinInterval (page : ExactBrokerRequestPage) (i : Int × Int) : Prop :=
  ∀ t, page.MayHaveEventAt t → i.1 ≤ t ∧ t < i.2

theorem RequestedWindow.lt_of_validate {w : RequestedWindow} (h : w.validate = .ok ()) :
    w.fromUnixMsInclusive < w.toUnixMsExclusive := by
  have hv := Fallible.refuse_ok_iff.mp h
  omega

namespace ExactBrokerRequestPage

variable {page : ExactBrokerRequestPage}

theorem bounds_of_validate (h : page.validate = .ok ()) :
    page.requestedWindow.fromUnixMsInclusive < page.requestedWindow.toUnixMsExclusive ∧
      page.hasConsistentBounds = true := by
  unfold validate at h
  simp only [Fallible.check_ok_iff, Fallible.refuse_ok_iff, Bool.not_eq_false] at h
  obtain ⟨hw, -, -, hb⟩ := h
  exact ⟨RequestedWindow.lt_of_validate hw, hb⟩

theorem event_bounds {t : Int} (h : page.validate = .ok ()) (ht : page.MayHaveEventAt t) :
    page.requestedWindow.fromUnixMsInclusive ≤ t ∧ t < page.requestedWindow.toUnixMsExclusive := by
  obtain ⟨-, hb⟩ := bounds_of_validate h
  obtain ⟨first, hf, last, hl, hft, htl⟩ := ht
  unfold hasConsistentBounds at hb
  rw [Option.mem_def.mp hf, Option.mem_def.mp hl] at hb
  simp only [Bool.and_eq_true, decide_eq_true_eq] at hb
  omega

theorem first_lt_upper {first : Int} (h : page.validate = .ok ())
    (hf : page.firstEventUnixMs = some first) : first < page.requestedWindow.toUnixMsExclusive := by
  obtain ⟨-, hb⟩ := bounds_of_validate h
  unfold hasConsistentBounds at hb
  rw [hf] at hb
  cases hl : page.lastEventUnixMs with
  | none => simp [hl] at hb
  | some last =>
    simp only [hl, Bool.and_eq_true, decide_eq_true_eq] at hb
    omega

end ExactBrokerRequestPage

namespace ExactBrokerRequestChunk

variable {chunk : ExactBrokerRequestChunk} {page newer : ExactBrokerRequestPage}
  {before : Option ExactBrokerRequestPage} {pageIndex : Nat} {seen : List String}
  {older : List ExactBrokerRequestPage}

theorem from_of_validateBoundary (h : chunk.validateBoundary page before = .ok ()) :
    page.requestedWindow.fromUnixMsInclusive = chunk.requestedWindow.fromUnixMsInclusive := by
  unfold validateBoundary at h
  cases before with
  | none =>
    have he := not_not.mp (Fallible.refuse_ok_iff.mp h)
    rw [he]
  | some newer =>
    obtain ⟨boundary, -, hr⟩ := Fallible.bind_ok_iff.mp h
    have hn := Fallible.refuse_ok_iff.mp hr
    push Not at hn
    exact hn.2.1

theorem boundary_of_validateBoundary
    (h : chunk.validateBoundary page (some newer) = .ok ()) :
    newer.firstEventUnixMs = some page.requestedWindow.toUnixMsExclusive ∧
      newer.responseHasMore = true := by
  unfold validateBoundary at h
  obtain ⟨boundary, hb, hr⟩ := Fallible.bind_ok_iff.mp h
  have hn := Fallible.refuse_ok_iff.mp hr
  push Not at hn
  rw [Fallible.require_ok_iff.mp hb, hn.2.2.1]
  exact ⟨rfl, by simpa using hn.1⟩

theorem validatePagesFrom_cons
    (h : chunk.validatePagesFrom pageIndex before seen (page :: older) = .ok ()) :
    page.validate = .ok () ∧ chunk.validateBoundary page before = .ok () ∧
      chunk.validatePagesFrom (pageIndex + 1) (some page) (page.clientMsgId :: seen) older
        = .ok () := by
  unfold validatePagesFrom at h
  simp only [Fallible.check_ok_iff] at h
  obtain ⟨hv, -, hb, hr⟩ := h
  exact ⟨hv, hb, hr⟩

/-- The induction goes down the pages: the first event of a page bounds the next request. -/
theorem tiles_of_validatePagesFrom
    (h : chunk.validatePagesFrom pageIndex before seen (page :: older) = .ok ()) :
    Tiles chunk.requestedWindow.fromUnixMsInclusive page.requestedWindow.toUnixMsExclusive
      (pageIntervals chunk.requestedWindow.fromUnixMsInclusive (page :: older)) := by
  induction older generalizing pageIndex before seen page with
  | nil =>
    obtain ⟨hv, hb, -⟩ := validatePagesFrom_cons h
    have hlt := (ExactBrokerRequestPage.bounds_of_validate hv).1
    rw [from_of_validateBoundary hb] at hlt
    exact ⟨rfl, hlt, rfl⟩
  | cons next rest ih =>
    obtain ⟨hv, -, hr⟩ := validatePagesFrom_cons h
    obtain ⟨-, hb, -⟩ := validatePagesFrom_cons hr
    have hfirst := (boundary_of_validateBoundary hb).1
    have hlt := ExactBrokerRequestPage.first_lt_upper hv hfirst
    have htail := ih hr
    refine ⟨rfl, ?_, ?_⟩
    · rw [hfirst]
      exact hlt
    · rw [hfirst]
      exact htail

theorem within_of_validatePagesFrom
    (h : chunk.validatePagesFrom pageIndex before seen (page :: older) = .ok ()) :
    List.Forall₂ WithinInterval (page :: older)
      (pageIntervals chunk.requestedWindow.fromUnixMsInclusive (page :: older)) := by
  induction older generalizing pageIndex before seen page with
  | nil =>
    obtain ⟨hv, hb, -⟩ := validatePagesFrom_cons h
    refine List.Forall₂.cons ?_ List.Forall₂.nil
    intro t ht
    have hbounds := ExactBrokerRequestPage.event_bounds hv ht
    rw [from_of_validateBoundary hb] at hbounds
    exact hbounds
  | cons next rest ih =>
    obtain ⟨hv, -, hr⟩ := validatePagesFrom_cons h
    obtain ⟨-, hb, -⟩ := validatePagesFrom_cons hr
    refine List.Forall₂.cons ?_ (ih hr)
    intro t ht
    have hupper := (ExactBrokerRequestPage.event_bounds hv ht).2
    obtain ⟨first, hf, -, -, hle, -⟩ := ht
    rw [Option.mem_def.mp hf]
    exact ⟨hle, hupper⟩

theorem continued_of_validatePagesFrom
    (h : chunk.validatePagesFrom pageIndex before seen (page :: older) = .ok ()) :
    ∀ p ∈ (page :: older).dropLast, p.responseHasMore = true ∧ p.firstEventUnixMs.isSome := by
  induction older generalizing pageIndex before seen page with
  | nil => simp
  | cons next rest ih =>
    obtain ⟨-, -, hr⟩ := validatePagesFrom_cons h
    obtain ⟨-, hb, -⟩ := validatePagesFrom_cons hr
    obtain ⟨hfirst, hmore⟩ := boundary_of_validateBoundary hb
    intro p hp
    rw [List.dropLast_cons_cons] at hp
    rcases List.mem_cons.mp hp with rfl | hrest
    · exact ⟨hmore, by rw [hfirst]; rfl⟩
    · exact ih hr p hrest

end ExactBrokerRequestChunk

/-- The pages of a chunk divide its window; only the terminal page may be empty, and it is
the only one without `hasMore`. -/
structure ExactBrokerRequestChunk.Divided (chunk : ExactBrokerRequestChunk) : Prop where
  continued : ∀ page ∈ chunk.pagesNewestFirst.dropLast,
    page.responseHasMore = true ∧ page.firstEventUnixMs.isSome
  terminal : ∃ page, chunk.pagesNewestFirst.getLast? = some page ∧ page.responseHasMore = false
  tiles : Tiles chunk.requestedWindow.interval.1 chunk.requestedWindow.interval.2 chunk.intervals
  within : List.Forall₂ WithinInterval chunk.pagesNewestFirst chunk.intervals

theorem ExactBrokerRequestChunk.divided_of_validatePages {chunk : ExactBrokerRequestChunk}
    (h : chunk.validatePages = .ok ()) : chunk.Divided := by
  unfold validatePages at h
  simp only [Fallible.check_ok_iff, Fallible.refuse_ok_iff] at h
  obtain ⟨-, hne, hp, hlast⟩ := h
  obtain ⟨page, older, hpages⟩ := List.exists_cons_of_ne_nil hne
  rw [hpages] at hp
  obtain ⟨-, hb, -⟩ := validatePagesFrom_cons hp
  have hfirst : page.requestedWindow = chunk.requestedWindow :=
    not_not.mp (Fallible.refuse_ok_iff.mp hb)
  have htiles := tiles_of_validatePagesFrom hp
  rw [hfirst, ← hpages] at htiles
  have hwithin := within_of_validatePagesFrom hp
  have hcontinued := continued_of_validatePagesFrom hp
  rw [← hpages] at hwithin hcontinued
  refine ⟨hcontinued, ?_, htiles, hwithin⟩
  refine ⟨chunk.pagesNewestFirst.getLast hne, List.getLast?_eq_some_getLast hne, ?_⟩
  simpa [List.getLast?_eq_some_getLast hne] using hlast

section

variable {completeWindow : RequestedWindow} {maximumSpanMs : Option Int}
  {pageContract : PageContract} {chunkIndex : Nat} {before : Option ExactBrokerRequestChunk}
  {seen : List String} {chunk : ExactBrokerRequestChunk} {older : List ExactBrokerRequestChunk}

theorem insertClientMsgIds_ok {pages : List ExactBrokerRequestPage} {seen' : List String}
    (h : insertClientMsgIds seen pages = .ok seen') (hs : seen.Nodup) :
    seen' = (pages.map (·.clientMsgId)).reverse ++ seen ∧ seen'.Nodup := by
  induction pages generalizing seen with
  | nil =>
    cases h
    exact ⟨rfl, hs⟩
  | cons page rest ih =>
    unfold insertClientMsgIds at h
    rw [Fallible.check_ok_iff, Fallible.refuse_ok_iff] at h
    obtain ⟨heq, hnodup⟩ := ih h.2 (List.nodup_cons.mpr ⟨h.1, hs⟩)
    refine ⟨?_, hnodup⟩
    rw [heq]
    simp

theorem validatePartitionFrom_cons
    (h : validatePartitionFrom completeWindow maximumSpanMs pageContract chunkIndex before seen
      (chunk :: older) = .ok ()) :
    chunk.validatePages = .ok () ∧ validateChunkBoundary completeWindow chunk before = .ok () ∧
      ∃ seen', insertClientMsgIds seen chunk.pagesNewestFirst = .ok seen' ∧
        validatePartitionFrom completeWindow maximumSpanMs pageContract (chunkIndex + 1)
          (some chunk) seen' older = .ok () := by
  unfold validatePartitionFrom at h
  obtain ⟨hv, hseq⟩ := Fallible.check_ok_iff.mp h
  obtain ⟨-, hspan⟩ := Fallible.check_ok_iff.mp hseq
  obtain ⟨span, -, hmax⟩ := Fallible.bind_ok_iff.mp hspan
  obtain ⟨-, hcontract⟩ := Fallible.check_ok_iff.mp hmax
  obtain ⟨-, hids⟩ := Fallible.check_ok_iff.mp hcontract
  obtain ⟨seen', hi, hrest⟩ := Fallible.bind_ok_iff.mp hids
  obtain ⟨hb, hr⟩ := Fallible.check_ok_iff.mp hrest
  exact ⟨hv, hb, seen', hi, hr⟩

theorem divided_of_validatePartitionFrom {chunks : List ExactBrokerRequestChunk}
    (h : validatePartitionFrom completeWindow maximumSpanMs pageContract chunkIndex before seen
      chunks = .ok ()) : ∀ chunk ∈ chunks, chunk.Divided := by
  induction chunks generalizing chunkIndex before seen with
  | nil => simp
  | cons first rest ih =>
    obtain ⟨hv, -, seen', -, hr⟩ := validatePartitionFrom_cons h
    intro chunk hc
    rcases List.mem_cons.mp hc with rfl | hrest
    · exact ExactBrokerRequestChunk.divided_of_validatePages hv
    · exact ih hr chunk hrest

theorem nodup_of_validatePartitionFrom {chunks : List ExactBrokerRequestChunk}
    (h : validatePartitionFrom completeWindow maximumSpanMs pageContract chunkIndex before seen
      chunks = .ok ()) (hs : seen.Nodup) :
    (((chunks.flatMap (·.pagesNewestFirst)).map (·.clientMsgId)).reverse ++ seen).Nodup := by
  induction chunks generalizing chunkIndex before seen with
  | nil => exact hs
  | cons first rest ih =>
    obtain ⟨-, -, seen', hi, hr⟩ := validatePartitionFrom_cons h
    obtain ⟨heq, hnodup⟩ := insertClientMsgIds_ok hi hs
    have htail := ih hr hnodup
    rw [heq] at htail
    simpa using htail

theorem tiles_of_validatePartitionFrom
    (h : validatePartitionFrom completeWindow maximumSpanMs pageContract chunkIndex before seen
      (chunk :: older) = .ok ()) {oldest : ExactBrokerRequestChunk}
    (hl : (chunk :: older).getLast? = some oldest) :
    Tiles oldest.requestedWindow.fromUnixMsInclusive chunk.requestedWindow.toUnixMsExclusive
      ((chunk :: older).map (·.requestedWindow.interval)) := by
  have hlt (c : ExactBrokerRequestChunk) (hc : c.validatePages = .ok ()) :
      c.requestedWindow.fromUnixMsInclusive < c.requestedWindow.toUnixMsExclusive := by
    obtain ⟨hw, -⟩ := Fallible.check_ok_iff.mp hc
    exact RequestedWindow.lt_of_validate hw
  induction older generalizing chunkIndex before seen chunk with
  | nil =>
    cases hl
    obtain ⟨hv, -, -⟩ := validatePartitionFrom_cons h
    exact ⟨rfl, hlt _ hv, rfl⟩
  | cons next rest ih =>
    obtain ⟨hv, -, seen', -, hr⟩ := validatePartitionFrom_cons h
    obtain ⟨-, hb, -⟩ := validatePartitionFrom_cons hr
    have hnext : next.requestedWindow.toUnixMsExclusive =
        chunk.requestedWindow.fromUnixMsInclusive := not_not.mp (Fallible.refuse_ok_iff.mp hb)
    have htail := ih hr (by simpa using hl)
    rw [hnext] at htail
    exact ⟨rfl, hlt _ hv, htail⟩

end

/-- What an accepted partition is: the chunks tile the complete window, the pages tile their
chunks and together the whole window, and no request was made under one identifier twice. -/
structure TilesCompleteWindow (completeWindow : RequestedWindow)
    (chunksNewestFirst : List ExactBrokerRequestChunk) : Prop where
  chunks_disjoint : chunksNewestFirst.Pairwise fun c d =>
    Disjoint (Set.Ico c.requestedWindow.interval.1 c.requestedWindow.interval.2)
      (Set.Ico d.requestedWindow.interval.1 d.requestedWindow.interval.2)
  chunks_union : ⋃ c ∈ chunksNewestFirst,
      Set.Ico c.requestedWindow.interval.1 c.requestedWindow.interval.2 =
    Set.Ico completeWindow.fromUnixMsInclusive completeWindow.toUnixMsExclusive
  pages_continued : ∀ c ∈ chunksNewestFirst, ∀ page ∈ c.pagesNewestFirst.dropLast,
    page.responseHasMore = true ∧ page.firstEventUnixMs.isSome
  pages_terminal : ∀ c ∈ chunksNewestFirst, ∃ page, c.pagesNewestFirst.getLast? = some page ∧
    page.responseHasMore = false
  pages_disjoint : ∀ c ∈ chunksNewestFirst,
    c.intervals.Pairwise fun i j => Disjoint (Set.Ico i.1 i.2) (Set.Ico j.1 j.2)
  pages_union : ∀ c ∈ chunksNewestFirst, ⋃ i ∈ c.intervals, Set.Ico i.1 i.2 =
    Set.Ico c.requestedWindow.fromUnixMsInclusive c.requestedWindow.toUnixMsExclusive
  events_within : ∀ c ∈ chunksNewestFirst,
    List.Forall₂ WithinInterval c.pagesNewestFirst c.intervals
  chronological : (chunksNewestFirst.reverse.flatMap fun c => c.pagesNewestFirst.reverse).Pairwise
    fun p q => ∀ s t, p.MayHaveEventAt s → q.MayHaveEventAt t → s < t
  covered_once : (chunksNewestFirst.flatMap (·.intervals)).Pairwise fun i j =>
    Disjoint (Set.Ico i.1 i.2) (Set.Ico j.1 j.2)
  covered : ⋃ i ∈ chunksNewestFirst.flatMap (·.intervals), Set.Ico i.1 i.2 =
    Set.Ico completeWindow.fromUnixMsInclusive completeWindow.toUnixMsExclusive
  identifiers_nodup :
    ((chunksNewestFirst.flatMap (·.pagesNewestFirst)).map (·.clientMsgId)).Nodup

theorem forall₂_flatMap_within {chunks : List ExactBrokerRequestChunk}
    (h : ∀ c ∈ chunks, c.Divided) :
    List.Forall₂ WithinInterval (chunks.flatMap (·.pagesNewestFirst))
      (chunks.flatMap (·.intervals)) := by
  induction chunks with
  | nil => exact List.Forall₂.nil
  | cons c rest ih =>
    rw [List.flatMap_cons, List.flatMap_cons]
    exact List.rel_append (h c List.mem_cons_self).within
      (ih fun d hd => h d (List.mem_cons_of_mem c hd))

theorem tilesCompleteWindow_of_validatePartition {completeWindow : RequestedWindow}
    {maximumSpanMs : Option Int} {pageContract : PageContract}
    {chunks : List ExactBrokerRequestChunk}
    (h : validatePartition completeWindow maximumSpanMs pageContract chunks = .ok ()) :
    TilesCompleteWindow completeWindow chunks := by
  unfold validatePartition at h
  simp only [Fallible.check_ok_iff, Fallible.refuse_ok_iff] at h
  obtain ⟨-, hne, hp, hlast⟩ := h
  have hdivided := divided_of_validatePartitionFrom hp
  have hnodup := nodup_of_validatePartitionFrom hp List.nodup_nil
  have holdest : (chunks.getLast hne).requestedWindow.fromUnixMsInclusive =
      completeWindow.fromUnixMsInclusive := by
    simpa [List.getLast?_eq_some_getLast hne] using hlast
  have htiles : Tiles completeWindow.fromUnixMsInclusive completeWindow.toUnixMsExclusive
      (chunks.map (·.requestedWindow.interval)) := by
    obtain ⟨chunk, older, rfl⟩ := List.exists_cons_of_ne_nil hne
    have ht := tiles_of_validatePartitionFrom hp (List.getLast?_eq_some_getLast hne)
    obtain ⟨-, hb, -⟩ := validatePartitionFrom_cons hp
    have hfirst : chunk.requestedWindow.toUnixMsExclusive = completeWindow.toUnixMsExclusive :=
      not_not.mp (Fallible.refuse_ok_iff.mp hb)
    rw [holdest, hfirst] at ht
    exact ht
  have hall : Tiles completeWindow.fromUnixMsInclusive completeWindow.toUnixMsExclusive
      (chunks.flatMap (·.intervals)) := htiles.refine fun c hc => (hdivided c hc).tiles
  have hchrono := hall.chronological (forall₂_flatMap_within hdivided)
  exact {
    chunks_disjoint := by
      have hd := htiles.disjoint
      rw [List.pairwise_map] at hd
      exact hd
    chunks_union := by simpa using htiles.union
    pages_continued := fun c hc => (hdivided c hc).continued
    pages_terminal := fun c hc => (hdivided c hc).terminal
    pages_disjoint := fun c hc => (hdivided c hc).tiles.disjoint
    pages_union := fun c hc => (hdivided c hc).tiles.union
    events_within := fun c hc => (hdivided c hc).within
    chronological := by
      have hr := List.pairwise_reverse.mpr hchrono
      rw [List.reverse_flatMap] at hr
      exact hr
    covered_once := hall.disjoint
    covered := hall.union
    identifiers_nodup := by simpa using hnodup }

/-- The validators compare neighbours only; what they accept tiles the complete window. -/
theorem accepted_partition_tiles (completeWindow : RequestedWindow)
    (chunksNewestFirst : List ExactBrokerRequestChunk)
    (h : validateQuotePartition completeWindow chunksNewestFirst = .ok () ∨
      validateDealPartition completeWindow chunksNewestFirst = .ok ()) :
    TilesCompleteWindow completeWindow chunksNewestFirst := by
  rcases h with hq | hd
  · exact tilesCompleteWindow_of_validatePartition hq
  · exact tilesCompleteWindow_of_validatePartition hd

section Sample

def sampleWindow (lower upper : Nat) : RequestedWindow where
  fromUnixMsInclusive := lower % 1000
  toUnixMsExclusive := upper % 1000
  fromRange := by
    unfold I64.InRange I64.minValue I64.maxValue
    omega
  toRange := by
    unfold I64.InRange I64.minValue I64.maxValue
    omega

def samplePartition : List ExactBrokerRequestChunk :=
  [⟨0, sampleWindow 50 100, [⟨0, 0, "q-0", sampleWindow 50 100, some 80, some 99, 3, true, none⟩,
      ⟨0, 1, "q-1", sampleWindow 50 80, some 60, some 79, 2, false, none⟩]⟩,
    ⟨1, sampleWindow 10 50, [⟨1, 0, "q-2", sampleWindow 10 50, some 20, some 20, 1, false, none⟩]⟩]

theorem samplePartition_tiles :
    validateQuotePartition (sampleWindow 10 100) samplePartition = .ok () ∧
      TilesCompleteWindow (sampleWindow 10 100) samplePartition := by
  have h : validateQuotePartition (sampleWindow 10 100) samplePartition = .ok () := by
    decide +kernel
  exact ⟨h, accepted_partition_tiles _ _ (.inl h)⟩

end Sample

end Neoethos
