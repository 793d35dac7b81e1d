import Neoethos.CaptureAdmissible

namespace Neoethos

variable {σ P : Type*} {ns : ClientMessageNamespace}

section Grouping

variable {chunkSequence pageSequence sequence after : Nat} {chunkWindow : EvidenceWindow}
  {pageTo oldest : Int} {pages rest : List (CapturedTickPageRecord P)}
  {chunkPages : List ExactBrokerRequestPage}

theorem groupPagesFrom_same {page : CapturedTickPageRecord P}
    (hpage : RetainedPage ns chunkSequence chunkWindow pageTo pageSequence sequence oldest page)
    (hlength : chunkPages.length = pageSequence) (hcount : chunkSequence ≤ sequenceMax) :
    groupPagesFrom chunkSequence chunkWindow chunkPages (page :: rest) =
      groupPagesFrom chunkSequence chunkWindow (chunkPages ++ [page.requestPage]) rest := by
  have hcontiguous : ¬(page.chunkSequence < chunkSequence ∨
      min sequenceMax (chunkSequence + 1) < page.chunkSequence) := by
    rw [hpage.chunk]
    omega
  have hplace : ¬(page.pageSequenceInChunk ≠ chunkPages.length ∨
      page.requestedChunkWindow ≠ chunkWindow) := by
    simp [hpage.index, hlength, hpage.sameChunk]
  conv_lhs => unfold groupPagesFrom
  rw [Fallible.refuse, if_neg hcontiguous, if_pos hpage.chunk, Fallible.refuse, if_neg hplace,
    hpage.requestPage_validate]
  rfl

theorem groupPagesFrom_next {page : CapturedTickPageRecord P} {window : EvidenceWindow}
    (hpage : RetainedPage ns (chunkSequence + 1) chunkWindow pageTo 0 sequence oldest page)
    (hcount : chunkSequence + 1 ≤ sequenceMax)
    (hvalid : (⟨chunkSequence, window.requested, chunkPages⟩ :
      ExactBrokerRequestChunk).validatePages = .ok ()) :
    groupPagesFrom chunkSequence window chunkPages (page :: rest) =
      (groupPagesFrom (chunkSequence + 1) chunkWindow [page.requestPage] rest).map
        (⟨chunkSequence, window.requested, chunkPages⟩ :: ·) := by
  have hcontiguous : ¬(page.chunkSequence < chunkSequence ∨
      min sequenceMax (chunkSequence + 1) < page.chunkSequence) := by
    rw [hpage.chunk]
    omega
  have hother : ¬page.chunkSequence = chunkSequence := by
    rw [hpage.chunk]
    omega
  have hnew : ExactBrokerRequestChunk.new chunkSequence window.requested chunkPages =
      .ok ⟨chunkSequence, window.requested, chunkPages⟩ :=
    Fallible.check_ok_iff.mpr ⟨hvalid, rfl⟩
  conv_lhs => unfold groupPagesFrom
  rw [Fallible.refuse, if_neg hcontiguous, if_neg hother, hnew, Fallible.refuse,
    if_neg (not_not.mpr hpage.index), hpage.requestPage_validate, hpage.chunk, hpage.sameChunk]
  cases groupPagesFrom (chunkSequence + 1) chunkWindow [page.requestPage] rest with
  | error e => rfl
  | ok chunks => rfl

theorem groupPagesFrom_chain
    (h : PageChain ns chunkSequence chunkWindow pageTo pageSequence sequence pages after)
    (hlength : chunkPages.length = pageSequence) (hcount : chunkSequence ≤ sequenceMax) :
    groupPagesFrom chunkSequence chunkWindow chunkPages (pages ++ rest) =
      groupPagesFrom chunkSequence chunkWindow (chunkPages ++ pages.map (·.requestPage)) rest := by
  induction h generalizing chunkPages with
  | last hpage hlast => exact groupPagesFrom_same hpage hlength hcount
  | older hpage hmore hlt hrest ih =>
    rw [List.cons_append, groupPagesFrom_same hpage hlength hcount, ih (by simp [hlength])]
    simp

end Grouping

namespace ChunkChain

variable {lower chunkTo : Int} {chunkSequence sequence : Nat}
  {groups : List (EvidenceWindow × List (CapturedTickPageRecord P))}

/-- After a complete chunk the grouping gives back the chunks that follow. -/
theorem groupPagesFrom_eq
    (h : ChunkChain ns lower chunkTo (chunkSequence + 1) sequence groups)
    {window : EvidenceWindow} {chunkPages : List ExactBrokerRequestPage}
    (hcount : chunkSequence + 1 ≤ sequenceMax)
    (hvalid : (⟨chunkSequence, window.requested, chunkPages⟩ :
      ExactBrokerRequestChunk).validatePages = .ok ()) :
    groupPagesFrom chunkSequence window chunkPages (groups.flatMap (·.2)) =
      .ok (⟨chunkSequence, window.requested, chunkPages⟩ :: chunksFrom (chunkSequence + 1) groups) := by
  induction groups generalizing chunkTo chunkSequence sequence window chunkPages with
  | nil =>
    have hnew : ExactBrokerRequestChunk.new chunkSequence window.requested chunkPages =
        .ok ⟨chunkSequence, window.requested, chunkPages⟩ :=
      Fallible.check_ok_iff.mpr ⟨hvalid, rfl⟩
    rw [List.flatMap_nil]
    unfold groupPagesFrom
    rw [hnew]
    rfl
  | cons group groups ih =>
    cases h with
    | chunk hlower hupper hspan hcountNext hpages hrest =>
      have hpagesValid := (hupper ▸ hpages).validatePages
      have htail := ih hrest hcountNext hpagesValid
      rw [List.flatMap_cons]
      unfold chunksFrom
      cases hpages with
      | last hpage hlast =>
        rw [List.singleton_append, groupPagesFrom_next hpage hcount hvalid]
        exact congrArg (Except.map _) htail
      | older hpage hmore hlt hold =>
        rw [List.cons_append, groupPagesFrom_next hpage hcount hvalid,
          groupPagesFrom_chain hold rfl (by omega)]
        exact congrArg (Except.map _) htail

theorem groupPages_eq (h : ChunkChain ns lower chunkTo 0 sequence groups) (hne : lower < chunkTo) :
    groupPages (groups.flatMap (·.2)) = .ok (chunksFrom 0 groups) := by
  cases h with
  | done hend => omega
  | @chunk _ _ _ after chunkWindow pages groups hlower hupper hspan hcount hpages hrest =>
    have hvalid := (hupper ▸ hpages).validatePages
    have htail := hrest.groupPagesFrom_eq hcount hvalid
    have hchain : groupPagesFrom 0 chunkWindow [] (pages ++ groups.flatMap (·.2)) =
        groupPagesFrom 0 chunkWindow ([] ++ pages.map (·.requestPage)) (groups.flatMap (·.2)) :=
      groupPagesFrom_chain hpages rfl (Nat.zero_le _)
    rw [List.nil_append, htail] at hchain
    rw [List.flatMap_cons]
    obtain ⟨first, older, rfl⟩ := List.exists_cons_of_ne_nil hpages.ne_nil
    have hwindow : first.requestedChunkWindow = chunkWindow := by
      cases hpages with
      | last hpage hlast => exact hpage.sameChunk
      | older hpage hmore hlt hold => exact hpage.sameChunk
    unfold groupPages
    rw [List.cons_append]
    dsimp only
    rw [hwindow]
    exact hchain

theorem chunks_valid (h : ChunkChain ns lower chunkTo chunkSequence sequence groups) :
    ∀ chunk ∈ chunksFrom chunkSequence groups, chunk.validatePages = .ok () ∧
      chunk.requestedWindow.toUnixMsExclusive - chunk.requestedWindow.fromUnixMsInclusive ≤
        maxTickRequestSpanMs := by
  induction h with
  | done => simp [chunksFrom]
  | @chunk chunkTo chunkSequence sequence after chunkWindow pages groups hlower hupper hspan hcount
      hpages hrest ih =>
    unfold chunksFrom
    refine List.forall_mem_cons.mpr ⟨⟨(hupper ▸ hpages).validatePages, ?_⟩, ih⟩
    subst hupper
    exact hspan

theorem length_le (h : ChunkChain ns lower chunkTo chunkSequence sequence groups)
    (hchunkTo : lower ≤ chunkTo) : ((groups.flatMap (·.2)).length : Int) ≤ chunkTo - lower := by
  induction h with
  | done hend =>
    simp only [List.flatMap_nil, List.length_nil]
    omega
  | @chunk chunkTo chunkSequence sequence after chunkWindow pages groups hlower hupper hspan hcount
      hpages hrest ih =>
    have hnow := hpages.length_le
    have hlater := ih hlower
    rw [List.flatMap_cons, List.length_append]
    dsimp only
    omega

end ChunkChain

/-- Whatever the session answers, the pages of a capture that returns group into chunks which
the contracts of the broker truth accept for the whole window. -/
theorem captured_quote_pages_admissible (validPrice : P → Bool) (session : TickSession σ P)
    (ns : ClientMessageNamespace) (request : ExactQuoteCaptureRequest)
    (adapter adapter' : CaptureAdapter σ) (pages : List (CapturedTickPageRecord P))
    (h : captureSessionQuotePages validPrice session ns request adapter = .ok (pages, adapter')) :
    ∃ chunks, groupPages pages = .ok chunks ∧
      (∀ chunk ∈ chunks, chunk.validatePages = .ok () ∧
        chunk.requestedWindow.toUnixMsExclusive - chunk.requestedWindow.fromUnixMsInclusive ≤
          maxTickRequestSpanMs) ∧
      validateQuotePartition request.window.requested chunks = .ok () ∧
      (pages.length : Int) ≤
        request.window.toUnixMsExclusive - request.window.fromUnixMsInclusive := by
  have hnonneg := request.window.nonNegative
  have hnonempty := request.window.nonEmpty
  have hbounded := request.window.bounded
  obtain ⟨groups, hchain, rfl⟩ := chunkChain_of_captureChunks ⟨by omega, hbounded⟩ h
  refine ⟨chunksFrom 0 groups, hchain.groupPages_eq hnonempty, hchain.chunks_valid, ?_,
    hchain.length_le hnonempty.le⟩
  have hstart : ChunkChain.Follows request.window request.window.toUnixMsExclusive none := rfl
  have hfrom := hchain.validatePartitionFrom hstart
    (show IdsBelow ns adapter.nextClientMessageSequence [] from by simp [IdsBelow])
  have hlast := hchain.getLast_from
  unfold validateQuotePartition validatePartition
  rw [Fallible.check_ok_iff, Fallible.check_ok_iff, Fallible.check_ok_iff]
  refine ⟨request.window.requested_validate, Fallible.refuse_ok_iff.mpr ?_, hfrom,
    Fallible.refuse_ok_iff.mpr ?_⟩
  · cases hchain with
    | done hend => omega
    | chunk => exact List.cons_ne_nil _ _
  · cases hlastChunk : (chunksFrom 0 groups).getLast? with
    | none => simp
    | some chunk =>
      have hlower : chunk.requestedWindow.fromUnixMsInclusive =
          request.window.requested.fromUnixMsInclusive := hlast chunk hlastChunk
      simp [hlower]

/-- A session with two answers for `[0, 1000)`: the newer tick with more behind it, the older. -/
def sampleTickSession : TickSession Nat Int where
  exchange
    | 0, _ => .ok (⟨7, [⟨400, 3⟩, ⟨900, 4⟩], true⟩, 1)
    | n + 1, _ => .ok (⟨7, [⟨100, 2⟩], false⟩, n + 2)

def sampleNamespace : ClientMessageNamespace where
  text := "truth-1"
  valid := Fallible.refuse_ok_iff.mpr (by decide +kernel)

def sampleQuoteRequest : ExactQuoteCaptureRequest where
  accountId := 1
  symbolId := 7
  side := .bid
  window := ⟨0, 1000, by decide, by decide, by decide⟩

theorem sampleCapture_two_pages :
    (captureSessionQuotePages (0 < ·) sampleTickSession sampleNamespace sampleQuoteRequest
      ⟨0, 0⟩).toOption.any (fun result => result.1.length = 2) = true := by
  simp [captureSessionQuotePages, captureChunks, captureChunkPages, sampleQuoteRequest,
    EvidenceWindow.new, I64.maxValue, I64.saturatingSub, I64.minValue, maxTickRequestSpanMs,
    ClientMessageNamespace.nextClientMsgId, sampleTickSession, checkTickPage, strictlyAscending,
    sequenceMax, Except.map, Except.toOption]

theorem sampleCapture_admissible :
    ∃ pages adapter chunks, captureSessionQuotePages (0 < ·) sampleTickSession sampleNamespace
        sampleQuoteRequest ⟨0, 0⟩ = .ok (pages, adapter) ∧
      pages.length = 2 ∧ groupPages pages = .ok chunks ∧
      validateQuotePartition sampleQuoteRequest.window.requested chunks = .ok () := by
  obtain ⟨⟨pages, adapter⟩, hcapture, htwo⟩ := Fallible.exists_ok_of_any sampleCapture_two_pages
  obtain ⟨chunks, hgroup, -, hpartition, -⟩ := captured_quote_pages_admissible (0 < ·)
    sampleTickSession sampleNamespace sampleQuoteRequest ⟨0, 0⟩ adapter pages hcapture
  exact ⟨pages, adapter, chunks, hcapture, by simpa using htwo, hgroup, hpartition⟩

end Neoethos
