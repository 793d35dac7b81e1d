import Neoethos.CaptureSession

/-! What the two loops of `capture_quote_pages` retain, whatever the session answers. -/

namespace Neoethos

open Fallible (refuse require)

variable {σ P : Type*}

theorem head_le_getLast_of_strictlyAscending {first last : Int} {times : List Int}
    (h : strictlyAscending times = true) (hf : times.head? = some first)
    (hl : times.getLast? = some last) : first ≤ last := by
  induction times generalizing first with
  | nil => cases hf
  | cons a rest ih =>
    obtain rfl := Option.some.inj hf
    cases rest with
    | nil =>
      obtain rfl := Option.some.inj hl
      exact le_refl a
    | cons b rest =>
      simp only [strictlyAscending, Bool.and_eq_true, decide_eq_true_eq] at h
      rw [List.getLast?_cons_cons] at hl
      exact h.1.le.trans (ih h.2 rfl hl)

/-- A page that was retained under the counter `sequence`. -/
structure RetainedPage (ns : ClientMessageNamespace) (chunkSequence : Nat)
    (chunkWindow : EvidenceWindow) (pageTo : Int) (pageSequence sequence : Nat) (oldest : Int)
    (page : CapturedTickPageRecord P) : Prop where
  chunk : page.chunkSequence = chunkSequence
  index : page.pageSequenceInChunk = pageSequence
  msgId : page.clientMsgId = ns.msgId sequence "ticks"
  counted : sequence + 1 ≤ sequenceMax
  sameChunk : page.requestedChunkWindow = chunkWindow
  lower : page.requestedPageWindow.fromUnixMsInclusive = chunkWindow.fromUnixMsInclusive
  upper : page.requestedPageWindow.toUnixMsExclusive = pageTo
  first : page.ticks.head?.map (·.timestampMs) = some oldest
  within : ∀ tick ∈ page.ticks, chunkWindow.fromUnixMsInclusive ≤ tick.timestampMs ∧
    tick.timestampMs < pageTo
  ascending : strictlyAscending (page.ticks.map (·.timestampMs)) = true

/-- The pages of a chunk from an upper bound down, with the counter before and after. -/
inductive PageChain (ns : ClientMessageNamespace) (chunkSequence : Nat)
    (chunkWindow : EvidenceWindow) :
    Int → Nat → Nat → List (CapturedTickPageRecord P) → Nat → Prop
  | last {pageTo oldest : Int} {pageSequence sequence : Nat} {page : CapturedTickPageRecord P} :
    RetainedPage ns chunkSequence chunkWindow pageTo pageSequence sequence oldest page →
    page.hasMore = false →
    PageChain ns chunkSequence chunkWindow pageTo pageSequence sequence [page] (sequence + 1)
  | older {pageTo oldest : Int} {pageSequence sequence after : Nat}
      {page : CapturedTickPageRecord P} {pages : List (CapturedTickPageRecord P)} :
    RetainedPage ns chunkSequence chunkWindow pageTo pageSequence sequence oldest page →
    page.hasMore = true →
    oldest < pageTo →
    PageChain ns chunkSequence chunkWindow oldest (pageSequence + 1) (sequence + 1) pages after →
    PageChain ns chunkSequence chunkWindow pageTo pageSequence sequence (page :: pages) after

/-- The chunks from an upper bound down to the start of the window. -/
inductive ChunkChain (ns : ClientMessageNamespace) (lower : Int) :
    Int → Nat → Nat → List (EvidenceWindow × List (CapturedTickPageRecord P)) → Prop
  | done {chunkTo : Int} {chunkSequence sequence : Nat} :
    chunkTo ≤ lower → ChunkChain ns lower chunkTo chunkSequence sequence []
  | chunk {chunkTo : Int} {chunkSequence sequence after : Nat} {chunkWindow : EvidenceWindow}
      {pages : List (CapturedTickPageRecord P)}
      {groups : List (EvidenceWindow × List (CapturedTickPageRecord P))} :
    lower ≤ chunkWindow.fromUnixMsInclusive →
    chunkWindow.toUnixMsExclusive = chunkTo →
    chunkTo - chunkWindow.fromUnixMsInclusive ≤ maxTickRequestSpanMs →
    chunkSequence + 1 ≤ sequenceMax →
    PageChain ns chunkSequence chunkWindow chunkTo 0 sequence pages after →
    ChunkChain ns lower chunkWindow.fromUnixMsInclusive (chunkSequence + 1) after groups →
    ChunkChain ns lower chunkTo chunkSequence sequence ((chunkWindow, pages) :: groups)

section Loops

variable {validPrice : P → Bool} {session : TickSession σ P} {ns : ClientMessageNamespace}
  {request : ExactQuoteCaptureRequest}

theorem checkTickPage_ok {window : EvidenceWindow} {decoded : DecodedTickPage P} {oldest : Int}
    (h : checkTickPage validPrice request window decoded = .ok oldest) :
    decoded.ticks.head?.map (·.timestampMs) = some oldest ∧
      (∀ tick ∈ decoded.ticks, window.fromUnixMsInclusive ≤ tick.timestampMs ∧
        tick.timestampMs < window.toUnixMsExclusive) ∧
      strictlyAscending (decoded.ticks.map (·.timestampMs)) = true := by
  unfold checkTickPage at h
  cases hticks : decoded.ticks with
  | nil => simp [hticks] at h
  | cons first rest =>
    rw [hticks] at h
    dsimp only at h
    split at h
    next => cases h
    next =>
      split at h
      next => cases h
      next hgood =>
        obtain rfl := Except.ok.inj h
        simp only [Bool.or_eq_true, List.any_eq_true, decide_eq_true_eq, not_or, not_exists,
          not_and, not_lt, not_le, Bool.not_eq_true', Bool.not_eq_false] at hgood
        exact ⟨rfl, fun tick htick => (hgood.1 tick htick).1, hgood.2⟩

theorem pageChain_of_captureChunkPages {chunkSequence : Nat} {chunkWindow : EvidenceWindow}
    {pageTo : Int} {pageSequence : Nat} {adapter after : CaptureAdapter σ}
    {pages : List (CapturedTickPageRecord P)}
    (h : captureChunkPages validPrice session ns request chunkSequence chunkWindow pageTo
      pageSequence adapter = .ok (pages, after)) :
    PageChain ns chunkSequence chunkWindow pageTo pageSequence adapter.nextClientMessageSequence
      pages after.nextClientMessageSequence := by
  induction hwidth : (pageTo - chunkWindow.fromUnixMsInclusive).toNat using Nat.strongRecOn
    generalizing pageTo pageSequence adapter pages with
  | ind width ih =>
    unfold captureChunkPages at h
    split at h
    next => cases h
    next pageWindow hwindow =>
      obtain ⟨hlower, hupper⟩ := EvidenceWindow.new_ok.mp hwindow
      unfold ClientMessageNamespace.nextClientMsgId at h
      by_cases hcount : sequenceMax < adapter.nextClientMessageSequence + 1
      · simp [hcount] at h
      · rw [if_neg hcount] at h
        dsimp only at h
        split at h
        next => cases h
        next decoded state _ =>
          split at h
          next => cases h
          next oldest hcheck =>
            obtain ⟨hfirst, hwithin, hascending⟩ := checkTickPage_ok hcheck
            rw [hlower, hupper] at hwithin
            split at h
            next hlast =>
              obtain ⟨rfl, rfl⟩ := Prod.mk.inj (Except.ok.inj h)
              exact .last ⟨rfl, rfl, rfl, not_lt.mp hcount, rfl, hlower, hupper, hfirst, hwithin,
                hascending⟩ hlast
            next hmore =>
              split at h
              next => cases h
              next hboundary =>
                split at h
                next => cases h
                next =>
                  obtain ⟨⟨rest, last⟩, hrest, heq⟩ := Fallible.map_ok_iff.mp h
                  obtain ⟨rfl, rfl⟩ := Prod.mk.inj heq
                  have hchain := ih _ (by omega) hrest rfl
                  exact .older ⟨rfl, rfl, rfl, not_lt.mp hcount, rfl, hlower, hupper, hfirst,
                    hwithin, hascending⟩ (by simpa using hmore) (by omega) hchain

theorem chunkChain_of_captureChunks {chunkTo : Int} {chunkSequence : Nat}
    {adapter after : CaptureAdapter σ} {pages : List (CapturedTickPageRecord P)}
    (hrange : 0 ≤ chunkTo ∧ chunkTo ≤ I64.maxValue)
    (h : captureChunks validPrice session ns request chunkTo chunkSequence adapter =
      .ok (pages, after)) :
    ∃ groups, ChunkChain ns request.window.fromUnixMsInclusive chunkTo chunkSequence
        adapter.nextClientMessageSequence groups ∧
      pages = groups.flatMap (·.2) := by
  induction hwidth : (chunkTo - request.window.fromUnixMsInclusive).toNat using Nat.strongRecOn
    generalizing chunkTo chunkSequence adapter pages with
  | ind width ih =>
    unfold captureChunks at h
    by_cases hmore : request.window.fromUnixMsInclusive < chunkTo
    · rw [if_pos hmore] at h
      dsimp only at h
      split at h
      next => cases h
      next chunkWindow hwindow =>
        obtain ⟨hlower, hupper⟩ := EvidenceWindow.new_ok.mp hwindow
        have hnonempty := chunkWindow.nonEmpty
        have hsaturating : I64.saturatingSub chunkTo maxTickRequestSpanMs =
            chunkTo - maxTickRequestSpanMs := by
          refine I64.saturatingSub_of_inRange ?_
          unfold I64.InRange I64.minValue maxTickRequestSpanMs
          omega
        rw [hsaturating] at hlower h
        split at h
        next => cases h
        next chunkPages between hpages =>
          split at h
          next => cases h
          next hcount =>
            obtain ⟨⟨older, last⟩, hrest, heq⟩ := Fallible.map_ok_iff.mp h
            obtain ⟨rfl, rfl⟩ := Prod.mk.inj heq
            rw [← hlower] at hrest
            have hnonneg := chunkWindow.nonNegative
            obtain ⟨groups, hchain, rfl⟩ := ih _ (by omega) (by omega) hrest rfl
            refine ⟨(chunkWindow, chunkPages) :: groups, ?_, rfl⟩
            exact .chunk (by omega) hupper (by omega) (by omega)
              (pageChain_of_captureChunkPages hpages) hchain
    · rw [if_neg hmore] at h
      obtain ⟨rfl, rfl⟩ := Prod.mk.inj (Except.ok.inj h)
      exact ⟨[], .done (not_lt.mp hmore), rfl⟩

end Loops

/-! The retained pages pass the validators of `contracts_v2.rs`. -/

variable {ns : ClientMessageNamespace}

theorem EvidenceWindow.requested_validate (w : EvidenceWindow) : w.requested.validate = .ok () := by
  have hnonneg := w.nonNegative
  have hnonempty := w.nonEmpty
  refine Fallible.refuse_ok_iff.mpr ?_
  unfold EvidenceWindow.requested
  dsimp only
  omega

theorem EvidenceWindow.eq_of_bounds {v w : EvidenceWindow}
    (hlower : v.fromUnixMsInclusive = w.fromUnixMsInclusive)
    (hupper : v.toUnixMsExclusive = w.toUnixMsExclusive) : v = w := by
  cases v
  cases w
  simp only [EvidenceWindow.mk.injEq]
  exact ⟨hlower, hupper⟩

/-- The identifiers met so far carry counters below `sequence`. -/
def IdsBelow (ns : ClientMessageNamespace) (sequence : Nat) (ids : List String) : Prop :=
  ∀ id ∈ ids, ∃ n < sequence, id = ns.msgId n "ticks"

theorem IdsBelow.not_mem {sequence : Nat} {ids : List String} (h : IdsBelow ns sequence ids)
    (hcounted : sequence + 1 ≤ sequenceMax) : ns.msgId sequence "ticks" ∉ ids := by
  intro hmem
  obtain ⟨n, hn, heq⟩ := h _ hmem
  have := ns.msgId_inj (by omega) (by omega) heq
  omega

theorem IdsBelow.cons {sequence : Nat} {ids : List String} (h : IdsBelow ns sequence ids) :
    IdsBelow ns (sequence + 1) (ns.msgId sequence "ticks" :: ids) := by
  intro id hid
  rcases List.mem_cons.mp hid with rfl | hmem
  · exact ⟨sequence, Nat.lt_succ_self _, rfl⟩
  · obtain ⟨n, hn, heq⟩ := h id hmem
    exact ⟨n, Nat.lt_succ_of_lt hn, heq⟩

namespace RetainedPage

variable {chunkSequence pageSequence sequence : Nat} {chunkWindow : EvidenceWindow}
  {pageTo oldest : Int} {page : CapturedTickPageRecord P}

theorem ticks_ne_nil
    (h : RetainedPage ns chunkSequence chunkWindow pageTo pageSequence sequence oldest page) :
    page.ticks ≠ [] := by
  intro hnil
  have hfirst := h.first
  simp [hnil] at hfirst

theorem last_lt
    (h : RetainedPage ns chunkSequence chunkWindow pageTo pageSequence sequence oldest page) :
    ∃ last, page.requestPage.lastEventUnixMs = some last ∧ oldest ≤ last ∧ last < pageTo := by
  have hne := h.ticks_ne_nil
  have hlast := List.getLast?_eq_some_getLast hne
  have hmem := List.getLast_mem hne
  refine ⟨(page.ticks.getLast hne).timestampMs, ?_, ?_, (h.within _ hmem).2⟩
  · unfold CapturedTickPageRecord.requestPage
    rw [hlast]
    rfl
  · refine head_le_getLast_of_strictlyAscending h.ascending ?_ ?_
    · rw [List.head?_map]
      exact h.first
    · rw [List.getLast?_map, hlast]
      rfl

theorem requestPage_validate
    (h : RetainedPage ns chunkSequence chunkWindow pageTo pageSequence sequence oldest page) :
    page.requestPage.validate = .ok () := by
  obtain ⟨htrim, hne, hsize, hcontrol⟩ := ns.tickMsgId_valid sequence
  obtain ⟨last, hlast, hle, hlt⟩ := h.last_lt
  have hid : page.requestPage.clientMsgId = ns.msgId sequence "ticks" := h.msgId
  have holdest : page.requestPage.firstEventUnixMs = some oldest := h.first
  have hcount : 0 < page.requestPage.eventCount := List.length_pos_iff.mpr h.ticks_ne_nil
  have hlower : chunkWindow.fromUnixMsInclusive ≤ oldest := by
    cases hticks : page.ticks with
    | nil => exact absurd hticks h.ticks_ne_nil
    | cons first rest =>
      have hfirst := h.first
      rw [hticks] at hfirst
      obtain rfl := Option.some.inj hfirst
      exact (h.within first (by simp [hticks])).1
  unfold ExactBrokerRequestPage.validate
  rw [Fallible.check_ok_iff, Fallible.check_ok_iff, Fallible.check_ok_iff]
  refine ⟨page.requestedPageWindow.requested_validate, ?_, ?_, ?_⟩
  · rw [Fallible.refuse_ok_iff, hid, htrim]
    simp [hne, hsize, hcontrol]
  · exact Fallible.refuse_ok_iff.mpr (by simp [CapturedTickPageRecord.requestPage])
  · refine Fallible.refuse_ok_iff.mpr ?_
    have hfrom : page.requestPage.requestedWindow.fromUnixMsInclusive =
        chunkWindow.fromUnixMsInclusive := h.lower
    have hto : page.requestPage.requestedWindow.toUnixMsExclusive = pageTo := h.upper
    unfold ExactBrokerRequestPage.hasConsistentBounds
    rw [holdest, hlast]
    cases hc : page.requestPage.eventCount with
    | zero => omega
    | succ n => simp [hfrom, hto, hle, hlt, hlower]

end RetainedPage

namespace PageChain

variable {chunkSequence pageSequence sequence after : Nat} {chunkWindow : EvidenceWindow}
  {pageTo : Int} {pages : List (CapturedTickPageRecord P)}

theorem ne_nil
    (h : PageChain ns chunkSequence chunkWindow pageTo pageSequence sequence pages after) :
    pages ≠ [] := by
  cases h with
  | last => exact List.cons_ne_nil _ _
  | older => exact List.cons_ne_nil _ _

/-- Only the last page of a chunk has no more behind it. -/
theorem getLast_hasMore
    (h : PageChain ns chunkSequence chunkWindow pageTo pageSequence sequence pages after) :
    pages.getLast?.any (·.hasMore) = false := by
  induction h with
  | last hpage hlast => simp [hlast]
  | @older _ _ _ _ _ page rest hpage hmore hlt hrest ih =>
    rw [List.getLast?_cons_of_ne_nil hrest.ne_nil]
    exact ih

/-- The page before the chain in the list of the chunk, or the start of the chunk. -/
def Follows (chunkWindow : EvidenceWindow) (pageTo : Int) :
    Option ExactBrokerRequestPage → Prop
  | none => pageTo = chunkWindow.toUnixMsExclusive
  | some newer => newer.firstEventUnixMs = some pageTo ∧ newer.responseHasMore = true

theorem validateBoundary {chunk : ExactBrokerRequestChunk} {newer : Option ExactBrokerRequestPage}
    {oldest : Int} {page : CapturedTickPageRecord P}
    (hpage : RetainedPage ns chunkSequence chunkWindow pageTo pageSequence sequence oldest page)
    (hwindow : chunk.requestedWindow = chunkWindow.requested)
    (hfollows : Follows chunkWindow pageTo newer) :
    chunk.validateBoundary page.requestPage newer = .ok () := by
  unfold ExactBrokerRequestChunk.validateBoundary
  cases newer with
  | none =>
    refine Fallible.refuse_ok_iff.mpr (not_not.mpr ?_)
    rw [hwindow]
    have hsame := EvidenceWindow.eq_of_bounds hpage.lower (hpage.upper.trans hfollows)
    exact congrArg EvidenceWindow.requested hsame
  | some newer =>
    obtain ⟨hfirst, hmore⟩ := hfollows
    obtain ⟨last, hlast, -, hlt⟩ := hpage.last_lt
    refine Fallible.bind_ok_iff.mpr ⟨pageTo, Fallible.require_ok_iff.mpr hfirst, ?_⟩
    refine Fallible.refuse_ok_iff.mpr ?_
    have hlower : page.requestPage.requestedWindow.fromUnixMsInclusive =
        chunk.requestedWindow.fromUnixMsInclusive := by
      rw [hwindow]
      exact hpage.lower
    have hupper : page.requestPage.requestedWindow.toUnixMsExclusive = pageTo := hpage.upper
    simp [hmore, hlower, hupper, hlast, hlt]

theorem validatePagesFrom
    (h : PageChain ns chunkSequence chunkWindow pageTo pageSequence sequence pages after)
    {chunk : ExactBrokerRequestChunk} (hsequence : chunk.chunkSequence = chunkSequence)
    (hwindow : chunk.requestedWindow = chunkWindow.requested)
    {newer : Option ExactBrokerRequestPage} (hfollows : Follows chunkWindow pageTo newer)
    {ids : List String} (hids : IdsBelow ns sequence ids) :
    chunk.validatePagesFrom pageSequence newer ids (pages.map (·.requestPage)) = .ok () := by
  have hround {pageTo oldest : Int} {pageSequence sequence : Nat}
      {page : CapturedTickPageRecord P} {ids : List String}
      (hpage : RetainedPage ns chunkSequence chunkWindow pageTo pageSequence sequence oldest page)
      (hids : IdsBelow ns sequence ids) :
      ¬(page.requestPage.chunkSequence ≠ chunk.chunkSequence ∨
        page.requestPage.pageSequenceInChunk ≠ pageSequence ∨
        page.requestPage.clientMsgId ∈ ids) := by
    have hk : page.requestPage.chunkSequence = chunk.chunkSequence := hpage.chunk.trans hsequence.symm
    have hi : page.requestPage.pageSequenceInChunk = pageSequence := hpage.index
    have hid : page.requestPage.clientMsgId = ns.msgId sequence "ticks" := hpage.msgId
    have hfresh := hids.not_mem hpage.counted
    rw [hk, hi, hid]
    simp [hfresh]
  induction h generalizing newer ids with
  | last hpage hlast =>
    rw [List.map_cons]
    unfold ExactBrokerRequestChunk.validatePagesFrom
    rw [Fallible.check_ok_iff, Fallible.check_ok_iff, Fallible.check_ok_iff]
    refine ⟨hpage.requestPage_validate, Fallible.refuse_ok_iff.mpr (hround hpage hids),
      validateBoundary hpage hwindow hfollows, rfl⟩
  | @older _ oldest _ _ _ page _ hpage hmore hlt hrest ih =>
    rw [List.map_cons]
    unfold ExactBrokerRequestChunk.validatePagesFrom
    rw [Fallible.check_ok_iff, Fallible.check_ok_iff, Fallible.check_ok_iff]
    refine ⟨hpage.requestPage_validate, Fallible.refuse_ok_iff.mpr (hround hpage hids),
      validateBoundary hpage hwindow hfollows, ?_⟩
    have hid := hids.cons
    rw [← hpage.msgId] at hid
    have hnext : Follows chunkWindow oldest (some page.requestPage) := ⟨hpage.first, hmore⟩
    exact ih hnext hid

def chunkOf (chunkSequence : Nat) (chunkWindow : EvidenceWindow)
    (pages : List (CapturedTickPageRecord P)) : ExactBrokerRequestChunk :=
  ⟨chunkSequence, chunkWindow.requested, pages.map (·.requestPage)⟩

theorem validatePages
    (h : PageChain ns chunkSequence chunkWindow chunkWindow.toUnixMsExclusive 0 sequence pages
      after) :
    (chunkOf chunkSequence chunkWindow pages).validatePages = .ok () := by
  unfold ExactBrokerRequestChunk.validatePages
  rw [Fallible.check_ok_iff, Fallible.check_ok_iff, Fallible.check_ok_iff]
  refine ⟨chunkWindow.requested_validate, Fallible.refuse_ok_iff.mpr ?_, ?_,
    Fallible.refuse_ok_iff.mpr ?_⟩
  · simpa [chunkOf] using h.ne_nil
  · have hstart : Follows chunkWindow chunkWindow.toUnixMsExclusive none := rfl
    exact h.validatePagesFrom rfl rfl hstart (by simp [IdsBelow])
  · have hlast := h.getLast_hasMore
    simp only [chunkOf, List.getLast?_map, Option.any_map,
      CapturedTickPageRecord.requestPage, Bool.not_eq_true]
    exact hlast

theorem insertClientMsgIds_ok
    (h : PageChain ns chunkSequence chunkWindow pageTo pageSequence sequence pages after)
    {ids : List String} (hids : IdsBelow ns sequence ids) :
    ∃ ids', insertClientMsgIds ids (pages.map (·.requestPage)) = .ok ids' ∧
      IdsBelow ns after ids' := by
  induction h generalizing ids with
  | last hpage hlast =>
    have hid := hids.cons
    have hfresh := hids.not_mem hpage.counted
    rw [← hpage.msgId] at hid hfresh
    refine ⟨_, ?_, hid⟩
    rw [List.map_cons, List.map_nil]
    unfold insertClientMsgIds
    exact Fallible.check_ok_iff.mpr ⟨Fallible.refuse_ok_iff.mpr hfresh, rfl⟩
  | older hpage hmore hlt hrest ih =>
    have hid := hids.cons
    have hfresh := hids.not_mem hpage.counted
    rw [← hpage.msgId] at hid hfresh
    obtain ⟨ids', hinsert, hbelow⟩ := ih hid
    refine ⟨ids', ?_, hbelow⟩
    rw [List.map_cons]
    unfold insertClientMsgIds
    exact Fallible.check_ok_iff.mpr ⟨Fallible.refuse_ok_iff.mpr hfresh, hinsert⟩

theorem quoteContract
    (h : PageChain ns chunkSequence chunkWindow pageTo pageSequence sequence pages after) :
    PageContract.quote.validate (chunkOf chunkSequence chunkWindow pages) = .ok () := by
  have hcount : ∀ page ∈ pages, page.ticks ≠ [] := by
    induction h with
    | last hpage hlast => simpa using hpage.ticks_ne_nil
    | older hpage hmore hlt hrest ih =>
      exact List.forall_mem_cons.mpr ⟨hpage.ticks_ne_nil, ih⟩
  refine Fallible.refuse_ok_iff.mpr ?_
  simp only [chunkOf, CapturedTickPageRecord.requestPage, List.any_map, List.any_eq_true,
    Function.comp_apply, Option.isSome_none, Bool.false_or, beq_iff_eq, List.length_eq_zero_iff,
    not_exists, not_and]
  exact hcount

theorem length_le
    (h : PageChain ns chunkSequence chunkWindow pageTo pageSequence sequence pages after) :
    (pages.length : Int) ≤ pageTo - chunkWindow.fromUnixMsInclusive := by
  induction h with
  | @last pageTo oldest _ _ page hpage hlast =>
    have hwindow := page.requestedPageWindow.nonEmpty
    rw [hpage.lower, hpage.upper] at hwindow
    simp only [List.length_singleton]
    omega
  | older hpage hmore hlt hrest ih =>
    simp only [List.length_cons]
    omega

end PageChain

/-- The chunks of the groups, counted from `chunkSequence` on. -/
def chunksFrom (chunkSequence : Nat) :
    List (EvidenceWindow × List (CapturedTickPageRecord P)) → List ExactBrokerRequestChunk
  | [] => []
  | (chunkWindow, pages) :: groups =>
    PageChain.chunkOf chunkSequence chunkWindow pages :: chunksFrom (chunkSequence + 1) groups

namespace ChunkChain

variable {lower chunkTo : Int} {chunkSequence sequence : Nat}
  {groups : List (EvidenceWindow × List (CapturedTickPageRecord P))}

def Follows (completeWindow : EvidenceWindow) (chunkTo : Int) :
    Option ExactBrokerRequestChunk → Prop
  | none => chunkTo = completeWindow.toUnixMsExclusive
  | some newer => newer.requestedWindow.fromUnixMsInclusive = chunkTo

theorem validatePartitionFrom
    (h : ChunkChain ns lower chunkTo chunkSequence sequence groups)
    {completeWindow : EvidenceWindow} {newer : Option ExactBrokerRequestChunk}
    (hfollows : Follows completeWindow chunkTo newer) {ids : List String}
    (hids : IdsBelow ns sequence ids) :
    validatePartitionFrom completeWindow.requested (some maxTickRequestSpanMs) .quote
      chunkSequence newer ids (chunksFrom chunkSequence groups) = .ok () := by
  induction h generalizing newer ids with
  | done => rfl
  | @chunk chunkTo chunkSequence sequence after chunkWindow pages groups hlower hupper hspan hcount
      hpages hrest ih =>
    subst hupper
    obtain ⟨ids', hinsert, hbelow⟩ := hpages.insertClientMsgIds_ok hids
    have hnonneg := chunkWindow.nonNegative
    have hnonempty := chunkWindow.nonEmpty
    have hbounded := chunkWindow.bounded
    unfold chunksFrom
    unfold Neoethos.validatePartitionFrom
    rw [Fallible.check_ok_iff, Fallible.check_ok_iff, Fallible.bind_ok_iff]
    refine ⟨hpages.validatePages, Fallible.refuse_ok_iff.mpr (not_not.mpr rfl), ?_⟩
    refine ⟨chunkWindow.toUnixMsExclusive - chunkWindow.fromUnixMsInclusive, ?_, ?_⟩
    · refine Fallible.require_ok_iff.mpr (I64.checkedSub_eq_some.mpr ⟨?_, rfl⟩)
      unfold I64.InRange I64.minValue PageChain.chunkOf EvidenceWindow.requested
      dsimp only
      omega
    · rw [Fallible.check_ok_iff, Fallible.check_ok_iff, Fallible.bind_ok_iff]
      refine ⟨Fallible.refuse_ok_iff.mpr (by simpa using hspan), hpages.quoteContract, ids',
        hinsert, ?_⟩
      rw [Fallible.check_ok_iff]
      have hnext : Follows completeWindow chunkWindow.fromUnixMsInclusive
        (some (PageChain.chunkOf chunkSequence chunkWindow pages)) := rfl
      refine ⟨?_, ih hnext hbelow⟩
      unfold validateChunkBoundary
      cases newer with
      | none => exact Fallible.refuse_ok_iff.mpr (not_not.mpr hfollows)
      | some newer => exact Fallible.refuse_ok_iff.mpr (not_not.mpr hfollows.symm)

theorem getLast_from (h : ChunkChain ns lower chunkTo chunkSequence sequence groups) :
    ∀ chunk ∈ (chunksFrom chunkSequence groups).getLast?,
      chunk.requestedWindow.fromUnixMsInclusive = lower := by
  induction h with
  | done => simp [chunksFrom]
  | @chunk chunkTo chunkSequence sequence after chunkWindow pages groups hlower hupper hspan hcount
      hpages hrest ih =>
    cases hrest with
    | done hend =>
      intro chunk hchunk
      obtain rfl := Option.some.inj hchunk
      exact le_antisymm hend hlower
    | chunk => exact ih

end ChunkChain

end Neoethos
