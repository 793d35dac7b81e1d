import Neoethos.ClientMessage

/-! `capture_quote_pages` over a session that may answer anything. -/

namespace Neoethos

/-- `ExactQuoteCaptureRequestV2`. -/
structure ExactQuoteCaptureRequest where
  accountId : Int
  symbolId : Int
  side : QuoteSide
  window : EvidenceWindow

structure TickDataRequest where
  accountId : Int
  symbolId : Int
  side : QuoteSide
  fromUnixMs : Int
  toUnixMs : Int
  clientMsgId : String

/-- What `parse_tick_data_response` makes of an answer. -/
structure DecodedTickPage (P : Type*) where
  symbolId : Int
  ticks : List (DecodedCTraderTick P)
  hasMore : Bool

/-- A session: an exchange, with the parser after it, either fails or gives some decoded page,
and what it gives may depend on everything that was exchanged before. -/
structure TickSession (σ P : Type*) where
  exchange : σ → TickDataRequest → Except (CaptureError P) (DecodedTickPage P × σ)

/-- `CapturedTickPageV2` without the raw text. -/
structure CapturedTickPageRecord (P : Type*) where
  accountId : Int
  symbolId : Int
  side : QuoteSide
  chunkSequence : Nat
  pageSequenceInChunk : Nat
  clientMsgId : String
  requestedChunkWindow : EvidenceWindow
  requestedPageWindow : EvidenceWindow
  ticks : List (DecodedCTraderTick P)
  hasMore : Bool

/-- The adapter as far as the capture changes it. -/
structure CaptureAdapter (σ : Type*) where
  nextClientMessageSequence : Nat
  session : σ

section Capture

variable {σ P : Type*} (validPrice : P → Bool) (session : TickSession σ P)
  (ns : ClientMessageNamespace) (request : ExactQuoteCaptureRequest)

/-- The checks of a decoded page; the value is the oldest timestamp. -/
def checkTickPage (window : EvidenceWindow) (decoded : DecodedTickPage P) :
    Except (CaptureError P) Int :=
  match decoded.ticks with
  | [] => .error (.bail "exact cTrader tick page omitted requested symbol ticks")
  | oldest :: _ =>
    if decoded.symbolId ≠ request.symbolId then
      .error (.bail "exact cTrader tick page omitted requested symbol ticks")
    else if (decoded.ticks.any fun tick => tick.timestampMs < window.fromUnixMsInclusive ||
          window.toUnixMsExclusive ≤ tick.timestampMs || !validPrice tick.price) ||
        !strictlyAscending (decoded.ticks.map (·.timestampMs)) then
      .error (.bail "decoded cTrader tick page is out of bounds or not strictly ascending")
    else .ok oldest.timestampMs

def captureChunkPages (chunkSequence : Nat) (chunkWindow : EvidenceWindow) (pageTo : Int)
    (pageSequence : Nat) (adapter : CaptureAdapter σ) :
    Except (CaptureError P) (List (CapturedTickPageRecord P) × CaptureAdapter σ) :=
  match EvidenceWindow.new chunkWindow.fromUnixMsInclusive pageTo with
  | .error (f, t) =>
    .error (.context "failed to form exact cTrader tick page window" (.badWindow f t))
  | .ok pageWindow =>
    match ns.nextClientMsgId adapter.nextClientMessageSequence "ticks" with
    | .error e => .error e
    | .ok (clientMsgId, sequence) =>
      match session.exchange adapter.session ⟨request.accountId, request.symbolId, request.side,
          pageWindow.fromUnixMsInclusive, pageWindow.toUnixMsExclusive, clientMsgId⟩ with
      | .error e => .error e
      | .ok (decoded, state) =>
        match checkTickPage validPrice request pageWindow decoded with
        | .error e => .error e
        | .ok oldest =>
          let page : CapturedTickPageRecord P := ⟨request.accountId, request.symbolId,
            request.side, chunkSequence, pageSequence, clientMsgId, chunkWindow, pageWindow,
            decoded.ticks, decoded.hasMore⟩
          if decoded.hasMore = false then .ok ([page], ⟨sequence, state⟩)
          else if oldest ≤ chunkWindow.fromUnixMsInclusive ∨ pageTo ≤ oldest then
            .error (.bail
              "cTrader tick hasMore page has no strictly older exclusive pagination boundary")
          else if sequenceMax < pageSequence + 1 then
            .error (.bail "cTrader tick page sequence overflow")
          else (captureChunkPages chunkSequence chunkWindow oldest (pageSequence + 1)
            ⟨sequence, state⟩).map fun (pages, adapter) => (page :: pages, adapter)
termination_by (pageTo - chunkWindow.fromUnixMsInclusive).toNat
decreasing_by omega

/-- The outer loop: the chunks of at most seven days, newest first. -/
def captureChunks (chunkTo : Int) (chunkSequence : Nat) (adapter : CaptureAdapter σ) :
    Except (CaptureError P) (List (CapturedTickPageRecord P) × CaptureAdapter σ) :=
  if request.window.fromUnixMsInclusive < chunkTo then
    let chunkFrom := max request.window.fromUnixMsInclusive
      (I64.saturatingSub chunkTo maxTickRequestSpanMs)
    match _h : EvidenceWindow.new chunkFrom chunkTo with
    | .error (f, t) =>
      .error (.context "failed to form exact <=7-day cTrader tick chunk" (.badWindow f t))
    | .ok chunkWindow =>
      match captureChunkPages validPrice session ns request chunkSequence chunkWindow chunkTo 0
          adapter with
      | .error e => .error e
      | .ok (pages, adapter) =>
        if sequenceMax < chunkSequence + 1 then
          .error (.bail "cTrader tick chunk sequence overflow")
        else (captureChunks chunkFrom (chunkSequence + 1) adapter).map
          fun (older, adapter) => (pages ++ older, adapter)
  else .ok ([], adapter)
termination_by (chunkTo - request.window.fromUnixMsInclusive).toNat
decreasing_by
  have hw := EvidenceWindow.new_ok.mp _h
  have := chunkWindow.nonEmpty
  omega

/-- `capture_quote_pages` once the instrument is known, the pages newest first. -/
def captureSessionQuotePages (adapter : CaptureAdapter σ) :
    Except (CaptureError P) (List (CapturedTickPageRecord P) × CaptureAdapter σ) :=
  captureChunks validPrice session ns request request.window.toUnixMsExclusive 0 adapter

end Capture

section Grouping

variable {P : Type*}

def EvidenceWindow.requested (w : EvidenceWindow) : RequestedWindow where
  fromUnixMsInclusive := w.fromUnixMsInclusive
  toUnixMsExclusive := w.toUnixMsExclusive
  fromRange := by
    have := w.nonNegative
    have := w.nonEmpty
    have := w.bounded
    unfold I64.InRange I64.minValue
    unfold I64.maxValue at *
    omega
  toRange := by
    have := w.nonNegative
    have := w.nonEmpty
    have := w.bounded
    unfold I64.InRange I64.minValue
    unfold I64.maxValue at *
    omega

/-- The page contract that `validate_quote_side_v2` forms of a captured page. -/
def CapturedTickPageRecord.requestPage (page : CapturedTickPageRecord P) :
    ExactBrokerRequestPage where
  chunkSequence := page.chunkSequence
  pageSequenceInChunk := page.pageSequenceInChunk
  clientMsgId := page.clientMsgId
  requestedWindow := page.requestedPageWindow.requested
  firstEventUnixMs := page.ticks.head?.map (·.timestampMs)
  lastEventUnixMs := page.ticks.getLast?.map (·.timestampMs)
  eventCount := page.ticks.length
  responseHasMore := page.hasMore
  maxRows := none

/-- `ExactBrokerRequestChunkV2::new`. -/
def ExactBrokerRequestChunk.new (chunkSequence : Nat) (requestedWindow : RequestedWindow)
    (pagesNewestFirst : List ExactBrokerRequestPage) :
    Except ContractError ExactBrokerRequestChunk := do
  let chunk := ⟨chunkSequence, requestedWindow, pagesNewestFirst⟩
  chunk.validatePages
  .ok chunk

inductive QuoteGroupingError
  | invalidQuotePage (detail : String)
  | missingQuotePages (detail : String)
  | contract (cause : ContractError)
  deriving DecidableEq

/-- The grouping in the loop of `validate_quote_side_v2`. -/
def groupPagesFrom (currentChunk : Nat) (currentChunkWindow : EvidenceWindow)
    (chunkPages : List ExactBrokerRequestPage) :
    List (CapturedTickPageRecord P) → Except QuoteGroupingError (List ExactBrokerRequestChunk)
  | [] => do
    let chunk ← (ExactBrokerRequestChunk.new currentChunk currentChunkWindow.requested
      chunkPages).mapError .contract
    .ok [chunk]
  | page :: older => do
    Fallible.refuse (page.chunkSequence < currentChunk ∨
        min sequenceMax (currentChunk + 1) < page.chunkSequence)
      (.invalidQuotePage "V2 quote chunks are not contiguous newest-first sequences")
    if page.chunkSequence = currentChunk then
      Fallible.refuse (page.pageSequenceInChunk ≠ chunkPages.length ∨
          page.requestedChunkWindow ≠ currentChunkWindow)
        (.invalidQuotePage "V2 quote page sequence or exact chunk window changed")
      page.requestPage.validate.mapError .contract
      groupPagesFrom currentChunk currentChunkWindow (chunkPages ++ [page.requestPage]) older
    else
      let chunk ← (ExactBrokerRequestChunk.new currentChunk currentChunkWindow.requested
        chunkPages).mapError .contract
      Fallible.refuse (page.pageSequenceInChunk ≠ 0)
        (.invalidQuotePage "V2 quote page sequence or exact chunk window changed")
      page.requestPage.validate.mapError .contract
      let chunks ← groupPagesFrom page.chunkSequence page.requestedChunkWindow
        [page.requestPage] older
      .ok (chunk :: chunks)

def groupPages : List (CapturedTickPageRecord P) →
    Except QuoteGroupingError (List ExactBrokerRequestChunk)
  | [] => .error (.missingQuotePages "V2 quote capture returned no exact request pages")
  | page :: older => groupPagesFrom 0 page.requestedChunkWindow [] (page :: older)

end Grouping

end Neoethos
