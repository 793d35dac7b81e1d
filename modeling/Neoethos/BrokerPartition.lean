import Neoethos.CapturePages
import Neoethos.ReplayContract

/-! The validators of `contracts_v2.rs` for the exact requests behind a captured window. -/

namespace Neoethos

open Fallible (refuse require)

/-- The codes of `BrokerFinancialTruthContractErrorV1` that the validators use. -/
inductive ContractErrorCode
  | invalidWindow
  | invalidArtifact
  | invalidQuoteEvidence
  | missingEvidence
  | duplicateArtifact
  deriving DecidableEq

structure ContractError where
  code : ContractErrorCode
  detail : String
  deriving DecidableEq

/-- An `EvidenceWindowV1` as it was deserialized: two `i64`, nothing checked. -/
structure RequestedWindow where
  fromUnixMsInclusive : Int
  toUnixMsExclusive : Int
  fromRange : I64.InRange fromUnixMsInclusive
  toRange : I64.InRange toUnixMsExclusive
  deriving DecidableEq

def RequestedWindow.validate (w : RequestedWindow) : Except ContractError Unit :=
  refuse (w.fromUnixMsInclusive < 0 ∨ w.toUnixMsExclusive ≤ w.fromUnixMsInclusive)
    ⟨.invalidWindow, s!"invalid half-open evidence window [{w.fromUnixMsInclusive}, {w.toUnixMsExclusive})"⟩

/-- `str::trim`. -/
def trim (text : String) : String :=
  String.ofList ((text.toList.dropWhile isWhiteSpace).reverse.dropWhile isWhiteSpace).reverse

/-- `char::is_control`: the general category `Cc`. -/
def isControl (c : Char) : Bool :=
  c.toNat ≤ 0x1f || (0x7f ≤ c.toNat && c.toNat ≤ 0x9f)

structure ExactBrokerRequestPage where
  chunkSequence : Nat
  pageSequenceInChunk : Nat
  clientMsgId : String
  requestedWindow : RequestedWindow
  firstEventUnixMs : Option Int
  lastEventUnixMs : Option Int
  eventCount : Nat
  responseHasMore : Bool
  maxRows : Option Nat
  deriving DecidableEq

namespace ExactBrokerRequestPage

/-- The pattern match of `ExactBrokerRequestPageV2::validate` on count, bounds and `hasMore`. -/
def hasConsistentBounds (page : ExactBrokerRequestPage) : Bool :=
  match page.eventCount, page.firstEventUnixMs, page.lastEventUnixMs with
  | 0, none, none => !page.responseHasMore
  | count, some first, some last =>
    0 < count && first ≤ last && page.requestedWindow.fromUnixMsInclusive ≤ first &&
      last < page.requestedWindow.toUnixMsExclusive
  | _, _, _ => false

def validate (page : ExactBrokerRequestPage) : Except ContractError Unit := do
  page.requestedWindow.validate
  refuse (trim page.clientMsgId = "" ∨ page.clientMsgId ≠ trim page.clientMsgId ∨
      160 < page.clientMsgId.utf8ByteSize ∨ page.clientMsgId.toList.any isControl)
    ⟨.invalidArtifact, "exact broker request page has an invalid clientMsgId"⟩
  refuse (page.maxRows = some 0)
    ⟨.invalidArtifact, "exact broker request page maxRows must be positive when present"⟩
  refuse (page.hasConsistentBounds = false)
    ⟨.invalidArtifact, "exact broker response page has inconsistent count/bounds/hasMore"⟩

end ExactBrokerRequestPage

structure ExactBrokerRequestChunk where
  chunkSequence : Nat
  requestedWindow : RequestedWindow
  pagesNewestFirst : List ExactBrokerRequestPage
  deriving DecidableEq

namespace ExactBrokerRequestChunk

/-- What a page has to do with the page before it in the list, or with the chunk. -/
def validateBoundary (chunk : ExactBrokerRequestChunk) (page : ExactBrokerRequestPage) :
    Option ExactBrokerRequestPage → Except ContractError Unit
  | none =>
    refuse (page.requestedWindow ≠ chunk.requestedWindow)
      ⟨.invalidWindow, "first page request does not equal its exact broker request chunk"⟩
  | some newer => do
    let boundary ← require newer.firstEventUnixMs
      ⟨.invalidWindow, "an empty response cannot establish an older exclusive page boundary"⟩
    refuse (newer.responseHasMore = false ∨
        page.requestedWindow.fromUnixMsInclusive ≠ chunk.requestedWindow.fromUnixMsInclusive ∨
        page.requestedWindow.toUnixMsExclusive ≠ boundary ∨
        (page.lastEventUnixMs.any fun last => decide (boundary ≤ last)) = true)
      ⟨.invalidWindow, "older page did not use the prior oldest event as an exclusive boundary"⟩

/-- The loop of `validate_pages` at index `pageIndex`, after the page `newer`; `clientMsgIds`
are the identifiers met so far. -/
def validatePagesFrom (chunk : ExactBrokerRequestChunk) (pageIndex : Nat)
    (newer : Option ExactBrokerRequestPage) (clientMsgIds : List String) :
    List ExactBrokerRequestPage → Except ContractError Unit
  | [] => .ok ()
  | page :: older => do
    page.validate
    refuse (page.chunkSequence ≠ chunk.chunkSequence ∨ page.pageSequenceInChunk ≠ pageIndex ∨
        page.clientMsgId ∈ clientMsgIds)
      ⟨.invalidArtifact, "exact broker pages have a changed sequence or duplicate clientMsgId"⟩
    chunk.validateBoundary page newer
    chunk.validatePagesFrom (pageIndex + 1) (some page) (page.clientMsgId :: clientMsgIds) older

def validatePages (chunk : ExactBrokerRequestChunk) : Except ContractError Unit := do
  chunk.requestedWindow.validate
  refuse (chunk.pagesNewestFirst = [])
    ⟨.missingEvidence, "exact broker request chunk contains no retained response page"⟩
  chunk.validatePagesFrom 0 none [] chunk.pagesNewestFirst
  refuse (chunk.pagesNewestFirst.getLast?.any (·.responseHasMore) = true)
    ⟨.missingEvidence, "terminal exact broker response page still reports hasMore=true"⟩

end ExactBrokerRequestChunk

/-- `PageContractV2`. -/
inductive PageContract
  | quote
  | deal

def PageContract.validate (chunk : ExactBrokerRequestChunk) :
    PageContract → Except ContractError Unit
  | .quote =>
    refuse ((chunk.pagesNewestFirst.any fun page => page.maxRows.isSome || page.eventCount == 0) = true)
      ⟨.invalidQuoteEvidence, "quote pages must retain non-empty ticks and no DealList maxRows"⟩
  | .deal =>
    refuse ((chunk.pagesNewestFirst.any fun page => page.maxRows.isNone) = true)
      ⟨.missingEvidence, "DealList pages must retain the exact positive maxRows request"⟩

/-- The inner loop of `validate_partition` over the pages of a chunk. -/
def insertClientMsgIds (clientMsgIds : List String) :
    List ExactBrokerRequestPage → Except ContractError (List String)
  | [] => .ok clientMsgIds
  | page :: older => do
    refuse (page.clientMsgId ∈ clientMsgIds)
      ⟨.duplicateArtifact, "clientMsgId was reused across exact broker request chunks"⟩
    insertClientMsgIds (page.clientMsgId :: clientMsgIds) older

def validateChunkBoundary (completeWindow : RequestedWindow) (chunk : ExactBrokerRequestChunk) :
    Option ExactBrokerRequestChunk → Except ContractError Unit
  | none =>
    refuse (chunk.requestedWindow.toUnixMsExclusive ≠ completeWindow.toUnixMsExclusive)
      ⟨.invalidWindow, "newest exact request chunk does not end at the complete window boundary"⟩
  | some newer =>
    refuse (chunk.requestedWindow.toUnixMsExclusive ≠ newer.requestedWindow.fromUnixMsInclusive)
      ⟨.invalidWindow, "exact request chunks contain a gap or overlap"⟩

section

variable (completeWindow : RequestedWindow) (maximumSpanMs : Option Int)
  (pageContract : PageContract)

/-- The loop of `validate_partition` at index `chunkIndex`, after the chunk `newer`. -/
def validatePartitionFrom (chunkIndex : Nat) (newer : Option ExactBrokerRequestChunk)
    (clientMsgIds : List String) : List ExactBrokerRequestChunk → Except ContractError Unit
  | [] => .ok ()
  | chunk :: older => do
    chunk.validatePages
    refuse (chunk.chunkSequence ≠ chunkIndex)
      ⟨.invalidWindow, "exact broker request chunks are not sequence ordered"⟩
    let span ← require (I64.checkedSub chunk.requestedWindow.toUnixMsExclusive
        chunk.requestedWindow.fromUnixMsInclusive)
      ⟨.invalidWindow, "exact broker request chunk span overflowed"⟩
    refuse ((maximumSpanMs.any fun maximum => decide (maximum < span)) = true)
      ⟨.invalidWindow,
        s!"cTrader tick request chunk span {span} exceeds {maxTickRequestSpanMs} ms"⟩
    pageContract.validate chunk
    let clientMsgIds ← insertClientMsgIds clientMsgIds chunk.pagesNewestFirst
    validateChunkBoundary completeWindow chunk newer
    validatePartitionFrom (chunkIndex + 1) (some chunk) clientMsgIds older

def validatePartition (chunksNewestFirst : List ExactBrokerRequestChunk) :
    Except ContractError Unit := do
  completeWindow.validate
  refuse (chunksNewestFirst = [])
    ⟨.missingEvidence, "exact broker request partition contains no chunks"⟩
  validatePartitionFrom completeWindow maximumSpanMs pageContract 0 none [] chunksNewestFirst
  refuse ((chunksNewestFirst.getLast?.any fun chunk =>
      chunk.requestedWindow.fromUnixMsInclusive != completeWindow.fromUnixMsInclusive) = true)
    ⟨.invalidWindow, "oldest exact request chunk does not begin at the complete window boundary"⟩

end

def validateQuotePartition (completeWindow : RequestedWindow)
    (chunksNewestFirst : List ExactBrokerRequestChunk) : Except ContractError Unit :=
  validatePartition completeWindow (some maxTickRequestSpanMs) .quote chunksNewestFirst

def validateDealPartition (completeWindow : RequestedWindow)
    (chunksNewestFirst : List ExactBrokerRequestChunk) : Except ContractError Unit :=
  validatePartition completeWindow none .deal chunksNewestFirst

end Neoethos
