import Neoethos.PartitionTiling
import Neoethos.TickDecoders

/-! The check of one quote side in `semantic_v2.rs`: the raw pages against the manifest, and the
decoded ticks against the raw pages. -/

namespace Neoethos

open Fallible (refuse require)

/-- The codes of `BrokerFinancialTruthSemanticIngressErrorV2` that the check uses. -/
inductive SemanticIngressErrorCode
  | rawDecodedMismatch
  | invalidRawEnvelope
  deriving DecidableEq

structure SemanticIngressError where
  code : SemanticIngressErrorCode
  detail : String
  deriving DecidableEq

def rawDecodedError (detail : String) : SemanticIngressError := ⟨.rawDecodedMismatch, detail⟩

structure RawTickPageRow where
  chunkSequence : Nat
  pageSequenceInChunk : Nat
  accountId : Int
  symbolId : Int
  quoteSide : Nat
  clientMsgId : String
  chunkFrom : Int
  chunkTo : Int
  pageFrom : Int
  pageTo : Int
  firstTick : Int
  lastTick : Int
  decodedCount : Nat
  hasMore : Nat
  rawResponseJson : String
  deriving DecidableEq

structure DecodedTickRow (P : Type*) where
  chunkSequence : Nat
  pageSequenceInChunk : Nat
  rowSequenceInPage : Nat
  accountId : Int
  symbolId : Int
  quoteSide : Nat
  timestampMs : Int
  price : P
  deriving DecidableEq

structure TickPayload where
  accountId : Int
  hasMore : Bool
  tickData : List TickWireRow
  deriving DecidableEq

structure TickEnvelope where
  clientMsgId : String
  payloadType : Nat
  payload : TickPayload
  deriving DecidableEq

/-- The payload type of the broker's tick response, `CTRADER_TICK_RESPONSE`. -/
def cTraderTickResponse : Nat := 2146

/-- The fields of `ExactQuoteSideEvidenceV2` that the check reads. -/
structure ExactQuoteSideEvidence where
  side : QuoteSide
  symbolId : Int
  requestedWindow : RequestedWindow
  requestChunksNewestFirst : List ExactBrokerRequestChunk
  deriving DecidableEq

def ExactQuoteSideEvidence.pages (quote : ExactQuoteSideEvidence) : List ExactBrokerRequestPage :=
  quote.requestChunksNewestFirst.flatMap (·.pagesNewestFirst)

def quoteSideCode : QuoteSide → Nat
  | .bid => 0
  | .ask => 1

section Check

/- `fromJson` is the JSON reader, `debugText` the text of a string in an error, and the price
conversion also depends on the digits of the symbol. -/
variable {P : Type} [DecidableEq P] (fromJson : String → Except String TickEnvelope)
  (debugText : String → String) (convertPrice : Int → Int → P) (validPrice : P → Bool)
  (quote : ExactQuoteSideEvidence) (accountId : Int)

def parseTickEnvelope (raw : RawTickPageRow) : Except SemanticIngressError TickEnvelope :=
  (fromJson raw.rawResponseJson).mapError fun error =>
    ⟨.invalidRawEnvelope, "raw tick response " ++ debugText raw.clientMsgId ++
      " is not the exact V2 envelope: " ++ error⟩

def decodePage (digits : Int) (rows : List TickWireRow) :
    Except SemanticIngressError (List (DecodedCTraderTick P)) :=
  (decodeTickWire (convertPrice digits) validPrice rows).mapError fun error =>
    rawDecodedError error.detail

/-- The window that the manifest has for the chunk of a raw row, or the least `i64`. -/
def chunkBound (raw : RawTickPageRow) (bound : RequestedWindow → Int) : Int :=
  (quote.requestChunksNewestFirst[raw.chunkSequence]?.map fun chunk =>
    bound chunk.requestedWindow).getD I64.minValue

def DiffersFromManifest (raw : RawTickPageRow) (page : ExactBrokerRequestPage) : Prop :=
  raw.chunkSequence ≠ page.chunkSequence ∨ raw.pageSequenceInChunk ≠ page.pageSequenceInChunk ∨
  raw.accountId ≠ accountId ∨ raw.symbolId ≠ quote.symbolId ∨
  raw.quoteSide ≠ quoteSideCode quote.side ∨ raw.clientMsgId ≠ page.clientMsgId ∨
  raw.chunkFrom ≠ chunkBound quote raw (·.fromUnixMsInclusive) ∨
  raw.chunkTo ≠ chunkBound quote raw (·.toUnixMsExclusive) ∨
  raw.pageFrom ≠ page.requestedWindow.fromUnixMsInclusive ∨
  raw.pageTo ≠ page.requestedWindow.toUnixMsExclusive ∨
  some raw.firstTick ≠ page.firstEventUnixMs ∨ some raw.lastTick ≠ page.lastEventUnixMs ∨
  raw.decodedCount ≠ page.eventCount ∨ decide (raw.hasMore = 1) ≠ page.responseHasMore

instance (raw : RawTickPageRow) (page : ExactBrokerRequestPage) :
    Decidable (DiffersFromManifest quote accountId raw page) :=
  inferInstanceAs (Decidable (_ ∨ _))

/-- A response that is not the one whose metadata the raw row retains. -/
def DiffersFromEnvelope (raw : RawTickPageRow) (wire : TickEnvelope)
    (reconstructed : List (DecodedCTraderTick P)) : Prop :=
  wire.clientMsgId ≠ raw.clientMsgId ∨ wire.payloadType ≠ cTraderTickResponse ∨
  wire.payload.accountId ≠ accountId ∨ wire.payload.hasMore ≠ decide (raw.hasMore = 1) ∨
  reconstructed.length ≠ raw.decodedCount ∨
  reconstructed.head?.map (·.timestampMs) ≠ some raw.firstTick ∨
  reconstructed.getLast?.map (·.timestampMs) ≠ some raw.lastTick

instance (raw : RawTickPageRow) (wire : TickEnvelope) (reconstructed : List (DecodedCTraderTick P)) :
    Decidable (DiffersFromEnvelope accountId raw wire reconstructed) :=
  inferInstanceAs (Decidable (_ ∨ _))

/-- The decoded rows of one page against its replay, from row `rowIndex` on. -/
def checkPageRows (raw : RawTickPageRow) (rowIndex : Nat) :
    List (DecodedTickRow P × DecodedCTraderTick P) → Except SemanticIngressError Unit
  | [] => .ok ()
  | (decoded, tick) :: rest => do
    refuse (decoded.chunkSequence ≠ raw.chunkSequence ∨
        decoded.pageSequenceInChunk ≠ raw.pageSequenceInChunk ∨
        decoded.rowSequenceInPage ≠ rowIndex ∨ decoded.accountId ≠ accountId ∨
        decoded.symbolId ≠ quote.symbolId ∨ decoded.quoteSide ≠ quoteSideCode quote.side ∨
        decoded.timestampMs ≠ tick.timestampMs ∨ decoded.price ≠ tick.price)
      (rawDecodedError "decoded tick row differs from exact raw cTrader delta replay")
    checkPageRows raw (rowIndex + 1) rest

/-- The page loop; every page takes its rows off the end of what remains of the table. -/
def consumePages (decodedRows : List (DecodedTickRow P)) (digits : Int) (remainingDecoded : Nat) :
    List (RawTickPageRow × ExactBrokerRequestPage) → Except SemanticIngressError Nat
  | [] => .ok remainingDecoded
  | (raw, page) :: rest => do
    refuse (DiffersFromManifest quote accountId raw page)
      (rawDecodedError "raw quote-page table differs from exact request/page manifest")
    let wire ← parseTickEnvelope fromJson debugText raw
    let reconstructed ← decodePage convertPrice validPrice digits wire.payload.tickData
    refuse (DiffersFromEnvelope accountId raw wire reconstructed)
      (rawDecodedError "raw cTrader tick envelope differs from retained page metadata")
    refuse (remainingDecoded < reconstructed.length)
      (rawDecodedError "decoded tick table is shorter than its exact raw pages")
    let pageStart := remainingDecoded - reconstructed.length
    checkPageRows quote accountId raw 0
      (((decodedRows.drop pageStart).take (remainingDecoded - pageStart)).zip reconstructed)
    consumePages decodedRows digits pageStart rest

/-- `validate_quote_side`, on the two tables of the side and the digits of its symbol. -/
def validateQuoteSide (rawRows : List RawTickPageRow) (decodedRows : List (DecodedTickRow P))
    (symbolDigits : Option Int) : Except SemanticIngressError Unit := do
  let digits ← require symbolDigits
    (rawDecodedError ("quote symbol " ++ toString quote.symbolId ++ " has no exact full-symbol digits"))
  refuse (rawRows.length ≠ quote.pages.length)
    (rawDecodedError "raw quote-page rows do not equal exact manifest pages")
  let remainingDecoded ← consumePages fromJson debugText convertPrice validPrice quote accountId
    decodedRows digits decodedRows.length (rawRows.zip quote.pages)
  refuse (remainingDecoded ≠ 0 ∨ ¬decodedRows.IsChain fun a b => a.timestampMs < b.timestampMs)
    (rawDecodedError "decoded quote rows contain unbound or non-ascending ticks")

end Check

end Neoethos
