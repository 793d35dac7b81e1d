import Mathlib.Algebra.Order.Ring.Nat
import Neoethos.I64
import Neoethos.Pagination
import Neoethos.TickDelta

namespace Neoethos

/-- `u64::MAX`, the bound of the chunk and page sequences. -/
def sequenceMax : Nat := 2 ^ 64 - 1

/-- `MAX_CTRADER_TICK_REQUEST_SPAN_MS_V2`: seven days. -/
def maxTickRequestSpanMs : Int := 7 * 24 * 60 * 60 * 1000

/-- An error of the capture adapter: a text, the error of a window or of the delta
decoder, or a text put in front of a cause. -/
inductive CaptureError (P : Type*)
  | bail (message : String)
  | badWindow (lower upper : Int)
  | badDeltas (cause : CTraderTickDeltaError P)
  | context (message : String) (cause : CaptureError P)
  deriving DecidableEq

structure CapturedPage (β : Type*) where
  pageSequence : Nat
  requestedWindow : EvidenceWindow
  items : List β
  hasMore : Bool

/-- The two page loops differ in how a page is fetched and checked and in their texts. -/
structure PageSource (β E : Type*) where
  timestamp : β → Int
  fetch : EvidenceWindow → Except E (List β × Bool)
  badWindow : Int → Int → E
  lostBoundary : E
  noOlderBoundary : E
  sequenceOverflow : E

/-- Request pages of `[lower, pageTo)` until one has `hasMore` unset; the oldest timestamp
of a page is the exclusive upper bound of the next request. -/
def PageSource.capture {β E : Type*} (source : PageSource β E) (lower pageTo : Int)
    (pageSequence : Nat) : Except E (List (CapturedPage β)) :=
  match EvidenceWindow.new lower pageTo with
  | .error (f, t) => .error (source.badWindow f t)
  | .ok window =>
    match source.fetch window with
    | .error e => .error e
    | .ok (items, hasMore) =>
      let page := ⟨pageSequence, window, items, hasMore⟩
      if hasMore = false then .ok [page]
      else match items.head? with
        | none => .error source.lostBoundary
        | some oldest =>
          if source.timestamp oldest ≤ lower ∨ pageTo ≤ source.timestamp oldest then
            .error source.noOlderBoundary
          else if sequenceMax < pageSequence + 1 then .error source.sequenceOverflow
          else (source.capture lower (source.timestamp oldest) (pageSequence + 1)).map (page :: ·)
termination_by (pageTo - lower).toNat
decreasing_by omega

structure BrokerTick where
  timestamp : Int
  rawPrice : Int
  timestampRange : I64.InRange timestamp
  priceRange : I64.InRange rawPrice

/-- A broker that holds a chronological log, in which several entries may share one
millisecond, and answers a request with the newest `pageLimit` entries of its range. -/
structure HonestBroker (α : Type*) (timestamp : α → Int) where
  log : List α
  chronological : Pagination.Sorted timestamp log
  pageLimit : Nat
  positive : 0 < pageLimit

namespace HonestBroker

variable {α : Type*} {timestamp : α → Int}

/-- The entries from `lower` up to, but not including, `upper`. -/
def range (broker : HonestBroker α timestamp) (lower upper : Int) : List α :=
  broker.log.filter fun x => lower ≤ timestamp x ∧ timestamp x < upper

def page (broker : HonestBroker α timestamp) (window : EvidenceWindow) : List α :=
  Pagination.newest broker.pageLimit
    (broker.range window.fromUnixMsInclusive window.toUnixMsExclusive)

def hasMore (broker : HonestBroker α timestamp) (window : EvidenceWindow) : Bool :=
  broker.pageLimit < (broker.range window.fromUnixMsInclusive window.toUnixMsExclusive).length

end HonestBroker

/-- The wire form of a newest-first page: the first row absolute, then signed deltas. -/
def deltaRows : Option BrokerTick → List BrokerTick → List TickWireRow
  | _, [] => []
  | none, tick :: rest => ⟨tick.timestamp, tick.rawPrice⟩ :: deltaRows (some tick) rest
  | some newer, tick :: rest =>
    ⟨tick.timestamp - newer.timestamp, tick.rawPrice - newer.rawPrice⟩ :: deltaRows (some tick) rest

section Ticks

variable {P : Type*} (convertPrice : Int → P) (validPrice : P → Bool)

/-- `parse_tick_data_response` of the broker's answer. -/
def parseTickDataResponse (tickData : List TickWireRow) (hasMore : Bool) :
    Except (CaptureError P) (List (DecodedCTraderTick P)) :=
  if hasMore = true ∧ tickData = [] then
    .error (.bail "empty cTrader tick page cannot have hasMore=true")
  else match captureTicks convertPrice validPrice tickData with
    | .error cause =>
      .error (.context "failed to decode cTrader signed tick deltas" (.badDeltas cause))
    | .ok ticks => .ok ticks

/-- One exchange of `capture_quote_pages`, up to the check of the decoded page. -/
def fetchTickPage (broker : HonestBroker BrokerTick BrokerTick.timestamp)
    (window : EvidenceWindow) :
    Except (CaptureError P) (List (DecodedCTraderTick P) × Bool) :=
  let hasMore := broker.hasMore window
  match parseTickDataResponse convertPrice validPrice
      (deltaRows none (broker.page window).reverse) hasMore with
  | .error e => .error (.context "failed to decode exact cTrader tick page" e)
  | .ok ticks =>
    if ticks.isEmpty then
      .error (.bail "exact cTrader tick page omitted requested symbol ticks")
    else if (ticks.any fun tick => tick.timestampMs < window.fromUnixMsInclusive ||
          window.toUnixMsExclusive ≤ tick.timestampMs || !validPrice tick.price) ||
        !strictlyAscending (ticks.map (·.timestampMs)) then
      .error (.bail "decoded cTrader tick page is out of bounds or not strictly ascending")
    else .ok (ticks, hasMore)

def tickPageSource (broker : HonestBroker BrokerTick BrokerTick.timestamp) :
    PageSource (DecodedCTraderTick P) (CaptureError P) where
  timestamp := DecodedCTraderTick.timestampMs
  fetch := fetchTickPage convertPrice validPrice broker
  badWindow f t := .context "failed to form exact cTrader tick page window" (.badWindow f t)
  lostBoundary := .bail "cTrader tick page lost its pagination boundary"
  noOlderBoundary :=
    .bail "cTrader tick hasMore page has no strictly older exclusive pagination boundary"
  sequenceOverflow := .bail "cTrader tick page sequence overflow"

structure CapturedTickPage (P : Type*) where
  chunkSequence : Nat
  requestedChunkWindow : EvidenceWindow
  page : CapturedPage (DecodedCTraderTick P)

def captureTickChunks (broker : HonestBroker BrokerTick BrokerTick.timestamp) (lower chunkTo : Int)
    (chunkSequence : Nat) : Except (CaptureError P) (List (CapturedTickPage P)) :=
  if lower < chunkTo then
    let chunkFrom := max lower (I64.saturatingSub chunkTo maxTickRequestSpanMs)
    match _h : EvidenceWindow.new chunkFrom chunkTo with
    | .error (f, t) =>
      .error (.context "failed to form exact <=7-day cTrader tick chunk" (.badWindow f t))
    | .ok chunkWindow =>
      match (tickPageSource convertPrice validPrice broker).capture chunkFrom chunkTo 0 with
      | .error e => .error e
      | .ok pages =>
        if sequenceMax < chunkSequence + 1 then
          .error (.bail "cTrader tick chunk sequence overflow")
        else (captureTickChunks broker lower chunkFrom (chunkSequence + 1)).map
          (pages.map (CapturedTickPage.mk chunkSequence chunkWindow) ++ ·)
  else .ok []
termination_by (chunkTo - lower).toNat
decreasing_by
  have hw := EvidenceWindow.new_ok.mp _h
  have := chunkWindow.nonEmpty
  omega

/-- `capture_quote_pages` against an honest broker, the pages newest first. -/
def captureQuotePages (broker : HonestBroker BrokerTick BrokerTick.timestamp)
    (window : EvidenceWindow) : Except (CaptureError P) (List (CapturedTickPage P)) :=
  captureTickChunks convertPrice validPrice broker window.fromUnixMsInclusive
    window.toUnixMsExclusive 0

end Ticks

section Deals

variable {D : Type*} {executionTimestamp : D → Int}

/-- One exchange of the deal loop; the deals of a page come in ascending order. -/
def fetchDealPage (broker : HonestBroker D executionTimestamp) (window : EvidenceWindow) :
    Except (CaptureError Empty) (List D × Bool) :=
  let hasMore := broker.hasMore window
  let deals := broker.page window
  if hasMore = true ∧ deals = [] then
    .error (.bail "cTrader DealList hasMore response contains no pagination boundary")
  else if (deals.any fun deal => executionTimestamp deal < window.fromUnixMsInclusive ||
        window.toUnixMsExclusive ≤ executionTimestamp deal) ||
      !strictlyAscending (deals.map executionTimestamp) then
    .error (.bail "raw cTrader DealList timestamps are out of bounds or not ascending")
  else .ok (deals, hasMore)

def dealPageSource (broker : HonestBroker D executionTimestamp) :
    PageSource D (CaptureError Empty) where
  timestamp := executionTimestamp
  fetch := fetchDealPage broker
  badWindow f t := .context "failed to form exact cTrader DealList page window" (.badWindow f t)
  lostBoundary := .bail "cTrader DealList hasMore page omitted oldest boundary"
  noOlderBoundary :=
    .bail "cTrader DealList hasMore page has no strictly older exclusive pagination boundary"
  sequenceOverflow := .bail "cTrader DealList page sequence overflow"

/-- The page loop of `capture_exact_close_deals`, the pages newest first. -/
def captureExactCloseDeals (broker : HonestBroker D executionTimestamp) (window : EvidenceWindow) :
    Except (CaptureError Empty) (List (CapturedPage D)) :=
  (dealPageSource broker).capture window.fromUnixMsInclusive window.toUnixMsExclusive 0

end Deals

end Neoethos
