import Neoethos.CaptureTicks

namespace Neoethos

open Pagination

theorem dealPageSource_serves {D : Type*} {executionTimestamp : D → Int}
    (broker : HonestBroker D executionTimestamp) :
    (dealPageSource broker).Serves broker id False (fun _ => True) where
  timestamp_out _ := rfl
  fetch w items more := by
    have inBounds : ((broker.page w).any fun deal => executionTimestamp deal <
        w.fromUnixMsInclusive || w.toUnixMsExclusive ≤ executionTimestamp deal) = false := by
      apply List.any_eq_false.mpr
      intro deal hd
      have := HonestBroker.page_bounds hd
      simp only [Bool.or_eq_true, decide_eq_true_eq]
      omega
    have boundary : ¬(broker.hasMore w = true ∧ broker.page w = []) :=
      fun ⟨h, empty⟩ => HonestBroker.page_ne_nil h empty
    simp only [dealPageSource, fetchDealPage, if_neg boundary, inBounds, Bool.false_or,
      Bool.not_eq_true', List.map_id, false_implies, true_and, implies_true, and_true]
    cases ascending : strictlyAscending ((broker.page w).map executionTimestamp) with
    | false =>
      have := strictlyAscending_map.not.mp (by simpa using ascending)
      simp [this]
    | true =>
      have := strictlyAscending_map.mp ascending
      simp [this, eq_comm]

theorem captureExactCloseDeals_spec {D : Type*} {executionTimestamp : D → Int}
    (broker : HonestBroker D executionTimestamp) (window : EvidenceWindow) :
    ((∃ pages, captureExactCloseDeals broker window = .ok pages) ↔
        Captures broker False (fun _ => True) window.fromUnixMsInclusive
          window.toUnixMsExclusive) ∧
      ∀ pages, captureExactCloseDeals broker window = .ok pages →
        pages.reverse.flatMap (·.items) = (lastOfEach executionTimestamp
          (broker.range window.fromUnixMsInclusive window.toUnixMsExclusive)).map id := by
  have room : 0 + (window.toUnixMsExclusive - window.fromUnixMsInclusive).toNat ≤ sequenceMax := by
    have := window.bounded
    have := window.nonNegative
    unfold I64.maxValue at *
    unfold sequenceMax
    omega
  exact capture_spec (dealPageSource_serves broker) window.nonNegative window.nonEmpty
    window.bounded room

/-- A capture of a range that keeps the newest entry of each timestamp is complete exactly
when it fails or no timestamp is repeated. -/
theorem complete_iff {α β γ E : Type*} {timestamp : α → Int} {broker : HonestBroker α timestamp}
    {lower upper : Int} {result : Except E (List γ)} {items : List γ → List β} {out : α → β}
    {Succeeds : Prop} (succeeds : (∃ pages, result = .ok pages) ↔ Succeeds)
    (newestOnly : ∀ pages, result = .ok pages →
      items pages = (lastOfEach timestamp (broker.range lower upper)).map out) :
    (∀ pages, result = .ok pages → items pages = (broker.range lower upper).map out) ↔
      ¬((∃ t, lower ≤ t ∧ t < upper ∧ Repeats timestamp broker.log t) ∧ Succeeds) := by
  have sorted := broker.range_sorted lower upper
  constructor
  · rintro complete ⟨⟨t, hl, hu, ht⟩, hs⟩
    obtain ⟨pages, hp⟩ := succeeds.mpr hs
    have hlength : (lastOfEach timestamp (broker.range lower upper)).length =
        (broker.range lower upper).length := by
      have := congrArg List.length ((newestOnly pages hp).symm.trans (complete pages hp))
      simpa using this
    have hsub : (lastOfEach timestamp (broker.range lower upper)).Sublist
        (broker.range lower upper) := lastOfEach_sublist _
    have heq := hsub.eq_of_length hlength
    exact (lastOfEach_eq_iff sorted).mp heq t (HonestBroker.repeats_range.mpr ⟨hl, hu, ht⟩)
  · intro h pages hp
    have hs := succeeds.mp ⟨pages, hp⟩
    have noRepeats : ∀ t, ¬Repeats timestamp (broker.range lower upper) t := by
      intro t ht
      exact h ⟨⟨t, HonestBroker.repeats_range.mp ht⟩, hs⟩
    rw [newestOnly pages hp, (lastOfEach_eq_iff sorted).mpr noRepeats]

/-- No check of the quote capture sees the cuts in this window: every chunk of seven days
has ticks, a repeated timestamp of a chunk is where a page of `pageLimit` different
timestamps ends and not the oldest one of the chunk, and the newest tick of each
timestamp has a valid price. -/
def TickCutsUnseen {P : Type*} (convertPrice : Int → P) (validPrice : P → Bool)
    (broker : HonestBroker BrokerTick BrokerTick.timestamp) (window : EvidenceWindow) : Prop :=
  ∀ i : Nat, window.fromUnixMsInclusive < window.toUnixMsExclusive - i * maxTickRequestSpanMs →
    let chunk := broker.range
      (max window.fromUnixMsInclusive (window.toUnixMsExclusive - (i + 1) * maxTickRequestSpanMs))
      (window.toUnixMsExclusive - i * maxTickRequestSpanMs)
    chunk ≠ [] ∧
      SafeCuts BrokerTick.timestamp broker.pageLimit
        (fun t => ∃ older ∈ chunk, older.timestamp < t) chunk ∧
      ∀ tick ∈ lastOfEach BrokerTick.timestamp chunk, tick.Valid convertPrice validPrice

/-- The deal capture has no chunks and takes an empty last page, so a cut timestamp only
has to be above the start of the window. -/
def DealCutsUnseen {D : Type*} {executionTimestamp : D → Int}
    (broker : HonestBroker D executionTimestamp) (window : EvidenceWindow) : Prop :=
  SafeCuts executionTimestamp broker.pageLimit (fun t => window.fromUnixMsInclusive < t)
    (broker.range window.fromUnixMsInclusive window.toUnixMsExclusive)

theorem captures_ticks_iff {P : Type*} {convertPrice : Int → P} {validPrice : P → Bool}
    {broker : HonestBroker BrokerTick BrokerTick.timestamp} {lower upper : Int} :
    Captures broker True (BrokerTick.Valid convertPrice validPrice) lower upper ↔
      broker.range lower upper ≠ [] ∧
        SafeCuts BrokerTick.timestamp broker.pageLimit
          (fun t => ∃ older ∈ broker.range lower upper, older.timestamp < t)
          (broker.range lower upper) ∧
        ∀ tick ∈ lastOfEach BrokerTick.timestamp (broker.range lower upper),
          tick.Valid convertPrice validPrice := by
  constructor
  · rintro ⟨cuts, hv, entries⟩
    refine ⟨entries trivial, ?_, hv⟩
    intro t ht
    obtain ⟨hdvd, _, hside⟩ := cuts t ht
    obtain ⟨older, hm, hlow, hlt⟩ := hside trivial
    have hu := (HonestBroker.repeats_range.mp ht).2.1
    exact ⟨hdvd, older, HonestBroker.mem_range.mpr ⟨hm, hlow, by omega⟩, hlt⟩
  · rintro ⟨entries, cuts, hv⟩
    refine ⟨?_, hv, fun _ => entries⟩
    intro t ht
    obtain ⟨hdvd, older, hm, hlt⟩ := cuts t ht
    obtain ⟨hlog, hlow, _⟩ := HonestBroker.mem_range.mp hm
    exact ⟨hdvd, by omega, fun _ => ⟨older, hlog, hlow, hlt⟩⟩

theorem captureQuotePages_spec {P : Type*} (convertPrice : Int → P) (validPrice : P → Bool)
    (broker : HonestBroker BrokerTick BrokerTick.timestamp) (window : EvidenceWindow) :
    ((∃ pages, captureQuotePages convertPrice validPrice broker window = .ok pages) ↔
        TickCutsUnseen convertPrice validPrice broker window) ∧
      ∀ pages, captureQuotePages convertPrice validPrice broker window = .ok pages →
        pages.reverse.flatMap (·.page.items) = (lastOfEach BrokerTick.timestamp
          (broker.range window.fromUnixMsInclusive window.toUnixMsExclusive)).map
            (BrokerTick.captured convertPrice) := by
  have room : 0 + (window.toUnixMsExclusive - window.fromUnixMsInclusive).toNat ≤ sequenceMax := by
    have := window.bounded
    have := window.nonNegative
    unfold I64.maxValue at *
    unfold sequenceMax
    omega
  have spec := @captureTickChunks_spec P convertPrice validPrice broker _ _ 0 window.nonNegative
    (Int.le_of_lt window.nonEmpty) window.bounded room
  simp only [captures_ticks_iff] at spec
  exact spec

theorem captures_deals_iff {D : Type*} {executionTimestamp : D → Int}
    {broker : HonestBroker D executionTimestamp} {window : EvidenceWindow} :
    Captures broker False (fun _ => True) window.fromUnixMsInclusive window.toUnixMsExclusive ↔
      DealCutsUnseen broker window := by
  constructor
  · rintro ⟨cuts, _, _⟩ t ht
    exact ⟨(cuts t ht).1, (cuts t ht).2.1⟩
  · intro cuts
    refine ⟨?_, by simp, by simp⟩
    intro t ht
    exact ⟨(cuts t ht).1, (cuts t ht).2, by simp⟩

/-- A capture that returns pages has everything the honest broker holds in the window, each
entry once and in order, unless a timestamp of the window is repeated and no check sees
the cuts. This is exact, for the quotes and for the deals. -/
theorem capture_complete_unless_cut_unseen {P D : Type*} (convertPrice : Int → P)
    (validPrice : P → Bool) (tickBroker : HonestBroker BrokerTick BrokerTick.timestamp)
    {executionTimestamp : D → Int} (dealBroker : HonestBroker D executionTimestamp)
    (window : EvidenceWindow) :
    ((∀ pages, captureQuotePages convertPrice validPrice tickBroker window = .ok pages →
        pages.reverse.flatMap (·.page.items) =
          (tickBroker.range window.fromUnixMsInclusive window.toUnixMsExclusive).map
            (BrokerTick.captured convertPrice)) ↔
      ¬((∃ t, window.fromUnixMsInclusive ≤ t ∧ t < window.toUnixMsExclusive ∧
          Repeats BrokerTick.timestamp tickBroker.log t) ∧
        TickCutsUnseen convertPrice validPrice tickBroker window)) ∧
    ((∀ pages, captureExactCloseDeals dealBroker window = .ok pages →
        pages.reverse.flatMap (·.items) =
          dealBroker.range window.fromUnixMsInclusive window.toUnixMsExclusive) ↔
      ¬((∃ t, window.fromUnixMsInclusive ≤ t ∧ t < window.toUnixMsExclusive ∧
          Repeats executionTimestamp dealBroker.log t) ∧
        DealCutsUnseen dealBroker window)) := by
  obtain ⟨tickPages, tickItems⟩ := captureQuotePages_spec convertPrice validPrice tickBroker window
  obtain ⟨dealPages, dealItems⟩ := captureExactCloseDeals_spec dealBroker window
  rw [captures_deals_iff] at dealPages
  have deals := complete_iff dealPages dealItems
  rw [List.map_id] at deals
  exact ⟨complete_iff tickPages tickItems, deals⟩

def cutTick (timestamp rawPrice : Int) (h : 0 ≤ timestamp ∧ timestamp ≤ 100 ∧ 0 ≤ rawPrice ∧
    rawPrice ≤ 1000000) : BrokerTick where
  timestamp := timestamp
  rawPrice := rawPrice
  timestampRange := by unfold I64.InRange I64.minValue I64.maxValue; omega
  priceRange := by unfold I64.InRange I64.minValue I64.maxValue; omega

def cutBroker : HonestBroker BrokerTick BrokerTick.timestamp where
  log := [cutTick 3 100000 (by decide), cutTick 5 100001 (by decide), cutTick 5 100002 (by decide)]
  chronological := by simp [Sorted, cutTick]
  pageLimit := 1
  positive := Nat.one_pos

/-- The older tick at 5 ms is lost without an error. -/
theorem capture_loses_tick_at_page_cut :
    ∃ pages, captureQuotePages fiveDigitPrice (fun price => decide (0 < price)) cutBroker
        ⟨0, 10, by decide, by decide, by decide⟩ = .ok pages ∧
      pages.reverse.flatMap (·.page.items) =
        [⟨3, fiveDigitPrice 100000⟩, ⟨5, fiveDigitPrice 100002⟩] ∧
      pages.reverse.flatMap (·.page.items) ≠
        (cutBroker.range 0 10).map (BrokerTick.captured fiveDigitPrice) := by
  have captured : (captureQuotePages fiveDigitPrice (fun price => decide (0 < price)) cutBroker
        ⟨0, 10, by decide, by decide, by decide⟩).toOption.map
        (fun pages => pages.reverse.flatMap (·.page.items)) =
      some [⟨3, fiveDigitPrice 100000⟩, ⟨5, fiveDigitPrice 100002⟩] := by decide +kernel
  cases hp : captureQuotePages fiveDigitPrice (fun price => decide (0 < price)) cutBroker
      ⟨0, 10, by decide, by decide, by decide⟩ with
  | error e => simp [hp, Except.toOption] at captured
  | ok pages =>
    rw [hp] at captured
    have items : pages.reverse.flatMap (·.page.items) =
        [⟨3, fiveDigitPrice 100000⟩, ⟨5, fiveDigitPrice 100002⟩] := Option.some.inj captured
    refine ⟨pages, rfl, items, ?_⟩
    rw [items]
    intro complete
    have := congrArg List.length complete
    revert this
    decide +kernel

end Neoethos
