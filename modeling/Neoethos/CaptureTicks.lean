import Neoethos.CaptureLoop
import Neoethos.TickDecoders

namespace Neoethos

open Pagination

variable {P : Type*} {convertPrice : Int → P} {validPrice : P → Bool}

def BrokerTick.captured (convertPrice : Int → P) (tick : BrokerTick) : DecodedCTraderTick P :=
  ⟨tick.timestamp, convertPrice tick.rawPrice⟩

def BrokerTick.Valid (convertPrice : Int → P) (validPrice : P → Bool) (tick : BrokerTick) : Prop :=
  0 < tick.rawPrice ∧ validPrice (convertPrice tick.rawPrice) = true

def BrokerTick.pair (tick : BrokerTick) : Int × Int := (tick.timestamp, tick.rawPrice)

/-- Adding a delta to the newer value gives the value back. -/
theorem addDelta_sub {newer : Option Int} {value : Int} (h : I64.InRange value) :
    addDelta newer (value - newer.getD 0) = some value := by
  cases newer with
  | none => simp [addDelta]
  | some p =>
    have heq : p + (value - p) = value := by omega
    exact I64.checkedAdd_eq_some.mpr ⟨by simpa [heq] using h, by simp [heq]⟩

theorem rowDecodes_delta {newer : Option BrokerTick} {tick : BrokerTick} {ts raw : Int}
    (ordered : ∀ p ∈ newer, tick.timestamp ≤ p.timestamp) :
    RowDecodes convertPrice validPrice (· ≤ ·) (newer.map (·.timestamp)) (newer.map (·.rawPrice))
        ⟨tick.timestamp - (newer.map (·.timestamp)).getD 0,
          tick.rawPrice - (newer.map (·.rawPrice)).getD 0⟩ ts raw ↔
      (ts, raw) = tick.pair ∧ 0 ≤ tick.timestamp ∧ tick.Valid convertPrice validPrice := by
  constructor
  · intro h
    have hts : ts = tick.timestamp := by
      simpa [addDelta_sub tick.timestampRange] using h.timestamp.symm
    have hraw : raw = tick.rawPrice := by
      simpa [addDelta_sub tick.priceRange] using h.price.symm
    subst hts hraw
    exact ⟨rfl, h.nonNegative, h.positive, h.converts⟩
  · rintro ⟨heq, nonNegative, positive, converts⟩
    cases heq
    refine ⟨addDelta_sub tick.timestampRange, nonNegative, ?_, addDelta_sub tick.priceRange,
      positive, converts⟩
    intro previous hp
    obtain ⟨p, hnewer, rfl⟩ := Option.map_eq_some_iff.mp hp
    exact ordered p hnewer

theorem deltaRows_cons (newer : Option BrokerTick) (tick : BrokerTick) (rest : List BrokerTick) :
    deltaRows newer (tick :: rest) =
      ⟨tick.timestamp - (newer.map (·.timestamp)).getD 0,
        tick.rawPrice - (newer.map (·.rawPrice)).getD 0⟩ :: deltaRows (some tick) rest := by
  cases newer with
  | none => simp [deltaRows]
  | some p => rfl

theorem deltaRows_length (newer : Option BrokerTick) (ticks : List BrokerTick) :
    (deltaRows newer ticks).length = ticks.length := by
  induction ticks generalizing newer with
  | nil => cases newer <;> rfl
  | cons tick rest ih => rw [deltaRows_cons, List.length_cons, ih, List.length_cons]

theorem rowsDecode_deltaRows {ticks : List BrokerTick} {newer : Option BrokerTick}
    {outs : List (Int × Int)} (ordered : ∀ p ∈ newer, ∀ x ∈ ticks, x.timestamp ≤ p.timestamp)
    (descending : ticks.Pairwise fun x y => y.timestamp ≤ x.timestamp) :
    RowsDecode convertPrice validPrice (· ≤ ·) (newer.map (·.timestamp)) (newer.map (·.rawPrice))
        (deltaRows newer ticks) outs ↔
      outs = ticks.map BrokerTick.pair ∧
        ∀ x ∈ ticks, 0 ≤ x.timestamp ∧ x.Valid convertPrice validPrice := by
  induction ticks generalizing newer outs with
  | nil =>
    cases newer <;>
    · simp only [deltaRows, List.map_nil, List.not_mem_nil, false_implies, implies_true, and_true]
      constructor
      · intro h
        cases h
        rfl
      · rintro rfl
        exact .nil
  | cons tick rest ih =>
    obtain ⟨hhead, htail⟩ := List.pairwise_cons.mp descending
    have hfirst : ∀ p ∈ newer, tick.timestamp ≤ p.timestamp :=
      fun p hp => ordered p hp tick (by simp)
    have hrest : ∀ p ∈ some tick, ∀ x ∈ rest, x.timestamp ≤ p.timestamp := by
      intro p hp x hx
      cases hp
      exact hhead x hx
    rw [deltaRows_cons]
    constructor
    · intro h
      cases h with
      | cons head tail =>
        obtain ⟨heq, hv⟩ := (rowDecodes_delta hfirst).mp head
        cases heq
        obtain ⟨rfl, hvrest⟩ := (ih hrest htail).mp tail
        exact ⟨rfl, List.forall_mem_cons.mpr ⟨hv, hvrest⟩⟩
    · rintro ⟨rfl, hv⟩
      have hv := List.forall_mem_cons.mp hv
      exact .cons ((rowDecodes_delta hfirst).mpr ⟨rfl, hv.1⟩) ((ih hrest htail).mpr ⟨rfl, hv.2⟩)

theorem captureTicks_page {page : List BrokerTick} (sorted : Sorted BrokerTick.timestamp page)
    (nonNegative : ∀ x ∈ page, 0 ≤ x.timestamp) {ticks : List (DecodedCTraderTick P)} :
    captureTicks convertPrice validPrice (deltaRows none page.reverse) = .ok ticks ↔
      (∀ x ∈ page, x.Valid convertPrice validPrice) ∧
        ticks = page.map (BrokerTick.captured convertPrice) := by
  have descending : page.reverse.Pairwise fun x y => y.timestamp ≤ x.timestamp :=
    List.pairwise_reverse.mpr sorted
  have decodes : ∀ outs, RowsDecode convertPrice validPrice (· ≤ ·) none none
      (deltaRows none page.reverse) outs ↔ outs = page.reverse.map BrokerTick.pair ∧
        ∀ x ∈ page.reverse, 0 ≤ x.timestamp ∧ x.Valid convertPrice validPrice :=
    fun outs => @rowsDecode_deltaRows P convertPrice validPrice _ none outs (by simp) descending
  rw [captureTicks_ok]
  constructor
  · rintro ⟨outs, h, rfl⟩
    obtain ⟨rfl, hv⟩ := (decodes outs).mp h
    refine ⟨fun x hx => (hv x (by simpa using hx)).2, ?_⟩
    simp [tickOf, BrokerTick.captured, BrokerTick.pair, Function.comp_def]
  · rintro ⟨hv, rfl⟩
    refine ⟨_, (decodes _).mpr ⟨rfl, ?_⟩, ?_⟩
    · intro x hx
      have hx : x ∈ page := by simpa using hx
      exact ⟨nonNegative x hx, hv x hx⟩
    · simp [tickOf, BrokerTick.captured, BrokerTick.pair, Function.comp_def]

theorem HonestBroker.page_sublist {α : Type*} {timestamp : α → Int}
    (broker : HonestBroker α timestamp) (w : EvidenceWindow) :
    (broker.page w).Sublist (broker.range w.fromUnixMsInclusive w.toUnixMsExclusive) :=
  List.drop_sublist _ _

theorem HonestBroker.page_bounds {α : Type*} {timestamp : α → Int}
    {broker : HonestBroker α timestamp} {w : EvidenceWindow} {x : α} (hx : x ∈ broker.page w) :
    w.fromUnixMsInclusive ≤ timestamp x ∧ timestamp x < w.toUnixMsExclusive :=
  (HonestBroker.mem_range.mp ((broker.page_sublist w).subset hx)).2

theorem HonestBroker.page_sorted {α : Type*} {timestamp : α → Int}
    (broker : HonestBroker α timestamp) (w : EvidenceWindow) :
    Sorted timestamp (broker.page w) :=
  (broker.range_sorted _ _).sublist (broker.page_sublist w)

theorem HonestBroker.page_ne_nil {α : Type*} {timestamp : α → Int}
    {broker : HonestBroker α timestamp} {w : EvidenceWindow} (h : broker.hasMore w = true) :
    broker.page w ≠ [] := by
  obtain ⟨_, o, rest, _, _, _, hpage⟩ := newest_long broker.positive (of_decide_eq_true h)
  rw [HonestBroker.page, hpage]
  simp

theorem strictlyAscending_map {α : Type*} {timestamp : α → Int} {l : List α} :
    strictlyAscending (l.map timestamp) = true ↔ Distinct timestamp l := by
  rw [strictlyAscending_iff, List.isChain_iff_pairwise, List.pairwise_map]
  rfl

theorem fetchTickPage_ok {broker : HonestBroker BrokerTick BrokerTick.timestamp}
    {w : EvidenceWindow} {items : List (DecodedCTraderTick P)} {more : Bool} :
    fetchTickPage convertPrice validPrice broker w = .ok (items, more) ↔
      ((True → broker.page w ≠ []) ∧ Distinct BrokerTick.timestamp (broker.page w) ∧
        ∀ x ∈ broker.page w, x.Valid convertPrice validPrice) ∧
      items = (broker.page w).map (BrokerTick.captured convertPrice) ∧
      more = broker.hasMore w := by
  have nonNegative : ∀ x ∈ broker.page w, 0 ≤ x.timestamp := by
    intro x hx
    have := (HonestBroker.page_bounds hx).1
    have := w.nonNegative
    omega
  have decoded := @captureTicks_page P convertPrice validPrice _ (broker.page_sorted w) nonNegative
  have boundary : ¬(broker.hasMore w = true ∧ deltaRows none (broker.page w).reverse = []) := by
    rintro ⟨h, empty⟩
    have hrows := congrArg List.length empty
    rw [deltaRows_length, List.length_reverse, List.length_nil] at hrows
    exact HonestBroker.page_ne_nil h (List.length_eq_zero_iff.mp hrows)
  simp only [fetchTickPage, parseTickDataResponse, if_neg boundary]
  cases hc : captureTicks convertPrice validPrice (deltaRows none (broker.page w).reverse) with
  | error e =>
    simp only [reduceCtorEq, false_iff]
    rintro ⟨⟨_, _, hv⟩, _⟩
    simp [decoded.mpr ⟨hv, rfl⟩] at hc
  | ok ticks =>
    obtain ⟨hv, rfl⟩ := decoded.mp hc
    have inBounds : (((broker.page w).map (BrokerTick.captured convertPrice)).any fun tick =>
        tick.timestampMs < w.fromUnixMsInclusive || w.toUnixMsExclusive ≤ tick.timestampMs ||
          !validPrice tick.price) = false := by
      apply List.any_eq_false.mpr
      intro tick ht
      obtain ⟨x, hx, rfl⟩ := List.mem_map.mp ht
      have bounds := HonestBroker.page_bounds hx
      have notBelow : ¬x.timestamp < w.fromUnixMsInclusive := by omega
      have notAbove : ¬w.toUnixMsExclusive ≤ x.timestamp := by omega
      simp [BrokerTick.captured, (hv x hx).2, notBelow, notAbove]
    have timestamps : ((broker.page w).map (BrokerTick.captured convertPrice)).map (·.timestampMs) =
        (broker.page w).map BrokerTick.timestamp := by
      simp [BrokerTick.captured, Function.comp_def]
    simp only [inBounds, timestamps, Bool.false_or, List.isEmpty_iff, List.map_eq_nil_iff]
    by_cases empty : broker.page w = []
    · simp [empty]
    · rw [if_neg empty]
      cases ascending : strictlyAscending ((broker.page w).map BrokerTick.timestamp) with
      | false =>
        have := strictlyAscending_map.not.mp (by simpa using ascending)
        simp [this]
      | true =>
        have distinct := strictlyAscending_map.mp ascending
        rw [if_neg (by simp)]
        constructor
        · intro h
          cases h
          exact ⟨⟨fun _ => empty, distinct, hv⟩, rfl, rfl⟩
        · rintro ⟨_, rfl, rfl⟩
          rfl

variable (convertPrice validPrice) in
theorem tickPageSource_serves (broker : HonestBroker BrokerTick BrokerTick.timestamp) :
    (tickPageSource convertPrice validPrice broker).Serves broker
      (BrokerTick.captured convertPrice) True (BrokerTick.Valid convertPrice validPrice) where
  timestamp_out _ := rfl
  fetch _ _ _ := fetchTickPage_ok

/-- The chunks of a window are its newest chunk and the chunks of what is older. -/
theorem forall_chunks {C : Int → Int → Prop} {lower chunkTo : Int} (hlt : lower < chunkTo) :
    (∀ i : Nat, lower < chunkTo - i * maxTickRequestSpanMs →
        C (max lower (chunkTo - (i + 1) * maxTickRequestSpanMs))
          (chunkTo - i * maxTickRequestSpanMs)) ↔
      C (max lower (chunkTo - maxTickRequestSpanMs)) chunkTo ∧
        ∀ i : Nat, lower < max lower (chunkTo - maxTickRequestSpanMs) - i * maxTickRequestSpanMs →
          C (max lower (max lower (chunkTo - maxTickRequestSpanMs) - (i + 1) * maxTickRequestSpanMs))
            (max lower (chunkTo - maxTickRequestSpanMs) - i * maxTickRequestSpanMs) := by
  have shift : ∀ i : Nat, chunkTo - maxTickRequestSpanMs - i * maxTickRequestSpanMs =
      chunkTo - ((i + 1 : Nat) : Int) * maxTickRequestSpanMs := by
    intro i
    unfold maxTickRequestSpanMs
    push_cast
    omega
  rw [← Nat.and_forall_add_one]
  refine and_congr (by simp [hlt]) (forall_congr' fun i => ?_)
  by_cases older : lower < chunkTo - maxTickRequestSpanMs
  · have next := shift (i + 1)
    push_cast at next
    rw [max_eq_right (Int.le_of_lt older), shift i, next]
    push_cast
    rfl
  · -- the newest chunk is the only one
    have past : ¬lower < chunkTo - ((i + 1 : Nat) : Int) * maxTickRequestSpanMs := by
      unfold maxTickRequestSpanMs at *
      push_cast
      omega
    have past' : ¬lower < max lower (chunkTo - maxTickRequestSpanMs) - i * maxTickRequestSpanMs := by
      unfold maxTickRequestSpanMs at *
      omega
    exact iff_of_true (fun h => absurd h past) (fun h => absurd h past')

variable (convertPrice validPrice) in
/-- One pass of the chunk loop: the newest chunk starts at most seven days before its end. -/
theorem captureTickChunks_next (broker : HonestBroker BrokerTick BrokerTick.timestamp)
    {lower chunkTo : Int} {chunkSequence : Nat} (hl : 0 ≤ lower) (hlt : lower < chunkTo)
    (hmax : chunkTo ≤ I64.maxValue) (room : chunkSequence + 1 ≤ sequenceMax) :
    ∃ chunkWindow : EvidenceWindow,
      captureTickChunks convertPrice validPrice broker lower chunkTo chunkSequence =
        match (tickPageSource convertPrice validPrice broker).capture
            (max lower (chunkTo - maxTickRequestSpanMs)) chunkTo 0 with
        | .error e => .error e
        | .ok pages =>
          (captureTickChunks convertPrice validPrice broker lower
            (max lower (chunkTo - maxTickRequestSpanMs)) (chunkSequence + 1)).map
              (pages.map (CapturedTickPage.mk chunkSequence chunkWindow) ++ ·) := by
  have hsub : I64.saturatingSub chunkTo maxTickRequestSpanMs = chunkTo - maxTickRequestSpanMs := by
    apply I64.saturatingSub_of_inRange
    unfold I64.InRange I64.minValue maxTickRequestSpanMs
    unfold I64.maxValue at *
    omega
  have hspan : max lower (chunkTo - maxTickRequestSpanMs) < chunkTo := by
    unfold maxTickRequestSpanMs
    omega
  let chunkWindow : EvidenceWindow :=
    ⟨max lower (chunkTo - maxTickRequestSpanMs), chunkTo, by omega, hspan, hmax⟩
  have hnew := chunkWindow.new_self
  refine ⟨chunkWindow, ?_⟩
  rw [captureTickChunks]
  simp only [if_pos hlt, hsub]
  split
  next f t hw =>
    rw [hsub, hnew] at hw
    cases hw
  next w hw =>
    rw [hsub, hnew] at hw
    cases hw
    cases (tickPageSource convertPrice validPrice broker).capture
        (max lower (chunkTo - maxTickRequestSpanMs)) chunkTo 0 with
    | error e => rfl
    | ok pages => exact if_neg (Nat.not_lt.mpr room)

/-- The chunk loop: every chunk of at most seven days must be captured. -/
theorem captureTickChunks_spec (broker : HonestBroker BrokerTick BrokerTick.timestamp)
    {lower chunkTo : Int} {chunkSequence : Nat} (hl : 0 ≤ lower) (hle : lower ≤ chunkTo)
    (hmax : chunkTo ≤ I64.maxValue) (room : chunkSequence + (chunkTo - lower).toNat ≤ sequenceMax) :
    ((∃ pages, captureTickChunks convertPrice validPrice broker lower chunkTo chunkSequence =
        .ok pages) ↔
      ∀ i : Nat, lower < chunkTo - i * maxTickRequestSpanMs →
        Captures broker True (BrokerTick.Valid convertPrice validPrice)
          (max lower (chunkTo - (i + 1) * maxTickRequestSpanMs))
          (chunkTo - i * maxTickRequestSpanMs)) ∧
      ∀ pages, captureTickChunks convertPrice validPrice broker lower chunkTo chunkSequence =
          .ok pages →
        pages.reverse.flatMap (·.page.items) =
          (lastOfEach BrokerTick.timestamp (broker.range lower chunkTo)).map
            (BrokerTick.captured convertPrice) := by
  induction hn : (chunkTo - lower).toNat using Nat.strong_induction_on generalizing chunkTo
    chunkSequence with
  | _ n ih =>
    by_cases hlt : lower < chunkTo
    · have hfrom : lower ≤ max lower (chunkTo - maxTickRequestSpanMs) := le_max_left ..
      have hto : max lower (chunkTo - maxTickRequestSpanMs) < chunkTo := by
        unfold maxTickRequestSpanMs
        omega
      have pageRoom : 0 + (chunkTo - max lower (chunkTo - maxTickRequestSpanMs)).toNat ≤
          sequenceMax := by
        unfold I64.maxValue at hmax
        unfold sequenceMax
        omega
      obtain ⟨hcapture, hitems⟩ := capture_spec
        (tickPageSource_serves convertPrice validPrice broker) (by omega) hto hmax pageRoom
      obtain ⟨hrest, hrestItems⟩ := ih (max lower (chunkTo - maxTickRequestSpanMs) - lower).toNat
        (by omega) hfrom (by omega)
        (show chunkSequence + 1 + (max lower (chunkTo - maxTickRequestSpanMs) - lower).toNat ≤
          sequenceMax by omega) rfl
      have chunkRoom : chunkSequence + 1 ≤ sequenceMax := by omega
      obtain ⟨chunkWindow, hnext⟩ := captureTickChunks_next convertPrice validPrice broker hl hlt hmax
        chunkRoom
      rw [forall_chunks hlt, ← hcapture, ← hrest, hnext]
      cases hpages : (tickPageSource convertPrice validPrice broker).capture
          (max lower (chunkTo - maxTickRequestSpanMs)) chunkTo 0 with
      | error e => simp
      | ok pages =>
        refine ⟨?_, ?_⟩
        · simp only [Fallible.map_ok_iff]
          constructor
          · rintro ⟨_, older, h, _⟩
            exact ⟨⟨pages, rfl⟩, older, h⟩
          · rintro ⟨_, older, h⟩
            exact ⟨_, older, h, rfl⟩
        · intro all hall
          obtain ⟨older, h, rfl⟩ := Fallible.map_ok_iff.mp hall
          rw [HonestBroker.range_append hfrom (Int.le_of_lt hto), lastOfEach_append,
            List.map_append, ← hitems pages hpages, ← hrestItems older h]
          · simp [List.flatMap_map, ← List.map_reverse]
          · intro x hx y hy
            have hx := HonestBroker.mem_range.mp hx
            have hy := HonestBroker.mem_range.mp hy
            omega
    · have hno : ∀ i : Nat, ¬lower < chunkTo - i * maxTickRequestSpanMs := by
        intro i
        unfold maxTickRequestSpanMs
        omega
      have empty : broker.range lower chunkTo = [] := by
        apply List.filter_eq_nil_iff.mpr
        intro x _
        simp only [decide_eq_true_eq]
        omega
      rw [captureTickChunks, if_neg hlt]
      refine ⟨⟨fun _ i hi => absurd hi (hno i), fun _ => ⟨[], rfl⟩⟩, ?_⟩
      intro pages hp
      cases hp
      rw [empty]
      rfl

end Neoethos
