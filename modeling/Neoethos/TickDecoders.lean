import Neoethos.TickDelta

namespace Neoethos

variable {P : Type*} {convertPrice : Int → P} {validPrice : P → Bool} {later : Int → Int → Prop}

/-- What a row must satisfy whichever side decodes it; `later` compares its timestamp
with the one of the row before. -/
structure RowDecodes (convertPrice : Int → P) (validPrice : P → Bool) (later : Int → Int → Prop)
    (previousTimestamp previousPrice : Option Int) (row : TickWireRow) (ts raw : Int) : Prop where
  timestamp : addDelta previousTimestamp row.timestamp = some ts
  nonNegative : 0 ≤ ts
  ordered : ∀ previous ∈ previousTimestamp, later ts previous
  price : addDelta previousPrice row.tick = some raw
  positive : 0 < raw
  converts : validPrice (convertPrice raw) = true

/-- A whole page, newest first, with the decoded raw prices. -/
inductive RowsDecode (convertPrice : Int → P) (validPrice : P → Bool) (later : Int → Int → Prop) :
    Option Int → Option Int → List TickWireRow → List (Int × Int) → Prop
  | nil {pt pr} : RowsDecode convertPrice validPrice later pt pr [] []
  | cons {pt pr row rest ts raw outs} :
      RowDecodes convertPrice validPrice later pt pr row ts raw →
      RowsDecode convertPrice validPrice later (some ts) (some raw) rest outs →
      RowsDecode convertPrice validPrice later pt pr (row :: rest) ((ts, raw) :: outs)

def tickOf (convertPrice : Int → P) (out : Int × Int) : DecodedCTraderTick P :=
  ⟨out.1, convertPrice out.2⟩

theorem decodeDeltaRow_ok {row : Nat} {pt pr : Option Int} {wire : TickWireRow}
    {ts raw : Int} {price : P} :
    decodeDeltaRow convertPrice validPrice row pt pr wire = .ok (ts, raw, price) ↔
      RowDecodes convertPrice validPrice (· ≤ ·) pt pr wire ts raw ∧ price = convertPrice raw := by
  constructor
  · intro h
    unfold decodeDeltaRow at h
    split at h
    next => simp at h
    next t ht =>
      split at h
      next => simp at h
      next notNegative =>
        split at h
        next => simp at h
        next ordered =>
          split at h
          next => simp at h
          next r hr =>
            split at h
            next => simp at h
            next positive =>
              split at h
              next valid =>
                cases h
                refine ⟨⟨ht, by omega, ?_, hr, by omega, valid⟩, rfl⟩
                intro previous hp
                have := Option.filter_eq_none_iff.mp ordered previous hp
                simpa using this
              next => simp at h
  · rintro ⟨h, rfl⟩
    have notNegative : ¬ts < 0 := by have := h.nonNegative; omega
    have positive : ¬raw ≤ 0 := by have := h.positive; omega
    have ordered : pt.filter (· < ts) = none := by
      apply Option.filter_eq_none_iff.mpr
      intro previous hp
      have := h.ordered previous hp
      simpa using this
    simp [decodeDeltaRow, h.timestamp, notNegative, ordered, h.price, positive, h.converts]

theorem decodeWireRow_ok {index : Nat} {pt pr : Option Int} {row : TickWireRow}
    {ts raw : Int} {price : P} :
    decodeWireRow convertPrice validPrice index pt pr row = .ok (ts, raw, price) ↔
      RowDecodes convertPrice validPrice (· < ·) pt pr row ts raw ∧ price = convertPrice raw := by
  constructor
  · intro h
    unfold decodeWireRow at h
    split at h
    next => simp at h
    next t ht =>
      split at h
      next => simp at h
      next r hr =>
        split at h
        next => simp at h
        next bounds =>
          obtain ⟨notNegative, positive, ordered⟩ := by simpa only [not_or] using bounds
          split at h
          next valid =>
            cases h
            refine ⟨⟨ht, by omega, ?_, hr, by omega, valid⟩, rfl⟩
            intro previous hp
            cases hp
            simpa using ordered
          next => simp at h
  · rintro ⟨h, rfl⟩
    have bounds : ¬(ts < 0 ∨ raw ≤ 0 ∨ pt.any (· ≤ ts) = true) := by
      have hn := h.nonNegative
      have hp := h.positive
      rintro (negative | notPositive | unordered)
      · omega
      · omega
      · obtain ⟨previous, hprev, hle⟩ := (Option.any_eq_true ..).mp unordered
        have := h.ordered previous hprev
        simp only [decide_eq_true_eq] at hle
        omega
    simp only [decodeWireRow, h.timestamp, h.price, bounds, h.converts, if_false, if_true]

/-- The loop decodes what its rows decode, whatever the row decoder reports as an error. -/
theorem decodeRows_ok {E : Type*} {decodeRow : Nat → Option Int → Option Int → TickWireRow →
    Except E (Int × Int × P)}
    (hrow : ∀ row pt pr wire ts raw price, decodeRow row pt pr wire = .ok (ts, raw, price) ↔
      RowDecodes convertPrice validPrice later pt pr wire ts raw ∧ price = convertPrice raw)
    {rows : List TickWireRow} {row : Nat} {pt pr : Option Int}
    {decoded out : List (DecodedCTraderTick P)} :
    decodeRows decodeRow row pt pr decoded rows = .ok out ↔
      ∃ outs, RowsDecode convertPrice validPrice later pt pr rows outs ∧
        out = decoded ++ outs.map (tickOf convertPrice) := by
  induction rows generalizing row pt pr decoded with
  | nil =>
    simp only [decodeRows, Except.ok.injEq]
    constructor
    · rintro rfl
      exact ⟨[], .nil, by simp⟩
    · rintro ⟨outs, h, rfl⟩
      cases h
      simp
  | cons wire rest ih =>
    rw [decodeRows]
    split
    next e he =>
      simp only [reduceCtorEq, false_iff]
      rintro ⟨outs, h, -⟩
      cases h with
      | cons head _ => simp [(hrow ..).mpr ⟨head, rfl⟩] at he
    next ts raw price hr =>
      rw [ih]
      obtain ⟨head, rfl⟩ := (hrow ..).mp hr
      constructor
      · rintro ⟨outs, tail, rfl⟩
        exact ⟨(ts, raw) :: outs, .cons head tail, by simp [tickOf]⟩
      · rintro ⟨outs, h, rfl⟩
        cases h with
        | cons head' tail =>
          obtain ⟨rfl⟩ : _ = ts := by simpa [head.timestamp] using head'.timestamp.symm
          obtain ⟨rfl⟩ : _ = raw := by simpa [head.price] using head'.price.symm
          exact ⟨_, tail, by simp [tickOf]⟩

theorem captureTicks_ok {rows : List TickWireRow} {ticks : List (DecodedCTraderTick P)} :
    captureTicks convertPrice validPrice rows = .ok ticks ↔
      ∃ outs, RowsDecode convertPrice validPrice (· ≤ ·) none none rows outs ∧
        ticks = (outs.map (tickOf convertPrice)).reverse := by
  unfold captureTicks decodeCTraderTickDeltas
  rw [Fallible.map_ok_iff]
  simp only [decodeRows_ok fun _ _ _ _ _ _ _ => decodeDeltaRow_ok, List.nil_append]
  constructor
  · rintro ⟨_, ⟨outs, h, rfl⟩, rfl⟩
    exact ⟨outs, h, rfl⟩
  · rintro ⟨outs, h, rfl⟩
    exact ⟨_, ⟨outs, h, rfl⟩, rfl⟩

theorem decodeTickWire_ok {rows : List TickWireRow} {ticks : List (DecodedCTraderTick P)} :
    decodeTickWire convertPrice validPrice rows = .ok ticks ↔
      rows ≠ [] ∧ ∃ outs, RowsDecode convertPrice validPrice (· < ·) none none rows outs ∧
        ticks = (outs.map (tickOf convertPrice)).reverse := by
  unfold decodeTickWire
  split
  next empty => simp [List.isEmpty_iff.mp empty]
  next notEmpty =>
    rw [Fallible.map_ok_iff]
    simp only [decodeRows_ok fun _ _ _ _ _ _ _ => decodeWireRow_ok, List.nil_append]
    constructor
    · rintro ⟨_, ⟨outs, h, rfl⟩, rfl⟩
      exact ⟨by simpa using notEmpty, outs, h, rfl⟩
    · rintro ⟨_, outs, h, rfl⟩
      exact ⟨_, ⟨outs, h, rfl⟩, rfl⟩

/-- Between rows with different timestamps the two comparisons are the same. -/
theorem RowDecodes.strict_iff {p raw ts : Int} {pr : Option Int} {row : TickWireRow} :
    RowDecodes convertPrice validPrice (· < ·) (some p) pr row ts raw ↔
      RowDecodes convertPrice validPrice (· ≤ ·) (some p) pr row ts raw ∧ row.timestamp ≠ 0 := by
  constructor
  · intro h
    have hts := (I64.checkedAdd_eq_some.mp h.timestamp).2
    have hlt := h.ordered p rfl
    refine ⟨⟨h.timestamp, h.nonNegative, ?_, h.price, h.positive, h.converts⟩, by omega⟩
    intro q hq
    exact Int.le_of_lt (h.ordered q hq)
  · rintro ⟨h, nonzero⟩
    have hts := (I64.checkedAdd_eq_some.mp h.timestamp).2
    have hle := h.ordered p rfl
    refine ⟨h.timestamp, h.nonNegative, ?_, h.price, h.positive, h.converts⟩
    intro q hq
    cases hq
    omega

theorem RowDecodes.first {ts raw : Int} {pr : Option Int} {row : TickWireRow}
    {other : Int → Int → Prop} (h : RowDecodes convertPrice validPrice later none pr row ts raw) :
    RowDecodes convertPrice validPrice other none pr row ts raw :=
  ⟨h.timestamp, h.nonNegative, by simp, h.price, h.positive, h.converts⟩

theorem RowsDecode.strict_iff {rows : List TickWireRow} {p : Int} {pr : Option Int}
    {outs : List (Int × Int)} :
    RowsDecode convertPrice validPrice (· < ·) (some p) pr rows outs ↔
      RowsDecode convertPrice validPrice (· ≤ ·) (some p) pr rows outs ∧
        ∀ row ∈ rows, row.timestamp ≠ 0 := by
  induction rows generalizing p pr outs with
  | nil =>
    constructor
    · intro h
      cases h
      exact ⟨.nil, by simp⟩
    · rintro ⟨h, -⟩
      cases h
      exact .nil
  | cons row rest ih =>
    constructor
    · intro h
      cases h with
      | cons head tail =>
        obtain ⟨head', nonzero⟩ := RowDecodes.strict_iff.mp head
        obtain ⟨tail', others⟩ := ih.mp tail
        exact ⟨.cons head' tail', List.forall_mem_cons.mpr ⟨nonzero, others⟩⟩
    · rintro ⟨h, nonzero⟩
      cases h with
      | cons head tail =>
        have hz := List.forall_mem_cons.mp nonzero
        exact .cons (RowDecodes.strict_iff.mpr ⟨head, hz.1⟩) (ih.mpr ⟨tail, hz.2⟩)

/-- The ingress reads a page like the capture side, but wants no later row with a zero delta. -/
theorem RowsDecode.page_strict_iff {rows : List TickWireRow} {outs : List (Int × Int)} :
    RowsDecode convertPrice validPrice (· < ·) none none rows outs ↔
      RowsDecode convertPrice validPrice (· ≤ ·) none none rows outs ∧
        ∀ row ∈ rows.tail, row.timestamp ≠ 0 := by
  constructor
  · intro h
    cases h with
    | nil => exact ⟨.nil, by simp⟩
    | cons head tail =>
      obtain ⟨tail', nonzero⟩ := RowsDecode.strict_iff.mp tail
      exact ⟨.cons head.first tail', nonzero⟩
  · rintro ⟨h, nonzero⟩
    cases h with
    | nil => exact .nil
    | cons head tail => exact .cons head.first (RowsDecode.strict_iff.mpr ⟨tail, nonzero⟩)

theorem strictlyAscending_iff {xs : List Int} :
    strictlyAscending xs = true ↔ xs.IsChain (· < ·) := by
  induction xs with
  | nil => simp [strictlyAscending]
  | cons x xs ih =>
    cases xs with
    | nil => simp [strictlyAscending]
    | cons y ys => simp [strictlyAscending, ih]

theorem RowsDecode.descending_iff {rows : List TickWireRow} {p : Int} {pr : Option Int}
    {outs : List (Int × Int)}
    (h : RowsDecode convertPrice validPrice (· ≤ ·) (some p) pr rows outs) :
    (p :: outs.map Prod.fst).IsChain (· > ·) ↔ ∀ row ∈ rows, row.timestamp ≠ 0 := by
  induction rows generalizing p pr outs with
  | nil => cases h; simp
  | cons row rest ih =>
    cases h with
    | @cons _ _ _ _ ts raw outs head tail =>
      have hts := (I64.checkedAdd_eq_some.mp head.timestamp).2
      have hle := head.ordered p rfl
      have hlt : p > ts ↔ row.timestamp ≠ 0 := by omega
      rw [List.map_cons, List.isChain_cons_cons, ih tail, List.forall_mem_cons, hlt]

/-- A decoded page is strictly ascending exactly when no later row has a zero delta. -/
theorem RowsDecode.ascending_iff {rows : List TickWireRow} {outs : List (Int × Int)}
    (h : RowsDecode convertPrice validPrice (· ≤ ·) none none rows outs) :
    strictlyAscending (((outs.map (tickOf convertPrice)).reverse).map (·.timestampMs)) = true ↔
      ∀ row ∈ rows.tail, row.timestamp ≠ 0 := by
  have hts : ((outs.map (tickOf convertPrice)).reverse).map (·.timestampMs) =
      (outs.map Prod.fst).reverse := by
    simp [tickOf, Function.comp_def]
  rw [hts, strictlyAscending_iff, List.isChain_reverse]
  cases h with
  | nil => simp
  | cons head tail => exact tail.descending_iff

/-- On a page without a zero timestamp delta after its first row the two decoders agree. A
page with one is rejected by the ingress, and by the page check of the capture itself, so
a page that the capture keeps is never rejected or decoded differently later. -/
theorem tick_decoders_agree_unless_same_millisecond {P : Type*} (convertPrice : Int → P)
    (validPrice : P → Bool) (rows : List TickWireRow) (page : rows ≠ []) :
    ((∀ row ∈ rows.tail, row.timestamp ≠ 0) →
      Fallible.Agree (captureTicks convertPrice validPrice rows)
        (decodeTickWire convertPrice validPrice rows)) ∧
    ((∃ row ∈ rows.tail, row.timestamp = 0) →
      (∃ e, decodeTickWire convertPrice validPrice rows = .error e) ∧
      ∀ ticks, captureTicks convertPrice validPrice rows = .ok ticks →
        strictlyAscending (ticks.map (·.timestampMs)) = false) ∧
    ∀ ticks, captureTicks convertPrice validPrice rows = .ok ticks →
      strictlyAscending (ticks.map (·.timestampMs)) = true →
      decodeTickWire convertPrice validPrice rows = .ok ticks := by
  have agree : (∀ row ∈ rows.tail, row.timestamp ≠ 0) →
      Fallible.Agree (captureTicks convertPrice validPrice rows)
        (decodeTickWire convertPrice validPrice rows) := by
    intro nonzero ticks
    rw [captureTicks_ok, decodeTickWire_ok]
    constructor
    · rintro ⟨outs, decodes, rfl⟩
      exact ⟨page, outs, RowsDecode.page_strict_iff.mpr ⟨decodes, nonzero⟩, rfl⟩
    · rintro ⟨_, outs, decodes, rfl⟩
      exact ⟨outs, (RowsDecode.page_strict_iff.mp decodes).1, rfl⟩
  refine ⟨agree, ?_, ?_⟩
  · rintro ⟨row, hrow, zero⟩
    constructor
    · cases h : decodeTickWire convertPrice validPrice rows with
      | error e => exact ⟨e, rfl⟩
      | ok ticks =>
        obtain ⟨_, outs, decodes, _⟩ := decodeTickWire_ok.mp h
        exact absurd zero ((RowsDecode.page_strict_iff.mp decodes).2 row hrow)
    · intro ticks h
      obtain ⟨outs, decodes, rfl⟩ := captureTicks_ok.mp h
      rw [Bool.eq_false_iff]
      intro ascending
      exact decodes.ascending_iff.mp ascending row hrow zero
  · intro ticks h ascending
    obtain ⟨outs, decodes, rfl⟩ := captureTicks_ok.mp h
    exact (agree (decodes.ascending_iff.mp ascending) _).mp h

def fiveDigitPrice (rawPrice : Int) : Rat := rawPrice / 100000

/-- Two ticks of one millisecond: the capture side decodes them, the ingress does not. -/
theorem tick_decoders_differ_on_same_millisecond :
    ∃ rows : List TickWireRow, rows ≠ [] ∧
      ¬Fallible.Agree (captureTicks fiveDigitPrice (fun price => decide (0 < price)) rows)
        (decodeTickWire fiveDigitPrice (fun price => decide (0 < price)) rows) := by
  refine ⟨[⟨100, 100⟩, ⟨0, -1⟩], by simp, ?_⟩
  intro agree
  have captured : captureTicks fiveDigitPrice (fun price => decide (0 < price))
      [⟨100, 100⟩, ⟨0, -1⟩] = .ok [⟨100, fiveDigitPrice 99⟩, ⟨100, fiveDigitPrice 100⟩] := by
    decide +kernel
  have ingress := (agree _).mp captured
  revert ingress
  decide +kernel

/-- The first rows of a captured page, with signed deltas. -/
theorem tick_decoders_agree_on_signed_deltas :
    decodeTickWire fiveDigitPrice (fun price => decide (0 < price))
      [⟨1471446060064, 112742⟩, ⟨-1708, 1⟩, ⟨-805, -2⟩] =
      .ok [⟨1471446057551, fiveDigitPrice 112741⟩, ⟨1471446058356, fiveDigitPrice 112743⟩,
        ⟨1471446060064, fiveDigitPrice 112742⟩] :=
  (tick_decoders_agree_unless_same_millisecond fiveDigitPrice (fun price => decide (0 < price))
    [⟨1471446060064, 112742⟩, ⟨-1708, 1⟩, ⟨-805, -2⟩] (by simp)).2.2 _
    (by decide +kernel) (by decide +kernel)

end Neoethos
