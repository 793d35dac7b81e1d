import Neoethos.LaneRecords
import Neoethos.ReplayFill

-- The ring is the kernel's. The extrema call the operations of `f64` by name.
set_option linter.overlappingInstances false

/-- Operations whose maximum and minimum are those of the order. -/
class FloatOps.OfOrder (P : Type*) [LinearOrder P] [FloatOps P] : Prop where
  max_eq : ∀ x y : P, FloatOps.max x y = Max.max x y
  min_eq : ∀ x y : P, FloatOps.min x y = Min.min x y

namespace Neoethos

open Fallible

instance : FloatOps.OfOrder ℚ where
  max_eq _ _ := rfl
  min_eq _ _ := rfl

variable {P : Type} [LinearOrder P]

section Merged

/-- The merged order: time, then the reviewed order of the sides, or the source order within one. -/
def Precedes (order : Option SameTimestampCrossSideOrder)
    (a b : QuoteSide × ExactHistoricalQuote P) : Prop :=
  a.2.timestampUnixMs < b.2.timestampUnixMs ∨
    a.2.timestampUnixMs = b.2.timestampUnixMs ∧
      if a.1 = b.1 then a.2.sourceOrdinal.key < b.2.sourceOrdinal.key
      else order.any (sidePrecedes a.1 b.1) = true

instance (order : Option SameTimestampCrossSideOrder) (a b : QuoteSide × ExactHistoricalQuote P) :
    Decidable (Precedes order a b) :=
  inferInstanceAs (Decidable (_ ∨ _ ∧ ite ..))

def bidInForce (order : Option SameTimestampCrossSideOrder)
    (event : QuoteSide × ExactHistoricalQuote P) (bids : List (ExactHistoricalQuote P)) :
    Option (ExactHistoricalQuote P) :=
  (bids.filter fun bid => (QuoteSide.bid, bid) = event ∨
    Precedes order (.bid, bid) event).getLast?

/-- The bids that count for the extrema between an event and the end of its bar. -/
def ContributesBefore (order : Option SameTimestampCrossSideOrder)
    (event : QuoteSide × ExactHistoricalQuote P) (bids : List (ExactHistoricalQuote P))
    (barEnd : Int) (bid : ExactHistoricalQuote P) : Prop :=
  bidInForce order event bids = some bid ∨
    bid ∈ bids ∧ Precedes order event (.bid, bid) ∧ bid.timestampUnixMs < barEnd

end Merged

section Fold

theorem isGreatest_foldl_max {Q : Type*} [LinearOrder Q] (xs : List Q) (a : Q) :
    IsGreatest (insert a {x | x ∈ xs}) (xs.foldl Max.max a) := by
  induction xs generalizing a with
  | nil => simp [IsGreatest, upperBounds]
  | cons x xs ih =>
    obtain ⟨hmem, hupper⟩ := ih (Max.max a x)
    constructor
    · rcases hmem with heq | hmem
      · rw [List.foldl_cons, heq]
        rcases max_choice a x with hmax | hmax
        · exact .inl hmax
        · rw [hmax]
          exact .inr List.mem_cons_self
      · exact .inr (List.mem_cons_of_mem _ hmem)
    · have hseed : Max.max a x ≤ xs.foldl Max.max (Max.max a x) := hupper (.inl rfl)
      intro y hy
      rcases hy with rfl | hy
      · exact (le_max_left _ _).trans hseed
      · rcases List.mem_cons.mp hy with rfl | hy
        · exact (le_max_right _ _).trans hseed
        · exact hupper (.inr hy)

theorem isLeast_foldl_min (xs : List P) (a : P) :
    IsLeast (insert a {x | x ∈ xs}) (xs.foldl Min.min a) :=
  @isGreatest_foldl_max Pᵒᵈ _ xs a

variable {α : Type*} [FloatOps P] [FloatOps.OfOrder P]

/-- A running maximum and minimum over the elements that are not skipped. -/
theorem foldl_extrema (price : α → P) (skip : α → Bool) (xs : List α) (high low : P) :
    xs.foldl (fun (high, low) x => if skip x then (high, low)
        else (FloatOps.max high (price x), FloatOps.min low (price x))) (high, low) =
      (((xs.filter fun x => !skip x).map price).foldl Max.max high,
        ((xs.filter fun x => !skip x).map price).foldl Min.min low) := by
  induction xs generalizing high low with
  | nil => rfl
  | cons x xs ih =>
    rw [List.foldl_cons]
    by_cases hskip : skip x = true
    · have hrest : (x :: xs).filter (fun x => !skip x) = xs.filter fun x => !skip x := by
        simp [hskip]
      simp only [hskip, if_true]
      rw [ih, hrest]
    · have hcount : (x :: xs).filter (fun x => !skip x) = x :: xs.filter fun x => !skip x := by
        simp [hskip]
      simp only [hskip, Bool.false_eq_true, if_false]
      rw [ih, hcount, FloatOps.OfOrder.max_eq, FloatOps.OfOrder.min_eq]
      rfl

end Fold

section Slice

variable {quotes : List (ExactHistoricalQuote P)} {window : EvidenceWindow}

omit [LinearOrder P] in
/-- The slice between two partition points is what lies between the two times. -/
theorem between_partitionPoints (h : QuotesInOrder window quotes) {t u : Int} (htu : t ≤ u) :
    (quotes.take (Slice.partitionPoint (fun quote => quote.timestampUnixMs < u) quotes)).drop
        (Slice.partitionPoint (fun quote => quote.timestampUnixMs < t) quotes) =
      quotes.filter fun quote => t ≤ quote.timestampUnixMs ∧ quote.timestampUnixMs < u := by
  have htake : quotes.take (Slice.partitionPoint (fun quote => quote.timestampUnixMs < u) quotes) =
      quotes.filter fun quote => quote.timestampUnixMs < u := by
    rw [Slice.partitionPoint_eq (h.partitioned_lt u)]
    conv_lhs => enter [2]; rw [← (h.partitioned_lt u).split]
    exact List.take_left
  have hlow : quotes.filter (fun quote => quote.timestampUnixMs < t) =
      (quotes.filter fun quote => quote.timestampUnixMs < u).filter fun quote =>
        quote.timestampUnixMs < t := by
    rw [List.filter_filter]
    apply List.filter_congr
    intro quote _
    rw [← Bool.decide_and, decide_eq_decide]
    omega
  have hfirst : QuotesInOrder window (quotes.filter fun quote => quote.timestampUnixMs < u) :=
    h.sublist List.filter_sublist
  have hdrop := drop_eligible hfirst t
  rw [Slice.partitionPoint_eq (hfirst.partitioned_lt t), ← hlow,
    ← Slice.partitionPoint_eq (h.partitioned_lt t)] at hdrop
  rw [htake, hdrop, List.filter_filter]
  apply List.filter_congr
  intro quote _
  rw [← Bool.decide_and]

end Slice

section Preview

variable {decision : CanonicalBarSignalResearchDecision P}
  {evidence : CompleteBidAskQuoteReplayEvidence P} {policy : QuoteValidatedResearchReplayPolicy P}
  {window : EvidenceWindow} {bid entry : ExactHistoricalQuote P}
  {bids : List (ExactHistoricalQuote P)} {order : Option SameTimestampCrossSideOrder}

omit [LinearOrder P] in
theorem precedes_same_side {side : QuoteSide} {a b : ExactHistoricalQuote P} :
    Precedes order (side, a) (side, b) ↔ a.key < b.key := by
  simp only [Precedes, if_true, ExactHistoricalQuote.key, Prod.Lex.toLex_lt_toLex]

theorem bidInForce_long (hlong : decision.direction = .long) :
    bidInForce (policy.reviewedSameTimestampMergeRule.map (·.sideOrder)) (.ask, entry)
        evidence.bid.quoteRecords =
      bookInForce decision evidence policy entry.timestampUnixMs := by
  unfold bidInForce bookInForce oppositeFirst
  rw [hlong]
  congr 1
  apply List.filter_congr
  intro bid _
  simp [Precedes, ResearchPositionDirection.exitSide, ResearchPositionDirection.entrySide,
    Option.any_map]

theorem bidInForce_short (hbids : QuotesInOrder window bids) (hentry : entry ∈ bids) :
    bidInForce order (.bid, entry) bids = some entry := by
  obtain ⟨front, back, rfl⟩ := List.append_of_mem hentry
  obtain ⟨-, hback, hfront⟩ := List.pairwise_append.mp hbids.ordered
  have hlater := (List.pairwise_cons.mp hback).1
  unfold bidInForce
  have hnone : back.filter (fun bid => (QuoteSide.bid, bid) = (QuoteSide.bid, entry) ∨
      Precedes order (.bid, bid) (.bid, entry)) = [] := by
    rw [List.filter_eq_nil_iff]
    intro bid hbid
    have hlt := hlater bid hbid
    simp only [Prod.mk.injEq, true_and, precedes_same_side, decide_eq_true_eq, not_or, not_lt]
    refine ⟨?_, hlt.le⟩
    rintro rfl
    exact lt_irrefl _ hlt
  rw [List.filter_append, List.filter_cons_of_pos (by simp), hnone]
  exact List.getLast?_concat

omit [LinearOrder P] in
theorem QuotesInOrder.eq_of_key (hbids : QuotesInOrder window bids) (hbid : bid ∈ bids)
    (hentry : entry ∈ bids) (hkey : bid.key = entry.key) : bid = entry := by
  have hdistinct : bids.Pairwise fun a b => a.key ≠ b.key := hbids.ordered.imp ne_of_lt
  by_contra hne
  have hsymm : Std.Symm fun a b : ExactHistoricalQuote P => a.key ≠ b.key := ⟨fun _ _ => Ne.symm⟩
  exact hdistinct.forall hbid hentry hne hkey

omit [LinearOrder P] in
/-- Behind the entry's time, the extrema skip all but the entry itself and what follows it. -/
theorem beforeEntry_eq_false_iff {preview : ResearchEntryPreview P}
    (hbids : QuotesInOrder window bids) (hbid : bid ∈ bids)
    (hentry : preview.direction = .short → preview.selected.entryQuote ∈ bids)
    (hreviewed : preview.direction = .long → bid.timestampUnixMs = preview.timestampUnixMs →
      preview.sameTimestampOrder.isSome = true)
    (hbehind : preview.timestampUnixMs ≤ bid.timestampUnixMs) :
    preview.beforeEntry bid = false ↔
      (QuoteSide.bid, bid) = (preview.direction.entrySide, preview.selected.entryQuote) ∨
        Precedes preview.sameTimestampOrder
          (preview.direction.entrySide, preview.selected.entryQuote) (.bid, bid) := by
  rcases lt_or_eq_of_le hbehind with hlater | hsame
  · have hfollows : Precedes preview.sameTimestampOrder
        (preview.direction.entrySide, preview.selected.entryQuote) (.bid, bid) := .inl hlater
    have hne : ¬bid.timestampUnixMs = preview.timestampUnixMs := by omega
    simp [ResearchEntryPreview.beforeEntry, hne, hfollows]
  · cases hdirection : preview.direction with
    | long =>
      obtain ⟨order, horder⟩ := Option.isSome_iff_exists.mp (hreviewed hdirection hsame.symm)
      have hboth : preview.selected.entryQuote.timestampUnixMs = bid.timestampUnixMs := hsame
      cases order with
      | bidBeforeAsk =>
        simp [ResearchEntryPreview.beforeEntry, hdirection, horder, ← hsame, Precedes, hboth,
          ResearchPositionDirection.entrySide, sidePrecedes]
      | askBeforeBid =>
        simp [ResearchEntryPreview.beforeEntry, hdirection, horder, ← hsame, Precedes, hboth,
          ResearchPositionDirection.entrySide, sidePrecedes]
    | short =>
      have hmem := hentry hdirection
      have hboth : bid.timestampUnixMs = preview.selected.entryQuote.timestampUnixMs := hsame.symm
      have hkey : bid.key = preview.selected.entryQuote.key ↔
          bid.sourceOrdinal.key = preview.selected.entryQuote.sourceOrdinal.key := by
        rw [ExactHistoricalQuote.key, ExactHistoricalQuote.key, hboth]
        simp
      have hunique : bid = preview.selected.entryQuote ↔
          bid.sourceOrdinal.key = preview.selected.entryQuote.sourceOrdinal.key := by
        rw [← hkey]
        exact ⟨fun heq => heq ▸ rfl, hbids.eq_of_key hbid hmem⟩
      have hskips : preview.beforeEntry bid = false ↔
          ¬bid.sourceOrdinal.key < preview.selected.entryQuote.sourceOrdinal.key := by
        simp [ResearchEntryPreview.beforeEntry, hdirection, ← hsame]
      rw [hskips, not_lt, le_iff_lt_or_eq, or_comm, eq_comm, ← hunique]
      simp [Precedes, ResearchPositionDirection.entrySide, hboth]

section Extrema

variable [Ring P] {sha256 : HashPayload P → String} {plan : QuoteValidatedResearchReplayPlan P}
  {preview : ResearchEntryPreview P} {selected : SelectedEntryBook P}

theorem previewEntry_some_iff :
    previewEntryWithEvidence sha256 plan evidence = .ok (some preview) ↔
      plan.validate sha256 = .ok () ∧ plan.binding = evidence.binding ∧
      ∃ decision, plan.decisions.head? = some decision ∧ ∃ selected modeledEntryPrice,
        selectEntry decision evidence plan.policy = .ok (.available selected) ∧
        modeledPrice selected.entryQuote.price decision.direction true
          plan.policy.latencySlippage = .ok modeledEntryPrice ∧
        preview = ⟨evidence, selected, decision.direction,
          plan.policy.reviewedSameTimestampMergeRule.map (·.sideOrder), modeledEntryPrice⟩ := by
  unfold previewEntryWithEvidence
  rw [check_ok_iff, check_ok_iff, refuseIf_ok, not_not, bind_ok_iff]
  apply and_congr_right
  intro _
  apply and_congr_right
  intro _
  apply exists_congr
  intro decision
  rw [QuoteValidatedResearchReplayPlan.soleDecision, okOrElse_ok]
  apply and_congr_right
  intro _
  rw [bind_ok_iff]
  constructor
  · intro h
    obtain ⟨selection, hselection, h⟩ := h
    cases selection with
    | unavailable nonEntry => cases h
    | available selected =>
      obtain ⟨price, hprice, h⟩ := bind_ok_iff.mp h
      cases h
      exact ⟨selected, price, hselection, hprice, rfl⟩
  · intro h
    obtain ⟨selected, price, hselection, hprice, rfl⟩ := h
    exact ⟨_, hselection, bind_ok_iff.mpr ⟨price, hprice, rfl⟩⟩

omit [Ring P] in
/-- The bid of the selected book is the one in force at the entry. -/
theorem selectEntry_bidInForce
    (hquotes : ∀ side, QuotesInOrder window (evidence.quotes side))
    (h : selectEntry decision evidence policy = .ok (.available selected)) :
    bidInForce (policy.reviewedSameTimestampMergeRule.map (·.sideOrder))
        (decision.direction.entrySide, selected.entryQuote) evidence.bid.quoteRecords =
      some selected.bidQuote := by
  obtain ⟨-, -, h⟩ := (selectEntry_ok_iff (hquotes _)).mp h
  obtain ⟨hmem, -⟩ := selectEntryFrom_available h
  obtain ⟨bookQuote, hlatest, hbook⟩ := selectEntryFrom_book h
  cases hdirection : decision.direction with
  | long =>
    simp only [hdirection, entryBookAt] at hbook
    obtain ⟨-, hbook⟩ := check_ok_iff.mp hbook
    have hbid : selected.bidQuote = bookQuote := by rw [← Except.ok.inj hbook]
    rw [latestBookQuoteAtEntry_eq (hquotes _).ascending] at hlatest
    split at hlatest
    next => cases hlatest
    next =>
      rw [hbid, ← Except.ok.inj hlatest]
      exact bidInForce_long hdirection
  | short =>
    simp only [hdirection, entryBookAt] at hbook
    obtain ⟨-, hbook⟩ := check_ok_iff.mp hbook
    have hbid : selected.bidQuote = selected.entryQuote := by rw [← Except.ok.inj hbook]
    rw [hdirection] at hmem
    rw [hbid]
    exact bidInForce_short (hquotes .bid) (List.mem_filter.mp hmem).1

variable [FloatOps P] [FloatOps.OfOrder P]

def ResearchEntryPreview.countedPrices (preview : ResearchEntryPreview P) (barEnd : Int) : List P :=
  ((preview.evidence.bid.quoteRecords.filter fun bid =>
    preview.timestampUnixMs ≤ bid.timestampUnixMs ∧ bid.timestampUnixMs < barEnd).filter fun bid =>
      !preview.beforeEntry bid).map (·.price)

omit [Ring P] in
theorem bidExtremaBefore_eq {barEnd : Int}
    (hbids : QuotesInOrder window preview.evidence.bid.quoteRecords)
    (hafter : preview.timestampUnixMs < barEnd)
    (hlocked : barEnd ≤
      preview.evidence.binding.replayScope.lockedEvaluationWindow.toUnixMsExclusive) :
    preview.bidExtremaBefore barEnd =
      .ok ((preview.countedPrices barEnd).foldl Max.max preview.selected.bidQuote.price,
        (preview.countedPrices barEnd).foldl Min.min preview.selected.bidQuote.price) := by
  have hadmissible : ¬(barEnd ≤ preview.timestampUnixMs ∨
      preview.evidence.binding.replayScope.lockedEvaluationWindow.toUnixMsExclusive < barEnd) := by
    omega
  have hslice := between_partitionPoints hbids hafter.le
  unfold ResearchEntryPreview.bidExtremaBefore
  simp only [refuseIf_ok.mpr hadmissible, ok_bind]
  rw [hslice]
  exact congrArg Except.ok (foldl_extrema (·.price) preview.beforeEntry _ _ _)

section Selected

variable {price : P}

omit [Ring P] [FloatOps P] [FloatOps.OfOrder P] in
/-- What the preview of a selected entry counts behind the entry's time. -/
theorem beforeEntry_of_selected (hquotes : ∀ side, QuotesInOrder window (evidence.quotes side))
    (hentry : selectEntry decision evidence policy = .ok (.available selected))
    (hpreview : preview = ⟨evidence, selected, decision.direction,
      policy.reviewedSameTimestampMergeRule.map (·.sideOrder), price⟩)
    {bid : ExactHistoricalQuote P} (hbid : bid ∈ evidence.bid.quoteRecords)
    (hbehind : preview.timestampUnixMs ≤ bid.timestampUnixMs) :
    preview.beforeEntry bid = false ↔
      (QuoteSide.bid, bid) = (decision.direction.entrySide, selected.entryQuote) ∨
        Precedes (policy.reviewedSameTimestampMergeRule.map (·.sideOrder))
          (decision.direction.entrySide, selected.entryQuote) (.bid, bid) := by
  obtain ⟨-, -, hfrom⟩ := (selectEntry_ok_iff (hquotes _)).mp hentry
  obtain ⟨hmem, -⟩ := selectEntryFrom_available hfrom
  subst hpreview
  refine beforeEntry_eq_false_iff (hquotes .bid) hbid ?_ ?_ hbehind
  · intro hshort
    have hshort : decision.direction = .short := hshort
    rw [hshort] at hmem
    exact (List.mem_filter.mp hmem).1
  · intro hlong hsame
    have hlong : decision.direction = .long := hlong
    show (policy.reviewedSameTimestampMergeRule.map (·.sideOrder)).isSome = true
    rw [Option.isSome_map]
    apply reviewed_of_selectEntry hquotes hentry bid
    · rw [hlong]
      exact hbid
    · exact hsame

omit [Ring P] [FloatOps P] [FloatOps.OfOrder P] in
/-- The prices that the extrema run over are those of the bids that contribute. -/
theorem countedPrices_of_selected (hquotes : ∀ side, QuotesInOrder window (evidence.quotes side))
    (hentry : selectEntry decision evidence policy = .ok (.available selected))
    (hpreview : preview = ⟨evidence, selected, decision.direction,
      policy.reviewedSameTimestampMergeRule.map (·.sideOrder), price⟩) (barEnd : Int) :
    {price | ∃ bid, ContributesBefore (policy.reviewedSameTimestampMergeRule.map (·.sideOrder))
      (decision.direction.entrySide, selected.entryQuote) evidence.bid.quoteRecords barEnd bid ∧
        bid.price = price} =
      insert selected.bidQuote.price {price | price ∈ preview.countedPrices barEnd} := by
  have hforce := selectEntry_bidInForce hquotes hentry
  have hskips (bid : ExactHistoricalQuote P) (hbid : bid ∈ evidence.bid.quoteRecords)
      (hbehind : preview.timestampUnixMs ≤ bid.timestampUnixMs) :=
    beforeEntry_of_selected hquotes hentry hpreview hbid hbehind
  have htime : preview.timestampUnixMs = selected.entryQuote.timestampUnixMs := by
    rw [hpreview]
    rfl
  have hwithin : preview.evidence = evidence := by rw [hpreview]
  rw [ResearchEntryPreview.countedPrices, hwithin]
  ext price
  simp only [Set.mem_ofPred_eq, Set.mem_insert_iff, List.mem_map, List.mem_filter,
    decide_eq_true_eq, Bool.not_eq_true']
  constructor
  · intro h
    obtain ⟨bid, hbid | ⟨hbid, hfollows, hbefore⟩, rfl⟩ := h
    · rw [hforce] at hbid
      rw [Option.some.inj hbid]
      exact .inl rfl
    · have hbehind : preview.timestampUnixMs ≤ bid.timestampUnixMs := by
        rw [htime]
        rcases hfollows with hlt | ⟨heq, -⟩
        · exact hlt.le
        · exact heq.le
      exact .inr ⟨bid, ⟨⟨hbid, hbehind, hbefore⟩, (hskips bid hbid hbehind).mpr (.inr hfollows)⟩,
        rfl⟩
  · intro h
    obtain rfl | ⟨bid, ⟨⟨hbid, hbehind, hbefore⟩, hcounts⟩, rfl⟩ := h
    · exact ⟨_, .inl hforce, rfl⟩
    · rcases (hskips bid hbid hbehind).mp hcounts with hsame | hfollows
      · have hshort : decision.direction.entrySide = .bid := (Prod.mk.inj hsame).1.symm
        have heq : bid = selected.entryQuote := (Prod.mk.inj hsame).2
        refine ⟨bid, .inl ?_, rfl⟩
        rw [hshort, heq]
        exact bidInForce_short (hquotes .bid) (heq ▸ hbid)
      · exact ⟨bid, .inr ⟨hbid, hfollows, hbefore⟩, rfl⟩

end Selected

/-- Up to the end of the entry's bar the extrema are those of the bid in force at the entry and of
the bids behind the entry, and what counts as behind is what an exit of a long position counts. -/
theorem bidExtremaBefore_extrema (hevidence : evidence.validatePayload sha256 = .ok ())
    (hpreview : previewEntryWithEvidence sha256 plan evidence = .ok (some preview)) {barEnd : Int}
    (hafter : preview.timestampUnixMs < barEnd)
    (hlocked : barEnd ≤
      evidence.binding.replayScope.lockedEvaluationWindow.toUnixMsExclusive) :
    ∃ decision high low, plan.decisions.head? = some decision ∧
      preview.bidExtremaBefore barEnd = .ok (high, low) ∧
      (bidInForce (plan.policy.reviewedSameTimestampMergeRule.map (·.sideOrder))
        (decision.direction.entrySide, preview.selected.entryQuote)
        evidence.bid.quoteRecords).isSome = true ∧
      IsGreatest {price | ∃ bid, ContributesBefore
        (plan.policy.reviewedSameTimestampMergeRule.map (·.sideOrder))
        (decision.direction.entrySide, preview.selected.entryQuote) evidence.bid.quoteRecords
        barEnd bid ∧ bid.price = price} high ∧
      IsLeast {price | ∃ bid, ContributesBefore
        (plan.policy.reviewedSameTimestampMergeRule.map (·.sideOrder))
        (decision.direction.entrySide, preview.selected.entryQuote) evidence.bid.quoteRecords
        barEnd bid ∧ bid.price = price} low ∧
      (decision.direction = .long → ∀ bid ∈ evidence.bid.quoteRecords,
        bid.timestampUnixMs = preview.timestampUnixMs →
          (preview.beforeEntry bid = false ↔
            sameTimestampExitOccursAfterEntry .ask .bid plan.policy = some true)) := by
  have hquotes (side : QuoteSide) :=
    CompleteBidAskQuoteReplayEvidence.inOrder_of_validatePayload hevidence side
  obtain ⟨-, -, decision, hsole, selected, price, hentry, -, hmade⟩ :=
    previewEntry_some_iff.mp hpreview
  have hforce := selectEntry_bidInForce hquotes hentry
  have hprices := countedPrices_of_selected hquotes hentry hmade barEnd
  have hwithin : preview.evidence = evidence := by rw [hmade]
  have hselected : preview.selected = selected := by rw [hmade]
  have hbids : QuotesInOrder evidence.binding.replayScope.requiredQuoteCoverageWindow
      preview.evidence.bid.quoteRecords := by
    rw [hwithin]
    exact hquotes .bid
  have hbefore : barEnd ≤
      preview.evidence.binding.replayScope.lockedEvaluationWindow.toUnixMsExclusive := by
    rw [hwithin]
    exact hlocked
  have hrun := bidExtremaBefore_eq hbids hafter hbefore
  rw [hselected] at hrun ⊢
  refine ⟨decision, _, _, hsole, hrun, ?_, ?_, ?_, ?_⟩
  · rw [hforce]
    rfl
  · rw [hprices]
    exact isGreatest_foldl_max _ _
  · rw [hprices]
    exact isLeast_foldl_min _ _
  · intro hlong bid hbid hsame
    have hboth : selected.entryQuote.timestampUnixMs = bid.timestampUnixMs := by
      rw [hsame, hmade]
      rfl
    rw [beforeEntry_of_selected hquotes hentry hmade hbid hsame.ge, hlong]
    cases hrule : plan.policy.reviewedSameTimestampMergeRule with
    | none =>
      simp [Precedes, ResearchPositionDirection.entrySide, sameTimestampExitOccursAfterEntry, hboth,
        hrule]
    | some rule =>
      simp [Precedes, ResearchPositionDirection.entrySide, sameTimestampExitOccursAfterEntry, hboth,
        hrule]

end Extrema

end Preview

/-- The preview of the sample's entry at 1110; a bar that ends at 1310 has the bids up to 1305. -/
theorem usdJpy_extrema :
    ∃ decision high low, (usdJpyPlan 1100 none).decisions.head? = some decision ∧
      (⟨usdJpyEvidence, ⟨⟨1110, 1201 / 8, 0, 0, 0⟩, ⟨1100, 150, 0, 0, 0⟩,
        ⟨1110, 1201 / 8, 0, 0, 0⟩⟩, .long, none, 19217 / 128⟩ : ResearchEntryPreview ℚ).bidExtremaBefore 1310 =
          .ok (high, low) ∧
      (bidInForce none (decision.direction.entrySide, ⟨1110, 1201 / 8, 0, 0, 0⟩)
        usdJpyEvidence.bid.quoteRecords).isSome = true ∧
      IsGreatest {price | ∃ bid, ContributesBefore none
        (decision.direction.entrySide, ⟨1110, 1201 / 8, 0, 0, 0⟩) usdJpyEvidence.bid.quoteRecords
        1310 bid ∧ bid.price = price} high ∧
      IsLeast {price | ∃ bid, ContributesBefore none
        (decision.direction.entrySide, ⟨1110, 1201 / 8, 0, 0, 0⟩) usdJpyEvidence.bid.quoteRecords
        1310 bid ∧ bid.price = price} low ∧
      (decision.direction = .long → ∀ bid ∈ usdJpyEvidence.bid.quoteRecords,
        bid.timestampUnixMs = 1110 →
          ((⟨usdJpyEvidence, ⟨⟨1110, 1201 / 8, 0, 0, 0⟩, ⟨1100, 150, 0, 0, 0⟩,
            ⟨1110, 1201 / 8, 0, 0, 0⟩⟩, .long, none, 19217 / 128⟩ :
              ResearchEntryPreview ℚ).beforeEntry bid = false ↔
            sameTimestampExitOccursAfterEntry .ask .bid usdJpyPolicy = some true)) := by
  have hevidence : usdJpyEvidence.validatePayload usdJpySha256 = .ok () := by decide +kernel
  have hplan : (usdJpyPlan 1100 none).validate usdJpySha256 = .ok () := by decide +kernel
  have hentry : selectEntry usdJpyDecision usdJpyEvidence usdJpyPolicy =
      .ok (.available ⟨⟨1110, 1201 / 8, 0, 0, 0⟩, ⟨1100, 150, 0, 0, 0⟩,
        ⟨1110, 1201 / 8, 0, 0, 0⟩⟩) := by decide +kernel
  have hprice : modeledPrice (1201 / 8) .long true usdJpyPolicy.latencySlippage =
      .ok (19217 / 128) := by decide +kernel
  exact bidExtremaBefore_extrema hevidence
    (previewEntry_some_iff.mpr ⟨hplan, rfl, usdJpyDecision, rfl, _, _, hentry, hprice, rfl⟩)
    (by decide) (by decide)

end Neoethos
