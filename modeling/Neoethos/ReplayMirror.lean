import Neoethos.ReplayKernel
import Mathlib.Algebra.Order.Ring.Rat
import Mathlib.Tactic.Ring

namespace Neoethos

section Definitions

variable (K : ℚ)

def QuoteSide.mirror : QuoteSide → QuoteSide
  | .bid => .ask
  | .ask => .bid

def SameTimestampCrossSideOrder.mirror : SameTimestampCrossSideOrder → SameTimestampCrossSideOrder
  | .bidBeforeAsk => .askBeforeBid
  | .askBeforeBid => .bidBeforeAsk

def ResearchPositionDirection.mirror : ResearchPositionDirection → ResearchPositionDirection
  | .long => .short
  | .short => .long

def ExactHistoricalQuote.mirror (quote : ExactHistoricalQuote ℚ) : ExactHistoricalQuote ℚ :=
  { quote with price := K - quote.price }

def CanonicalBarSignalResearchDecision.mirror (decision : CanonicalBarSignalResearchDecision ℚ) :
    CanonicalBarSignalResearchDecision ℚ :=
  { decision with
    direction := decision.direction.mirror
    stopPrice := K - decision.stopPrice
    targetPrice := K - decision.targetPrice }

def ClosedCanonicalBarTrailingThreshold.mirror
    (threshold : ClosedCanonicalBarTrailingThreshold ℚ) : ClosedCanonicalBarTrailingThreshold ℚ :=
  { threshold with
    direction := threshold.direction.mirror
    thresholdPrice := K - threshold.thresholdPrice }

def QuoteValidatedResearchReplayPolicy.mirror (policy : QuoteValidatedResearchReplayPolicy ℚ) :
    QuoteValidatedResearchReplayPolicy ℚ :=
  { policy with
    reviewedSameTimestampMergeRule := policy.reviewedSameTimestampMergeRule.map fun rule =>
      { rule with sideOrder := rule.sideOrder.mirror } }

def CompleteQuoteSideCoverage.mirror (coverage : CompleteQuoteSideCoverage ℚ) :
    CompleteQuoteSideCoverage ℚ :=
  { coverage with
    side := coverage.side.mirror
    quoteRecords := coverage.quoteRecords.map (·.mirror K) }

def CompleteBidAskQuoteReplayEvidence.mirror (evidence : CompleteBidAskQuoteReplayEvidence ℚ) :
    CompleteBidAskQuoteReplayEvidence ℚ :=
  { evidence with bid := evidence.ask.mirror K, ask := evidence.bid.mirror K }

def SelectedEntryBook.mirror (entry : SelectedEntryBook ℚ) : SelectedEntryBook ℚ :=
  ⟨entry.entryQuote.mirror K, entry.askQuote.mirror K, entry.bidQuote.mirror K⟩

def EntrySelection.mirror : EntrySelection ℚ → EntrySelection ℚ
  | .available entry => .available (entry.mirror K)
  | .unavailable nonEntry => .unavailable nonEntry

def uncheckedPrice (referencePrice : ℚ) (direction : ResearchPositionDirection) (isEntry : Bool)
    (assumptions : VersionedLatencySlippagePolicy ℚ) : ℚ :=
  let adjustment := assumptions.slippagePipsPerFill * assumptions.pipSize
  match direction, isEntry with
  | .long, true | .short, false => referencePrice + adjustment
  | .short, true | .long, false => referencePrice - adjustment

def QuoteValidatedResearchReplayPlan.mirror (plan : QuoteValidatedResearchReplayPlan ℚ) :
    QuoteValidatedResearchReplayPlan ℚ :=
  { plan with
    policy := plan.policy.mirror
    decisions := plan.decisions.map (·.mirror K)
    trailingThresholds := plan.trailingThresholds.map (·.mirror K) }

def QuoteValidatedPriceReference.mirror (reference : QuoteValidatedPriceReference ℚ) :
    QuoteValidatedPriceReference ℚ :=
  { reference with side := reference.side.mirror, price := K - reference.price }

def QuoteValidatedResearchPosition.mirror (position : QuoteValidatedResearchPosition ℚ) :
    QuoteValidatedResearchPosition ℚ :=
  { position with
    direction := position.direction.mirror
    entryBook :=
      ⟨position.entryBook.askReference.mirror K, position.entryBook.bidReference.mirror K⟩
    entryReference := position.entryReference.mirror K
    exitReference := position.exitReference.map (·.mirror K)
    modeledEntryPrice := K - position.modeledEntryPrice
    modeledExitPrice := position.modeledExitPrice.map (K - ·) }

def priceNotPositive : ReplayError :=
  ⟨.invalidPolicy, "modeled latency/slippage price is not finite and positive"⟩

def uncheckedExit (decision : CanonicalBarSignalResearchDecision ℚ)
    (assumptions : VersionedLatencySlippagePolicy ℚ) :
    Option (ExactHistoricalQuote ℚ × QuoteValidatedResearchExitReason) →
      Option (QuoteValidatedPriceReference ℚ) × Option QuoteValidatedResearchExitReason ×
        Option ℚ × ℚ
  | some (exitQuote, exitReason) =>
    (some (.fromQuote decision.direction.exitSide exitQuote), some exitReason,
      some (uncheckedPrice exitQuote.price decision.direction false assumptions),
      assumptions.slippagePipsPerFill * 2)
  | none => (none, none, none, assumptions.slippagePipsPerFill)

/-- `replayPosition` without the positivity checks. -/
def uncheckedPosition (plan : QuoteValidatedResearchReplayPlan ℚ)
    (evidence : CompleteBidAskQuoteReplayEvidence ℚ)
    (decision : CanonicalBarSignalResearchDecision ℚ) (selectedEntry : SelectedEntryBook ℚ) :
    Except ReplayError (QuoteValidatedResearchPosition ℚ) := do
  let modeledEntryPrice := uncheckedPrice selectedEntry.entryQuote.price decision.direction true
    plan.policy.latencySlippage
  refuseIf (¬modeledEntryWithinBounds decision modeledEntryPrice) .modeledEntryOutsideDecisionBounds
    "modeled entry is not strictly inside the decision stop-target interval"
  let selectedExit ← selectExit decision selectedEntry.entryQuote evidence plan.policy
    plan.trailingThresholds plan.timeExit
  let (exitReference, exitReason, modeledExitPrice, slippagePipsCharged) :=
    uncheckedExit decision plan.policy.latencySlippage selectedExit
  return ⟨decision.direction,
    ⟨.fromQuote .bid selectedEntry.bidQuote, .fromQuote .ask selectedEntry.askQuote⟩,
    .fromQuote decision.direction.entrySide selectedEntry.entryQuote, exitReference, exitReason,
    modeledEntryPrice, modeledExitPrice, slippagePipsCharged, 0⟩

end Definitions

variable {K : ℚ} {direction : ResearchPositionDirection}
  {decision : CanonicalBarSignalResearchDecision ℚ} {quote : ExactHistoricalQuote ℚ}
  {quotes : List (ExactHistoricalQuote ℚ)} {evidence : CompleteBidAskQuoteReplayEvidence ℚ}
  {policy : QuoteValidatedResearchReplayPolicy ℚ}
  {thresholds : List (ClosedCanonicalBarTrailingThreshold ℚ)}
  {timeExit : Option ClosedCanonicalBarTimeExit}

section Sides

@[simp] theorem ExactHistoricalQuote.mirror_timestampUnixMs :
    (quote.mirror K).timestampUnixMs = quote.timestampUnixMs := rfl

@[simp] theorem ExactHistoricalQuote.mirror_price : (quote.mirror K).price = K - quote.price := rfl

theorem mirror_entrySide : direction.mirror.entrySide = direction.entrySide.mirror := by
  cases direction <;> rfl

theorem mirror_exitSide : direction.mirror.exitSide = direction.exitSide.mirror := by
  cases direction <;> rfl

theorem quotes_mirror (side : QuoteSide) :
    (evidence.mirror K).quotes side.mirror = (evidence.quotes side).map (·.mirror K) := by
  cases side <;> rfl

theorem sidePrecedes_mirror (first second : QuoteSide) (order : SameTimestampCrossSideOrder) :
    sidePrecedes first.mirror second.mirror order.mirror = sidePrecedes first second order := by
  cases first <;> cases second <;> cases order <;> rfl

end Sides

section Entry

theorem refuseIf_congr {first second : Prop} [Decidable first] [Decidable second]
    (h : first ↔ second) (code : ReplayErrorCode) (detail : String) :
    refuseIf first code detail = refuseIf second code detail := by
  unfold refuseIf
  simp only [h]

theorem partitionPoint_lt_mirror (timestampUnixMs : Int) :
    Slice.partitionPoint (·.timestampUnixMs < timestampUnixMs) (quotes.map (·.mirror K)) =
      Slice.partitionPoint (·.timestampUnixMs < timestampUnixMs) quotes :=
  Slice.partitionPoint_map _ _ _

theorem partitionPoint_le_mirror (timestampUnixMs : Int) :
    Slice.partitionPoint (·.timestampUnixMs ≤ timestampUnixMs) (quotes.map (·.mirror K)) =
      Slice.partitionPoint (·.timestampUnixMs ≤ timestampUnixMs) quotes :=
  Slice.partitionPoint_map _ _ _

theorem latestBookQuoteAtEntry_mirror (oppositeSide entrySide : QuoteSide)
    (candidateTimestampUnixMs : Int) :
    latestBookQuoteAtEntry oppositeSide.mirror entrySide.mirror (quotes.map (·.mirror K))
        candidateTimestampUnixMs policy.mirror =
      (latestBookQuoteAtEntry oppositeSide entrySide quotes candidateTimestampUnixMs policy).map
        (Option.map (·.mirror K)) := by
  unfold latestBookQuoteAtEntry
  simp only [partitionPoint_lt_mirror, partitionPoint_le_mirror, Slice.before_map]
  by_cases hsame : Slice.partitionPoint (·.timestampUnixMs < candidateTimestampUnixMs) quotes =
      Slice.partitionPoint (·.timestampUnixMs ≤ candidateTimestampUnixMs) quotes
  · simp only [hsame, if_true]
    rfl
  · simp only [hsame, if_false]
    unfold QuoteValidatedResearchReplayPolicy.mirror
    cases hrule : policy.reviewedSameTimestampMergeRule with
    | none => rfl
    | some rule =>
      simp only [Option.map_some, sidePrecedes_mirror]
      split <;> rfl

theorem freshBookQuote_mirror (candidate : ExactHistoricalQuote ℚ)
    (bookQuote : Option (ExactHistoricalQuote ℚ)) :
    freshBookQuote policy.mirror (candidate.mirror K) (bookQuote.map (·.mirror K)) =
      (freshBookQuote policy candidate bookQuote).map (·.mirror K) := by
  unfold freshBookQuote
  rw [Option.filter_map]
  rfl

/-- A mirrored book is crossed when the book is: bid and ask change places and order. -/
theorem entryBookAt_mirror (candidate bookQuote : ExactHistoricalQuote ℚ) :
    entryBookAt direction.mirror (candidate.mirror K) (bookQuote.mirror K) =
      (entryBookAt direction candidate bookQuote).map (·.mirror K) := by
  have crossed (x y : ℚ) : K - x < K - y ↔ y < x := sub_lt_sub_iff_left K
  cases direction with
  | long =>
    show (refuseIf (K - bookQuote.price < K - candidate.price) _ _ >>= _) = _
    rw [refuseIf_congr (crossed bookQuote.price candidate.price)]
    exact Fallible.bind_map _ fun _ => rfl
  | short =>
    show (refuseIf (K - candidate.price < K - bookQuote.price) _ _ >>= _) = _
    rw [refuseIf_congr (crossed candidate.price bookQuote.price)]
    exact Fallible.bind_map _ fun _ => rfl

theorem selectEntryFrom_mirror (deadline : Int) (sawStaleCandidate : Bool)
    (candidates : List (ExactHistoricalQuote ℚ)) :
    selectEntryFrom (decision.mirror K) policy.mirror (quotes.map (·.mirror K)) deadline
        sawStaleCandidate (candidates.map (·.mirror K)) =
      (selectEntryFrom decision policy quotes deadline sawStaleCandidate candidates).map
        (EntrySelection.mirror K) := by
  induction candidates generalizing sawStaleCandidate with
  | nil => rfl
  | cons candidate candidates ih =>
    have hexit : (decision.mirror K).direction.exitSide = decision.direction.exitSide.mirror :=
      mirror_exitSide
    have hentry : (decision.mirror K).direction.entrySide = decision.direction.entrySide.mirror :=
      mirror_entrySide
    rw [List.map_cons]
    simp only [selectEntryFrom, hexit, hentry, ExactHistoricalQuote.mirror_timestampUnixMs,
      latestBookQuoteAtEntry_mirror]
    split
    next => rfl
    next =>
      apply Fallible.map_bind_map
      intro bookQuote
      rw [freshBookQuote_mirror]
      cases freshBookQuote policy candidate bookQuote with
      | none => exact ih true
      | some bookQuote =>
        show (entryBookAt decision.direction.mirror (candidate.mirror K) (bookQuote.mirror K) >>=
          _) = _
        rw [entryBookAt_mirror]
        exact Fallible.map_bind_map _ fun _ => rfl

theorem selectEntry_mirror :
    selectEntry (decision.mirror K) (evidence.mirror K) policy.mirror =
      (selectEntry decision evidence policy).map (EntrySelection.mirror K) := by
  have hentry : (evidence.mirror K).quotes (decision.mirror K).direction.entrySide =
      (evidence.quotes decision.direction.entrySide).map (·.mirror K) :=
    (congrArg _ mirror_entrySide).trans (quotes_mirror _)
  have hopposite : (evidence.mirror K).quotes (decision.mirror K).direction.exitSide =
      (evidence.quotes decision.direction.exitSide).map (·.mirror K) :=
    (congrArg _ mirror_exitSide).trans (quotes_mirror _)
  unfold selectEntry
  rw [hentry, hopposite]
  apply Fallible.bind_map
  intro eligibleAt
  apply Fallible.bind_map
  intro deadline
  simp only [partitionPoint_lt_mirror, ← List.map_drop]
  exact selectEntryFrom_mirror deadline false _

end Entry

section Exit

theorem effectiveStopPrice_mirror (timestampUnixMs : Int) :
    effectiveStopPrice (decision.mirror K) (thresholds.map (·.mirror K)) timestampUnixMs =
      Prod.map (K - ·) id (effectiveStopPrice decision thresholds timestampUnixMs) := by
  have hcount : Slice.partitionPoint (·.effectiveAtNextBarOpenUnixMs ≤ timestampUnixMs)
      (thresholds.map (·.mirror K)) =
      Slice.partitionPoint (·.effectiveAtNextBarOpenUnixMs ≤ timestampUnixMs) thresholds :=
    Slice.partitionPoint_map _ _ _
  unfold effectiveStopPrice
  simp only [hcount, Slice.before_map]
  generalize Slice.before thresholds _ = threshold
  unfold CanonicalBarSignalResearchDecision.mirror
  cases threshold with
  | none => rfl
  | some threshold =>
    unfold ClosedCanonicalBarTrailingThreshold.mirror
    cases hdirection : decision.direction with
    | long =>
      by_cases htighter : decision.stopPrice < threshold.thresholdPrice <;>
        simp [ResearchPositionDirection.mirror, Option.filter_some, htighter]
    | short =>
      by_cases htighter : threshold.thresholdPrice < decision.stopPrice <;>
        simp [ResearchPositionDirection.mirror, Option.filter_some, htighter]

theorem thresholdReason_mirror :
    thresholdReason (decision.mirror K) (thresholds.map (·.mirror K)) (quote.mirror K) =
      thresholdReason decision thresholds quote := by
  unfold thresholdReason
  rw [ExactHistoricalQuote.mirror_timestampUnixMs, effectiveStopPrice_mirror]
  unfold CanonicalBarSignalResearchDecision.mirror
  obtain ⟨stopPrice, stopReason⟩ := effectiveStopPrice decision thresholds quote.timestampUnixMs
  have ordered (x y : ℚ) : K - x ≤ K - y ↔ y ≤ x := sub_le_sub_iff_left K
  cases hdirection : decision.direction with
  | long =>
    simp only [ResearchPositionDirection.mirror, Prod.map, ExactHistoricalQuote.mirror_price,
      ordered, id]
  | short =>
    simp only [ResearchPositionDirection.mirror, Prod.map, ExactHistoricalQuote.mirror_price,
      ordered, id]

theorem sameTimestampExitOccursAfterEntry_mirror (entrySide exitSide : QuoteSide) :
    sameTimestampExitOccursAfterEntry entrySide.mirror exitSide.mirror policy.mirror =
      sameTimestampExitOccursAfterEntry entrySide exitSide policy := by
  unfold sameTimestampExitOccursAfterEntry QuoteValidatedResearchReplayPolicy.mirror
  rw [Option.map_map]
  congr 1
  funext rule
  exact sidePrecedes_mirror entrySide exitSide rule.sideOrder

theorem exitTrigger_mirror (entryQuote : ExactHistoricalQuote ℚ) (timerAt : Option Int) :
    exitTrigger (decision.mirror K) (entryQuote.mirror K) policy.mirror
        (thresholds.map (·.mirror K)) timerAt (quote.mirror K) =
      exitTrigger decision entryQuote policy thresholds timerAt quote := by
  have hentry : (decision.mirror K).direction.entrySide = decision.direction.entrySide.mirror :=
    mirror_entrySide
  have hexit : (decision.mirror K).direction.exitSide = decision.direction.exitSide.mirror :=
    mirror_exitSide
  unfold exitTrigger
  simp only [thresholdReason_mirror, hentry, hexit, sameTimestampExitOccursAfterEntry_mirror,
    ExactHistoricalQuote.mirror_timestampUnixMs]
  rfl

theorem selectExitReference_mirror (firstIndex : Nat) (triggerAtUnixMs : Int)
    (reason : QuoteValidatedResearchExitReason) :
    selectExitReference (quotes.map (·.mirror K)) firstIndex triggerAtUnixMs reason policy.mirror =
      (selectExitReference quotes firstIndex triggerAtUnixMs reason policy).map
        (Option.map (Prod.map (·.mirror K) id)) := by
  unfold selectExitReference
  apply Fallible.bind_map
  intro eligibleAt
  apply Fallible.bind_map
  intro deadline
  simp only [← List.map_drop, partitionPoint_lt_mirror, List.getElem?_map, Option.filter_map]
  cases (quotes.drop firstIndex)[Slice.partitionPoint
      (fun quote => quote.timestampUnixMs < eligibleAt) (quotes.drop firstIndex)]? with
  | none => rfl
  | some reference =>
    show (okOrElse ((Option.filter (fun quote => decide (quote.timestampUnixMs ≤ deadline))
      (some reference)).map (·.mirror K)) _ _ >>= _) = _
    cases Option.filter (fun quote => decide (quote.timestampUnixMs ≤ deadline))
        (some reference) with
    | none => rfl
    | some reference => rfl

theorem selectExitFrom_mirror (entryQuote : ExactHistoricalQuote ℚ) (timerAt : Option Int)
    (triggerIndex : Nat) (triggerQuotes : List (ExactHistoricalQuote ℚ)) :
    selectExitFrom (decision.mirror K) (entryQuote.mirror K) policy.mirror
        (thresholds.map (·.mirror K)) timerAt (quotes.map (·.mirror K)) triggerIndex
        (triggerQuotes.map (·.mirror K)) =
      (selectExitFrom decision entryQuote policy thresholds timerAt quotes triggerIndex
        triggerQuotes).map (Option.map (Prod.map (·.mirror K) id)) := by
  induction triggerQuotes generalizing triggerIndex with
  | nil =>
    cases timerAt with
    | none => rfl
    | some timer =>
      show selectExitReference _ (quotes.map _).length timer .maxHold _ = _
      rw [List.length_map, selectExitReference_mirror]
      rfl
  | cons triggerQuote triggerQuotes ih =>
    rw [List.map_cons]
    simp only [selectExitFrom, exitTrigger_mirror]
    apply Fallible.bind_map
    intro triggered
    cases triggered with
    | none => exact ih (triggerIndex + 1)
    | some triggered => exact selectExitReference_mirror triggerIndex triggered.1 triggered.2

theorem selectExit_mirror (entryQuote : ExactHistoricalQuote ℚ) :
    selectExit (decision.mirror K) (entryQuote.mirror K) (evidence.mirror K) policy.mirror
        (thresholds.map (·.mirror K)) timeExit =
      (selectExit decision entryQuote evidence policy thresholds timeExit).map
        (Option.map (Prod.map (·.mirror K) id)) := by
  have hexit : (evidence.mirror K).quotes (decision.mirror K).direction.exitSide =
      (evidence.quotes decision.direction.exitSide).map (·.mirror K) :=
    (congrArg _ mirror_exitSide).trans (quotes_mirror _)
  have hfirst (quotes : List (ExactHistoricalQuote ℚ)) : Slice.partitionPoint
      (fun quote => quote.timestampUnixMs < (entryQuote.mirror K).timestampUnixMs)
      (quotes.map (·.mirror K)) =
      Slice.partitionPoint (·.timestampUnixMs < entryQuote.timestampUnixMs) quotes :=
    partitionPoint_lt_mirror _
  unfold selectExit
  rw [hexit]
  apply Fallible.bind_map
  intro _
  simp only [hfirst, ← List.map_drop]
  exact selectExitFrom_mirror entryQuote _ _ _

end Exit

section Prices

variable {referencePrice : ℚ} {isEntry : Bool} {assumptions : VersionedLatencySlippagePolicy ℚ}

/-- The modeled price is the unchecked one, once that is positive. -/
theorem modeledPrice_eq :
    modeledPrice referencePrice direction isEntry assumptions =
      if uncheckedPrice referencePrice direction isEntry assumptions ≤ 0 then
        .error priceNotPositive
      else .ok (uncheckedPrice referencePrice direction isEntry assumptions) := by
  unfold modeledPrice uncheckedPrice refuseIf
  cases direction <;> cases isEntry <;>
    simp only [one_mul, neg_one_mul, ← sub_eq_add_neg] <;> split <;> rfl

theorem uncheckedPrice_mirror :
    uncheckedPrice (K - referencePrice) direction.mirror isEntry assumptions =
      K - uncheckedPrice referencePrice direction isEntry assumptions := by
  unfold uncheckedPrice ResearchPositionDirection.mirror
  cases direction <;> cases isEntry <;> dsimp only <;> ring

theorem modeledEntryWithinBounds_mirror (modeledEntryPrice : ℚ) :
    modeledEntryWithinBounds (decision.mirror K) (K - modeledEntryPrice) =
      modeledEntryWithinBounds decision modeledEntryPrice := by
  unfold modeledEntryWithinBounds CanonicalBarSignalResearchDecision.mirror
  cases hdirection : decision.direction with
  | long => simp [ResearchPositionDirection.mirror]
  | short => simp [ResearchPositionDirection.mirror]

end Prices

section Positions

variable {plan : QuoteValidatedResearchReplayPlan ℚ} {selectedEntry : SelectedEntryBook ℚ}

theorem modeledPrice_cases (referencePrice : ℚ) (direction : ResearchPositionDirection)
    (isEntry : Bool) (assumptions : VersionedLatencySlippagePolicy ℚ) :
    modeledPrice referencePrice direction isEntry assumptions =
        .ok (uncheckedPrice referencePrice direction isEntry assumptions) ∨
      modeledPrice referencePrice direction isEntry assumptions = .error priceNotPositive := by
  rw [modeledPrice_eq]
  split
  next => exact .inr rfl
  next => exact .inl rfl

theorem modeledExit_cases (decision : CanonicalBarSignalResearchDecision ℚ)
    (assumptions : VersionedLatencySlippagePolicy ℚ)
    (selectedExit : Option (ExactHistoricalQuote ℚ × QuoteValidatedResearchExitReason)) :
    modeledExit decision assumptions selectedExit =
        .ok (uncheckedExit decision assumptions selectedExit) ∨
      modeledExit decision assumptions selectedExit = .error priceNotPositive := by
  cases selectedExit with
  | none => exact .inl rfl
  | some selected =>
    obtain hprice | hprice :=
      modeledPrice_cases selected.1.price decision.direction false assumptions
    · left
      show (modeledPrice selected.1.price _ _ _ >>= _) = _
      rw [hprice]
      rfl
    · right
      show (modeledPrice selected.1.price _ _ _ >>= _) = _
      rw [hprice]
      rfl

theorem replayPosition_cases (plan : QuoteValidatedResearchReplayPlan ℚ)
    (evidence : CompleteBidAskQuoteReplayEvidence ℚ)
    (decision : CanonicalBarSignalResearchDecision ℚ) (selectedEntry : SelectedEntryBook ℚ) :
    replayPosition plan evidence decision selectedEntry =
        uncheckedPosition plan evidence decision selectedEntry ∨
      replayPosition plan evidence decision selectedEntry = .error priceNotPositive := by
  unfold replayPosition uncheckedPosition
  dsimp only [QuoteValidatedPriceReference.fromQuote]
  obtain hprice | hprice := modeledPrice_cases selectedEntry.entryQuote.price decision.direction
    true plan.policy.latencySlippage
  · rw [hprice]
    dsimp only [Fallible.ok_bind]
    cases refuseIf (¬modeledEntryWithinBounds decision (uncheckedPrice
        selectedEntry.entryQuote.price decision.direction true plan.policy.latencySlippage))
        .modeledEntryOutsideDecisionBounds
        "modeled entry is not strictly inside the decision stop-target interval" with
    | error e => exact .inl rfl
    | ok _ =>
      cases selectExit decision selectedEntry.entryQuote evidence plan.policy
          plan.trailingThresholds plan.timeExit with
      | error e => exact .inl rfl
      | ok selectedExit =>
        obtain hexit | hexit := modeledExit_cases decision plan.policy.latencySlippage selectedExit
        · left
          dsimp only [Fallible.ok_bind]
          rw [hexit]
          rfl
        · right
          dsimp only [Fallible.ok_bind]
          rw [hexit]
          rfl
  · right
    rw [hprice]
    rfl

theorem uncheckedExit_mirror (assumptions : VersionedLatencySlippagePolicy ℚ)
    (selectedExit : Option (ExactHistoricalQuote ℚ × QuoteValidatedResearchExitReason)) :
    uncheckedExit (decision.mirror K) assumptions
        (selectedExit.map (Prod.map (·.mirror K) id)) =
      Prod.map (Option.map (·.mirror K)) (Prod.map id (Prod.map (Option.map (K - ·)) id))
        (uncheckedExit decision assumptions selectedExit) := by
  cases selectedExit with
  | none => rfl
  | some selected =>
    have hside : (decision.mirror K).direction.exitSide = decision.direction.exitSide.mirror :=
      mirror_exitSide
    have hprice : uncheckedPrice (K - selected.1.price) (decision.mirror K).direction false
        assumptions = K - uncheckedPrice selected.1.price decision.direction false assumptions :=
      uncheckedPrice_mirror
    show (_, _, _, _) = _
    rw [hside]
    show (_, _, some (uncheckedPrice (K - selected.1.price) _ false assumptions), _) = _
    rw [hprice]
    rfl

theorem uncheckedPosition_mirror :
    uncheckedPosition (plan.mirror K) (evidence.mirror K) (decision.mirror K)
        (selectedEntry.mirror K) =
      (uncheckedPosition plan evidence decision selectedEntry).map (·.mirror K) := by
  have hprice : uncheckedPrice (selectedEntry.mirror K).entryQuote.price
      (decision.mirror K).direction true (plan.mirror K).policy.latencySlippage =
      K - uncheckedPrice selectedEntry.entryQuote.price decision.direction true
        plan.policy.latencySlippage := uncheckedPrice_mirror
  have hside : (decision.mirror K).direction.entrySide = decision.direction.entrySide.mirror :=
    mirror_entrySide
  unfold uncheckedPosition
  rw [hprice]
  dsimp only
  rw [modeledEntryWithinBounds_mirror]
  apply Fallible.bind_map
  intro _
  show (selectExit (decision.mirror K) (selectedEntry.entryQuote.mirror K) (evidence.mirror K)
    plan.policy.mirror (plan.trailingThresholds.map (·.mirror K)) plan.timeExit >>= _) = _
  rw [selectExit_mirror]
  apply Fallible.map_bind_map
  intro selectedExit
  have hexit : uncheckedExit (decision.mirror K) (plan.mirror K).policy.latencySlippage
      (selectedExit.map (Prod.map (·.mirror K) id)) = _ :=
    uncheckedExit_mirror plan.policy.latencySlippage selectedExit
  rw [hexit, hside]
  rfl

/-- The replay of a mirrored plan over mirrored evidence: the same book enters with the two sides
exchanged, the same quote leaves for the same reason, the same entries are out of bounds, and every
modeled price is mirrored. The modeled price of the replay is that price exactly where it is positive
and refused elsewhere, so that the replay of an entry is the mirrored one or that refusal. -/
theorem replay_mirror (K : ℚ) (plan : QuoteValidatedResearchReplayPlan ℚ)
    (evidence : CompleteBidAskQuoteReplayEvidence ℚ)
    (decision : CanonicalBarSignalResearchDecision ℚ) :
    selectEntry (decision.mirror K) (evidence.mirror K) (plan.mirror K).policy =
        (selectEntry decision evidence plan.policy).map (EntrySelection.mirror K) ∧
      (∀ entryQuote : ExactHistoricalQuote ℚ,
        selectExit (decision.mirror K) (entryQuote.mirror K) (evidence.mirror K)
            (plan.mirror K).policy (plan.mirror K).trailingThresholds (plan.mirror K).timeExit =
          (selectExit decision entryQuote evidence plan.policy plan.trailingThresholds
            plan.timeExit).map (Option.map (Prod.map (·.mirror K) id))) ∧
      (∀ (referencePrice : ℚ) (isEntry : Bool) (assumptions : VersionedLatencySlippagePolicy ℚ),
        uncheckedPrice (K - referencePrice) (decision.mirror K).direction isEntry assumptions =
          K - uncheckedPrice referencePrice decision.direction isEntry assumptions) ∧
      (∀ (referencePrice : ℚ) (isEntry : Bool) (assumptions : VersionedLatencySlippagePolicy ℚ),
        modeledPrice referencePrice decision.direction isEntry assumptions =
          if uncheckedPrice referencePrice decision.direction isEntry assumptions ≤ 0 then
            .error priceNotPositive
          else .ok (uncheckedPrice referencePrice decision.direction isEntry assumptions)) ∧
      (∀ modeledEntryPrice : ℚ,
        modeledEntryWithinBounds (decision.mirror K) (K - modeledEntryPrice) =
          modeledEntryWithinBounds decision modeledEntryPrice) ∧
      (∀ selectedEntry : SelectedEntryBook ℚ,
        uncheckedPosition (plan.mirror K) (evidence.mirror K) (decision.mirror K)
            (selectedEntry.mirror K) =
          (uncheckedPosition plan evidence decision selectedEntry).map (·.mirror K)) ∧
      ∀ selectedEntry : SelectedEntryBook ℚ,
        replayPosition plan evidence decision selectedEntry =
            uncheckedPosition plan evidence decision selectedEntry ∨
          replayPosition plan evidence decision selectedEntry = .error priceNotPositive :=
  ⟨selectEntry_mirror, fun entryQuote => selectExit_mirror entryQuote,
    fun _ _ _ => uncheckedPrice_mirror, fun _ _ _ => modeledPrice_eq,
    modeledEntryWithinBounds_mirror,
    fun _ => uncheckedPosition_mirror, replayPosition_cases plan evidence decision⟩

end Positions

end Neoethos
