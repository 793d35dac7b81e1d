import Neoethos.ReplayAccepted

namespace Neoethos

open Fallible

variable {P : Type} {window : EvidenceWindow} {quotes : List (ExactHistoricalQuote P)}

theorem not_before_iff {t : Int} {quote : ExactHistoricalQuote P} :
    (!decide (quote.timestampUnixMs < t)) = decide (t ≤ quote.timestampUnixMs) := by
  rw [← decide_not, decide_eq_decide]
  omega

theorem drop_eligible (h : QuotesInOrder window quotes) (t : Int) :
    quotes.drop (Slice.partitionPoint (fun quote => quote.timestampUnixMs < t) quotes) =
      quotes.filter fun quote => t ≤ quote.timestampUnixMs := by
  rw [Slice.drop_partitionPoint (h.partitioned_lt t)]
  simp only [not_before_iff]

/-- The book only depends on the quotes up to the candidate's timestamp. -/
theorem latestBookQuoteAtEntry_congr {quotes' : List (ExactHistoricalQuote P)}
    (h : QuotesInOrder window quotes) (h' : QuotesInOrder window quotes') {t : Int}
    (hbefore : quotes.filter (fun quote => quote.timestampUnixMs < t) =
      quotes'.filter fun quote => quote.timestampUnixMs < t)
    (hupTo : quotes.filter (fun quote => quote.timestampUnixMs ≤ t) =
      quotes'.filter fun quote => quote.timestampUnixMs ≤ t)
    {oppositeSide entrySide : QuoteSide} {policy : QuoteValidatedResearchReplayPolicy P} :
    latestBookQuoteAtEntry oppositeSide entrySide quotes t policy =
      latestBookQuoteAtEntry oppositeSide entrySide quotes' t policy := by
  have hlt := h.partitioned_lt t
  have hle := h.partitioned_le t
  have hlt' := h'.partitioned_lt t
  have hle' := h'.partitioned_le t
  simp only [latestBookQuoteAtEntry, Slice.partitionPoint_eq hlt, Slice.partitionPoint_eq hle,
    Slice.partitionPoint_eq hlt', Slice.partitionPoint_eq hle', Slice.before_length_filter hlt,
    Slice.before_length_filter hle, Slice.before_length_filter hlt', Slice.before_length_filter hle']
  rw [hbefore, hupTo]

/-- The exit is the first quote behind the trigger that the latency allows. -/
theorem selectExitReference_ok_iff {firstIndex : Nat} {triggerAt : Int}
    {reason : QuoteValidatedResearchExitReason} {policy : QuoteValidatedResearchReplayPolicy P}
    {exit : Option (ExactHistoricalQuote P × QuoteValidatedResearchExitReason)}
    (h : QuotesInOrder window quotes) :
    selectExitReference quotes firstIndex triggerAt reason policy = .ok exit ↔
      I64.InRange (triggerAt + policy.latencySlippage.exitLatencyMs) ∧
      I64.InRange (triggerAt + policy.maxExitWaitMs) ∧
      ∃ quote, exit = some (quote, reason) ∧
        (quotes.drop firstIndex).find? (fun quote =>
          triggerAt + policy.latencySlippage.exitLatencyMs ≤ quote.timestampUnixMs) = some quote ∧
        quote.timestampUnixMs ≤ triggerAt + policy.maxExitWaitMs := by
  have hpart := (h.sublist (List.drop_sublist firstIndex quotes)).partitioned_lt
    (triggerAt + policy.latencySlippage.exitLatencyMs)
  have hget := Slice.getElem?_partitionPoint hpart
  simp only [not_before_iff] at hget
  unfold selectExitReference
  simp only [bind_ok_iff, okOrElse_ok, I64.checkedAdd_eq_some]
  constructor
  · intro hok
    obtain ⟨_, ⟨hlatency, rfl⟩, _, ⟨hwait, rfl⟩, quote, hfind, hexit⟩ := hok
    rw [hget] at hfind
    obtain ⟨hfound, hdeadline⟩ := Option.filter_eq_some_iff.mp hfind
    cases hexit
    exact ⟨hlatency, hwait, quote, rfl, hfound, by simpa using hdeadline⟩
  · intro hok
    obtain ⟨hlatency, hwait, quote, rfl, hfound, hdeadline⟩ := hok
    refine ⟨_, ⟨hlatency, rfl⟩, _, ⟨hwait, rfl⟩, quote, ?_, rfl⟩
    rw [hget]
    exact Option.filter_eq_some_iff.mpr ⟨hfound, by simpa using hdeadline⟩

section Searches

variable [LinearOrder P] {decision : CanonicalBarSignalResearchDecision P}
  {policy : QuoteValidatedResearchReplayPolicy P} {deadline : Int} {sawStaleCandidate : Bool}
  {oppositeQuotes candidates : List (ExactHistoricalQuote P)}
  {selection : EntrySelection P} {entryQuote : ExactHistoricalQuote P}
  {thresholds : List (ClosedCanonicalBarTrailingThreshold P)} {timerAt : Option Int}
  {exit : Option (ExactHistoricalQuote P × QuoteValidatedResearchExitReason)}

theorem entryBookAt_ok {direction : ResearchPositionDirection}
    {candidate bookQuote : ExactHistoricalQuote P} {entry : SelectedEntryBook P}
    (h : entryBookAt direction candidate bookQuote = .ok entry) : entry.entryQuote = candidate := by
  obtain ⟨-, hentry⟩ := check_ok_iff.mp h
  cases hentry
  rfl

theorem selectEntryFrom_cons {candidate : ExactHistoricalQuote P} :
    selectEntryFrom decision policy oppositeQuotes deadline sawStaleCandidate
        (candidate :: candidates) = .ok selection ↔
      (deadline < candidate.timestampUnixMs ∧
        selection = .unavailable (nonEntry decision deadline sawStaleCandidate)) ∨
      (candidate.timestampUnixMs ≤ deadline ∧ ∃ latest,
        latestBookQuoteAtEntry decision.direction.exitSide decision.direction.entrySide
          oppositeQuotes candidate.timestampUnixMs policy = .ok latest ∧
        ((∃ bookQuote entry, freshBookQuote policy candidate latest = some bookQuote ∧
          entryBookAt decision.direction candidate bookQuote = .ok entry ∧
          selection = .available entry) ∨
        (freshBookQuote policy candidate latest = none ∧
          selectEntryFrom decision policy oppositeQuotes deadline true candidates =
            .ok selection))) := by
  rw [selectEntryFrom]
  split
  next hlate => simp [hlate, not_le.mpr hlate, eq_comm]
  next hlate =>
    rw [bind_ok_iff]
    simp only [hlate, false_and, not_lt.mp hlate, true_and, false_or]
    apply exists_congr
    intro latest
    apply and_congr_right
    intro _
    cases hfresh : freshBookQuote policy candidate latest with
    | none => simp
    | some bookQuote =>
      simp only [bind_ok_iff, Option.some.injEq, reduceCtorEq, false_and, or_false]
      constructor
      · intro h
        obtain ⟨entry, hentry, h⟩ := h
        cases h
        exact ⟨bookQuote, entry, rfl, hentry, rfl⟩
      · intro h
        obtain ⟨_, entry, rfl, hentry, rfl⟩ := h
        exact ⟨entry, hentry, rfl⟩

theorem selectEntryFrom_available {entry : SelectedEntryBook P}
    (h : selectEntryFrom decision policy oppositeQuotes deadline sawStaleCandidate candidates =
      .ok (.available entry)) :
    entry.entryQuote ∈ candidates ∧ entry.entryQuote.timestampUnixMs ≤ deadline := by
  induction candidates generalizing sawStaleCandidate with
  | nil => simp [selectEntryFrom] at h
  | cons candidate candidates ih =>
    obtain ⟨-, h⟩ | ⟨htime, latest, -, ⟨bookQuote, found, -, hentry, h⟩ | ⟨-, h⟩⟩ :=
      selectEntryFrom_cons.mp h
    · cases h
    · cases h
      rw [entryBookAt_ok hentry]
      exact ⟨List.mem_cons_self, htime⟩
    · obtain ⟨hmem, hle⟩ := ih h
      exact ⟨List.mem_cons_of_mem _ hmem, hle⟩

theorem selectEntryFrom_unavailable {unavailable : QuoteValidatedResearchNonEntry}
    (h : selectEntryFrom decision policy oppositeQuotes deadline sawStaleCandidate candidates =
      .ok (.unavailable unavailable)) :
    unavailable.deadlineUnixMs = deadline := by
  induction candidates generalizing sawStaleCandidate with
  | nil =>
    cases h
    rfl
  | cons candidate candidates ih =>
    obtain ⟨-, h⟩ | ⟨-, latest, -, ⟨bookQuote, found, -, -, h⟩ | ⟨-, h⟩⟩ := selectEntryFrom_cons.mp h
    · cases h
      rfl
    · cases h
    · exact ih h

/-- When no candidate is left in time, the entry is unavailable. -/
theorem selectEntryFrom_late (h : ∀ quote ∈ candidates, deadline < quote.timestampUnixMs) :
    selectEntryFrom decision policy oppositeQuotes deadline sawStaleCandidate candidates =
      .ok (.unavailable (nonEntry decision deadline sawStaleCandidate)) := by
  cases candidates with
  | nil => rfl
  | cons candidate candidates =>
    exact selectEntryFrom_cons.mpr (.inl ⟨h candidate List.mem_cons_self, rfl⟩)

/-- The exit that the trigger loop finds stands behind its starting point. -/
theorem selectExitFrom_mem {triggerIndex : Nat} {triggers : List (ExactHistoricalQuote P)}
    (hquotes : QuotesInOrder window quotes) (hdrop : quotes.drop triggerIndex = triggers)
    {quote : ExactHistoricalQuote P} {reason : QuoteValidatedResearchExitReason}
    (h : selectExitFrom decision entryQuote policy thresholds timerAt quotes triggerIndex triggers =
      .ok (some (quote, reason))) : quote ∈ triggers := by
  induction triggers generalizing triggerIndex with
  | nil =>
    unfold selectExitFrom at h
    split at h
    next timer =>
      obtain ⟨-, -, found, -, hfind, -⟩ := (selectExitReference_ok_iff hquotes).mp h
      simp at hfind
    next => cases h
  | cons trigger triggers ih =>
    rw [selectExitFrom] at h
    obtain ⟨triggered, -, h⟩ := bind_ok_iff.mp h
    split at h
    next triggerAt reason =>
      obtain ⟨-, -, found, hsome, hfind, -⟩ := (selectExitReference_ok_iff hquotes).mp h
      cases hsome
      rw [hdrop] at hfind
      exact List.mem_of_find?_eq_some hfind
    next =>
      have hnext : quotes.drop (triggerIndex + 1) = triggers := by
        rw [← List.drop_drop, hdrop]
        rfl
      exact List.mem_cons_of_mem _ (ih hnext h)

theorem selectEntry_ok_iff {evidence : CompleteBidAskQuoteReplayEvidence P}
    (hquotes : QuotesInOrder window (evidence.quotes decision.direction.entrySide)) :
    selectEntry decision evidence policy = .ok selection ↔
      I64.InRange (decision.nextCanonicalBarOpenUnixMs + policy.latencySlippage.entryLatencyMs) ∧
      I64.InRange (decision.nextCanonicalBarOpenUnixMs + policy.maxEntryWaitMs) ∧
      selectEntryFrom decision policy (evidence.quotes decision.direction.exitSide)
        (decision.nextCanonicalBarOpenUnixMs + policy.maxEntryWaitMs) false
        ((evidence.quotes decision.direction.entrySide).filter fun quote =>
          decision.nextCanonicalBarOpenUnixMs + policy.latencySlippage.entryLatencyMs ≤
            quote.timestampUnixMs) = .ok selection := by
  unfold selectEntry
  simp only [bind_ok_iff, okOrElse_ok, I64.checkedAdd_eq_some]
  constructor
  · intro h
    obtain ⟨_, ⟨hlatency, rfl⟩, _, ⟨hwait, rfl⟩, h⟩ := h
    rw [drop_eligible hquotes] at h
    exact ⟨hlatency, hwait, h⟩
  · intro h
    obtain ⟨hlatency, hwait, h⟩ := h
    refine ⟨_, ⟨hlatency, rfl⟩, _, ⟨hwait, rfl⟩, ?_⟩
    rw [drop_eligible hquotes]
    exact h

theorem selectEntry_available {evidence : CompleteBidAskQuoteReplayEvidence P}
    (hquotes : QuotesInOrder window (evidence.quotes decision.direction.entrySide))
    {entry : SelectedEntryBook P} (h : selectEntry decision evidence policy = .ok (.available entry)) :
    decision.nextCanonicalBarOpenUnixMs + policy.latencySlippage.entryLatencyMs ≤
      entry.entryQuote.timestampUnixMs := by
  obtain ⟨-, -, h⟩ := (selectEntry_ok_iff hquotes).mp h
  obtain ⟨hmem, -⟩ := selectEntryFrom_available h
  simpa using (List.mem_filter.mp hmem).2

theorem selectEntry_unavailable {evidence : CompleteBidAskQuoteReplayEvidence P}
    (hquotes : QuotesInOrder window (evidence.quotes decision.direction.entrySide))
    {unavailable : QuoteValidatedResearchNonEntry}
    (h : selectEntry decision evidence policy = .ok (.unavailable unavailable)) :
    unavailable.deadlineUnixMs = decision.nextCanonicalBarOpenUnixMs + policy.maxEntryWaitMs := by
  obtain ⟨-, -, h⟩ := (selectEntry_ok_iff hquotes).mp h
  exact selectEntryFrom_unavailable h

theorem selectExit_ok_iff {evidence : CompleteBidAskQuoteReplayEvidence P}
    (hquotes : QuotesInOrder window (evidence.quotes decision.direction.exitSide))
    {timeExit : Option ClosedCanonicalBarTimeExit} :
    selectExit decision entryQuote evidence policy thresholds timeExit = .ok exit ↔
      (∀ timer ∈ timeExit, entryQuote.timestampUnixMs < timer.effectiveAtNextBarOpenUnixMs) ∧
      selectExitFrom decision entryQuote policy thresholds
        (timeExit.map (·.effectiveAtNextBarOpenUnixMs)) (evidence.quotes decision.direction.exitSide)
        (Slice.partitionPoint (fun quote => quote.timestampUnixMs < entryQuote.timestampUnixMs)
          (evidence.quotes decision.direction.exitSide))
        ((evidence.quotes decision.direction.exitSide).filter fun quote =>
          entryQuote.timestampUnixMs ≤ quote.timestampUnixMs) = .ok exit := by
  unfold selectExit
  rw [check_ok_iff, refuseIf_ok]
  simp only [drop_eligible hquotes]
  apply and_congr_left
  intro _
  cases timeExit with
  | none => simp
  | some timer => simp

theorem selectExit_mem {evidence : CompleteBidAskQuoteReplayEvidence P}
    (hquotes : QuotesInOrder window (evidence.quotes decision.direction.exitSide))
    {timeExit : Option ClosedCanonicalBarTimeExit} {quote : ExactHistoricalQuote P}
    {reason : QuoteValidatedResearchExitReason}
    (h : selectExit decision entryQuote evidence policy thresholds timeExit =
      .ok (some (quote, reason))) : entryQuote.timestampUnixMs ≤ quote.timestampUnixMs := by
  obtain ⟨-, h⟩ := (selectExit_ok_iff hquotes).mp h
  have hmem := selectExitFrom_mem hquotes (drop_eligible hquotes _) h
  simpa using (List.mem_filter.mp hmem).2

end Searches

end Neoethos
