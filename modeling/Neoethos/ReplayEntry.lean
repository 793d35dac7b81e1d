import Neoethos.ReplayOutcome

namespace Neoethos

open Fallible

variable {P : Type} {quotes : List (ExactHistoricalQuote P)}

/-- The two partition points of a timestamp meet exactly where no quote has it. -/
theorem partitionPoints_eq_iff
    (h : quotes.Pairwise fun a b => a.timestampUnixMs ≤ b.timestampUnixMs) (t : Int) :
    Slice.partitionPoint (fun quote => quote.timestampUnixMs < t) quotes =
        Slice.partitionPoint (fun quote => quote.timestampUnixMs ≤ t) quotes ↔
      ∀ quote ∈ quotes, quote.timestampUnixMs ≠ t := by
  rw [Slice.partitionPoint_eq (partitioned_lt_of_ascending h t),
    Slice.partitionPoint_eq (partitioned_le_of_ascending h t)]
  constructor
  · intro hlength quote hquote htime
    have hsub : (quotes.filter fun quote => quote.timestampUnixMs < t).Sublist
        (quotes.filter fun quote => quote.timestampUnixMs ≤ t) := by
      apply List.monotone_filter_right
      intro quote hlt
      simp only [decide_eq_true_eq] at hlt ⊢
      omega
    have hmem : quote ∈ quotes.filter fun quote => quote.timestampUnixMs ≤ t := by
      simp [hquote, htime]
    rw [← hsub.eq_of_length hlength] at hmem
    simp [htime] at hmem
  · intro hnone
    congr 1
    apply List.filter_congr
    intro quote hquote
    have hne := hnone quote hquote
    rw [decide_eq_decide]
    omega

section Reference

variable (decision : CanonicalBarSignalResearchDecision P)
  (evidence : CompleteBidAskQuoteReplayEvidence P) (policy : QuoteValidatedResearchReplayPolicy P)

/-- Whether a reviewed rule puts the opposite side first within one millisecond. -/
def oppositeFirst : Bool :=
  policy.reviewedSameTimestampMergeRule.any fun rule =>
    sidePrecedes decision.direction.exitSide decision.direction.entrySide rule.sideOrder

/-- The last opposite quote that a candidate at `t` sees. -/
def bookInForce (t : Int) : Option (ExactHistoricalQuote P) :=
  ((evidence.quotes decision.direction.exitSide).filter fun quote =>
    quote.timestampUnixMs < t || (quote.timestampUnixMs = t && oppositeFirst decision policy)).getLast?

/-- An opposite quote at `t`, and no rule that says on which side of the candidate it stands. -/
def ambiguousAt (t : Int) : Bool :=
  policy.reviewedSameTimestampMergeRule.isNone &&
    (evidence.quotes decision.direction.exitSide).any fun quote => quote.timestampUnixMs = t

def entryCandidates : List (ExactHistoricalQuote P) :=
  (evidence.quotes decision.direction.entrySide).filter fun quote =>
    decision.nextCanonicalBarOpenUnixMs + policy.latencySlippage.entryLatencyMs ≤ quote.timestampUnixMs &&
      quote.timestampUnixMs ≤ decision.nextCanonicalBarOpenUnixMs + policy.maxEntryWaitMs

def freshBookInForce (candidate : ExactHistoricalQuote P) : Option (ExactHistoricalQuote P) :=
  freshBookQuote policy candidate (bookInForce decision evidence policy candidate.timestampUnixMs)

variable {decision evidence policy}

/-- The two binary searches find the book in force, unless the candidate is ambiguous. -/
theorem latestBookQuoteAtEntry_eq {t : Int}
    (h : (evidence.quotes decision.direction.exitSide).Pairwise fun a b =>
      a.timestampUnixMs ≤ b.timestampUnixMs) :
    latestBookQuoteAtEntry decision.direction.exitSide decision.direction.entrySide
        (evidence.quotes decision.direction.exitSide) t policy =
      if ambiguousAt decision evidence policy t then
        .error ⟨.ambiguousSameTimestampCrossSideOutcome,
          "unreviewed same-timestamp opposite-side update makes the entry book ambiguous"⟩
      else .ok (bookInForce decision evidence policy t) := by
  have hmeet := partitionPoints_eq_iff h t
  have hlt := partitioned_lt_of_ascending h t
  have hle := partitioned_le_of_ascending h t
  have hbefore := Slice.before_length_filter hlt
  have hupTo := Slice.before_length_filter hle
  rw [← Slice.partitionPoint_eq hlt] at hbefore
  rw [← Slice.partitionPoint_eq hle] at hupTo
  simp only [latestBookQuoteAtEntry, hbefore, hupTo]
  split
  next heq =>
    have hnone := hmeet.mp heq
    have hambiguous : ambiguousAt decision evidence policy t = false := by
      simp only [ambiguousAt, Bool.and_eq_false_iff, List.any_eq_false, decide_eq_true_eq]
      exact .inr hnone
    have hbook : bookInForce decision evidence policy t =
        ((evidence.quotes decision.direction.exitSide).filter fun quote =>
          quote.timestampUnixMs < t).getLast? := by
      unfold bookInForce
      congr 1
      apply List.filter_congr
      intro quote hquote
      simp [hnone quote hquote]
    simp [hambiguous, hbook]
  next hne =>
    have hsome := mt hmeet.mpr hne
    push Not at hsome
    cases hrule : policy.reviewedSameTimestampMergeRule with
    | none =>
      have hambiguous : ambiguousAt decision evidence policy t = true := by
        simpa [ambiguousAt, hrule] using hsome
      simp [hambiguous]
    | some rule =>
      have hambiguous : ambiguousAt decision evidence policy t = false := by
        simp [ambiguousAt, hrule]
      simp only [hambiguous, bookInForce, oppositeFirst, hrule, Option.any_some, Bool.false_eq_true,
        if_false]
      cases sidePrecedes decision.direction.exitSide decision.direction.entrySide rule.sideOrder with
      | false => simp
      | true =>
        have hfilter : ∀ quote : ExactHistoricalQuote P,
            (decide (quote.timestampUnixMs < t) || (decide (quote.timestampUnixMs = t) && true)) =
              decide (quote.timestampUnixMs ≤ t) := by
          intro quote
          rw [Bool.and_true, ← Bool.decide_or, decide_eq_decide]
          omega
        simp only [if_true, hfilter]

variable [LinearOrder P]

variable (decision evidence policy) in
/-- What a scan of `candidates` returns: `examined` are those up to the first one with a fresh book,
or all of them. -/
def entryOutcome (sawStaleCandidate : Bool) (candidates : List (ExactHistoricalQuote P)) :
    Except ReplayError (EntrySelection P) :=
  let book := freshBookInForce decision evidence policy
  let examined := candidates.take (candidates.findIdx (fun candidate => (book candidate).isSome) + 1)
  if examined.any fun candidate => ambiguousAt decision evidence policy candidate.timestampUnixMs then
    .error ⟨.ambiguousSameTimestampCrossSideOutcome,
      "unreviewed same-timestamp opposite-side update makes the entry book ambiguous"⟩
  else
    match candidates.findSome? fun candidate => (book candidate).map (candidate, ·) with
    | some (candidate, bookQuote) => do
      let entry ← entryBookAt decision.direction candidate bookQuote
      return .available entry
    | none => .ok (.unavailable (nonEntry decision
        (decision.nextCanonicalBarOpenUnixMs + policy.maxEntryWaitMs)
        (sawStaleCandidate || !candidates.isEmpty)))

variable (decision evidence policy) in
def selectEntryReference : Except ReplayError (EntrySelection P) :=
  entryOutcome decision evidence policy false (entryCandidates decision evidence policy)

theorem entryOutcome_nil {sawStaleCandidate : Bool} :
    entryOutcome decision evidence policy sawStaleCandidate [] = .ok (.unavailable (nonEntry decision
      (decision.nextCanonicalBarOpenUnixMs + policy.maxEntryWaitMs) sawStaleCandidate)) := by
  simp [entryOutcome]

/-- A scan decides on its first candidate, or goes on behind a stale one. -/
theorem entryOutcome_cons {sawStaleCandidate : Bool} {candidate : ExactHistoricalQuote P}
    {candidates : List (ExactHistoricalQuote P)} :
    entryOutcome decision evidence policy sawStaleCandidate (candidate :: candidates) =
      if ambiguousAt decision evidence policy candidate.timestampUnixMs then
        .error ⟨.ambiguousSameTimestampCrossSideOutcome,
          "unreviewed same-timestamp opposite-side update makes the entry book ambiguous"⟩
      else
        match freshBookInForce decision evidence policy candidate with
        | some bookQuote => do
          let entry ← entryBookAt decision.direction candidate bookQuote
          return .available entry
        | none => entryOutcome decision evidence policy true candidates := by
  cases hbook : freshBookInForce decision evidence policy candidate with
  | some bookQuote =>
    simp only [entryOutcome, List.findIdx_cons, hbook, Option.isSome_some, List.take_succ_cons,
      List.findSome?_cons, Option.map_some]
    simp
  | none =>
    simp only [entryOutcome, List.findIdx_cons, hbook, Option.isSome_none, List.take_succ_cons,
      List.findSome?_cons, Option.map_none, List.any_cons, List.isEmpty_cons]
    cases ambiguousAt decision evidence policy candidate.timestampUnixMs <;> simp

theorem selectEntryFrom_eq {sawStaleCandidate : Bool} {candidates : List (ExactHistoricalQuote P)}
    (hopposite : (evidence.quotes decision.direction.exitSide).Pairwise fun a b =>
      a.timestampUnixMs ≤ b.timestampUnixMs)
    (hcandidates : candidates.Pairwise fun a b => a.timestampUnixMs ≤ b.timestampUnixMs) :
    selectEntryFrom decision policy (evidence.quotes decision.direction.exitSide)
        (decision.nextCanonicalBarOpenUnixMs + policy.maxEntryWaitMs) sawStaleCandidate candidates =
      entryOutcome decision evidence policy sawStaleCandidate (candidates.filter fun quote =>
        quote.timestampUnixMs ≤ decision.nextCanonicalBarOpenUnixMs + policy.maxEntryWaitMs) := by
  induction candidates generalizing sawStaleCandidate with
  | nil => rw [List.filter_nil, entryOutcome_nil, selectEntryFrom]
  | cons candidate candidates ih =>
    obtain ⟨hfirst, hrest⟩ := List.pairwise_cons.mp hcandidates
    rw [selectEntryFrom]
    split
    next hlate =>
      -- the list is ascending, so nothing behind a late candidate is in time
      have hnone : (candidate :: candidates).filter (fun quote => quote.timestampUnixMs ≤
          decision.nextCanonicalBarOpenUnixMs + policy.maxEntryWaitMs) = [] := by
        rw [List.filter_eq_nil_iff]
        intro quote hquote
        obtain rfl | hquote := List.mem_cons.mp hquote
        · simpa using hlate
        · have hle := hfirst quote hquote
          simp only [decide_eq_true_eq]
          omega
      rw [hnone, entryOutcome_nil]
    next hin =>
      rw [List.filter_cons_of_pos (by simpa using hin), entryOutcome_cons,
        latestBookQuoteAtEntry_eq hopposite]
      split
      next => rfl
      next =>
        rw [freshBookInForce]
        cases hbook : freshBookQuote policy candidate
            (bookInForce decision evidence policy candidate.timestampUnixMs) with
        | some bookQuote => simp only [ok_bind, hbook]
        | none => simp only [ok_bind, hbook, ih hrest]

/-- Where the two ends of the wait are times, the entry search is the linear scan. -/
theorem selectEntry_eq_reference
    (hentry : (evidence.quotes decision.direction.entrySide).Pairwise fun a b => a.key < b.key)
    (hopposite : (evidence.quotes decision.direction.exitSide).Pairwise fun a b => a.key < b.key) :
    selectEntry decision evidence policy =
      if ¬I64.InRange (decision.nextCanonicalBarOpenUnixMs + policy.latencySlippage.entryLatencyMs) then
        .error ⟨.invalidPolicy, "entry latency overflows the decision timestamp"⟩
      else if ¬I64.InRange (decision.nextCanonicalBarOpenUnixMs + policy.maxEntryWaitMs) then
        .error ⟨.invalidPolicy, "entry wait overflows the decision timestamp"⟩
      else selectEntryReference decision evidence policy := by
  have hascending := ascending_of_ordered hentry
  have hpart := partitioned_lt_of_ascending hascending
    (decision.nextCanonicalBarOpenUnixMs + policy.latencySlippage.entryLatencyMs)
  have hdrop := Slice.drop_partitionPoint hpart
  simp only [not_before_iff] at hdrop
  unfold selectEntry
  by_cases hlatency : I64.InRange (decision.nextCanonicalBarOpenUnixMs +
      policy.latencySlippage.entryLatencyMs)
  · by_cases hwait : I64.InRange (decision.nextCanonicalBarOpenUnixMs + policy.maxEntryWaitMs)
    · simp only [I64.checkedAdd, hlatency, hwait, if_true, not_true_eq_false, if_false, okOrElse, ok_bind,
        hdrop]
      refine (selectEntryFrom_eq (ascending_of_ordered hopposite)
        (hascending.sublist List.filter_sublist)).trans ?_
      rw [List.filter_filter]
      simp only [selectEntryReference, entryCandidates, Bool.and_comm]
    · simp only [I64.checkedAdd, hlatency, hwait, if_true, not_true_eq_false, not_false_eq_true,
        if_false, okOrElse, ok_bind, error_bind]
  · simp only [I64.checkedAdd, hlatency, not_false_eq_true, if_true, if_false, okOrElse, error_bind]

def usdJpyDecision : CanonicalBarSignalResearchDecision ℚ := ⟨1050, 1100, .long, 149, 151⟩

theorem usdJpy_selectEntry_eq_reference :
    selectEntry usdJpyDecision usdJpyEvidence usdJpyPolicy =
      if ¬I64.InRange (1100 + 10) then
        .error ⟨.invalidPolicy, "entry latency overflows the decision timestamp"⟩
      else if ¬I64.InRange (1100 + 500) then
        .error ⟨.invalidPolicy, "entry wait overflows the decision timestamp"⟩
      else selectEntryReference usdJpyDecision usdJpyEvidence usdJpyPolicy :=
  selectEntry_eq_reference (by decide +kernel) (by decide +kernel)

def usdJpyEndlessWait : QuoteValidatedResearchReplayPolicy ℚ :=
  { usdJpyPolicy with
    maxEntryWaitMs := I64.maxValue
    identitySha256 := "b5d766aac5f15b43657da2e082d8120c3d015a504b1a2320c870ad2a8d3bf841" }

def usdJpyEndlessSha256 : HashPayload ℚ → String
  | .quoteValidatedReplayPolicy .. => usdJpyEndlessWait.identitySha256
  | payload => usdJpySha256 payload

/-- The end of such a wait is no time of the type, so that the search is refused. -/
theorem usdJpyEndlessWait_refused :
    usdJpyDecision.validate = .ok () ∧
      usdJpyEndlessWait.validate usdJpyEndlessSha256 = .ok () ∧
      (usdJpyEvidence.quotes .ask).Pairwise (fun a b => a.key < b.key) ∧
      (usdJpyEvidence.quotes .bid).Pairwise (fun a b => a.key < b.key) ∧
      selectEntryReference usdJpyDecision usdJpyEvidence usdJpyEndlessWait =
        .ok (.available ⟨⟨1110, 1201 / 8, 0, 0, 0⟩, ⟨1100, 150, 0, 0, 0⟩,
          ⟨1110, 1201 / 8, 0, 0, 0⟩⟩) ∧
      selectEntry usdJpyDecision usdJpyEvidence usdJpyEndlessWait =
        .error ⟨.invalidPolicy, "entry wait overflows the decision timestamp"⟩ := by
  decide +kernel

end Reference

end Neoethos
