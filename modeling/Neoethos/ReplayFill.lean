import Neoethos.ReplayEntry
import Neoethos.ReplayExit

namespace Neoethos

open Fallible

variable {P : Type} [LinearOrder P]

section Event

variable (decision : CanonicalBarSignalResearchDecision P) (entryQuote : ExactHistoricalQuote P)
  (policy : QuoteValidatedResearchReplayPolicy P)
  (thresholds : List (ClosedCanonicalBarTrailingThreshold P))

def AfterEntry (quote : ExactHistoricalQuote P) : Prop :=
  entryQuote.timestampUnixMs < quote.timestampUnixMs ∨
    quote.timestampUnixMs = entryQuote.timestampUnixMs ∧
      sameTimestampExitOccursAfterEntry decision.direction.entrySide decision.direction.exitSide
        policy = some true

instance (quote : ExactHistoricalQuote P) :
    Decidable (AfterEntry decision entryQuote policy quote) :=
  inferInstanceAs (Decidable (_ ∨ _))

def Triggers (quote : ExactHistoricalQuote P) : Prop :=
  AfterEntry decision entryQuote policy quote ∧
    (thresholdReason decision thresholds quote).isSome = true

instance (quote : ExactHistoricalQuote P) :
    Decidable (Triggers decision entryQuote policy thresholds quote) :=
  inferInstanceAs (Decidable (_ ∧ _))

/-- The first quote that triggers, with the quotes behind it in source order. -/
def fromFirstTrigger (quotes : List (ExactHistoricalQuote P)) : List (ExactHistoricalQuote P) :=
  quotes.dropWhile fun quote => ¬Triggers decision entryQuote policy thresholds quote

/-- The time of the trigger, and the quotes at or behind the trigger event. A quote that triggers
at the timer's own millisecond goes with the timer. -/
def exitEvent (timerAt : Option Int) (quotes : List (ExactHistoricalQuote P)) :
    Option (Int × List (ExactHistoricalQuote P)) :=
  match fromFirstTrigger decision entryQuote policy thresholds quotes, timerAt with
  | [], none => none
  | [], some timer => some (timer, quotes.filter fun quote => timer ≤ quote.timestampUnixMs)
  | trigger :: rest, none => some (trigger.timestampUnixMs, trigger :: rest)
  | trigger :: rest, some timer =>
    if trigger.timestampUnixMs < timer then some (trigger.timestampUnixMs, trigger :: rest)
    else some (timer, quotes.filter fun quote => timer ≤ quote.timestampUnixMs)

/-- The first quote of these that the latency allows, if it stands within the wait. -/
def fillOf (t : Int) (quotes : List (ExactHistoricalQuote P)) : Option (ExactHistoricalQuote P) :=
  (quotes.find? fun quote =>
    t + policy.latencySlippage.exitLatencyMs ≤ quote.timestampUnixMs).filter fun quote =>
      quote.timestampUnixMs ≤ t + policy.maxExitWaitMs

def loopEvent (timerAt : Option Int) :
    List (ExactHistoricalQuote P) →
      Option (Int × QuoteValidatedResearchExitReason × List (ExactHistoricalQuote P))
  | [] => timerAt.map fun timer => (timer, .maxHold, [])
  | quote :: quotes =>
    if timerAt.any fun timer => timer < quote.timestampUnixMs then
      timerAt.map fun timer => (timer, .maxHold, quote :: quotes)
    else if Triggers decision entryQuote policy thresholds quote then
      (thresholdReason decision thresholds quote).map fun reason =>
        (quote.timestampUnixMs, reason, quote :: quotes)
    else if timerAt = some quote.timestampUnixMs then
      some (quote.timestampUnixMs, .maxHold, quote :: quotes)
    else loopEvent timerAt quotes

end Event

variable {decision : CanonicalBarSignalResearchDecision P}
  {entryQuote quote : ExactHistoricalQuote P}
  {policy : QuoteValidatedResearchReplayPolicy P} {window : EvidenceWindow}
  {thresholds : List (ClosedCanonicalBarTrailingThreshold P)} {timerAt : Option Int}
  {quotes : List (ExactHistoricalQuote P)}

section Loop

/-- The body of the loop, when the order within the entry's own millisecond is reviewed. -/
theorem exitTrigger_eq (htimer : ∀ timer ∈ timerAt, entryQuote.timestampUnixMs < timer)
    (hquote : entryQuote.timestampUnixMs ≤ quote.timestampUnixMs)
    (hreviewed : quote.timestampUnixMs = entryQuote.timestampUnixMs →
      policy.reviewedSameTimestampMergeRule.isSome = true) :
    exitTrigger decision entryQuote policy thresholds timerAt quote =
      .ok (if timerAt.any fun timer => timer < quote.timestampUnixMs then
          timerAt.map fun timer => (timer, .maxHold)
        else if Triggers decision entryQuote policy thresholds quote then
          (thresholdReason decision thresholds quote).map fun reason =>
            (quote.timestampUnixMs, reason)
        else if timerAt = some quote.timestampUnixMs then
          some (quote.timestampUnixMs, .maxHold)
        else none) := by
  cases timerAt with
  | none =>
    have hpast : ¬((none : Option Int).any fun timer => timer < quote.timestampUnixMs) = true := by
      simp
    rw [if_neg hpast]
    cases hreason : thresholdReason decision thresholds quote with
    | none => simp [exitTrigger, Triggers, hreason]
    | some reason =>
      by_cases hsame : quote.timestampUnixMs = entryQuote.timestampUnixMs
      · obtain ⟨rule, hrule⟩ := Option.isSome_iff_exists.mp (hreviewed hsame)
        cases horder : sidePrecedes decision.direction.entrySide decision.direction.exitSide
            rule.sideOrder with
        | true =>
          simp [exitTrigger, Triggers, AfterEntry, sameTimestampExitOccursAfterEntry, hreason,
            hsame, hrule, horder]
        | false =>
          simp [exitTrigger, Triggers, AfterEntry, sameTimestampExitOccursAfterEntry, hreason,
            hsame, hrule, horder]
      · have hafter : entryQuote.timestampUnixMs < quote.timestampUnixMs := by omega
        simp [exitTrigger, Triggers, AfterEntry, hreason, hsame, hafter]
  | some timer =>
    have hentry : entryQuote.timestampUnixMs < timer := htimer timer rfl
    obtain hearly | hdue | hpast := lt_trichotomy quote.timestampUnixMs timer
    · have hnot : ¬((some timer).any fun timer => timer < quote.timestampUnixMs) = true := by
        simp only [Option.any_some, decide_eq_true_eq]
        omega
      have hne : ¬some timer = some quote.timestampUnixMs := by
        rw [Option.some.injEq]
        omega
      rw [exitTrigger_early hearly, if_neg hnot, if_neg hne]
      cases hreason : thresholdReason decision thresholds quote with
      | none => simp [Triggers, hreason]
      | some reason =>
        by_cases hsame : quote.timestampUnixMs = entryQuote.timestampUnixMs
        · obtain ⟨rule, hrule⟩ := Option.isSome_iff_exists.mp (hreviewed hsame)
          cases horder : sidePrecedes decision.direction.entrySide decision.direction.exitSide
              rule.sideOrder with
          | true =>
            simp [Triggers, AfterEntry, sameTimestampExitOccursAfterEntry, hreason, hsame, hrule,
              horder]
          | false =>
            simp [Triggers, AfterEntry, sameTimestampExitOccursAfterEntry, hreason, hsame, hrule,
              horder]
        · have hafter : entryQuote.timestampUnixMs < quote.timestampUnixMs := by omega
          simp [Triggers, AfterEntry, hreason, hsame, hafter]
    · have hnot : ¬((some timer).any fun timer => timer < quote.timestampUnixMs) = true := by
        simp [hdue]
      have hafter : AfterEntry decision entryQuote policy quote := by
        left
        omega
      rw [exitTrigger_due hentry hdue, if_neg hnot]
      cases hreason : thresholdReason decision thresholds quote with
      | none => simp [Triggers, hreason, hdue]
      | some reason => simp [Triggers, hreason, hafter, hdue]
    · have hany : ((some timer).any fun timer => timer < quote.timestampUnixMs) = true := by
        simpa using hpast
      rw [exitTrigger_past hpast, if_pos hany]
      rfl

theorem selectExitFrom_eq (htimer : ∀ timer ∈ timerAt, entryQuote.timestampUnixMs < timer)
    {exitQuotes triggers : List (ExactHistoricalQuote P)} {triggerIndex : Nat}
    (hdrop : exitQuotes.drop triggerIndex = triggers)
    (hquotes : ∀ quote ∈ triggers, entryQuote.timestampUnixMs ≤ quote.timestampUnixMs ∧
      (quote.timestampUnixMs = entryQuote.timestampUnixMs →
        policy.reviewedSameTimestampMergeRule.isSome = true)) :
    selectExitFrom decision entryQuote policy thresholds timerAt exitQuotes triggerIndex triggers =
      match loopEvent decision entryQuote policy thresholds timerAt triggers with
      | none => .ok none
      | some (t, reason, rest) => selectExitReference rest 0 t reason policy := by
  have hexecute (index : Nat) (t : Int) (reason : QuoteValidatedResearchExitReason) :
      selectExitReference exitQuotes index t reason policy =
        selectExitReference (exitQuotes.drop index) 0 t reason policy := by
    simp only [selectExitReference, List.drop_zero]
  induction triggers generalizing triggerIndex with
  | nil =>
    cases timerAt with
    | none => rfl
    | some timer =>
      simp only [selectExitFrom, loopEvent, Option.map_some]
      rw [hexecute, List.drop_length]
  | cons quote triggers ih =>
    obtain ⟨hquote, hreviewed⟩ := hquotes quote List.mem_cons_self
    have hnext : exitQuotes.drop (triggerIndex + 1) = triggers := by
      rw [← List.drop_drop, hdrop]
      rfl
    rw [selectExitFrom, exitTrigger_eq htimer hquote hreviewed, ok_bind, loopEvent]
    have hrest := ih hnext fun other hother => hquotes other (List.mem_cons_of_mem _ hother)
    split_ifs with hpast htriggers hdue
    · obtain ⟨timer, rfl⟩ : ∃ timer, timerAt = some timer := by
        cases timerAt with
        | none => simp at hpast
        | some timer => exact ⟨timer, rfl⟩
      simp only [Option.map_some]
      rw [hexecute, hdrop]
    · obtain ⟨reason, hreason⟩ := Option.isSome_iff_exists.mp htriggers.2
      simp only [hreason, Option.map_some]
      rw [hexecute, hdrop]
    · simp only
      rw [hexecute, hdrop]
    · exact hrest

theorem loopEvent_eq (hascending : quotes.Pairwise fun a b =>
      a.timestampUnixMs ≤ b.timestampUnixMs) :
    (loopEvent decision entryQuote policy thresholds timerAt quotes).map
        (fun event => (event.1, event.2.2)) =
      exitEvent decision entryQuote policy thresholds timerAt quotes := by
  induction quotes with
  | nil => cases timerAt <;> rfl
  | cons quote rest ih =>
    obtain ⟨hfirst, hrest⟩ := List.pairwise_cons.mp hascending
    have hall {timer : Int} (hle : timer ≤ quote.timestampUnixMs) :
        (quote :: rest).filter (fun quote => timer ≤ quote.timestampUnixMs) = quote :: rest := by
      rw [List.filter_eq_self]
      intro other hother
      rw [decide_eq_true_eq]
      rcases List.mem_cons.mp hother with rfl | hother
      · exact hle
      · exact hle.trans (hfirst other hother)
    have hlater {timer : Int} (hle : timer ≤ quote.timestampUnixMs) :
        exitEvent decision entryQuote policy thresholds (some timer) (quote :: rest) =
          some (timer, quote :: rest) := by
      unfold exitEvent
      split
      next => simp at *
      next heq htimer =>
        cases htimer
        rw [hall hle]
      next => simp at *
      next trigger back htimerAt heq htimer =>
        cases htimer
        have hmem : trigger ∈ quote :: rest := by
          apply (List.dropWhile_sublist _).subset
          change trigger ∈ fromFirstTrigger decision entryQuote policy thresholds (quote :: rest)
          rw [heq]
          exact List.mem_cons_self
        have hge : timer ≤ trigger.timestampUnixMs := by
          rcases List.mem_cons.mp hmem with rfl | hmem
          · exact hle
          · exact hle.trans (hfirst trigger hmem)
        rw [if_neg (not_lt.mpr hge), hall hle]
    rw [loopEvent]
    split_ifs with hpast htriggers hdue
    · cases timerAt with
      | none => simp at hpast
      | some timer =>
        have hlt : timer < quote.timestampUnixMs := by simpa using hpast
        rw [hlater hlt.le]
        rfl
    · obtain ⟨reason, hreason⟩ := Option.isSome_iff_exists.mp htriggers.2
      have hhead : fromFirstTrigger decision entryQuote policy thresholds (quote :: rest) =
          quote :: rest := by
        simp [fromFirstTrigger, htriggers]
      rw [hreason]
      cases timerAt with
      | none =>
        unfold exitEvent
        rw [hhead]
        rfl
      | some timer =>
        by_cases hbefore : quote.timestampUnixMs < timer
        · unfold exitEvent
          rw [hhead]
          simp [hbefore]
        · have heq : quote.timestampUnixMs = timer := by
            simp only [Option.any_some, decide_eq_true_eq] at hpast
            omega
          rw [hlater heq.ge, ← heq]
          rfl
    · rw [hdue, hlater (le_refl _)]
      rfl
    · rw [ih hrest]
      have hskip : fromFirstTrigger decision entryQuote policy thresholds (quote :: rest) =
          fromFirstTrigger decision entryQuote policy thresholds rest := by
        simp [fromFirstTrigger, htriggers]
      cases timerAt with
      | none =>
        simp only [exitEvent, hskip]
        cases fromFirstTrigger decision entryQuote policy thresholds rest <;> rfl
      | some timer =>
        have hbefore : ¬timer ≤ quote.timestampUnixMs := by
          simp only [Option.any_some, decide_eq_true_eq, Option.some.injEq] at hpast hdue
          omega
        have hfilter : (quote :: rest).filter (fun quote => timer ≤ quote.timestampUnixMs) =
            rest.filter fun quote => timer ≤ quote.timestampUnixMs := by
          rw [List.filter_cons, if_neg (by simpa using hbefore)]
        simp only [exitEvent, hskip]
        cases fromFirstTrigger decision entryQuote policy thresholds rest with
        | nil => simp only [hfilter]
        | cons trigger back => simp only [hfilter]

omit [LinearOrder P] in
theorem selectExitReference_eq (hascending : quotes.Pairwise fun a b =>
      a.timestampUnixMs ≤ b.timestampUnixMs) (t : Int) (reason : QuoteValidatedResearchExitReason) :
    selectExitReference quotes 0 t reason policy =
      if ¬I64.InRange (t + policy.latencySlippage.exitLatencyMs) then
        .error ⟨.invalidPolicy, "exit latency overflows the trigger timestamp"⟩
      else if ¬I64.InRange (t + policy.maxExitWaitMs) then
        .error ⟨.invalidPolicy, "exit wait overflows the trigger timestamp"⟩
      else match fillOf policy t quotes with
        | some quote => .ok (some (quote, reason))
        | none => .error ⟨.exitReferenceUnavailable,
            "complete quote evidence has no exit reference within the explicit wait"⟩ := by
  have hget := Slice.getElem?_partitionPoint (partitioned_lt_of_ascending hascending
    (t + policy.latencySlippage.exitLatencyMs))
  simp only [not_before_iff] at hget
  unfold selectExitReference fillOf
  by_cases hlatency : I64.InRange (t + policy.latencySlippage.exitLatencyMs)
  · by_cases hwait : I64.InRange (t + policy.maxExitWaitMs)
    · simp only [I64.checkedAdd, hlatency, hwait, if_true, not_true_eq_false, if_false, okOrElse,
        ok_bind, List.drop_zero, hget]
      cases (quotes.find? fun quote => t + policy.latencySlippage.exitLatencyMs ≤
          quote.timestampUnixMs).filter fun quote =>
            quote.timestampUnixMs ≤ t + policy.maxExitWaitMs with
      | none => rfl
      | some quote => rfl
    · simp only [I64.checkedAdd, hlatency, hwait, if_true, not_true_eq_false, not_false_eq_true,
        if_false, okOrElse, ok_bind, error_bind]
  · simp only [I64.checkedAdd, hlatency, not_false_eq_true, if_true, if_false, okOrElse, error_bind]

end Loop

section Entry

variable {evidence : CompleteBidAskQuoteReplayEvidence P} {entry : SelectedEntryBook P}

/-- The candidate that is entered has a book, and its place in the merged order is clear. -/
theorem selectEntryFrom_book {deadline : Int} {sawStaleCandidate : Bool}
    {oppositeQuotes candidates : List (ExactHistoricalQuote P)}
    (h : selectEntryFrom decision policy oppositeQuotes deadline sawStaleCandidate candidates =
      .ok (.available entry)) :
    ∃ bookQuote, latestBookQuoteAtEntry decision.direction.exitSide decision.direction.entrySide
        oppositeQuotes entry.entryQuote.timestampUnixMs policy = .ok (some bookQuote) ∧
      entryBookAt decision.direction entry.entryQuote bookQuote = .ok entry := by
  induction candidates generalizing sawStaleCandidate with
  | nil => simp [selectEntryFrom] at h
  | cons candidate candidates ih =>
    obtain ⟨-, h⟩ | ⟨-, latest, hlatest, ⟨bookQuote, found, hfresh, hentry, h⟩ | ⟨-, h⟩⟩ :=
      selectEntryFrom_cons.mp h
    · cases h
    · cases h
      have hcandidate := entryBookAt_ok hentry
      obtain ⟨hbook, -⟩ := Option.filter_eq_some_iff.mp hfresh
      rw [hcandidate]
      exact ⟨bookQuote, by rw [hlatest, hbook], hentry⟩
    · exact ih h

theorem reviewed_of_selectEntry
    (hquotes : ∀ side, QuotesInOrder window (evidence.quotes side))
    (h : selectEntry decision evidence policy = .ok (.available entry)) :
    ∀ quote ∈ evidence.quotes decision.direction.exitSide,
      quote.timestampUnixMs = entry.entryQuote.timestampUnixMs →
        policy.reviewedSameTimestampMergeRule.isSome = true := by
  intro quote hquote hsame
  obtain ⟨-, -, h⟩ := (selectEntry_ok_iff (hquotes _)).mp h
  obtain ⟨bookQuote, hlatest, -⟩ := selectEntryFrom_book h
  rw [latestBookQuoteAtEntry_eq (hquotes _).ascending] at hlatest
  split at hlatest
  next => cases hlatest
  next hclear =>
    rw [Bool.not_eq_true, ambiguousAt, Bool.and_eq_false_iff] at hclear
    rcases hclear with hrule | hnone
    · rw [← Option.not_isNone, hrule]
      rfl
    · rw [List.any_eq_false] at hnone
      exact absurd (by simpa using hsame) (hnone quote hquote)

/-- The quotes in front of the entry are no part of the event. -/
theorem exitEvent_behind (hquotes : QuotesInOrder window quotes)
    (htimer : ∀ timer ∈ timerAt, entryQuote.timestampUnixMs < timer) :
    exitEvent decision entryQuote policy thresholds timerAt quotes =
      exitEvent decision entryQuote policy thresholds timerAt
        (quotes.filter fun quote => entryQuote.timestampUnixMs ≤ quote.timestampUnixMs) := by
  have hsplit := (hquotes.partitioned_lt entryQuote.timestampUnixMs).split
  simp only [not_before_iff] at hsplit
  have hfirst : fromFirstTrigger decision entryQuote policy thresholds quotes =
      fromFirstTrigger decision entryQuote policy thresholds
        (quotes.filter fun quote => entryQuote.timestampUnixMs ≤ quote.timestampUnixMs) := by
    conv_lhs => rw [← hsplit]
    apply List.dropWhile_append_of_pos
    intro quote hquote
    have hbefore := (List.mem_filter.mp hquote).2
    rw [decide_eq_true_eq] at hbefore
    rw [decide_eq_true_eq]
    rintro ⟨hafter, -⟩
    rcases hafter with hlt | ⟨heq, -⟩
    · omega
    · omega
  have hrest {timer : Int} (hentry : entryQuote.timestampUnixMs < timer) :
      (quotes.filter fun quote => timer ≤ quote.timestampUnixMs) =
        (quotes.filter fun quote => entryQuote.timestampUnixMs ≤ quote.timestampUnixMs).filter
          fun quote => timer ≤ quote.timestampUnixMs := by
    rw [List.filter_filter]
    apply List.filter_congr
    intro quote _
    rw [← Bool.decide_and, decide_eq_decide]
    omega
  unfold exitEvent
  rw [← hfirst]
  cases timerAt with
  | none => cases fromFirstTrigger decision entryQuote policy thresholds quotes <;> rfl
  | some timer =>
    have hdue := hrest (htimer timer rfl)
    cases fromFirstTrigger decision entryQuote policy thresholds quotes with
    | nil => simp only [← hdue]
    | cons trigger rest => simp only [← hdue]

/-- How an exit search ends, by the event behind the entry. -/
structure ExitFills (policy : QuoteValidatedResearchReplayPolicy P)
    (entryQuote : ExactHistoricalQuote P)
    (event : Option (Int × List (ExactHistoricalQuote P)))
    (run : Except ReplayError
      (Option (ExactHistoricalQuote P × QuoteValidatedResearchExitReason))) : Prop where
  staysOpen : run = .ok none ↔ event = none
  filled : ∀ quote reason, run = .ok (some (quote, reason)) → ∃ t rest, event = some (t, rest) ∧
    rest.find? (fun quote => t + policy.latencySlippage.exitLatencyMs ≤ quote.timestampUnixMs) =
      some quote ∧
    quote.timestampUnixMs ≤ t + policy.maxExitWaitMs ∧
    entryQuote.timestampUnixMs ≤ quote.timestampUnixMs
  unavailable : ∀ t rest, event = some (t, rest) →
    I64.InRange (t + policy.latencySlippage.exitLatencyMs) →
    I64.InRange (t + policy.maxExitWaitMs) →
    (¬∃ quote, rest.find? (fun quote =>
        t + policy.latencySlippage.exitLatencyMs ≤ quote.timestampUnixMs) = some quote ∧
      quote.timestampUnixMs ≤ t + policy.maxExitWaitMs) →
    ∃ detail, run = .error ⟨.exitReferenceUnavailable, detail⟩
  overflows : ∀ t rest, event = some (t, rest) →
    ¬(I64.InRange (t + policy.latencySlippage.exitLatencyMs) ∧
      I64.InRange (t + policy.maxExitWaitMs)) →
    ∃ detail, run = .error ⟨.invalidPolicy, detail⟩

omit [LinearOrder P] in
theorem fillOf_eq_some_iff {t : Int} :
    fillOf policy t quotes = some quote ↔
      quotes.find? (fun quote =>
        t + policy.latencySlippage.exitLatencyMs ≤ quote.timestampUnixMs) = some quote ∧
      quote.timestampUnixMs ≤ t + policy.maxExitWaitMs := by
  rw [fillOf, Option.filter_eq_some_iff, decide_eq_true_eq]

omit [LinearOrder P] in
theorem ExitFills.of_reference {t : Int} {reason : QuoteValidatedResearchExitReason}
    (hascending : quotes.Pairwise fun a b => a.timestampUnixMs ≤ b.timestampUnixMs)
    (hbehind : ∀ quote ∈ quotes, entryQuote.timestampUnixMs ≤ quote.timestampUnixMs) :
    ExitFills policy entryQuote (some (t, quotes))
      (selectExitReference quotes 0 t reason policy) := by
  rw [selectExitReference_eq hascending]
  by_cases hlatency : I64.InRange (t + policy.latencySlippage.exitLatencyMs)
  · by_cases hwait : I64.InRange (t + policy.maxExitWaitMs)
    · simp only [hlatency, hwait, not_true_eq_false, if_false]
      cases hfill : fillOf policy t quotes with
      | none =>
        refine ⟨by simp, by simp, ?_, ?_⟩
        · intro _ _ hevent _ _ _
          cases hevent
          exact ⟨_, rfl⟩
        · intro _ _ hevent hover
          cases hevent
          exact absurd ⟨hlatency, hwait⟩ hover
      | some found =>
        obtain ⟨hfind, hdeadline⟩ := fillOf_eq_some_iff.mp hfill
        refine ⟨by simp, ?_, ?_, ?_⟩
        · intro quote found h
          cases h
          exact ⟨t, quotes, rfl, hfind, hdeadline, hbehind _ (List.mem_of_find?_eq_some hfind)⟩
        · intro _ _ hevent _ _ hnone
          cases hevent
          exact absurd ⟨found, hfind, hdeadline⟩ hnone
        · intro _ _ hevent hover
          cases hevent
          exact absurd ⟨hlatency, hwait⟩ hover
    · simp only [hlatency, hwait, not_true_eq_false, not_false_eq_true, if_true, if_false]
      refine ⟨by simp, by simp, ?_, ?_⟩
      · intro _ _ hevent _ hin _
        cases hevent
        exact absurd hin hwait
      · intro _ _ _ _
        exact ⟨_, rfl⟩
  · simp only [hlatency, not_false_eq_true, if_true]
    refine ⟨by simp, by simp, ?_, ?_⟩
    · intro _ _ hevent hin _ _
      cases hevent
      exact absurd hin hlatency
    · intro _ _ _ _
      exact ⟨_, rfl⟩

/-- The rest of the event's quotes is a part of the quotes. -/
theorem exitEvent_sublist {t : Int} {rest : List (ExactHistoricalQuote P)}
    (h : exitEvent decision entryQuote policy thresholds timerAt quotes = some (t, rest)) :
    rest.Sublist quotes := by
  have hfirst : (fromFirstTrigger decision entryQuote policy thresholds quotes).Sublist quotes :=
    List.dropWhile_sublist _
  unfold exitEvent at h
  split at h
  next => cases h
  next =>
    cases h
    exact List.filter_sublist
  next heq =>
    cases h
    rw [← heq]
    exact hfirst
  next heq =>
    rw [heq] at hfirst
    split at h
    next =>
      cases h
      exact hfirst
    next =>
      cases h
      exact List.filter_sublist

/-- An exit is filled by the first quote of its event that the latency allows, within the wait. -/
theorem selectExit_fills [Ring P] {sha256 : HashPayload P → String}
    (hevidence : evidence.validatePayload sha256 = .ok ())
    (hentry : selectEntry decision evidence policy = .ok (.available entry))
    (timeExit : Option ClosedCanonicalBarTimeExit) :
    ((∀ timer ∈ timeExit, entry.entryQuote.timestampUnixMs < timer.effectiveAtNextBarOpenUnixMs) →
      ExitFills policy entry.entryQuote
        (exitEvent decision entry.entryQuote policy thresholds
          (timeExit.map (·.effectiveAtNextBarOpenUnixMs))
          (evidence.quotes decision.direction.exitSide))
        (selectExit decision entry.entryQuote evidence policy thresholds timeExit)) ∧
    ∀ timer ∈ timeExit, timer.effectiveAtNextBarOpenUnixMs ≤ entry.entryQuote.timestampUnixMs →
      ∃ detail, selectExit decision entry.entryQuote evidence policy thresholds timeExit =
        .error ⟨.invalidDecision, detail⟩ := by
  have hquotes (side : QuoteSide) :=
    CompleteBidAskQuoteReplayEvidence.inOrder_of_validatePayload hevidence side
  have hexit := hquotes decision.direction.exitSide
  constructor
  · intro htimers
    have htimer : ∀ timer ∈ timeExit.map (·.effectiveAtNextBarOpenUnixMs),
        entry.entryQuote.timestampUnixMs < timer := by
      intro timer hmem
      obtain ⟨exit, hexit, rfl⟩ := Option.map_eq_some_iff.mp hmem
      exact htimers exit hexit
    have hallowed : (timeExit.map (·.effectiveAtNextBarOpenUnixMs)).any
        (fun timer => timer ≤ entry.entryQuote.timestampUnixMs) = false := by
      rw [Option.any_eq_false]
      intro timer hmem
      have hlt := htimer timer hmem
      simpa using hlt
    have hascending := (hexit.sublist (List.filter_sublist (p := fun quote =>
      entry.entryQuote.timestampUnixMs ≤ quote.timestampUnixMs))).ascending
    have hdrop := drop_eligible hexit entry.entryQuote.timestampUnixMs
    have hreviewed := reviewed_of_selectEntry hquotes hentry
    have hloop := @loopEvent_eq P _ decision entry.entryQuote policy thresholds
      (timeExit.map (·.effectiveAtNextBarOpenUnixMs)) _ hascending
    rw [exitEvent_behind hexit htimer, ← hloop]
    have hrun : selectExit decision entry.entryQuote evidence policy thresholds timeExit =
        match loopEvent decision entry.entryQuote policy thresholds
            (timeExit.map (·.effectiveAtNextBarOpenUnixMs))
            ((evidence.quotes decision.direction.exitSide).filter fun quote =>
              entry.entryQuote.timestampUnixMs ≤ quote.timestampUnixMs) with
        | none => .ok none
        | some (t, reason, rest) => selectExitReference rest 0 t reason policy := by
      simp only [selectExit, hallowed, refuseIf_ok.mpr Bool.false_ne_true, ok_bind, hdrop]
      apply selectExitFrom_eq htimer hdrop
      intro quote hquote
      obtain ⟨hmem, hbehind⟩ := List.mem_filter.mp hquote
      exact ⟨by simpa using hbehind, hreviewed quote hmem⟩
    rw [hrun]
    cases hevent : loopEvent decision entry.entryQuote policy thresholds
        (timeExit.map (·.effectiveAtNextBarOpenUnixMs))
        ((evidence.quotes decision.direction.exitSide).filter fun quote =>
          entry.entryQuote.timestampUnixMs ≤ quote.timestampUnixMs) with
    | none => exact ⟨by simp, by simp, by simp, by simp⟩
    | some event =>
      obtain ⟨t, reason, rest⟩ := event
      rw [hevent] at hloop
      have hsub := exitEvent_sublist hloop.symm
      apply ExitFills.of_reference (hascending.sublist hsub)
      intro quote hquote
      have hbehind := (List.mem_filter.mp (hsub.subset hquote)).2
      simpa using hbehind
  · intro timer hmem hle
    rw [Option.mem_def] at hmem
    have hrefused : (timeExit.map (·.effectiveAtNextBarOpenUnixMs)).any
        (fun timer => timer ≤ entry.entryQuote.timestampUnixMs) = true := by
      rw [hmem]
      simpa using hle
    rw [selectExit, hrefused]
    exact ⟨_, rfl⟩

end Entry

section UsdJpy

/-- A replay whose evidence ends with the last millisecond of the type. -/
def usdJpyLastCoverage : EvidenceWindow :=
  ⟨900, I64.maxValue, usdJpyCoverage.nonNegative, by decide, by decide⟩

def usdJpyLastBinding : QuoteValidatedResearchReplayBinding :=
  { usdJpyBinding with
    replayScope :=
      ⟨⟨1000, I64.maxValue - 160, usdJpyBinding.replayScope.1.nonNegative, by decide, by decide⟩,
        usdJpyLastCoverage, 100, 160⟩
    identitySha256 := "8490500dc683988eae2c4f4c2f1f78d76fbd3e92cc41e7981f95c2c6b225b0a1" }

def usdJpyLastPolicy : QuoteValidatedResearchReplayPolicy ℚ :=
  { usdJpyPolicy with
    maxEntryWaitMs := 50
    latencySlippage := ⟨⟨"latency-v1", 10, 60, 1 / 2, 1 / 64⟩,
      "66d61f49cd150a6315ee01e9cfc34775b8fb99e7c257c928153dc46436071975"⟩
    identitySha256 := "c3d8651f53d0977255ba51eaf0e0f231590c6c8c94aa6aa6883fe5535c57db6f" }

def usdJpyLastDecision : CanonicalBarSignalResearchDecision ℚ :=
  ⟨I64.maxValue - 300, I64.maxValue - 250, .long, 149, 151⟩

def usdJpyLastPlan (timeExit : Option ClosedCanonicalBarTimeExit) :
    QuoteValidatedResearchReplayPlan ℚ :=
  ⟨usdJpyLastBinding, usdJpyLastPolicy, [usdJpyLastDecision], [], timeExit⟩

def usdJpyLastSide (side : QuoteSide) (rows : List (Int × ℚ)) (contentSha256 : String) :
    CompleteQuoteSideCoverage ℚ :=
  { usdJpySide side rows contentSha256 with requestedWindow := usdJpyLastCoverage }

def usdJpyLastEvidence : CompleteBidAskQuoteReplayEvidence ℚ where
  binding := usdJpyLastBinding
  bid := usdJpyLastSide .bid [(I64.maxValue - 245, 150), (I64.maxValue - 50, 297 / 2)]
    "3b36b2f5415c987a2217215c5485079d62ef8ff4582183e01115801a56832fc6"
  ask := usdJpyLastSide .ask [(I64.maxValue - 240, 1201 / 8)]
    "d8ffd3b83b04bfee4e1dd292fa99d8b3c9501ab31581ea34a6a34ee43e80b50f"
  contentSha256 := "691bfe001cf08118f4b1b6e4dc9df16dc8f0ddda26831499bfeb62d482bfe144"

def usdJpyLastSha256 : HashPayload ℚ → String
  | .quoteReplayBinding .. => usdJpyLastBinding.identitySha256
  | .latencySlippagePolicy .. => usdJpyLastPolicy.latencySlippage.identitySha256
  | .quoteValidatedReplayPolicy .. => usdJpyLastPolicy.identitySha256
  | .completeQuoteSideCoverage payload =>
    match payload.side with
    | .bid => usdJpyLastEvidence.bid.contentSha256
    | .ask => usdJpyLastEvidence.ask.contentSha256
  | .completeBidAskQuoteEvidence .. => usdJpyLastEvidence.contentSha256
  | payload => usdJpySha256 payload

def usdJpyLastTimer : ClosedCanonicalBarTimeExit := ⟨I64.maxValue - 250, I64.maxValue - 245⟩

def usdJpyLastEntry : ExactHistoricalQuote ℚ := ⟨I64.maxValue - 240, 1201 / 8, 0, 0, 0⟩

/-- No quote executes either event, and neither is reported as a missing exit reference: the end of
one wait is no time of the type, and the other event is a timer in front of the entry. -/
theorem usdJpyLast_refused :
    (usdJpyLastPlan none).validate usdJpyLastSha256 = .ok () ∧
      (usdJpyLastPlan (some usdJpyLastTimer)).validate usdJpyLastSha256 = .ok () ∧
      usdJpyLastEvidence.validatePayload usdJpyLastSha256 = .ok () ∧
      (∃ entry, selectEntry usdJpyLastDecision usdJpyLastEvidence usdJpyLastPolicy =
        .ok (.available entry) ∧ entry.entryQuote = usdJpyLastEntry) ∧
      (∃ rest, exitEvent usdJpyLastDecision usdJpyLastEntry usdJpyLastPolicy [] none
          (usdJpyLastEvidence.quotes .bid) = some (I64.maxValue - 50, rest) ∧
        fillOf usdJpyLastPolicy (I64.maxValue - 50) rest = none) ∧
      selectExit usdJpyLastDecision usdJpyLastEntry usdJpyLastEvidence usdJpyLastPolicy [] none =
        .error ⟨.invalidPolicy, "exit latency overflows the trigger timestamp"⟩ ∧
      (∃ rest, exitEvent usdJpyLastDecision usdJpyLastEntry usdJpyLastPolicy []
          (some usdJpyLastTimer.effectiveAtNextBarOpenUnixMs) (usdJpyLastEvidence.quotes .bid) =
            some (I64.maxValue - 245, rest) ∧
        fillOf usdJpyLastPolicy (I64.maxValue - 245) rest = none) ∧
      selectExit usdJpyLastDecision usdJpyLastEntry usdJpyLastEvidence usdJpyLastPolicy []
          (some usdJpyLastTimer) =
        .error ⟨.invalidDecision, "max-hold trigger does not follow the modeled entry"⟩ := by
  refine ⟨by decide +kernel, by decide +kernel, by decide +kernel,
    ⟨⟨usdJpyLastEntry, ⟨I64.maxValue - 245, 150, 0, 0, 0⟩, usdJpyLastEntry⟩, by decide +kernel,
      rfl⟩,
    ⟨[⟨I64.maxValue - 50, 297 / 2, 0, 0, 1⟩], by decide +kernel, by decide +kernel⟩,
    by decide +kernel,
    ⟨[⟨I64.maxValue - 245, 150, 0, 0, 0⟩, ⟨I64.maxValue - 50, 297 / 2, 0, 0, 1⟩],
      by decide +kernel, by decide +kernel⟩, by decide +kernel⟩

theorem usdJpy_exit_fills :
    ((∀ timer ∈ some usdJpyTimer, (1110 : Int) < timer.effectiveAtNextBarOpenUnixMs) →
      ExitFills usdJpyPolicy ⟨1110, 1201 / 8, 0, 0, 0⟩
        (exitEvent usdJpyDecision ⟨1110, 1201 / 8, 0, 0, 0⟩ usdJpyPolicy [] (some 1200)
          (usdJpyEvidence.quotes .bid))
        (selectExit usdJpyDecision ⟨1110, 1201 / 8, 0, 0, 0⟩ usdJpyEvidence usdJpyPolicy []
          (some usdJpyTimer))) ∧
    ∀ timer ∈ some usdJpyTimer, timer.effectiveAtNextBarOpenUnixMs ≤ (1110 : Int) →
      ∃ detail, selectExit usdJpyDecision ⟨1110, 1201 / 8, 0, 0, 0⟩ usdJpyEvidence usdJpyPolicy []
        (some usdJpyTimer) = .error ⟨.invalidDecision, detail⟩ := by
  have hevidence : usdJpyEvidence.validatePayload usdJpySha256 = .ok () := by decide +kernel
  have hentry : selectEntry usdJpyDecision usdJpyEvidence usdJpyPolicy =
      .ok (.available ⟨⟨1110, 1201 / 8, 0, 0, 0⟩, ⟨1100, 150, 0, 0, 0⟩,
        ⟨1110, 1201 / 8, 0, 0, 0⟩⟩) := by decide +kernel
  exact selectExit_fills hevidence hentry (some usdJpyTimer)

end UsdJpy

end Neoethos
