import Neoethos.ReplayOutcome

namespace Neoethos

open Fallible

variable {P : Type} [LinearOrder P]

section Precedence

variable (decision : CanonicalBarSignalResearchDecision P) (entryQuote : ExactHistoricalQuote P)
  (evidence : CompleteBidAskQuoteReplayEvidence P) (policy : QuoteValidatedResearchReplayPolicy P)
  (thresholds : List (ClosedCanonicalBarTrailingThreshold P)) (timer : ClosedCanonicalBarTimeExit)

/-- The exit-side quotes behind the entry. One of the entry's own millisecond is among them, unless
the reviewed rule puts the exit side first. -/
def FollowsEntry (quote : ExactHistoricalQuote P) : Prop :=
  entryQuote.timestampUnixMs < quote.timestampUnixMs ∨
    (quote.timestampUnixMs = entryQuote.timestampUnixMs ∧
      sameTimestampExitOccursAfterEntry decision.direction.entrySide decision.direction.exitSide
        policy ≠ some false)

instance (quote : ExactHistoricalQuote P) :
    Decidable (FollowsEntry decision entryQuote policy quote) :=
  inferInstanceAs (Decidable (_ ∨ _))

/-- The first quote behind the entry, up to the timer, that reaches the stop or the target. -/
def firstTriggering : Option (ExactHistoricalQuote P) :=
  (evidence.quotes decision.direction.exitSide).find? fun quote =>
    FollowsEntry decision entryQuote policy quote ∧
      quote.timestampUnixMs ≤ timer.effectiveAtNextBarOpenUnixMs ∧
      (thresholdReason decision thresholds quote).isSome

def ReachesStop (quote : ExactHistoricalQuote P) : Prop :=
  match decision.direction with
  | .long => quote.price ≤ (effectiveStopPrice decision thresholds quote.timestampUnixMs).1
  | .short => (effectiveStopPrice decision thresholds quote.timestampUnixMs).1 ≤ quote.price

/-- Every exit that is reported has the reason of the first triggering quote, the stop where that
quote reaches the stop; the timer is left to those positions that have none. -/
def PriceBeforeTimer : Prop :=
  ∀ quote reason,
    selectExit decision entryQuote evidence policy thresholds (some timer) = .ok (some (quote, reason)) →
      (reason = .maxHold → firstTriggering decision entryQuote evidence policy thresholds timer = none) ∧
      ∀ trigger ∈ firstTriggering decision entryQuote evidence policy thresholds timer,
        thresholdReason decision thresholds trigger = some reason ∧
          (ReachesStop decision thresholds trigger →
            reason = (effectiveStopPrice decision thresholds trigger.timestampUnixMs).2)

/-- The first quote at the timer's own time is harmless and a later one of that millisecond is not,
no quote has triggered before, and the exit can be executed. -/
def TimerHidesTrigger : Prop :=
  entryQuote.timestampUnixMs < timer.effectiveAtNextBarOpenUnixMs ∧
  (∀ quote ∈ evidence.quotes decision.direction.exitSide,
    FollowsEntry decision entryQuote policy quote →
      quote.timestampUnixMs < timer.effectiveAtNextBarOpenUnixMs →
        thresholdReason decision thresholds quote = none) ∧
  (∃ first, (evidence.quotes decision.direction.exitSide).find? (fun quote =>
      quote.timestampUnixMs = timer.effectiveAtNextBarOpenUnixMs) = some first ∧
    thresholdReason decision thresholds first = none) ∧
  (∃ quote ∈ evidence.quotes decision.direction.exitSide,
    quote.timestampUnixMs = timer.effectiveAtNextBarOpenUnixMs ∧
      thresholdReason decision thresholds quote ≠ none) ∧
  ∃ quote ∈ evidence.quotes decision.direction.exitSide,
    timer.effectiveAtNextBarOpenUnixMs + policy.latencySlippage.exitLatencyMs ≤ quote.timestampUnixMs ∧
      quote.timestampUnixMs ≤ timer.effectiveAtNextBarOpenUnixMs + policy.maxExitWaitMs

end Precedence

variable {decision : CanonicalBarSignalResearchDecision P} {entryQuote quote : ExactHistoricalQuote P}
  {policy : QuoteValidatedResearchReplayPolicy P} {timer : ClosedCanonicalBarTimeExit}
  {thresholds : List (ClosedCanonicalBarTrailingThreshold P)} {timerAt : Option Int} {t : Int}
  {reason : QuoteValidatedResearchExitReason}

theorem thresholdReason_ne_maxHold : thresholdReason decision thresholds quote ≠ some .maxHold := by
  have hstop : (effectiveStopPrice decision thresholds quote.timestampUnixMs).2 ≠ .maxHold := by
    unfold effectiveStopPrice
    simp only
    split <;> simp
  unfold thresholdReason
  simp only
  split <;> split_ifs <;> simp [hstop]

theorem thresholdReason_of_reachesStop (h : ReachesStop decision thresholds quote) :
    thresholdReason decision thresholds quote =
      some (effectiveStopPrice decision thresholds quote.timestampUnixMs).2 := by
  unfold ReachesStop at h
  unfold thresholdReason
  cases hdirection : decision.direction with
  | long =>
    simp only [hdirection] at h
    simp [h]
  | short =>
    simp only [hdirection] at h
    simp [h]

theorem exitTrigger_past (hpast : t < quote.timestampUnixMs) :
    exitTrigger decision entryQuote policy thresholds (some t) quote = .ok (some (t, .maxHold)) := by
  have htimer : (some t).filter (fun timer => timer < quote.timestampUnixMs) = some t := by
    simpa using hpast
  rw [exitTrigger, htimer]

theorem exitTrigger_due (hentry : entryQuote.timestampUnixMs < t)
    (hdue : quote.timestampUnixMs = t) :
    exitTrigger decision entryQuote policy thresholds (some t) quote =
      .ok (some (t, (thresholdReason decision thresholds quote).getD .maxHold)) := by
  have htimer : (some t).filter (fun timer => timer < quote.timestampUnixMs) = none := by
    simp [hdue]
  have hlater : ¬t = entryQuote.timestampUnixMs := by omega
  rw [exitTrigger, htimer]
  simp only [hdue, if_true, hlater, and_false, if_false]
  cases thresholdReason decision thresholds quote <;> rfl

theorem exitTrigger_early (hearly : quote.timestampUnixMs < t) :
    exitTrigger decision entryQuote policy thresholds (some t) quote =
      match thresholdReason decision thresholds quote with
      | none => .ok none
      | some reason =>
        if quote.timestampUnixMs = entryQuote.timestampUnixMs then
          match sameTimestampExitOccursAfterEntry decision.direction.entrySide
              decision.direction.exitSide policy with
          | some true => .ok (some (quote.timestampUnixMs, reason))
          | some false => .ok none
          | none => .error ⟨.ambiguousSameTimestampCrossSideOutcome,
              "same-timestamp side order changes the modeled position outcome"⟩
        else .ok (some (quote.timestampUnixMs, reason)) := by
  have htimer : (some t).filter (fun timer => timer < quote.timestampUnixMs) = none := by
    have hle : quote.timestampUnixMs ≤ t := hearly.le
    simpa using hle
  have hnot : ¬some t = some quote.timestampUnixMs := by
    rw [Option.some.injEq]
    omega
  rw [exitTrigger, htimer]
  simp only [hnot, if_false, Option.or_none]
  cases thresholdReason decision thresholds quote with
  | none => simp
  | some reason =>
    by_cases hsame : quote.timestampUnixMs = entryQuote.timestampUnixMs
    · cases hafter : sameTimestampExitOccursAfterEntry decision.direction.entrySide
          decision.direction.exitSide policy with
      | none => simp [hsame]
      | some after => cases after <;> simp [hsame]
    · simp [hsame]

/-- A quote leaves the position open when it stands before the timer and sets nothing off. -/
theorem exitTrigger_none_iff (hentry : entryQuote.timestampUnixMs < t)
    (hquote : entryQuote.timestampUnixMs ≤ quote.timestampUnixMs) :
    exitTrigger decision entryQuote policy thresholds (some t) quote = .ok none ↔
      quote.timestampUnixMs < t ∧
      (FollowsEntry decision entryQuote policy quote →
        thresholdReason decision thresholds quote = none) := by
  obtain hearly | hdue | hpast := lt_trichotomy quote.timestampUnixMs t
  · rw [exitTrigger_early hearly]
    cases thresholdReason decision thresholds quote with
    | none => simp [hearly]
    | some reason =>
      obtain hafter | hsame := lt_or_eq_of_le hquote
      · have hne : quote.timestampUnixMs ≠ entryQuote.timestampUnixMs := by omega
        simp [FollowsEntry, hafter, hne]
      · simp only [FollowsEntry, ← hsame, if_true, lt_irrefl, false_or, true_and]
        cases sameTimestampExitOccursAfterEntry decision.direction.entrySide
            decision.direction.exitSide policy with
        | none => simp
        | some after => cases after <;> simp [hsame, hearly]
  · simp [exitTrigger_due hentry hdue, hdue]
  · have hnot : ¬quote.timestampUnixMs < t := by omega
    simp [exitTrigger_past hpast, hnot]

/-- What sets an exit off: the price at or before the timer, or the timer itself. -/
theorem exitTrigger_some {triggerAt : Int} (hentry : entryQuote.timestampUnixMs < t)
    (hquote : entryQuote.timestampUnixMs ≤ quote.timestampUnixMs)
    (h : exitTrigger decision entryQuote policy thresholds (some t) quote =
      .ok (some (triggerAt, reason))) :
    (FollowsEntry decision entryQuote policy quote ∧ quote.timestampUnixMs ≤ t ∧
        thresholdReason decision thresholds quote = some reason) ∨
      (t < quote.timestampUnixMs ∧ reason = .maxHold) ∨
      (quote.timestampUnixMs = t ∧ thresholdReason decision thresholds quote = none ∧ triggerAt = t ∧
        reason = .maxHold) := by
  obtain hearly | hdue | hpast := lt_trichotomy quote.timestampUnixMs t
  · rw [exitTrigger_early hearly] at h
    cases hreason : thresholdReason decision thresholds quote with
    | none => simp [hreason] at h
    | some found =>
      simp only [hreason] at h
      obtain hafter | hsame := lt_or_eq_of_le hquote
      · rw [if_neg (by omega)] at h
        cases h
        exact .inl ⟨.inl hafter, by omega, rfl⟩
      · rw [if_pos hsame.symm] at h
        split at h
        next horder =>
          cases h
          exact .inl ⟨.inr ⟨hsame.symm, by simp [horder]⟩, by omega, rfl⟩
        next => cases h
        next => cases h
  · rw [exitTrigger_due hentry hdue] at h
    cases hreason : thresholdReason decision thresholds quote with
    | none =>
      rw [hreason] at h
      cases h
      exact .inr (.inr ⟨hdue, rfl, rfl, rfl⟩)
    | some found =>
      rw [hreason] at h
      cases h
      exact .inl ⟨.inl (by omega), by omega, rfl⟩
  · rw [exitTrigger_past hpast] at h
    cases h
    exact .inr (.inl ⟨hpast, rfl⟩)

/-- An exit comes from the first quote that sets one off. -/
theorem selectExitFrom_some_iff {exitQuotes : List (ExactHistoricalQuote P)} {window : EvidenceWindow}
    (hquotes : QuotesInOrder window exitQuotes) {triggerIndex : Nat}
    {triggers : List (ExactHistoricalQuote P)} :
    selectExitFrom decision entryQuote policy thresholds timerAt exitQuotes triggerIndex triggers =
        .ok (some (quote, reason)) ↔
      ∃ front trigger back triggerAt, triggers = front ++ trigger :: back ∧
        (∀ earlier ∈ front,
          exitTrigger decision entryQuote policy thresholds timerAt earlier = .ok none) ∧
        exitTrigger decision entryQuote policy thresholds timerAt trigger =
          .ok (some (triggerAt, reason)) ∧
        selectExitReference exitQuotes (triggerIndex + front.length) triggerAt reason policy =
          .ok (some (quote, reason)) := by
  induction triggers generalizing triggerIndex with
  | nil =>
    constructor
    · intro h
      unfold selectExitFrom at h
      split at h
      next =>
        obtain ⟨-, -, found, -, hfind, -⟩ := (selectExitReference_ok_iff hquotes).mp h
        simp at hfind
      next => cases h
    · intro h
      obtain ⟨front, trigger, back, -, hsplit, -⟩ := h
      simp at hsplit
  | cons trigger triggers ih =>
    rw [selectExitFrom, bind_ok_iff]
    constructor
    · intro h
      obtain ⟨triggered, htriggered, h⟩ := h
      split at h
      next triggerAt found =>
        obtain ⟨-, -, _, hfound, -⟩ := (selectExitReference_ok_iff hquotes).mp h
        cases hfound
        exact ⟨[], trigger, triggers, triggerAt, rfl, by simp, htriggered, h⟩
      next =>
        obtain ⟨front, later, back, triggerAt, rfl, hfront, hlater, href⟩ := ih.mp h
        refine ⟨trigger :: front, later, back, triggerAt, rfl, ?_, hlater, ?_⟩
        · intro earlier hearlier
          obtain rfl | hearlier := List.mem_cons.mp hearlier
          · exact htriggered
          · exact hfront _ hearlier
        · rw [List.length_cons, Nat.add_comm front.length, ← Nat.add_assoc]
          exact href
    · intro h
      obtain ⟨front, later, back, triggerAt, hsplit, hfront, hlater, href⟩ := h
      cases front with
      | nil =>
        cases hsplit
        exact ⟨_, hlater, href⟩
      | cons earlier front =>
        cases hsplit
        refine ⟨none, hfront _ List.mem_cons_self, ih.mpr ?_⟩
        refine ⟨front, later, back, triggerAt, rfl, ?_, hlater, ?_⟩
        · intro other hother
          exact hfront other (List.mem_cons_of_mem _ hother)
        · rw [List.length_cons, Nat.add_comm front.length, ← Nat.add_assoc] at href
          exact href

section Timer

variable {evidence : CompleteBidAskQuoteReplayEvidence P} {window : EvidenceWindow}
  (hquotes : QuotesInOrder window (evidence.quotes decision.direction.exitSide))
include hquotes

theorem selectExit_some_iff :
    selectExit decision entryQuote evidence policy thresholds (some timer) = .ok (some (quote, reason)) ↔
      entryQuote.timestampUnixMs < timer.effectiveAtNextBarOpenUnixMs ∧
      ∃ front trigger back triggerAt,
        (evidence.quotes decision.direction.exitSide).filter
            (fun quote => entryQuote.timestampUnixMs ≤ quote.timestampUnixMs) =
          front ++ trigger :: back ∧
        (∀ earlier ∈ front, exitTrigger decision entryQuote policy thresholds
          (some timer.effectiveAtNextBarOpenUnixMs) earlier = .ok none) ∧
        exitTrigger decision entryQuote policy thresholds (some timer.effectiveAtNextBarOpenUnixMs)
          trigger = .ok (some (triggerAt, reason)) ∧
        I64.InRange (triggerAt + policy.latencySlippage.exitLatencyMs) ∧
        I64.InRange (triggerAt + policy.maxExitWaitMs) ∧
        (trigger :: back).find? (fun quote =>
          triggerAt + policy.latencySlippage.exitLatencyMs ≤ quote.timestampUnixMs) = some quote ∧
        quote.timestampUnixMs ≤ triggerAt + policy.maxExitWaitMs := by
  rw [selectExit_ok_iff hquotes]
  simp only [Option.mem_some_iff, forall_eq', Option.map_some]
  apply and_congr_right
  intro _
  rw [selectExitFrom_some_iff hquotes]
  apply exists_congr; intro front
  apply exists_congr; intro trigger
  apply exists_congr; intro back
  apply exists_congr; intro triggerAt
  apply and_congr_right
  intro hsplit
  apply and_congr_right
  intro _
  apply and_congr_right
  intro _
  rw [selectExitReference_ok_iff hquotes, ← List.drop_drop, drop_eligible hquotes, hsplit,
    List.drop_left]
  simp

omit [LinearOrder P] in
theorem mem_exitQuotes_of_split {front back : List (ExactHistoricalQuote P)}
    {trigger : ExactHistoricalQuote P}
    (hsplit : (evidence.quotes decision.direction.exitSide).filter
      (fun quote => entryQuote.timestampUnixMs ≤ quote.timestampUnixMs) = front ++ trigger :: back) :
    (∀ earlier ∈ front, entryQuote.timestampUnixMs ≤ earlier.timestampUnixMs ∧
        earlier.timestampUnixMs ≤ trigger.timestampUnixMs) ∧
      entryQuote.timestampUnixMs ≤ trigger.timestampUnixMs ∧
      ∀ later ∈ back, trigger.timestampUnixMs ≤ later.timestampUnixMs := by
  have hmem : ∀ quote ∈ front ++ trigger :: back,
      entryQuote.timestampUnixMs ≤ quote.timestampUnixMs := by
    intro quote hquote
    rw [← hsplit] at hquote
    simpa using (List.mem_filter.mp hquote).2
  have hascending := (hquotes.sublist (List.filter_sublist (p := fun quote =>
    entryQuote.timestampUnixMs ≤ quote.timestampUnixMs))).ascending
  rw [hsplit] at hascending
  obtain ⟨-, hback, hfront⟩ := List.pairwise_append.mp hascending
  refine ⟨?_, hmem trigger (by simp), (List.pairwise_cons.mp hback).1⟩
  intro earlier hearlier
  exact ⟨hmem earlier (List.mem_append_left _ hearlier),
    hfront earlier hearlier trigger List.mem_cons_self⟩

omit hquotes [LinearOrder P] in
/-- Of ascending quotes, the first one that is eligible is the earliest. -/
theorem find?_le {t : Int} {quotes : List (ExactHistoricalQuote P)} {quote found : ExactHistoricalQuote P}
    (hascending : quotes.Pairwise fun a b => a.timestampUnixMs ≤ b.timestampUnixMs)
    (hmem : quote ∈ quotes) (hquote : t ≤ quote.timestampUnixMs)
    (hfound : quotes.find? (fun quote => t ≤ quote.timestampUnixMs) = some found) :
    found.timestampUnixMs ≤ quote.timestampUnixMs := by
  obtain ⟨-, front, back, rfl, hfront⟩ := List.find?_eq_some_iff_append.mp hfound
  obtain hmem | hmem := List.mem_append.mp hmem
  · have hnot := hfront quote hmem
    simp [hquote] at hnot
  · obtain rfl | hmem := List.mem_cons.mp hmem
    · exact le_rfl
    · exact (List.pairwise_cons.mp (List.pairwise_append.mp hascending).2.1).1 quote hmem

omit hquotes [LinearOrder P] in
/-- A search for quotes behind the entry can start at the entry. -/
theorem find?_behind (entryQuote : ExactHistoricalQuote P) {p : ExactHistoricalQuote P → Bool}
    {quotes : List (ExactHistoricalQuote P)}
    (hp : ∀ quote, p quote = true → entryQuote.timestampUnixMs ≤ quote.timestampUnixMs) :
    quotes.find? p = (quotes.filter fun quote =>
      entryQuote.timestampUnixMs ≤ quote.timestampUnixMs).find? p := by
  rw [List.find?_filter]
  congr 1
  funext quote
  cases hquote : p quote with
  | false => simp
  | true => simp [hp quote hquote]

omit hquotes in
theorem firstTriggering_eq : firstTriggering decision entryQuote evidence policy thresholds timer =
    ((evidence.quotes decision.direction.exitSide).filter fun quote =>
      entryQuote.timestampUnixMs ≤ quote.timestampUnixMs).find? fun quote =>
        FollowsEntry decision entryQuote policy quote ∧
          quote.timestampUnixMs ≤ timer.effectiveAtNextBarOpenUnixMs ∧
          (thresholdReason decision thresholds quote).isSome := by
  apply find?_behind entryQuote
  intro quote hquote
  obtain ⟨hfollows, -⟩ := of_decide_eq_true hquote
  obtain hlt | ⟨heq, -⟩ := hfollows
  · exact hlt.le
  · exact heq.ge

/-- Where the timer does not hide a trigger, the exit has the reason of the first one. -/
theorem priceBeforeTimer_of_not_hidden
    (h : ¬TimerHidesTrigger decision entryQuote evidence policy thresholds timer) :
    PriceBeforeTimer decision entryQuote evidence policy thresholds timer := by
  intro quote reason hexit
  obtain ⟨hentry, front, trigger, back, triggerAt, hsplit, hfront, htrigger, -, -, hfind, hdeadline⟩ :=
    (selectExit_some_iff hquotes).mp hexit
  obtain ⟨hearlier, hquote, hlater⟩ := mem_exitQuotes_of_split hquotes hsplit
  have hopen : ∀ earlier ∈ front, FollowsEntry decision entryQuote policy earlier →
      thresholdReason decision thresholds earlier = none := by
    intro earlier hmem
    exact ((exitTrigger_none_iff hentry (hearlier earlier hmem).1).mp (hfront earlier hmem)).2
  have hfirst : firstTriggering decision entryQuote evidence policy thresholds timer =
      (trigger :: back).find? fun quote => FollowsEntry decision entryQuote policy quote ∧
        quote.timestampUnixMs ≤ timer.effectiveAtNextBarOpenUnixMs ∧
        (thresholdReason decision thresholds quote).isSome := by
    rw [firstTriggering_eq, hsplit, List.find?_append, List.find?_eq_none.mpr, Option.none_or]
    intro earlier hmem
    simp only [decide_eq_true_eq, not_and]
    intro hfollows
    simp [hopen earlier hmem hfollows]
  obtain ⟨hfollows, htime, hreason⟩ | ⟨hpast, rfl⟩ | ⟨hdue, hnone, rfl, rfl⟩ :=
    exitTrigger_some hentry hquote htrigger
  · have hfound : firstTriggering decision entryQuote evidence policy thresholds timer = some trigger := by
      rw [hfirst, List.find?_cons_of_pos]
      simp [hfollows, htime, hreason]
    constructor
    · intro hmax
      rw [hmax] at hreason
      exact absurd hreason thresholdReason_ne_maxHold
    · intro found hmem
      rw [hfound] at hmem
      cases hmem
      refine ⟨hreason, ?_⟩
      intro hstop
      rw [thresholdReason_of_reachesStop hstop] at hreason
      exact (Option.some.inj hreason).symm
  · have hnothing : firstTriggering decision entryQuote evidence policy thresholds timer = none := by
      rw [hfirst, List.find?_eq_none]
      intro other hother
      have htime : timer.effectiveAtNextBarOpenUnixMs < other.timestampUnixMs := by
        obtain rfl | hother := List.mem_cons.mp hother
        · exact hpast
        · exact hpast.trans_le (hlater other hother)
      simp [htime]
    simp [hnothing]
  · suffices hnothing : firstTriggering decision entryQuote evidence policy thresholds timer = none by
      simp [hnothing]
    rw [hfirst, List.find?_eq_none]
    intro other hother htriggers
    obtain ⟨-, htime, hreason⟩ := of_decide_eq_true htriggers
    obtain rfl | hother := List.mem_cons.mp hother
    · simp [hnone] at hreason
    have hsub : ∀ quote ∈ front ++ trigger :: back,
        quote ∈ evidence.quotes decision.direction.exitSide := by
      intro quote hmem
      rw [← hsplit] at hmem
      exact (List.mem_filter.mp hmem).1
    have hle := hlater other hother
    refine h ⟨hentry, ?_, ⟨trigger, ?_, hnone⟩, ⟨other, hsub other (by simp [hother]), by omega, ?_⟩,
      ⟨quote, hsub quote ?_, ?_, hdeadline⟩⟩
    · intro before hbefore hfollows hlt
      have hin : before ∈ front ++ trigger :: back := by
        rw [← hsplit, List.mem_filter, decide_eq_true_eq]
        refine ⟨hbefore, ?_⟩
        obtain hafter | ⟨hsame, -⟩ := hfollows
        · exact hafter.le
        · exact hsame.ge
      obtain hin | hin := List.mem_append.mp hin
      · exact hopen before hin hfollows
      · obtain rfl | hin := List.mem_cons.mp hin
        · exact hnone
        · have hge := hlater before hin
          omega
    · rw [find?_behind entryQuote, hsplit, List.find?_append,
        List.find?_eq_none.mpr, Option.none_or, List.find?_cons_of_pos (by simpa using hdue)]
      · intro earlier hmem
        have hlt := ((exitTrigger_none_iff hentry (hearlier earlier hmem).1).mp (hfront earlier hmem)).1
        simpa using hlt.ne
      · intro other hother
        have heq := of_decide_eq_true hother
        omega
    · exact Option.isSome_iff_ne_none.mp hreason
    · exact List.mem_append_right _ (List.mem_of_find?_eq_some hfind)
    · simpa using List.find?_some hfind

theorem selectExit_of_hidden (hlatency : 0 ≤ policy.latencySlippage.exitLatencyMs)
    (heligible : I64.InRange
      (timer.effectiveAtNextBarOpenUnixMs + policy.latencySlippage.exitLatencyMs))
    (hdeadline : I64.InRange (timer.effectiveAtNextBarOpenUnixMs + policy.maxExitWaitMs))
    (h : TimerHidesTrigger decision entryQuote evidence policy thresholds timer) :
    ∃ quote, selectExit decision entryQuote evidence policy thresholds (some timer) =
      .ok (some (quote, .maxHold)) := by
  obtain ⟨hentry, hopen, ⟨first, hfirst, hnone⟩, -, reference, href, hafter, hbefore⟩ := h
  have hdue : first.timestampUnixMs = timer.effectiveAtNextBarOpenUnixMs := by
    simpa using List.find?_some hfirst
  rw [find?_behind entryQuote] at hfirst
  · obtain ⟨-, front, back, hsplit, hfront⟩ := List.find?_eq_some_iff_append.mp hfirst
    obtain ⟨hearlier, hquote, hlater⟩ := mem_exitQuotes_of_split hquotes hsplit
    have hearly : ∀ earlier ∈ front,
        earlier.timestampUnixMs < timer.effectiveAtNextBarOpenUnixMs := by
      intro earlier hmem
      have hle := (hearlier earlier hmem).2
      have hne : earlier.timestampUnixMs ≠ timer.effectiveAtNextBarOpenUnixMs := by
        simpa using hfront earlier hmem
      omega
    have hmem : reference ∈ first :: back := by
      have hin : reference ∈ front ++ first :: back := by
        rw [← hsplit, List.mem_filter, decide_eq_true_eq]
        exact ⟨href, by omega⟩
      obtain hin | hin := List.mem_append.mp hin
      · have hlt := hearly reference hin
        omega
      · exact hin
    have hsome : ((first :: back).find? fun quote => timer.effectiveAtNextBarOpenUnixMs +
        policy.latencySlippage.exitLatencyMs ≤ quote.timestampUnixMs).isSome := by
      rw [List.find?_isSome]
      exact ⟨reference, hmem, by simpa using hafter⟩
    obtain ⟨quote, hfind⟩ := Option.isSome_iff_exists.mp hsome
    have htail := (hquotes.sublist (List.filter_sublist (p := fun quote =>
      entryQuote.timestampUnixMs ≤ quote.timestampUnixMs))).ascending
    rw [hsplit] at htail
    have hle : quote.timestampUnixMs ≤ reference.timestampUnixMs :=
      find?_le (List.pairwise_append.mp htail).2.1 hmem (by simpa using hafter) hfind
    refine ⟨quote, (selectExit_some_iff hquotes).mpr ⟨hentry, front, first, back, _, hsplit, ?_,
      ?_, heligible, hdeadline, hfind, by omega⟩⟩
    · intro earlier hearlierMem
      refine (exitTrigger_none_iff hentry (hearlier earlier hearlierMem).1).mpr
        ⟨hearly earlier hearlierMem, ?_⟩
      intro hfollows
      have hin : earlier ∈ (evidence.quotes decision.direction.exitSide).filter
          fun quote => entryQuote.timestampUnixMs ≤ quote.timestampUnixMs := by
        rw [hsplit]
        exact List.mem_append_left _ hearlierMem
      exact hopen earlier (List.mem_filter.mp hin).1 hfollows (hearly earlier hearlierMem)
    · rw [exitTrigger_due hentry hdue, hnone]
      rfl
  · intro quote hquote
    have heq := of_decide_eq_true hquote
    omega

theorem priceBeforeTimer_iff (hlatency : 0 ≤ policy.latencySlippage.exitLatencyMs)
    (heligible : I64.InRange
      (timer.effectiveAtNextBarOpenUnixMs + policy.latencySlippage.exitLatencyMs))
    (hdeadline : I64.InRange (timer.effectiveAtNextBarOpenUnixMs + policy.maxExitWaitMs)) :
    PriceBeforeTimer decision entryQuote evidence policy thresholds timer ↔
      ¬TimerHidesTrigger decision entryQuote evidence policy thresholds timer := by
  refine ⟨?_, priceBeforeTimer_of_not_hidden hquotes⟩
  intro hprice hhidden
  obtain ⟨quote, hexit⟩ := selectExit_of_hidden hquotes hlatency heligible hdeadline hhidden
  obtain ⟨hentry, -, -, ⟨trigger, hmem, hdue, hreason⟩, -⟩ := hhidden
  have hnothing := (hprice quote .maxHold hexit).1 rfl
  have htriggers := List.find?_eq_none.mp hnothing trigger hmem
  simp only [decide_eq_true_eq, not_and] at htriggers
  exact htriggers (.inl (by omega)) (by omega) (Option.isSome_iff_ne_none.mpr hreason)

end Timer

omit [LinearOrder P] in
/-- A validated plan leaves room for the exit of its timer. -/
theorem QuoteValidatedResearchReplayPlan.Accepted.exit_inRange
    {plan : QuoteValidatedResearchReplayPlan P} (h : plan.Accepted decision)
    (htimer : plan.timeExit = some timer) :
    I64.InRange (timer.effectiveAtNextBarOpenUnixMs + plan.policy.latencySlippage.exitLatencyMs) ∧
      I64.InRange (timer.effectiveAtNextBarOpenUnixMs + plan.policy.maxExitWaitMs) := by
  have hafter := h.timer timer htimer
  have hupper := h.padded.upper
  have hfrom := plan.binding.replayScope.lockedEvaluationWindow.nonNegative
  have hto := plan.binding.replayScope.requiredQuoteCoverageWindow.bounded
  have hpadding := h.bounded.exitPadding
  have hlatency := h.bounded.exitLatency
  have hwait := h.bounded.exitWait
  have hsignal := h.signal
  have hdecided := h.decided
  constructor <;> constructor <;> unfold I64.minValue I64.maxValue at * <;> omega

/-- For every accepted plan with a timer, stop and target come before the timer exactly when no
harmless quote hides a trigger of the timer's own millisecond. -/
theorem stop_target_before_timer_iff [Ring P] {sha256 : HashPayload P → String}
    {plan : QuoteValidatedResearchReplayPlan P} {evidence : CompleteBidAskQuoteReplayEvidence P}
    (hplan : plan.validate sha256 = .ok ()) (hevidence : evidence.validatePayload sha256 = .ok ())
    (htimer : plan.timeExit = some timer) :
    PriceBeforeTimer decision entryQuote evidence plan.policy plan.trailingThresholds timer ↔
      ¬TimerHidesTrigger decision entryQuote evidence plan.policy plan.trailingThresholds timer := by
  obtain ⟨sole, haccepted⟩ := QuoteValidatedResearchReplayPlan.accepted_of_validate hplan
  obtain ⟨heligible, hdeadline⟩ := haccepted.exit_inRange htimer
  exact priceBeforeTimer_iff (CompleteBidAskQuoteReplayEvidence.inOrder_of_validatePayload hevidence _) haccepted.bounded.exitLatency
    heligible hdeadline

section UsdJpy

def usdJpyTimer : ClosedCanonicalBarTimeExit := ⟨1100, 1200⟩

/-- Two bids in the timer's own millisecond: the first is harmless, the second is below the stop. -/
def usdJpyCrowdedEvidence : CompleteBidAskQuoteReplayEvidence ℚ where
  binding := usdJpyBinding
  bid := usdJpySide .bid [(1100, 150), (1200, 150), (1200, 297 / 2)]
    "5f475c9199150f1c442091195398f874f2dde7bf327fce2e5998e1f35ef6c422"
  ask := usdJpySide .ask [(1110, 1201 / 8)]
    "e8bb753016898ff5e903be81f7a47cea2e9ab336c7af3be2e9ca4138ec111d21"
  contentSha256 := "7ca6411ab597398b4828583dd7713aee9adfa1f36283122be758b529600d713d"

def usdJpyCrowdedSha256 : HashPayload ℚ → String
  | .completeQuoteSideCoverage payload =>
    match payload.side with
    | .bid => usdJpyCrowdedEvidence.bid.contentSha256
    | .ask => usdJpyCrowdedEvidence.ask.contentSha256
  | .completeBidAskQuoteEvidence .. => usdJpyCrowdedEvidence.contentSha256
  | payload => usdJpySha256 payload

theorem usdJpyCrowded_timer_first :
    (usdJpyPlan 1100 (some usdJpyTimer)).validate usdJpyCrowdedSha256 = .ok () ∧
      usdJpyCrowdedEvidence.validate usdJpyCrowdedSha256 = .ok () ∧
      ∃ decision ∈ (usdJpyPlan 1100 (some usdJpyTimer)).decisions, ∃ entry,
        selectEntry decision usdJpyCrowdedEvidence usdJpyPolicy = .ok (.available entry) ∧
        ¬PriceBeforeTimer decision entry.entryQuote usdJpyCrowdedEvidence usdJpyPolicy []
          usdJpyTimer := by
  refine ⟨by decide +kernel, by decide +kernel, ⟨1050, 1100, .long, 149, 151⟩, by decide +kernel,
    ⟨⟨1110, 1201 / 8, 0, 0, 0⟩, ⟨1100, 150, 0, 0, 0⟩, ⟨1110, 1201 / 8, 0, 0, 0⟩⟩,
    by decide +kernel, ?_⟩
  intro hprice
  have hexit : selectExit ⟨1050, 1100, .long, 149, 151⟩ ⟨1110, 1201 / 8, 0, 0, 0⟩
      usdJpyCrowdedEvidence usdJpyPolicy [] (some usdJpyTimer) =
        .ok (some (⟨1200, 150, 0, 0, 1⟩, .maxHold)) := by decide +kernel
  have hnothing := (hprice _ _ hexit).1 rfl
  revert hnothing
  decide +kernel

theorem usdJpy_stop_target_before_timer :
    PriceBeforeTimer ⟨1050, 1100, .long, 149, 151⟩ ⟨1110, 1201 / 8, 0, 0, 0⟩ usdJpyEvidence
      usdJpyPolicy [] usdJpyTimer := by
  have hplan : (usdJpyPlan 1100 (some usdJpyTimer)).validate usdJpySha256 = .ok () := by decide +kernel
  have hevidence : usdJpyEvidence.validatePayload usdJpySha256 = .ok () := by decide +kernel
  refine (stop_target_before_timer_iff hplan hevidence rfl).mpr ?_
  intro hhidden
  obtain ⟨-, -, ⟨first, hfirst, hnone⟩, -⟩ := hhidden
  revert hnone
  have hfound : first = ⟨1200, 605 / 4, 0, 0, 1⟩ := by
    have hat : (usdJpyEvidence.quotes .bid).find? (fun quote => quote.timestampUnixMs = 1200) =
        some ⟨1200, 605 / 4, 0, 0, 1⟩ := by decide +kernel
    exact Option.some.inj (hfirst.symm.trans hat)
  rw [hfound]
  decide +kernel

end UsdJpy

end Neoethos
