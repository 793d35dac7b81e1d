import Mathlib.Data.List.Sort
import Neoethos.ReplayOutcome

/-! The replay never looks ahead: a verdict that is settled by a time `T` is the verdict on every
other evidence with the same quotes up to `T`. -/

namespace Neoethos

open Fallible

variable {P : Type} {T : Int} {window : EvidenceWindow} {quotes quotes' : List (ExactHistoricalQuote P)}

/-- The two sides show the same quotes at every timestamp up to `T`. -/
def AgreeUpTo (T : Int) (quotes quotes' : List (ExactHistoricalQuote P)) : Prop :=
  ∀ t ≤ T, quotes.filter (fun quote => quote.timestampUnixMs = t) =
    quotes'.filter fun quote => quote.timestampUnixMs = t

theorem AgreeUpTo.mem_iff (h : AgreeUpTo T quotes quotes') {quote : ExactHistoricalQuote P}
    (ht : quote.timestampUnixMs ≤ T) : quote ∈ quotes ↔ quote ∈ quotes' := by
  have heq := h _ ht
  constructor
  · intro hmem
    have hat : quote ∈ quotes.filter fun q => q.timestampUnixMs = quote.timestampUnixMs := by
      simp [hmem]
    rw [heq] at hat
    exact (List.mem_filter.mp hat).1
  · intro hmem
    have hat : quote ∈ quotes'.filter fun q => q.timestampUnixMs = quote.timestampUnixMs := by
      simp [hmem]
    rw [← heq] at hat
    exact (List.mem_filter.mp hat).1

/-- Ordered sides that agree up to `T` cannot be told apart by a selection that stops at `T`. -/
theorem AgreeUpTo.filter_eq (h : AgreeUpTo T quotes quotes') (hquotes : QuotesInOrder window quotes)
    (hquotes' : QuotesInOrder window quotes') {p : ExactHistoricalQuote P → Bool}
    (hp : ∀ quote, p quote = true → quote.timestampUnixMs ≤ T) : quotes.filter p = quotes'.filter p := by
  have hirrefl : Std.Irrefl fun a b : ExactHistoricalQuote P => a.key < b.key :=
    ⟨fun a => lt_irrefl a.key⟩
  have hanti : Std.Antisymm fun a b : ExactHistoricalQuote P => a.key < b.key :=
    ⟨fun a b hab hba => absurd hba (lt_asymm hab)⟩
  refine List.Pairwise.eq_of_mem_iff (hquotes.ordered.filter p) (hquotes'.ordered.filter p) ?_
  intro quote
  rw [List.mem_filter, List.mem_filter]
  apply and_congr_left
  intro hquote
  exact h.mem_iff (hp quote hquote)

/-- From any time on, the two sides are a common past and a future that starts behind `T`. -/
theorem AgreeUpTo.common_past (h : AgreeUpTo T quotes quotes') (hquotes : QuotesInOrder window quotes)
    (hquotes' : QuotesInOrder window quotes') (t : Int) :
    ∃ past later later',
      quotes.filter (fun quote => t ≤ quote.timestampUnixMs) = past ++ later ∧
      quotes'.filter (fun quote => t ≤ quote.timestampUnixMs) = past ++ later' ∧
      (∀ quote ∈ past, quote.timestampUnixMs ≤ T) ∧
      (∀ quote ∈ later, T < quote.timestampUnixMs) ∧
      (∀ quote ∈ later', T < quote.timestampUnixMs) := by
  have hfrom := hquotes.sublist (List.filter_sublist (p := fun quote => t ≤ quote.timestampUnixMs))
  have hfrom' := hquotes'.sublist (List.filter_sublist (p := fun quote => t ≤ quote.timestampUnixMs))
  have hsplit := (hfrom.partitioned_le T).split
  have hsplit' := (hfrom'.partitioned_le T).split
  have hpast : (quotes'.filter fun quote => t ≤ quote.timestampUnixMs).filter
      (fun quote => quote.timestampUnixMs ≤ T) =
        (quotes.filter fun quote => t ≤ quote.timestampUnixMs).filter
          fun quote => quote.timestampUnixMs ≤ T := by
    rw [List.filter_filter, List.filter_filter]
    refine (h.filter_eq hquotes hquotes' ?_).symm
    intro quote hquote
    simp only [Bool.and_eq_true, decide_eq_true_eq] at hquote
    exact hquote.1
  rw [hpast] at hsplit'
  refine ⟨_, _, _, hsplit.symm, hsplit'.symm, ?_, ?_, ?_⟩
  · intro quote hquote
    simpa using (List.mem_filter.mp hquote).2
  · intro quote hquote
    simpa using (List.mem_filter.mp hquote).2
  · intro quote hquote
    simpa using (List.mem_filter.mp hquote).2

theorem AgreeUpTo.latestBook_eq (h : AgreeUpTo T quotes quotes')
    (hquotes : QuotesInOrder window quotes) (hquotes' : QuotesInOrder window quotes') {t : Int}
    (ht : t ≤ T) (oppositeSide entrySide : QuoteSide)
    (policy : QuoteValidatedResearchReplayPolicy P) :
    latestBookQuoteAtEntry oppositeSide entrySide quotes t policy =
      latestBookQuoteAtEntry oppositeSide entrySide quotes' t policy := by
  apply latestBookQuoteAtEntry_congr hquotes hquotes'
  · apply h.filter_eq hquotes hquotes'
    intro quote hquote
    simp only [decide_eq_true_eq] at hquote
    omega
  · apply h.filter_eq hquotes hquotes'
    intro quote hquote
    simp only [decide_eq_true_eq] at hquote
    omega

theorem selectExitReference_causal {firstIndex : Nat} {triggerAt : Int}
    {reason reason' : QuoteValidatedResearchExitReason} {quote : ExactHistoricalQuote P}
    {policy : QuoteValidatedResearchReplayPolicy P} {past later later' : List (ExactHistoricalQuote P)}
    (hquotes : QuotesInOrder window quotes) (hquotes' : QuotesInOrder window quotes')
    (hdrop : quotes.drop firstIndex = past ++ later) (hdrop' : quotes'.drop firstIndex = past ++ later')
    (hlater : ∀ quote ∈ later, T < quote.timestampUnixMs) (hsettled : quote.timestampUnixMs ≤ T)
    (hselect : selectExitReference quotes firstIndex triggerAt reason policy =
      .ok (some (quote, reason'))) :
    selectExitReference quotes' firstIndex triggerAt reason policy = .ok (some (quote, reason')) := by
  rw [selectExitReference_ok_iff hquotes] at hselect
  rw [selectExitReference_ok_iff hquotes']
  obtain ⟨hlatency, hwait, found, hsome, hfind, hdeadline⟩ := hselect
  refine ⟨hlatency, hwait, found, hsome, ?_, hdeadline⟩
  cases hsome
  rw [hdrop, List.find?_append, Option.or_eq_some_iff] at hfind
  rw [hdrop', List.find?_append, Option.or_eq_some_iff]
  obtain hpast | ⟨-, hfuture⟩ := hfind
  · exact .inl hpast
  · have := hlater quote (List.mem_of_find?_eq_some hfuture)
    omega

theorem AgreeUpTo.sides {evidence evidence' : CompleteBidAskQuoteReplayEvidence P}
    (hbid : AgreeUpTo T evidence.bid.quoteRecords evidence'.bid.quoteRecords)
    (hask : AgreeUpTo T evidence.ask.quoteRecords evidence'.ask.quoteRecords) (side : QuoteSide) :
    AgreeUpTo T (evidence.quotes side) (evidence'.quotes side) := by
  cases side with
  | bid => exact hbid
  | ask => exact hask

section Searches

variable [LinearOrder P] {decision : CanonicalBarSignalResearchDecision P}
  {policy : QuoteValidatedResearchReplayPolicy P} {deadline : Int}
  {past later later' : List (ExactHistoricalQuote P)} {entryQuote : ExactHistoricalQuote P}
  {thresholds : List (ClosedCanonicalBarTrailingThreshold P)} {timerAt : Option Int}

/-- The selection was made by time `T`. -/
def EntrySelection.SettledBy (T : Int) : EntrySelection P → Prop
  | .available entry => entry.entryQuote.timestampUnixMs ≤ T
  | .unavailable nonEntry => nonEntry.deadlineUnixMs ≤ T

/-- The entry loop, with an opposite side that agrees up to `T` and other candidates behind `T`. -/
theorem selectEntryFrom_causal (h : AgreeUpTo T quotes quotes')
    (hquotes : QuotesInOrder window quotes) (hquotes' : QuotesInOrder window quotes')
    (hpast : ∀ quote ∈ past, quote.timestampUnixMs ≤ T)
    (hlater : ∀ quote ∈ later, T < quote.timestampUnixMs)
    (hlater' : ∀ quote ∈ later', T < quote.timestampUnixMs)
    {sawStaleCandidate : Bool} {selection : EntrySelection P} (hsettled : selection.SettledBy T)
    (hselect : selectEntryFrom decision policy quotes deadline sawStaleCandidate (past ++ later) =
      .ok selection) :
    selectEntryFrom decision policy quotes' deadline sawStaleCandidate (past ++ later') =
      .ok selection := by
  induction past generalizing sawStaleCandidate with
  | nil =>
    cases selection with
    | available entry =>
      -- the entry would be a candidate behind `T`
      have hentry := hlater _ (selectEntryFrom_available hselect).1
      simp only [EntrySelection.SettledBy] at hsettled
      omega
    | unavailable unavailable =>
      have hdeadline := selectEntryFrom_unavailable hselect
      simp only [EntrySelection.SettledBy] at hsettled
      have hlate : ∀ quote ∈ later, deadline < quote.timestampUnixMs := by
        intro quote hquote
        have := hlater quote hquote
        omega
      have hlate' : ∀ quote ∈ later', deadline < quote.timestampUnixMs := by
        intro quote hquote
        have := hlater' quote hquote
        omega
      rw [List.nil_append, selectEntryFrom_late hlate] at hselect
      rw [List.nil_append, selectEntryFrom_late hlate']
      exact hselect
  | cons candidate past ih =>
    have htime := hpast candidate List.mem_cons_self
    have hbook := h.latestBook_eq hquotes hquotes' htime decision.direction.exitSide
      decision.direction.entrySide policy
    rw [List.cons_append, selectEntryFrom_cons] at hselect ⊢
    obtain hlate | ⟨hintime, latest, hlatest, hfound | ⟨hstale, hrest⟩⟩ := hselect
    · exact .inl hlate
    · exact .inr ⟨hintime, latest, hbook.symm.trans hlatest, .inl hfound⟩
    · have hpast := fun quote hquote => hpast quote (List.mem_cons_of_mem _ hquote)
      exact .inr ⟨hintime, latest, hbook.symm.trans hlatest, .inr ⟨hstale, ih hpast hrest⟩⟩

theorem selectEntry_causal {evidence evidence' : CompleteBidAskQuoteReplayEvidence P}
    (hagree : ∀ side, AgreeUpTo T (evidence.quotes side) (evidence'.quotes side))
    (hquotes : ∀ side, QuotesInOrder window (evidence.quotes side))
    (hquotes' : ∀ side, QuotesInOrder window (evidence'.quotes side))
    {selection : EntrySelection P} (hsettled : selection.SettledBy T)
    (hselect : selectEntry decision evidence policy = .ok selection) :
    selectEntry decision evidence' policy = .ok selection := by
  rw [selectEntry_ok_iff (hquotes _)] at hselect
  rw [selectEntry_ok_iff (hquotes' _)]
  obtain ⟨hlatency, hwait, hselect⟩ := hselect
  obtain ⟨past, later, later', hsplit, hsplit', hpast, hlater, hlater'⟩ :=
    (hagree decision.direction.entrySide).common_past (hquotes _) (hquotes' _)
      (decision.nextCanonicalBarOpenUnixMs + policy.latencySlippage.entryLatencyMs)
  rw [hsplit] at hselect
  rw [hsplit']
  exact ⟨hlatency, hwait, selectEntryFrom_causal (hagree _) (hquotes _) (hquotes' _) hpast hlater
    hlater' hsettled hselect⟩

/-- The trigger loop, with other triggers behind `T`. -/
theorem selectExitFrom_causal {triggerIndex : Nat} {reason : QuoteValidatedResearchExitReason}
    {quote : ExactHistoricalQuote P} (hquotes : QuotesInOrder window quotes)
    (hquotes' : QuotesInOrder window quotes') (hdrop : quotes.drop triggerIndex = past ++ later)
    (hdrop' : quotes'.drop triggerIndex = past ++ later')
    (hlater : ∀ quote ∈ later, T < quote.timestampUnixMs) (hsettled : quote.timestampUnixMs ≤ T)
    (hselect : selectExitFrom decision entryQuote policy thresholds timerAt quotes triggerIndex
      (past ++ later) = .ok (some (quote, reason))) :
    selectExitFrom decision entryQuote policy thresholds timerAt quotes' triggerIndex
      (past ++ later') = .ok (some (quote, reason)) := by
  induction past generalizing triggerIndex with
  | nil =>
    have := hlater quote (selectExitFrom_mem hquotes hdrop hselect)
    omega
  | cons trigger past ih =>
    rw [List.cons_append, selectExitFrom] at hselect ⊢
    obtain ⟨triggered, htriggered, hselect⟩ := bind_ok_iff.mp hselect
    refine bind_ok_iff.mpr ⟨triggered, htriggered, ?_⟩
    cases triggered with
    | some trigger =>
      exact selectExitReference_causal hquotes hquotes' hdrop hdrop' hlater hsettled hselect
    | none =>
      have hnext : quotes.drop (triggerIndex + 1) = past ++ later := by
        rw [← List.drop_drop, hdrop]
        rfl
      have hnext' : quotes'.drop (triggerIndex + 1) = past ++ later' := by
        rw [← List.drop_drop, hdrop']
        rfl
      exact ih hnext hnext' hselect

theorem selectExit_causal {evidence evidence' : CompleteBidAskQuoteReplayEvidence P}
    (hagree : ∀ side, AgreeUpTo T (evidence.quotes side) (evidence'.quotes side))
    (hquotes : ∀ side, QuotesInOrder window (evidence.quotes side))
    (hquotes' : ∀ side, QuotesInOrder window (evidence'.quotes side))
    {timeExit : Option ClosedCanonicalBarTimeExit} {quote : ExactHistoricalQuote P}
    {reason : QuoteValidatedResearchExitReason} (hsettled : quote.timestampUnixMs ≤ T)
    (hselect : selectExit decision entryQuote evidence policy thresholds timeExit =
      .ok (some (quote, reason))) :
    selectExit decision entryQuote evidence' policy thresholds timeExit =
      .ok (some (quote, reason)) := by
  have hentry := selectExit_mem (hquotes _) hselect
  have hbefore := (hagree decision.direction.exitSide).filter_eq (hquotes _) (hquotes' _)
    (p := fun quote => quote.timestampUnixMs < entryQuote.timestampUnixMs) (by
      intro quote hquote
      simp only [decide_eq_true_eq] at hquote
      omega)
  have hindex := Slice.partitionPoint_eq
    ((hquotes decision.direction.exitSide).partitioned_lt entryQuote.timestampUnixMs)
  have hindex' := Slice.partitionPoint_eq
    ((hquotes' decision.direction.exitSide).partitioned_lt entryQuote.timestampUnixMs)
  have hdrop := drop_eligible (hquotes decision.direction.exitSide) entryQuote.timestampUnixMs
  have hdrop' := drop_eligible (hquotes' decision.direction.exitSide) entryQuote.timestampUnixMs
  rw [selectExit_ok_iff (hquotes _)] at hselect
  rw [selectExit_ok_iff (hquotes' _)]
  obtain ⟨htimer, hselect⟩ := hselect
  obtain ⟨past, later, later', hsplit, hsplit', -, hlater, -⟩ :=
    (hagree decision.direction.exitSide).common_past (hquotes _) (hquotes' _)
      entryQuote.timestampUnixMs
  -- both loops start at the same index, as the sides agree before the entry
  rw [hindex, hsplit] at hselect hdrop
  rw [hindex', ← hbefore, hsplit'] at hdrop' ⊢
  exact ⟨htimer, selectExitFrom_causal (hquotes _) (hquotes' _) hdrop hdrop' hlater hsettled hselect⟩

end Searches

section Replay

variable [Ring P] [LinearOrder P] {plan : QuoteValidatedResearchReplayPlan P}
  {evidence evidence' : CompleteBidAskQuoteReplayEvidence P}
  {decision : CanonicalBarSignalResearchDecision P} {sha256 : HashPayload P → String}
  {authority authority' : QuoteValidatedResearchAuthority} {manifest manifest' : Option String}
  {ledger : QuoteValidatedResearchLedger P}

/-- There is an exit at or before `T`, or an entry that was given up at or before `T`. -/
def SettledBy (T : Int) (positions : List (QuoteValidatedResearchPosition P))
    (entryUnavailable : List QuoteValidatedResearchNonEntry) : Prop :=
  (∃ position ∈ positions, ∃ exit ∈ position.exitReference, exit.timestampUnixMs ≤ T) ∨
    ∃ unavailable ∈ entryUnavailable, unavailable.deadlineUnixMs ≤ T

theorem replayPosition_causal {entry : SelectedEntryBook P} {position : QuoteValidatedResearchPosition P}
    (hagree : ∀ side, AgreeUpTo T (evidence.quotes side) (evidence'.quotes side))
    (hquotes : ∀ side, QuotesInOrder window (evidence.quotes side))
    (hquotes' : ∀ side, QuotesInOrder window (evidence'.quotes side))
    (hreplay : replayPosition plan evidence decision entry = .ok position)
    {exit : QuoteValidatedPriceReference P} (hexit : position.exitReference = some exit)
    (hsettled : exit.timestampUnixMs ≤ T) :
    entry.entryQuote.timestampUnixMs ≤ T ∧
      replayPosition plan evidence' decision entry = .ok position := by
  obtain ⟨-, selected, hselect, hreference⟩ := replayPosition_ok hreplay
  rw [hexit] at hreference
  cases selected with
  | none => cases hreference
  | some found =>
    cases hreference
    have hentry := selectExit_mem (hquotes _) hselect
    have hselect' := selectExit_causal hagree hquotes hquotes' hsettled hselect
    simp only [QuoteValidatedPriceReference.fromQuote] at hsettled
    refine ⟨by omega, ?_⟩
    unfold replayPosition at hreplay ⊢
    rw [hselect] at hreplay
    rw [hselect']
    exact hreplay

theorem DecisionOutcome.causal {positions : List (QuoteValidatedResearchPosition P)}
    {entryUnavailable : List QuoteValidatedResearchNonEntry}
    (hagree : ∀ side, AgreeUpTo T (evidence.quotes side) (evidence'.quotes side))
    (hquotes : ∀ side, QuotesInOrder window (evidence.quotes side))
    (hquotes' : ∀ side, QuotesInOrder window (evidence'.quotes side))
    (hsettled : SettledBy T positions entryUnavailable)
    (h : DecisionOutcome plan evidence decision positions entryUnavailable) :
    DecisionOutcome plan evidence' decision positions entryUnavailable := by
  cases h with
  | entered hentry hposition =>
    obtain ⟨position, hmem, exit, hexit, hsettled⟩ | ⟨unavailable, hmem, -⟩ := hsettled
    · cases List.mem_singleton.mp hmem
      obtain ⟨hentrySettled, hposition'⟩ :=
        replayPosition_causal hagree hquotes hquotes' hposition hexit hsettled
      exact .entered (selectEntry_causal hagree hquotes hquotes' hentrySettled hentry) hposition'
    · cases hmem
  | notEntered hentry =>
    obtain ⟨position, hmem, -⟩ | ⟨unavailable, hmem, hsettled⟩ := hsettled
    · cases hmem
    · cases List.mem_singleton.mp hmem
      exact .notEntered (selectEntry_causal hagree hquotes hquotes' hsettled hentry)

/-- No look-ahead. `validatePayload` is what both ways into the replay have checked of the
evidence; the second run may also differ in its authority. -/
theorem replay_is_causal (hcomplete : evidence.validatePayload sha256 = .ok ())
    (hcomplete' : evidence'.validatePayload sha256 = .ok ())
    (hbinding : evidence.binding = evidence'.binding)
    (hbid : AgreeUpTo T evidence.bid.quoteRecords evidence'.bid.quoteRecords)
    (hask : AgreeUpTo T evidence.ask.quoteRecords evidence'.ask.quoteRecords)
    (hauthority : validateAuthority authority' manifest' = .ok ())
    (hreplay : replayWithAuthority sha256 plan evidence authority manifest = .ok ledger)
    (hsettled : SettledBy T ledger.positions ledger.entryUnavailable) :
    ∃ ledger', replayWithAuthority sha256 plan evidence' authority' manifest' = .ok ledger' ∧
      ledger'.positions = ledger.positions ∧ ledger'.entryUnavailable = ledger.entryUnavailable := by
  obtain ⟨hplan, -, hplanBinding, decision, haccepted, houtcome⟩ :=
    replayWithAuthority_ok_iff.mp ⟨ledger, hreplay, rfl, rfl⟩
  have hquotes := CompleteBidAskQuoteReplayEvidence.inOrder_of_validatePayload hcomplete
  have hquotes' := CompleteBidAskQuoteReplayEvidence.inOrder_of_validatePayload hcomplete'
  rw [← hbinding] at hquotes'
  exact replayWithAuthority_ok_iff.mpr ⟨hplan, hauthority, hplanBinding.trans hbinding, decision,
    haccepted, houtcome.causal (AgreeUpTo.sides hbid hask) hquotes hquotes' hsettled⟩

end Replay

theorem agreeUpTo_of_append {later : List (ExactHistoricalQuote P)} (hsplit : quotes = quotes' ++ later)
    (hlater : ∀ quote ∈ later, T < quote.timestampUnixMs) : AgreeUpTo T quotes quotes' := by
  intro t ht
  rw [hsplit, List.filter_append]
  have hnone : later.filter (fun quote => quote.timestampUnixMs = t) = [] := by
    rw [List.filter_eq_nil_iff]
    intro quote hquote
    have := hlater quote hquote
    simp only [decide_eq_true_eq]
    omega
  rw [hnone, List.append_nil]

/-- The first position stays what it is when the broker loses every quote behind its exit. -/
theorem replay_is_causal_without_later_quotes :
    ∃ ledger, replayWithAuthority usdJpySha256 (usdJpyPlan 1100 none) usdJpyPastEvidence
        .unverifiedCallerSuppliedQuotes none = .ok ledger ∧
      ledger.positions = [usdJpyPosition] ∧ ledger.entryUnavailable = [] := by
  obtain ⟨ledger, hreplay, hledger⟩ := exists_ok_of_any
    (x := replayWithAuthority usdJpySha256 (usdJpyPlan 1100 none) usdJpyEvidence
      .unverifiedCallerSuppliedQuotes none)
    (p := fun ledger => ledger.positions = [usdJpyPosition] ∧ ledger.entryUnavailable = [])
    (by decide +kernel)
  obtain ⟨hpositions, hunavailable⟩ := of_decide_eq_true hledger
  have hsettled : SettledBy 1250 ledger.positions ledger.entryUnavailable := by
    refine .inl ⟨usdJpyPosition, ?_, _, rfl, ?_⟩
    · simp [hpositions]
    · decide
  have hcomplete : usdJpyEvidence.validatePayload usdJpySha256 = .ok () := by decide +kernel
  have hcomplete' : usdJpyPastEvidence.validatePayload usdJpySha256 = .ok () := by decide +kernel
  have hbidSplit : usdJpyEvidence.bid.quoteRecords = usdJpyPastEvidence.bid.quoteRecords ++
      [⟨1305, 150, 0, 0, 2⟩, ⟨1400, 297 / 2, 0, 0, 3⟩] := by decide +kernel
  have haskSplit : usdJpyEvidence.ask.quoteRecords = usdJpyPastEvidence.ask.quoteRecords ++
      [⟨1310, 1201 / 8, 0, 0, 1⟩] := by decide +kernel
  have hauthority : validateAuthority .unverifiedCallerSuppliedQuotes none = .ok () := rfl
  obtain ⟨ledger', hreplay', hpositions', hunavailable'⟩ := replay_is_causal hcomplete hcomplete' rfl
    (agreeUpTo_of_append hbidSplit (by decide)) (agreeUpTo_of_append haskSplit (by decide)) hauthority
    hreplay hsettled
  exact ⟨ledger', hreplay', hpositions'.trans hpositions, hunavailable'.trans hunavailable⟩

end Neoethos
