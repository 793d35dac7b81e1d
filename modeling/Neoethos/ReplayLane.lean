import Mathlib.Data.List.Chain
import Mathlib.Data.Set.Lattice
import Neoethos.ReplayOutcome

namespace Neoethos

open Fallible

variable {P : Type}

/-- The time at which the one outcome of a ledger was over: its exit, or the deadline of its entry. -/
inductive QuoteValidatedResearchLedger.CompletedAt (ledger : QuoteValidatedResearchLedger P) :
    Int → Prop
  | exited {position : QuoteValidatedResearchPosition P} {exit : QuoteValidatedPriceReference P}
      (hpositions : ledger.positions = [position]) (hnone : ledger.entryUnavailable = [])
      (hexit : position.exitReference = some exit) : ledger.CompletedAt exit.timestampUnixMs
  | notEntered {unavailable : QuoteValidatedResearchNonEntry} (hnone : ledger.positions = [])
      (hunavailable : ledger.entryUnavailable = [unavailable]) :
      ledger.CompletedAt unavailable.deadlineUnixMs

theorem completedAt_ok {ledger : SealedHistoricalQuoteValidatedResearchLedger P} {completed : Int}
    (h : completedAt ledger = .ok completed) : ledger.ledger.CompletedAt completed := by
  unfold completedAt at h
  split at h
  next position hpositions hnone =>
    obtain ⟨exit, hexit, h⟩ := bind_ok_iff.mp h
    cases h
    exact .exited hpositions hnone (okOrElse_ok.mp hexit)
  next unavailable hnone hunavailable =>
    cases h
    exact .notEntered hnone hunavailable
  next => cases h

/-- The times during which a modeled position is held; an open position is held forever. -/
def QuoteValidatedResearchPosition.holdingInterval (position : QuoteValidatedResearchPosition P) :
    Set Int :=
  {t | position.entryReference.timestampUnixMs ≤ t ∧
    ∀ exit ∈ position.exitReference, t ≤ exit.timestampUnixMs}

/-- The outcome of one decision: at most one position, and nothing before the decision. -/
structure AfterDecision (decisionAt : Int) (positions : List (QuoteValidatedResearchPosition P))
    (entryUnavailable : List QuoteValidatedResearchNonEntry) : Prop where
  single : positions = [] ∨ ∃ position, positions = [position]
  entry : ∀ position ∈ positions, decisionAt ≤ position.entryReference.timestampUnixMs
  exit : ∀ position ∈ positions, ∀ exit ∈ position.exitReference,
    position.entryReference.timestampUnixMs ≤ exit.timestampUnixMs
  deadline : ∀ unavailable ∈ entryUnavailable, decisionAt ≤ unavailable.deadlineUnixMs

theorem AfterDecision.completed {decisionAt completed : Int} {ledger : QuoteValidatedResearchLedger P}
    (h : AfterDecision decisionAt ledger.positions ledger.entryUnavailable)
    (hcompleted : ledger.CompletedAt completed) : decisionAt ≤ completed := by
  cases hcompleted with
  | exited hpositions hnone hexit =>
    rw [hpositions] at h
    have hentry := h.entry _ (List.mem_singleton_self _)
    have hexitTime := h.exit _ (List.mem_singleton_self _) _ hexit
    omega
  | notEntered hnone hunavailable =>
    rw [hunavailable] at h
    exact h.deadline _ (List.mem_singleton_self _)

/-- The outcome of the earlier ledger was over before the later plan's decision. -/
def LaneBefore (earlier : SealedHistoricalQuoteValidatedResearchLedger P)
    (later : QuoteValidatedResearchReplayPlan P) : Prop :=
  ∃ completed decision, earlier.ledger.CompletedAt completed ∧ later.decisions = [decision] ∧
    completed < decision.nextCanonicalBarOpenUnixMs

theorem admitNextDecision_ok {ledgers : List (SealedHistoricalQuoteValidatedResearchLedger P)}
    {plan : QuoteValidatedResearchReplayPlan P} (h : admitNextDecision ledgers plan = .ok ())
    {decision : CanonicalBarSignalResearchDecision P} (hsole : plan.decisions = [decision]) :
    ∀ previous ∈ ledgers.getLast?, LaneBefore previous plan := by
  intro previous hprevious
  unfold admitNextDecision at h
  rw [hprevious] at h
  obtain ⟨completed, hcompleted, h⟩ := bind_ok_iff.mp h
  obtain ⟨found, hfound, h⟩ := bind_ok_iff.mp h
  have hhead := okOrElse_ok.mp hfound
  rw [hsole] at hhead
  cases hhead
  exact ⟨completed, decision, completedAt_ok hcompleted, hsole, not_le.mp (refuseIf_ok.mp h)⟩

theorem pairwise_of_isChain {α : Type*} {r : α → α → Prop} {p : α → Prop} {xs : List α}
    (htrans : ∀ {a b c}, p b → r a b → r b c → r a c) (hp : ∀ x ∈ xs, p x) (h : xs.IsChain r) :
    xs.Pairwise r := by
  induction xs with
  | nil => exact .nil
  | cons a xs ih =>
    have hxs := ih (fun x hx => hp x (List.mem_cons_of_mem _ hx)) h.tail
    refine List.pairwise_cons.mpr ⟨?_, hxs⟩
    cases xs with
    | nil => simp
    | cons b xs =>
      obtain ⟨hab, -⟩ := List.isChain_cons_cons.mp h
      intro c hc
      obtain rfl | hc := List.mem_cons.mp hc
      · exact hab
      · exact htrans (hp b (by simp)) hab ((List.pairwise_cons.mp hxs).1 c hc)

variable [Ring P] [LinearOrder P] {sha256 : HashPayload P → String}
  {evidence : SealedHistoricalBidAskQuoteReplayEvidence sha256}
  {plan : QuoteValidatedResearchReplayPlan P} {plans : List (QuoteValidatedResearchReplayPlan P)}
  {ledger : SealedHistoricalQuoteValidatedResearchLedger P}
  {ledgers : List (SealedHistoricalQuoteValidatedResearchLedger P)}

theorem replaySealed_ok (h : replaySealedQuoteValidatedResearch plan evidence = .ok ledger) :
    ∃ decision, plan.Accepted decision ∧ DecisionOutcome plan evidence.evidence decision
      ledger.ledger.positions ledger.ledger.entryUnavailable := by
  obtain ⟨replayed, hreplay, h⟩ := bind_ok_iff.mp h
  obtain ⟨executed, -, h⟩ := bind_ok_iff.mp h
  obtain ⟨identity, -, h⟩ := bind_ok_iff.mp h
  cases h
  obtain ⟨-, -, -, decision, haccepted, houtcome⟩ :=
    replayWithAuthority_ok_iff.mp ⟨replayed, hreplay, rfl, rfl⟩
  exact ⟨decision, haccepted, houtcome⟩

theorem DecisionOutcome.afterDecision {window : EvidenceWindow}
    {evidence : CompleteBidAskQuoteReplayEvidence P} {decision : CanonicalBarSignalResearchDecision P}
    {positions : List (QuoteValidatedResearchPosition P)}
    {entryUnavailable : List QuoteValidatedResearchNonEntry}
    (hquotes : ∀ side, QuotesInOrder window (evidence.quotes side)) (haccepted : plan.Accepted decision)
    (h : DecisionOutcome plan evidence decision positions entryUnavailable) :
    AfterDecision decision.nextCanonicalBarOpenUnixMs positions entryUnavailable := by
  have hlatency := haccepted.bounded.entryLatency
  have hwait := haccepted.bounded.entryWait
  cases h with
  | entered hentry hposition =>
    obtain ⟨hreference, exit, hexit, hexitReference⟩ := replayPosition_ok hposition
    have hentryTime := selectEntry_available (hquotes _) hentry
    refine ⟨by simp, ?_, ?_, by simp⟩
    · intro position hmem
      cases List.mem_singleton.mp hmem
      rw [hreference]
      simp only [QuoteValidatedPriceReference.fromQuote]
      omega
    · intro position hmem found hfound
      cases List.mem_singleton.mp hmem
      rw [hexitReference] at hfound
      obtain ⟨selected, rfl, rfl⟩ := Option.map_eq_some_iff.mp hfound
      rw [hreference]
      exact selectExit_mem (hquotes _) hexit
  | notEntered hentry =>
    refine ⟨by simp, by simp, by simp, ?_⟩
    intro unavailable hmem
    cases List.mem_singleton.mp hmem
    rw [selectEntry_unavailable (hquotes _) hentry]
    omega

theorem replaySealed_afterDecision
    (h : replaySealedQuoteValidatedResearch plan evidence = .ok ledger)
    {decision : CanonicalBarSignalResearchDecision P} (hsole : plan.decisions = [decision]) :
    AfterDecision decision.nextCanonicalBarOpenUnixMs ledger.ledger.positions
      ledger.ledger.entryUnavailable := by
  obtain ⟨accepted, haccepted, houtcome⟩ := replaySealed_ok h
  have hsame := haccepted.sole
  rw [hsole] at hsame
  cases hsame
  exact houtcome.afterDecision
    (CompleteBidAskQuoteReplayEvidence.inOrder_of_validatePayload evidence.complete) haccepted

/-- The lane check only compares neighbours. It carries on, since a step takes time. -/
theorem LaneBefore.trans {first : SealedHistoricalQuoteValidatedResearchLedger P}
    {last : QuoteValidatedResearchReplayPlan P}
    (hreplay : replaySealedQuoteValidatedResearch plan evidence = .ok ledger)
    (h : LaneBefore first plan) (h' : LaneBefore ledger last) : LaneBefore first last := by
  obtain ⟨completed, decision, hcompleted, hsole, hlt⟩ := h
  obtain ⟨completed', decision', hcompleted', hsole', hlt'⟩ := h'
  have hafter := (replaySealed_afterDecision hreplay hsole).completed hcompleted'
  exact ⟨completed, decision', hcompleted, hsole', by omega⟩

/-- The lane loop: each plan is replayed alone, and each step follows the one before it. -/
theorem replaySealedFrom_ok {result : List (SealedHistoricalQuoteValidatedResearchLedger P)}
    (h : replaySealedFrom evidence ledgers plans = .ok result) :
    ∃ steps : List (QuoteValidatedResearchReplayPlan P ×
        SealedHistoricalQuoteValidatedResearchLedger P),
      plans = steps.map Prod.fst ∧ result = ledgers ++ steps.map Prod.snd ∧
      (∀ step ∈ steps, replaySealedQuoteValidatedResearch step.1 evidence = .ok step.2) ∧
      steps.IsChain (fun earlier later => LaneBefore earlier.2 later.1) ∧
      ∀ previous ∈ ledgers.getLast?, ∀ step ∈ steps.head?, LaneBefore previous step.1 := by
  induction plans generalizing ledgers with
  | nil =>
    cases h
    exact ⟨[], by simp⟩
  | cons next plans ih =>
    obtain ⟨hadmitted, h⟩ := check_ok_iff.mp h
    obtain ⟨ledger, hledger, h⟩ := bind_ok_iff.mp h
    obtain ⟨steps, hplans, hresult, hreplayed, hchain, hhead⟩ := ih h
    obtain ⟨decision, haccepted, -⟩ := replaySealed_ok hledger
    have hprevious := admitNextDecision_ok hadmitted haccepted.sole
    refine ⟨(next, ledger) :: steps, ?_, ?_, ?_, ?_, ?_⟩
    · rw [hplans]
      rfl
    · rw [hresult]
      simp
    · intro step hstep
      obtain rfl | hstep := List.mem_cons.mp hstep
      · exact hledger
      · exact hreplayed step hstep
    · cases steps with
      | nil => simp
      | cons step steps =>
        have hlast : ledger ∈ (ledgers ++ [ledger]).getLast? := by simp
        exact List.isChain_cons_cons.mpr ⟨hhead ledger hlast step rfl, hchain⟩
    · intro previous hmem step hstep
      cases hstep
      exact hprevious previous hmem

/-- A lane that succeeds, as the list of its steps; every two of them are in order. -/
theorem decisionSequence_steps
    (h : replaySealedQuoteValidatedDecisionSequence plans evidence = .ok ledgers) :
    ∃ steps : List (QuoteValidatedResearchReplayPlan P ×
        SealedHistoricalQuoteValidatedResearchLedger P),
      plans = steps.map Prod.fst ∧ ledgers = steps.map Prod.snd ∧
      (∀ step ∈ steps, replaySealedQuoteValidatedResearch step.1 evidence = .ok step.2) ∧
      steps.Pairwise fun earlier later => LaneBefore earlier.2 later.1 := by
  obtain ⟨-, h⟩ := check_ok_iff.mp h
  obtain ⟨steps, hplans, hledgers, hreplayed, hchain, -⟩ := replaySealedFrom_ok h
  refine ⟨steps, hplans, by simpa using hledgers, hreplayed, ?_⟩
  refine pairwise_of_isChain ?_ hreplayed hchain
  intro first second third hsecond hfirst hthird
  exact hfirst.trans hsecond hthird

theorem LaneBefore.before_outcome {earlier : SealedHistoricalQuoteValidatedResearchLedger P}
    (hreplay : replaySealedQuoteValidatedResearch plan evidence = .ok ledger)
    (h : LaneBefore earlier plan) :
    ∃ completed decision, earlier.ledger.CompletedAt completed ∧ plan.decisions = [decision] ∧
      completed < decision.nextCanonicalBarOpenUnixMs ∧
      ∀ position ∈ ledger.ledger.positions,
        completed < position.entryReference.timestampUnixMs ∧
        ∀ exit ∈ position.exitReference, completed < exit.timestampUnixMs := by
  obtain ⟨completed, decision, hcompleted, hsole, hlt⟩ := h
  have hafter := replaySealed_afterDecision hreplay hsole
  refine ⟨completed, decision, hcompleted, hsole, hlt, ?_⟩
  intro position hposition
  have hentry := hafter.entry position hposition
  refine ⟨by omega, ?_⟩
  intro exit hexit
  have hexitTime := hafter.exit position hposition exit hexit
  omega

theorem LaneBefore.disjoint {earlier : SealedHistoricalQuoteValidatedResearchLedger P}
    (hreplay : replaySealedQuoteValidatedResearch plan evidence = .ok ledger)
    (h : LaneBefore earlier plan) :
    ∀ p ∈ earlier.ledger.positions, ∀ q ∈ ledger.ledger.positions,
      Disjoint p.holdingInterval q.holdingInterval := by
  obtain ⟨completed, decision, hcompleted, -, -, hafter⟩ := h.before_outcome hreplay
  intro p hp q hq
  obtain ⟨hentry, -⟩ := hafter q hq
  rw [Set.disjoint_left]
  intro t hpt hqt
  have hlower : q.entryReference.timestampUnixMs ≤ t := hqt.1
  cases hcompleted with
  | exited hpositions hnone hexit =>
    rw [hpositions] at hp
    cases List.mem_singleton.mp hp
    have hupper := hpt.2 _ hexit
    omega
  | notEntered hnone hunavailable =>
    rw [hnone] at hp
    cases hp

theorem decisionSequence_completed
    (h : replaySealedQuoteValidatedDecisionSequence plans evidence = .ok ledgers) :
    ∀ ledger ∈ ledgers.dropLast, ∃ completed, ledger.ledger.CompletedAt completed := by
  obtain ⟨steps, rfl, rfl, hreplayed, hpairwise⟩ := decisionSequence_steps h
  intro ledger hledger
  rw [← List.map_dropLast, List.mem_map] at hledger
  obtain ⟨step, hstep, rfl⟩ := hledger
  -- the last step is behind every other one
  obtain rfl | ⟨init, last, rfl⟩ := List.eq_nil_or_concat steps
  · cases hstep
  · rw [List.concat_eq_append] at hstep hpairwise
    rw [List.dropLast_concat] at hstep
    obtain ⟨completed, decision, hcompleted, -⟩ :=
      (List.pairwise_append.mp hpairwise).2.2 step hstep last (List.mem_singleton_self _)
    exact ⟨completed, hcompleted⟩

theorem decisionSequence_disjoint
    (h : replaySealedQuoteValidatedDecisionSequence plans evidence = .ok ledgers) :
    (ledgers.flatMap fun ledger => ledger.ledger.positions).Pairwise fun p q =>
      Disjoint p.holdingInterval q.holdingInterval := by
  obtain ⟨steps, rfl, rfl, hreplayed, hpairwise⟩ := decisionSequence_steps h
  rw [List.pairwise_flatMap, List.forall_mem_map, List.pairwise_map]
  refine ⟨?_, ?_⟩
  · intro step hstep
    obtain ⟨decision, haccepted, -⟩ := replaySealed_ok (hreplayed step hstep)
    have hsingle := (replaySealed_afterDecision (hreplayed step hstep) haccepted.sole).single
    obtain hnone | ⟨position, hone⟩ := hsingle
    · rw [hnone]
      exact .nil
    · rw [hone]
      exact List.pairwise_singleton _ _
  · refine hpairwise.imp_of_mem ?_
    intro first second hfirst hsecond hbefore
    exact hbefore.disjoint (hreplayed second hsecond)

/-- Every plan of a lane is replayed as if alone, every replay but the last is completed, and a
completed replay lies before the whole outcome of every later plan. -/
theorem single_position_lane
    (h : replaySealedQuoteValidatedDecisionSequence plans evidence = .ok ledgers) :
    List.Forall₂ (fun plan ledger => replaySealedQuoteValidatedResearch plan evidence = .ok ledger)
      plans ledgers ∧
    (∀ ledger ∈ ledgers.dropLast, ∃ completed, ledger.ledger.CompletedAt completed) ∧
    (∀ (i j : ℕ) (plan : QuoteValidatedResearchReplayPlan P)
        (earlier later : SealedHistoricalQuoteValidatedResearchLedger P), i < j →
      ledgers[i]? = some earlier → plans[j]? = some plan → ledgers[j]? = some later →
      ∃ completed decision, earlier.ledger.CompletedAt completed ∧ plan.decisions = [decision] ∧
        completed < decision.nextCanonicalBarOpenUnixMs ∧
        ∀ position ∈ later.ledger.positions,
          completed < position.entryReference.timestampUnixMs ∧
          ∀ exit ∈ position.exitReference, completed < exit.timestampUnixMs) ∧
    (ledgers.flatMap fun ledger => ledger.ledger.positions).Pairwise fun p q =>
      Disjoint p.holdingInterval q.holdingInterval := by
  refine ⟨?_, decisionSequence_completed h, ?_, decisionSequence_disjoint h⟩
  · obtain ⟨steps, rfl, rfl, hreplayed, hpairwise⟩ := decisionSequence_steps h
    rw [List.forall₂_map_left_iff, List.forall₂_map_right_iff, List.forall₂_same]
    exact hreplayed
  · obtain ⟨steps, rfl, rfl, hreplayed, hpairwise⟩ := decisionSequence_steps h
    intro i j plan earlier later hij hearlier hplan hlater
    rw [List.getElem?_map, Option.map_eq_some_iff] at hearlier hplan hlater
    obtain ⟨first, hfirst, rfl⟩ := hearlier
    obtain ⟨second, hsecond, rfl⟩ := hplan
    obtain ⟨second', hsecond', rfl⟩ := hlater
    cases Option.some.inj (hsecond.symm.trans hsecond')
    obtain ⟨hi, rfl⟩ := List.getElem?_eq_some_iff.mp hfirst
    obtain ⟨hj, rfl⟩ := List.getElem?_eq_some_iff.mp hsecond
    have hbefore := List.pairwise_iff_getElem.mp hpairwise i j hi hj hij
    exact hbefore.before_outcome (hreplayed _ (List.getElem_mem hj))

/-- Two decisions: the first position is over at 1200, before the decision at 1300. -/
theorem single_position_lane_of_two_decisions :
    ∃ ledgers, replaySealedQuoteValidatedDecisionSequence
        [usdJpyPlan 1100 none, usdJpyPlan 1300 none] usdJpySealed = .ok ledgers ∧
      ((ledgers.flatMap fun ledger => ledger.ledger.positions).map fun position =>
        (position.entryReference.timestampUnixMs,
          position.exitReference.map (·.timestampUnixMs))) =
        [(1110, some 1200), (1310, some 1400)] ∧
      (ledgers.flatMap fun ledger => ledger.ledger.positions).Pairwise fun p q =>
        Disjoint p.holdingInterval q.holdingInterval := by
  obtain ⟨ledgers, hreplay, htimes⟩ := exists_ok_of_any
    (x := replaySealedQuoteValidatedDecisionSequence [usdJpyPlan 1100 none, usdJpyPlan 1300 none]
      usdJpySealed)
    (p := fun ledgers => ((ledgers.flatMap fun ledger => ledger.ledger.positions).map fun position =>
      (position.entryReference.timestampUnixMs, position.exitReference.map (·.timestampUnixMs))) =
        [(1110, some 1200), (1310, some 1400)])
    (by decide +kernel)
  exact ⟨ledgers, hreplay, of_decide_eq_true htimes, (single_position_lane hreplay).2.2.2⟩

end Neoethos
