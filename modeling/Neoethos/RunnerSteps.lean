import Neoethos.Runner

namespace Neoethos

open Durable Fallible

section Append

variable {F : Type} [FloatOps F] {hash : CompactHash} {C P E : RunnerState F hash → Prop}
  {Q : Unit → RunnerState F hash → Prop} {record : Record F}

def RunnerState.add (s : RunnerState F hash) (record : Record F) (session : Session F) :
    RunnerState F hash :=
  { s with records := s.records ++ [record], session := session }

theorem write_journal_ok {s : RunnerState F hash} {session : Session F}
    (h : s.session.apply hash record = .ok session) :
    DurableStore.write s (RunnerWrite.journal record) = s.add record session := by
  simp [DurableStore.write, h, RunnerState.add, Except.toOption]

theorem write_journal_error {s : RunnerState F hash} {e : SessionError}
    (h : s.session.apply hash record = .error e) :
    DurableStore.write s (RunnerWrite.journal record) = s.add record s.session := by
  simp [DurableStore.write, h, RunnerState.add, Except.toOption]

/-- The rule for an append, by whether the session takes the record. -/
theorem append_triple
    (hok : ∀ s session, P s → s.session.apply hash record = .ok session →
      C (s.add record session) ∧ Q () (s.add record session))
    (herror : ∀ s e, P s → s.session.apply hash record = .error e →
      C (s.add record s.session) ∧ E (s.add record s.session)) :
    Triple C P (append record) Q E := by
  apply Triple.get_bind
  intro s hs
  cases happly : s.session.apply hash record with
  | ok session =>
    refine Triple.bind (R := fun _ t => t = s.add record session) (Triple.write ?_ ?_) ?_
    · intro t ht
      rw [ht, write_journal_ok happly]
      exact (hok s session hs happly).1
    · intro t ht
      rw [ht, write_journal_ok happly]
    · intro _
      refine Triple.lift ?_ ?_
      · intro t _ ht _
        rw [ht]
        exact (hok s session hs happly).2
      · intro _ _ _ he
        cases he
  | error e =>
    refine Triple.bind (R := fun _ t => t = s.add record s.session) (Triple.write ?_ ?_) ?_
    · intro t ht
      rw [ht, write_journal_error happly]
      exact (herror s e hs happly).1
    · intro t ht
      rw [ht, write_journal_error happly]
    · intro _
      refine Triple.lift ?_ ?_
      · intro _ _ _ hok
        cases hok
      · intro t _ ht _
        rw [ht]
        exact (herror s e hs happly).2

end Append

section Calm

variable {F : Type} [FloatOps F] {hash : CompactHash}

/-- A condition that quiet records keep, under one that holds whenever a process dies. -/
structure Quiet (C I : RunnerState F hash → Prop) : Prop where
  keeps : ∀ s, I s → C s
  applied : ∀ s record session, record.isQuiet = true → I s →
    s.session.apply hash record = .ok session → I (s.add record session)
  refused : ∀ s record e, record.isQuiet = true → I s →
    s.session.apply hash record = .error e → C (s.add record s.session)

/-- A computation that keeps the condition, and fails or dies under the weaker one. -/
abbrev Calm {α : Type} (C I : RunnerState F hash → Prop) (x : Runner F hash α) : Prop :=
  Triple C I x (fun _ => I) C

variable {C I : RunnerState F hash → Prop} {w : Surroundings F hash}

theorem append_calm (h : Quiet C I) {record : Record F} (hrecord : record.isQuiet = true) :
    Calm C I (append record) := by
  apply append_triple
  · intro s session hs happly
    have hI := h.applied s record session hrecord hs happly
    exact ⟨h.keeps _ hI, hI⟩
  · intro s e hs happly
    have hC := h.refused s record e hrecord hs happly
    exact ⟨hC, hC⟩

theorem ask_keeps (hkeeps : ∀ s, I s → C s) {α : Type}
    (answer : RunnerState F hash → Except String α) : Calm C I (ask answer) := by
  apply Triple.get_bind
  intro s hs
  apply Triple.lift
  · rintro _ _ rfl _
    exact hs
  · rintro _ _ rfl _
    exact hkeeps _ hs

theorem ask_calm (h : Quiet C I) {α : Type} (answer : RunnerState F hash → Except String α) :
    Calm C I (ask answer) :=
  ask_keeps h.keeps answer

theorem lift_calm (h : Quiet C I) {α : Type} (x : Except RunnerError α) :
    Calm C I (lift x : Runner F hash α) :=
  Triple.lift (fun _ _ hs _ => hs) fun s _ hs _ => h.keeps s hs

theorem fail_calm (h : Quiet C I) {α : Type} (e : RunnerError) :
    Calm C I (fail e : Runner F hash α) :=
  Triple.fail h.keeps

theorem pure_calm {α : Type} (a : α) : Calm C I (pure a : Runner F hash α) :=
  Triple.pure fun _ hs => hs

theorem get_calm {α : Type} {f : RunnerState F hash → Runner F hash α}
    (h : ∀ s, Calm C I (f s)) : Calm C I (get >>= f) :=
  Triple.get_bind fun s hs => (h s).start_at hs

theorem appends_calm (h : Quiet C I) {records : List (Record F)}
    (hrecords : ∀ record ∈ records, record.isQuiet = true) : Calm C I (forM records append) :=
  Triple.forM fun record hrecord => append_calm h (hrecords record hrecord)

theorem journalDraw_calm (h : Quiet C I) (sweep : SweepId) (drawn : DrawnSweep) :
    Calm C I (Surroundings.journalDraw sweep drawn : Runner F hash Unit) := by
  refine Triple.bind (appends_calm h ?_) fun _ =>
    Triple.bind (lift_calm h _) fun _ => appends_calm h ?_
  · intro record hrecord
    rcases List.mem_append.mp hrecord with hduplicate | hrefused
    · obtain ⟨_, _, rfl⟩ := List.mem_map.mp hduplicate
      rfl
    · obtain ⟨_, _, rfl⟩ := List.mem_map.mp hrefused
      rfl
  · intro record hrecord
    obtain ⟨_, _, rfl⟩ := List.mem_map.mp hrecord
    rfl

theorem stop_calm (h : Quiet C I) (reason : StopReason) : Calm C I (w.stop reason) :=
  get_calm fun _ => Triple.bind (append_calm h rfl) fun _ =>
    Triple.bind (ask_calm h _) fun _ => pure_calm _

theorem stopBoundary_calm (h : Quiet C I) (reason : StopReason) :
    Calm C I (w.stopBoundary reason) :=
  Triple.bind (stop_calm h reason) fun _ => pure_calm _

theorem map_calm {α β : Type} {x : Runner F hash α} (f : α → β) (h : Calm C I x) :
    Calm C I (f <$> x) :=
  Triple.bind h fun _ => pure_calm _

theorem gc_calm (h : Quiet C I) (sweep : SweepId) : Calm C I (w.gc sweep) :=
  Triple.bind (ask_calm h _) fun _ => append_calm h rfl

theorem runDry_calm (h : Quiet C I) : Calm C I w.runDry :=
  get_calm fun _ => Triple.bind (ask_calm h _) fun _ =>
    Triple.bind (journalDraw_calm h _ _) fun _ => Triple.bind (ask_calm h _) fun _ =>
      Triple.bind (ask_calm h _) fun _ => stop_calm h _

theorem askProvider_calm (h : Quiet C I) (request : QuoteCoverageRequest) :
    Calm C I (w.askProvider request) := by
  unfold Surroundings.askProvider
  split
  next => exact pure_calm _
  next =>
    refine Triple.bind (ask_calm h _) fun answer => ?_
    cases answer with
    | pending => exact pure_calm _
    | cancelled => exact pure_calm _
    | ready ready =>
      exact Triple.bind (lift_calm h _) fun _ => Triple.bind (append_calm h rfl) fun _ =>
        pure_calm _

theorem advanceQuoteCoverageBoundary_calm (h : Quiet C I)
    (initialRequest : Option QuoteCoverageRequest) :
    Calm C I (w.advanceQuoteCoverageBoundary initialRequest) := by
  refine get_calm fun s => ?_
  split
  next => exact Triple.bind (lift_calm h _) fun _ => pure_calm _
  next => exact Triple.bind (lift_calm h _) fun _ => askProvider_calm h _
  next =>
    exact Triple.bind (lift_calm h _) fun _ => Triple.bind (lift_calm h _) fun _ =>
      Triple.bind (append_calm h rfl) fun _ => askProvider_calm h _

theorem promote_calm (h : Quiet C I) (candidate : PromotionCandidate) :
    Calm C I (w.promote candidate) := by
  refine get_calm fun s => Triple.bind (lift_calm h _) fun _ => ?_
  split
  next => exact stopBoundary_calm h _
  next => exact advanceQuoteCoverageBoundary_calm h _

theorem recordChampion_calm (h : Quiet C I) (sweep : SweepId) (champion : SweepChampion F) :
    Calm C I (w.recordChampion sweep champion) := by
  unfold Surroundings.recordChampion
  split
  next => exact map_calm _ (stopBoundary_calm h _)
  next slot _ =>
    have hbest : Calm C I (do
        let s ← get
        let best : BestEver F := ⟨sweep, slot, champion.configHash, champion.eScreenPess,
          champion.nTrades, champion.dsr, champion.pbo⟩
        if advancesBest s.session.bestEver best then append (.bestEverAdvanced best) else pure ()
        return none : Runner F hash (Option (AutoresearchRunOutcome F))) := by
      refine get_calm fun s => ?_
      dsimp only
      split
      next => exact Triple.bind (append_calm h rfl) fun _ => pure_calm _
      next => exact pure_calm _
    split
    next =>
      exact Triple.bind (append_calm h rfl) fun _ => Triple.bind (ask_calm h _) fun _ => hbest
    next => exact hbest

theorem recordScreen_calm (h : Quiet C I) (sweep : SweepId) (proposals : List Proposal)
    (run : SweepRun F) : Calm C I (w.recordScreen sweep proposals run) := by
  refine get_calm fun s => ?_
  split
  next => exact map_calm _ (stopBoundary_calm h _)
  next aligned =>
    refine Triple.bind (appends_calm h ?_) fun _ => Triple.bind (append_calm h rfl) fun _ => ?_
    · intro record hrecord
      obtain ⟨_, _, rfl⟩ := List.mem_map.mp hrecord
      rfl
    · split
      next => exact pure_calm _
      next => exact recordChampion_calm h sweep _

theorem decideTurn_calm (h : Quiet C I) (sweep : SweepId) : Calm C I (w.decideTurn sweep) := by
  refine get_calm fun s => ?_
  split
  next => exact Triple.bind (gc_calm h sweep) fun _ => pure_calm _
  next => exact map_calm _ (promote_calm h _)
  next => exact map_calm _ (stopBoundary_calm h _)

end Calm

end Neoethos
