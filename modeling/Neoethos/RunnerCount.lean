import Neoethos.RunnerLoop
import Neoethos.SessionTouch

namespace Neoethos

open Durable Fallible

section Ledger

theorem recoverPartialTrials_snoc (partials : List (SweepId × Nat × Nat)) (sweep other : SweepId)
    (slot trialsOffered : Nat) :
    recoverPartialTrials (partials ++ [(other, slot, trialsOffered)]) sweep =
      recoverPartialTrials partials sweep + if other = sweep then trialsOffered else 0 := by
  rw [recoverPartialTrials, List.filter_append, List.map_append, List.sum_append]
  by_cases h : other = sweep
  · simp [h, recoverPartialTrials]
  · simp [h, recoverPartialTrials]

theorem recoverPartialTrials_none {partials : List (SweepId × Nat × Nat)} {sweep : SweepId}
    (h : ∀ line ∈ partials, line.1 ≠ sweep) : recoverPartialTrials partials sweep = 0 := by
  have hnone : partials.filter (fun line => line.1 = sweep) = [] := by
    rw [List.filter_eq_nil_iff]
    intro line hline
    simpa using h line hline
  rw [recoverPartialTrials, hnone]
  rfl

end Ledger

section Accounted

variable {F : Type} {hash : CompactHash}

/-- The session in memory tells the sweeps of the journal, each sweep that ended counts the trials
of its partial ledger, and no ledger is ahead of the journal. -/
structure Accounted (s : RunnerState F hash) : Prop where
  events : s.session.course.sweepEvents = sweepEvents s.records
  highest : ∀ sweep ∈ startedSweeps (sweepEvents s.records), sweep ≤ s.session.highestSweep
  increasing : (startedSweeps (sweepEvents s.records)).Pairwise (· < ·)
  counted : ∀ sweep trialsOffered, .ended sweep trialsOffered ∈ sweepEvents s.records →
    trialsOffered = recoverPartialTrials s.partials sweep
  ledgers : ∀ line ∈ s.partials, line.1 ∈ startedSweeps (sweepEvents s.records)

def RunnerState.opened (s : RunnerState F hash) : Option SweepId :=
  s.session.openSweep.map OpenSweep.sweep

structure SameSweeps (s t : RunnerState F hash) : Prop where
  events : sweepEvents t.records = sweepEvents s.records
  partials : t.partials = s.partials
  accounted : Accounted t

variable {s t : RunnerState F hash} {record : Record F} {session : Session F} {sweep : SweepId}
  {trialsOffered : Nat}

theorem Accounted.started_eq (h : Accounted s) : startedSweeps (sweepEvents s.records) =
    s.session.terminalTrials.map Prod.fst ++ s.opened.toList := by
  rw [← h.events]
  exact started_oneByOne

theorem Accounted.opened_eq (h : Accounted s) : s.opened = lastOpened (sweepEvents s.records) := by
  rw [← h.events]
  exact lastOpened_oneByOne.symm

theorem SameSweeps.opened (h : SameSweeps s t) (hs : Accounted s) : t.opened = s.opened := by
  rw [h.accounted.opened_eq, hs.opened_eq, h.events]

theorem Accounted.nSession_eq (h : Accounted s) : s.session.nSession = nSession s.records := by
  rw [nSession_eq_events, ← h.events]
  exact trials_oneByOne.symm

theorem Accounted.ended_lt (h : Accounted s) (hopen : s.opened = some sweep) {other : SweepId}
    (hended : .ended other trialsOffered ∈ sweepEvents s.records) : other < sweep := by
  have hpair := h.increasing
  rw [h.started_eq, hopen, List.pairwise_append] at hpair
  rw [← h.events] at hended
  have hother := List.mem_map_of_mem (f := Prod.fst) (mem_oneByOne_ended.mp hended)
  exact hpair.2.2 other hother sweep (by simp)

theorem Accounted.ledger (h : Accounted s) (hopen : s.opened = some sweep) (slot : Nat) :
    Accounted ({ s with partials := s.partials ++ [(sweep, slot, trialsOffered)] } :
      RunnerState F hash) := by
  refine ⟨h.events, h.highest, h.increasing, ?_, ?_⟩
  · intro other trials hended
    have hlt := h.ended_lt hopen hended
    rw [recoverPartialTrials_snoc, if_neg hlt.ne', Nat.add_zero]
    exact h.counted other trials hended
  · intro line hline
    rcases List.mem_append.mp hline with hline | hline
    · exact h.ledgers line hline
    · obtain rfl := List.mem_singleton.mp hline
      have hstarted := h.started_eq
      rw [hopen] at hstarted
      simp only
      rw [hstarted]
      simp

theorem Accounted.refused (h : Accounted s) (hevent : record.sweepEvent = none) :
    Accounted (s.add record s.session) := by
  have hsame : sweepEvents (s.records ++ [record]) = sweepEvents s.records := by
    rw [sweepEvents_snoc, hevent, Option.toList_none, List.append_nil]
  constructor <;> simp only [RunnerState.add, hsame]
  · exact h.events
  · exact h.highest
  · exact h.increasing
  · exact h.counted
  · exact h.ledgers

section Add

variable [FloatOps F]

theorem Accounted.other (h : Accounted s) (hevent : record.sweepEvent = none)
    (happly : s.session.apply hash record = .ok session) :
    SameSweeps s (s.add record session) := by
  obtain ⟨hevents, hhighest, -⟩ := apply_events happly
  have hsame : sweepEvents (s.records ++ [record]) = sweepEvents s.records := by
    rw [sweepEvents_snoc, hevent, Option.toList_none, List.append_nil]
  rw [hevent, Option.toList_none, List.append_nil] at hevents
  refine ⟨hsame, rfl, ?_⟩
  constructor <;> simp only [RunnerState.add, hsame]
  · exact hevents.trans h.events
  · intro sweep hsweep
    exact (h.highest sweep hsweep).trans hhighest
  · exact h.increasing
  · exact h.counted
  · exact h.ledgers

/-- The end of a sweep, with the trials of its ledger. -/
theorem Accounted.ended (h : Accounted s)
    (hevent : record.sweepEvent = some (.ended sweep (recoverPartialTrials s.partials sweep)))
    (happly : s.session.apply hash record = .ok session) :
    Accounted (s.add record session) ∧ (s.add record session).opened = none := by
  obtain ⟨hevents, hhighest, -⟩ := apply_events happly
  have hsnoc : sweepEvents (s.records ++ [record]) =
      sweepEvents s.records ++ [.ended sweep (recoverPartialTrials s.partials sweep)] := by
    rw [sweepEvents_snoc, hevent]
    rfl
  have hstarted : startedSweeps (sweepEvents (s.records ++ [record])) =
      startedSweeps (sweepEvents s.records) := by
    simp [hsnoc, startedSweeps, SweepEvent.startedSweep]
  have haccounted : Accounted (s.add record session) := by
    constructor <;> simp only [RunnerState.add, hstarted]
    · rw [hevents, h.events, sweepEvents_snoc]
    · intro sweep hsweep
      exact (h.highest sweep hsweep).trans hhighest
    · exact h.increasing
    · intro other trials hended
      rw [hsnoc, List.mem_append, List.mem_singleton] at hended
      rcases hended with hended | hended
      · exact h.counted other trials hended
      · cases hended
        rfl
    · exact h.ledgers
  refine ⟨haccounted, ?_⟩
  rw [haccounted.opened_eq, RunnerState.add, hsnoc]
  simp [lastOpened, SweepEvent.startedSweep]

/-- A sweep that starts is after all others, and has no ledger yet. -/
theorem Accounted.start (h : Accounted s)
    (hfresh : ∀ other ∈ startedSweeps (sweepEvents s.records), other < sweep)
    (hevent : record.sweepEvent = some (.started sweep))
    (happly : s.session.apply hash record = .ok session) :
    Accounted (s.add record session) ∧ (s.add record session).opened = some sweep ∧
      recoverPartialTrials s.partials sweep = 0 := by
  obtain ⟨hevents, hhighest, hstart⟩ := apply_events happly
  have hsnoc : sweepEvents (s.records ++ [record]) = sweepEvents s.records ++ [.started sweep] := by
    rw [sweepEvents_snoc, hevent]
    rfl
  have hstarted : startedSweeps (sweepEvents (s.records ++ [record])) =
      startedSweeps (sweepEvents s.records) ++ [sweep] := by
    simp [hsnoc, startedSweeps, SweepEvent.startedSweep]
  have hnone : recoverPartialTrials s.partials sweep = 0 := by
    apply recoverPartialTrials_none
    intro line hline
    exact (hfresh _ (h.ledgers line hline)).ne
  have haccounted : Accounted (s.add record session) := by
    constructor <;> simp only [RunnerState.add, hstarted]
    · rw [hevents, h.events, sweepEvents_snoc]
    · intro other hother
      rcases List.mem_append.mp hother with hother | hother
      · exact (h.highest other hother).trans hhighest
      · obtain rfl := List.mem_singleton.mp hother
        exact hstart _ hevent
    · rw [List.pairwise_append]
      refine ⟨h.increasing, List.pairwise_singleton _ _, ?_⟩
      intro other hother new hnew
      obtain rfl := List.mem_singleton.mp hnew
      exact hfresh other hother
    · intro other trials hended
      rw [hsnoc, List.mem_append, List.mem_singleton] at hended
      rcases hended with hended | hended
      · exact h.counted other trials hended
      · cases hended
    · intro line hline
      exact List.mem_append_left _ (h.ledgers line hline)
  refine ⟨haccounted, ?_, hnone⟩
  rw [haccounted.opened_eq, RunnerState.add, hsnoc]
  simp [lastOpened, SweepEvent.startedSweep]

theorem Accounted.refold (h : Accounted s) (hfold : Session.fold hash s.records = .ok session) :
    Accounted ({ s with session := session } : RunnerState F hash) := by
  obtain ⟨hevents, hhighest⟩ := fold_events hfold
  exact ⟨hevents, hhighest, h.increasing, h.counted, h.ledgers⟩

end Add

end Accounted

section Conditions

variable {F : Type} {hash : CompactHash}

def Idle (s : RunnerState F hash) : Prop := Accounted s ∧ s.opened = none

/-- No sweep is open, and this one would come after all others. -/
def Fresh (sweep : SweepId) (s : RunnerState F hash) : Prop :=
  Idle s ∧ ∀ other ∈ startedSweeps (sweepEvents s.records), other < sweep

def Running (sweep : SweepId) (trialsOffered : Nat) (s : RunnerState F hash) : Prop :=
  Accounted s ∧ s.opened = some sweep ∧ recoverPartialTrials s.partials sweep = trialsOffered

theorem Idle.same {s t : RunnerState F hash} (h : Idle s) (hsame : SameSweeps s t) : Idle t :=
  ⟨hsame.accounted, (hsame.opened h.1).trans h.2⟩

theorem Record.sweepEvent_of_quiet {record : Record F} (h : record.isQuiet = true) :
    record.sweepEvent = none := by
  cases record <;> simp_all [Record.isQuiet, Record.sweepEvent]

theorem Idle.fresh {s : RunnerState F hash} (h : Idle s) : Fresh s.session.nextSweep s :=
  ⟨h, fun other hother => Nat.lt_succ_of_le (h.1.highest other hother)⟩

end Conditions

section Loop

variable {F : Type} [FloatOps F] {hash : CompactHash} {w : Surroundings F hash}

theorem append_other {I : RunnerState F hash → Prop} (haccounted : ∀ s, I s → Accounted s)
    (hsame : ∀ s t, I s → SameSweeps s t → I t) {record : Record F}
    (hevent : record.sweepEvent = none) : Calm Accounted I (append record) := by
  apply append_triple
  · intro s session hs happly
    have h := (haccounted s hs).other hevent happly
    exact ⟨h.accounted, hsame _ _ hs h⟩
  · intro s e hs _
    have h := (haccounted s hs).refused hevent
    exact ⟨h, h⟩

theorem quiet_of_same {I : RunnerState F hash → Prop} (haccounted : ∀ s, I s → Accounted s)
    (hsame : ∀ s t, I s → SameSweeps s t → I t) : Quiet Accounted I where
  keeps := haccounted
  applied s _ _ hrecord hs happly :=
    hsame _ _ hs ((haccounted s hs).other (Record.sweepEvent_of_quiet hrecord) happly)
  refused s _ _ hrecord hs _ :=
    (haccounted s hs).refused (Record.sweepEvent_of_quiet hrecord)

theorem quiet_accounted : Quiet (Accounted : RunnerState F hash → Prop) Accounted :=
  quiet_of_same (fun _ hs => hs) fun _ _ _ hsame => hsame.accounted

theorem quiet_idle : Quiet (Accounted : RunnerState F hash → Prop) Idle :=
  quiet_of_same (fun _ hs => hs.1) fun _ _ => Idle.same

theorem quiet_fresh (sweep : SweepId) : Quiet (Accounted : RunnerState F hash → Prop) (Fresh sweep) := by
  apply quiet_of_same
  · intro s hs
    exact hs.1.1
  · rintro s t ⟨hidle, hfresh⟩ hsame
    refine ⟨hidle.same hsame, ?_⟩
    rw [hsame.events]
    exact hfresh

theorem quiet_running (sweep : SweepId) (trialsOffered : Nat) :
    Quiet (Accounted : RunnerState F hash → Prop) (Running sweep trialsOffered) := by
  apply quiet_of_same
  · intro s hs
    exact hs.1
  · rintro s t ⟨haccounted, hopen, htrials⟩ hsame
    refine ⟨hsame.accounted, (hsame.opened haccounted).trans hopen, ?_⟩
    rw [hsame.partials]
    exact htrials

theorem append_ended {sweep : SweepId} {trialsOffered : Nat} {record : Record F}
    (hevent : record.sweepEvent = some (.ended sweep trialsOffered)) :
    Triple Accounted (Running sweep trialsOffered) (append record : Runner F hash Unit)
      (fun _ => Idle) Accounted := by
  apply append_triple
  · rintro s session ⟨haccounted, hopen, rfl⟩ happly
    have h := haccounted.ended hevent happly
    exact ⟨h.1, h⟩
  · rintro s e ⟨haccounted, hopen, rfl⟩ happly
    exfalso
    obtain ⟨opened, hopened, hsweep⟩ := Option.map_eq_some_iff.mp hopen
    have htaken : s.session.takeOpen sweep =
        .ok (opened, { s.session with openSweep := none }) :=
      takeOpen_ok_iff.mpr ⟨hopened, hsweep, rfl⟩
    cases record with
    | sweepCompleted other trialsOffered perSearch wallMs =>
      cases hevent
      simp [Session.apply, Session.applySweepCompleted, htaken] at happly
    | sweepFailed other trialsOffered error =>
      cases hevent
      simp [Session.apply, Session.applySweepFailed, htaken] at happly
    | sweepAbandoned other trialsOffered reason =>
      cases hevent
      simp [Session.apply, Session.applySweepAbandoned, htaken] at happly
    | _ => cases hevent

/-- The record that opens a sweep after all others is not refused. -/
theorem append_started {sweep : SweepId} {sweepHash : String} {kind : SweepKind}
    {startedMs : Int} :
    Triple Accounted (Fresh sweep)
      (append (.sweepStarted sweep sweepHash kind startedMs) : Runner F hash Unit)
      (fun _ => Running sweep 0) Accounted := by
  apply append_triple
  · rintro s session ⟨⟨haccounted, hopen⟩, hfresh⟩ happly
    have h := haccounted.start hfresh rfl happly
    exact ⟨h.1, h⟩
  · rintro s e ⟨⟨haccounted, hopen⟩, hfresh⟩ happly
    exfalso
    have hnone : s.session.openSweep = none := Option.map_eq_none_iff.mp hopen
    simp [Session.apply, Session.applySweepStarted, hnone] at happly

theorem running_rule (sweep : SweepId) :
    SweepRule (Accounted : RunnerState F hash → Prop) Idle (Running sweep) sweep where
  running := quiet_running sweep
  done := quiet_idle
  ledger := by
    rintro s trialsOffered slot more ⟨haccounted, hopen, htrials⟩
    refine ⟨haccounted.ledger hopen slot, hopen, ?_⟩
    have hsnoc := recoverPartialTrials_snoc s.partials sweep sweep slot more
    rw [if_pos rfl, htrials] at hsnoc
    exact hsnoc
  completed _ _ _ := append_ended rfl
  failed := by
    intro s trialsOffered text hs
    have hmax : max (recoverPartialTrials s.partials sweep) trialsOffered = trialsOffered := by
      rw [hs.2.2, max_self]
    rw [hmax]
    exact (append_ended rfl).start_at hs

theorem runSweep_fresh {sweep : SweepId} {kind : SweepKind} {proposals : List Proposal}
    {tau : Option F} :
    Triple Accounted (Fresh sweep) (w.runSweep sweep kind proposals tau) (fun _ => Idle)
      Accounted :=
  (running_rule sweep).runSweep (quiet_fresh sweep) fun _ _ => append_started

theorem append_idle {record : Record F} (hevent : record.sweepEvent = none) :
    Calm Accounted Idle (append record : Runner F hash Unit) :=
  append_other (fun _ hs => hs.1) (fun _ _ => Idle.same) hevent

theorem judgeControl_idle {block : BlockId} {source : SweepId} {run : SweepRun F} :
    Calm Accounted Idle (w.judgeControl block source run) := by
  refine get_calm fun _ => Triple.bind (append_idle rfl) fun _ => get_calm fun _ =>
    Triple.bind (append_idle rfl) fun _ => ?_
  split
  next => exact get_calm fun _ => append_idle rfl
  next => exact pure_calm _

theorem runBlockControl_idle : Calm Accounted Idle w.runBlockControl := by
  apply Triple.get_bind
  intro s hs
  have hfresh : Quiet Accounted (Fresh s.session.nextSweep : RunnerState F hash → Prop) :=
    quiet_fresh _
  exact Triple.start_at (Triple.bind (lift_calm hfresh _) fun _ => Triple.bind (lift_calm hfresh _)
    fun _ => Triple.bind runSweep_fresh fun _ => judgeControl_idle) hs.fresh

theorem idle_rule : LoopRule w Accounted Idle Idle Fresh where
  died := quiet_accounted
  between := quiet_idle
  before := quiet_fresh
  after := quiet_idle
  next _ := Idle.fresh
  live _ _ := runSweep_fresh
  control _ hs _ := runBlockControl_idle.start_at hs
  notDue _ hs _ := hs

theorem openOrResume_idle :
    Triple Accounted Accounted w.openOrResume (fun _ => Idle) Accounted := by
  refine openOrResume_rule (append_calm quiet_accounted rfl) ?_ ?_ quiet_idle.keeps
  · intro s opened reason hs hopened
    apply (append_ended rfl).start_at
    refine ⟨hs, ?_, rfl⟩
    rw [RunnerState.opened, hopened]
    rfl
  · intro s hs hopened
    refine ⟨hs, ?_⟩
    rw [RunnerState.opened, hopened]
    rfl

theorem runUntilBoundary_accounted (n : Nat) :
    Triple Accounted Accounted (w.runUntilBoundary n) (fun _ => Accounted) Accounted := by
  refine runUntilBoundary_rule quiet_accounted openOrResume_idle (fun _ hs => hs.1) n ?_
  intro s hs _ _ _
  exact (idle_rule.turns n).start_at hs

end Loop

section Runs

variable {F : Type} [FloatOps F] {hash : CompactHash} {s : RunnerState F hash}

theorem reopen_some {opened : RunnerState F hash} (h : s.reopen = some opened) :
    ∃ session, Session.fold hash s.records = .ok session ∧ opened = { s with session := session } := by
  obtain ⟨session, hsession, rfl⟩ := Option.map_eq_some_iff.mp h
  cases hrun : Session.fold hash s.records with
  | ok other =>
    rw [hrun] at hsession
    obtain rfl := Option.some.inj hsession
    exact ⟨other, rfl, rfl⟩
  | error e =>
    rw [hrun] at hsession
    cases hsession

theorem runnerNext_accounted (h : Accounted s) (process : RunnerProcess F hash) :
    Accounted (runnerNext s process) := by
  unfold runnerNext
  split
  next opened _ hopened =>
    obtain ⟨session, hfold, rfl⟩ := reopen_some hopened
    have hrefold := h.refold hfold
    exact ((runUntilBoundary_accounted process.turns).along _ hrefold).take hrefold process.writes
  next => exact h

theorem run_accounted {es : List Unit} (h : (runnerMachine F hash).Run es s) : Accounted s := by
  refine h.state_invariant ?_ ?_
  · exact ⟨rfl, (fun _ hsweep => nomatch hsweep), List.Pairwise.nil,
      (fun _ _ hended => nomatch hended), (fun _ hline => nomatch hline)⟩
  · intro s process e s' hs hnext
    obtain ⟨_, rfl⟩ := Prod.mk.inj (Option.some.inj hnext)
    exact runnerNext_accounted hs process

theorem records_grow (s : RunnerState F hash) (ws : List (RunnerWrite F)) :
    s.records <+: (after s ws).records := by
  induction ws generalizing s with
  | nil => exact List.prefix_refl _
  | cons w ws ih =>
    refine List.IsPrefix.trans ?_ (ih (DurableStore.write s w))
    cases w with
    | journal record => exact List.prefix_append s.records [record]
    | ledger sweep slot trialsOffered => exact List.prefix_refl s.records

omit [FloatOps F] in
theorem nSession_mono {records others : List (Record F)} (h : records <+: others) :
    nSession records ≤ nSession others := by
  obtain ⟨more, rfl⟩ := h
  simp only [nSession_eq_events, sweepEvents, List.filterMap_append, List.map_append,
    List.sum_append]
  exact Nat.le_add_right _ _

theorem runnerNext_records (s : RunnerState F hash) (process : RunnerProcess F hash) (n : Nat) :
    s.records <+: (runnerNext s { process with writes := n }).records ∧
      (runnerNext s { process with writes := n }).records <+:
        (runnerNext s { process with writes := n + 1 }).records := by
  unfold runnerNext
  simp only
  split
  next opened _ hopened =>
    obtain ⟨session, -, rfl⟩ := Option.map_eq_some_iff.mp hopened
    refine ⟨records_grow ({ s with session := session } : RunnerState F hash) _, ?_⟩
    rw [List.take_add, after_append]
    exact records_grow _ _
  next => exact ⟨List.prefix_refl _, List.prefix_refl _⟩

/-- Every sweep but the last ended before the next one started, each counts the trials of its
ledger, and the session counts the trials of the journal. -/
structure HonestCount (s : RunnerState F hash) : Prop where
  sweeps : ∃ ended opened, sweepEvents s.records = oneByOne ended opened ∧
    ∀ entry ∈ ended, entry.2 = recoverPartialTrials s.partials entry.1
  increasing : (startedSweeps (sweepEvents s.records)).Pairwise (· < ·)
  inMemory : s.session.nSession = nSession s.records
  folded : ∀ session, Session.fold hash s.records = .ok session →
    session.nSession = nSession s.records

/-- Wherever a process dies, no trial is lost, and one write later the count is no lower. -/
theorem run_honestCount {es : List Unit} (h : (runnerMachine F hash).Run es s) :
    HonestCount s ∧ ∀ (process : RunnerProcess F hash) (n : Nat),
      nSession s.records ≤ nSession (runnerNext s { process with writes := n }).records ∧
        nSession (runnerNext s { process with writes := n }).records ≤
          nSession (runnerNext s { process with writes := n + 1 }).records := by
  have haccounted := run_accounted h
  refine ⟨⟨?_, haccounted.increasing, haccounted.nSession_eq, ?_⟩, ?_⟩
  · refine ⟨_, _, haccounted.events.symm, ?_⟩
    rintro ⟨sweep, trialsOffered⟩ hentry
    apply haccounted.counted
    rw [← haccounted.events]
    exact mem_oneByOne_ended.mpr hentry
  · intro session hfold
    exact (haccounted.refold hfold).nSession_eq
  · intro process n
    obtain ⟨hgrows, hnext⟩ := runnerNext_records s process n
    exact ⟨nSession_mono hgrows, nSession_mono hnext⟩

end Runs

section Sample

def sampleProposal (sweep slot : Nat) : Proposal :=
  ⟨none, [("axis", "level")], 1, "sample", slot, s!"{sweep}-{slot}"⟩

def sampleSearch (slot trialsOffered : Nat) (eScreenPess : Option ℚ) : SearchOutcome ℚ where
  row := ⟨slot, "c", trialsOffered, 1, eScreenPess, 10, some 1, none, none, none,
    ⟨0, 0, 0, 0, 0, false⟩, [], false, 0, 0, 0, none⟩
  redeflated _ := (some 1, none)

def sampleVerdict : SessionVerdict ℚ where
  schema := ""
  verdict := .inconclusive ""
  sessionId := "ar-1"
  symbol := "EURUSD"
  datasetReceipt := sampleTouchReceipt
  goalHash := "goal"
  judgeHash := "judge"
  costHash := "cost"
  scenarioLabel := ""
  scenarioFields := []
  scenariosSource := ""
  oosWindow := ⟨100, 200⟩
  sweepsRun := 0
  liveSweepsRun := 0
  searchesRun := 0
  nTrialsSession := 0
  bestEver := none
  shuffle := ⟨0, 0, none, none, none, none, 0, 0, false⟩
  unreachable := ⟨false, []⟩
  coverage := []
  census := ⟨0, 0, 0, 0, 0, 0, 0, [], 0, 0, []⟩
  oos := none
  reproduction := ""

def sampleSurroundings (maxSweeps : Nat) (eScreenPess : Option ℚ) :
    Surroundings ℚ sampleTouchHash where
  prepare := .ok ()
  header := sampleTouchHeader
  selfcheck _ := .ok ()
  dryRun := false
  maxSweeps := maxSweeps
  outOfTime _ := false
  nowMs _ := 0
  wallMs _ := 0
  store _ _ := .ok ()
  fnv64 text := text
  drawSweep sweep _ := .ok ⟨[sampleProposal sweep 0], [], [], false⟩
  resolve _ _ := .ok ()
  execute _ proposal _ _ := .ok (sampleSearch proposal.slot 5 eScreenPess)
  firstSweepReadable _ := .ok ()
  screen _ _ _ := .ok ⟨[], [], none⟩
  tau _ _ := 0
  blockOneStreamed _ := .ok ()
  decision _ := .goOn
  verdict _ _ := sampleVerdict
  gcTrialMatrices _ := .ok ⟨0, 0, 0, "", none⟩
  finalist _ _ := .error .infrastructureAbort
  provideQuoteCoverage := none

def sampleProcesses : List (RunnerProcess ℚ sampleTouchHash) :=
  [⟨sampleSurroundings 1 none, 1, 4⟩, ⟨sampleSurroundings 1 none, 1, 9⟩]

theorem sampleProcesses_honestCount : ∃ s : RunnerState ℚ sampleTouchHash,
    s.partials = [(1, 0, 5)] ∧ nSession s.records = 5 ∧ HonestCount s := by
  have hrun := Machine.run_of_exec_start (M := runnerMachine ℚ sampleTouchHash) sampleProcesses
    (fun _ s => decide (s.partials = [(1, 0, 5)] ∧ nSession s.records = 5)) (by decide +kernel)
  obtain ⟨es, s, hs, hp⟩ := hrun
  obtain ⟨hpartials, hnSession⟩ := of_decide_eq_true hp
  exact ⟨s, hpartials, hnSession, (run_honestCount hs).1⟩

end Sample

end Neoethos
