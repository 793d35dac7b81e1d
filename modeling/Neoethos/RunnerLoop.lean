import Neoethos.RunnerSweeps

namespace Neoethos

open Durable Fallible

section Sweep

variable {F : Type} [FloatOps F] {hash : CompactHash} {w : Surroundings F hash}
  {C D : RunnerState F hash → Prop} {R : Nat → RunnerState F hash → Prop} {sweep : SweepId}

/-- The conditions of an open sweep, by the trials offered so far, and of one that has ended. -/
structure SweepRule (C D : RunnerState F hash → Prop) (R : Nat → RunnerState F hash → Prop)
    (sweep : SweepId) : Prop where
  running : ∀ trialsOffered, Quiet C (R trialsOffered)
  done : Quiet C D
  ledger : ∀ s trialsOffered slot more, R trialsOffered s →
    R (trialsOffered + more) (DurableStore.write s (.ledger sweep slot more))
  completed : ∀ trialsOffered perSearch wallMs, Triple C (R trialsOffered)
    (append (.sweepCompleted sweep trialsOffered perSearch wallMs)) (fun _ => D) C
  failed : ∀ s trialsOffered text, R trialsOffered s → Triple C (· = s)
    (append (.sweepFailed sweep (max (recoverPartialTrials s.partials sweep) trialsOffered) text))
    (fun _ => D) C

namespace SweepRule

theorem recordPartial (h : SweepRule C D R sweep) {trialsOffered : Nat} (slot more : Nat) :
    Triple C (R trialsOffered) (w.recordPartial sweep slot more)
      (fun _ => R (trialsOffered + more)) C := by
  have hledger (s : RunnerState F hash) (hs : R trialsOffered s) :=
    h.ledger s trialsOffered slot more hs
  refine Triple.bind (ask_calm (h.running trialsOffered) _) fun _ =>
    Triple.bind (Triple.write ?_ hledger) fun _ => ask_calm (h.running _) _
  intro s hs
  exact (h.running _).keeps _ (hledger s hs)

theorem fails (h : SweepRule C D R sweep) {trialsOffered : Nat} {s : RunnerState F hash}
    (hs : R trialsOffered s) {α : Type} {Q : α → RunnerState F hash → Prop} (text : String)
    (e : RunnerError) :
    Triple C (· = s) (do
      append (.sweepFailed sweep (max (recoverPartialTrials s.partials sweep) trialsOffered) text)
      fail e) Q C :=
  Triple.bind (h.failed s trialsOffered text hs) fun _ => Triple.fail h.done.keeps

theorem runProposals (h : SweepRule C D R sweep) {tau : Option F} (proposals : List Proposal)
    (tally : SweepTally F) :
    Triple C (R tally.trialsOffered) (w.runProposals sweep tau proposals tally)
      (fun tally => R tally.trialsOffered) C := by
  induction proposals generalizing tally with
  | nil => exact Triple.pure fun _ hs => hs
  | cons proposal rest ih =>
    apply Triple.get_bind
    intro s hs
    split
    next =>
      exact (Triple.bind (append_calm (h.running _) rfl) fun _ => ih ⟨_, _, _⟩).start_at hs
    next =>
      simp only
      split
      next => exact (Triple.bind (h.recordPartial _ _) fun _ => ih ⟨_, _, _⟩).start_at hs
      next => exact h.fails hs _ _

theorem completeSweep (h : SweepRule C D R sweep) {kind : SweepKind} {proposals : List Proposal}
    {tally : SweepTally F} :
    Triple C (R tally.trialsOffered) (w.completeSweep sweep kind proposals tally) (fun _ => D) C := by
  apply Triple.get_bind
  intro s hs
  split
  next => exact h.fails hs _ _
  next =>
    have hask (answer : RunnerState F hash → Except String Unit) :=
      ask_calm (h.running tally.trialsOffered) answer
    refine Triple.start_at (Triple.bind (hask _) fun _ => Triple.bind (hask _) fun _ =>
      Triple.bind (h.completed _ _ _) fun _ => get_calm fun _ => ?_) hs
    split
    next => exact fail_calm h.done _
    next => exact pure_calm _

/-- A whole sweep, from a condition under which it may start. -/
theorem runSweep (h : SweepRule C D R sweep) {P : RunnerState F hash → Prop} (hquiet : Quiet C P)
    {kind : SweepKind} {proposals : List Proposal} {tau : Option F}
    (hstart : ∀ sweepHash startedMs, Triple C P
      (append (.sweepStarted sweep sweepHash kind startedMs)) (fun _ => R 0) C) :
    Triple C P (w.runSweep sweep kind proposals tau) (fun _ => D) C := by
  refine Triple.bind (lift_calm hquiet _) fun _ => Triple.bind (ask_calm hquiet _) fun _ =>
    Triple.bind (ask_calm hquiet _) fun _ => Triple.get_bind fun s hs => ?_
  exact Triple.bind ((hstart _ _).start_at hs) fun _ =>
    Triple.bind (h.runProposals proposals ⟨[], [], 0⟩) fun _ => h.completeSweep

end SweepRule

end Sweep

section Loop

variable {F : Type} [FloatOps F] {hash : CompactHash} {w : Surroundings F hash}
  {C I J : RunnerState F hash → Prop} {P : SweepId → RunnerState F hash → Prop}

/-- The conditions between turns, before a live sweep and after one, under one that holds whenever a
process dies. -/
structure LoopRule (w : Surroundings F hash) (C I J : RunnerState F hash → Prop)
    (P : SweepId → RunnerState F hash → Prop) : Prop where
  died : Quiet C C
  between : Quiet C I
  before : ∀ sweep, Quiet C (P sweep)
  after : Quiet C J
  next : ∀ s, I s → P s.session.nextSweep s
  live : ∀ sweep proposals,
    Triple C (P sweep) (w.runSweep sweep .live proposals none) (fun _ => J) C
  control : ∀ s, J s → s.session.blockBoundaryDue = true →
    Triple C (· = s) w.runBlockControl (fun _ => I) C
  notDue : ∀ s, J s → s.session.blockBoundaryDue = false → I s

def UnlessOver (C I : RunnerState F hash → Prop) (ended : Option (AutoresearchRunOutcome F))
    (s : RunnerState F hash) : Prop :=
  C s ∧ (ended = none → I s)

theorem Calm.unlessOver (h : Quiet C I) {x : Runner F hash (Option (AutoresearchRunOutcome F))}
    (hx : Calm C I x) : Triple C I x (UnlessOver C I) C :=
  hx.mono (fun _ hs => hs) (fun _ s hs => ⟨h.keeps s hs, fun _ => hs⟩) fun _ he => he

theorem unlessOver_step {ended : Option (AutoresearchRunOutcome F)}
    {step : Runner F hash (Option (AutoresearchRunOutcome F))}
    (h : Triple C I step (UnlessOver C J) C) :
    Triple C (UnlessOver C I ended) (Surroundings.unlessOver ended step) (UnlessOver C J) C := by
  cases ended with
  | some outcome => exact Triple.pure fun _ hs => ⟨hs.1, fun h => nomatch h⟩
  | none => exact h.pre fun s hs => hs.2 rfl

namespace LoopRule

theorem stops (h : LoopRule w C I J P) (reason : StopReason) :
    Triple C C (some <$> w.stopBoundary reason) (UnlessOver C I) C := by
  refine Triple.bind (stopBoundary_calm h.died reason) fun _ => Triple.pure ?_
  intro s hs
  exact ⟨hs, fun h => nomatch h⟩

theorem closeBlock (h : LoopRule w C I J P) : Triple C J w.closeBlock (UnlessOver C I) C := by
  apply Triple.get_bind
  intro s hs
  split
  next hdue =>
    refine Triple.bind (h.control s hs hdue).attempt fun result => ?_
    cases result with
    | error e => exact h.stops _
    | ok _ =>
      refine Calm.unlessOver h.between (get_calm fun t => ?_)
      split
      next => exact map_calm _ (stopBoundary_calm h.between _)
      next => exact pure_calm _
  next hdue =>
    refine Triple.pure fun t ht => ?_
    rw [ht]
    have hI := h.notDue s hs (by simpa using hdue)
    exact ⟨h.after.keeps s hs, fun _ => hI⟩

theorem judgeSweep (h : LoopRule w C I J P) {sweep : SweepId} {proposals : List Proposal}
    {run : SweepRun F} :
    Triple C J (w.judgeSweep sweep proposals run) (UnlessOver C I) C := by
  apply Triple.get_bind
  intro s hs
  split
  next => exact (h.stops _).start_at (h.after.keeps s hs)
  next =>
    exact (Triple.bind (Calm.unlessOver h.after (recordScreen_calm h.after sweep proposals run))
      fun _ => Triple.bind (unlessOver_step h.closeBlock) fun _ =>
        unlessOver_step (Calm.unlessOver h.between (decideTurn_calm h.between sweep))).start_at hs

theorem turn (h : LoopRule w C I J P) : Triple C I w.turn (UnlessOver C I) C := by
  apply Triple.get_bind
  intro s hs
  split
  next reason _ => exact (h.stops reason).start_at (h.between.keeps s hs)
  next =>
    have hbefore := h.before s.session.nextSweep
    refine Triple.start_at (Triple.bind (ask_calm hbefore _) fun drawn =>
      Triple.bind (journalDraw_calm hbefore _ _) fun _ => ?_) (h.next s hs)
    split
    next => exact (h.stops _).pre hbefore.keeps
    next =>
      split
      next => exact Triple.fail hbefore.keeps
      next =>
        refine Triple.bind (h.live _ _).attempt fun result => ?_
        cases result with
        | error e => exact h.stops _
        | ok run => exact h.judgeSweep

theorem turns (h : LoopRule w C I J P) (n : Nat) : Triple C I (w.turns n) (fun _ => C) C := by
  induction n with
  | zero => exact Triple.fail h.between.keeps
  | succ n ih =>
    refine Triple.bind h.turn fun ended => ?_
    cases ended with
    | some outcome => exact Triple.pure fun _ hs => hs.1
    | none => exact ih.pre fun _ hs => hs.2 rfl

end LoopRule

end Loop

section Boundary

variable {F : Type} [FloatOps F] {hash : CompactHash} {w : Surroundings F hash}
  {C I R : RunnerState F hash → Prop}

/-- What `openOrResume` does after the header: it ends a sweep that a process died in. -/
def resumeSweep (w : Surroundings F hash) : Runner F hash Unit := do
  let s ← get
  match s.session.openSweep with
  | some opened =>
    append (.sweepAbandoned opened.sweep (recoverPartialTrials s.partials opened.sweep)
      "process died between the SweepStarted intent and its outcome")
  | none => pure ()
  ask w.selfcheck

/-- A journal that is opened: from its condition before to the one in which no sweep is open. -/
theorem openOrResume_rule
    (hheader : Triple C I (append (.sessionOpened w.header)) (fun _ => I) C)
    (habandoned : ∀ s opened reason, I s → s.session.openSweep = some opened → Triple C (· = s)
      (append (.sweepAbandoned opened.sweep (recoverPartialTrials s.partials opened.sweep) reason))
      (fun _ => R) C)
    (hclosed : ∀ s, I s → s.session.openSweep = none → R s) (hkeeps : ∀ s, R s → C s) :
    Triple C I w.openOrResume (fun _ => R) C := by
  have hresume : Triple C I (resumeSweep w) (fun _ => R) C := by
    apply Triple.get_bind
    intro s hs
    split
    next opened hopened =>
      exact Triple.bind (habandoned s opened _ hs hopened) fun _ => ask_keeps hkeeps _
    next hopened =>
      exact (ask_keeps hkeeps _).start_at (hclosed s hs hopened)
  apply Triple.get_bind
  intro s hs
  dsimp only
  split
  next => exact (Triple.bind hheader fun _ => hresume).start_at hs
  next => exact hresume.start_at hs

/-- A process that opens the journal, and may enter the loop only under a condition of its own. -/
theorem runUntilBoundary_rule (hdied : Quiet C C)
    (hopen : Triple C I w.openOrResume (fun _ => R) C) (hkeeps : ∀ s, R s → C s) (n : Nat)
    (hloop : ∀ s, R s → s.session.stopped = none → s.session.quoteCoverage = none →
      w.dryRun = false → Triple C (· = s) (w.turns n) (fun _ => C) C) :
    Triple C I (w.runUntilBoundary n) (fun _ => C) C := by
  refine Triple.bind hopen fun _ => Triple.get_bind fun s hs => ?_
  have hC := hkeeps s hs
  split
  next => exact (pure_calm _).start_at hC
  next hstopped =>
    split
    next => exact (advanceQuoteCoverageBoundary_calm hdied _).start_at hC
    next hcoverage =>
      split
      next => exact (Triple.bind (runDry_calm hdied) fun _ => pure_calm _).start_at hC
      next hdry => exact hloop s hs hstopped (by simpa using hcoverage) (by simpa using hdry)

end Boundary

end Neoethos
