import Neoethos.ProposerSweep

/-! The sessions of the proposer, `runner.rs`: any number of processes, each of which may die between
any two records of its journal. -/

namespace Neoethos

namespace Autoresearch

variable {R F : Type*}

namespace SweepFold

def drawn (session : SweepFold) : List Proposal := session.remembered.map Prod.snd

end SweepFold

/-- The parent of a sweep is a proposal of one that was started. -/
def ParentIn (session : SweepFold) (view : SessionView F) : Prop :=
  ∀ parent, view.parent = some parent → ∃ p ∈ session.drawn, p.axisA = parent.axisA

/-- The fold of the journal, and the proposer of the process, while one runs. -/
structure SessionState where
  journal : SweepFold
  memory : Option Proposer

inductive SessionStep (R : Type*) [FloatOps F] [Sampler R F] (caps : Capabilities)
    (scenario : ScenarioKind) (seed : BitVec 64) : SessionState → SessionState → Prop
  | restored {session : SweepFold} {me : Proposer}
      (hme : Proposer.restore caps scenario seed session = some me) :
      SessionStep R caps scenario seed ⟨session, none⟩ ⟨session, some me⟩
  | died {session : SweepFold} {memory : Option Proposer} :
      SessionStep R caps scenario seed ⟨session, memory⟩ ⟨session, none⟩
  /-- The process dies inside `journal_draw`, or after it and before the intent. -/
  | cut {session session' : SweepFold} {me : Proposer} {s : SweepState R}
      {records : List SweepRecord} (payoff : PayoffSettings F)
      (stamp : Proposal → Except ProposalRefused String) (view : SessionView F)
      (hparent : ParentIn session view) (rng : R)
      (hdraw : me.drawSweep payoff stamp view session.nextSweep rng = some (.sweep s))
      (hrecords : records <+: journalDraw session.nextSweep s.out)
      (hrun : session.applyAll records = some session') :
      SessionStep R caps scenario seed ⟨session, some me⟩ ⟨session', none⟩
  | started {session session' : SweepFold} {me : Proposer} {s : SweepState R}
      (payoff : PayoffSettings F) (stamp : Proposal → Except ProposalRefused String)
      (view : SessionView F) (hparent : ParentIn session view) (rng : R)
      (hdraw : me.drawSweep payoff stamp view session.nextSweep rng = some (.sweep s))
      (hrun : session.applyAll
        (journalDraw session.nextSweep s.out ++ [.sweepStarted session.nextSweep]) =
          some session') :
      SessionStep R caps scenario seed ⟨session, some me⟩ ⟨session', some s.me⟩
  /-- A control runs the proposals of an earlier sweep again, under a number of its own. -/
  | controlled {session session' : SweepFold} {me : Proposer}
      (hrun : session.apply (.sweepStarted session.nextSweep) = some session') :
      SessionStep R caps scenario seed ⟨session, some me⟩ ⟨session', some me⟩
  /-- An outcome of the process, or the `SweepAbandoned` that one writes as it resumes. -/
  | ended {session session' : SweepFold} {memory : Option Proposer} (sweep : Nat)
      (hrun : session.apply (.sweepEnded sweep) = some session') :
      SessionStep R caps scenario seed ⟨session, memory⟩ ⟨session', memory⟩
  | noted {session : SweepFold} {memory : Option Proposer} (sweep : Nat) :
      SessionStep R caps scenario seed ⟨session, memory⟩ ⟨session.noteSweep sweep, memory⟩
  | reloaded {session : SweepFold} {me : Proposer} :
      SessionStep R caps scenario seed ⟨session, some me⟩ ⟨session, some (me.reload session)⟩

inductive Journal (R : Type*) [FloatOps F] [Sampler R F] (caps : Capabilities)
    (scenario : ScenarioKind) (seed : BitVec 64) : SessionState → Prop
  | opened : Journal R caps scenario seed ⟨.empty, none⟩
  | next {s s' : SessionState} (previous : Journal R caps scenario seed s)
      (step : SessionStep R caps scenario seed s s') : Journal R caps scenario seed s'

/-- What every state of a session keeps: the proposer in memory is the one that its journal would
restore. -/
structure Journaled (caps : Capabilities) (scenario : ScenarioKind) (seed : BitVec 64)
    (s : SessionState) : Prop where
  numbered : s.journal.Numbered
  dense : Dense seed s.journal.drawn
  capped : Capped s.journal.drawn
  expressible : ∀ p ∈ s.journal.drawn, p.axisA.Expressible caps
  memory : ∀ me, s.memory = some me → Proposer.restore caps scenario seed s.journal = some me

namespace Journaled

variable {caps : Capabilities} {scenario : ScenarioKind} {seed : BitVec 64} {s : SessionState}
  {me : Proposer}

theorem empty : Journaled caps scenario seed ⟨.empty, none⟩ where
  numbered := .empty
  dense := .nil
  capped _ _ _ := Nat.zero_le _
  expressible _ hp := absurd hp List.not_mem_nil
  memory _ hme := nomatch hme

theorem keep (h : Journaled caps scenario seed s) {session : SweepFold}
    {memory : Option Proposer} (hnumbered : session.Numbered)
    (hsame : session.remembered = s.journal.remembered)
    (hmemory : ∀ me, memory = some me → s.memory = some me) :
    Journaled caps scenario seed ⟨session, memory⟩ := by
  have hdrawn : session.drawn = s.journal.drawn := congrArg (·.map Prod.snd) hsame
  exact
    { numbered := hnumbered
      dense := hdrawn ▸ h.dense
      capped := hdrawn ▸ h.capped
      expressible := hdrawn ▸ h.expressible
      memory := fun me hme => restore_congr (h.memory me (hmemory me hme)) hsame }

section Draw

variable [FloatOps F] [Sampler R F] {payoff : PayoffSettings F}
  {stamp : Proposal → Except ProposalRefused String} {view : SessionView F}

/-- A sweep whose payoff inputs are accepted comes to its end. -/
theorem drawSweep (h : Journaled caps scenario seed s) (hme : s.memory = some me) {ceiling : F}
    (hpriced : assertPayoffFloorReachable payoff.minPayoffRatio payoff.inputs = .ok ceiling)
    (stamp : Proposal → Except ProposalRefused String) (hparent : ParentIn s.journal view)
    (sweep : Nat) (rng : R) :
    ∃ drawn, me.drawSweep payoff stamp view sweep rng = some drawn ∧
      Finished me s.journal.drawn view stamp sweep drawn := by
  obtain ⟨hcaps, hseed, hlive, hrecalls⟩ := restore_spec (h.memory me hme)
  have hbased : Based me s.journal.drawn view := by
    refine ⟨hlive, hrecalls, fun parent hsome => ?_⟩
    obtain ⟨p, hp, haxis⟩ := hparent parent hsome
    rw [← haxis, hcaps]
    exact h.expressible p hp
  have hstart : Sweeping me s.journal.drawn view sweep 0
      ⟨me, rng, .empty, me.coverageDebt view.coverage⟩ :=
    { me := rfl
      dense := by
        rw [hseed]
        exact (List.append_nil _).symm ▸ h.dense
      capped := (List.append_nil _).symm ▸ h.capped
      slots := rfl
      runnable := fun p hp => absurd hp List.not_mem_nil
      duplicates := rfl
      refusals := rfl
      drawn := rfl
      going := ⟨rfl, rfl⟩
      debt := fun v hv => by
        have hmem := List.mem_mergeSort.mp hv
        obtain ⟨hdrawable, howed⟩ := List.mem_filter.mp hmem
        exact ⟨hdrawable, Option.isNone_iff_eq_none.mp (Bool.and_eq_true_iff.mp howed).1⟩ }
  unfold Proposer.drawSweep
  rw [hpriced, List.range_eq_range']
  exact drawSlots_spec hbased hstart stamp (Nat.zero_add _)

theorem finished_of_drawSweep (h : Journaled caps scenario seed s) (hme : s.memory = some me)
    (hparent : ParentIn s.journal view) {sweep : Nat} {rng : R} {d : SweepState R}
    (hdraw : me.drawSweep payoff stamp view sweep rng = some (.sweep d)) :
    Finished (F := F) me s.journal.drawn view stamp sweep (.sweep d) := by
  cases hpriced : assertPayoffFloorReachable payoff.minPayoffRatio payoff.inputs with
  | error reason =>
    unfold Proposer.drawSweep at hdraw
    rw [hpriced] at hdraw
    cases hdraw
  | ok ceiling =>
    obtain ⟨drawn, heq, hfinished⟩ := h.drawSweep hme hpriced stamp hparent sweep rng
    obtain rfl := Option.some.inj (heq.symm.trans hdraw)
    exact hfinished

/-- What a sweep draws goes on from the sweeps that were started. -/
theorem continues (h : Journaled caps scenario seed s) (hme : s.memory = some me)
    (hparent : ParentIn s.journal view) {sweep : Nat} {rng : R} {d : SweepState R}
    (hdraw : me.drawSweep payoff stamp view sweep rng = some (.sweep d)) :
    Dense seed (s.journal.drawn ++ d.out.proposals) ∧
      Capped (s.journal.drawn ++ d.out.proposals) ∧
      (∀ p ∈ d.out.proposals, p.axisA.Expressible caps) ∧
      d.out.proposals.map (·.slot) = List.range d.out.proposals.length ∧
      d.me = me.rememberAll (d.out.proposals.map (sweep, ·)) := by
  obtain ⟨slot, s₀, hsweeping, hme₀, hproposals⟩ :=
    (h.finished_of_drawSweep hme hparent hdraw).sweeping
  obtain ⟨hcaps, hseed, -, -⟩ := restore_spec (h.memory me hme)
  have hlength := hsweeping.accounted.1
  rw [← hproposals, ← hme₀, ← hseed, hlength]
  exact ⟨hsweeping.dense, hsweeping.capped,
    fun p hp => hcaps ▸ (hsweeping.runnable p hp).expressible, hsweeping.slots, hsweeping.me⟩

theorem step {s' : SessionState} (h : Journaled caps scenario seed s)
    (hstep : SessionStep R caps scenario seed s s') : Journaled caps scenario seed s' := by
  cases hstep with
  | restored hme =>
    exact { h with memory := fun me hsome => Option.some.inj hsome ▸ hme }
  | died => exact h.keep h.numbered rfl fun me hme => nomatch hme
  | @cut session session' me d records payoff stamp view hparent rng hdraw hrecords hrun =>
    have hnew : session.nextSweep ∉ session.started := fun hmem =>
      absurd (h.numbered.seen _ hmem) (Nat.not_succ_le_self _)
    obtain ⟨reached, hreached, hbeside⟩ := SweepFold.applyAll_draw
      (fun record hmem => SweepFold.ofDraw_of_mem (hrecords.subset hmem)) session
    obtain rfl := Option.some.inj (hreached.symm.trans hrun)
    exact h.keep (h.numbered.applyAll hrun) (hbeside.remembered hnew) fun me hme => nomatch hme
  | @started session session' me d payoff stamp view hparent rng hdraw hrun =>
    obtain ⟨hdense, hcapped, hexpressible, hslots, hme⟩ := h.continues rfl hparent hdraw
    have hclosed : session.openSweep = none := by
      rw [SweepFold.applyAll_append] at hrun
      obtain ⟨drawn, hdraws, hintent⟩ := Option.bind_eq_some_iff.mp hrun
      obtain ⟨next, hnext, -⟩ := SweepFold.applyAll_cons.mp hintent
      obtain ⟨hopen, -⟩ := Option.ite_none_left_eq_some.mp hnext
      obtain ⟨reached, hreached, hbeside⟩ := SweepFold.applyAll_journalDraw
        session.nextSweep d.out session
      obtain rfl := Option.some.inj (hreached.symm.trans hdraws)
      rw [hbeside.openSweep] at hopen
      simpa using hopen
    obtain ⟨reached, hreached, -, hremembered⟩ :=
      SweepFold.journalDraw_started h.numbered hclosed hslots
    obtain rfl := Option.some.inj (hreached.symm.trans hrun)
    have hdrawn : reached.drawn = session.drawn ++ d.out.proposals := by
      unfold SweepFold.drawn
      rw [hremembered, List.map_append, List.map_map]
      exact congrArg _ (List.map_id _)
    exact
      { numbered := h.numbered.applyAll hrun
        dense := hdrawn ▸ hdense
        capped := hdrawn ▸ hcapped
        expressible := fun p hp => by
          rcases List.mem_append.mp (hdrawn ▸ hp) with hold | hnew
          · exact h.expressible p hold
          · exact hexpressible p hnew
        memory := fun other hother => by
          obtain rfl := Option.some.inj hother
          rw [hme]
          exact restore_append (h.memory me rfl) hremembered }
  | @controlled session session' me hrun =>
    obtain ⟨hclosed, heq⟩ := Option.ite_none_left_eq_some.mp hrun
    obtain rfl := Option.some.inj heq
    have hnone : session.openSweep = none := by simpa using hclosed
    refine h.keep (h.numbered.apply hrun) ?_ fun _ hme => hme
    have hstarted := SweepFold.started_open (session.noteSweep session.nextSweep)
      session.nextSweep hnone
    have hfresh : session.proposals session.nextSweep = none :=
      h.numbered.unseen _ (Nat.lt_succ_self _)
    unfold SweepFold.remembered
    rw [hstarted, List.flatMap_append, List.flatMap_singleton]
    simp only [SweepFold.noteSweep, hfresh]
    exact List.append_nil _
  | @ended session session' memory sweep hrun =>
    obtain ⟨hopen, heq⟩ := Option.ite_none_right_eq_some.mp hrun
    obtain rfl := Option.some.inj heq
    exact h.keep (h.numbered.apply hrun)
      (SweepFold.remembered_congr (SweepFold.started_end hopen) fun _ _ => rfl) fun _ hme => hme
  | noted sweep => exact h.keep (h.numbered.noteSweep sweep) rfl fun _ hme => hme
  | @reloaded session me =>
    rw [reload_eq (h.memory me rfl)]
    exact h

end Draw

end Journaled

theorem Journal.journaled [FloatOps F] [Sampler R F] {caps : Capabilities}
    {scenario : ScenarioKind} {seed : BitVec 64} {s : SessionState}
    (h : Journal R caps scenario seed s) : Journaled caps scenario seed s := by
  induction h with
  | opened => exact .empty
  | next previous step ih => exact ih.step step

/-- No identity comes twice, no cell more than three times, no objective more often than its cap. -/
structure NeverRepeats (history : List Proposal) : Prop where
  keys : (history.map Proposal.key).Nodup
  cells : ∀ cell, drawsOf history cell ≤ maxReplicatesPerCell
  capped : Capped history

theorem Dense.neverRepeats {seed : BitVec 64} {history : List Proposal} (h : Dense seed history)
    (hcapped : Capped history) : NeverRepeats history :=
  ⟨h.nodup, h.draws_le, hcapped⟩

section Payoff

variable [FloatOps F]

/-- Payoff inputs that are numbers, in bands, with costs and a trail that are not negative. -/
structure PayoffCeilingInputs.Sound (inputs : PayoffCeilingInputs F) : Prop where
  finite : ∀ x ∈ [inputs.slMinPips, inputs.slMaxPips, inputs.tpMinPips, inputs.tpMaxPips,
    inputs.initializerRrMin, inputs.initializerRrMax, inputs.costPipsRoundTrip,
    inputs.trailingBeTriggerR, inputs.trailingGiveBackR, inputs.trailingMinLockPips],
    FloatOps.isFinite x = true
  stop : badBand inputs.slMinPips inputs.slMaxPips = false
  takeProfit : badBand inputs.tpMinPips inputs.tpMaxPips = false
  initializer : badBand inputs.initializerRrMin inputs.initializerRrMax = false
  atr : ∀ atr, inputs.atrPips = some atr →
    FloatOps.isFinite atr = true ∧ FloatOps.le atr (FloatOps.lit 0) = false
  cost : FloatOps.lt inputs.costPipsRoundTrip (FloatOps.lit 0) = false
  trailing : (FloatOps.lt inputs.trailingBeTriggerR (FloatOps.lit 0) ||
    FloatOps.lt inputs.trailingGiveBackR (FloatOps.lit 0) ||
    FloatOps.lt inputs.trailingMinLockPips (FloatOps.lit 0)) = false

structure PayoffSettings.Accepted (payoff : PayoffSettings F) : Prop where
  inputs : payoff.inputs.Sound
  floor : FloatOps.isFinite payoff.minPayoffRatio = true

theorem checkAtrPips_ok_iff {atrPips : Option F} : checkAtrPips atrPips = .ok ⟨⟩ ↔
    ∀ atr, atrPips = some atr →
      FloatOps.isFinite atr = true ∧ FloatOps.le atr (FloatOps.lit 0) = false := by
  cases atrPips with
  | none => simp [checkAtrPips]
  | some atr =>
    unfold checkAtrPips finite
    simp only [Fallible.check_ok_iff, Fallible.refuse_ok_iff]
    simp

theorem maxAchievablePayoff_ok_iff {inputs : PayoffCeilingInputs F} :
    (∃ ceiling, maxAchievablePayoff inputs = .ok ceiling) ↔ inputs.Sound := by
  unfold maxAchievablePayoff finite
  simp only [↓Fallible.check_ok_iff, Fallible.refuse_ok_iff, checkAtrPips_ok_iff,
    Bool.not_eq_false, Bool.not_eq_true]
  constructor
  · rintro ⟨ceiling, h₁, h₂, h₃, h₄, h₅, h₆, h₇, h₈, h₉, h₁₀, hstop, htake, hband, hatr, hcost,
      htrail, -⟩
    exact ⟨by simp [*], hstop, htake, hband, hatr, hcost, htrail⟩
  · rintro ⟨hfinite, hstop, htake, hband, hatr, hcost, htrail⟩
    simp only [List.forall_mem_cons] at hfinite
    obtain ⟨h₁, h₂, h₃, h₄, h₅, h₆, h₇, h₈, h₉, h₁₀, -⟩ := hfinite
    exact ⟨_, h₁, h₂, h₃, h₄, h₅, h₆, h₇, h₈, h₉, h₁₀, hstop, htake, hband, hatr, hcost, htrail, rfl⟩

theorem assertPayoffFloorReachable_ok_iff {payoff : PayoffSettings F} :
    (∃ ceiling, assertPayoffFloorReachable payoff.minPayoffRatio payoff.inputs = .ok ceiling) ↔
      payoff.Accepted := by
  unfold assertPayoffFloorReachable
  simp only [↓Fallible.check_ok_iff, Fallible.bind_ok_iff, Fallible.refuse_ok_iff,
    Bool.not_eq_false]
  constructor
  · rintro ⟨ceiling, _, hinputs, hfloor, -⟩
    exact ⟨maxAchievablePayoff_ok_iff.mp ⟨_, hinputs⟩, hfloor⟩
  · rintro ⟨hinputs, hfloor⟩
    obtain ⟨ceiling, hceiling⟩ := maxAchievablePayoff_ok_iff.mpr hinputs
    exact ⟨ceiling, ceiling, hceiling, hfloor, rfl⟩

end Payoff

structure Ticks where
  count : Nat

instance : Sampler Ticks ℚ where
  range rng n := (rng.count % n, ⟨rng.count * 7 + 3⟩)
  beta rng a b := ((rng.count % 11 : Nat) * a / (a + b), ⟨rng.count * 5 + 1⟩)
  range_lt rng _ hn := Nat.mod_lt rng.count hn

def everyKnob : Capabilities := ⟨fun _ => true⟩

def firstView : SessionView ℚ := ⟨fun _ => (1, 1), fun _ => 0, none, fun _ => false⟩

theorem firstView_parentless (session : SweepFold) : ParentIn session firstView :=
  fun _ hparent => nomatch hparent

def samplePayoff : PayoffSettings ℚ :=
  ⟨2, ⟨10, 100, 20, 300, 4, 1, none, 2, 1, 1 / 2, 1⟩⟩

theorem samplePayoff_accepted : samplePayoff.Accepted :=
  ⟨⟨by decide, by decide +kernel, by decide +kernel, by decide +kernel,
    (fun _ hatr => nomatch hatr), by decide +kernel, by decide +kernel⟩, rfl⟩

def sampleStamp : Proposal → Except ProposalRefused String := fun _ => .ok "stamp"

theorem everyKnob_restores (session : SweepFold) :
    ∃ me, Proposer.restore everyKnob .risky 7 session = some me := by
  have hlive : (axisBLiveCheck everyKnob .risky).isSome := by decide
  obtain ⟨drawable, hdrawable⟩ := Option.isSome_iff_exists.mp hlive
  exact ⟨_, Option.map_eq_some_iff.mpr ⟨drawable, hdrawable, rfl⟩⟩

theorem Journaled.sampleSweep {s : SessionState} {me : Proposer}
    (h : Journaled everyKnob .risky 7 s) (hme : s.memory = some me) (sweep : Nat) :
    ∃ d : SweepState Ticks,
      me.drawSweep samplePayoff sampleStamp firstView sweep ⟨5⟩ = some (.sweep d) := by
  obtain ⟨ceiling, hpriced⟩ := assertPayoffFloorReachable_ok_iff.mpr samplePayoff_accepted
  obtain ⟨drawn, hdraw, hfinished⟩ := h.drawSweep hme hpriced sampleStamp
    (firstView_parentless s.journal) sweep (⟨5⟩ : Ticks)
  cases drawn with
  | sweep d => exact ⟨d, hdraw⟩
  | unpriced reason => exact hfinished.elim
  | failed d slot attempts =>
    obtain ⟨-, -, -, ⟨candidate, reason, -, hstamp, -⟩, -⟩ := hfinished
    cases hstamp

section Results

variable [FloatOps F] [Sampler R F] {caps : Capabilities} {scenario : ScenarioKind}
  {seed : BitVec 64} {s : SessionState}

/-- Whatever the processes of a session drew, and wherever they died: the proposals of the sweeps
that were started never repeat, and neither does any draw, started later or not, repeat one of
them. -/
theorem Journal.never_repeats (h : Journal R caps scenario seed s) :
    NeverRepeats s.journal.drawn ∧
      ∀ me, s.memory = some me → ∀ (payoff : PayoffSettings F)
        (stamp : Proposal → Except ProposalRefused String) (view : SessionView F),
        ParentIn s.journal view → ∀ (sweep : Nat) (rng : R) (d : SweepState R),
          me.drawSweep payoff stamp view sweep rng = some (.sweep d) →
            NeverRepeats (s.journal.drawn ++ d.out.proposals) := by
  have hjournaled := h.journaled
  refine ⟨hjournaled.dense.neverRepeats hjournaled.capped,
    fun me hme payoff stamp view hparent sweep rng d hdraw => ?_⟩
  obtain ⟨hdense, hcapped, -⟩ := hjournaled.continues hme hparent hdraw
  exact hdense.neverRepeats hcapped

/-- A process dies inside its first draw, and the next one starts a sweep: what that and one more
draw hold never repeats. -/
theorem Journal.cut_sweep_never_repeats : ∃ (s : SessionState) (d : SweepState Ticks),
    Journal Ticks everyKnob .risky 7 s ∧ s.journal.openSweep.isSome ∧
      NeverRepeats s.journal.drawn ∧ NeverRepeats (s.journal.drawn ++ d.out.proposals) := by
  obtain ⟨me₁, hme₁⟩ := everyKnob_restores .empty
  have hfirst : Journal Ticks everyKnob .risky 7 ⟨.empty, some me₁⟩ := .next .opened (.restored hme₁)
  obtain ⟨d₁, hdraw₁⟩ := hfirst.journaled.sampleSweep rfl SweepFold.empty.nextSweep
  obtain ⟨session, hcut, hbeside⟩ := SweepFold.applyAll_draw
    (fun record hmem => SweepFold.ofDraw_of_mem (List.mem_of_mem_take hmem) :
      ∀ record ∈ (journalDraw SweepFold.empty.nextSweep d₁.out).take 1, _) SweepFold.empty
  have hdead : Journal Ticks everyKnob .risky 7 ⟨session, none⟩ :=
    hfirst.next (.cut samplePayoff sampleStamp firstView (firstView_parentless _) ⟨5⟩ hdraw₁
      (List.take_prefix _ _) hcut)
  obtain ⟨me₂, hme₂⟩ := everyKnob_restores session
  have hsecond := hdead.next (.restored hme₂)
  obtain ⟨d₂, hdraw₂⟩ := hsecond.journaled.sampleSweep rfl session.nextSweep
  obtain ⟨-, -, -, hslots, -⟩ :=
    hsecond.journaled.continues rfl (firstView_parentless session) hdraw₂
  obtain ⟨session', hrun, hopen, -⟩ := SweepFold.journalDraw_started hsecond.journaled.numbered
    (hbeside.openSweep.trans rfl) hslots
  have hstarted : Journal Ticks everyKnob .risky 7 ⟨session', some d₂.me⟩ :=
    hsecond.next (.started samplePayoff sampleStamp firstView (firstView_parentless _) ⟨5⟩ hdraw₂
      hrun)
  obtain ⟨d₃, hdraw₃⟩ := hstarted.journaled.sampleSweep rfl session'.nextSweep
  obtain ⟨hkept, hlater⟩ := Journal.never_repeats hstarted
  exact ⟨⟨session', some d₂.me⟩, d₃, hstarted, by rw [hopen]; rfl, hkept, hlater d₂.me rfl
    samplePayoff sampleStamp firstView (firstView_parentless _) _ ⟨5⟩ d₃ hdraw₃⟩

/-- A sweep of a session ends before its first slot when its payoff inputs are refused, and
otherwise with a record for each of its slots, a proposal or a refusal, or with the slot whose last
stamp was refused. It never finds a duplicate, and a proposer that is restored from the journal
once the sweep is started is the one that drew it. -/
theorem Journal.sweep_accounts {me : Proposer} (h : Journal R caps scenario seed s)
    (hme : s.memory = some me) (payoff : PayoffSettings F)
    (stamp : Proposal → Except ProposalRefused String) {view : SessionView F}
    (hparent : ParentIn s.journal view) (rng : R) :
    (¬payoff.Accepted ∧ ∃ reason,
      assertPayoffFloorReachable payoff.minPayoffRatio payoff.inputs = .error reason ∧
        me.drawSweep payoff stamp view s.journal.nextSweep rng = some (.unpriced reason)) ∨
    (payoff.Accepted ∧ ∃ d : SweepState R,
      me.drawSweep payoff stamp view s.journal.nextSweep rng = some (.sweep d) ∧
        Accounted me view d.out ∧
        d.out.proposals.length + d.out.slotsAbandoned = sweepSearches ∧
        d.out.exhausted = decide (0 < d.out.slotsAbandoned) ∧
        (∀ slot, d.out.proposals.length ≤ slot → slot < sweepSearches →
          neverDrawn d.out.proposals.length proposerRetries slot ∈ d.out.refused) ∧
        (s.journal.openSweep = none → ∃ session, s.journal.applyAll
            (journalDraw s.journal.nextSweep d.out ++ [.sweepStarted s.journal.nextSweep]) =
              some session ∧
          Proposer.restore caps scenario seed session = some d.me)) ∨
    payoff.Accepted ∧ ∃ (d : SweepState R) (slot attempts : Nat),
      me.drawSweep payoff stamp view s.journal.nextSweep rng = some (.failed d slot attempts) ∧
        Accounted me view d.out ∧ d.out.proposals.length = slot ∧ slot < sweepSearches ∧
        proposerRetries ≤ attempts ∧ ∃ candidate reason, candidate.slot = slot ∧
          stamp candidate = .error reason ∧
          d.out.refused.getLast? = some ⟨slot, "", reason⟩ := by
  have hjournaled := h.journaled
  cases hpriced : assertPayoffFloorReachable payoff.minPayoffRatio payoff.inputs with
  | error reason =>
    refine .inl ⟨fun haccepted => ?_, reason, rfl, ?_⟩
    · obtain ⟨ceiling, hceiling⟩ := assertPayoffFloorReachable_ok_iff.mpr haccepted
      cases hpriced.symm.trans hceiling
    · unfold Proposer.drawSweep
      rw [hpriced]
  | ok ceiling =>
    have haccepted := assertPayoffFloorReachable_ok_iff.mp ⟨ceiling, hpriced⟩
    obtain ⟨drawn, hdraw, hfinished⟩ :=
      hjournaled.drawSweep hme hpriced stamp hparent s.journal.nextSweep rng
    cases drawn with
    | unpriced reason => exact hfinished.elim
    | failed d slot attempts =>
      obtain ⟨hslot, -, hattempts, hstamp, hsweeping⟩ := hfinished
      obtain ⟨hlength, haccounted⟩ := hsweeping.accounted
      exact .inr (.inr ⟨haccepted, d, slot, attempts, hdraw, haccounted, hlength, hslot, hattempts,
        hstamp⟩)
    | sweep d =>
      refine .inr (.inl ⟨haccepted, d, hdraw, ?_⟩)
      obtain ⟨-, -, -, hslots, hmemory⟩ := hjournaled.continues hme hparent hdraw
      have hrestored (hclosed : s.journal.openSweep = none) : ∃ session, s.journal.applyAll
          (journalDraw s.journal.nextSweep d.out ++ [.sweepStarted s.journal.nextSweep]) =
            some session ∧ Proposer.restore caps scenario seed session = some d.me := by
        obtain ⟨session, hrun, -, hremembered⟩ :=
          SweepFold.journalDraw_started hjournaled.numbered hclosed hslots
        exact ⟨session, hrun, hmemory ▸ restore_append (hjournaled.memory me hme) hremembered⟩
      rcases hfinished with hall | ⟨slot, hslot, s₁, hcut, hs⟩
      · obtain ⟨hlength, haccounted⟩ := hall.accounted
        refine ⟨haccounted, ?_, ?_, fun slot hle hlt => ?_, hrestored⟩
        · rw [hlength, hall.going.2, Nat.add_zero]
        · rw [hall.going.1, hall.going.2]
          rfl
        · exact absurd hlt (Nat.not_lt.mpr (hlength ▸ hle))
      · obtain ⟨hlength, haccounted⟩ := hcut.accounted
        obtain ⟨hproposals, hexhausted, habandoned, hrefused, haccounts⟩ :=
          abandonRemainingSlots_spec haccounted hlength proposerRetries
        have hout : d.out = s₁.out.abandonRemainingSlots slot proposerRetries :=
          congrArg SweepState.out hs
        refine ⟨hout ▸ haccounts, ?_, ?_, fun k hle hlt => ?_, hrestored⟩
        · rw [hout, hproposals, habandoned, hlength]
          omega
        · rw [hout, hexhausted, habandoned]
          exact (decide_eq_true (by omega)).symm
        · rw [hout, hproposals, hlength] at hle ⊢
          rw [hrefused]
          refine List.mem_append_right _ (List.mem_map.mpr ⟨k, ?_, rfl⟩)
          exact List.mem_range'_1.mpr ⟨hle, by omega⟩

theorem Journal.first_sweep_accounts : ∃ me, ∃ d : SweepState Ticks,
    Proposer.restore everyKnob .risky 7 .empty = some me ∧
      me.drawSweep samplePayoff sampleStamp firstView 1 ⟨5⟩ = some (.sweep d) ∧
      d.out.proposals.length + d.out.slotsAbandoned = sweepSearches := by
  obtain ⟨me, hme⟩ := everyKnob_restores .empty
  have hopened : Journal Ticks everyKnob .risky 7 ⟨.empty, some me⟩ := .next .opened (.restored hme)
  rcases Journal.sweep_accounts hopened rfl samplePayoff sampleStamp (firstView_parentless _)
      ⟨5⟩ with
    ⟨hrefused, -⟩ | ⟨-, d, hdraw, -, hall, -⟩ |
      ⟨-, d, slot, attempts, -, -, -, -, -, candidate, reason, -, hstamp, -⟩
  · exact absurd samplePayoff_accepted hrefused
  · exact ⟨me, d, hme, hdraw, hall⟩
  · cases hstamp

end Results

end Autoresearch

end Neoethos
