import Mathlib.Data.List.Range
import Neoethos.ProposerJournal

/-! The runs of `draw_sweep`: what a sweep holds turn by turn. -/

namespace Neoethos

namespace Autoresearch

open FloatOps (lit lt)

namespace ProposerCensus

def refusals (census : ProposerCensus) : Nat :=
  census.duplicatesRefused + census.cellReplicatesExhausted + census.payoffFloorUnreachable +
    census.invalidPayoffInputs + census.laneHorizonRefused + census.moneyPathRefused +
    census.appliedValueMismatch + census.spaceRefused + census.objectiveRefused

theorem recordRefusal_refusals (census : ProposerCensus) (reason : ProposalRefused) :
    (census.recordRefusal reason).refusals = census.refusals + 1 := by
  cases reason <;> simp only [recordRefusal, refusals] <;> omega

theorem recordRefusal_drawn (census : ProposerCensus) (reason : ProposalRefused) :
    (census.recordRefusal reason).proposalsDrawn = census.proposalsDrawn := by
  cases reason <;> rfl

def SameTally (census census' : ProposerCensus) : Prop :=
  census'.refusals = census.refusals ∧ census'.proposalsDrawn = census.proposalsDrawn

end ProposerCensus

section Census

variable {F : Type*} [FloatOps F]

theorem revertFactors_tally (caps : Capabilities) (parent : SearchConfigDelta)
    (fs : List FactorId) (axisA : SearchConfigDelta) (census : ProposerCensus) :
    census.SameTally (revertFactors caps parent fs axisA census).2 := by
  induction fs generalizing axisA census with
  | nil => exact ⟨rfl, rfl⟩
  | cons f rest ih =>
    unfold revertFactors
    split
    next => exact ⟨rfl, rfl⟩
    next axisA' _ => exact ih axisA' { census with
      trustRegionReverted := census.trustRegionReverted + 1 }

theorem applyTrustRegion_tally (axisA parent : SearchConfigDelta) (caps : Capabilities)
    (evidence : Arm → F × F) (census : ProposerCensus) :
    census.SameTally (applyTrustRegion axisA parent caps evidence census).2 := by
  unfold applyTrustRegion
  simp only
  split
  next => exact ⟨rfl, rfl⟩
  next => exact revertFactors_tally caps parent _ axisA census

namespace Proposer

theorem trustRegion_tally (me : Proposer) (view : SessionView F) (forceUniform : Bool)
    (axisA : SearchConfigDelta) (census : ProposerCensus) :
    census.SameTally (me.trustRegion view forceUniform axisA census).2 := by
  unfold trustRegion
  split
  next => exact applyTrustRegion_tally axisA _ me.caps view.evidence census
  next => exact ⟨rfl, rfl⟩

/-- A draw counts its repairs, and leaves the refusals to the sweep. -/
theorem drawOne_tally {R : Type*} [Sampler R F] (me : Proposer) (view : SessionView F)
    (slot : Nat) (forceUniform : Bool) (forcedVariant : Option ObjectiveVariant) (rng : R)
    (census : ProposerCensus) :
    census.SameTally (me.drawOne view slot forceUniform forcedVariant rng census).2.2 := by
  unfold drawOne
  simp only
  split
  next => exact ⟨rfl, rfl⟩
  next axisA _ =>
    have htally := me.trustRegion_tally view forceUniform axisA census
    split
    next heq => rwa [heq] at htally
    next heq =>
      rw [heq] at htally
      split
      next => exact htally
      next =>
        split
        next => exact htally
        next => exact htally

end Proposer

end Census

variable {R F : Type*}

/-- What the session can ask of a proposal: a point of its space with an objective of its build
and lanes that fit the horizon, uniform in the exploration floor and near the parent elsewhere. -/
structure Runnable (me : Proposer) (view : SessionView F) (p : Proposal) : Prop where
  expressible : p.axisA.Expressible me.caps
  drawable : p.axisB.variant ∈ me.drawableVariants
  param : p.axisB.param < p.axisB.variant.paramCount
  refusals : ∀ d, p.axisB.refusals.levels d < d.arity
  fits : Proposer.fits p.axisA (p.axisB.labelHorizonBars 0) = true
  floor : p.slot < explorationFloor → p.origin = .explorationFloor
  trust : p.origin ≠ .explorationFloor → ∀ parent, view.parent = some parent →
    (Proposer.movedFactors p.axisA parent.axisA).length ≤ maxDeltaFactors

/-- A sweep in the middle of its draw, with the proposals of the slots before this one. -/
structure Sweeping (base : Proposer) (history : List Proposal) (view : SessionView F)
    (sweep slot : Nat) (s : SweepState R) : Prop where
  me : s.me = base.rememberAll (s.out.proposals.map (sweep, ·))
  dense : Dense base.sessionSeed (history ++ s.out.proposals)
  capped : Capped (history ++ s.out.proposals)
  slots : s.out.proposals.map (·.slot) = List.range slot
  runnable : ∀ p ∈ s.out.proposals, Runnable base view p
  duplicates : s.out.duplicates = []
  refusals : s.out.refused.length = s.out.census.refusals
  drawn : s.out.census.proposalsDrawn = s.out.proposals.length
  going : s.out.exhausted = false ∧ s.out.slotsAbandoned = 0
  debt : ∀ v ∈ s.debt, v ∈ base.drawableVariants ∧ v.maxDrawsPerSession = none

namespace Sweeping

variable {base : Proposer} {history : List Proposal} {view : SessionView F}
  {sweep slot : Nat} {s : SweepState R}

theorem same (h : Sweeping base history view sweep slot s) :
    s.me.caps = base.caps ∧ s.me.scenario = base.scenario ∧
      s.me.sessionSeed = base.sessionSeed ∧ s.me.drawableVariants = base.drawableVariants := by
  rw [h.me]
  exact base.rememberAll_keeps _

theorem recalls (h : Sweeping base history view sweep slot s) (hbase : Recalls base history) :
    Recalls s.me (history ++ s.out.proposals) := by
  have hall := hbase.rememberAll (s.out.proposals.map (sweep, ·))
  rw [List.map_map, show Prod.snd ∘ (sweep, ·) = (id : Proposal → Proposal) from rfl,
    List.map_id] at hall
  rwa [h.me]

theorem live (h : Sweeping base history view sweep slot s) (hbase : base.Live) : s.me.Live := by
  obtain ⟨hcaps, hscenario, -, hdrawable⟩ := h.same
  unfold Proposer.Live
  rw [hcaps, hscenario, hdrawable]
  exact hbase

/-- A draw moves the stream and the census, and nothing else of the sweep. -/
theorem drew (h : Sweeping base history view sweep slot s) (rng : R) {census : ProposerCensus}
    (htally : s.out.census.SameTally census) :
    Sweeping base history view sweep slot
      { s with rng := rng, out := { s.out with census := census } } :=
  { h with
    refusals := h.refusals.trans htally.1.symm
    drawn := htally.2.trans h.drawn }

theorem refuse (h : Sweeping base history view sweep slot s) (k : Nat) (configHash : String)
    (reason : ProposalRefused) :
    Sweeping base history view sweep slot { s with out := s.out.refuse k configHash reason } :=
  { h with
    refusals := by
      change (s.out.refused ++ [_]).length = (s.out.census.recordRefusal reason).refusals
      rw [List.length_append, List.length_singleton, h.refusals,
        ProposerCensus.recordRefusal_refusals]
    drawn := (ProposerCensus.recordRefusal_drawn _ _).trans h.drawn }

theorem collide (h : Sweeping base history view sweep slot s) :
    Sweeping base history view sweep slot { s with out := { s.out with
      census := { s.out.census with uniformCollisions := s.out.census.uniformCollisions + 1 } } } :=
  { h with }

theorem accepted (h : Sweeping base history view sweep slot s) {candidate : Proposal}
    (hslot : candidate.slot = slot) (hrunnable : Runnable base view candidate)
    (hdense : Dense base.sessionSeed (history ++ s.out.proposals ++ [candidate]))
    (hcapped : Capped (history ++ s.out.proposals ++ [candidate])) :
    Sweeping base history view sweep (slot + 1) (s.accepted view sweep candidate) where
  me := by
    change s.me.remember candidate sweep =
      base.rememberAll ((s.out.proposals ++ [candidate]).map (sweep, ·))
    rw [List.map_append, Proposer.rememberAll_append, ← h.me]
    rfl
  dense := by rwa [List.append_assoc] at hdense
  capped := by rwa [List.append_assoc] at hcapped
  slots := by
    change (s.out.proposals ++ [candidate]).map (·.slot) = List.range (slot + 1)
    rw [List.map_append, h.slots, List.map_singleton, hslot, List.range_succ]
  runnable p hp := by
    rcases List.mem_append.mp hp with hearlier | hlast
    · exact h.runnable p hearlier
    · obtain rfl := List.mem_singleton.mp hlast
      exact hrunnable
  duplicates := h.duplicates
  refusals := by
    have hcensus : (s.accepted view sweep candidate).out.census.refusals =
        s.out.census.refusals := by
      unfold SweepState.accepted
      dsimp only
      split <;> split <;> rfl
    exact h.refusals.trans hcensus.symm
  drawn := by
    have hcensus : (s.accepted view sweep candidate).out.census.proposalsDrawn =
        s.out.census.proposalsDrawn + 1 := by
      unfold SweepState.accepted
      dsimp only
      split <;> split <;> rfl
    change _ = (s.out.proposals ++ [candidate]).length
    rw [hcensus, h.drawn, List.length_append, List.length_singleton]
  going := h.going
  debt v hv := by
    refine h.debt v ?_
    have hdebt : (s.accepted view sweep candidate).debt =
        if candidate.origin = .coverageDebt then s.debt.tail else s.debt := rfl
    rw [hdebt] at hv
    split at hv
    next => exact List.mem_of_mem_tail hv
    next => exact hv

end Sweeping

theorem capped_variant {v : ObjectiveVariant} {cap : Nat} (h : v.maxDrawsPerSession = some cap) :
    v = .b0ScoringTable := by
  cases v with
  | b0ScoringTable => rfl
  | _ => cases h

theorem Capped.draw {me : Proposer} {history : List Proposal} (h : Capped history)
    (hrecalls : Recalls me history) {p : Proposal} (hmay : me.MayDraw p.axisB.variant) :
    Capped (history ++ [p]) := by
  intro v cap hcap
  have hcount : objectiveDraws (history ++ [p]) v =
      objectiveDraws history v + if p.axisB.variant = v then 1 else 0 := by
    rw [objectiveDraws, List.countP_append, List.countP_singleton]
    simp only [decide_eq_true_eq]
    rfl
  rw [hcount]
  by_cases hv : p.axisB.variant = v
  · have hless : objectiveDraws history v < cap := by
      have hb0 := capped_variant hcap
      rw [hb0, ← hrecalls.b0Drawn]
      exact hmay.2 cap (hv ▸ hcap)
    rw [if_pos hv]
    exact hless
  · rw [if_neg hv]
    exact h v cap hcap

theorem Proposer.Drawn.runnable [FloatOps F] {base me : Proposer} (hcaps : me.caps = base.caps)
    (hdrawable : me.drawableVariants = base.drawableVariants) {view : SessionView F} {slot : Nat}
    {forceUniform : Bool} (hfloor : slot < explorationFloor → forceUniform = true)
    {forcedVariant : Option ObjectiveVariant} {p : Proposal}
    (h : me.Drawn view slot forceUniform forcedVariant p) : Runnable base view p where
  expressible := hcaps ▸ h.expressible
  drawable := hdrawable ▸ h.mayDraw.1
  param := h.param
  refusals := h.refusals
  fits := h.fits
  floor hslot := by
    rw [h.origin, hfloor (h.slot ▸ hslot)]
    rfl
  trust horigin := by
    refine h.trust ?_
    cases forceUniform with
    | true => exact absurd h.origin horigin
    | false => rfl

theorem Runnable.stamped {base : Proposer} {view : SessionView F} {p : Proposal}
    (h : Runnable base view p) (seed : BitVec 64) (configHash : String) :
    Runnable base view { p with replicateSeed := seed, configHash := configHash } :=
  ⟨h.expressible, h.drawable, h.param, h.refusals, h.fits, h.floor, h.trust⟩

theorem CellKey.of_stamped (p : Proposal) (seed : BitVec 64) (configHash : String) :
    CellKey.of { p with replicateSeed := seed, configHash := configHash } = CellKey.of p := rfl

/-- How a slot ends: drawn, or with the sweep cut short, or because of refused stamps. -/
def Ended (base : Proposer) (history : List Proposal) (view : SessionView F)
    (stamp : Proposal → Except ProposalRefused String) (sweep slot : Nat) : Attempt R → Prop
  | .drawn s => Sweeping base history view sweep (slot + 1) s
  | .again .. => False
  | .enumerated s => ∃ s₀, Sweeping base history view sweep slot s₀ ∧
      s = { s₀ with out := s₀.out.abandonRemainingSlots slot proposerRetries }
  | .bail s k attempts => k = slot ∧ proposerRetries ≤ attempts ∧
      (∃ candidate reason, candidate.slot = slot ∧ stamp candidate = .error reason ∧
        s.out.refused.getLast? = some ⟨slot, "", reason⟩) ∧
      Sweeping base history view sweep slot s

/-- What a turn leaves: the same slot with one attempt more, or its end. -/
def Turned (base : Proposer) (history : List Proposal) (view : SessionView F)
    (stamp : Proposal → Except ProposalRefused String) (sweep slot n : Nat) : Attempt R → Prop
  | .again s n' c => n' = n + 1 ∧ n' ≤ proposerRetries + c ∧ c < proposerRetries ∧
      Sweeping base history view sweep slot s
  | ended => Ended base history view stamp sweep slot ended

namespace Sweeping

variable {base : Proposer} {history : List Proposal} {view : SessionView F}
  {sweep slot n c : Nat} {s : SweepState R}

theorem turn_refused (h : Sweeping base history view sweep slot s) (hc : c < proposerRetries)
    {stamp : Proposal → Except ProposalRefused String} {candidate : Proposal}
    {reason : ProposalRefused} (hstamp : stamp candidate = .error reason)
    (hslot : candidate.slot = slot) :
    Turned base history view stamp sweep slot n (s.refused slot n c reason) := by
  unfold SweepState.refused
  dsimp only
  split
  next hlast =>
    refine ⟨rfl, hlast, ⟨candidate, reason, hslot, hstamp, ?_⟩, h.refuse slot "" reason⟩
    exact List.getLast?_concat
  next hmore =>
    have hless : n + 1 < proposerRetries := Nat.lt_of_not_le hmore
    exact ⟨rfl, by omega, hc, h.refuse slot "" reason⟩

theorem turn_collided (h : Sweeping base history view sweep slot s)
    (stamp : Proposal → Except ProposalRefused String) (hn : n ≤ proposerRetries + c) (hc : c < proposerRetries) {forceUniform : Bool}
    (huniform : proposerRetries ≤ n → forceUniform = true) (candidate : Proposal)
    (replicate : Nat) :
    Turned base history view stamp sweep slot n
      (s.collided slot n c forceUniform candidate replicate none) := by
  have hrefuse := h.refuse slot candidate.configHash (.cellReplicatesExhausted replicate)
  have hnone : s.out.recordIdentityRefusal slot candidate.configHash
      (.cellReplicatesExhausted replicate) none =
      s.out.refuse slot candidate.configHash (.cellReplicatesExhausted replicate) := rfl
  unfold SweepState.collided
  simp only [hnone]
  cases forceUniform with
  | true =>
    have hcount := hrefuse.collide
    simp only [↓reduceIte]
    split
    next hlast =>
      have hexact : c + 1 = proposerRetries := by omega
      rw [hexact]
      exact ⟨_, hcount, rfl⟩
    next hmore => exact ⟨rfl, by omega, by omega, hcount⟩
  | false =>
    have hposterior : n < proposerRetries := by
      by_contra hmany
      exact absurd (huniform (Nat.le_of_not_lt hmany)) (by decide)
    exact ⟨rfl, by omega, hc, hrefuse⟩

end Sweeping

/-- What a sweep starts from: a proposer with its journal, and a parent of the space. -/
structure Based (base : Proposer) (history : List Proposal) (view : SessionView F) : Prop where
  live : base.Live
  recalls : Recalls base history
  parent : ∀ parent, view.parent = some parent → parent.axisA.Expressible base.caps

theorem settle_spec {base : Proposer} {history : List Proposal} {view : SessionView F}
    {sweep slot n c : Nat} {s : SweepState R} (hbase : Recalls base history)
    (h : Sweeping base history view sweep slot s)
    (stamp : Proposal → Except ProposalRefused String) (hn : n ≤ proposerRetries + c)
    (hc : c < proposerRetries) {forceUniform : Bool}
    (huniform : proposerRetries ≤ n → forceUniform = true) {p : Proposal}
    (hrunnable : Runnable base view p) (hmay : s.me.MayDraw p.axisB.variant)
    (hslot : p.slot = slot) :
    Turned base history view stamp sweep slot n
      (s.settle stamp view sweep slot n c forceUniform p) := by
  have hrecalls := h.recalls hbase
  obtain ⟨-, -, hseed, -⟩ := h.same
  have hplace := hrecalls.replicates (CellKey.of p)
  unfold SweepState.settle
  dsimp only
  split
  next reason hstamp => exact h.turn_refused hc hstamp hslot
  next configHash _ =>
    obtain ⟨candidate, hcandidate⟩ : ∃ q : Proposal, { p with
      replicateSeed := replicateSeed s.me.sessionSeed (CellKey.of p)
        (s.me.replicates (CellKey.of p))
      configHash := configHash } = q := ⟨_, rfl⟩
    have hcell : CellKey.of candidate = CellKey.of p := hcandidate ▸ CellKey.of_stamped p _ _
    have hcandidateSeed : candidate.replicateSeed = replicateSeed base.sessionSeed
        (CellKey.of candidate) (drawsOf (history ++ s.out.proposals) (CellKey.of candidate)) := by
      rw [hcell, ← hplace, ← hseed, ← hcandidate]
    have hnew : s.me.keys candidate.key = none := by
      have hfresh := h.dense.key_fresh hcandidateSeed
      rw [← hrecalls.keys] at hfresh
      simpa using hfresh
    simp only [hcandidate, hnew, Option.isSome_none, Bool.false_or, decide_eq_true_eq]
    split
    next => exact h.turn_collided stamp hn hc huniform candidate _
    next hplaces =>
      have hsame : Runnable base view candidate := hcandidate ▸ hrunnable.stamped _ _
      have hmayDraw : s.me.MayDraw candidate.axisB.variant := hcandidate ▸ hmay
      refine h.accepted (hcandidate ▸ hslot) hsame (.draw h.dense ?_ hcandidateSeed)
        (h.capped.draw hrecalls hmayDraw)
      rw [hcell, ← hplace]
      exact Nat.lt_of_not_le hplaces

section Turns

variable [FloatOps F] [Sampler R F]

theorem attempt_spec {base : Proposer} {history : List Proposal} {view : SessionView F}
    {sweep slot n c : Nat} {s : SweepState R} (hbased : Based base history view)
    (h : Sweeping base history view sweep slot s)
    (stamp : Proposal → Except ProposalRefused String) (hn : n ≤ proposerRetries + c)
    (hc : c < proposerRetries) :
    Turned base history view stamp sweep slot n (s.attempt stamp view sweep slot n c) := by
  obtain ⟨hcaps, -, -, hdrawable⟩ := h.same
  obtain ⟨forceUniform, hforce⟩ : ∃ b, (slot < explorationFloor || proposerRetries ≤ n) = b :=
    ⟨_, rfl⟩
  have huniform : proposerRetries ≤ n → forceUniform = true := by
    intro hmany
    rw [← hforce, decide_eq_true hmany, Bool.or_true]
  have hfloor : slot < explorationFloor → forceUniform = true := by
    intro hslot
    rw [← hforce, decide_eq_true hslot, Bool.true_or]
  obtain ⟨forced, hforced⟩ :
      ∃ v, (if forceUniform || 0 < n then none else s.debt.head?) = v := ⟨_, rfl⟩
  have hmay : ∀ v, forced = some v → s.me.MayDraw v := by
    intro v hv
    rw [hv] at hforced
    split at hforced
    next => cases hforced
    next =>
      obtain ⟨hmem, hnone⟩ := h.debt v (List.mem_of_head? hforced)
      exact ⟨hdrawable ▸ hmem, fun cap hcap => by rw [hnone] at hcap; cases hcap⟩
  obtain ⟨p, rng, census, hdraw, hdrawn⟩ := Proposer.drawOne_spec view slot forceUniform
    forced (h.live hbased.live) (fun parent hparent => hcaps ▸ hbased.parent parent hparent) hmay
    s.rng s.out.census
  have htally := s.me.drawOne_tally view slot forceUniform forced s.rng s.out.census
  rw [hdraw] at htally
  unfold SweepState.attempt
  simp only [hforce, hforced, hdraw]
  exact settle_spec hbased.recalls (h.drew rng htally) stamp hn hc huniform
    (hdrawn.runnable hcaps hdrawable hfloor) hdrawn.mayDraw hdrawn.slot

/-- The loop of a slot comes to its end before the bound: an attempt past the retries is uniform,
and so many collisions in a row end it. -/
theorem drawSlot_spec {base : Proposer} {history : List Proposal} {view : SessionView F}
    {sweep slot fuel n c : Nat} {s : SweepState R} (hbased : Based base history view)
    (h : Sweeping base history view sweep slot s)
    (stamp : Proposal → Except ProposalRefused String) (hfuel : n + fuel = 2 * proposerRetries)
    (hn : n ≤ proposerRetries + c) (hc : c < proposerRetries) :
    ∃ ended, SweepState.drawSlot stamp view sweep slot fuel s n c = some ended ∧
      Ended base history view stamp sweep slot ended := by
  induction fuel generalizing s n c with
  | zero => omega
  | succ fuel ih =>
    have hturn := attempt_spec hbased h stamp hn hc
    obtain ⟨turn, hattempt⟩ : ∃ turn, s.attempt stamp view sweep slot n c = turn := ⟨_, rfl⟩
    rw [hattempt] at hturn
    unfold SweepState.drawSlot
    simp only [hattempt]
    cases turn with
    | again s' n' c' =>
      obtain ⟨rfl, hn', hc', h'⟩ := hturn
      exact ih h' (by omega) hn' hc'
    | drawn s' => exact ⟨_, rfl, hturn⟩
    | enumerated s' => exact ⟨_, rfl, hturn⟩
    | bail s' k attempts => exact ⟨_, rfl, hturn⟩

def Finished (base : Proposer) (history : List Proposal) (view : SessionView F)
    (stamp : Proposal → Except ProposalRefused String) (sweep : Nat) :
    SweepState.Drawn R F → Prop
  | .sweep s => Sweeping base history view sweep sweepSearches s ∨
      ∃ slot < sweepSearches, Ended base history view stamp sweep slot (.enumerated s)
  | .failed s slot attempts => slot < sweepSearches ∧
      Ended base history view stamp sweep slot (.bail s slot attempts)
  | .unpriced _ => False

theorem drawSlots_spec {base : Proposer} {history : List Proposal} {view : SessionView F}
    {sweep slot left : Nat} {s : SweepState R} (hbased : Based base history view)
    (h : Sweeping base history view sweep slot s)
    (stamp : Proposal → Except ProposalRefused String) (hleft : slot + left = sweepSearches) :
    ∃ drawn, SweepState.drawSlots stamp view sweep (List.range' slot left) s = some drawn ∧
      Finished base history view stamp sweep drawn := by
  induction left generalizing slot s with
  | zero =>
    obtain rfl : slot = sweepSearches := hleft
    exact ⟨.sweep s, rfl, .inl h⟩
  | succ left ih =>
    obtain ⟨ended, hslot, hended⟩ := drawSlot_spec hbased h stamp
      (Nat.zero_add (2 * proposerRetries)) (Nat.zero_le _) (by decide : 0 < proposerRetries)
    rw [List.range'_succ]
    unfold SweepState.drawSlots
    simp only [hslot]
    cases ended with
    | again s' n' c' => exact hended.elim
    | drawn s' => exact ih hended (by omega)
    | enumerated s' => exact ⟨_, rfl, .inr ⟨slot, by omega, hended⟩⟩
    | bail s' k attempts =>
      obtain rfl : k = slot := hended.1
      exact ⟨_, rfl, by omega, hended⟩

end Turns

/-- What the census and the lists of a sweep say of it. -/
structure Accounted (me : Proposer) (view : SessionView F) (out : DrawnSweep) : Prop where
  slots : out.proposals.map (·.slot) = List.range out.proposals.length
  runnable : ∀ p ∈ out.proposals, Runnable me view p
  duplicates : out.duplicates = []
  refusals : out.refused.length = out.census.refusals
  drawn : out.census.proposalsDrawn = out.proposals.length

theorem Sweeping.accounted {base : Proposer} {history : List Proposal} {view : SessionView F}
    {sweep slot : Nat} {s : SweepState R} (h : Sweeping base history view sweep slot s) :
    s.out.proposals.length = slot ∧ Accounted base view s.out := by
  have hlength : s.out.proposals.length = slot := by
    have hslots := congrArg List.length h.slots
    rwa [List.length_map, List.length_range] at hslots
  exact ⟨hlength, hlength.symm ▸ h.slots, h.runnable, h.duplicates, h.refusals, h.drawn⟩

def neverDrawn (drawn consecutiveCollisions slot : Nat) : RefusedDraw :=
  ⟨slot, "", .space (.spaceEnumerated slot drawn sweepSearches consecutiveCollisions)⟩

theorem abandon_foldl (drawn consecutiveCollisions : Nat) (slots : List Nat) (out : DrawnSweep) :
    ∃ census, census.refusals = out.census.refusals + slots.length ∧
      census.proposalsDrawn = out.census.proposalsDrawn ∧
      slots.foldl (fun out abandoned => out.refuse abandoned ""
        (.space (.spaceEnumerated abandoned drawn sweepSearches consecutiveCollisions))) out =
      { out with
        refused := out.refused ++ slots.map (neverDrawn drawn consecutiveCollisions)
        census := census } := by
  induction slots generalizing out with
  | nil => exact ⟨out.census, rfl, rfl, by simp⟩
  | cons slot rest ih =>
    obtain ⟨census, hrefusals, hdrawn, hfold⟩ := ih (out.refuse slot ""
      (.space (.spaceEnumerated slot drawn sweepSearches consecutiveCollisions)))
    refine ⟨census, ?_, hdrawn.trans (ProposerCensus.recordRefusal_drawn _ _), ?_⟩
    · have hone := ProposerCensus.recordRefusal_refusals out.census
        (.space (.spaceEnumerated slot drawn sweepSearches consecutiveCollisions))
      have hstep : census.refusals = out.census.refusals + 1 + rest.length := by
        rw [hrefusals, ← hone]
        rfl
      rw [hstep, List.length_cons]
      omega
    · rw [List.foldl_cons, hfold, List.map_cons, List.append_cons]
      rfl

/-- An enumerated space: the proposals stay, and each slot left has its record. -/
theorem abandonRemainingSlots_spec {me : Proposer} {view : SessionView F} {out : DrawnSweep}
    (h : Accounted me view out) {slot : Nat} (hslot : out.proposals.length = slot)
    (consecutiveCollisions : Nat) :
    (out.abandonRemainingSlots slot consecutiveCollisions).proposals = out.proposals ∧
      (out.abandonRemainingSlots slot consecutiveCollisions).exhausted = true ∧
      (out.abandonRemainingSlots slot consecutiveCollisions).slotsAbandoned =
        sweepSearches - slot ∧
      (out.abandonRemainingSlots slot consecutiveCollisions).refused = out.refused ++
        (List.range' slot (sweepSearches - slot)).map (neverDrawn slot consecutiveCollisions) ∧
      Accounted me view (out.abandonRemainingSlots slot consecutiveCollisions) := by
  obtain ⟨census, hrefusals, hdrawn, hfold⟩ := abandon_foldl out.proposals.length
    consecutiveCollisions (List.range' slot (sweepSearches - slot))
    { out with exhausted := true, slotsAbandoned := sweepSearches - slot }
  have hout : out.abandonRemainingSlots slot consecutiveCollisions =
      { out with
        exhausted := true
        slotsAbandoned := sweepSearches - slot
        refused := out.refused ++ (List.range' slot (sweepSearches - slot)).map
          (neverDrawn slot consecutiveCollisions)
        census := census } := by
    rw [← hslot] at hfold ⊢
    exact hfold
  rw [hout]
  refine ⟨rfl, rfl, rfl, rfl, h.slots, h.runnable, h.duplicates, ?_, hdrawn.trans h.drawn⟩
  rw [List.length_append, List.length_map, h.refusals]
  exact hrefusals.symm

/-- The proposals of a sweep are those of its last state in the middle of the draw. -/
theorem Finished.sweeping {me : Proposer} {history : List Proposal} {view : SessionView F}
    {stamp : Proposal → Except ProposalRefused String} {sweep : Nat} {s : SweepState R}
    (h : Finished me history view stamp sweep (.sweep s)) :
    ∃ (slot : Nat) (s₀ : SweepState R), Sweeping me history view sweep slot s₀ ∧
      s₀.me = s.me ∧ s₀.out.proposals = s.out.proposals := by
  rcases h with hall | ⟨slot, -, s₀, hsweeping, rfl⟩
  · exact ⟨sweepSearches, s, hall, rfl, rfl⟩
  · obtain ⟨hlength, haccounted⟩ := hsweeping.accounted
    obtain ⟨hproposals, -⟩ := abandonRemainingSlots_spec haccounted hlength proposerRetries
    exact ⟨slot, s₀, hsweeping, rfl, hproposals.symm⟩

end Autoresearch

end Neoethos
