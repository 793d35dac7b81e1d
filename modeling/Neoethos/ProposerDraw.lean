import Mathlib.Data.List.Perm.Subperm
import Mathlib.Tactic.IntervalCases
import Neoethos.Proposer

/-! What `draw_one` draws: a proposal of the space, whatever the random stream and the evidence
are. -/

namespace Neoethos

namespace Autoresearch

open FloatOps (lit lt)

section Sampling

variable {R F : Type*} [FloatOps F] [Sampler R F]

theorem argmaxStep_mem (params : Nat → F × F) {levels rest : List Nat} (hsubset : rest ⊆ levels)
    {best : Nat × F × R} (hbest : best.1 ∈ levels) :
    (rest.foldl (argmaxStep params) best).1 ∈ levels := by
  induction rest generalizing best with
  | nil => exact hbest
  | cons l rest ih =>
    refine ih (fun x hx => hsubset (List.mem_cons_of_mem l hx)) ?_
    unfold argmaxStep
    dsimp only
    split
    next => exact hsubset List.mem_cons_self
    next => exact hbest

theorem argmaxSampled_mem (rng : R) {levels : List Nat} (params : Nat → F × F)
    (h : levels ≠ []) : (argmaxSampled rng levels params).1 ∈ levels := by
  refine argmaxStep_mem params (List.Subset.refl levels) ?_
  cases levels with
  | nil => exact absurd rfl h
  | cons l rest => exact List.mem_cons_self

theorem drawLevel_mem (uniform : Bool) (params : Nat → F × F) (available : List Nat)
    (h : available ≠ []) (rng : R) : (drawLevel uniform params available rng).1 ∈ available := by
  unfold drawLevel
  split
  next =>
    have hlt := Sampler.range_lt (F := F) rng available.length (List.length_pos_of_ne_nil h)
    simp only
    rw [List.getD_eq_getElem?_getD, List.getElem?_eq_getElem hlt, Option.getD_some]
    exact List.getElem_mem hlt
  next => exact argmaxSampled_mem rng params h

theorem drawEach_apply {α : Type*} [DecidableEq α] (draw : α → R → Nat × R) {P : α → Nat → Prop}
    (h : ∀ a rng, P a (draw a rng).1) (as : List α) (rng : R) :
    ∀ a ∈ as, P a ((drawEach draw as rng).1 a) := by
  induction as generalizing rng with
  | nil => exact fun a ha => absurd ha List.not_mem_nil
  | cons b rest ih =>
    intro a ha
    change P a (Function.update (drawEach draw rest (draw b rng).2).1 b (draw b rng).1 a)
    by_cases hab : a = b
    · subst hab
      rw [Function.update_self]
      exact h a rng
    · rw [Function.update_of_ne hab]
      exact ih (draw b rng).2 a ((List.mem_cons.mp ha).resolve_left hab)

end Sampling

namespace FactorId

theorem mem_availableLevels {f : FactorId} {caps : Capabilities} {level : Nat} :
    level ∈ f.availableLevels caps ↔ level < f.arity ∧ f.levelAvailable caps level = true := by
  simp [availableLevels]

theorem availableLevels_ne_nil (f : FactorId) (caps : Capabilities) :
    f.availableLevels caps ≠ [] :=
  List.ne_nil_of_mem (mem_availableLevels.mpr (f.zero_available caps))

end FactorId

namespace SearchConfigDelta

variable {caps : Capabilities}

theorem nodup_all : FactorId.all.Nodup := by decide

theorem mem_differingFactors {d other : SearchConfigDelta} {f : FactorId} :
    f ∈ d.differingFactors other ↔ d.levels f ≠ other.levels f := by
  simp [differingFactors, FactorId.mem_all]

end SearchConfigDelta

section TrustRegion

variable {F : Type*} [FloatOps F] {caps : Capabilities} {parent : SearchConfigDelta}

theorem revertFactors_spec (hparent : parent.Expressible caps) (fs : List FactorId)
    {axisA : SearchConfigDelta} (h : axisA.Expressible caps) (census : ProposerCensus) :
    ∃ reverted census', revertFactors caps parent fs axisA census = (.ok reverted, census') ∧
      reverted.Expressible caps ∧
      ∀ f, reverted.levels f = if f ∈ fs then parent.levels f else axisA.levels f := by
  induction fs generalizing axisA census with
  | nil => exact ⟨axisA, census, rfl, h, fun f => by simp⟩
  | cons g rest ih =>
    obtain ⟨hlevel, hexpressible⟩ := h.withLevel (hparent g).1 (hparent g).2
    obtain ⟨reverted, census', heq, hreverted, hlevels⟩ := ih hexpressible
      { census with trustRegionReverted := census.trustRegionReverted + 1 }
    refine ⟨reverted, census', ?_, hreverted, fun f => ?_⟩
    · rw [revertFactors, show parent.level g = parent.levels g from rfl, hlevel]
      exact heq
    · rw [hlevels f]
      by_cases hrest : f ∈ rest
      · simp [hrest]
      · by_cases hg : f = g
        · subst hg
          simp [hrest]
        · simp [hrest, hg]

/-- The trust region leaves the space in place, and few factors away from the parent. -/
theorem applyTrustRegion_spec (hparent : parent.Expressible caps) {axisA : SearchConfigDelta}
    (h : axisA.Expressible caps) (evidence : Arm → F × F) (census : ProposerCensus) :
    ∃ kept census', applyTrustRegion axisA parent caps evidence census = (.ok kept, census') ∧
      kept.Expressible caps ∧ (kept.differingFactors parent).length ≤ maxDeltaFactors := by
  unfold applyTrustRegion
  by_cases hfew : (axisA.differingFactors parent).length ≤ maxDeltaFactors
  · exact ⟨axisA, census, if_pos hfew, h, hfew⟩
  · simp only [if_neg hfew]
    obtain ⟨sorted, hsorted⟩ : ∃ sorted, (axisA.differingFactors parent).mergeSort (fun a b =>
        !lt (posteriorGap evidence axisA parent b) (posteriorGap evidence axisA parent a)) =
      sorted := ⟨_, rfl⟩
    rw [hsorted]
    have hperm : sorted.Perm (axisA.differingFactors parent) := hsorted ▸ List.mergeSort_perm _ _
    obtain ⟨kept, census', heq, hkept, hlevels⟩ := revertFactors_spec hparent
      (sorted.take ((axisA.differingFactors parent).length - maxDeltaFactors)) h census
    refine ⟨kept, census', heq, hkept, ?_⟩
    have hnodup : (kept.differingFactors parent).Nodup :=
      SearchConfigDelta.nodup_all.filter _
    have hsubset : kept.differingFactors parent ⊆
        sorted.drop ((axisA.differingFactors parent).length - maxDeltaFactors) := by
      intro f hf
      rw [SearchConfigDelta.mem_differingFactors, hlevels f] at hf
      by_cases htaken :
          f ∈ sorted.take ((axisA.differingFactors parent).length - maxDeltaFactors)
      · rw [if_pos htaken] at hf
        exact absurd rfl hf
      · rw [if_neg htaken, ← SearchConfigDelta.mem_differingFactors, ← hperm.mem_iff,
          ← List.take_append_drop ((axisA.differingFactors parent).length - maxDeltaFactors) sorted,
          List.mem_append] at hf
        exact hf.resolve_left htaken
    have hlength := (hnodup.subperm hsubset).length_le
    rw [List.length_drop, hperm.length_eq] at hlength
    omega

end TrustRegion

/-- A base timeframe of the table without higher lanes fits every horizon. -/
theorem fits_noLanes {axisA : SearchConfigDelta} (hbase : axisA.levels .baseTimeframe < 4)
    (hlanes : axisA.levels .higherLanes = 0) (horizon : Nat) :
    Proposer.fits axisA horizon = true := by
  have hminutes : ∀ level < 4, (timeframeMinutes (baseTimeframeLevels.getD level "")).isSome := by
    decide +kernel
  obtain ⟨baseMin, hbaseMin⟩ := Option.isSome_iff_exists.mp (hminutes _ hbase)
  have hnone : axisA.higherLanes = [] := by
    unfold SearchConfigDelta.higherLanes SearchConfigDelta.level
    rw [hlanes]
    rfl
  unfold Proposer.fits laneHorizonConflict SearchConfigDelta.baseTimeframe SearchConfigDelta.level
  rw [hbaseMin, hnone]
  rfl

namespace Proposer

/-- A proposer of a session that started: its objectives are those of the build, and some of them
carry the axis. -/
def Live (me : Proposer) : Prop :=
  axisBLiveCheck me.caps me.scenario = some me.drawableVariants

variable {me : Proposer}

theorem Live.mem_iff (h : me.Live) (v : ObjectiveVariant) :
    v ∈ me.drawableVariants → v.drawable me.caps me.scenario = true := by
  intro hv
  obtain ⟨-, heq⟩ := Option.ite_none_right_eq_some.mp h
  rw [← Option.some.inj heq] at hv
  exact (List.mem_filter.mp hv).2

theorem Live.pool_ne_nil (h : me.Live) : me.pool ≠ [] := by
  obtain ⟨hcarries, heq⟩ := Option.ite_none_right_eq_some.mp h
  rw [Option.some.inj heq] at hcarries
  obtain ⟨v, hv, hlive⟩ := List.any_eq_true.mp hcarries
  have hcap : v.maxDrawsPerSession = none :=
    Option.isNone_iff_eq_none.mp (Bool.and_eq_true_iff.mp hlive).2
  refine List.ne_nil_of_mem (List.mem_filter.mpr ⟨hv, ?_⟩)
  rw [hcap]

/-- A variant that may be drawn: it is one of the build, and its draws are not spent. -/
def MayDraw (me : Proposer) (v : ObjectiveVariant) : Prop :=
  v ∈ me.drawableVariants ∧ ∀ cap, v.maxDrawsPerSession = some cap → me.b0Drawn < cap

theorem mem_pool {v : ObjectiveVariant} (h : v ∈ me.pool) : me.MayDraw v := by
  obtain ⟨hv, hcap⟩ := List.mem_filter.mp h
  refine ⟨hv, fun cap heq => ?_⟩
  rw [heq] at hcap
  exact of_decide_eq_true hcap

theorem horizonOf_eq (h : me.Live) {v : ObjectiveVariant} (hv : v ∈ me.drawableVariants)
    {param : Nat} (hparam : param < v.paramCount) (refusals : RefusalLevels) :
    me.horizonOf v param = .ok ((⟨v, param, refusals⟩ : ObjectiveChoice).labelHorizonBars 0) := by
  unfold horizonOf
  rw [ObjectiveChoice.new_of_drawable (h.mem_iff v hv) hparam]
  rfl

section Lanes

variable {axisA : SearchConfigDelta} {v : ObjectiveVariant}

theorem repairHorizon_spec (axisA : SearchConfigDelta) (h : me.Live)
    (hv : v ∈ me.drawableVariants) (params : List Nat)
    (hparams : ∀ p ∈ params, p < v.paramCount) :
    me.repairHorizon axisA v params = .ok none ∨ ∃ p < v.paramCount,
      me.repairHorizon axisA v params = .ok (some p) ∧
        fits axisA ((⟨v, p, .permissive⟩ : ObjectiveChoice).labelHorizonBars 0) = true := by
  induction params with
  | nil => exact .inl rfl
  | cons p rest ih =>
    have hp := hparams p List.mem_cons_self
    have hhorizon := horizonOf_eq h hv hp .permissive
    by_cases hfits :
        fits axisA ((⟨v, p, .permissive⟩ : ObjectiveChoice).labelHorizonBars 0) = true
    · refine .inr ⟨p, hp, ?_, hfits⟩
      rw [repairHorizon, hhorizon]
      exact if_pos hfits
    · have hrest : me.repairHorizon axisA v (p :: rest) = me.repairHorizon axisA v rest := by
        rw [repairHorizon, hhorizon]
        exact if_neg hfits
      rw [hrest]
      exact ih fun q hq => hparams q (List.mem_cons_of_mem p hq)

theorem repairLanes_spec (h : axisA.Expressible me.caps) (horizon : Nat) (levels : List Nat)
    (hlevels : ∀ l ∈ levels, l < FactorId.higherLanes.arity) (hzero : 0 ∈ levels) :
    ∃ repaired, me.repairLanes axisA horizon levels = .ok repaired ∧
      repaired.Expressible me.caps ∧ fits repaired horizon = true ∧
      ∀ f, f ≠ .higherLanes → repaired.levels f = axisA.levels f := by
  induction levels with
  | nil => exact absurd hzero List.not_mem_nil
  | cons l rest ih =>
    obtain ⟨hcandidate, hexpressible⟩ := h.withLevel (f := .higherLanes)
      (hlevels l List.mem_cons_self) rfl
    unfold repairLanes
    simp only [hcandidate]
    by_cases hfits : fits ⟨Function.update axisA.levels .higherLanes l⟩ horizon = true
    · rw [if_pos hfits]
      exact ⟨_, rfl, hexpressible, hfits, fun f hf => Function.update_of_ne hf _ _⟩
    · rw [if_neg hfits]
      refine ih (fun q hq => hlevels q (List.mem_cons_of_mem l hq)) ?_
      rcases List.mem_cons.mp hzero with rfl | hlater
      · have hbase : Function.update axisA.levels .higherLanes 0 .baseTimeframe < 4 := by
          rw [Function.update_of_ne (by decide)]
          exact (h .baseTimeframe).1
        have hnone : Function.update axisA.levels .higherLanes 0 .higherLanes = 0 :=
          Function.update_self _ _ _
        exact absurd (@fits_noLanes ⟨Function.update axisA.levels .higherLanes 0⟩ hbase hnone
          horizon) hfits
      · exact hlater

/-- The lane and horizon rule always ends with lanes that fit the horizon. -/
theorem pairLanes_spec (h : me.Live) (hv : v ∈ me.drawableVariants)
    (haxis : axisA.Expressible me.caps) {param : Nat} (hparam : param < v.paramCount) :
    ∃ paired param' resampled, me.pairLanes axisA v param = (.ok (paired, param'), resampled) ∧
      paired.Expressible me.caps ∧ param' < v.paramCount ∧
      fits paired ((⟨v, param', .permissive⟩ : ObjectiveChoice).labelHorizonBars 0) = true ∧
      ∀ f, f ≠ .higherLanes → paired.levels f = axisA.levels f := by
  have hhorizon := horizonOf_eq h hv hparam .permissive
  unfold pairLanes
  simp only [hhorizon]
  by_cases hfits :
      fits axisA ((⟨v, param, .permissive⟩ : ObjectiveChoice).labelHorizonBars 0) = true
  · rw [if_pos hfits]
    exact ⟨axisA, param, false, rfl, haxis, hparam, hfits, fun _ _ => rfl⟩
  · rw [if_neg hfits]
    obtain ⟨repaired, hrepaired, hexpressible, hfitsRepaired, hsame⟩ := repairLanes_spec haxis
      ((⟨v, param, .permissive⟩ : ObjectiveChoice).labelHorizonBars 0)
      (List.range FactorId.higherLanes.arity).reverse
      (fun l hl => List.mem_range.mp (List.mem_reverse.mp hl)) (by decide)
    have hlanes : (do
        let axisA ← me.repairLanes axisA
          ((⟨v, param, .permissive⟩ : ObjectiveChoice).labelHorizonBars 0)
          (List.range FactorId.higherLanes.arity).reverse
        (.ok (axisA, param) : Except ProposalRefused (SearchConfigDelta × Nat))) =
        .ok (repaired, param) := by
      rw [hrepaired]
      rfl
    unfold repair
    by_cases hb4 : v = .b4LabelHorizon
    · rw [if_pos hb4]
      rcases repairHorizon_spec axisA h hv (List.range v.paramCount).reverse
          (fun p hp => List.mem_range.mp (List.mem_reverse.mp hp)) with
        hnone | ⟨p, hp, hsome, hfitsParam⟩
      · rw [hnone]
        exact ⟨repaired, param, true, congrArg (·, true) hlanes, hexpressible, hparam,
          hfitsRepaired, hsame⟩
      · rw [hsome]
        exact ⟨axisA, p, true, rfl, haxis, hp, hfitsParam, fun _ _ => rfl⟩
    · rw [if_neg hb4]
      exact ⟨repaired, param, true, congrArg (·, true) hlanes, hexpressible, hparam,
        hfitsRepaired, hsame⟩

end Lanes

section Draw

variable {R F : Type*} [FloatOps F] [Sampler R F] {view : SessionView F} {slot : Nat}
  {forceUniform : Bool} {forcedVariant : Option ObjectiveVariant}

variable (view slot forceUniform forcedVariant)

theorem drawVariant_spec (h : me.Live) (hforced : ∀ v, forcedVariant = some v → me.MayDraw v)
    (rng : R) :
    ∃ v rng', me.drawVariant view forceUniform forcedVariant rng = (.ok v, rng') ∧
      me.MayDraw v := by
  unfold drawVariant
  cases hv : forcedVariant with
  | some v => exact ⟨v, rng, rfl, hforced v hv⟩
  | none =>
    simp only
    cases hpool : me.pool with
    | nil => exact absurd hpool h.pool_ne_nil
    | cons v rest =>
      have hindex := drawLevel_mem forceUniform
        (fun i => view.evidence (.objective ((v :: rest).getD i v)))
        (List.range (v :: rest).length) (by simp) rng
      obtain ⟨⟨i, rng'⟩, hdraw⟩ : ∃ out, drawLevel forceUniform
        (fun i => view.evidence (.objective ((v :: rest).getD i v)))
        (List.range (v :: rest).length) rng = out := ⟨_, rfl⟩
      rw [hdraw] at hindex
      simp only [hdraw]
      have hlt : i < (v :: rest).length := List.mem_range.mp hindex
      refine ⟨_, rng', rfl, mem_pool ?_⟩
      rw [hpool, List.getD_eq_getElem?_getD, List.getElem?_eq_getElem hlt, Option.getD_some]
      exact List.getElem_mem hlt

/-- The factors that the trust region counts: all but the one that the lane rule may move. -/
def movedFactors (axisA parent : SearchConfigDelta) : List FactorId :=
  (axisA.differingFactors parent).filter (· ≠ .higherLanes)

theorem movedFactors_congr {axisA axisA' : SearchConfigDelta} (parent : SearchConfigDelta)
    (h : ∀ f ≠ .higherLanes, axisA'.levels f = axisA.levels f) :
    movedFactors axisA' parent = movedFactors axisA parent := by
  unfold movedFactors SearchConfigDelta.differingFactors
  rw [List.filter_filter, List.filter_filter]
  refine List.filter_congr fun f _ => ?_
  by_cases hf : f = .higherLanes
  · simp [hf]
  · rw [h f hf]

/-- A proposal that the session can run, in its slot. -/
structure Drawn (me : Proposer) (view : SessionView F) (slot : Nat) (forceUniform : Bool)
    (forcedVariant : Option ObjectiveVariant) (p : Proposal) : Prop where
  expressible : p.axisA.Expressible me.caps
  mayDraw : me.MayDraw p.axisB.variant
  param : p.axisB.param < p.axisB.variant.paramCount
  refusals : ∀ d, p.axisB.refusals.levels d < d.arity
  fits : fits p.axisA (p.axisB.labelHorizonBars 0) = true
  trust : forceUniform = false → ∀ parent, view.parent = some parent →
    (movedFactors p.axisA parent.axisA).length ≤ maxDeltaFactors
  origin : p.origin = if forceUniform then .explorationFloor
    else if forcedVariant.isSome then .coverageDebt else .posterior
  slot : p.slot = slot

theorem drawRefusals_spec (h : me.Live) (axisA : SearchConfigDelta) {v : ObjectiveVariant}
    (hv : v ∈ me.drawableVariants) {param : Nat} (hparam : param < v.paramCount) (rng : R) :
    ∃ refusals rng', (∀ d, refusals.levels d < d.arity) ∧
      me.drawRefusals view slot forceUniform forcedVariant axisA v param rng =
        (.ok ⟨if forceUniform then none else view.parent.map (·.sweep), axisA,
          ⟨v, param, refusals⟩, 0,
          if forceUniform then ProposalOrigin.explorationFloor
          else if forcedVariant.isSome then .coverageDebt else .posterior, slot, ""⟩, rng') := by
  have hlevels := drawEach_apply (R := R) (P := fun (d : RefusalDim) level => level < d.arity)
    (fun d => drawLevel forceUniform (fun l => view.evidence (.refusal d l))
      (List.range d.arity))
    (fun d rng => List.mem_range.mp (drawLevel_mem _ _ _ (by simp [RefusalDim.arity]) rng))
    RefusalDim.all rng
  obtain ⟨⟨levels, rng'⟩, hdraw⟩ : ∃ out, drawEach (fun d => drawLevel forceUniform
    (fun l => view.evidence (.refusal d l)) (List.range d.arity)) RefusalDim.all rng = out :=
      ⟨_, rfl⟩
  rw [hdraw] at hlevels
  have hrefusals := RefusalLevels.new_of_lt fun d => hlevels d d.mem_all
  refine ⟨⟨levels⟩, rng', fun d => hlevels d d.mem_all, ?_⟩
  unfold drawRefusals
  simp only [hdraw, hrefusals]
  unfold buildProposal
  rw [ObjectiveChoice.new_of_drawable (h.mem_iff v hv) hparam]

/-- By the evidence at most three factors are away from the parent; a uniform draw is left alone. -/
theorem trustRegion_spec
    (hparent : ∀ parent, view.parent = some parent → parent.axisA.Expressible me.caps)
    {axisA : SearchConfigDelta} (haxisA : axisA.Expressible me.caps) (census : ProposerCensus) :
    ∃ kept census', me.trustRegion view forceUniform axisA census = (.ok kept, census') ∧
      kept.Expressible me.caps ∧ (forceUniform = false → ∀ parent, view.parent = some parent →
        (kept.differingFactors parent.axisA).length ≤ maxDeltaFactors) := by
  unfold trustRegion
  split
  next parent hsome =>
    obtain ⟨kept, census', heq, hkept, hfew⟩ :=
      applyTrustRegion_spec (hparent parent hsome) haxisA view.evidence census
    refine ⟨kept, census', heq, hkept, fun _ other hother => ?_⟩
    obtain rfl := Option.some.inj (hsome.symm.trans hother)
    exact hfew
  next hnot =>
    exact ⟨axisA, census, rfl, haxisA, fun hposterior parent hsome =>
      (hnot parent hposterior hsome).elim⟩

/-- Whatever the stream and the evidence are, a draw of a session that started is never refused:
it is a point of the space, with an objective whose draws are not spent and lanes that fit its
horizon, and by the evidence at most three factors are moved away from the parent. -/
theorem drawOne_spec (h : me.Live)
    (hparent : ∀ parent, view.parent = some parent → parent.axisA.Expressible me.caps)
    (hforced : ∀ v, forcedVariant = some v → me.MayDraw v) (rng : R) (census : ProposerCensus) :
    ∃ p rng' census', me.drawOne view slot forceUniform forcedVariant rng census =
      (.ok p, rng', census') ∧ me.Drawn view slot forceUniform forcedVariant p := by
  have hlevels := drawEach_apply (R := R)
    (P := fun (f : FactorId) level => level < f.arity ∧ f.levelAvailable me.caps level = true)
    (fun f => drawLevel forceUniform (fun l => view.evidence (.factor f l))
      (f.availableLevels me.caps))
    (fun f rng => FactorId.mem_availableLevels.mp
      (drawLevel_mem _ _ _ (f.availableLevels_ne_nil me.caps) rng)) FactorId.all rng
  obtain ⟨⟨levels, rng₁⟩, hdraw⟩ : ∃ out, drawEach (fun f => drawLevel forceUniform
    (fun l => view.evidence (.factor f l)) (f.availableLevels me.caps)) FactorId.all rng = out :=
      ⟨_, rfl⟩
  rw [hdraw] at hlevels
  have hdelta : SearchConfigDelta.Expressible me.caps ⟨levels⟩ := fun f => hlevels f f.mem_all
  have hnew := SearchConfigDelta.new_of_expressible hdelta
  obtain ⟨kept, census₁, htrust, hkept, hfew⟩ :=
    trustRegion_spec view forceUniform hparent hdelta census
  obtain ⟨v, rng₂, hvariant, hmay⟩ := drawVariant_spec view forceUniform forcedVariant h
    hforced rng₁
  have hcount : 0 < v.paramCount := by
    cases v <;> decide
  have hparam := Sampler.range_lt (F := F) rng₂ v.paramCount hcount
  obtain ⟨⟨param, rng₃⟩, hrange⟩ : ∃ out, Sampler.range (F := F) rng₂ v.paramCount = out :=
    ⟨_, rfl⟩
  rw [hrange] at hparam
  obtain ⟨paired, param', resampled, hpaired, hexpressible, hparam', hfits, hlanes⟩ :=
    pairLanes_spec h hmay.1 hkept hparam
  obtain ⟨refusals, rng₄, hrefusals, hdrawn⟩ := drawRefusals_spec view slot forceUniform
    forcedVariant h paired hmay.1 hparam' rng₃
  refine ⟨⟨if forceUniform then none else view.parent.map (·.sweep), paired,
    ⟨v, param', refusals⟩, 0, if forceUniform then .explorationFloor
      else if forcedVariant.isSome then .coverageDebt else .posterior, slot, ""⟩, rng₄,
    { census₁ with constraintResampled := census₁.constraintResampled + resampled.toNat }, ?_,
    hexpressible, hmay, hparam', hrefusals, hfits, fun hposterior parent hsome => ?_, rfl, rfl⟩
  · unfold drawOne
    simp only [hdraw, hnew, htrust, hvariant, hrange, hpaired, hdrawn]
  · have hmoved : movedFactors paired parent.axisA = movedFactors kept parent.axisA :=
      movedFactors_congr parent.axisA hlanes
    simp only [hmoved]
    exact (List.length_filter_le _ _).trans (hfew hposterior parent hsome)

end Draw

end Proposer

end Autoresearch

end Neoethos
