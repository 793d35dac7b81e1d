import Neoethos.ArchiveIndexes
import Neoethos.Candidates
import Neoethos.Novelty

/-! The end of a search, `search_engine.rs`: what it keeps of its archive and of its last generation,
measured once more under the last gate. -/

namespace Neoethos

namespace Genetic

open FloatOps (lit lt le isFinite)
open RandomDraws

structure Scored (F : Type) where
  score : F
  idx : Nat
  gene : Gene F
  metrics : Vector F 11

structure Evaluated (F : Type) where
  gate : F
  genes : List (Gene F)

/-- `SearchResult`: the genes in order, each with its metrics. -/
structure SearchResult (F : Type) where
  candidates : List (Gene F × Vector F 11)
  effectiveSmcGateThreshold : F

inductive Ending (F : Type)
  | refused (reason : String)
  | cancelled
  | failed (reason : String)
  | finished (result : SearchResult F)

/-- `archive_scoring` of the overrides. -/
structure ArchiveScoringOverrides (F : Type) where
  mode : String
  minNet : F
  minPf : F
  minSharpe : F

section Code

variable {F : Type} [FloatOps F]

def metricAt (m : Vector F 11) (k : Nat) : F := m[k]?.getD (lit 0)

/-- `apply_metrics`. -/
def applyMetrics (objective : Vector F 11 → F) (g : Gene F) (m : Vector F 11) : Gene F :=
  { g with
    fitness := objective m
    sharpeRatio := metricAt m 1
    maxDrawdown := metricAt m 3
    winRate := metricAt m 4
    profitFactor := metricAt m 5
    expectancy := metricAt m 6
    tradesCount := FloatOps.toUsize (FloatOps.max (metricAt m 8) (lit 0))
    slicePassRate := lit 1
    consistency := metricAt m 9 }

omit [FloatOps F] in
def smcMask (g : Gene F) : Nat :=
  [g.useOb, g.useFvg, g.useLiqSweep, g.mtfConfirmation, g.usePremiumDiscount, g.useInducement,
    g.useBos, g.useChoch, g.useEqh, g.useEql, g.useDisplacement].zipIdx.foldl
    (fun mask (flag, idx) => if flag then mask ||| 2 ^ idx else mask) 0

/-- What a gene does, to the bit; its name and its results are left out. -/
structure EvaluatedGeneBehaviorKey (F : Type) where
  indices : List Nat
  weights : List F
  numericTraits : List F
  smcFlags : Nat
  deriving DecidableEq

omit [FloatOps F] in
def EvaluatedGeneBehaviorKey.new (g : Gene F) : EvaluatedGeneBehaviorKey F where
  indices := g.indices
  weights := g.weights
  numericTraits := [g.longThreshold, g.shortThreshold, g.slPips, g.tpPips, g.stopVolMult]
  smcFlags := smcMask g

variable [FloatOps.Valued F] [DecidableEq F]

/-- `BoundedProfitableArchive` of the genes of a search. -/
abbrev GeneArchive (F : Type) [FloatOps F] [FloatOps.Valued F] :=
  BoundedProfitableArchive (Gene F) F (EvaluatedGeneBehaviorKey F)

def ArchiveScoringOverrides.admits (scoring : ArchiveScoringOverrides F) (m : Vector F 11) :
    Bool :=
  let net := metricAt m 0
  let sharpe := metricAt m 1
  let pf := metricAt m 5
  let trades := metricAt m 8
  isFinite net && isFinite sharpe && isFinite pf && isFinite trades && lt (lit 0) trades &&
    match scoring.mode with
    | "active" => true
    | "pf" | "profit_factor" => lt scoring.minPf pf
    | "sharpe" => lt scoring.minSharpe sharpe
    | _ => lt scoring.minNet net

/-- The offers of a generation. The one error of an offer is the end of its sequence; everything
else that can go wrong in it is a panic. -/
def archiveGeneration {R : Type} (scoring : ArchiveScoringOverrides F) :
    List (Scored F) → GeneArchive F → Draw R (Except String (GeneArchive F))
  | [], archive => return .ok archive
  | s :: rest, archive =>
    if scoring.admits s.metrics then
      match archive.offer EvaluatedGeneBehaviorKey.new s.gene s.metrics with
      | .ok (_, archive) => archiveGeneration scoring rest archive
      | .error .sequenceOverflow => return .error "GA archive admission sequence overflow"
      | .error _ => crash
    else archiveGeneration scoring rest archive

/-- The candidates that go on, and where each behavior stands among them; the flag says that it is
one of the last generation. -/
structure Handoff (F : Type) where
  candidates : List (Gene F × Vector F 11)
  positions : EvaluatedGeneBehaviorKey F → Option (Nat × Bool)

namespace Handoff

omit [FloatOps F] [FloatOps.Valued F] in
def insert (u : Handoff F) (gene : Gene F) (metrics : Vector F 11) (current : Bool) : Handoff F where
  candidates := u.candidates ++ [(gene, metrics)]
  positions := Function.update u.positions (.new gene) (some (u.candidates.length, current))

omit [FloatOps F] [FloatOps.Valued F] in
def takeArchived (u : Handoff F) (o : ArchiveObservation (Gene F) F) : Handoff F :=
  match u.positions (.new o.gene) with
  | none => u.insert o.gene o.metrics false
  | some _ => u

omit [FloatOps F] [FloatOps.Valued F] in
/-- A behavior of the archive gets the measurement of the last generation. -/
def takeScored {R : Type} (u : Handoff F) (s : Scored F) : Draw R (Handoff F) :=
  match u.positions (.new s.gene) with
  | none => return u.insert s.gene s.metrics true
  | some (_, true) => return u
  | some (index, false) =>
    if index < u.candidates.length then
      return {
        candidates := u.candidates.set index (s.gene, s.metrics)
        positions := Function.update u.positions (.new s.gene) (some (index, true)) }
    else crash

end Handoff

omit [FloatOps.Valued F] [DecidableEq F] in
def finiteNet (value : F) : F :=
  if FloatOps.eq value (lit 0) then lit 0
  else if isFinite value then value
  else FloatOps.negInfinity

omit [DecidableEq F] in
def sortByNet (candidates : List (Gene F × Vector F 11)) : List (Gene F × Vector F 11) :=
  candidates.mergeSort fun a b =>
    (FloatOps.Valued.totalCmp (finiteNet (metricAt b.2 0)) (finiteNet (metricAt a.2 0))).isLE

/-- `finish_evaluated_generation`. -/
def finishEvaluatedGeneration {R : Type} (archive : List (ArchiveObservation (Gene F) F))
    (scored : List (Scored F)) : Draw R (List (Gene F × Vector F 11)) := do
  let archive := archive.mergeSort fun a b => a.sequence ≤ b.sequence
  let handoff := archive.foldl Handoff.takeArchived ⟨[], fun _ => none⟩
  let handoff ← scored.foldlM Handoff.takeScored handoff
  return sortByNet handoff.candidates

/-- What the end of a search asks of the caller: the calls of `evaluate` and of `cancelled` are
numbered. -/
structure FinalReplay (F : Type) where
  gate : F
  objective : Vector F 11 → F
  evaluate : Nat → F → List (Gene F) → Except String (List (Vector F 11))
  cancelled : Nat → Bool

namespace FinalReplay

variable (f : FinalReplay F)

omit [FloatOps.Valued F] [DecidableEq F] in
def replay : Nat → Nat → Nat → List (List (Gene F × Vector F 11)) →
    List (Evaluated F) × Except (Ending F) (List (Gene F × Vector F 11))
  | _, _, _, [] => ([], .ok [])
  | call, check, replayed, chunk :: rest =>
    let genes := chunk.map Prod.fst
    if f.cancelled check then ([], .error .cancelled)
    else match f.evaluate call f.gate genes with
      | .error reason => ([⟨f.gate, genes⟩], .error (.failed reason))
      | .ok measured =>
        if measured.length ≠ genes.length then
          ([⟨f.gate, genes⟩], .error (.failed s!"final-gate evaluator returned {measured.length} metric rows for {genes.length} candidates"))
        else if 2 ^ 64 ≤ replayed + genes.length then
          ([⟨f.gate, genes⟩], .error (.failed "final-gate replay count overflow"))
        else
          let out := replay (call + 1) (check + 1) (replayed + genes.length) rest
          (⟨f.gate, genes⟩ :: out.1,
            out.2.map (((genes.zipWith (applyMetrics f.objective) measured).zip measured) ++ ·))

/-- `finish_with_final_gate_metrics`, after so many calls. -/
def finish {R : Type} (population evaluationSlots call check : Nat) (archive : GeneArchive F)
    (scored : List (Scored F)) : Draw R (List (Evaluated F) × Ending F) :=
  if population = 0 then
    return ([], .failed "final-gate replay requires an admitted population")
  else if f.cancelled check then return ([], .cancelled)
  else do
    let candidates ← finishEvaluatedGeneration archive.observations scored
    -- with no archive the last generation has this gate already
    if archive.observations = [] then return ([], .finished ⟨candidates, f.gate⟩)
    else
      let waves := chunks population candidates.length candidates
      let out := f.replay call (check + 1) 0 waves
      match out.2 with
      | .error ending => return (out.1, ending)
      | .ok measured =>
        if f.cancelled (check + 1 + waves.length) then return (out.1, .cancelled)
        else if 2 ^ 64 ≤ evaluationSlots + measured.length then
          return (out.1, .failed "final-gate total evaluation count overflow")
        else return (out.1, .finished ⟨sortByNet measured, f.gate⟩)

end FinalReplay

end Code

section Laws

variable {R F : Type}

variable [DecidableEq F] {P : Gene F → Prop}

namespace Handoff

/-- The places are places of candidates, and every candidate is a gene of the search. -/
structure Sound (P : Gene F → Prop) (bound : Nat) (u : Handoff F) : Prop where
  positions : ∀ key index current, u.positions key = some (index, current) →
    index < u.candidates.length
  genes : ∀ c ∈ u.candidates, P c.1
  bounded : u.candidates.length ≤ bound

variable {u : Handoff F} {bound : Nat}

omit [DecidableEq F] in
theorem Sound.mono (h : u.Sound P bound) {bound' : Nat} (hle : bound ≤ bound') :
    u.Sound P bound' :=
  ⟨h.positions, h.genes, h.bounded.trans hle⟩

theorem Sound.insert (h : u.Sound P bound) {gene : Gene F} (hgene : P gene)
    (metrics : Vector F 11) (current : Bool) :
    (u.insert gene metrics current).Sound P (bound + 1) := by
  have hlength : (u.insert gene metrics current).candidates.length = u.candidates.length + 1 :=
    List.length_append
  refine ⟨fun key index flag hposition => ?_, ?_, hlength ▸ Nat.succ_le_succ h.bounded⟩
  · change Function.update u.positions _ _ key = _ at hposition
    by_cases hkey : key = .new gene
    · rw [hkey, Function.update_self] at hposition
      cases hposition
      omega
    · rw [Function.update_of_ne hkey] at hposition
      have := h.positions key index flag hposition
      omega
  · exact List.forall_mem_append.mpr ⟨h.genes, by simpa using hgene⟩

theorem Sound.takeArchived (h : u.Sound P bound) {o : ArchiveObservation (Gene F) F}
    (ho : P o.gene) : (u.takeArchived o).Sound P (bound + 1) := by
  unfold Handoff.takeArchived
  split
  next => exact h.insert ho o.metrics false
  next => exact h.mono (Nat.le_succ _)

theorem Sound.takeAllArchived (h : u.Sound P bound) {archive : List (ArchiveObservation (Gene F) F)}
    (harchive : ∀ o ∈ archive, P o.gene) :
    (archive.foldl Handoff.takeArchived u).Sound P (bound + archive.length) := by
  induction archive generalizing u bound with
  | nil => exact h
  | cons o archive ih =>
    rw [List.forall_mem_cons] at harchive
    exact (ih (h.takeArchived harchive.1) harchive.2).mono (by rw [List.length_cons]; omega)

theorem takeScored_always (h : u.Sound P bound) {s : Scored F} (hs : P s.gene) :
    Always (u.takeScored s : Draw R (Handoff F)) (Sound P (bound + 1)) := by
  unfold takeScored
  split
  next => exact .pure (h.insert hs s.metrics true)
  next => exact .pure (h.mono (Nat.le_succ _))
  next index hposition =>
    have hindex := h.positions _ index false hposition
    rw [if_pos hindex]
    refine .pure ⟨fun key index' flag hplace => ?_, fun c hc => ?_, ?_⟩
    · change Function.update u.positions _ _ key = _ at hplace
      rw [List.length_set]
      by_cases hkey : key = .new s.gene
      · rw [hkey, Function.update_self] at hplace
        cases hplace
        exact hindex
      · rw [Function.update_of_ne hkey] at hplace
        exact h.positions key index' flag hplace
    · obtain hold | rfl := List.mem_or_eq_of_mem_set hc
      · exact h.genes c hold
      · exact hs
    · rw [List.length_set]
      exact h.bounded.trans (Nat.le_succ _)

theorem takeAllScored_always (h : u.Sound P bound) {scored : List (Scored F)}
    (hscored : ∀ s ∈ scored, P s.gene) :
    Always (scored.foldlM Handoff.takeScored u : Draw R (Handoff F))
      (Sound P (bound + scored.length)) := by
  induction scored generalizing u bound with
  | nil => exact .pure h
  | cons s scored ih =>
    rw [List.forall_mem_cons] at hscored
    rw [List.foldlM_cons]
    refine .bind (takeScored_always h hscored.1) fun next hnext => ?_
    exact .imp (ih hnext hscored.2) fun out hout => hout.mono (by rw [List.length_cons]; omega)

end Handoff

variable [FloatOps F] [FloatOps.Valued F]

/-- The end of a search hands over genes of the archive and of the last generation. -/
theorem finishEvaluatedGeneration_always {archive : List (ArchiveObservation (Gene F) F)}
    (harchive : ∀ o ∈ archive, P o.gene) {scored : List (Scored F)}
    (hscored : ∀ s ∈ scored, P s.gene) :
    Always (finishEvaluatedGeneration archive scored : Draw R (List (Gene F × Vector F 11)))
      fun candidates => (∀ c ∈ candidates, P c.1) ∧
        candidates.length ≤ archive.length + scored.length := by
  unfold finishEvaluatedGeneration
  have hnone : (⟨[], fun _ => none⟩ : Handoff F).Sound P 0 :=
    ⟨fun _ _ _ hposition => (nomatch hposition), fun _ hc => absurd hc List.not_mem_nil,
      Nat.le_refl 0⟩
  have hordered : ∀ o ∈ archive.mergeSort fun a b => a.sequence ≤ b.sequence, P o.gene :=
    fun o ho => harchive o ((List.mergeSort_perm _ _).subset ho)
  have hall := hnone.takeAllArchived hordered
  rw [Nat.zero_add, List.length_mergeSort] at hall
  refine .bind (Handoff.takeAllScored_always hall hscored) fun handoff hhandoff => .pure ?_
  have hperm : (sortByNet handoff.candidates).Perm handoff.candidates := List.mergeSort_perm _ _
  exact ⟨fun c hc => hhandoff.genes c (hperm.subset hc), hperm.length_eq ▸ hhandoff.bounded⟩

/-- An archive of a search: its indexes are exact, and it holds genes of the search only. -/
structure Archived (P : Gene F → Prop) (capacity : Nat) (a : GeneArchive F) : Prop where
  indexed : a.Indexed EvaluatedGeneBehaviorKey.new
  capacity : a.capacity = capacity
  genes : ∀ o ∈ a.observations, P o.gene

omit [DecidableEq F] in
theorem archived_new (P : Gene F → Prop) (capacity : Nat) :
    Archived P capacity (.new capacity : GeneArchive F) :=
  ⟨BoundedProfitableArchive.indexed_new _ _, rfl, fun _ ho => absurd ho List.not_mem_nil⟩

theorem Archived.offer {capacity : Nat} {a a' : GeneArchive F} (h : Archived P capacity a)
    {gene : Gene F} (hgene : P gene) {metrics : Vector F 11} {outcome : ArchiveOffer}
    (hstep : a.OfferStep EvaluatedGeneBehaviorKey.new gene metrics outcome a') :
    Archived P capacity a' := by
  have hset (slot sequence : Nat) : ∀ o ∈ a.observations.set slot ⟨gene, metrics, sequence⟩,
      P o.gene := fun o ho => by
    obtain hold | rfl := List.mem_or_eq_of_mem_set ho
    · exact h.genes o hold
    · exact hgene
  refine ⟨hstep.indexed h.indexed, ?_, ?_⟩
  · cases hstep <;> exact h.capacity
  · cases hstep with
    | unqualified => exact h.genes
    | noCapacity => exact h.genes
    | rejectedDuplicate => exact h.genes
    | rejectedCapacity => exact h.genes
    | improvedDuplicate => exact hset _ _
    | replacedWorst => exact hset _ _
    | inserted => exact List.forall_mem_append.mpr ⟨h.genes, by simpa using hgene⟩

theorem archiveGeneration_always (scoring : ArchiveScoringOverrides F) {capacity : Nat}
    {scored : List (Scored F)} (hscored : ∀ s ∈ scored, P s.gene) {a : GeneArchive F}
    (h : Archived P capacity a) :
    Always (archiveGeneration scoring scored a : Draw R (Except String (GeneArchive F)))
      fun out => ∀ a', out = .ok a' → Archived P capacity a' := by
  induction scored generalizing a with
  | nil => exact .pure fun a' ha => Except.ok.inj ha ▸ h
  | cons s scored ih =>
    rw [List.forall_mem_cons] at hscored
    unfold archiveGeneration
    refine .ite (fun _ => ?_) fun _ => ih hscored.2 h
    split
    next outcome a' hoffer =>
      exact ih hscored.2 (h.offer hscored.1 (BoundedProfitableArchive.offerStep_of_offer hoffer))
    next => exact .pure fun a' ha => (nomatch ha)
    next e hother hoffer => exact absurd (h.indexed.offer_error hoffer).1 hother

namespace FinalReplay

variable {f : FinalReplay F}

omit [DecidableEq F] [FloatOps.Valued F] in
/-- The replay measures its waves one after another, and nothing else. -/
theorem replay_waves (call check replayed : Nat) (waves : List (List (Gene F × Vector F 11))) :
    (f.replay call check replayed waves).1 <+:
      waves.map fun wave => ⟨f.gate, wave.map Prod.fst⟩ := by
  induction waves generalizing call check replayed with
  | nil => exact List.prefix_rfl
  | cons wave rest ih =>
    have hone : [(⟨f.gate, wave.map Prod.fst⟩ : Evaluated F)] <+:
        (wave :: rest).map fun wave => ⟨f.gate, wave.map Prod.fst⟩ :=
      List.prefix_append _ _
    unfold replay
    simp only
    split
    next => exact List.nil_prefix
    next =>
      split
      next => exact hone
      next =>
        split
        next => exact hone
        next =>
          split
          next => exact hone
          next => exact (List.prefix_cons_inj _).mpr (ih _ _ _)

/-- What the evaluator is given after the last generation: genes of the search under the gate of
that generation, in waves no larger than a generation, and no more of them than the archive and
the last generation have together. -/
structure Replayed (P : Gene F → Prop) (population capacity : Nat) (gate : F)
    (calls : List (Evaluated F)) : Prop where
  each : ∀ call ∈ calls, call.gate = gate ∧ call.genes.length ≤ population ∧ ∀ g ∈ call.genes, P g
  total : (calls.map fun call => call.genes.length).sum ≤ capacity + population

omit [DecidableEq F] [FloatOps F] [FloatOps.Valued F] in
theorem replayed_nil (population capacity : Nat) (gate : F) :
    Replayed P population capacity gate [] :=
  ⟨fun _ hcall => absurd hcall List.not_mem_nil, Nat.zero_le _⟩

omit [DecidableEq F] [FloatOps.Valued F] in
theorem replay_replayed {population capacity : Nat} (hsome : 0 < population)
    {candidates : List (Gene F × Vector F 11)} (hgenes : ∀ c ∈ candidates, P c.1)
    (hfew : candidates.length ≤ capacity + population) (call check replayed : Nat) :
    Replayed P population capacity f.gate
      (f.replay call check replayed (chunks population candidates.length candidates)).1 := by
  obtain ⟨waves, hwaves⟩ : ∃ waves, chunks population candidates.length candidates = waves :=
    ⟨_, rfl⟩
  have hall : waves.flatten = candidates := hwaves ▸ chunks_flatten hsome (Nat.le_refl _)
  have hdone := f.replay_waves call check replayed waves
  rw [hwaves]
  constructor
  · intro c hc
    obtain ⟨wave, hwave, rfl⟩ := List.mem_map.mp (hdone.subset hc)
    refine ⟨rfl, ?_, fun g hg => ?_⟩
    · rw [List.length_map]
      exact chunks_length_le wave (hwaves ▸ hwave)
    · obtain ⟨c, hc, rfl⟩ := List.mem_map.mp hg
      exact hgenes c (hall ▸ List.mem_flatten_of_mem hwave hc)
  · have hsum := (hdone.map fun call => call.genes.length).sublist.sum_le_sum fun _ _ =>
      Nat.zero_le _
    have hlengths : (waves.map fun wave => (⟨f.gate, wave.map Prod.fst⟩ : Evaluated F)).map
        (fun call => call.genes.length) = waves.map List.length := by
      rw [List.map_map]
      exact List.map_congr_left fun wave _ => List.length_map _
    calc _ ≤ (waves.map List.length).sum := hlengths ▸ hsum
      _ = waves.flatten.length := List.length_flatten.symm
      _ ≤ capacity + population := hall ▸ hfew

theorem finish_always {population capacity : Nat} {a : GeneArchive F} (h : Archived P capacity a)
    {scored : List (Scored F)} (hscored : ∀ s ∈ scored, P s.gene)
    (hlength : scored.length = population) (evaluationSlots call check : Nat) :
    Always (f.finish population evaluationSlots call check a scored :
      Draw R (List (Evaluated F) × Ending F)) fun out =>
        Replayed P population capacity f.gate out.1 := by
  have hnone := replayed_nil (P := P) population capacity f.gate
  unfold finish
  refine .ite (fun _ => .pure hnone) fun hsome => .ite (fun _ => .pure hnone) fun _ => ?_
  refine .bind (finishEvaluatedGeneration_always h.genes hscored) fun candidates hcandidates => ?_
  refine .ite (fun _ => .pure hnone) fun _ => ?_
  have hcapacity : a.observations.length ≤ capacity := h.capacity ▸ h.indexed.bounded
  have hfew : candidates.length ≤ capacity + population := hcandidates.2.trans (by omega)
  have hcalls := f.replay_replayed (Nat.pos_of_ne_zero hsome) hcandidates.1 hfew call (check + 1) 0
  simp only
  split
  next => exact .pure hcalls
  next =>
    exact .ite (fun _ => .pure hcalls) fun _ =>
      .ite (fun _ => .pure hcalls) fun _ => .pure hcalls

end FinalReplay

end Laws

end Genetic

end Neoethos
