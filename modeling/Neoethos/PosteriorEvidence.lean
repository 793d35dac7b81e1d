import Mathlib.Algebra.Order.Ring.Nat
import Mathlib.Data.List.Count
import Neoethos.Session

namespace Neoethos

open Fallible

theorem Table.lookup_upsert {K V : Type} [DecidableEq K] (table : Table K V) (key other : K)
    (default : V) (f : V → V) :
    ((table.upsert key default f).lookup other).getD default =
      if other = key then f ((table.lookup other).getD default)
      else (table.lookup other).getD default := by
  unfold Table.upsert
  by_cases hsame : other = key
  · rw [if_pos hsame, hsame, AList.lookup_insert]
    rfl
  · rw [if_neg hsame, AList.lookup_insert_ne hsame]

namespace PosteriorCredit

def isAt (c : PosteriorCredit) (factor level : String) : Bool :=
  c.factor = factor ∧ c.level = level

end PosteriorCredit

abbrev SweepCredit := SweepId × PosteriorCredit

theorem countP_cons_toNat {α : Type*} (p : α → Bool) (a : α) (xs : List α) :
    (a :: xs).countP p = xs.countP p + (p a).toNat := by
  rw [List.countP_cons]
  cases p a <;> rfl

/-- A count of what is of one of two kinds, and never of both. -/
theorem countP_split {α : Type*} {p q r : α → Bool}
    (h : ∀ a, (p a).toNat = (q a).toNat + (r a).toNat) (xs : List α) :
    xs.countP p = xs.countP q + xs.countP r := by
  induction xs with
  | nil => rfl
  | cons a xs ih =>
    have ha := h a
    rw [countP_cons_toNat, countP_cons_toNat, countP_cons_toNat, ih, ha]
    omega

namespace SweepCredit

def stands (retracted : Finset SweepId) (factor level : String) (c : SweepCredit) : Bool :=
  c.2.isAt factor level && c.2.success && decide (c.1 ∉ retracted)

def fails (factor level : String) (c : SweepCredit) : Bool :=
  c.2.isAt factor level && !c.2.success

def flipped (retracted : Finset SweepId) (factor level : String) (c : SweepCredit) : Bool :=
  c.2.isAt factor level && c.2.success && decide (c.1 ∈ retracted)

def succeedsIn (sweep : SweepId) (factor level : String) (c : SweepCredit) : Bool :=
  c.2.isAt factor level && c.2.success && decide (c.1 = sweep)

end SweepCredit

/-- The successes of the sweeps that are not retracted, against everything else. -/
def expectedEvidence (credits : List SweepCredit) (retracted : Finset SweepId)
    (factor level : String) : Nat × Nat :=
  (credits.countP (SweepCredit.stands retracted factor level),
    credits.countP (SweepCredit.fails factor level) +
      credits.countP (SweepCredit.flipped retracted factor level))

section Counting

variable {credits : List SweepCredit} {retracted : Finset SweepId} {factor level : String}

theorem expectedEvidence_total (credits : List SweepCredit) (retracted : Finset SweepId)
    (factor level : String) :
    (expectedEvidence credits retracted factor level).1 +
      (expectedEvidence credits retracted factor level).2 =
        credits.countP fun c => c.2.isAt factor level := by
  have hsuccess : credits.countP (fun c => c.2.isAt factor level) =
      credits.countP (SweepCredit.fails factor level) +
        credits.countP fun c => c.2.isAt factor level && c.2.success := by
    apply countP_split
    intro c
    unfold SweepCredit.fails
    cases c.2.isAt factor level <;> cases c.2.success <;> rfl
  have hretracted : (credits.countP fun c => c.2.isAt factor level && c.2.success) =
      credits.countP (SweepCredit.stands retracted factor level) +
        credits.countP (SweepCredit.flipped retracted factor level) := by
    apply countP_split
    intro c
    unfold SweepCredit.stands SweepCredit.flipped
    cases c.2.isAt factor level && c.2.success <;> by_cases hmem : c.1 ∈ retracted <;> simp [hmem]
  unfold expectedEvidence
  omega

/-- A sweep that is retracted moves its successes to the failures. -/
theorem expectedEvidence_insert (credits : List SweepCredit) {sweep : SweepId}
    (hnew : sweep ∉ retracted) (factor level : String) :
    (expectedEvidence credits retracted factor level).1 =
        (expectedEvidence credits (insert sweep retracted) factor level).1 +
          credits.countP (SweepCredit.succeedsIn sweep factor level) ∧
      (expectedEvidence credits (insert sweep retracted) factor level).2 =
        (expectedEvidence credits retracted factor level).2 +
          credits.countP (SweepCredit.succeedsIn sweep factor level) := by
  have hstands : credits.countP (SweepCredit.stands retracted factor level) =
      credits.countP (SweepCredit.stands (insert sweep retracted) factor level) +
        credits.countP (SweepCredit.succeedsIn sweep factor level) := by
    apply countP_split
    intro c
    unfold SweepCredit.stands SweepCredit.succeedsIn
    cases c.2.isAt factor level && c.2.success with
    | false => rfl
    | true => by_cases hsame : c.1 = sweep <;> simp [hsame, hnew]
  have hflipped : credits.countP (SweepCredit.flipped (insert sweep retracted) factor level) =
      credits.countP (SweepCredit.flipped retracted factor level) +
        credits.countP (SweepCredit.succeedsIn sweep factor level) := by
    apply countP_split
    intro c
    unfold SweepCredit.flipped SweepCredit.succeedsIn
    cases c.2.isAt factor level && c.2.success with
    | false => rfl
    | true => by_cases hsame : c.1 = sweep <;> simp [hsame, hnew]
  unfold expectedEvidence
  dsimp only
  omega

/-- What a sweep that is not retracted is credited with stands as it is. -/
theorem expectedEvidence_append {sweep : SweepId} {given : List PosteriorCredit}
    (hnew : given = [] ∨ sweep ∉ retracted) :
    expectedEvidence (credits ++ given.map (sweep, ·)) retracted factor level =
      ((expectedEvidence credits retracted factor level).1 +
          given.countP fun c => c.isAt factor level && c.success,
        (expectedEvidence credits retracted factor level).2 +
          given.countP fun c => c.isAt factor level && !c.success) := by
  obtain rfl | hnew := hnew
  · simp
  · unfold expectedEvidence
    have hstands : (SweepCredit.stands retracted factor level ∘ (sweep, ·)) =
        fun c => c.isAt factor level && c.success := by
      funext c
      simp [SweepCredit.stands, hnew]
    have hfails : (SweepCredit.fails factor level ∘ (sweep, ·)) =
        fun c => c.isAt factor level && !c.success := rfl
    have hflipped : (SweepCredit.flipped retracted factor level ∘ (sweep, ·)) =
        fun _ => false := by
      funext c
      simp [SweepCredit.flipped, hnew]
    rw [List.countP_append, List.countP_append, List.countP_append, List.countP_map,
      List.countP_map, List.countP_map, hstands, hfails, hflipped, List.countP_false,
      Function.const_apply]
    refine Prod.ext rfl ?_
    dsimp only
    omega

end Counting

namespace PosteriorLedger

/-- `retractOne` without the saturation: it fails where that would clip. -/
def retractOneChecked (counts : Table (String × String) (Nat × Nat)) (c : PosteriorCredit) :
    Option (Table (String × String) (Nat × Nat)) :=
  if 0 < ((counts.lookup (c.factor, c.level)).getD (0, 0)).1 then some (retractOne counts c)
  else none

def retractSweepChecked (ledger : PosteriorLedger) (sweep : SweepId) : Option PosteriorLedger :=
  if sweep ∈ ledger.retractedSweeps then some ledger
  else
    ((((ledger.creditedBySweep.lookup sweep).getD []).filter fun c => c.success).foldlM
      retractOneChecked ledger.counts).map fun counts =>
        { ledger with
          retractedSweeps := insert sweep ledger.retractedSweeps
          counts := counts }

/-- What a record does to the ledger, and whether a subtraction clips. -/
def absorb {F : Type} (ledger : PosteriorLedger) : Record F → PosteriorLedger
  | .posteriorUpdated sweep credits => ledger.credit sweep credits
  | .posteriorRetracted _ sweepIds _ => ledger.retract sweepIds
  | _ => ledger

def absorbChecked {F : Type} (ledger : PosteriorLedger) : Record F → Option PosteriorLedger
  | .posteriorUpdated sweep credits => some (ledger.credit sweep credits)
  | .posteriorRetracted _ sweepIds _ => sweepIds.foldlM retractSweepChecked ledger
  | _ => some ledger

variable {counts : Table (String × String) (Nat × Nat)} {given : List PosteriorCredit}

/-- A write to the level of a credit, read at any level. -/
theorem lookup_at (counts : Table (String × String) (Nat × Nat)) (c : PosteriorCredit)
    (factor level : String) (f : Nat × Nat → Nat × Nat) :
    ((counts.upsert (c.factor, c.level) (0, 0) f).lookup (factor, level)).getD (0, 0) =
      if c.isAt factor level then f ((counts.lookup (factor, level)).getD (0, 0))
      else (counts.lookup (factor, level)).getD (0, 0) := by
  have hat : (factor, level) = (c.factor, c.level) ↔ c.isAt factor level = true := by
    unfold PosteriorCredit.isAt
    rw [Prod.mk.injEq, decide_eq_true_iff, eq_comm, eq_comm (a := level)]
  rw [Table.lookup_upsert]
  simp only [hat]

theorem lookup_foldl_creditOne (factor level : String) :
    ((given.foldl creditOne counts).lookup (factor, level)).getD (0, 0) =
      (((counts.lookup (factor, level)).getD (0, 0)).1 +
          given.countP fun c => c.isAt factor level && c.success,
        ((counts.lookup (factor, level)).getD (0, 0)).2 +
          given.countP fun c => c.isAt factor level && !c.success) := by
  induction given generalizing counts with
  | nil => rfl
  | cons c given ih =>
    have hone : ((creditOne counts c).lookup (factor, level)).getD (0, 0) =
        (((counts.lookup (factor, level)).getD (0, 0)).1 +
            (c.isAt factor level && c.success).toNat,
          ((counts.lookup (factor, level)).getD (0, 0)).2 +
            (c.isAt factor level && !c.success).toNat) := by
      unfold creditOne
      rw [lookup_at]
      cases c.isAt factor level <;> cases c.success <;> rfl
    rw [List.foldl_cons, ih, hone, countP_cons_toNat, countP_cons_toNat]
    refine Prod.ext ?_ ?_
    · dsimp only
      omega
    · dsimp only
      omega

/-- As many successes as are taken away are there, so nothing is clipped. -/
theorem foldl_retractOne (hthere : ∀ factor level,
    (given.countP fun c => c.isAt factor level) ≤
      ((counts.lookup (factor, level)).getD (0, 0)).1) :
    given.foldlM retractOneChecked counts = some (given.foldl retractOne counts) ∧
      ∀ factor level, ((given.foldl retractOne counts).lookup (factor, level)).getD (0, 0) =
        (((counts.lookup (factor, level)).getD (0, 0)).1 -
            given.countP fun c => c.isAt factor level,
          ((counts.lookup (factor, level)).getD (0, 0)).2 +
            given.countP fun c => c.isAt factor level) := by
  induction given generalizing counts with
  | nil => exact ⟨rfl, fun _ _ => rfl⟩
  | cons c given ih =>
    have hone (factor level : String) :
        ((retractOne counts c).lookup (factor, level)).getD (0, 0) =
          (((counts.lookup (factor, level)).getD (0, 0)).1 - (c.isAt factor level).toNat,
            ((counts.lookup (factor, level)).getD (0, 0)).2 + (c.isAt factor level).toNat) := by
      unfold retractOne
      rw [lookup_at]
      cases c.isAt factor level <;> rfl
    have hpositive : 0 < ((counts.lookup (c.factor, c.level)).getD (0, 0)).1 := by
      have hown := hthere c.factor c.level
      rw [countP_cons_toNat, show c.isAt c.factor c.level = true by simp [PosteriorCredit.isAt]]
        at hown
      exact Nat.lt_of_lt_of_le (by simp) hown
    have hrest (factor level : String) : (given.countP fun c => c.isAt factor level) ≤
        (((retractOne counts c).lookup (factor, level)).getD (0, 0)).1 := by
      have hall := hthere factor level
      rw [countP_cons_toNat] at hall
      rw [hone]
      dsimp only
      omega
    obtain ⟨hchecked, hlevels⟩ := ih hrest
    constructor
    · have hstep : retractOneChecked counts c = some (retractOne counts c) := if_pos hpositive
      rw [List.foldlM_cons, hstep]
      exact hchecked
    · intro factor level
      rw [List.foldl_cons, hlevels, hone, countP_cons_toNat]
      refine Prod.ext ?_ ?_
      · dsimp only
        omega
      · dsimp only
        omega

/-- The ledger behind some credits, with some sweeps retracted. -/
structure Holds (credits : List SweepCredit) (retracted : Finset SweepId)
    (ledger : PosteriorLedger) : Prop where
  sweeps : ledger.retractedSweeps = retracted
  credited : ∀ sweep, (ledger.creditedBySweep.lookup sweep).getD [] =
    (credits.filter fun c => c.1 = sweep).map Prod.snd
  evidence : ∀ factor level,
    ledger.evidence factor level = expectedEvidence credits retracted factor level

variable {credits : List SweepCredit} {retracted : Finset SweepId} {ledger : PosteriorLedger}

theorem holds_empty : Holds [] ∅ ⟨∅, ∅, ∅⟩ := ⟨rfl, fun _ => rfl, fun _ _ => rfl⟩

theorem Holds.credit (h : Holds credits retracted ledger) {sweep : SweepId}
    (hnew : given = [] ∨ sweep ∉ retracted) :
    Holds (credits ++ given.map (sweep, ·)) retracted (ledger.credit sweep given) := by
  refine ⟨h.sweeps, ?_, ?_⟩
  · intro other
    unfold PosteriorLedger.credit
    dsimp only
    rw [Table.lookup_upsert, h.credited, List.filter_append, List.map_append]
    by_cases hsame : other = sweep
    · rw [if_pos hsame, hsame]
      simp [List.filter_map, Function.comp_def]
    · have hother : ¬sweep = other := fun heq => hsame heq.symm
      rw [if_neg hsame]
      simp [List.filter_map, Function.comp_def, hother]
  · intro factor level
    have hbefore := h.evidence factor level
    unfold PosteriorLedger.evidence PosteriorLedger.credit at *
    dsimp only
    rw [lookup_foldl_creditOne, hbefore, expectedEvidence_append hnew]

theorem Holds.retractSweep (h : Holds credits retracted ledger) (sweep : SweepId) :
    Holds credits (insert sweep retracted) (ledger.retractSweep sweep) ∧
      ledger.retractSweepChecked sweep = some (ledger.retractSweep sweep) := by
  unfold PosteriorLedger.retractSweep retractSweepChecked
  by_cases hagain : sweep ∈ ledger.retractedSweeps
  · rw [if_pos hagain, if_pos hagain, Finset.insert_eq_of_mem (h.sweeps ▸ hagain)]
    exact ⟨h, rfl⟩
  · rw [if_neg hagain, if_neg hagain]
    have hnew : sweep ∉ retracted := h.sweeps ▸ hagain
    have hcount (factor level : String) :
        ((((ledger.creditedBySweep.lookup sweep).getD []).filter fun c => c.success).countP
          fun c => c.isAt factor level) =
            credits.countP (SweepCredit.succeedsIn sweep factor level) := by
      rw [h.credited, List.filter_map, List.countP_map, List.filter_filter, List.countP_filter]
      apply List.countP_congr
      intro c _
      simp [SweepCredit.succeedsIn]
      tauto
    have hthere (factor level : String) :
        ((((ledger.creditedBySweep.lookup sweep).getD []).filter fun c => c.success).countP
          fun c => c.isAt factor level) ≤
            ((ledger.counts.lookup (factor, level)).getD (0, 0)).1 := by
      have hbefore := h.evidence factor level
      unfold PosteriorLedger.evidence at hbefore
      have hmoved := (expectedEvidence_insert credits hnew factor level).1
      rw [hcount, hbefore]
      omega
    obtain ⟨hchecked, hlevels⟩ := foldl_retractOne hthere
    rw [hchecked]
    refine ⟨⟨?_, h.credited, ?_⟩, rfl⟩
    · rw [h.sweeps]
    · intro factor level
      have hbefore := h.evidence factor level
      have hmoved := expectedEvidence_insert credits hnew factor level
      unfold PosteriorLedger.evidence at *
      dsimp only
      rw [hlevels, hbefore, hcount]
      refine Prod.ext ?_ ?_
      · dsimp only
        omega
      · dsimp only
        omega

theorem Holds.retract (h : Holds credits retracted ledger) (sweeps : List SweepId) :
    Holds credits (retracted ∪ sweeps.toFinset) (ledger.retract sweeps) ∧
      sweeps.foldlM retractSweepChecked ledger = some (ledger.retract sweeps) := by
  induction sweeps generalizing retracted ledger with
  | nil => simpa [PosteriorLedger.retract] using h
  | cons sweep sweeps ih =>
    obtain ⟨hone, hchecked⟩ := h.retractSweep sweep
    obtain ⟨hrest, hall⟩ := ih hone
    rw [List.foldlM_cons, hchecked]
    refine ⟨?_, hall⟩
    rw [List.toFinset_cons, Finset.union_insert, ← Finset.insert_union]
    exact hrest

end PosteriorLedger

namespace Record

variable {F : Type}

def sweepCredits : Record F → List SweepCredit
  | posteriorUpdated sweep credits => credits.map (sweep, ·)
  | _ => []

def retractsSweeps : Record F → List SweepId
  | posteriorRetracted _ sweepIds _ => sweepIds
  | _ => []

def isPosterior : Record F → Bool
  | posteriorUpdated _ _ | posteriorRetracted _ _ _ => true
  | _ => false

end Record

def CreditsComeFirst {F : Type} (records : List (Record F)) : Prop :=
  records.Pairwise fun earlier later =>
    ∀ sweep ∈ earlier.retractsSweeps, ∀ c ∈ later.sweepCredits, c.1 ≠ sweep

def retractedSweeps {F : Type} (records : List (Record F)) : Finset SweepId :=
  (records.flatMap (·.retractsSweeps)).toFinset

section Journal

variable {F : Type} [FloatOps F] {hash : CompactHash} {session session' : Session F}
  {record : Record F} {records : List (Record F)}

/-- A fold step does to the ledger what the record says. -/
theorem posterior_apply (h : session.apply hash record = .ok session') :
    session'.posterior = session.posterior.absorb record := by
  have hends {sweep : SweepId} {trialsOffered : Nat}
      (hends : EndsSweep session session' sweep trialsOffered) :
      session'.posterior = session.posterior := by
    obtain ⟨_, _, _, _, _, _, _, rfl⟩ := hends
    rfl
  cases record with
  | sweepCompleted => exact hends (applySweepCompleted_ends h)
  | sweepFailed => exact hends (applySweepFailed_ends h)
  | sweepAbandoned => exact hends (applySweepAbandoned_ends h)
  | sessionOpened header =>
    simp only [Session.apply, Session.applySessionOpened, bind_ok_iff] at h
    obtain ⟨_, _, _, _, _, _, _, _, h⟩ := h
    obtain rfl := Except.ok.inj h
    rfl
  | sweepStarted =>
    simp only [Session.apply, Session.applySweepStarted] at h
    split at h
    next => cases h
    next =>
      obtain rfl := Except.ok.inj h
      rfl
  | bestEverAdvanced best =>
    obtain rfl := Except.ok.inj h
    unfold Session.applyBestEverAdvanced
    dsimp only
    split
    next => rfl
    next => rfl
  | championRecorded row =>
    simp only [Session.apply, Session.applyChampionRecorded] at h
    split at h
    next => cases h
    next =>
      obtain rfl := Except.ok.inj h
      rfl
  | shuffleControlCompleted block kind tau sourceSweep trialsOffered eScreenPess dsr =>
    obtain rfl := Except.ok.inj h
    cases eScreenPess with
    | none => rfl
    | some e => rfl
  | awaitingQuoteCoverage request =>
    simp only [Session.apply, Session.applyAwaiting, bind_ok_iff] at h
    obtain ⟨_, _, opened, _, _, _, _, _, h⟩ := h
    split at h
    next =>
      obtain rfl := Except.ok.inj h
      rfl
    next =>
      split at h
      next =>
        obtain rfl := Except.ok.inj h
        rfl
      next => cases h
    next => cases h
  | quoteCoverageReady ready =>
    simp only [Session.apply, Session.applyReady, bind_ok_iff] at h
    obtain ⟨_, _, h⟩ := h
    split at h
    next =>
      obtain ⟨_, _, h⟩ := bind_ok_iff.mp h
      obtain rfl := Except.ok.inj h
      rfl
    next =>
      split at h
      next =>
        obtain ⟨_, _, h⟩ := bind_ok_iff.mp h
        obtain rfl := Except.ok.inj h
        rfl
      next => cases h
    next => cases h
  | oosTouchSpent window sweep candidate =>
    simp only [Session.apply, Session.applyOosTouchSpent, bind_ok_iff] at h
    obtain ⟨_, _, _, _, h⟩ := h
    obtain rfl := Except.ok.inj h
    rfl
  | sessionStopped verdict =>
    simp only [Session.apply, Session.applySessionStopped, bind_ok_iff] at h
    obtain ⟨_, _, h⟩ := h
    obtain rfl := Except.ok.inj h
    rfl
  | proposalDrawn | proposalDuplicate | proposalRefused | screened | posteriorUpdated
  | posteriorRetracted | blockJudged | promoted | promotionRefused | garbageCollected
  | truncatedTail =>
    obtain rfl := Except.ok.inj h
    rfl

/-- The ledger of a journal, and that no subtraction on the way to it clips. -/
theorem posterior_fold (h : Session.fold hash records = .ok session)
    (hfirst : CreditsComeFirst records) :
    PosteriorLedger.Holds (records.flatMap (·.sweepCredits)) (retractedSweeps records)
        session.posterior ∧
      records.foldlM PosteriorLedger.absorbChecked ⟨∅, ∅, ∅⟩ = some session.posterior := by
  induction records using List.reverseRecOn generalizing session with
  | nil =>
    obtain rfl := Except.ok.inj h
    exact ⟨PosteriorLedger.holds_empty, rfl⟩
  | append_singleton records record ih =>
    obtain ⟨earlier, hearlier, happly⟩ := foldlM_snoc_ok_iff.mp h
    obtain ⟨hbefore, _, hlast⟩ := List.pairwise_append.mp hfirst
    obtain ⟨hholds, hchecked⟩ := ih hearlier hbefore
    have hposterior := posterior_apply happly
    have hcredits : (records ++ [record]).flatMap (·.sweepCredits) =
        records.flatMap (·.sweepCredits) ++ record.sweepCredits := by
      rw [List.flatMap_append, List.flatMap_cons, List.flatMap_nil, List.append_nil]
    have hretracted : retractedSweeps (records ++ [record]) =
        retractedSweeps records ∪ record.retractsSweeps.toFinset := by
      unfold retractedSweeps
      rw [List.flatMap_append, List.flatMap_cons, List.flatMap_nil, List.append_nil,
        List.toFinset_append]
    rw [hcredits, hretracted, List.foldlM_append, hchecked, posterior_apply happly]
    show _ ∧ [record].foldlM PosteriorLedger.absorbChecked earlier.posterior = _
    rw [List.foldlM_cons]
    cases record with
    | posteriorUpdated sweep given =>
      have hnew : given = [] ∨ sweep ∉ retractedSweeps records := by
        cases given with
        | nil => exact .inl rfl
        | cons c given =>
          refine .inr fun hsweep => ?_
          obtain ⟨before, hmem, hretracts⟩ := List.mem_flatMap.mp (List.mem_toFinset.mp hsweep)
          exact hlast before hmem _ (List.mem_singleton_self _) sweep hretracts (sweep, c)
            List.mem_cons_self rfl
      have hnone : (Record.posteriorUpdated sweep given : Record F).retractsSweeps.toFinset = ∅ :=
        rfl
      rw [hnone, Finset.union_empty]
      exact ⟨hholds.credit hnew, rfl⟩
    | posteriorRetracted block sweepIds reason =>
      obtain ⟨hafter, hall⟩ := hholds.retract sweepIds
      have hnone : (Record.posteriorRetracted block sweepIds reason : Record F).sweepCredits = [] :=
        rfl
      rw [hnone, List.append_nil]
      refine ⟨hafter, ?_⟩
      show (sweepIds.foldlM PosteriorLedger.retractSweepChecked earlier.posterior).bind some = _
      rw [hall]
      rfl
    | _ =>
      refine ⟨?_, rfl⟩
      show PosteriorLedger.Holds (records.flatMap (·.sweepCredits) ++ [])
        (retractedSweeps records ∪ ∅) earlier.posterior
      rw [List.append_nil, Finset.union_empty]
      exact hholds

theorem fold_posterior (hash : CompactHash) (session : Session F)
    (h : ∀ record ∈ records, record.isPosterior = true) :
    ∃ session', records.foldlM (Session.apply hash) session = .ok session' := by
  induction records generalizing session with
  | nil => exact ⟨session, rfl⟩
  | cons record records ih =>
    rw [List.forall_mem_cons] at h
    obtain ⟨hrecord, hrest⟩ := h
    have hstep : ∃ next, session.apply hash record = .ok next := by
      cases record with
      | posteriorUpdated => exact ⟨_, rfl⟩
      | posteriorRetracted => exact ⟨_, rfl⟩
      | _ => cases hrecord
    obtain ⟨next, hnext⟩ := hstep
    obtain ⟨session', hrun⟩ := ih next hrest
    exact ⟨session', foldlM_cons_ok_iff.mpr ⟨next, hnext, hrun⟩⟩

end Journal

/-- The evidence of a ledger is what the credits and the retracted sweeps of the records say,
whatever their order, and no subtraction on the way to it clips. -/
structure RetractionExact {F : Type} [FloatOps F] (records : List (Record F))
    (ledger : PosteriorLedger) : Prop where
  evidence : ∀ factor level, ledger.evidence factor level =
    expectedEvidence (records.flatMap (·.sweepCredits)) (retractedSweeps records) factor level
  total : ∀ factor level,
    (ledger.evidence factor level).1 + (ledger.evidence factor level).2 =
      (records.flatMap (·.sweepCredits)).countP fun c => c.2.isAt factor level
  unclipped : records.foldlM PosteriorLedger.absorbChecked ⟨∅, ∅, ∅⟩ = some ledger
  ordered : ∀ (hash : CompactHash) (other : List (Record F)) (session : Session F),
    Session.fold hash other = .ok session → CreditsComeFirst other →
    (other.flatMap (·.sweepCredits)).Perm (records.flatMap (·.sweepCredits)) →
    retractedSweeps other = retractedSweeps records →
    ∀ factor level, session.posterior.evidence factor level = ledger.evidence factor level

/-- Retraction is exact in every journal that credits no retracted sweep. -/
theorem retraction_exact {F : Type} [FloatOps F] (hash : CompactHash) (records : List (Record F))
    (hfirst : CreditsComeFirst records) :
    (∀ session, Session.fold hash records = .ok session →
        RetractionExact records session.posterior) ∧
      ((∀ record ∈ records, record.isPosterior = true) →
        ∃ session, Session.fold hash records = .ok session) := by
  constructor
  · intro session h
    obtain ⟨hholds, hchecked⟩ := posterior_fold h hfirst
    refine ⟨hholds.evidence, ?_, hchecked, ?_⟩
    · intro factor level
      rw [hholds.evidence]
      exact expectedEvidence_total _ _ factor level
    · intro hash' other session' hother hfirst' hcredits hsweeps factor level
      obtain ⟨hholds', _⟩ := posterior_fold hother hfirst'
      rw [hholds.evidence, hholds'.evidence, hsweeps]
      unfold expectedEvidence
      rw [hcredits.countP_eq, hcredits.countP_eq, hcredits.countP_eq]
  · exact fold_posterior hash Session.empty

/-- A level is credited by two sweeps, one of which is retracted twice. -/
def sampleRetraction : List (Record ℚ) :=
  [.posteriorUpdated 1 [⟨"f", "x", true⟩, ⟨"f", "x", true⟩, ⟨"f", "x", false⟩],
    .posteriorUpdated 2 [⟨"f", "x", true⟩], .posteriorRetracted 0 [1, 9, 1] "block",
    .posteriorRetracted 1 [1] "block"]

theorem sampleRetraction_exact :
    (∀ session, Session.fold ⟨fun _ => [], fun _ => [], fun _ => [], fun _ => ""⟩
        sampleRetraction = .ok session → RetractionExact sampleRetraction session.posterior) ∧
      ((∀ record ∈ sampleRetraction, record.isPosterior = true) →
        ∃ session, Session.fold ⟨fun _ => [], fun _ => [], fun _ => [], fun _ => ""⟩
          sampleRetraction = .ok session) :=
  retraction_exact _ sampleRetraction (by unfold CreditsComeFirst; decide)

end Neoethos
