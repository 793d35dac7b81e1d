import Mathlib.Data.List.Count
import Neoethos.Session

/-! `ShuffleNull`: what the shuffle controls observed, kept record by record or rebuilt from the
session. -/

/-- `f64::round`, away from zero at a tie. -/
class FloatOps.Rounding (F : Type*) [FloatOps F] where
  round : F → F

namespace Neoethos

instance : FloatOps.Rounding ℚ where
  round x := if x < 0 then -(⌊-x + 1 / 2⌋ : ℤ) else (⌊x + 1 / 2⌋ : ℤ)

def ControlKind.feedsTheNull : ControlKind → Bool
  | circularRotation => true
  | columnPermutation => false

def MIN_NULL_OBS : Nat := 3

def K_MIN : Nat := 40

def SWEEP_SEARCHES : Nat := 100

structure ShuffleNull (F : Type) where
  observations : List F
  refused : Nat
  deriving DecidableEq

namespace ShuffleNull

variable {F : Type} [FloatOps F]

def empty : ShuffleNull F := ⟨[], 0⟩

def fromSession (session : Session F) : ShuffleNull F where
  observations := session.nullObservations.filter FloatOps.isFinite
  refused := session.nullRefusals +
    (session.nullObservations.filter fun e => !FloatOps.isFinite e).length

def observe (null : ShuffleNull F) (kind : ControlKind) (eScreenPess : Option F) :
    ShuffleNull F :=
  if kind.feedsTheNull then
    match eScreenPess.filter FloatOps.isFinite with
    | some e => { null with observations := null.observations ++ [e] }
    | none => { null with refused := null.refused + 1 }
  else null

def isAvailable (null : ShuffleNull F) : Bool := MIN_NULL_OBS ≤ null.observations.length

def quantile95 [FloatOps.Rounding F] (null : ShuffleNull F) : Option F :=
  if null.isAvailable then
    let sorted := null.observations.mergeSort fun a b => !FloatOps.lt b a
    let idx := FloatOps.toUsize (FloatOps.Rounding.round
      ((FloatOps.ofInt sorted.length - FloatOps.lit 1) * FloatOps.lit (95 / 100) : F))
    sorted[min idx (sorted.length - 1)]?
  else none

end ShuffleNull

inductive S6Answer (F : Type)
  | unavailable (observations : Nat)
  | failed (eScreenPess quantile : F)
  | passed (eScreenPess quantile : F)
  deriving DecidableEq

def screenS6 {F : Type} [FloatOps F] [FloatOps.Rounding F] (eScreenPess : F)
    (null : ShuffleNull F) : S6Answer F :=
  match null.quantile95 with
  | none => .unavailable null.observations.length
  | some q => if FloatOps.lt eScreenPess q then .failed eScreenPess q else .passed eScreenPess q

inductive U2Detail (F : Type)
  | compared (best quantile : F)
  | silent (enoughEvidence : Bool) (judgedLiveSearches : Nat) (quantile : F)
  | noNull (nullObservations : Nat)
  deriving DecidableEq

def u2Condition {F : Type} [FloatOps F] (best q95 : Option F)
    (nullObservations judgedLiveSearches : Nat) : Bool × U2Detail F :=
  match best, q95 with
  | some b, some q => (FloatOps.le b q, .compared b q)
  | none, some q =>
    let enoughEvidence := decide (K_MIN * SWEEP_SEARCHES ≤ judgedLiveSearches)
    (enoughEvidence, .silent enoughEvidence judgedLiveSearches q)
  | _, none => (false, .noNull nullObservations)

def ScreenResult.isVerdict {F : Type} : ScreenResult F → Bool
  | passed _ _ _ _ _ _ | failed _ _ => true
  | unavailable _ => false

namespace Session

variable {F : Type}

def liveSearchesJudged (session : Session F) : Nat :=
  ((session.sweeps.filter fun sweep => sweep.kind.isLive).map fun sweep =>
    match session.screens.lookup sweep.sweep with
    | some screens => (screens.zipIdx.filter fun (screen, slot) => screen.isVerdict &&
        (sweep.perSearch.find? fun record => record.slot = slot).any fun record =>
          0 < record.trialsOffered && record.error.isNone).length
    | none => 0).sum

/-- U2 of `check_unreachable`, under a null. -/
def u2 [FloatOps F] [FloatOps.Rounding F] (session : Session F) (null : ShuffleNull F) :
    Bool × U2Detail F :=
  u2Condition (session.bestEver.map (·.eScreenPess)) null.quantile95 null.observations.length
    session.liveSearchesJudged

end Session

/-- A control of the kind that is reported and never enters an inequality. -/
def Record.isColumnPermutation {F : Type} : Record F → Bool
  | shuffleControlCompleted _ kind _ _ _ _ _ => !kind.feedsTheNull
  | _ => false

def Record.isControl {F : Type} : Record F → Bool
  | shuffleControlCompleted _ _ _ _ _ _ _ => true
  | _ => false

namespace ShuffleNull

variable {F : Type} [FloatOps F]

/-- The null that observes every control of the records, one after the other. -/
def observeRecord (null : ShuffleNull F) : Record F → ShuffleNull F
  | .shuffleControlCompleted _ kind _ _ _ eScreenPess _ => null.observe kind eScreenPess
  | _ => null

def ofRecords (records : List (Record F)) : ShuffleNull F := records.foldl observeRecord empty

/-- What the fold does: the kind of a control is not read. -/
def absorb (null : ShuffleNull F) : Record F → ShuffleNull F
  | .shuffleControlCompleted _ _ _ _ _ eScreenPess _ =>
    null.observe .circularRotation eScreenPess
  | _ => null

def total (null : ShuffleNull F) : Nat := null.observations.length + null.refused

variable {null : ShuffleNull F} {record : Record F} {records : List (Record F)}

theorem observe_rotation (null : ShuffleNull F) (e : F) :
    null.observe .circularRotation (some e) =
      if FloatOps.isFinite e then { null with observations := null.observations ++ [e] }
      else { null with refused := null.refused + 1 } := by
  unfold observe
  rw [if_pos (show ControlKind.feedsTheNull .circularRotation = true from rfl), Option.filter_some]
  cases FloatOps.isFinite e with
  | true => rfl
  | false => rfl

theorem total_observe (null : ShuffleNull F) (kind : ControlKind) (eScreenPess : Option F) :
    (null.observe kind eScreenPess).total = null.total + if kind.feedsTheNull then 1 else 0 := by
  unfold observe total
  split
  next =>
    split
    next =>
      simp only [List.length_append, List.length_cons, List.length_nil]
      omega
    next =>
      show null.observations.length + (null.refused + 1) = _
      omega
  next => rfl

theorem total_absorb (null : ShuffleNull F) (record : Record F) :
    (null.absorb record).total = null.total + if record.isControl then 1 else 0 := by
  cases record with
  | shuffleControlCompleted block kind tau sourceSweep trialsOffered eScreenPess dsr =>
    exact total_observe null .circularRotation eScreenPess
  | _ => rfl

theorem total_observeRecord (null : ShuffleNull F) (record : Record F) :
    (null.observeRecord record).total + (if record.isColumnPermutation then 1 else 0) =
      null.total + if record.isControl then 1 else 0 := by
  cases record with
  | shuffleControlCompleted block kind tau sourceSweep trialsOffered eScreenPess dsr =>
    have htotal := total_observe null kind eScreenPess
    cases kind with
    | circularRotation => exact htotal
    | columnPermutation => rfl
  | _ => rfl

/-- The fold counts every control; the null that observes leaves out the column permutations. -/
theorem total_foldl {direct : ShuffleNull F} {lost : Nat} (h : null.total = direct.total + lost) :
    (records.foldl absorb null).total = (records.foldl observeRecord direct).total + lost +
      records.countP Record.isColumnPermutation := by
  induction records generalizing null direct lost with
  | nil => exact h
  | cons record records ih =>
    have habsorb := total_absorb null record
    have hobserve := total_observeRecord direct record
    have hstep : (null.absorb record).total = (direct.observeRecord record).total +
        (lost + if record.isColumnPermutation then 1 else 0) := by
      omega
    rw [List.foldl_cons, List.foldl_cons, ih hstep, List.countP_cons]
    omega

theorem absorb_eq (h : record.isColumnPermutation = false) :
    null.absorb record = null.observeRecord record := by
  cases record with
  | shuffleControlCompleted block kind tau sourceSweep trialsOffered eScreenPess dsr =>
    cases kind with
    | circularRotation => rfl
    | columnPermutation => cases h
  | _ => rfl

theorem foldl_absorb_eq (h : ∀ record ∈ records, record.isColumnPermutation = false) :
    records.foldl absorb null = records.foldl observeRecord null := by
  induction records generalizing null with
  | nil => rfl
  | cons record records ih =>
    rw [List.forall_mem_cons] at h
    rw [List.foldl_cons, List.foldl_cons, absorb_eq h.1, ih h.2]

theorem fromSession_apply {hash : CompactHash} {session session' : Session F}
    (h : session.apply hash record = .ok session') :
    fromSession session' = (fromSession session).absorb record := by
  have hsame (hobservations : session'.nullObservations = session.nullObservations)
      (hrefusals : session'.nullRefusals = session.nullRefusals) :
      fromSession session' = fromSession session := by
    unfold fromSession
    rw [hobservations, hrefusals]
  have hends {sweep : SweepId} {trialsOffered : Nat}
      (hends : EndsSweep session session' sweep trialsOffered) :
      fromSession session' = fromSession session := by
    obtain ⟨_, _, _, _, _, _, _, rfl⟩ := hends
    exact hsame rfl rfl
  by_cases hquiet : record.isQuiet = true
  · have hcourse := (apply_quiet hquiet h).course
    have habsorb : (fromSession session).absorb record = fromSession session := by
      cases record with
      | shuffleControlCompleted => cases hquiet
      | _ => rfl
    rw [habsorb]
    exact hsame (congrArg Course.nullObservations hcourse) (congrArg Course.nullRefusals hcourse)
  cases record with
  | sweepStarted sweep sweepHash kind startedMs =>
    simp only [Session.apply, Session.applySweepStarted] at h
    split at h
    next => cases h
    next =>
      obtain rfl := Except.ok.inj h
      exact hsame rfl rfl
  | sweepCompleted sweep trialsOffered perSearch wallMs =>
    exact hends (applySweepCompleted_ends h)
  | sweepFailed sweep trialsOffered error => exact hends (applySweepFailed_ends h)
  | sweepAbandoned sweep trialsOffered reason => exact hends (applySweepAbandoned_ends h)
  | blockJudged block deltaExpectancy pBlock dsrGap indistinguishable =>
    obtain rfl := Except.ok.inj h
    exact hsame rfl rfl
  | posteriorRetracted block sweepIds reason =>
    obtain rfl := Except.ok.inj h
    exact hsame rfl rfl
  | shuffleControlCompleted block kind tau sourceSweep trialsOffered eScreenPess dsr =>
    obtain rfl := Except.ok.inj h
    cases eScreenPess with
    | none =>
      show fromSession (session.applyShuffleControlCompleted block sourceSweep none) =
        ⟨(fromSession session).observations, (fromSession session).refused + 1⟩
      unfold fromSession Session.applyShuffleControlCompleted
      rw [Nat.add_right_comm]
    | some e =>
      show fromSession (session.applyShuffleControlCompleted block sourceSweep (some e)) =
        (fromSession session).observe .circularRotation (some e)
      rw [observe_rotation]
      unfold fromSession Session.applyShuffleControlCompleted
      dsimp only
      rw [List.filter_append, List.filter_append, List.length_append]
      cases hfinite : FloatOps.isFinite e with
      | true => simp [hfinite]
      | false => simp [hfinite, Nat.add_assoc]
  | _ => exact absurd rfl hquiet

theorem fromSession_fold {hash : CompactHash} {session : Session F}
    (h : Session.fold hash records = .ok session) :
    fromSession session = records.foldl absorb empty := by
  induction records using List.reverseRecOn generalizing session with
  | nil =>
    obtain rfl := Except.ok.inj h
    rfl
  | append_singleton records record ih =>
    obtain ⟨earlier, hearlier, happly⟩ := Fallible.foldlM_snoc_ok_iff.mp h
    rw [fromSession_apply happly, ih hearlier, List.foldl_concat]

end ShuffleNull

/-- The null of the session is the one that observed the controls of the journal, and what
is read from it is the same. -/
structure NullOfControls {F : Type} [FloatOps F] [FloatOps.Rounding F] (session : Session F)
    (direct : ShuffleNull F) : Prop where
  observations : (ShuffleNull.fromSession session).observations.Perm direct.observations
  refused : (ShuffleNull.fromSession session).refused = direct.refused
  quantile95 : (ShuffleNull.fromSession session).quantile95 = direct.quantile95
  s6 : ∀ eScreenPess, screenS6 eScreenPess (ShuffleNull.fromSession session) =
    screenS6 eScreenPess direct
  u2 : session.u2 (ShuffleNull.fromSession session) = session.u2 direct

/-- The session null is that of the observing controls as long as no column permutation is in the
journal. -/
theorem null_of_controls_iff {F : Type} [FloatOps F] [FloatOps.Rounding F] (hash : CompactHash)
    (records : List (Record F)) (session : Session F)
    (h : Session.fold hash records = .ok session) :
    NullOfControls session (ShuffleNull.ofRecords records) ↔
      ∀ record ∈ records, record.isColumnPermutation = false := by
  have hfold := ShuffleNull.fromSession_fold h
  constructor
  · intro hagrees
    have htotal : (ShuffleNull.fromSession session).total =
        (ShuffleNull.ofRecords records).total := by
      unfold ShuffleNull.total
      rw [hagrees.observations.length_eq, hagrees.refused]
    have hlost : (ShuffleNull.fromSession session).total =
        (ShuffleNull.ofRecords records).total + 0 +
          records.countP Record.isColumnPermutation := by
      rw [hfold]
      exact ShuffleNull.total_foldl rfl
    have hnone : records.countP Record.isColumnPermutation = 0 := by
      omega
    intro record hmem
    exact Bool.eq_false_iff.mpr (List.countP_eq_zero.mp hnone record hmem)
  · intro hnone
    have hsame : ShuffleNull.fromSession session = ShuffleNull.ofRecords records :=
      hfold.trans (ShuffleNull.foldl_absorb_eq hnone)
    exact ⟨by rw [hsame], by rw [hsame], by rw [hsame], fun e => by rw [hsame], by rw [hsame]⟩

def sampleControls (kind : ControlKind) : List (Record ℚ) :=
  (List.range 3).map fun block => .shuffleControlCompleted block kind (1 / 2) block 100 (some 1)
    none

def sampleNullSession : Session ℚ := { Session.empty with nullObservations := [1, 1, 1] }

def sampleNullHash : CompactHash := ⟨fun _ => [], fun _ => [], fun _ => [], fun _ => ""⟩

theorem null_of_rotations : NullOfControls sampleNullSession
    (ShuffleNull.ofRecords (sampleControls .circularRotation)) :=
  (null_of_controls_iff sampleNullHash (sampleControls .circularRotation) sampleNullSession
    rfl).mpr (by decide)

/-- Three column permutations are a null that S6 is judged by. -/
theorem column_permutations_in_null : ¬∀ (hash : CompactHash) (records : List (Record ℚ))
    (session : Session ℚ), Session.fold hash records = .ok session →
      NullOfControls session (ShuffleNull.ofRecords records) := by
  intro hall
  have hagrees := hall sampleNullHash (sampleControls .columnPermutation) sampleNullSession rfl
  have hlengths := hagrees.observations.length_eq
  exact absurd hlengths (by decide)

end Neoethos
