import Neoethos.RunnerCount
import Neoethos.SessionBlocks

namespace Neoethos

open Durable Fallible

section Records

variable {F : Type}

def judgedOutcomes (records : List (Record F)) : List (BlockOutcome F) :=
  records.filterMap fun
    | .blockJudged block deltaExpectancy pBlock dsrGap indistinguishable =>
      some ⟨block, deltaExpectancy, pBlock, dsrGap, indistinguishable⟩
    | _ => none

def controlledBlocks (records : List (Record F)) : List BlockId :=
  records.filterMap fun
    | .shuffleControlCompleted block .circularRotation _ _ _ _ _ => some block
    | _ => none

/-- Every complete block has exactly one judgement and exactly one rotation control, the null has
one observation or refusal for each control, and the sweeps of an indistinguishable block are
retracted. -/
structure BlocksClosed (before : List (Record F)) (session : Session F) : Prop where
  judged : ∀ block, (block + 1) * Session.SHUFFLE_PERIOD ≤ session.liveSweepsRun →
    ((judgedOutcomes before).map BlockOutcome.block).count block = 1
  controlled : ∀ block, (block + 1) * Session.SHUFFLE_PERIOD ≤ session.liveSweepsRun →
    (controlledBlocks before).count block = 1
  nulls : session.nullObservations.length + session.nullRefusals = (controlledBlocks before).length
  complete : (controlledBlocks before).length = session.liveSweepsRun / Session.SHUFFLE_PERIOD
  retracted : ∀ outcome ∈ judgedOutcomes before, outcome.indistinguishable = true →
    ∀ summary ∈ session.liveSweepsInBlock outcome.block,
      summary.sweep ∈ session.posterior.retractedSweeps

def Falsified [FloatOps F] (hash : CompactHash) (records : List (Record F)) : Prop :=
  ∀ before sweep sweepHash startedMs after,
    records = before ++ .sweepStarted sweep sweepHash .live startedMs :: after →
    ∃ session, Session.fold hash before = .ok session ∧ BlocksClosed before session

def Record.startsLive : Record F → Bool
  | sweepStarted _ _ kind _ => kind.isLive
  | _ => false

def Record.concernsBlocks : Record F → Bool
  | shuffleControlCompleted _ _ _ _ _ _ _ | blockJudged _ _ _ _ _ => true
  | _ => false

theorem Record.startsLive_of_quiet {record : Record F} (h : record.isQuiet = true) :
    record.startsLive = false := by
  cases record <;> simp_all [Record.isQuiet, Record.startsLive]

theorem Record.concernsBlocks_of_quiet {record : Record F} (h : record.isQuiet = true) :
    record.concernsBlocks = false := by
  cases record <;> simp_all [Record.isQuiet, Record.concernsBlocks]

theorem controlledBlocks_snoc {records : List (Record F)} {record : Record F}
    (h : record.concernsBlocks = false) :
    controlledBlocks (records ++ [record]) = controlledBlocks records := by
  rw [controlledBlocks, List.filterMap_append, controlledBlocks]
  cases record <;> simp_all [Record.concernsBlocks]

theorem judgedOutcomes_snoc {records : List (Record F)} {record : Record F}
    (h : record.concernsBlocks = false) :
    judgedOutcomes (records ++ [record]) = judgedOutcomes records := by
  rw [judgedOutcomes, List.filterMap_append, judgedOutcomes]
  cases record <;> simp_all [Record.concernsBlocks]

variable [FloatOps F] {hash : CompactHash}

theorem fold_judged {records : List (Record F)} {session : Session F}
    (h : Session.fold hash records = .ok session) : session.blocks = judgedOutcomes records := by
  induction records using List.reverseRecOn generalizing session with
  | nil =>
    obtain rfl := Except.ok.inj h
    rfl
  | append_singleton records record ih =>
    obtain ⟨earlier, hearlier, happly⟩ := foldlM_snoc_ok_iff.mp h
    have hblocks := ih hearlier
    have hends {sweep : SweepId} {trialsOffered : Nat}
        (hends : EndsSweep earlier session sweep trialsOffered) :
        session.blocks = earlier.blocks := by
      obtain ⟨_, _, _, _, hcourse, _, _⟩ := hends.course
      exact congrArg Course.blocks hcourse
    by_cases hquiet : record.isQuiet = true
    · rw [judgedOutcomes_snoc (Record.concernsBlocks_of_quiet hquiet), ← hblocks]
      exact congrArg Course.blocks (apply_quiet hquiet happly).course
    cases record with
    | sweepStarted sweep sweepHash kind startedMs =>
      rw [judgedOutcomes_snoc rfl, ← hblocks]
      simp only [Session.apply, Session.applySweepStarted] at happly
      split at happly
      next => cases happly
      next =>
        obtain rfl := Except.ok.inj happly
        rfl
    | sweepCompleted sweep trialsOffered perSearch wallMs =>
      rw [judgedOutcomes_snoc rfl, ← hblocks]
      exact hends (applySweepCompleted_ends happly)
    | sweepFailed sweep trialsOffered error =>
      rw [judgedOutcomes_snoc rfl, ← hblocks]
      exact hends (applySweepFailed_ends happly)
    | sweepAbandoned sweep trialsOffered reason =>
      rw [judgedOutcomes_snoc rfl, ← hblocks]
      exact hends (applySweepAbandoned_ends happly)
    | shuffleControlCompleted block kind tau sourceSweep trialsOffered eScreenPess dsr =>
      obtain rfl := Except.ok.inj happly
      have hsame : judgedOutcomes (records ++ [.shuffleControlCompleted block kind tau sourceSweep
          trialsOffered eScreenPess dsr]) = judgedOutcomes records := by
        simp [judgedOutcomes]
      rw [hsame, ← hblocks]
      unfold Session.applyShuffleControlCompleted
      cases eScreenPess with
      | none => rfl
      | some e => rfl
    | blockJudged block deltaExpectancy pBlock dsrGap indistinguishable =>
      obtain rfl := Except.ok.inj happly
      simp [judgedOutcomes, hblocks]
    | posteriorRetracted block sweepIds reason =>
      obtain rfl := Except.ok.inj happly
      rw [judgedOutcomes_snoc rfl, ← hblocks]
    | _ => exact absurd rfl hquiet

theorem Settled.closed {records : List (Record F)} {session : Session F}
    (hfold : Session.fold hash records = .ok session)
    (h : Settled session.course (controlledBlocks records)) : BlocksClosed records session := by
  obtain ⟨⟨hblocks, hinOrder, hnulls, hdue⟩, hretracted⟩ := h
  have hjudged := fold_judged hfold
  have hlive : session.course.liveSweeps.length = session.liveSweepsRun := rfl
  have hcomplete (block : BlockId)
      (hblock : (block + 1) * Session.SHUFFLE_PERIOD ≤ session.liveSweepsRun) :
      block ∈ List.range session.course.blocks.length := by
    rw [List.mem_range]
    have hdiv : block + 1 ≤ session.course.liveSweeps.length / Session.SHUFFLE_PERIOD :=
      (Nat.le_div_iff_mul_le (by decide)).mpr hblock
    rw [← hdue] at hdiv
    exact hdiv
  refine ⟨?_, ?_, hnulls, ?_, ?_⟩
  · intro block hblock
    rw [← hjudged]
    change (session.course.blocks.map BlockOutcome.block).count block = 1
    rw [hblocks]
    exact List.count_eq_one_of_mem List.nodup_range (hcomplete block hblock)
  · intro block hblock
    rw [hinOrder]
    exact List.count_eq_one_of_mem List.nodup_range (hcomplete block hblock)
  · rw [hinOrder, List.length_range]
    exact hdue
  · rw [← hjudged]
    exact hretracted

theorem Falsified.snoc {records : List (Record F)} {record : Record F}
    (h : Falsified hash records) (hclosed : record.startsLive = true →
      ∃ session, Session.fold hash records = .ok session ∧ BlocksClosed records session) :
    Falsified hash (records ++ [record]) := by
  intro before sweep sweepHash startedMs after hsplit
  induction after using List.reverseRecOn with
  | nil =>
    obtain ⟨rfl, hrecord⟩ := List.append_inj' hsplit rfl
    apply hclosed
    rw [List.singleton_inj.mp hrecord]
    rfl
  | append_singleton after last _ =>
    have hsplit' : records ++ [record] =
        (before ++ .sweepStarted sweep sweepHash .live startedMs :: after) ++ [last] := by
      rw [hsplit]
      simp
    exact h _ _ _ _ _ (List.append_inj' hsplit' rfl).1

theorem Falsified.snoc_quiet {records : List (Record F)} {record : Record F}
    (h : Falsified hash records) (hrecord : record.isQuiet = true) :
    Falsified hash (records ++ [record]) := by
  apply h.snoc
  intro hlive
  rw [Record.startsLive_of_quiet hrecord] at hlive
  cases hlive

end Records

section Conditions

variable {F : Type} [FloatOps F] {hash : CompactHash} {w : Surroundings F hash}

def BlocksKept (s : RunnerState F hash) : Prop :=
  Falsified hash s.records ∧ ∀ session, Session.fold hash s.records = .ok session →
    Tracked session.course (controlledBlocks s.records)

/-- The session in memory is that of the journal, and meets a condition. -/
def InStep (R : Session F → List BlockId → Prop) (s : RunnerState F hash) : Prop :=
  Session.fold hash s.records = .ok s.session ∧ Falsified hash s.records ∧
    R s.session (controlledBlocks s.records)

abbrev OnCourse (R : Course F → List BlockId → Prop) : RunnerState F hash → Prop :=
  InStep fun session controlled => R session.course controlled

variable {R R' : Session F → List BlockId → Prop} {record : Record F} {s : RunnerState F hash}
  {session : Session F}

theorem InStep.kept (hR : ∀ session controlled, R session controlled →
    Tracked session.course controlled) (h : InStep R s) : BlocksKept s := by
  obtain ⟨hfold, hfalsified, hcondition⟩ := h
  refine ⟨hfalsified, ?_⟩
  intro session hsession
  obtain rfl := Except.ok.inj (hfold.symm.trans hsession)
  exact hR _ _ hcondition

theorem fold_add (hfold : Session.fold hash s.records = .ok s.session)
    (happly : s.session.apply hash record = .ok session) :
    Session.fold hash (s.add record session).records = .ok session :=
  foldlM_snoc_ok_iff.mpr ⟨s.session, hfold, happly⟩

theorem kept_refused {e : SessionError} (hfold : Session.fold hash s.records = .ok s.session)
    (hfalsified : Falsified hash (s.records ++ [record]))
    (happly : s.session.apply hash record = .error e) : BlocksKept (s.add record s.session) := by
  refine ⟨hfalsified, ?_⟩
  intro session hsession
  obtain ⟨earlier, hearlier, happlied⟩ := foldlM_snoc_ok_iff.mp hsession
  obtain rfl := Except.ok.inj (hfold.symm.trans hearlier)
  rw [happly] at happlied
  cases happlied

/-- The rule for a record, from what it does to the session. -/
theorem append_inStep (hR' : ∀ session controlled, R' session controlled →
      Tracked session.course controlled)
    (hstart : record.startsLive = true → ∀ session controlled, R session controlled →
      Settled session.course controlled)
    (hstep : ∀ (s : RunnerState F hash) session, InStep R s →
      s.session.apply hash record = .ok session →
      R' session (controlledBlocks (s.records ++ [record]))) :
    Triple BlocksKept (InStep R) (append record : Runner F hash Unit) (fun _ => InStep R')
      BlocksKept := by
  have hfalsified (s : RunnerState F hash) (hs : InStep R s) :
      Falsified hash (s.records ++ [record]) := by
    apply hs.2.1.snoc
    intro hlive
    exact ⟨s.session, hs.1, (hstart hlive _ _ hs.2.2).closed hs.1⟩
  apply append_triple
  · intro s session hs happly
    have hnext : InStep R' (s.add record session) :=
      ⟨fold_add hs.1 happly, hfalsified s hs, hstep s session hs happly⟩
    exact ⟨hnext.kept hR', hnext⟩
  · intro s e hs happly
    have hkept := kept_refused hs.1 (hfalsified s hs) happly
    exact ⟨hkept, hkept⟩

theorem quiet_inStep (hR : ∀ session controlled, R session controlled →
      Tracked session.course controlled)
    (hsame : ∀ session session' controlled, SameCourse session session' → R session controlled →
      R session' controlled) : Quiet BlocksKept (InStep R : RunnerState F hash → Prop) where
  keeps _ := InStep.kept hR
  applied s record session hrecord hs happly := by
    refine ⟨fold_add hs.1 happly, hs.2.1.snoc_quiet hrecord, ?_⟩
    rw [RunnerState.add, controlledBlocks_snoc (Record.concernsBlocks_of_quiet hrecord)]
    exact hsame _ _ _ (apply_quiet hrecord happly) hs.2.2
  refused s record e hrecord hs happly := kept_refused hs.1 (hs.2.1.snoc_quiet hrecord) happly

theorem quiet_course {R : Course F → List BlockId → Prop}
    (hR : ∀ c controlled, R c controlled → Tracked c controlled) :
    Quiet BlocksKept (OnCourse R : RunnerState F hash → Prop) := by
  apply quiet_inStep
  · intro session controlled
    exact hR _ _
  · intro session session' controlled hsame h
    rwa [hsame.course]

/-- A process that only stops the session leaves the blocks as it found them. -/
theorem quiet_kept : Quiet (BlocksKept : RunnerState F hash → Prop) BlocksKept := by
  have hadd (s : RunnerState F hash) (record : Record F) (session : Session F)
      (hrecord : record.isQuiet = true) (hs : BlocksKept s) : BlocksKept (s.add record session) := by
    refine ⟨hs.1.snoc_quiet hrecord, ?_⟩
    intro session hsession
    obtain ⟨earlier, hearlier, happly⟩ := foldlM_snoc_ok_iff.mp hsession
    rw [RunnerState.add, controlledBlocks_snoc (Record.concernsBlocks_of_quiet hrecord),
      (apply_quiet hrecord happly).course]
    exact hs.2 earlier hearlier
  exact ⟨fun _ hs => hs, fun s record session hrecord hs _ => hadd s record session hrecord hs,
    fun s record e hrecord hs _ => hadd s record _ hrecord hs⟩

end Conditions

section Sweeps

variable {F : Type} [FloatOps F] {hash : CompactHash} {w : Surroundings F hash}
  {S S' : Course F → List BlockId → Prop} {kind : SweepKind} {sweep : SweepId}

/-- A condition on the blocks while a sweep of a kind is open. -/
def WhileOpen (S : Course F → List BlockId → Prop) (kind : SweepKind) (c : Course F)
    (controlled : List BlockId) : Prop :=
  S c controlled ∧ c.openSweep.map OpenSweep.kind = some kind

theorem append_ends (hS' : ∀ c controlled, S' c controlled → Tracked c controlled)
    (hclose : ∀ c controlled summary trials, S c controlled → summary.kind = kind →
      S' (c.close summary trials) controlled) {record : Record F} {trialsOffered : Nat}
    (hblocks : record.concernsBlocks = false) (hstart : record.startsLive = false)
    (hends : ∀ session session' : Session F, session.apply hash record = .ok session' →
      EndsSweep session session' sweep trialsOffered) :
    Triple BlocksKept (OnCourse (WhileOpen S kind)) (append record : Runner F hash Unit)
      (fun _ => OnCourse S') BlocksKept := by
  apply append_inStep
  · intro session controlled
    exact hS' _ _
  · intro hlive
    rw [hstart] at hlive
    cases hlive
  · intro s session hs happly
    obtain ⟨opened, summary, hopened, hkind, hcourse, -, -⟩ := (hends _ _ happly).course
    obtain ⟨hcondition, hopen⟩ := hs.2.2
    have hopenKind : opened.kind = kind := by
      have hcourseOpen : s.session.course.openSweep = some opened := hopened
      rw [hcourseOpen] at hopen
      exact Option.some.inj hopen
    rw [controlledBlocks_snoc hblocks, hcourse]
    exact hclose _ _ _ _ hcondition (hkind.trans hopenKind)

theorem blocks_rule (hS : ∀ c controlled, S c controlled → Tracked c controlled)
    (hS' : ∀ c controlled, S' c controlled → Tracked c controlled)
    (hclose : ∀ c controlled summary trials, S c controlled → summary.kind = kind →
      S' (c.close summary trials) controlled) :
    SweepRule (BlocksKept : RunnerState F hash → Prop) (OnCourse S')
      (fun _ => OnCourse (WhileOpen S kind)) sweep where
  running _ := quiet_course fun c controlled h => hS c controlled h.1
  done := quiet_course hS'
  ledger _ _ _ _ hs := hs
  completed _ _ _ := append_ends hS' hclose rfl rfl fun _ _ => applySweepCompleted_ends
  failed := by
    intro s trialsOffered text hs
    apply Triple.start_at (P := OnCourse (WhileOpen S kind)) _ hs
    exact append_ends hS' hclose rfl rfl fun _ _ => applySweepFailed_ends

theorem append_starts (hS : ∀ c controlled, S c controlled → Tracked c controlled)
    (hopen : ∀ c controlled o, S c controlled → S { c with openSweep := o } controlled)
    (hlive : kind.isLive = true → ∀ c controlled, S c controlled → Settled c controlled)
    (sweepHash : String) (startedMs : Int) :
    Triple BlocksKept (OnCourse S)
      (append (.sweepStarted sweep sweepHash kind startedMs) : Runner F hash Unit)
      (fun _ => OnCourse (WhileOpen S kind)) BlocksKept := by
  apply append_inStep
  · intro session controlled h
    exact hS _ _ h.1
  · intro hstart session controlled
    exact hlive hstart _ _
  · intro s session hs happly
    rw [controlledBlocks_snoc rfl]
    simp only [Session.apply, Session.applySweepStarted] at happly
    split at happly
    next => cases happly
    next =>
      obtain rfl := Except.ok.inj happly
      exact ⟨hopen _ _ _ hs.2.2, rfl⟩

theorem runSweep_live (proposals : List Proposal) (tau : Option F) :
    Triple BlocksKept (OnCourse Settled) (w.runSweep sweep .live proposals tau)
      (fun _ => OnCourse Closing) BlocksKept := by
  have hrule : SweepRule (BlocksKept : RunnerState F hash → Prop) (OnCourse Closing)
      (fun _ => OnCourse (WhileOpen (Settled (F := F)) .live)) sweep := by
    apply blocks_rule
    · intro c controlled
      exact Settled.tracked
    · intro c controlled
      exact Closing.tracked
    · intro c controlled summary trials hsettled hkind
      exact hsettled.close_live (by rw [hkind]; rfl)
  refine hrule.runSweep (quiet_course fun _ _ => Settled.tracked) fun _ _ => append_starts ?_ ?_ ?_ _ _
  · intro c controlled
    exact Settled.tracked
  · intro c controlled o hsettled
    exact ⟨hsettled.1.opened o, hsettled.2⟩
  · intro _ c controlled h
    exact h

theorem runSweep_control (control : ControlKind) (source : SweepId) (block : BlockId)
    (proposals : List Proposal) (tau : Option F) :
    Triple BlocksKept (OnCourse (Due block))
      (w.runSweep sweep (.control control source block) proposals tau)
      (fun _ => OnCourse (Due block)) BlocksKept := by
  have hrule : SweepRule (BlocksKept : RunnerState F hash → Prop) (OnCourse (Due block))
      (fun _ => OnCourse (WhileOpen (Due (F := F) block) (.control control source block)))
      sweep := by
    apply blocks_rule
    · intro c controlled
      exact Due.tracked
    · intro c controlled
      exact Due.tracked
    · intro c controlled summary trials hdue hkind
      exact hdue.close_control (by rw [hkind]; rfl)
  refine hrule.runSweep (quiet_course fun _ _ => Due.tracked) fun _ _ => append_starts ?_ ?_ ?_ _ _
  · intro c controlled
    exact Due.tracked
  · intro c controlled o hdue
    exact ⟨hdue.1.opened o, hdue.2.1, hdue.2.2⟩
  · intro hlive
    cases hlive

end Sweeps

section Controls

variable {F : Type} [FloatOps F] {hash : CompactHash} {w : Surroundings F hash}
  {block : BlockId}

theorem append_control (tau : F) (source : SweepId) (trialsOffered : Nat) (e dsr : Option F) :
    Triple BlocksKept (OnCourse (Due block))
      (append (.shuffleControlCompleted block .circularRotation tau source trialsOffered e dsr) :
        Runner F hash Unit)
      (fun _ => OnCourse (Controlled block)) BlocksKept := by
  apply append_inStep
  · intro session controlled
    exact Controlled.tracked
  · intro hlive
    cases hlive
  · intro s session hs happly
    obtain rfl := Except.ok.inj happly
    have hsnoc : controlledBlocks (s.records ++ [.shuffleControlCompleted block .circularRotation
        tau source trialsOffered e dsr]) = controlledBlocks s.records ++ [block] := by
      simp [controlledBlocks]
    rw [hsnoc]
    have hdue : Due block s.session.course (controlledBlocks s.records) := hs.2.2
    unfold Session.applyShuffleControlCompleted
    cases e with
    | none =>
      apply hdue.control
      exact (Nat.add_assoc _ _ _).symm
    | some e =>
      apply hdue.control
      rw [List.length_append]
      exact Nat.add_right_comm _ _ _

theorem append_judged (deltaExpectancy pBlock dsrGap : F) (indistinguishable : Bool) :
    Triple BlocksKept (OnCourse (Controlled block))
      (append (.blockJudged block deltaExpectancy pBlock dsrGap indistinguishable) :
        Runner F hash Unit)
      (fun _ => OnCourse (Judged block indistinguishable)) BlocksKept := by
  apply append_inStep
  · intro session controlled
    exact Judged.tracked
  · intro hlive
    cases hlive
  · intro s session hs happly
    obtain rfl := Except.ok.inj happly
    have hsame : controlledBlocks (s.records ++ [.blockJudged block deltaExpectancy pBlock dsrGap
        indistinguishable]) = controlledBlocks s.records := by
      simp [controlledBlocks]
    rw [hsame]
    have hcontrolled : Controlled block s.session.course (controlledBlocks s.records) := hs.2.2
    let outcome : BlockOutcome F :=
      ⟨block, deltaExpectancy, pBlock, dsrGap, indistinguishable⟩
    have hblock : outcome.block = block := rfl
    exact hcontrolled.judge hblock

/-- The sweeps of the block, as the session has them when the record is written. -/
theorem append_retracted {s : RunnerState F hash} {indistinguishable : Bool}
    (hs : OnCourse (Judged block indistinguishable) s) (reason : String) :
    Triple BlocksKept (· = s)
      (append (.posteriorRetracted block
        ((s.session.liveSweepsInBlock block).map SweepSummary.sweep) reason))
      (fun _ => OnCourse Settled) BlocksKept := by
  have hrule : Triple BlocksKept (InStep fun session controlled =>
        Judged block indistinguishable session.course controlled ∧ session = s.session)
      (append (.posteriorRetracted block
        ((s.session.liveSweepsInBlock block).map SweepSummary.sweep) reason) :
        Runner F hash Unit)
      (fun _ => OnCourse Settled) BlocksKept := by
    apply append_inStep
    · intro session controlled
      exact Settled.tracked
    · intro hlive
      cases hlive
    · intro t session ht happly
      obtain ⟨hjudged, hsession⟩ := ht.2.2
      obtain rfl := Except.ok.inj happly
      rw [controlledBlocks_snoc rfl]
      apply hjudged.retract
      · intro sweep hsweep
        exact (mem_retract _ _ _).mpr (.inl hsweep)
      · intro summary hsummary
        rw [hsession] at hsummary
        exact (mem_retract _ _ _).mpr (.inr (List.mem_map_of_mem hsummary))
  exact hrule.start_at ⟨hs.1, hs.2.1, hs.2.2, rfl⟩

theorem judgeControl_due {source : SweepId} {run : SweepRun F} :
    Triple BlocksKept (OnCourse (Due block)) (w.judgeControl block source run)
      (fun _ => OnCourse Settled) BlocksKept := by
  apply Triple.get_bind
  intro s hs
  refine Triple.bind ((append_control _ _ _ _ _).start_at hs) fun _ => Triple.get_bind ?_
  intro s hs
  refine Triple.bind ((append_judged _ _ _ _).start_at hs) fun _ => ?_
  cases hflag : (judgeBlock s.session block (Surroundings.controlBest run.perSearch).1
      (Surroundings.controlBest run.perSearch).2).indistinguishable with
  | true => exact Triple.get_bind fun s hs => append_retracted hs _
  | false =>
    refine Triple.pure fun t ht => ⟨ht.1, ht.2.1, ?_⟩
    exact Judged.settled ht.2.2

theorem runBlockControl_due {s : RunnerState F hash}
    (hs : OnCourse (Due s.session.blocks.length) s) :
    Triple BlocksKept (· = s) w.runBlockControl (fun _ => OnCourse Settled) BlocksKept := by
  have hquiet : Quiet (BlocksKept : RunnerState F hash → Prop)
      (OnCourse (Due s.session.blocks.length)) := quiet_course fun _ _ => Due.tracked
  apply Triple.get_bind
  intro t ht
  rw [ht]
  exact Triple.start_at (Triple.bind (lift_calm hquiet _) fun _ => Triple.bind (lift_calm hquiet _)
    fun _ => Triple.bind (runSweep_control _ _ _ _ _) fun _ => judgeControl_due) hs

theorem settled_rule : LoopRule w BlocksKept (OnCourse Settled) (OnCourse Closing)
    (fun _ => OnCourse Settled) where
  died := quiet_kept
  between := quiet_course fun _ _ => Settled.tracked
  before _ := quiet_course fun _ _ => Settled.tracked
  after := quiet_course fun _ _ => Closing.tracked
  next _ hs := hs
  live _ proposals := runSweep_live proposals none
  control := by
    intro s hs hdue
    have hclosing : Closing s.session.course (controlledBlocks s.records) := hs.2.2
    rcases hclosing.settled_or_due with ⟨-, hnot⟩ | ⟨hblock, -⟩
    · have hnow := of_decide_eq_true hdue
      exact absurd hnow.2.2 hnot
    · exact runBlockControl_due ⟨hs.1, hs.2.1, hblock⟩
  notDue := by
    intro s hs hdue
    have hclosing : Closing s.session.course (controlledBlocks s.records) := hs.2.2
    rcases hclosing.settled_or_due with ⟨hsettled, -⟩ | ⟨-, hmod, hlive, hlt⟩
    · exact ⟨hs.1, hs.2.1, hsettled⟩
    · exact absurd ⟨hlive, hmod, hlt⟩ (of_decide_eq_false hdue)

end Controls

section Runs

variable {F : Type} [FloatOps F] {hash : CompactHash} {w : Surroundings F hash}

/-- With the open sweep counted as ended, every complete block is judged, and the live sweeps of
every indistinguishable block are retracted. -/
structure ClosedAtOpen (session : Session F) : Prop where
  judged : session.blocks.length = (session.liveSweepsRun +
    if session.openSweep.any (fun opened => opened.kind.isLive) then 1 else 0) /
      Session.SHUFFLE_PERIOD
  retracted : ∀ outcome ∈ session.blocks, outcome.indistinguishable = true →
    ∀ summary ∈ session.liveSweepsInBlock outcome.block,
      summary.sweep ∈ session.posterior.retractedSweeps

def liveStarts (records : List (Record F)) : Nat :=
  records.countP Record.startsLive

/-- A process that starts a live sweep finds the blocks closed when it opens the journal. -/
def FindsBlocksClosed (s : RunnerState F hash) (process : RunnerProcess F hash) : Prop :=
  liveStarts s.records < liveStarts (runnerNext s process).records →
    ∀ opened, s.reopen = some opened → opened.session.stopped = none →
      opened.session.quoteCoverage = none → process.surroundings.dryRun = false →
      ClosedAtOpen opened.session

/-- What holds under a condition on whether the process is to run sweeps. -/
def IfLooping (dryRun : Bool) (Q : Prop) (session : Session F) : Prop :=
  session.stopped = none → session.quoteCoverage = none → dryRun = false → Q

def AtOpen (dryRun : Bool) (session : Session F) (controlled : List BlockId) : Prop :=
  Tracked session.course controlled ∧ IfLooping dryRun (ClosedAtOpen session) session

/-- What it has once the sweep an earlier process died in is ended. -/
def Resumed (dryRun : Bool) (session : Session F) (controlled : List BlockId) : Prop :=
  Tracked session.course controlled ∧
    IfLooping dryRun (Settled session.course controlled) session

theorem append_opened {dryRun : Bool} (header : SessionHeaderRecord) :
    Triple BlocksKept (InStep (AtOpen dryRun))
      (append (.sessionOpened header) : Runner F hash Unit)
      (fun _ => InStep (AtOpen dryRun)) BlocksKept := by
  apply append_inStep
  · intro session controlled h
    exact h.1
  · intro hlive
    cases hlive
  · intro s session hs happly
    rw [controlledBlocks_snoc rfl]
    simp only [Session.apply, Session.applySessionOpened, bind_ok_iff] at happly
    obtain ⟨_, _, _, _, _, _, _, _, happly⟩ := happly
    obtain rfl := Except.ok.inj happly
    obtain ⟨htracked, hloop⟩ := hs.2.2
    refine ⟨htracked, fun hstopped hcoverage hdry => ?_⟩
    exact ⟨(hloop hstopped hcoverage hdry).judged, (hloop hstopped hcoverage hdry).retracted⟩

theorem append_abandoned {dryRun : Bool} {s : RunnerState F hash} {opened : OpenSweep}
    (hs : InStep (AtOpen dryRun) s) (hopened : s.session.openSweep = some opened)
    (trialsOffered : Nat) (reason : String) :
    Triple BlocksKept (· = s)
      (append (.sweepAbandoned opened.sweep trialsOffered reason) : Runner F hash Unit)
      (fun _ => InStep (Resumed dryRun)) BlocksKept := by
  have hrule : Triple BlocksKept (InStep fun session controlled =>
        AtOpen dryRun session controlled ∧ session.openSweep = some opened)
      (append (.sweepAbandoned opened.sweep trialsOffered reason) : Runner F hash Unit)
      (fun _ => InStep (Resumed dryRun)) BlocksKept := by
    apply append_inStep
    · intro session controlled h
      exact h.1
    · intro hlive
      cases hlive
    · intro t session ht happly
      obtain ⟨⟨htracked, hloop⟩, hopen⟩ := ht.2.2
      obtain ⟨found, summary, hfound, hkind, hcourse, hstopped, hcoverage⟩ :=
        (applySweepAbandoned_ends happly).course
      obtain rfl := Option.some.inj (hopen.symm.trans hfound)
      rw [controlledBlocks_snoc rfl]
      refine ⟨?_, fun hstopped' hcoverage' hdry => ?_⟩
      · rw [hcourse]
        exact htracked.close _ _
      · have hclosed := hloop (hstopped.symm.trans hstopped') (hcoverage.symm.trans hcoverage') hdry
        have hjudged := hclosed.judged
        rw [hopen, Option.any_some, ← hkind] at hjudged
        rw [hcourse]
        exact htracked.settled_close hjudged hclosed.retracted
  exact hrule.start_at ⟨hs.1, hs.2.1, hs.2.2, hopened⟩

theorem openOrResume_resumed (dryRun : Bool) :
    Triple BlocksKept (InStep (AtOpen dryRun)) w.openOrResume (fun _ => InStep (Resumed dryRun))
      BlocksKept := by
  refine openOrResume_rule (append_opened _) ?_ ?_ fun s hs => hs.kept fun _ _ h => h.1
  · intro s opened reason hs hopened
    exact append_abandoned hs hopened _ _
  · rintro s ⟨hfold, hfalsified, htracked, hloop⟩ hopened
    refine ⟨hfold, hfalsified, htracked, fun hstopped hcoverage hdry => ?_⟩
    have hclosed := hloop hstopped hcoverage hdry
    have hjudged := hclosed.judged
    rw [hopened] at hjudged
    exact htracked.settled hjudged hclosed.retracted

theorem runUntilBoundary_kept (n : Nat) :
    Triple BlocksKept (InStep (AtOpen w.dryRun)) (w.runUntilBoundary n) (fun _ => BlocksKept)
      BlocksKept := by
  refine runUntilBoundary_rule quiet_kept (openOrResume_resumed w.dryRun)
    (fun s hs => hs.kept fun _ _ h => h.1) n ?_
  intro s hs hstopped hcoverage hdry
  exact (settled_rule.turns n).start_at ⟨hs.1, hs.2.1, hs.2.2.2 hstopped hcoverage hdry⟩

/-- Of so many live starts at least: one more, or the condition. -/
def Unless (n : Nat) (P : RunnerState F hash → Prop) (s : RunnerState F hash) : Prop :=
  n ≤ liveStarts s.records ∧ (n + 1 ≤ liveStarts s.records ∨ P s)

section Idle

variable {s : RunnerState F hash} {n : Nat} {C I P E : RunnerState F hash → Prop} {sweep : SweepId}

omit [FloatOps F] in
theorem liveStarts_snoc {records : List (Record F)} {record : Record F} :
    liveStarts (records ++ [record]) =
      liveStarts records + if record.startsLive = true then 1 else 0 := by
  rw [liveStarts, List.countP_append, List.countP_singleton, liveStarts]

theorem liveStarts_write (s : RunnerState F hash) (w : RunnerWrite F)
    (h : n ≤ liveStarts s.records) : n ≤ liveStarts (DurableStore.write s w).records :=
  h.trans ((records_grow s [w]).sublist.countP_le)

omit [FloatOps F] in
theorem Unless.mono (hs : Unless n I s) (h : ∀ s, I s → C s) : Unless n C s :=
  ⟨hs.1, hs.2.imp_right (h _)⟩

omit [FloatOps F] in
theorem Unless.add {record : Record F} {session : Session F} (hs : Unless n I s)
    (h : I s → C (s.add record session)) : Unless n C (s.add record session) := by
  have hmore : liveStarts s.records ≤ liveStarts (s.add record session).records := by
    rw [RunnerState.add, liveStarts_snoc]
    exact Nat.le_add_right _ _
  exact ⟨hs.1.trans hmore, hs.2.imp (·.trans hmore) h⟩

theorem unless_triple {α : Type} {x : Runner F hash α} {Q : α → RunnerState F hash → Prop}
    (h : Triple C P x Q E) :
    Triple (Unless n C) (Unless n P) x (fun a => Unless n (Q a)) (Unless n E) :=
  (Triple.persistent liveStarts_write).and ((Triple.persistent liveStarts_write).or h)

theorem Quiet.unless (h : Quiet C I) : Quiet (Unless n C) (Unless n I) where
  keeps _ hs := hs.mono h.keeps
  applied s record session hrecord hs happly :=
    hs.add fun hI => h.applied s record session hrecord hI happly
  refused s record e hrecord hs happly :=
    hs.add fun hI => h.refused s record e hrecord hI happly

theorem quiet_false : Quiet C (fun _ => False) :=
  ⟨fun _ hs => hs.elim, fun _ _ _ _ hs => hs.elim, fun _ _ _ _ hs => hs.elim⟩

theorem unless_false {α : Type} {x : Runner F hash α} {Q : α → RunnerState F hash → Prop}
    (hs : Unless n (fun _ => False) s) :
    Triple (Unless n C) (· = s) x (fun a => Unless n (Q a)) (Unless n E) :=
  (unless_triple Triple.of_false).start_at hs

theorem started_rule : SweepRule (Unless n C) (Unless n fun _ => False)
    (fun _ => Unless n fun _ => False) sweep where
  running _ := quiet_false.unless
  done := quiet_false.unless
  ledger _ _ _ _ hs := hs
  completed _ _ _ := unless_triple Triple.of_false
  failed _ _ _ hs := unless_false hs

theorem append_live (sweepHash : String) (startedMs : Int) :
    Triple (Unless n C) (Unless n I)
      (append (.sweepStarted sweep sweepHash .live startedMs) : Runner F hash Unit)
      (fun _ => Unless n fun _ => False) (Unless n C) := by
  have hstarted (s : RunnerState F hash) (session : Session F) (hs : Unless n I s)
      (Q : RunnerState F hash → Prop) :
      Unless n Q (s.add (.sweepStarted sweep sweepHash .live startedMs) session) := by
    have hcount : liveStarts (s.records ++ [.sweepStarted sweep sweepHash .live startedMs]) =
        liveStarts s.records + 1 := by
      rw [liveStarts_snoc]
      rfl
    rw [Unless, RunnerState.add, hcount]
    exact ⟨hs.1.trans (Nat.le_add_right _ _), .inl (Nat.add_le_add_right hs.1 1)⟩
  apply append_triple
  · intro s session hs _
    exact ⟨hstarted s session hs _, hstarted s session hs _⟩
  · intro s e hs _
    exact ⟨hstarted s s.session hs _, hstarted s s.session hs _⟩

theorem idle_blocks_rule : LoopRule w (Unless n BlocksKept) (Unless n (OnCourse Tracked))
    (Unless n fun _ => False) (fun _ => Unless n (OnCourse Tracked)) where
  died := quiet_kept.unless
  between := (quiet_course fun _ _ h => h).unless
  before _ := (quiet_course fun _ _ h => h).unless
  after := quiet_false.unless
  next _ hs := hs
  live _ _ := started_rule.runSweep (quiet_course fun _ _ h => h).unless
    append_live
  control _ hs _ := unless_false hs
  notDue _ hs _ := hs.mono fun _ h => h.elim

/-- Whatever a process finds, it keeps the blocks until it starts a live sweep. -/
theorem runUntilBoundary_unless (turns : Nat) :
    Triple (Unless n BlocksKept) (Unless n (OnCourse Tracked)) (w.runUntilBoundary turns)
      (fun _ => Unless n BlocksKept) (Unless n BlocksKept) := by
  have hopen : Triple (Unless n BlocksKept) (Unless n (OnCourse Tracked)) w.openOrResume
      (fun _ => Unless n (OnCourse Tracked)) (Unless n BlocksKept) := by
    refine (unless_triple (openOrResume_resumed true)).mono ?_ ?_ fun _ hs => hs
    · exact fun s hs => hs.mono fun s h => ⟨h.1, h.2.1, h.2.2, fun _ _ hdry => nomatch hdry⟩
    · exact fun _ s hs => hs.mono fun s h => ⟨h.1, h.2.1, h.2.2.1⟩
  have hkeeps (s : RunnerState F hash) (hs : Unless n (OnCourse Tracked) s) :
      Unless n BlocksKept s := hs.mono fun _ h => h.kept fun _ _ h => h
  refine runUntilBoundary_rule quiet_kept.unless hopen hkeeps turns ?_
  intro s hs _ _ _
  exact (idle_blocks_rule.turns turns).start_at hs

end Idle

theorem runnerNext_kept {s : RunnerState F hash} (h : BlocksKept s)
    {process : RunnerProcess F hash} (hfinds : FindsBlocksClosed s process) :
    BlocksKept (runnerNext s process) := by
  by_cases hstarts : liveStarts s.records < liveStarts (runnerNext s process).records
  · have hclosed := hfinds hstarts
    unfold runnerNext
    split
    next opened _ hopened =>
      obtain ⟨session, hfold, rfl⟩ := reopen_some hopened
      have hopen : InStep (AtOpen process.surroundings.dryRun)
          ({ s with session := session } : RunnerState F hash) :=
        ⟨hfold, h.1, h.2 session hfold, hclosed _ hopened⟩
      exact ((runUntilBoundary_kept process.turns).along _ hopen).take
        (hopen.kept fun _ _ hopen => hopen.1) process.writes
    next => exact h
  · have hunless : Unless (liveStarts s.records) BlocksKept (runnerNext s process) := by
      unfold runnerNext
      split
      next opened _ hopened =>
        obtain ⟨session, hfold, rfl⟩ := reopen_some hopened
        have hopen : Unless (liveStarts s.records) (OnCourse Tracked)
            ({ s with session := session } : RunnerState F hash) :=
          ⟨le_rfl, .inr ⟨hfold, h.1, h.2 session hfold⟩⟩
        exact ((runUntilBoundary_unless process.turns).along _ hopen).take
          (hopen.mono fun _ hs => hs.kept fun _ _ h => h) process.writes
      next => exact ⟨le_rfl, .inr h⟩
    exact hunless.2.resolve_left fun hmore => hstarts hmore

/-- If every process that starts a live sweep finds the blocks closed, every live sweep starts with
the blocks closed. -/
theorem run_falsified {es : List Unit} {s : RunnerState F hash}
    (h : (runnerMachine F hash).RunUnder FindsBlocksClosed es s) : Falsified hash s.records := by
  refine And.left (Machine.RunUnder.state_invariant (I := BlocksKept) ?_ ?_ h)
  · refine ⟨?_, ?_⟩
    · intro before sweep sweepHash startedMs after hsplit
      simp [runnerMachine] at hsplit
    · intro session hsession
      obtain rfl := Except.ok.inj hsession
      exact ⟨0, 0, ⟨rfl, rfl, rfl, (Nat.zero_div _).symm⟩, Nat.zero_le _, Nat.zero_le _⟩
  · intro s process e s' hs hfinds hnext
    obtain ⟨_, rfl⟩ := Prod.mk.inj (Option.some.inj hnext)
    exact runnerNext_kept hs hfinds

end Runs

section Sample

/-- A live sweep starts after so many records with a complete block and no judgement. -/
def startsUnjudged {F : Type} [FloatOps F] (hash : CompactHash) (records : List (Record F))
    (n : Nat) : Bool :=
  match records.drop n, Session.fold hash (records.take n) with
  | .sweepStarted _ _ .live _ :: _, .ok session =>
    decide (Session.SHUFFLE_PERIOD ≤ session.liveSweepsRun) &&
      (judgedOutcomes (records.take n)).isEmpty
  | _, _ => false

theorem startsUnjudged.not_falsified {F : Type} [FloatOps F] {hash : CompactHash}
    {records : List (Record F)} {n : Nat} (h : startsUnjudged hash records n = true) :
    ¬Falsified hash records := by
  intro hfalsified
  unfold startsUnjudged at h
  split at h
  next sweep sweepHash startedMs after session hdrop hfold =>
    obtain ⟨found, hfound, hclosed⟩ := hfalsified (records.take n) sweep sweepHash startedMs after
      (by rw [← hdrop, List.take_append_drop])
    obtain rfl := Except.ok.inj (hfold.symm.trans hfound)
    rw [Bool.and_eq_true, decide_eq_true_eq, List.isEmpty_iff] at h
    have hone := hclosed.judged 0 (by rw [Nat.zero_add, Nat.one_mul]; exact h.1)
    rw [h.2] at hone
    exact absurd hone (by simp)
  next => cases h

def sampleUnjudgedProcesses : List (RunnerProcess ℚ sampleTouchHash) :=
  [⟨sampleSurroundings 9 (some 1), 4, 23⟩, ⟨sampleSurroundings 9 (some 1), 1, 9⟩]

/-- A process dies right after the fourth live sweep, before its control; the next one starts a
fifth, and the block is never judged. -/
theorem unjudged_block_after_crash : ¬∀ (F : Type) [FloatOps F] (hash : CompactHash)
    (es : List Unit) (s : RunnerState F hash), (runnerMachine F hash).Run es s →
    Falsified hash s.records := by
  intro hfalsified
  have hrun := Machine.run_of_exec_start (M := runnerMachine ℚ sampleTouchHash)
    sampleUnjudgedProcesses (fun _ s => startsUnjudged sampleTouchHash s.records 20)
    (by decide +kernel)
  obtain ⟨es, s, hs, hp⟩ := hrun
  exact startsUnjudged.not_falsified hp (hfalsified _ _ _ _ hs)

/-- A process dies in its second sweep; the next one ends that sweep, runs two more, judges the block
and starts a fifth. -/
def sampleDyingProcess : RunnerProcess ℚ sampleTouchHash :=
  ⟨sampleSurroundings 9 (some 1), 2, 10⟩

def sampleJudgingProcess : RunnerProcess ℚ sampleTouchHash :=
  ⟨sampleSurroundings 9 (some 1), 5, 24⟩

theorem sampleJudged_falsified : ∃ s : RunnerState ℚ sampleTouchHash,
    liveStarts s.records = 5 ∧ (judgedOutcomes s.records).length = 1 ∧
      Falsified sampleTouchHash s.records := by
  let start := (runnerMachine ℚ sampleTouchHash).start
  have hdying : FindsBlocksClosed start sampleDyingProcess := by
    intro _ opened hopened _ _ _
    obtain rfl := Option.some.inj hopened
    exact ⟨by decide, fun _ houtcome => nomatch houtcome⟩
  have hjudging : FindsBlocksClosed (runnerNext start sampleDyingProcess) sampleJudgingProcess := by
    intro _ opened hopened _ _ _
    have hfound : (runnerNext start sampleDyingProcess).reopen.all (fun opened =>
        opened.session.blocks.isEmpty && opened.session.liveSweepsRun == 1 &&
          opened.session.openSweep.any (·.kind.isLive)) = true := by
      decide +kernel
    rw [hopened, Option.all_some, Bool.and_eq_true, Bool.and_eq_true, List.isEmpty_iff,
      beq_iff_eq] at hfound
    obtain ⟨⟨hblocks, hlive⟩, hopen⟩ := hfound
    refine ⟨?_, ?_⟩
    · rw [hblocks, hlive, if_pos hopen]
      rfl
    · intro outcome houtcome
      rw [hblocks] at houtcome
      cases houtcome
  have hrun := Machine.RunUnder.next (Machine.RunUnder.next Machine.RunUnder.start hdying rfl)
    hjudging rfl
  have hrecords : liveStarts (runnerNext (runnerNext start sampleDyingProcess)
        sampleJudgingProcess).records = 5 ∧
      (judgedOutcomes (runnerNext (runnerNext start sampleDyingProcess)
        sampleJudgingProcess).records).length = 1 := by
    decide +kernel
  exact ⟨_, hrecords.1, hrecords.2, run_falsified hrun⟩

end Sample

end Neoethos
