import Neoethos.RunnerSteps

namespace Neoethos

open Durable Fallible

inductive SweepEvent
  | started (sweep : SweepId)
  | ended (sweep : SweepId) (trialsOffered : Nat)
  deriving DecidableEq

def SweepEvent.startedSweep : SweepEvent → Option SweepId
  | started sweep => some sweep
  | ended _ _ => none

def SweepEvent.trialsOffered : SweepEvent → Nat
  | started _ => 0
  | ended _ trialsOffered => trialsOffered

def Record.sweepEvent {F : Type} : Record F → Option SweepEvent
  | sweepStarted sweep _ _ _ => some (.started sweep)
  | sweepCompleted sweep trialsOffered _ _ => some (.ended sweep trialsOffered)
  | sweepFailed sweep trialsOffered _ => some (.ended sweep trialsOffered)
  | sweepAbandoned sweep trialsOffered _ => some (.ended sweep trialsOffered)
  | _ => none

def sweepEvents {F : Type} (records : List (Record F)) : List SweepEvent :=
  records.filterMap Record.sweepEvent

/-- Sweeps that started and ended one after the other, and perhaps one more that is open. -/
def oneByOne (ended : List (SweepId × Nat)) (opened : Option SweepId) : List SweepEvent :=
  ended.flatMap (fun entry => [.started entry.1, .ended entry.1 entry.2]) ++
    opened.toList.map SweepEvent.started

def Course.sweepEvents {F : Type} (course : Course F) : List SweepEvent :=
  oneByOne course.terminalTrials (course.openSweep.map OpenSweep.sweep)

def lastOpened (events : List SweepEvent) : Option SweepId :=
  events.getLast?.bind SweepEvent.startedSweep

def startedSweeps (events : List SweepEvent) : List SweepId :=
  events.filterMap SweepEvent.startedSweep

section Events

variable {F : Type} {records : List (Record F)} {ended : List (SweepId × Nat)}
  {opened : Option SweepId}

theorem nSession_eq_events : nSession records = ((sweepEvents records).map
    SweepEvent.trialsOffered).sum := by
  induction records with
  | nil => rfl
  | cons record records ih =>
    have hnSession : nSession (record :: records) =
        ((Record.sweepEvent record).map SweepEvent.trialsOffered).getD 0 + nSession records := by
      cases record <;> simp [nSession, Record.sweepEvent, SweepEvent.trialsOffered]
    rw [hnSession, ih]
    simp only [sweepEvents, List.filterMap_cons]
    cases Record.sweepEvent record with
    | none => simp
    | some event => simp

theorem trials_oneByOne :
    ((oneByOne ended opened).map SweepEvent.trialsOffered).sum = (ended.map Prod.snd).sum := by
  have hopened : (opened.toList.map fun sweep =>
      (SweepEvent.started sweep).trialsOffered).sum = 0 := by
    cases opened with
    | none => rfl
    | some sweep => rfl
  rw [oneByOne, List.map_append, List.sum_append, List.map_map]
  simp only [Function.comp_def] at hopened ⊢
  rw [hopened, Nat.add_zero]
  induction ended with
  | nil => rfl
  | cons entry ended ih =>
    simp only [List.flatMap_cons, List.map_append, List.sum_append, ih, List.map_cons,
      List.sum_cons]
    simp [SweepEvent.trialsOffered]

theorem started_oneByOne :
    startedSweeps (oneByOne ended opened) = ended.map Prod.fst ++ opened.toList := by
  rw [startedSweeps, oneByOne, List.filterMap_append]
  congr 1
  · induction ended with
    | nil => rfl
    | cons entry ended ih =>
      simp only [List.flatMap_cons, List.filterMap_append, ih, List.map_cons]
      simp [SweepEvent.startedSweep]
  · cases opened with
    | none => rfl
    | some sweep => rfl

theorem lastOpened_oneByOne : lastOpened (oneByOne ended opened) = opened := by
  cases opened with
  | some sweep => simp [lastOpened, oneByOne, SweepEvent.startedSweep]
  | none =>
    induction ended using List.reverseRecOn with
    | nil => rfl
    | append_singleton ended entry ih => simp [lastOpened, oneByOne, SweepEvent.startedSweep]

theorem mem_oneByOne_ended {sweep : SweepId} {trialsOffered : Nat} :
    SweepEvent.ended sweep trialsOffered ∈ oneByOne ended opened ↔
      (sweep, trialsOffered) ∈ ended := by
  simp [oneByOne, List.mem_flatMap]

theorem sweepEvents_snoc {record : Record F} :
    sweepEvents (records ++ [record]) = sweepEvents records ++ record.sweepEvent.toList := by
  rw [sweepEvents, List.filterMap_append, sweepEvents]
  cases hevent : record.sweepEvent with
  | none => simp [hevent]
  | some event => simp [hevent]

theorem oneByOne_close {sweep : SweepId} {trialsOffered : Nat} :
    oneByOne (ended ++ [(sweep, trialsOffered)]) none =
      oneByOne ended (some sweep) ++ [.ended sweep trialsOffered] := by
  simp [oneByOne]

end Events

section Apply

variable {F : Type} [FloatOps F] {hash : CompactHash} {session session' : Session F}
  {record : Record F}

omit [FloatOps F] in
theorem EndsSweep.events {sweep : SweepId} {trialsOffered : Nat}
    (h : EndsSweep session session' sweep trialsOffered) :
    session'.course.sweepEvents = session.course.sweepEvents ++ [.ended sweep trialsOffered] ∧
      session'.highestSweep = session.highestSweep := by
  obtain ⟨opened, census, outcome, perSearch, wallMs, hopened, rfl, rfl⟩ := h
  refine ⟨?_, rfl⟩
  have hcourse : session.course.sweepEvents =
      oneByOne session.terminalTrials (some opened.sweep) := by
    simp [Course.sweepEvents, Session.course, hopened]
  rw [hcourse]
  exact oneByOne_close

theorem apply_events (h : session.apply hash record = .ok session') :
    session'.course.sweepEvents = session.course.sweepEvents ++ record.sweepEvent.toList ∧
      session.highestSweep ≤ session'.highestSweep ∧
      ∀ sweep, record.sweepEvent = some (.started sweep) → sweep ≤ session'.highestSweep := by
  have hended {sweep : SweepId} {trialsOffered : Nat}
      (hevent : record.sweepEvent = some (.ended sweep trialsOffered))
      (hends : EndsSweep session session' sweep trialsOffered) :
      session'.course.sweepEvents = session.course.sweepEvents ++ record.sweepEvent.toList ∧
        session.highestSweep ≤ session'.highestSweep ∧
        ∀ sweep, record.sweepEvent = some (.started sweep) → sweep ≤ session'.highestSweep := by
    obtain ⟨hevents, hhighest⟩ := hends.events
    refine ⟨?_, hhighest.ge, ?_⟩
    · rw [hevents, hevent]
      rfl
    · intro other hother
      rw [hevent] at hother
      cases hother
  have hsame (hevent : record.sweepEvent = none)
      (hcourse : session'.course.sweepEvents = session.course.sweepEvents)
      (hhighest : session.highestSweep ≤ session'.highestSweep) :
      session'.course.sweepEvents = session.course.sweepEvents ++ record.sweepEvent.toList ∧
        session.highestSweep ≤ session'.highestSweep ∧
        ∀ sweep, record.sweepEvent = some (.started sweep) → sweep ≤ session'.highestSweep := by
    refine ⟨?_, hhighest, ?_⟩
    · rw [hcourse, hevent, Option.toList_none, List.append_nil]
    · intro other hother
      rw [hevent] at hother
      cases hother
  by_cases hquiet : record.isQuiet = true
  · obtain ⟨hcourse, hhighest⟩ := apply_quiet hquiet h
    refine hsame ?_ (by rw [hcourse]) hhighest
    cases record <;> simp_all [Record.isQuiet, Record.sweepEvent]
  cases record with
  | sweepCompleted sweep trialsOffered perSearch wallMs =>
    exact hended rfl (applySweepCompleted_ends h)
  | sweepFailed sweep trialsOffered error => exact hended rfl (applySweepFailed_ends h)
  | sweepAbandoned sweep trialsOffered reason => exact hended rfl (applySweepAbandoned_ends h)
  | sweepStarted sweep sweepHash kind startedMs =>
    simp only [Session.apply, Session.applySweepStarted] at h
    split at h
    next => cases h
    next hopen =>
      obtain rfl := Except.ok.inj h
      refine ⟨?_, le_max_left _ _, ?_⟩
      · simp [Course.sweepEvents, Session.course, Session.noteSweep, hopen, oneByOne,
          Record.sweepEvent]
      · intro other hother
        cases hother
        exact le_max_right _ _
  | shuffleControlCompleted block kind tau sourceSweep trialsOffered eScreenPess dsr =>
    obtain rfl := Except.ok.inj h
    unfold Session.applyShuffleControlCompleted
    cases eScreenPess with
    | none => exact hsame rfl rfl (le_refl _)
    | some e => exact hsame rfl rfl (le_refl _)
  | blockJudged block deltaExpectancy pBlock dsrGap indistinguishable =>
    obtain rfl := Except.ok.inj h
    exact hsame rfl rfl (le_refl _)
  | posteriorRetracted block sweepIds reason =>
    obtain rfl := Except.ok.inj h
    exact hsame rfl rfl (le_refl _)
  | _ => exact absurd rfl hquiet

theorem fold_events {records : List (Record F)} (h : Session.fold hash records = .ok session) :
    session.course.sweepEvents = sweepEvents records ∧
      ∀ sweep ∈ startedSweeps (sweepEvents records), sweep ≤ session.highestSweep := by
  induction records using List.reverseRecOn generalizing session with
  | nil =>
    obtain rfl := Except.ok.inj h
    exact ⟨rfl, fun _ hsweep => nomatch hsweep⟩
  | append_singleton records record ih =>
    obtain ⟨earlier, hearlier, happly⟩ := foldlM_snoc_ok_iff.mp h
    obtain ⟨hevents, hhighest⟩ := ih hearlier
    obtain ⟨hstep, hmono, hstarted⟩ := apply_events happly
    rw [sweepEvents_snoc, hstep, hevents]
    refine ⟨rfl, ?_⟩
    intro sweep hsweep
    rw [startedSweeps, List.filterMap_append, List.mem_append] at hsweep
    rcases hsweep with hsweep | hsweep
    · exact (hhighest sweep hsweep).trans hmono
    · apply hstarted
      obtain ⟨event, hevent, hsweep⟩ := List.mem_filterMap.mp hsweep
      rw [Option.mem_toList] at hevent
      cases event with
      | started other =>
        obtain rfl := Option.some.inj hsweep
        exact hevent
      | ended other trialsOffered => cases hsweep

end Apply

end Neoethos
