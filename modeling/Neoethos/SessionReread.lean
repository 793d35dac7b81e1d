import Neoethos.Session

namespace Neoethos

section Numbers

variable {F : Type} [FloatOps F]

/-- An `Option<f64>` written and read: a number that is not finite is written as null. -/
def keepFinite (x : Option F) : Option F :=
  x.filter FloatOps.isFinite

theorem keepFinite_eq_iff (x : Option F) :
    keepFinite x = x ↔ ∀ number ∈ x.toList, FloatOps.isFinite number = true := by
  cases x with
  | none => simp [keepFinite]
  | some number =>
    rw [keepFinite, Option.filter_eq_some_iff]
    simp

end Numbers

/-- The floats of a value. Those of type `f64` are `plain`, the numbers in fields of type
`Option<f64>` are `optional`, and `reread` is what comes back when every plain one is finite. -/
class JsonFloats (F : outParam Type) [FloatOps F] (T : Type) where
  plain : T → List F
  optional : T → List F
  reread : T → T
  reread_eq_iff (value : T) :
    reread value = value ↔ ∀ number ∈ optional value, FloatOps.isFinite number = true

namespace JsonFloats

section Containers

variable {F : Type} [FloatOps F] {T : Type} [JsonFloats F T]

instance : JsonFloats F (List T) where
  plain values := values.flatMap plain
  optional values := values.flatMap optional
  reread values := values.map reread
  reread_eq_iff values := by
    induction values with
    | nil => simp
    | cons value values ih =>
      rw [List.map_cons, List.cons.injEq, ih, reread_eq_iff, List.flatMap_cons,
        List.forall_mem_append]

instance : JsonFloats F (Option T) where
  plain value := value.toList.flatMap plain
  optional value := value.toList.flatMap optional
  reread value := value.map reread
  reread_eq_iff value := by
    cases value with
    | none => simp
    | some value => simp [reread_eq_iff]

end Containers

section Records

variable {F : Type} [FloatOps F]

instance : JsonFloats F (RiskOutcomeRecord F) where
  plain r := [r.riskFraction, r.pReachTarget, r.pRuin, r.medianTerminal, r.meanTerminal]
  optional r := r.medianDaysToTarget.toList
  reread r := { r with medianDaysToTarget := keepFinite r.medianDaysToTarget }
  reread_eq_iff r := by
    rw [← keepFinite_eq_iff]
    cases r
    simp

instance : JsonFloats F (SearchRecord F) where
  plain _ := []
  optional r := r.eScreenPess.toList ++ r.dsr.toList ++ r.pbo.toList
  reread r := { r with
    eScreenPess := keepFinite r.eScreenPess
    dsr := keepFinite r.dsr
    pbo := keepFinite r.pbo }
  reread_eq_iff r := by
    simp only [List.forall_mem_append, ← keepFinite_eq_iff]
    cases r
    simp [and_assoc]

instance : JsonFloats F (ScreenResult F) where
  plain
    | .passed eScreenPess dsr pboSweep excess _ qShuffle95 =>
      [eScreenPess, dsr, pboSweep, excess, qShuffle95]
    | _ => []
  optional _ := []
  reread r := r
  reread_eq_iff r := by simp

instance : JsonFloats F (BestEver F) where
  plain r := [r.eScreenPess]
  optional r := r.dsr.toList ++ r.pbo.toList
  reread r := { r with dsr := keepFinite r.dsr, pbo := keepFinite r.pbo }
  reread_eq_iff r := by
    simp only [List.forall_mem_append, ← keepFinite_eq_iff]
    cases r
    simp

instance : JsonFloats F (ChampionRow F) where
  plain r := r.monthlyReturns ++ [r.eScreenPess]
  optional _ := []
  reread r := r
  reread_eq_iff r := by simp

instance : JsonFloats F (PromotionOutcome F) where
  plain r := [r.goalMetric, r.goalBar] ++ plain r.frontier
  optional r := r.eOosPessPips.toList ++ r.seOosPips.toList ++ r.tStat.toList ++
    r.pboSession.toList ++ optional r.frontier ++ r.bestRiskFraction.toList ++
    r.pRuinAtBest.toList
  reread r := { r with
    eOosPessPips := keepFinite r.eOosPessPips
    seOosPips := keepFinite r.seOosPips
    tStat := keepFinite r.tStat
    pboSession := keepFinite r.pboSession
    frontier := reread r.frontier
    bestRiskFraction := keepFinite r.bestRiskFraction
    pRuinAtBest := keepFinite r.pRuinAtBest }
  reread_eq_iff r := by
    simp only [List.forall_mem_append, ← keepFinite_eq_iff, ← reread_eq_iff]
    cases r
    simp [and_assoc]

instance : JsonFloats F (ShuffleSummary F) where
  plain _ := []
  optional r := r.sessionP.toList ++ r.bestLiveEScreenPess.toList ++
    r.bestShuffleEScreenPess.toList ++ r.qShuffle95.toList
  reread r := { r with
    sessionP := keepFinite r.sessionP
    bestLiveEScreenPess := keepFinite r.bestLiveEScreenPess
    bestShuffleEScreenPess := keepFinite r.bestShuffleEScreenPess
    qShuffle95 := keepFinite r.qShuffle95 }
  reread_eq_iff r := by
    simp only [List.forall_mem_append, ← keepFinite_eq_iff]
    cases r
    simp [and_assoc]

instance : JsonFloats F (Verdict F) where
  plain
    | .goalReached _ _ _ _ frontier => plain frontier
    | _ => []
  optional
    | .goalReached _ _ goalMetric goalBar frontier =>
      goalMetric.toList ++ goalBar.toList ++ optional frontier
    | _ => []
  reread
    | .goalReached sweep slot goalMetric goalBar frontier =>
      .goalReached sweep slot (keepFinite goalMetric) (keepFinite goalBar) (reread frontier)
    | verdict => verdict
  reread_eq_iff r := by
    cases r with
    | goalReached sweep slot goalMetric goalBar frontier =>
      simp only [List.forall_mem_append, ← keepFinite_eq_iff, ← reread_eq_iff]
      simp [and_assoc]
    | goalUnreachableInSearchedSpace => simp
    | inconclusive => simp

instance : JsonFloats F (SessionVerdict F) where
  plain r := plain r.verdict ++ plain r.bestEver ++ plain r.oos
  optional r := optional r.verdict ++ optional r.bestEver ++ optional r.shuffle ++ optional r.oos
  reread r := { r with
    verdict := reread r.verdict
    bestEver := reread r.bestEver
    shuffle := reread r.shuffle
    oos := reread r.oos }
  reread_eq_iff r := by
    simp only [List.forall_mem_append, ← reread_eq_iff]
    cases r
    simp [and_assoc]

/-- A record keeps its tag and every field that holds no float. -/
instance : JsonFloats F (Record F) where
  plain
    | .screened _ _ screenResult _ => plain screenResult
    | .bestEverAdvanced best => plain best
    | .championRecorded row => plain row
    | .shuffleControlCompleted _ _ tau _ _ _ _ => [tau]
    | .blockJudged _ deltaExpectancy pBlock dsrGap _ => [deltaExpectancy, pBlock, dsrGap]
    | .promoted _ goalMetric goalBar frontier => [goalMetric, goalBar] ++ plain frontier
    | .sessionStopped verdict => plain verdict
    | .sweepCompleted _ _ perSearch _ => plain perSearch
    | _ => []
  optional
    | .bestEverAdvanced best => optional best
    | .shuffleControlCompleted _ _ _ _ _ eScreenPess dsr => eScreenPess.toList ++ dsr.toList
    | .promoted _ _ _ frontier => optional frontier
    | .sessionStopped verdict => optional verdict
    | .sweepCompleted _ _ perSearch _ => optional perSearch
    | _ => []
  reread
    | .bestEverAdvanced best => .bestEverAdvanced (reread best)
    | .shuffleControlCompleted block kind tau sourceSweep trialsOffered eScreenPess dsr =>
      .shuffleControlCompleted block kind tau sourceSweep trialsOffered (keepFinite eScreenPess)
        (keepFinite dsr)
    | .promoted sweep goalMetric goalBar frontier =>
      .promoted sweep goalMetric goalBar (reread frontier)
    | .sessionStopped verdict => .sessionStopped (reread verdict)
    | .sweepCompleted sweep trialsOffered perSearch wallMs =>
      .sweepCompleted sweep trialsOffered (reread perSearch) wallMs
    | record => record
  reread_eq_iff r := by
    cases r with
    | bestEverAdvanced best => simp [← reread_eq_iff]
    | shuffleControlCompleted block kind tau sourceSweep trialsOffered eScreenPess dsr =>
      simp only [List.forall_mem_append, ← keepFinite_eq_iff]
      simp
    | promoted sweep goalMetric goalBar frontier => simp [← reread_eq_iff]
    | sessionStopped verdict => simp [← reread_eq_iff]
    | sweepCompleted sweep trialsOffered perSearch wallMs => simp [← reread_eq_iff]
    | _ => simp

end Records

end JsonFloats

section Fold

open Fallible JsonFloats

variable {F : Type} [FloatOps F]

/-- A record read back. Null is refused where a plain `f64` stands. -/
def Record.reread (record : Record F) : Option (Record F) :=
  if ∀ number ∈ plain record, FloatOps.isFinite number = true then some (JsonFloats.reread record)
  else none

def Record.kept (session : Session F) : Record F → List F
  | .bestEverAdvanced best => if advancesBest session.bestEver best then optional best else []
  | .shuffleControlCompleted _ _ _ _ _ eScreenPess _ => eScreenPess.toList
  | .sessionStopped verdict => optional verdict
  | .sweepCompleted _ _ perSearch _ => optional perSearch
  | _ => []

/-- Every `f64` of the record is finite, and so is every number in an `Option<f64>` that the fold
keeps. -/
structure Record.Durable (session : Session F) (record : Record F) : Prop where
  plain : ∀ number ∈ plain record, FloatOps.isFinite number = true
  kept : ∀ number ∈ record.kept session, FloatOps.isFinite number = true

theorem applyBestEverAdvanced_reread (session : Session F) (best : BestEver F) :
    session.applyBestEverAdvanced (reread best) = session.applyBestEverAdvanced best ↔
      ∀ number ∈ (Record.bestEverAdvanced best).kept session,
        FloatOps.isFinite number = true := by
  have hadvances : advancesBest session.bestEver (reread best) =
      advancesBest session.bestEver best := by
    unfold advancesBest
    cases session.bestEver with
    | none => rfl
    | some current => rfl
  have hsweep : (reread best).sweep = best.sweep := rfl
  have hbest : (session.noteSweep best.sweep).bestEver = session.bestEver := rfl
  unfold Session.applyBestEverAdvanced Record.kept
  simp only [hsweep, hbest, hadvances]
  split
  next => rw [← reread_eq_iff, Session.mk.injEq]; simp
  next => simp

theorem applyShuffleControlCompleted_reread (session : Session F) (block : BlockId)
    (sourceSweep : SweepId) (eScreenPess : Option F) :
    session.applyShuffleControlCompleted block sourceSweep (keepFinite eScreenPess) =
        session.applyShuffleControlCompleted block sourceSweep eScreenPess ↔
      ∀ number ∈ eScreenPess.toList, FloatOps.isFinite number = true := by
  rw [← keepFinite_eq_iff]
  constructor
  · intro h
    cases eScreenPess with
    | none => rfl
    | some number =>
      cases hkept : keepFinite (some number) with
      | none =>
        -- an observation has become a refusal
        rw [hkept] at h
        have hlength := congrArg (fun s => s.nullObservations.length) h
        simp [Session.applyShuffleControlCompleted] at hlength
      | some kept =>
        obtain ⟨hsame, _⟩ := Option.filter_eq_some_iff.mp hkept
        rw [hsame]
  · intro h
    rw [h]

theorem applySessionStopped_reread {session session' : Session F} {verdict : SessionVerdict F}
    (h : session.applySessionStopped verdict = .ok session') :
    session.applySessionStopped (reread verdict) = .ok session' ↔
      ∀ number ∈ optional verdict, FloatOps.isFinite number = true := by
  rw [Session.applySessionStopped, check_ok_iff] at h ⊢
  obtain ⟨hstate, h⟩ := h
  obtain rfl := Except.ok.inj h
  rw [← reread_eq_iff]
  constructor
  · intro hsame
    have hstopped := congrArg Session.stopped (Except.ok.inj hsame.2)
    exact Option.some.inj hstopped
  · intro hsame
    rw [hsame]
    exact ⟨hstate, rfl⟩

theorem applySweepCompleted_reread {session session' : Session F} {sweep : SweepId}
    {trialsOffered wallMs : Nat} {perSearch : List (SearchRecord F)}
    (h : session.applySweepCompleted sweep trialsOffered perSearch wallMs = .ok session') :
    session.applySweepCompleted sweep trialsOffered (reread perSearch) wallMs = .ok session' ↔
      ∀ number ∈ JsonFloats.optional perSearch, FloatOps.isFinite number = true := by
  have herrored : (reread perSearch).filterMap
        (fun search => search.error.map fun e => (e, search.configHash)) =
      perSearch.filterMap fun search => search.error.map fun e => (e, search.configHash) := by
    have hmap : reread perSearch = perSearch.map reread := rfl
    rw [hmap, List.filterMap_map]
    rfl
  rw [Session.applySweepCompleted, bind_ok_iff] at h ⊢
  obtain ⟨⟨opened, closed⟩, htake, h⟩ := h
  rw [htake, herrored]
  obtain rfl := Except.ok.inj h
  rw [← reread_eq_iff]
  constructor
  · intro hsame
    obtain ⟨_, htaken, hsame⟩ := hsame
    cases Except.ok.inj htaken
    have hsweeps := congrArg Session.sweeps (Except.ok.inj hsame)
    have hlast := List.append_cancel_left hsweeps
    exact (SweepSummary.mk.inj (List.cons.inj hlast).1).2.2.2.2.2.1
  · intro hsame
    rw [hsame]
    exact ⟨_, rfl, rfl⟩

/-- Where the floats that the fold keeps are finite, and only there, a record that is read back
folds as the record that was written. -/
theorem apply_reread_iff {hash : CompactHash} {session session' : Session F} {record : Record F}
    (h : session.apply hash record = .ok session') :
    session.apply hash (reread record) = .ok session' ↔
      ∀ number ∈ record.kept session, FloatOps.isFinite number = true := by
  have hother (hsame : reread record = record) (hkept : record.kept session = []) :
      session.apply hash (reread record) = .ok session' ↔
        ∀ number ∈ record.kept session, FloatOps.isFinite number = true := by
    rw [hsame, hkept]
    simp [h]
  cases record with
  | bestEverAdvanced best =>
    obtain rfl := Except.ok.inj h
    rw [← applyBestEverAdvanced_reread]
    exact ⟨Except.ok.inj, congrArg Except.ok⟩
  | shuffleControlCompleted block kind tau sourceSweep trialsOffered eScreenPess dsr =>
    obtain rfl := Except.ok.inj h
    rw [Record.kept, ← applyShuffleControlCompleted_reread session block sourceSweep eScreenPess]
    exact ⟨Except.ok.inj, congrArg Except.ok⟩
  | promoted sweep goalMetric goalBar frontier =>
    exact iff_of_true h (by simp [Record.kept])
  | sessionStopped verdict => exact applySessionStopped_reread h
  | sweepCompleted sweep trialsOffered perSearch wallMs => exact applySweepCompleted_reread h
  | _ => exact hother rfl rfl

end Fold

end Neoethos
