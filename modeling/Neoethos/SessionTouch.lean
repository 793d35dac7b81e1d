import Mathlib.Logic.Equiv.List
import Mathlib.Tactic.DeriveEncodable
import Neoethos.Session

namespace Neoethos

open Fallible

/-- The part of a session that the touch and the handshake are about. -/
structure Handshake (F : Type) where
  opened : Option OpenedHeader
  quoteCoverage : Option QuoteCoverageState
  oosTouchesSpent : Nat
  stopped : Option (SessionVerdict F)

def Session.handshake {F : Type} (session : Session F) : Handshake F :=
  ⟨session.opened, session.quoteCoverage, session.oosTouchesSpent, session.stopped⟩

def SessionHeaderRecord.opened (header : SessionHeaderRecord) : OpenedHeader :=
  ⟨header.sessionId, header.sessionSeed, header.symbol, header.datasetReceipt, header.goalHash,
    header.judgeHash, header.costHash, header.oosWindow, header.scenariosSource,
    header.identitySource⟩

def Record.concernsHandshake {F : Type} : Record F → Bool
  | sessionOpened _ | awaitingQuoteCoverage _ | quoteCoverageReady _ | oosTouchSpent _ _ _
  | sessionStopped _ => true
  | _ => false

section Steps

variable {F : Type} (hash : CompactHash)

/-- The session goes on: it is not stopped, and its window is not spent. -/
def Handshake.Live (view : Handshake F) : Prop :=
  view.stopped = none ∧ view.oosTouchesSpent = 0

inductive HandshakeStep : Handshake F → Record F → Handshake F → Prop
  | opened {view header} : view.opened = none →
      HandshakeStep view (.sessionOpened header) { view with opened := some header.opened }
  | awaiting {view header request} : view.Live → view.opened = some header →
      request.validate hash = .ok () → request.sessionId = header.sessionId →
      request.window = header.oosWindow → request.datasetReceipt = header.datasetReceipt →
      (view.quoteCoverage = none ∨ view.quoteCoverage = some (.awaiting request)) →
      HandshakeStep view (.awaitingQuoteCoverage request)
        { view with quoteCoverage := some (.awaiting request) }
  | ready {view request coverage} : view.Live → coverage.validateAgainst hash request = .ok () →
      (view.quoteCoverage = some (.awaiting request) ∨
        view.quoteCoverage = some (.ready request coverage)) →
      HandshakeStep view (.quoteCoverageReady coverage)
        { view with quoteCoverage := some (.ready request coverage) }
  | touched {view window sweep candidate} : view.oosTouchesSpent = 0 →
      (view.quoteCoverage = none ∨ ∃ request coverage,
        view.quoteCoverage = some (.ready request coverage) ∧ request.window = window ∧
          request.sweep = sweep ∧ request.candidateConfigHash = candidate) →
      HandshakeStep view (.oosTouchSpent window sweep candidate)
        { view with quoteCoverage := none, oosTouchesSpent := 1 }
  | stopped {view verdict} : view.quoteCoverage = none →
      HandshakeStep view (.sessionStopped verdict) { view with stopped := some verdict }
  | other {view record} : record.concernsHandshake = false → HandshakeStep view record view

/-- The session holds the request, or holds it with evidence that has come since. -/
def Handshake.Holds (view : Handshake F) (request : QuoteCoverageRequest)
    (since : List (Record F)) : Prop :=
  view.quoteCoverage = some (.awaiting request) ∨
    ∃ coverage, view.quoteCoverage = some (.ready request coverage) ∧
      .quoteCoverageReady coverage ∈ since ∧ coverage.validateAgainst hash request = .ok ()

theorem Handshake.Holds.snoc {hash : CompactHash} {view : Handshake F} {request : QuoteCoverageRequest}
    {since : List (Record F)} (h : view.Holds hash request since) (record : Record F) :
    view.Holds hash request (since ++ [record]) := by
  rcases h with h | ⟨coverage, hstate, hmem, hvalid⟩
  · exact .inl h
  · exact .inr ⟨coverage, hstate, List.mem_append_left _ hmem, hvalid⟩

end Steps

section Apply

variable {F : Type} {hash : CompactHash} {session session' : Session F}

theorem EndsSweep.handshake {sweep : SweepId} {trialsOffered : Nat}
    (h : EndsSweep session session' sweep trialsOffered) :
    session'.handshake = session.handshake := by
  obtain ⟨_, _, _, _, _, -, -, rfl⟩ := h
  rfl

theorem applyAwaiting_step {request : QuoteCoverageRequest}
    (h : session.applyAwaiting hash request = .ok session') :
    HandshakeStep hash session.handshake (.awaitingQuoteCoverage request) session'.handshake := by
  rw [Session.applyAwaiting, check_ok_iff, bind_ok_iff] at h
  obtain ⟨hvalid, header, hopened, h⟩ := h
  rw [mapError_ok_iff] at hvalid
  rw [require_ok_iff] at hopened
  rw [check_ok_iff, check_ok_iff, refuse_ok_iff, refuse_ok_iff, not_not, not_not,
    Option.isNone_iff_eq_none] at h
  obtain ⟨hlive, ⟨hsession, hwindow, hreceipt⟩, h⟩ := h
  split at h
  next hstate =>
    obtain rfl := Except.ok.inj h
    exact .awaiting hlive hopened hvalid hsession hwindow hreceipt (.inl hstate)
  next existing hstate =>
    split at h
    next hsame =>
      subst hsame
      obtain rfl := Except.ok.inj h
      have hstep : HandshakeStep hash session.handshake (.awaitingQuoteCoverage existing)
          { session.handshake with quoteCoverage := some (.awaiting existing) } :=
        .awaiting hlive hopened hvalid hsession hwindow hreceipt (.inr hstate)
      rw [← hstate] at hstep
      exact hstep
    next => cases h
  next => cases h

theorem applyReady_step {coverage : QuoteCoverageReady}
    (h : session.applyReady hash coverage = .ok session') :
    HandshakeStep hash session.handshake (.quoteCoverageReady coverage) session'.handshake := by
  rw [Session.applyReady, check_ok_iff, refuse_ok_iff, not_not, Option.isNone_iff_eq_none] at h
  obtain ⟨hlive, h⟩ := h
  split at h
  next request hstate =>
    rw [check_ok_iff, mapError_ok_iff] at h
    obtain ⟨hvalid, h⟩ := h
    obtain rfl := Except.ok.inj h
    exact .ready hlive hvalid (.inl hstate)
  next request existing hstate =>
    split at h
    next hsame =>
      subst hsame
      rw [check_ok_iff, mapError_ok_iff] at h
      obtain ⟨hvalid, h⟩ := h
      obtain rfl := Except.ok.inj h
      have hstep : HandshakeStep hash session.handshake (.quoteCoverageReady existing)
          { session.handshake with quoteCoverage := some (.ready request existing) } :=
        .ready hlive hvalid (.inr hstate)
      rw [← hstate] at hstep
      exact hstep
    next => cases h
  next => cases h

theorem applyOosTouchSpent_step {window : OosWindow} {sweep : SweepId} {candidate : String}
    (h : session.applyOosTouchSpent window sweep candidate = .ok session') :
    HandshakeStep hash session.handshake (.oosTouchSpent window sweep candidate)
      session'.handshake := by
  rw [Session.applyOosTouchSpent, check_ok_iff, check_ok_iff, refuse_ok_iff, not_not] at h
  obtain ⟨hunspent, hcheck, h⟩ := h
  obtain rfl := Except.ok.inj h
  refine .touched hunspent ?_
  unfold Session.checkTouch at hcheck
  split at hcheck
  next => cases hcheck
  next request coverage hstate =>
    rw [refuse_ok_iff, not_not] at hcheck
    exact .inr ⟨request, coverage, hstate, hcheck⟩
  next hstate => exact .inl hstate

theorem applySessionOpened_step {header : SessionHeaderRecord}
    (h : session.applySessionOpened header = .ok session') :
    HandshakeStep hash session.handshake (.sessionOpened header) session'.handshake := by
  rw [Session.applySessionOpened, check_ok_iff, refuse_ok_iff, Bool.not_eq_true,
    Option.isSome_eq_false_iff, Option.isNone_iff_eq_none] at h
  obtain ⟨hnone, h⟩ := h
  rw [check_ok_iff, check_ok_iff, check_ok_iff] at h
  obtain rfl := Except.ok.inj h.2.2.2
  exact .opened hnone

theorem applySessionStopped_step {verdict : SessionVerdict F}
    (h : session.applySessionStopped verdict = .ok session') :
    HandshakeStep hash session.handshake (.sessionStopped verdict) session'.handshake := by
  rw [Session.applySessionStopped, check_ok_iff, refuse_ok_iff, Bool.not_eq_true,
    Option.isSome_eq_false_iff, Option.isNone_iff_eq_none] at h
  obtain rfl := Except.ok.inj h.2
  exact .stopped h.1

variable [FloatOps F]

/-- Every record that a session takes is a step of the handshake. -/
theorem apply_handshakeStep {record : Record F} (h : session.apply hash record = .ok session') :
    HandshakeStep hash session.handshake record session'.handshake := by
  have hother (hrecord : record.concernsHandshake = false)
      (hsame : session'.handshake = session.handshake) :
      HandshakeStep hash session.handshake record session'.handshake := by
    rw [hsame]
    exact .other hrecord
  cases record with
  | sessionOpened header => exact applySessionOpened_step h
  | awaitingQuoteCoverage request => exact applyAwaiting_step h
  | quoteCoverageReady coverage => exact applyReady_step h
  | oosTouchSpent window sweep candidate => exact applyOosTouchSpent_step h
  | sessionStopped verdict => exact applySessionStopped_step h
  | proposalDrawn sweep slot proposal origin =>
    obtain rfl := Except.ok.inj h
    exact hother rfl rfl
  | proposalDuplicate sweep slot configHash firstSeenSweep =>
    obtain rfl := Except.ok.inj h
    exact hother rfl rfl
  | proposalRefused sweep slot configHash reason =>
    obtain rfl := Except.ok.inj h
    exact hother rfl rfl
  | sweepStarted sweep sweepHash kind startedMs =>
    simp only [Session.apply, Session.applySweepStarted] at h
    split at h
    next => cases h
    next =>
      obtain rfl := Except.ok.inj h
      exact hother rfl rfl
  | sweepCompleted sweep trialsOffered perSearch wallMs =>
    exact hother rfl (applySweepCompleted_ends h).handshake
  | sweepFailed sweep trialsOffered error =>
    exact hother rfl (applySweepFailed_ends h).handshake
  | sweepAbandoned sweep trialsOffered reason =>
    exact hother rfl (applySweepAbandoned_ends h).handshake
  | screened sweep slot screenResult failingConjunct =>
    obtain rfl := Except.ok.inj h
    exact hother rfl rfl
  | bestEverAdvanced best =>
    obtain rfl := Except.ok.inj h
    apply hother rfl
    unfold Session.applyBestEverAdvanced
    simp only
    split
    next => rfl
    next => rfl
  | championRecorded row =>
    simp only [Session.apply, Session.applyChampionRecorded] at h
    split at h
    next => cases h
    next =>
      obtain rfl := Except.ok.inj h
      exact hother rfl rfl
  | posteriorUpdated sweep credits =>
    obtain rfl := Except.ok.inj h
    exact hother rfl rfl
  | posteriorRetracted block sweepIds reason =>
    obtain rfl := Except.ok.inj h
    exact hother rfl rfl
  | shuffleControlCompleted block kind tau sourceSweep trialsOffered eScreenPess dsr =>
    obtain rfl := Except.ok.inj h
    apply hother rfl
    unfold Session.applyShuffleControlCompleted
    cases eScreenPess with
    | none => rfl
    | some e => rfl
  | blockJudged block deltaExpectancy pBlock dsrGap indistinguishable =>
    obtain rfl := Except.ok.inj h
    exact hother rfl rfl
  | promoted sweep goalMetric goalBar frontier =>
    obtain rfl := Except.ok.inj h
    exact hother rfl rfl
  | promotionRefused sweep failingConjunct =>
    obtain rfl := Except.ok.inj h
    exact hother rfl rfl
  | garbageCollected sweep census =>
    obtain rfl := Except.ok.inj h
    exact hother rfl rfl
  | truncatedTail bytes =>
    obtain rfl := Except.ok.inj h
    exact hother rfl rfl

section Views

variable {view view' : Handshake F} {since : List (Record F)} {request : QuoteCoverageRequest}

omit [FloatOps F]

theorem handshake_awaiting (h : HandshakeStep hash view (.awaitingQuoteCoverage request) view') :
    view'.quoteCoverage = some (.awaiting request) := by
  cases h with
  | awaiting => rfl
  | other hrecord => cases hrecord

theorem handshake_awaiting_before
    (h : HandshakeStep hash view (.awaitingQuoteCoverage request) view') :
    ∃ header, view.Live ∧ view.opened = some header ∧ request.sessionId = header.sessionId ∧
      request.window = header.oosWindow ∧ request.datasetReceipt = header.datasetReceipt ∧
      (view.quoteCoverage = none ∨ view.quoteCoverage = some (.awaiting request)) := by
  cases h with
  | awaiting hlive hopened _ hsession hwindow hreceipt hstate =>
    exact ⟨_, hlive, hopened, hsession, hwindow, hreceipt, hstate⟩
  | other hrecord => cases hrecord

theorem handshake_touched {window : OosWindow} {sweep : SweepId} {candidate : String}
    (h : HandshakeStep hash view (.oosTouchSpent window sweep candidate) view') :
    view.oosTouchesSpent = 0 ∧ (view.quoteCoverage = none ∨ ∃ request coverage,
      view.quoteCoverage = some (.ready request coverage) ∧ request.window = window ∧
        request.sweep = sweep ∧ request.candidateConfigHash = candidate) := by
  cases h with
  | touched hunspent hstate => exact ⟨hunspent, hstate⟩
  | other hrecord => cases hrecord

theorem handshake_touched_ends {window : OosWindow} {sweep : SweepId} {candidate : String}
    (h : HandshakeStep hash view (.oosTouchSpent window sweep candidate) view') : ¬view'.Live := by
  cases h with
  | touched _ _ => exact fun hlive => absurd hlive.2 Nat.one_ne_zero
  | other hrecord => cases hrecord

theorem handshake_stopped_ends {verdict : SessionVerdict F}
    (h : HandshakeStep hash view (.sessionStopped verdict) view') : ¬view'.Live := by
  cases h with
  | stopped _ => exact fun hlive => Option.some_ne_none _ hlive.1
  | other hrecord => cases hrecord

theorem Handshake.Holds.awaiting {other : QuoteCoverageRequest}
    (h : view.Holds hash request since)
    (hstate : view.quoteCoverage = none ∨ view.quoteCoverage = some (.awaiting other)) :
    other = request := by
  rcases h with hheld | ⟨_, hheld, _, _⟩
  · rw [hheld] at hstate
    rcases hstate with hstate | hstate
    · cases hstate
    · cases hstate
      rfl
  · rw [hheld] at hstate
    rcases hstate with hstate | hstate
    · cases hstate
    · cases hstate

theorem Handshake.Holds.touched {window : OosWindow} {sweep : SweepId} {candidate : String}
    (h : view.Holds hash request since)
    (hstate : view.quoteCoverage = none ∨ ∃ request coverage,
      view.quoteCoverage = some (.ready request coverage) ∧ request.window = window ∧
        request.sweep = sweep ∧ request.candidateConfigHash = candidate) :
    ∃ ready, .quoteCoverageReady ready ∈ since ∧ ready.validateAgainst hash request = .ok () ∧
      window = request.window ∧ sweep = request.sweep ∧ candidate = request.candidateConfigHash := by
  rcases hstate with hnone | ⟨other, evidence, hready, rfl, rfl, rfl⟩
  · rcases h with hheld | ⟨_, hheld, _, _⟩
    · rw [hheld] at hnone
      cases hnone
    · rw [hheld] at hnone
      cases hnone
  · rcases h with hheld | ⟨coverage, hheld, hmem, hvalid⟩
    · rw [hheld] at hready
      cases hready
    · rw [hheld] at hready
      cases hready
      exact ⟨_, hmem, hvalid, rfl, rfl, rfl⟩

end Views

end Apply

section Runs

variable {F : Type} [FloatOps F] {hash : CompactHash} {records before between after : List (Record F)}
  {session session' : Session F}

/-- The invariant rule for what a handshake and the records so far have to do with each other. -/
theorem fold_handshake (hash : CompactHash) {I : List (Record F) → Handshake F → Prop}
    (initial : I [] session.handshake)
    (step : ∀ xs view record view', I xs view → HandshakeStep hash view record view' →
      I (xs ++ [record]) view')
    (h : records.foldlM (Session.apply hash) session = .ok session') :
    I records session'.handshake := by
  have hstep (xs : List (Record F)) (record : Record F) (s s' : Session F)
      (hI : I xs s.handshake) (happly : s.apply hash record = .ok s') :
      I (xs ++ [record]) s'.handshake :=
    step xs s.handshake record s'.handshake hI (apply_handshakeStep happly)
  exact foldlM_invariant (I := fun xs s => I xs s.handshake) initial hstep h

def Record.isTouch : Record F → Bool
  | oosTouchSpent _ _ _ => true
  | _ => false

theorem fold_touches (h : Session.fold hash records = .ok session) :
    records.countP Record.isTouch = session.oosTouchesSpent ∧ session.oosTouchesSpent ≤ 1 := by
  refine fold_handshake hash
    (I := fun xs view => xs.countP Record.isTouch = view.oosTouchesSpent ∧
      view.oosTouchesSpent ≤ 1) ⟨rfl, by exact Nat.zero_le 1⟩ ?_ h
  intro xs view record view' hI hstep
  rw [List.countP_append]
  obtain ⟨hcount, hle⟩ := hI
  cases hstep with
  | touched hspent _ =>
    rw [hspent] at hcount
    rw [hcount]
    exact ⟨rfl, le_rfl⟩
  | other hrecord =>
    cases record with
    | oosTouchSpent window sweep candidate => cases hrecord
    | _ => exact ⟨hcount, hle⟩
  | _ => exact ⟨hcount, hle⟩

/-- After a touch or a stop the session stays ended, and takes no record of the handshake. -/
theorem fold_ended (hended : ¬session.handshake.Live)
    (h : records.foldlM (Session.apply hash) session = .ok session') :
    ¬session'.handshake.Live ∧ (∀ request, .awaitingQuoteCoverage request ∉ records) ∧
      ∀ ready, .quoteCoverageReady ready ∉ records := by
  refine fold_handshake hash
    (I := fun xs view => ¬view.Live ∧ (∀ request, .awaitingQuoteCoverage request ∉ xs) ∧
      ∀ ready, .quoteCoverageReady ready ∉ xs) ⟨hended, by simp, by simp⟩ ?_ h
  intro xs view record view' hI hstep
  obtain ⟨hnot, hawaiting, hready⟩ := hI
  have hgrow (hview : ¬view'.Live) (hrequest : ∀ request, record ≠ .awaitingQuoteCoverage request)
      (hevidence : ∀ ready, record ≠ .quoteCoverageReady ready) :
      ¬view'.Live ∧ (∀ request, .awaitingQuoteCoverage request ∉ xs ++ [record]) ∧
        ∀ ready, .quoteCoverageReady ready ∉ xs ++ [record] := by
    refine ⟨hview, ?_, ?_⟩
    · intro request hmem
      rcases List.mem_append.mp hmem with hxs | hlast
      · exact hawaiting request hxs
      · exact hrequest request (List.mem_singleton.mp hlast).symm
    · intro ready hmem
      rcases List.mem_append.mp hmem with hxs | hlast
      · exact hready ready hxs
      · exact hevidence ready (List.mem_singleton.mp hlast).symm
  cases hstep with
  | opened _ => exact hgrow hnot (by simp) (by simp)
  | awaiting hlive _ _ _ _ _ _ => exact absurd hlive hnot
  | ready hlive _ _ => exact absurd hlive hnot
  | touched _ _ => exact hgrow (fun hlive => absurd hlive.2 Nat.one_ne_zero) (by simp) (by simp)
  | stopped _ => exact hgrow (fun hlive => Option.some_ne_none _ hlive.1) (by simp) (by simp)
  | other hrecord =>
    refine hgrow hnot ?_ ?_
    · intro request heq
      rw [heq] at hrecord
      cases hrecord
    · intro ready heq
      rw [heq] at hrecord
      cases hrecord

/-- From its awaiting record on a request is held, and the session does not stop, until the one
touch is spent. -/
theorem fold_holds {request : QuoteCoverageRequest}
    (hawaiting : session.quoteCoverage = some (.awaiting request))
    (h : records.foldlM (Session.apply hash) session = .ok session') :
    session'.oosTouchesSpent ≠ 0 ∨
      (session'.handshake.Holds hash request records ∧
        ∀ verdict, .sessionStopped verdict ∉ records) := by
  refine fold_handshake hash
    (I := fun xs view => view.oosTouchesSpent ≠ 0 ∨
      (view.Holds hash request xs ∧ ∀ verdict, .sessionStopped verdict ∉ xs))
    (.inr ⟨.inl hawaiting, by simp⟩) ?_ h
  intro xs view record view' hI hstep
  rcases hI with hspent | ⟨hholds, hstop⟩
  · left
    cases hstep with
    | touched _ _ => exact Nat.one_ne_zero
    | _ => exact hspent
  have hgo (hrecord : ∀ verdict, record ≠ .sessionStopped verdict)
      (hview : view'.Holds hash request (xs ++ [record])) :
      view'.oosTouchesSpent ≠ 0 ∨ (view'.Holds hash request (xs ++ [record]) ∧
        ∀ verdict, .sessionStopped verdict ∉ xs ++ [record]) := by
    refine .inr ⟨hview, ?_⟩
    intro verdict hmem
    rcases List.mem_append.mp hmem with hxs | hlast
    · exact hstop verdict hxs
    · exact hrecord verdict (List.mem_singleton.mp hlast).symm
  cases hstep with
  | opened _ => exact hgo (by simp) (hholds.snoc _)
  | awaiting _ _ _ _ _ _ hstate =>
    obtain rfl := hholds.awaiting hstate
    exact hgo (by simp) (.inl rfl)
  | @ready other coverage _ hvalid hstate =>
    have hsame : other = request := by
      rcases hholds with hheld | ⟨_, hheld, _, _⟩
      · rw [hheld] at hstate
        rcases hstate with hstate | hstate
        · cases hstate
          rfl
        · cases hstate
      · rw [hheld] at hstate
        rcases hstate with hstate | hstate
        · cases hstate
        · cases hstate
          rfl
    subst hsame
    exact hgo (by simp) (.inr ⟨coverage, rfl, by simp, hvalid⟩)
  | touched _ _ => exact .inl Nat.one_ne_zero
  | stopped hnone =>
    rcases hholds with hheld | ⟨_, hheld, _, _⟩
    · rw [hheld] at hnone
      cases hnone
    · rw [hheld] at hnone
      cases hnone
  | other hrecord =>
    refine hgo ?_ (hholds.snoc _)
    intro verdict heq
    rw [heq] at hrecord
    cases hrecord

theorem fold_same_request {request other : QuoteCoverageRequest}
    (h : Session.fold hash (before ++ .awaitingQuoteCoverage request :: (between ++
      .awaitingQuoteCoverage other :: after)) = .ok session) : other = request := by
  obtain ⟨first, awaiting, _, hfirst, hrest⟩ := foldlM_around_ok_iff.mp h
  obtain ⟨second, awaiting', hbetween, hsecond, _⟩ := foldlM_around_ok_iff.mp hrest
  have hheld : awaiting.quoteCoverage = some (.awaiting request) :=
    handshake_awaiting (applyAwaiting_step hfirst)
  obtain ⟨_, hlive, _, _, _, _, hstate⟩ := handshake_awaiting_before (applyAwaiting_step hsecond)
  rcases fold_holds hheld hbetween with hspent | ⟨hholds, _⟩
  · exact absurd hlive.2 hspent
  · exact hholds.awaiting hstate

theorem fold_oneRequest (h : Session.fold hash records = .ok session)
    {request other : QuoteCoverageRequest} (hrequest : .awaitingQuoteCoverage request ∈ records)
    (hother : .awaitingQuoteCoverage other ∈ records) : request = other := by
  obtain ⟨before, after, rfl⟩ := List.append_of_mem hrequest
  rcases List.mem_append.mp hother with hbefore | hafter
  · obtain ⟨front, back, rfl⟩ := List.append_of_mem hbefore
    rw [List.append_assoc] at h
    exact fold_same_request h
  · rcases List.mem_cons.mp hafter with heq | hback
    · cases heq
      rfl
    · obtain ⟨front, back, rfl⟩ := List.append_of_mem hback
      exact (fold_same_request h).symm

/-- The header that a session is open under is the only one in its journal. -/
theorem fold_opened (h : Session.fold hash records = .ok session) :
    (session.opened = none → ∀ header, .sessionOpened header ∉ records) ∧
      ∀ opened, session.opened = some opened → ∃ header, .sessionOpened header ∈ records ∧
        header.opened = opened ∧ ∀ other, .sessionOpened other ∈ records → other = header := by
  refine fold_handshake hash
    (I := fun xs view => (view.opened = none → ∀ header, .sessionOpened header ∉ xs) ∧
      ∀ opened, view.opened = some opened → ∃ header, .sessionOpened header ∈ xs ∧
        header.opened = opened ∧ ∀ other, .sessionOpened other ∈ xs → other = header)
    ⟨by simp, by intro opened hopened; cases hopened⟩ ?_ h
  intro xs view record view' hI hstep
  obtain ⟨hclosed, hopen⟩ := hI
  have hkeep (hview : view'.opened = view.opened)
      (hrecord : ∀ header, record ≠ .sessionOpened header) :
      (view'.opened = none → ∀ header, .sessionOpened header ∉ xs ++ [record]) ∧
        ∀ opened, view'.opened = some opened → ∃ header, .sessionOpened header ∈ xs ++ [record] ∧
          header.opened = opened ∧
            ∀ other, .sessionOpened other ∈ xs ++ [record] → other = header := by
    have hback (header : SessionHeaderRecord) (hmem : .sessionOpened header ∈ xs ++ [record]) :
        .sessionOpened header ∈ xs := by
      rcases List.mem_append.mp hmem with hxs | hlast
      · exact hxs
      · exact absurd (List.mem_singleton.mp hlast).symm (hrecord header)
    rw [hview]
    refine ⟨fun hnone header hmem => hclosed hnone header (hback header hmem), ?_⟩
    intro opened hopened
    obtain ⟨header, hmem, hheader, hall⟩ := hopen opened hopened
    exact ⟨header, List.mem_append_left _ hmem, hheader, fun other ho => hall other (hback other ho)⟩
  cases hstep with
  | @opened header hnone =>
    refine ⟨fun hnever => absurd hnever (Option.some_ne_none _), ?_⟩
    intro opened hopened
    refine ⟨header, by simp, Option.some.inj hopened, ?_⟩
    intro other hmem
    rcases List.mem_append.mp hmem with hxs | hlast
    · exact absurd hxs (hclosed hnone other)
    · exact Record.sessionOpened.inj (List.mem_singleton.mp hlast)
  | awaiting _ _ _ _ _ _ _ => exact hkeep rfl (by simp)
  | ready _ _ _ => exact hkeep rfl (by simp)
  | touched _ _ => exact hkeep rfl (by simp)
  | stopped _ => exact hkeep rfl (by simp)
  | other hrecord =>
    refine hkeep rfl ?_
    intro header heq
    rw [heq] at hrecord
    cases hrecord

/-- What the records of a session that folds have to do with its one out-of-sample touch. -/
structure OneTouch (hash : CompactHash) (records : List (Record F)) : Prop where
  once : records.countP Record.isTouch ≤ 1
  covered : ∀ before request between window sweep candidate after,
    records = before ++ .awaitingQuoteCoverage request :: (between ++
      .oosTouchSpent window sweep candidate :: after) →
    (∃ ready, .quoteCoverageReady ready ∈ between ∧
      ready.validateAgainst hash request = .ok () ∧
      ∀ other, ready.validateAgainst hash other = .ok () → other = request) ∧
    window = request.window ∧ sweep = request.sweep ∧ candidate = request.candidateConfigHash ∧
    ∀ verdict, .sessionStopped verdict ∉ between
  oneRequest : ∀ request other, .awaitingQuoteCoverage request ∈ records →
    .awaitingQuoteCoverage other ∈ records → request = other
  bound : ∀ before request after, records = before ++ .awaitingQuoteCoverage request :: after →
    ∃ header, .sessionOpened header ∈ before ∧
      (∀ other, .sessionOpened other ∈ records → other = header) ∧
      request.sessionId = header.sessionId ∧ request.datasetReceipt = header.datasetReceipt ∧
      request.window = header.oosWindow
  ended : ∀ before last after, records = before ++ last :: after →
    ((∃ window sweep candidate, last = .oosTouchSpent window sweep candidate) ∨
      ∃ verdict, last = .sessionStopped verdict) →
    (∀ request, .awaitingQuoteCoverage request ∉ after) ∧
      ∀ ready, .quoteCoverageReady ready ∉ after

theorem fold_covered {request : QuoteCoverageRequest} {window : OosWindow} {sweep : SweepId}
    {candidate : String}
    (h : Session.fold hash (before ++ .awaitingQuoteCoverage request :: (between ++
      .oosTouchSpent window sweep candidate :: after)) = .ok session) :
    (∃ ready, .quoteCoverageReady ready ∈ between ∧
      ready.validateAgainst hash request = .ok ()) ∧
    window = request.window ∧ sweep = request.sweep ∧ candidate = request.candidateConfigHash ∧
    ∀ verdict, .sessionStopped verdict ∉ between := by
  obtain ⟨first, awaiting, _, hfirst, hrest⟩ := foldlM_around_ok_iff.mp h
  obtain ⟨second, touched, hbetween, hsecond, _⟩ := foldlM_around_ok_iff.mp hrest
  have hheld : awaiting.quoteCoverage = some (.awaiting request) :=
    handshake_awaiting (applyAwaiting_step hfirst)
  have htouch : HandshakeStep hash second.handshake (.oosTouchSpent window sweep candidate)
      touched.handshake := applyOosTouchSpent_step hsecond
  obtain ⟨hunspent, hstate⟩ := handshake_touched htouch
  rcases fold_holds hheld hbetween with hspent | ⟨hholds, hstop⟩
  · exact absurd hunspent hspent
  obtain ⟨ready, hmem, hvalid, hwindow, hsweep, hcandidate⟩ := hholds.touched hstate
  exact ⟨⟨ready, hmem, hvalid⟩, hwindow, hsweep, hcandidate, hstop⟩

theorem fold_bound {request : QuoteCoverageRequest}
    (h : Session.fold hash (before ++ .awaitingQuoteCoverage request :: after) = .ok session) :
    ∃ header, .sessionOpened header ∈ before ∧
      (∀ other, .sessionOpened other ∈ before ++ .awaitingQuoteCoverage request :: after →
        other = header) ∧
      request.sessionId = header.sessionId ∧ request.datasetReceipt = header.datasetReceipt ∧
      request.window = header.oosWindow := by
  obtain ⟨first, awaiting, hbefore, hfirst, _⟩ := foldlM_around_ok_iff.mp h
  obtain ⟨opened, _, hopened, hsession, hwindow, hreceipt, _⟩ :=
    handshake_awaiting_before (applyAwaiting_step hfirst)
  obtain ⟨header, hmem, rfl, _⟩ := (fold_opened hbefore).2 opened hopened
  have hall := List.mem_append_left (.awaitingQuoteCoverage request :: after) hmem
  refine ⟨header, hmem, ?_, hsession, hreceipt, hwindow⟩
  intro other hother
  cases hfinal : session.opened with
  | none => exact absurd hother ((fold_opened h).1 hfinal other)
  | some last =>
    obtain ⟨only, _, _, honly⟩ := (fold_opened h).2 last hfinal
    rw [honly other hother, honly header hall]

theorem fold_last {last : Record F}
    (h : Session.fold hash (before ++ last :: after) = .ok session)
    (hlast : (∃ window sweep candidate, last = .oosTouchSpent window sweep candidate) ∨
      ∃ verdict, last = .sessionStopped verdict) :
    (∀ request, .awaitingQuoteCoverage request ∉ after) ∧
      ∀ ready, .quoteCoverageReady ready ∉ after := by
  obtain ⟨_, ended, _, happly, hafter⟩ := foldlM_around_ok_iff.mp h
  have hended : ¬ended.handshake.Live := by
    have hstep := apply_handshakeStep happly
    rcases hlast with ⟨_, _, _, rfl⟩ | ⟨_, rfl⟩
    · exact handshake_touched_ends hstep
    · exact handshake_stopped_ends hstep
  exact (fold_ended hended hafter).2

theorem fold_oneTouch (hhash : hash.Injective) (h : Session.fold hash records = .ok session) :
    OneTouch hash records where
  once := by
    obtain ⟨hcount, hle⟩ := fold_touches h
    omega
  covered := by
    intro before request between window sweep candidate after hrecords
    subst hrecords
    obtain ⟨⟨ready, hmem, hvalid⟩, hrest⟩ := fold_covered h
    have hpinned (other : QuoteCoverageRequest)
        (hother : ready.validateAgainst hash other = .ok ()) : other = request :=
      request_eq_of_ready hhash hother hvalid
    exact ⟨⟨ready, hmem, hvalid, hpinned⟩, hrest⟩
  oneRequest := fun _ _ => fold_oneRequest h
  bound := by
    intro before request after hrecords
    subst hrecords
    exact fold_bound h
  ended := by
    intro before last after hrecords hlast
    subst hrecords
    exact fold_last h hlast

end Runs

section Sample

instance encodableChar : Encodable Char :=
  .ofLeftInjection Char.toNat (fun n => some (Char.ofNat n)) (by simp)

instance encodableString : Encodable String :=
  .ofLeftInjection String.toList (fun cs => some (String.ofList cs)) (by simp)

instance encodableUInt8 : Encodable UInt8 :=
  .ofLeftInjection UInt8.toNat (fun n => some (UInt8.ofNat n)) (by simp)

deriving instance Encodable for CTraderEnvironment, CanonicalTimeframe, BarTimestampConvention,
  CanonicalDatasetScope, CanonicalDatasetIdentity, OosWindow, InSampleWindow,
  DirectTimeframeReceipt, DatasetReceipt, QuoteCoverageRequestIdentityMaterial

def sampleTouchIdentity : CanonicalDatasetIdentity :=
  ⟨.cTrader .demo "demo" 1 1, "EURUSD", .h1, .barOpen⟩

def sampleTouchReceipt : DatasetReceipt where
  schema := DATASET_RECEIPT_SCHEMA
  anchorIdentity := sampleTouchIdentity
  directTimeframes := [⟨sampleTouchIdentity, "m", List.replicate 32 1, "g", List.replicate 32 2, 3,
    0, 200⟩]
  inSampleWindow := ⟨0, 100⟩
  oosWindow := ⟨100, 200⟩

def sampleTouchHeader : SessionHeaderRecord where
  sessionId := "ar-1"
  sessionSeed := 1
  goalHash := "goal"
  judgeHash := "judge"
  costHash := "cost"
  goals := []
  scenariosSource := "default"
  judge := []
  costs := []
  oosWindow := ⟨100, 200⟩
  priors := ""
  budget := []
  identitySource := "local"
  symbol := "EURUSD"
  datasetReceipt := sampleTouchReceipt

def sampleTouchRequest : QuoteCoverageRequest where
  schema := QUOTE_COVERAGE_REQUEST_SCHEMA
  sessionId := "ar-1"
  window := ⟨100, 200⟩
  sweep := 1
  slot := 0
  candidateConfigHash := "c"
  datasetReceipt := sampleTouchReceipt
  portfolioIdentitySha256 := "abababababababababababababababababababababababababababababababab"
  effectiveSearchConfigHash := "s"
  batchCount := 1
  geneCount := 1
  fixedStopOnly := true
  requestIdentitySha256 :=
    "6d105adb19868fba57a5ebd1517b8647daaf76c071ea7fd2dfd7294b2c40a0ef"

def sampleTouchReady : QuoteCoverageReady where
  schema := QUOTE_COVERAGE_READY_SCHEMA
  requestIdentitySha256 := sampleTouchRequest.requestIdentitySha256
  sessionId := "ar-1"
  sweep := 1
  slot := 0
  candidateConfigHash := "c"
  coverageReceiptSha256 := "cdcdcdcdcdcdcdcdcdcdcdcdcdcdcdcdcdcdcdcdcdcdcdcdcdcdcdcdcdcdcdcd"
  readyIdentitySha256 :=
    "13c9d19fcd228ee8d79c22c2b7c3c7f999b93c8cc9992eb5fd49b92e96dfcf3c"

def sampleTouchRequestJson : List UInt8 := utf8
  ("\x7b\"schema\":\"neoethos.autoresearch.quote-coverage-request.v1\"," ++
    "\"session_id\":\"ar-1\",\"window\":\x7b\"start_ms\":100,\"end_ms\":200\x7d," ++
    "\"sweep\":1,\"slot\":0,\"candidate_config_hash\":\"c\"," ++
    "\"dataset_receipt\":\x7b\"schema\":\"neoethos.autoresearch.dataset-receipt.v1\"," ++
    "\"anchor_identity\":\"" ++ sampleTouchIdentity.toPathComponent ++ "\"," ++
    "\"direct_timeframes\":[\x7b\"dataset_identity\":\"" ++ sampleTouchIdentity.toPathComponent ++
    "\",\"manifest_schema_id\":\"m\",\"manifest_sha256\":[1,1,1,1,1,1,1,1,1,1,1,1,1,1,1,1,1,1," ++
    "1,1,1,1,1,1,1,1,1,1,1,1,1,1],\"generation_id\":\"g\",\"vortex_sha256\":[2,2,2,2,2,2,2,2,2," ++
    "2,2,2,2,2,2,2,2,2,2,2,2,2,2,2,2,2,2,2,2,2,2,2],\"row_count\":3," ++
    "\"timestamp_start_ms\":0,\"timestamp_end_ms\":200\x7d]," ++
    "\"in_sample_window\":\x7b\"start_ms\":0,\"end_exclusive_ms\":100\x7d," ++
    "\"oos_window\":\x7b\"start_ms\":100,\"end_ms\":200\x7d\x7d," ++
    "\"portfolio_identity_sha256\":\"" ++ sampleTouchRequest.portfolioIdentitySha256 ++ "\"," ++
    "\"effective_search_config_hash\":\"s\",\"batch_count\":1,\"gene_count\":1," ++
    "\"fixed_stop_only\":true\x7d")

def sampleTouchReadyJson : List UInt8 := utf8
  ("\x7b\"schema\":\"neoethos.autoresearch.quote-coverage-ready.v1\"," ++
    "\"request_identity_sha256\":\"" ++ sampleTouchRequest.requestIdentitySha256 ++ "\"," ++
    "\"session_id\":\"ar-1\",\"sweep\":1,\"slot\":0,\"candidate_config_hash\":\"c\"," ++
    "\"coverage_receipt_sha256\":\"" ++ sampleTouchReady.coverageReceiptSha256 ++ "\"\x7d")

/-- The real JSON and the real digests of the sample; elsewhere some numbering. -/
def sampleTouchHash : CompactHash where
  requestMaterialJson material :=
    if material = sampleTouchRequest.toQuoteCoverageRequestIdentityMaterial then
      sampleTouchRequestJson
    else List.replicate (Encodable.encode material) 0
  requestJson request :=
    sampleTouchRequestJson.dropLast ++
      utf8 (",\"request_identity_sha256\":\"" ++ request.requestIdentitySha256 ++ "\"\x7d")
  readyMaterialJson _ := sampleTouchReadyJson
  sha256 bytes :=
    if bytes = REQUEST_ID_DOMAIN ++ sampleTouchRequestJson then
      sampleTouchRequest.requestIdentitySha256
    else if bytes = READY_ID_DOMAIN ++ sampleTouchReadyJson then
      sampleTouchReady.readyIdentitySha256
    else String.ofList (List.replicate (Encodable.encode bytes + 1) 'x')

def sampleTouchRecords : List (Record ℚ) :=
  [.sessionOpened sampleTouchHeader, .awaitingQuoteCoverage sampleTouchRequest,
    .quoteCoverageReady sampleTouchReady, .oosTouchSpent ⟨100, 200⟩ 1 "c"]

/-- A value that a function does not take may stand at one place in it. -/
theorem injective_ite {α β : Type} [DecidableEq α] {f : α → β} {a : α} {value : β}
    (hf : Function.Injective f) (hvalue : ∀ x, f x ≠ value) :
    Function.Injective fun x => if x = a then value else f x := by
  intro x y h
  simp only at h
  split at h
  next hx =>
    split at h
    next hy => exact hx.trans hy.symm
    next => exact absurd h.symm (hvalue y)
  next =>
    split at h
    next => exact absurd h (hvalue x)
    next => exact hf h

theorem sampleTouchHash_injective : sampleTouchHash.Injective where
  sha256 := by
    have hfree (bytes : List UInt8) (digest : String) (hdigest : digest.toList.head? ≠ some 'x') :
        String.ofList (List.replicate (Encodable.encode bytes + 1) 'x') ≠ digest := by
      rintro rfl
      simp [List.replicate_succ] at hdigest
    have hnumber : Function.Injective fun bytes : List UInt8 =>
        String.ofList (List.replicate (Encodable.encode bytes + 1) 'x') := by
      intro bytes other h
      have hlength := congrArg List.length (String.ofList_injective h)
      simp only [List.length_replicate, Nat.add_right_cancel_iff] at hlength
      exact Encodable.encode_injective hlength
    apply injective_ite
    · exact injective_ite hnumber fun bytes => hfree bytes _ (by decide)
    · intro bytes
      split
      next => decide
      next => exact hfree bytes _ (by decide)
  requestMaterialJson := by
    apply injective_ite
    · intro material other h
      have hlength := congrArg List.length h
      simp only [List.length_replicate] at hlength
      exact Encodable.encode_injective hlength
    · intro material h
      have hbrace : sampleTouchRequestJson.head? = some 123 := by decide +kernel
      rw [← h] at hbrace
      cases hn : Encodable.encode material with
      | zero => simp [hn] at hbrace
      | succ n => simp [hn, List.replicate_succ] at hbrace

theorem sampleTouchRecords_oneTouch :
    (∃ session, Session.fold sampleTouchHash sampleTouchRecords = .ok session) ∧
      OneTouch sampleTouchHash sampleTouchRecords := by
  have hfold : (Session.fold sampleTouchHash sampleTouchRecords).toOption.any (fun _ => true) =
      true := by decide +kernel
  obtain ⟨session, hsession, _⟩ := exists_ok_of_any hfold
  exact ⟨⟨session, hsession⟩, fold_oneTouch sampleTouchHash_injective hsession⟩

end Sample

end Neoethos
