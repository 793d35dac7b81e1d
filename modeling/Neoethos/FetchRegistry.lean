import Mathlib.Algebra.Order.Ring.Nat
import Mathlib.Logic.Function.Basic
import Neoethos.Machine

/-! `HistoricalFetchRegistry` of `ctrader_historical_admission.rs`: one fetch at a time, with
its cancellation and its publication. -/

namespace Neoethos

/-- `u64::MAX`. -/
def runIdMax : Nat := 2 ^ 64 - 1

inductive HistoricalFetchPhase
  | capturing
  | cancellationRequested
  | publicationInProgress
  deriving DecidableEq

inductive HistoricalFetchStartError
  | alreadyActive (activeRunId : Nat)
  | runIdOverflow
  deriving DecidableEq

inductive HistoricalFetchCancelOutcome
  | cancelled (runId : Nat)
  | publicationInProgress (runId : Nat)
  | staleRun (requestedRunId activeRunId : Nat)
  | noActiveFetch
  deriving DecidableEq

inductive HistoricalPublicationStartError
  | cancelled
  | registrationLost (runId : Nat)
  | alreadyInProgress (runId : Nat)
  deriving DecidableEq

structure RegisteredHistoricalFetch where
  runId : Nat
  phase : HistoricalFetchPhase
  deriving DecidableEq

/-- The registry and the cancellation tokens. A run has one token, shared by its registration,
its guard and the requests it makes, so the tokens go by the id of their run. -/
structure HistoricalFetchRegistry where
  nextRunId : Nat
  active : Option RegisteredHistoricalFetch
  isCancelled : Nat → Bool

namespace HistoricalFetchRegistry

def new : HistoricalFetchRegistry := ⟨1, none, fun _ => false⟩

def tryStart (registry : HistoricalFetchRegistry) :
    Except HistoricalFetchStartError (Nat × HistoricalFetchRegistry) :=
  match registry.active with
  | some active => .error (.alreadyActive active.runId)
  | none =>
    let runId := registry.nextRunId
    if runIdMax < runId + 1 then .error .runIdOverflow
    else .ok (runId, {
      nextRunId := runId + 1
      active := some ⟨runId, .capturing⟩
      isCancelled := Function.update registry.isCancelled runId false })

/-- `HistoricalRequestCancellation::cancel`. -/
def cancel (registry : HistoricalFetchRegistry) (runId : Nat) : HistoricalFetchRegistry :=
  { registry with isCancelled := Function.update registry.isCancelled runId true }

def cancelRun (registry : HistoricalFetchRegistry) (requestedRunId : Nat) :
    HistoricalFetchCancelOutcome × HistoricalFetchRegistry :=
  match registry.active with
  | none => (.noActiveFetch, registry)
  | some active =>
    if active.runId ≠ requestedRunId then (.staleRun requestedRunId active.runId, registry)
    else match active.phase with
      | .publicationInProgress => (.publicationInProgress active.runId, registry)
      | .capturing | .cancellationRequested =>
        (.cancelled active.runId, { registry.cancel active.runId with
          active := some { active with phase := .cancellationRequested } })

/-- `begin_publication` on the guard of run `runId`; the value is the id of the permit. -/
def beginPublication (registry : HistoricalFetchRegistry) (runId : Nat) :
    Except HistoricalPublicationStartError Nat × HistoricalFetchRegistry :=
  match registry.active with
  | none => (.error (.registrationLost runId), registry)
  | some active =>
    if active.runId ≠ runId then (.error (.registrationLost runId), registry)
    else match active.phase with
      | .capturing =>
        if registry.isCancelled runId then (.error .cancelled, registry)
        else (.ok runId, { registry with
          active := some { active with phase := .publicationInProgress } })
      | .cancellationRequested => (.error .cancelled, registry)
      | .publicationInProgress => (.error (.alreadyInProgress runId), registry)

/-- `Drop for HistoricalPublicationPermit`. -/
def dropPermit (registry : HistoricalFetchRegistry) (runId : Nat) : HistoricalFetchRegistry :=
  match registry.active with
  | none => registry
  | some active =>
    if active.runId = runId ∧ active.phase = .publicationInProgress then
      { registry with active := some { active with phase := .capturing } }
    else registry

/-- `Drop for ActiveHistoricalFetch`. -/
def dropFetch (registry : HistoricalFetchRegistry) (runId : Nat) : HistoricalFetchRegistry :=
  if registry.active.any (·.runId == runId) then { registry with active := none } else registry

def registration (registry : HistoricalFetchRegistry) (runId : Nat) :
    Option RegisteredHistoricalFetch :=
  registry.active.filter (·.runId == runId)

end HistoricalFetchRegistry

/-- The registry with the guards and permits that are alive. A call of `try_start_queued`
holds its guard while `submit` runs, without the lock; it also remembers here what `active`
was before the call. -/
structure FetchSystem where
  registry : HistoricalFetchRegistry
  guards : List Nat
  submitting : List (Nat × Option RegisteredHistoricalFetch)
  permits : List Nat

inductive FetchAction
  | tryStart
  | tryStartQueued
  | submitReturns (runId : Nat) (accepted : Bool)
  | cancelRun (requestedRunId : Nat)
  | cancelToken (runId : Nat)
  | beginPublication (runId : Nat)
  | dropFetch (runId : Nat)
  | dropPermit (runId : Nat)
  deriving DecidableEq

inductive FetchEvent
  | started (result : Except HistoricalFetchStartError Nat)
  | submitted (runId : Nat) (accepted : Bool)
  | cancelAnswered (requestedRunId : Nat) (outcome : HistoricalFetchCancelOutcome)
  | tokenCancelled (runId : Nat)
  | publicationAnswered (runId : Nat) (result : Except HistoricalPublicationStartError Nat)
  | fetchDropped (runId : Nat)
  | permitDropped (runId : Nat)
  deriving DecidableEq

namespace FetchSystem

def start (s : FetchSystem) (queued : Bool) : FetchEvent × FetchSystem :=
  match s.registry.tryStart with
  | .error e => (.started (.error e), s)
  | .ok (runId, registry) =>
    (.started (.ok runId),
      if queued then
        { s with registry := registry, submitting := (runId, s.registry.active) :: s.submitting }
      else { s with registry := registry, guards := runId :: s.guards })

def permitsAfter (s : FetchSystem) : Except HistoricalPublicationStartError Nat → List Nat
  | .ok permit => permit :: s.permits
  | .error _ => s.permits

/-- One step of some thread; the lock makes every one of them atomic. A permit may outlive its
guard here, which the borrow of the source forbids. -/
def next (s : FetchSystem) : FetchAction → Option (FetchEvent × FetchSystem)
  | .tryStart => some (s.start false)
  | .tryStartQueued => some (s.start true)
  | .submitReturns runId accepted =>
    match s.submitting.find? (·.1 == runId) with
    | none => none
    | some call =>
      if accepted then
        some (.submitted runId true,
          { s with guards := runId :: s.guards, submitting := s.submitting.erase call })
      else
        some (.submitted runId false,
          { s with registry := s.registry.dropFetch runId, submitting := s.submitting.erase call })
  | .cancelRun requestedRunId =>
    let (outcome, registry) := s.registry.cancelRun requestedRunId
    some (.cancelAnswered requestedRunId outcome, { s with registry := registry })
  | .cancelToken runId => some (.tokenCancelled runId, { s with registry := s.registry.cancel runId })
  | .beginPublication runId =>
    if runId ∈ s.guards then
      let (result, registry) := s.registry.beginPublication runId
      some (.publicationAnswered runId result, { s with
        registry := registry
        permits := s.permitsAfter result })
    else none
  | .dropFetch runId =>
    if runId ∈ s.guards then
      some (.fetchDropped runId,
        { s with registry := s.registry.dropFetch runId, guards := s.guards.erase runId })
    else none
  | .dropPermit runId =>
    if runId ∈ s.permits then
      some (.permitDropped runId,
        { s with registry := s.registry.dropPermit runId, permits := s.permits.erase runId })
    else none

end FetchSystem

def fetchMachine : Machine FetchSystem FetchAction FetchEvent where
  start := ⟨HistoricalFetchRegistry.new, [], [], []⟩
  next := FetchSystem.next

end Neoethos
