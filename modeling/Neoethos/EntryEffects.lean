import Neoethos.EntryWorld

namespace Neoethos

namespace EntryStore

/-- The intent and its marker stay in memory; the file stays, or takes over what memory holds. -/
def Quiet (s s' : EntryStore) : Prop :=
  s'.memory.unresolvedIntent = s.memory.unresolvedIntent ∧
    s'.memory.currentSubmissionMarker = s.memory.currentSubmissionMarker ∧
    (s'.file = s.file ∨ s'.file = some (.v2 s'.memory.checkpoint))

theorem Quiet.refl (s : EntryStore) : Quiet s s := ⟨rfl, rfl, .inl rfl⟩

/-- A commit wrote the next memory, or returned its error with the file as it was. -/
theorem commit_cases {α : Type} (s : EntryStore) (next fallback : AccountEntryAuthority)
    (value : α) (writes : Bool) :
    writes = true ∧ s.commit next fallback value writes =
        (⟨next, some (.v2 next.checkpoint)⟩, .ok value) ∨
      writes = false ∧ s.commit next fallback value writes =
        (⟨fallback, s.file⟩, .error .statePersistence) := by
  unfold commit
  cases writes with
  | true => exact .inl ⟨rfl, rfl⟩
  | false => exact .inr ⟨rfl, rfl⟩

theorem commit_quiet {α : Type} {s : EntryStore} {next fallback : AccountEntryAuthority}
    {value : α} {writes : Bool}
    (hnext : next.unresolvedIntent = s.memory.unresolvedIntent ∧
      next.currentSubmissionMarker = s.memory.currentSubmissionMarker)
    (hfallback : fallback.unresolvedIntent = s.memory.unresolvedIntent ∧
      fallback.currentSubmissionMarker = s.memory.currentSubmissionMarker) :
    Quiet s (s.commit next fallback value writes).1 := by
  obtain ⟨_, h⟩ | ⟨_, h⟩ := s.commit_cases next fallback value writes
  · rw [h]
    exact ⟨hnext.1, hnext.2, .inr rfl⟩
  · rw [h]
    exact ⟨hfallback.1, hfallback.2, .inl rfl⟩

theorem prepareDay_quiet (s : EntryStore) (dayId : Nat) (writes : Bool) :
    Quiet s (s.prepareDay dayId writes).1 := by
  unfold prepareDay
  split
  next => exact .refl s
  next =>
    split
    next => exact .refl s
    next => exact commit_quiet ⟨rfl, rfl⟩ ⟨rfl, rfl⟩

theorem tryReserveEntry_quiet (s : EntryStore) (dayId : Nat) (cap : Option Nat) (writes : Bool) :
    Quiet s (s.tryReserveEntry dayId cap writes).1 := by
  unfold tryReserveEntry
  simp only
  split
  next => exact .refl s
  next =>
    split
    next => exact .refl s
    next =>
      split
      next => exact .refl s
      next => exact commit_quiet ⟨rfl, rfl⟩ ⟨rfl, rfl⟩

theorem releaseEntry_quiet (s : EntryStore) (dayId : Nat) (writes : Bool) :
    Quiet s (s.releaseEntry dayId writes).1 := by
  unfold releaseEntry
  simp only
  split
  next => exact .refl s
  next =>
    split
    next => exact .refl s
    next =>
      split
      next => exact .refl s
      next => exact commit_quiet ⟨rfl, rfl⟩ ⟨rfl, rfl⟩

/-- Only the attempt whose marker is bound, and not yet set, clears the intent. -/
theorem releaseUnsentEntry_cases (s : EntryStore) (dayId : Nat) (clientOrderId : String)
    (marker : Nat) (started writes : Bool) :
    let r := s.releaseUnsentEntry dayId clientOrderId marker started writes
    Quiet s r.1 ∨
      started = false ∧ s.memory.currentSubmissionMarker = some marker ∧ r.2.isOk = true := by
  intro r
  have hr : r = s.releaseUnsentEntry dayId clientOrderId marker started writes := rfl
  unfold releaseUnsentEntry at hr
  simp only at hr
  split at hr
  next => exact .inl (by rw [hr]; exact .refl s)
  next hstarted =>
    split at hr
    next => exact .inl (by rw [hr]; exact s.releaseEntry_quiet dayId writes)
    next =>
      split at hr
      next => exact .inl (by rw [hr]; exact .refl s)
      next hproof =>
        rw [not_not] at hproof
        split at hr
        next => exact .inl (by rw [hr]; exact .refl s)
        next =>
          split at hr
          next => exact .inl (by rw [hr]; exact .refl s)
          next =>
            obtain ⟨_, h⟩ | ⟨_, h⟩ := s.commit_cases _ s.memory () writes
            · rw [h] at hr
              exact .inr ⟨by simpa using hstarted, hproof.2.2.2, by rw [hr]; rfl⟩
            · rw [h] at hr
              exact .inl (by rw [hr]; exact .refl s)

/-- The intent of a submission goes to memory, and to the file where the call succeeds. -/
theorem beginSubmission_cases (s : EntryStore) (dayId : Nat) (request : ExecutionRequest)
    (marker : Nat) (started : Bool) (nowUtcMs : Int) (writes : Bool) :
    let r := s.beginSubmission dayId request marker started nowUtcMs writes
    r.1 = s ∧ r.2.isOk = false ∨
      s.memory.unresolvedIntent = none ∧ ∃ intent,
        intent.clientOrderId = EntryWorld.requestClient request ∧
        r.1.memory = { s.memory with
          unresolvedIntent := some intent, currentSubmissionMarker := some marker } ∧
        (r.1.file = some (.v2 r.1.memory.checkpoint) ∨ r.1.file = s.file ∧ r.2.isOk = false) := by
  intro r
  have hr : r = s.beginSubmission dayId request marker started nowUtcMs writes := rfl
  unfold beginSubmission at hr
  split at hr
  next => exact .inl ⟨by rw [hr], by rw [hr]; rfl⟩
  next =>
    split at hr
    next => exact .inl ⟨by rw [hr], by rw [hr]; rfl⟩
    next order horder =>
      split at hr
      next => exact .inl ⟨by rw [hr], by rw [hr]; rfl⟩
      next =>
        split at hr
        next => exact .inl ⟨by rw [hr], by rw [hr]; rfl⟩
        next clientOrderId hclient =>
          unfold beginIntent at hr
          split at hr
          next => exact .inl ⟨by rw [hr], by rw [hr]; rfl⟩
          next =>
            split at hr
            next => exact .inl ⟨by rw [hr], by rw [hr]; rfl⟩
            next hnone =>
              rw [not_not] at hnone
              have hrequest : clientOrderId = EntryWorld.requestClient request := by
                simp [EntryWorld.requestClient, horder, hclient]
              obtain ⟨_, h⟩ | ⟨_, h⟩ := s.commit_cases _ _ () writes
              · rw [h] at hr
                rw [hr]
                exact .inr ⟨hnone.1, _, by exact hrequest, rfl, .inl rfl⟩
              · rw [h] at hr
                rw [hr]
                exact .inr ⟨hnone.1, _, by exact hrequest, rfl, .inr ⟨rfl, rfl⟩⟩

/-- What is recorded of an outcome is its context, unless there is nothing to record it in. -/
theorem recordUnresolvedOutcome_cases (s : EntryStore) (clientOrderId environment : String)
    (outcome : ExecutionOutcome) (writes : Bool) :
    (s.recordUnresolvedOutcome clientOrderId environment outcome writes).1 = s ∨
      ∃ context, s.recordUnresolvedOutcome clientOrderId environment outcome writes =
        s.recordUnresolvedContext clientOrderId context writes := by
  unfold recordUnresolvedOutcome
  split
  next => exact .inl rfl
  next =>
    split
    next => exact .inl rfl
    next => exact .inr ⟨_, rfl⟩

/-- A recorded order id goes to memory, where none or the same was, and maybe to the file. -/
theorem recordUnresolvedContext_cases (s : EntryStore) (clientOrderId : String)
    (context : UnresolvedExecution) (writes : Bool) :
    let r := s.recordUnresolvedContext clientOrderId context writes
    r.1 = s ∧ (r.2.isOk = true → context.acceptedOrderId = none) ∨
      ∃ intent orderId, s.memory.unresolvedIntent = some intent ∧
        context.acceptedOrderId = some orderId ∧
        (intent.acceptedOrderId = none ∨ intent.acceptedOrderId = some orderId) ∧
        r.1.memory = { s.memory with
          unresolvedIntent := some { intent with acceptedOrderId := some orderId } } ∧
        (r.1.file = some (.v2 r.1.memory.checkpoint) ∨ r.1.file = s.file ∧ r.2.isOk = false) := by
  intro r
  have hr : r = s.recordUnresolvedContext clientOrderId context writes := rfl
  unfold recordUnresolvedContext at hr
  split at hr
  next => exact .inl ⟨by rw [hr], by rw [hr]; simp [Except.isOk, Except.toBool]⟩
  next intent hintent =>
    split at hr
    next => exact .inl ⟨by rw [hr], by rw [hr]; simp [Except.isOk, Except.toBool]⟩
    next =>
      split at hr
      next hid => exact .inl ⟨by rw [hr], fun _ => hid⟩
      next orderId hid =>
        split at hr
        next => exact .inl ⟨by rw [hr], by rw [hr]; simp [Except.isOk, Except.toBool]⟩
        next hfree =>
          rw [not_not] at hfree
          refine .inr ⟨intent, orderId, hintent, hid, hfree.2, ?_⟩
          obtain ⟨_, h⟩ | ⟨_, h⟩ := s.commit_cases
            { s.memory with
              unresolvedIntent := some { intent with acceptedOrderId := some orderId } } _ () writes
          · rw [h] at hr
            rw [hr]
            exact ⟨rfl, .inl rfl⟩
          · rw [h] at hr
            rw [hr]
            exact ⟨rfl, .inr ⟨rfl, rfl⟩⟩

/-- A confirmation that fails changes nothing; one that succeeds names the client of the intent. -/
theorem confirmVerifiedOpening_cases (s : EntryStore) (clientOrderId : String)
    (opening : OpeningFillEvidence) (writes : Bool) :
    let r := s.confirmVerifiedOpening clientOrderId opening writes
    r.1 = s ∧ r.2.isOk = false ∨ r.2.isOk = true ∧
      ∃ intent, s.memory.unresolvedIntent = some intent ∧
        intent.clientOrderId = clientOrderId := by
  intro r
  have hr : r = s.confirmVerifiedOpening clientOrderId opening writes := rfl
  unfold confirmVerifiedOpening at hr
  split at hr
  next => exact .inl ⟨by rw [hr], by rw [hr]; rfl⟩
  next intent hintent =>
    split at hr
    next => exact .inl ⟨by rw [hr], by rw [hr]; rfl⟩
    next hsame =>
      rw [not_not] at hsame
      unfold persistVerifiedReference at hr
      split at hr
      next => exact .inl ⟨by rw [hr], by rw [hr]; rfl⟩
      next =>
        obtain ⟨_, h⟩ | ⟨_, h⟩ := s.commit_cases
          { s.memory with
            unresolvedIntent := none
            lastVerifiedEntry := some
              ⟨intent, opening.orderId, opening.positionId, opening.dealId⟩
            currentSubmissionMarker := none } s.memory () writes
        · rw [h] at hr
          exact .inr ⟨by rw [hr]; rfl, intent, hintent, hsame.1⟩
        · rw [h] at hr
          exact .inl ⟨by rw [hr], by rw [hr]; rfl⟩

end EntryStore

end Neoethos
