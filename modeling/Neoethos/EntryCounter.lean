import Neoethos.EntryEffects

namespace Neoethos

namespace EntryStore

/-- The day and its count stay in memory; the file stays, or takes over what memory holds. -/
def KeepsCount (s s' : EntryStore) : Prop :=
  s'.memory.dayId = s.memory.dayId ∧
    s'.memory.entriesReservedOrFilled = s.memory.entriesReservedOrFilled ∧
    (s'.file = s.file ∨ s'.file = some (.v2 s'.memory.checkpoint))

theorem KeepsCount.refl (s : EntryStore) : KeepsCount s s := ⟨rfl, rfl, .inl rfl⟩

theorem beginSubmission_keepsCount (s : EntryStore) (dayId : Nat) (request : ExecutionRequest)
    (marker : Nat) (started : Bool) (nowUtcMs : Int) (writes : Bool) :
    KeepsCount s (s.beginSubmission dayId request marker started nowUtcMs writes).1 := by
  obtain ⟨hsame, _⟩ | ⟨_, intent, _, hnext, hfile⟩ :=
    s.beginSubmission_cases dayId request marker started nowUtcMs writes
  · rw [hsame]
    exact .refl s
  · exact ⟨by rw [hnext], by rw [hnext], hfile.symm.imp And.left id⟩

theorem recordUnresolvedContext_keepsCount (s : EntryStore) (clientOrderId : String)
    (context : UnresolvedExecution) (writes : Bool) :
    KeepsCount s (s.recordUnresolvedContext clientOrderId context writes).1 := by
  obtain ⟨hsame, _⟩ | ⟨intent, orderId, _, _, _, hnext, hfile⟩ :=
    s.recordUnresolvedContext_cases clientOrderId context writes
  · rw [hsame]
    exact .refl s
  · exact ⟨by rw [hnext], by rw [hnext], hfile.symm.imp And.left id⟩

theorem recordUnresolvedOutcome_keepsCount (s : EntryStore) (clientOrderId environment : String)
    (outcome : ExecutionOutcome) (writes : Bool) :
    KeepsCount s (s.recordUnresolvedOutcome clientOrderId environment outcome writes).1 := by
  obtain h | ⟨context, h⟩ :=
    s.recordUnresolvedOutcome_cases clientOrderId environment outcome writes
  · rw [h]
    exact .refl s
  · rw [h]
    exact s.recordUnresolvedContext_keepsCount clientOrderId context writes

theorem confirmVerifiedOpening_keepsCount (s : EntryStore) (clientOrderId : String)
    (opening : OpeningFillEvidence) (writes : Bool) :
    KeepsCount s (s.confirmVerifiedOpening clientOrderId opening writes).1 := by
  unfold confirmVerifiedOpening
  split
  next => exact .refl s
  next intent hintent =>
    split
    next => exact .refl s
    next =>
      unfold persistVerifiedReference
      split
      next => exact .refl s
      next =>
        obtain ⟨_, h⟩ | ⟨_, h⟩ := s.commit_cases
          { s.memory with
            unresolvedIntent := none
            lastVerifiedEntry := some
              ⟨intent, opening.orderId, opening.positionId, opening.dealId⟩
            currentSubmissionMarker := none } s.memory () writes
        · rw [h]
          exact ⟨rfl, rfl, .inr rfl⟩
        · rw [h]
          exact .refl s

/-- The count of the prepared day covers what is held for it, in memory and in the file. -/
structure Covers (held : Nat → Nat) (s : EntryStore) : Prop where
  memory : ∀ d, s.memory.dayId = some d → held d ≤ s.memory.entriesReservedOrFilled
  file : ∃ f, s.file = some (.v2 f) ∧ f.dayId = s.memory.dayId ∧
    ∀ d, f.dayId = some d → held d ≤ f.entriesReservedOrFilled

variable {held held' : Nat → Nat} {s s' : EntryStore}

theorem covers_written {a : AccountEntryAuthority}
    (h : ∀ d, a.dayId = some d → held d ≤ a.entriesReservedOrFilled) :
    Covers held ⟨a, some (.v2 a.checkpoint)⟩ :=
  ⟨h, a.checkpoint, rfl, rfl, h⟩

/-- A failed write that leaves the day, and at least what is held. -/
theorem Covers.unwritten (h : Covers held s) {a : AccountEntryAuthority}
    (hday : a.dayId = s.memory.dayId)
    (hcount : ∀ d, s.memory.dayId = some d → held d ≤ a.entriesReservedOrFilled) :
    Covers held ⟨a, s.file⟩ := by
  obtain ⟨f, hf, hfday, hfcount⟩ := h.file
  refine ⟨?_, f, hf, hfday.trans hday.symm, hfcount⟩
  intro d hd
  exact hcount d (hday.symm.trans hd)

theorem Covers.keepsCount (h : Covers held s) (hk : KeepsCount s s') : Covers held s' := by
  obtain ⟨hday, hcount, hfile⟩ := hk
  have hmemory : ∀ d, s'.memory.dayId = some d → held d ≤ s'.memory.entriesReservedOrFilled := by
    intro d hd
    rw [hcount]
    exact h.memory d (hday.symm.trans hd)
  obtain hfile | hfile := hfile
  · obtain ⟨f, hf, hfday, hfcount⟩ := h.file
    exact ⟨hmemory, f, hfile.trans hf, hfday.trans hday.symm, hfcount⟩
  · exact ⟨hmemory, _, hfile, rfl, hmemory⟩

/-- A day that is taken over starts at nothing, so nothing may be held for it. -/
theorem Covers.prepareDay (h : Covers held s) {dayId : Nat} {writes : Bool}
    (hfree : dayId ≠ 0 → writes = true → s.memory.dayId ≠ some dayId → held dayId = 0) :
    Covers held (s.prepareDay dayId writes).1 := by
  unfold EntryStore.prepareDay
  split
  next => exact h
  next hzero =>
    split
    next => exact h
    next hother =>
      obtain ⟨hwrites, hc⟩ | ⟨_, hc⟩ := s.commit_cases
        { s.memory with dayId := some dayId, entriesReservedOrFilled := 0 } s.memory 0 writes
      · rw [hc]
        apply covers_written
        intro d hd
        have hsame : dayId = d := Option.some.inj hd
        rw [← hsame]
        exact Nat.le_of_eq (hfree hzero hwrites hother)
      · rw [hc]
        exact h

theorem Covers.tryReserveEntry (h : Covers held s) (held' : Nat → Nat) (dayId : Nat) {cap : Nat}
    (hcap : cap < 2 ^ 32) (writes : Bool) :
    let r := s.tryReserveEntry dayId (some cap) writes
    if r.2.isOk then
      held dayId < cap ∧ ((∀ d, held' d ≤ held d + if d = dayId then 1 else 0) → Covers held' r.1)
    else Covers held r.1 := by
  intro r
  have hr : r = s.tryReserveEntry dayId (some cap) writes := rfl
  unfold EntryStore.tryReserveEntry at hr
  simp only at hr
  split at hr
  next => simpa [hr, Except.isOk, Except.toBool] using h
  next =>
    split at hr
    next => simpa [hr, Except.isOk, Except.toBool] using h
    next hday =>
      rw [ne_eq, not_not] at hday
      have hheld := h.memory dayId hday
      split at hr
      next => simpa [hr, Except.isOk, Except.toBool] using h
      next hbelow =>
        have hbelow : s.memory.entriesReservedOrFilled < cap := by simpa using hbelow
        have hsucc : saturatingSucc s.memory.entriesReservedOrFilled =
            s.memory.entriesReservedOrFilled + 1 := by
          unfold saturatingSucc
          omega
        rw [hsucc] at hr
        obtain ⟨_, hc⟩ | ⟨_, hc⟩ := s.commit_cases _ _ s.memory.entriesReservedOrFilled writes
        · rw [hc] at hr
          rw [hr]
          simp only [Except.isOk, Except.toBool, if_true]
          refine ⟨by omega, ?_⟩
          intro hmore
          apply covers_written
          intro d hd
          obtain rfl : dayId = d := Option.some.inj (hday.symm.trans hd)
          have := hmore dayId
          rw [if_pos rfl] at this
          show held' dayId ≤ s.memory.entriesReservedOrFilled + 1
          omega
        · rw [hc] at hr
          rw [hr]
          simp only [Except.isOk, Except.toBool, Bool.false_eq_true, if_false]
          refine h.unwritten rfl ?_
          intro d hd
          have := h.memory d hd
          show held d ≤ s.memory.entriesReservedOrFilled + 1 - 1
          omega

def OneFewer (dayId : Nat) (held held' : Nat → Nat) : Prop :=
  (∀ d, held' d ≤ held d) ∧ held' dayId + 1 ≤ held dayId

/-- The count of the prepared day, less the released reservation of that day. -/
theorem Covers.taken_off (h : Covers held s) {dayId d count : Nat}
    (hfewer : OneFewer dayId held held') (hday : s.memory.dayId = some d)
    (hcount : count = if s.memory.dayId = some dayId then s.memory.entriesReservedOrFilled - 1
      else s.memory.entriesReservedOrFilled) : held' d ≤ count := by
  have hheld := h.memory d hday
  obtain ⟨hless, hone⟩ := hfewer
  rw [hcount, hday]
  by_cases hsame : d = dayId
  · subst hsame
    rw [if_pos rfl]
    omega
  · have hother : some d ≠ some dayId := by simpa using hsame
    rw [if_neg hother]
    exact Nat.le_trans (hless d) hheld

/-- A release takes one reservation of its own day off; one that fails changes nothing that is
held. -/
theorem Covers.releaseEntry (h : Covers held s) (held' : Nat → Nat) (dayId : Nat)
    (hcounted : ∀ d, s.memory.dayId = some d → held d < 2 ^ 32) (writes : Bool) :
    let r := s.releaseEntry dayId writes
    if r.2.isOk then OneFewer dayId held held' → Covers held' r.1 else Covers held r.1 := by
  intro r
  have hr : r = s.releaseEntry dayId writes := rfl
  unfold EntryStore.releaseEntry at hr
  simp only at hr
  split at hr
  next => simpa [hr, Except.isOk, Except.toBool] using h
  next =>
    split at hr
    next => simpa [hr, Except.isOk, Except.toBool] using h
    next hday =>
      rw [ne_eq, not_not] at hday
      split at hr
      next => simpa [hr, Except.isOk, Except.toBool] using h
      next hsome =>
        obtain ⟨_, hc⟩ | ⟨_, hc⟩ := s.commit_cases _ _ () writes
        · rw [hc] at hr
          rw [hr]
          simp only [Except.isOk, Except.toBool, if_true]
          intro hfewer
          apply covers_written
          intro d hd
          exact h.taken_off hfewer hd (by rw [if_pos hday])
        · rw [hc] at hr
          rw [hr]
          simp only [Except.isOk, Except.toBool, Bool.false_eq_true, if_false]
          refine h.unwritten rfl ?_
          intro d hd
          have hheld := h.memory d hd
          have hless := hcounted d hd
          show held d ≤ saturatingSucc (s.memory.entriesReservedOrFilled - 1)
          unfold saturatingSucc
          omega

theorem Covers.releaseUnsentEntry (h : Covers held s) (held' : Nat → Nat) (dayId : Nat)
    (hcounted : ∀ d, s.memory.dayId = some d → held d < 2 ^ 32) (clientOrderId : String)
    (marker : Nat) (started writes : Bool) :
    let r := s.releaseUnsentEntry dayId clientOrderId marker started writes
    if r.2.isOk then OneFewer dayId held held' → Covers held' r.1 else Covers held r.1 := by
  intro r
  have hr : r = s.releaseUnsentEntry dayId clientOrderId marker started writes := rfl
  unfold EntryStore.releaseUnsentEntry at hr
  simp only at hr
  split at hr
  next => simpa [hr, Except.isOk, Except.toBool] using h
  next =>
    split at hr
    next =>
      rw [hr]
      exact h.releaseEntry held' dayId hcounted writes
    next =>
      split at hr
      next => simpa [hr, Except.isOk, Except.toBool] using h
      next =>
        split at hr
        next => simpa [hr, Except.isOk, Except.toBool] using h
        next =>
          split at hr
          next => simpa [hr, Except.isOk, Except.toBool] using h
          next =>
            obtain ⟨_, hc⟩ | ⟨_, hc⟩ := s.commit_cases _ s.memory () writes
            · rw [hc] at hr
              rw [hr]
              simp only [Except.isOk, Except.toBool, if_true]
              intro hfewer
              apply covers_written
              intro d hd
              exact h.taken_off hfewer hd rfl
            · rw [hc] at hr
              rw [hr]
              simpa only [Except.isOk, Except.toBool, Bool.false_eq_true, if_false] using h

end EntryStore

end Neoethos
