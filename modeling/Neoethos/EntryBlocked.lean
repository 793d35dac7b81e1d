import Neoethos.EntryIntent

namespace Neoethos

open EntryStore (Quiet)

theorem acquireEntry_held {identity : AccountRiskIdentity} {file : Option EntryCheckpointFile}
    {legacy : Option LegacyRiskFile} {writes : Bool} {s : EntryStore} {c : String}
    (h : acquireEntry identity file legacy writes = .ok s) (hheld : Held file none c) :
    s.file = file ∧ Held s.file (some s.memory) c ∧ s.memory.currentSubmissionMarker = none := by
  obtain ⟨f, hf, hc, _⟩ := hheld
  unfold fileIntent at hf
  split at hf
  next checkpoint =>
    unfold acquireEntry at h
    simp only at h
    split at h
    next => simp at h
    next =>
      obtain rfl := Except.ok.inj h
      refine ⟨rfl, ⟨f, hf, hc, ?_⟩, rfl⟩
      intro a ha
      exact ⟨f, by rw [← Option.some.inj ha, hf], hc, .inr rfl⟩
  next => simp at hf

namespace IntentInvariant

variable {w w' : EntryWorld}

theorem crash (hi : IntentInvariant w) :
    IntentInvariant { w with
      memory := none
      attempts := []
      lost := w.lost ++ (w.attempts.filter (·.stage ≠ .released)).map (·.dayId) } := by
  refine ⟨by simp, by simp, by simp, ?_, fun _ => rfl⟩
  intro c hc hopen
  exact ⟨(hi.sent c hc hopen).1.dies, by simp⟩

theorem restart (hi : IntentInvariant w) (hdead : w.memory = none)
    {identity : AccountRiskIdentity} {writes : Bool} {s : EntryStore}
    (h : acquireEntry identity w.file w.legacy writes = .ok s) :
    IntentInvariant { w.store s with generation := w.generation + 1 } := by
  have hempty : (w.store s).attempts = [] := hi.dead hdead
  refine ⟨by simp [hempty], by simp [hempty], by simp [hempty], ?_, by simp [EntryWorld.store]⟩
  intro c hc hopen
  have hheld := (hi.sent c hc hopen).1
  rw [hdead] at hheld
  obtain ⟨_, hheld', hmarker⟩ := acquireEntry_held h hheld
  refine ⟨hheld', ?_⟩
  intro a m ha hm
  rw [← Option.some.inj ha, hmarker] at hm
  simp at hm

theorem call (hi : IntentInvariant w) {a : AccountEntryAuthority} (hmemory : w.memory = some a)
    {act : EntryAct} (h : w.CallStep ⟨a, w.file⟩ act w') : IntentInvariant w' := by
  cases h with
  | @prepared dayId writes => exact hi.quiet hmemory (EntryStore.prepareDay_quiet _ dayId writes)
  | @reserved dayId cap writes =>
    have hquiet := hi.quiet hmemory (EntryStore.tryReserveEntry_quiet _ dayId cap writes)
    exact hquiet.reserved (by simp [EntryWorld.store]) dayId
  | @notReserved dayId cap writes =>
    exact hi.quiet hmemory (EntryStore.tryReserveEntry_quiet _ dayId cap writes)
  | @begun i dayId marker request nowUtcMs writes hget hok =>
    obtain ⟨_, herror⟩ | ⟨hnone, intent, hclient, hnext, hfile⟩ :=
      EntryStore.beginSubmission_cases ⟨a, w.file⟩ dayId request marker false nowUtcMs writes
    · rw [herror] at hok
      simp at hok
    · obtain hfile | ⟨_, herror⟩ := hfile
      · rw [← hclient]
        exact hi.beginSubmission hmemory hnone hget (by rw [hnext]) (by rw [hnext]) hfile
      · rw [herror] at hok
        simp at hok
  | @refused i dayId marker request nowUtcMs writes hget =>
    obtain ⟨hsame, _⟩ | ⟨hnone, _⟩ :=
      EntryStore.beginSubmission_cases ⟨a, w.file⟩ dayId request marker false nowUtcMs writes
    · exact (hi.quiet hmemory (by rw [hsame]; exact .refl _)).setAttempt hget rfl (by simp)
    · obtain ⟨hbegun, hsent⟩ := hi.all_confirmed hmemory hnone
      exact (hi.store_of_confirmed hbegun hsent _).setAttempt hget rfl (by simp)
  | sent hget => exact hi.send hget
  | @errorRecorded clientOrderId context writes =>
    cases context with
    | none => exact hi.quiet hmemory (.refl _)
    | some context => exact hi.recordContext hmemory clientOrderId context writes
  | @outcomeRecorded clientOrderId environment outcome writes =>
    obtain h | ⟨context, h⟩ := EntryStore.recordUnresolvedOutcome_cases ⟨a, w.file⟩ clientOrderId
      environment outcome writes
    · exact hi.quiet hmemory (by rw [h]; exact .refl _)
    · rw [h]
      exact hi.recordContext hmemory clientOrderId context writes
  | @confirmed clientOrderId opening writes hok =>
    obtain ⟨_, herror⟩ | ⟨_, intent, hintent, hclient⟩ :=
      EntryStore.confirmVerifiedOpening_cases ⟨a, w.file⟩ clientOrderId opening writes
    · rw [herror] at hok
      simp at hok
    · rw [← hclient]
      exact hi.confirm hmemory hintent _
  | @notConfirmed clientOrderId opening writes hno =>
    obtain ⟨hsame, _⟩ | ⟨hok, _⟩ :=
      EntryStore.confirmVerifiedOpening_cases ⟨a, w.file⟩ clientOrderId opening writes
    · exact hi.quiet hmemory (by rw [hsame]; exact .refl _)
    · rw [hok] at hno
      simp at hno
  | @released i dayId marker writes hget =>
    have hquiet := hi.quiet hmemory (EntryStore.releaseEntry_quiet _ dayId writes)
    exact hquiet.setAttempt hget rfl (by simp)
  | @notReleased i dayId marker writes =>
    exact hi.quiet hmemory (EntryStore.releaseEntry_quiet _ dayId writes)
  | @unsentReleased i dayId marker stage clientOrderId writes _ hget =>
    obtain hquiet | ⟨hstarted, hbound, _⟩ := EntryStore.releaseUnsentEntry_cases
      ⟨a, w.file⟩ dayId clientOrderId marker (marker ∈ w.started) writes
    · exact (hi.quiet hmemory hquiet).setAttempt hget rfl (by simp)
    · exact hi.released hmemory hget hbound (of_decide_eq_false hstarted) _
  | @unsentNotReleased i dayId marker stage clientOrderId writes _ _ hno =>
    obtain hquiet | ⟨_, _, hok⟩ := EntryStore.releaseUnsentEntry_cases
      ⟨a, w.file⟩ dayId clientOrderId marker (marker ∈ w.started) writes
    · exact hi.quiet hmemory hquiet
    · rw [hok] at hno
      simp at hno
  | crashed => exact hi.crash

theorem next (hi : IntentInvariant w) {identity : AccountRiskIdentity} {act : EntryAct} {e : Bool}
    (h : EntryWorld.next identity w act = some (e, w')) : IntentInvariant w' := by
  obtain ⟨a, hmemory, hcall⟩ | ⟨hdead, rfl | ⟨writes, s, hacquire, rfl⟩⟩ := EntryWorld.next_step h
  · exact hi.call hmemory hcall
  · exact hi
  · exact hi.restart hdead hacquire

end IntentInvariant

namespace EntryWorld

/-- An order with this client id was sent, and no verified opening was confirmed for it. -/
def Unresolved (w : EntryWorld) (c : String) : Prop := c ∈ w.sent ∧ c ∉ w.confirmed

/-- No call of a living process reserves, begins or releases an entry. -/
def Blocked (w : EntryWorld) : Prop :=
  ∀ a, w.memory = some a →
    (∀ dayId cap writes,
      ((⟨a, w.file⟩ : EntryStore).tryReserveEntry dayId cap writes).2.isOk = false) ∧
    (∀ dayId request marker started nowUtcMs writes,
      ((⟨a, w.file⟩ : EntryStore).beginSubmission dayId request marker started nowUtcMs
        writes).2.isOk = false) ∧
    (∀ dayId writes, ((⟨a, w.file⟩ : EntryStore).releaseEntry dayId writes).2.isOk = false) ∧
    ∀ dayId c marker writes, ((⟨a, w.file⟩ : EntryStore).releaseUnsentEntry dayId c marker
      (marker ∈ w.started) writes).2.isOk = false

def fileAccepted (w : EntryWorld) : Option Int := (fileIntent w.file).bind (·.acceptedOrderId)

def memoryAccepted (w : EntryWorld) : Option Int :=
  (w.memory.bind (·.unresolvedIntent)).bind (·.acceptedOrderId)

end EntryWorld

namespace IntentInvariant

variable {w w' : EntryWorld} {c : String}

theorem blocked (hi : IntentInvariant w) (hc : w.Unresolved c) : w.Blocked := by
  intro a hmemory
  obtain ⟨hheld, hstarted⟩ := hi.sent c hc.1 hc.2
  rw [hmemory] at hheld
  obtain ⟨i, hintent, _⟩ := hheld.intent
  refine ⟨?_, ?_, ?_, ?_⟩
  · intro dayId cap writes
    simp only [EntryStore.tryReserveEntry, hintent]
    rfl
  · intro dayId request marker started nowUtcMs writes
    obtain ⟨_, herror⟩ | ⟨hnone, _⟩ := EntryStore.beginSubmission_cases ⟨a, w.file⟩ dayId request
      marker started nowUtcMs writes
    · exact herror
    · rw [hintent] at hnone
      simp at hnone
  · intro dayId writes
    unfold EntryStore.releaseEntry
    rw [if_pos (by simp [hintent])]
    rfl
  · intro dayId client marker writes
    unfold EntryStore.releaseUnsentEntry
    simp only [hintent]
    split
    next => rfl
    next hmarker =>
      rw [decide_eq_true_eq] at hmarker
      have hbound : a.currentSubmissionMarker ≠ some marker :=
        fun h => hmarker (hstarted a marker hmemory h)
      rw [if_pos (by simp [hbound])]
      rfl

theorem unresolved_unique (hi : IntentInvariant w) {c' : String} (hc : w.Unresolved c)
    (hc' : w.Unresolved c') : c' = c := by
  obtain ⟨f, hf, rfl, _⟩ := (hi.sent c hc.1 hc.2).1
  obtain ⟨f', hf', rfl, _⟩ := (hi.sent c' hc'.1 hc'.2).1
  rw [Option.some.inj (hf.symm.trans hf')]

end IntentInvariant

end Neoethos
