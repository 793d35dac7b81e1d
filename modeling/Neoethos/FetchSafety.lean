import Mathlib.Data.List.Count
import Neoethos.FetchRegistry

namespace Neoethos

namespace HistoricalFetchRegistry

variable {registry after : HistoricalFetchRegistry} {runId : Nat}

theorem tryStart_ok (h : registry.tryStart = .ok (runId, after)) :
    registry.active = none ∧ runId = registry.nextRunId ∧
      after = ⟨runId + 1, some ⟨runId, .capturing⟩,
        Function.update registry.isCancelled runId false⟩ := by
  unfold tryStart at h
  cases ha : registry.active with
  | some a => simp [ha] at h
  | none =>
    simp only [ha] at h
    split at h
    next => cases h
    next =>
      cases h
      exact ⟨rfl, rfl, rfl⟩

/-- `cancel_run` cancels the active run of that id, or does nothing. -/
theorem cancelRun_cases {outcome : HistoricalFetchCancelOutcome}
    (h : registry.cancelRun runId = (outcome, after)) :
    (after = registry ∧ ∀ id, outcome ≠ .cancelled id) ∨
      ∃ a, registry.active = some a ∧ a.runId = runId ∧ a.phase ≠ .publicationInProgress ∧
        outcome = .cancelled runId ∧
        after = { registry.cancel runId with
          active := some { a with phase := .cancellationRequested } } := by
  unfold cancelRun at h
  cases ha : registry.active with
  | none =>
    rw [ha] at h
    cases h
    exact .inl ⟨rfl, by intro id he; cases he⟩
  | some a =>
    simp only [ha] at h
    split at h
    next =>
      cases h
      exact .inl ⟨rfl, by intro id he; cases he⟩
    next hid =>
      have hid : a.runId = runId := not_not.mp hid
      cases hp : a.phase with
      | publicationInProgress =>
        rw [hp] at h
        cases h
        exact .inl ⟨rfl, by intro id he; cases he⟩
      | capturing =>
        simp only [hp, Prod.mk.injEq] at h
        obtain ⟨rfl, rfl⟩ := h
        exact .inr ⟨a, rfl, hid, by simp [hp], by rw [hid], by rw [hid]⟩
      | cancellationRequested =>
        simp only [hp, Prod.mk.injEq] at h
        obtain ⟨rfl, rfl⟩ := h
        exact .inr ⟨a, rfl, hid, by simp [hp], by rw [hid], by rw [hid]⟩

/-- `begin_publication` needs a capturing run whose token is not cancelled. -/
theorem beginPublication_cases {result : Except HistoricalPublicationStartError Nat}
    (h : registry.beginPublication runId = (result, after)) :
    (after = registry ∧ ∃ e, result = .error e) ∨
      ∃ a, registry.active = some a ∧ a.runId = runId ∧ a.phase = .capturing ∧
        registry.isCancelled runId = false ∧ result = .ok runId ∧
        after = { registry with active := some { a with phase := .publicationInProgress } } := by
  unfold beginPublication at h
  cases ha : registry.active with
  | none =>
    rw [ha] at h
    cases h
    exact .inl ⟨rfl, _, rfl⟩
  | some a =>
    simp only [ha] at h
    split at h
    next =>
      cases h
      exact .inl ⟨rfl, _, rfl⟩
    next hid =>
      have hid : a.runId = runId := not_not.mp hid
      cases hp : a.phase with
      | publicationInProgress =>
        rw [hp] at h
        cases h
        exact .inl ⟨rfl, _, rfl⟩
      | cancellationRequested =>
        rw [hp] at h
        cases h
        exact .inl ⟨rfl, _, rfl⟩
      | capturing =>
        simp only [hp] at h
        split at h
        next =>
          cases h
          exact .inl ⟨rfl, _, rfl⟩
        next hflag =>
          cases h
          exact .inr ⟨a, rfl, hid, hp, by simpa using hflag, rfl, rfl⟩

theorem dropPermit_cases (registry : HistoricalFetchRegistry) (runId : Nat) :
    (registry.dropPermit runId = registry ∧
      ∀ a, registry.active = some a → a.runId = runId → a.phase ≠ .publicationInProgress) ∨
      ∃ a, registry.active = some a ∧ a.runId = runId ∧ a.phase = .publicationInProgress ∧
        registry.dropPermit runId =
          { registry with active := some { a with phase := .capturing } } := by
  unfold dropPermit
  cases ha : registry.active with
  | none => exact .inl ⟨rfl, by intro a he; cases he⟩
  | some a =>
    by_cases hm : a.runId = runId ∧ a.phase = .publicationInProgress
    · exact .inr ⟨a, rfl, hm.1, hm.2, by simp [hm]⟩
    · refine .inl ⟨by simp [hm], ?_⟩
      intro b hb hid hp
      cases hb
      exact hm ⟨hid, hp⟩

theorem dropFetch_cases (registry : HistoricalFetchRegistry) (runId : Nat) :
    (registry.dropFetch runId = registry ∧ ∀ a, registry.active = some a → a.runId ≠ runId) ∨
      ∃ a, registry.active = some a ∧ a.runId = runId ∧
        registry.dropFetch runId = { registry with active := none } := by
  unfold dropFetch
  cases ha : registry.active with
  | none => exact .inl ⟨by simp, by intro a he; cases he⟩
  | some a =>
    by_cases hid : a.runId = runId
    · exact .inr ⟨a, rfl, hid, by simp [hid]⟩
    · refine .inl ⟨by simp [hid], ?_⟩
      intro b hb
      cases hb
      exact hid

end HistoricalFetchRegistry

namespace FetchSystem

inductive Step (s : FetchSystem) : FetchAction → FetchEvent → FetchSystem → Prop
  | tryStart : Step s .tryStart (s.start false).1 (s.start false).2
  | tryStartQueued : Step s .tryStartQueued (s.start true).1 (s.start true).2
  | accepted {runId call} (hcall : s.submitting.find? (·.1 == runId) = some call) :
      Step s (.submitReturns runId true) (.submitted runId true)
        { s with guards := runId :: s.guards, submitting := s.submitting.erase call }
  | turnedDown {runId call} (hcall : s.submitting.find? (·.1 == runId) = some call) :
      Step s (.submitReturns runId false) (.submitted runId false)
        { s with
          registry := s.registry.dropFetch runId
          submitting := s.submitting.erase call }
  | notCancelled {requestedRunId outcome} (houtcome : ∀ id, outcome ≠ .cancelled id) :
      Step s (.cancelRun requestedRunId) (.cancelAnswered requestedRunId outcome) s
  | cancelled {active : RegisteredHistoricalFetch} (hactive : s.registry.active = some active)
      (hphase : active.phase ≠ .publicationInProgress) :
      Step s (.cancelRun active.runId) (.cancelAnswered active.runId (.cancelled active.runId))
        { s with
          registry := { s.registry.cancel active.runId with
            active := some { active with phase := .cancellationRequested } } }
  | tokenCancelled {runId} :
      Step s (.cancelToken runId) (.tokenCancelled runId)
        { s with registry := s.registry.cancel runId }
  | notPublished {runId error} :
      Step s (.beginPublication runId) (.publicationAnswered runId (.error error)) s
  | published {active : RegisteredHistoricalFetch} (hactive : s.registry.active = some active)
      (hphase : active.phase = .capturing)
      (hflag : s.registry.isCancelled active.runId = false) :
      Step s (.beginPublication active.runId)
        (.publicationAnswered active.runId (.ok active.runId))
        { s with
          registry := { s.registry with
            active := some { active with phase := .publicationInProgress } }
          permits := active.runId :: s.permits }
  | fetchDropped {runId} (hguard : runId ∈ s.guards) :
      Step s (.dropFetch runId) (.fetchDropped runId)
        { s with registry := s.registry.dropFetch runId, guards := s.guards.erase runId }
  | permitDropped {runId} (hpermit : runId ∈ s.permits) :
      Step s (.dropPermit runId) (.permitDropped runId)
        { s with registry := s.registry.dropPermit runId, permits := s.permits.erase runId }

theorem next_step {s t : FetchSystem} {a : FetchAction} {e : FetchEvent}
    (h : s.next a = some (e, t)) : Step s a e t := by
  cases a with
  | tryStart =>
    obtain ⟨rfl, rfl⟩ := Prod.mk.inj (Option.some.inj h : s.start false = (e, t))
    exact .tryStart
  | tryStartQueued =>
    obtain ⟨rfl, rfl⟩ := Prod.mk.inj (Option.some.inj h : s.start true = (e, t))
    exact .tryStartQueued
  | submitReturns runId accepted =>
    simp only [next] at h
    cases hcall : s.submitting.find? (·.1 == runId) with
    | none => simp [hcall] at h
    | some call =>
      simp only [hcall] at h
      cases accepted with
      | true =>
        obtain ⟨rfl, rfl⟩ := Prod.mk.inj (Option.some.inj h)
        exact .accepted hcall
      | false =>
        obtain ⟨rfl, rfl⟩ := Prod.mk.inj (Option.some.inj h)
        exact .turnedDown hcall
  | cancelRun requestedRunId =>
    rcases hr : s.registry.cancelRun requestedRunId with ⟨outcome, registry⟩
    simp only [next, hr] at h
    obtain ⟨rfl, rfl⟩ := Prod.mk.inj (Option.some.inj h)
    rcases HistoricalFetchRegistry.cancelRun_cases hr with
      ⟨rfl, houtcome⟩ | ⟨active, hactive, rfl, hphase, rfl, rfl⟩
    · exact .notCancelled houtcome
    · exact .cancelled hactive hphase
  | cancelToken runId =>
    obtain ⟨rfl, rfl⟩ := Prod.mk.inj (Option.some.inj h)
    exact .tokenCancelled
  | beginPublication runId =>
    simp only [next] at h
    split at h
    next =>
      rcases hr : s.registry.beginPublication runId with ⟨result, registry⟩
      rw [hr] at h
      obtain ⟨rfl, rfl⟩ := Prod.mk.inj (Option.some.inj h)
      rcases HistoricalFetchRegistry.beginPublication_cases hr with
        ⟨rfl, error, rfl⟩ | ⟨active, hactive, rfl, hphase, hflag, rfl, rfl⟩
      · exact .notPublished
      · exact .published hactive hphase hflag
    next => cases h
  | dropFetch runId =>
    simp only [next] at h
    split at h
    next hguard =>
      obtain ⟨rfl, rfl⟩ := Prod.mk.inj (Option.some.inj h)
      exact .fetchDropped hguard
    next => cases h
  | dropPermit runId =>
    simp only [next] at h
    split at h
    next hpermit =>
      obtain ⟨rfl, rfl⟩ := Prod.mk.inj (Option.some.inj h)
      exact .permitDropped hpermit
    next => cases h

/-- What holds in every reachable state: the guard of the active run is the only guard, and
its permit is alive exactly while the phase says so. -/
structure Sound (s : FetchSystem) : Prop where
  owners : s.guards ++ s.submitting.map (·.1) = (s.registry.active.map (·.runId)).toList
  before : ∀ call ∈ s.submitting, call.2 = none
  issued : ∀ a, s.registry.active = some a → a.runId < s.registry.nextRunId
  permitted : ∀ runId ∈ s.permits, runId < s.registry.nextRunId
  publishing : ∀ a, s.registry.active = some a →
    s.permits.count a.runId = if a.phase = .publicationInProgress then 1 else 0

theorem sound_start : Sound fetchMachine.start :=
  ⟨rfl, by simp [fetchMachine], by simp [fetchMachine, HistoricalFetchRegistry.new],
    by simp [fetchMachine], by simp [fetchMachine, HistoricalFetchRegistry.new]⟩

variable {s t : FetchSystem} {runId : Nat}

theorem Sound.active_of_guard (h : s.Sound)
    (hg : runId ∈ s.guards ++ s.submitting.map (·.1)) :
    ∃ a, s.registry.active = some a ∧ a.runId = runId ∧
      s.guards ++ s.submitting.map (·.1) = [runId] := by
  have ho := h.owners
  cases ha : s.registry.active with
  | none =>
    rw [ho, ha] at hg
    simp at hg
  | some a =>
    rw [ha] at ho
    rw [ho] at hg
    have hid : runId = a.runId := by simpa using hg
    exact ⟨a, rfl, hid.symm, by rw [ho, hid]; rfl⟩

/-- The guard of the active run goes, and nothing else does. -/
theorem Sound.drop_guard (h : s.Sound)
    (hg : s.guards ++ s.submitting.map (·.1) = [runId]) :
    (s.registry.dropFetch runId).active = none ∧
      (s.registry.dropFetch runId).nextRunId = s.registry.nextRunId ∧
      (s.registry.dropFetch runId).isCancelled = s.registry.isCancelled := by
  have hmem : runId ∈ s.guards ++ s.submitting.map (·.1) := by
    rw [hg]
    exact List.mem_singleton.mpr rfl
  obtain ⟨a, ha, hid, -⟩ := h.active_of_guard hmem
  rcases s.registry.dropFetch_cases runId with ⟨-, hne⟩ | ⟨b, -, -, heq⟩
  · exact absurd hid (hne a ha)
  · rw [heq]
    exact ⟨rfl, rfl, rfl⟩

theorem Sound.start_step (h : s.Sound) (queued : Bool) : (s.start queued).2.Sound := by
  unfold start
  cases hs : s.registry.tryStart with
  | error e => exact h
  | ok r =>
    obtain ⟨runId, registry⟩ := r
    obtain ⟨hnone, rfl, rfl⟩ := HistoricalFetchRegistry.tryStart_ok hs
    have howners := h.owners
    rw [hnone] at howners
    obtain ⟨hg, hsub⟩ := List.append_eq_nil_iff.mp howners
    have hcount : s.permits.count s.registry.nextRunId = 0 := by
      rw [List.count_eq_zero]
      intro hm
      exact absurd (h.permitted _ hm) (Nat.lt_irrefl _)
    cases queued with
    | true =>
      refine ⟨?_, ?_, ?_, ?_, ?_⟩
      · simp [hg, List.map_eq_nil_iff.mp hsub]
      · intro call hc
        rcases List.mem_cons.mp hc with rfl | hm
        · exact hnone
        · exact h.before call hm
      · intro a ha
        cases ha
        exact Nat.lt_succ_self _
      · intro id hm
        exact Nat.lt_succ_of_lt (h.permitted id hm)
      · intro a ha
        cases ha
        exact hcount
    | false =>
      refine ⟨?_, h.before, ?_, ?_, ?_⟩
      · simp [hg, hsub]
      · intro a ha
        cases ha
        exact Nat.lt_succ_self _
      · intro id hm
        exact Nat.lt_succ_of_lt (h.permitted id hm)
      · intro a ha
        cases ha
        exact hcount

/-- A step that changes neither the guards nor which run is active. -/
theorem Sound.same_run (h : s.Sound) {registry : HistoricalFetchRegistry} {permits : List Nat}
    (hid : registry.active.map (·.runId) = s.registry.active.map (·.runId))
    (hnext : registry.nextRunId = s.registry.nextRunId)
    (hp : ∀ id ∈ permits, id < s.registry.nextRunId)
    (hc : ∀ a, registry.active = some a →
      permits.count a.runId = if a.phase = .publicationInProgress then 1 else 0) :
    Sound { s with registry := registry, permits := permits } := by
  refine ⟨?_, h.before, ?_, ?_, hc⟩
  · show _ = (registry.active.map (·.runId)).toList
    rw [hid]
    exact h.owners
  · intro a ha
    have hs : s.registry.active.map (·.runId) = some a.runId := by
      rw [← hid, ha]
      rfl
    obtain ⟨b, hb, he⟩ := Option.map_eq_some_iff.mp hs
    show a.runId < registry.nextRunId
    rw [hnext, ← he]
    exact h.issued b hb
  · intro id hm
    show id < registry.nextRunId
    rw [hnext]
    exact hp id hm

theorem Sound.cancelRun_step (h : s.Sound) {active : RegisteredHistoricalFetch}
    (hactive : s.registry.active = some active) (hphase : active.phase ≠ .publicationInProgress) :
    Sound { s with
      registry := { s.registry.cancel active.runId with
        active := some { active with phase := .cancellationRequested } } } := by
  refine h.same_run ?_ rfl h.permitted ?_
  · rw [hactive]
    rfl
  · intro b hb
    cases hb
    have hcount := h.publishing active hactive
    rw [if_neg hphase] at hcount
    simpa using hcount

theorem Sound.publication_step (h : s.Sound) {active : RegisteredHistoricalFetch}
    (hactive : s.registry.active = some active) (hphase : active.phase = .capturing) :
    Sound { s with
      registry := { s.registry with
        active := some { active with phase := .publicationInProgress } }
      permits := active.runId :: s.permits } := by
  have hcount := h.publishing active hactive
  rw [hphase] at hcount
  refine h.same_run ?_ rfl ?_ ?_
  · rw [hactive]
    rfl
  · intro id hm
    rcases List.mem_cons.mp hm with rfl | hold
    · exact h.issued active hactive
    · exact h.permitted id hold
  · intro b hb
    cases hb
    show (active.runId :: s.permits).count active.runId = 1
    rw [List.count_cons_self, hcount]
    rfl

theorem Sound.dropPermit_step (h : s.Sound) (hm : runId ∈ s.permits) :
    Sound { s with
      registry := s.registry.dropPermit runId, permits := s.permits.erase runId } := by
  have hpermitted : ∀ id ∈ s.permits.erase runId, id < s.registry.nextRunId :=
    fun id hid => h.permitted id (List.mem_of_mem_erase hid)
  have hpos := List.count_pos_iff.mpr hm
  rcases s.registry.dropPermit_cases runId with ⟨heq, hother⟩ | ⟨a, ha, rfl, hphase, heq⟩
  · rw [heq]
    refine h.same_run rfl rfl hpermitted ?_
    intro a ha
    have hcount := h.publishing a ha
    have hne : a.runId ≠ runId := by
      intro hid
      rw [if_neg (hother a ha hid), hid] at hcount
      omega
    rw [List.count_erase_of_ne hne, hcount]
  · have hcount := h.publishing a ha
    rw [hphase] at hcount
    rw [heq]
    refine h.same_run ?_ rfl hpermitted ?_
    · rw [ha]
      rfl
    · intro b hb
      cases hb
      rw [List.count_erase_self, hcount]
      rfl

theorem Sound.drop_step (h : s.Sound) {guards : List Nat}
    {submitting : List (Nat × Option RegisteredHistoricalFetch)}
    (hg : s.guards ++ s.submitting.map (·.1) = [runId])
    (hrest : guards = [] ∧ submitting = []) :
    Sound ⟨s.registry.dropFetch runId, guards, submitting, s.permits⟩ := by
  obtain ⟨hactive, hnext, -⟩ := h.drop_guard hg
  obtain ⟨rfl, rfl⟩ := hrest
  refine ⟨?_, by simp, ?_, ?_, ?_⟩
  · simp [hactive]
  · intro a ha
    rw [hactive] at ha
    cases ha
  · intro id hm
    show id < (s.registry.dropFetch runId).nextRunId
    rw [hnext]
    exact h.permitted id hm
  · intro a ha
    rw [hactive] at ha
    cases ha

theorem Sound.only_submitting (h : s.Sound) {call : Nat × Option RegisteredHistoricalFetch}
    (hf : s.submitting.find? (·.1 == runId) = some call) :
    s.guards = [] ∧ s.submitting = [(runId, none)] ∧ call = (runId, none) := by
  have hm := List.mem_of_find?_eq_some hf
  have hid : call.1 = runId := by simpa using List.find?_some hf
  have hmem : runId ∈ s.guards ++ s.submitting.map (·.1) :=
    List.mem_append_right _ (List.mem_map.mpr ⟨call, hm, hid⟩)
  obtain ⟨-, -, -, howners⟩ := h.active_of_guard hmem
  have hcall : call = (runId, none) := by
    rw [← hid, ← h.before call hm]
  cases hs : s.submitting with
  | nil => simp [hs] at hm
  | cons first rest =>
    rw [hs] at howners hm
    have hlen := congrArg List.length howners
    simp only [List.length_append, List.length_map, List.length_cons, List.length_nil] at hlen
    have hguards : s.guards = [] := List.length_eq_zero_iff.mp (by omega)
    have hrest : rest = [] := List.length_eq_zero_iff.mp (by omega)
    subst hrest
    rw [List.mem_singleton.mp hm] at hcall
    exact ⟨hguards, by rw [hcall], by rw [List.mem_singleton.mp hm, hcall]⟩

theorem Sound.next_sound (h : s.Sound) {a : FetchAction} {e : FetchEvent}
    (hn : s.next a = some (e, t)) : t.Sound := by
  cases next_step hn with
  | tryStart => exact h.start_step false
  | tryStartQueued => exact h.start_step true
  | accepted hcall =>
    obtain ⟨hguards, hsub, rfl⟩ := h.only_submitting hcall
    refine ⟨?_, by simp [hsub], h.issued, h.permitted, h.publishing⟩
    rw [← h.owners, hguards, hsub]
    simp
  | turnedDown hcall =>
    obtain ⟨hguards, hsub, rfl⟩ := h.only_submitting hcall
    exact h.drop_step (by simp [hguards, hsub]) ⟨hguards, by simp [hsub]⟩
  | notCancelled => exact h
  | cancelled hactive hphase => exact h.cancelRun_step hactive hphase
  | tokenCancelled => exact h.same_run rfl rfl h.permitted h.publishing
  | notPublished => exact h
  | published hactive hphase => exact h.publication_step hactive hphase
  | @fetchDropped runId hguard =>
    obtain ⟨-, -, -, howners⟩ := h.active_of_guard (List.mem_append_left _ hguard)
    refine h.drop_step howners ?_
    obtain ⟨hd, hr⟩ : s.guards = [runId] ∧ s.submitting = [] := by
      rcases List.append_eq_singleton_iff.mp howners with ⟨hnil, -⟩ | ⟨hone, hnil⟩
      · simp [hnil] at hguard
      · exact ⟨hone, List.map_eq_nil_iff.mp hnil⟩
    rw [hd, hr]
    simp
  | permitDropped hpermit => exact h.dropPermit_step hpermit

end FetchSystem

end Neoethos
