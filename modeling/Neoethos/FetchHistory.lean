import Mathlib.Data.List.Nodup
import Neoethos.FetchSafety

namespace Neoethos

namespace FetchEvent

def startedRun : FetchEvent → Option Nat
  | .started (.ok runId) => some runId
  | _ => none

/-- The run for which `cancel_run` returned `Cancelled`. -/
def cancelledRun : FetchEvent → Option Nat
  | .cancelAnswered _ (.cancelled runId) => some runId
  | _ => none

def permittedRun : FetchEvent → Option Nat
  | .publicationAnswered _ (.ok runId) => some runId
  | _ => none

end FetchEvent

def FetchAction.runId? : FetchAction → Option Nat
  | .tryStart | .tryStartQueued => none
  | .submitReturns runId _ | .cancelRun runId | .cancelToken runId | .beginPublication runId
  | .dropFetch runId | .dropPermit runId => some runId

namespace FetchSystem

variable {s t : FetchSystem} {a : FetchAction} {e : FetchEvent}

/-- What the history depends on: ids only grow, a token once set stays set, and a permit
needs a token that is not set. -/
structure Advances (s : FetchSystem) (e : FetchEvent) (t : FetchSystem) : Prop where
  ids : s.registry.nextRunId ≤ t.registry.nextRunId
  tokens : ∀ runId < s.registry.nextRunId,
    s.registry.isCancelled runId = true → t.registry.isCancelled runId = true
  starts : ∀ runId, e.startedRun = some runId →
    s.registry.nextRunId ≤ runId ∧ runId < t.registry.nextRunId
  cancels : ∀ runId, e.cancelledRun = some runId →
    t.registry.isCancelled runId = true ∧ runId < s.registry.nextRunId
  permits : ∀ runId, e.permittedRun = some runId → s.registry.isCancelled runId = false

/-- A step that reports neither a start nor a cancellation nor a permit. -/
theorem advances_of_quiet (hs : e.startedRun = none) (hc : e.cancelledRun = none)
    (hp : e.permittedRun = none) (hids : t.registry.nextRunId = s.registry.nextRunId)
    (htokens : ∀ id, s.registry.isCancelled id = true → t.registry.isCancelled id = true) :
    Advances s e t :=
  ⟨Nat.le_of_eq hids.symm, fun id _ => htokens id, by simp [hs], by simp [hc], by simp [hp]⟩

theorem isCancelled_cancel (registry : HistoricalFetchRegistry) (runId : Nat) {id : Nat}
    (h : registry.isCancelled id = true) : (registry.cancel runId).isCancelled id = true := by
  by_cases hne : id = runId
  · simp [HistoricalFetchRegistry.cancel, hne]
  · simp [HistoricalFetchRegistry.cancel, Function.update_of_ne hne, h]

theorem advances_start (s : FetchSystem) (queued : Bool) :
    Advances s (s.start queued).1 (s.start queued).2 := by
  unfold start
  cases hs : s.registry.tryStart with
  | error err => exact advances_of_quiet rfl rfl rfl rfl (fun _ h => h)
  | ok r =>
    obtain ⟨runId, registry⟩ := r
    obtain ⟨-, rfl, rfl⟩ := HistoricalFetchRegistry.tryStart_ok hs
    refine ⟨?_, ?_, ?_, ?_, ?_⟩
    · cases queued <;> exact Nat.le_succ _
    · intro id hlt hflag
      have hne : id ≠ s.registry.nextRunId := Nat.ne_of_lt hlt
      cases queued <;> simp [Function.update_of_ne hne, hflag]
    · intro id hid
      cases hid
      cases queued <;> exact ⟨Nat.le_refl _, Nat.lt_succ_self _⟩
    · intro id hid
      cases hid
    · intro id hid
      cases hid

theorem dropFetch_keeps (registry : HistoricalFetchRegistry) (runId : Nat) :
    (registry.dropFetch runId).nextRunId = registry.nextRunId ∧
      (registry.dropFetch runId).isCancelled = registry.isCancelled := by
  rcases registry.dropFetch_cases runId with ⟨heq, -⟩ | ⟨-, -, -, heq⟩
  · rw [heq]
    exact ⟨rfl, rfl⟩
  · rw [heq]
    exact ⟨rfl, rfl⟩

theorem dropPermit_keeps (registry : HistoricalFetchRegistry) (runId : Nat) :
    (registry.dropPermit runId).nextRunId = registry.nextRunId ∧
      (registry.dropPermit runId).isCancelled = registry.isCancelled := by
  rcases registry.dropPermit_cases runId with ⟨heq, -⟩ | ⟨a, -, -, -, heq⟩
  · rw [heq]
    exact ⟨rfl, rfl⟩
  · rw [heq]
    exact ⟨rfl, rfl⟩

theorem Sound.advances (h : s.Sound) (hn : s.next a = some (e, t)) : Advances s e t := by
  cases next_step hn with
  | tryStart => exact advances_start s false
  | tryStartQueued => exact advances_start s true
  | accepted => exact advances_of_quiet rfl rfl rfl rfl (fun _ h => h)
  | @turnedDown runId | @fetchDropped runId =>
    obtain ⟨hids, htokens⟩ := dropFetch_keeps s.registry runId
    exact advances_of_quiet rfl rfl rfl hids (by simp [htokens])
  | @notCancelled _ outcome houtcome =>
    refine advances_of_quiet rfl ?_ rfl rfl (fun _ h => h)
    cases outcome with
    | cancelled id => exact absurd rfl (houtcome id)
    | publicationInProgress id => rfl
    | staleRun id active => rfl
    | noActiveFetch => rfl
  | @cancelled active hactive =>
    refine ⟨Nat.le_refl _, ?_, ?_, ?_, ?_⟩
    · intro id _ hflag
      exact isCancelled_cancel s.registry active.runId hflag
    · intro id he
      cases he
    · intro id he
      cases he
      exact ⟨by simp [HistoricalFetchRegistry.cancel], h.issued active hactive⟩
    · intro id he
      cases he
  | @tokenCancelled runId =>
    exact advances_of_quiet rfl rfl rfl rfl fun id hflag =>
      isCancelled_cancel s.registry runId hflag
  | notPublished => exact advances_of_quiet rfl rfl rfl rfl (fun _ h => h)
  | published _ _ hflag =>
    refine ⟨Nat.le_refl _, fun _ _ h => h, ?_, ?_, ?_⟩
    · intro id he
      cases he
    · intro id he
      cases he
    · intro id he
      cases he
      exact hflag
  | @permitDropped runId =>
    obtain ⟨hids, htokens⟩ := dropPermit_keeps s.registry runId
    exact advances_of_quiet rfl rfl rfl hids (by simp [htokens])

end FetchSystem

/-- What the history of a run says about its state. -/
structure FetchHistory (history : List FetchEvent) (s : FetchSystem) : Prop where
  issued : ∀ e ∈ history, ∀ runId, e.startedRun = some runId → runId < s.registry.nextRunId
  fresh : (history.filterMap FetchEvent.startedRun).Nodup
  cancelled : ∀ e ∈ history, ∀ runId, e.cancelledRun = some runId →
    s.registry.isCancelled runId = true ∧ runId < s.registry.nextRunId
  exclusive : history.Pairwise fun e e' =>
    ∀ runId, e.cancelledRun = some runId → e'.permittedRun ≠ some runId

theorem FetchHistory.snoc {history : List FetchEvent} {s t : FetchSystem} {e : FetchEvent}
    (h : FetchHistory history s) (ha : FetchSystem.Advances s e t) :
    FetchHistory (history ++ [e]) t := by
  refine ⟨?_, ?_, ?_, ?_⟩
  · intro f hf runId hs
    rcases List.mem_append.mp hf with hold | hnew
    · exact Nat.lt_of_lt_of_le (h.issued f hold runId hs) ha.ids
    · rw [List.mem_singleton.mp hnew] at hs
      exact (ha.starts runId hs).2
  · rw [List.filterMap_append]
    refine List.Nodup.append h.fresh ?_ ?_
    · cases hs : e.startedRun with
      | none => simp [hs]
      | some runId => simp [hs]
    · intro runId hold hnew
      obtain ⟨f, hf, hs⟩ := List.mem_filterMap.mp hold
      have hlt := h.issued f hf runId hs
      have hge : s.registry.nextRunId ≤ runId := by
        obtain ⟨g, hg, hgs⟩ := List.mem_filterMap.mp hnew
        rw [List.mem_singleton.mp hg] at hgs
        exact (ha.starts runId hgs).1
      omega
  · intro f hf runId hc
    rcases List.mem_append.mp hf with hold | hnew
    · obtain ⟨hflag, hlt⟩ := h.cancelled f hold runId hc
      exact ⟨ha.tokens runId hlt hflag, Nat.lt_of_lt_of_le hlt ha.ids⟩
    · rw [List.mem_singleton.mp hnew] at hc
      obtain ⟨hflag, hlt⟩ := ha.cancels runId hc
      exact ⟨hflag, Nat.lt_of_lt_of_le hlt ha.ids⟩
  · rw [List.pairwise_append]
    refine ⟨h.exclusive, List.pairwise_singleton _ _, ?_⟩
    intro f hf g hg runId hc hp
    rw [List.mem_singleton.mp hg] at hp
    have hflag := (h.cancelled f hf runId hc).1
    rw [ha.permits runId hp] at hflag
    cases hflag

theorem fetch_run {history : List FetchEvent} {s : FetchSystem}
    (h : fetchMachine.Run history s) : s.Sound ∧ FetchHistory history s := by
  refine Machine.Run.invariant (I := fun history (s : FetchSystem) =>
    s.Sound ∧ FetchHistory history s) ⟨FetchSystem.sound_start, ?_⟩ ?_ h
  · exact ⟨by simp, by simp, by simp, List.Pairwise.nil⟩
  · intro history s a e t _ hi hn
    exact ⟨hi.1.next_sound hn, hi.2.snoc (hi.1.advances hn)⟩

namespace FetchSystem

variable {s t : FetchSystem} {a : FetchAction} {e : FetchEvent}

/-- While a permit of the active run is alive, `cancel_run` answers that it is too late. -/
theorem Sound.cancelRun_spares_publication (h : s.Sound) {requested runId : Nat}
    (hn : s.next (.cancelRun requested) = some (e, t)) (hp : runId ∈ s.permits) :
    t.registry.isCancelled runId = s.registry.isCancelled runId ∧
      e.cancelledRun ≠ some runId := by
  cases next_step hn with
  | @notCancelled _ outcome houtcome =>
    refine ⟨rfl, ?_⟩
    intro he
    cases outcome with
    | cancelled id => exact houtcome id rfl
    | publicationInProgress id => cases he
    | staleRun id active => cases he
    | noActiveFetch => cases he
  | @cancelled active hactive hphase =>
    have hcount := h.publishing active hactive
    rw [if_neg hphase] at hcount
    have hne : runId ≠ active.runId := by
      intro heq
      rw [heq] at hp
      exact absurd hcount (Nat.ne_of_gt (List.count_pos_iff.mpr hp))
    refine ⟨by simp [HistoricalFetchRegistry.cancel, Function.update_of_ne hne], ?_⟩
    intro he
    exact hne (Option.some.inj he).symm

/-- An operation on one run leaves the registration and the token of every other run alone. -/
theorem other_run_unchanged {named runId : Nat} (hid : a.runId? = some named) (hne : runId ≠ named)
    (hn : s.next a = some (e, t)) :
    t.registry.registration runId = s.registry.registration runId ∧
      t.registry.isCancelled runId = s.registry.isCancelled runId := by
  have hdrop : (s.registry.dropFetch named).registration runId = s.registry.registration runId := by
    rcases s.registry.dropFetch_cases named with ⟨heq, -⟩ | ⟨b, hb, rfl, heq⟩
    · rw [heq]
    · rw [heq]
      simp [HistoricalFetchRegistry.registration, hb, Option.filter, Ne.symm hne]
  have htoken := (dropFetch_keeps s.registry named).2
  cases next_step hn with
  | tryStart => cases hid
  | tryStartQueued => cases hid
  | accepted => exact ⟨rfl, rfl⟩
  | turnedDown | fetchDropped =>
    cases hid
    exact ⟨hdrop, congrFun htoken runId⟩
  | notCancelled => exact ⟨rfl, rfl⟩
  | cancelled hactive =>
    cases hid
    simp [HistoricalFetchRegistry.registration, HistoricalFetchRegistry.cancel, hactive,
      Option.filter, Ne.symm hne, Function.update_of_ne hne]
  | tokenCancelled =>
    cases hid
    exact ⟨rfl, by simp [HistoricalFetchRegistry.cancel, Function.update_of_ne hne]⟩
  | notPublished => exact ⟨rfl, rfl⟩
  | published hactive =>
    cases hid
    simp [HistoricalFetchRegistry.registration, hactive, Option.filter, Ne.symm hne]
  | permitDropped =>
    cases hid
    rcases s.registry.dropPermit_cases named with ⟨heq, -⟩ | ⟨b, hb, rfl, -, heq⟩
    · rw [heq]
      exact ⟨rfl, rfl⟩
    · rw [heq]
      simp [HistoricalFetchRegistry.registration, hb, Option.filter, Ne.symm hne]

/-- The guard of the failed call is dropped before the call returns. -/
theorem Sound.failed_submission (h : s.Sound) {runId : Nat}
    {before : Option RegisteredHistoricalFetch} (hc : (runId, before) ∈ s.submitting)
    (hn : s.next (.submitReturns runId false) = some (e, t)) : t.registry.active = before := by
  cases next_step hn with
  | turnedDown hcall =>
    obtain ⟨hguards, hsub, -⟩ := h.only_submitting hcall
    have hbefore : before = none := h.before (runId, before) hc
    rw [hbefore]
    exact (h.drop_guard (by simp [hguards, hsub])).1

theorem failed_start {queued : Bool} {err : HistoricalFetchStartError}
    (hs : (s.start queued).1 = .started (.error err)) : (s.start queued).2 = s := by
  unfold start at hs ⊢
  cases hr : s.registry.tryStart with
  | error err => rfl
  | ok r => simp [hr] at hs

end FetchSystem

/-- The registry under any interleaving. The last three parts are about every step that can
follow the run. -/
theorem historical_fetch_registry_safe {history : List FetchEvent} {s : FetchSystem}
    (h : fetchMachine.Run history s) :
    (s.guards ++ s.submitting.map (·.1)).length ≤ 1 ∧
    (history.filterMap FetchEvent.startedRun).Nodup ∧
    (∀ a, s.registry.active = some a → s.permits.count a.runId ≤ 1) ∧
    (history.Pairwise fun e e' =>
      ∀ runId, e.cancelledRun = some runId → e'.permittedRun ≠ some runId) ∧
    (∀ requested e t, fetchMachine.next s (.cancelRun requested) = some (e, t) →
      ∀ runId ∈ s.permits, t.registry.isCancelled runId = s.registry.isCancelled runId ∧
        e.cancelledRun ≠ some runId) ∧
    (∀ a e t named, fetchMachine.next s a = some (e, t) → a.runId? = some named →
      ∀ runId, runId ≠ named →
        t.registry.registration runId = s.registry.registration runId ∧
        t.registry.isCancelled runId = s.registry.isCancelled runId) ∧
    (∀ runId before e t, (runId, before) ∈ s.submitting →
      fetchMachine.next s (.submitReturns runId false) = some (e, t) →
      t.registry.active = before) ∧
    (∀ err t, fetchMachine.next s .tryStartQueued = some (.started (.error err), t) → t = s) := by
  obtain ⟨hs, hh⟩ := fetch_run h
  refine ⟨?_, hh.fresh, ?_, hh.exclusive, ?_, ?_, ?_, ?_⟩
  · rw [hs.owners]
    cases s.registry.active <;> simp
  · intro a ha
    rw [hs.publishing a ha]
    split <;> omega
  · intro requested e t hn runId hp
    exact hs.cancelRun_spares_publication hn hp
  · intro a e t named hn hid runId hne
    exact FetchSystem.other_run_unchanged hid hne hn
  · intro runId before e t hc hn
    exact hs.failed_submission hc hn
  · intro err t hn
    have hstart : s.start true = (.started (.error err), t) := Option.some.inj hn
    have hkept : (s.start true).2 = s := FetchSystem.failed_start (by rw [hstart])
    rw [hstart] at hkept
    exact hkept

/-- A failed submission, then a run that publishes while it is asked to cancel. -/
def sampleActions : List FetchAction :=
  [.tryStartQueued, .tryStart, .submitReturns 1 false, .tryStart, .beginPublication 2,
    .cancelRun 2, .cancelRun 1]

theorem sampleActions_safe : ∃ history s, fetchMachine.Run history s ∧ s.permits = [2] ∧
    history.filterMap FetchEvent.startedRun = [1, 2] ∧ s.registry.isCancelled 2 = false ∧
    (s.guards ++ s.submitting.map (·.1)).length ≤ 1 := by
  obtain ⟨history, s, hrun, hp⟩ := Machine.run_of_exec_start (M := fetchMachine) sampleActions
    (fun history s => s.permits = [2] ∧ history.filterMap FetchEvent.startedRun = [1, 2] ∧
      s.registry.isCancelled 2 = false) (by decide)
  obtain ⟨hpermits, hstarted, hflag⟩ := of_decide_eq_true hp
  exact ⟨history, s, hrun, hpermits, hstarted, hflag, (historical_fetch_registry_safe hrun).1⟩

end Neoethos
