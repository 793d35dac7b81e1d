import Neoethos.CancelInvariant

namespace Neoethos

namespace CancelSystem

variable {s s' : CancelSystem} {a : CancelAction}

/-- A `register` that is new to its token, while the flag is unset and some `cancel`
on the token stands between its snapshot and its swap, is too late: that snapshot
misses the broker. -/
def RegistersInTime (s : CancelSystem) (a : CancelAction) : Prop :=
  ∀ c ∈ a.registering, ∀ t ∈ (s.acquires c).token,
    (s.acquires c).broker ∈ (s.tokens t).brokers ∨ (s.tokens t).cancelled = true ∨
      ∀ k < s.cancelCount, (s.cancels k).token = t → (s.cancels k).pc.isLocking = false

instance (s : CancelSystem) (a : CancelAction) : Decidable (RegistersInTime s a) :=
  inferInstanceAs (Decidable (∀ c ∈ a.registering, ∀ t ∈ (s.acquires c).token, _ ∨ _ ∨ _))

/-- What each `cancel` knows about the waiters of its token. -/
structure Covered (s : CancelSystem) : Prop where
  /-- Until the flag is set, a snapshot has all live registered brokers. -/
  snapshot : ∀ k todo held n, (s.cancels k).pc = .locking todo held →
    (s.tokens (s.cancels k).token).cancelled = false →
    n ∈ (s.tokens (s.cancels k).token).brokers → s.alive n = true → n ∈ held ∨ n ∈ todo
  /-- A snapshot has the brokers of all sleeping waiters. -/
  sleepers : ∀ k todo held c, (s.cancels k).pc = .locking todo held →
    (s.acquires c).token = some (s.cancels k).token → s.Parked c →
    (s.acquires c).broker ∈ held ∨ (s.acquires c).broker ∈ todo
  /-- Nobody is on the way to sleep once the flag is set. -/
  willWait : ∀ c id t, (s.acquires c).pc = .willWait id → (s.acquires c).token = some t →
    (s.tokens t).cancelled = false
  /-- The call that set the flag has the locks of the brokers it still has to notify. -/
  notifying : ∀ k todo held, (s.cancels k).pc = .notifying todo held →
    (s.tokens (s.cancels k).token).cancelled = true ∧ ∀ n ∈ todo, n ∈ held
  oneNotifier : ∀ k l todo held todo' held', (s.cancels k).pc = .notifying todo held →
    (s.cancels l).pc = .notifying todo' held' → (s.cancels k).token = (s.cancels l).token → k = l
  /-- Whoever still sleeps after the flag is set is going to be notified. -/
  awaited : ∀ c t, (s.acquires c).token = some t → (s.tokens t).cancelled = true → s.Parked c →
    ∃ k todo held, (s.cancels k).token = t ∧ (s.cancels k).pc = .notifying todo held ∧
      (s.acquires c).broker ∈ todo
  returned : ∀ k, (s.cancels k).pc = .returned →
    (s.tokens (s.cancels k).token).cancelled = true ∧
      ∀ c, (s.acquires c).token = some (s.cancels k).token → ¬s.Parked c

theorem Covered.snapshot_step (num : s.Numbered) (inv : s.Covered) (inTime : RegistersInTime s a)
    (step : CancelStep s a s') (k : Nat) (todo held : List Nat) (n : Nat)
    (hk : (s'.cancels k).pc = .locking todo held)
    (unset : (s'.tokens (s'.cancels k).token).cancelled = false)
    (hn : n ∈ (s'.tokens (s'.cancels k).token).brokers) (alive : s'.alive n = true) :
    n ∈ held ∨ n ∈ todo := by
  have snapshot := inv.snapshot
  revert hk unset hn alive
  cases step with
  | @register c t hc ht =>
    have late := inTime c rfl t ht
    have fresh := num.cancelsFresh k
    simp
    grind [CancellationToken.register, CancelPc.isLocking]
  | _ => simp; grind

theorem parked_registered (num : s.Numbered) {c t : Nat} (hc : s.Parked c)
    (ht : (s.acquires c).token = some t) :
    (s.acquires c).broker ∈ (s.tokens t).brokers ∧ s.alive (s.acquires c).broker = true := by
  obtain ⟨id, hid, _⟩ := hc
  exact ⟨num.registered c t (by rw [hid]; rfl) ht, num.alive c (by rw [hid]; rfl)⟩

theorem Covered.willWait_step (num : s.Numbered) (locked : s.Locked) (inv : s.Covered)
    (step : CancelStep s a s') (c id t : Nat) (hc : (s'.acquires c).pc = .willWait id)
    (ht : (s'.acquires c).token = some t) : (s'.tokens t).cancelled = false := by
  have willWait := inv.willWait
  cases step with
  | @swapWon k held hk unset =>
    -- the swap needs the lock that a call about to wait still has
    simp at hc ht ⊢
    have hw := willWait c id t hc ht
    by_cases htk : t = (s.cancels k).token
    · subst htk
      have hreg := num.registered c _ (by rw [hc]; rfl) ht
      have halive := num.alive c (by rw [hc]; rfl)
      have hheld := inv.snapshot k [] held _ hk unset hreg halive
      have hcancel := locked.cancel k (s.acquires c).broker
        (by rw [hk]; simpa [CancelPc.held] using hheld)
      have hacquire := locked.acquire c (by rw [hc]; rfl)
      rw [hcancel] at hacquire
      cases hacquire
    · simpa [htk] using hw
  | _ =>
    revert hc ht
    simp
    grind [CancelSystem.isCancelled, CancellationToken.register]

theorem Covered.sleepers_step (num : s.Numbered) (inv : s.Covered)
    (step : CancelStep s a s') (k : Nat) (todo held : List Nat) (c : Nat)
    (hk : (s'.cancels k).pc = .locking todo held)
    (ht : (s'.acquires c).token = some (s'.cancels k).token) (hc : s'.Parked c) :
    (s'.acquires c).broker ∈ held ∨ (s'.acquires c).broker ∈ todo := by
  obtain ⟨hp, htoken, hbroker⟩ := parked_step num step hc
  rw [htoken] at ht
  rw [hbroker]
  obtain hp | ⟨⟨id, hw⟩, htokens, hcancels⟩ := hp
  · have sleepers := inv.sleepers
    revert hk ht
    cases step with
    | @snapshot l live hl hlive =>
      have hreg := fun t => parked_registered num (t := t) hp
      simp
      grind
    | _ => simp; grind
  · rw [hcancels] at hk ht
    have hreg := num.registered c _ (by rw [hw]; rfl) ht
    have halive := num.alive c (by rw [hw]; rfl)
    exact inv.snapshot k todo held _ hk (inv.willWait c id _ hw ht) hreg halive

theorem flag_step (step : CancelStep s a s') {t : Nat} (set : (s'.tokens t).cancelled = true) :
    (s.tokens t).cancelled = true ∨ ∃ k held, (s.cancels k).token = t ∧
      (s.cancels k).pc = .locking [] held ∧ (s'.cancels k).token = t ∧
      (s'.cancels k).pc = .notifying held held := by
  revert set
  cases step with
  | @swapWon k held hk unset =>
    intro set
    by_cases htk : t = (s.cancels k).token
    · exact Or.inr ⟨k, held, htk.symm, hk, by simp [htk], by simp⟩
    · exact Or.inl (by simpa [htk] using set)
  | _ => simp; grind [CancellationToken.register]

theorem flag_mono (step : CancelStep s a s') {t : Nat} (set : (s.tokens t).cancelled = true) :
    (s'.tokens t).cancelled = true := by
  cases step <;> simp <;> grind [CancellationToken.register]

/-- A call that has set the flag goes through its brokers one by one. -/
theorem notifier_step (num : s.Numbered) (step : CancelStep s a s') {k : Nat}
    {todo held : List Nat} (hk : (s.cancels k).pc = .notifying todo held) :
    (s'.cancels k).token = (s.cancels k).token ∧
      ((s'.cancels k).pc = .notifying todo held ∨
        (∃ n todo', todo = n :: todo' ∧ (s'.cancels k).pc = .notifying todo' held ∧
          (s'.brokers n).parked = []) ∨
        todo = [] ∧ (s'.cancels k).pc = .returned) := by
  have fresh := num.cancelsFresh k
  cases step with
  | @notify l n rest held' hl =>
    by_cases hkl : k = l
    · subst hkl
      rw [hk] at hl
      cases hl
      exact ⟨by simp, Or.inr (Or.inl ⟨n, rest, rfl, by simp, by simp [Broker.notifyAll]⟩)⟩
    · exact ⟨by simp, Or.inl (by simp [hkl, hk])⟩
  | _ => simp; grind

/-- A `cancel` returns without a notification only after a lost swap. -/
theorem returned_step (step : CancelStep s a s') {k : Nat} (hk : (s'.cancels k).pc = .returned) :
    (s'.cancels k).token = (s.cancels k).token ∧
      ((s.cancels k).pc = .returned ∨
        (∃ held, (s.cancels k).pc = .locking [] held ∧
          (s.tokens (s.cancels k).token).cancelled = true) ∨
        ∃ held, (s.cancels k).pc = .notifying [] held) := by
  revert hk
  cases step <;> simp <;> grind

theorem Covered.awaited_step (num : s.Numbered) (inv : s.Covered)
    (step : CancelStep s a s') (c t : Nat) (ht : (s'.acquires c).token = some t)
    (set : (s'.tokens t).cancelled = true) (hc : s'.Parked c) :
    ∃ k todo held, (s'.cancels k).token = t ∧ (s'.cancels k).pc = .notifying todo held ∧
      (s'.acquires c).broker ∈ todo := by
  obtain ⟨hp, htoken, hbroker⟩ := parked_step num step hc
  rw [htoken] at ht
  obtain hp | ⟨⟨id, hw⟩, htokens, _⟩ := hp
  · obtain old | ⟨k, held, rfl, hk, hkt, hk'⟩ := flag_step step set
    · obtain ⟨k, todo, held, rfl, hk, hb⟩ := inv.awaited c t ht old hp
      obtain ⟨hkt, same | ⟨n, rest, rfl, hk', empty⟩ | ⟨rfl, _⟩⟩ := notifier_step num step hk
      · exact ⟨k, todo, held, hkt, same, by rw [hbroker]; exact hb⟩
      · refine ⟨k, rest, held, hkt, hk', ?_⟩
        rw [← hbroker] at hb
        obtain hb | hb := List.mem_cons.mp hb
        · -- the broker just notified has no sleeper left
          obtain ⟨id, _, hid⟩ := hc
          rw [hb, empty] at hid
          simp at hid
        · exact hb
      · simp at hb
    · have hs := inv.sleepers k [] held c hk ht hp
      exact ⟨k, held, held, hkt, hk', by rw [hbroker]; simpa using hs⟩
  · rw [htokens, inv.willWait c id t hw ht] at set
    cases set

theorem Covered.notifying_step (num : s.Numbered) (inv : s.Covered) (step : CancelStep s a s')
    (k : Nat) (todo held : List Nat) (hk : (s'.cancels k).pc = .notifying todo held) :
    (s'.tokens (s'.cancels k).token).cancelled = true ∧ ∀ n ∈ todo, n ∈ held := by
  have notifying := inv.notifying
  have fresh := num.cancelsFresh
  revert hk
  cases step <;> simp <;> grind [CancellationToken.register]

theorem Covered.oneNotifier_step (inv : s.Covered) (step : CancelStep s a s')
    (k l : Nat) (todo held todo' held' : List Nat)
    (hk : (s'.cancels k).pc = .notifying todo held)
    (hl : (s'.cancels l).pc = .notifying todo' held')
    (ht : (s'.cancels k).token = (s'.cancels l).token) : k = l := by
  have notifying := inv.notifying
  have oneNotifier := inv.oneNotifier
  revert hk hl ht
  cases step <;> simp <;> grind

theorem Covered.returned_parked (num : s.Numbered) (locked : s.Locked) (inv : s.Covered)
    (step : CancelStep s a s') (k : Nat) (hk : (s'.cancels k).pc = .returned) :
    (s'.tokens (s'.cancels k).token).cancelled = true ∧
      ∀ c, (s'.acquires c).token = some (s'.cancels k).token → ¬s'.Parked c := by
  obtain ⟨hkt, hk⟩ := returned_step step hk
  rw [hkt]
  have set : (s.tokens (s.cancels k).token).cancelled = true := by
    obtain hk | ⟨held, _, set⟩ | ⟨held, hk⟩ := hk
    · exact (inv.returned k hk).1
    · exact set
    · exact (inv.notifying k [] held hk).1
  refine ⟨flag_mono step set, ?_⟩
  intro c ht hc
  obtain ⟨hp, htoken, _⟩ := parked_step num step hc
  rw [htoken] at ht
  obtain hp | ⟨⟨id, hw⟩, _, _⟩ := hp
  · obtain ⟨l, todo, held', hlt, hl, hb⟩ := inv.awaited c _ ht set hp
    obtain hk | ⟨held, hk, _⟩ | ⟨held, hk⟩ := hk
    · exact (inv.returned k hk).2 c ht hp
    · -- both have the lock of the sleeper's broker
      have hlock := locked.cancel l _ (by rw [hl]; exact (inv.notifying l todo held' hl).2 _ hb)
      have hheld := inv.sleepers k [] held c hk ht hp
      have hklock := locked.cancel k (s.acquires c).broker
        (by rw [hk]; simpa [CancelPc.held] using hheld)
      rw [hlock] at hklock
      cases hklock
      rw [hk] at hl
      cases hl
    · have hkl := inv.oneNotifier k l [] held todo held' hk hl hlt.symm
      subst hkl
      rw [hk] at hl
      cases hl
      simp at hb
  · rw [inv.willWait c id _ hw ht] at set
    cases set

theorem Covered.step (num : s.Numbered) (locked : s.Locked) (inv : s.Covered)
    (inTime : RegistersInTime s a) (step : CancelStep s a s') : s'.Covered where
  snapshot := inv.snapshot_step num inTime step
  sleepers := inv.sleepers_step num step
  willWait := inv.willWait_step num locked step
  notifying := inv.notifying_step num step
  oneNotifier := inv.oneNotifier_step step
  awaited := inv.awaited_step num step
  returned := inv.returned_parked num locked step

end CancelSystem

namespace CancelSystem

variable {s : CancelSystem}

structure NoCancellationLost (s : CancelSystem) : Prop where
  numbered : s.Numbered
  locked : s.Locked
  covered : s.Covered

theorem noCancellationLost_new (limit : Nat → WorkerLimit)
    (limits : Nat → Nat → AuxiliarySlotLimit) : (new limit limits).NoCancellationLost where
  numbered := by
    constructor <;> simp [new, AcquirePc.isActive, AcquirePc.isRegistered, AcquirePc.waiterId]
  locked := by constructor <;> simp [new, AcquirePc.holdsLock, CancelPc.held]
  covered := by constructor <;> simp [new]

theorem NoCancellationLost.delivered (inv : s.NoCancellationLost) : s.CancellationDelivered := by
  rintro t c ⟨k, rfl, hk⟩ ht
  exact (inv.covered.returned k hk).2 c ht

end CancelSystem

theorem noCancellationLost_run {limit : Nat → WorkerLimit}
    {limits : Nat → Nat → AuxiliarySlotLimit} {es : List CancelAction} {s : CancelSystem}
    (h : (cancelMachine limit limits).RunUnder CancelSystem.RegistersInTime es s) :
    s.NoCancellationLost := by
  refine h.state_invariant (I := CancelSystem.NoCancellationLost)
    (CancelSystem.noCancellationLost_new limit limits) ?_
  intro s a e s' inv inTime hn
  have step := cancelMachine_step hn
  exact ⟨inv.numbered.step step, inv.locked.step step,
    inv.covered.step inv.numbered inv.locked inTime step⟩

/-- In every run without a late registration no cancellation is lost: once a `cancel`
on a token has returned, nobody who holds the token sleeps without a notification. -/
theorem cancellation_delivered_unless_registered_late {limit : Nat → WorkerLimit}
    {limits : Nat → Nat → AuxiliarySlotLimit} {es : List CancelAction} {s : CancelSystem}
    (h : (cancelMachine limit limits).RunUnder CancelSystem.RegistersInTime es s) :
    s.CancellationDelivered :=
  (noCancellationLost_run h).delivered

/-- The waiter is asleep before the `cancel` begins. -/
def earlyRegistration : List CancelAction :=
  [.broker 0 (.tryAcquire false ⟨oneWorker, .localWork⟩ none),
    .callAcquire (some 7) 0 false ⟨oneWorker, .child⟩ none,
    .register 0, .readFlag 0, .enqueue 0, .loopCheck 0, .wait 0,
    .callCancel 7, .snapshot 0, .takeLock 0, .swap 0, .notify 0, .returnCancel 0]

theorem cancellation_delivered_to_sleeping_waiter :
    ∃ es s, (cancelMachine (fun _ => ⟨1, by decide, by decide⟩)
        fun _ _ => ⟨1, by decide, by decide⟩).RunUnder CancelSystem.RegistersInTime es s ∧
      s.CancelReturned 7 ∧ (s.acquires 0).token = some 7 ∧ (s.acquires 0).pc = .waiting 0 ∧
      ¬s.Parked 0 := by
  obtain ⟨es, s, hr, hp⟩ := Machine.run_of_exec_start
    (M := (cancelMachine (fun _ => ⟨1, by decide, by decide⟩)
      fun _ _ => ⟨1, by decide, by decide⟩).restrict CancelSystem.RegistersInTime)
    earlyRegistration
    (fun _ s => decide ((s.acquires 0).token = some 7) && decide ((s.acquires 0).pc = .waiting 0) &&
      decide ((s.cancels 0).token = 7 ∧ (s.cancels 0).pc = .returned)) (by decide)
  simp only [Bool.and_eq_true, decide_eq_true_eq] at hp
  obtain ⟨⟨token, pc⟩, returned⟩ := hp
  have run := Machine.runUnder_of_restrict hr
  exact ⟨es, s, run, ⟨0, returned⟩, token, pc,
    cancellation_delivered_unless_registered_late run 7 0 ⟨0, returned⟩ token⟩

end Neoethos
