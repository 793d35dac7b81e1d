import Neoethos.CancelStep

namespace Neoethos

/-- The call that a `register` step belongs to. -/
def CancelAction.registering : CancelAction → Option Nat
  | .register c => some c
  | _ => none

def CancelPc.isLocking : CancelPc → Bool
  | .locking _ _ => true
  | _ => false

namespace CancelSystem

variable {s s' : CancelSystem} {a : CancelAction}

@[simp] theorem setPc_token {c d : Nat} {pc : AcquirePc} :
    ((s.setPc c pc).acquires d).token = (s.acquires d).token := by
  unfold setPc
  by_cases hd : d = c
  · subst hd; simp
  · simp [hd]

@[simp] theorem setPc_broker {c d : Nat} {pc : AcquirePc} :
    ((s.setPc c pc).acquires d).broker = (s.acquires d).broker := by
  unfold setPc
  by_cases hd : d = c
  · subst hd; simp
  · simp [hd]

@[simp] theorem setPc_pc {c d : Nat} {pc : AcquirePc} :
    ((s.setPc c pc).acquires d).pc = if d = c then pc else (s.acquires d).pc := by
  unfold setPc
  by_cases hd : d = c
  · subst hd; simp
  · simp [hd]

@[simp] theorem setCancelPc_token {k l : Nat} {pc : CancelPc} :
    ((s.setCancelPc k pc).cancels l).token = (s.cancels l).token := by
  unfold setCancelPc
  by_cases hl : l = k
  · subst hl; simp
  · simp [hl]

@[simp] theorem setCancelPc_pc {k l : Nat} {pc : CancelPc} :
    ((s.setCancelPc k pc).cancels l).pc = if l = k then pc else (s.cancels l).pc := by
  unfold setCancelPc
  by_cases hl : l = k
  · subst hl; simp
  · simp [hl]

attribute [local simp] Function.update_apply

theorem isActive_of_isRegistered {pc : AcquirePc} (h : pc.isRegistered = true) :
    pc.isActive = true := by
  cases pc <;> simp_all [AcquirePc.isRegistered, AcquirePc.isActive]

theorem enqueued_spec {b b' : Broker} {w : Waiter} (step : BrokerStep b (.enqueued w) b') :
    w.id = b.nextWaiterId ∧ b'.nextWaiterId = b.nextWaiterId + 1 ∧ b'.parked = b.parked := by
  cases step with
  | enqueued hid _ _ => exact ⟨hid, rfl, rfl⟩

theorem calmer_notifyAll (b : Broker) : Calmer b b.notifyAll := .of_notified rfl rfl

structure Numbered (s : CancelSystem) : Prop where
  acquiresFresh : ∀ c, s.acquireCount ≤ c → (s.acquires c).pc = .idle
  cancelsFresh : ∀ k, s.cancelCount ≤ k → (s.cancels k).pc = .idle
  alive : ∀ c, (s.acquires c).pc.isActive = true → s.alive (s.acquires c).broker = true
  registered : ∀ c t, (s.acquires c).pc.isRegistered = true → (s.acquires c).token = some t →
    (s.acquires c).broker ∈ (s.tokens t).brokers
  idFresh : ∀ c id, (s.acquires c).pc.waiterId = some id →
    id < (s.brokers (s.acquires c).broker).nextWaiterId
  idUnique : ∀ c d id, (s.acquires c).broker = (s.acquires d).broker →
    (s.acquires c).pc.waiterId = some id → (s.acquires d).pc.waiterId = some id → c = d

theorem Numbered.idFresh_step (inv : s.Numbered) (step : CancelStep s a s') (c id : Nat)
    (hc : (s'.acquires c).pc.waiterId = some id) :
    id < (s'.brokers (s'.acquires c).broker).nextWaiterId := by
  have idFresh := inv.idFresh
  revert hc
  cases step with
  | enqueue _ _ hb =>
    obtain ⟨hid, hnext, _⟩ := enqueued_spec hb
    simp
    grind [AcquirePc.waiterId]
  | _ => simp; grind [AcquirePc.waiterId, Calmer, calmer_notifyAll]

theorem Numbered.idUnique_step (inv : s.Numbered) (step : CancelStep s a s') (c d id : Nat)
    (hb : (s'.acquires c).broker = (s'.acquires d).broker)
    (hc : (s'.acquires c).pc.waiterId = some id) (hd : (s'.acquires d).pc.waiterId = some id) :
    c = d := by
  have idFresh := inv.idFresh
  have idUnique := inv.idUnique
  revert hb hc hd
  cases step with
  | enqueue _ _ hb =>
    -- the new id is above every id in use at this broker
    obtain ⟨hid, _, _⟩ := enqueued_spec hb
    simp
    grind [AcquirePc.waiterId]
  | _ => simp; grind [AcquirePc.waiterId]

theorem Numbered.step (inv : s.Numbered) (step : CancelStep s a s') : s'.Numbered where
  acquiresFresh c := by
    have acquiresFresh := inv.acquiresFresh
    cases step <;> simp <;> grind
  cancelsFresh k := by
    have cancelsFresh := inv.cancelsFresh
    cases step <;> simp <;> grind
  alive c := by
    have acquiresFresh := inv.acquiresFresh
    have alive := inv.alive
    cases step <;> simp <;> grind [AcquirePc.isActive, CancelSystem.Unreferenced]
  registered c t := by
    have alive := inv.alive
    have registered := inv.registered
    cases step <;> simp <;>
      grind [AcquirePc.isRegistered, isActive_of_isRegistered, CancellationToken.register]
  idFresh := inv.idFresh_step step
  idUnique := inv.idUnique_step step

/-- Whoever is in a critical section or past a `lock` of `cancel` has the mutex. -/
structure Locked (s : CancelSystem) : Prop where
  acquire : ∀ c, (s.acquires c).pc.holdsLock = true →
    s.lock (s.acquires c).broker = some (.acquire c)
  cancel : ∀ k n, n ∈ (s.cancels k).pc.held → s.lock n = some (.cancel k)

theorem Locked.acquire_step (inv : s.Locked) (step : CancelStep s a s') (c : Nat)
    (hc : (s'.acquires c).pc.holdsLock = true) :
    s'.lock (s'.acquires c).broker = some (.acquire c) := by
  have acquire := inv.acquire
  have cancel := inv.cancel
  revert hc
  cases step with
  | @swapLost k held hk _ =>
    have hn := cancel k (s.acquires c).broker
    rw [hk] at hn
    simp
    grind [CancelPc.held]
  | @returnCancel k held hk =>
    have hn := cancel k (s.acquires c).broker
    rw [hk] at hn
    simp
    grind [CancelPc.held]
  | _ => simp; grind [AcquirePc.holdsLock, CancelPc.held]

theorem Locked.cancel_step (inv : s.Locked) (step : CancelStep s a s') (l n : Nat)
    (hn : n ∈ (s'.cancels l).pc.held) : s'.lock n = some (.cancel l) := by
  have acquire := inv.acquire
  have cancel := inv.cancel
  revert hn
  cases step with
  | @swapLost k held hk _ =>
    have hkn := cancel k n
    rw [hk] at hkn
    simp
    grind [CancelPc.held]
  | @returnCancel k held hk =>
    have hkn := cancel k n
    rw [hk] at hkn
    simp
    grind [CancelPc.held]
  | _ => simp; grind [AcquirePc.holdsLock, CancelPc.held]

theorem Locked.step (inv : s.Locked) (step : CancelStep s a s') : s'.Locked :=
  ⟨inv.acquire_step step, inv.cancel_step step⟩

/-- Only `wait` puts a call to sleep, and a call that sleeps keeps its token and broker. -/
theorem parked_step (num : s.Numbered) (step : CancelStep s a s') {c : Nat} (h : s'.Parked c) :
    (s.Parked c ∨ (∃ id, (s.acquires c).pc = .willWait id) ∧ s'.tokens = s.tokens ∧
        s'.cancels = s.cancels) ∧
      (s'.acquires c).token = (s.acquires c).token ∧
      (s'.acquires c).broker = (s.acquires c).broker := by
  revert h
  unfold Parked
  cases step with
  | enqueue _ _ hb =>
    obtain ⟨_, _, hp⟩ := enqueued_spec hb
    simp
    grind
  | @wait d id hd =>
    -- another sleeper of this broker has another id
    have hne := num.idUnique c d
    rintro ⟨x, hx, hp⟩
    by_cases hcd : c = d
    · subst hcd
      exact ⟨Or.inr ⟨⟨id, hd⟩, rfl, rfl⟩, by simp, by simp⟩
    · simp [hcd] at hx hp
      refine ⟨Or.inl ⟨x, hx, ?_⟩, by simp, by simp⟩
      have hxid : (s.acquires c).broker = (s.acquires d).broker → x ≠ id := by
        intro hb hxid
        exact hcd (hne x hb (by rw [hx]; rfl) (by rw [hd, hxid]; rfl))
      grind
  | _ => simp; grind [Calmer, calmer_notifyAll]

end CancelSystem

end Neoethos
