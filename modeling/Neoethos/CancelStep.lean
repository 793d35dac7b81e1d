import Neoethos.CancelSystem

namespace Neoethos

/-- No new waiter id was given out and nobody new is asleep. -/
structure Calmer (b b' : Broker) : Prop where
  nextWaiterId : b'.nextWaiterId = b.nextWaiterId
  parked : ∀ id ∈ b'.parked, id ∈ b.parked

theorem Calmer.of_notified {b b' : Broker} (hn : b'.nextWaiterId = b.nextWaiterId)
    (hp : b'.parked = []) : Calmer b b' := ⟨hn, by simp [hp]⟩

/-- A loop pass that does not end in `wait` wakes everybody. -/
theorem checkWaiter_calmer {b b' : Broker} {w : Waiter} {cancelled : Bool} {e : BrokerEvent}
    (h : b.checkWaiter w cancelled = .ok (e, b')) (he : ∀ v, e ≠ .parked v) : Calmer b b' := by
  unfold Broker.checkWaiter at h
  split at h
  next => cases h; exact .of_notified rfl rfl
  next =>
    split at h
    next =>
      obtain ⟨r, hr, hp⟩ := Fallible.map_ok_iff.mp h
      cases hp
      exact .of_notified (reserveResources_reserved hr).nextWaiterId rfl
    next => cases h; exact absurd rfl (he w)

theorem checkWaiter_parked {b b' : Broker} {w v : Waiter} {cancelled : Bool}
    (h : b.checkWaiter w cancelled = .ok (.parked v, b')) : cancelled = false := by
  cases cancelled with
  | false => rfl
  | true => simp [Broker.checkWaiter] at h

/-- Only a queueing gives out an id, and only `wait` puts a waiter to sleep. -/
theorem BrokerStep.calmer {b b' : Broker} {e : BrokerEvent} (step : BrokerStep b e b')
    (queued : ∀ w, e ≠ .enqueued w) (slept : ∀ w, e ≠ .parked w) : Calmer b b' := by
  cases step with
  | enqueued => exact absurd rfl (queued _)
  | parked => exact absurd rfl (slept _)
  | cancelled => exact .of_notified rfl rfl
  | granted _ _ _ hr => exact .of_notified hr.nextWaiterId rfl
  | woken => exact ⟨rfl, fun _ hid => List.mem_of_mem_erase hid⟩
  | notified => exact .of_notified rfl rfl
  | tryGranted _ hr => exact ⟨hr.nextWaiterId, by simp [hr.parked]⟩
  | dropLease => exact .of_notified rfl rfl
  | dropTransfer => exact .of_notified rfl rfl
  | dropGrant => exact .of_notified rfl rfl
  | dropSlot => exact .of_notified rfl rfl
  | _ => exact ⟨rfl, fun _ => id⟩

theorem tryAcquireResources_event {b b' : Broker} {nested : Bool} {request : CpuPermitRequest}
    {pool : Option Nat} {e : BrokerEvent}
    (h : b.tryAcquireResources nested request pool = .ok (e, b')) :
    (∀ w, e ≠ .enqueued w) ∧ ∀ w, e ≠ .parked w := by
  unfold Broker.tryAcquireResources at h
  split at h
  next => cases h; simp
  next =>
    split at h
    next => cases h; simp
    next =>
      split at h
      next => cases h; simp
      next =>
        obtain ⟨r, _, hp⟩ := Fallible.map_ok_iff.mp h
        cases hp
        simp

theorem act_event {b b' : Broker} {a : BrokerAction} {e : BrokerEvent}
    (one : a.isOneStep = true) (h : b.act a = some (.ok (e, b'))) :
    (∀ w, e ≠ .enqueued w) ∧ ∀ w, e ≠ .parked w := by
  cases a with
  | enqueue => simp [BrokerAction.isOneStep] at one
  | check => simp [BrokerAction.isOneStep] at one
  | wake => simp [BrokerAction.isOneStep] at one
  | notify => simp [BrokerAction.isOneStep] at one
  | tryAcquire nested request pool => exact tryAcquireResources_event (Option.some.inj h)
  | split lease width =>
    simp only [Broker.act] at h
    split at h
    next => split at h <;> cases h <;> simp
    next => simp at h
  | intoTransfer lease =>
    simp only [Broker.act] at h
    split at h <;> cases h
    simp
  | accept lease =>
    simp only [Broker.act] at h
    split at h <;> cases h
    simp
  | intoParts grant =>
    simp only [Broker.act] at h
    split at h <;> cases h
    simp
  | dropLease lease =>
    simp only [Broker.act] at h
    split at h
    next =>
      obtain ⟨_, _, hp⟩ := Fallible.map_ok_iff.mp (Option.some.inj h)
      cases hp
      simp
    next => simp at h
  | dropTransfer lease =>
    simp only [Broker.act] at h
    split at h
    next =>
      obtain ⟨_, _, hp⟩ := Fallible.map_ok_iff.mp (Option.some.inj h)
      cases hp
      simp
    next => simp at h
  | dropGrant grant =>
    simp only [Broker.act] at h
    split at h
    next =>
      obtain ⟨_, _, hp⟩ := Fallible.map_ok_iff.mp (Option.some.inj h)
      cases hp
      simp
    next => simp at h
  | dropSlot slot =>
    simp only [Broker.act] at h
    split at h
    next =>
      obtain ⟨_, _, hp⟩ := Fallible.map_ok_iff.mp (Option.some.inj h)
      cases hp
      simp
    next => simp at h

/-- Every step of the system, with what it needs and what it leaves behind. -/
inductive CancelStep (s : CancelSystem) : CancelAction → CancelSystem → Prop
  | callAcquire {token n nested request pool pc} : s.alive n = true →
      pc = .returned ∨ pc = .entered ∨ pc = .flagRead ∧ token = none →
      CancelStep s (.callAcquire token n nested request pool) { s with
        acquires := Function.update s.acquires s.acquireCount ⟨token, n, request, pool, pc⟩
        acquireCount := s.acquireCount + 1 }
  | register {c t} : (s.acquires c).pc = .entered → (s.acquires c).token = some t →
      CancelStep s (.register c)
        ((s.setToken t ((s.tokens t).register (s.acquires c).broker)).setPc c .registered)
  | readFlag {c pc} : (s.acquires c).pc = .registered → pc = .returned ∨ pc = .flagRead →
      CancelStep s (.readFlag c) (s.setPc c pc)
  | exhausted {c} : (s.acquires c).pc = .flagRead →
      CancelStep s (.enqueue c) (s.setPc c .returned)
  | enqueue {c w b} : (s.acquires c).pc = .flagRead → s.lock (s.acquires c).broker = none →
      BrokerStep (s.brokers (s.acquires c).broker) (.enqueued w) b →
      CancelStep s (.enqueue c) (((s.setBroker (s.acquires c).broker b).setLock
        (s.acquires c).broker (some (.acquire c))).setPc c (.looping w.id))
  | loopCheck {c id} : (s.acquires c).pc = .looping id →
      s.isCancelled (s.acquires c).token = false →
      CancelStep s (.loopCheck c) (s.setPc c (.willWait id))
  | leave {c id b} : (s.acquires c).pc = .looping id →
      Calmer (s.brokers (s.acquires c).broker) b →
      CancelStep s (.loopCheck c) (((s.setBroker (s.acquires c).broker b).setLock
        (s.acquires c).broker none).setPc c .returned)
  | wait {c id} : (s.acquires c).pc = .willWait id →
      CancelStep s (.wait c) (((s.setBroker (s.acquires c).broker
        { s.brokers (s.acquires c).broker with
          parked := id :: (s.brokers (s.acquires c).broker).parked }).setLock
        (s.acquires c).broker none).setPc c (.waiting id))
  | wakeSpuriously {c b} : Calmer (s.brokers (s.acquires c).broker) b →
      CancelStep s (.wakeSpuriously c) (s.setBroker (s.acquires c).broker b)
  | relock {c id} : (s.acquires c).pc = .waiting id → s.lock (s.acquires c).broker = none →
      CancelStep s (.relock c)
        ((s.setLock (s.acquires c).broker (some (.acquire c))).setPc c (.looping id))
  | callCancel {t} : CancelStep s (.callCancel t) { s with
      cancels := Function.update s.cancels s.cancelCount ⟨t, .entered⟩
      cancelCount := s.cancelCount + 1 }
  | snapshot {k todo} : (s.cancels k).pc = .entered →
      (∀ n, n ∈ todo ↔ n ∈ (s.tokens (s.cancels k).token).brokers ∧ s.alive n = true) →
      CancelStep s (.snapshot k) ((s.setToken (s.cancels k).token
        { s.tokens (s.cancels k).token with
          brokers := (s.tokens (s.cancels k).token).brokers.filter fun n => s.alive n }).setCancelPc k
        (.locking todo []))
  | takeLock {k n todo held} : (s.cancels k).pc = .locking (n :: todo) held → s.lock n = none →
      CancelStep s (.takeLock k)
        ((s.setLock n (some (.cancel k))).setCancelPc k (.locking todo (held ++ [n])))
  | swapLost {k held} : (s.cancels k).pc = .locking [] held →
      (s.tokens (s.cancels k).token).cancelled = true →
      CancelStep s (.swap k) ((s.unlockAll held).setCancelPc k .returned)
  | swapWon {k held} : (s.cancels k).pc = .locking [] held →
      (s.tokens (s.cancels k).token).cancelled = false →
      CancelStep s (.swap k) ((s.setToken (s.cancels k).token
        { s.tokens (s.cancels k).token with cancelled := true }).setCancelPc k
        (.notifying held held))
  | notify {k n todo held} : (s.cancels k).pc = .notifying (n :: todo) held →
      CancelStep s (.notify k)
        ((s.setBroker n (s.brokers n).notifyAll).setCancelPc k (.notifying todo held))
  | returnCancel {k held} : (s.cancels k).pc = .notifying [] held →
      CancelStep s (.returnCancel k) ((s.unlockAll held).setCancelPc k .returned)
  | broker {n a b} : Calmer (s.brokers n) b → CancelStep s (.broker n a) (s.setBroker n b)
  | dropBroker {n} : s.Unreferenced n →
      CancelStep s (.dropBroker n) { s with alive := Function.update s.alive n false }

theorem enqueue_step {s s' : CancelSystem} {c : Nat} (h : s.enqueue c = some s') :
    CancelStep s (.enqueue c) s' := by
  simp only [CancelSystem.enqueue] at h
  split at h
  next hpc =>
    split at h
    next free =>
      split at h
      next w b he =>
        cases h
        exact .enqueue hpc free (enqueueWaiter_step he)
      next => cases h; exact .exhausted hpc
    next => simp at h
  next => simp at h

theorem loopCheck_step {s s' : CancelSystem} {c : Nat} (h : s.loopCheck c = some s') :
    CancelStep s (.loopCheck c) s' := by
  simp only [CancelSystem.loopCheck] at h
  split at h
  next id hpc =>
    split at h
    next hm =>
      obtain ⟨w, _, hc⟩ := Option.map_eq_some_iff.mp hm
      cases h
      exact .loopCheck hpc (checkWaiter_parked hc)
    next e b notParked hm =>
      obtain ⟨w, _, hc⟩ := Option.map_eq_some_iff.mp hm
      cases h
      exact .leave hpc (checkWaiter_calmer hc fun v hv => notParked v hv)
    next => simp at h
  next => simp at h

theorem cancel_next_step {s s' : CancelSystem} {a : CancelAction} (h : s.next a = some s') :
    CancelStep s a s' := by
  cases a with
  | callAcquire token n nested request pool =>
    simp only [CancelSystem.next, CancelSystem.callAcquire] at h
    split at h
    next alive =>
      cases h
      refine .callAcquire alive ?_
      split
      next => exact Or.inl rfl
      next =>
        split
        next none => exact Or.inr (Or.inr ⟨rfl, by simpa using none⟩)
        next => exact Or.inr (Or.inl rfl)
    next => simp at h
  | register c =>
    simp only [CancelSystem.next, CancelSystem.register] at h
    split at h
    next t hpc ht => cases h; exact .register hpc ht
    next => simp at h
  | readFlag c =>
    simp only [CancelSystem.next, CancelSystem.readFlag] at h
    split at h
    next hpc =>
      cases h
      refine .readFlag hpc ?_
      split
      next => exact Or.inl rfl
      next => exact Or.inr rfl
    next => simp at h
  | enqueue c => exact enqueue_step h
  | loopCheck c => exact loopCheck_step h
  | wait c =>
    simp only [CancelSystem.next, CancelSystem.wait] at h
    split at h
    next hpc => cases h; exact .wait hpc
    next => simp at h
  | wakeSpuriously c =>
    simp only [CancelSystem.next, CancelSystem.wakeSpuriously] at h
    split at h
    next =>
      split at h
      next => cases h; exact .wakeSpuriously ⟨rfl, fun _ hid => List.mem_of_mem_erase hid⟩
      next => simp at h
    next => simp at h
  | relock c =>
    simp only [CancelSystem.next, CancelSystem.relock] at h
    split at h
    next hpc =>
      split at h
      next ready => cases h; exact .relock hpc ready.2
      next => simp at h
    next => simp at h
  | callCancel t => cases h; exact .callCancel
  | snapshot k =>
    simp only [CancelSystem.next, CancelSystem.snapshot] at h
    split at h
    next hpc =>
      cases h
      exact .snapshot hpc fun n => by simp
    next => simp at h
  | takeLock k =>
    simp only [CancelSystem.next, CancelSystem.takeLock] at h
    split at h
    next hpc =>
      split at h
      next free => cases h; exact .takeLock hpc free
      next => simp at h
    next => simp at h
  | swap k =>
    simp only [CancelSystem.next, CancelSystem.swap] at h
    split at h
    next hpc =>
      split at h
      next set => cases h; exact .swapLost hpc set
      next unset => cases h; exact .swapWon hpc (by simpa using unset)
    next => simp at h
  | notify k =>
    simp only [CancelSystem.next, CancelSystem.notify] at h
    split at h
    next hpc => cases h; exact .notify hpc
    next => simp at h
  | returnCancel k =>
    simp only [CancelSystem.next, CancelSystem.returnCancel] at h
    split at h
    next hpc => cases h; exact .returnCancel hpc
    next => simp at h
  | broker n a =>
    simp only [CancelSystem.next, CancelSystem.brokerAction] at h
    split at h
    next ready =>
      split at h
      next e b ha =>
        cases h
        obtain ⟨queued, slept⟩ := act_event ready.1 ha
        exact .broker ((act_step ha).calmer queued slept)
      next => simp at h
    next => simp at h
  | dropBroker n =>
    simp only [CancelSystem.next, CancelSystem.dropBroker] at h
    split at h
    next free => cases h; exact .dropBroker free
    next => simp at h

theorem cancelMachine_step {limit : Nat → WorkerLimit} {limits : Nat → Nat → AuxiliarySlotLimit}
    {s s' : CancelSystem} {a e : CancelAction}
    (h : (cancelMachine limit limits).next s a = some (e, s')) : CancelStep s a s' := by
  obtain ⟨t, ht, hp⟩ := Option.map_eq_some_iff.mp h
  cases hp
  exact cancel_next_step ht

end Neoethos
