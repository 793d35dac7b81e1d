import Neoethos.BrokerState
import Neoethos.Fallible

namespace Neoethos

/-- What `reserve_resources` does when it does not panic. -/
structure Reserved (b : Broker) (request : CpuPermitRequest) (pool : Option Nat)
    (grant : CompositeAdmissionGrant) (b' : Broker) : Prop where
  width : grant.cpuLease.width = request.width.get
  available : b'.available + request.width.get = b.available
  grants : b'.grants = grant :: b.grants
  noSlot : pool = none → grant.auxiliarySlot = none ∧ b'.pools = b.pools
  slot : ∀ n, pool = some n → ∃ rest index, (b.pools n).freeSlots = rest ++ [index] ∧
    grant.auxiliarySlot = some ⟨n, index⟩ ∧
    b'.pools = Function.update b.pools n { b.pools n with freeSlots := rest }
  waiters : b'.waiters = b.waiters
  nextWaiterId : b'.nextWaiterId = b.nextWaiterId
  installedLimit : b'.installedLimit = b.installedLimit
  parked : b'.parked = b.parked
  leases : b'.leases = b.leases
  transfers : b'.transfers = b.transfers
  slots : b'.slots = b.slots

theorem reserveResources_reserved {b b' : Broker} {request : CpuPermitRequest}
    {pool : Option Nat} {grant : CompositeAdmissionGrant}
    (h : b.reserveResources request pool = .ok (grant, b')) :
    Reserved b request pool grant b' := by
  unfold Broker.reserveResources at h
  cases pool with
  | none =>
    simp only [Broker.popAuxiliarySlot] at h
    split at h
    next => simp at h
    next enough =>
      obtain ⟨rfl, rfl⟩ := Prod.mk.inj (Except.ok.inj h)
      constructor <;> simp
      omega
  | some n =>
    cases hl : (b.pools n).freeSlots.getLast? with
    | none => simp [Broker.popAuxiliarySlot, hl] at h
    | some index =>
      simp only [Broker.popAuxiliarySlot, hl, Broker.setPool] at h
      split at h
      next => simp at h
      next enough =>
        obtain ⟨rfl, rfl⟩ := Prod.mk.inj (Except.ok.inj h)
        obtain ⟨rest, eq⟩ := List.getLast?_eq_some_iff.mp hl
        constructor <;> simp [eq]
        omega

/-- The reservation goes through when the two checks before it did. -/
theorem reserveResources_ok {b : Broker} {request : CpuPermitRequest} {pool : Option Nat}
    (enough : request.width.get ≤ b.available) (free : b.auxiliarySlotAvailable pool = true) :
    ∃ grant b', b.reserveResources request pool = .ok (grant, b') := by
  unfold Broker.reserveResources
  cases pool with
  | none =>
    simp only [Broker.popAuxiliarySlot, if_neg (show ¬b.available < request.width.get by omega)]
    exact ⟨_, _, rfl⟩
  | some n =>
    have hne : (b.pools n).freeSlots ≠ [] := by
      simpa [Broker.auxiliarySlotAvailable] using free
    simp only [Broker.popAuxiliarySlot, List.getLast?_eq_some_getLast hne, Broker.setPool,
      if_neg (show ¬b.available < request.width.get by omega)]
    exact ⟨_, _, rfl⟩

theorem validateWidth_ok {b : Broker} {width : WorkerLimit} (h : b.validateWidth width = .ok ()) :
    width.get ≤ b.installedLimit.get := by
  unfold Broker.validateWidth at h
  split at h
  next => simp at h
  next hw => omega

def Broker.Grantable (b : Broker) (w : Waiter) : Prop :=
  (∃ e, nextEligibleWaiter b.toBrokerState = some e ∧ e.id = w.id) ∧
    w.request.width.get ≤ b.available ∧ b.auxiliarySlotAvailable w.auxiliaryPool = true

/-- Every way a step can change the broker, with the guards that allow it. -/
inductive BrokerStep (b : Broker) : BrokerEvent → Broker → Prop
  | rejected {e} : BrokerStep b (.rejected e) b
  | enqueued {w} : w.id = b.nextWaiterId → w.id + 1 ≤ u64Max →
      w.request.width.get ≤ b.installedLimit.get →
      BrokerStep b (.enqueued w)
        { b with nextWaiterId := b.nextWaiterId + 1, waiters := b.waiters ++ [w] }
  | cancelled {w} : w ∈ b.waiters → w.id ∉ b.parked →
      BrokerStep b (.cancelled w) (b.removeWaiter w.id).notifyAll
  | granted {w grant b'} : w ∈ b.waiters → w.id ∉ b.parked → b.Grantable w →
      Reserved (b.removeWaiter w.id) w.request w.auxiliaryPool grant b' →
      BrokerStep b (.granted w grant) b'.notifyAll
  | parked {w} : w ∈ b.waiters → w.id ∉ b.parked → ¬b.Grantable w →
      BrokerStep b (.parked w) { b with parked := w.id :: b.parked }
  | woken {id} : id ∈ b.parked → BrokerStep b .woken { b with parked := b.parked.erase id }
  | notified : BrokerStep b .woken b.notifyAll
  | tryRefused : BrokerStep b .tryRefused b
  | tryGranted {request pool grant b'} : b.waiters = [] → Reserved b request pool grant b' →
      BrokerStep b (.tryGranted request pool grant) b'
  | splitRefused {e} : BrokerStep b (.splitRefused e) b
  | split {lease} {width : WorkerLimit} : lease ∈ b.leases → width.get < lease.width →
      BrokerStep b .moved
        { b with leases := ⟨width.get⟩ :: ⟨lease.width - width.get⟩ :: b.leases.erase lease }
  | intoTransfer {lease} : lease ∈ b.leases → BrokerStep b .moved
      { b with leases := b.leases.erase lease, transfers := lease :: b.transfers }
  | accept {lease} : lease ∈ b.transfers → BrokerStep b .moved
      { b with transfers := b.transfers.erase lease, leases := lease :: b.leases }
  | intoParts {grant} : grant ∈ b.grants → BrokerStep b .moved (b.intoParts grant)
  | dropLease {lease} : lease ∈ b.leases → BrokerStep b .returned
      { b with leases := b.leases.erase lease, available := b.available + lease.width, parked := [] }
  | dropTransfer {lease} : lease ∈ b.transfers → BrokerStep b .returned
      { b with transfers := b.transfers.erase lease, available := b.available + lease.width
               parked := [] }
  | dropGrant {grant} : grant ∈ b.grants → BrokerStep b .returned
      { b with grants := b.grants.erase grant, slots := grant.auxiliarySlot.toList ++ b.slots
               available := b.available + grant.cpuLease.width, parked := [] }
  | dropSlot {slot} : slot ∈ b.slots → BrokerStep b .returned
      { b with
        slots := b.slots.erase slot
        pools := Function.update b.pools slot.pool { b.pools slot.pool with
          freeSlots := (b.pools slot.pool).freeSlots ++ [slot.index] }
        parked := [] }

theorem returnPermits_ok {b b' : Broker} {lease : CpuLease} (h : b.returnPermits lease = .ok b') :
    b' = { b with available := b.available + lease.width, parked := [] } := by
  unfold Broker.returnPermits at h
  split at h
  next => simp at h
  next =>
    split at h
    next => simp at h
    next => exact (Except.ok.inj h).symm

theorem returnSlot_ok {b b' : Broker} {slot : AuxiliarySlotLease}
    (h : b.returnSlot slot = .ok b') :
    b' = { b with
      pools := Function.update b.pools slot.pool { b.pools slot.pool with
        freeSlots := (b.pools slot.pool).freeSlots ++ [slot.index] }
      parked := [] } := by
  simp only [Broker.returnSlot] at h
  split at h
  next => simp at h
  next =>
    split at h
    next => simp at h
    next => exact (Except.ok.inj h).symm

theorem enqueueWaiter_step {b b' : Broker} {nested precancelled : Bool}
    {request : CpuPermitRequest} {pool : Option Nat} {e : BrokerEvent}
    (h : b.enqueueWaiter nested precancelled request pool = (e, b')) : BrokerStep b e b' := by
  unfold Broker.enqueueWaiter at h
  split at h
  next => cases h; exact .rejected
  next =>
    cases hv : b.validateWidth request.width with
    | error err => simp only [hv] at h; cases h; exact .rejected
    | ok u =>
      simp only [hv] at h
      split at h
      next => cases h; exact .rejected
      next =>
        split at h
        next => cases h; exact .rejected
        next room => cases h; exact .enqueued rfl (Nat.le_of_not_lt room) (validateWidth_ok hv)

theorem tryAcquireResources_step {b b' : Broker} {nested : Bool} {request : CpuPermitRequest}
    {pool : Option Nat} {e : BrokerEvent}
    (h : b.tryAcquireResources nested request pool = .ok (e, b')) : BrokerStep b e b' := by
  unfold Broker.tryAcquireResources at h
  split at h
  next => cases h; exact .rejected
  next =>
    cases hv : b.validateWidth request.width with
    | error err => simp only [hv] at h; cases h; exact .rejected
    | ok u =>
      simp only [hv] at h
      split at h
      next => cases h; exact .tryRefused
      next hq =>
        cases hr : b.reserveResources request pool with
        | error p => simp [hr, Except.map] at h
        | ok r =>
          simp only [hr, Except.map] at h
          cases h
          simp only [Bool.or_eq_true, Bool.not_eq_true', List.isEmpty_eq_false_iff, not_or,
            not_not] at hq
          exact .tryGranted hq.1.1 (reserveResources_reserved hr)

theorem grantable_iff {b : Broker} {w : Waiter} :
    ((nextEligibleWaiter b.toBrokerState).any (·.id == w.id)
      && decide (w.request.width.get ≤ b.available)
      && b.auxiliarySlotAvailable w.auxiliaryPool) = true ↔ b.Grantable w := by
  simp only [Bool.and_eq_true, decide_eq_true_eq, Broker.Grantable, and_assoc]
  refine and_congr_left fun _ => ?_
  cases nextEligibleWaiter b.toBrokerState <;> simp

theorem checkWaiter_step {b b' : Broker} {w : Waiter} {cancelled : Bool} {e : BrokerEvent}
    (hw : w ∈ b.waiters) (awake : w.id ∉ b.parked)
    (h : b.checkWaiter w cancelled = .ok (e, b')) : BrokerStep b e b' := by
  unfold Broker.checkWaiter at h
  split at h
  next => cases h; exact .cancelled hw awake
  next =>
    split at h
    next hg =>
      cases hr : (b.removeWaiter w.id).reserveResources w.request w.auxiliaryPool with
      | error p => simp [hr, Except.map] at h
      | ok r =>
        simp only [hr, Except.map] at h
        cases h
        exact .granted hw awake (grantable_iff.mp hg) (reserveResources_reserved hr)
    next hg => cases h; exact .parked hw awake (fun g => hg (grantable_iff.mpr g))

/-- Every step of the machine is one of the listed ones. -/
theorem act_step {b b' : Broker} {a : BrokerAction} {e : BrokerEvent}
    (h : b.act a = some (.ok (e, b'))) : BrokerStep b e b' := by
  cases a with
  | enqueue nested precancelled request pool =>
    exact enqueueWaiter_step (Except.ok.inj (Option.some.inj h))
  | check id cancelled =>
    simp only [Broker.act] at h
    split at h
    next => simp at h
    next awake =>
      obtain ⟨w, hf, hc⟩ := Option.map_eq_some_iff.mp h
      have hid : w.id = id := by simpa using List.find?_some hf
      exact checkWaiter_step (List.mem_of_find?_eq_some hf) (hid ▸ awake) hc
  | wake id =>
    simp only [Broker.act] at h
    split at h
    next hm => cases h; exact .woken hm
    next => simp at h
  | notify => cases h; exact .notified
  | tryAcquire nested request pool => exact tryAcquireResources_step (Option.some.inj h)
  | split lease width =>
    simp only [Broker.act] at h
    split at h
    next hm =>
      cases hs : lease.split width with
      | error err => simp only [hs] at h; cases h; exact .splitRefused
      | ok parts =>
        simp only [hs] at h
        unfold CpuLease.split at hs
        split at hs
        next => simp at hs
        next =>
          split at hs
          next => simp at hs
          next =>
            cases hs
            cases h
            exact .split hm (by omega)
    next => simp at h
  | intoTransfer lease =>
    simp only [Broker.act] at h
    split at h
    next hm => cases h; exact .intoTransfer hm
    next => simp at h
  | accept lease =>
    simp only [Broker.act] at h
    split at h
    next hm => cases h; exact .accept hm
    next => simp at h
  | intoParts grant =>
    simp only [Broker.act] at h
    split at h
    next hm => cases h; exact .intoParts hm
    next => simp at h
  | dropLease lease =>
    simp only [Broker.act] at h
    split at h
    next hm =>
      obtain ⟨c, hc, hp⟩ := Fallible.map_ok_iff.mp (Option.some.inj h)
      cases hp
      rw [returnPermits_ok hc]
      exact .dropLease hm
    next => simp at h
  | dropTransfer lease =>
    simp only [Broker.act] at h
    split at h
    next hm =>
      obtain ⟨c, hc, hp⟩ := Fallible.map_ok_iff.mp (Option.some.inj h)
      cases hp
      rw [returnPermits_ok hc]
      exact .dropTransfer hm
    next => simp at h
  | dropGrant grant =>
    simp only [Broker.act] at h
    split at h
    next hm =>
      obtain ⟨c, hc, hp⟩ := Fallible.map_ok_iff.mp (Option.some.inj h)
      cases hp
      rw [returnPermits_ok hc]
      exact .dropGrant hm
    next => simp at h
  | dropSlot slot =>
    simp only [Broker.act] at h
    split at h
    next hm =>
      obtain ⟨c, hc, hp⟩ := Fallible.map_ok_iff.mp (Option.some.inj h)
      cases hp
      rw [returnSlot_ok hc]
      exact .dropSlot hm
    next => simp at h

theorem brokerMachine_step {limit : WorkerLimit} {limits : Nat → AuxiliarySlotLimit}
    {b b' : Broker} {a : BrokerAction} {e : BrokerEvent}
    (h : (brokerMachine limit limits).next b a = some (e, b')) : BrokerStep b e b' := by
  obtain ⟨r, ha, hr⟩ := Option.bind_eq_some_iff.mp h
  cases r with
  | error p => simp [Except.toOption] at hr
  | ok r => cases hr; exact act_step ha

theorem returnPermits_panic {b : Broker} {lease : CpuLease} {p : BrokerPanic}
    (h : b.returnPermits lease = .error p) :
    b.installedLimit.get < b.available + lease.width ∧
      (p = .permitCountOverflow ∨ p = .permitsExceedInstalledLimit) := by
  unfold Broker.returnPermits at h
  split at h
  next above =>
    cases h
    exact ⟨Nat.lt_of_le_of_lt b.installedLimit.bounded above, Or.inl rfl⟩
  next =>
    split at h
    next above => cases h; exact ⟨above, Or.inr rfl⟩
    next => simp at h

theorem returnSlot_panic {b : Broker} {slot : AuxiliarySlotLease} {p : BrokerPanic}
    (h : b.returnSlot slot = .error p) :
    (slot.index ∈ (b.pools slot.pool).freeSlots ∨
        (b.pools slot.pool).limit.get < (b.pools slot.pool).freeSlots.length + 1) ∧
      (p = .auxiliarySlotReturnedTwice ∨ p = .auxiliarySlotsExceedLimit) := by
  simp only [Broker.returnSlot] at h
  split at h
  next twice => cases h; exact ⟨Or.inl twice, Or.inl rfl⟩
  next =>
    split at h
    next above => cases h; exact ⟨Or.inr (by simpa using above), Or.inr rfl⟩
    next => simp at h

theorem checkWaiter_no_panic {b : Broker} {w : Waiter} {cancelled : Bool} {p : BrokerPanic} :
    b.checkWaiter w cancelled ≠ .error p := by
  intro h
  unfold Broker.checkWaiter at h
  split at h
  next => simp at h
  next =>
    split at h
    next hg =>
      obtain ⟨_, enough, free⟩ := grantable_iff.mp hg
      obtain ⟨grant, b', hr⟩ := reserveResources_ok (b := b.removeWaiter w.id) enough free
      simp [hr, Except.map] at h
    next => simp at h

theorem tryAcquireResources_no_panic {b : Broker} {nested : Bool} {request : CpuPermitRequest}
    {pool : Option Nat} {p : BrokerPanic} :
    b.tryAcquireResources nested request pool ≠ .error p := by
  intro h
  unfold Broker.tryAcquireResources at h
  split at h
  next => simp at h
  next =>
    cases hv : b.validateWidth request.width with
    | error err => simp [hv] at h
    | ok u =>
      simp only [hv] at h
      split at h
      next => simp at h
      next hq =>
        simp only [Bool.or_eq_true, decide_eq_true_eq, Bool.not_eq_true', not_or,
          Bool.not_eq_false] at hq
        obtain ⟨grant, b', hr⟩ := reserveResources_ok (Nat.le_of_not_lt hq.1.2) hq.2
        simp [hr, Except.map] at h

/-- The only steps that can panic are returns, of a live lease or of a live slot:
`reserve_resources` checks first what it needs. -/
theorem act_panic {b : Broker} {a : BrokerAction} {p : BrokerPanic}
    (h : b.act a = some (.error p)) :
    (∃ lease ∈ b.liveLeases, b.installedLimit.get < b.available + lease.width ∧
      (p = .permitCountOverflow ∨ p = .permitsExceedInstalledLimit)) ∨
    (∃ slot ∈ b.slots, (slot.index ∈ (b.pools slot.pool).freeSlots ∨
        (b.pools slot.pool).limit.get < (b.pools slot.pool).freeSlots.length + 1) ∧
      (p = .auxiliarySlotReturnedTwice ∨ p = .auxiliarySlotsExceedLimit)) := by
  cases a with
  | enqueue nested precancelled request pool => simp [Broker.act] at h
  | check id cancelled =>
    simp only [Broker.act] at h
    split at h
    next => simp at h
    next =>
      obtain ⟨w, _, hc⟩ := Option.map_eq_some_iff.mp h
      exact absurd hc checkWaiter_no_panic
  | wake id =>
    simp only [Broker.act] at h
    split at h <;> simp at h
  | notify => simp [Broker.act] at h
  | tryAcquire nested request pool =>
    exact absurd (Option.some.inj h) tryAcquireResources_no_panic
  | split lease width =>
    simp only [Broker.act] at h
    split at h
    next => split at h <;> simp at h
    next => simp at h
  | intoTransfer lease =>
    simp only [Broker.act] at h
    split at h <;> simp at h
  | accept lease =>
    simp only [Broker.act] at h
    split at h <;> simp at h
  | intoParts grant =>
    simp only [Broker.act] at h
    split at h <;> simp at h
  | dropLease lease =>
    simp only [Broker.act] at h
    split at h
    next hm =>
      have hp := returnPermits_panic (Fallible.map_error_iff.mp (Option.some.inj h))
      exact Or.inl ⟨lease, by simp [Broker.liveLeases, hm], hp⟩
    next => simp at h
  | dropTransfer lease =>
    simp only [Broker.act] at h
    split at h
    next hm =>
      have hp := returnPermits_panic (Fallible.map_error_iff.mp (Option.some.inj h))
      exact Or.inl ⟨lease, by simp [Broker.liveLeases, hm], hp⟩
    next => simp at h
  | dropGrant grant =>
    simp only [Broker.act] at h
    split at h
    next hm =>
      have hp := returnPermits_panic (Fallible.map_error_iff.mp (Option.some.inj h))
      exact Or.inl ⟨grant.cpuLease, List.mem_append_right _ (List.mem_map_of_mem hm), hp⟩
    next => simp at h
  | dropSlot slot =>
    simp only [Broker.act] at h
    split at h
    next hm =>
      have hp := returnSlot_panic (Fallible.map_error_iff.mp (Option.some.inj h))
      exact Or.inr ⟨slot, hm, hp⟩
    next => simp at h

end Neoethos
