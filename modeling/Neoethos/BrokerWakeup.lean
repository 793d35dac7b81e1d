import Neoethos.BrokerQueue

namespace Neoethos

def Broker.Satisfiable (b : Broker) (w : Waiter) : Prop :=
  w.request.width.get ≤ b.available ∧ b.auxiliarySlotAvailable w.auxiliaryPool = true

/-- No eligible waiter sleeps on a request that could be served. -/
structure NoLostWakeup (b : Broker) : Prop where
  parkedBelow : ∀ id ∈ b.parked, id < b.nextWaiterId
  eligible : ∀ w, nextEligibleWaiter b.toBrokerState = some w → w.id ∈ b.parked →
    ¬b.Satisfiable w

theorem noLostWakeup_new (limit : WorkerLimit) (limits : Nat → AuxiliarySlotLimit) :
    NoLostWakeup (CpuPermitBroker.new limit limits) := by
  constructor <;> simp [CpuPermitBroker.new]

/-- After a `notify_all` there is nobody asleep. -/
theorem NoLostWakeup.of_notified {b : Broker} (h : b.parked = []) : NoLostWakeup b := by
  constructor <;> simp [h]

/-- Steps that leave the queue, the permits and the pools alone and put nobody to sleep. -/
theorem NoLostWakeup.frame {b b' : Broker} (h : NoLostWakeup b)
    (hs : b'.toBrokerState = b.toBrokerState) (hp : b'.pools = b.pools)
    (sub : ∀ id ∈ b'.parked, id ∈ b.parked) : NoLostWakeup b' := by
  constructor
  · intro id hid
    rw [hs]
    exact h.parkedBelow id (sub id hid)
  · intro w hw hid hsat
    rw [hs] at hw
    refine h.eligible w hw (sub w.id hid) ⟨?_, ?_⟩
    · have := hsat.1
      rwa [hs] at this
    · have := hsat.2
      unfold Broker.auxiliarySlotAvailable at this ⊢
      rwa [hp] at this

/-- A new waiter at the end of the queue leaves the eligible one in place or is it. -/
theorem nextEligibleWaiter_append {state state' : BrokerState} {w last : Waiter}
    (hw : state'.waiters = state.waiters ++ [last]) (h : nextEligibleWaiter state' = some w) :
    nextEligibleWaiter state = some w ∨ w = last := by
  unfold nextEligibleWaiter at h ⊢
  rw [hw, List.find?_append] at h
  cases hf : state.waiters.find? Waiter.isChild with
  | some c =>
    left
    simpa [hf] using h
  | none =>
    cases hc : last.isChild with
    | true =>
      right
      simpa [hf, hc] using h.symm
    | false =>
      have front : (state.waiters ++ [last]).head? = some w := by simpa [hf, hc] using h
      cases hs : state.waiters with
      | nil =>
        right
        simpa [hs] using front.symm
      | cons v rest =>
        left
        simpa [hs] using front

theorem NoLostWakeup.enqueued {b b' : Broker} {last : Waiter} (h : NoLostWakeup b)
    (fresh : last.id = b.nextWaiterId) (hn : b'.nextWaiterId = b.nextWaiterId + 1)
    (hw : b'.waiters = b.waiters ++ [last]) (ha : b'.available = b.available)
    (hp : b'.pools = b.pools) (hpark : b'.parked = b.parked) : NoLostWakeup b' := by
  constructor
  · intro id hid
    rw [hpark] at hid
    have := h.parkedBelow id hid
    omega
  · intro w he hid hsat
    rw [hpark] at hid
    rcases nextEligibleWaiter_append hw he with old | rfl
    · refine h.eligible w old hid ⟨?_, ?_⟩
      · have := hsat.1
        rwa [ha] at this
      · have := hsat.2
        unfold Broker.auxiliarySlotAvailable at this ⊢
        rwa [hp] at this
    · have := h.parkedBelow w.id hid
      omega

/-- A waiter goes to sleep only after it found itself not eligible or not satisfiable. -/
theorem NoLostWakeup.parked {b : Broker} {w : Waiter} (h : NoLostWakeup b)
    (sorted : SortedIds b.waiters) (below : ∀ v ∈ b.waiters, v.id < b.nextWaiterId)
    (hm : w ∈ b.waiters) (hg : ¬b.Grantable w) :
    NoLostWakeup { b with parked := w.id :: b.parked } := by
  constructor
  · intro id hid
    rcases List.mem_cons.mp hid with rfl | hid
    · exact below w hm
    · exact h.parkedBelow id hid
  · intro v he hid hsat
    rcases List.mem_cons.mp hid with same | hid
    · obtain ⟨l, r, hs, _⟩ := nextEligibleWaiter_split he
      obtain rfl : v = w := sorted.eq_of_id (by rw [hs]; simp) hm same
      exact hg ⟨⟨v, he, rfl⟩, hsat⟩
    · exact h.eligible v he hid hsat

theorem noLostWakeup_step {es : List BrokerEvent} {b b' : Broker} {e : BrokerEvent}
    (hq : QueueHistory es b) (h : NoLostWakeup b) (step : BrokerStep b e b') : NoLostWakeup b' := by
  cases step with
  | rejected => exact h
  | enqueued fresh => exact h.enqueued fresh rfl rfl rfl rfl rfl
  | cancelled => exact .of_notified rfl
  | granted => exact .of_notified rfl
  | parked hm _ hg => exact h.parked hq.sorted hq.below hm hg
  | woken => exact h.frame rfl rfl fun _ hid => List.mem_of_mem_erase hid
  | notified => exact .of_notified rfl
  | tryRefused => exact h
  | tryGranted empty hr =>
    -- fewer permits and slots, but nobody is queued
    constructor
    · intro id hid
      rw [hr.parked] at hid
      rw [hr.nextWaiterId]
      exact h.parkedBelow id hid
    · intro w he
      simp [nextEligibleWaiter, hr.waiters, empty] at he
  | splitRefused => exact h
  | split => exact h.frame rfl rfl fun _ => id
  | intoTransfer => exact h.frame rfl rfl fun _ => id
  | accept => exact h.frame rfl rfl fun _ => id
  | intoParts => exact h.frame rfl rfl fun _ => id
  | dropLease => exact .of_notified rfl
  | dropTransfer => exact .of_notified rfl
  | dropGrant => exact .of_notified rfl
  | dropSlot => exact .of_notified rfl

theorem noLostWakeup_run {limit : WorkerLimit} {limits : Nat → AuxiliarySlotLimit}
    {es : List BrokerEvent} {b : Broker} (h : (brokerMachine limit limits).Run es b) :
    NoLostWakeup b :=
  h.invariant (I := fun _ b => NoLostWakeup b) (noLostWakeup_new limit limits)
    (fun _ _ _ _ _ reach hs hn =>
      noLostWakeup_step (queueHistory_run reach) hs (brokerMachine_step hn))

/-- In every reachable state an eligible waiter whose request could be served is
not asleep. -/
theorem eligible_satisfiable_not_parked {limit : WorkerLimit}
    {limits : Nat → AuxiliarySlotLimit} {es : List BrokerEvent} {b : Broker}
    (h : (brokerMachine limit limits).Run es b) {w : Waiter}
    (eligible : nextEligibleWaiter b.toBrokerState = some w)
    (enough : w.request.width.get ≤ b.available)
    (free : b.auxiliarySlotAvailable w.auxiliaryPool = true) :
    w.id ∉ b.parked :=
  fun parked => (noLostWakeup_run h).eligible w eligible parked ⟨enough, free⟩

/-- The waiter sleeps while the only permit is out, and is awake once it is back. -/
theorem eligible_satisfiable_not_parked_after_return :
    ∃ es b, (brokerMachine ⟨1, by decide, by decide⟩ fun _ => ⟨1, by decide, by decide⟩).Run es b ∧
      es.getLast? = some .returned ∧
      ∃ w, nextEligibleWaiter b.toBrokerState = some w ∧ w.id ∉ b.parked := by
  obtain ⟨es, b, hr, hp⟩ := Machine.run_of_exec_start
    (M := brokerMachine ⟨1, by decide, by decide⟩ fun _ => ⟨1, by decide, by decide⟩)
    [.tryAcquire false ⟨⟨1, by decide, by decide⟩, .localWork⟩ none,
      .enqueue false false ⟨⟨1, by decide, by decide⟩, .child⟩ (some 0), .check 0 false,
      .dropGrant ⟨⟨1⟩, none⟩]
    (fun es b => es.getLast? == some .returned && (nextEligibleWaiter b.toBrokerState).any fun w =>
      decide (w.request.width.get ≤ b.available) && b.auxiliarySlotAvailable w.auxiliaryPool)
    (by decide)
  simp only [Bool.and_eq_true, beq_iff_eq, Option.any_eq_true, decide_eq_true_eq] at hp
  obtain ⟨last, w, eligible, enough, free⟩ := hp
  exact ⟨es, b, hr, last, w, eligible, eligible_satisfiable_not_parked hr eligible enough free⟩

end Neoethos
