import Mathlib.Algebra.Order.Ring.Nat
import Neoethos.BrokerStep

namespace Neoethos

def totalWidth (leases : List CpuLease) : Nat := (leases.map CpuLease.width).sum

@[simp] theorem totalWidth_nil : totalWidth [] = 0 := rfl

@[simp] theorem totalWidth_cons (lease : CpuLease) (leases : List CpuLease) :
    totalWidth (lease :: leases) = lease.width + totalWidth leases := by simp [totalWidth]

@[simp] theorem totalWidth_append (xs ys : List CpuLease) :
    totalWidth (xs ++ ys) = totalWidth xs + totalWidth ys := by simp [totalWidth]

theorem totalWidth_perm {xs ys : List CpuLease} (h : xs.Perm ys) : totalWidth xs = totalWidth ys :=
  (h.map CpuLease.width).sum_eq

/-- The conserved quantity of a broker, and what it needs along the way. -/
structure PermitsConserved (limit : WorkerLimit) (b : Broker) : Prop where
  installed : b.installedLimit = limit
  conserved : b.available + totalWidth b.liveLeases = limit.get
  positive : ∀ lease ∈ b.liveLeases, 1 ≤ lease.width

theorem permitsConserved_new (limit : WorkerLimit) (limits : Nat → AuxiliarySlotLimit) :
    PermitsConserved limit (CpuPermitBroker.new limit limits) :=
  ⟨rfl, by simp [CpuPermitBroker.new, Broker.liveLeases],
    by simp [CpuPermitBroker.new, Broker.liveLeases]⟩

/-- What every step does to the permits: the leases `gone` make way for the leases `new`, and the
free permits make up for the difference. -/
theorem PermitsConserved.exchange {limit : WorkerLimit} {b b' : Broker}
    (h : PermitsConserved limit b) (gone new rest : List CpuLease)
    (installed : b'.installedLimit = b.installedLimit)
    (before : b.liveLeases.Perm (gone ++ rest)) (after : b'.liveLeases.Perm (new ++ rest))
    (width : b'.available + totalWidth new = b.available + totalWidth gone)
    (positive : ∀ lease ∈ new, 1 ≤ lease.width) : PermitsConserved limit b' := by
  refine ⟨installed.trans h.installed, ?_, ?_⟩
  · have hc := h.conserved
    rw [totalWidth_perm before, totalWidth_append] at hc
    rw [totalWidth_perm after, totalWidth_append]
    omega
  · intro lease hm
    rcases List.mem_append.mp (after.mem_iff.mp hm) with hnew | hrest
    · exact positive lease hnew
    · exact h.positive lease (before.mem_iff.mpr (List.mem_append_right _ hrest))

/-- Leases pass from one holder to another, or nothing happens to them. -/
theorem PermitsConserved.moved {limit : WorkerLimit} {b b' : Broker} (h : PermitsConserved limit b)
    (installed : b'.installedLimit = b.installedLimit) (available : b'.available = b.available)
    (live : b.liveLeases.Perm b'.liveLeases) : PermitsConserved limit b' := by
  refine h.exchange [] [] b'.liveLeases installed live (.refl _) ?_ ?_
  · rw [available]
  · intro lease hm
    cases hm

theorem PermitsConserved.reserved {limit : WorkerLimit} {b b' : Broker}
    {request : CpuPermitRequest} {pool : Option Nat} {grant : CompositeAdmissionGrant}
    (h : PermitsConserved limit b) (hr : Reserved b request pool grant b') :
    PermitsConserved limit b' := by
  have after : b'.liveLeases.Perm ([grant.cpuLease] ++ b.liveLeases) := by
    simp only [Broker.liveLeases, hr.leases, hr.transfers, hr.grants, List.map_cons]
    exact List.perm_middle
  have ha := hr.available
  have hw := hr.width
  refine h.exchange [] [grant.cpuLease] b.liveLeases hr.installedLimit (.refl _) after ?_ ?_
  · simp only [totalWidth_cons, totalWidth_nil]
    omega
  · intro lease hm
    cases List.mem_singleton.mp hm
    have := request.width.positive
    omega

/-- A returned lease was live, and its permits are free again. -/
theorem PermitsConserved.returned {limit : WorkerLimit} {b b' : Broker} {lease : CpuLease}
    (h : PermitsConserved limit b) (installed : b'.installedLimit = b.installedLimit)
    (available : b'.available = b.available + lease.width)
    (live : b.liveLeases.Perm (lease :: b'.liveLeases)) : PermitsConserved limit b' := by
  refine h.exchange [lease] [] b'.liveLeases installed live (.refl _) ?_ ?_
  · rw [available, totalWidth_cons, totalWidth_nil]
    rfl
  · intro other hm
    cases hm

section Live

variable {b : Broker} {lease : CpuLease}

theorem liveLeases_of_lease (h : lease ∈ b.leases) :
    b.liveLeases.Perm (lease :: { b with leases := b.leases.erase lease }.liveLeases) :=
  ((List.perm_cons_erase h).append_right _).append_right _

theorem liveLeases_of_transfer (h : lease ∈ b.transfers) :
    b.liveLeases.Perm (lease :: { b with transfers := b.transfers.erase lease }.liveLeases) :=
  (((List.perm_cons_erase h).append_left _).trans List.perm_middle).append_right _

theorem liveLeases_of_grant {grant : CompositeAdmissionGrant} (h : grant ∈ b.grants) :
    b.liveLeases.Perm
      (grant.cpuLease :: { b with grants := b.grants.erase grant }.liveLeases) :=
  (((List.perm_cons_erase h).map _).append_left _).trans List.perm_middle

end Live

theorem permitsConserved_step {limit : WorkerLimit} {b b' : Broker} {e : BrokerEvent}
    (h : PermitsConserved limit b) (step : BrokerStep b e b') : PermitsConserved limit b' := by
  cases step with
  | rejected => exact h
  | enqueued => exact h.moved rfl rfl (.refl _)
  | cancelled => exact h.moved rfl rfl (.refl _)
  | @granted w _ _ _ _ _ hr =>
    have hq : PermitsConserved limit (b.removeWaiter w.id) := h.moved rfl rfl (.refl _)
    exact (hq.reserved hr).moved rfl rfl (.refl _)
  | parked => exact h.moved rfl rfl (.refl _)
  | woken => exact h.moved rfl rfl (.refl _)
  | notified => exact h.moved rfl rfl (.refl _)
  | tryRefused => exact h
  | tryGranted _ hr => exact h.reserved hr
  | splitRefused => exact h
  | @split lease width hm hw =>
    refine h.exchange [lease] [⟨width.get⟩, ⟨lease.width - width.get⟩] _ rfl
      (liveLeases_of_lease hm) (.refl _) ?_ ?_
    · simp only [totalWidth_cons, totalWidth_nil]
      omega
    · intro piece hp
      rcases List.mem_pair.mp hp with rfl | rfl
      · exact width.positive
      · show 1 ≤ lease.width - width.get
        omega
  | intoTransfer hm =>
    exact h.moved rfl rfl ((liveLeases_of_lease hm).trans (List.perm_middle.symm.append_right _))
  | accept hm => exact h.moved rfl rfl (liveLeases_of_transfer hm)
  | intoParts hm => exact h.moved rfl rfl (liveLeases_of_grant hm)
  | dropLease hm => exact h.returned rfl rfl (liveLeases_of_lease hm)
  | dropTransfer hm => exact h.returned rfl rfl (liveLeases_of_transfer hm)
  | dropGrant hm => exact h.returned rfl rfl (liveLeases_of_grant hm)
  | dropSlot => exact h.moved rfl rfl (.refl _)

theorem permitsConserved_run {limit : WorkerLimit} {limits : Nat → AuxiliarySlotLimit}
    {es : List BrokerEvent} {b : Broker} (h : (brokerMachine limit limits).Run es b) :
    PermitsConserved limit b :=
  h.state_invariant (permitsConserved_new limit limits)
    (fun _ _ _ _ hs hn => permitsConserved_step hs (brokerMachine_step hn))

theorem le_totalWidth {lease : CpuLease} {leases : List CpuLease} (h : lease ∈ leases) :
    lease.width ≤ totalWidth leases := by
  rw [totalWidth_perm (List.perm_cons_erase h), totalWidth_cons]
  omega

/-- In every reachable state the free permits and the widths of all live leases
add up to the installed limit and no live lease is empty, so returning a lease
never trips the overflow check or the limit assertion, and a reservation never
takes more than is there. -/
theorem cpu_permits_conserved {limit : WorkerLimit} {limits : Nat → AuxiliarySlotLimit}
    {es : List BrokerEvent} {b : Broker} (h : (brokerMachine limit limits).Run es b) :
    b.available + totalWidth b.liveLeases = b.installedLimit.get ∧
      b.installedLimit = limit ∧
      (∀ lease ∈ b.liveLeases, 1 ≤ lease.width) ∧
      ∀ a p, b.act a = some (.error p) → p ≠ .availableUnderflow ∧
        p ≠ .permitCountOverflow ∧ p ≠ .permitsExceedInstalledLimit := by
  have hc := permitsConserved_run h
  have total : b.available + totalWidth b.liveLeases = b.installedLimit.get :=
    hc.conserved.trans (congrArg WorkerLimit.get hc.installed).symm
  refine ⟨total, hc.installed, hc.positive, ?_⟩
  intro a p hp
  rcases act_panic hp with ⟨lease, hm, above, _⟩ | ⟨_, _, _, rfl | rfl⟩
  · have := le_totalWidth hm
    omega
  · simp
  · simp

def threeWorkers : WorkerLimit := ⟨3, by decide, by decide⟩

def oneWorker : WorkerLimit := ⟨1, by decide, by decide⟩

def oneSlot : AuxiliarySlotLimit := ⟨1, by decide, by decide⟩

/-- A grant taken apart, split and handed above: three of three permits, in two leases. -/
theorem cpu_permits_conserved_split_transfer :
    ∃ es b, (brokerMachine threeWorkers fun _ => oneSlot).Run es b ∧
      b.liveLeases = [⟨2⟩, ⟨1⟩] ∧ b.available + totalWidth b.liveLeases = 3 := by
  obtain ⟨es, b, hr, hp⟩ := Machine.run_of_exec_start
    (M := brokerMachine threeWorkers fun _ => oneSlot)
    [.enqueue false false ⟨threeWorkers, .child⟩ (some 0), .check 0 false,
      .intoParts ⟨⟨3⟩, some ⟨0, 0⟩⟩, .split ⟨3⟩ oneWorker, .intoTransfer ⟨1⟩]
    (fun _ b => b.liveLeases == [⟨2⟩, ⟨1⟩]) (by decide)
  obtain ⟨total, installed, _⟩ := cpu_permits_conserved hr
  exact ⟨es, b, hr, by simpa using hp, by rw [total, installed]; rfl⟩

end Neoethos
