import Neoethos.Machine
import Mathlib.Algebra.BigOperators.Group.List.Basic
import Mathlib.Data.List.Perm.Basic

namespace Neoethos

/-- `usize::MAX` on the 64-bit targets the crate is built for. -/
def usizeMax : Nat := 2 ^ 64 - 1

/-- `u64::MAX`. -/
def u64Max : Nat := 2 ^ 64 - 1

/-- A positive upper bound on CPU workers or reserved permits. -/
structure WorkerLimit where
  get : Nat
  positive : 0 < get
  bounded : get ≤ usizeMax
  deriving DecidableEq

structure AuxiliarySlotLimit where
  get : Nat
  positive : 0 < get
  bounded : get ≤ usizeMax
  deriving DecidableEq

inductive CpuPriority
  | child
  | localWork
  deriving DecidableEq

structure CpuPermitRequest where
  width : WorkerLimit
  priority : CpuPriority
  deriving DecidableEq

inductive AcquireError
  | exceedsInstalledLimit (requested installed : Nat)
  | cancelled
  | nestedAcquisition
  | waiterSequenceExhausted
  deriving DecidableEq

inductive LeaseError
  | splitWouldEmptyParent (parent requested : Nat)
  | splitExceedsParent (parent requested : Nat)
  deriving DecidableEq

/-- The panics written in the broker: two `expect`s, three `assert!`s and the
unchecked subtraction of `reserve_resources`. -/
inductive BrokerPanic
  | auxiliarySlotWasChecked
  | availableUnderflow
  | permitCountOverflow
  | permitsExceedInstalledLimit
  | auxiliarySlotReturnedTwice
  | auxiliarySlotsExceedLimit
  deriving DecidableEq

/-- The pool is named by its authority's number; `none` asks for no auxiliary slot. -/
structure Waiter where
  id : Nat
  request : CpuPermitRequest
  auxiliaryPool : Option Nat
  deriving DecidableEq

structure AuxiliaryPool where
  limit : AuxiliarySlotLimit
  freeSlots : List Nat
  deriving DecidableEq

structure CpuLease where
  width : Nat
  deriving DecidableEq

structure AuxiliarySlotLease where
  pool : Nat
  index : Nat
  deriving DecidableEq

/-- What a successful request holds. `AcquiredResources` and
`CompositeAdmissionGrant` have the same two fields. -/
structure CompositeAdmissionGrant where
  cpuLease : CpuLease
  auxiliarySlot : Option AuxiliarySlotLease
  deriving DecidableEq

structure BrokerState where
  available : Nat
  nextWaiterId : Nat
  waiters : List Waiter

/-- One broker with everything that refers to it: the pools of the authorities
that share it, the waiters asleep on its condition variable, and every live
lease, loose, inside an unaccepted transfer or inside a grant. -/
structure Broker extends BrokerState where
  installedLimit : WorkerLimit
  pools : Nat → AuxiliaryPool
  parked : List Nat
  leases : List CpuLease
  transfers : List CpuLease
  grants : List CompositeAdmissionGrant
  slots : List AuxiliarySlotLease

/-- All live leases: loose ones, those inside unaccepted transfers and those inside grants. -/
def Broker.liveLeases (b : Broker) : List CpuLease :=
  b.leases ++ b.transfers ++ b.grants.map CompositeAdmissionGrant.cpuLease

/-- `CompositeAdmissionAuthority::new` builds the free list backwards, so that
slot 0 is popped first. -/
def AuxiliaryPool.new (limit : AuxiliarySlotLimit) : AuxiliaryPool :=
  ⟨limit, (List.range limit.get).reverse⟩

/-- A fresh broker. An authority nobody has used yet looks as `new` left it, so
the family of pools can be given once and for all. -/
def CpuPermitBroker.new (limit : WorkerLimit) (limits : Nat → AuxiliarySlotLimit) : Broker where
  available := limit.get
  nextWaiterId := 0
  waiters := []
  installedLimit := limit
  pools n := AuxiliaryPool.new (limits n)
  parked := []
  leases := []
  transfers := []
  grants := []
  slots := []

def Waiter.isChild (w : Waiter) : Bool := w.request.priority == .child

def nextEligibleWaiter (state : BrokerState) : Option Waiter :=
  (state.waiters.find? Waiter.isChild).or state.waiters.head?

def removeWaiter (state : BrokerState) (id : Nat) : BrokerState :=
  { state with waiters := state.waiters.eraseP (·.id == id) }

namespace Broker

def removeWaiter (b : Broker) (id : Nat) : Broker :=
  { b with toBrokerState := Neoethos.removeWaiter b.toBrokerState id }

/-- `Condvar::notify_all`. -/
def notifyAll (b : Broker) : Broker := { b with parked := [] }

def setPool (b : Broker) (n : Nat) (pool : AuxiliaryPool) : Broker :=
  { b with pools := Function.update b.pools n pool }

def auxiliarySlotAvailable (b : Broker) : Option Nat → Bool
  | none => true
  | some n => !(b.pools n).freeSlots.isEmpty

def validateWidth (b : Broker) (requested : WorkerLimit) : Except AcquireError Unit :=
  if b.installedLimit.get < requested.get then
    .error (.exceedsInstalledLimit requested.get b.installedLimit.get)
  else .ok ()

/-- Pop a slot of the requested pool. `free_slots` is a stack, its top the last entry. -/
def popAuxiliarySlot (b : Broker) :
    Option Nat → Except BrokerPanic (Option AuxiliarySlotLease × Broker)
  | none => .ok (none, b)
  | some n =>
    match (b.pools n).freeSlots.getLast? with
    | none => .error .auxiliarySlotWasChecked
    | some index =>
      .ok (some ⟨n, index⟩,
        b.setPool n { b.pools n with freeSlots := (b.pools n).freeSlots.dropLast })

def reserveResources (b : Broker) (request : CpuPermitRequest) (pool : Option Nat) :
    Except BrokerPanic (CompositeAdmissionGrant × Broker) :=
  match b.popAuxiliarySlot pool with
  | .error p => .error p
  | .ok (slot, b) =>
    if b.available < request.width.get then .error .availableUnderflow
    else
      let grant := ⟨⟨request.width.get⟩, slot⟩
      .ok (grant, { b with
        available := b.available - request.width.get
        grants := grant :: b.grants })

/-- `Drop for CpuLease`. -/
def returnPermits (b : Broker) (lease : CpuLease) : Except BrokerPanic Broker :=
  if usizeMax < b.available + lease.width then .error .permitCountOverflow
  else if b.installedLimit.get < b.available + lease.width then
    .error .permitsExceedInstalledLimit
  else .ok { b with available := b.available + lease.width }.notifyAll

/-- `Drop for AuxiliarySlotLease`. -/
def returnSlot (b : Broker) (slot : AuxiliarySlotLease) : Except BrokerPanic Broker :=
  let pool := b.pools slot.pool
  if slot.index ∈ pool.freeSlots then .error .auxiliarySlotReturnedTwice
  else if pool.limit.get < (pool.freeSlots ++ [slot.index]).length then
    .error .auxiliarySlotsExceedLimit
  else .ok (b.setPool slot.pool { pool with freeSlots := pool.freeSlots ++ [slot.index] }).notifyAll

end Broker

/-- `CpuLease::split`: what stays with the parent and what the new lease gets. -/
def CpuLease.split (lease : CpuLease) (width : WorkerLimit) :
    Except LeaseError (CpuLease × CpuLease) :=
  if lease.width < width.get then .error (.splitExceedsParent lease.width width.get)
  else if width.get = lease.width then .error (.splitWouldEmptyParent lease.width width.get)
  else .ok (⟨lease.width - width.get⟩, ⟨width.get⟩)

/-- The choices of the callers and of the scheduler. `nested` and `precancelled`
are what `reject_nested_acquisition` and the flag read before queueing found;
`cancelled` is what the flag read inside the loop found. `wake` is a spurious
wakeup, `notify` the `notify_all` of a cancellation token. -/
inductive BrokerAction
  | enqueue (nested precancelled : Bool) (request : CpuPermitRequest) (pool : Option Nat)
  | check (id : Nat) (cancelled : Bool)
  | wake (id : Nat)
  | notify
  | tryAcquire (nested : Bool) (request : CpuPermitRequest) (pool : Option Nat)
  | split (lease : CpuLease) (width : WorkerLimit)
  | intoTransfer (lease : CpuLease)
  | accept (lease : CpuLease)
  | dropLease (lease : CpuLease)
  | dropTransfer (lease : CpuLease)
  | intoParts (grant : CompositeAdmissionGrant)
  | dropGrant (grant : CompositeAdmissionGrant)
  | dropSlot (slot : AuxiliarySlotLease)

inductive BrokerEvent
  | enqueued (w : Waiter)
  | rejected (e : AcquireError)
  | granted (w : Waiter) (grant : CompositeAdmissionGrant)
  | cancelled (w : Waiter)
  | parked (w : Waiter)
  | woken
  | tryGranted (request : CpuPermitRequest) (pool : Option Nat) (grant : CompositeAdmissionGrant)
  | tryRefused
  | splitRefused (e : LeaseError)
  | moved
  | returned
  deriving DecidableEq

abbrev BrokerResult := Except BrokerPanic (BrokerEvent × Broker)

namespace Broker

def tryAcquireResources (b : Broker) (nested : Bool) (request : CpuPermitRequest)
    (pool : Option Nat) : BrokerResult :=
  if nested then .ok (.rejected .nestedAcquisition, b)
  else match b.validateWidth request.width with
    | .error e => .ok (.rejected e, b)
    | .ok () =>
      if !b.waiters.isEmpty || b.available < request.width.get || !b.auxiliarySlotAvailable pool then
        .ok (.tryRefused, b)
      else (b.reserveResources request pool).map fun r => (.tryGranted request pool r.1, r.2)

/-- `acquire_resources_inner` up to the push into the queue. -/
def enqueueWaiter (b : Broker) (nested precancelled : Bool) (request : CpuPermitRequest)
    (pool : Option Nat) : BrokerEvent × Broker :=
  if nested then (.rejected .nestedAcquisition, b)
  else match b.validateWidth request.width with
    | .error e => (.rejected e, b)
    | .ok () =>
      if precancelled then (.rejected .cancelled, b)
      else if u64Max < b.nextWaiterId + 1 then (.rejected .waiterSequenceExhausted, b)
      else
        let w := ⟨b.nextWaiterId, request, pool⟩
        (.enqueued w, { b with nextWaiterId := b.nextWaiterId + 1, waiters := b.waiters ++ [w] })

/-- One pass through the loop of `acquire_resources_inner`, up to the return or
up to `wait`. The request and the pool are those the waiter was queued with. -/
def checkWaiter (b : Broker) (w : Waiter) (cancelled : Bool) : BrokerResult :=
  if cancelled then .ok (.cancelled w, (b.removeWaiter w.id).notifyAll)
  else if (nextEligibleWaiter b.toBrokerState).any (·.id == w.id)
      && decide (w.request.width.get ≤ b.available) && b.auxiliarySlotAvailable w.auxiliaryPool then
    ((b.removeWaiter w.id).reserveResources w.request w.auxiliaryPool).map fun r =>
      (.granted w r.1, r.2.notifyAll)
  else .ok (.parked w, { b with parked := w.id :: b.parked })

/-- `CompositeAdmissionGrant::into_parts`. -/
def intoParts (b : Broker) (grant : CompositeAdmissionGrant) : Broker :=
  { b with
    grants := b.grants.erase grant
    leases := grant.cpuLease :: b.leases
    slots := grant.auxiliarySlot.toList ++ b.slots }

/-- One action; `none` when it is not possible in this state. A loop pass needs a
queued waiter that is not asleep. A dropped grant returns its permits first and
its slot in a critical section of its own. -/
def act (b : Broker) : BrokerAction → Option BrokerResult
  | .enqueue nested precancelled request pool =>
    some (.ok (b.enqueueWaiter nested precancelled request pool))
  | .check id cancelled =>
    if id ∈ b.parked then none
    else (b.waiters.find? (·.id == id)).map fun w => b.checkWaiter w cancelled
  | .wake id =>
    if id ∈ b.parked then some (.ok (.woken, { b with parked := b.parked.erase id })) else none
  | .notify => some (.ok (.woken, b.notifyAll))
  | .tryAcquire nested request pool => some (b.tryAcquireResources nested request pool)
  | .split lease width =>
    if lease ∈ b.leases then
      match lease.split width with
      | .error e => some (.ok (.splitRefused e, b))
      | .ok (parent, child) =>
        some (.ok (.moved, { b with leases := child :: parent :: b.leases.erase lease }))
    else none
  | .intoTransfer lease =>
    if lease ∈ b.leases then
      some (.ok (.moved, { b with
        leases := b.leases.erase lease, transfers := lease :: b.transfers }))
    else none
  | .accept lease =>
    if lease ∈ b.transfers then
      some (.ok (.moved, { b with
        transfers := b.transfers.erase lease, leases := lease :: b.leases }))
    else none
  | .dropLease lease =>
    if lease ∈ b.leases then
      some (({ b with leases := b.leases.erase lease }.returnPermits lease).map (.returned, ·))
    else none
  | .dropTransfer lease =>
    if lease ∈ b.transfers then
      some (({ b with transfers := b.transfers.erase lease }.returnPermits lease).map (.returned, ·))
    else none
  | .intoParts grant =>
    if grant ∈ b.grants then some (.ok (.moved, b.intoParts grant)) else none
  | .dropGrant grant =>
    if grant ∈ b.grants then
      some (({ b with
        grants := b.grants.erase grant
        slots := grant.auxiliarySlot.toList ++ b.slots }.returnPermits grant.cpuLease).map
          (.returned, ·))
    else none
  | .dropSlot slot =>
    if slot ∈ b.slots then
      some (({ b with slots := b.slots.erase slot }.returnSlot slot).map (.returned, ·))
    else none

end Broker

/-- The broker as a machine: only steps that do not panic are taken. -/
def brokerMachine (limit : WorkerLimit) (limits : Nat → AuxiliarySlotLimit) :
    Machine Broker BrokerAction BrokerEvent where
  start := CpuPermitBroker.new limit limits
  next b a := (b.act a).bind Except.toOption

end Neoethos
