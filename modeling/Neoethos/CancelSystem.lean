import Neoethos.BrokerPermits
import Neoethos.BrokerStep
import Mathlib.Data.List.Sort

namespace Neoethos

/-- `CancellationInner`; the weak references are broker numbers. -/
structure CancellationToken where
  cancelled : Bool
  brokers : List Nat

/-- Where one call of `acquire_resources_inner` stands. -/
inductive AcquirePc
  | idle
  | entered
  | registered
  | flagRead
  | looping (id : Nat)
  | willWait (id : Nat)
  | waiting (id : Nat)
  | returned
  deriving DecidableEq

/-- One call of `acquire_resources_inner`; without a token it cannot be cancelled. -/
structure AcquireCall where
  token : Option Nat
  broker : Nat
  request : CpuPermitRequest
  pool : Option Nat
  pc : AcquirePc

/-- Where one call of `cancel` stands. `locking` is between the snapshot of the
registered brokers and the swap of the flag, `notifying` after a swap that found
the flag unset. The second list of both holds the broker locks taken so far. -/
inductive CancelPc
  | idle
  | entered
  | locking (todo held : List Nat)
  | notifying (todo held : List Nat)
  | returned
  deriving DecidableEq

structure CancelCall where
  token : Nat
  pc : CancelPc

inductive LockHolder
  | acquire (call : Nat)
  | cancel (call : Nat)
  deriving DecidableEq

/-- Any number of brokers, tokens and calls. Calls are numbered in the order they
are made, whatever thread makes them. `alive` is whether a strong reference to the
broker is left. -/
structure CancelSystem where
  brokers : Nat → Broker
  alive : Nat → Bool
  lock : Nat → Option LockHolder
  tokens : Nat → CancellationToken
  acquires : Nat → AcquireCall
  acquireCount : Nat
  cancels : Nat → CancelCall
  cancelCount : Nat

def AcquirePc.waiterId : AcquirePc → Option Nat
  | .looping id | .willWait id | .waiting id => some id
  | _ => none

/-- The call is past `register` and has not returned. -/
def AcquirePc.isRegistered : AcquirePc → Bool
  | .registered | .flagRead | .looping _ | .willWait _ | .waiting _ => true
  | _ => false

def AcquirePc.isActive : AcquirePc → Bool
  | .idle | .returned => false
  | _ => true

/-- The broker lock is held from the queueing or the wakeup up to `wait` or the return. -/
def AcquirePc.holdsLock : AcquirePc → Bool
  | .looping _ | .willWait _ => true
  | _ => false

def CancelPc.held : CancelPc → List Nat
  | .locking _ held | .notifying _ held => held
  | _ => []

/-- The brokers a `cancel` has strong references to. -/
def CancelPc.snapshot : CancelPc → List Nat
  | .locking todo held => held ++ todo
  | .notifying _ held => held
  | _ => []

namespace CancelSystem

@[simps]
def setBroker (s : CancelSystem) (n : Nat) (b : Broker) : CancelSystem :=
  { s with brokers := Function.update s.brokers n b }

@[simps]
def setLock (s : CancelSystem) (n : Nat) (l : Option LockHolder) : CancelSystem :=
  { s with lock := Function.update s.lock n l }

@[simps]
def setToken (s : CancelSystem) (n : Nat) (t : CancellationToken) : CancelSystem :=
  { s with tokens := Function.update s.tokens n t }

@[simps brokers alive lock tokens acquireCount cancels cancelCount]
def setPc (s : CancelSystem) (c : Nat) (pc : AcquirePc) : CancelSystem :=
  { s with acquires := Function.update s.acquires c { s.acquires c with pc := pc } }

@[simps brokers alive lock tokens acquires acquireCount cancelCount]
def setCancelPc (s : CancelSystem) (k : Nat) (pc : CancelPc) : CancelSystem :=
  { s with cancels := Function.update s.cancels k { s.cancels k with pc := pc } }

/-- Dropping the mutex guards of a `cancel`. -/
@[simps]
def unlockAll (s : CancelSystem) (held : List Nat) : CancelSystem :=
  { s with lock := fun n => if n ∈ held then none else s.lock n }

/-- `is_cancelled` of the call's token; a call without a token is never cancelled. -/
def isCancelled (s : CancelSystem) : Option Nat → Bool
  | none => false
  | some t => (s.tokens t).cancelled

end CancelSystem

/-- `register` keeps one weak reference for each broker. -/
def CancellationToken.register (t : CancellationToken) (broker : Nat) : CancellationToken :=
  if broker ∈ t.brokers then t else { t with brokers := t.brokers ++ [broker] }

def BrokerAction.isLockFree : BrokerAction → Bool
  | .split .. | .intoTransfer _ | .accept _ | .intoParts _ => true
  | _ => false

/-- Critical sections that are one step here: the ones that neither wait nor notify halfway. -/
def BrokerAction.isOneStep : BrokerAction → Bool
  | .enqueue .. | .check .. | .wake _ | .notify => false
  | _ => true

/-- The separate steps of `acquire_resources_inner` (`callAcquire` to `relock`) and of
`cancel` (`callCancel` to `returnCancel`), the other operations on a broker, and the
end of a broker. -/
inductive CancelAction
  | callAcquire (token : Option Nat) (broker : Nat) (nested : Bool)
      (request : CpuPermitRequest) (pool : Option Nat)
  | register (call : Nat)
  | readFlag (call : Nat)
  | enqueue (call : Nat)
  | loopCheck (call : Nat)
  | wait (call : Nat)
  | wakeSpuriously (call : Nat)
  | relock (call : Nat)
  | callCancel (token : Nat)
  | snapshot (call : Nat)
  | takeLock (call : Nat)
  | swap (call : Nat)
  | notify (call : Nat)
  | returnCancel (call : Nat)
  | broker (n : Nat) (action : BrokerAction)
  | dropBroker (n : Nat)

namespace CancelSystem

/-- `reject_nested_acquisition` and `validate_width` come before anything shared is touched. -/
def callAcquire (s : CancelSystem) (token : Option Nat) (n : Nat) (nested : Bool)
    (request : CpuPermitRequest) (pool : Option Nat) : Option CancelSystem :=
  if s.alive n = true then
    let refused := nested || (s.brokers n).installedLimit.get < request.width.get
    let pc := if refused then .returned else if token.isNone then .flagRead else .entered
    some { s with
      acquires := Function.update s.acquires s.acquireCount ⟨token, n, request, pool, pc⟩
      acquireCount := s.acquireCount + 1 }
  else none

def register (s : CancelSystem) (c : Nat) : Option CancelSystem :=
  let call := s.acquires c
  match call.pc, call.token with
  | .entered, some t =>
    some ((s.setToken t ((s.tokens t).register call.broker)).setPc c .registered)
  | _, _ => none

def readFlag (s : CancelSystem) (c : Nat) : Option CancelSystem :=
  let call := s.acquires c
  match call.pc with
  | .registered => some (s.setPc c (if s.isCancelled call.token then .returned else .flagRead))
  | _ => none

def enqueue (s : CancelSystem) (c : Nat) : Option CancelSystem :=
  let call := s.acquires c
  match call.pc with
  | .flagRead =>
    if s.lock call.broker = none then
      match (s.brokers call.broker).enqueueWaiter false false call.request call.pool with
      | (.enqueued w, b) =>
        some (((s.setBroker call.broker b).setLock call.broker (some (.acquire c))).setPc c
          (.looping w.id))
      | (_, _) => some (s.setPc c .returned)
    else none
  | _ => none

/-- The loop body up to `wait`. -/
def loopCheck (s : CancelSystem) (c : Nat) : Option CancelSystem :=
  let call := s.acquires c
  match call.pc with
  | .looping id =>
    let b := s.brokers call.broker
    match (b.waiters.find? (·.id == id)).map fun w => b.checkWaiter w (s.isCancelled call.token) with
    | some (.ok (.parked _, _)) => some (s.setPc c (.willWait id))
    | some (.ok (_, b)) =>
      some (((s.setBroker call.broker b).setLock call.broker none).setPc c .returned)
    | _ => none
  | _ => none

/-- `Condvar::wait` releases the mutex and goes to sleep in one step. -/
def wait (s : CancelSystem) (c : Nat) : Option CancelSystem :=
  let call := s.acquires c
  let b := s.brokers call.broker
  match call.pc with
  | .willWait id =>
    some (((s.setBroker call.broker { b with parked := id :: b.parked }).setLock call.broker none).setPc
      c (.waiting id))
  | _ => none

def wakeSpuriously (s : CancelSystem) (c : Nat) : Option CancelSystem :=
  let call := s.acquires c
  let b := s.brokers call.broker
  match call.pc with
  | .waiting id =>
    if id ∈ b.parked then some (s.setBroker call.broker { b with parked := b.parked.erase id })
    else none
  | _ => none

/-- A waiter that is no longer asleep gets the mutex back and loops. -/
def relock (s : CancelSystem) (c : Nat) : Option CancelSystem :=
  let call := s.acquires c
  match call.pc with
  | .waiting id =>
    if id ∉ (s.brokers call.broker).parked ∧ s.lock call.broker = none then
      some ((s.setLock call.broker (some (.acquire c))).setPc c (.looping id))
    else none
  | _ => none

def callCancel (s : CancelSystem) (t : Nat) : Option CancelSystem :=
  some { s with
    cancels := Function.update s.cancels s.cancelCount ⟨t, .entered⟩
    cancelCount := s.cancelCount + 1 }

/-- Upgrade the registered brokers, prune the dead ones and sort by address. -/
def snapshot (s : CancelSystem) (k : Nat) : Option CancelSystem :=
  let t := (s.cancels k).token
  match (s.cancels k).pc with
  | .entered =>
    let live := (s.tokens t).brokers.filter fun n => s.alive n
    some ((s.setToken t { s.tokens t with brokers := live }).setCancelPc k
      (.locking (live.insertionSort (· ≤ ·)) []))
  | _ => none

def takeLock (s : CancelSystem) (k : Nat) : Option CancelSystem :=
  match (s.cancels k).pc with
  | .locking (n :: todo) held =>
    if s.lock n = none then
      some ((s.setLock n (some (.cancel k))).setCancelPc k (.locking todo (held ++ [n])))
    else none
  | _ => none

/-- Swap the flag with all snapshot locks held. If it was set already, return at
once; the guards go with the return. -/
def swap (s : CancelSystem) (k : Nat) : Option CancelSystem :=
  let t := (s.cancels k).token
  match (s.cancels k).pc with
  | .locking [] held =>
    if (s.tokens t).cancelled then some ((s.unlockAll held).setCancelPc k .returned)
    else some ((s.setToken t { s.tokens t with cancelled := true }).setCancelPc k
      (.notifying held held))
  | _ => none

def notify (s : CancelSystem) (k : Nat) : Option CancelSystem :=
  match (s.cancels k).pc with
  | .notifying (n :: todo) held =>
    some ((s.setBroker n (s.brokers n).notifyAll).setCancelPc k (.notifying todo held))
  | _ => none

def returnCancel (s : CancelSystem) (k : Nat) : Option CancelSystem :=
  match (s.cancels k).pc with
  | .notifying [] held => some ((s.unlockAll held).setCancelPc k .returned)
  | _ => none

/-- Any other operation of any thread on a broker, as one critical section. -/
def brokerAction (s : CancelSystem) (n : Nat) (a : BrokerAction) : Option CancelSystem :=
  if a.isOneStep = true ∧ s.alive n = true ∧ (a.isLockFree = true ∨ s.lock n = none) then
    match (s.brokers n).act a with
    | some (.ok (_, b)) => some (s.setBroker n b)
    | _ => none
  else none

/-- Nobody has a strong reference to the broker any more: no call is under way on
it, no `cancel` has it in its snapshot, and no lease or slot of it is live. -/
def Unreferenced (s : CancelSystem) (n : Nat) : Prop :=
  (∀ c < s.acquireCount, (s.acquires c).broker = n → (s.acquires c).pc.isActive = false) ∧
    (∀ k < s.cancelCount, n ∉ (s.cancels k).pc.snapshot) ∧
    (s.brokers n).liveLeases = [] ∧ (s.brokers n).slots = []

instance (s : CancelSystem) (n : Nat) : Decidable (s.Unreferenced n) :=
  inferInstanceAs (Decidable (_ ∧ _ ∧ _ ∧ _))

def dropBroker (s : CancelSystem) (n : Nat) : Option CancelSystem :=
  if s.Unreferenced n then some { s with alive := Function.update s.alive n false } else none

def next (s : CancelSystem) : CancelAction → Option CancelSystem
  | .callAcquire token n nested request pool => s.callAcquire token n nested request pool
  | .register c => s.register c
  | .readFlag c => s.readFlag c
  | .enqueue c => s.enqueue c
  | .loopCheck c => s.loopCheck c
  | .wait c => s.wait c
  | .wakeSpuriously c => s.wakeSpuriously c
  | .relock c => s.relock c
  | .callCancel t => s.callCancel t
  | .snapshot k => s.snapshot k
  | .takeLock k => s.takeLock k
  | .swap k => s.swap k
  | .notify k => s.notify k
  | .returnCancel k => s.returnCancel k
  | .broker n a => s.brokerAction n a
  | .dropBroker n => s.dropBroker n

def new (limit : Nat → WorkerLimit) (limits : Nat → Nat → AuxiliarySlotLimit) : CancelSystem where
  brokers n := CpuPermitBroker.new (limit n) (limits n)
  alive _ := true
  lock _ := none
  tokens _ := ⟨false, []⟩
  acquires _ := ⟨none, 0, ⟨limit 0, .child⟩, none, .idle⟩
  acquireCount := 0
  cancels _ := ⟨0, .idle⟩
  cancelCount := 0

end CancelSystem

def cancelMachine (limit : Nat → WorkerLimit) (limits : Nat → Nat → AuxiliarySlotLimit) :
    Machine CancelSystem CancelAction CancelAction where
  start := CancelSystem.new limit limits
  next s a := (s.next a).map fun s' => (a, s')

/-- The call sleeps in `wait`, and no `notify_all` has reached it since it went to sleep. -/
def CancelSystem.Parked (s : CancelSystem) (c : Nat) : Prop :=
  ∃ id, (s.acquires c).pc = .waiting id ∧ id ∈ (s.brokers (s.acquires c).broker).parked

/-- Some `cancel` on the token has returned. -/
def CancelSystem.CancelReturned (s : CancelSystem) (t : Nat) : Prop :=
  ∃ k, (s.cancels k).token = t ∧ (s.cancels k).pc = .returned

/-- No waiter that holds a token some `cancel` on which has returned is still asleep. -/
def CancelSystem.CancellationDelivered (s : CancelSystem) : Prop :=
  ∀ t c, s.CancelReturned t → (s.acquires c).token = some t → ¬s.Parked c

/-- One permit, already out, and a `cancel` that takes its snapshot before the
first registration and swaps the flag after the waiter went to sleep. -/
def lateRegistration : List CancelAction :=
  [.broker 0 (.tryAcquire false ⟨oneWorker, .localWork⟩ none),
    .callCancel 7, .snapshot 0,
    .callAcquire (some 7) 0 false ⟨oneWorker, .child⟩ none,
    .register 0, .readFlag 0, .enqueue 0, .loopCheck 0, .wait 0,
    .swap 0, .returnCancel 0]

/-- A cancellation can be lost: the call sleeps, its token is cancelled, the only
`cancel` has returned, and no other call is under way that could wake it. -/
theorem cancellation_lost_by_late_registration :
    ∃ es s, (cancelMachine (fun _ => ⟨1, by decide, by decide⟩)
        fun _ _ => ⟨1, by decide, by decide⟩).Run es s ∧
      ¬s.CancellationDelivered ∧ (s.tokens 7).cancelled = true ∧
      s.acquireCount = 1 ∧ s.cancelCount = 1 := by
  obtain ⟨es, s, hr, hp⟩ := Machine.run_of_exec_start
    (M := cancelMachine (fun _ => ⟨1, by decide, by decide⟩) fun _ _ => ⟨1, by decide, by decide⟩)
    lateRegistration
    (fun _ s => decide ((s.acquires 0).token = some 7) && decide ((s.acquires 0).pc = .waiting 0) &&
      decide (0 ∈ (s.brokers (s.acquires 0).broker).parked) &&
      decide ((s.cancels 0).token = 7 ∧ (s.cancels 0).pc = .returned) &&
      (s.tokens 7).cancelled && s.acquireCount == 1 && s.cancelCount == 1) (by decide)
  simp only [Bool.and_eq_true, decide_eq_true_eq, beq_iff_eq] at hp
  obtain ⟨⟨⟨⟨⟨⟨token, pc⟩, parked⟩, returned⟩, flag⟩, calls⟩, cancels⟩ := hp
  refine ⟨es, s, hr, ?_, flag, calls, cancels⟩
  intro delivered
  exact delivered 7 0 ⟨0, returned⟩ token ⟨0, pc, parked⟩

end Neoethos
