import Neoethos.BrokerState
import Neoethos.RequestDesk

namespace Neoethos

inductive AuxiliarySlotRequest
  | none
  | one
  deriving DecidableEq

structure CompositeAdmissionRequest where
  cpu : CpuPermitRequest
  auxiliary : AuxiliarySlotRequest
  deriving DecidableEq

inductive AdmissionError
  | acquire (e : AcquireError)
  | cancelled
  | coordinatorStopped
  | requestSequenceExhausted
  | coordinatorPanicked
  deriving DecidableEq

/-- Which of the two lease types the reply channel carries. -/
inductive AdmissionReply
  | cpu
  | importWork
  deriving DecidableEq

/-- `AdmittedCpuLease`, which never has a slot, and `AdmittedImportLease`. Both destructors return
the slot first, then the permits, and wake the coordinator last; a field is `none` once it is back.
Work that executes under the lease holds it until it ends and returns it in the same order. -/
structure AdmittedLease where
  reply : AdmissionReply
  cpuLease : Option CpuLease
  auxiliarySlot : Option AuxiliarySlotLease
  deriving DecidableEq

structure QueuedAdmission where
  id : Nat
  request : CompositeAdmissionRequest
  reply : AdmissionReply
  deriving DecidableEq

inductive CoordinatorCommand
  | enqueue (queued : QueuedAdmission)
  | cancel (id : Nat)
  | leaseReturned
  | shutdown
  deriving DecidableEq

structure AdmissionQueues where
  children : List QueuedAdmission
  localWork : List QueuedAdmission

namespace AdmissionQueues

def of (queues : AdmissionQueues) : CpuPriority → List QueuedAdmission
  | .child => queues.children
  | .localWork => queues.localWork

def set (queues : AdmissionQueues) (queue : List QueuedAdmission) :
    CpuPriority → AdmissionQueues
  | .child => { queues with children := queue }
  | .localWork => { queues with localWork := queue }

def isEmpty (queues : AdmissionQueues) : Bool :=
  queues.children.isEmpty && queues.localWork.isEmpty

def enqueue (queues : AdmissionQueues) (queued : QueuedAdmission) : AdmissionQueues :=
  queues.set (queues.of queued.request.cpu.priority ++ [queued]) queued.request.cpu.priority

/-- The queue that `cancel` finds the request in. -/
def position (queues : AdmissionQueues) (id : Nat) : Option CpuPriority :=
  if queues.children.any (·.id == id) then some .child
  else if queues.localWork.any (·.id == id) then some .localWork
  else none

def nextRequest (queues : AdmissionQueues) : Option CompositeAdmissionRequest :=
  (queues.children.head?.or queues.localWork.head?).map QueuedAdmission.request

def popNext (queues : AdmissionQueues) : Option (QueuedAdmission × AdmissionQueues) :=
  match queues.children, queues.localWork with
  | queued :: rest, _ => some (queued, { queues with children := rest })
  | [], queued :: rest => some (queued, { queues with localWork := rest })
  | [], [] => none

end AdmissionQueues

/-- Where the coordinator thread stands: in `recv` or `recv_timeout`, in the `try_recv` loop, in
one of the two `retain`s of `discard_closed` at a position, before `try_acquire`, with a grant in
hand before `reply.send`, in the destructor of a lease nobody took, or in `stop_all`. -/
inductive CoordinatorPhase
  | receiving
  | draining
  | discarding (priority : CpuPriority) (position : Nat)
  | granting
  | replying (queued : QueuedAdmission) (admitted : AdmittedLease)
  | returning (admitted : AdmittedLease)
  | stopping
  | stopped
  | panicked
  deriving DecidableEq

namespace CoordinatorPhase

/-- The coordinator has dropped `command_rx`. -/
def receiverGone : CoordinatorPhase → Bool
  | .stopped | .panicked => true
  | _ => false

def admitted : CoordinatorPhase → List AdmittedLease
  | .replying _ lease => [lease]
  | .returning lease => [lease]
  | _ => []

end CoordinatorPhase

abbrev AdmissionResult := Except AdmissionError AdmittedLease

/-- The broker with whoever shares it, the command channel, the coordinator and its clients. The
handle with number `id` is the pending admission, or what `wait` returned for it; it is `cancelled`
once its destructor has sent its command. Leases being dropped are in their destructor. -/
structure Admission where
  broker : Broker
  nextRequestId : Nat
  commands : List CoordinatorCommand
  queues : AdmissionQueues
  phase : CoordinatorPhase
  replies : Nat → OneShot AdmissionResult
  cancelled : Nat → Bool
  admitted : List AdmittedLease
  dropping : List AdmittedLease
  join : Bool

inductive AdmissionAction
  | allocateRequestId
  | submit (id : Nat) (request : CpuPermitRequest)
  | submitImport (id : Nat) (request : CpuPermitRequest)
  | cancel (id : Nat)
  | dropReceiver (id : Nat)
  | wait (id : Nat)
  | split (lease : AdmittedLease) (width : WorkerLimit)
  | drop (lease : AdmittedLease)
  | dropNext (lease : AdmittedLease)
  | broker (a : BrokerAction)
  | shutdown
  | coordinate

inductive AdmissionEvent
  | allocated (id : Nat)
  | sequenceExhausted
  | submitted (id : Nat) (request : CompositeAdmissionRequest)
  | received (id : Nat) (result : AdmissionResult)
  | granted (id : Nat) (admitted : AdmittedLease)
  | refused (id : Nat) (e : AcquireError)
  | splitLease (lease parent child : CpuLease)
  | slotReturned (slot : AuxiliarySlotLease)
  | leaseReturned (lease : CpuLease)
  | shutdownHandled
  | quiet
  deriving DecidableEq

def unreadLease : OneShot AdmissionResult → List AdmittedLease
  | .full (.ok lease) => [lease]
  | _ => []

def leasesOf (holders : List AdmittedLease) : List CpuLease :=
  holders.flatMap fun lease => lease.cpuLease.toList

def slotsOf (holders : List AdmittedLease) : List AuxiliarySlotLease :=
  holders.flatMap fun lease => lease.auxiliarySlot.toList

namespace Admission

def unread (s : Admission) : List AdmittedLease :=
  (List.range s.nextRequestId).flatMap fun id => unreadLease (s.replies id)

/-- Every admitted lease there is: with the coordinator before its reply is sent or after it came
back, with a client, in a destructor, or in a reply nobody has read. -/
def holders (s : Admission) : List AdmittedLease :=
  s.phase.admitted ++ s.admitted ++ s.dropping ++ s.unread

def heldLeases (s : Admission) : List CpuLease := leasesOf s.holders

def heldSlots (s : Admission) : List AuxiliarySlotLease := slotsOf s.holders

/-- `Sender::send`. Nobody looks at what it returns but `submit`. -/
def send (s : Admission) (command : CoordinatorCommand) : Admission :=
  if s.phase.receiverGone then s else { s with commands := s.commands ++ [command] }

def setReply (s : Admission) (id : Nat) (reply : OneShot AdmissionResult) : Admission :=
  { s with replies := Function.update s.replies id reply }

def onBroker (s : Admission) (a : BrokerAction) : Option (BrokerEvent × Admission) :=
  ((s.broker.act a).bind Except.toOption).map fun r => (r.1, { s with broker := r.2 })

def allocateRequestId (s : Admission) : AdmissionEvent × Admission :=
  if u64Max < s.nextRequestId + 1 then (.sequenceExhausted, s)
  else (.allocated s.nextRequestId, { s with nextRequestId := s.nextRequestId + 1 })

/-- `submit` and `submit_import` from the `send` on: the request number is allocated. -/
def sendRequest (s : Admission) (id : Nat) (request : CompositeAdmissionRequest)
    (reply : AdmissionReply) : Option (AdmissionEvent × Admission) :=
  match decide (id < s.nextRequestId), s.replies id with
  | true, .absent =>
    if s.phase.receiverGone then
      some (.received id (.error .coordinatorStopped), s.setReply id .taken)
    else
      some (.submitted id request, (s.setReply id .empty).send (.enqueue ⟨id, request, reply⟩))
  | _, _ => none

def submit (s : Admission) (id : Nat) (request : CpuPermitRequest) :
    Option (AdmissionEvent × Admission) :=
  s.sendRequest id ⟨request, .none⟩ .cpu

def submitImport (s : Admission) (id : Nat) (request : CpuPermitRequest) :
    Option (AdmissionEvent × Admission) :=
  s.sendRequest id ⟨request, .one⟩ .importWork

/-- `Drop for PendingAdmission` and `Drop for PendingImportAdmission`, unless the handle is
settled. The receiver goes before, when `wait` is dropped, or after. -/
def cancel (s : Admission) (id : Nat) : Option (AdmissionEvent × Admission) :=
  if s.cancelled id then none
  else match s.replies id with
    | .absent | .taken => none
    | _ => some (.quiet,
        { s with cancelled := Function.update s.cancelled id true }.send (.cancel id))

/-- The receiver of a reply is dropped, and what it holds with it. -/
def dropReceiver (s : Admission) (id : Nat) : Option (AdmissionEvent × Admission) :=
  if (s.replies id).isAwaited then
    some (.quiet,
      { s.setReply id .closed with dropping := unreadLease (s.replies id) ++ s.dropping })
  else none

/-- `wait`, when the reply is there or its sender is gone. -/
def wait (s : Admission) (id : Nat) : Option (AdmissionEvent × Admission) :=
  if s.cancelled id then none
  else ((s.replies id).read (.error .coordinatorStopped)).map fun result =>
    (.received id result,
      { s.setReply id .taken with admitted := unreadLease (s.replies id) ++ s.admitted })

/-- `AdmittedCpuLease::split`. -/
def split (s : Admission) (lease : AdmittedLease) (width : WorkerLimit) :
    Option (AdmissionEvent × Admission) :=
  if lease ∈ s.admitted then
    match lease.reply, lease.cpuLease with
    | .cpu, some cpuLease =>
      match cpuLease.split width with
      | .error _ => some (.quiet, s)
      | .ok (parent, child) =>
        (s.onBroker (.split cpuLease width)).map fun r =>
          (.splitLease cpuLease parent child,
            { r.2 with admitted := ⟨.cpu, some child, none⟩ ::
                { lease with cpuLease := some parent } :: s.admitted.erase lease })
    | _, _ => none
  else none

def drop (s : Admission) (lease : AdmittedLease) : Option (AdmissionEvent × Admission) :=
  if lease ∈ s.admitted then
    some (.quiet, { s with admitted := s.admitted.erase lease, dropping := lease :: s.dropping })
  else none

/-- The next thing the destructor of an admitted lease does, with what is left for it to do. -/
def destroy (s : Admission) (lease : AdmittedLease) :
    Option (AdmissionEvent × Option AdmittedLease × Admission) :=
  match lease.auxiliarySlot, lease.cpuLease with
  | some slot, _ =>
    (s.onBroker (.dropSlot slot)).map fun r =>
      (.slotReturned slot, some { lease with auxiliarySlot := none }, r.2)
  | none, some cpuLease =>
    (s.onBroker (.dropLease cpuLease)).map fun r =>
      (.leaseReturned cpuLease, some { lease with cpuLease := none }, r.2)
  | none, none => some (.quiet, none, s.send .leaseReturned)

def dropNext (s : Admission) (lease : AdmittedLease) : Option (AdmissionEvent × Admission) :=
  if lease ∈ s.dropping then
    (s.destroy lease).map fun r =>
      (r.1, { r.2.2 with dropping := r.2.1.toList ++ s.dropping.erase lease })
  else none

/-- A step that others take with the broker: the leases and slots it is about are not of those the
coordinator has granted. -/
def isForeign (s : Admission) : BrokerAction → Bool
  | .split lease _ | .intoTransfer lease | .dropLease lease =>
    decide (lease ∈ s.broker.leases.diff s.heldLeases)
  | .dropSlot slot => decide (slot ∈ s.broker.slots.diff s.heldSlots)
  | _ => true

def foreign (s : Admission) (a : BrokerAction) : Option (AdmissionEvent × Admission) :=
  if s.isForeign a then (s.onBroker a).map fun r => (.quiet, r.2) else none

/-- `stop_and_join` up to the wait for the acknowledgement. -/
def shutdown (s : Admission) : Option (AdmissionEvent × Admission) :=
  if s.join then some (.quiet, { s with join := false }.send .shutdown) else none

end Admission

/-- `requested_pool`; `pool` is the number of the coordinator's own pool. -/
def requestedPool (pool : Nat) : AuxiliarySlotRequest → Option Nat
  | .none => none
  | .one => some pool

/-- What `try_acquire` returns. -/
def tryAcquireResult : BrokerEvent → Option (Except AcquireError (Option CompositeAdmissionGrant))
  | .tryGranted _ _ grant => some (.ok (some grant))
  | .tryRefused => some (.ok none)
  | .rejected e => some (.error e)
  | _ => none

/-- The lease that goes into the reply; `none` is a failed `assert!` or `expect`. -/
def admittedLease (grant : CompositeAdmissionGrant) : AdmissionReply → Option AdmittedLease
  | .cpu => if grant.auxiliarySlot.isNone then some ⟨.cpu, some grant.cpuLease, none⟩ else none
  | .importWork => grant.auxiliarySlot.map fun slot => ⟨.importWork, some grant.cpuLease, some slot⟩

namespace Admission

/-- `send_error`. -/
def sendError (s : Admission) (id : Nat) (e : AdmissionError) : Admission :=
  s.setReply id ((s.replies id).send (.error e))

/-- A grant pass begins with `discard_closed`. -/
def startPass (s : Admission) : Admission := { s with phase := .discarding .child 0 }

/-- `handle_command`; the first of the steps of `stop_all` when it is told to stop. -/
def handleCommand (s : Admission) : CoordinatorCommand → AdmissionEvent × Admission
  | .enqueue queued => (.quiet, { s with queues := s.queues.enqueue queued, phase := .draining })
  | .cancel id =>
    match s.queues.position id with
    | some priority =>
      (.quiet, { s with
        queues := s.queues.set ((s.queues.of priority).eraseP (·.id == id)) priority
        phase := .draining }.sendError id .cancelled)
    | none => (.quiet, { s with phase := .draining })
  | .leaseReturned => (.quiet, { s with phase := .draining })
  | .shutdown => (.shutdownHandled, { s with phase := .stopping })

/-- One element of `discard_closed`: children before local requests. -/
def discardClosed (s : Admission) (priority : CpuPriority) (position : Nat) : Admission :=
  match (s.queues.of priority)[position]? with
  | some queued =>
    if (s.replies queued.id).isClosed then
      { s with queues := s.queues.set ((s.queues.of priority).eraseIdx position) priority }
    else { s with phase := .discarding priority (position + 1) }
  | none =>
    match priority with
    | .child => { s with phase := .discarding .localWork 0 }
    | .localWork => { s with phase := .granting }

/-- `grant_ready_requests` from `next_request` to the built reply. -/
def grantNext (pool : Nat) (s : Admission) : Option (AdmissionEvent × Admission) :=
  match s.queues.nextRequest with
  | none => some (.quiet, { s with phase := .receiving })
  | some request =>
    match s.onBroker (.tryAcquire false request.cpu (requestedPool pool request.auxiliary)) with
    | none => some (.quiet, { s with phase := .panicked })
    | some (e, t) =>
      match tryAcquireResult e, s.queues.popNext with
      | some (.ok (some grant)), some (queued, queues) =>
        match admittedLease grant queued.reply with
        | none => some (.quiet, { s with phase := .panicked })
        | some lease =>
          (t.onBroker (.intoParts grant)).map fun r =>
            (.granted queued.id lease,
              { r.2 with queues := queues, phase := .replying queued lease })
      | some (.ok none), _ => some (.quiet, { s with phase := .receiving })
      | some (.error e), some (queued, queues) =>
        some (.refused queued.id e,
          { s with queues := queues }.startPass.sendError queued.id (.acquire e))
      | _, _ => some (.quiet, { s with phase := .panicked })

/-- `reply.send`: a requester that is gone leaves the lease with the coordinator. -/
def deliver (s : Admission) (queued : QueuedAdmission) (lease : AdmittedLease) : Admission :=
  if (s.replies queued.id).isClosed then { s with phase := .returning lease }
  else s.startPass.setReply queued.id ((s.replies queued.id).send (.ok lease))

def unhandled (s : Admission) : List Nat :=
  s.commands.filterMap fun
    | .enqueue queued => some queued.id
    | _ => none

/-- The coordinator thread ends: the commands left in the channel are dropped, and the reply
senders with them. -/
def stop (s : Admission) : Admission :=
  { s with commands := []
           phase := .stopped
           replies := fun id =>
             if id ∈ s.unhandled then (s.replies id).hangUp else s.replies id }

/-- The next step of the coordinator thread. It has a sender of its own, so the channel is never
disconnected; `recv_timeout` gives up when the channel is empty. -/
def coordinate (pool : Nat) (s : Admission) : Option (AdmissionEvent × Admission) :=
  match s.phase with
  | .receiving =>
    match s.commands with
    | [] => if s.queues.isEmpty then none else some (.quiet, s.startPass)
    | command :: rest => some ({ s with commands := rest }.handleCommand command)
  | .draining =>
    match s.commands with
    | [] => some (.quiet, s.startPass)
    | command :: rest => some ({ s with commands := rest }.handleCommand command)
  | .discarding priority position => some (.quiet, s.discardClosed priority position)
  | .granting => s.grantNext pool
  | .replying queued lease => some (.quiet, s.deliver queued lease)
  | .returning lease =>
    match s.destroy lease with
    | some (e, some rest, t) => some (e, { t with phase := .returning rest })
    | some (e, none, t) => some (e, t.startPass)
    | none => some (.quiet, { s with phase := .panicked })
  | .stopping =>
    match s.queues.popNext with
    | some (queued, queues) =>
      some (.quiet, { s with queues := queues }.sendError queued.id .coordinatorStopped)
    | none => some (.quiet, s.stop)
  | .stopped => none
  | .panicked => none

def act (pool : Nat) (s : Admission) : AdmissionAction → Option (AdmissionEvent × Admission)
  | .allocateRequestId => some s.allocateRequestId
  | .submit id request => s.submit id request
  | .submitImport id request => s.submitImport id request
  | .cancel id => s.cancel id
  | .dropReceiver id => s.dropReceiver id
  | .wait id => s.wait id
  | .split lease width => s.split lease width
  | .drop lease => s.drop lease
  | .dropNext lease => s.dropNext lease
  | .broker a => s.foreign a
  | .shutdown => s.shutdown
  | .coordinate => s.coordinate pool

/-- `ExecutionAdmissionCoordinator::start`. -/
def start (limit : WorkerLimit) (limits : Nat → AuxiliarySlotLimit) : Admission where
  broker := CpuPermitBroker.new limit limits
  nextRequestId := 0
  commands := []
  queues := ⟨[], []⟩
  phase := .receiving
  replies _ := .absent
  cancelled _ := false
  admitted := []
  dropping := []
  join := true

end Admission

/-- The coordinator with its clients and with whoever else uses the broker, one atomic step of one
thread at a time. -/
def admissionMachine (limit : WorkerLimit) (limits : Nat → AuxiliarySlotLimit) (pool : Nat) :
    Machine Admission AdmissionAction AdmissionEvent where
  start := Admission.start limit limits
  next s a := s.act pool a

end Neoethos
