import Neoethos.Admission
import Neoethos.BrokerStep

namespace Neoethos

namespace AdmissionQueues

variable {queues queues' : AdmissionQueues} {queued : QueuedAdmission}

@[simp] theorem of_set (queue : List QueuedAdmission) (p q : CpuPriority) :
    (queues.set queue p).of q = if q = p then queue else queues.of q := by
  cases p <;> cases q <;> simp [of, set]

theorem nextRequest_eq :
    queues.nextRequest = queues.popNext.map fun r => r.1.request := by
  unfold nextRequest popNext
  rcases queues with ⟨_ | ⟨c, cs⟩, _ | ⟨l, ls⟩⟩ <;> simp

theorem popNext_some (h : queues.popNext = some (queued, queues')) :
    ∃ p rest, queues.of p = queued :: rest ∧ queues' = queues.set rest p ∧
      (p = .localWork → queues.children = []) := by
  unfold popNext at h
  split at h
  next hc =>
    cases h
    exact ⟨.child, _, hc, rfl, by simp⟩
  next hc hl =>
    cases h
    exact ⟨.localWork, _, hl, rfl, fun _ => hc⟩
  next => cases h

theorem popNext_none (h : queues.popNext = none) : queues = ⟨[], []⟩ := by
  rcases queues with ⟨_ | ⟨c, cs⟩, _ | ⟨l, ls⟩⟩ <;> simp [popNext] at h ⊢

theorem position_some {id : Nat} {p : CpuPriority} (h : queues.position id = some p) :
    ∃ before queued rest, queues.of p = before ++ queued :: rest ∧ queued.id = id ∧
      (queues.of p).eraseP (·.id == id) = before ++ rest := by
  have hm : (queues.of p).any (·.id == id) = true := by
    unfold position at h
    split at h
    next hc => cases h; exact hc
    next =>
      split at h
      next hl => cases h; exact hl
      next => cases h
  obtain ⟨queued, hq, hid⟩ := List.any_eq_true.mp hm
  obtain ⟨found, before, rest, _, hf, hl, he⟩ :=
    List.exists_of_eraseP (p := fun other : QueuedAdmission => other.id == id) hq hid
  exact ⟨before, found, rest, hl, by simpa using hf, he⟩

end AdmissionQueues

/-- A request asks for a slot exactly when its reply carries one. -/
def QueuedAdmission.Matched (queued : QueuedAdmission) : Prop :=
  queued.request.auxiliary = .one ↔ queued.reply = .importWork

namespace CoordinatorPhase

def isServing : CoordinatorPhase → Bool
  | .receiving | .draining | .discarding _ _ | .granting => true
  | _ => false

end CoordinatorPhase

inductive Destroyed (s : Admission) (lease : AdmittedLease) :
    AdmissionEvent → Option AdmittedLease → Admission → Prop
  | slot {slot e b} : lease.auxiliarySlot = some slot →
      s.broker.act (.dropSlot slot) = some (.ok (e, b)) →
      Destroyed s lease (.slotReturned slot) (some { lease with auxiliarySlot := none })
        { s with broker := b }
  | cpu {cpuLease e b} : lease.auxiliarySlot = none → lease.cpuLease = some cpuLease →
      s.broker.act (.dropLease cpuLease) = some (.ok (e, b)) →
      Destroyed s lease (.leaseReturned cpuLease) (some { lease with cpuLease := none })
        { s with broker := b }
  | wake : lease.auxiliarySlot = none → lease.cpuLease = none →
      Destroyed s lease .quiet none (s.send .leaseReturned)

/-- Every way a step can change the state, with the guards that allow it. -/
inductive AdmissionStep (pool : Nat) (s : Admission) : AdmissionEvent → Admission → Prop
  | exhausted : AdmissionStep pool s .sequenceExhausted s
  | allocated : s.nextRequestId + 1 ≤ u64Max →
      AdmissionStep pool s (.allocated s.nextRequestId)
        { s with nextRequestId := s.nextRequestId + 1 }
  | submitted {queued} : queued.id < s.nextRequestId → s.replies queued.id = .absent →
      s.phase.receiverGone = false → queued.Matched →
      AdmissionStep pool s (.submitted queued.id queued.request)
        { s.setReply queued.id .empty with commands := s.commands ++ [.enqueue queued] }
  | turnedAway {id} : id < s.nextRequestId → s.replies id = .absent →
      s.phase.receiverGone = true →
      AdmissionStep pool s (.received id (.error .coordinatorStopped)) (s.setReply id .taken)
  | cancelled {id} : AdmissionStep pool s .quiet
      ({ s with cancelled := Function.update s.cancelled id true }.send (.cancel id))
  | dropped {id} : (s.replies id).isAwaited = true → AdmissionStep pool s .quiet
      { s.setReply id .closed with dropping := unreadLease (s.replies id) ++ s.dropping }
  | received {id result} : s.cancelled id = false →
      (s.replies id).read (.error .coordinatorStopped) = some result →
      AdmissionStep pool s (.received id result)
        { s.setReply id .taken with admitted := unreadLease (s.replies id) ++ s.admitted }
  | splitRefused : AdmissionStep pool s .quiet s
  | split {lease cpuLease parent child width e b} : lease ∈ s.admitted →
      lease.cpuLease = some cpuLease → cpuLease.split width = .ok (parent, child) →
      s.broker.act (.split cpuLease width) = some (.ok (e, b)) →
      AdmissionStep pool s (.splitLease cpuLease parent child)
        { s with broker := b
                 admitted := ⟨.cpu, some child, none⟩ ::
                   { lease with cpuLease := some parent } :: s.admitted.erase lease }
  | drop {lease} : lease ∈ s.admitted → AdmissionStep pool s .quiet
      { s with admitted := s.admitted.erase lease, dropping := lease :: s.dropping }
  | dropNext {lease e rest t} : lease ∈ s.dropping → Destroyed s lease e rest t →
      AdmissionStep pool s e { t with dropping := rest.toList ++ s.dropping.erase lease }
  | foreign {a e b} : s.isForeign a = true → s.broker.act a = some (.ok (e, b)) →
      AdmissionStep pool s .quiet { s with broker := b }
  | shutdown : AdmissionStep pool s .quiet ({ s with join := false }.send .shutdown)
  | enqueued {queued rest} : s.phase.isServing = true → s.commands = .enqueue queued :: rest →
      AdmissionStep pool s .quiet
        { s with commands := rest, queues := s.queues.enqueue queued, phase := .draining }
  | cancelHandled {queued before after p rest} : s.phase.isServing = true →
      s.commands = .cancel queued.id :: rest → s.queues.of p = before ++ queued :: after →
      AdmissionStep pool s .quiet
        ({ s with commands := rest, queues := s.queues.set (before ++ after) p
                  phase := .draining }.sendError queued.id .cancelled)
  | ignored {command rest} : s.phase.isServing = true → s.commands = command :: rest →
      (∀ queued, command ≠ .enqueue queued) → AdmissionStep pool s .quiet
        { s with commands := rest, phase := .draining }
  | shutdownHandled {rest} : s.phase.isServing = true → s.commands = .shutdown :: rest →
      AdmissionStep pool s .shutdownHandled { s with commands := rest, phase := .stopping }
  | passed {phase} : s.phase.isServing = true → phase.isServing = true →
      AdmissionStep pool s .quiet { s with phase := phase }
  | discarded {queued before after p} : s.phase.isServing = true →
      s.queues.of p = before ++ queued :: after → s.replies queued.id = .closed →
      AdmissionStep pool s .quiet { s with queues := s.queues.set (before ++ after) p }
  | granted {queued p rest grant be b lease} : s.phase.isServing = true →
      s.queues.of p = queued :: rest → (p = .localWork → s.queues.children = []) →
      s.broker.act (.tryAcquire false queued.request.cpu
        (requestedPool pool queued.request.auxiliary)) = some (.ok (be, b)) →
      Reserved s.broker queued.request.cpu (requestedPool pool queued.request.auxiliary) grant b →
      admittedLease grant queued.reply = some lease →
      AdmissionStep pool s (.granted queued.id lease)
        { s with broker := b.intoParts grant, queues := s.queues.set rest p
                 phase := .replying queued lease }
  | refused {queued p rest e} : s.phase.isServing = true → s.queues.of p = queued :: rest →
      AdmissionStep pool s (.refused queued.id e)
        ({ s with queues := s.queues.set rest p }.startPass.sendError queued.id (.acquire e))
  | delivered {queued lease} : s.phase = .replying queued lease →
      s.replies queued.id ≠ .closed → AdmissionStep pool s .quiet
        (s.startPass.setReply queued.id ((s.replies queued.id).send (.ok lease)))
  | undelivered {queued lease} : s.phase = .replying queued lease →
      s.replies queued.id = .closed → AdmissionStep pool s .quiet
        { s with phase := .returning lease }
  | returned {lease e rest t} : s.phase = .returning lease → Destroyed s lease e rest t →
      AdmissionStep pool s e
        { t with phase := match rest with
                   | some rest => .returning rest
                   | none => .discarding .child 0 }
  | stopping {queued p rest} : s.phase = .stopping → s.queues.of p = queued :: rest →
      AdmissionStep pool s .quiet
        ({ s with queues := s.queues.set rest p }.sendError queued.id .coordinatorStopped)
  | stopped : s.phase = .stopping → s.queues = ⟨[], []⟩ → AdmissionStep pool s .quiet s.stop

variable {pool : Nat} {s t : Admission} {e : AdmissionEvent}

theorem onBroker_some {a : BrokerAction} {be : BrokerEvent} (h : s.onBroker a = some (be, t)) :
    ∃ b, s.broker.act a = some (.ok (be, b)) ∧ t = { s with broker := b } := by
  obtain ⟨⟨_, b⟩, hb, hr⟩ := Option.map_eq_some_iff.mp h
  obtain ⟨rfl, rfl⟩ := Prod.mk.inj hr
  obtain ⟨r, ha, hr⟩ := Option.bind_eq_some_iff.mp hb
  cases r with
  | error p => cases hr
  | ok r =>
    cases hr
    exact ⟨b, ha, rfl⟩

theorem destroy_destroyed {lease : AdmittedLease} {rest : Option AdmittedLease}
    (h : s.destroy lease = some (e, rest, t)) : Destroyed s lease e rest t := by
  unfold Admission.destroy at h
  split at h
  next slot hs =>
    obtain ⟨⟨be, t'⟩, hb, hr⟩ := Option.map_eq_some_iff.mp h
    obtain ⟨b, ha, rfl⟩ := onBroker_some hb
    cases hr
    exact .slot hs ha
  next cpuLease hs hc =>
    obtain ⟨⟨be, t'⟩, hb, hr⟩ := Option.map_eq_some_iff.mp h
    obtain ⟨b, ha, rfl⟩ := onBroker_some hb
    cases hr
    exact .cpu hs hc ha
  next hs hc =>
    cases h
    exact .wake hs hc

theorem tryAcquire_granted {b b' : Broker} {request : CpuPermitRequest} {pool : Option Nat}
    {be : BrokerEvent} {grant : CompositeAdmissionGrant}
    (h : b.act (.tryAcquire false request pool) = some (.ok (be, b')))
    (hr : tryAcquireResult be = some (.ok (some grant))) : Reserved b request pool grant b' := by
  have h := Option.some.inj h
  simp only [Broker.tryAcquireResources, Bool.false_eq_true, ↓reduceIte] at h
  cases hv : b.validateWidth request.width with
  | error err =>
    simp only [hv] at h
    cases h
    cases hr
  | ok u =>
    simp only [hv] at h
    split at h
    next =>
      cases h
      cases hr
    next =>
      obtain ⟨⟨g, c⟩, hg, hp⟩ := Fallible.map_ok_iff.mp h
      cases hp
      cases hr
      exact reserveResources_reserved hg

theorem handleCommand_step {command : CoordinatorCommand} {rest : List CoordinatorCommand}
    (hs : s.phase.isServing = true) (hc : s.commands = command :: rest)
    (h : { s with commands := rest }.handleCommand command = (e, t)) :
    AdmissionStep pool s e t := by
  cases command with
  | enqueue queued =>
    cases h
    exact .enqueued hs hc
  | cancel id =>
    simp only [Admission.handleCommand] at h
    split at h
    next p hp =>
      cases h
      obtain ⟨before, queued, after, hl, rfl, he⟩ := AdmissionQueues.position_some hp
      simp only [he]
      exact .cancelHandled hs hc hl
    next =>
      cases h
      exact .ignored hs hc (by simp)
  | leaseReturned =>
    cases h
    exact .ignored hs hc (by simp)
  | shutdown =>
    cases h
    exact .shutdownHandled hs hc

theorem discardClosed_step (pool : Nat) (p : CpuPriority) (position : Nat)
    (hs : s.phase.isServing = true) :
    AdmissionStep pool s .quiet (s.discardClosed p position) := by
  unfold Admission.discardClosed
  split
  next queued hq =>
    obtain ⟨hlt, hq⟩ := List.getElem?_eq_some_iff.mp hq
    split
    next hc =>
      have hl : s.queues.of p =
          (s.queues.of p).take position ++ queued :: (s.queues.of p).drop (position + 1) := by
        rw [← hq, List.getElem_cons_drop hlt, List.take_append_drop]
      rw [List.eraseIdx_eq_take_drop_succ]
      exact .discarded hs hl (OneShot.isClosed_iff.mp hc)
    next => exact .passed hs rfl
  next =>
    split
    next => exact .passed hs rfl
    next => exact .passed hs rfl

theorem grantNext_step (hs : s.phase.isServing = true) (h : s.grantNext pool = some (e, t))
    (calm : t.phase ≠ .panicked) : AdmissionStep pool s e t := by
  unfold Admission.grantNext at h
  split at h
  next =>
    cases h
    exact .passed hs rfl
  next request hn =>
    rw [AdmissionQueues.nextRequest_eq] at hn
    obtain ⟨⟨queued, queues⟩, hp, rfl⟩ := Option.map_eq_some_iff.mp hn
    obtain ⟨p, rest, hl, rfl, first⟩ := AdmissionQueues.popNext_some hp
    split at h
    next =>
      cases h
      exact absurd rfl calm
    next be t' hb =>
      obtain ⟨b, ha, rfl⟩ := onBroker_some hb
      simp only [hp] at h
      split at h
      next grant _ _ hr heq =>
        cases heq
        have reserved := tryAcquire_granted ha hr
        split at h
        next =>
          cases h
          exact absurd rfl calm
        next lease hlease =>
          obtain ⟨⟨_, t₂⟩, hparts, hr⟩ := Option.map_eq_some_iff.mp h
          obtain ⟨b', hact, rfl⟩ := onBroker_some hparts
          have hm : grant ∈ b.grants := by simp [reserved.grants]
          simp only [Broker.act, if_pos hm] at hact
          cases hact
          cases hr
          exact .granted hs hl first ha reserved hlease
      next =>
        cases h
        exact .passed hs rfl
      next heq =>
        cases heq
        cases h
        exact .refused hs hl
      next =>
        cases h
        exact absurd rfl calm

theorem coordinate_step (h : s.coordinate pool = some (e, t)) (calm : t.phase ≠ .panicked) :
    AdmissionStep pool s e t := by
  unfold Admission.coordinate at h
  split at h
  next hp =>
    have hs : s.phase.isServing = true := by rw [hp]; rfl
    split at h
    next =>
      split at h
      next => cases h
      next =>
        cases h
        exact .passed hs rfl
    next hc => exact handleCommand_step hs hc (Option.some.inj h)
  next hp =>
    have hs : s.phase.isServing = true := by rw [hp]; rfl
    split at h
    next =>
      cases h
      exact .passed hs rfl
    next hc => exact handleCommand_step hs hc (Option.some.inj h)
  next hp =>
    have hs : s.phase.isServing = true := by rw [hp]; rfl
    cases h
    exact discardClosed_step _ _ _ hs
  next hp =>
    have hs : s.phase.isServing = true := by rw [hp]; rfl
    exact grantNext_step hs h calm
  next queued lease hp =>
    cases h
    unfold Admission.deliver
    split
    next hc => exact .undelivered hp (OneShot.isClosed_iff.mp hc)
    next hc => exact .delivered hp (fun he => hc (OneShot.isClosed_iff.mpr he))
  next lease hp =>
    split at h
    next hd =>
      cases h
      exact .returned hp (destroy_destroyed hd)
    next hd =>
      cases h
      exact .returned hp (destroy_destroyed hd)
    next =>
      cases h
      exact absurd rfl calm
  next hp =>
    split at h
    next hpop =>
      obtain ⟨p, rest, hl, rfl, _⟩ := AdmissionQueues.popNext_some hpop
      cases h
      exact .stopping hp hl
    next hpop =>
      cases h
      exact .stopped hp (AdmissionQueues.popNext_none hpop)
  next => cases h
  next => cases h

theorem sendRequest_step {id : Nat} {request : CompositeAdmissionRequest} {reply : AdmissionReply}
    (matched : QueuedAdmission.Matched ⟨id, request, reply⟩)
    (h : s.sendRequest id request reply = some (e, t)) : AdmissionStep pool s e t := by
  unfold Admission.sendRequest at h
  split at h
  next hid hr =>
    have hid : id < s.nextRequestId := by simpa using hid
    split at h
    next gone =>
      cases h
      exact .turnedAway hid hr gone
    next there =>
      cases h
      have there : s.phase.receiverGone = false := by simpa using there
      simp only [Admission.send, Admission.setReply, there, Bool.false_eq_true, ↓reduceIte]
      exact @AdmissionStep.submitted _ _ ⟨id, request, reply⟩ hid hr there matched
  next => cases h

/-- Every step that does not end in a panic is one of the listed ones. -/
theorem admission_act_step {a : AdmissionAction} (h : s.act pool a = some (e, t))
    (calm : a = .coordinate → t.phase ≠ .panicked) : AdmissionStep pool s e t := by
  cases a with
  | allocateRequestId =>
    have h := Option.some.inj h
    unfold Admission.allocateRequestId at h
    split at h
    next =>
      cases h
      exact .exhausted
    next room =>
      cases h
      exact .allocated (Nat.le_of_not_lt room)
  | submit id request => exact sendRequest_step (by simp [QueuedAdmission.Matched]) h
  | submitImport id request => exact sendRequest_step (by simp [QueuedAdmission.Matched]) h
  | cancel id =>
    simp only [Admission.act, Admission.cancel] at h
    split at h
    next => cases h
    next =>
      split at h
      next => cases h
      next => cases h
      next =>
        cases h
        exact .cancelled
  | dropReceiver id =>
    simp only [Admission.act, Admission.dropReceiver] at h
    split at h
    next awaited =>
      cases h
      exact .dropped awaited
    next => cases h
  | wait id =>
    simp only [Admission.act, Admission.wait] at h
    split at h
    next => cases h
    next hc =>
      obtain ⟨result, hr, heq⟩ := Option.map_eq_some_iff.mp h
      cases heq
      exact .received (by simpa using hc) hr
  | split lease width =>
    simp only [Admission.act, Admission.split] at h
    split at h
    next hm =>
      split at h
      next cpuLease _ hcpu =>
        split at h
        next =>
          cases h
          exact .splitRefused
        next parent child hparts =>
          obtain ⟨⟨be, t'⟩, hb, heq⟩ := Option.map_eq_some_iff.mp h
          obtain ⟨b, ha, rfl⟩ := onBroker_some hb
          cases heq
          exact .split hm hcpu hparts ha
      next => cases h
    next => cases h
  | drop lease =>
    simp only [Admission.act, Admission.drop] at h
    split at h
    next hm =>
      cases h
      exact .drop hm
    next => cases h
  | dropNext lease =>
    simp only [Admission.act, Admission.dropNext] at h
    split at h
    next hm =>
      obtain ⟨⟨_, rest, t'⟩, hd, heq⟩ := Option.map_eq_some_iff.mp h
      cases heq
      exact .dropNext hm (destroy_destroyed hd)
    next => cases h
  | broker a =>
    simp only [Admission.act, Admission.foreign] at h
    split at h
    next hf =>
      obtain ⟨⟨be, t'⟩, hb, heq⟩ := Option.map_eq_some_iff.mp h
      obtain ⟨b, ha, rfl⟩ := onBroker_some hb
      cases heq
      exact .foreign hf ha
    next => cases h
  | shutdown =>
    simp only [Admission.act, Admission.shutdown] at h
    split at h
    next =>
      cases h
      exact .shutdown
    next => cases h
  | coordinate => exact coordinate_step h (calm rfl)

end Neoethos
