import Neoethos.AdmissionLedger

namespace Neoethos

variable {pool : Nat} {s t : Admission} {e : AdmissionEvent}

def Admission.Numbered (s : Admission) : Prop :=
  ∀ id, s.replies id ≠ .absent → id < s.nextRequestId

def Admission.CancelsSent (s : Admission) : Prop :=
  ∀ id, CoordinatorCommand.cancel id ∈ s.commands → s.cancelled id = true

def Admission.Waits (s : Admission) (queued : QueuedAdmission) : Prop :=
  CoordinatorCommand.enqueue queued ∈ s.commands ∨ ∃ p, queued ∈ s.queues.of p

theorem Admission.Numbered.setReply (h : s.Numbered) {id : Nat} {c : OneShot AdmissionResult}
    (hid : c = .absent ∨ id < s.nextRequestId) : (s.setReply id c).Numbered := by
  intro i hi
  by_cases hii : i = id
  · subst hii
    rcases hid with rfl | hid
    · simp [Admission.setReply] at hi
    · exact hid
  · exact h i (by simpa [Admission.setReply, hii] using hi)

theorem Admission.Numbered.send (h : s.Numbered) {id : Nat} {r : AdmissionResult} :
    (s.setReply id ((s.replies id).send r)).Numbered := by
  refine h.setReply ?_
  cases hc : s.replies id with
  | absent => exact Or.inl rfl
  | _ => exact Or.inr (h id (by simp [hc]))

theorem AdmissionStep.numbered (step : AdmissionStep pool s e t) (h : s.Numbered) :
    t.Numbered := by
  cases step with
  | exhausted => exact h
  | allocated => exact fun id hid => Nat.lt_succ_of_lt (h id hid)
  | submitted hid => exact h.setReply (Or.inr hid)
  | turnedAway hid => exact h.setReply (Or.inr hid)
  | cancelled =>
    rw [send_eq]
    exact h
  | @dropped id awaited =>
    refine h.setReply (Or.inr (h id ?_))
    intro ha
    simp [ha, OneShot.isAwaited] at awaited
  | @received id _ _ hr =>
    refine h.setReply (Or.inr (h id ?_))
    intro ha
    simp [ha, OneShot.read] at hr
  | splitRefused => exact h
  | split => exact h
  | drop => exact h
  | dropNext _ hd =>
    rw [hd.frame]
    exact h
  | foreign => exact h
  | shutdown =>
    rw [send_eq]
    exact h
  | enqueued => exact h
  | cancelHandled => exact Admission.Numbered.send h
  | ignored => exact h
  | shutdownHandled => exact h
  | passed => exact h
  | discarded => exact h
  | granted => exact h
  | refused => exact Admission.Numbered.send h
  | delivered => exact Admission.Numbered.send (s := s.startPass) h
  | undelivered => exact h
  | returned _ hd =>
    rw [hd.frame]
    exact h
  | stopping => exact Admission.Numbered.send h
  | stopped =>
    intro id hid
    refine h id fun ha => hid ?_
    show (if id ∈ s.unhandled then (s.replies id).hangUp else s.replies id) = _
    rw [ha]
    exact ite_self _

theorem send_commands {command other : CoordinatorCommand}
    (h : other ∈ (s.send command).commands) : other ∈ s.commands ∨ other = command := by
  unfold Admission.send at h
  split at h
  next => exact Or.inl h
  next => simpa using h

theorem Destroyed.commands {lease : AdmittedLease} {rest : Option AdmittedLease}
    (h : Destroyed s lease e rest t) {command : CoordinatorCommand} (hm : command ∈ t.commands) :
    command ∈ s.commands ∨ command = .leaseReturned := by
  cases h with
  | slot => exact Or.inl hm
  | cpu => exact Or.inl hm
  | wake => exact send_commands hm

/-- What is in the channel was there, or it is new and says what its sender did. -/
theorem AdmissionStep.commands (step : AdmissionStep pool s e t) {command : CoordinatorCommand}
    (h : command ∈ t.commands) :
    command ∈ s.commands ∨ (∃ queued, command = .enqueue queued ∧ queued.Matched) ∨
      (∃ id, command = .cancel id ∧ t.cancelled id = true) ∨ command = .leaseReturned ∨
      command = .shutdown := by
  cases step with
  | @submitted queued _ _ _ hm =>
    rcases List.mem_append.mp h with h | h
    · exact Or.inl h
    · exact Or.inr (Or.inl ⟨queued, List.mem_singleton.mp h, hm⟩)
  | @cancelled id =>
    rcases send_commands h with h | h
    · exact Or.inl h
    · refine Or.inr (Or.inr (Or.inl ⟨id, h, ?_⟩))
      rw [send_eq]
      simp
  | dropNext _ hd =>
    rcases hd.commands h with h | h
    · exact Or.inl h
    · exact Or.inr (Or.inr (Or.inr (Or.inl h)))
  | shutdown =>
    rcases send_commands h with h | h
    · exact Or.inl h
    · exact Or.inr (Or.inr (Or.inr (Or.inr h)))
  | enqueued _ hc =>
    rw [hc]
    exact Or.inl (List.mem_cons_of_mem _ h)
  | cancelHandled _ hc =>
    rw [hc]
    exact Or.inl (List.mem_cons_of_mem _ h)
  | ignored _ hc =>
    rw [hc]
    exact Or.inl (List.mem_cons_of_mem _ h)
  | shutdownHandled _ hc =>
    rw [hc]
    exact Or.inl (List.mem_cons_of_mem _ h)
  | returned _ hd =>
    rcases hd.commands h with h | h
    · exact Or.inl h
    · exact Or.inr (Or.inr (Or.inr (Or.inl h)))
  | stopped => exact absurd h List.not_mem_nil
  | _ => exact Or.inl h

theorem AdmissionStep.cancelledStep (step : AdmissionStep pool s e t) {id : Nat}
    (h : s.cancelled id = true) : t.cancelled id = true := by
  cases step with
  | @cancelled other =>
    rw [send_eq]
    by_cases ho : id = other
    · simp [ho]
    · simpa [ho] using h
  | dropNext _ hd =>
    rw [hd.frame]
    exact h
  | shutdown =>
    rw [send_eq]
    exact h
  | returned _ hd =>
    rw [hd.frame]
    exact h
  | _ => exact h

theorem AdmissionStep.cancelsSent (step : AdmissionStep pool s e t) (h : s.CancelsSent) :
    t.CancelsSent := by
  intro id hm
  rcases step.commands hm with hm | ⟨_, hc, _⟩ | ⟨other, hc, ht⟩ | hc | hc
  · exact step.cancelledStep (h id hm)
  · cases hc
  · cases hc
    exact ht
  · cases hc
  · cases hc

theorem mem_of_queues_set {queues : AdmissionQueues} {p q : CpuPriority}
    (before : List QueuedAdmission) {after : List QueuedAdmission} {queued other : QueuedAdmission}
    (hl : queues.of p = before ++ queued :: after)
    (h : other ∈ (queues.set (before ++ after) p).of q) : other ∈ queues.of q := by
  rw [AdmissionQueues.of_set] at h
  split at h
  next hq =>
    subst hq
    rw [hl]
    rcases List.mem_append.mp h with h | h
    · exact List.mem_append_left _ h
    · exact List.mem_append_right _ (List.mem_cons_of_mem _ h)
  next => exact h

/-- What is in a queue was in it or in the channel. -/
theorem AdmissionStep.queued (step : AdmissionStep pool s e t) {p : CpuPriority}
    {queued : QueuedAdmission} (h : queued ∈ t.queues.of p) : s.Waits queued := by
  cases step with
  | @cancelled id =>
    rw [send_eq] at h
    exact Or.inr ⟨p, h⟩
  | dropNext _ hd =>
    rw [hd.frame] at h
    exact Or.inr ⟨p, h⟩
  | shutdown =>
    rw [send_eq] at h
    exact Or.inr ⟨p, h⟩
  | @enqueued other rest _ hc =>
    by_cases hp : p = other.request.cpu.priority
    · subst hp
      simp only [AdmissionQueues.enqueue, AdmissionQueues.of_set, ↓reduceIte] at h
      rcases List.mem_append.mp h with h | h
      · exact Or.inr ⟨_, h⟩
      · cases List.mem_singleton.mp h
        exact Or.inl (hc ▸ List.mem_cons_self)
    · simp only [AdmissionQueues.enqueue, AdmissionQueues.of_set, hp, ↓reduceIte] at h
      exact Or.inr ⟨p, h⟩
  | cancelHandled _ _ hl => exact Or.inr ⟨p, mem_of_queues_set _ hl h⟩
  | discarded _ hl => exact Or.inr ⟨p, mem_of_queues_set _ hl h⟩
  | granted _ hl => exact Or.inr ⟨p, mem_of_queues_set [] hl h⟩
  | refused _ hl => exact Or.inr ⟨p, mem_of_queues_set [] hl h⟩
  | returned _ hd =>
    rw [hd.frame] at h
    exact Or.inr ⟨p, h⟩
  | stopping _ hl => exact Or.inr ⟨p, mem_of_queues_set [] hl h⟩
  | _ => exact Or.inr ⟨p, h⟩

theorem AdmissionStep.matched (step : AdmissionStep pool s e t)
    (h : ∀ queued, s.Waits queued → queued.Matched) :
    ∀ queued, t.Waits queued → queued.Matched := by
  rintro queued (hm | ⟨p, hm⟩)
  · rcases step.commands hm with hm | ⟨_, hc, hq⟩ | ⟨_, hc, _⟩ | hc | hc
    · exact h queued (Or.inl hm)
    · cases hc
      exact hq
    · cases hc
    · cases hc
    · cases hc
  · exact h queued (step.queued hm)

theorem AdmissionStep.calm (step : AdmissionStep pool s e t) (h : s.phase ≠ .panicked) :
    t.phase ≠ .panicked := by
  cases step with
  | cancelled =>
    rw [send_phase]
    exact h
  | dropNext _ hd =>
    rw [hd.frame]
    exact h
  | shutdown =>
    rw [send_phase]
    exact h
  | enqueued => simp
  | cancelHandled => simp [Admission.sendError, Admission.setReply]
  | ignored => simp
  | shutdownHandled => simp
  | @passed phase _ hs =>
    intro hp
    simp [show phase = .panicked from hp, CoordinatorPhase.isServing] at hs
  | granted => simp
  | refused => simp [Admission.sendError, Admission.setReply, Admission.startPass]
  | delivered => simp [Admission.setReply, Admission.startPass]
  | undelivered => simp
  | @returned _ _ rest => cases rest <;> simp
  | stopped => simp [Admission.stop]
  | _ => exact h

section Broker

variable {limit : WorkerLimit} {limits : Nat → AuxiliarySlotLimit} {b b' : Broker}

theorem broker_act {bs : List BrokerEvent} {a : BrokerAction} {e : BrokerEvent}
    (h : (brokerMachine limit limits).Run bs b) (ha : b.act a = some (.ok (e, b'))) :
    (brokerMachine limit limits).Run (bs ++ [e]) b' := by
  refine Machine.Run.next (a := a) h ?_
  simp [brokerMachine, ha, Except.toOption]

/-- An action that a reachable broker does not refuse goes through. -/
theorem broker_safe {bs : List BrokerEvent} {a : BrokerAction} {r : BrokerResult}
    (h : (brokerMachine limit limits).Run bs b) (ha : b.act a = some r) :
    ∃ e b', r = .ok (e, b') := by
  cases r with
  | ok r => exact ⟨r.1, r.2, rfl⟩
  | error p =>
    exfalso
    have hc := permitsConserved_run h
    rcases act_panic ha with ⟨lease, hm, above, _⟩ | ⟨slot, hm, bad, _⟩
    · have hw := le_totalWidth hm
      have total := hc.conserved
      have installed := congrArg WorkerLimit.get hc.installed
      omega
    · obtain ⟨notFree, room⟩ := (slotsTile_run h).live_not_free (List.mem_append_left _ hm)
      rcases bad with twice | above
      · exact notFree twice
      · omega

end Broker

variable {limit : WorkerLimit} {limits : Nat → AuxiliarySlotLimit} {es : List AdmissionEvent}

/-- What holds in every state that the coordinator and its clients reach. -/
structure Admission.Sound (limit : WorkerLimit) (limits : Nat → AuxiliarySlotLimit)
    (es : List AdmissionEvent) (s : Admission) : Prop where
  desk : Trace (DeskStep .coordinatorStopped) Desk.opened (es.filterMap AdmissionEvent.desk) s.desk
  leases : (outstandingLeases es).Perm s.heldLeases
  slots : (outstandingSlots es).Perm s.heldSlots
  leasesLive : s.heldLeases.Subperm s.broker.leases
  slotsLive : s.heldSlots.Subperm s.broker.slots
  broker : ∃ bs, (brokerMachine limit limits).Run bs s.broker
  numbered : s.Numbered
  cancels : s.CancelsSent
  matched : ∀ queued, s.Waits queued → queued.Matched
  calm : s.phase ≠ .panicked

theorem Destroyed.brokerRun {lease : AdmittedLease} {rest : Option AdmittedLease}
    (hd : Destroyed s lease e rest t) {bs : List BrokerEvent}
    (h : (brokerMachine limit limits).Run bs s.broker) :
    ∃ bs, (brokerMachine limit limits).Run bs t.broker := by
  cases hd with
  | slot _ ha => exact ⟨_, broker_act h ha⟩
  | cpu _ _ ha => exact ⟨_, broker_act h ha⟩
  | wake =>
    rw [send_broker]
    exact ⟨bs, h⟩

/-- The broker of the coordinator and of everybody else goes through a run of its own. -/
theorem AdmissionStep.brokerRun (step : AdmissionStep pool s e t) {bs : List BrokerEvent}
    (h : (brokerMachine limit limits).Run bs s.broker) :
    ∃ bs, (brokerMachine limit limits).Run bs t.broker := by
  cases step with
  | cancelled =>
    rw [send_broker]
    exact ⟨bs, h⟩
  | split _ _ _ ha => exact ⟨_, broker_act h ha⟩
  | dropNext _ hd => exact hd.brokerRun h
  | foreign _ ha => exact ⟨_, broker_act h ha⟩
  | shutdown =>
    rw [send_broker]
    exact ⟨bs, h⟩
  | @granted _ _ _ grant _ b _ _ _ _ ha reserved =>
    have hm : grant ∈ b.grants := by simp [reserved.grants]
    exact ⟨_, broker_act (a := .intoParts grant) (broker_act h ha) (by rw [Broker.act, if_pos hm])⟩
  | returned _ hd => exact hd.brokerRun h
  | _ => exact ⟨bs, h⟩

theorem onBroker_of_act (hs : s.Sound limit limits es) {a : BrokerAction} {r : BrokerResult}
    (ha : s.broker.act a = some r) :
    ∃ be b, s.onBroker a = some (be, { s with broker := b }) ∧ r = .ok (be, b) := by
  obtain ⟨bs, hb⟩ := hs.broker
  obtain ⟨be, b, rfl⟩ := broker_safe hb ha
  exact ⟨be, b, by simp [Admission.onBroker, ha, Except.toOption], rfl⟩

theorem destroy_some (hs : s.Sound limit limits es) {lease : AdmittedLease}
    (hm : lease ∈ s.holders) : ∃ r, s.destroy lease = some r := by
  unfold Admission.destroy
  split
  next slot hslot =>
    have hlive : slot ∈ s.broker.slots :=
      hs.slotsLive.subset (List.mem_flatMap.mpr ⟨lease, hm, by simp [hslot]⟩)
    obtain ⟨be, b, hb, _⟩ := onBroker_of_act hs (a := .dropSlot slot) (if_pos hlive)
    exact ⟨_, by rw [hb]; rfl⟩
  next cpuLease _ hcpu =>
    have hlive : cpuLease ∈ s.broker.leases :=
      hs.leasesLive.subset (List.mem_flatMap.mpr ⟨lease, hm, by simp [hcpu]⟩)
    obtain ⟨be, b, hb, _⟩ := onBroker_of_act hs (a := .dropLease cpuLease) (if_pos hlive)
    exact ⟨_, by rw [hb]; rfl⟩
  next => exact ⟨_, rfl⟩

theorem admittedLease_isSome {b b' : Broker} {queued : QueuedAdmission}
    {grant : CompositeAdmissionGrant} (hq : queued.Matched)
    (reserved : Reserved b queued.request.cpu
      (requestedPool pool queued.request.auxiliary) grant b') :
    ∃ lease, admittedLease grant queued.reply = some lease := by
  unfold QueuedAdmission.Matched at hq
  cases hr : queued.reply with
  | cpu =>
    have ha : queued.request.auxiliary = .none := by
      cases hx : queued.request.auxiliary with
      | none => rfl
      | one => simp [hx, hr] at hq
    have hslot := (reserved.noSlot (by rw [ha]; rfl)).1
    exact ⟨⟨.cpu, some grant.cpuLease, none⟩, by simp [admittedLease, hslot]⟩
  | importWork =>
    obtain ⟨_, _, _, hslot, _⟩ := reserved.slot pool (by rw [hq.mpr hr]; rfl)
    exact ⟨_, by rw [admittedLease, hslot]; rfl⟩

theorem tryAcquire_result {b b' : Broker} {request : CpuPermitRequest} {pool : Option Nat}
    {be : BrokerEvent} (h : b.act (.tryAcquire false request pool) = some (.ok (be, b'))) :
    ∃ r, tryAcquireResult be = some r := by
  have h := Option.some.inj h
  simp only [Broker.tryAcquireResources, Bool.false_eq_true, ↓reduceIte] at h
  split at h
  next => cases h; exact ⟨_, rfl⟩
  next =>
    split at h
    next => cases h; exact ⟨_, rfl⟩
    next =>
      obtain ⟨_, _, hp⟩ := Fallible.map_ok_iff.mp h
      cases hp
      exact ⟨_, rfl⟩

theorem grantNext_some (hs : s.Sound limit limits es) :
    ∃ e t, s.grantNext pool = some (e, t) ∧ t.phase ≠ .panicked := by
  unfold Admission.grantNext
  split
  next => exact ⟨_, _, rfl, by simp⟩
  next request hn =>
    rw [AdmissionQueues.nextRequest_eq] at hn
    obtain ⟨⟨queued, queues⟩, hp, rfl⟩ := Option.map_eq_some_iff.mp hn
    obtain ⟨p, rest, hl, rfl, _⟩ := AdmissionQueues.popNext_some hp
    have hq := hs.matched queued (Or.inr ⟨p, hl ▸ List.mem_cons_self⟩)
    obtain ⟨be, b, hb, hok⟩ := onBroker_of_act hs (a := .tryAcquire false queued.request.cpu
      (requestedPool pool queued.request.auxiliary)) rfl
    have ha : s.broker.act (.tryAcquire false queued.request.cpu
        (requestedPool pool queued.request.auxiliary)) = some (.ok (be, b)) := by
      rw [← hok]
      rfl
    obtain ⟨r, hr⟩ := tryAcquire_result ha
    simp only [hb, hp, hr]
    match r, hr with
    | .ok (some grant), hr =>
      have reserved := tryAcquire_granted ha hr
      obtain ⟨lease, hlease⟩ := admittedLease_isSome hq reserved
      have hm : grant ∈ b.grants := by simp [reserved.grants]
      simp [hlease, Admission.onBroker, Broker.act, hm, Except.toOption]
    | .ok none, _ => exact ⟨_, _, rfl, by simp⟩
    | .error e, _ =>
      exact ⟨_, _, rfl, by simp [Admission.sendError, Admission.setReply, Admission.startPass]⟩

theorem handleCommand_calm (command : CoordinatorCommand) :
    (s.handleCommand command).2.phase ≠ .panicked := by
  cases command with
  | cancel id =>
    simp only [Admission.handleCommand]
    split <;> simp [Admission.sendError, Admission.setReply]
  | _ => simp [Admission.handleCommand]

/-- The coordinator only ever stops to wait for a command, or for good. -/
theorem coordinate_some (pool : Nat) (hs : s.Sound limit limits es) :
    (s.phase = .receiving ∧ s.commands = [] ∧ s.queues.isEmpty = true) ∨ s.phase = .stopped ∨
      ∃ e t, s.coordinate pool = some (e, t) ∧ t.phase ≠ .panicked := by
  have calm := hs.calm
  unfold Admission.coordinate
  split
  next hp =>
    split
    next hc =>
      split
      next he => exact Or.inl ⟨hp, hc, he⟩
      next => exact Or.inr (Or.inr ⟨_, _, rfl, by simp [Admission.startPass]⟩)
    next => exact Or.inr (Or.inr ⟨_, _, rfl, handleCommand_calm _⟩)
  next hp =>
    split
    next => exact Or.inr (Or.inr ⟨_, _, rfl, by simp [Admission.startPass]⟩)
    next => exact Or.inr (Or.inr ⟨_, _, rfl, handleCommand_calm _⟩)
  next p position hp =>
    have serving : s.phase.isServing = true := by rw [hp]; rfl
    exact Or.inr (Or.inr ⟨_, _, rfl,
      (discardClosed_step pool p position serving).calm calm⟩)
  next => exact Or.inr (Or.inr (grantNext_some hs))
  next =>
    refine Or.inr (Or.inr ⟨_, _, rfl, ?_⟩)
    unfold Admission.deliver
    split <;> simp [Admission.startPass, Admission.setReply]
  next lease hp =>
    have hm : lease ∈ s.holders := by simp [Admission.holders, hp, CoordinatorPhase.admitted]
    obtain ⟨⟨e, rest, t⟩, hd⟩ := destroy_some hs hm
    rw [hd]
    cases rest with
    | some rest => exact Or.inr (Or.inr ⟨_, _, rfl, by simp⟩)
    | none => exact Or.inr (Or.inr ⟨_, _, rfl, by simp [Admission.startPass]⟩)
  next hp =>
    split
    next =>
      exact Or.inr (Or.inr ⟨_, _, rfl, by simp [Admission.sendError, Admission.setReply, hp]⟩)
    next => exact Or.inr (Or.inr ⟨_, _, rfl, by simp [Admission.stop]⟩)
  next hp => exact Or.inr (Or.inl hp)
  next hp => exact absurd hp calm

theorem sound_start : (Admission.start limit limits).Sound limit limits [] where
  desk := by
    have hd : (Admission.start limit limits).desk = Desk.opened := by
      ext1
      case lines =>
        funext p
        cases p <;> rfl
      all_goals rfl
    rw [hd]
    exact Trace.start
  leases := .refl _
  slots := .refl _
  leasesLive := List.nil_subperm
  slotsLive := List.nil_subperm
  broker := ⟨[], Machine.Run.start⟩
  numbered := fun _ h => absurd rfl h
  cancels := fun _ h => absurd h List.not_mem_nil
  matched := by
    rintro queued (h | ⟨p, h⟩)
    · exact absurd h List.not_mem_nil
    · cases p <;> exact absurd h List.not_mem_nil
  calm := by simp [Admission.start]

theorem outstandingLeases_append (es : List AdmissionEvent) (e : AdmissionEvent) :
    outstandingLeases (es ++ [e]) = e.ledgerLeases (outstandingLeases es) := by
  simp [outstandingLeases]

theorem outstandingSlots_append (es : List AdmissionEvent) (e : AdmissionEvent) :
    outstandingSlots (es ++ [e]) = e.ledgerSlots (outstandingSlots es) := by
  simp [outstandingSlots]

theorem Admission.Sound.kept (hs : s.Sound limit limits es) :
    s.desk.Kept .coordinatorStopped (es.filterMap AdmissionEvent.desk) :=
  Desk.kept_of_trace hs.desk

/-- A step that goes through is one of the listed ones. -/
theorem Admission.Sound.admissionStep (hs : s.Sound limit limits es) {a : AdmissionAction}
    (h : s.act pool a = some (e, t)) : AdmissionStep pool s e t := by
  refine admission_act_step h ?_
  rintro rfl
  rcases coordinate_some pool hs with ⟨hp, hc, he⟩ | hp | ⟨e', t', hc, calm⟩
  · simp [Admission.act, Admission.coordinate, hp, hc, he] at h
  · simp [Admission.act, Admission.coordinate, hp] at h
  · cases hc.symm.trans h
    exact calm

theorem Admission.Sound.next (hs : s.Sound limit limits es) {a : AdmissionAction}
    (h : s.act pool a = some (e, t)) : t.Sound limit limits (es ++ [e]) := by
  have step := hs.admissionStep h
  have books := step.accounts hs.kept.seated hs.numbered
  refine ⟨?_, ?_, ?_, ?_, ?_, ?_, ?_, ?_, ?_, ?_⟩
  · have hd := filterMap_append_toList AdmissionEvent.desk es (some e)
    simp only [Option.toList_some, Option.bind_some] at hd
    rw [hd]
    exact Trace.next hs.desk (step.desk hs.calm hs.cancels)
  · rw [outstandingLeases_append]
    exact (AdmissionEvent.ledgerLeases_perm hs.leases).trans books.leases.symm
  · rw [outstandingSlots_append]
    exact (AdmissionEvent.ledgerSlots_perm hs.slots).trans books.slots.symm
  · exact books.leasesLive hs.leasesLive
  · exact books.slotsLive hs.slotsLive
  · obtain ⟨bs, hb⟩ := hs.broker
    exact step.brokerRun hb
  · exact step.numbered hs.numbered
  · exact step.cancelsSent hs.cancels
  · exact step.matched hs.matched
  · exact step.calm hs.calm

theorem sound_of_run (h : (admissionMachine limit limits pool).Run es s) :
    s.Sound limit limits es :=
  h.invariant (I := fun es s => s.Sound limit limits es) sound_start
    fun _ _ _ _ _ _ hs hn => hs.next hn

theorem popNext_length {queues queues' : AdmissionQueues} {queued : QueuedAdmission}
    (h : queues.popNext = some (queued, queues')) :
    queues.children.length + queues.localWork.length =
      queues'.children.length + queues'.localWork.length + 1 := by
  rcases queues with ⟨_ | ⟨c, cs⟩, _ | ⟨l, ls⟩⟩ <;> simp [AdmissionQueues.popNext] at h
  · obtain ⟨_, rfl⟩ := h
    simp
  · obtain ⟨_, rfl⟩ := h
    simp
  · obtain ⟨_, rfl⟩ := h
    simp
    omega

/-- `stop_all` and the end of the thread need nobody else. -/
theorem stopping_ends (limit : WorkerLimit) (limits : Nat → AuxiliarySlotLimit) (pool n : Nat)
    {s : Admission} (es : List AdmissionEvent)
    (hn : s.queues.children.length + s.queues.localWork.length = n) (hp : s.phase = .stopping) :
    ∃ fs t, (admissionMachine limit limits pool).exec es s
      (List.replicate (n + 1) .coordinate) = some (fs, t) ∧ t.phase = .stopped := by
  induction n generalizing s es with
  | zero =>
    have hq : s.queues.popNext = none := by
      rcases s with ⟨_, _, _, ⟨_ | _, _ | _⟩⟩ <;> simp_all [AdmissionQueues.popNext]
    refine ⟨es ++ [.quiet], s.stop, ?_, rfl⟩
    simp [Machine.exec, admissionMachine, Admission.act, Admission.coordinate, hp, hq]
  | succ n ih =>
    cases hq : s.queues.popNext with
    | none =>
      rw [AdmissionQueues.popNext_none hq] at hn
      simp at hn
    | some r =>
      have hlen : r.2.children.length + r.2.localWork.length = n := by
        have := popNext_length hq
        omega
      obtain ⟨fs, t, he, ht⟩ := ih
        (s := { s with queues := r.2 }.sendError r.1.id .coordinatorStopped) (es ++ [.quiet])
        hlen hp
      refine ⟨fs, t, ?_, ht⟩
      rw [List.replicate_succ, Machine.exec]
      simpa [admissionMachine, Admission.act, Admission.coordinate, hp, hq] using he

def AdmittedLease.left (lease : AdmittedLease) : Nat :=
  lease.auxiliarySlot.toList.length + lease.cpuLease.toList.length

theorem Destroyed.left {lease : AdmittedLease} {rest : Option AdmittedLease}
    (h : Destroyed s lease e rest t) :
    match rest with
    | some rest => lease.left = rest.left + 1
    | none => lease.left = 0 := by
  cases h with
  | slot hslot =>
    simp only [AdmittedLease.left, hslot, Option.toList_some, Option.toList_none,
      List.length_singleton, List.length_nil]
    omega
  | cpu hslot hcpu => simp [AdmittedLease.left, hslot, hcpu]
  | wake hslot hcpu => simp [AdmittedLease.left, hslot, hcpu]

/-- The coordinator returns what nobody took, and needs nobody else for it. -/
theorem returning_ends (limit : WorkerLimit) (limits : Nat → AuxiliarySlotLimit) (pool n : Nat)
    {s : Admission} {es : List AdmissionEvent} {lease : AdmittedLease}
    (hs : s.Sound limit limits es) (hn : lease.left = n) (hp : s.phase = .returning lease) :
    ∃ fs t, (admissionMachine limit limits pool).exec es s
      (List.replicate (n + 1) .coordinate) = some (fs, t) ∧
        t.holders = s.admitted ++ s.dropping ++ s.unread := by
  have hm : ∀ {s : Admission} {lease : AdmittedLease}, s.phase = .returning lease →
      lease ∈ s.holders := by
    intro s lease hp
    simp [Admission.holders, hp, CoordinatorPhase.admitted]
  induction n generalizing s es lease with
  | zero =>
    obtain ⟨⟨e, rest, t⟩, hd⟩ := destroy_some hs (hm hp)
    have hleft := (destroy_destroyed hd).left
    have frame := (destroy_destroyed hd).frame
    cases rest with
    | some rest =>
      have hleft : lease.left = rest.left + 1 := hleft
      omega
    | none =>
      refine ⟨es ++ [e], t.startPass, ?_, ?_⟩
      · simp [Machine.exec, admissionMachine, Admission.act, Admission.coordinate, hp, hd]
      · rw [frame]
        rfl
  | succ n ih =>
    obtain ⟨⟨e, rest, t⟩, hd⟩ := destroy_some hs (hm hp)
    have hleft := (destroy_destroyed hd).left
    have frame := (destroy_destroyed hd).frame
    cases rest with
    | none =>
      have hleft : lease.left = 0 := hleft
      omega
    | some rest =>
      have hleft : lease.left = rest.left + 1 := hleft
      have hact : s.act pool .coordinate = some (e, { t with phase := .returning rest }) := by
        simp [Admission.act, Admission.coordinate, hp, hd]
      obtain ⟨fs, u, he, hu⟩ := @ih _ _ rest (hs.next hact) (by omega) rfl
      refine ⟨fs, u, ?_, ?_⟩
      · rw [List.replicate_succ, Machine.exec]
        simpa [admissionMachine, hact] using he
      · rw [hu, frame]
        rfl

end Neoethos
