import Neoethos.AdmissionRuns

namespace Neoethos

namespace AdmissionEvent

def grantedId : AdmissionEvent → Option Nat
  | .granted id _ => some id
  | _ => none

def receivedId : AdmissionEvent → Option Nat
  | .received id _ => some id
  | _ => none

/-- The request whose command arrives in the channel, when it has the priority. -/
def arrivedId (p : CpuPriority) : AdmissionEvent → Option Nat
  | .submitted id request => if request.cpu.priority = p then some id else none
  | _ => none

end AdmissionEvent

def admissionGrants (es : List AdmissionEvent) : List Nat :=
  es.filterMap AdmissionEvent.grantedId

/-- The requests with an outcome: what `submit` or `wait` returned. -/
def admissionOutcomes (es : List AdmissionEvent) : List Nat :=
  es.filterMap AdmissionEvent.receivedId

/-- The requests of one priority, in the order in which their commands arrived. -/
def admissionArrivals (p : CpuPriority) (es : List AdmissionEvent) : List Nat :=
  es.filterMap (AdmissionEvent.arrivedId p)

/-- The handle of a request is not alive: its destructor runs, or its receiver is dropped. -/
def Admission.HandleGone (s : Admission) (id : Nat) : Prop :=
  s.cancelled id = true ∨ s.replies id = .closed

section Desk

variable {es : List AdmissionEvent}

theorem desk_grants :
    (es.filterMap AdmissionEvent.desk).filterMap DeskEvent.grant = admissionGrants es := by
  rw [List.filterMap_filterMap]
  refine List.filterMap_congr fun e _ => ?_
  cases e <;> rfl

theorem desk_receipts :
    (es.filterMap AdmissionEvent.desk).filterMap DeskEvent.receipt = admissionOutcomes es := by
  rw [List.filterMap_filterMap]
  refine List.filterMap_congr fun e _ => ?_
  cases e <;> rfl

theorem desk_arrivals (p : CpuPriority) :
    (es.filterMap AdmissionEvent.desk).filterMap (DeskEvent.arrival p) =
      admissionArrivals p es := by
  rw [List.filterMap_filterMap]
  refine List.filterMap_congr fun e _ => ?_
  cases e <;> rfl

theorem desk_received {id : Nat} {r : AdmissionResult} :
    DeskEvent.received id r ∈ es.filterMap AdmissionEvent.desk ↔
      AdmissionEvent.received id r ∈ es := by
  rw [List.mem_filterMap]
  constructor
  · rintro ⟨e, he, hd⟩
    cases e <;> cases hd
    exact he
  · exact fun h => ⟨_, h, rfl⟩

theorem desk_granted {id : Nat} (h : DeskEvent.granted id ∈ es.filterMap AdmissionEvent.desk) :
    id ∈ admissionGrants es := by
  rw [← desk_grants]
  exact List.mem_filterMap.mpr ⟨_, h, rfl⟩

theorem desk_refused {id : Nat} {e : AdmissionError}
    (h : DeskEvent.refused id e ∈ es.filterMap AdmissionEvent.desk) :
    ∃ e, AdmissionEvent.refused id e ∈ es := by
  obtain ⟨ev, he, hd⟩ := List.mem_filterMap.mp h
  cases ev <;> cases hd
  exact ⟨_, he⟩

theorem desk_settled {id : Nat}
    (h : id ∈ (es.filterMap AdmissionEvent.desk).filterMap DeskEvent.settlement) :
    id ∈ admissionGrants es ∨ ∃ e, AdmissionEvent.refused id e ∈ es := by
  obtain ⟨ev, he, hd⟩ := List.mem_filterMap.mp h
  cases ev <;> cases hd
  · exact Or.inl (desk_granted he)
  · exact Or.inr (desk_refused he)

theorem desk_closing :
    DeskEvent.closing ∈ es.filterMap AdmissionEvent.desk ↔
      AdmissionEvent.shutdownHandled ∈ es := by
  rw [List.mem_filterMap]
  constructor
  · rintro ⟨e, he, hd⟩
    cases e <;> cases hd
    exact he
  · exact fun h => ⟨_, h, rfl⟩

end Desk

/-- What the coordinator owes its clients and the broker, in one state of a run. -/
structure AdmissionSafe (limit : WorkerLimit) (limits : Nat → AuxiliarySlotLimit) (pool : Nat)
    (es : List AdmissionEvent) (s : Admission) : Prop where
  grantedOnce : (admissionGrants es).Nodup
  outcomeOnce : (admissionOutcomes es).Nodup
  leaseGranted : ∀ id lease, AdmissionEvent.received id (.ok lease) ∈ es →
    id ∈ admissionGrants es
  /-- What was granted and did not come back is held, with the coordinator itself only between a
  grant and its reply or its return, and the broker has it out. -/
  leases : (outstandingLeases es).Perm s.heldLeases
  slots : (outstandingSlots es).Perm s.heldSlots
  leasesLive : s.heldLeases.Subperm s.broker.leases
  slotsLive : s.heldSlots.Subperm s.broker.slots
  /-- Whoever is granted something next came in a line of one priority. Everybody who came before
  in this line was granted or refused something or is gone, and no child is queued when the line is
  the local one. -/
  inOrder : ∀ a id lease t, s.act pool a = some (.granted id lease, t) →
    ∃ p, id ∈ admissionArrivals p es ∧ (∀ q, id ∈ admissionArrivals q es → q = p) ∧
      (∀ other, [other, id].Sublist (admissionArrivals p es) →
        other ∈ admissionGrants es ∨ (∃ e, AdmissionEvent.refused other e ∈ es) ∨
          s.HandleGone other) ∧
      (p = .localWork → s.queues.children = []) ∧ AdmissionEvent.shutdownHandled ∉ es
  /-- A lease that came back to the coordinator is returned by its next steps. -/
  returned : ∀ lease, s.phase = .returning lease → ∃ n fs t,
    (admissionMachine limit limits pool).exec es s (List.replicate n .coordinate) = some (fs, t) ∧
      t.holders = s.admitted ++ s.dropping ++ s.unread
  goesOn : (s.phase = .receiving ∧ s.commands = [] ∧ s.queues.isEmpty = true) ∨
    s.phase = .stopped ∨ ∃ e t, s.act pool .coordinate = some (e, t)
  handled : AdmissionEvent.shutdownHandled ∈ es → s.phase = .stopping ∨ s.phase = .stopped
  ends : s.phase = .stopping → ∃ n fs t, (admissionMachine limit limits pool).exec es s
    (List.replicate n .coordinate) = some (fs, t) ∧ t.phase = .stopped
  /-- When the coordinator has stopped, whoever sent a request and got neither a grant nor a refusal
  of the broker, and is still there, has the error of a stopped coordinator or finds it in the reply
  channel. -/
  stopped : s.phase = .stopped → ∀ id, s.replies id ≠ .absent →
    id ∈ admissionGrants es ∨ (∃ e, AdmissionEvent.refused id e ∈ es) ∨ s.HandleGone id ∨
      (s.replies id).read (.error .coordinatorStopped) = some (.error .coordinatorStopped) ∨
      AdmissionEvent.received id (.error .coordinatorStopped) ∈ es

variable {limit : WorkerLimit} {limits : Nat → AuxiliarySlotLimit} {pool : Nat}
variable {s t : Admission} {es : List AdmissionEvent}

theorem deskStatus_not_serving (h : s.desk.status ≠ .serving) :
    s.phase = .stopping ∨ s.phase = .stopped := by
  cases hp : s.phase <;> simp_all [Admission.desk, CoordinatorPhase.deskStatus]

/-- The queue a granted request is taken from, and what the lines say about it. -/
theorem Admission.Sound.granted (hs : s.Sound limit limits es) {a : AdmissionAction} {id : Nat}
    {lease : AdmittedLease} (h : s.act pool a = some (.granted id lease, t)) :
    ∃ p, id ∈ admissionArrivals p es ∧ (∀ q, id ∈ admissionArrivals q es → q = p) ∧
      (∀ other, [other, id].Sublist (admissionArrivals p es) →
        other ∈ admissionGrants es ∨ (∃ e, AdmissionEvent.refused other e ∈ es) ∨
          s.HandleGone other) ∧
      (p = .localWork → s.queues.children = []) ∧ AdmissionEvent.shutdownHandled ∉ es := by
  have kept := hs.kept
  have step := hs.admissionStep h
  have desk := step.desk hs.calm hs.cancels
  cases step with
  | @granted queued p rest _ _ _ _ _ hl first =>
    have hm : queued.id ∈ s.desk.lines p := by
      rw [desk_lines_split [] hl]
      exact List.mem_cons_self
    have harr := (kept.lined.inOrder p).mem hm
    refine ⟨p, desk_arrivals p ▸ harr, ?_, ?_, first, ?_⟩
    · intro q hq
      exact kept.lined.apart queued.id q p (desk_arrivals q ▸ hq) harr
    · intro other hbefore
      rcases kept.granted_in_order desk (desk_arrivals p ▸ hbefore) with hset | gone
      · rcases desk_settled hset with hg | hr
        · exact Or.inl hg
        · exact Or.inr (Or.inl hr)
      · exact Or.inr (Or.inr gone)
    · intro hshut
      exact kept.closed.closing.mp (desk_closing.mpr hshut) (desk.grants rfl).1
  | dropNext _ hd => cases hd
  | returned _ hd => cases hd

/-- In every run of the coordinator, with any number of clients and whoever else uses the broker,
every state it reaches is safe. -/
theorem admission_protocol_safe (h : (admissionMachine limit limits pool).Run es s) :
    AdmissionSafe limit limits pool es s where
  grantedOnce := desk_grants ▸ (sound_of_run h).kept.granted_once
  outcomeOnce := desk_receipts ▸ (sound_of_run h).kept.answered.once
  leaseGranted id lease hr :=
    desk_granted ((sound_of_run h).kept.answered.given id lease (Or.inr (desk_received.mpr hr)))
  leases := (sound_of_run h).leases
  slots := (sound_of_run h).slots
  leasesLive := (sound_of_run h).leasesLive
  slotsLive := (sound_of_run h).slotsLive
  inOrder _ _ _ _ hg := (sound_of_run h).granted hg
  returned lease hp := by
    obtain ⟨fs, t, he, ht⟩ := returning_ends limit limits pool _ (sound_of_run h) rfl hp
    exact ⟨_, fs, t, he, ht⟩
  goesOn := by
    rcases coordinate_some pool (sound_of_run h) with hw | hp | ⟨e, t, hc, _⟩
    · exact Or.inl hw
    · exact Or.inr (Or.inl hp)
    · exact Or.inr (Or.inr ⟨e, t, hc⟩)
  handled hshut :=
    deskStatus_not_serving ((sound_of_run h).kept.closed.closing.mp (desk_closing.mpr hshut))
  ends hp := by
    obtain ⟨fs, t, he, ht⟩ := stopping_ends limit limits pool _ es rfl hp
    exact ⟨_, fs, t, he, ht⟩
  stopped hp id present := by
    have shut : s.desk.status = .shut := by
      simp [Admission.desk, hp, CoordinatorPhase.deskStatus]
    rcases (sound_of_run h).kept.shut_answers shut present with hg | ⟨_, hr⟩ | gone | hr | hr
    · exact Or.inl (desk_granted hg)
    · exact Or.inr (Or.inl (desk_refused hr))
    · exact Or.inr (Or.inr (Or.inl gone))
    · exact Or.inr (Or.inr (Or.inr (Or.inl hr)))
    · exact Or.inr (Or.inr (Or.inr (Or.inr (desk_received.mp hr))))

/-- A local request for all permits comes first and a child with a slot second. The child is granted
first, its handle goes before the reply does, and what it was granted is returned; the local request
gets its lease and a third one the error of the coordinator that has been shut down. -/
def overtakenRun : List AdmissionAction :=
  [.allocateRequestId, .submit 0 ⟨threeWorkers, .localWork⟩,
    .allocateRequestId, .submitImport 1 ⟨oneWorker, .child⟩] ++
  List.replicate 8 .coordinate ++ [.cancel 1, .dropReceiver 1] ++ List.replicate 9 .coordinate ++
  [.wait 0, .allocateRequestId, .shutdown, .submit 2 ⟨oneWorker, .child⟩] ++
  List.replicate 7 .coordinate ++ [.wait 2]

theorem admission_protocol_safe_overtaken :
    ∃ es s, (admissionMachine threeWorkers (fun _ => oneSlot) 0).Run es s ∧
      admissionGrants es = [1, 0] ∧ admissionOutcomes es = [0, 2] ∧
        s.heldLeases = [⟨3⟩] ∧ s.heldSlots = [] ∧
      AdmissionSafe threeWorkers (fun _ => oneSlot) 0 es s := by
  obtain ⟨es, s, hr, hp⟩ := Machine.run_of_exec_start
    (M := admissionMachine threeWorkers (fun _ => oneSlot) 0) overtakenRun
    (fun es s => admissionGrants es == [1, 0] && admissionOutcomes es == [0, 2] &&
      s.heldLeases == [⟨3⟩] && s.heldSlots == [])
    (by decide)
  simp only [Bool.and_eq_true, beq_iff_eq] at hp
  exact ⟨es, s, hr, hp.1.1.1, hp.1.1.2, hp.1.2, hp.2, admission_protocol_safe hr⟩

end Neoethos
