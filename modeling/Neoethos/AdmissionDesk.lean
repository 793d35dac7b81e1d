import Neoethos.AdmissionSteps
import Neoethos.DeskHistory

namespace Neoethos

/-- The request that a command puts into the queue of a priority. -/
def CoordinatorCommand.enqueuedAt (p : CpuPriority) : CoordinatorCommand → Option Nat
  | .enqueue queued => if queued.request.cpu.priority = p then some queued.id else none
  | _ => none

namespace CoordinatorPhase

def hand : CoordinatorPhase → Option Nat
  | .replying queued _ => some queued.id
  | _ => none

def deskStatus : CoordinatorPhase → DeskStatus
  | .stopping => .closing
  | .stopped => .shut
  | _ => .serving

theorem hand_serving {phase : CoordinatorPhase} (h : phase.isServing = true) :
    phase.hand = none ∧ phase.deskStatus = .serving ∧ phase.admitted = [] := by
  cases phase <;> simp_all [isServing, hand, deskStatus, admitted]

end CoordinatorPhase

/-- The line of a priority is its queue with the commands under way to it behind. -/
def Admission.desk (s : Admission) : Desk Nat CpuPriority AdmissionError AdmittedLease where
  lines p := (s.queues.of p).map QueuedAdmission.id ++
    s.commands.filterMap (CoordinatorCommand.enqueuedAt p)
  hand := s.phase.hand
  replies := s.replies
  cancelled := s.cancelled
  status := s.phase.deskStatus

def AdmissionEvent.desk :
    AdmissionEvent → Option (DeskEvent Nat CpuPriority AdmissionError AdmittedLease)
  | .submitted id request => some (.arrived id request.cpu.priority)
  | .received id result => some (.received id result)
  | .granted id _ => some (.granted id)
  | .refused id e => some (.refused id (.acquire e))
  | .shutdownHandled => some .closing
  | _ => none

variable {pool : Nat} {s t : Admission} {e : AdmissionEvent}

theorem desk_send {command : CoordinatorCommand} (h : ∀ p, command.enqueuedAt p = none) :
    (s.send command).desk = s.desk := by
  unfold Admission.send
  split
  next => rfl
  next =>
    ext1
    case lines =>
      funext p
      simp [Admission.desk, h]
    all_goals rfl

theorem send_phase (command : CoordinatorCommand) : (s.send command).phase = s.phase := by
  unfold Admission.send
  split <;> rfl

theorem Destroyed.desk {lease : AdmittedLease} {rest : Option AdmittedLease}
    (h : Destroyed s lease e rest t) : e.desk = none ∧ t.desk = s.desk ∧ t.phase = s.phase := by
  cases h with
  | slot => exact ⟨rfl, rfl, rfl⟩
  | cpu => exact ⟨rfl, rfl, rfl⟩
  | wake => exact ⟨rfl, desk_send (fun _ => rfl), send_phase _⟩

theorem desk_lines_split {p : CpuPriority} (before : List QueuedAdmission)
    {after : List QueuedAdmission} {queued : QueuedAdmission}
    (h : s.queues.of p = before ++ queued :: after) :
    s.desk.lines p = before.map QueuedAdmission.id ++ queued.id :: (after.map QueuedAdmission.id ++
      s.commands.filterMap (CoordinatorCommand.enqueuedAt p)) := by
  simp [Admission.desk, h]

theorem desk_phase {phase : CoordinatorPhase} (hand : phase.hand = s.phase.hand)
    (status : phase.deskStatus = s.phase.deskStatus) : { s with phase := phase }.desk = s.desk := by
  ext1
  case hand => exact hand
  case status => exact status
  all_goals rfl

/-- A command that enqueues nothing leaves the lines as they are. -/
theorem desk_handled {command : CoordinatorCommand} {rest : List CoordinatorCommand}
    (h : s.commands = command :: rest) (hno : ∀ p, command.enqueuedAt p = none) :
    { s with commands := rest }.desk = s.desk := by
  ext1
  case lines =>
    funext p
    simp [Admission.desk, h, hno]
  all_goals rfl

theorem update_closed {id : Nat} {r : AdmissionResult} (h : s.replies id = .closed) :
    Function.update s.replies id ((s.replies id).send r) = s.replies := by
  have hr : (s.replies id).send r = s.replies id := by rw [h]; rfl
  rw [hr, Function.update_eq_self]

theorem sendError_closed {id : Nat} {e : AdmissionError} (h : s.replies id = .closed) :
    s.sendError id e = s := by
  unfold Admission.sendError Admission.setReply
  rw [update_closed h]

/-- A request that leaves its queue with an error leaves its line with it. -/
theorem desk_answer {p : CpuPriority} (before : List QueuedAdmission)
    {after : List QueuedAdmission} {queued : QueuedAdmission} (phase : CoordinatorPhase)
    {e : AdmissionError}
    (hand : phase.hand = s.phase.hand) (status : phase.deskStatus = s.phase.deskStatus) :
    ({ s with queues := s.queues.set (before ++ after) p, phase := phase }.sendError
        queued.id e).desk =
      s.desk.answer p (before.map QueuedAdmission.id ++ (after.map QueuedAdmission.id ++
        s.commands.filterMap (CoordinatorCommand.enqueuedAt p))) queued.id e := by
  ext1
  case lines =>
    funext q
    by_cases hq : q = p
    · subst hq
      simp [Admission.desk, Desk.answer, Admission.sendError, Admission.setReply]
    · simp [Admission.desk, Desk.answer, Admission.sendError, Admission.setReply, hq]
  case hand => exact hand
  case status => exact status
  all_goals rfl

theorem mem_unhandled (hq : s.queues = ⟨[], []⟩) {id : Nat} :
    id ∈ s.unhandled ↔ ∃ p, id ∈ s.desk.lines p := by
  have hlines : ∀ p, s.desk.lines p =
      s.commands.filterMap (CoordinatorCommand.enqueuedAt p) := by
    intro p
    cases p <;> simp [Admission.desk, AdmissionQueues.of, hq]
  simp only [hlines, Admission.unhandled, List.mem_filterMap]
  constructor
  · rintro ⟨command, hm, hid⟩
    cases command with
    | enqueue queued =>
      cases Option.some.inj hid
      exact ⟨queued.request.cpu.priority, _, hm, by simp [CoordinatorCommand.enqueuedAt]⟩
    | _ => cases hid
  · rintro ⟨p, command, hm, hid⟩
    cases command with
    | enqueue queued =>
      refine ⟨_, hm, ?_⟩
      simp only [CoordinatorCommand.enqueuedAt] at hid
      split at hid
      next => exact hid
      next => cases hid
    | _ => cases hid

theorem AdmissionStep.desk (step : AdmissionStep pool s e t) (calm : s.phase ≠ .panicked)
    (cancels : ∀ id, CoordinatorCommand.cancel id ∈ s.commands → s.cancelled id = true) :
    DeskStep .coordinatorStopped s.desk e.desk t.desk := by
  cases step with
  | exhausted => exact .idle
  | allocated => exact .idle
  | @submitted queued _ fresh there =>
    have hs : s.desk.status ≠ .shut := by
      cases hp : s.phase <;>
        simp_all [Admission.desk, CoordinatorPhase.deskStatus, CoordinatorPhase.receiverGone]
    refine (DeskStep.arrived (k := queued.request.cpu.priority) fresh hs).to ?_
    ext1
    case lines =>
      funext p
      by_cases hp : p = queued.request.cpu.priority
      · subst hp
        simp [Admission.desk, Admission.setReply, CoordinatorCommand.enqueuedAt]
      · simp [Admission.desk, Admission.setReply, CoordinatorCommand.enqueuedAt, hp, Ne.symm hp]
    all_goals rfl
  | turnedAway _ fresh gone =>
    have hs : s.desk.status = .shut := by
      cases hp : s.phase <;>
        simp_all [Admission.desk, CoordinatorPhase.deskStatus, CoordinatorPhase.receiverGone]
    exact .turnedAway fresh hs
  | @cancelled id =>
    exact (DeskStep.cancelled (i := id)).to (desk_send fun _ => rfl)
  | dropped awaited => exact .dropped awaited
  | received hc hr => exact .received hc hr
  | splitRefused => exact .idle
  | split => exact .idle
  | drop => exact .idle
  | dropNext _ hd =>
    obtain ⟨he, ht, _⟩ := hd.desk
    rw [he]
    exact .of_eq ht
  | foreign => exact .idle
  | shutdown => exact .of_eq (desk_send fun _ => rfl)
  | @enqueued queued rest hs hc =>
    refine .of_eq ?_
    obtain ⟨hand, status, _⟩ := CoordinatorPhase.hand_serving hs
    ext1
    case lines =>
      funext p
      by_cases hp : p = queued.request.cpu.priority
      · subst hp
        simp [Admission.desk, AdmissionQueues.enqueue, hc, CoordinatorCommand.enqueuedAt]
      · simp [Admission.desk, AdmissionQueues.enqueue, hc, CoordinatorCommand.enqueuedAt, hp,
          Ne.symm hp]
    case hand => exact hand.symm
    case status => exact status.symm
    all_goals rfl
  | @cancelHandled queued before after p rest hs hc hl =>
    obtain ⟨hand, status, _⟩ := CoordinatorPhase.hand_serving hs
    have hcancel : s.cancelled queued.id = true := cancels _ (by simp [hc])
    rw [← desk_handled hc (fun _ => rfl)]
    refine (DeskStep.withdrawn (e := .cancelled) (Or.inl hcancel)
      (desk_lines_split (s := { s with commands := rest }) before hl)).to ?_
    exact desk_answer (s := { s with commands := rest }) before .draining hand.symm status.symm
  | @ignored command rest hs hc hno =>
    obtain ⟨hand, status, _⟩ := CoordinatorPhase.hand_serving hs
    have silent : ∀ p, command.enqueuedAt p = none := by
      cases command <;> simp_all [CoordinatorCommand.enqueuedAt]
    refine .of_eq ?_
    rw [← desk_handled hc silent]
    exact desk_phase (s := { s with commands := rest }) hand.symm status.symm
  | @shutdownHandled rest hs hc =>
    obtain ⟨hand, status, _⟩ := CoordinatorPhase.hand_serving hs
    rw [← desk_handled hc (fun _ => rfl)]
    refine (DeskStep.closing status hand).to ?_
    ext1
    case hand => exact hand.symm
    all_goals rfl
  | @passed phase hs hs' =>
    obtain ⟨hand, status, _⟩ := CoordinatorPhase.hand_serving hs
    obtain ⟨hand', status', _⟩ := CoordinatorPhase.hand_serving hs'
    exact .of_eq (desk_phase (hand'.trans hand.symm) (status'.trans status.symm))
  | @discarded queued before after p hs hl hclosed =>
    refine (DeskStep.withdrawn (e := .cancelled) (Or.inr hclosed)
      (desk_lines_split before hl)).to ?_
    refine Eq.trans ?_ (desk_answer before s.phase rfl rfl)
    rw [sendError_closed]
    exact hclosed
  | @granted queued p rest grant be b lease hs hl =>
    obtain ⟨hand, status, _⟩ := CoordinatorPhase.hand_serving hs
    refine (DeskStep.granted status hand (desk_lines_split [] hl)).to ?_
    ext1
    case lines =>
      funext q
      by_cases hq : q = p
      · subst hq
        simp [Admission.desk]
      · simp [Admission.desk, hq]
    case status => exact status.symm
    all_goals rfl
  | refused hs hl =>
    obtain ⟨hand, status, _⟩ := CoordinatorPhase.hand_serving hs
    refine (DeskStep.refused status (desk_lines_split [] hl)).to ?_
    exact desk_answer [] (.discarding .child 0) hand.symm status.symm
  | @delivered queued lease hp =>
    have hand : s.desk.hand = some queued.id := by simp [Admission.desk, hp, CoordinatorPhase.hand]
    refine (DeskStep.delivered (v := lease) hand).to ?_
    ext1
    case status =>
      simp [Admission.desk, hp, CoordinatorPhase.deskStatus, Admission.setReply,
        Admission.startPass]
    all_goals rfl
  | @undelivered queued lease hp hc =>
    have hand : s.desk.hand = some queued.id := by simp [Admission.desk, hp, CoordinatorPhase.hand]
    refine (DeskStep.delivered (v := lease) hand).to ?_
    ext1
    case status => simp [Admission.desk, hp, CoordinatorPhase.deskStatus]
    case replies => exact (update_closed hc).symm
    all_goals rfl
  | @returned lease e rest t hp hd =>
    obtain ⟨he, ht, hphase⟩ := hd.desk
    rw [he, ← ht]
    refine .of_eq (desk_phase ?_ ?_)
    · rw [hphase, hp]
      cases rest <;> rfl
    · rw [hphase, hp]
      cases rest <;> rfl
  | stopping hp hl =>
    have status : s.desk.status = .closing := by
      simp [Admission.desk, hp, CoordinatorPhase.deskStatus]
    refine (DeskStep.stopped status (desk_lines_split [] hl)).to ?_
    exact desk_answer [] s.phase rfl rfl
  | stopped hp hq =>
    have status : s.desk.status = .closing := by
      simp [Admission.desk, hp, CoordinatorPhase.deskStatus]
    refine (DeskStep.shut status (fun id => mem_unhandled hq)).to ?_
    ext1
    case lines =>
      funext p
      cases p <;> simp [Admission.desk, Admission.stop, AdmissionQueues.of, hq, Desk.shutDown]
    case hand =>
      simp [Admission.desk, Admission.stop, CoordinatorPhase.hand, hp, Desk.shutDown]
    all_goals rfl

end Neoethos
