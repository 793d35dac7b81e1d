import Neoethos.AdmissionDesk
import Neoethos.BrokerPermits
import Neoethos.BrokerSlots
import Mathlib.Data.List.Perm.Subperm

namespace Neoethos

def BrokerAction.leases : BrokerAction → List CpuLease
  | .split lease _ | .intoTransfer lease | .dropLease lease => [lease]
  | _ => []

def BrokerAction.slots : BrokerAction → List AuxiliarySlotLease
  | .dropSlot slot => [slot]
  | _ => []

section Frame

variable {b b' : Broker} {e : BrokerEvent}

theorem act_split {lease parent child : CpuLease} {width : WorkerLimit}
    (h : b.act (.split lease width) = some (.ok (e, b')))
    (hs : lease.split width = .ok (parent, child)) :
    b'.leases = child :: parent :: b.leases.erase lease ∧ b'.slots = b.slots := by
  simp only [Broker.act, hs] at h
  split at h
  next => cases h; exact ⟨rfl, rfl⟩
  next => cases h

theorem act_dropLease {lease : CpuLease} (h : b.act (.dropLease lease) = some (.ok (e, b'))) :
    b'.leases = b.leases.erase lease ∧ b'.slots = b.slots := by
  simp only [Broker.act] at h
  split at h
  next =>
    obtain ⟨c, hc, hp⟩ := Fallible.map_ok_iff.mp (Option.some.inj h)
    cases hp
    rw [returnPermits_ok hc]
    exact ⟨rfl, rfl⟩
  next => cases h

theorem act_dropSlot {slot : AuxiliarySlotLease}
    (h : b.act (.dropSlot slot) = some (.ok (e, b'))) :
    b'.slots = b.slots.erase slot ∧ b'.leases = b.leases := by
  simp only [Broker.act] at h
  split at h
  next =>
    obtain ⟨c, hc, hp⟩ := Fallible.map_ok_iff.mp (Option.some.inj h)
    cases hp
    rw [returnSlot_ok hc]
    exact ⟨rfl, rfl⟩
  next => cases h

theorem subperm_cons_erase {α : Type*} [DecidableEq α] (a : α) (l : List α) :
    l.Subperm (a :: l.erase a) := by
  by_cases h : a ∈ l
  · exact (List.perm_cons_erase h).subperm
  · rw [List.erase_of_not_mem h]
    exact List.subperm_cons_self

theorem enqueueWaiter_frame {nested precancelled : Bool} {request : CpuPermitRequest}
    {pool : Option Nat} (h : b.enqueueWaiter nested precancelled request pool = (e, b')) :
    b'.leases = b.leases ∧ b'.slots = b.slots := by
  unfold Broker.enqueueWaiter at h
  split at h
  next => cases h; exact ⟨rfl, rfl⟩
  next =>
    split at h
    next => cases h; exact ⟨rfl, rfl⟩
    next =>
      split at h
      next => cases h; exact ⟨rfl, rfl⟩
      next =>
        split at h
        next => cases h; exact ⟨rfl, rfl⟩
        next => cases h; exact ⟨rfl, rfl⟩

theorem tryAcquireResources_frame {nested : Bool} {request : CpuPermitRequest} {pool : Option Nat}
    (h : b.tryAcquireResources nested request pool = .ok (e, b')) :
    b'.leases = b.leases ∧ b'.slots = b.slots := by
  unfold Broker.tryAcquireResources at h
  split at h
  next => cases h; exact ⟨rfl, rfl⟩
  next =>
    split at h
    next => cases h; exact ⟨rfl, rfl⟩
    next =>
      split at h
      next => cases h; exact ⟨rfl, rfl⟩
      next =>
        obtain ⟨r, hr, hp⟩ := Fallible.map_ok_iff.mp h
        cases hp
        exact ⟨(reserveResources_reserved hr).leases, (reserveResources_reserved hr).slots⟩

theorem checkWaiter_frame {w : Waiter} {cancelled : Bool}
    (h : b.checkWaiter w cancelled = .ok (e, b')) :
    b'.leases = b.leases ∧ b'.slots = b.slots := by
  unfold Broker.checkWaiter at h
  split at h
  next => cases h; exact ⟨rfl, rfl⟩
  next =>
    split at h
    next =>
      obtain ⟨r, hr, hp⟩ := Fallible.map_ok_iff.mp h
      cases hp
      exact ⟨(reserveResources_reserved hr).leases, (reserveResources_reserved hr).slots⟩
    next => cases h; exact ⟨rfl, rfl⟩

theorem act_frame {a : BrokerAction} (h : b.act a = some (.ok (e, b'))) :
    b.leases.Subperm (a.leases ++ b'.leases) ∧ b.slots.Subperm (a.slots ++ b'.slots) := by
  have same : ∀ {c : Broker}, c.leases = b.leases ∧ c.slots = b.slots →
      b.leases.Subperm c.leases ∧ b.slots.Subperm c.slots := by
    rintro c ⟨hl, hs⟩
    rw [hl, hs]
    exact ⟨.refl _, .refl _⟩
  cases a with
  | enqueue nested precancelled request pool =>
    exact same (enqueueWaiter_frame (Except.ok.inj (Option.some.inj h)))
  | check id cancelled =>
    simp only [Broker.act] at h
    split at h
    next => cases h
    next =>
      obtain ⟨w, _, hc⟩ := Option.map_eq_some_iff.mp h
      exact same (checkWaiter_frame hc)
  | wake id =>
    simp only [Broker.act] at h
    split at h
    next => cases h; exact same ⟨rfl, rfl⟩
    next => cases h
  | notify => cases h; exact same ⟨rfl, rfl⟩
  | tryAcquire nested request pool =>
    exact same (tryAcquireResources_frame (Option.some.inj h))
  | split lease width =>
    cases hs : lease.split width with
    | error err =>
      simp only [Broker.act, hs] at h
      split at h
      next => cases h; exact ⟨List.subperm_cons_self, .refl _⟩
      next => cases h
    | ok parts =>
      obtain ⟨hl, hslots⟩ := act_split h hs
      rw [hl, hslots]
      refine ⟨(subperm_cons_erase lease b.leases).trans ?_, .refl _⟩
      exact ((List.sublist_append_right [parts.2, parts.1] _).cons_cons lease).subperm
  | intoTransfer lease =>
    simp only [Broker.act] at h
    split at h
    next => cases h; exact ⟨subperm_cons_erase _ _, .refl _⟩
    next => cases h
  | accept lease =>
    simp only [Broker.act] at h
    split at h
    next => cases h; exact ⟨List.subperm_cons_self, .refl _⟩
    next => cases h
  | dropLease lease =>
    obtain ⟨hl, hs⟩ := act_dropLease h
    rw [hl, hs]
    exact ⟨subperm_cons_erase _ _, .refl _⟩
  | dropTransfer lease =>
    simp only [Broker.act] at h
    split at h
    next =>
      obtain ⟨c, hc, hp⟩ := Fallible.map_ok_iff.mp (Option.some.inj h)
      cases hp
      rw [returnPermits_ok hc]
      exact same ⟨rfl, rfl⟩
    next => cases h
  | intoParts grant =>
    simp only [Broker.act] at h
    split at h
    next =>
      cases h
      exact ⟨List.subperm_cons_self, (List.sublist_append_right _ _).subperm⟩
    next => cases h
  | dropGrant grant =>
    simp only [Broker.act] at h
    split at h
    next =>
      obtain ⟨c, hc, hp⟩ := Fallible.map_ok_iff.mp (Option.some.inj h)
      cases hp
      rw [returnPermits_ok hc]
      exact ⟨.refl _, (List.sublist_append_right _ _).subperm⟩
    next => cases h
  | dropSlot slot =>
    obtain ⟨hs, hl⟩ := act_dropSlot h
    rw [hl, hs]
    exact ⟨.refl _, subperm_cons_erase _ _⟩

end Frame

section Holders

@[simp] theorem leasesOf_cons (lease : AdmittedLease) (holders : List AdmittedLease) :
    leasesOf (lease :: holders) = lease.cpuLease.toList ++ leasesOf holders := rfl

@[simp] theorem slotsOf_cons (lease : AdmittedLease) (holders : List AdmittedLease) :
    slotsOf (lease :: holders) = lease.auxiliarySlot.toList ++ slotsOf holders := rfl

theorem leasesOf_perm {xs ys : List AdmittedLease} (h : xs.Perm ys) :
    (leasesOf xs).Perm (leasesOf ys) := h.flatMap_right _

theorem slotsOf_perm {xs ys : List AdmittedLease} (h : xs.Perm ys) :
    (slotsOf xs).Perm (slotsOf ys) := h.flatMap_right _

/-- One reply among all: what it holds unread can be exchanged. -/
theorem unread_update {n id : Nat} (hid : id < n) (replies : Nat → OneShot AdmissionResult) :
    ∃ rest, ∀ c, ((List.range n).flatMap fun i =>
      unreadLease (Function.update replies id c i)).Perm (unreadLease c ++ rest) := by
  refine ⟨((List.range n).erase id).flatMap fun i => unreadLease (replies i), fun c => ?_⟩
  have hm : id ∈ List.range n := List.mem_range.mpr hid
  refine ((List.perm_cons_erase hm).flatMap_right _).trans ?_
  rw [List.flatMap_cons, Function.update_self]
  refine List.Perm.append_left _ (List.Perm.of_eq ?_)
  refine List.flatMap_congr fun i hi => ?_
  have hne : i ≠ id := by
    rintro rfl
    exact List.nodup_range.not_mem_erase hi
  rw [Function.update_of_ne hne]

variable {s : Admission} {id : Nat}

theorem unread_setReply (hid : id < s.nextRequestId) :
    ∃ rest, s.unread.Perm (unreadLease (s.replies id) ++ rest) ∧
      ∀ c, (s.setReply id c).unread.Perm (unreadLease c ++ rest) := by
  obtain ⟨rest, hrest⟩ := unread_update hid s.replies
  refine ⟨rest, ?_, hrest⟩
  have h := hrest (s.replies id)
  rwa [Function.update_eq_self] at h

theorem unread_setReply_same {c : OneShot AdmissionResult}
    (h : unreadLease c = unreadLease (s.replies id)) : (s.setReply id c).unread = s.unread := by
  refine List.flatMap_congr fun i _ => ?_
  show unreadLease (Function.update s.replies id c i) = _
  by_cases hi : i = id
  · subst hi
    rw [Function.update_self, h]
  · rw [Function.update_of_ne hi]

theorem unreadLease_send_error (c : OneShot AdmissionResult) (e : AdmissionError) :
    unreadLease (c.send (.error e)) = unreadLease c := by
  cases c <;> rfl

theorem unreadLease_hangUp (c : OneShot AdmissionResult) :
    unreadLease c.hangUp = unreadLease c := by
  cases c <;> rfl

end Holders

namespace AdmissionEvent

/-- What an event does to the leases granted and not returned yet. -/
def ledgerLeases (leases : List CpuLease) : AdmissionEvent → List CpuLease
  | .granted _ lease => lease.cpuLease.toList ++ leases
  | .splitLease lease parent child => child :: parent :: leases.erase lease
  | .leaseReturned lease => leases.erase lease
  | _ => leases

def ledgerSlots (slots : List AuxiliarySlotLease) : AdmissionEvent → List AuxiliarySlotLease
  | .granted _ lease => lease.auxiliarySlot.toList ++ slots
  | .slotReturned slot => slots.erase slot
  | _ => slots

variable {e : AdmissionEvent}

theorem ledgerLeases_perm {xs ys : List CpuLease} (h : xs.Perm ys) :
    (e.ledgerLeases xs).Perm (e.ledgerLeases ys) := by
  cases e with
  | granted => exact h.append_left _
  | splitLease => exact ((h.erase _).cons _).cons _
  | leaseReturned => exact h.erase _
  | _ => exact h

theorem ledgerSlots_perm {xs ys : List AuxiliarySlotLease} (h : xs.Perm ys) :
    (e.ledgerSlots xs).Perm (e.ledgerSlots ys) := by
  cases e with
  | granted => exact h.append_left _
  | slotReturned => exact h.erase _
  | _ => exact h

theorem ledgerLeases_subperm {xs ys : List CpuLease} (h : xs.Subperm ys) :
    (e.ledgerLeases xs).Subperm (e.ledgerLeases ys) := by
  cases e with
  | granted => exact (List.subperm_append_left _).mpr h
  | splitLease => exact ((List.subperm_cons _).mpr ((List.subperm_cons _).mpr (h.erase _)))
  | leaseReturned => exact h.erase _
  | _ => exact h

theorem ledgerSlots_subperm {xs ys : List AuxiliarySlotLease} (h : xs.Subperm ys) :
    (e.ledgerSlots xs).Subperm (e.ledgerSlots ys) := by
  cases e with
  | granted => exact (List.subperm_append_left _).mpr h
  | slotReturned => exact h.erase _
  | _ => exact h

end AdmissionEvent

/-- The leases that the coordinator has granted and has not got back, by the history. -/
def outstandingLeases (es : List AdmissionEvent) : List CpuLease :=
  es.foldl (fun leases e => e.ledgerLeases leases) []

def outstandingSlots (es : List AdmissionEvent) : List AuxiliarySlotLease :=
  es.foldl (fun slots e => e.ledgerSlots slots) []

/-- The step keeps the books: what is held changes as its event says, and stays with the broker. -/
structure Accounts (s : Admission) (e : AdmissionEvent) (t : Admission) : Prop where
  leases : t.heldLeases.Perm (e.ledgerLeases s.heldLeases)
  slots : t.heldSlots.Perm (e.ledgerSlots s.heldSlots)
  leasesLive : s.heldLeases.Subperm s.broker.leases → t.heldLeases.Subperm t.broker.leases
  slotsLive : s.heldSlots.Subperm s.broker.slots → t.heldSlots.Subperm t.broker.slots

variable {pool : Nat} {s t : Admission} {e : AdmissionEvent}

theorem Accounts.of_broker (hl : t.heldLeases.Perm (e.ledgerLeases s.heldLeases))
    (hs : t.heldSlots.Perm (e.ledgerSlots s.heldSlots))
    (hbl : t.broker.leases = e.ledgerLeases s.broker.leases)
    (hbs : t.broker.slots = e.ledgerSlots s.broker.slots) : Accounts s e t where
  leases := hl
  slots := hs
  leasesLive h := by
    rw [hbl]
    exact hl.subperm.trans (AdmissionEvent.ledgerLeases_subperm h)
  slotsLive h := by
    rw [hbs]
    exact hs.subperm.trans (AdmissionEvent.ledgerSlots_subperm h)

theorem Accounts.moved (hh : t.holders.Perm s.holders) (hb : t.broker = s.broker)
    (silent : (∀ leases, e.ledgerLeases leases = leases) ∧ ∀ slots, e.ledgerSlots slots = slots) :
    Accounts s e t := by
  refine .of_broker ?_ ?_ ?_ ?_
  · rw [silent.1]
    exact leasesOf_perm hh
  · rw [silent.2]
    exact slotsOf_perm hh
  · rw [silent.1, hb]
  · rw [silent.2, hb]

theorem Accounts.quiet (hh : t.holders.Perm s.holders) (hb : t.broker = s.broker) :
    Accounts s .quiet t := .moved hh hb ⟨fun _ => rfl, fun _ => rfl⟩

theorem send_eq (command : CoordinatorCommand) :
    s.send command = { s with commands := (s.send command).commands } := by
  unfold Admission.send
  split <;> rfl

@[simp] theorem send_holders (command : CoordinatorCommand) :
    (s.send command).holders = s.holders := by
  rw [send_eq]
  rfl

@[simp] theorem send_broker (command : CoordinatorCommand) :
    (s.send command).broker = s.broker := by
  rw [send_eq]

theorem Destroyed.accounts {lease : AdmittedLease} {rest : Option AdmittedLease}
    (h : Destroyed s lease e rest t) :
    (∀ others, (leasesOf (rest.toList ++ others)) = e.ledgerLeases (leasesOf (lease :: others)) ∧
      (slotsOf (rest.toList ++ others)) = e.ledgerSlots (slotsOf (lease :: others))) ∧
    t.broker.leases = e.ledgerLeases s.broker.leases ∧
    t.broker.slots = e.ledgerSlots s.broker.slots := by
  cases h with
  | slot hs ha =>
    obtain ⟨hb, hl⟩ := act_dropSlot ha
    refine ⟨fun others => ⟨?_, ?_⟩, hl, hb⟩
    · simp [AdmissionEvent.ledgerLeases]
    · simp [AdmissionEvent.ledgerSlots, hs]
  | cpu hs hc ha =>
    obtain ⟨hl, hb⟩ := act_dropLease ha
    refine ⟨fun others => ⟨?_, ?_⟩, hl, hb⟩
    · simp [AdmissionEvent.ledgerLeases, hc]
    · simp [AdmissionEvent.ledgerSlots]
  | wake hs hc =>
    refine ⟨fun others => ⟨?_, ?_⟩, by rw [send_broker]; rfl, by rw [send_broker]; rfl⟩
    · simp [AdmissionEvent.ledgerLeases, hc]
    · simp [AdmissionEvent.ledgerSlots, hs]

/-- One lease that is held is in its destructor; the others stay where they are. -/
theorem Accounts.destroyed {t₀ : Admission} {lease : AdmittedLease} {rest : Option AdmittedLease}
    (others : List AdmittedLease) (h : Destroyed s lease e rest t₀) (hb : t.broker = t₀.broker)
    (hs : s.holders.Perm (lease :: others)) (ht : t.holders.Perm (rest.toList ++ others)) :
    Accounts s e t := by
  obtain ⟨books, hbl, hbs⟩ := h.accounts
  obtain ⟨hl, hsl⟩ := books others
  refine .of_broker ?_ ?_ (by rw [hb, hbl]) (by rw [hb, hbs])
  · refine (leasesOf_perm ht).trans ?_
    rw [hl]
    exact AdmissionEvent.ledgerLeases_perm (leasesOf_perm hs.symm)
  · refine (slotsOf_perm ht).trans ?_
    rw [hsl]
    exact AdmissionEvent.ledgerSlots_perm (slotsOf_perm hs.symm)

theorem admittedLease_some {grant : CompositeAdmissionGrant} {reply : AdmissionReply}
    {lease : AdmittedLease} (h : admittedLease grant reply = some lease) :
    lease.cpuLease = some grant.cpuLease ∧ lease.auxiliarySlot = grant.auxiliarySlot := by
  cases reply with
  | cpu =>
    simp only [admittedLease] at h
    split at h
    next hn =>
      cases h
      exact ⟨rfl, (Option.isNone_iff_eq_none.mp hn).symm⟩
    next => cases h
  | importWork =>
    obtain ⟨slot, hs, heq⟩ := Option.map_eq_some_iff.mp h
    cases heq
    exact ⟨rfl, hs.symm⟩

theorem Destroyed.frame {lease : AdmittedLease} {rest : Option AdmittedLease}
    (h : Destroyed s lease e rest t) :
    t = { s with broker := t.broker, commands := t.commands } := by
  cases h with
  | slot => rfl
  | cpu => rfl
  | wake =>
    rw [send_broker]
    exact send_eq _

theorem accounts_foreign {a : BrokerAction} {be : BrokerEvent} {b : Broker}
    (hf : s.isForeign a = true) (ha : s.broker.act a = some (.ok (be, b))) :
    Accounts s .quiet { s with broker := b } := by
  obtain ⟨frameLeases, frameSlots⟩ := act_frame ha
  have out : ∀ {α : Type} [DecidableEq α] {x : α} {held all all' : List α},
      x ∈ all.diff held → all.Subperm (x :: all') → held.Subperm all → held.Subperm all' := by
    intro α _ x held all all' hx hall h
    have hp := List.subperm_append_diff_self_of_count_le
      (List.subperm_ext_iff.mp h)
    have hsub : (x :: held).Subperm all := by
      refine (List.perm_append_singleton x held).symm.subperm.trans ?_
      refine List.Subperm.trans ?_ hp.subperm
      exact (List.subperm_append_left held).mpr (List.singleton_sublist.mpr hx).subperm
    exact (List.subperm_cons x).mp (hsub.trans hall)
  refine ⟨.refl _, .refl _, fun h => ?_, fun h => ?_⟩
  · cases a with
    | split => exact out (of_decide_eq_true hf) frameLeases h
    | intoTransfer => exact out (of_decide_eq_true hf) frameLeases h
    | dropLease => exact out (of_decide_eq_true hf) frameLeases h
    | _ => exact h.trans frameLeases
  · cases a with
    | dropSlot => exact out (of_decide_eq_true hf) frameSlots h
    | _ => exact h.trans frameSlots

/-- A reply is exchanged for one that holds as much, and phases without a lease for another. -/
theorem holders_phase {queues : AdmissionQueues} {commands : List CoordinatorCommand}
    {phase : CoordinatorPhase} (h : phase.admitted = s.phase.admitted) :
    { s with queues := queues, commands := commands, phase := phase }.holders = s.holders := by
  unfold Admission.holders
  rw [h]
  rfl

theorem holders_sendError (id : Nat) (e : AdmissionError) :
    (s.sendError id e).holders = s.holders := by
  have hu : (s.sendError id e).unread = s.unread :=
    unread_setReply_same (unreadLease_send_error _ _)
  unfold Admission.holders
  rw [hu]
  rfl

theorem holders_stop (h : s.phase.admitted = []) : s.stop.holders = s.holders := by
  have hu : s.stop.unread = s.unread := by
    refine List.flatMap_congr fun id _ => ?_
    show unreadLease (if id ∈ s.unhandled then (s.replies id).hangUp else s.replies id) = _
    split
    next => exact unreadLease_hangUp _
    next => rfl
  unfold Admission.holders
  rw [hu, h]
  rfl

theorem holders_setReply {id : Nat} {c : OneShot AdmissionResult}
    (h : unreadLease c = unreadLease (s.replies id)) : (s.setReply id c).holders = s.holders := by
  have hu := unread_setReply_same h
  unfold Admission.holders
  rw [hu]
  rfl

/-- Every step keeps the books. A delivery does because the desk knows that the requester listens
or is gone. -/
theorem AdmissionStep.accounts (step : AdmissionStep pool s e t) (seated : s.desk.Seated)
    (numbered : ∀ id, s.replies id ≠ .absent → id < s.nextRequestId) : Accounts s e t := by
  cases step with
  | exhausted => exact .moved (.refl _) rfl ⟨fun _ => rfl, fun _ => rfl⟩
  | allocated =>
    refine .moved ?_ rfl ⟨fun _ => rfl, fun _ => rfl⟩
    have hr : s.replies s.nextRequestId = .absent := by
      by_contra hn
      exact absurd (numbered _ hn) (Nat.lt_irrefl _)
    have hu : { s with nextRequestId := s.nextRequestId + 1 }.unread = s.unread := by
      simp [Admission.unread, List.range_succ, hr, unreadLease]
    unfold Admission.holders
    rw [hu]
  | @submitted queued _ fresh =>
    refine .moved (.of_eq ?_) rfl ⟨fun _ => rfl, fun _ => rfl⟩
    exact holders_setReply (c := .empty) (by rw [fresh]; rfl)
  | @turnedAway id _ fresh =>
    refine .moved (.of_eq ?_) rfl ⟨fun _ => rfl, fun _ => rfl⟩
    exact holders_setReply (c := .taken) (by rw [fresh]; rfl)
  | cancelled =>
    refine .quiet ?_ (send_broker _)
    rw [send_holders]
    exact .refl _
  | @dropped id awaited =>
    have hid : id < s.nextRequestId :=
      numbered id (by intro h; simp [h, OneShot.isAwaited] at awaited)
    obtain ⟨rest, before, after⟩ := unread_setReply hid
    refine .quiet ?_ rfl
    change (s.phase.admitted ++ s.admitted ++ (unreadLease (s.replies id) ++ s.dropping) ++
      (s.setReply id .closed).unread).Perm _
    refine List.perm_iff_count.mpr fun lease => ?_
    have hb := before.count_eq lease
    have ha := (after .closed).count_eq lease
    simp only [Admission.holders, unreadLease, List.count_append, List.count_nil] at hb ha ⊢
    omega
  | @received id result hc hr =>
    have hid : id < s.nextRequestId :=
      numbered id (by intro h; simp [h, OneShot.read] at hr)
    obtain ⟨rest, before, after⟩ := unread_setReply hid
    refine .moved ?_ rfl ⟨fun _ => rfl, fun _ => rfl⟩
    change (s.phase.admitted ++ (unreadLease (s.replies id) ++ s.admitted) ++ s.dropping ++
      (s.setReply id .taken).unread).Perm _
    refine List.perm_iff_count.mpr fun lease => ?_
    have hb := before.count_eq lease
    have ha := (after .taken).count_eq lease
    simp only [Admission.holders, unreadLease, List.count_append, List.count_nil] at hb ha ⊢
    omega
  | splitRefused => exact .quiet (.refl _) rfl
  | @split lease cpuLease parent child width _ b hm hcpu hparts ha =>
    obtain ⟨hbl, hbs⟩ := act_split ha hparts
    let others := s.phase.admitted ++ s.admitted.erase lease ++ s.dropping ++ s.unread
    have before : s.holders.Perm (lease :: others) := by
      refine List.perm_iff_count.mpr fun other => ?_
      have hc := (List.perm_cons_erase hm).count_eq other
      simp only [Admission.holders, others, List.count_append, List.count_cons] at hc ⊢
      omega
    have after : (s.phase.admitted ++ (⟨.cpu, some child, none⟩ ::
        { lease with cpuLease := some parent } :: s.admitted.erase lease) ++ s.dropping ++
          s.unread).Perm (⟨.cpu, some child, none⟩ ::
            { lease with cpuLease := some parent } :: others) := by
      refine List.perm_iff_count.mpr fun other => ?_
      simp only [others, List.count_append, List.count_cons]
      omega
    refine .of_broker ?_ ?_ hbl hbs
    · refine (leasesOf_perm after).trans ?_
      refine List.Perm.trans ?_ (AdmissionEvent.ledgerLeases_perm (leasesOf_perm before.symm))
      simp [AdmissionEvent.ledgerLeases, hcpu]
    · refine (slotsOf_perm after).trans ?_
      refine List.Perm.trans ?_ (AdmissionEvent.ledgerSlots_perm (slotsOf_perm before.symm))
      simp [AdmissionEvent.ledgerSlots]
  | @drop lease hm =>
    refine .quiet ?_ rfl
    change (s.phase.admitted ++ s.admitted.erase lease ++ lease :: s.dropping ++ s.unread).Perm _
    refine List.perm_iff_count.mpr fun other => ?_
    have hc := (List.perm_cons_erase hm).count_eq other
    simp only [Admission.holders, List.count_append, List.count_cons] at hc ⊢
    omega
  | @dropNext lease e rest t hm hd =>
    have ht := hd.frame
    refine .destroyed (s.phase.admitted ++ s.admitted ++ s.dropping.erase lease ++ s.unread)
      hd rfl ?_ ?_
    · refine List.perm_iff_count.mpr fun other => ?_
      have hc := (List.perm_cons_erase hm).count_eq other
      simp only [Admission.holders, List.count_append, List.count_cons] at hc ⊢
      omega
    · rw [ht]
      refine List.perm_iff_count.mpr fun other => ?_
      change List.count other (s.phase.admitted ++ s.admitted ++
        (rest.toList ++ s.dropping.erase lease) ++ s.unread) = _
      simp only [List.count_append]
      omega
  | foreign hf ha => exact accounts_foreign hf ha
  | shutdown =>
    refine .quiet ?_ (send_broker _)
    rw [send_holders]
    exact .refl _
  | enqueued hs =>
    exact .quiet (.of_eq (holders_phase (CoordinatorPhase.hand_serving hs).2.2.symm)) rfl
  | cancelHandled hs =>
    refine .quiet (.of_eq ?_) rfl
    rw [holders_sendError]
    exact holders_phase (CoordinatorPhase.hand_serving hs).2.2.symm
  | ignored hs =>
    exact .quiet (.of_eq (holders_phase (CoordinatorPhase.hand_serving hs).2.2.symm)) rfl
  | shutdownHandled hs =>
    refine .moved (.of_eq ?_) rfl ⟨fun _ => rfl, fun _ => rfl⟩
    exact holders_phase (CoordinatorPhase.hand_serving hs).2.2.symm
  | passed hs hs' =>
    have hp := (CoordinatorPhase.hand_serving hs').2.2.trans
      (CoordinatorPhase.hand_serving hs).2.2.symm
    exact .quiet (.of_eq (holders_phase hp)) rfl
  | discarded => exact .quiet (.refl _) rfl
  | @granted queued p rest grant be b lease hs _ _ _ reserved hlease =>
    obtain ⟨hcpu, hslot⟩ := admittedLease_some hlease
    have hp := (CoordinatorPhase.hand_serving hs).2.2
    have after : (lease :: (s.admitted ++ s.dropping ++ s.unread)) = lease :: s.holders := by
      simp [Admission.holders, hp]
    refine .of_broker (.of_eq ?_) (.of_eq ?_) ?_ ?_
    · change leasesOf (lease :: (s.admitted ++ s.dropping ++ s.unread)) = _
      rw [after]
      rfl
    · change slotsOf (lease :: (s.admitted ++ s.dropping ++ s.unread)) = _
      rw [after]
      rfl
    · simp [Broker.intoParts, AdmissionEvent.ledgerLeases, hcpu, reserved.leases]
    · simp [Broker.intoParts, AdmissionEvent.ledgerSlots, hslot, reserved.slots]
  | refused hs =>
    refine .moved (.of_eq ?_) rfl ⟨fun _ => rfl, fun _ => rfl⟩
    rw [holders_sendError]
    exact holders_phase (CoordinatorPhase.hand_serving hs).2.2.symm
  | @delivered queued lease hp hopen =>
    have hand : s.desk.hand = some queued.id := by
      simp [Admission.desk, hp, CoordinatorPhase.hand]
    have hempty : s.replies queued.id = .empty :=
      (seated.owed queued.id (Or.inr hand)).resolve_right hopen
    have hid := numbered queued.id (by simp [hempty])
    obtain ⟨rest, before, after⟩ := unread_setReply hid
    refine .quiet ?_ rfl
    change (s.admitted ++ s.dropping ++
      (s.setReply queued.id ((s.replies queued.id).send (.ok lease))).unread).Perm _
    refine List.perm_iff_count.mpr fun other => ?_
    have hb := before.count_eq other
    have ha := (after ((s.replies queued.id).send (.ok lease))).count_eq other
    simp only [Admission.holders, hp, CoordinatorPhase.admitted, hempty, OneShot.send,
      unreadLease, List.count_append, List.count_nil] at hb ha ⊢
    omega
  | undelivered hp hc =>
    refine .quiet (.of_eq ?_) rfl
    exact holders_phase (by rw [hp]; rfl)
  | @returned lease e rest t hp hd =>
    have ht := hd.frame
    refine .destroyed (s.admitted ++ s.dropping ++ s.unread) hd rfl (.of_eq ?_) ?_
    · simp [Admission.holders, hp, CoordinatorPhase.admitted]
    · rw [ht]
      refine .of_eq ?_
      cases rest with
      | some rest => simp [Admission.holders, CoordinatorPhase.admitted]; rfl
      | none => simp [Admission.holders, CoordinatorPhase.admitted]; rfl
  | stopping hp hl =>
    refine .quiet (.of_eq ?_) rfl
    rw [holders_sendError]
    rfl
  | stopped hp hq => exact .quiet (.of_eq (holders_stop (by rw [hp]; rfl))) rfl

end Neoethos
