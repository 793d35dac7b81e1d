import Mathlib.Data.Multiset.Range
import Mathlib.Data.List.Nodup
import Neoethos.BrokerStep

namespace Neoethos

def grantedSlots (grants : List CompositeAdmissionGrant) : List AuxiliarySlotLease :=
  grants.flatMap fun grant => grant.auxiliarySlot.toList

def Broker.liveSlots (b : Broker) : List AuxiliarySlotLease := b.slots ++ grantedSlots b.grants

def indicesOf (n : Nat) (slots : List AuxiliarySlotLease) : List Nat :=
  (slots.filter fun slot => slot.pool = n).map AuxiliarySlotLease.index

@[simp] theorem grantedSlots_cons (grant : CompositeAdmissionGrant)
    (grants : List CompositeAdmissionGrant) :
    grantedSlots (grant :: grants) = grant.auxiliarySlot.toList ++ grantedSlots grants := rfl

theorem indicesOf_cons_same (slot : AuxiliarySlotLease) (slots : List AuxiliarySlotLease) :
    indicesOf slot.pool (slot :: slots) = slot.index :: indicesOf slot.pool slots := by
  simp [indicesOf]

theorem indicesOf_cons_other {n : Nat} {slot : AuxiliarySlotLease} (h : slot.pool ≠ n)
    (slots : List AuxiliarySlotLease) : indicesOf n (slot :: slots) = indicesOf n slots := by
  simp [indicesOf, h]

theorem indicesOf_perm {xs ys : List AuxiliarySlotLease} (h : xs.Perm ys) (n : Nat) :
    (indicesOf n xs).Perm (indicesOf n ys) := (h.filter _).map _

theorem indicesOf_mem {slot : AuxiliarySlotLease} {slots : List AuxiliarySlotLease}
    (h : slot ∈ slots) : slot.index ∈ indicesOf slot.pool slots :=
  List.mem_map_of_mem (List.mem_filter.mpr ⟨h, by simp⟩)

/-- Free slots and live slots of every authority make up its whole range, each once. -/
def SlotsTile (limits : Nat → AuxiliarySlotLimit) (b : Broker) : Prop :=
  ∀ n, (b.pools n).limit = limits n ∧
    ((b.pools n).freeSlots ++ indicesOf n b.liveSlots).Perm (List.range (limits n).get)

theorem slotsTile_new (limit : WorkerLimit) (limits : Nat → AuxiliarySlotLimit) :
    SlotsTile limits (CpuPermitBroker.new limit limits) := by
  intro n
  refine ⟨rfl, ?_⟩
  have empty : indicesOf n (CpuPermitBroker.new limit limits).liveSlots = [] := rfl
  rw [empty, List.append_nil]
  exact List.reverse_perm _

/-- A step that only moves live slots from one holder to another. -/
theorem SlotsTile.moved {limits : Nat → AuxiliarySlotLimit} {b b' : Broker}
    (h : SlotsTile limits b) (hp : b'.pools = b.pools) (hl : b'.liveSlots.Perm b.liveSlots) :
    SlotsTile limits b' := by
  intro n
  rw [hp]
  exact ⟨(h n).1, ((indicesOf_perm hl n).append_left _).trans (h n).2⟩

theorem SlotsTile.reserved {limits : Nat → AuxiliarySlotLimit} {b b' : Broker}
    {request : CpuPermitRequest} {pool : Option Nat} {grant : CompositeAdmissionGrant}
    (h : SlotsTile limits b) (hr : Reserved b request pool grant b') : SlotsTile limits b' := by
  cases pool with
  | none =>
    obtain ⟨hs, hp⟩ := hr.noSlot rfl
    refine h.moved hp ?_
    simp [Broker.liveSlots, hr.slots, hr.grants, hs]
  | some m =>
    obtain ⟨rest, index, hf, hs, hp⟩ := hr.slot m rfl
    have live : b'.liveSlots.Perm (⟨m, index⟩ :: b.liveSlots) := by
      simp only [Broker.liveSlots, hr.slots, hr.grants, grantedSlots_cons, hs, Option.toList_some,
        List.singleton_append]
      exact List.perm_middle
    intro n
    by_cases same : n = m
    · subst n
      rw [hp, Function.update_self]
      refine ⟨(h m).1, ?_⟩
      have before := (h m).2
      rw [hf, List.append_assoc] at before
      refine List.Perm.trans ?_ before
      exact ((indicesOf_perm live m).trans
        (List.Perm.of_eq (indicesOf_cons_same ⟨m, index⟩ b.liveSlots))).append_left rest
    · rw [hp, Function.update_of_ne same]
      refine ⟨(h n).1, ?_⟩
      have other := (indicesOf_perm live n).trans
        (List.Perm.of_eq (indicesOf_cons_other (Ne.symm same) b.liveSlots))
      exact (other.append_left _).trans (h n).2

theorem grantedSlots_erase {grant : CompositeAdmissionGrant}
    {grants : List CompositeAdmissionGrant} (h : grant ∈ grants) :
    (grantedSlots grants).Perm (grant.auxiliarySlot.toList ++ grantedSlots (grants.erase grant)) :=
  (List.perm_cons_erase h).flatMap_right _

/-- Taking a grant apart moves its slot from the grants to the loose ones. -/
theorem liveSlots_parts {grant : CompositeAdmissionGrant} {b b' : Broker} (h : grant ∈ b.grants)
    (hs : b'.slots = grant.auxiliarySlot.toList ++ b.slots)
    (hg : b'.grants = b.grants.erase grant) : b'.liveSlots.Perm b.liveSlots := by
  simp only [Broker.liveSlots, hs, hg]
  calc
    (grant.auxiliarySlot.toList ++ b.slots ++ grantedSlots (b.grants.erase grant)).Perm
        (b.slots ++ grant.auxiliarySlot.toList ++ grantedSlots (b.grants.erase grant)) :=
      List.perm_append_comm.append_right _
    _ = b.slots ++ (grant.auxiliarySlot.toList ++ grantedSlots (b.grants.erase grant)) :=
      List.append_assoc ..
    List.Perm _ (b.slots ++ grantedSlots b.grants) := (grantedSlots_erase h).symm.append_left _

theorem SlotsTile.dropSlot {limits : Nat → AuxiliarySlotLimit} {b b' : Broker}
    {slot : AuxiliarySlotLease} (h : SlotsTile limits b) (hm : slot ∈ b.slots)
    (hs : b'.slots = b.slots.erase slot) (hg : b'.grants = b.grants)
    (hp : b'.pools = Function.update b.pools slot.pool { b.pools slot.pool with
      freeSlots := (b.pools slot.pool).freeSlots ++ [slot.index] }) :
    SlotsTile limits b' := by
  have live : b.liveSlots.Perm (slot :: b'.liveSlots) := by
    simp only [Broker.liveSlots, hs, hg]
    exact (List.perm_cons_erase hm).append_right _
  intro n
  by_cases same : n = slot.pool
  · subst n
    rw [hp, Function.update_self]
    refine ⟨(h slot.pool).1, List.Perm.trans ?_ (h slot.pool).2⟩
    have back := (indicesOf_perm live slot.pool).trans (List.Perm.of_eq (indicesOf_cons_same ..))
    simpa using (back.append_left (b.pools slot.pool).freeSlots).symm
  · rw [hp, Function.update_of_ne same]
    refine ⟨(h n).1, List.Perm.trans ?_ (h n).2⟩
    have other := (indicesOf_perm live n).trans
      (List.Perm.of_eq (indicesOf_cons_other (Ne.symm same) _))
    exact (other.append_left _).symm

theorem slotsTile_step {limits : Nat → AuxiliarySlotLimit} {b b' : Broker} {e : BrokerEvent}
    (h : SlotsTile limits b) (step : BrokerStep b e b') : SlotsTile limits b' := by
  cases step with
  | rejected => exact h
  | enqueued => exact h.moved rfl (.refl _)
  | cancelled => exact h.moved rfl (.refl _)
  | @granted w _ _ _ _ _ hr =>
    have hq : SlotsTile limits (b.removeWaiter w.id) := h.moved rfl (.refl _)
    exact (hq.reserved hr).moved rfl (.refl _)
  | parked => exact h.moved rfl (.refl _)
  | woken => exact h.moved rfl (.refl _)
  | notified => exact h.moved rfl (.refl _)
  | tryRefused => exact h
  | tryGranted _ hr => exact h.reserved hr
  | splitRefused => exact h
  | split => exact h.moved rfl (.refl _)
  | intoTransfer => exact h.moved rfl (.refl _)
  | accept => exact h.moved rfl (.refl _)
  | intoParts hm => exact h.moved rfl (liveSlots_parts hm rfl rfl)
  | dropLease => exact h.moved rfl (.refl _)
  | dropTransfer => exact h.moved rfl (.refl _)
  | dropGrant hm => exact h.moved rfl (liveSlots_parts hm rfl rfl)
  | dropSlot hm => exact h.dropSlot hm rfl rfl rfl

theorem slotsTile_run {limit : WorkerLimit} {limits : Nat → AuxiliarySlotLimit}
    {es : List BrokerEvent} {b : Broker} (h : (brokerMachine limit limits).Run es b) :
    SlotsTile limits b :=
  h.state_invariant (slotsTile_new limit limits)
    (fun _ _ _ _ hs hn => slotsTile_step hs (brokerMachine_step hn))

/-- A slot that is live is not free, and leaves room for one more free slot. -/
theorem SlotsTile.live_not_free {limits : Nat → AuxiliarySlotLimit} {b : Broker}
    {slot : AuxiliarySlotLease} (h : SlotsTile limits b) (hm : slot ∈ b.liveSlots) :
    slot.index ∉ (b.pools slot.pool).freeSlots ∧
      (b.pools slot.pool).freeSlots.length + 1 ≤ (b.pools slot.pool).limit.get := by
  obtain ⟨hl, hp⟩ := h slot.pool
  have hi := indicesOf_mem hm
  have nodup := hp.nodup_iff.mpr List.nodup_range
  refine ⟨fun hf => (List.disjoint_of_nodup_append nodup) hf hi, ?_⟩
  have len := hp.length_eq
  have := List.length_pos_of_mem hi
  simp only [List.length_append, List.length_range] at len
  rw [hl]
  omega

def SameHoldings (b b' : Broker) : Prop :=
  b'.available = b.available ∧ b'.pools = b.pools ∧ b'.leases = b.leases ∧
    b'.transfers = b.transfers ∧ b'.grants = b.grants ∧ b'.slots = b.slots

/-- The step hands out one grant, with the full CPU width and, if the request named
a pool, with a slot that was free before the step and is not free after it. -/
def GrantsBoth (b : Broker) (request : CpuPermitRequest) (pool : Option Nat)
    (grant : CompositeAdmissionGrant) (b' : Broker) : Prop :=
  b'.grants = grant :: b.grants ∧ b'.leases = b.leases ∧ b'.transfers = b.transfers ∧
    b'.slots = b.slots ∧
    grant.cpuLease.width = request.width.get ∧ b'.available + request.width.get = b.available ∧
    (pool = none → grant.auxiliarySlot = none ∧ b'.pools = b.pools) ∧
    ∀ n, pool = some n → ∃ index, grant.auxiliarySlot = some ⟨n, index⟩ ∧
      (b.pools n).freeSlots = (b'.pools n).freeSlots ++ [index]

def BothOrNothing (b : Broker) (e : BrokerEvent) (b' : Broker) : Prop :=
  match e with
  | .granted w grant => GrantsBoth b w.request w.auxiliaryPool grant b'
  | .tryGranted request pool grant => GrantsBoth b request pool grant b'
  | .enqueued _ | .rejected _ | .cancelled _ | .parked _ | .tryRefused => SameHoldings b b'
  | _ => True

theorem Reserved.grantsBoth {b b' : Broker} {request : CpuPermitRequest} {pool : Option Nat}
    {grant : CompositeAdmissionGrant} (hr : Reserved b request pool grant b') :
    GrantsBoth b request pool grant b' := by
  refine ⟨hr.grants, hr.leases, hr.transfers, hr.slots, hr.width, hr.available, hr.noSlot, ?_⟩
  intro n hn
  obtain ⟨rest, index, hf, hs, hp⟩ := hr.slot n hn
  exact ⟨index, hs, by rw [hp, Function.update_self, hf]⟩

theorem bothOrNothing_step {b b' : Broker} {e : BrokerEvent} (step : BrokerStep b e b') :
    BothOrNothing b e b' := by
  cases step with
  | rejected => exact ⟨rfl, rfl, rfl, rfl, rfl, rfl⟩
  | enqueued => exact ⟨rfl, rfl, rfl, rfl, rfl, rfl⟩
  | cancelled => exact ⟨rfl, rfl, rfl, rfl, rfl, rfl⟩
  | granted _ _ _ hr => exact hr.grantsBoth
  | parked => exact ⟨rfl, rfl, rfl, rfl, rfl, rfl⟩
  | tryRefused => exact ⟨rfl, rfl, rfl, rfl, rfl, rfl⟩
  | tryGranted _ hr => exact hr.grantsBoth
  | _ => exact trivial

/-- For every authority on the broker the free slots and the live ones are
exactly `0, …, limit - 1`; a granted request gets its width and its slot in one
step, a request that fails, is cancelled or still waits holds nothing; and none
of the three slot panics can be reached. -/
theorem auxiliary_slots_exact {limit : WorkerLimit} {limits : Nat → AuxiliarySlotLimit}
    {es : List BrokerEvent} {b : Broker} (h : (brokerMachine limit limits).Run es b) :
    (∀ n, (b.pools n).limit = limits n ∧
      ((b.pools n).freeSlots : Multiset Nat) + (indicesOf n b.liveSlots : Multiset Nat) =
        Multiset.range (limits n).get) ∧
    (∀ a e b', b.act a = some (.ok (e, b')) → BothOrNothing b e b') ∧
    (∀ a p, b.act a = some (.error p) → p ≠ .auxiliarySlotWasChecked ∧
      p ≠ .auxiliarySlotReturnedTwice ∧ p ≠ .auxiliarySlotsExceedLimit) := by
  have ht := slotsTile_run h
  refine ⟨?_, fun a e b' ha => bothOrNothing_step (act_step ha), ?_⟩
  · intro n
    obtain ⟨hl, hp⟩ := ht n
    exact ⟨hl, by rw [Multiset.coe_add]; exact Multiset.coe_eq_coe.mpr hp⟩
  · intro a p hp
    rcases act_panic hp with ⟨_, _, _, rfl | rfl⟩ | ⟨slot, hm, bad, _⟩
    · simp
    · simp
    · obtain ⟨notFree, room⟩ := ht.live_not_free (List.mem_append_left _ hm)
      rcases bad with twice | above
      · exact absurd twice notFree
      · omega

/-- Two authorities of two slots each on one broker: a slot of the first is held
by a grant, another one is loose after its CPU lease went back. -/
theorem auxiliary_slots_exact_two_pools :
    ∃ es b, (brokerMachine ⟨3, by decide, by decide⟩ fun _ => ⟨2, by decide, by decide⟩).Run es b ∧
      b.liveSlots = [⟨0, 0⟩, ⟨0, 1⟩, ⟨1, 0⟩] ∧
      ((b.pools 1).freeSlots : Multiset Nat) + (indicesOf 1 b.liveSlots : Multiset Nat) =
        Multiset.range 2 := by
  obtain ⟨es, b, hr, hp⟩ := Machine.run_of_exec_start
    (M := brokerMachine ⟨3, by decide, by decide⟩ fun _ => ⟨2, by decide, by decide⟩)
    [.tryAcquire false ⟨⟨1, by decide, by decide⟩, .localWork⟩ (some 0),
      .dropGrant ⟨⟨1⟩, some ⟨0, 0⟩⟩,
      .tryAcquire false ⟨⟨1, by decide, by decide⟩, .child⟩ (some 1),
      .tryAcquire false ⟨⟨2, by decide, by decide⟩, .child⟩ (some 0)]
    (fun _ b => b.liveSlots == [⟨0, 0⟩, ⟨0, 1⟩, ⟨1, 0⟩]) (by decide)
  exact ⟨es, b, hr, by simpa using hp, ((auxiliary_slots_exact hr).1 1).2⟩

end Neoethos
