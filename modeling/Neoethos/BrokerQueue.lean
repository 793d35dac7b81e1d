import Neoethos.BrokerStep
import Mathlib.Data.List.Nodup

namespace Neoethos

def Waiter.priority (w : Waiter) : CpuPriority := w.request.priority

theorem Waiter.isChild_iff {w : Waiter} : w.isChild = true ↔ w.priority = .child := by
  simp [Waiter.isChild, Waiter.priority]

def enqueuedIn (es : List BrokerEvent) : List Waiter :=
  es.filterMap fun | .enqueued w => some w | _ => none

/-- The waiters of a history in the order a blocking grant reached them. -/
def grantedIn (es : List BrokerEvent) : List Waiter :=
  es.filterMap fun | .granted w _ => some w | _ => none

def cancelledIn (es : List BrokerEvent) : List Waiter :=
  es.filterMap fun | .cancelled w => some w | _ => none

theorem mem_enqueuedIn {es : List BrokerEvent} {w : Waiter} :
    w ∈ enqueuedIn es ↔ .enqueued w ∈ es := by
  simp only [enqueuedIn, List.mem_filterMap]
  constructor
  · rintro ⟨e, he, hw⟩
    cases e <;> simp at hw
    exact hw ▸ he
  · exact fun h => ⟨_, h, rfl⟩

theorem mem_grantedIn {es : List BrokerEvent} {w : Waiter} :
    w ∈ grantedIn es ↔ ∃ grant, .granted w grant ∈ es := by
  simp only [grantedIn, List.mem_filterMap]
  constructor
  · rintro ⟨e, he, hw⟩
    cases e <;> simp at hw
    exact ⟨_, hw ▸ he⟩
  · exact fun ⟨_, h⟩ => ⟨_, h, rfl⟩

theorem mem_cancelledIn {es : List BrokerEvent} {w : Waiter} :
    w ∈ cancelledIn es ↔ .cancelled w ∈ es := by
  simp only [cancelledIn, List.mem_filterMap]
  constructor
  · rintro ⟨e, he, hw⟩
    cases e <;> simp at hw
    exact hw ▸ he
  · exact fun h => ⟨_, h, rfl⟩

def SortedIds (ws : List Waiter) : Prop := ws.Pairwise fun v w => v.id < w.id

theorem SortedIds.eq_of_id {ws : List Waiter} (h : SortedIds ws) {v w : Waiter}
    (hv : v ∈ ws) (hw : w ∈ ws) (same : v.id = w.id) : v = w := by
  by_contra hne
  obtain ⟨i, hi, rfl⟩ := List.mem_iff_getElem.mp hv
  obtain ⟨j, hj, rfl⟩ := List.mem_iff_getElem.mp hw
  rcases Nat.lt_trichotomy i j with hlt | rfl | hgt
  · have := List.pairwise_iff_getElem.mp h i j hi hj hlt
    omega
  · exact hne rfl
  · have := List.pairwise_iff_getElem.mp h j i hj hi hgt
    omega

theorem SortedIds.nodup {ws : List Waiter} (h : SortedIds ws) : ws.Nodup :=
  h.imp fun hlt heq => by subst heq; omega

/-- Removing a waiter by its id takes out exactly that waiter. -/
theorem eraseP_id_split {l r : List Waiter} {w : Waiter} (h : SortedIds (l ++ w :: r)) :
    (l ++ w :: r).eraseP (·.id == w.id) = l ++ r := by
  have before : ∀ v ∈ l, ¬(v.id == w.id) = true := by
    intro v hv
    have := (List.pairwise_append.mp h).2.2 v hv w (by simp)
    simp only [beq_iff_eq]
    omega
  rw [List.eraseP_append_right _ before, List.eraseP_cons_of_pos (by simp)]

theorem eraseP_id_eq_filter {ws : List Waiter} {w : Waiter} (h : SortedIds ws) (hm : w ∈ ws) :
    ws.eraseP (·.id == w.id) = ws.filter fun v => decide (v ≠ w) := by
  obtain ⟨l, r, rfl⟩ := List.append_of_mem hm
  have keep : ∀ v ∈ l ++ r, v ≠ w := by
    intro v hv heq
    subst heq
    exact (List.nodup_middle.mp h.nodup).notMem hv
  rw [eraseP_id_split h, List.filter_append, List.filter_cons_of_neg (by simp),
    ← List.filter_append]
  symm
  apply List.filter_eq_self.mpr
  intro v hv
  simpa using keep v hv

/-- The eligible waiter is the first one of its priority, and a local one only
when no child is queued. -/
theorem nextEligibleWaiter_split {state : BrokerState} {w : Waiter}
    (h : nextEligibleWaiter state = some w) :
    ∃ l r, state.waiters = l ++ w :: r ∧ (∀ v ∈ l, v.priority ≠ w.priority) ∧
      (w.priority = .localWork → ∀ v ∈ state.waiters, v.priority = .localWork) := by
  unfold nextEligibleWaiter at h
  cases hf : state.waiters.find? Waiter.isChild with
  | some c =>
    obtain rfl : c = w := by simpa [hf] using h
    obtain ⟨hc, l, r, hs, hl⟩ := List.find?_eq_some_iff_append.mp hf
    have child := Waiter.isChild_iff.mp hc
    refine ⟨l, r, hs, ?_, by simp [child]⟩
    intro v hv same
    have := hl v hv
    simp [Waiter.isChild_iff.mpr (same.trans child)] at this
  | none =>
    have front : state.waiters.head? = some w := by simpa [hf] using h
    obtain ⟨r, hr⟩ := List.head?_eq_some_iff.mp front
    refine ⟨[], r, hr, by simp, ?_⟩
    intro _ v hv
    have := List.find?_eq_none.mp hf v hv
    cases hp : v.priority with
    | child => exact absurd (Waiter.isChild_iff.mpr hp) this
    | localWork => rfl

/-- The history and the queue at one point of a run. Still queued waiters come
after the granted ones, and both follow the order of queueing. -/
structure QueueHistory (es : List BrokerEvent) (b : Broker) : Prop where
  sorted : SortedIds b.waiters
  below : ∀ w ∈ b.waiters, w.id < b.nextWaiterId
  enqueuedSorted : SortedIds (enqueuedIn es)
  enqueuedBelow : ∀ w ∈ enqueuedIn es, w.id < b.nextWaiterId
  cancelledEnqueued : ∀ w ∈ cancelledIn es, w ∈ enqueuedIn es
  fifo : ∀ p, (enqueuedIn es).filter (fun w => w.priority = p ∧ w ∉ cancelledIn es) =
    (grantedIn es).filter (fun w => w.priority = p) ++ b.waiters.filter fun w => w.priority = p

theorem queueHistory_new (limit : WorkerLimit) (limits : Nat → AuxiliarySlotLimit) :
    QueueHistory [] (CpuPermitBroker.new limit limits) := by
  constructor <;> simp [CpuPermitBroker.new, enqueuedIn, cancelledIn, grantedIn, SortedIds]

/-- Whoever was queued and not cancelled was granted or still waits. -/
theorem QueueHistory.mem_iff {es : List BrokerEvent} {b : Broker} (h : QueueHistory es b)
    {w : Waiter} :
    w ∈ enqueuedIn es ∧ w ∉ cancelledIn es ↔ w ∈ grantedIn es ∨ w ∈ b.waiters := by
  have fifo := congrArg (w ∈ ·) (h.fifo w.priority)
  simpa using fifo

theorem QueueHistory.not_granted {es : List BrokerEvent} {b : Broker} (h : QueueHistory es b)
    {w : Waiter} (hw : w ∈ b.waiters) : w ∉ grantedIn es := by
  intro hg
  have nodup := h.enqueuedSorted.nodup.filter
    fun v => decide (v.priority = w.priority ∧ v ∉ cancelledIn es)
  rw [h.fifo w.priority] at nodup
  exact List.disjoint_of_nodup_append nodup (List.mem_filter.mpr ⟨hg, by simp⟩)
    (List.mem_filter.mpr ⟨hw, by simp⟩)

theorem QueueHistory.other {es : List BrokerEvent} {b b' : Broker} {e : BrokerEvent}
    (h : QueueHistory es b) (hn : b'.nextWaiterId = b.nextWaiterId) (hw : b'.waiters = b.waiters)
    (he : enqueuedIn [e] = []) (hg : grantedIn [e] = []) (hc : cancelledIn [e] = []) :
    QueueHistory (es ++ [e]) b' := by
  have hee : enqueuedIn (es ++ [e]) = enqueuedIn es := by
    simp only [enqueuedIn, List.filterMap_append] at he ⊢
    simp [he]
  have hgg : grantedIn (es ++ [e]) = grantedIn es := by
    simp only [grantedIn, List.filterMap_append] at hg ⊢
    simp [hg]
  have hcc : cancelledIn (es ++ [e]) = cancelledIn es := by
    simp only [cancelledIn, List.filterMap_append] at hc ⊢
    simp [hc]
  constructor
  · rw [hw]; exact h.sorted
  · rw [hw, hn]; exact h.below
  · rw [hee]; exact h.enqueuedSorted
  · rw [hee, hn]; exact h.enqueuedBelow
  · rw [hee, hcc]; exact h.cancelledEnqueued
  · rw [hee, hgg, hcc, hw]; exact h.fifo

theorem QueueHistory.enqueued {es : List BrokerEvent} {b b' : Broker} {w : Waiter}
    (h : QueueHistory es b) (fresh : w.id = b.nextWaiterId)
    (hn : b'.nextWaiterId = b.nextWaiterId + 1) (hw : b'.waiters = b.waiters ++ [w]) :
    QueueHistory (es ++ [.enqueued w]) b' := by
  have hee : enqueuedIn (es ++ [.enqueued w]) = enqueuedIn es ++ [w] := by simp [enqueuedIn]
  have hgg : grantedIn (es ++ [.enqueued w]) = grantedIn es := by simp [grantedIn]
  have hcc : cancelledIn (es ++ [.enqueued w]) = cancelledIn es := by simp [cancelledIn]
  have notCancelled : w ∉ cancelledIn es := by
    intro hm
    have := h.enqueuedBelow w (h.cancelledEnqueued w hm)
    omega
  constructor
  · rw [hw]
    refine List.pairwise_append.mpr ⟨h.sorted, by simp, ?_⟩
    intro v hv u hu
    have := h.below v hv
    obtain rfl : u = w := by simpa using hu
    omega
  · intro v hv
    rw [hw] at hv
    rcases List.mem_append.mp hv with hv | hv
    · have := h.below v hv
      omega
    · obtain rfl : v = w := by simpa using hv
      omega
  · rw [hee]
    refine List.pairwise_append.mpr ⟨h.enqueuedSorted, by simp, ?_⟩
    intro v hv u hu
    have := h.enqueuedBelow v hv
    obtain rfl : u = w := by simpa using hu
    omega
  · intro v hv
    rw [hee] at hv
    rcases List.mem_append.mp hv with hv | hv
    · have := h.enqueuedBelow v hv
      omega
    · obtain rfl : v = w := by simpa using hv
      omega
  · intro v hv
    rw [hcc] at hv
    rw [hee]
    exact List.mem_append_left _ (h.cancelledEnqueued v hv)
  · intro p
    rw [hee, hgg, hcc, hw, List.filter_append, List.filter_append, h.fifo p, List.append_assoc]
    simp [List.filter_cons, notCancelled]

theorem QueueHistory.granted {es : List BrokerEvent} {b b' : Broker} {w : Waiter}
    {grant : CompositeAdmissionGrant} (h : QueueHistory es b)
    (eligible : nextEligibleWaiter b.toBrokerState = some w)
    (hn : b'.nextWaiterId = b.nextWaiterId) (hw : b'.waiters = b.waiters.eraseP (·.id == w.id)) :
    QueueHistory (es ++ [.granted w grant]) b' := by
  have hee : enqueuedIn (es ++ [.granted w grant]) = enqueuedIn es := by simp [enqueuedIn]
  have hgg : grantedIn (es ++ [.granted w grant]) = grantedIn es ++ [w] := by simp [grantedIn]
  have hcc : cancelledIn (es ++ [.granted w grant]) = cancelledIn es := by simp [cancelledIn]
  obtain ⟨l, r, hs, first, _⟩ := nextEligibleWaiter_split eligible
  have sorted := h.sorted
  rw [hs] at sorted
  have rest : b'.waiters = l ++ r := by rw [hw, hs, eraseP_id_split sorted]
  have sub : ∀ v ∈ b'.waiters, v ∈ b.waiters := by
    intro v hv
    rw [hw] at hv
    exact List.mem_of_mem_eraseP hv
  constructor
  · rw [hw]; exact h.sorted.sublist List.eraseP_sublist
  · intro v hv
    rw [hn]
    exact h.below v (sub v hv)
  · rw [hee]; exact h.enqueuedSorted
  · rw [hee, hn]; exact h.enqueuedBelow
  · rw [hee, hcc]; exact h.cancelledEnqueued
  · intro p
    rw [hee, hgg, hcc, h.fifo p, rest, hs, List.filter_append, List.filter_append,
      List.filter_append, List.append_assoc]
    by_cases same : w.priority = p
    · have none : l.filter (fun v => decide (v.priority = p)) = [] := by
        apply List.filter_eq_nil_iff.mpr
        intro v hv
        have := first v hv
        rw [same] at this
        simpa using this
      simp [none, same]
    · simp [same]

theorem QueueHistory.cancelled {es : List BrokerEvent} {b b' : Broker} {w : Waiter}
    (h : QueueHistory es b) (hm : w ∈ b.waiters) (hn : b'.nextWaiterId = b.nextWaiterId)
    (hw : b'.waiters = b.waiters.eraseP (·.id == w.id)) :
    QueueHistory (es ++ [.cancelled w]) b' := by
  have hee : enqueuedIn (es ++ [.cancelled w]) = enqueuedIn es := by simp [enqueuedIn]
  have hgg : grantedIn (es ++ [.cancelled w]) = grantedIn es := by simp [grantedIn]
  have hcc : cancelledIn (es ++ [.cancelled w]) = cancelledIn es ++ [w] := by simp [cancelledIn]
  constructor
  · rw [hw]; exact h.sorted.sublist List.eraseP_sublist
  · intro v hv
    rw [hw] at hv
    rw [hn]
    exact h.below v (List.mem_of_mem_eraseP hv)
  · rw [hee]; exact h.enqueuedSorted
  · rw [hee, hn]; exact h.enqueuedBelow
  · intro v hv
    rw [hcc] at hv
    rw [hee]
    rcases List.mem_append.mp hv with hv | hv
    · exact h.cancelledEnqueued v hv
    · obtain rfl : v = w := by simpa using hv
      exact (h.mem_iff.mpr (Or.inr hm)).1
  · intro p
    rw [hee, hgg, hcc, hw, eraseP_id_eq_filter h.sorted hm]
    -- drop `w` from both sides of the old equation
    have without : ((enqueuedIn es).filter fun v => v.priority = p ∧ v ∉ cancelledIn es ++ [w]) =
        ((enqueuedIn es).filter fun v => v.priority = p ∧ v ∉ cancelledIn es).filter
          fun v => decide (v ≠ w) := by
      rw [List.filter_filter]
      apply List.filter_congr
      intro v _
      by_cases hv : v = w <;> simp [hv]
    have granted : ((grantedIn es).filter fun v => v.priority = p).filter (fun v => decide (v ≠ w)) =
        (grantedIn es).filter fun v => v.priority = p := by
      apply List.filter_eq_self.mpr
      intro v hv
      have := h.not_granted hm
      simpa using fun heq : v = w => this (heq ▸ (List.mem_filter.mp hv).1)
    rw [without, h.fifo p, List.filter_append, granted, List.filter_comm]

theorem queueHistory_step {es : List BrokerEvent} {b b' : Broker} {e : BrokerEvent}
    (h : QueueHistory es b) (step : BrokerStep b e b') : QueueHistory (es ++ [e]) b' := by
  cases step with
  | enqueued fresh => exact h.enqueued fresh rfl rfl
  | cancelled hm => exact h.cancelled hm rfl rfl
  | granted hm _ grantable hr =>
    obtain ⟨⟨v, eligible, same⟩, _, _⟩ := grantable
    obtain ⟨l, r, hs, _⟩ := nextEligibleWaiter_split eligible
    have : v = _ := h.sorted.eq_of_id (by rw [hs]; simp) hm same
    subst this
    exact h.granted eligible hr.nextWaiterId hr.waiters
  | tryGranted _ hr => exact h.other hr.nextWaiterId hr.waiters rfl rfl rfl
  | _ => exact h.other rfl rfl rfl rfl rfl

theorem queueHistory_run {limit : WorkerLimit} {limits : Nat → AuxiliarySlotLimit}
    {es : List BrokerEvent} {b : Broker} (h : (brokerMachine limit limits).Run es b) :
    QueueHistory es b :=
  h.invariant (queueHistory_new limit limits)
    (fun _ _ _ _ _ _ hs hn => queueHistory_step hs (brokerMachine_step hn))

/-- A blocking grant goes to the oldest waiter of its priority, and to a local one
only when every queued waiter is local. -/
theorem QueueHistory.granted_first {es : List BrokerEvent} {b b' : Broker} {w : Waiter}
    {grant : CompositeAdmissionGrant} (h : QueueHistory es b)
    (step : BrokerStep b (.granted w grant) b') :
    w ∈ b.waiters ∧ (∀ v ∈ b.waiters, v.priority = w.priority → w.id ≤ v.id) ∧
      (w.priority = .localWork → ∀ v ∈ b.waiters, v.priority = .localWork) := by
  cases step with
  | granted hm _ grantable hr =>
    obtain ⟨⟨v, eligible, same⟩, _, _⟩ := grantable
    obtain ⟨l, r, hs, first, onlyLocal⟩ := nextEligibleWaiter_split eligible
    obtain rfl : v = w := h.sorted.eq_of_id (by rw [hs]; simp) hm same
    refine ⟨hm, ?_, onlyLocal⟩
    intro u hu samePriority
    have sorted := h.sorted
    rw [hs] at hu sorted
    rcases List.mem_append.mp hu with hu | hu
    · exact absurd samePriority (first u hu)
    · rcases List.mem_cons.mp hu with rfl | hu
      · exact Nat.le_refl _
      · exact Nat.le_of_lt ((List.pairwise_cons.mp (List.pairwise_append.mp sorted).2.1).1 u hu)

def GrantsLocal : BrokerEvent → Prop
  | .granted w _ => w.priority = .localWork
  | .tryGranted request _ _ => request.priority = .localWork
  | _ => False

/-- A step that serves a local request finds no child in the queue. -/
theorem QueueHistory.local_only {es : List BrokerEvent} {b b' : Broker} {e : BrokerEvent}
    (h : QueueHistory es b) (step : BrokerStep b e b') (he : GrantsLocal e) :
    ∀ v ∈ b.waiters, v.priority = .localWork := by
  cases e with
  | granted w grant => exact (h.granted_first step).2.2 he
  | tryGranted request pool grant =>
    cases step with
    | tryGranted empty _ => simp [empty]
  | _ => exact absurd he id

/-- A waiter that was queued is granted later, cancelled later or still queued. -/
theorem queued_until {limit : WorkerLimit} {limits : Nat → AuxiliarySlotLimit}
    {before after : List BrokerEvent} {b : Broker} {c : Waiter}
    (h : (brokerMachine limit limits).Run (before ++ .enqueued c :: after) b) :
    (∃ grant, .granted c grant ∈ after) ∨ .cancelled c ∈ after ∨ c ∈ b.waiters := by
  have hq := queueHistory_run h
  -- nothing about `c` can be in the history before it was queued: its id was not given out yet
  have split : (brokerMachine limit limits).Run ((before ++ [.enqueued c]) ++ after) b := by
    simpa using h
  obtain ⟨t, ht⟩ := split.of_append
  obtain ⟨s, a, hs, hn⟩ := ht.last
  have old := queueHistory_run hs
  have fresh : c ∉ enqueuedIn before := by
    cases brokerMachine_step hn with
    | enqueued hid =>
      intro hm
      have := old.enqueuedBelow c hm
      omega
  have notGranted : c ∉ grantedIn before := fun hm => fresh (old.mem_iff.mpr (Or.inl hm)).1
  by_cases cancelled : c ∈ cancelledIn (before ++ .enqueued c :: after)
  · have := mem_cancelledIn.mp cancelled
    simp only [List.mem_append, List.mem_cons, reduceCtorEq, false_or] at this
    rcases this with early | late
    · exact absurd (old.cancelledEnqueued c (mem_cancelledIn.mpr early)) fresh
    · exact Or.inr (Or.inl late)
  · rcases hq.mem_iff.mp ⟨mem_enqueuedIn.mpr (by simp), cancelled⟩ with granted | queued
    · obtain ⟨grant, hg⟩ := mem_grantedIn.mp granted
      simp only [List.mem_append, List.mem_cons, reduceCtorEq, false_or] at hg
      rcases hg with early | late
      · exact absurd (mem_grantedIn.mpr ⟨grant, early⟩) notGranted
      · exact Or.inl ⟨grant, late⟩
    · exact Or.inr (Or.inr queued)

/-- Priority and order of the grants over every run. -/
theorem grants_follow_priority_and_queue {limit : WorkerLimit} {limits : Nat → AuxiliarySlotLimit}
    {es : List BrokerEvent} {b : Broker} (h : (brokerMachine limit limits).Run es b) :
    (b.waiters.Pairwise fun v w => v.id < w.id) ∧
    (∀ a w grant b', b.act a = some (.ok (.granted w grant, b')) → w ∈ b.waiters ∧
      (∀ v ∈ b.waiters, v.priority = w.priority → w.id ≤ v.id) ∧
      (w.priority = .localWork → ∀ v ∈ b.waiters, v.priority ≠ .child)) ∧
    (∀ a request pool grant b', b.act a = some (.ok (.tryGranted request pool grant, b')) →
      b.waiters = []) ∧
    (∀ p, (enqueuedIn es).filter (fun w => w.priority = p ∧ w ∉ cancelledIn es) =
      (grantedIn es).filter (fun w => w.priority = p) ++
        b.waiters.filter fun w => w.priority = p) ∧
    (∀ before c between e after, es = before ++ .enqueued c :: between ++ e :: after →
      c.priority = .child → GrantsLocal e →
      (∃ grant, .granted c grant ∈ between) ∨ .cancelled c ∈ between) := by
  have hq := queueHistory_run h
  refine ⟨hq.sorted, ?_, ?_, hq.fifo, ?_⟩
  · intro a w grant b' ha
    obtain ⟨hm, oldest, onlyLocal⟩ := hq.granted_first (act_step ha)
    refine ⟨hm, oldest, fun hl v hv hc => ?_⟩
    rw [onlyLocal hl v hv] at hc
    cases hc
  · intro a request pool grant b' ha
    cases act_step ha with
    | tryGranted empty _ => exact empty
  · intro before c between e after hs child grantsLocal
    subst hs
    have split : (brokerMachine limit limits).Run
        ((before ++ .enqueued c :: between ++ [e]) ++ after) b := by simpa using h
    obtain ⟨t, ht⟩ := split.of_append
    obtain ⟨s, a, hr, hn⟩ := ht.last
    rcases queued_until hr with granted | cancelled | queued
    · exact Or.inl granted
    · exact Or.inr cancelled
    · have := (queueHistory_run hr).local_only (brokerMachine_step hn) grantsLocal c queued
      rw [child] at this
      cases this

/-- A local waiter queued first is overtaken by a child, and granted once the child is gone. -/
theorem grants_follow_priority_and_queue_overtaking :
    ∃ es b, (brokerMachine ⟨1, by decide, by decide⟩ fun _ => ⟨1, by decide, by decide⟩).Run es b ∧
      (grantedIn es).map Waiter.id = [1, 0] ∧ b.waiters.Pairwise fun v w => v.id < w.id := by
  obtain ⟨es, b, hr, hp⟩ := Machine.run_of_exec_start
    (M := brokerMachine ⟨1, by decide, by decide⟩ fun _ => ⟨1, by decide, by decide⟩)
    [.enqueue false false ⟨⟨1, by decide, by decide⟩, .localWork⟩ none,
      .enqueue false false ⟨⟨1, by decide, by decide⟩, .child⟩ none,
      .check 0 false, .check 1 false, .dropGrant ⟨⟨1⟩, none⟩, .check 0 false]
    (fun es _ => (grantedIn es).map Waiter.id == [1, 0]) (by decide)
  exact ⟨es, b, hr, by simpa using hp, (grants_follow_priority_and_queue hr).1⟩

end Neoethos
