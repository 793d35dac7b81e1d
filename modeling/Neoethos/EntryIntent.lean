import Neoethos.EntryEffects
import Neoethos.ListIndex

namespace Neoethos

open EntryStore (Quiet)

def fileIntent : Option EntryCheckpointFile → Option AccountEntryIntent
  | some (.v2 checkpoint) => checkpoint.unresolvedIntent
  | _ => none

/-- The unresolved intent is this client's, in the file and in a living process, and the process
knows the order id that the file knows. -/
def Held (file : Option EntryCheckpointFile) (memory : Option AccountEntryAuthority)
    (c : String) : Prop :=
  ∃ f, fileIntent file = some f ∧ f.clientOrderId = c ∧ ∀ a, memory = some a →
    ∃ i, a.unresolvedIntent = some i ∧ i.clientOrderId = c ∧
      (f.acceptedOrderId = none ∨ f.acceptedOrderId = i.acceptedOrderId)

theorem Held.intent {file : Option EntryCheckpointFile} {a : AccountEntryAuthority} {c : String}
    (h : Held file (some a) c) : ∃ i, a.unresolvedIntent = some i ∧ i.clientOrderId = c := by
  obtain ⟨_, _, _, hmemory⟩ := h
  obtain ⟨i, hi, hc, _⟩ := hmemory a rfl
  exact ⟨i, hi, hc⟩

theorem Held.dies {file : Option EntryCheckpointFile} {memory : Option AccountEntryAuthority}
    {c : String} (h : Held file memory c) : Held file none c := by
  obtain ⟨f, hf, hc, _⟩ := h
  exact ⟨f, hf, hc, by simp⟩

theorem held_written {a : AccountEntryAuthority} {i : AccountEntryIntent}
    (h : a.unresolvedIntent = some i) : Held (some (.v2 a.checkpoint)) (some a) i.clientOrderId :=
  ⟨i, h, rfl, fun a' ha => ⟨i, by rw [← Option.some.inj ha, h], rfl, .inr rfl⟩⟩

theorem Held.quiet {s s' : EntryStore} {c : String} (h : Held s.file (some s.memory) c)
    (hq : Quiet s s') : Held s'.file (some s'.memory) c := by
  obtain ⟨hintent, _, hfile⟩ := hq
  obtain hfile | hfile := hfile
  · obtain ⟨f, hf, hc, hmemory⟩ := h
    obtain ⟨i, hi, hic, hid⟩ := hmemory s.memory rfl
    refine ⟨f, by rw [hfile, hf], hc, ?_⟩
    intro a ha
    exact ⟨i, by rw [← Option.some.inj ha, hintent, hi], hic, hid⟩
  · obtain ⟨i, hi, rfl⟩ := h.intent
    rw [hfile]
    exact held_written (hintent.trans hi)

/-- What holds of the intents and markers in every world that is reached. -/
structure IntentInvariant (w : EntryWorld) : Prop where
  fresh : ∀ t ∈ w.attempts, t.marker < w.nextMarker
  distinct : (w.attempts.map (·.marker)).Nodup
  begun : ∀ t ∈ w.attempts, ∀ c, t.stage = .begun c → c ∉ w.confirmed →
    Held w.file w.memory c ∧
      ∀ a, w.memory = some a → a.currentSubmissionMarker = some t.marker
  sent : ∀ c ∈ w.sent, c ∉ w.confirmed →
    Held w.file w.memory c ∧
      ∀ a m, w.memory = some a → a.currentSubmissionMarker = some m → m ∈ w.started
  dead : w.memory = none → w.attempts = []

namespace IntentInvariant

variable {w : EntryWorld} {a : AccountEntryAuthority}

theorem start (file : Option EntryCheckpointFile) (legacy : Option LegacyRiskFile) :
    IntentInvariant (.start file legacy) := by
  refine ⟨?_, ?_, ?_, ?_, ?_⟩ <;> simp [EntryWorld.start]

/-- With no intent in memory, whatever was begun or sent has been confirmed. -/
theorem all_confirmed (hi : IntentInvariant w) (hmemory : w.memory = some a)
    (hnone : a.unresolvedIntent = none) :
    (∀ t ∈ w.attempts, ∀ c, t.stage = .begun c → c ∈ w.confirmed) ∧
      ∀ c ∈ w.sent, c ∈ w.confirmed := by
  constructor
  · intro t ht c hc
    by_contra hopen
    obtain ⟨hheld, _⟩ := hi.begun t ht c hc hopen
    rw [hmemory] at hheld
    obtain ⟨i, hintent, _⟩ := hheld.intent
    rw [hnone] at hintent
    simp at hintent
  · intro c hc
    by_contra hopen
    obtain ⟨hheld, _⟩ := hi.sent c hc hopen
    rw [hmemory] at hheld
    obtain ⟨i, hintent, _⟩ := hheld.intent
    rw [hnone] at hintent
    simp at hintent

theorem quiet (hi : IntentInvariant w) (hmemory : w.memory = some a) {s' : EntryStore}
    (hq : Quiet ⟨a, w.file⟩ s') : IntentInvariant (w.store s') := by
  refine ⟨hi.fresh, hi.distinct, ?_, ?_, by simp [EntryWorld.store]⟩
  · intro t ht c hc hopen
    obtain ⟨hheld, hmarker⟩ := hi.begun t ht c hc hopen
    rw [hmemory] at hheld
    refine ⟨Held.quiet (s := ⟨a, w.file⟩) hheld hq, ?_⟩
    intro a' ha'
    rw [← Option.some.inj ha', hq.2.1]
    exact hmarker a hmemory
  · intro c hc hopen
    obtain ⟨hheld, hmarker⟩ := hi.sent c hc hopen
    rw [hmemory] at hheld
    refine ⟨Held.quiet (s := ⟨a, w.file⟩) hheld hq, ?_⟩
    intro a' m ha' hm
    rw [← Option.some.inj ha', hq.2.1] at hm
    exact hmarker a m hmemory hm

theorem distinct_set (hi : IntentInvariant w) {i : Nat} {t t' : EntryAttempt}
    (hget : w.attempts[i]? = some t) (hmarker : t'.marker = t.marker) :
    (List.map EntryAttempt.marker (w.attempts.set i t')).Nodup := by
  rw [ListIndex.map_set_of_eq hget hmarker]
  exact hi.distinct

theorem fresh_set (hi : IntentInvariant w) {i : Nat} {t t' : EntryAttempt}
    (hget : w.attempts[i]? = some t) (hmarker : t'.marker = t.marker) :
    ∀ u ∈ w.attempts.set i t', u.marker < w.nextMarker := by
  intro u hu
  obtain rfl | ⟨j, _, hj⟩ := ListIndex.mem_set_cases hu
  · rw [hmarker]
    exact hi.fresh t (List.mem_of_getElem? hget)
  · exact hi.fresh u (List.mem_of_getElem? hj)

theorem setAttempt (hi : IntentInvariant w) {i : Nat} {t t' : EntryAttempt}
    (hget : w.attempts[i]? = some t) (hmarker : t'.marker = t.marker)
    (hstage : ∀ c, t'.stage ≠ .begun c) : IntentInvariant (w.setAttempt i t') := by
  refine ⟨hi.fresh_set hget hmarker, hi.distinct_set hget hmarker, ?_, hi.sent, ?_⟩
  · intro u hu c hc
    obtain rfl | ⟨j, _, hj⟩ := ListIndex.mem_set_cases hu
    · exact absurd hc (hstage c)
    · exact hi.begun u (List.mem_of_getElem? hj) c hc
  · intro hnone
    have hempty := hi.dead hnone
    rw [hempty] at hget
    simp at hget

theorem reserved (hi : IntentInvariant w) (hmemory : w.memory ≠ none) (dayId : Nat) :
    IntentInvariant { w with
      attempts := w.attempts ++ [⟨dayId, w.nextMarker, .reserved⟩]
      nextMarker := w.nextMarker + 1 } := by
  refine ⟨?_, ?_, ?_, hi.sent, fun hnone => absurd hnone hmemory⟩
  · intro t ht
    obtain ht | ht := List.mem_append.mp ht
    · have := hi.fresh t ht
      show t.marker < w.nextMarker + 1
      omega
    · rw [List.mem_singleton.mp ht]
      show w.nextMarker < w.nextMarker + 1
      omega
  · show (List.map EntryAttempt.marker (w.attempts ++ [⟨dayId, w.nextMarker, .reserved⟩])).Nodup
    rw [List.map_append, List.nodup_append]
    refine ⟨hi.distinct, by simp, ?_⟩
    intro m hm m' hm'
    obtain ⟨t, ht, rfl⟩ := List.mem_map.mp hm
    have hlast : m' = w.nextMarker := by simpa using hm'
    have := hi.fresh t ht
    omega
  · intro t ht c hc
    obtain ht | ht := List.mem_append.mp ht
    · exact hi.begun t ht c hc
    · rw [List.mem_singleton.mp ht] at hc
      simp at hc

/-- A submission that finds no unresolved intent, and leaves its own. -/
theorem beginSubmission (hi : IntentInvariant w) (hmemory : w.memory = some a)
    (hnone : a.unresolvedIntent = none) {i : Nat} {dayId marker : Nat}
    (hget : w.attempts[i]? = some ⟨dayId, marker, .reserved⟩) {s' : EntryStore}
    {intent : AccountEntryIntent} (hintent : s'.memory.unresolvedIntent = some intent)
    (hmarker : s'.memory.currentSubmissionMarker = some marker)
    (hfile : s'.file = some (.v2 s'.memory.checkpoint)) :
    IntentInvariant ((w.store s').setAttempt i ⟨dayId, marker, .begun intent.clientOrderId⟩) := by
  obtain ⟨hbegun, hsent⟩ := hi.all_confirmed hmemory hnone
  refine ⟨hi.fresh_set hget rfl, hi.distinct_set hget rfl, ?_,
    fun c hc hopen => absurd (hsent c hc) hopen, ?_⟩
  · intro u hu c hc hopen
    obtain rfl | ⟨j, _, hj⟩ := ListIndex.mem_set_cases hu
    · obtain rfl : intent.clientOrderId = c := AttemptStage.begun.inj hc
      refine ⟨?_, ?_⟩
      · show Held s'.file (some s'.memory) intent.clientOrderId
        rw [hfile]
        exact held_written hintent
      · intro a' ha'
        rw [← Option.some.inj ha', hmarker]
    · exact absurd (hbegun u (List.mem_of_getElem? hj) c hc) hopen
  · intro h
    simp [EntryWorld.store, EntryWorld.setAttempt] at h

/-- Whatever happens to the intent when everything begun or sent is confirmed. -/
theorem store_of_confirmed (hi : IntentInvariant w)
    (hbegun : ∀ t ∈ w.attempts, ∀ c, t.stage = .begun c → c ∈ w.confirmed)
    (hsent : ∀ c ∈ w.sent, c ∈ w.confirmed) (s' : EntryStore) : IntentInvariant (w.store s') :=
  ⟨hi.fresh, hi.distinct, fun t ht c hc hopen => absurd (hbegun t ht c hc) hopen,
    fun c hc hopen => absurd (hsent c hc) hopen, by simp [EntryWorld.store]⟩

theorem send (hi : IntentInvariant w) {i : Nat} {dayId marker : Nat} {c : String}
    (hget : w.attempts[i]? = some ⟨dayId, marker, .begun c⟩) :
    IntentInvariant { w.setAttempt i ⟨dayId, marker, .sent c⟩ with
      started := marker :: w.started
      sent := c :: w.sent } := by
  have hset : IntentInvariant (w.setAttempt i ⟨dayId, marker, .sent c⟩) :=
    hi.setAttempt hget rfl (by simp)
  refine ⟨hset.fresh, hset.distinct, hset.begun, ?_, hset.dead⟩
  intro c' hc' hopen
  obtain rfl | hc' := List.mem_cons.mp hc'
  · obtain ⟨hheld, hmarker⟩ := hi.begun _ (List.mem_of_getElem? hget) c' rfl hopen
    refine ⟨hheld, ?_⟩
    intro a m ha hm
    rw [hmarker a ha] at hm
    exact List.mem_cons.mpr (.inl (Option.some.inj hm).symm)
  · obtain ⟨hheld, hmarker⟩ := hi.sent c' hc' hopen
    exact ⟨hheld, fun a m ha hm => List.mem_cons_of_mem _ (hmarker a m ha hm)⟩

theorem record (hi : IntentInvariant w) (hmemory : w.memory = some a) {s' : EntryStore}
    {intent : AccountEntryIntent} {orderId : Int} (hintent : a.unresolvedIntent = some intent)
    (hfree : intent.acceptedOrderId = none ∨ intent.acceptedOrderId = some orderId)
    (hnext : s'.memory = { a with
      unresolvedIntent := some { intent with acceptedOrderId := some orderId } })
    (hfile : s'.file = some (.v2 s'.memory.checkpoint) ∨ s'.file = w.file) :
    IntentInvariant (w.store s') := by
  have hheld : ∀ c, Held w.file w.memory c → Held s'.file (some s'.memory) c := by
    intro c hheld
    rw [hmemory] at hheld
    obtain ⟨f, hf, hc, hknown⟩ := hheld
    obtain ⟨i, hi, hic, hid⟩ := hknown a rfl
    obtain rfl := Option.some.inj (hintent.symm.trans hi)
    have hmem : s'.memory.unresolvedIntent =
        some { intent with acceptedOrderId := some orderId } := by rw [hnext]
    obtain hfile | hfile := hfile
    · have hwritten := held_written hmem
      rw [hfile]
      exact hic ▸ hwritten
    · refine ⟨f, by rw [hfile, hf], hc, ?_⟩
      intro a' ha'
      refine ⟨{ intent with acceptedOrderId := some orderId },
        by rw [← Option.some.inj ha', hmem], hic, ?_⟩
      obtain hid | hid := hid
      · exact .inl hid
      · rw [hid]
        exact hfree
  refine ⟨hi.fresh, hi.distinct, ?_, ?_, by simp [EntryWorld.store]⟩
  · intro t ht c hc hopen
    obtain ⟨hold, hmarker⟩ := hi.begun t ht c hc hopen
    refine ⟨hheld c hold, ?_⟩
    intro a' ha'
    rw [← Option.some.inj ha', hnext]
    exact hmarker a hmemory
  · intro c hc hopen
    obtain ⟨hold, hmarker⟩ := hi.sent c hc hopen
    refine ⟨hheld c hold, ?_⟩
    intro a' m ha' hm
    rw [← Option.some.inj ha', hnext] at hm
    exact hmarker a m hmemory hm

theorem recordContext (hi : IntentInvariant w) (hmemory : w.memory = some a)
    (clientOrderId : String) (context : UnresolvedExecution) (writes : Bool) :
    IntentInvariant (w.store
      ((⟨a, w.file⟩ : EntryStore).recordUnresolvedContext clientOrderId context writes).1) := by
  obtain ⟨hsame, _⟩ | ⟨intent, orderId, hintent, _, hfree, hnext, hfile⟩ :=
    EntryStore.recordUnresolvedContext_cases ⟨a, w.file⟩ clientOrderId context writes
  · exact hi.quiet hmemory (by rw [hsame]; exact .refl _)
  · exact hi.record hmemory hintent hfree hnext (hfile.imp id And.left)

/-- A confirmed opening clears the intent of its own client; with that one confirmed, nothing that
was begun or sent is open. -/
theorem confirm (hi : IntentInvariant w) (hmemory : w.memory = some a)
    {intent : AccountEntryIntent} (hintent : a.unresolvedIntent = some intent) (s' : EntryStore) :
    IntentInvariant { w.store s' with confirmed := intent.clientOrderId :: w.confirmed } := by
  have hclosed : ∀ c, Held w.file w.memory c → c = intent.clientOrderId := by
    intro c hheld
    rw [hmemory] at hheld
    obtain ⟨i, hi, rfl⟩ := hheld.intent
    rw [Option.some.inj (hintent.symm.trans hi)]
  refine ⟨hi.fresh, hi.distinct, ?_, ?_, by simp [EntryWorld.store]⟩
  · intro t ht c hc hopen
    rw [List.mem_cons, not_or] at hopen
    exact absurd (hclosed c (hi.begun t ht c hc hopen.2).1) hopen.1
  · intro c hc hopen
    rw [List.mem_cons, not_or] at hopen
    exact absurd (hclosed c (hi.sent c hc hopen.2).1) hopen.1

/-- The attempt that the bound marker belongs to lets go of its intent. -/
theorem released (hi : IntentInvariant w) (hmemory : w.memory = some a) {i : Nat}
    {t : EntryAttempt} (hget : w.attempts[i]? = some t)
    (hbound : a.currentSubmissionMarker = some t.marker) (hstarted : t.marker ∉ w.started)
    (s' : EntryStore) :
    IntentInvariant ((w.store s').setAttempt i ⟨t.dayId, t.marker, .released⟩) := by
  refine ⟨hi.fresh_set hget rfl, hi.distinct_set hget rfl, ?_, ?_, ?_⟩
  · intro u hu c hc hopen
    obtain rfl | ⟨j, hji, hj⟩ := ListIndex.mem_set_cases hu
    · simp at hc
    · have hmarker := (hi.begun u (List.mem_of_getElem? hj) c hc hopen).2 a hmemory
      rw [hbound] at hmarker
      have hj' : w.attempts[j]? = some u := hj
      have hne : u.marker ≠ t.marker := by
        apply ListIndex.ne_of_nodup hi.distinct hji
        · rw [List.getElem?_map, hj']
          rfl
        · rw [List.getElem?_map, hget]
          rfl
      exact absurd (Option.some.inj hmarker).symm hne
  · intro c hc hopen
    exact absurd ((hi.sent c hc hopen).2 a t.marker hmemory hbound) hstarted
  · intro h
    simp [EntryWorld.store, EntryWorld.setAttempt] at h

end IntentInvariant

end Neoethos
