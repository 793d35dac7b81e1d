import Neoethos.EntryBlocked

namespace Neoethos

open EntryStore (Quiet)

/-- The intent stays, and its order id where it has one; the file stays, or takes over memory. -/
def EntryStore.Advances (s s' : EntryStore) : Prop :=
  ∃ i i', s.memory.unresolvedIntent = some i ∧ s'.memory.unresolvedIntent = some i' ∧
    (i.acceptedOrderId = none ∨ i'.acceptedOrderId = i.acceptedOrderId) ∧
    (s'.file = s.file ∨ s'.file = some (.v2 s'.memory.checkpoint))

open EntryStore (Advances)

theorem EntryStore.Quiet.advances {s s' : EntryStore} (h : Quiet s s') {i : AccountEntryIntent}
    (hi : s.memory.unresolvedIntent = some i) : Advances s s' :=
  ⟨i, i, hi, h.1.trans hi, .inr rfl, h.2.2⟩

theorem recordUnresolvedContext_advances {s : EntryStore} {i : AccountEntryIntent}
    (hi : s.memory.unresolvedIntent = some i) (clientOrderId : String)
    (context : UnresolvedExecution) (writes : Bool) :
    Advances s (s.recordUnresolvedContext clientOrderId context writes).1 := by
  obtain ⟨hsame, _⟩ | ⟨intent, orderId, hintent, _, hfree, hnext, hfile⟩ :=
    s.recordUnresolvedContext_cases clientOrderId context writes
  · rw [hsame]
    exact (Quiet.refl s).advances hi
  · refine ⟨intent, _, hintent, by rw [hnext], hfree.imp id Eq.symm, ?_⟩
    exact hfile.symm.imp And.left id

/-- What a later world still knows of the order ids of an earlier one: the file all of it, a
process of the same generation all that memory held. -/
structure KeepsIds (w w' : EntryWorld) : Prop where
  file : ∀ x, w.fileAccepted = some x → w'.fileAccepted = some x
  generation : w.generation ≤ w'.generation
  dead : w'.generation = w.generation → w.memory = none → w'.memory = none
  memory : w'.generation = w.generation → w'.memory = none ∨
    ∀ x, w.memoryAccepted = some x → w'.memoryAccepted = some x

theorem KeepsIds.refl (w : EntryWorld) : KeepsIds w w :=
  ⟨fun _ h => h, Nat.le_refl _, fun _ h => h, fun _ => .inr fun _ h => h⟩

theorem KeepsIds.trans {u v w : EntryWorld} (huv : KeepsIds u v) (hvw : KeepsIds v w) :
    KeepsIds u w := by
  have hu := huv.generation
  have hv := hvw.generation
  refine ⟨fun x h => hvw.file x (huv.file x h), by omega, ?_, ?_⟩
  · intro hsame hdead
    exact hvw.dead (by omega) (huv.dead (by omega) hdead)
  · intro hsame
    obtain hdead | hkeep := huv.memory (by omega)
    · exact .inl (hvw.dead (by omega) hdead)
    · obtain hdead | hkeep' := hvw.memory (by omega)
      · exact .inl hdead
      · exact .inr fun x h => hkeep' x (hkeep x h)

theorem EntryStore.Advances.keepsIds {w w' : EntryWorld} {a : AccountEntryAuthority} {c : String}
    (hmemory : w.memory = some a) {s' : EntryStore} (h : Advances ⟨a, w.file⟩ s')
    (hheld : Held w.file w.memory c) (hnext : w'.memory = some s'.memory)
    (hfile : w'.file = s'.file) (hgeneration : w'.generation = w.generation) : KeepsIds w w' := by
  obtain ⟨i, i', hi, hi', hid, hwritten⟩ := h
  have hi : a.unresolvedIntent = some i := hi
  have hmem : w'.memoryAccepted = i'.acceptedOrderId := by
    simp [EntryWorld.memoryAccepted, hnext, hi']
  have hold : w.memoryAccepted = i.acceptedOrderId := by
    simp [EntryWorld.memoryAccepted, hmemory, hi]
  refine ⟨?_, Nat.le_of_eq hgeneration.symm, fun _ hdead => by simp [hmemory] at hdead, fun _ => .inr ?_⟩
  · intro x hx
    rw [hmemory] at hheld
    obtain ⟨f, hf, _, hknown⟩ := hheld
    obtain ⟨j, hj, _, hfj⟩ := hknown a rfl
    obtain rfl := Option.some.inj (hi.symm.trans hj)
    have hfx : f.acceptedOrderId = some x := by simpa [EntryWorld.fileAccepted, hf] using hx
    obtain hsame | hwritten := hwritten
    · simp [EntryWorld.fileAccepted, hfile, hsame, hf, hfx]
    · have hix : i.acceptedOrderId = some x := by
        obtain hnone | hfj := hfj
        · rw [hfx] at hnone
          simp at hnone
        · rw [← hfj, hfx]
      have hix' : i'.acceptedOrderId = some x := by
        obtain hnone | hid := hid
        · rw [hix] at hnone
          simp at hnone
        · rw [hid, hix]
      have hfileIntent : fileIntent w'.file = some i' := by
        rw [hfile, hwritten]
        exact hi'
      simp [EntryWorld.fileAccepted, hfileIntent, hix']
  · intro x hx
    rw [hold] at hx
    rw [hmem]
    obtain hnone | hid := hid
    · rw [hx] at hnone
      simp at hnone
    · rw [hid, hx]

/-- While an order is unresolved, the living process only advances its intent, until it dies. -/
theorem IntentInvariant.call_keepsIds {w w' : EntryWorld} (hi : IntentInvariant w) {c : String}
    (hc : c ∈ w.sent) (hopen : c ∉ w'.confirmed) {a : AccountEntryAuthority}
    (hmemory : w.memory = some a) {act : EntryAct}
    (hstill : c ∉ w.confirmed) (h : w.CallStep ⟨a, w.file⟩ act w') : KeepsIds w w' := by
  obtain ⟨hheld, hstarted⟩ := hi.sent c hc hstill
  have hheldAlive := hheld
  rw [hmemory] at hheldAlive
  obtain ⟨intent, hintent, hclient⟩ := hheldAlive.intent
  have hquiet : ∀ s', Quiet ⟨a, w.file⟩ s' → ∀ w'', w''.memory = some s'.memory →
      w''.file = s'.file → w''.generation = w.generation → KeepsIds w w'' :=
    fun s' hq w'' hnext hfile hgeneration =>
      (hq.advances hintent).keepsIds hmemory hheld hnext hfile hgeneration
  cases h with
  | @prepared dayId writes =>
    exact hquiet _ (EntryStore.prepareDay_quiet _ dayId writes) _ rfl rfl rfl
  | @reserved dayId cap writes | @notReserved dayId cap writes =>
    exact hquiet _ (EntryStore.tryReserveEntry_quiet _ dayId cap writes) _ rfl rfl rfl
  | @begun i dayId marker request nowUtcMs writes
  | @refused i dayId marker request nowUtcMs writes =>
    obtain ⟨hsame, _⟩ | ⟨hnone, _⟩ :=
      EntryStore.beginSubmission_cases ⟨a, w.file⟩ dayId request marker false nowUtcMs writes
    · exact hquiet _ (by rw [hsame]; exact .refl _) _ rfl rfl rfl
    · rw [hintent] at hnone
      simp at hnone
  | sent => exact hquiet _ (.refl _) _ hmemory rfl rfl
  | @errorRecorded clientOrderId context writes =>
    cases context with
    | none => exact hquiet _ (.refl _) _ rfl rfl rfl
    | some context =>
      exact (recordUnresolvedContext_advances hintent clientOrderId context writes).keepsIds
        hmemory hheld rfl rfl rfl
  | @outcomeRecorded clientOrderId environment outcome writes =>
    obtain h | ⟨context, h⟩ := EntryStore.recordUnresolvedOutcome_cases ⟨a, w.file⟩ clientOrderId
      environment outcome writes
    · exact hquiet _ (by rw [h]; exact .refl _) _ rfl rfl rfl
    · rw [h]
      exact (recordUnresolvedContext_advances hintent clientOrderId context writes).keepsIds
        hmemory hheld rfl rfl rfl
  | @confirmed clientOrderId opening writes hok =>
    obtain ⟨_, herror⟩ | ⟨_, i, hi', hclient'⟩ :=
      EntryStore.confirmVerifiedOpening_cases ⟨a, w.file⟩ clientOrderId opening writes
    · rw [herror] at hok
      simp at hok
    · have hsame : clientOrderId = c := by
        rw [← hclient', ← hclient, Option.some.inj (hi'.symm.trans hintent)]
      exact absurd (List.mem_cons.mpr (.inl hsame.symm)) hopen
  | @notConfirmed clientOrderId opening writes hno =>
    obtain ⟨hsame, _⟩ | ⟨hok, _⟩ :=
      EntryStore.confirmVerifiedOpening_cases ⟨a, w.file⟩ clientOrderId opening writes
    · exact hquiet _ (by rw [hsame]; exact .refl _) _ rfl rfl rfl
    · rw [hok] at hno
      simp at hno
  | @released i dayId marker writes | @notReleased i dayId marker writes =>
    exact hquiet _ (EntryStore.releaseEntry_quiet ⟨a, w.file⟩ dayId writes) _ rfl rfl rfl
  | @unsentReleased i dayId marker stage clientOrderId writes
  | @unsentNotReleased i dayId marker stage clientOrderId writes =>
    obtain hq | ⟨hmarker, hbound, _⟩ := EntryStore.releaseUnsentEntry_cases
      ⟨a, w.file⟩ dayId clientOrderId marker (marker ∈ w.started) writes
    · exact hquiet _ hq _ rfl rfl rfl
    · exact absurd (hstarted a marker hmemory hbound) (of_decide_eq_false hmarker)
  | crashed => exact ⟨fun _ hx => hx, Nat.le_refl _, fun _ _ => rfl, fun _ => .inl rfl⟩

theorem EntryWorld.CallStep.histories {w w' : EntryWorld} {s : EntryStore} {act : EntryAct}
    (h : w.CallStep s act w') :
    (∀ c ∈ w.sent, c ∈ w'.sent) ∧ ∀ c ∈ w.confirmed, c ∈ w'.confirmed := by
  cases h with
  | sent => exact ⟨fun _ hc => List.mem_cons_of_mem _ hc, fun _ hc => hc⟩
  | confirmed => exact ⟨fun _ hc => hc, fun _ hc => List.mem_cons_of_mem _ hc⟩
  | _ => exact ⟨fun _ hc => hc, fun _ hc => hc⟩

theorem EntryWorld.next_histories {w w' : EntryWorld} {identity : AccountRiskIdentity}
    {act : EntryAct} {e : Bool} (h : EntryWorld.next identity w act = some (e, w')) :
    (∀ c ∈ w.sent, c ∈ w'.sent) ∧ ∀ c ∈ w.confirmed, c ∈ w'.confirmed := by
  obtain ⟨a, _, hcall⟩ | ⟨_, rfl | ⟨writes, s, _, rfl⟩⟩ := next_step h
  · exact hcall.histories
  · exact ⟨fun _ hc => hc, fun _ hc => hc⟩
  · exact ⟨fun _ hc => hc, fun _ hc => hc⟩

/-- A step keeps the order ids of an order that is unresolved before it and after it. -/
theorem IntentInvariant.next_keepsIds {w w' : EntryWorld} (hi : IntentInvariant w) {c : String}
    {identity : AccountRiskIdentity} {act : EntryAct} {e : Bool}
    (h : EntryWorld.next identity w act = some (e, w')) (hc : c ∈ w.sent)
    (hopen : c ∉ w'.confirmed) : KeepsIds w w' := by
  have hstill : c ∉ w.confirmed := fun hdone => hopen ((EntryWorld.next_histories h).2 c hdone)
  obtain ⟨a, hmemory, hcall⟩ | ⟨hdead, rfl | ⟨writes, s, hacquire, rfl⟩⟩ := EntryWorld.next_step h
  · exact hi.call_keepsIds hc hopen hmemory hstill hcall
  · exact .refl _
  · obtain ⟨hheld, _⟩ := hi.sent c hc hstill
    rw [hdead] at hheld
    obtain ⟨hfile, _, _⟩ := acquireEntry_held hacquire hheld
    refine ⟨?_, Nat.le_succ _, ?_, ?_⟩
    · intro x hx
      rw [← hx]
      simp only [EntryWorld.fileAccepted, EntryWorld.store, hfile]
    · intro hsame
      exact absurd hsame (Nat.succ_ne_self _)
    · intro hsame
      exact absurd hsame (Nat.succ_ne_self _)

section Runs

variable {identity : AccountRiskIdentity} {file : Option EntryCheckpointFile}
  {legacy : Option LegacyRiskFile} {w w' : EntryWorld} {c : String}

theorem later_confirmed (hlater : (entryMachine identity file legacy).Later w w')
    (hc : c ∈ w.confirmed) : c ∈ w'.confirmed := by
  induction hlater with
  | refl => exact hc
  | tail _ hstep ih =>
    obtain ⟨act, e, hnext⟩ := hstep
    exact (EntryWorld.next_histories hnext).2 c ih

/-- Order ids stay through every run of steps that leaves the order unresolved. -/
theorem later_keepsIds (hi : IntentInvariant w)
    (hlater : (entryMachine identity file legacy).Later w w') (hc : c ∈ w.sent)
    (hopen : c ∉ w'.confirmed) : KeepsIds w w' := by
  induction hlater using Relation.ReflTransGen.head_induction_on with
  | refl => exact .refl _
  | head hstep hrest ih =>
    obtain ⟨act, e, hnext⟩ := hstep
    have hstill := fun hdone => hopen (later_confirmed hrest hdone)
    have hkeep := hi.next_keepsIds hnext hc hstill
    exact hkeep.trans (ih (hi.next hnext) ((EntryWorld.next_histories hnext).1 c hc))

theorem intentInvariant_run {es : List Bool} (h : (entryMachine identity file legacy).Run es w) :
    IntentInvariant w :=
  h.state_invariant (IntentInvariant.start file legacy) fun _ _ _ _ hi hn => hi.next hn

/-- An order id that a record call has returned `Ok` for is in the file. -/
theorem recorded_durable {s : EntryStore} {clientOrderId : String} {context : UnresolvedExecution}
    {writes : Bool} {x : Int} (hid : context.acceptedOrderId = some x)
    (hok : (s.recordUnresolvedContext clientOrderId context writes).2.isOk = true) :
    (fileIntent (s.recordUnresolvedContext clientOrderId context writes).1.file).bind
      (·.acceptedOrderId) = some x := by
  obtain ⟨_, hnone⟩ | ⟨intent, orderId, _, hid', _, hnext, hfile⟩ :=
    s.recordUnresolvedContext_cases clientOrderId context writes
  · rw [hnone hok] at hid
    simp at hid
  · obtain rfl := Option.some.inj (hid.symm.trans hid')
    obtain hfile | ⟨_, herror⟩ := hfile
    · rw [hfile, hnext]
      rfl
    · rw [hok] at herror
      simp at herror

/-- While an order that was sent has no confirmed opening, its intent stands in the file and in
memory, every reservation, submission and release is refused, no other order is unresolved, and
an accepted order id stays: in the file for good, in memory as long as the process lives. -/
theorem unresolved_entry_blocks (identity : AccountRiskIdentity)
    (file : Option EntryCheckpointFile) (legacy : Option LegacyRiskFile) (es : List Bool)
    (w : EntryWorld) (hrun : (entryMachine identity file legacy).Run es w) (c : String)
    (hc : w.Unresolved c) :
    (∃ f, fileIntent w.file = some f ∧ f.clientOrderId = c) ∧
    (∀ a, w.memory = some a → ∃ i, a.unresolvedIntent = some i ∧ i.clientOrderId = c) ∧
    w.Blocked ∧ (∀ c', w.Unresolved c' → c' = c) ∧
    (∀ w', (entryMachine identity file legacy).Later w w' → c ∉ w'.confirmed →
      (∀ x, w.fileAccepted = some x → w'.fileAccepted = some x) ∧
      (w'.generation = w.generation → w'.memory ≠ none →
        ∀ x, w.memoryAccepted = some x → w'.memoryAccepted = some x)) ∧
    ∀ a client context writes x, w.memory = some a → context.acceptedOrderId = some x →
      ((⟨a, w.file⟩ : EntryStore).recordUnresolvedContext client context writes).2.isOk = true →
      ∀ e w', EntryWorld.next identity w (.recordError client (some context) writes) =
        some (e, w') → w'.fileAccepted = some x := by
  have hi := intentInvariant_run hrun
  have hheld := (hi.sent c hc.1 hc.2).1
  refine ⟨?_, ?_, hi.blocked hc, fun c' hc' => hi.unresolved_unique hc hc', ?_, ?_⟩
  · obtain ⟨f, hf, hclient, _⟩ := hheld
    exact ⟨f, hf, hclient⟩
  · intro a hmemory
    rw [hmemory] at hheld
    exact hheld.intent
  · intro w' hlater hopen
    have hkeep := later_keepsIds hi hlater hc.1 hopen
    refine ⟨hkeep.file, ?_⟩
    intro hsame halive
    exact (hkeep.memory hsame).resolve_left halive
  · intro a client context writes x hmemory hid hok e w' hnext
    simp only [EntryWorld.next, hmemory, EntryWorld.call] at hnext
    obtain ⟨_, rfl⟩ := Prod.mk.inj (Option.some.inj hnext)
    exact recorded_durable hid hok

end Runs

/-- A demo account with no files, one entry reserved, begun and sent. -/
def sampleEntryIdentity : AccountRiskIdentity := ⟨"demo", 42, "EUR"⟩

def sampleEntryRequest : ExecutionRequest :=
  ⟨"demo", some 42, some ⟨42, 1, .market, "BUY", 100000, some "entry-1"⟩⟩

def sampleSentEntry : List EntryAct :=
  [.restart true, .prepareDay 20260908 true, .reserve 20260908 none true,
    .beginSubmission 0 sampleEntryRequest 1700000000000 true, .send 0]

def sampleAccepted (orderId : Int) : UnresolvedExecution :=
  ⟨"demo", 42, some "entry-1", some orderId⟩

theorem sampleSentEntry_blocks : ∃ (es : List Bool) (w : EntryWorld),
    (entryMachine sampleEntryIdentity none none).Run es w ∧ w.Unresolved "entry-1" ∧
      w.memory.isSome = true ∧ w.Blocked := by
  have hexec : ((entryMachine sampleEntryIdentity none none).exec []
      (entryMachine sampleEntryIdentity none none).start sampleSentEntry).any (fun r =>
        (r.2.sent = ["entry-1"] ∧ r.2.confirmed = []) ∧ r.2.memory.isSome = true) := by
    decide +kernel
  obtain ⟨es, w, hrun, hw⟩ := Machine.run_of_exec_start sampleSentEntry
    (fun (_ : List Bool) (w : EntryWorld) => decide ((w.sent = ["entry-1"] ∧ w.confirmed = []) ∧
      w.memory.isSome = true)) hexec
  obtain ⟨⟨hsent, hconfirmed⟩, halive⟩ := of_decide_eq_true hw
  have hc : w.Unresolved "entry-1" := ⟨by rw [hsent]; simp, by rw [hconfirmed]; simp⟩
  have hblocks := unresolved_entry_blocks sampleEntryIdentity none none es w hrun "entry-1" hc
  exact ⟨es, w, hrun, hc, halive, hblocks.2.2.1⟩

/-- An id whose write fails is in memory until the process dies; the next process accepts
another. -/
theorem accepted_id_changes : ¬∀ (identity : AccountRiskIdentity)
    (file : Option EntryCheckpointFile) (legacy : Option LegacyRiskFile) (es : List Bool)
    (w w' : EntryWorld) (c : String) (x : Int), (entryMachine identity file legacy).Run es w →
    (entryMachine identity file legacy).Later w w' → w.Unresolved c → c ∉ w'.confirmed →
    w.memoryAccepted = some x → w'.memory ≠ none → w'.memoryAccepted = some x := by
  intro hall
  have hexec : ((entryMachine sampleEntryIdentity none none).exec []
      (entryMachine sampleEntryIdentity none none).start
      (sampleSentEntry ++ [.recordError "entry-1" (some (sampleAccepted 8001)) false])).any
      (fun r => ((entryMachine sampleEntryIdentity none none).exec [] r.2
        [.crash, .restart true, .recordError "entry-1" (some (sampleAccepted 8002)) true]).any
        fun r' => (r.2.sent = ["entry-1"] ∧ r.2.confirmed = []) ∧
          r.2.memoryAccepted = some 8001 ∧ r'.2.confirmed = [] ∧ r'.2.memory.isSome = true ∧
          r'.2.memoryAccepted = some 8002) := by
    decide +kernel
  obtain ⟨es, w, hrun, hw⟩ := Machine.run_of_exec_start _ (fun (_ : List Bool) w =>
    ((entryMachine sampleEntryIdentity none none).exec [] w
      [.crash, .restart true, .recordError "entry-1" (some (sampleAccepted 8002)) true]).any
      fun r' => (w.sent = ["entry-1"] ∧ w.confirmed = []) ∧
        w.memoryAccepted = some 8001 ∧ r'.2.confirmed = [] ∧ r'.2.memory.isSome = true ∧
        r'.2.memoryAccepted = some 8002) hexec
  cases hlater : (entryMachine sampleEntryIdentity none none).exec [] w
      [.crash, .restart true, .recordError "entry-1" (some (sampleAccepted 8002)) true] with
  | none => simp [hlater] at hw
  | some r' =>
    rw [hlater, Option.any_some] at hw
    obtain ⟨⟨hsent, hconfirmed⟩, hid, hconfirmed', halive, hid'⟩ := of_decide_eq_true hw
    have hsame := hall sampleEntryIdentity none none es w r'.2 "entry-1" 8001 hrun
      (Machine.later_of_exec hlater) ⟨by rw [hsent]; simp, by rw [hconfirmed]; simp⟩
      (by rw [hconfirmed']; simp) hid (Option.isSome_iff_ne_none.mp halive)
    rw [hid'] at hsame
    simp at hsame

end Neoethos
